import Spexis.Model.EngineCore
import Spexis.Model.Worker.ModelRunner

/-! # The engine with its workers

The workers take every batch that is launched, in order, and an empty batch is never sent to them.
They all keep the same states, so that one stands for all. -/

namespace Spexis

open Python

def Operation.isSchedule : Operation → Bool
  | .schedule _ => true
  | _ => false

structure Cluster where
  system : System
  worker : ModelRunner

namespace Cluster

inductive Event where
  /-- The engine takes an operation that launches nothing. -/
  | operate (operation : Operation)
  /-- A batch is scheduled, and the workers update their states with its output. -/
  | launch (execute : Executor) (d : Delivery)

def init (cfg : Config) : Cluster :=
  ⟨.init cfg, .init⟩

inductive Step (cfg : Config) (runner : RunnerConfig) (c : Cluster) : Event → Cluster → Prop where
  | operate {sys : System} (operation : Operation)
      (hstep : System.Step cfg c.system operation sys)
      (hquiet : ∀ execute, operation = .schedule execute → sys.engine.phase = .idle) :
      Step cfg runner c (.operate operation) { c with system := sys }
  | launch {sys : System} {worker : ModelRunner} {specOutput : ModelRunnerOutput}
      (execute : Executor) (d : Delivery)
      (hstep : System.Step cfg c.system (.schedule execute) sys)
      (hphase : sys.engine.phase = .executing d.schedulerOutput specOutput)
      (hupdate : ModelRunner.updateStates runner d c.worker = .ok worker) :
      Step cfg runner c (.launch execute d) ⟨sys, worker⟩

/-- The cluster after the event, if it can take it without raising. -/
def apply (cfg : Config) (runner : RunnerConfig) (c : Cluster) : Event → Option Cluster
  | .operate operation =>
    match c.system.apply cfg operation with
    | none => none
    | some sys =>
      if operation.isSchedule ∧ ¬ sys.engine.phase.isIdle then none
      else some { c with system := sys }
  | .launch execute d =>
    match c.system.apply cfg (.schedule execute) with
    | none => none
    | some sys =>
      match sys.engine.phase, ModelRunner.updateStates runner d c.worker with
      | .executing out _, .ok worker =>
        if out = d.schedulerOutput then some ⟨sys, worker⟩ else none
      | _, _ => none

theorem apply_step {cfg : Config} {runner : RunnerConfig} {c c' : Cluster} {event : Event}
    (h : c.apply cfg runner event = some c') : Step cfg runner c event c' := by
  cases event with
  | operate operation =>
      simp only [apply] at h
      split at h
      · cases h
      next sys hsys =>
        split_ifs at h with hlaunched
        cases h
        refine .operate operation (System.apply_step hsys) fun execute hschedule => ?_
        rw [not_and, not_not, hschedule] at hlaunched
        exact sys.engine.phase.isIdle_iff.mp (hlaunched rfl)
  | launch execute d =>
      simp only [apply] at h
      split at h
      · cases h
      next sys hsys =>
        split at h
        next out specOutput worker hphase hupdate =>
          split_ifs at h with hout
          cases h
          exact .launch execute d (System.apply_step hsys) (hout ▸ hphase) hupdate
        · cases h

/-- Runs from the initial state. -/
abbrev Run (cfg : Config) (runner : RunnerConfig) : List Event → Cluster → Prop :=
  Transition.Run (Step cfg runner) (init cfg)

end Cluster

end Spexis
