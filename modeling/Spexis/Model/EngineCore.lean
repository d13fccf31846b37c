import Spexis.Library.Transition
import Spexis.Model.Scheduler

/-! # The engine loop

`step_with_spexis` verifies the batch scheduled a pipeline depth earlier, schedules a
batch and ingests its drafts. The machine below takes these operations one at a time,
with the arrival of requests between two iterations. -/

namespace Spexis

open Python

/-- What the executor returns for a batch. -/
structure Execution where
  trueOutput : ModelRunnerOutput
  specOutput : ModelRunnerOutput

/-- The executor, run on a batch when the scheduler has just scheduled it. -/
abbrev Executor := Scheduler → SpexisSchedulerOutput → Execution

/-- A batch whose target output has not been verified. -/
structure InFlight where
  schedulerOutput : SpexisSchedulerOutput
  trueOutput : ModelRunnerOutput
  /-- The requests as they were when the batch had been scheduled. -/
  request : ReqId → Request

/-- What remains to be done of an iteration of `step_with_spexis`. -/
inductive Phase where
  | idle
  | verified
  | executing (out : SpexisSchedulerOutput) (specOutput : ModelRunnerOutput)

def Phase.isIdle : Phase → Bool
  | .idle => true
  | _ => false

theorem Phase.isIdle_iff (phase : Phase) : phase.isIdle = true ↔ phase = .idle := by
  cases phase <;> simp [isIdle]

structure EngineCore where
  scheduler : Scheduler
  batchQueueForSpec : List (Option InFlight)
  phase : Phase

namespace EngineCore

def init (cfg : Config) : EngineCore where
  scheduler := .init cfg
  batchQueueForSpec := List.replicate cfg.pipelineParallelSize none
  phase := .idle

/-- Verifies the oldest batch in flight. -/
def verify (cfg : Config) (e : EngineCore) : Except PyError (List EngineCoreOutput × EngineCore) :=
  match e.batchQueueForSpec with
  | [] => .ok ([], { e with phase := .verified })
  | none :: queue => .ok ([], { e with batchQueueForSpec := queue, phase := .verified })
  | some batch :: queue => do
    let (outputs, s) ←
      e.scheduler.updateFromTrueOutput cfg batch.schedulerOutput batch.trueOutput
    return (outputs, ⟨s, queue, .verified⟩)

/-- Schedules a batch and launches it unless it is empty. -/
def schedule (cfg : Config) (execute : Executor) (e : EngineCore) : Except PyError EngineCore := do
  let (result, s) ← e.scheduler.schedule cfg
  let out := result.schedulerOutput
  if out.totalNumScheduledTokens > 0 then
    let execution := execute s out
    return {
      scheduler := s
      batchQueueForSpec := e.batchQueueForSpec ++ [some ⟨out, execution.trueOutput, s.request⟩]
      phase := .executing out execution.specOutput }
  return ⟨s, e.batchQueueForSpec ++ [none], .idle⟩

/-- Ingests the drafts of the batch that has just been launched. -/
def ingest (cfg : Config) (e : EngineCore) : Except PyError EngineCore :=
  match e.phase with
  | .executing out specOutput => do
    let s ← e.scheduler.updateFromSpecOutput cfg out specOutput
    return { e with scheduler := s, phase := .idle }
  | _ => .ok e

/-- The compilation of the request's grammar, which runs in the background, is done. -/
def compileGrammar (reqId : ReqId) (e : EngineCore) : EngineCore :=
  let r := e.scheduler.request reqId
  { e with scheduler := e.scheduler.setRequest reqId { r with grammar := true } }

def stepWithSpexis (cfg : Config) (execute : Executor) (e : EngineCore) :
    Except PyError (List EngineCoreOutput × EngineCore) := do
  let (outputs, e) ← e.verify cfg
  let e ← e.schedule cfg execute
  let e ← e.ingest cfg
  return (outputs, e)

theorem verify_phase {cfg : Config} {e e' : EngineCore} {outputs : List EngineCoreOutput}
    (h : e.verify cfg = .ok (outputs, e')) : e'.phase = .verified := by
  unfold verify at h
  split at h
  · cases h
    rfl
  · cases h
    rfl
  · simp only [bind_eq_ok, pure_eq_ok, Prod.exists, Prod.mk.injEq] at h
    obtain ⟨_, _, -, -, rfl⟩ := h
    rfl

end EngineCore

/-! ## Runs -/

/-- What can happen to the engine: a request arrives or is aborted between two iterations, a
grammar is compiled, or an iteration takes its next operation. -/
inductive Operation where
  | addRequest (reqId : ReqId) (promptTokenIds : List TokenId) (samplingParams : SamplingParams)
      (eosTokenId : Option TokenId)
  | compileGrammar (reqId : ReqId)
  | finishRequests (finishedStatus : RequestStatus) (reqIds : List ReqId)
  | verify
  | schedule (execute : Executor)
  | ingest

/-- Does the operation come from a client that gives up on requests? -/
def Operation.isAbort : Operation → Bool
  | .finishRequests .. => true
  | _ => false

/-- The engine with what has gone in and come out of it. -/
structure System where
  engine : EngineCore
  /-- The ids that requests have had. -/
  added : List ReqId
  /-- The outputs returned so far, in order. -/
  outputs : List EngineCoreOutput

namespace System

def init (cfg : Config) : System :=
  ⟨.init cfg, [], []⟩

/-- The concatenated `new_token_ids` of a request. -/
def emitted (sys : System) (reqId : ReqId) : List TokenId :=
  (sys.outputs.filter (·.requestId = reqId)).flatMap (·.newTokenIds)

inductive Step (cfg : Config) (sys : System) : Operation → System → Prop where
  | addRequest {s : Scheduler} (reqId : ReqId) (promptTokenIds : List TokenId)
      (samplingParams : SamplingParams) (eosTokenId : Option TokenId)
      (hphase : sys.engine.phase = .idle) (hfresh : reqId ∉ sys.added)
      (h : sys.engine.scheduler.addRequest reqId
        (.init promptTokenIds samplingParams eosTokenId) = .ok s) :
      Step cfg sys (.addRequest reqId promptTokenIds samplingParams eosTokenId)
        ⟨{ sys.engine with scheduler := s }, reqId :: sys.added, sys.outputs⟩
  | compileGrammar (reqId : ReqId) :
      Step cfg sys (.compileGrammar reqId)
        { sys with engine := sys.engine.compileGrammar reqId }
  | finishRequests {s : Scheduler} (finishedStatus : RequestStatus) (reqIds : List ReqId)
      (hphase : sys.engine.phase = .idle) (hnodup : reqIds.Nodup)
      (h : sys.engine.scheduler.finishRequests cfg finishedStatus reqIds = .ok s) :
      Step cfg sys (.finishRequests finishedStatus reqIds)
        { sys with engine := { sys.engine with scheduler := s } }
  | verify {outputs : List EngineCoreOutput} {e : EngineCore} (hphase : sys.engine.phase = .idle)
      (h : sys.engine.verify cfg = .ok (outputs, e)) :
      Step cfg sys .verify ⟨e, sys.added, sys.outputs ++ outputs⟩
  | schedule {e : EngineCore} (execute : Executor) (hphase : sys.engine.phase = .verified)
      (h : sys.engine.schedule cfg execute = .ok e) :
      Step cfg sys (.schedule execute) { sys with engine := e }
  | ingest {e : EngineCore} {out : SpexisSchedulerOutput} {specOutput : ModelRunnerOutput}
      (hphase : sys.engine.phase = .executing out specOutput)
      (h : sys.engine.ingest cfg = .ok e) : Step cfg sys .ingest { sys with engine := e }

/-- The engine after the operation, if it can take it without raising. -/
def apply (cfg : Config) (sys : System) : Operation → Option System
  | .addRequest reqId promptTokenIds samplingParams eosTokenId =>
    match sys.engine.phase, sys.engine.scheduler.addRequest reqId
      (.init promptTokenIds samplingParams eosTokenId) with
    | .idle, .ok s =>
      if reqId ∈ sys.added then none
      else some ⟨{ sys.engine with scheduler := s }, reqId :: sys.added, sys.outputs⟩
    | _, _ => none
  | .compileGrammar reqId => some { sys with engine := sys.engine.compileGrammar reqId }
  | .finishRequests finishedStatus reqIds =>
    match sys.engine.phase, sys.engine.scheduler.finishRequests cfg finishedStatus reqIds with
    | .idle, .ok s =>
      if reqIds.Nodup then some { sys with engine := { sys.engine with scheduler := s } } else none
    | _, _ => none
  | .verify =>
    match sys.engine.phase, sys.engine.verify cfg with
    | .idle, .ok (outputs, e) => some ⟨e, sys.added, sys.outputs ++ outputs⟩
    | _, _ => none
  | .schedule execute =>
    match sys.engine.phase, sys.engine.schedule cfg execute with
    | .verified, .ok e => some { sys with engine := e }
    | _, _ => none
  | .ingest =>
    match sys.engine.phase, sys.engine.ingest cfg with
    | .executing _ _, .ok e => some { sys with engine := e }
    | _, _ => none

theorem apply_step {cfg : Config} {sys sys' : System} {operation : Operation}
    (h : sys.apply cfg operation = some sys') : Step cfg sys operation sys' := by
  cases operation with
  | addRequest reqId promptTokenIds samplingParams eosTokenId =>
      simp only [apply] at h
      split at h
      next s hphase hadd =>
        split_ifs at h with hfresh
        cases h
        exact .addRequest reqId promptTokenIds samplingParams eosTokenId hphase hfresh hadd
      · cases h
  | compileGrammar reqId =>
      cases h
      exact .compileGrammar reqId
  | finishRequests finishedStatus reqIds =>
      simp only [apply] at h
      split at h
      next s hphase hfinish =>
        split_ifs at h with hnodup
        cases h
        exact .finishRequests finishedStatus reqIds hphase hnodup hfinish
      · cases h
  | verify =>
      simp only [apply] at h
      split at h
      next outputs e hphase hverify =>
        cases h
        exact .verify hphase hverify
      · cases h
  | schedule execute =>
      simp only [apply] at h
      split at h
      next e hphase hschedule =>
        cases h
        exact .schedule execute hphase hschedule
      · cases h
  | ingest =>
      simp only [apply] at h
      split at h
      next out specOutput e hphase hingest =>
        cases h
        exact .ingest hphase hingest
      · cases h

/-- The engine after the operations, if it can take them all. -/
def applyAll (cfg : Config) : List Operation → System → Option System
  | [], sys => some sys
  | operation :: operations, sys => do applyAll cfg operations (← sys.apply cfg operation)

theorem applyAll_run {cfg : Config} {operations : List Operation} {sys sys' : System}
    (h : applyAll cfg operations sys = some sys') :
    Transition.Run (Step cfg) sys operations sys' := by
  induction operations generalizing sys with
  | nil =>
      cases h
      exact .nil
  | cons operation operations ih =>
      simp only [applyAll, Option.bind_eq_bind, Option.bind_eq_some_iff] at h
      obtain ⟨sys₁, hstep, h⟩ := h
      exact .cons (apply_step hstep) (ih h)

/-- An iteration of the engine loop is a run of its operations. -/
theorem stepWithSpexis_run {cfg : Config} {execute : Executor} {sys : System}
    {outputs : List EngineCoreOutput} {e : EngineCore} (hphase : sys.engine.phase = .idle)
    (h : sys.engine.stepWithSpexis cfg execute = .ok (outputs, e)) :
    ∃ operations, (operations = [.verify, .schedule execute, .ingest] ∨
        operations = [.verify, .schedule execute]) ∧
      Transition.Run (Step cfg) sys operations ⟨e, sys.added, sys.outputs ++ outputs⟩ := by
  simp only [EngineCore.stepWithSpexis, bind_eq_ok, pure_eq_ok, Prod.exists, Prod.mk.injEq] at h
  obtain ⟨_, e₁, hverify, e₂, hschedule, e₃, hingest, rfl, rfl⟩ := h
  have hone := Transition.Run.single (Step.verify hphase hverify)
  have htwo := hone.snoc (Step.schedule execute (EngineCore.verify_phase hverify) hschedule)
  cases hexec : e₂.phase with
  | executing out specOutput =>
      exact ⟨_, .inl rfl, htwo.snoc (.ingest hexec hingest)⟩
  | idle =>
      simp only [EngineCore.ingest, hexec] at hingest
      cases hingest
      exact ⟨_, .inr rfl, htwo⟩
  | verified =>
      simp only [EngineCore.ingest, hexec] at hingest
      cases hingest
      exact ⟨_, .inr rfl, htwo⟩

/-- Runs from the initial state. -/
abbrev Run (cfg : Config) : List Operation → System → Prop :=
  Transition.Run (Step cfg) (init cfg)

end System

end Spexis
