import Spexis.Library.Transition
import Spexis.Model.V1.Scheduler

/-! # The engine loop of the vanilla scheduler

`step` waits for every batch it schedules; `step_with_batch_queue` keeps several batches in
flight. Requests arrive and are aborted between two iterations. -/

namespace Spexis.V1

open Python

/-- The executor, run on a batch when the scheduler has just scheduled it. -/
abbrev Executor := Scheduler → SchedulerOutput → ModelRunnerOutput

/-- A batch whose output has not been applied. -/
structure Batch where
  schedulerOutput : SchedulerOutput
  modelOutput : ModelRunnerOutput
  /-- The requests moved back to the waiting queue since the batch was scheduled. -/
  movedBack : List ReqId

namespace Scheduler

def hasRequests (s : Scheduler) : Prop :=
  0 < s.getNumUnfinishedRequests ∨ 0 < s.finishedReqIds.length

instance (s : Scheduler) : Decidable s.hasRequests :=
  inferInstanceAs (Decidable (_ ∨ _))

/-- The requests that `schedule` moves back to the waiting queue. -/
def preemptions (cfg : Config) (s : Scheduler) : List ReqId :=
  match (s.startScheduling cfg).selectRequests cfg with
  | .ok st => st.preemptedReqs
  | .error _ => []

end Scheduler

structure EngineCore where
  scheduler : Scheduler
  /-- The batches in flight, the oldest first. -/
  batchQueue : List Batch

namespace EngineCore

def init (cfg : Config) : Except PyError EngineCore := do
  return ⟨← Scheduler.init cfg, []⟩

/-- Schedules a batch and waits for its output. -/
def step (cfg : Config) (execute : Executor) (e : EngineCore) :
    Except PyError (List EngineCoreOutput × EngineCore) :=
  if e.scheduler.hasRequests then do
    let (out, s) ← e.scheduler.schedule cfg
    let (outputs, s) ← s.updateFromOutput cfg out (execute s out)
    return (outputs, { e with scheduler := s })
  else return ([], e)

/-- The first half of `step_with_batch_queue`: a new batch, if some request is not scheduled and
the queue is not full. -/
def launch (cfg : Config) (execute : Executor) (e : EngineCore) :
    Except PyError (Bool × EngineCore) :=
  if e.scheduler.getNumUnscheduledRequests > 0 ∧ e.batchQueue.length < cfg.batchQueueSize then do
    let (out, s) ← e.scheduler.schedule cfg
    let queue := e.batchQueue.map fun batch =>
      { batch with movedBack := batch.movedBack ++ e.scheduler.preemptions cfg }
    if out.totalNumScheduledTokens > 0 then
      return (true, ⟨s, queue ++ [⟨out, execute s out, []⟩]⟩)
    else return (false, ⟨s, queue⟩)
  else return (false, e)

/-- The second half: waits for the oldest batch and applies its output. -/
def collect (cfg : Config) (e : EngineCore) :
    Except PyError (List EngineCoreOutput × EngineCore) :=
  match e.batchQueue with
  | [] => .ok ([], e)
  | batch :: queue => do
    let (outputs, s) ←
      e.scheduler.updateFromOutput cfg batch.schedulerOutput batch.modelOutput
    return (outputs, ⟨s, queue⟩)

def stepWithBatchQueue (cfg : Config) (execute : Executor) (e : EngineCore) :
    Except PyError (List EngineCoreOutput × EngineCore) := do
  let (scheduledBatch, e) ← e.launch cfg execute
  if scheduledBatch then return ([], e) else e.collect cfg

/-- `step_fn`. -/
def stepFn (cfg : Config) (execute : Executor) (e : EngineCore) :
    Except PyError (List EngineCoreOutput × EngineCore) :=
  if 1 < cfg.batchQueueSize then e.stepWithBatchQueue cfg execute else e.step cfg execute

/-- The compilation of the request's grammar, which runs in the background, is done. -/
def compileGrammar (reqId : ReqId) (e : EngineCore) : EngineCore :=
  let r := e.scheduler.request reqId
  { e with scheduler := e.scheduler.setRequest reqId { r with grammar := true } }

end EngineCore

/-! ## Runs -/

/-- What comes with a request. -/
structure Arrival where
  promptTokenIds : List TokenId
  samplingParams : SamplingParams
  eosTokenId : Option TokenId := none
  loraIntId : Option ℤ := none
  mmPositions : List PlaceholderRange := []
  mmHashes : List String := []

/-- `Request.from_engine_core_request`. -/
def Arrival.request (arrival : Arrival) : Request where
  toRequest := .init arrival.promptTokenIds arrival.samplingParams arrival.eosTokenId
  loraIntId := arrival.loraIntId
  mmPositions := arrival.mmPositions
  mmHashes := arrival.mmHashes

inductive Operation where
  | addRequest (reqId : ReqId) (arrival : Arrival)
  | compileGrammar (reqId : ReqId)
  | finishRequests (finishedStatus : RequestStatus) (reqIds : List ReqId)
  | resetPrefixCache
  | step (execute : Executor)

/-- The engine with what has gone in and come out of it. -/
structure System where
  engine : EngineCore
  /-- The ids that requests have had. -/
  added : List ReqId
  /-- The outputs returned so far, in order. -/
  outputs : List EngineCoreOutput

namespace System

/-- The concatenated `new_token_ids` of a request. -/
def emitted (sys : System) (reqId : ReqId) : List TokenId :=
  (sys.outputs.filter (·.requestId = reqId)).flatMap (·.newTokenIds)

def init (cfg : Config) : Except PyError System := do
  return ⟨← EngineCore.init cfg, [], []⟩

/-- The engine after the operation, which may raise. -/
def apply (cfg : Config) (sys : System) : Operation → Except PyError System
  | .addRequest reqId arrival =>
    .ok { sys with
      engine := { sys.engine with
        scheduler := sys.engine.scheduler.addRequest reqId arrival.request }
      added := reqId :: sys.added }
  | .compileGrammar reqId => .ok { sys with engine := sys.engine.compileGrammar reqId }
  | .finishRequests finishedStatus reqIds => do
    let s ← sys.engine.scheduler.finishRequests cfg finishedStatus reqIds
    return { sys with engine := { sys.engine with scheduler := s } }
  | .resetPrefixCache =>
    .ok { sys with
      engine := { sys.engine with scheduler := sys.engine.scheduler.resetPrefixCache.2 } }
  | .step execute => do
    let (outputs, e) ← sys.engine.stepFn cfg execute
    return { sys with engine := e, outputs := sys.outputs ++ outputs }

/-- A new request has an id of its own. -/
def Accepts (sys : System) : Operation → Prop
  | .addRequest reqId _ => reqId ∉ sys.added
  | .finishRequests _ reqIds => reqIds.Nodup
  | _ => True

instance (sys : System) : (operation : Operation) → Decidable (sys.Accepts operation)
  | .addRequest reqId _ => inferInstanceAs (Decidable (reqId ∉ sys.added))
  | .finishRequests _ reqIds => inferInstanceAs (Decidable reqIds.Nodup)
  | .compileGrammar _ => isTrue trivial
  | .resetPrefixCache => isTrue trivial
  | .step _ => isTrue trivial

/-- An operation that does not raise. -/
structure Step (cfg : Config) (sys : System) (operation : Operation) (sys' : System) : Prop where
  accepts : sys.Accepts operation
  apply : sys.apply cfg operation = .ok sys'

/-- The engine after the operations, if it can take them all. -/
def applyAll (cfg : Config) : List Operation → System → Option System
  | [], sys => some sys
  | operation :: operations, sys =>
    match sys.apply cfg operation with
    | .ok sys' => if sys.Accepts operation then applyAll cfg operations sys' else none
    | .error _ => none

theorem applyAll_run {cfg : Config} {operations : List Operation} {sys sys' : System}
    (h : applyAll cfg operations sys = some sys') :
    Transition.Run (Step cfg) sys operations sys' := by
  induction operations generalizing sys with
  | nil =>
      cases h
      exact .nil
  | cons operation operations ih =>
      simp only [applyAll] at h
      split at h
      next sys₁ happly =>
        split_ifs at h with haccepts
        exact .cons ⟨haccepts, happly⟩ (ih h)
      · cases h

end System

end Spexis.V1
