import Spexis.Model.LookaheadScheduling

/-! # The scheduler

Requests are objects that the containers share: `request` holds them by id, and the
containers hold ids. -/

namespace Spexis

open Python

namespace Request

/-- Has a correction not been computed with yet? -/
def justCorrected (r : Request) : Bool :=
  r.justFixed = some true ∧ r.specResult = some false

/-- The first half of `_preempt_request`: a correction that the workers have not been
sent is kept for the resumption. -/
def markForPreemption (r : Request) : Request :=
  { r with
    shouldPreempt := true
    postpreemptSpecResult :=
      if r.postpreemptSpecResult = some false then some false else some (¬ r.justCorrected)
    postpreemptFixedIdx :=
      if r.postpreemptSpecResult = some false then r.postpreemptFixedIdx
      else if r.justCorrected then r.fixedIdx else none }

/-- The second half of `_preempt_request`, for a request with nothing in flight. -/
def reinitialize (r : Request) : Request :=
  { r with
    spLen := 0
    specResult := none
    fixedIdx := none
    flushLen := none
    justFixed := none
    dropLen := 0
    confidenceDropped := false
    stopDropped := false
    confidencePassed := false
    predictedLenProb := []
    shouldPreempt := false
    numScheduled := 0
    numComputedTokens := 0 }

/-- The correction that a step carries to the workers, if any: the index of the corrected
output token. -/
def correction (r : Request) (isCached : Bool) : Option (Option ℤ) :=
  if r.postpreemptSpecResult = some false then some r.postpreemptFixedIdx
  else if r.specResult = some false ∧ (r.justFixed = some true ∨ ¬ isCached) then
    some r.fixedIdx
  else none

/-- A correction kept over a preemption is sent once. -/
def correctionSent (r : Request) : Request :=
  if r.postpreemptSpecResult = some false then
    { r with postpreemptSpecResult := none, postpreemptFixedIdx := none }
  else r

/-- `num_computed_tokens += n`. -/
def advance (r : Request) (n : ℕ) : Request :=
  { r with numComputedTokens := r.numComputedTokens + n }

/-- `num_scheduled -= 1`: one of the request's batches is no longer in flight. -/
def landed (r : Request) : Request :=
  { r with numScheduled := r.numScheduled - 1 }

/-- A drafted token awaits its verification. -/
def drafted (r : Request) (tokenId : TokenId) (specConfidence : ℚ) (predictedLenProb : List ℚ) :
    Request :=
  { r.appendOutputTokenIds tokenId specConfidence predictedLenProb with spLen := r.spLen + 1 }

/-- A draft that would stop the request ends its speculation. -/
def stopDrop (r : Request) : Request :=
  { r with stopDropped := true, dropLen := r.spLen }

/-- The tokens of a running request that remain to be computed. -/
def numUncomputed (r : Request) : ℤ :=
  (r.numTokensWithSpec : ℤ) - r.numComputedTokens

end Request

structure Scheduler where
  request : ReqId → Request
  /-- The keys of the dictionary of live requests. -/
  requests : List ReqId
  waiting : List ReqId
  runningScheduled : List ReqId
  toBePreempted : List ReqId
  finishedReqIds : List ReqId
  /-- The keys of `_cached_reqs_data`. -/
  cachedReqsData : List ReqId
  kvCacheManager : KVCacheManager

namespace Scheduler

def init (cfg : Config) : Scheduler where
  request := fun _ => Request.init [] { maxTokens := 0 } none
  requests := []
  waiting := []
  runningScheduled := []
  toBePreempted := []
  finishedReqIds := []
  cachedReqsData := []
  kvCacheManager := .init cfg.kvCache

def setRequest (s : Scheduler) (reqId : ReqId) (r : Request) : Scheduler :=
  { s with request := Function.update s.request reqId r }

/-- Has the request been reset and moved back to the waiting queue? -/
def preemptRequest (s : Scheduler) (reqId : ReqId) : Bool × Scheduler :=
  let r := (s.request reqId).markForPreemption
  if r.numScheduled > 0 then (false, s.setRequest reqId r)
  else (true, { s.setRequest reqId r.reinitialize with waiting := reqId :: s.waiting })

end Scheduler

/-- The scheduler together with the local variables of `schedule`. -/
structure Scheduling extends Scheduler where
  preemptedReqs : List ReqId := []
  scheduledNewReqs : List ReqId := []
  scheduledResumedReqs : List ReqId := []
  scheduledRunningFlushedReqs : List ReqId := []
  scheduledRunningSpReqs : List ReqId := []
  reqToNewBlockIds : List (ReqId × List BlockId) := []
  numScheduledTokens : List (ReqId × ℕ) := []
  tokenBudget : ℕ

namespace Scheduling

def setRequest (st : Scheduling) (reqId : ReqId) (r : Request) : Scheduling :=
  { st with toScheduler := st.toScheduler.setRequest reqId r }

/-- What scheduling any request does. -/
def assign (st : Scheduling) (reqId : ReqId) (numNewTokens : ℕ) (blocks : List BlockId) :
    Scheduling :=
  let r := st.request reqId
  { st.setRequest reqId { r with numScheduled := r.numScheduled + 1 } with
    reqToNewBlockIds := dictSet st.reqToNewBlockIds reqId blocks
    numScheduledTokens := dictSet st.numScheduledTokens reqId numNewTokens
    tokenBudget := st.tokenBudget - numNewTokens }

def assignFlushed (st : Scheduling) (reqId : ReqId) (numNewTokens : ℕ) (blocks : List BlockId) :
    Scheduling :=
  { st.assign reqId numNewTokens blocks with
    scheduledRunningFlushedReqs := st.scheduledRunningFlushedReqs ++ [reqId] }

def assignSp (st : Scheduling) (reqId : ReqId) (numNewTokens : ℕ) (blocks : List BlockId) :
    Scheduling :=
  { st.assign reqId numNewTokens blocks with
    scheduledRunningSpReqs := st.scheduledRunningSpReqs ++ [reqId] }

/-- One pass over the requests that wait for their batches to drain: those that still do. -/
def drainPreempted : List ReqId → Scheduling → List ReqId × Scheduling
  | [], st => ([], st)
  | reqId :: rest, st =>
    let (preempted, s) := st.toScheduler.preemptRequest reqId
    let st := { st with toScheduler := s, preemptedReqs := st.preemptedReqs ++ [reqId] }
    let (newToBePreempted, st) := drainPreempted rest st
    (if preempted then newToBePreempted else reqId :: newToBePreempted, st)

/-- The marks `_apply_confidence_drop` leaves on the running requests. -/
def setConfidencePassed (st : Scheduling) (passed : List ReqId) : Scheduling :=
  { st with
    request := fun reqId =>
      if reqId ∈ st.runningScheduled then
        { st.request reqId with confidencePassed := reqId ∈ passed }
      else st.request reqId }

/-- Pops the newest running request to free its blocks. -/
def evict (cfg : Config) (st : Scheduling) (preempted : ReqId) : Scheduling :=
  let s := st.toScheduler
  let s := { s.setRequest preempted { s.request preempted with status := .preempted } with
    runningScheduled := s.runningScheduled.dropLast
    kvCacheManager := s.kvCacheManager.free cfg.kvCache preempted }
  let (done, s) := s.preemptRequest preempted
  { st with
    toScheduler :=
      if done then s else { s with toBePreempted := s.toBePreempted ++ [preempted] }
    preemptedReqs := st.preemptedReqs ++ [preempted] }

/-- `_allocate_with_preemption`: the new blocks, or `none` when the request itself had
to be preempted. Every round but the last pops a running request. -/
def allocateWithPreemption (cfg : Config) (reqId : ReqId) (numNewTokens : ℕ) :
    ℕ → Scheduling → Except PyError (Option (List BlockId) × Scheduling)
  | 0, _ => .error .indexError
  | fuel + 1, st => do
    let (newBlocks, kv) ← SPKVCacheManager.allocateSlots cfg.kvCache reqId (st.request reqId)
      numNewTokens [] cfg.scheduler.numLookaheadTokens st.kvCacheManager
    let st := { st with kvCacheManager := kv }
    match newBlocks with
    | some blocks => return (some blocks, st)
    | none =>
      match st.runningScheduled.getLast? with
      | none => throw .indexError
      | some preempted =>
        let st := st.evict cfg preempted
        if preempted = reqId then return (none, st)
        allocateWithPreemption cfg reqId numNewTokens fuel st

/-- The caps on the number of tokens of one request. -/
def capNewTokens (cfg : Config) (numNewTokens : ℤ) (tokenBudget : ℕ) : ℤ :=
  let threshold := cfg.scheduler.longPrefillTokenThreshold
  min (if 0 < threshold ∧ threshold < numNewTokens then threshold else numNewTokens) tokenBudget

/-- The loop over the running requests, from position `reqIndex` on. -/
def runningLoop (cfg : Config) : ℕ → ℕ → Scheduling → Except PyError Scheduling
  | 0, _, st => .ok st
  | fuel + 1, reqIndex, st =>
    match st.runningScheduled[reqIndex]? with
    | none => .ok st
    | some reqId =>
      let r := st.request reqId
      if st.tokenBudget = 0 then .ok st
      else if r.shouldPreempt then runningLoop cfg fuel (reqIndex + 1) st
      else if r.hasPendingRealToken then do
        -- a chunked prefill, a corrected token or the end of a drop
        let st := st.setRequest reqId { r with dropEnd := false }
        let numNewTokens := capNewTokens cfg
          (if r.numComputedTokens < r.numPromptTokens then r.numUncomputed else 1) st.tokenBudget
        pyAssert (numNewTokens > 0) ""
        let (newBlocks, st) ← allocateWithPreemption cfg reqId numNewTokens.toNat
          (st.runningScheduled.length + 1) st
        match newBlocks with
        | none => return st
        | some blocks =>
          runningLoop cfg fuel (reqIndex + 1) (st.assignFlushed reqId numNewTokens.toNat blocks)
      else if r.confidenceDropped ∨ r.stopDropped then runningLoop cfg fuel (reqIndex + 1) st
      else if ¬ cfg.enableLaSched1 ∨ r.confidencePassed then do
        let numNewTokens := capNewTokens cfg r.numUncomputed st.tokenBudget
        pyAssert (numNewTokens > 0) ""
        let (newBlocks, st) ← allocateWithPreemption cfg reqId numNewTokens.toNat
          (st.runningScheduled.length + 1) st
        match newBlocks with
        | none => return st
        | some blocks =>
          runningLoop cfg fuel (reqIndex + 1) (st.assignSp reqId numNewTokens.toNat blocks)
      else
        runningLoop cfg fuel (reqIndex + 1)
          (st.setRequest reqId { r with confidenceDropped := true, dropLen := r.spLen })

/-- A waiting request starts to run. -/
def admitRequest (st : Scheduling) (reqId : ReqId) (numComputedTokens numNewTokens : ℕ)
    (computedBlocks newBlocks : List BlockId) : Except PyError Scheduling := do
  let r := st.request reqId
  let st := { st.assign reqId numNewTokens (computedBlocks ++ newBlocks) with
    runningScheduled := st.runningScheduled ++ [reqId] }
  let st ← match r.status with
    | .waiting => .ok { st with scheduledNewReqs := st.scheduledNewReqs ++ [reqId] }
    | .preempted => .ok { st with scheduledResumedReqs := st.scheduledResumedReqs ++ [reqId] }
    | _ => .error (.runtimeError "Invalid request status")
  return st.setRequest reqId { st.request reqId with
    status := .running
    numComputedTokens := numComputedTokens }

/-- The loop over the waiting queue. `skipped` holds the requests passed over, the last
one first; they go back to the head of the queue. -/
def waitingLoop (cfg : Config) (shouldEstimateLength : Bool) (memInTokens : ℤ) :
    List ReqId → List ReqId → List ℚ → Scheduling → Except PyError Scheduling
  | [], skipped, _, st => .ok { st with waiting := skipped.reverse }
  | reqId :: waiting, skipped, memUsageList, st =>
    let putBack (st : Scheduling) := { st with waiting := skipped.reverse ++ reqId :: waiting }
    let r := st.request reqId
    let memUsageList :=
      if shouldEstimateLength then addFootprint cfg r memUsageList else memUsageList
    if st.tokenBudget = 0 then .ok (putBack st)
    else if st.runningScheduled.length = cfg.scheduler.maxNumSeqs then .ok (putBack st)
    else if shouldEstimateLength ∧
        memUsageList.any (· > cfg.spexis.memEstimateMargin * memInTokens) then .ok (putBack st)
    else if r.status = .waitingForFsm ∧ ¬ (r.useStructuredOutput ∧ r.grammar) then
      waitingLoop cfg shouldEstimateLength memInTokens waiting (reqId :: skipped) memUsageList st
    else do
      let st :=
        if r.status = .waitingForFsm then st.setRequest reqId { r with status := .waiting } else st
      let ((computedBlocks, numComputedTokens), kv) ←
        st.kvCacheManager.getComputedBlocks cfg.kvCache reqId (st.request reqId)
      let st := { st with kvCacheManager := kv }
      let numNewTokens :=
        capNewTokens cfg ((r.numTokens : ℤ) - numComputedTokens) st.tokenBudget
      pyAssert (numNewTokens > 0) ""
      let (newBlocks, kv) ← SPKVCacheManager.allocateSlots cfg.kvCache reqId (st.request reqId)
        numNewTokens.toNat computedBlocks 0 st.kvCacheManager
      let st := { st with kvCacheManager := kv }
      match newBlocks with
      | none => return putBack st
      | some newBlocks =>
        let st ← st.admitRequest reqId numComputedTokens numNewTokens.toNat computedBlocks newBlocks
        waitingLoop cfg shouldEstimateLength memInTokens waiting skipped memUsageList st

/-- The requests whose batches have drained go back to the waiting queue. -/
def drainPass (st : Scheduling) : Scheduling :=
  let (newToBePreempted, st) := drainPreempted st.toBePreempted st
  { st with toBePreempted := newToBePreempted }

/-- Marks the requests that keep speculating, and returns the highest dropped confidence. -/
def confidencePass (cfg : Config) (st : Scheduling) : Except PyError (Scheduling × ℚ) :=
  if cfg.enableLaSched1 then do
    let (passed, confidence) ← applyConfidenceDrop cfg st.request st.runningScheduled
    return (st.setConfidencePassed passed, confidence)
  else .ok (st, 0)

def memoryEstimate (cfg : Config) (st : Scheduling) : Except PyError MemoryEstimate :=
  if cfg.enableLaSched2 then
    estimateLookaheadMemory cfg st.kvCacheManager st.waiting
      (st.runningScheduled.map st.request) st.tokenBudget (st.preemptedReqs ≠ [])
  else .ok ⟨false, false, [], 0⟩

/-- Nothing is admitted in an iteration that preempts. -/
def waitingPass (cfg : Config) (estimate : MemoryEstimate) (st : Scheduling) :
    Except PyError Scheduling :=
  if st.preemptedReqs = [] ∧ ¬ estimate.delayPrefill then
    waitingLoop cfg estimate.shouldEstimateLength estimate.memInTokens st.waiting []
      estimate.memUsageList st
  else .ok st

/-- The passes that choose the requests of this iteration, and the highest confidence
that was dropped. -/
def selectRequests (cfg : Config) (st : Scheduling) : Except PyError (Scheduling × ℚ) := do
  let (st, maxDroppedConfidence) ← st.drainPass.confidencePass cfg
  let st ← runningLoop cfg st.runningScheduled.length 0 st
  let estimate ← st.memoryEstimate cfg
  let st ← st.waitingPass cfg estimate
  return (st, maxDroppedConfidence)

/-- `_make_cached_request_data`. -/
def makeCachedRequestData (st : Scheduling) (reqId : ReqId) (resumedFromPreemption : Bool) :
    Except PyError (CachedRequestData × Scheduling) := do
  let r := st.request reqId
  let numScheduledTokens ← dictGet st.numScheduledTokens reqId
  let newBlockIds ← dictGet st.reqToNewBlockIds reqId
  let isCached := decide (reqId ∈ st.cachedReqsData)
  let reqData : CachedRequestData :=
    { reqId
      resumedFromPreemption
      newTokenIds :=
        pySlice r.allTokenIds r.numComputedTokens (r.numComputedTokens + numScheduledTokens)
      newBlockIds
      numComputedTokens := r.numComputedTokens
      specResult := true
      fixedIdx := -1 }
  let reqData ← reqData.carry r (r.correction isCached)
  return (reqData, { st.setRequest reqId r.correctionSent with
    cachedReqsData := setAdd st.cachedReqsData reqId })

def makeCachedRequestDataList (resumedFromPreemption : Bool) :
    List ReqId → Scheduling → Except PyError (List CachedRequestData × Scheduling)
  | [], st => .ok ([], st)
  | reqId :: reqIds, st => do
    let (reqData, st) ← st.makeCachedRequestData reqId resumedFromPreemption
    let (rest, st) ← makeCachedRequestDataList resumedFromPreemption reqIds st
    return (reqData :: rest, st)

def makeNewRequestData (st : Scheduling) (reqId : ReqId) : Except PyError NewRequestData := do
  let blockIds ← dictGet st.reqToNewBlockIds reqId
  let r := st.request reqId
  return ⟨reqId, r.promptTokenIds, blockIds, r.numComputedTokens⟩

/-- Whether the scheduling constraints are satisfied. -/
def checkConstraints (cfg : Config) (st : Scheduling) : Except PyError Unit := do
  pyAssert ((st.numScheduledTokens.map Prod.snd).sum ≤ cfg.maxNumScheduledTokens) ""
  pyAssert (st.runningScheduled.length ≤ cfg.scheduler.maxNumSeqs) ""
  pyAssert (st.scheduledNewReqs.length + st.scheduledResumedReqs.length +
    st.scheduledRunningFlushedReqs.length + st.scheduledRunningSpReqs.length ≤
      st.runningScheduled.length) ""
  -- a request with structured output would need a grammar bitmask
  if (st.numScheduledTokens.map Prod.fst).any fun reqId => (st.request reqId).useStructuredOutput
  then throw (.notImplementedError "")

/-- The output for the chosen requests. -/
def makeOutput (st : Scheduling) :
    Except PyError (SpexisSchedulerOutput × ResumeHelper × Scheduling) := do
  let newReqs ← st.scheduledNewReqs.mapM st.makeNewRequestData
  let (resumedReqs, st) ← st.makeCachedRequestDataList true st.scheduledResumedReqs
  let (flushedReqs, st) ← st.makeCachedRequestDataList false st.scheduledRunningFlushedReqs
  let (spReqs, st) ← st.makeCachedRequestDataList false st.scheduledRunningSpReqs
  let out : SpexisSchedulerOutput :=
    { scheduledNewReqs := newReqs
      scheduledCachedReqs := resumedReqs ++ flushedReqs ++ spReqs
      numScheduledTokens := st.numScheduledTokens
      totalNumScheduledTokens := (st.numScheduledTokens.map Prod.snd).sum
      finishedReqIds := st.finishedReqIds }
  let resumeHelper :=
    st.scheduledResumedReqs.map fun reqId => (reqId, (st.request reqId).allTokenIds)
  return (out, resumeHelper, st)

end Scheduling

namespace Scheduler

open Scheduling

/-- The number of computed tokens advances after the output has been built. -/
def advanceComputed : List (ReqId × ℕ) → Scheduler → Except PyError Scheduler
  | [], s => .ok s
  | (reqId, numScheduledTokens) :: rest, s =>
    if reqId ∈ s.requests then
      advanceComputed rest (s.setRequest reqId ((s.request reqId).advance numScheduledTokens))
    else .error .keyError

/-- What `schedule` returns. -/
structure ScheduleResult where
  schedulerOutput : SpexisSchedulerOutput
  resumeHelper : ResumeHelper
  maxDroppedConfidence : ℚ

def schedule (cfg : Config) (s : Scheduler) : Except PyError (ScheduleResult × Scheduler) := do
  let (st, maxDroppedConfidence) ←
    selectRequests cfg { s with tokenBudget := cfg.maxNumScheduledTokens }
  st.checkConstraints cfg
  let (out, resumeHelper, st) ← st.makeOutput
  let s ← advanceComputed st.numScheduledTokens st.toScheduler
  return (⟨out, resumeHelper, maxDroppedConfidence⟩, { s with finishedReqIds := [] })

/-! ## Draft ingestion -/

/-- The drafted tokens of one request with their confidences. -/
def ingestTokens (cfg : Config) (predictedLenProb : List ℚ) (confidences : List ℚ) :
    List TokenId → ℕ → Request → Except PyError Request
  | [], _, r => .ok r
  | token :: tokens, numNew, r => do
    let confidence ← pyGet confidences numNew
    let r := r.drafted token confidence predictedLenProb
    let stopped ← checkStopFromSpec r cfg.maxModelLen
    ingestTokens cfg predictedLenProb confidences tokens (numNew + 1)
      (if stopped then r.stopDrop else r)

/-- `update_from_spec_output`; the outputs it builds are not used. -/
def updateFromSpecOutput (cfg : Config) (out : SpexisSchedulerOutput) (output : ModelRunnerOutput)
    (s : Scheduler) : Except PyError Scheduler :=
  go s.runningScheduled s
where
  go : List ReqId → Scheduler → Except PyError Scheduler
    | [], s => .ok s
    | reqId :: reqIds, s =>
      if out.numScheduled reqId = 0 then go reqIds s
      else do
        let r ← ingestTokens cfg (output.lengthProbs reqId) (output.specConfidence reqId)
          (output.sampledTokenIds reqId) 0 (s.request reqId)
        go reqIds (s.setRequest reqId r)

/-! ## Verification -/

def freeRequest (cfg : Config) (reqId : ReqId) (s : Scheduler) : Except PyError Scheduler := do
  pyAssert (s.request reqId).isFinished ""
  if reqId ∈ s.requests then
    return { s with
      kvCacheManager := (s.kvCacheManager.free cfg.kvCache reqId).freeBlockHashes reqId
      cachedReqsData := s.cachedReqsData.erase reqId
      requests := s.requests.erase reqId
      finishedReqIds := setAdd s.finishedReqIds reqId }
  else throw .keyError

/-- Verifies target tokens until one stops the request: whether one did, and the tokens
up to it. -/
def verifyTokens (cfg : Config) (r : Request) :
    List TokenId → Except PyError (Bool × List TokenId × Request)
  | [] => .ok (false, [], r)
  | token :: tokens => do
    let (_, r) ← r.verifyOutputTokenIds token
    let (stopped, r) ← checkStopFromValidation r cfg.maxModelLen
    if stopped then return (true, [token], r)
    let (stopped, kept, r) ← verifyTokens cfg r tokens
    return (stopped, token :: kept, r)

/-- What `_verify_and_collect` accumulates. -/
structure Verification where
  scheduler : Scheduler
  outputs : List EngineCoreOutput
  freeReqsScheduled : List ReqId

/-- The body of `_verify_and_collect` for one request of the batch. -/
def verifyRequest (cfg : Config) (output : ModelRunnerOutput) (reqId : ReqId) (v : Verification) :
    Except PyError Verification := do
  let r := v.scheduler.request reqId
  let r := r.landed
  -- the token of a rejected draft has been sent when the draft was rejected
  let sendToUser := r.specResult ≠ some false
  let (stopped, newTokenIds, r) ← verifyTokens cfg r (output.sampledTokenIds reqId)
  let s := v.scheduler.setRequest reqId r
  let outputs :=
    if sendToUser ∧ newTokenIds ≠ [] then
      v.outputs ++ [⟨reqId, newTokenIds, r.status.getFinishedReason, r.stopReason⟩]
    else v.outputs
  if stopped then
    return ⟨← freeRequest cfg reqId s, outputs, v.freeReqsScheduled ++ [reqId]⟩
  return ⟨s, outputs, v.freeReqsScheduled⟩

def verifyAndCollect (cfg : Config) (out : SpexisSchedulerOutput) (output : ModelRunnerOutput) :
    List ReqId → Verification → Except PyError Verification
  | [], v => .ok v
  | reqId :: reqIds, v =>
    if out.numScheduled reqId = 0 then verifyAndCollect cfg out output reqIds v
    else do verifyAndCollect cfg out output reqIds (← verifyRequest cfg output reqId v)

def updateFromTrueOutput (cfg : Config) (out : SpexisSchedulerOutput) (output : ModelRunnerOutput)
    (s : Scheduler) : Except PyError (List EngineCoreOutput × Scheduler) := do
  let v ← verifyAndCollect cfg out output s.runningScheduled ⟨s, [], []⟩
  let v ← verifyAndCollect cfg out output s.toBePreempted v
  return (v.outputs, { v.scheduler with
    runningScheduled := v.freeReqsScheduled.foldl List.erase s.runningScheduled
    toBePreempted := v.freeReqsScheduled.foldl List.erase s.toBePreempted })

/-! ## Requests from outside -/

def addRequest (reqId : ReqId) (r : Request) (s : Scheduler) : Except PyError Scheduler :=
  if r.samplingParams.temperature ≠ 0 then
    .error (.notImplementedError ("Spexis currently implements greedy verification only: " ++
      "requests must use temperature 0.0"))
  else
    .ok { s.setRequest reqId r with
      waiting := s.waiting ++ [reqId]
      requests := setAdd s.requests reqId }

/-- `finish_requests`, in the order in which the set of ids is iterated. -/
def finishRequests (cfg : Config) (finishedStatus : RequestStatus) (reqIds : List ReqId)
    (s : Scheduler) : Except PyError Scheduler := do
  pyAssert finishedStatus.isFinished ""
  go reqIds s
where
  go : List ReqId → Scheduler → Except PyError Scheduler
    | [], s => .ok s
    | reqId :: reqIds, s => do
      if reqId ∉ s.requests then go reqIds s
      else
        let r := s.request reqId
        -- a running request is not removed from the running list
        if r.status ≠ .running ∧ reqId ∉ s.waiting then throw (.valueError "value not in deque")
        let s :=
          if r.status = .running then s else { s with waiting := s.waiting.erase reqId }
        let s ← freeRequest cfg reqId (s.setRequest reqId { r with status := finishedStatus })
        go reqIds s

end Scheduler

end Spexis
