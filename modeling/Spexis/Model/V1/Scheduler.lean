import Spexis.Model.LookaheadScheduling
import Spexis.Model.V1.EncoderCacheManager
import Spexis.Model.V1.KVCacheManager

/-! # The vanilla scheduler

Requests are objects that the containers share: `request` holds them by id, and the
containers hold ids. -/

namespace Spexis.V1

open Python

structure Config where
  scheduler : SchedulerConfig
  kvCache : KVCacheConfig
  /-- `max_concurrent_batches` of the executor. -/
  batchQueueSize : ℕ
  /-- `lora_config.max_loras`. -/
  maxLoras : Option ℕ := none
  disableChunkedMmInput : Bool := false
  maxNumEncoderInputTokens : ℕ := 0
  encoderCacheSize : ℕ := 0

def Config.maxModelLen (cfg : Config) : ℕ :=
  cfg.kvCache.maxModelLen

structure Scheduler where
  request : ReqId → Request
  /-- The keys of the dictionary of live requests. -/
  requests : List ReqId
  waiting : List ReqId
  running : List ReqId
  /-- The requests that are being executed. -/
  scheduledReqIds : List ReqId
  finishedReqIds : List ReqId
  kvCacheManager : KVCacheManager
  encoderCacheManager : EncoderCacheManager

/-! ## Scheduler outputs -/

structure NewRequestData where
  reqId : ReqId
  promptTokenIds : List TokenId
  blockIds : List BlockId
  numComputedTokens : ℕ

structure CachedRequestData where
  reqId : ReqId
  resumedFromPreemption : Bool
  newTokenIds : List TokenId
  newBlockIds : List BlockId
  numComputedTokens : ℕ

structure SchedulerOutput where
  scheduledNewReqs : List NewRequestData
  scheduledCachedReqs : List CachedRequestData
  /-- The items of the dictionary, in insertion order. -/
  numScheduledTokens : List (ReqId × ℕ)
  totalNumScheduledTokens : ℕ
  scheduledSpecDecodeTokens : List (ReqId × List TokenId)
  scheduledEncoderInputs : List (ReqId × List ℕ)
  numCommonPrefixBlocks : ℕ
  finishedReqIds : List ReqId
  freeEncoderInputIds : List (ReqId × ℕ)

/-- `num_scheduled_tokens.get(req_id, 0)`. -/
def SchedulerOutput.numScheduled (out : SchedulerOutput) (reqId : ReqId) : ℕ :=
  (dictGet? out.numScheduledTokens reqId).getD 0

/-- The sampled tokens of each request, and its next drafts if there is a drafter. -/
structure ModelRunnerOutput where
  sampledTokenIds : ReqId → List TokenId
  specTokenIds : Option (ReqId → List TokenId)

namespace Scheduler

def init (cfg : Config) : Except PyError Scheduler := do
  let kvCacheManager ← KVCacheManager.init cfg.kvCache
  return {
    request := fun _ => { toRequest := .init [] { maxTokens := 0 } none }
    requests := []
    waiting := []
    running := []
    scheduledReqIds := []
    finishedReqIds := []
    kvCacheManager := kvCacheManager
    encoderCacheManager := .init cfg.encoderCacheSize }

def setRequest (s : Scheduler) (reqId : ReqId) (r : Request) : Scheduler :=
  { s with request := Function.update s.request reqId r }

end Scheduler

/-- The scheduler together with the local variables of `schedule`. -/
structure Scheduling extends Scheduler where
  preemptedReqs : List ReqId := []
  scheduledNewReqs : List ReqId := []
  scheduledResumedReqs : List ReqId := []
  scheduledRunningReqs : List ReqId := []
  reqToNewBlockIds : List (ReqId × List BlockId) := []
  numScheduledTokens : List (ReqId × ℕ) := []
  tokenBudget : ℕ
  scheduledEncoderInputs : List (ReqId × List ℕ) := []
  encoderBudget : ℤ
  scheduledSpecDecodeTokens : List (ReqId × List TokenId) := []
  scheduledLoras : List ℤ := []

namespace Scheduling

/-! ## Encoder inputs -/

/-- The loop of `_try_schedule_encoder_inputs` from the `i`-th input on. -/
def tryScheduleEncoderInputsLoop (cfg : Config) (e : EncoderCacheManager) (reqId : ReqId)
    (r : Request) (numComputedTokens : ℕ) (numNewTokens : ℤ) :
    List PlaceholderRange → ℕ → ℤ → List ℕ × ℤ × ℤ
  | [], _, encoderBudget => ([], numNewTokens, encoderBudget)
  | position :: positions, i, encoderBudget =>
    if (position.offset : ℤ) ≥ numComputedTokens + numNewTokens then
      ([], numNewTokens, encoderBudget)
    else if position.offset + position.length ≤ numComputedTokens ∨ e.hasCache reqId i then
      tryScheduleEncoderInputsLoop cfg e reqId r numComputedTokens numNewTokens positions (i + 1)
        encoderBudget
    else if cfg.disableChunkedMmInput ∧ numComputedTokens < position.offset ∧
        numComputedTokens + numNewTokens < position.offset + position.length then
      ([], position.offset - numComputedTokens, encoderBudget)
    else if ¬ e.canAllocate r i ∨ (position.length : ℤ) > encoderBudget then
      ([], if numComputedTokens < position.offset then position.offset - numComputedTokens else 0,
        encoderBudget)
    else
      let (inputs, numNewTokens, encoderBudget) :=
        tryScheduleEncoderInputsLoop cfg e reqId r numComputedTokens numNewTokens positions (i + 1)
          (encoderBudget - position.length)
      (i :: inputs, numNewTokens, encoderBudget)

/-- The encoder inputs to schedule, the number of tokens that fit with them and the budget left. -/
def tryScheduleEncoderInputs (cfg : Config) (st : Scheduling) (reqId : ReqId)
    (numComputedTokens : ℕ) (numNewTokens : ℤ) : List ℕ × ℤ × ℤ :=
  let r := st.request reqId
  if r.hasEncoderInputs then
    tryScheduleEncoderInputsLoop cfg st.encoderCacheManager reqId r numComputedTokens numNewTokens
      r.mmPositions 0 st.encoderBudget
  else ([], numNewTokens, st.encoderBudget)

/-- Allocates the encoder cache for the scheduled inputs. -/
def assignEncoderInputs (st : Scheduling) (reqId : ReqId) (inputs : List ℕ) (encoderBudget : ℤ) :
    Scheduling :=
  if inputs = [] then st
  else
    { st with
      scheduledEncoderInputs := dictSet st.scheduledEncoderInputs reqId inputs
      encoderCacheManager := inputs.foldl
        (fun e i => e.allocate reqId (st.request reqId) i) st.encoderCacheManager
      encoderBudget := encoderBudget }

/-! ## The running requests -/

/-- The caps on the number of tokens of one request. -/
def capNewTokens (cfg : Config) (numNewTokens : ℤ) (tokenBudget : ℕ) : ℤ :=
  let threshold := cfg.scheduler.longPrefillTokenThreshold
  min (if 0 < threshold ∧ threshold < numNewTokens then threshold else numNewTokens) tokenBudget

/-- Pops the last running request and sends it back to the waiting queue. -/
def preemptLast (cfg : Config) (st : Scheduling) (preempted : ReqId) :
    Except PyError Scheduling := do
  let kvCacheManager ← st.kvCacheManager.free cfg.kvCache preempted
  let s := st.setRequest preempted { st.request preempted with
    status := .preempted
    numComputedTokens := 0 }
  return { st with
    toScheduler := { s with
      running := s.running.dropLast
      waiting := preempted :: s.waiting
      kvCacheManager := kvCacheManager }
    preemptedReqs := st.preemptedReqs ++ [preempted] }

/-- The inner loop: the new blocks, or `none` when the request itself had to be preempted. Every
round but the last pops a running request. -/
def allocateWithPreemption (cfg : Config) (reqId : ReqId) (numNewTokens : ℕ) :
    ℕ → Scheduling → Except PyError (Option (List BlockId) × Scheduling)
  | 0, _ => .error .indexError
  | fuel + 1, st => do
    let (newBlocks, kvCacheManager) ← st.kvCacheManager.allocateSlots cfg.kvCache reqId
      (st.request reqId) numNewTokens [] cfg.scheduler.numLookaheadTokens
    let st := { st with kvCacheManager := kvCacheManager }
    match newBlocks with
    | some blocks => return (some blocks, st)
    | none =>
      match st.running.getLast? with
      | none => throw .indexError
      | some preempted =>
        let st ← st.preemptLast cfg preempted
        if preempted = reqId then return (none, st)
        else allocateWithPreemption cfg reqId numNewTokens fuel st

/-- The drafts that are scheduled; the others are given up. -/
def assignSpecTokens (st : Scheduling) (reqId : ReqId) (numNewTokens : ℕ) : Scheduling :=
  let r := st.request reqId
  let numScheduledSpecTokens : ℤ := numNewTokens + r.numComputedTokens - r.numTokens
  if r.specTokenIds ≠ [] ∧ numScheduledSpecTokens > 0 then
    let specTokenIds := r.specTokenIds.take numScheduledSpecTokens.toNat
    { st with
      toScheduler := st.setRequest reqId { r with specTokenIds := specTokenIds }
      scheduledSpecDecodeTokens := dictSet st.scheduledSpecDecodeTokens reqId specTokenIds }
  else st

/-- A running request is scheduled. -/
def assignRunning (st : Scheduling) (reqId : ReqId) (numNewTokens : ℕ) (blocks : List BlockId) :
    Scheduling :=
  { st with
    scheduledReqIds := setAdd st.scheduledReqIds reqId
    scheduledRunningReqs := st.scheduledRunningReqs ++ [reqId]
    reqToNewBlockIds := dictSet st.reqToNewBlockIds reqId blocks
    numScheduledTokens := dictSet st.numScheduledTokens reqId numNewTokens
    tokenBudget := st.tokenBudget - numNewTokens }

/-- The loop over the running requests, from position `reqIndex` on. -/
def runningLoop (cfg : Config) : ℕ → ℕ → Scheduling → Except PyError Scheduling
  | 0, _, st => .ok st
  | fuel + 1, reqIndex, st =>
    match st.running[reqIndex]? with
    | none => .ok st
    | some reqId =>
      let r := st.request reqId
      if st.tokenBudget = 0 then .ok st
      else if reqId ∈ st.scheduledReqIds then runningLoop cfg fuel (reqIndex + 1) st
      else do
        let numNewTokens :=
          capNewTokens cfg ((r.numTokensWithSpec : ℤ) - r.numComputedTokens) st.tokenBudget
        pyAssert (numNewTokens > 0) (s!"request {reqId}: num_new_tokens={numNewTokens}, " ++
          s!"num_tokens_with_spec={r.numTokensWithSpec}, " ++
          s!"num_computed_tokens={r.numComputedTokens}, status={repr r.status}")
        let (inputs, numNewTokens, encoderBudget) :=
          st.tryScheduleEncoderInputs cfg reqId r.numComputedTokens numNewTokens
        if numNewTokens = 0 then runningLoop cfg fuel (reqIndex + 1) st
        else do
          let (newBlocks, st) ← allocateWithPreemption cfg reqId numNewTokens.toNat
            (st.running.length + 1) st
          match newBlocks with
          | none => return st
          | some blocks =>
            runningLoop cfg fuel (reqIndex + 1)
              (((st.assignRunning reqId numNewTokens.toNat blocks).assignSpecTokens reqId
                numNewTokens.toNat).assignEncoderInputs reqId inputs encoderBudget)

/-- The adapters of the scheduled running requests. -/
def recordLoras (cfg : Config) (st : Scheduling) : Except PyError Scheduling :=
  match cfg.maxLoras with
  | none => .ok st
  | some maxLoras => do
    let loras := st.scheduledRunningReqs.foldl (fun loras reqId =>
      match (st.request reqId).loraIntId with
      | some loraIntId => if loraIntId > 0 then setAdd loras loraIntId else loras
      | none => loras) []
    pyAssert (loras.length ≤ maxLoras) ""
    return { st with scheduledLoras := loras }

/-! ## The waiting requests -/

/-- Would the request need one adapter too many? -/
def exceedsMaxLoras (cfg : Config) (st : Scheduling) (r : Request) : Bool :=
  match cfg.maxLoras, r.loraIntId with
  | some maxLoras, some loraIntId =>
    st.scheduledLoras.length = maxLoras ∧ loraIntId ∉ st.scheduledLoras
  | _, _ => false

def assignLora (cfg : Config) (st : Scheduling) (r : Request) : Scheduling :=
  match cfg.maxLoras, r.loraIntId with
  | some _, some loraIntId => { st with scheduledLoras := setAdd st.scheduledLoras loraIntId }
  | _, _ => st

/-- A waiting request starts to run. -/
def admitRequest (cfg : Config) (st : Scheduling) (reqId : ReqId)
    (numComputedTokens numNewTokens : ℕ) (computedBlocks newBlocks : List BlockId) :
    Except PyError Scheduling := do
  let r := st.request reqId
  let st := { st with
    running := st.running ++ [reqId]
    scheduledReqIds := setAdd st.scheduledReqIds reqId }
  let st ← match r.status with
    | .waiting => .ok { st with scheduledNewReqs := st.scheduledNewReqs ++ [reqId] }
    | .preempted => .ok { st with scheduledResumedReqs := st.scheduledResumedReqs ++ [reqId] }
    | status => .error (.runtimeError s!"Invalid request status: {repr status}")
  let st := st.assignLora cfg r
  return { st with
    toScheduler := st.setRequest reqId { r with
      status := .running
      numComputedTokens := numComputedTokens }
    reqToNewBlockIds := dictSet st.reqToNewBlockIds reqId (computedBlocks ++ newBlocks)
    numScheduledTokens := dictSet st.numScheduledTokens reqId numNewTokens
    tokenBudget := st.tokenBudget - numNewTokens }

/-- The loop over the waiting queue. `skipped` holds the requests passed over, the last
one first; they go back to the head of the queue. -/
def waitingLoop (cfg : Config) :
    List ReqId → List ReqId → Scheduling → Except PyError Scheduling
  | [], skipped, st => .ok { st with waiting := skipped.reverse }
  | reqId :: waiting, skipped, st =>
    let putBack (st : Scheduling) := { st with waiting := skipped.reverse ++ reqId :: waiting }
    let r := st.request reqId
    if st.tokenBudget = 0 then .ok (putBack st)
    else if st.running.length = cfg.scheduler.maxNumSeqs then .ok (putBack st)
    else if r.status = .waitingForFsm ∧ ¬ (r.useStructuredOutput ∧ r.grammar) then
      waitingLoop cfg waiting (reqId :: skipped) st
    else
      let st :=
        if r.status = .waitingForFsm then
          { st with toScheduler := st.setRequest reqId { r with status := .waiting } }
        else st
      if st.exceedsMaxLoras cfg r then waitingLoop cfg waiting (reqId :: skipped) st
      else do
        let ((computedBlocks, numComputedTokens), kvCacheManager) ←
          st.kvCacheManager.getComputedBlocks cfg.kvCache reqId (st.request reqId)
        let st := { st with kvCacheManager := kvCacheManager }
        let numNewTokens :=
          capNewTokens cfg ((r.numTokens : ℤ) - numComputedTokens) st.tokenBudget
        pyAssert (numNewTokens > 0) (s!"request {reqId}: num_new_tokens={numNewTokens}, " ++
          s!"num_tokens={r.numTokens}, num_computed_tokens={numComputedTokens}, " ++
          s!"status={repr (st.request reqId).status}")
        let (inputs, numNewTokens, encoderBudget) :=
          st.tryScheduleEncoderInputs cfg reqId numComputedTokens numNewTokens
        if numNewTokens = 0 then return putBack st
        else do
          let (newBlocks, kvCacheManager) ← st.kvCacheManager.allocateSlots cfg.kvCache reqId
            (st.request reqId) numNewTokens.toNat computedBlocks 0
          let st := { st with kvCacheManager := kvCacheManager }
          match newBlocks with
          | none => return putBack st
          | some newBlocks =>
            let st ← st.admitRequest cfg reqId numComputedTokens numNewTokens.toNat computedBlocks
              newBlocks
            waitingLoop cfg waiting skipped (st.assignEncoderInputs reqId inputs encoderBudget)

/-- Nothing is admitted in a step that preempts. -/
def waitingPass (cfg : Config) (st : Scheduling) : Except PyError Scheduling :=
  if st.preemptedReqs = [] then waitingLoop cfg st.waiting [] st else .ok st

/-- The requests of this step. -/
def selectRequests (cfg : Config) (st : Scheduling) : Except PyError Scheduling := do
  let st ← runningLoop cfg st.running.length 0 st
  let st ← st.recordLoras cfg
  st.waitingPass cfg

/-! ## The output of a step -/

/-- `_make_cached_request_data`, whose objects are the same from step to step. -/
def makeCachedRequestData (st : Scheduling) (resumedFromPreemption : Bool) (reqId : ReqId) :
    Except PyError CachedRequestData := do
  let r := st.request reqId
  let numScheduledTokens ← dictGet st.numScheduledTokens reqId
  let newBlockIds ← dictGet st.reqToNewBlockIds reqId
  let numScheduledSpecTokens :=
    ((dictGet? st.scheduledSpecDecodeTokens reqId).getD []).length
  let numRegularTokens : ℤ := numScheduledTokens - numScheduledSpecTokens
  return {
    reqId := reqId
    resumedFromPreemption := resumedFromPreemption
    newTokenIds :=
      pySliceInt r.allTokenIds r.numComputedTokens (r.numComputedTokens + numRegularTokens)
    newBlockIds := newBlockIds
    numComputedTokens := r.numComputedTokens }

def makeNewRequestData (st : Scheduling) (reqId : ReqId) : Except PyError NewRequestData := do
  let r := st.request reqId
  let blockIds ← dictGet st.reqToNewBlockIds reqId
  return {
    reqId := reqId
    promptTokenIds := r.promptTokenIds
    blockIds := blockIds
    numComputedTokens := r.numComputedTokens }

/-- `get_num_common_prefix_blocks` for the first running request. -/
def numCommonPrefixBlocks (st : Scheduling) : Except PyError ℕ :=
  match st.running.head? with
  | none => .ok 0
  | some reqId => do
    pyAssert ((st.request reqId).status = .running) ""
    return ((st.kvCacheManager.reqToBlocks reqId).takeWhile
      (fun b => st.kvCacheManager.blockPool.refCnt b = st.running.length)).length

/-- The scheduling constraints are satisfied. -/
def checkConstraints (cfg : Config) (st : Scheduling) : Except PyError Unit := do
  pyAssert ((st.numScheduledTokens.map Prod.snd).sum ≤ cfg.scheduler.maxNumBatchedTokens) ""
  pyAssert (st.running.length ≤ cfg.scheduler.maxNumSeqs) ""
  pyAssert (st.scheduledNewReqs.length + st.scheduledResumedReqs.length +
    st.scheduledRunningReqs.length ≤ st.running.length) ""

def makeOutput (st : Scheduling) : Except PyError SchedulerOutput := do
  let numCommonPrefixBlocks ← st.numCommonPrefixBlocks
  let newReqsData ← st.scheduledNewReqs.mapM st.makeNewRequestData
  let resumedReqsData ← st.scheduledResumedReqs.mapM (st.makeCachedRequestData true)
  let runningReqsData ← st.scheduledRunningReqs.mapM (st.makeCachedRequestData false)
  return {
    scheduledNewReqs := newReqsData
    scheduledCachedReqs := resumedReqsData ++ runningReqsData
    numScheduledTokens := st.numScheduledTokens
    totalNumScheduledTokens := (st.numScheduledTokens.map Prod.snd).sum
    scheduledSpecDecodeTokens := st.scheduledSpecDecodeTokens
    scheduledEncoderInputs := st.scheduledEncoderInputs
    numCommonPrefixBlocks := numCommonPrefixBlocks
    finishedReqIds := st.finishedReqIds
    freeEncoderInputIds := st.encoderCacheManager.getFreedIds.1 }

/-- The scheduled tokens count as computed once the step has been scheduled. -/
def advanceComputed (s : Scheduler) (numScheduledTokens : List (ReqId × ℕ)) : Scheduler :=
  { s with
    request := fun reqId =>
      { s.request reqId with
        numComputedTokens := (s.request reqId).numComputedTokens +
          (dictGet? numScheduledTokens reqId).getD 0 }
    finishedReqIds := []
    encoderCacheManager := s.encoderCacheManager.getFreedIds.2 }

end Scheduling

namespace Scheduler

/-- The local variables at the start of `schedule`. -/
def startScheduling (cfg : Config) (s : Scheduler) : Scheduling where
  toScheduler := s
  tokenBudget := cfg.scheduler.maxNumBatchedTokens
  encoderBudget := cfg.maxNumEncoderInputTokens

def schedule (cfg : Config) (s : Scheduler) : Except PyError (SchedulerOutput × Scheduler) := do
  let st ← (s.startScheduling cfg).selectRequests cfg
  st.checkConstraints cfg
  let out ← st.makeOutput
  return (out, Scheduling.advanceComputed st.toScheduler st.numScheduledTokens)

/-! ## Model outputs -/

/-- `check_stop`; commits the status. -/
def checkStop (cfg : Config) (r : Request) : Except PyError (Bool × Request) := do
  if r.numTokens ≥ cfg.maxModelLen ∨ r.numOutputTokens ≥ r.maxTokens then
    return (true, { r with status := .finishedLengthCapped })
  else
    let lastTokenId ← pyGet r.outputTokenIds (-1)
    if ¬ r.samplingParams.ignoreEos ∧ some lastTokenId = r.eosTokenId then
      return (true, { r with status := .finishedStopped })
    else if lastTokenId ∈ r.samplingParams.stopTokenIds then
      return (true, { r with status := .finishedStopped, stopReason := some lastTokenId })
    else return (false, r)

/-- `_free_request`. -/
def freeRequest (cfg : Config) (s : Scheduler) (reqId : ReqId) : Except PyError Scheduler := do
  pyAssert (s.request reqId).isFinished ""
  let kvCacheManager ← s.kvCacheManager.free cfg.kvCache reqId
  let s := { s with
    kvCacheManager := kvCacheManager.freeBlockHashes reqId
    encoderCacheManager := s.encoderCacheManager.free reqId (s.request reqId) }
  if reqId ∈ s.requests then
    return { s with
      requests := s.requests.erase reqId
      finishedReqIds := setAdd s.finishedReqIds reqId }
  else .error .keyError

/-- The loop over the generated tokens: those that are kept, and whether the request has
stopped. -/
def appendTokens (cfg : Config) (reqId : ReqId) :
    List TokenId → Scheduler → Except PyError (List TokenId × Bool × Scheduler)
  | [], s => .ok ([], false, s)
  | tokenId :: tokenIds, s => do
    let (stopped, r) ← checkStop cfg ((s.request reqId).appendOutputTokenId tokenId)
    let s := s.setRequest reqId r
    if stopped then return ([tokenId], true, ← s.freeRequest cfg reqId)
    else do
      let (newTokenIds, stopped, s) ← appendTokens cfg reqId tokenIds s
      return (tokenId :: newTokenIds, stopped, s)

/-- The rejected drafts do not count as computed. -/
def rejectDrafts (out : SchedulerOutput) (reqId : ReqId) (generatedTokenIds : List TokenId)
    (r : Request) : Request :=
  match dictGet? out.scheduledSpecDecodeTokens reqId with
  | none => r
  | some [] => r
  | some specTokenIds =>
    let numTokensRejected : ℤ := specTokenIds.length + 1 - generatedTokenIds.length
    { r with numComputedTokens := ((r.numComputedTokens : ℤ) - numTokensRejected).toNat }

/-- Frees the cached encoder outputs that are stored in the decoder's KV cache. -/
def freeEncoderInputs (s : Scheduler) (reqId : ReqId) : EncoderCacheManager :=
  let r := s.request reqId
  (s.encoderCacheManager.cached reqId).foldl (fun e inputId =>
    match r.mmPositions[inputId]? with
    | none => e
    | some position =>
      if position.offset + position.length ≤ r.numComputedTokens then
        e.freeEncoderInput reqId r inputId
      else e) s.encoderCacheManager

/-- The next drafts of the request, if there is a drafter. -/
def setSpecTokenIds (output : ModelRunnerOutput) (reqId : ReqId) (r : Request) : Request :=
  match output.specTokenIds with
  | none => r
  | some specTokenIds => { r with specTokenIds := specTokenIds reqId }

/-- `scheduled_req_ids.remove(req_id)`. -/
def removeScheduled (s : Scheduler) (reqId : ReqId) : Except PyError Scheduler :=
  if reqId ∈ s.scheduledReqIds then
    .ok { s with scheduledReqIds := s.scheduledReqIds.erase reqId }
  else .error .keyError

/-- One iteration of `update_from_output`, for a request of the batch. -/
def updateRequest (cfg : Config) (out : SchedulerOutput) (output : ModelRunnerOutput)
    (reqId : ReqId) (s : Scheduler) :
    Except PyError (Bool × List EngineCoreOutput × Scheduler) := do
  let generatedTokenIds := output.sampledTokenIds reqId
  let s := s.setRequest reqId (rejectDrafts out reqId generatedTokenIds (s.request reqId))
  let s := { s with encoderCacheManager := s.freeEncoderInputs reqId }
  let s := s.setRequest reqId (setSpecTokenIds output reqId (s.request reqId))
  let (newTokenIds, stopped, s) ← s.appendTokens cfg reqId generatedTokenIds
  let r := s.request reqId
  let outputs :=
    if newTokenIds = [] then []
    else [⟨reqId, newTokenIds, r.status.getFinishedReason, r.stopReason⟩]
  return (stopped, outputs, ← s.removeScheduled reqId)

/-- The loop over the running requests: those that run on, and the outputs. -/
def updateLoop (cfg : Config) (out : SchedulerOutput) (output : ModelRunnerOutput) :
    List ReqId → Scheduler → Except PyError (List ReqId × List EngineCoreOutput × Scheduler)
  | [], s => .ok ([], [], s)
  | reqId :: running, s =>
    if out.numScheduled reqId = 0 then do
      let (newRunning, outputs, s) ← updateLoop cfg out output running s
      return (reqId :: newRunning, outputs, s)
    else do
      let (stopped, outputs, s) ← s.updateRequest cfg out output reqId
      let (newRunning, moreOutputs, s) ← updateLoop cfg out output running s
      return (if stopped then newRunning else reqId :: newRunning, outputs ++ moreOutputs, s)

def updateFromOutput (cfg : Config) (out : SchedulerOutput) (output : ModelRunnerOutput)
    (s : Scheduler) : Except PyError (List EngineCoreOutput × Scheduler) := do
  let (newRunning, outputs, s) ← s.updateLoop cfg out output s.running
  return (outputs, { s with running := newRunning })

/-! ## Arrival and abortion -/

def addRequest (reqId : ReqId) (r : Request) (s : Scheduler) : Scheduler :=
  { s.setRequest reqId r with
    waiting := s.waiting ++ [reqId]
    requests := setAdd s.requests reqId }

/-- One iteration of `finish_requests`. -/
def finishRequest (cfg : Config) (finishedStatus : RequestStatus) (s : Scheduler)
    (reqId : ReqId) : Except PyError Scheduler :=
  if reqId ∉ s.requests then .ok s
  else do
    let s ←
      if (s.request reqId).status = .running then
        if reqId ∈ s.running then .ok { s with
          running := s.running.erase reqId
          scheduledReqIds := s.scheduledReqIds.erase reqId }
        else .error (.valueError "list.remove(x): x not in list")
      else if reqId ∈ s.waiting then .ok { s with waiting := s.waiting.erase reqId }
      else .error (.valueError "deque.remove(x): x not in deque")
    (s.setRequest reqId { s.request reqId with status := finishedStatus }).freeRequest cfg reqId

def finishRequests (cfg : Config) (finishedStatus : RequestStatus) :
    List ReqId → Scheduler → Except PyError Scheduler
  | [], s => .ok s
  | reqId :: reqIds, s => do
    pyAssert finishedStatus.isFinished ""
    finishRequests cfg finishedStatus reqIds (← s.finishRequest cfg finishedStatus reqId)

def getNumUnfinishedRequests (s : Scheduler) : ℕ :=
  s.waiting.length + s.running.length

/-- The requests that are not being processed by the executor. -/
def getNumUnscheduledRequests (s : Scheduler) : ℤ :=
  s.getNumUnfinishedRequests - s.scheduledReqIds.length

def resetPrefixCache (s : Scheduler) : Bool × Scheduler :=
  let (succeeded, kvCacheManager) := s.kvCacheManager.resetPrefixCache
  (succeeded, { s with kvCacheManager := kvCacheManager })

end Scheduler

end Spexis.V1
