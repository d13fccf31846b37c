import Mathlib.Data.List.Sort
import Spexis.Model.SchedOutput
import Spexis.Model.Worker.InputBatch

/-! # The model runner of a worker

`_update_states` follows the scheduler outputs: it keeps the requests it has heard of and a
persistent batch of those that are scheduled. -/

namespace Spexis

open Python

/-- The order in which a set is iterated, which may be any. -/
structure IterationOrder where
  order : List ReqId → List ReqId
  perm : ∀ xs, (order xs).Perm xs

/-- The fields of a new request that only the workers need. -/
structure WorkerRequestParams where
  samplingParams : WorkerSamplingParams
  loraRequest : Option LoRARequest

/-- A scheduler output as a worker receives it. -/
structure Delivery where
  schedulerOutput : SpexisSchedulerOutput
  params : ReqId → WorkerRequestParams
  finishedOrder : IterationOrder
  unscheduledOrder : IterationOrder

structure RunnerConfig where
  batch : BatchConfig
  pipelineParallelSize : ℕ

structure ModelRunner where
  requests : ReqId → Option CachedRequestState
  inputBatch : InputBatch
  /-- The lists of output tokens. -/
  heap : ListHeap TokenId

namespace ModelRunner

def init : ModelRunner where
  requests := fun _ => none
  inputBatch := .init
  heap := .empty

def setRequest (reqId : ReqId) (request : CachedRequestState) (r : ModelRunner) : ModelRunner :=
  { r with requests := Function.update r.requests reqId (some request) }

/-- Removes requests from the persistent batch: the rows that become free. -/
def removeRequests : List ReqId → InputBatch → Except PyError (List ℕ × InputBatch)
  | [], b => .ok ([], b)
  | reqId :: reqIds, b => do
    let (reqIndex, b) ← b.removeRequest reqId
    let (reqIndices, b) ← removeRequests reqIds b
    return (reqIndex.toList ++ reqIndices, b)

/-- The requests in the persistent batch that are not scheduled. -/
def unscheduledReqIds (out : SpexisSchedulerOutput) (b : InputBatch) : List ReqId :=
  (b.reqIdToIndex.map Prod.fst).filter (· ∉ out.numScheduledTokens.map Prod.fst)

/-- A new request enters the cached states. -/
def addNewRequest (params : ReqId → WorkerRequestParams) (data : NewRequestData)
    (r : ModelRunner) : ModelRunner :=
  let { samplingParams, loraRequest } := params data.reqId
  let (outputTokenIds, heap) := r.heap.alloc []
  let generator :=
    if samplingParams.samplingType = .randomSeed then samplingParams.seed.map Generator.mk
    else none
  { r with heap := heap }.setRequest data.reqId
    { reqId := data.reqId
      promptTokenIds := data.promptTokenIds
      samplingParams := samplingParams
      generator := generator
      blockIds := data.blockIds
      numComputedTokens := data.numComputedTokens
      outputTokenIds := outputTokenIds
      loraRequest := loraRequest }

/-- `num_tokens`. -/
def numTokens (r : ModelRunner) (request : CachedRequestState) : ℕ :=
  request.promptTokenIds.length + (r.heap.read request.outputTokenIds).length

/-- A rejected speculation is rolled back, which makes a new list. -/
def rollBack (data : CachedRequestData) (request : CachedRequestState) (r : ModelRunner) :
    CachedRequestState × ModelRunner :=
  let outputTokenIds := r.heap.read request.outputTokenIds
  let (ref, heap) :=
    r.heap.alloc (pySliceInt outputTokenIds 0 data.fixedIdx ++ data.newTokenIds)
  ({ request with outputTokenIds := ref }, { r with heap := heap })

/-- The tokens the worker has not seen yet are added to the request's list. -/
def appendTokens (data : CachedRequestData) (request : CachedRequestState) (r : ModelRunner) :
    Except PyError ModelRunner := do
  let numNewTokens : ℤ :=
    data.numComputedTokens + data.newTokenIds.length - r.numTokens request
  if numNewTokens = 1 then
    let token ← pyGet data.newTokenIds (-1)
    return { r with heap := r.heap.extend request.outputTokenIds [token] }
  else if numNewTokens > 0 then
    let tokens := data.newTokenIds.drop (data.newTokenIds.length - numNewTokens.toNat)
    return { r with heap := r.heap.extend request.outputTokenIds tokens }
  else return r

/-- The output tokens of a request that has been scheduled before. -/
def updateOutput (data : CachedRequestData) (request : CachedRequestState) (r : ModelRunner) :
    Except PyError (CachedRequestState × ModelRunner) :=
  if data.specResult = false then .ok (rollBack data request r)
  else do return (request, ← appendTokens data request r)

/-- The state of a request that has been scheduled before. -/
def updateRequest (data : CachedRequestData) (request : CachedRequestState) (r : ModelRunner) :
    Except PyError ModelRunner := do
  let request := { request with numComputedTokens := data.numComputedTokens }
  let (request, r) ← updateOutput data request r
  let blockIds :=
    if data.resumedFromPreemption then data.newBlockIds
    else request.blockIds ++ data.newBlockIds
  return r.setRequest data.reqId { request with blockIds := blockIds }

/-- The token ids of a row that is still in the persistent batch, and their number. -/
def updateTokenIds (cfg : RunnerConfig) (data : CachedRequestData) (row : ℕ → TokenId) :
    Except PyError ((ℕ → TokenId) × ℕ) :=
  let width := cfg.batch.maxModelLen
  let startTokenIndex := data.numComputedTokens
  let endTokenIndex := data.numComputedTokens + data.newTokenIds.length
  if data.specResult = false then do
    let row ← npAssign width row startTokenIndex (startTokenIndex + 1) data.newTokenIds
    -- the flushed tokens after the wrong one
    let row ← npAssign width row (startTokenIndex + 1)
      (startTokenIndex + cfg.pipelineParallelSize + 1) [0]
    return (row, startTokenIndex + 1)
  else do
    let row ← npAssign width row startTokenIndex endTokenIndex data.newTokenIds
    return (row, endTokenIndex)

/-- The row of a request that is still in the persistent batch. -/
def updateRow (cfg : RunnerConfig) (data : CachedRequestData) (reqIndex : ℕ) (b : InputBatch) :
    Except PyError InputBatch := do
  let blockTable ←
    b.blockTable.appendRow cfg.batch.maxNumBlocksPerReq data.newBlockIds reqIndex
  let (row, numTokensNoSpec) ← updateTokenIds cfg data (b.tokenIdsCpu reqIndex)
  return { b with
    numComputedTokensCpu :=
      Function.update b.numComputedTokensCpu reqIndex data.numComputedTokens
    blockTable := blockTable
    tokenIdsCpu := Function.update b.tokenIdsCpu reqIndex row
    numTokensNoSpec := Function.update b.numTokensNoSpec reqIndex numTokensNoSpec
    numTokens := Function.update b.numTokens reqIndex
      (data.numComputedTokens + data.newTokenIds.length) }

/-- The loop over the cached requests, which returns those that have to be added to the batch. -/
def updateCachedRequests (cfg : RunnerConfig) :
    List CachedRequestData → ModelRunner → Except PyError (List ReqId × ModelRunner)
  | [], r => .ok ([], r)
  | data :: rest, r =>
    match r.requests data.reqId with
    | none => .error .keyError
    | some request => do
      let r ← updateRequest data request r
      match dictGet? r.inputBatch.reqIdToIndex data.reqId with
      | none =>
        let (reqIdsToAdd, r) ← updateCachedRequests cfg rest r
        return (data.reqId :: reqIdsToAdd, r)
      | some reqIndex =>
        let b ← updateRow cfg data reqIndex r.inputBatch
        updateCachedRequests cfg rest { r with inputBatch := b }

/-- Adds requests to the batch, filling the smaller empty rows first: the rows that stay empty. -/
def addRequests (cfg : RunnerConfig) :
    List ReqId → List ℕ → ModelRunner → Except PyError (List ℕ × ModelRunner)
  | [], emptyReqIndices, r => .ok (emptyReqIndices, r)
  | reqId :: reqIds, emptyReqIndices, r =>
    match r.requests reqId with
    | none => .error .keyError
    | some request => do
      let b ← r.inputBatch.addRequest cfg.batch request (r.heap.read request.outputTokenIds)
        emptyReqIndices.head?
      addRequests cfg reqIds emptyReqIndices.tail { r with inputBatch := b }

/-- The persistent batch without the finished and the unscheduled requests, and its empty rows. -/
def removeStale (d : Delivery) (r : ModelRunner) : Except PyError (List ℕ × ModelRunner) := do
  let out := d.schedulerOutput
  let requests := fun reqId => if reqId ∈ out.finishedReqIds then none else r.requests reqId
  let (finishedIndices, b) ← removeRequests (d.finishedOrder.order out.finishedReqIds) r.inputBatch
  let unscheduled := d.unscheduledOrder.order (unscheduledReqIds out b)
  let (unscheduledIndices, b) ← removeRequests unscheduled b
  pyAssert (unscheduledIndices.length = unscheduled.length) ""
  return ((finishedIndices ++ unscheduledIndices).insertionSort (· ≤ ·),
    { r with requests := requests, inputBatch := b })

/-- `_update_states`. -/
def updateStates (cfg : RunnerConfig) (d : Delivery) (r : ModelRunner) :
    Except PyError ModelRunner := do
  let out := d.schedulerOutput
  let (removedReqIndices, r) ← removeStale d r
  let r := out.scheduledNewReqs.foldl (fun r data => addNewRequest d.params data r) r
  let (reqIdsToAdd, r) ← updateCachedRequests cfg out.scheduledCachedReqs r
  let reqIdsToAdd := out.scheduledNewReqs.map (·.reqId) ++ reqIdsToAdd
  let (removedReqIndices, r) ← addRequests cfg reqIdsToAdd removedReqIndices r
  -- the rows that stay empty are filled from the end
  if removedReqIndices = [] then return r
  let b ← r.inputBatch.condense removedReqIndices
  return { r with inputBatch := b }

end ModelRunner

end Spexis
