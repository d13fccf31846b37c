import Mathlib.Data.List.ReduceOption
import Mathlib.Data.List.Sort
import Spexis.Library.Compaction
import Spexis.Model.SchedOutput
import Spexis.Model.Worker.ModelRunner

/-! # The persistent batch of the engine

The engine looks embeddings up for its workers. It keeps its own copy of the order in which they
hold the requests. -/

namespace Spexis

open Python

structure CPUInputBatch where
  reqIds : List (Option ReqId)
  /-- The items of the dictionary, in insertion order. -/
  reqIdToIndex : List (ReqId × ℕ)
  deriving DecidableEq, Repr

namespace CPUInputBatch

def init : CPUInputBatch where
  reqIds := []
  reqIdToIndex := []

def numReqs (c : CPUInputBatch) : ℕ :=
  c.reqIdToIndex.length

/-- The ids after the request has taken the row. -/
def putReqId (reqId : ReqId) (reqIndex : ℕ) (reqIds : List (Option ReqId)) :
    Except PyError (List (Option ReqId)) :=
  if reqIndex = reqIds.length then .ok (reqIds ++ [some reqId])
  else pySet reqIds reqIndex (some reqId)

def addRequest (maxNumReqs : ℕ) (reqId : ReqId) (reqIndex : Option ℕ) (c : CPUInputBatch) :
    Except PyError CPUInputBatch := do
  let reqIndex := reqIndex.getD c.numReqs
  pyAssert (reqIndex < maxNumReqs) ""
  let reqIds ← putReqId reqId reqIndex c.reqIds
  return ⟨reqIds, dictSet c.reqIdToIndex reqId reqIndex⟩

/-- The row that becomes free, if the request has one. -/
def removeRequest (reqId : ReqId) (c : CPUInputBatch) :
    Except PyError (Option ℕ × CPUInputBatch) :=
  match dictGet? c.reqIdToIndex reqId with
  | none => .ok (none, c)
  | some reqIndex => do
    let reqIds ← pySet c.reqIds reqIndex none
    return (some reqIndex, ⟨reqIds, c.reqIdToIndex.filter (·.1 ≠ reqId)⟩)

/-- The body of the loop in `condense`: the request of the row `src` moves to `dst`. -/
def moveRequest (src dst : ℕ) (c : CPUInputBatch) : Except PyError CPUInputBatch := do
  match ← pyGet c.reqIds src with
  | none => throw (.assertionError "")
  | some reqId =>
    let reqIds ← pySet c.reqIds dst (some reqId)
    let reqIds ← pySet reqIds src none
    return ⟨reqIds, dictSet c.reqIdToIndex reqId dst⟩

/-- `emptyReqIndices` is in ascending order here: the source takes the indices off the end of a
descending list. -/
def condense (emptyReqIndices : List ℕ) (c : CPUInputBatch) : Except PyError CPUInputBatch :=
  if c.numReqs = 0 then .ok { c with reqIds := [] }
  else do
    let lastReqIndex := c.numReqs + emptyReqIndices.length - 1
    let c ← Compaction.fill moveRequest emptyReqIndices lastReqIndex c
    return { c with reqIds := c.reqIds.take c.numReqs }

/-- Removes requests: the rows that become free. -/
def removeRequests : List ReqId → CPUInputBatch → Except PyError (List ℕ × CPUInputBatch)
  | [], c => .ok ([], c)
  | reqId :: reqIds, c => do
    let (reqIndex, c) ← c.removeRequest reqId
    let (reqIndices, c) ← removeRequests reqIds c
    return (reqIndex.toList ++ reqIndices, c)

/-- The requests in the batch that are not scheduled. -/
def unscheduledReqIds (out : SpexisSchedulerOutput) (c : CPUInputBatch) : List ReqId :=
  (c.reqIdToIndex.map Prod.fst).filter (· ∉ out.numScheduledTokens.map Prod.fst)

/-- Adds requests, filling the smaller empty rows first: the rows that stay empty. -/
def addRequests (maxNumReqs : ℕ) :
    List ReqId → List ℕ → CPUInputBatch → Except PyError (List ℕ × CPUInputBatch)
  | [], emptyReqIndices, c => .ok (emptyReqIndices, c)
  | reqId :: reqIds, emptyReqIndices, c => do
    let c ← c.addRequest maxNumReqs reqId emptyReqIndices.head?
    addRequests maxNumReqs reqIds emptyReqIndices.tail c

/-- The requests that have to be added: the new ones and those that have dropped out. -/
def reqIdsToAdd (out : SpexisSchedulerOutput) (c : CPUInputBatch) : List ReqId :=
  out.scheduledNewReqs.map (·.reqId) ++
    (out.scheduledCachedReqs.map (·.reqId)).filter fun q => (dictGet? c.reqIdToIndex q).isNone

/-- The batch without the finished and the unscheduled requests, and its empty rows. -/
def removeStale (out : SpexisSchedulerOutput) (finishedOrder unscheduledOrder : IterationOrder)
    (c : CPUInputBatch) : Except PyError (List ℕ × CPUInputBatch) := do
  let (finishedIndices, c) ← c.removeRequests (finishedOrder.order out.finishedReqIds)
  let unscheduled := unscheduledOrder.order (c.unscheduledReqIds out)
  let (unscheduledIndices, c) ← c.removeRequests unscheduled
  pyAssert (unscheduledIndices.length = unscheduled.length) ""
  return ((finishedIndices ++ unscheduledIndices).insertionSort (· ≤ ·), c)

/-- `update_states`. -/
def updateStates (maxNumReqs : ℕ) (out : SpexisSchedulerOutput)
    (finishedOrder unscheduledOrder : IterationOrder) (c : CPUInputBatch) :
    Except PyError CPUInputBatch := do
  let (removedReqIndices, c) ← c.removeStale out finishedOrder unscheduledOrder
  let (removedReqIndices, c) ← c.addRequests maxNumReqs (c.reqIdsToAdd out) removedReqIndices
  if removedReqIndices = [] then return c
  c.condense removedReqIndices

/-! ## The token ids of a batch -/

/-- The loop over the new requests. -/
def placeNewTokens (out : SpexisSchedulerOutput) (c : CPUInputBatch) :
    List NewRequestData → List (Option (List TokenId)) →
      Except PyError (List (Option (List TokenId)))
  | [], ordered => .ok ordered
  | data :: datas, ordered =>
    match dictGet? c.reqIdToIndex data.reqId with
    | none => placeNewTokens out c datas ordered
    | some reqIndex => do
      let tokens := data.promptTokenIds.take (out.numScheduled data.reqId)
      placeNewTokens out c datas (← pySet ordered reqIndex (some tokens))

/-- The loop over the cached requests. -/
def placeCachedTokens (out : SpexisSchedulerOutput) (resumeHelper : ResumeHelper)
    (c : CPUInputBatch) : List CachedRequestData → List (Option (List TokenId)) →
      Except PyError (List (Option (List TokenId)))
  | [], ordered => .ok ordered
  | data :: datas, ordered =>
    match dictGet? c.reqIdToIndex data.reqId with
    | none => .error (.assertionError "reorder token no req_index bug")
    | some reqIndex => do
      let tokens ←
        if data.resumedFromPreemption then do
          let resumed ← dictGet resumeHelper data.reqId
          pure (resumed.take (out.numScheduled data.reqId))
        else pure data.newTokenIds
      placeCachedTokens out resumeHelper c datas (← pySet ordered reqIndex (some tokens))

def reorderTokenIds (out : SpexisSchedulerOutput) (resumeHelper : ResumeHelper)
    (c : CPUInputBatch) : Except PyError (List TokenId) := do
  let ordered ← c.placeNewTokens out out.scheduledNewReqs (List.replicate c.numReqs none)
  let ordered ← c.placeCachedTokens out resumeHelper out.scheduledCachedReqs ordered
  return ordered.reduceOption.flatten

end CPUInputBatch

end Spexis
