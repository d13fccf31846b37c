import Spexis.Model.KVCacheManager

/-! # Scheduler outputs

What one iteration sends to the workers, and what the engine returns to the
front end. -/

namespace Spexis

open Python

structure NewRequestData where
  reqId : ReqId
  promptTokenIds : List TokenId
  blockIds : List BlockId
  numComputedTokens : ℕ
  deriving DecidableEq, Repr

structure CachedRequestData where
  reqId : ReqId
  resumedFromPreemption : Bool
  newTokenIds : List TokenId
  newBlockIds : List BlockId
  numComputedTokens : ℕ
  specResult : Bool
  fixedIdx : ℤ
  deriving DecidableEq, Repr

/-- Sends exactly the corrected token, if there is one. -/
def CachedRequestData.carry (reqData : CachedRequestData) (r : Request) :
    Option (Option ℤ) → Except PyError CachedRequestData
  | none => .ok reqData
  | some none => .error .typeError
  | some (some fixedIdx) => do
    let token ← pyGet r.outputTokenIds fixedIdx
    return { reqData with newTokenIds := [token], specResult := false, fixedIdx := fixedIdx }

structure SpexisSchedulerOutput where
  scheduledNewReqs : List NewRequestData
  scheduledCachedReqs : List CachedRequestData
  /-- The items of the dictionary, in insertion order. -/
  numScheduledTokens : List (ReqId × ℕ)
  totalNumScheduledTokens : ℕ
  finishedReqIds : List ReqId
  deriving DecidableEq, Repr

/-- `num_scheduled_tokens.get(req_id, 0)`. -/
def SpexisSchedulerOutput.numScheduled (out : SpexisSchedulerOutput) (reqId : ReqId) : ℕ :=
  (dictGet? out.numScheduledTokens reqId).getD 0

/-- `SpexisSchedulerResumeHelper.resumed_req_token_ids`. -/
abbrev ResumeHelper := List (ReqId × List TokenId)

structure EngineCoreOutput where
  requestId : ReqId
  newTokenIds : List TokenId
  finishReason : Option FinishReason
  stopReason : Option TokenId
  deriving DecidableEq, Repr

/-- What a batch returns: the sampled tokens of each request, and for the exit layer
their confidences and the predicted length probabilities. -/
structure ModelRunnerOutput where
  sampledTokenIds : ReqId → List TokenId
  specConfidence : ReqId → List ℚ
  lengthProbs : ReqId → List ℚ

end Spexis
