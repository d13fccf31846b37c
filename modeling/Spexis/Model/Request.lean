import Spexis.Library.Python

/-! # Requests

A request with its speculation bookkeeping, the verification of target tokens
against it, and the two stop checks. -/

namespace Spexis

open Python

/-- Request ids are only compared. -/
abbrev ReqId := ℕ

abbrev TokenId := ℕ

inductive RequestStatus where
  | waiting
  | waitingForFsm
  | running
  | preempted
  | finishedStopped
  | finishedLengthCapped
  | finishedAborted
  | finishedIgnored
  deriving DecidableEq, Repr

inductive FinishReason where
  | stop
  | length
  | abort
  deriving DecidableEq, Repr

/-- Anything after `preempted` is a finished status. -/
def RequestStatus.isFinished : RequestStatus → Bool
  | .waiting | .waitingForFsm | .running | .preempted => false
  | .finishedStopped | .finishedLengthCapped | .finishedAborted | .finishedIgnored => true

def RequestStatus.getFinishedReason : RequestStatus → Option FinishReason
  | .finishedStopped => some .stop
  | .finishedLengthCapped => some .length
  | .finishedAborted => some .abort
  | .finishedIgnored => some .length
  | _ => none

structure SamplingParams where
  temperature : ℚ := 0
  ignoreEos : Bool := false
  stopTokenIds : List TokenId := []
  maxTokens : ℕ
  promptLogprobs : Option ℕ := none
  /-- `guided_decoding is not None`. -/
  guidedDecoding : Bool := false
  deriving DecidableEq, Repr

structure Request where
  samplingParams : SamplingParams
  eosTokenId : Option TokenId
  status : RequestStatus
  stopReason : Option TokenId := none
  /-- `structured_output_request.grammar`: whether the grammar has been compiled. -/
  grammar : Bool := false
  promptTokenIds : List TokenId
  outputTokenIds : List TokenId := []
  allTokenIds : List TokenId
  specTokenIds : List TokenId := []
  numComputedTokens : ℕ := 0
  spLen : ℤ := 0
  specResult : Option Bool := none
  fixedIdx : Option ℤ := none
  flushLen : Option ℤ := none
  justFixed : Option Bool := none
  specConfidenceList : List ℚ := []
  confidenceDropped : Bool := false
  stopDropped : Bool := false
  confidencePassed : Bool := false
  dropLen : ℤ := 0
  dropEnd : Bool := false
  shouldPreempt : Bool := false
  numScheduled : ℤ := 0
  postpreemptSpecResult : Option Bool := none
  postpreemptFixedIdx : Option ℤ := none
  predictedLenProb : List ℚ := []
  deriving DecidableEq, Repr

namespace Request

/-- `Request.__init__`. -/
def init (promptTokenIds : List TokenId) (samplingParams : SamplingParams)
    (eosTokenId : Option TokenId) : Request where
  samplingParams := samplingParams
  eosTokenId := eosTokenId
  status := if samplingParams.guidedDecoding then .waitingForFsm else .waiting
  promptTokenIds := promptTokenIds
  allTokenIds := promptTokenIds

def maxTokens (r : Request) : ℕ :=
  r.samplingParams.maxTokens

def numPromptTokens (r : Request) : ℕ :=
  r.promptTokenIds.length

def numTokens (r : Request) : ℕ :=
  r.allTokenIds.length

def numTokensWithSpec (r : Request) : ℕ :=
  r.allTokenIds.length + r.specTokenIds.length

def numOutputTokens (r : Request) : ℕ :=
  r.outputTokenIds.length

def useStructuredOutput (r : Request) : Bool :=
  r.samplingParams.guidedDecoding

def isFinished (r : Request) : Bool :=
  r.status.isFinished

/-- Joint confidence of the tokens still awaiting verification. -/
def specConfidence (r : Request) : Except PyError ℚ :=
  (List.range r.spLen.toNat).foldlM
    (fun confidence i => do return confidence * (← pyGet r.specConfidenceList (-(i + 1 : ℕ))))
    1

def appendOutputTokenIds (r : Request) (tokenId : TokenId) (specConfidence : ℚ)
    (predictedLenProb : List ℚ) : Request :=
  { r with
    outputTokenIds := r.outputTokenIds ++ [tokenId]
    allTokenIds := r.allTokenIds ++ [tokenId]
    specConfidenceList := r.specConfidenceList ++ [specConfidence]
    predictedLenProb := predictedLenProb }

/-- `flush_len -= 1`, which needs `flush_len` to hold a number. -/
def decrFlushLen (r : Request) : Except PyError Request :=
  match r.flushLen with
  | none => .error .typeError
  | some flushLen =>
    .ok { r with
      justFixed := some false
      flushLen := some (flushLen - 1)
      specResult := if flushLen - 1 = 0 then none else r.specResult }

/-- `drop_len -= 1`. -/
def decrDropLen (r : Request) : Request :=
  { r with dropLen := r.dropLen - 1 }

/-- The target token replaces the last token of a drop. -/
def replaceLast (r : Request) (tokenId : TokenId) : Request :=
  { r with
    outputTokenIds := pySetTail r.outputTokenIds (-1) [tokenId]
    allTokenIds := pySetTail r.allTokenIds (-1) [tokenId]
    specConfidenceList := pySetTail r.specConfidenceList (-1) [1]
    dropEnd := true }

/-- A drop is over. -/
def endDrop (r : Request) : Request :=
  { r with
    stopDropped := false
    confidenceDropped := false
    specResult := none
    flushLen := none
    spLen := 0
    fixedIdx := some 0 }

/-- The last token of a drop has been verified. -/
def finishDrop (r : Request) (tokenId : TokenId) : Request :=
  if r.specResult = some true ∨ r.specResult = none then (r.replaceLast tokenId).endDrop
  else r.endDrop

/-- The draft of the oldest unverified token was right. -/
def acceptDraft (r : Request) : Request :=
  { r with spLen := r.spLen - 1, specResult := some true, fixedIdx := some 0 }

/-- The draft of the oldest unverified token was wrong: the target token replaces
it and every token drafted after it. -/
def rejectDraft (r : Request) (tokenId : TokenId) : Request :=
  { r with
    numComputedTokens := ((r.numComputedTokens : ℤ) - (r.spLen - 1)).toNat
    outputTokenIds := pySetTail r.outputTokenIds (-r.spLen) [tokenId]
    allTokenIds := pySetTail r.allTokenIds (-r.spLen) [tokenId]
    specConfidenceList := pySetTail r.specConfidenceList (-r.spLen) [1]
    flushLen := some (r.spLen - 1)
    spLen := 0
    justFixed := some true
    confidenceDropped := false
    stopDropped := false
    dropLen := 0
    specResult := some false
    fixedIdx := some ((r.numOutputTokens : ℤ) - r.spLen) }

/-- The validation branch of `verify_output_token_ids`. -/
def validateDraft (r : Request) (tokenId : TokenId) : Except PyError (ℕ × Request) := do
  let draft ← pyGet r.outputTokenIds (-r.spLen)
  if draft = tokenId then return (0, r.acceptDraft)
  else return (1, r.rejectDraft tokenId)

/-- Result codes: 0 correct, 1 wrong, 2 flushed, 3 flushed while dropped,
4 end of a drop. -/
def verifyOutputTokenIds (r : Request) (tokenId : TokenId) : Except PyError (ℕ × Request) :=
  if r.confidenceDropped ∨ r.stopDropped then
    if r.specResult = some false then do return (3, ← r.decrFlushLen)
    else if r.decrDropLen.dropLen = 0 then .ok (4, r.decrDropLen.finishDrop tokenId)
    else r.decrDropLen.validateDraft tokenId
  else if r.specResult = some false then do return (2, ← r.decrFlushLen)
  else r.validateDraft tokenId

/-- The first threshold the predicted probabilities reach, or `-1`. -/
def expectRemainLenIdx (r : Request) (thresholdList : List ℚ) : Except PyError ℤ :=
  go 0 r.predictedLenProb
where
  go (idx : ℕ) : List ℚ → Except PyError ℤ
    | [] => .ok (-1)
    | prob :: rest => do
      if prob ≥ (← pyGet thresholdList idx) then return idx
      go (idx + 1) rest

end Request

/-! ## Stop checks -/

/-- Would the speculated token stop the request? The status does not change. -/
def checkStopFromSpec (r : Request) (maxModelLen : ℕ) : Except PyError Bool := do
  if r.numTokens ≥ maxModelLen ∨ r.numOutputTokens ≥ r.maxTokens then return true
  let lastTokenId ← pyGet r.outputTokenIds (-1)
  if ¬ r.samplingParams.ignoreEos ∧ some lastTokenId = r.eosTokenId then return true
  return lastTokenId ∈ r.samplingParams.stopTokenIds

/-- Does the verified token stop the request? Commits the status. -/
def checkStopFromValidation (r : Request) (maxModelLen : ℕ) :
    Except PyError (Bool × Request) := do
  if (r.numTokens : ℤ) - r.spLen ≥ maxModelLen ∨
      (r.numOutputTokens : ℤ) - r.spLen ≥ r.maxTokens then
    return (true, { r with status := .finishedLengthCapped })
  -- the tokens that are still unverified are skipped
  let lastTokenId ← pyGet r.outputTokenIds (-(r.spLen + 1))
  if ¬ r.samplingParams.ignoreEos ∧ some lastTokenId = r.eosTokenId then
    return (true, { r with status := .finishedStopped })
  if lastTokenId ∈ r.samplingParams.stopTokenIds then
    return (true, { r with status := .finishedStopped, stopReason := some lastTokenId })
  return (false, r)

end Spexis
