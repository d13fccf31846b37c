import Spexis.Library.NumPy
import Spexis.Model.Request

/-! # Speculative decoding of the V1 worker

The drafts of a batch are laid out in flat arrays, the target is sampled greedily at every draft and
after it, and the rejection sampler keeps what the drafts and the target agree on. -/

namespace Spexis

open Python

/-- `PLACEHOLDER_TOKEN_ID`. -/
def placeholderTokenId : ℤ := -1

/-- `MAX_SPEC_LEN`. -/
def maxSpecLenLimit : ℕ := 32

structure SpecDecodeMetadata where
  draftTokenIds : List TokenId
  numDraftTokens : List ℤ
  cuNumDraftTokens : List ℤ
  targetLogitsIndices : List ℤ
  bonusLogitsIndices : List ℤ
  logitsIndices : List ℤ

/-- `max(self.num_draft_tokens)`. -/
def SpecDecodeMetadata.maxSpecLen (metadata : SpecDecodeMetadata) : Except PyError ℤ :=
  match metadata.numDraftTokens with
  | [] => .error (.valueError "max() arg is an empty sequence")
  | n :: ns => .ok (ns.foldl max n)

/-- `xs[indices]` for an array that is a list. -/
def takeTokens (xs : List TokenId) (indices : List ℤ) : Except PyError (List TokenId) :=
  npTake xs.length (xs.getD · 0) indices

/-- `_calc_spec_decode_metadata`. -/
def calcSpecDecodeMetadata (arangeNp : List ℤ) (inputIds : List TokenId)
    (numDraftTokens cuNumScheduledTokens : List ℤ) : Except PyError SpecDecodeMetadata := do
  let sub (x y : ℤ) : ℤ := int32 (x - y)
  let numSampledTokens := numDraftTokens.map fun n => int32 (n + 1)
  let cuNumSampledTokens := (npCumsum 0 numSampledTokens).map int32
  let totalNumSampledTokens ← pyGet cuNumSampledTokens (-1)
  let starts ← npZip sub cuNumSampledTokens numSampledTokens
  let cumsumsOffsets ← npRepeat starts numSampledTokens
  let arange ← npZip sub (pySliceInt arangeNp 0 totalNumSampledTokens) cumsumsOffsets
  let ends ← npZip (· - ·) cuNumScheduledTokens numSampledTokens
  let logitsIndices ← npRepeat ends numSampledTokens
  let logitsIndices ← npZip (· + ·) logitsIndices arange
  let bonusLogitsIndices := cuNumSampledTokens.map fun n => int32 (n - 1)
  let cuNumDraftTokens := (npCumsum 0 numDraftTokens).map int32
  let totalNumDraftTokens ← pyGet cuNumDraftTokens (-1)
  let draftStarts ← npZip sub cuNumDraftTokens numDraftTokens
  let cumsumsOffsets ← npRepeat draftStarts numDraftTokens
  let arange ← npZip sub (pySliceInt arangeNp 0 totalNumDraftTokens) cumsumsOffsets
  let starts ← npZip sub cuNumSampledTokens numSampledTokens
  let targetLogitsIndices ← npRepeat starts numDraftTokens
  let targetLogitsIndices ← npZip (fun x y => int32 (x + y)) targetLogitsIndices arange
  let draftTokenIds ← takeTokens inputIds logitsIndices
  let draftTokenIds ← takeTokens draftTokenIds (targetLogitsIndices.map fun n => int32 (n + 1))
  return {
    draftTokenIds := draftTokenIds
    numDraftTokens := numDraftTokens
    cuNumDraftTokens := cuNumDraftTokens
    targetLogitsIndices := targetLogitsIndices
    bonusLogitsIndices := bonusLogitsIndices
    logitsIndices := logitsIndices }

/-! ## Rejection sampling -/

/-- `for pos in range(num_draft_tokens)`: is a draft rejected, and what has been stored? -/
def rejectionGreedyPos (draftTokenIds targetArgmax : List TokenId) (startIdx row : ℤ)
    (state : Bool × List ℤ) (pos : ℕ) : Except PyError (Bool × List ℤ) := do
  let (rejected, outputTokenIds) := state
  if rejected then return (rejected, outputTokenIds)
  let draftTokenId ← tlLoad draftTokenIds (startIdx + pos)
  let targetArgmaxId ← tlLoad targetArgmax (startIdx + pos)
  let outputTokenIds ← tlStore outputTokenIds (row + pos) (int32 targetArgmaxId)
  return (decide (draftTokenId ≠ targetArgmaxId), outputTokenIds)

/-- The bonus token, if all drafts have been accepted. -/
def rejectionGreedyBonus (bonusTokenIds : List TokenId) (numDraftTokens row : ℤ) (reqIdx : ℕ)
    (state : Bool × List ℤ) : Except PyError (List ℤ) := do
  let (rejected, outputTokenIds) := state
  if rejected then return outputTokenIds
  let bonusTokenId ← tlLoad bonusTokenIds reqIdx
  tlStore outputTokenIds (row + numDraftTokens) (int32 bonusTokenId)

/-- `start_idx`. -/
def draftStartIdx (cuNumDraftTokens : List ℤ) : ℕ → Except PyError ℤ
  | 0 => .ok 0
  | reqIdx + 1 => tlLoad cuNumDraftTokens reqIdx

/-- The program of one request in `rejection_greedy_sample_kernel`. -/
def rejectionGreedySampleKernel (cuNumDraftTokens : List ℤ)
    (draftTokenIds targetArgmax bonusTokenIds : List TokenId) (maxSpecLen : ℤ)
    (outputTokenIds : List ℤ) (reqIdx : ℕ) : Except PyError (List ℤ) := do
  let startIdx ← draftStartIdx cuNumDraftTokens reqIdx
  let endIdx ← tlLoad cuNumDraftTokens reqIdx
  let numDraftTokens := endIdx - startIdx
  let row := reqIdx * (maxSpecLen + 1)
  let state ← (List.range numDraftTokens.toNat).foldlM
    (rejectionGreedyPos draftTokenIds targetArgmax startIdx row) (false, outputTokenIds)
  rejectionGreedyBonus bonusTokenIds numDraftTokens row reqIdx state

/-- `rejection_sample` of a batch that is sampled greedily; the programs of the requests run in some
order. -/
def rejectionSample (metadata : SpecDecodeMetadata) (targetArgmax bonusTokenIds : List TokenId)
    (order : List ℕ) : Except PyError (List ℤ) := do
  let maxSpecLen ← metadata.maxSpecLen
  pyAssert (maxSpecLen ≤ maxSpecLenLimit) ""
  let size := metadata.numDraftTokens.length * (maxSpecLen + 1).toNat
  order.foldlM
    (rejectionGreedySampleKernel metadata.cuNumDraftTokens metadata.draftTokenIds targetArgmax
      bonusTokenIds maxSpecLen)
    (List.replicate size placeholderTokenId)

/-- The rows of a table of the height and width. -/
def tableRows (height width : ℕ) (table : List ℤ) : List (List ℤ) :=
  (List.range height).map fun i => pySlice table (i * width) ((i + 1) * width)

/-- `parse_output`. -/
def parseOutput (vocabSize : ℕ) (rows : List (List ℤ)) : List (List ℤ) :=
  rows.map fun row => row.filter fun token =>
    decide (token ≠ placeholderTokenId ∧ token < vocabSize)

/-- What the runner samples for a batch with drafts, given the token that greedy sampling picks at
each position; a request whose prefill is partial gets nothing. -/
def sampleSpecDecode (arangeNp : List ℤ) (vocabSize : ℕ) (inputIds greedySampled : List TokenId)
    (numDraftTokens cuNumScheduledTokens : List ℤ) (partialPrefill : List Bool) (order : List ℕ) :
    Except PyError (List (List ℤ)) := do
  let metadata ← calcSpecDecodeMetadata arangeNp inputIds numDraftTokens cuNumScheduledTokens
  let sampled ← takeTokens greedySampled metadata.logitsIndices
  let bonusTokenIds ← takeTokens sampled metadata.bonusLogitsIndices
  let targetArgmax ← takeTokens sampled metadata.targetLogitsIndices
  let outputTokenIds ← rejectionSample metadata targetArgmax bonusTokenIds order
  let maxSpecLen ← metadata.maxSpecLen
  let width := (maxSpecLen + 1).toNat
  let rows := tableRows metadata.numDraftTokens.length width outputTokenIds
  let validSampledTokenIds := if width = 1 then rows else parseOutput vocabSize rows
  return List.zipWith (fun discard tokens => if discard then [] else tokens) partialPrefill
    validSampledTokenIds

end Spexis
