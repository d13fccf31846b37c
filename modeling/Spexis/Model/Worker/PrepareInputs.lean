import Spexis.Library.NumPy
import Spexis.Model.SchedOutput
import Spexis.Model.Worker.InputBatch

/-! # The inputs of a batch

`_prepare_inputs` turns the persistent batch and the scheduled numbers of tokens into flat arrays,
one element for each token of the batch. -/

namespace Spexis

open Python

structure InputsConfig where
  batch : BatchConfig
  blockSize : ℕ
  maxNumTokens : ℕ
  blockSize_pos : 0 < blockSize
  maxNumBlocksPerReq_eq : batch.maxNumBlocksPerReq = cdiv batch.maxModelLen blockSize

namespace InputsConfig

/-- `arange_np`. -/
def arangeNp (cfg : InputsConfig) : List ℤ :=
  let length := max (cfg.batch.maxNumReqs + 1) (max cfg.batch.maxModelLen cfg.maxNumTokens)
  (List.range length).map Nat.cast

end InputsConfig

/-- What `_prepare_inputs` writes into its buffers, with the flat indices it reads. -/
structure PreparedInputs where
  positions : List ℤ
  tokenIndices : List ℤ
  inputIds : List TokenId
  blockTableIndices : List ℤ
  slotMapping : List ℤ
  queryStartLoc : List ℤ
  seqLens : List ℤ

/-- `logits_indices`. -/
def PreparedInputs.logitsIndices (inputs : PreparedInputs) : List ℤ :=
  inputs.queryStartLoc.tail.map (· - 1)

namespace InputBatch

/-- `[scheduler_output.num_scheduled_tokens[i] for i in req_ids]`. -/
def scheduledTokens (out : SpexisSchedulerOutput) (b : InputBatch) : Except PyError (List ℕ) :=
  b.reqIds.mapM fun
    | some reqId => dictGet out.numScheduledTokens reqId
    | none => .error .keyError

/-- The position of every token in its request, after `req_indices`. -/
def preparePositions (cfg : InputsConfig) (numScheduledTokens : List ℤ) (total : ℕ)
    (b : InputBatch) : Except PyError (List ℤ × List ℤ) := do
  let reqIndices ← npRepeat (cfg.arangeNp.take b.numReqs) numScheduledTokens
  let cuNumTokens := npCumsum 0 numScheduledTokens
  let starts ← npZip (· - ·) cuNumTokens numScheduledTokens
  let cumsumsOffsets ← npRepeat starts numScheduledTokens
  let arange ← npZip (· - ·) (cfg.arangeNp.take total) cumsumsOffsets
  let numComputedTokens ← npTake cfg.batch.maxNumReqs b.numComputedTokensCpu reqIndices
  let positions ← npZipInto (min total cfg.maxNumTokens) (fun (n : ℕ) (j : ℤ) => n + j)
    numComputedTokens arange
  return (reqIndices, positions)

/-- The token id of every position, after the flat indices. -/
def prepareInputIds (cfg : InputsConfig) (reqIndices positions : List ℤ) (b : InputBatch) :
    Except PyError (List ℤ × List TokenId) := do
  let width := cfg.batch.maxModelLen
  let tokenIndices ← npZip (· + ·) positions (reqIndices.map fun i => int32 (i * width))
  let inputIds ← indexSelect (cfg.batch.maxNumReqs * width) (npFlatten width b.tokenIdsCpu)
    tokenIndices
  return (tokenIndices, inputIds)

/-- The slot of every position in the KV cache, after the flat indices. -/
def prepareSlotMapping (cfg : InputsConfig) (total : ℕ) (reqIndices positions : List ℤ)
    (b : InputBatch) : Except PyError (List ℤ × List ℤ) := do
  let width := cfg.batch.maxNumBlocksPerReq
  let blockTableIndices ← npZip (· + ·) (reqIndices.map fun i => int32 (i * width))
    (positions.map (· / (cfg.blockSize : ℤ)))
  let blockNumbers ← npTake (cfg.batch.maxNumReqs * width)
    (npFlatten width b.blockTable.blockTableNp) blockTableIndices
  let blockOffsets := positions.map (· % (cfg.blockSize : ℤ))
  let slotMapping ← npZipInto (min total cfg.maxNumTokens) (fun x y => int32 (x + y))
    (blockNumbers.map fun (block : BlockId) => int32 (block * cfg.blockSize)) blockOffsets
  return (blockTableIndices, slotMapping)

/-- `_prepare_inputs`, up to the copies to the device. -/
def prepareInputs (cfg : InputsConfig) (out : SpexisSchedulerOutput) (b : InputBatch) :
    Except PyError PreparedInputs := do
  let total := out.totalNumScheduledTokens
  pyAssert (0 < total) ""
  pyAssert (0 < b.numReqs) ""
  let tokens ← b.scheduledTokens out
  let numScheduledTokens := tokens.map fun (n : ℕ) => int32 n
  let (reqIndices, positions) ← b.preparePositions cfg numScheduledTokens total
  let (tokenIndices, inputIds) ← b.prepareInputIds cfg reqIndices positions
  let (blockTableIndices, slotMapping) ← b.prepareSlotMapping cfg total reqIndices positions
  let numRows := min b.numReqs cfg.batch.maxNumReqs
  let queryEnds ← npBroadcastTo numRows ((npCumsum 0 numScheduledTokens).map int32)
  let seqLens ← npZip (fun (c : ℕ) n => int32 (c + n))
    ((List.range numRows).map b.numComputedTokensCpu) numScheduledTokens
  let seqLens ← npBroadcastTo numRows seqLens
  return {
    positions := positions
    tokenIndices := tokenIndices
    inputIds := inputIds
    blockTableIndices := blockTableIndices
    slotMapping := slotMapping
    queryStartLoc := 0 :: queryEnds
    seqLens := seqLens }

/-! ## The plain loop -/

/-- The input of one token. -/
structure TokenInput where
  position : ℕ
  inputId : TokenId
  slot : ℕ
  deriving DecidableEq, Repr

/-- `row[p]` for a row of the width. -/
def columnGet {α : Type} (width : ℕ) (row : ℕ → α) (p : ℕ) : Except PyError α :=
  if p < width then .ok (row p) else .error .indexError

/-- The token of the row `i` at the offset `j` of what is scheduled. -/
def tokenInput (cfg : InputsConfig) (b : InputBatch) (i j : ℕ) : Except PyError TokenInput := do
  let position := b.numComputedTokensCpu i + j
  let inputId ← columnGet cfg.batch.maxModelLen (b.tokenIdsCpu i) position
  let block ← columnGet cfg.batch.maxNumBlocksPerReq (b.blockTable.blockTableNp i)
    (position / cfg.blockSize)
  return {
    position := position
    inputId := inputId
    slot := block * cfg.blockSize + position % cfg.blockSize }

/-- `for i, req_id in enumerate(req_ids): for j in range(n): ...`, which says what the arrays of
`prepareInputs` are for. -/
def prepareLoop (cfg : InputsConfig) (out : SpexisSchedulerOutput) (b : InputBatch) :
    Except PyError (List TokenInput) := do
  let tokens ← b.scheduledTokens out
  let rows ← tokens.zipIdx.mapM fun (n, i) => (List.range n).mapM (b.tokenInput cfg i)
  return rows.flatten

end InputBatch

end Spexis
