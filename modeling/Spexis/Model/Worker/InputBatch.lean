import Mathlib.Data.Finset.Card
import Spexis.Library.Arrays
import Spexis.Library.Compaction
import Spexis.Model.KVCacheManager

/-! # The persistent batch of a worker

Parallel arrays with one row for each request, and sets of the requests that need a sampling
feature. Arrays and dictionaries keyed by rows are functions on rows. -/

namespace Spexis

open Python

/-! ## Cached requests -/

inductive SamplingType where
  | greedy
  | random
  | randomSeed
  deriving DecidableEq, Repr

/-- A random number generator, by its seed. -/
structure Generator where
  seed : ℤ
  deriving DecidableEq, Repr

/-- An adapter; id 0 stands for none. -/
structure LoRARequest where
  loraName : String
  loraIntId : ℕ
  positive : 0 < loraIntId

/-- The fields of the sampling parameters that a worker reads. -/
structure WorkerSamplingParams where
  temperature : ℚ := 0
  seed : Option ℤ := none
  topP : ℚ := 1
  topK : ℤ := -1
  minP : ℚ := 0
  frequencyPenalty : ℚ := 0
  presencePenalty : ℚ := 0
  repetitionPenalty : ℚ := 1
  minTokens : ℕ := 0
  allStopTokenIds : Finset TokenId := ∅
  logprobs : Option ℕ := none
  promptLogprobs : Option ℕ := none
  logitBias : Option (List (TokenId × ℚ)) := none
  allowedTokenIds : List TokenId := []
  badWordsTokenIds : List (List TokenId) := []

def samplingEps : ℚ := 1 / 100000

def WorkerSamplingParams.samplingType (params : WorkerSamplingParams) : SamplingType :=
  if params.temperature < samplingEps then .greedy
  else if params.seed.isSome then .randomSeed
  else .random

structure CachedRequestState where
  reqId : ReqId
  promptTokenIds : List TokenId
  samplingParams : WorkerSamplingParams
  generator : Option Generator
  blockIds : List BlockId
  numComputedTokens : ℕ
  /-- A list object. -/
  outputTokenIds : ListRef
  loraRequest : Option LoRARequest

/-! ## Block tables -/

structure BlockTable where
  blockTableNp : ℕ → ℕ → BlockId
  numBlocksPerRow : ℕ → ℕ

namespace BlockTable

def init : BlockTable where
  blockTableNp := fun _ _ => 0
  numBlocksPerRow := fun _ => 0

def appendRow (maxNumBlocksPerReq : ℕ) (blockIds : List BlockId) (rowIdx : ℕ) (t : BlockTable) :
    Except PyError BlockTable :=
  if blockIds = [] then .ok t
  else do
    let start := t.numBlocksPerRow rowIdx
    let row ← npAssign maxNumBlocksPerReq (t.blockTableNp rowIdx) start (start + blockIds.length)
      blockIds
    return {
      blockTableNp := Function.update t.blockTableNp rowIdx row
      numBlocksPerRow := Function.update t.numBlocksPerRow rowIdx (start + blockIds.length) }

def addRow (maxNumBlocksPerReq : ℕ) (blockIds : List BlockId) (rowIdx : ℕ) (t : BlockTable) :
    Except PyError BlockTable :=
  appendRow maxNumBlocksPerReq blockIds rowIdx
    { t with numBlocksPerRow := Function.update t.numBlocksPerRow rowIdx 0 }

def moveRow (src tgt : ℕ) (t : BlockTable) : BlockTable :=
  let numBlocks := t.numBlocksPerRow src
  { blockTableNp := Function.update t.blockTableNp tgt fun j =>
      if j < numBlocks then t.blockTableNp src j else t.blockTableNp tgt j
    numBlocksPerRow := Function.update t.numBlocksPerRow tgt numBlocks }

end BlockTable

/-! ## Input batches -/

structure BatchConfig where
  maxNumReqs : ℕ
  maxModelLen : ℕ
  maxNumBlocksPerReq : ℕ
  vocabSize : ℕ
  /-- The conversion to single precision on storing into an array. -/
  float32 : ℚ → ℚ

structure InputBatch where
  reqIds : List (Option ReqId)
  /-- The items of the dictionary, in insertion order. -/
  reqIdToIndex : List (ReqId × ℕ)
  tokenIdsCpu : ℕ → ℕ → TokenId
  numTokens : ℕ → ℕ
  numTokensNoSpec : ℕ → ℕ
  numPromptTokens : ℕ → ℕ
  numComputedTokensCpu : ℕ → ℕ
  blockTable : BlockTable
  temperatureCpu : ℕ → ℚ
  greedyReqs : Finset ReqId
  randomReqs : Finset ReqId
  topPCpu : ℕ → ℚ
  topPReqs : Finset ReqId
  topKCpu : ℕ → ℤ
  topKReqs : Finset ReqId
  minPCpu : ℕ → ℚ
  minPReqs : Finset ReqId
  frequencyPenaltiesCpu : ℕ → ℚ
  frequencyPenaltiesReqs : Finset ReqId
  presencePenaltiesCpu : ℕ → ℚ
  presencePenaltiesReqs : Finset ReqId
  repetitionPenaltiesCpu : ℕ → ℚ
  repetitionPenaltiesReqs : Finset ReqId
  minTokens : ℕ → Option (ℕ × Finset TokenId)
  requestLoraMapping : ℕ → ℕ
  loraIdToRequestIds : ℕ → Option (Finset ReqId)
  loraIdToLoraRequest : ℕ → Option LoRARequest
  generators : ℕ → Option Generator
  numLogprobs : ReqId → Option ℕ
  numPromptLogprobs : ReqId → Option ℕ
  logitBias : ℕ → Option (List (TokenId × ℚ))
  hasAllowedTokenIds : Finset ReqId
  /-- Allocated for the first request that restricts its tokens. -/
  allowedTokenIdsMaskCpuTensor : Option (ℕ → ℕ → Bool)
  badWordsTokenIds : ℕ → Option (List (List TokenId))
  reqOutputTokenIds : List (Option ListRef)

namespace InputBatch

def init : InputBatch where
  reqIds := []
  reqIdToIndex := []
  tokenIdsCpu := fun _ _ => 0
  numTokens := fun _ => 0
  numTokensNoSpec := fun _ => 0
  numPromptTokens := fun _ => 0
  numComputedTokensCpu := fun _ => 0
  blockTable := .init
  temperatureCpu := fun _ => 0
  greedyReqs := ∅
  randomReqs := ∅
  topPCpu := fun _ => 0
  topPReqs := ∅
  topKCpu := fun _ => 0
  topKReqs := ∅
  minPCpu := fun _ => 0
  minPReqs := ∅
  frequencyPenaltiesCpu := fun _ => 0
  frequencyPenaltiesReqs := ∅
  presencePenaltiesCpu := fun _ => 0
  presencePenaltiesReqs := ∅
  repetitionPenaltiesCpu := fun _ => 0
  repetitionPenaltiesReqs := ∅
  minTokens := fun _ => none
  requestLoraMapping := fun _ => 0
  loraIdToRequestIds := fun _ => none
  loraIdToLoraRequest := fun _ => none
  generators := fun _ => none
  numLogprobs := fun _ => none
  numPromptLogprobs := fun _ => none
  logitBias := fun _ => none
  hasAllowedTokenIds := ∅
  allowedTokenIdsMaskCpuTensor := none
  badWordsTokenIds := fun _ => none
  reqOutputTokenIds := []

def numReqs (b : InputBatch) : ℕ :=
  b.reqIdToIndex.length

/-- `xs.add(x)` under a condition. -/
def addIf (condition : Prop) [Decidable condition] (reqId : ReqId) (xs : Finset ReqId) :
    Finset ReqId :=
  if condition then insert reqId xs else xs

/-- The request takes the row. -/
def addSlot (request : CachedRequestState) (reqIndex : ℕ) (b : InputBatch) :
    Except PyError InputBatch :=
  let reqIdToIndex := dictSet b.reqIdToIndex request.reqId reqIndex
  if reqIndex = b.reqIds.length then
    .ok { b with
      reqIds := b.reqIds ++ [some request.reqId]
      reqOutputTokenIds := b.reqOutputTokenIds ++ [some request.outputTokenIds]
      reqIdToIndex := reqIdToIndex }
  else do
    let reqIds ← pySet b.reqIds reqIndex (some request.reqId)
    let reqOutputTokenIds ← pySet b.reqOutputTokenIds reqIndex (some request.outputTokenIds)
    return { b with
      reqIds := reqIds
      reqOutputTokenIds := reqOutputTokenIds
      reqIdToIndex := reqIdToIndex }

/-- The tokens and the blocks of the request. -/
def addTokens (cfg : BatchConfig) (request : CachedRequestState) (outputTokenIds : List TokenId)
    (reqIndex : ℕ) (b : InputBatch) : Except PyError InputBatch := do
  let numPromptTokens := request.promptTokenIds.length
  let endIdx := numPromptTokens + outputTokenIds.length
  let row ← npAssign cfg.maxModelLen (b.tokenIdsCpu reqIndex) 0 numPromptTokens
    request.promptTokenIds
  let row ← npAssign cfg.maxModelLen row numPromptTokens endIdx outputTokenIds
  let blockTable ← b.blockTable.addRow cfg.maxNumBlocksPerReq request.blockIds reqIndex
  return { b with
    numPromptTokens := Function.update b.numPromptTokens reqIndex numPromptTokens
    tokenIdsCpu := Function.update b.tokenIdsCpu reqIndex row
    numTokens := Function.update b.numTokens reqIndex endIdx
    numTokensNoSpec := Function.update b.numTokensNoSpec reqIndex endIdx
    numComputedTokensCpu :=
      Function.update b.numComputedTokensCpu reqIndex request.numComputedTokens
    blockTable := blockTable }

/-- The sampling parameters that every row holds, and the sets of the requests that need them. -/
def addSamplingParams (cfg : BatchConfig) (request : CachedRequestState) (reqIndex : ℕ)
    (b : InputBatch) : InputBatch :=
  let reqId := request.reqId
  let params := request.samplingParams
  let greedy := params.samplingType = .greedy
  let limited := 0 < params.topK ∧ params.topK < cfg.vocabSize
  { b with
    -- avoids a division by zero
    temperatureCpu := Function.update b.temperatureCpu reqIndex
      (if greedy then -1 else cfg.float32 params.temperature)
    greedyReqs := addIf greedy reqId b.greedyReqs
    randomReqs := addIf (¬ greedy) reqId b.randomReqs
    topPCpu := Function.update b.topPCpu reqIndex (cfg.float32 params.topP)
    topPReqs := addIf (params.topP < 1) reqId b.topPReqs
    topKCpu := Function.update b.topKCpu reqIndex (if limited then params.topK else cfg.vocabSize)
    topKReqs := addIf limited reqId b.topKReqs
    minPCpu := Function.update b.minPCpu reqIndex (cfg.float32 params.minP)
    minPReqs := addIf (samplingEps < params.minP) reqId b.minPReqs
    frequencyPenaltiesCpu :=
      Function.update b.frequencyPenaltiesCpu reqIndex (cfg.float32 params.frequencyPenalty)
    frequencyPenaltiesReqs := addIf (params.frequencyPenalty ≠ 0) reqId b.frequencyPenaltiesReqs
    presencePenaltiesCpu :=
      Function.update b.presencePenaltiesCpu reqIndex (cfg.float32 params.presencePenalty)
    presencePenaltiesReqs := addIf (params.presencePenalty ≠ 0) reqId b.presencePenaltiesReqs
    repetitionPenaltiesCpu :=
      Function.update b.repetitionPenaltiesCpu reqIndex (cfg.float32 params.repetitionPenalty)
    repetitionPenaltiesReqs :=
      addIf (params.repetitionPenalty ≠ 1) reqId b.repetitionPenaltiesReqs }

/-- `d[key] = value` when there is a value. -/
def setSome {κ α : Type*} [DecidableEq κ] (d : κ → Option α) (key : κ) : Option α → κ → Option α
  | some value => Function.update d key (some value)
  | none => d

/-- What only some requests have. -/
def addOptional (request : CachedRequestState) (reqIndex : ℕ) (b : InputBatch) : InputBatch :=
  let reqId := request.reqId
  let params := request.samplingParams
  { b with
    minTokens := setSome b.minTokens reqIndex
      (if params.minTokens ≠ 0 then some (params.minTokens, params.allStopTokenIds) else none)
    generators := setSome b.generators reqIndex request.generator
    numLogprobs := setSome b.numLogprobs reqId params.logprobs
    numPromptLogprobs := setSome b.numPromptLogprobs reqId params.promptLogprobs
    logitBias := setSome b.logitBias reqIndex params.logitBias
    badWordsTokenIds := setSome b.badWordsTokenIds reqIndex
      (if params.badWordsTokenIds ≠ [] then some params.badWordsTokenIds else none) }

/-- The mask is true for the tokens that are not allowed. -/
def addAllowedTokenIds (cfg : BatchConfig) (request : CachedRequestState) (reqIndex : ℕ)
    (b : InputBatch) : Except PyError InputBatch :=
  let allowedTokenIds := request.samplingParams.allowedTokenIds
  if allowedTokenIds = [] then .ok b
  else
    let mask := b.allowedTokenIdsMaskCpuTensor.getD fun _ _ => false
    if ∀ tokenId ∈ allowedTokenIds, tokenId < cfg.vocabSize then
      .ok { b with
        hasAllowedTokenIds := insert request.reqId b.hasAllowedTokenIds
        allowedTokenIdsMaskCpuTensor := some
          (Function.update mask reqIndex fun tokenId => decide (tokenId ∉ allowedTokenIds)) }
    else .error .indexError

def addLora (request : CachedRequestState) (reqIndex : ℕ) (b : InputBatch) : InputBatch :=
  match request.loraRequest with
  | some lora =>
    let loraId := lora.loraIntId
    let requestIds := (b.loraIdToRequestIds loraId).getD ∅
    { b with
      requestLoraMapping := Function.update b.requestLoraMapping reqIndex loraId
      loraIdToRequestIds :=
        Function.update b.loraIdToRequestIds loraId (some (insert request.reqId requestIds))
      loraIdToLoraRequest := Function.update b.loraIdToLoraRequest loraId (some lora) }
  | none => { b with requestLoraMapping := Function.update b.requestLoraMapping reqIndex 0 }

/-- `outputTokenIds` is the contents of the request's list. -/
def addRequest (cfg : BatchConfig) (request : CachedRequestState) (outputTokenIds : List TokenId)
    (reqIndex : Option ℕ) (b : InputBatch) : Except PyError InputBatch := do
  let reqIndex := reqIndex.getD b.numReqs
  pyAssert (reqIndex < cfg.maxNumReqs) ""
  let b ← b.addSlot request reqIndex
  let b ← b.addTokens cfg request outputTokenIds reqIndex
  let b := (b.addSamplingParams cfg request reqIndex).addOptional request reqIndex
  let b ← b.addAllowedTokenIds cfg request reqIndex
  return b.addLora request reqIndex

def removeLora (reqId : ReqId) (reqIndex : ℕ) (b : InputBatch) : Except PyError InputBatch :=
  let loraId := b.requestLoraMapping reqIndex
  if loraId = 0 then .ok b
  else
    match b.loraIdToRequestIds loraId with
    | none => .error .keyError
    | some requestIds =>
      let requestIds := requestIds.erase reqId
      let b := { b with requestLoraMapping := Function.update b.requestLoraMapping reqIndex 0 }
      if requestIds.card = 0 then
        match b.loraIdToLoraRequest loraId with
        | none => .error .keyError
        | some _ =>
          .ok { b with
            loraIdToRequestIds := Function.update b.loraIdToRequestIds loraId none
            loraIdToLoraRequest := Function.update b.loraIdToLoraRequest loraId none }
      else
        .ok { b with
          loraIdToRequestIds := Function.update b.loraIdToRequestIds loraId (some requestIds) }

/-- The row that becomes free, if the request has one. -/
def removeRequest (reqId : ReqId) (b : InputBatch) : Except PyError (Option ℕ × InputBatch) :=
  match dictGet? b.reqIdToIndex reqId with
  | none => .ok (none, b)
  | some reqIndex => do
    let reqIds ← pySet b.reqIds reqIndex none
    let reqOutputTokenIds ← pySet b.reqOutputTokenIds reqIndex none
    let b := { b with
      reqIdToIndex := b.reqIdToIndex.filter (·.1 ≠ reqId)
      reqIds := reqIds
      reqOutputTokenIds := reqOutputTokenIds
      greedyReqs := b.greedyReqs.erase reqId
      randomReqs := b.randomReqs.erase reqId
      topPReqs := b.topPReqs.erase reqId
      topKReqs := b.topKReqs.erase reqId
      minPReqs := b.minPReqs.erase reqId
      minTokens := Function.update b.minTokens reqIndex none
      frequencyPenaltiesReqs := b.frequencyPenaltiesReqs.erase reqId
      presencePenaltiesReqs := b.presencePenaltiesReqs.erase reqId
      repetitionPenaltiesReqs := b.repetitionPenaltiesReqs.erase reqId
      generators := Function.update b.generators reqIndex none
      numLogprobs := Function.update b.numLogprobs reqId none
      numPromptLogprobs := Function.update b.numPromptLogprobs reqId none }
    let b ← b.removeLora reqId reqIndex
    return (some reqIndex, { b with
      logitBias := Function.update b.logitBias reqIndex none
      hasAllowedTokenIds := b.hasAllowedTokenIds.erase reqId
      allowedTokenIdsMaskCpuTensor :=
        b.allowedTokenIdsMaskCpuTensor.map (Function.update · reqIndex fun _ => false)
      badWordsTokenIds := Function.update b.badWordsTokenIds reqIndex none })

/-- `d[dst] = d.pop(src)` when `src` is a key. -/
def popTo {α : Type*} (d : ℕ → Option α) (src dst : ℕ) : ℕ → Option α :=
  setSome (Function.update d src none) dst (d src)

/-- The body of the loop in `condense`: the request of the row `src` moves to `dst`. -/
def moveRequest (src dst : ℕ) (b : InputBatch) : Except PyError InputBatch := do
  match ← pyGet b.reqIds src with
  | none => throw (.assertionError "")
  | some reqId =>
    let reqIds ← pySet b.reqIds dst (some reqId)
    let reqIds ← pySet reqIds src none
    let outputTokenIds ← pyGet b.reqOutputTokenIds src
    let reqOutputTokenIds ← pySet b.reqOutputTokenIds dst outputTokenIds
    let reqOutputTokenIds ← pySet reqOutputTokenIds src none
    let numTokens := b.numTokens src
    return { b with
      reqIds := reqIds
      reqOutputTokenIds := reqOutputTokenIds
      reqIdToIndex := dictSet b.reqIdToIndex reqId dst
      tokenIdsCpu := Function.update b.tokenIdsCpu dst fun j =>
        if j < numTokens then b.tokenIdsCpu src j else b.tokenIdsCpu dst j
      numTokens := Function.update b.numTokens dst numTokens
      numTokensNoSpec := Function.update b.numTokensNoSpec dst (b.numTokensNoSpec src)
      numPromptTokens := Function.update b.numPromptTokens dst (b.numPromptTokens src)
      numComputedTokensCpu :=
        Function.update b.numComputedTokensCpu dst (b.numComputedTokensCpu src)
      blockTable := b.blockTable.moveRow src dst
      temperatureCpu := Function.update b.temperatureCpu dst (b.temperatureCpu src)
      topPCpu := Function.update b.topPCpu dst (b.topPCpu src)
      topKCpu := Function.update b.topKCpu dst (b.topKCpu src)
      frequencyPenaltiesCpu :=
        Function.update b.frequencyPenaltiesCpu dst (b.frequencyPenaltiesCpu src)
      presencePenaltiesCpu :=
        Function.update b.presencePenaltiesCpu dst (b.presencePenaltiesCpu src)
      repetitionPenaltiesCpu :=
        Function.update b.repetitionPenaltiesCpu dst (b.repetitionPenaltiesCpu src)
      minPCpu := Function.update b.minPCpu dst (b.minPCpu src)
      generators := popTo b.generators src dst
      minTokens := popTo b.minTokens src dst
      requestLoraMapping := Function.update b.requestLoraMapping dst (b.requestLoraMapping src)
      logitBias := Function.update b.logitBias dst (b.logitBias src)
      allowedTokenIdsMaskCpuTensor :=
        b.allowedTokenIdsMaskCpuTensor.map fun mask => Function.update mask dst (mask src)
      badWordsTokenIds := popTo b.badWordsTokenIds src dst }

/-- `emptyReqIndices` is in ascending order here: the source takes the indices off the end of a
descending list. -/
def condense (emptyReqIndices : List ℕ) (b : InputBatch) : Except PyError InputBatch :=
  if b.numReqs = 0 then .ok { b with reqIds := [], reqOutputTokenIds := [] }
  else do
    let lastReqIndex := b.numReqs + emptyReqIndices.length - 1
    let b ← Compaction.fill moveRequest emptyReqIndices lastReqIndex b
    return { b with
      reqIds := b.reqIds.take b.numReqs
      reqOutputTokenIds := b.reqOutputTokenIds.take b.numReqs }

end InputBatch

end Spexis
