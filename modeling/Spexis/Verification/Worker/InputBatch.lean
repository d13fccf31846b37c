import Spexis.Model.Worker.InputBatch

/-! # Rows of the persistent batch

What adding, removing and moving a request does to each row. -/

namespace Spexis

open Python

namespace InputBatch

variable {cfg : BatchConfig} {b b' : InputBatch} {request : CachedRequestState} {i j src dst : ℕ}
  {reqId : ReqId} {outputTokenIds : List TokenId}

/-! ## Rows -/

/-- The request of a row. -/
def slot (b : InputBatch) (i : ℕ) : Option ReqId :=
  (b.reqIds[i]?).join

/-- The per-row arrays at one row, with its request and the list of that request's output. -/
structure Row where
  reqId : Option ReqId
  outputTokenIds : Option ListRef
  numPromptTokens : ℕ
  temperature : ℚ
  topP : ℚ
  topK : ℤ
  minP : ℚ
  frequencyPenalty : ℚ
  presencePenalty : ℚ
  repetitionPenalty : ℚ
  minTokens : Option (ℕ × Finset TokenId)
  generator : Option Generator
  logitBias : Option (List (TokenId × ℚ))
  allowedTokenIdsMask : TokenId → Bool
  badWordsTokenIds : Option (List (List TokenId))
  loraId : ℕ

def mask (b : InputBatch) : ℕ → ℕ → Bool :=
  b.allowedTokenIdsMaskCpuTensor.getD fun _ _ => false

def row (b : InputBatch) (i : ℕ) : Row where
  reqId := b.slot i
  outputTokenIds := (b.reqOutputTokenIds[i]?).join
  numPromptTokens := b.numPromptTokens i
  temperature := b.temperatureCpu i
  topP := b.topPCpu i
  topK := b.topKCpu i
  minP := b.minPCpu i
  frequencyPenalty := b.frequencyPenaltiesCpu i
  presencePenalty := b.presencePenaltiesCpu i
  repetitionPenalty := b.repetitionPenaltiesCpu i
  minTokens := b.minTokens i
  generator := b.generators i
  logitBias := b.logitBias i
  allowedTokenIdsMask := b.mask i
  badWordsTokenIds := b.badWordsTokenIds i
  loraId := b.requestLoraMapping i

namespace Row

/-- The row after a request has been added to it. -/
def add (cfg : BatchConfig) (request : CachedRequestState) (row : Row) : Row :=
  let params := request.samplingParams
  { reqId := some request.reqId
    outputTokenIds := some request.outputTokenIds
    numPromptTokens := request.promptTokenIds.length
    temperature :=
      if params.samplingType = .greedy then -1 else cfg.float32 params.temperature
    topP := cfg.float32 params.topP
    topK := if 0 < params.topK ∧ params.topK < cfg.vocabSize then params.topK else cfg.vocabSize
    minP := cfg.float32 params.minP
    frequencyPenalty := cfg.float32 params.frequencyPenalty
    presencePenalty := cfg.float32 params.presencePenalty
    repetitionPenalty := cfg.float32 params.repetitionPenalty
    minTokens :=
      (if params.minTokens ≠ 0 then some (params.minTokens, params.allStopTokenIds) else none).or
        row.minTokens
    generator := request.generator.or row.generator
    logitBias := params.logitBias.or row.logitBias
    allowedTokenIdsMask :=
      if params.allowedTokenIds = [] then row.allowedTokenIdsMask
      else fun tokenId => decide (tokenId ∉ params.allowedTokenIds)
    badWordsTokenIds :=
      (if params.badWordsTokenIds ≠ [] then some params.badWordsTokenIds else none).or
        row.badWordsTokenIds
    loraId := (request.loraRequest.map LoRARequest.loraIntId).getD 0 }

/-- The row after its request has been removed. -/
def clear (row : Row) : Row :=
  { row with
    reqId := none
    outputTokenIds := none
    minTokens := none
    generator := none
    logitBias := none
    allowedTokenIdsMask := fun _ => false
    badWordsTokenIds := none
    loraId := 0 }

/-- The row after its request has moved away. -/
def vacate (row : Row) : Row :=
  { row with
    reqId := none
    outputTokenIds := none
    minTokens := none
    generator := none
    badWordsTokenIds := none }

/-- The row after the request of another row has moved in. -/
def receive (source row : Row) : Row :=
  { source with
    minTokens := source.minTokens.or row.minTokens
    generator := source.generator.or row.generator
    badWordsTokenIds := source.badWordsTokenIds.or row.badWordsTokenIds }

end Row

/-! ## The sets of requests -/

/-- What the batch holds for a request id. -/
structure Entry where
  greedy : Bool
  random : Bool
  topP : Bool
  topK : Bool
  minP : Bool
  frequencyPenalty : Bool
  presencePenalty : Bool
  repetitionPenalty : Bool
  hasAllowedTokenIds : Bool
  numLogprobs : Option ℕ
  numPromptLogprobs : Option ℕ

def entry (b : InputBatch) (reqId : ReqId) : Entry where
  greedy := reqId ∈ b.greedyReqs
  random := reqId ∈ b.randomReqs
  topP := reqId ∈ b.topPReqs
  topK := reqId ∈ b.topKReqs
  minP := reqId ∈ b.minPReqs
  frequencyPenalty := reqId ∈ b.frequencyPenaltiesReqs
  presencePenalty := reqId ∈ b.presencePenaltiesReqs
  repetitionPenalty := reqId ∈ b.repetitionPenaltiesReqs
  hasAllowedTokenIds := reqId ∈ b.hasAllowedTokenIds
  numLogprobs := b.numLogprobs reqId
  numPromptLogprobs := b.numPromptLogprobs reqId

namespace Entry

/-- Nothing is held for an id that has no row. -/
def blank : Entry :=
  ⟨false, false, false, false, false, false, false, false, false, none, none⟩

/-- What a request needs. -/
def of (cfg : BatchConfig) (request : CachedRequestState) : Entry :=
  let params := request.samplingParams
  { greedy := params.samplingType = .greedy
    random := ¬ params.samplingType = .greedy
    topP := params.topP < 1
    topK := 0 < params.topK ∧ params.topK < cfg.vocabSize
    minP := samplingEps < params.minP
    frequencyPenalty := params.frequencyPenalty ≠ 0
    presencePenalty := params.presencePenalty ≠ 0
    repetitionPenalty := params.repetitionPenalty ≠ 1
    hasAllowedTokenIds := params.allowedTokenIds ≠ []
    numLogprobs := params.logprobs
    numPromptLogprobs := params.promptLogprobs }

/-- The entry after the request has been added. -/
def add (cfg : BatchConfig) (request : CachedRequestState) (entry : Entry) : Entry :=
  let new := of cfg request
  { greedy := new.greedy || entry.greedy
    random := new.random || entry.random
    topP := new.topP || entry.topP
    topK := new.topK || entry.topK
    minP := new.minP || entry.minP
    frequencyPenalty := new.frequencyPenalty || entry.frequencyPenalty
    presencePenalty := new.presencePenalty || entry.presencePenalty
    repetitionPenalty := new.repetitionPenalty || entry.repetitionPenalty
    hasAllowedTokenIds := new.hasAllowedTokenIds || entry.hasAllowedTokenIds
    numLogprobs := new.numLogprobs.or entry.numLogprobs
    numPromptLogprobs := new.numPromptLogprobs.or entry.numPromptLogprobs }

theorem blank_add (cfg : BatchConfig) (request : CachedRequestState) :
    blank.add cfg request = of cfg request := by
  simp [add, blank]

end Entry

/-! ## Adding a request -/

/-- `xs[i] = x`, where the first index after the list appends to it. -/
def putAt {α : Type*} (xs : List α) (i : ℕ) (x : α) : List α :=
  if i = xs.length then xs ++ [x] else xs.set i x

theorem getElem?_putAt {α : Type*} {xs : List α} {x : α} (hi : i ≤ xs.length) (j : ℕ) :
    (putAt xs i x)[j]? = if j = i then some x else xs[j]? := by
  unfold putAt
  split_ifs with hlength hj hj
  · rw [hj, hlength, List.getElem?_concat_length]
  · rw [List.getElem?_append]
    split_ifs with hlt
    · rfl
    · rw [List.getElem?_eq_none (by simpa using (by omega : 1 ≤ j - xs.length)),
        List.getElem?_eq_none (by omega)]
  · rw [hj, List.getElem?_set_self (by omega)]
  · rw [List.getElem?_set_ne (Ne.symm hj)]

theorem length_putAt {α : Type*} {xs : List α} {x : α} (hi : i ≤ xs.length) :
    (putAt xs i x).length = max xs.length (i + 1) := by
  unfold putAt
  split_ifs with hlength
  · simp [hlength]
  · rw [List.length_set, Nat.max_eq_left (by omega)]

theorem addSlot_eq_ok (hrefs : b.reqOutputTokenIds.length = b.reqIds.length)
    (h : b.addSlot request i = .ok b') : i ≤ b.reqIds.length ∧
      b' = { b with
        reqIds := putAt b.reqIds i (some request.reqId)
        reqOutputTokenIds := putAt b.reqOutputTokenIds i (some request.outputTokenIds)
        reqIdToIndex := dictSet b.reqIdToIndex request.reqId i } := by
  simp only [addSlot] at h
  split_ifs at h with hlength
  · obtain rfl := Except.ok.inj h
    refine ⟨le_of_eq hlength, ?_⟩
    simp only [putAt, hrefs, hlength, ite_true]
  · simp only [bind_eq_ok, pure_eq_ok, pySet_eq_ok_nat] at h
    obtain ⟨_, ⟨hi, rfl⟩, _, ⟨-, rfl⟩, rfl⟩ := h
    refine ⟨le_of_lt hi, ?_⟩
    simp only [putAt, hrefs, hlength, ite_false]

theorem addSlot_row (hrefs : b.reqOutputTokenIds.length = b.reqIds.length)
    (h : b.addSlot request i = .ok b') (j : ℕ) : b'.row j =
      if j = i then
        { b.row j with
          reqId := some request.reqId
          outputTokenIds := some request.outputTokenIds }
      else b.row j := by
  obtain ⟨hle, rfl⟩ := addSlot_eq_ok hrefs h
  have hle' : i ≤ b.reqOutputTokenIds.length := by rw [hrefs]; exact hle
  simp only [row, slot, getElem?_putAt hle, getElem?_putAt hle']
  split_ifs <;> rfl

/-- The part of the batch that `add_request` fills with tokens and blocks. -/
theorem addTokens_eq_ok (h : b.addTokens cfg request outputTokenIds i = .ok b') :
    ∃ row blockTable, b' = { b with
      numPromptTokens := Function.update b.numPromptTokens i request.promptTokenIds.length
      tokenIdsCpu := Function.update b.tokenIdsCpu i row
      numTokens := Function.update b.numTokens i
        (request.promptTokenIds.length + outputTokenIds.length)
      numTokensNoSpec := Function.update b.numTokensNoSpec i
        (request.promptTokenIds.length + outputTokenIds.length)
      numComputedTokensCpu :=
        Function.update b.numComputedTokensCpu i request.numComputedTokens
      blockTable := blockTable } := by
  simp only [addTokens, bind_eq_ok, pure_eq_ok] at h
  obtain ⟨_, -, row, -, blockTable, -, rfl⟩ := h
  exact ⟨row, blockTable, rfl⟩

theorem addTokens_row (h : b.addTokens cfg request outputTokenIds i = .ok b') (j : ℕ) :
    b'.row j =
      if j = i then { b.row j with numPromptTokens := request.promptTokenIds.length }
      else b.row j := by
  obtain ⟨tokens, blockTable, rfl⟩ := addTokens_eq_ok h
  simp only [row, Function.update_apply]
  split_ifs <;> rfl

theorem addSamplingParams_row (j : ℕ) : (b.addSamplingParams cfg request i).row j =
    if j = i then
      { (b.row j).add cfg request with
        reqId := (b.row j).reqId
        outputTokenIds := (b.row j).outputTokenIds
        numPromptTokens := (b.row j).numPromptTokens
        minTokens := (b.row j).minTokens
        generator := (b.row j).generator
        logitBias := (b.row j).logitBias
        allowedTokenIdsMask := (b.row j).allowedTokenIdsMask
        badWordsTokenIds := (b.row j).badWordsTokenIds
        loraId := (b.row j).loraId }
    else b.row j := by
  by_cases hj : j = i
  · subst hj
    simp only [ite_true, row, addSamplingParams, Function.update_self]
    rfl
  · simp only [hj, ite_false, row, addSamplingParams, Function.update_of_ne hj]
    rfl

@[simp] theorem setSome_self {κ α : Type*} [DecidableEq κ] (d : κ → Option α) (key : κ)
    (value : Option α) : setSome d key value key = value.or (d key) := by
  cases value <;> simp [setSome]

theorem setSome_of_ne {κ α : Type*} [DecidableEq κ] {key key' : κ} (h : key' ≠ key)
    (d : κ → Option α) (value : Option α) : setSome d key value key' = d key' := by
  cases value <;> simp [setSome, h]

theorem addOptional_row (cfg : BatchConfig) (j : ℕ) : (b.addOptional request i).row j =
    if j = i then
      { b.row j with
        minTokens := ((b.row j).add cfg request).minTokens
        generator := ((b.row j).add cfg request).generator
        logitBias := ((b.row j).add cfg request).logitBias
        badWordsTokenIds := ((b.row j).add cfg request).badWordsTokenIds }
    else b.row j := by
  by_cases hj : j = i
  · subst hj
    simp only [ite_true, row, addOptional, setSome_self]
    rfl
  · simp only [hj, ite_false, row, addOptional, setSome_of_ne hj]
    rfl

/-- The masks after a request has been added. -/
def maskWith (request : CachedRequestState) (i : ℕ) (b : InputBatch) : Option (ℕ → ℕ → Bool) :=
  if request.samplingParams.allowedTokenIds = [] then b.allowedTokenIdsMaskCpuTensor
  else some (Function.update b.mask i fun tokenId =>
    decide (tokenId ∉ request.samplingParams.allowedTokenIds))

theorem addAllowedTokenIds_eq_ok (h : b.addAllowedTokenIds cfg request i = .ok b') :
    b' = { b with
      hasAllowedTokenIds := addIf (request.samplingParams.allowedTokenIds ≠ []) request.reqId
        b.hasAllowedTokenIds
      allowedTokenIdsMaskCpuTensor := maskWith request i b } := by
  unfold addAllowedTokenIds at h
  simp only at h
  split_ifs at h with hnone hvocab
  · obtain rfl := Except.ok.inj h
    simp only [maskWith, addIf, hnone, ne_eq, not_true_eq_false, ite_true, ite_false]
  · obtain rfl := Except.ok.inj h
    simp only [maskWith, addIf, hnone, ne_eq, not_false_eq_true, ite_true, ite_false]
    rfl

theorem addAllowedTokenIds_row (h : b.addAllowedTokenIds cfg request i = .ok b') (j : ℕ) :
    b'.row j =
      if j = i then
        { b.row j with allowedTokenIdsMask := ((b.row j).add cfg request).allowedTokenIdsMask }
      else b.row j := by
  obtain rfl := addAllowedTokenIds_eq_ok h
  have hmask : (maskWith request i b).getD (fun _ _ => false) j =
      if j = i then ((b.row j).add cfg request).allowedTokenIdsMask else b.mask j := by
    unfold maskWith
    by_cases hnone : request.samplingParams.allowedTokenIds = []
    · simp only [hnone, ite_true, Row.add]
      split_ifs <;> rfl
    · simp only [hnone, ite_false, Row.add, Option.getD_some, Function.update_apply]
  simp only [row, mask, hmask]
  split_ifs <;> rfl

theorem addLora_row (cfg : BatchConfig) (j : ℕ) : (b.addLora request i).row j =
    if j = i then { b.row j with loraId := ((b.row j).add cfg request).loraId }
    else b.row j := by
  unfold addLora
  cases hlora : request.loraRequest with
  | none =>
      simp only [row, Row.add, hlora, Function.update_apply]
      split_ifs <;> rfl
  | some lora =>
      simp only [row, Row.add, hlora, Function.update_apply]
      split_ifs <;> rfl

theorem mem_addIf {condition : Prop} [Decidable condition] {q : ReqId} {xs : Finset ReqId} :
    q ∈ addIf condition reqId xs ↔ condition ∧ q = reqId ∨ q ∈ xs := by
  unfold addIf
  split_ifs with h <;> simp [h]

theorem mem_addIf_of_ne {condition : Prop} [Decidable condition] {q : ReqId} {xs : Finset ReqId}
    (h : q ≠ reqId) : q ∈ addIf condition reqId xs ↔ q ∈ xs := by
  simp [mem_addIf, h]

theorem decide_mem_addIf {condition : Prop} [Decidable condition] {q : ReqId} {xs : Finset ReqId}
    {inst : Decidable (q ∈ addIf condition reqId xs)} :
    decide (q ∈ addIf condition reqId xs) =
      (decide condition && decide (q = reqId) || decide (q ∈ xs)) := by
  simp [mem_addIf]

/-- The last part of adding a request only writes the arrays and dictionaries of the adapters. -/
theorem addLora_eq (request : CachedRequestState) (i : ℕ) (b : InputBatch) :
    b.addLora request i = { b with
      requestLoraMapping := (b.addLora request i).requestLoraMapping
      loraIdToRequestIds := (b.addLora request i).loraIdToRequestIds
      loraIdToLoraRequest := (b.addLora request i).loraIdToLoraRequest } := by
  unfold addLora
  cases request.loraRequest <;> rfl

theorem addLora_congr (hids : b'.loraIdToRequestIds = b.loraIdToRequestIds)
    (hloras : b'.loraIdToLoraRequest = b.loraIdToLoraRequest) :
    (b'.addLora request i).loraIdToRequestIds = (b.addLora request i).loraIdToRequestIds ∧
      (b'.addLora request i).loraIdToLoraRequest =
        (b.addLora request i).loraIdToLoraRequest := by
  unfold addLora
  cases request.loraRequest with
  | none => exact ⟨hids, hloras⟩
  | some lora => simp only [hids, hloras, and_self]

theorem addRequest_row {reqIndex : Option ℕ}
    (hrefs : b.reqOutputTokenIds.length = b.reqIds.length)
    (h : b.addRequest cfg request outputTokenIds reqIndex = .ok b') (j : ℕ) :
    b'.row j = if j = reqIndex.getD b.numReqs then (b.row j).add cfg request else b.row j := by
  simp only [addRequest, bind_eq_ok, pure_eq_ok, pyAssert_eq_ok] at h
  obtain ⟨_, -, b₁, hslot, b₂, htokens, b₃, hmask, rfl⟩ := h
  rw [addLora_row cfg, addAllowedTokenIds_row hmask, addOptional_row cfg, addSamplingParams_row,
    addTokens_row htokens, addSlot_row hrefs hslot]
  split_ifs <;> rfl

theorem addSamplingParams_entry (q : ReqId) : (b.addSamplingParams cfg request i).entry q =
    if q = request.reqId then
      { (b.entry q).add cfg request with
        hasAllowedTokenIds := (b.entry q).hasAllowedTokenIds
        numLogprobs := (b.entry q).numLogprobs
        numPromptLogprobs := (b.entry q).numPromptLogprobs }
    else b.entry q := by
  by_cases hq : q = request.reqId
  · simp only [hq, ite_true, entry, addSamplingParams, decide_mem_addIf, decide_true, Bool.and_true,
      Entry.add, Entry.of]
  · simp only [if_neg hq, entry, addSamplingParams, mem_addIf_of_ne hq]
    rfl

theorem addOptional_entry (cfg : BatchConfig) (q : ReqId) : (b.addOptional request i).entry q =
    if q = request.reqId then
      { b.entry q with
        numLogprobs := ((b.entry q).add cfg request).numLogprobs
        numPromptLogprobs := ((b.entry q).add cfg request).numPromptLogprobs }
    else b.entry q := by
  by_cases hq : q = request.reqId
  · simp only [hq, ite_true, entry, addOptional, setSome_self]
    rfl
  · simp only [hq, ite_false, entry, addOptional, setSome_of_ne hq]
    rfl

theorem addAllowedTokenIds_entry (h : b.addAllowedTokenIds cfg request i = .ok b') (q : ReqId) :
    b'.entry q =
      if q = request.reqId then
        { b.entry q with hasAllowedTokenIds := ((b.entry q).add cfg request).hasAllowedTokenIds }
      else b.entry q := by
  obtain rfl := addAllowedTokenIds_eq_ok h
  by_cases hq : q = request.reqId
  · simp only [hq, ite_true, entry, decide_mem_addIf, decide_true, Bool.and_true, Entry.add,
      Entry.of]
  · simp only [if_neg hq, entry, mem_addIf_of_ne hq]

theorem addRequest_entry {reqIndex : Option ℕ}
    (hrefs : b.reqOutputTokenIds.length = b.reqIds.length)
    (h : b.addRequest cfg request outputTokenIds reqIndex = .ok b') (q : ReqId) :
    b'.entry q = if q = request.reqId then (b.entry q).add cfg request else b.entry q := by
  simp only [addRequest, bind_eq_ok, pure_eq_ok, pyAssert_eq_ok] at h
  obtain ⟨_, -, b₁, hslot, b₂, htokens, b₃, hmask, rfl⟩ := h
  have hb₁ : b₁.entry q = b.entry q := by
    obtain ⟨-, rfl⟩ := addSlot_eq_ok hrefs hslot
    rfl
  have hb₂ : b₂.entry q = b₁.entry q := by
    obtain ⟨tokens, blockTable, rfl⟩ := addTokens_eq_ok htokens
    rfl
  have hb₃ : (b₃.addLora request (reqIndex.getD b.numReqs)).entry q = b₃.entry q := by
    rw [addLora_eq]
    rfl
  rw [hb₃, addAllowedTokenIds_entry hmask, addOptional_entry cfg, addSamplingParams_entry, hb₂, hb₁]
  split_ifs <;> rfl

/-- The index, the lists and the adapters after a request has been added. -/
structure AddFrame (cfg : BatchConfig) (request : CachedRequestState) (i : ℕ)
    (b b' : InputBatch) : Prop where
  lt : i < cfg.maxNumReqs
  le : i ≤ b.reqIds.length
  index : b'.reqIdToIndex = dictSet b.reqIdToIndex request.reqId i
  length : b'.reqIds.length = max b.reqIds.length (i + 1)
  refs : b'.reqOutputTokenIds.length = b'.reqIds.length
  loraIdToRequestIds : b'.loraIdToRequestIds = (b.addLora request i).loraIdToRequestIds
  loraIdToLoraRequest : b'.loraIdToLoraRequest = (b.addLora request i).loraIdToLoraRequest

theorem addRequest_frame {reqIndex : Option ℕ}
    (hrefs : b.reqOutputTokenIds.length = b.reqIds.length)
    (h : b.addRequest cfg request outputTokenIds reqIndex = .ok b') :
    AddFrame cfg request (reqIndex.getD b.numReqs) b b' := by
  simp only [addRequest, bind_eq_ok, pure_eq_ok, pyAssert_eq_ok] at h
  obtain ⟨_, hlt, b₁, hslot, b₂, htokens, b₃, hmask, rfl⟩ := h
  generalize reqIndex.getD b.numReqs = i at *
  obtain ⟨hle, hb₁⟩ := addSlot_eq_ok hrefs hslot
  have hle' : i ≤ b.reqOutputTokenIds.length := by rw [hrefs]; exact hle
  have hlength : b₁.reqIds.length = max b.reqIds.length (i + 1) := by
    rw [hb₁]
    exact length_putAt hle
  have hrefs₁ : b₁.reqOutputTokenIds.length = max b.reqIds.length (i + 1) := by
    rw [hb₁, ← hrefs]
    exact length_putAt hle'
  have hkept : b₃.reqIds = b₁.reqIds ∧ b₃.reqOutputTokenIds = b₁.reqOutputTokenIds ∧
      b₃.reqIdToIndex = b₁.reqIdToIndex ∧ b₃.loraIdToRequestIds = b₁.loraIdToRequestIds ∧
      b₃.loraIdToLoraRequest = b₁.loraIdToLoraRequest := by
    obtain rfl := addAllowedTokenIds_eq_ok hmask
    obtain ⟨tokens, blockTable, rfl⟩ := addTokens_eq_ok htokens
    exact ⟨rfl, rfl, rfl, rfl, rfl⟩
  obtain ⟨hids, hrefs₃, hindex, hloraIds, hloras⟩ := hkept
  have hb₁' : b₁.reqIdToIndex = dictSet b.reqIdToIndex request.reqId i ∧
      b₁.loraIdToRequestIds = b.loraIdToRequestIds ∧
      b₁.loraIdToLoraRequest = b.loraIdToLoraRequest := by
    rw [hb₁]
    exact ⟨rfl, rfl, rfl⟩
  obtain ⟨hadd, hadd'⟩ := addLora_congr (hloraIds.trans hb₁'.2.1) (hloras.trans hb₁'.2.2)
  rw [addLora_eq]
  exact
    { lt := hlt
      le := hle
      index := hindex.trans hb₁'.1
      length := by rw [hids, hlength]
      refs := by rw [hrefs₃, hids, hlength, hrefs₁]
      loraIdToRequestIds := hadd
      loraIdToLoraRequest := hadd' }

/-! ## Removing a request -/

/-- Whether or not the request has an adapter, its row has none afterwards. -/
theorem removeLora_eq_ok (h : b.removeLora reqId i = .ok b') :
    b' = { b with
      requestLoraMapping := Function.update b.requestLoraMapping i 0
      loraIdToRequestIds := b'.loraIdToRequestIds
      loraIdToLoraRequest := b'.loraIdToLoraRequest } := by
  unfold removeLora at h
  simp only at h
  split_ifs at h with hnone
  · obtain rfl := Except.ok.inj h
    have hsame : Function.update b.requestLoraMapping i 0 = b.requestLoraMapping := by
      rw [← hnone, Function.update_eq_self]
    rw [hsame]
  · split at h
    · cases h
    · split_ifs at h
      · split at h
        · cases h
        · obtain rfl := Except.ok.inj h
          rfl
      · obtain rfl := Except.ok.inj h
        rfl

/-- What removing a request that has a row does. -/
structure RemoveSpec (reqId : ReqId) (i : ℕ) (b b' : InputBatch) : Prop where
  lt : i < b.reqIds.length
  row : ∀ j, b'.row j = if j = i then (b.row j).clear else b.row j
  entry : ∀ q, b'.entry q = if q = reqId then Entry.blank else b.entry q
  index : b'.reqIdToIndex = b.reqIdToIndex.filter (·.1 ≠ reqId)
  length : b'.reqIds.length = b.reqIds.length
  refs : b'.reqOutputTokenIds.length = b.reqOutputTokenIds.length
  loras : ∃ b₁, b.removeLora reqId i = .ok b₁ ∧ b'.loraIdToRequestIds = b₁.loraIdToRequestIds ∧
    b'.loraIdToLoraRequest = b₁.loraIdToLoraRequest

theorem join_getElem?_set {α : Type*} {xs : List (Option α)} (hi : i < xs.length) (j : ℕ) :
    ((xs.set i none)[j]?).join = if j = i then none else (xs[j]?).join := by
  split_ifs with hj
  · rw [hj, List.getElem?_set_self hi, Option.join_some]
  · rw [List.getElem?_set_ne (Ne.symm hj)]

theorem getD_map_clear {masks : Option (ℕ → ℕ → Bool)} (j : ℕ) :
    (masks.map (Function.update · i fun _ => false)).getD (fun _ _ => false) j =
      if j = i then fun _ => false else masks.getD (fun _ _ => false) j := by
  cases masks with
  | none => simp
  | some masks => simp [Function.update_apply]

/-- Removing the adapter does not read what the removal has written before. -/
theorem removeLora_congr {b₁ : InputBatch} (h : b'.removeLora reqId i = .ok b₁)
    (hmapping : b'.requestLoraMapping = b.requestLoraMapping)
    (hids : b'.loraIdToRequestIds = b.loraIdToRequestIds)
    (hloras : b'.loraIdToLoraRequest = b.loraIdToLoraRequest) :
    ∃ b₂, b.removeLora reqId i = .ok b₂ ∧ b₁.loraIdToRequestIds = b₂.loraIdToRequestIds ∧
      b₁.loraIdToLoraRequest = b₂.loraIdToLoraRequest := by
  unfold removeLora at h ⊢
  simp only [hmapping, hids, hloras] at h ⊢
  split_ifs at h ⊢ with hnone
  · obtain rfl := Except.ok.inj h
    exact ⟨b, rfl, hids, hloras⟩
  · split at h
    · cases h
    · split_ifs at h ⊢
      · split at h
        · cases h
        · obtain rfl := Except.ok.inj h
          exact ⟨_, rfl, rfl, rfl⟩
      · obtain rfl := Except.ok.inj h
        exact ⟨_, rfl, rfl, rfl⟩

theorem removeRequest_eq_ok {reqIndex : Option ℕ}
    (h : b.removeRequest reqId = .ok (reqIndex, b')) :
    reqIndex = dictGet? b.reqIdToIndex reqId ∧
      match reqIndex with
      | none => b' = b
      | some i => RemoveSpec reqId i b b' := by
  unfold removeRequest at h
  split at h
  next hnone =>
    obtain ⟨rfl, rfl⟩ := Prod.mk.inj (Except.ok.inj h)
    exact ⟨hnone.symm, rfl⟩
  next i hsome =>
    simp only [bind_eq_ok, pure_eq_ok, pySet_eq_ok_nat, Prod.mk.injEq] at h
    obtain ⟨_, ⟨hi, rfl⟩, _, ⟨hi', rfl⟩, b₁, hlora, rfl, rfl⟩ := h
    refine ⟨hsome.symm, ?_⟩
    have hb₁ := removeLora_eq_ok hlora
    obtain ⟨b₂, hlora', hids, hloras⟩ := removeLora_congr (b := b) hlora rfl rfl rfl
    refine
      { lt := hi
        row := fun j => ?_
        entry := fun q => ?_
        index := ?_
        length := ?_
        refs := ?_
        loras := ⟨b₂, hlora', hids, hloras⟩ }
    · rw [hb₁]
      simp only [row, slot, mask, join_getElem?_set hi, join_getElem?_set hi', Function.update_apply,
        getD_map_clear]
      by_cases hj : j = i
      · simp only [hj, ite_true]
        rfl
      · simp only [hj, ite_false]
    · rw [hb₁]
      simp only [InputBatch.entry, Finset.mem_erase, Function.update_apply]
      by_cases hq : q = reqId
      · simp only [hq, ne_eq, not_true_eq_false, false_and, decide_false, ite_true]
        rfl
      · simp only [hq, ne_eq, not_false_eq_true, true_and, ite_false]
    · rw [hb₁]
    · rw [hb₁]
      exact List.length_set
    · rw [hb₁]
      exact List.length_set

/-! ## Moving a request -/

theorem popTo_apply {α : Type*} (d : ℕ → Option α) (hne : dst ≠ src) (j : ℕ) :
    popTo d src dst j =
      if j = dst then (d src).or (d dst) else if j = src then none else d j := by
  unfold popTo
  by_cases hdst : j = dst
  · rw [if_pos hdst, hdst, setSome_self, Function.update_of_ne hne]
  · rw [if_neg hdst, setSome_of_ne hdst, Function.update_apply]

theorem getD_map_move {masks : Option (ℕ → ℕ → Bool)} (j : ℕ) :
    (masks.map fun mask => Function.update mask dst (mask src)).getD (fun _ _ => false) j =
      masks.getD (fun _ _ => false) (if j = dst then src else j) := by
  cases masks with
  | none => simp
  | some masks =>
      simp only [Option.map_some, Option.getD_some, Function.update_apply]
      split_ifs <;> rfl

theorem join_getElem?_move {α : Type*} {xs : List (Option α)} {x : Option α} (hne : dst ≠ src)
    (hsrc : xs[src]? = some x) (hdst : dst < xs.length) (j : ℕ) :
    ((((xs.set dst x).set src none))[j]?).join =
      if j = dst then (xs[src]?).join else if j = src then none else (xs[j]?).join := by
  have hlt : src < xs.length := (List.getElem?_eq_some_iff.mp hsrc).1
  split_ifs with hj hj'
  · rw [hj, List.getElem?_set_ne (Ne.symm hne), List.getElem?_set_self hdst, hsrc]
  · rw [hj', List.getElem?_set_self (by simpa using hlt), Option.join_some]
  · rw [List.getElem?_set_ne (Ne.symm hj'), List.getElem?_set_ne (Ne.symm hj)]

/-- What moving a request to another row does. -/
structure MoveSpec (reqId : ReqId) (src dst : ℕ) (b b' : InputBatch) : Prop where
  slot_src : b.slot src = some reqId
  row : ∀ j, b'.row j =
    if j = dst then (b.row src).receive (b.row dst)
    else if j = src then (b.row j).vacate
    else b.row j
  entry : ∀ q, b'.entry q = b.entry q
  index : b'.reqIdToIndex = dictSet b.reqIdToIndex reqId dst
  length : b'.reqIds.length = b.reqIds.length
  refs : b'.reqOutputTokenIds.length = b.reqOutputTokenIds.length
  loraIdToRequestIds : b'.loraIdToRequestIds = b.loraIdToRequestIds
  loraIdToLoraRequest : b'.loraIdToLoraRequest = b.loraIdToLoraRequest

theorem moveRequest_eq_ok (hne : dst ≠ src) (h : moveRequest src dst b = .ok b') :
    ∃ reqId, MoveSpec reqId src dst b b' := by
  simp only [moveRequest, bind_eq_ok] at h
  obtain ⟨x, hget, h⟩ := h
  cases x with
  | none => cases h
  | some reqId =>
      simp only [bind_eq_ok, pure_eq_ok, pySet_eq_ok_nat, pyGet_eq_ok_nat] at h hget
      obtain ⟨_, ⟨hdst, rfl⟩, _, ⟨-, rfl⟩, ref, href, _, ⟨hdst', rfl⟩, _, ⟨-, rfl⟩, rfl⟩ := h
      refine ⟨reqId,
        { slot_src := by rw [slot, hget, Option.join_some]
          row := fun j => ?_
          entry := fun q => rfl
          index := rfl
          length := by rw [List.length_set, List.length_set]
          refs := by rw [List.length_set, List.length_set]
          loraIdToRequestIds := rfl
          loraIdToLoraRequest := rfl }⟩
      simp only [InputBatch.row, slot, mask, join_getElem?_move hne hget hdst,
        join_getElem?_move hne href hdst', getD_map_move, popTo_apply _ hne, Function.update_apply]
      split_ifs <;> rfl

end InputBatch

end Spexis
