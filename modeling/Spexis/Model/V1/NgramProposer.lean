import Spexis.Model.Worker.InputBatch

/-! # Drafts from the context

The proposer looks for an earlier occurrence of the last tokens of a request, and drafts the tokens
that have followed it. -/

namespace Spexis

open Python

structure NgramProposer where
  minN : ℕ
  maxN : ℕ
  k : ℕ

/-! ## Matching -/

/-- The locals of `_kmp_lps_array`. -/
structure LpsState where
  lps : List ℕ
  prevLps : ℕ
  i : ℕ

/-- The body of the loop of `_kmp_lps_array`. -/
def lpsStep (pattern : List TokenId) (st : LpsState) : Except PyError LpsState := do
  let token ← pyGet pattern st.i
  let prefixToken ← pyGet pattern st.prevLps
  if token = prefixToken then
    let lps ← pySet st.lps st.i (st.prevLps + 1)
    return { lps := lps, prevLps := st.prevLps + 1, i := st.i + 1 }
  else if st.prevLps ≠ 0 then
    let prevLps ← pyGet st.lps ((st.prevLps : ℤ) - 1)
    return { st with prevLps := prevLps }
  else
    let lps ← pySet st.lps st.i 0
    return { st with lps := lps, i := st.i + 1 }

/-- `while i < len(pattern)`, for at most so many iterations. -/
def lpsLoop (pattern : List TokenId) : ℕ → LpsState → Except PyError LpsState
  | 0, _ => .error (.runtimeError "the loop goes on")
  | fuel + 1, st => do
    if st.i < pattern.length then
      lpsLoop pattern fuel (← lpsStep pattern st)
    else return st

/-- `_kmp_lps_array`. -/
def kmpLpsArray (pattern : List TokenId) : Except PyError (List ℕ) := do
  let st ← lpsLoop pattern (2 * pattern.length + 1)
    { lps := List.replicate pattern.length 0, prevLps := 0, i := 1 }
  return st.lps

/-- The loop of `_find_subarray_kmp` from the positions `i` and `j`, for at most so many
iterations. -/
def findLoop (contextTokenIds pattern : List TokenId) (lps : List ℕ) (n k : ℕ) :
    ℕ → ℕ → ℕ → Except PyError (Option (List TokenId))
  | 0, _, _ => .error (.runtimeError "the loop goes on")
  | fuel + 1, i, j => do
    if i < contextTokenIds.length - n then
      let token ← pyGet contextTokenIds i
      let patternToken ← pyGet pattern j
      if token = patternToken then
        if j + 1 = n then return some (pySlice contextTokenIds (i + 1) (i + 1 + k))
        findLoop contextTokenIds pattern lps n k fuel (i + 1) (j + 1)
      else if j ≠ 0 then
        findLoop contextTokenIds pattern lps n k fuel i (← pyGet lps ((j : ℤ) - 1))
      else findLoop contextTokenIds pattern lps n k fuel (i + 1) j
    else return none

/-- `_find_subarray_kmp`. -/
def findSubarrayKmp (contextTokenIds : List TokenId) (n k : ℕ) :
    Except PyError (Option (List TokenId)) := do
  pyAssert (0 < n) ""
  let pattern := contextTokenIds.drop (pySliceStart contextTokenIds.length (-n))
  let lps ← kmpLpsArray pattern
  findLoop contextTokenIds pattern lps n k (2 * contextTokenIds.length + 1) 0 0

namespace NgramProposer

/-- The loop of `propose`. -/
def proposeLoop (contextTokenIds : List TokenId) (k : ℕ) :
    List ℕ → Except PyError (Option (List TokenId))
  | [] => .ok none
  | n :: ns => do
    match ← findSubarrayKmp contextTokenIds n k with
    | some result => return some result
    | none => proposeLoop contextTokenIds k ns

/-- `range(self.max_n, self.min_n - 1, -1)`. -/
def sizes (self : NgramProposer) : List ℕ :=
  (List.range' self.minN (self.maxN + 1 - self.minN)).reverse

def propose (self : NgramProposer) (contextTokenIds : List TokenId) :
    Except PyError (Option (List TokenId)) :=
  proposeLoop contextTokenIds self.k self.sizes

end NgramProposer

/-! ## The batch -/

def isSpecDecodeSupported (reqId : Option ReqId) (b : InputBatch) : Bool :=
  match reqId with
  | none => true
  | some reqId =>
    if reqId ∈ b.minPReqs then false
    else if reqId ∈ b.frequencyPenaltiesReqs ∨ reqId ∈ b.presencePenaltiesReqs ∨
      reqId ∈ b.repetitionPenaltiesReqs then false
    else if (b.numLogprobs reqId).isSome then false
    else true

/-- The body of the loop of `generate_draft_token_ids`. -/
def generateDraft (cfg : BatchConfig) (drafter : NgramProposer) (b : InputBatch)
    (sampledIds : List TokenId) (i : ℕ) : Except PyError (InputBatch × List TokenId) := do
  let numSampledIds := sampledIds.length
  if numSampledIds = 0 then return (b, [])
  let reqId ← pyGet b.reqIds i
  if isSpecDecodeSupported reqId b = false then return (b, [])
  let startIdx := b.numTokensNoSpec i
  let endIdx := startIdx + numSampledIds
  let row ← npAssign cfg.maxModelLen (b.tokenIdsCpu i) startIdx endIdx sampledIds
  let drafterOutput ← drafter.propose ((List.range (min endIdx cfg.maxModelLen)).map row)
  return ({ b with tokenIdsCpu := Function.update b.tokenIdsCpu i row }, drafterOutput.getD [])

/-- The rest of the loop, from the request `i` on. -/
def generateDrafts (cfg : BatchConfig) (drafter : NgramProposer) :
    InputBatch → ℕ → List (List TokenId) → Except PyError (InputBatch × List (List TokenId))
  | b, _, [] => .ok (b, [])
  | b, i, sampledIds :: rest => do
    let (b, draft) ← generateDraft cfg drafter b sampledIds i
    let (b, drafts) ← generateDrafts cfg drafter b (i + 1) rest
    return (b, draft :: drafts)

/-- `generate_draft_token_ids`. -/
def generateDraftTokenIds (cfg : BatchConfig) (drafter : NgramProposer) (b : InputBatch)
    (sampledTokenIds : List (List TokenId)) : Except PyError (InputBatch × List (List TokenId)) :=
  generateDrafts cfg drafter b 0 sampledTokenIds

end Spexis
