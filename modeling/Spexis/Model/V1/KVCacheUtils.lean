import Spexis.Model.KVCacheManager

/-! # Block hashes and the free block queue

Hashes with the extra keys of multi-modal and LoRA requests, and the doubly linked list
of free blocks. -/

namespace Spexis.V1

open Python

structure PlaceholderRange where
  offset : ℕ
  length : ℕ
  deriving DecidableEq, Repr

/-- A request with what its extra keys are made of. -/
structure Request extends Spexis.Request where
  /-- `lora_request.lora_int_id`. -/
  loraIntId : Option ℤ := none
  mmPositions : List PlaceholderRange := []
  mmHashes : List String := []
  deriving DecidableEq, Repr

namespace Request

/-- `append_output_token_ids` without a confidence. -/
def appendOutputTokenId (r : Request) (tokenId : TokenId) : Request :=
  { r with
    outputTokenIds := r.outputTokenIds ++ [tokenId]
    allTokenIds := r.allTokenIds ++ [tokenId] }

@[simp] theorem appendOutputTokenId_numTokens (r : Request) (tokenId : TokenId) :
    (r.appendOutputTokenId tokenId).numTokens = r.numTokens + 1 :=
  List.length_append

end Request

inductive ExtraKey where
  | lora (loraIntId : ℤ)
  | mm (mmHash : String)
  deriving DecidableEq, Repr

/-- The hash of a full block together with the tokens and the keys it was computed from. -/
structure BlockHashType where
  hashValue : ℕ
  tokenIds : List TokenId
  extraKeys : Option (List ExtraKey) := none
  deriving DecidableEq, Repr

structure KVCacheConfig where
  blockSize : ℕ
  numBlocks : ℕ
  maxModelLen : ℕ
  kvCacheSpec : KVCacheSpec := .fullAttention
  enableCaching : Bool := true
  numPreallocateTokens : ℕ := 64
  cachingHashFn : ℕ → List TokenId → Option (List ExtraKey) → ℕ
  /-- `NONE_HASH`. -/
  noneHash : ℕ

namespace KVCacheConfig

def maxNumBlocksPerReq (cfg : KVCacheConfig) : ℕ :=
  cdiv cfg.maxModelLen cfg.blockSize

def numPreallocateBlocks (cfg : KVCacheConfig) : ℕ :=
  cdiv cfg.numPreallocateTokens cfg.blockSize

end KVCacheConfig

/-! ## Extra keys -/

def needExtraKeys (r : Request) : Bool :=
  r.mmPositions ≠ [] ∨ r.loraIntId ≠ none

/-- The loop of `_gen_mm_extra_hash_keys` over the inputs from index `currMmIdx` on. -/
def genMmExtraHashKeysLoop (startTokenIdx endTokenIdx : ℤ) :
    List (PlaceholderRange × String) → ℕ → List ExtraKey × ℕ
  | [], currMmIdx => ([], currMmIdx)
  | (position, mmHash) :: inputs, currMmIdx =>
    if endTokenIdx > position.offset then
      if startTokenIdx > position.offset + position.length then
        -- the block has passed the input
        genMmExtraHashKeysLoop startTokenIdx endTokenIdx inputs (currMmIdx + 1)
      else if endTokenIdx ≥ position.offset + position.length then
        let (extraKeys, mmIdx) :=
          genMmExtraHashKeysLoop startTokenIdx endTokenIdx inputs (currMmIdx + 1)
        (.mm mmHash :: extraKeys, mmIdx)
      else ([.mm mmHash], currMmIdx)
    else ([], currMmIdx)

/-- `_gen_mm_extra_hash_keys`; the index `-1` stands for the last input. -/
def genMmExtraHashKeys (r : Request) (startTokenIdx endTokenIdx startMmIdx : ℤ) :
    Except PyError (List ExtraKey × ℤ) :=
  match r.mmPositions.getLast? with
  | none => .ok ([], startMmIdx)
  | some last =>
    if r.mmPositions.length ≠ r.mmHashes.length then
      .error (.valueError ("The number of multi-modal positions and hashes must match. This " ++
        "is likely because you do not enable MM preprocessor hashing. " ++
        "Please set disable_mm_preprocessor_cache=False."))
    else if (last.offset + last.length : ℤ) < startTokenIdx then .ok ([], startMmIdx)
    else do
      pyAssert (0 ≤ startMmIdx ∨ -startMmIdx ≤ r.mmPositions.length) ""
      let currMmIdx :=
        if startMmIdx < 0 then (r.mmPositions.length + startMmIdx).toNat else startMmIdx.toNat
      let (extraKeys, mmIdx) := genMmExtraHashKeysLoop startTokenIdx endTokenIdx
        ((r.mmPositions.zip r.mmHashes).drop currMmIdx) currMmIdx
      return (extraKeys, (mmIdx : ℤ))

/-- `_gen_lora_extra_hash_keys`. -/
def genLoraExtraHashKeys (r : Request) : List ExtraKey :=
  match r.loraIntId with
  | none => []
  | some loraIntId => [.lora loraIntId]

def generateBlockHashExtraKeys (r : Request) (startTokenIdx endTokenIdx startMmIdx : ℤ) :
    Except PyError (Option (List ExtraKey) × ℤ) := do
  let (mmExtraKeys, newStartMmIdx) ← genMmExtraHashKeys r startTokenIdx endTokenIdx startMmIdx
  let extraKeys := genLoraExtraHashKeys r ++ mmExtraKeys
  return (if extraKeys = [] then none else some extraKeys, newStartMmIdx)

/-! ## Block hashes -/

def hashBlockTokens (cfg : KVCacheConfig) (parentBlockHash : Option ℕ)
    (currBlockTokenIds : List TokenId) (extraKeys : Option (List ExtraKey)) : BlockHashType :=
  let parent :=
    match parentBlockHash with
    | none => cfg.noneHash
    | some h => if h = 0 then cfg.noneHash else h
  ⟨cfg.cachingHashFn parent currBlockTokenIds extraKeys, currBlockTokenIds, extraKeys⟩

/-- The loop of `hash_request_tokens` over the next `n` full blocks. -/
def hashRequestTokensLoop (cfg : KVCacheConfig) (r : Request) :
    ℕ → ℕ → Option ℕ → ℤ → Except PyError (List BlockHashType)
  | 0, _, _, _ => .ok []
  | n + 1, start, parentBlockHash, currMmIdx => do
    let stop := start + cfg.blockSize
    let (extraKeys, currMmIdx) ←
      if needExtraKeys r then generateBlockHashExtraKeys r start stop currMmIdx
      else .ok (none, currMmIdx)
    let blockHash :=
      hashBlockTokens cfg parentBlockHash (pySlice r.allTokenIds start stop) extraKeys
    let rest ← hashRequestTokensLoop cfg r n stop (some blockHash.hashValue) currMmIdx
    return blockHash :: rest

/-- A block that is not full is not hashed. -/
def hashRequestTokens (cfg : KVCacheConfig) (r : Request) : Except PyError (List BlockHashType) :=
  hashRequestTokensLoop cfg r (r.numTokens / cfg.blockSize) 0 none 0

/-! ## The free block queue -/

/-- The pointers are attributes of the blocks. -/
structure FreeKVCacheBlockQueue where
  numFreeBlocks : ℤ
  freeListHead : Option BlockId
  freeListTail : Option BlockId
  prevFreeBlock : BlockId → Option BlockId
  nextFreeBlock : BlockId → Option BlockId

namespace FreeKVCacheBlockQueue

/-- The queue of the blocks below `numBlocks`, which is positive. -/
def init (numBlocks : ℕ) : FreeKVCacheBlockQueue where
  numFreeBlocks := numBlocks
  freeListHead := some 0
  freeListTail := some (numBlocks - 1)
  prevFreeBlock := fun i => if 0 < i ∧ i < numBlocks then some (i - 1) else none
  nextFreeBlock := fun i => if i + 1 < numBlocks then some (i + 1) else none

def remove (q : FreeKVCacheBlockQueue) (b : BlockId) : FreeKVCacheBlockQueue :=
  let next :=
    match q.prevFreeBlock b with
    | some p => Function.update q.nextFreeBlock p (q.nextFreeBlock b)
    | none => q.nextFreeBlock
  let prev :=
    match next b with
    | some n => Function.update q.prevFreeBlock n (q.prevFreeBlock b)
    | none => q.prevFreeBlock
  { numFreeBlocks := q.numFreeBlocks - 1
    freeListHead := if some b = q.freeListHead then next b else q.freeListHead
    freeListTail := if some b = q.freeListTail then prev b else q.freeListTail
    prevFreeBlock := Function.update prev b none
    nextFreeBlock := Function.update next b none }

def popleft (q : FreeKVCacheBlockQueue) : Except PyError (BlockId × FreeKVCacheBlockQueue) :=
  match q.freeListHead with
  | none => .error (.valueError "No free blocks available")
  | some b => .ok (b, q.remove b)

def append (q : FreeKVCacheBlockQueue) (b : BlockId) : Except PyError FreeKVCacheBlockQueue :=
  match q.freeListTail with
  | some t =>
    .ok { q with
      numFreeBlocks := q.numFreeBlocks + 1
      freeListTail := some b
      prevFreeBlock := Function.update q.prevFreeBlock b (some t)
      nextFreeBlock := Function.update (Function.update q.nextFreeBlock t (some b)) b none }
  | none => do
    pyAssert (q.freeListHead = none) ""
    return { q with
      numFreeBlocks := q.numFreeBlocks + 1
      freeListHead := some b
      freeListTail := some b
      nextFreeBlock := Function.update q.nextFreeBlock b none }

end FreeKVCacheBlockQueue

end Spexis.V1
