import Spexis.Model.Request

/-! # KV cache blocks

The block pool, the per-attention-type managers, and the manager that allocates
and frees the blocks of requests. -/

namespace Spexis

open Python

abbrev BlockId := ℕ

/-- The hash of a full block together with the tokens it was computed from. -/
structure BlockHash where
  hashValue : ℕ
  tokenIds : List TokenId
  deriving DecidableEq, Repr

inductive KVCacheSpec where
  | fullAttention
  | slidingWindow (window : ℕ)
  deriving DecidableEq, Repr

structure KVCacheConfig where
  blockSize : ℕ
  numBlocks : ℕ
  maxModelLen : ℕ
  kvCacheSpec : KVCacheSpec := .fullAttention
  enableCaching : Bool := false
  numPreallocateTokens : ℕ := 64
  /-- The hash of a parent hash and the tokens of a block. -/
  cachingHashFn : ℕ → List TokenId → ℕ := fun _ _ => 1
  noneHash : ℕ := 0

namespace KVCacheConfig

def maxNumBlocksPerReq (cfg : KVCacheConfig) : ℕ :=
  cdiv cfg.maxModelLen cfg.blockSize

def numPreallocateBlocks (cfg : KVCacheConfig) : ℕ :=
  cdiv cfg.numPreallocateTokens cfg.blockSize

end KVCacheConfig

/-! ## Block pool -/

/-- The placeholder block is the first one taken off the free queue. -/
def nullBlock : BlockId := 0

/-- The free queue is listed from its head; an absent hash maps to no block. -/
structure BlockPool where
  numGpuBlocks : ℕ
  freeBlockQueue : List BlockId
  refCnt : BlockId → ℤ
  blockHash : BlockId → Option BlockHash
  cachedBlockHashToBlock : BlockHash → List BlockId

namespace BlockPool

def init (numGpuBlocks : ℕ) : BlockPool where
  numGpuBlocks := numGpuBlocks
  freeBlockQueue := (List.range numGpuBlocks).tail
  refCnt := fun _ => 0
  blockHash := fun _ => none
  cachedBlockHashToBlock := fun _ => []

def getNumFreeBlocks (p : BlockPool) : ℕ :=
  p.freeBlockQueue.length

def getUsage (p : BlockPool) : ℚ :=
  1 - (p.getNumFreeBlocks : ℚ) / p.numGpuBlocks

def getCachedBlock (p : BlockPool) (h : BlockHash) : Option BlockId :=
  (p.cachedBlockHashToBlock h).head?

def incrRef (p : BlockPool) (b : BlockId) : BlockPool :=
  { p with refCnt := Function.update p.refCnt b (p.refCnt b + 1) }

def decrRef (p : BlockPool) (b : BlockId) : BlockPool :=
  { p with refCnt := Function.update p.refCnt b (p.refCnt b - 1) }

/-- `_maybe_evict_cached_block`. -/
def maybeEvictCachedBlock (p : BlockPool) (b : BlockId) : BlockPool :=
  match p.blockHash b with
  | none => p
  | some h =>
    if p.cachedBlockHashToBlock h = [] then p
    else
      { p with
        blockHash := Function.update p.blockHash b none
        cachedBlockHashToBlock :=
          Function.update p.cachedBlockHashToBlock h ((p.cachedBlockHashToBlock h).erase b) }

/-- The loop of `get_new_blocks`. -/
def popBlocks (enableCaching : Bool) : ℕ → BlockPool → Except PyError (List BlockId × BlockPool)
  | 0, p => .ok ([], p)
  | n + 1, p =>
    match p.freeBlockQueue with
    | [] => .error (.valueError "No free blocks available")
    | b :: queue => do
      pyAssert (p.refCnt b = 0) ""
      let p := { p with freeBlockQueue := queue }
      let p := if enableCaching then p.maybeEvictCachedBlock b else p
      let (blocks, p) ← popBlocks enableCaching n (p.incrRef b)
      return (b :: blocks, p)

def getNewBlocks (enableCaching : Bool) (numBlocks : ℕ) (p : BlockPool) :
    Except PyError (List BlockId × BlockPool) :=
  if numBlocks > p.getNumFreeBlocks then
    .error (.valueError s!"Cannot get {numBlocks} free blocks from the pool")
  else popBlocks enableCaching numBlocks p

def touch (p : BlockPool) : List BlockId → BlockPool
  | [] => p
  | b :: blocks =>
    let p :=
      if p.refCnt b = 0 ∧ b ≠ nullBlock then
        { p with freeBlockQueue := p.freeBlockQueue.erase b }
      else p
    touch (p.incrRef b) blocks

def freeBlock (p : BlockPool) (b : BlockId) : BlockPool :=
  let p := p.decrRef b
  if p.refCnt b = 0 ∧ b ≠ nullBlock then
    { p with freeBlockQueue := p.freeBlockQueue ++ [b] }
  else p

def freeBlocks (p : BlockPool) (orderedBlocks : List BlockId) : BlockPool :=
  orderedBlocks.foldl freeBlock p

end BlockPool

/-! ## Managers specialised to the attention type -/

/-- `FullAttentionManager.find_longest_cache_hit`. -/
def fullFindLongestCacheHit (p : BlockPool) : List BlockHash → List BlockId
  | [] => []
  | h :: hashes =>
    match p.getCachedBlock h with
    | some b => b :: fullFindLongestCacheHit p hashes
    | none => []

/-- The loop of `SlidingWindowManager.find_longest_cache_hit`, from the entry before
`i` down. -/
def slidingFindLongestCacheHit (p : BlockPool) (contiguousBlocks : ℕ) (hashes : List BlockHash) :
    ℕ → List BlockId → ℕ → List BlockId
  | 0, computedBlocks, numContiguous => computedBlocks.take numContiguous
  | i + 1, computedBlocks, numContiguous =>
    match hashes[i]?.bind p.getCachedBlock with
    | some b =>
      let computedBlocks := computedBlocks.set i b
      if numContiguous + 1 ≥ contiguousBlocks then computedBlocks.take (i + numContiguous + 1)
      else slidingFindLongestCacheHit p contiguousBlocks hashes i computedBlocks (numContiguous + 1)
    | none => slidingFindLongestCacheHit p contiguousBlocks hashes i computedBlocks 0

def findLongestCacheHit (cfg : KVCacheConfig) (p : BlockPool) (hashes : List BlockHash) :
    List BlockId :=
  match cfg.kvCacheSpec with
  | .fullAttention => fullFindLongestCacheHit p hashes
  | .slidingWindow window =>
    slidingFindLongestCacheHit p (cdiv (window - 1) cfg.blockSize) hashes hashes.length
      (List.replicate hashes.length nullBlock) 0

/-- The loop of `SlidingWindowManager.remove_skipped_blocks`, from the entry before `i`
down: the removed blocks and the list with null blocks in their place. -/
def slidingRemoveSkippedBlocks : ℕ → List BlockId → Except PyError (List BlockId × List BlockId)
  | 0, blocks => .ok ([], blocks)
  | i + 1, blocks => do
    let b ← pyGet blocks i
    if b = nullBlock then return ([], blocks)
    let (removed, blocks) ← slidingRemoveSkippedBlocks i (blocks.set i nullBlock)
    return (b :: removed, blocks)

def removeSkippedBlocks (cfg : KVCacheConfig) (blocks : List BlockId) (numComputedTokens : ℕ) :
    Except PyError (List BlockId × List BlockId) :=
  match cfg.kvCacheSpec with
  | .fullAttention => .ok ([], blocks)
  | .slidingWindow window =>
    let lastUsefulToken : ℤ := (numComputedTokens : ℤ) - window + 1
    slidingRemoveSkippedBlocks (lastUsefulToken / cfg.blockSize).toNat blocks

/-! ## Block hashes -/

/-- `hash_block_tokens`, without extra keys. -/
def hashBlockTokens (cfg : KVCacheConfig) (parentBlockHash : Option ℕ) (tokens : List TokenId) :
    BlockHash :=
  let parent :=
    match parentBlockHash with
    | none => cfg.noneHash
    | some h => if h = 0 then cfg.noneHash else h
  ⟨cfg.cachingHashFn parent tokens, tokens⟩

/-- The hashes of the first `n` blocks of the tokens, chained from a parent hash. -/
def hashChain (cfg : KVCacheConfig) : ℕ → Option ℕ → List TokenId → List BlockHash
  | 0, _, _ => []
  | n + 1, parent, tokens =>
    let h := hashBlockTokens cfg parent (tokens.take cfg.blockSize)
    h :: hashChain cfg n (some h.hashValue) (tokens.drop cfg.blockSize)

def hashRequestTokens (cfg : KVCacheConfig) (r : Request) : List BlockHash :=
  hashChain cfg (r.numTokens / cfg.blockSize) none r.allTokenIds

/-! ## The manager -/

structure KVCacheManager where
  blockPool : BlockPool
  reqToBlocks : ReqId → List BlockId
  reqToBlockHashes : ReqId → List BlockHash
  numCachedBlock : ReqId → Option ℕ

/-- The signature of `BlockPool.cache_full_blocks`: the request, its blocks and hashes,
the numbers of cached and of full blocks; the hashes may be extended. -/
abbrev CacheFullBlocks :=
  Request → List BlockId → List BlockHash → ℕ → ℕ → BlockPool →
    Except PyError (List BlockHash × BlockPool)

namespace KVCacheManager

def init (cfg : KVCacheConfig) : KVCacheManager where
  blockPool := .init cfg.numBlocks
  reqToBlocks := fun _ => []
  reqToBlockHashes := fun _ => []
  numCachedBlock := fun _ => none

def usage (m : KVCacheManager) : ℚ :=
  m.blockPool.getUsage

/-- The hashes of the request's tokens are computed once. -/
def recordBlockHashes (cfg : KVCacheConfig) (reqId : ReqId) (r : Request) (m : KVCacheManager) :
    KVCacheManager :=
  if m.reqToBlockHashes reqId = [] then
    { m with
      reqToBlockHashes := Function.update m.reqToBlockHashes reqId (hashRequestTokens cfg r) }
  else m

/-- When all tokens lie in full blocks, the last block has to be computed again. -/
def searchedHashes (cfg : KVCacheConfig) (numTokens : ℕ) (blockHashes : List BlockHash) :
    Except PyError (List BlockHash) :=
  if blockHashes.length * cfg.blockSize = numTokens then
    if blockHashes = [] then .error .indexError else .ok blockHashes.dropLast
  else .ok blockHashes

/-- The cached blocks of the request and the number of tokens they hold. -/
def getComputedBlocks (cfg : KVCacheConfig) (reqId : ReqId) (r : Request) (m : KVCacheManager) :
    Except PyError ((List BlockId × ℕ) × KVCacheManager) :=
  if ¬ cfg.enableCaching then .ok (([], 0), m)
  else if r.samplingParams.promptLogprobs ≠ none then
    .ok (([], 0), m.recordBlockHashes cfg reqId r)
  else do
    let m := m.recordBlockHashes cfg reqId r
    let searched ← searchedHashes cfg r.numTokens (m.reqToBlockHashes reqId)
    let computedBlocks := findLongestCacheHit cfg m.blockPool searched
    return ((computedBlocks, computedBlocks.length * cfg.blockSize), m)

/-- The blocks that the request no longer attends to go back to the pool. -/
def dropSkippedBlocks (cfg : KVCacheConfig) (reqId : ReqId) (numComputedTokens : ℕ)
    (m : KVCacheManager) : Except PyError KVCacheManager := do
  let (removedBlocks, reqBlocks) ← removeSkippedBlocks cfg (m.reqToBlocks reqId) numComputedTokens
  return { m with
    blockPool := m.blockPool.freeBlocks removedBlocks
    reqToBlocks := Function.update m.reqToBlocks reqId reqBlocks }

/-- The computed blocks of the request must not be evicted. -/
def touchComputedBlocks (cfg : KVCacheConfig) (reqId : ReqId) (newComputedBlocks : List BlockId)
    (m : KVCacheManager) : Except PyError KVCacheManager := do
  pyAssert (cfg.enableCaching ∨ newComputedBlocks = [])
    "Computed blocks should be empty when prefix caching is disabled"
  return { m with
    blockPool := if cfg.enableCaching then m.blockPool.touch newComputedBlocks else m.blockPool
    reqToBlocks :=
      Function.update m.reqToBlocks reqId (m.reqToBlocks reqId ++ newComputedBlocks) }

/-- The number of blocks `allocate_slots` takes off the pool when it needs
`numNewBlocks` more, counting the preallocated ones. -/
def numBlocksToTake (cfg : KVCacheConfig) (numNewBlocks numLookaheadTokens numFree numOwned : ℕ) :
    ℕ :=
  min (numNewBlocks + (cfg.numPreallocateBlocks - numLookaheadTokens / cfg.blockSize))
    (min numFree (cfg.maxNumBlocksPerReq - numOwned))

/-- The new blocks of the request, with the preallocated ones. -/
def takeNewBlocks (cfg : KVCacheConfig) (reqId : ReqId) (numNewBlocks numLookaheadTokens : ℕ)
    (m : KVCacheManager) : Except PyError (List BlockId × KVCacheManager) :=
  if numNewBlocks = 0 then .ok ([], m)
  else do
    let toTake := numBlocksToTake cfg numNewBlocks numLookaheadTokens
      m.blockPool.getNumFreeBlocks (m.reqToBlocks reqId).length
    pyAssert (0 < toTake) ""
    let (newBlocks, pool) ← m.blockPool.getNewBlocks cfg.enableCaching toTake
    return (newBlocks, { m with
      blockPool := pool
      reqToBlocks := Function.update m.reqToBlocks reqId (m.reqToBlocks reqId ++ newBlocks) })

/-- Commits the full blocks of the request to the prefix cache. -/
def commitFullBlocks (cfg : KVCacheConfig) (cacheFullBlocks : CacheFullBlocks) (reqId : ReqId)
    (r : Request) (numNewComputedBlocks numTokens : ℕ) (m : KVCacheManager) :
    Except PyError KVCacheManager :=
  if ¬ cfg.enableCaching then .ok m
  else do
    let numCachedBlocks := (m.numCachedBlock reqId).getD numNewComputedBlocks
    let numComputedTokens := r.numComputedTokens + numNewComputedBlocks * cfg.blockSize
    let numFullBlocks := (numComputedTokens + numTokens - r.specTokenIds.length) / cfg.blockSize
    let (blockHashes, pool) ← cacheFullBlocks r (m.reqToBlocks reqId) (m.reqToBlockHashes reqId)
      numCachedBlocks numFullBlocks m.blockPool
    return { m with
      blockPool := pool
      reqToBlockHashes := Function.update m.reqToBlockHashes reqId blockHashes
      numCachedBlock := Function.update m.numCachedBlock reqId (some numFullBlocks) }

/-- The new blocks, or `none` when the pool is too small. -/
def allocateSlots (cfg : KVCacheConfig) (cacheFullBlocks : CacheFullBlocks) (reqId : ReqId)
    (r : Request) (numTokens : ℕ) (newComputedBlocks : List BlockId) (numLookaheadTokens : ℕ)
    (m : KVCacheManager) : Except PyError (Option (List BlockId) × KVCacheManager) :=
  if numTokens = 0 then .error (.valueError "num_tokens must be greater than 0")
  else do
    let m ← m.dropSkippedBlocks cfg reqId r.numComputedTokens
    let numComputedTokens := r.numComputedTokens + newComputedBlocks.length * cfg.blockSize
    let numRequiredBlocks :=
      cdiv (numComputedTokens + numTokens + numLookaheadTokens) cfg.blockSize
    let numNewBlocks :=
      numRequiredBlocks - (m.reqToBlocks reqId).length - newComputedBlocks.length
    -- a computed block that is an eviction candidate does not count as free
    let numEvictable := (newComputedBlocks.filter (fun b => m.blockPool.refCnt b = 0)).length
    if (numNewBlocks : ℤ) > m.blockPool.getNumFreeBlocks - numEvictable then return (none, m)
    else
      let m ← m.touchComputedBlocks cfg reqId newComputedBlocks
      let (newBlocks, m) ← m.takeNewBlocks cfg reqId numNewBlocks numLookaheadTokens
      let m ← m.commitFullBlocks cfg cacheFullBlocks reqId r newComputedBlocks.length numTokens
      return (some newBlocks, m)

/-- Frees the blocks of the request, the last one first when caching is enabled. -/
def free (cfg : KVCacheConfig) (reqId : ReqId) (m : KVCacheManager) : KVCacheManager :=
  let blocks := m.reqToBlocks reqId
  { m with
    blockPool := m.blockPool.freeBlocks (if cfg.enableCaching then blocks.reverse else blocks)
    reqToBlocks := Function.update m.reqToBlocks reqId []
    numCachedBlock := Function.update m.numCachedBlock reqId none }

def freeBlockHashes (reqId : ReqId) (m : KVCacheManager) : KVCacheManager :=
  { m with reqToBlockHashes := Function.update m.reqToBlockHashes reqId [] }

end KVCacheManager

/-! ## The variant that never commits blocks to the prefix cache -/

namespace SPKVCacheManager

/-- `_skip_cache_full_blocks`. -/
def skipCacheFullBlocks : CacheFullBlocks :=
  fun _ _ blockHashes _ _ pool => .ok (blockHashes, pool)

def allocateSlots (cfg : KVCacheConfig) (reqId : ReqId) (r : Request) (numTokens : ℕ)
    (newComputedBlocks : List BlockId) (numLookaheadTokens : ℕ) (m : KVCacheManager) :
    Except PyError (Option (List BlockId) × KVCacheManager) :=
  KVCacheManager.allocateSlots cfg skipCacheFullBlocks reqId r numTokens newComputedBlocks
    numLookaheadTokens m

end SPKVCacheManager

end Spexis
