import Spexis.Model.V1.KVCacheUtils

/-! # The KV cache manager with prefix caching

The block pool over the linked queue, and the manager that shares, allocates and frees
the blocks of requests. -/

namespace Spexis.V1

open Python

/-! ## Block pool -/

/-- The inner dictionary of a hash is the list of its keys; an absent entry is `none`. -/
structure BlockPool where
  numGpuBlocks : ℕ
  enableCaching : Bool
  refCnt : BlockId → ℤ
  blockHash : BlockId → Option BlockHashType
  freeBlockQueue : FreeKVCacheBlockQueue
  cachedBlockHashToBlock : BlockHashType → Option (List BlockId)

namespace BlockPool

/-- The first block of the queue becomes the null block. -/
def init (numGpuBlocks : ℕ) (enableCaching : Bool) : Except PyError BlockPool := do
  pyAssert (0 < numGpuBlocks) ""
  let (_, freeBlockQueue) ← (FreeKVCacheBlockQueue.init numGpuBlocks).popleft
  return {
    numGpuBlocks := numGpuBlocks
    enableCaching := enableCaching
    refCnt := fun _ => 0
    blockHash := fun _ => none
    freeBlockQueue := freeBlockQueue
    cachedBlockHashToBlock := fun _ => none }

def getNumFreeBlocks (p : BlockPool) : ℤ :=
  p.freeBlockQueue.numFreeBlocks

/-- With duplicated blocks, the first one in the cache. -/
def getCachedBlock (p : BlockPool) (h : BlockHashType) : Option BlockId :=
  (p.cachedBlockHashToBlock h).bind List.head?

def incrRef (p : BlockPool) (b : BlockId) : BlockPool :=
  { p with refCnt := Function.update p.refCnt b (p.refCnt b + 1) }

def decrRef (p : BlockPool) (b : BlockId) : BlockPool :=
  { p with refCnt := Function.update p.refCnt b (p.refCnt b - 1) }

/-- The setter of `block_hash`, and the new entry of the cache. -/
def cacheBlock (p : BlockPool) (b : BlockId) (h : BlockHashType) : Except PyError BlockPool := do
  pyAssert (p.blockHash b = none) "The block already has a hash. This should not happen."
  return { p with
    blockHash := Function.update p.blockHash b (some h)
    cachedBlockHashToBlock := Function.update p.cachedBlockHashToBlock h
      (some (setAdd ((p.cachedBlockHashToBlock h).getD []) b)) }

/-- `_maybe_evict_cached_block`. -/
def maybeEvictCachedBlock (p : BlockPool) (b : BlockId) : Except PyError BlockPool :=
  match p.blockHash b with
  | none => .ok p
  | some h =>
    match p.cachedBlockHashToBlock h with
    | none => .ok p
    | some blocks =>
      if b ∈ blocks then
        .ok { p with
          blockHash := Function.update p.blockHash b none
          cachedBlockHashToBlock := Function.update p.cachedBlockHashToBlock h
            (if blocks.erase b = [] then none else some (blocks.erase b)) }
      else .error .keyError

/-- The loop of `get_new_blocks`. -/
def popBlocks : ℕ → BlockPool → Except PyError (List BlockId × BlockPool)
  | 0, p => .ok ([], p)
  | n + 1, p => do
    let (b, freeBlockQueue) ← p.freeBlockQueue.popleft
    pyAssert (p.refCnt b = 0) ""
    let p := { p with freeBlockQueue := freeBlockQueue }
    let p ← if p.enableCaching then p.maybeEvictCachedBlock b else .ok p
    let (blocks, p) ← popBlocks n (p.incrRef b)
    return (b :: blocks, p)

def getNewBlocks (numBlocks : ℕ) (p : BlockPool) : Except PyError (List BlockId × BlockPool) :=
  if numBlocks > p.getNumFreeBlocks then
    .error (.valueError s!"Cannot get {numBlocks} free blocks from the pool")
  else popBlocks numBlocks p

def touch (p : BlockPool) : List BlockId → BlockPool
  | [] => p
  | b :: blocks =>
    let p :=
      if p.refCnt b = 0 ∧ b ≠ nullBlock then
        { p with freeBlockQueue := p.freeBlockQueue.remove b }
      else p
    touch (p.incrRef b) blocks

/-- One iteration of `free_blocks`. -/
def freeBlock (p : BlockPool) (b : BlockId) : Except PyError BlockPool :=
  let p := p.decrRef b
  if p.refCnt b = 0 ∧ b ≠ nullBlock then do
    return { p with freeBlockQueue := ← p.freeBlockQueue.append b }
  else .ok p

def freeBlocks : List BlockId → BlockPool → Except PyError BlockPool
  | [], p => .ok p
  | b :: blocks, p => do freeBlocks blocks (← p.freeBlock b)

/-- The null block is always marked as used. -/
def resetPrefixCache (p : BlockPool) : Bool × BlockPool :=
  if (p.numGpuBlocks : ℤ) - p.getNumFreeBlocks ≠ 1 then (false, p)
  else
    (true, { p with
      blockHash := fun _ => none
      cachedBlockHashToBlock := fun _ => none })

/-- The loop of `cache_full_blocks` from the `i`-th new full block on. -/
def cacheFullBlocksLoop (cfg : KVCacheConfig) (reqId : ReqId) (r : Request) (numCachedBlocks : ℤ)
    (newBlockHashes : List BlockHashType) :
    List BlockId → ℕ → Option ℕ → List BlockHashType → BlockPool →
      Except PyError (List BlockHashType × BlockPool)
  | [], _, _, blockHashes, p => .ok (blockHashes, p)
  | b :: blocks, i, prevBlockHashValue, blockHashes, p => do
    pyAssert (p.blockHash b = none) ""
    let (blockHash, blockHashes) ←
      match newBlockHashes[i]? with
      | some blockHash => .ok (blockHash, blockHashes)
      | none => do
        let blkIdx := numCachedBlocks + i
        let startTokenIdx := blkIdx * cfg.blockSize
        let endTokenIdx := (blkIdx + 1) * cfg.blockSize
        let blockTokens := pySliceInt r.allTokenIds startTokenIdx endTokenIdx
        pyAssert (blockTokens.length = cfg.blockSize)
          (s!"Expected {cfg.blockSize} tokens, got {blockTokens.length} at {blkIdx}th block " ++
            s!"for request {reqId}")
        let (extraKeys, _) ← generateBlockHashExtraKeys r startTokenIdx endTokenIdx (-1)
        let blockHash := hashBlockTokens cfg prevBlockHashValue blockTokens extraKeys
        .ok (blockHash, blockHashes ++ [blockHash])
    let p ← p.cacheBlock b blockHash
    cacheFullBlocksLoop cfg reqId r numCachedBlocks newBlockHashes blocks (i + 1)
      (some blockHash.hashValue) blockHashes p

/-- The hash value of the block before the first new full one. -/
def prevBlockHashValue (p : BlockPool) (blocks : List BlockId) (numCachedBlocks : ℤ) :
    Except PyError (Option ℕ) :=
  if numCachedBlocks = 0 then .ok none
  else do
    let prevBlock ← pyGet blocks (numCachedBlocks - 1)
    match p.blockHash prevBlock with
    | none => .error (.assertionError "")
    | some blockHash => .ok (some blockHash.hashValue)

/-- The hashes that are missing are computed and added to the list. -/
def cacheFullBlocks (cfg : KVCacheConfig) (reqId : ReqId) (r : Request) (blocks : List BlockId)
    (blockHashes : List BlockHashType) (numCachedBlocks numFullBlocks : ℤ) (p : BlockPool) :
    Except PyError (List BlockHashType × BlockPool) :=
  if numCachedBlocks = numFullBlocks then .ok (blockHashes, p)
  else do
    let newFullBlocks := pySliceInt blocks numCachedBlocks numFullBlocks
    pyAssert ((blockHashes.length : ℤ) ≥ numCachedBlocks) ""
    let newBlockHashes := blockHashes.drop (pySliceStart blockHashes.length numCachedBlocks)
    let prevBlockHashValue ← p.prevBlockHashValue blocks numCachedBlocks
    cacheFullBlocksLoop cfg reqId r numCachedBlocks newBlockHashes newFullBlocks 0
      prevBlockHashValue blockHashes p

end BlockPool

/-! ## Managers specialised to the attention type -/

/-- `FullAttentionManager.find_longest_cache_hit`. -/
def fullFindLongestCacheHit (p : BlockPool) : List BlockHashType → List BlockId
  | [] => []
  | h :: blockHashes =>
    match p.getCachedBlock h with
    | some b => b :: fullFindLongestCacheHit p blockHashes
    | none => []

/-- The loop of `SlidingWindowManager.find_longest_cache_hit`, from the entry before
`i` down. -/
def slidingFindLongestCacheHit (p : BlockPool) (contiguousBlocks : ℕ)
    (blockHashes : List BlockHashType) : ℕ → List BlockId → ℕ → List BlockId
  | 0, computedBlocks, numContiguous => computedBlocks.take numContiguous
  | i + 1, computedBlocks, numContiguous =>
    match blockHashes[i]?.bind p.getCachedBlock with
    | some b =>
      let computedBlocks := computedBlocks.set i b
      if numContiguous + 1 ≥ contiguousBlocks then computedBlocks.take (i + numContiguous + 1)
      else
        slidingFindLongestCacheHit p contiguousBlocks blockHashes i computedBlocks
          (numContiguous + 1)
    | none => slidingFindLongestCacheHit p contiguousBlocks blockHashes i computedBlocks 0

def findLongestCacheHit (cfg : KVCacheConfig) (p : BlockPool) (blockHashes : List BlockHashType) :
    List BlockId :=
  match cfg.kvCacheSpec with
  | .fullAttention => fullFindLongestCacheHit p blockHashes
  | .slidingWindow window =>
    slidingFindLongestCacheHit p (cdiv (window - 1) cfg.blockSize) blockHashes blockHashes.length
      (List.replicate blockHashes.length nullBlock) 0

/-- The removed blocks, and the blocks of the request with null blocks in their place. -/
def removeSkippedBlocks (cfg : KVCacheConfig) (blocks : List BlockId) (numComputedTokens : ℕ) :
    Except PyError (List BlockId × List BlockId) :=
  match cfg.kvCacheSpec with
  | .fullAttention => .ok ([], blocks)
  | .slidingWindow window =>
    let lastUsefulToken : ℤ := (numComputedTokens : ℤ) - window + 1
    slidingRemoveSkippedBlocks (lastUsefulToken / cfg.blockSize).toNat blocks

/-! ## The manager -/

structure KVCacheManager where
  blockPool : BlockPool
  reqToBlocks : ReqId → List BlockId
  reqToBlockHashes : ReqId → List BlockHashType
  numCachedBlock : ReqId → Option ℤ

namespace KVCacheManager

def init (cfg : KVCacheConfig) : Except PyError KVCacheManager := do
  let blockPool ← BlockPool.init cfg.numBlocks cfg.enableCaching
  return {
    blockPool := blockPool
    reqToBlocks := fun _ => []
    reqToBlockHashes := fun _ => []
    numCachedBlock := fun _ => none }

/-- The hashes of the request's tokens are computed once. -/
def recordBlockHashes (cfg : KVCacheConfig) (reqId : ReqId) (r : Request) (m : KVCacheManager) :
    Except PyError KVCacheManager :=
  if m.reqToBlockHashes reqId = [] then do
    let blockHashes ← hashRequestTokens cfg r
    return { m with reqToBlockHashes := Function.update m.reqToBlockHashes reqId blockHashes }
  else .ok m

/-- When all tokens lie in full blocks, the last block has to be computed again. -/
def searchedHashes (cfg : KVCacheConfig) (numTokens : ℕ) (blockHashes : List BlockHashType) :
    Except PyError (List BlockHashType) :=
  if blockHashes.length * cfg.blockSize = numTokens then
    if blockHashes = [] then .error .indexError else .ok blockHashes.dropLast
  else .ok blockHashes

/-- The cached blocks of the request and the number of tokens they hold. -/
def getComputedBlocks (cfg : KVCacheConfig) (reqId : ReqId) (r : Request) (m : KVCacheManager) :
    Except PyError ((List BlockId × ℕ) × KVCacheManager) :=
  if ¬ cfg.enableCaching then .ok (([], 0), m)
  else do
    let m ← m.recordBlockHashes cfg reqId r
    if r.samplingParams.promptLogprobs ≠ none then
      return (([], 0), m)
    else
      let searched ← searchedHashes cfg r.numTokens (m.reqToBlockHashes reqId)
      let computedBlocks := findLongestCacheHit cfg m.blockPool searched
      return ((computedBlocks, computedBlocks.length * cfg.blockSize), m)

/-- The blocks that the request no longer attends to go back to the pool. -/
def dropSkippedBlocks (cfg : KVCacheConfig) (reqId : ReqId) (numComputedTokens : ℕ)
    (m : KVCacheManager) : Except PyError KVCacheManager := do
  let (removedBlocks, reqBlocks) ← removeSkippedBlocks cfg (m.reqToBlocks reqId) numComputedTokens
  let blockPool ← m.blockPool.freeBlocks removedBlocks
  return { m with
    blockPool := blockPool
    reqToBlocks := Function.update m.reqToBlocks reqId reqBlocks }

/-- The computed blocks of the request must not be evicted. -/
def touchComputedBlocks (cfg : KVCacheConfig) (reqId : ReqId) (newComputedBlocks : List BlockId)
    (m : KVCacheManager) : Except PyError KVCacheManager := do
  pyAssert (cfg.enableCaching ∨ newComputedBlocks = [])
    "Computed blocks should be empty when prefix caching is disabled"
  return { m with
    blockPool := if cfg.enableCaching then m.blockPool.touch newComputedBlocks else m.blockPool
    reqToBlocks :=
      Function.update m.reqToBlocks reqId (m.reqToBlocks reqId ++ newComputedBlocks) }

/-- The number of blocks `allocate_slots` takes off the pool when it needs
`numNewBlocks` more, counting the preallocated ones. -/
def numBlocksToTake (cfg : KVCacheConfig) (numNewBlocks : ℤ) (numLookaheadTokens : ℕ)
    (numFree : ℤ) (numOwned : ℕ) : ℤ :=
  min (numNewBlocks + (cfg.numPreallocateBlocks - numLookaheadTokens / cfg.blockSize : ℕ))
    (min numFree (cfg.maxNumBlocksPerReq - numOwned))

/-- The new blocks of the request, with the preallocated ones. -/
def takeNewBlocks (cfg : KVCacheConfig) (reqId : ReqId) (numNewBlocks : ℤ)
    (numLookaheadTokens : ℕ) (m : KVCacheManager) :
    Except PyError (List BlockId × KVCacheManager) :=
  if numNewBlocks ≤ 0 then .ok ([], m)
  else do
    let toTake := numBlocksToTake cfg numNewBlocks numLookaheadTokens
      m.blockPool.getNumFreeBlocks (m.reqToBlocks reqId).length
    pyAssert (0 < toTake) ""
    let (newBlocks, blockPool) ← m.blockPool.getNewBlocks toTake.toNat
    return (newBlocks, { m with
      blockPool := blockPool
      reqToBlocks := Function.update m.reqToBlocks reqId (m.reqToBlocks reqId ++ newBlocks) })

/-- Commits the full blocks of the request, without its drafts, to the prefix cache. -/
def commitFullBlocks (cfg : KVCacheConfig) (reqId : ReqId) (r : Request)
    (numNewComputedBlocks numTokens : ℕ) (m : KVCacheManager) : Except PyError KVCacheManager :=
  if ¬ cfg.enableCaching then .ok m
  else do
    let numCachedBlocks := (m.numCachedBlock reqId).getD numNewComputedBlocks
    let numComputedTokens := r.numComputedTokens + numNewComputedBlocks * cfg.blockSize
    let numFullBlocksAfterAppend : ℤ :=
      ((numComputedTokens + numTokens : ℤ) - r.specTokenIds.length) / cfg.blockSize
    let (blockHashes, blockPool) ← m.blockPool.cacheFullBlocks cfg reqId r (m.reqToBlocks reqId)
      (m.reqToBlockHashes reqId) numCachedBlocks numFullBlocksAfterAppend
    return { m with
      blockPool := blockPool
      reqToBlockHashes := Function.update m.reqToBlockHashes reqId blockHashes
      numCachedBlock := Function.update m.numCachedBlock reqId (some numFullBlocksAfterAppend) }

/-- The new blocks, or `none` when the pool is too small. -/
def allocateSlots (cfg : KVCacheConfig) (reqId : ReqId) (r : Request) (numTokens : ℕ)
    (newComputedBlocks : List BlockId) (numLookaheadTokens : ℕ) (m : KVCacheManager) :
    Except PyError (Option (List BlockId) × KVCacheManager) :=
  if numTokens = 0 then .error (.valueError "num_tokens must be greater than 0")
  else do
    let m ← m.dropSkippedBlocks cfg reqId r.numComputedTokens
    let numComputedTokens := r.numComputedTokens + newComputedBlocks.length * cfg.blockSize
    let numRequiredBlocks :=
      cdiv (numComputedTokens + numTokens + numLookaheadTokens) cfg.blockSize
    let numNewBlocks : ℤ :=
      numRequiredBlocks - (m.reqToBlocks reqId).length - newComputedBlocks.length
    -- a computed block that is an eviction candidate does not count as free
    let numEvictable := (newComputedBlocks.filter (fun b => m.blockPool.refCnt b = 0)).length
    if numNewBlocks > m.blockPool.getNumFreeBlocks - numEvictable then return (none, m)
    else
      let m ← m.touchComputedBlocks cfg reqId newComputedBlocks
      let (newBlocks, m) ← m.takeNewBlocks cfg reqId numNewBlocks numLookaheadTokens
      let m ← m.commitFullBlocks cfg reqId r newComputedBlocks.length numTokens
      return (some newBlocks, m)

/-- Frees the blocks of the request, the last one first when caching is enabled. -/
def free (cfg : KVCacheConfig) (reqId : ReqId) (m : KVCacheManager) :
    Except PyError KVCacheManager := do
  let blocks := m.reqToBlocks reqId
  let blockPool ← m.blockPool.freeBlocks (if cfg.enableCaching then blocks.reverse else blocks)
  return { m with
    blockPool := blockPool
    reqToBlocks := Function.update m.reqToBlocks reqId []
    numCachedBlock := Function.update m.numCachedBlock reqId none }

def freeBlockHashes (reqId : ReqId) (m : KVCacheManager) : KVCacheManager :=
  { m with reqToBlockHashes := Function.update m.reqToBlockHashes reqId [] }

def resetPrefixCache (m : KVCacheManager) : Bool × KVCacheManager :=
  let (succeeded, blockPool) := m.blockPool.resetPrefixCache
  (succeeded, { m with blockPool := blockPool })

end KVCacheManager

end Spexis.V1
