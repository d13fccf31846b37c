import Spexis.Verification.V1.BlockPool

/-! # Sharing blocks through the prefix cache

What the manager keeps true of the pool, and what `allocate_slots` and `free` do for one
request, with full attention and prefix caching. -/

namespace Spexis.V1

open Python

/-- The configuration the results are about. -/
structure KVCacheConfig.PrefixCaching (cfg : KVCacheConfig) : Prop where
  fullAttention : cfg.kvCacheSpec = .fullAttention
  enableCaching : cfg.enableCaching = true
  blockSize_pos : 0 < cfg.blockSize

namespace KVCacheManager

variable {cfg : KVCacheConfig} {m m' : KVCacheManager} {free computed : List BlockId} {q : ReqId}
  {r : Request} {k f n numLookaheadTokens : ℕ}

/-- The blocks that can be allocated. -/
def usableBlocks (cfg : KVCacheConfig) : List BlockId :=
  (List.range cfg.numBlocks).tail

/-- The queue holds the blocks without references, the references are those of the requests, and a
block without a hash belongs to one request only. -/
structure Pooled (cfg : KVCacheConfig) (m : KVCacheManager) (free : List BlockId) : Prop where
  numGpuBlocks : m.blockPool.numGpuBlocks = cfg.numBlocks
  caching : m.blockPool.enableCaching = true
  queue : m.blockPool.freeBlockQueue.Holds free
  sharing : Sharing (usableBlocks cfg) free m.blockPool.refCnt m.reqToBlocks
  indexed : m.blockPool.Indexed
  hashed : ∀ b h, m.blockPool.blockHash b = some h → b ∈ usableBlocks cfg
  exclusive : ∀ b q q', m.blockPool.blockHash b = none → b ∈ m.reqToBlocks q →
    b ∈ m.reqToBlocks q' → q = q'

/-- The first blocks of the request are cached under its first hashes, the others have no hash. -/
structure Holding (cfg : KVCacheConfig) (m : KVCacheManager) (q : ReqId) (r : Request)
    (blocks : List BlockId) (numCached : ℕ) : Prop where
  chained : Chained cfg none (m.reqToBlockHashes q)
  hashes_le : (m.reqToBlockHashes q).length * cfg.blockSize ≤ r.numTokens
  cached : ∀ i < numCached, ∃ b h, blocks[i]? = some b ∧ m.blockPool.blockHash b = some h ∧
    (m.reqToBlockHashes q)[i]? = some h
  fresh : ∀ i b, numCached ≤ i → blocks[i]? = some b → m.blockPool.blockHash b = none

theorem range_eq_cons_usableBlocks (hblocks : 0 < cfg.numBlocks) :
    List.range cfg.numBlocks = nullBlock :: usableBlocks cfg := by
  obtain ⟨n, hn⟩ : ∃ n, cfg.numBlocks = n + 1 := ⟨cfg.numBlocks - 1, by omega⟩
  rw [usableBlocks, hn, List.range_succ_eq_map]
  rfl

theorem mem_usableBlocks (cfg : KVCacheConfig) (b : BlockId) :
    b ∈ usableBlocks cfg ↔ b < cfg.numBlocks ∧ b ≠ nullBlock := by
  unfold usableBlocks
  cases cfg.numBlocks with
  | zero => simp
  | succ n =>
      cases b with
      | zero => simp [List.range_succ_eq_map, nullBlock]
      | succ b => simp [List.range_succ_eq_map, nullBlock]

theorem nullBlock_notMem_usableBlocks (cfg : KVCacheConfig) : nullBlock ∉ usableBlocks cfg :=
  fun hmem => ((mem_usableBlocks cfg nullBlock).mp hmem).2 rfl

theorem Holding.congr {r' : Request} {blocks : List BlockId} (h : m.Holding cfg q r blocks k)
    (hhashes : m'.reqToBlockHashes q = m.reqToBlockHashes q)
    (hkeys : ∀ b ∈ blocks, m'.blockPool.blockHash b = m.blockPool.blockHash b)
    (hle : r.numTokens ≤ r'.numTokens) : m'.Holding cfg q r' blocks k := by
  refine ⟨hhashes ▸ h.chained, hhashes ▸ h.hashes_le.trans hle, ?_, ?_⟩
  · intro i hi
    obtain ⟨b, hash, hget, hkey, hhash⟩ := h.cached i hi
    exact ⟨b, hash, hget, (hkeys b (List.mem_of_getElem? hget)).trans hkey, hhashes ▸ hhash⟩
  · intro i b hi hget
    exact (hkeys b (List.mem_of_getElem? hget)).trans (h.fresh i b hi hget)

/-! ## Computed blocks -/

theorem dropSkippedBlocks_full (hfull : cfg.kvCacheSpec = .fullAttention) (c : ℕ) :
    m.dropSkippedBlocks cfg q c = .ok m := by
  simp only [dropSkippedBlocks, removeSkippedBlocks, hfull, ok_bind, BlockPool.freeBlocks,
    Function.update_eq_self]
  rfl

/-- The blocks of the queue that are touched are the eviction candidates. -/
theorem Pooled.length_filter (h : m.Pooled cfg free) (hcomp : computed.Nodup)
    (husable : ∀ b ∈ computed, b ∈ usableBlocks cfg) :
    (free.filter (· ∉ computed)).length +
      (computed.filter (fun b => m.blockPool.refCnt b = 0)).length = free.length := by
  have hperm : (free.filter (· ∈ computed)).Perm
      (computed.filter (fun b => m.blockPool.refCnt b = 0)) := by
    refine (List.perm_ext_iff_of_nodup (h.sharing.nodup.filter _) (hcomp.filter _)).mpr ?_
    intro b
    simp only [List.mem_filter, decide_eq_true_eq, h.sharing.free_iff]
    constructor
    · rintro ⟨⟨-, hzero⟩, hmem⟩
      exact ⟨hmem, hzero⟩
    · rintro ⟨hmem, hzero⟩
      exact ⟨⟨husable b hmem, hzero⟩, hmem⟩
  have hsplit := List.length_eq_length_filter_add (l := free) (· ∈ computed)
  rw [hperm.length_eq] at hsplit
  have hnot : free.filter (fun b => ! decide (b ∈ computed)) = free.filter (· ∉ computed) :=
    List.filter_congr (fun b _ => by simp)
  rw [hnot] at hsplit
  omega

/-- The request takes the computed blocks over. -/
theorem touchComputedBlocks_ok (hcfg : cfg.PrefixCaching) (h : m.Pooled cfg free)
    (hcomp : computed.Nodup) (hnew : ∀ b ∈ computed, b ∉ m.reqToBlocks q)
    (hhashed : ∀ b ∈ computed, ∃ h, m.blockPool.blockHash b = some h) :
    ∃ queue, m.touchComputedBlocks cfg q computed = .ok { m with
        blockPool := { m.blockPool with
          refCnt := BlockPool.addRefs m.blockPool.refCnt computed
          freeBlockQueue := queue }
        reqToBlocks := Function.update m.reqToBlocks q (m.reqToBlocks q ++ computed) } ∧
      Pooled cfg { m with
        blockPool := { m.blockPool with
          refCnt := BlockPool.addRefs m.blockPool.refCnt computed
          freeBlockQueue := queue }
        reqToBlocks := Function.update m.reqToBlocks q (m.reqToBlocks q ++ computed) }
        (free.filter (· ∉ computed)) := by
  have husable : ∀ b ∈ computed, b ∈ usableBlocks cfg := by
    intro b hb
    obtain ⟨hash, hhash⟩ := hhashed b hb
    exact h.hashed b hash hhash
  obtain ⟨queue, htouch, hqueue⟩ := BlockPool.touch_eq h.queue hcomp
    (fun hmem => nullBlock_notMem_usableBlocks cfg (husable _ hmem))
    (fun b hb => by rw [h.sharing.free_iff]; simp [husable b hb])
  refine ⟨queue, ?_, h.numGpuBlocks, h.caching, hqueue, h.sharing.share hcomp husable hnew,
    h.indexed, h.hashed, ?_⟩
  · simp only [touchComputedBlocks, hcfg.enableCaching, true_or, pyAssert, ite_true, ok_bind,
      htouch]
    rfl
  · intro b q₁ q₂ hnone hb₁ hb₂
    have hother : ∀ q', b ∈ Function.update m.reqToBlocks q (m.reqToBlocks q ++ computed) q' →
        b ∈ m.reqToBlocks q' := by
      intro q' hb
      by_cases hq : q' = q
      · subst hq
        rw [Function.update_self, List.mem_append] at hb
        refine hb.resolve_right (fun hcomputed => ?_)
        obtain ⟨hash, hhash⟩ := hhashed b hcomputed
        have hnone' : m.blockPool.blockHash b = none := hnone
        rw [hhash] at hnone'
        cases hnone'
      · rwa [Function.update_of_ne hq] at hb
    exact h.exclusive b q₁ q₂ hnone (hother q₁ hb₁) (hother q₂ hb₂)

/-! ## New blocks -/

theorem takeNewBlocks_ok (h : m.Pooled cfg free) {numNewBlocks : ℤ} (hle : numNewBlocks ≤ free.length)
    (hroom : 0 < numNewBlocks → (m.reqToBlocks q).length < cfg.maxNumBlocksPerReq) :
    ∃ newBlocks queue key cached free', m.takeNewBlocks cfg q numNewBlocks numLookaheadTokens =
        .ok (newBlocks, { m with
          blockPool := { m.blockPool with
            refCnt := BlockPool.addRefs m.blockPool.refCnt newBlocks
            blockHash := key
            freeBlockQueue := queue
            cachedBlockHashToBlock := cached }
          reqToBlocks := Function.update m.reqToBlocks q (m.reqToBlocks q ++ newBlocks) }) ∧
      Pooled cfg { m with
        blockPool := { m.blockPool with
          refCnt := BlockPool.addRefs m.blockPool.refCnt newBlocks
          blockHash := key
          freeBlockQueue := queue
          cachedBlockHashToBlock := cached }
        reqToBlocks := Function.update m.reqToBlocks q (m.reqToBlocks q ++ newBlocks) } free' ∧
      (∀ b, key b = if b ∈ newBlocks then none else m.blockPool.blockHash b) ∧
      (∀ b ∈ newBlocks, b ∈ free) ∧
      min ((m.reqToBlocks q).length + numNewBlocks) cfg.maxNumBlocksPerReq ≤
        ((m.reqToBlocks q ++ newBlocks).length : ℤ) := by
  by_cases hpos : numNewBlocks ≤ 0
  · refine ⟨[], m.blockPool.freeBlockQueue, m.blockPool.blockHash,
      m.blockPool.cachedBlockHashToBlock, free, ?_, ?_, by simp, by simp, ?_⟩
    · rw [takeNewBlocks, if_pos hpos]
      simp only [BlockPool.addRefs_nil, List.append_nil, Function.update_eq_self]
    · simpa only [BlockPool.addRefs_nil, List.append_nil, Function.update_eq_self] using h
    · simp only [List.append_nil]
      omega
  · have hroom' := hroom (by omega)
    obtain ⟨toTake, htake⟩ : ∃ toTake : ℕ, (toTake : ℤ) = numBlocksToTake cfg numNewBlocks
        numLookaheadTokens free.length (m.reqToBlocks q).length := by
      refine ⟨_, Int.toNat_of_nonneg ?_⟩
      unfold numBlocksToTake
      omega
    have hbounds : 0 < toTake ∧ toTake ≤ free.length ∧
        min ((m.reqToBlocks q).length + numNewBlocks) cfg.maxNumBlocksPerReq ≤
          ((m.reqToBlocks q).length + toTake : ℤ) := by
      unfold numBlocksToTake at htake
      omega
    obtain ⟨queue, cached, hget, hqueue, hidx⟩ := BlockPool.getNewBlocks_eq h.caching h.indexed
      h.queue (fun b hb => ((h.sharing.free_iff b).mp hb).2) toTake hbounds.2.1
    have htaken : ∀ b ∈ free.take toTake, b ∈ free := fun b hb => List.mem_of_mem_take hb
    have hdrop : free.drop toTake = free.filter (· ∉ free.take toTake) :=
      (h.sharing.nodup.filter_notMem_take toTake).symm
    refine ⟨free.take toTake, queue, _, cached, free.drop toTake, ?_, ?_, fun _ => rfl, htaken, ?_⟩
    · have hfree : m.blockPool.getNumFreeBlocks = (free.length : ℤ) := h.queue.numFreeBlocks
      have hassert : pyAssert (0 < (toTake : ℤ)) "" = .ok () := by simp [hbounds.1]
      rw [takeNewBlocks, if_neg hpos, hfree, ← htake]
      simp only [hassert, Int.toNat_natCast, ok_bind, hget]
      rfl
    · refine ⟨h.numGpuBlocks, h.caching, hqueue, ?_, hidx, ?_, ?_⟩
      · rw [hdrop]
        exact h.sharing.share (h.sharing.nodup.sublist (List.take_sublist _ _))
          (fun b hb => ((h.sharing.free_iff b).mp (htaken b hb)).1)
          (fun b hb => h.sharing.notMem_of_free (htaken b hb) q)
      · intro b hash hhash
        refine h.hashed b hash ?_
        by_cases hb : b ∈ free.take toTake
        · simp [hb] at hhash
        · simpa [hb] using hhash
      · intro b q₁ q₂ hnone hb₁ hb₂
        by_cases hb : b ∈ free.take toTake
        · have hself : ∀ q', b ∈ Function.update m.reqToBlocks q
              (m.reqToBlocks q ++ free.take toTake) q' → q' = q := by
            intro q' hmem
            by_contra hne
            rw [Function.update_of_ne hne] at hmem
            exact h.sharing.notMem_of_free (htaken b hb) q' hmem
          rw [hself q₁ hb₁, hself q₂ hb₂]
        · have hold : ∀ q', b ∈ Function.update m.reqToBlocks q
              (m.reqToBlocks q ++ free.take toTake) q' → b ∈ m.reqToBlocks q' := by
            intro q' hmem
            by_cases hq : q' = q
            · subst hq
              rw [Function.update_self, List.mem_append] at hmem
              exact hmem.resolve_right hb
            · rwa [Function.update_of_ne hq] at hmem
          exact h.exclusive b q₁ q₂ (by simpa [hb] using hnone) (hold q₁ hb₁) (hold q₂ hb₂)
    · rw [List.length_append, List.length_take, min_eq_left hbounds.2.1]
      push_cast
      exact hbounds.2.2

/-! ## Full blocks -/

theorem Holding.le_hashes {blocks : List BlockId} (h : m.Holding cfg q r blocks k) :
    k ≤ (m.reqToBlockHashes q).length := by
  cases k with
  | zero => exact Nat.zero_le _
  | succ k =>
      obtain ⟨b, hash, -, -, hget⟩ := h.cached k (Nat.lt_succ_self k)
      exact (List.getElem?_eq_some_iff.mp hget).1

/-- The blocks between the cached and the full ones get their hashes. -/
theorem commitFullBlocks_ok (hcfg : cfg.PrefixCaching) (hr : r.Hashable) (h : m.Pooled cfg free)
    (hhold : m.Holding cfg q r (m.reqToBlocks q) k) {numComputed : ℕ}
    (hk : (m.numCachedBlock q).getD numComputed = (k : ℤ))
    (hfull : ((r.numComputedTokens + numComputed * cfg.blockSize + n : ℤ) - r.specTokenIds.length) /
      cfg.blockSize = (f : ℤ))
    (hkf : k ≤ f) (hf : f ≤ (m.reqToBlocks q).length) (htokens : f * cfg.blockSize ≤ r.numTokens) :
    ∃ m' hashes' key cached, m.commitFullBlocks cfg q r numComputed n = .ok m' ∧
      m' = { m with
        blockPool := { m.blockPool with blockHash := key, cachedBlockHashToBlock := cached }
        reqToBlockHashes := Function.update m.reqToBlockHashes q hashes'
        numCachedBlock := Function.update m.numCachedBlock q (some (f : ℤ)) } ∧
      m'.Pooled cfg free ∧ m'.Holding cfg q r (m.reqToBlocks q) f ∧
      BlockPool.Caching cfg r m.blockPool.blockHash key (m.reqToBlockHashes q) hashes' k
        (pySlice (m.reqToBlocks q) k f) := by
  have hnodup := h.sharing.owned_nodup q
  have hslice : ∀ b ∈ pySlice (m.reqToBlocks q) k f, m.blockPool.blockHash b = none ∧
      b ∈ m.reqToBlocks q := by
    intro b hb
    obtain ⟨i, hi, -, hget⟩ := exists_of_mem_pySlice hb
    exact ⟨hhold.fresh i b hi hget, List.mem_of_getElem? hget⟩
  obtain ⟨hashes', key, cached, heq, hidx, hcaching⟩ := BlockPool.cacheFullBlocks_ok q
    hr h.indexed hkf hf hhold.le_hashes hhold.chained hnodup
    (fun hpos => hhold.cached (k - 1) (by omega)) (fun b hb => (hslice b hb).1) htokens
  refine ⟨_, hashes', key, cached, ?_, rfl, ?_, ?_, hcaching⟩
  · rw [commitFullBlocks, if_neg (by simp [hcfg.enableCaching])]
    have hfull' : (((r.numComputedTokens + numComputed * cfg.blockSize : ℕ) + n : ℤ) -
        r.specTokenIds.length) / cfg.blockSize = (f : ℤ) := by exact_mod_cast hfull
    simp only [hk, hfull', heq, ok_bind]
    rfl
  · refine ⟨h.numGpuBlocks, h.caching, h.queue, h.sharing, hidx, ?_, ?_⟩
    · intro b hash hhash
      by_cases hb : b ∈ pySlice (m.reqToBlocks q) k f
      · exact h.sharing.mem_items q b (hslice b hb).2
      · exact h.hashed b hash ((hcaching.frame b hb).symm.trans hhash)
    · intro b q₁ q₂ hnone hb₁ hb₂
      refine h.exclusive b q₁ q₂ ?_ hb₁ hb₂
      by_cases hb : b ∈ pySlice (m.reqToBlocks q) k f
      · exact (hslice b hb).1
      · exact (hcaching.frame b hb).symm.trans hnone
  · refine ⟨?_, ?_, ?_, ?_⟩
    · simpa using hcaching.chained
    · have hlength := hcaching.length_eq
      rw [pySlice_length _ _ _ hf, Nat.add_sub_cancel' hkf] at hlength
      simp only [Function.update_self, hlength]
      rcases max_choice (m.reqToBlockHashes q).length f with hmax | hmax
      · rw [hmax]
        exact hhold.hashes_le
      · rw [hmax]
        exact htokens
    · intro i hi
      simp only [Function.update_self]
      by_cases hik : i < k
      · obtain ⟨b, hash, hget, hkey, hhash⟩ := hhold.cached i hik
        have hb : b ∉ pySlice (m.reqToBlocks q) k f := by
          intro hb
          rw [(hslice b hb).1] at hkey
          cases hkey
        refine ⟨b, hash, hget, (hcaching.frame b hb).trans hkey, ?_⟩
        rw [← hhash]
        exact (hcaching.isPrefix.getElem?_eq (List.getElem?_eq_some_iff.mp hhash).1).symm
      · have hlt : i < (m.reqToBlocks q).length := by omega
        have hget : (pySlice (m.reqToBlocks q) k f)[i - k]? = some ((m.reqToBlocks q)[i]) := by
          rw [getElem?_pySlice _ (by omega), Nat.add_sub_cancel' (by omega)]
          exact List.getElem?_eq_getElem hlt
        obtain ⟨hash, hkey, hhash⟩ := hcaching.cached _ _ hget
        rw [Nat.add_sub_cancel' (by omega)] at hhash
        exact ⟨_, hash, List.getElem?_eq_getElem hlt, hkey, hhash⟩
    · intro i b hi hget
      refine (hcaching.frame b (fun hb => ?_)).trans (hhold.fresh i b (by omega) hget)
      obtain ⟨j, -, hj, hget'⟩ := exists_of_mem_pySlice hb
      have hlt := (List.getElem?_eq_some_iff.mp hget).1
      have heq := (List.getElem?_inj hlt hnodup).mp (hget.trans hget'.symm)
      omega

/-! ## Allocation -/

/-- The number of blocks that hold the tokens of the request, the new ones included. -/
def numRequiredBlocks (cfg : KVCacheConfig) (r : Request) (numComputed n numLookaheadTokens : ℕ) :
    ℕ :=
  cdiv (r.numComputedTokens + numComputed * cfg.blockSize + n + numLookaheadTokens) cfg.blockSize

/-- What a successful `allocate_slots` leaves: the request has more blocks, of which the first `f`
are cached, and the other requests keep theirs. -/
structure Allocated (cfg : KVCacheConfig) (m m' : KVCacheManager) (q : ReqId) (r : Request)
    (computed newBlocks : List BlockId) (k f required : ℕ) : Prop where
  pooled : ∃ free, m'.Pooled cfg free
  reqToBlocks : m'.reqToBlocks =
    Function.update m.reqToBlocks q (m.reqToBlocks q ++ computed ++ newBlocks)
  blockHashes : ∀ q', q' ≠ q → m'.reqToBlockHashes q' = m.reqToBlockHashes q'
  numCachedBlock : m'.numCachedBlock = Function.update m.numCachedBlock q (some (f : ℤ))
  holding : m'.Holding cfg q r (m.reqToBlocks q ++ computed ++ newBlocks) f
  frame : ∀ q' b, q' ≠ q → b ∈ m.reqToBlocks q' →
    m'.blockPool.blockHash b = m.blockPool.blockHash b
  length : min required cfg.maxNumBlocksPerReq ≤
    (m.reqToBlocks q ++ computed ++ newBlocks).length
  caching : BlockPool.Caching cfg r
    (fun b => if b ∈ newBlocks then none else m.blockPool.blockHash b) m'.blockPool.blockHash
    (m.reqToBlockHashes q) (m'.reqToBlockHashes q) k
    (pySlice (m.reqToBlocks q ++ computed ++ newBlocks) k f)

/-- Either the pool is too small and nothing changes, or the request gets what it needs. -/
theorem allocateSlots_ok (hcfg : cfg.PrefixCaching) (hr : r.Hashable) (h : m.Pooled cfg free)
    (hn : 0 < n) (hcomp : computed.Nodup) (hnew : ∀ b ∈ computed, b ∉ m.reqToBlocks q)
    (hhashed : ∀ b ∈ computed, ∃ h, m.blockPool.blockHash b = some h)
    (hhold : m.Holding cfg q r (m.reqToBlocks q ++ computed) k)
    (hk : (m.numCachedBlock q).getD computed.length = (k : ℤ))
    (hfull : ((r.numComputedTokens + computed.length * cfg.blockSize + n : ℤ) -
      r.specTokenIds.length) / cfg.blockSize = (f : ℤ))
    (hkf : k ≤ f) (hmax : f ≤ cfg.maxNumBlocksPerReq) (htokens : f * cfg.blockSize ≤ r.numTokens)
    (hroom : (m.reqToBlocks q ++ computed).length <
      numRequiredBlocks cfg r computed.length n numLookaheadTokens →
        (m.reqToBlocks q ++ computed).length < cfg.maxNumBlocksPerReq) :
    m.allocateSlots cfg q r n computed numLookaheadTokens = .ok (none, m) ∨
    ∃ newBlocks m', m.allocateSlots cfg q r n computed numLookaheadTokens =
        .ok (some newBlocks, m') ∧
      Allocated cfg m m' q r computed newBlocks k f
        (numRequiredBlocks cfg r computed.length n numLookaheadTokens) := by
  have hcount := h.length_filter hcomp (fun b hb => (hhashed b hb).elim (h.hashed b))
  have hsize : m.blockPool.getNumFreeBlocks = (free.length : ℤ) := h.queue.numFreeBlocks
  unfold allocateSlots
  rw [if_neg (by omega), dropSkippedBlocks_full hcfg.fullAttention, ok_bind]
  by_cases htoo : (numRequiredBlocks cfg r computed.length n numLookaheadTokens : ℤ) -
      (m.reqToBlocks q).length - computed.length > m.blockPool.getNumFreeBlocks -
        (computed.filter (fun b => m.blockPool.refCnt b = 0)).length
  · exact .inl (if_pos htoo)
  · right
    obtain ⟨queue, htouch, hpooled₁⟩ := touchComputedBlocks_ok hcfg h hcomp hnew hhashed
    -- the request as it is once it has taken the computed blocks over
    obtain ⟨m₁, hm₁⟩ : ∃ m₁ : KVCacheManager, m₁ = { m with
        blockPool := { m.blockPool with
          refCnt := BlockPool.addRefs m.blockPool.refCnt computed
          freeBlockQueue := queue }
        reqToBlocks := Function.update m.reqToBlocks q (m.reqToBlocks q ++ computed) } := ⟨_, rfl⟩
    rw [← hm₁] at htouch hpooled₁
    have hblocks₁ : m₁.reqToBlocks q = m.reqToBlocks q ++ computed := by simp [hm₁]
    have henough : (numRequiredBlocks cfg r computed.length n numLookaheadTokens : ℤ) -
        (m.reqToBlocks q).length - computed.length ≤ (free.filter (· ∉ computed)).length := by
      omega
    obtain ⟨newBlocks, queue', key, cached, free', htake, hpooled₂, hkey, hnewFree, hlength⟩ :=
      takeNewBlocks_ok (q := q) hpooled₁ henough
        (fun hpos => by
          rw [hblocks₁]
          refine hroom ?_
          rw [List.length_append]
          omega)
    rw [hblocks₁] at htake hpooled₂ hlength
    obtain ⟨m₂, hm₂⟩ : ∃ m₂ : KVCacheManager, m₂ = { m₁ with
        blockPool := { m₁.blockPool with
          refCnt := BlockPool.addRefs m₁.blockPool.refCnt newBlocks
          blockHash := key
          freeBlockQueue := queue'
          cachedBlockHashToBlock := cached }
        reqToBlocks := Function.update m₁.reqToBlocks q
          (m.reqToBlocks q ++ computed ++ newBlocks) } := ⟨_, rfl⟩
    rw [← hm₂] at htake hpooled₂
    have hblocks₂ : m₂.reqToBlocks =
        Function.update m.reqToBlocks q (m.reqToBlocks q ++ computed ++ newBlocks) := by
      simp [hm₂, hm₁]
    have hblocks₂' : m₂.reqToBlocks q = m.reqToBlocks q ++ computed ++ newBlocks := by
      simp [hblocks₂]
    have hkey₂ : ∀ b, m₂.blockPool.blockHash b =
        if b ∈ newBlocks then none else m.blockPool.blockHash b := by
      intro b
      simp only [hm₂, hm₁] at hkey ⊢
      exact hkey b
    have hunused : ∀ b ∈ newBlocks, b ∈ free := fun b hb => List.mem_of_mem_filter (hnewFree b hb)
    have hlength' : min (numRequiredBlocks cfg r computed.length n numLookaheadTokens)
        cfg.maxNumBlocksPerReq ≤ (m₂.reqToBlocks q).length := by
      rw [hblocks₂']
      simp only [List.length_append] at hlength ⊢
      omega
    have hashes₂ : m₂.reqToBlockHashes = m.reqToBlockHashes := by simp [hm₂, hm₁]
    have hnotNew : ∀ b ∈ m.reqToBlocks q ++ computed, b ∉ newBlocks := by
      intro b hb hb'
      rcases List.mem_append.mp hb with hb | hb
      · exact h.sharing.notMem_of_free (hunused b hb') q hb
      · simpa [hb] using List.of_mem_filter (hnewFree b hb')
    have hold₂ : m₂.Holding cfg q r (m₂.reqToBlocks q) k := by
      rw [hblocks₂']
      refine ⟨hashes₂ ▸ hhold.chained, hashes₂ ▸ hhold.hashes_le, ?_, ?_⟩
      · intro i hi
        obtain ⟨b, hash, hget, hhash, hget'⟩ := hhold.cached i hi
        refine ⟨b, hash, ?_, ?_, hashes₂ ▸ hget'⟩
        · rw [List.getElem?_append_left (List.getElem?_eq_some_iff.mp hget).1, hget]
        · rw [hkey₂, if_neg (hnotNew b (List.mem_of_getElem? hget)), hhash]
      · intro i b hi hget
        rw [hkey₂]
        split_ifs with hb
        · rfl
        · have hlt : i < (m.reqToBlocks q ++ computed).length := by
            by_contra hge
            rw [List.getElem?_append_right (by omega)] at hget
            exact hb (List.mem_of_getElem? hget)
          exact hhold.fresh i b hi (by rwa [List.getElem?_append_left hlt] at hget)
    have hrequired : f ≤ numRequiredBlocks cfg r computed.length n numLookaheadTokens := by
      have hceil := le_cdiv_mul (a := r.numComputedTokens + computed.length * cfg.blockSize + n +
        numLookaheadTokens) hcfg.blockSize_pos
      have hfloor : (f : ℤ) * cfg.blockSize ≤
          (r.numComputedTokens + computed.length * cfg.blockSize + n : ℤ) -
            r.specTokenIds.length := by
        rw [← hfull]
        exact Int.ediv_mul_le _ (by have := hcfg.blockSize_pos; omega)
      have hle : f * cfg.blockSize ≤
          numRequiredBlocks cfg r computed.length n numLookaheadTokens * cfg.blockSize := by
        unfold numRequiredBlocks
        zify at hceil ⊢
        linarith
      exact Nat.le_of_mul_le_mul_right hle hcfg.blockSize_pos
    obtain ⟨m₃, hashes', key', cached', hcommit, hm₃, hpooled₃, hhold₃, hcaching⟩ :=
      commitFullBlocks_ok (n := n) hcfg hr hpooled₂ hold₂
        (by simpa [hm₂, hm₁] using hk) hfull hkf ((le_min hrequired hmax).trans hlength') htokens
    refine ⟨newBlocks, m₃, (if_neg htoo).trans ?_, ⟨free', hpooled₃⟩, ?_, ?_, ?_, ?_, ?_, ?_, ?_⟩
    · rw [htouch, ok_bind]
      change (m₁.takeNewBlocks cfg q
        ((numRequiredBlocks cfg r computed.length n numLookaheadTokens : ℤ) -
          (m.reqToBlocks q).length - computed.length) numLookaheadTokens >>= _) = _
      rw [htake, ok_bind]
      change (m₂.commitFullBlocks cfg q r computed.length n >>= _) = _
      rw [hcommit]
      rfl
    · rw [hm₃]
      exact hblocks₂
    · intro q' hne
      simp [hm₃, hm₂, hm₁, Function.update_of_ne hne]
    · simp [hm₃, hm₂, hm₁]
    · rwa [← hblocks₂']
    · intro q' b hne hb
      have hb' : b ∉ newBlocks := fun hmem => h.sharing.notMem_of_free (hunused b hmem) q' hb
      have hb₂ : b ∈ m₂.reqToBlocks q' := by rwa [hblocks₂, Function.update_of_ne hne]
      have hslice : b ∉ pySlice (m₂.reqToBlocks q) k f := by
        intro hmem
        obtain ⟨i, hi, -, hget⟩ := exists_of_mem_pySlice hmem
        exact hne (hpooled₂.exclusive b q' q (hold₂.fresh i b hi hget) hb₂
          (List.mem_of_getElem? hget))
      calc m₃.blockPool.blockHash b
        _ = key' b := by rw [hm₃]
        _ = m₂.blockPool.blockHash b := hcaching.frame b hslice
        _ = m.blockPool.blockHash b := by rw [hkey₂, if_neg hb']
    · rwa [← hblocks₂']
    · have hkeys : m₂.blockPool.blockHash =
          fun b => if b ∈ newBlocks then none else m.blockPool.blockHash b := funext hkey₂
      rw [← hkeys, ← hashes₂, ← hblocks₂']
      simpa [hm₃] using hcaching

/-- A refused request leaves everything as it was. -/
theorem allocateSlots_none (hfull : cfg.kvCacheSpec = .fullAttention)
    (h : m.allocateSlots cfg q r n computed numLookaheadTokens = .ok (none, m')) : m' = m := by
  unfold allocateSlots at h
  split_ifs at h
  rw [dropSkippedBlocks_full hfull, ok_bind] at h
  simp only [] at h
  split_ifs at h
  · cases h
    rfl
  · simp only [bind_eq_ok, pure_eq_ok, Prod.mk.injEq, reduceCtorEq, false_and, and_false,
      exists_false] at h

/-! ## Release -/

theorem free_ok (hcfg : cfg.PrefixCaching) (h : m.Pooled cfg free) (q : ReqId) :
    ∃ m' free', m.free cfg q = .ok m' ∧ m'.Pooled cfg free' ∧
      m'.reqToBlocks = Function.update m.reqToBlocks q [] ∧
      m'.reqToBlockHashes = m.reqToBlockHashes ∧
      m'.numCachedBlock = Function.update m.numCachedBlock q none ∧
      m'.blockPool.blockHash = m.blockPool.blockHash := by
  have hperm : (m.reqToBlocks q).reverse.Perm (m.reqToBlocks q) := List.reverse_perm _
  obtain ⟨queue, hfree, hqueue⟩ := BlockPool.freeBlocks_eq
    h.queue (List.nodup_reverse.mpr (h.sharing.owned_nodup q))
    (fun hmem => nullBlock_notMem_usableBlocks cfg
      (h.sharing.mem_items q _ (List.mem_reverse.mp hmem)))
    (fun b hb hmem => h.sharing.notMem_of_free hmem q (List.mem_reverse.mp hb))
  refine ⟨{ m with
      blockPool := { m.blockPool with
        refCnt := BlockPool.dropRefs m.blockPool.refCnt (m.reqToBlocks q).reverse
        freeBlockQueue := queue }
      reqToBlocks := Function.update m.reqToBlocks q []
      numCachedBlock := Function.update m.numCachedBlock q none }, _, ?_,
    ⟨h.numGpuBlocks, h.caching, hqueue, h.sharing.release hperm, h.indexed, h.hashed, ?_⟩, rfl,
    rfl, rfl, rfl⟩
  · simp only [KVCacheManager.free, hcfg.enableCaching, ite_true, hfree, ok_bind]
    rfl
  · intro b q₁ q₂ hnone hb₁ hb₂
    have hother : ∀ q', b ∈ Function.update m.reqToBlocks q [] q' → b ∈ m.reqToBlocks q' := by
      intro q' hb
      by_cases hq : q' = q
      · subst hq
        simp at hb
      · rwa [Function.update_of_ne hq] at hb
    exact h.exclusive b q₁ q₂ hnone (hother q₁ hb₁) (hother q₂ hb₂)

/-- The cache is only reset while no request has blocks. -/
theorem resetPrefixCache_ok (h : m.Pooled cfg free) (hblocks : 0 < cfg.numBlocks) :
    (m.resetPrefixCache.2.Pooled cfg free) ∧
      m.resetPrefixCache.2.reqToBlocks = m.reqToBlocks ∧
      m.resetPrefixCache.2.reqToBlockHashes = m.reqToBlockHashes ∧
      m.resetPrefixCache.2.numCachedBlock = m.numCachedBlock ∧
      (m.resetPrefixCache.2.blockPool.blockHash = m.blockPool.blockHash ∨
        ∀ q, m.reqToBlocks q = []) := by
  have hsize : m.blockPool.getNumFreeBlocks = (free.length : ℤ) := h.queue.numFreeBlocks
  by_cases hused : (m.blockPool.numGpuBlocks : ℤ) - m.blockPool.getNumFreeBlocks ≠ 1
  · have heq : m.resetPrefixCache = (false, m) := by
      simp only [resetPrefixCache, BlockPool.resetPrefixCache, if_pos hused]
    rw [heq]
    exact ⟨h, rfl, rfl, rfl, .inl rfl⟩
  · have heq : m.resetPrefixCache = (true, { m with
        blockPool := { m.blockPool with
          blockHash := fun _ => none
          cachedBlockHashToBlock := fun _ => none } }) := by
      simp only [resetPrefixCache, BlockPool.resetPrefixCache, if_neg hused]
    rw [heq]
    rw [hsize, h.numGpuBlocks] at hused
    have husable : (usableBlocks cfg).Nodup := List.nodup_range.tail
    have hlength : (usableBlocks cfg).length ≤ free.length := by
      simp only [usableBlocks, List.length_tail, List.length_range]
      omega
    have hsub : free ⊆ usableBlocks cfg := fun b hb => ((h.sharing.free_iff b).mp hb).1
    have hperm := (List.subperm_of_subset h.sharing.nodup hsub).perm_of_length_le hlength
    have hempty : ∀ q, m.reqToBlocks q = [] := by
      intro q
      refine List.eq_nil_iff_forall_not_mem.mpr (fun b hb => ?_)
      exact h.sharing.notMem_of_free (hperm.mem_iff.mpr (h.sharing.mem_items q b hb)) q hb
    refine ⟨⟨h.numGpuBlocks, h.caching, h.queue, h.sharing, .empty, nofun, ?_⟩, rfl, rfl, rfl,
      .inr hempty⟩
    intro b q₁ q₂ _ hb
    have hb' : b ∈ m.reqToBlocks q₁ := hb
    simp [hempty q₁] at hb'

/-! ## The search for computed blocks -/

theorem fullFindLongestCacheHit_get (p : BlockPool) (hashes : List BlockHashType) :
    (fullFindLongestCacheHit p hashes).length ≤ hashes.length ∧
      ∀ (i : ℕ) (b : BlockId), (fullFindLongestCacheHit p hashes)[i]? = some b →
        ∃ h, hashes[i]? = some h ∧ p.getCachedBlock h = some b := by
  induction hashes with
  | nil => simp [fullFindLongestCacheHit]
  | cons h hashes ih =>
      unfold fullFindLongestCacheHit
      cases hget : p.getCachedBlock h with
      | none => simp
      | some c =>
          refine ⟨by simpa using ih.1, fun i b hi => ?_⟩
          cases i with
          | zero =>
              obtain rfl : c = b := by simpa using hi
              exact ⟨h, rfl, hget⟩
          | succ i => exact ih.2 i b (by simpa using hi)

/-- The blocks that `get_computed_blocks` returns are cached under the first hashes of the request,
and leave a token to compute. -/
structure Computed (cfg : KVCacheConfig) (m : KVCacheManager) (q : ReqId) (r : Request)
    (computed : List BlockId) : Prop where
  nodup : computed.Nodup
  cached : ∀ (i : ℕ) (b : BlockId), computed[i]? = some b → ∃ h, m.blockPool.blockHash b = some h ∧
    (m.reqToBlockHashes q)[i]? = some h
  length_lt : computed.length * cfg.blockSize < r.numTokens

theorem recordBlockHashes_ok (hr : r.Hashable)
    (hold : m.Holding cfg q r [] 0) :
    ∃ hashes, m.recordBlockHashes cfg q r =
        .ok { m with reqToBlockHashes := Function.update m.reqToBlockHashes q hashes } ∧
      Chained cfg none hashes ∧ hashes.length * cfg.blockSize ≤ r.numTokens := by
  unfold recordBlockHashes
  by_cases hnil : m.reqToBlockHashes q = []
  · obtain ⟨hashes, heq, hlength, hchained⟩ := hashRequestTokens_ok cfg hr
    refine ⟨hashes, ?_, hchained, ?_⟩
    · rw [if_pos hnil, heq]
      rfl
    · rw [hlength]
      exact Nat.div_mul_le_self _ _
  · refine ⟨m.reqToBlockHashes q, ?_, hold.chained, hold.hashes_le⟩
    rw [if_neg hnil, Function.update_eq_self]

/-- The searched hashes are the first ones of the request, and leave a token to compute. -/
theorem searchedHashes_ok (hcfg : cfg.PrefixCaching) {hashes : List BlockHashType}
    (hpos : 0 < r.numTokens) (hle : hashes.length * cfg.blockSize ≤ r.numTokens) :
    ∃ searched, searchedHashes cfg r.numTokens hashes = .ok searched ∧ searched <+: hashes ∧
      searched.length * cfg.blockSize < r.numTokens := by
  unfold searchedHashes
  by_cases hexact : hashes.length * cfg.blockSize = r.numTokens
  · have hne : hashes ≠ [] := by
      rintro rfl
      simp at hexact
      omega
    refine ⟨hashes.dropLast, by rw [if_pos hexact, if_neg hne], List.dropLast_prefix _, ?_⟩
    rw [← hexact, List.length_dropLast]
    exact Nat.mul_lt_mul_of_pos_right (Nat.sub_lt (List.length_pos_iff.mpr hne) Nat.one_pos)
      hcfg.blockSize_pos
  · exact ⟨hashes, if_neg hexact, List.prefix_rfl, lt_of_le_of_ne hle hexact⟩

theorem getComputedBlocks_ok (hcfg : cfg.PrefixCaching) (hfree : cfg.CollisionFree)
    (hr : r.Hashable) (h : m.Pooled cfg free) (hpos : 0 < r.numTokens)
    (hold : m.Holding cfg q r [] 0) :
    ∃ computed m' hashes, m.getComputedBlocks cfg q r =
        .ok ((computed, computed.length * cfg.blockSize), m') ∧
      m' = { m with reqToBlockHashes := Function.update m.reqToBlockHashes q hashes } ∧
      m'.Holding cfg q r [] 0 ∧ m'.Computed cfg q r computed := by
  obtain ⟨hashes, hrecord, hchained, hle⟩ := recordBlockHashes_ok hr hold
  obtain ⟨searched, hsearch, hpre, hlt⟩ := searchedHashes_ok hcfg hpos hle
  have hold' : Holding cfg
      { m with reqToBlockHashes := Function.update m.reqToBlockHashes q hashes } q r [] 0 :=
    ⟨by simpa using hchained, by simpa using hle, by simp, by simp⟩
  have hcaching : ¬ ¬ cfg.enableCaching = true := by simp [hcfg.enableCaching]
  unfold getComputedBlocks
  rw [if_neg hcaching, hrecord, ok_bind]
  by_cases hlogprobs : r.samplingParams.promptLogprobs ≠ none
  · refine ⟨[], _, hashes, ?_, rfl, hold', List.nodup_nil, by simp, by simpa using hpos⟩
    rw [if_pos hlogprobs, List.length_nil, Nat.zero_mul]
    rfl
  · obtain ⟨hlength, hget⟩ := fullFindLongestCacheHit_get m.blockPool searched
    have hcached : ∀ (i : ℕ) (b : BlockId),
        (fullFindLongestCacheHit m.blockPool searched)[i]? = some b →
          ∃ h, m.blockPool.blockHash b = some h ∧ hashes[i]? = some h := by
      intro i b hi
      obtain ⟨hash, hhash, hentry⟩ := hget i b hi
      refine ⟨hash, h.indexed.key_of_head hentry, ?_⟩
      rw [← hhash]
      exact (hpre.getElem?_eq (List.getElem?_eq_some_iff.mp hhash).1).symm
    refine ⟨fullFindLongestCacheHit m.blockPool searched, _, hashes, ?_, rfl, hold', ?_, ?_, ?_⟩
    · rw [if_neg hlogprobs]
      simp only [Function.update_self, hsearch, ok_bind, findLongestCacheHit, hcfg.fullAttention]
      rfl
    · -- a block has one hash, and no hash occurs twice
      refine List.nodup_iff_getElem?_ne_getElem?.mpr (fun i j hij hj heq => ?_)
      obtain ⟨hash, hkey, hi'⟩ := hcached i _ (heq.trans (List.getElem?_eq_getElem hj))
      obtain ⟨hash', hkey', hj'⟩ := hcached j _ (List.getElem?_eq_getElem hj)
      obtain rfl : hash = hash' := Option.some.inj (hkey.symm.trans hkey')
      have hlt' := (List.getElem?_eq_some_iff.mp hi').1
      have hsame := (List.getElem?_inj hlt' (Chained.nodup hfree hchained)).mp (hi'.trans hj'.symm)
      omega
    · simpa using hcached
    · exact lt_of_le_of_lt (Nat.mul_le_mul_right _ hlength) hlt

end KVCacheManager

end Spexis.V1
