import Spexis.Verification.Requests

/-! # The prefix cache stays empty

The manager never commits a block, so a search for cached blocks finds none. -/

namespace Spexis

open Python

namespace BlockPool

/-! ## The pool -/

/-- No block is offered to the prefix cache. -/
structure Unhashed (p : BlockPool) : Prop where
  blockHash : ∀ b, p.blockHash b = none
  cached : ∀ h, p.cachedBlockHashToBlock h = []

variable {p p' : BlockPool}

theorem init_unhashed (n : ℕ) : (init n).Unhashed :=
  ⟨fun _ => rfl, fun _ => rfl⟩

theorem Unhashed.maybeEvictCachedBlock (h : p.Unhashed) (b : BlockId) :
    p.maybeEvictCachedBlock b = p := by
  simp [BlockPool.maybeEvictCachedBlock, h.blockHash b]

theorem Unhashed.freeBlock (h : p.Unhashed) (b : BlockId) : (p.freeBlock b).Unhashed := by
  simp only [BlockPool.freeBlock]
  split_ifs <;> exact ⟨h.blockHash, h.cached⟩

theorem Unhashed.freeBlocks (h : p.Unhashed) (blocks : List BlockId) :
    (p.freeBlocks blocks).Unhashed := by
  unfold BlockPool.freeBlocks
  induction blocks generalizing p with
  | nil => exact h
  | cons b blocks ih => exact ih (h.freeBlock b)

theorem Unhashed.touch (h : p.Unhashed) (blocks : List BlockId) : (p.touch blocks).Unhashed := by
  induction blocks generalizing p with
  | nil => exact h
  | cons b blocks ih =>
      apply ih
      split_ifs <;> exact ⟨h.blockHash, h.cached⟩

/-- A block that is not cached comes off the queue as it is. -/
theorem popBlocks_succ {enableCaching : Bool} {n : ℕ} {blocks : List BlockId} (hhash : p.Unhashed)
    (h : popBlocks enableCaching (n + 1) p = .ok (blocks, p')) :
    ∃ b queue rest, p.freeBlockQueue = b :: queue ∧ blocks = b :: rest ∧
      popBlocks enableCaching n (incrRef { p with freeBlockQueue := queue } b) = .ok (rest, p') := by
  simp only [popBlocks] at h
  split at h
  · cases h
  next b queue hqueue =>
    have hqueueHash : Unhashed { p with freeBlockQueue := queue } :=
      ⟨hhash.blockHash, hhash.cached⟩
    have hsame : (if enableCaching = true
        then BlockPool.maybeEvictCachedBlock { p with freeBlockQueue := queue } b
        else { p with freeBlockQueue := queue }) = { p with freeBlockQueue := queue } := by
      split_ifs
      · exact hqueueHash.maybeEvictCachedBlock b
      · rfl
    simp only [hsame, bind_eq_ok, pure_eq_ok, Prod.exists, Prod.mk.injEq] at h
    obtain ⟨_, -, rest, p₁, hrest, rfl, rfl⟩ := h
    exact ⟨b, queue, rest, hqueue, rfl, hrest⟩

theorem Unhashed.popBlocks {enableCaching : Bool} {n : ℕ} {blocks : List BlockId}
    (hhash : p.Unhashed) (h : popBlocks enableCaching n p = .ok (blocks, p')) : p'.Unhashed := by
  induction n generalizing p blocks with
  | zero =>
      cases h
      exact hhash
  | succ n ih =>
      obtain ⟨b, queue, rest, -, -, hrest⟩ := popBlocks_succ hhash h
      have hnext : (incrRef { p with freeBlockQueue := queue } b).Unhashed :=
        ⟨hhash.blockHash, hhash.cached⟩
      exact ih hnext hrest

end BlockPool

/-! ## The search -/

section Search

variable {p : BlockPool} (h : p.Unhashed)
include h

theorem getCachedBlock_eq_none (hash : BlockHash) : p.getCachedBlock hash = none := by
  simp [BlockPool.getCachedBlock, h.cached hash]

theorem fullFindLongestCacheHit_eq_nil (hashes : List BlockHash) :
    fullFindLongestCacheHit p hashes = [] := by
  cases hashes with
  | nil => rfl
  | cons hash hashes => simp [fullFindLongestCacheHit, getCachedBlock_eq_none h]

theorem slidingFindLongestCacheHit_eq_nil (contiguousBlocks : ℕ) (hashes : List BlockHash) (i : ℕ)
    (computedBlocks : List BlockId) :
    slidingFindLongestCacheHit p contiguousBlocks hashes i computedBlocks 0 = [] := by
  induction i with
  | zero => rfl
  | succ i ih =>
      have hnone : hashes[i]?.bind p.getCachedBlock = none := by
        cases hashes[i]? with
        | none => rfl
        | some hash => exact getCachedBlock_eq_none h hash
      simp only [slidingFindLongestCacheHit, hnone, ih]

theorem findLongestCacheHit_eq_nil (cfg : KVCacheConfig) (hashes : List BlockHash) :
    findLongestCacheHit cfg p hashes = [] := by
  unfold findLongestCacheHit
  split
  · exact fullFindLongestCacheHit_eq_nil h hashes
  · exact slidingFindLongestCacheHit_eq_nil h _ hashes _ _

end Search

namespace KVCacheManager

/-! ## The manager -/

variable {cfg : KVCacheConfig} {m m' : KVCacheManager} {reqId : ReqId} {r : Request}

theorem recordBlockHashes_frame (cfg : KVCacheConfig) (reqId : ReqId) (r : Request)
    (m : KVCacheManager) :
    (m.recordBlockHashes cfg reqId r).blockPool = m.blockPool ∧
      (m.recordBlockHashes cfg reqId r).reqToBlocks = m.reqToBlocks := by
  unfold recordBlockHashes
  split_ifs <;> exact ⟨rfl, rfl⟩

/-- The search only records hashes. -/
theorem getComputedBlocks_frame {result : List BlockId × ℕ}
    (h : m.getComputedBlocks cfg reqId r = .ok (result, m')) :
    m'.blockPool = m.blockPool ∧ m'.reqToBlocks = m.reqToBlocks := by
  unfold getComputedBlocks at h
  split_ifs at h
  · cases h
    exact recordBlockHashes_frame cfg reqId r m
  · simp only [bind_eq_ok, pure_eq_ok, Prod.mk.injEq] at h
    obtain ⟨searched, -, -, rfl⟩ := h
    exact recordBlockHashes_frame cfg reqId r m
  · cases h
    exact ⟨rfl, rfl⟩

/-- The prefix cache never has a block to offer. -/
theorem getComputedBlocks_eq_nil {result : List BlockId × ℕ} (hhash : m.blockPool.Unhashed)
    (h : m.getComputedBlocks cfg reqId r = .ok (result, m')) : result = ([], 0) := by
  unfold getComputedBlocks at h
  split_ifs at h
  · cases h
    rfl
  · simp only [bind_eq_ok, pure_eq_ok, Prod.mk.injEq] at h
    obtain ⟨searched, -, rfl, -⟩ := h
    rw [(recordBlockHashes_frame cfg reqId r m).1, findLongestCacheHit_eq_nil hhash]
    simp
  · cases h
    rfl

theorem commitFullBlocks_skip {computed n : ℕ}
    (h : m.commitFullBlocks cfg SPKVCacheManager.skipCacheFullBlocks reqId r computed n = .ok m') :
    m'.blockPool = m.blockPool ∧ m'.reqToBlocks = m.reqToBlocks := by
  unfold commitFullBlocks at h
  split_ifs at h
  · simp only [bind_eq_ok, pure_eq_ok, Prod.exists] at h
    obtain ⟨_, _, hskip, rfl⟩ := h
    cases hskip
    exact ⟨rfl, rfl⟩
  · cases h
    exact ⟨rfl, rfl⟩

theorem takeNewBlocks_unhashed {n lookahead : ℕ} {blocks : List BlockId}
    (hhash : m.blockPool.Unhashed) (h : m.takeNewBlocks cfg reqId n lookahead = .ok (blocks, m')) :
    m'.blockPool.Unhashed := by
  unfold takeNewBlocks at h
  split_ifs at h
  · cases h
    exact hhash
  · simp only [bind_eq_ok, pure_eq_ok, Prod.exists, Prod.mk.injEq] at h
    obtain ⟨_, -, _, pool, htake, -, rfl⟩ := h
    unfold BlockPool.getNewBlocks at htake
    split_ifs at htake
    exact hhash.popBlocks htake

/-- Allocation never fills the prefix cache. -/
theorem allocateSlots_unhashed {n lookahead : ℕ} {computedBlocks : List BlockId}
    {result : Option (List BlockId)} (hhash : m.blockPool.Unhashed)
    (h : SPKVCacheManager.allocateSlots cfg reqId r n computedBlocks lookahead m =
      .ok (result, m')) : m'.blockPool.Unhashed := by
  unfold SPKVCacheManager.allocateSlots allocateSlots at h
  split_ifs at h
  simp only [bind_eq_ok] at h
  obtain ⟨m₁, hdrop, h⟩ := h
  have hhash₁ : m₁.blockPool.Unhashed := by
    simp only [dropSkippedBlocks, bind_eq_ok, pure_eq_ok, Prod.exists] at hdrop
    obtain ⟨removed, _, -, rfl⟩ := hdrop
    exact hhash.freeBlocks removed
  split_ifs at h
  · cases h
    exact hhash₁
  · simp only [bind_eq_ok, Prod.exists] at h
    obtain ⟨m₂, htouch, _, m₃, htake, m₄, hcommit, rfl, rfl⟩ := h
    have hhash₂ : m₂.blockPool.Unhashed := by
      simp only [touchComputedBlocks, bind_eq_ok, pure_eq_ok] at htouch
      obtain ⟨_, -, rfl⟩ := htouch
      split_ifs
      · exact hhash₁.touch computedBlocks
      · exact hhash₁
    rw [(commitFullBlocks_skip hcommit).1]
    exact takeNewBlocks_unhashed hhash₂ htake

theorem free_unhashed (hhash : m.blockPool.Unhashed) : (m.free cfg reqId).blockPool.Unhashed :=
  hhash.freeBlocks _

end KVCacheManager

end Spexis
