import Spexis.Library.InverseIndex
import Spexis.Library.Lists
import Spexis.Library.Sharing
import Spexis.Model.V1.KVCacheManager
import Spexis.Verification.V1.BlockHashes
import Spexis.Verification.V1.FreeQueue

/-! # Operations of the block pool

Each operation succeeds on a pool whose queue and hash index are in order, and says what it leaves. -/

namespace Spexis.V1

open Python

namespace BlockPool

variable {p p' : BlockPool} {free blocks : List BlockId} {b : BlockId} {h : BlockHashType}

/-- The hash index of the pool. -/
abbrev Indexed (p : BlockPool) : Prop :=
  InverseIndex p.blockHash p.cachedBlockHashToBlock

/-- One more reference to each of the blocks. -/
def addRefs (refCnt : BlockId → ℤ) (blocks : List BlockId) (b : BlockId) : ℤ :=
  if b ∈ blocks then refCnt b + 1 else refCnt b

/-- One reference less to each of the blocks. -/
def dropRefs (refCnt : BlockId → ℤ) (blocks : List BlockId) (b : BlockId) : ℤ :=
  if b ∈ blocks then refCnt b - 1 else refCnt b

@[simp] theorem addRefs_nil (refCnt : BlockId → ℤ) : addRefs refCnt [] = refCnt := rfl

@[simp] theorem dropRefs_nil (refCnt : BlockId → ℤ) : dropRefs refCnt [] = refCnt := rfl

theorem addRefs_cons (refCnt : BlockId → ℤ) (hb : b ∉ blocks) :
    addRefs (Function.update refCnt b (refCnt b + 1)) blocks = addRefs refCnt (b :: blocks) := by
  funext c
  by_cases hc : c = b
  · subst hc
    simp [addRefs, hb]
  · simp [addRefs, hc]

theorem dropRefs_cons (refCnt : BlockId → ℤ) (hb : b ∉ blocks) :
    dropRefs (Function.update refCnt b (refCnt b - 1)) blocks = dropRefs refCnt (b :: blocks) := by
  funext c
  by_cases hc : c = b
  · subst hc
    simp [dropRefs, hb]
  · simp [dropRefs, hc]

/-! ## Taking blocks -/

theorem maybeEvictCachedBlock_eq (hidx : p.Indexed) (b : BlockId) :
    ∃ cached, p.maybeEvictCachedBlock b = .ok { p with
        blockHash := Function.update p.blockHash b none
        cachedBlockHashToBlock := cached } ∧
      InverseIndex (Function.update p.blockHash b none) cached := by
  unfold maybeEvictCachedBlock
  cases hb : p.blockHash b with
  | none =>
      have hsame : Function.update p.blockHash b none = p.blockHash := by
        rw [← hb, Function.update_eq_self]
      refine ⟨p.cachedBlockHashToBlock, ?_, ?_⟩
      · rw [hsame]
      · rw [hsame]
        exact hidx
  | some h =>
      obtain ⟨blocks, hblocks, hmem⟩ := hidx.mem hb
      refine ⟨_, ?_, hidx.erase hb hblocks⟩
      simp only [hblocks, if_pos hmem]

theorem popBlocks_eq (hcaching : p.enableCaching = true) (hidx : p.Indexed)
    (hqueue : p.freeBlockQueue.Holds free) (hzero : ∀ b ∈ free, p.refCnt b = 0) (n : ℕ)
    (hn : n ≤ free.length) :
    ∃ queue cached, popBlocks n p = .ok (free.take n, { p with
        refCnt := addRefs p.refCnt (free.take n)
        blockHash := fun b => if b ∈ free.take n then none else p.blockHash b
        freeBlockQueue := queue
        cachedBlockHashToBlock := cached }) ∧
      queue.Holds (free.drop n) ∧
      InverseIndex (fun b => if b ∈ free.take n then none else p.blockHash b) cached := by
  induction n generalizing p free with
  | zero =>
      refine ⟨p.freeBlockQueue, p.cachedBlockHashToBlock, ?_, ?_, ?_⟩
      · simp [popBlocks]
      · simpa using hqueue
      · simpa using hidx
  | succ n ih =>
      cases free with
      | nil => simp at hn
      | cons b free =>
          obtain ⟨hb, hfree⟩ := List.nodup_cons.mp hqueue.linked.nodup
          obtain ⟨queue, hpop, hqueue'⟩ := hqueue.popleft_cons
          obtain ⟨cached, hevict, hidx'⟩ :=
            maybeEvictCachedBlock_eq (p := { p with freeBlockQueue := queue }) hidx b
          have hzero' : ∀ c ∈ free, Function.update p.refCnt b (p.refCnt b + 1) c = 0 := by
            intro c hc
            have hne : c ≠ b := fun heq => hb (heq ▸ hc)
            rw [Function.update_of_ne hne]
            exact hzero c (List.mem_cons_of_mem _ hc)
          obtain ⟨queue', cached', hrest, hqueue'', hidx''⟩ := ih
            (p := { p with
              refCnt := Function.update p.refCnt b (p.refCnt b + 1)
              blockHash := Function.update p.blockHash b none
              freeBlockQueue := queue
              cachedBlockHashToBlock := cached })
            hcaching hidx' hqueue' hzero' (by simpa using hn)
          have hhash : (fun c => if c ∈ free.take n then none
              else Function.update p.blockHash b none c) =
                fun c => if c ∈ (b :: free).take (n + 1) then none else p.blockHash c := by
            funext c
            by_cases hc : c = b
            · subst hc
              simp
            · simp [hc]
          have hrefs := addRefs_cons p.refCnt (fun hmem => hb (List.mem_of_mem_take hmem) :
            b ∉ free.take n)
          refine ⟨queue', cached', ?_, hqueue'', hhash ▸ hidx''⟩
          unfold popBlocks
          rw [hpop]
          simp only [ok_bind, hzero b List.mem_cons_self, pyAssert, ite_true, if_pos hcaching]
          rw [hevict]
          simp only [ok_bind, incrRef, hrest, hhash, hrefs, List.take_succ_cons]
          rfl

/-- The first blocks of the queue, which lose their hashes. -/
theorem getNewBlocks_eq (hcaching : p.enableCaching = true) (hidx : p.Indexed)
    (hqueue : p.freeBlockQueue.Holds free) (hzero : ∀ b ∈ free, p.refCnt b = 0) (n : ℕ)
    (hn : n ≤ free.length) :
    ∃ queue cached, getNewBlocks n p = .ok (free.take n, { p with
        refCnt := addRefs p.refCnt (free.take n)
        blockHash := fun b => if b ∈ free.take n then none else p.blockHash b
        freeBlockQueue := queue
        cachedBlockHashToBlock := cached }) ∧
      queue.Holds (free.drop n) ∧
      InverseIndex (fun b => if b ∈ free.take n then none else p.blockHash b) cached := by
  have hfree : ¬ (n : ℤ) > p.getNumFreeBlocks := by
    rw [getNumFreeBlocks, hqueue.numFreeBlocks]
    omega
  rw [getNewBlocks, if_neg hfree]
  exact popBlocks_eq hcaching hidx hqueue hzero n hn

/-! ## Sharing and freeing blocks -/

theorem touch_eq (hqueue : p.freeBlockQueue.Holds free) (hnodup : blocks.Nodup)
    (hnull : nullBlock ∉ blocks) (hzero : ∀ b ∈ blocks, b ∈ free ↔ p.refCnt b = 0) :
    ∃ queue, p.touch blocks = { p with
        refCnt := addRefs p.refCnt blocks
        freeBlockQueue := queue } ∧
      queue.Holds (free.filter (· ∉ blocks)) := by
  induction blocks generalizing p free with
  | nil =>
      refine ⟨p.freeBlockQueue, ?_, by simpa using hqueue⟩
      simp [touch]
  | cons b blocks ih =>
      obtain ⟨hb, hblocks⟩ := List.nodup_cons.mp hnodup
      simp only [List.mem_cons, not_or] at hnull
      have hzero' : ∀ c ∈ blocks, Function.update p.refCnt b (p.refCnt b + 1) c = p.refCnt c := by
        intro c hc
        have hne : c ≠ b := fun heq => hb (heq ▸ hc)
        rw [Function.update_of_ne hne]
      have hrefs := addRefs_cons p.refCnt hb
      unfold touch
      by_cases hfree : p.refCnt b = 0
      · have hmem : b ∈ free := (hzero b List.mem_cons_self).mpr hfree
        rw [if_pos ⟨hfree, Ne.symm hnull.1⟩]
        obtain ⟨queue, htouch, hqueue'⟩ := ih
          (p := incrRef { p with freeBlockQueue := p.freeBlockQueue.remove b } b)
          (hqueue.remove hmem) hblocks hnull.2 (fun c hc => by
            have hne : c ≠ b := fun heq => hb (heq ▸ hc)
            rw [List.mem_erase_of_ne hne, hzero c (List.mem_cons_of_mem _ hc)]
            exact (hzero' c hc) ▸ Iff.rfl)
        refine ⟨queue, ?_, ?_⟩
        · rw [htouch]
          simp only [incrRef, hrefs]
        · have hfilter : (free.erase b).filter (· ∉ blocks) = free.filter (· ∉ b :: blocks) := by
            rw [hqueue.linked.nodup.erase_eq_filter, List.filter_filter]
            refine List.filter_congr (fun c _ => ?_)
            by_cases hc : c = b <;> simp [hc, hb]
          rwa [← hfilter]
      · have hmem : b ∉ free := fun hmem => hfree ((hzero b List.mem_cons_self).mp hmem)
        rw [if_neg (fun h => hfree h.1)]
        obtain ⟨queue, htouch, hqueue'⟩ := ih (p := incrRef p b) hqueue hblocks hnull.2
          (fun c hc => by
            rw [hzero c (List.mem_cons_of_mem _ hc)]
            exact (hzero' c hc) ▸ Iff.rfl)
        refine ⟨queue, ?_, ?_⟩
        · rw [htouch]
          simp only [incrRef, hrefs]
        · have hfilter : free.filter (· ∉ blocks) = free.filter (· ∉ b :: blocks) := by
            refine List.filter_congr (fun c hc => ?_)
            have hne : c ≠ b := fun heq => hmem (heq ▸ hc)
            simp [hne]
          rwa [← hfilter]

theorem freeBlocks_eq (hqueue : p.freeBlockQueue.Holds free) (hnodup : blocks.Nodup)
    (hnull : nullBlock ∉ blocks) (hfree : ∀ b ∈ blocks, b ∉ free) :
    ∃ queue, freeBlocks blocks p = .ok { p with
        refCnt := dropRefs p.refCnt blocks
        freeBlockQueue := queue } ∧
      queue.Holds (free ++ blocks.filter (p.refCnt · = 1)) := by
  induction blocks generalizing p free with
  | nil =>
      refine ⟨p.freeBlockQueue, ?_, by simpa using hqueue⟩
      simp [freeBlocks]
  | cons b blocks ih =>
      obtain ⟨hb, hblocks⟩ := List.nodup_cons.mp hnodup
      simp only [List.mem_cons, not_or] at hnull
      have hsame : ∀ c ∈ blocks, (p.decrRef b).refCnt c = p.refCnt c := by
        intro c hc
        have hne : c ≠ b := fun heq => hb (heq ▸ hc)
        exact Function.update_of_ne hne _ _
      have hfilter : blocks.filter ((p.decrRef b).refCnt · = 1) = blocks.filter (p.refCnt · = 1) :=
        List.filter_congr (fun c hc => by rw [hsame c hc])
      have hrefs := dropRefs_cons p.refCnt hb
      have hself : (p.decrRef b).refCnt b = p.refCnt b - 1 := Function.update_self _ _ _
      simp only [freeBlocks, freeBlock]
      by_cases hone : p.refCnt b = 1
      · have hgone : (p.decrRef b).refCnt b = 0 ∧ b ≠ nullBlock :=
          ⟨by rw [hself, hone]; rfl, Ne.symm hnull.1⟩
        obtain ⟨queue, happend, hqueue'⟩ :=
          hqueue.append (hfree b List.mem_cons_self)
        obtain ⟨queue', hrest, hqueue''⟩ := ih (p := { p.decrRef b with freeBlockQueue := queue })
          hqueue' hblocks hnull.2 (fun c hc => by
            have hne : c ≠ b := fun heq => hb (heq ▸ hc)
            simpa [hne] using hfree c (List.mem_cons_of_mem _ hc))
        refine ⟨queue', ?_, ?_⟩
        · rw [if_pos hgone]
          change ((do return { p.decrRef b with
            freeBlockQueue := ← p.freeBlockQueue.append b }) >>= _) = _
          rw [happend]
          exact hrest.trans (by simp only [decrRef, hrefs])
        · rw [hfilter, List.append_assoc] at hqueue''
          simpa [hone] using hqueue''
      · have hkept : ¬ ((p.decrRef b).refCnt b = 0 ∧ b ≠ nullBlock) := by
          rw [hself]
          omega
        rw [if_neg hkept, ok_bind]
        obtain ⟨queue, hrest, hqueue'⟩ := ih (p := p.decrRef b) hqueue hblocks hnull.2
          (fun c hc => hfree c (List.mem_cons_of_mem _ hc))
        refine ⟨queue, ?_, ?_⟩
        · rw [hrest]
          simp only [decrRef, hrefs]
        · rw [hfilter] at hqueue'
          simpa [hone] using hqueue'

/-! ## Caching full blocks -/

section Cache

variable {cfg : KVCacheConfig} {reqId : ReqId} {r : Request} {key key' : BlockId → Option BlockHashType}
  {known hashes hashes' : List BlockHashType} {k i : ℕ} {prev : Option ℕ}

/-- The blocks from the `start`-th one of the request on get their hashes. -/
structure Caching (cfg : KVCacheConfig) (r : Request) (key key' : BlockId → Option BlockHashType)
    (hashes hashes' : List BlockHashType) (start : ℕ) (blocks : List BlockId) : Prop where
  isPrefix : hashes <+: hashes'
  length_eq : hashes'.length = max hashes.length (start + blocks.length)
  chained : Chained cfg none hashes'
  cached : ∀ j b, blocks[j]? = some b → ∃ h, key' b = some h ∧ hashes'[start + j]? = some h
  frame : ∀ b ∉ blocks, key' b = key b
  computed : ∀ j h, hashes.length ≤ j → hashes'[j]? = some h →
    h.tokenIds = pySlice r.allTokenIds (j * cfg.blockSize) ((j + 1) * cfg.blockSize) ∧
    ∃ mmIdx, generateBlockHashExtraKeys r (j * cfg.blockSize : ℕ) ((j + 1) * cfg.blockSize : ℕ)
      (-1) = .ok (h.extraKeys, mmIdx)

theorem Caching.nil (hchained : Chained cfg none hashes) {start : ℕ} (hle : start ≤ hashes.length) :
    Caching cfg r key key hashes hashes start [] := by
  refine ⟨List.prefix_rfl, ?_, hchained, by simp, by simp, ?_⟩
  · simp only [List.length_nil, Nat.add_zero]
    omega
  · intro j h hj hget
    rw [List.getElem?_eq_none hj] at hget
    cases hget

theorem cacheBlock_eq (hidx : p.Indexed) (hb : p.blockHash b = none) (h : BlockHashType) :
    ∃ cached, p.cacheBlock b h = .ok { p with
        blockHash := Function.update p.blockHash b (some h)
        cachedBlockHashToBlock := cached } ∧
      InverseIndex (Function.update p.blockHash b (some h)) cached := by
  have hnot : b ∉ (p.cachedBlockHashToBlock h).getD [] := by
    intro hmem
    cases hblocks : p.cachedBlockHashToBlock h with
    | none => simp [hblocks] at hmem
    | some blocks =>
        have hkey := (hidx.key_iff b h).mpr ⟨blocks, hblocks, by simpa [hblocks] using hmem⟩
        rw [hb] at hkey
        cases hkey
  refine ⟨_, ?_, hidx.insert hb⟩
  simp only [cacheBlock, hb, pyAssert, ite_true, setAdd, if_neg hnot]
  rfl

theorem pySliceInt_nat {α : Type*} (xs : List α) (start stop : ℕ) (hstart : start ≤ xs.length)
    (hstop : stop ≤ xs.length) : pySliceInt xs start stop = pySlice xs start stop := by
  have h : ∀ n : ℕ, n ≤ xs.length → pySliceStart xs.length n = n := by
    intro n hn
    rw [pySliceStart, if_neg (by omega), Int.toNat_natCast, min_eq_left hn]
  rw [pySliceInt, h start hstart, h stop hstop]

/-- One iteration: the hash of the block is known, or it is computed and added. -/
theorem cacheFullBlocksLoop_cons (hr : r.Hashable) (hle : k + i ≤ hashes.length)
    (hknown : hashes = known ∨ known.length ≤ k + i ∧ hashes.length = k + i)
    (hchained : Chained cfg none hashes) (hprev : prev = lastHashValue (hashes.take (k + i)))
    (hnone : p.blockHash b = none) (htokens : (k + i + 1) * cfg.blockSize ≤ r.numTokens) :
    ∃ h hashes₁, cacheFullBlocksLoop cfg reqId r k (known.drop k) (b :: blocks) i prev hashes p =
        (p.cacheBlock b h >>= fun p => cacheFullBlocksLoop cfg reqId r k (known.drop k) blocks
          (i + 1) (some h.hashValue) hashes₁ p) ∧
      (hashes₁ = known ∨ known.length ≤ k + (i + 1) ∧ hashes₁.length = k + (i + 1)) ∧
      hashes₁[k + i]? = some h ∧ Caching cfg r p.blockHash
        (Function.update p.blockHash b (some h)) hashes hashes₁ (k + i) [b] := by
  have hassert : pyAssert (p.blockHash b = none) "" = .ok () := by simp [hnone]
  have hcached : ∀ (h : BlockHashType) (hashes₁ : List BlockHashType), hashes₁[k + i]? = some h →
      ∀ j c, [b][j]? = some c → ∃ h', Function.update p.blockHash b (some h) c = some h' ∧
        hashes₁[k + i + j]? = some h' := by
    intro h hashes₁ hget j c hc
    obtain ⟨hj, rfl⟩ := List.getElem?_eq_some_iff.mp hc
    obtain rfl : j = 0 := by simpa using hj
    exact ⟨h, by simp, hget⟩
  have hframe : ∀ (h : BlockHashType), ∀ c ∉ [b],
      Function.update p.blockHash b (some h) c = p.blockHash c := by
    intro h c hc
    exact Function.update_of_ne (by simpa using hc) _ _
  cases hget : (known.drop k)[i]? with
  | some h =>
      have heq := hget
      rw [List.getElem?_drop] at hget
      have hlt := (List.getElem?_eq_some_iff.mp hget).1
      have hsame : hashes = known := hknown.resolve_right (by omega)
      subst hsame
      refine ⟨h, hashes, by rw [cacheFullBlocksLoop, hassert, ok_bind, heq]; rfl, .inl rfl, hget, List.prefix_rfl, ?_, hchained, hcached h _ hget,
        hframe h, ?_⟩
      · simp only [List.length_singleton]
        omega
      · intro j h' hj hget'
        rw [List.getElem?_eq_none hj] at hget'
        cases hget'
  | none =>
      have heq := hget
      rw [List.getElem?_drop, List.getElem?_eq_none_iff] at hget
      have hlength : hashes.length = k + i := by
        rcases hknown with rfl | ⟨-, hlength⟩
        · omega
        · exact hlength
      obtain ⟨extraKeys, mmIdx, hkeys, -⟩ := generateBlockHashExtraKeys_ok hr
        (((k + i) * cfg.blockSize : ℕ) : ℤ) (((k + i + 1) * cfg.blockSize : ℕ) : ℤ)
        (show (-1 : ℤ) ≤ -1 from le_rfl)
      have hstart : ((k : ℤ) + i) * cfg.blockSize = (((k + i) * cfg.blockSize : ℕ) : ℤ) := by
        push_cast
        rfl
      have hstop : ((k : ℤ) + i + 1) * cfg.blockSize = (((k + i + 1) * cfg.blockSize : ℕ) : ℤ) := by
        push_cast
        rfl
      have hstep : (k + i + 1) * cfg.blockSize = (k + i) * cfg.blockSize + cfg.blockSize :=
        Nat.succ_mul _ _
      have hslice : pySliceInt r.allTokenIds (((k + i) * cfg.blockSize : ℕ) : ℤ)
          (((k + i + 1) * cfg.blockSize : ℕ) : ℤ) =
            pySlice r.allTokenIds ((k + i) * cfg.blockSize) ((k + i + 1) * cfg.blockSize) :=
        pySliceInt_nat _ _ _ (le_trans (by omega) htokens) htokens
      have hfull : (pySlice r.allTokenIds ((k + i) * cfg.blockSize)
          ((k + i + 1) * cfg.blockSize)).length = cfg.blockSize := by
        rw [pySlice_length _ _ _ htokens]
        omega
      have hlast : prev = lastHashValue hashes := by
        rw [hprev, ← hlength, List.take_length]
      obtain ⟨h, hh⟩ : ∃ h, h = hashBlockTokens cfg prev
        (pySlice r.allTokenIds ((k + i) * cfg.blockSize) ((k + i + 1) * cfg.blockSize))
          extraKeys := ⟨_, rfl⟩
      have hget' : (hashes ++ [h])[k + i]? = some h := by
        rw [← hlength, List.getElem?_concat_length]
      refine ⟨h, hashes ++ [h], ?_, .inr ⟨by omega, ?_⟩, hget', List.prefix_append _ _, ?_, ?_,
        hcached h _ hget', hframe h, ?_⟩
      · rw [cacheFullBlocksLoop, hassert, ok_bind, heq]
        simp only [hstart, hstop, hslice, pyAssert, hfull, ite_true, ok_bind, hkeys, ← hh]
      · simp [hlength, Nat.add_assoc]
      · simp only [List.length_append, List.length_singleton]
        omega
      · rw [hh, hlast]
        exact hchained.concat _ _
      · intro j h₁ hj hget₁
        have hj' : j = k + i := by
          have hlt := (List.getElem?_eq_some_iff.mp hget₁).1
          simp only [List.length_append, List.length_singleton] at hlt
          omega
        rw [hj', hget'] at hget₁
        obtain rfl := Option.some.inj hget₁
        rw [hj', hh]
        exact ⟨rfl, mmIdx, hkeys⟩

theorem Caching.trans {key₁ : BlockId → Option BlockHashType} {hashes₁ : List BlockHashType}
    {start : ℕ} (hle : start ≤ hashes.length)
    (h : Caching cfg r key key₁ hashes hashes₁ start [b])
    (h' : Caching cfg r key₁ key' hashes₁ hashes' (start + 1) blocks) (hb : b ∉ blocks) :
    Caching cfg r key key' hashes hashes' start (b :: blocks) := by
  obtain ⟨h₀, hkey, hget⟩ := h.cached 0 b rfl
  refine ⟨h.isPrefix.trans h'.isPrefix, ?_, h'.chained, ?_, ?_, ?_⟩
  · have hlength := h.length_eq
    have hlength' := h'.length_eq
    simp only [List.length_cons, List.length_nil] at hlength hlength' ⊢
    omega
  · intro j c hc
    cases j with
    | zero =>
        obtain rfl : b = c := by simpa using hc
        refine ⟨h₀, (h'.frame b hb).trans hkey, ?_⟩
        rw [← hget]
        exact (h'.isPrefix.getElem?_eq (List.getElem?_eq_some_iff.mp hget).1).symm
    | succ j =>
        obtain ⟨h₁, hkey₁, hget₁⟩ := h'.cached j c (by simpa using hc)
        exact ⟨h₁, hkey₁, by rwa [← Nat.add_assoc, Nat.add_right_comm]⟩
  · intro c hc
    simp only [List.mem_cons, not_or] at hc
    rw [h'.frame c hc.2, h.frame c (by simpa using hc.1)]
  · intro j h₁ hj hget₁
    by_cases hj' : hashes₁.length ≤ j
    · exact h'.computed j h₁ hj' hget₁
    · refine h.computed j h₁ hj ?_
      rw [← hget₁]
      exact h'.isPrefix.getElem?_eq (by omega)

theorem cacheFullBlocksLoop_ok (hr : r.Hashable) (hidx : p.Indexed) (hle : k + i ≤ hashes.length)
    (hknown : hashes = known ∨ known.length ≤ k + i ∧ hashes.length = k + i)
    (hchained : Chained cfg none hashes) (hprev : prev = lastHashValue (hashes.take (k + i)))
    (hnodup : blocks.Nodup) (hnone : ∀ b ∈ blocks, p.blockHash b = none)
    (htokens : (k + i + blocks.length) * cfg.blockSize ≤ r.numTokens) :
    ∃ hashes' key cached, cacheFullBlocksLoop cfg reqId r k (known.drop k) blocks i prev hashes p =
        .ok (hashes', { p with blockHash := key, cachedBlockHashToBlock := cached }) ∧
      InverseIndex key cached ∧ Caching cfg r p.blockHash key hashes hashes' (k + i) blocks := by
  induction blocks generalizing p i prev hashes with
  | nil =>
      exact ⟨hashes, p.blockHash, p.cachedBlockHashToBlock, rfl, hidx, .nil hchained hle⟩
  | cons b blocks ih =>
      obtain ⟨hb, hblocks⟩ := List.nodup_cons.mp hnodup
      simp only [List.length_cons] at htokens
      have hfirst : (k + i + 1) * cfg.blockSize ≤ r.numTokens :=
        le_trans (Nat.mul_le_mul_right _ (by omega)) htokens
      obtain ⟨h, hashes₁, heq, hknown₁, hget, hstep⟩ := cacheFullBlocksLoop_cons hr hle hknown hchained hprev (hnone b List.mem_cons_self) hfirst
      obtain ⟨cached, hcache, hidx'⟩ := cacheBlock_eq hidx (hnone b List.mem_cons_self) h
      have hlt : k + i < hashes₁.length := (List.getElem?_eq_some_iff.mp hget).1
      have hlast : some h.hashValue = lastHashValue (hashes₁.take (k + (i + 1))) := by
        rw [← Nat.add_assoc, List.take_add_one, hget]
        simp
      obtain ⟨hashes', key, cached', hrest, hidx'', hcaching⟩ := ih
        (p := { p with
          blockHash := Function.update p.blockHash b (some h)
          cachedBlockHashToBlock := cached })
        hidx' hlt hknown₁ hstep.chained hlast hblocks
        (fun c hc => by
          have hne : c ≠ b := fun heq => hb (heq ▸ hc)
          exact (Function.update_of_ne hne _ _).trans (hnone c (List.mem_cons_of_mem _ hc)))
        (le_trans (Nat.mul_le_mul_right _ (by omega)) htokens)
      refine ⟨hashes', key, cached', ?_, hidx'', hstep.trans hle hcaching hb⟩
      rw [heq, hcache, ok_bind, hrest]

/-- The full blocks that are not cached yet get their hashes. -/
theorem cacheFullBlocks_ok (q : ReqId) {f : ℕ} (hr : r.Hashable) (hidx : p.Indexed) (hkf : k ≤ f)
    (hf : f ≤ blocks.length) (hk : k ≤ hashes.length) (hchained : Chained cfg none hashes)
    (hnodup : blocks.Nodup)
    (hcached : 0 < k → ∃ b h, blocks[k - 1]? = some b ∧ p.blockHash b = some h ∧
      hashes[k - 1]? = some h)
    (hnone : ∀ b ∈ pySlice blocks k f, p.blockHash b = none)
    (htokens : f * cfg.blockSize ≤ r.numTokens) :
    ∃ hashes' key cached, cacheFullBlocks cfg q r blocks hashes k f p =
        .ok (hashes', { p with blockHash := key, cachedBlockHashToBlock := cached }) ∧
      InverseIndex key cached ∧
      Caching cfg r p.blockHash key hashes hashes' k (pySlice blocks k f) := by
  by_cases heq : k = f
  · subst heq
    refine ⟨hashes, p.blockHash, p.cachedBlockHashToBlock, if_pos rfl, hidx, ?_⟩
    have hnil : pySlice blocks k k = [] := by simp [pySlice]
    rw [hnil]
    exact .nil hchained hk
  · have hne : ¬ ((k : ℤ) = f) := by omega
    have hslice : pySliceInt blocks (k : ℤ) (f : ℤ) = pySlice blocks k f :=
      pySliceInt_nat _ _ _ (by omega) hf
    have hdrop : hashes.drop (pySliceStart hashes.length k) = hashes.drop k := by
      rw [pySliceStart, if_neg (by omega), Int.toNat_natCast, min_eq_left hk]
    have hprev : p.prevBlockHashValue blocks k = .ok (lastHashValue (hashes.take k)) := by
      unfold prevBlockHashValue
      cases k with
      | zero => rfl
      | succ k =>
          obtain ⟨b, h, hb, hkey, hget⟩ := hcached (Nat.succ_pos k)
          rw [Nat.add_sub_cancel] at hb hget
          have hget' : pyGet blocks (((k + 1 : ℕ) : ℤ) - 1) = .ok b := by
            rw [Nat.cast_succ, add_sub_cancel_right]
            exact pyGet_eq_ok_nat.mpr hb
          rw [if_neg (by omega), hget', ok_bind, hkey, List.take_add_one, hget]
          simp
    have hlength : (pySlice blocks k f).length = f - k := pySlice_length _ _ _ hf
    have hsub : (pySlice blocks k f).Nodup :=
      hnodup.sublist ((List.drop_sublist _ _).trans (List.take_sublist _ _))
    obtain ⟨hashes', key, cached, hloop, hidx', hcaching⟩ := cacheFullBlocksLoop_ok
      (i := 0) hr hidx hk (.inl rfl) hchained rfl hsub hnone
      (by rwa [hlength, Nat.add_zero, Nat.add_sub_cancel' hkf])
    refine ⟨hashes', key, cached, ?_, hidx', hcaching⟩
    have hlong : pyAssert ((hashes.length : ℤ) ≥ k) "" = .ok () := by simp [hk]
    rw [cacheFullBlocks, if_neg hne]
    simp only [hslice, hlong, hdrop, hprev, ok_bind]
    exact hloop

end Cache

end BlockPool

end Spexis.V1
