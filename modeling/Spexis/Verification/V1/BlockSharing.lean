import Spexis.Library.Transition
import Spexis.Verification.V1.KVCacheManager

/-! # The block pool under sharing

The calls that the scheduler makes of the manager, in any order it can make them, keep the free
queue, the reference counts and the hash index in order. -/

namespace Spexis.V1

open Python Transition

inductive Phase where
  | unknown
  | waiting
  | running
  /-- The blocks of the finished request have been freed. -/
  | freed
  deriving DecidableEq, Repr

/-- The manager with what its caller knows of the requests. -/
structure Session where
  manager : KVCacheManager
  request : ReqId → Request
  phase : ReqId → Phase
  /-- The result of `get_computed_blocks`, which is only used by the next call. -/
  searched : Option (ReqId × List BlockId × ℕ)

inductive Call where
  | addRequest (q : ReqId) (r : Request)
  | appendOutputToken (q : ReqId) (tokenId : TokenId)
  | getComputedBlocks (q : ReqId)
  /-- For the request that has just been searched for. -/
  | allocateWaiting (q : ReqId) (numTokens : ℕ)
  | allocateRunning (q : ReqId) (numTokens : ℕ)
  | preempt (q : ReqId)
  | free (q : ReqId)
  | freeBlockHashes (q : ReqId)
  | resetPrefixCache

/-- A request without drafts that fits the model and whose hashes can be computed. -/
structure Request.Plain (cfg : KVCacheConfig) (r : Request) : Prop where
  hashable : r.Hashable
  specTokenIds : r.specTokenIds = []
  numTokens_pos : 0 < r.numTokens
  numTokens_le : r.numTokens ≤ cfg.maxModelLen

theorem KVCacheConfig.PrefixCaching.le_maxNumBlocksPerReq {cfg : KVCacheConfig}
    (hcfg : cfg.PrefixCaching) {f : ℕ} (h : f * cfg.blockSize ≤ cfg.maxModelLen) :
    f ≤ cfg.maxNumBlocksPerReq :=
  Nat.le_of_mul_le_mul_right (h.trans (le_cdiv_mul hcfg.blockSize_pos)) hcfg.blockSize_pos

namespace Session

variable {cfg : KVCacheConfig} {s s' t : Session} {call : Call} {calls : List Call} {q : ReqId}

def start (m : KVCacheManager) : Session where
  manager := m
  request := fun _ => { toRequest := .init [] { maxTokens := 0 } none }
  phase := fun _ => .unknown
  searched := none

/-- When the scheduler makes a call. -/
def Legal (cfg : KVCacheConfig) (s : Session) : Call → Prop
  | .addRequest q r => s.phase q = .unknown ∧ r.Plain cfg ∧ r.numComputedTokens = 0
  | .appendOutputToken q _ => s.phase q = .running ∧ (s.request q).numTokens < cfg.maxModelLen
  | .getComputedBlocks q => s.phase q = .waiting
  | .allocateWaiting q numTokens => ∃ computed numComputedTokens,
      s.searched = some (q, computed, numComputedTokens) ∧ 0 < numTokens ∧
        numComputedTokens + numTokens ≤ (s.request q).numTokens
  | .allocateRunning q numTokens => s.phase q = .running ∧ 0 < numTokens ∧
      (s.request q).numComputedTokens + numTokens ≤ (s.request q).numTokens
  | .preempt q => s.phase q = .running
  | .free q => s.phase q = .running ∨ s.phase q = .waiting
  | .freeBlockHashes q => s.phase q = .freed
  | .resetPrefixCache => True

/-- A request whose number of computed tokens changes. -/
def setComputed (s : Session) (q : ReqId) (numComputedTokens : ℕ) : ReqId → Request :=
  Function.update s.request q { s.request q with numComputedTokens := numComputedTokens }

/-- The call, and what its caller makes of the result. -/
def perform (cfg : KVCacheConfig) (s : Session) : Call → Except PyError Session
  | .addRequest q r =>
    .ok { s with
      request := Function.update s.request q r
      phase := Function.update s.phase q .waiting
      searched := none }
  | .appendOutputToken q tokenId =>
    .ok { s with
      request := Function.update s.request q ((s.request q).appendOutputTokenId tokenId)
      searched := none }
  | .getComputedBlocks q => do
    let ((computed, numComputedTokens), m) ← s.manager.getComputedBlocks cfg q (s.request q)
    return { s with manager := m, searched := some (q, computed, numComputedTokens) }
  | .allocateWaiting q numTokens => do
    let (computed, numComputedTokens) :=
      match s.searched with
      | none => ([], 0)
      | some (_, computed, numComputedTokens) => (computed, numComputedTokens)
    let (newBlocks, m) ← s.manager.allocateSlots cfg q (s.request q) numTokens computed 0
    return match newBlocks with
      | none => { s with manager := m, searched := none }
      | some _ => { s with
          manager := m
          request := s.setComputed q (numComputedTokens + numTokens)
          phase := Function.update s.phase q .running
          searched := none }
  | .allocateRunning q numTokens => do
    let (newBlocks, m) ← s.manager.allocateSlots cfg q (s.request q) numTokens [] 0
    return match newBlocks with
      | none => { s with manager := m, searched := none }
      | some _ => { s with
          manager := m
          request := s.setComputed q ((s.request q).numComputedTokens + numTokens)
          searched := none }
  | .preempt q => do
    let m ← s.manager.free cfg q
    return { s with
      manager := m
      request := s.setComputed q 0
      phase := Function.update s.phase q .waiting
      searched := none }
  | .free q => do
    let m ← s.manager.free cfg q
    return { s with
      manager := m
      phase := Function.update s.phase q .freed
      searched := none }
  | .freeBlockHashes q =>
    .ok { s with
      manager := s.manager.freeBlockHashes q
      phase := Function.update s.phase q .unknown
      searched := none }
  | .resetPrefixCache => .ok { s with manager := s.manager.resetPrefixCache.2, searched := none }

def Step (cfg : KVCacheConfig) (s : Session) (call : Call) (s' : Session) : Prop :=
  s.Legal cfg call ∧ s.perform cfg call = .ok s'

/-! ## What the manager keeps of each request -/

/-- What the manager keeps of a request, by its phase. -/
inductive Kept (cfg : KVCacheConfig) (m : KVCacheManager) (q : ReqId) (r : Request) :
    Phase → Prop where
  | unknown (hblocks : m.reqToBlocks q = []) (hcached : m.numCachedBlock q = none)
      (hhashes : m.reqToBlockHashes q = []) : Kept cfg m q r .unknown
  | freed (hblocks : m.reqToBlocks q = []) (hcached : m.numCachedBlock q = none) :
      Kept cfg m q r .freed
  | waiting (hr : r.Plain cfg) (hzero : r.numComputedTokens = 0) (hblocks : m.reqToBlocks q = [])
      (hcached : m.numCachedBlock q = none) (hold : m.Holding cfg q r [] 0) :
      Kept cfg m q r .waiting
  | running (hr : r.Plain cfg) (hcomputed : r.numComputedTokens ≤ r.numTokens)
      (hlength : r.numComputedTokens ≤ (m.reqToBlocks q).length * cfg.blockSize)
      (hcached : m.numCachedBlock q = some ((r.numComputedTokens / cfg.blockSize : ℕ) : ℤ))
      (hold : m.Holding cfg q r (m.reqToBlocks q) (r.numComputedTokens / cfg.blockSize)) :
      Kept cfg m q r .running

/-- The invariant of a session. -/
structure Sound (cfg : KVCacheConfig) (s : Session) : Prop where
  pooled : ∃ free, s.manager.Pooled cfg free
  kept : ∀ q, Kept cfg s.manager q (s.request q) (s.phase q)
  searched : ∀ q computed numComputedTokens, s.searched = some (q, computed, numComputedTokens) →
    s.phase q = .waiting ∧ numComputedTokens = computed.length * cfg.blockSize ∧
      s.manager.Computed cfg q (s.request q) computed

variable {m m' : KVCacheManager} {r r' : Request} {phase : Phase}

/-- What a call does not change of a request stays kept. -/
theorem Kept.congr (h : Kept cfg m q r phase) (hblocks : m'.reqToBlocks q = m.reqToBlocks q)
    (hcached : m'.numCachedBlock q = m.numCachedBlock q)
    (hhashes : m'.reqToBlockHashes q = m.reqToBlockHashes q)
    (hkeys : ∀ b ∈ m.reqToBlocks q, m'.blockPool.blockHash b = m.blockPool.blockHash b) :
    Kept cfg m' q r phase := by
  cases h with
  | unknown h₁ h₂ h₃ => exact .unknown (hblocks.trans h₁) (hcached.trans h₂) (hhashes.trans h₃)
  | freed h₁ h₂ => exact .freed (hblocks.trans h₁) (hcached.trans h₂)
  | waiting hr hzero h₁ h₂ hold =>
      exact .waiting hr hzero (hblocks.trans h₁) (hcached.trans h₂)
        (hold.congr hhashes (fun _ hb => absurd hb List.not_mem_nil) le_rfl)
  | running hr hcomputed hlength h₂ hold =>
      refine .running hr hcomputed (hblocks ▸ hlength) (hcached.trans h₂) ?_
      rw [hblocks]
      exact hold.congr hhashes hkeys le_rfl

theorem addRequest_sound (h : s.Sound cfg) (hlegal : s.Legal cfg (.addRequest q r)) :
    ∃ s', s.perform cfg (.addRequest q r) = .ok s' ∧ s'.Sound cfg := by
  obtain ⟨hphase, hr, hzero⟩ := hlegal
  refine ⟨_, rfl, h.pooled, fun q' => ?_, nofun⟩
  by_cases hq : q' = q
  · subst hq
    have hkept := h.kept q'
    rw [hphase] at hkept
    cases hkept with
    | unknown hblocks hcached hhashes =>
        simp only [Function.update_self]
        refine .waiting hr hzero hblocks hcached ⟨?_, ?_, by simp, by simp⟩
        · rw [hhashes]
          trivial
        · simp [hhashes]
  · simpa [Function.update_of_ne hq] using h.kept q'

theorem appendOutputToken_sound {tokenId : TokenId} (h : s.Sound cfg)
    (hlegal : s.Legal cfg (.appendOutputToken q tokenId)) :
    ∃ s', s.perform cfg (.appendOutputToken q tokenId) = .ok s' ∧ s'.Sound cfg := by
  obtain ⟨hphase, hlt⟩ := hlegal
  refine ⟨_, rfl, h.pooled, fun q' => ?_, nofun⟩
  by_cases hq : q' = q
  · subst hq
    have hkept := h.kept q'
    rw [hphase] at hkept
    simp only [Function.update_self, hphase]
    cases hkept with
    | running hr hcomputed hlength hcached hold =>
        have hlonger := (s.request q').appendOutputTokenId_numTokens tokenId
        refine .running ⟨hr.hashable, hr.specTokenIds, ?_, ?_⟩ ?_ hlength hcached
          (hold.congr rfl (fun _ _ => rfl) ?_)
        · rw [hlonger]
          exact Nat.succ_pos _
        · rw [hlonger]
          exact hlt
        · rw [hlonger]
          exact hcomputed.trans (Nat.le_succ _)
        · rw [hlonger]
          exact Nat.le_succ _
  · simpa [Function.update_of_ne hq] using h.kept q'

theorem getComputedBlocks_sound (hcfg : cfg.PrefixCaching) (hfree : cfg.CollisionFree)
    (h : s.Sound cfg) (hlegal : s.Legal cfg (.getComputedBlocks q)) :
    ∃ s', s.perform cfg (.getComputedBlocks q) = .ok s' ∧ s'.Sound cfg := by
  have hphase : s.phase q = .waiting := hlegal
  obtain ⟨free, hpooled⟩ := h.pooled
  have hkept := h.kept q
  rw [hphase] at hkept
  cases hkept with
  | waiting hr hzero hblocks hcached hold =>
      obtain ⟨computed, m', hashes, heq, hm', hold', hcomputed⟩ :=
        KVCacheManager.getComputedBlocks_ok hcfg hfree hr.hashable hpooled hr.numTokens_pos hold
      refine ⟨{ s with
        manager := m', searched := some (q, computed, computed.length * cfg.blockSize) }, ?_,
        ⟨free, ?_⟩, fun q' => ?_, ?_⟩
      · simp only [perform, heq, ok_bind]
        rfl
      · rw [hm']
        exact ⟨hpooled.numGpuBlocks, hpooled.caching, hpooled.queue, hpooled.sharing,
          hpooled.indexed, hpooled.hashed, hpooled.exclusive⟩
      · by_cases hq : q' = q
        · subst hq
          simp only [hphase]
          exact .waiting hr hzero (by rw [hm']; exact hblocks) (by rw [hm']; exact hcached) hold'
        · rw [hm']
          exact (h.kept q').congr rfl rfl (Function.update_of_ne hq _ _) (fun _ _ => rfl)
      · rintro q' computed' num ⟨⟩
        exact ⟨hphase, rfl, hcomputed⟩

/-! ## Allocation -/

/-- A request that gets blocks for its next tokens is kept as a running one. -/
theorem kept_of_allocated {computed newBlocks : List BlockId} {k n : ℕ} (hcfg : cfg.PrefixCaching)
    (hr : r.Plain cfg)
    (hle : r.numComputedTokens + computed.length * cfg.blockSize + n ≤ r.numTokens)
    (h : KVCacheManager.Allocated cfg m m' q r computed newBlocks k
      ((r.numComputedTokens + computed.length * cfg.blockSize + n) / cfg.blockSize)
      (KVCacheManager.numRequiredBlocks cfg r computed.length n 0)) :
    Kept cfg m' q { r with
      numComputedTokens := r.numComputedTokens + computed.length * cfg.blockSize + n } .running := by
  have hblocks : m'.reqToBlocks q = m.reqToBlocks q ++ computed ++ newBlocks := by
    rw [h.reqToBlocks, Function.update_self]
  have hrequired : KVCacheManager.numRequiredBlocks cfg r computed.length n 0 ≤
      cfg.maxNumBlocksPerReq :=
    (cdiv_le_iff hcfg.blockSize_pos).mpr
      ((hle.trans hr.numTokens_le).trans (le_cdiv_mul hcfg.blockSize_pos))
  refine .running ⟨hr.hashable, hr.specTokenIds, hr.numTokens_pos, hr.numTokens_le⟩ hle ?_ ?_ ?_
  · have hlength := h.length
    rw [min_eq_left hrequired] at hlength
    rw [hblocks]
    exact (le_cdiv_mul hcfg.blockSize_pos).trans (Nat.mul_le_mul_right _ hlength)
  · rw [h.numCachedBlock, Function.update_self]
  · rw [hblocks]
    exact h.holding.congr rfl (fun _ _ => rfl) le_rfl

/-- An allocation for a request that is not freed: it succeeds, or it is refused. -/
theorem allocate_sound {computed : List BlockId} {k n : ℕ} (hcfg : cfg.PrefixCaching)
    (h : s.Sound cfg) (hr : (s.request q).Plain cfg) (hn : 0 < n)
    (hle : (s.request q).numComputedTokens + computed.length * cfg.blockSize + n ≤
      (s.request q).numTokens)
    (hcomp : computed.Nodup) (hnew : ∀ b ∈ computed, b ∉ s.manager.reqToBlocks q)
    (hhashed : ∀ b ∈ computed, ∃ h, s.manager.blockPool.blockHash b = some h)
    (hhold : s.manager.Holding cfg q (s.request q) (s.manager.reqToBlocks q ++ computed) k)
    (hk : (s.manager.numCachedBlock q).getD computed.length = (k : ℤ))
    (hkf : k * cfg.blockSize ≤
      (s.request q).numComputedTokens + computed.length * cfg.blockSize) :
    s.manager.allocateSlots cfg q (s.request q) n computed 0 = .ok (none, s.manager) ∨
    ∃ newBlocks m', s.manager.allocateSlots cfg q (s.request q) n computed 0 =
        .ok (some newBlocks, m') ∧
      Sound cfg { s with
        manager := m'
        request := s.setComputed q
          ((s.request q).numComputedTokens + computed.length * cfg.blockSize + n)
        phase := Function.update s.phase q .running
        searched := none } := by
  obtain ⟨free, hpooled⟩ := h.pooled
  have hfloor := Nat.div_mul_le_self
    ((s.request q).numComputedTokens + computed.length * cfg.blockSize + n) cfg.blockSize
  have hfull : (((s.request q).numComputedTokens + computed.length * cfg.blockSize + n : ℤ) -
      (s.request q).specTokenIds.length) / cfg.blockSize =
        (((s.request q).numComputedTokens + computed.length * cfg.blockSize + n) /
          cfg.blockSize : ℕ) := by
    rw [hr.specTokenIds]
    simp
  have hroom : KVCacheManager.numRequiredBlocks cfg (s.request q) computed.length n 0 ≤
      cfg.maxNumBlocksPerReq :=
    (cdiv_le_iff hcfg.blockSize_pos).mpr
      ((hle.trans hr.numTokens_le).trans (le_cdiv_mul hcfg.blockSize_pos))
  have hkf' : k ≤ ((s.request q).numComputedTokens + computed.length * cfg.blockSize + n) /
      cfg.blockSize :=
    (Nat.le_div_iff_mul_le hcfg.blockSize_pos).mpr (hkf.trans (Nat.le_add_right _ _))
  rcases KVCacheManager.allocateSlots_ok hcfg hr.hashable hpooled hn
    hcomp hnew hhashed hhold hk hfull hkf'
    (hcfg.le_maxNumBlocksPerReq ((hfloor.trans hle).trans hr.numTokens_le)) (hfloor.trans hle)
    (fun hlt => lt_of_lt_of_le hlt hroom) with hrefused | ⟨newBlocks, m', heq, halloc⟩
  · exact .inl hrefused
  · refine .inr ⟨newBlocks, m', heq, halloc.pooled, fun q' => ?_, nofun⟩
    by_cases hq : q' = q
    · subst hq
      simp only [setComputed, Function.update_self]
      exact kept_of_allocated hcfg hr hle halloc
    · simp only [setComputed, Function.update_of_ne hq]
      refine (h.kept q').congr ?_ ?_ (halloc.blockHashes q' hq) (fun b hb => halloc.frame q' b hq hb)
      · rw [halloc.reqToBlocks, Function.update_of_ne hq]
      · rw [halloc.numCachedBlock, Function.update_of_ne hq]

/-- A session only forgets the result of a search. -/
theorem Sound.forget (h : s.Sound cfg) : Sound cfg { s with searched := none } :=
  ⟨h.pooled, h.kept, nofun⟩

theorem allocateWaiting_sound {n : ℕ} (hcfg : cfg.PrefixCaching) (h : s.Sound cfg)
    (hlegal : s.Legal cfg (.allocateWaiting q n)) :
    ∃ s', s.perform cfg (.allocateWaiting q n) = .ok s' ∧ s'.Sound cfg := by
  obtain ⟨computed, num, hsearched, hn, hle⟩ := hlegal
  obtain ⟨hphase, rfl, hcomputed⟩ := h.searched q computed num hsearched
  have hkept := h.kept q
  rw [hphase] at hkept
  cases hkept with
  | waiting hr hzero hblocks hcached hold =>
      have hcached' : ∀ b ∈ computed, ∃ h, s.manager.blockPool.blockHash b = some h := by
        intro b hb
        obtain ⟨i, hi⟩ := List.mem_iff_getElem?.mp hb
        obtain ⟨hash, hkey, -⟩ := hcomputed.cached i b hi
        exact ⟨hash, hkey⟩
      have hhold : s.manager.Holding cfg q (s.request q) (s.manager.reqToBlocks q ++ computed)
          computed.length := by
        rw [hblocks, List.nil_append]
        refine ⟨hold.chained, hold.hashes_le, fun i hi => ?_, fun i b hi hget => ?_⟩
        · obtain ⟨hash, hkey, hhash⟩ := hcomputed.cached i _ (List.getElem?_eq_getElem hi)
          exact ⟨_, hash, List.getElem?_eq_getElem hi, hkey, hhash⟩
        · rw [List.getElem?_eq_none hi] at hget
          cases hget
      unfold perform
      simp only [hsearched]
      rcases allocate_sound (n := n) hcfg h hr hn (by omega) hcomputed.nodup (by simp [hblocks])
        hcached' hhold (by simp [hcached]) (by omega) with hrefused | ⟨newBlocks, m', heq, hsound⟩
      · rw [hrefused]
        exact ⟨_, rfl, h.forget⟩
      · rw [heq]
        rw [hzero, Nat.zero_add] at hsound
        exact ⟨_, rfl, hsound⟩

theorem allocateRunning_sound {n : ℕ} (hcfg : cfg.PrefixCaching) (h : s.Sound cfg)
    (hlegal : s.Legal cfg (.allocateRunning q n)) :
    ∃ s', s.perform cfg (.allocateRunning q n) = .ok s' ∧ s'.Sound cfg := by
  obtain ⟨hphase, hn, hle⟩ := hlegal
  have hkept := h.kept q
  rw [hphase] at hkept
  cases hkept with
  | running hr hcomputed hlength hcached hold =>
      simp only [perform]
      rcases allocate_sound (n := n) hcfg h hr hn (by simpa using hle)
        List.nodup_nil (by simp) (by simp) (by simpa using hold) (by simp [hcached])
        (by simpa using Nat.div_mul_le_self _ _) with hrefused | ⟨newBlocks, m', heq, hsound⟩
      · rw [hrefused]
        exact ⟨_, rfl, h.forget⟩
      · rw [heq]
        rw [List.length_nil, Nat.zero_mul, Nat.add_zero, ← hphase, Function.update_eq_self] at hsound
        exact ⟨_, rfl, hsound⟩

/-! ## Release -/

/-- The blocks of a request are freed, and it moves to a phase without blocks. -/
theorem free_sound (hcfg : cfg.PrefixCaching) (h : s.Sound cfg) (q : ReqId) :
    ∃ m', s.manager.free cfg q = .ok m' ∧ (∃ free, m'.Pooled cfg free) ∧
      (∀ q', q' ≠ q → Kept cfg m' q' (s.request q') (s.phase q')) ∧
      m'.reqToBlocks q = [] ∧ m'.numCachedBlock q = none ∧
      m'.reqToBlockHashes q = s.manager.reqToBlockHashes q := by
  obtain ⟨free, hpooled⟩ := h.pooled
  obtain ⟨m', free', heq, hpooled', hblocks, hhashes, hcached, hkeys⟩ :=
    KVCacheManager.free_ok hcfg hpooled q
  refine ⟨m', heq, ⟨free', hpooled'⟩, fun q' hq => ?_, by simp [hblocks], by simp [hcached],
    by rw [hhashes]⟩
  exact (h.kept q').congr (by rw [hblocks, Function.update_of_ne hq])
    (by rw [hcached, Function.update_of_ne hq]) (by rw [hhashes]) (fun _ _ => by rw [hkeys])

theorem preempt_sound (hcfg : cfg.PrefixCaching) (h : s.Sound cfg)
    (hlegal : s.Legal cfg (.preempt q)) :
    ∃ s', s.perform cfg (.preempt q) = .ok s' ∧ s'.Sound cfg := by
  have hphase : s.phase q = .running := hlegal
  obtain ⟨m', heq, hpooled, hothers, hblocks, hcached, hhashes⟩ := free_sound hcfg h q
  refine ⟨{ s with
      manager := m'
      request := s.setComputed q 0
      phase := Function.update s.phase q .waiting
      searched := none }, ?_, hpooled, fun q' => ?_, nofun⟩
  · simp only [perform, heq, ok_bind]
    rfl
  by_cases hq : q' = q
  · subst hq
    have hkept := h.kept q'
    rw [hphase] at hkept
    simp only [setComputed, Function.update_self]
    cases hkept with
    | running hr hcomputed hlength _ hold =>
        refine .waiting ⟨hr.hashable, hr.specTokenIds, hr.numTokens_pos, hr.numTokens_le⟩ rfl
          hblocks hcached ⟨hhashes ▸ hold.chained, hhashes ▸ hold.hashes_le, by simp, by simp⟩
  · simpa only [setComputed, Function.update_of_ne hq] using hothers q' hq

theorem finish_sound (hcfg : cfg.PrefixCaching) (h : s.Sound cfg) (q : ReqId) :
    ∃ s', s.perform cfg (.free q) = .ok s' ∧ s'.Sound cfg := by
  obtain ⟨m', heq, hpooled, hothers, hblocks, hcached, -⟩ := free_sound hcfg h q
  refine ⟨{ s with
      manager := m'
      phase := Function.update s.phase q .freed
      searched := none }, ?_, hpooled, fun q' => ?_, nofun⟩
  · simp only [perform, heq, ok_bind]
    rfl
  by_cases hq : q' = q
  · subst hq
    simp only [Function.update_self]
    exact .freed hblocks hcached
  · simpa only [Function.update_of_ne hq] using hothers q' hq

theorem freeBlockHashes_sound (h : s.Sound cfg) (hlegal : s.Legal cfg (.freeBlockHashes q)) :
    ∃ s', s.perform cfg (.freeBlockHashes q) = .ok s' ∧ s'.Sound cfg := by
  have hphase : s.phase q = .freed := hlegal
  obtain ⟨free, hpooled⟩ := h.pooled
  refine ⟨_, rfl, ⟨free, hpooled.numGpuBlocks, hpooled.caching, hpooled.queue, hpooled.sharing,
    hpooled.indexed, hpooled.hashed, hpooled.exclusive⟩, fun q' => ?_, nofun⟩
  by_cases hq : q' = q
  · subst hq
    have hkept := h.kept q'
    rw [hphase] at hkept
    simp only [Function.update_self]
    cases hkept with
    | freed hblocks hcached =>
        exact .unknown hblocks hcached (by simp [KVCacheManager.freeBlockHashes])
  · simp only [Function.update_of_ne hq]
    exact (h.kept q').congr rfl rfl (Function.update_of_ne hq _ _) (fun _ _ => rfl)

theorem resetPrefixCache_sound (hblocks : 0 < cfg.numBlocks) (h : s.Sound cfg) :
    ∃ s', s.perform cfg .resetPrefixCache = .ok s' ∧ s'.Sound cfg := by
  obtain ⟨free, hpooled⟩ := h.pooled
  obtain ⟨hpooled', hlists, hhashes, hcached, hkeys⟩ :=
    KVCacheManager.resetPrefixCache_ok hpooled hblocks
  refine ⟨_, rfl, ⟨free, hpooled'⟩, fun q => ?_, nofun⟩
  refine (h.kept q).congr (by rw [hlists]) (by rw [hcached]) (by rw [hhashes]) (fun b hb => ?_)
  rcases hkeys with hkeys | hempty
  · rw [hkeys]
  · simp [hempty q] at hb

/-- Every call that the scheduler can make succeeds and keeps the invariant. -/
theorem perform_sound (hcfg : cfg.PrefixCaching) (hfree : cfg.CollisionFree)
    (hblocks : 0 < cfg.numBlocks) (h : s.Sound cfg) (hlegal : s.Legal cfg call) :
    ∃ s', s.perform cfg call = .ok s' ∧ s'.Sound cfg := by
  cases call with
  | addRequest q r => exact addRequest_sound h hlegal
  | appendOutputToken q tokenId => exact appendOutputToken_sound h hlegal
  | getComputedBlocks q => exact getComputedBlocks_sound hcfg hfree h hlegal
  | allocateWaiting q numTokens => exact allocateWaiting_sound hcfg h hlegal
  | allocateRunning q numTokens => exact allocateRunning_sound hcfg h hlegal
  | preempt q => exact preempt_sound hcfg h hlegal
  | free q => exact finish_sound hcfg h q
  | freeBlockHashes q => exact freeBlockHashes_sound h hlegal
  | resetPrefixCache => exact resetPrefixCache_sound hblocks h

/-! ## Runs -/

theorem start_sound {m : KVCacheManager} (hcfg : cfg.PrefixCaching)
    (hinit : KVCacheManager.init cfg = .ok m) : 0 < cfg.numBlocks ∧ (start m).Sound cfg := by
  simp only [KVCacheManager.init, BlockPool.init, bind_eq_ok, pure_eq_ok, pyAssert_eq_ok,
    Prod.exists] at hinit
  obtain ⟨pool, ⟨-, hpos, b, queue, hpop, rfl⟩, rfl⟩ := hinit
  have hqueue := FreeKVCacheBlockQueue.init_holds hpos
  rw [KVCacheManager.range_eq_cons_usableBlocks hpos] at hqueue
  obtain ⟨queue', hpop', hqueue'⟩ := hqueue.popleft_cons
  obtain ⟨rfl, rfl⟩ := Prod.mk.inj (Except.ok.inj (hpop.symm.trans hpop'))
  refine ⟨hpos, ⟨_, rfl, hcfg.enableCaching, hqueue', .start List.nodup_range.tail, .empty,
    (fun b hash hb => by cases hb), ?_⟩, fun q => .unknown rfl rfl rfl, ?_⟩
  · intro b q₁ q₂ _ hb
    cases hb
  · intro q computed numComputedTokens hsearched
    cases hsearched

end Session

/-- The free queue, the reference counts and the hash index of the pool. -/
structure KVCacheManager.BlockPoolSpec (m : KVCacheManager) : Prop where
  /-- Both walks of the queue visit the blocks without references, in opposite orders. -/
  queue : ∃ blocks, LinkedList.Walk m.blockPool.freeBlockQueue.nextFreeBlock
      m.blockPool.freeBlockQueue.freeListHead blocks ∧
    LinkedList.Walk m.blockPool.freeBlockQueue.prevFreeBlock
      m.blockPool.freeBlockQueue.freeListTail blocks.reverse ∧
    blocks.Nodup ∧
    (∀ b, b ∈ blocks ↔ b < m.blockPool.numGpuBlocks ∧ b ≠ nullBlock ∧ m.blockPool.refCnt b = 0) ∧
    m.blockPool.getNumFreeBlocks = blocks.length
  refCnt : ∀ b < m.blockPool.numGpuBlocks, b ≠ nullBlock →
    {q | b ∈ m.reqToBlocks q}.Finite ∧
      m.blockPool.refCnt b = ({q | b ∈ m.reqToBlocks q}.ncard : ℤ)
  index : ∀ b h, (∃ blocks, m.blockPool.cachedBlockHashToBlock h = some blocks ∧ b ∈ blocks) ↔
    m.blockPool.blockHash b = some h
  entries : ∀ h, m.blockPool.cachedBlockHashToBlock h ≠ some []

theorem KVCacheManager.Pooled.blockPoolSpec {cfg : KVCacheConfig} {m : KVCacheManager}
    {free : List BlockId} (h : m.Pooled cfg free) : m.BlockPoolSpec := by
  have husable : ∀ b, b ∈ usableBlocks cfg ↔ b < m.blockPool.numGpuBlocks ∧ b ≠ nullBlock := by
    intro b
    rw [h.numGpuBlocks]
    exact mem_usableBlocks cfg b
  refine ⟨⟨free, ?_, ?_, h.sharing.nodup, fun b => ?_, h.queue.numFreeBlocks⟩, fun b hb hne => ?_,
    fun b hash => (h.indexed.key_iff b hash).symm, h.indexed.nonempty⟩
  · rw [h.queue.head]
    exact h.queue.linked.walk_forwards
  · rw [h.queue.tail]
    exact h.queue.linked.walk_backwards
  · rw [h.sharing.free_iff, husable, and_assoc]
  · exact ⟨h.sharing.owners_finite b, h.sharing.refs_eq b ((husable b).mpr ⟨hb, hne⟩)⟩

namespace Session

variable {cfg : KVCacheConfig} {s : Session} {calls : List Call}

def smallCache : KVCacheConfig where
  blockSize := 2
  numBlocks := 6
  maxModelLen := 8
  cachingHashFn := numberingHashFn
  noneHash := 1

def smallPrompt : Request where
  toRequest := .init [1, 2, 3] { maxTokens := 4 } none

/-- A prompt of one and a half blocks is scheduled, and its first block is cached. -/
theorem smallPrompt_run :
    ∃ m s, KVCacheManager.init smallCache = .ok m ∧
      Run (Step smallCache) (start m)
        [.addRequest 0 smallPrompt, .getComputedBlocks 0, .allocateWaiting 0 3] s ∧
      s.manager.numCachedBlock 0 = some 1 := by
  refine ⟨_, _, rfl, .cons ⟨⟨rfl, ⟨nofun, rfl, by decide, by decide⟩, rfl⟩, rfl⟩
    (.cons ⟨rfl, rfl⟩ (.single ⟨⟨_, _, rfl, by decide, by decide⟩, rfl⟩)), ?_⟩
  rfl

end Session

end Spexis.V1
