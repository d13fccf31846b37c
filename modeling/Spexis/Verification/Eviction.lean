import Spexis.Verification.PrefixCache
import Spexis.Verification.Schedule

/-! # Evictions

The running loop makes room for a request by evicting the newest running requests, one
after the other, and never more of them than the allocation needs. -/

namespace Spexis

open Python

/-! ## The cache -/

/-- The removal leaves the entries from `i` on as they are. -/
theorem slidingRemoveSkippedBlocks_frame {i : ℕ} {blocks blocks' removed : List BlockId}
    (h : slidingRemoveSkippedBlocks i blocks = .ok (removed, blocks')) :
    ∀ j, i ≤ j → blocks'[j]? = blocks[j]? := by
  induction i generalizing blocks removed with
  | zero =>
      cases h
      exact fun _ _ => rfl
  | succ i ih =>
      simp only [slidingRemoveSkippedBlocks, bind_eq_ok] at h
      obtain ⟨b, -, h⟩ := h
      split_ifs at h
      · cases h
        exact fun _ _ => rfl
      · simp only [bind_eq_ok, pure_eq_ok, Prod.exists, Prod.mk.injEq] at h
        obtain ⟨removed', _, hrest, -, rfl⟩ := h
        intro j hj
        rw [ih hrest j (by omega), List.getElem?_set_ne (by omega)]

theorem slidingRemoveSkippedBlocks_removed {i : ℕ} {blocks blocks' removed : List BlockId}
    (h : slidingRemoveSkippedBlocks i blocks = .ok (removed, blocks')) :
    removed ⊆ blocks.take i := by
  induction i generalizing blocks removed with
  | zero =>
      cases h
      exact List.nil_subset _
  | succ i ih =>
      simp only [slidingRemoveSkippedBlocks, bind_eq_ok] at h
      obtain ⟨b, hget, h⟩ := h
      rw [pyGet_eq_ok_nat] at hget
      split_ifs at h
      · cases h
        exact List.nil_subset _
      · simp only [bind_eq_ok, pure_eq_ok, Prod.exists, Prod.mk.injEq] at h
        obtain ⟨removed', _, hrest, rfl, rfl⟩ := h
        have hlater := ih hrest
        rw [List.take_set_of_le le_rfl] at hlater
        rw [List.take_add_one, hget]
        intro x hx
        rcases List.mem_cons.mp hx with rfl | hx
        · simp
        · exact List.mem_append_left _ (hlater hx)

/-- Blocks outside the window are removed once and for all. -/
theorem slidingRemoveSkippedBlocks_idem {i : ℕ} {blocks blocks' removed : List BlockId}
    (h : slidingRemoveSkippedBlocks i blocks = .ok (removed, blocks')) :
    slidingRemoveSkippedBlocks i blocks' = .ok ([], blocks') := by
  cases i with
  | zero => rfl
  | succ i =>
      simp only [slidingRemoveSkippedBlocks, bind_eq_ok] at h
      obtain ⟨b, hget, h⟩ := h
      rw [pyGet_eq_ok_nat] at hget
      -- the last entry that could be removed is null afterwards
      have hnull : blocks'[i]? = some nullBlock := by
        split_ifs at h with hb
        · cases h
          rw [hget, hb]
        · simp only [bind_eq_ok, pure_eq_ok, Prod.exists, Prod.mk.injEq] at h
          obtain ⟨removed', _, hrest, -, rfl⟩ := h
          have hlen : i < blocks.length := (List.getElem?_eq_some_iff.mp hget).1
          rw [slidingRemoveSkippedBlocks_frame hrest i le_rfl, List.getElem?_set_self hlen]
      rw [slidingRemoveSkippedBlocks, pyGet_eq_ok_nat.mpr hnull]
      rfl

/-- The number of blocks that lie before the sliding window of the next token. -/
def numSkippedBlocks (cfg : KVCacheConfig) (numComputedTokens : ℕ) : ℕ :=
  match cfg.kvCacheSpec with
  | .fullAttention => 0
  | .slidingWindow window => (((numComputedTokens : ℤ) - window + 1) / cfg.blockSize).toNat

theorem removeSkippedBlocks_eq (cfg : KVCacheConfig) (numComputedTokens : ℕ)
    (blocks : List BlockId) : removeSkippedBlocks cfg blocks numComputedTokens =
      slidingRemoveSkippedBlocks (numSkippedBlocks cfg numComputedTokens) blocks := by
  unfold removeSkippedBlocks numSkippedBlocks
  cases cfg.kvCacheSpec <;> rfl

theorem removeSkippedBlocks_idem {cfg : KVCacheConfig} {numComputedTokens : ℕ}
    {blocks blocks' removed : List BlockId}
    (h : removeSkippedBlocks cfg blocks numComputedTokens = .ok (removed, blocks')) :
    removeSkippedBlocks cfg blocks' numComputedTokens = .ok ([], blocks') := by
  rw [removeSkippedBlocks_eq] at h ⊢
  exact slidingRemoveSkippedBlocks_idem h

namespace KVCacheManager

variable {cfg : KVCacheConfig} {m m' : KVCacheManager} {reqId : ReqId} {r : Request}

/-- The cache after the blocks outside the sliding window of a request have been freed. -/
def skipDropped (cfg : KVCacheConfig) (reqId : ReqId) (numComputedTokens : ℕ)
    (m : KVCacheManager) : KVCacheManager :=
  (m.dropSkippedBlocks cfg reqId numComputedTokens).toOption.getD m

/-- The cache after requests have been freed, the last one first. -/
def freeAll (cfg : KVCacheConfig) (reqIds : List ReqId) (m : KVCacheManager) : KVCacheManager :=
  reqIds.foldr (fun reqId m => m.free cfg reqId) m

theorem skipDropped_fullAttention (hfull : cfg.kvCacheSpec = .fullAttention)
    (numComputedTokens : ℕ) : m.skipDropped cfg reqId numComputedTokens = m := by
  unfold skipDropped dropSkippedBlocks removeSkippedBlocks
  rw [hfull]
  change { m with
    blockPool := m.blockPool.freeBlocks []
    reqToBlocks := Function.update m.reqToBlocks reqId (m.reqToBlocks reqId) } = m
  rw [Function.update_eq_self]
  rfl

@[simp] theorem free_reqToBlocks (cfg : KVCacheConfig) (reqId : ReqId) (m : KVCacheManager) :
    (m.free cfg reqId).reqToBlocks = Function.update m.reqToBlocks reqId [] := rfl

theorem freeAll_reqToBlocks_of_notMem {reqIds : List ReqId} {q : ReqId} (h : q ∉ reqIds) :
    (m.freeAll cfg reqIds).reqToBlocks q = m.reqToBlocks q := by
  induction reqIds with
  | nil => rfl
  | cons p reqIds ih =>
      rw [List.mem_cons, not_or] at h
      rw [freeAll, List.foldr_cons, free_reqToBlocks, Function.update_of_ne h.1]
      exact ih h.2

theorem freeAll_reqToBlocks_of_mem {reqIds : List ReqId} {q : ReqId} (h : q ∈ reqIds) :
    (m.freeAll cfg reqIds).reqToBlocks q = [] := by
  induction reqIds with
  | nil => cases h
  | cons p reqIds ih =>
      rw [freeAll, List.foldr_cons, free_reqToBlocks]
      by_cases hq : q = p
      · rw [hq, Function.update_self]
      · rw [Function.update_of_ne hq]
        exact ih ((List.mem_cons.mp h).resolve_left hq)

theorem freeAll_append (xs ys : List ReqId) :
    m.freeAll cfg (xs ++ ys) = (m.freeAll cfg ys).freeAll cfg xs :=
  List.foldr_append

/-- Dropping the skipped blocks changes nothing where they have been dropped already. -/
theorem dropSkippedBlocks_eq_self {numComputedTokens : ℕ}
    (h : removeSkippedBlocks cfg (m.reqToBlocks reqId) numComputedTokens =
      .ok ([], m.reqToBlocks reqId)) :
    m.dropSkippedBlocks cfg reqId numComputedTokens = .ok m := by
  unfold dropSkippedBlocks
  rw [h]
  change Except.ok { m with
    blockPool := m.blockPool.freeBlocks []
    reqToBlocks := Function.update m.reqToBlocks reqId (m.reqToBlocks reqId) } = _
  rw [Function.update_eq_self]
  rfl

/-- After an allocation that did not raise on the way, the skipped blocks are gone. -/
theorem skipDropped_settled {numComputedTokens : ℕ}
    (h : m.dropSkippedBlocks cfg reqId numComputedTokens = .ok m') :
    m.skipDropped cfg reqId numComputedTokens = m' ∧
      removeSkippedBlocks cfg (m'.reqToBlocks reqId) numComputedTokens =
        .ok ([], m'.reqToBlocks reqId) := by
  refine ⟨by rw [skipDropped, h]; rfl, ?_⟩
  simp only [dropSkippedBlocks, bind_eq_ok, pure_eq_ok, Prod.exists] at h
  obtain ⟨removed, blocks', hremove, rfl⟩ := h
  simp only [Function.update_self]
  exact removeSkippedBlocks_idem hremove

/-- An allocation begins with dropping the skipped blocks, so it may as well start after that. -/
theorem allocateSlots_skipDropped {cacheFullBlocks : CacheFullBlocks} {n lookahead : ℕ}
    {computedBlocks : List BlockId} :
    allocateSlots cfg cacheFullBlocks reqId r n computedBlocks lookahead
      (m.skipDropped cfg reqId r.numComputedTokens) =
    allocateSlots cfg cacheFullBlocks reqId r n computedBlocks lookahead m := by
  cases hdrop : m.dropSkippedBlocks cfg reqId r.numComputedTokens with
  | error e =>
      rw [skipDropped, hdrop]
      rfl
  | ok m' =>
      obtain ⟨hsettled, hremove⟩ := skipDropped_settled hdrop
      rw [hsettled, allocateSlots, allocateSlots, hdrop, dropSkippedBlocks_eq_self hremove]

/-- A failed allocation has only dropped the skipped blocks. -/
theorem allocateSlots_none {cacheFullBlocks : CacheFullBlocks} {n lookahead : ℕ}
    {computedBlocks : List BlockId}
    (h : allocateSlots cfg cacheFullBlocks reqId r n computedBlocks lookahead m = .ok (none, m')) :
    m.dropSkippedBlocks cfg reqId r.numComputedTokens = .ok m' := by
  unfold allocateSlots at h
  split_ifs at h
  simp only [bind_eq_ok] at h
  obtain ⟨m₁, hdrop, h⟩ := h
  split_ifs at h
  · cases h
    exact hdrop
  · simp only [bind_eq_ok, pure_eq_ok, Prod.mk.injEq, reduceCtorEq, false_and, and_false,
      exists_false] at h

/-- An allocation touches the block list of its own request only, and adds what it returns. -/
theorem allocateSlots_reqToBlocks {n lookahead : ℕ} {computedBlocks : List BlockId}
    {result : Option (List BlockId)}
    (h : SPKVCacheManager.allocateSlots cfg reqId r n computedBlocks lookahead m =
      .ok (result, m')) :
    (∀ q, q ≠ reqId → m'.reqToBlocks q = m.reqToBlocks q) ∧
      ∀ blocks, result = some blocks → computedBlocks ++ blocks ⊆ m'.reqToBlocks reqId := by
  unfold SPKVCacheManager.allocateSlots allocateSlots at h
  split_ifs at h
  simp only [bind_eq_ok] at h
  obtain ⟨m₁, hdrop, h⟩ := h
  have hothers : ∀ q, q ≠ reqId → m₁.reqToBlocks q = m.reqToBlocks q := by
    simp only [dropSkippedBlocks, bind_eq_ok, pure_eq_ok, Prod.exists] at hdrop
    obtain ⟨removed, blocks', -, rfl⟩ := hdrop
    exact fun q hq => Function.update_of_ne hq _ _
  split_ifs at h
  · cases h
    exact ⟨hothers, by simp⟩
  · simp only [bind_eq_ok, pure_eq_ok, Prod.exists, Prod.mk.injEq] at h
    obtain ⟨m₂, htouch, newBlocks, m₃, htake, m₄, hcommit, rfl, rfl⟩ := h
    rw [(commitFullBlocks_skip hcommit).2]
    have htouched : m₂.reqToBlocks =
        Function.update m₁.reqToBlocks reqId (m₁.reqToBlocks reqId ++ computedBlocks) := by
      simp only [touchComputedBlocks, bind_eq_ok, pure_eq_ok] at htouch
      obtain ⟨_, -, rfl⟩ := htouch
      rfl
    have htaken : m₃.reqToBlocks =
        Function.update m₂.reqToBlocks reqId (m₂.reqToBlocks reqId ++ newBlocks) := by
      unfold takeNewBlocks at htake
      split_ifs at htake
      · cases htake
        rw [List.append_nil, Function.update_eq_self]
      · simp only [bind_eq_ok, pure_eq_ok, Prod.exists, Prod.mk.injEq] at htake
        obtain ⟨_, -, _, pool, -, rfl, rfl⟩ := htake
        rfl
    rw [htaken, htouched]
    constructor
    · intro q hq
      rw [Function.update_of_ne hq, Function.update_of_ne hq]
      exact hothers q hq
    · rintro blocks ⟨⟩
      rw [Function.update_self, Function.update_self, List.append_assoc]
      exact List.subset_append_right _ _

/-- Dropping the skipped blocks of a request frees blocks that it holds before its window, and
changes nothing else. -/
structure Settles (cfg : KVCacheConfig) (reqId : ReqId) (numComputedTokens : ℕ)
    (m m' : KVCacheManager) : Prop where
  freed : ∃ removed, removed ⊆ (m.reqToBlocks reqId).take (numSkippedBlocks cfg numComputedTokens) ∧
    m'.blockPool = m.blockPool.freeBlocks removed
  window : ∀ j, numSkippedBlocks cfg numComputedTokens ≤ j →
    (m'.reqToBlocks reqId)[j]? = (m.reqToBlocks reqId)[j]?
  others : ∀ q, q ≠ reqId → m'.reqToBlocks q = m.reqToBlocks q
  numCachedBlock : m'.numCachedBlock = m.numCachedBlock

theorem Settles.refl (m : KVCacheManager) (numComputedTokens : ℕ) :
    Settles cfg reqId numComputedTokens m m :=
  ⟨⟨[], List.nil_subset _, rfl⟩, fun _ _ => rfl, fun _ _ => rfl, rfl⟩

theorem skipDropped_settles (numComputedTokens : ℕ) :
    Settles cfg reqId numComputedTokens m (m.skipDropped cfg reqId numComputedTokens) := by
  cases hdrop : m.dropSkippedBlocks cfg reqId numComputedTokens with
  | error e =>
      rw [skipDropped, hdrop]
      exact .refl m numComputedTokens
  | ok m' =>
      rw [(skipDropped_settled hdrop).1]
      simp only [dropSkippedBlocks, bind_eq_ok, pure_eq_ok, Prod.exists] at hdrop
      obtain ⟨removed, blocks', hremove, rfl⟩ := hdrop
      rw [removeSkippedBlocks_eq] at hremove
      refine ⟨⟨removed, slidingRemoveSkippedBlocks_removed hremove, rfl⟩, fun j hj => ?_,
        fun q hq => Function.update_of_ne hq _ _, rfl⟩
      simp only [Function.update_self]
      exact slidingRemoveSkippedBlocks_frame hremove j hj

end KVCacheManager

namespace Scheduling

variable {cfg : Config} {st st' : Scheduling} {reqId : ReqId} {n : ℕ}

/-! ## The rounds of an eviction -/

/-- The allocation for a running request. -/
abbrev allocate (cfg : Config) (reqId : ReqId) (r : Request) (n : ℕ) (kv : KVCacheManager) :
    Except PyError (Option (List BlockId) × KVCacheManager) :=
  SPKVCacheManager.allocateSlots cfg.kvCache reqId r n [] cfg.scheduler.numLookaheadTokens kv

/-- The requests that one call of `_allocate_with_preemption` evicts, in running order, and what
the call returns or raises. -/
inductive Evictions (cfg : Config) (reqId : ReqId) (n : ℕ) :
    Scheduling → List ReqId → Except PyError (Option (List BlockId) × Scheduling) → Prop where
  | raises {st : Scheduling} (e : PyError)
      (halloc : allocate cfg reqId (st.request reqId) n st.kvCacheManager = .error e) :
      Evictions cfg reqId n st [] (.error e)
  | succeeds {st : Scheduling} (blocks : List BlockId) (kv : KVCacheManager)
      (halloc : allocate cfg reqId (st.request reqId) n st.kvCacheManager =
        .ok (some blocks, kv)) :
      Evictions cfg reqId n st [] (.ok (some blocks, { st with kvCacheManager := kv }))
  /-- There is nothing newer left to evict. -/
  | itself {st : Scheduling} (kv : KVCacheManager)
      (halloc : allocate cfg reqId (st.request reqId) n st.kvCacheManager = .ok (none, kv))
      (hlast : st.runningScheduled.getLast? = some reqId) :
      Evictions cfg reqId n st [reqId]
        (.ok (none, evict cfg { st with kvCacheManager := kv } reqId))
  | newest {st : Scheduling} (preempted : ReqId) (kv : KVCacheManager) (evicted : List ReqId)
      (result : Except PyError (Option (List BlockId) × Scheduling))
      (halloc : allocate cfg reqId (st.request reqId) n st.kvCacheManager = .ok (none, kv))
      (hlast : st.runningScheduled.getLast? = some preempted) (hne : preempted ≠ reqId)
      (hrest : Evictions cfg reqId n (evict cfg { st with kvCacheManager := kv } preempted)
        evicted result) :
      Evictions cfg reqId n st (evicted ++ [preempted]) result

theorem evict_runningScheduled (cfg : Config) (st : Scheduling) (reqId : ReqId) :
    (st.evict cfg reqId).runningScheduled = st.runningScheduled.dropLast := by
  rw [evict_eq, preempt_runningScheduled]

theorem evict_kvCacheManager (cfg : Config) (st : Scheduling) (reqId : ReqId) :
    (st.evict cfg reqId).kvCacheManager = st.kvCacheManager.free cfg.kvCache reqId := by
  rw [evict_eq, preempt_kvCacheManager]

theorem evict_request_of_ne {q : ReqId} (h : q ≠ reqId) (cfg : Config) (st : Scheduling) :
    (st.evict cfg reqId).request q = st.request q := by
  rw [evict_eq, preempt_request_of_ne h]

/-- Every call ends: it runs out of requests to evict only after the request itself. -/
theorem allocateWithPreemption_evictions {fuel : ℕ} (hmem : reqId ∈ st.runningScheduled)
    (hfuel : st.runningScheduled.length < fuel) :
    ∃ evicted, Evictions cfg reqId n st evicted
      (allocateWithPreemption cfg reqId n fuel st) := by
  induction fuel generalizing st with
  | zero => cases hfuel
  | succ fuel ih =>
      rw [allocateWithPreemption]
      change ∃ evicted, Evictions cfg reqId n st evicted
        (allocate cfg reqId (st.request reqId) n st.kvCacheManager >>= _)
      cases halloc : allocate cfg reqId (st.request reqId) n st.kvCacheManager with
      | error e => exact ⟨[], .raises e halloc⟩
      | ok result =>
          obtain ⟨newBlocks, kv⟩ := result
          cases newBlocks with
          | some blocks => exact ⟨[], .succeeds blocks kv halloc⟩
          | none =>
              obtain ⟨preempted, hlast⟩ : ∃ p, st.runningScheduled.getLast? = some p :=
                Option.isSome_iff_exists.mp
                  (List.getLast?_isSome.mpr (List.ne_nil_of_mem hmem))
              simp only [ok_bind, hlast]
              by_cases hself : preempted = reqId
              · subst hself
                simp only [ite_true]
                exact ⟨[preempted], .itself kv halloc hlast⟩
              · simp only [hself, ite_false]
                have hsplit := List.dropLast_append_getLast? preempted hlast
                have hmem' : reqId ∈ (evict cfg { st with kvCacheManager := kv }
                    preempted).runningScheduled := by
                  rw [evict_runningScheduled]
                  rw [← hsplit, List.mem_append, List.mem_singleton] at hmem
                  exact hmem.resolve_right (fun h => hself h.symm)
                have hlen : (evict cfg { st with kvCacheManager := kv }
                    preempted).runningScheduled.length < fuel := by
                  rw [evict_runningScheduled, List.length_dropLast]
                  have hpos := List.length_pos_of_mem hmem
                  change st.runningScheduled.length - 1 < fuel
                  omega
                obtain ⟨evicted, hrest⟩ := ih hmem' hlen
                exact ⟨evicted ++ [preempted], .newest preempted kv evicted _ halloc hlast hself hrest⟩

/-! ## What is evicted -/

/-- The cache from which a request is served: its own skipped blocks are free already. -/
def settledCache (cfg : Config) (reqId : ReqId) (st : Scheduling) : KVCacheManager :=
  st.kvCacheManager.skipDropped cfg.kvCache reqId (st.request reqId).numComputedTokens

/-- How the calls of `allocate_slots` went, with more and more of the newest requests freed. -/
structure Evictions.Spec (cfg : Config) (reqId : ReqId) (n : ℕ) (st : Scheduling)
    (evicted : List ReqId) (result : Except PyError (Option (List BlockId) × Scheduling)) :
    Prop where
  suffix : evicted <:+ st.runningScheduled
  settles : KVCacheManager.Settles cfg.kvCache reqId (st.request reqId).numComputedTokens
    st.kvCacheManager (st.settledCache cfg reqId)
  firstFails : ∀ kv, allocate cfg reqId (st.request reqId) n st.kvCacheManager = .ok (none, kv) →
    kv = st.settledCache cfg reqId
  /-- Fewer evictions would not do, and a failed allocation changes nothing more. -/
  fails : ∀ ys, ys <:+ st.runningScheduled → ys.length < evicted.length →
    allocate cfg reqId (st.request reqId) n ((st.settledCache cfg reqId).freeAll cfg.kvCache ys) =
      .ok (none, (st.settledCache cfg reqId).freeAll cfg.kvCache ys)
  raises : ∀ e, result = .error e → reqId ∉ evicted ∧
    allocate cfg reqId (st.request reqId) n
      ((st.settledCache cfg reqId).freeAll cfg.kvCache evicted) = .error e
  succeeds : ∀ blocks out, result = .ok (some blocks, out) → reqId ∉ evicted ∧
    out.runningScheduled ++ evicted = st.runningScheduled ∧
    allocate cfg reqId (st.request reqId) n
      ((st.settledCache cfg reqId).freeAll cfg.kvCache evicted) =
        .ok (some blocks, out.kvCacheManager)
  /-- Nothing newer than the request is left, and it holds no block. -/
  gaveUp : ∀ out, result = .ok (none, out) → (∃ newer, evicted = reqId :: newer) ∧
    out.runningScheduled ++ evicted = st.runningScheduled ∧
    out.kvCacheManager = (st.settledCache cfg reqId).freeAll cfg.kvCache evicted
  scheduled : ∀ newBlocks out, result = .ok (newBlocks, out) → out.scheduled = st.scheduled

theorem allocate_settledCache :
    allocate cfg reqId (st.request reqId) n (st.settledCache cfg reqId) =
      allocate cfg reqId (st.request reqId) n st.kvCacheManager :=
  KVCacheManager.allocateSlots_skipDropped

theorem settledCache_settles :
    KVCacheManager.Settles cfg.kvCache reqId (st.request reqId).numComputedTokens
      st.kvCacheManager (st.settledCache cfg reqId) :=
  KVCacheManager.skipDropped_settles _

theorem settledCache_of_none {kv : KVCacheManager}
    (h : allocate cfg reqId (st.request reqId) n st.kvCacheManager = .ok (none, kv)) :
    st.settledCache cfg reqId = kv :=
  (KVCacheManager.skipDropped_settled (KVCacheManager.allocateSlots_none h)).1

theorem settledCache_eq_of_none {kv : KVCacheManager}
    (h : allocate cfg reqId (st.request reqId) n st.kvCacheManager = .ok (none, kv)) :
    kv = st.settledCache cfg reqId :=
  (settledCache_of_none h).symm

/-- With full attention there is no window, and the cache is settled from the start. -/
theorem settledCache_fullAttention (hfull : cfg.kvCache.kvCacheSpec = .fullAttention) :
    st.settledCache cfg reqId = st.kvCacheManager :=
  KVCacheManager.skipDropped_fullAttention hfull _

/-- Evicting another request keeps the cache settled. -/
theorem settledCache_evict {kv : KVCacheManager} {preempted : ReqId} (hne : preempted ≠ reqId)
    (h : allocate cfg reqId (st.request reqId) n st.kvCacheManager = .ok (none, kv)) :
    (evict cfg { st with kvCacheManager := kv } preempted).settledCache cfg reqId =
      kv.free cfg.kvCache preempted := by
  have hremove := (KVCacheManager.skipDropped_settled (KVCacheManager.allocateSlots_none h)).2
  rw [settledCache, evict_kvCacheManager, evict_request_of_ne hne.symm]
  have hblocks : (kv.free cfg.kvCache preempted).reqToBlocks reqId = kv.reqToBlocks reqId := by
    rw [KVCacheManager.free_reqToBlocks, Function.update_of_ne hne.symm]
  rw [← hblocks] at hremove
  have hself : (kv.free cfg.kvCache preempted).dropSkippedBlocks cfg.kvCache reqId
      (st.request reqId).numComputedTokens = .ok (kv.free cfg.kvCache preempted) :=
    KVCacheManager.dropSkippedBlocks_eq_self hremove
  exact (KVCacheManager.skipDropped_settled hself).1

theorem suffix_snoc_cases {xs ys : List ReqId} {p : ReqId} (hlast : xs.getLast? = some p)
    (h : ys <:+ xs) : ys = [] ∨ ∃ zs, ys = zs ++ [p] ∧ zs <:+ xs.dropLast := by
  rcases List.eq_nil_or_concat ys with rfl | ⟨zs, q, rfl⟩
  · exact .inl rfl
  · right
    obtain ⟨front, rfl⟩ := h
    rw [List.concat_eq_append, ← List.append_assoc, List.getLast?_concat] at hlast
    obtain rfl := Option.some.inj hlast
    refine ⟨zs, List.concat_eq_append, ?_⟩
    rw [List.concat_eq_append, ← List.append_assoc, List.dropLast_concat]
    exact List.suffix_append front zs

theorem Evictions.spec {evicted : List ReqId}
    {result : Except PyError (Option (List BlockId) × Scheduling)}
    (h : Evictions cfg reqId n st evicted result) : Evictions.Spec cfg reqId n st evicted result := by
  induction h with
  | @raises st e halloc =>
      refine ⟨List.nil_suffix, settledCache_settles, fun _ => settledCache_eq_of_none,
        fun ys _ hlen => absurd hlen (Nat.not_lt_zero _), ?_, ?_, ?_, ?_⟩
      · rintro e' ⟨⟩
        exact ⟨List.not_mem_nil, allocate_settledCache.trans halloc⟩
      all_goals simp
  | @succeeds st blocks kv halloc =>
      refine ⟨List.nil_suffix, settledCache_settles, fun _ => settledCache_eq_of_none,
        fun ys _ hlen => absurd hlen (Nat.not_lt_zero _), ?_, ?_, ?_, ?_⟩
      · simp
      · rintro blocks' out ⟨⟩
        exact ⟨List.not_mem_nil, List.append_nil _, allocate_settledCache.trans halloc⟩
      · simp
      · rintro newBlocks out ⟨⟩
        rfl
  | @itself st kv halloc hlast =>
      have hcache := settledCache_of_none halloc
      have hsplit := List.dropLast_append_getLast? reqId hlast
      refine ⟨⟨_, hsplit⟩, settledCache_settles, fun _ => settledCache_eq_of_none, ?_, ?_, ?_, ?_, ?_⟩
      · intro ys _ hlen
        have hnil : ys = [] := List.eq_nil_of_length_eq_zero (by simpa using hlen)
        subst hnil
        change allocate cfg reqId (st.request reqId) n (st.settledCache cfg reqId) = _
        rw [allocate_settledCache, halloc, hcache]
        rfl
      · simp
      · simp
      · rintro out ⟨⟩
        refine ⟨⟨[], rfl⟩, ?_, ?_⟩
        · rw [evict_runningScheduled]
          exact hsplit
        · rw [evict_kvCacheManager, hcache]
          rfl
      · rintro newBlocks out ⟨⟩
        rw [evict_eq, scheduled, preempt_numScheduledTokens]
        rfl
  | @newest st preempted kv evicted result halloc hlast hne hrest ih =>
      have hcache := settledCache_of_none halloc
      have hcache' := settledCache_evict hne halloc
      have hsplit := List.dropLast_append_getLast? preempted hlast
      have hrequest : (evict cfg { st with kvCacheManager := kv } preempted).request reqId =
          st.request reqId := evict_request_of_ne hne.symm _ _
      have hrunning : (evict cfg { st with kvCacheManager := kv } preempted).runningScheduled =
          st.runningScheduled.dropLast := evict_runningScheduled _ _ _
      have hfree : ∀ ys, ((evict cfg { st with kvCacheManager := kv } preempted).settledCache cfg
          reqId).freeAll cfg.kvCache ys =
            (st.settledCache cfg reqId).freeAll cfg.kvCache (ys ++ [preempted]) := by
        intro ys
        rw [hcache', hcache, KVCacheManager.freeAll_append]
        rfl
      have hfails := ih.fails
      have hraises := ih.raises
      have hsucceeds := ih.succeeds
      have hgaveUp := ih.gaveUp
      simp only [hrequest, hrunning, hfree] at hfails hraises hsucceeds hgaveUp
      have hnotMem : reqId ∉ evicted → reqId ∉ evicted ++ [preempted] := by
        intro hnot
        rw [List.mem_append, List.mem_singleton]
        exact fun h => h.elim hnot (fun h => hne h.symm)
      have hwhole : ∀ xs : List ReqId, xs ++ evicted = st.runningScheduled.dropLast →
          xs ++ (evicted ++ [preempted]) = st.runningScheduled := by
        intro xs hxs
        rw [← List.append_assoc, hxs, hsplit]
      refine ⟨?_, settledCache_settles, fun _ => settledCache_eq_of_none, ?_, ?_, ?_, ?_, ?_⟩
      · have hsuffix := ih.suffix
        rw [hrunning] at hsuffix
        obtain ⟨front, hfront⟩ := hsuffix
        exact ⟨front, hwhole front hfront⟩
      · intro ys hys hlen
        rcases suffix_snoc_cases hlast hys with rfl | ⟨zs, rfl, hzs⟩
        · change allocate cfg reqId (st.request reqId) n (st.settledCache cfg reqId) = _
          rw [allocate_settledCache, halloc, hcache]
          rfl
        · exact hfails zs hzs (by simpa using hlen)
      · intro e he
        obtain ⟨hnot, hraise⟩ := hraises e he
        exact ⟨hnotMem hnot, hraise⟩
      · intro blocks out hout
        obtain ⟨hnot, hlist, hsome⟩ := hsucceeds blocks out hout
        exact ⟨hnotMem hnot, hwhole _ hlist, hsome⟩
      · intro out hout
        obtain ⟨⟨newer, hnewer⟩, hlist, hkv⟩ := hgaveUp out hout
        exact ⟨⟨newer ++ [preempted], by rw [hnewer]; rfl⟩, hwhole _ hlist, hkv⟩
      · intro newBlocks out hout
        rw [ih.scheduled newBlocks out hout, evict_eq, scheduled, preempt_numScheduledTokens]
        rfl

/-! ## Evictions in the running loop -/

theorem setRequest_evictions (cfg : Config) (st : Scheduling) {reqId : ReqId} {i : ℕ} (r : Request)
    (n : ℕ) (hi : st.runningScheduled[i]? = some reqId) :
    ∃ evicted, Evictions cfg reqId n (st.setRequest reqId r) evicted
      (allocateWithPreemption cfg reqId n (st.runningScheduled.length + 1)
        (st.setRequest reqId r)) :=
  allocateWithPreemption_evictions (List.mem_of_getElem? hi) (Nat.lt_succ_self _)

theorem position_of_nodup {xs front newer : List ReqId} {i : ℕ} {q : ReqId} (hnodup : xs.Nodup)
    (hi : xs[i]? = some q) (hsplit : front ++ q :: newer = xs) : front.length = i := by
  have hfront : xs[front.length]? = some q := by
    rw [← hsplit]
    simp
  have hlen : front.length < xs.length := (List.getElem?_eq_some_iff.mp hfront).1
  exact (List.getElem?_inj hlen hnodup).mp (hfront.trans hi.symm)

/-- Where the loop has ended, it does nothing more. -/
def Halted (st : Scheduling) (i : ℕ) : Prop :=
  st.runningScheduled.length ≤ i ∨ st.tokenBudget = 0

theorem runningLoop_halted {fuel i j : ℕ} (h : st.Halted i) (hij : i ≤ j) :
    runningLoop cfg fuel j st = .ok st := by
  cases fuel with
  | zero => rfl
  | succ fuel =>
      cases hj : st.runningScheduled[j]? with
      | none => simp only [runningLoop, hj]
      | some reqId =>
          have hlen := (List.getElem?_eq_some_iff.mp hj).1
          have hbudget : st.tokenBudget = 0 := h.resolve_left (by omega)
          simp only [runningLoop, hj, hbudget, ite_true]

theorem LoopEnd.halted {i : ℕ} (h : LoopEnd cfg i st st') (hnodup : st.runningScheduled.Nodup) :
    st'.Halted i ∧ st'.runningScheduled <+: st.runningScheduled := by
  cases h with
  | stop hstop => exact ⟨hstop, List.prefix_rfl⟩
  | evicted reqId realToken n out hi heligible hn hpos halloc =>
      obtain ⟨evicted, hevictions⟩ :=
        setRequest_evictions cfg st (claimed (st.request reqId) realToken) n hi
      obtain ⟨⟨newer, rfl⟩, hsplit, -⟩ := hevictions.spec.gaveUp st' halloc
      rw [setRequest_runningScheduled] at hsplit
      exact ⟨.inl (position_of_nodup hnodup hi hsplit).le, _, hsplit⟩

/-- What holds after the rounds up to position `i`. -/
structure LoopReached (cfg : Config) (i : ℕ) (st st' : Scheduling) : Prop where
  moves : RunningMoves cfg st st'
  running : st'.runningScheduled <+: st.runningScheduled
  unscheduled : st'.Halted i ∨ ∀ p ∈ st'.runningScheduled.drop i, p ∉ st'.scheduled

theorem runningLoop_reached {fuel i : ℕ} (hnodup : st.runningScheduled.Nodup)
    (hsched : ∀ p ∈ st.runningScheduled.drop i, p ∉ st.scheduled)
    (h : runningLoop cfg fuel i st = .ok st') :
    LoopReached cfg (i + fuel) st st' ∧
      ∀ fuel', runningLoop cfg (fuel + fuel') i st = runningLoop cfg fuel' (i + fuel) st' := by
  induction fuel generalizing i st with
  | zero =>
      cases h
      exact ⟨⟨.refl, List.prefix_rfl, .inr hsched⟩, fun fuel' => by rw [Nat.zero_add, Nat.add_zero]⟩
  | succ fuel ih =>
      cases loopRound cfg i st with
      | ends out hend heq =>
          rw [heq] at h
          cases h
          obtain ⟨hhalted, hpre⟩ := hend.halted hnodup
          refine ⟨⟨hend.moves hnodup hsched, hpre, .inl ?_⟩, fun fuel' => ?_⟩
          · exact hhalted.imp (fun hlen => by omega) id
          · rw [Nat.add_right_comm, heq, runningLoop_halted hhalted (by omega)]
      | goesOn out hstep heq =>
          rw [heq] at h
          have hframe := hstep.frame hnodup hsched
          obtain ⟨hreached, hrest⟩ :=
            ih (hnodup.sublist hframe.running.sublist) hframe.unscheduled h
          have hindex : i + (fuel + 1) = i + 1 + fuel := by omega
          refine ⟨⟨hframe.moves.trans hreached.moves, hreached.running.trans hframe.running, ?_⟩,
            fun fuel' => ?_⟩
          · rw [hindex]
            exact hreached.unscheduled
          · rw [Nat.add_right_comm, heq, hrest, hindex]
      | raises e heq =>
          rw [heq] at h
          cases h

/-! ## Blocks of the output -/

/-- The requests scheduled so far still run, and hold the blocks that the output will name. -/
structure BlocksHeld (st : Scheduling) : Prop where
  listed : ∀ item ∈ st.reqToNewBlockIds, item.1 ∈ st.scheduled
  running : ∀ q ∈ st.scheduled, q ∈ st.runningScheduled
  held : ∀ item ∈ st.reqToNewBlockIds, item.2 ⊆ st.kvCacheManager.reqToBlocks item.1

theorem RunningMove.blocksHeld (hmove : RunningMove cfg st st') (h : st.BlocksHeld) :
    st'.BlocksHeld := by
  cases hmove with
  | allocFail reqId n kv hmem hsched halloc =>
      refine ⟨h.listed, h.running, fun item hitem => ?_⟩
      have hne : item.1 ≠ reqId := fun heq => hsched (heq ▸ h.listed item hitem)
      change item.2 ⊆ kv.reqToBlocks item.1
      rw [(KVCacheManager.allocateSlots_reqToBlocks halloc).1 _ hne]
      exact h.held item hitem
  | evict reqId realToken xs hlast hsched =>
      refine ⟨?_, ?_, ?_⟩
      · simp only [preempt_reqToNewBlockIds, scheduled, preempt_numScheduledTokens]
        exact h.listed
      · intro q hq
        rw [scheduled, preempt_numScheduledTokens] at hq
        have hrun := h.running q hq
        rw [hlast, List.mem_append, List.mem_singleton] at hrun
        rw [preempt_runningScheduled]
        exact hrun.resolve_right (fun heq => hsched (heq ▸ hq))
      · intro item hitem
        rw [preempt_reqToNewBlockIds] at hitem
        have hne : item.1 ≠ reqId := fun heq => hsched (heq ▸ h.listed item hitem)
        rw [preempt_kvCacheManager, KVCacheManager.free_reqToBlocks, Function.update_of_ne hne]
        exact h.held item hitem
  | assign reqId realToken n blocks kv hmem hsched heligible hn hpos halloc =>
      have hkeys : reqId ∉ st.reqToNewBlockIds.map Prod.fst := by
        intro hkey
        obtain ⟨item, hitem, rfl⟩ := List.mem_map.mp hkey
        exact hsched (h.listed item hitem)
      have hitems : ∀ item ∈ dictSet st.reqToNewBlockIds reqId blocks,
          item ∈ st.reqToNewBlockIds ∨ item = (reqId, blocks) := by
        intro item hitem
        rwa [dictSet_of_notMem hkeys, List.mem_append, List.mem_singleton] at hitem
      obtain ⟨hothers, hnew⟩ := KVCacheManager.allocateSlots_reqToBlocks halloc
      refine ⟨?_, ?_, ?_⟩
      · intro item hitem
        rw [assignRunning_reqToNewBlockIds] at hitem
        rw [mem_assignRunning_scheduled]
        rcases hitems item hitem with hold | rfl
        · exact .inl (h.listed item hold)
        · exact .inr rfl
      · intro q hq
        rw [mem_assignRunning_scheduled] at hq
        rw [assignRunning_runningScheduled]
        rcases hq with hq | rfl
        · exact h.running q hq
        · exact hmem
      · intro item hitem
        rw [assignRunning_reqToNewBlockIds] at hitem
        rw [assignRunning_kvCacheManager]
        rcases hitems item hitem with hold | rfl
        · have hne : item.1 ≠ reqId := fun heq => hsched (heq ▸ h.listed item hold)
          change item.2 ⊆ kv.reqToBlocks item.1
          rw [hothers _ hne]
          exact h.held item hold
        · simpa using hnew blocks rfl
  | drop => exact ⟨h.listed, h.running, h.held⟩

theorem runningMoves_blocksHeld (hmoves : RunningMoves cfg st st') (h : st.BlocksHeld) :
    st'.BlocksHeld := by
  induction hmoves with
  | refl => exact h
  | tail _ hmove ih => exact hmove.blocksHeld ih

/-! ## Every call of the running loop -/

/-- What one call of `_allocate_with_preemption` for the request at position `i` does. -/
structure CallSpec (cfg : Config) (reqId : ReqId) (n i : ℕ) (st : Scheduling)
    (evicted : List ReqId) (result : Except PyError (Option (List BlockId) × Scheduling)) : Prop
    extends Evictions.Spec cfg reqId n st evicted result where
  older : ∀ newBlocks out, result = .ok (newBlocks, out) → ∀ q ∈ st.runningScheduled.take i,
    q ∉ evicted ∧ out.kvCacheManager.reqToBlocks q = st.kvCacheManager.reqToBlocks q
  unscheduled : ∀ q ∈ evicted, q ∉ st.scheduled
  fullAttention : cfg.kvCache.kvCacheSpec = .fullAttention →
    st.settledCache cfg reqId = st.kvCacheManager
  emptied : ∀ out, result = .ok (none, out) → out.kvCacheManager.reqToBlocks reqId = []

theorem Evictions.length_le {evicted : List ReqId} {i : ℕ}
    {result : Except PyError (Option (List BlockId) × Scheduling)}
    (h : Evictions cfg reqId n st evicted result) (hnodup : st.runningScheduled.Nodup)
    (hi : st.runningScheduled[i]? = some reqId) : i + evicted.length ≤ st.runningScheduled.length := by
  have hspec := h.spec
  obtain ⟨front, hfront⟩ := hspec.suffix
  have hlen : front.length + evicted.length = st.runningScheduled.length := by
    rw [← hfront, List.length_append]
  have hnotMem : reqId ∉ evicted → i ≤ front.length := by
    intro hnot
    by_contra hlt
    rw [← hfront, List.getElem?_append_right (by omega)] at hi
    exact hnot (List.mem_of_getElem? hi)
  cases result with
  | error e =>
      have hfrontLen := hnotMem (hspec.raises e rfl).1
      omega
  | ok outcome =>
      obtain ⟨newBlocks, out⟩ := outcome
      cases newBlocks with
      | some blocks =>
          have hfrontLen := hnotMem (hspec.succeeds blocks out rfl).1
          omega
      | none =>
          obtain ⟨⟨newer, rfl⟩, -⟩ := hspec.gaveUp out rfl
          have hfrontLen := position_of_nodup hnodup hi hfront
          omega

theorem Evictions.callSpec {evicted : List ReqId} {i : ℕ}
    {result : Except PyError (Option (List BlockId) × Scheduling)}
    (h : Evictions cfg reqId n st evicted result) (hnodup : st.runningScheduled.Nodup)
    (hi : st.runningScheduled[i]? = some reqId)
    (hsched : ∀ p ∈ st.runningScheduled.drop i, p ∉ st.scheduled) :
    CallSpec cfg reqId n i st evicted result := by
  have hspec := h.spec
  have hlen := h.length_le hnodup hi
  have hdrop : evicted ⊆ st.runningScheduled.drop i := by
    rw [List.suffix_iff_eq_drop.mp hspec.suffix]
    exact List.drop_subset_drop_of_le _ (by omega)
  have holder : ∀ q ∈ st.runningScheduled.take i, q ∉ evicted ∧ q ≠ reqId := by
    intro q hq
    have hdisjoint := List.disjoint_take_drop hnodup (le_refl i)
    refine ⟨fun hmem => hdisjoint hq (hdrop hmem), ?_⟩
    rintro rfl
    exact hdisjoint hq (List.mem_drop_of_getElem? hi)
  refine ⟨hspec, ?_, fun q hq => hsched q (hdrop hq), settledCache_fullAttention, ?_⟩
  · intro newBlocks out hout q hq
    obtain ⟨hnot, hne⟩ := holder q hq
    refine ⟨hnot, ?_⟩
    have hsettled : ((st.settledCache cfg reqId).freeAll cfg.kvCache evicted).reqToBlocks q =
        st.kvCacheManager.reqToBlocks q := by
      rw [KVCacheManager.freeAll_reqToBlocks_of_notMem hnot]
      exact (KVCacheManager.skipDropped_settles _).others q hne
    cases newBlocks with
    | some blocks =>
        obtain ⟨-, -, hsome⟩ := hspec.succeeds blocks out hout
        rw [(KVCacheManager.allocateSlots_reqToBlocks hsome).1 q hne, hsettled]
    | none =>
        obtain ⟨-, -, hkv⟩ := hspec.gaveUp out hout
        rw [hkv, hsettled]
  · intro out hout
    obtain ⟨⟨newer, rfl⟩, -, hkv⟩ := hspec.gaveUp out hout
    rw [hkv, KVCacheManager.freeAll_reqToBlocks_of_mem List.mem_cons_self]

/-- Each call of the running loop evicts the shortest suffix that lets the allocation succeed, or
everything down to the request itself, and nothing it evicts is in the output. -/
theorem runningLoop_evicts (hnodup : st.runningScheduled.Nodup) (hnone : st.scheduled = [])
    (hempty : st.reqToNewBlockIds = []) :
    (∀ (i : ℕ) (stᵢ : Scheduling) (reqId : ReqId) (realToken : Bool) (n : ℕ),
      runningLoop cfg i 0 st = .ok stᵢ → stᵢ.runningScheduled[i]? = some reqId →
      Eligible cfg (stᵢ.request reqId) realToken →
      (n : ℤ) = requestedTokens cfg (stᵢ.request reqId) realToken stᵢ.tokenBudget → 0 < n →
      ∃ evicted, CallSpec cfg reqId n i
          (stᵢ.setRequest reqId (claimed (stᵢ.request reqId) realToken)) evicted
          (allocateWithPreemption cfg reqId n (stᵢ.runningScheduled.length + 1)
            (stᵢ.setRequest reqId (claimed (stᵢ.request reqId) realToken))) ∧
        ∀ out, allocateWithPreemption cfg reqId n (stᵢ.runningScheduled.length + 1)
            (stᵢ.setRequest reqId (claimed (stᵢ.request reqId) realToken)) = .ok (none, out) →
          ∀ fuel, runningLoop cfg (i + 1 + fuel) 0 st = .ok out) ∧
    ∀ fuel st', runningLoop cfg fuel 0 st = .ok st' → st'.BlocksHeld := by
  have hstart : ∀ p ∈ st.runningScheduled.drop 0, p ∉ st.scheduled := by simp [hnone]
  constructor
  · intro i stᵢ reqId realToken n hloop hi heligible hn hpos
    obtain ⟨hreached, hrest⟩ := runningLoop_reached hnodup hstart hloop
    rw [Nat.zero_add] at hreached hrest
    have hbudget : stᵢ.tokenBudget ≠ 0 := by
      have hcap : requestedTokens cfg (stᵢ.request reqId) realToken stᵢ.tokenBudget ≤
          stᵢ.tokenBudget := min_le_right _ _
      omega
    have hlen := (List.getElem?_eq_some_iff.mp hi).1
    have hsched : ∀ p ∈ stᵢ.runningScheduled.drop i, p ∉ stᵢ.scheduled :=
      hreached.unscheduled.resolve_left (fun hhalted => hhalted.elim (by omega) hbudget)
    have hnodupᵢ := hnodup.sublist hreached.running.sublist
    obtain ⟨evicted, hevictions⟩ :=
      setRequest_evictions cfg stᵢ (claimed (stᵢ.request reqId) realToken) n hi
    refine ⟨evicted, hevictions.callSpec hnodupᵢ hi hsched, fun out hout fuel => ?_⟩
    rw [Nat.add_assoc, hrest, Nat.add_comm 1 fuel, runningLoop_of_eligible hi hbudget heligible]
    dsimp only
    rw [← hn, pyAssert, if_pos (by omega), Int.toNat_natCast, hout]
    rfl
  · intro fuel st' hloop
    have hheld : st.BlocksHeld := by
      refine ⟨?_, ?_, ?_⟩ <;> simp [hnone, hempty]
    exact runningMoves_blocksHeld (runningLoop_moves hnodup hstart hloop) hheld

/-- A window of two tokens, blocks of two, three of which are in use. -/
def narrowWindow : Config where
  scheduler := { maxNumSeqs := 2, maxNumBatchedTokens := 8, longPrefillTokenThreshold := 3 }
  kvCache := { blockSize := 2, numBlocks := 4, maxModelLen := 12, numPreallocateTokens := 0
               kvCacheSpec := .slidingWindow 2 }
  pipelineParallelSize := 2

/-- Request 0 is in its prefill with blocks 1 and 2, and request 1 holds block 3. -/
def fullPool : Scheduling :=
  let prefill : Request :=
    { Request.init [1, 2, 3, 4, 5, 6, 7, 8] { maxTokens := 2 } none with
      status := .running
      numComputedTokens := 4 }
  { Scheduler.init narrowWindow with
    request := fun _ => prefill
    requests := [0, 1]
    runningScheduled := [0, 1]
    kvCacheManager := { KVCacheManager.init narrowWindow.kvCache with
      blockPool := { BlockPool.init 4 with
        freeBlockQueue := []
        refCnt := fun b => if b = nullBlock then 0 else 1 }
      reqToBlocks := fun reqId => if reqId = 0 then [1, 2] else if reqId = 1 then [3] else [] }
    tokenBudget := 8 }

/-- The allocation fails, and yet the block before the window has been freed. -/
theorem allocate_fullPool_frees :
    (allocate narrowWindow 0 (fullPool.request 0) 3 fullPool.kvCacheManager).toOption.map
        (fun result => (result.1, result.2.blockPool.freeBlockQueue, result.2.reqToBlocks 0)) =
      some (none, [1], [nullBlock, 2]) ∧
    fullPool.kvCacheManager.blockPool.freeBlockQueue = [] ∧
    fullPool.kvCacheManager.reqToBlocks 0 = [1, 2] := by
  decide +kernel

theorem runningLoop_evicts_fullPool :
    ∃ evicted, CallSpec narrowWindow 0 3 0
      (fullPool.setRequest 0 (claimed (fullPool.request 0) true)) evicted
      (allocateWithPreemption narrowWindow 0 3 3
        (fullPool.setRequest 0 (claimed (fullPool.request 0) true))) := by
  obtain ⟨evicted, hspec, -⟩ := (@runningLoop_evicts narrowWindow fullPool
    (by decide) rfl rfl).1 0 fullPool 0 true 3 rfl rfl ⟨rfl, by decide⟩ (by decide) (by decide)
  exact ⟨evicted, hspec⟩

end Scheduling

end Spexis
