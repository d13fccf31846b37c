import Spexis.Library.Ownership
import Spexis.Verification.LiveRequests
import Spexis.Verification.PrefixCache

/-! # Exclusive ownership of KV blocks

Every block but the placeholder is free or belongs to one running request. -/

namespace Spexis

open Python Ownership

namespace BlockPool

/-! ## The pool -/

/-- The blocks a pool gives out. -/
def items (p : BlockPool) : List BlockId :=
  (List.range p.numGpuBlocks).tail

theorem items_nodup (p : BlockPool) : p.items.Nodup :=
  List.nodup_range.sublist (List.tail_sublist _)

theorem mem_items (p : BlockPool) (b : BlockId) :
    b ∈ p.items ↔ b ≠ nullBlock ∧ b < p.numGpuBlocks := by
  unfold items nullBlock
  cases p.numGpuBlocks with
  | zero => simp
  | succ n =>
      cases b with
      | zero => simp [List.range_succ_eq_map]
      | succ b => simp [List.range_succ_eq_map]

theorem nullBlock_notMem_items (p : BlockPool) : nullBlock ∉ p.items := fun hmem =>
  ((p.mem_items nullBlock).mp hmem).1 rfl

/-- The blocks are taken off the head of the free queue, each with one more reference. -/
theorem popBlocks_eq_ok {enableCaching : Bool} {n : ℕ} {p p' : BlockPool} {blocks : List BlockId}
    (hhash : p.Unhashed) (h : popBlocks enableCaching n p = .ok (blocks, p')) :
    p.freeBlockQueue = blocks ++ p'.freeBlockQueue ∧
      p' = { p with
        freeBlockQueue := p'.freeBlockQueue
        refCnt := fun b => p.refCnt b + blocks.count b } := by
  induction n generalizing p blocks with
  | zero =>
      cases h
      simp
  | succ n ih =>
      obtain ⟨b, queue, rest, hqueue, rfl, hrest⟩ := popBlocks_succ hhash h
      have hnext : (incrRef { p with freeBlockQueue := queue } b).Unhashed :=
        ⟨hhash.blockHash, hhash.cached⟩
      obtain ⟨hfree, hp⟩ := ih hnext hrest
      refine ⟨?_, ?_⟩
      · rw [hqueue, List.cons_append, ← hfree]
        rfl
      · rw [hp]
        simp only [incrRef, BlockPool.mk.injEq, and_true, true_and]
        funext b'
        by_cases hb : b' = b
        · subst hb
          simp only [Function.update_self, List.count_cons_self]
          push_cast
          ring
        · have hne : ¬ b = b' := fun heq => hb heq.symm
          simp [Function.update_of_ne hb, hne]

theorem getNewBlocks_eq_ok {enableCaching : Bool} {n : ℕ} {p p' : BlockPool}
    {blocks : List BlockId} (hhash : p.Unhashed)
    (h : getNewBlocks enableCaching n p = .ok (blocks, p')) :
    p.freeBlockQueue = blocks ++ p'.freeBlockQueue ∧
      p' = { p with
        freeBlockQueue := p'.freeBlockQueue
        refCnt := fun b => p.refCnt b + blocks.count b } := by
  unfold getNewBlocks at h
  split_ifs at h
  exact popBlocks_eq_ok hhash h

/-- Blocks with one reference each go to the tail of the free queue. -/
theorem freeBlocks_eq {p : BlockPool} {blocks : List BlockId} (hnodup : blocks.Nodup)
    (hnull : nullBlock ∉ blocks) (hone : ∀ b ∈ blocks, p.refCnt b = 1) :
    p.freeBlocks blocks = { p with
      freeBlockQueue := p.freeBlockQueue ++ blocks
      refCnt := fun b => if b ∈ blocks then 0 else p.refCnt b } := by
  unfold freeBlocks
  induction blocks generalizing p with
  | nil => simp
  | cons b blocks ih =>
      obtain ⟨hnotMem, hnodup⟩ := List.nodup_cons.mp hnodup
      have hb : b ≠ nullBlock := fun heq => hnull (heq ▸ List.mem_cons_self)
      have hrefCnt : (p.decrRef b).refCnt b = 0 := by
        simp [decrRef, hone b List.mem_cons_self]
      have hfree : p.freeBlock b = { p.decrRef b with
          freeBlockQueue := p.freeBlockQueue ++ [b] } := if_pos ⟨hrefCnt, hb⟩
      rw [List.foldl_cons, hfree, ih hnodup (fun hmem => hnull (.tail _ hmem))]
      · simp only [decrRef, BlockPool.mk.injEq, List.append_assoc, List.singleton_append, and_true,
          true_and]
        funext b'
        by_cases hb' : b' = b
        · subst hb'
          simp [hnotMem, hone b' List.mem_cons_self]
        · simp [hb']
      · intro b' hb'
        have hne : b' ≠ b := fun heq => hnotMem (heq ▸ hb')
        simpa [decrRef, Function.update_of_ne hne] using hone b' (.tail _ hb')

end BlockPool

namespace KVCacheManager

/-! ## The manager -/

section FullAttention

variable {cfg : KVCacheConfig} {m m' : KVCacheManager} {reqId : ReqId} {r : Request}
  (hfull : cfg.kvCacheSpec = .fullAttention)
include hfull

theorem dropSkippedBlocks_eq_ok {n : ℕ} (h : m.dropSkippedBlocks cfg reqId n = .ok m') :
    m' = m := by
  simp only [dropSkippedBlocks, removeSkippedBlocks, hfull, bind_eq_ok, pure_eq_ok] at h
  obtain ⟨_, heq, rfl⟩ := h
  cases heq
  simp [BlockPool.freeBlocks]

omit hfull in
theorem takeNewBlocks_eq_ok {n lookahead : ℕ} {blocks : List BlockId}
    (hhash : m.blockPool.Unhashed) (h : m.takeNewBlocks cfg reqId n lookahead = .ok (blocks, m')) :
    m.blockPool.freeBlockQueue = blocks ++ m'.blockPool.freeBlockQueue ∧
      m'.blockPool = { m.blockPool with
        freeBlockQueue := m'.blockPool.freeBlockQueue
        refCnt := fun b => m.blockPool.refCnt b + blocks.count b } ∧
      m'.reqToBlocks = Function.update m.reqToBlocks reqId (m.reqToBlocks reqId ++ blocks) := by
  unfold takeNewBlocks at h
  split_ifs at h
  · cases h
    simp
  · simp only [bind_eq_ok, pure_eq_ok, Prod.exists, Prod.mk.injEq] at h
    obtain ⟨_, -, _, pool, htake, rfl, rfl⟩ := h
    obtain ⟨hfree, hpool⟩ := BlockPool.getNewBlocks_eq_ok hhash htake
    exact ⟨hfree, hpool, rfl⟩

/-- A failed allocation changes nothing. -/
theorem allocateSlots_eq_none {n lookahead : ℕ} {computedBlocks : List BlockId}
    (h : SPKVCacheManager.allocateSlots cfg reqId r n computedBlocks lookahead m =
      .ok (none, m')) : m' = m := by
  unfold SPKVCacheManager.allocateSlots allocateSlots at h
  split_ifs at h
  simp only [bind_eq_ok] at h
  obtain ⟨m₁, hdrop, h⟩ := h
  obtain rfl := dropSkippedBlocks_eq_ok hfull hdrop
  split_ifs at h
  · cases h
    rfl
  · simp [bind_eq_ok, map_eq_ok] at h

/-- A successful allocation moves blocks from the head of the free queue to the end of the
request's list. -/
theorem allocateSlots_eq_some {n lookahead : ℕ} {blocks : List BlockId}
    (hhash : m.blockPool.Unhashed)
    (h : SPKVCacheManager.allocateSlots cfg reqId r n [] lookahead m = .ok (some blocks, m')) :
    m.blockPool.freeBlockQueue = blocks ++ m'.blockPool.freeBlockQueue ∧
      m'.blockPool = { m.blockPool with
        freeBlockQueue := m'.blockPool.freeBlockQueue
        refCnt := fun b => m.blockPool.refCnt b + blocks.count b } ∧
      m'.reqToBlocks = Function.update m.reqToBlocks reqId (m.reqToBlocks reqId ++ blocks) := by
  unfold SPKVCacheManager.allocateSlots allocateSlots at h
  split_ifs at h
  simp only [bind_eq_ok] at h
  obtain ⟨m₁, hdrop, h⟩ := h
  obtain rfl := dropSkippedBlocks_eq_ok hfull hdrop
  split_ifs at h
  · simp at h
  · simp only [bind_eq_ok, Prod.exists] at h
    obtain ⟨m₂, htouch, _, m₃, htake, m₄, hcommit, rfl, rfl⟩ := h
    have hsame : m₂ = m₁ := by
      simp only [touchComputedBlocks, bind_eq_ok, pure_eq_ok, List.append_nil,
        Function.update_eq_self] at htouch
      obtain ⟨_, -, rfl⟩ := htouch
      simp [BlockPool.touch]
    rw [hsame] at htake
    obtain ⟨hfree, hpool, hblocks⟩ := takeNewBlocks_eq_ok hhash htake
    obtain ⟨hpool', hblocks'⟩ := commitFullBlocks_skip hcommit
    rw [hpool', hblocks']
    exact ⟨hfree, hpool, hblocks⟩

end FullAttention

/-! ## One owner for each block -/

/-- Every block but the placeholder is free without a reference, or it has one owner and one
reference; none is cached. -/
structure Exclusive (m : KVCacheManager) (numBlocks : ℕ) (owners : List ReqId) : Prop where
  size : m.blockPool.numGpuBlocks = numBlocks
  ledger : Ledger m.blockPool.items m.blockPool.freeBlockQueue owners m.reqToBlocks
  free_refCnt : ∀ b ∈ m.blockPool.freeBlockQueue, m.blockPool.refCnt b = 0
  owned_refCnt : ∀ q, ∀ b ∈ m.reqToBlocks q, m.blockPool.refCnt b = 1
  unhashed : m.blockPool.Unhashed

namespace Exclusive

variable {cfg : KVCacheConfig} {m m' : KVCacheManager} {numBlocks : ℕ} {owners : List ReqId}
  {q : ReqId} {r : Request}

theorem congr (h : m.Exclusive numBlocks owners) (hpool : m'.blockPool = m.blockPool)
    (hblocks : m'.reqToBlocks = m.reqToBlocks) : m'.Exclusive numBlocks owners := by
  obtain ⟨hsize, hledger, hfree, howned, hhash⟩ := h
  constructor
  · rwa [hpool]
  · rwa [hpool, hblocks]
  · rwa [hpool]
  · rwa [hpool, hblocks]
  · rwa [hpool]

theorem enter (h : m.Exclusive numBlocks owners) (hq : q ∉ owners) : m.Exclusive numBlocks (owners ++ [q]) :=
  ⟨h.size, h.ledger.enter hq, h.free_refCnt, h.owned_refCnt, h.unhashed⟩

theorem nodup (h : m.Exclusive numBlocks owners) (q : ReqId) : (m.reqToBlocks q).Nodup :=
  h.ledger.owned_nodup m.blockPool.items_nodup q

theorem nullBlock_notMem (h : m.Exclusive numBlocks owners) (q : ReqId) :
    nullBlock ∉ m.reqToBlocks q := fun hmem =>
  m.blockPool.nullBlock_notMem_items (h.ledger.mem_items.mpr (.inr ⟨q, hmem⟩))

theorem owner_unique (h : m.Exclusive numBlocks owners) {q q' : ReqId} {b : BlockId}
    (hq : b ∈ m.reqToBlocks q) (hq' : b ∈ m.reqToBlocks q') : q = q' :=
  h.ledger.owner_unique m.blockPool.items_nodup hq hq'

/-- A request that leaves returns all its blocks, and nothing else. -/
theorem free (h : m.Exclusive numBlocks owners) (cfg : KVCacheConfig) (q : ReqId) :
    (m.free cfg q).Exclusive numBlocks (owners.erase q) := by
  have hperm : (if cfg.enableCaching = true then (m.reqToBlocks q).reverse
      else m.reqToBlocks q).Perm (m.reqToBlocks q) := by
    split_ifs
    · exact List.reverse_perm _
    · exact .refl _
  have hpool : (m.free cfg q).blockPool = _ :=
    BlockPool.freeBlocks_eq (hperm.nodup_iff.mpr (h.nodup q))
      (hperm.mem_iff.not.mpr (h.nullBlock_notMem q))
      (fun b hb => h.owned_refCnt q b (hperm.mem_iff.mp hb))
  have hblocks : (m.free cfg q).reqToBlocks = Function.update m.reqToBlocks q [] := rfl
  refine ⟨?_, ?_, ?_, ?_, free_unhashed h.unhashed⟩
  · rw [hpool]
    exact h.size
  · rw [hpool, hblocks]
    exact h.ledger.leave hperm
  · rw [hpool]
    intro b hb
    by_cases hmem : b ∈ m.reqToBlocks q
    · simp only [hperm.mem_iff, hmem, ite_true]
    · rcases List.mem_append.mp hb with hb | hb
      · simpa only [hperm.mem_iff, hmem, ite_false] using h.free_refCnt b hb
      · exact absurd (hperm.mem_iff.mp hb) hmem
  · rw [hpool, hblocks]
    intro q' b hb
    by_cases hq : q' = q
    · simp [hq] at hb
    · rw [Function.update_of_ne hq] at hb
      have hmem : b ∉ m.reqToBlocks q := fun hmem => hq (h.owner_unique hb hmem)
      simpa only [hperm.mem_iff, hmem, ite_false] using h.owned_refCnt q' b hb

/-- A request that runs takes free blocks. -/
theorem allocate (h : m.Exclusive numBlocks owners) (hq : q ∈ owners)
    (hfull : cfg.kvCacheSpec = .fullAttention) {n lookahead : ℕ} {blocks : List BlockId}
    (halloc : SPKVCacheManager.allocateSlots cfg q r n [] lookahead m = .ok (some blocks, m')) :
    m'.Exclusive numBlocks owners := by
  obtain ⟨hqueue, hpool, hblocks⟩ := allocateSlots_eq_some hfull h.unhashed halloc
  have hfree : (blocks ++ m'.blockPool.freeBlockQueue).Nodup :=
    hqueue ▸ h.ledger.free_nodup m.blockPool.items_nodup
  obtain ⟨hnodup, -, hdisjoint⟩ := List.nodup_append.mp hfree
  have hrefCnt : ∀ b, m'.blockPool.refCnt b = m.blockPool.refCnt b + blocks.count b := by
    intro b
    rw [hpool]
  have hitems : m'.blockPool.items = m.blockPool.items := by
    simp only [BlockPool.items]
    rw [hpool]
  refine ⟨?_, ?_, ?_, ?_, allocateSlots_unhashed h.unhashed halloc⟩
  · rw [hpool]
    exact h.size
  · rw [hitems, hblocks]
    exact h.ledger.take hqueue hq
  · intro b hb
    have hcount : blocks.count b = 0 :=
      List.count_eq_zero.mpr (fun hmem => hdisjoint b hmem b hb rfl)
    rw [hrefCnt, hcount, h.free_refCnt b (hqueue ▸ List.mem_append_right _ hb)]
    rfl
  · intro q' b hb
    rw [hblocks] at hb
    have hcases : b ∈ m.reqToBlocks q' ∨ b ∈ blocks := by
      by_cases hq' : q' = q
      · subst hq'
        simpa using hb
      · rw [Function.update_of_ne hq'] at hb
        exact .inl hb
    rw [hrefCnt]
    rcases hcases with hold | hnew
    · have hcount : blocks.count b = 0 := List.count_eq_zero.mpr (fun hmem =>
        h.ledger.notMem_free m.blockPool.items_nodup hold (hqueue ▸ List.mem_append_left _ hmem))
      rw [hcount, h.owned_refCnt q' b hold]
      rfl
    · rw [List.count_eq_one_of_mem hnodup hnew,
        h.free_refCnt b (hqueue ▸ List.mem_append_left _ hnew)]
      rfl

end Exclusive

end KVCacheManager

/-! ## Scheduling -/

namespace Scheduling

variable {cfg : Config} {st st' : Scheduling}

/-- The running requests own the blocks. -/
abbrev Exclusive (cfg : Config) (st : Scheduling) : Prop :=
  st.kvCacheManager.Exclusive cfg.kvCache.numBlocks st.runningScheduled

theorem DrainMove.exclusive (hmove : DrainMove st st') (h : st.Exclusive cfg) :
    st'.Exclusive cfg := by
  cases hmove with
  | drainWait => exact h
  | drainReturn => exact h

theorem RunningMove.exclusive (hfull : cfg.kvCache.kvCacheSpec = .fullAttention)
    {inFlight : ReqId → ℕ} (hmove : RunningMove cfg st st') (hcont : st.Contained inFlight)
    (h : st.Exclusive cfg) : st'.Exclusive cfg := by
  cases hmove with
  | allocFail reqId n kv hmem hsched halloc =>
      rw [KVCacheManager.allocateSlots_eq_none hfull halloc]
      exact h
  | evict reqId realToken xs hlast =>
      have hfree := KVCacheManager.Exclusive.free h cfg.kvCache reqId
      have hnodup := hcont.running_nodup
      rw [hlast] at hfree hnodup
      have hleft : reqId ∉ xs := fun hmem =>
        (List.nodup_append.mp hnodup).2.2 _ hmem _ (List.mem_singleton_self _) rfl
      rw [List.erase_append_right _ hleft, List.erase_cons_head, List.append_nil] at hfree
      simpa only [Exclusive, preempt_runningScheduled, preempt_kvCacheManager] using hfree
  | assign reqId realToken n blocks kv hmem hsched heligible hn hpos halloc =>
      simp only [Exclusive, assignRunning_runningScheduled, assignRunning_kvCacheManager]
      exact KVCacheManager.Exclusive.allocate h hmem hfull halloc
  | drop => exact h

theorem WaitingMove.exclusive (hfull : cfg.kvCache.kvCacheSpec = .fullAttention)
    {inFlight : ReqId → ℕ} (hmove : WaitingMove cfg st st') (hcont : st.Contained inFlight)
    (h : st.Exclusive cfg) : st'.Exclusive cfg := by
  cases hmove with
  | markReady => exact h
  | searchCache reqId result kv hmem hsearch =>
      obtain ⟨hpool, hblocks⟩ := KVCacheManager.getComputedBlocks_frame hsearch
      exact KVCacheManager.Exclusive.congr h hpool hblocks
  | refused reqId n computedBlocks kv hmem halloc =>
      rw [KVCacheManager.allocateSlots_eq_none hfull halloc]
      exact h
  | admission reqId xs ys n numComputedTokens computedBlocks blocks kv₀ kv hmem hnone hroom hstatus
      hsearch hn hpos halloc =>
      have hwait : reqId ∈ st.waiting := by simp [hmem]
      have hrun := hcont.waiting_notMem_running hwait
      have hhash : kv₀.blockPool.Unhashed :=
        (KVCacheManager.getComputedBlocks_frame hsearch).1 ▸ h.unhashed
      have hnil := KVCacheManager.getComputedBlocks_eq_nil hhash hsearch
      simp only [Prod.mk.injEq] at hnil
      rw [hnil.1] at halloc
      have henter := KVCacheManager.Exclusive.enter h hrun
      exact henter.allocate (by simp) hfull halloc

theorem Move.exclusive (hfull : cfg.kvCache.kvCacheSpec = .fullAttention) {inFlight : ReqId → ℕ}
    (hmove : Move cfg st st') (hcont : st.Contained inFlight) (h : st.Exclusive cfg) :
    st'.Exclusive cfg := by
  cases hmove with
  | drain hmove => exact hmove.exclusive h
  | setPassed => exact h
  | running hmove => exact hmove.exclusive hfull hcont h
  | waiting hmove => exact hmove.exclusive hfull hcont h

theorem moves_exclusive (hfull : cfg.kvCache.kvCacheSpec = .fullAttention) {inFlight : ReqId → ℕ}
    (hmoves : Moves cfg st st') (hcont : st.Contained inFlight) (h : st.Exclusive cfg) :
    st'.Exclusive cfg := by
  induction hmoves with
  | refl => exact h
  | tail hmoves hmove ih => exact hmove.exclusive hfull (Scheduler.moves_contained hmoves hcont) ih

end Scheduling

/-! ## Verification -/

namespace Scheduler

abbrev Exclusive (cfg : Config) (s : Scheduler) : Prop :=
  s.kvCacheManager.Exclusive cfg.kvCache.numBlocks s.runningScheduled

variable {cfg : Config} {output : ModelRunnerOutput} {s s' : Scheduler}

theorem VerifyMove.exclusive {reqId : ReqId} {outputs : List EngineCoreOutput}
    (hmove : VerifyMove cfg output s reqId outputs s') (h : s.Exclusive cfg) : s'.Exclusive cfg := by
  cases hmove with
  | goesOn => exact h
  | stops =>
      have hfree := KVCacheManager.Exclusive.free h cfg.kvCache reqId
      exact hfree.congr rfl rfl

theorem VerifyMoves.exclusive {reqIds : List ReqId} {outputs : List EngineCoreOutput}
    (hmoves : VerifyMoves cfg output s reqIds outputs s') (h : s.Exclusive cfg) : s'.Exclusive cfg := by
  induction hmoves with
  | nil => exact h
  | cons hmove _ ih => exact ih (hmove.exclusive h)

end Scheduler

/-! ## Runs -/

namespace System

variable {cfg : Config} {sys sys' : System}

theorem init_exclusive (cfg : Config) : (init cfg).engine.scheduler.Exclusive cfg where
  size := rfl
  ledger := ⟨by simp [init, EngineCore.init, Scheduler.init, KVCacheManager.init, BlockPool.init,
    BlockPool.items], List.nodup_nil, fun _ _ => rfl⟩
  free_refCnt _ _ := rfl
  owned_refCnt q b hb := absurd hb List.not_mem_nil
  unhashed := BlockPool.init_unhashed _

theorem Step.exclusive (hfull : cfg.kvCache.kvCacheSpec = .fullAttention) {operation : Operation}
    (habort : operation.isAbort = false) (hplaced : sys.Placed)
    (h : sys.engine.scheduler.Exclusive cfg) (hstep : Step cfg sys operation sys') :
    sys'.engine.scheduler.Exclusive cfg := by
  cases hstep with
  | addRequest reqId promptTokenIds samplingParams eosTokenId hphase hfresh hadd =>
      unfold Scheduler.addRequest at hadd
      split_ifs at hadd
      cases hadd
      exact h
  | compileGrammar => exact h
  | finishRequests => exact absurd habort (by simp [Operation.isAbort])
  | verify hphase hverify =>
      rcases EngineCore.verify_cases hverify with ⟨-, hs, -⟩ | ⟨batch, queue, -, -, hmoves⟩
      · rw [hs]
        exact h
      · exact hmoves.exclusive h
  | schedule execute hphase hschedule =>
      obtain ⟨st, out, hlaunch⟩ := EngineCore.schedule_launch hplaced.contained hschedule
      have hst := Scheduling.moves_exclusive hfull hlaunch.spec.moves hplaced.contained h
      simpa only [Scheduler.Exclusive, hlaunch.spec.kvCacheManager, hlaunch.spec.running] using hst
  | ingest hphase hingest =>
      obtain ⟨-, -, -, hspec⟩ := EngineCore.ingest_contained hphase hplaced.contained hingest
      rw [Scheduler.Exclusive, hspec.eq]
      exact h

theorem Run.exclusive (hfull : cfg.kvCache.kvCacheSpec = .fullAttention)
    {operations : List Operation} (hrun : Run cfg operations sys)
    (habort : ∀ operation ∈ operations, operation.isAbort = false) :
    sys.engine.scheduler.Exclusive cfg :=
  (hrun.invariant_on (I := fun sys => sys.Placed ∧ sys.engine.scheduler.Exclusive cfg) habort
    ⟨init_placed cfg, init_exclusive cfg⟩ (fun _ _ _ habort h hstep =>
      ⟨hstep.placed habort h.1, hstep.exclusive hfull habort h.1 h.2⟩)).2

/-- What holds of the blocks in every state. -/
structure BlocksOwned (cfg : Config) (s : Scheduler) : Prop where
  /-- A block is free, once and without a reference, or it is once in the list of one request
  and has one reference. -/
  placed : ∀ b, b ≠ nullBlock → b < cfg.kvCache.numBlocks →
    (s.kvCacheManager.blockPool.freeBlockQueue.count b = 1 ∧
      s.kvCacheManager.blockPool.refCnt b = 0 ∧ ∀ q, b ∉ s.kvCacheManager.reqToBlocks q) ∨
    (b ∉ s.kvCacheManager.blockPool.freeBlockQueue ∧
      s.kvCacheManager.blockPool.refCnt b = 1 ∧
      ∃ q, (s.kvCacheManager.reqToBlocks q).count b = 1 ∧
        ∀ q', b ∈ s.kvCacheManager.reqToBlocks q' → q' = q)
  total : s.kvCacheManager.blockPool.freeBlockQueue.length +
    (s.runningScheduled.map fun q => (s.kvCacheManager.reqToBlocks q).length).sum =
      cfg.kvCache.numBlocks - 1
  /-- A request that does not run has nothing to free. -/
  idle : ∀ q ∉ s.runningScheduled, s.kvCacheManager.reqToBlocks q = []
  uncached : ∀ b, s.kvCacheManager.blockPool.blockHash b = none
  search : ∀ q r result kv,
    s.kvCacheManager.getComputedBlocks cfg.kvCache q r = .ok (result, kv) → result = ([], 0)

theorem blocksOwned_of_exclusive {s : Scheduler} (h : s.Exclusive cfg) : BlocksOwned cfg s := by
  have hitems := s.kvCacheManager.blockPool.items_nodup
  refine ⟨fun b hnull hlt => ?_, ?_, h.ledger.idle, h.unhashed.blockHash, fun q r result kv => ?_⟩
  · have hmem : b ∈ s.kvCacheManager.blockPool.items := by
      rw [BlockPool.mem_items, h.size]
      exact ⟨hnull, hlt⟩
    rcases h.ledger.mem_items.mp hmem with hfree | ⟨q, hq⟩
    · exact .inl ⟨List.count_eq_one_of_mem (h.ledger.free_nodup hitems) hfree,
        h.free_refCnt b hfree, fun q hq => h.ledger.notMem_free hitems hq hfree⟩
    · exact .inr ⟨h.ledger.notMem_free hitems hq, h.owned_refCnt q b hq, q,
        List.count_eq_one_of_mem (h.nodup q) hq, fun q' hq' => h.owner_unique hq' hq⟩
  · have hlength := h.ledger.length_eq
    rwa [BlockPool.items, h.size, List.length_tail, List.length_range] at hlength
  · exact KVCacheManager.getComputedBlocks_eq_nil h.unhashed

/-- The time during which a request owns a block, in the states of a run. -/
def BlockTenure (timeline : Transition.Timeline (Step cfg)) (b : BlockId) (q : ReqId)
    (first last : ℕ) : Prop :=
  Tenure (fun t q => b ∈ (timeline.state t).engine.scheduler.kvCacheManager.reqToBlocks q)
    timeline.length q first last

/-- The batch that an operation of the run schedules uses the block for the request. -/
def UsesBlock (timeline : Transition.Timeline (Step cfg)) (b : BlockId) (q : ReqId) (k : ℕ) :
    Prop :=
  k < timeline.length ∧ (∃ execute, timeline.label k = .schedule execute) ∧
    ∃ batch, (timeline.state (k + 1)).engine.batchQueueForSpec.getLast? = some (some batch) ∧
      batch.schedulerOutput.numScheduled q ≠ 0 ∧
      b ∈ (timeline.state (k + 1)).engine.scheduler.kvCacheManager.reqToBlocks q

/-- Blocks are never shared; and the batches that use a block for one owner are all scheduled
before those that use it for a later one. -/
theorem timeline_blocks_owned (hfull : cfg.kvCache.kvCacheSpec = .fullAttention)
    (timeline : Transition.Timeline (Step cfg)) (hinit : timeline.state 0 = init cfg)
    (habort : ∀ k < timeline.length, (timeline.label k).isAbort = false) :
    (∀ t ≤ timeline.length, BlocksOwned cfg (timeline.state t).engine.scheduler) ∧
    (∀ b q k, UsesBlock timeline b q k →
      ∃ first last, BlockTenure timeline b q first last ∧ first ≤ k + 1 ∧ k + 1 ≤ last) ∧
    ∀ b q q' first last first' last', BlockTenure timeline b q first last →
      BlockTenure timeline b q' first' last' → first < first' →
      ∀ k k', UsesBlock timeline b q k → UsesBlock timeline b q' k' → first ≤ k + 1 →
        k + 1 ≤ last → first' ≤ k' + 1 → k' + 1 ≤ last' → k < k' := by
  have hexclusive : ∀ t ≤ timeline.length,
      (timeline.state t).engine.scheduler.Exclusive cfg := by
    intro t ht
    have hrun := timeline.run ht
    rw [hinit] at hrun
    refine Run.exclusive hfull hrun (fun operation hmem => ?_)
    obtain ⟨k, hk, rfl⟩ := List.mem_map.mp hmem
    exact habort k ((List.mem_range.mp hk).trans_le ht)
  refine ⟨fun t ht => blocksOwned_of_exclusive (hexclusive t ht), ?_, ?_⟩
  · rintro b q k ⟨hk, -, batch, -, -, hb⟩
    exact exists_tenure hb hk
  · intro b q q' first last first' last' h h' hlt k k' _ _ _ hlast hfirst' _
    have hbefore : last < first' :=
      h.before (fun t ht i j hi hj => (hexclusive t ht).owner_unique hi hj) h' hlt
    omega

theorem timeline_blocks_owned_two_requests :
    ∃ timeline : Transition.Timeline (Step twoStages),
      (timeline.state timeline.length).engine.scheduler.kvCacheManager.reqToBlocks 0 = [1, 3] ∧
      BlocksOwned twoStages (timeline.state timeline.length).engine.scheduler := by
  let operations : List Operation :=
    [.addRequest 0 [5, 6] { maxTokens := 4 } none, .addRequest 1 [7] { maxTokens := 4 } none] ++
      iteration (constantExecutor 3 3) ++ iteration (constantExecutor 3 4) ++ [.verify]
  have hsome : (applyAll twoStages operations (init twoStages)).map
      (fun sys => sys.engine.scheduler.kvCacheManager.reqToBlocks 0) = some [1, 3] := by
    decide +kernel
  obtain ⟨sys, hsys, hblocks⟩ := Option.map_eq_some_iff.mp hsome
  have : Nonempty Operation := ⟨.verify⟩
  obtain ⟨timeline, hlength, hfirst, hlast, hlabels⟩ := (applyAll_run hsys).exists_timeline
  have hno : ∀ operation ∈ operations, operation.isAbort = false := by decide
  refine ⟨timeline, ?_, (timeline_blocks_owned rfl timeline hfirst (fun k hk =>
    hno _ (hlabels k (hlength ▸ hk)))).1 _ le_rfl⟩
  rw [hlength, hlast]
  exact hblocks

end System

end Spexis
