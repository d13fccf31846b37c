import Mathlib.Algebra.Order.BigOperators.Group.List
import Spexis.Verification.Batches
import Spexis.Verification.BlockOwnership

/-! # The blocks that an output hands out

The new blocks of every scheduled request, in the output and in the lists of the manager, whatever
has been aborted. -/

namespace Spexis

open Python

namespace BlockPool

theorem popBlocks_length {enableCaching : Bool} {n : ℕ} {p p' : BlockPool} {blocks : List BlockId}
    (h : popBlocks enableCaching n p = .ok (blocks, p')) : blocks.length = n := by
  induction n generalizing p blocks with
  | zero =>
      cases h
      rfl
  | succ n ih =>
      simp only [popBlocks] at h
      split at h
      · cases h
      · simp only [bind_eq_ok, pure_eq_ok, Prod.exists, Prod.mk.injEq] at h
        obtain ⟨_, -, rest, _, hrest, rfl, rfl⟩ := h
        rw [List.length_cons, ih hrest]

end BlockPool

namespace KVCacheManager

variable {cfg : KVCacheConfig} {m m' : KVCacheManager} {reqId : ReqId} {r : Request}

/-- Taking blocks covers what is needed, up to the longest list a request can have. -/
theorem takeNewBlocks_length {required lookahead : ℕ} {blocks : List BlockId}
    (hfree : required - (m.reqToBlocks reqId).length ≤ m.blockPool.getNumFreeBlocks)
    (hcap : (m.reqToBlocks reqId).length ≤ cfg.maxNumBlocksPerReq)
    (h : m.takeNewBlocks cfg reqId (required - (m.reqToBlocks reqId).length) lookahead =
      .ok (blocks, m')) :
    min required cfg.maxNumBlocksPerReq ≤ (m.reqToBlocks reqId).length + blocks.length ∧
      (m.reqToBlocks reqId).length + blocks.length ≤ cfg.maxNumBlocksPerReq := by
  unfold takeNewBlocks at h
  split_ifs at h with hzero
  · obtain ⟨rfl, -⟩ := Prod.mk.inj (Except.ok.inj h)
    rw [List.length_nil]
    omega
  · simp only [bind_eq_ok, pure_eq_ok, Prod.exists, Prod.mk.injEq] at h
    obtain ⟨_, -, _, pool, htake, rfl, -⟩ := h
    unfold BlockPool.getNewBlocks at htake
    split_ifs at htake
    rw [BlockPool.popBlocks_length htake, numBlocksToTake]
    omega

/-- A successful allocation covers the tokens, up to the longest list a request can have. -/
theorem allocateSlots_covers (hfull : cfg.kvCacheSpec = .fullAttention) {n lookahead : ℕ}
    {blocks : List BlockId} (hhash : m.blockPool.Unhashed)
    (hcap : (m.reqToBlocks reqId).length ≤ cfg.maxNumBlocksPerReq)
    (h : SPKVCacheManager.allocateSlots cfg reqId r n [] lookahead m = .ok (some blocks, m')) :
    min (cdiv (r.numComputedTokens + n) cfg.blockSize) cfg.maxNumBlocksPerReq ≤
        (m.reqToBlocks reqId).length + blocks.length ∧
      (m.reqToBlocks reqId).length + blocks.length ≤ cfg.maxNumBlocksPerReq := by
  unfold SPKVCacheManager.allocateSlots allocateSlots at h
  split_ifs at h
  simp only [bind_eq_ok] at h
  obtain ⟨m₁, hdrop, h⟩ := h
  obtain rfl := dropSkippedBlocks_eq_ok hfull hdrop
  split_ifs at h with hshort
  · simp at h
  · simp only [bind_eq_ok, Prod.exists] at h
    obtain ⟨m₂, htouch, _, m₃, htake, m₄, hcommit, rfl, rfl⟩ := h
    have hsame : m₂ = m₁ := by
      simp only [touchComputedBlocks, bind_eq_ok, pure_eq_ok, List.append_nil,
        Function.update_eq_self] at htouch
      obtain ⟨_, -, rfl⟩ := htouch
      simp [BlockPool.touch]
    rw [hsame] at htake
    simp only [List.length_nil, Nat.zero_mul, Nat.add_zero, Nat.sub_zero, List.filter_nil,
      Nat.cast_zero, sub_zero, not_lt, Nat.cast_le] at hshort htake
    obtain ⟨hcovers, hle⟩ := takeNewBlocks_length hshort hcap htake
    have hmono := cdiv_le_cdiv (Nat.le_add_right (r.numComputedTokens + n) lookahead) cfg.blockSize
    exact ⟨(min_le_min_right _ hmono).trans hcovers, hle⟩

end KVCacheManager

namespace Scheduling

variable {cfg : Config} {s : Scheduler} {st st' : Scheduling} {reqId : ReqId}

/-! ## The moves -/

/-- The scheduled requests that ran before. -/
def continuedReqs (st : Scheduling) : List ReqId :=
  st.scheduledRunningFlushedReqs ++ st.scheduledRunningSpReqs

/-- The scheduled requests that did not. -/
def admittedReqs (st : Scheduling) : List ReqId :=
  st.scheduledNewReqs ++ st.scheduledResumedReqs

/-- The blocks handed out so far, against those that the requests had when the call began. -/
structure Supplied (cfg : Config) (s : Scheduler) (st : Scheduling) : Prop where
  listed : Listed s st
  exclusive : st.Exclusive cfg
  capped : ∀ q, (st.kvCacheManager.reqToBlocks q).length ≤ cfg.kvCache.maxNumBlocksPerReq
  keys : st.reqToNewBlockIds.map Prod.fst = st.scheduled
  kept : ∀ q ∈ st.runningScheduled, q ∉ st.scheduled → q ∈ s.runningScheduled ∧
    st.kvCacheManager.reqToBlocks q = s.kvCacheManager.reqToBlocks q
  continued : ∀ q ∈ st.continuedReqs, q ∈ s.runningScheduled
  evicted : ∀ q ∈ s.runningScheduled, q ∉ st.runningScheduled → st.preemptedReqs ≠ []
  resumed : ∀ q ∈ st.scheduledResumedReqs, q ∉ s.runningScheduled
  computed : ∀ q ∈ st.runningScheduled, (st.request q).numComputedTokens =
    if q ∈ st.admittedReqs then 0 else (s.request q).numComputedTokens
  handed : ∀ q blocks, dictGet? st.reqToNewBlockIds q = some blocks →
    st.kvCacheManager.reqToBlocks q =
      (if q ∈ st.continuedReqs then s.kvCacheManager.reqToBlocks q else []) ++ blocks
  covered : ∀ q n, dictGet? st.numScheduledTokens q = some n → 0 < n ∧
    min (cdiv ((st.request q).numComputedTokens + n) cfg.kvCache.blockSize)
      cfg.kvCache.maxNumBlocksPerReq ≤ (st.kvCacheManager.reqToBlocks q).length

theorem begin_supplied (hs : s.Queued) (hexclusive : s.Exclusive cfg)
    (hcapped : ∀ q, (s.kvCacheManager.reqToBlocks q).length ≤ cfg.kvCache.maxNumBlocksPerReq) :
    Supplied cfg s (s.begin cfg) where
  listed := begin_listed hs
  exclusive := hexclusive
  capped := hcapped
  keys := rfl
  kept _ hq _ := ⟨hq, rfl⟩
  continued _ hq := absurd hq List.not_mem_nil
  evicted _ hq hnot := absurd hq hnot
  resumed _ hq := absurd hq List.not_mem_nil
  computed _ _ := rfl
  handed _ _ hget := by cases hget
  covered _ _ hget := by cases hget

theorem Listed.running_nodup (h : Listed s st) : st.runningScheduled.Nodup :=
  h.places_nodup.sublist
    ((List.sublist_append_right _ _).trans (List.sublist_append_left _ _))

theorem Listed.waiting_notMem_running (h : Listed s st) (hq : reqId ∈ st.waiting) :
    reqId ∉ st.runningScheduled := fun hrunning =>
  (List.nodup_append.mp (List.nodup_append.mp h.places_nodup).1).2.2 reqId hq reqId hrunning rfl

theorem Listed.returned_notMem_running (h : Listed s st) (hq : reqId ∈ st.toBePreempted) :
    reqId ∉ st.runningScheduled := fun hrunning =>
  (List.nodup_append.mp h.places_nodup).2.2 reqId (List.mem_append_right _ hrunning) reqId hq rfl

theorem Listed.continued_scheduled (h : Listed s st) (hq : reqId ∈ st.continuedReqs) :
    reqId ∈ st.scheduled := by
  refine h.perm.mem_iff.mp (List.mem_append_right _ ?_)
  rw [cachedReqs, List.append_assoc]
  exact List.mem_append_right _ hq

/-- A move that schedules nothing. -/
theorem Supplied.unscheduled (h : Supplied cfg s st) (hmove : Move cfg st st')
    (hnum : st'.numScheduledTokens = st.numScheduledTokens)
    (hnew : st'.reqToNewBlockIds = st.reqToNewBlockIds)
    (hcontinued : st'.continuedReqs = st.continuedReqs)
    (hadmitted : st'.scheduledNewReqs = st.scheduledNewReqs ∧
      st'.scheduledResumedReqs = st.scheduledResumedReqs)
    (hrunning : st'.runningScheduled = st.runningScheduled ∧
        (st.preemptedReqs ≠ [] → st'.preemptedReqs ≠ []) ∨
      st'.runningScheduled ⊆ st.runningScheduled ∧ st'.preemptedReqs ≠ [])
    (hexclusive : st'.Exclusive cfg)
    (hblocks : ∀ q ∈ st'.runningScheduled,
      st'.kvCacheManager.reqToBlocks q = st.kvCacheManager.reqToBlocks q)
    (hcomputed : ∀ q ∈ st'.runningScheduled,
      (st'.request q).numComputedTokens = (st.request q).numComputedTokens) :
    Supplied cfg s st' := by
  have hsub : st'.runningScheduled ⊆ st.runningScheduled := by
    rcases hrunning with ⟨hsame, -⟩ | ⟨hsub, -⟩
    · exact hsame ▸ List.Subset.refl _
    · exact hsub
  have hlisted := hmove.listed h.listed
  have hscheduled : st'.scheduled = st.scheduled := by
    rw [scheduled, hnum, scheduled]
  have hmem : ∀ {q : ReqId} {n : ℕ}, dictGet? st'.numScheduledTokens q = some n →
      q ∈ st'.scheduled := by
    intro q n hget
    by_contra hnot
    rw [dictGet?_eq_none.mpr hnot] at hget
    cases hget
  constructor
  · exact hlisted
  · exact hexclusive
  · intro q
    by_cases hq : q ∈ st'.runningScheduled
    · rw [hblocks q hq]
      exact h.capped q
    · rw [hexclusive.ledger.idle q hq]
      exact Nat.zero_le _
  · rw [hnew, hscheduled, h.keys]
  · intro q hq hnot
    rw [hblocks q hq]
    exact h.kept q (hsub hq) (hscheduled ▸ hnot)
  · rw [hcontinued]
    exact h.continued
  · intro q hq hnot
    rcases hrunning with ⟨hsame, hkeeps⟩ | ⟨-, hpreempted⟩
    · exact hkeeps (h.evicted q hq (hsame ▸ hnot))
    · exact hpreempted
  · rw [hadmitted.2]
    exact h.resumed
  · intro q hq
    rw [hcomputed q hq, admittedReqs, hadmitted.1, hadmitted.2]
    exact h.computed q (hsub hq)
  · intro q blocks hget
    have hq : q ∈ st'.scheduled := by
      rw [hscheduled, ← h.keys, ← hnew]
      by_contra hnot
      rw [dictGet?_eq_none.mpr hnot] at hget
      cases hget
    rw [hnew] at hget
    rw [hcontinued, hblocks q (hlisted.running hq)]
    exact h.handed q blocks hget
  · intro q n hget
    have hq := hmem hget
    rw [hnum] at hget
    rw [hcomputed q (hlisted.running hq), hblocks q (hlisted.running hq)]
    exact h.covered q n hget

/-- A move that schedules one request and hands it blocks. -/
theorem Supplied.schedule (n : ℕ) (blocks : List BlockId) (h : Supplied cfg s st)
    (hmove : Move cfg st st') (hnot : reqId ∉ st.scheduled) (hpos : 0 < n)
    (hnum : st'.numScheduledTokens = dictSet st.numScheduledTokens reqId n)
    (hnew : st'.reqToNewBlockIds = dictSet st.reqToNewBlockIds reqId blocks)
    (hrunning : ∀ q, q ∈ st'.runningScheduled ↔ q ∈ st.runningScheduled ∨ q = reqId)
    (hexclusive : st'.Exclusive cfg)
    (hblocks : st'.kvCacheManager.reqToBlocks = Function.update st.kvCacheManager.reqToBlocks reqId
      (st.kvCacheManager.reqToBlocks reqId ++ blocks))
    (hcovers : min (cdiv ((st'.request reqId).numComputedTokens + n) cfg.kvCache.blockSize)
        cfg.kvCache.maxNumBlocksPerReq ≤
          (st.kvCacheManager.reqToBlocks reqId).length + blocks.length ∧
      (st.kvCacheManager.reqToBlocks reqId).length + blocks.length ≤
        cfg.kvCache.maxNumBlocksPerReq)
    (hcomputed : ∀ q ≠ reqId,
      (st'.request q).numComputedTokens = (st.request q).numComputedTokens)
    (hcontinued : reqId ∈ st.runningScheduled ∧
        (∀ q, q ∈ st'.continuedReqs ↔ q ∈ st.continuedReqs ∨ q = reqId) ∧
        st'.admittedReqs = st.admittedReqs ∧
        (st'.request reqId).numComputedTokens = (st.request reqId).numComputedTokens ∨
      reqId ∉ st.runningScheduled ∧ st'.continuedReqs = st.continuedReqs ∧
        (∀ q, q ∈ st'.admittedReqs ↔ q ∈ st.admittedReqs ∨ q = reqId) ∧
        (st'.request reqId).numComputedTokens = 0)
    (hpreempted : st'.preemptedReqs = st.preemptedReqs)
    (hresumed : ∀ q ∈ st'.scheduledResumedReqs, q ∈ st.scheduledResumedReqs ∨
      q = reqId ∧ reqId ∉ st.runningScheduled ∧ st.preemptedReqs = []) :
    Supplied cfg s st' := by
  have hnotNew : reqId ∉ st.reqToNewBlockIds.map Prod.fst := h.keys ▸ hnot
  have hscheduled : st'.scheduled = st.scheduled ++ [reqId] := by
    rw [scheduled, hnum, dictSet_of_notMem hnot, List.map_append, scheduled]
    rfl
  have hnotContinued : reqId ∉ st.continuedReqs := fun hq => hnot (h.listed.continued_scheduled hq)
  have hiff : ∀ q ≠ reqId, (q ∈ st'.continuedReqs ↔ q ∈ st.continuedReqs) := by
    intro q hq
    rcases hcontinued with ⟨-, hcontinued, -⟩ | ⟨-, hcontinued, -⟩
    · rw [hcontinued]
      simp [hq]
    · rw [hcontinued]
  constructor
  · exact hmove.listed h.listed
  · exact hexclusive
  · intro q
    rw [hblocks]
    by_cases hq : q = reqId
    · rw [hq, Function.update_self, List.length_append]
      exact hcovers.2
    · rw [Function.update_of_ne hq]
      exact h.capped q
  · rw [hnew, dictSet_of_notMem hnotNew, List.map_append, h.keys, hscheduled]
    rfl
  · intro q hq hnotMem
    rw [hscheduled, List.mem_append, not_or, List.mem_singleton] at hnotMem
    rw [hblocks, Function.update_of_ne hnotMem.2]
    exact h.kept q (((hrunning q).mp hq).resolve_right hnotMem.2) hnotMem.1
  · intro q hq
    rcases hcontinued with ⟨hmem, hcontinued, -⟩ | ⟨-, hcontinued, -⟩
    · rcases (hcontinued q).mp hq with hq | rfl
      · exact h.continued q hq
      · exact (h.kept q hmem hnot).1
    · exact h.continued q (hcontinued ▸ hq)
  · intro q hq hnotMem
    rw [hpreempted]
    exact h.evicted q hq fun hmem => hnotMem ((hrunning q).mpr (.inl hmem))
  · intro q hq
    rcases hresumed q hq with hq | ⟨rfl, hnotMem, hnone⟩
    · exact h.resumed q hq
    · exact fun hmem => h.evicted q hmem hnotMem hnone
  · intro q hq
    have hold := (hrunning q).mp hq
    by_cases hqr : q = reqId
    · subst hqr
      rcases hcontinued with ⟨hmem, -, hadmitted, hsame⟩ | ⟨-, -, hadmitted, hzero⟩
      · rw [hadmitted, hsame]
        exact h.computed q hmem
      · rw [hzero, if_pos ((hadmitted q).mpr (.inr rfl))]
    · have hiffAdmitted : q ∈ st'.admittedReqs ↔ q ∈ st.admittedReqs := by
        rcases hcontinued with ⟨-, -, hadmitted, -⟩ | ⟨-, -, hadmitted, -⟩
        · rw [hadmitted]
        · rw [hadmitted]
          simp [hqr]
      simp only [hiffAdmitted]
      rw [hcomputed q hqr]
      exact h.computed q (hold.resolve_right hqr)
  · intro q newBlocks hget
    rw [hnew] at hget
    rw [hblocks]
    by_cases hq : q = reqId
    · subst hq
      rw [dictGet?_dictSet_self hnotNew, Option.some_inj] at hget
      rw [Function.update_self, ← hget]
      rcases hcontinued with ⟨hmem, hcontinued, -⟩ | ⟨hmem, hcontinued, -⟩
      · rw [if_pos ((hcontinued q).mpr (.inr rfl)), (h.kept q hmem hnot).2]
      · rw [hcontinued, if_neg hnotContinued, h.exclusive.ledger.idle q hmem]
    · rw [dictGet?_dictSet_of_ne hnotNew hq] at hget
      rw [Function.update_of_ne hq, h.handed q newBlocks hget]
      simp only [hiff q hq]
  · intro q m hget
    rw [hnum] at hget
    rw [hblocks]
    by_cases hq : q = reqId
    · subst hq
      rw [dictGet?_dictSet_self hnot, Option.some_inj] at hget
      subst hget
      rw [Function.update_self, List.length_append]
      exact ⟨hpos, hcovers.1⟩
    · rw [dictGet?_dictSet_of_ne hnot hq] at hget
      rw [Function.update_of_ne hq, hcomputed q hq]
      exact h.covered q m hget

theorem RunningMove.supplied (hfull : cfg.kvCache.kvCacheSpec = .fullAttention)
    (hmove : RunningMove cfg st st') (h : Supplied cfg s st) : Supplied cfg s st' := by
  have hmove' : Move cfg st st' := .running hmove
  cases hmove with
  | allocFail reqId n kv hmem hsched halloc =>
      rw [KVCacheManager.allocateSlots_eq_none hfull halloc]
      exact h
  | evict reqId realToken xs hlast hsched =>
      have hnodup := h.listed.running_nodup
      rw [hlast] at hnodup
      have hleft : reqId ∉ xs := fun hmem =>
        (List.nodup_append.mp hnodup).2.2 _ hmem _ (List.mem_singleton_self _) rfl
      have hfree := KVCacheManager.Exclusive.free h.exclusive cfg.kvCache reqId
      rw [hlast, List.erase_append_right _ hleft, List.erase_cons_head, List.append_nil] at hfree
      refine h.unscheduled hmove' ?_ ?_ ?_ ⟨?_, ?_⟩ (.inr ⟨?_, ?_⟩) ?_ ?_ ?_
      · rw [preempt_numScheduledTokens]
      · rw [preempt_reqToNewBlockIds]
      · unfold preempt
        split <;> rfl
      · unfold preempt
        split <;> rfl
      · unfold preempt
        split <;> rfl
      · rw [preempt_runningScheduled, hlast]
        exact List.subset_append_left _ _
      · unfold preempt
        split <;> simp
      · simpa only [Exclusive, preempt_runningScheduled, preempt_kvCacheManager] using hfree
      · intro q hq
        rw [preempt_runningScheduled] at hq
        have hne : q ≠ reqId := fun heq => hleft (heq ▸ hq)
        rw [preempt_kvCacheManager]
        exact Function.update_of_ne hne _ _
      · intro q hq
        rw [preempt_runningScheduled] at hq
        have hne : q ≠ reqId := fun heq => hleft (heq ▸ hq)
        rw [preempt_request_of_ne hne]
  | assign reqId realToken n blocks kv hmem hsched heligible hn hpos halloc =>
      obtain ⟨-, -, hblocks⟩ :=
        KVCacheManager.allocateSlots_eq_some hfull h.exclusive.unhashed halloc
      have hcovers := KVCacheManager.allocateSlots_covers hfull h.exclusive.unhashed
        (h.capped reqId) halloc
      have hcomputed : (claimed (st.request reqId) realToken).numComputedTokens =
          (st.request reqId).numComputedTokens := by
        cases realToken <;> rfl
      refine h.schedule n blocks hmove' hsched hpos ?_ ?_ ?_ ?_ ?_ ?_ ?_
        (.inl ⟨hmem, ?_, ?_, ?_⟩) ?_ ?_
      · rw [assignRunning_numScheduledTokens]
        rfl
      · rw [assignRunning_reqToNewBlockIds]
        rfl
      · intro q
        rw [assignRunning_runningScheduled]
        exact ⟨.inl, fun hq => hq.elim id fun heq => heq ▸ hmem⟩
      · simp only [Exclusive, assignRunning_runningScheduled, assignRunning_kvCacheManager]
        exact KVCacheManager.Exclusive.allocate h.exclusive hmem hfull halloc
      · rw [assignRunning_kvCacheManager]
        exact hblocks
      · rw [assignRunning_request]
        simpa [hcomputed] using hcovers
      · intro q hq
        rw [assignRunning_request]
        simp [hq]
      · intro q
        cases realToken <;>
          simp only [assignRunning, assignFlushed, assignSp, continuedReqs, setRequest,
            List.mem_append, List.mem_singleton] <;> tauto
      · cases realToken <;> rfl
      · rw [assignRunning_request]
        simp [hcomputed]
      · cases realToken <;> rfl
      · intro q hq
        refine .inl ?_
        cases realToken <;> exact hq
  | drop reqId hmem hsched =>
      refine h.unscheduled hmove' rfl rfl rfl ⟨rfl, rfl⟩ (.inl ⟨rfl, id⟩) h.exclusive
        (fun _ _ => rfl) fun q _ => ?_
      by_cases hq : q = reqId
      · rw [hq, setRequest_request, Function.update_self]
      · simp [hq]

theorem WaitingMove.supplied (hfull : cfg.kvCache.kvCacheSpec = .fullAttention)
    (hmove : WaitingMove cfg st st') (h : Supplied cfg s st) : Supplied cfg s st' := by
  have hmove' : Move cfg st st' := .waiting hmove
  cases hmove with
  | markReady reqId hmem =>
      refine h.unscheduled hmove' rfl rfl rfl ⟨rfl, rfl⟩ (.inl ⟨rfl, id⟩) h.exclusive (fun _ _ => rfl)
        fun q _ => ?_
      by_cases hq : q = reqId
      · rw [hq, setRequest_request, Function.update_self]
        unfold ready
        split <;> rfl
      · simp [hq]
  | searchCache reqId result kv hmem hsearch =>
      obtain ⟨hpool, hblocks⟩ := KVCacheManager.getComputedBlocks_frame hsearch
      exact h.unscheduled hmove' rfl rfl rfl ⟨rfl, rfl⟩ (.inl ⟨rfl, id⟩)
        (KVCacheManager.Exclusive.congr h.exclusive hpool hblocks)
        (fun q _ => congrFun hblocks q) fun _ _ => rfl
  | refused reqId n computedBlocks kv hmem halloc =>
      rw [KVCacheManager.allocateSlots_eq_none hfull halloc]
      exact h
  | admission reqId xs ys n numComputedTokens computedBlocks blocks kv₀ kv hmem hnone hroom hstatus
      hsearch hn hpos halloc =>
      have hwait : reqId ∈ st.waiting := by simp [hmem]
      have hrun := h.listed.waiting_notMem_running hwait
      have hnot : reqId ∉ st.scheduled := fun hsched => hrun (h.listed.running hsched)
      have hhash : kv₀.blockPool.Unhashed :=
        (KVCacheManager.getComputedBlocks_frame hsearch).1 ▸ h.exclusive.unhashed
      obtain ⟨rfl, rfl⟩ := Prod.mk.inj (KVCacheManager.getComputedBlocks_eq_nil hhash hsearch)
      obtain ⟨-, -, hblocks⟩ :=
        KVCacheManager.allocateSlots_eq_some hfull h.exclusive.unhashed halloc
      have hcovers := KVCacheManager.allocateSlots_covers hfull h.exclusive.unhashed
        (h.capped reqId) halloc
      have henter := KVCacheManager.Exclusive.enter h.exclusive hrun
      refine h.schedule n blocks hmove' hnot hpos ?_ ?_ ?_ ?_ ?_ ?_ ?_
        (.inr ⟨hrun, rfl, ?_, ?_⟩) rfl ?_
      · rw [admitted_numScheduledTokens]
      · rfl
      · intro q
        rw [admitted_runningScheduled]
        simp
      · simp only [Exclusive, admitted_runningScheduled, admitted_kvCacheManager]
        exact henter.allocate (by simp) hfull halloc
      · rw [admitted_kvCacheManager]
        exact hblocks
      · have hmono := cdiv_le_cdiv (Nat.le_add_left n (st.request reqId).numComputedTokens)
          cfg.kvCache.blockSize
        rw [admitted_request, Function.update_self, Nat.zero_add]
        exact ⟨(min_le_min_right _ hmono).trans hcovers.1, hcovers.2⟩
      · intro q hq
        rw [admitted_request]
        simp [hq]
      · intro q
        by_cases hpreempted : (st.request reqId).status = .preempted
        · simp only [admittedReqs, admitted, hpreempted, ite_true, List.mem_append,
            List.mem_singleton, assign, setRequest]
          tauto
        · simp only [admittedReqs, admitted, hpreempted, ite_false, List.mem_append,
            List.mem_singleton, assign, setRequest]
          tauto
      · rw [admitted_request, Function.update_self]
      · intro q hq
        unfold admitted at hq
        dsimp only at hq
        split_ifs at hq with hpreempted
        · rw [List.mem_append, List.mem_singleton] at hq
          exact hq.imp_right fun heq => ⟨heq, hrun, hnone⟩
        · exact .inl hq

theorem Move.supplied (hfull : cfg.kvCache.kvCacheSpec = .fullAttention) (h : Supplied cfg s st)
    (hmove : Move cfg st st') : Supplied cfg s st' := by
  cases id hmove with
  | drain hmove' =>
      cases hmove' with
      | drainWait reqId hmem =>
          refine h.unscheduled hmove rfl rfl rfl ⟨rfl, rfl⟩ (.inl ⟨rfl, by simp⟩) h.exclusive
            (fun _ _ => rfl) fun q hq => ?_
          have hne : q ≠ reqId := fun heq => h.listed.returned_notMem_running hmem
            (heq ▸ hq)
          simp [hne]
      | drainReturn reqId xs ys hlist =>
          refine h.unscheduled hmove rfl rfl rfl ⟨rfl, rfl⟩ (.inl ⟨rfl, by simp⟩) h.exclusive
            (fun _ _ => rfl) fun q hq => ?_
          have hmem : reqId ∈ st.toBePreempted := by simp [hlist]
          have hne : q ≠ reqId := fun heq => h.listed.returned_notMem_running hmem
            (heq ▸ hq)
          simp [hne]
  | setPassed passed =>
      refine h.unscheduled hmove rfl rfl rfl ⟨rfl, rfl⟩ (.inl ⟨rfl, id⟩) h.exclusive (fun _ _ => rfl)
        fun q _ => ?_
      obtain ⟨b, hb⟩ := setConfidencePassed_request st passed q
      rw [hb]
  | running hmove' => exact hmove'.supplied hfull h
  | waiting hmove' => exact hmove'.supplied hfull h

theorem moves_supplied (hfull : cfg.kvCache.kvCacheSpec = .fullAttention) (h : Supplied cfg s st)
    (hmoves : Moves cfg st st') : Supplied cfg s st' := by
  induction hmoves with
  | refl => exact h
  | tail _ hmove ih => exact hmove.supplied hfull ih

/-! ## The output -/

theorem makeNewRequestData_mem {reqIds : List ReqId} {datas : List NewRequestData}
    (h : reqIds.mapM st.makeNewRequestData = .ok datas) : ∀ data ∈ datas,
      data.reqId ∈ reqIds ∧ dictGet? st.reqToNewBlockIds data.reqId = some data.blockIds ∧
        data.numComputedTokens = (st.request data.reqId).numComputedTokens := by
  induction reqIds generalizing datas with
  | nil =>
      cases h
      exact fun _ hdata => absurd hdata List.not_mem_nil
  | cons reqId reqIds ih =>
      simp only [List.mapM_cons, makeNewRequestData, bind_eq_ok, pure_eq_ok] at h
      obtain ⟨_, ⟨blockIds, hget, rfl⟩, rest, hrest, rfl⟩ := h
      intro data hdata
      rcases List.mem_cons.mp hdata with rfl | hdata
      · exact ⟨List.mem_cons_self, dictGet_eq_ok.mp hget, rfl⟩
      · obtain ⟨hmem, hdata⟩ := ih hrest data hdata
        exact ⟨List.mem_cons_of_mem _ hmem, hdata⟩

theorem built_numComputedTokens (r : Request) (cached : Bool) :
    (r.built cached).numComputedTokens = r.numComputedTokens := by
  unfold Request.built Request.correctionSent
  split_ifs <;> rfl

theorem carry_frame {data data' : CachedRequestData} {r : Request} {correction : Option (Option ℤ)}
    (h : data.carry r correction = .ok data') :
    data'.reqId = data.reqId ∧ data'.resumedFromPreemption = data.resumedFromPreemption ∧
      data'.newBlockIds = data.newBlockIds ∧ data'.numComputedTokens = data.numComputedTokens := by
  unfold CachedRequestData.carry at h
  split at h
  · cases h
    exact ⟨rfl, rfl, rfl, rfl⟩
  · cases h
  · simp only [bind_eq_ok, pure_eq_ok] at h
    obtain ⟨_, -, rfl⟩ := h
    exact ⟨rfl, rfl, rfl, rfl⟩

/-- What the data of a cached request says of its blocks. -/
theorem makeCachedRequestDataList_mem {resumed : Bool} {reqIds : List ReqId}
    {datas : List CachedRequestData}
    (h : makeCachedRequestDataList resumed reqIds st = .ok (datas, st')) : ∀ data ∈ datas,
      data.reqId ∈ reqIds ∧ data.resumedFromPreemption = resumed ∧
        dictGet? st.reqToNewBlockIds data.reqId = some data.newBlockIds ∧
        data.numComputedTokens = (st.request data.reqId).numComputedTokens := by
  induction reqIds generalizing st datas with
  | nil =>
      cases h
      exact fun _ hdata => absurd hdata List.not_mem_nil
  | cons reqId reqIds ih =>
      simp only [makeCachedRequestDataList, bind_eq_ok, pure_eq_ok, Prod.exists,
        Prod.mk.injEq] at h
      obtain ⟨reqData, st₁, hone, rest, _, hrest, rfl, rfl⟩ := h
      have heq := makeCachedRequestData_eq_ok hone
      intro data hdata
      rcases List.mem_cons.mp hdata with rfl | hdata
      · simp only [makeCachedRequestData, bind_eq_ok, pure_eq_ok, Prod.mk.injEq] at hone
        obtain ⟨_, -, newBlockIds, hget, reqData, hcarry, rfl, -⟩ := hone
        obtain ⟨hreqId, hresumed, hblocks, hcomputed⟩ := carry_frame hcarry
        rw [hreqId, hresumed, hblocks, hcomputed]
        exact ⟨List.mem_cons_self, rfl, dictGet_eq_ok.mp hget, rfl⟩
      · obtain ⟨hmem, hresumed, hget, hcomputed⟩ := ih hrest data hdata
        rw [heq] at hget hcomputed
        refine ⟨List.mem_cons_of_mem _ hmem, hresumed, hget, hcomputed.trans ?_⟩
        rw [setRequest_request]
        by_cases hq : data.reqId = reqId
        · rw [hq, Function.update_self]
          exact built_numComputedTokens _ true
        · rw [Function.update_of_ne hq]

theorem makeOutput_mem {out : SpexisSchedulerOutput} {resumeHelper : ResumeHelper}
    (h : st.makeOutput = .ok (out, resumeHelper, st')) :
    (∀ data ∈ out.scheduledNewReqs, data.reqId ∈ st.scheduledNewReqs ∧
      dictGet? st.reqToNewBlockIds data.reqId = some data.blockIds ∧
        data.numComputedTokens = (st.request data.reqId).numComputedTokens) ∧
    ∀ data ∈ out.scheduledCachedReqs,
      (if data.resumedFromPreemption then data.reqId ∈ st.scheduledResumedReqs
        else data.reqId ∈ st.continuedReqs) ∧
      dictGet? st.reqToNewBlockIds data.reqId = some data.newBlockIds ∧
        data.numComputedTokens = (st.request data.reqId).numComputedTokens := by
  simp only [makeOutput, bind_eq_ok, pure_eq_ok, Prod.exists, Prod.mk.injEq] at h
  obtain ⟨_, hnew, resumed, st₁, hresumed, flushed, st₂, hflushed, sp, st₃, hsp, rfl, -, -⟩ := h
  have hbuilt₁ := makeCachedRequestDataList_built hresumed
  have hbuilt₂ := hbuilt₁.trans (makeCachedRequestDataList_built hflushed)
  refine ⟨makeNewRequestData_mem hnew, fun data hdata => ?_⟩
  rw [List.mem_append, List.mem_append] at hdata
  rcases hdata with (hdata | hdata) | hdata
  · obtain ⟨hmem, hflag, hdata⟩ := makeCachedRequestDataList_mem hresumed data hdata
    rw [if_pos hflag]
    exact ⟨hmem, hdata⟩
  · obtain ⟨hmem, hflag, hget, hdata⟩ := makeCachedRequestDataList_mem hflushed data hdata
    rw [hbuilt₁.eq] at hmem hget hdata
    rw [if_neg (by simp [hflag]), hdata, built_numComputedTokens]
    exact ⟨List.mem_append_left _ hmem, hget, rfl⟩
  · obtain ⟨hmem, hflag, hget, hdata⟩ := makeCachedRequestDataList_mem hsp data hdata
    rw [hbuilt₂.eq] at hmem hget hdata
    rw [if_neg (by simp [hflag]), hdata, built_numComputedTokens]
    exact ⟨List.mem_append_right _ hmem, hget, rfl⟩

end Scheduling

/-- Where the new tokens of the listed requests start. -/
def SpexisSchedulerOutput.starts (out : SpexisSchedulerOutput) : List (ReqId × ℕ) :=
  out.scheduledNewReqs.map (fun data => (data.reqId, data.numComputedTokens)) ++
    out.scheduledCachedReqs.map fun data => (data.reqId, data.numComputedTokens)

theorem SpexisSchedulerOutput.mem_starts (out : SpexisSchedulerOutput) {start : ReqId × ℕ}
    (h : start ∈ out.starts) : start.1 ∈ out.reqIds := by
  rcases List.mem_append.mp h with h | h
  · obtain ⟨data, hdata, rfl⟩ := List.mem_map.mp h
    exact List.mem_append_left _ (List.mem_map_of_mem hdata)
  · obtain ⟨data, hdata, rfl⟩ := List.mem_map.mp h
    exact List.mem_append_right _ (List.mem_map_of_mem hdata)

theorem SpexisSchedulerOutput.exists_start (out : SpexisSchedulerOutput) {q : ReqId}
    (h : q ∈ out.reqIds) : ∃ start ∈ out.starts, start.1 = q := by
  rcases List.mem_append.mp h with h | h
  · obtain ⟨data, hdata, rfl⟩ := List.mem_map.mp h
    exact ⟨_, List.mem_append_left _ (List.mem_map_of_mem hdata), rfl⟩
  · obtain ⟨data, hdata, rfl⟩ := List.mem_map.mp h
    exact ⟨_, List.mem_append_right _ (List.mem_map_of_mem hdata), rfl⟩

/-- The blocks of a request after its update. -/
def CachedRequestData.blocks (data : CachedRequestData) (blockIds : List BlockId) :
    List BlockId :=
  if data.resumedFromPreemption then data.newBlockIds else blockIds ++ data.newBlockIds

namespace Scheduler

open Scheduling

variable {cfg : Config} {s s' : Scheduler}

abbrev blocksOf (s : Scheduler) (q : ReqId) : List BlockId :=
  s.kvCacheManager.reqToBlocks q

/-- The blocks that an output hands out. -/
structure SupplySpec (cfg : Config) (s : Scheduler) (out : SpexisSchedulerOutput)
    (s' : Scheduler) : Prop where
  exclusive : s'.Exclusive cfg
  capped : ∀ q, (s'.blocksOf q).length ≤ cfg.kvCache.maxNumBlocksPerReq
  running : out.reqIds ⊆ s'.runningScheduled
  new : ∀ data ∈ out.scheduledNewReqs, s'.blocksOf data.reqId = data.blockIds
  cached : ∀ data ∈ out.scheduledCachedReqs,
    s'.blocksOf data.reqId = data.blocks (s.blocksOf data.reqId)
  continued : ∀ data ∈ out.scheduledCachedReqs, data.resumedFromPreemption = false →
    data.reqId ∈ s.runningScheduled
  resumed : ∀ data ∈ out.scheduledCachedReqs, data.resumedFromPreemption = true →
    data.reqId ∉ s.runningScheduled
  kept : ∀ q ∈ s'.runningScheduled, q ∉ out.reqIds →
    q ∈ s.runningScheduled ∧ s'.blocksOf q = s.blocksOf q
  positive : ∀ item ∈ out.numScheduledTokens, 1 ≤ item.2
  total : out.totalNumScheduledTokens = (out.numScheduledTokens.map Prod.snd).sum
  total_le : out.totalNumScheduledTokens ≤ cfg.maxNumScheduledTokens
  running_le : s'.runningScheduled.length ≤ cfg.scheduler.maxNumSeqs
  starts : ∀ start ∈ out.starts, start.2 = 0 ∨ start.1 ∈ s.runningScheduled ∧
    start.2 = (s.request start.1).numComputedTokens ∧
    ∃ more, s'.blocksOf start.1 = s.blocksOf start.1 ++ more
  idle : ∀ q ∈ s'.runningScheduled, q ∉ out.reqIds →
    (s'.request q).numComputedTokens = (s.request q).numComputedTokens
  computed : ∀ start ∈ out.starts,
    (s'.request start.1).numComputedTokens = start.2 + out.numScheduled start.1
  covered : ∀ q ∈ out.reqIds,
    min (cdiv (s'.request q).numComputedTokens cfg.kvCache.blockSize)
      cfg.kvCache.maxNumBlocksPerReq ≤ (s'.blocksOf q).length

theorem SupplySpec.numScheduledTokens_eq_nil {out : SpexisSchedulerOutput}
    (h : SupplySpec cfg s out s') (htotal : out.totalNumScheduledTokens = 0) :
    out.numScheduledTokens = [] := by
  rw [h.total, List.sum_eq_zero_iff] at htotal
  refine List.eq_nil_iff_forall_not_mem.mpr fun item hitem => ?_
  have hpos := h.positive item hitem
  rw [htotal _ (List.mem_map_of_mem hitem)] at hpos
  exact absurd hpos (Nat.not_succ_le_zero 0)

theorem schedule_supplySpec {result : ScheduleResult}
    (hfull : cfg.kvCache.kvCacheSpec = .fullAttention) (hs : s.Queued)
    (hexclusive : s.Exclusive cfg)
    (hcapped : ∀ q, (s.blocksOf q).length ≤ cfg.kvCache.maxNumBlocksPerReq)
    (h : s.schedule cfg = .ok (result, s')) :
    SupplySpec cfg s result.schedulerOutput s' := by
  simp only [schedule, bind_eq_ok, pure_eq_ok, Prod.exists, Prod.mk.injEq] at h
  obtain ⟨st, _, hselect, _, hcheck, out, _, st₁, hout, s₁, hadvance, rfl, rfl⟩ := h
  simp only [checkConstraints, bind_eq_ok, pyAssert_eq_ok] at hcheck
  obtain ⟨_, hsum, _, hseqs, -⟩ := hcheck
  have hrunning : s.runningScheduled.Nodup :=
    hs.places_nodup.sublist
      ((List.sublist_append_right _ _).trans (List.sublist_append_left _ _))
  have hmoves : Moves cfg (s.begin cfg) st := selectRequests_moves hrunning rfl hselect
  have hsupplied := moves_supplied hfull (begin_supplied hs hexclusive hcapped) hmoves
  obtain ⟨hbuilt, hnum, htotal, -⟩ := makeOutput_built hout
  obtain ⟨hnewIds, hcachedIds⟩ := makeOutput_reqIds hout
  obtain ⟨hnew, hcached⟩ := makeOutput_mem hout
  have hkeys : st₁.numScheduledTokens = st.numScheduledTokens := by rw [hbuilt.eq]
  obtain ⟨-, hs₁⟩ := advanceComputed_eq_ok
    (by rw [hkeys]; exact hsupplied.listed.scheduled_nodup) hadvance
  have hkv : s₁.kvCacheManager = st.kvCacheManager := by rw [hs₁, hbuilt.eq]
  have hrunning₁ : s₁.runningScheduled = st.runningScheduled := by rw [hs₁, hbuilt.eq]
  have hcomputed : ∀ q, (s₁.request q).numComputedTokens =
      (st.request q).numComputedTokens + out.numScheduled q := by
    intro q
    rw [hs₁, hbuilt.eq, SpexisSchedulerOutput.numScheduled, hnum]
    simp only [Request.advance, built_numComputedTokens]
  have hreqIds : out.reqIds.Perm st.scheduled := by
    rw [SpexisSchedulerOutput.reqIds, hnewIds, hcachedIds]
    exact hsupplied.listed.perm
  have hstarts : ∀ start ∈ out.starts,
      start.2 = (st.request start.1).numComputedTokens := by
    intro start hstart
    rcases List.mem_append.mp hstart with hstart | hstart
    · obtain ⟨data, hdata, rfl⟩ := List.mem_map.mp hstart
      exact (hnew data hdata).2.2
    · obtain ⟨data, hdata, rfl⟩ := List.mem_map.mp hstart
      exact (hcached data hdata).2.2
  have hnodup : (st.scheduledNewReqs ++ st.scheduledResumedReqs ++ st.continuedReqs).Nodup := by
    have hperm := hsupplied.listed.perm.nodup_iff.mpr hsupplied.listed.scheduled_nodup
    rwa [cachedReqs, List.append_assoc st.scheduledResumedReqs, ← List.append_assoc] at hperm
  have hfresh : ∀ q ∈ st.scheduledNewReqs ++ st.scheduledResumedReqs, q ∉ st.continuedReqs :=
    fun q hq hcontinued => (List.nodup_append.mp hnodup).2.2 q hq q hcontinued rfl
  constructor
  · simpa only [Scheduler.Exclusive, hkv, hrunning₁] using hsupplied.exclusive
  · intro q
    change (s₁.kvCacheManager.reqToBlocks q).length ≤ _
    rw [hkv]
    exact hsupplied.capped q
  · intro q hq
    change q ∈ s₁.runningScheduled
    rw [hrunning₁]
    exact hsupplied.listed.running (hreqIds.mem_iff.mp hq)
  · intro data hdata
    obtain ⟨hmem, hget, -⟩ := hnew data hdata
    have hblocks := hsupplied.handed _ _ hget
    rw [if_neg (hfresh _ (List.mem_append_left _ hmem)), List.nil_append] at hblocks
    change s₁.kvCacheManager.reqToBlocks _ = _
    rw [hkv, hblocks]
  · intro data hdata
    obtain ⟨hmem, hget, -⟩ := hcached data hdata
    have hblocks := hsupplied.handed _ _ hget
    change s₁.kvCacheManager.reqToBlocks _ = _
    rw [hkv, hblocks, CachedRequestData.blocks]
    split_ifs at hmem with hflag
    · rw [if_neg (hfresh _ (List.mem_append_right _ hmem)), if_pos hflag, List.nil_append]
    · rw [if_pos hmem, if_neg hflag]
  · intro data hdata hflag
    obtain ⟨hmem, -, -⟩ := hcached data hdata
    rw [if_neg (by simp [hflag])] at hmem
    exact hsupplied.continued _ hmem
  · intro data hdata hflag
    obtain ⟨hmem, -, -⟩ := hcached data hdata
    rw [if_pos hflag] at hmem
    exact hsupplied.resumed _ hmem
  · intro q hq hnot
    change q ∈ s₁.runningScheduled at hq
    change _ ∧ s₁.kvCacheManager.reqToBlocks q = _
    rw [hrunning₁] at hq
    rw [hkv]
    exact hsupplied.kept q hq (hreqIds.mem_iff.not.mp hnot)
  · intro item hitem
    rw [hnum] at hitem
    exact (hsupplied.covered item.1 item.2
      ((dictGet?_eq_some hsupplied.listed.scheduled_nodup).mpr hitem)).1
  · rw [htotal, hnum]
  · rw [htotal]
    exact hsum
  · change s₁.runningScheduled.length ≤ _
    rw [hrunning₁]
    exact hseqs
  · intro start hstart
    have hsched : start.1 ∈ st.scheduled := hreqIds.mem_iff.mp (out.mem_starts hstart)
    rw [hstarts start hstart, hsupplied.computed _ (hsupplied.listed.running hsched)]
    by_cases hadmitted : start.1 ∈ st.admittedReqs
    · exact .inl (if_pos hadmitted)
    · have hmem : start.1 ∈ st.continuedReqs := by
        have hlisted := hsupplied.listed.perm.mem_iff.mpr hsched
        rw [cachedReqs, List.append_assoc st.scheduledResumedReqs, ← List.append_assoc] at hlisted
        exact (List.mem_append.mp hlisted).resolve_left hadmitted
      obtain ⟨⟨_, newBlocks⟩, hitem, rfl⟩ := List.mem_map.mp (hsupplied.keys.symm ▸ hsched)
      have hkeysNodup := hsupplied.keys.symm ▸ hsupplied.listed.scheduled_nodup
      have hblocks := hsupplied.handed _ _ ((dictGet?_eq_some hkeysNodup).mpr hitem)
      refine .inr ⟨hsupplied.continued _ hmem, if_neg hadmitted, newBlocks, ?_⟩
      rw [if_pos hmem] at hblocks
      change s₁.kvCacheManager.reqToBlocks _ = _
      rw [hkv, hblocks]
  · intro q hq hnot
    change q ∈ s₁.runningScheduled at hq
    change (s₁.request q).numComputedTokens = _
    rw [hrunning₁] at hq
    have hnotSched : q ∉ st.scheduled := hreqIds.mem_iff.not.mp hnot
    have hnone : out.numScheduled q = 0 := by
      rw [SpexisSchedulerOutput.numScheduled, hnum, dictGet?_eq_none.mpr hnotSched]
      rfl
    have hnotAdmitted : q ∉ st.admittedReqs := by
      intro hadmitted
      refine hnotSched (hsupplied.listed.perm.mem_iff.mp ?_)
      rw [cachedReqs, List.append_assoc st.scheduledResumedReqs, ← List.append_assoc]
      exact List.mem_append_left _ hadmitted
    rw [hcomputed, hnone, Nat.add_zero, hsupplied.computed q hq, if_neg hnotAdmitted]
  · intro start hstart
    rw [hstarts start hstart]
    exact hcomputed start.1
  · intro q hq
    obtain ⟨⟨q, n⟩, hitem, rfl⟩ := List.mem_map.mp (hreqIds.mem_iff.mp hq)
    have hget := (dictGet?_eq_some hsupplied.listed.scheduled_nodup).mpr hitem
    change min (cdiv (s₁.request q).numComputedTokens _) _ ≤
      (s₁.kvCacheManager.reqToBlocks q).length
    rw [hkv, hcomputed, SpexisSchedulerOutput.numScheduled, hnum, hget, Option.getD_some]
    exact (hsupplied.covered q n hget).2

end Scheduler

end Spexis
