import Mathlib.Data.Set.Function
import Spexis.Model.HandleInputBatch
import Spexis.Verification.Batches

/-! # The engine's batch

The order in which a set of requests is removed does not matter, the batch holds the requests that
are scheduled, and their tokens come out row by row. -/

namespace Spexis

open Python

/-! ## The order of the removals -/

namespace CPUInputBatch

variable {c c' : CPUInputBatch} {p q : ReqId} {out : SpexisSchedulerOutput}

/-- The index is the inverse of the rows. -/
structure Indexed (c : CPUInputBatch) : Prop where
  keys : (c.reqIdToIndex.map Prod.fst).Nodup
  slot_iff : ∀ q i, (q, i) ∈ c.reqIdToIndex ↔ c.reqIds[i]? = some (some q)

/-- The batch without the row of the request. -/
def without (q : ReqId) (c : CPUInputBatch) : CPUInputBatch :=
  ⟨c.reqIds.map fun reqId => if reqId = some q then none else reqId,
    c.reqIdToIndex.filter (·.1 ≠ q)⟩

theorem Indexed.without (h : c.Indexed) (q : ReqId) : (c.without q).Indexed where
  keys := h.keys.sublist (List.filter_sublist.map _)
  slot_iff p i := by
    simp only [CPUInputBatch.without, List.mem_filter, h.slot_iff, List.getElem?_map,
      decide_eq_true_eq]
    cases c.reqIds[i]? with
    | none => simp
    | some reqId =>
        simp only [Option.map_some, Option.some.injEq]
        split_ifs with hq
        · subst hq
          simp [eq_comm]
        · exact ⟨fun hp => hp.1, fun hp => ⟨hp, fun heq => hq (heq ▸ hp)⟩⟩

theorem without_comm (p q : ReqId) (c : CPUInputBatch) :
    (c.without p).without q = (c.without q).without p := by
  simp only [without, List.map_map, List.filter_filter, CPUInputBatch.mk.injEq]
  refine ⟨List.map_congr_left fun reqId _ => ?_, List.filter_congr fun _ _ => Bool.and_comm _ _⟩
  simp only [Function.comp_apply]
  split_ifs <;> simp_all

theorem dictGet?_without (h : c.Indexed) :
    dictGet? (c.without q).reqIdToIndex p =
      if p = q then none else dictGet? c.reqIdToIndex p := by
  split_ifs with hpq
  · rw [dictGet?_eq_none]
    simp [without, hpq]
  · ext i
    rw [dictGet?_eq_some (h.without q).keys, dictGet?_eq_some h.keys]
    simp [without, hpq]

theorem removeRequest_eq (h : c.Indexed) (q : ReqId) :
    c.removeRequest q = .ok (dictGet? c.reqIdToIndex q, c.without q) := by
  unfold removeRequest
  cases hget : dictGet? c.reqIdToIndex q with
  | none =>
      have hnot := dictGet?_eq_none.mp hget
      have hrow : ∀ reqId ∈ c.reqIds, reqId ≠ some q := by
        rintro _ hmem rfl
        obtain ⟨i, hi⟩ := List.mem_iff_getElem?.mp hmem
        exact hnot (List.mem_map_of_mem ((h.slot_iff q i).mpr hi))
      have hids : c.reqIds.map (fun reqId => if reqId = some q then none else reqId) =
          c.reqIds :=
        (List.map_congr_left fun reqId hmem => if_neg (hrow reqId hmem)).trans (List.map_id _)
      have hindex : c.reqIdToIndex.filter (·.1 ≠ q) = c.reqIdToIndex := by
        refine List.filter_eq_self.mpr fun item hmem => ?_
        simp only [ne_eq, decide_not, Bool.not_eq_eq_eq_not, Bool.not_true, decide_eq_false_iff_not]
        rintro rfl
        exact hnot (List.mem_map_of_mem hmem)
      rw [without, hids, hindex]
  | some i =>
      have hslot := (h.slot_iff q i).mp ((dictGet?_eq_some h.keys).mp hget)
      have hset : pySet c.reqIds i none = .ok (c.without q).reqIds := by
        refine pySet_eq_ok_nat.mpr
          ⟨(List.getElem?_eq_some_iff.mp hslot).1, List.ext_getElem? fun j => ?_⟩
        rw [List.getElem?_set, without, List.getElem?_map]
        split_ifs with hij hlt
        · rw [← hij, hslot]
          simp
        · rw [← hij, hslot]
          exact absurd (List.getElem?_eq_some_iff.mp hslot).1 hlt
        · cases hj : c.reqIds[j]? with
          | none => rfl
          | some reqId =>
              rw [Option.map_some, if_neg]
              rintro rfl
              have hjget := (dictGet?_eq_some h.keys).mpr ((h.slot_iff q j).mpr hj)
              exact hij (Option.some.inj (hget.symm.trans hjget))
      dsimp only
      rw [hset, ok_bind]
      rfl

theorem removeRequests_cons (h : c.Indexed) {reqIds : List ReqId} {indices : List ℕ}
    (hrest : (c.without q).removeRequests reqIds = .ok (indices, c')) :
    c.removeRequests (q :: reqIds) =
      .ok ((dictGet? c.reqIdToIndex q).toList ++ indices, c') := by
  rw [removeRequests, removeRequest_eq h, ok_bind]
  dsimp only
  rw [hrest, ok_bind]
  rfl

theorem exists_removeRequests (h : c.Indexed) (reqIds : List ReqId) :
    ∃ indices c', c.removeRequests reqIds = .ok (indices, c') ∧ c'.Indexed := by
  induction reqIds generalizing c with
  | nil => exact ⟨[], c, rfl, h⟩
  | cons q reqIds ih =>
      obtain ⟨indices, c', hrest, h'⟩ := ih (h.without q)
      exact ⟨_, c', removeRequests_cons h hrest, h'⟩

theorem removeRequests_indexed (h : c.Indexed) {reqIds : List ReqId} {indices : List ℕ}
    (hok : c.removeRequests reqIds = .ok (indices, c')) : c'.Indexed := by
  obtain ⟨_, _, hok', h'⟩ := exists_removeRequests h reqIds
  obtain ⟨-, rfl⟩ := Prod.mk.inj (Except.ok.inj (hok.symm.trans hok'))
  exact h'

/-- Whatever the order, the same rows become free. -/
theorem removeRequests_perm {reqIds reqIds' : List ReqId} (hperm : reqIds.Perm reqIds')
    (h : c.Indexed) :
    ∃ indices indices' c', c.removeRequests reqIds = .ok (indices, c') ∧
      c.removeRequests reqIds' = .ok (indices', c') ∧ indices.Perm indices' ∧ c'.Indexed := by
  induction hperm generalizing c with
  | nil => exact ⟨[], [], c, rfl, rfl, .refl _, h⟩
  | cons q _ ih =>
      obtain ⟨indices, indices', c', hrest, hrest', hindices, h'⟩ := ih (h.without q)
      exact ⟨_, _, c', removeRequests_cons h hrest, removeRequests_cons h hrest',
        hindices.append_left _, h'⟩
  | swap q p reqIds =>
      obtain ⟨indices, c', hrest, h'⟩ := exists_removeRequests ((h.without p).without q) reqIds
      have hpq := removeRequests_cons h (removeRequests_cons (h.without p) hrest)
      rw [without_comm] at hrest
      have hqp := removeRequests_cons h (removeRequests_cons (h.without q) hrest)
      refine ⟨_, _, c', hpq, hqp, ?_, h'⟩
      rw [dictGet?_without h, dictGet?_without h, ← List.append_assoc, ← List.append_assoc]
      refine List.Perm.append_right _ ?_
      by_cases heq : p = q
      · rw [heq]
      · rw [if_neg (Ne.symm heq), if_neg heq]
        exact List.perm_append_comm
  | trans _ _ ih ih' =>
      obtain ⟨indices, _, c', hone, htwo, hindices, h'⟩ := ih h
      obtain ⟨_, indices', _, htwo', hthree, hindices', -⟩ := ih' h
      obtain ⟨rfl, rfl⟩ := Prod.mk.inj (Except.ok.inj (htwo.symm.trans htwo'))
      exact ⟨indices, indices', c', hone, hthree, hindices.trans hindices', h'⟩

theorem removeStale_indexed (h : c.Indexed) {finishedOrder unscheduledOrder : IterationOrder}
    {empties : List ℕ} (hok : c.removeStale out finishedOrder unscheduledOrder = .ok (empties, c')) :
    c'.Indexed := by
  simp only [removeStale, bind_eq_ok, pure_eq_ok, Prod.exists, Prod.mk.injEq] at hok
  obtain ⟨_, c₁, hfinished, _, _, hunscheduled, _, -, -, rfl⟩ := hok
  exact removeRequests_indexed (removeRequests_indexed h hfinished) hunscheduled

theorem removeStale_orders (h : c.Indexed) (finishedOrder unscheduledOrder finishedOrder'
    unscheduledOrder' : IterationOrder) :
    c.removeStale out finishedOrder unscheduledOrder =
      c.removeStale out finishedOrder' unscheduledOrder' := by
  obtain ⟨finished, finished', c₁, hone, hone', hfinished, h₁⟩ := removeRequests_perm
    (((finishedOrder.perm out.finishedReqIds).trans (finishedOrder'.perm _).symm)) h
  have hperm := (unscheduledOrder.perm (c₁.unscheduledReqIds out)).trans
    (unscheduledOrder'.perm _).symm
  obtain ⟨unscheduled, unscheduled', c₂, htwo, htwo', hunscheduled, -⟩ :=
    removeRequests_perm hperm h₁
  unfold removeStale
  rw [hone, hone', ok_bind, ok_bind]
  dsimp only
  rw [htwo, htwo', ok_bind, ok_bind]
  dsimp only
  have hsorted : (finished ++ unscheduled).insertionSort (· ≤ ·) =
      (finished' ++ unscheduled').insertionSort (· ≤ ·) :=
    List.Perm.eq_of_pairwise' (List.pairwise_insertionSort _ _) (List.pairwise_insertionSort _ _)
      ((List.perm_insertionSort _ _).trans
        ((hfinished.append hunscheduled).trans (List.perm_insertionSort _ _).symm))
  rw [hunscheduled.length_eq, hperm.length_eq, hsorted]

theorem updateStates_orders (h : c.Indexed) (maxNumReqs : ℕ) (finishedOrder unscheduledOrder
    finishedOrder' unscheduledOrder' : IterationOrder) :
    c.updateStates maxNumReqs out finishedOrder unscheduledOrder =
      c.updateStates maxNumReqs out finishedOrder' unscheduledOrder' := by
  unfold updateStates
  rw [removeStale_orders h finishedOrder unscheduledOrder finishedOrder' unscheduledOrder']

/-! ## The requests of the batch -/

theorem removeRequests_keys {reqIds : List ReqId} {indices : List ℕ}
    (h : c.removeRequests reqIds = .ok (indices, c')) :
    q ∈ c'.reqIdToIndex.map Prod.fst ↔ q ∈ c.reqIdToIndex.map Prod.fst ∧ q ∉ reqIds := by
  induction reqIds generalizing c indices with
  | nil =>
      obtain ⟨-, rfl⟩ := Prod.mk.inj (Except.ok.inj h)
      simp
  | cons p reqIds ih =>
      simp only [removeRequests, bind_eq_ok, pure_eq_ok, Prod.exists, Prod.mk.injEq] at h
      obtain ⟨_, c₁, hremove, _, _, hrest, -, rfl⟩ := h
      have hone : q ∈ c₁.reqIdToIndex.map Prod.fst ↔
          q ∈ c.reqIdToIndex.map Prod.fst ∧ q ≠ p := by
        unfold removeRequest at hremove
        split at hremove
        next hnone =>
          obtain ⟨-, rfl⟩ := Prod.mk.inj (Except.ok.inj hremove)
          refine ⟨fun hq => ⟨hq, ?_⟩, And.left⟩
          rintro rfl
          exact dictGet?_eq_none.mp hnone hq
        next =>
          simp only [bind_eq_ok, pure_eq_ok, Prod.mk.injEq] at hremove
          obtain ⟨_, -, -, rfl⟩ := hremove
          simp
      rw [ih hrest, hone, List.mem_cons, not_or, and_assoc]

theorem removeStale_keys {finishedOrder unscheduledOrder : IterationOrder} {empties : List ℕ}
    (h : c.removeStale out finishedOrder unscheduledOrder = .ok (empties, c')) :
    q ∈ c'.reqIdToIndex.map Prod.fst ↔ q ∈ c.reqIdToIndex.map Prod.fst ∧
      q ∉ out.finishedReqIds ∧ q ∈ out.numScheduledTokens.map Prod.fst := by
  simp only [removeStale, bind_eq_ok, pure_eq_ok, Prod.exists, Prod.mk.injEq] at h
  obtain ⟨_, c₁, hfinished, _, _, hunscheduled, _, -, -, rfl⟩ := h
  rw [removeRequests_keys hunscheduled, removeRequests_keys hfinished,
    (unscheduledOrder.perm _).mem_iff, (finishedOrder.perm _).mem_iff]
  simp only [unscheduledReqIds, List.mem_filter, removeRequests_keys hfinished,
    (finishedOrder.perm _).mem_iff, decide_eq_true_eq]
  tauto

/-- Every request with a row is a key of the index. -/
def Filed (c : CPUInputBatch) : Prop :=
  ∀ q, some q ∈ c.reqIds → q ∈ c.reqIdToIndex.map Prod.fst

theorem Indexed.filed (h : c.Indexed) : c.Filed := by
  intro q hq
  obtain ⟨i, hi⟩ := List.mem_iff_getElem?.mp hq
  exact List.mem_map_of_mem ((h.slot_iff q i).mpr hi)

theorem addRequests_keys {maxNumReqs : ℕ} {reqIds : List ReqId} {empties empties' : List ℕ}
    (h : c.addRequests maxNumReqs reqIds empties = .ok (empties', c')) (hfiled : c.Filed) :
    c'.Filed ∧
      (q ∈ c'.reqIdToIndex.map Prod.fst ↔ q ∈ c.reqIdToIndex.map Prod.fst ∨ q ∈ reqIds) := by
  induction reqIds generalizing c empties with
  | nil =>
      obtain ⟨-, rfl⟩ := Prod.mk.inj (Except.ok.inj h)
      simpa using hfiled
  | cons p reqIds ih =>
      simp only [addRequests, addRequest, bind_eq_ok, pure_eq_ok] at h
      obtain ⟨_, ⟨_, -, ids, hids, rfl⟩, hrest⟩ := h
      have hmem : ∀ q, some q ∈ ids → some q ∈ c.reqIds ∨ q = p := by
        intro q hq
        unfold putReqId at hids
        split_ifs at hids
        · obtain rfl := Except.ok.inj hids
          simpa using hq
        · obtain ⟨-, rfl⟩ := pySet_eq_ok_nat.mp hids
          exact (List.mem_or_eq_of_mem_set hq).imp_right Option.some.inj
      obtain ⟨hfiled', hkeys⟩ := ih hrest fun q hq => by
        rw [mem_dictSet_keys]
        exact (hmem q hq).imp_left (hfiled q)
      refine ⟨hfiled', ?_⟩
      rw [hkeys, mem_dictSet_keys, List.mem_cons, or_assoc]

theorem condense_keys {empties : List ℕ} (h : c.condense empties = .ok c') (hfiled : c.Filed) :
    q ∈ c'.reqIdToIndex.map Prod.fst ↔ q ∈ c.reqIdToIndex.map Prod.fst := by
  unfold condense at h
  split_ifs at h
  · obtain rfl := Except.ok.inj h
    rfl
  · simp only [bind_eq_ok, pure_eq_ok] at h
    obtain ⟨c₁, hfill, rfl⟩ := h
    refine (Compaction.fill_invariant (I := fun c₁ => c₁.Filed ∧
      ∀ q, q ∈ c₁.reqIdToIndex.map Prod.fst ↔ q ∈ c.reqIdToIndex.map Prod.fst)
      (fun s s' src dst hs hmove => ?_) ⟨hfiled, fun _ => Iff.rfl⟩ hfill).2 q
    unfold moveRequest at hmove
    obtain ⟨reqId, hget, hmove⟩ := bind_eq_ok.mp hmove
    cases reqId with
    | none => cases hmove
    | some reqId =>
        simp only [bind_eq_ok, pure_eq_ok] at hmove
        obtain ⟨ids, hdst, ids', hsrc, rfl⟩ := hmove
        obtain ⟨-, rfl⟩ := pySet_eq_ok_nat.mp hdst
        obtain ⟨-, rfl⟩ := pySet_eq_ok_nat.mp hsrc
        have hkey : reqId ∈ s.reqIdToIndex.map Prod.fst :=
          hs.1 reqId (List.mem_of_getElem? (pyGet_eq_ok_nat.mp hget))
        have hsame : ∀ q, q ∈ (dictSet s.reqIdToIndex reqId dst).map Prod.fst ↔
            q ∈ s.reqIdToIndex.map Prod.fst := by
          intro q
          rw [mem_dictSet_keys]
          exact ⟨fun hq => hq.elim id fun heq => heq ▸ hkey, .inl⟩
        refine ⟨fun q hq => (hsame q).mpr ?_, fun q => (hsame q).trans (hs.2 q)⟩
        rcases List.mem_or_eq_of_mem_set hq with hq | hq
        · rcases List.mem_or_eq_of_mem_set hq with hq | hq
          · exact hs.1 q hq
          · exact Option.some.inj hq ▸ hkey
        · cases hq

/-- The batch holds the requests that are scheduled. -/
theorem updateStates_keys {maxNumReqs : ℕ} {finishedOrder unscheduledOrder : IterationOrder}
    (hindexed : c.Indexed)
    (hperm : out.reqIds.Perm (out.numScheduledTokens.map Prod.fst))
    (h : c.updateStates maxNumReqs out finishedOrder unscheduledOrder = .ok c') :
    q ∈ c'.reqIdToIndex.map Prod.fst ↔ q ∈ out.numScheduledTokens.map Prod.fst := by
  simp only [updateStates, bind_eq_ok, Prod.exists] at h
  obtain ⟨empties, c₁, hstale, empties', c₂, hadd, h⟩ := h
  have hfiled₁ : c₁.Filed := (removeStale_indexed hindexed hstale).filed
  obtain ⟨hfiled₂, -⟩ := addRequests_keys (q := q) hadd hfiled₁
  have hkeys : q ∈ c'.reqIdToIndex.map Prod.fst ↔ q ∈ c₂.reqIdToIndex.map Prod.fst := by
    split_ifs at h
    · obtain rfl := pure_eq_ok.mp h
      rfl
    · exact condense_keys h hfiled₂
  have hlisted : q ∈ out.numScheduledTokens.map Prod.fst ↔
      q ∈ out.scheduledNewReqs.map (·.reqId) ∨ q ∈ out.scheduledCachedReqs.map (·.reqId) := by
    rw [← hperm.mem_iff, SpexisSchedulerOutput.reqIds, List.mem_append]
  rw [hkeys, (addRequests_keys hadd hfiled₁).2, reqIdsToAdd, List.mem_append, List.mem_filter,
    Option.isNone_iff_eq_none, dictGet?_eq_none]
  -- a cached request that is not added again has kept its row
  constructor
  · rintro (hq | hq | hq)
    · exact ((removeStale_keys hstale).mp hq).2.2
    · exact hlisted.mpr (.inl hq)
    · exact hlisted.mpr (.inr hq.1)
  · intro hq
    by_cases hkept : q ∈ c₁.reqIdToIndex.map Prod.fst
    · exact .inl hkept
    · exact .inr ((hlisted.mp hq).imp_right fun hcached => ⟨hcached, hkept⟩)

end CPUInputBatch

/-! ## The token ids of a batch -/

namespace SpexisSchedulerOutput

variable {out : SpexisSchedulerOutput} {resumeHelper : ResumeHelper}

/-- The start of its prompt. -/
def newTokens (out : SpexisSchedulerOutput) (data : NewRequestData) : ReqId × List TokenId :=
  (data.reqId, data.promptTokenIds.take (out.numScheduled data.reqId))

/-- The start of what it computes again, or its new tokens. -/
def cachedTokens (out : SpexisSchedulerOutput) (resumeHelper : ResumeHelper)
    (data : CachedRequestData) : ReqId × List TokenId :=
  (data.reqId, if data.resumedFromPreemption then
      ((dictGet? resumeHelper data.reqId).getD []).take (out.numScheduled data.reqId)
    else data.newTokenIds)

def inputTokens (out : SpexisSchedulerOutput) (resumeHelper : ResumeHelper) :
    List (ReqId × List TokenId) :=
  out.scheduledNewReqs.map out.newTokens ++
    out.scheduledCachedReqs.map (out.cachedTokens resumeHelper)

/-- The input tokens of the request in the batch. -/
def inputTokenIds (out : SpexisSchedulerOutput) (resumeHelper : ResumeHelper) (reqId : ReqId) :
    List TokenId :=
  (dictGet? (out.inputTokens resumeHelper) reqId).getD []

theorem inputTokens_keys (out : SpexisSchedulerOutput) (resumeHelper : ResumeHelper) :
    (out.inputTokens resumeHelper).map Prod.fst = out.reqIds := by
  rw [inputTokens, List.map_append, List.map_map, List.map_map]
  rfl

theorem inputTokenIds_eq (hnodup : out.reqIds.Nodup) {reqId : ReqId} {tokens : List TokenId}
    (h : (reqId, tokens) ∈ out.inputTokens resumeHelper) :
    out.inputTokenIds resumeHelper reqId = tokens := by
  rw [inputTokenIds, (dictGet?_eq_some (by rwa [inputTokens_keys])).mpr h, Option.getD_some]

end SpexisSchedulerOutput

namespace CPUInputBatch

/-- The requests of the rows, without a gap. -/
structure Rows (c : CPUInputBatch) (reqs : List ReqId) : Prop where
  indexed : c.Indexed
  reqIds : c.reqIds = reqs.map some
  numReqs : c.numReqs = reqs.length

variable {c : CPUInputBatch} {q : ReqId} {reqs : List ReqId} {out : SpexisSchedulerOutput}
  {resumeHelper : ResumeHelper}

theorem Rows.get_eq_some (h : c.Rows reqs) {i : ℕ} :
    dictGet? c.reqIdToIndex q = some i ↔ reqs[i]? = some q := by
  rw [dictGet?_eq_some h.indexed.keys, h.indexed.slot_iff, h.reqIds, List.getElem?_map]
  simp

theorem Rows.exists_index (h : c.Rows reqs) (hq : q ∈ reqs) :
    ∃ i, dictGet? c.reqIdToIndex q = some i := by
  obtain ⟨i, hi⟩ := List.mem_iff_getElem?.mp hq
  exact ⟨i, h.get_eq_some.mpr hi⟩

theorem Rows.mem_keys (h : c.Rows reqs) :
    q ∈ c.reqIdToIndex.map Prod.fst ↔ q ∈ reqs := by
  constructor
  · intro hq
    obtain ⟨i, hi⟩ := exists_dictGet? hq
    exact List.mem_of_getElem? (h.get_eq_some.mp hi)
  · intro hq
    obtain ⟨i, hi⟩ := h.exists_index hq
    by_contra hnot
    rw [dictGet?_eq_none.mpr hnot] at hi
    cases hi

/-- The index takes the requests onto the rows, one each. -/
theorem Rows.bijOn (h : c.Rows reqs) :
    Set.BijOn (dictGet? c.reqIdToIndex) {q | q ∈ reqs} (some '' Set.Iio reqs.length) := by
  refine ⟨fun q hq => ?_, fun p hp q hq heq => ?_, ?_⟩
  · obtain ⟨i, hi⟩ := h.exists_index hq
    exact ⟨i, (List.getElem?_eq_some_iff.mp (h.get_eq_some.mp hi)).1, hi.symm⟩
  · obtain ⟨i, hi⟩ := h.exists_index hp
    have hrow := h.get_eq_some.mp hi
    rw [h.get_eq_some.mp (heq.symm.trans hi)] at hrow
    exact (Option.some.inj hrow).symm
  · rintro _ ⟨i, hi, rfl⟩
    have hrow : reqs[i]? = some reqs[i] := List.getElem?_eq_getElem hi
    exact ⟨reqs[i], List.getElem_mem hi, h.get_eq_some.mpr hrow⟩

/-- Writing the row of a request updates the table by its id. -/
theorem Rows.pySet_map {α : Type*} (h : c.Rows reqs) {i : ℕ}
    (hget : dictGet? c.reqIdToIndex q = some i) (f : ReqId → α) (v : α) :
    pySet (reqs.map f) i v = .ok (reqs.map (Function.update f q v)) := by
  have hi := h.get_eq_some.mp hget
  refine pySet_eq_ok_nat.mpr ⟨?_, List.ext_getElem? fun j => ?_⟩
  · rw [List.length_map]
    exact (List.getElem?_eq_some_iff.mp hi).1
  · rw [List.getElem?_set, List.getElem?_map, List.getElem?_map]
    split_ifs with hij hlt
    · rw [← hij, hi, Option.map_some, Function.update_self]
    · rw [List.length_map, not_lt] at hlt
      rw [List.getElem?_eq_none hlt] at hi
      cases hi
    · cases hj : reqs[j]? with
      | none => rfl
      | some p =>
          rw [Option.map_some, Option.map_some, Function.update_of_ne]
          rintro rfl
          exact hij (Option.some.inj (hget.symm.trans (h.get_eq_some.mpr hj)))

/-- The table in which some requests have their tokens already. -/
def placed (tokens : List (ReqId × List TokenId)) (f : ReqId → Option (List TokenId))
    (reqId : ReqId) : Option (List TokenId) :=
  (dictGet? tokens reqId).or (f reqId)

theorem placed_update {tokens : List (ReqId × List TokenId)} {v : List TokenId}
    (hq : q ∉ tokens.map Prod.fst) (f : ReqId → Option (List TokenId)) :
    placed tokens (Function.update f q (some v)) = placed ((q, v) :: tokens) f := by
  funext p
  unfold placed
  by_cases hp : p = q
  · rw [hp, Function.update_self, dictGet?_cons_self, dictGet?_eq_none.mpr hq]
    rfl
  · rw [Function.update_of_ne hp, dictGet?_cons_of_ne (Ne.symm hp)]

theorem Rows.placeNewTokens (h : c.Rows reqs) {datas : List NewRequestData}
    (hnodup : (datas.map (·.reqId)).Nodup) (hrows : ∀ data ∈ datas, data.reqId ∈ reqs)
    (f : ReqId → Option (List TokenId)) :
    c.placeNewTokens out datas (reqs.map f) =
      .ok (reqs.map (placed (datas.map out.newTokens) f)) := by
  induction datas generalizing f with
  | nil => rfl
  | cons data datas ih =>
      obtain ⟨hnot, hnodup'⟩ := List.nodup_cons.mp hnodup
      obtain ⟨i, hi⟩ := h.exists_index (hrows data List.mem_cons_self)
      rw [CPUInputBatch.placeNewTokens, hi]
      dsimp only
      rw [h.pySet_map hi, ok_bind,
        ih hnodup' (fun data' hdata' => hrows data' (List.mem_cons_of_mem _ hdata')),
        List.map_cons]
      have hkeys : data.reqId ∉ (datas.map out.newTokens).map Prod.fst := by
        rw [List.map_map]
        exact hnot
      rw [placed_update hkeys]
      rfl

theorem Rows.placeCachedTokens (h : c.Rows reqs) {datas : List CachedRequestData}
    (hnodup : (datas.map (·.reqId)).Nodup) (hrows : ∀ data ∈ datas, data.reqId ∈ reqs)
    (hresumed : ∀ data ∈ datas, data.resumedFromPreemption →
      (dictGet? resumeHelper data.reqId).isSome) (f : ReqId → Option (List TokenId)) :
    c.placeCachedTokens out resumeHelper datas (reqs.map f) =
      .ok (reqs.map (placed (datas.map (out.cachedTokens resumeHelper)) f)) := by
  induction datas generalizing f with
  | nil => rfl
  | cons data datas ih =>
      obtain ⟨hnot, hnodup'⟩ := List.nodup_cons.mp hnodup
      obtain ⟨i, hi⟩ := h.exists_index (hrows data List.mem_cons_self)
      have hkeys : data.reqId ∉ (datas.map (out.cachedTokens resumeHelper)).map Prod.fst := by
        rw [List.map_map]
        exact hnot
      have hrest : ∀ v, (pySet (reqs.map f) i (some v) >>=
          c.placeCachedTokens out resumeHelper datas) =
          .ok (reqs.map (placed ((data.reqId, v) :: datas.map (out.cachedTokens resumeHelper))
            f)) := by
        intro v
        rw [h.pySet_map hi, ok_bind,
          ih hnodup' (fun data' hdata' => hrows data' (List.mem_cons_of_mem _ hdata'))
            (fun data' hdata' => hresumed data' (List.mem_cons_of_mem _ hdata')),
          placed_update hkeys]
      rw [CPUInputBatch.placeCachedTokens, hi, List.map_cons, SpexisSchedulerOutput.cachedTokens]
      dsimp only
      split_ifs with hflag
      · obtain ⟨tokens, htokens⟩ :=
          Option.isSome_iff_exists.mp (hresumed data List.mem_cons_self hflag)
        rw [dictGet_eq_ok.mpr htokens, ok_bind, htokens, Option.getD_some]
        exact hrest _
      · exact hrest _

/-- The tokens of the rows, one row after the other. -/
theorem Rows.reorderTokenIds (h : c.Rows reqs) (hnodup : out.reqIds.Nodup)
    (hrows : ∀ q, q ∈ reqs ↔ q ∈ out.reqIds)
    (hresumed : ∀ data ∈ out.scheduledCachedReqs, data.resumedFromPreemption →
      (dictGet? resumeHelper data.reqId).isSome) :
    c.reorderTokenIds out resumeHelper =
      .ok (reqs.flatMap (out.inputTokenIds resumeHelper)) := by
  obtain ⟨hnew, hcached, hdisjoint⟩ := List.nodup_append.mp hnodup
  have hempty : List.replicate c.numReqs none =
      reqs.map fun _ => (none : Option (List TokenId)) := by
    rw [h.numReqs, List.map_const']
  have hrowsNew : ∀ data ∈ out.scheduledNewReqs, data.reqId ∈ reqs := fun data hdata =>
    (hrows _).mpr (List.mem_append_left _ (List.mem_map_of_mem hdata))
  have hrowsCached : ∀ data ∈ out.scheduledCachedReqs, data.reqId ∈ reqs := fun data hdata =>
    (hrows _).mpr (List.mem_append_right _ (List.mem_map_of_mem hdata))
  have htokens : ∀ q ∈ reqs,
      placed (out.scheduledCachedReqs.map (out.cachedTokens resumeHelper))
        (placed (out.scheduledNewReqs.map out.newTokens) fun _ => none) q =
      some (out.inputTokenIds resumeHelper q) := by
    intro q hq
    have hnewKeys : (out.scheduledNewReqs.map out.newTokens).map Prod.fst =
        out.scheduledNewReqs.map (·.reqId) := List.map_map
    have hcachedKeys : (out.scheduledCachedReqs.map (out.cachedTokens resumeHelper)).map Prod.fst =
        out.scheduledCachedReqs.map (·.reqId) := List.map_map
    unfold placed SpexisSchedulerOutput.inputTokenIds SpexisSchedulerOutput.inputTokens
    rw [dictGet?_append, Option.or_none]
    rcases List.mem_append.mp ((hrows q).mp hq) with hmem | hmem
    · obtain ⟨tokens, htokens⟩ := exists_dictGet? (hnewKeys ▸ hmem)
      have hnone : dictGet? (out.scheduledCachedReqs.map (out.cachedTokens resumeHelper)) q =
          none := dictGet?_eq_none.mpr fun hq' =>
        hdisjoint q hmem q (hcachedKeys ▸ hq') rfl
      rw [hnone, htokens]
      rfl
    · obtain ⟨tokens, htokens⟩ := exists_dictGet? (hcachedKeys ▸ hmem)
      have hnone : dictGet? (out.scheduledNewReqs.map out.newTokens) q = none :=
        dictGet?_eq_none.mpr fun hq' => hdisjoint q (hnewKeys ▸ hq') q hmem rfl
      rw [hnone, htokens]
      rfl
  rw [CPUInputBatch.reorderTokenIds, hempty, h.placeNewTokens hnew hrowsNew, ok_bind,
    h.placeCachedTokens hcached hrowsCached hresumed, ok_bind, List.map_congr_left htokens]
  have hflat : (reqs.map fun q => some (out.inputTokenIds resumeHelper q)).reduceOption =
      reqs.map (out.inputTokenIds resumeHelper) := by
    rw [List.reduceOption, List.filterMap_map]
    exact congrFun List.filterMap_eq_map reqs
  rw [hflat, List.flatMap_def]
  rfl

end CPUInputBatch

end Spexis
