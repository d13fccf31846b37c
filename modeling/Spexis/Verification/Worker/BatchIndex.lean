import Mathlib.Data.List.ReduceOption
import Spexis.Verification.Worker.InputBatch

/-! # The index of the persistent batch

Request ids and rows are in bijection, and the adapters in use are those of the requests present. -/

namespace Spexis

open Python

namespace InputBatch

variable {cfg : BatchConfig} {b b' : InputBatch} {request : CachedRequestState}
  {i j n src dst : ℕ} {reqId q : ReqId} {holes : List ℕ}

/-- The index is the inverse of the rows. -/
structure Indexed (b : InputBatch) : Prop where
  keys : (b.reqIdToIndex.map Prod.fst).Nodup
  slot_iff : ∀ q i, (q, i) ∈ b.reqIdToIndex ↔ b.slot i = some q
  refs : b.reqOutputTokenIds.length = b.reqIds.length

theorem init_indexed : Indexed init where
  keys := List.nodup_nil
  slot_iff q i := by simp [init, slot]
  refs := rfl

theorem slot_lt (h : b.slot i = some q) : i < b.reqIds.length := by
  by_contra hge
  rw [slot, List.getElem?_eq_none (by omega), Option.join_none] at h
  cases h

/-- Does the request have a row? -/
def Present (b : InputBatch) (q : ReqId) : Prop :=
  q ∈ b.reqIdToIndex.map Prod.fst

theorem Indexed.get_eq_some (h : b.Indexed) :
    dictGet? b.reqIdToIndex q = some i ↔ b.slot i = some q := by
  rw [dictGet?_eq_some h.keys, h.slot_iff]

theorem Indexed.present_iff (h : b.Indexed) : b.Present q ↔ ∃ i, b.slot i = some q := by
  simp only [Present, List.mem_map, Prod.exists, exists_and_right, exists_eq_right, h.slot_iff]

theorem Indexed.get_eq_none (h : b.Indexed) :
    dictGet? b.reqIdToIndex q = none ↔ ∀ i, b.slot i ≠ some q := by
  rw [dictGet?_eq_none, ← not_exists, ← h.present_iff]
  rfl

/-- No request has two rows. -/
theorem Indexed.slot_inj (h : b.Indexed) (hi : b.slot i = some q) (hj : b.slot j = some q) :
    i = j := by
  rw [← h.get_eq_some] at hi hj
  exact Option.some.inj (hi.symm.trans hj)

theorem Indexed.remove (h : b.Indexed) (hslot : b.slot i = some reqId)
    (hspec : RemoveSpec reqId i b b') : b'.Indexed where
  keys := by
    rw [hspec.index]
    exact h.keys.sublist (List.filter_sublist.map _)
  slot_iff q j := by
    have hrow : b'.slot j = if j = i then none else b.slot j := by
      have := congrArg Row.reqId (hspec.row j)
      by_cases hj : j = i
      · rw [if_pos hj] at this ⊢
        exact this
      · rw [if_neg hj] at this ⊢
        exact this
    rw [hspec.index, List.mem_filter, h.slot_iff, hrow]
    by_cases hj : j = i
    · rw [if_pos hj, hj, hslot]
      simpa using fun heq : reqId = q => heq.symm
    · rw [if_neg hj]
      refine ⟨fun hmem => hmem.1, fun hmem => ⟨hmem, ?_⟩⟩
      have hne : q ≠ reqId := by
        rintro rfl
        exact hj (h.slot_inj hmem hslot)
      simpa using hne
  refs := by rw [hspec.refs, hspec.length, h.refs]

theorem Indexed.add (h : b.Indexed) (habsent : ∀ i, b.slot i ≠ some request.reqId)
    (hfree : b.slot i = none) (hframe : AddFrame cfg request i b b')
    (hslot : ∀ j, b'.slot j = if j = i then some request.reqId else b.slot j) : b'.Indexed where
  keys := by
    rw [hframe.index]
    exact nodup_dictSet_keys h.keys
  slot_iff q j := by
    rw [hframe.index, mem_dictSet, h.slot_iff, hslot]
    by_cases hj : j = i
    · rw [if_pos hj, hj, hfree]
      simp [eq_comm]
    · rw [if_neg hj]
      refine ⟨fun hmem => ?_, fun hmem => .inr ⟨?_, hmem⟩⟩
      · rcases hmem with ⟨-, rfl⟩ | ⟨-, hmem⟩
        · exact absurd rfl hj
        · exact hmem
      · rintro rfl
        exact habsent j hmem
  refs := hframe.refs

theorem MoveSpec.slot (hspec : MoveSpec reqId src dst b b') (j : ℕ) :
    b'.slot j = if j = dst then b.slot src else if j = src then none else b.slot j := by
  have hrow := congrArg Row.reqId (hspec.row j)
  split_ifs at hrow ⊢ with hdst hsrc
  · exact hrow
  · exact hrow
  · exact hrow

theorem Indexed.move (h : b.Indexed) (hfree : b.slot dst = none)
    (hspec : MoveSpec reqId src dst b b') : b'.Indexed where
  keys := by
    rw [hspec.index]
    exact nodup_dictSet_keys h.keys
  slot_iff q j := by
    rw [hspec.index, mem_dictSet, h.slot_iff, hspec.slot, hspec.slot_src]
    split_ifs with hdst hsrc
    · rw [hdst, hfree]
      simp [eq_comm]
    · rw [hsrc, hspec.slot_src]
      constructor
      · rintro (⟨-, rfl⟩ | ⟨hne, heq⟩)
        · exact absurd hsrc hdst
        · exact absurd (Option.some.inj heq).symm hne
      · exact nofun
    · refine ⟨fun hmem => ?_, fun hmem => .inr ⟨?_, hmem⟩⟩
      · rcases hmem with ⟨-, rfl⟩ | ⟨-, hmem⟩
        · exact absurd rfl hdst
        · exact hmem
      · rintro rfl
        exact hsrc (h.slot_inj hmem hspec.slot_src)
  refs := by rw [hspec.refs, hspec.length, h.refs]

/-- The rows in use and the holes make up the rows of the batch. -/
theorem Indexed.numReqs_add_holes (h : b.Indexed) (hnodup : holes.Nodup)
    (hholes : ∀ i, i ∈ holes ↔ i < n ∧ b.slot i = none)
    (hrows : ∀ i q, b.slot i = some q → i < n) : b.numReqs + holes.length = n := by
  have hitems : b.reqIdToIndex.Nodup := h.keys.of_map
  have hnodup' : (b.reqIdToIndex.map Prod.snd ++ holes).Nodup := by
    refine List.nodup_append.mpr ⟨hitems.map_on ?_, hnodup, ?_⟩
    · rintro ⟨q, i⟩ hq ⟨q', i'⟩ hq' rfl
      rw [h.slot_iff] at hq hq'
      exact Prod.ext (Option.some.inj (hq.symm.trans hq')) rfl
    · rintro i hi i' hi' rfl
      obtain ⟨⟨q, _⟩, hmem, rfl⟩ := List.mem_map.mp hi
      rw [h.slot_iff] at hmem
      exact absurd (((hholes _).mp hi').2.symm.trans hmem) nofun
  have hperm : (b.reqIdToIndex.map Prod.snd ++ holes).Perm (List.range n) := by
    refine (List.perm_ext_iff_of_nodup hnodup' List.nodup_range).mpr fun i => ?_
    rw [List.mem_append, List.mem_range, hholes]
    constructor
    · rintro (hi | hi)
      · obtain ⟨⟨q, _⟩, hmem, rfl⟩ := List.mem_map.mp hi
        exact hrows _ q ((h.slot_iff _ _).mp hmem)
      · exact hi.1
    · intro hi
      cases hslot : b.slot i with
      | none => exact .inr ⟨hi, rfl⟩
      | some q => exact .inl (List.mem_map.mpr ⟨(q, i), (h.slot_iff q i).mpr hslot, rfl⟩)
  have hlength := hperm.length_eq
  rw [List.length_append, List.length_map, List.length_range] at hlength
  exact hlength

/-! ## Adapters in use -/

/-- The adapters are those of the requests that have one. -/
structure Adapters (b : InputBatch) (loraOf : ReqId → ℕ) : Prop where
  mem : ∀ id q, q ∈ (b.loraIdToRequestIds id).getD ∅ ↔ loraOf q = id ∧ id ≠ 0
  nonempty : ∀ id requestIds, b.loraIdToRequestIds id = some requestIds → requestIds.Nonempty
  keys : ∀ id, (b.loraIdToLoraRequest id).isSome ↔ (b.loraIdToRequestIds id).isSome

theorem init_adapters : Adapters init fun _ => 0 where
  mem id q := by
    simp only [init, Option.getD_none, Finset.notMem_empty, false_iff, not_and, not_not]
    exact Eq.symm
  nonempty := nofun
  keys id := by simp [init]

theorem Adapters.congr {loraOf : ReqId → ℕ} (h : b.Adapters loraOf)
    (hids : b'.loraIdToRequestIds = b.loraIdToRequestIds)
    (hloras : b'.loraIdToLoraRequest = b.loraIdToLoraRequest) : b'.Adapters loraOf where
  mem := by rw [hids]; exact h.mem
  nonempty := by rw [hids]; exact h.nonempty
  keys := by rw [hids, hloras]; exact h.keys

/-- The id of the request's adapter, or 0. -/
def loraId (request : CachedRequestState) : ℕ :=
  (request.loraRequest.map LoRARequest.loraIntId).getD 0

theorem Adapters.add {loraOf : ReqId → ℕ} (h : b.Adapters loraOf)
    (habsent : loraOf request.reqId = 0) :
    (b.addLora request i).Adapters (Function.update loraOf request.reqId (loraId request)) := by
  unfold addLora loraId
  cases hlora : request.loraRequest with
  | none =>
      have hsame : Function.update loraOf request.reqId
          (((none : Option LoRARequest).map LoRARequest.loraIntId).getD 0) = loraOf := by
        rw [Option.map_none, Option.getD_none, ← habsent, Function.update_eq_self]
      rw [hsame]
      exact h.congr rfl rfl
  | some lora =>
      have hpos := lora.positive
      refine ⟨fun id q => ?_, fun id requestIds hids => ?_, fun id => ?_⟩
      · simp only [Function.update_apply, Option.map_some, Option.getD_some]
        by_cases hid : id = lora.loraIntId
        · subst hid
          rw [if_pos rfl, Option.getD_some, Finset.mem_insert, h.mem]
          by_cases hq : q = request.reqId
          · simp only [hq, true_or, ite_true, true_and, true_iff]
            omega
          · simp only [hq, false_or, ite_false]
        · rw [if_neg hid, h.mem]
          by_cases hq : q = request.reqId
          · rw [if_pos hq, hq, habsent]
            omega
          · rw [if_neg hq]
      · simp only [Function.update_apply] at hids
        split_ifs at hids with hid
        · obtain rfl := Option.some.inj hids
          exact Finset.insert_nonempty _ _
        · exact h.nonempty id requestIds hids
      · simp only [Function.update_apply]
        split_ifs with hid
        · simp
        · exact h.keys id

theorem Adapters.remove {loraOf : ReqId → ℕ} (h : b.Adapters loraOf)
    (hlora : loraOf reqId = b.requestLoraMapping i) (hok : b.removeLora reqId i = .ok b') :
    b'.Adapters (Function.update loraOf reqId 0) := by
  unfold removeLora at hok
  simp only at hok
  split_ifs at hok with hnone
  · obtain rfl := Except.ok.inj hok
    have hsame : Function.update loraOf reqId 0 = loraOf := by
      rw [← hnone, ← hlora, Function.update_eq_self]
    rwa [hsame]
  · split at hok
    · cases hok
    next requestIds hids =>
      have hmem : ∀ q, q ∈ requestIds.erase reqId ↔
          Function.update loraOf reqId 0 q = b.requestLoraMapping i := by
        intro q
        have hq := h.mem (b.requestLoraMapping i) q
        rw [hids, Option.getD_some] at hq
        rw [Finset.mem_erase, hq, Function.update_apply]
        by_cases hreq : q = reqId
        · simp only [hreq, ne_eq, not_true_eq_false, false_and, ite_true, false_iff]
          exact fun hzero => hnone hzero.symm
        · simp [hreq, hnone]
      have hother : ∀ id, id ≠ b.requestLoraMapping i → ∀ q,
          q ∈ (b.loraIdToRequestIds id).getD ∅ ↔
            Function.update loraOf reqId 0 q = id ∧ id ≠ 0 := by
        intro id hid q
        rw [h.mem, Function.update_apply]
        by_cases hreq : q = reqId
        · rw [if_pos hreq, hreq, hlora]
          exact ⟨fun heq => absurd heq.1.symm hid, fun heq => absurd heq.1.symm heq.2⟩
        · rw [if_neg hreq]
      split_ifs at hok with hempty
      · split at hok
        · cases hok
        · obtain rfl := Except.ok.inj hok
          rw [Finset.card_eq_zero] at hempty
          refine ⟨fun id q => ?_, fun id ids hids' => ?_, fun id => ?_⟩
          · simp only [Function.update_apply b.loraIdToRequestIds]
            split_ifs with hid
            · rw [hid, Option.getD_none, ← hmem, hempty]
              simp
            · exact hother id hid q
          · simp only [Function.update_apply] at hids'
            split_ifs at hids' with hid
            exact h.nonempty id ids hids'
          · simp only [Function.update_apply]
            split_ifs with hid
            · simp
            · exact h.keys id
      · obtain rfl := Except.ok.inj hok
        refine ⟨fun id q => ?_, fun id ids hids' => ?_, fun id => ?_⟩
        · simp only [Function.update_apply b.loraIdToRequestIds]
          split_ifs with hid
          · rw [hid, Option.getD_some, hmem]
            exact ⟨fun heq => ⟨heq, hnone⟩, And.left⟩
          · exact hother id hid q
        · simp only [Function.update_apply] at hids'
          split_ifs at hids' with hid
          · obtain rfl := Option.some.inj hids'
            exact Finset.card_pos.mp (Nat.pos_of_ne_zero hempty)
          · exact h.nonempty id ids hids'
        · rw [h.keys]
          simp only [Function.update_apply]
          split_ifs with hid
          · rw [hid, hids]
            simp
          · rfl

/-! ## Condensing -/

/-- The holes of the batch, in ascending order. -/
structure Holes (b : InputBatch) (holes : List ℕ) : Prop where
  ascending : holes.Pairwise (· < ·)
  mem : ∀ i, i ∈ holes ↔ i < b.reqIds.length ∧ b.slot i = none

/-- A batch whose requests are its rows. -/
def Dense (b : InputBatch) : Prop :=
  ∀ i < b.reqIds.length, (b.slot i).isSome

/-- The lists of a batch without the rows from `n` on. -/
def cut (b : InputBatch) (n : ℕ) : InputBatch :=
  { b with reqIds := b.reqIds.take n, reqOutputTokenIds := b.reqOutputTokenIds.take n }

theorem slot_cut (hrows : ∀ i, (b.slot i).isSome ↔ i < n) (i : ℕ) :
    (b.cut n).slot i = b.slot i := by
  unfold cut slot
  rw [List.getElem?_take]
  split_ifs with hi
  · rfl
  · have hnone : ¬ (b.slot i).isSome := fun hsome => hi ((hrows i).mp hsome)
    rw [Option.not_isSome_iff_eq_none] at hnone
    exact hnone.symm

theorem Indexed.cut (h : b.Indexed) (hrows : ∀ i, (b.slot i).isSome ↔ i < n) :
    (b.cut n).Indexed where
  keys := h.keys
  slot_iff q i := by
    rw [slot_cut hrows]
    exact h.slot_iff q i
  refs := by
    have hrefs := h.refs
    simp [InputBatch.cut, hrefs]

theorem Dense.cut (hrows : ∀ i, (b.slot i).isSome ↔ i < n) : (b.cut n).Dense := by
  intro i hi
  rw [slot_cut hrows, hrows]
  have hlength : (b.cut n).reqIds.length ≤ n := List.length_take_le _ _
  omega

theorem Indexed.numReqs_eq (h : b.Indexed) (hrows : ∀ i, (b.slot i).isSome ↔ i < n) :
    b.numReqs = n := by
  refine h.numReqs_add_holes List.nodup_nil (fun i => ?_) fun i q hi => ?_
  · simp only [List.not_mem_nil, false_iff, not_and]
    intro hi hnone
    have hsome := (hrows i).mpr hi
    rw [hnone] at hsome
    cases hsome
  · exact (hrows i).mp (by rw [hi]; rfl)

/-- The requests of the rows, in order. -/
def requestIds (b : InputBatch) : List ReqId :=
  b.reqIds.reduceOption

theorem Dense.reqIds_eq (h : b.Dense) : b.reqIds = b.requestIds.map some := by
  have hsome : ∀ reqId ∈ b.reqIds, reqId.isSome := by
    intro reqId hmem
    obtain ⟨i, hi, rfl⟩ := List.mem_iff_getElem.mp hmem
    have hdense := h i hi
    rwa [slot, List.getElem?_eq_getElem hi, Option.join_some] at hdense
  rw [requestIds]
  generalize b.reqIds = reqIds at hsome
  induction reqIds with
  | nil => rfl
  | cons reqId reqIds ih =>
      obtain ⟨q, rfl⟩ := Option.isSome_iff_exists.mp (hsome reqId List.mem_cons_self)
      rw [List.reduceOption_cons_of_some, List.map_cons,
        ← ih fun q hq => hsome q (List.mem_cons_of_mem _ hq)]

theorem Dense.slot_eq (h : b.Dense) (i : ℕ) : b.slot i = b.requestIds[i]? := by
  rw [slot, h.reqIds_eq, List.getElem?_map]
  cases b.requestIds[i]? <;> rfl

theorem Indexed.numReqs_eq_length (h : b.Indexed) (hdense : b.Dense) :
    b.numReqs = b.requestIds.length := by
  apply h.numReqs_eq
  intro i
  rw [hdense.slot_eq]
  simp

theorem Indexed.nodup_requestIds (h : b.Indexed) (hdense : b.Dense) : b.requestIds.Nodup := by
  rw [List.nodup_iff_getElem?_ne_getElem?]
  intro i j hij hj heq
  rw [List.getElem?_eq_getElem hj] at heq
  have hi := hdense.slot_eq i
  have hj' := hdense.slot_eq j
  rw [heq] at hi
  rw [List.getElem?_eq_getElem hj] at hj'
  exact absurd (h.slot_inj hi hj') (by omega)

theorem Holes.gaps (h : b.Indexed) (hholes : b.Holes holes) (hsome : b.numReqs ≠ 0) :
    Compaction.Gaps b.slot holes (b.numReqs + holes.length - 1) := by
  have hlength : b.numReqs + holes.length = b.reqIds.length :=
    h.numReqs_add_holes (hholes.ascending.imp fun hlt => ne_of_lt hlt) hholes.mem
      fun i q hi => slot_lt hi
  rw [hlength]
  refine ⟨hholes.ascending, fun i hi => ?_, fun i hi => ?_⟩
  · rw [slot, List.getElem?_eq_none (by omega), Option.join_none]
  · rw [hholes.mem]
    exact ⟨fun hnone => ⟨by omega, hnone⟩, And.right⟩

/-- What every move preserves holds of the batch after `condense`, which makes it dense. -/
theorem condense_spec {I : InputBatch → Prop} (h : b.Indexed) (hI : I b) (hholes : b.Holes holes)
    (hmove : ∀ b b' src dst reqId, I b → b.Indexed → dst < src → b.slot dst = none →
      MoveSpec reqId src dst b b' → I b')
    (hcut : ∀ b n, I b → b.Indexed → (∀ i, (b.slot i).isSome ↔ i < n) → I (b.cut n))
    (hok : b.condense holes = .ok b') : b'.Indexed ∧ I b' ∧ b'.Dense := by
  unfold condense at hok
  split_ifs at hok with hempty
  · obtain rfl := Except.ok.inj hok
    have hrows : ∀ i, (b.slot i).isSome ↔ i < 0 := by
      intro i
      rw [Option.isSome_iff_exists]
      refine ⟨fun ⟨q, hq⟩ => ?_, fun hi => absurd hi (Nat.not_lt_zero i)⟩
      have hpresent := (h.slot_iff q i).mpr hq
      rw [List.length_eq_zero_iff.mp hempty] at hpresent
      exact absurd hpresent List.not_mem_nil
    exact ⟨h.cut hrows, hcut b 0 hI h hrows, Dense.cut hrows⟩
  · simp only [bind_eq_ok, pure_eq_ok] at hok
    obtain ⟨b₁, hfill, rfl⟩ := hok
    obtain ⟨⟨h₁, hI₁⟩, n, hrows⟩ := Compaction.fill_spec (I := fun b => b.Indexed ∧ I b)
      (fun s s' src dst hs hlt _ hfree hok => by
        obtain ⟨reqId, hspec⟩ := moveRequest_eq_ok (ne_of_lt hlt) hok
        exact ⟨⟨hs.1.move hfree hspec, hmove s s' src dst reqId hs.2 hs.1 hlt hfree hspec⟩,
          hspec.slot⟩)
      ⟨h, hI⟩ (hholes.gaps h hempty) hfill
    rw [h₁.numReqs_eq hrows]
    exact ⟨h₁.cut hrows, hcut b₁ n hI₁ h₁ hrows, Dense.cut hrows⟩

end InputBatch

end Spexis
