import Mathlib.Data.Set.Card
import Mathlib.Data.List.Nodup
import Mathlib.Data.Int.Basic

/-! # Shared ownership

A stock of items that several owners may hold at once. The references to an item are counted,
and an item without references is free. -/

variable {ι β : Type*} {items free : List β} {refs : β → ℤ} {owned : ι → List β} {i : ι} {b : β}
  {bs : List β}

/-- The references to an item are its owners, and the free items are those without any. -/
structure Sharing (items free : List β) (refs : β → ℤ) (owned : ι → List β) : Prop where
  nodup : free.Nodup
  free_iff : ∀ b, b ∈ free ↔ b ∈ items ∧ refs b = 0
  mem_items : ∀ i, ∀ b ∈ owned i, b ∈ items
  owned_nodup : ∀ i, (owned i).Nodup
  finite : {i | owned i ≠ []}.Finite
  refs_eq : ∀ b ∈ items, refs b = ({i | b ∈ owned i}.ncard : ℤ)

namespace Sharing

theorem start (hnodup : items.Nodup) :
    Sharing items items (fun _ => 0) (fun _ : ι => ([] : List β)) where
  nodup := hnodup
  free_iff := by simp
  mem_items := by simp
  owned_nodup := by simp
  finite := by simp
  refs_eq := by simp

variable (h : Sharing items free refs owned)

include h

theorem owners_finite (b : β) : {i | b ∈ owned i}.Finite :=
  h.finite.subset (fun _ hi => List.ne_nil_of_mem hi)

theorem refs_pos (hb : b ∈ owned i) : 0 < refs b := by
  rw [h.refs_eq b (h.mem_items i b hb)]
  have hpos := (Set.ncard_pos (h.owners_finite b)).mpr ⟨i, hb⟩
  omega

/-- A free item belongs to nobody. -/
theorem notMem_of_free (hb : b ∈ free) (i : ι) : b ∉ owned i := by
  intro hmem
  have hpos := h.refs_pos hmem
  rw [((h.free_iff b).mp hb).2] at hpos
  exact lt_irrefl _ hpos

variable [DecidableEq ι] [DecidableEq β]

/-- One more owner for some of the items. -/
theorem share (hbs : bs.Nodup) (hitems : ∀ b ∈ bs, b ∈ items) (hnew : ∀ b ∈ bs, b ∉ owned i) :
    Sharing items (free.filter (· ∉ bs)) (fun b => if b ∈ bs then refs b + 1 else refs b)
      (Function.update owned i (owned i ++ bs)) := by
  have howners : ∀ b, {j | b ∈ Function.update owned i (owned i ++ bs) j} =
      if b ∈ bs then insert i {j | b ∈ owned j} else {j | b ∈ owned j} := by
    intro b
    ext j
    by_cases hj : j = i
    · subst hj
      split_ifs with hb <;> simp [hb]
    · split_ifs with hb <;> simp [hj]
  refine ⟨h.nodup.filter _, ?_, ?_, ?_, ?_, ?_⟩
  · intro b
    rw [List.mem_filter, h.free_iff]
    split_ifs with hb
    · have hnonneg : 0 ≤ refs b := by
        rw [h.refs_eq b (hitems b hb)]
        exact Int.natCast_nonneg _
      simp only [hb, not_true_eq_false, decide_false, Bool.false_eq_true, and_false, false_iff,
        not_and]
      omega
    · simp [hb]
  · intro j b hb
    by_cases hj : j = i
    · subst hj
      rw [Function.update_self, List.mem_append] at hb
      exact hb.elim (h.mem_items j b) (hitems b)
    · rw [Function.update_of_ne hj] at hb
      exact h.mem_items j b hb
  · intro j
    by_cases hj : j = i
    · subst hj
      rw [Function.update_self]
      refine List.nodup_append.mpr ⟨h.owned_nodup j, hbs, ?_⟩
      rintro a ha c hc rfl
      exact hnew a hc ha
    · rw [Function.update_of_ne hj]
      exact h.owned_nodup j
  · refine (h.finite.insert i).subset (fun j hj => ?_)
    by_cases hji : j = i
    · exact Set.mem_insert_iff.mpr (.inl hji)
    · refine Set.mem_insert_iff.mpr (.inr ?_)
      simpa [Function.update_of_ne hji] using hj
  · intro b hb
    rw [howners b]
    split_ifs with hmem
    · have hnot : i ∉ {j | b ∈ owned j} := hnew b hmem
      rw [Set.ncard_insert_of_notMem hnot (h.owners_finite b), h.refs_eq b hb]
      push_cast
      rfl
    · exact h.refs_eq b hb

/-- The owner gives up all its items. -/
theorem release (hperm : bs.Perm (owned i)) :
    Sharing items (free ++ bs.filter (refs · = 1))
      (fun b => if b ∈ bs then refs b - 1 else refs b) (Function.update owned i []) := by
  have hmem : ∀ b, b ∈ bs ↔ b ∈ owned i := fun b => hperm.mem_iff
  have howners : ∀ b, {j | b ∈ Function.update owned i [] j} = {j | b ∈ owned j} \ {i} := by
    intro b
    ext j
    by_cases hj : j = i
    · subst hj
      simp
    · simp [hj]
  refine ⟨?_, ?_, ?_, ?_, ?_, ?_⟩
  · refine List.nodup_append.mpr ⟨h.nodup, (hperm.nodup_iff.mpr (h.owned_nodup i)).filter _, ?_⟩
    rintro a ha c hc rfl
    exact h.notMem_of_free ha i ((hmem a).mp (List.mem_of_mem_filter hc))
  · intro b
    rw [List.mem_append, List.mem_filter, h.free_iff]
    by_cases hb : b ∈ bs
    · have hitem := h.mem_items i b ((hmem b).mp hb)
      have hpos := h.refs_pos ((hmem b).mp hb)
      simp only [hb, ite_true, true_and, decide_eq_true_eq, hitem]
      omega
    · simp [hb]
  · intro j b hb
    by_cases hj : j = i
    · subst hj
      simp at hb
    · rw [Function.update_of_ne hj] at hb
      exact h.mem_items j b hb
  · intro j
    by_cases hj : j = i
    · subst hj
      simp
    · rw [Function.update_of_ne hj]
      exact h.owned_nodup j
  · refine h.finite.subset (fun j hj => ?_)
    by_cases hji : j = i
    · subst hji
      simp at hj
    · simpa [Function.update_of_ne hji] using hj
  · intro b hb
    rw [howners b]
    split_ifs with hbs
    · have hi : i ∈ {j | b ∈ owned j} := (hmem b).mp hbs
      have hcard := Set.ncard_sdiff_singleton_add_one hi (h.owners_finite b)
      rw [h.refs_eq b hb]
      omega
    · have hi : i ∉ {j | b ∈ owned j} := fun hi => hbs ((hmem b).mpr hi)
      rw [Set.sdiff_singleton_eq_self hi]
      exact h.refs_eq b hb

end Sharing
