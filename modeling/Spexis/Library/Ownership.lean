import Mathlib.Algebra.GroupWithZero.Nat
import Mathlib.Data.List.Perm.Basic
import Mathlib.Data.List.Pairwise
import Mathlib.Data.List.Nodup
import Mathlib.Order.Nat

/-! # Exclusive ownership

A stock of items, each of which is free or belongs to one owner. -/

namespace Ownership

open List (Perm)
open scoped List

variable {ι β : Type*} {items free free' : List β} {owners : List ι}
  {owned : ι → List β} {i j : ι} {b : β}

/-- The free items and the items of all owners make up the stock. -/
structure Ledger (items free : List β) (owners : List ι) (owned : ι → List β) : Prop where
  perm : (free ++ owners.flatMap owned).Perm items
  nodup : owners.Nodup
  idle : ∀ i ∉ owners, owned i = []

namespace Ledger

/-! ## Changes of ownership -/

theorem enter (h : Ledger items free owners owned) (hi : i ∉ owners) :
    Ledger items free (owners ++ [i]) owned := by
  refine ⟨?_, ?_, fun j hj => h.idle j (fun hmem => hj (List.mem_append_left _ hmem))⟩
  · simpa [h.idle i hi] using h.perm
  · rw [← List.concat_eq_append]
    exact h.nodup.concat hi

/-- The order of the owners does not matter. -/
theorem reorder {owners' : List ι} (h : Ledger items free owners owned)
    (hperm : owners.Perm owners') : Ledger items free owners' owned :=
  ⟨((hperm.flatMap_right owned).symm.append_left free).trans h.perm, hperm.nodup_iff.mp h.nodup,
    fun i hi => h.idle i (hperm.mem_iff.not.mpr hi)⟩

section Change

variable [DecidableEq ι]

theorem flatMap_update_of_notMem (h : i ∉ owners) (xs : List β) :
    owners.flatMap (Function.update owned i xs) = owners.flatMap owned := by
  refine List.flatMap_congr (fun j hj => Function.update_of_ne ?_ _ _)
  rintro rfl
  exact h hj

/-- The items of one owner can be split off. -/
theorem flatMap_perm (owned : ι → List β) (hi : i ∈ owners) :
    (owners.flatMap owned).Perm (owned i ++ (owners.erase i).flatMap owned) := by
  have hperm := List.Perm.flatMap_right owned (List.perm_cons_erase hi)
  simpa using hperm

theorem take (h : Ledger items free owners owned) {taken : List β} (hfree : free = taken ++ free')
    (hi : i ∈ owners) :
    Ledger items free' owners (Function.update owned i (owned i ++ taken)) := by
  refine ⟨?_, h.nodup, fun j hj => ?_⟩
  · refine List.Perm.trans ?_ h.perm
    have hnew := flatMap_perm (Function.update owned i (owned i ++ taken)) hi
    have hold := flatMap_perm owned hi
    rw [Function.update_self, flatMap_update_of_notMem h.nodup.not_mem_erase] at hnew
    calc free' ++ owners.flatMap (Function.update owned i (owned i ++ taken))
      _ ~ free' ++ (owned i ++ taken ++ (owners.erase i).flatMap owned) := hnew.append_left _
      _ ~ free ++ (owned i ++ (owners.erase i).flatMap owned) := by
          classical
          rw [hfree, List.perm_iff_count]
          intro b
          simp only [List.count_append]
          omega
      _ ~ free ++ owners.flatMap owned := (hold.append_left _).symm
  · have hne : j ≠ i := fun heq => hj (heq ▸ hi)
    rw [Function.update_of_ne hne, h.idle j hj]

theorem leave (h : Ledger items free owners owned) {returned : List β}
    (hperm : returned.Perm (owned i)) :
    Ledger items (free ++ returned) (owners.erase i) (Function.update owned i []) := by
  refine ⟨?_, h.nodup.erase i, fun j hj => ?_⟩
  · refine List.Perm.trans ?_ h.perm
    rw [flatMap_update_of_notMem h.nodup.not_mem_erase, List.append_assoc]
    refine List.Perm.append_left _ ?_
    by_cases hi : i ∈ owners
    · exact (hperm.append_right _).trans (flatMap_perm owned hi).symm
    · rw [h.idle i hi] at hperm
      rw [List.perm_nil.mp hperm, List.nil_append, List.erase_of_not_mem hi]
  · by_cases hji : j = i
    · rw [hji, Function.update_self]
    · rw [Function.update_of_ne hji]
      exact h.idle j (fun hmem => hj ((List.mem_erase_of_ne hji).mpr hmem))

end Change

/-! ## Exclusiveness -/

theorem mem_owners (h : Ledger items free owners owned) (hb : b ∈ owned i) : i ∈ owners := by
  by_contra hi
  rw [h.idle i hi] at hb
  exact absurd hb List.not_mem_nil

theorem mem_items (h : Ledger items free owners owned) :
    b ∈ items ↔ b ∈ free ∨ ∃ i, b ∈ owned i := by
  rw [← h.perm.mem_iff, List.mem_append, List.mem_flatMap]
  exact or_congr_right ⟨fun ⟨i, _, hb⟩ => ⟨i, hb⟩, fun ⟨i, hb⟩ => ⟨i, h.mem_owners hb, hb⟩⟩

theorem all_nodup (h : Ledger items free owners owned) (hitems : items.Nodup) :
    (free ++ owners.flatMap owned).Nodup :=
  h.perm.nodup_iff.mpr hitems

theorem free_nodup (h : Ledger items free owners owned) (hitems : items.Nodup) : free.Nodup :=
  (List.nodup_append.mp (h.all_nodup hitems)).1

theorem owned_nodup (h : Ledger items free owners owned) (hitems : items.Nodup) (i : ι) :
    (owned i).Nodup := by
  by_cases hi : i ∈ owners
  · exact (List.nodup_flatMap.mp (List.nodup_append.mp (h.all_nodup hitems)).2.1).1 i hi
  · rw [h.idle i hi]
    exact List.nodup_nil

theorem notMem_free (h : Ledger items free owners owned) (hitems : items.Nodup)
    (hb : b ∈ owned i) : b ∉ free := fun hfree =>
  (List.nodup_append.mp (h.all_nodup hitems)).2.2 b hfree b
    (List.mem_flatMap.mpr ⟨i, h.mem_owners hb, hb⟩) rfl

/-- An item has one owner. -/
theorem owner_unique (h : Ledger items free owners owned) (hitems : items.Nodup)
    (hi : b ∈ owned i) (hj : b ∈ owned j) : i = j := by
  by_contra hne
  have hpair := (List.nodup_flatMap.mp (List.nodup_append.mp (h.all_nodup hitems)).2.1).2
  have hsymm : Std.Symm (Function.onFun List.Disjoint owned) := ⟨fun _ _ hd _ hb hb' => hd hb' hb⟩
  have hdisjoint := hpair.forall (h.mem_owners hi) (h.mem_owners hj) hne
  exact hdisjoint hi hj

theorem length_eq (h : Ledger items free owners owned) :
    free.length + (owners.map (fun i => (owned i).length)).sum = items.length := by
  rw [← h.perm.length_eq, List.length_append, List.length_flatMap]

end Ledger

/-! ## Ownership over time -/

/-- A longest stretch of time, up to a horizon, in which an owner holds an item. -/
structure Tenure (holds : ℕ → ι → Prop) (horizon : ℕ) (i : ι) (first last : ℕ) : Prop where
  le : first ≤ last
  last_le : last ≤ horizon
  held : ∀ t, first ≤ t → t ≤ last → holds t i
  begins : first = 0 ∨ ¬ holds (first - 1) i
  ends : last = horizon ∨ ¬ holds (last + 1) i

section Tenure

variable {holds : ℕ → ι → Prop} {horizon first last first' last' t : ℕ}

theorem exists_first (h : holds t i) :
    ∃ first ≤ t, (∀ t', first ≤ t' → t' ≤ t → holds t' i) ∧
      (first = 0 ∨ ¬ holds (first - 1) i) := by
  induction t with
  | zero =>
      refine ⟨0, le_rfl, fun t' _ ht' => ?_, .inl rfl⟩
      rwa [Nat.le_zero.mp ht']
  | succ t ih =>
      by_cases hbefore : holds t i
      · obtain ⟨first, hle, hheld, hbegins⟩ := ih hbefore
        refine ⟨first, by omega, fun t' hfirst ht' => ?_, hbegins⟩
        rcases Nat.le_succ_iff.mp ht' with ht' | rfl
        · exact hheld t' hfirst ht'
        · exact h
      · refine ⟨t + 1, le_rfl, fun t' hfirst ht' => ?_, .inr hbefore⟩
        rwa [le_antisymm ht' hfirst]

theorem exists_last (h : holds t i) (n : ℕ) :
    ∃ last, t ≤ last ∧ last ≤ t + n ∧ (∀ t', t ≤ t' → t' ≤ last → holds t' i) ∧
      (last = t + n ∨ ¬ holds (last + 1) i) := by
  induction n with
  | zero =>
      refine ⟨t, le_rfl, le_rfl, fun t' hle hle' => ?_, .inl rfl⟩
      rwa [le_antisymm hle' hle]
  | succ n ih =>
      obtain ⟨last, hle, hlast, hheld, hends⟩ := ih
      by_cases hnext : last = t + n ∧ holds (last + 1) i
      · obtain ⟨rfl, hnext⟩ := hnext
        refine ⟨t + n + 1, by omega, by omega, fun t' hle' hlast' => ?_, .inl rfl⟩
        rcases Nat.le_succ_iff.mp hlast' with hlast' | rfl
        · exact hheld t' hle' hlast'
        · exact hnext
      · refine ⟨last, hle, by omega, hheld, .inr (fun hheld' => hnext ⟨?_, hheld'⟩)⟩
        exact hends.resolve_right (fun hno => hno hheld')

/-- An owner holds an item within a tenure. -/
theorem exists_tenure (h : holds t i) (ht : t ≤ horizon) :
    ∃ first last, Tenure holds horizon i first last ∧ first ≤ t ∧ t ≤ last := by
  obtain ⟨first, hfirst, hbefore, hbegins⟩ := exists_first h
  obtain ⟨last, hlast, hhorizon, hafter, hends⟩ := exists_last h (horizon - t)
  have hsum : t + (horizon - t) = horizon := by omega
  rw [hsum] at hhorizon hends
  refine ⟨first, last, ⟨by omega, hhorizon, fun t' hfirst' hlast' => ?_, hbegins, hends⟩,
    hfirst, hlast⟩
  rcases Nat.le_total t' t with hle | hle
  · exact hbefore t' hfirst' hle
  · exact hafter t' hle hlast'

/-- The tenures of one item follow each other. -/
theorem Tenure.before (hunique : ∀ t ≤ horizon, ∀ i j, holds t i → holds t j → i = j)
    (h : Tenure holds horizon i first last) (h' : Tenure holds horizon j first' last')
    (hlt : first < first') : last < first' := by
  by_contra hle
  have hheld : holds first' i := h.held first' (by omega) (by omega)
  have hsame : i = j :=
    hunique first' (h'.le.trans h'.last_le) i j hheld (h'.held first' le_rfl h'.le)
  subst hsame
  rcases h'.begins with hzero | hno
  · omega
  · exact hno (h.held (first' - 1) (by omega) (by omega))

end Tenure

end Ownership
