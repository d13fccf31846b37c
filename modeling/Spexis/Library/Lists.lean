import Mathlib.Data.List.Nodup
import Mathlib.Order.MinMax

/-! # Lists

Facts about positions, prefixes and removal. -/

namespace List

variable {α : Type*}

theorem getElem?_dropLast_of_ne {xs : List α} {i : ℕ} {a b : α} (hi : xs[i]? = some a)
    (hlast : xs.getLast? = some b) (hne : b ≠ a) : xs.dropLast[i]? = some a := by
  have hlen : i < xs.length := (getElem?_eq_some_iff.mp hi).1
  have hi' : i ≠ xs.length - 1 := by
    rintro rfl
    rw [getLast?_eq_getElem?, hi] at hlast
    exact hne (Option.some.inj hlast).symm
  rw [getElem?_dropLast, if_pos (by omega), hi]

theorem getLast?_mem_drop {xs : List α} {i : ℕ} {a : α} (hi : i < xs.length)
    (hlast : xs.getLast? = some a) : a ∈ xs.drop i := by
  apply mem_of_getLast?
  rw [getLast?_drop, if_neg (by omega), hlast]

theorem mem_drop_of_getElem? {xs : List α} {i : ℕ} {a : α} (hi : xs[i]? = some a) :
    a ∈ xs.drop i :=
  mem_of_getElem? (i := 0) (by simpa using hi)

theorem drop_subset_drop_of_le (xs : List α) {i j : ℕ} (h : i ≤ j) : xs.drop j ⊆ xs.drop i :=
  (drop_sublist_drop_left xs h).subset

theorem IsPrefix.drop_subset {xs ys : List α} (h : xs <+: ys) (i : ℕ) :
    xs.drop i ⊆ ys.drop i := by
  obtain ⟨zs, rfl⟩ := h
  intro a ha
  rw [drop_append]
  exact mem_append_left _ ha

theorem IsPrefix.getElem?_eq {xs ys : List α} (h : xs <+: ys) {i : ℕ} (hi : i < xs.length) :
    xs[i]? = ys[i]? := by
  obtain ⟨zs, rfl⟩ := h
  rw [getElem?_append_left hi]

theorem Nodup.filter_notMem_take [DecidableEq α] {xs : List α} (h : xs.Nodup) (n : ℕ) :
    xs.filter (· ∉ xs.take n) = xs.drop n := by
  have hdisjoint : ∀ a ∈ xs.drop n, a ∉ xs.take n := by
    intro a ha ha'
    rw [← take_append_drop n xs] at h
    exact (nodup_append.mp h).2.2 a ha' a ha rfl
  calc xs.filter (· ∉ xs.take n)
    _ = (xs.take n ++ xs.drop n).filter (· ∉ xs.take n) := by rw [take_append_drop]
    _ = (xs.take n).filter (· ∉ xs.take n) ++ (xs.drop n).filter (· ∉ xs.take n) :=
        filter_append _ _
    _ = [] ++ xs.drop n := by
        congr 1
        · exact filter_eq_nil_iff.mpr (by simp)
        · exact filter_eq_self.mpr (fun a ha => by simpa using hdisjoint a ha)

/-- Every entry satisfies the condition of its position. -/
def Entries (xs : List α) (P : ℕ → α → Prop) : Prop :=
  ∀ i x, xs[i]? = some x → P i x

theorem Entries.set {xs : List α} {P : ℕ → α → Prop} (h : xs.Entries P) {k : ℕ} {v : α}
    (hv : P k v) : (xs.set k v).Entries P := by
  intro i x hx
  by_cases hik : i = k
  · subst hik
    obtain ⟨hlt, rfl⟩ := getElem?_eq_some_iff.mp hx
    rwa [getElem_set_self]
  · exact h i x (by rwa [getElem?_set_ne (fun h => hik h.symm)] at hx)

theorem Entries.replicate {n : ℕ} {v : α} {P : ℕ → α → Prop} (h : ∀ i, P i v) :
    (replicate n v).Entries P := by
  intro i x hx
  obtain rfl := eq_of_mem_replicate (mem_of_getElem? hx)
  exact h i

theorem foldl_max_le_iff {β : Type*} [LinearOrder β] {xs : List β} {a b : β} :
    xs.foldl max a ≤ b ↔ a ≤ b ∧ ∀ x ∈ xs, x ≤ b := by
  induction xs generalizing a with
  | nil => simp
  | cons x xs ih => rw [foldl_cons, ih, max_le_iff, forall_mem_cons, and_assoc]

theorem le_foldl_min_iff {β : Type*} [LinearOrder β] {xs : List β} {a b : β} :
    b ≤ xs.foldl min a ↔ b ≤ a ∧ ∀ x ∈ xs, b ≤ x := by
  induction xs generalizing a with
  | nil => simp
  | cons x xs ih => rw [foldl_cons, ih, le_min_iff, forall_mem_cons, and_assoc]

theorem foldl_min_mem {β : Type*} [LinearOrder β] (xs : List β) (a : β) :
    xs.foldl min a ∈ a :: xs := by
  induction xs generalizing a with
  | nil => exact mem_cons_self
  | cons x xs ih =>
      rw [foldl_cons]
      rcases mem_cons.mp (ih (min a x)) with heq | hmem
      · rw [heq]
        rcases min_choice a x with hmin | hmin <;> rw [hmin]
        · exact mem_cons_self
        · exact mem_cons_of_mem a mem_cons_self
      · exact mem_cons_of_mem a (mem_cons_of_mem x hmem)

theorem zip_eq_nil_iff_of_length {β γ : Type*} {xs : List β} {ys : List γ}
    (h : xs.length = ys.length) : xs.zip ys = [] ↔ xs = [] := by
  rw [zip_eq_nil_iff, ← length_eq_zero_iff, ← length_eq_zero_iff, ← h, or_self]

theorem Nodup.append_singleton {xs : List α} {a : α} (h : xs.Nodup) (ha : a ∉ xs) :
    (xs ++ [a]).Nodup := by
  rw [← concat_eq_append]
  exact Nodup.concat ha h

end List
