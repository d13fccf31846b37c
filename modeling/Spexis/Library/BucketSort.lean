import Mathlib.Data.List.Perm.Basic
import Mathlib.Order.Nat

/-! # Stable bucket order

The entries of a list by decreasing key, and in list order where keys agree. -/

namespace BucketSort

variable {α : Type*} {key : α → ℕ} {xs : List α} {n k : ℕ} {x y : α}

/-- The entries with one key, in list order. -/
def bucket (key : α → ℕ) (xs : List α) (i : ℕ) : List α :=
  xs.filter (key · = i)

/-- The buckets below `n`, the highest first. -/
def descending (key : α → ℕ) (xs : List α) : ℕ → List α
  | 0 => []
  | n + 1 => bucket key xs n ++ descending key xs n

/-- Does an entry stand before another one? -/
def Ahead (key : α → ℕ) (xs : List α) (x y : α) : Prop :=
  key y < key x ∨ key x = key y ∧ [x, y].Sublist xs

theorem mem_bucket {i : ℕ} : x ∈ bucket key xs i ↔ x ∈ xs ∧ key x = i := by
  simp [bucket]

theorem descending_perm : (descending key xs n).Perm (xs.filter (key · < n)) := by
  induction n with
  | zero => simp [descending]
  | succ n ih =>
      have hsplit := List.filter_append_perm (fun x => decide (key x = n))
        (xs.filter (key · < n + 1))
      have hhigh : (xs.filter (key · < n + 1)).filter (fun x => decide (key x = n)) =
          bucket key xs n := by
        rw [bucket, List.filter_filter]
        refine List.filter_congr (fun x _ => ?_)
        simp only [← Bool.decide_and, decide_eq_decide]
        omega
      have hlow : (xs.filter (key · < n + 1)).filter (fun x => !decide (key x = n)) =
          xs.filter (key · < n) := by
        rw [List.filter_filter]
        refine List.filter_congr (fun x _ => ?_)
        simp only [← decide_not, ← Bool.decide_and, decide_eq_decide]
        omega
      rw [hhigh, hlow] at hsplit
      exact (ih.append_left _).trans hsplit

theorem descending_perm_self (h : ∀ x ∈ xs, key x < n) : (descending key xs n).Perm xs := by
  have hall : xs.filter (key · < n) = xs := by
    rw [List.filter_eq_self]
    simpa using h
  have hperm : (descending key xs n).Perm (xs.filter (key · < n)) := descending_perm
  rwa [hall] at hperm

theorem mem_descending : x ∈ descending key xs n ↔ x ∈ xs ∧ key x < n := by
  rw [descending_perm.mem_iff]
  simp

theorem descending_ahead : (descending key xs n).Pairwise (Ahead key xs) := by
  induction n with
  | zero => exact .nil
  | succ n ih =>
      refine List.pairwise_append.mpr ⟨?_, ih, fun x hx y hy => ?_⟩
      · rw [List.pairwise_iff_forall_sublist]
        intro x y hsub
        have hx := mem_bucket.mp (hsub.subset (List.mem_cons_self))
        have hy := mem_bucket.mp (hsub.subset (List.mem_cons_of_mem _ List.mem_cons_self))
        exact .inr ⟨hx.2.trans hy.2.symm, hsub.trans List.filter_sublist⟩
      · left
        rw [(mem_bucket.mp hx).2]
        exact (mem_descending.mp hy).2

/-- What is taken stands before what is left. -/
theorem ahead_of_take_drop (hx : x ∈ (descending key xs n).take k)
    (hy : y ∈ (descending key xs n).drop k) : Ahead key xs x y := by
  have hsplit : (descending key xs n).Pairwise (Ahead key xs) := descending_ahead
  rw [← List.take_append_drop k (descending key xs n)] at hsplit
  exact (List.pairwise_append.mp hsplit).2.2 x hx y hy

/-! ## A bucket that is only partly taken -/

theorem filter_key_descending {j : ℕ} :
    (descending key xs n).filter (key · = j) = if j < n then bucket key xs j else [] := by
  induction n with
  | zero => simp [descending]
  | succ n ih =>
      rw [descending, List.filter_append, ih, bucket, List.filter_filter]
      by_cases hj : j = n
      · subst hj
        simp [bucket]
      · have hnone : xs.filter (fun x => decide (key x = j) && decide (key x = n)) = [] := by
          rw [List.filter_eq_nil_iff]
          intro x _
          simp only [Bool.and_eq_true, decide_eq_true_eq, not_and]
          omega
        rw [hnone, List.nil_append]
        by_cases hlt : j < n
        · rw [if_pos hlt, if_pos (by omega)]
        · rw [if_neg hlt, if_neg (by omega)]

/-- What is left of bucket `j` after its first `i` entries, and the buckets below it. -/
def remaining (key : α → ℕ) (xs : List α) (j i : ℕ) : List α :=
  (bucket key xs j).drop i ++ descending key xs j

theorem filter_key_bucket_drop {j j' i : ℕ} :
    ((bucket key xs j).drop i).filter (key · = j') =
      if j' = j then (bucket key xs j).drop i else [] := by
  have hkey : ∀ x ∈ (bucket key xs j).drop i, key x = j :=
    fun x hx => (mem_bucket.mp (List.mem_of_mem_drop hx)).2
  split_ifs with hj
  · rw [List.filter_eq_self]
    intro x hx
    simpa [hj] using hkey x hx
  · rw [List.filter_eq_nil_iff]
    intro x hx
    simpa [hkey x hx] using Ne.symm hj

/-- A list of entries is left inside at most one bucket. -/
theorem remaining_inj {j j' i i' : ℕ} (hi : 0 < i) (hlen : i < (bucket key xs j).length)
    (hlen' : i' < (bucket key xs j').length)
    (h : remaining key xs j i = remaining key xs j' i') : j = j' ∧ i = i' := by
  have hfilter := congrArg (fun ys => (ys.filter (key · = j)).length) h
  simp only [remaining, List.filter_append, filter_key_bucket_drop, filter_key_descending,
    ite_true, lt_irrefl, ite_false, List.append_nil, List.length_append, List.length_drop] at hfilter
  by_cases hj : j = j'
  · subst hj
    simp only [ite_true, lt_irrefl, ite_false, List.length_drop, List.length_nil] at hfilter
    exact ⟨rfl, by omega⟩
  · exfalso
    rw [if_neg hj] at hfilter
    split_ifs at hfilter <;> simp only [List.length_nil] at hfilter <;> omega

/-- Whole buckets leave nothing of a bucket that is only partly taken. -/
theorem descending_ne_remaining {j i m : ℕ} (hi : 0 < i) (hlen : i < (bucket key xs j).length) :
    descending key xs m ≠ remaining key xs j i := by
  intro h
  have hfilter := congrArg (fun ys => (ys.filter (key · = j)).length) h
  simp only [remaining, List.filter_append, filter_key_bucket_drop, filter_key_descending,
    ite_true, lt_irrefl, ite_false, List.append_nil, List.length_drop] at hfilter
  split_ifs at hfilter
  · omega
  · rw [List.length_nil] at hfilter
    omega

end BucketSort
