import Spexis.Library.Python

/-! # Occurrences in a growing text

A text that had no occurrence of a word before it grew has one afterwards exactly when one ends in
the new part, which is where a search from a negative index looks. -/

namespace List

variable {α : Type*} {text old new sub : List α} {i : ℕ}

/-- An occurrence starts somewhere. -/
theorem isInfix_iff_exists_drop : sub <:+: text ↔ ∃ i ≤ text.length, sub <+: text.drop i := by
  constructor
  · rintro ⟨before, after, rfl⟩
    refine ⟨before.length, by simp, after, ?_⟩
    rw [append_assoc, drop_left]
  · rintro ⟨i, -, h⟩
    exact h.isInfix.trans (drop_suffix i text).isInfix

/-- An occurrence that ends in the old part was there before. -/
theorem isInfix_of_isPrefix_drop_append (h : sub <+: (old ++ new).drop i)
    (hend : i + sub.length ≤ old.length) : sub <:+: old := by
  rw [drop_append_of_le_length (by omega)] at h
  have hpre : sub <+: old.drop i :=
    prefix_of_prefix_length_le h (prefix_append _ _) (by rw [length_drop]; omega)
  exact hpre.isInfix.trans (drop_suffix i old).isInfix

end List

namespace Python

variable {α : Type*} [DecidableEq α] {text old new sub : List α} {start : ℤ} {i : ℕ}

theorem pyFind_eq_some (h : pyFind text sub start = some i) :
    pySliceStart text.length start ≤ i ∧ sub <+: text.drop i := by
  simpa using List.find?_some h

theorem pyFind_isSome : (pyFind text sub start).isSome ↔
    ∃ i ≤ text.length, pySliceStart text.length start ≤ i ∧ sub <+: text.drop i := by
  simp [pyFind, List.find?_isSome, Nat.lt_succ_iff]

/-- Where a search for a word that may end in the last `count` places starts. -/
theorem pySliceStart_window {length count width : ℕ} (hcount : 0 < count) (hwidth : 0 < width) :
    pySliceStart length (1 - count - width) = length + 1 - count - width := by
  have hneg : (1 : ℤ) - count - width < 0 := by omega
  rw [pySliceStart, if_pos hneg]
  omega

theorem pyFind_window_isSome (hsub : sub ≠ []) (hnew : new ≠ []) (hold : ¬ sub <:+: old) :
    (pyFind (old ++ new) sub (1 - new.length - sub.length)).isSome ↔ sub <:+: old ++ new := by
  have hwidth := List.length_pos_iff.mpr hsub
  have hcount := List.length_pos_iff.mpr hnew
  rw [pyFind_isSome, List.isInfix_iff_exists_drop, pySliceStart_window hcount hwidth]
  refine exists_congr (fun i => and_congr_right (fun _ => and_iff_right_of_imp (fun h => ?_)))
  have hend : ¬ i + sub.length ≤ old.length :=
    fun hend => hold (List.isInfix_of_isPrefix_drop_append h hend)
  rw [List.length_append]
  omega

/-- What the search finds ends in the new part. -/
theorem lt_of_pyFind_window (hsub : sub ≠ []) (hnew : new ≠ [])
    (h : pyFind (old ++ new) sub (1 - new.length - sub.length) = some i) :
    old.length < i + sub.length ∧ i + sub.length ≤ (old ++ new).length := by
  have hwidth := List.length_pos_iff.mpr hsub
  have hcount := List.length_pos_iff.mpr hnew
  obtain ⟨hstart, hpre⟩ := pyFind_eq_some h
  rw [pySliceStart_window hcount hwidth, List.length_append] at hstart
  have hle := hpre.length_le
  rw [List.length_drop] at hle
  omega

end Python
