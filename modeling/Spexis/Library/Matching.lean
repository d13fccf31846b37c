import Mathlib.Data.List.Basic
import Mathlib.Data.List.Infix

/-! # Matching a pattern

A scan keeps the longest prefix of the pattern that ends where the scan is and may still grow. On a
mismatch it falls back to the longest border of that prefix, so no match is passed over. -/

namespace Matching

variable {α : Type*} {pattern text : List α} {i j k b : ℕ}

/-- The first `j` elements of the pattern end at `i` in the text. -/
structure EndsAt (pattern text : List α) (i j : ℕ) : Prop where
  le : j ≤ pattern.length
  suffix : pattern.take j <:+ text.take i

/-- No longer prefix of the pattern ends at `i`. -/
structure Longest (pattern text : List α) (i j : ℕ) : Prop where
  ends : EndsAt pattern text i j
  longest : ∀ k, EndsAt pattern text i k → k ≤ j

/-- No longer prefix of the pattern that ends at `i` goes on with the next element of the text. -/
structure Scan (pattern text : List α) (i j : ℕ) : Prop where
  ends : EndsAt pattern text i j
  stuck : ∀ k, EndsAt pattern text i k → j < k → pattern[k]? ≠ text[i]?

theorem EndsAt.zero (pattern text : List α) (i : ℕ) : EndsAt pattern text i 0 :=
  ⟨Nat.zero_le _, List.nil_suffix⟩

theorem take_succ_eq {xs : List α} {n : ℕ} {x : α} (h : xs[n]? = some x) :
    xs.take (n + 1) = xs.take n ++ [x] := by
  rw [List.take_add_one, h]
  rfl

/-- A prefix ends at the next place if it goes on with the element there. -/
theorem endsAt_succ_iff (hi : i < text.length) :
    EndsAt pattern text (i + 1) (j + 1) ↔ EndsAt pattern text i j ∧ pattern[j]? = text[i]? := by
  have htext := take_succ_eq (List.getElem?_eq_getElem hi)
  constructor
  · rintro ⟨hle, hsuffix⟩
    have hj := List.getElem?_eq_getElem (Nat.lt_of_succ_le hle)
    rw [htext, take_succ_eq hj, List.suffix_concat_iff] at hsuffix
    rcases hsuffix with hnil | ⟨init, hfront, hsuffix⟩
    · exact absurd hnil (List.append_ne_nil_of_right_ne_nil _ (List.cons_ne_nil _ _))
    · obtain ⟨hfront, hlast⟩ := List.append_inj' hfront rfl
      refine ⟨⟨Nat.le_of_succ_le hle, hfront ▸ hsuffix⟩, ?_⟩
      rw [hj, List.getElem?_eq_getElem hi]
      exact congrArg some (List.singleton_inj.mp hlast)
  · rintro ⟨⟨hle, hsuffix⟩, hnext⟩
    rw [List.getElem?_eq_getElem hi] at hnext
    refine ⟨(List.getElem?_eq_some_iff.mp hnext).1, ?_⟩
    rw [htext, take_succ_eq hnext]
    obtain ⟨front, hfront⟩ := hsuffix
    exact ⟨front, by rw [← List.append_assoc, hfront]⟩

theorem Longest.scan (h : Longest pattern text i j) : Scan pattern text i j :=
  ⟨h.ends, fun k hk hlt => absurd (h.longest k hk) (Nat.not_le.mpr hlt)⟩

/-- Nothing ends where the text starts. -/
theorem longest_zero (pattern text : List α) : Longest pattern text 0 0 := by
  refine ⟨.zero pattern text 0, fun k hk => ?_⟩
  have hlength := hk.suffix.length_le
  rw [List.take_zero, List.length_take, min_eq_left hk.le] at hlength
  exact hlength

theorem Scan.hit (h : Scan pattern text i j) (hi : i < text.length)
    (heq : pattern[j]? = text[i]?) : Longest pattern text (i + 1) (j + 1) := by
  refine ⟨(endsAt_succ_iff hi).mpr ⟨h.ends, heq⟩, fun k hk => ?_⟩
  cases k with
  | zero => exact Nat.zero_le _
  | succ k =>
      obtain ⟨hends, hnext⟩ := (endsAt_succ_iff hi).mp hk
      by_contra hlt
      exact h.stuck k hends (by omega) hnext

theorem Scan.miss (h : Scan pattern text i 0) (hi : i < text.length)
    (hne : pattern[0]? ≠ text[i]?) : Longest pattern text (i + 1) 0 := by
  refine ⟨.zero _ _ _, fun k hk => ?_⟩
  cases k with
  | zero => exact le_rfl
  | succ k =>
      obtain ⟨hends, hnext⟩ := (endsAt_succ_iff hi).mp hk
      rcases Nat.eq_zero_or_pos k with rfl | hpos
      · exact absurd hnext hne
      · exact absurd hnext (h.stuck k hends hpos)

/-- A shorter prefix that ends at the same place is a border. -/
theorem endsAt_border (hj : EndsAt pattern text i j) (hkj : k < j) :
    EndsAt pattern text i k ↔ EndsAt pattern pattern.tail (j - 1) k := by
  have hcut : pattern.tail.take (j - 1) = (pattern.take j).tail := by
    rw [← List.drop_one, ← List.drop_one, List.drop_take]
  have hlength : (pattern.take k).length = k := by
    rw [List.length_take, min_eq_left (hkj.le.trans hj.le)]
  have hlength' : (pattern.take j).length = j := by rw [List.length_take, min_eq_left hj.le]
  constructor
  · rintro ⟨hle, hsuffix⟩
    refine ⟨hle, hcut ▸ ?_⟩
    have hborder := List.suffix_of_suffix_length_le hsuffix hj.suffix (by omega)
    obtain ⟨front, hfront⟩ := hborder
    cases front with
    | nil =>
        have hsame := congrArg List.length hfront
        rw [List.nil_append, hlength, hlength'] at hsame
        exact absurd hsame hkj.ne
    | cons x front => exact ⟨front, by rw [← hfront]; rfl⟩
  · rintro ⟨hle, hsuffix⟩
    rw [hcut] at hsuffix
    exact ⟨hle, (hsuffix.trans (List.tail_suffix _)).trans hj.suffix⟩

/-- On a mismatch the scan goes on with the longest border. -/
theorem Scan.fall (h : Scan pattern text i j) (hj : 0 < j) (hne : pattern[j]? ≠ text[i]?)
    (hborder : Longest pattern pattern.tail (j - 1) b) : Scan pattern text i b ∧ b < j := by
  have hlength := hborder.ends.suffix.length_le
  rw [List.length_take, List.length_take, min_eq_left hborder.ends.le] at hlength
  have hlt : b < j := by omega
  refine ⟨⟨(endsAt_border h.ends hlt).mpr hborder.ends, fun k hk hbk => ?_⟩, hlt⟩
  rcases lt_trichotomy k j with hkj | rfl | hjk
  · exact absurd (hborder.longest k ((endsAt_border h.ends hkj).mp hk)) (Nat.not_le.mpr hbk)
  · exact hne
  · exact h.stuck k hk hjk

end Matching
