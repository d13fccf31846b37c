import Mathlib.Data.List.Pairwise
import Spexis.Library.Python

/-! # Compaction of a table

The holes of a table are filled, the smallest first, each with the last entry, until the entries
are the rows below their number. -/

namespace Compaction

open Python

variable {σ ι : Type*}

/-- The last index at most `last` that is not a hole. -/
def skipHoles (holes : List ℕ) : ℕ → ℕ
  | 0 => 0
  | last + 1 => if last + 1 ∈ holes then skipHoles holes last else last + 1

/-- Moves entries from the end of the table into the holes, which are in ascending order. -/
def fill (move : ℕ → ℕ → σ → Except PyError σ) :
    List ℕ → ℕ → σ → Except PyError σ
  | [], _, s => .ok s
  | hole :: holes, last, s =>
    let last := skipHoles (hole :: holes) last
    if hole ≥ last then .ok s
    else do fill move holes (last - 1) (← move last hole s)

/-! ## Filling the holes -/

theorem skipHoles_le (holes : List ℕ) (last : ℕ) : skipHoles holes last ≤ last := by
  induction last with
  | zero => exact le_rfl
  | succ last ih =>
      unfold skipHoles
      split_ifs
      · exact ih.trans (Nat.le_succ last)
      · exact le_rfl

theorem mem_of_skipHoles_lt {holes : List ℕ} {last i : ℕ} (h : skipHoles holes last < i)
    (hi : i ≤ last) : i ∈ holes := by
  induction last with
  | zero => omega
  | succ last ih =>
      unfold skipHoles at h
      split_ifs at h with hlast
      · rcases Nat.le_succ_iff.mp hi with hi | rfl
        · exact ih h hi
        · exact hlast
      · omega

theorem skipHoles_notMem {holes : List ℕ} {last : ℕ} (h : 0 < skipHoles holes last) :
    skipHoles holes last ∉ holes := by
  induction last with
  | zero => exact absurd h (Nat.lt_irrefl 0)
  | succ last ih =>
      unfold skipHoles at h ⊢
      split_ifs at h ⊢ with hlast
      · exact ih h
      · exact hlast

/-- What every move preserves holds of the table after all holes are filled. -/
theorem fill_invariant {move : ℕ → ℕ → σ → Except PyError σ} {I : σ → Prop}
    (hmove : ∀ s s' src dst, I s → move src dst s = .ok s' → I s') {holes : List ℕ} {last : ℕ}
    {s s' : σ} (hs : I s) (h : fill move holes last s = .ok s') : I s' := by
  induction holes generalizing last s with
  | nil =>
      obtain rfl := Except.ok.inj h
      exact hs
  | cons hole holes ih =>
      simp only [fill] at h
      split_ifs at h
      · obtain rfl := Except.ok.inj h
        exact hs
      · obtain ⟨s₁, hs₁, h⟩ := bind_eq_ok.mp h
        exact ih (hmove _ _ _ _ hs hs₁) h

/-- A table that is the image of another one is filled in the same way. -/
theorem fill_map {τ : Type*} {move : ℕ → ℕ → σ → Except PyError σ}
    {move' : ℕ → ℕ → τ → Except PyError τ} {f : σ → τ}
    (hmove : ∀ s s' src dst, move src dst s = .ok s' → move' src dst (f s) = .ok (f s'))
    {holes : List ℕ} {last : ℕ} {s s' : σ} (h : fill move holes last s = .ok s') :
    fill move' holes last (f s) = .ok (f s') := by
  induction holes generalizing last s with
  | nil =>
      obtain rfl := Except.ok.inj h
      rfl
  | cons hole holes ih =>
      simp only [fill] at h ⊢
      split_ifs at h ⊢
      · obtain rfl := Except.ok.inj h
        rfl
      · obtain ⟨s₁, hs₁, h⟩ := bind_eq_ok.mp h
        rw [hmove _ _ _ _ hs₁]
        exact ih h

/-- The holes are the rows up to `last` that are free, and every row after it is free. -/
structure Gaps (slot : ℕ → Option ι) (holes : List ℕ) (last : ℕ) : Prop where
  ascending : holes.Pairwise (· < ·)
  beyond : ∀ i, last < i → slot i = none
  within : ∀ i ≤ last, slot i = none ↔ i ∈ holes

theorem Gaps.skip {slot : ℕ → Option ι} {holes : List ℕ} {last : ℕ} (h : Gaps slot holes last) :
    Gaps slot holes (skipHoles holes last) where
  ascending := h.ascending
  beyond i hi := by
    rcases Nat.lt_or_ge last i with hlast | hlast
    · exact h.beyond i hlast
    · exact (h.within i hlast).mpr (mem_of_skipHoles_lt hi hlast)
  within i hi := h.within i (hi.trans (skipHoles_le holes last))

/-- A table whose smallest hole comes after its last entry is full up to there. -/
theorem Gaps.full {slot : ℕ → Option ι} {hole last : ℕ} {holes : List ℕ}
    (h : Gaps slot (hole :: holes) (skipHoles (hole :: holes) last))
    (hhole : skipHoles (hole :: holes) last ≤ hole) :
    ∃ n, ∀ i, (slot i).isSome ↔ i < n := by
  have hsmallest : ∀ i ∈ hole :: holes, hole ≤ i := by
    intro i hi
    rcases List.mem_cons.mp hi with rfl | hi
    · exact le_rfl
    · exact le_of_lt ((List.pairwise_cons.mp h.ascending).1 i hi)
  have hslot : ∀ i, (slot i).isSome ↔
      i ≤ skipHoles (hole :: holes) last ∧ i ∉ hole :: holes := by
    intro i
    by_cases hi : i ≤ skipHoles (hole :: holes) last
    · rw [Option.isSome_iff_ne_none, Ne, h.within i hi]
      exact ⟨fun hmem => ⟨hi, hmem⟩, fun hmem => hmem.2⟩
    · rw [h.beyond i (by omega)]
      simp [hi]
  rcases Nat.eq_zero_or_pos (skipHoles (hole :: holes) last) with hzero | hpos
  · by_cases hmem : 0 ∈ hole :: holes
    · refine ⟨0, fun i => ?_⟩
      rw [hslot, hzero]
      refine ⟨fun ⟨hi, hi'⟩ => ?_, fun hi => absurd hi (Nat.not_lt_zero i)⟩
      obtain rfl : i = 0 := by omega
      exact absurd hmem hi'
    · refine ⟨1, fun i => ?_⟩
      rw [hslot, hzero]
      refine ⟨fun ⟨hi, _⟩ => by omega, fun hi => ?_⟩
      obtain rfl : i = 0 := by omega
      exact ⟨le_rfl, hmem⟩
  · refine ⟨skipHoles (hole :: holes) last + 1, fun i => ?_⟩
    rw [hslot]
    refine ⟨fun ⟨hi, _⟩ => by omega, fun hi => ⟨by omega, fun hmem => ?_⟩⟩
    have hi' := hsmallest i hmem
    obtain rfl : i = skipHoles (hole :: holes) last := by omega
    exact skipHoles_notMem hpos hmem

/-- The entry of the last row has moved into the smallest hole. -/
theorem Gaps.move {slot slot' : ℕ → Option ι} {hole last : ℕ} {holes : List ℕ}
    (h : Gaps slot (hole :: holes) last) (hhole : hole < last)
    (hslot : ∀ i, slot' i = if i = hole then slot last else if i = last then none else slot i)
    (hlast : last ∉ hole :: holes) : Gaps slot' holes (last - 1) := by
  obtain ⟨hsmallest, hascending⟩ := List.pairwise_cons.mp h.ascending
  refine ⟨hascending, fun i hi => ?_, fun i hi => ?_⟩
  · rw [hslot, if_neg (by omega)]
    split_ifs with hi'
    · rfl
    · exact h.beyond i (by omega)
  · rw [hslot]
    split_ifs with hi' hi''
    · subst hi'
      have hsome : slot last ≠ none := fun hnone => hlast ((h.within last le_rfl).mp hnone)
      exact ⟨fun hnone => absurd hnone hsome, fun hmem => absurd (hsmallest i hmem) (lt_irrefl i)⟩
    · omega
    · rw [h.within i (by omega), List.mem_cons]
      exact ⟨fun hmem => hmem.resolve_left hi', .inr⟩

/-- What a move preserves holds of the table after all holes are filled, and the entries of that
table are the first rows. -/
theorem fill_spec {move : ℕ → ℕ → σ → Except PyError σ} {slot : σ → ℕ → Option ι} {I : σ → Prop}
    (hmove : ∀ s s' src dst, I s → dst < src → (slot s src).isSome → slot s dst = none →
      move src dst s = .ok s' → I s' ∧
        ∀ i, slot s' i = if i = dst then slot s src else if i = src then none else slot s i)
    {holes : List ℕ} {last : ℕ} {s s' : σ} (hs : I s) (hgaps : Gaps (slot s) holes last)
    (h : fill move holes last s = .ok s') : I s' ∧ ∃ n, ∀ i, (slot s' i).isSome ↔ i < n := by
  induction holes generalizing last s with
  | nil =>
      obtain rfl := Except.ok.inj h
      refine ⟨hs, last + 1, fun i => ?_⟩
      rw [Option.isSome_iff_ne_none]
      by_cases hi : i ≤ last
      · rw [Ne, hgaps.within i hi]
        simp only [List.not_mem_nil, not_false_eq_true, true_iff]
        omega
      · rw [hgaps.beyond i (by omega)]
        simp only [ne_eq, not_true_eq_false, false_iff]
        omega
  | cons hole holes ih =>
      have hskip := hgaps.skip
      simp only [fill] at h
      split_ifs at h with hhole
      · obtain rfl := Except.ok.inj h
        exact ⟨hs, hskip.full hhole⟩
      · obtain ⟨s₁, hs₁, h⟩ := bind_eq_ok.mp h
        have hlt : hole < skipHoles (hole :: holes) last := by omega
        have hlast : skipHoles (hole :: holes) last ∉ hole :: holes :=
          skipHoles_notMem (by omega)
        have hsrc : (slot s (skipHoles (hole :: holes) last)).isSome := by
          rw [Option.isSome_iff_ne_none, Ne, hskip.within _ le_rfl]
          exact hlast
        have hdst : slot s hole = none :=
          (hskip.within hole (le_of_lt hlt)).mpr List.mem_cons_self
        obtain ⟨hI, hslot⟩ := hmove s s₁ _ hole hs hlt hsrc hdst hs₁
        exact ih hI (hskip.move hlt hslot hlast) h

end Compaction
