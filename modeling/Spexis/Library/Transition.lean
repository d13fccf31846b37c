import Mathlib.Data.List.Basic
import Mathlib.Order.Nat

/-! # Labelled runs

Runs of a labelled transition relation, and the rule that carries an invariant along
them. -/

namespace Transition

variable {σ α : Type*} {step step' : σ → α → σ → Prop} {s t u : σ} {as bs : List α}

/-- The states a system goes through when it takes the labels in order. -/
inductive Run (step : σ → α → σ → Prop) (s : σ) : List α → σ → Prop where
  | nil : Run step s [] s
  | snoc {as : List α} {t u : σ} {a : α} : Run step s as t → step t a u → Run step s (as ++ [a]) u

namespace Run

theorem single {a : α} (h : step s a t) : Run step s [a] t :=
  .snoc .nil h

theorem append (h : Run step s as t) (h' : Run step t bs u) : Run step s (as ++ bs) u := by
  induction h' with
  | nil => simpa using h
  | snoc _ hstep ih =>
      rw [← List.append_assoc]
      exact .snoc ih hstep

theorem cons {a : α} (h : step s a t) (h' : Run step t as u) : Run step s (a :: as) u :=
  append (single h) h'

/-- What every step preserves holds at the end of every run. -/
theorem invariant {I : σ → Prop} (hrun : Run step s as t) (hinit : I s)
    (hstep : ∀ s a t, I s → step s a t → I t) : I t := by
  induction hrun with
  | nil => exact hinit
  | snoc _ ht ih => exact hstep _ _ _ ih ht

/-- What every step with a label of some kind preserves, along runs with such labels. -/
theorem invariant_on {I : σ → Prop} {P : α → Prop} (hrun : Run step s as t)
    (hlabels : ∀ a ∈ as, P a) (hinit : I s)
    (hstep : ∀ s a t, P a → I s → step s a t → I t) : I t := by
  induction hrun with
  | nil => exact hinit
  | snoc _ ht ih =>
      simp only [List.mem_append, List.mem_singleton] at hlabels
      exact hstep _ _ _ (hlabels _ (.inr rfl)) (ih (fun a ha => hlabels a (.inl ha))) ht

theorem mono_on {P : α → Prop} (h : ∀ s a t, P a → step s a t → step' s a t)
    (hlabels : ∀ a ∈ as, P a) (hrun : Run step s as t) : Run step' s as t := by
  induction hrun with
  | nil => exact .nil
  | snoc _ ht ih =>
      simp only [List.mem_append, List.mem_singleton] at hlabels
      exact .snoc (ih (fun a ha => hlabels a (.inl ha))) (h _ _ _ (hlabels _ (.inr rfl)) ht)

theorem mono (h : ∀ s a t, step s a t → step' s a t) (hrun : Run step s as t) :
    Run step' s as t :=
  hrun.mono_on (fun s a t (_ : True) => h s a t) (fun _ _ => trivial)

/-- A step that preserves an invariant, once another invariant is known. -/
theorem invariant_of {I J : σ → Prop} (hrun : Run step s as t) (hJ : J s) (hI : I s)
    (hstepJ : ∀ s a t, J s → step s a t → J t)
    (hstep : ∀ s a t, J s → I s → step s a t → I t) : I t :=
  (hrun.invariant (I := fun s => J s ∧ I s) ⟨hJ, hI⟩
    (fun s a t h ht => ⟨hstepJ s a t h.1 ht, hstep s a t h.1 h.2 ht⟩)).2

end Run

/-- An execution that takes all the labels is a run. -/
theorem run_of_foldlM {f : σ → α → Option σ} (hf : ∀ s a t, f s a = some t → step s a t)
    (h : as.foldlM f s = some t) : Run step s as t := by
  induction as generalizing s with
  | nil =>
      obtain rfl := Option.some.inj h
      exact .nil
  | cons a as ih =>
      rw [List.foldlM_cons, Option.bind_eq_bind, Option.bind_eq_some_iff] at h
      obtain ⟨s₁, hone, hrest⟩ := h
      exact .cons (hf _ _ _ hone) (ih hrest)

/-! ## Numbered states -/

/-- A run whose states are numbered. -/
structure Timeline (step : σ → α → σ → Prop) where
  length : ℕ
  state : ℕ → σ
  label : ℕ → α
  step : ∀ k < length, step (state k) (label k) (state (k + 1))

theorem Timeline.run (timeline : Timeline step) {k : ℕ} (hk : k ≤ timeline.length) :
    Run step (timeline.state 0) ((List.range k).map timeline.label) (timeline.state k) := by
  induction k with
  | zero => exact .nil
  | succ k ih =>
      rw [List.range_succ, List.map_append]
      exact .snoc (ih (by omega)) (timeline.step k hk)

/-- The states of a run can be numbered. -/
theorem Run.exists_timeline [Nonempty α] (hrun : Run step s as t) :
    ∃ timeline : Timeline step, timeline.length = as.length ∧ timeline.state 0 = s ∧
      timeline.state as.length = t ∧ ∀ k < as.length, timeline.label k ∈ as := by
  induction hrun with
  | nil =>
      obtain ⟨a⟩ := ‹Nonempty α›
      exact ⟨⟨0, fun _ => s, fun _ => a, fun _ hk => absurd hk (Nat.not_lt_zero _)⟩, rfl, rfl, rfl,
        fun _ hk => absurd hk (Nat.not_lt_zero _)⟩
  | @snoc as t u a _ hstep ih =>
      obtain ⟨timeline, hlength, hfirst, hlast, hlabels⟩ := ih
      refine ⟨⟨as.length + 1, fun k => if k ≤ as.length then timeline.state k else u,
        fun k => if k < as.length then timeline.label k else a, fun k hk => ?_⟩, ?_, ?_, ?_, ?_⟩
      · rcases Nat.lt_succ_iff_lt_or_eq.mp hk with hlt | rfl
        · have hle : k ≤ as.length := le_of_lt hlt
          have hle' : k + 1 ≤ as.length := hlt
          simpa only [hlt, hle, hle', ite_true] using timeline.step k (hlength ▸ hlt)
        · have hnot : ¬ as.length + 1 ≤ as.length := Nat.not_succ_le_self _
          simpa only [le_refl, lt_irrefl, hnot, ite_true, ite_false, hlast] using hstep
      · simp only [List.length_append, List.length_singleton]
      · simpa using hfirst
      · have hnot : ¬ (as ++ [a]).length ≤ as.length := by simp
        simp only [hnot, ite_false]
      · intro k hk
        by_cases hlt : k < as.length
        · simp [hlt, hlabels k hlt]
        · simp [hlt]

/-- The numbered states of an execution that takes all the labels. -/
def Timeline.ofLabels (f : σ → α → Option σ) (hf : ∀ s a t, f s a = some t → step s a t) (s : σ)
    (default : α) (as : List α) (h : (as.foldlM f s).isSome) : Timeline step where
  length := as.length
  state k := ((as.take k).foldlM f s).getD s
  label k := as.getD k default
  step k hk := by
    obtain ⟨t, ht⟩ := Option.isSome_iff_exists.mp h
    have htake : as.take (k + 1) = as.take k ++ [as[k]] := List.take_succ_eq_append_getElem hk
    rw [← List.take_append_drop (k + 1) as, List.foldlM_append, htake, List.foldlM_append] at ht
    simp only [Option.bind_eq_bind, Option.bind_eq_some_iff, List.foldlM_cons, List.foldlM_nil,
      Option.pure_def, Option.some.injEq] at ht
    obtain ⟨u, ⟨s₁, hs₁, s₂, hs₂, rfl⟩, -⟩ := ht
    have hnext : (as.take (k + 1)).foldlM f s = some s₂ := by
      simp only [htake, List.foldlM_append, hs₁, Option.bind_eq_bind, Option.bind_some,
        List.foldlM_cons, hs₂, List.foldlM_nil, Option.pure_def]
    have hlabel : as.getD k default = as[k] := by
      rw [List.getD_eq_getElem?_getD, List.getElem?_eq_getElem hk, Option.getD_some]
    rw [hs₁, hnext, hlabel]
    exact hf _ _ _ hs₂

end Transition
