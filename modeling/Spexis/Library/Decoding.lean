import Mathlib.Order.Nat

/-! # Plain decoding

A target function extends a sequence one token at a time, until the sequence stops. -/

variable {α : Type*}

/-- The tokens after at most `n` steps. The sequence one starts from never stops by itself. -/
def greedyDecode (target : List α → α) (stops : List α → Bool) (start : List α) : ℕ → List α
  | 0 => []
  | n + 1 =>
    let tokens := greedyDecode target stops start n
    if tokens ≠ [] ∧ stops (start ++ tokens) then tokens
    else tokens ++ [target (start ++ tokens)]

variable {target : List α → α} {stops : List α → Bool} {start tokens : List α}

/-- A sequence that has not stopped goes on with the target's token. -/
theorem greedyDecode_concat (h : tokens = greedyDecode target stops start tokens.length)
    (hgo : tokens = [] ∨ stops (start ++ tokens) = false) :
    tokens ++ [target (start ++ tokens)] =
      greedyDecode target stops start (tokens ++ [target (start ++ tokens)]).length := by
  have hnot : ¬ (tokens ≠ [] ∧ stops (start ++ tokens) = true) := by
    rintro ⟨hne, hstop⟩
    rcases hgo with hnil | hgo
    · exact hne hnil
    · exact Bool.false_ne_true (hgo.symm.trans hstop)
  rw [List.length_append, List.length_singleton, greedyDecode, ← h]
  exact (if_neg hnot).symm

/-! ## Verifying drafts

The target answers for every draft at once, and its answers hold up to the first draft that it
does not agree with. -/

theorem greedyDecode_cons (target : List α → α) (start : List α) (n : ℕ) :
    greedyDecode target (fun _ => false) start (n + 1) =
      target start :: greedyDecode target (fun _ => false) (start ++ [target start]) n := by
  induction n with
  | zero => simp [greedyDecode]
  | succ n ih =>
      rw [greedyDecode, ih]
      simp [greedyDecode]

/-- The target's tokens up to the first one that is not the draft, or the one after all drafts. -/
def verifyDrafts [DecidableEq α] (target : List α → α) (context : List α) : List α → List α
  | [] => [target context]
  | draft :: drafts =>
    if draft = target context then
      target context :: verifyDrafts target (context ++ [target context]) drafts
    else [target context]

variable [DecidableEq α] {context drafts : List α}

theorem verifyDrafts_length (target : List α → α) (context drafts : List α) :
    0 < (verifyDrafts target context drafts).length ∧
      (verifyDrafts target context drafts).length ≤ drafts.length + 1 := by
  induction drafts generalizing context with
  | nil => exact ⟨Nat.one_pos, le_rfl⟩
  | cons draft drafts ih =>
      rw [verifyDrafts]
      split_ifs
      · exact ⟨Nat.succ_pos _, Nat.succ_le_succ (ih _).2⟩
      · exact ⟨Nat.one_pos, Nat.succ_le_succ (Nat.zero_le _)⟩

theorem exists_of_mem_verifyDrafts {token : α} (h : token ∈ verifyDrafts target context drafts) :
    ∃ tokens, token = target tokens := by
  induction drafts generalizing context with
  | nil => exact ⟨context, List.mem_singleton.mp h⟩
  | cons draft drafts ih =>
      rw [verifyDrafts] at h
      split_ifs at h with hdraft
      · rcases List.mem_cons.mp h with heq | htail
        · exact ⟨context, heq⟩
        · exact ih htail
      · exact ⟨context, List.mem_singleton.mp h⟩

/-- Verifying drafts decodes. -/
theorem verifyDrafts_decodes (target : List α → α) (context drafts : List α) :
    verifyDrafts target context drafts = greedyDecode target (fun _ => false) context
      (verifyDrafts target context drafts).length := by
  induction drafts generalizing context with
  | nil => simp [verifyDrafts, greedyDecode]
  | cons draft drafts ih =>
      rw [verifyDrafts]
      split_ifs
      · rw [List.length_cons, greedyDecode_cons, ← ih]
      · simp [greedyDecode]

/-- A draft is verified exactly if it and those before it are the target's. -/
theorem lt_verifyDrafts_length_iff {n : ℕ} (hn : n ≤ drafts.length) :
    n < (verifyDrafts target context drafts).length ↔
      drafts.take n = greedyDecode target (fun _ => false) context n := by
  induction drafts generalizing context n with
  | nil =>
      obtain rfl := Nat.le_zero.mp hn
      exact iff_of_true Nat.one_pos rfl
  | cons draft drafts ih =>
      cases n with
      | zero => exact iff_of_true (verifyDrafts_length _ _ _).1 rfl
      | succ n =>
          rw [verifyDrafts, List.take_succ_cons, greedyDecode_cons, List.cons.injEq]
          split_ifs with hdraft
          · rw [List.length_cons, Nat.succ_lt_succ_iff, ih (Nat.succ_le_succ_iff.mp hn)]
            exact (and_iff_right hdraft).symm
          · exact iff_of_false (by simp) fun heq => hdraft heq.1
