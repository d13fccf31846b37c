import Mathlib.Data.List.Basic
import Spexis.Library.Transition

/-! # Queues of drafted tokens

A target function extends a sequence one token at a time. A pipeline guesses the next tokens before
the target has answered, and answers arrive a fixed number of steps later. -/

variable {α : Type*}

/-- The sequence after `n` more tokens of the target. -/
def greedy (target : List α → α) (start : List α) : ℕ → List α
  | 0 => start
  | n + 1 => greedy target start n ++ [target (greedy target start n)]

/-- What one step has put into the pipeline. -/
inductive Slot (α : Type*) where
  | idle
  /-- The answer belongs to a sequence that has been given up. -/
  | stale
  | draft (token : α)

namespace Slot

def token? : Slot α → Option α
  | draft token => some token
  | _ => none

def invalidate : Slot α → Slot α
  | draft _ => stale
  | slot => slot

end Slot

structure DraftQueue (α : Type*) where
  verified : List α
  /-- The steps whose answers are still to come, the oldest first. -/
  slots : List (Slot α)
  /-- Are no more tokens drafted until the queue has run empty? -/
  draining : Bool
  halted : Bool := false

namespace DraftQueue

/-- What each draft has been guessed from. -/
def contexts (verified : List α) : List α → List (List α)
  | [] => []
  | draft :: drafts => verified :: contexts (verified ++ [draft]) drafts

theorem contexts_append (verified drafts : List α) (token : α) :
    contexts verified (drafts ++ [token]) = contexts verified drafts ++ [verified ++ drafts] := by
  induction drafts generalizing verified with
  | nil => simp [contexts]
  | cons draft drafts ih => simp [contexts, ih]

@[simp] theorem contexts_length (verified drafts : List α) :
    (contexts verified drafts).length = drafts.length := by
  induction drafts generalizing verified with
  | nil => rfl
  | cons draft drafts ih => simp [contexts, ih]

/-- The fate of the oldest slot. -/
inductive Outcome (α : Type*) where
  | idle
  | flushed (draining : Bool)
  | accepted (token : α)
  | rejected (token : α)
  /-- The last token of a drain is the target's, drafted or not. -/
  | drained (token : α)

namespace Outcome

def emitted : Outcome α → Option α
  | accepted token | rejected token | drained token => some token
  | idle | flushed _ => none

/-- Is the last verified token a token that stops the sequence? -/
def stopped (stops : List α → Bool) (outcome : Outcome α) (verified : List α) : Bool :=
  outcome.emitted.isSome && stops verified

/-- Is the last verified token one that has not been drafted? -/
def corrects : Outcome α → Bool
  | rejected _ | drained _ => true
  | _ => false

end Outcome

inductive Action (α : Type*) where
  | launch (token : α)
  | pass
  | stop

def drafts (q : DraftQueue α) : List α :=
  q.slots.filterMap Slot.token?

variable [DecidableEq α]

/-- The oldest slot is answered. -/
def verify (target : List α → α) (q : DraftQueue α) : Outcome α × DraftQueue α :=
  match q.slots with
  | [] => (.idle, q)
  | .idle :: slots => (.idle, { q with slots := slots })
  | .stale :: slots => (.flushed q.draining, { q with slots := slots })
  | .draft token :: slots =>
    let answer := target q.verified
    let q' := { q with verified := q.verified ++ [answer], slots := slots }
    if q.draining ∧ q'.drafts = [] then (.drained answer, { q' with draining := false })
    else if token = answer then (.accepted answer, q')
    else (.rejected answer, { q' with slots := slots.map Slot.invalidate, draining := false })

/-- One more token is drafted. A token at which the sequence would stop is the last one. -/
def launch (stops : List α → Bool) (token : α) (q : DraftQueue α) : DraftQueue α :=
  { q with
    slots := q.slots ++ [.draft token]
    draining := q.draining || stops (q.verified ++ q.drafts ++ [token]) }

def pass (q : DraftQueue α) : DraftQueue α :=
  { q with slots := q.slots ++ [.idle], draining := true }

/-- Each step answers the oldest slot and fills a new one, until the sequence stops. A token that
has not been drafted is followed by a draft at once. -/
inductive Step (target : List α → α) (stops : List α → Bool) (q : DraftQueue α) :
    Outcome α × Action α → DraftQueue α → Prop where
  | launch {outcome : Outcome α} {q' : DraftQueue α} (token : α) (hlive : q.halted = false)
      (hverify : q.verify target = (outcome, q')) (hgo : outcome.stopped stops q'.verified = false)
      (hfree : outcome.corrects = true ∨ q'.draining = false) :
      Step target stops q (outcome, .launch token) (q'.launch stops token)
  | pass {outcome : Outcome α} {q' : DraftQueue α} (hlive : q.halted = false)
      (hverify : q.verify target = (outcome, q')) (hgo : outcome.stopped stops q'.verified = false)
      (hfree : outcome.corrects = false) :
      Step target stops q (outcome, .pass) q'.pass
  | stop {outcome : Outcome α} {q' : DraftQueue α} (hlive : q.halted = false)
      (hverify : q.verify target = (outcome, q')) (hstop : outcome.stopped stops q'.verified = true) :
      Step target stops q (outcome, .stop) { q' with halted := true }

/-- The pipeline of `depth` steps after its first one. -/
def start (stops : List α → Bool) (depth : ℕ) (verified : List α) (token : α) : DraftQueue α where
  verified := verified
  slots := List.replicate (depth - 1) .idle ++ [.draft token]
  draining := stops (verified ++ [token])

theorem verify_draft {target : List α → α} {q : DraftQueue α} {token : α} {slots : List (Slot α)}
    (h : q.slots = .draft token :: slots) :
    q.verify target =
      if q.draining = true ∧ slots.filterMap Slot.token? = [] then
        (.drained (target q.verified),
          ⟨q.verified ++ [target q.verified], slots, false, q.halted⟩)
      else if token = target q.verified then
        (.accepted (target q.verified),
          ⟨q.verified ++ [target q.verified], slots, q.draining, q.halted⟩)
      else
        (.rejected (target q.verified),
          ⟨q.verified ++ [target q.verified], slots.map Slot.invalidate, false, q.halted⟩) := by
  rw [verify, h]
  rfl

omit [DecidableEq α] in
theorem filterMap_draft (drafts : List α) :
    (drafts.map Slot.draft).filterMap Slot.token? = drafts := by
  rw [List.filterMap_map]
  exact List.filterMap_some

/-! ## The emitted tokens -/

section Emitted

variable {target : List α → α} {stops : List α → Bool} {q q' : DraftQueue α}

theorem verify_verified {outcome : Outcome α} (h : q.verify target = (outcome, q')) :
    q'.verified = q.verified ++ outcome.emitted.toList ∧
      ∀ token, outcome.emitted = some token → token = target q.verified := by
  unfold verify at h
  split at h
  · cases h
    simp [Outcome.emitted]
  · cases h
    simp [Outcome.emitted]
  · cases h
    simp [Outcome.emitted]
  · simp only at h
    split_ifs at h <;> cases h <;> simp [Outcome.emitted]

theorem Step.verified {label : Outcome α × Action α} (h : Step target stops q label q') :
    q'.verified = q.verified ++ label.1.emitted.toList ∧
      ∀ token, label.1.emitted = some token → token = target q.verified := by
  have hverified : ∃ q₁, q.verify target = (label.1, q₁) ∧ q'.verified = q₁.verified := by
    cases h with
    | launch _ _ hverify => exact ⟨_, hverify, rfl⟩
    | pass _ hverify => exact ⟨_, hverify, rfl⟩
    | stop _ hverify => exact ⟨_, hverify, rfl⟩
  obtain ⟨q₁, hverify, heq⟩ := hverified
  rw [heq]
  exact verify_verified hverify

/-- The emitted tokens are those of the target function alone. -/
theorem run_greedy {labels : List (Outcome α × Action α)}
    (hrun : Transition.Run (Step target stops) q labels q') :
    let emitted := labels.filterMap fun label => label.1.emitted
    q'.verified = greedy target q.verified emitted.length ∧
      q'.verified = q.verified ++ emitted := by
  induction hrun with
  | nil => simp [greedy]
  | snoc hrun hstep ih =>
      rename_i labels q₁ q₂ label
      obtain ⟨hverified, htoken⟩ := hstep.verified
      obtain ⟨hgreedy, happend⟩ := ih
      simp only [List.filterMap_append, List.filterMap_cons, List.filterMap_nil]
      cases houtcome : label.1.emitted with
      | none =>
          rw [houtcome, Option.toList_none, List.append_nil] at hverified
          simpa [hverified] using ⟨hgreedy, happend⟩
      | some token =>
          rw [houtcome, Option.toList_some] at hverified
          constructor
          · rw [hverified, htoken token houtcome, List.length_append, List.length_singleton,
              greedy, ← hgreedy]
          · rw [hverified, happend, List.append_assoc]

end Emitted

end DraftQueue
