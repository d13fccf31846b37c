import Spexis.Model.Scheduler

/-! # The effect of verification on one request

The ways in which a target token can be taken, and what neither verification nor draft
ingestion touches. -/

namespace Spexis

open Python

namespace Request

/-! ## One target token -/

/-- Has the request been told to stop speculating? -/
def IsDropped (r : Request) : Prop :=
  r.confidenceDropped = true ∨ r.stopDropped = true

instance (r : Request) : Decidable r.IsDropped :=
  inferInstanceAs (Decidable (_ ∨ _))

/-- A dropped request counts the tokens that are verified. -/
def ticked (r : Request) : Request :=
  if r.IsDropped then r.decrDropLen else r

/-- A token of a batch that was built on a rejected draft has been dropped. -/
def flushed (r : Request) (flushLen : ℤ) : Request :=
  { r with
    justFixed := some false
    flushLen := some (flushLen - 1)
    specResult := if flushLen - 1 = 0 then none else r.specResult }

/-- The request after it has taken a target token. -/
inductive Verified (r : Request) (token : TokenId) : Request → Prop where
  | flushed (flushLen : ℤ) (hfalse : r.specResult = some false)
      (hlen : r.flushLen = some flushLen) : Verified r token (r.flushed flushLen)
  | finished (hdrop : r.IsDropped) (hspec : r.specResult ≠ some false) (hlen : r.dropLen = 1) :
      Verified r token (r.decrDropLen.finishDrop token)
  | accepted (hspec : r.specResult ≠ some false) (hlen : r.IsDropped → r.dropLen ≠ 1)
      (hdraft : pyGet r.outputTokenIds (-r.spLen) = .ok token) :
      Verified r token r.ticked.acceptDraft
  | rejected (draft : TokenId) (hspec : r.specResult ≠ some false)
      (hlen : r.IsDropped → r.dropLen ≠ 1) (hdraft : pyGet r.outputTokenIds (-r.spLen) = .ok draft)
      (hne : draft ≠ token) : Verified r token (r.ticked.rejectDraft token)

theorem decrFlushLen_eq_ok {r r' : Request} (h : r.decrFlushLen = .ok r') :
    ∃ flushLen, r.flushLen = some flushLen ∧ r' = r.flushed flushLen := by
  unfold decrFlushLen at h
  split at h
  · cases h
  next flushLen hlen =>
    cases h
    exact ⟨flushLen, hlen, rfl⟩

theorem validateDraft_eq_ok {r r' : Request} {token : TokenId} {code : ℕ}
    (h : r.validateDraft token = .ok (code, r')) :
    ∃ draft, pyGet r.outputTokenIds (-r.spLen) = .ok draft ∧
      (draft = token ∧ r' = r.acceptDraft ∨ draft ≠ token ∧ r' = r.rejectDraft token) := by
  simp only [validateDraft, bind_eq_ok] at h
  obtain ⟨draft, hdraft, h⟩ := h
  refine ⟨draft, hdraft, ?_⟩
  split_ifs at h with heq
  · cases h
    exact .inl ⟨heq, rfl⟩
  · cases h
    exact .inr ⟨heq, rfl⟩

theorem ticked_of_dropped {r : Request} (h : r.IsDropped) : r.ticked = r.decrDropLen :=
  if_pos h

theorem ticked_of_not_dropped {r : Request} (h : ¬ r.IsDropped) : r.ticked = r :=
  if_neg h

@[simp] theorem ticked_outputTokenIds (r : Request) : r.ticked.outputTokenIds = r.outputTokenIds := by
  unfold ticked
  split_ifs <;> rfl

@[simp] theorem ticked_spLen (r : Request) : r.ticked.spLen = r.spLen := by
  unfold ticked
  split_ifs <;> rfl

/-- Whether a stale token is flushed does not depend on the drop flags. -/
theorem verifyOutputTokenIds_eq (r : Request) (token : TokenId) :
    r.verifyOutputTokenIds token =
      if r.specResult = some false then do return (if r.IsDropped then 3 else 2, ← r.decrFlushLen)
      else if r.IsDropped ∧ r.dropLen = 1 then .ok (4, r.decrDropLen.finishDrop token)
      else r.ticked.validateDraft token := by
  by_cases hdrop : r.IsDropped
  · have hlen : r.decrDropLen.dropLen = 0 ↔ r.dropLen = 1 := sub_eq_zero
    simp only [verifyOutputTokenIds, if_pos (show _ ∨ _ from hdrop), hlen, hdrop, true_and,
      ite_true, ticked_of_dropped hdrop]
  · simp only [verifyOutputTokenIds, if_neg (show ¬ (_ ∨ _) from hdrop), hdrop, false_and,
      ite_false, ticked_of_not_dropped hdrop]

/-- Every target token is taken in one of these ways. -/
theorem verifyOutputTokenIds_verified {r r' : Request} {token : TokenId} {code : ℕ}
    (h : r.verifyOutputTokenIds token = .ok (code, r')) : Verified r token r' := by
  rw [verifyOutputTokenIds_eq] at h
  by_cases hfalse : r.specResult = some false
  · rw [if_pos hfalse] at h
    simp only [bind_eq_ok, pure_eq_ok, Prod.mk.injEq] at h
    obtain ⟨r₁, hdecr, -, rfl⟩ := h
    obtain ⟨flushLen, hlen, rfl⟩ := decrFlushLen_eq_ok hdecr
    exact .flushed flushLen hfalse hlen
  · rw [if_neg hfalse] at h
    by_cases hlast : r.IsDropped ∧ r.dropLen = 1
    · rw [if_pos hlast] at h
      cases h
      exact .finished hlast.1 hfalse hlast.2
    · rw [if_neg hlast] at h
      have hlen : r.IsDropped → r.dropLen ≠ 1 := fun hdrop hone => hlast ⟨hdrop, hone⟩
      obtain ⟨draft, hdraft, hcases⟩ := validateDraft_eq_ok h
      rw [ticked_outputTokenIds, ticked_spLen] at hdraft
      rcases hcases with ⟨rfl, rfl⟩ | ⟨hne, rfl⟩
      · exact .accepted hfalse hlen hdraft
      · exact .rejected draft hfalse hlen hdraft hne

/-! ## What stays -/

/-- The fields that neither a verified nor a drafted token changes. -/
structure SameRecord (r r' : Request) : Prop where
  samplingParams : r'.samplingParams = r.samplingParams
  eosTokenId : r'.eosTokenId = r.eosTokenId
  promptTokenIds : r'.promptTokenIds = r.promptTokenIds
  specTokenIds : r'.specTokenIds = r.specTokenIds
  numScheduled : r'.numScheduled = r.numScheduled
  shouldPreempt : r'.shouldPreempt = r.shouldPreempt
  postpreempt : (r'.postpreemptSpecResult, r'.postpreemptFixedIdx) =
    (r.postpreemptSpecResult, r.postpreemptFixedIdx)

theorem SameRecord.refl (r : Request) : SameRecord r r :=
  ⟨rfl, rfl, rfl, rfl, rfl, rfl, rfl⟩

theorem SameRecord.trans {r r' r'' : Request} (h : SameRecord r r') (h' : SameRecord r' r'') :
    SameRecord r r'' :=
  ⟨h'.1.trans h.1, h'.2.trans h.2, h'.3.trans h.3, h'.4.trans h.4, h'.5.trans h.5, h'.6.trans h.6,
    h'.7.trans h.7⟩

theorem ticked_record (r : Request) : SameRecord r r.ticked ∧ r.ticked.status = r.status := by
  unfold ticked
  split_ifs
  · exact ⟨⟨rfl, rfl, rfl, rfl, rfl, rfl, rfl⟩, rfl⟩
  · exact ⟨.refl r, rfl⟩

theorem finishDrop_record (r : Request) (token : TokenId) :
    SameRecord r (r.finishDrop token) ∧ (r.finishDrop token).status = r.status := by
  unfold finishDrop
  split_ifs <;> exact ⟨⟨rfl, rfl, rfl, rfl, rfl, rfl, rfl⟩, rfl⟩

theorem Verified.record {r r' : Request} {token : TokenId} (h : Verified r token r') :
    SameRecord r r' ∧ r'.status = r.status := by
  cases h with
  | flushed => exact ⟨⟨rfl, rfl, rfl, rfl, rfl, rfl, rfl⟩, rfl⟩
  | finished =>
      obtain ⟨hrecord, hstatus⟩ := finishDrop_record r.decrDropLen token
      have hticked : SameRecord r r.decrDropLen := ⟨rfl, rfl, rfl, rfl, rfl, rfl, rfl⟩
      exact ⟨hticked.trans hrecord, hstatus⟩
  | accepted =>
      obtain ⟨hrecord, hstatus⟩ := ticked_record r
      exact ⟨hrecord.trans ⟨rfl, rfl, rfl, rfl, rfl, rfl, rfl⟩, hstatus⟩
  | rejected =>
      obtain ⟨hrecord, hstatus⟩ := ticked_record r
      exact ⟨hrecord.trans ⟨rfl, rfl, rfl, rfl, rfl, rfl, rfl⟩, hstatus⟩

end Request

/-! ## The stop check after a verification -/

theorem checkStopFromValidation_eq_ok {r r' : Request} {maxModelLen : ℕ} {stopped : Bool}
    (h : checkStopFromValidation r maxModelLen = .ok (stopped, r')) :
    (stopped = false → r' = r) ∧ (stopped = true → r'.isFinished = true) ∧
      ∃ status reason, r' = { r with status := status, stopReason := reason } := by
  unfold checkStopFromValidation at h
  split_ifs at h with hlen
  · cases h
    exact ⟨by simp, fun _ => rfl, _, _, rfl⟩
  · simp only [bind_eq_ok] at h
    obtain ⟨last, -, h⟩ := h
    split_ifs at h
    · cases h
      exact ⟨by simp, fun _ => rfl, _, _, rfl⟩
    · cases h
      exact ⟨by simp, fun _ => rfl, _, _, rfl⟩
    · cases h
      exact ⟨fun _ => rfl, by simp, r.status, r.stopReason, rfl⟩

namespace Scheduler

/-- A request that goes on after its tokens have been verified has kept its status. -/
theorem verifyTokens_record {cfg : Config} {r r' : Request} {tokens kept : List TokenId}
    {stopped : Bool} (h : verifyTokens cfg r tokens = .ok (stopped, kept, r')) :
    r.SameRecord r' ∧ (stopped = false → r'.status = r.status) := by
  induction tokens generalizing r kept with
  | nil =>
      cases h
      exact ⟨.refl _, fun _ => rfl⟩
  | cons token tokens ih =>
      simp only [verifyTokens, bind_eq_ok, Prod.exists] at h
      obtain ⟨code, r₁, hverify, stopped₁, r₂, hcheck, h⟩ := h
      obtain ⟨hrecord, hstatus⟩ := (Request.verifyOutputTokenIds_verified hverify).record
      obtain ⟨hsame, -, status, reason, heq⟩ := checkStopFromValidation_eq_ok hcheck
      have hrecord₂ : r.SameRecord r₂ :=
        hrecord.trans (heq ▸ ⟨rfl, rfl, rfl, rfl, rfl, rfl, rfl⟩)
      cases stopped₁ with
      | true =>
          cases h
          exact ⟨hrecord₂, by simp⟩
      | false =>
          simp only [Bool.false_eq_true, ite_false, bind_eq_ok, pure_eq_ok, Prod.exists,
            Prod.mk.injEq] at h
          obtain ⟨stopped', kept', r₃, hrest, rfl, -, rfl⟩ := h
          obtain ⟨hrecord₃, hstatus₃⟩ := ih hrest
          refine ⟨hrecord₂.trans hrecord₃, fun hgo => ?_⟩
          rw [hstatus₃ hgo, hsame rfl, hstatus]

theorem ingestTokens_record {cfg : Config} {probs confidences : List ℚ} {tokens : List TokenId}
    {numNew : ℕ} {r r' : Request}
    (h : ingestTokens cfg probs confidences tokens numNew r = .ok r') :
    r.SameRecord r' ∧ r'.status = r.status := by
  induction tokens generalizing numNew r with
  | nil =>
      cases h
      exact ⟨.refl _, rfl⟩
  | cons token tokens ih =>
      simp only [ingestTokens, bind_eq_ok] at h
      obtain ⟨confidence, -, stopped, -, h⟩ := h
      obtain ⟨hrecord, hstatus⟩ := ih h
      have hdrafted : r.SameRecord (r.drafted token confidence probs) :=
        ⟨rfl, rfl, rfl, rfl, rfl, rfl, rfl⟩
      cases stopped with
      | true =>
          have hstop : r.SameRecord (r.drafted token confidence probs).stopDrop :=
            ⟨rfl, rfl, rfl, rfl, rfl, rfl, rfl⟩
          exact ⟨hstop.trans hrecord, hstatus⟩
      | false => exact ⟨hdrafted.trans hrecord, hstatus⟩

end Scheduler

end Spexis
