import Spexis.Verification.Moves
import Spexis.Verification.Requests

/-! # The drafts of one request

A request's tokens are the verified ones followed by its drafts. Its flags count the drafts, and
the answers that still come for drafts it has given up. -/

namespace Spexis

open Python

namespace Request

/-- Does the sequence stop at its last token? -/
def stopsAt (r : Request) (maxModelLen : ℕ) (tokens : List TokenId) : Bool :=
  decide (maxModelLen ≤ tokens.length ∨ r.maxTokens ≤ tokens.length - r.numPromptTokens) ||
    tokens.getLast?.any fun last =>
      decide (¬ r.samplingParams.ignoreEos = true ∧ some last = r.eosTokenId) ||
        decide (last ∈ r.samplingParams.stopTokenIds)

theorem SameRecord.stopsAt {r r' : Request} (h : r.SameRecord r') (maxModelLen : ℕ)
    (tokens : List TokenId) : r'.stopsAt maxModelLen tokens = r.stopsAt maxModelLen tokens := by
  unfold Request.stopsAt maxTokens numPromptTokens
  rw [h.samplingParams, h.eosTokenId, h.promptTokenIds]

/-- The tokens of a request, its drafts and the answers it does not wait for. -/
structure Tracks (r : Request) (verified drafts : List TokenId) (stale : ℕ) (draining : Bool) :
    Prop where
  tokens : r.allTokenIds = verified ++ drafts
  output : r.allTokenIds = r.promptTokenIds ++ r.outputTokenIds
  prompt : r.numPromptTokens ≤ verified.length
  specTokenIds : r.specTokenIds = []
  spLen : r.spLen = drafts.length
  flushing : stale ≠ 0 → r.specResult = some false
  flushLen : r.specResult = some false → r.flushLen = some (stale : ℤ)
  isDropped : draining = true ↔ r.IsDropped
  dropLen : draining = true → r.dropLen = drafts.length

/-- Every token but the last one has been computed. -/
def Computed (r : Request) : Prop :=
  r.numComputedTokens + 1 = r.numTokens

/-- A dropped request counts down, and nothing else. -/
theorem ticked_eq (r : Request) :
    r.ticked = { r with dropLen := if r.IsDropped then r.dropLen - 1 else r.dropLen } := by
  unfold ticked
  split_ifs <;> rfl

variable {r : Request} {verified drafts : List TokenId} {stale : ℕ} {draining : Bool}
  {token draft : TokenId}

namespace Tracks

theorem numTokens (h : r.Tracks verified drafts stale draining) :
    r.numTokens = verified.length + drafts.length := by
  rw [Request.numTokens, h.tokens, List.length_append]

theorem outputTokenIds (h : r.Tracks verified drafts stale draining) :
    r.outputTokenIds = verified.drop r.numPromptTokens ++ drafts := by
  have hdrop : r.allTokenIds.drop r.numPromptTokens = r.outputTokenIds := by
    rw [h.output, numPromptTokens, List.drop_left]
  rw [← hdrop, h.tokens, List.drop_append_of_le_length h.prompt]

theorem numOutputTokens (h : r.Tracks verified drafts stale draining) :
    r.numOutputTokens = verified.length - r.numPromptTokens + drafts.length := by
  rw [Request.numOutputTokens, h.outputTokenIds, List.length_append, List.length_drop]

/-- The output token before the last `k + 1` drafts. -/
theorem getElem?_outputTokenIds (h : r.Tracks verified drafts stale draining) {xs : List TokenId}
    (hxs : xs <+: verified ++ drafts) (hlen : r.numPromptTokens < xs.length) :
    r.outputTokenIds[xs.length - r.numPromptTokens - 1]? = xs.getLast? := by
  have hall : r.allTokenIds[xs.length - 1]? = xs.getLast? := by
    rw [h.tokens, List.getLast?_eq_getElem?]
    exact (List.prefix_iff_getElem?.mp hxs _ (by omega)).trans
      (List.getElem?_eq_getElem (by omega)).symm
  rw [← hall, h.output, List.getElem?_append_right (by rw [← numPromptTokens]; omega)]
  congr 1
  rw [← numPromptTokens]
  omega

/-! ## The stop checks -/

theorem stopsAt_of_getLast? {maxModelLen : ℕ} {tokens : List TokenId} {last : TokenId}
    (hlast : tokens.getLast? = some last) :
    r.stopsAt maxModelLen tokens =
      (decide (maxModelLen ≤ tokens.length ∨ r.maxTokens ≤ tokens.length - r.numPromptTokens) ||
        (decide (¬ r.samplingParams.ignoreEos = true ∧ some last = r.eosTokenId) ||
          decide (last ∈ r.samplingParams.stopTokenIds))) := by
  rw [stopsAt, hlast, Option.any_some]

/-- The last token of a sequence, read back from the end of the output. -/
theorem pyGet_last (h : r.Tracks verified drafts stale draining) {xs ys : List TokenId}
    (hxs : xs ++ ys = verified ++ drafts) (hlen : r.numPromptTokens < xs.length) :
    ∃ last, xs.getLast? = some last ∧
      pyGet r.outputTokenIds (-((ys.length + 1 : ℕ) : ℤ)) = .ok last := by
  have hne : xs ≠ [] := List.ne_nil_of_length_pos (by omega)
  refine ⟨xs.getLast hne, List.getLast?_eq_some_getLast hne, ?_⟩
  have hnum : r.numOutputTokens + r.numPromptTokens = xs.length + ys.length := by
    rw [h.numOutputTokens, ← List.length_append, hxs, List.length_append]
    have := h.prompt
    omega
  rw [Request.numOutputTokens] at hnum
  refine pyGet_neg (by omega) (by omega) ?_
  rw [← List.getLast?_eq_some_getLast hne, ← h.getElem?_outputTokenIds ⟨ys, hxs⟩ hlen]
  congr 1
  omega

theorem checkStopFromSpec (h : r.Tracks verified drafts stale draining)
    (hlen : r.numPromptTokens < (verified ++ drafts).length) (maxModelLen : ℕ) :
    checkStopFromSpec r maxModelLen = .ok (r.stopsAt maxModelLen (verified ++ drafts)) := by
  obtain ⟨last, hlast, hget⟩ := h.pyGet_last (List.append_nil _) hlen
  have htokens : (verified ++ drafts).length = r.numTokens := by rw [Request.numTokens, h.tokens]
  have houtput : (verified ++ drafts).length - r.numPromptTokens = r.numOutputTokens := by
    rw [h.numOutputTokens, List.length_append]
    have := h.prompt
    omega
  rw [stopsAt_of_getLast? hlast, houtput, htokens, Spexis.checkStopFromSpec]
  by_cases hcap : r.numTokens ≥ maxModelLen ∨ r.numOutputTokens ≥ r.maxTokens
  · simp [hcap]
  · rw [if_neg hcap, decide_eq_false hcap, Bool.false_or]
    change (pyGet r.outputTokenIds (-1) >>= _) = _
    rw [show (-1 : ℤ) = -((([] : List TokenId).length + 1 : ℕ) : ℤ) from rfl, hget]
    by_cases heos : ¬ r.samplingParams.ignoreEos = true ∧ some last = r.eosTokenId
    · rw [decide_eq_true heos, Bool.true_or]
      exact if_pos heos
    · rw [decide_eq_false heos, Bool.false_or]
      exact if_neg heos

theorem checkStopFromValidation (h : r.Tracks verified drafts stale draining)
    (hlen : r.numPromptTokens < verified.length) (maxModelLen : ℕ) :
    ∃ r', checkStopFromValidation r maxModelLen = .ok (r.stopsAt maxModelLen verified, r') := by
  obtain ⟨last, hlast, hget⟩ := h.pyGet_last rfl hlen
  have htokens : (r.numTokens : ℤ) - r.spLen = verified.length := by
    rw [h.spLen, h.numTokens]
    omega
  have houtput : (r.numOutputTokens : ℤ) - r.spLen =
      ((verified.length - r.numPromptTokens : ℕ) : ℤ) := by
    rw [h.spLen, h.numOutputTokens]
    omega
  rw [stopsAt_of_getLast? hlast, Spexis.checkStopFromValidation, htokens, houtput]
  by_cases hcap : maxModelLen ≤ verified.length ∨
      r.maxTokens ≤ verified.length - r.numPromptTokens
  · rw [decide_eq_true hcap, if_pos (by exact_mod_cast hcap)]
    exact ⟨_, rfl⟩
  · rw [decide_eq_false hcap, if_neg (by exact_mod_cast hcap), Bool.false_or]
    change ∃ r', (pyGet r.outputTokenIds (-(r.spLen + 1)) >>= _) = _
    rw [h.spLen, show -((drafts.length : ℤ) + 1) = -((drafts.length + 1 : ℕ) : ℤ) by push_cast; rfl,
      hget]
    simp only [ok_bind]
    by_cases heos : ¬ r.samplingParams.ignoreEos = true ∧ some last = r.eosTokenId
    · rw [if_pos heos, decide_eq_true heos, Bool.true_or]
      exact ⟨_, rfl⟩
    · rw [if_neg heos, decide_eq_false heos, Bool.false_or]
      by_cases hstop : last ∈ r.samplingParams.stopTokenIds
      · rw [if_pos hstop, decide_eq_true hstop]
        exact ⟨_, rfl⟩
      · rw [if_neg hstop, decide_eq_false hstop]
        exact ⟨_, rfl⟩

/-! ## Verification -/

theorem verify_stale (h : r.Tracks verified drafts (stale + 1) draining) (token : TokenId) :
    r.verifyOutputTokenIds token =
        .ok (if draining then 3 else 2, r.flushed ((stale + 1 : ℕ) : ℤ)) ∧
      (r.flushed ((stale + 1 : ℕ) : ℤ)).Tracks verified drafts stale draining := by
  have hfalse := h.flushing (Nat.succ_ne_zero stale)
  have hlen := h.flushLen hfalse
  have hspec : (r.flushed ((stale + 1 : ℕ) : ℤ)).specResult =
      if stale = 0 then none else some false := by
    by_cases hstale : stale = 0 <;> simp [flushed, hstale, hfalse]
  constructor
  · have hcode : (if r.IsDropped then 3 else 2) = if draining = true then 3 else 2 := by
      simp only [h.isDropped]
    rw [verifyOutputTokenIds_eq, if_pos hfalse, hcode, decrFlushLen, hlen]
    rfl
  · refine ⟨h.tokens, h.output, h.prompt, h.specTokenIds, h.spLen, ?_, ?_, h.isDropped, h.dropLen⟩
    · intro hne
      rw [hspec, if_neg hne]
    · intro _
      simp [flushed]

/-- The oldest draft, read back from the end of the output. -/
theorem pyGet_draft (h : r.Tracks verified (draft :: drafts) stale draining) :
    pyGet r.outputTokenIds (-r.spLen) = .ok draft := by
  rw [h.spLen]
  refine pyGet_neg (by simp) ?_ ?_
  · rw [h.outputTokenIds]
    simp
  · rw [h.outputTokenIds]
    simp

theorem not_last (h : r.Tracks verified (draft :: drafts) stale draining)
    (hlast : draining = true → drafts ≠ []) : ¬ (r.IsDropped ∧ r.dropLen = 1) := by
  rintro ⟨hdrop, hone⟩
  have hdrain := h.isDropped.mpr hdrop
  have hlen := h.dropLen hdrain
  have hpos := List.length_pos_iff.mpr (hlast hdrain)
  rw [hone, List.length_cons] at hlen
  omega

theorem ticked_dropLen (h : r.Tracks verified (draft :: drafts) stale draining)
    (hdrain : draining = true) : r.ticked.dropLen = drafts.length := by
  rw [ticked_of_dropped (h.isDropped.mp hdrain), decrDropLen, h.dropLen hdrain]
  simp

theorem verify_drained (h : r.Tracks verified [draft] 0 true) (hspec : r.specResult ≠ some false)
    (token : TokenId) :
    r.verifyOutputTokenIds token = .ok (4, (r.decrDropLen.replaceLast token).endDrop) ∧
      (r.decrDropLen.replaceLast token).endDrop.Tracks (verified ++ [token]) [] 0 false := by
  have hdrop := h.isDropped.mp rfl
  have hlast : r.dropLen = 1 := h.dropLen rfl
  have hopen : r.specResult = some true ∨ r.specResult = none := by
    rcases hresult : r.specResult with _ | ⟨_ | _⟩
    · exact .inr rfl
    · exact absurd hresult hspec
    · exact .inl rfl
  have houtput : r.outputTokenIds = verified.drop r.numPromptTokens ++ [draft] := h.outputTokenIds
  have hall : r.allTokenIds = verified ++ [draft] := h.tokens
  constructor
  · rw [verifyOutputTokenIds_eq, if_neg hspec, if_pos ⟨hdrop, hlast⟩, finishDrop]
    rw [if_pos (show r.decrDropLen.specResult = _ ∨ r.decrDropLen.specResult = _ from hopen)]
  · have hset : ∀ xs : List TokenId, pySetTail (xs ++ [draft]) (-1) [token] = xs ++ [token] := by
      intro xs
      have htail := pySetTail_neg (xs ++ [draft]) [token] 1 one_pos
      simpa using htail
    refine ⟨?_, ?_, ?_, h.specTokenIds, rfl, fun hne => absurd rfl hne, ?_, ?_, by simp⟩
    · change pySetTail r.allTokenIds (-1) [token] = _
      rw [hall, hset, List.append_nil]
    · change pySetTail r.allTokenIds (-1) [token] =
        r.promptTokenIds ++ pySetTail r.outputTokenIds (-1) [token]
      have hsplit := h.output
      rw [hall, houtput, ← List.append_assoc] at hsplit
      rw [hall, houtput, hset, hset, ← List.append_assoc, ← List.append_cancel_right hsplit]
    · change r.numPromptTokens ≤ _
      have := h.prompt
      simp only [List.length_append, List.length_singleton]
      omega
    · intro hfalse
      cases hfalse
    · simp [IsDropped, endDrop]

theorem verify_accepted (h : r.Tracks verified (token :: drafts) 0 draining)
    (hspec : r.specResult ≠ some false) (hlast : draining = true → drafts ≠ []) :
    r.verifyOutputTokenIds token = .ok (0, r.ticked.acceptDraft) ∧
      r.ticked.acceptDraft.Tracks (verified ++ [token]) drafts 0 draining := by
  constructor
  · rw [verifyOutputTokenIds_eq, if_neg hspec, if_neg (h.not_last hlast), validateDraft,
      ticked_outputTokenIds, ticked_spLen, h.pyGet_draft, ok_bind, if_pos rfl]
    rfl
  · have hticked := ticked_eq r
    refine ⟨?_, ?_, ?_, ?_, ?_, fun hne => absurd rfl hne, (fun hres => by cases hres), ?_, ?_⟩
    · rw [hticked]
      exact h.tokens.trans (List.append_cons _ _ _)
    · rw [hticked]
      exact h.output
    · rw [hticked]
      exact h.prompt.trans (by simp)
    · rw [hticked]
      exact h.specTokenIds
    · change r.ticked.spLen - 1 = _
      rw [ticked_spLen, h.spLen]
      simp
    · rw [hticked]
      exact h.isDropped
    · exact h.ticked_dropLen

/-- The drafts after a rejected one are given up, and their answers are still to come. -/
theorem verify_rejected (h : r.Tracks verified (draft :: drafts) 0 draining)
    (hspec : r.specResult ≠ some false) (hlast : draining = true → drafts ≠ [])
    (hne : draft ≠ token) :
    r.verifyOutputTokenIds token = .ok (1, r.ticked.rejectDraft token) ∧
      (r.ticked.rejectDraft token).Tracks (verified ++ [token]) [] drafts.length false ∧
      (r.Computed → (r.ticked.rejectDraft token).Computed) := by
  have hticked := ticked_eq r
  have hset : ∀ xs : List TokenId, pySetTail (xs ++ draft :: drafts) (-r.spLen) [token] =
      xs ++ [token] := by
    intro xs
    rw [h.spLen, pySetTail_neg _ _ _ (by simp)]
    simp
  have hall : pySetTail r.allTokenIds (-r.spLen) [token] = verified ++ [token] := by
    rw [h.tokens, hset]
  refine ⟨?_, ⟨?_, ?_, ?_, ?_, ?_, fun _ => rfl, fun _ => ?_, ?_, nofun⟩, fun hcomputed => ?_⟩
  · rw [verifyOutputTokenIds_eq, if_neg hspec, if_neg (h.not_last hlast), validateDraft,
      ticked_outputTokenIds, ticked_spLen, h.pyGet_draft, ok_bind, if_neg hne]
    rfl
  · rw [hticked]
    exact hall.trans (List.append_nil _).symm
  · rw [hticked]
    change pySetTail r.allTokenIds (-r.spLen) [token] =
      r.promptTokenIds ++ pySetTail r.outputTokenIds (-r.spLen) [token]
    have hsplit := h.output
    rw [h.tokens, h.outputTokenIds, ← List.append_assoc] at hsplit
    rw [hall, h.outputTokenIds, hset, ← List.append_assoc, ← List.append_cancel_right hsplit]
  · rw [hticked]
    exact h.prompt.trans (by simp)
  · rw [hticked]
    exact h.specTokenIds
  · rfl
  · rw [hticked]
    change some (r.spLen - 1) = _
    rw [h.spLen]
    simp
  · simp [IsDropped, rejectDraft]
  · rw [Computed, h.numTokens, List.length_cons] at hcomputed
    rw [Computed, hticked]
    change ((r.numComputedTokens : ℤ) - (r.spLen - 1)).toNat + 1 =
      (pySetTail r.allTokenIds (-r.spLen) [token]).length
    rw [hall, h.spLen, List.length_cons, List.length_append, List.length_singleton]
    omega

/-! ## Drafting and dropping -/

/-- A draft at which the sequence would stop is the last one of a drop. -/
theorem ingestTokens (h : r.Tracks verified drafts stale false) (cfg : Config)
    (predictedLenProb : List ℚ) (confidence : ℚ) (token : TokenId) :
    ∃ r', Scheduler.ingestTokens cfg predictedLenProb [confidence] [token] 0 r = .ok r' ∧
      r'.Tracks verified (drafts ++ [token]) stale
        (r.stopsAt cfg.maxModelLen (verified ++ drafts ++ [token])) ∧
      r'.numComputedTokens = r.numComputedTokens ∧ r'.dropEnd = r.dropEnd ∧
      r'.specResult = r.specResult ∧ r'.justFixed = r.justFixed := by
  have hdropped : (r.drafted token confidence predictedLenProb).Tracks verified
      (drafts ++ [token]) stale false := by
    refine ⟨?_, ?_, h.prompt, h.specTokenIds, ?_, h.flushing, h.flushLen, h.isDropped, nofun⟩
    · change r.allTokenIds ++ [token] = _
      rw [h.tokens, List.append_assoc]
    · change r.allTokenIds ++ [token] = r.promptTokenIds ++ (r.outputTokenIds ++ [token])
      rw [h.output, List.append_assoc]
    · change r.spLen + 1 = _
      rw [h.spLen, List.length_append, List.length_singleton]
      rfl
  have hlen : (r.drafted token confidence predictedLenProb).numPromptTokens <
      (verified ++ (drafts ++ [token])).length := by
    have hprompt := hdropped.prompt
    simp only [List.length_append, List.length_singleton]
    omega
  have hcheck := hdropped.checkStopFromSpec hlen cfg.maxModelLen
  have hconfidence : pyGet [confidence] ((0 : ℕ) : ℤ) = .ok confidence := rfl
  rw [← List.append_assoc] at hcheck
  have hstops : (r.drafted token confidence predictedLenProb).stopsAt cfg.maxModelLen
      (verified ++ drafts ++ [token]) =
      r.stopsAt cfg.maxModelLen (verified ++ drafts ++ [token]) := rfl
  rw [hstops] at hcheck
  simp only [Scheduler.ingestTokens, hconfidence, ok_bind, hcheck]
  refine ⟨_, rfl, ?_⟩
  cases r.stopsAt cfg.maxModelLen (verified ++ drafts ++ [token]) with
  | false => exact ⟨hdropped, rfl, rfl, rfl, rfl⟩
  | true =>
      refine ⟨⟨hdropped.tokens, hdropped.output, hdropped.prompt, hdropped.specTokenIds,
        hdropped.spLen, hdropped.flushing, hdropped.flushLen, ?_, fun _ => hdropped.spLen⟩,
        rfl, rfl, rfl, rfl⟩
      simp [IsDropped, stopDrop]

/-- The request waits until its drafts have been verified. -/
theorem confidenceDrop (h : r.Tracks verified drafts stale draining) :
    ({ r with confidenceDropped := true, dropLen := r.spLen } : Request).Tracks verified drafts
      stale true :=
  ⟨h.tokens, h.output, h.prompt, h.specTokenIds, h.spLen, h.flushing, h.flushLen,
    by simp [IsDropped], fun _ => h.spLen⟩

end Tracks

end Request

end Spexis
