import Spexis.Library.Decoding
import Spexis.Verification.Bookkeeping

/-! # The output is the target's

As long as `schedule` launches no request whose flags deny the token it asks for, the tokens that
are sent to a client are those of plain decoding with the target, and no draft is made beyond a
token at which the request stops. -/

namespace Spexis

open Python

namespace Request

variable {target : List TokenId → TokenId} {maxModelLen : ℕ} {q : ReqId} {r r' : Request}
  {batches : List InFlight} {batch : InFlight} {verified drafts tokens : List TokenId} {stale : ℕ}
  {draining waiting pending : Bool} {token : TokenId}

/-- The tokens that are not drafts. -/
def verifiedTokens (r : Request) : List TokenId :=
  r.allTokenIds.take (r.numTokens - r.spLen.toNat)

theorem Tracks.verifiedTokens (h : r.Tracks verified drafts stale draining) :
    r.verifiedTokens = verified := by
  rw [Request.verifiedTokens, h.numTokens, h.spLen, Int.toNat_natCast, Nat.add_sub_cancel, h.tokens,
    List.take_left]

/-- A live request that has been sent some tokens: they are the target's, and only its last token
may stop it, as the last draft of a drop. -/
structure Decoded (target : List TokenId → TokenId) (maxModelLen : ℕ) (r : Request)
    (tokens : List TokenId) : Prop where
  verified : r.verifiedTokens = r.promptTokenIds ++ tokens
  decodes : tokens = greedyDecode target (r.stopsAt maxModelLen) r.promptTokenIds tokens.length
  inner : ∀ xs, xs <+: r.allTokenIds → r.numPromptTokens < xs.length → xs.length < r.numTokens →
    r.stopsAt maxModelLen xs = false
  last : r.numPromptTokens < r.numTokens → r.stopsAt maxModelLen r.allTokenIds = true →
    r.IsDropped ∧ r.spLen ≠ 0

/-- The two requests have been asked for alike. -/
structure SameParams (r r' : Request) : Prop where
  samplingParams : r'.samplingParams = r.samplingParams
  eosTokenId : r'.eosTokenId = r.eosTokenId
  promptTokenIds : r'.promptTokenIds = r.promptTokenIds

/-- What scheduling leaves alone: a drop is only forgotten when there are no drafts. -/
structure Persists (r r' : Request) : Prop extends SameParams r r' where
  allTokenIds : r'.allTokenIds = r.allTokenIds
  spLen : r'.spLen = r.spLen
  dropped : r.IsDropped → r.spLen ≠ 0 → r'.IsDropped

theorem SameParams.trans {r₁ r₂ r₃ : Request} (h : SameParams r₁ r₂) (h' : SameParams r₂ r₃) :
    SameParams r₁ r₃ :=
  ⟨h'.1.trans h.1, h'.2.trans h.2, h'.3.trans h.3⟩

theorem SameRecord.sameParams (h : SameRecord r r') : SameParams r r' :=
  ⟨h.samplingParams, h.eosTokenId, h.promptTokenIds⟩

theorem SameParams.stopsAt (h : SameParams r r') (maxModelLen : ℕ) :
    r'.stopsAt maxModelLen = r.stopsAt maxModelLen := by
  funext xs
  unfold Request.stopsAt maxTokens Request.numPromptTokens
  rw [h.samplingParams, h.eosTokenId, h.promptTokenIds]

theorem SameParams.numPromptTokens (h : SameParams r r') :
    r'.numPromptTokens = r.numPromptTokens :=
  congrArg List.length h.promptTokenIds

theorem Persists.refl (r : Request) : Persists r r :=
  ⟨⟨rfl, rfl, rfl⟩, rfl, rfl, fun h _ => h⟩

theorem Persists.trans {r₁ r₂ r₃ : Request} (h : Persists r₁ r₂) (h' : Persists r₂ r₃) :
    Persists r₁ r₃ where
  toSameParams := h.toSameParams.trans h'.toSameParams
  allTokenIds := h'.allTokenIds.trans h.allTokenIds
  spLen := h'.spLen.trans h.spLen
  dropped hdrop hne := h'.dropped (h.dropped hdrop hne) (h.spLen.trans_ne hne)

theorem Decoded.persists (h : r.Decoded target maxModelLen tokens) (hsame : Persists r r') :
    r'.Decoded target maxModelLen tokens := by
  have hnum : r'.numTokens = r.numTokens := congrArg List.length hsame.allTokenIds
  have hprompt := hsame.numPromptTokens
  have hstops := hsame.stopsAt maxModelLen
  refine ⟨?_, ?_, fun xs hxs hlt hlen => ?_, fun hlt hstop => ?_⟩
  · rw [verifiedTokens, hnum, hsame.allTokenIds, hsame.spLen, hsame.promptTokenIds]
    exact h.verified
  · rw [hstops, hsame.promptTokenIds]
    exact h.decodes
  · rw [hstops]
    exact h.inner xs (hsame.allTokenIds ▸ hxs) (hprompt ▸ hlt) (hnum ▸ hlen)
  · rw [hstops, hsame.allTokenIds] at hstop
    rw [hprompt, hnum] at hlt
    obtain ⟨hdrop, hne⟩ := h.last hlt hstop
    exact ⟨hsame.dropped hdrop hne, hsame.spLen.trans_ne hne⟩

/-- What has been verified has not stopped the request. -/
theorem Decoded.goesOn (h : r.Decoded target maxModelLen tokens)
    (htracks : r.Tracks verified drafts stale draining) (hlt : r.numPromptTokens < verified.length) :
    r.stopsAt maxModelLen verified = false := by
  have hprefix : verified <+: r.allTokenIds := htracks.tokens ▸ List.prefix_append _ _
  rcases Nat.lt_or_ge verified.length r.numTokens with hlen | hlen
  · exact h.inner verified hprefix hlt hlen
  · have hnil : drafts = [] := by
      rw [htracks.numTokens] at hlen
      exact List.length_eq_zero_iff.mp (by omega)
    subst hnil
    have hall : r.allTokenIds = verified := htracks.tokens.trans (List.append_nil _)
    refine Bool.eq_false_iff.mpr fun hstop => ?_
    obtain ⟨-, hne⟩ := h.last (by rw [numTokens, hall]; exact hlt) (hall ▸ hstop)
    exact hne htracks.spLen

theorem Decoded.verified_eq (h : r.Decoded target maxModelLen tokens)
    (htracks : r.Tracks verified drafts stale draining) : verified = r.promptTokenIds ++ tokens :=
  htracks.verifiedTokens.symm.trans h.verified

theorem Decoded.concat (h : r.Decoded target maxModelLen tokens)
    (htracks : r.Tracks verified drafts stale draining) :
    tokens ++ [target verified] = greedyDecode target (r.stopsAt maxModelLen) r.promptTokenIds
      (tokens ++ [target verified]).length := by
  have hverified := h.verified_eq htracks
  rw [hverified]
  refine greedyDecode_concat h.decodes ?_
  rw [← hverified]
  refine or_iff_not_imp_left.mpr fun hne => h.goesOn htracks ?_
  rw [hverified, List.length_append]
  exact Nat.lt_add_of_pos_right (List.length_pos_iff.mpr hne)

/-- The next token has been verified, and the request goes on. -/
theorem Decoded.next {verified' drafts' : List TokenId} {stale' : ℕ} {draining' : Bool}
    (h : r.Decoded target maxModelLen tokens) (htracks : r.Tracks verified drafts stale draining)
    (hrecord : SameRecord r r') (hverified : verified' = verified ++ [target verified])
    (htracks' : r'.Tracks verified' drafts' stale' draining')
    (hgo : r.stopsAt maxModelLen verified' = false)
    (hrest : drafts' = [] ∧ r'.numTokens ≤ r.numTokens ∨
      r'.allTokenIds = r.allTokenIds ∧ (r.IsDropped → r'.IsDropped)) :
    r'.Decoded target maxModelLen (tokens ++ [target verified]) := by
  have hstops := hrecord.sameParams.stopsAt maxModelLen
  have hprompt := hrecord.sameParams.numPromptTokens
  refine ⟨?_, ?_, fun xs hxs hlt hlen => ?_, fun hlt hstop => ?_⟩
  · rw [htracks'.verifiedTokens, hrecord.promptTokenIds, hverified, h.verified_eq htracks,
      List.append_assoc]
  · rw [hstops, hrecord.promptTokenIds]
    exact h.concat htracks
  · rw [hstops]
    rw [hprompt] at hlt
    rcases hrest with ⟨rfl, hnum⟩ | ⟨hall, -⟩
    · have hall : r'.allTokenIds = verified ++ [target verified] :=
        (htracks'.tokens.trans (List.append_nil _)).trans hverified
      have hshort : xs.length ≤ verified.length := by
        rw [numTokens, hall, List.length_append, List.length_singleton] at hlen
        exact Nat.lt_succ_iff.mp hlen
      have hxs' : xs <+: verified :=
        List.prefix_of_prefix_length_le (hall ▸ hxs) (List.prefix_append _ _) hshort
      exact h.inner xs (hxs'.trans (htracks.tokens ▸ List.prefix_append _ _)) hlt
        (hlen.trans_le hnum)
    · exact h.inner xs (hall ▸ hxs) hlt (by rwa [numTokens, ← hall])
  · rw [hstops] at hstop
    rw [hprompt] at hlt
    have hne : drafts' ≠ [] := by
      rintro rfl
      rw [htracks'.tokens, List.append_nil, hgo] at hstop
      exact Bool.false_ne_true hstop
    rcases hrest with ⟨hnil, -⟩ | ⟨hall, hdropped⟩
    · exact absurd hnil hne
    · rw [hall] at hstop
      rw [numTokens, hall] at hlt
      refine ⟨hdropped (h.last hlt hstop).1, ?_⟩
      rw [htracks'.spLen]
      exact Int.natCast_ne_zero.mpr (List.length_pos_iff.mpr hne).ne'

/-! ## Verification -/

/-- A request that has stopped: its tokens are all that decoding yields. -/
structure Halted (target : List TokenId → TokenId) (maxModelLen : ℕ) (r : Request)
    (tokens : List TokenId) : Prop where
  decodes : tokens = greedyDecode target (r.stopsAt maxModelLen) r.promptTokenIds tokens.length
  ne_nil : tokens ≠ []
  stops : r.stopsAt maxModelLen (r.promptTokenIds ++ tokens) = true

/-- The tokens that are sent for a verified batch. -/
def sent (q : ReqId) (before after : Request) (tokens : List TokenId) : List TokenId :=
  (Scheduler.verifiedOutput q before after tokens).flatMap (·.newTokenIds)

theorem sent_eq (q : ReqId) (before after : Request) (tokens : List TokenId) :
    sent q before after tokens = if before.specResult ≠ some false then tokens else [] := by
  unfold sent Scheduler.verifiedOutput
  by_cases hspec : before.specResult = some false
  · simp [hspec]
  · by_cases htokens : tokens = [] <;> simp [hspec, htokens]

/-- The verification of one token, and the stop check after it. -/
theorem verifyTokens_one {cfg : Config} {kept : List TokenId} {stopped : Bool} {r₁ : Request}
    {code : ℕ} (hcode : r.verifyOutputTokenIds token = .ok (code, r₁))
    (htracks : r₁.Tracks verified drafts stale draining)
    (hlen : r₁.numPromptTokens < verified.length)
    (h : Scheduler.verifyTokens cfg r [token] = .ok (stopped, kept, r')) :
    kept = [token] ∧ stopped = r₁.stopsAt cfg.maxModelLen verified ∧ (stopped = false → r' = r₁) := by
  obtain ⟨r₂, hcheck⟩ := htracks.checkStopFromValidation hlen cfg.maxModelLen
  simp only [Scheduler.verifyTokens, hcode, hcheck, ok_bind] at h
  cases hstop : r₁.stopsAt cfg.maxModelLen verified with
  | true =>
      rw [hstop, if_pos rfl] at h
      cases h
      exact ⟨rfl, rfl, fun hgo => by cases hgo⟩
  | false =>
      rw [hstop] at hcheck h
      rw [if_neg Bool.false_ne_true] at h
      cases h
      exact ⟨rfl, rfl, fun _ => (checkStopFromValidation_eq_ok hcheck).1 rfl⟩

/-- What the verification of a batch adds to what a request has been sent. -/
structure Sends (target : List TokenId → TokenId) (cfg : Config) (q : ReqId) (r : Request)
    (stopped : Bool) (kept : List TokenId) (r' : Request) (tokens : List TokenId) : Prop where
  goesOn : stopped = false → r'.Decoded target cfg.maxModelLen (tokens ++ sent q r r' kept)
  stops : stopped = true → r'.Halted target cfg.maxModelLen (tokens ++ sent q r r' kept)

theorem Decoded.halted (h : r.Decoded target maxModelLen tokens)
    (htracks : r.Tracks verified drafts stale draining) (hrecord : SameRecord r r')
    (hstop : r.stopsAt maxModelLen (verified ++ [target verified]) = true) :
    r'.Halted target maxModelLen (tokens ++ [target verified]) := by
  have hstops := hrecord.sameParams.stopsAt maxModelLen
  refine ⟨?_, List.concat_ne_nil _ _, ?_⟩
  · rw [hstops, hrecord.promptTokenIds]
    exact h.concat htracks
  · rw [hstops, hrecord.promptTokenIds, ← List.append_assoc, ← h.verified_eq htracks]
    exact hstop

variable {cfg : Config} {kept : List TokenId} {stopped : Bool}

/-- A token that is compared with a draft. -/
theorem Decoded.sends {r₁ : Request} {code : ℕ} {drafts' : List TokenId} {stale' : ℕ}
    {draining' : Bool} (h : r.Decoded target cfg.maxModelLen tokens)
    (htracks : r.Tracks verified drafts stale draining) (hspec : r.specResult ≠ some false)
    (hcode : r.landed.verifyOutputTokenIds (target verified) = .ok (code, r₁))
    (htracks' : r₁.Tracks (verified ++ [target verified]) drafts' stale' draining')
    (hrecord : SameRecord r.landed r₁)
    (hrest : drafts' = [] ∧ r₁.numTokens ≤ r.numTokens ∨
      r₁.allTokenIds = r.allTokenIds ∧ (r.IsDropped → r₁.IsDropped))
    (hverify : Scheduler.verifyTokens cfg r.landed [target verified] = .ok (stopped, kept, r')) :
    Sends target cfg q r stopped kept r' tokens := by
  have hlanded : r.landed.Decoded target cfg.maxModelLen tokens :=
    h.persists ⟨⟨rfl, rfl, rfl⟩, rfl, rfl, fun hdrop _ => hdrop⟩
  have htracks₀ := htracks.congr (landed_sameDrafts r)
  have hlen : r₁.numPromptTokens < (verified ++ [target verified]).length := by
    rw [List.length_append, List.length_singleton, numPromptTokens, hrecord.promptTokenIds]
    exact Nat.lt_succ_of_le htracks.prompt
  have hstops : r₁.stopsAt cfg.maxModelLen = r.stopsAt cfg.maxModelLen :=
    hrecord.sameParams.stopsAt cfg.maxModelLen
  obtain ⟨rfl, hstopped, hsame⟩ := verifyTokens_one hcode htracks' hlen hverify
  rw [hstops] at hstopped
  have hsent : sent q r r' [target verified] = [target verified] := by
    rw [sent_eq, if_pos hspec]
  refine ⟨fun hgo => ?_, fun hstop => ?_⟩
  · rw [hsent, hsame hgo]
    exact hlanded.next htracks₀ hrecord rfl htracks' (hstopped.symm.trans hgo) hrest
  · rw [hsent]
    exact hlanded.halted htracks₀ (Scheduler.verifyTokens_record hverify).1 (hstopped.symm.trans hstop)

/-- Nothing is sent for a batch without tokens, or for the answer to a draft that has been given
up. -/
theorem Decoded.sends_nothing (h : r.Decoded target cfg.maxModelLen tokens)
    (hsame : Persists r r') (hsent : sent q r r' kept = []) :
    Sends target cfg q r false kept r' tokens := by
  refine ⟨fun _ => ?_, fun hstop => by cases hstop⟩
  rw [hsent, List.append_nil]
  exact h.persists hsame

theorem Flight.sends_stale
    (h : Flight (fun context token => token = target context) q r (batch :: batches) verified drafts
      (stale + 1) draining false)
    (hdec : r.Decoded target cfg.maxModelLen tokens)
    (hverify : Scheduler.verifyTokens cfg r.landed (batch.answer q) = .ok (stopped, kept, r')) :
    Sends target cfg q r stopped kept r' tokens := by
  obtain ⟨silent, given, valid, heq, -, hidle, hlength, hgiven, -⟩ := h.batches
  obtain rfl : silent = [] := by
    by_contra hne
    exact Nat.succ_ne_zero stale (hidle hne)
  cases given with
  | nil => cases hlength
  | cons first given =>
      obtain ⟨rfl, rfl⟩ := List.cons.inj heq
      obtain ⟨-, token, hanswer⟩ := hgiven batch List.mem_cons_self
      have htracks := h.tracks.congr (landed_sameDrafts r)
      obtain ⟨hcode, htracks'⟩ := htracks.verify_stale token
      have hlen := h.answered (Nat.succ_ne_zero stale)
      rw [hanswer] at hverify
      obtain ⟨rfl, hstopped, hsame⟩ := verifyTokens_one hcode htracks' hlen hverify
      -- the verified tokens are those of the last check
      obtain rfl : stopped = false := hstopped.trans (hdec.goesOn h.tracks hlen)
      refine hdec.sends_nothing ?_ ?_
      · rw [hsame rfl]
        exact ⟨⟨rfl, rfl, rfl⟩, rfl, rfl, fun hdrop _ => hdrop⟩
      · rw [sent_eq, if_neg (not_not.mpr (h.tracks.flushing (Nat.succ_ne_zero stale)))]

theorem Flight.sends_draft
    (h : Flight (fun context token => token = target context) q r (batch :: batches) verified drafts
      0 draining false)
    (hdec : r.Decoded target cfg.maxModelLen tokens) (hsome : batch.answer q ≠ [])
    (hverify : Scheduler.verifyTokens cfg r.landed (batch.answer q) = .ok (stopped, kept, r')) :
    Sends target cfg q r stopped kept r' tokens := by
  have hvalid := h.valid_batches hsome
  have htracks := h.tracks.congr (landed_sameDrafts r)
  simp only [Bool.false_eq_true, ite_false, List.append_nil] at hvalid
  cases drafts with
  | nil => cases hvalid
  | cons draft drafts =>
      rw [DraftQueue.contexts] at hvalid
      obtain ⟨⟨-, token, hanswer, rfl⟩, -⟩ := List.forall₂_cons.mp hvalid
      have hspec : r.specResult ≠ some false := fun hfalse => by cases (h.settled rfl hfalse).1
      have hrecord : ∀ {code r₁},
          r.landed.verifyOutputTokenIds (target verified) = .ok (code, r₁) → SameRecord r.landed r₁ :=
        fun hcode => (verifyOutputTokenIds_verified hcode).record.1
      rw [hanswer] at hverify
      have hnum := h.tracks.numTokens
      rw [List.length_cons] at hnum
      by_cases hlast : draining = true ∧ drafts = []
      · obtain ⟨rfl, rfl⟩ := hlast
        obtain ⟨hcode, htracks'⟩ := htracks.verify_drained hspec (target verified)
        refine hdec.sends h.tracks hspec hcode htracks' (hrecord hcode) (.inl ⟨rfl, ?_⟩) hverify
        rw [htracks'.numTokens, hnum, List.length_append, List.length_singleton, List.length_nil]
      · have hmore : draining = true → drafts ≠ [] := fun hdrain hnil => hlast ⟨hdrain, hnil⟩
        by_cases hdraft : draft = target verified
        · subst hdraft
          obtain ⟨hcode, htracks'⟩ := htracks.verify_accepted hspec hmore
          refine hdec.sends h.tracks hspec hcode htracks' (hrecord hcode) (.inr ?_) hverify
          rw [ticked_eq]
          exact ⟨rfl, id⟩
        · obtain ⟨hcode, htracks', -⟩ := htracks.verify_rejected hspec hmore hdraft
          refine hdec.sends h.tracks hspec hcode htracks' (hrecord hcode) (.inl ⟨rfl, ?_⟩) hverify
          rw [htracks'.numTokens, hnum, List.length_append, List.length_singleton, List.length_nil]
          omega

/-- The oldest batch has been verified. -/
theorem Flight.sends
    (h : Flight (fun context token => token = target context) q r (batch :: batches) verified drafts
      stale draining false)
    (hdec : r.Decoded target cfg.maxModelLen tokens)
    (hverify : Scheduler.verifyTokens cfg r.landed (batch.answer q) = .ok (stopped, kept, r')) :
    Sends target cfg q r stopped kept r' tokens := by
  by_cases hanswer : batch.answer q = []
  · rw [hanswer] at hverify
    cases hverify
    refine hdec.sends_nothing ⟨⟨rfl, rfl, rfl⟩, rfl, rfl, fun hdrop _ => hdrop⟩ ?_
    rw [sent_eq, ite_self]
  · cases stale with
    | succ stale => exact h.sends_stale hdec hverify
    | zero => exact h.sends_draft hdec hanswer hverify

/-! ## Drafting and scheduling -/

/-- The next draft is only made if the tokens so far do not stop the request. -/
theorem Flight.ingest_decoded {predictedLenProb : List ℚ} {confidence : ℚ}
    {answers : List TokenId → TokenId → Prop}
    (h : Flight answers q r batches verified drafts stale draining true)
    (hdec : r.Decoded target cfg.maxModelLen tokens)
    (hingest : Scheduler.ingestTokens cfg predictedLenProb [confidence] [token] 0 r = .ok r') :
    r'.Decoded target cfg.maxModelLen tokens := by
  obtain rfl := h.launches rfl
  obtain ⟨r₁, hingest₁, htracks, -⟩ := h.tracks.ingestTokens cfg predictedLenProb confidence token
  obtain rfl := Except.ok.inj (hingest.symm.trans hingest₁)
  obtain ⟨hrecord, -⟩ := Scheduler.ingestTokens_record hingest
  have hstops := hrecord.sameParams.stopsAt cfg.maxModelLen
  have hprompt := hrecord.sameParams.numPromptTokens
  have hall : r'.allTokenIds = r.allTokenIds ++ [token] := by
    rw [htracks.tokens, h.tracks.tokens, List.append_assoc]
  refine ⟨?_, ?_, fun xs hxs hlt hlen => ?_, fun _ hstop => ?_⟩
  · rw [htracks.verifiedTokens, hrecord.promptTokenIds]
    exact hdec.verified_eq h.tracks
  · rw [hstops, hrecord.promptTokenIds]
    exact hdec.decodes
  · rw [hstops]
    rw [hprompt] at hlt
    have hle : xs.length ≤ r.numTokens := by
      rw [numTokens, hall, List.length_append, List.length_singleton] at hlen
      exact Nat.lt_succ_iff.mp hlen
    have hxs' : xs <+: r.allTokenIds :=
      List.prefix_of_prefix_length_le (hall ▸ hxs) (List.prefix_append _ _) hle
    rcases Nat.lt_or_ge xs.length r.numTokens with hshort | hlong
    · exact hdec.inner xs hxs' hlt hshort
    · obtain rfl := hxs'.eq_of_length (le_antisymm hle hlong)
      refine Bool.eq_false_iff.mpr fun hstop => ?_
      exact absurd (h.tracks.isDropped.mpr (hdec.last hlt hstop).1) Bool.false_ne_true
  · rw [hstops, hall, h.tracks.tokens] at hstop
    refine ⟨htracks.isDropped.mp hstop, ?_⟩
    rw [htracks.spLen, List.length_append, List.length_singleton]
    exact Int.natCast_ne_zero.mpr (Nat.succ_ne_zero _)

theorem init_decoded (target : List TokenId → TokenId) (maxModelLen : ℕ)
    (promptTokenIds : List TokenId) (samplingParams : SamplingParams) (eosTokenId : Option TokenId) :
    (init promptTokenIds samplingParams eosTokenId).Decoded target maxModelLen [] := by
  refine ⟨?_, rfl, fun xs _ hlt hlen => absurd (hlt.trans hlen) (lt_irrefl _),
    fun hlt => absurd hlt (lt_irrefl _)⟩
  simp [verifiedTokens, init, numTokens]

theorem built_advance_persists (r : Request) (cached : Bool) (n : ℕ) :
    Persists r ((r.built cached).advance n) := by
  unfold built correctionSent
  split_ifs <;> exact ⟨⟨rfl, rfl, rfl⟩, rfl, rfl, fun hdrop _ => hdrop⟩

end Request

namespace View

open Request

variable {cfg : Config} {v v' : View}

/-- A request goes back to the waiting queue only when it has no drafts. -/
theorem preempt_persists (v : View) {r₀ r : Request} (hsame : Persists r₀ r)
    (hidle : r₀.numScheduled ≤ 0 → r₀.spLen = 0) (hcount : r.numScheduled = r₀.numScheduled) :
    Persists r₀ (v.preempt r).request := by
  unfold preempt
  split_ifs with hflight
  · exact hsame.trans ⟨⟨rfl, rfl, rfl⟩, rfl, rfl, fun hdrop _ => hdrop⟩
  · have hzero := hidle (hcount ▸ not_lt.mp hflight)
    exact ⟨⟨hsame.samplingParams, hsame.eosTokenId, hsame.promptTokenIds⟩, hsame.allTokenIds,
      hzero.symm, fun _ hne => absurd hzero hne⟩

theorem Turn.persists (hturn : v.Turn cfg v')
    (hidle : v.request.numScheduled ≤ 0 → v.request.spLen = 0) :
    Persists v.request v'.request := by
  cases hturn with
  | away => exact .refl _
  | drained =>
      unfold drain
      split_ifs with hflight
      · exact ⟨⟨rfl, rfl, rfl⟩, rfl, rfl, fun hdrop _ => hdrop⟩
      · have hzero := hidle (not_lt.mp hflight)
        exact ⟨⟨rfl, rfl, rfl⟩, rfl, hzero.symm, fun _ hne => absurd hzero hne⟩
  | runs passed _ _ hturn =>
      cases hturn with
      | kept => exact ⟨⟨rfl, rfl, rfl⟩, rfl, rfl, fun hdrop _ => hdrop⟩
      | dropped => exact ⟨⟨rfl, rfl, rfl⟩, rfl, rfl, fun _ _ => .inl rfl⟩
      | launched realToken =>
          cases realToken <;> exact ⟨⟨rfl, rfl, rfl⟩, rfl, rfl, fun hdrop _ => hdrop⟩
      | evicted r _ hr =>
          rcases hr with ⟨realToken, rfl⟩ | ⟨-, rfl⟩
          · cases realToken <;>
              exact preempt_persists _ ⟨⟨rfl, rfl, rfl⟩, rfl, rfl, fun hdrop _ => hdrop⟩ hidle rfl
          · exact preempt_persists _ ⟨⟨rfl, rfl, rfl⟩, rfl, rfl, fun _ _ => .inl rfl⟩ hidle rfl
  | waits _ _ hturn =>
      have hready : ∀ r, r = v.request ∨ r = Scheduling.ready v.request → Persists v.request r := by
        rintro r (rfl | rfl)
        · exact .refl _
        · unfold Scheduling.ready
          split_ifs <;> exact ⟨⟨rfl, rfl, rfl⟩, rfl, rfl, fun hdrop _ => hdrop⟩
      cases hturn with
      | waits r hr => exact hready r hr
      | admitted r n tokenBudget hr =>
          exact (hready r hr).trans ⟨⟨rfl, rfl, rfl⟩, rfl, rfl, fun hdrop _ => hdrop⟩

theorem Turn.away_eq (hturn : v.Turn cfg v') (hwaiting : v.waiting = false)
    (hrunning : v.running = false) (hdraining : v.draining = false) : v' = v := by
  cases hturn with
  | away => rfl
  | drained hdrain => exact absurd (hdraining.symm.trans hdrain) Bool.false_ne_true
  | runs _ _ hrun => exact absurd (hrunning.symm.trans hrun) Bool.false_ne_true
  | waits _ hwait => exact absurd (hwaiting.symm.trans hwait) Bool.false_ne_true

end View

namespace EngineCore

open Request

variable {answers : List TokenId → TokenId → Prop} {cfg : Config} {e e' : EngineCore} {q : ReqId}

/-! ## Requests that have left -/

theorem verify_gone {outputs : List EngineCoreOutput} (hcont : e.Contained)
    (hverify : e.verify cfg = .ok (outputs, e')) (hgone : q ∉ e.scheduler.requests) :
    e'.scheduler.request q = e.scheduler.request q ∧ outputs.filter (·.requestId = q) = [] := by
  rcases verify_cases hverify with ⟨rfl, hs, -⟩ | ⟨batch, queue, -, -, hmoves⟩
  · rw [hs]
    exact ⟨rfl, rfl⟩
  · have hspec := hmoves.spec (hcont.batchRequests_nodup _) hcont.nodup
    obtain ⟨hrequest, -, houtputs⟩ := hspec.same q fun hmem => by
      rcases List.mem_append.mp (List.mem_filter.mp hmem).1 with hrun | htbp
      · exact hgone (hcont.running_mem hrun)
      · exact hgone (hcont.toBePreempted_mem htbp)
    exact ⟨hrequest, houtputs⟩

theorem Launch.turn {execute : Executor} {st : Scheduling} {out : SpexisSchedulerOutput}
    (hunhashed : e.scheduler.kvCacheManager.blockPool.Unhashed) (hcont : e.Contained)
    (hlaunch : Launch cfg execute e st out e') (q : ReqId) :
    View.Turn cfg ((e.scheduler.begin cfg).view q) (st.view q) := by
  obtain ⟨_, hselect⟩ := hlaunch.spec.select
  have hbegin : (e.scheduler.begin cfg).Contained fun q => (e.entries q).length :=
    Scheduler.begin_contained hcont
  exact Scheduling.selectRequests_turn hbegin hunhashed rfl hselect q

theorem Launch.gone {execute : Executor} {st : Scheduling} {out : SpexisSchedulerOutput}
    (hunhashed : e.scheduler.kvCacheManager.blockPool.Unhashed) (hcont : e.Contained)
    (hlaunch : Launch cfg execute e st out e') (hgone : q ∉ e.scheduler.requests) :
    SameParams (e.scheduler.request q) (e'.scheduler.request q) := by
  have haway := (hlaunch.turn hunhashed hcont q).away_eq
    (decide_eq_false fun hmem => hgone (hcont.waiting_mem hmem))
    (decide_eq_false fun hmem => hgone (hcont.running_mem hmem))
    (decide_eq_false fun hmem => hgone (hcont.toBePreempted_mem hmem))
  have hrequest : st.request q = e.scheduler.request q := congrArg View.request haway
  rw [hlaunch.spec.request, hrequest]
  exact (built_advance_persists _ _ _).toSameParams

/-! ## Scheduling and ingestion -/

theorem Launch.persists {execute : Executor} {st : Scheduling} {out : SpexisSchedulerOutput}
    (h : e.Aloft answers) (hcont : e.Contained) (hphase : e.phase = .verified)
    (hlaunch : Launch cfg execute e st out e') (hlive : q ∈ e.scheduler.requests) :
    Persists (e.scheduler.request q) (e'.scheduler.request q) := by
  have hidle : (e.scheduler.request q).numScheduled ≤ 0 → (e.scheduler.request q).spLen = 0 := by
    intro hzero
    have hcount := hcont.count q hlive
    simp only [List.not_mem_nil, ite_false] at hcount
    have hnil : e.entries q = [] := List.length_eq_zero_iff.mp (by omega)
    obtain ⟨verified, drafts, stale, draining, hflight, -⟩ := h.flights q hlive
    rw [hnil, pending_of_verified hphase] at hflight
    rw [hflight.tracks.spLen, hflight.idle.1]
    rfl
  have hturn := (hlaunch.turn h.unhashed hcont q).persists hidle
  rw [hlaunch.spec.request]
  exact Persists.trans hturn (built_advance_persists _ _ _)

theorem ingest_decoded {target : List TokenId → TokenId} {tokens : List TokenId}
    {out : SpexisSchedulerOutput} {specOutput : ModelRunnerOutput} (h : e.Aloft answers)
    (hcont : e.Contained) (hphase : e.phase = .executing out specOutput)
    (hingest : e.ingest cfg = .ok e') (hlive : q ∈ e.scheduler.requests)
    (hdec : (e.scheduler.request q).Decoded target cfg.maxModelLen tokens) :
    (e'.scheduler.request q).Decoded target cfg.maxModelLen tokens := by
  obtain ⟨-, -, -, hspec⟩ := ingest_contained hphase hcont hingest
  by_cases hnum : out.numScheduled q = 0
  · rw [hspec.same q (fun hin => hin.2 hnum)]
    exact hdec
  · obtain ⟨hrunning, hdrafts⟩ := h.drafts out specOutput hphase q hnum
    have hone := hspec.ingest q hrunning hnum
    cases hpending : e.pending q with
    | true =>
        rw [hpending] at hdrafts
        obtain ⟨draft, confidence, hdraft, hconfidence⟩ := hdrafts
        rw [hdraft, hconfidence] at hone
        obtain ⟨verified, drafts, stale, draining, hflight, -⟩ := h.flights q hlive
        rw [hpending] at hflight
        exact hflight.ingest_decoded hdec hone
    | false =>
        rw [hpending] at hdrafts
        rw [show specOutput.sampledTokenIds q = [] from hdrafts] at hone
        rw [← Except.ok.inj hone]
        exact hdec

theorem ingest_sameParams {out : SpexisSchedulerOutput} {specOutput : ModelRunnerOutput}
    (hcont : e.Contained) (hphase : e.phase = .executing out specOutput)
    (hingest : e.ingest cfg = .ok e') (q : ReqId) :
    SameParams (e.scheduler.request q) (e'.scheduler.request q) := by
  obtain ⟨-, -, -, hspec⟩ := ingest_contained hphase hcont hingest
  by_cases hin : q ∈ e.scheduler.runningScheduled ∧ out.numScheduled q ≠ 0
  · exact (Scheduler.ingestTokens_record (hspec.ingest q hin.1 hin.2)).1.sameParams
  · rw [hspec.same q hin]
    exact ⟨rfl, rfl, rfl⟩

end EngineCore

namespace System

open Request

variable {target : List TokenId → TokenId} {answers : List TokenId → TokenId → Prop}
  {cfg : Config} {sys sys' : System} {operation : Operation} {operations : List Operation}

/-- What has been sent for each request is what decoding with the target yields. -/
structure Lossless (target : List TokenId → TokenId) (cfg : Config) (sys : System) : Prop where
  booked : sys.Booked fun context token => token = target context
  live : ∀ q ∈ sys.engine.scheduler.requests,
    (sys.engine.scheduler.request q).Decoded target cfg.maxModelLen (sys.emitted q)
  finished : ∀ q ∈ sys.added, q ∉ sys.engine.scheduler.requests →
    (sys.engine.scheduler.request q).Halted target cfg.maxModelLen (sys.emitted q)
  silent : ∀ q ∉ sys.added, sys.emitted q = []

theorem Halted.sameParams {maxModelLen : ℕ} {r r' : Request} {tokens : List TokenId}
    (h : r.Halted target maxModelLen tokens) (hsame : SameParams r r') :
    r'.Halted target maxModelLen tokens := by
  have hstops := hsame.stopsAt maxModelLen
  refine ⟨?_, h.ne_nil, ?_⟩
  · rw [hstops, hsame.promptTokenIds]
    exact h.decodes
  · rw [hstops, hsame.promptTokenIds]
    exact h.stops

theorem emitted_append (outputs outputs' : List EngineCoreOutput) (e : EngineCore)
    (added : List ReqId) (q : ReqId) :
    (⟨e, added, outputs ++ outputs'⟩ : System).emitted q =
      (⟨e, added, outputs⟩ : System).emitted q ++
        (outputs'.filter (·.requestId = q)).flatMap (·.newTokenIds) := by
  rw [emitted, emitted, List.filter_append, List.flatMap_append]

theorem init_lossless (target : List TokenId → TokenId) (cfg : Config) :
    (init cfg).Lossless target cfg where
  booked := init_booked _ cfg
  live q hq := by cases hq
  finished q hq := by cases hq
  silent _ _ := rfl

theorem verify_lossless {outputs : List EngineCoreOutput} {e : EngineCore}
    (h : sys.Lossless target cfg) (hphase : sys.engine.phase = .idle)
    (hverify : sys.engine.verify cfg = .ok (outputs, e))
    (hbooked : System.Booked (fun context token => token = target context)
      ⟨e, sys.added, sys.outputs ++ outputs⟩) :
    System.Lossless target cfg ⟨e, sys.added, sys.outputs ++ outputs⟩ := by
  have hcont := h.booked.placed.contained
  obtain ⟨-, -, hlanding⟩ := EngineCore.verify_landing hcont hverify
  have hgone : ∀ q ∉ sys.engine.scheduler.requests,
      e.scheduler.request q = sys.engine.scheduler.request q ∧
      (⟨e, sys.added, sys.outputs ++ outputs⟩ : System).emitted q = sys.emitted q := by
    intro q hq
    obtain ⟨hrequest, houtputs⟩ := EngineCore.verify_gone hcont hverify hq
    refine ⟨hrequest, ?_⟩
    rw [emitted_append, houtputs]
    exact List.append_nil _
  -- a request that was live either goes on or has just stopped
  have hone : ∀ q ∈ sys.engine.scheduler.requests,
      (q ∈ e.scheduler.requests → (e.scheduler.request q).Decoded target cfg.maxModelLen
        ((⟨e, sys.added, sys.outputs ++ outputs⟩ : System).emitted q)) ∧
      (q ∉ e.scheduler.requests → (e.scheduler.request q).Halted target cfg.maxModelLen
        ((⟨e, sys.added, sys.outputs ++ outputs⟩ : System).emitted q)) := by
    intro q hq
    have hdec := h.live q hq
    rw [emitted_append]
    cases hlanding q hq with
    | absent hentries hrequest hlive houtputs =>
        rw [houtputs, hrequest]
        refine ⟨fun _ => ?_, fun hnot => absurd hlive hnot⟩
        rw [List.flatMap_nil, List.append_nil]
        exact hdec
    | lands batch stopped kept r hentries hland hrequest hlive houtputs =>
        obtain ⟨verified, drafts, stale, draining, hflight, -⟩ := h.booked.aloft.flights q hq
        rw [EngineCore.pending_of_idle hphase, hentries] at hflight
        have hsends := hflight.sends hdec hland
        rw [houtputs, hrequest]
        exact ⟨fun hlive' => hsends.goesOn (hlive.mp hlive'), fun hnot =>
          hsends.stops (Bool.eq_true_of_not_eq_false (hlive.not.mp hnot))⟩
  refine ⟨hbooked, fun q hq => ?_, fun q hadded hq => ?_, fun q hadded => ?_⟩
  · exact (hone q ((EngineCore.verify_shrinks hverify).1 hq)).1 hq
  · by_cases hbefore : q ∈ sys.engine.scheduler.requests
    · exact (hone q hbefore).2 hq
    · obtain ⟨hrequest, hemitted⟩ := hgone q hbefore
      rw [hrequest, hemitted]
      exact h.finished q hadded hbefore
  · rw [(hgone q fun hq => hadded (h.booked.placed.added hq)).2]
    exact h.silent q hadded

theorem UndeniedStep.lossless
    (hstep : UndeniedStep (fun context token => token = target context) cfg sys operation sys')
    (h : sys.Lossless target cfg) : sys'.Lossless target cfg := by
  have hbooked := hstep.booked h.booked
  have hcont := h.booked.placed.contained
  have haloft := h.booked.aloft
  obtain ⟨hstep, hnotAbort, -, -⟩ := hstep
  cases hstep with
  | addRequest reqId promptTokenIds samplingParams eosTokenId hphase hfresh hadd =>
      unfold Scheduler.addRequest at hadd
      split_ifs at hadd
      cases hadd
      refine ⟨hbooked, fun q hq => ?_, fun q hadded hq => ?_, fun q hadded => ?_⟩
      · change Request.Decoded target cfg.maxModelLen
          (Function.update sys.engine.scheduler.request reqId _ q) (sys.emitted q)
        by_cases hreq : q = reqId
        · rw [hreq, Function.update_self, h.silent reqId hfresh]
          exact init_decoded _ _ _ _ _
        · rw [Function.update_of_ne hreq]
          exact h.live q ((mem_setAdd.mp hq).resolve_right hreq)
      · have hne : q ≠ reqId := fun heq => hq (mem_setAdd.mpr (.inr heq))
        change Request.Halted target cfg.maxModelLen
          (Function.update sys.engine.scheduler.request reqId _ q) (sys.emitted q)
        rw [Function.update_of_ne hne]
        exact h.finished q ((List.mem_cons.mp hadded).resolve_left hne)
          fun hmem => hq (mem_setAdd.mpr (.inl hmem))
      · exact h.silent q fun hmem => hadded (List.mem_cons_of_mem _ hmem)
  | compileGrammar reqId =>
      have hsame : ∀ q, Persists (sys.engine.scheduler.request q)
          ((sys.engine.compileGrammar reqId).scheduler.request q) := by
        intro q
        by_cases hq : q = reqId
        · subst hq
          simp only [EngineCore.compileGrammar, Scheduler.setRequest_request, Function.update_self]
          exact ⟨⟨rfl, rfl, rfl⟩, rfl, rfl, fun hdrop _ => hdrop⟩
        · simp only [EngineCore.compileGrammar, Scheduler.setRequest_request,
            Function.update_of_ne hq]
          exact .refl _
      exact ⟨hbooked, fun q hq => (h.live q hq).persists (hsame q), fun q hadded hq =>
        Halted.sameParams (h.finished q hadded hq) (hsame q).toSameParams, h.silent⟩
  | finishRequests => exact absurd hnotAbort (by simp [Operation.isAbort])
  | verify hphase hverify => exact verify_lossless h hphase hverify hbooked
  | schedule execute hphase hschedule =>
      obtain ⟨st, out, hlaunch⟩ := EngineCore.schedule_launch hcont hschedule
      refine ⟨hbooked, fun q hq => ?_, fun q hadded hq => ?_, h.silent⟩
      · have hlive := hlaunch.requests ▸ hq
        exact (h.live q hlive).persists (hlaunch.persists haloft hcont hphase hlive)
      · have hgone : q ∉ sys.engine.scheduler.requests := hlaunch.requests ▸ hq
        exact Halted.sameParams (h.finished q hadded hgone)
          (hlaunch.gone haloft.unhashed hcont hgone)
  | ingest hphase hingest =>
      obtain ⟨-, -, -, hspec⟩ := EngineCore.ingest_contained hphase hcont hingest
      refine ⟨hbooked, fun q hq => ?_, fun q hadded hq => ?_, h.silent⟩
      · rw [hspec.eq] at hq
        exact EngineCore.ingest_decoded haloft hcont hphase hingest hq (h.live q hq)
      · rw [hspec.eq] at hq
        exact Halted.sameParams (h.finished q hadded hq)
          (EngineCore.ingest_sameParams hcont hphase hingest q)

theorem run_lossless
    (hrun : Transition.Run (UndeniedStep (fun context token => token = target context) cfg)
      (init cfg) operations sys) : sys.Lossless target cfg :=
  hrun.invariant (init_lossless target cfg) fun _ _ _ h hstep => hstep.lossless h

/-! ## The requests of a run -/

theorem UndeniedStep.sameParams {q : ReqId}
    (hstep : UndeniedStep answers cfg sys operation sys') (h : sys.Booked answers)
    (hadded : q ∈ sys.added) : q ∈ sys'.added ∧
      SameParams (sys.engine.scheduler.request q) (sys'.engine.scheduler.request q) := by
  have hcont := h.placed.contained
  obtain ⟨hstep, hnotAbort, -, -⟩ := hstep
  cases hstep with
  | addRequest reqId promptTokenIds samplingParams eosTokenId hphase hfresh hadd =>
      unfold Scheduler.addRequest at hadd
      split_ifs at hadd
      cases hadd
      have hne : q ≠ reqId := fun heq => hfresh (heq ▸ hadded)
      refine ⟨List.mem_cons_of_mem _ hadded, ?_⟩
      change SameParams _ (Function.update sys.engine.scheduler.request reqId _ q)
      rw [Function.update_of_ne hne]
      exact ⟨rfl, rfl, rfl⟩
  | compileGrammar reqId =>
      refine ⟨hadded, ?_⟩
      by_cases hq : q = reqId
      · subst hq
        simp only [EngineCore.compileGrammar, Scheduler.setRequest_request, Function.update_self]
        exact ⟨rfl, rfl, rfl⟩
      · simp only [EngineCore.compileGrammar, Scheduler.setRequest_request, Function.update_of_ne hq]
        exact ⟨rfl, rfl, rfl⟩
  | finishRequests => exact absurd hnotAbort (by simp [Operation.isAbort])
  | verify hphase hverify =>
      refine ⟨hadded, ?_⟩
      by_cases hq : q ∈ sys.engine.scheduler.requests
      · cases (EngineCore.verify_landing hcont hverify).2.2 q hq with
        | absent _ hrequest =>
            rw [hrequest]
            exact ⟨rfl, rfl, rfl⟩
        | lands batch stopped kept r _ hland hrequest =>
            rw [hrequest]
            have hlanded : SameParams (sys.engine.scheduler.request q)
              (sys.engine.scheduler.request q).landed := ⟨rfl, rfl, rfl⟩
            exact hlanded.trans (Scheduler.verifyTokens_record hland).1.sameParams
      · rw [(EngineCore.verify_gone hcont hverify hq).1]
        exact ⟨rfl, rfl, rfl⟩
  | schedule execute hphase hschedule =>
      refine ⟨hadded, ?_⟩
      obtain ⟨st, out, hlaunch⟩ := EngineCore.schedule_launch hcont hschedule
      by_cases hq : q ∈ sys.engine.scheduler.requests
      · exact (hlaunch.persists h.aloft hcont hphase hq).toSameParams
      · exact hlaunch.gone h.aloft.unhashed hcont hq
  | ingest hphase hingest =>
      exact ⟨hadded, EngineCore.ingest_sameParams hcont hphase hingest q⟩

/-- A request keeps what it has been asked for with. -/
theorem run_requested {q : ReqId} {promptTokenIds : List TokenId} {samplingParams : SamplingParams}
    {eosTokenId : Option TokenId}
    (hrun : Transition.Run (UndeniedStep answers cfg) (init cfg) operations sys)
    (hadd : .addRequest q promptTokenIds samplingParams eosTokenId ∈ operations) :
    q ∈ sys.added ∧ SameParams (.init promptTokenIds samplingParams eosTokenId)
      (sys.engine.scheduler.request q) := by
  induction hrun with
  | nil => cases hadd
  | snoc hrun hstep ih =>
      rcases List.mem_append.mp hadd with hadd | hlast
      · obtain ⟨hadded, hsame⟩ := ih hadd
        obtain ⟨hadded', hsame'⟩ := hstep.sameParams (run_booked hrun) hadded
        exact ⟨hadded', hsame.trans hsame'⟩
      · obtain rfl := List.mem_singleton.mp hlast
        obtain ⟨hstep, -, -, -⟩ := hstep
        cases hstep with
        | addRequest _ _ _ _ _ _ hadd =>
            unfold Scheduler.addRequest at hadd
            split_ifs at hadd
            cases hadd
            refine ⟨List.mem_cons_self, ?_⟩
            simp only [Scheduler.setRequest_request, Function.update_self]
            exact ⟨rfl, rfl, rfl⟩

/-- What has been sent for a request are the first tokens of plain decoding, all of them once the
request has left. -/
structure LosslessSpec (target : List TokenId → TokenId) (stops : List TokenId → Bool)
    (promptTokenIds : List TokenId) (sys : System) (q : ReqId) : Prop where
  decodes : sys.emitted q = greedyDecode target stops promptTokenIds (sys.emitted q).length
  finished : q ∉ sys.engine.scheduler.requests ↔
    sys.emitted q ≠ [] ∧ stops (promptTokenIds ++ sys.emitted q) = true

/-- After a rejection the drafts are right, and a drop ends both requests. -/
def finishedTwice : List Operation :=
  rejectedOnce ++ iteration (constantExecutor 3 3) ++ iteration (constantExecutor 3 3) ++
    iteration (constantExecutor 3 3) ++ [.verify, .schedule (constantExecutor 3 3), .verify]

end System

end Spexis
