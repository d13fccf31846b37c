import Spexis.Library.DraftQueue
import Spexis.Verification.Drafts
import Spexis.Verification.Turns

/-! # The batches in flight of one request

The batches in flight of a request are some that yield no token, then some whose tokens belong to
drafts it has given up, then one for each of its drafts. -/

namespace Spexis

open Python

namespace InFlight

/-- The tokens the request had when the batch was scheduled. -/
def context (batch : InFlight) (q : ReqId) : List TokenId :=
  (batch.request q).allTokenIds

/-- The target tokens the batch yields for the request. -/
def answer (batch : InFlight) (q : ReqId) : List TokenId :=
  batch.trueOutput.sampledTokenIds q

end InFlight

/-- The two sequences differ at a position that both have. -/
def Diverges {α : Type*} (xs ys : List α) : Prop :=
  ∃ (k : ℕ) (x y : α), xs[k]? = some x ∧ ys[k]? = some y ∧ x ≠ y

theorem Diverges.append {α : Type*} {xs ys : List α} (h : Diverges xs ys) (zs : List α) :
    Diverges xs (ys ++ zs) := by
  obtain ⟨k, x, y, hx, hy, hne⟩ := h
  have hk := (List.getElem?_eq_some_iff.mp hy).1
  exact ⟨k, x, y, hx, by rw [List.getElem?_append_left hk, hy], hne⟩

theorem Diverges.not_isPrefix {α : Type*} {xs ys : List α} (h : Diverges xs ys) : ¬ xs <+: ys := by
  obtain ⟨k, x, y, hx, hy, hne⟩ := h
  rintro ⟨zs, rfl⟩
  have hk := (List.getElem?_eq_some_iff.mp hx).1
  rw [List.getElem?_append_left hk, hx] at hy
  exact hne (Option.some.inj hy)

namespace Request

/-- The batches in flight of a request with the given verified tokens and drafts, of which the last
one is still to come if it is `pending`. The target tokens are related to what they have been
computed from by `answers`. -/
structure Flight (answers : List TokenId → TokenId → Prop) (q : ReqId) (r : Request)
    (batches : List InFlight) (verified drafts : List TokenId) (stale : ℕ)
    (draining pending : Bool) : Prop where
  tracks : r.Tracks verified drafts stale draining
  settled : stale = 0 → r.specResult = some false → drafts = [] ∧ pending = false
  answered : stale ≠ 0 → r.numPromptTokens < verified.length
  launches : pending = true → draining = false
  batches : ∃ silent given valid : List InFlight, batches = silent ++ given ++ valid ∧
    (∀ batch ∈ silent, batch.answer q = []) ∧ (silent ≠ [] → stale = 0) ∧ given.length = stale ∧
    (∀ batch ∈ given, Diverges (batch.context q) verified ∧ ∃ token, batch.answer q = [token]) ∧
    List.Forall₂ (fun batch context => batch.context q = context ∧
        ∃ token, batch.answer q = [token] ∧ answers context token)
      valid (DraftQueue.contexts verified drafts ++
        if pending then [verified ++ drafts] else [])

variable {answers : List TokenId → TokenId → Prop} {q : ReqId} {r r' : Request}
  {batches : List InFlight} {batch : InFlight} {verified drafts : List TokenId} {stale : ℕ}
  {draining pending : Bool} {token draft : TokenId}

/-- What the verification of the oldest batch makes of the request. -/
inductive Landed (answers : List TokenId → TokenId → Prop) (q : ReqId) (r : Request)
    (batch : InFlight) (batches : List InFlight) :
    List TokenId → List TokenId → ℕ → Bool → Request → Prop where
  | silent {verified drafts : List TokenId} {stale : ℕ} {draining : Bool}
      (hanswer : batch.answer q = [])
      (h : Flight answers q r.landed batches verified drafts stale draining false) :
      Landed answers q r batch batches verified drafts stale draining r.landed
  | flushed {verified drafts : List TokenId} {stale : ℕ} {draining : Bool} (token : TokenId)
      (hanswer : batch.answer q = [token])
      (h : Flight answers q (r.landed.flushed ((stale + 1 : ℕ) : ℤ)) batches verified drafts stale
        draining false) :
      Landed answers q r batch batches verified drafts (stale + 1) draining
        (r.landed.flushed ((stale + 1 : ℕ) : ℤ))
  | drained {verified : List TokenId} (draft token : TokenId) (hanswer : batch.answer q = [token])
      (htarget : answers verified token)
      (h : Flight answers q (r.landed.decrDropLen.replaceLast token).endDrop batches
        (verified ++ [token]) [] 0 false false) :
      Landed answers q r batch batches verified [draft] 0 true
        (r.landed.decrDropLen.replaceLast token).endDrop
  | accepted {verified drafts : List TokenId} {draining : Bool} (token : TokenId)
      (hanswer : batch.answer q = [token]) (htarget : answers verified token)
      (hmore : draining = true → drafts ≠ [])
      (h : Flight answers q r.landed.ticked.acceptDraft batches (verified ++ [token]) drafts 0
        draining false) :
      Landed answers q r batch batches verified (token :: drafts) 0 draining
        r.landed.ticked.acceptDraft
  | rejected {verified drafts : List TokenId} {draining : Bool} (draft token : TokenId)
      (hanswer : batch.answer q = [token]) (htarget : answers verified token) (hne : draft ≠ token)
      (hverify : r.landed.verifyOutputTokenIds token = .ok (1, r.landed.ticked.rejectDraft token))
      (hcomputed : r.landed.Computed → (r.landed.ticked.rejectDraft token).Computed)
      (h : Flight answers q (r.landed.ticked.rejectDraft token) batches (verified ++ [token]) []
        drafts.length false false) :
      Landed answers q r batch batches verified (draft :: drafts) 0 draining
        (r.landed.ticked.rejectDraft token)

/-! ## What the bookkeeping reads -/

/-- The two requests agree in their tokens and in the flags that count them. -/
structure SameDrafts (r r' : Request) : Prop where
  allTokenIds : r'.allTokenIds = r.allTokenIds
  outputTokenIds : r'.outputTokenIds = r.outputTokenIds
  promptTokenIds : r'.promptTokenIds = r.promptTokenIds
  specTokenIds : r'.specTokenIds = r.specTokenIds
  spLen : r'.spLen = r.spLen
  specResult : r'.specResult = r.specResult
  flushLen : r'.flushLen = r.flushLen
  confidenceDropped : r'.confidenceDropped = r.confidenceDropped
  stopDropped : r'.stopDropped = r.stopDropped
  dropLen : r'.dropLen = r.dropLen

theorem SameDrafts.isDropped (h : SameDrafts r r') : r'.IsDropped ↔ r.IsDropped := by
  rw [IsDropped, IsDropped, h.confidenceDropped, h.stopDropped]

theorem SameDrafts.numTokens (h : SameDrafts r r') : r'.numTokens = r.numTokens := by
  rw [Request.numTokens, Request.numTokens, h.allTokenIds]

theorem SameDrafts.numPromptTokens (h : SameDrafts r r') :
    r'.numPromptTokens = r.numPromptTokens := by
  rw [Request.numPromptTokens, Request.numPromptTokens, h.promptTokenIds]

theorem Tracks.congr (h : r.Tracks verified drafts stale draining) (hsame : SameDrafts r r') :
    r'.Tracks verified drafts stale draining where
  tokens := hsame.allTokenIds.trans h.tokens
  output := by
    rw [hsame.allTokenIds, hsame.promptTokenIds, hsame.outputTokenIds]
    exact h.output
  prompt := hsame.numPromptTokens ▸ h.prompt
  specTokenIds := hsame.specTokenIds.trans h.specTokenIds
  spLen := hsame.spLen.trans h.spLen
  flushing hstale := hsame.specResult.trans (h.flushing hstale)
  flushLen hfalse := hsame.flushLen.trans (h.flushLen (hsame.specResult.symm.trans hfalse))
  isDropped := h.isDropped.trans hsame.isDropped.symm
  dropLen hdrain := hsame.dropLen.trans (h.dropLen hdrain)

theorem landed_sameDrafts (r : Request) : SameDrafts r r.landed :=
  ⟨rfl, rfl, rfl, rfl, rfl, rfl, rfl, rfl, rfl, rfl⟩

theorem markForPreemption_sameDrafts (r : Request) : SameDrafts r r.markForPreemption :=
  ⟨rfl, rfl, rfl, rfl, rfl, rfl, rfl, rfl, rfl, rfl⟩

theorem built_advance_sameDrafts (r : Request) (cached : Bool) (n : ℕ) :
    SameDrafts r ((r.built cached).advance n) := by
  unfold built correctionSent
  split_ifs <;> exact ⟨rfl, rfl, rfl, rfl, rfl, rfl, rfl, rfl, rfl, rfl⟩

theorem Flight.congr (h : Flight answers q r batches verified drafts stale draining pending)
    (hsame : SameDrafts r r') :
    Flight answers q r' batches verified drafts stale draining pending where
  tracks := h.tracks.congr hsame
  settled hstale hfalse := h.settled hstale (hsame.specResult.symm.trans hfalse)
  answered hstale := hsame.numPromptTokens ▸ h.answered hstale
  launches := h.launches
  batches := h.batches

/-! ## Verification -/

theorem isPrefix_of_mem_contexts {context : List TokenId}
    (h : context ∈ DraftQueue.contexts verified drafts) : verified <+: context := by
  induction drafts generalizing verified with
  | nil => cases h
  | cons draft drafts ih =>
      rcases List.mem_cons.mp h with rfl | h
      · exact List.prefix_rfl
      · exact (List.prefix_append _ _).trans (ih h)

theorem diverges_of_isPrefix {context : List TokenId} (h : verified ++ [draft] <+: context)
    (hne : draft ≠ token) : Diverges context (verified ++ [token]) := by
  refine ⟨verified.length, draft, token, ?_, by simp, hne⟩
  have hget : (verified ++ [draft])[verified.length]? = some draft := by simp
  obtain ⟨zs, rfl⟩ := h
  rw [List.getElem?_append_left (by simp)]
  exact hget

theorem exists_of_forall₂ {α β : Type*} {R : α → β → Prop} {xs : List α} {ys : List β} {x : α}
    (h : List.Forall₂ R xs ys) (hx : x ∈ xs) : ∃ y ∈ ys, R x y := by
  induction h with
  | nil => cases hx
  | cons hR _ ih =>
      rcases List.mem_cons.mp hx with rfl | hx
      · exact ⟨_, List.mem_cons_self, hR⟩
      · obtain ⟨y, hy, hR'⟩ := ih hx
        exact ⟨y, List.mem_cons_of_mem _ hy, hR'⟩

/-- A request that goes on after the verification of one token. -/
theorem verifyTokens_singleton {cfg : Config} {tokens : List TokenId}
    (h : Scheduler.verifyTokens cfg r [token] = .ok (false, tokens, r')) :
    ∃ code, r.verifyOutputTokenIds token = .ok (code, r') := by
  simp only [Scheduler.verifyTokens, bind_eq_ok, Prod.exists] at h
  obtain ⟨code, r₁, hverify, stopped, r₂, hcheck, h⟩ := h
  cases stopped with
  | true => simp at h
  | false =>
      simp only [Bool.false_eq_true, ite_false, bind_eq_ok, pure_eq_ok, Prod.mk.injEq,
        Except.ok.injEq, Prod.exists] at h
      obtain ⟨_, _, _, ⟨rfl, rfl, rfl⟩, -, -, rfl⟩ := h
      obtain rfl := (checkStopFromValidation_eq_ok hcheck).1 rfl
      exact ⟨code, hverify⟩

/-- A batch that yields no token. -/
theorem Flight.land_silent {cfg : Config} {tokens : List TokenId}
    (h : Flight answers q r (batch :: batches) verified drafts stale draining false)
    (hanswer : batch.answer q = [])
    (hverify : Scheduler.verifyTokens cfg r.landed (batch.answer q) = .ok (false, tokens, r')) :
    Landed answers q r batch batches verified drafts stale draining r' := by
  obtain ⟨silent, given, valid, heq, hsilent, hidle, hlength, hgiven, hvalid⟩ := h.batches
  rw [hanswer] at hverify
  obtain ⟨-, -, rfl⟩ := by simpa [Scheduler.verifyTokens] using hverify
  refine .silent hanswer ⟨h.tracks.congr (landed_sameDrafts r), h.settled, h.answered, h.launches, ?_⟩
  cases silent with
  | cons first silent =>
      obtain ⟨rfl, rfl⟩ := List.cons.inj heq
      exact ⟨silent, given, valid, rfl, fun other hother => hsilent other (.tail _ hother),
        fun _ => hidle (List.cons_ne_nil _ _), hlength, hgiven, hvalid⟩
  | nil =>
      -- the batches of the other two kinds yield a token each
      exfalso
      cases given with
      | cons first given =>
          obtain ⟨rfl, rfl⟩ := List.cons.inj heq
          obtain ⟨-, token, htoken⟩ := hgiven batch List.mem_cons_self
          rw [hanswer] at htoken
          cases htoken
      | nil =>
          obtain rfl : batch :: batches = valid := heq
          obtain ⟨_, -, -, token, htoken, -⟩ := exists_of_forall₂ hvalid List.mem_cons_self
          rw [hanswer] at htoken
          cases htoken

/-- The oldest batch answers a draft that the request has given up. -/
theorem Flight.land_stale {cfg : Config} {tokens : List TokenId}
    (h : Flight answers q r (batch :: batches) verified drafts (stale + 1) draining false)
    (hverify : Scheduler.verifyTokens cfg r.landed (batch.answer q) = .ok (false, tokens, r')) :
    Landed answers q r batch batches verified drafts (stale + 1) draining r' := by
  obtain ⟨silent, given, valid, heq, hsilent, hidle, hlength, hgiven, hvalid⟩ := h.batches
  obtain rfl : silent = [] := by
    by_contra hne
    exact Nat.succ_ne_zero stale (hidle hne)
  cases given with
  | nil => cases hlength
  | cons first given =>
      obtain ⟨rfl, rfl⟩ := List.cons.inj heq
      obtain ⟨-, token, hanswer⟩ := hgiven batch List.mem_cons_self
      obtain ⟨hcode, htracks⟩ := (h.tracks.congr (landed_sameDrafts r)).verify_stale token
      rw [hanswer] at hverify
      obtain ⟨code, hverify⟩ := verifyTokens_singleton hverify
      rw [hcode] at hverify
      obtain ⟨-, rfl⟩ := Prod.mk.inj (Except.ok.inj hverify)
      refine .flushed token hanswer ⟨htracks, fun hzero hfalse => ?_,
        fun _ => h.answered (Nat.succ_ne_zero stale), h.launches, [], given, valid, rfl, by simp,
        by simp, Nat.succ.inj hlength, fun other hother => hgiven other (.tail _ hother), hvalid⟩
      simp [flushed, hzero] at hfalse

/-- The batches of a request that has no answers to ignore, from the first one that answers. -/
theorem Flight.valid_batches
    (h : Flight answers q r (batch :: batches) verified drafts 0 draining pending)
    (hanswer : batch.answer q ≠ []) :
    List.Forall₂ (fun batch context => batch.context q = context ∧
        ∃ token, batch.answer q = [token] ∧ answers context token)
      (batch :: batches) (DraftQueue.contexts verified drafts ++
        if pending then [verified ++ drafts] else []) := by
  obtain ⟨silent, given, valid, heq, hsilent, -, hlength, -, hvalid⟩ := h.batches
  obtain rfl := List.length_eq_zero_iff.mp hlength
  cases silent with
  | cons first silent =>
      obtain ⟨rfl, rfl⟩ := List.cons.inj heq
      exact absurd (hsilent batch List.mem_cons_self) hanswer
  | nil =>
      obtain rfl : batch :: batches = valid := by simpa using heq
      exact hvalid

/-- The oldest batch answers the oldest draft. -/
theorem Flight.land_draft {cfg : Config} {tokens : List TokenId}
    (h : Flight answers q r (batch :: batches) verified drafts 0 draining false)
    (hsome : batch.answer q ≠ [])
    (hverify : Scheduler.verifyTokens cfg r.landed (batch.answer q) = .ok (false, tokens, r')) :
    Landed answers q r batch batches verified drafts 0 draining r' := by
  have hvalid := h.valid_batches hsome
  have htracks := h.tracks.congr (landed_sameDrafts r)
  simp only [Bool.false_eq_true, ite_false, List.append_nil] at hvalid
  cases drafts with
  | nil => cases hvalid
  | cons draft drafts =>
      rw [DraftQueue.contexts] at hvalid
      obtain ⟨⟨hcontext, token, hanswer, htarget⟩, hrest⟩ := List.forall₂_cons.mp hvalid
      have hspec : r.specResult ≠ some false := fun hfalse => by cases (h.settled rfl hfalse).1
      rw [hanswer] at hverify
      obtain ⟨code, hverify⟩ := verifyTokens_singleton hverify
      by_cases hlast : draining = true ∧ drafts = []
      · obtain ⟨rfl, rfl⟩ := hlast
        obtain ⟨hcode, htracks'⟩ := htracks.verify_drained hspec token
        rw [hcode] at hverify
        obtain ⟨-, rfl⟩ := Prod.mk.inj (Except.ok.inj hverify)
        obtain rfl : batches = [] := List.forall₂_nil_right_iff.mp hrest
        refine .drained draft token hanswer htarget ⟨htracks', fun _ _ => ⟨rfl, rfl⟩, ?_, ?_,
          [], [], [], rfl, ?_, ?_, rfl, ?_, .nil⟩ <;> simp
      · have hmore : draining = true → drafts ≠ [] := fun hdrain hnil => hlast ⟨hdrain, hnil⟩
        by_cases hdraft : draft = token
        · subst hdraft
          obtain ⟨hcode, htracks'⟩ := htracks.verify_accepted hspec hmore
          rw [hcode] at hverify
          obtain ⟨-, rfl⟩ := Prod.mk.inj (Except.ok.inj hverify)
          refine .accepted draft hanswer htarget hmore ⟨htracks', fun _ hfalse => ?_, ?_, h.launches,
            [], [], batches, rfl, ?_, ?_, rfl, ?_, by simpa using hrest⟩
          · cases hfalse
          all_goals simp
        · obtain ⟨hcode, htracks', hcomputed⟩ := htracks.verify_rejected hspec hmore hdraft
          have hcode' := hcode
          rw [hverify] at hcode'
          obtain ⟨-, rfl⟩ := Prod.mk.inj (Except.ok.inj hcode')
          refine .rejected draft token hanswer htarget hdraft hcode hcomputed ⟨htracks',
            fun _ _ => ⟨rfl, rfl⟩, fun _ => ?_, ?_, [], batches, [], by simp, ?_, ?_,
            by simpa using hrest.length_eq, fun other hother => ?_, .nil⟩
          · rw [List.length_append, List.length_singleton, ticked_eq]
            exact Nat.lt_succ_of_le htracks.prompt
          · simp
          · simp
          · simp
          · obtain ⟨context, hmem, hcontext', token', hanswer', -⟩ := exists_of_forall₂ hrest hother
            rw [hcontext']
            exact ⟨diverges_of_isPrefix (isPrefix_of_mem_contexts hmem) hdraft, token', hanswer'⟩

/-- The oldest batch has been verified. -/
theorem Flight.land {cfg : Config} {tokens : List TokenId}
    (h : Flight answers q r (batch :: batches) verified drafts stale draining false)
    (hverify : Scheduler.verifyTokens cfg r.landed (batch.answer q) = .ok (false, tokens, r')) :
    Landed answers q r batch batches verified drafts stale draining r' := by
  by_cases hanswer : batch.answer q = []
  · exact h.land_silent hanswer hverify
  · cases stale with
    | succ stale => exact h.land_stale hverify
    | zero => exact h.land_draft hanswer hverify

/-! ## Scheduling and drafting -/

/-- A request without drafts or answers to ignore waits for no token. -/
theorem Flight.silent (h : Flight answers q r batches verified [] 0 draining false) :
    ∀ batch ∈ batches, batch.answer q = [] := by
  obtain ⟨silent, given, valid, rfl, hsilent, -, hlength, -, hvalid⟩ := h.batches
  obtain rfl := List.length_eq_zero_iff.mp hlength
  obtain rfl := List.forall₂_nil_right_iff.mp hvalid
  simpa using hsilent

/-- A batch that computes known tokens only. -/
theorem Flight.launch_silent (h : Flight answers q r batches verified [] 0 draining false)
    (hanswer : batch.answer q = []) (hsame : SameDrafts r r') :
    Flight answers q r' (batches ++ [batch]) verified [] 0 draining false := by
  have h' := h.congr hsame
  refine ⟨h'.tracks, h'.settled, h'.answered, h'.launches, batches ++ [batch], [], [], by simp,
    fun other hother => ?_, fun _ => rfl, rfl, by simp, .nil⟩
  rcases List.mem_append.mp hother with hother | hother
  · exact h.silent other hother
  · rw [List.mem_singleton.mp hother, hanswer]

/-- A batch that yields the next token. -/
theorem Flight.launch (h : Flight answers q r batches verified drafts stale false false)
    (hopen : r.specResult = some false → stale ≠ 0) (hcontext : batch.context q = verified ++ drafts)
    (hanswer : batch.answer q = [token]) (htarget : answers (verified ++ drafts) token)
    (hsame : SameDrafts r r') :
    Flight answers q r' (batches ++ [batch]) verified drafts stale false true := by
  have h' := h.congr hsame
  obtain ⟨silent, given, valid, rfl, hsilent, hidle, hlength, hgiven, hvalid⟩ := h.batches
  refine ⟨h'.tracks, fun hzero hfalse => ?_, h'.answered, fun _ => rfl, silent, given,
    valid ++ [batch], by simp, hsilent, hidle, hlength, hgiven, ?_⟩
  · exact absurd hzero (hopen (hsame.specResult.symm.trans hfalse))
  · simp only [Bool.false_eq_true, ite_false, List.append_nil, ite_true] at hvalid ⊢
    exact List.rel_append hvalid (.cons ⟨hcontext, token, hanswer, htarget⟩ .nil)

/-- The draft of the youngest batch has come. -/
theorem Flight.ingest (h : Flight answers q r batches verified drafts stale draining true)
    (cfg : Config) (predictedLenProb : List ℚ) (confidence : ℚ) (token : TokenId) :
    ∃ r', Scheduler.ingestTokens cfg predictedLenProb [confidence] [token] 0 r = .ok r' ∧
      Flight answers q r' batches verified (drafts ++ [token]) stale
        (r.stopsAt cfg.maxModelLen (verified ++ drafts ++ [token])) false ∧
      r'.numComputedTokens = r.numComputedTokens := by
  obtain rfl := h.launches rfl
  obtain ⟨r', hingest, htracks, hcomputed, -, hspec, -⟩ :=
    h.tracks.ingestTokens cfg predictedLenProb confidence token
  have hprompt : r'.numPromptTokens = r.numPromptTokens := by
    obtain ⟨hrecord, -⟩ := Scheduler.ingestTokens_record hingest
    rw [numPromptTokens, numPromptTokens, hrecord.promptTokenIds]
  refine ⟨r', hingest, ⟨htracks, fun hzero hfalse => ?_, fun hne => hprompt ▸ h.answered hne,
    (fun hfalse => by cases hfalse), ?_⟩, hcomputed⟩
  · cases (h.settled hzero (hspec.symm.trans hfalse)).2
  · obtain ⟨silent, given, valid, heq, hsilent, hidle, hlength, hgiven, hvalid⟩ := h.batches
    refine ⟨silent, given, valid, heq, hsilent, hidle, hlength, hgiven, ?_⟩
    rw [DraftQueue.contexts_append]
    simpa using hvalid

/-- The request waits for its drafts. -/
theorem Flight.drop (h : Flight answers q r batches verified drafts stale draining false) :
    Flight answers q { r with confidenceDropped := true, dropLen := r.spLen } batches verified
      drafts stale true false :=
  ⟨h.tracks.confidenceDrop, h.settled, h.answered, by simp, h.batches⟩

/-- With nothing in flight there is nothing to wait for. -/
theorem Flight.idle (h : Flight answers q r [] verified drafts stale draining false) :
    drafts = [] ∧ stale = 0 := by
  obtain ⟨silent, given, valid, heq, -, -, hlength, -, hvalid⟩ := h.batches
  obtain ⟨hfront, rfl⟩ := List.append_eq_nil_iff.mp heq.symm
  obtain ⟨rfl, rfl⟩ := List.append_eq_nil_iff.mp hfront
  refine ⟨?_, hlength.symm⟩
  have hcontexts := hvalid.length_eq
  simpa using hcontexts.symm

theorem Flight.reinitialize (h : Flight answers q r [] verified drafts stale draining false) :
    Flight answers q r.reinitialize [] verified [] 0 false false := by
  obtain ⟨rfl, rfl⟩ := h.idle
  refine ⟨⟨h.tracks.tokens, h.tracks.output, h.tracks.prompt, h.tracks.specTokenIds, rfl, ?_, nofun,
    ?_, nofun⟩, fun _ _ => ⟨rfl, rfl⟩, ?_, nofun, [], [], [], rfl, ?_, ?_, rfl, ?_, .nil⟩ <;>
    simp [Request.reinitialize, IsDropped]

end Request

end Spexis
