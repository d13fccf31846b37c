import Spexis.Library.DraftQueue
import Spexis.Verification.Drafts

/-! # One request in the pipeline

The verification, flush and drop flags of one request implement a queue of drafts. -/

namespace Spexis

open Python

/-- One request and the steps whose target tokens are still to come, the oldest first: the tokens
that the step has been given, or `none` where the request was not scheduled. -/
structure Speculation where
  request : Request
  slots : List (Option (List TokenId))

namespace Speculation

/-- What the verification of one slot shows: the result code and the token sent to the user. -/
structure Observation where
  result : Option ℕ
  emitted : Option TokenId
  deriving DecidableEq, Repr

/-- `_verify_and_collect` for the request, when the target token of the oldest slot arrives, and
whether it has stopped. -/
def verify (cfg : Config) (target : List TokenId → TokenId) (m : Speculation) :
    Except PyError (Observation × Bool × Speculation) :=
  match m.slots with
  | [] => .ok (⟨none, none⟩, false, m)
  | none :: slots => .ok (⟨none, none⟩, false, ⟨m.request, slots⟩)
  | some context :: slots => do
    let r := m.request.landed
    let sendToUser := r.specResult ≠ some false
    let (result, r) ← r.verifyOutputTokenIds (target context)
    let (stopped, r) ← checkStopFromValidation r cfg.maxModelLen
    return (⟨some result, if sendToUser then some (target context) else none⟩, stopped,
      ⟨r, slots⟩)

/-- The running loop schedules the request, and its draft arrives in the same step. -/
def launch (cfg : Config) (tokenBudget : ℕ) (token : TokenId) (confidence : ℚ)
    (predictedLenProb : List ℚ) (m : Speculation) : Except PyError Speculation := do
  let realToken := m.request.hasPendingRealToken
  let r := Scheduling.claimed m.request realToken
  let n := Scheduling.requestedTokens cfg r realToken tokenBudget
  pyAssert (n > 0) ""
  let context := r.allTokenIds.take (r.numComputedTokens + n.toNat)
  let r := { r with numScheduled := r.numScheduled + 1 }.advance n.toNat
  let r ← Scheduler.ingestTokens cfg predictedLenProb [confidence] [token] 0 r
  return ⟨r, m.slots ++ [some context]⟩

/-- The running loop passes the request over, and drops it if it is not dropped. -/
def pass (m : Speculation) : Speculation :=
  let r := m.request
  { request :=
      if r.confidenceDropped ∨ r.stopDropped then r
      else { r with confidenceDropped := true, dropLen := r.spLen }
    slots := m.slots ++ [none] }

/-- The pipeline of `depth` stages after a prefill in one step. -/
def start (cfg : Config) (depth : ℕ) (promptTokenIds : List TokenId)
    (samplingParams : SamplingParams) (eosTokenId : Option TokenId) (token : TokenId)
    (confidence : ℚ) (predictedLenProb : List ℚ) : Except PyError Speculation := do
  let r := Request.init promptTokenIds samplingParams eosTokenId
  pyAssert (r.numTokens > 0) ""
  let r := { r with status := .running, numScheduled := r.numScheduled + 1 }.advance r.numTokens
  let r ← Scheduler.ingestTokens cfg predictedLenProb [confidence] [token] 0 r
  return ⟨r, List.replicate (depth - 1) none ++ [some promptTokenIds]⟩

/-- A step verifies the oldest slot, and schedules the request or passes it over. -/
inductive Step (cfg : Config) (target : List TokenId → TokenId) (m : Speculation) :
    Observation × DraftQueue.Action TokenId → Speculation → Prop where
  | launch {observation : Observation} {m₁ m₂ : Speculation} (tokenBudget : ℕ) (token : TokenId)
      (confidence : ℚ) (predictedLenProb : List ℚ) (hlive : m.request.isFinished = false)
      (hverify : m.verify cfg target = .ok (observation, false, m₁))
      (hfree : m₁.request.hasPendingRealToken = true ∨ ¬ m₁.request.IsDropped)
      (hbudget : 0 < tokenBudget)
      (hlaunch : m₁.launch cfg tokenBudget token confidence predictedLenProb = .ok m₂) :
      Step cfg target m (observation, .launch token) m₂
  | pass {observation : Observation} {m₁ : Speculation} (hlive : m.request.isFinished = false)
      (hverify : m.verify cfg target = .ok (observation, false, m₁))
      (hfree : m₁.request.hasPendingRealToken = false) :
      Step cfg target m (observation, .pass) m₁.pass
  | stop {observation : Observation} {m₁ : Speculation} (hlive : m.request.isFinished = false)
      (hverify : m.verify cfg target = .ok (observation, true, m₁)) :
      Step cfg target m (observation, .stop) m₁

/-- The code of a fate, and the token that is sent. -/
def observe (outcome : DraftQueue.Outcome TokenId) : Observation where
  result :=
    match outcome with
    | .idle => none
    | .accepted _ => some 0
    | .rejected _ => some 1
    | .flushed draining => some (if draining then 3 else 2)
    | .drained _ => some 4
  emitted := outcome.emitted

/-! ## The simulation -/

/-- The slots are those of the stale answers, a gap, the drafts, and a gap if the request drains. -/
structure Window (cfg : Config) (stops : List TokenId → Bool) (length : ℕ) (m : Speculation)
    (q : DraftQueue TokenId) (drafts : List TokenId) (stale before after : ℕ) : Prop where
  tracks : m.request.Tracks q.verified drafts stale q.draining
  computed : m.request.Computed
  running : m.request.isFinished = false
  live : q.halted = false
  stopsAt : m.request.stopsAt cfg.maxModelLen = stops
  settled : stale = 0 → m.request.specResult ≠ some false
  verified : m.request.numPromptTokens < q.verified.length → stops q.verified = false
  answered : stale ≠ 0 → m.request.numPromptTokens < q.verified.length
  slots : q.slots = List.replicate stale .stale ++ List.replicate before .idle ++
    drafts.map .draft ++ List.replicate after .idle
  contexts : ∃ given : List (List TokenId), given.length = stale ∧
    m.slots = given.map some ++ List.replicate before none ++
      (DraftQueue.contexts q.verified drafts).map some ++ List.replicate after none
  length : stale + before + drafts.length + after = length
  speculating : q.draining = false → after = 0

/-- Between two steps. -/
def Waits (cfg : Config) (stops : List TokenId → Bool) (depth : ℕ) (m : Speculation)
    (q : DraftQueue TokenId) : Prop :=
  ∃ drafts stale before after, Window cfg stops depth m q drafts stale before after ∧
    drafts ≠ [] ∧ m.request.dropEnd = false

/-- Between the two halves of a step. -/
def Verified (cfg : Config) (stops : List TokenId → Bool) (depth : ℕ) (m : Speculation)
    (q : DraftQueue TokenId) (corrects : Bool) : Prop :=
  ∃ drafts stale before after, Window cfg stops (depth - 1) m q drafts stale before after ∧
    (corrects = true → drafts = [] ∧ q.draining = false) ∧ (corrects = false → drafts ≠ []) ∧
    m.request.hasPendingRealToken = corrects

variable {cfg : Config} {target : List TokenId → TokenId} {stops : List TokenId → Bool}
  {depth length : ℕ} {m : Speculation} {q : DraftQueue TokenId}
  {drafts : List TokenId} {stale before after : ℕ}

theorem drafts_eq (h : Window cfg stops length m q drafts stale before after) :
    q.drafts = drafts := by
  rw [DraftQueue.drafts, h.slots]
  simp only [List.filterMap_append, DraftQueue.filterMap_draft]
  simp [List.filterMap_replicate, Slot.token?]

theorem verify_none {slots : List (Option (List TokenId))} (hslots : m.slots = none :: slots) :
    m.verify cfg target = .ok (observe .idle, false, ⟨m.request, slots⟩) := by
  simp only [verify, hslots]
  rfl

/-- The target token has been taken, and the request goes on or stops. -/
theorem verify_eq {result : ℕ} {context : List TokenId} {slots : List (Option (List TokenId))}
    {r : Request} {token : TokenId} {verified : List TokenId} {draining : Bool}
    (hslots : m.slots = some context :: slots) (htoken : target context = token)
    (hverify : m.request.landed.verifyOutputTokenIds token = .ok (result, r))
    (htracks : r.Tracks verified drafts stale draining) (hlen : r.numPromptTokens < verified.length)
    (hstops : r.stopsAt cfg.maxModelLen = stops) :
    ∃ r', m.verify cfg target =
        .ok (⟨some result, if m.request.specResult ≠ some false then some token else none⟩,
          stops verified, ⟨r', slots⟩) ∧
      (stops verified = false → r' = r) ∧ (stops verified = true → r'.isFinished = true) := by
  obtain ⟨r', hcheck⟩ := htracks.checkStopFromValidation hlen cfg.maxModelLen
  rw [hstops] at hcheck
  obtain ⟨hgo, hstop, -⟩ := checkStopFromValidation_eq_ok hcheck
  refine ⟨r', ?_, hgo, hstop⟩
  simp only [verify, hslots, htoken, hverify, ok_bind, hcheck]
  rfl

theorem not_pending {r : Request} {verified : List TokenId} {draining : Bool}
    (h : r.Tracks verified drafts stale draining) (hcomputed : r.Computed) (hne : drafts ≠ [])
    (hdropEnd : r.dropEnd = false)
    (hspec : r.specResult ≠ some false ∨ r.justFixed = some false) :
    r.hasPendingRealToken = false := by
  have hpos := List.length_pos_iff.mpr hne
  have hprompt := h.prompt
  have hlen := h.numTokens
  rw [Request.Computed] at hcomputed
  have hle : ¬ r.numComputedTokens < r.numPromptTokens := by omega
  have hfixed : ¬ (r.specResult = some false ∧ r.justFixed = some true) := by
    rintro ⟨hfalse, htrue⟩
    rcases hspec with hspec | hspec
    · exact hspec hfalse
    · rw [hspec] at htrue
      cases htrue
  simp [Request.hasPendingRealToken, hle, hfixed, hdropEnd]

theorem Window.landed (h : Window cfg stops length m q drafts stale before after) :
    m.request.landed.Tracks q.verified drafts stale q.draining :=
  ⟨h.tracks.tokens, h.tracks.output, h.tracks.prompt, h.tracks.specTokenIds, h.tracks.spLen,
    h.tracks.flushing, h.tracks.flushLen, h.tracks.isDropped, h.tracks.dropLen⟩

/-- Nothing arrives for a step in which the request was not scheduled. -/
theorem Window.verify_idle (h : Window cfg stops depth m q drafts 0 (before + 1) after)
    (hne : drafts ≠ []) (hdropEnd : m.request.dropEnd = false) :
    ∃ q' m', q.verify target = (.idle, q') ∧
      m.verify cfg target = .ok (observe .idle, false, m') ∧
      Verified cfg stops depth m' q' false := by
  obtain ⟨given, hgiven, hslots⟩ := h.contexts
  rw [List.length_eq_zero_iff] at hgiven
  subst hgiven
  simp only [List.map_nil, List.nil_append, List.replicate_succ, List.cons_append] at hslots
  have hqslots := h.slots
  simp only [List.replicate_zero, List.nil_append, List.replicate_succ, List.cons_append] at hqslots
  have hlength := h.length
  refine ⟨_, _, by rw [DraftQueue.verify, hqslots], verify_none hslots, drafts, 0, before, after, ?_, nofun, fun _ => hne,
    not_pending h.tracks h.computed hne hdropEnd (.inl (h.settled rfl))⟩
  exact
    { h with
      slots := rfl
      contexts := ⟨[], rfl, rfl⟩
      length := by omega }

/-- The answer to a draft that has been given up. -/
theorem Window.verify_stale (h : Window cfg stops depth m q drafts (stale + 1) before after)
    (hne : drafts ≠ []) (hdropEnd : m.request.dropEnd = false) :
    ∃ q' m', q.verify target = (.flushed q.draining, q') ∧
      m.verify cfg target = .ok (observe (.flushed q.draining), false, m') ∧
      Verified cfg stops depth m' q' false := by
  obtain ⟨given, hgiven, hslots⟩ := h.contexts
  obtain ⟨context, given, rfl⟩ := List.exists_cons_of_length_eq_add_one hgiven
  rw [List.length_cons, Nat.add_right_cancel_iff] at hgiven
  simp only [List.map_cons, List.cons_append] at hslots
  have hqslots := h.slots
  simp only [List.replicate_succ, List.cons_append] at hqslots
  have hlength := h.length
  obtain ⟨hverify, htracks⟩ := h.landed.verify_stale (target context)
  have hanswered := h.answered (Nat.succ_ne_zero stale)
  obtain ⟨r', heq, hgo, -⟩ := verify_eq hslots rfl hverify htracks hanswered h.stopsAt
  have hlive := h.verified hanswered
  obtain rfl := hgo hlive
  rw [hlive, if_neg (not_not.mpr (h.tracks.flushing (Nat.succ_ne_zero stale)))] at heq
  refine ⟨_, _, by rw [DraftQueue.verify, hqslots], heq, drafts, stale, before, after, ?_, nofun,
    fun _ => hne, not_pending htracks h.computed hne hdropEnd (.inr rfl)⟩
  exact
    { tracks := htracks
      computed := h.computed
      running := h.running
      live := h.live
      stopsAt := h.stopsAt
      settled := by
        rintro rfl
        simp [Request.flushed]
      verified := h.verified
      answered := fun _ => hanswered
      slots := rfl
      contexts := ⟨given, hgiven, rfl⟩
      length := by omega
      speculating := h.speculating }

theorem Window.taken {r : Request} {token : TokenId} {result : ℕ}
    (h : Window cfg stops length m q drafts stale before after)
    (hverify : m.request.landed.verifyOutputTokenIds token = .ok (result, r)) :
    r.isFinished = false ∧ r.stopsAt cfg.maxModelLen = stops ∧
      r.numPromptTokens = m.request.numPromptTokens := by
  obtain ⟨hrecord, hstatus⟩ := (Request.verifyOutputTokenIds_verified hverify).record
  refine ⟨?_, ?_, ?_⟩
  · rw [Request.isFinished, hstatus]
    exact h.running
  · rw [← h.stopsAt]
    funext tokens
    exact hrecord.stopsAt _ _
  · rw [Request.numPromptTokens, hrecord.promptTokenIds]
    rfl

/-- The rest of the pipeline once the target token of a draft has been taken. -/
theorem Window.answered_draft {draft token : TokenId} {result : ℕ} {r : Request}
    {drafts' : List TokenId} {stale' before' after' : ℕ}
    {slots : List (Option (List TokenId))} {q' : DraftQueue TokenId}
    (h : Window cfg stops depth m q (draft :: drafts) 0 0 after)
    (hverify : m.request.landed.verifyOutputTokenIds token = .ok (result, r))
    (hverified : q'.verified = q.verified ++ [token]) (hhalted : q'.halted = q.halted)
    (hgo : stops q'.verified = false)
    (htracks : r.Tracks q'.verified drafts' stale' q'.draining) (hcomputed : r.Computed)
    (hsettled : stale' = 0 → r.specResult ≠ some false)
    (hslots : q'.slots = List.replicate stale' .stale ++ List.replicate before' .idle ++
      drafts'.map .draft ++ List.replicate after' .idle)
    (hcontexts : ∃ given : List (List TokenId), given.length = stale' ∧
      slots = given.map some ++ List.replicate before' none ++
        (DraftQueue.contexts q'.verified drafts').map some ++ List.replicate after' none)
    (hlength : stale' + before' + drafts'.length + after' = drafts.length + after)
    (hspeculating : q'.draining = false → after' = 0) :
    Window cfg stops (depth - 1) ⟨r, slots⟩ q' drafts' stale' before' after' := by
  obtain ⟨hrunning, hstops, hprompt⟩ := h.taken hverify
  have hdepth := h.length
  rw [List.length_cons] at hdepth
  have hlen : r.numPromptTokens < q'.verified.length := by
    rw [hprompt, hverified, List.length_append, List.length_singleton]
    exact Nat.lt_succ_of_le h.tracks.prompt
  exact
    { tracks := htracks
      computed := hcomputed
      running := hrunning
      live := hhalted.trans h.live
      stopsAt := hstops
      settled := hsettled
      verified := fun _ => hgo
      answered := fun _ => hlen
      slots := hslots
      contexts := hcontexts
      length := by omega
      speculating := hspeculating }

/-- The answer to the oldest draft. -/
theorem Window.verify_draft {draft : TokenId} (hdepth : 2 ≤ depth)
    (h : Window cfg stops depth m q (draft :: drafts) 0 0 after)
    (hdropEnd : m.request.dropEnd = false) :
    ∃ outcome q' m', q.verify target = (outcome, q') ∧
      m.verify cfg target = .ok (observe outcome, outcome.stopped stops q'.verified, m') ∧
      (outcome.stopped stops q'.verified = false →
        Verified cfg stops depth m' q' outcome.corrects) ∧
      (outcome.stopped stops q'.verified = true → m'.request.isFinished = true) := by
  obtain ⟨given, hgiven, hslots⟩ := h.contexts
  rw [List.length_eq_zero_iff] at hgiven
  subst hgiven
  simp only [List.map_nil, List.nil_append, List.replicate_zero, DraftQueue.contexts,
    List.map_cons, List.cons_append] at hslots
  have hqslots := h.slots
  simp only [List.nil_append, List.replicate_zero, List.map_cons, List.cons_append] at hqslots
  have hspec : m.request.landed.specResult ≠ some false := h.settled rfl
  have hlength := h.length
  rw [List.length_cons] at hlength
  -- without a drain every slot holds a draft
  have hfull : q.draining = false → drafts ≠ [] := by
    intro hdrain hnil
    have hafter := h.speculating hdrain
    rw [hnil, List.length_nil] at hlength
    omega
  have hlen : m.request.numPromptTokens < (q.verified ++ [target q.verified]).length := by
    rw [List.length_append, List.length_singleton]
    exact Nat.lt_succ_of_le h.tracks.prompt
  have hdrafts : (drafts.map Slot.draft ++ List.replicate after (Slot.idle : Slot TokenId)).filterMap
      Slot.token? = drafts := by
    rw [List.filterMap_append, DraftQueue.filterMap_draft]
    simp [List.filterMap_replicate, Slot.token?]
  have hqverify : q.verify target = _ := DraftQueue.verify_draft hqslots
  rw [hdrafts] at hqverify
  by_cases hlast : q.draining = true ∧ drafts = []
  · rw [if_pos hlast] at hqverify
    obtain ⟨hdrain, rfl⟩ := hlast
    have htracks₀ := h.landed
    rw [hdrain] at htracks₀
    obtain ⟨hverify, htracks⟩ := htracks₀.verify_drained hspec (target q.verified)
    obtain ⟨-, hstops, hprompt⟩ := h.taken hverify
    obtain ⟨r', hm, hgo, hfinished⟩ := verify_eq hslots rfl hverify htracks
      (hprompt ▸ hlen) hstops
    rw [if_pos (h.settled rfl)] at hm
    refine ⟨_, _, _, hqverify, hm, fun hlive => ?_, hfinished⟩
    have hlive' : stops (q.verified ++ [target q.verified]) = false := hlive
    obtain rfl := hgo hlive'
    refine ⟨[], 0, after, 0, h.answered_draft hverify rfl rfl hlive' htracks ?_ ?_ ?_
      ⟨[], rfl, ?_⟩ ?_ fun _ => rfl, fun _ => ⟨rfl, rfl⟩, (fun hne => by cases hne), ?_⟩
    · have hcomputed := h.computed
      rw [Request.Computed, h.tracks.numTokens] at hcomputed
      rw [Request.Computed, htracks.numTokens, List.length_append]
      exact hcomputed
    · intro _ hres
      cases hres
    · simp
    · simp [DraftQueue.contexts]
    · simp
    · simp [Request.hasPendingRealToken, Request.endDrop, Request.replaceLast,
        DraftQueue.Outcome.corrects]
  · rw [if_neg hlast] at hqverify
    have hne : drafts ≠ [] := by
      cases hdrain : q.draining with
      | true => exact fun hnil => hlast ⟨hdrain, hnil⟩
      | false => exact hfull hdrain
    have hdropEnd' : m.request.landed.ticked.dropEnd = false := by
      rw [Request.ticked_eq]
      exact hdropEnd
    by_cases heq : draft = target q.verified
    · rw [if_pos heq] at hqverify
      subst heq
      obtain ⟨hverify, htracks⟩ := h.landed.verify_accepted hspec (fun _ => hne)
      obtain ⟨-, hstops, hprompt⟩ := h.taken hverify
      obtain ⟨r', hm, hgo, hfinished⟩ := verify_eq hslots rfl hverify htracks
        (hprompt ▸ hlen) hstops
      rw [if_pos (h.settled rfl)] at hm
      refine ⟨_, _, _, hqverify, hm, fun hlive => ?_, hfinished⟩
      have hlive' : stops (q.verified ++ [target q.verified]) = false := hlive
      obtain rfl := hgo hlive'
      have hcomputed : m.request.landed.ticked.acceptDraft.Computed := by
        rw [Request.ticked_eq]
        exact h.computed
      refine ⟨drafts, 0, 0, after, h.answered_draft hverify rfl rfl hlive' htracks hcomputed ?_ ?_
        ⟨[], rfl, ?_⟩ ?_ h.speculating, (fun hcor => by cases hcor), fun _ => hne,
        not_pending htracks hcomputed hne hdropEnd' (.inl (fun hres => by cases hres))⟩
      · intro _ hres
        cases hres
      · simp
      · simp
      · omega
    · rw [if_neg heq] at hqverify
      obtain ⟨hverify, htracks, hcomputed⟩ := h.landed.verify_rejected hspec (fun _ => hne) heq
      obtain ⟨-, hstops, hprompt⟩ := h.taken hverify
      obtain ⟨r', hm, hgo, hfinished⟩ := verify_eq hslots rfl hverify htracks
        (hprompt ▸ hlen) hstops
      rw [if_pos (h.settled rfl)] at hm
      refine ⟨_, _, _, hqverify, hm, fun hlive => ?_, hfinished⟩
      have hlive' : stops (q.verified ++ [target q.verified]) = false := hlive
      obtain rfl := hgo hlive'
      -- the drafts behind the rejected one are stale from now on
      refine ⟨[], drafts.length, after, 0, h.answered_draft hverify rfl rfl hlive' htracks
        (hcomputed h.computed) ?_ ?_ ⟨DraftQueue.contexts (q.verified ++ [draft]) drafts,
          DraftQueue.contexts_length _ _, ?_⟩ ?_ fun _ => rfl, fun _ => ⟨rfl, rfl⟩,
        (fun hcor => by cases hcor), ?_⟩
      · exact fun hzero => absurd (List.length_eq_zero_iff.mp hzero) hne
      · simp [Slot.invalidate, Function.comp_def]
      · simp [DraftQueue.contexts]
      · simp
      · simp [Request.hasPendingRealToken, Request.rejectDraft, DraftQueue.Outcome.corrects]

/-- The verification of the oldest slot. -/
theorem Waits.verify (hdepth : 2 ≤ depth) (h : Waits cfg stops depth m q)
    (target : List TokenId → TokenId) :
    ∃ outcome q' m', q.verify target = (outcome, q') ∧
      m.verify cfg target = .ok (observe outcome, outcome.stopped stops q'.verified, m') ∧
      (outcome.stopped stops q'.verified = false →
        Verified cfg stops depth m' q' outcome.corrects) ∧
      (outcome.stopped stops q'.verified = true → m'.request.isFinished = true) := by
  obtain ⟨drafts, stale, before, after, hwindow, hne, hdropEnd⟩ := h
  rcases stale with _ | stale
  · rcases before with _ | before
    · obtain ⟨draft, drafts, rfl⟩ := List.exists_cons_of_ne_nil hne
      exact hwindow.verify_draft hdepth hdropEnd
    · obtain ⟨q', m', hq, hm, hnext⟩ := hwindow.verify_idle hne hdropEnd
      exact ⟨.idle, q', m', hq, hm, fun _ => hnext, nofun⟩
  · obtain ⟨q', m', hq, hm, hnext⟩ := hwindow.verify_stale hne hdropEnd
    exact ⟨.flushed q.draining, q', m', hq, hm, fun _ => hnext, nofun⟩

theorem claimed_fields (r : Request) (realToken : Bool) :
    Scheduling.claimed r realToken =
      { r with dropEnd := if realToken then false else r.dropEnd } := by
  cases realToken <;> rfl

/-- The running loop asks for exactly the last token. -/
theorem requestedTokens_eq_one {r : Request} {realToken : Bool} {tokenBudget : ℕ}
    (hcomputed : r.Computed) (hspec : r.specTokenIds = []) (hbudget : 0 < tokenBudget) :
    Scheduling.requestedTokens cfg r realToken tokenBudget = 1 := by
  have huncomputed : r.numUncomputed = 1 := by
    rw [Request.Computed, Request.numTokens] at hcomputed
    rw [Request.numUncomputed, Request.numTokensWithSpec, hspec, List.length_nil]
    omega
  rw [Scheduling.requestedTokens, huncomputed, ite_self, Scheduling.capNewTokens, if_neg (by omega)]
  omega

/-- One token is computed: the last one. -/
theorem Verified.launch {corrects : Bool} {tokenBudget : ℕ} {token : TokenId} {confidence : ℚ}
    {predictedLenProb : List ℚ} (hdepth : 2 ≤ depth) (h : Verified cfg stops depth m q corrects)
    (hfree : corrects = true ∨ q.draining = false) (hbudget : 0 < tokenBudget) :
    ∃ m', m.launch cfg tokenBudget token confidence predictedLenProb = .ok m' ∧
      Waits cfg stops depth m' (q.launch stops token) := by
  obtain ⟨drafts, stale, before, after, hwindow, hcorrects, -, hpending⟩ := h
  have hdrain : q.draining = false := hfree.elim (fun hc => (hcorrects hc).2) id
  have htracks := hwindow.tracks
  rw [hdrain] at htracks
  let claimed := Scheduling.claimed m.request m.request.hasPendingRealToken
  let r : Request := { claimed with numScheduled := claimed.numScheduled + 1 }.advance 1
  have hclaimed : claimed = _ := claimed_fields m.request m.request.hasPendingRealToken
  have hdropEnd : r.dropEnd = false := by
    change claimed.dropEnd = false
    rw [hclaimed]
    by_cases hreal : m.request.hasPendingRealToken = true
    · simp [hreal]
    · have hdropEnd : ¬ m.request.dropEnd = true := by
        intro hend
        exact hreal (by simp [Request.hasPendingRealToken, hend])
      simp [hreal, hdropEnd]
  have htracks' : r.Tracks q.verified drafts stale false := by
    have hr : r = { m.request with
        dropEnd := r.dropEnd
        numScheduled := r.numScheduled
        numComputedTokens := r.numComputedTokens } := by
      simp only [r, hclaimed, Request.advance]
    rw [hr]
    exact ⟨htracks.tokens, htracks.output, htracks.prompt, htracks.specTokenIds, htracks.spLen,
      htracks.flushing, htracks.flushLen, htracks.isDropped, htracks.dropLen⟩
  obtain ⟨r', hingest, htracks', hcomputed', hdropEnd', hspec', -⟩ :=
    htracks'.ingestTokens cfg predictedLenProb confidence token
  obtain ⟨hrecord, hstatus⟩ := Scheduler.ingestTokens_record hingest
  have hn : Scheduling.requestedTokens cfg claimed m.request.hasPendingRealToken tokenBudget =
      1 := by
    refine requestedTokens_eq_one ?_ ?_ hbudget
    · rw [hclaimed]
      exact hwindow.computed
    · rw [hclaimed]
      exact htracks.specTokenIds
  obtain ⟨given, hgiven, hslots⟩ := hwindow.contexts
  have hlength := hwindow.length
  have hafter := hwindow.speculating hdrain
  refine ⟨⟨r', m.slots ++ [some (q.verified ++ drafts)]⟩, ?_, drafts ++ [token], stale,
    before + after, 0, ?_, by simp, hdropEnd'.trans hdropEnd⟩
  · have hcontext : claimed.allTokenIds.take (claimed.numComputedTokens + 1) =
        q.verified ++ drafts := by
      rw [hclaimed]
      change m.request.allTokenIds.take (m.request.numComputedTokens + 1) = _
      rw [hwindow.computed, Request.numTokens, List.take_length, htracks.tokens]
    rw [Speculation.launch]
    change (pyAssert (Scheduling.requestedTokens cfg claimed _ tokenBudget > 0) "" >>= _) = _
    rw [hn]
    change (Scheduler.ingestTokens cfg predictedLenProb [confidence] [token] 0 r >>= _) = _
    rw [hingest, ok_bind, ← hcontext]
    rfl
  · have hr : r.numComputedTokens = m.request.numComputedTokens + 1 := by
      simp only [r, hclaimed, Request.advance]
    have hstops : r.stopsAt cfg.maxModelLen = stops := by
      rw [← hwindow.stopsAt]
      simp only [r, hclaimed]
      rfl
    have hprompt : r'.numPromptTokens = m.request.numPromptTokens := by
      rw [Request.numPromptTokens, hrecord.promptTokenIds]
      simp only [r, hclaimed]
      rfl
    have hresult : r'.specResult = m.request.specResult := by
      rw [hspec']
      simp only [r, hclaimed]
      rfl
    exact
      { tracks := by
          rw [hstops] at htracks'
          simpa [DraftQueue.launch, hdrain, drafts_eq hwindow] using htracks'
        computed := by
          have hcomputed := hwindow.computed
          rw [Request.Computed, htracks.numTokens] at hcomputed
          rw [Request.Computed, htracks'.numTokens, hcomputed', hr, List.length_append,
            List.length_singleton]
          omega
        running := by
          rw [Request.isFinished, hstatus]
          simp only [r, hclaimed]
          exact hwindow.running
        live := hwindow.live
        stopsAt := by
          rw [← hstops]
          funext tokens
          exact hrecord.stopsAt _ _
        settled := by
          rw [hresult]
          exact hwindow.settled
        verified := by
          rw [hprompt]
          exact hwindow.verified
        answered := by
          rw [hprompt]
          exact hwindow.answered
        slots := by
          change q.slots ++ [.draft token] = _
          rw [hwindow.slots, hafter]
          simp
        contexts := by
          refine ⟨given, hgiven, ?_⟩
          rw [hslots, hafter]
          simp [DraftQueue.contexts_append, DraftQueue.launch]
        length := by
          rw [List.length_append, List.length_singleton]
          omega
        speculating := fun _ => rfl }

/-- The request is passed over. -/
theorem Verified.pass (hdepth : 2 ≤ depth) (h : Verified cfg stops depth m q false) :
    Waits cfg stops depth m.pass q.pass := by
  obtain ⟨drafts, stale, before, after, hwindow, -, hne, hpending⟩ := h
  have hne := hne rfl
  obtain ⟨given, hgiven, hslots⟩ := hwindow.contexts
  have hlength := hwindow.length
  have hdropEnd : m.request.dropEnd = false := by
    by_contra hend
    rw [Bool.not_eq_false] at hend
    simp [Request.hasPendingRealToken, hend] at hpending
  have hrequest : m.pass.request.Tracks q.verified drafts stale true := by
    rw [Speculation.pass]
    split_ifs with hdrop
    · have htracks := hwindow.tracks
      rwa [htracks.isDropped.mpr hdrop] at htracks
    · exact hwindow.tracks.confidenceDrop
  have hsame : ∃ dropped len, m.pass.request =
      { m.request with confidenceDropped := dropped, dropLen := len } := by
    rw [Speculation.pass]
    split_ifs <;> exact ⟨_, _, rfl⟩
  obtain ⟨dropped, len, hsame⟩ := hsame
  refine ⟨drafts, stale, before, after + 1, ?_, hne, by rw [hsame]; exact hdropEnd⟩
  exact
    { tracks := hrequest
      computed := by rw [hsame]; exact hwindow.computed
      running := by rw [hsame]; exact hwindow.running
      live := hwindow.live
      stopsAt := by rw [hsame]; exact hwindow.stopsAt
      settled := by rw [hsame]; exact hwindow.settled
      verified := by rw [hsame]; exact hwindow.verified
      answered := by rw [hsame]; exact hwindow.answered
      slots := by
        change q.slots ++ [.idle] = _
        rw [hwindow.slots, List.replicate_succ', List.append_assoc]
      contexts := by
        refine ⟨given, hgiven, ?_⟩
        change m.slots ++ [none] = _
        rw [hslots, List.replicate_succ', List.append_assoc]
        rfl
      length := by omega
      speculating := nofun }

/-! ## Runs -/

/-- The request and the queue, in the middle of a run or at its end. -/
inductive Simulates (cfg : Config) (stops : List TokenId → Bool) (depth : ℕ) (m : Speculation)
    (q : DraftQueue TokenId) : Prop where
  | waits (h : Waits cfg stops depth m q) : Simulates cfg stops depth m q
  | halted (hm : m.request.isFinished = true) (hq : q.halted = true) : Simulates cfg stops depth m q

theorem Waits.live (h : Waits cfg stops depth m q) :
    m.request.isFinished = false ∧ q.halted = false := by
  obtain ⟨_, _, _, _, hwindow, -⟩ := h
  exact ⟨hwindow.running, hwindow.live⟩

theorem Verified.free {corrects : Bool} (h : Verified cfg stops depth m q corrects) :
    m.request.hasPendingRealToken = corrects ∧ (q.draining = true ↔ m.request.IsDropped) := by
  obtain ⟨_, _, _, _, hwindow, -, -, hpending⟩ := h
  exact ⟨hpending, hwindow.tracks.isDropped⟩

/-- Each step of the request is a step of the queue. -/
theorem Simulates.step (hdepth : 2 ≤ depth) (h : Simulates cfg stops depth m q)
    {label : Observation × DraftQueue.Action TokenId} {m' : Speculation}
    (hstep : Step cfg target m label m') :
    ∃ fate q', DraftQueue.Step target stops q fate q' ∧ label = (observe fate.1, fate.2) ∧
      Simulates cfg stops depth m' q' := by
  have hlive : m.request.isFinished = false := by cases hstep <;> assumption
  cases h with
  | halted hm => simp [hm] at hlive
  | waits h =>
      obtain ⟨outcome, q₁, m₁, hqverify, hmverify, hnext, hfinished⟩ := h.verify hdepth target
      have hq := h.live.2
      cases hstep with
      | launch tokenBudget token confidence predictedLenProb _ hverify hfree hbudget hlaunch =>
          simp only [hmverify, Except.ok.injEq, Prod.mk.injEq] at hverify
          obtain ⟨rfl, hgo, rfl⟩ := hverify
          have hnext := hnext hgo
          obtain ⟨hpending, hdropped⟩ := hnext.free
          have hfree' : outcome.corrects = true ∨ q₁.draining = false := by
            rw [hpending, ← hdropped, Bool.not_eq_true] at hfree
            exact hfree
          obtain ⟨m₂, hlaunch', hwaits⟩ := hnext.launch hdepth hfree' hbudget
          rw [hlaunch'] at hlaunch
          cases hlaunch
          exact ⟨(outcome, .launch token), _, .launch token hq hqverify hgo hfree', rfl,
            .waits hwaits⟩
      | pass _ hverify hfree =>
          simp only [hmverify, Except.ok.injEq, Prod.mk.injEq] at hverify
          obtain ⟨rfl, hgo, rfl⟩ := hverify
          have hnext := hnext hgo
          rw [hnext.free.1] at hfree
          rw [hfree] at hnext
          exact ⟨(outcome, .pass), _, .pass hq hqverify hgo hfree, rfl,
            .waits (hnext.pass hdepth)⟩
      | stop _ hverify =>
          simp only [hmverify, Except.ok.injEq, Prod.mk.injEq] at hverify
          obtain ⟨rfl, hstop, rfl⟩ := hverify
          exact ⟨(outcome, .stop), _, .stop hq hqverify hstop, rfl,
            .halted (hfinished hstop) rfl⟩

theorem start_waits {promptTokenIds : List TokenId} {samplingParams : SamplingParams}
    {eosTokenId : Option TokenId} {token : TokenId} {confidence : ℚ} {predictedLenProb : List ℚ}
    (hdepth : 2 ≤ depth)
    (h : start cfg depth promptTokenIds samplingParams eosTokenId token confidence
      predictedLenProb = .ok m) :
    let stops := (Request.init promptTokenIds samplingParams eosTokenId).stopsAt cfg.maxModelLen
    Waits cfg stops depth m (DraftQueue.start stops depth promptTokenIds token) := by
  intro stops
  let r : Request := { Request.init promptTokenIds samplingParams eosTokenId with
    status := .running
    numScheduled := 1 }.advance promptTokenIds.length
  have htracks : r.Tracks promptTokenIds [] 0 false :=
    ⟨(List.append_nil _).symm, (List.append_nil _).symm, le_rfl, rfl, rfl, fun hne => absurd rfl hne,
      nofun, by simp [Request.IsDropped, r, Request.init, Request.advance], nofun⟩
  obtain ⟨r', hingest, htracks', hcomputed, hdropEnd, hspec, -⟩ :=
    htracks.ingestTokens cfg predictedLenProb confidence token
  obtain ⟨hrecord, hstatus⟩ := Scheduler.ingestTokens_record hingest
  have hm : m = ⟨r', List.replicate (depth - 1) none ++ [some promptTokenIds]⟩ := by
    simp only [start, bind_eq_ok, pyAssert_eq_ok, pure_eq_ok] at h
    obtain ⟨-, -, r₁, hr₁, rfl⟩ := h
    have hr : Except.ok r₁ = Except.ok r' := hr₁.symm.trans hingest
    cases hr
    rfl
  subst hm
  refine ⟨[token], 0, depth - 1, 0, ?_, by simp, hdropEnd⟩
  have hprompt : r'.numPromptTokens = promptTokenIds.length := by
    rw [Request.numPromptTokens, hrecord.promptTokenIds]
    rfl
  exact
    { tracks := by
        rw [List.append_nil] at htracks'
        exact htracks'
      computed := by
        rw [Request.Computed, htracks'.numTokens, hcomputed]
        simp [r, Request.advance, Request.init]
      running := by
        rw [Request.isFinished, hstatus]
        rfl
      live := rfl
      stopsAt := by
        funext tokens
        exact hrecord.stopsAt _ _
      settled := fun _ => by
        rw [hspec]
        nofun
      verified := fun hlt => absurd hlt (by rw [hprompt]; exact lt_irrefl _)
      answered := fun hne => absurd rfl hne
      slots := by simp [DraftQueue.start]
      contexts := ⟨[], rfl, by simp [DraftQueue.contexts, DraftQueue.start]⟩
      length := by
        rw [List.length_singleton]
        omega
      speculating := fun _ => rfl }

theorem Simulates.run (hdepth : 2 ≤ depth) (h : Simulates cfg stops depth m q)
    {labels : List (Observation × DraftQueue.Action TokenId)} {m' : Speculation}
    (hrun : Transition.Run (Step cfg target) m labels m') :
    ∃ fates q', Transition.Run (DraftQueue.Step target stops) q fates q' ∧
      labels = fates.map (fun fate => (observe fate.1, fate.2)) ∧
      Simulates cfg stops depth m' q' := by
  induction hrun with
  | nil => exact ⟨[], q, .nil, rfl, h⟩
  | snoc _ hstep ih =>
      obtain ⟨fates, q₁, hrun, rfl, h₁⟩ := ih
      obtain ⟨fate, q₂, hqstep, rfl, h₂⟩ := h₁.step hdepth hstep
      exact ⟨fates ++ [fate], q₂, .snoc hrun hqstep, by simp, h₂⟩

theorem observe_emitted (outcome : DraftQueue.Outcome TokenId) :
    (observe outcome).emitted.isSome = true ↔
      (observe outcome).result ∈ [some 0, some 1, some 4] := by
  cases outcome with
  | flushed draining => cases draining <;> simp [observe, DraftQueue.Outcome.emitted]
  | _ => simp [observe, DraftQueue.Outcome.emitted]

/-- The request can take every step the queue can take: no verification and no launch raises. -/
theorem Waits.progress (hdepth : 2 ≤ depth) (h : Waits cfg stops depth m q)
    (target : List TokenId → TokenId) :
    ∃ observation stopped m', m.verify cfg target = .ok (observation, stopped, m') ∧
      (stopped = false → m'.request.hasPendingRealToken = true ∨ ¬ m'.request.IsDropped →
        ∀ tokenBudget token confidence predictedLenProb, 0 < tokenBudget →
          ∃ m'', m'.launch cfg tokenBudget token confidence predictedLenProb = .ok m'') := by
  obtain ⟨outcome, q₁, m₁, -, hverify, hnext, -⟩ := h.verify hdepth target
  refine ⟨_, _, m₁, hverify, fun hgo hfree tokenBudget token confidence probs hbudget => ?_⟩
  have hnext := hnext hgo
  obtain ⟨hpending, hdropped⟩ := hnext.free
  rw [hpending, ← hdropped, Bool.not_eq_true] at hfree
  obtain ⟨m₂, hlaunch, -⟩ := hnext.launch hdepth hfree hbudget
  exact ⟨m₂, hlaunch⟩

/-- The verify, flush and drop flags of one request simulate a queue of drafts: the result codes
are the fates of the oldest entries, and the tokens that are sent are those of the target
function. -/
theorem run_simulates_draftQueue {promptTokenIds : List TokenId} {samplingParams : SamplingParams}
    {eosTokenId : Option TokenId} {token : TokenId} {confidence : ℚ} {predictedLenProb : List ℚ}
    {m' : Speculation} {labels : List (Observation × DraftQueue.Action TokenId)}
    (hdepth : 2 ≤ depth)
    (hstart : start cfg depth promptTokenIds samplingParams eosTokenId token confidence
      predictedLenProb = .ok m)
    (hrun : Transition.Run (Step cfg target) m labels m') :
    let stops := (Request.init promptTokenIds samplingParams eosTokenId).stopsAt cfg.maxModelLen
    let sent := labels.filterMap fun label => label.1.emitted
    (∃ fates q, Transition.Run (DraftQueue.Step target stops)
        (DraftQueue.start stops depth promptTokenIds token) fates q ∧
      labels = fates.map (fun fate => (observe fate.1, fate.2)) ∧
      q.verified = promptTokenIds ++ sent ∧ Simulates cfg stops depth m' q) ∧
    promptTokenIds ++ sent = greedy target promptTokenIds sent.length ∧
    (∀ label ∈ labels, label.1.emitted.isSome = true ↔
      label.1.result ∈ [some 0, some 1, some 4]) ∧
    (m'.request.isFinished = false →
      ∃ observation stopped m₁, m'.verify cfg target = .ok (observation, stopped, m₁) ∧
        (stopped = false → m₁.request.hasPendingRealToken = true ∨ ¬ m₁.request.IsDropped →
          ∀ tokenBudget token confidence predictedLenProb, 0 < tokenBudget →
            ∃ m₂, m₁.launch cfg tokenBudget token confidence predictedLenProb = .ok m₂)) := by
  intro stops sent
  have hstarts := start_waits hdepth hstart
  obtain ⟨fates, q, hqrun, rfl, hsim⟩ := Simulates.run hdepth (.waits hstarts) hrun
  obtain ⟨hgreedy, hverified⟩ := DraftQueue.run_greedy hqrun
  have hsent : sent = fates.filterMap fun fate => fate.1.emitted := by
    simp only [sent, List.filterMap_map]
    rfl
  rw [← hsent] at hgreedy hverified
  refine ⟨⟨fates, q, hqrun, rfl, hverified, hsim⟩, hverified.symm.trans hgreedy, ?_, ?_⟩
  · intro label hlabel
    obtain ⟨fate, -, rfl⟩ := List.mem_map.mp hlabel
    exact observe_emitted fate.1
  · intro hlive
    cases hsim with
    | waits h => exact h.progress hdepth target
    | halted hm => simp [hm] at hlive

/-- Two stages and no limit in reach. -/
def twoStages : Config where
  scheduler := { maxNumSeqs := 1, maxNumBatchedTokens := 8, longPrefillTokenThreshold := 0 }
  kvCache := { blockSize := 2, numBlocks := 8, maxModelLen := 12, numPreallocateTokens := 0 }
  pipelineParallelSize := 2

/-- The draft 4 of the prefill is wrong: the target token 3 replaces it, and the answer to the draft
behind it is flushed. -/
theorem run_simulates_draftQueue_twoStages :
    ∃ m labels m', start twoStages 2 [5, 6] { maxTokens := 8 } none 4 1 [] = .ok m ∧
      Transition.Run (Step twoStages fun _ => 3) m labels m' ∧
      labels.map (fun label => label.1.result) = [none, some 1, some 2] ∧
      [5, 6] ++ labels.filterMap (fun label => label.1.emitted) =
        greedy (fun _ => 3) [5, 6] (labels.filterMap fun label => label.1.emitted).length := by
  obtain ⟨m, labels, m', hstart, hrun, hresults⟩ :
      ∃ m labels m', start twoStages 2 [5, 6] { maxTokens := 8 } none 4 1 [] = .ok m ∧
        Transition.Run (Step twoStages fun _ => 3) m labels m' ∧
        labels.map (fun label => label.1.result) = [none, some 1, some 2] :=
    ⟨_, _, _, rfl,
      .cons (.launch 8 3 1 [] rfl rfl (.inr (by decide)) (by decide) rfl)
        (.cons (.launch 8 3 1 [] rfl rfl (.inl rfl) (by decide) rfl)
          (.single (.launch 8 3 1 [] rfl rfl (.inr (by decide)) (by decide) rfl))), rfl⟩
  exact ⟨m, labels, m', hstart, hrun, hresults,
    (run_simulates_draftQueue le_rfl hstart hrun).2.1⟩

end Speculation

end Spexis
