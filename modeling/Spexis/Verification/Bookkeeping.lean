import Spexis.Verification.Flight
import Spexis.Verification.LiveRequests

/-! # The bookkeeping of the batches in flight

Along every run a request counts its drafts and the answers it has to ignore, as long as
`schedule` launches no request whose flags deny the token it asks for. -/

namespace Spexis

open Python

namespace Request

/-! ## How far a request has been computed -/

/-- How far the known tokens of a request have been computed, in or out of the waiting queue, and
with or without a draft that is still to come. -/
inductive Stage (r : Request) : Bool → Bool → List TokenId → ℕ → Prop where
  | queued (hspec : r.specResult = none) (hdropped : ¬ r.IsDropped) : Stage r true false [] 0
  | prefilling (hspec : r.specResult = none) (hlt : r.numComputedTokens < r.numTokens) :
      Stage r false false [] 0
  | decoding {drafts : List TokenId} {stale : ℕ} (h : r.Computed) : Stage r false false drafts stale
  | answering {drafts : List TokenId} {stale : ℕ} (h : r.numComputedTokens = r.numTokens) :
      Stage r false true drafts stale

/-- The batches in flight of a request agree with its flags. -/
def Aloft (answers : List TokenId → TokenId → Prop) (q : ReqId) (r : Request)
    (batches : List InFlight) (waiting pending : Bool) : Prop :=
  ∃ verified drafts stale draining,
    Flight answers q r batches verified drafts stale draining pending ∧
      r.Stage waiting pending drafts stale

variable {answers : List TokenId → TokenId → Prop} {q : ReqId} {r r' : Request}
  {batches : List InFlight} {batch : InFlight} {verified drafts : List TokenId} {stale : ℕ}
  {draining waiting pending : Bool}

theorem SameDrafts.trans {r₁ r₂ r₃ : Request} (h : SameDrafts r₁ r₂) (h' : SameDrafts r₂ r₃) :
    SameDrafts r₁ r₃ :=
  ⟨h'.1.trans h.1, h'.2.trans h.2, h'.3.trans h.3, h'.4.trans h.4, h'.5.trans h.5, h'.6.trans h.6,
    h'.7.trans h.7, h'.8.trans h.8, h'.9.trans h.9, h'.10.trans h.10⟩

theorem Stage.congr (h : r.Stage waiting pending drafts stale) (hsame : SameDrafts r r')
    (hcomputed : r'.numComputedTokens = r.numComputedTokens) :
    r'.Stage waiting pending drafts stale := by
  cases h with
  | queued hspec hdropped =>
      exact .queued (hsame.specResult.trans hspec) (hsame.isDropped.not.mpr hdropped)
  | prefilling hspec hlt =>
      exact .prefilling (hsame.specResult.trans hspec) (by rw [hcomputed, hsame.numTokens]; exact hlt)
  | decoding h =>
      refine .decoding ?_
      rw [Computed, hcomputed, hsame.numTokens]
      exact h
  | answering h => exact .answering (by rw [hcomputed, hsame.numTokens]; exact h)

theorem Aloft.congr (h : Aloft answers q r batches waiting pending) (hsame : SameDrafts r r')
    (hcomputed : r'.numComputedTokens = r.numComputedTokens) :
    Aloft answers q r' batches waiting pending := by
  obtain ⟨verified, drafts, stale, draining, hflight, hstage⟩ := h
  exact ⟨verified, drafts, stale, draining, hflight.congr hsame, hstage.congr hsame hcomputed⟩

/-- A request that has just arrived. -/
theorem init_aloft (promptTokenIds : List TokenId) (samplingParams : SamplingParams)
    (eosTokenId : Option TokenId) :
    Aloft answers q (init promptTokenIds samplingParams eosTokenId) [] true false := by
  refine ⟨promptTokenIds, [], 0, false, ⟨⟨?_, ?_, le_rfl, rfl, rfl, ?_, nofun, ?_, nofun⟩, nofun, ?_,
    nofun, [], [], [], rfl, ?_, ?_, rfl, ?_, .nil⟩, .queued rfl ?_⟩ <;>
    simp [init, IsDropped]

/-! ## Verification -/

theorem Stage.of_drafts {draft : TokenId} (h : r.Stage waiting false (draft :: drafts) stale) :
    waiting = false ∧ r.Computed := by
  cases h with
  | decoding h => exact ⟨rfl, h⟩

theorem Stage.of_stale (h : r.Stage waiting false drafts (stale + 1)) :
    waiting = false ∧ r.Computed := by
  cases h with
  | decoding h => exact ⟨rfl, h⟩

theorem Aloft.land {cfg : Config} {tokens : List TokenId}
    (h : Aloft answers q r (batch :: batches) waiting false)
    (hverify : Scheduler.verifyTokens cfg r.landed (batch.answer q) = .ok (false, tokens, r')) :
    Aloft answers q r' batches waiting false := by
  obtain ⟨verified, drafts, stale, draining, hflight, hstage⟩ := h
  have hlanded := hstage.congr (landed_sameDrafts r) rfl
  cases hflight.land hverify with
  | silent hanswer h => exact ⟨_, _, _, _, h, hlanded⟩
  | flushed token hanswer h =>
      obtain ⟨rfl, hcomputed⟩ := hlanded.of_stale
      exact ⟨_, _, _, _, h, .decoding hcomputed⟩
  | drained draft token hanswer htarget h =>
      obtain ⟨rfl, hcomputed⟩ := hlanded.of_drafts
      refine ⟨_, _, _, _, h, .decoding ?_⟩
      rw [Computed, (landed_sameDrafts r).numTokens, hflight.tracks.numTokens] at hcomputed
      rw [Computed, h.tracks.numTokens, List.length_append]
      exact hcomputed
  | accepted token hanswer htarget _ h =>
      obtain ⟨rfl, hcomputed⟩ := hlanded.of_drafts
      refine ⟨_, _, _, _, h, .decoding ?_⟩
      rw [ticked_eq]
      exact hcomputed
  | rejected draft token hanswer htarget hne hcode hcomputed h =>
      obtain ⟨rfl, hone⟩ := hlanded.of_drafts
      exact ⟨_, _, _, _, h, .decoding (hcomputed hone)⟩

/-! ## Draft ingestion -/

/-- The draft of a request that waits for one. -/
theorem Aloft.ingest {cfg : Config} {predictedLenProb : List ℚ} {confidence : ℚ} {token : TokenId}
    (h : Aloft answers q r batches waiting true)
    (hingest : Scheduler.ingestTokens cfg predictedLenProb [confidence] [token] 0 r = .ok r') :
    Aloft answers q r' batches waiting false := by
  obtain ⟨verified, drafts, stale, draining, hflight, hstage⟩ := h
  cases hstage with
  | answering hcomputed =>
      obtain ⟨r₁, hingest₁, hflight₁, hcomputed₁⟩ :=
        hflight.ingest cfg predictedLenProb confidence token
      obtain rfl := Except.ok.inj (hingest.symm.trans hingest₁)
      refine ⟨_, _, _, _, hflight₁, .decoding ?_⟩
      rw [Computed, hcomputed₁, hcomputed, hflight.tracks.numTokens, hflight₁.tracks.numTokens,
        List.length_append, List.length_singleton, Nat.add_assoc]

/-! ## Scheduling -/

/-- The flags of the request deny the token that a batch would yield for it: the token would be
taken for the answer to a draft that has been given up, or come after the end of a drop. -/
def Denied (r : Request) : Prop :=
  r.specResult = some false ∧ r.flushLen = some 0 ∨ r.IsDropped

instance (r : Request) : Decidable r.Denied :=
  inferInstanceAs (Decidable (_ ∨ _))

/-- What the executor returns for the entry of a request in a batch. -/
structure Entry (answers : List TokenId → TokenId → Prop) (q : ReqId) (r : Request)
    (batch : InFlight) : Prop where
  context : batch.context q = r.allTokenIds
  covers : r.numComputedTokens = r.numTokens →
    ∃ token, batch.answer q = [token] ∧ answers r.allTokenIds token
  chunk : r.numComputedTokens ≠ r.numTokens → batch.answer q = []

/-- A request that is given tokens. -/
theorem Aloft.launch {n : ℕ} (h : Aloft answers q r batches false false) (hdenied : ¬ r.Denied)
    (hpos : 0 < n) (hn : (n : ℤ) ≤ r.numUncomputed) (hsame : SameDrafts r r')
    (hcomputed : r'.numComputedTokens = r.numComputedTokens + n) (hentry : Entry answers q r' batch) :
    Aloft answers q r' (batches ++ [batch]) false
      (decide (r'.numComputedTokens = r'.numTokens)) := by
  obtain ⟨verified, drafts, stale, draining, hflight, hstage⟩ := h
  rw [Denied, not_or, not_and] at hdenied
  obtain ⟨hopen, hdropped⟩ := hdenied
  obtain rfl : draining = false := Bool.eq_false_iff.mpr (hflight.tracks.isDropped.not.mpr hdropped)
  have hle : r'.numComputedTokens ≤ r'.numTokens := by
    rw [numUncomputed, numTokensWithSpec, hflight.tracks.specTokenIds, List.length_nil] at hn
    rw [hcomputed, hsame.numTokens, Request.numTokens]
    omega
  have hstale : r.specResult = some false → stale ≠ 0 := by
    intro hfalse hzero
    refine hopen hfalse ?_
    rw [hflight.tracks.flushLen hfalse, hzero]
    rfl
  by_cases hcovers : r'.numComputedTokens = r'.numTokens
  · obtain ⟨token, hanswer, htarget⟩ := hentry.covers hcovers
    have htokens : r'.allTokenIds = verified ++ drafts :=
      hsame.allTokenIds.trans hflight.tracks.tokens
    rw [decide_eq_true hcovers]
    rw [htokens] at htarget
    exact ⟨_, _, _, _, hflight.launch hstale (hentry.context.trans htokens) hanswer htarget hsame,
      .answering hcovers⟩
  · rw [decide_eq_false hcovers]
    have hlt : r'.numComputedTokens < r'.numTokens := lt_of_le_of_ne hle hcovers
    cases hstage with
    | prefilling hspec _ =>
        exact ⟨_, _, _, _, hflight.launch_silent (hentry.chunk hcovers) hsame,
          .prefilling (hsame.specResult.trans hspec) hlt⟩
    | decoding hone =>
        -- one token is all there is to compute
        rw [hcomputed, hsame.numTokens, ← hone] at hlt
        omega

theorem capNewTokens_le (cfg : Config) (n : ℤ) (tokenBudget : ℕ) :
    Scheduling.capNewTokens cfg n tokenBudget ≤ n := by
  unfold Scheduling.capNewTokens
  refine (min_le_left _ _).trans ?_
  split_ifs with hcap
  · exact le_of_lt hcap.2
  · exact le_rfl

/-- A running request asks for no more than its known tokens. -/
theorem requestedTokens_le (hsome : 1 ≤ r.numUncomputed) (realToken : Bool)
    (tokenBudget : ℕ) : Scheduling.requestedTokens cfg r realToken tokenBudget ≤ r.numUncomputed := by
  unfold Scheduling.requestedTokens
  refine (capNewTokens_le _ _ _).trans ?_
  split_ifs
  · exact hsome
  · exact le_rfl

theorem Aloft.numComputedTokens_lt (h : Aloft answers q r batches false false) :
    r.numComputedTokens < r.numTokens := by
  obtain ⟨verified, drafts, stale, draining, hflight, hstage⟩ := h
  cases hstage with
  | prefilling _ hlt => exact hlt
  | decoding hone =>
      rw [← hone]
      exact Nat.lt_succ_self _

theorem Aloft.numUncomputed_pos (h : Aloft answers q r batches false false) :
    1 ≤ r.numUncomputed := by
  have hlt := h.numComputedTokens_lt
  rw [Request.numTokens] at hlt
  rw [numUncomputed, numTokensWithSpec]
  omega

/-- A waiting request is about to be computed from its first token. -/
theorem Aloft.admit {n : ℕ} (numScheduled : ℤ)
    (h : Aloft answers q r batches true false) (hpos : 0 < n) (hn : n ≤ r.numTokens) :
    Aloft answers q
        { r with numScheduled := numScheduled, status := .running, numComputedTokens := 0 }
        batches false false ∧ ¬ r.Denied := by
  obtain ⟨verified, drafts, stale, draining, hflight, hstage⟩ := h
  cases hstage with
  | queued hspec hdropped =>
      refine ⟨⟨_, _, _, _, hflight.congr ⟨rfl, rfl, rfl, rfl, rfl, rfl, rfl, rfl, rfl, rfl⟩,
        .prefilling hspec (hpos.trans_le hn)⟩, ?_⟩
      rw [Denied, hspec, not_or]
      exact ⟨nofun, hdropped⟩

/-- A request with nothing in flight goes back to the waiting queue. -/
theorem Aloft.reinitialize (h : Aloft answers q r [] waiting false) :
    Aloft answers q r.reinitialize [] true false := by
  obtain ⟨verified, drafts, stale, draining, hflight, -⟩ := h
  exact ⟨_, _, _, _, hflight.reinitialize, .queued rfl (by simp [IsDropped, Request.reinitialize])⟩

theorem Aloft.drop (h : Aloft answers q r batches false false) :
    Aloft answers q { r with confidenceDropped := true, dropLen := r.spLen } batches false false := by
  obtain ⟨verified, drafts, stale, draining, hflight, hstage⟩ := h
  refine ⟨_, _, _, _, hflight.drop, ?_⟩
  cases hstage with
  | prefilling hspec hlt => exact .prefilling hspec hlt
  | decoding hone => exact .decoding hone

end Request

namespace View

open Request

variable {answers : List TokenId → TokenId → Prop} {q : ReqId} {cfg : Config} {v v' : View}
  {batches : List InFlight} {batch : InFlight}

theorem built_advance_numComputedTokens (r : Request) (cached : Bool) (n : ℕ) :
    ((r.built cached).advance n).numComputedTokens = r.numComputedTokens + n := by
  unfold built correctionSent
  split_ifs <;> rfl

theorem claimed_sameDrafts (r : Request) (realToken : Bool) :
    SameDrafts r (Scheduling.claimed r realToken) := by
  unfold Scheduling.claimed
  split_ifs <;> exact ⟨rfl, rfl, rfl, rfl, rfl, rfl, rfl, rfl, rfl, rfl⟩

@[simp] theorem preempt_given (v : View) (r : Request) : (v.preempt r).given = v.given := by
  unfold preempt
  split <;> rfl

@[simp] theorem drain_given (v : View) : v.drain.given = v.given := by
  unfold drain
  split <;> rfl

/-- The request leaves the running list. -/
theorem preempt_aloft {r : Request} (h : Aloft answers q r batches false false)
    (hcount : r.numScheduled = batches.length) (hwaiting : v.waiting = false) :
    Aloft answers q (v.preempt r).request batches (v.preempt r).waiting false := by
  unfold preempt
  split_ifs with hflight
  · rw [hwaiting]
    exact h.congr (markForPreemption_sameDrafts r) rfl
  · obtain rfl : batches = [] := List.length_eq_zero_iff.mp (by omega)
    exact Aloft.reinitialize (h.congr (markForPreemption_sameDrafts r) rfl)

/-- A request that is not in the batch. -/
theorem Turn.aloft_unscheduled (hturn : v.Turn cfg v')
    (h : Aloft answers q v.request batches v.waiting false)
    (hcount : v.request.numScheduled = batches.length)
    (hrunning : v.running = true → v.waiting = false)
    (hdraining : v.draining = true → v.waiting = false) (hgiven : v'.given = none) :
    Aloft answers q v'.request batches v'.waiting false := by
  cases hturn with
  | away => exact h
  | drained hdrain =>
      have hwaiting := hdraining hdrain
      unfold drain
      split_ifs with hflight
      · exact h.congr (markForPreemption_sameDrafts _) rfl
      · obtain rfl : batches = [] := List.length_eq_zero_iff.mp (by omega)
        exact Aloft.reinitialize (h.congr (markForPreemption_sameDrafts _) rfl)
  | runs passed _ hrun hturn =>
      have hwaiting := hrunning hrun
      rw [hwaiting] at h
      have hpassed : Aloft answers q { v.request with confidencePassed := passed } batches false
          false := h.congr ⟨rfl, rfl, rfl, rfl, rfl, rfl, rfl, rfl, rfl, rfl⟩ rfl
      cases hturn with
      | kept =>
          rw [hwaiting]
          exact hpassed
      | dropped =>
          rw [hwaiting]
          exact hpassed.drop
      | launched => cases hgiven
      | evicted r _ hr =>
          have hstatus : ∀ {r : Request}, Aloft answers q r batches false false →
              Aloft answers q { r with status := .preempted } batches false false := fun h =>
            h.congr ⟨rfl, rfl, rfl, rfl, rfl, rfl, rfl, rfl, rfl, rfl⟩ rfl
          rcases hr with ⟨realToken, rfl⟩ | ⟨-, rfl⟩
          · refine preempt_aloft (hstatus (hpassed.congr (claimed_sameDrafts _ realToken) ?_)) ?_
              hwaiting
            · cases realToken <;> rfl
            · cases realToken <;> exact hcount
          · exact preempt_aloft (hstatus hpassed.drop) hcount hwaiting
  | waits _ hwaiting hturn =>
      cases hturn with
      | waits r hr =>
          refine h.congr ?_ ?_ <;> rcases hr with rfl | rfl
          · exact ⟨rfl, rfl, rfl, rfl, rfl, rfl, rfl, rfl, rfl, rfl⟩
          · unfold Scheduling.ready
            split_ifs <;> exact ⟨rfl, rfl, rfl, rfl, rfl, rfl, rfl, rfl, rfl, rfl⟩
          · rfl
          · unfold Scheduling.ready
            split_ifs <;> rfl
      | admitted => cases hgiven

/-- A request that is in the batch. -/
theorem Turn.aloft_scheduled {n : ℕ} {r' : Request} (hturn : v.Turn cfg v') (hnone : v.given = none)
    (h : Aloft answers q v.request batches v.waiting false)
    (hrunning : v.running = true → v.waiting = false) (hdenied : ¬ v.request.Denied)
    (hgiven : v'.given = some n) (hsame : SameDrafts v'.request r')
    (hcomputed : r'.numComputedTokens = v'.request.numComputedTokens + n)
    (hentry : Entry answers q r' batch) :
    v'.waiting = false ∧ Aloft answers q r' (batches ++ [batch]) false
      (decide (r'.numComputedTokens = r'.numTokens)) := by
  cases hturn with
  | away => simp [hnone] at hgiven
  | drained => simp [hnone] at hgiven
  | runs passed _ hrun hturn =>
      have hwaiting := hrunning hrun
      rw [hwaiting] at h
      have hpassed : Aloft answers q { v.request with confidencePassed := passed } batches false
          false := h.congr ⟨rfl, rfl, rfl, rfl, rfl, rfl, rfl, rfl, rfl, rfl⟩ rfl
      cases hturn with
      | kept => simp [hnone] at hgiven
      | dropped => simp [hnone] at hgiven
      | launched realToken n tokenBudget _ _ hn hpos =>
          obtain rfl := Option.some.inj hgiven
          refine ⟨hwaiting, hpassed.launch hdenied hpos ?_ (SameDrafts.trans ?_ hsame) ?_ hentry⟩
          · rw [hn]
            exact requestedTokens_le hpassed.numUncomputed_pos realToken tokenBudget
          · cases realToken <;> exact ⟨rfl, rfl, rfl, rfl, rfl, rfl, rfl, rfl, rfl, rfl⟩
          · rw [hcomputed]
            cases realToken <;> rfl
      | evicted r =>
          simp [hnone] at hgiven
  | waits _ hwaiting hturn =>
      cases hturn with
      | waits => simp [hnone] at hgiven
      | admitted r n tokenBudget hr hstatus hn hpos =>
          obtain rfl := Option.some.inj hgiven
          rw [hwaiting] at h
          have hready : SameDrafts v.request r := by
            rcases hr with rfl | rfl
            · exact ⟨rfl, rfl, rfl, rfl, rfl, rfl, rfl, rfl, rfl, rfl⟩
            · unfold Scheduling.ready
              split_ifs <;> exact ⟨rfl, rfl, rfl, rfl, rfl, rfl, rfl, rfl, rfl, rfl⟩
          have hcomputed₀ : r.numComputedTokens = v.request.numComputedTokens := by
            rcases hr with rfl | rfl
            · rfl
            · unfold Scheduling.ready
              split_ifs <;> rfl
          have hle : (n : ℤ) ≤ r.numTokens := hn ▸ capNewTokens_le _ _ _
          obtain ⟨hadmitted, hdenied⟩ := Aloft.admit (r.numScheduled + 1)
            (h.congr hready hcomputed₀) hpos (by omega)
          refine ⟨rfl, hadmitted.launch hdenied hpos ?_ hsame hcomputed hentry⟩
          rw [Request.numTokens] at hle
          change (n : ℤ) ≤ ((r.allTokenIds.length + r.specTokenIds.length : ℕ) : ℤ) - ((0 : ℕ) : ℤ)
          omega

end View

/-- What the workers promise: an entry of a batch yields a target token and a draft when it
completes the known tokens of its request, and nothing otherwise. -/
def Executor.Answers (answers : List TokenId → TokenId → Prop) (execute : Executor) : Prop :=
  ∀ s out q, out.numScheduled q ≠ 0 →
    if (s.request q).numComputedTokens = (s.request q).numTokens then
      (∃ token, (execute s out).trueOutput.sampledTokenIds q = [token] ∧
        answers (s.request q).allTokenIds token) ∧
      ∃ draft confidence, (execute s out).specOutput.sampledTokenIds q = [draft] ∧
        (execute s out).specOutput.specConfidence q = [confidence]
    else (execute s out).trueOutput.sampledTokenIds q = [] ∧
      (execute s out).specOutput.sampledTokenIds q = []

namespace Scheduler

theorem VerifyMove.unhashed {cfg : Config} {output : ModelRunnerOutput} {s s' : Scheduler}
    {reqId : ReqId} {outputs : List EngineCoreOutput} (h : VerifyMove cfg output s reqId outputs s')
    (hhash : s.kvCacheManager.blockPool.Unhashed) : s'.kvCacheManager.blockPool.Unhashed := by
  cases h with
  | goesOn => exact hhash
  | stops => exact KVCacheManager.free_unhashed hhash

theorem VerifyMoves.unhashed {cfg : Config} {output : ModelRunnerOutput} {s s' : Scheduler}
    {reqIds : List ReqId} {outputs : List EngineCoreOutput}
    (h : VerifyMoves cfg output s reqIds outputs s')
    (hhash : s.kvCacheManager.blockPool.Unhashed) : s'.kvCacheManager.blockPool.Unhashed := by
  induction h with
  | nil => exact hhash
  | cons hmove _ ih => exact ih (hmove.unhashed hhash)

end Scheduler

namespace EngineCore

/-- Does the request wait for the draft of its youngest batch? -/
def pending (e : EngineCore) (q : ReqId) : Bool :=
  match e.phase with
  | .executing out _ => decide (out.numScheduled q ≠ 0 ∧
      (e.scheduler.request q).numComputedTokens = (e.scheduler.request q).numTokens)
  | _ => false

/-- The flags of every live request agree with its batches in flight. -/
structure Aloft (answers : List TokenId → TokenId → Prop) (e : EngineCore) : Prop where
  flights : ∀ q ∈ e.scheduler.requests, Request.Aloft answers q (e.scheduler.request q) (e.entries q)
    (decide (q ∈ e.scheduler.waiting)) (e.pending q)
  drafts : ∀ out specOutput, e.phase = .executing out specOutput → ∀ q, out.numScheduled q ≠ 0 →
    q ∈ e.scheduler.runningScheduled ∧
      if e.pending q then ∃ draft confidence, specOutput.sampledTokenIds q = [draft] ∧
        specOutput.specConfidence q = [confidence]
      else specOutput.sampledTokenIds q = []
  chunks : ∀ q, ∀ batch ∈ e.entries q, batch.answer q = [] ↔
    (batch.request q).numComputedTokens < (batch.request q).numTokens
  unhashed : e.scheduler.kvCacheManager.blockPool.Unhashed

variable {answers : List TokenId → TokenId → Prop} {cfg : Config} {e e' : EngineCore} {q : ReqId}

theorem pending_of_idle (h : e.phase = .idle) : e.pending q = false := by
  rw [pending, h]

theorem pending_of_verified (h : e.phase = .verified) : e.pending q = false := by
  rw [pending, h]

theorem verify_entries_suffix {outputs : List EngineCoreOutput}
    (h : e.verify cfg = .ok (outputs, e')) (q : ReqId) : e'.entries q <:+ e.entries q := by
  rcases verify_cases h with ⟨-, -, hentries⟩ | ⟨batch, queue, hqueue, hqueue', -⟩
  · exact hentries q ▸ List.suffix_rfl
  · rw [entries_cons hqueue]
    have hrest : entries { e with batchQueueForSpec := queue } q = e'.entries q := by
      rw [entries, entries, hqueue']
    split_ifs
    · exact hrest ▸ List.suffix_cons _ _
    · exact hrest ▸ List.suffix_rfl

theorem verify_aloft {outputs : List EngineCoreOutput} (h : e.Aloft answers) (hcont : e.Contained)
    (hphase : e.phase = .idle) (hverify : e.verify cfg = .ok (outputs, e')) : e'.Aloft answers := by
  have hphase' := verify_phase hverify
  obtain ⟨-, hwaiting, hlanding⟩ := verify_landing hcont hverify
  refine ⟨fun q hq => ?_, fun out specOutput hexec => ?_, fun q batch hbatch => ?_, ?_⟩
  · have hbefore := h.flights q ((verify_shrinks hverify).1 hq)
    rw [pending_of_idle hphase] at hbefore
    rw [pending_of_verified hphase', hwaiting]
    cases hlanding q ((verify_shrinks hverify).1 hq) with
    | absent hentries hrequest =>
        rw [hentries, hrequest]
        exact hbefore
    | lands batch stopped tokens r hentries hland hrequest hlive =>
        obtain rfl : stopped = false := hlive.mp hq
        rw [hentries] at hbefore
        rw [hrequest]
        exact hbefore.land hland
  · rw [hphase'] at hexec
    cases hexec
  · exact h.chunks q batch ((verify_entries_suffix hverify q).subset hbatch)
  · rcases verify_cases hverify with ⟨-, hs, -⟩ | ⟨batch, queue, -, -, hmoves⟩
    · rw [hs]
      exact h.unhashed
    · exact hmoves.unhashed h.unhashed

/-- The scheduled request of a batch that has just been launched. -/
theorem Launch.entry {execute : Executor} {st : Scheduling} {out : SpexisSchedulerOutput}
    (hlaunch : Launch cfg execute e st out e') (hexecute : execute.Answers answers)
    (hq : q ∈ st.scheduled) :
    Request.Entry answers q (e'.scheduler.request q)
      ⟨out, (execute e'.scheduler out).trueOutput, e'.scheduler.request⟩ := by
  have hanswers := hexecute e'.scheduler out q ((numScheduled_iff hlaunch.spec q).mpr hq)
  refine ⟨rfl, fun hcovers => ?_, fun hchunk => ?_⟩
  · rw [if_pos hcovers] at hanswers
    exact hanswers.1
  · rw [if_neg hchunk] at hanswers
    exact hanswers.1

theorem Launch.phase_of_scheduled {execute : Executor} {st : Scheduling}
    {out : SpexisSchedulerOutput} (hlaunch : Launch cfg execute e st out e')
    (hq : q ∈ st.scheduled) :
    e'.phase = .executing out (execute e'.scheduler out).specOutput := by
  rw [hlaunch.phase, if_pos]
  by_contra htotal
  rw [scheduled_of_total hlaunch.spec htotal] at hq
  cases hq

theorem Launch.pending {execute : Executor} {st : Scheduling} {out : SpexisSchedulerOutput}
    (hlaunch : Launch cfg execute e st out e') (q : ReqId) :
    e'.pending q = decide (q ∈ st.scheduled ∧
      (e'.scheduler.request q).numComputedTokens = (e'.scheduler.request q).numTokens) := by
  by_cases hq : q ∈ st.scheduled
  · rw [EngineCore.pending, hlaunch.phase_of_scheduled hq]
    simp [hq, numScheduled_iff hlaunch.spec q]
  · have hnum : out.numScheduled q = 0 := not_not.mp ((numScheduled_iff hlaunch.spec q).not.mpr hq)
    rw [EngineCore.pending, hlaunch.phase]
    split_ifs <;> simp [hq, hnum]

/-- One request before and after a call of `schedule`. -/
theorem Launch.flight {execute : Executor} {st : Scheduling} {out : SpexisSchedulerOutput}
    (h : e.Aloft answers) (hcont : e.Contained) (hphase : e.phase = .verified)
    (hexecute : execute.Answers answers) (hlaunch : Launch cfg execute e st out e')
    (hdenied : q ∈ st.scheduled → ¬ (e.scheduler.request q).Denied)
    (hq : q ∈ e.scheduler.requests) :
    Request.Aloft answers q (e'.scheduler.request q) (e'.entries q)
      (decide (q ∈ e'.scheduler.waiting)) (e'.pending q) := by
  obtain ⟨_, hselect⟩ := hlaunch.spec.select
  have hbegin : (e.scheduler.begin cfg).Contained fun q => (e.entries q).length :=
    Scheduler.begin_contained hcont
  have hturn := Scheduling.selectRequests_turn hbegin h.unhashed rfl hselect q
  have hbefore := h.flights q hq
  rw [pending_of_verified hphase] at hbefore
  have hrunning : ((e.scheduler.begin cfg).view q).running = true →
      ((e.scheduler.begin cfg).view q).waiting = false := fun hrun =>
    decide_eq_false (hcont.running_notMem_waiting (of_decide_eq_true hrun))
  have hsame : Request.SameDrafts (st.request q) (e'.scheduler.request q) := by
    rw [hlaunch.spec.request]
    exact Request.built_advance_sameDrafts _ _ _
  have hcomputed : (e'.scheduler.request q).numComputedTokens =
      (st.request q).numComputedTokens + st.numScheduled q := by
    rw [hlaunch.spec.request]
    exact View.built_advance_numComputedTokens _ _ _
  rw [hlaunch.entries, hlaunch.pending, hlaunch.spec.waiting]
  by_cases hsched : q ∈ st.scheduled
  · obtain ⟨n, hn⟩ := Option.ne_none_iff_exists'.mp (Scheduling.given_eq_none.not.mpr (not_not.mpr hsched))
    have hnum : st.numScheduled q = n := by
      rw [Scheduling.numScheduled, show dictGet? st.numScheduledTokens q = some n from hn]
      rfl
    rw [hnum] at hcomputed
    obtain ⟨hwaiting, hflight⟩ := hturn.aloft_scheduled rfl hbefore hrunning (hdenied hsched) hn
      hsame hcomputed (hlaunch.entry hexecute hsched)
    simpa only [hsched, ite_true, true_and, of_decide_eq_false hwaiting, decide_false] using hflight
  · have hnone : (st.view q).given = none := Scheduling.given_eq_none.mpr hsched
    have hnum : st.numScheduled q = 0 := by
      rw [Scheduling.numScheduled, show dictGet? st.numScheduledTokens q = none from hnone]
      rfl
    have hcount := hcont.count q hq
    simp only [List.not_mem_nil, ite_false] at hcount
    have hflight := hturn.aloft_unscheduled hbefore hcount hrunning
      (fun hdrain => decide_eq_false (hcont.toBePreempted_notMem_waiting (of_decide_eq_true hdrain)))
      hnone
    simp only [hsched, ite_false, List.append_nil, false_and, decide_false]
    exact hflight.congr hsame (by rw [hcomputed, hnum]; rfl)

theorem Launch.aloft {execute : Executor} {st : Scheduling} {out : SpexisSchedulerOutput}
    (h : e.Aloft answers) (hcont : e.Contained) (hphase : e.phase = .verified)
    (hexecute : execute.Answers answers) (hlaunch : Launch cfg execute e st out e')
    (hdenied : ∀ q ∈ st.scheduled, ¬ (e.scheduler.request q).Denied) : e'.Aloft answers := by
  have hflights : ∀ q ∈ e'.scheduler.requests, Request.Aloft answers q (e'.scheduler.request q)
      (e'.entries q) (decide (q ∈ e'.scheduler.waiting)) (e'.pending q) := fun q hq =>
    hlaunch.flight h hcont hphase hexecute (hdenied q) (hlaunch.requests ▸ hq)
  refine ⟨hflights, fun out' specOutput hexec q hnum => ?_, fun q batch hbatch => ?_, ?_⟩
  · have htotal : out.totalNumScheduledTokens > 0 := by
      by_contra hzero
      rw [hlaunch.phase, if_neg hzero] at hexec
      cases hexec
    rw [hlaunch.phase, if_pos htotal] at hexec
    obtain ⟨rfl, rfl⟩ := Phase.executing.inj hexec
    have hq := (numScheduled_iff hlaunch.spec q).mp hnum
    refine ⟨hlaunch.spec.running ▸ hlaunch.spec.contained.scheduled_running hq, ?_⟩
    have hanswers := hexecute e'.scheduler out q hnum
    rw [hlaunch.pending]
    by_cases hcovers :
        (e'.scheduler.request q).numComputedTokens = (e'.scheduler.request q).numTokens
    · rw [if_pos hcovers] at hanswers
      simpa [hq, hcovers] using hanswers.2
    · rw [if_neg hcovers] at hanswers
      simpa [hq, hcovers] using hanswers.2
  · rw [hlaunch.entries] at hbatch
    rcases List.mem_append.mp hbatch with hbatch | hbatch
    · exact h.chunks q batch hbatch
    · split_ifs at hbatch with hq
      · obtain rfl := List.mem_singleton.mp hbatch
        have hentry := hlaunch.entry hexecute hq
        have hlive : q ∈ e'.scheduler.requests :=
          hlaunch.contained.running_mem
            (hlaunch.spec.running ▸ hlaunch.spec.contained.scheduled_running hq)
        by_cases hcovers :
            (e'.scheduler.request q).numComputedTokens = (e'.scheduler.request q).numTokens
        · obtain ⟨token, htoken, -⟩ := hentry.covers hcovers
          refine iff_of_false ?_ (by rw [hcovers]; exact lt_irrefl _)
          rw [htoken]
          exact List.cons_ne_nil _ _
        · have hflight := hflights q hlive
          have hrunning : q ∉ e'.scheduler.waiting :=
            hlaunch.contained.running_notMem_waiting
              (hlaunch.spec.running ▸ hlaunch.spec.contained.scheduled_running hq)
          rw [hlaunch.pending, decide_eq_false hrunning,
            decide_eq_false (fun hand => hcovers hand.2)] at hflight
          exact iff_of_true (hentry.chunk hcovers) hflight.numComputedTokens_lt
      · cases hbatch
  · rw [hlaunch.spec.kvCacheManager]
    exact Scheduling.moves_unhashed hlaunch.spec.moves h.unhashed

theorem ingest_aloft {out : SpexisSchedulerOutput} {specOutput : ModelRunnerOutput}
    (h : e.Aloft answers) (hcont : e.Contained) (hphase : e.phase = .executing out specOutput)
    (hingest : e.ingest cfg = .ok e') : e'.Aloft answers := by
  obtain ⟨-, hentries, hphase', hspec⟩ := ingest_contained hphase hcont hingest
  refine ⟨fun q hq => ?_, fun out' specOutput' hexec => ?_, fun q batch hbatch => ?_, ?_⟩
  · rw [hspec.eq] at hq
    have hbefore := h.flights q hq
    rw [pending_of_idle hphase', hentries, show e'.scheduler.waiting = e.scheduler.waiting by
      rw [hspec.eq]]
    by_cases hnum : out.numScheduled q = 0
    · rw [hspec.same q (fun hin => hin.2 hnum)]
      have hpending : e.pending q = false := by simp [pending, hphase, hnum]
      rwa [hpending] at hbefore
    · obtain ⟨hrunning, hdrafts⟩ := h.drafts out specOutput hphase q hnum
      have hone := hspec.ingest q hrunning hnum
      cases hpending : e.pending q with
      | true =>
          rw [hpending] at hbefore hdrafts
          obtain ⟨draft, confidence, hdraft, hconfidence⟩ := hdrafts
          rw [hdraft, hconfidence] at hone
          exact hbefore.ingest hone
      | false =>
          rw [hpending] at hbefore hdrafts
          rw [show specOutput.sampledTokenIds q = [] from hdrafts] at hone
          rw [← Except.ok.inj hone]
          exact hbefore
  · rw [hphase'] at hexec
    cases hexec
  · rw [hentries] at hbatch
    exact h.chunks q batch hbatch
  · rw [hspec.eq]
    exact h.unhashed

/-! ## What the counters say -/

/-- What a batch in flight is to one of its requests. -/
inductive EntryTag where
  /-- The batch computes only a part of the known tokens. -/
  | noToken
  /-- It has been built on a token that has been rejected since. -/
  | stale
  | valid
  deriving DecidableEq

def tag (e : EngineCore) (q : ReqId) (batch : InFlight) : EntryTag :=
  if (batch.request q).numComputedTokens < (batch.request q).numTokens then .noToken
  else if batch.context q <+: (e.scheduler.request q).allTokenIds then .valid
  else .stale

/-- The counters of a request count its batches in flight. -/
structure BookkeepingSpec (e : EngineCore) (q : ReqId) : Prop where
  counts : ∃ silent stale valid : ℕ,
    (e.entries q).map (e.tag q) = List.replicate silent .noToken ++ List.replicate stale .stale ++
      List.replicate valid .valid ∧
    (e.scheduler.request q).spLen = valid ∧
    if (e.scheduler.request q).specResult = some false
      then (e.scheduler.request q).flushLen = some (stale : ℤ) else stale = 0
  /-- A token that is validated has a draft to be compared with. -/
  validates : ∀ batch batches, e.entries q = batch :: batches → batch.answer q ≠ [] →
    (e.scheduler.request q).specResult ≠ some false → 1 ≤ (e.scheduler.request q).spLen
  /-- Only the answer to a draft that has been given up is ignored, and the count stays above it. -/
  flushes : ∀ batch batches, e.entries q = batch :: batches → batch.answer q ≠ [] →
    (e.scheduler.request q).specResult = some false →
      e.tag q batch = .stale ∧ ∃ n : ℤ, (e.scheduler.request q).flushLen = some n ∧ 1 ≤ n

theorem isPrefix_append_of_mem_contexts {context verified drafts : List TokenId}
    (h : context ∈ DraftQueue.contexts verified drafts) : context <+: verified ++ drafts := by
  induction drafts generalizing verified with
  | nil => cases h
  | cons draft drafts ih =>
      rcases List.mem_cons.mp h with rfl | h
      · exact List.prefix_append _ _
      · rw [List.append_cons]
        exact ih h

/-- The batches of a live request between two steps. -/
structure Sorted (e : EngineCore) (q : ReqId) (silent given valid : List InFlight) : Prop where
  entries : e.entries q = silent ++ given ++ valid
  silent_tag : ∀ batch ∈ silent, batch.answer q = [] ∧ e.tag q batch = .noToken
  first : silent ≠ [] → given = []
  given_tag : ∀ batch ∈ given, batch.answer q ≠ [] ∧ e.tag q batch = .stale
  valid_tag : ∀ batch ∈ valid, batch.answer q ≠ [] ∧ e.tag q batch = .valid
  spLen : (e.scheduler.request q).spLen = valid.length
  flushLen : (e.scheduler.request q).specResult = some false →
    (e.scheduler.request q).flushLen = some (given.length : ℤ) ∧ (given = [] → valid = [])
  settled : (e.scheduler.request q).specResult ≠ some false → given = []

theorem Aloft.sorted (h : e.Aloft answers) (hphase : e.phase = .idle)
    (hq : q ∈ e.scheduler.requests) : ∃ silent given valid, e.Sorted q silent given valid := by
  have hone := h.flights q hq
  rw [pending_of_idle hphase] at hone
  obtain ⟨verified, drafts, stale, draining, hflight, -⟩ := hone
  obtain ⟨silent, given, valid, heq, hsilent, hidle, hlength, hgiven, hvalid⟩ := hflight.batches
  have htokens := hflight.tracks.tokens
  simp only [Bool.false_eq_true, ite_false, List.append_nil] at hvalid
  have hdrafts : valid.length = drafts.length := by
    rw [hvalid.length_eq, DraftQueue.contexts_length]
  have hwhole : ∀ batch ∈ e.entries q, batch.answer q ≠ [] →
      ¬ (batch.request q).numComputedTokens < (batch.request q).numTokens := fun batch hbatch =>
    (h.chunks q batch hbatch).not.mp
  refine ⟨silent, given, valid, heq, fun batch hbatch => ?_, fun hne => ?_, fun batch hbatch => ?_,
    fun batch hbatch => ?_, ?_, fun hfalse => ⟨?_, fun hnil => ?_⟩, fun htrue => ?_⟩
  · have hanswer := hsilent batch hbatch
    refine ⟨hanswer, if_pos ((h.chunks q batch ?_).mp hanswer)⟩
    rw [heq]
    exact List.mem_append_left _ (List.mem_append_left _ hbatch)
  · exact List.length_eq_zero_iff.mp (hlength.trans (hidle hne))
  · obtain ⟨hdiverges, token, hanswer⟩ := hgiven batch hbatch
    have hsome : batch.answer q ≠ [] := by simp [hanswer]
    have hmem : batch ∈ e.entries q := by
      rw [heq]
      exact List.mem_append_left _ (List.mem_append_right _ hbatch)
    refine ⟨hsome, ?_⟩
    rw [tag, if_neg (hwhole batch hmem hsome), if_neg]
    rw [htokens]
    exact (hdiverges.append drafts).not_isPrefix
  · obtain ⟨context, hcontext, hbatch', token, hanswer, -⟩ := Request.exists_of_forall₂ hvalid hbatch
    have hsome : batch.answer q ≠ [] := by simp [hanswer]
    have hmem : batch ∈ e.entries q := by
      rw [heq]
      exact List.mem_append_right _ hbatch
    refine ⟨hsome, ?_⟩
    rw [tag, if_neg (hwhole batch hmem hsome), if_pos]
    rw [htokens, hbatch']
    exact isPrefix_append_of_mem_contexts hcontext
  · rw [hflight.tracks.spLen, hdrafts]
  · rw [hflight.tracks.flushLen hfalse, hlength]
  · rw [← List.length_eq_zero_iff, hdrafts, List.length_eq_zero_iff]
    exact (hflight.settled (by rw [← hlength, hnil, List.length_nil]) hfalse).1
  · rw [← List.length_eq_zero_iff, hlength]
    by_contra hstale
    exact htrue (hflight.tracks.flushing hstale)

theorem map_eq_replicate {tag : InFlight → EntryTag} {batches : List InFlight} {t : EntryTag}
    (h : ∀ batch ∈ batches, tag batch = t) :
    batches.map tag = List.replicate batches.length t := by
  refine List.eq_replicate_iff.mpr ⟨List.length_map _, fun t' ht' => ?_⟩
  obtain ⟨batch, hbatch, rfl⟩ := List.mem_map.mp ht'
  exact h batch hbatch

theorem Sorted.bookkeepingSpec {silent given valid : List InFlight}
    (h : e.Sorted q silent given valid) : e.BookkeepingSpec q where
  counts := by
    refine ⟨silent.length, given.length, valid.length, ?_, h.spLen, ?_⟩
    · rw [h.entries, List.map_append, List.map_append,
        map_eq_replicate fun batch hbatch => (h.silent_tag batch hbatch).2,
        map_eq_replicate fun batch hbatch => (h.given_tag batch hbatch).2,
        map_eq_replicate fun batch hbatch => (h.valid_tag batch hbatch).2]
    · split_ifs with hfalse
      · exact (h.flushLen hfalse).1
      · rw [h.settled hfalse, List.length_nil]
  validates := by
    intro batch batches hentries hanswer htrue
    have heq := h.entries
    rw [hentries, h.settled htrue, List.append_nil] at heq
    cases silent with
    | cons first silent =>
        obtain ⟨rfl, -⟩ := List.cons.inj heq
        exact absurd (h.silent_tag batch List.mem_cons_self).1 hanswer
    | nil =>
        rw [List.nil_append] at heq
        rw [h.spLen, ← heq, List.length_cons]
        omega
  flushes := by
    intro batch batches hentries hanswer hfalse
    obtain ⟨hlen, hrest⟩ := h.flushLen hfalse
    have heq := h.entries
    rw [hentries] at heq
    cases silent with
    | cons first silent =>
        obtain ⟨rfl, -⟩ := List.cons.inj heq
        exact absurd (h.silent_tag batch List.mem_cons_self).1 hanswer
    | nil =>
        cases given with
        | nil =>
            rw [hrest rfl] at heq
            cases heq
        | cons first given =>
            obtain ⟨rfl, -⟩ := List.cons.inj heq
            refine ⟨(h.given_tag batch List.mem_cons_self).2, _, hlen, ?_⟩
            rw [List.length_cons]
            omega

end EngineCore

namespace System

variable {answers : List TokenId → TokenId → Prop} {cfg : Config} {sys sys' : System}
  {operation : Operation} {operations : List Operation}

/-- No request of the batch that has just been launched was denied its token. -/
def LaunchesUndenied (sys sys' : System) : Prop :=
  match sys'.engine.phase with
  | .executing out _ => ∀ q ∈ out.numScheduledTokens.map Prod.fst,
      ¬ (sys.engine.scheduler.request q).Denied
  | _ => True

instance (sys sys' : System) : Decidable (sys.LaunchesUndenied sys') := by
  unfold LaunchesUndenied
  split <;> infer_instance

/-- A step in which no client gives up on a request, the workers keep their promise, and `schedule`
launches no request whose flags deny the token it asks for. -/
structure UndeniedStep (answers : List TokenId → TokenId → Prop) (cfg : Config) (sys : System)
    (operation : Operation) (sys' : System) : Prop where
  step : Step cfg sys operation sys'
  notAbort : operation.isAbort = false
  executor : ∀ execute, operation = .schedule execute → execute.Answers answers
  undenied : ∀ execute, operation = .schedule execute → sys.LaunchesUndenied sys'

structure Booked (answers : List TokenId → TokenId → Prop) (sys : System) : Prop where
  placed : sys.Placed
  aloft : sys.engine.Aloft answers

theorem init_booked (answers : List TokenId → TokenId → Prop) (cfg : Config) :
    (init cfg).Booked answers where
  placed := init_placed cfg
  aloft := by
    refine ⟨fun q hq => ?_, fun out specOutput hexec => ?_, fun q batch hbatch => ?_,
      BlockPool.init_unhashed _⟩
    · cases hq
    · cases hexec
    · simp [init, EngineCore.init, EngineCore.entries] at hbatch

theorem addRequest_aloft {s : Scheduler} {reqId : ReqId} {promptTokenIds : List TokenId}
    {samplingParams : SamplingParams} {eosTokenId : Option TokenId} {e : EngineCore}
    (h : e.Aloft answers) (hphase : e.phase = .idle) (hidle : e.entries reqId = [])
    (hadd : e.scheduler.addRequest reqId (.init promptTokenIds samplingParams eosTokenId) = .ok s) :
    EngineCore.Aloft answers { e with scheduler := s } := by
  unfold Scheduler.addRequest at hadd
  split_ifs at hadd
  cases hadd
  have hpending : ∀ (s : Scheduler) (q : ReqId), EngineCore.pending { e with scheduler := s } q =
      false := fun s q => EngineCore.pending_of_idle hphase
  refine ⟨fun q hq => ?_, fun out specOutput hexec => ?_, h.chunks, h.unhashed⟩
  · change Request.Aloft answers q (Function.update e.scheduler.request reqId _ q) (e.entries q)
      (decide (q ∈ e.scheduler.waiting ++ [reqId])) (EngineCore.pending { e with scheduler := _ } q)
    rw [hpending]
    by_cases hreq : q = reqId
    · subst hreq
      rw [Function.update_self, hidle,
        decide_eq_true (List.mem_append_right _ (List.mem_singleton.mpr rfl))]
      exact Request.init_aloft promptTokenIds samplingParams eosTokenId
    · have hbefore := h.flights q ((mem_setAdd.mp hq).resolve_right hreq)
      rw [EngineCore.pending_of_idle hphase] at hbefore
      rw [Function.update_of_ne hreq]
      simpa [hreq] using hbefore
  · cases hphase.symm.trans hexec

theorem compileGrammar_sameDrafts (e : EngineCore) (reqId q : ReqId) :
    Request.SameDrafts (e.scheduler.request q) ((e.compileGrammar reqId).scheduler.request q) ∧
      ((e.compileGrammar reqId).scheduler.request q).numComputedTokens =
        (e.scheduler.request q).numComputedTokens := by
  by_cases hq : q = reqId
  · subst hq
    simp only [EngineCore.compileGrammar, Scheduler.setRequest_request, Function.update_self]
    exact ⟨⟨rfl, rfl, rfl, rfl, rfl, rfl, rfl, rfl, rfl, rfl⟩, trivial⟩
  · simp only [EngineCore.compileGrammar, Scheduler.setRequest_request, Function.update_of_ne hq]
    exact ⟨⟨rfl, rfl, rfl, rfl, rfl, rfl, rfl, rfl, rfl, rfl⟩, trivial⟩

theorem compileGrammar_aloft {e : EngineCore} (h : e.Aloft answers) (reqId : ReqId) :
    (e.compileGrammar reqId).Aloft answers := by
  have hsame := compileGrammar_sameDrafts e reqId
  have hpending : ∀ q, (e.compileGrammar reqId).pending q = e.pending q := by
    intro q
    rw [EngineCore.pending, EngineCore.pending, (hsame q).1.numTokens, (hsame q).2]
    rfl
  refine ⟨fun q hq => ?_, fun out specOutput hexec q hnum => ?_, h.chunks, h.unhashed⟩
  · rw [hpending]
    exact (h.flights q hq).congr (hsame q).1 (hsame q).2
  · rw [hpending]
    exact h.drafts out specOutput hexec q hnum

theorem UndeniedStep.booked (hstep : UndeniedStep answers cfg sys operation sys')
    (h : sys.Booked answers) : sys'.Booked answers := by
  have hplaced := hstep.step.placed hstep.notAbort h.placed
  refine ⟨hplaced, ?_⟩
  obtain ⟨hstep, hnotAbort, hexecutor, hundenied⟩ := hstep
  cases hstep with
  | addRequest reqId promptTokenIds samplingParams eosTokenId hphase hfresh hadd =>
      have hidle : sys.engine.entries reqId = [] := by
        by_contra hne
        exact hfresh (h.placed.entries_added reqId hne)
      exact addRequest_aloft h.aloft hphase hidle hadd
  | compileGrammar reqId => exact compileGrammar_aloft h.aloft reqId
  | finishRequests => exact absurd hnotAbort (by simp [Operation.isAbort])
  | verify hphase hverify =>
      exact EngineCore.verify_aloft h.aloft h.placed.contained hphase hverify
  | schedule execute hphase hschedule =>
      obtain ⟨st, out, hlaunch⟩ := EngineCore.schedule_launch h.placed.contained hschedule
      refine hlaunch.aloft h.aloft h.placed.contained hphase (hexecutor execute rfl) fun q hq => ?_
      have hlaunched := hundenied execute rfl
      simp only [LaunchesUndenied, hlaunch.phase_of_scheduled hq, hlaunch.spec.numScheduledTokens]
        at hlaunched
      exact hlaunched q hq
  | ingest hphase hingest =>
      exact EngineCore.ingest_aloft h.aloft h.placed.contained hphase hingest

theorem run_booked (hrun : Transition.Run (UndeniedStep answers cfg) (init cfg) operations sys) :
    sys.Booked answers :=
  hrun.invariant (init_booked answers cfg) (fun _ _ _ h hstep => hstep.booked h)

/-- As long as no denied request is launched, every live request counts its batches in flight. -/
theorem run_bookkeepingSpec
    (hrun : Transition.Run (UndeniedStep answers cfg) (init cfg) operations sys)
    (hphase : sys.engine.phase = .idle) :
    ∀ q ∈ sys.engine.scheduler.requests, sys.engine.BookkeepingSpec q := by
  intro q hq
  obtain ⟨silent, given, valid, hsorted⟩ := (run_booked hrun).aloft.sorted hphase hq
  exact hsorted.bookkeepingSpec

theorem constantExecutor_answers (token draft : TokenId) :
    (constantExecutor token draft).Answers fun _ answer => answer = token := by
  intro s out q hnum
  by_cases hcovers : (s.request q).numComputedTokens = (s.request q).numTokens
  · simp [constantExecutor, hnum, hcovers]
  · simp [constantExecutor, hcovers]

theorem iteration_answers (token draft : TokenId) :
    ∀ operation ∈ iteration (constantExecutor token draft), operation.isAbort = false ∧
      ∀ execute, operation = .schedule execute →
        execute.Answers fun _ answer => answer = token := by
  simp [iteration, Operation.isAbort, constantExecutor_answers]

/-- The engine after an operation, unless a denied request has been launched. -/
def applyUndenied (cfg : Config) (sys : System) (operation : Operation) : Option System :=
  (sys.apply cfg operation).bind fun sys' =>
    if sys.LaunchesUndenied sys' then some sys' else none

theorem applyUndenied_step (h : applyUndenied cfg sys operation = some sys') :
    Step cfg sys operation sys' ∧ sys.LaunchesUndenied sys' := by
  obtain ⟨t, happly, hif⟩ := Option.bind_eq_some_iff.mp h
  split_ifs at hif with hundenied
  cases hif
  exact ⟨apply_step happly, hundenied⟩

theorem run_of_applyUndenied
    (hlabels : ∀ operation ∈ operations, operation.isAbort = false ∧
      ∀ execute, operation = .schedule execute → execute.Answers answers)
    (h : operations.foldlM (applyUndenied cfg) sys = some sys') :
    Transition.Run (UndeniedStep answers cfg) sys operations sys' := by
  have hrun : Transition.Run (fun sys operation sys' =>
      Step cfg sys operation sys' ∧ sys.LaunchesUndenied sys') sys operations sys' :=
    Transition.run_of_foldlM (fun _ _ _ => applyUndenied_step) h
  exact hrun.mono_on (fun _ _ _ hop hstep => ⟨hstep.1, hop.1, hop.2, fun _ _ => hstep.2⟩) hlabels

/-- Both requests are rejected, and go on. -/
def rejectedOnce : List Operation :=
  [.addRequest 0 [5, 6] { maxTokens := 4 } none, .addRequest 1 [7] { maxTokens := 4 } none] ++
    iteration (constantExecutor 3 4) ++ iteration (constantExecutor 3 4) ++
    iteration (constantExecutor 3 4)

theorem run_bookkeepingSpec_rejectedOnce :
    ∃ sys, Transition.Run (UndeniedStep (fun _ answer => answer = 3) twoStages) (init twoStages)
        rejectedOnce sys ∧
      (sys.engine.scheduler.request 0).flushLen = some 1 ∧ sys.engine.BookkeepingSpec 0 := by
  have hsome : (rejectedOnce.foldlM (applyUndenied twoStages) (init twoStages)).map (fun sys =>
      (sys.engine.phase.isIdle, decide (0 ∈ sys.engine.scheduler.requests),
        (sys.engine.scheduler.request 0).flushLen)) = some (true, true, some 1) := by
    decide +kernel
  obtain ⟨sys, hsys, hmap⟩ := Option.map_eq_some_iff.mp hsome
  simp only [Prod.mk.injEq, decide_eq_true_eq, Phase.isIdle_iff] at hmap
  obtain ⟨hidle, hlive, hflush⟩ := hmap
  have hanswers : ∀ operation ∈ rejectedOnce, operation.isAbort = false ∧
      ∀ execute, operation = .schedule execute → execute.Answers fun _ answer => answer = 3 := by
    have hone := iteration_answers 3 4
    simp only [rejectedOnce, List.forall_mem_append]
    exact ⟨⟨⟨by simp [Operation.isAbort], hone⟩, hone⟩, hone⟩
  have hrun := run_of_applyUndenied hanswers hsys
  exact ⟨sys, hrun, hflush, run_bookkeepingSpec hrun hidle 0 hlive⟩

/-- Three sequences share four tokens, so that the youngest one misses its turn. -/
def starved : Config where
  scheduler := { maxNumSeqs := 3, maxNumBatchedTokens := 4, longPrefillTokenThreshold := 3 }
  kvCache := { blockSize := 16, numBlocks := 8, maxModelLen := 32, numPreallocateTokens := 0 }
  pipelineParallelSize := 2

/-- The only draft of request 2 is rejected. -/
def starvedRun : List Operation :=
  let params : SamplingParams := { maxTokens := 20, stopTokenIds := [4] }
  [.addRequest 0 [1] params none] ++ iteration (constantExecutor 7 4) ++
    [.addRequest 1 (List.replicate 6 1) params none, .addRequest 2 [1] params none] ++
    iteration (constantExecutor 7 8) ++ iteration (constantExecutor 7 7) ++
    iteration (constantExecutor 7 7) ++ iteration (constantExecutor 7 7) ++
    iteration (constantExecutor 7 7)

/-- The count of answers to ignore passes below zero, and the valid ones are ignored with them. -/
theorem starvedRun_ignores_valid :
    starved.Accepted ∧ ∃ sys, Run starved starvedRun sys ∧
      (∀ operation ∈ starvedRun, operation.isAbort = false ∧
        ∀ execute, operation = .schedule execute → execute.Answers fun _ answer => answer = 7) ∧
      sys.engine.phase = .idle ∧ 2 ∈ sys.engine.scheduler.requests ∧
      ¬ sys.engine.BookkeepingSpec 2 := by
  refine ⟨⟨by decide, by decide, by decide, by decide, by decide⟩, ?_⟩
  have hsome : (applyAll starved starvedRun (init starved)).map (fun sys =>
      (sys.engine.phase.isIdle, decide (2 ∈ sys.engine.scheduler.requests),
        (sys.engine.scheduler.request 2).specResult, (sys.engine.scheduler.request 2).flushLen)) =
      some (true, true, some false, some (-1)) := by
    decide +kernel
  obtain ⟨sys, hsys, hmap⟩ := Option.map_eq_some_iff.mp hsome
  simp only [Prod.mk.injEq, decide_eq_true_eq, Phase.isIdle_iff] at hmap
  obtain ⟨hidle, hlive, hresult, hflush⟩ := hmap
  refine ⟨sys, applyAll_run hsys, ?_, hidle, hlive, fun hspec => ?_⟩
  · simp only [starvedRun, List.forall_mem_append]
    exact ⟨⟨⟨⟨⟨⟨⟨by simp [Operation.isAbort], iteration_answers 7 4⟩, by simp [Operation.isAbort]⟩,
      iteration_answers 7 8⟩, iteration_answers 7 7⟩, iteration_answers 7 7⟩, iteration_answers 7 7⟩,
      iteration_answers 7 7⟩
  · obtain ⟨_, stale, _, -, -, hcount⟩ := hspec.counts
    rw [if_pos hresult, hflush] at hcount
    have hnegative := Option.some.inj hcount
    omega

end System

end Spexis
