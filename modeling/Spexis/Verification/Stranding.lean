import Spexis.Verification.Bookkeeping

/-! # Drops end

A dropped request waits for the batches that answer its drafts. It has some, and their answers end
the drop, as long as `schedule` drops no request without drafts. -/

namespace Spexis

open Python

namespace Request

/-- A dropped request has a draft to wait for. -/
def Anchored (r : Request) : Prop :=
  r.IsDropped → 1 ≤ r.spLen

variable {answers : List TokenId → TokenId → Prop} {q : ReqId} {r r' : Request}
  {batches : List InFlight} {batch : InFlight} {verified drafts : List TokenId} {stale : ℕ}
  {draining waiting pending : Bool}

theorem SameDrafts.anchored (h : SameDrafts r r') : r'.Anchored ↔ r.Anchored := by
  rw [Anchored, Anchored, h.isDropped, h.spLen]

theorem Tracks.anchored (h : r.Tracks verified drafts stale draining) :
    r.Anchored ↔ (draining = true → drafts ≠ []) := by
  rw [Anchored, h.isDropped, h.spLen, ← List.length_pos_iff]
  exact imp_congr_right fun _ => by omega

theorem Landed.anchored (h : Landed answers q r batch batches verified drafts stale draining r')
    (htracks : r.Tracks verified drafts stale draining) (hr : r.Anchored) : r'.Anchored := by
  have hdrafts := htracks.anchored.mp hr
  cases h with
  | silent _ h => exact h.tracks.anchored.mpr hdrafts
  | flushed _ _ h => exact h.tracks.anchored.mpr hdrafts
  | drained _ _ _ _ h => exact h.tracks.anchored.mpr nofun
  | accepted _ _ _ hmore h => exact h.tracks.anchored.mpr hmore
  | rejected _ _ _ _ _ _ _ h => exact h.tracks.anchored.mpr nofun

theorem Aloft.land_anchored {cfg : Config} {tokens : List TokenId}
    (h : Aloft answers q r (batch :: batches) waiting false) (hr : r.Anchored)
    (hverify : Scheduler.verifyTokens cfg r.landed (batch.answer q) = .ok (false, tokens, r')) :
    r'.Anchored := by
  obtain ⟨verified, drafts, stale, draining, hflight, -⟩ := h
  exact (hflight.land hverify).anchored hflight.tracks hr

theorem Aloft.ingest_anchored {cfg : Config} {predictedLenProb : List ℚ} {confidence : ℚ}
    {token : TokenId} (h : Aloft answers q r batches waiting true)
    (hingest : Scheduler.ingestTokens cfg predictedLenProb [confidence] [token] 0 r = .ok r') :
    r'.Anchored := by
  obtain ⟨verified, drafts, stale, draining, hflight, -⟩ := h
  obtain ⟨r₁, hingest₁, hflight₁, -⟩ := hflight.ingest cfg predictedLenProb confidence token
  obtain rfl := Except.ok.inj (hingest.symm.trans hingest₁)
  exact hflight₁.tracks.anchored.mpr fun _ => List.append_ne_nil_of_right_ne_nil _ (by simp)

theorem Aloft.not_dropped_of_waiting (h : Aloft answers q r batches true pending) :
    ¬ r.IsDropped := by
  obtain ⟨verified, drafts, stale, draining, -, hstage⟩ := h
  cases hstage with
  | queued _ hdropped => exact hdropped

theorem Aloft.not_dropped_of_pending (h : Aloft answers q r batches waiting true) :
    ¬ r.IsDropped := by
  obtain ⟨verified, drafts, stale, draining, hflight, -⟩ := h
  rw [← hflight.tracks.isDropped, hflight.launches rfl]
  exact Bool.false_ne_true

end Request

/-- A request that runs after a call of `schedule` has kept its drafts and flags, or it has been
dropped. -/
theorem View.Turn.running_cases {cfg : Config} {v v' : View} (hturn : v.Turn cfg v')
    (hrunning : v'.running = true) (hwaiting : v.waiting = true → v.running = false)
    (hdraining : v.draining = true → v.running = false) :
    (v.running = true ∨ v.waiting = true) ∧
      (Request.SameDrafts v.request v'.request ∨
        v.request.isDropCandidate = true ∧ v'.request.confidenceDropped = true ∧
          v'.request.spLen = v.request.spLen) := by
  cases hturn with
  | away _ hnot => exact absurd hrunning (Bool.eq_false_iff.mp hnot)
  | drained hdrain =>
      have hsame : v.drain.running = v.running := by
        unfold drain
        split <;> rfl
      rw [hsame, hdraining hdrain] at hrunning
      cases hrunning
  | runs passed _ hrun hturn =>
      refine ⟨.inl hrun, ?_⟩
      cases hturn with
      | kept => exact .inl ⟨rfl, rfl, rfl, rfl, rfl, rfl, rfl, rfl, rfl, rfl⟩
      | dropped _ hcandidate => exact .inr ⟨hcandidate, rfl, rfl⟩
      | launched realToken =>
          cases realToken <;> exact .inl ⟨rfl, rfl, rfl, rfl, rfl, rfl, rfl, rfl, rfl, rfl⟩
      | evicted => exact absurd hrunning (Bool.eq_false_iff.mp (preempt_running _ _))
  | waits _ hwait hturn =>
      refine ⟨.inr hwait, .inl ?_⟩
      cases hturn with
      | waits =>
          rw [hwaiting hwait] at hrunning
          cases hrunning
      | admitted r n tokenBudget hr =>
          rcases hr with rfl | rfl
          · exact ⟨rfl, rfl, rfl, rfl, rfl, rfl, rfl, rfl, rfl, rfl⟩
          · unfold Scheduling.ready
            split_ifs <;> exact ⟨rfl, rfl, rfl, rfl, rfl, rfl, rfl, rfl, rfl, rfl⟩

namespace EngineCore

variable {answers : List TokenId → TokenId → Prop} {cfg : Config} {e e' : EngineCore} {q : ReqId}

/-- What a dropped request waits for. -/
structure DropSpec (e : EngineCore) (q : ReqId) : Prop where
  dropLen : (e.scheduler.request q).dropLen = (e.scheduler.request q).spLen
  spLen : 1 ≤ (e.scheduler.request q).spLen
  /-- Enough batches in flight yield a target token for it. -/
  yields : (e.scheduler.request q).dropLen ≤
    ((e.entries q).filter fun batch => batch.answer q ≠ []).length

theorem Aloft.dropSpec (h : e.Aloft answers) (hlive : q ∈ e.scheduler.requests)
    (hanchored : (e.scheduler.request q).Anchored)
    (hdropped : (e.scheduler.request q).IsDropped) : e.DropSpec q := by
  have hone := h.flights q hlive
  have hpending : e.pending q = false := by
    rw [Bool.eq_false_iff]
    intro hpending
    rw [hpending] at hone
    exact hone.not_dropped_of_pending hdropped
  rw [hpending] at hone
  obtain ⟨verified, drafts, stale, draining, hflight, -⟩ := hone
  have hlen := hflight.tracks.dropLen (hflight.tracks.isDropped.mpr hdropped)
  refine ⟨hlen.trans hflight.tracks.spLen.symm, hanchored hdropped, ?_⟩
  obtain ⟨silent, given, valid, heq, -, -, -, -, hvalid⟩ := hflight.batches
  simp only [Bool.false_eq_true, ite_false, List.append_nil] at hvalid
  have hall : valid.filter (fun batch => batch.answer q ≠ []) = valid := by
    refine List.filter_eq_self.mpr fun batch hbatch => ?_
    obtain ⟨_, -, -, token, hanswer, -⟩ := Request.exists_of_forall₂ hvalid hbatch
    simp [hanswer]
  rw [hlen, heq, List.filter_append, hall, List.length_append, hvalid.length_eq,
    DraftQueue.contexts_length]
  omega

theorem DropSpec.entries_ne_nil (h : e.DropSpec q) : e.entries q ≠ [] := by
  intro hnil
  have hyields := h.yields
  rw [hnil, h.dropLen] at hyields
  have hspLen := h.spLen
  simp only [List.filter_nil, List.length_nil] at hyields
  omega

/-- Every dropped request that runs has a draft to wait for. -/
def Anchored (e : EngineCore) : Prop :=
  ∀ q ∈ e.scheduler.runningScheduled, (e.scheduler.request q).Anchored

/-- The call drops no request without drafts. -/
def DropsAnchored (e e' : EngineCore) : Prop :=
  ∀ q ∈ e'.scheduler.runningScheduled, (e'.scheduler.request q).confidenceDropped = true →
    (e.scheduler.request q).confidenceDropped = true ∨ 1 ≤ (e.scheduler.request q).spLen

instance (e e' : EngineCore) : Decidable (e.DropsAnchored e') :=
  inferInstanceAs (Decidable (∀ q ∈ e'.scheduler.runningScheduled, _ → _))

theorem verify_anchored {outputs : List EngineCoreOutput} (h : e.Aloft answers)
    (hcont : e.Contained) (hanchored : e.Anchored) (hphase : e.phase = .idle)
    (hverify : e.verify cfg = .ok (outputs, e')) : e'.Anchored := by
  obtain ⟨hcont', -, hlanding⟩ := verify_landing hcont hverify
  intro q hq
  have hlive' := hcont'.running_mem hq
  have hlive := (verify_shrinks hverify).1 hlive'
  have hrunning : q ∈ e.scheduler.runningScheduled := by
    rcases verify_cases hverify with ⟨-, hs, -⟩ | ⟨batch, queue, -, -, hmoves⟩
    · exact hs ▸ hq
    · exact (hmoves.spec (hcont.batchRequests_nodup _) hcont.nodup).running.subset hq
  cases hlanding q hlive with
  | absent hentries hrequest =>
      rw [hrequest]
      exact hanchored q hrunning
  | lands batch stopped tokens r hentries hland hrequest hstays =>
      obtain rfl : stopped = false := hstays.mp hlive'
      have hone := h.flights q hlive
      rw [pending_of_idle hphase, hentries] at hone
      rw [hrequest]
      exact hone.land_anchored (hanchored q hrunning) hland

theorem ingest_anchored {out : SpexisSchedulerOutput} {specOutput : ModelRunnerOutput}
    (h : e.Aloft answers) (hcont : e.Contained) (hanchored : e.Anchored)
    (hphase : e.phase = .executing out specOutput) (hingest : e.ingest cfg = .ok e') :
    e'.Anchored := by
  obtain ⟨-, -, -, hspec⟩ := ingest_contained hphase hcont hingest
  intro q hq
  rw [hspec.eq] at hq
  by_cases hnum : out.numScheduled q = 0
  · rw [hspec.same q (fun hin => hin.2 hnum)]
    exact hanchored q hq
  · have hone := hspec.ingest q hq hnum
    have hbefore := h.flights q (hcont.running_mem hq)
    obtain ⟨-, hdrafts⟩ := h.drafts out specOutput hphase q hnum
    cases hpending : e.pending q with
    | true =>
        rw [hpending] at hbefore hdrafts
        obtain ⟨draft, confidence, hdraft, hconfidence⟩ := hdrafts
        rw [hdraft, hconfidence] at hone
        exact hbefore.ingest_anchored hone
    | false =>
        rw [hpending] at hdrafts
        rw [show specOutput.sampledTokenIds q = [] from hdrafts] at hone
        rw [← Except.ok.inj hone]
        exact hanchored q hq

theorem Launch.anchored {execute : Executor} {st : Scheduling} {out : SpexisSchedulerOutput}
    (h : e.Aloft answers) (hcont : e.Contained) (hanchored : e.Anchored)
    (hlaunch : Launch cfg execute e st out e') (hdrops : e.DropsAnchored e') : e'.Anchored := by
  obtain ⟨_, hselect⟩ := hlaunch.spec.select
  have hbegin : (e.scheduler.begin cfg).Contained fun q => (e.entries q).length :=
    Scheduler.begin_contained hcont
  intro q hq
  have hturn := Scheduling.selectRequests_turn hbegin h.unhashed rfl hselect q
  have hbuilt : Request.SameDrafts (st.request q) (e'.scheduler.request q) := by
    rw [hlaunch.spec.request]
    exact Request.built_advance_sameDrafts _ _ _
  obtain ⟨hplace, hcases⟩ := hturn.running_cases (decide_eq_true (hlaunch.spec.running ▸ hq))
    (fun hwait => decide_eq_false (hcont.waiting_notMem_running (of_decide_eq_true hwait)))
    (fun hdrain => decide_eq_false (hcont.toBePreempted_notMem_running (of_decide_eq_true hdrain)))
  rcases hcases with hsame | ⟨hcandidate, hdropped, hspLen⟩
  · refine (hsame.trans hbuilt).anchored.mpr ?_
    rcases hplace with hrunning | hwaiting
    · exact hanchored q (of_decide_eq_true hrunning)
    · have hwait : q ∈ e.scheduler.waiting := of_decide_eq_true hwaiting
      have hone := h.flights q (hcont.waiting_mem hwait)
      rw [decide_eq_true hwait] at hone
      exact fun hdropped => absurd hdropped hone.not_dropped_of_waiting
  · intro _
    rw [hbuilt.spLen, show (st.request q).spLen = (e.scheduler.request q).spLen from hspLen]
    refine (hdrops q hq (hbuilt.confidenceDropped.trans hdropped)).resolve_left fun hbefore => ?_
    simp [Request.isDropCandidate, Scheduling.view, Scheduler.begin, hbefore] at hcandidate

end EngineCore

def Operation.isVerify : Operation → Bool
  | .verify => true
  | _ => false

namespace System

variable {answers : List TokenId → TokenId → Prop} {cfg : Config} {sys sys' : System}
  {operation : Operation} {operations : List Operation}

/-- A step that launches no denied request and drops no request without drafts. -/
structure AnchoredStep (answers : List TokenId → TokenId → Prop) (cfg : Config) (sys : System)
    (operation : Operation) (sys' : System) : Prop where
  undenied : UndeniedStep answers cfg sys operation sys'
  anchored : ∀ execute, operation = .schedule execute → sys.engine.DropsAnchored sys'.engine

theorem AnchoredStep.anchored_engine (hstep : AnchoredStep answers cfg sys operation sys')
    (h : sys.Booked answers) (hanchored : sys.engine.Anchored) : sys'.engine.Anchored := by
  have hbooked := hstep.undenied.booked h
  obtain ⟨⟨hstep, hnotAbort, -, -⟩, hdrops⟩ := hstep
  cases hstep with
  | addRequest reqId promptTokenIds samplingParams eosTokenId hphase hfresh hadd =>
      unfold Scheduler.addRequest at hadd
      split_ifs at hadd
      cases hadd
      intro q hq
      change (Function.update sys.engine.scheduler.request reqId _ q).Anchored
      by_cases hreq : q = reqId
      · rw [hreq, Function.update_self]
        exact fun hdropped => absurd hdropped (by simp [Request.IsDropped, Request.init])
      · rw [Function.update_of_ne hreq]
        exact hanchored q hq
  | compileGrammar reqId =>
      intro q hq
      exact (compileGrammar_sameDrafts sys.engine reqId q).1.anchored.mpr (hanchored q hq)
  | finishRequests => exact absurd hnotAbort (by simp [Operation.isAbort])
  | verify hphase hverify =>
      exact EngineCore.verify_anchored h.aloft h.placed.contained hanchored hphase hverify
  | schedule execute hphase hschedule =>
      obtain ⟨st, out, hlaunch⟩ := EngineCore.schedule_launch h.placed.contained hschedule
      exact hlaunch.anchored h.aloft h.placed.contained hanchored (hdrops execute rfl)
  | ingest hphase hingest =>
      exact EngineCore.ingest_anchored h.aloft h.placed.contained hanchored hphase hingest

theorem run_anchored
    (hrun : Transition.Run (AnchoredStep answers cfg) (init cfg) operations sys) :
    sys.Booked answers ∧ sys.engine.Anchored := by
  refine hrun.invariant (I := fun sys => sys.Booked answers ∧ sys.engine.Anchored)
    ⟨init_booked answers cfg, fun q hq => ?_⟩ fun _ _ _ h hstep =>
      ⟨hstep.undenied.booked h.1, hstep.anchored_engine h.1 h.2⟩
  cases hq

/-! ## The end of a drop -/

def Dropped (sys : System) (q : ReqId) : Prop :=
  q ∈ sys.engine.scheduler.runningScheduled ∧ (sys.engine.scheduler.request q).IsDropped

theorem verify_queue {e e' : EngineCore} {outputs : List EngineCoreOutput}
    (h : e.verify cfg = .ok (outputs, e')) : e'.batchQueueForSpec = e.batchQueueForSpec.tail := by
  unfold EngineCore.verify at h
  split at h
  next hqueue =>
    cases h
    simp [hqueue]
  next hqueue =>
    cases h
    simp [hqueue]
  next hqueue =>
    simp only [bind_eq_ok, pure_eq_ok, Prod.exists, Prod.mk.injEq] at h
    obtain ⟨_, _, -, -, rfl⟩ := h
    simp [hqueue]

theorem schedule_queue {execute : Executor} {e e' : EngineCore}
    (h : e.schedule cfg execute = .ok e') :
    ∃ slot, e'.batchQueueForSpec = e.batchQueueForSpec ++ [slot] ∧
      ∀ batch, slot = some batch →
        ∃ specOutput, e'.phase = .executing batch.schedulerOutput specOutput := by
  simp only [EngineCore.schedule, bind_eq_ok, Prod.exists] at h
  obtain ⟨result, s, -, h⟩ := h
  split_ifs at h
  · cases h
    refine ⟨_, rfl, fun batch hbatch => ?_⟩
    cases hbatch
    exact ⟨_, rfl⟩
  · cases h
    exact ⟨none, rfl, fun batch hbatch => by cases hbatch⟩

/-- A batch that a dropped request does not take part in. -/
def Passes (q : ReqId) (slot : Option InFlight) : Prop :=
  ∀ batch, slot = some batch → batch.schedulerOutput.numScheduled q = 0

theorem entries_eq_nil {e : EngineCore} {q : ReqId}
    (h : ∀ slot ∈ e.batchQueueForSpec, Passes q slot) : e.entries q = [] := by
  rw [EngineCore.entries, List.filter_eq_nil_iff]
  intro batch hbatch
  obtain ⟨slot, hslot, hsome⟩ := List.mem_filterMap.mp hbatch
  simpa using h slot hslot batch hsome

/-- While a request is dropped, the queue only loses batches of it. -/
theorem AnchoredStep.queue {q : ReqId} (hstep : AnchoredStep answers cfg sys operation sys')
    (hdropped : sys.Dropped q) :
    ∃ new, sys'.engine.batchQueueForSpec =
        sys.engine.batchQueueForSpec.drop (if operation.isVerify then 1 else 0) ++ new ∧
      ∀ slot ∈ new, Passes q slot := by
  obtain ⟨⟨hstep, hnotAbort, -, hundenied⟩, -⟩ := hstep
  cases hstep with
  | verify hphase hverify =>
      refine ⟨[], ?_, by simp⟩
      rw [verify_queue hverify, List.append_nil]
      exact List.drop_one.symm
  | schedule execute hphase hschedule =>
      obtain ⟨slot, hqueue, hphase'⟩ := schedule_queue hschedule
      refine ⟨[slot], hqueue, fun slot' hslot batch hbatch => ?_⟩
      obtain rfl := List.mem_singleton.mp hslot
      obtain ⟨specOutput, hexec⟩ := hphase' batch hbatch
      by_contra hnum
      have hlaunched := hundenied execute rfl
      simp only [LaunchesUndenied, hexec] at hlaunched
      refine hlaunched q ?_ (.inr hdropped.2)
      by_contra hnot
      rw [SpexisSchedulerOutput.numScheduled, dictGet?_eq_none.mpr hnot] at hnum
      exact hnum rfl
  | addRequest => exact ⟨[], (List.append_nil _).symm, by simp⟩
  | compileGrammar => exact ⟨[], (List.append_nil _).symm, by simp⟩
  | finishRequests => exact ⟨[], (List.append_nil _).symm, by simp⟩
  | ingest hphase hingest =>
      refine ⟨[], ?_, by simp⟩
      simp only [EngineCore.ingest, hphase, bind_eq_ok, pure_eq_ok] at hingest
      obtain ⟨s, -, rfl⟩ := hingest
      exact (List.append_nil _).symm

theorem dropped_run {q : ReqId} (hdropped : sys.Dropped q)
    (hrun : Transition.Run (fun sys operation sys' =>
      AnchoredStep answers cfg sys operation sys' ∧ sys'.Dropped q) sys operations sys') :
    sys'.Dropped q ∧ ∃ new, sys'.engine.batchQueueForSpec =
        sys.engine.batchQueueForSpec.drop (operations.countP Operation.isVerify) ++ new ∧
      ∀ slot ∈ new, Passes q slot := by
  induction hrun with
  | nil => exact ⟨hdropped, [], (List.append_nil _).symm, by simp⟩
  | @snoc operations t u operation _ hstep ih =>
      obtain ⟨hbefore, new, hqueue, hnew⟩ := ih
      obtain ⟨new', hqueue', hnew'⟩ := hstep.1.queue hbefore
      obtain ⟨k, hk⟩ : ∃ k, k = (if operation.isVerify then 1 else 0) -
          (sys.engine.batchQueueForSpec.drop (operations.countP Operation.isVerify)).length :=
        ⟨_, rfl⟩
      refine ⟨hstep.2, new.drop k ++ new', ?_, ?_⟩
      · rw [hqueue', hqueue, List.drop_append, List.drop_drop, List.append_assoc,
          List.countP_append, List.countP_singleton, hk]
      · intro slot hslot
        rcases List.mem_append.mp hslot with hslot | hslot
        · exact hnew slot (List.mem_of_mem_drop hslot)
        · exact hnew' slot hslot

/-- The engine after an operation, unless it launches a denied request or drops one without
drafts. -/
def applyAnchored (cfg : Config) (sys : System) (operation : Operation) : Option System :=
  (sys.applyUndenied cfg operation).bind fun sys' =>
    if sys.engine.DropsAnchored sys'.engine then some sys' else none

theorem run_of_applyAnchored
    (hlabels : ∀ operation ∈ operations, operation.isAbort = false ∧
      ∀ execute, operation = .schedule execute → execute.Answers answers)
    (h : operations.foldlM (applyAnchored cfg) sys = some sys') :
    Transition.Run (AnchoredStep answers cfg) sys operations sys' := by
  have hrun : Transition.Run (fun sys operation sys' => (Step cfg sys operation sys' ∧
      sys.LaunchesUndenied sys') ∧ sys.engine.DropsAnchored sys'.engine) sys operations sys' := by
    refine Transition.run_of_foldlM (fun s operation t hone => ?_) h
    obtain ⟨t', happly, hif⟩ := Option.bind_eq_some_iff.mp hone
    split_ifs at hif with hanchored
    cases hif
    exact ⟨applyUndenied_step happly, hanchored⟩
  exact hrun.mono_on (fun _ _ _ hop hstep => ⟨⟨hstep.1.1, hop.1, hop.2, fun _ _ => hstep.1.2⟩,
    fun _ _ => hstep.2⟩) hlabels

/-- The first draft of request 0 is a stop token. -/
def stoppingDraft : List Operation :=
  [.addRequest 0 [5, 6] { maxTokens := 4, stopTokenIds := [4] } none] ++
    iteration (constantExecutor 7 4)

end System

end Spexis
