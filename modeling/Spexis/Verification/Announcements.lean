import Mathlib.Tactic.IntervalCases
import Spexis.Library.Outbox
import Spexis.Verification.Cluster

/-! # Announcing finished requests

`schedule` hands out the list of finished requests and empties it, also when the output is not sent
to the workers. -/

namespace Spexis

open Python

namespace Cluster

variable {cfg : Config} {runner : RunnerConfig} {c c' : Cluster} {event : Event}

/-- Is it a call of `schedule`? -/
def Event.Schedules : Event → Prop
  | .operate (.schedule _) => True
  | .operate _ => False
  | .launch .. => True

/-- Is an output sent to the workers? -/
def Event.Launches : Event → Prop
  | .operate _ => False
  | .launch .. => True

theorem Event.Launches.schedules (h : event.Launches) : event.Schedules := by
  cases event with
  | operate => exact h.elim
  | launch => trivial

theorem Step.flushes (h : c.Informed) (hstep : Step cfg runner c event c')
    (hschedules : event.Schedules) :
    c'.system.engine.scheduler.requests = c.system.engine.scheduler.requests ∧
      c'.system.engine.scheduler.finishedReqIds = [] := by
  have hspec : ∀ {execute : Executor} {sys : System},
      System.Step cfg c.system (.schedule execute) sys →
      sys.engine.scheduler.requests = c.system.engine.scheduler.requests ∧
        sys.engine.scheduler.finishedReqIds = [] := by
    intro execute sys hstep
    obtain ⟨-, -, out, hspec, -⟩ := hstep.schedule_registered h.registered
    exact ⟨hspec.requests, hspec.flushed⟩
  cases hstep with
  | operate operation hstep =>
      cases operation with
      | schedule execute => exact hspec hstep
      | _ => exact hschedules.elim
  | launch execute d hstep => exact hspec hstep

theorem Step.collects (h : c.Informed) (hstep : Step cfg runner c event c')
    (hschedules : ¬ event.Schedules) : c.system.Collects c'.system := by
  cases hstep with
  | operate operation hstep =>
      have hne : ∀ execute, operation ≠ .schedule execute := by
        rintro execute rfl
        exact hschedules trivial
      exact (hstep.registered h.registered hne).2.2
  | launch => exact absurd trivial hschedules

theorem Step.quiet (hstep : Step cfg runner c event c') (hlaunches : ¬ event.Launches) :
    c'.worker = c.worker := by
  cases hstep with
  | operate => rfl
  | launch => exact absurd trivial hlaunches

/-- After a batch the workers know the live requests at most. -/
theorem Step.told {q : ReqId} (h : c.Informed) (hstep : Step cfg runner c event c')
    (hlaunches : event.Launches) (hq : c'.worker.Knows q) :
    c.worker.Knows q ∧ q ∉ c.system.engine.scheduler.finishedReqIds ∨
      q ∈ c.system.engine.scheduler.requests := by
  cases id hstep with
  | operate => exact hlaunches.elim
  | launch execute d _ _ hupdate =>
      have hlaunch := hstep.launchSpec h
      rcases (ModelRunner.updateStates_knows hupdate).mp hq with hnew | ⟨hnot, hq⟩
      · exact .inr (hlaunch.batch.live q (List.mem_append_left _ hnew))
      · rw [hlaunch.batch.finishedReqIds] at hnot
        exact .inl ⟨hq, hnot⟩

/-! ## Runs -/

variable (t : Transition.Timeline (Step cfg runner))

/-- The request leaves the scheduler. -/
def FinishesAt (k : ℕ) (q : ReqId) : Prop :=
  q ∈ (t.state k).system.engine.scheduler.requests ∧
    q ∉ (t.state (k + 1)).system.engine.scheduler.requests

/-- The workers are sent the output. -/
def SentAt (k : ℕ) (out : SpexisSchedulerOutput) : Prop :=
  ∃ execute d, t.label k = .launch execute d ∧ d.schedulerOutput = out

/-- The output is the first one that is sent after a step. -/
structure NextSentAt (k i : ℕ) (out : SpexisSchedulerOutput) : Prop where
  lt : k < i
  lt_length : i < t.length
  sent : SentAt t i out
  first : ∀ m out', k < m → m < i → ¬ SentAt t m out'

/-- A request that finishes is announced once, in the first output sent after it, and the workers
know nothing of it after any batch scheduled later. -/
structure FinishedSpec : Prop where
  announced : ∀ k < t.length, ∀ q, FinishesAt t k q → ∀ i out, NextSentAt t k i out →
    q ∈ out.finishedReqIds ∧
      ∀ m < t.length, ∀ out', SentAt t m out' → q ∈ out'.finishedReqIds → m = i
  forgotten : ∀ k q, FinishesAt t k q → ∀ i out, k < i → i < t.length → SentAt t i out →
    ¬ (t.state (i + 1)).worker.Knows q

/-- No output is sent after an empty batch that finds requests to announce. -/
def EmptyBatchesQuiet : Prop :=
  ∀ k < t.length, ∀ execute, t.label k = .operate (.schedule execute) →
    (t.state k).system.engine.scheduler.finishedReqIds ≠ [] →
    ∀ i out, k < i → i < t.length → ¬ SentAt t i out

variable {t}

theorem launches_iff {k : ℕ} : (t.label k).Launches ↔ ∃ out, SentAt t k out := by
  unfold SentAt
  cases t.label k with
  | operate operation => exact ⟨fun h => h.elim, fun ⟨_, _, _, h, _⟩ => by cases h⟩
  | launch execute d => exact ⟨fun _ => ⟨_, execute, d, rfl, rfl⟩, fun _ => trivial⟩

theorem not_launches_iff {k : ℕ} :
    (t.label k).Schedules ∧ ¬ (t.label k).Launches ↔
      ∃ execute, t.label k = .operate (.schedule execute) := by
  cases t.label k with
  | operate operation =>
      cases operation with
      | schedule execute => exact ⟨fun _ => ⟨execute, rfl⟩, fun _ => ⟨trivial, id⟩⟩
      | _ => exact ⟨fun h => h.1.elim, fun ⟨_, h⟩ => by cases h⟩
  | launch => exact ⟨fun h => absurd trivial h.2, fun ⟨_, h⟩ => by cases h⟩

theorem state_informed (h0 : t.state 0 = init cfg) {k : ℕ} (hk : k ≤ t.length) :
    (t.state k).Informed :=
  Run.informed (h0 ▸ t.run hk)

/-- The finished requests of a run and the list they are put on. -/
def outbox (t : Transition.Timeline (Step cfg runner)) (h0 : t.state 0 = init cfg) :
    Outbox ReqId where
  length := t.length
  live k := {q | q ∈ (t.state k).system.engine.scheduler.requests}
  gone k := {q | q ∈ (t.state k).system.added ∧
    q ∉ (t.state k).system.engine.scheduler.requests}
  outbox k := {q | q ∈ (t.state k).system.engine.scheduler.finishedReqIds}
  flushed k := (t.label k).Schedules
  sent k := (t.label k).Launches
  empty := by
    rw [h0]
    exact Set.eq_empty_of_forall_notMem fun _ => List.not_mem_nil
  sent_flushed := Event.Launches.schedules
  flush hk hschedules := by
    obtain ⟨hrequests, hfinished⟩ :=
      (t.step _ hk).flushes (state_informed h0 (Nat.le_of_lt hk)) hschedules
    rw [hrequests, hfinished]
    exact ⟨rfl, Set.eq_empty_of_forall_notMem fun _ => List.not_mem_nil⟩
  keep hk hschedules :=
    Set.ext ((t.step _ hk).collects (state_informed h0 (Nat.le_of_lt hk)) hschedules)
  outbox_gone hk q hq := (state_informed h0 hk).registered.finished q hq
  gone_mono hk q hq := by
    obtain ⟨-, hadvances⟩ := (t.step _ hk).advances (state_informed h0 (Nat.le_of_lt hk))
    refine ⟨hadvances.added hq.1, fun hlive => ?_⟩
    rcases hadvances.requests q hlive with hlive | hfresh
    · exact hq.2 hlive
    · exact hfresh hq.1
  gone_disjoint _ _ hq := hq.2

/-- The workers follow the outputs that are sent. -/
def follower (t : Transition.Timeline (Step cfg runner)) (h0 : t.state 0 = init cfg) :
    (outbox t h0).Follower where
  known k := {q | (t.state k).worker.Knows q}
  nothing := by
    rw [h0]
    refine Set.eq_empty_of_forall_notMem fun q hq => ?_
    cases hq
  quiet hk hlaunches := by
    rw [(t.step _ hk).quiet hlaunches]
  told hk hlaunches _ hq := (t.step _ hk).told (state_informed h0 (Nat.le_of_lt hk)) hlaunches hq

theorem lossless_iff (h0 : t.state 0 = init cfg) :
    (outbox t h0).Lossless ↔ EmptyBatchesQuiet t := by
  have hnonempty : ∀ k, ((outbox t h0).outbox k).Nonempty ↔
      (t.state k).system.engine.scheduler.finishedReqIds ≠ [] := fun k =>
    ⟨fun ⟨q, hq⟩ => List.ne_nil_of_mem hq, fun hne => List.exists_mem_of_ne_nil _ hne⟩
  constructor
  · intro h k hk execute hlabel hne i out hki hi hsent
    obtain ⟨hschedules, hquiet⟩ := not_launches_iff.mpr ⟨execute, hlabel⟩
    exact h k hk hschedules hquiet ((hnonempty k).mpr hne) i hki hi (launches_iff.mpr ⟨out, hsent⟩)
  · intro h k hk hschedules hquiet hne i hki hi hsent
    obtain ⟨execute, hlabel⟩ := not_launches_iff.mp ⟨hschedules, hquiet⟩
    obtain ⟨out, hsent⟩ := launches_iff.mp hsent
    exact h k hk execute hlabel ((hnonempty k).mp hne) i out hki hi hsent

theorem nextSent_iff (h0 : t.state 0 = init cfg) {k i : ℕ} :
    (outbox t h0).NextSent k i ↔ ∃ out, NextSentAt t k i out := by
  constructor
  · rintro ⟨hlt, hlength, hsent, hfirst⟩
    obtain ⟨out, hsent⟩ := launches_iff.mp hsent
    exact ⟨out, hlt, hlength, hsent, fun m out' hkm hmi hsent' =>
      hfirst m hkm hmi (launches_iff.mpr ⟨out', hsent'⟩)⟩
  · rintro ⟨out, hlt, hlength, hsent, hfirst⟩
    refine ⟨hlt, hlength, launches_iff.mpr ⟨out, hsent⟩, fun m hkm hmi hsent' => ?_⟩
    obtain ⟨out', hsent'⟩ := launches_iff.mp hsent'
    exact hfirst m out' hkm hmi hsent'

/-- An output that is sent carries the list. -/
theorem announced_iff (h0 : t.state 0 = init cfg) {k : ℕ} {out : SpexisSchedulerOutput} {q : ReqId}
    (hk : k < t.length) (hsent : SentAt t k out) :
    (outbox t h0).Announced k q ↔ q ∈ out.finishedReqIds := by
  obtain ⟨execute, d, hlabel, rfl⟩ := hsent
  have hstep := t.step k hk
  rw [hlabel] at hstep
  have hspec := hstep.launchSpec (state_informed h0 (Nat.le_of_lt hk))
  rw [hspec.batch.finishedReqIds]
  refine ⟨fun h => h.2, fun hq => ⟨?_, hq⟩⟩
  exact launches_iff.mpr ⟨_, execute, d, hlabel, rfl⟩

theorem announcedOnce_iff (h0 : t.state 0 = init cfg) :
    (outbox t h0).AnnouncedOnce ↔
      ∀ k < t.length, ∀ q, FinishesAt t k q → ∀ i out, NextSentAt t k i out →
        q ∈ out.finishedReqIds ∧
          ∀ m < t.length, ∀ out', SentAt t m out' → q ∈ out'.finishedReqIds → m = i := by
  constructor
  · intro h k hk q hleaves i out hnext
    have honce := h k hk q hleaves i ((nextSent_iff h0).mpr ⟨out, hnext⟩)
    refine ⟨?_, fun m hm out' hsent hq => (honce m hm).mp ((announced_iff h0 hm hsent).mpr hq)⟩
    exact (announced_iff h0 hnext.lt_length hnext.sent).mp ((honce i hnext.lt_length).mpr rfl)
  · intro h k hk q hleaves i hnext m hm
    obtain ⟨out, hnext⟩ := (nextSent_iff h0).mp hnext
    obtain ⟨hmem, hunique⟩ := h k hk q hleaves i out hnext
    constructor
    · intro hannounced
      obtain ⟨out', hsent⟩ := launches_iff.mp hannounced.1
      exact hunique m hm out' hsent ((announced_iff h0 hm hsent).mp hannounced)
    · rintro rfl
      exact (announced_iff h0 hm hnext.sent).mpr hmem

/-- The finished requests are announced and forgotten if and only if no empty batch comes between
their end and the next output that is sent. -/
theorem finishedSpec_iff (t : Transition.Timeline (Step cfg runner)) (h0 : t.state 0 = init cfg) :
    FinishedSpec t ↔ EmptyBatchesQuiet t := by
  rw [← lossless_iff h0]
  constructor
  · intro h
    exact ((announcedOnce_iff h0).mpr h.announced).lossless
  · intro h
    refine ⟨(announcedOnce_iff h0).mp h.announcedOnce, fun k q hleaves i out hki hi hsent => ?_⟩
    exact (follower t h0).notMem_known h hi (launches_iff.mpr ⟨out, hsent⟩) hki hleaves

/-! ## A request that is never announced -/

def stageRunner : RunnerConfig where
  batch := { maxNumReqs := 2, maxModelLen := 12, maxNumBlocksPerReq := 6, vocabSize := 32,
             float32 := id }
  pipelineParallelSize := 2

def greedyDelivery (out : SpexisSchedulerOutput) : Delivery where
  schedulerOutput := out
  params := fun _ => ⟨{}, none⟩
  finishedOrder := ⟨id, List.Perm.refl⟩
  unscheduledOrder := ⟨id, List.Perm.refl⟩

/-- The prefill of one request with a single block. -/
def prefillOutput (reqId : ReqId) (prompt : TokenId) (block : BlockId) : SpexisSchedulerOutput where
  scheduledNewReqs := [⟨reqId, [prompt], [block], 0⟩]
  scheduledCachedReqs := []
  numScheduledTokens := [(reqId, 1)]
  totalNumScheduledTokens := 1
  finishedReqIds := []

/-- An iteration that schedules nothing. -/
def emptyIteration (execute : Executor) : List Event :=
  [.operate .verify, .operate (.schedule execute)]

def launchIteration (execute : Executor) (out : SpexisSchedulerOutput) : List Event :=
  [.operate .verify, .launch execute (greedyDelivery out), .operate .ingest]

/-- Request 0 finishes in the iteration that schedules nothing; request 1 comes after it. -/
def lostFinish : List Event :=
  [.operate (.addRequest 0 [1] { maxTokens := 1 } none)] ++
    launchIteration (System.constantExecutor 5 6) (prefillOutput 0 1 1) ++
    emptyIteration (System.constantExecutor 5 6) ++ emptyIteration (System.constantExecutor 5 6) ++
    [.operate (.addRequest 1 [2] { maxTokens := 4 } none)] ++
    launchIteration (System.constantExecutor 5 6) (prefillOutput 1 2 2)

/-- The run of events that can all be taken. -/
def timelineOf (cfg : Config) (runner : RunnerConfig) (events : List Event)
    (h : (events.foldlM (apply cfg runner) (init cfg)).isSome) :
    Transition.Timeline (Step cfg runner) :=
  .ofLabels (apply cfg runner) (fun _ _ _ => apply_step) (init cfg) (.operate .verify) events h

theorem lostFinish_isSome : (lostFinish.foldlM (apply System.twoStages stageRunner)
    (init System.twoStages)).isSome := by
  decide +kernel

def lostFinishRun : Transition.Timeline (Step System.twoStages stageRunner) :=
  timelineOf System.twoStages stageRunner lostFinish lostFinish_isSome

theorem finished_request_lost : ¬ ∀ cfg runner, ∀ t : Transition.Timeline (Step cfg runner),
    t.state 0 = init cfg → FinishedSpec t := by
  intro hall
  have hfinishes : FinishesAt lostFinishRun 6 0 := ⟨by decide +kernel, by decide +kernel⟩
  have hnext : NextSentAt lostFinishRun 6 10 (prefillOutput 1 2 2) := by
    refine ⟨by decide, by decide, ⟨_, _, rfl, rfl⟩, fun m out' hlt hlt' => ?_⟩
    rintro ⟨execute, d, hlabel, -⟩
    interval_cases m <;> cases hlabel
  have hspec := hall _ _ lostFinishRun rfl
  exact absurd (hspec.announced 6 (by decide) 0 hfinishes 10 _ hnext).1 List.not_mem_nil

/-- Request 1 goes on when request 0 finishes, so that no batch is empty. -/
def promptFinish : List Event :=
  [.operate (.addRequest 0 [1] { maxTokens := 1 } none),
    .operate (.addRequest 1 [2] { maxTokens := 4 } none)] ++
    launchIteration (System.constantExecutor 5 6) {
      scheduledNewReqs := [⟨0, [1], [1], 0⟩, ⟨1, [2], [2], 0⟩]
      scheduledCachedReqs := []
      numScheduledTokens := [(0, 1), (1, 1)]
      totalNumScheduledTokens := 2
      finishedReqIds := [] } ++
    launchIteration (System.constantExecutor 5 6) {
      scheduledNewReqs := []
      scheduledCachedReqs := [⟨1, false, [6], [], 1, true, -1⟩]
      numScheduledTokens := [(1, 1)]
      totalNumScheduledTokens := 1
      finishedReqIds := [] } ++
    launchIteration (System.constantExecutor 5 6) {
      scheduledNewReqs := []
      scheduledCachedReqs := [⟨1, false, [5], [], 1, false, 0⟩]
      numScheduledTokens := [(1, 1)]
      totalNumScheduledTokens := 1
      finishedReqIds := [0] }

theorem promptFinish_isSome : (promptFinish.foldlM (apply System.twoStages stageRunner)
    (init System.twoStages)).isSome := by
  decide +kernel

theorem finishedSpec_promptFinish :
    ∃ t : Transition.Timeline (Step System.twoStages stageRunner), FinishesAt t 8 0 ∧
      FinishedSpec t := by
  refine ⟨timelineOf System.twoStages stageRunner promptFinish promptFinish_isSome,
    ⟨by decide +kernel, by decide +kernel⟩, (finishedSpec_iff _ rfl).mpr ?_⟩
  intro k hk execute hlabel
  have hlt : k < 11 := hk
  interval_cases k <;> cases hlabel

end Cluster

end Spexis
