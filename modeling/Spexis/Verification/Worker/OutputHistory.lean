import Spexis.Verification.Announcements

/-! # The output history that the sampler sees

The batch refers to the list of output tokens of each request, and rolling back a rejected
speculation makes a new list. -/

namespace Spexis

open Python

namespace InputBatch

/-- The row refers to the list of its request. -/
def historyRule : RowRule where
  holds request row := row.outputTokenIds = some request.outputTokenIds
  vacant _ := True
  hole _ := True
  appended _ _ := True

theorem historyRule_sound (cfg : BatchConfig) : historyRule.Sound cfg where
  init _ := trivial
  clear _ _ _ := ⟨trivial, trivial⟩
  fill _ _ _ _ := rfl
  append _ _ _ _ := rfl
  move _ _ _ hholds _ := ⟨hholds, trivial⟩
  cut _ _ := trivial

end InputBatch

namespace ModelRunner

open InputBatch

variable {cfg : RunnerConfig} {r r' : ModelRunner} {d : Delivery}

/-- The list of every row has the contents of its request's list. -/
def HistorySpec (r : ModelRunner) : Prop :=
  ∀ i q, r.inputBatch.slot i = some q → ∃ request ref, r.requests q = some request ∧
    r.inputBatch.reqOutputTokenIds[i]? = some (some ref) ∧
    r.heap.read ref = r.heap.read request.outputTokenIds

/-- No request is rolled back that keeps its row. -/
def RollsBackOutside (d : Delivery) (r : ModelRunner) : Prop :=
  ∀ data ∈ d.schedulerOutput.scheduledCachedReqs, data.specResult = false →
    ¬ d.Stays r.inputBatch data.reqId

theorem Follows.historySpec (h : Follows cfg historyRule r) : HistorySpec r := by
  intro i q hq
  obtain ⟨request, hrequest, -, hholds, -⟩ := h.kept.rows i q hq
  have href : (r.inputBatch.reqOutputTokenIds[i]?).join = some request.outputTokenIds := hholds
  exact ⟨request, request.outputTokenIds, hrequest, Option.join_eq_some_iff.mp href, rfl⟩

theorem updateStates_historyFollows (h : Follows cfg historyRule r) (hwell : d.WellFormed r)
    (houtside : RollsBackOutside d r) (hok : updateStates cfg d r = .ok r') :
    Follows cfg historyRule r' := by
  refine updateStates_follows (historyRule_sound cfg.batch) h hwell ?_ (fun _ _ _ _ _ => trivial) hok
  intro data hdata hstays request request' _ href row hholds
  have hresult : data.specResult ≠ false := fun hfalse => houtside data hdata hfalse hstays
  exact hholds.trans (congrArg some (href hresult).symm)

end ModelRunner

namespace Cluster

open ModelRunner InputBatch

variable {cfg : Config} {runner : RunnerConfig} {c c' : Cluster} {event : Event}
  {events : List Event}

/-- If a batch is sent, it rolls back no request that keeps its row. -/
def Event.RollsBackOutside (c : Cluster) : Event → Prop
  | .operate _ => True
  | .launch _ d => ModelRunner.RollsBackOutside d c.worker

theorem Step.historyFollows (h : c.Informed) (hfollows : Follows runner historyRule c.worker)
    (hstep : Step cfg runner c event c') (houtside : event.RollsBackOutside c) :
    Follows runner historyRule c'.worker := by
  cases id hstep with
  | operate => exact hfollows
  | launch execute d _ _ hupdate =>
      exact updateStates_historyFollows hfollows (hstep.launchSpec h).wellFormed houtside hupdate

instance (d : Delivery) (r : ModelRunner) : Decidable (ModelRunner.RollsBackOutside d r) :=
  inferInstanceAs (Decidable (∀ data ∈ d.schedulerOutput.scheduledCachedReqs, _ → _))

instance (event : Event) (c : Cluster) : Decidable (event.RollsBackOutside c) :=
  match event with
  | .operate _ => .isTrue trivial
  | .launch _ d => inferInstanceAs (Decidable (ModelRunner.RollsBackOutside d c.worker))

/-- While no request is rolled back in its row, the sampler sees the history of every request. -/
theorem run_historySpec (hrun : Transition.Run
      (fun c event c' => Step cfg runner c event c' ∧ event.RollsBackOutside c)
      (init cfg) events c) : HistorySpec c.worker := by
  have hinv : c.Informed ∧ Follows runner historyRule c.worker := by
    refine hrun.invariant (I := fun c => c.Informed ∧ Follows runner historyRule c.worker)
      ⟨init_informed cfg, init_follows (historyRule_sound _)⟩ ?_
    intro c event c' h hstep
    exact ⟨hstep.1.informed h.1, hstep.1.historyFollows h.1 h.2 hstep.2⟩
  exact hinv.2.historySpec

/-- The drafts of request 1 are the tokens that verify them. -/
def acceptedDrafts : List Event :=
  [.operate (.addRequest 1 [2] { maxTokens := 4 } none)] ++
    launchIteration (System.constantExecutor 5 5) (prefillOutput 1 2 1) ++
    launchIteration (System.constantExecutor 5 5) {
      scheduledNewReqs := []
      scheduledCachedReqs := [⟨1, false, [5], [], 1, true, -1⟩]
      numScheduledTokens := [(1, 1)]
      totalNumScheduledTokens := 1
      finishedReqIds := [] } ++
    launchIteration (System.constantExecutor 5 5) {
      scheduledNewReqs := []
      scheduledCachedReqs := [⟨1, false, [5], [2], 2, true, -1⟩]
      numScheduledTokens := [(1, 1)]
      totalNumScheduledTokens := 1
      finishedReqIds := [] }

theorem run_historySpec_acceptedDrafts :
    ∃ c : Cluster, HistorySpec c.worker ∧
      (c.worker.requests 1).map (fun request => c.worker.heap.read request.outputTokenIds) =
        some [5, 5] := by
  have hsome : (acceptedDrafts.foldlM (fun (c : Cluster) (event : Event) =>
      if event.RollsBackOutside c then apply System.twoStages stageRunner c event else none)
      (init System.twoStages)).map (fun (c : Cluster) =>
        (c.worker.requests 1).map fun request => c.worker.heap.read request.outputTokenIds) =
      some (some [5, 5]) := by
    decide +kernel
  obtain ⟨c, hc, hread⟩ := Option.map_eq_some_iff.mp hsome
  have hrun : Transition.Run (fun c event c' =>
      Step System.twoStages stageRunner c event c' ∧ event.RollsBackOutside c)
      (init System.twoStages) acceptedDrafts c := by
    refine Transition.run_of_foldlM (fun c event c' h => ?_) hc
    split_ifs at h with houtside
    exact ⟨apply_step h, houtside⟩
  exact ⟨c, run_historySpec hrun, hread⟩

/-! ## A correction in the row -/

/-- In `promptFinish`, the draft of request 1 is rejected while it keeps its row, which then still
shows the rejected token. -/
theorem corrected_row_stale : ¬ ∀ cfg runner events c, Run cfg runner events c →
    HistorySpec c.worker := by
  intro hall
  obtain ⟨c, hc⟩ := Option.isSome_iff_exists.mp promptFinish_isSome
  have hrun : Run System.twoStages stageRunner promptFinish c :=
    Transition.run_of_foldlM (fun _ _ _ => apply_step) hc
  have hslot : (promptFinish.foldlM (apply System.twoStages stageRunner)
      (init System.twoStages)).map (·.worker.inputBatch.slot 0) = some (some 1) := by
    decide +kernel
  have hrow : (promptFinish.foldlM (apply System.twoStages stageRunner)
      (init System.twoStages)).map (fun c =>
        (c.worker.inputBatch.reqOutputTokenIds[0]?).join.map c.worker.heap.read) =
      some (some [6]) := by
    decide +kernel
  have hrequest : (promptFinish.foldlM (apply System.twoStages stageRunner)
      (init System.twoStages)).map (fun c =>
        (c.worker.requests 1).map fun request => c.worker.heap.read request.outputTokenIds) =
      some (some [5]) := by
    decide +kernel
  rw [hc, Option.map_some, Option.some_inj] at hslot hrow hrequest
  obtain ⟨request, ref, hknown, href, hsame⟩ := hall _ _ _ c hrun 0 1 hslot
  rw [href, Option.join_some, Option.map_some, Option.some_inj] at hrow
  rw [hknown, Option.map_some, Option.some_inj] at hrequest
  rw [hrow, hrequest] at hsame
  cases hsame

end Cluster

end Spexis
