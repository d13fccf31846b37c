import Spexis.Model.Cluster
import Spexis.Verification.Batches
import Spexis.Verification.Worker.ModelRunner

/-! # What the workers are told

The requests that finish, the batches that are launched, and what a worker knows after them. -/

namespace Spexis

open Python

namespace Scheduler

open Scheduling

variable {cfg : Config} {s s' s₁ s₂ s₃ : Scheduler} {reqId : ReqId}

/-! ## Requests that finish -/

/-- Live requests can only finish, and those that do are put on the list. -/
structure Retires (s s' : Scheduler) : Prop where
  requests : s'.requests.Sublist s.requests
  finished : ∀ q, q ∈ s'.finishedReqIds ↔
    q ∈ s.finishedReqIds ∨ q ∈ s.requests ∧ q ∉ s'.requests
  keepsStarted : KeepsStarted s.request s'.request

theorem Retires.of_eq (hrequests : s'.requests = s.requests)
    (hfinished : s'.finishedReqIds = s.finishedReqIds)
    (hkeeps : KeepsStarted s.request s'.request) : Retires s s' where
  requests := hrequests ▸ List.Sublist.refl _
  finished q := by
    rw [hrequests, hfinished]
    tauto
  keepsStarted := hkeeps

theorem Retires.refl (s : Scheduler) : Retires s s :=
  .of_eq rfl rfl (keepsStarted_refl _)

theorem Retires.trans (h : Retires s₁ s₂) (h' : Retires s₂ s₃) : Retires s₁ s₃ where
  requests := h'.requests.trans h.requests
  finished q := by
    have hsub : q ∈ s₂.requests → q ∈ s₁.requests := fun hq => h.requests.subset hq
    have hsub' : q ∈ s₃.requests → q ∈ s₂.requests := fun hq => h'.requests.subset hq
    rw [h'.finished, h.finished]
    tauto
  keepsStarted q hq := h.keepsStarted q (h'.keepsStarted q hq)

theorem not_unstarted_of_isFinished {r : Request} (h : r.isFinished = true) : ¬ r.Unstarted := by
  rw [Request.isFinished] at h
  rintro (hr | hr) <;> rw [hr] at h <;> cases h

/-- A request that has finished is taken off the live ones. -/
theorem Retires.of_erase (hnodup : s.requests.Nodup) (hlive : reqId ∈ s.requests)
    (hrequests : s'.requests = s.requests.erase reqId)
    (hfinished : s'.finishedReqIds = setAdd s.finishedReqIds reqId)
    (hkeeps : KeepsStarted s.request s'.request) : Retires s s' where
  requests := hrequests ▸ List.erase_sublist
  finished q := by
    rw [hfinished, hrequests, mem_setAdd, hnodup.mem_erase_iff]
    by_cases hq : q = reqId
    · subst hq
      simp [hlive]
    · simp only [hq, or_false, ne_eq, not_false_eq_true, true_and]
      tauto
  keepsStarted := hkeeps

theorem VerifyMove.retires {output : ModelRunnerOutput} {outputs : List EngineCoreOutput}
    (hnodup : s.requests.Nodup) (h : VerifyMove cfg output s reqId outputs s') : Retires s s' := by
  cases h with
  | goesOn r tokens hverify =>
      refine .of_eq rfl rfl (keepsStarted_update fun hr => ?_)
      have hstatus := (verifyTokens_record hverify).2 rfl
      rwa [Request.Unstarted, hstatus] at hr
  | stops r tokens hverify hlive hfinished =>
      refine .of_erase hnodup hlive rfl rfl (keepsStarted_update fun hr => ?_)
      exact absurd hr (not_unstarted_of_isFinished hfinished)

theorem VerifyMoves.retires {output : ModelRunnerOutput} {reqIds : List ReqId}
    {outputs : List EngineCoreOutput} (hnodup : s.requests.Nodup)
    (h : VerifyMoves cfg output s reqIds outputs s') : Retires s s' := by
  induction h with
  | nil => exact .refl _
  | cons hmove _ ih =>
      have hone := hmove.retires hnodup
      exact hone.trans (ih (hnodup.sublist hone.requests))

theorem finishRequests_retires {status : RequestStatus} {reqIds : List ReqId}
    (hnodup : s.requests.Nodup) (h : s.finishRequests cfg status reqIds = .ok s') :
    Retires s s' := by
  simp only [finishRequests, bind_eq_ok, pyAssert_eq_ok] at h
  obtain ⟨_, hfinished, h⟩ := h
  induction reqIds generalizing s with
  | nil =>
      cases h
      exact .refl _
  | cons reqId reqIds ih =>
      simp only [finishRequests.go] at h
      by_cases hlive : reqId ∉ s.requests
      · rw [if_pos hlive] at h
        exact ih hnodup h
      rw [if_neg hlive] at h
      by_cases hguard : (s.request reqId).status ≠ .running ∧ reqId ∉ s.waiting
      · rw [if_pos hguard] at h
        cases h
      rw [if_neg hguard] at h
      simp only [bind_eq_ok] at h
      obtain ⟨s₁, hfree, h⟩ := h
      obtain ⟨-, -, hs₁⟩ := freeRequest_eq_ok hfree
      have hkeeps : KeepsStarted s.request
          (Function.update s.request reqId { s.request reqId with status := status }) :=
        keepsStarted_update fun hr => absurd hr (not_unstarted_of_isFinished hfinished)
      have hone : Retires s s₁ := by
        rw [hs₁]
        refine .of_erase hnodup (not_not.mp hlive) ?_ ?_ ?_
        · split_ifs <;> rfl
        · split_ifs <;> rfl
        · split_ifs <;> exact hkeeps
      exact hone.trans (ih (hnodup.sublist hone.requests) h)

theorem updateFromSpecOutput_retires {out : SpexisSchedulerOutput} {output : ModelRunnerOutput}
    (hrunning : s.runningScheduled.Nodup) (h : s.updateFromSpecOutput cfg out output = .ok s') :
    Retires s s' := by
  have hspec := updateFromSpecOutput_spec hrunning h
  refine .of_eq (by rw [hspec.eq]) (by rw [hspec.eq]) fun q hq => ?_
  by_cases hin : q ∈ s.runningScheduled ∧ out.numScheduled q ≠ 0
  · have hstatus := (ingestTokens_record (hspec.ingest q hin.1 hin.2)).2
    rwa [Request.Unstarted, hstatus] at hq
  · rwa [hspec.same q hin] at hq

end Scheduler

namespace System

open Scheduling Scheduler

variable {cfg : Config} {sys sys' : System} {operation : Operation} {operations : List Operation}

/-- Every id in the scheduler has been added, and those that have finished are not live. -/
structure Registered (sys : System) : Prop where
  queued : sys.Queued
  nodup : sys.engine.scheduler.requests.Nodup
  live : sys.engine.scheduler.requests ⊆ sys.added
  finished : ∀ q ∈ sys.engine.scheduler.finishedReqIds,
    q ∈ sys.added ∧ q ∉ sys.engine.scheduler.requests

theorem init_registered (cfg : Config) : (init cfg).Registered where
  queued := init_queued cfg
  nodup := List.nodup_nil
  live := List.nil_subset _
  finished _ hq := absurd hq List.not_mem_nil

/-- What any operation does to the ids. -/
structure Advances (sys sys' : System) : Prop where
  added : sys.added ⊆ sys'.added
  requests : ∀ q ∈ sys'.engine.scheduler.requests,
    q ∈ sys.engine.scheduler.requests ∨ q ∉ sys.added
  keepsStarted : ∀ q ∈ sys.added, (sys'.engine.scheduler.request q).Unstarted →
    (sys.engine.scheduler.request q).Unstarted

/-- The finished requests are kept on the list. -/
def Collects (sys sys' : System) : Prop :=
  ∀ q, q ∈ sys'.engine.scheduler.finishedReqIds ↔ q ∈ sys.engine.scheduler.finishedReqIds ∨
    q ∈ sys.engine.scheduler.requests ∧ q ∉ sys'.engine.scheduler.requests

/-- An operation that adds no request and takes none off the list. -/
theorem Registered.retires (h : sys.Registered) (hqueued : sys'.Queued) (hadded : sys'.added = sys.added)
    (hretires : Retires sys.engine.scheduler sys'.engine.scheduler) :
    sys'.Registered ∧ sys.Advances sys' ∧ sys.Collects sys' := by
  have hsub := hretires.requests.subset
  refine ⟨⟨hqueued, h.nodup.sublist hretires.requests, fun q hq => hadded ▸ h.live (hsub hq),
    fun q hq => ?_⟩, ⟨by rw [hadded]; exact List.Subset.refl _, fun q hq => .inl (hsub hq),
    fun q _ => hretires.keepsStarted q⟩, hretires.finished⟩
  rw [hadded]
  rcases (hretires.finished q).mp hq with hq | ⟨hlive, hgone⟩
  · exact ⟨(h.finished q hq).1, fun hlive => (h.finished q hq).2 (hsub hlive)⟩
  · exact ⟨h.live hlive, hgone⟩

theorem addRequest_registered {s : Scheduler} {reqId : ReqId} {promptTokenIds : List TokenId}
    {samplingParams : SamplingParams} {eosTokenId : Option TokenId} (h : sys.Registered)
    (hfresh : reqId ∉ sys.added)
    (hqueued : System.Queued ⟨{ sys.engine with scheduler := s }, reqId :: sys.added, sys.outputs⟩)
    (hadd : sys.engine.scheduler.addRequest reqId
      (.init promptTokenIds samplingParams eosTokenId) = .ok s) :
    Registered ⟨{ sys.engine with scheduler := s }, reqId :: sys.added, sys.outputs⟩ ∧
      sys.Advances ⟨{ sys.engine with scheduler := s }, reqId :: sys.added, sys.outputs⟩ ∧
      sys.Collects ⟨{ sys.engine with scheduler := s }, reqId :: sys.added, sys.outputs⟩ := by
  unfold Scheduler.addRequest at hadd
  split_ifs at hadd
  cases hadd
  have hne : ∀ q ∈ sys.added, q ≠ reqId := fun q hq heq => hfresh (heq ▸ hq)
  refine ⟨⟨hqueued, nodup_setAdd h.nodup, fun q hq => ?_, fun q hq => ?_⟩,
    ⟨List.subset_cons_self _ _, fun q hq => ?_, fun q hq hstart => ?_⟩, fun q => ?_⟩
  · rcases mem_setAdd.mp hq with hq | rfl
    · exact List.mem_cons_of_mem _ (h.live hq)
    · exact List.mem_cons_self
  · obtain ⟨hadded, hgone⟩ := h.finished q hq
    refine ⟨List.mem_cons_of_mem _ hadded, fun hmem => ?_⟩
    rcases mem_setAdd.mp hmem with hlive | heq
    · exact hgone hlive
    · exact hne q hadded heq
  · rcases mem_setAdd.mp hq with hq | rfl
    · exact .inl hq
    · exact .inr hfresh
  · have hsame := Function.update_of_ne (hne q hq)
      (Request.init promptTokenIds samplingParams eosTokenId) sys.engine.scheduler.request
    simp only [Scheduler.setRequest] at hstart
    rwa [hsame] at hstart
  · simp only [Scheduler.setRequest, mem_setAdd]
    tauto

theorem Step.registered (h : sys.Registered) (hstep : Step cfg sys operation sys')
    (hne : ∀ execute, operation ≠ .schedule execute) :
    sys'.Registered ∧ sys.Advances sys' ∧ sys.Collects sys' := by
  have hqueued := hstep.queued h.queued
  cases hstep with
  | addRequest reqId promptTokenIds samplingParams eosTokenId hphase hfresh hadd =>
      exact addRequest_registered h hfresh hqueued hadd
  | compileGrammar reqId =>
      exact h.retires hqueued rfl (.of_eq rfl rfl (keepsStarted_update id))
  | finishRequests finishedStatus reqIds hphase hnodup hfinish =>
      exact h.retires hqueued rfl (finishRequests_retires h.nodup hfinish)
  | verify hphase hverify =>
      rcases EngineCore.verify_cases hverify with ⟨-, hs, -⟩ | ⟨batch, queue, -, -, hmoves⟩
      · exact h.retires hqueued rfl (hs ▸ .refl _)
      · exact h.retires hqueued rfl (hmoves.retires h.nodup)
  | schedule execute => exact absurd rfl (hne execute)
  | ingest hphase hingest =>
      simp only [EngineCore.ingest, hphase, bind_eq_ok, pure_eq_ok] at hingest
      obtain ⟨s, hupdate, rfl⟩ := hingest
      have hfront := (List.nodup_append.mp h.queued.queued.places_nodup).1
      exact h.retires hqueued rfl
        (updateFromSpecOutput_retires (List.nodup_append.mp hfront).2.1 hupdate)

/-- What scheduling does: the list of finished requests goes into the output. -/
theorem Step.schedule_registered {execute : Executor} (h : sys.Registered)
    (hstep : Step cfg sys (.schedule execute) sys') :
    sys'.Registered ∧ sys.Advances sys' ∧ ∃ out,
      BatchSpec sys.engine.scheduler out sys'.engine.scheduler ∧
      ∀ out' specOutput, sys'.engine.phase = .executing out' specOutput → out' = out := by
  have hqueued := hstep.queued h.queued
  cases hstep with
  | schedule _ hphase hschedule =>
      simp only [EngineCore.schedule, bind_eq_ok, Prod.exists] at hschedule
      obtain ⟨result, s, hschedule, he⟩ := hschedule
      have hspec := schedule_batchSpec h.queued.queued hschedule
      have hregistered : ∀ e : EngineCore, e.scheduler = s → System.Queued { sys with engine := e } →
          Registered { sys with engine := e } ∧ sys.Advances { sys with engine := e } := by
        rintro e rfl hqueued
        refine ⟨⟨hqueued, ?_, ?_, fun q hq => ?_⟩, List.Subset.refl _, fun q hq => .inl ?_,
          fun q _ => hspec.keepsStarted q⟩
        · rw [hspec.requests]
          exact h.nodup
        · rw [hspec.requests]
          exact h.live
        · rw [hspec.flushed] at hq
          exact absurd hq List.not_mem_nil
        · rwa [hspec.requests] at hq
      split_ifs at he <;> obtain rfl := pure_eq_ok.mp he
      · obtain ⟨hregistered, hadvances⟩ := hregistered _ rfl hqueued
        refine ⟨hregistered, hadvances, _, hspec, fun out' specOutput hout => ?_⟩
        cases hout
        rfl
      · obtain ⟨hregistered, hadvances⟩ := hregistered _ rfl hqueued
        refine ⟨hregistered, hadvances, _, hspec, fun out' specOutput hout => ?_⟩
        cases hout

end System

namespace ModelRunner

variable {cfg : RunnerConfig} {r r' : ModelRunner} {d : Delivery} {q : ReqId}

/-! ## What a worker knows -/

def Knows (r : ModelRunner) (q : ReqId) : Prop :=
  (r.requests q).isSome

theorem updateCachedRequests_knows {datas : List CachedRequestData} {reqIdsToAdd : List ReqId}
    (h : updateCachedRequests cfg datas r = .ok (reqIdsToAdd, r')) : r'.Knows q ↔ r.Knows q := by
  induction datas generalizing r reqIdsToAdd with
  | nil =>
      obtain ⟨-, rfl⟩ := Prod.mk.inj (Except.ok.inj h)
      exact Iff.rfl
  | cons data datas ih =>
      rw [updateCachedRequests] at h
      split at h
      · cases h
      next request hrequest =>
        obtain ⟨r₁, hupdate, h⟩ := bind_eq_ok.mp h
        obtain ⟨request₁, hspec⟩ := updateRequest_spec hupdate
        have hone : r₁.Knows q ↔ r.Knows q := by
          rw [Knows, Knows, hspec.requests]
          by_cases hq : q = data.reqId
          · rw [hq, Function.update_self, hrequest]
            exact Iff.rfl
          · rw [Function.update_of_ne hq]
        rw [← hone]
        split at h
        · simp only [bind_eq_ok, pure_eq_ok, Prod.exists, Prod.mk.injEq] at h
          obtain ⟨reqIds, r₂, hrest, -, rfl⟩ := h
          exact ih hrest
        · obtain ⟨b, -, hrest⟩ := bind_eq_ok.mp h
          exact ih (r := { r₁ with inputBatch := b }) hrest

theorem addRequests_requests {reqIds : List ReqId} {empties empties' : List ℕ}
    (h : addRequests cfg reqIds empties r = .ok (empties', r')) : r'.requests = r.requests := by
  induction reqIds generalizing empties r with
  | nil =>
      obtain ⟨-, rfl⟩ := Prod.mk.inj (Except.ok.inj h)
      rfl
  | cons reqId reqIds ih =>
      rw [addRequests] at h
      split at h
      · cases h
      · obtain ⟨b, -, hrest⟩ := bind_eq_ok.mp h
        exact ih (r := { r with inputBatch := b }) hrest

/-- A worker knows the new requests, and forgets the finished ones. -/
theorem updateStates_knows (h : updateStates cfg d r = .ok r') :
    r'.Knows q ↔ q ∈ d.schedulerOutput.scheduledNewReqs.map (·.reqId) ∨
      q ∉ d.schedulerOutput.finishedReqIds ∧ r.Knows q := by
  simp only [updateStates, bind_eq_ok, Prod.exists] at h
  obtain ⟨empties, r₁, hstale, reqIdsToAdd, r₃, hcached, empties', r₄, hadd, h⟩ := h
  simp only [removeStale, bind_eq_ok, pure_eq_ok, Prod.exists, Prod.mk.injEq] at hstale
  obtain ⟨_, b₁, -, _, b₂, -, _, -, -, hr₁⟩ := hstale
  have hstale : r₁.requests =
      fun q => if q ∈ d.schedulerOutput.finishedReqIds then none else r.requests q := by
    rw [← hr₁]
  obtain ⟨r₂, hr₂⟩ : ∃ r₂, r₂ = d.schedulerOutput.scheduledNewReqs.foldl
      (fun r data => addNewRequest d.params data r) r₁ := ⟨_, rfl⟩
  rw [← hr₂] at hcached
  obtain ⟨-, hother, hnew⟩ := addNewRequests_spec _ _ _ hr₂
  have hrequests : r'.requests = r₄.requests := by
    split_ifs at h
    · obtain rfl := pure_eq_ok.mp h
      rfl
    · simp only [bind_eq_ok, pure_eq_ok] at h
      obtain ⟨b, -, rfl⟩ := h
      rfl
  have hcached' : r'.Knows q ↔ r₂.Knows q := by
    rw [Knows, hrequests, addRequests_requests hadd]
    exact updateCachedRequests_knows hcached
  rw [hcached']
  by_cases hq : q ∈ d.schedulerOutput.scheduledNewReqs.map (·.reqId)
  · obtain ⟨request, hrequest, -⟩ := hnew q hq
    simp [Knows, hrequest, hq]
  · rw [Knows, hother q hq, hstale]
    by_cases hfinished : q ∈ d.schedulerOutput.finishedReqIds <;> simp [Knows, hq, hfinished]

end ModelRunner

namespace Cluster

variable {cfg : Config} {runner : RunnerConfig} {c c' : Cluster} {event : Event}
  {events : List Event}

/-- The workers only know requests that have been scheduled. -/
structure Informed (c : Cluster) : Prop where
  registered : c.system.Registered
  known : ∀ q, c.worker.Knows q →
    q ∈ c.system.added ∧ ¬ (c.system.engine.scheduler.request q).Unstarted

theorem init_informed (cfg : Config) : (init cfg).Informed where
  registered := System.init_registered cfg
  known q hq := by
    cases hq

/-- What a launch tells the workers. -/
structure LaunchSpec (c : Cluster) (d : Delivery) (c' : Cluster) : Prop where
  batch : Scheduler.BatchSpec c.system.engine.scheduler d.schedulerOutput
    c'.system.engine.scheduler
  wellFormed : d.WellFormed c.worker

theorem Step.launchSpec {execute : Executor} {d : Delivery} (h : c.Informed)
    (hstep : Step cfg runner c (.launch execute d) c') : LaunchSpec c d c' := by
  cases hstep with
  | launch _ _ hstep hphase hupdate =>
      obtain ⟨-, -, out, hspec, hout⟩ := hstep.schedule_registered h.registered
      obtain rfl := hout _ _ hphase
      refine ⟨hspec, hspec.nodup, fun q hq => .inr ?_⟩
      by_contra hknown
      exact (h.known q (Option.isSome_iff_ne_none.mpr hknown)).2 (hspec.new q hq).1

theorem Step.advances (h : c.Informed) (hstep : Step cfg runner c event c') :
    c'.system.Registered ∧ c.system.Advances c'.system := by
  cases hstep with
  | operate operation hstep hquiet =>
      by_cases hschedule : ∃ execute, operation = .schedule execute
      · obtain ⟨execute, rfl⟩ := hschedule
        obtain ⟨hregistered, hadvances, -⟩ := hstep.schedule_registered h.registered
        exact ⟨hregistered, hadvances⟩
      · obtain ⟨hregistered, hadvances, -⟩ := hstep.registered h.registered (not_exists.mp hschedule)
        exact ⟨hregistered, hadvances⟩
  | launch execute d hstep hphase hupdate =>
      obtain ⟨hregistered, hadvances, -⟩ := hstep.schedule_registered h.registered
      exact ⟨hregistered, hadvances⟩

theorem Step.informed (h : c.Informed) (hstep : Step cfg runner c event c') : c'.Informed := by
  obtain ⟨hregistered, hadvances⟩ := hstep.advances h
  have hold : ∀ q, c.worker.Knows q →
      q ∈ c'.system.added ∧ ¬ (c'.system.engine.scheduler.request q).Unstarted := by
    intro q hq
    obtain ⟨hadded, hstarted⟩ := h.known q hq
    exact ⟨hadvances.added hadded, fun hstart => hstarted (hadvances.keepsStarted q hadded hstart)⟩
  refine ⟨hregistered, fun q hq => ?_⟩
  cases id hstep with
  | operate => exact hold q hq
  | launch execute d _ _ hupdate =>
      have hlaunch := hstep.launchSpec h
      rcases (ModelRunner.updateStates_knows hupdate).mp hq with hnew | ⟨-, hq⟩
      · have hlive := hlaunch.batch.live q (List.mem_append_left _ hnew)
        exact ⟨hadvances.added (h.registered.live hlive), (hlaunch.batch.new q hnew).2⟩
      · exact hold q hq

theorem Run.informed (hrun : Run cfg runner events c) : c.Informed :=
  hrun.invariant (init_informed cfg) fun _ _ _ => Step.informed

end Cluster

end Spexis
