import Spexis.Verification.Admission

/-! # The requests of a batch

Which requests an output lists, and which of them are new, whatever has been aborted. -/

namespace Spexis

open Python

/-- Has the request never been scheduled? -/
def Request.Unstarted (r : Request) : Prop :=
  r.status = .waiting ∨ r.status = .waitingForFsm

namespace Scheduling

open Scheduler

variable {cfg : Config} {s : Scheduler} {st st' : Scheduling}

/-! ## The moves -/

/-- A request that has been scheduled stays so. -/
def KeepsStarted (request request' : ReqId → Request) : Prop :=
  ∀ q, (request' q).Unstarted → (request q).Unstarted

theorem keepsStarted_refl (request : ReqId → Request) : KeepsStarted request request :=
  fun _ => id

theorem keepsStarted_update {request : ReqId → Request} {reqId : ReqId} {r : Request}
    (h : r.Unstarted → (request reqId).Unstarted) :
    KeepsStarted request (Function.update request reqId r) := by
  intro q hq
  by_cases hqr : q = reqId
  · subst hqr
    rw [Function.update_self] at hq
    exact h hq
  · rwa [Function.update_of_ne hqr] at hq

theorem Move.keepsStarted (hmove : Move cfg st st') : KeepsStarted st.request st'.request := by
  cases hmove with
  | drain hmove => cases hmove <;> exact keepsStarted_update id
  | setPassed passed =>
      intro q hq
      obtain ⟨b, hb⟩ := setConfidencePassed_request st passed q
      rwa [hb] at hq
  | running hmove =>
      cases hmove with
      | allocFail => exact keepsStarted_refl _
      | evict reqId realToken xs hlast =>
          unfold preempt
          split <;> exact keepsStarted_update fun hr => by rcases hr with hr | hr <;> cases hr
      | assign reqId realToken n blocks kv hmem =>
          rw [assignRunning_request, setRequest_request, Function.update_self,
            Function.update_idem]
          refine keepsStarted_update fun hr => ?_
          cases realToken <;> exact hr
      | drop => exact keepsStarted_update id
  | waiting hmove =>
      cases hmove with
      | markReady reqId =>
          refine keepsStarted_update fun hr => ?_
          unfold ready at hr
          split_ifs at hr with hfsm
          · exact .inr hfsm
          · exact hr
      | searchCache => exact keepsStarted_refl _
      | refused => exact keepsStarted_refl _
      | admission =>
          rw [admitted_request]
          exact keepsStarted_update fun hr => by rcases hr with hr | hr <;> cases hr

/-- The new and the cached requests make up the batch, and all of them are running. -/
structure Listed (s : Scheduler) (st : Scheduling) : Prop where
  places_nodup : st.places.Nodup
  scheduled_nodup : st.scheduled.Nodup
  running : st.scheduled ⊆ st.runningScheduled
  perm : (st.scheduledNewReqs ++ st.cachedReqs).Perm st.scheduled
  keepsStarted : KeepsStarted s.request st.request
  new : ∀ q ∈ st.scheduledNewReqs, (s.request q).Unstarted ∧ ¬ (st.request q).Unstarted

theorem begin_listed (hs : s.Queued) : Listed s (s.begin cfg) where
  places_nodup := hs.places_nodup
  scheduled_nodup := List.nodup_nil
  running := List.nil_subset _
  perm := .refl _
  keepsStarted := keepsStarted_refl _
  new _ hq := absurd hq List.not_mem_nil

/-- A move that schedules nothing. -/
theorem Listed.unscheduled (h : Listed s st) (hmove : Move cfg st st')
    (hscheduled : st'.scheduled = st.scheduled) (hrunning : st.scheduled ⊆ st'.runningScheduled)
    (hnew : st'.scheduledNewReqs = st.scheduledNewReqs) (hcached : st'.cachedReqs = st.cachedReqs) :
    Listed s st' where
  places_nodup := by
    obtain ⟨places, hperm, hsub⟩ := hmove.queueStep.places
    exact hperm.nodup_iff.mp (h.places_nodup.sublist hsub)
  scheduled_nodup := hscheduled ▸ h.scheduled_nodup
  running := hscheduled ▸ hrunning
  perm := by
    rw [hnew, hcached, hscheduled]
    exact h.perm
  keepsStarted q hq := h.keepsStarted q (hmove.keepsStarted q hq)
  new q hq := by
    rw [hnew] at hq
    exact ⟨(h.new q hq).1, fun hstart => (h.new q hq).2 (hmove.keepsStarted q hstart)⟩

/-- A move that schedules one request. -/
theorem Listed.schedule {reqId : ReqId} (h : Listed s st) (hmove : Move cfg st st')
    (hnot : reqId ∉ st.scheduled) (hscheduled : st'.scheduled = st.scheduled ++ [reqId])
    (hrunning : st.runningScheduled ⊆ st'.runningScheduled)
    (hmem : reqId ∈ st'.runningScheduled)
    (hlisted : st'.scheduledNewReqs = st.scheduledNewReqs ∧
        (st'.cachedReqs).Perm (st.cachedReqs ++ [reqId]) ∨
      st'.scheduledNewReqs = st.scheduledNewReqs ++ [reqId] ∧ st'.cachedReqs = st.cachedReqs ∧
        (st.request reqId).Unstarted ∧ ¬ (st'.request reqId).Unstarted) :
    Listed s st' where
  places_nodup := by
    obtain ⟨places, hperm, hsub⟩ := hmove.queueStep.places
    exact hperm.nodup_iff.mp (h.places_nodup.sublist hsub)
  scheduled_nodup := by
    rw [hscheduled]
    exact h.scheduled_nodup.append_singleton hnot
  running := by
    rw [hscheduled]
    refine List.append_subset.mpr ⟨fun q hq => hrunning (h.running hq), ?_⟩
    rintro q hq
    rwa [List.mem_singleton.mp hq]
  perm := by
    rw [hscheduled]
    rcases hlisted with ⟨hnew, hcached⟩ | ⟨hnew, hcached, -, -⟩
    · rw [hnew]
      calc (st.scheduledNewReqs ++ st'.cachedReqs).Perm
            (st.scheduledNewReqs ++ (st.cachedReqs ++ [reqId])) := hcached.append_left _
        _ = (st.scheduledNewReqs ++ st.cachedReqs) ++ [reqId] := (List.append_assoc _ _ _).symm
        List.Perm _ _ := h.perm.append_right _
    · rw [hnew, hcached, List.append_assoc]
      calc (st.scheduledNewReqs ++ ([reqId] ++ st.cachedReqs)).Perm
            (st.scheduledNewReqs ++ (st.cachedReqs ++ [reqId])) :=
              List.perm_append_comm.append_left _
        _ = (st.scheduledNewReqs ++ st.cachedReqs) ++ [reqId] := (List.append_assoc _ _ _).symm
        List.Perm _ _ := h.perm.append_right _
  keepsStarted q hq := h.keepsStarted q (hmove.keepsStarted q hq)
  new q hq := by
    have hold : q ∈ st.scheduledNewReqs → (s.request q).Unstarted ∧ ¬ (st'.request q).Unstarted :=
      fun hq => ⟨(h.new q hq).1, fun hstart => (h.new q hq).2 (hmove.keepsStarted q hstart)⟩
    rcases hlisted with ⟨hnew, -⟩ | ⟨hnew, -, hunstarted, hstarted⟩
    · exact hold (hnew ▸ hq)
    · rw [hnew, List.mem_append, List.mem_singleton] at hq
      rcases hq with hq | rfl
      · exact hold hq
      · exact ⟨h.keepsStarted q hunstarted, hstarted⟩

theorem cachedReqs_assignRunning (st : Scheduling) (reqId : ReqId) (n : ℕ) (blocks : List BlockId)
    (realToken : Bool) :
    (assignRunning st reqId n blocks realToken).cachedReqs.Perm (st.cachedReqs ++ [reqId]) := by
  refine List.perm_iff_count.mpr fun q => ?_
  cases realToken <;>
    simp only [assignRunning, assignFlushed, assignSp, assign, cachedReqs, setRequest,
      List.count_append] <;> omega

theorem Move.listed (h : Listed s st) (hmove : Move cfg st st') : Listed s st' := by
  cases id hmove with
  | drain hmove' => cases hmove' <;> exact h.unscheduled hmove rfl h.running rfl rfl
  | setPassed => exact h.unscheduled hmove rfl h.running rfl rfl
  | running hmove' =>
      cases hmove' with
      | allocFail => exact h.unscheduled hmove rfl h.running rfl rfl
      | evict reqId realToken xs hlast hsched hclaim =>
          have hrest : st.scheduled ⊆ xs := by
            intro q hq
            have hmem := h.running hq
            rw [hlast, List.mem_append, List.mem_singleton] at hmem
            exact hmem.resolve_right fun heq => hsched (heq ▸ hq)
          refine h.unscheduled hmove ?_ ?_ ?_ ?_
          · rw [scheduled, preempt_numScheduledTokens, scheduled]
          · rw [preempt_runningScheduled]
            exact hrest
          · unfold preempt
            split <;> rfl
          · unfold preempt
            split <;> rfl
      | assign reqId realToken n blocks kv hmem hsched =>
          refine h.schedule hmove hsched (assignRunning_scheduled _ _ _ _ _ hsched) ?_ ?_
            (.inl ⟨?_, cachedReqs_assignRunning _ _ _ _ _⟩)
          · rw [assignRunning_runningScheduled]
            exact List.Subset.refl _
          · rw [assignRunning_runningScheduled]
            exact hmem
          · cases realToken <;> rfl
      | drop => exact h.unscheduled hmove rfl h.running rfl rfl
  | waiting hmove' =>
      cases hmove' with
      | markReady => exact h.unscheduled hmove rfl h.running rfl rfl
      | searchCache => exact h.unscheduled hmove rfl h.running rfl rfl
      | refused => exact h.unscheduled hmove rfl h.running rfl rfl
      | admission reqId xs ys n numComputedTokens computedBlocks blocks kv₀ kv hmem hnone hroom
          hstatus =>
          have hwaiting : reqId ∈ st.waiting := by simp [hmem]
          have hnot : reqId ∉ st.scheduled := fun hsched =>
            (List.nodup_append.mp (List.nodup_append.mp h.places_nodup).1).2.2 reqId hwaiting reqId
              (h.running hsched) rfl
          refine h.schedule hmove hnot (admitted_scheduled _ _ _ _ _ _ _ hnot) ?_ ?_ ?_
          · rw [admitted_runningScheduled]
            exact List.subset_append_left _ _
          · rw [admitted_runningScheduled]
            exact List.mem_append_right _ List.mem_cons_self
          · by_cases hpreempted : (st.request reqId).status = .preempted
            · refine .inl ⟨if_pos hpreempted, List.perm_iff_count.mpr fun q => ?_⟩
              simp only [cachedReqs, admitted, hpreempted, ite_true, assign, setRequest,
                List.count_append]
              omega
            · refine .inr ⟨if_neg hpreempted, ?_, .inl (hstatus.resolve_right hpreempted), ?_⟩
              · simp only [cachedReqs, admitted, hpreempted, ite_false, assign, setRequest]
              · rw [admitted_request, Function.update_self]
                rintro (hr | hr) <;> cases hr

theorem moves_listed (h : Listed s st) (hmoves : Moves cfg st st') : Listed s st' := by
  induction hmoves with
  | refl => exact h
  | tail _ hmove ih => exact hmove.listed ih

/-! ## The output -/

theorem makeNewRequestDataList_reqIds {reqIds : List ReqId} {data : List NewRequestData}
    (h : reqIds.mapM st.makeNewRequestData = .ok data) : data.map (·.reqId) = reqIds := by
  induction reqIds generalizing data with
  | nil =>
      cases h
      rfl
  | cons reqId reqIds ih =>
      simp only [List.mapM_cons, makeNewRequestData, bind_eq_ok, pure_eq_ok] at h
      obtain ⟨_, ⟨blockIds, -, rfl⟩, rest, hrest, rfl⟩ := h
      rw [List.map_cons, ih hrest]

theorem makeCachedRequestDataList_reqIds {resumed : Bool} {reqIds : List ReqId}
    {data : List CachedRequestData}
    (h : makeCachedRequestDataList resumed reqIds st = .ok (data, st')) :
    data.map (·.reqId) = reqIds := by
  induction reqIds generalizing st st' data with
  | nil =>
      cases h
      rfl
  | cons reqId reqIds ih =>
      simp only [makeCachedRequestDataList, makeCachedRequestData, bind_eq_ok, pure_eq_ok,
        Prod.exists, Prod.mk.injEq] at h
      obtain ⟨_, _, ⟨_, -, _, -, reqData, hcarry, rfl, -⟩, rest, _, hrest, rfl, -⟩ := h
      have hreqId : reqData.reqId = reqId := by
        unfold CachedRequestData.carry at hcarry
        split at hcarry
        · cases hcarry
          rfl
        · cases hcarry
        · simp only [bind_eq_ok, pure_eq_ok] at hcarry
          obtain ⟨_, -, rfl⟩ := hcarry
          rfl
      rw [List.map_cons, ih hrest, hreqId]

theorem makeOutput_reqIds {out : SpexisSchedulerOutput} {resumeHelper : ResumeHelper}
    (h : st.makeOutput = .ok (out, resumeHelper, st')) :
    out.scheduledNewReqs.map (·.reqId) = st.scheduledNewReqs ∧
      out.scheduledCachedReqs.map (·.reqId) = st.cachedReqs := by
  simp only [makeOutput, bind_eq_ok, pure_eq_ok, Prod.exists, Prod.mk.injEq] at h
  obtain ⟨_, hnew, _, st₁, hresumed, _, st₂, hflushed, _, st₃, hsp, rfl, -, -⟩ := h
  have hflushed_eq : st₁.scheduledRunningFlushedReqs = st.scheduledRunningFlushedReqs := by
    rw [(makeCachedRequestDataList_built hresumed).eq]
  have hsp_eq : st₂.scheduledRunningSpReqs = st.scheduledRunningSpReqs := by
    rw [(makeCachedRequestDataList_built hflushed).eq, (makeCachedRequestDataList_built hresumed).eq]
  rw [hflushed_eq] at hflushed
  rw [hsp_eq] at hsp
  refine ⟨makeNewRequestDataList_reqIds hnew, ?_⟩
  rw [List.map_append, List.map_append, makeCachedRequestDataList_reqIds hresumed,
    makeCachedRequestDataList_reqIds hflushed, makeCachedRequestDataList_reqIds hsp, cachedReqs]

end Scheduling

/-- The requests that an output lists. -/
def SpexisSchedulerOutput.reqIds (out : SpexisSchedulerOutput) : List ReqId :=
  out.scheduledNewReqs.map (·.reqId) ++ out.scheduledCachedReqs.map (·.reqId)

namespace Scheduler

open Scheduling

variable {cfg : Config} {s s' : Scheduler}

/-- What an output lists, and what it takes over. -/
structure BatchSpec (s : Scheduler) (out : SpexisSchedulerOutput) (s' : Scheduler) : Prop where
  perm : out.reqIds.Perm (out.numScheduledTokens.map Prod.fst)
  nodup : out.reqIds.Nodup
  live : ∀ q ∈ out.reqIds, q ∈ s.requests
  keepsStarted : KeepsStarted s.request s'.request
  new : ∀ q ∈ out.scheduledNewReqs.map (·.reqId),
    (s.request q).Unstarted ∧ ¬ (s'.request q).Unstarted
  requests : s'.requests = s.requests
  finishedReqIds : out.finishedReqIds = s.finishedReqIds
  flushed : s'.finishedReqIds = []

theorem schedule_batchSpec {result : ScheduleResult} (hs : s.Queued)
    (h : s.schedule cfg = .ok (result, s')) : BatchSpec s result.schedulerOutput s' := by
  simp only [schedule, bind_eq_ok, pure_eq_ok, Prod.exists, Prod.mk.injEq] at h
  obtain ⟨st, _, hselect, _, -, out, _, st₁, hout, s₁, hadvance, rfl, rfl⟩ := h
  have hrunning : s.runningScheduled.Nodup :=
    hs.places_nodup.sublist
      ((List.sublist_append_right _ _).trans (List.sublist_append_left _ _))
  have hmoves : Moves cfg (s.begin cfg) st := selectRequests_moves hrunning rfl hselect
  have hlisted := moves_listed (begin_listed hs) hmoves
  obtain ⟨hbuilt, hnum, -, hfinished⟩ := makeOutput_built hout
  obtain ⟨hnew, hcached⟩ := makeOutput_reqIds hout
  have hkeys : st₁.numScheduledTokens = st.numScheduledTokens := by rw [hbuilt.eq]
  obtain ⟨hlive, hs₁⟩ := advanceComputed_eq_ok (by rw [hkeys]; exact hlisted.scheduled_nodup) hadvance
  have hreqIds : out.reqIds.Perm st.scheduled := by
    rw [SpexisSchedulerOutput.reqIds, hnew, hcached]
    exact hlisted.perm
  have hstatus : ∀ q, (s₁.request q).status = (st.request q).status := by
    intro q
    rw [hs₁, hbuilt.eq]
    exact (Request.built_advance_record _ _ _).2.2
  have hstarted : ∀ q, (s₁.request q).Unstarted ↔ (st.request q).Unstarted := by
    intro q
    rw [Request.Unstarted, hstatus, Request.Unstarted]
  have hrequests : st.requests = s.requests := moves_requests hmoves
  refine ⟨?_, ?_, fun q hq => ?_, fun q hq => ?_, fun q hq => ?_, ?_, ?_, rfl⟩
  · rw [hnum]
    exact hreqIds
  · exact hreqIds.nodup_iff.mpr hlisted.scheduled_nodup
  · have hsched : q ∈ st₁.numScheduledTokens.map Prod.fst := by
      rw [hkeys]
      exact hreqIds.mem_iff.mp hq
    have hmem := hlive q hsched
    rw [hbuilt.eq] at hmem
    exact hrequests ▸ hmem
  · exact hlisted.keepsStarted q ((hstarted q).mp hq)
  · rw [hnew] at hq
    exact ⟨(hlisted.new q hq).1, fun hstart => (hlisted.new q hq).2 ((hstarted q).mp hstart)⟩
  · rw [hs₁, hbuilt.eq]
    exact hrequests
  · rw [hfinished]
    exact moves_finishedReqIds hmoves

end Scheduler

end Spexis
