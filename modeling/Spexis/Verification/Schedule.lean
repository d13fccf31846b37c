import Spexis.Verification.Containers

/-! # The effect of `schedule`

After the passes have chosen the requests, the output is built from them and their
numbers of computed tokens advance. -/

namespace Spexis

open Python

namespace Request

@[simp] theorem advance_zero (r : Request) : r.advance 0 = r := rfl

/-- The request once its part of the output has been built. -/
def built (r : Request) (cached : Bool) : Request :=
  if cached then r.correctionSent else r

theorem correctionSent_idem (r : Request) : r.correctionSent.correctionSent = r.correctionSent := by
  unfold correctionSent
  split_ifs <;> simp_all

/-- Building and launching touch neither containers nor counters. -/
theorem built_advance_record (r : Request) (cached : Bool) (n : ℕ) :
    ((r.built cached).advance n).numScheduled = r.numScheduled ∧
      ((r.built cached).advance n).shouldPreempt = r.shouldPreempt ∧
      ((r.built cached).advance n).status = r.status := by
  unfold built correctionSent advance
  split_ifs <;> exact ⟨rfl, rfl, rfl⟩

end Request

namespace Scheduling

variable {st st' : Scheduling} {reqId : ReqId}

/-- The tokens of a request in the batch that is being put together. -/
def numScheduled (st : Scheduling) (reqId : ReqId) : ℕ :=
  (dictGet? st.numScheduledTokens reqId).getD 0

/-- The requests whose data the workers hold already. -/
def cachedReqs (st : Scheduling) : List ReqId :=
  st.scheduledResumedReqs ++ st.scheduledRunningFlushedReqs ++ st.scheduledRunningSpReqs

/-- Every scheduled request is given at least one token. -/
def Positive (st : Scheduling) : Prop :=
  ∀ item ∈ st.numScheduledTokens, 0 < item.2

theorem Move.positive {cfg : Config} (hmove : Move cfg st st') (h : st.Positive)
    (hwaiting : ∀ q ∈ st.waiting, q ∉ st.scheduled) : st'.Positive := by
  have hset : ∀ (q : ReqId) (n : ℕ), q ∉ st.scheduled → 0 < n →
      ∀ item ∈ dictSet st.numScheduledTokens q n, 0 < item.2 := by
    intro q n hq hn item hitem
    rw [dictSet_of_notMem hq, List.mem_append, List.mem_singleton] at hitem
    rcases hitem with hitem | rfl
    · exact h item hitem
    · exact hn
  cases hmove with
  | drain hmove => cases hmove <;> exact h
  | setPassed => exact h
  | running hmove =>
      cases hmove with
      | evict reqId realToken xs hlast hsched =>
          intro item hitem
          rw [preempt_numScheduledTokens] at hitem
          exact h item hitem
      | assign reqId realToken n blocks kv hmem hsched heligible hn hpos =>
          intro item hitem
          rw [assignRunning_numScheduledTokens] at hitem
          exact hset reqId n hsched hpos item hitem
      | _ => exact h
  | waiting hmove =>
      cases hmove with
      | admission reqId xs ys n numComputedTokens computedBlocks blocks kv₀ kv hmem hnone hroom
          hstatus hsearch hn hpos =>
          exact hset reqId n (hwaiting reqId (by simp [hmem])) hpos
      | _ => exact h

theorem Positive.numScheduled_iff (h : st.Positive) (hnodup : st.scheduled.Nodup) :
    st.numScheduled reqId ≠ 0 ↔ reqId ∈ st.scheduled := by
  unfold numScheduled
  cases hget : dictGet? st.numScheduledTokens reqId with
  | none => simpa [scheduled] using dictGet?_eq_none.mp hget
  | some n =>
      have hmem := (dictGet?_eq_some hnodup).mp hget
      have hpos := h _ hmem
      have hkey : reqId ∈ st.scheduled := List.mem_map_of_mem hmem
      simp only [Option.getD_some, hkey, iff_true]
      omega

/-! ## Building the output -/

theorem makeCachedRequestData_eq_ok {resumed : Bool} {data : CachedRequestData}
    (h : st.makeCachedRequestData reqId resumed = .ok (data, st')) :
    st' = { st.setRequest reqId (st.request reqId).correctionSent with
      cachedReqsData := setAdd st.cachedReqsData reqId } := by
  simp only [makeCachedRequestData, bind_eq_ok, pure_eq_ok, Prod.mk.injEq] at h
  obtain ⟨_, -, _, -, _, -, -, rfl⟩ := h
  rfl

/-- Only the kept corrections and the table of cached data change. -/
structure Built (st : Scheduling) (ids : List ReqId) (st' : Scheduling) : Prop where
  eq : st' = { st with
    request := fun q => (st.request q).built (q ∈ ids)
    cachedReqsData := st'.cachedReqsData }
  cached : ∀ q, q ∈ st'.cachedReqsData ↔ q ∈ st.cachedReqsData ∨ q ∈ ids

theorem Built.nil (st : Scheduling) : Built st [] st :=
  ⟨by simp [Request.built], by simp⟩

theorem Built.trans {st₁ st₂ st₃ : Scheduling} {xs ys : List ReqId} (h : Built st₁ xs st₂)
    (h' : Built st₂ ys st₃) : Built st₁ (xs ++ ys) st₃ := by
  refine ⟨?_, fun q => ?_⟩
  · rw [h'.eq, h.eq]
    simp only [Scheduling.mk.injEq, Scheduler.mk.injEq, and_true]
    funext q
    by_cases hx : q ∈ xs <;> by_cases hy : q ∈ ys <;>
      simp [Request.built, hx, hy, Request.correctionSent_idem]
  · rw [h'.cached, h.cached, List.mem_append, or_assoc]

theorem makeCachedRequestDataList_built {resumed : Bool} {ids : List ReqId}
    {data : List CachedRequestData}
    (h : makeCachedRequestDataList resumed ids st = .ok (data, st')) : Built st ids st' := by
  induction ids generalizing st data with
  | nil =>
      cases h
      exact .nil _
  | cons reqId ids ih =>
      simp only [makeCachedRequestDataList, bind_eq_ok, pure_eq_ok, Prod.exists,
        Prod.mk.injEq] at h
      obtain ⟨_, st₁, hone, _, st₂, hrest, -, rfl⟩ := h
      have heq := makeCachedRequestData_eq_ok hone
      have hfirst : Built st [reqId] st₁ := by
        refine ⟨?_, fun q => ?_⟩
        · rw [heq]
          simp only [setRequest, Scheduler.setRequest, Scheduling.mk.injEq, Scheduler.mk.injEq,
            and_true]
          funext q
          by_cases hq : q = reqId
          · subst hq
            simp [Request.built]
          · simp [Request.built, hq]
        · simp [heq]
      exact hfirst.trans (ih hrest)

/-- The output lists the chosen requests; building it only uses up kept corrections. -/
theorem makeOutput_built {out : SpexisSchedulerOutput} {resumeHelper : ResumeHelper}
    (h : st.makeOutput = .ok (out, resumeHelper, st')) :
    Built st st.cachedReqs st' ∧ out.numScheduledTokens = st.numScheduledTokens ∧
      out.totalNumScheduledTokens = (st.numScheduledTokens.map Prod.snd).sum ∧
      out.finishedReqIds = st.finishedReqIds := by
  simp only [makeOutput, bind_eq_ok, pure_eq_ok, Prod.exists, Prod.mk.injEq] at h
  obtain ⟨_, -, _, st₁, hresumed, _, st₂, hflushed, _, st₃, hsp, rfl, -, rfl⟩ := h
  have h₁ := makeCachedRequestDataList_built hresumed
  have h₂ := makeCachedRequestDataList_built hflushed
  have h₃ := makeCachedRequestDataList_built hsp
  have hflushed_eq : st₁.scheduledRunningFlushedReqs = st.scheduledRunningFlushedReqs := by
    rw [h₁.eq]
  have hsp_eq : st₂.scheduledRunningSpReqs = st.scheduledRunningSpReqs := by
    rw [h₂.eq, h₁.eq]
  rw [hflushed_eq] at h₂
  rw [hsp_eq] at h₃
  have hall := (h₁.trans h₂).trans h₃
  refine ⟨hall, ?_, ?_, ?_⟩ <;> rw [hall.eq]

end Scheduling

namespace Scheduler

open Scheduling

/-! ## The advance -/

theorem advanceComputed_eq_ok {items : List (ReqId × ℕ)} {s s' : Scheduler}
    (hnodup : (items.map Prod.fst).Nodup) (h : advanceComputed items s = .ok s') :
    (∀ reqId ∈ items.map Prod.fst, reqId ∈ s.requests) ∧
      s' = { s with request := fun q => (s.request q).advance ((dictGet? items q).getD 0) } := by
  induction items generalizing s with
  | nil =>
      cases h
      exact ⟨by simp, by simp⟩
  | cons item items ih =>
      obtain ⟨reqId, n⟩ := item
      simp only [List.map_cons, List.nodup_cons] at hnodup
      simp only [advanceComputed] at h
      split_ifs at h with hlive
      obtain ⟨hmem, rfl⟩ := ih hnodup.2 h
      refine ⟨?_, ?_⟩
      · simpa [setRequest] using ⟨hlive, by simpa [setRequest] using hmem⟩
      · simp only [setRequest, Scheduler.mk.injEq, and_true]
        funext q
        by_cases hq : q = reqId
        · subst hq
          have hnone : dictGet? items q = none := dictGet?_eq_none.mpr hnodup.1
          simp [hnone]
        · rw [Function.update_of_ne hq, dictGet?_cons_of_ne (Ne.symm hq)]

/-! ## The whole call -/

/-- The scheduler and the local variables when `schedule` starts. -/
def begin (cfg : Config) (s : Scheduler) : Scheduling :=
  { s with tokenBudget := cfg.maxNumScheduledTokens }

/-- What `schedule` does to a scheduler, by way of the state in which it has chosen its
requests. -/
structure ScheduleSpec (cfg : Config) (inFlight : ReqId → ℕ) (s : Scheduler) (st : Scheduling)
    (out : SpexisSchedulerOutput) (s' : Scheduler) : Prop where
  select : ∃ maxDroppedConfidence,
    selectRequests cfg (s.begin cfg) = .ok (st, maxDroppedConfidence)
  moves : Moves cfg (s.begin cfg) st
  contained : st.Contained inFlight
  positive : st.Positive
  request : ∀ q, s'.request q =
    ((st.request q).built (q ∈ st.cachedReqs)).advance (st.numScheduled q)
  requests : s'.requests = st.requests
  waiting : s'.waiting = st.waiting
  running : s'.runningScheduled = st.runningScheduled
  toBePreempted : s'.toBePreempted = st.toBePreempted
  kvCacheManager : s'.kvCacheManager = st.kvCacheManager
  numScheduledTokens : out.numScheduledTokens = st.numScheduledTokens
  total : out.totalNumScheduledTokens = (st.numScheduledTokens.map Prod.snd).sum
  total_le : out.totalNumScheduledTokens ≤ cfg.maxNumScheduledTokens
  running_le : st.runningScheduled.length ≤ cfg.scheduler.maxNumSeqs
  unstructured : ∀ q ∈ st.scheduled, (st.request q).useStructuredOutput = false
  finished : out.finishedReqIds = st.finishedReqIds ∧ s'.finishedReqIds = []

theorem begin_contained {cfg : Config} {s : Scheduler} {inFlight : ReqId → ℕ}
    (h : s.Containers inFlight []) : (s.begin cfg).Contained inFlight :=
  h

theorem moves_contained {cfg : Config} {st st' : Scheduling} {inFlight : ReqId → ℕ}
    (hmoves : Moves cfg st st') (h : st.Contained inFlight) : st'.Contained inFlight := by
  induction hmoves with
  | refl => exact h
  | tail _ hmove ih => exact hmove.contained ih

theorem moves_positive {cfg : Config} {st st' : Scheduling} {inFlight : ReqId → ℕ}
    (hmoves : Moves cfg st st') (hcont : st.Contained inFlight) (h : st.Positive) :
    st'.Positive := by
  induction hmoves with
  | refl => exact h
  | tail hmoves hmove ih =>
      have hcont' := moves_contained hmoves hcont
      exact hmove.positive ih (fun q hq =>
        hcont'.scheduled_iff_false (hcont'.waiting_notMem_running hq))

theorem schedule_spec {cfg : Config} {s s' : Scheduler} {inFlight : ReqId → ℕ}
    {result : ScheduleResult} (hcont : s.Containers inFlight [])
    (h : s.schedule cfg = .ok (result, s')) :
    ∃ st, ScheduleSpec cfg inFlight s st result.schedulerOutput s' := by
  simp only [schedule, bind_eq_ok, pure_eq_ok, Prod.exists, Prod.mk.injEq] at h
  obtain ⟨st, _, hselect, _, hcheck, out, _, st₁, hout, s₁, hadvance, rfl, rfl⟩ := h
  have hmoves : Moves cfg (s.begin cfg) st := selectRequests_moves hcont.running_nodup rfl hselect
  have hst := moves_contained hmoves (begin_contained hcont)
  obtain ⟨hbuilt, hnum, htotal, hfinished⟩ := makeOutput_built hout
  have hkeys : st₁.numScheduledTokens = st.numScheduledTokens := by rw [hbuilt.eq]
  obtain ⟨-, hs₁⟩ := advanceComputed_eq_ok (by rw [hkeys]; exact hst.scheduled_nodup) hadvance
  simp only [checkConstraints, bind_eq_ok, pyAssert_eq_ok] at hcheck
  obtain ⟨_, hsum, _, hlen, _, -, hstruct⟩ := hcheck
  have hpositive := moves_positive hmoves (begin_contained hcont) (fun _ hitem => absurd hitem List.not_mem_nil)
  refine ⟨st, ⟨_, hselect⟩, hmoves, hst, hpositive, ?_, ?_, ?_, ?_, ?_, ?_, hnum, htotal,
    htotal ▸ hsum, hlen, ?_, ?_⟩
  · intro q
    rw [hs₁, hkeys, hbuilt.eq]
    rfl
  · rw [hs₁, hbuilt.eq]
  · rw [hs₁, hbuilt.eq]
  · rw [hs₁, hbuilt.eq]
  · rw [hs₁, hbuilt.eq]
  · rw [hs₁, hbuilt.eq]
  · split_ifs at hstruct with hany
    rw [Bool.not_eq_true, List.any_eq_false] at hany
    exact fun q hq => by simpa using hany q hq
  · exact ⟨hfinished, rfl⟩

end Scheduler

end Spexis
