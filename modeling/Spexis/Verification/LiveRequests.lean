import Spexis.Verification.Operations
import Spexis.Verification.Requests

/-! # Live requests along a run

The containers and counters of the scheduler agree with the queue of batches in
flight in every state of a run without external aborts. -/

namespace Spexis

open Python

namespace Scheduler

/-! ## Verification and the containers -/

/-- A batch of the request has been verified and the request goes on. -/
theorem Containers.land {s : Scheduler} {inFlight : ReqId → ℕ} {reqId : ReqId} {r : Request}
    (h : s.Containers inFlight []) (hflight : 1 ≤ inFlight reqId)
    (hrecord : (s.request reqId).landed.SameRecord r) (hstatus : r.status = (s.request reqId).status) :
    (s.setRequest reqId r).Containers (Function.update inFlight reqId (inFlight reqId - 1)) [] where
  perm := h.perm
  nodup := h.nodup
  scheduled_nodup := h.scheduled_nodup
  scheduled_running := h.scheduled_running
  count q hq := by
    by_cases hqr : q = reqId
    · subst hqr
      have hcount := h.count q hq
      have hlanded : r.numScheduled = (s.request q).numScheduled - 1 := hrecord.numScheduled
      simp only [setRequest_request, Function.update_self]
      simp only [List.not_mem_nil, ite_false] at hcount ⊢
      omega
    · simpa [Function.update_of_ne hqr] using h.count q hq
  waiting_idle q hq := by
    by_cases hqr : q = reqId
    · have hidle := h.waiting_idle q hq
      rw [hqr] at hidle
      omega
    · rw [Function.update_of_ne hqr, h.waiting_idle q hq]
  marked q hq := by
    by_cases hqr : q = reqId
    · subst hqr
      have hmark : r.shouldPreempt = (s.request q).shouldPreempt := hrecord.shouldPreempt
      simpa [hmark] using h.marked q hq
    · simpa [Function.update_of_ne hqr] using h.marked q hq
  status q hq := by
    by_cases hqr : q = reqId
    · subst hqr
      simp only [setRequest_request, Function.update_self, hstatus]
      obtain ⟨hw, hr, ht⟩ := h.status q hq
      exact ⟨hw, hr, ht⟩
    · simp only [setRequest_request, Function.update_of_ne hqr]
      obtain ⟨hw, hr, ht⟩ := h.status q hq
      exact ⟨hw, hr, ht⟩

/-- A request that is not waiting leaves for good. -/
theorem Containers.remove {cfg : Config} {s : Scheduler} {inFlight : ReqId → ℕ} {reqId : ReqId}
    (h : s.Containers inFlight []) (hlive : reqId ∈ s.requests) (hwait : reqId ∉ s.waiting)
    (r : Request) (n : ℕ) :
    ((s.setRequest reqId r).remove cfg reqId).Containers (Function.update inFlight reqId n) [] := by
  have hother : ∀ q ∈ s.requests.erase reqId, q ≠ reqId ∧ q ∈ s.requests := fun q hq =>
    (h.nodup.mem_erase_iff).mp hq
  constructor
  · have hperm : s.places.erase reqId =
        s.waiting ++ s.runningScheduled.erase reqId ++ s.toBePreempted.erase reqId := by
      rcases h.mem_requests.mp hlive with hw | hr | ht
      · exact absurd hw hwait
      · rw [places, List.erase_append_left _ (List.mem_append_right _ hr),
          List.erase_append_right _ hwait,
          List.erase_of_not_mem (h.running_notMem_toBePreempted hr)]
      · have hnot : reqId ∉ s.waiting ++ s.runningScheduled := by
          simp [hwait, h.toBePreempted_notMem_running ht]
        rw [places, List.erase_append_right _ hnot,
          List.erase_of_not_mem (h.toBePreempted_notMem_running ht)]
    change (s.waiting ++ s.runningScheduled.erase reqId ++ s.toBePreempted.erase reqId).Perm
      (s.requests.erase reqId)
    rw [← hperm]
    exact h.perm.erase reqId
  · exact h.nodup.erase reqId
  · exact h.scheduled_nodup
  · simp
  · intro q hq
    obtain ⟨hne, hq⟩ := hother q hq
    simpa [Scheduler.remove, Function.update_of_ne hne] using h.count q hq
  · intro q hq
    have hne : q ≠ reqId := fun heq => hwait (heq ▸ hq)
    rw [Function.update_of_ne hne]
    exact h.waiting_idle q hq
  · intro q hq
    obtain ⟨hne, hq⟩ := hother q hq
    have hmem : q ∈ s.toBePreempted.erase reqId ↔ q ∈ s.toBePreempted :=
      List.mem_erase_of_ne hne
    simpa [Scheduler.remove, Function.update_of_ne hne, hmem] using h.marked q hq
  · intro q hq
    obtain ⟨hne, hq⟩ := hother q hq
    obtain ⟨hw, hr, ht⟩ := h.status q hq
    simp only [Scheduler.remove, setRequest_request, Function.update_of_ne hne]
    exact ⟨hw, fun hm => hr (List.mem_of_mem_erase hm), fun hm => ht (List.mem_of_mem_erase hm)⟩

theorem VerifyMove.containers {cfg : Config} {output : ModelRunnerOutput} {s s' : Scheduler}
    {reqId : ReqId} {outputs : List EngineCoreOutput} {inFlight : ReqId → ℕ}
    (hmove : VerifyMove cfg output s reqId outputs s') (h : s.Containers inFlight [])
    (hflight : 1 ≤ inFlight reqId) :
    s'.Containers (Function.update inFlight reqId (inFlight reqId - 1)) [] := by
  cases hmove with
  | goesOn r tokens hverify =>
      obtain ⟨hrecord, hstatus⟩ := verifyTokens_record hverify
      exact h.land hflight hrecord (hstatus rfl)
  | stops r tokens hverify hlive hfinished =>
      refine h.remove hlive (fun hwait => ?_) r _
      have hidle := h.waiting_idle reqId hwait
      omega

theorem VerifyMoves.containers {cfg : Config} {output : ModelRunnerOutput} {s s' : Scheduler}
    {reqIds : List ReqId} {outputs : List EngineCoreOutput} {inFlight : ReqId → ℕ}
    (hmoves : VerifyMoves cfg output s reqIds outputs s') (hnodup : reqIds.Nodup)
    (h : s.Containers inFlight []) (hflight : ∀ q ∈ reqIds, 1 ≤ inFlight q) :
    s'.Containers (fun q => inFlight q - if q ∈ reqIds then 1 else 0) [] := by
  induction hmoves generalizing inFlight with
  | nil => simpa using h
  | @cons s s₁ s₂ reqId reqIds outputs outputs' hmove _ ih =>
      obtain ⟨hnotMem, hnodup⟩ := List.nodup_cons.mp hnodup
      have hone := hmove.containers h (hflight reqId (.head _))
      have hrest := ih hnodup hone (fun q hq => by
        have hne : q ≠ reqId := fun heq => hnotMem (heq ▸ hq)
        rw [Function.update_of_ne hne]
        exact hflight q (.tail _ hq))
      refine hrest.congr_inFlight (fun q _ => ?_)
      by_cases hq : q = reqId
      · subst hq
        simp [hnotMem]
      · simp [hq]

/-- What the verification of a batch does to each request. -/
structure VerifySpec (cfg : Config) (output : ModelRunnerOutput) (s : Scheduler)
    (reqIds : List ReqId) (outputs : List EngineCoreOutput) (s' : Scheduler) : Prop where
  same : ∀ q ∉ reqIds, s'.request q = s.request q ∧ (q ∈ s'.requests ↔ q ∈ s.requests) ∧
    outputs.filter (·.requestId = q) = []
  verified : ∀ q ∈ reqIds, ∃ stopped tokens r,
    verifyTokens cfg (s.request q).landed (output.sampledTokenIds q) = .ok (stopped, tokens, r) ∧
    s'.request q = r ∧ (stopped = true → q ∉ s'.requests) ∧
    (stopped = false → (q ∈ s'.requests ↔ q ∈ s.requests)) ∧
    outputs.filter (·.requestId = q) = verifiedOutput q (s.request q) r tokens
  waiting : s'.waiting = s.waiting
  running : s'.runningScheduled.Sublist s.runningScheduled
  toBePreempted : s'.toBePreempted.Sublist s.toBePreempted

theorem verifiedOutput_filter (q p : ReqId) (before after : Request) (tokens : List TokenId) :
    (verifiedOutput p before after tokens).filter (·.requestId = q) =
      if p = q then verifiedOutput p before after tokens else [] := by
  unfold verifiedOutput
  by_cases hp : p = q <;> split_ifs <;> simp [hp]

theorem VerifyMove.spec {cfg : Config} {output : ModelRunnerOutput} {s s' : Scheduler}
    {reqId : ReqId} {outputs : List EngineCoreOutput} (hnodup : s.requests.Nodup)
    (hmove : VerifyMove cfg output s reqId outputs s') :
    VerifySpec cfg output s [reqId] outputs s' := by
  cases hmove with
  | goesOn r tokens hverify =>
      refine ⟨fun q hq => ?_, fun q hq => ?_, rfl, .refl _, .refl _⟩
      · simp only [List.mem_singleton] at hq
        simp [Function.update_of_ne hq, verifiedOutput_filter, Ne.symm hq]
      · obtain rfl := List.mem_singleton.mp hq
        exact ⟨false, tokens, r, hverify, by simp, by simp, by simp,
          by simp [verifiedOutput_filter]⟩
  | stops r tokens hverify hlive hfinished =>
      refine ⟨fun q hq => ?_, fun q hq => ?_, rfl, List.erase_sublist, List.erase_sublist⟩
      · simp only [List.mem_singleton] at hq
        simp [remove, Function.update_of_ne hq, verifiedOutput_filter, Ne.symm hq,
          List.mem_erase_of_ne hq]
      · obtain rfl := List.mem_singleton.mp hq
        exact ⟨true, tokens, r, hverify, by simp [remove],
          fun _ => by simp [remove, hnodup.not_mem_erase], by simp,
          by simp [verifiedOutput_filter]⟩

theorem VerifyMove.requests_nodup {cfg : Config} {output : ModelRunnerOutput} {s s' : Scheduler}
    {reqId : ReqId} {outputs : List EngineCoreOutput} (hnodup : s.requests.Nodup)
    (hmove : VerifyMove cfg output s reqId outputs s') : s'.requests.Nodup := by
  cases hmove with
  | goesOn => exact hnodup
  | stops => exact hnodup.erase reqId

theorem VerifyMoves.spec {cfg : Config} {output : ModelRunnerOutput} {s s' : Scheduler}
    {reqIds : List ReqId} {outputs : List EngineCoreOutput}
    (hmoves : VerifyMoves cfg output s reqIds outputs s') (hnodup : reqIds.Nodup)
    (hrequests : s.requests.Nodup) : VerifySpec cfg output s reqIds outputs s' := by
  induction hmoves with
  | nil => exact ⟨by simp, by simp, rfl, .refl _, .refl _⟩
  | @cons s s₁ s₂ reqId reqIds outputs outputs' hmove _ ih =>
      obtain ⟨hnotMem, hnodup⟩ := List.nodup_cons.mp hnodup
      have hone := hmove.spec hrequests
      have hrest := ih hnodup (hmove.requests_nodup hrequests)
      refine ⟨fun q hq => ?_, ?_, hrest.waiting.trans hone.waiting,
        hrest.running.trans hone.running, hrest.toBePreempted.trans hone.toBePreempted⟩
      · obtain ⟨hne, hq⟩ := not_or.mp (fun h => hq (List.mem_cons.mpr h))
        obtain ⟨hr₁, hm₁, ho₁⟩ := hone.same q (by simpa using hne)
        obtain ⟨hr₂, hm₂, ho₂⟩ := hrest.same q hq
        exact ⟨hr₂.trans hr₁, hm₂.trans hm₁, by simp [List.filter_append, ho₁, ho₂]⟩
      · intro q hq
        by_cases hqr : q = reqId
        · subst hqr
          obtain ⟨stopped, tokens, r, hverify, hr, hgone, hstays, hout⟩ :=
            hone.verified q (List.mem_singleton_self q)
          obtain ⟨hr₂, hm₂, ho₂⟩ := hrest.same q hnotMem
          exact ⟨stopped, tokens, r, hverify, hr₂.trans hr, fun h => hm₂.not.mpr (hgone h),
            fun h => hm₂.trans (hstays h), by simp [List.filter_append, hout, ho₂]⟩
        · have hq' := (List.mem_cons.mp hq).resolve_left hqr
          obtain ⟨hr₁, hm₁, ho₁⟩ := hone.same q (by simpa using hqr)
          obtain ⟨stopped, tokens, r, hverify, hr, hgone, hstays, hout⟩ := hrest.verified q hq'
          rw [hr₁] at hverify hout
          exact ⟨stopped, tokens, r, hverify, hr, hgone, fun h => (hstays h).trans hm₁,
            by simp [List.filter_append, hout, ho₁]⟩

theorem VerifyMoves.requests_subset {cfg : Config} {output : ModelRunnerOutput} {s s' : Scheduler}
    {reqIds : List ReqId} {outputs : List EngineCoreOutput}
    (hmoves : VerifyMoves cfg output s reqIds outputs s') : s'.requests ⊆ s.requests := by
  induction hmoves with
  | nil => exact List.Subset.refl _
  | cons hmove _ ih =>
      refine List.Subset.trans ih ?_
      cases hmove with
      | goesOn => exact List.Subset.refl _
      | stops => exact List.erase_subset

/-- The requests a batch is verified for. -/
def batchRequests (s : Scheduler) (out : SpexisSchedulerOutput) : List ReqId :=
  (s.runningScheduled ++ s.toBePreempted).filter (out.numScheduled · ≠ 0)

theorem Containers.batchRequests_nodup {s : Scheduler} {inFlight : ReqId → ℕ}
    {scheduled : List ReqId} (h : s.Containers inFlight scheduled) (out : SpexisSchedulerOutput) :
    (s.batchRequests out).Nodup := by
  have hnodup := h.places_nodup
  rw [places, List.append_assoc] at hnodup
  exact (List.nodup_append.mp hnodup).2.1.filter _

theorem Containers.mem_batchRequests {s : Scheduler} {inFlight : ReqId → ℕ}
    {scheduled : List ReqId} {out : SpexisSchedulerOutput} {q : ReqId}
    (h : s.Containers inFlight scheduled) (hflight : out.numScheduled q ≠ 0 → 1 ≤ inFlight q) :
    q ∈ s.batchRequests out ↔ q ∈ s.requests ∧ out.numScheduled q ≠ 0 := by
  simp only [batchRequests, List.mem_filter, List.mem_append, decide_eq_true_eq, h.mem_requests]
  refine and_congr_left (fun hnum => ⟨.inr, fun hlive => hlive.resolve_left (fun hwait => ?_)⟩)
  have hidle := h.waiting_idle q hwait
  have hone := hflight hnum
  omega

end Scheduler

/-! ## The engine -/

namespace EngineCore

/-- The batches in flight that have scheduled a request, the oldest first. -/
def entries (e : EngineCore) (q : ReqId) : List InFlight :=
  (e.batchQueueForSpec.filterMap id).filter (·.schedulerOutput.numScheduled q ≠ 0)

/-- What the verification of the oldest batch does to a live request. -/
inductive Landing (cfg : Config) (e : EngineCore) (outputs : List EngineCoreOutput)
    (e' : EngineCore) (q : ReqId) : Prop where
  | absent (hentries : e'.entries q = e.entries q)
      (hrequest : e'.scheduler.request q = e.scheduler.request q)
      (hlive : q ∈ e'.scheduler.requests) (houtputs : outputs.filter (·.requestId = q) = [])
  | lands (batch : InFlight) (stopped : Bool) (tokens : List TokenId) (r : Request)
      (hentries : e.entries q = batch :: e'.entries q)
      (hverify : Scheduler.verifyTokens cfg (e.scheduler.request q).landed
        (batch.trueOutput.sampledTokenIds q) = .ok (stopped, tokens, r))
      (hrequest : e'.scheduler.request q = r)
      (hlive : q ∈ e'.scheduler.requests ↔ stopped = false)
      (houtputs : outputs.filter (·.requestId = q) =
        Scheduler.verifiedOutput q (e.scheduler.request q) r tokens)

/-- The containers agree with the batches in flight. -/
abbrev Contained (e : EngineCore) : Prop :=
  e.scheduler.Containers (fun q => (e.entries q).length) []

theorem entries_cons {e : EngineCore} {batch : InFlight} {queue : List (Option InFlight)}
    (h : e.batchQueueForSpec = some batch :: queue) (q : ReqId) :
    e.entries q = if batch.schedulerOutput.numScheduled q ≠ 0
      then batch :: entries { e with batchQueueForSpec := queue } q
      else entries { e with batchQueueForSpec := queue } q := by
  simp only [entries, h]
  by_cases hnum : batch.schedulerOutput.numScheduled q = 0 <;> simp [hnum]

/-- Verification either finds no batch or verifies the oldest one. -/
theorem verify_cases {cfg : Config} {e e' : EngineCore} {outputs : List EngineCoreOutput}
    (h : e.verify cfg = .ok (outputs, e')) :
    (outputs = [] ∧ e'.scheduler = e.scheduler ∧ ∀ q, e'.entries q = e.entries q) ∨
      ∃ batch queue, e.batchQueueForSpec = some batch :: queue ∧
        e'.batchQueueForSpec = queue ∧
        Scheduler.VerifyMoves cfg batch.trueOutput e.scheduler
          (e.scheduler.batchRequests batch.schedulerOutput) outputs e'.scheduler := by
  unfold verify at h
  split at h
  · cases h
    exact .inl ⟨rfl, rfl, fun _ => rfl⟩
  next queue hqueue =>
    cases h
    exact .inl ⟨rfl, rfl, fun q => by simp [entries, hqueue]⟩
  next batch queue hqueue =>
    simp only [bind_eq_ok, pure_eq_ok, Prod.exists, Prod.mk.injEq] at h
    obtain ⟨outputs', s', hupdate, rfl, rfl⟩ := h
    exact .inr ⟨batch, queue, hqueue, rfl, Scheduler.updateFromTrueOutput_moves hupdate⟩

theorem verify_landing {cfg : Config} {e e' : EngineCore} {outputs : List EngineCoreOutput}
    (hcont : e.Contained) (h : e.verify cfg = .ok (outputs, e')) :
    e'.Contained ∧ e'.scheduler.waiting = e.scheduler.waiting ∧
      ∀ q ∈ e.scheduler.requests, Landing cfg e outputs e' q := by
  rcases verify_cases h with ⟨rfl, hs, hentries⟩ | ⟨batch, queue, hqueue, hqueue', hmoves⟩
  · refine ⟨?_, by rw [hs], fun q hq => .absent (hentries q) (by rw [hs]) (hs ▸ hq) rfl⟩
    unfold Contained
    simpa only [hs, hentries] using hcont
  · have hnodup := hcont.batchRequests_nodup batch.schedulerOutput
    have hentries : ∀ q, e.entries q = if batch.schedulerOutput.numScheduled q ≠ 0
        then batch :: e'.entries q else e'.entries q := by
      intro q
      rw [entries_cons hqueue]
      simp only [entries, hqueue']
    have hmem : ∀ q, q ∈ e.scheduler.batchRequests batch.schedulerOutput ↔
        q ∈ e.scheduler.requests ∧ batch.schedulerOutput.numScheduled q ≠ 0 := fun q =>
      hcont.mem_batchRequests (fun hnum => by simp [hentries q, hnum])
    have hspec := hmoves.spec hnodup hcont.nodup
    refine ⟨?_, hspec.waiting, fun q hq => ?_⟩
    · have hall := hmoves.containers hnodup hcont (fun q hq => by
        simp [hentries q, ((hmem q).mp hq).2])
      refine hall.congr_inFlight (fun q hq => ?_)
      have hlive : q ∈ e.scheduler.requests := by
        by_cases hin : q ∈ e.scheduler.batchRequests batch.schedulerOutput
        · exact ((hmem q).mp hin).1
        · exact (hspec.same q hin).2.1.mp hq
      by_cases hnum : batch.schedulerOutput.numScheduled q = 0 <;> simp [hentries q, hmem, hlive, hnum]
    · by_cases hnum : batch.schedulerOutput.numScheduled q = 0
      · obtain ⟨hr, hlive, hout⟩ := hspec.same q (by simp [hmem, hnum])
        exact .absent (by simp [hentries q, hnum]) hr (hlive.mpr hq) hout
      · obtain ⟨stopped, tokens, r, hverify, hr, hgone, hstays, hout⟩ :=
          hspec.verified q ((hmem q).mpr ⟨hq, hnum⟩)
        refine .lands batch stopped tokens r (by simp [hentries q, hnum]) hverify hr ?_ hout
        cases stopped with
        | true => simp [hgone]
        | false => simp [hstays, hq]

theorem verify_shrinks {cfg : Config} {e e' : EngineCore} {outputs : List EngineCoreOutput}
    (h : e.verify cfg = .ok (outputs, e')) :
    e'.scheduler.requests ⊆ e.scheduler.requests ∧
      ∀ q, e'.entries q ≠ [] → e.entries q ≠ [] := by
  rcases verify_cases h with ⟨-, hs, hentries⟩ | ⟨batch, queue, hqueue, hqueue', hmoves⟩
  · exact ⟨by rw [hs]; exact List.Subset.refl _, fun q => by rw [hentries]; exact id⟩
  · refine ⟨hmoves.requests_subset, fun q hq => ?_⟩
    have heq : entries { e with batchQueueForSpec := queue } q = e'.entries q := by
      simp only [entries, hqueue']
    rw [entries_cons hqueue, heq]
    split_ifs
    · simp
    · exact hq

/-- The batch that `schedule` puts into the queue. -/
structure Launch (cfg : Config) (execute : Executor) (e : EngineCore) (st : Scheduling)
    (out : SpexisSchedulerOutput) (e' : EngineCore) : Prop where
  spec : Scheduler.ScheduleSpec cfg (fun q => (e.entries q).length) e.scheduler st out e'.scheduler
  entries : ∀ q, e'.entries q = e.entries q ++
    if q ∈ st.scheduled
      then [⟨out, (execute e'.scheduler out).trueOutput, e'.scheduler.request⟩] else []
  phase : e'.phase = if out.totalNumScheduledTokens > 0
    then .executing out (execute e'.scheduler out).specOutput else .idle

theorem numScheduled_iff {cfg : Config} {inFlight : ReqId → ℕ} {s s' : Scheduler}
    {st : Scheduling} {out : SpexisSchedulerOutput}
    (h : Scheduler.ScheduleSpec cfg inFlight s st out s') (q : ReqId) :
    out.numScheduled q ≠ 0 ↔ q ∈ st.scheduled := by
  have hnum : out.numScheduled q = st.numScheduled q := by
    rw [SpexisSchedulerOutput.numScheduled, h.numScheduledTokens]
    rfl
  rw [hnum]
  exact h.positive.numScheduled_iff h.contained.scheduled_nodup

theorem scheduled_of_total {cfg : Config} {inFlight : ReqId → ℕ} {s s' : Scheduler}
    {st : Scheduling} {out : SpexisSchedulerOutput}
    (h : Scheduler.ScheduleSpec cfg inFlight s st out s')
    (htotal : ¬ out.totalNumScheduledTokens > 0) : st.scheduled = [] := by
  have hsum : (st.numScheduledTokens.map Prod.snd).sum = 0 := by
    rw [← h.total]
    omega
  rw [Scheduling.scheduled, List.map_eq_nil_iff, List.eq_nil_iff_forall_not_mem]
  intro item hitem
  have hpos := h.positive item hitem
  have hzero := List.sum_eq_zero_iff_forall_eq_nat.mp hsum item.2 (List.mem_map_of_mem hitem)
  omega

theorem schedule_launch {cfg : Config} {execute : Executor} {e e' : EngineCore}
    (hcont : e.Contained) (h : e.schedule cfg execute = .ok e') :
    ∃ st out, Launch cfg execute e st out e' := by
  simp only [schedule, bind_eq_ok, Prod.exists] at h
  obtain ⟨result, s, hschedule, h⟩ := h
  obtain ⟨st, hspec⟩ := Scheduler.schedule_spec hcont hschedule
  have hiff := numScheduled_iff hspec
  refine ⟨st, result.schedulerOutput, ?_⟩
  split_ifs at h with htotal
  · cases h
    refine ⟨hspec, fun q => ?_, by simp [htotal]⟩
    by_cases hq : q ∈ st.scheduled
    · simp [entries, hq, (hiff q).mpr hq]
    · have hnum : result.schedulerOutput.numScheduled q = 0 := not_not.mp ((hiff q).not.mpr hq)
      simp [entries, hq, hnum]
  · cases h
    refine ⟨hspec, fun q => ?_, by simp [htotal]⟩
    simp [entries, scheduled_of_total hspec htotal]

theorem Launch.requests {cfg : Config} {execute : Executor} {e e' : EngineCore} {st : Scheduling}
    {out : SpexisSchedulerOutput} (h : Launch cfg execute e st out e') :
    e'.scheduler.requests = e.scheduler.requests :=
  h.spec.requests.trans (Scheduling.moves_requests h.spec.moves)

theorem Launch.contained {cfg : Config} {execute : Executor} {e e' : EngineCore} {st : Scheduling}
    {out : SpexisSchedulerOutput} (h : Launch cfg execute e st out e') : e'.Contained := by
  have hlaunch := Scheduler.Containers.launch h.spec.contained
  have hcount : ∀ q, (e'.entries q).length =
      (e.entries q).length + if q ∈ st.scheduled then 1 else 0 := by
    intro q
    rw [h.entries, List.length_append]
    split_ifs <;> rfl
  unfold Contained
  simp only [hcount]
  refine hlaunch.congr ?_ (fun q _ => ?_)
  · rw [h.spec.waiting, h.spec.running, h.spec.toBePreempted, h.spec.requests]
  · rw [h.spec.request]
    exact Request.built_advance_record _ _ _

/-- Draft ingestion touches neither containers nor counters. -/
theorem ingest_contained {cfg : Config} {e e' : EngineCore} {out : SpexisSchedulerOutput}
    {specOutput : ModelRunnerOutput} (hphase : e.phase = .executing out specOutput)
    (hcont : e.Contained) (h : e.ingest cfg = .ok e') :
    e'.Contained ∧ (∀ q, e'.entries q = e.entries q) ∧ e'.phase = .idle ∧
      Scheduler.IngestSpec cfg out specOutput e.scheduler e'.scheduler := by
  simp only [ingest, hphase, bind_eq_ok, pure_eq_ok] at h
  obtain ⟨s, hupdate, rfl⟩ := h
  have hspec := Scheduler.updateFromSpecOutput_spec hcont.running_nodup hupdate
  refine ⟨?_, fun q => rfl, rfl, hspec⟩
  refine Scheduler.Containers.congr hcont ?_ (fun q hq => ?_)
  · rw [hspec.eq]
  · by_cases hin : q ∈ e.scheduler.runningScheduled ∧ out.numScheduled q ≠ 0
    · obtain ⟨hrecord, hstatus⟩ := Scheduler.ingestTokens_record (hspec.ingest q hin.1 hin.2)
      exact ⟨hrecord.numScheduled, hrecord.shouldPreempt, hstatus⟩
    · rw [hspec.same q hin]
      exact ⟨rfl, rfl, rfl⟩

/-- What the bookkeeping promises between two operations. -/
structure Accounted (e : EngineCore) : Prop where
  once : ∀ q ∈ e.scheduler.requests, e.scheduler.places.count q = 1
  gone : ∀ q ∉ e.scheduler.requests, e.scheduler.places.count q = 0
  numScheduled : ∀ q ∈ e.scheduler.requests,
    (e.scheduler.request q).numScheduled = (e.entries q).length
  waiting : ∀ q ∈ e.scheduler.waiting, (e.scheduler.request q).numScheduled = 0
  marked : ∀ q ∈ e.scheduler.requests,
    (e.scheduler.request q).shouldPreempt = true ↔ q ∈ e.scheduler.toBePreempted

theorem Contained.accounted {e : EngineCore} (h : e.Contained) : e.Accounted where
  once q hq := List.count_eq_one_of_mem h.places_nodup (h.mem_places.mpr hq)
  gone q hq := List.count_eq_zero_of_not_mem (h.mem_places.not.mpr hq)
  numScheduled q hq := by simpa using h.count q hq
  waiting q hq := by
    have hcount := h.count q (h.waiting_mem hq)
    have hidle := h.waiting_idle q hq
    simp only [List.not_mem_nil, ite_false] at hcount
    omega
  marked := h.marked

end EngineCore

/-! ## Runs -/

namespace System

/-- The containers agree with the queue, and no request has an id that was not added. -/
structure Placed (sys : System) : Prop where
  contained : sys.engine.Contained
  added : sys.engine.scheduler.requests ⊆ sys.added
  entries_added : ∀ q, sys.engine.entries q ≠ [] → q ∈ sys.added

theorem init_placed (cfg : Config) : (init cfg).Placed where
  contained := by
    refine ⟨.refl _, List.nodup_nil, List.nodup_nil, List.nil_subset _, ?_, ?_, ?_, ?_⟩ <;>
      simp [init, EngineCore.init, Scheduler.init]
  added := List.nil_subset _
  entries_added q h := by
    simp [EngineCore.entries, init, EngineCore.init] at h

theorem addRequest_contained {e : EngineCore} {s : Scheduler} {reqId : ReqId}
    {promptTokenIds : List TokenId} {samplingParams : SamplingParams}
    {eosTokenId : Option TokenId} (hcont : e.Contained) (hfresh : reqId ∉ e.scheduler.requests)
    (hidle : e.entries reqId = [])
    (h : e.scheduler.addRequest reqId (.init promptTokenIds samplingParams eosTokenId) = .ok s) :
    EngineCore.Contained { e with scheduler := s } := by
  unfold Scheduler.addRequest at h
  split_ifs at h
  cases h
  have hrequests : setAdd e.scheduler.requests reqId = e.scheduler.requests ++ [reqId] :=
    if_neg hfresh
  have hne : ∀ q ∈ e.scheduler.requests, q ≠ reqId := fun q hq heq => hfresh (heq ▸ hq)
  have hrun : reqId ∉ e.scheduler.runningScheduled := fun hm => hfresh (hcont.running_mem hm)
  have htbp : reqId ∉ e.scheduler.toBePreempted := fun hm => hfresh (hcont.toBePreempted_mem hm)
  have hsplit : ∀ q, q ∈ e.scheduler.requests ++ [reqId] → q = reqId ∨ q ∈ e.scheduler.requests := by
    simp [or_comm]
  have hentries : ∀ s q, EngineCore.entries { e with scheduler := s } q = e.entries q :=
    fun _ _ => rfl
  constructor
  · have hperm := hcont.perm
    simp only [Scheduler.places, List.perm_iff_count, hrequests] at hperm ⊢
    intro q
    have hcount := hperm q
    simp only [List.count_append, Scheduler.setRequest_runningScheduled,
      Scheduler.setRequest_toBePreempted] at hcount ⊢
    omega
  · simp only [hrequests]
    exact hcont.nodup.append_singleton hfresh
  · exact List.nodup_nil
  · exact List.nil_subset _
  · intro q hq
    rcases hsplit q (hrequests ▸ hq) with rfl | hq
    · simp [hentries, hidle, Request.init]
    · simpa [Function.update_of_ne (hne q hq), hentries] using hcont.count q hq
  · intro q hq
    rcases List.mem_append.mp hq with hq | hq
    · exact hcont.waiting_idle q hq
    · obtain rfl := List.mem_singleton.mp hq
      exact List.length_eq_zero_iff.mpr hidle
  · intro q hq
    rcases hsplit q (hrequests ▸ hq) with rfl | hq
    · simpa [Request.init] using htbp
    · simpa [Function.update_of_ne (hne q hq)] using hcont.marked q hq
  · intro q hq
    rcases hsplit q (hrequests ▸ hq) with rfl | hq
    · refine ⟨fun _ => ?_, fun hm => absurd hm hrun, fun hm => absurd hm htbp⟩
      by_cases hfsm : samplingParams.guidedDecoding <;> simp [Request.init, hfsm]
    · obtain ⟨hw, hr, ht⟩ := hcont.status q hq
      simp only [Scheduler.setRequest_request, Function.update_of_ne (hne q hq)]
      refine ⟨fun hm => hw ?_, hr, ht⟩
      simpa [hne q hq] using hm

theorem addRequest_requests {s s' : Scheduler} {reqId : ReqId} {r : Request}
    (h : s.addRequest reqId r = .ok s') (q : ReqId) :
    q ∈ s'.requests ↔ q ∈ s.requests ∨ q = reqId := by
  unfold Scheduler.addRequest at h
  split_ifs at h
  cases h
  exact mem_setAdd

theorem Step.placed {cfg : Config} {sys sys' : System} {operation : Operation}
    (habort : operation.isAbort = false) (h : sys.Placed) (hstep : Step cfg sys operation sys') :
    sys'.Placed := by
  cases hstep with
  | addRequest reqId promptTokenIds samplingParams eosTokenId hphase hfresh hadd =>
      have hidle : sys.engine.entries reqId = [] := by
        by_contra hne
        exact hfresh (h.entries_added reqId hne)
      refine ⟨addRequest_contained h.contained (fun hm => hfresh (h.added hm)) hidle hadd, ?_,
        fun q hq => .tail _ (h.entries_added q hq)⟩
      intro q hq
      rcases (addRequest_requests hadd q).mp hq with hq | rfl
      · exact .tail _ (h.added hq)
      · exact .head _
  | compileGrammar reqId =>
      refine ⟨h.contained.congr rfl (fun q _ => ?_), h.added, h.entries_added⟩
      by_cases hq : q = reqId
      · subst hq
        simp [EngineCore.compileGrammar]
      · simp [EngineCore.compileGrammar, Function.update_of_ne hq]
  | finishRequests => exact absurd habort (by simp [Operation.isAbort])
  | verify hphase hverify =>
      obtain ⟨hcont, -, hlanding⟩ := EngineCore.verify_landing h.contained hverify
      obtain ⟨hrequests, hentries⟩ := EngineCore.verify_shrinks hverify
      exact ⟨hcont, fun q hq => h.added (hrequests hq), fun q hq => h.entries_added q (hentries q hq)⟩
  | schedule execute hphase hschedule =>
      obtain ⟨st, out, hlaunch⟩ := EngineCore.schedule_launch h.contained hschedule
      have hlive : ∀ q ∈ st.scheduled, q ∈ sys.engine.scheduler.requests := fun q hq =>
        Scheduling.moves_requests hlaunch.spec.moves ▸
          hlaunch.spec.contained.running_mem (hlaunch.spec.contained.scheduled_running hq)
      refine ⟨hlaunch.contained, fun q hq => h.added (hlaunch.requests ▸ hq), fun q hq => ?_⟩
      by_cases hq' : q ∈ st.scheduled
      · exact h.added (hlive q hq')
      · have hsame := hlaunch.entries q
        simp only [hq', ite_false, List.append_nil] at hsame
        exact h.entries_added q (hsame ▸ hq)
  | ingest hphase hingest =>
      obtain ⟨hcont, hentries, -, hspec⟩ := EngineCore.ingest_contained hphase h.contained hingest
      refine ⟨hcont, fun q hq => ?_, fun q hq => h.entries_added q (hentries q ▸ hq)⟩
      rw [hspec.eq] at hq
      exact h.added hq

theorem Run.placed {cfg : Config} {operations : List Operation} {sys : System}
    (hrun : Run cfg operations sys)
    (habort : ∀ operation ∈ operations, operation.isAbort = false) : sys.Placed :=
  hrun.invariant_on habort (init_placed cfg) (fun _ _ _ => Step.placed)

/-- What an operation does with the batches of the live requests. -/
structure Tracked (cfg : Config) (sys : System) (operation : Operation) (sys' : System) : Prop where
  /-- Nothing leaves the queue but by verification. -/
  kept : operation ≠ .verify → ∀ q, sys.engine.entries q <+: sys'.engine.entries q
  /-- A verified batch is applied once to each of its live requests, and to nothing else. -/
  applied : operation = .verify → ∃ outputs, sys'.outputs = sys.outputs ++ outputs ∧
    ∀ q ∈ sys.engine.scheduler.requests, EngineCore.Landing cfg sys.engine outputs sys'.engine q
  /-- A request goes back to the waiting queue only when nothing of it is in flight. -/
  returns : ∀ q ∈ sys.engine.scheduler.toBePreempted, q ∈ sys'.engine.scheduler.waiting →
    sys.engine.entries q = [] ∧ sys'.engine.entries q = []

theorem Step.kept {cfg : Config} {sys sys' : System} {operation : Operation} (h : sys.Placed)
    (hstep : Step cfg sys operation sys') (hverify : operation ≠ .verify) (q : ReqId) :
    sys.engine.entries q <+: sys'.engine.entries q := by
  cases hstep with
  | verify => exact absurd rfl hverify
  | schedule execute hphase hschedule =>
      obtain ⟨st, out, hlaunch⟩ := EngineCore.schedule_launch h.contained hschedule
      exact ⟨_, (hlaunch.entries q).symm⟩
  | ingest hphase hingest =>
      obtain ⟨-, hentries, -⟩ := EngineCore.ingest_contained hphase h.contained hingest
      exact (hentries q).symm ▸ List.prefix_rfl
  | _ => exact List.prefix_rfl

theorem Step.tracked {cfg : Config} {sys sys' : System} {operation : Operation} (h : sys.Placed)
    (habort : operation.isAbort = false) (hstep : Step cfg sys operation sys') :
    Tracked cfg sys operation sys' := by
  have hplaced := hstep.placed habort h
  refine ⟨hstep.kept h, ?_, fun q htbp hwait => ?_⟩
  · rintro rfl
    cases hstep with
    | verify hphase hverify =>
        exact ⟨_, rfl, (EngineCore.verify_landing h.contained hverify).2.2⟩
  · have hidle : sys'.engine.entries q = [] :=
      List.length_eq_zero_iff.mp (hplaced.contained.waiting_idle q hwait)
    refine ⟨?_, hidle⟩
    by_cases hverify : operation = .verify
    · subst hverify
      cases hstep with
      | verify hphase hverify =>
          rw [(EngineCore.verify_landing h.contained hverify).2.1] at hwait
          exact absurd hwait (h.contained.toBePreempted_notMem_waiting htbp)
    · exact List.prefix_nil.mp (hidle ▸ hstep.kept h hverify q)

/-- Every live request is in exactly one place and counts its batches in flight; each of
these is applied to it exactly once. -/
theorem run_accounted {cfg : Config} {operations : List Operation} {sys : System}
    (hrun : Run cfg operations sys)
    (habort : ∀ operation ∈ operations, operation.isAbort = false) :
    sys.engine.Accounted ∧ ∀ operation sys', operation.isAbort = false →
      Step cfg sys operation sys' → Tracked cfg sys operation sys' :=
  have hplaced := hrun.placed habort
  ⟨hplaced.contained.accounted, fun _ _ habort hstep => hstep.tracked hplaced habort⟩

/-- Two stages, two sequences, chunks of three tokens. -/
def twoStages : Config where
  scheduler := { maxNumSeqs := 2, maxNumBatchedTokens := 4, longPrefillTokenThreshold := 3 }
  kvCache := { blockSize := 2, numBlocks := 8, maxModelLen := 12, numPreallocateTokens := 0 }
  pipelineParallelSize := 2

/-- Every target token is the same; an entry yields a token when it covers the request. -/
def constantExecutor (token draft : TokenId) : Executor := fun s out =>
  let yields (q : ReqId) : Bool :=
    out.numScheduled q ≠ 0 ∧ (s.request q).numComputedTokens = (s.request q).numTokens
  { trueOutput := ⟨fun q => if yields q then [token] else [], fun _ => [], fun _ => []⟩
    specOutput := ⟨fun q => if yields q then [draft] else [], fun _ => [1], fun _ => []⟩ }

/-- One iteration that launches a batch. -/
def iteration (execute : Executor) : List Operation :=
  [.verify, .schedule execute, .ingest]

theorem run_accounted_two_requests :
    ∃ operations sys, Run twoStages operations sys ∧
      sys.engine.scheduler.runningScheduled = [0, 1] ∧ sys.engine.Accounted := by
  let operations : List Operation :=
    [.addRequest 0 [5, 6] { maxTokens := 4 } none, .addRequest 1 [7] { maxTokens := 4 } none] ++
      iteration (constantExecutor 3 3) ++ iteration (constantExecutor 3 4) ++ [.verify]
  have hsome : (applyAll twoStages operations (init twoStages)).map
      (fun sys => sys.engine.scheduler.runningScheduled) = some [0, 1] := by decide +kernel
  obtain ⟨sys, hsys, hrunning⟩ := Option.map_eq_some_iff.mp hsome
  have hrun : Run twoStages operations sys := applyAll_run hsys
  exact ⟨operations, sys, hrun, hrunning, (run_accounted hrun (by decide)).1⟩

end System

end Spexis
