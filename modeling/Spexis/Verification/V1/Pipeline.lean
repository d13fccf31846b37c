import Spexis.Library.DraftQueue
import Spexis.Verification.V1.Moves
import Spexis.Verification.V1.Updates

/-! # Batches in flight

The engine keeps several batches of the vanilla scheduler in flight. A request that is in one of
them must not be preempted: its id would stay among those that are being executed. -/

namespace Spexis.V1

open Python Transition

/-! ## One call of `schedule` -/

namespace Scheduling

variable {cfg : Config} {s : Scheduler} {st st' : Scheduling}

/-- What the moves of a call keep true. -/
structure Selecting (s : Scheduler) (st : Scheduling) : Prop where
  perm : (st.waiting ++ st.running).Perm (s.waiting ++ s.running)
  requests : st.requests = s.requests
  scheduledReqIds_nodup : st.scheduledReqIds.Nodup
  scheduledReqIds : ∀ q, q ∈ st.scheduledReqIds ↔ q ∈ s.scheduledReqIds ∨ q ∈ st.scheduled
  scheduled_nodup : st.scheduled.Nodup
  scheduled_running : ∀ q ∈ st.scheduled, q ∈ st.running
  scheduled_idle : ∀ q ∈ st.scheduled, q ∉ s.scheduledReqIds
  positive : ∀ item ∈ st.numScheduledTokens, 0 < item.2
  preempted : ∀ q ∈ st.preemptedReqs, q ∈ st.waiting ∧ q ∈ s.running
  stays : ∀ q ∈ s.running, q ∈ st.running ∨ q ∈ st.preemptedReqs
  admitted : ∀ q ∈ st.running, q ∈ s.running ∨ q ∈ st.scheduled
  queue : st.preemptedReqs = [] → st.waiting ⊆ s.waiting
  tokens : ∀ q, (st.request q).allTokenIds = (s.request q).allTokenIds ∧
    (st.request q).promptTokenIds = (s.request q).promptTokenIds
  held : ∀ q ∈ s.scheduledReqIds, q ∈ st.running → st.request q = s.request q

theorem Selecting.nodup (h : Selecting s st) (hnodup : (s.waiting ++ s.running).Nodup) :
    (st.waiting ++ st.running).Nodup :=
  h.perm.nodup_iff.mpr hnodup

theorem Selecting.waiting_notMem_running (h : Selecting s st)
    (hnodup : (s.waiting ++ s.running).Nodup) {q : ReqId} (hq : q ∈ st.waiting) :
    q ∉ st.running :=
  fun hmem => (List.nodup_append.mp (h.nodup hnodup)).2.2 q hq q hmem rfl

theorem startScheduling_selecting (cfg : Config) (hscheduled : s.scheduledReqIds.Nodup) :
    Selecting s (s.startScheduling cfg) where
  perm := .rfl
  requests := rfl
  scheduledReqIds_nodup := hscheduled
  scheduledReqIds := by simp [scheduled, Scheduler.startScheduling]
  scheduled_nodup := List.nodup_nil
  scheduled_running := nofun
  scheduled_idle := nofun
  positive := nofun
  preempted := nofun
  stays := fun _ => .inl
  admitted := fun _ => .inl
  queue := fun _ => List.Subset.refl _
  tokens := fun _ => ⟨rfl, rfl⟩
  held := fun _ _ _ => rfl

/-- A move that changes neither the queues nor the tokens of a request. -/
theorem Selecting.congr (h : Selecting s st) (hwaiting : st'.waiting = st.waiting)
    (hrunning : st'.running = st.running) (hrequests : st'.requests = st.requests)
    (hscheduledReqIds : st'.scheduledReqIds = st.scheduledReqIds)
    (hnum : st'.numScheduledTokens = st.numScheduledTokens)
    (hpreempted : st'.preemptedReqs = st.preemptedReqs)
    (htokens : ∀ q, (st'.request q).allTokenIds = (st.request q).allTokenIds ∧
      (st'.request q).promptTokenIds = (st.request q).promptTokenIds)
    (hheld : ∀ q ∈ st.running, st'.request q = st.request q) : Selecting s st' := by
  have hsched : st'.scheduled = st.scheduled := by rw [scheduled, hnum, scheduled]
  constructor
  · rw [hwaiting, hrunning]
    exact h.perm
  · rw [hrequests, h.requests]
  · rw [hscheduledReqIds]
    exact h.scheduledReqIds_nodup
  · rw [hscheduledReqIds, hsched]
    exact h.scheduledReqIds
  · rw [hsched]
    exact h.scheduled_nodup
  · rw [hsched, hrunning]
    exact h.scheduled_running
  · rw [hsched]
    exact h.scheduled_idle
  · rw [hnum]
    exact h.positive
  · rw [hpreempted, hwaiting]
    exact h.preempted
  · rw [hpreempted, hrunning]
    exact h.stays
  · rw [hrunning, hsched]
    exact h.admitted
  · rw [hpreempted, hwaiting]
    exact h.queue
  · exact fun q => ⟨(htokens q).1.trans (h.tokens q).1, (htokens q).2.trans (h.tokens q).2⟩
  · intro q hq hmem
    rw [hrunning] at hmem
    rw [hheld q hmem, h.held q hq hmem]

theorem preempted_selecting {running : List ReqId} {reqId : ReqId} {kv : KVCacheManager}
    (hnodup : (s.waiting ++ s.running).Nodup) (h : Selecting s st)
    (hlast : st.running = running ++ [reqId]) (hsched : reqId ∉ st.scheduled) :
    Selecting s (st.preempted running reqId kv) := by
  have hst := h.nodup hnodup
  rw [hlast] at hst
  have hnotMem : reqId ∉ running := fun hmem =>
    (List.nodup_append.mp (List.nodup_append.mp hst).2.1).2.2 reqId hmem reqId
      List.mem_cons_self rfl
  have hmem : reqId ∈ st.running := by simp [hlast]
  have hrunning : ∀ q, q ∈ running → q ∈ st.running ∧ q ≠ reqId := fun q hq =>
    ⟨by simp [hlast, hq], fun heq => hnotMem (heq ▸ hq)⟩
  have horigin : reqId ∈ s.running := (h.admitted reqId hmem).resolve_right hsched
  constructor
  · refine List.Perm.trans ?_ h.perm
    rw [hlast]
    change (reqId :: st.waiting ++ running).Perm _
    rw [List.cons_append, ← List.append_assoc]
    exact (List.perm_append_singleton reqId _).symm
  · exact h.requests
  · exact h.scheduledReqIds_nodup
  · exact h.scheduledReqIds
  · exact h.scheduled_nodup
  · intro q hq
    have hmem' := h.scheduled_running q hq
    rw [hlast, List.mem_append, List.mem_singleton] at hmem'
    exact hmem'.resolve_right (fun heq => hsched (heq ▸ hq))
  · exact h.scheduled_idle
  · exact h.positive
  · intro q hq
    rcases List.mem_append.mp hq with hq | hq
    · exact ⟨List.mem_cons_of_mem _ (h.preempted q hq).1, (h.preempted q hq).2⟩
    · rw [List.mem_singleton.mp hq]
      exact ⟨List.mem_cons_self, horigin⟩
  · intro q hq
    change q ∈ running ∨ q ∈ st.preemptedReqs ++ [reqId]
    rcases h.stays q hq with hq' | hq'
    · rw [hlast, List.mem_append, List.mem_singleton] at hq'
      exact hq'.imp id (fun heq => List.mem_append_right _ (List.mem_singleton.mpr heq))
    · exact .inr (List.mem_append_left _ hq')
  · exact fun q hq => h.admitted q (hrunning q hq).1
  · intro hnone
    exact absurd hnone (by simp [preempted])
  · intro q
    by_cases hq : q = reqId
    · subst hq
      simpa [preempted] using h.tokens q
    · simpa [preempted, Function.update_of_ne hq] using h.tokens q
  · intro q hq hmem'
    obtain ⟨hmem', hne⟩ := hrunning q hmem'
    rw [← h.held q hq hmem']
    exact Function.update_of_ne hne _ _

theorem trimSpecTokens_eq (r : Request) (n : ℕ) :
    ∃ specTokenIds, trimSpecTokens r n = { r with specTokenIds := specTokenIds } := by
  unfold trimSpecTokens
  split_ifs
  exacts [⟨_, rfl⟩, ⟨_, rfl⟩]

theorem assigned_selecting {reqId : ReqId} {n : ℕ} {blocks : List BlockId} {inputs : List ℕ}
    {encoderBudget : ℤ} {kv : KVCacheManager} (h : Selecting s st) (hmem : reqId ∈ st.running)
    (hidle : reqId ∉ st.scheduledReqIds) (hsched : reqId ∉ st.scheduled) (hpos : 0 < n) :
    Selecting s (st.assigned reqId n blocks inputs encoderBudget kv) := by
  obtain ⟨_, _, _, _, heq⟩ := st.assigned_eq reqId n blocks inputs encoderBudget kv
  rw [heq]
  have hidle₀ : reqId ∉ s.scheduledReqIds := fun hmem' =>
    hidle ((h.scheduledReqIds reqId).mpr (.inl hmem'))
  have hkeys : (dictSet st.numScheduledTokens reqId n).map Prod.fst = st.scheduled ++ [reqId] := by
    rw [dictSet_of_notMem hsched, List.map_append]
    rfl
  constructor
  · exact h.perm
  · exact h.requests
  · exact nodup_setAdd h.scheduledReqIds_nodup
  · intro q
    change q ∈ setAdd st.scheduledReqIds reqId ↔
      q ∈ s.scheduledReqIds ∨ q ∈ (dictSet st.numScheduledTokens reqId n).map Prod.fst
    rw [hkeys, mem_setAdd, h.scheduledReqIds, List.mem_append, List.mem_singleton, or_assoc]
  · rw [scheduled, hkeys]
    exact h.scheduled_nodup.append_singleton hsched
  · rw [scheduled, hkeys]
    intro q hq
    rcases List.mem_append.mp hq with hq | hq
    · exact h.scheduled_running q hq
    · exact List.mem_singleton.mp hq ▸ hmem
  · rw [scheduled, hkeys]
    intro q hq
    rcases List.mem_append.mp hq with hq | hq
    · exact h.scheduled_idle q hq
    · exact List.mem_singleton.mp hq ▸ hidle₀
  · rw [dictSet_of_notMem hsched]
    intro item hitem
    rcases List.mem_append.mp hitem with hitem | hitem
    · exact h.positive item hitem
    · rw [List.mem_singleton.mp hitem]
      exact hpos
  · exact h.preempted
  · exact h.stays
  · intro q hq
    rw [scheduled, hkeys, List.mem_append]
    exact (h.admitted q hq).imp id .inl
  · exact h.queue
  · intro q
    by_cases hq : q = reqId
    · subst hq
      obtain ⟨_, htrim⟩ := trimSpecTokens_eq (st.request q) n
      simpa [htrim] using h.tokens q
    · simpa [Function.update_of_ne hq] using h.tokens q
  · intro q hq hmem'
    have hne : q ≠ reqId := fun heq => hidle₀ (heq ▸ hq)
    rw [← h.held q hq hmem']
    exact Function.update_of_ne hne _ _

theorem admitted_selecting {reqId : ReqId} {xs ys : List ReqId} {n numComputedTokens : ℕ}
    {blocks : List BlockId} {inputs : List ℕ} {encoderBudget : ℤ} {kv : KVCacheManager}
    (hnodup : (s.waiting ++ s.running).Nodup) (hflight : s.scheduledReqIds ⊆ s.running)
    (h : Selecting s st) (hwaiting : st.waiting = xs ++ reqId :: ys)
    (hnone : st.preemptedReqs = []) (hpos : 0 < n) :
    Selecting s (st.admitted cfg (xs ++ ys) reqId numComputedTokens n blocks inputs encoderBudget
      kv) := by
  obtain ⟨_, _, _, _, _, _, heq⟩ :=
    st.admitted_eq cfg (xs ++ ys) reqId numComputedTokens n blocks inputs encoderBudget kv
  rw [heq]
  have hmem : reqId ∈ st.waiting := by simp [hwaiting]
  have hidle₀ : reqId ∉ s.scheduledReqIds := fun hmem' =>
    (List.nodup_append.mp hnodup).2.2 reqId (h.queue hnone hmem) reqId (hflight hmem') rfl
  have hsched : reqId ∉ st.scheduled := fun hmem' =>
    h.waiting_notMem_running hnodup hmem (h.scheduled_running reqId hmem')
  have hkeys : (dictSet st.numScheduledTokens reqId n).map Prod.fst = st.scheduled ++ [reqId] := by
    rw [dictSet_of_notMem hsched, List.map_append]
    rfl
  constructor
  · refine List.Perm.trans ?_ h.perm
    rw [hwaiting, ← List.append_assoc]
    refine (List.perm_append_singleton reqId _).trans ?_
    rw [List.append_assoc, List.append_assoc]
    exact List.perm_middle.symm
  · exact h.requests
  · exact nodup_setAdd h.scheduledReqIds_nodup
  · intro q
    change q ∈ setAdd st.scheduledReqIds reqId ↔
      q ∈ s.scheduledReqIds ∨ q ∈ (dictSet st.numScheduledTokens reqId n).map Prod.fst
    rw [hkeys, mem_setAdd, h.scheduledReqIds, List.mem_append, List.mem_singleton, or_assoc]
  · rw [scheduled, hkeys]
    exact h.scheduled_nodup.append_singleton hsched
  · rw [scheduled, hkeys]
    intro q hq
    exact List.mem_append.mpr ((List.mem_append.mp hq).imp (h.scheduled_running q) id)
  · rw [scheduled, hkeys]
    intro q hq
    rcases List.mem_append.mp hq with hq | hq
    · exact h.scheduled_idle q hq
    · exact List.mem_singleton.mp hq ▸ hidle₀
  · rw [dictSet_of_notMem hsched]
    intro item hitem
    rcases List.mem_append.mp hitem with hitem | hitem
    · exact h.positive item hitem
    · rw [List.mem_singleton.mp hitem]
      exact hpos
  · rw [hnone]
    exact fun q hq => absurd hq List.not_mem_nil
  · exact fun q hq => (h.stays q hq).imp (List.mem_append_left _) id
  · intro q hq
    rw [scheduled, hkeys, List.mem_append]
    rcases List.mem_append.mp hq with hq | hq
    · exact (h.admitted q hq).imp id .inl
    · exact .inr (.inr hq)
  · intro _ q hq
    refine h.queue hnone ?_
    rw [hwaiting]
    simp only [List.mem_append, List.mem_cons] at hq ⊢
    tauto
  · intro q
    by_cases hq : q = reqId
    · subst hq
      simpa using h.tokens q
    · simpa [Function.update_of_ne hq] using h.tokens q
  · intro q hq hmem'
    have hne : q ≠ reqId := fun heq => hidle₀ (heq ▸ hq)
    have hmem'' : q ∈ st.running := by
      rcases List.mem_append.mp hmem' with hmem' | hmem'
      · exact hmem'
      · exact absurd (List.mem_singleton.mp hmem') hne
    rw [← h.held q hq hmem'']
    exact Function.update_of_ne hne _ _

theorem Move.selecting (hnodup : (s.waiting ++ s.running).Nodup)
    (hflight : s.scheduledReqIds ⊆ s.running) (hmove : Move cfg st st') (h : Selecting s st) :
    Selecting s st' := by
  cases hmove with
  | running hmove =>
      cases hmove with
      | allocFail =>
          exact h.congr rfl rfl rfl rfl rfl rfl (fun _ => ⟨rfl, rfl⟩) (fun _ _ => rfl)
      | preempt reqId running kv hlast hsched hfree =>
          exact preempted_selecting hnodup h hlast hsched
      | assign reqId n blocks inputs encoderBudget kv hmem hidle hsched hpos =>
          exact assigned_selecting h hmem hidle hsched hpos
  | setLoras => exact h.congr rfl rfl rfl rfl rfl rfl (fun _ => ⟨rfl, rfl⟩) (fun _ _ => rfl)
  | waiting hmove =>
      cases hmove with
      | markReady reqId hmem =>
          refine h.congr rfl rfl rfl rfl rfl rfl (fun q => ?_) (fun q hq => ?_)
          · by_cases hq : q = reqId
            · subst hq
              unfold ready
              split_ifs <;> simp
            · simp [Function.update_of_ne hq]
          · have hne : q ≠ reqId := fun heq => h.waiting_notMem_running hnodup hmem (heq ▸ hq)
            exact Function.update_of_ne hne _ _
      | searchCache => exact h.congr rfl rfl rfl rfl rfl rfl (fun _ => ⟨rfl, rfl⟩) (fun _ _ => rfl)
      | refused => exact h.congr rfl rfl rfl rfl rfl rfl (fun _ => ⟨rfl, rfl⟩) (fun _ _ => rfl)
      | admission reqId xs ys n numComputedTokens computedBlocks blocks inputs encoderBudget kv₀ kv
          hwaiting hnone hstatus hsearch hpos =>
          exact admitted_selecting hnodup hflight h hwaiting hnone hpos

theorem Moves.selecting (hnodup : (s.waiting ++ s.running).Nodup)
    (hflight : s.scheduledReqIds ⊆ s.running) (hmoves : Moves cfg st st') (h : Selecting s st) :
    Selecting s st' := by
  induction hmoves with
  | refl => exact h
  | tail _ hmove ih => exact hmove.selecting hnodup hflight ih

end Scheduling

/-! ## The engine -/

/-- The requests of a batch. -/
def Batch.reqIds (batch : Batch) : List ReqId :=
  batch.schedulerOutput.numScheduledTokens.map Prod.fst

theorem Batch.mem_reqIds_of_numScheduled {batch : Batch} {q : ReqId}
    (h : batch.schedulerOutput.numScheduled q ≠ 0) : q ∈ batch.reqIds := by
  by_contra hq
  rw [SchedulerOutput.numScheduled, dictGet?_eq_none.mpr hq] at h
  exact h rfl

/-- The sampled tokens of a request: a token once all the tokens before it have been computed. -/
def answer (target : List TokenId → TokenId) (r : Request) : List TokenId :=
  if r.numTokens ≤ r.numComputedTokens then [target r.allTokenIds] else []

/-- The executor samples the token of the target function for every request of the batch, and
drafts nothing. -/
def Executor.Yields (target : List TokenId → TokenId) (execute : Executor) : Prop :=
  ∀ s out, (execute s out).specTokenIds = none ∧
    ∀ q ∈ out.numScheduledTokens.map Prod.fst,
      (execute s out).sampledTokenIds q = answer target (s.request q)

/-- The operation executes its batch with the target function. -/
def Operation.Yields (target : List TokenId → TokenId) : Operation → Prop
  | .step execute => execute.Yields target
  | _ => True

/-- The condition on `schedule`: no request that is being executed is preempted. -/
def Scheduler.SparesScheduled (cfg : Config) (s : Scheduler) : Prop :=
  ∀ q ∈ s.preemptions cfg, q ∉ s.scheduledReqIds

namespace EngineCore

variable {cfg : Config} {execute : Executor} {e e' : EngineCore} {scheduledBatch : Bool}

/-- Does the next step call `schedule`? -/
def CallsSchedule (cfg : Config) (e : EngineCore) : Prop :=
  e.scheduler.getNumUnscheduledRequests > 0 ∧ e.batchQueue.length < cfg.batchQueueSize

/-- The batches in flight, after requests have been moved back. -/
def noteMovedBack (queue : List Batch) (reqIds : List ReqId) : List Batch :=
  queue.map fun batch => { batch with movedBack := batch.movedBack ++ reqIds }

/-- What the first half of a step can do. -/
inductive Launched (cfg : Config) (execute : Executor) (e : EngineCore) :
    Bool → EngineCore → Prop where
  | idle (hidle : ¬ e.CallsSchedule cfg) : Launched cfg execute e false e
  | empty (out : SchedulerOutput) (s : Scheduler) (st : Scheduling)
      (hcalls : e.CallsSchedule cfg) (hspec : Scheduler.ScheduleSpec cfg e.scheduler out s st)
      (hzero : out.totalNumScheduledTokens = 0) :
      Launched cfg execute e false ⟨s, noteMovedBack e.batchQueue st.preemptedReqs⟩
  | batch (out : SchedulerOutput) (s : Scheduler) (st : Scheduling)
      (hcalls : e.CallsSchedule cfg) (hspec : Scheduler.ScheduleSpec cfg e.scheduler out s st) :
      Launched cfg execute e true
        ⟨s, noteMovedBack e.batchQueue st.preemptedReqs ++ [⟨out, execute s out, []⟩]⟩

theorem launch_launched (hnodup : e.scheduler.running.Nodup)
    (h : e.launch cfg execute = .ok (scheduledBatch, e')) :
    Launched cfg execute e scheduledBatch e' := by
  unfold launch at h
  split at h
  next hcalls =>
    simp only [bind_eq_ok, Prod.exists] at h
    obtain ⟨out, s, hschedule, h⟩ := h
    obtain ⟨st, hspec⟩ := Scheduler.schedule_spec hnodup hschedule
    rw [hspec.preemptions] at h
    split_ifs at h with htotal
    · cases h
      exact .batch out s st hcalls hspec
    · cases h
      exact .empty out s st hcalls hspec (by omega)
  next hcalls =>
    cases h
    exact .idle hcalls

end EngineCore

namespace System

/-- The invariant of the engine. -/
structure Pipelined (target : List TokenId → TokenId) (sys : System) : Prop where
  nodup : (sys.engine.scheduler.waiting ++ sys.engine.scheduler.running).Nodup
  requests_nodup : sys.engine.scheduler.requests.Nodup
  requests : ∀ q, q ∈ sys.engine.scheduler.requests ↔
    q ∈ sys.engine.scheduler.waiting ∨ q ∈ sys.engine.scheduler.running
  scheduled_nodup : sys.engine.scheduler.scheduledReqIds.Nodup
  scheduled : ∀ q, q ∈ sys.engine.scheduler.scheduledReqIds ↔
    q ∈ sys.engine.scheduler.running ∧ ∃ batch ∈ sys.engine.batchQueue, q ∈ batch.reqIds
  waiting : ∀ q ∈ sys.engine.scheduler.waiting, ∀ batch ∈ sys.engine.batchQueue, q ∉ batch.reqIds
  single : sys.engine.batchQueue.Pairwise fun batch batch' =>
    ∀ q ∈ sys.engine.scheduler.running, q ∈ batch.reqIds → q ∉ batch'.reqIds
  positive : ∀ batch ∈ sys.engine.batchQueue, ∀ q ∈ batch.reqIds,
    batch.schedulerOutput.numScheduled q ≠ 0
  stayed : ∀ batch ∈ sys.engine.batchQueue, ∀ q ∈ batch.reqIds, q ∉ batch.movedBack
  answered : ∀ batch ∈ sys.engine.batchQueue, ∀ q ∈ batch.reqIds,
    q ∈ sys.engine.scheduler.running →
      batch.modelOutput.sampledTokenIds q = answer target (sys.engine.scheduler.request q)
  known : ∀ q, q ∈ sys.engine.scheduler.waiting ∨ q ∈ sys.engine.scheduler.running ∨
    (∃ batch ∈ sys.engine.batchQueue, q ∈ batch.reqIds) → q ∈ sys.added
  tokens : ∀ q ∈ sys.added, (sys.engine.scheduler.request q).allTokenIds =
      (sys.engine.scheduler.request q).promptTokenIds ++ sys.emitted q ∧
    (sys.engine.scheduler.request q).allTokenIds =
      greedy target (sys.engine.scheduler.request q).promptTokenIds (sys.emitted q).length
  silent : ∀ q, q ∉ sys.added → sys.emitted q = []

variable {cfg : Config} {target : List TokenId → TokenId} {execute : Executor} {sys : System}
  {e : EngineCore} {q : ReqId}

theorem Pipelined.scheduled_running (h : sys.Pipelined target) :
    sys.engine.scheduler.scheduledReqIds ⊆ sys.engine.scheduler.running :=
  fun q hq => ((h.scheduled q).mp hq).1

/-! ### The first half of a step -/

theorem Pipelined.selecting (h : sys.Pipelined target) {out : SchedulerOutput} {s : Scheduler}
    {st : Scheduling} (hspec : Scheduler.ScheduleSpec cfg sys.engine.scheduler out s st) :
    Scheduling.Selecting sys.engine.scheduler st :=
  hspec.moves.selecting h.nodup h.scheduled_running
    (Scheduling.startScheduling_selecting cfg h.scheduled_nodup)

/-- What the second half of a step relies on. -/
structure Collectable (e : EngineCore) : Prop where
  nodup : e.scheduler.running.Nodup
  requests : ∀ q ∈ e.scheduler.running, q ∈ e.scheduler.requests
  scheduled : ∀ batch ∈ e.batchQueue, ∀ q ∈ e.scheduler.running, q ∈ batch.reqIds →
    q ∈ e.scheduler.scheduledReqIds ∧ q ∉ batch.movedBack

theorem Pipelined.collectable (h : sys.Pipelined target) : Collectable sys.engine where
  nodup := (List.nodup_append.mp h.nodup).2.1
  requests := fun q hq => (h.requests q).mpr (.inr hq)
  scheduled := fun batch hbatch q hq hin =>
    ⟨(h.scheduled q).mpr ⟨hq, batch, hbatch, hin⟩, h.stayed batch hbatch q hin⟩

theorem mem_noteMovedBack {queue : List Batch} {reqIds : List ReqId} {batch : Batch}
    (h : batch ∈ EngineCore.noteMovedBack queue reqIds) : ∃ batch₀ ∈ queue,
      batch = { batch₀ with movedBack := batch₀.movedBack ++ reqIds } := by
  obtain ⟨batch₀, hmem, rfl⟩ := List.mem_map.mp h
  exact ⟨batch₀, hmem, rfl⟩

/-- A call that schedules nothing. -/
theorem scheduled_eq_nil {out : SchedulerOutput} {s s' : Scheduler} {st : Scheduling}
    (hspec : Scheduler.ScheduleSpec cfg s out s' st) (h : Scheduling.Selecting s st)
    (hzero : out.totalNumScheduledTokens = 0) : st.numScheduledTokens = [] := by
  rw [hspec.total, List.sum_eq_zero_iff_forall_eq_nat] at hzero
  refine List.eq_nil_iff_forall_not_mem.mpr (fun item hitem => ?_)
  have hpos := h.positive item hitem
  have := hzero item.2 (List.mem_map_of_mem hitem)
  omega

/-- Even a call that preempts a request in flight leaves the outputs applicable. -/
theorem Pipelined.launch_collectable (h : sys.Pipelined target)
    (hlaunch : sys.engine.launch cfg execute = .ok (false, e)) : Collectable e := by
  have hlaunched := EngineCore.launch_launched (List.nodup_append.mp h.nodup).2.1 hlaunch
  cases hlaunched with
  | idle => exact h.collectable
  | empty out s st hcalls hspec hzero =>
      have hsel := h.selecting hspec
      have hnil := scheduled_eq_nil hspec hsel hzero
      have hnodup := hsel.nodup h.nodup
      have horigin : ∀ q ∈ st.running, q ∈ sys.engine.scheduler.running := fun q hq =>
        (hsel.admitted q hq).resolve_right (by simp [Scheduling.scheduled, hnil])
      rw [hspec.scheduler]
      refine ⟨(List.nodup_append.mp hnodup).2.1, fun q hq => ?_, fun batch hbatch q hq hin => ?_⟩
      · change q ∈ st.requests
        rw [hsel.requests, h.requests]
        exact .inr (horigin q hq)
      · obtain ⟨batch₀, hbatch₀, rfl⟩ := mem_noteMovedBack hbatch
        obtain ⟨hsched, hstayed⟩ := h.collectable.scheduled batch₀ hbatch₀ q (horigin q hq) hin
        refine ⟨(hsel.scheduledReqIds q).mpr (.inl hsched), fun hmoved => ?_⟩
        rcases List.mem_append.mp hmoved with hmoved | hmoved
        · exact hstayed hmoved
        · exact hsel.waiting_notMem_running h.nodup (hsel.preempted q hmoved).1 hq

theorem Collectable.collect_ne_keyError (h : Collectable e) :
    e.collect cfg ≠ .error .keyError := by
  unfold EngineCore.collect
  split
  · nofun
  next batch queue hqueue =>
    simp only [ne_eq, bind_eq_error, pure_eq_error, and_false, exists_false, or_false,
      Scheduler.updateFromOutput]
    refine Scheduler.updateLoop_ne_keyError h.nodup (fun q hq hbatch => ?_)
    have hin := Batch.mem_reqIds_of_numScheduled hbatch
    exact ⟨(h.scheduled batch (by simp [hqueue]) q hq hin).1, h.requests q hq⟩

/-- The request as `schedule` leaves it. -/
theorem schedule_request {out : SchedulerOutput} {s s' : Scheduler} {st : Scheduling}
    (hspec : Scheduler.ScheduleSpec cfg s out s' st) (q : ReqId) :
    (s'.request q).allTokenIds = (st.request q).allTokenIds ∧
      (s'.request q).promptTokenIds = (st.request q).promptTokenIds ∧
      (q ∉ st.scheduled → s'.request q = st.request q) := by
  rw [hspec.scheduler]
  refine ⟨rfl, rfl, fun hq => ?_⟩
  simp [Scheduling.advanceComputed, dictGet?_eq_none.mpr hq]

theorem numScheduled_pos {out : SchedulerOutput} {s s' : Scheduler} {st : Scheduling}
    (hspec : Scheduler.ScheduleSpec cfg s out s' st) (h : Scheduling.Selecting s st)
    (hq : q ∈ st.scheduled) : out.numScheduled q ≠ 0 := by
  obtain ⟨item, hitem, rfl⟩ := List.mem_map.mp hq
  have hget : dictGet? st.numScheduledTokens item.1 = some item.2 :=
    (dictGet?_eq_some h.scheduled_nodup).mpr hitem
  rw [SchedulerOutput.numScheduled, hspec.numScheduledTokens, hget]
  exact Nat.pos_iff_ne_zero.mp (h.positive item hitem)

/-- A call that spares the requests in flight: the old batches stay as they were, and the new batch
holds requests that were in none of them. -/
theorem Pipelined.schedule (h : sys.Pipelined target) {out : SchedulerOutput} {s : Scheduler}
    {st : Scheduling} (hspec : Scheduler.ScheduleSpec cfg sys.engine.scheduler out s st)
    (hspares : sys.engine.scheduler.SparesScheduled cfg) (new : List Batch)
    (hnew : new = [] ∧ st.numScheduledTokens = [] ∨ ∃ output,
      new = [⟨out, output, []⟩] ∧ ∀ q ∈ out.numScheduledTokens.map Prod.fst,
        output.sampledTokenIds q = answer target (s.request q)) :
    Pipelined target { sys with engine :=
      ⟨s, EngineCore.noteMovedBack sys.engine.batchQueue st.preemptedReqs ++ new⟩ } := by
  have hsel := h.selecting hspec
  have hnodup := hsel.nodup h.nodup
  have hspared : ∀ q ∈ st.preemptedReqs, q ∉ sys.engine.scheduler.scheduledReqIds := by
    rw [← hspec.preemptions]
    exact hspares
  have hfields : s.waiting = st.waiting ∧ s.running = st.running ∧ s.requests = st.requests ∧
      s.scheduledReqIds = st.scheduledReqIds := by
    rw [hspec.scheduler]
    exact ⟨rfl, rfl, rfl, rfl⟩
  obtain ⟨hwaiting, hrunning, hrequests, hscheduledReqIds⟩ := hfields
  have hperm : ∀ q, q ∈ st.waiting ∨ q ∈ st.running ↔
      q ∈ sys.engine.scheduler.waiting ∨ q ∈ sys.engine.scheduler.running := fun q => by
    simpa using hsel.perm.mem_iff (a := q)
  have hnewIds : ∀ q, (∃ batch ∈ new, q ∈ batch.reqIds) ↔ q ∈ st.scheduled := by
    intro q
    rcases hnew with ⟨rfl, hnil⟩ | ⟨output, rfl, -⟩
    · simp [Scheduling.scheduled, hnil]
    · simp [Batch.reqIds, hspec.numScheduledTokens, Scheduling.scheduled]
  -- a request of an old batch runs and is being executed, or it has gone
  have hflight : ∀ batch₀ ∈ sys.engine.batchQueue, ∀ q ∈ batch₀.reqIds,
      q ∈ st.waiting ∨ q ∈ st.running → q ∈ sys.engine.scheduler.scheduledReqIds := by
    intro batch₀ hbatch₀ q hin hlive
    rcases (hperm q).mp hlive with hq | hq
    · exact absurd hin (h.waiting q hq batch₀ hbatch₀)
    · exact (h.scheduled q).mpr ⟨hq, batch₀, hbatch₀, hin⟩
  have hstays : ∀ q ∈ sys.engine.scheduler.scheduledReqIds, q ∈ st.running := fun q hq =>
    (hsel.stays q (h.scheduled_running hq)).resolve_right (fun hmem => hspared q hmem hq)
  have hfresh : ∀ q ∈ st.scheduled, ∀ batch₀ ∈ sys.engine.batchQueue, q ∉ batch₀.reqIds :=
    fun q hq batch₀ hbatch₀ hin => hsel.scheduled_idle q hq
      (hflight batch₀ hbatch₀ q hin (.inr (hsel.scheduled_running q hq)))
  constructor
  · simpa only [hwaiting, hrunning] using hnodup
  · simpa only [hrequests, hsel.requests] using h.requests_nodup
  · intro q
    simp only [hrequests, hsel.requests, hwaiting, hrunning, hperm, h.requests]
  · simpa only [hscheduledReqIds] using hsel.scheduledReqIds_nodup
  · intro q
    simp only [hscheduledReqIds, hrunning, hsel.scheduledReqIds]
    constructor
    · rintro (hq | hq)
      · obtain ⟨-, batch₀, hbatch₀, hin⟩ := (h.scheduled q).mp hq
        exact ⟨hstays q hq, _, List.mem_append_left _ (List.mem_map_of_mem hbatch₀), hin⟩
      · obtain ⟨batch, hbatch, hin⟩ := (hnewIds q).mpr hq
        exact ⟨hsel.scheduled_running q hq, batch, List.mem_append_right _ hbatch, hin⟩
    · rintro ⟨hq, batch, hbatch, hin⟩
      rcases List.mem_append.mp hbatch with hbatch | hbatch
      · obtain ⟨batch₀, hbatch₀, rfl⟩ := mem_noteMovedBack hbatch
        exact .inl (hflight batch₀ hbatch₀ q hin (.inr hq))
      · exact .inr ((hnewIds q).mp ⟨batch, hbatch, hin⟩)
  · intro q hq batch hbatch hin
    simp only [hwaiting] at hq
    rcases List.mem_append.mp hbatch with hbatch | hbatch
    · obtain ⟨batch₀, hbatch₀, rfl⟩ := mem_noteMovedBack hbatch
      exact hsel.waiting_notMem_running h.nodup hq
        (hstays q (hflight batch₀ hbatch₀ q hin (.inl hq)))
    · exact hsel.waiting_notMem_running h.nodup hq
        (hsel.scheduled_running q ((hnewIds q).mp ⟨batch, hbatch, hin⟩))
  · refine List.pairwise_append.mpr ⟨?_, ?_, ?_⟩
    · refine List.pairwise_map.mpr (h.single.imp_of_mem ?_)
      intro batch batch' hbatch _ hsingle q hq hin
      rw [hrunning] at hq
      exact hsingle q (h.scheduled_running (hflight batch hbatch q hin (.inr hq))) hin
    · rcases hnew with ⟨rfl, -⟩ | ⟨output, rfl, -⟩
      · exact List.Pairwise.nil
      · exact List.pairwise_singleton _ _
    · intro batch hbatch batch' hbatch' q _ hin hin'
      obtain ⟨batch₀, hbatch₀, rfl⟩ := mem_noteMovedBack hbatch
      exact hfresh q ((hnewIds q).mp ⟨batch', hbatch', hin'⟩) batch₀ hbatch₀ hin
  · intro batch hbatch q hin
    rcases List.mem_append.mp hbatch with hbatch | hbatch
    · obtain ⟨batch₀, hbatch₀, rfl⟩ := mem_noteMovedBack hbatch
      exact h.positive batch₀ hbatch₀ q hin
    · have hq := (hnewIds q).mp ⟨batch, hbatch, hin⟩
      rcases hnew with ⟨rfl, -⟩ | ⟨output, rfl, -⟩
      · cases hbatch
      · rw [List.mem_singleton.mp hbatch]
        exact numScheduled_pos hspec hsel hq
  · intro batch hbatch q hin hmoved
    rcases List.mem_append.mp hbatch with hbatch | hbatch
    · obtain ⟨batch₀, hbatch₀, rfl⟩ := mem_noteMovedBack hbatch
      rcases List.mem_append.mp hmoved with hmoved | hmoved
      · exact h.stayed batch₀ hbatch₀ q hin hmoved
      · exact hspared q hmoved
          (hflight batch₀ hbatch₀ q hin (.inl (hsel.preempted q hmoved).1))
    · rcases hnew with ⟨rfl, -⟩ | ⟨output, rfl, -⟩
      · cases hbatch
      · rw [List.mem_singleton.mp hbatch] at hmoved
        cases hmoved
  · intro batch hbatch q hin hq
    rcases List.mem_append.mp hbatch with hbatch | hbatch
    · obtain ⟨batch₀, hbatch₀, rfl⟩ := mem_noteMovedBack hbatch
      rw [hrunning] at hq
      have hsched := hflight batch₀ hbatch₀ q hin (.inr hq)
      have hidle : q ∉ st.scheduled := fun hmem => hfresh q hmem batch₀ hbatch₀ hin
      rw [(schedule_request hspec q).2.2 hidle, hsel.held q hsched hq]
      exact h.answered batch₀ hbatch₀ q hin (h.scheduled_running hsched)
    · rcases hnew with ⟨rfl, -⟩ | ⟨output, rfl, hanswer⟩
      · cases hbatch
      · rw [List.mem_singleton.mp hbatch] at hin ⊢
        exact hanswer q hin
  · intro q hq
    simp only [hwaiting, hrunning] at hq
    refine h.known q ?_
    rcases hq with hq | hq | ⟨batch, hbatch, hin⟩
    · exact ((hperm q).mp (.inl hq)).imp id .inl
    · exact ((hperm q).mp (.inr hq)).imp id .inl
    · rcases List.mem_append.mp hbatch with hbatch | hbatch
      · obtain ⟨batch₀, hbatch₀, rfl⟩ := mem_noteMovedBack hbatch
        exact .inr (.inr ⟨batch₀, hbatch₀, hin⟩)
      · exact ((hperm q).mp (.inr (hsel.scheduled_running q
          ((hnewIds q).mp ⟨batch, hbatch, hin⟩)))).imp id .inl
  · intro q hq
    obtain ⟨hall, hprompt, -⟩ := schedule_request hspec q
    simp only [hall, hprompt, (hsel.tokens q).1, (hsel.tokens q).2]
    exact h.tokens q hq
  · exact h.silent

/-! ### The second half of a step -/

theorem emitted_append (sys : System) (outputs : List EngineCoreOutput) (e : EngineCore)
    (q : ReqId) :
    emitted { sys with engine := e, outputs := sys.outputs ++ outputs } q =
      sys.emitted q ++ Scheduler.tokensOf outputs q :=
  Scheduler.tokensOf_append _ _ _

/-- The answer continues the greedy decode. -/
theorem greedy_answer {r : Request} {start tokenIds emitted : List TokenId}
    (hall : r.allTokenIds = start ++ emitted)
    (hgreedy : r.allTokenIds = greedy target start emitted.length)
    (hpre : tokenIds <+: answer target r) :
    r.allTokenIds ++ tokenIds = start ++ (emitted ++ tokenIds) ∧
      r.allTokenIds ++ tokenIds = greedy target start (emitted ++ tokenIds).length := by
  have hcases : tokenIds = [] ∨ tokenIds = [target r.allTokenIds] := by
    unfold answer at hpre
    split_ifs at hpre
    · rcases List.prefix_cons_iff.mp hpre with rfl | ⟨rest, rfl, hrest⟩
      · exact .inl rfl
      · rw [List.prefix_nil.mp hrest]
        exact .inr rfl
    · exact .inl (List.prefix_nil.mp hpre)
  rcases hcases with rfl | rfl
  · simpa using ⟨hall, hgreedy⟩
  · constructor
    · rw [hall, List.append_assoc]
    · rw [List.length_append, List.length_singleton, greedy, ← hgreedy]

theorem Pipelined.collect (h : sys.Pipelined target) {outputs : List EngineCoreOutput}
    (hcollect : sys.engine.collect cfg = .ok (outputs, e)) :
    Pipelined target { sys with engine := e, outputs := sys.outputs ++ outputs } := by
  unfold EngineCore.collect at hcollect
  split at hcollect
  · cases hcollect
    simpa using h
  next batch queue hqueue =>
    simp only [bind_eq_ok, pure_eq_ok, Prod.exists, Prod.mk.injEq] at hcollect
    obtain ⟨outputs, s', hupdate, rfl, rfl⟩ := hcollect
    obtain ⟨kept, s₁, hmoves, rfl⟩ := Scheduler.updateFromOutput_moves hupdate
    have hrunning := (List.nodup_append.mp h.nodup).2.1
    have hup := hmoves.updated hrunning h.scheduled_nodup h.requests_nodup
    have hhead : batch ∈ sys.engine.batchQueue := hqueue ▸ List.mem_cons_self
    have htail : ∀ batch' ∈ queue, batch' ∈ sys.engine.batchQueue := fun batch' hbatch' =>
      hqueue ▸ List.mem_cons_of_mem _ hbatch'
    have hsingle := h.single
    rw [hqueue, List.pairwise_cons] at hsingle
    have hkept : ∀ q ∈ kept, q ∈ sys.engine.scheduler.running := fun q hq => hup.sublist.subset hq
    have hdisjoint := (List.nodup_append.mp h.nodup).2.2
    -- a request of a later batch is not in this one
    have hlater : ∀ batch' ∈ queue, ∀ q ∈ batch'.reqIds, q ∈ sys.engine.scheduler.running →
        batch.schedulerOutput.numScheduled q = 0 := by
      intro batch' hbatch' q hin hq
      by_contra hne
      exact hsingle.1 batch' hbatch' q hq (Batch.mem_reqIds_of_numScheduled hne) hin
    constructor
    · change (s₁.waiting ++ kept).Nodup
      rw [hup.waiting]
      exact h.nodup.sublist (List.Sublist.append (List.Sublist.refl _) hup.sublist)
    · exact hup.requests_nodup
    · intro q
      change q ∈ s₁.requests ↔ q ∈ s₁.waiting ∨ q ∈ kept
      rw [hup.requests, h.requests, hup.waiting]
      constructor
      · rintro ⟨hq | hq, hnot⟩
        · exact .inl hq
        · exact .inr (not_not.mp (fun hnotMem => hnot ⟨hq, hnotMem⟩))
      · rintro (hq | hq)
        · exact ⟨.inl hq, fun hmem => hdisjoint q hq q hmem.1 rfl⟩
        · exact ⟨.inr (hkept q hq), fun hmem => hmem.2 hq⟩
    · exact hup.scheduled_nodup
    · intro q
      change q ∈ s₁.scheduledReqIds ↔ q ∈ kept ∧ ∃ batch' ∈ queue, q ∈ batch'.reqIds
      rw [hup.scheduled, h.scheduled]
      constructor
      · rintro ⟨⟨hq, batch', hbatch', hin⟩, hnot⟩
        have hzero : batch.schedulerOutput.numScheduled q = 0 :=
          not_not.mp (fun hne => hnot ⟨hq, hne⟩)
        refine ⟨hup.skipped q hq hzero, batch', ?_, hin⟩
        rw [hqueue] at hbatch'
        rcases List.mem_cons.mp hbatch' with rfl | hbatch'
        · exact absurd hzero (h.positive _ hhead q hin)
        · exact hbatch'
      · rintro ⟨hq, batch', hbatch', hin⟩
        refine ⟨⟨hkept q hq, batch', htail batch' hbatch', hin⟩, fun hmem => hmem.2 ?_⟩
        exact hlater batch' hbatch' q hin hmem.1
    · intro q hq batch' hbatch'
      change q ∈ s₁.waiting at hq
      rw [hup.waiting] at hq
      exact h.waiting q hq batch' (htail batch' hbatch')
    · exact hsingle.2.imp (fun hpair q hq => hpair q (hkept q hq))
    · exact fun batch' hbatch' => h.positive batch' (htail batch' hbatch')
    · exact fun batch' hbatch' => h.stayed batch' (htail batch' hbatch')
    · intro batch' hbatch' q hin hq
      change batch'.modelOutput.sampledTokenIds q = answer target (s₁.request q)
      rw [(hup.same q (fun hmem => hmem.2 (hlater batch' hbatch' q hin hmem.1))).1]
      exact h.answered batch' (htail batch' hbatch') q hin (hkept q hq)
    · intro q hq
      change q ∈ s₁.waiting ∨ q ∈ kept ∨ _ at hq
      rw [hup.waiting] at hq
      refine h.known q ?_
      rcases hq with hq | hq | ⟨batch', hbatch', hin⟩
      · exact .inl hq
      · exact .inr (.inl (hkept q hq))
      · exact .inr (.inr ⟨batch', htail batch' hbatch', hin⟩)
    · intro q hq
      obtain ⟨hall, hgreedy⟩ := h.tokens q hq
      rw [emitted_append]
      change (s₁.request q).allTokenIds = (s₁.request q).promptTokenIds ++ _ ∧
        (s₁.request q).allTokenIds = greedy target (s₁.request q).promptTokenIds _
      by_cases hin : q ∈ sys.engine.scheduler.running ∧ batch.schedulerOutput.numScheduled q ≠ 0
      · obtain ⟨⟨tokenIds, hpre, htokens, hgrown⟩, hprompt⟩ := hup.grown q hin.1 hin.2
        rw [h.answered batch hhead q (Batch.mem_reqIds_of_numScheduled hin.2) hin.1] at hpre
        rw [hgrown, hprompt, htokens]
        exact greedy_answer hall hgreedy hpre
      · obtain ⟨hsame, hnone⟩ := hup.same q hin
        rw [hsame, hnone, List.append_nil]
        exact ⟨hall, hgreedy⟩
    · intro q hq
      rw [emitted_append, h.silent q hq,
        (hup.same q (fun hmem => hq (h.known q (.inr (.inl hmem.1))))).2]
      rfl

/-! ### Between two steps -/

/-- A request leaves the scheduler. -/
theorem Pipelined.leave (h : sys.Pipelined target) {s' : Scheduler}
    (hwaiting : s'.waiting = sys.engine.scheduler.waiting.erase q)
    (hrunning : s'.running = sys.engine.scheduler.running.erase q)
    (hrequests : s'.requests = sys.engine.scheduler.requests.erase q)
    (hscheduled : s'.scheduledReqIds = sys.engine.scheduler.scheduledReqIds.erase q)
    (hsame : ∀ p, p ≠ q → s'.request p = sys.engine.scheduler.request p)
    (htokens : (s'.request q).allTokenIds = (sys.engine.scheduler.request q).allTokenIds ∧
      (s'.request q).promptTokenIds = (sys.engine.scheduler.request q).promptTokenIds) :
    Pipelined target { sys with engine := { sys.engine with scheduler := s' } } := by
  obtain ⟨hw, hr, hdisjoint⟩ := List.nodup_append.mp h.nodup
  have hkept : ∀ p, p ∈ sys.engine.scheduler.running.erase q ↔
      p ≠ q ∧ p ∈ sys.engine.scheduler.running := fun p => hr.mem_erase_iff
  constructor
  · simp only [hwaiting, hrunning]
    exact h.nodup.sublist (List.Sublist.append List.erase_sublist List.erase_sublist)
  · simp only [hrequests]
    exact h.requests_nodup.erase q
  · intro p
    simp only [hrequests, hwaiting, hrunning, h.requests_nodup.mem_erase_iff, hw.mem_erase_iff,
      hkept, h.requests, and_or_left]
  · simp only [hscheduled]
    exact h.scheduled_nodup.erase q
  · intro p
    simp only [hscheduled, hrunning, h.scheduled_nodup.mem_erase_iff, hkept, h.scheduled, and_assoc]
  · intro p hp
    simp only [hwaiting] at hp
    exact h.waiting p (List.mem_of_mem_erase hp)
  · refine h.single.imp (fun hpair p hp => hpair p ?_)
    simp only [hrunning] at hp
    exact List.mem_of_mem_erase hp
  · exact h.positive
  · exact h.stayed
  · intro batch hbatch p hin hp
    simp only [hrunning] at hp
    obtain ⟨hne, hp⟩ := (hkept p).mp hp
    rw [hsame p hne]
    exact h.answered batch hbatch p hin hp
  · intro p hp
    simp only [hwaiting, hrunning] at hp
    exact h.known p (hp.imp List.mem_of_mem_erase (Or.imp List.mem_of_mem_erase id))
  · intro p hp
    by_cases hpq : p = q
    · subst hpq
      simp only [htokens.1, htokens.2]
      exact h.tokens p hp
    · simp only [hsame p hpq]
      exact h.tokens p hp
  · exact h.silent

theorem Pipelined.finishRequest (h : sys.Pipelined target) {finishedStatus : RequestStatus}
    {s' : Scheduler}
    (hfinish : sys.engine.scheduler.finishRequest cfg finishedStatus q = .ok s') :
    Pipelined target { sys with engine := { sys.engine with scheduler := s' } } := by
  obtain rfl | ⟨hknown, s₁, kv, hdequeued, -, rfl⟩ := Scheduler.finishRequest_eq_ok hfinish
  · exact h
  have hdisjoint := (List.nodup_append.mp h.nodup).2.2
  cases hdequeued with
  | running hmem =>
      have hnotMem : q ∉ sys.engine.scheduler.waiting := fun hq => hdisjoint q hq q hmem rfl
      refine h.leave (List.erase_of_not_mem hnotMem).symm rfl rfl rfl
        (fun p hp => Function.update_of_ne hp _ _) ?_
      simp [Scheduler.freed, Scheduler.setRequest]
  | waiting hmem =>
      have hnotMem : q ∉ sys.engine.scheduler.running := fun hq => hdisjoint q hmem q hq rfl
      refine h.leave rfl (List.erase_of_not_mem hnotMem).symm rfl
        (List.erase_of_not_mem (fun hq => hnotMem (h.scheduled_running hq))).symm
        (fun p hp => Function.update_of_ne hp _ _) ?_
      simp [Scheduler.freed, Scheduler.setRequest]

theorem Pipelined.finishRequests (h : sys.Pipelined target) {finishedStatus : RequestStatus}
    {reqIds : List ReqId} {s' : Scheduler}
    (hfinish : sys.engine.scheduler.finishRequests cfg finishedStatus reqIds = .ok s') :
    Pipelined target { sys with engine := { sys.engine with scheduler := s' } } := by
  induction reqIds generalizing sys with
  | nil =>
      cases hfinish
      exact h
  | cons reqId reqIds ih =>
      simp only [Scheduler.finishRequests, bind_eq_ok] at hfinish
      obtain ⟨_, -, s₁, hfirst, hrest⟩ := hfinish
      have h₁ := h.finishRequest hfirst
      have h₂ := ih h₁ hrest
      exact h₂

/-- A request with a new id arrives. -/
theorem Pipelined.addRequest (h : sys.Pipelined target) (arrival : Arrival)
    (hfresh : q ∉ sys.added) : Pipelined target { sys with
      engine := { sys.engine with
        scheduler := sys.engine.scheduler.addRequest q arrival.request }
      added := q :: sys.added } := by
  have hnot : q ∉ sys.engine.scheduler.waiting ∧ q ∉ sys.engine.scheduler.running ∧
      ∀ batch ∈ sys.engine.batchQueue, q ∉ batch.reqIds :=
    ⟨fun hq => hfresh (h.known q (.inl hq)), fun hq => hfresh (h.known q (.inr (.inl hq))),
      fun batch hbatch hin => hfresh (h.known q (.inr (.inr ⟨batch, hbatch, hin⟩)))⟩
  have hsame : ∀ p, p ≠ q → (sys.engine.scheduler.addRequest q arrival.request).request p =
      sys.engine.scheduler.request p := fun p hp => Function.update_of_ne hp _ _
  have hself : (sys.engine.scheduler.addRequest q arrival.request).request q = arrival.request :=
    Function.update_self _ _ _
  constructor
  · change (sys.engine.scheduler.waiting ++ [q] ++ sys.engine.scheduler.running).Nodup
    rw [List.append_assoc]
    refine (List.perm_middle.nodup_iff).mpr (List.nodup_cons.mpr ⟨?_, h.nodup⟩)
    simp [hnot.1, hnot.2.1]
  · exact nodup_setAdd h.requests_nodup
  · intro p
    change p ∈ setAdd sys.engine.scheduler.requests q ↔
      p ∈ sys.engine.scheduler.waiting ++ [q] ∨ p ∈ sys.engine.scheduler.running
    rw [mem_setAdd, h.requests, List.mem_append, List.mem_singleton]
    tauto
  · exact h.scheduled_nodup
  · exact h.scheduled
  · intro p hp
    rcases List.mem_append.mp hp with hp | hp
    · exact h.waiting p hp
    · rw [List.mem_singleton.mp hp]
      exact hnot.2.2
  · exact h.single
  · exact h.positive
  · exact h.stayed
  · intro batch hbatch p hin hp
    have hne : p ≠ q := fun heq => hnot.2.1 (heq ▸ hp)
    simp only [hsame p hne]
    exact h.answered batch hbatch p hin hp
  · intro p hp
    rcases hp with hp | hp | hp
    · rcases List.mem_append.mp hp with hp | hp
      · exact List.mem_cons_of_mem _ (h.known p (.inl hp))
      · rw [List.mem_singleton.mp hp]
        exact List.mem_cons_self
    · exact List.mem_cons_of_mem _ (h.known p (.inr (.inl hp)))
    · exact List.mem_cons_of_mem _ (h.known p (.inr (.inr hp)))
  · intro p hp
    by_cases hpq : p = q
    · subst hpq
      have hsilent := h.silent p hfresh
      simp only [hself]
      change _ = _ ++ sys.emitted p ∧ _ = greedy target _ (sys.emitted p).length
      rw [hsilent]
      exact ⟨(List.append_nil _).symm, rfl⟩
    · simp only [hsame p hpq]
      exact h.tokens p ((List.mem_cons.mp hp).resolve_left hpq)
  · exact fun p hp => h.silent p (fun hmem => hp (List.mem_cons_of_mem _ hmem))

theorem Pipelined.compileGrammar (h : sys.Pipelined target) (q : ReqId) :
    Pipelined target { sys with engine := sys.engine.compileGrammar q } := by
  have hrequest : ∀ p, ∃ grammar, (sys.engine.compileGrammar q).scheduler.request p =
      { sys.engine.scheduler.request p with grammar := grammar } := by
    intro p
    by_cases hp : p = q
    · subst hp
      exact ⟨true, Function.update_self _ _ _⟩
    · exact ⟨_, Function.update_of_ne hp _ _⟩
  refine ⟨h.nodup, h.requests_nodup, h.requests, h.scheduled_nodup, h.scheduled, h.waiting,
    h.single, h.positive, h.stayed, fun batch hbatch p hin hp => ?_, h.known, fun p hp => ?_,
    h.silent⟩
  · obtain ⟨_, heq⟩ := hrequest p
    simp only [heq]
    exact h.answered batch hbatch p hin hp
  · obtain ⟨_, heq⟩ := hrequest p
    simp only [heq]
    exact h.tokens p hp

/-! ## Runs -/

/-- The property of the states between two steps. -/
structure PipelineSpec (cfg : Config) (target : List TokenId → TokenId) (sys : System) :
    Prop where
  scheduled : ∀ q, q ∈ sys.engine.scheduler.scheduledReqIds ↔
    q ∈ sys.engine.scheduler.running ∧ ∃ batch ∈ sys.engine.batchQueue, q ∈ batch.reqIds
  /-- The next output is applied to requests that were not moved back since. -/
  applied : ∀ execute e, sys.engine.launch cfg execute = .ok (false, e) →
    ∀ batch ∈ e.batchQueue.head?, ∀ q ∈ e.scheduler.running, q ∈ batch.reqIds → q ∉ batch.movedBack
  /-- `scheduled_req_ids.remove` does not raise. -/
  removed : ∀ execute e, sys.engine.launch cfg execute = .ok (false, e) →
    e.collect cfg ≠ .error .keyError
  emitted : ∀ q ∈ sys.added, (sys.engine.scheduler.request q).promptTokenIds ++ sys.emitted q =
    greedy target (sys.engine.scheduler.request q).promptTokenIds (sys.emitted q).length
  progress : sys.engine.batchQueue = [] → 0 < sys.engine.scheduler.getNumUnfinishedRequests →
    0 < sys.engine.scheduler.getNumUnscheduledRequests

theorem Pipelined.spec (h : sys.Pipelined target) : sys.PipelineSpec cfg target where
  scheduled := h.scheduled
  applied := by
    intro execute e hlaunch batch hbatch q hq hin
    exact ((h.launch_collectable hlaunch).scheduled batch (List.mem_of_head? hbatch) q hq hin).2
  removed := fun _ _ hlaunch => (h.launch_collectable hlaunch).collect_ne_keyError
  emitted := fun q hq => (h.tokens q hq).1.symm.trans (h.tokens q hq).2
  progress := by
    intro hempty hlive
    have hnil : sys.engine.scheduler.scheduledReqIds = [] := by
      refine List.eq_nil_iff_forall_not_mem.mpr (fun q hq => ?_)
      obtain ⟨-, batch, hbatch, -⟩ := (h.scheduled q).mp hq
      simp [hempty] at hbatch
    rw [Scheduler.getNumUnscheduledRequests, hnil]
    simpa using hlive

/-- The condition on one operation: `schedule` preempts nothing that is being executed. -/
def SparesScheduled (cfg : Config) (sys : System) : Operation → Prop
  | .step _ => sys.engine.CallsSchedule cfg → sys.engine.scheduler.SparesScheduled cfg
  | _ => True

theorem stepWithBatchQueue_eq_ok {outputs : List EngineCoreOutput} {e e' : EngineCore}
    (h : e.stepWithBatchQueue cfg execute = .ok (outputs, e')) :
    (e.launch cfg execute = .ok (true, e') ∧ outputs = []) ∨
      ∃ e₁, e.launch cfg execute = .ok (false, e₁) ∧ e₁.collect cfg = .ok (outputs, e') := by
  simp only [EngineCore.stepWithBatchQueue, bind_eq_ok, Prod.exists] at h
  obtain ⟨scheduledBatch, e₁, hlaunch, h⟩ := h
  cases scheduledBatch with
  | true =>
      simp only [ite_true, pure_eq_ok, Prod.mk.injEq] at h
      obtain ⟨rfl, rfl⟩ := h
      exact .inl ⟨hlaunch, rfl⟩
  | false => exact .inr ⟨e₁, hlaunch, h⟩

theorem Pipelined.launch (h : sys.Pipelined target) (hyields : execute.Yields target)
    (hspares : sys.engine.CallsSchedule cfg → sys.engine.scheduler.SparesScheduled cfg)
    {scheduledBatch : Bool} (hlaunch : sys.engine.launch cfg execute = .ok (scheduledBatch, e)) :
    Pipelined target { sys with engine := e } := by
  have hlaunched := EngineCore.launch_launched (List.nodup_append.mp h.nodup).2.1 hlaunch
  cases hlaunched with
  | idle => exact h
  | empty out s st hcalls hspec hzero =>
      have hnil := scheduled_eq_nil hspec (h.selecting hspec) hzero
      simpa using h.schedule hspec (hspares hcalls) [] (.inl ⟨rfl, hnil⟩)
  | batch out s st hcalls hspec =>
      exact h.schedule hspec (hspares hcalls) _
        (.inr ⟨_, rfl, (hyields s out).2⟩)

theorem Step.pipelined (hsize : 1 < cfg.batchQueueSize) {operation : Operation} {sys' : System}
    (hstep : Step cfg sys operation sys') (hyields : operation.Yields target)
    (hspares : sys.SparesScheduled cfg operation) (h : sys.Pipelined target) :
    sys'.Pipelined target := by
  obtain ⟨haccepts, happly⟩ := hstep
  cases operation with
  | addRequest reqId arrival =>
      cases happly
      exact h.addRequest arrival haccepts
  | compileGrammar reqId =>
      cases happly
      exact h.compileGrammar reqId
  | finishRequests finishedStatus reqIds =>
      simp only [System.apply, bind_eq_ok, pure_eq_ok] at happly
      obtain ⟨s, hfinish, rfl⟩ := happly
      exact h.finishRequests hfinish
  | resetPrefixCache =>
      cases happly
      exact ⟨h.nodup, h.requests_nodup, h.requests, h.scheduled_nodup, h.scheduled, h.waiting,
        h.single, h.positive, h.stayed, h.answered, h.known, h.tokens, h.silent⟩
  | step execute =>
      simp only [System.apply, EngineCore.stepFn, if_pos hsize, bind_eq_ok, pure_eq_ok,
        Prod.exists] at happly
      obtain ⟨outputs, e, hstep, rfl⟩ := happly
      rcases stepWithBatchQueue_eq_ok hstep with ⟨hlaunch, rfl⟩ | ⟨e₁, hlaunch, hcollect⟩
      · simpa using h.launch hyields hspares hlaunch
      · have h₁ := h.launch hyields hspares hlaunch
        exact h₁.collect hcollect

theorem init_pipelined (h : init cfg = .ok sys) : sys.Pipelined target := by
  simp only [init, EngineCore.init, Scheduler.init, bind_eq_ok, pure_eq_ok] at h
  obtain ⟨e, ⟨s, ⟨kv, -, rfl⟩, rfl⟩, rfl⟩ := h
  constructor <;> simp [emitted]

/-- A call that preempts a request in flight leaves its id behind. -/
theorem Pipelined.not_spec (hsize : 1 < cfg.batchQueueSize) {operation : Operation}
    {sys' : System} (h : sys.Pipelined target) (hstep : Step cfg sys operation sys')
    (hspares : ¬ sys.SparesScheduled cfg operation) : ¬ sys'.PipelineSpec cfg target := by
  cases operation with
  | step execute =>
      simp only [SparesScheduled, Scheduler.SparesScheduled, not_forall, not_not] at hspares
      obtain ⟨hcalls, q, hpreempted, hflight⟩ := hspares
      have happly := hstep.apply
      simp only [System.apply, EngineCore.stepFn, if_pos hsize, bind_eq_ok, pure_eq_ok,
        Prod.exists] at happly
      obtain ⟨outputs, e, hbatch, rfl⟩ := happly
      suffices hleft : q ∈ e.scheduler.scheduledReqIds ∧ q ∉ e.scheduler.running from
        fun hspec => hleft.2 ((hspec.scheduled q).mp hleft.1).1
      have hleft : ∀ out s st, Scheduler.ScheduleSpec cfg sys.engine.scheduler out s st →
          q ∈ s.scheduledReqIds ∧ q ∉ s.running ∧ s.running.Nodup ∧ s.scheduledReqIds.Nodup ∧
            s.requests.Nodup := by
        intro out s st hspec
        have hsel := h.selecting hspec
        rw [hspec.preemptions] at hpreempted
        rw [hspec.scheduler]
        refine ⟨(hsel.scheduledReqIds q).mpr (.inl hflight),
          fun hq => hsel.waiting_notMem_running h.nodup (hsel.preempted q hpreempted).1 hq,
          (List.nodup_append.mp (hsel.nodup h.nodup)).2.1, hsel.scheduledReqIds_nodup, ?_⟩
        change st.requests.Nodup
        rw [hsel.requests]
        exact h.requests_nodup
      have hnodup := (List.nodup_append.mp h.nodup).2.1
      rcases stepWithBatchQueue_eq_ok hbatch with ⟨hlaunch, -⟩ | ⟨e₁, hlaunch, hcollect⟩
      · cases EngineCore.launch_launched hnodup hlaunch with
        | batch out s st _ hspec =>
            exact ⟨(hleft out s st hspec).1, (hleft out s st hspec).2.1⟩
      · cases EngineCore.launch_launched hnodup hlaunch with
        | idle hidle => exact absurd hcalls hidle
        | empty out s st _ hspec =>
            obtain ⟨hq, hnot, hrunning, hscheduled, hrequests⟩ := hleft out s st hspec
            unfold EngineCore.collect at hcollect
            split at hcollect
            · cases hcollect
              exact ⟨hq, hnot⟩
            · simp only [bind_eq_ok, pure_eq_ok, Prod.exists, Prod.mk.injEq] at hcollect
              obtain ⟨_, s', hupdate, -, rfl⟩ := hcollect
              obtain ⟨kept, s₁, hmoves, rfl⟩ := Scheduler.updateFromOutput_moves hupdate
              have hup := hmoves.updated hrunning hscheduled hrequests
              exact ⟨(hup.scheduled q).mpr ⟨hq, fun hmem => hnot hmem.1⟩,
                fun hmem => hnot (hup.sublist.subset hmem)⟩
  | _ => exact absurd trivial hspares

/-- The executor that computes the target function. -/
def greedyExecutor (target : List TokenId → TokenId) : Executor := fun s _ =>
  ⟨fun q => answer target (s.request q), none⟩

theorem greedyExecutor_yields (target : List TokenId → TokenId) :
    (greedyExecutor target).Yields target :=
  fun _ _ => ⟨rfl, fun _ _ => rfl⟩

/-- Two stages, and two blocks of two tokens. -/
def twoBlocks : Config where
  scheduler := { maxNumSeqs := 2, maxNumBatchedTokens := 8, longPrefillTokenThreshold := 0 }
  kvCache := {
    blockSize := 2
    numBlocks := 3
    maxModelLen := 8
    numPreallocateTokens := 0
    enableCaching := false
    cachingHashFn := fun _ _ _ => 1
    noneHash := 0 }
  batchQueueSize := 2

/-- Request 0 has been prefilled and needs a second block while request 1 is in flight. -/
def twoBlocksOperations : List Operation :=
  [.addRequest 0 ⟨[1, 1], { maxTokens := 2 }, none, none, [], []⟩,
    .step (greedyExecutor fun _ => 3),
    .addRequest 1 ⟨[1, 1], { maxTokens := 2 }, none, none, [], []⟩] ++
    List.replicate 5 (.step (greedyExecutor fun _ => 3))

theorem twoBlocksOperations_yields : ∀ operation ∈ twoBlocksOperations,
    operation.Yields (fun _ => 3) := by
  intro operation hmem
  simp only [twoBlocksOperations, List.replicate, List.cons_append, List.nil_append,
    List.mem_cons, List.not_mem_nil, or_false] at hmem
  rcases hmem with rfl | rfl | rfl | rfl | rfl | rfl | rfl | rfl <;>
    first | trivial | exact greedyExecutor_yields _

theorem twoBlocks_run : ∃ sys₀ sys, init twoBlocks = .ok sys₀ ∧
    Run (Step twoBlocks) sys₀ twoBlocksOperations sys ∧ sys.engine.batchQueue.length = 0 ∧
      sys.engine.scheduler.waiting = [1] ∧ sys.engine.scheduler.running = [] ∧
      sys.engine.scheduler.scheduledReqIds = [1] := by
  have hsome : ((init twoBlocks).toOption.bind (applyAll twoBlocks twoBlocksOperations)).map
      (fun sys => (sys.engine.batchQueue.length, sys.engine.scheduler.waiting,
        sys.engine.scheduler.running, sys.engine.scheduler.scheduledReqIds)) =
      some (0, [1], [], [1]) := by decide +kernel
  obtain ⟨sys, hsys, hfields⟩ := Option.map_eq_some_iff.mp hsome
  obtain ⟨sys₀, hinit, hrun⟩ := Option.bind_eq_some_iff.mp hsys
  simp only [Prod.mk.injEq] at hfields
  refine ⟨sys₀, sys, ?_, applyAll_run hrun, hfields⟩
  cases h : init twoBlocks with
  | error e => simp [h, Except.toOption] at hinit
  | ok sys₁ =>
      rw [h] at hinit
      cases hinit
      rfl

end System

end Spexis.V1
