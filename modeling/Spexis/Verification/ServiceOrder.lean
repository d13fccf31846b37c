import Spexis.Verification.LiveRequests
import Spexis.Verification.Turns

/-! # The order of service

The running requests, the draining ones from the oldest to the newest, and the waiting
ones form one queue. Scheduling keeps its order as long as preempted requests drain in
that order. -/

namespace Spexis

open Python

/-- The live requests in the order in which they are served. -/
def Scheduler.serviceQueue (s : Scheduler) : List ReqId :=
  s.runningScheduled ++ s.toBePreempted.reverse ++ s.waiting

/-- No waiting request waits for a grammar. -/
def Scheduler.Plain (s : Scheduler) : Prop :=
  ∀ q ∈ s.waiting, (s.request q).status ≠ .waitingForFsm

namespace Scheduling

variable {cfg : Config} {st st' st'' st₁ : Scheduling} {inFlight : ReqId → ℕ}

/-- A list that has all entries of one kind before the others. -/
theorem filter_append_filter_not {α : Type*} {p : α → Bool} {xs : List α}
    (h : xs.Pairwise fun x y => p y = true → p x = true) :
    xs.filter p ++ xs.filter (! p ·) = xs := by
  induction xs with
  | nil => rfl
  | cons x xs ih =>
      obtain ⟨hx, hxs⟩ := List.pairwise_cons.mp h
      by_cases hp : p x = true
      · rw [List.filter_cons_of_pos hp, List.filter_cons_of_neg (by simp [hp]), List.cons_append,
          ih hxs]
      · have hnone : xs.filter p = [] :=
          List.filter_eq_nil_iff.mpr (fun y hy hpy => hp (hx y hy hpy))
        have hall : xs.filter (! p ·) = xs := by
          rw [List.filter_eq_self]
          intro y hy
          simpa using fun hpy => hp (hx y hy hpy)
        rw [List.filter_cons_of_neg hp, List.filter_cons_of_pos (by simpa using hp), hnone, hall,
          List.nil_append]

/-! ## Preemption in order -/

/-- Is the request preempted by now, or was it when `schedule` started? -/
def Leaves (st st' : Scheduling) (q : ReqId) : Prop :=
  q ∈ st.toBePreempted ∨ q ∈ st.runningScheduled ∧ q ∉ st'.runningScheduled

/-- No preempted request is idle while a newer one has batches in flight. -/
def DrainsInOrder (older : ReqId → ReqId → Prop) (inFlight : ReqId → ℕ) (st st' : Scheduling) :
    Prop :=
  ∀ p q, Leaves st st' p → Leaves st st' q → older p q → inFlight p = 0 → inFlight q = 0

variable {older : ReqId → ReqId → Prop}

theorem DrainsInOrder.mono (h : DrainsInOrder older inFlight st st')
    (hrunning : st'.runningScheduled ⊆ st₁.runningScheduled) :
    DrainsInOrder older inFlight st st₁ := by
  have hleaves : ∀ q, Leaves st st₁ q → Leaves st st' q := fun q hq =>
    hq.imp id (fun hleft => ⟨hleft.1, fun hmem => hleft.2 (hrunning hmem)⟩)
  exact fun p q hp hq => h p q (hleaves p hp) (hleaves q hq)

theorem drainPass_eq {st : Scheduling} (hnodup : st.toBePreempted.Nodup) :
    st.drainPass.toBePreempted = st.toBePreempted.filter st.flying ∧
      st.drainPass.waiting =
        (st.toBePreempted.filter (! st.flying ·)).reverse ++ st.waiting ∧
      st.drainPass.preemptedReqs = st.preemptedReqs ++ st.toBePreempted :=
  drainPreempted_eq hnodup st

theorem flying_eq (hcont : st.Contained inFlight) (hnone : st.scheduled = []) {q : ReqId}
    (hq : q ∈ st.requests) : st.flying q = decide (0 < inFlight q) := by
  have hcount := hcont.count q hq
  rw [hnone] at hcount
  simp only [List.not_mem_nil, ite_false] at hcount
  simp [flying, hcount]

theorem drainPass_serviceQueue (hcont : st.Contained inFlight) (hnone : st.scheduled = [])
    (hsorted : st.serviceQueue.Pairwise older)
    (hdrains : DrainsInOrder older inFlight st st') :
    st.drainPass.serviceQueue = st.serviceQueue := by
  obtain ⟨hkept, hwaiting, -⟩ := drainPass_eq hcont.toBePreempted_nodup
  have hrunning : st.drainPass.runningScheduled = st.runningScheduled :=
    (drainPreempted_frame st.toBePreempted st).1
  have hold : st.toBePreempted.reverse.Pairwise fun p q => older p q :=
    (List.pairwise_append.mp (List.pairwise_append.mp hsorted).1).2.1
  -- whatever is newer than an idle request is idle
  have hsplit : st.toBePreempted.reverse.Pairwise
      fun p q => st.flying q = true → st.flying p = true := by
    refine hold.imp_of_mem (fun {p q} hp hq hpq hfly => ?_)
    rw [List.mem_reverse] at hp hq
    rw [flying_eq hcont hnone (hcont.toBePreempted_mem hp)]
    rw [flying_eq hcont hnone (hcont.toBePreempted_mem hq)] at hfly
    have hidle := hdrains p q (.inl hp) (.inl hq) hpq
    simp only [decide_eq_true_eq] at hfly ⊢
    omega
  have hparts := filter_append_filter_not hsplit
  rw [List.filter_reverse, List.filter_reverse] at hparts
  rw [Scheduler.serviceQueue, Scheduler.serviceQueue, hrunning, hkept, hwaiting, ← hparts]
  simp only [List.append_assoc]

/-- What the running loop keeps of the order, where `st` is the state at the start of `schedule`. -/
structure EvictsInOrder (older : ReqId → ReqId → Prop) (inFlight : ReqId → ℕ)
    (st st₁ st' : Scheduling) : Prop where
  running : st'.runningScheduled <+: st₁.runningScheduled
  draining : ∀ q ∈ st'.toBePreempted, 0 < inFlight q ∧ Leaves st st' q
  unmoved : st'.preemptedReqs = [] → st₁.preemptedReqs = [] ∧
    st'.runningScheduled = st₁.runningScheduled ∧ st'.toBePreempted = st₁.toBePreempted
  order : DrainsInOrder older inFlight st st' → st'.serviceQueue = st₁.serviceQueue

theorem EvictsInOrder.evict {reqId : ReqId} {xs : List ReqId} {r : Request} {kv : KVCacheManager}
    (h : EvictsInOrder older inFlight st st₁ st') (hstart : st₁.runningScheduled = st.runningScheduled)
    (hsorted : st₁.serviceQueue.Pairwise older) (hnodup : st₁.runningScheduled.Nodup)
    (hlast : st'.runningScheduled = xs ++ [reqId])
    (hr : 0 < r.numScheduled ↔ 0 < inFlight reqId) :
    EvictsInOrder older inFlight st st₁
      (preempt { st' with runningScheduled := xs, kvCacheManager := kv } reqId r) := by
  set out := preempt { st' with runningScheduled := xs, kvCacheManager := kv } reqId r with hout
  have hrunning : out.runningScheduled = xs := preempt_runningScheduled _ _ _
  have hpre : xs <+: st'.runningScheduled := hlast ▸ List.prefix_append _ _
  have hsub : out.runningScheduled ⊆ st'.runningScheduled := hrunning ▸ hpre.subset
  have hleft : reqId ∉ xs := by
    have hrun := hnodup.sublist h.running.sublist
    rw [hlast] at hrun
    exact fun hmem => (List.nodup_append.mp hrun).2.2 _ hmem _ List.mem_cons_self rfl
  have hmem : reqId ∈ st'.runningScheduled := by simp [hlast]
  have hleaves : Leaves st out reqId :=
    .inr ⟨hstart ▸ h.running.subset hmem, fun hm => hleft (hrunning ▸ hm)⟩
  have hkeeps : ∀ q, Leaves st st' q → Leaves st out q := fun q hq =>
    hq.imp id (fun hq => ⟨hq.1, fun hm => hq.2 (hsub hm)⟩)
  by_cases hflight : 0 < r.numScheduled
  · have htbp : out.toBePreempted = st'.toBePreempted ++ [reqId] := by
      simp [hout, preempt, hflight]
    have hwaiting : out.waiting = st'.waiting := by simp [hout, preempt, hflight]
    refine ⟨hrunning ▸ hpre.trans h.running, ?_, ?_, fun hdrains => ?_⟩
    · intro q hq
      rw [htbp, List.mem_append, List.mem_singleton] at hq
      rcases hq with hq | rfl
      · exact ⟨(h.draining q hq).1, hkeeps q (h.draining q hq).2⟩
      · exact ⟨hr.mp hflight, hleaves⟩
    · simp [hout, preempt, hflight]
    · rw [← h.order (hdrains.mono hsub), Scheduler.serviceQueue, Scheduler.serviceQueue, hrunning,
        htbp, hwaiting, hlast]
      simp
  · have htbp : out.toBePreempted = st'.toBePreempted := by simp [hout, preempt, hflight]
    have hwaiting : out.waiting = reqId :: st'.waiting := by simp [hout, preempt, hflight]
    refine ⟨hrunning ▸ hpre.trans h.running, ?_, ?_, fun hdrains => ?_⟩
    · intro q hq
      rw [htbp] at hq
      exact ⟨(h.draining q hq).1, hkeeps q (h.draining q hq).2⟩
    · simp [hout, preempt, hflight]
    · have horder := h.order (hdrains.mono hsub)
      -- a newer request that still drains would be out of order
      have hnone : st'.toBePreempted = [] := by
        rw [List.eq_nil_iff_forall_not_mem]
        intro q hq
        have hqueue := hsorted
        rw [← horder, Scheduler.serviceQueue, hlast] at hqueue
        have holder : older reqId q := by
          refine (List.pairwise_append.mp (List.pairwise_append.mp hqueue).1).2.2 _ ?_ _ ?_
          · simp
          · simpa using hq
        have hidle := hdrains reqId q hleaves (hkeeps q (h.draining q hq).2) holder
        have hflying := (h.draining q hq).1
        have hzero : inFlight reqId = 0 := by
          have hnot := hr.not.mp hflight
          omega
        omega
      rw [← horder, Scheduler.serviceQueue, Scheduler.serviceQueue, hrunning, htbp, hwaiting, hlast,
        hnone]
      simp

theorem RunningMove.evictsInOrder (hmove : RunningMove cfg st' st'')
    (hcont : st'.Contained inFlight) (hstart : st₁.runningScheduled = st.runningScheduled)
    (hsorted : st₁.serviceQueue.Pairwise older) (hnodup : st₁.runningScheduled.Nodup)
    (h : EvictsInOrder older inFlight st st₁ st') : EvictsInOrder older inFlight st st₁ st'' := by
  cases hmove with
  | allocFail => exact ⟨h.running, h.draining, h.unmoved, h.order⟩
  | evict reqId realToken xs hlast hsched =>
      refine h.evict hstart hsorted hnodup hlast ?_
      have hcount := hcont.count reqId (hcont.running_mem (by simp [hlast]))
      simp only [hsched, ite_false] at hcount
      have hclaimed : (claimed (st'.request reqId) realToken).numScheduled =
          (st'.request reqId).numScheduled := by
        cases realToken <;> rfl
      change 0 < (claimed (st'.request reqId) realToken).numScheduled ↔ _
      rw [hclaimed, hcount]
      omega
  | assign reqId realToken n blocks kv =>
      cases realToken <;> exact ⟨h.running, h.draining, h.unmoved, h.order⟩
  | drop => exact ⟨h.running, h.draining, h.unmoved, h.order⟩

theorem runningMoves_evictsInOrder (hmoves : RunningMoves cfg st₁ st')
    (hcont : st₁.Contained inFlight) (hstart : st₁.runningScheduled = st.runningScheduled)
    (hsorted : st₁.serviceQueue.Pairwise older)
    (hdraining : ∀ q ∈ st₁.toBePreempted, 0 < inFlight q ∧ Leaves st st₁ q) :
    EvictsInOrder older inFlight st st₁ st' := by
  induction hmoves with
  | refl => exact ⟨List.prefix_rfl, hdraining, fun hnone => ⟨hnone, rfl, rfl⟩, fun _ => rfl⟩
  | tail hmoves hmove ih =>
      have hcont' := Scheduler.moves_contained (RunningMoves.moves hmoves) hcont
      exact hmove.evictsInOrder hcont' hstart hsorted hcont.running_nodup ih

/-! ## Admission in order -/

theorem waitingLoop_serviceQueue {shouldEstimateLength : Bool} {memInTokens : ℤ}
    {waiting : List ReqId} {memUsageList : List ℚ}
    (hplain : ∀ q ∈ waiting, (st.request q).status ≠ .waitingForFsm)
    (h : waitingLoop cfg shouldEstimateLength memInTokens waiting [] memUsageList st = .ok st') :
    st'.runningScheduled ++ st'.waiting = st.runningScheduled ++ waiting ∧
      st'.toBePreempted = st.toBePreempted := by
  induction waiting generalizing memUsageList st with
  | nil =>
      simp only [waitingLoop] at h
      cases h
      exact ⟨rfl, rfl⟩
  | cons reqId waiting ih =>
      have hready := hplain reqId List.mem_cons_self
      rw [waitingLoop] at h
      dsimp only at h
      generalize (if shouldEstimateLength = true then
        addFootprint cfg (st.request reqId) memUsageList else memUsageList) = usage at h
      by_cases hbudget : st.tokenBudget = 0
      · rw [if_pos hbudget] at h
        cases h
        exact ⟨rfl, rfl⟩
      rw [if_neg hbudget] at h
      by_cases hroom : st.runningScheduled.length = cfg.scheduler.maxNumSeqs
      · rw [if_pos hroom] at h
        cases h
        exact ⟨rfl, rfl⟩
      rw [if_neg hroom] at h
      split at h
      · cases h
        exact ⟨rfl, rfl⟩
      simp only [hready, false_and, ite_false] at h
      simp only [bind_eq_ok, pyAssert_eq_ok, Prod.exists] at h
      obtain ⟨computedBlocks, numComputedTokens, kv₀, -, _, -, newBlocks, kv, -, h⟩ := h
      cases newBlocks with
      | none =>
          cases h
          exact ⟨rfl, rfl⟩
      | some blocks =>
          simp only [bind_eq_ok] at h
          obtain ⟨st₁, hadmitted, h⟩ := h
          obtain ⟨-, rfl⟩ := admitRequest_eq_ok hadmitted
          obtain ⟨hqueue, htbp⟩ := ih (fun q hq => by
            by_cases hq' : q = reqId
            · simp [hq']
            · simpa [Function.update_of_ne hq'] using hplain q (List.mem_cons_of_mem reqId hq)) h
          refine ⟨hqueue.trans ?_, htbp⟩
          simp

theorem confidencePass_eq {maxDroppedConfidence : ℚ}
    (h : st.confidencePass cfg = .ok (st', maxDroppedConfidence)) :
    st' = { st with request := st'.request } := by
  unfold confidencePass at h
  split_ifs at h
  · simp only [bind_eq_ok, pure_eq_ok, Prod.exists, Prod.mk.injEq] at h
    obtain ⟨passed, _, -, rfl, -⟩ := h
    rfl
  · cases h
    rfl

/-! ## Statuses -/

theorem Plain.of_waiting (h : st.Plain)
    (hwaiting : ∀ q ∈ st'.waiting, q ∈ st.waiting ∧ (st'.request q).status = (st.request q).status ∨
      (st'.request q).status = .preempted) : st'.Plain := by
  intro q hq
  rcases hwaiting q hq with ⟨hmem, hsame⟩ | hpreempted
  · rw [hsame]
    exact h q hmem
  · simp [hpreempted]

theorem Move.plain (hmove : Move cfg st st') (hcont : st.Contained inFlight) (h : st.Plain) :
    st'.Plain := by
  cases hmove with
  | drain hmove =>
      cases hmove with
      | drainWait reqId hmem =>
          refine Plain.of_waiting h (fun q hq => .inl ⟨hq, ?_⟩)
          have hne : q ≠ reqId := fun heq => hcont.toBePreempted_notMem_waiting hmem (heq ▸ hq)
          simp [Function.update_of_ne hne]
      | drainReturn reqId xs ys hmem =>
          have htbp : reqId ∈ st.toBePreempted := by simp [hmem]
          refine Plain.of_waiting h (fun q hq => ?_)
          by_cases hq' : q = reqId
          · subst hq'
            right
            have hstatus := (hcont.status q (hcont.toBePreempted_mem htbp)).toBePreempted htbp
            simpa [Request.reinitialize, Request.markForPreemption] using hstatus
          · exact .inl ⟨(List.mem_cons.mp hq).resolve_left hq', by simp [Function.update_of_ne hq']⟩
  | setPassed passed =>
      refine Plain.of_waiting h (fun q hq => .inl ⟨hq, ?_⟩)
      obtain ⟨b, hb⟩ := setConfidencePassed_request st passed q
      rw [hb]
  | running hmove =>
      cases hmove with
      | allocFail => exact h
      | evict reqId realToken xs hlast =>
          refine Plain.of_waiting h (fun q hq => ?_)
          by_cases hq' : q = reqId
          · subst hq'
            right
            unfold preempt
            split <;> simp [Request.reinitialize, Request.markForPreemption]
          · left
            rw [preempt_request_of_ne hq']
            refine ⟨?_, rfl⟩
            unfold preempt at hq
            split at hq
            · exact hq
            · exact (List.mem_cons.mp hq).resolve_left hq'
      | assign reqId realToken n blocks kv hmem =>
          refine Plain.of_waiting h (fun q hq => .inl ?_)
          rw [assignRunning_waiting] at hq
          have hne : q ≠ reqId := fun heq => hcont.running_notMem_waiting hmem (heq ▸ hq)
          exact ⟨hq, by simp [Function.update_of_ne hne]⟩
      | drop reqId hmem =>
          refine Plain.of_waiting h (fun q hq => .inl ⟨hq, ?_⟩)
          have hne : q ≠ reqId := fun heq => hcont.running_notMem_waiting hmem (heq ▸ hq)
          simp [Function.update_of_ne hne]
  | waiting hmove =>
      cases hmove with
      | markReady reqId hmem =>
          have hready : ready (st.request reqId) = st.request reqId := if_neg (h reqId hmem)
          rw [hready, setRequest_self]
          exact h
      | searchCache => exact h
      | refused => exact h
      | admission reqId xs ys n numComputedTokens computedBlocks blocks kv₀ kv hmem =>
          refine Plain.of_waiting h (fun q hq => .inl ?_)
          rw [admitted_waiting] at hq
          have hwaiting := hcont.waiting_nodup
          rw [hmem] at hwaiting
          have hne : q ≠ reqId := by
            rintro rfl
            have hperm : (xs ++ q :: ys).Perm (q :: (xs ++ ys)) := List.perm_middle
            exact (List.nodup_cons.mp (hperm.nodup_iff.mp hwaiting)).1 hq
          refine ⟨?_, by simp [Function.update_of_ne hne]⟩
          rw [hmem]
          rcases List.mem_append.mp hq with hq | hq
          · exact List.mem_append_left _ hq
          · exact List.mem_append_right _ (List.mem_cons_of_mem _ hq)

theorem moves_plain (hmoves : Moves cfg st st') (hcont : st.Contained inFlight) (h : st.Plain) :
    st'.Plain := by
  induction hmoves with
  | refl => exact h
  | tail hmoves hmove ih => exact hmove.plain (Scheduler.moves_contained hmoves hcont) ih

/-! ## The whole selection -/

/-- Scheduling keeps the order of the queue if preempted requests drain in order. -/
theorem selectRequests_serviceQueue {maxDroppedConfidence : ℚ} (hcont : st.Contained inFlight)
    (hplain : st.Plain) (hnone : st.numScheduledTokens = [])
    (hsorted : st.serviceQueue.Pairwise older)
    (h : selectRequests cfg st = .ok (st', maxDroppedConfidence))
    (hdrains : DrainsInOrder older inFlight st st') : st'.serviceQueue = st.serviceQueue := by
  simp only [selectRequests, bind_eq_ok, pure_eq_ok, Prod.exists, Prod.mk.injEq] at h
  obtain ⟨st₁, _, hpass, st₂, hloop, estimate, -, st₃, hwait, rfl, -⟩ := h
  have hsched : st.scheduled = [] := by rw [scheduled, hnone, List.map_nil]
  obtain ⟨hkept, hback, hpreempted⟩ := drainPass_eq hcont.toBePreempted_nodup
  have hdrainRun : st.drainPass.runningScheduled = st.runningScheduled :=
    (drainPreempted_frame st.toBePreempted st).1
  have hdrainSched : st.drainPass.numScheduledTokens = st.numScheduledTokens :=
    (drainPreempted_frame st.toBePreempted st).2
  have hqueue := drainPass_serviceQueue hcont hsched hsorted hdrains
  have hdrainMoves : Moves cfg st st.drainPass := drainPreempted_moves [] st.toBePreempted st
  obtain ⟨hpassMoves, hpassRun, hpassSched⟩ := confidencePass_moves hpass
  have hpassEq := confidencePass_eq hpass
  have hqueue₁ : st₁.serviceQueue = st.serviceQueue := by
    rw [hpassEq]
    exact hqueue
  have hcont₁ := Scheduler.moves_contained (hdrainMoves.trans hpassMoves) hcont
  have hrunning₁ : st₁.runningScheduled = st.runningScheduled := hpassRun.trans hdrainRun
  have hsched₁ : st₁.scheduled = [] := by
    rw [scheduled, hpassSched, hdrainSched, hnone, List.map_nil]
  have htbp₁ : st₁.toBePreempted = st.toBePreempted.filter st.flying := by
    rw [hpassEq]
    exact hkept
  have hdraining : ∀ q ∈ st₁.toBePreempted, 0 < inFlight q ∧ Leaves st st₁ q := by
    intro q hq
    rw [htbp₁, List.mem_filter] at hq
    have hfly := hq.2
    rw [flying_eq hcont hsched (hcont.toBePreempted_mem hq.1), decide_eq_true_eq] at hfly
    exact ⟨hfly, .inl hq.1⟩
  have hloopMoves := runningLoop_moves hcont₁.running_nodup (by simp [hsched₁]) hloop
  have hloopOrder := runningMoves_evictsInOrder hloopMoves hcont₁ hrunning₁ (hqueue₁ ▸ hsorted)
    hdraining
  have hmoves₂ := (hdrainMoves.trans hpassMoves).trans hloopMoves.moves
  by_cases hquiet : st₂.preemptedReqs = []
  · -- nothing has been preempted, so the queue is as it was and requests are admitted from its end
    obtain ⟨hquiet₁, hrun₂, htbp₂⟩ := hloopOrder.unmoved hquiet
    have hnoDrain : st.toBePreempted = [] := by
      rw [hpassEq] at hquiet₁
      exact (List.append_eq_nil_iff.mp (hpreempted.symm.trans hquiet₁)).2
    have hstill : DrainsInOrder older inFlight st st₂ := by
      intro p q hp
      have hnever : ¬ Leaves st st₂ p := by
        rintro (hmem | ⟨hmem, hleft⟩)
        · simp [hnoDrain] at hmem
        · exact hleft (by rwa [hrun₂, hrunning₁])
      exact absurd hp hnever
    have hqueue₂ := hloopOrder.order hstill
    have hplain₂ := moves_plain hmoves₂ hcont hplain
    have hempty : st₂.toBePreempted = [] := by
      rw [htbp₂, htbp₁, hnoDrain]
      rfl
    unfold waitingPass at hwait
    split_ifs at hwait with hgo
    · obtain ⟨hfinal, htbp₃⟩ := waitingLoop_serviceQueue hplain₂ hwait
      rw [← hqueue₁, ← hqueue₂, Scheduler.serviceQueue, Scheduler.serviceQueue, htbp₃, hempty]
      simpa using hfinal
    · cases hwait
      exact hqueue₂.trans hqueue₁
  · unfold waitingPass at hwait
    rw [if_neg (fun hgo => hquiet hgo.1)] at hwait
    cases hwait
    exact (hloopOrder.order hdrains).trans hqueue₁

end Scheduling

/-! ## Verification -/

namespace Scheduler

theorem VerifyMove.serviceQueue {cfg : Config} {output : ModelRunnerOutput} {s s' : Scheduler}
    {reqId : ReqId} {outputs : List EngineCoreOutput}
    (hmove : VerifyMove cfg output s reqId outputs s') :
    s'.serviceQueue.Sublist s.serviceQueue := by
  cases hmove with
  | goesOn => exact .refl _
  | stops =>
      simp only [Scheduler.remove, setRequest_runningScheduled, setRequest_toBePreempted,
        setRequest_waiting]
      exact (List.erase_sublist.append (List.reverse_sublist.mpr List.erase_sublist)).append_right _

theorem VerifyMoves.serviceQueue {cfg : Config} {output : ModelRunnerOutput} {s s' : Scheduler}
    {reqIds : List ReqId} {outputs : List EngineCoreOutput}
    (hmoves : VerifyMoves cfg output s reqIds outputs s') :
    s'.serviceQueue.Sublist s.serviceQueue := by
  induction hmoves with
  | nil => exact .refl _
  | cons hmove _ ih => exact ih.trans hmove.serviceQueue

end Scheduler

/-! ## Runs -/

/-- Does a request arrive that needs structured output? -/
def Operation.isStructured : Operation → Bool
  | .addRequest _ _ samplingParams _ => samplingParams.guidedDecoding
  | _ => false

namespace System

/-- The number of a request, in the order of arrival. -/
def arrival (sys : System) (q : ReqId) : ℕ :=
  sys.added.reverse.idxOf q

/-- Is the request draining, or evicted by this step? -/
def Preempted (sys sys' : System) (q : ReqId) : Prop :=
  q ∈ sys.engine.scheduler.toBePreempted ∨
    q ∈ sys.engine.scheduler.runningScheduled ∧ q ∉ sys'.engine.scheduler.runningScheduled

/-- No preempted request has nothing in flight while a newer one still has. -/
def DrainsInOrder (sys sys' : System) : Prop :=
  ∀ p q, Preempted sys sys' p → Preempted sys sys' q → sys.arrival p < sys.arrival q →
    sys.engine.entries p = [] → sys.engine.entries q = []

/-- A step without aborts and structured output in which preempted requests drain in order. -/
structure OrderedStep (cfg : Config) (sys : System) (operation : Operation) (sys' : System) :
    Prop where
  step : Step cfg sys operation sys'
  notAbort : operation.isAbort = false
  notStructured : operation.isStructured = false
  drains : ∀ execute, operation = .schedule execute → DrainsInOrder sys sys'

/-- The live requests are served in the order of their arrival. -/
structure Served (sys : System) : Prop where
  placed : sys.Placed
  plain : sys.engine.scheduler.Plain
  added_nodup : sys.added.Nodup
  queue : sys.engine.scheduler.serviceQueue.Sublist sys.added.reverse

theorem pairwise_idxOf {α : Type*} [DecidableEq α] {xs ys : List α} (hnodup : xs.Nodup)
    (h : ys.Sublist xs) : ys.Pairwise fun x y => xs.idxOf x < xs.idxOf y := by
  refine List.Pairwise.sublist h (List.pairwise_iff_getElem.mpr (fun i j hi hj hij => ?_))
  rwa [hnodup.idxOf_getElem, hnodup.idxOf_getElem]

theorem Served.sorted {sys : System} (h : sys.Served) :
    sys.engine.scheduler.serviceQueue.Pairwise fun p q => sys.arrival p < sys.arrival q :=
  pairwise_idxOf (List.nodup_reverse.mpr h.added_nodup) h.queue

theorem init_served (cfg : Config) : (init cfg).Served where
  placed := init_placed cfg
  plain := fun _ hq => nomatch hq
  added_nodup := List.nodup_nil
  queue := .refl _

/-- A step that changes no request of the waiting queue but its grammar. -/
theorem plain_of_waiting {s s' : Scheduler} (h : s.Plain) (hwaiting : s'.waiting = s.waiting)
    (hstatus : ∀ q ∈ s.waiting, (s'.request q).status = (s.request q).status) : s'.Plain := by
  intro q hq
  rw [hwaiting] at hq
  rw [hstatus q hq]
  exact h q hq

theorem addRequest_served {sys sys' : System} {reqId : ReqId}
    {promptTokenIds : List TokenId} {samplingParams : SamplingParams}
    {eosTokenId : Option TokenId} {s : Scheduler} (h : sys.Served)
    (hunstructured : samplingParams.guidedDecoding = false) (hfresh : reqId ∉ sys.added)
    (hadd : sys.engine.scheduler.addRequest reqId
      (.init promptTokenIds samplingParams eosTokenId) = .ok s)
    (hsys : sys' = ⟨{ sys.engine with scheduler := s }, reqId :: sys.added, sys.outputs⟩)
    (hplaced : sys'.Placed) : sys'.Served := by
  subst hsys
  refine ⟨hplaced, ?_, List.nodup_cons.mpr ⟨hfresh, h.added_nodup⟩, ?_⟩ <;>
    unfold Scheduler.addRequest at hadd <;> split_ifs at hadd <;> cases hadd
  · intro q hq
    by_cases hq' : q = reqId
    · subst hq'
      simp [Request.init, hunstructured]
    · simp only [List.mem_append, List.mem_singleton, hq', or_false] at hq
      simpa [Function.update_of_ne hq'] using h.plain q hq
  · have hqueue : Scheduler.serviceQueue { sys.engine.scheduler.setRequest reqId
          (.init promptTokenIds samplingParams eosTokenId) with
        waiting := sys.engine.scheduler.waiting ++ [reqId]
        requests := setAdd sys.engine.scheduler.requests reqId } =
        sys.engine.scheduler.serviceQueue ++ [reqId] := by
      simp [Scheduler.serviceQueue]
    rw [hqueue, List.reverse_cons]
    exact h.queue.append_right _

theorem verify_served {cfg : Config} {sys : System} {e : EngineCore}
    {outputs : List EngineCoreOutput} (h : sys.Served)
    (hverify : sys.engine.verify cfg = .ok (outputs, e)) :
    e.scheduler.Plain ∧ e.scheduler.serviceQueue.Sublist sys.added.reverse := by
  obtain ⟨-, hwaiting, hlanding⟩ := EngineCore.verify_landing h.placed.contained hverify
  refine ⟨plain_of_waiting h.plain hwaiting (fun q hq => ?_), ?_⟩
  · have hidle := h.placed.contained.waiting_idle q hq
    cases hlanding q (h.placed.contained.waiting_mem hq) with
    | absent _ hrequest => rw [hrequest]
    | lands batch _ _ _ hentries => simp [hentries] at hidle
  · rcases EngineCore.verify_cases hverify with ⟨-, hs, -⟩ | ⟨batch, queue, -, -, hmoves⟩
    · rw [hs]
      exact h.queue
    · exact hmoves.serviceQueue.trans h.queue

theorem schedule_served {cfg : Config} {sys : System} {execute : Executor} {e : EngineCore}
    (h : sys.Served) (hschedule : sys.engine.schedule cfg execute = .ok e)
    (hdrains : DrainsInOrder sys { sys with engine := e }) :
    e.scheduler.Plain ∧ e.scheduler.serviceQueue = sys.engine.scheduler.serviceQueue := by
  obtain ⟨st, out, hlaunch⟩ := EngineCore.schedule_launch h.placed.contained hschedule
  have hspec := hlaunch.spec
  obtain ⟨_, hselect⟩ := hspec.select
  have hbegin : (sys.engine.scheduler.begin cfg).Contained _ :=
    Scheduler.begin_contained h.placed.contained
  have hplain := Scheduling.moves_plain hspec.moves hbegin h.plain
  constructor
  · refine plain_of_waiting hplain hspec.waiting (fun q _ => ?_)
    rw [hspec.request]
    exact (Request.built_advance_record _ _ _).2.2
  · have hqueue : e.scheduler.serviceQueue = st.serviceQueue := by
      rw [Scheduler.serviceQueue, hspec.running, hspec.toBePreempted, hspec.waiting]
      rfl
    rw [hqueue]
    refine Scheduling.selectRequests_serviceQueue hbegin h.plain rfl h.sorted hselect ?_
    intro p q hp hq holder hidle
    have hleaves : ∀ q, Scheduling.Leaves (sys.engine.scheduler.begin cfg) st q →
        Preempted sys { sys with engine := e } q := fun q hq =>
      hq.imp id (fun hq => ⟨hq.1, by rw [hspec.running]; exact hq.2⟩)
    rw [List.length_eq_zero_iff] at hidle ⊢
    exact hdrains p q (hleaves p hp) (hleaves q hq) holder hidle

theorem OrderedStep.served {cfg : Config} {sys sys' : System} {operation : Operation}
    (h : sys.Served) (hstep : OrderedStep cfg sys operation sys') : sys'.Served := by
  have hplaced := hstep.step.placed hstep.notAbort h.placed
  obtain ⟨hstep, hnotAbort, hunstructured, hdrains⟩ := hstep
  cases hstep with
  | addRequest reqId promptTokenIds samplingParams eosTokenId hphase hfresh hadd =>
      exact addRequest_served h hunstructured hfresh hadd rfl hplaced
  | compileGrammar reqId =>
      refine ⟨hplaced, plain_of_waiting h.plain rfl (fun q _ => ?_), h.added_nodup, h.queue⟩
      by_cases hq : q = reqId
      · subst hq
        simp [EngineCore.compileGrammar]
      · simp [EngineCore.compileGrammar, Function.update_of_ne hq]
  | finishRequests => exact absurd hnotAbort (by simp [Operation.isAbort])
  | verify hphase hverify =>
      obtain ⟨hplain, hqueue⟩ := verify_served h hverify
      exact ⟨hplaced, hplain, h.added_nodup, hqueue⟩
  | schedule execute hphase hschedule =>
      obtain ⟨hplain, hqueue⟩ := schedule_served h hschedule (hdrains execute rfl)
      exact ⟨hplaced, hplain, h.added_nodup, hqueue ▸ h.queue⟩
  | ingest hphase hingest =>
      obtain ⟨-, -, -, hspec⟩ := EngineCore.ingest_contained hphase h.placed.contained hingest
      refine ⟨hplaced, plain_of_waiting h.plain (by rw [hspec.eq]) (fun q hq => ?_),
        h.added_nodup, by rw [hspec.eq]; exact h.queue⟩
      rw [hspec.same q (fun hin => h.placed.contained.waiting_notMem_running hq hin.1)]

theorem run_served {cfg : Config} {operations : List Operation} {sys : System}
    (hrun : Transition.Run (OrderedStep cfg) (init cfg) operations sys) : sys.Served :=
  hrun.invariant (init_served cfg) (fun _ _ _ => OrderedStep.served)

/-- Nine prompt tokens need three chunks, and the pool has nine blocks of one token. -/
def tightPool : Config where
  scheduler := { maxNumSeqs := 3, maxNumBatchedTokens := 4, longPrefillTokenThreshold := 3 }
  kvCache := { blockSize := 1, numBlocks := 10, maxModelLen := 16, numPreallocateTokens := 0 }
  pipelineParallelSize := 2

end System

end Spexis
