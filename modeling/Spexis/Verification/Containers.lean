import Spexis.Verification.Moves

/-! # Where a live request is

Every live request is in exactly one of the three containers, and its counter agrees
with the batches in flight. -/

namespace Spexis

open Python

namespace Scheduler

/-- The containers, one after another. -/
def places (s : Scheduler) : List ReqId :=
  s.waiting ++ s.runningScheduled ++ s.toBePreempted

/-- The statuses a request can have where it is. -/
structure StatusAt (s : Scheduler) (reqId : ReqId) (status : RequestStatus) : Prop where
  waiting : reqId ∈ s.waiting → status = .waiting ∨ status = .waitingForFsm ∨ status = .preempted
  running : reqId ∈ s.runningScheduled → status = .running
  toBePreempted : reqId ∈ s.toBePreempted → status = .preempted

/-- The invariant of the containers, where `scheduled` lists the requests of the batch
that is being put together. -/
structure Containers (s : Scheduler) (inFlight : ReqId → ℕ) (scheduled : List ReqId) : Prop where
  perm : s.places.Perm s.requests
  nodup : s.requests.Nodup
  scheduled_nodup : scheduled.Nodup
  scheduled_running : scheduled ⊆ s.runningScheduled
  count : ∀ reqId ∈ s.requests, (s.request reqId).numScheduled =
    inFlight reqId + if reqId ∈ scheduled then 1 else 0
  waiting_idle : ∀ reqId ∈ s.waiting, inFlight reqId = 0
  marked : ∀ reqId ∈ s.requests,
    (s.request reqId).shouldPreempt = true ↔ reqId ∈ s.toBePreempted
  status : ∀ reqId ∈ s.requests, s.StatusAt reqId (s.request reqId).status

namespace Containers

variable {s s' : Scheduler} {inFlight : ReqId → ℕ} {scheduled scheduled' : List ReqId}
  {reqId : ReqId}

/-! ## Exactly one place -/

theorem places_nodup (h : s.Containers inFlight scheduled) : s.places.Nodup :=
  h.perm.nodup_iff.mpr h.nodup

theorem mem_places (h : s.Containers inFlight scheduled) :
    reqId ∈ s.places ↔ reqId ∈ s.requests :=
  h.perm.mem_iff

theorem mem_requests (h : s.Containers inFlight scheduled) :
    reqId ∈ s.requests ↔
      reqId ∈ s.waiting ∨ reqId ∈ s.runningScheduled ∨ reqId ∈ s.toBePreempted := by
  rw [← h.mem_places, places, List.mem_append, List.mem_append, or_assoc]

theorem waiting_mem (h : s.Containers inFlight scheduled) (hmem : reqId ∈ s.waiting) :
    reqId ∈ s.requests :=
  h.mem_requests.mpr (.inl hmem)

theorem running_mem (h : s.Containers inFlight scheduled) (hmem : reqId ∈ s.runningScheduled) :
    reqId ∈ s.requests :=
  h.mem_requests.mpr (.inr (.inl hmem))

theorem toBePreempted_mem (h : s.Containers inFlight scheduled)
    (hmem : reqId ∈ s.toBePreempted) : reqId ∈ s.requests :=
  h.mem_requests.mpr (.inr (.inr hmem))

theorem waiting_nodup (h : s.Containers inFlight scheduled) : s.waiting.Nodup :=
  (List.nodup_append.mp (List.nodup_append.mp h.places_nodup).1).1

theorem running_nodup (h : s.Containers inFlight scheduled) : s.runningScheduled.Nodup :=
  (List.nodup_append.mp (List.nodup_append.mp h.places_nodup).1).2.1

theorem toBePreempted_nodup (h : s.Containers inFlight scheduled) : s.toBePreempted.Nodup :=
  (List.nodup_append.mp h.places_nodup).2.1

theorem waiting_notMem_running (h : s.Containers inFlight scheduled) (hmem : reqId ∈ s.waiting) :
    reqId ∉ s.runningScheduled := fun hmem' =>
  (List.nodup_append.mp (List.nodup_append.mp h.places_nodup).1).2.2 _ hmem _ hmem' rfl

theorem waiting_notMem_toBePreempted (h : s.Containers inFlight scheduled)
    (hmem : reqId ∈ s.waiting) : reqId ∉ s.toBePreempted := fun hmem' =>
  (List.nodup_append.mp h.places_nodup).2.2 _ (List.mem_append_left _ hmem) _ hmem' rfl

theorem running_notMem_toBePreempted (h : s.Containers inFlight scheduled)
    (hmem : reqId ∈ s.runningScheduled) : reqId ∉ s.toBePreempted := fun hmem' =>
  (List.nodup_append.mp h.places_nodup).2.2 _ (List.mem_append_right _ hmem) _ hmem' rfl

theorem running_notMem_waiting (h : s.Containers inFlight scheduled)
    (hmem : reqId ∈ s.runningScheduled) : reqId ∉ s.waiting := fun hmem' =>
  h.waiting_notMem_running hmem' hmem

theorem toBePreempted_notMem_running (h : s.Containers inFlight scheduled)
    (hmem : reqId ∈ s.toBePreempted) : reqId ∉ s.runningScheduled := fun hmem' =>
  h.running_notMem_toBePreempted hmem' hmem

theorem toBePreempted_notMem_waiting (h : s.Containers inFlight scheduled)
    (hmem : reqId ∈ s.toBePreempted) : reqId ∉ s.waiting := fun hmem' =>
  h.waiting_notMem_toBePreempted hmem' hmem

theorem scheduled_iff_false (h : s.Containers inFlight scheduled)
    (hmem : reqId ∉ s.runningScheduled) : reqId ∉ scheduled := fun hmem' =>
  hmem (h.scheduled_running hmem')

/-! ## A step that concerns one request -/

/-- What has to be checked when one request changes and moves. -/
theorem update (h : s.Containers inFlight scheduled) (reqId : ReqId) (r : Request)
    (hrequest : s'.request = Function.update s.request reqId r)
    (hrequests : s'.requests = s.requests) (hperm : s'.places.Perm s.places)
    (hnodup : scheduled'.Nodup) (hsub : scheduled' ⊆ s'.runningScheduled)
    (hother : ∀ q ≠ reqId, (q ∈ scheduled' ↔ q ∈ scheduled) ∧ (q ∈ s'.waiting ↔ q ∈ s.waiting) ∧
      (q ∈ s'.runningScheduled ↔ q ∈ s.runningScheduled) ∧
      (q ∈ s'.toBePreempted ↔ q ∈ s.toBePreempted))
    (hcount : r.numScheduled = inFlight reqId + if reqId ∈ scheduled' then 1 else 0)
    (hidle : reqId ∈ s'.waiting → inFlight reqId = 0)
    (hmarked : r.shouldPreempt = true ↔ reqId ∈ s'.toBePreempted)
    (hstatus : s'.StatusAt reqId r.status) : s'.Containers inFlight scheduled' where
  perm := hrequests ▸ hperm.trans h.perm
  nodup := hrequests ▸ h.nodup
  scheduled_nodup := hnodup
  scheduled_running := hsub
  count q hq := by
    by_cases hqr : q = reqId
    · subst hqr
      simpa [hrequest] using hcount
    · rw [hrequest, Function.update_of_ne hqr, h.count q (hrequests ▸ hq)]
      simp only [(hother q hqr).1]
  waiting_idle q hq := by
    by_cases hqr : q = reqId
    · exact hqr ▸ hidle (hqr ▸ hq)
    · exact h.waiting_idle q ((hother q hqr).2.1.mp hq)
  marked q hq := by
    by_cases hqr : q = reqId
    · subst hqr
      simpa [hrequest] using hmarked
    · rw [hrequest, Function.update_of_ne hqr, h.marked q (hrequests ▸ hq)]
      exact (hother q hqr).2.2.2.symm
  status q hq := by
    by_cases hqr : q = reqId
    · subst hqr
      simpa [hrequest] using hstatus
    · rw [hrequest, Function.update_of_ne hqr]
      obtain ⟨-, hw, hr, ht⟩ := hother q hqr
      have hstat := h.status q (hrequests ▸ hq)
      exact ⟨fun hm => hstat.waiting (hw.mp hm), fun hm => hstat.running (hr.mp hm),
        fun hm => hstat.toBePreempted (ht.mp hm)⟩

/-- A change to neither the containers nor what the invariant says of the live requests. -/
theorem congr (h : s.Containers inFlight scheduled)
    (hplaces : (s'.waiting, s'.runningScheduled, s'.toBePreempted, s'.requests) =
      (s.waiting, s.runningScheduled, s.toBePreempted, s.requests))
    (hrequest : ∀ q ∈ s.requests, (s'.request q).numScheduled = (s.request q).numScheduled ∧
      (s'.request q).shouldPreempt = (s.request q).shouldPreempt ∧
      (s'.request q).status = (s.request q).status) : s'.Containers inFlight scheduled := by
  simp only [Prod.mk.injEq] at hplaces
  obtain ⟨hw, hr, ht, hreq⟩ := hplaces
  constructor
  · simpa only [places, hw, hr, ht, hreq] using h.perm
  · rw [hreq]
    exact h.nodup
  · exact h.scheduled_nodup
  · rw [hr]
    exact h.scheduled_running
  · intro q hq
    rw [(hrequest q (hreq ▸ hq)).1]
    exact h.count q (hreq ▸ hq)
  · rw [hw]
    exact h.waiting_idle
  · intro q hq
    rw [(hrequest q (hreq ▸ hq)).2.1, ht]
    exact h.marked q (hreq ▸ hq)
  · intro q hq
    obtain ⟨h₁, h₂, h₃⟩ := h.status q (hreq ▸ hq)
    rw [(hrequest q (hreq ▸ hq)).2.2]
    exact ⟨hw ▸ h₁, hr ▸ h₂, ht ▸ h₃⟩

theorem congr_inFlight {inFlight' : ReqId → ℕ} (h : s.Containers inFlight scheduled)
    (heq : ∀ q ∈ s.requests, inFlight' q = inFlight q) : s.Containers inFlight' scheduled :=
  { h with
    count := fun q hq => by rw [h.count q hq, heq q hq]
    waiting_idle := fun q hq => by rw [heq q (h.waiting_mem hq), h.waiting_idle q hq] }

/-- The batch that was being put together is in flight. -/
theorem launch (h : s.Containers inFlight scheduled) :
    s.Containers (fun q => inFlight q + if q ∈ scheduled then 1 else 0) [] where
  perm := h.perm
  nodup := h.nodup
  scheduled_nodup := List.nodup_nil
  scheduled_running := List.nil_subset _
  count q hq := by
    have hcount := h.count q hq
    by_cases hsched : q ∈ scheduled <;> simpa [hsched] using hcount
  waiting_idle q hq := by
    have hsched := h.scheduled_iff_false (h.waiting_notMem_running hq)
    simp [hsched, h.waiting_idle q hq]
  marked := h.marked
  status := h.status

end Containers

end Scheduler

namespace Scheduling

open Scheduler

variable {cfg : Config} {st st' : Scheduling} {inFlight : ReqId → ℕ}

/-- The invariant in the middle of `schedule`. -/
abbrev Contained (st : Scheduling) (inFlight : ReqId → ℕ) : Prop :=
  st.toScheduler.Containers inFlight st.scheduled

/-! ## Every move keeps the invariant -/

theorem Contained.drainWait (h : st.Contained inFlight) {reqId : ReqId}
    (hmem : reqId ∈ st.toBePreempted) :
    Contained { st.setRequest reqId (st.request reqId).markForPreemption with
      preemptedReqs := st.preemptedReqs ++ [reqId] } inFlight := by
  have hlive := h.toBePreempted_mem hmem
  refine h.update reqId _ rfl rfl (.refl _) h.scheduled_nodup h.scheduled_running
    (fun _ _ => ⟨.rfl, .rfl, .rfl, .rfl⟩) (h.count reqId hlive) (h.waiting_idle reqId) ?_ ?_
  · simpa [Request.markForPreemption] using hmem
  · obtain ⟨hw, hr, ht⟩ := h.status reqId hlive
    exact ⟨hw, hr, ht⟩

theorem Contained.drainReturn (h : st.Contained inFlight) {reqId : ReqId} {xs ys : List ReqId}
    (hmem : st.toBePreempted = xs ++ reqId :: ys) (hflight : ¬ 0 < (st.request reqId).numScheduled) :
    Contained { st.setRequest reqId (st.request reqId).markForPreemption.reinitialize with
      waiting := reqId :: st.waiting
      toBePreempted := xs ++ ys
      preemptedReqs := st.preemptedReqs ++ [reqId] } inFlight := by
  change Containers _ inFlight st.scheduled
  have htbp : reqId ∈ st.toBePreempted := by simp [hmem]
  have hlive := h.toBePreempted_mem htbp
  have hrun := h.toBePreempted_notMem_running htbp
  have hsched : reqId ∉ st.scheduled := h.scheduled_iff_false hrun
  have hnodup := h.toBePreempted_nodup
  rw [hmem] at hnodup
  have hleft : reqId ∉ xs ++ ys := (List.nodup_cons.mp (List.perm_middle.nodup_iff.mp hnodup)).1
  have hidle : inFlight reqId = 0 := by
    have hcount := h.count reqId hlive
    simp only [hsched, ite_false] at hcount
    omega
  refine h.update reqId _ rfl rfl ?_ h.scheduled_nodup h.scheduled_running ?_ ?_ (fun _ => hidle)
    ?_ ?_
  · simp only [places, hmem, List.perm_iff_count]
    intro q
    simp only [setRequest_runningScheduled, List.count_append, List.count_cons]
    omega
  · intro q hq
    simp [hq, hmem]
  · simp [Request.reinitialize, hidle, hsched]
  · simpa [Request.reinitialize] using hleft
  · refine ⟨fun _ => .inr (.inr ?_), fun hm => absurd hm hrun, fun hm => absurd hm hleft⟩
    exact (h.status reqId hlive).toBePreempted htbp

theorem claimed_numScheduled (r : Request) (realToken : Bool) :
    (claimed r realToken).numScheduled = r.numScheduled := by
  cases realToken <;> rfl

theorem claimed_shouldPreempt (r : Request) (realToken : Bool) :
    (claimed r realToken).shouldPreempt = r.shouldPreempt := by
  cases realToken <;> rfl

theorem claimed_status (r : Request) (realToken : Bool) :
    (claimed r realToken).status = r.status := by
  cases realToken <;> rfl

theorem Contained.evict (h : st.Contained inFlight) {reqId : ReqId} {xs : List ReqId}
    (hlast : st.runningScheduled = xs ++ [reqId]) (hsched : reqId ∉ st.scheduled)
    (realToken : Bool) (kv : KVCacheManager) :
    Contained (preempt { st with runningScheduled := xs, kvCacheManager := kv } reqId
      { claimed (st.request reqId) realToken with status := .preempted }) inFlight := by
  have hrun : reqId ∈ st.runningScheduled := by simp [hlast]
  have hlive := h.running_mem hrun
  have hwait := h.running_notMem_waiting hrun
  have htbp := h.running_notMem_toBePreempted hrun
  have hcount := h.count reqId hlive
  simp only [hsched, ite_false] at hcount
  have hnodup := h.running_nodup
  rw [hlast] at hnodup
  have hleft : reqId ∉ xs := fun hmem =>
    (List.nodup_append.mp hnodup).2.2 _ hmem _ (List.mem_singleton_self _) rfl
  have hsub : st.scheduled ⊆ xs := by
    intro q hq
    have hq' := h.scheduled_running hq
    simp only [hlast, List.mem_append, List.mem_singleton] at hq'
    exact hq'.resolve_right (fun heq => hsched (heq ▸ hq))
  unfold preempt
  simp only [claimed_numScheduled]
  split
  case isTrue hflight =>
    change Containers _ inFlight st.scheduled
    refine h.update reqId _ rfl rfl ?_ h.scheduled_nodup hsub ?_ ?_ (fun hm => absurd hm hwait)
      ?_ ?_
    · simp only [places, hlast, List.perm_iff_count]
      intro q
      simp only [setRequest_waiting, setRequest_runningScheduled, List.count_append]
      omega
    · intro q hq
      simp [hq, hlast]
    · simpa [Request.markForPreemption, claimed_numScheduled, hsched] using hcount
    · simp [Request.markForPreemption]
    · exact ⟨fun hm => absurd hm hwait, fun hm => absurd hm hleft, fun _ => rfl⟩
  case isFalse hflight =>
    have hidle : inFlight reqId = 0 := by omega
    change Containers _ inFlight st.scheduled
    refine h.update reqId _ rfl rfl ?_ h.scheduled_nodup hsub ?_ ?_ (fun _ => hidle) ?_ ?_
    · simp only [places, hlast, List.perm_iff_count]
      intro q
      simp only [setRequest_runningScheduled, setRequest_toBePreempted, List.count_append,
        List.count_cons, List.count_nil]
      omega
    · intro q hq
      simp [hq, hlast]
    · simp [Request.reinitialize, hidle, hsched]
    · simpa [Request.reinitialize] using htbp
    · exact ⟨fun _ => .inr (.inr rfl), fun hm => absurd hm hleft, fun hm => absurd hm htbp⟩

theorem Contained.assign (h : st.Contained inFlight) {reqId : ReqId} {n : ℕ}
    {blocks : List BlockId} {kv : KVCacheManager} (hmem : reqId ∈ st.runningScheduled)
    (hsched : reqId ∉ st.scheduled) (realToken : Bool) :
    Contained (assignRunning
      { st.setRequest reqId (claimed (st.request reqId) realToken) with kvCacheManager := kv }
      reqId n blocks realToken) inFlight := by
  have hlive := h.running_mem hmem
  have hcount := h.count reqId hlive
  simp only [hsched, ite_false] at hcount
  have hkeys : scheduled (assignRunning
      { st.setRequest reqId (claimed (st.request reqId) realToken) with kvCacheManager := kv }
      reqId n blocks realToken) = st.scheduled ++ [reqId] :=
    assignRunning_scheduled _ _ _ _ _ hsched
  unfold Contained
  rw [hkeys]
  refine h.update reqId { claimed (st.request reqId) realToken with
    numScheduled := (st.request reqId).numScheduled + 1 } ?_ (by simp) ?_ ?_ ?_ ?_ ?_ ?_ ?_ ?_
  · simp [claimed_numScheduled]
  · simp [places]
  · exact h.scheduled_nodup.append_singleton hsched
  · intro q hq
    simp only [List.mem_append, List.mem_singleton] at hq
    simpa using hq.elim (fun hq => h.scheduled_running hq) (fun hq => hq ▸ hmem)
  · intro q hq
    simp [hq, scheduled]
  · simp [hcount]
  · simpa using fun hm => absurd hm (h.running_notMem_waiting hmem)
  · simpa [claimed_shouldPreempt] using h.marked reqId hlive
  · obtain ⟨hw, hr, ht⟩ := h.status reqId hlive
    simp only [claimed_status]
    exact ⟨by simpa using hw, by simpa using hr, by simpa using ht⟩

/-- A change that leaves the request where it is, with its counter and its mark. -/
theorem Contained.setRequest (h : st.Contained inFlight) {reqId : ReqId} {r : Request}
    (hcount : r.numScheduled = (st.request reqId).numScheduled)
    (hmarked : r.shouldPreempt = (st.request reqId).shouldPreempt)
    (hstatus : reqId ∈ st.requests → st.StatusAt reqId r.status) (hlive : reqId ∈ st.requests) :
    (st.setRequest reqId r).Contained inFlight := by
  change Containers _ inFlight st.scheduled
  refine h.update reqId r rfl rfl (.refl _) h.scheduled_nodup h.scheduled_running
    (fun _ _ => ⟨.rfl, .rfl, .rfl, .rfl⟩) (by rw [hcount]; exact h.count reqId hlive)
    (h.waiting_idle reqId) (by rw [hmarked]; exact h.marked reqId hlive) ?_
  obtain ⟨hw, hr, ht⟩ := hstatus hlive
  exact ⟨hw, hr, ht⟩

theorem Contained.admission (h : st.Contained inFlight) {reqId : ReqId} {xs ys : List ReqId}
    {n numComputedTokens : ℕ} {blocks : List BlockId} {kv : KVCacheManager}
    (hmem : st.waiting = xs ++ reqId :: ys) :
    Contained (admitted { st with kvCacheManager := kv } (xs ++ ys) reqId (st.request reqId)
      numComputedTokens n blocks) inFlight := by
  have hwait : reqId ∈ st.waiting := by simp [hmem]
  have hlive := h.waiting_mem hwait
  have hrun := h.waiting_notMem_running hwait
  have htbp := h.waiting_notMem_toBePreempted hwait
  have hsched : reqId ∉ st.scheduled := h.scheduled_iff_false hrun
  have hidle := h.waiting_idle reqId hwait
  have hcount := h.count reqId hlive
  simp only [hsched, ite_false, hidle] at hcount
  have hnodup := h.waiting_nodup
  rw [hmem] at hnodup
  have hleft : reqId ∉ xs ++ ys := (List.nodup_cons.mp (List.perm_middle.nodup_iff.mp hnodup)).1
  have hkeys : (admitted { st with kvCacheManager := kv } (xs ++ ys) reqId (st.request reqId)
      numComputedTokens n blocks).scheduled = st.scheduled ++ [reqId] :=
    admitted_scheduled _ _ _ _ _ _ _ hsched
  unfold Contained
  rw [hkeys]
  refine h.update reqId { st.request reqId with
    numScheduled := (st.request reqId).numScheduled + 1
    status := .running
    numComputedTokens := numComputedTokens } ?_ rfl ?_ ?_ ?_ ?_ ?_ ?_ ?_ ?_
  · simp
  · simp only [places, hmem, List.perm_iff_count]
    intro q
    simp only [admitted_waiting, admitted_runningScheduled, admitted_toBePreempted,
      List.count_append, List.count_cons, List.count_nil]
    omega
  · exact h.scheduled_nodup.append_singleton hsched
  · intro q hq
    simp only [List.mem_append, List.mem_singleton] at hq
    simpa using hq.imp_left (fun hq => h.scheduled_running hq)
  · intro q hq
    simp [hq, hmem]
  · simp [hidle, hcount]
  · intro hm
    exact absurd hm hleft
  · simpa using h.marked reqId hlive
  · exact ⟨fun hm => absurd hm hleft, fun _ => rfl, fun hm => absurd hm htbp⟩

/-- A change to neither the containers nor what the invariant says of the requests. -/
theorem Contained.congr (h : st.Contained inFlight)
    (hplaces : (st'.waiting, st'.runningScheduled, st'.toBePreempted, st'.requests, st'.scheduled) =
      (st.waiting, st.runningScheduled, st.toBePreempted, st.requests, st.scheduled))
    (hrequest : ∀ q, (st'.request q).numScheduled = (st.request q).numScheduled ∧
      (st'.request q).shouldPreempt = (st.request q).shouldPreempt ∧
      (st'.request q).status = (st.request q).status) : st'.Contained inFlight := by
  simp only [Prod.mk.injEq] at hplaces
  obtain ⟨hw, hr, ht, hreq, hs⟩ := hplaces
  unfold Contained
  rw [hs]
  exact Containers.congr h (by rw [hw, hr, ht, hreq]) (fun q _ => hrequest q)

theorem ready_numScheduled (r : Request) : (ready r).numScheduled = r.numScheduled := by
  unfold ready
  split_ifs <;> rfl

theorem ready_shouldPreempt (r : Request) : (ready r).shouldPreempt = r.shouldPreempt := by
  unfold ready
  split_ifs <;> rfl

theorem DrainMove.contained (hmove : DrainMove st st') (h : st.Contained inFlight) :
    st'.Contained inFlight := by
  cases hmove with
  | drainWait reqId hmem => exact h.drainWait hmem
  | drainReturn reqId xs ys hmem hflight => exact h.drainReturn hmem hflight

theorem RunningMove.contained (hmove : RunningMove cfg st st') (h : st.Contained inFlight) :
    st'.Contained inFlight := by
  cases hmove with
  | allocFail => exact h.congr rfl (fun _ => ⟨rfl, rfl, rfl⟩)
  | evict reqId realToken xs hlast hsched => exact h.evict hlast hsched realToken _
  | assign reqId realToken n blocks kv hmem hsched => exact h.assign hmem hsched realToken
  | drop reqId hmem =>
      exact h.setRequest rfl rfl (fun hlive => h.status reqId hlive) (h.running_mem hmem)

theorem WaitingMove.contained (hmove : WaitingMove cfg st st') (h : st.Contained inFlight) :
    st'.Contained inFlight := by
  cases hmove with
  | markReady reqId hmem =>
      refine h.setRequest (ready_numScheduled _) (ready_shouldPreempt _) ?_ (h.waiting_mem hmem)
      intro hlive
      refine ⟨fun hm => ?_, fun hm => absurd hm (h.waiting_notMem_running hmem),
        fun hm => absurd hm (h.waiting_notMem_toBePreempted hmem)⟩
      have hstatus := (h.status reqId hlive).waiting hm
      unfold ready
      split_ifs with hfsm
      · exact .inl rfl
      · exact hstatus
  | searchCache => exact h.congr rfl (fun _ => ⟨rfl, rfl, rfl⟩)
  | refused => exact h.congr rfl (fun _ => ⟨rfl, rfl, rfl⟩)
  | admission reqId xs ys n numComputedTokens computedBlocks blocks kv₀ kv hmem =>
      exact h.admission hmem

theorem Move.contained (hmove : Move cfg st st') (h : st.Contained inFlight) :
    st'.Contained inFlight := by
  cases hmove with
  | drain hmove => exact hmove.contained h
  | setPassed passed =>
      refine h.congr rfl (fun q => ?_)
      obtain ⟨b, hb⟩ := setConfidencePassed_request st passed q
      rw [hb]
      exact ⟨rfl, rfl, rfl⟩
  | running hmove => exact hmove.contained h
  | waiting hmove => exact hmove.contained h

end Scheduling

end Spexis
