import Spexis.Verification.PrefixCache
import Spexis.Verification.Schedule

/-! # What one call of `schedule` does to one request

A move changes what the scheduler knows of one request only. The moves of a whole call, seen from
one request, leave it where it is, launch it, drop it, preempt it or admit it. -/

namespace Spexis

open Python Relation

/-- What the scheduler knows of one request in the middle of a call. -/
structure View where
  request : Request
  waiting : Bool
  running : Bool
  draining : Bool
  /-- The tokens it is given in this batch. -/
  given : Option ℕ
  /-- Is its part of the output one for a request that the workers know? -/
  cached : Bool

namespace View

/-- The request leaves the running list. -/
def preempt (v : View) (r : Request) : View :=
  if 0 < r.numScheduled then
    { v with request := r.markForPreemption, running := false, draining := true }
  else
    { v with request := r.markForPreemption.reinitialize, running := false, waiting := true }

/-- A pass over a preempted request. -/
def drain (v : View) : View :=
  if 0 < v.request.numScheduled then { v with request := v.request.markForPreemption }
  else
    { v with
      request := v.request.markForPreemption.reinitialize
      draining := false
      waiting := true }

/-- The running loop comes to the request. -/
inductive RunningMove (cfg : Config) (v : View) : View → Prop where
  | drop (hrunning : v.running = true) (hnone : v.given = none)
      (hcandidate : v.request.isDropCandidate = true) :
      RunningMove cfg v
        { v with request := { v.request with
            confidenceDropped := true
            dropLen := v.request.spLen } }
  | launch (realToken : Bool) (n tokenBudget : ℕ) (hrunning : v.running = true)
      (hnone : v.given = none) (heligible : Scheduling.Eligible cfg v.request realToken)
      (hn : (n : ℤ) = Scheduling.requestedTokens cfg v.request realToken tokenBudget)
      (hpos : 0 < n) :
      RunningMove cfg v
        { v with
          request := { Scheduling.claimed v.request realToken with
            numScheduled := v.request.numScheduled + 1 }
          given := some n
          cached := true }
  | evict (realToken : Bool) (hrunning : v.running = true) (hnone : v.given = none)
      (hclaim : realToken = true → Scheduling.Eligible cfg v.request true) :
      RunningMove cfg v
        (v.preempt { Scheduling.claimed v.request realToken with status := .preempted })

/-- The waiting loop comes to the request. -/
inductive WaitingMove (cfg : Config) (v : View) : View → Prop where
  | markReady (hwaiting : v.waiting = true) :
      WaitingMove cfg v { v with request := Scheduling.ready v.request }
  | admission (n tokenBudget : ℕ) (hwaiting : v.waiting = true)
      (hstatus : v.request.status = .waiting ∨ v.request.status = .preempted)
      (hn : (n : ℤ) = Scheduling.capNewTokens cfg v.request.numTokens tokenBudget)
      (hpos : 0 < n) :
      WaitingMove cfg v
        { v with
          request := { v.request with
            numScheduled := v.request.numScheduled + 1
            status := .running
            numComputedTokens := 0 }
          waiting := false
          running := true
          given := some n
          cached := v.cached || v.request.status = .preempted }

theorem RunningMove.running {cfg : Config} {v v' : View} (h : RunningMove cfg v v') :
    v.running = true := by
  cases h <;> assumption

theorem WaitingMove.waiting {cfg : Config} {v v' : View} (h : WaitingMove cfg v v') :
    v.waiting = true := by
  cases h <;> assumption

/-- What the running loop does with a request. -/
inductive RunningTurn (cfg : Config) (v : View) : View → Prop where
  | kept : RunningTurn cfg v v
  | dropped (hrunning : v.running = true) (hcandidate : v.request.isDropCandidate = true) :
      RunningTurn cfg v
        { v with request := { v.request with
            confidenceDropped := true
            dropLen := v.request.spLen } }
  | launched (realToken : Bool) (n tokenBudget : ℕ) (hrunning : v.running = true)
      (heligible : Scheduling.Eligible cfg v.request realToken)
      (hn : (n : ℤ) = Scheduling.requestedTokens cfg v.request realToken tokenBudget)
      (hpos : 0 < n) :
      RunningTurn cfg v
        { v with
          request := { Scheduling.claimed v.request realToken with
            numScheduled := v.request.numScheduled + 1 }
          given := some n
          cached := true }
  | evicted (r : Request) (hrunning : v.running = true)
      (hr : (∃ realToken, r = Scheduling.claimed v.request realToken) ∨
        v.request.isDropCandidate = true ∧
          r = { v.request with confidenceDropped := true, dropLen := v.request.spLen }) :
      RunningTurn cfg v (v.preempt { r with status := .preempted })

theorem preempt_running (v : View) (r : Request) : (v.preempt r).running = false := by
  unfold preempt
  split <;> rfl

/-- A dropped request is not scheduled in the same call. -/
theorem not_eligible_of_candidate {cfg : Config} {r : Request} (h : r.isDropCandidate = true)
    (realToken : Bool) :
    ¬ Scheduling.Eligible cfg { r with confidenceDropped := true, dropLen := r.spLen }
      realToken := by
  simp only [Request.isDropCandidate, decide_eq_true_eq] at h
  intro heligible
  cases realToken with
  | true => exact h.2.1 heligible.2
  | false => cases heligible.2.2.1

theorem RunningMove.turn {cfg : Config} {v v₁ v₂ : View}
    (hturn : RunningTurn cfg v v₁) (hmove : RunningMove cfg v₁ v₂) : RunningTurn cfg v v₂ := by
  cases hturn with
  | kept =>
      cases hmove with
      | drop hrunning _ hcandidate => exact .dropped hrunning hcandidate
      | launch realToken n tokenBudget hrunning _ heligible hn hpos =>
          exact .launched realToken n tokenBudget hrunning heligible hn hpos
      | evict realToken hrunning => exact .evicted _ hrunning (.inl ⟨realToken, rfl⟩)
  | dropped hrunning hcandidate =>
      cases hmove with
      | drop _ _ hagain => simp [Request.isDropCandidate] at hagain
      | launch realToken _ _ _ _ heligible =>
          exact absurd heligible (not_eligible_of_candidate hcandidate realToken)
      | evict realToken _ _ hclaim =>
          cases realToken with
          | true => exact absurd (hclaim rfl) (not_eligible_of_candidate hcandidate true)
          | false => exact .evicted _ hrunning (.inr ⟨hcandidate, rfl⟩)
  | launched => cases hmove <;> contradiction
  | evicted r =>
      have hgone := preempt_running v { r with status := .preempted }
      cases hmove <;> simp_all

/-- What the waiting loop does with a request. -/
inductive WaitingTurn (cfg : Config) (v : View) : View → Prop where
  | waits (r : Request) (hr : r = v.request ∨ r = Scheduling.ready v.request) :
      WaitingTurn cfg v { v with request := r }
  | admitted (r : Request) (n tokenBudget : ℕ)
      (hr : r = v.request ∨ r = Scheduling.ready v.request)
      (hstatus : r.status = .waiting ∨ r.status = .preempted)
      (hn : (n : ℤ) = Scheduling.capNewTokens cfg r.numTokens tokenBudget) (hpos : 0 < n) :
      WaitingTurn cfg v
        { v with
          request := { r with
            numScheduled := r.numScheduled + 1
            status := .running
            numComputedTokens := 0 }
          waiting := false
          running := true
          given := some n
          cached := v.cached || r.status = .preempted }

theorem ready_ready (r : Request) :
    Scheduling.ready (Scheduling.ready r) = Scheduling.ready r := by
  unfold Scheduling.ready
  split_ifs <;> simp_all

theorem WaitingMove.turn {cfg : Config} {v v₁ v₂ : View}
    (hturn : WaitingTurn cfg v v₁) (hmove : WaitingMove cfg v₁ v₂) : WaitingTurn cfg v v₂ := by
  cases hturn with
  | waits r hr =>
      have hready : Scheduling.ready r = Scheduling.ready v.request := by
        rcases hr with rfl | rfl
        · rfl
        · exact ready_ready _
      cases hmove with
      | markReady => exact .waits _ (.inr hready)
      | admission n tokenBudget _ hstatus hn hpos =>
          exact .admitted r n tokenBudget hr hstatus hn hpos
  | admitted => cases hmove <;> contradiction

/-- What a whole call does with a request. -/
inductive Turn (cfg : Config) (v : View) : View → Prop where
  | away (hwaiting : v.waiting = false) (hrunning : v.running = false)
      (hdraining : v.draining = false) : Turn cfg v v
  | drained (hdraining : v.draining = true) : Turn cfg v v.drain
  | runs (passed : Bool) (v' : View) (hrunning : v.running = true)
      (hturn : RunningTurn cfg { v with request := { v.request with
        confidencePassed := passed } } v') : Turn cfg v v'
  | waits (v' : View) (hwaiting : v.waiting = true) (hturn : WaitingTurn cfg v v') : Turn cfg v v'

end View

namespace Scheduling

variable {cfg : Config} {st st' : Scheduling} {inFlight : ReqId → ℕ} {q : ReqId}

def view (st : Scheduling) (q : ReqId) : View where
  request := st.request q
  waiting := q ∈ st.waiting
  running := q ∈ st.runningScheduled
  draining := q ∈ st.toBePreempted
  given := dictGet? st.numScheduledTokens q
  cached := q ∈ st.cachedReqs

theorem view_eq {v : View} (hrequest : st.request q = v.request)
    (hwaiting : q ∈ st.waiting ↔ v.waiting = true)
    (hrunning : q ∈ st.runningScheduled ↔ v.running = true)
    (hdraining : q ∈ st.toBePreempted ↔ v.draining = true)
    (hgiven : dictGet? st.numScheduledTokens q = v.given)
    (hcached : q ∈ st.cachedReqs ↔ v.cached = true) : st.view q = v := by
  have hdecide : ∀ {p : Prop} [Decidable p] {b : Bool}, (p ↔ b = true) → decide p = b :=
    fun h => Bool.eq_iff_iff.mpr (decide_eq_true_iff.trans h)
  obtain ⟨request, waiting, running, draining, given, cached⟩ := v
  simp only [view, hrequest, hgiven, View.mk.injEq, true_and]
  exact ⟨hdecide hwaiting, hdecide hrunning, hdecide hdraining, hdecide hcached⟩

theorem view_congr (hrequest : st'.request q = st.request q)
    (hwaiting : q ∈ st'.waiting ↔ q ∈ st.waiting)
    (hrunning : q ∈ st'.runningScheduled ↔ q ∈ st.runningScheduled)
    (hdraining : q ∈ st'.toBePreempted ↔ q ∈ st.toBePreempted)
    (hgiven : dictGet? st'.numScheduledTokens q = dictGet? st.numScheduledTokens q)
    (hcached : q ∈ st'.cachedReqs ↔ q ∈ st.cachedReqs) : st'.view q = st.view q :=
  view_eq hrequest (by simpa [view] using hwaiting) (by simpa [view] using hrunning)
    (by simpa [view] using hdraining) hgiven (by simpa [view] using hcached)

theorem given_eq_none : (st.view q).given = none ↔ q ∉ st.scheduled :=
  dictGet?_eq_none

theorem preempt_waiting (st : Scheduling) (reqId : ReqId) (r : Request) :
    (preempt st reqId r).waiting =
      if 0 < r.numScheduled then st.waiting else reqId :: st.waiting := by
  unfold preempt
  split <;> rfl

theorem preempt_toBePreempted (st : Scheduling) (reqId : ReqId) (r : Request) :
    (preempt st reqId r).toBePreempted =
      if 0 < r.numScheduled then st.toBePreempted ++ [reqId] else st.toBePreempted := by
  unfold preempt
  split <;> rfl

theorem preempt_cachedReqs (st : Scheduling) (reqId : ReqId) (r : Request) :
    (preempt st reqId r).cachedReqs = st.cachedReqs := by
  unfold preempt
  split <;> rfl

theorem preempt_request_self (st : Scheduling) (reqId : ReqId) (r : Request) :
    (preempt st reqId r).request reqId =
      if 0 < r.numScheduled then r.markForPreemption else r.markForPreemption.reinitialize := by
  unfold preempt
  split <;> simp

theorem assignRunning_cachedReqs (st : Scheduling) (reqId : ReqId) (n : ℕ) (blocks : List BlockId)
    (realToken : Bool) (q : ReqId) :
    q ∈ (assignRunning st reqId n blocks realToken).cachedReqs ↔ q ∈ st.cachedReqs ∨ q = reqId := by
  cases realToken <;>
    simp only [assignRunning, assignFlushed, assignSp, assign, cachedReqs, setRequest,
      List.mem_append, List.mem_singleton] <;> tauto

/-- A move in the running loop is a move of one running request. -/
theorem RunningMove.view (hmove : RunningMove cfg st st') (h : st.Contained inFlight) (q : ReqId) :
    st'.view q = st.view q ∨ View.RunningMove cfg (st.view q) (st'.view q) := by
  cases hmove with
  | allocFail => exact .inl rfl
  | evict reqId realToken xs hlast hsched hclaim =>
      by_cases hq : q = reqId
      · subst hq
        right
        have hrunning : q ∈ st.runningScheduled := by simp [hlast]
        have hxs : q ∉ xs := by
          have hnodup := h.running_nodup
          rw [hlast, List.nodup_append] at hnodup
          exact fun hmem => hnodup.2.2 q hmem q (by simp) rfl
        have hnotWaiting := h.running_notMem_waiting hrunning
        have hnotDraining := h.running_notMem_toBePreempted hrunning
        have heq : Scheduling.view _ q = (st.view q).preempt
            { claimed (st.request q) realToken with status := .preempted } :=
          @view_eq (preempt { st with
            runningScheduled := xs
            kvCacheManager := st.kvCacheManager.free cfg.kvCache q } q
              { claimed (st.request q) realToken with status := .preempted }) q _
            ?_ ?_ ?_ ?_ ?_ ?_
        · rw [heq]
          exact .evict realToken (by simpa [Scheduling.view]) (given_eq_none.mpr hsched) hclaim
        · rw [preempt_request_self]
          unfold View.preempt
          split <;> rfl
        · rw [preempt_waiting]
          unfold View.preempt
          split <;> simp [Scheduling.view, hnotWaiting]
        · rw [preempt_runningScheduled]
          unfold View.preempt
          split <;> simp [hxs]
        · rw [preempt_toBePreempted]
          unfold View.preempt
          split <;> simp [Scheduling.view, hnotDraining]
        · rw [preempt_numScheduledTokens]
          unfold View.preempt
          split <;> rfl
        · rw [preempt_cachedReqs]
          unfold View.preempt
          split <;> simp [Scheduling.view, cachedReqs]
      · left
        refine view_congr ?_ ?_ ?_ ?_ ?_ ?_
        · exact preempt_request_of_ne hq _ _
        · rw [preempt_waiting]
          split <;> simp [hq]
        · simp [hlast, hq]
        · rw [preempt_toBePreempted]
          split <;> simp [hq]
        · rw [preempt_numScheduledTokens]
        · rw [preempt_cachedReqs]
          rfl
  | assign reqId realToken n blocks kv hmem hsched heligible hn hpos halloc =>
      by_cases hq : q = reqId
      · subst hq
        right
        have heq : Scheduling.view (assignRunning
              { st.setRequest q (claimed (st.request q) realToken) with kvCacheManager := kv }
              q n blocks realToken) q =
            { st.view q with
              request := { claimed (st.view q).request realToken with
                numScheduled := (st.view q).request.numScheduled + 1 }
              given := some n
              cached := true } := by
          refine view_eq ?_ ?_ ?_ ?_ ?_ ?_
          · simp [Scheduling.view, claimed_numScheduled]
          · simp [Scheduling.view]
          · simp [Scheduling.view]
          · simp [Scheduling.view]
          · rw [assignRunning_numScheduledTokens]
            exact dictGet?_dictSet_self hsched
          · simp [assignRunning_cachedReqs]
        rw [heq]
        exact .launch realToken n st.tokenBudget (by simpa [Scheduling.view])
          (given_eq_none.mpr hsched) heligible hn hpos
      · left
        refine view_congr ?_ ?_ ?_ ?_ ?_ ?_
        · simp [Function.update_of_ne hq]
        · simp
        · simp
        · simp
        · rw [assignRunning_numScheduledTokens]
          exact dictGet?_dictSet_of_ne hsched hq
        · rw [assignRunning_cachedReqs]
          simp [cachedReqs, hq, setRequest]
  | drop reqId hmem hsched hcandidate hpassed =>
      by_cases hq : q = reqId
      · subst hq
        right
        have heq : Scheduling.view (st.setRequest q { st.request q with
              confidenceDropped := true
              dropLen := (st.request q).spLen }) q =
            { st.view q with request := { (st.view q).request with
                confidenceDropped := true
                dropLen := (st.view q).request.spLen } } :=
          view_eq (by simp [Scheduling.view]) (by simp [Scheduling.view])
            (by simp [Scheduling.view]) (by simp [Scheduling.view]) (by simp [Scheduling.view])
            (by simp [Scheduling.view, cachedReqs, setRequest])
        rw [heq]
        exact .drop (by simpa [Scheduling.view]) (given_eq_none.mpr hsched) hcandidate
      · left
        refine view_congr ?_ ?_ ?_ ?_ ?_ ?_
        · simp [Function.update_of_ne hq]
        all_goals simp [cachedReqs, setRequest]

/-- A move in the waiting loop is a move of one waiting request. Nothing is found in the cache. -/
theorem WaitingMove.view (hmove : WaitingMove cfg st st') (h : st.Contained inFlight)
    (hhash : st.kvCacheManager.blockPool.Unhashed) (q : ReqId) :
    st'.view q = st.view q ∨ View.WaitingMove cfg (st.view q) (st'.view q) := by
  cases hmove with
  | markReady reqId hmem =>
      by_cases hq : q = reqId
      · subst hq
        right
        have heq : Scheduling.view (st.setRequest q (ready (st.request q))) q =
            { st.view q with request := ready (st.view q).request } :=
          view_eq (by simp [Scheduling.view]) (by simp [Scheduling.view])
            (by simp [Scheduling.view]) (by simp [Scheduling.view]) (by simp [Scheduling.view])
            (by simp [Scheduling.view, cachedReqs, setRequest])
        rw [heq]
        exact .markReady (by simpa [Scheduling.view])
      · left
        refine view_congr ?_ ?_ ?_ ?_ ?_ ?_
        · simp [Function.update_of_ne hq]
        all_goals simp [cachedReqs, setRequest]
  | searchCache => exact .inl rfl
  | refused => exact .inl rfl
  | admission reqId xs ys n numComputedTokens computedBlocks blocks kv₀ kv hmem hnone hroom hstatus
      hsearch hn hpos halloc =>
      have hwaiting : reqId ∈ st.waiting := by simp [hmem]
      have hsched : reqId ∉ st.scheduled :=
        h.scheduled_iff_false (h.waiting_notMem_running hwaiting)
      have hnotMem : reqId ∉ xs ++ ys := by
        have hnodup := h.waiting_nodup
        rw [hmem, List.nodup_middle] at hnodup
        exact (List.nodup_cons.mp hnodup).1
      have hpool := (KVCacheManager.getComputedBlocks_frame hsearch).1
      have hnil := KVCacheManager.getComputedBlocks_eq_nil (hpool ▸ hhash) hsearch
      obtain ⟨rfl, rfl⟩ := Prod.mk.inj hnil
      by_cases hq : q = reqId
      · subst hq
        right
        have heq : Scheduling.view (admitted { st with kvCacheManager := kv } (xs ++ ys) q
              (st.request q) 0 n ([] ++ blocks)) q =
            { st.view q with
              request := { (st.view q).request with
                numScheduled := (st.view q).request.numScheduled + 1
                status := .running
                numComputedTokens := 0 }
              waiting := false
              running := true
              given := some n
              cached := (st.view q).cached || (st.view q).request.status = .preempted } := by
          refine view_eq ?_ ?_ ?_ ?_ ?_ ?_
          · simp [Scheduling.view]
          · simpa using hnotMem
          · simp
          · simp [Scheduling.view]
          · exact dictGet?_dictSet_self hsched
          · by_cases hpre : (st.request q).status = .preempted <;>
              simp [Scheduling.view, cachedReqs, admitted, hpre, assign, setRequest]
        rw [heq]
        refine .admission n st.tokenBudget (by simpa [Scheduling.view]) hstatus ?_ hpos
        simpa [Scheduling.view] using hn
      · left
        refine view_congr ?_ ?_ ?_ ?_ ?_ ?_
        · simp [Function.update_of_ne hq]
        · simp [hmem, hq]
        · simp [hq]
        · simp
        · exact dictGet?_dictSet_of_ne hsched hq
        · by_cases hpre : (st.request reqId).status = .preempted <;>
            simp [cachedReqs, admitted, hpre, assign, setRequest, hq]

/-! ## Draining -/

/-- Does a request have a batch in flight? -/
abbrev flying (st : Scheduling) (reqId : ReqId) : Bool :=
  0 < (st.request reqId).numScheduled

theorem drainPreempted_cons (reqId : ReqId) (rest : List ReqId) (st : Scheduling) :
    drainPreempted (reqId :: rest) st =
      if st.flying reqId then
        let result := drainPreempted rest
          { st.setRequest reqId (st.request reqId).markForPreemption with
            preemptedReqs := st.preemptedReqs ++ [reqId] }
        (reqId :: result.1, result.2)
      else
        drainPreempted rest
          { st.setRequest reqId (st.request reqId).markForPreemption.reinitialize with
            waiting := reqId :: st.waiting
            preemptedReqs := st.preemptedReqs ++ [reqId] } := by
  by_cases hflight : 0 < (st.request reqId).numScheduled <;>
    simp [drainPreempted, Scheduler.preemptRequest, flying, hflight, setRequest]

/-- The draining requests with batches in flight go on draining, the others go back to the head of
the waiting queue, the last one first. -/
theorem drainPreempted_eq {rest : List ReqId} (hnodup : rest.Nodup) (st : Scheduling) :
    (drainPreempted rest st).1 = rest.filter st.flying ∧
      (drainPreempted rest st).2.waiting =
        (rest.filter (! st.flying ·)).reverse ++ st.waiting ∧
      (drainPreempted rest st).2.preemptedReqs = st.preemptedReqs ++ rest := by
  induction rest generalizing st with
  | nil => simp [drainPreempted]
  | cons reqId rest ih =>
      obtain ⟨hnotMem, hnodup⟩ := List.nodup_cons.mp hnodup
      have hsame : ∀ r q, q ∈ rest → (st.setRequest reqId r).flying q = st.flying q := by
        intro r q hq
        have hne : q ≠ reqId := fun heq => hnotMem (heq ▸ hq)
        simp [flying, Function.update_of_ne hne]
      rw [drainPreempted_cons]
      split_ifs with hflight
      · obtain ⟨hkept, hwaiting, hpreempted⟩ := ih hnodup
          { st.setRequest reqId (st.request reqId).markForPreemption with
            preemptedReqs := st.preemptedReqs ++ [reqId] }
        have hfilter := List.filter_congr (hsame (st.request reqId).markForPreemption)
        have hfilter' : rest.filter (fun q => ! (st.setRequest reqId
            (st.request reqId).markForPreemption).flying q) = rest.filter (! st.flying ·) :=
          List.filter_congr (fun q hq => by rw [hsame _ q hq])
        refine ⟨?_, ?_, ?_⟩
        · rw [List.filter_cons_of_pos hflight, ← hfilter]
          exact congrArg _ hkept
        · rw [List.filter_cons_of_neg (by simp [hflight]), ← hfilter']
          exact hwaiting
        · exact hpreempted.trans (List.append_assoc _ _ _)
      · obtain ⟨hkept, hwaiting, hpreempted⟩ := ih hnodup
          { st.setRequest reqId (st.request reqId).markForPreemption.reinitialize with
            waiting := reqId :: st.waiting
            preemptedReqs := st.preemptedReqs ++ [reqId] }
        have hfilter := List.filter_congr (hsame (st.request reqId).markForPreemption.reinitialize)
        have hfilter' : rest.filter (fun q => ! (st.setRequest reqId
            (st.request reqId).markForPreemption.reinitialize).flying q) =
              rest.filter (! st.flying ·) :=
          List.filter_congr (fun q hq => by rw [hsame _ q hq])
        refine ⟨?_, ?_, ?_⟩
        · rw [List.filter_cons_of_neg hflight, ← hfilter]
          exact hkept
        · rw [List.filter_cons_of_pos (by simpa using hflight), ← hfilter', List.reverse_cons,
            List.append_assoc]
          exact hwaiting
        · exact hpreempted.trans (List.append_assoc _ _ _)

theorem drainPreempted_request {rest : List ReqId} (hnodup : rest.Nodup) (st : Scheduling)
    (q : ReqId) :
    (drainPreempted rest st).2.request q =
      if q ∈ rest then
        if st.flying q then (st.request q).markForPreemption
        else (st.request q).markForPreemption.reinitialize
      else st.request q := by
  induction rest generalizing st with
  | nil => rfl
  | cons reqId rest ih =>
      obtain ⟨hnotMem, hrest⟩ := List.nodup_cons.mp hnodup
      rw [drainPreempted_cons]
      by_cases hflight : st.flying reqId = true
      · rw [if_pos hflight]
        change (drainPreempted rest _).2.request q = _
        rw [ih hrest]
        by_cases hq : q = reqId
        · subst hq
          simp [hnotMem, hflight]
        · simp [flying, hq]
      · rw [if_neg hflight, ih hrest]
        by_cases hq : q = reqId
        · subst hq
          simp [hnotMem, hflight]
        · simp [flying, hq]

theorem drainPreempted_cachedReqs (rest : List ReqId) (st : Scheduling) :
    (drainPreempted rest st).2.cachedReqs = st.cachedReqs := by
  induction rest generalizing st with
  | nil => rfl
  | cons reqId rest ih =>
      rw [drainPreempted_cons]
      split_ifs <;> exact ih _

/-- The first pass concerns exactly the draining requests. -/
theorem drainPass_view (h : st.Contained inFlight) (q : ReqId) :
    st.drainPass.view q = if q ∈ st.toBePreempted then (st.view q).drain else st.view q := by
  obtain ⟨hkept, hwaiting, -⟩ := drainPreempted_eq h.toBePreempted_nodup st
  obtain ⟨hrunning, hscheduled⟩ := drainPreempted_frame st.toBePreempted st
  have hrequest := drainPreempted_request h.toBePreempted_nodup st q
  have hcached := drainPreempted_cachedReqs st.toBePreempted st
  have hwaiting' : q ∈ st.drainPass.waiting ↔
      q ∈ st.toBePreempted ∧ ¬ 0 < (st.request q).numScheduled ∨ q ∈ st.waiting := by
    change q ∈ (drainPreempted st.toBePreempted st).2.waiting ↔ _
    rw [hwaiting]
    simp [flying]
  have hdraining' : q ∈ st.drainPass.toBePreempted ↔
      q ∈ st.toBePreempted ∧ 0 < (st.request q).numScheduled := by
    change q ∈ (drainPreempted st.toBePreempted st).1 ↔ _
    rw [hkept]
    simp [flying]
  by_cases hmem : q ∈ st.toBePreempted
  · have hnot := h.toBePreempted_notMem_waiting hmem
    rw [if_pos hmem, View.drain]
    by_cases hflight : 0 < (st.request q).numScheduled
    · rw [if_pos (show 0 < (st.view q).request.numScheduled from hflight)]
      refine view_eq ?_ ?_ ?_ ?_ ?_ ?_
      · exact hrequest.trans (by simp [hmem, flying, hflight, view])
      · simp [hwaiting', hmem, hflight, view]
      · exact (by simp [view, drainPass, hrunning])
      · simp [hdraining', hmem, hflight, view]
      · exact congrArg (dictGet? · q) hscheduled
      · change q ∈ (drainPreempted st.toBePreempted st).2.cachedReqs ↔ _
        rw [hcached]
        simp [view]
    · rw [if_neg (show ¬ 0 < (st.view q).request.numScheduled from hflight)]
      refine view_eq ?_ ?_ ?_ ?_ ?_ ?_
      · exact hrequest.trans (by simp [hmem, flying, hflight, view])
      · simp [hwaiting', hmem, hflight]
      · exact (by simp [view, drainPass, hrunning])
      · simp [hdraining', hflight]
      · exact congrArg (dictGet? · q) hscheduled
      · change q ∈ (drainPreempted st.toBePreempted st).2.cachedReqs ↔ _
        rw [hcached]
        simp [view]
  · rw [if_neg hmem]
    refine view_congr ?_ ?_ ?_ ?_ ?_ ?_
    · exact hrequest.trans (if_neg hmem)
    · simp [hwaiting', hmem]
    · exact (by simp [drainPass, hrunning])
    · simp [hdraining', hmem]
    · exact congrArg (dictGet? · q) hscheduled
    · change q ∈ (drainPreempted st.toBePreempted st).2.cachedReqs ↔ _
      rw [hcached]

theorem confidencePass_view {maxDroppedConfidence : ℚ} (q : ReqId)
    (h : st.confidencePass cfg = .ok (st', maxDroppedConfidence)) :
    (∃ passed, st'.view q =
      { st.view q with request := { (st.view q).request with confidencePassed := passed } }) ∧
    (q ∉ st.runningScheduled → st'.view q = st.view q) ∧
    st'.preemptedReqs = st.preemptedReqs ∧ st'.kvCacheManager = st.kvCacheManager := by
  unfold confidencePass at h
  split_ifs at h
  · simp only [bind_eq_ok, pure_eq_ok, Prod.exists, Prod.mk.injEq] at h
    obtain ⟨passed, _, -, rfl, -⟩ := h
    obtain ⟨b, hb⟩ := setConfidencePassed_request st passed q
    refine ⟨⟨b, ?_⟩, fun hq => ?_, rfl, rfl⟩
    · simp only [view, hb]
      rfl
    · exact view_congr (if_neg hq) .rfl .rfl .rfl rfl .rfl
  · cases h
    exact ⟨⟨(st.view q).request.confidencePassed, rfl⟩, fun _ => rfl, rfl, rfl⟩

theorem RunningMoves.turn (hmoves : RunningMoves cfg st st') (h : st.Contained inFlight)
    (q : ReqId) : View.RunningTurn cfg (st.view q) (st'.view q) := by
  induction hmoves with
  | refl => exact .kept
  | tail hmoves hmove ih =>
      have hcont := Scheduler.moves_contained (RunningMoves.moves hmoves) h
      rcases hmove.view hcont q with hsame | hlocal
      · rwa [hsame]
      · exact hlocal.turn ih

/-- No move caches a block. -/
theorem Move.unhashed (hmove : Move cfg st st') (hhash : st.kvCacheManager.blockPool.Unhashed) :
    st'.kvCacheManager.blockPool.Unhashed := by
  cases hmove with
  | drain hmove => cases hmove <;> exact hhash
  | setPassed => exact hhash
  | running hmove =>
      cases hmove with
      | allocFail reqId n kv hmem hsched halloc =>
          exact KVCacheManager.allocateSlots_unhashed hhash halloc
      | evict =>
          rw [preempt_kvCacheManager]
          exact KVCacheManager.free_unhashed hhash
      | assign reqId realToken n blocks kv hmem hsched heligible hn hpos halloc =>
          rw [assignRunning_kvCacheManager]
          exact KVCacheManager.allocateSlots_unhashed hhash halloc
      | drop => exact hhash
  | waiting hmove =>
      cases hmove with
      | markReady => exact hhash
      | searchCache reqId result kv hmem hsearch =>
          exact (KVCacheManager.getComputedBlocks_frame hsearch).1 ▸ hhash
      | refused reqId n computedBlocks kv hmem halloc =>
          exact KVCacheManager.allocateSlots_unhashed hhash halloc
      | admission _ _ _ _ _ _ _ _ _ _ _ _ _ _ _ _ halloc =>
          exact KVCacheManager.allocateSlots_unhashed hhash halloc

theorem moves_unhashed (hmoves : Moves cfg st st') (hhash : st.kvCacheManager.blockPool.Unhashed) :
    st'.kvCacheManager.blockPool.Unhashed := by
  induction hmoves with
  | refl => exact hhash
  | tail _ hmove ih => exact hmove.unhashed ih

theorem WaitingMoves.turn (hmoves : WaitingMoves cfg st st') (h : st.Contained inFlight)
    (hhash : st.kvCacheManager.blockPool.Unhashed) (q : ReqId) :
    View.WaitingTurn cfg (st.view q) (st'.view q) := by
  induction hmoves with
  | refl => exact .waits _ (.inl rfl)
  | tail hmoves hmove ih =>
      have hcont := Scheduler.moves_contained (WaitingMoves.moves hmoves) h
      rcases hmove.view hcont (moves_unhashed (WaitingMoves.moves hmoves) hhash) q with hsame | hlocal
      · rwa [hsame]
      · exact hlocal.turn ih

/-- A request that does not wait takes no part in the waiting loop. -/
theorem WaitingMoves.view_of_not_waiting (hmoves : WaitingMoves cfg st st')
    (h : st.Contained inFlight) (hhash : st.kvCacheManager.blockPool.Unhashed)
    (hq : (st.view q).waiting = false) : st'.view q = st.view q := by
  induction hmoves with
  | refl => rfl
  | tail hmoves hmove ih =>
      have hcont := Scheduler.moves_contained (WaitingMoves.moves hmoves) h
      rcases hmove.view hcont (moves_unhashed (WaitingMoves.moves hmoves) hhash) q with hsame | hlocal
      · exact hsame.trans ih
      · have hwaiting := hlocal.waiting
        rw [ih, hq] at hwaiting
        cases hwaiting

theorem RunningMoves.view_of_not_running (hmoves : RunningMoves cfg st st')
    (h : st.Contained inFlight) (hq : (st.view q).running = false) : st'.view q = st.view q := by
  induction hmoves with
  | refl => rfl
  | tail hmoves hmove ih =>
      have hcont := Scheduler.moves_contained (RunningMoves.moves hmoves) h
      rcases hmove.view hcont q with hsame | hlocal
      · exact hsame.trans ih
      · have hrunning := hlocal.running
        rw [ih, hq] at hrunning
        cases hrunning

/-- An iteration that evicts a request has preempted one. -/
theorem RunningMoves.preempted (hmoves : RunningMoves cfg st st') :
    (st.preemptedReqs ≠ [] → st'.preemptedReqs ≠ []) ∧
      (q ∈ st.runningScheduled → q ∉ st'.runningScheduled → st'.preemptedReqs ≠ []) := by
  induction hmoves with
  | refl => exact ⟨id, fun hmem hnot => absurd hmem hnot⟩
  | @tail st₁ st₂ _ hmove ih =>
      have hgrows : st₁.preemptedReqs ≠ [] → st₂.preemptedReqs ≠ [] := by
        cases hmove with
        | evict =>
            intro _
            unfold preempt
            split <;> simp
        | assign _ realToken => cases realToken <;> exact id
        | _ => exact id
      refine ⟨fun h => hgrows (ih.1 h), fun hmem hnot => ?_⟩
      by_cases hmid : q ∈ st₁.runningScheduled
      · cases hmove with
        | evict =>
            unfold preempt
            split <;> simp
        | assign _ realToken => cases realToken <;> exact absurd hmid hnot
        | _ => exact absurd hmid hnot
      · exact hgrows (ih.2 hmem hmid)

/-- What a call of `schedule` does with each request. -/
theorem selectRequests_turn {maxDroppedConfidence : ℚ} (h : st.Contained inFlight)
    (hhash : st.kvCacheManager.blockPool.Unhashed) (hnone : st.numScheduledTokens = [])
    (hselect : selectRequests cfg st = .ok (st', maxDroppedConfidence)) (q : ReqId) :
    View.Turn cfg (st.view q) (st'.view q) := by
  simp only [selectRequests, bind_eq_ok, pure_eq_ok, Prod.exists, Prod.mk.injEq] at hselect
  obtain ⟨st₁, _, hpassed, st₂, hrun, estimate, -, st₃, hwait, rfl, -⟩ := hselect
  have hdrain : Moves cfg st st.drainPass := drainPreempted_moves [] st.toBePreempted st
  have hcont₀ : st.drainPass.Contained inFlight := Scheduler.moves_contained hdrain h
  have hhash₀ := moves_unhashed hdrain hhash
  obtain ⟨hpass, hrunning₁, hscheduled₁⟩ := confidencePass_moves hpassed
  have hcont₁ : st₁.Contained inFlight := Scheduler.moves_contained hpass hcont₀
  have hhash₁ := moves_unhashed hpass hhash₀
  obtain ⟨hrunning, hscheduled⟩ := drainPreempted_frame st.toBePreempted st
  obtain ⟨-, -, hpreempted⟩ := drainPreempted_eq h.toBePreempted_nodup st
  obtain ⟨⟨passed, hview₁⟩, hview₁', hpreempted₁, -⟩ := confidencePass_view q hpassed
  have hnone₁ : st₁.numScheduledTokens = [] := (hscheduled₁.trans hscheduled).trans hnone
  have hmoves := runningLoop_moves hcont₁.running_nodup (by simp [scheduled, hnone₁]) hrun
  have hcont₂ := Scheduler.moves_contained (RunningMoves.moves hmoves) hcont₁
  have hhash₂ := moves_unhashed (RunningMoves.moves hmoves) hhash₁
  have hwaits := waitingPass_moves hwait
  obtain ⟨hpreempted₂, hevicted⟩ := RunningMoves.preempted (q := q) hmoves
  -- an iteration that preempts admits nobody
  have hidle : st₂.preemptedReqs ≠ [] → st₃ = st₂ := by
    intro hne
    rw [waitingPass, if_neg (fun hgo => hne hgo.1)] at hwait
    exact (Except.ok.inj hwait).symm
  have hdrained := drainPass_view h q
  have hnotRunning : q ∉ st.runningScheduled → st₂.view q = st.drainPass.view q := by
    intro hq
    have hq₀ : q ∉ st.drainPass.runningScheduled := by
      change q ∉ (drainPreempted st.toBePreempted st).2.runningScheduled
      rwa [hrunning]
    rw [← hview₁' hq₀]
    refine RunningMoves.view_of_not_running hmoves hcont₁ ?_
    rw [hview₁' hq₀]
    exact decide_eq_false hq₀
  by_cases hdraining : q ∈ st.toBePreempted
  · rw [if_pos hdraining] at hdrained
    have hne : st₂.preemptedReqs ≠ [] := by
      refine hpreempted₂ ?_
      rw [hpreempted₁]
      change (drainPreempted st.toBePreempted st).2.preemptedReqs ≠ []
      rw [hpreempted]
      exact fun hnil => List.ne_nil_of_mem hdraining (List.append_eq_nil_iff.mp hnil).2
    rw [hidle hne, hnotRunning (h.toBePreempted_notMem_running hdraining), hdrained]
    exact .drained (by simpa [view])
  · rw [if_neg hdraining] at hdrained
    by_cases hq : q ∈ st.runningScheduled
    · have hturn := RunningMoves.turn hmoves hcont₁ q
      rw [hview₁, hdrained] at hturn
      have hlast : st₃.view q = st₂.view q := by
        by_cases hback : q ∈ st₂.waiting
        · rw [hidle (hevicted ?_ (hcont₂.waiting_notMem_running hback))]
          rw [hrunning₁]
          change q ∈ (drainPreempted st.toBePreempted st).2.runningScheduled
          rwa [hrunning]
        · exact WaitingMoves.view_of_not_waiting hwaits hcont₂ hhash₂ (decide_eq_false hback)
      rw [hlast]
      exact .runs passed _ (by simpa [view]) hturn
    · have hview₂ : st₂.view q = st.view q := (hnotRunning hq).trans hdrained
      by_cases hwaiting : q ∈ st.waiting
      · have hturn := WaitingMoves.turn hwaits hcont₂ hhash₂ q
        rw [hview₂] at hturn
        exact .waits _ (by simpa [view]) hturn
      · have hsame := WaitingMoves.view_of_not_waiting hwaits hcont₂ hhash₂ (q := q)
          (by rw [hview₂]; exact decide_eq_false hwaiting)
        rw [hsame, hview₂]
        exact .away (decide_eq_false hwaiting) (decide_eq_false hq) (decide_eq_false hdraining)

end Scheduling

end Spexis
