import Mathlib.Logic.Relation
import Spexis.Library.Lists
import Spexis.Model.EngineCore

/-! # What one call of `schedule` can do

Each pass of `schedule` is a sequence of moves, and each move concerns one request.
The invariants of the scheduler are proved about moves. -/

namespace Spexis

open Python Relation

namespace Scheduler

section Fields

variable (s : Scheduler) (reqId : ReqId) (r : Request)

@[simp] theorem setRequest_request :
    (s.setRequest reqId r).request = Function.update s.request reqId r := rfl
@[simp] theorem setRequest_requests : (s.setRequest reqId r).requests = s.requests := rfl
@[simp] theorem setRequest_waiting : (s.setRequest reqId r).waiting = s.waiting := rfl
@[simp] theorem setRequest_runningScheduled :
    (s.setRequest reqId r).runningScheduled = s.runningScheduled := rfl
@[simp] theorem setRequest_toBePreempted :
    (s.setRequest reqId r).toBePreempted = s.toBePreempted := rfl
@[simp] theorem setRequest_kvCacheManager :
    (s.setRequest reqId r).kvCacheManager = s.kvCacheManager := rfl

end Fields

end Scheduler

namespace Scheduling

/-- The requests scheduled so far. -/
def scheduled (st : Scheduling) : List ReqId :=
  st.numScheduledTokens.map Prod.fst

/-! ## Field lemmas -/

section Fields

variable (st : Scheduling) (reqId : ReqId) (r : Request)

@[simp] theorem setRequest_request :
    (st.setRequest reqId r).request = Function.update st.request reqId r := rfl
@[simp] theorem setRequest_requests : (st.setRequest reqId r).requests = st.requests := rfl
@[simp] theorem setRequest_waiting : (st.setRequest reqId r).waiting = st.waiting := rfl
@[simp] theorem setRequest_runningScheduled :
    (st.setRequest reqId r).runningScheduled = st.runningScheduled := rfl
@[simp] theorem setRequest_toBePreempted :
    (st.setRequest reqId r).toBePreempted = st.toBePreempted := rfl
@[simp] theorem setRequest_kvCacheManager :
    (st.setRequest reqId r).kvCacheManager = st.kvCacheManager := rfl
@[simp] theorem setRequest_numScheduledTokens :
    (st.setRequest reqId r).numScheduledTokens = st.numScheduledTokens := rfl
@[simp] theorem setRequest_tokenBudget :
    (st.setRequest reqId r).tokenBudget = st.tokenBudget := rfl
@[simp] theorem setRequest_scheduled : (st.setRequest reqId r).scheduled = st.scheduled := rfl

@[simp] theorem setRequest_self : st.setRequest reqId (st.request reqId) = st := by
  simp [setRequest, Scheduler.setRequest]

@[simp] theorem setRequest_setRequest (r' : Request) :
    (st.setRequest reqId r).setRequest reqId r' = st.setRequest reqId r' := by
  simp [setRequest, Scheduler.setRequest]

end Fields

theorem setConfidencePassed_request (st : Scheduling) (passed : List ReqId) (reqId : ReqId) :
    ∃ b, (st.setConfidencePassed passed).request reqId =
      { st.request reqId with confidencePassed := b } := by
  by_cases h : reqId ∈ st.runningScheduled
  · exact ⟨_, if_pos h⟩
  · exact ⟨_, if_neg h⟩

end Scheduling

@[simp] theorem Request.markForPreemption_numScheduled (r : Request) :
    r.markForPreemption.numScheduled = r.numScheduled := rfl

namespace Scheduling

/-! ## Moves -/

/-- A request that leaves the running list or finds its batches drained: it goes back to
the waiting queue, or it waits for its batches. -/
def preempt (st : Scheduling) (reqId : ReqId) (r : Request) : Scheduling :=
  if 0 < r.numScheduled then
    { st.setRequest reqId r.markForPreemption with
      toBePreempted := st.toBePreempted ++ [reqId]
      preemptedReqs := st.preemptedReqs ++ [reqId] }
  else
    { st.setRequest reqId r.markForPreemption.reinitialize with
      waiting := reqId :: st.waiting
      preemptedReqs := st.preemptedReqs ++ [reqId] }

/-- The request as `schedule` hands it to the allocation: a real-token request has given up
its `drop_end` mark. -/
def claimed (r : Request) (realToken : Bool) : Request :=
  if realToken then { r with dropEnd := false } else r

@[simp] theorem claimed_false (r : Request) : claimed r false = r := rfl

/-- The tokens a running request asks for. -/
def requestedTokens (cfg : Config) (r : Request) (realToken : Bool) (tokenBudget : ℕ) : ℤ :=
  capNewTokens cfg
    (if realToken = true ∧ ¬ r.numComputedTokens < r.numPromptTokens then 1 else r.numUncomputed)
    tokenBudget

/-- May the running request be scheduled in this way? -/
def Eligible (cfg : Config) (r : Request) : Bool → Prop
  | true => r.shouldPreempt = false ∧ r.hasPendingRealToken = true
  | false => r.shouldPreempt = false ∧ r.hasPendingRealToken = false ∧
      r.confidenceDropped = false ∧ r.stopDropped = false ∧
      (cfg.enableLaSched1 = true → r.confidencePassed = true)

def assignRunning (st : Scheduling) (reqId : ReqId) (n : ℕ) (blocks : List BlockId) :
    Bool → Scheduling
  | true => st.assignFlushed reqId n blocks
  | false => st.assignSp reqId n blocks

/-- A waiting request after its admission. -/
def admitted (st : Scheduling) (waiting : List ReqId) (reqId : ReqId) (r : Request)
    (numComputedTokens n : ℕ) (blocks : List BlockId) : Scheduling :=
  let st' := st.assign reqId n blocks
  { st'.setRequest reqId { r with
      numScheduled := r.numScheduled + 1
      status := .running
      numComputedTokens := numComputedTokens } with
    waiting := waiting
    runningScheduled := st.runningScheduled ++ [reqId]
    scheduledNewReqs :=
      if r.status = .preempted then st.scheduledNewReqs else st.scheduledNewReqs ++ [reqId]
    scheduledResumedReqs :=
      if r.status = .preempted then st.scheduledResumedReqs ++ [reqId]
      else st.scheduledResumedReqs }

/-- The request as the admission sees it: a compiled grammar has ended its wait. -/
def ready (r : Request) : Request :=
  if r.status = .waitingForFsm then { r with status := .waiting } else r

/-- A request that waits for its batches to drain. -/
inductive DrainMove (st : Scheduling) : Scheduling → Prop where
  /-- The request still has batches in flight. -/
  | drainWait (reqId : ReqId) (hmem : reqId ∈ st.toBePreempted)
      (hflight : 0 < (st.request reqId).numScheduled) :
      DrainMove st { st.setRequest reqId (st.request reqId).markForPreemption with
        preemptedReqs := st.preemptedReqs ++ [reqId] }
  /-- Its batches have drained. -/
  | drainReturn (reqId : ReqId) (xs ys : List ReqId) (hmem : st.toBePreempted = xs ++ reqId :: ys)
      (hflight : ¬ 0 < (st.request reqId).numScheduled) :
      DrainMove st { st.setRequest reqId (st.request reqId).markForPreemption.reinitialize with
        waiting := reqId :: st.waiting
        toBePreempted := xs ++ ys
        preemptedReqs := st.preemptedReqs ++ [reqId] }

/-- A running request. -/
inductive RunningMove (cfg : Config) (st : Scheduling) : Scheduling → Prop where
  /-- An allocation that finds too few free blocks. -/
  | allocFail (reqId : ReqId) (n : ℕ) (kv : KVCacheManager)
      (hmem : reqId ∈ st.runningScheduled) (hsched : reqId ∉ st.scheduled)
      (halloc : SPKVCacheManager.allocateSlots cfg.kvCache reqId (st.request reqId) n []
        cfg.scheduler.numLookaheadTokens st.kvCacheManager = .ok (none, kv)) :
      RunningMove cfg st { st with kvCacheManager := kv }
  | evict (reqId : ReqId) (realToken : Bool) (xs : List ReqId)
      (hlast : st.runningScheduled = xs ++ [reqId]) (hsched : reqId ∉ st.scheduled)
      (hclaim : realToken = true → Eligible cfg (st.request reqId) true) :
      RunningMove cfg st (preempt
        { st with
          runningScheduled := xs
          kvCacheManager := st.kvCacheManager.free cfg.kvCache reqId }
        reqId { claimed (st.request reqId) realToken with status := .preempted })
  | assign (reqId : ReqId) (realToken : Bool) (n : ℕ) (blocks : List BlockId) (kv : KVCacheManager)
      (hmem : reqId ∈ st.runningScheduled) (hsched : reqId ∉ st.scheduled)
      (heligible : Eligible cfg (st.request reqId) realToken)
      (hn : (n : ℤ) = requestedTokens cfg (st.request reqId) realToken st.tokenBudget) (hpos : 0 < n)
      (halloc : SPKVCacheManager.allocateSlots cfg.kvCache reqId (st.request reqId) n []
        cfg.scheduler.numLookaheadTokens st.kvCacheManager = .ok (some blocks, kv)) :
      RunningMove cfg st (assignRunning
        { st.setRequest reqId (claimed (st.request reqId) realToken) with kvCacheManager := kv }
        reqId n blocks realToken)
  | drop (reqId : ReqId) (hmem : reqId ∈ st.runningScheduled) (hsched : reqId ∉ st.scheduled)
      (hcandidate : (st.request reqId).isDropCandidate = true)
      (hpassed : cfg.enableLaSched1 = true ∧ (st.request reqId).confidencePassed = false) :
      RunningMove cfg st (st.setRequest reqId { st.request reqId with
        confidenceDropped := true
        dropLen := (st.request reqId).spLen })

/-- A waiting request. -/
inductive WaitingMove (cfg : Config) (st : Scheduling) : Scheduling → Prop where
  /-- The grammar of a request that is not admitted after all has been found compiled. -/
  | markReady (reqId : ReqId) (hmem : reqId ∈ st.waiting) :
      WaitingMove cfg st (st.setRequest reqId (ready (st.request reqId)))
  /-- The search for cached blocks, which may record the hashes of the request. -/
  | searchCache (reqId : ReqId) (result : List BlockId × ℕ) (kv : KVCacheManager)
      (hmem : reqId ∈ st.waiting)
      (hsearch : st.kvCacheManager.getComputedBlocks cfg.kvCache reqId (st.request reqId) =
        .ok (result, kv)) :
      WaitingMove cfg st { st with kvCacheManager := kv }
  /-- There are too few free blocks for the request. -/
  | refused (reqId : ReqId) (n : ℕ) (computedBlocks : List BlockId) (kv : KVCacheManager)
      (hmem : reqId ∈ st.waiting)
      (halloc : SPKVCacheManager.allocateSlots cfg.kvCache reqId (st.request reqId) n computedBlocks
        0 st.kvCacheManager = .ok (none, kv)) :
      WaitingMove cfg st { st with kvCacheManager := kv }
  | admission (reqId : ReqId) (xs ys : List ReqId) (n numComputedTokens : ℕ)
      (computedBlocks blocks : List BlockId) (kv₀ kv : KVCacheManager)
      (hmem : st.waiting = xs ++ reqId :: ys) (hnone : st.preemptedReqs = [])
      (hroom : st.runningScheduled.length ≠ cfg.scheduler.maxNumSeqs)
      (hstatus : (st.request reqId).status = .waiting ∨ (st.request reqId).status = .preempted)
      (hsearch : kv₀.getComputedBlocks cfg.kvCache reqId (st.request reqId) =
        .ok ((computedBlocks, numComputedTokens), st.kvCacheManager))
      (hn : (n : ℤ) = capNewTokens cfg ((st.request reqId).numTokens - numComputedTokens)
        st.tokenBudget) (hpos : 0 < n)
      (halloc : SPKVCacheManager.allocateSlots cfg.kvCache reqId (st.request reqId) n
        computedBlocks 0 st.kvCacheManager = .ok (some blocks, kv)) :
      WaitingMove cfg st (admitted { st with kvCacheManager := kv } (xs ++ ys) reqId
        (st.request reqId) numComputedTokens n (computedBlocks ++ blocks))

inductive Move (cfg : Config) (st : Scheduling) : Scheduling → Prop where
  | drain {st' : Scheduling} : DrainMove st st' → Move cfg st st'
  | setPassed (passed : List ReqId) : Move cfg st (st.setConfidencePassed passed)
  | running {st' : Scheduling} : RunningMove cfg st st' → Move cfg st st'
  | waiting {st' : Scheduling} : WaitingMove cfg st st' → Move cfg st st'

/-- Any number of moves of running requests. -/
abbrev RunningMoves (cfg : Config) : Scheduling → Scheduling → Prop :=
  ReflTransGen (RunningMove cfg)

/-- Any number of moves of waiting requests. -/
abbrev WaitingMoves (cfg : Config) : Scheduling → Scheduling → Prop :=
  ReflTransGen (WaitingMove cfg)

/-- Any number of moves. -/
abbrev Moves (cfg : Config) : Scheduling → Scheduling → Prop :=
  ReflTransGen (Move cfg)

/-! ## The passes as moves -/

variable {cfg : Config} {st st' : Scheduling}

theorem RunningMoves.moves (h : RunningMoves cfg st st') : Moves cfg st st' :=
  ReflTransGen.mono (fun _ _ => .running) _ _ h

theorem WaitingMoves.moves (h : WaitingMoves cfg st st') : Moves cfg st st' :=
  ReflTransGen.mono (fun _ _ => .waiting) _ _ h

theorem drainPreempted_moves (kept rest : List ReqId) (st : Scheduling) :
    Moves cfg { st with toBePreempted := kept ++ rest }
      { (drainPreempted rest st).2 with toBePreempted := kept ++ (drainPreempted rest st).1 } := by
  induction rest generalizing kept st with
  | nil => exact .refl
  | cons reqId rest ih =>
      by_cases hflight : 0 < (st.request reqId).numScheduled
      · have hmove : Move cfg { st with toBePreempted := kept ++ reqId :: rest } _ :=
          .drain (.drainWait reqId (by simp) hflight)
        have hrest := ih (kept ++ [reqId])
          { st.setRequest reqId (st.request reqId).markForPreemption with
            preemptedReqs := st.preemptedReqs ++ [reqId] }
        have hkept : kept ++ [reqId] ++ rest = kept ++ reqId :: rest := by simp
        rw [hkept] at hrest
        simpa [drainPreempted, Scheduler.preemptRequest, hflight, setRequest] using
          ReflTransGen.head hmove hrest
      · have hmove : Move cfg { st with toBePreempted := kept ++ reqId :: rest } _ :=
          .drain (.drainReturn reqId kept rest rfl hflight)
        have hrest := ih kept
          { st.setRequest reqId (st.request reqId).markForPreemption.reinitialize with
            waiting := reqId :: st.waiting
            preemptedReqs := st.preemptedReqs ++ [reqId] }
        simpa [drainPreempted, Scheduler.preemptRequest, hflight, setRequest] using
          ReflTransGen.head hmove hrest

theorem evict_eq (cfg : Config) (st : Scheduling) (reqId : ReqId) :
    st.evict cfg reqId = preempt
      { st with
        runningScheduled := st.runningScheduled.dropLast
        kvCacheManager := st.kvCacheManager.free cfg.kvCache reqId }
      reqId { st.request reqId with status := .preempted } := by
  by_cases hflight : 0 < (st.request reqId).numScheduled <;>
    simp [evict, preempt, Scheduler.preemptRequest, Scheduler.setRequest, setRequest, hflight]

theorem preempt_setRequest_comm {reqId reqId' : ReqId} (h : reqId ≠ reqId') (st : Scheduling)
    (r r' : Request) :
    preempt (st.setRequest reqId' r') reqId r = (preempt st reqId r).setRequest reqId' r' := by
  unfold preempt
  split <;> simp [setRequest, Scheduler.setRequest, Function.update_comm h]

theorem evict_setRequest_comm (cfg : Config) {reqId reqId' : ReqId} (h : reqId ≠ reqId')
    (st : Scheduling)
    (r' : Request) :
    (st.setRequest reqId' r').evict cfg reqId = (st.evict cfg reqId).setRequest reqId' r' := by
  rw [evict_eq, evict_eq, ← preempt_setRequest_comm h]
  simp [setRequest, Scheduler.setRequest, Function.update_of_ne h]

@[simp] theorem preempt_runningScheduled (st : Scheduling) (reqId : ReqId) (r : Request) :
    (preempt st reqId r).runningScheduled = st.runningScheduled := by
  unfold preempt
  split <;> rfl

@[simp] theorem preempt_kvCacheManager (st : Scheduling) (reqId : ReqId) (r : Request) :
    (preempt st reqId r).kvCacheManager = st.kvCacheManager := by
  unfold preempt
  split <;> rfl

@[simp] theorem preempt_requests (st : Scheduling) (reqId : ReqId) (r : Request) :
    (preempt st reqId r).requests = st.requests := by
  unfold preempt
  split <;> rfl

@[simp] theorem preempt_numScheduledTokens (st : Scheduling) (reqId : ReqId) (r : Request) :
    (preempt st reqId r).numScheduledTokens = st.numScheduledTokens := by
  unfold preempt
  split <;> rfl

@[simp] theorem preempt_reqToNewBlockIds (st : Scheduling) (reqId : ReqId) (r : Request) :
    (preempt st reqId r).reqToNewBlockIds = st.reqToNewBlockIds := by
  unfold preempt
  split <;> rfl

@[simp] theorem preempt_tokenBudget (st : Scheduling) (reqId : ReqId) (r : Request) :
    (preempt st reqId r).tokenBudget = st.tokenBudget := by
  unfold preempt
  split <;> rfl

theorem preempt_request_of_ne {reqId reqId' : ReqId} (h : reqId' ≠ reqId) (st : Scheduling)
    (r : Request) : (preempt st reqId r).request reqId' = st.request reqId' := by
  unfold preempt
  split <;> simp [Function.update_of_ne h]

theorem allocateSlots_claimed (reqId : ReqId) (r : Request) (realToken : Bool) (n lookahead : ℕ)
    (computedBlocks : List BlockId) (kv : KVCacheManager) :
    SPKVCacheManager.allocateSlots cfg.kvCache reqId (claimed r realToken) n computedBlocks
      lookahead kv =
    SPKVCacheManager.allocateSlots cfg.kvCache reqId r n computedBlocks lookahead kv := by
  cases realToken <;> rfl

/-- What the evictions before an allocation leave as it was. -/
structure RoomMade (cfg : Config) (reqId : ReqId) (st st' : Scheduling) : Prop where
  moves : RunningMoves cfg st st'
  running : st'.runningScheduled <+: st.runningScheduled
  request : st'.request reqId = st.request reqId
  scheduled : st'.numScheduledTokens = st.numScheduledTokens
  budget : st'.tokenBudget = st.tokenBudget

theorem RoomMade.trans {reqId : ReqId} {st₁ st₂ st₃ : Scheduling} (h : RoomMade cfg reqId st₁ st₂)
    (h' : RoomMade cfg reqId st₂ st₃) : RoomMade cfg reqId st₁ st₃ :=
  ⟨h.moves.trans h'.moves, h'.running.trans h.running, h'.request.trans h.request,
    h'.scheduled.trans h.scheduled, h'.budget.trans h.budget⟩

theorem RoomMade.scheduled_iff {reqId p : ReqId} (h : RoomMade cfg reqId st st') :
    p ∈ st'.scheduled ↔ p ∈ st.scheduled := by
  rw [Scheduling.scheduled, h.scheduled, Scheduling.scheduled]

theorem RoomMade.of_allocFail {reqId : ReqId} {n : ℕ} {kv : KVCacheManager}
    (hmem : reqId ∈ st.runningScheduled) (hsched : reqId ∉ st.scheduled)
    (h : SPKVCacheManager.allocateSlots cfg.kvCache reqId (st.request reqId) n []
      cfg.scheduler.numLookaheadTokens st.kvCacheManager = .ok (none, kv)) :
    RoomMade cfg reqId st { st with kvCacheManager := kv } :=
  ⟨.single (.allocFail reqId n kv hmem hsched h), List.prefix_rfl, rfl, rfl, rfl⟩

theorem evict_move {reqId : ReqId} (hlast : st.runningScheduled.getLast? = some reqId)
    (hsched : reqId ∉ st.scheduled) : RunningMove cfg st (st.evict cfg reqId) := by
  have hsplit := List.dropLast_append_getLast? reqId hlast
  rw [evict_eq]
  simpa [claimed] using RunningMove.evict reqId false st.runningScheduled.dropLast hsplit.symm hsched
    (by simp)

theorem RoomMade.of_evict (cfg : Config) (st : Scheduling) {reqId preempted : ReqId} (hne : preempted ≠ reqId)
    (hlast : st.runningScheduled.getLast? = some preempted) (hsched : preempted ∉ st.scheduled) :
    RoomMade cfg reqId st (st.evict cfg preempted) := by
  refine ⟨.single (evict_move hlast hsched), ?_, ?_, ?_, ?_⟩
  · rw [evict_eq, preempt_runningScheduled]
    exact List.dropLast_prefix _
  · rw [evict_eq, preempt_request_of_ne hne.symm]
  · rw [evict_eq, preempt_numScheduledTokens]
  · rw [evict_eq, preempt_tokenBudget]

/-- The request itself is evicted, after it has been claimed. -/
theorem evict_claimed_move (st : Scheduling) {reqId : ReqId} {realToken : Bool}
    (hlast : st.runningScheduled.getLast? = some reqId) (hsched : reqId ∉ st.scheduled)
    (hclaim : realToken = true → Eligible cfg (st.request reqId) true) :
    RunningMove cfg st
      ((st.setRequest reqId (claimed (st.request reqId) realToken)).evict cfg reqId) := by
  have hsplit := List.dropLast_append_getLast? reqId hlast
  have hmove : RunningMove cfg st _ :=
    .evict reqId realToken st.runningScheduled.dropLast hsplit.symm hsched hclaim
  rw [evict_eq]
  convert hmove using 1
  unfold preempt
  simp [setRequest, Scheduler.setRequest]

theorem allocateWithPreemption_moves {reqId : ReqId} {realToken : Bool} {n fuel i : ℕ}
    {result : Option (List BlockId)} {out : Scheduling}
    (hi : st.runningScheduled[i]? = some reqId)
    (hsched : ∀ p ∈ st.runningScheduled.drop i, p ∉ st.scheduled)
    (hclaim : realToken = true → Eligible cfg (st.request reqId) true)
    (h : allocateWithPreemption cfg reqId n fuel
      (st.setRequest reqId (claimed (st.request reqId) realToken)) = .ok (result, out)) :
    match result with
    | some blocks => ∃ st' kv, RoomMade cfg reqId st st' ∧
        st'.runningScheduled[i]? = some reqId ∧
        SPKVCacheManager.allocateSlots cfg.kvCache reqId (st'.request reqId) n []
          cfg.scheduler.numLookaheadTokens st'.kvCacheManager = .ok (some blocks, kv) ∧
        out = { st'.setRequest reqId (claimed (st'.request reqId) realToken) with
          kvCacheManager := kv }
    | none => RunningMoves cfg st out := by
  induction fuel generalizing st with
  | zero => cases h
  | succ fuel ih =>
      simp only [allocateWithPreemption, setRequest_request, Function.update_self,
        setRequest_kvCacheManager, allocateSlots_claimed, bind_eq_ok] at h
      obtain ⟨⟨newBlocks, kv⟩, halloc, h⟩ := h
      cases newBlocks with
      | some blocks =>
          simp only [pure_eq_ok, Prod.mk.injEq] at h
          obtain ⟨rfl, rfl⟩ := h
          exact ⟨st, kv, ⟨.refl, List.prefix_rfl, rfl, rfl, rfl⟩, hi, halloc, rfl⟩
      | none =>
          have hfail := RoomMade.of_allocFail (List.mem_of_getElem? hi)
            (hsched _ (List.mem_drop_of_getElem? hi)) halloc
          simp only [setRequest_runningScheduled] at h
          cases hlast : st.runningScheduled.getLast? with
          | none => simp [hlast] at h
          | some preempted =>
              have hmem : preempted ∈ st.runningScheduled.drop i :=
                List.getLast?_mem_drop (List.getElem?_eq_some_iff.mp hi).1 hlast
              simp only [hlast] at h
              split_ifs at h with hself
              · simp only [pure_eq_ok, Prod.mk.injEq] at h
                obtain ⟨rfl, rfl⟩ := h
                subst hself
                exact hfail.moves.tail
                  (evict_claimed_move { st with kvCacheManager := kv } hlast (hsched _ hmem) hclaim)
              · have hevict := RoomMade.of_evict cfg { st with kvCacheManager := kv } hself hlast
                  (hsched _ hmem)
                have hroom := hfail.trans hevict
                have hi' : (evict cfg { st with kvCacheManager := kv }
                    preempted).runningScheduled[i]? = some reqId := by
                  rw [evict_eq, preempt_runningScheduled]
                  exact List.getElem?_dropLast_of_ne hi hlast hself
                have hcomm := evict_setRequest_comm cfg hself
                  { st with kvCacheManager := kv } (claimed (st.request reqId) realToken)
                have hnext : allocateWithPreemption cfg reqId n fuel
                    ((evict cfg { st with kvCacheManager := kv } preempted).setRequest reqId
                      (claimed (st.request reqId) realToken)) = .ok (result, out) := by
                  rw [← hcomm]
                  exact h
                have hrest := ih hi' (fun p hp => hroom.scheduled_iff.not.mpr
                  (hsched p (hroom.running.drop_subset i hp))) (by rwa [hroom.request])
                  (by rwa [hroom.request])
                cases result with
                | some blocks =>
                    obtain ⟨st', kv', hroom', hget, halloc', rfl⟩ := hrest
                    exact ⟨st', kv', hroom.trans hroom', hget, halloc', rfl⟩
                | none => exact hroom.moves.trans hrest

/-! ## The running requests -/

section AssignRunning

variable (st : Scheduling) (reqId : ReqId) (n : ℕ) (blocks : List BlockId) (realToken : Bool)

@[simp] theorem assignRunning_request : (assignRunning st reqId n blocks realToken).request =
    Function.update st.request reqId
      { st.request reqId with numScheduled := (st.request reqId).numScheduled + 1 } := by
  cases realToken <;> rfl

@[simp] theorem assignRunning_requests :
    (assignRunning st reqId n blocks realToken).requests = st.requests := by
  cases realToken <;> rfl

@[simp] theorem assignRunning_waiting :
    (assignRunning st reqId n blocks realToken).waiting = st.waiting := by
  cases realToken <;> rfl

@[simp] theorem assignRunning_runningScheduled :
    (assignRunning st reqId n blocks realToken).runningScheduled = st.runningScheduled := by
  cases realToken <;> rfl

@[simp] theorem assignRunning_toBePreempted :
    (assignRunning st reqId n blocks realToken).toBePreempted = st.toBePreempted := by
  cases realToken <;> rfl

@[simp] theorem assignRunning_kvCacheManager :
    (assignRunning st reqId n blocks realToken).kvCacheManager = st.kvCacheManager := by
  cases realToken <;> rfl

@[simp] theorem assignRunning_numScheduledTokens :
    (assignRunning st reqId n blocks realToken).numScheduledTokens =
      dictSet st.numScheduledTokens reqId n := by
  cases realToken <;> rfl

@[simp] theorem assignRunning_reqToNewBlockIds :
    (assignRunning st reqId n blocks realToken).reqToNewBlockIds =
      dictSet st.reqToNewBlockIds reqId blocks := by
  cases realToken <;> rfl

theorem assignRunning_scheduled (h : reqId ∉ st.scheduled) :
    (assignRunning st reqId n blocks realToken).scheduled = st.scheduled ++ [reqId] := by
  simp [scheduled, dictSet_of_notMem h]

end AssignRunning

section Admitted

variable (st : Scheduling) (waiting : List ReqId) (reqId : ReqId) (r : Request)
  (numComputedTokens n : ℕ) (blocks : List BlockId)

@[simp] theorem admitted_request :
    (admitted st waiting reqId r numComputedTokens n blocks).request =
      Function.update st.request reqId { r with
        numScheduled := r.numScheduled + 1
        status := .running
        numComputedTokens := numComputedTokens } := by
  simp [admitted, assign]

@[simp] theorem admitted_requests :
    (admitted st waiting reqId r numComputedTokens n blocks).requests = st.requests := rfl

@[simp] theorem admitted_waiting :
    (admitted st waiting reqId r numComputedTokens n blocks).waiting = waiting := rfl

@[simp] theorem admitted_runningScheduled :
    (admitted st waiting reqId r numComputedTokens n blocks).runningScheduled =
      st.runningScheduled ++ [reqId] := rfl

@[simp] theorem admitted_toBePreempted :
    (admitted st waiting reqId r numComputedTokens n blocks).toBePreempted = st.toBePreempted := rfl

@[simp] theorem admitted_kvCacheManager :
    (admitted st waiting reqId r numComputedTokens n blocks).kvCacheManager =
      st.kvCacheManager := rfl

@[simp] theorem admitted_numScheduledTokens :
    (admitted st waiting reqId r numComputedTokens n blocks).numScheduledTokens =
      dictSet st.numScheduledTokens reqId n := rfl

theorem admitted_scheduled (h : reqId ∉ st.scheduled) :
    (admitted st waiting reqId r numComputedTokens n blocks).scheduled = st.scheduled ++ [reqId] := by
  simp [scheduled, dictSet_of_notMem h]

end Admitted

@[simp] theorem mem_assignRunning_scheduled {reqId p : ReqId} {n : ℕ} {blocks : List BlockId}
    {realToken : Bool} : p ∈ (assignRunning st reqId n blocks realToken).scheduled ↔
      p ∈ st.scheduled ∨ p = reqId := by
  simp only [scheduled, assignRunning_numScheduledTokens, mem_dictSet_keys]

theorem notMem_drop_succ_of_nodup {reqId : ReqId} {xs : List ReqId} {i : ℕ} (hnodup : xs.Nodup)
    (hi : xs[i]? = some reqId) : reqId ∉ xs.drop (i + 1) := by
  obtain ⟨hlen, rfl⟩ := List.getElem?_eq_some_iff.mp hi
  have hdrop := List.drop_eq_getElem_cons hlen
  have hsub : (xs.drop i).Nodup := hnodup.sublist (List.drop_sublist i xs)
  rw [hdrop] at hsub
  exact (List.nodup_cons.mp hsub).1

/-- Claiming a running request and allocating for it: either it is assigned, and the rest of
the list is as it was or shorter, or the loop ends. -/
theorem assignRunning_moves (realToken : Bool) {reqId : ReqId} {n fuel i : ℕ}
    {result : Option (List BlockId)} {out : Scheduling}
    (hnodup : st.runningScheduled.Nodup) (hi : st.runningScheduled[i]? = some reqId)
    (hsched : ∀ p ∈ st.runningScheduled.drop i, p ∉ st.scheduled)
    (heligible : Eligible cfg (st.request reqId) realToken)
    (hn : (n : ℤ) = requestedTokens cfg (st.request reqId) realToken st.tokenBudget) (hpos : 0 < n)
    (h : allocateWithPreemption cfg reqId n fuel
      (st.setRequest reqId (claimed (st.request reqId) realToken)) = .ok (result, out)) :
    match result with
    | some blocks =>
        RunningMoves cfg st (assignRunning out reqId n blocks realToken) ∧
        (assignRunning out reqId n blocks realToken).runningScheduled <+: st.runningScheduled ∧
        ∀ p ∈ (assignRunning out reqId n blocks realToken).runningScheduled.drop (i + 1),
          p ∉ (assignRunning out reqId n blocks realToken).scheduled
    | none => RunningMoves cfg st out := by
  have hclaim : realToken = true → Eligible cfg (st.request reqId) true := by
    rintro rfl
    exact heligible
  have hmoves := allocateWithPreemption_moves hi hsched hclaim h
  cases result with
  | none => exact hmoves
  | some blocks =>
      obtain ⟨st', kv, hroom, hi', halloc, rfl⟩ := hmoves
      have hmem : reqId ∈ st.runningScheduled.drop i :=
        hroom.running.drop_subset i (List.mem_drop_of_getElem? hi')
      have hassign : RunningMove cfg st' _ := .assign reqId realToken n blocks kv
        (List.mem_of_getElem? hi') (hroom.scheduled_iff.not.mpr (hsched reqId hmem))
        (by rwa [hroom.request]) (by rwa [hroom.request, hroom.budget]) hpos halloc
      refine ⟨hroom.moves.tail hassign, by simpa using hroom.running, ?_⟩
      intro p hp
      simp only [assignRunning_runningScheduled, setRequest_runningScheduled] at hp
      rw [mem_assignRunning_scheduled]
      rintro (hp' | rfl)
      · refine hsched p (hroom.running.drop_subset i ?_) (hroom.scheduled_iff.mp hp')
        exact List.drop_subset_drop_of_le st'.runningScheduled (Nat.le_succ i) hp
      · exact notMem_drop_succ_of_nodup (hnodup.sublist hroom.running.sublist) hi' hp

theorem requestedTokens_true (r : Request) (budget : ℕ) :
    requestedTokens cfg r true budget =
      capNewTokens cfg (if r.numComputedTokens < r.numPromptTokens then r.numUncomputed else 1)
        budget := by
  by_cases h : r.numComputedTokens < r.numPromptTokens <;> simp [requestedTokens, h]

theorem requestedTokens_false (r : Request) (budget : ℕ) :
    requestedTokens cfg r false budget = capNewTokens cfg r.numUncomputed budget := by
  simp [requestedTokens]

theorem requestedTokens_toNat {r : Request} {realToken : Bool} {budget : ℕ}
    (hpos : requestedTokens cfg r realToken budget > 0) :
    ((requestedTokens cfg r realToken budget).toNat : ℤ) =
      requestedTokens cfg r realToken budget :=
  Int.toNat_of_nonneg (by omega)

/-- One round of the loop over the running requests, at position `i`. -/
inductive LoopStep (cfg : Config) (i : ℕ) (st : Scheduling) : Scheduling → Prop where
  /-- The request is draining, or it has been dropped before. -/
  | skip : LoopStep cfg i st st
  | assign (reqId : ReqId) (realToken : Bool) (n : ℕ) (blocks : List BlockId) (out : Scheduling)
      (hi : st.runningScheduled[i]? = some reqId)
      (heligible : Eligible cfg (st.request reqId) realToken)
      (hn : (n : ℤ) = requestedTokens cfg (st.request reqId) realToken st.tokenBudget) (hpos : 0 < n)
      (halloc : allocateWithPreemption cfg reqId n (st.runningScheduled.length + 1)
        (st.setRequest reqId (claimed (st.request reqId) realToken)) = .ok (some blocks, out)) :
      LoopStep cfg i st (assignRunning out reqId n blocks realToken)
  | drop (reqId : ReqId) (hi : st.runningScheduled[i]? = some reqId)
      (hcandidate : (st.request reqId).isDropCandidate = true)
      (hpassed : cfg.enableLaSched1 = true ∧ (st.request reqId).confidencePassed = false) :
      LoopStep cfg i st (st.setRequest reqId { st.request reqId with
        confidenceDropped := true
        dropLen := (st.request reqId).spLen })

/-- The round in which the loop ends. -/
inductive LoopEnd (cfg : Config) (i : ℕ) (st : Scheduling) : Scheduling → Prop where
  | stop (hstop : st.runningScheduled.length ≤ i ∨ st.tokenBudget = 0) : LoopEnd cfg i st st
  /-- The request itself has been evicted. -/
  | evicted (reqId : ReqId) (realToken : Bool) (n : ℕ) (out : Scheduling)
      (hi : st.runningScheduled[i]? = some reqId)
      (heligible : Eligible cfg (st.request reqId) realToken)
      (hn : (n : ℤ) = requestedTokens cfg (st.request reqId) realToken st.tokenBudget) (hpos : 0 < n)
      (halloc : allocateWithPreemption cfg reqId n (st.runningScheduled.length + 1)
        (st.setRequest reqId (claimed (st.request reqId) realToken)) = .ok (none, out)) :
      LoopEnd cfg i st out

/-- What the loop does at one position. -/
inductive LoopRound (cfg : Config) (i : ℕ) (st : Scheduling) : Prop where
  | ends (out : Scheduling) (hend : LoopEnd cfg i st out)
      (heq : ∀ fuel, runningLoop cfg (fuel + 1) i st = .ok out)
  | goesOn (out : Scheduling) (hstep : LoopStep cfg i st out)
      (heq : ∀ fuel, runningLoop cfg (fuel + 1) i st = runningLoop cfg fuel (i + 1) out)
  | raises (e : PyError) (heq : ∀ fuel, runningLoop cfg (fuel + 1) i st = .error e)

/-- An eligible request is given tokens, if the allocation lets it. -/
theorem runningLoop_of_eligible {i : ℕ} {reqId : ReqId} {realToken : Bool}
    (hi : st.runningScheduled[i]? = some reqId) (hbudget : st.tokenBudget ≠ 0)
    (heligible : Eligible cfg (st.request reqId) realToken) (fuel : ℕ) :
    runningLoop cfg (fuel + 1) i st = (do
      let n := requestedTokens cfg (st.request reqId) realToken st.tokenBudget
      pyAssert (n > 0) ""
      let (newBlocks, out) ← allocateWithPreemption cfg reqId n.toNat
        (st.runningScheduled.length + 1)
        (st.setRequest reqId (claimed (st.request reqId) realToken))
      newBlocks.elim (.ok out) fun blocks =>
        runningLoop cfg fuel (i + 1) (assignRunning out reqId n.toNat blocks realToken)) := by
  cases realToken with
  | true =>
      obtain ⟨hpreempt, hpending⟩ := heligible
      simp only [runningLoop, hi, hbudget, hpreempt, hpending, ite_true, ite_false,
        Bool.false_eq_true, requestedTokens_true, setRequest_tokenBudget,
        setRequest_runningScheduled, claimed, assignRunning]
      refine bind_congr (fun _ => bind_congr (fun result => ?_))
      cases result.1 <;> rfl
  | false =>
      obtain ⟨hpreempt, hpending, hdropped, hstopped, hpassed⟩ := heligible
      have hpass : ¬ cfg.enableLaSched1 ∨ (st.request reqId).confidencePassed = true :=
        or_iff_not_imp_left.mpr (fun hla => hpassed (not_not.mp hla))
      simp only [runningLoop, hi, hbudget, hpreempt, hpending, hdropped, hstopped, hpass, or_self,
        ite_true, ite_false, Bool.false_eq_true, requestedTokens_false, claimed_false,
        setRequest_self, assignRunning]
      refine bind_congr (fun _ => bind_congr (fun result => ?_))
      cases result.1 <;> rfl

theorem loopRound_of_eligible {i : ℕ} {reqId : ReqId} {realToken : Bool}
    (hi : st.runningScheduled[i]? = some reqId) (hbudget : st.tokenBudget ≠ 0)
    (heligible : Eligible cfg (st.request reqId) realToken) : LoopRound cfg i st := by
  have heq := runningLoop_of_eligible hi hbudget heligible
  dsimp only at heq
  by_cases hpos : requestedTokens cfg (st.request reqId) realToken st.tokenBudget > 0
  · rw [pyAssert, if_pos hpos] at heq
    cases halloc : allocateWithPreemption cfg reqId
        (requestedTokens cfg (st.request reqId) realToken st.tokenBudget).toNat
        (st.runningScheduled.length + 1)
        (st.setRequest reqId (claimed (st.request reqId) realToken)) with
    | error e =>
        rw [halloc] at heq
        exact .raises e heq
    | ok result =>
        obtain ⟨newBlocks, out⟩ := result
        rw [halloc] at heq
        cases newBlocks with
        | none =>
            exact .ends out (.evicted reqId realToken _ out hi heligible
              (requestedTokens_toNat hpos) (by omega) halloc) heq
        | some blocks =>
            exact .goesOn _ (.assign reqId realToken _ blocks out hi heligible
              (requestedTokens_toNat hpos) (by omega) halloc) heq
  · rw [pyAssert, if_neg hpos] at heq
    exact .raises _ heq

theorem loopRound (cfg : Config) (i : ℕ) (st : Scheduling) : LoopRound cfg i st := by
  cases hi : st.runningScheduled[i]? with
  | none =>
      refine .ends st (.stop (.inl (List.getElem?_eq_none_iff.mp hi))) (fun fuel => ?_)
      simp only [runningLoop, hi]
  | some reqId =>
      by_cases hbudget : st.tokenBudget = 0
      · refine .ends st (.stop (.inr hbudget)) (fun fuel => ?_)
        simp only [runningLoop, hi, hbudget, ite_true]
      by_cases hpreempt : (st.request reqId).shouldPreempt = true
      · refine .goesOn st .skip (fun fuel => ?_)
        simp only [runningLoop, hi, hbudget, hpreempt, ite_true, ite_false]
      rw [Bool.not_eq_true] at hpreempt
      by_cases hpending : (st.request reqId).hasPendingRealToken = true
      · have heligible : Eligible cfg (st.request reqId) true := ⟨hpreempt, hpending⟩
        exact loopRound_of_eligible hi hbudget heligible
      rw [Bool.not_eq_true] at hpending
      by_cases hdropped : (st.request reqId).confidenceDropped ∨ (st.request reqId).stopDropped
      · refine .goesOn st .skip (fun fuel => ?_)
        simp only [runningLoop, hi, hbudget, hpreempt, hpending, hdropped, ite_true, ite_false,
          Bool.false_eq_true]
      by_cases hpass : ¬ cfg.enableLaSched1 ∨ (st.request reqId).confidencePassed
      · rw [not_or, Bool.not_eq_true, Bool.not_eq_true] at hdropped
        have heligible : Eligible cfg (st.request reqId) false := ⟨hpreempt, hpending, hdropped.1,
          hdropped.2, fun hla => hpass.resolve_left (not_not_intro hla)⟩
        exact loopRound_of_eligible hi hbudget heligible
      · refine .goesOn _ (.drop reqId hi
          (by simp [Request.isDropCandidate, hpreempt, hpending, hdropped])
          (by simpa [not_or] using hpass)) (fun fuel => ?_)
        simp only [runningLoop, hi, hbudget, hpreempt, hpending, hdropped, hpass, ite_false,
          Bool.false_eq_true]

/-- What a round of the loop leaves for the next rounds. -/
structure LoopFrame (cfg : Config) (i : ℕ) (st st' : Scheduling) : Prop where
  moves : RunningMoves cfg st st'
  running : st'.runningScheduled <+: st.runningScheduled
  unscheduled : ∀ p ∈ st'.runningScheduled.drop (i + 1), p ∉ st'.scheduled

theorem LoopStep.frame {i : ℕ} (hstep : LoopStep cfg i st st') (hnodup : st.runningScheduled.Nodup)
    (hsched : ∀ p ∈ st.runningScheduled.drop i, p ∉ st.scheduled) : LoopFrame cfg i st st' := by
  have hnext : ∀ p ∈ st.runningScheduled.drop (i + 1), p ∉ st.scheduled := fun p hp =>
    hsched p (List.drop_subset_drop_of_le st.runningScheduled (Nat.le_succ i) hp)
  cases hstep with
  | skip => exact ⟨.refl, List.prefix_rfl, hnext⟩
  | assign reqId realToken n blocks out hi heligible hn hpos halloc =>
      obtain ⟨hmoves, hrunning, hleft⟩ :=
        assignRunning_moves realToken hnodup hi hsched heligible hn hpos halloc
      exact ⟨hmoves, hrunning, hleft⟩
  | drop reqId hi hcandidate hpassed =>
      have hmem : reqId ∈ st.runningScheduled.drop i := List.mem_drop_of_getElem? hi
      exact ⟨.single (.drop reqId (List.mem_of_getElem? hi) (hsched reqId hmem) hcandidate hpassed),
        List.prefix_rfl, hnext⟩

theorem LoopEnd.moves {i : ℕ} (hend : LoopEnd cfg i st st') (hnodup : st.runningScheduled.Nodup)
    (hsched : ∀ p ∈ st.runningScheduled.drop i, p ∉ st.scheduled) : RunningMoves cfg st st' := by
  cases hend with
  | stop => exact .refl
  | evicted reqId realToken n out hi heligible hn hpos halloc =>
      exact assignRunning_moves realToken hnodup hi hsched heligible hn hpos halloc

theorem runningLoop_moves {fuel i : ℕ} (hnodup : st.runningScheduled.Nodup)
    (hsched : ∀ p ∈ st.runningScheduled.drop i, p ∉ st.scheduled)
    (h : runningLoop cfg fuel i st = .ok st') : RunningMoves cfg st st' := by
  induction fuel generalizing i st with
  | zero =>
      cases h
      exact .refl
  | succ fuel ih =>
      cases loopRound cfg i st with
      | ends out hend heq =>
          rw [heq] at h
          cases h
          exact hend.moves hnodup hsched
      | goesOn out hstep heq =>
          rw [heq] at h
          have hframe := hstep.frame hnodup hsched
          exact hframe.moves.trans
            (ih (hnodup.sublist hframe.running.sublist) hframe.unscheduled h)
      | raises e heq =>
          rw [heq] at h
          cases h

/-! ## The waiting requests -/

theorem admitRequest_eq_ok {reqId : ReqId} {n numComputedTokens : ℕ} {computedBlocks blocks : List BlockId}
    (h : st.admitRequest reqId numComputedTokens n computedBlocks blocks = .ok st') :
    ((st.request reqId).status = .waiting ∨ (st.request reqId).status = .preempted) ∧
      st' = admitted st st.waiting reqId (st.request reqId) numComputedTokens n
        (computedBlocks ++ blocks) := by
  cases hs : (st.request reqId).status <;> simp only [admitRequest, hs] at h <;> cases h
  · exact ⟨.inl rfl, by simp [admitted, hs, assign, setRequest, Scheduler.setRequest]⟩
  · exact ⟨.inr rfl, by simp [admitted, hs, assign, setRequest, Scheduler.setRequest]⟩

@[simp] theorem ready_numTokens (r : Request) : (ready r).numTokens = r.numTokens := by
  unfold ready
  split_ifs <;> rfl

theorem ready_setRequest (st : Scheduling) (reqId : ReqId) :
    (if (st.request reqId).status = .waitingForFsm then
      st.setRequest reqId { st.request reqId with status := .waiting }
    else st) = st.setRequest reqId (ready (st.request reqId)) := by
  unfold ready
  split_ifs <;> simp

theorem waitingLoop_moves {shouldEstimateLength : Bool} {memInTokens : ℤ}
    {waiting skipped : List ReqId} {memUsageList : List ℚ} (hnone : st.preemptedReqs = [])
    (h : waitingLoop cfg shouldEstimateLength memInTokens waiting skipped memUsageList st =
      .ok st') :
    WaitingMoves cfg { st with waiting := skipped.reverse ++ waiting } st' := by
  induction waiting generalizing skipped memUsageList st with
  | nil =>
      simp only [waitingLoop] at h
      cases h
      simpa using ReflTransGen.refl
  | cons reqId waiting ih =>
      -- the queue as it would be if the loop stopped here
      set start : Scheduling := { st with waiting := skipped.reverse ++ reqId :: waiting } with hstart
      rw [waitingLoop] at h
      dsimp only at h
      generalize (if shouldEstimateLength = true then
        addFootprint cfg (st.request reqId) memUsageList else memUsageList) = usage at h
      by_cases hbudget : st.tokenBudget = 0
      · rw [if_pos hbudget] at h
        cases h
        exact .refl
      rw [if_neg hbudget] at h
      by_cases hroom : st.runningScheduled.length = cfg.scheduler.maxNumSeqs
      · rw [if_pos hroom] at h
        cases h
        exact .refl
      rw [if_neg hroom] at h
      split at h
      · cases h
        exact .refl
      split at h
      · simpa [hstart] using ih hnone h
      rw [ready_setRequest] at h
      simp only [bind_eq_ok, pyAssert_eq_ok, Prod.exists] at h
      obtain ⟨computedBlocks, numComputedTokens, kv₀, hsearch, _, hpos, newBlocks, kv, halloc, h⟩ := h
      have hready : WaitingMove cfg start (start.setRequest reqId (ready (st.request reqId))) :=
        .markReady reqId (by simp [hstart])
      have hsearched : WaitingMove cfg (start.setRequest reqId (ready (st.request reqId)))
          { start.setRequest reqId (ready (st.request reqId)) with kvCacheManager := kv₀ } :=
        .searchCache reqId _ _ (by simp [hstart]) (by simpa using hsearch)
      have hto := ReflTransGen.head hready (.single hsearched)
      cases newBlocks with
      | none =>
          cases h
          exact hto.tail (.refused reqId _ _ _ (by simp [hstart]) (by simpa using halloc))
      | some blocks =>
          simp only [bind_eq_ok] at h
          obtain ⟨st₁, hadmitted, h⟩ := h
          obtain ⟨hstatus, rfl⟩ := admitRequest_eq_ok hadmitted
          have hn : ((capNewTokens cfg ((st.request reqId).numTokens - numComputedTokens)
              st.tokenBudget).toNat : ℤ) =
              capNewTokens cfg ((ready (st.request reqId)).numTokens - numComputedTokens)
                st.tokenBudget := by
            rw [ready_numTokens]
            exact Int.toNat_of_nonneg (le_of_lt hpos)
          have hadmitted : WaitingMove cfg
              { start.setRequest reqId (ready (st.request reqId)) with kvCacheManager := kv₀ } _ :=
            .admission reqId skipped.reverse waiting _ numComputedTokens computedBlocks blocks
              st.kvCacheManager kv rfl hnone hroom hstatus hsearch (by simpa [hstart] using hn)
              (by simpa using hpos) halloc
          have hrest := ih (by exact hnone) h
          exact (hto.tail hadmitted).trans hrest

/-! ## The three passes -/

theorem drainPreempted_frame (rest : List ReqId) (st : Scheduling) :
    (drainPreempted rest st).2.runningScheduled = st.runningScheduled ∧
      (drainPreempted rest st).2.numScheduledTokens = st.numScheduledTokens := by
  induction rest generalizing st with
  | nil => exact ⟨rfl, rfl⟩
  | cons reqId rest ih =>
      simp only [drainPreempted, Scheduler.preemptRequest]
      split <;> exact ih _

theorem confidencePass_moves {maxDroppedConfidence : ℚ}
    (h : st.confidencePass cfg = .ok (st', maxDroppedConfidence)) :
    Moves cfg st st' ∧ st'.runningScheduled = st.runningScheduled ∧
      st'.numScheduledTokens = st.numScheduledTokens := by
  unfold confidencePass at h
  split_ifs at h
  · simp only [bind_eq_ok, pure_eq_ok, Prod.exists, Prod.mk.injEq] at h
    obtain ⟨passed, _, -, rfl, -⟩ := h
    exact ⟨.single (.setPassed passed), rfl, rfl⟩
  · cases h
    exact ⟨.refl, rfl, rfl⟩

theorem waitingPass_moves {estimate : MemoryEstimate} (h : st.waitingPass cfg estimate = .ok st') :
    WaitingMoves cfg st st' := by
  unfold waitingPass at h
  split_ifs at h with hgo
  · simpa using waitingLoop_moves hgo.1 h
  · cases h
    exact .refl

/-- The passes over the requests that have been admitted before. -/
theorem runningPasses_moves {st₁ : Scheduling} {maxDroppedConfidence : ℚ}
    (hnodup : st.runningScheduled.Nodup) (hnone : st.numScheduledTokens = [])
    (hpassed : st.drainPass.confidencePass cfg = .ok (st₁, maxDroppedConfidence))
    (hrun : runningLoop cfg st₁.runningScheduled.length 0 st₁ = .ok st') : Moves cfg st st' := by
  have hdrain : Moves cfg st st.drainPass := drainPreempted_moves [] st.toBePreempted st
  obtain ⟨hrunning, hscheduled⟩ := drainPreempted_frame st.toBePreempted st
  obtain ⟨hto, hrunning', hscheduled'⟩ := confidencePass_moves hpassed
  have hrunning₁ : st₁.runningScheduled = st.runningScheduled := hrunning'.trans hrunning
  have hscheduled₁ : st₁.numScheduledTokens = [] := (hscheduled'.trans hscheduled).trans hnone
  have hloop := (runningLoop_moves (by rwa [hrunning₁]) (by simp [scheduled, hscheduled₁]) hrun).moves
  exact (hdrain.trans hto).trans hloop

/-- What the scheduler chooses, it chooses by moves. -/
theorem selectRequests_moves {maxDroppedConfidence : ℚ} (hnodup : st.runningScheduled.Nodup)
    (hnone : st.numScheduledTokens = [])
    (h : selectRequests cfg st = .ok (st', maxDroppedConfidence)) : Moves cfg st st' := by
  simp only [selectRequests, bind_eq_ok, pure_eq_ok, Prod.exists, Prod.mk.injEq] at h
  obtain ⟨st₁, _, hpassed, st₂, hrun, estimate, -, st₃, hwait, rfl, -⟩ := h
  exact (runningPasses_moves hnodup hnone hpassed hrun).trans (waitingPass_moves hwait).moves

theorem Move.requests (hmove : Move cfg st st') : st'.requests = st.requests := by
  cases hmove with
  | drain hmove => cases hmove <;> rfl
  | setPassed => rfl
  | running hmove =>
      cases hmove with
      | evict => exact preempt_requests _ _ _
      | assign => exact assignRunning_requests _ _ _ _ _
      | _ => rfl
  | waiting hmove => cases hmove <;> rfl

theorem Move.finishedReqIds (hmove : Move cfg st st') :
    st'.finishedReqIds = st.finishedReqIds := by
  cases hmove with
  | drain hmove => cases hmove <;> rfl
  | setPassed => rfl
  | running hmove =>
      cases hmove with
      | evict =>
          unfold preempt
          split <;> rfl
      | assign reqId realToken => cases realToken <;> rfl
      | _ => rfl
  | waiting hmove => cases hmove <;> rfl

theorem moves_requests (hmoves : Moves cfg st st') : st'.requests = st.requests := by
  induction hmoves with
  | refl => rfl
  | tail _ hmove ih => exact hmove.requests.trans ih

theorem moves_finishedReqIds (hmoves : Moves cfg st st') :
    st'.finishedReqIds = st.finishedReqIds := by
  induction hmoves with
  | refl => rfl
  | tail _ hmove ih => exact hmove.finishedReqIds.trans ih

end Scheduling

end Spexis
