import Mathlib.Logic.Relation
import Spexis.Library.Lists
import Spexis.Model.V1.EngineCore

/-! # What one call of the vanilla `schedule` can do

As for the speculative scheduler, a call is a sequence of moves, each of which concerns
one request. -/

namespace Spexis.V1

open Python Relation

namespace Scheduling

/-- The requests scheduled so far. -/
def scheduled (st : Scheduling) : List ReqId :=
  st.numScheduledTokens.map Prod.fst

/-! ## Encoder inputs -/

theorem tryScheduleEncoderInputsLoop_bounds (cfg : Config) (e : EncoderCacheManager)
    (reqId : ReqId) (r : Request) (numComputedTokens : ℕ) {numNewTokens : ℤ}
    (hnew : 0 ≤ numNewTokens) (positions : List PlaceholderRange) (i : ℕ) (encoderBudget : ℤ) :
    0 ≤ (tryScheduleEncoderInputsLoop cfg e reqId r numComputedTokens numNewTokens positions i
        encoderBudget).2.1 ∧
      (tryScheduleEncoderInputsLoop cfg e reqId r numComputedTokens numNewTokens positions i
        encoderBudget).2.1 ≤ numNewTokens := by
  induction positions generalizing i encoderBudget with
  | nil => exact ⟨hnew, le_rfl⟩
  | cons position positions ih =>
      simp only [tryScheduleEncoderInputsLoop]
      split_ifs with hbehind hcached hchunked hfull hbefore
      · exact ⟨hnew, le_rfl⟩
      · exact ih _ _
      · simp only
        omega
      · simp only
        omega
      · exact ⟨le_rfl, hnew⟩
      · exact ih _ _

/-- Encoder inputs can only lower the number of tokens. -/
theorem tryScheduleEncoderInputs_bounds (cfg : Config) (st : Scheduling) (reqId : ReqId)
    (numComputedTokens : ℕ) {numNewTokens : ℤ} (hnew : 0 ≤ numNewTokens) :
    0 ≤ (st.tryScheduleEncoderInputs cfg reqId numComputedTokens numNewTokens).2.1 ∧
      (st.tryScheduleEncoderInputs cfg reqId numComputedTokens numNewTokens).2.1 ≤
        numNewTokens := by
  unfold tryScheduleEncoderInputs
  dsimp only
  split_ifs
  · exact tryScheduleEncoderInputsLoop_bounds cfg _ _ _ _ hnew _ _ _
  · exact ⟨hnew, le_rfl⟩

/-! ## Moves -/

/-- The last running request has gone back to the waiting queue. -/
def preempted (st : Scheduling) (running : List ReqId) (reqId : ReqId) (kv : KVCacheManager) :
    Scheduling :=
  { st with
    request := Function.update st.request reqId { st.request reqId with
      status := .preempted
      numComputedTokens := 0 }
    running := running
    waiting := reqId :: st.waiting
    kvCacheManager := kv
    preemptedReqs := st.preemptedReqs ++ [reqId] }

/-- A running request has been scheduled. -/
def assigned (st : Scheduling) (reqId : ReqId) (n : ℕ) (blocks : List BlockId)
    (inputs : List ℕ) (encoderBudget : ℤ) (kv : KVCacheManager) : Scheduling :=
  ((assignRunning { st with kvCacheManager := kv } reqId n blocks).assignSpecTokens reqId
    n).assignEncoderInputs reqId inputs encoderBudget

/-- The request as the admission sees it: a compiled grammar has ended its wait. -/
def ready (r : Request) : Request :=
  if r.status = .waitingForFsm then { r with status := .waiting } else r

/-- A waiting request has been admitted. -/
def admitted (cfg : Config) (st : Scheduling) (waiting : List ReqId) (reqId : ReqId)
    (numComputedTokens n : ℕ) (blocks : List BlockId) (inputs : List ℕ) (encoderBudget : ℤ)
    (kv : KVCacheManager) : Scheduling :=
  let r := st.request reqId
  assignEncoderInputs { st.assignLora cfg r with
    request := Function.update st.request reqId { r with
      status := .running
      numComputedTokens := numComputedTokens }
    waiting := waiting
    running := st.running ++ [reqId]
    scheduledReqIds := setAdd st.scheduledReqIds reqId
    kvCacheManager := kv
    scheduledNewReqs :=
      if r.status = .preempted then st.scheduledNewReqs else st.scheduledNewReqs ++ [reqId]
    scheduledResumedReqs :=
      if r.status = .preempted then st.scheduledResumedReqs ++ [reqId]
      else st.scheduledResumedReqs
    reqToNewBlockIds := dictSet st.reqToNewBlockIds reqId blocks
    numScheduledTokens := dictSet st.numScheduledTokens reqId n
    tokenBudget := st.tokenBudget - n } reqId inputs encoderBudget

/-- A running request. -/
inductive RunningMove (cfg : Config) (st : Scheduling) : Scheduling → Prop where
  /-- An allocation that finds too few free blocks. -/
  | allocFail (reqId : ReqId) (n : ℕ) (kv : KVCacheManager) (hmem : reqId ∈ st.running)
      (hidle : reqId ∉ st.scheduledReqIds) (hpos : 0 < n)
      (hn : (n : ℤ) ≤ (st.request reqId).numTokensWithSpec - (st.request reqId).numComputedTokens)
      (halloc : st.kvCacheManager.allocateSlots cfg.kvCache reqId (st.request reqId) n []
        cfg.scheduler.numLookaheadTokens = .ok (none, kv)) :
      RunningMove cfg st { st with kvCacheManager := kv }
  | preempt (reqId : ReqId) (running : List ReqId) (kv : KVCacheManager)
      (hlast : st.running = running ++ [reqId]) (hsched : reqId ∉ st.scheduled)
      (hfree : st.kvCacheManager.free cfg.kvCache reqId = .ok kv) :
      RunningMove cfg st (st.preempted running reqId kv)
  | assign (reqId : ReqId) (n : ℕ) (blocks : List BlockId) (inputs : List ℕ) (encoderBudget : ℤ)
      (kv : KVCacheManager) (hmem : reqId ∈ st.running) (hidle : reqId ∉ st.scheduledReqIds)
      (hsched : reqId ∉ st.scheduled) (hpos : 0 < n)
      (hn : (n : ℤ) ≤ (st.request reqId).numTokensWithSpec - (st.request reqId).numComputedTokens)
      (hencoder : ∃ n₀, st.tryScheduleEncoderInputs cfg reqId (st.request reqId).numComputedTokens
        n₀ = (inputs, (n : ℤ), encoderBudget))
      (halloc : st.kvCacheManager.allocateSlots cfg.kvCache reqId (st.request reqId) n []
        cfg.scheduler.numLookaheadTokens = .ok (some blocks, kv)) :
      RunningMove cfg st (st.assigned reqId n blocks inputs encoderBudget kv)

/-- A waiting request. -/
inductive WaitingMove (cfg : Config) (st : Scheduling) : Scheduling → Prop where
  /-- The grammar of a request that is not admitted after all has been found compiled. -/
  | markReady (reqId : ReqId) (hmem : reqId ∈ st.waiting) :
      WaitingMove cfg st
        { st with request := Function.update st.request reqId (ready (st.request reqId)) }
  /-- The search for cached blocks, which may record the hashes of the request. -/
  | searchCache (reqId : ReqId) (result : List BlockId × ℕ) (kv : KVCacheManager)
      (hmem : reqId ∈ st.waiting)
      (hsearch : st.kvCacheManager.getComputedBlocks cfg.kvCache reqId (st.request reqId) =
        .ok (result, kv)) :
      WaitingMove cfg st { st with kvCacheManager := kv }
  /-- There are too few free blocks for the request. -/
  | refused (reqId : ReqId) (n numComputedTokens : ℕ) (computedBlocks : List BlockId)
      (kv₀ kv : KVCacheManager) (hmem : reqId ∈ st.waiting)
      (hsearch : st.kvCacheManager.getComputedBlocks cfg.kvCache reqId (st.request reqId) =
        .ok ((computedBlocks, numComputedTokens), kv₀)) (hpos : 0 < n)
      (hn : (n : ℤ) ≤ (st.request reqId).numTokens - numComputedTokens)
      (halloc : kv₀.allocateSlots cfg.kvCache reqId (st.request reqId) n computedBlocks 0 =
        .ok (none, kv)) :
      WaitingMove cfg st { st with kvCacheManager := kv }
  | admission (reqId : ReqId) (xs ys : List ReqId) (n numComputedTokens : ℕ)
      (computedBlocks blocks : List BlockId) (inputs : List ℕ) (encoderBudget : ℤ)
      (kv₀ kv : KVCacheManager)
      (hwaiting : st.waiting = xs ++ reqId :: ys) (hnone : st.preemptedReqs = [])
      (hstatus : (st.request reqId).status = .waiting ∨ (st.request reqId).status = .preempted)
      (hsearch : st.kvCacheManager.getComputedBlocks cfg.kvCache reqId (st.request reqId) =
        .ok ((computedBlocks, numComputedTokens), kv₀)) (hpos : 0 < n)
      (hn : (n : ℤ) ≤ (st.request reqId).numTokens - numComputedTokens)
      (hencoder : ∃ n₀, st.tryScheduleEncoderInputs cfg reqId numComputedTokens n₀ =
        (inputs, (n : ℤ), encoderBudget))
      (halloc : kv₀.allocateSlots cfg.kvCache reqId (st.request reqId) n computedBlocks 0 =
        .ok (some blocks, kv)) :
      WaitingMove cfg st (st.admitted cfg (xs ++ ys) reqId numComputedTokens n
        (computedBlocks ++ blocks) inputs encoderBudget kv)

inductive Move (cfg : Config) (st : Scheduling) : Scheduling → Prop where
  | running {st' : Scheduling} : RunningMove cfg st st' → Move cfg st st'
  | setLoras (loras : List ℤ) : Move cfg st { st with scheduledLoras := loras }
  | waiting {st' : Scheduling} : WaitingMove cfg st st' → Move cfg st st'

/-- Any number of moves of running requests. -/
abbrev RunningMoves (cfg : Config) : Scheduling → Scheduling → Prop :=
  ReflTransGen (RunningMove cfg)

/-- Any number of moves of waiting requests. -/
abbrev WaitingMoves (cfg : Config) : Scheduling → Scheduling → Prop :=
  ReflTransGen (WaitingMove cfg)

/-- Any number of moves. -/
abbrev Moves (cfg : Config) : Scheduling → Scheduling → Prop :=
  ReflTransGen (Move cfg)

/-! ## Field lemmas -/

section Assigned

variable (st : Scheduling) (reqId : ReqId) (n : ℕ) (blocks : List BlockId) (inputs : List ℕ)
  (encoderBudget : ℤ) (kv : KVCacheManager)

/-- Only the encoder's fields change. -/
theorem assignEncoderInputs_eq : ∃ encoderInputs encoderCacheManager budget,
    st.assignEncoderInputs reqId inputs encoderBudget = { st with
      scheduledEncoderInputs := encoderInputs
      encoderCacheManager := encoderCacheManager
      encoderBudget := budget } := by
  unfold assignEncoderInputs
  split_ifs
  · exact ⟨_, _, _, rfl⟩
  · exact ⟨_, _, _, rfl⟩

/-- The request once its scheduled drafts have been cut to size. -/
def trimSpecTokens (r : Request) (n : ℕ) : Request :=
  if r.specTokenIds ≠ [] ∧ (n + r.numComputedTokens - r.numTokens : ℤ) > 0 then
    { r with specTokenIds := r.specTokenIds.take (n + r.numComputedTokens - r.numTokens : ℤ).toNat }
  else r

theorem assigned_eq : ∃ specDecodeTokens encoderInputs encoderCacheManager budget,
    st.assigned reqId n blocks inputs encoderBudget kv = { st with
      request := Function.update st.request reqId (trimSpecTokens (st.request reqId) n)
      scheduledReqIds := setAdd st.scheduledReqIds reqId
      kvCacheManager := kv
      scheduledRunningReqs := st.scheduledRunningReqs ++ [reqId]
      reqToNewBlockIds := dictSet st.reqToNewBlockIds reqId blocks
      numScheduledTokens := dictSet st.numScheduledTokens reqId n
      tokenBudget := st.tokenBudget - n
      scheduledSpecDecodeTokens := specDecodeTokens
      scheduledEncoderInputs := encoderInputs
      encoderCacheManager := encoderCacheManager
      encoderBudget := budget } := by
  have hspec : ∃ specDecodeTokens,
      (assignRunning { st with kvCacheManager := kv } reqId n blocks).assignSpecTokens reqId n =
      { st with
        request := Function.update st.request reqId (trimSpecTokens (st.request reqId) n)
        scheduledReqIds := setAdd st.scheduledReqIds reqId
        kvCacheManager := kv
        scheduledRunningReqs := st.scheduledRunningReqs ++ [reqId]
        reqToNewBlockIds := dictSet st.reqToNewBlockIds reqId blocks
        numScheduledTokens := dictSet st.numScheduledTokens reqId n
        tokenBudget := st.tokenBudget - n
        scheduledSpecDecodeTokens := specDecodeTokens } := by
    unfold assignSpecTokens trimSpecTokens
    dsimp only [assignRunning]
    split_ifs
    · exact ⟨_, rfl⟩
    · exact ⟨_, by rw [Function.update_eq_self]⟩
  obtain ⟨specDecodeTokens, hspec⟩ := hspec
  obtain ⟨encoderInputs, encoderCacheManager, budget, hencoder⟩ := assignEncoderInputs_eq
    ((assignRunning { st with kvCacheManager := kv } reqId n blocks).assignSpecTokens reqId n)
    reqId inputs encoderBudget
  refine ⟨specDecodeTokens, encoderInputs, encoderCacheManager, budget, ?_⟩
  rw [assigned, hencoder, hspec]

end Assigned

theorem assignLora_eq (cfg : Config) (st : Scheduling) (r : Request) :
    ∃ loras, st.assignLora cfg r = { st with scheduledLoras := loras } := by
  unfold assignLora
  split
  · exact ⟨_, rfl⟩
  · exact ⟨_, rfl⟩

theorem admitted_eq (cfg : Config) (st : Scheduling) (waiting : List ReqId) (reqId : ReqId)
    (numComputedTokens n : ℕ) (blocks : List BlockId) (inputs : List ℕ) (encoderBudget : ℤ)
    (kv : KVCacheManager) : ∃ newReqs resumedReqs loras encoderInputs encoderCacheManager budget,
    admitted cfg st waiting reqId numComputedTokens n blocks inputs encoderBudget kv = { st with
      request := Function.update st.request reqId { st.request reqId with
        status := .running
        numComputedTokens := numComputedTokens }
      waiting := waiting
      running := st.running ++ [reqId]
      scheduledReqIds := setAdd st.scheduledReqIds reqId
      kvCacheManager := kv
      scheduledNewReqs := newReqs
      scheduledResumedReqs := resumedReqs
      scheduledLoras := loras
      reqToNewBlockIds := dictSet st.reqToNewBlockIds reqId blocks
      numScheduledTokens := dictSet st.numScheduledTokens reqId n
      tokenBudget := st.tokenBudget - n
      scheduledEncoderInputs := encoderInputs
      encoderCacheManager := encoderCacheManager
      encoderBudget := budget } := by
  obtain ⟨loras, hlora⟩ := assignLora_eq cfg st (st.request reqId)
  unfold admitted
  dsimp only
  rw [hlora]
  obtain ⟨encoderInputs, encoderCacheManager, budget, hencoder⟩ := assignEncoderInputs_eq
    { st with
      request := Function.update st.request reqId { st.request reqId with
        status := .running
        numComputedTokens := numComputedTokens }
      waiting := waiting
      running := st.running ++ [reqId]
      scheduledReqIds := setAdd st.scheduledReqIds reqId
      kvCacheManager := kv
      scheduledNewReqs :=
        if (st.request reqId).status = .preempted then st.scheduledNewReqs
        else st.scheduledNewReqs ++ [reqId]
      scheduledResumedReqs :=
        if (st.request reqId).status = .preempted then st.scheduledResumedReqs ++ [reqId]
        else st.scheduledResumedReqs
      scheduledLoras := loras
      reqToNewBlockIds := dictSet st.reqToNewBlockIds reqId blocks
      numScheduledTokens := dictSet st.numScheduledTokens reqId n
      tokenBudget := st.tokenBudget - n } reqId inputs encoderBudget
  exact ⟨_, _, _, _, _, _, hencoder⟩

/-! ## The running requests -/

variable {cfg : Config} {st st' : Scheduling} {reqId : ReqId}

theorem preemptLast_eq_ok (h : st.preemptLast cfg reqId = .ok st') :
    ∃ kv, st.kvCacheManager.free cfg.kvCache reqId = .ok kv ∧
      st' = st.preempted st.running.dropLast reqId kv := by
  simp only [preemptLast, bind_eq_ok, pure_eq_ok] at h
  obtain ⟨kv, hfree, rfl⟩ := h
  exact ⟨kv, hfree, rfl⟩

/-- What the preemptions before an allocation leave as it was. -/
structure RoomMade (cfg : Config) (reqId : ReqId) (st st' : Scheduling) : Prop where
  moves : RunningMoves cfg st st'
  running : st'.running <+: st.running
  request : st'.request reqId = st.request reqId
  scheduledReqIds : st'.scheduledReqIds = st.scheduledReqIds
  numScheduledTokens : st'.numScheduledTokens = st.numScheduledTokens
  encoderCacheManager : st'.encoderCacheManager = st.encoderCacheManager
  encoderBudget : st'.encoderBudget = st.encoderBudget

theorem RoomMade.trans {st₁ st₂ st₃ : Scheduling} (h : RoomMade cfg reqId st₁ st₂)
    (h' : RoomMade cfg reqId st₂ st₃) : RoomMade cfg reqId st₁ st₃ :=
  ⟨h.moves.trans h'.moves, h'.running.trans h.running, h'.request.trans h.request,
    h'.scheduledReqIds.trans h.scheduledReqIds, h'.numScheduledTokens.trans h.numScheduledTokens,
    h'.encoderCacheManager.trans h.encoderCacheManager, h'.encoderBudget.trans h.encoderBudget⟩

theorem RoomMade.scheduled_iff {p : ReqId} (h : RoomMade cfg reqId st st') :
    p ∈ st'.scheduled ↔ p ∈ st.scheduled := by
  rw [scheduled, h.numScheduledTokens, scheduled]

theorem RoomMade.tryScheduleEncoderInputs (h : RoomMade cfg reqId st st')
    (numComputedTokens : ℕ) (numNewTokens : ℤ) :
    st'.tryScheduleEncoderInputs cfg reqId numComputedTokens numNewTokens =
      st.tryScheduleEncoderInputs cfg reqId numComputedTokens numNewTokens := by
  simp only [Scheduling.tryScheduleEncoderInputs, h.request, h.encoderCacheManager,
    h.encoderBudget]

/-- The inner loop: the allocation that succeeds in the end, or nothing but preemptions. -/
theorem allocateWithPreemption_moves {n fuel i : ℕ} {result : Option (List BlockId)}
    (hi : st.running[i]? = some reqId) (hidle : reqId ∉ st.scheduledReqIds)
    (hsched : ∀ p ∈ st.running.drop i, p ∉ st.scheduled) (hpos : 0 < n)
    (hn : (n : ℤ) ≤ (st.request reqId).numTokensWithSpec - (st.request reqId).numComputedTokens)
    (h : allocateWithPreemption cfg reqId n fuel st = .ok (result, st')) :
    match result with
    | some blocks => ∃ st₁ kv, RoomMade cfg reqId st st₁ ∧ st₁.running[i]? = some reqId ∧
        st₁.kvCacheManager.allocateSlots cfg.kvCache reqId (st₁.request reqId) n []
          cfg.scheduler.numLookaheadTokens = .ok (some blocks, kv) ∧
        st' = { st₁ with kvCacheManager := kv }
    | none => RunningMoves cfg st st' := by
  induction fuel generalizing st with
  | zero => cases h
  | succ fuel ih =>
      simp only [allocateWithPreemption, bind_eq_ok, Prod.exists] at h
      obtain ⟨newBlocks, kv, halloc, h⟩ := h
      cases newBlocks with
      | some blocks =>
          simp only [pure_eq_ok, Prod.mk.injEq] at h
          obtain ⟨rfl, rfl⟩ := h
          exact ⟨st, kv, ⟨.refl, List.prefix_rfl, rfl, rfl, rfl, rfl, rfl⟩, hi, halloc, rfl⟩
      | none =>
          have hfail : RunningMove cfg st { st with kvCacheManager := kv } :=
            .allocFail reqId n kv (List.mem_of_getElem? hi) hidle hpos hn halloc
          cases hlast : st.running.getLast? with
          | none => simp [hlast] at h
          | some last =>
              have hmem : last ∈ st.running.drop i :=
                List.getLast?_mem_drop (List.getElem?_eq_some_iff.mp hi).1 hlast
              have hsplit := (List.dropLast_append_getLast? last hlast).symm
              simp only [hlast, bind_eq_ok] at h
              obtain ⟨st₁, hpreempt, h⟩ := h
              obtain ⟨kv₁, hfree, rfl⟩ := preemptLast_eq_ok hpreempt
              have hmove : RunningMove cfg { st with kvCacheManager := kv } _ :=
                .preempt last st.running.dropLast kv₁ hsplit (hsched last hmem) hfree
              have hmoves : RunningMoves cfg st _ := ReflTransGen.head hfail (.single hmove)
              split_ifs at h with hself
              · simp only [pure_eq_ok, Prod.mk.injEq] at h
                obtain ⟨rfl, rfl⟩ := h
                exact hmoves
              · obtain ⟨st₁, hst₁⟩ : ∃ st₁, st₁ = preempted { st with kvCacheManager := kv }
                    st.running.dropLast last kv₁ := ⟨_, rfl⟩
                rw [← hst₁] at h hmoves
                have hrunning : st₁.running = st.running.dropLast := by rw [hst₁]; rfl
                have hroom : RoomMade cfg reqId st st₁ := by
                  refine ⟨hmoves, hrunning ▸ List.dropLast_prefix _, ?_, ?_, ?_, ?_, ?_⟩ <;>
                    rw [hst₁]
                  · exact Function.update_of_ne (fun heq => hself heq.symm) _ _
                  all_goals rfl
                have hrest := ih
                  (by rw [hrunning]; exact List.getElem?_dropLast_of_ne hi hlast hself)
                  (by rwa [hroom.scheduledReqIds])
                  (fun p hp => hroom.scheduled_iff.not.mpr
                    (hsched p (hroom.running.drop_subset i hp)))
                  (by rwa [hroom.request]) h
                cases result with
                | some blocks =>
                    obtain ⟨st₂, kv₂, hroom', hget, halloc', rfl⟩ := hrest
                    exact ⟨st₂, kv₂, hroom.trans hroom', hget, halloc', rfl⟩
                | none => exact hmoves.trans hrest

theorem capNewTokens_le (cfg : Config) (numNewTokens : ℤ) (tokenBudget : ℕ) :
    capNewTokens cfg numNewTokens tokenBudget ≤ numNewTokens := by
  unfold capNewTokens
  dsimp only
  split_ifs with h
  · exact (min_le_left _ _).trans (le_of_lt h.2)
  · exact min_le_left _ _

theorem notMem_drop_succ_of_nodup {xs : List ReqId} {i : ℕ} (hnodup : xs.Nodup)
    (hi : xs[i]? = some reqId) : reqId ∉ xs.drop (i + 1) := by
  obtain ⟨hlen, rfl⟩ := List.getElem?_eq_some_iff.mp hi
  have hsub : (xs.drop i).Nodup := hnodup.sublist (List.drop_sublist i xs)
  rw [List.drop_eq_getElem_cons hlen] at hsub
  exact (List.nodup_cons.mp hsub).1

theorem assigned_frame (st : Scheduling) (reqId : ReqId) (n : ℕ) (blocks : List BlockId)
    (inputs : List ℕ) (encoderBudget : ℤ) (kv : KVCacheManager) :
    (st.assigned reqId n blocks inputs encoderBudget kv).running = st.running ∧
      ∀ p, p ∈ (st.assigned reqId n blocks inputs encoderBudget kv).scheduled ↔
        p ∈ st.scheduled ∨ p = reqId := by
  obtain ⟨_, _, _, _, heq⟩ := st.assigned_eq reqId n blocks inputs encoderBudget kv
  rw [heq]
  exact ⟨rfl, fun p => mem_dictSet_keys⟩

theorem runningLoop_moves {fuel i : ℕ} (hnodup : st.running.Nodup)
    (hsched : ∀ p ∈ st.running.drop i, p ∉ st.scheduled)
    (h : runningLoop cfg fuel i st = .ok st') : RunningMoves cfg st st' := by
  induction fuel generalizing i st with
  | zero =>
      cases h
      exact .refl
  | succ fuel ih =>
      rw [runningLoop] at h
      have hnext : ∀ p ∈ st.running.drop (i + 1), p ∉ st.scheduled := fun p hp =>
        hsched p (List.drop_subset_drop_of_le st.running (Nat.le_succ i) hp)
      split at h
      · cases h
        exact .refl
      next reqId hi =>
        dsimp only at h
        by_cases hbudget : st.tokenBudget = 0
        · rw [if_pos hbudget] at h
          cases h
          exact .refl
        rw [if_neg hbudget] at h
        by_cases hflight : reqId ∈ st.scheduledReqIds
        · rw [if_pos hflight] at h
          exact ih hnodup hnext h
        rw [if_neg hflight] at h
        simp only [bind_eq_ok, pyAssert_eq_ok] at h
        obtain ⟨_, hpos, h⟩ := h
        have hbounds := tryScheduleEncoderInputs_bounds cfg st reqId
          (st.request reqId).numComputedTokens (le_of_lt hpos)
        generalize hencoder : st.tryScheduleEncoderInputs cfg reqId _ _ = encoder at h hbounds
        obtain ⟨inputs, n, encoderBudget⟩ := encoder
        dsimp only at h hbounds
        split_ifs at h with hzero
        · exact ih hnodup hnext h
        simp only [bind_eq_ok, Prod.exists] at h
        obtain ⟨newBlocks, st₁, halloc, h⟩ := h
        have hn : (n.toNat : ℤ) = n := Int.toNat_of_nonneg hbounds.1
        have hn' := hbounds.2.trans (capNewTokens_le cfg _ st.tokenBudget)
        have hmoves := allocateWithPreemption_moves hi hflight hsched (by omega)
          (by rw [hn]; exact hn') halloc
        cases newBlocks with
        | none =>
            simp only [pure_eq_ok] at h
            exact h ▸ hmoves
        | some blocks =>
            obtain ⟨st₂, kv, hroom, hi₂, halloc₂, rfl⟩ := hmoves
            have hmem : reqId ∈ st.running.drop i := List.mem_drop_of_getElem? hi
            rw [← hroom.tryScheduleEncoderInputs, ← hroom.request, ← hn] at hencoder
            have hmove : RunningMove cfg st₂
                (st₂.assigned reqId n.toNat blocks inputs encoderBudget kv) :=
              .assign reqId n.toNat blocks inputs encoderBudget kv (List.mem_of_getElem? hi₂)
                (by rwa [hroom.scheduledReqIds]) (hroom.scheduled_iff.not.mpr (hsched reqId hmem))
                (by omega) (by rw [hroom.request, hn]; exact hn') ⟨_, hencoder⟩ halloc₂
            obtain ⟨hrunning, hscheduled⟩ :=
              st₂.assigned_frame reqId n.toNat blocks inputs encoderBudget kv
            have hnodup₂ := hnodup.sublist hroom.running.sublist
            refine (hroom.moves.tail hmove).trans
              (ih (by rw [hrunning]; exact hnodup₂) (fun p hp => ?_) h)
            rw [hrunning] at hp
            rw [hscheduled]
            rintro (hp' | rfl)
            · exact hnext p (hroom.running.drop_subset _ hp) (hroom.scheduled_iff.mp hp')
            · exact notMem_drop_succ_of_nodup hnodup₂ hi₂ hp

/-! ## The waiting requests -/

theorem admitRequest_eq_ok {numComputedTokens n : ℕ} {computedBlocks newBlocks : List BlockId}
    (inputs : List ℕ) (encoderBudget : ℤ)
    (h : st.admitRequest cfg reqId numComputedTokens n computedBlocks newBlocks = .ok st') :
    ((st.request reqId).status = .waiting ∨ (st.request reqId).status = .preempted) ∧
      st'.assignEncoderInputs reqId inputs encoderBudget =
        st.admitted cfg st.waiting reqId numComputedTokens n (computedBlocks ++ newBlocks) inputs
          encoderBudget st.kvCacheManager := by
  cases hs : (st.request reqId).status <;> simp only [admitRequest, hs] at h <;> cases h
  · refine ⟨.inl rfl, ?_⟩
    unfold admitted assignLora
    simp only [hs]
    split <;> rfl
  · refine ⟨.inr rfl, ?_⟩
    unfold admitted assignLora
    simp only [hs]
    split <;> rfl

theorem admitted_preemptedReqs (waiting : List ReqId) (numComputedTokens n : ℕ)
    (blocks : List BlockId) (inputs : List ℕ) (encoderBudget : ℤ) (kv : KVCacheManager) :
    (st.admitted cfg waiting reqId numComputedTokens n blocks inputs encoderBudget
      kv).preemptedReqs = st.preemptedReqs := by
  obtain ⟨_, _, _, _, _, _, heq⟩ :=
    st.admitted_eq cfg waiting reqId numComputedTokens n blocks inputs encoderBudget kv
  rw [heq]

/-- The queue that an admission leaves does not depend on the queue before it. -/
theorem admitted_setWaiting (waiting waiting' waiting₀ : List ReqId) (numComputedTokens n : ℕ)
    (blocks : List BlockId) (inputs : List ℕ) (encoderBudget : ℤ) (kv kv₀ : KVCacheManager) :
    { admitted cfg { st with kvCacheManager := kv₀ } waiting reqId numComputedTokens n blocks inputs
        encoderBudget kv with waiting := waiting' } =
      admitted cfg { st with waiting := waiting₀ } waiting' reqId numComputedTokens n blocks inputs
        encoderBudget kv := by
  unfold admitted assignEncoderInputs assignLora
  dsimp only
  split_ifs <;> split <;> rfl

@[simp] theorem ready_numTokens (r : Request) : (ready r).numTokens = r.numTokens := by
  unfold ready
  split_ifs <;> rfl

theorem ready_setRequest (st : Scheduling) (reqId : ReqId) :
    (if (st.request reqId).status = .waitingForFsm then
      { st with toScheduler :=
          st.setRequest reqId { st.request reqId with status := .waiting } }
    else st) =
      { st with request := Function.update st.request reqId (ready (st.request reqId)) } := by
  unfold ready
  split_ifs
  · rfl
  · rw [Function.update_eq_self]

theorem waitingLoop_moves {waiting skipped : List ReqId} (hnone : st.preemptedReqs = [])
    (h : waitingLoop cfg waiting skipped st = .ok st') :
    WaitingMoves cfg { st with waiting := skipped.reverse ++ waiting } st' := by
  induction waiting generalizing skipped st with
  | nil =>
      simp only [waitingLoop] at h
      cases h
      simpa using ReflTransGen.refl
  | cons reqId waiting ih =>
      -- the queue as it would be if the loop stopped here
      obtain ⟨start, hstart⟩ : ∃ start : Scheduling,
        start = { st with waiting := skipped.reverse ++ reqId :: waiting } := ⟨_, rfl⟩
      rw [← hstart]
      have hmem : reqId ∈ start.waiting := by simp [hstart]
      rw [waitingLoop] at h
      dsimp only at h
      by_cases hbudget : st.tokenBudget = 0
      · rw [if_pos hbudget] at h
        cases h
        rw [hstart]
      rw [if_neg hbudget] at h
      by_cases hroom : st.running.length = cfg.scheduler.maxNumSeqs
      · rw [if_pos hroom] at h
        cases h
        rw [hstart]
      rw [if_neg hroom] at h
      split at h
      · have hrest := ih hnone h
        rw [hstart]
        simpa using hrest
      rw [ready_setRequest] at h
      have hready : WaitingMove cfg start { start with
          request := Function.update start.request reqId (ready (start.request reqId)) } :=
        .markReady reqId hmem
      obtain ⟨st₁, hst₁⟩ : ∃ st₁ : Scheduling, st₁ = { st with
          request := Function.update st.request reqId (ready (st.request reqId)) } := ⟨_, rfl⟩
      obtain ⟨start₁, hstart₁⟩ : ∃ start₁ : Scheduling,
        start₁ = { st₁ with waiting := skipped.reverse ++ reqId :: waiting } := ⟨_, rfl⟩
      have heq : { start with
          request := Function.update start.request reqId (ready (start.request reqId)) } =
          start₁ := by
        rw [hstart, hstart₁, hst₁]
      rw [heq] at hready
      rw [← hst₁] at h
      have hnone₁ : st₁.preemptedReqs = [] := by rw [hst₁]; exact hnone
      have hmem₁ : reqId ∈ start₁.waiting := by simp [hstart₁]
      refine ReflTransGen.head hready ?_
      split at h
      · have hrest := ih hnone₁ h
        rw [hstart₁]
        simpa using hrest
      simp only [bind_eq_ok, pyAssert_eq_ok, Prod.exists] at h
      obtain ⟨computedBlocks, numComputedTokens, kv₀, hsearch, _, hpos, h⟩ := h
      have hsearch₁ : start₁.kvCacheManager.getComputedBlocks cfg.kvCache reqId
          (start₁.request reqId) = .ok ((computedBlocks, numComputedTokens), kv₀) := by
        rw [hstart₁]
        exact hsearch
      have htokens : (start₁.request reqId).numTokens = (st.request reqId).numTokens := by
        rw [hstart₁, hst₁]
        simp
      have hbounds := tryScheduleEncoderInputs_bounds cfg { st₁ with kvCacheManager := kv₀ } reqId
        numComputedTokens (le_of_lt hpos)
      generalize hencoder :
        tryScheduleEncoderInputs cfg { st₁ with kvCacheManager := kv₀ } reqId _ _ = encoder
        at h hbounds
      obtain ⟨inputs, n, encoderBudget⟩ := encoder
      dsimp only at h hbounds
      split_ifs at h with hzero
      · cases h
        have hmove : WaitingMove cfg start₁ { start₁ with kvCacheManager := kv₀ } :=
          .searchCache reqId _ kv₀ hmem₁ hsearch₁
        rw [hstart₁] at hmove ⊢
        exact .single hmove
      simp only [bind_eq_ok, Prod.exists] at h
      obtain ⟨newBlocks, kv, halloc, h⟩ := h
      have hn : (n.toNat : ℤ) = n := Int.toNat_of_nonneg hbounds.1
      have hn₁ : (n.toNat : ℤ) ≤ (start₁.request reqId).numTokens - numComputedTokens := by
        rw [hn, htokens]
        exact hbounds.2.trans (capNewTokens_le cfg _ st₁.tokenBudget)
      have halloc₁ : kv₀.allocateSlots cfg.kvCache reqId (start₁.request reqId) n.toNat
          computedBlocks 0 = .ok (newBlocks, kv) := by
        rw [hstart₁]
        exact halloc
      cases newBlocks with
      | none =>
          cases h
          have hmove : WaitingMove cfg start₁ { start₁ with kvCacheManager := kv } :=
            .refused reqId n.toNat numComputedTokens computedBlocks kv₀ kv hmem₁ hsearch₁
              (by omega) hn₁ halloc₁
          rw [hstart₁] at hmove ⊢
          exact .single hmove
      | some newBlocks =>
          simp only [bind_eq_ok] at h
          obtain ⟨st₂, hadmitted, h⟩ := h
          obtain ⟨hstatus, heq₂⟩ := admitRequest_eq_ok inputs encoderBudget hadmitted
          rw [heq₂] at h
          have hencoder₁ : ∃ n₀, start₁.tryScheduleEncoderInputs cfg reqId numComputedTokens n₀ =
              (inputs, (n.toNat : ℤ), encoderBudget) := by
            rw [hstart₁, hn]
            exact ⟨_, hencoder⟩
          have hmove : WaitingMove cfg start₁ (start₁.admitted cfg (skipped.reverse ++ waiting)
              reqId numComputedTokens n.toNat (computedBlocks ++ newBlocks) inputs encoderBudget
              kv) :=
            .admission reqId skipped.reverse waiting n.toNat numComputedTokens computedBlocks
              newBlocks inputs encoderBudget kv₀ kv (by rw [hstart₁])
              (by rw [hstart₁]; exact hnone₁) (by rw [hstart₁]; exact hstatus) hsearch₁
              (by omega) hn₁ hencoder₁ halloc₁
          have hrest := ih (by rw [admitted_preemptedReqs]; exact hnone₁) h
          rw [admitted_setWaiting] at hrest
          rw [hstart₁] at hmove ⊢
          exact ReflTransGen.head hmove hrest

/-! ## The call -/

theorem recordLoras_eq_ok (h : st.recordLoras cfg = .ok st') :
    ∃ loras, st' = { st with scheduledLoras := loras } := by
  unfold recordLoras at h
  split at h
  · cases h
    exact ⟨st.scheduledLoras, rfl⟩
  · simp only [bind_eq_ok, pure_eq_ok] at h
    obtain ⟨_, -, rfl⟩ := h
    exact ⟨_, rfl⟩

theorem waitingPass_moves (h : st.waitingPass cfg = .ok st') : WaitingMoves cfg st st' := by
  unfold waitingPass at h
  split_ifs at h with hnone
  · simpa using waitingLoop_moves hnone h
  · cases h
    exact .refl

/-- What the scheduler chooses, it chooses by moves. -/
theorem selectRequests_moves (hnodup : st.running.Nodup) (hnone : st.numScheduledTokens = [])
    (h : st.selectRequests cfg = .ok st') : Moves cfg st st' := by
  simp only [selectRequests, bind_eq_ok] at h
  obtain ⟨st₁, hrun, st₂, hloras, hwait⟩ := h
  have hrunning : RunningMoves cfg st st₁ :=
    runningLoop_moves hnodup (by simp [scheduled, hnone]) hrun
  obtain ⟨loras, rfl⟩ := recordLoras_eq_ok hloras
  have hmoves : Moves cfg st st₁ := ReflTransGen.mono (fun _ _ => .running) _ _ hrunning
  exact (hmoves.tail (.setLoras loras)).trans
    (ReflTransGen.mono (fun _ _ => .waiting) _ _ (waitingPass_moves hwait))

end Scheduling

namespace Scheduler

open Scheduling

/-- What one call of `schedule` leaves behind. -/
structure ScheduleSpec (cfg : Config) (s : Scheduler) (out : SchedulerOutput) (s' : Scheduler)
    (st : Scheduling) : Prop where
  select : (s.startScheduling cfg).selectRequests cfg = .ok st
  moves : Moves cfg (s.startScheduling cfg) st
  numScheduledTokens : out.numScheduledTokens = st.numScheduledTokens
  total : out.totalNumScheduledTokens = (st.numScheduledTokens.map Prod.snd).sum
  scheduledSpecDecodeTokens : out.scheduledSpecDecodeTokens = st.scheduledSpecDecodeTokens
  scheduledEncoderInputs : out.scheduledEncoderInputs = st.scheduledEncoderInputs
  scheduler : s' = advanceComputed st.toScheduler st.numScheduledTokens

theorem schedule_spec {cfg : Config} {s s' : Scheduler} {out : SchedulerOutput}
    (hnodup : s.running.Nodup) (h : s.schedule cfg = .ok (out, s')) :
    ∃ st, ScheduleSpec cfg s out s' st := by
  simp only [schedule, bind_eq_ok, pure_eq_ok, Prod.mk.injEq] at h
  obtain ⟨st, hselect, _, -, out, hout, rfl, rfl⟩ := h
  simp only [makeOutput, bind_eq_ok, pure_eq_ok] at hout
  obtain ⟨_, -, _, -, _, -, _, -, rfl⟩ := hout
  exact ⟨st, hselect, selectRequests_moves hnodup rfl hselect, rfl, rfl, rfl, rfl, rfl⟩

theorem ScheduleSpec.preemptions {cfg : Config} {s s' : Scheduler} {out : SchedulerOutput}
    {st : Scheduling} (h : ScheduleSpec cfg s out s' st) :
    s.preemptions cfg = st.preemptedReqs := by
  rw [Scheduler.preemptions, h.select]

end Scheduler

end Spexis.V1
