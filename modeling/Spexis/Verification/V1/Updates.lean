import Spexis.Model.V1.EngineCore
import Spexis.Verification.V1.EncoderCache

/-! # The effect of a model output

`update_from_output` takes the running requests of the batch one at a time: the generated tokens
are appended, and a request that stops is freed. -/

namespace Spexis.V1

open Python

/-! ## Exceptions -/

theorem FreeKVCacheBlockQueue.append_ne_keyError (queue : FreeKVCacheBlockQueue) (b : BlockId) :
    queue.append b ≠ .error .keyError := by
  unfold append
  cases queue.freeListTail with
  | some t => nofun
  | none => simp only [ne_eq, bind_eq_error, pyAssert_eq_error, reduceCtorEq, and_false,
      pure_eq_error, exists_false, or_self, not_false_eq_true]

theorem BlockPool.freeBlocks_ne_keyError (blocks : List BlockId) (p : BlockPool) :
    freeBlocks blocks p ≠ .error .keyError := by
  induction blocks generalizing p with
  | nil => nofun
  | cons b blocks ih =>
      simp only [freeBlocks, ne_eq, bind_eq_error, not_or, not_exists, not_and]
      refine ⟨fun h => ?_, fun p' _ => ih p'⟩
      unfold freeBlock at h
      dsimp only at h
      split_ifs at h
      · simp only [bind_eq_error, pure_eq_error, and_false, exists_false, or_false] at h
        exact FreeKVCacheBlockQueue.append_ne_keyError _ _ h

theorem KVCacheManager.free_ne_keyError (cfg : KVCacheConfig) (m : KVCacheManager)
    (reqId : ReqId) : m.free cfg reqId ≠ .error .keyError := by
  simp only [free, ne_eq, bind_eq_error, pure_eq_error, and_false, exists_false, or_false]
  exact BlockPool.freeBlocks_ne_keyError _ _

theorem pyGet_ne_keyError {α : Type*} (xs : List α) (i : ℤ) : pyGet xs i ≠ .error .keyError := by
  unfold pyGet
  split <;> nofun

/-! ## The generated tokens -/

/-- The request with more generated tokens. -/
def Request.appended (r : Request) (tokenIds : List TokenId) (status : RequestStatus)
    (stopReason : Option TokenId) : Request :=
  { r with
    outputTokenIds := r.outputTokenIds ++ tokenIds
    allTokenIds := r.allTokenIds ++ tokenIds
    status := status
    stopReason := stopReason }

namespace Scheduler

variable {cfg : Config} {s s' : Scheduler} {reqId : ReqId} {r r' : Request}

theorem checkStop_eq_ok {stopped : Bool} (h : checkStop cfg r = .ok (stopped, r')) :
    ∃ status stopReason, r' = { r with status := status, stopReason := stopReason } ∧
      (stopped = false → r' = r) ∧ (stopped = true → status.isFinished = true) := by
  unfold checkStop at h
  split_ifs at h with hlength
  · cases h
    exact ⟨_, r.stopReason, rfl, nofun, fun _ => rfl⟩
  · simp only [bind_eq_ok] at h
    obtain ⟨lastTokenId, -, h⟩ := h
    split_ifs at h
    · cases h
      exact ⟨_, r.stopReason, rfl, nofun, fun _ => rfl⟩
    · cases h
      exact ⟨_, _, rfl, nofun, fun _ => rfl⟩
    · cases h
      exact ⟨_, _, rfl, fun _ => rfl, nofun⟩

theorem checkStop_ne_keyError (cfg : Config) (r : Request) :
    checkStop cfg r ≠ .error .keyError := by
  unfold checkStop
  split_ifs
  · nofun
  · simp only [ne_eq, bind_eq_error, not_or, not_exists, not_and]
    refine ⟨pyGet_ne_keyError _ _, fun lastTokenId _ => ?_⟩
    split_ifs <;> nofun

/-- The scheduler without a request that has stopped. -/
def freed (s : Scheduler) (reqId : ReqId) (kv : KVCacheManager) : Scheduler :=
  { s with
    kvCacheManager := kv.freeBlockHashes reqId
    encoderCacheManager := s.encoderCacheManager.free reqId (s.request reqId)
    requests := s.requests.erase reqId
    finishedReqIds := setAdd s.finishedReqIds reqId }

theorem freeRequest_eq_ok (h : s.freeRequest cfg reqId = .ok s') :
    (s.request reqId).isFinished = true ∧ reqId ∈ s.requests ∧
      ∃ kv, s.kvCacheManager.free cfg.kvCache reqId = .ok kv ∧ s' = s.freed reqId kv := by
  simp only [freeRequest, bind_eq_ok, pyAssert_eq_ok] at h
  obtain ⟨_, hfinished, kv, hfree, h⟩ := h
  split_ifs at h with hlive
  · cases h
    exact ⟨hfinished, hlive, kv, hfree, rfl⟩

theorem freeRequest_ne_keyError (hlive : reqId ∈ s.requests) :
    s.freeRequest cfg reqId ≠ .error .keyError := by
  simp only [freeRequest, ne_eq, bind_eq_error, pyAssert_eq_error, reduceCtorEq, and_false,
    false_or, not_exists, not_and, if_pos hlive, pure_eq_error, exists_false, or_false]
  exact fun _ _ => KVCacheManager.free_ne_keyError _ _ _

/-- The tokens up to the one that stops the request are appended. -/
theorem appendTokens_eq_ok {tokenIds newTokenIds : List TokenId} {stopped : Bool}
    (h : appendTokens cfg reqId tokenIds s = .ok (newTokenIds, stopped, s')) :
    ∃ status stopReason s₁, newTokenIds <+: tokenIds ∧
      s₁ = s.setRequest reqId ((s.request reqId).appended newTokenIds status stopReason) ∧
      (stopped = false → newTokenIds = tokenIds ∧ status = (s.request reqId).status ∧
        stopReason = (s.request reqId).stopReason ∧ s' = s₁) ∧
      (stopped = true → newTokenIds ≠ [] ∧ status.isFinished = true ∧
        s₁.freeRequest cfg reqId = .ok s') := by
  induction tokenIds generalizing s newTokenIds with
  | nil =>
      simp only [appendTokens] at h
      cases h
      refine ⟨(s'.request reqId).status, (s'.request reqId).stopReason, s', List.nil_prefix, ?_,
        fun _ => ⟨rfl, rfl, rfl, rfl⟩, fun h => absurd h Bool.false_ne_true⟩
      simp [Request.appended, setRequest]
  | cons tokenId tokenIds ih =>
      simp only [appendTokens, bind_eq_ok, Prod.exists] at h
      obtain ⟨stopped₁, r₁, hcheck, h⟩ := h
      obtain ⟨status, stopReason, rfl, hsame, hfinished⟩ := checkStop_eq_ok hcheck
      cases stopped₁ with
      | true =>
          simp only [ite_true, bind_eq_ok, pure_eq_ok, Prod.mk.injEq] at h
          obtain ⟨s₁, hfree, rfl, rfl, rfl⟩ := h
          exact ⟨status, stopReason, _, List.prefix_cons_iff.mpr (.inr ⟨[], rfl, List.nil_prefix⟩),
            rfl, fun h => absurd h.symm Bool.false_ne_true,
            fun _ => ⟨List.cons_ne_nil _ _, hfinished rfl, hfree⟩⟩
      | false =>
          rw [hsame rfl] at h
          simp only [Bool.false_eq_true, ite_false, bind_eq_ok, pure_eq_ok, Prod.mk.injEq,
            Prod.exists] at h
          obtain ⟨more, stopped₂, s₂, hrest, rfl, rfl, rfl⟩ := h
          obtain ⟨status', stopReason', s₃, hpre, hs₃, hgo, hstop⟩ := ih hrest
          have hs₃' : s₃ = s.setRequest reqId
              ((s.request reqId).appended (tokenId :: more) status' stopReason') := by
            rw [hs₃]
            simp [setRequest, Request.appended, Request.appendOutputTokenId]
          refine ⟨status', stopReason', s₃, List.prefix_cons_iff.mpr (.inr ⟨more, rfl, hpre⟩),
            hs₃', fun hf => ?_, fun ht => ⟨List.cons_ne_nil _ _, (hstop ht).2⟩⟩
          obtain ⟨rfl, hstatus, hreason, hs'⟩ := hgo hf
          refine ⟨rfl, ?_, ?_, hs'⟩
          · rw [hstatus]
            simp [setRequest, Request.appendOutputTokenId]
          · rw [hreason]
            simp [setRequest, Request.appendOutputTokenId]

theorem appendTokens_ne_keyError {tokenIds : List TokenId} (hlive : reqId ∈ s.requests) :
    appendTokens cfg reqId tokenIds s ≠ .error .keyError := by
  induction tokenIds generalizing s with
  | nil => nofun
  | cons tokenId tokenIds ih =>
      simp only [appendTokens, ne_eq, bind_eq_error, not_or, not_exists, not_and]
      refine ⟨checkStop_ne_keyError _ _, fun result _ => ?_⟩
      split_ifs
      · simp only [bind_eq_error, pure_eq_error, and_false, exists_false, or_false]
        exact freeRequest_ne_keyError hlive
      · simp only [bind_eq_error, pure_eq_error, and_false, exists_false, or_false]
        exact ih hlive

/-! ## One request of the batch -/

/-- The request before its tokens are appended. -/
def received (out : SchedulerOutput) (output : ModelRunnerOutput) (reqId : ReqId) (r : Request) :
    Request :=
  setSpecTokenIds output reqId (rejectDrafts out reqId (output.sampledTokenIds reqId) r)

/-- Only the drafts and the number of computed tokens may change. -/
theorem received_eq (out : SchedulerOutput) (output : ModelRunnerOutput) (reqId : ReqId)
    (r : Request) : ∃ numComputedTokens specTokenIds, received out output reqId r =
      { r with numComputedTokens := numComputedTokens, specTokenIds := specTokenIds } := by
  unfold received setSpecTokenIds rejectDrafts
  split <;> split <;> exact ⟨_, _, rfl⟩

@[simp] theorem received_allTokenIds (out : SchedulerOutput) (output : ModelRunnerOutput)
    (reqId : ReqId) (r : Request) :
    (received out output reqId r).allTokenIds = r.allTokenIds := by
  obtain ⟨_, _, heq⟩ := received_eq out output reqId r
  rw [heq]

@[simp] theorem received_promptTokenIds (out : SchedulerOutput) (output : ModelRunnerOutput)
    (reqId : ReqId) (r : Request) :
    (received out output reqId r).promptTokenIds = r.promptTokenIds := by
  obtain ⟨_, _, heq⟩ := received_eq out output reqId r
  rw [heq]

@[simp] theorem received_status (out : SchedulerOutput) (output : ModelRunnerOutput)
    (reqId : ReqId) (r : Request) : (received out output reqId r).status = r.status := by
  obtain ⟨_, _, heq⟩ := received_eq out output reqId r
  rw [heq]

@[simp] theorem received_stopReason (out : SchedulerOutput) (output : ModelRunnerOutput)
    (reqId : ReqId) (r : Request) : (received out output reqId r).stopReason = r.stopReason := by
  obtain ⟨_, _, heq⟩ := received_eq out output reqId r
  rw [heq]

/-- No output is sent without a token. -/
def tokenOutput (reqId : ReqId) (tokenIds : List TokenId) (r : Request) : List EngineCoreOutput :=
  if tokenIds = [] then []
  else [⟨reqId, tokenIds, r.status.getFinishedReason, r.stopReason⟩]

/-- Some cached encoder inputs of the request are freed, and all of them if it stops. -/
def EncoderFreed (s : Scheduler) (reqId : ReqId) (stopped : Bool) (encoder : EncoderCacheManager) :
    Prop :=
  (s.encoderCacheManager.cached reqId).Nodup →
    EncoderCacheManager.Releases reqId (s.request reqId) s.encoderCacheManager encoder ∧
      (stopped = true → encoder.cached reqId = [])

theorem freeEncoderInputs_freed (hmm : r.mmPositions = (s.request reqId).mmPositions) :
    EncoderFreed s reqId false ((s.setRequest reqId r).freeEncoderInputs reqId) := by
  intro hcached
  have hreleases := EncoderCacheManager.freeEncoderInputs_releases (s := s.setRequest reqId r)
    hcached
  rw [show (s.setRequest reqId r).request reqId = r from Function.update_self _ _ _] at hreleases
  exact ⟨hreleases.congr hmm.symm, nofun⟩

theorem EncoderFreed.free {encoder : EncoderCacheManager} (h : EncoderFreed s reqId false encoder)
    (hmm : r.mmPositions = (s.request reqId).mmPositions) :
    EncoderFreed s reqId true (encoder.free reqId r) := by
  intro hcached
  obtain ⟨hreleases, -⟩ := h hcached
  obtain ⟨hrest, hempty⟩ := EncoderCacheManager.free_releases r (hcached.sublist hreleases.sublist)
  exact ⟨hreleases.trans (hrest.congr hmm.symm), fun _ => hempty⟩

/-- One request of the batch; the flag says whether it stops. -/
inductive UpdateMove (cfg : Config) (out : SchedulerOutput) (output : ModelRunnerOutput)
    (s : Scheduler) (reqId : ReqId) : Bool → List EngineCoreOutput → Scheduler → Prop where
  | goesOn (r : Request) (encoder : EncoderCacheManager) (hflight : reqId ∈ s.scheduledReqIds)
      (hencoder : EncoderFreed s reqId false encoder)
      (hr : r = (received out output reqId (s.request reqId)).appended
        (output.sampledTokenIds reqId) (s.request reqId).status (s.request reqId).stopReason) :
      UpdateMove cfg out output s reqId false
        (tokenOutput reqId (output.sampledTokenIds reqId) r)
        { s.setRequest reqId r with
          encoderCacheManager := encoder
          scheduledReqIds := s.scheduledReqIds.erase reqId }
  | stops (r : Request) (tokenIds : List TokenId) (status : RequestStatus)
      (stopReason : Option TokenId) (encoder : EncoderCacheManager) (kv : KVCacheManager)
      (hflight : reqId ∈ s.scheduledReqIds) (hlive : reqId ∈ s.requests)
      (hpre : tokenIds <+: output.sampledTokenIds reqId) (hne : tokenIds ≠ [])
      (hfinished : status.isFinished = true)
      (hfree : s.kvCacheManager.free cfg.kvCache reqId = .ok kv)
      (hencoder : EncoderFreed s reqId true encoder)
      (hr : r = (received out output reqId (s.request reqId)).appended tokenIds status
        stopReason) :
      UpdateMove cfg out output s reqId true (tokenOutput reqId tokenIds r)
        { s.setRequest reqId r with
          kvCacheManager := kv.freeBlockHashes reqId
          encoderCacheManager := encoder
          requests := s.requests.erase reqId
          scheduledReqIds := s.scheduledReqIds.erase reqId
          finishedReqIds := setAdd s.finishedReqIds reqId }

theorem removeScheduled_eq_ok (h : s.removeScheduled reqId = .ok s') :
    reqId ∈ s.scheduledReqIds ∧
      s' = { s with scheduledReqIds := s.scheduledReqIds.erase reqId } := by
  unfold removeScheduled at h
  split_ifs at h with hmem
  · cases h
    exact ⟨hmem, rfl⟩

theorem setRequest_request_self : (s.setRequest reqId r).request reqId = r :=
  Function.update_self _ _ _

theorem setRequest_withEncoder (encoder : EncoderCacheManager) :
    ({ s.setRequest reqId r with encoderCacheManager := encoder } : Scheduler).setRequest reqId r' =
      { s.setRequest reqId r' with encoderCacheManager := encoder } := by
  simp only [setRequest, Function.update_idem]

theorem updateRequest_move {out : SchedulerOutput} {output : ModelRunnerOutput} {stopped : Bool}
    {outputs : List EngineCoreOutput}
    (h : s.updateRequest cfg out output reqId = .ok (stopped, outputs, s')) :
    UpdateMove cfg out output s reqId stopped outputs s' := by
  simp only [updateRequest, bind_eq_ok, pure_eq_ok, Prod.exists, Prod.mk.injEq] at h
  obtain ⟨tokenIds, stopped, s₁, happend, s₂, hremove, rfl, rfl, rfl⟩ := h
  obtain ⟨hflight, rfl⟩ := removeScheduled_eq_ok hremove
  rw [setRequest_withEncoder, setRequest_request_self] at happend
  have hreject : (rejectDrafts out reqId (output.sampledTokenIds reqId)
      (s.request reqId)).mmPositions = (s.request reqId).mmPositions := by
    unfold rejectDrafts
    split <;> rfl
  have hencoder := freeEncoderInputs_freed hreject
  generalize freeEncoderInputs _ reqId = encoder at happend hencoder
  obtain ⟨status, stopReason, s₃, hpre, hs₃, hgo, hstop⟩ := appendTokens_eq_ok happend
  have hself : ({ s.setRequest reqId (received out output reqId (s.request reqId)) with
      encoderCacheManager := encoder } : Scheduler).request reqId =
        received out output reqId (s.request reqId) := Function.update_self _ _ _
  rw [received] at hself
  rw [hself, ← received] at hs₃ hgo
  have hs₃' : s₃ = { s.setRequest reqId ((received out output reqId (s.request reqId)).appended
      tokenIds status stopReason) with encoderCacheManager := encoder } := by
    rw [hs₃, setRequest_withEncoder]
  cases stopped with
  | false =>
      obtain ⟨rfl, rfl, rfl, rfl⟩ := hgo rfl
      rw [hs₃'] at hflight ⊢
      rw [received_status, received_stopReason, setRequest_request_self]
      exact .goesOn _ encoder hflight hencoder rfl
  | true =>
      obtain ⟨hne, hfinished, hfree⟩ := hstop rfl
      obtain ⟨-, hlive, kv, hkv, rfl⟩ := freeRequest_eq_ok hfree
      rw [hs₃'] at hflight hlive hkv ⊢
      simp only [freed, setRequest_request_self]
      obtain ⟨_, _, heq⟩ := received_eq out output reqId (s.request reqId)
      have hfreed : EncoderFreed s reqId true (encoder.free reqId ((received out output reqId
          (s.request reqId)).appended tokenIds status stopReason)) :=
        hencoder.free (by rw [heq]; rfl)
      exact .stops _ tokenIds status stopReason _ kv hflight hlive hpre hne hfinished hkv hfreed
        rfl

theorem appendTokens_scheduledReqIds {tokenIds newTokenIds : List TokenId} {stopped : Bool}
    (h : appendTokens cfg reqId tokenIds s = .ok (newTokenIds, stopped, s')) :
    s'.scheduledReqIds = s.scheduledReqIds := by
  obtain ⟨_, _, s₁, -, rfl, hgo, hstop⟩ := appendTokens_eq_ok h
  cases stopped with
  | false =>
      obtain ⟨-, -, -, rfl⟩ := hgo rfl
      rfl
  | true =>
      obtain ⟨-, -, hfree⟩ := hstop rfl
      obtain ⟨-, -, _, -, rfl⟩ := freeRequest_eq_ok hfree
      rfl

theorem updateRequest_ne_keyError {out : SchedulerOutput} {output : ModelRunnerOutput}
    (hflight : reqId ∈ s.scheduledReqIds) (hlive : reqId ∈ s.requests) :
    s.updateRequest cfg out output reqId ≠ .error .keyError := by
  simp only [updateRequest, ne_eq, bind_eq_error, not_or, not_exists, not_and, pure_eq_error,
    not_false_eq_true, implies_true, and_true]
  refine ⟨appendTokens_ne_keyError hlive, fun result happend hremove => ?_⟩
  have hmem : reqId ∈ result.2.2.scheduledReqIds := by
    have happend' : appendTokens cfg reqId _ _ = .ok (result.1, result.2.1, result.2.2) := happend
    rw [appendTokens_scheduledReqIds happend']
    exact hflight
  simp [removeScheduled, hmem] at hremove

/-! ## The batch -/

/-- The requests of the list one after the other: those that run on, and the outputs. -/
inductive UpdateMoves (cfg : Config) (out : SchedulerOutput) (output : ModelRunnerOutput) :
    Scheduler → List ReqId → List ReqId → List EngineCoreOutput → Scheduler → Prop where
  | nil (s : Scheduler) : UpdateMoves cfg out output s [] [] [] s
  /-- The request is not in the batch. -/
  | skip {s s' : Scheduler} {reqId : ReqId} {running kept : List ReqId}
      {outputs : List EngineCoreOutput} (hskip : out.numScheduled reqId = 0)
      (hrest : UpdateMoves cfg out output s running kept outputs s') :
      UpdateMoves cfg out output s (reqId :: running) (reqId :: kept) outputs s'
  | update {s s₁ s' : Scheduler} {reqId : ReqId} {running kept : List ReqId}
      {outputs outputs' : List EngineCoreOutput} {stopped : Bool}
      (hbatch : out.numScheduled reqId ≠ 0)
      (hmove : UpdateMove cfg out output s reqId stopped outputs s₁)
      (hrest : UpdateMoves cfg out output s₁ running kept outputs' s') :
      UpdateMoves cfg out output s (reqId :: running)
        (if stopped then kept else reqId :: kept) (outputs ++ outputs') s'

theorem updateLoop_moves {out : SchedulerOutput} {output : ModelRunnerOutput}
    {running kept : List ReqId} {outputs : List EngineCoreOutput}
    (h : updateLoop cfg out output running s = .ok (kept, outputs, s')) :
    UpdateMoves cfg out output s running kept outputs s' := by
  induction running generalizing s kept outputs with
  | nil =>
      cases h
      exact .nil _
  | cons reqId running ih =>
      rw [updateLoop] at h
      split_ifs at h with hskip
      · simp only [bind_eq_ok, pure_eq_ok, Prod.exists, Prod.mk.injEq] at h
        obtain ⟨kept₁, outputs₁, s₁, hrest, rfl, rfl, rfl⟩ := h
        exact .skip hskip (ih hrest)
      · simp only [bind_eq_ok, pure_eq_ok, Prod.exists, Prod.mk.injEq] at h
        obtain ⟨stopped, outputs₁, s₁, hupdate, kept₁, outputs₂, s₂, hrest, rfl, rfl, rfl⟩ := h
        exact .update hskip (updateRequest_move hupdate) (ih hrest)

/-- A request of the batch does not touch the bookkeeping of another one. -/
theorem UpdateMove.mem_of_ne {out : SchedulerOutput} {output : ModelRunnerOutput} {stopped : Bool}
    {outputs : List EngineCoreOutput} (h : UpdateMove cfg out output s reqId stopped outputs s')
    {q : ReqId} (hne : q ≠ reqId) :
    (q ∈ s'.scheduledReqIds ↔ q ∈ s.scheduledReqIds) ∧ (q ∈ s'.requests ↔ q ∈ s.requests) := by
  cases h with
  | goesOn => exact ⟨List.mem_erase_of_ne hne, .rfl⟩
  | stops => exact ⟨List.mem_erase_of_ne hne, List.mem_erase_of_ne hne⟩

theorem updateLoop_ne_keyError {out : SchedulerOutput} {output : ModelRunnerOutput}
    {running : List ReqId} (hnodup : running.Nodup)
    (hmem : ∀ q ∈ running, out.numScheduled q ≠ 0 → q ∈ s.scheduledReqIds ∧ q ∈ s.requests) :
    updateLoop cfg out output running s ≠ .error .keyError := by
  induction running generalizing s with
  | nil => nofun
  | cons reqId running ih =>
      obtain ⟨hnotMem, hnodup⟩ := List.nodup_cons.mp hnodup
      rw [updateLoop]
      split_ifs with hskip
      · simp only [ne_eq, bind_eq_error, pure_eq_error, and_false, exists_false, or_false]
        exact ih hnodup (fun q hq => hmem q (List.mem_cons_of_mem _ hq))
      · obtain ⟨hflight, hlive⟩ := hmem reqId List.mem_cons_self hskip
        simp only [ne_eq, bind_eq_error, pure_eq_error, and_false, exists_false, or_false, not_or,
          not_exists, not_and]
        refine ⟨updateRequest_ne_keyError hflight hlive, fun result hupdate => ?_⟩
        have hupdate' : s.updateRequest cfg out output reqId =
            .ok (result.1, result.2.1, result.2.2) := hupdate
        have hmove := updateRequest_move hupdate'
        refine ih hnodup (fun q hq hbatch => ?_)
        have hne : q ≠ reqId := fun heq => hnotMem (heq ▸ hq)
        rw [(hmove.mem_of_ne hne).1, (hmove.mem_of_ne hne).2]
        exact hmem q (List.mem_cons_of_mem _ hq) hbatch

/-! ## What a batch changes -/

/-- The tokens that the outputs hold for a request. -/
def tokensOf (outputs : List EngineCoreOutput) (reqId : ReqId) : List TokenId :=
  (outputs.filter (·.requestId = reqId)).flatMap (·.newTokenIds)

@[simp] theorem tokensOf_append (xs ys : List EngineCoreOutput) (reqId : ReqId) :
    tokensOf (xs ++ ys) reqId = tokensOf xs reqId ++ tokensOf ys reqId := by
  simp [tokensOf]

@[simp] theorem tokensOf_tokenOutput_self (reqId : ReqId) (tokenIds : List TokenId) (r : Request) :
    tokensOf (tokenOutput reqId tokenIds r) reqId = tokenIds := by
  unfold tokenOutput
  split_ifs with h
  · simp [tokensOf, h]
  · simp [tokensOf]

theorem tokensOf_tokenOutput_of_ne {q : ReqId} (hne : q ≠ reqId) (tokenIds : List TokenId)
    (r : Request) : tokensOf (tokenOutput reqId tokenIds r) q = [] := by
  unfold tokenOutput
  split_ifs
  · rfl
  · simp [tokensOf, hne.symm]

/-- Some of the sampled tokens have been appended and sent. -/
structure Grown (output : ModelRunnerOutput) (q : ReqId) (s : Scheduler)
    (outputs : List EngineCoreOutput) (s' : Scheduler) : Prop where
  tokens : ∃ tokenIds, tokenIds <+: output.sampledTokenIds q ∧ tokensOf outputs q = tokenIds ∧
    (s'.request q).allTokenIds = (s.request q).allTokenIds ++ tokenIds
  prompt : (s'.request q).promptTokenIds = (s.request q).promptTokenIds

theorem UpdateMove.grown {out : SchedulerOutput} {output : ModelRunnerOutput} {stopped : Bool}
    {outputs : List EngineCoreOutput} (h : UpdateMove cfg out output s reqId stopped outputs s') :
    Grown output reqId s outputs s' := by
  cases h with
  | goesOn r encoder hflight _ hr =>
      refine ⟨⟨_, List.prefix_rfl, tokensOf_tokenOutput_self _ _ _, ?_⟩, ?_⟩
      · simp [setRequest, hr, Request.appended]
      · simp [setRequest, hr, Request.appended]
  | stops r tokenIds status stopReason encoder kv _ _ hpre _ _ _ _ hr =>
      refine ⟨⟨tokenIds, hpre, tokensOf_tokenOutput_self _ _ _, ?_⟩, ?_⟩
      · simp [setRequest, hr, Request.appended]
      · simp [setRequest, hr, Request.appended]

/-- Another request stays as it is. -/
theorem UpdateMove.request_of_ne {out : SchedulerOutput} {output : ModelRunnerOutput}
    {stopped : Bool} {outputs : List EngineCoreOutput}
    (h : UpdateMove cfg out output s reqId stopped outputs s') {q : ReqId} (hne : q ≠ reqId) :
    s'.request q = s.request q ∧ tokensOf outputs q = [] := by
  cases h with
  | goesOn => exact ⟨Function.update_of_ne hne _ _, tokensOf_tokenOutput_of_ne hne _ _⟩
  | stops => exact ⟨Function.update_of_ne hne _ _, tokensOf_tokenOutput_of_ne hne _ _⟩

theorem UpdateMove.frame {out : SchedulerOutput} {output : ModelRunnerOutput} {stopped : Bool}
    {outputs : List EngineCoreOutput} (h : UpdateMove cfg out output s reqId stopped outputs s') :
    s'.waiting = s.waiting ∧ s'.running = s.running ∧
      s'.scheduledReqIds = s.scheduledReqIds.erase reqId ∧
      s'.requests = (if stopped then s.requests.erase reqId else s.requests) := by
  cases h with
  | goesOn => exact ⟨rfl, rfl, rfl, rfl⟩
  | stops => exact ⟨rfl, rfl, rfl, rfl⟩

/-- The batch changes the requests of the list that are in it. -/
structure Updated (out : SchedulerOutput) (output : ModelRunnerOutput) (running : List ReqId)
    (s : Scheduler) (kept : List ReqId) (outputs : List EngineCoreOutput) (s' : Scheduler) :
    Prop where
  waiting : s'.waiting = s.waiting
  unchanged : s'.running = s.running
  sublist : List.Sublist kept running
  skipped : ∀ q ∈ running, out.numScheduled q = 0 → q ∈ kept
  scheduled_nodup : s'.scheduledReqIds.Nodup
  scheduled : ∀ q, q ∈ s'.scheduledReqIds ↔
    q ∈ s.scheduledReqIds ∧ ¬ (q ∈ running ∧ out.numScheduled q ≠ 0)
  requests_nodup : s'.requests.Nodup
  requests : ∀ q, q ∈ s'.requests ↔ q ∈ s.requests ∧ ¬ (q ∈ running ∧ q ∉ kept)
  grown : ∀ q ∈ running, out.numScheduled q ≠ 0 → Grown output q s outputs s'
  same : ∀ q, ¬ (q ∈ running ∧ out.numScheduled q ≠ 0) →
    s'.request q = s.request q ∧ tokensOf outputs q = []

theorem UpdateMoves.updated {out : SchedulerOutput} {output : ModelRunnerOutput}
    {running kept : List ReqId} {outputs : List EngineCoreOutput}
    (h : UpdateMoves cfg out output s running kept outputs s') (hnodup : running.Nodup)
    (hscheduled : s.scheduledReqIds.Nodup) (hrequests : s.requests.Nodup) :
    Updated out output running s kept outputs s' := by
  induction h with
  | nil s =>
      exact ⟨rfl, rfl, List.Sublist.refl _, fun _ hq _ => hq, hscheduled, by simp, hrequests,
        by simp, by simp, fun _ _ => ⟨rfl, rfl⟩⟩
  | @skip s s' reqId running kept outputs hskip hrest ih =>
      obtain ⟨hnotMem, hnodup⟩ := List.nodup_cons.mp hnodup
      have h := ih hnodup hscheduled hrequests
      refine ⟨h.waiting, h.unchanged, h.sublist.cons_cons _, ?_, h.scheduled_nodup, fun q => ?_,
        h.requests_nodup, fun q => ?_, ?_, ?_⟩
      · intro q hq hzero
        rcases List.mem_cons.mp hq with rfl | hq
        · exact List.mem_cons_self
        · exact List.mem_cons_of_mem _ (h.skipped q hq hzero)
      · rw [h.scheduled]
        by_cases hq : q = reqId
        · subst hq
          simp [hskip]
        · simp [hq]
      · rw [h.requests]
        by_cases hq : q = reqId
        · subst hq
          simp [hnotMem]
        · simp [hq]
      · intro q hq hbatch
        rcases List.mem_cons.mp hq with rfl | hq
        · exact absurd hskip hbatch
        · exact h.grown q hq hbatch
      · intro q hq
        exact h.same q (fun hmem => hq ⟨List.mem_cons_of_mem _ hmem.1, hmem.2⟩)
  | @update s s₁ s' reqId running kept outputs outputs' stopped hbatch hmove hrest ih =>
      obtain ⟨hnotMem, hnodup⟩ := List.nodup_cons.mp hnodup
      obtain ⟨hwaiting, hrunning, hsched, hreq⟩ := hmove.frame
      have h := ih hnodup (hsched ▸ hscheduled.erase reqId)
        (by rw [hreq]; split_ifs; exacts [hrequests.erase reqId, hrequests])
      have hkept : List.Sublist (if stopped then kept else reqId :: kept) (reqId :: running) := by
        split_ifs
        exacts [h.sublist.cons _, h.sublist.cons_cons _]
      have hnotKept : reqId ∉ kept := fun hmem => hnotMem (h.sublist.subset hmem)
      refine ⟨h.waiting.trans hwaiting, h.unchanged.trans hrunning, hkept, ?_, h.scheduled_nodup,
        fun q => ?_, h.requests_nodup, fun q => ?_, ?_, ?_⟩
      · intro q hq hzero
        rcases List.mem_cons.mp hq with rfl | hq
        · exact absurd hzero hbatch
        · have hmem := h.skipped q hq hzero
          split_ifs
          exacts [hmem, List.mem_cons_of_mem _ hmem]
      · rw [h.scheduled, hsched, hscheduled.mem_erase_iff, List.mem_cons]
        by_cases hq : q = reqId
        · subst hq
          simp [hbatch]
        · simp [hq]
      · rw [h.requests, hreq]
        by_cases hq : q = reqId
        · subst hq
          cases stopped <;> simp [hnotMem, hnotKept, hrequests.mem_erase_iff]
        · cases stopped <;> simp [hq, hrequests.mem_erase_iff]
      · intro q hq hin
        by_cases heq : q = reqId
        · subst heq
          obtain ⟨⟨tokenIds, hpre, htokens, hall⟩, hprompt⟩ := hmove.grown
          obtain ⟨hsame, hnone⟩ := h.same q (fun hmem => hnotMem hmem.1)
          exact ⟨⟨tokenIds, hpre, by rw [tokensOf_append, htokens, hnone, List.append_nil],
            by rw [hsame, hall]⟩, by rw [hsame, hprompt]⟩
        · obtain ⟨hsame, hnone⟩ := hmove.request_of_ne heq
          have hq' : q ∈ running := (List.mem_cons.mp hq).resolve_left heq
          obtain ⟨⟨tokenIds, hpre, htokens, hall⟩, hprompt⟩ := h.grown q hq' hin
          exact ⟨⟨tokenIds, hpre, by rw [tokensOf_append, hnone, htokens, List.nil_append],
            by rw [hall, hsame]⟩, by rw [hprompt, hsame]⟩
      · intro q hq
        have hne : q ≠ reqId := fun heq => hq ⟨heq ▸ List.mem_cons_self, heq ▸ hbatch⟩
        obtain ⟨hsame, hnone⟩ := hmove.request_of_ne hne
        obtain ⟨hsame', hnone'⟩ :=
          h.same q (fun hmem => hq ⟨List.mem_cons_of_mem _ hmem.1, hmem.2⟩)
        exact ⟨hsame'.trans hsame, by rw [tokensOf_append, hnone, hnone', List.append_nil]⟩

theorem updateFromOutput_moves {out : SchedulerOutput} {output : ModelRunnerOutput}
    {outputs : List EngineCoreOutput}
    (h : s.updateFromOutput cfg out output = .ok (outputs, s')) :
    ∃ kept s₁, UpdateMoves cfg out output s s.running kept outputs s₁ ∧
      s' = { s₁ with running := kept } := by
  simp only [updateFromOutput, bind_eq_ok, pure_eq_ok, Prod.exists, Prod.mk.injEq] at h
  obtain ⟨kept, outputs, s₁, hloop, rfl, rfl⟩ := h
  exact ⟨kept, s₁, updateLoop_moves hloop, rfl⟩

/-! ## Abortion -/

/-- The scheduler once a request has left its queue. -/
inductive Dequeued (s : Scheduler) (reqId : ReqId) : Scheduler → Prop where
  | running (hmem : reqId ∈ s.running) : Dequeued s reqId { s with
      running := s.running.erase reqId
      scheduledReqIds := s.scheduledReqIds.erase reqId }
  | waiting (hmem : reqId ∈ s.waiting) :
      Dequeued s reqId { s with waiting := s.waiting.erase reqId }

theorem finishRequest_eq_ok {finishedStatus : RequestStatus}
    (h : s.finishRequest cfg finishedStatus reqId = .ok s') :
    s' = s ∨ reqId ∈ s.requests ∧ ∃ s₁ kv, Dequeued s reqId s₁ ∧
      s.kvCacheManager.free cfg.kvCache reqId = .ok kv ∧
      s' = (s₁.setRequest reqId { s.request reqId with status := finishedStatus }).freed reqId
        kv := by
  unfold finishRequest at h
  by_cases hknown : reqId ∈ s.requests
  · rw [if_neg (not_not.mpr hknown)] at h
    split_ifs at h with hstatus hmem hmem
    · rw [ok_bind] at h
      obtain ⟨-, -, kv, hfree, rfl⟩ := freeRequest_eq_ok h
      exact .inr ⟨hknown, _, kv, .running hmem, hfree, rfl⟩
    · cases h
    · rw [ok_bind] at h
      obtain ⟨-, -, kv, hfree, rfl⟩ := freeRequest_eq_ok h
      exact .inr ⟨hknown, _, kv, .waiting hmem, hfree, rfl⟩
    · cases h
  · rw [if_pos hknown] at h
    cases h
    exact .inl rfl

end Scheduler

end Spexis.V1
