import Spexis.Verification.Schedule

/-! # The effect of verification and of draft ingestion

Verification takes the requests of the batch one at a time; a request that stops is
freed and leaves its container. Ingestion changes the scheduled requests only. -/

namespace Spexis

open Python

namespace Scheduler

/-! ## Verification -/

/-- The scheduler without a request that has stopped. -/
def remove (cfg : Config) (s : Scheduler) (reqId : ReqId) : Scheduler :=
  { s with
    kvCacheManager := (s.kvCacheManager.free cfg.kvCache reqId).freeBlockHashes reqId
    cachedReqsData := s.cachedReqsData.erase reqId
    requests := s.requests.erase reqId
    runningScheduled := s.runningScheduled.erase reqId
    toBePreempted := s.toBePreempted.erase reqId
    finishedReqIds := setAdd s.finishedReqIds reqId }

/-- The output of one verified request. -/
def verifiedOutput (reqId : ReqId) (before after : Request) (tokens : List TokenId) :
    List EngineCoreOutput :=
  if before.specResult ≠ some false ∧ tokens ≠ [] then
    [⟨reqId, tokens, after.status.getFinishedReason, after.stopReason⟩]
  else []

/-- The verification of one request of the batch. -/
inductive VerifyMove (cfg : Config) (output : ModelRunnerOutput) (s : Scheduler) (reqId : ReqId) :
    List EngineCoreOutput → Scheduler → Prop where
  | goesOn (r : Request) (tokens : List TokenId)
      (h : verifyTokens cfg (s.request reqId).landed (output.sampledTokenIds reqId) =
        .ok (false, tokens, r)) :
      VerifyMove cfg output s reqId (verifiedOutput reqId (s.request reqId) r tokens)
        (s.setRequest reqId r)
  | stops (r : Request) (tokens : List TokenId)
      (h : verifyTokens cfg (s.request reqId).landed (output.sampledTokenIds reqId) =
        .ok (true, tokens, r)) (hlive : reqId ∈ s.requests) (hfinished : r.isFinished = true) :
      VerifyMove cfg output s reqId (verifiedOutput reqId (s.request reqId) r tokens)
        ((s.setRequest reqId r).remove cfg reqId)

inductive VerifyMoves (cfg : Config) (output : ModelRunnerOutput) :
    Scheduler → List ReqId → List EngineCoreOutput → Scheduler → Prop where
  | nil (s : Scheduler) : VerifyMoves cfg output s [] [] s
  | cons {s s₁ s₂ : Scheduler} {reqId : ReqId} {reqIds : List ReqId}
      {outputs outputs' : List EngineCoreOutput} :
      VerifyMove cfg output s reqId outputs s₁ → VerifyMoves cfg output s₁ reqIds outputs' s₂ →
      VerifyMoves cfg output s (reqId :: reqIds) (outputs ++ outputs') s₂

theorem VerifyMoves.append {cfg : Config} {output : ModelRunnerOutput} {s s₁ s₂ : Scheduler}
    {xs ys : List ReqId} {outputs outputs' : List EngineCoreOutput}
    (h : VerifyMoves cfg output s xs outputs s₁) (h' : VerifyMoves cfg output s₁ ys outputs' s₂) :
    VerifyMoves cfg output s (xs ++ ys) (outputs ++ outputs') s₂ := by
  induction h with
  | nil => exact h'
  | cons hmove _ ih =>
      rw [List.append_assoc]
      exact .cons hmove (ih h')

/-- The scheduler with the stopped requests taken out of the containers already. -/
def Verification.pruned (v : Verification) : Scheduler :=
  { v.scheduler with
    runningScheduled := v.freeReqsScheduled.foldl List.erase v.scheduler.runningScheduled
    toBePreempted := v.freeReqsScheduled.foldl List.erase v.scheduler.toBePreempted }

theorem freeRequest_eq_ok {cfg : Config} {reqId : ReqId} {s s' : Scheduler}
    (h : freeRequest cfg reqId s = .ok s') :
    (s.request reqId).isFinished = true ∧ reqId ∈ s.requests ∧
      s' = { s.remove cfg reqId with
        runningScheduled := s.runningScheduled
        toBePreempted := s.toBePreempted } := by
  simp only [freeRequest, bind_eq_ok, pyAssert_eq_ok] at h
  obtain ⟨_, hfinished, h⟩ := h
  split_ifs at h with hlive
  · cases h
    exact ⟨hfinished, hlive, rfl⟩

theorem pruned_remove (cfg : Config) (v : Verification) (reqId : ReqId) (r : Request)
    (outputs : List EngineCoreOutput) :
    Verification.pruned
      ⟨{ remove cfg (v.scheduler.setRequest reqId r) reqId with
          runningScheduled := v.scheduler.runningScheduled
          toBePreempted := v.scheduler.toBePreempted },
        outputs, v.freeReqsScheduled ++ [reqId]⟩ = remove cfg (v.pruned.setRequest reqId r) reqId := by
  simp [Verification.pruned, remove, setRequest]

theorem verifyRequest_move {cfg : Config} {output : ModelRunnerOutput} {reqId : ReqId}
    {v v' : Verification} (h : verifyRequest cfg output reqId v = .ok v') :
    ∃ outputs, VerifyMove cfg output v.pruned reqId outputs v'.pruned ∧
      v'.outputs = v.outputs ++ outputs := by
  simp only [verifyRequest, bind_eq_ok, Prod.exists] at h
  obtain ⟨stopped, tokens, r, hverify, h⟩ := h
  have houtputs : (if (v.scheduler.request reqId).specResult ≠ some false ∧ tokens ≠ [] then
        v.outputs ++ [⟨reqId, tokens, r.status.getFinishedReason, r.stopReason⟩]
      else v.outputs) =
      v.outputs ++ verifiedOutput reqId (v.scheduler.request reqId) r tokens := by
    unfold verifiedOutput
    split_ifs <;> simp
  cases stopped with
  | false =>
      cases h
      exact ⟨_, .goesOn r tokens hverify, houtputs⟩
  | true =>
      simp only [ite_true, bind_eq_ok, pure_eq_ok] at h
      obtain ⟨s, hfree, rfl⟩ := h
      obtain ⟨hfinished, hlive, rfl⟩ := freeRequest_eq_ok hfree
      have hmove : VerifyMove cfg output v.pruned reqId _ _ :=
        .stops r tokens hverify hlive (by simpa [setRequest] using hfinished)
      rw [← pruned_remove] at hmove
      exact ⟨_, hmove, houtputs⟩

/-- The containers are pruned after all requests have been verified. -/
theorem verifyRequest_frame {cfg : Config} {output : ModelRunnerOutput} {reqId : ReqId}
    {v v' : Verification} (h : verifyRequest cfg output reqId v = .ok v') :
    v'.scheduler.runningScheduled = v.scheduler.runningScheduled ∧
      v'.scheduler.toBePreempted = v.scheduler.toBePreempted := by
  simp only [verifyRequest, bind_eq_ok, Prod.exists] at h
  obtain ⟨stopped, tokens, r, -, h⟩ := h
  cases stopped with
  | false =>
      cases h
      exact ⟨rfl, rfl⟩
  | true =>
      simp only [ite_true, bind_eq_ok, pure_eq_ok] at h
      obtain ⟨s, hfree, rfl⟩ := h
      obtain ⟨-, -, rfl⟩ := freeRequest_eq_ok hfree
      exact ⟨rfl, rfl⟩

theorem verifyAndCollect_moves {cfg : Config} {out : SpexisSchedulerOutput}
    {output : ModelRunnerOutput} {reqIds : List ReqId} {v v' : Verification}
    (h : verifyAndCollect cfg out output reqIds v = .ok v') :
    ∃ outputs, VerifyMoves cfg output v.pruned (reqIds.filter (out.numScheduled · ≠ 0)) outputs
        v'.pruned ∧ v'.outputs = v.outputs ++ outputs ∧
      v'.scheduler.runningScheduled = v.scheduler.runningScheduled ∧
      v'.scheduler.toBePreempted = v.scheduler.toBePreempted := by
  induction reqIds generalizing v with
  | nil =>
      cases h
      exact ⟨[], .nil _, by simp, rfl, rfl⟩
  | cons reqId reqIds ih =>
      simp only [verifyAndCollect] at h
      split_ifs at h with hnone
      · simpa [hnone] using ih h
      · simp only [bind_eq_ok] at h
        obtain ⟨v₁, hone, h⟩ := h
        obtain ⟨outputs, hmove, houtputs⟩ := verifyRequest_move hone
        obtain ⟨outputs', hmoves, houtputs', hrunning, htbp⟩ := ih h
        obtain ⟨hrunning₁, htbp₁⟩ := verifyRequest_frame hone
        refine ⟨outputs ++ outputs', ?_, ?_, hrunning.trans hrunning₁, htbp.trans htbp₁⟩
        · rw [List.filter_cons_of_pos (by simpa using hnone)]
          exact .cons hmove hmoves
        · rw [houtputs', houtputs, List.append_assoc]

/-- Each request of the batch that is still live is verified once. -/
theorem updateFromTrueOutput_moves {cfg : Config} {out : SpexisSchedulerOutput}
    {output : ModelRunnerOutput} {s s' : Scheduler} {outputs : List EngineCoreOutput}
    (h : s.updateFromTrueOutput cfg out output = .ok (outputs, s')) :
    VerifyMoves cfg output s
      ((s.runningScheduled ++ s.toBePreempted).filter (out.numScheduled · ≠ 0)) outputs s' := by
  simp only [updateFromTrueOutput, bind_eq_ok, pure_eq_ok, Prod.mk.injEq] at h
  obtain ⟨v₁, hrunning, v₂, htbp, rfl, rfl⟩ := h
  obtain ⟨outputs₁, hmoves₁, houtputs₁, hrun₁, htbp₁⟩ := verifyAndCollect_moves hrunning
  obtain ⟨outputs₂, hmoves₂, houtputs₂, hrun₂, htbp₂⟩ := verifyAndCollect_moves htbp
  rw [List.filter_append, houtputs₂, houtputs₁, List.nil_append]
  have hall := hmoves₁.append hmoves₂
  simpa only [Verification.pruned, hrun₂, htbp₂, hrun₁, htbp₁, List.foldl_nil]
    using hall

/-! ## Draft ingestion -/

theorem updateFromSpecOutput_go {cfg : Config} {out : SpexisSchedulerOutput}
    {output : ModelRunnerOutput} {reqIds : List ReqId} {s s' : Scheduler} (hnodup : reqIds.Nodup)
    (h : updateFromSpecOutput.go cfg out output reqIds s = .ok s') :
    s' = { s with request := s'.request } ∧
      (∀ q, ¬ (q ∈ reqIds ∧ out.numScheduled q ≠ 0) → s'.request q = s.request q) ∧
      ∀ q ∈ reqIds, out.numScheduled q ≠ 0 →
        ingestTokens cfg (output.lengthProbs q) (output.specConfidence q)
          (output.sampledTokenIds q) 0 (s.request q) = .ok (s'.request q) := by
  induction reqIds generalizing s with
  | nil =>
      cases h
      exact ⟨rfl, by simp, by simp⟩
  | cons reqId reqIds ih =>
      obtain ⟨hnotMem, hnodup⟩ := List.nodup_cons.mp hnodup
      simp only [updateFromSpecOutput.go] at h
      split_ifs at h with hnone
      · obtain ⟨heq, hsame, hingest⟩ := ih hnodup h
        refine ⟨heq, fun q hq => hsame q (fun hmem => hq ⟨.tail _ hmem.1, hmem.2⟩), ?_⟩
        rintro q (_ | ⟨_, hq⟩) hn
        · exact absurd hnone hn
        · exact hingest q hq hn
      · simp only [bind_eq_ok] at h
        obtain ⟨r, hone, h⟩ := h
        obtain ⟨heq, hsame, hingest⟩ := ih hnodup h
        refine ⟨heq, fun q hq => ?_, ?_⟩
        · have hne : q ≠ reqId := by
            rintro rfl
            exact hq ⟨.head _, hnone⟩
          rw [hsame q (fun hmem => hq ⟨.tail _ hmem.1, hmem.2⟩), setRequest_request,
            Function.update_of_ne hne]
        · rintro q (_ | ⟨_, hq⟩) hn
          · rw [hone, hsame reqId (fun hmem => hnotMem hmem.1), setRequest_request,
              Function.update_self]
          · have hne : q ≠ reqId := fun heq => hnotMem (heq ▸ hq)
            have hq' := hingest q hq hn
            rwa [setRequest_request, Function.update_of_ne hne] at hq'

/-- What the ingestion of a batch's drafts does. -/
structure IngestSpec (cfg : Config) (out : SpexisSchedulerOutput) (output : ModelRunnerOutput)
    (s s' : Scheduler) : Prop where
  eq : s' = { s with request := s'.request }
  same : ∀ q, ¬ (q ∈ s.runningScheduled ∧ out.numScheduled q ≠ 0) → s'.request q = s.request q
  ingest : ∀ q ∈ s.runningScheduled, out.numScheduled q ≠ 0 →
    ingestTokens cfg (output.lengthProbs q) (output.specConfidence q) (output.sampledTokenIds q) 0
      (s.request q) = .ok (s'.request q)

theorem updateFromSpecOutput_spec {cfg : Config} {out : SpexisSchedulerOutput}
    {output : ModelRunnerOutput} {s s' : Scheduler} (hnodup : s.runningScheduled.Nodup)
    (h : s.updateFromSpecOutput cfg out output = .ok s') : IngestSpec cfg out output s s' :=
  let ⟨heq, hsame, hingest⟩ := updateFromSpecOutput_go hnodup h
  ⟨heq, hsame, hingest⟩

end Scheduler

end Spexis
