import Spexis.Verification.LiveRequests

/-! # Admission under a memory projection

The projection that the admission loop updates for each request is the projection of the running
list computed anew, and what it bounds is never exceeded by an admitted request. -/

namespace Spexis

open Python

/-! ## One more request in the batch -/

namespace LengthCalcConfig

variable {cfg : LengthCalcConfig} {n sumReqLen : ℕ} {batch : List Request} {r r' : Request}

/-- All that a projection reads of a request. -/
structure SameFootprint (r r' : Request) : Prop where
  numTokens : r.numTokens = r'.numTokens
  predictedLenProb : r.predictedLenProb = r'.predictedLenProb

theorem finishedContribution_congr (h : SameFootprint r r') (n : ℕ) :
    cfg.finishedContribution n r = cfg.finishedContribution n r' := by
  simp only [finishedContribution, Request.expectRemainLenIdx, h.numTokens, h.predictedLenProb]

theorem mapM_finishedContribution_congr {xs ys : List Request} (h : List.Forall₂ SameFootprint xs ys)
    (n : ℕ) : xs.mapM (cfg.finishedContribution n) = ys.mapM (cfg.finishedContribution n) := by
  induction h with
  | nil => rfl
  | cons hxy _ ih => rw [List.mapM_cons, List.mapM_cons, ih, finishedContribution_congr hxy]

theorem calculatePeakMem_congr {xs ys : List Request} (h : List.Forall₂ SameFootprint xs ys) :
    cfg.calculatePeakMem xs = cfg.calculatePeakMem ys := by
  have htokens : xs.map Request.numTokens = ys.map Request.numTokens := by
    induction h with
    | nil => rfl
    | cons hxy _ ih => rw [List.map_cons, List.map_cons, ih, hxy.numTokens]
  simp only [calculatePeakMem, calculateIterMem, htokens, mapM_finishedContribution_congr h,
    h.length_eq]

/-- A request without a length prediction is not expected to finish. -/
theorem finishedContribution_unpredicted (h : r.predictedLenProb = []) (n : ℕ) :
    cfg.finishedContribution n r = .ok (0, 0) := by
  simp [finishedContribution, Request.expectRemainLenIdx, h, Request.expectRemainLenIdx.go]

theorem calculateIterMem_append {m : ℚ} (hr : r.predictedLenProb = [])
    (h : cfg.calculateIterMem n sumReqLen batch = .ok m) :
    cfg.calculateIterMem n (sumReqLen + r.numTokens) (batch ++ [r]) =
      .ok (m + (r.numTokens + cfg.expGenLen n)) := by
  simp only [calculateIterMem, bind_eq_ok, pure_eq_ok] at h
  obtain ⟨finished, hfinished, rfl⟩ := h
  have hall : (batch ++ [r]).mapM (cfg.finishedContribution n) = .ok (finished ++ [(0, 0)]) := by
    rw [List.mapM_append, hfinished, ok_bind, List.mapM_cons, finishedContribution_unpredicted hr]
    rfl
  rw [calculateIterMem, hall, ok_bind]
  simp only [List.map_append, List.sum_append, List.length_append, List.map_cons, List.map_nil,
    List.sum_singleton, List.length_singleton, add_zero]
  push_cast
  congr 1
  ring

theorem calculatePeakMem_append {usage : List ℚ} {peak : ℚ} (hr : r.predictedLenProb = [])
    (h : cfg.calculatePeakMem batch = .ok (usage, peak)) :
    ∃ peak', cfg.calculatePeakMem (batch ++ [r]) = .ok (List.zipWith
      (fun usage iterVal => usage + (r.numTokens + cfg.expGenLen iterVal)) usage cfg.iterList,
        peak') := by
  simp only [calculatePeakMem, bind_eq_ok, pure_eq_ok, Prod.mk.injEq] at h
  obtain ⟨_, husage, rfl, -⟩ := h
  rw [calculatePeakMem, List.map_append, List.sum_append, List.map_singleton, List.sum_singleton,
    mapM_zipWith husage (fun n m => calculateIterMem_append hr), ok_bind]
  exact ⟨_, rfl⟩

theorem calculatePeakMem_peak_le_iff {usage : List ℚ} {peak bound : ℚ}
    (h : cfg.calculatePeakMem batch = .ok (usage, peak)) :
    peak ≤ bound ↔ 0 ≤ bound ∧ ∀ u ∈ usage, u ≤ bound := by
  simp only [calculatePeakMem, bind_eq_ok, pure_eq_ok, Prod.mk.injEq] at h
  obtain ⟨_, -, rfl, rfl⟩ := h
  exact List.foldl_max_le_iff

end LengthCalcConfig

/-! ## The admission loop -/

namespace Scheduling

variable {cfg : Config} {st st' : Scheduling}

/-- The projection after the footprints of some requests have been added one by one. -/
def memUsageAfter (cfg : Config) (request : ReqId → Request) (usage : List ℚ)
    (reqIds : List ReqId) : List ℚ :=
  reqIds.foldl (fun usage q => addFootprint cfg (request q) usage) usage

/-- Does the projection exceed the bound at some horizon? -/
def Exceeds (bound : ℚ) (usage : List ℚ) : Prop :=
  ∃ u ∈ usage, bound < u

theorem not_exceeds {bound : ℚ} {usage : List ℚ} :
    ¬ Exceeds bound usage ↔ ∀ u ∈ usage, u ≤ bound := by
  simp only [Exceeds, not_exists, not_and, not_lt]

theorem memUsageAfter_congr {request request' : ReqId → Request} {usage : List ℚ}
    {reqIds : List ReqId} (h : ∀ q ∈ reqIds, (request q).numTokens = (request' q).numTokens) :
    memUsageAfter cfg request usage reqIds = memUsageAfter cfg request' usage reqIds := by
  induction reqIds generalizing usage with
  | nil => rfl
  | cons q reqIds ih =>
      have hone : addFootprint cfg (request q) usage = addFootprint cfg (request' q) usage := by
        rw [addFootprint, addFootprint, h q List.mem_cons_self]
      change memUsageAfter cfg request (addFootprint cfg (request q) usage) reqIds =
        memUsageAfter cfg request' (addFootprint cfg (request' q) usage) reqIds
      rw [hone, ih (fun p hp => h p (List.mem_cons_of_mem q hp))]

/-- What the loop over the waiting queue does under a memory projection. -/
structure Admitting (cfg : Config) (bound : ℚ) (usage : List ℚ) (waiting : List ReqId)
    (st st' : Scheduling) (admitted : List ReqId) : Prop where
  running : st'.runningScheduled = st.runningScheduled ++ admitted
  waiting : admitted ++ st'.waiting = waiting
  footprint : ∀ q, LengthCalcConfig.SameFootprint (st'.request q) (st.request q)
  bounded : ∀ pre c, pre ++ [c] <+: admitted →
    ¬ Exceeds bound (memUsageAfter cfg st.request usage (pre ++ [c]))

theorem Admitting.stay {bound : ℚ} {usage : List ℚ} {waiting : List ReqId}
    (hrunning : st'.runningScheduled = st.runningScheduled) (hwaiting : st'.waiting = waiting)
    (hrequest : st'.request = st.request) : Admitting cfg bound usage waiting st st' [] where
  running := by rw [hrunning, List.append_nil]
  waiting := hwaiting
  footprint q := by
    rw [hrequest]
    exact ⟨rfl, rfl⟩
  bounded pre c hpre := by simp at hpre

theorem admitted_footprint (st : Scheduling) (waiting : List ReqId) (reqId q : ReqId)
    (numComputedTokens n : ℕ) (blocks : List BlockId) :
    LengthCalcConfig.SameFootprint
      ((admitted st waiting reqId (st.request reqId) numComputedTokens n blocks).request q)
      (st.request q) := by
  by_cases hq : q = reqId
  · subst hq
    rw [admitted_request, Function.update_self]
    exact ⟨rfl, rfl⟩
  · rw [admitted_request, Function.update_of_ne hq]
    exact ⟨rfl, rfl⟩

/-- The request at the head of the queue fits and is admitted before the others. -/
theorem Admitting.cons {bound : ℚ} {usage : List ℚ} {waiting admittedReqs : List ReqId}
    {reqId : ReqId} {st₁ : Scheduling}
    (hrunning : st₁.runningScheduled = st.runningScheduled ++ [reqId])
    (hsame : ∀ q, LengthCalcConfig.SameFootprint (st₁.request q) (st.request q))
    (hfits : ¬ Exceeds bound (addFootprint cfg (st.request reqId) usage))
    (h : Admitting cfg bound (addFootprint cfg (st.request reqId) usage) waiting st₁ st'
      admittedReqs) :
    Admitting cfg bound usage (reqId :: waiting) st st' (reqId :: admittedReqs) where
  running := by rw [h.running, hrunning, List.append_assoc, List.singleton_append]
  waiting := by rw [List.cons_append, h.waiting]
  footprint q := ⟨(h.footprint q).numTokens.trans (hsame q).numTokens,
    (h.footprint q).predictedLenProb.trans (hsame q).predictedLenProb⟩
  bounded pre c hpre := by
    cases pre with
    | nil =>
        obtain ⟨rfl, -⟩ := List.cons_prefix_cons.mp hpre
        exact hfits
    | cons q pre =>
        obtain ⟨rfl, htail⟩ := List.cons_prefix_cons.mp hpre
        have hrest := h.bounded pre c htail
        rwa [memUsageAfter_congr (fun p _ => (hsame p).numTokens)] at hrest

theorem waitingLoop_admitting {memInTokens : ℤ} {waiting : List ReqId} {usage : List ℚ}
    (hplain : ∀ q ∈ waiting, (st.request q).status ≠ .waitingForFsm)
    (h : waitingLoop cfg true memInTokens waiting [] usage st = .ok st') :
    ∃ admittedReqs, Admitting cfg (cfg.spexis.memEstimateMargin * memInTokens) usage waiting st st'
      admittedReqs := by
  induction waiting generalizing usage st with
  | nil =>
      simp only [waitingLoop] at h
      cases h
      exact ⟨[], .stay rfl rfl rfl⟩
  | cons reqId waiting ih =>
      have hready := hplain reqId List.mem_cons_self
      rw [waitingLoop] at h
      dsimp only at h
      rw [if_pos rfl] at h
      by_cases hbudget : st.tokenBudget = 0
      · rw [if_pos hbudget] at h
        cases h
        exact ⟨[], .stay rfl rfl rfl⟩
      rw [if_neg hbudget] at h
      by_cases hroom : st.runningScheduled.length = cfg.scheduler.maxNumSeqs
      · rw [if_pos hroom] at h
        cases h
        exact ⟨[], .stay rfl rfl rfl⟩
      rw [if_neg hroom] at h
      split at h
      · cases h
        exact ⟨[], .stay rfl rfl rfl⟩
      next hfits =>
        have hfits' : ¬ Exceeds (cfg.spexis.memEstimateMargin * memInTokens)
            (addFootprint cfg (st.request reqId) usage) := by
          simpa [Exceeds] using hfits
        simp only [hready, false_and, ite_false] at h
        simp only [bind_eq_ok, pyAssert_eq_ok, Prod.exists] at h
        obtain ⟨computedBlocks, numComputedTokens, kv₀, -, _, -, newBlocks, kv, -, h⟩ := h
        cases newBlocks with
        | none =>
            cases h
            exact ⟨[], .stay rfl rfl rfl⟩
        | some blocks =>
            simp only [bind_eq_ok] at h
            obtain ⟨st₁, hadmitted, h⟩ := h
            obtain ⟨-, rfl⟩ := admitRequest_eq_ok hadmitted
            obtain ⟨admittedReqs, hadmitting⟩ := ih (fun q hq => by
              by_cases hq' : q = reqId
              · simp [hq']
              · simpa [Function.update_of_ne hq'] using hplain q (List.mem_cons_of_mem reqId hq)) h
            refine ⟨reqId :: admittedReqs, hadmitting.cons rfl (fun q => ?_) hfits'⟩
            exact admitted_footprint { st with kvCacheManager := kv } _ _ q _ _ _

/-! ## The projection of the running list -/

/-- Adding the footprints one by one projects the longer batch. -/
theorem calculatePeakMem_memUsageAfter {request : ReqId → Request} {usage : List ℚ} {peak : ℚ}
    {batch : List Request} {reqIds : List ReqId}
    (hunpredicted : ∀ q ∈ reqIds, (request q).predictedLenProb = [])
    (h : cfg.lengthCalc.calculatePeakMem batch = .ok (usage, peak)) :
    ∃ peak', cfg.lengthCalc.calculatePeakMem (batch ++ reqIds.map request) =
      .ok (memUsageAfter cfg request usage reqIds, peak') := by
  induction reqIds generalizing batch usage peak with
  | nil => exact ⟨peak, by rwa [List.map_nil, List.append_nil]⟩
  | cons q reqIds ih =>
      obtain ⟨peak₁, hone⟩ :=
        LengthCalcConfig.calculatePeakMem_append (hunpredicted q List.mem_cons_self) h
      obtain ⟨peak', hall⟩ := ih (fun p hp => hunpredicted p (List.mem_cons_of_mem q hp)) hone
      refine ⟨peak', ?_⟩
      rw [List.append_assoc, List.singleton_append] at hall
      exact hall

/-- What the admission promises when it follows a projection. -/
structure AdmissionSpec (cfg : Config) (estimate : MemoryEstimate) (st st' : Scheduling)
    (admitted : List ReqId) : Prop where
  running : st'.runningScheduled = st.runningScheduled ++ admitted
  waiting : admitted ++ st'.waiting = st.waiting
  projection : admitted ≠ [] → ∃ peak,
    cfg.lengthCalc.calculatePeakMem (st'.runningScheduled.map st'.request) =
      .ok (memUsageAfter cfg st.request estimate.memUsageList admitted, peak) ∧
    peak ≤ cfg.spexis.memEstimateMargin * estimate.memInTokens
  refused : ∀ pre c post, st.waiting = pre ++ c :: post →
    Exceeds (cfg.spexis.memEstimateMargin * estimate.memInTokens)
      (memUsageAfter cfg st.request estimate.memUsageList (pre ++ [c])) →
    c ∉ admitted ∧ ∀ q ∈ post, q ∉ admitted

/-- Nothing is admitted, whatever the queue. -/
theorem AdmissionSpec.nothing {estimate : MemoryEstimate} : AdmissionSpec cfg estimate st st [] where
  running := (List.append_nil _).symm
  waiting := rfl
  projection h := absurd rfl h
  refused _ _ _ _ _ := ⟨List.not_mem_nil, fun _ _ => List.not_mem_nil⟩

/-- A request that exceeds the bound stops the admission. -/
theorem Admitting.refused {bound : ℚ} {usage : List ℚ} {waiting admittedReqs pre post : List ReqId}
    {c : ReqId} (h : Admitting cfg bound usage waiting st st' admittedReqs)
    (hnodup : waiting.Nodup) (heq : waiting = pre ++ c :: post)
    (hexceeds : Exceeds bound (memUsageAfter cfg st.request usage (pre ++ [c]))) :
    c ∉ admittedReqs ∧ ∀ q ∈ post, q ∉ admittedReqs := by
  have hshort : admittedReqs <+: pre := by
    have hcandidate : pre ++ [c] <+: waiting := ⟨post, by rw [heq]; simp⟩
    rcases List.prefix_or_prefix_of_prefix ⟨st'.waiting, h.waiting⟩ hcandidate with hle | hge
    · rcases List.prefix_concat_iff.mp hle with rfl | hle
      · exact absurd hexceeds (h.bounded pre c (List.prefix_refl _))
      · exact hle
    · exact absurd hexceeds (h.bounded pre c hge)
  rw [heq] at hnodup
  have hbehind := (List.nodup_append.mp hnodup).2.2
  exact ⟨fun hc => hbehind c (hshort.subset hc) c List.mem_cons_self rfl,
    fun q hq hq' => hbehind q (hshort.subset hq') q (List.mem_cons_of_mem c hq) rfl⟩

/-- When the projection has been made, it is that of the running requests. -/
theorem memoryEstimate_eq_ok {estimate : MemoryEstimate} (h : st.memoryEstimate cfg = .ok estimate)
    (hshould : estimate.shouldEstimateLength = true) :
    ∃ peak, cfg.lengthCalc.calculatePeakMem (st.runningScheduled.map st.request) =
        .ok (estimate.memUsageList, peak) ∧
      estimate.delayPrefill =
        decide (peak > cfg.spexis.memEstimateMargin * estimate.memInTokens) := by
  unfold memoryEstimate at h
  split_ifs at h
  · unfold estimateLookaheadMemory at h
    split_ifs at h
    · simp only [bind_eq_ok, pure_eq_ok, Prod.exists] at h
      obtain ⟨usage, peak, hpeak, rfl⟩ := h
      exact ⟨peak, hpeak, rfl⟩
    · cases h
      cases hshould
  · cases h
    cases hshould

theorem waitingPass_admissionSpec {estimate : MemoryEstimate} (hnodup : st.waiting.Nodup)
    (hplain : ∀ q ∈ st.waiting, (st.request q).status ≠ .waitingForFsm)
    (hunpredicted : ∀ q ∈ st.waiting, (st.request q).predictedLenProb = [])
    (hestimate : st.memoryEstimate cfg = .ok estimate)
    (hshould : estimate.shouldEstimateLength = true)
    (h : st.waitingPass cfg estimate = .ok st') :
    ∃ admitted, AdmissionSpec cfg estimate st st' admitted := by
  unfold waitingPass at h
  split_ifs at h with hgo
  · rw [hshould] at h
    obtain ⟨admittedReqs, hadmitting⟩ := waitingLoop_admitting hplain h
    obtain ⟨peak, hpeak, hdelay⟩ := memoryEstimate_eq_ok hestimate hshould
    refine ⟨admittedReqs, hadmitting.running, hadmitting.waiting, fun hsome => ?_,
      fun pre c post heq hexceeds => hadmitting.refused hnodup heq hexceeds⟩
    have hqueued : ∀ q ∈ admittedReqs, q ∈ st.waiting := fun q hq => by
      rw [← hadmitting.waiting]
      exact List.mem_append_left _ hq
    obtain ⟨peak', hpeak'⟩ := calculatePeakMem_memUsageAfter
      (fun q hq => hunpredicted q (hqueued q hq)) hpeak
    have hbatch : List.Forall₂ LengthCalcConfig.SameFootprint
        (st'.runningScheduled.map st'.request)
        (st.runningScheduled.map st.request ++ admittedReqs.map st.request) := by
      rw [← List.map_append, ← hadmitting.running, List.forall₂_map_left_iff,
        List.forall₂_map_right_iff, List.forall₂_same]
      exact fun q _ => hadmitting.footprint q
    rw [← LengthCalcConfig.calculatePeakMem_congr hbatch] at hpeak'
    refine ⟨peak', hpeak', (LengthCalcConfig.calculatePeakMem_peak_le_iff hpeak').mpr ⟨?_, ?_⟩⟩
    · have hle : peak ≤ cfg.spexis.memEstimateMargin * estimate.memInTokens := by
        have hnot := hgo.2
        rw [hdelay, decide_eq_true_eq] at hnot
        exact not_lt.mp hnot
      exact ((LengthCalcConfig.calculatePeakMem_peak_le_iff hpeak).mp hle).1
    · -- the last request admitted was checked against the bound
      obtain ⟨pre, c, rfl⟩ : ∃ pre c, admittedReqs = pre ++ [c] :=
        ⟨_, _, (List.dropLast_append_getLast hsome).symm⟩
      exact not_exceeds.mp (hadmitting.bounded pre c (List.prefix_refl _))
  · cases h
    exact ⟨[], .nothing⟩

end Scheduling

/-! ## The waiting queue over a run -/

/-- The waiting requests have no length prediction, and only structured output waits for a
grammar. -/
structure Scheduler.Queued (s : Scheduler) : Prop where
  places_nodup : s.places.Nodup
  unpredicted : ∀ q ∈ s.waiting, (s.request q).predictedLenProb = []
  structured : ∀ q, (s.request q).status = .waitingForFsm →
    (s.request q).useStructuredOutput = true

/-- What a step may do to the queue. -/
structure Scheduler.QueueStep (s s' : Scheduler) : Prop where
  places : s'.places.Subperm s.places
  waiting : ∀ q ∈ s'.waiting, (s'.request q).predictedLenProb = [] ∨ q ∈ s.waiting ∧
    (s'.request q).predictedLenProb = (s.request q).predictedLenProb
  structured : ∀ q, (s'.request q).samplingParams = (s.request q).samplingParams ∧
    ((s'.request q).status = .waitingForFsm → (s.request q).status = .waitingForFsm)

namespace Scheduler

variable {cfg : Config} {s s' s₁ s₂ s₃ : Scheduler} {reqId : ReqId} {r : Request}

theorem QueueStep.queued (h : QueueStep s s') (hs : s.Queued) : s'.Queued where
  places_nodup := by
    obtain ⟨places, hperm, hsub⟩ := h.places
    exact hperm.nodup_iff.mp (hs.places_nodup.sublist hsub)
  unpredicted q hq := by
    rcases h.waiting q hq with hnone | ⟨hmem, hsame⟩
    · exact hnone
    · rw [hsame, hs.unpredicted q hmem]
  structured q hq := by
    obtain ⟨hparams, hstatus⟩ := h.structured q
    rw [Request.useStructuredOutput, hparams]
    exact hs.structured q (hstatus hq)

theorem QueueStep.refl (s : Scheduler) : QueueStep s s :=
  ⟨.refl _, fun _ hq => .inr ⟨hq, rfl⟩, fun _ => ⟨rfl, id⟩⟩

theorem QueueStep.trans (h : QueueStep s₁ s₂) (h' : QueueStep s₂ s₃) : QueueStep s₁ s₃ where
  places := h'.places.trans h.places
  waiting q hq := by
    rcases h'.waiting q hq with hnone | ⟨hmem, hsame⟩
    · exact .inl hnone
    · rw [hsame]
      exact h.waiting q hmem
  structured q := ⟨(h'.structured q).1.trans (h.structured q).1,
    fun hq => (h.structured q).2 ((h'.structured q).2 hq)⟩

/-- The fields of a request that its place in the queue depends on. -/
structure SameQueued (r r' : Request) : Prop where
  predictedLenProb : r'.predictedLenProb = r.predictedLenProb
  samplingParams : r'.samplingParams = r.samplingParams
  status : r'.status = .waitingForFsm → r.status = .waitingForFsm

theorem SameQueued.refl (r : Request) : SameQueued r r :=
  ⟨rfl, rfl, id⟩

/-- Requests may go from one place to another except into the waiting queue. -/
theorem QueueStep.of_same (hplaces : s'.places.Subperm s.places) (hwaiting : s'.waiting ⊆ s.waiting)
    (hsame : ∀ q, SameQueued (s.request q) (s'.request q)) : QueueStep s s' :=
  ⟨hplaces, fun q hq => .inr ⟨hwaiting hq, (hsame q).predictedLenProb⟩,
    fun q => ⟨(hsame q).samplingParams, (hsame q).status⟩⟩

theorem sameQueued_update (h : SameQueued (s.request reqId) r) (q : ReqId) :
    SameQueued (s.request q) (Function.update s.request reqId r q) := by
  by_cases hq : q = reqId
  · subst hq
    rwa [Function.update_self]
  · rw [Function.update_of_ne hq]
    exact .refl _

/-- A request that goes back to the waiting queue has been reset. -/
theorem QueueStep.of_requeue (hplaces : s'.places.Subperm s.places)
    (hwaiting : s'.waiting = reqId :: s.waiting)
    (hrequest : s'.request = Function.update s.request reqId r) (hnone : r.predictedLenProb = [])
    (hparams : r.samplingParams = (s.request reqId).samplingParams)
    (hstatus : r.status = .waitingForFsm → (s.request reqId).status = .waitingForFsm) :
    QueueStep s s' where
  places := hplaces
  waiting q hq := by
    rw [hrequest]
    by_cases hq' : q = reqId
    · subst hq'
      rw [Function.update_self]
      exact .inl hnone
    · rw [Function.update_of_ne hq']
      rw [hwaiting] at hq
      exact .inr ⟨(List.mem_cons.mp hq).resolve_left hq', rfl⟩
  structured q := by
    rw [hrequest]
    by_cases hq' : q = reqId
    · subst hq'
      rw [Function.update_self]
      exact ⟨hparams, hstatus⟩
    · rw [Function.update_of_ne hq']
      exact ⟨rfl, id⟩

end Scheduler

namespace Scheduling

open Scheduler

variable {cfg : Config} {st st' : Scheduling}

theorem Move.queueStep (hmove : Move cfg st st') :
    QueueStep st.toScheduler st'.toScheduler := by
  cases hmove with
  | drain hmove =>
      cases hmove with
      | drainWait reqId hmem =>
          exact .of_same (.refl _) (List.Subset.refl _) (sameQueued_update ⟨rfl, rfl, id⟩)
      | drainReturn reqId xs ys hmem =>
          refine .of_requeue ?_ rfl rfl rfl rfl id
          refine List.Perm.subperm (List.perm_iff_count.mpr (fun q => ?_))
          simp only [places, setRequest, Scheduler.setRequest, hmem, List.count_append,
            List.count_cons]
          omega
  | setPassed passed =>
      refine .of_same (.refl _) (List.Subset.refl _) (fun q => ?_)
      obtain ⟨b, hb⟩ := setConfidencePassed_request st passed q
      rw [hb]
      exact ⟨rfl, rfl, id⟩
  | running hmove =>
      cases hmove with
      | allocFail => exact .of_same (.refl _) (List.Subset.refl _) (fun _ => .refl _)
      | evict reqId realToken xs hlast =>
          have hplaces : ∀ q, (st.waiting ++ (xs ++ [reqId]) ++ st.toBePreempted).count q =
              st.places.count q := fun q => by rw [places, hlast]
          have hclaimed : SameQueued (st.request reqId)
              { claimed (st.request reqId) realToken with status := .preempted } := by
            cases realToken <;> exact ⟨rfl, rfl, (fun h => by cases h)⟩
          unfold preempt
          split
          · refine .of_same (List.Perm.subperm (List.perm_iff_count.mpr (fun q => ?_)))
              (List.Subset.refl _) (sameQueued_update ?_)
            · simp only [places, setRequest, Scheduler.setRequest, List.count_append] at hplaces ⊢
              have := hplaces q
              omega
            · exact ⟨hclaimed.predictedLenProb, hclaimed.samplingParams, (fun h => by cases h)⟩
          · refine .of_requeue (List.Perm.subperm (List.perm_iff_count.mpr (fun q => ?_))) rfl rfl
              rfl hclaimed.samplingParams (fun h => by cases h)
            simp only [places, setRequest, Scheduler.setRequest, List.count_append, List.count_cons,
              List.count_nil] at hplaces ⊢
            have := hplaces q
            omega
      | assign reqId realToken n blocks kv hmem =>
          refine .of_same ?_ ?_ (fun q => ?_)
          · rw [places, assignRunning_waiting, assignRunning_runningScheduled,
              assignRunning_toBePreempted]
            exact .refl _
          · rw [assignRunning_waiting]
            exact List.Subset.refl _
          · have hassigned : SameQueued (st.request reqId)
                { claimed (st.request reqId) realToken with
                  numScheduled := (claimed (st.request reqId) realToken).numScheduled + 1 } := by
              cases realToken <;> exact ⟨rfl, rfl, id⟩
            simpa using sameQueued_update hassigned q
      | drop reqId hmem =>
          exact .of_same (.refl _) (List.Subset.refl _) (sameQueued_update ⟨rfl, rfl, id⟩)
  | waiting hmove =>
      cases hmove with
      | markReady reqId hmem =>
          refine .of_same (.refl _) (List.Subset.refl _) (sameQueued_update ?_)
          unfold ready
          split_ifs with hfsm
          · exact ⟨rfl, rfl, fun _ => hfsm⟩
          · exact .refl _
      | searchCache => exact .of_same (.refl _) (List.Subset.refl _) (fun _ => .refl _)
      | refused => exact .of_same (.refl _) (List.Subset.refl _) (fun _ => .refl _)
      | admission reqId xs ys n numComputedTokens computedBlocks blocks kv₀ kv hmem =>
          refine .of_same (List.Perm.subperm (List.perm_iff_count.mpr (fun q => ?_))) ?_ (fun q => ?_)
          · simp only [places, admitted_waiting, admitted_runningScheduled, admitted_toBePreempted,
              hmem, List.count_append, List.count_cons, List.count_nil]
            omega
          · rw [admitted_waiting, hmem]
            exact List.append_subset.mpr ⟨List.subset_append_left _ _,
              List.subset_append_of_subset_right _ (List.subset_cons_self _ _)⟩
          · have hadmitted : SameQueued (st.request reqId) { st.request reqId with
                numScheduled := (st.request reqId).numScheduled + 1
                status := .running
                numComputedTokens := numComputedTokens } := ⟨rfl, rfl, (fun h => by cases h)⟩
            rw [admitted_request]
            exact sameQueued_update hadmitted q

theorem moves_queueStep (hmoves : Moves cfg st st') : QueueStep st.toScheduler st'.toScheduler := by
  induction hmoves with
  | refl => exact .refl _
  | tail _ hmove ih => exact ih.trans hmove.queueStep

end Scheduling

namespace Scheduler

variable {cfg : Config} {s s' : Scheduler}

/-! ## The other operations -/

theorem advanceComputed_queueStep {items : List (ReqId × ℕ)}
    (h : advanceComputed items s = .ok s') : QueueStep s s' := by
  induction items generalizing s with
  | nil =>
      cases h
      exact .refl _
  | cons item items ih =>
      simp only [advanceComputed] at h
      split_ifs at h
      have hone : QueueStep s (s.setRequest item.1 ((s.request item.1).advance item.2)) :=
        .of_same (.refl _) (List.Subset.refl _) (sameQueued_update ⟨rfl, rfl, id⟩)
      exact hone.trans (ih h)

theorem schedule_queueStep {result : ScheduleResult} (hs : s.Queued)
    (h : s.schedule cfg = .ok (result, s')) : QueueStep s s' := by
  simp only [schedule, bind_eq_ok, pure_eq_ok, Prod.exists, Prod.mk.injEq] at h
  obtain ⟨st, _, hselect, _, -, out, _, st₁, hout, s₁, hadvance, -, rfl⟩ := h
  have hrunning : s.runningScheduled.Nodup :=
    hs.places_nodup.sublist
      ((List.sublist_append_right _ _).trans (List.sublist_append_left _ _))
  have hmoves : QueueStep s st.toScheduler :=
    Scheduling.moves_queueStep (Scheduling.selectRequests_moves hrunning rfl hselect)
  have hbuilt : QueueStep st.toScheduler st₁.toScheduler := by
    rw [(Scheduling.makeOutput_built hout).1.eq]
    refine .of_same (.refl _) (List.Subset.refl _) (fun q => ?_)
    have hbuilt : ∀ (r : Request) (cached : Bool), SameQueued r (r.built cached) := fun r cached => by
      unfold Request.built Request.correctionSent
      split_ifs <;> exact ⟨rfl, rfl, id⟩
    exact hbuilt _ _
  have hadvanced : QueueStep st₁.toScheduler { s₁ with finishedReqIds := [] } :=
    (advanceComputed_queueStep hadvance).trans (.of_same (.refl _) (List.Subset.refl _) (fun _ => .refl _))
  exact (hmoves.trans hbuilt).trans hadvanced

theorem SameQueued.trans {r r' r'' : Request} (h : SameQueued r r') (h' : SameQueued r' r'') :
    SameQueued r r'' :=
  ⟨h'.1.trans h.1, h'.2.trans h.2, fun hr => h.3 (h'.3 hr)⟩

theorem verified_sameQueued {r r' : Request} {token : TokenId} (h : r.Verified token r') :
    SameQueued r r' := by
  obtain ⟨hrecord, hstatus⟩ := h.record
  refine ⟨?_, hrecord.samplingParams, fun h' => hstatus ▸ h'⟩
  have hticked : r.ticked.predictedLenProb = r.predictedLenProb := by
    unfold Request.ticked
    split_ifs <;> rfl
  cases h with
  | flushed => rfl
  | finished =>
      unfold Request.finishDrop
      split_ifs <;> rfl
  | accepted => exact hticked
  | rejected => exact hticked

theorem verifyTokens_sameQueued {r r' : Request} {tokens kept : List TokenId} {stopped : Bool}
    (h : verifyTokens cfg r tokens = .ok (stopped, kept, r')) : SameQueued r r' := by
  induction tokens generalizing r kept with
  | nil =>
      cases h
      exact .refl _
  | cons token tokens ih =>
      simp only [verifyTokens, bind_eq_ok, Prod.exists] at h
      obtain ⟨code, r₁, hverify, stopped₁, r₂, hcheck, h⟩ := h
      have hone := verified_sameQueued (Request.verifyOutputTokenIds_verified hverify)
      obtain ⟨hsame, hfinished, status, reason, heq⟩ := checkStopFromValidation_eq_ok hcheck
      cases stopped₁ with
      | true =>
          cases h
          have hdone := hfinished rfl
          rw [Request.isFinished] at hdone
          refine hone.trans ⟨by rw [heq], by rw [heq], fun hfsm => ?_⟩
          rw [hfsm] at hdone
          exact absurd hdone (by decide)
      | false =>
          simp only [Bool.false_eq_true, ite_false, bind_eq_ok, pure_eq_ok, Prod.exists,
            Prod.mk.injEq] at h
          obtain ⟨stopped', kept', r₃, hrest, rfl, -, rfl⟩ := h
          rw [hsame rfl] at hrest
          exact hone.trans (ih hrest)

theorem VerifyMove.queueStep {output : ModelRunnerOutput} {reqId : ReqId}
    {outputs : List EngineCoreOutput} (h : VerifyMove cfg output s reqId outputs s') :
    QueueStep s s' := by
  have hone : ∀ {r : Request} {tokens : List TokenId} {stopped : Bool},
      verifyTokens cfg (s.request reqId).landed (output.sampledTokenIds reqId) =
        .ok (stopped, tokens, r) → SameQueued (s.request reqId) r := fun {r tokens stopped} hverify =>
    have hlanded : SameQueued (s.request reqId) (s.request reqId).landed := ⟨rfl, rfl, id⟩
    hlanded.trans (verifyTokens_sameQueued hverify)
  cases h with
  | goesOn r tokens hverify =>
      exact .of_same (.refl _) (List.Subset.refl _) (sameQueued_update (hone hverify))
  | stops r tokens hverify =>
      refine .of_same (List.Sublist.subperm ?_) (List.Subset.refl _)
        (sameQueued_update (hone hverify))
      exact ((List.Sublist.refl _).append List.erase_sublist).append List.erase_sublist

theorem VerifyMoves.queueStep {output : ModelRunnerOutput} {reqIds : List ReqId}
    {outputs : List EngineCoreOutput} (h : VerifyMoves cfg output s reqIds outputs s') :
    QueueStep s s' := by
  induction h with
  | nil => exact .refl _
  | cons hmove _ ih => exact hmove.queueStep.trans ih

theorem updateFromSpecOutput_queueStep {out : SpexisSchedulerOutput} {output : ModelRunnerOutput}
    (hs : s.Queued) (h : s.updateFromSpecOutput cfg out output = .ok s') : QueueStep s s' := by
  obtain ⟨hfront, -, -⟩ := List.nodup_append.mp hs.places_nodup
  obtain ⟨-, hrunning, hdisjoint⟩ := List.nodup_append.mp hfront
  have hspec := updateFromSpecOutput_spec hrunning h
  have hwaiting : s'.waiting = s.waiting := by rw [hspec.eq]
  refine ⟨?_, fun q hq => ?_, fun q => ?_⟩
  · rw [hspec.eq]
    exact .refl _
  · -- only running requests take drafts
    rw [hwaiting] at hq
    rw [hspec.same q (fun hin => hdisjoint q hq q hin.1 rfl)]
    exact .inr ⟨hq, rfl⟩
  · by_cases hin : q ∈ s.runningScheduled ∧ out.numScheduled q ≠ 0
    · obtain ⟨hrecord, hstatus⟩ := ingestTokens_record (hspec.ingest q hin.1 hin.2)
      exact ⟨hrecord.samplingParams, fun hq => hstatus ▸ hq⟩
    · rw [hspec.same q hin]
      exact ⟨rfl, id⟩

theorem freeRequest_queueStep {reqId : ReqId} (h : freeRequest cfg reqId s = .ok s') :
    QueueStep s s' := by
  obtain ⟨-, -, rfl⟩ := freeRequest_eq_ok h
  exact .of_same (.refl _) (List.Subset.refl _) (fun _ => .refl _)

theorem finishRequests_queueStep {status : RequestStatus} {reqIds : List ReqId}
    (h : s.finishRequests cfg status reqIds = .ok s') : QueueStep s s' := by
  simp only [finishRequests, bind_eq_ok, pyAssert_eq_ok] at h
  obtain ⟨_, hfinished, h⟩ := h
  have hstatus : status ≠ .waitingForFsm := by
    rintro rfl
    exact absurd hfinished (by decide)
  clear hfinished
  induction reqIds generalizing s with
  | nil =>
      cases h
      exact .refl _
  | cons reqId reqIds ih =>
      simp only [finishRequests.go] at h
      by_cases hlive : reqId ∉ s.requests
      · rw [if_pos hlive] at h
        exact ih h
      rw [if_neg hlive] at h
      by_cases hguard : (s.request reqId).status ≠ .running ∧ reqId ∉ s.waiting
      · rw [if_pos hguard] at h
        exact nomatch h
      rw [if_neg hguard] at h
      simp only [bind_eq_ok] at h
      obtain ⟨s₁, hfree, h⟩ := h
      refine QueueStep.trans ?_ ((freeRequest_queueStep hfree).trans (ih h))
      have hsame : SameQueued (s.request reqId) { s.request reqId with status := status } :=
        ⟨rfl, rfl, fun hfsm => absurd hfsm hstatus⟩
      split_ifs
      · exact .of_same (.refl _) (List.Subset.refl _) (sameQueued_update hsame)
      · refine .of_same (List.Sublist.subperm ?_) List.erase_subset (sameQueued_update hsame)
        exact (List.erase_sublist.append (List.Sublist.refl _)).append (List.Sublist.refl _)

end Scheduler

/-! ## The last two passes of a run's schedule -/

/-- The passes of `schedule` around the projection: the estimate, and the states before and after
the admission. -/
def Scheduler.admissionPasses (cfg : Config) (s : Scheduler) :
    Except PyError (MemoryEstimate × Scheduling × Scheduling) := do
  let (st₁, _) ← (s.begin cfg).drainPass.confidencePass cfg
  let st ← Scheduling.runningLoop cfg st₁.runningScheduled.length 0 st₁
  let estimate ← st.memoryEstimate cfg
  let st' ← st.waitingPass cfg estimate
  return (estimate, st, st')

theorem Scheduler.admissionPasses_of_selectRequests {cfg : Config} {s : Scheduler}
    {st' : Scheduling} {maxDroppedConfidence : ℚ}
    (h : Scheduling.selectRequests cfg (s.begin cfg) = .ok (st', maxDroppedConfidence)) :
    ∃ estimate st, s.admissionPasses cfg = .ok (estimate, st, st') := by
  simp only [Scheduling.selectRequests, bind_eq_ok, pure_eq_ok, Prod.exists, Prod.mk.injEq] at h
  obtain ⟨st₁, confidence, hpass, st, hloop, estimate, hestimate, st₂, hwait, rfl, -⟩ := h
  refine ⟨estimate, st, ?_⟩
  simp only [admissionPasses, bind_eq_ok, pure_eq_ok, Prod.exists, Prod.mk.injEq]
  exact ⟨st₁, confidence, hpass, st, hloop, estimate, hestimate, st₂, hwait, rfl, rfl, rfl⟩

namespace System

variable {cfg : Config} {sys sys' : System} {operation : Operation} {operations : List Operation}

/-- The queue is in order, and every request in a container has been added. -/
structure Queued (sys : System) : Prop where
  queued : sys.engine.scheduler.Queued
  added : sys.engine.scheduler.places ⊆ sys.added

theorem init_queued (cfg : Config) : (init cfg).Queued where
  queued := ⟨List.nodup_nil, nofun, fun q hq => by
    simp [init, EngineCore.init, Scheduler.init, Request.init] at hq⟩
  added := List.nil_subset _

theorem Queued.step {s : Scheduler} (h : sys.Queued)
    (hstep : sys.engine.scheduler.QueueStep s) : s.Queued ∧ s.places ⊆ sys.added :=
  ⟨hstep.queued h.queued, fun _ hq => h.added (hstep.places.subset hq)⟩

theorem addRequest_queued {s s' : Scheduler} {reqId : ReqId} {promptTokenIds : List TokenId}
    {samplingParams : SamplingParams} {eosTokenId : Option TokenId} (h : s.Queued)
    (hfresh : reqId ∉ s.places)
    (hadd : s.addRequest reqId (.init promptTokenIds samplingParams eosTokenId) = .ok s') :
    s'.Queued ∧ ∀ q ∈ s'.places, q = reqId ∨ q ∈ s.places := by
  unfold Scheduler.addRequest at hadd
  split_ifs at hadd
  cases hadd
  have hperm : ((s.waiting ++ [reqId]) ++ s.runningScheduled ++ s.toBePreempted).Perm
      (reqId :: s.places) := by
    refine List.perm_iff_count.mpr (fun q => ?_)
    simp only [Scheduler.places, List.count_append, List.count_cons, List.count_nil]
    omega
  refine ⟨⟨hperm.nodup_iff.mpr (List.nodup_cons.mpr ⟨hfresh, h.places_nodup⟩), fun q hq => ?_,
    fun q hq => ?_⟩, fun q hq => List.mem_cons.mp (hperm.mem_iff.mp hq)⟩
  · by_cases hq' : q = reqId
    · subst hq'
      simp [Scheduler.setRequest, Request.init]
    · have hmem : q ∈ s.waiting := by simpa [hq'] using hq
      simpa [Scheduler.setRequest, Function.update_of_ne hq'] using h.unpredicted q hmem
  · by_cases hq' : q = reqId
    · subst hq'
      simpa [Scheduler.setRequest, Request.init, Request.useStructuredOutput] using hq
    · simp only [Scheduler.setRequest, Function.update_of_ne hq'] at hq ⊢
      exact h.structured q hq

theorem Step.queued (h : sys.Queued) (hstep : Step cfg sys operation sys') : sys'.Queued := by
  cases hstep with
  | addRequest reqId promptTokenIds samplingParams eosTokenId hphase hfresh hadd =>
      obtain ⟨hqueued, hadded⟩ := addRequest_queued h.queued (fun hq => hfresh (h.added hq)) hadd
      refine ⟨hqueued, fun q hq => ?_⟩
      rcases hadded q hq with rfl | hq
      · exact List.mem_cons_self
      · exact List.mem_cons_of_mem _ (h.added hq)
  | compileGrammar reqId =>
      have hsame : Scheduler.SameQueued (sys.engine.scheduler.request reqId)
          { sys.engine.scheduler.request reqId with grammar := true } := ⟨rfl, rfl, id⟩
      have hstep : sys.engine.scheduler.QueueStep (sys.engine.compileGrammar reqId).scheduler :=
        .of_same (.refl _) (List.Subset.refl _) (Scheduler.sameQueued_update hsame)
      exact ⟨(h.step hstep).1, (h.step hstep).2⟩
  | finishRequests finishedStatus reqIds hphase hnodup hfinish =>
      obtain ⟨hqueued, hadded⟩ := h.step (Scheduler.finishRequests_queueStep hfinish)
      exact ⟨hqueued, hadded⟩
  | verify hphase hverify =>
      rcases EngineCore.verify_cases hverify with ⟨-, hs, -⟩ | ⟨batch, queue, -, -, hmoves⟩
      · exact ⟨hs ▸ h.queued, hs ▸ h.added⟩
      · obtain ⟨hqueued, hadded⟩ := h.step hmoves.queueStep
        exact ⟨hqueued, hadded⟩
  | schedule execute hphase hschedule =>
      simp only [EngineCore.schedule, bind_eq_ok, Prod.exists] at hschedule
      obtain ⟨result, s, hschedule, he⟩ := hschedule
      obtain ⟨hqueued, hadded⟩ := h.step (Scheduler.schedule_queueStep h.queued hschedule)
      split_ifs at he <;> cases he <;> exact ⟨hqueued, hadded⟩
  | ingest hphase hingest =>
      simp only [EngineCore.ingest, hphase, bind_eq_ok, pure_eq_ok] at hingest
      obtain ⟨s, hupdate, rfl⟩ := hingest
      obtain ⟨hqueued, hadded⟩ :=
        h.step (Scheduler.updateFromSpecOutput_queueStep h.queued hupdate)
      exact ⟨hqueued, hadded⟩

theorem Run.queued (hrun : Run cfg operations sys) : sys.Queued :=
  hrun.invariant (init_queued cfg) (fun _ _ _ => Step.queued)

/-- Whenever `schedule` projects the memory, what it admits has the projection that the loop has
updated, within the bound. -/
theorem run_admissionSpec (hrun : Run cfg operations sys) {estimate : MemoryEstimate}
    {st st' : Scheduling}
    (hpasses : sys.engine.scheduler.admissionPasses cfg = .ok (estimate, st, st'))
    (hunstructured : ∀ q ∈ st.waiting, (st.request q).useStructuredOutput = false)
    (hshould : estimate.shouldEstimateLength = true) :
    ∃ admitted, Scheduling.AdmissionSpec cfg estimate st st' admitted := by
  simp only [Scheduler.admissionPasses, bind_eq_ok, pure_eq_ok, Prod.exists, Prod.mk.injEq]
    at hpasses
  obtain ⟨st₁, confidence, hpass, st₂, hloop, estimate', hestimate, st₃, hwait, rfl, rfl, rfl⟩ :=
    hpasses
  have hqueued := hrun.queued.queued
  have hrunning : sys.engine.scheduler.runningScheduled.Nodup :=
    hqueued.places_nodup.sublist
      ((List.sublist_append_right _ _).trans (List.sublist_append_left _ _))
  have hmoves : Scheduling.Moves cfg (sys.engine.scheduler.begin cfg) st₂ :=
    Scheduling.runningPasses_moves hrunning rfl hpass hloop
  have hst := (Scheduling.moves_queueStep hmoves).queued hqueued
  refine Scheduling.waitingPass_admissionSpec ?_ (fun q hq hfsm => ?_) hst.unpredicted hestimate
    hshould hwait
  · exact (List.nodup_append.mp (List.nodup_append.mp hst.places_nodup).1).1
  · have hguided := hst.structured q hfsm
    rw [hunstructured q hq] at hguided
    exact absurd hguided Bool.false_ne_true

/-- The pool is in use as soon as a request runs, and the projection looks ahead four iterations. -/
def lookahead : Config where
  scheduler := { maxNumSeqs := 2, maxNumBatchedTokens := 4 }
  spexis := { spexisVer := .v2_5, memEstiBar := 0, maxEstimateIter := 4, prefillReserveBlocks := 0 }
  kvCache := { blockSize := 2, numBlocks := 16, maxModelLen := 12, numPreallocateTokens := 0 }
  pipelineParallelSize := 2

theorem run_admissionSpec_second_request :
    ∃ operations sys estimate st st', Run lookahead operations sys ∧
      sys.engine.scheduler.admissionPasses lookahead = .ok (estimate, st, st') ∧
      st.runningScheduled = [0] ∧ st'.runningScheduled = [0, 1] ∧
      ∃ admitted, Scheduling.AdmissionSpec lookahead estimate st st' admitted := by
  let operations : List Operation :=
    [.addRequest 0 [5, 6] { maxTokens := 4 } none] ++ iteration (constantExecutor 3 3) ++
      [.addRequest 1 [7] { maxTokens := 4 } none, .verify]
  have hsome : (applyAll lookahead operations (init lookahead)).bind (fun sys =>
      (sys.engine.scheduler.admissionPasses lookahead).toOption.map fun passes =>
        (passes.1.shouldEstimateLength, passes.2.1.runningScheduled, passes.2.1.waiting,
          passes.2.1.waiting.map fun q => (passes.2.1.request q).useStructuredOutput,
          passes.2.2.runningScheduled)) =
      some (true, [0], [1], [false], [0, 1]) := by
    decide +kernel
  obtain ⟨sys, hsys, hpasses⟩ := Option.bind_eq_some_iff.mp hsome
  obtain ⟨⟨estimate, st, st'⟩, hok, hvalues⟩ := Option.map_eq_some_iff.mp hpasses
  have hadmission : sys.engine.scheduler.admissionPasses lookahead = .ok (estimate, st, st') := by
    cases hcase : sys.engine.scheduler.admissionPasses lookahead with
    | error e => simp [hcase, Except.toOption] at hok
    | ok passes => simpa [hcase, Except.toOption] using hok
  simp only [Prod.mk.injEq] at hvalues
  obtain ⟨hshould, hrunning, hwaiting, hguided, hrunning'⟩ := hvalues
  refine ⟨operations, sys, estimate, st, st', applyAll_run hsys, hadmission, hrunning, hrunning',
    run_admissionSpec (applyAll_run hsys) hadmission (fun q hq => ?_) hshould⟩
  rw [hwaiting] at hguided hq
  obtain rfl := List.mem_singleton.mp hq
  simpa using hguided

end System

end Spexis
