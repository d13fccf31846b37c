import Spexis.Verification.Announcements
import Spexis.Verification.Worker.BlockTables

/-! # The block tables of the workers against the block manager

A request keeps its blocks between two batches, and a batch that is launched carries to the rows
what the scheduler has handed out. -/

namespace Spexis

open Python

namespace KVCacheManager

variable {m : KVCacheManager} {numBlocks : ℕ} {owners : List ReqId}

/-- A request can return its blocks and stay an owner. -/
theorem Exclusive.release (h : m.Exclusive numBlocks owners) (cfg : KVCacheConfig) (q : ReqId) :
    (m.free cfg q).Exclusive numBlocks owners := by
  have hfree := h.free cfg q
  by_cases hq : q ∈ owners
  · have henter := hfree.enter h.ledger.nodup.not_mem_erase
    have hperm : (owners.erase q ++ [q]).Perm owners :=
      List.perm_append_comm.trans (List.perm_cons_erase hq).symm
    exact ⟨henter.size, henter.ledger.reorder hperm, henter.free_refCnt, henter.owned_refCnt,
      henter.unhashed⟩
  · rwa [List.erase_of_not_mem hq] at hfree

end KVCacheManager

namespace Scheduler

variable {cfg : Config} {s s' s₁ s₂ s₃ : Scheduler} {reqId : ReqId}

/-! ## Between two batches -/

/-- The live requests that run go on, and no live request loses or gains a block. -/
structure Holds (s s' : Scheduler) : Prop where
  running : s'.runningScheduled ⊆ s.runningScheduled
  remains : ∀ q ∈ s.runningScheduled, q ∈ s'.requests → q ∈ s'.runningScheduled
  blocks : ∀ q ∈ s'.requests, s'.blocksOf q = s.blocksOf q
  freed : ∀ q, s'.blocksOf q = s.blocksOf q ∨ s'.blocksOf q = []

theorem Holds.of_eq (hrunning : s'.runningScheduled = s.runningScheduled)
    (hblocks : s'.kvCacheManager.reqToBlocks = s.kvCacheManager.reqToBlocks) : Holds s s' where
  running := hrunning ▸ List.Subset.refl _
  remains _ hq _ := hrunning ▸ hq
  blocks q _ := congrFun hblocks q
  freed q := .inl (congrFun hblocks q)

theorem Holds.trans (h : Holds s₁ s₂) (h' : Holds s₂ s₃) (hsub : s₃.requests ⊆ s₂.requests) :
    Holds s₁ s₃ where
  running q hq := h.running (h'.running hq)
  remains q hq hlive := h'.remains q (h.remains q hq (hsub hlive)) hlive
  blocks q hlive := (h'.blocks q hlive).trans (h.blocks q (hsub hlive))
  freed q := by
    rcases h'.freed q with hsame | hnil
    · rw [hsame]
      exact h.freed q
    · exact .inr hnil

/-- A request leaves and returns its blocks. -/
theorem Holds.of_free (hnodup : s.requests.Nodup) (hrequests : s'.requests = s.requests.erase reqId)
    (hrunning : s'.runningScheduled = s.runningScheduled ∨
      s'.runningScheduled = s.runningScheduled.erase reqId)
    (hblocks : s'.kvCacheManager.reqToBlocks =
      Function.update s.kvCacheManager.reqToBlocks reqId []) : Holds s s' := by
  have hne : ∀ q ∈ s'.requests, q ≠ reqId := by
    intro q hq
    rw [hrequests, hnodup.mem_erase_iff] at hq
    exact hq.1
  refine ⟨?_, fun q hq hlive => ?_, fun q hlive => ?_, fun q => ?_⟩
  · rcases hrunning with hsame | herase
    · exact hsame ▸ List.Subset.refl _
    · exact herase ▸ List.erase_subset
  · rcases hrunning with hsame | herase
    · exact hsame ▸ hq
    · rw [herase]
      exact (List.mem_erase_of_ne (hne q hlive)).mpr hq
  · rw [blocksOf, hblocks, Function.update_of_ne (hne q hlive)]
  · rw [blocksOf, hblocks]
    by_cases hq : q = reqId
    · rw [hq, Function.update_self]
      exact .inr rfl
    · rw [Function.update_of_ne hq]
      exact .inl rfl

theorem VerifyMove.holds {output : ModelRunnerOutput} {outputs : List EngineCoreOutput}
    (hnodup : s.requests.Nodup) (h : VerifyMove cfg output s reqId outputs s') : Holds s s' := by
  cases h with
  | goesOn => exact .of_eq rfl rfl
  | stops => exact .of_free hnodup rfl (.inr rfl) rfl

theorem VerifyMoves.holds {output : ModelRunnerOutput} {reqIds : List ReqId}
    {outputs : List EngineCoreOutput} (hnodup : s.requests.Nodup)
    (h : VerifyMoves cfg output s reqIds outputs s') : Holds s s' := by
  induction h with
  | nil => exact .of_eq rfl rfl
  | cons hmove hmoves ih =>
      have hnodup₁ := hnodup.sublist (hmove.retires hnodup).requests
      exact (hmove.holds hnodup).trans (ih hnodup₁) (hmoves.retires hnodup₁).requests.subset

/-- An aborted request returns its blocks, also where it stays in the running list. -/
theorem finishRequests_holds {status : RequestStatus} {reqIds : List ReqId}
    (hnodup : s.requests.Nodup) (hexclusive : s.Exclusive cfg)
    (h : s.finishRequests cfg status reqIds = .ok s') : Holds s s' ∧ s'.Exclusive cfg ∧
      ∀ q, (s'.request q).numComputedTokens = (s.request q).numComputedTokens := by
  have hassert : status.isFinished = true := by
    simp only [finishRequests, bind_eq_ok, pyAssert_eq_ok] at h
    obtain ⟨_, hfinished, -⟩ := h
    exact hfinished
  have hrest : ∀ {s : Scheduler} {reqIds : List ReqId},
      finishRequests.go cfg status reqIds s = .ok s' →
        s.finishRequests cfg status reqIds = .ok s' := by
    intro s reqIds hgo
    simp only [finishRequests, bind_eq_ok, pyAssert_eq_ok]
    exact ⟨(), hassert, hgo⟩
  replace h : finishRequests.go cfg status reqIds s = .ok s' := by
    simp only [finishRequests, bind_eq_ok, pyAssert_eq_ok] at h
    obtain ⟨_, -, h⟩ := h
    exact h
  induction reqIds generalizing s with
  | nil =>
      cases h
      exact ⟨.of_eq rfl rfl, hexclusive, fun _ => rfl⟩
  | cons reqId reqIds ih =>
      simp only [finishRequests.go] at h
      by_cases hlive : reqId ∉ s.requests
      · rw [if_pos hlive] at h
        exact ih hnodup hexclusive h
      rw [if_neg hlive] at h
      by_cases hguard : (s.request reqId).status ≠ .running ∧ reqId ∉ s.waiting
      · rw [if_pos hguard] at h
        cases h
      rw [if_neg hguard] at h
      simp only [bind_eq_ok] at h
      obtain ⟨s₁, hfree, h⟩ := h
      obtain ⟨-, -, hs₁⟩ := freeRequest_eq_ok hfree
      have hfreed : s₁.requests = s.requests.erase reqId ∧
          s₁.runningScheduled = s.runningScheduled ∧
          s₁.kvCacheManager =
            (s.kvCacheManager.free cfg.kvCache reqId).freeBlockHashes reqId ∧
          s₁.request = Function.update s.request reqId
            { s.request reqId with status := status } := by
        rw [hs₁]
        split_ifs <;> exact ⟨rfl, rfl, rfl, rfl⟩
      obtain ⟨hrequests, hrunning, hkv, hrequest⟩ := hfreed
      have hnodup₁ : s₁.requests.Nodup := hrequests ▸ hnodup.erase reqId
      have hexclusive₁ : s₁.Exclusive cfg := by
        rw [Scheduler.Exclusive, hkv, hrunning]
        exact (hexclusive.release cfg.kvCache reqId).congr rfl rfl
      have hone : Holds s s₁ := by
        refine .of_free hnodup hrequests (.inl hrunning) ?_
        rw [hkv]
        rfl
      obtain ⟨hholds, hexclusive', hcomputed⟩ := ih hnodup₁ hexclusive₁ h
      refine ⟨hone.trans hholds (finishRequests_retires hnodup₁ (hrest h)).requests.subset,
        hexclusive', fun q => ?_⟩
      rw [hcomputed, hrequest]
      by_cases hq : q = reqId
      · rw [hq, Function.update_self]
      · rw [Function.update_of_ne hq]

end Scheduler

namespace EngineCore

/-- A batch is launched if and only if it has tokens. -/
theorem schedule_result {cfg : Config} {execute : Executor} {e e' : EngineCore}
    (h : e.schedule cfg execute = .ok e') : ∃ result,
      e.scheduler.schedule cfg = .ok (result, e'.scheduler) ∧
      ((∃ specOutput, e'.phase = .executing result.schedulerOutput specOutput) ∧
          0 < result.schedulerOutput.totalNumScheduledTokens ∨
        e'.phase = .idle ∧ result.schedulerOutput.totalNumScheduledTokens = 0) := by
  simp only [schedule, bind_eq_ok, Prod.exists] at h
  obtain ⟨result, s, hschedule, h⟩ := h
  split_ifs at h with htotal <;> obtain rfl := pure_eq_ok.mp h
  · exact ⟨result, hschedule, .inl ⟨⟨_, rfl⟩, htotal⟩⟩
  · exact ⟨result, hschedule, .inr ⟨rfl, Nat.eq_zero_of_not_pos htotal⟩⟩

end EngineCore

namespace System

open Scheduler

variable {cfg : Config} {sys sys' : System} {operation : Operation} {execute : Executor}

theorem Step.holds (h : sys.Registered) (hexclusive : sys.engine.scheduler.Exclusive cfg)
    (hstep : Step cfg sys operation sys') (hne : ∀ execute, operation ≠ .schedule execute) :
    Holds sys.engine.scheduler sys'.engine.scheduler ∧ sys'.engine.scheduler.Exclusive cfg := by
  cases hstep with
  | addRequest reqId promptTokenIds samplingParams eosTokenId hphase hfresh hadd =>
      unfold Scheduler.addRequest at hadd
      split_ifs at hadd
      cases hadd
      exact ⟨.of_eq rfl rfl, hexclusive⟩
  | compileGrammar => exact ⟨.of_eq rfl rfl, hexclusive⟩
  | finishRequests finishedStatus reqIds hphase hnodup hfinish =>
      obtain ⟨hholds, hexclusive', -⟩ := finishRequests_holds h.nodup hexclusive hfinish
      exact ⟨hholds, hexclusive'⟩
  | verify hphase hverify =>
      rcases EngineCore.verify_cases hverify with ⟨-, hs, -⟩ | ⟨batch, queue, -, -, hmoves⟩
      · rw [hs]
        exact ⟨.of_eq rfl rfl, hexclusive⟩
      · exact ⟨hmoves.holds h.nodup, hmoves.exclusive hexclusive⟩
  | schedule execute => exact absurd rfl (hne execute)
  | ingest hphase hingest =>
      simp only [EngineCore.ingest, hphase, bind_eq_ok, pure_eq_ok] at hingest
      obtain ⟨s, hupdate, rfl⟩ := hingest
      have hfront := (List.nodup_append.mp h.queued.queued.places_nodup).1
      have hspec := updateFromSpecOutput_spec (List.nodup_append.mp hfront).2.1 hupdate
      refine ⟨.of_eq ?_ ?_, ?_⟩
      · rw [hspec.eq]
      · rw [hspec.eq]
      · change s.Exclusive cfg
        rw [hspec.eq]
        exact hexclusive

/-- What scheduling hands out. -/
theorem Step.supplySpec (hfull : cfg.kvCache.kvCacheSpec = .fullAttention) (h : sys.Registered)
    (hexclusive : sys.engine.scheduler.Exclusive cfg)
    (hcapped : ∀ q, (sys.engine.scheduler.blocksOf q).length ≤ cfg.kvCache.maxNumBlocksPerReq)
    (hstep : Step cfg sys (.schedule execute) sys') : ∃ out,
      SupplySpec cfg sys.engine.scheduler out sys'.engine.scheduler ∧
      BatchSpec sys.engine.scheduler out sys'.engine.scheduler ∧
      ((∃ specOutput, sys'.engine.phase = .executing out specOutput) ∧
          0 < out.totalNumScheduledTokens ∨
        sys'.engine.phase = .idle ∧ out.totalNumScheduledTokens = 0) := by
  cases hstep with
  | schedule _ hphase hschedule =>
      obtain ⟨result, hresult, hcases⟩ := EngineCore.schedule_result hschedule
      exact ⟨_, schedule_supplySpec hfull h.queued.queued hexclusive hcapped hresult,
        schedule_batchSpec h.queued.queued hresult, hcases⟩

end System

/-- No request is resumed that has kept its row. -/
def Delivery.ResumesOutside (d : Delivery) (b : InputBatch) : Prop :=
  ∀ data ∈ d.schedulerOutput.scheduledCachedReqs, data.resumedFromPreemption = true →
    ¬ b.Present data.reqId

instance (d : Delivery) (b : InputBatch) : Decidable (d.ResumesOutside b) :=
  inferInstanceAs (Decidable (∀ data ∈ d.schedulerOutput.scheduledCachedReqs,
    data.resumedFromPreemption = true → data.reqId ∉ b.reqIdToIndex.map Prod.fst))

theorem Delivery.ResumesOutside.continues {d : Delivery} {b : InputBatch}
    {data : CachedRequestData} {entry : List BlockId × ℕ} (h : d.ResumesOutside b)
    (hdata : data ∈ d.schedulerOutput.scheduledCachedReqs)
    (hfiled : b.filed data.reqId = some entry) : data.resumedFromPreemption = false := by
  by_contra hflag
  have hnot := h data hdata (Bool.eq_true_of_not_eq_false hflag)
  rw [InputBatch.filed, dictGet?_eq_none.mpr hnot] at hfiled
  cases hfiled

namespace Cluster

open ModelRunner InputBatch

variable {cfg : Config} {runner : RunnerConfig} {c c' : Cluster} {event : Event}
  {events : List Event} {execute : Executor} {d : Delivery} {q : ReqId}

/-- The requests in the scheduler with the blocks that it has given them. -/
abbrev scheduler (c : Cluster) : Scheduler :=
  c.system.engine.scheduler

/-! ## Runs -/

/-- The worker knows the blocks of every running request, and its rows are as it knows them. -/
structure Stocked (cfg : Config) (runner : RunnerConfig) (c : Cluster) : Prop where
  informed : c.Informed
  exclusive : c.scheduler.Exclusive cfg
  capped : ∀ q, (c.scheduler.blocksOf q).length ≤ cfg.kvCache.maxNumBlocksPerReq
  follows : Follows runner anyRow c.worker
  short : ∀ q blocks n, c.worker.card q = some (blocks, n) →
    blocks.length ≤ cfg.kvCache.maxNumBlocksPerReq
  known : ∀ q ∈ c.scheduler.runningScheduled, q ∈ c.scheduler.requests →
    ∃ n, c.worker.card q = some (c.scheduler.blocksOf q, n)
  filed : ∀ q entry, c.worker.inputBatch.filed q = some entry → c.worker.card q = some entry

theorem init_stocked (cfg : Config) (runner : RunnerConfig) : (init cfg).Stocked cfg runner where
  informed := init_informed cfg
  exclusive := System.init_exclusive cfg
  capped _ := Nat.zero_le _
  follows := init_follows (anyRow_sound runner.batch)
  short _ _ _ hcard := by cases hcard
  known _ hq := absurd hq List.not_mem_nil
  filed _ _ hfiled := by cases hfiled

/-- A live request that does not run has no row. -/
def Cleared (c : Cluster) : Prop :=
  ∀ q, c.worker.inputBatch.Present q → q ∈ c.scheduler.requests →
    q ∈ c.scheduler.runningScheduled

theorem Stocked.knows (h : c.Stocked cfg runner) (hq : c.worker.inputBatch.Present q) :
    c.worker.Knows q := by
  obtain ⟨i, hi⟩ := h.follows.kept.indexed.present_iff.mp hq
  obtain ⟨request, hrequest, -⟩ := h.follows.kept.rows i q hi
  exact Option.isSome_iff_exists.mpr ⟨request, hrequest⟩

/-- Between two batches. -/
theorem Stocked.operate {operation : Operation} {sys : System} (h : c.Stocked cfg runner)
    (hstep : System.Step cfg c.system operation sys)
    (hne : ∀ execute, operation ≠ .schedule execute)
    (hinformed : Informed { c with system := sys }) :
    Stocked cfg runner { c with system := sys } ∧
      (c.Cleared → Cleared { c with system := sys }) := by
  have hregistered := h.informed.registered
  obtain ⟨-, hadvances, -⟩ := hstep.registered hregistered hne
  obtain ⟨hholds, hexclusive⟩ := hstep.holds hregistered h.exclusive hne
  have hadded : ∀ q ∈ c.scheduler.runningScheduled, q ∈ c.system.added := fun q hq =>
    hregistered.queued.added (List.mem_append_left _ (List.mem_append_right _ hq))
  refine ⟨⟨hinformed, hexclusive, fun q => ?_, h.follows, h.short, fun q hq hlive => ?_, h.filed⟩,
    fun hcleared q hpresent hlive => ?_⟩
  · rcases hholds.freed q with hsame | hnil
    · exact hsame ▸ h.capped q
    · change (sys.engine.scheduler.blocksOf q).length ≤ _
      rw [hnil]
      exact Nat.zero_le _
  · have hrunning := hholds.running hq
    have hold := (hadvances.requests q hlive).resolve_right (not_not.mpr (hadded q hrunning))
    obtain ⟨n, hcard⟩ := h.known q hrunning hold
    exact ⟨n, (hholds.blocks q hlive).symm ▸ hcard⟩
  · have hold := (hadvances.requests q hlive).resolve_right
      (not_not.mpr (h.informed.known q (h.knows hpresent)).1)
    exact hholds.remains q (hcleared q hpresent hold) hlive

/-- A call of `schedule` that launches nothing. -/
theorem Stocked.pause {sys : System} (hfull : cfg.kvCache.kvCacheSpec = .fullAttention)
    (h : c.Stocked cfg runner) (hstep : System.Step cfg c.system (.schedule execute) sys)
    (hquiet : sys.engine.phase = .idle) (hinformed : Informed { c with system := sys }) :
    Stocked cfg runner { c with system := sys } ∧
      (sys.engine.scheduler.runningScheduled = c.scheduler.runningScheduled →
        c.Cleared → Cleared { c with system := sys }) := by
  obtain ⟨out, hsupply, hbatch, hcases⟩ :=
    hstep.supplySpec hfull h.informed.registered h.exclusive h.capped
  have hempty := hsupply.numScheduledTokens_eq_nil (by
    rcases hcases with ⟨⟨specOutput, hphase⟩, -⟩ | ⟨-, htotal⟩
    · rw [hquiet] at hphase
      cases hphase
    · exact htotal)
  have hnone : ∀ q, q ∉ out.reqIds := by
    intro q hq
    have hsched := hbatch.perm.mem_iff.mp hq
    rw [hempty] at hsched
    exact absurd hsched List.not_mem_nil
  refine ⟨⟨hinformed, hsupply.exclusive, hsupply.capped, h.follows, h.short,
    fun q hq hlive => ?_, h.filed⟩, fun hkeeps hcleared q hpresent hlive => ?_⟩
  · obtain ⟨hrunning, hblocks⟩ := hsupply.kept q hq (hnone q)
    obtain ⟨n, hcard⟩ := h.known q hrunning (hbatch.requests ▸ hlive)
    exact ⟨n, hblocks.symm ▸ hcard⟩
  · have hrunning := hcleared q hpresent (hbatch.requests ▸ hlive)
    exact hkeeps.symm ▸ hrunning

/-- The rows of the workers after a launch, against the scheduler. -/
structure TableSpec (cfg : Config) (out : SpexisSchedulerOutput) (c : Cluster) : Prop where
  rows : ∀ q, (∃ i, c.worker.inputBatch.slot i = some q) ↔
    q ∈ out.numScheduledTokens.map Prod.fst
  running : ∀ i q, c.worker.inputBatch.slot i = some q → q ∈ c.scheduler.runningScheduled
  blocks : ∀ i q, c.worker.inputBatch.slot i = some q →
    c.worker.inputBatch.blockTable.blockRow i = c.scheduler.blocksOf q
  computed : ∀ i q, c.worker.inputBatch.slot i = some q →
    c.worker.inputBatch.numComputedTokensCpu i + out.numScheduled q =
      (c.scheduler.request q).numComputedTokens
  covered : ∀ i q, c.worker.inputBatch.slot i = some q →
    min (cdiv (c.scheduler.request q).numComputedTokens cfg.kvCache.blockSize)
      cfg.kvCache.maxNumBlocksPerReq ≤ (c.worker.inputBatch.blockTable.blockRow i).length
  owned : ∀ i q, c.worker.inputBatch.slot i = some q →
    (c.worker.inputBatch.blockTable.blockRow i).Nodup ∧
      ∀ block ∈ c.worker.inputBatch.blockTable.blockRow i,
        block ≠ nullBlock ∧ block < cfg.kvCache.numBlocks ∧
          ∀ q', block ∈ c.scheduler.blocksOf q' → q' = q

section Launch

variable {s' : Scheduler} {worker : ModelRunner}
  (hwidth : cfg.kvCache.maxNumBlocksPerReq ≤ runner.batch.maxNumBlocksPerReq)
  (h : c.Stocked cfg runner)
  (hsupply : Scheduler.SupplySpec cfg c.scheduler d.schedulerOutput s')
  (hbatch : Scheduler.BatchSpec c.scheduler d.schedulerOutput s')
  (hresumes : d.ResumesOutside c.worker.inputBatch)
include h hsupply hbatch

/-- What the worker makes of the blocks of a cached request is what the scheduler has for it. -/
theorem Stocked.updated {data : CachedRequestData} {blocks : List BlockId} {n : ℕ}
    (hdata : data ∈ d.schedulerOutput.scheduledCachedReqs)
    (hcard : c.worker.card data.reqId = some (blocks, n)) :
    data.blocks blocks = s'.blocksOf data.reqId := by
  rw [hsupply.cached data hdata, CachedRequestData.blocks, CachedRequestData.blocks]
  split_ifs with hflag
  · rfl
  · have hrunning := hsupply.continued data hdata (Bool.eq_false_iff.mpr hflag)
    have hlive := hbatch.live data.reqId (List.mem_append_right _ (List.mem_map_of_mem hdata))
    obtain ⟨n', hknown⟩ := h.known data.reqId hrunning hlive
    obtain ⟨rfl, -⟩ := Prod.mk.inj (Option.some.inj (hcard.symm.trans hknown))
    rfl

include hwidth in
theorem Stocked.cardsFit : CardsFit runner d c.worker where
  new data hdata := by
    rw [← hsupply.new data hdata]
    exact (hsupply.capped _).trans hwidth
  cached data hdata blocks n hcard := by
    rw [h.updated hsupply hbatch hdata hcard]
    exact (hsupply.capped _).trans hwidth
  other q blocks n hcard := (h.short q blocks n hcard).trans hwidth

include hwidth hresumes in
theorem Stocked.hasRoom :
    HasRoom runner c.worker.inputBatch.filed d.schedulerOutput.scheduledCachedReqs := by
  intro data hdata blocks n hfiled
  have hupdated := h.updated hsupply hbatch hdata (h.filed _ _ hfiled)
  rw [CachedRequestData.blocks, hresumes.continues hdata hfiled,
    if_neg Bool.false_ne_true] at hupdated
  rw [← List.length_append, hupdated]
  exact (hsupply.capped _).trans hwidth

/-- The workers know the blocks of the listed requests as the scheduler does. -/
theorem Stocked.listed (hfiling : FilingSpec d c.worker worker)
    (hq : q ∈ d.schedulerOutput.reqIds) :
    ∃ n, worker.card q = some (s'.blocksOf q, n) ∧ (q, n) ∈ d.schedulerOutput.starts := by
  rcases List.mem_append.mp hq with hq | hq
  · obtain ⟨data, hdata, rfl⟩ := List.mem_map.mp hq
    refine ⟨data.numComputedTokens, ?_, List.mem_append_left _ (List.mem_map_of_mem hdata)⟩
    rw [hfiling.new data hdata, hsupply.new data hdata]
  · obtain ⟨data, hdata, rfl⟩ := List.mem_map.mp hq
    obtain ⟨blocks, n, hcard, hcard'⟩ := hfiling.cached data hdata
    refine ⟨data.numComputedTokens, ?_, List.mem_append_right _ (List.mem_map_of_mem hdata)⟩
    rw [hcard', h.updated hsupply hbatch hdata hcard]

omit hsupply hbatch in
include hresumes in
/-- The listed requests have rows, with what the workers know of them. -/
theorem Stocked.listed_filed (hfiling : FilingSpec d c.worker worker)
    (hq : q ∈ d.schedulerOutput.reqIds) : worker.inputBatch.filed q = worker.card q := by
  by_cases hjoins : q ∈ d.joining c.worker.inputBatch
  · exact hfiling.joins q hjoins
  · have hq : q ∈ d.schedulerOutput.scheduledCachedReqs.map (·.reqId) :=
      (List.mem_append.mp hq).resolve_left fun hnew => hjoins (List.mem_append_left _ hnew)
    have hstays : d.Stays c.worker.inputBatch q := by
      by_contra hnot
      exact hjoins (List.mem_append_right _ (List.mem_filter.mpr ⟨hq, decide_eq_true hnot⟩))
    obtain ⟨data, hdata, rfl⟩ := List.mem_map.mp hq
    obtain ⟨entry, hentry⟩ : ∃ entry, c.worker.inputBatch.filed data.reqId = some entry := by
      rw [← Option.ne_none_iff_exists']
      intro hnone
      rw [InputBatch.filed, Option.map_eq_none_iff, dictGet?_eq_none] at hnone
      exact hnone hstays.1
    obtain ⟨blocks, n, hcard, hcard'⟩ := hfiling.cached data hdata
    obtain rfl := Option.some.inj ((h.filed _ entry hentry).symm.trans hcard)
    rw [hfiling.stays data hdata hstays, hentry, hcard', Option.map_some,
      CachedRequestData.blocks, hresumes.continues hdata hentry,
      if_neg Bool.false_ne_true]

omit h hsupply in
theorem unlisted_filed (hfiling : FilingSpec d c.worker worker)
    (hq : q ∉ d.schedulerOutput.reqIds) : worker.inputBatch.filed q = none := by
  rw [hfiling.unlisted q hq, if_neg]
  exact fun hstays => hq (hbatch.perm.mem_iff.mpr hstays.2.2)

omit hsupply hbatch in
include hresumes in
/-- The workers keep up with what the scheduler hands out. -/
theorem Stocked.launched {sys : System}
    (hbatch : Scheduler.BatchSpec c.scheduler d.schedulerOutput sys.engine.scheduler)
    (hsupply : Scheduler.SupplySpec cfg c.scheduler d.schedulerOutput sys.engine.scheduler)
    (hinformed : Informed ⟨sys, worker⟩) (hfollows : Follows runner anyRow worker)
    (hfiling : FilingSpec d c.worker worker) : Stocked cfg runner ⟨sys, worker⟩ := by
  have hcases : ∀ q entry, worker.inputBatch.filed q = some entry →
      q ∈ d.schedulerOutput.reqIds := by
    intro q entry hfiled
    by_contra hq
    rw [unlisted_filed hbatch hfiling hq] at hfiled
    cases hfiled
  refine ⟨hinformed, hsupply.exclusive, hsupply.capped, hfollows, fun q blocks n hcard => ?_,
    fun q hq hlive => ?_, fun q entry hfiled => ?_⟩
  · by_cases hq : q ∈ d.schedulerOutput.reqIds
    · obtain ⟨n', hknown, -⟩ := h.listed hsupply hbatch hfiling hq
      obtain ⟨rfl, -⟩ := Prod.mk.inj (Option.some.inj (hcard.symm.trans hknown))
      exact hsupply.capped q
    · change worker.card q = some (blocks, n) at hcard
      rw [hfiling.other q hq] at hcard
      split_ifs at hcard
      exact h.short q blocks n hcard
  · by_cases hlisted : q ∈ d.schedulerOutput.reqIds
    · obtain ⟨n, hknown, -⟩ := h.listed hsupply hbatch hfiling hlisted
      exact ⟨n, hknown⟩
    · obtain ⟨hrunning, hblocks⟩ := hsupply.kept q hq hlisted
      have hold : q ∈ c.scheduler.requests := hbatch.requests ▸ hlive
      obtain ⟨n, hknown⟩ := h.known q hrunning hold
      have hnot : q ∉ d.schedulerOutput.finishedReqIds := by
        rw [hbatch.finishedReqIds]
        exact fun hfinished => (h.informed.registered.finished q hfinished).2 hold
      refine ⟨n, ?_⟩
      change worker.card q = some (sys.engine.scheduler.blocksOf q, n)
      rw [hfiling.other q hlisted, if_neg hnot, hknown, hblocks]
  · exact (h.listed_filed hresumes hfiling (hcases q entry hfiled)).symm.trans hfiled

omit hsupply hbatch in
include hresumes in
theorem Stocked.launched_tables {sys : System}
    (hbatch : Scheduler.BatchSpec c.scheduler d.schedulerOutput sys.engine.scheduler)
    (hsupply : Scheduler.SupplySpec cfg c.scheduler d.schedulerOutput sys.engine.scheduler)
    (hfollows : Follows runner anyRow worker) (hfiling : FilingSpec d c.worker worker) :
    TableSpec cfg d.schedulerOutput ⟨sys, worker⟩ := by
  have hindexed := hfollows.kept.indexed
  have hrows : ∀ q, (∃ i, worker.inputBatch.slot i = some q) ↔ q ∈ d.schedulerOutput.reqIds := by
    intro q
    constructor
    · rintro ⟨i, hi⟩
      by_contra hq
      exact hindexed.filed_eq_none.mp (unlisted_filed hbatch hfiling hq) i hi
    · intro hq
      by_contra hnone
      obtain ⟨n, hknown, -⟩ := h.listed hsupply hbatch hfiling hq
      rw [← h.listed_filed hresumes hfiling hq,
        hindexed.filed_eq_none.mpr (not_exists.mp hnone)] at hknown
      cases hknown
  -- the row of a request holds what the workers know of it
  have hrow : ∀ i q, worker.inputBatch.slot i = some q →
      worker.inputBatch.blockTable.blockRow i = sys.engine.scheduler.blocksOf q ∧
        (q, worker.inputBatch.numComputedTokensCpu i) ∈ d.schedulerOutput.starts := by
    intro i q hi
    have hq := (hrows q).mp ⟨i, hi⟩
    obtain ⟨n, hknown, hstart⟩ := h.listed hsupply hbatch hfiling hq
    rw [← h.listed_filed hresumes hfiling hq, hindexed.filed_eq hi, Option.some_inj,
      Prod.mk.injEq] at hknown
    obtain ⟨hblocks, rfl⟩ := hknown
    exact ⟨hblocks, hstart⟩
  refine ⟨fun q => (hrows q).trans hbatch.perm.mem_iff,
    fun i q hi => hsupply.running ((hrows q).mp ⟨i, hi⟩), fun i q hi => (hrow i q hi).1,
    fun i q hi => (hsupply.computed _ (hrow i q hi).2).symm, fun i q hi => ?_, fun i q hi => ?_⟩
  · rw [show worker.inputBatch.blockTable.blockRow i = _ from (hrow i q hi).1]
    exact hsupply.covered q ((hrows q).mp ⟨i, hi⟩)
  · have hledger := hsupply.exclusive.ledger
    have hitems := sys.engine.scheduler.kvCacheManager.blockPool.items_nodup
    change (worker.inputBatch.blockTable.blockRow i).Nodup ∧
      ∀ block ∈ worker.inputBatch.blockTable.blockRow i, _
    rw [(hrow i q hi).1]
    refine ⟨hsupply.exclusive.nodup q, fun block hblock => ?_⟩
    have hmem := hledger.mem_items.mpr (.inr ⟨q, hblock⟩)
    rw [BlockPool.mem_items, hsupply.exclusive.size] at hmem
    exact ⟨hmem.1, hmem.2, fun q' hq' => hledger.owner_unique hitems hq' hblock⟩

end Launch

/-- What the scheduler does in a launch. -/
theorem Stocked.launch_supply (hfull : cfg.kvCache.kvCacheSpec = .fullAttention)
    (h : c.Stocked cfg runner) (hstep : Step cfg runner c (.launch execute d) c') :
    Scheduler.SupplySpec cfg c.scheduler d.schedulerOutput c'.scheduler ∧
      Scheduler.BatchSpec c.scheduler d.schedulerOutput c'.scheduler ∧
      0 < d.schedulerOutput.totalNumScheduledTokens := by
  cases hstep with
  | launch _ _ hschedule hphase hupdate =>
      obtain ⟨out, hsupply, hbatch, hcases⟩ :=
        hschedule.supplySpec hfull h.informed.registered h.exclusive h.capped
      rcases hcases with ⟨⟨specOutput', hphase'⟩, htotal⟩ | ⟨hidle, -⟩
      · rw [hphase] at hphase'
        cases hphase'
        exact ⟨hsupply, hbatch, htotal⟩
      · rw [hphase] at hidle
        cases hidle

theorem Stocked.launch (hfull : cfg.kvCache.kvCacheSpec = .fullAttention)
    (hwidth : cfg.kvCache.maxNumBlocksPerReq ≤ runner.batch.maxNumBlocksPerReq)
    (h : c.Stocked cfg runner) (hresumes : d.ResumesOutside c.worker.inputBatch)
    (hstep : Step cfg runner c (.launch execute d) c') :
    c'.Stocked cfg runner ∧ TableSpec cfg d.schedulerOutput c' := by
  obtain ⟨hsupply, hbatch, -⟩ := h.launch_supply hfull hstep
  have hinformed := hstep.informed h.informed
  have hwell := (hstep.launchSpec h.informed).wellFormed
  cases hstep with
  | launch _ _ hschedule hphase hupdate =>
      obtain ⟨hfollows, hfiling⟩ := updateStates_filing h.follows hwell
        (h.hasRoom hwidth hsupply hbatch hresumes) (h.cardsFit hwidth hsupply hbatch) hupdate
      exact ⟨h.launched hresumes hbatch hsupply hinformed hfollows hfiling,
        h.launched_tables hresumes hbatch hsupply hfollows hfiling⟩

/-- When live requests lose their row with their place, none is resumed in its row. -/
theorem Cleared.resumesOutside (hfull : cfg.kvCache.kvCacheSpec = .fullAttention)
    (hcleared : c.Cleared) (h : c.Stocked cfg runner)
    (hstep : Step cfg runner c (.launch execute d) c') :
    d.ResumesOutside c.worker.inputBatch := by
  obtain ⟨hsupply, hbatch, -⟩ := h.launch_supply hfull hstep
  intro data hdata hflag hpresent
  have hlive := hbatch.live data.reqId (List.mem_append_right _ (List.mem_map_of_mem hdata))
  exact hsupply.resumed data hdata hflag (hcleared _ hpresent hlive)

theorem Step.stocked (hfull : cfg.kvCache.kvCacheSpec = .fullAttention)
    (hwidth : cfg.kvCache.maxNumBlocksPerReq ≤ runner.batch.maxNumBlocksPerReq)
    (h : c.Stocked cfg runner)
    (hresumes : ∀ execute d, event = .launch execute d → d.ResumesOutside c.worker.inputBatch)
    (hstep : Step cfg runner c event c') : c'.Stocked cfg runner := by
  have hinformed := hstep.informed h.informed
  cases id hstep with
  | operate operation hsystem hquiet =>
      by_cases hschedule : ∃ execute, operation = .schedule execute
      · obtain ⟨execute, rfl⟩ := hschedule
        exact (h.pause hfull hsystem (hquiet execute rfl) hinformed).1
      · exact (h.operate hsystem (not_exists.mp hschedule) hinformed).1
  | launch execute d => exact (h.launch hfull hwidth (hresumes execute d rfl) hstep).1

theorem Step.cleared (hfull : cfg.kvCache.kvCacheSpec = .fullAttention)
    (hwidth : cfg.kvCache.maxNumBlocksPerReq ≤ runner.batch.maxNumBlocksPerReq)
    (h : c.Stocked cfg runner) (hcleared : c.Cleared)
    (hkeeps : ∀ execute, event = .operate (.schedule execute) →
      c'.scheduler.runningScheduled = c.scheduler.runningScheduled)
    (hstep : Step cfg runner c event c') : c'.Cleared := by
  have hinformed := hstep.informed h.informed
  cases id hstep with
  | operate operation hsystem hquiet =>
      by_cases hschedule : ∃ execute, operation = .schedule execute
      · obtain ⟨execute, rfl⟩ := hschedule
        exact (h.pause hfull hsystem (hquiet execute rfl) hinformed).2 (hkeeps execute rfl) hcleared
      · exact (h.operate hsystem (not_exists.mp hschedule) hinformed).2 hcleared
  | launch execute d =>
      obtain ⟨hstocked, htables⟩ :=
        h.launch hfull hwidth (hcleared.resumesOutside hfull h hstep) hstep
      intro q hpresent _
      obtain ⟨i, hi⟩ := hstocked.follows.kept.indexed.present_iff.mp hpresent
      exact htables.running i q hi

variable {t : Transition.Timeline (Step cfg runner)}

/-- No launch resumes a request that has kept its row. -/
def ResumesOutside (t : Transition.Timeline (Step cfg runner)) : Prop :=
  ∀ k < t.length, ∀ execute d, t.label k = .launch execute d →
    d.ResumesOutside (t.state k).worker.inputBatch

/-- No call of `schedule` that launches nothing evicts a request. -/
def EmptyBatchesEvictNothing (t : Transition.Timeline (Step cfg runner)) : Prop :=
  ∀ k < t.length, ∀ execute, t.label k = .operate (.schedule execute) →
    (t.state (k + 1)).scheduler.runningScheduled = (t.state k).scheduler.runningScheduled

/-- Every launch leaves the rows as the scheduler has them. -/
def TablesFollow (t : Transition.Timeline (Step cfg runner)) : Prop :=
  ∀ k < t.length, ∀ execute d, t.label k = .launch execute d →
    TableSpec cfg d.schedulerOutput (t.state (k + 1))

theorem state_stocked (hfull : cfg.kvCache.kvCacheSpec = .fullAttention)
    (hwidth : cfg.kvCache.maxNumBlocksPerReq ≤ runner.batch.maxNumBlocksPerReq)
    (h0 : t.state 0 = init cfg) (hresumes : ResumesOutside t) {k : ℕ} (hk : k ≤ t.length) :
    (t.state k).Stocked cfg runner := by
  induction k with
  | zero =>
      rw [h0]
      exact init_stocked cfg runner
  | succ k ih =>
      exact (t.step k hk).stocked hfull hwidth (ih (Nat.le_of_lt hk)) (hresumes k hk)

theorem state_cleared (hfull : cfg.kvCache.kvCacheSpec = .fullAttention)
    (hwidth : cfg.kvCache.maxNumBlocksPerReq ≤ runner.batch.maxNumBlocksPerReq)
    (h0 : t.state 0 = init cfg) (hempty : EmptyBatchesEvictNothing t) {k : ℕ}
    (hk : k ≤ t.length) : (t.state k).Stocked cfg runner ∧ (t.state k).Cleared := by
  induction k with
  | zero =>
      rw [h0]
      exact ⟨init_stocked cfg runner, fun _ hpresent => absurd hpresent List.not_mem_nil⟩
  | succ k ih =>
      obtain ⟨hstocked, hcleared⟩ := ih (Nat.le_of_lt hk)
      have hstep := t.step k hk
      refine ⟨hstep.stocked hfull hwidth hstocked fun execute d hlabel => ?_,
        hstep.cleared hfull hwidth hstocked hcleared (hempty k hk)⟩
      rw [hlabel] at hstep
      exact hcleared.resumesOutside hfull hstocked hstep

/-- After every launch the rows of the workers hold the blocks that the scheduler has given to the
scheduled requests, unless a request is resumed in its old row; which takes an eviction in a call
that launches nothing. -/
theorem timeline_tableSpec (hfull : cfg.kvCache.kvCacheSpec = .fullAttention)
    (hwidth : cfg.kvCache.maxNumBlocksPerReq ≤ runner.batch.maxNumBlocksPerReq)
    (t : Transition.Timeline (Step cfg runner)) (h0 : t.state 0 = init cfg) :
    (ResumesOutside t → TablesFollow t) ∧ (EmptyBatchesEvictNothing t → ResumesOutside t) := by
  refine ⟨fun hresumes k hk execute d hlabel => ?_, fun hempty k hk execute d hlabel => ?_⟩
  · have hstep := t.step k hk
    rw [hlabel] at hstep
    exact ((state_stocked hfull hwidth h0 hresumes (Nat.le_of_lt hk)).launch hfull hwidth
      (hresumes k hk execute d hlabel) hstep).2
  · have hstep := t.step k hk
    rw [hlabel] at hstep
    obtain ⟨hstocked, hcleared⟩ := state_cleared hfull hwidth h0 hempty (Nat.le_of_lt hk)
    exact hcleared.resumesOutside hfull hstocked hstep

/-! ## Two requests that share six blocks -/

def shortPool : Config where
  scheduler := { maxNumSeqs := 3, maxNumBatchedTokens := 8, longPrefillTokenThreshold := 0 }
  kvCache := { blockSize := 1, numBlocks := 7, maxModelLen := 12, numPreallocateTokens := 0 }
  pipelineParallelSize := 2

def shortPoolRunner : RunnerConfig where
  batch := { maxNumReqs := 3, maxModelLen := 12, maxNumBlocksPerReq := 12, vocabSize := 32,
             float32 := id }
  pipelineParallelSize := 2

/-- The prefill of the two requests takes all the blocks. -/
def sharedPrefill (maxTokens : ℕ) : List Event :=
  [.operate (.addRequest 0 [1, 1, 1] { maxTokens := maxTokens } none),
    .operate (.addRequest 1 [2, 2, 2] { maxTokens := 4 } none)] ++
    launchIteration (System.constantExecutor 5 6) {
      scheduledNewReqs := [⟨0, [1, 1, 1], [1, 2, 3], 0⟩, ⟨1, [2, 2, 2], [4, 5, 6], 0⟩]
      scheduledCachedReqs := []
      numScheduledTokens := [(0, 3), (1, 3)]
      totalNumScheduledTokens := 6
      finishedReqIds := [] }

/-- Request 0 needs a block of request 1, which resumes when request 0 has finished. -/
def resumedOutside : List Event :=
  sharedPrefill 2 ++
    launchIteration (System.constantExecutor 5 6) {
      scheduledNewReqs := []
      scheduledCachedReqs := [⟨0, false, [6], [4], 3, true, -1⟩]
      numScheduledTokens := [(0, 1)]
      totalNumScheduledTokens := 1
      finishedReqIds := [] } ++
    launchIteration (System.constantExecutor 5 6) {
      scheduledNewReqs := []
      scheduledCachedReqs := [⟨0, false, [5], [], 3, false, 0⟩]
      numScheduledTokens := [(0, 1)]
      totalNumScheduledTokens := 1
      finishedReqIds := [] } ++
    emptyIteration (System.constantExecutor 5 6) ++
    launchIteration (System.constantExecutor 5 6) {
      scheduledNewReqs := []
      scheduledCachedReqs := [⟨1, true, [5], [5, 6, 1, 2], 0, false, 0⟩]
      numScheduledTokens := [(1, 4)]
      totalNumScheduledTokens := 4
      finishedReqIds := [0] }

theorem resumedOutside_isSome :
    (resumedOutside.foldlM (apply shortPool shortPoolRunner) (init shortPool)).isSome := by
  decide +kernel

theorem timeline_tableSpec_resumedOutside :
    ∃ t : Transition.Timeline (Step shortPool shortPoolRunner), TablesFollow t ∧
      (t.state t.length).worker.inputBatch.filed 1 = some ([5, 6, 1, 2], 0) := by
  have hspec := timeline_tableSpec rfl (by decide)
    (timelineOf shortPool shortPoolRunner resumedOutside resumedOutside_isSome) rfl
  refine ⟨timelineOf shortPool shortPoolRunner resumedOutside resumedOutside_isSome,
    hspec.1 (hspec.2 ?_), by decide +kernel⟩
  intro k hk execute hlabel
  have hlt : k < 16 := hk
  by_cases hpause : k = 12
  · subst hpause
    decide +kernel
  · interval_cases k <;> first | exact absurd rfl hpause | cases hlabel

/-- Request 1 has to go in a call that launches nothing, and resumes before the next batch. -/
def resumedInside : List Event :=
  sharedPrefill 1 ++ emptyIteration (System.constantExecutor 5 6) ++
    emptyIteration (System.constantExecutor 5 6) ++
    launchIteration (System.constantExecutor 5 6) {
      scheduledNewReqs := []
      scheduledCachedReqs := [⟨1, true, [5], [4, 5, 6, 1], 0, false, 0⟩]
      numScheduledTokens := [(1, 4)]
      totalNumScheduledTokens := 4
      finishedReqIds := [] }

theorem resumedInside_isSome :
    (resumedInside.foldlM (apply shortPool shortPoolRunner) (init shortPool)).isSome := by
  decide +kernel

/-- The row of request 1 then has its old blocks before the new ones. -/
theorem tables_stale : ¬ ∀ cfg runner, cfg.kvCache.kvCacheSpec = .fullAttention →
    cfg.kvCache.maxNumBlocksPerReq ≤ runner.batch.maxNumBlocksPerReq →
    ∀ t : Transition.Timeline (Step cfg runner), t.state 0 = init cfg → TablesFollow t := by
  intro hall
  have hspec := hall _ _ rfl (by decide)
    (timelineOf shortPool shortPoolRunner resumedInside resumedInside_isSome) rfl 10 (by decide)
    _ _ rfl
  have hrow := hspec.blocks 0 1 (by decide +kernel)
  exact absurd hrow (by decide +kernel)

end Cluster

end Spexis
