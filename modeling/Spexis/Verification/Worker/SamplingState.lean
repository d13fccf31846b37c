import Spexis.Verification.Worker.ModelRunner

/-! # Sampling state of the rows

A row holds what its request asks for, unless the request has been appended where a request that
moved away has left something behind. -/

namespace Spexis

open Python

namespace InputBatch

variable {cfg : BatchConfig} {request request' : CachedRequestState} {row : Row}

/-- The sampling state, without the list that the row refers to. -/
def Row.sampling (row : Row) : Row :=
  { row with outputTokenIds := none }

/-- The row of a request that is alone in a new batch. -/
def freshRow (cfg : BatchConfig) (request : CachedRequestState) : Row :=
  (init.row 0).add cfg request

theorem addRequest_init {b : InputBatch} {outputTokenIds : List TokenId}
    (h : init.addRequest cfg request outputTokenIds none = .ok b) :
    b.row 0 = freshRow cfg request ∧ b.entry request.reqId = Entry.of cfg request := by
  have hindex : (none : Option ℕ).getD init.numReqs = 0 := rfl
  have hrow := addRequest_row rfl h 0
  have hentry := addRequest_entry rfl h request.reqId
  rw [hindex, if_pos rfl] at hrow
  rw [if_pos rfl] at hentry
  have hblank : init.entry request.reqId = Entry.blank := by
    simp [init, entry, Entry.blank]
  exact ⟨hrow, by rw [hentry, hblank, Entry.blank_add]⟩

/-- Only what is added under a condition can be left over from before. -/
theorem Row.add_eq_freshRow (hminTokens : row.minTokens = none) (hgenerator : row.generator = none)
    (hbadWords : row.badWordsTokenIds = none)
    (hlogitBias : request.samplingParams.logitBias = none → row.logitBias = none)
    (hmask : request.samplingParams.allowedTokenIds = [] →
      row.allowedTokenIdsMask = fun _ => false) :
    row.add cfg request = freshRow cfg request := by
  have hinit : init.row 0 = ⟨none, none, 0, 0, 0, 0, 0, 0, 0, 0, none, none, none, fun _ => false,
      none, 0⟩ := rfl
  have hbias : request.samplingParams.logitBias.or row.logitBias =
      request.samplingParams.logitBias.or none := by
    cases hown : request.samplingParams.logitBias with
    | none => rw [hlogitBias hown]
    | some bias => rfl
  have hallowed : (if request.samplingParams.allowedTokenIds = [] then row.allowedTokenIdsMask
      else fun tokenId => decide (tokenId ∉ request.samplingParams.allowedTokenIds)) =
      if request.samplingParams.allowedTokenIds = [] then fun _ => false
      else fun tokenId => decide (tokenId ∉ request.samplingParams.allowedTokenIds) := by
    split_ifs with hnone
    · rw [hmask hnone]
    · rfl
  simp only [freshRow, Row.add, hinit, hminTokens, hgenerator, hbadWords, hbias, hallowed]

/-- The sampling state of every row is that of its request. -/
def samplingRule (cfg : BatchConfig) : RowRule where
  holds request row := row.sampling = (freshRow cfg request).sampling
  vacant row := row.minTokens = none ∧ row.generator = none ∧ row.badWordsTokenIds = none
  hole row := row.logitBias = none ∧ row.allowedTokenIdsMask = fun _ => false
  appended request row :=
    (request.samplingParams.logitBias = none → row.logitBias = none) ∧
      (request.samplingParams.allowedTokenIds = [] → row.allowedTokenIdsMask = fun _ => false)

theorem samplingRule_sound (cfg : BatchConfig) : (samplingRule cfg).Sound cfg where
  init _ := ⟨rfl, rfl, rfl⟩
  clear _ _ _ := ⟨⟨rfl, rfl, rfl⟩, rfl, rfl⟩
  fill _ _ hvacant hhole := congrArg Row.sampling
    (Row.add_eq_freshRow hvacant.1 hvacant.2.1 hvacant.2.2 (fun _ => hhole.1) fun _ => hhole.2)
  append _ _ hvacant happended := congrArg Row.sampling
    (Row.add_eq_freshRow hvacant.1 hvacant.2.1 hvacant.2.2 happended.1 happended.2)
  move request source row hholds hvacant := by
    have hreceive : source.receive row = source := by
      simp only [Row.receive, hvacant.1, hvacant.2.1, hvacant.2.2, Option.or_none]
    rw [hreceive]
    exact ⟨hholds, rfl, rfl, rfl⟩
  cut _ hvacant := hvacant

/-- What a request asks for does not change. -/
theorem freshRow_sampling_congr (h : ModelRunner.SameParams request request') :
    (freshRow cfg request').sampling = (freshRow cfg request).sampling := by
  simp only [freshRow, Row.add, Row.sampling, h.reqId, h.promptTokenIds, h.samplingParams,
    h.generator, h.loraRequest]

end InputBatch

namespace ModelRunner

open InputBatch

variable {cfg : RunnerConfig} {r r' : ModelRunner} {d : Delivery} {ds : List Delivery}

/-- The requests that are appended to the batch find nothing that they do not overwrite. -/
def AppendsClean (d : Delivery) (r : ModelRunner) : Prop :=
  ∀ j q, (d.joining r.inputBatch)[(d.leaving r.inputBatch).length + j]? = some q →
    ∀ params, d.samplingParams r q = some params →
      (params.logitBias = none → r.inputBatch.logitBias (r.inputBatch.reqIds.length + j) = none) ∧
      (params.allowedTokenIds = [] →
        r.inputBatch.mask (r.inputBatch.reqIds.length + j) = fun _ => false)

/-- The rows carry the sampling state that their requests would have alone in a new batch, and the
sets hold the requests present. -/
structure SamplingSpec (cfg : BatchConfig) (r : ModelRunner) : Prop where
  dense : ∀ i < r.inputBatch.reqIds.length, (r.inputBatch.slot i).isSome
  rows : ∀ i q, r.inputBatch.slot i = some q → ∃ request, r.requests q = some request ∧
    (r.inputBatch.row i).sampling = (freshRow cfg request).sampling ∧
    r.inputBatch.entry q = Entry.of cfg request ∧
    ∀ outputTokenIds b, InputBatch.init.addRequest cfg request outputTokenIds none = .ok b →
      (r.inputBatch.row i).sampling = (b.row 0).sampling ∧ r.inputBatch.entry q = b.entry q
  absent : ∀ q, (∀ i, r.inputBatch.slot i ≠ some q) → r.inputBatch.entry q = Entry.blank
  loraRequestIds : ∀ id q, q ∈ (r.inputBatch.loraIdToRequestIds id).getD ∅ ↔
    ∃ i request lora, r.inputBatch.slot i = some q ∧ r.requests q = some request ∧
      request.loraRequest = some lora ∧ lora.loraIntId = id
  loras : ∀ id, ((r.inputBatch.loraIdToLoraRequest id).isSome ↔
      (r.inputBatch.loraIdToRequestIds id).isSome) ∧
    ∀ requestIds, r.inputBatch.loraIdToRequestIds id = some requestIds → requestIds.Nonempty

theorem Follows.samplingSpec (h : Follows cfg (samplingRule cfg.batch) r) :
    SamplingSpec cfg.batch r where
  dense := h.dense
  rows i q hq := by
    obtain ⟨request, hrequest, hreqId, hholds, hentry, -⟩ := h.kept.rows i q hq
    refine ⟨request, hrequest, hholds, hentry, fun outputTokenIds b hb => ?_⟩
    obtain ⟨hrow, hentry'⟩ := addRequest_init hb
    rw [hrow, hentry, ← hreqId, hentry']
    exact ⟨hholds, rfl⟩
  absent := h.kept.absent
  loraRequestIds id q := by
    rw [h.kept.adapters.mem]
    constructor
    · rintro ⟨hlora, hid⟩
      by_cases hq : ∃ i, r.inputBatch.slot i = some q
      · obtain ⟨i, hi⟩ := hq
        obtain ⟨request, hrequest, -, -, -, hmapping⟩ := h.kept.rows i q hi
        rw [h.kept.indexed.loraOf_eq hi, hmapping, loraId] at hlora
        cases hown : request.loraRequest with
        | none =>
            rw [hown] at hlora
            exact absurd hlora.symm hid
        | some lora =>
            rw [hown] at hlora
            exact ⟨i, request, lora, hi, hrequest, hown, hlora⟩
      · rw [not_exists] at hq
        rw [h.kept.indexed.loraOf_absent hq] at hlora
        exact absurd hlora.symm hid
    · rintro ⟨i, request, lora, hi, hrequest, hown, rfl⟩
      obtain ⟨request', hrequest', -, -, -, hmapping⟩ := h.kept.rows i q hi
      obtain rfl := Option.some.inj (hrequest.symm.trans hrequest')
      refine ⟨?_, Nat.pos_iff_ne_zero.mp lora.positive⟩
      rw [h.kept.indexed.loraOf_eq hi, hmapping, loraId, hown]
      rfl
  loras id := ⟨h.kept.adapters.keys id, h.kept.adapters.nonempty id⟩

theorem updateStates_samplingFollows (h : Follows cfg (samplingRule cfg.batch) r)
    (hwell : d.WellFormed r) (hclean : AppendsClean d r) (hok : updateStates cfg d r = .ok r') :
    Follows cfg (samplingRule cfg.batch) r' := by
  refine updateStates_follows (samplingRule_sound cfg.batch) h hwell ?_ ?_ hok
  · intro data _ _ request request' hparams _ row hholds
    exact hholds.trans (freshRow_sampling_congr hparams).symm
  · intro j q hq request hrequest
    exact hclean j q hq request.samplingParams hrequest

/-- While no request is appended over what it does not overwrite, rows and sets carry the sampling
state of the requests present and no other. -/
theorem run_samplingSpec (hrun : Transition.Run
      (fun r d r' => Step cfg r d r' ∧ AppendsClean d r) ModelRunner.init ds r) :
    SamplingSpec cfg.batch r := by
  refine Follows.samplingSpec (hrun.invariant (init_follows (samplingRule_sound cfg.batch)) ?_)
  intro r d r' h hstep
  exact updateStates_samplingFollows h hstep.1.1 hstep.2 hstep.1.2

theorem appendsClean_init (d : Delivery) : AppendsClean d ModelRunner.init :=
  fun _ _ _ _ _ => ⟨fun _ => rfl, fun _ => rfl⟩

/-! ## A bias that is left over -/

def biasConfig : RunnerConfig where
  batch := { maxNumReqs := 4, maxModelLen := 16, maxNumBlocksPerReq := 4, vocabSize := 32,
             float32 := id }
  pipelineParallelSize := 2

/-- Only request 1 asks for a bias. -/
def biasParams (reqId : ReqId) : WorkerRequestParams where
  samplingParams := { logitBias := if reqId = 1 then some [(3, 100)] else none }
  loraRequest := none

def biasDelivery (out : SpexisSchedulerOutput) : Delivery where
  schedulerOutput := out
  params := biasParams
  finishedOrder := ⟨id, List.Perm.refl⟩
  unscheduledOrder := ⟨id, List.Perm.refl⟩

/-- Requests 0 and 1 are prefilled. -/
def biasPrefill : Delivery :=
  biasDelivery {
    scheduledNewReqs := [⟨0, [1], [1], 0⟩, ⟨1, [2], [2], 0⟩]
    scheduledCachedReqs := []
    numScheduledTokens := [(0, 1), (1, 1)]
    totalNumScheduledTokens := 2
    finishedReqIds := [] }

/-- Request 0 has finished, and request 1 moves to its row. -/
def biasMove : Delivery :=
  biasDelivery {
    scheduledNewReqs := []
    scheduledCachedReqs := [⟨1, false, [7], [], 1, true, 0⟩]
    numScheduledTokens := [(1, 1)]
    totalNumScheduledTokens := 1
    finishedReqIds := [0] }

/-- Request 2 gets the row that request 1 has left. -/
def biasReuse : Delivery :=
  biasDelivery {
    scheduledNewReqs := [⟨2, [4], [1], 0⟩]
    scheduledCachedReqs := [⟨1, false, [8], [], 2, true, 0⟩]
    numScheduledTokens := [(1, 1), (2, 1)]
    totalNumScheduledTokens := 2
    finishedReqIds := [] }

/-- The row of request 2 holds the bias of request 1. -/
theorem bias_leftOver :
    ¬ ∀ cfg ds r, Run cfg ds r → SamplingSpec cfg.batch r := by
  intro hall
  have hsome : (deliver biasConfig [biasPrefill, biasMove, biasReuse] .init).isSome := by decide
  obtain ⟨r, hr⟩ := Option.isSome_iff_exists.mp hsome
  have hslot : (deliver biasConfig [biasPrefill, biasMove, biasReuse] .init).map
      (·.inputBatch.slot 1) = some (some 2) := by decide
  have hleft : (deliver biasConfig [biasPrefill, biasMove, biasReuse] .init).map
      (·.inputBatch.logitBias 1) = some (some [(3, 100)]) := by decide
  have hasked : (deliver biasConfig [biasPrefill, biasMove, biasReuse] .init).map
      (fun r => (r.requests 2).map (·.samplingParams.logitBias)) = some (some none) := by decide
  rw [hr, Option.map_some, Option.some_inj] at hslot hleft hasked
  obtain ⟨request, hrequest, hrow, -⟩ := (hall _ _ r (deliver_run hr)).rows 1 2 hslot
  rw [hrequest, Option.map_some, Option.some_inj] at hasked
  have hbias : r.inputBatch.logitBias 1 = request.samplingParams.logitBias.or none :=
    congrArg Row.logitBias hrow
  rw [hleft, hasked] at hbias
  cases hbias

/-- Prefilling two requests and moving one of them leaves no row with foreign sampling state. -/
theorem run_samplingSpec_move :
    ∃ r, SamplingSpec biasConfig.batch r ∧ r.inputBatch.reqIds = [some 1] := by
  have hdelivered : (deliver biasConfig [biasPrefill, biasMove] .init).map
      (·.inputBatch.reqIds) = some [some 1] := by decide
  have hjoining : (deliver biasConfig [biasPrefill] .init).map
      (fun r => biasMove.joining r.inputBatch) = some [] := by decide
  obtain ⟨r, hr, hreqIds⟩ := Option.map_eq_some_iff.mp hdelivered
  obtain ⟨r₁, hr₁, hjoins⟩ := Option.map_eq_some_iff.mp hjoining
  obtain ⟨r₁', hprefill, hnil⟩ := deliver_cons hr₁
  obtain rfl := Option.some.inj hnil
  obtain ⟨r₁', hprefill', hrest⟩ := deliver_cons hr
  obtain rfl := Except.ok.inj (hprefill.2.symm.trans hprefill'.2)
  obtain ⟨r', hmove, hnil⟩ := deliver_cons hrest
  obtain rfl := Option.some.inj hnil
  have hclean : AppendsClean biasMove r₁' := by
    intro j q hq
    rw [hjoins, List.getElem?_nil] at hq
    cases hq
  have hrun : Transition.Run (fun r d r' => Step biasConfig r d r' ∧ AppendsClean d r)
      ModelRunner.init [biasPrefill, biasMove] r' :=
    .cons ⟨hprefill, appendsClean_init _⟩ (.single ⟨hmove, hclean⟩)
  exact ⟨r', run_samplingSpec hrun, hreqIds⟩

end ModelRunner

end Spexis
