import Spexis.Library.Paging
import Spexis.Verification.BlockMirror
import Spexis.Verification.Bookkeeping

/-! # What the batches write to the KV cache

The workers store every token of a batch in the slot that `_prepare_inputs` computes for it. -/

namespace Spexis

open Python Paging

namespace Scheduler

theorem ingestTokens_numComputedTokens {cfg : Config} {probs confidences : List ℚ}
    {tokens : List TokenId} {numNew : ℕ} {r r' : Request}
    (h : ingestTokens cfg probs confidences tokens numNew r = .ok r') :
    r'.numComputedTokens = r.numComputedTokens := by
  induction tokens generalizing numNew r with
  | nil =>
      cases h
      rfl
  | cons token tokens ih =>
      simp only [ingestTokens, bind_eq_ok] at h
      obtain ⟨confidence, -, stopped, -, h⟩ := h
      rw [ih h]
      split_ifs <;> rfl

end Scheduler

namespace Request

variable {answers : List TokenId → TokenId → Prop} {q : ReqId} {r r' : Request}
  {batches : List InFlight} {batch : InFlight} {verified drafts : List TokenId} {stale : ℕ}
  {draining waiting : Bool}

@[simp] theorem ticked_numComputedTokens (r : Request) :
    r.ticked.numComputedTokens = r.numComputedTokens := by
  unfold ticked
  split_ifs <;> rfl

theorem Landed.numComputedTokens_le
    (h : Landed answers q r batch batches verified drafts stale draining r')
    (htracks : r.Tracks verified drafts stale draining) :
    r'.numComputedTokens ≤ r.numComputedTokens := by
  cases h with
  | silent => exact le_rfl
  | flushed => exact le_rfl
  | drained => exact le_rfl
  | accepted => exact (ticked_numComputedTokens r.landed).le
  | rejected =>
      -- one of the drafts is replaced, so that the counter does not grow
      have hspLen := htracks.spLen
      change ((r.landed.ticked.numComputedTokens : ℤ) - (r.landed.ticked.spLen - 1)).toNat ≤
        r.landed.numComputedTokens
      rw [ticked_numComputedTokens, ticked_spLen, landed, hspLen, List.length_cons]
      omega

theorem Aloft.land_numComputedTokens_le {cfg : Config} {tokens : List TokenId}
    (h : Aloft answers q r (batch :: batches) waiting false)
    (hverify : Scheduler.verifyTokens cfg r.landed (batch.answer q) = .ok (false, tokens, r')) :
    r'.numComputedTokens ≤ r.numComputedTokens := by
  obtain ⟨verified, drafts, stale, draining, hflight, -⟩ := h
  exact (hflight.land hverify).numComputedTokens_le hflight.tracks

end Request

namespace System

variable {cfg : Config} {sys sys' : System} {operation : Operation}

theorem Step.verify_recedes {answers : List TokenId → TokenId → Prop} (h : sys.Booked answers)
    (hstep : Step cfg sys .verify sys') : ∀ q ∈ sys'.engine.scheduler.requests,
      (sys'.engine.scheduler.request q).numComputedTokens ≤
        (sys.engine.scheduler.request q).numComputedTokens := by
  cases hstep with
  | verify hphase hverify =>
      obtain ⟨-, -, hlanding⟩ := EngineCore.verify_landing h.placed.contained hverify
      intro q hq
      have hlive := (EngineCore.verify_shrinks hverify).1 hq
      cases hlanding q hlive with
      | absent hentries hrequest => exact (congrArg Request.numComputedTokens hrequest).le
      | lands batch stopped tokens r hentries hland hrequest hstays =>
          obtain rfl : stopped = false := hstays.mp hq
          have hone := h.aloft.flights q hlive
          rw [EngineCore.pending_of_idle hphase, hentries] at hone
          rw [hrequest]
          exact hone.land_numComputedTokens_le hland

/-- Only verification and scheduling change the computed tokens of a running request. -/
theorem Step.numComputedTokens (h : sys.Registered)
    (hexclusive : sys.engine.scheduler.Exclusive cfg) (hstep : Step cfg sys operation sys')
    (hne : ∀ execute, operation ≠ .schedule execute) (hverify : operation ≠ .verify) :
    ∀ q ∈ sys'.engine.scheduler.runningScheduled,
      (sys'.engine.scheduler.request q).numComputedTokens =
        (sys.engine.scheduler.request q).numComputedTokens := by
  intro q hq
  cases hstep with
  | addRequest reqId promptTokenIds samplingParams eosTokenId hphase hfresh hadd =>
      unfold Scheduler.addRequest at hadd
      split_ifs at hadd
      cases hadd
      have hadded : q ∈ sys.added := h.queued.added
        (List.mem_append_left _ (List.mem_append_right _ hq))
      have hne : q ≠ reqId := fun heq => hfresh (heq ▸ hadded)
      change (Function.update sys.engine.scheduler.request reqId _ q).numComputedTokens = _
      rw [Function.update_of_ne hne]
  | compileGrammar reqId =>
      change (Function.update sys.engine.scheduler.request reqId _ q).numComputedTokens = _
      by_cases hq : q = reqId
      · rw [hq, Function.update_self]
      · rw [Function.update_of_ne hq]
  | finishRequests finishedStatus reqIds hphase hnodup hfinish =>
      exact (Scheduler.finishRequests_holds h.nodup hexclusive hfinish).2.2 q
  | verify => exact absurd rfl hverify
  | schedule execute => exact absurd rfl (hne execute)
  | ingest hphase hingest =>
      simp only [EngineCore.ingest, hphase, bind_eq_ok, pure_eq_ok] at hingest
      obtain ⟨s, hupdate, rfl⟩ := hingest
      have hfront := (List.nodup_append.mp h.queued.queued.places_nodup).1
      have hspec := Scheduler.updateFromSpecOutput_spec (List.nodup_append.mp hfront).2.1 hupdate
      change (s.request q).numComputedTokens = _
      rename_i out specOutput
      by_cases hin : q ∈ sys.engine.scheduler.runningScheduled ∧ out.numScheduled q ≠ 0
      · exact Scheduler.ingestTokens_numComputedTokens (hspec.ingest q hin.1 hin.2)
      · rw [hspec.same q hin]

end System

namespace Cluster

open InputBatch ModelRunner

variable {cfg : Config} {runner : RunnerConfig} {inputs : InputsConfig} {c c' : Cluster}
  {execute : Executor} {d : Delivery} {q : ReqId} {position : ℕ}

def Event.operation : Event → Operation
  | .operate operation => operation
  | .launch execute _ => .schedule execute

theorem Step.system {event : Event} (hstep : Step cfg runner c event c') :
    System.Step cfg c.system event.operation c'.system := by
  cases hstep with
  | operate operation hsystem => exact hsystem
  | launch execute d hsystem => exact hsystem

/-! ## Batches that are launched -/

instance (inputs : InputsConfig) (out : SpexisSchedulerOutput) (b : InputBatch) :
    Decidable (b.Fits inputs out) :=
  decidable_of_iff (∀ i < (b.rowTokens out).length, ∀ n ∈ (b.rowTokens out)[i]?,
      b.numComputedTokensCpu i + n ≤ inputs.batch.maxModelLen)
    ⟨fun h i n hn => h i (List.getElem?_eq_some_iff.mp hn).1 n hn, fun h i _ n hn => h i n hn⟩

/-- The workers are set up for the engine. -/
structure Deployed (cfg : Config) (runner : RunnerConfig) (inputs : InputsConfig) : Prop where
  batch : inputs.batch = runner.batch
  blockSize : inputs.blockSize = cfg.kvCache.blockSize
  maxModelLen : inputs.batch.maxModelLen = cfg.kvCache.maxModelLen
  maxNumReqs : cfg.scheduler.maxNumSeqs ≤ inputs.batch.maxNumReqs
  maxNumTokens : cfg.maxNumScheduledTokens ≤ inputs.maxNumTokens
  tokens_lt : inputs.batch.maxNumReqs * inputs.batch.maxModelLen < 2 ^ 31
  slots_lt : cfg.kvCache.numBlocks * inputs.blockSize < 2 ^ 31

theorem Deployed.maxNumBlocksPerReq_eq (h : Deployed cfg runner inputs) :
    inputs.batch.maxNumBlocksPerReq = cfg.kvCache.maxNumBlocksPerReq := by
  rw [inputs.maxNumBlocksPerReq_eq, h.maxModelLen, h.blockSize]
  rfl

theorem Deployed.width (h : Deployed cfg runner inputs) :
    cfg.kvCache.maxNumBlocksPerReq ≤ runner.batch.maxNumBlocksPerReq := by
  rw [← h.maxNumBlocksPerReq_eq, h.batch]

/-- The rows of a batch and the tokens scheduled for them. -/
theorem getElem?_rowTokens {b : InputBatch} {out : SpexisSchedulerOutput} {i n : ℕ}
    (hdense : b.Dense) : (b.rowTokens out)[i]? = some n ↔
      ∃ q, b.slot i = some q ∧ out.numScheduled q = n := by
  rw [rowTokens, List.getElem?_map, Option.map_eq_some_iff, hdense.slot_eq]

theorem mem_cells_rowTokens {b : InputBatch} {out : SpexisSchedulerOutput} {i j : ℕ}
    (hdense : b.Dense) : (i, j) ∈ Ragged.cells (b.rowTokens out) ↔
      ∃ q, b.slot i = some q ∧ j < out.numScheduled q := by
  rw [Ragged.mem_cells]
  constructor
  · rintro ⟨n, hn, hj⟩
    obtain ⟨q, hq, rfl⟩ := (getElem?_rowTokens hdense).mp hn
    exact ⟨q, hq, hj⟩
  · rintro ⟨q, hq, hj⟩
    exact ⟨_, (getElem?_rowTokens hdense).mpr ⟨q, hq, rfl⟩, hj⟩

theorem lt_of_mem_cells {b : InputBatch} {out : SpexisSchedulerOutput} {i j : ℕ}
    (hdense : b.Dense) (hcell : (i, j) ∈ Ragged.cells (b.rowTokens out))
    (hi : b.slot i = some q) : j < out.numScheduled q := by
  obtain ⟨q', hi', hj⟩ := (mem_cells_rowTokens hdense).mp hcell
  obtain rfl := Option.some.inj (hi.symm.trans hi')
  exact hj

/-- The tables of a launch cover the tokens that have a column. -/
theorem TableSpec.covers (hdeployed : Deployed cfg runner inputs)
    (h : TableSpec cfg d.schedulerOutput c) (hdense : c.worker.inputBatch.Dense)
    (hfits : c.worker.inputBatch.Fits inputs d.schedulerOutput) {i : ℕ}
    (hi : c.worker.inputBatch.slot i = some q) :
    (c.scheduler.request q).numComputedTokens ≤
      (c.worker.inputBatch.blockTable.blockRow i).length * cfg.kvCache.blockSize := by
  have hpos : 0 < cfg.kvCache.blockSize := hdeployed.blockSize ▸ inputs.blockSize_pos
  have hfit := hfits i _ ((getElem?_rowTokens hdense).mpr ⟨q, hi, rfl⟩)
  rw [h.computed i q hi] at hfit
  have hcdiv := cdiv_le_cdiv hfit cfg.kvCache.blockSize
  have hmax : cdiv inputs.batch.maxModelLen cfg.kvCache.blockSize =
      cfg.kvCache.maxNumBlocksPerReq := by
    rw [hdeployed.maxModelLen]
    rfl
  have hcovered := h.covered i q hi
  rw [min_eq_left (hmax ▸ hcdiv)] at hcovered
  exact (cdiv_le_iff hpos).mp hcovered

/-- What the workers prepare after a launch is a scheduled batch. -/
theorem TableSpec.scheduled (hdeployed : Deployed cfg runner inputs)
    (hstocked : c'.Stocked cfg runner) (h : TableSpec cfg d.schedulerOutput c')
    (hsupply : Scheduler.SupplySpec cfg c.scheduler d.schedulerOutput c'.scheduler)
    (hbatch : Scheduler.BatchSpec c.scheduler d.schedulerOutput c'.scheduler)
    (htotal : 0 < d.schedulerOutput.totalNumScheduledTokens)
    (hfits : c'.worker.inputBatch.Fits inputs d.schedulerOutput) :
    c'.worker.inputBatch.Scheduled inputs cfg.kvCache.numBlocks d.schedulerOutput := by
  have hindexed := hstocked.follows.kept.indexed
  have hdense := hstocked.follows.dense
  have hkeys : (d.schedulerOutput.numScheduledTokens.map Prod.fst).Nodup :=
    hbatch.perm.nodup_iff.mp hbatch.nodup
  have hmem : ∀ q, q ∈ c'.worker.inputBatch.requestIds ↔
      q ∈ d.schedulerOutput.numScheduledTokens.map Prod.fst := by
    intro q
    rw [← h.rows, List.mem_iff_getElem?]
    simp only [hdense.slot_eq]
  have hperm : (d.schedulerOutput.numScheduledTokens.map Prod.fst).Perm
      c'.worker.inputBatch.requestIds :=
    (List.perm_ext_iff_of_nodup hkeys (hindexed.nodup_requestIds hdense)).mpr fun q =>
      (hmem q).symm
  have hnumReqs := hindexed.numReqs_eq_length hdense
  constructor
  case indexed => exact hindexed
  case dense => exact hdense
  case nonempty =>
    rw [hnumReqs, ← hperm.length_eq, List.length_map]
    by_contra hzero
    have hnil := List.eq_nil_of_length_eq_zero (Nat.eq_zero_of_not_pos hzero)
    rw [hsupply.total, hnil] at htotal
    exact absurd htotal (Nat.lt_irrefl 0)
  case numReqs_le =>
    have hsub : c'.worker.inputBatch.requestIds ⊆ c'.scheduler.runningScheduled := by
      intro q hq
      obtain ⟨i, hi⟩ := List.mem_iff_getElem?.mp hq
      exact h.running i q ((hdense.slot_eq i).trans hi)
    rw [hnumReqs]
    exact ((List.subperm_of_subset (hindexed.nodup_requestIds hdense) hsub).length_le.trans
      hsupply.running_le).trans hdeployed.maxNumReqs
  case requests => exact hperm
  case positive => exact hsupply.positive
  case total => exact hsupply.total
  case total_le => exact hsupply.total_le.trans hdeployed.maxNumTokens
  case tokens_lt => exact hdeployed.tokens_lt
  case slots_lt => exact hdeployed.slots_lt
  case blocks_lt =>
    intro i hi block hblock
    rw [hnumReqs] at hi
    have hslot := (hdense.slot_eq i).trans (List.getElem?_eq_getElem hi)
    exact ((h.owned i _ hslot).2 block hblock).2.1
  case covered =>
    intro i n hn
    obtain ⟨q, hq, rfl⟩ := (getElem?_rowTokens hdense).mp hn
    rw [h.computed i q hq, ← BlockTable.length_blockRow, hdeployed.blockSize]
    exact h.covers hdeployed hdense hfits hq

/-! ## The slots of a batch -/

/-- Does the batch compute the position of the request? -/
def Computes (out : SpexisSchedulerOutput) (s : Scheduler) (q : ReqId) (position : ℕ) : Prop :=
  q ∈ out.numScheduledTokens.map Prod.fst ∧
    (s.request q).numComputedTokens ≤ position + out.numScheduled q ∧
    position < (s.request q).numComputedTokens

/-- The slot of a position in the blocks that the scheduler has given to the request. -/
def slotOf (cfg : Config) (s : Scheduler) (q : ReqId) (position : ℕ) : Option ℕ :=
  address cfg.kvCache.blockSize (s.blocksOf q) position

/-- Slots are not shared. -/
theorem slotOf_inj {s : Scheduler} (hpos : 0 < cfg.kvCache.blockSize) (h : s.Exclusive cfg)
    {q' : ReqId} {position' a : ℕ} (hslot : slotOf cfg s q position = some a)
    (hslot' : slotOf cfg s q' position' = some a) : q = q' ∧ position = position' := by
  obtain ⟨block, hget, hget', -⟩ := page_of_address hpos hslot hslot'
  obtain rfl := h.owner_unique (List.mem_of_getElem? hget) (List.mem_of_getElem? hget')
  exact ⟨rfl, address_inj hpos (h.nodup q) hslot hslot'⟩

/-- The token of a cell goes to the slot of its position. -/
theorem TableSpec.slotOf_cell (hdeployed : Deployed cfg runner inputs)
    (h : TableSpec cfg d.schedulerOutput c) (hdense : c.worker.inputBatch.Dense)
    (hfits : c.worker.inputBatch.Fits inputs d.schedulerOutput) {i j : ℕ}
    (hi : c.worker.inputBatch.slot i = some q) (hj : j < d.schedulerOutput.numScheduled q) :
    slotOf cfg c.scheduler q (c.worker.inputBatch.numComputedTokensCpu i + j) =
      some (c.worker.inputBatch.tokenAt inputs i j).slot := by
  have hpos : 0 < cfg.kvCache.blockSize := hdeployed.blockSize ▸ inputs.blockSize_pos
  have hcovers := h.covers hdeployed hdense hfits hi
  rw [← h.computed i q hi, BlockTable.length_blockRow] at hcovers
  have hlt : (c.worker.inputBatch.numComputedTokensCpu i + j) / cfg.kvCache.blockSize <
      c.worker.inputBatch.blockTable.numBlocksPerRow i :=
    (Nat.div_lt_iff_lt_mul hpos).mpr (by omega)
  rw [slotOf, ← h.blocks i q hi, address, BlockTable.blockRow, List.getElem?_map,
    List.getElem?_range hlt]
  simp only [tokenAt, hdeployed.blockSize, Option.map_some]

/-- What a batch writes: every new position is written to its slot, once, and no slot of another
position is written. -/
structure WritesSpec (cfg : Config) (out : SpexisSchedulerOutput) (s : Scheduler)
    (prepared : PreparedInputs) : Prop where
  nodup : prepared.slotMapping.Nodup
  written : ∀ slot, slot ∈ prepared.slotMapping ↔ ∃ q position a,
    Computes out s q position ∧ slotOf cfg s q position = some a ∧ slot = (a : ℤ)
  spared : ∀ q position a, slotOf cfg s q position = some a → ¬ Computes out s q position →
    (a : ℤ) ∉ prepared.slotMapping

/-- The cells of a batch are the positions that it computes. -/
theorem TableSpec.computes_iff (h : TableSpec cfg d.schedulerOutput c)
    (hdense : c.worker.inputBatch.Dense) : Computes d.schedulerOutput c.scheduler q position ↔
      ∃ i j, (i, j) ∈ Ragged.cells (c.worker.inputBatch.rowTokens d.schedulerOutput) ∧
        c.worker.inputBatch.slot i = some q ∧
        position = c.worker.inputBatch.numComputedTokensCpu i + j := by
  constructor
  · rintro ⟨hq, hle, hlt⟩
    obtain ⟨i, hi⟩ := (h.rows q).mpr hq
    rw [← h.computed i q hi] at hle hlt
    refine ⟨i, position - c.worker.inputBatch.numComputedTokensCpu i, ?_, hi, by omega⟩
    exact (mem_cells_rowTokens hdense).mpr ⟨q, hi, by omega⟩
  · rintro ⟨i, j, hcell, hi, rfl⟩
    have hj := lt_of_mem_cells hdense hcell hi
    have hcomputed := h.computed i q hi
    exact ⟨(h.rows q).mp ⟨i, hi⟩, by omega, by omega⟩

theorem TableSpec.writesSpec (hdeployed : Deployed cfg runner inputs)
    (hstocked : c.Stocked cfg runner) (h : TableSpec cfg d.schedulerOutput c)
    (hfits : c.worker.inputBatch.Fits inputs d.schedulerOutput) {tokens : List TokenInput}
    {prepared : PreparedInputs}
    (hspec : InputsSpec inputs d.schedulerOutput c.worker.inputBatch tokens prepared) :
    WritesSpec cfg d.schedulerOutput c.scheduler prepared := by
  have hpos : 0 < cfg.kvCache.blockSize := hdeployed.blockSize ▸ inputs.blockSize_pos
  have hdense := hstocked.follows.dense
  have hindexed := hstocked.follows.kept.indexed
  have hwritten : ∀ slot, slot ∈ prepared.slotMapping ↔ ∃ q position a,
      Computes d.schedulerOutput c.scheduler q position ∧
        slotOf cfg c.scheduler q position = some a ∧ slot = (a : ℤ) := by
    intro slot
    rw [hspec.slotMapping, hspec.cells, List.map_map, List.mem_map]
    constructor
    · rintro ⟨⟨i, j⟩, hcell, rfl⟩
      obtain ⟨q, hi, hj⟩ := (mem_cells_rowTokens hdense).mp hcell
      exact ⟨q, _, _, (h.computes_iff hdense).mpr ⟨i, j, hcell, hi, rfl⟩,
        h.slotOf_cell hdeployed hdense hfits hi hj, rfl⟩
    · rintro ⟨q, position, a, hcomputes, hslot, rfl⟩
      obtain ⟨i, j, hcell, hi, rfl⟩ := (h.computes_iff hdense).mp hcomputes
      refine ⟨(i, j), hcell, ?_⟩
      rw [h.slotOf_cell hdeployed hdense hfits hi (lt_of_mem_cells hdense hcell hi),
        Option.some_inj] at hslot
      rw [← hslot]
      rfl
  refine ⟨hspec.slots_nodup ⟨fun i hi => ?_, fun i hi i' hi' block hblock hblock' => ?_⟩, hwritten,
    fun q position a hslot hnot hmem => ?_⟩
  · rw [hindexed.numReqs_eq_length hdense] at hi
    exact (h.owned i _ ((hdense.slot_eq i).trans (List.getElem?_eq_getElem hi))).1
  · rw [hindexed.numReqs_eq_length hdense] at hi hi'
    have hslot := (hdense.slot_eq i).trans (List.getElem?_eq_getElem hi)
    have hslot' := (hdense.slot_eq i').trans (List.getElem?_eq_getElem hi')
    have howner := ((h.owned i _ hslot).2 block hblock).2.2 _ (h.blocks i' _ hslot' ▸ hblock')
    exact hindexed.slot_inj hslot (howner ▸ hslot')
  · obtain ⟨q', position', a', hcomputes, hslot', ha⟩ := (hwritten a).mp hmem
    obtain rfl := Int.ofNat_inj.mp ha
    obtain ⟨rfl, rfl⟩ := slotOf_inj hpos hstocked.exclusive hslot hslot'
    exact hnot hcomputes

/-! ## The cache along a run -/

/-- The requests of a batch's tokens with their positions. -/
def batchTokens (out : SpexisSchedulerOutput) (b : InputBatch) : List (Option (ReqId × ℕ)) :=
  (Ragged.cells (b.rowTokens out)).map fun cell =>
    (b.slot cell.1).map fun q => (q, b.numComputedTokensCpu cell.1 + cell.2)

/-- The KV cache once the tokens of a batch are in their slots. -/
def storeBatch (inputs : InputsConfig) (out : SpexisSchedulerOutput) (b : InputBatch)
    (cache : ℤ → Option (ReqId × ℕ)) : ℤ → Option (ReqId × ℕ) :=
  match b.prepareInputs inputs out with
  | .ok prepared => scatter (prepared.slotMapping.zip (batchTokens out b)) cache
  | .error _ => cache

theorem storeBatch_spec (hdeployed : Deployed cfg runner inputs)
    (hstocked : c.Stocked cfg runner) (h : TableSpec cfg d.schedulerOutput c)
    (hscheduled : c.worker.inputBatch.Scheduled inputs cfg.kvCache.numBlocks d.schedulerOutput)
    (hfits : c.worker.inputBatch.Fits inputs d.schedulerOutput)
    (cache : ℤ → Option (ReqId × ℕ)) {a : ℕ} (hslot : slotOf cfg c.scheduler q position = some a) :
    (Computes d.schedulerOutput c.scheduler q position →
      storeBatch inputs d.schedulerOutput c.worker.inputBatch cache a = some (q, position)) ∧
    (¬ Computes d.schedulerOutput c.scheduler q position →
      storeBatch inputs d.schedulerOutput c.worker.inputBatch cache a = cache a) := by
  obtain ⟨hloop, hinputs⟩ := prepareInputs_spec hscheduled
  obtain ⟨tokens, htokens⟩ := hloop.mpr hfits
  obtain ⟨prepared, hok, hspec⟩ := hinputs tokens htokens
  have hwrites := h.writesSpec hdeployed hstocked hfits hspec
  have hdense := hstocked.follows.dense
  have hzip : prepared.slotMapping.zip (batchTokens d.schedulerOutput c.worker.inputBatch) =
      (Ragged.cells (c.worker.inputBatch.rowTokens d.schedulerOutput)).map fun cell =>
        (((c.worker.inputBatch.tokenAt inputs cell.1 cell.2).slot : ℤ),
          (c.worker.inputBatch.slot cell.1).map fun q =>
            (q, c.worker.inputBatch.numComputedTokensCpu cell.1 + cell.2)) := by
    rw [hspec.slotMapping, hspec.cells, batchTokens, List.map_map, List.zip_map']
    rfl
  have hkeys : (prepared.slotMapping.zip
      (batchTokens d.schedulerOutput c.worker.inputBatch)).map Prod.fst = prepared.slotMapping := by
    rw [hzip, hspec.slotMapping, hspec.cells, List.map_map, List.map_map]
    rfl
  rw [storeBatch, hok]
  refine ⟨fun hcomputes => scatter_of_mem (hkeys.symm ▸ hwrites.nodup) ?_, fun hnot =>
    scatter_of_notMem (hkeys.symm ▸ hwrites.spared q position a hslot hnot)⟩
  obtain ⟨i, j, hcell, hi, rfl⟩ := (h.computes_iff hdense).mp hcomputes
  rw [h.slotOf_cell hdeployed hdense hfits hi (lt_of_mem_cells hdense hcell hi),
    Option.some_inj] at hslot
  rw [hzip, List.mem_map]
  refine ⟨(i, j), hcell, ?_⟩
  rw [hi, Option.map_some, hslot]

/-- Every computed position of a running request is in the slot of the position. -/
def Cached (cfg : Config) (s : Scheduler) (cache : ℤ → Option (ReqId × ℕ)) : Prop :=
  ∀ q ∈ s.runningScheduled, q ∈ s.requests → ∀ position < (s.request q).numComputedTokens,
    ∃ a, slotOf cfg s q position = some a ∧ cache a = some (q, position)

/-- Between two batches. -/
theorem Cached.operate {operation : Operation} {sys : System}
    {cache : ℤ → Option (ReqId × ℕ)} (hcached : Cached cfg c.scheduler cache)
    (h : c.Stocked cfg runner) (hstep : System.Step cfg c.system operation sys)
    (hne : ∀ execute, operation ≠ .schedule execute)
    (hrecedes : operation = .verify → ∀ q ∈ sys.engine.scheduler.requests,
      (sys.engine.scheduler.request q).numComputedTokens ≤
        (c.scheduler.request q).numComputedTokens) :
    Cached cfg sys.engine.scheduler cache := by
  have hregistered := h.informed.registered
  obtain ⟨-, hadvances, -⟩ := hstep.registered hregistered hne
  obtain ⟨hholds, -⟩ := hstep.holds hregistered h.exclusive hne
  intro q hq hlive position hposition
  have hrunning := hholds.running hq
  have hadded : q ∈ c.system.added :=
    hregistered.queued.added (List.mem_append_left _ (List.mem_append_right _ hrunning))
  have hold := (hadvances.requests q hlive).resolve_right (not_not.mpr hadded)
  have hle : (sys.engine.scheduler.request q).numComputedTokens ≤
      (c.scheduler.request q).numComputedTokens := by
    by_cases hverify : operation = .verify
    · exact hrecedes hverify q hlive
    · exact (hstep.numComputedTokens hregistered h.exclusive hne hverify q hq).le
  obtain ⟨a, hslot, hcache⟩ := hcached q hrunning hold position (hposition.trans_le hle)
  refine ⟨a, ?_, hcache⟩
  rw [slotOf, hholds.blocks q hlive]
  exact hslot

/-- Positions that a call of `schedule` does not compute keep their slots. -/
theorem Cached.scheduled {s' : Scheduler} {out : SpexisSchedulerOutput}
    {cache : ℤ → Option (ReqId × ℕ)} (hcached : Cached cfg c.scheduler cache)
    (hsupply : Scheduler.SupplySpec cfg c.scheduler out s')
    (hbatch : Scheduler.BatchSpec c.scheduler out s') (hq : q ∈ s'.runningScheduled)
    (hlive : q ∈ s'.requests) (hposition : position < (s'.request q).numComputedTokens)
    (hnot : ¬ Computes out s' q position) :
    ∃ a, slotOf cfg s' q position = some a ∧ cache a = some (q, position) := by
  have hold : q ∈ c.scheduler.requests := hbatch.requests ▸ hlive
  by_cases hlisted : q ∈ out.reqIds
  · have hlate : position + out.numScheduled q < (s'.request q).numComputedTokens := by
      by_contra hle
      exact hnot ⟨hbatch.perm.mem_iff.mp hlisted, Nat.le_of_not_lt hle, hposition⟩
    obtain ⟨start, hstart, rfl⟩ := out.exists_start hlisted
    rw [hsupply.computed start hstart] at hlate
    have hlt : position < start.2 := by omega
    rcases hsupply.starts start hstart with hzero | ⟨hrunning, hcomputed, more, hblocks⟩
    · omega
    · obtain ⟨a, hslot, hcache⟩ := hcached _ hrunning hold position (hcomputed ▸ hlt)
      refine ⟨a, ?_, hcache⟩
      rw [slotOf, hblocks]
      exact address_append hslot more
  · obtain ⟨hrunning, hblocks⟩ := hsupply.kept q hq hlisted
    obtain ⟨a, hslot, hcache⟩ := hcached q hrunning hold position
      (hsupply.idle q hq hlisted ▸ hposition)
    refine ⟨a, ?_, hcache⟩
    rw [slotOf, hblocks]
    exact hslot

/-- A launch writes what it computes. -/
theorem Cached.launch (hfull : cfg.kvCache.kvCacheSpec = .fullAttention)
    (hdeployed : Deployed cfg runner inputs) {cache : ℤ → Option (ReqId × ℕ)}
    (hcached : Cached cfg c.scheduler cache) (h : c.Stocked cfg runner)
    (hstep : Step cfg runner c (.launch execute d) c')
    (hresumes : d.ResumesOutside c.worker.inputBatch)
    (hfits : c'.worker.inputBatch.Fits inputs d.schedulerOutput) :
    Cached cfg c'.scheduler
      (storeBatch inputs d.schedulerOutput c'.worker.inputBatch cache) := by
  have hpos : 0 < cfg.kvCache.blockSize := hdeployed.blockSize ▸ inputs.blockSize_pos
  obtain ⟨hsupply, hbatch, htotal⟩ := h.launch_supply hfull hstep
  obtain ⟨hstocked, htables⟩ := h.launch hfull hdeployed.width hresumes hstep
  have hscheduled := htables.scheduled hdeployed hstocked hsupply hbatch htotal hfits
  intro q hq hlive position hposition
  by_cases hcomputes : Computes d.schedulerOutput c'.scheduler q position
  · obtain ⟨i, hi⟩ := (htables.rows q).mpr hcomputes.1
    have hcovers := htables.covers hdeployed hstocked.follows.dense hfits hi
    rw [htables.blocks i q hi] at hcovers
    obtain ⟨a, ha⟩ := address_of_lt hpos (hposition.trans_le hcovers)
    exact ⟨a, ha, (storeBatch_spec hdeployed hstocked htables hscheduled hfits cache ha).1
      hcomputes⟩
  · obtain ⟨a, ha, hcache⟩ := hcached.scheduled hsupply hbatch hq hlive hposition hcomputes
    refine ⟨a, ha, ?_⟩
    rw [(storeBatch_spec hdeployed hstocked htables hscheduled hfits cache ha).2 hcomputes, hcache]

/-- A call of `schedule` that launches nothing. -/
theorem Cached.pause (hfull : cfg.kvCache.kvCacheSpec = .fullAttention)
    {cache : ℤ → Option (ReqId × ℕ)} {sys : System} (hcached : Cached cfg c.scheduler cache)
    (h : c.Stocked cfg runner) (hstep : System.Step cfg c.system (.schedule execute) sys)
    (hquiet : sys.engine.phase = .idle) : Cached cfg sys.engine.scheduler cache := by
  obtain ⟨out, hsupply, hbatch, hcases⟩ :=
    hstep.supplySpec hfull h.informed.registered h.exclusive h.capped
  have hnone := hsupply.numScheduledTokens_eq_nil (by
    rcases hcases with ⟨⟨specOutput, hphase⟩, -⟩ | ⟨-, htotal⟩
    · rw [hquiet] at hphase
      cases hphase
    · exact htotal)
  intro q hq hlive position hposition
  refine hcached.scheduled hsupply hbatch hq hlive hposition fun hcomputes => ?_
  have hmem := hcomputes.1
  rw [hnone] at hmem
  exact absurd hmem List.not_mem_nil

variable (t : Transition.Timeline (Step cfg runner))

/-- What the KV cache holds after the first steps of a run. -/
def kvCache (inputs : InputsConfig) : ℕ → ℤ → Option (ReqId × ℕ)
  | 0 => fun _ => none
  | k + 1 =>
    match t.label k with
    | .operate _ => kvCache inputs k
    | .launch _ d =>
      storeBatch inputs d.schedulerOutput (t.state (k + 1)).worker.inputBatch (kvCache inputs k)

/-- Every token that is launched has a column in its row. -/
def LaunchesFit (inputs : InputsConfig) : Prop :=
  ∀ k < t.length, ∀ execute d, t.label k = .launch execute d →
    (t.state (k + 1)).worker.inputBatch.Fits inputs d.schedulerOutput

/-- Every launch prepares its batch, and writes what it computes. -/
def LaunchesWrite (inputs : InputsConfig) : Prop :=
  ∀ k < t.length, ∀ execute d, t.label k = .launch execute d →
    ∃ prepared, (t.state (k + 1)).worker.inputBatch.prepareInputs inputs d.schedulerOutput =
        .ok prepared ∧
      WritesSpec cfg d.schedulerOutput (t.state (k + 1)).scheduler prepared

/-- No verification counts a token as computed. -/
def VerificationRecedes : Prop :=
  ∀ k < t.length, t.label k = .operate .verify → ∀ q ∈ (t.state (k + 1)).scheduler.requests,
    ((t.state (k + 1)).scheduler.request q).numComputedTokens ≤
      ((t.state k).scheduler.request q).numComputedTokens

/-- No step launches a denied request, and no client gives up. -/
def UndeniedSteps (answers : List TokenId → TokenId → Prop) : Prop :=
  ∀ k < t.length, System.UndeniedStep answers cfg (t.state k).system (t.label k).operation
    (t.state (k + 1)).system

variable {t}

/-- In every run each launch writes the new positions of its requests to the slots that the
scheduler has given them, once each, and writes no slot of another position. -/
theorem timeline_writesSpec (hfull : cfg.kvCache.kvCacheSpec = .fullAttention)
    (hdeployed : Deployed cfg runner inputs) (t : Transition.Timeline (Step cfg runner))
    (h0 : t.state 0 = init cfg) (hresumes : ResumesOutside t) (hfits : LaunchesFit t inputs) :
    LaunchesWrite t inputs := by
  intro k hk execute d hlabel
  have hstocked := state_stocked hfull hdeployed.width h0 hresumes (Nat.le_of_lt hk)
  have hstep := t.step k hk
  rw [hlabel] at hstep
  obtain ⟨hsupply, hbatch, htotal⟩ := hstocked.launch_supply hfull hstep
  obtain ⟨hstocked', htables⟩ :=
    hstocked.launch hfull hdeployed.width (hresumes k hk execute d hlabel) hstep
  have hfit := hfits k hk execute d hlabel
  obtain ⟨hloop, hinputs⟩ :=
    prepareInputs_spec (htables.scheduled hdeployed hstocked' hsupply hbatch htotal hfit)
  obtain ⟨tokens, htokens⟩ := hloop.mpr hfit
  obtain ⟨prepared, hok, hspec⟩ := hinputs tokens htokens
  exact ⟨prepared, hok, htables.writesSpec hdeployed hstocked' hfit hspec⟩

theorem state_cached (hfull : cfg.kvCache.kvCacheSpec = .fullAttention)
    (hdeployed : Deployed cfg runner inputs) (h0 : t.state 0 = init cfg)
    (hresumes : ResumesOutside t) (hfits : LaunchesFit t inputs)
    (hrecedes : VerificationRecedes t) {k : ℕ} (hk : k ≤ t.length) :
    Cached cfg (t.state k).scheduler (kvCache t inputs k) := by
  induction k with
  | zero =>
      rw [h0]
      exact fun q hq => absurd hq List.not_mem_nil
  | succ k ih =>
      have hcached := ih (Nat.le_of_lt hk)
      have hstocked := state_stocked hfull hdeployed.width h0 hresumes (Nat.le_of_lt hk)
      have hstep := t.step k hk
      rw [kvCache]
      cases hlabel : t.label k with
      | operate operation =>
          rw [hlabel] at hstep
          generalize hstate : t.state (k + 1) = c' at hstep ⊢
          cases hstep with
          | operate _ hsystem hquiet =>
              by_cases hschedule : ∃ execute, operation = .schedule execute
              · obtain ⟨execute, rfl⟩ := hschedule
                exact hcached.pause hfull hstocked hsystem (hquiet execute rfl)
              · refine hcached.operate hstocked hsystem (not_exists.mp hschedule) fun hverify => ?_
                have hrecede := hrecedes k hk (by rw [hlabel, hverify])
                rw [hstate] at hrecede
                exact hrecede
      | launch execute d =>
          rw [hlabel] at hstep
          exact hcached.launch hfull hdeployed hstocked hstep (hresumes k hk execute d hlabel)
            (hfits k hk execute d hlabel)

/-! ## Runs in which no denied request is launched -/

theorem UndeniedSteps.booked {answers : List TokenId → TokenId → Prop}
    (h : UndeniedSteps t answers) (h0 : t.state 0 = init cfg) {k : ℕ} (hk : k ≤ t.length) :
    (t.state k).system.Booked answers := by
  induction k with
  | zero =>
      rw [h0]
      exact System.init_booked answers cfg
  | succ k ih => exact (h k hk).booked (ih (Nat.le_of_lt hk))

theorem UndeniedSteps.recedes {answers : List TokenId → TokenId → Prop}
    (h : UndeniedSteps t answers) (h0 : t.state 0 = init cfg) : VerificationRecedes t := by
  intro k hk hlabel
  have hbooked := h.booked h0 (Nat.le_of_lt hk)
  obtain ⟨hstep, -, -, -⟩ := h k hk
  rw [hlabel] at hstep
  exact hstep.verify_recedes hbooked

/-! ## What the slots hold -/

def shortPoolInputs : InputsConfig where
  batch := shortPoolRunner.batch
  blockSize := 1
  maxNumTokens := 8
  blockSize_pos := Nat.one_pos
  maxNumBlocksPerReq_eq := by decide

theorem shortPool_deployed : Deployed shortPool shortPoolRunner shortPoolInputs where
  batch := rfl
  blockSize := rfl
  maxModelLen := rfl
  maxNumReqs := by decide
  maxNumTokens := by decide
  tokens_lt := by decide
  slots_lt := by decide

abbrev resumedOutsideRun : Transition.Timeline (Step shortPool shortPoolRunner) :=
  timelineOf shortPool shortPoolRunner resumedOutside resumedOutside_isSome

theorem resumedOutside_resumesOutside : ResumesOutside resumedOutsideRun := by
  intro k hk execute d hlabel
  have hlt : k < 16 := hk
  interval_cases k <;> cases hlabel <;> decide +kernel

theorem resumedOutside_fits : LaunchesFit resumedOutsideRun shortPoolInputs := by
  intro k hk execute d hlabel
  have hlt : k < 16 := hk
  interval_cases k <;> cases hlabel <;> decide +kernel

theorem resumedOutside_undenied :
    UndeniedSteps resumedOutsideRun fun _ answer => answer = 5 := by
  intro k hk
  have hlt : k < 16 := hk
  refine ⟨(resumedOutsideRun.step k hk).system, ?_, ?_, ?_⟩
  · interval_cases k <;> rfl
  · intro execute hlabel
    interval_cases k <;> cases hlabel <;> exact System.constantExecutor_answers 5 6
  · intro execute hlabel
    interval_cases k <;> cases hlabel <;> decide +kernel

theorem timeline_writesSpec_resumedOutside :
    ∃ t : Transition.Timeline (Step shortPool shortPoolRunner), t.length = 16 ∧
      LaunchesWrite t shortPoolInputs :=
  ⟨resumedOutsideRun, rfl, timeline_writesSpec rfl shortPool_deployed resumedOutsideRun rfl
    resumedOutside_resumesOutside resumedOutside_fits⟩

end Cluster

end Spexis
