import Mathlib.Algebra.Order.BigOperators.Group.List
import Mathlib.Data.List.GetD
import Spexis.Model.Worker.PrepareInputs
import Spexis.Verification.Containers
import Spexis.Verification.Worker.BatchIndex

/-! # The arrays of a batch are what the plain loop gives

Every array of `_prepare_inputs` is an image of the cells of the batch, in the order in which a
loop over the rows and the tokens scheduled in each visits them. -/

namespace Spexis

open Python Ragged

/-! ## Block tables -/

namespace BlockTable

/-- The blocks of a row. -/
def blockRow (t : BlockTable) (i : ℕ) : List BlockId :=
  (List.range (t.numBlocksPerRow i)).map (t.blockTableNp i)

@[simp] theorem length_blockRow (t : BlockTable) (i : ℕ) :
    (t.blockRow i).length = t.numBlocksPerRow i := by
  rw [blockRow, List.length_map, List.length_range]

theorem mem_blockRow {t : BlockTable} {i q : ℕ} (h : q < t.numBlocksPerRow i) :
    t.blockTableNp i q ∈ t.blockRow i :=
  List.mem_map_of_mem (List.mem_range.mpr h)

theorem blockRow_inj {t : BlockTable} {i q q' : ℕ} (hnodup : (t.blockRow i).Nodup)
    (hq : q < t.numBlocksPerRow i) (hq' : q' < t.numBlocksPerRow i)
    (h : t.blockTableNp i q = t.blockTableNp i q') : q = q' :=
  List.inj_on_of_nodup_map hnodup (List.mem_range.mpr hq) (List.mem_range.mpr hq') h

/-- A row with room gets the blocks at its end, and no other row changes. -/
theorem appendRow_blockRow {width i : ℕ} {blockIds : List BlockId} {t : BlockTable}
    (hroom : t.numBlocksPerRow i + blockIds.length ≤ width) :
    ∃ t', appendRow width blockIds i t = .ok t' ∧
      t'.blockRow = Function.update t.blockRow i (t.blockRow i ++ blockIds) := by
  unfold appendRow
  split_ifs with hempty
  · exact ⟨t, rfl, by rw [hempty, List.append_nil, Function.update_eq_self]⟩
  · have hwrite : npAssign width (t.blockTableNp i) (t.numBlocksPerRow i)
        (t.numBlocksPerRow i + blockIds.length) blockIds =
        .ok fun j => if t.numBlocksPerRow i ≤ j ∧ j < t.numBlocksPerRow i + blockIds.length then
          blockIds.getD (j - t.numBlocksPerRow i) (t.blockTableNp i j) else t.blockTableNp i j := by
      unfold npAssign
      rw [min_eq_left (by omega : t.numBlocksPerRow i ≤ width), min_eq_left hroom, if_pos (by omega)]
    dsimp only
    rw [hwrite, ok_bind]
    refine ⟨_, rfl, funext fun j => ?_⟩
    by_cases hj : j = i
    · subst hj
      rw [Function.update_self]
      apply List.ext_getElem
      · simp
      · intro q hq _
        simp only [blockRow, Function.update_self, List.getElem_map, List.getElem_range]
        have hlt : q < t.numBlocksPerRow j + blockIds.length := by simpa using hq
        by_cases hold : q < t.numBlocksPerRow j
        · rw [if_neg (by omega), List.getElem_append_left (by simpa using hold)]
          simp
        · rw [if_pos ⟨by omega, hlt⟩, List.getElem_append_right (by simpa using Nat.le_of_not_lt hold)]
          simp [List.getD_eq_getElem?_getD, (by omega : q - t.numBlocksPerRow j < blockIds.length)]
    · simp only [blockRow, Function.update_of_ne hj]

/-- A new row has exactly the blocks. -/
theorem addRow_blockRow {width i : ℕ} {blockIds : List BlockId} {t : BlockTable}
    (hroom : blockIds.length ≤ width) :
    ∃ t', addRow width blockIds i t = .ok t' ∧
      t'.blockRow = Function.update t.blockRow i blockIds := by
  obtain ⟨t₀, ht₀⟩ : ∃ t₀ : BlockTable, t₀ = { t with
      numBlocksPerRow := Function.update t.numBlocksPerRow i 0 } := ⟨_, rfl⟩
  have hroom₀ : t₀.numBlocksPerRow i + blockIds.length ≤ width := by simpa [ht₀] using hroom
  obtain ⟨t', hok, hrows⟩ := appendRow_blockRow hroom₀
  subst ht₀
  refine ⟨t', hok, ?_⟩
  rw [hrows]
  funext j
  by_cases hj : j = i
  · subst hj
    simp [blockRow]
  · simp only [blockRow, Function.update_of_ne hj]

theorem moveRow_blockRow (src tgt : ℕ) (t : BlockTable) :
    (t.moveRow src tgt).blockRow = Function.update t.blockRow tgt (t.blockRow src) := by
  funext j
  by_cases hj : j = tgt
  · subst hj
    simp only [moveRow, blockRow, Function.update_self]
    apply List.map_congr_left
    intro q hq
    exact if_pos (List.mem_range.mp hq)
  · simp only [moveRow, blockRow, Function.update_of_ne hj]

end BlockTable

namespace InputBatch

variable {cfg : InputsConfig} {out : SpexisSchedulerOutput} {b : InputBatch} {numGpuBlocks : ℕ}
  {i j n : ℕ} {ns : List ℕ}

/-! ## Scheduled batches -/

/-- The numbers of tokens scheduled for the rows. -/
def rowTokens (out : SpexisSchedulerOutput) (b : InputBatch) : List ℕ :=
  b.requestIds.map out.numScheduled

/-- A batch with the output it is prepared for: its requests are the scheduled ones, and the
block tables cover the tokens scheduled. -/
structure Scheduled (cfg : InputsConfig) (numGpuBlocks : ℕ) (out : SpexisSchedulerOutput)
    (b : InputBatch) : Prop where
  indexed : b.Indexed
  dense : b.Dense
  nonempty : 0 < b.numReqs
  numReqs_le : b.numReqs ≤ cfg.batch.maxNumReqs
  requests : (out.numScheduledTokens.map Prod.fst).Perm b.requestIds
  positive : ∀ p ∈ out.numScheduledTokens, 1 ≤ p.2
  total : out.totalNumScheduledTokens = (out.numScheduledTokens.map Prod.snd).sum
  total_le : out.totalNumScheduledTokens ≤ cfg.maxNumTokens
  tokens_lt : cfg.batch.maxNumReqs * cfg.batch.maxModelLen < 2 ^ 31
  slots_lt : numGpuBlocks * cfg.blockSize < 2 ^ 31
  blocks_lt : ∀ i < b.numReqs, ∀ block ∈ b.blockTable.blockRow i, block < numGpuBlocks
  covered : ∀ i n, (b.rowTokens out)[i]? = some n →
    b.numComputedTokensCpu i + n ≤ b.blockTable.numBlocksPerRow i * cfg.blockSize

theorem Scheduled.length_rowTokens (h : b.Scheduled cfg numGpuBlocks out) :
    (b.rowTokens out).length = b.numReqs := by
  rw [rowTokens, List.length_map, h.indexed.numReqs_eq_length h.dense]

theorem Scheduled.keys (h : b.Scheduled cfg numGpuBlocks out) :
    (out.numScheduledTokens.map Prod.fst).Nodup :=
  h.requests.nodup_iff.mpr (h.indexed.nodup_requestIds h.dense)

theorem Scheduled.get (h : b.Scheduled cfg numGpuBlocks out) {reqId : ReqId}
    (hmem : reqId ∈ b.requestIds) :
    (reqId, out.numScheduled reqId) ∈ out.numScheduledTokens ∧
      dictGet out.numScheduledTokens reqId = .ok (out.numScheduled reqId) := by
  obtain ⟨⟨q, n⟩, hitem, rfl⟩ := List.mem_map.mp (h.requests.mem_iff.mpr hmem)
  have hget : dictGet? out.numScheduledTokens q = some n := (dictGet?_eq_some h.keys).mpr hitem
  have hn : out.numScheduled q = n := by rw [SpexisSchedulerOutput.numScheduled, hget]; rfl
  rw [hn, dictGet, hget]
  exact ⟨hitem, rfl⟩

theorem Scheduled.scheduledTokens (h : b.Scheduled cfg numGpuBlocks out) :
    b.scheduledTokens out = .ok (b.rowTokens out) := by
  rw [InputBatch.scheduledTokens, h.dense.reqIds_eq, List.mapM_map, rowTokens]
  exact mapM_eq_ok fun reqId hmem => (h.get hmem).2

theorem Scheduled.one_le (h : b.Scheduled cfg numGpuBlocks out) {n : ℕ}
    (hn : n ∈ b.rowTokens out) : 1 ≤ n := by
  obtain ⟨reqId, hmem, rfl⟩ := List.mem_map.mp hn
  exact h.positive _ (h.get hmem).1

theorem Scheduled.sum_rowTokens (h : b.Scheduled cfg numGpuBlocks out) :
    (b.rowTokens out).sum = out.totalNumScheduledTokens := by
  have hvalues : (out.numScheduledTokens.map Prod.fst).map out.numScheduled =
      out.numScheduledTokens.map Prod.snd := map_getD_dictGet? h.keys 0
  rw [h.total, ← hvalues, rowTokens]
  exact ((h.requests.map out.numScheduled).sum_eq).symm

theorem Scheduled.total_pos (h : b.Scheduled cfg numGpuBlocks out) :
    0 < out.totalNumScheduledTokens := by
  have hlength : 0 < (b.rowTokens out).length := by
    rw [h.length_rowTokens]
    exact h.nonempty
  have hmem := List.getElem_mem hlength
  rw [← h.sum_rowTokens]
  exact (h.one_le hmem).trans (List.single_le_sum (by simp) _ hmem)

/-! ## The plain loop -/

/-- Every token scheduled has a column in its row. -/
def Fits (cfg : InputsConfig) (out : SpexisSchedulerOutput) (b : InputBatch) : Prop :=
  ∀ i n, (b.rowTokens out)[i]? = some n → b.numComputedTokensCpu i + n ≤ cfg.batch.maxModelLen

/-- What the loop gives for one token. -/
def tokenAt (cfg : InputsConfig) (b : InputBatch) (i j : ℕ) : TokenInput :=
  let position := b.numComputedTokensCpu i + j
  { position := position
    inputId := b.tokenIdsCpu i position
    slot := b.blockTable.blockTableNp i (position / cfg.blockSize) * cfg.blockSize +
      position % cfg.blockSize }

theorem div_lt_maxNumBlocksPerReq {p : ℕ} (cfg : InputsConfig) (hp : p < cfg.batch.maxModelLen) :
    p / cfg.blockSize < cfg.batch.maxNumBlocksPerReq := by
  have hround : cfg.batch.maxModelLen + cfg.blockSize - 1 =
      cfg.batch.maxModelLen - 1 + cfg.blockSize := by omega
  rw [cfg.maxNumBlocksPerReq_eq, cdiv, hround, Nat.add_div_right _ cfg.blockSize_pos,
    Nat.lt_succ_iff]
  exact Nat.div_le_div_right (by omega)

theorem maxNumBlocksPerReq_le (cfg : InputsConfig) :
    cfg.batch.maxNumBlocksPerReq ≤ cfg.batch.maxModelLen := by
  have hpos := cfg.blockSize_pos
  rw [cfg.maxNumBlocksPerReq_eq, cdiv]
  by_cases hzero : cfg.batch.maxModelLen = 0
  · rw [hzero, Nat.div_eq_of_lt (by omega)]
  · have hround : cfg.batch.maxModelLen + cfg.blockSize - 1 =
        cfg.batch.maxModelLen - 1 + cfg.blockSize := by omega
    have hle : (cfg.batch.maxModelLen - 1) / cfg.blockSize ≤ cfg.batch.maxModelLen - 1 :=
      Nat.div_le_self _ _
    rw [hround, Nat.add_div_right _ hpos]
    omega

theorem tokenInput_eq (h : b.numComputedTokensCpu i + j < cfg.batch.maxModelLen) :
    b.tokenInput cfg i j = .ok (b.tokenAt cfg i j) := by
  unfold tokenInput columnGet
  dsimp only
  rw [if_pos h, ok_bind, if_pos (div_lt_maxNumBlocksPerReq cfg h), ok_bind]
  rfl

theorem lt_of_tokenInput {token : TokenInput} (h : b.tokenInput cfg i j = .ok token) :
    b.numComputedTokensCpu i + j < cfg.batch.maxModelLen := by
  unfold tokenInput columnGet at h
  dsimp only at h
  by_contra hge
  rw [if_neg hge] at h
  cases h

theorem Scheduled.prepareLoop (h : b.Scheduled cfg numGpuBlocks out) (hfits : b.Fits cfg out) :
    b.prepareLoop cfg out =
      .ok ((cells (b.rowTokens out)).map fun c => b.tokenAt cfg c.1 c.2) := by
  have hrows : (b.rowTokens out).zipIdx.mapM
        (fun p => (List.range p.1).mapM (b.tokenInput cfg p.2)) =
      .ok ((b.rowTokens out).zipIdx.map fun p => (List.range p.1).map (b.tokenAt cfg p.2)) := by
    apply mapM_eq_ok
    rintro ⟨n, i⟩ hp
    have hn := hfits i n (List.mem_zipIdx_iff_getElem?.mp hp)
    apply mapM_eq_ok
    intro j hj
    have hlt : j < n := List.mem_range.mp hj
    exact tokenInput_eq (by dsimp only; omega)
  rw [InputBatch.prepareLoop, h.scheduledTokens, ok_bind, hrows, ok_bind,
    flatten_rows (b.tokenAt cfg) _ 0]
  simp only [Nat.zero_add]
  rfl

/-- The loop succeeds exactly when every token has a column. -/
theorem Scheduled.prepareLoop_isOk_iff (h : b.Scheduled cfg numGpuBlocks out) :
    (∃ tokens, b.prepareLoop cfg out = .ok tokens) ↔ b.Fits cfg out := by
  refine ⟨fun ⟨tokens, hloop⟩ i n hn => ?_, fun hfits => ⟨_, h.prepareLoop hfits⟩⟩
  have hone := h.one_le (List.mem_of_getElem? hn)
  rw [InputBatch.prepareLoop, h.scheduledTokens, ok_bind, bind_eq_ok] at hloop
  obtain ⟨rows, hrows, -⟩ := hloop
  obtain ⟨row, hrow⟩ := exists_of_mapM_eq_ok hrows (n, i) (List.mem_zipIdx_iff_getElem?.mpr hn)
  obtain ⟨token, htoken⟩ := exists_of_mapM_eq_ok hrow (n - 1) (List.mem_range.mpr (by omega))
  have hlt := lt_of_tokenInput htoken
  omega

/-! ## The arrays -/

/-- The flat index is inside a table of the given size, and inside its row. -/
structure InRow (height width i : ℕ) (index : ℤ) : Prop where
  start : (i * width : ℤ) ≤ index
  stop : index < (i + 1) * width
  inside : index < height * width

theorem inRow {height width i p : ℕ} (hi : i < height) (hp : p < width) :
    InRow height width i ((i * width + p : ℕ) : ℤ) := by
  have hstop : i * width + p < (i + 1) * width := by
    rw [Nat.succ_mul]
    omega
  refine ⟨by push_cast; omega, by exact_mod_cast hstop, ?_⟩
  exact_mod_cast hstop.trans_le (Nat.mul_le_mul_right width hi)

theorem Scheduled.row_lt (h : b.Scheduled cfg numGpuBlocks out) (hn : (b.rowTokens out)[i]? = some n) :
    i < b.numReqs := by
  rw [← h.length_rowTokens]
  exact (List.getElem?_eq_some_iff.mp hn).1

theorem Scheduled.cell (h : b.Scheduled cfg numGpuBlocks out) (hfits : b.Fits cfg out)
    {c : ℕ × ℕ} (hc : c ∈ cells (b.rowTokens out)) :
    c.1 < b.numReqs ∧ c.1 < cfg.batch.maxNumReqs ∧
      b.numComputedTokensCpu c.1 + c.2 < cfg.batch.maxModelLen ∧
      b.numComputedTokensCpu c.1 + c.2 < b.blockTable.numBlocksPerRow c.1 * cfg.blockSize := by
  obtain ⟨n, hn, hj⟩ := mem_cells.mp hc
  have hrow := h.row_lt hn
  have hcolumn := hfits c.1 n hn
  have hcovered := h.covered c.1 n hn
  exact ⟨hrow, hrow.trans_le h.numReqs_le, by omega, by omega⟩

/-- An index below the size of the token table fits in 32 bits. -/
theorem Scheduled.mul_lt (h : b.Scheduled cfg numGpuBlocks out) {width : ℕ}
    (hi : i < b.numReqs) (hwidth : width ≤ cfg.batch.maxModelLen) : i * width < 2 ^ 31 :=
  calc i * width
    _ ≤ cfg.batch.maxNumReqs * cfg.batch.maxModelLen :=
        Nat.mul_le_mul (hi.le.trans h.numReqs_le) hwidth
    _ < 2 ^ 31 := h.tokens_lt

theorem Scheduled.int32_rowTokens (h : b.Scheduled cfg numGpuBlocks out) (hfits : b.Fits cfg out) :
    (b.rowTokens out).map (fun (n : ℕ) => int32 n) = (b.rowTokens out).map Nat.cast := by
  apply List.map_congr_left
  intro n hn
  obtain ⟨i, hi⟩ := List.getElem?_of_mem hn
  have hone : 1 * cfg.batch.maxModelLen ≤ cfg.batch.maxNumReqs * cfg.batch.maxModelLen :=
    Nat.mul_le_mul_right _ (Nat.succ_le_of_lt (h.nonempty.trans_le h.numReqs_le))
  have hfit := hfits i n hi
  have hlt := h.tokens_lt
  exact int32_natCast (by omega)

theorem arangeNp_take (cfg : InputsConfig) {n : ℕ}
    (h : n ≤ cfg.batch.maxNumReqs ∨ n ≤ cfg.maxNumTokens) :
    cfg.arangeNp.take n = (List.range n).map Nat.cast := by
  rw [InputsConfig.arangeNp, ← List.map_take, List.take_range]
  congr 2
  omega

theorem Scheduled.preparePositions (h : b.Scheduled cfg numGpuBlocks out) (hfits : b.Fits cfg out) :
    b.preparePositions cfg ((b.rowTokens out).map Nat.cast) out.totalNumScheduledTokens =
      .ok ((cells (b.rowTokens out)).map fun c => (c.1 : ℤ),
        (cells (b.rowTokens out)).map fun c => ((b.numComputedTokensCpu c.1 + c.2 : ℕ) : ℤ)) := by
  have hindices : npRepeat (cfg.arangeNp.take b.numReqs) ((b.rowTokens out).map Nat.cast) =
      .ok ((cells (b.rowTokens out)).map fun c => (c.1 : ℤ)) := by
    rw [arangeNp_take cfg (.inl h.numReqs_le), ← h.length_rowTokens]
    exact npRepeat_cells _ _
  have harange : npZip (· - ·) (cfg.arangeNp.take out.totalNumScheduledTokens)
      ((cells (b.rowTokens out)).map fun c => (((b.rowTokens out).take c.1).sum : ℤ)) =
      .ok ((cells (b.rowTokens out)).map fun c => (c.2 : ℤ)) := by
    rw [arangeNp_take cfg (.inr h.total_le), ← h.sum_rowTokens, range_sum, List.map_map, npZip_map]
    congr 1
    apply List.map_congr_left
    intro c _
    simp
  have hcomputed : npTake cfg.batch.maxNumReqs b.numComputedTokensCpu
      ((cells (b.rowTokens out)).map fun c => (c.1 : ℤ)) =
      .ok ((cells (b.rowTokens out)).map fun c => b.numComputedTokensCpu c.1) :=
    npTake_map _ _ Prod.fst fun c hc => (h.cell hfits hc).2.1
  have hlength : (cells (b.rowTokens out)).length =
      min out.totalNumScheduledTokens cfg.maxNumTokens := by
    rw [length_cells, h.sum_rowTokens, min_eq_left h.total_le]
  rw [InputBatch.preparePositions, hindices, ok_bind]
  dsimp only
  rw [npCumsum_sub, ok_bind, npRepeat_cells, ok_bind, harange, ok_bind, hcomputed, ok_bind,
    npZipInto_map hlength, ok_bind]
  simp only [Nat.cast_add]
  rfl

theorem Scheduled.prepareInputIds (h : b.Scheduled cfg numGpuBlocks out) (hfits : b.Fits cfg out) :
    b.prepareInputIds cfg ((cells (b.rowTokens out)).map fun c => (c.1 : ℤ))
        ((cells (b.rowTokens out)).map fun c => ((b.numComputedTokensCpu c.1 + c.2 : ℕ) : ℤ)) =
      .ok ((cells (b.rowTokens out)).map fun c =>
          ((c.1 * cfg.batch.maxModelLen + (b.numComputedTokensCpu c.1 + c.2) : ℕ) : ℤ),
        (cells (b.rowTokens out)).map fun c => (b.tokenAt cfg c.1 c.2).inputId) := by
  have hflat : npZip (· + ·)
      ((cells (b.rowTokens out)).map fun c => ((b.numComputedTokensCpu c.1 + c.2 : ℕ) : ℤ))
      (((cells (b.rowTokens out)).map fun c => (c.1 : ℤ)).map fun i =>
        int32 (i * cfg.batch.maxModelLen)) =
      .ok ((cells (b.rowTokens out)).map fun c =>
        ((c.1 * cfg.batch.maxModelLen + (b.numComputedTokensCpu c.1 + c.2) : ℕ) : ℤ)) := by
    rw [List.map_map, npZip_map]
    refine congrArg Except.ok (List.map_congr_left fun c hc => ?_)
    rw [Function.comp_apply, ← Nat.cast_mul,
      int32_natCast (h.mul_lt (h.cell hfits hc).1 le_rfl), ← Nat.cast_add, Nat.add_comm]
  have hselect := indexSelect_map (cfg.batch.maxNumReqs * cfg.batch.maxModelLen)
    (npFlatten cfg.batch.maxModelLen b.tokenIdsCpu)
    (fun c : ℕ × ℕ => c.1 * cfg.batch.maxModelLen + (b.numComputedTokensCpu c.1 + c.2))
    fun c (hc : c ∈ cells (b.rowTokens out)) => by
      obtain ⟨-, hi, hp, -⟩ := h.cell hfits hc
      exact_mod_cast (inRow hi hp).inside
  have hids : (cells (b.rowTokens out)).map (fun c =>
        npFlatten cfg.batch.maxModelLen b.tokenIdsCpu
          (c.1 * cfg.batch.maxModelLen + (b.numComputedTokensCpu c.1 + c.2))) =
      (cells (b.rowTokens out)).map fun c => (b.tokenAt cfg c.1 c.2).inputId :=
    List.map_congr_left fun c hc => npFlatten_index (h.cell hfits hc).2.2.1 _
  rw [InputBatch.prepareInputIds, hflat, ok_bind, hselect, ok_bind, hids, pure_eq_ok]

/-- The block of a token is one of its row's, and its slot fits in 32 bits. -/
theorem Scheduled.slot_lt (h : b.Scheduled cfg numGpuBlocks out) (hfits : b.Fits cfg out)
    {c : ℕ × ℕ} (hc : c ∈ cells (b.rowTokens out)) :
    (b.tokenAt cfg c.1 c.2).slot < 2 ^ 31 := by
  obtain ⟨hi, -, -, hcovered⟩ := h.cell hfits hc
  have hblock := h.blocks_lt c.1 hi _
    (BlockTable.mem_blockRow ((Nat.div_lt_iff_lt_mul cfg.blockSize_pos).mpr hcovered))
  have hoffset := Nat.mod_lt (b.numComputedTokensCpu c.1 + c.2) cfg.blockSize_pos
  have hinside := (inRow hblock hoffset).inside
  have hslot : (b.tokenAt cfg c.1 c.2).slot < numGpuBlocks * cfg.blockSize := by
    exact_mod_cast hinside
  exact hslot.trans h.slots_lt

theorem Scheduled.prepareSlotMapping (h : b.Scheduled cfg numGpuBlocks out)
    (hfits : b.Fits cfg out) :
    b.prepareSlotMapping cfg out.totalNumScheduledTokens
        ((cells (b.rowTokens out)).map fun c => (c.1 : ℤ))
        ((cells (b.rowTokens out)).map fun c => ((b.numComputedTokensCpu c.1 + c.2 : ℕ) : ℤ)) =
      .ok ((cells (b.rowTokens out)).map fun c =>
          ((c.1 * cfg.batch.maxNumBlocksPerReq +
            (b.numComputedTokensCpu c.1 + c.2) / cfg.blockSize : ℕ) : ℤ),
        (cells (b.rowTokens out)).map fun c => ((b.tokenAt cfg c.1 c.2).slot : ℤ)) := by
  have hflat : npZip (· + ·)
      (((cells (b.rowTokens out)).map fun c => (c.1 : ℤ)).map fun i =>
        int32 (i * cfg.batch.maxNumBlocksPerReq))
      (((cells (b.rowTokens out)).map fun c =>
        ((b.numComputedTokensCpu c.1 + c.2 : ℕ) : ℤ)).map (· / (cfg.blockSize : ℤ))) =
      .ok ((cells (b.rowTokens out)).map fun c => ((c.1 * cfg.batch.maxNumBlocksPerReq +
        (b.numComputedTokensCpu c.1 + c.2) / cfg.blockSize : ℕ) : ℤ)) := by
    rw [List.map_map, List.map_map, npZip_map]
    refine congrArg Except.ok (List.map_congr_left fun c hc => ?_)
    rw [Function.comp_apply, Function.comp_apply, ← Nat.cast_mul,
      int32_natCast (h.mul_lt (h.cell hfits hc).1 (maxNumBlocksPerReq_le cfg)),
      ← Int.natCast_ediv, ← Nat.cast_add]
  have htake := npTake_map (cfg.batch.maxNumReqs * cfg.batch.maxNumBlocksPerReq)
    (npFlatten cfg.batch.maxNumBlocksPerReq b.blockTable.blockTableNp)
    (fun c : ℕ × ℕ => c.1 * cfg.batch.maxNumBlocksPerReq +
      (b.numComputedTokensCpu c.1 + c.2) / cfg.blockSize)
    fun c (hc : c ∈ cells (b.rowTokens out)) => by
      obtain ⟨-, hi, hp, -⟩ := h.cell hfits hc
      exact_mod_cast (inRow hi (div_lt_maxNumBlocksPerReq cfg hp)).inside
  have hlength : (cells (b.rowTokens out)).length =
      min out.totalNumScheduledTokens cfg.maxNumTokens := by
    rw [length_cells, h.sum_rowTokens, min_eq_left h.total_le]
  have hslots : npZipInto (min out.totalNumScheduledTokens cfg.maxNumTokens)
      (fun x y => int32 (x + y))
      (((cells (b.rowTokens out)).map fun c =>
        npFlatten cfg.batch.maxNumBlocksPerReq b.blockTable.blockTableNp
          (c.1 * cfg.batch.maxNumBlocksPerReq +
            (b.numComputedTokensCpu c.1 + c.2) / cfg.blockSize)).map
        fun (block : BlockId) => int32 (block * cfg.blockSize))
      (((cells (b.rowTokens out)).map fun c =>
        ((b.numComputedTokensCpu c.1 + c.2 : ℕ) : ℤ)).map (· % (cfg.blockSize : ℤ))) =
      .ok ((cells (b.rowTokens out)).map fun c => ((b.tokenAt cfg c.1 c.2).slot : ℤ)) := by
    rw [List.map_map, List.map_map, npZipInto_map hlength]
    refine congrArg Except.ok (List.map_congr_left fun c hc => ?_)
    have hslot := h.slot_lt hfits hc
    simp only [tokenAt] at hslot ⊢
    rw [Function.comp_apply, Function.comp_apply,
      npFlatten_index (div_lt_maxNumBlocksPerReq cfg (h.cell hfits hc).2.2.1), ← Nat.cast_mul,
      int32_natCast (by omega), ← Int.natCast_emod, ← Nat.cast_add, int32_natCast hslot]
  rw [InputBatch.prepareSlotMapping, hflat, ok_bind, htake, ok_bind]
  dsimp only
  rw [hslots, ok_bind, pure_eq_ok]

theorem Scheduled.sum_take_lt (h : b.Scheduled cfg numGpuBlocks out) (hfits : b.Fits cfg out)
    (i : ℕ) : ((b.rowTokens out).take i).sum < 2 ^ 31 := by
  have hbound : ∀ n ∈ (b.rowTokens out).take i, n ≤ cfg.batch.maxModelLen := by
    intro n hn
    obtain ⟨k, hk⟩ := List.getElem?_of_mem (List.mem_of_mem_take hn)
    have hfit := hfits k n hk
    omega
  have hlength : ((b.rowTokens out).take i).length ≤ cfg.batch.maxNumReqs :=
    (List.length_take_le' _ _).trans (h.length_rowTokens.trans_le h.numReqs_le)
  calc ((b.rowTokens out).take i).sum
    _ ≤ ((b.rowTokens out).take i).length * cfg.batch.maxModelLen := by
        simpa using List.sum_le_card_nsmul _ _ hbound
    _ ≤ cfg.batch.maxNumReqs * cfg.batch.maxModelLen := Nat.mul_le_mul_right _ hlength
    _ < 2 ^ 31 := h.tokens_lt

theorem Scheduled.queryEnds (h : b.Scheduled cfg numGpuBlocks out) (hfits : b.Fits cfg out) :
    npBroadcastTo (min b.numReqs cfg.batch.maxNumReqs)
        ((npCumsum 0 ((b.rowTokens out).map Nat.cast)).map int32) =
      .ok ((List.range b.numReqs).map fun i => (((b.rowTokens out).take (i + 1)).sum : ℤ)) := by
  have hsums := npCumsum_eq 0 (b.rowTokens out)
  rw [Nat.cast_zero, h.length_rowTokens] at hsums
  rw [hsums, List.map_map, npBroadcastTo_eq (by simp [h.numReqs_le])]
  refine congrArg Except.ok (List.map_congr_left fun i _ => ?_)
  rw [Function.comp_apply, Nat.zero_add, int32_natCast (h.sum_take_lt hfits _)]

theorem Scheduled.seqLens (h : b.Scheduled cfg numGpuBlocks out) (hfits : b.Fits cfg out) :
    npZip (fun (c : ℕ) n => int32 (c + n))
        ((List.range (min b.numReqs cfg.batch.maxNumReqs)).map b.numComputedTokensCpu)
        ((b.rowTokens out).map Nat.cast) =
      .ok ((List.range b.numReqs).map fun i =>
        ((b.numComputedTokensCpu i + (b.rowTokens out).getD i 0 : ℕ) : ℤ)) := by
  have hcounts : (b.rowTokens out).map (Nat.cast : ℕ → ℤ) =
      (List.range b.numReqs).map fun i => (((b.rowTokens out).getD i 0 : ℕ) : ℤ) := by
    conv_lhs => rw [← map_range_getD (b.rowTokens out), List.map_map, h.length_rowTokens]
    rfl
  rw [hcounts, min_eq_left h.numReqs_le, npZip_map]
  refine congrArg Except.ok (List.map_congr_left fun i hi => ?_)
  have hi' : i < (b.rowTokens out).length := by
    rw [h.length_rowTokens]
    exact List.mem_range.mp hi
  have hfit := hfits i _ (List.getElem?_eq_getElem hi')
  have hone : 1 * cfg.batch.maxModelLen ≤ cfg.batch.maxNumReqs * cfg.batch.maxModelLen :=
    Nat.mul_le_mul_right _ (Nat.succ_le_of_lt (h.nonempty.trans_le h.numReqs_le))
  have hlt := h.tokens_lt
  rw [List.getD_eq_getElem _ _ hi', ← Nat.cast_add, int32_natCast (by omega)]

/-! ## The slots of a batch -/

/-- No block stands twice in the rows of the batch. -/
structure BlocksDistinct (b : InputBatch) : Prop where
  nodup : ∀ i < b.numReqs, (b.blockTable.blockRow i).Nodup
  disjoint : ∀ i < b.numReqs, ∀ i' < b.numReqs, ∀ block ∈ b.blockTable.blockRow i,
    block ∈ b.blockTable.blockRow i' → i = i'

theorem Scheduled.nodup_slots (h : b.Scheduled cfg numGpuBlocks out) (hfits : b.Fits cfg out)
    (hdistinct : b.BlocksDistinct) :
    ((cells (b.rowTokens out)).map fun c => ((b.tokenAt cfg c.1 c.2).slot : ℤ)).Nodup := by
  refine List.Nodup.map_on ?_ (nodup_cells _)
  rintro ⟨i, j⟩ hc ⟨i', j'⟩ hc' hslot
  obtain ⟨hi, -, -, hcovered⟩ := h.cell hfits hc
  obtain ⟨hi', -, -, hcovered'⟩ := h.cell hfits hc'
  have hpos := cfg.blockSize_pos
  have hq := (Nat.div_lt_iff_lt_mul hpos).mpr hcovered
  have hq' := (Nat.div_lt_iff_lt_mul hpos).mpr hcovered'
  dsimp only [tokenAt] at hi hi' hq hq' hslot
  obtain ⟨p, hp⟩ : ∃ p, p = b.numComputedTokensCpu i + j := ⟨_, rfl⟩
  obtain ⟨p', hp'⟩ : ∃ p', p' = b.numComputedTokensCpu i' + j' := ⟨_, rfl⟩
  rw [← hp] at hq hslot
  rw [← hp'] at hq' hslot
  have hslot' := Int.natCast_inj.mp hslot
  have hoffset := Nat.mod_lt p hpos
  have hoffset' := Nat.mod_lt p' hpos
  -- the slot determines the block and the offset in it
  have hblock : b.blockTable.blockTableNp i (p / cfg.blockSize) =
      b.blockTable.blockTableNp i' (p' / cfg.blockSize) := by
    have hdiv := congrArg (· / cfg.blockSize) hslot'
    simpa only [Nat.mul_comm _ cfg.blockSize, Nat.mul_add_div hpos, Nat.div_eq_of_lt hoffset,
      Nat.div_eq_of_lt hoffset', Nat.add_zero] using hdiv
  have hmod : p % cfg.blockSize = p' % cfg.blockSize := by
    rw [hblock] at hslot'
    omega
  -- the block determines the row and its place in the row
  obtain rfl : i = i' := by
    refine hdistinct.disjoint i hi i' hi' _ (BlockTable.mem_blockRow hq) ?_
    rw [hblock]
    exact BlockTable.mem_blockRow hq'
  have hquotient := BlockTable.blockRow_inj (hdistinct.nodup i hi) hq hq' hblock
  have hposition : p = p' := by
    rw [← Nat.div_add_mod p cfg.blockSize, ← Nat.div_add_mod p' cfg.blockSize, hquotient, hmod]
  rw [Prod.mk.injEq]
  exact ⟨rfl, by omega⟩

/-! ## The arrays and the loop -/

/-- The arrays hold, at the place of every token, what the loop gives for it. -/
structure InputsSpec (cfg : InputsConfig) (out : SpexisSchedulerOutput) (b : InputBatch)
    (tokens : List TokenInput) (inputs : PreparedInputs) : Prop where
  cells : tokens = (cells (b.rowTokens out)).map fun c => b.tokenAt cfg c.1 c.2
  positions : inputs.positions = tokens.map fun token => (token.position : ℤ)
  inputIds : inputs.inputIds = tokens.map fun token => token.inputId
  slotMapping : inputs.slotMapping = tokens.map fun token => (token.slot : ℤ)
  queryStartLoc : inputs.queryStartLoc =
    (List.range (b.numReqs + 1)).map fun i => (((b.rowTokens out).take i).sum : ℤ)
  seqLens : inputs.seqLens = (List.range b.numReqs).map fun i =>
    ((b.numComputedTokensCpu i + (b.rowTokens out).getD i 0 : ℕ) : ℤ)
  tokenIndices : List.Forall₂
    (fun c => InRow cfg.batch.maxNumReqs cfg.batch.maxModelLen c.1)
    (Ragged.cells (b.rowTokens out)) inputs.tokenIndices
  blockTableIndices : List.Forall₂
    (fun c => InRow cfg.batch.maxNumReqs cfg.batch.maxNumBlocksPerReq c.1)
    (Ragged.cells (b.rowTokens out)) inputs.blockTableIndices
  slots_nodup : b.BlocksDistinct → inputs.slotMapping.Nodup

/-- `_prepare_inputs` computes what the loop over the rows and their tokens does, which succeeds
when every token has a column in its row. -/
theorem prepareInputs_spec (h : b.Scheduled cfg numGpuBlocks out) :
    ((∃ tokens, b.prepareLoop cfg out = .ok tokens) ↔ b.Fits cfg out) ∧
      ∀ tokens, b.prepareLoop cfg out = .ok tokens →
        ∃ inputs, b.prepareInputs cfg out = .ok inputs ∧ InputsSpec cfg out b tokens inputs := by
  refine ⟨h.prepareLoop_isOk_iff, fun tokens hloop => ?_⟩
  have hfits := h.prepareLoop_isOk_iff.mp ⟨tokens, hloop⟩
  obtain rfl := Except.ok.inj ((h.prepareLoop hfits).symm.trans hloop)
  have hok : b.prepareInputs cfg out = .ok {
      positions := (Ragged.cells (b.rowTokens out)).map fun c =>
        ((b.numComputedTokensCpu c.1 + c.2 : ℕ) : ℤ)
      tokenIndices := (Ragged.cells (b.rowTokens out)).map fun c =>
        ((c.1 * cfg.batch.maxModelLen + (b.numComputedTokensCpu c.1 + c.2) : ℕ) : ℤ)
      inputIds := (Ragged.cells (b.rowTokens out)).map fun c => (b.tokenAt cfg c.1 c.2).inputId
      blockTableIndices := (Ragged.cells (b.rowTokens out)).map fun c =>
        ((c.1 * cfg.batch.maxNumBlocksPerReq +
          (b.numComputedTokensCpu c.1 + c.2) / cfg.blockSize : ℕ) : ℤ)
      slotMapping := (Ragged.cells (b.rowTokens out)).map fun c =>
        ((b.tokenAt cfg c.1 c.2).slot : ℤ)
      queryStartLoc := 0 ::
        (List.range b.numReqs).map fun i => (((b.rowTokens out).take (i + 1)).sum : ℤ)
      seqLens := (List.range b.numReqs).map fun i =>
        ((b.numComputedTokensCpu i + (b.rowTokens out).getD i 0 : ℕ) : ℤ) } := by
    have htotal : pyAssert (0 < out.totalNumScheduledTokens) "" = .ok () :=
      pyAssert_eq_ok.mpr h.total_pos
    have hnonempty : pyAssert (0 < b.numReqs) "" = .ok () := pyAssert_eq_ok.mpr h.nonempty
    rw [prepareInputs, htotal, ok_bind, hnonempty, ok_bind, h.scheduledTokens, ok_bind]
    dsimp only
    rw [h.int32_rowTokens hfits, h.preparePositions hfits, ok_bind]
    dsimp only
    rw [h.prepareInputIds hfits, ok_bind]
    dsimp only
    rw [h.prepareSlotMapping hfits, ok_bind]
    dsimp only
    rw [h.queryEnds hfits, ok_bind, h.seqLens hfits, ok_bind,
      npBroadcastTo_eq (by simp [h.numReqs_le]), ok_bind, pure_eq_ok]
  refine ⟨_, hok, ?_⟩
  constructor
  case cells => rfl
  case positions =>
    rw [List.map_map]
    rfl
  case inputIds =>
    rw [List.map_map]
    rfl
  case slotMapping =>
    rw [List.map_map]
    rfl
  case queryStartLoc =>
    rw [List.range_succ_eq_map, List.map_cons, List.map_map]
    rfl
  case seqLens => rfl
  case tokenIndices =>
    rw [List.forall₂_map_right_iff, List.forall₂_same]
    intro c hc
    obtain ⟨-, hi, hp, -⟩ := h.cell hfits hc
    exact inRow hi hp
  case blockTableIndices =>
    rw [List.forall₂_map_right_iff, List.forall₂_same]
    intro c hc
    obtain ⟨-, hi, hp, -⟩ := h.cell hfits hc
    exact inRow hi (div_lt_maxNumBlocksPerReq cfg hp)
  case slots_nodup => exact fun hdistinct => h.nodup_slots hfits hdistinct

/-! Two requests with one and three tokens computed, of which two more and one more are scheduled,
in rows of five columns with blocks of two slots. -/

def pairConfig : InputsConfig where
  batch := {
    maxNumReqs := 3
    maxModelLen := 5
    maxNumBlocksPerReq := 3
    vocabSize := 32
    float32 := id }
  blockSize := 2
  maxNumTokens := 4
  blockSize_pos := Nat.two_pos
  maxNumBlocksPerReq_eq := by decide

def pairBatch : InputBatch :=
  { init with
    reqIds := [some 7, some 3]
    reqIdToIndex := [(7, 0), (3, 1)]
    reqOutputTokenIds := [some 0, some 1]
    tokenIdsCpu := fun i p => 10 * i + p
    numComputedTokensCpu := fun i => if i = 0 then 1 else 3
    blockTable := {
      blockTableNp := fun i q => if i = 0 then 4 - 4 * q else 2 + 3 * q
      numBlocksPerRow := fun _ => 2 } }

def pairOutput : SpexisSchedulerOutput where
  scheduledNewReqs := []
  scheduledCachedReqs := []
  numScheduledTokens := [(3, 1), (7, 2)]
  totalNumScheduledTokens := 3
  finishedReqIds := []

theorem pairBatch_scheduled : pairBatch.Scheduled pairConfig 6 pairOutput where
  indexed := by
    refine ⟨by decide, fun q i => ?_, rfl⟩
    rcases i with _ | _ | i
    · simp [pairBatch, slot, eq_comm]
    · simp [pairBatch, slot, eq_comm]
    · simp [pairBatch, slot]
  dense := by
    unfold Dense
    decide
  nonempty := by decide
  numReqs_le := by decide
  requests := by decide
  positive := by decide
  total := rfl
  total_le := by decide
  tokens_lt := by decide
  slots_lt := by decide
  blocks_lt := by decide
  covered := by
    intro i n hn
    rcases i with _ | _ | i
    · obtain rfl : 2 = n := Option.some.inj hn
      decide
    · obtain rfl : 1 = n := Option.some.inj hn
      decide
    · cases hn

theorem prepareInputs_spec_pair :
    ∃ inputs, pairBatch.prepareInputs pairConfig pairOutput = .ok inputs ∧
      inputs.positions = [1, 2, 3] ∧ inputs.inputIds = [1, 2, 13] ∧
        inputs.slotMapping = [9, 0, 11] ∧ inputs.slotMapping.Nodup := by
  have hloop : pairBatch.prepareLoop pairConfig pairOutput =
      .ok [⟨1, 1, 9⟩, ⟨2, 2, 0⟩, ⟨3, 13, 11⟩] := rfl
  obtain ⟨inputs, hok, hspec⟩ := (prepareInputs_spec pairBatch_scheduled).2 _ hloop
  have hdistinct : pairBatch.BlocksDistinct := ⟨by decide, by decide⟩
  exact ⟨inputs, hok, hspec.positions, hspec.inputIds, hspec.slotMapping,
    hspec.slots_nodup hdistinct⟩

/-- The logits of a row are taken at the last of its tokens. -/
theorem InputsSpec.logitsIndices {tokens : List TokenInput} {inputs : PreparedInputs}
    (hspec : InputsSpec cfg out b tokens inputs) (h : b.Scheduled cfg numGpuBlocks out)
    (hn : (b.rowTokens out)[i]? = some n) :
    ∃ k : ℕ, inputs.logitsIndices[i]? = some (k : ℤ) ∧
      (Ragged.cells (b.rowTokens out))[k]? = some (i, n - 1) := by
  have hone := h.one_le (List.mem_of_getElem? hn)
  have hi := h.row_lt hn
  have hlast : (i, n - 1) ∈ Ragged.cells (b.rowTokens out) := mem_cells.mpr ⟨n, hn, by omega⟩
  refine ⟨((b.rowTokens out).take i).sum + (n - 1), ?_, getElem?_cells hlast⟩
  have hsum : ((b.rowTokens out).take (i + 1)).sum = ((b.rowTokens out).take i).sum + n := by
    rw [List.take_add_one, hn, List.sum_append]
    simp
  rw [PreparedInputs.logitsIndices, hspec.queryStartLoc, List.range_succ_eq_map, List.map_cons,
    List.tail_cons, List.getElem?_map, List.getElem?_map, List.getElem?_map,
    List.getElem?_range hi]
  simp only [Option.map_some, Nat.succ_eq_add_one, hsum]
  congr 1
  omega

end InputBatch

end Spexis
