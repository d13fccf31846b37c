import Mathlib.Algebra.Order.BigOperators.Group.List
import Spexis.Library.Decoding
import Spexis.Library.Lists
import Spexis.Model.V1.SpecDecode

/-! # Speculative decoding keeps the target's tokens

The flat arrays are images of the cells of the batch: at the cell of a draft stand the draft and the
target's token for it, and every request's program writes its own row. -/

namespace Spexis

open Python Ragged

/-! ## Tables -/

/-- The list with some elements overwritten. -/
def overwrite {α : Type*} (xs : List α) (start : ℕ) : List α → List α
  | [] => xs
  | y :: ys => overwrite (xs.set start y) (start + 1) ys

section Overwrite

variable {α : Type*} {xs ys : List α} {start i : ℕ}

@[simp] theorem overwrite_length (xs : List α) (start : ℕ) (ys : List α) :
    (overwrite xs start ys).length = xs.length := by
  induction ys generalizing xs start with
  | nil => rfl
  | cons y ys ih => rw [overwrite, ih, List.length_set]

theorem getElem?_overwrite_of_lt (h : i < start) : (overwrite xs start ys)[i]? = xs[i]? := by
  induction ys generalizing xs start with
  | nil => rfl
  | cons y ys ih =>
      rw [overwrite, ih (Nat.lt_succ_of_lt h), List.getElem?_set_ne h.ne']

theorem getElem?_overwrite_of_ge (h : start + ys.length ≤ i) :
    (overwrite xs start ys)[i]? = xs[i]? := by
  induction ys generalizing xs start with
  | nil => rfl
  | cons y ys ih =>
      rw [List.length_cons] at h
      rw [overwrite, ih (by omega), List.getElem?_set_ne (by omega)]

theorem getElem?_overwrite (hfit : start + ys.length ≤ xs.length) (hi : i < ys.length) :
    (overwrite xs start ys)[start + i]? = ys[i]? := by
  induction ys generalizing xs start i with
  | nil => cases hi
  | cons y ys ih =>
      rw [List.length_cons] at hfit hi
      rw [overwrite]
      cases i with
      | zero =>
          change (overwrite (xs.set start y) (start + 1) ys)[start]? = some y
          rw [getElem?_overwrite_of_lt (Nat.lt_add_one start), List.getElem?_set_self (by omega)]
      | succ i =>
          have hfit' : start + 1 + ys.length ≤ (xs.set start y).length := by
            rw [List.length_set]
            omega
          rw [List.getElem?_cons_succ, ← ih hfit' (Nat.lt_of_succ_lt_succ hi), Nat.add_right_comm,
            Nat.add_assoc]

end Overwrite

theorem overwrite_zero {α : Type*} {xs ys : List α} (h : ys.length ≤ xs.length) :
    overwrite xs 0 ys = ys ++ xs.drop ys.length := by
  apply List.ext_getElem?
  intro i
  rcases Nat.lt_or_ge i ys.length with hlt | hge
  · have hself : (overwrite xs 0 ys)[0 + i]? = ys[i]? :=
      getElem?_overwrite (by rwa [Nat.zero_add]) hlt
    rw [Nat.zero_add] at hself
    rw [hself, List.getElem?_append_left hlt]
  · rw [getElem?_overwrite_of_ge (by rwa [Nat.zero_add]), List.getElem?_append_right hge,
      List.getElem?_drop, Nat.add_sub_cancel' hge]

/-- A row of a table. -/
def tableRow (width : ℕ) (table : List ℤ) (i : ℕ) : List ℤ :=
  pySlice table (i * width) ((i + 1) * width)

section Rows

variable {height width i j : ℕ} {table ys : List ℤ}

theorem getElem?_tableRow (k : ℕ) :
    (tableRow width table i)[k]? = if k < width then table[i * width + k]? else none := by
  rw [tableRow, pySlice, List.getElem?_drop, List.getElem?_take, Nat.succ_mul]
  exact if_congr (Nat.add_lt_add_iff_left) rfl rfl

theorem row_end_le (hi : i < height) (hlength : table.length = height * width) :
    i * width + width ≤ table.length := by
  rw [hlength, ← Nat.succ_mul]
  exact Nat.mul_le_mul_right width hi

theorem length_tableRow (hi : i < height) (hlength : table.length = height * width) :
    (tableRow width table i).length = width := by
  have hend := row_end_le hi hlength
  rw [tableRow, pySlice, List.length_drop, List.length_take, Nat.succ_mul]
  omega

/-- Overwriting a row is overwriting it in the table. -/
theorem tableRow_overwrite_self (hi : i < height) (hlength : table.length = height * width)
    (hys : ys.length ≤ width) :
    tableRow width (overwrite table (i * width) ys) i =
      overwrite (tableRow width table i) 0 ys := by
  have hend := row_end_le hi hlength
  have hrow := length_tableRow hi hlength
  rw [overwrite_zero (by rwa [hrow])]
  apply List.ext_getElem?
  intro k
  rw [getElem?_tableRow]
  rcases Nat.lt_or_ge k ys.length with hlt | hge
  · rw [if_pos (hlt.trans_le hys), getElem?_overwrite (by omega) hlt, List.getElem?_append_left hlt]
  · rw [getElem?_overwrite_of_ge (by omega), List.getElem?_append_right hge, List.getElem?_drop,
      Nat.add_sub_cancel' hge, getElem?_tableRow]

theorem tableRow_overwrite_of_ne (hij : i ≠ j) (hys : ys.length ≤ width) :
    tableRow width (overwrite table (i * width) ys) j = tableRow width table j := by
  apply List.ext_getElem?
  intro k
  rw [getElem?_tableRow, getElem?_tableRow]
  refine if_ctx_congr Iff.rfl (fun hk => ?_) fun _ => rfl
  rcases Nat.lt_or_gt_of_ne hij with hlt | hgt
  · have hle := Nat.mul_le_mul_right width (Nat.succ_le_of_lt hlt)
    rw [Nat.succ_mul] at hle
    exact getElem?_overwrite_of_ge (by omega)
  · have hle := Nat.mul_le_mul_right width (Nat.succ_le_of_lt hgt)
    rw [Nat.succ_mul] at hle
    exact getElem?_overwrite_of_lt (by omega)

/-- Programs that each overwrite their own row, in any order. -/
theorem foldlM_overwrite {f : List ℤ → ℕ → Except PyError (List ℤ)} {rows : ℕ → List ℤ}
    (hf : ∀ table, table.length = height * width → ∀ i < height,
      f table i = .ok (overwrite table (i * width) (rows i)))
    (hrows : ∀ i < height, (rows i).length ≤ width) {order : List ℕ} (hnodup : order.Nodup)
    (horder : ∀ i ∈ order, i < height) (hlength : table.length = height * width) :
    ∃ table', order.foldlM f table = .ok table' ∧ ∀ i < height, tableRow width table' i =
      if i ∈ order then overwrite (tableRow width table i) 0 (rows i)
      else tableRow width table i := by
  induction order generalizing table with
  | nil => exact ⟨table, rfl, fun i _ => (if_neg List.not_mem_nil).symm⟩
  | cons first order ih =>
      obtain ⟨hnot, hnodup⟩ := List.nodup_cons.mp hnodup
      have hfirst := horder first List.mem_cons_self
      obtain ⟨table', hrun, hrest⟩ := ih hnodup (fun i hi => horder i (List.mem_cons_of_mem _ hi))
        ((overwrite_length table (first * width) (rows first)).trans hlength)
      refine ⟨table', ?_, fun i hi => ?_⟩
      · rw [List.foldlM_cons, hf table hlength first hfirst, ok_bind]
        exact hrun
      · rw [hrest i hi]
        by_cases heq : i = first
        · subst heq
          rw [if_neg hnot, if_pos List.mem_cons_self,
            tableRow_overwrite_self hi hlength (hrows i hi)]
        · rw [tableRow_overwrite_of_ne (Ne.symm heq) (hrows first hfirst)]
          exact if_congr (by rw [List.mem_cons, or_iff_right heq]) rfl rfl

end Rows

/-! ## One program -/

section Kernel

/-- What the program of a request reads and where it writes. -/
structure Loads (target : List TokenId → TokenId) (context drafts : List TokenId)
    (draftTokenIds targetArgmax : List TokenId) (start : ℕ) : Prop where
  draft : ∀ pos < drafts.length, draftTokenIds[start + pos]? = drafts[pos]?
  target : ∀ pos < drafts.length,
    targetArgmax[start + pos]? = some (target (context ++ drafts.take pos))

variable {target : List TokenId → TokenId}
  {context drafts draftTokenIds targetArgmax : List TokenId} {start row bonus : ℕ} {output : List ℤ}

theorem Loads.tail {draft : TokenId} (h : Loads target context (draft :: drafts) draftTokenIds
    targetArgmax start) :
    Loads target (context ++ [draft]) drafts draftTokenIds targetArgmax (start + 1) where
  draft pos hpos := by
    have hnext := h.draft (pos + 1) (Nat.succ_lt_succ hpos)
    rwa [List.getElem?_cons_succ, ← Nat.add_assoc, Nat.add_right_comm] at hnext
  target pos hpos := by
    have hnext := h.target (pos + 1) (Nat.succ_lt_succ hpos)
    rwa [List.take_succ_cons, ← Nat.add_assoc, Nat.add_right_comm, List.append_cons] at hnext

theorem rejectionGreedyPos_rejected (startIdx rowIdx : ℤ) (poss : List ℕ) :
    poss.foldlM (rejectionGreedyPos draftTokenIds targetArgmax startIdx rowIdx) (true, output) =
      .ok (true, output) := by
  induction poss with
  | nil => rfl
  | cons pos poss ih => exact ih

/-- One position: the target's token is stored, and kept apart from the draft. -/
theorem rejectionGreedyPos_eq (htarget : ∀ context, target context < 2 ^ 31) {draft : TokenId}
    {pos : ℕ}
    (hloads : Loads target context (draft :: drafts) draftTokenIds targetArgmax (start + pos))
    (hfit : row + pos < output.length) :
    rejectionGreedyPos draftTokenIds targetArgmax start row (false, output) pos =
      .ok (decide (draft ≠ target context), output.set (row + pos) (target context : ℤ)) := by
  have htoken := int32_natCast (htarget context)
  have hdraft := tlLoad_eq (hloads.draft 0 (Nat.succ_pos _))
  have hanswer := tlLoad_eq (hloads.target 0 (Nat.succ_pos _))
  have hstore := tlStore_eq hfit (target context : ℤ)
  rw [List.take_zero, List.append_nil] at hanswer
  rw [Nat.add_zero, Nat.cast_add] at hdraft hanswer
  rw [Nat.cast_add] at hstore
  simp only [rejectionGreedyPos, Bool.false_eq_true, if_false, hdraft, hanswer, htoken, hstore,
    ok_bind]
  rfl

/-- From a position on, the loop and the bonus store what verifying the drafts that are left
yields. -/
theorem rejectionGreedy_loop (htarget : ∀ context, target context < 2 ^ 31)
    {bonusTokenIds : List TokenId} {reqIdx pos : ℕ}
    (hloads : Loads target context drafts draftTokenIds targetArgmax (start + pos))
    (hbonus : bonusTokenIds[reqIdx]? = some (target (context ++ drafts)))
    (hfit : row + pos + drafts.length < output.length) :
    ((List.range' pos drafts.length).foldlM
        (rejectionGreedyPos draftTokenIds targetArgmax start row) (false, output) >>=
      rejectionGreedyBonus bonusTokenIds ((pos + drafts.length : ℕ) : ℤ) row reqIdx) =
      .ok (overwrite output (row + pos)
        ((verifyDrafts target context drafts).map Nat.cast)) := by
  induction drafts generalizing context pos output with
  | nil =>
      rw [List.append_nil] at hbonus
      rw [List.length_nil, Nat.add_zero] at hfit
      have hstore := tlStore_eq hfit (target context : ℤ)
      rw [Nat.cast_add] at hstore
      simp [rejectionGreedyBonus, tlLoad_eq hbonus, int32_natCast (htarget context), verifyDrafts,
        overwrite, hstore]
  | cons draft drafts ih =>
      rw [List.length_cons] at hfit
      rw [List.length_cons, List.range'_succ, List.foldlM_cons,
        rejectionGreedyPos_eq htarget hloads (by omega), ok_bind, verifyDrafts]
      by_cases hdraft : draft = target context
      · subst hdraft
        have hnext : row + (pos + 1) + drafts.length <
            (output.set (row + pos) (target context : ℤ)).length := by
          rw [List.length_set]
          omega
        have hcount : pos + (drafts.length + 1) = pos + 1 + drafts.length := by omega
        rw [List.append_cons] at hbonus
        rw [if_pos rfl, decide_eq_false (not_not.mpr rfl), List.map_cons, overwrite, hcount,
          Nat.add_assoc row pos 1]
        exact ih (Nat.add_assoc start pos 1 ▸ hloads.tail) hbonus hnext
      · rw [if_neg hdraft, decide_eq_true hdraft, rejectionGreedyPos_rejected, ok_bind]
        rfl

end Kernel

/-! ## The metadata -/

/-- A request of a batch: the tokens with their keys in the cache, those that are scheduled and
verified, the drafts after them, and the number of tokens that the request has. -/
structure SpecRow where
  computed : List TokenId
  verified : List TokenId
  drafts : List TokenId
  numTokens : ℕ
  verified_ne : verified ≠ []

namespace SpecRow

def tokens (row : SpecRow) : List TokenId :=
  row.verified ++ row.drafts

def context (row : SpecRow) : List TokenId :=
  row.computed ++ row.verified

/-- The target's token after each token of the row. -/
def greedySampled (target : List TokenId → TokenId) (row : SpecRow) : List TokenId :=
  (List.range row.tokens.length).map fun j => target (row.computed ++ row.tokens.take (j + 1))

/-- `seq_len < req_state.num_tokens`. -/
def partialPrefill (row : SpecRow) : Bool :=
  row.computed.length + row.tokens.length < row.numTokens

theorem lt_length (row : SpecRow) : row.drafts.length < row.tokens.length := by
  have hpos := List.length_pos_iff.mpr row.verified_ne
  rw [tokens, List.length_append]
  omega

/-- The target's token after some of the drafts. -/
theorem greedySampled_get (target : List TokenId → TokenId) (row : SpecRow) {j : ℕ}
    (hj : j ≤ row.drafts.length) :
    (row.greedySampled target)[row.verified.length - 1 + j]? =
      some (target (row.context ++ row.drafts.take j)) := by
  have hpos := List.length_pos_iff.mpr row.verified_ne
  have hlt : row.verified.length - 1 + j < row.tokens.length := by
    rw [tokens, List.length_append]
    omega
  have hindex : row.verified.length - 1 + j + 1 = row.verified.length + j := by omega
  rw [greedySampled, List.getElem?_map, List.getElem?_range hlt, Option.map_some, hindex, tokens,
    List.take_length_add_append, context, List.append_assoc]

theorem tokens_get (row : SpecRow) {j : ℕ} :
    row.tokens[row.verified.length - 1 + (j + 1)]? = row.drafts[j]? := by
  have hpos := List.length_pos_iff.mpr row.verified_ne
  have hindex : row.verified.length - 1 + (j + 1) = row.verified.length + j := by omega
  rw [hindex, tokens, List.getElem?_append_right (Nat.le_add_right _ _), Nat.add_sub_cancel_left]

end SpecRow

section Flat

variable {α : Type} {xss : List (List α)} {xs : List α} {i j : ℕ}

/-- The element of a row in the flat list. -/
theorem getElem?_flatten (hrow : xss[i]? = some xs) (hj : j < xs.length) :
    xss.flatten[((xss.map List.length).take i).sum + j]? = xs[j]? := by
  induction xss generalizing i with
  | nil => cases hrow
  | cons first xss ih =>
      cases i with
      | zero =>
          obtain rfl := Option.some.inj hrow
          simp [List.getElem?_append_left hj]
      | succ i =>
          rw [List.getElem?_cons_succ] at hrow
          rw [List.map_cons, List.take_succ_cons, List.sum_cons, List.flatten_cons, Nat.add_assoc,
            List.getElem?_append_right (Nat.le_add_right _ _), Nat.add_sub_cancel_left, ih hrow]

end Flat

section Arrays

variable {ns : List ℕ}

theorem sum_take_le (ns : List ℕ) (i : ℕ) : (ns.take i).sum ≤ ns.sum :=
  List.Sublist.sum_le_sum (List.take_sublist i ns) fun _ _ => Nat.zero_le _

/-- The cumulative sums in 32 bits. -/
theorem npCumsum_int32 (hsum : ns.sum < 2 ^ 31) :
    (npCumsum 0 (ns.map Nat.cast)).map int32 =
      (List.range ns.length).map fun i => ((ns.take (i + 1)).sum : ℤ) := by
  have hsums := npCumsum_eq 0 ns
  rw [Nat.cast_zero] at hsums
  rw [hsums, List.map_map]
  apply List.map_congr_left
  intro i _
  rw [Function.comp_apply, Nat.zero_add]
  exact int32_natCast ((sum_take_le ns (i + 1)).trans_lt hsum)

theorem map_natCast_eq (ns : List ℕ) :
    ns.map (Nat.cast : ℕ → ℤ) = (List.range ns.length).map fun i => ((ns.getD i 0 : ℕ) : ℤ) := by
  conv_lhs => rw [← map_range_getD ns, List.map_map]
  rfl

theorem int32_succ {n : ℕ} (h : n + 1 < 2 ^ 31) : int32 ((n : ℤ) + 1) = ((n + 1 : ℕ) : ℤ) :=
  int32_eq (by omega) (by omega)

theorem map_int32_succ (h : ∀ n ∈ ns, n + 1 < 2 ^ 31) :
    (ns.map (Nat.cast : ℕ → ℤ)).map (fun n => int32 (n + 1)) = (ns.map (· + 1)).map Nat.cast := by
  rw [List.map_map, List.map_map]
  refine List.map_congr_left fun n hn => ?_
  rw [Function.comp_apply, Function.comp_apply]
  exact int32_succ (h n hn)

theorem sum_take_succ {i : ℕ} (hi : i < ns.length) :
    (ns.take (i + 1)).sum = (ns.take i).sum + ns.getD i 0 := by
  rw [List.take_add_one, List.sum_append]
  simp [hi]

/-- The numbers of the cells in earlier rows. -/
theorem npZip_starts (hsum : ns.sum < 2 ^ 31) :
    npZip (fun x y => int32 (x - y)) ((npCumsum 0 (ns.map Nat.cast)).map int32) (ns.map Nat.cast) =
      .ok ((List.range ns.length).map fun i => ((ns.take i).sum : ℤ)) := by
  rw [npCumsum_int32 hsum, map_natCast_eq, npZip_map]
  congr 1
  apply List.map_congr_left
  intro i hi
  rw [sum_take_succ (List.mem_range.mp hi), Nat.cast_add, Int.add_sub_cancel]
  exact int32_natCast ((sum_take_le ns i).trans_lt hsum)

/-- The column of every cell. -/
theorem npZip_arange {length : ℕ} (hlength : ns.sum ≤ length) (hsum : ns.sum < 2 ^ 31) :
    npZip (fun x y => int32 (x - y))
        (pySliceInt ((List.range length).map Nat.cast) 0 (ns.sum : ℤ))
        ((cells ns).map fun c => ((ns.take c.1).sum : ℤ)) =
      .ok ((cells ns).map fun c => (c.2 : ℤ)) := by
  have hslice : pySliceInt ((List.range length).map (Nat.cast : ℕ → ℤ)) 0 (ns.sum : ℤ) =
      (cells ns).map fun c => (((ns.take c.1).sum + c.2 : ℕ) : ℤ) := by
    have htake : pySliceInt ((List.range length).map (Nat.cast : ℕ → ℤ)) 0 (ns.sum : ℤ) =
        (List.range ns.sum).map Nat.cast := by
      have hstop : pySliceStart length (ns.sum : ℤ) = ns.sum := by
        rw [pySliceStart, if_neg (by omega), Int.toNat_natCast, min_eq_left hlength]
      rw [pySliceInt, List.length_map, List.length_range, hstop, pySlice, ← List.map_take,
        List.take_range, min_eq_left hlength]
      rfl
    rw [htake, range_sum, List.map_map]
    rfl
  rw [hslice, npZip_map]
  congr 1
  apply List.map_congr_left
  intro c hc
  rw [Nat.cast_add, add_sub_cancel_left]
  obtain ⟨n, hn, hlt⟩ : ∃ n, ns[c.1]? = some n ∧ c.2 < n := mem_cells.mp hc
  have hle : n ≤ ns.sum := List.single_le_sum (fun _ _ => Nat.zero_le _) n (List.mem_of_getElem? hn)
  exact int32_natCast (by omega)

theorem pyGet_total (hns : ns ≠ []) :
    pyGet ((List.range ns.length).map fun i => ((ns.take (i + 1)).sum : ℤ)) (-1) =
      .ok (ns.sum : ℤ) := by
  have hpos := List.length_pos_iff.mpr hns
  have hlast : ns.length - 1 < ns.length := by omega
  refine pyGet_neg Nat.one_pos ?_ ?_
  · rwa [List.length_map, List.length_range]
  · rw [List.length_map, List.length_range, List.getElem?_map, List.getElem?_range hlast,
      Option.map_some, Nat.sub_add_cancel hpos, List.take_length]

end Arrays

/-- A batch with drafts. -/
structure SpecBatch (length : ℕ) where
  rows : List SpecRow
  rows_ne : rows ≠ []
  /-- The arrays of the runner have room for the tokens. -/
  tokens_le : (rows.map (·.tokens.length)).sum ≤ length
  tokens_lt : (rows.map (·.tokens.length)).sum < 2 ^ 31
  drafts_le : ∀ row ∈ rows, row.drafts.length ≤ maxSpecLenLimit

namespace SpecBatch

variable {length : ℕ} (batch : SpecBatch length) (target : List TokenId → TokenId)

def numTokens : List ℕ := batch.rows.map (·.tokens.length)

def numDrafts : List ℕ := batch.rows.map (·.drafts.length)

def numSampled : List ℕ := batch.rows.map (·.drafts.length + 1)

def draftAt (c : ℕ × ℕ) : TokenId :=
  ((batch.rows[c.1]?).bind (·.drafts[c.2]?)).getD 0

/-- The target's token at the last verified token of a row, or at a draft. -/
def sampledAt (c : ℕ × ℕ) : TokenId :=
  ((batch.rows[c.1]?).map fun row => target (row.context ++ row.drafts.take c.2)).getD 0

/-- Its index in the batch. -/
def logitAt (c : ℕ × ℕ) : ℕ :=
  (batch.numTokens.take c.1).sum +
    ((batch.rows[c.1]?).map fun row => row.verified.length - 1).getD 0 + c.2

/-- The metadata, cell by cell. -/
def metadata : SpecDecodeMetadata where
  draftTokenIds := (cells batch.numDrafts).map batch.draftAt
  numDraftTokens := batch.numDrafts.map Nat.cast
  cuNumDraftTokens := (List.range batch.numDrafts.length).map fun i =>
    ((batch.numDrafts.take (i + 1)).sum : ℤ)
  targetLogitsIndices := (cells batch.numDrafts).map fun c =>
    (((batch.numSampled.take c.1).sum + c.2 : ℕ) : ℤ)
  bonusLogitsIndices := (List.range batch.numSampled.length).map fun i =>
    (((batch.numSampled.take (i + 1)).sum - 1 : ℕ) : ℤ)
  logitsIndices := (cells batch.numSampled).map fun c => (batch.logitAt c : ℤ)

theorem sum_numSampled_le : batch.numSampled.sum ≤ batch.numTokens.sum := by
  apply List.sum_le_sum
  intro row _
  exact row.lt_length

theorem sum_numDrafts_le : batch.numDrafts.sum ≤ batch.numSampled.sum := by
  apply List.sum_le_sum
  intro row _
  exact Nat.le_succ _

variable {batch target}

theorem exists_row {ns : List ℕ} {f : SpecRow → ℕ} (hns : ns = batch.rows.map f) {c : ℕ × ℕ}
    (hc : c ∈ cells ns) : ∃ row, batch.rows[c.1]? = some row ∧ c.2 < f row := by
  subst hns
  obtain ⟨n, hn, hlt⟩ : ∃ n, (batch.rows.map f)[c.1]? = some n ∧ c.2 < n := mem_cells.mp hc
  rw [List.getElem?_map, Option.map_eq_some_iff] at hn
  obtain ⟨row, hrow, rfl⟩ := hn
  exact ⟨row, hrow, hlt⟩

theorem mem_cells_of_row {f : SpecRow → ℕ} {i j : ℕ} {row : SpecRow}
    (hrow : batch.rows[i]? = some row) (hj : j < f row) : (i, j) ∈ cells (batch.rows.map f) :=
  mem_cells.mpr ⟨f row, by rw [List.getElem?_map, hrow]; rfl, hj⟩

/-- `logits_indices`. -/
theorem logitsIndices (batch : SpecBatch length) :
    (do
      let ends ← npZip (· - ·) (npCumsum 0 (batch.numTokens.map Nat.cast))
        (batch.numSampled.map Nat.cast)
      let indices ← npRepeat ends (batch.numSampled.map Nat.cast)
      npZip (· + ·) indices ((cells batch.numSampled).map fun c : ℕ × ℕ => (c.2 : ℤ))) =
      .ok ((cells batch.numSampled).map fun c => (batch.logitAt c : ℤ)) := by
  have hlength : batch.numTokens.length = batch.numSampled.length := by
    rw [numTokens, numSampled, List.length_map, List.length_map]
  have hsums := npCumsum_eq 0 batch.numTokens
  rw [Nat.cast_zero, hlength] at hsums
  rw [hsums, map_natCast_eq batch.numSampled, npZip_map, ok_bind, ← map_natCast_eq, npRepeat_cells,
    ok_bind, npZip_map]
  congr 1
  apply List.map_congr_left
  intro c hc
  obtain ⟨row, hrow, -⟩ := exists_row rfl hc
  have hpos := List.length_pos_iff.mpr row.verified_ne
  have hlt : c.1 < batch.numTokens.length := by
    rw [numTokens, List.length_map]
    exact (List.getElem?_eq_some_iff.mp hrow).1
  have htokens : batch.numTokens.getD c.1 0 = row.verified.length + row.drafts.length := by
    rw [numTokens, List.getD_eq_getElem?_getD, List.getElem?_map, hrow]
    exact List.length_append
  have hsampled : batch.numSampled.getD c.1 0 = row.drafts.length + 1 := by
    rw [numSampled, List.getD_eq_getElem?_getD, List.getElem?_map, hrow]
    rfl
  rw [Nat.zero_add, sum_take_succ hlt, htokens, hsampled, logitAt, hrow, Option.map_some,
    Option.getD_some]
  omega

theorem numSampledTokens :
    (batch.numDrafts.map (Nat.cast : ℕ → ℤ)).map (fun n => int32 (n + 1)) =
      batch.numSampled.map Nat.cast := by
  have hnum : batch.numSampled = batch.numDrafts.map (· + 1) := (List.map_map ..).symm
  rw [hnum]
  refine map_int32_succ fun n hn => ?_
  obtain ⟨row, hrow, rfl⟩ := List.mem_map.mp hn
  have hle := batch.drafts_le row hrow
  rw [maxSpecLenLimit] at hle
  omega

/-- The flat index of a draft among the sampled tokens. -/
theorem sampled_index {c : ℕ × ℕ} (hc : c ∈ cells batch.numDrafts) (k : ℕ) (hk : k ≤ 1) :
    (cells batch.numSampled)[(batch.numSampled.take c.1).sum + c.2 + k]? = some (c.1, c.2 + k) := by
  obtain ⟨row, hrow, hlt⟩ := exists_row rfl hc
  rw [Nat.add_assoc]
  exact getElem?_cells (mem_cells_of_row hrow (by omega))

theorem sampled_index_lt {c : ℕ × ℕ} (hc : c ∈ cells batch.numDrafts) (k : ℕ) (hk : k ≤ 1) :
    (batch.numSampled.take c.1).sum + c.2 + k < batch.numSampled.sum := by
  have hget := (List.getElem?_eq_some_iff.mp (sampled_index hc k hk)).1
  rwa [length_cells] at hget

/-- `target_logits_indices`. -/
theorem targetLogitsIndices (batch : SpecBatch length) :
    (do
      let indices ← npRepeat ((List.range batch.numSampled.length).map fun i =>
        ((batch.numSampled.take i).sum : ℤ)) (batch.numDrafts.map Nat.cast)
      npZip (fun x y => int32 (x + y)) indices
        ((cells batch.numDrafts).map fun c : ℕ × ℕ => (c.2 : ℤ))) =
      .ok ((cells batch.numDrafts).map fun c =>
        (((batch.numSampled.take c.1).sum + c.2 : ℕ) : ℤ)) := by
  have hlength : batch.numSampled.length = batch.numDrafts.length := by
    rw [numDrafts, numSampled, List.length_map, List.length_map]
  have hsum := batch.sum_numSampled_le.trans_lt batch.tokens_lt
  rw [hlength, npRepeat_cells, ok_bind, npZip_map]
  refine congrArg Except.ok (List.map_congr_left fun c hc => ?_)
  have hlt := sampled_index_lt hc 0 (Nat.zero_le _)
  have hsmall : (batch.numSampled.take c.1).sum + c.2 < 2 ^ 31 := by omega
  rw [← Nat.cast_add, int32_natCast hsmall]

theorem logitAt_lt {c : ℕ × ℕ} (hc : c ∈ cells batch.numSampled) :
    batch.logitAt c < batch.numTokens.sum := by
  obtain ⟨row, hrow, hlt⟩ := exists_row rfl hc
  have hpos := List.length_pos_iff.mpr row.verified_ne
  have hcell : (c.1, row.verified.length - 1 + c.2) ∈ cells batch.numTokens := by
    refine mem_cells_of_row hrow ?_
    rw [SpecRow.tokens, List.length_append]
    omega
  have hget := (List.getElem?_eq_some_iff.mp (getElem?_cells hcell)).1
  rw [length_cells] at hget
  rw [logitAt, hrow, Option.map_some, Option.getD_some, Nat.add_assoc]
  exact hget

/-- What a flat array of the batch has at the index of a sampled token. -/
theorem flatMap_logitAt {f : SpecRow → List TokenId}
    (hf : ∀ row, (f row).length = row.tokens.length) {i j : ℕ} {row : SpecRow} {token : TokenId}
    (hrow : batch.rows[i]? = some row)
    (htoken : (f row)[row.verified.length - 1 + j]? = some token) :
    (batch.rows.flatMap f).getD (batch.logitAt (i, j)) 0 = token := by
  have hflat : (batch.rows.map f)[i]? = some (f row) := by
    rw [List.getElem?_map, hrow]
    rfl
  have hlengths : (batch.rows.map f).map List.length = batch.numTokens := by
    rw [List.map_map]
    exact List.map_congr_left fun row _ => hf row
  have hget := getElem?_flatten hflat (List.getElem?_eq_some_iff.mp htoken).1
  rw [hlengths, htoken] at hget
  rw [List.flatMap, List.getD_eq_getElem?_getD, logitAt, hrow, Option.map_some, Option.getD_some,
    Nat.add_assoc, hget]
  rfl

theorem length_flatMap {f : SpecRow → List TokenId}
    (hf : ∀ row, (f row).length = row.tokens.length) :
    (batch.rows.flatMap f).length = batch.numTokens.sum := by
  rw [List.length_flatMap]
  exact congrArg List.sum (List.map_congr_left fun row _ => hf row)

/-- A flat array of the batch at the sampled tokens. -/
theorem takeTokens_logits {f : SpecRow → List TokenId}
    (hf : ∀ row, (f row).length = row.tokens.length) :
    takeTokens (batch.rows.flatMap f)
        ((cells batch.numSampled).map fun c => (batch.logitAt c : ℤ)) =
      .ok ((cells batch.numSampled).map fun c =>
        (batch.rows.flatMap f).getD (batch.logitAt c) 0) := by
  refine npTake_map _ _ _ fun c hc => ?_
  rw [length_flatMap hf]
  exact logitAt_lt hc

/-- The images of the sampled tokens at the indices of the drafts. -/
theorem takeTokens_sampled (g : ℕ × ℕ → TokenId) (k : ℕ) (hk : k ≤ 1) :
    takeTokens ((cells batch.numSampled).map g) ((cells batch.numDrafts).map fun c =>
        (((batch.numSampled.take c.1).sum + c.2 + k : ℕ) : ℤ)) =
      .ok ((cells batch.numDrafts).map fun c => g (c.1, c.2 + k)) := by
  have hindex : ∀ c ∈ cells batch.numDrafts,
      (batch.numSampled.take c.1).sum + c.2 + k < ((cells batch.numSampled).map g).length := by
    intro c hc
    rw [List.length_map, length_cells]
    exact sampled_index_lt hc k hk
  rw [takeTokens, npTake_map _ _ _ hindex]
  congr 1
  apply List.map_congr_left
  intro c hc
  rw [List.getD_eq_getElem?_getD, List.getElem?_map, sampled_index hc k hk]
  rfl

/-- `_calc_spec_decode_metadata`. -/
theorem calcSpecDecodeMetadata_eq :
    calcSpecDecodeMetadata ((List.range length).map Nat.cast) (batch.rows.flatMap SpecRow.tokens)
        (batch.numDrafts.map Nat.cast) (npCumsum 0 (batch.numTokens.map Nat.cast)) =
      .ok batch.metadata := by
  have hsampled := batch.sum_numSampled_le
  have hdrafts := batch.sum_numDrafts_le
  have hle : batch.numTokens.sum ≤ length := batch.tokens_le
  have hlt : batch.numTokens.sum < 2 ^ 31 := batch.tokens_lt
  have hne : batch.numSampled ≠ [] := by simpa [numSampled] using batch.rows_ne
  have hne' : batch.numDrafts ≠ [] := by simpa [numDrafts] using batch.rows_ne
  have hnext : ((cells batch.numDrafts).map fun c =>
        (((batch.numSampled.take c.1).sum + c.2 : ℕ) : ℤ)).map (fun n => int32 (n + 1)) =
      (cells batch.numDrafts).map fun c =>
        (((batch.numSampled.take c.1).sum + c.2 + 1 : ℕ) : ℤ) := by
    rw [List.map_map]
    apply List.map_congr_left
    intro c hc
    have hindex := sampled_index_lt hc 1 le_rfl
    rw [Function.comp_apply]
    exact int32_succ (by omega)
  have hbonus : ((List.range batch.numSampled.length).map fun i =>
        ((batch.numSampled.take (i + 1)).sum : ℤ)).map (fun n => int32 (n - 1)) =
      (List.range batch.numSampled.length).map fun i =>
        (((batch.numSampled.take (i + 1)).sum - 1 : ℕ) : ℤ) := by
    rw [List.map_map]
    refine List.map_congr_left fun i hi => ?_
    have hle := sum_take_le batch.numSampled (i + 1)
    have hpos : 0 < (batch.numSampled.take (i + 1)).sum := by
      have hi' : i < batch.rows.length := by simpa [numSampled] using hi
      rw [sum_take_succ (List.mem_range.mp hi), numSampled, List.getD_eq_getElem?_getD,
        List.getElem?_map, List.getElem?_eq_getElem hi']
      exact Nat.lt_add_left _ (Nat.succ_pos _)
    rw [Function.comp_apply, Nat.cast_sub hpos]
    exact int32_eq (by omega) (by omega)
  have hdraft : ((cells batch.numDrafts).map fun c : ℕ × ℕ =>
      (batch.rows.flatMap SpecRow.tokens).getD (batch.logitAt (c.1, c.2 + 1)) 0) =
      (cells batch.numDrafts).map batch.draftAt := by
    refine List.map_congr_left fun c hc => ?_
    obtain ⟨row, hrow, hlt⟩ := exists_row rfl hc
    have hget := List.getElem?_eq_getElem hlt
    rw [flatMap_logitAt (fun _ => rfl) hrow (row.tokens_get.trans hget),
      draftAt, hrow, Option.bind_some, hget]
    rfl
  have hinput : takeTokens (batch.rows.flatMap SpecRow.tokens)
      ((cells batch.numSampled).map fun c => (batch.logitAt c : ℤ)) = _ :=
    takeTokens_logits fun _ => rfl
  have hsampledLength : batch.numSampled.length = batch.numDrafts.length := by
    rw [numDrafts, numSampled, List.length_map, List.length_map]
  have hlogits := batch.logitsIndices
  have htargets := batch.targetLogitsIndices
  simp only [bind_eq_ok] at hlogits htargets
  obtain ⟨ends, hends, indices, hindices, hlogits⟩ := hlogits
  obtain ⟨targets, htargets, htargetIndices⟩ := htargets
  have hstarts := npZip_starts (hsampled.trans_lt hlt)
  have hdraftStarts := npZip_starts ((hdrafts.trans hsampled).trans_lt hlt)
  rw [npCumsum_int32 (hsampled.trans_lt hlt)] at hstarts
  rw [npCumsum_int32 ((hdrafts.trans hsampled).trans_lt hlt)] at hdraftStarts
  simp only [calcSpecDecodeMetadata, numSampledTokens, npCumsum_int32 (hsampled.trans_lt hlt),
    npCumsum_int32 ((hdrafts.trans hsampled).trans_lt hlt), pyGet_total hne, pyGet_total hne',
    hstarts, hdraftStarts, hends, hindices, htargets, ok_bind]
  rw [npRepeat_cells, ok_bind, npZip_arange (hsampled.trans hle) (hsampled.trans_lt hlt), ok_bind,
    hlogits, ok_bind, npRepeat_cells, ok_bind,
    npZip_arange ((hdrafts.trans hsampled).trans hle) ((hdrafts.trans hsampled).trans_lt hlt),
    ok_bind, htargetIndices, ok_bind, hinput, ok_bind, hnext, takeTokens_sampled _ 1 le_rfl,
    ok_bind, hdraft, hbonus]
  rfl

/-! ## Rejection sampling -/

theorem length_greedySampled (row : SpecRow) :
    (row.greedySampled target).length = row.tokens.length := by
  rw [SpecRow.greedySampled, List.length_map, List.length_range]

/-- The tokens that greedy sampling picks at the sampled positions. -/
theorem takeTokens_greedySampled :
    takeTokens (batch.rows.flatMap (SpecRow.greedySampled target))
        ((cells batch.numSampled).map fun c => (batch.logitAt c : ℤ)) =
      .ok ((cells batch.numSampled).map (batch.sampledAt target)) := by
  rw [takeTokens_logits length_greedySampled]
  refine congrArg Except.ok (List.map_congr_left fun c hc => ?_)
  obtain ⟨row, hrow, hlt⟩ := exists_row rfl hc
  have hget := row.greedySampled_get target (Nat.lt_succ_iff.mp hlt)
  rw [sampledAt, hrow, Option.map_some, Option.getD_some,
    ← flatMap_logitAt length_greedySampled hrow hget]

theorem takeTokens_bonus :
    takeTokens ((cells batch.numSampled).map (batch.sampledAt target))
        ((List.range batch.numSampled.length).map fun i =>
          (((batch.numSampled.take (i + 1)).sum - 1 : ℕ) : ℤ)) =
      .ok (batch.rows.map fun row => target (row.context ++ row.drafts)) := by
  have hrows : (List.range batch.numSampled.length).map (fun i =>
      batch.sampledAt target (i, batch.numSampled.getD i 0 - 1)) =
      batch.rows.map fun row => target (row.context ++ row.drafts) := by
    apply List.ext_getElem?
    intro i
    have hlength : batch.numSampled.length = batch.rows.length := List.length_map _
    rw [List.getElem?_map, List.getElem?_map]
    rcases Nat.lt_or_ge i batch.rows.length with hlt | hge
    · have hrow := List.getElem?_eq_getElem hlt
      rw [List.getElem?_range (hlength ▸ hlt), hrow, Option.map_some, Option.map_some, sampledAt,
        hrow, numSampled, List.getD_eq_getElem?_getD, List.getElem?_map, hrow]
      simp
    · rw [List.getElem?_eq_none (by rw [List.length_range, hlength]; exact hge),
        List.getElem?_eq_none hge]
      rfl
  have hindex : ∀ i ∈ List.range batch.numSampled.length,
      (cells batch.numSampled)[(batch.numSampled.take (i + 1)).sum - 1]? =
        some (i, batch.numSampled.getD i 0 - 1) := by
    intro i hi
    have hlt := List.mem_range.mp hi
    have hlt' : i < batch.rows.length := by rwa [numSampled, List.length_map] at hlt
    have hpos : 0 < batch.numSampled.getD i 0 := by
      rw [numSampled, List.getD_eq_getElem?_getD, List.getElem?_map, List.getElem?_eq_getElem hlt']
      exact Nat.succ_pos _
    have hcell : (i, batch.numSampled.getD i 0 - 1) ∈ cells batch.numSampled :=
      mem_cells.mpr ⟨batch.numSampled.getD i 0, by
        rw [List.getD_eq_getElem?_getD, List.getElem?_eq_getElem hlt]; rfl, by omega⟩
    rw [sum_take_succ hlt, Nat.add_sub_assoc hpos]
    exact getElem?_cells hcell
  rw [takeTokens, npTake_map _ _ _ fun i hi => ?_]
  · rw [← hrows]
    refine congrArg Except.ok (List.map_congr_left fun i hi => ?_)
    rw [List.getD_eq_getElem?_getD, List.getElem?_map, hindex i hi]
    rfl
  · rw [List.length_map]
    exact (List.getElem?_eq_some_iff.mp (hindex i hi)).1

/-- `max_spec_len` bounds the drafts of every request. -/
theorem maxSpecLen_eq (batch : SpecBatch length) :
    ∃ k : ℕ, batch.metadata.maxSpecLen = .ok (k : ℤ) ∧ k ≤ maxSpecLenLimit ∧
      ∀ row ∈ batch.rows, row.drafts.length ≤ k := by
  obtain ⟨first, rest, hrows⟩ := List.exists_cons_of_ne_nil batch.rows_ne
  have hlist : batch.metadata.numDraftTokens =
      (first.drafts.length : ℤ) :: rest.map fun row => (row.drafts.length : ℤ) := by
    rw [metadata, numDrafts, hrows, List.map_cons, List.map_cons, List.map_map]
    rfl
  obtain ⟨m, hm⟩ : ∃ m : ℤ, m = (rest.map fun row => (row.drafts.length : ℤ)).foldl max
    (first.drafts.length : ℤ) := ⟨_, rfl⟩
  have hbounds : ∀ {b : ℤ}, m ≤ b ↔ ∀ row ∈ batch.rows, (row.drafts.length : ℤ) ≤ b := by
    intro b
    rw [hm, List.foldl_max_le_iff, hrows]
    simp
  have hfirst : first ∈ batch.rows := hrows ▸ List.mem_cons_self
  have hpos : 0 ≤ m := (Int.natCast_nonneg _).trans (hbounds.mp le_rfl first hfirst)
  refine ⟨m.toNat, ?_, ?_, fun row hrow => ?_⟩
  · rw [SpecDecodeMetadata.maxSpecLen, hlist, Int.toNat_of_nonneg hpos, hm]
  · have hle := hbounds.mpr fun row hrow => Nat.cast_le.mpr (batch.drafts_le row hrow)
    exact Int.toNat_le.mpr hle
  · have hle := hbounds.mp le_rfl row hrow
    omega

/-- The program of a request writes what verifying its drafts yields. -/
theorem kernel_eq (htarget : ∀ context, target context < 2 ^ 31) {k i : ℕ} {row : SpecRow}
    {table : List ℤ} (hrow : batch.rows[i]? = some row)
    (hk : row.drafts.length ≤ k) (hlength : table.length = batch.rows.length * (k + 1)) :
    rejectionGreedySampleKernel batch.metadata.cuNumDraftTokens batch.metadata.draftTokenIds
        ((cells batch.numDrafts).map (batch.sampledAt target))
        (batch.rows.map fun row => target (row.context ++ row.drafts)) k table i =
      .ok (overwrite table (i * (k + 1))
        ((verifyDrafts target row.context row.drafts).map Nat.cast)) := by
  have hi : i < batch.rows.length := (List.getElem?_eq_some_iff.mp hrow).1
  have hnum : batch.numDrafts.length = batch.rows.length := List.length_map _
  have hcu : ∀ j < batch.rows.length,
      tlLoad batch.metadata.cuNumDraftTokens j = .ok ((batch.numDrafts.take (j + 1)).sum : ℤ) := by
    intro j hj
    refine tlLoad_eq ?_
    rw [metadata, List.getElem?_map, List.getElem?_range (hnum ▸ hj), Option.map_some]
  have hstart : draftStartIdx batch.metadata.cuNumDraftTokens i =
      .ok ((batch.numDrafts.take i).sum : ℤ) := by
    cases i with
    | zero => rfl
    | succ i => exact hcu i (Nat.lt_of_succ_lt hi)
  have hdrafts : batch.numDrafts.getD i 0 = row.drafts.length := by
    rw [numDrafts, List.getD_eq_getElem?_getD, List.getElem?_map, hrow]
    rfl
  have hcell : ∀ pos < row.drafts.length,
      (cells batch.numDrafts)[(batch.numDrafts.take i).sum + pos]? = some (i, pos) :=
    fun pos hpos => getElem?_cells (mem_cells_of_row hrow hpos)
  have hloads : Loads target row.context row.drafts ((cells batch.numDrafts).map batch.draftAt)
      ((cells batch.numDrafts).map (batch.sampledAt target))
      ((batch.numDrafts.take i).sum + 0) := by
    refine ⟨fun pos hpos => ?_, fun pos hpos => ?_⟩
    · rw [Nat.add_zero, List.getElem?_map, hcell pos hpos, Option.map_some, draftAt, hrow,
        Option.bind_some, List.getElem?_eq_getElem hpos]
      rfl
    · rw [Nat.add_zero, List.getElem?_map, hcell pos hpos, Option.map_some, sampledAt, hrow]
      rfl
  have hbonus : (batch.rows.map fun row => target (row.context ++ row.drafts))[i]? =
      some (target (row.context ++ row.drafts)) := by
    rw [List.getElem?_map, hrow]
    rfl
  have hfit : i * (k + 1) + 0 + row.drafts.length < table.length := by
    have hend := row_end_le hi hlength
    omega
  have hloop := rejectionGreedy_loop htarget hloads hbonus hfit
  have hcount : ((batch.numDrafts.take (i + 1)).sum : ℤ) - ((batch.numDrafts.take i).sum : ℤ) =
      ((0 + row.drafts.length : ℕ) : ℤ) := by
    rw [sum_take_succ (hnum.symm ▸ hi), hdrafts, Nat.cast_add, Nat.zero_add]
    exact add_sub_cancel_left _ _
  rw [rejectionGreedySampleKernel, hstart, ok_bind, hcu i hi, ok_bind]
  dsimp only
  rw [hcount, Int.toNat_natCast, Nat.zero_add, List.range_eq_range']
  rw [Nat.add_zero, Nat.zero_add, Nat.add_zero, Nat.cast_mul, Nat.cast_succ] at hloop
  exact hloop

theorem tableRow_replicate {height width i : ℕ} (hi : i < height) (token : ℤ) :
    tableRow width (List.replicate (height * width) token) i = List.replicate width token := by
  have hend : i * width + width ≤ height * width := by
    rw [← Nat.succ_mul]
    exact Nat.mul_le_mul_right width hi
  rw [tableRow, pySlice, List.take_replicate, List.drop_replicate, Nat.succ_mul]
  congr 1
  omega

/-- The table: in each row what verifying the drafts yields, then placeholders. -/
theorem rejectionSample_eq (htarget : ∀ context, target context < 2 ^ 31) {order : List ℕ}
    (horder : order.Perm (List.range batch.rows.length)) :
    ∃ (k : ℕ) (table : List ℤ), batch.metadata.maxSpecLen = .ok (k : ℤ) ∧
      rejectionSample batch.metadata ((cells batch.numDrafts).map (batch.sampledAt target))
        (batch.rows.map fun row => target (row.context ++ row.drafts)) order = .ok table ∧
      (∀ row ∈ batch.rows, row.drafts.length ≤ k) ∧
      tableRows batch.metadata.numDraftTokens.length (k + 1) table = batch.rows.map fun row =>
        (verifyDrafts target row.context row.drafts).map Nat.cast ++
          List.replicate (k + 1 - (verifyDrafts target row.context row.drafts).length)
            placeholderTokenId := by
  obtain ⟨k, hmax, hlimit, hk⟩ := batch.maxSpecLen_eq
  have hheight : batch.metadata.numDraftTokens.length = batch.rows.length := by
    rw [metadata, numDrafts, List.length_map, List.length_map]
  have hwidth : ∀ row ∈ batch.rows,
      (verifyDrafts target row.context row.drafts).length ≤ k + 1 := fun row hrow =>
    (verifyDrafts_length _ _ _).2.trans (Nat.succ_le_succ (hk row hrow))
  have hprogram : ∀ table : List ℤ, table.length = batch.rows.length * (k + 1) →
      ∀ i < batch.rows.length, rejectionGreedySampleKernel batch.metadata.cuNumDraftTokens
        batch.metadata.draftTokenIds ((cells batch.numDrafts).map (batch.sampledAt target))
        (batch.rows.map fun row => target (row.context ++ row.drafts)) k table i =
          .ok (overwrite table (i * (k + 1)) (((batch.rows[i]?).map fun row =>
            (verifyDrafts target row.context row.drafts).map Nat.cast).getD [])) := by
    intro table hlength i hi
    have hrow := List.getElem?_eq_getElem hi
    rw [kernel_eq htarget hrow (hk _ (List.getElem_mem hi)) hlength, hrow]
    rfl
  have hfit : ∀ i < batch.rows.length, (((batch.rows[i]?).map fun row =>
      (verifyDrafts target row.context row.drafts).map (Nat.cast : ℕ → ℤ)).getD []).length ≤
        k + 1 := by
    intro i hi
    rw [List.getElem?_eq_getElem hi, Option.map_some, Option.getD_some, List.length_map]
    exact hwidth _ (List.getElem_mem hi)
  obtain ⟨table, htable, hrows⟩ := foldlM_overwrite hprogram hfit
    (horder.nodup_iff.mpr List.nodup_range) (fun i hi => List.mem_range.mp (horder.mem_iff.mp hi))
    (List.length_replicate (a := placeholderTokenId))
  refine ⟨k, table, hmax, ?_, hk, ?_⟩
  · have hassert : pyAssert ((k : ℤ) ≤ maxSpecLenLimit) "" = .ok () :=
      pyAssert_eq_ok.mpr (Nat.cast_le.mpr hlimit)
    rw [rejectionSample, hmax, ok_bind, hassert, ok_bind, hheight]
    exact htable
  · rw [tableRows, hheight]
    apply List.ext_getElem?
    intro i
    rw [List.getElem?_map, List.getElem?_map]
    rcases Nat.lt_or_ge i batch.rows.length with hi | hi
    · have hrow := List.getElem?_eq_getElem hi
      have hfit := hwidth _ (List.getElem_mem hi)
      have hmem : i ∈ order := horder.mem_iff.mpr (List.mem_range.mpr hi)
      have hself := hrows i hi
      rw [if_pos hmem, tableRow_replicate hi, hrow, Option.map_some, Option.getD_some,
        overwrite_zero (by rwa [List.length_map, List.length_replicate]), List.drop_replicate,
        List.length_map] at hself
      rw [List.getElem?_range hi, hrow, Option.map_some, Option.map_some]
      exact congrArg some hself
    · rw [List.getElem?_eq_none (by rwa [List.length_range]), List.getElem?_eq_none hi]
      rfl

/-- Parsing a row drops the placeholders. -/
theorem filter_placeholders {vocabSize : ℕ} (hvocab : ∀ context, target context < vocabSize)
    (row : SpecRow) (n : ℕ) :
    ((verifyDrafts target row.context row.drafts).map Nat.cast ++
        List.replicate n placeholderTokenId).filter
      (fun token => decide (token ≠ placeholderTokenId ∧ token < vocabSize)) =
      (verifyDrafts target row.context row.drafts).map Nat.cast := by
  rw [List.filter_append, List.filter_replicate_of_neg (by simp), List.append_nil,
    List.filter_eq_self]
  intro token htoken
  obtain ⟨id, hid, rfl⟩ := List.mem_map.mp htoken
  obtain ⟨context, rfl⟩ := exists_of_mem_verifyDrafts hid
  have hlt := hvocab context
  have hne : ((target context : ℕ) : ℤ) ≠ placeholderTokenId := by
    rw [placeholderTokenId]
    omega
  exact decide_eq_true ⟨hne, by exact_mod_cast hlt⟩

end SpecBatch

/-- What a request may be given: nothing while its prefill is partial, and after it the tokens of
plain decoding, one more than the drafts that plain decoding agrees with. -/
structure SpecRow.Lossless (target : List TokenId → TokenId) (row : SpecRow)
    (tokens : List TokenId) : Prop where
  partialPrefill : row.partialPrefill = true → tokens = []
  decodes : tokens = greedyDecode target (fun _ => false) row.context tokens.length
  accepted : row.partialPrefill = false → tokens.length ≤ row.drafts.length + 1 ∧
    ∀ n ≤ row.drafts.length, n < tokens.length ↔
      row.drafts.take n = greedyDecode target (fun _ => false) row.context n

theorem SpecRow.lossless (target : List TokenId → TokenId) (row : SpecRow) :
    row.Lossless target
      (if row.partialPrefill then [] else verifyDrafts target row.context row.drafts) := by
  cases hrow : row.partialPrefill with
  | true => exact ⟨fun _ => rfl, rfl, fun hfull => absurd (hrow.symm.trans hfull) (by simp)⟩
  | false =>
      exact ⟨fun hpart => absurd (hrow.symm.trans hpart) (by simp),
        verifyDrafts_decodes target row.context row.drafts,
        fun _ => ⟨(verifyDrafts_length target row.context row.drafts).2,
          fun _ hn => lt_verifyDrafts_length_iff hn⟩⟩

/-- One draft of two is right, and the other request is still in its prefill. -/
def mixedBatch : SpecBatch 8 where
  rows := [
    { computed := [5, 6]
      verified := [7]
      drafts := [3, 8]
      numTokens := 3
      verified_ne := by simp },
    { computed := []
      verified := [1, 2]
      drafts := []
      numTokens := 4
      verified_ne := by simp }]
  rows_ne := by simp
  tokens_le := by decide
  tokens_lt := by decide
  drafts_le := by decide

/-- The token that is picked after a context, in the example. -/
def lengthTarget (context : List TokenId) : TokenId := context.length % 100

example : sampleSpecDecode ((List.range 8).map Nat.cast) 100 [7, 3, 8, 1, 2] [3, 4, 5, 1, 2] [2, 0]
    [3, 5] [false, true] [1, 0] = .ok [[3, 4], []] := by decide

end Spexis
