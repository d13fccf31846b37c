import Spexis.Library.Matching
import Spexis.Model.V1.NgramProposer

/-! # The drafts of the n-gram proposer

The failure table holds the borders of the pattern, the search stops at the first occurrence, and
the proposer tries the longest patterns first. -/

namespace Spexis

open Python Matching

/-! ## The failure table -/

variable {pattern context : List TokenId} {lps : List ℕ} {n k : ℕ}

/-- The entries of the table so far. -/
def Borders (pattern : List TokenId) (lps : List ℕ) (n : ℕ) : Prop :=
  lps.length = pattern.length ∧ ∀ m < n, ∃ b, lps[m]? = some b ∧ Longest pattern pattern.tail m b

theorem Borders.set {b : ℕ} (h : Borders pattern lps n) (hn : n < pattern.length)
    (hb : Longest pattern pattern.tail n b) : Borders pattern (lps.set n b) (n + 1) := by
  refine ⟨(List.length_set).trans h.1, fun m hm => ?_⟩
  rcases Nat.lt_succ_iff_lt_or_eq.mp hm with hlt | rfl
  · rw [List.getElem?_set_ne hlt.ne']
    exact h.2 m hlt
  · exact ⟨b, List.getElem?_set_self (h.1 ▸ hn), hb⟩

/-- The border of a prefix, where the code looks it up. -/
theorem Borders.get {j : ℕ} (h : Borders pattern lps n) (hpos : 0 < j) (hj : j ≤ n) :
    ∃ b, pyGet lps ((j : ℤ) - 1) = .ok b ∧ Longest pattern pattern.tail (j - 1) b := by
  obtain ⟨b, hget, hb⟩ := h.2 (j - 1) (by omega)
  refine ⟨b, ?_, hb⟩
  rw [← Nat.cast_pred hpos]
  exact pyGet_eq_ok_nat.mpr hget

/-- What holds before each iteration of `_kmp_lps_array`. -/
structure LpsState.Inv (pattern : List TokenId) (st : LpsState) : Prop where
  table : Borders pattern st.lps st.i
  pos : 0 < st.i
  le : st.i ≤ pattern.length
  scan : Scan pattern pattern.tail (st.i - 1) st.prevLps

/-- The iterations that are left. -/
def LpsState.left (pattern : List TokenId) (st : LpsState) : ℕ :=
  2 * (pattern.length - st.i) + st.prevLps

theorem prefix_le {text : List TokenId} {i j : ℕ} (h : EndsAt pattern text i j) : j ≤ i := by
  have hlength := h.suffix.length_le
  rw [List.length_take, List.length_take, min_eq_left h.le] at hlength
  exact hlength.trans (Nat.min_le_left _ _)

theorem LpsState.Inv.start (hpattern : pattern ≠ []) :
    LpsState.Inv pattern { lps := List.replicate pattern.length 0, prevLps := 0, i := 1 } where
  table := by
    have hpos := List.length_pos_iff.mpr hpattern
    refine ⟨List.length_replicate, fun m hm => ?_⟩
    obtain rfl := Nat.lt_one_iff.mp hm
    exact ⟨0, List.getElem?_replicate_of_lt hpos, longest_zero pattern pattern.tail⟩
  pos := Nat.one_pos
  le := List.length_pos_iff.mpr hpattern
  scan := (longest_zero pattern pattern.tail).scan

theorem lpsStep_spec {st : LpsState} (h : st.Inv pattern) (hi : st.i < pattern.length) :
    ∃ st', lpsStep pattern st = .ok st' ∧ st'.Inv pattern ∧ st'.left pattern < st.left pattern := by
  have hprev := prefix_le h.scan.ends
  have hpos := h.pos
  have htext : st.i - 1 < pattern.tail.length := by
    rw [List.length_tail]
    omega
  have hnext : pattern.tail[st.i - 1]? = pattern[st.i]? := by
    rw [List.getElem?_tail, Nat.sub_add_cancel hpos]
  have hstep : st.i - 1 + 1 = st.i := Nat.sub_add_cancel hpos
  have hlps : st.i < st.lps.length := h.table.1 ▸ hi
  unfold lpsStep
  rw [pyGet_nat pattern st.i hi, ok_bind, pyGet_nat pattern st.prevLps (by omega), ok_bind]
  split_ifs with htoken hfall
  · -- the border grows
    have hhit := h.scan.hit htext (by
      rw [hnext, List.getElem?_eq_getElem hi, List.getElem?_eq_getElem (by omega), htoken])
    rw [hstep] at hhit
    refine ⟨_, by rw [pySet_eq_ok_nat.mpr ⟨hlps, rfl⟩]; rfl, ⟨h.table.set hi hhit, ?_, ?_, ?_⟩, ?_⟩
    · exact Nat.succ_pos _
    · exact hi
    · exact hhit.scan
    · unfold LpsState.left
      dsimp only
      omega
  · obtain ⟨b, hget, hb⟩ := h.table.get (Nat.pos_of_ne_zero hfall) (by omega)
    have hne : pattern[st.prevLps]? ≠ pattern.tail[st.i - 1]? := by
      rw [hnext, List.getElem?_eq_getElem hi, List.getElem?_eq_getElem (by omega)]
      exact fun heq => htoken (Option.some.inj heq).symm
    obtain ⟨hscan, hlt⟩ := h.scan.fall (Nat.pos_of_ne_zero hfall) hne hb
    refine ⟨{ st with prevLps := b }, by rw [hget]; rfl, ⟨h.table, hpos, h.le, hscan⟩, ?_⟩
    unfold LpsState.left
    dsimp only
    omega
  · have hzero : st.prevLps = 0 := not_not.mp hfall
    have hne : pattern[0]? ≠ pattern.tail[st.i - 1]? := by
      rw [hnext, List.getElem?_eq_getElem hi, List.getElem?_eq_getElem (by omega)]
      intro heq
      refine htoken ((Option.some.inj heq).symm.trans ?_)
      simp only [hzero]
    have hmiss := (hzero ▸ h.scan).miss htext hne
    rw [hstep] at hmiss
    refine ⟨_, by rw [pySet_eq_ok_nat.mpr ⟨hlps, rfl⟩]; rfl, ⟨h.table.set hi hmiss, ?_, ?_, ?_⟩, ?_⟩
    · exact Nat.succ_pos _
    · exact hi
    · exact hzero ▸ hmiss.scan
    · unfold LpsState.left
      dsimp only
      omega

theorem lpsLoop_spec {fuel : ℕ} {st : LpsState} (h : st.Inv pattern)
    (hfuel : st.left pattern < fuel) :
    ∃ st', lpsLoop pattern fuel st = .ok st' ∧ Borders pattern st'.lps pattern.length := by
  induction fuel generalizing st with
  | zero => exact absurd hfuel (Nat.not_lt_zero _)
  | succ fuel ih =>
      unfold lpsLoop
      split_ifs with hi
      · obtain ⟨st', hstep, hinv, hleft⟩ := lpsStep_spec h hi
        rw [hstep, ok_bind]
        exact ih hinv (by omega)
      · have hend : st.i = pattern.length := le_antisymm h.le (Nat.not_lt.mp hi)
        exact ⟨st, rfl, hend ▸ h.table⟩

/-- `_kmp_lps_array` returns the borders. -/
theorem kmpLpsArray_spec (pattern : List TokenId) :
    ∃ lps, kmpLpsArray pattern = .ok lps ∧ Borders pattern lps pattern.length := by
  by_cases hpattern : pattern = []
  · subst hpattern
    exact ⟨[], rfl, rfl, fun m hm => absurd hm (Nat.not_lt_zero m)⟩
  · obtain ⟨st, hloop, hborders⟩ := lpsLoop_spec
      (LpsState.Inv.start hpattern) (Nat.lt_succ_of_le (Nat.mul_le_mul_left 2 (Nat.sub_le _ 1)))
    exact ⟨st.lps, by rw [kmpLpsArray, hloop, ok_bind]; rfl, hborders⟩

/-! ## The search -/

/-- The last `n` tokens also end at `e`, and not among themselves. -/
structure OccursAgain (context : List TokenId) (n e : ℕ) : Prop where
  le : e + n ≤ context.length
  suffix : context.drop (context.length - n) <:+ context.take e

/-- The tokens that `_find_subarray_kmp` has to return. -/
inductive FollowedBy (context : List TokenId) (n k : ℕ) : Option (List TokenId) → Prop where
  | none : (∀ e, ¬ OccursAgain context n e) → FollowedBy context n k none
  | first {e : ℕ} : OccursAgain context n e → (∀ e' < e, ¬ OccursAgain context n e') →
      FollowedBy context n k (some ((context.drop e).take k))

theorem endsAt_iff_occursAgain {e : ℕ} (hpattern : pattern = context.drop (context.length - n))
    (he : e + n ≤ context.length) : EndsAt pattern context e n ↔ OccursAgain context n e := by
  have hlength : pattern.length = n := by
    rw [hpattern, List.length_drop]
    omega
  have hfull : pattern.take n = pattern := List.take_of_length_le hlength.le
  constructor
  · intro h
    exact ⟨he, hpattern ▸ hfull ▸ h.suffix⟩
  · intro h
    exact ⟨hlength.ge, hfull.symm ▸ hpattern ▸ h.suffix⟩

theorem findLoop_spec {fuel i j : ℕ} (hpattern : pattern = context.drop (context.length - n))
    (hn : 0 < n) (hborders : Borders pattern lps pattern.length)
    (hscan : Scan pattern context i j) (hj : j < n) (hi : i + n ≤ context.length)
    (hnone : ∀ e ≤ i, ¬ OccursAgain context n e)
    (hfuel : 2 * (context.length - n - i) + j < fuel) :
    ∃ result, findLoop context pattern lps n k fuel i j = .ok result ∧
      FollowedBy context n k result := by
  have hlength : pattern.length = n := by
    rw [hpattern, List.length_drop]
    omega
  induction fuel generalizing i j with
  | zero => exact absurd hfuel (Nat.not_lt_zero _)
  | succ fuel ih =>
      unfold findLoop
      by_cases hmore : i < context.length - n
      swap
      · refine ⟨none, by rw [if_neg hmore]; rfl, .none fun e hoccurs => ?_⟩
        have hle := hoccurs.le
        exact hnone e (by omega) hoccurs
      have hcontext : i < context.length := by omega
      have hj' : j < pattern.length := hlength.symm ▸ hj
      rw [if_pos hmore, pyGet_nat context i hcontext, ok_bind, pyGet_nat pattern j hj', ok_bind]
      split_ifs with htoken hdone hfall
      · -- the whole pattern ends here, for the first time
        have hhit := hscan.hit hcontext (by
          rw [List.getElem?_eq_getElem hcontext, List.getElem?_eq_getElem hj', htoken])
        have hoccurs := (endsAt_iff_occursAgain hpattern (by omega)).mp (hdone ▸ hhit.ends)
        refine ⟨_, rfl, ?_⟩
        rw [pySlice, List.drop_take, Nat.add_sub_cancel_left]
        exact .first hoccurs fun e' he' => hnone e' (Nat.lt_succ_iff.mp he')
      · have hhit := hscan.hit hcontext (by
          rw [List.getElem?_eq_getElem hcontext, List.getElem?_eq_getElem hj', htoken])
        refine ih hhit.scan (by omega) (by omega) (fun e he hoccurs => ?_) (by omega)
        rcases Nat.lt_or_eq_of_le he with hlt | rfl
        · exact hnone e (Nat.lt_succ_iff.mp hlt) hoccurs
        · have hle := hhit.longest n ((endsAt_iff_occursAgain hpattern hoccurs.le).mpr hoccurs)
          omega
      · obtain ⟨b, hget, hb⟩ := hborders.get (Nat.pos_of_ne_zero hfall) hj'.le
        have hne : pattern[j]? ≠ context[i]? := by
          rw [List.getElem?_eq_getElem hcontext, List.getElem?_eq_getElem hj']
          exact fun heq => htoken (Option.some.inj heq).symm
        obtain ⟨hscan', hlt⟩ := hscan.fall (Nat.pos_of_ne_zero hfall) hne hb
        rw [hget, ok_bind]
        exact ih hscan' (by omega) hi hnone (by omega)
      · obtain rfl : j = 0 := not_not.mp hfall
        have hne : pattern[0]? ≠ context[i]? := by
          rw [List.getElem?_eq_getElem hcontext, List.getElem?_eq_getElem hj']
          exact fun heq => htoken (Option.some.inj heq).symm
        have hmiss := hscan.miss hcontext hne
        refine ih hmiss.scan hn (by omega) (fun e he hoccurs => ?_) (by omega)
        rcases Nat.lt_or_eq_of_le he with hlt | rfl
        · exact hnone e (Nat.lt_succ_iff.mp hlt) hoccurs
        · have hle := hmiss.longest n ((endsAt_iff_occursAgain hpattern hoccurs.le).mpr hoccurs)
          omega

/-- `_find_subarray_kmp` returns what follows the first earlier occurrence of the last tokens. -/
theorem findSubarrayKmp_spec (context : List TokenId) (hn : 0 < n) (k : ℕ) :
    ∃ result, findSubarrayKmp context n k = .ok result ∧ FollowedBy context n k result := by
  have hassert : pyAssert (0 < n) "" = .ok () := pyAssert_eq_ok.mpr hn
  have hstart : pySliceStart context.length (-(n : ℤ)) = context.length - n := by
    have hneg : -(n : ℤ) < 0 := by omega
    rw [pySliceStart, if_pos hneg]
    omega
  obtain ⟨lps, hlps, hborders⟩ := kmpLpsArray_spec (context.drop (context.length - n))
  rw [findSubarrayKmp, hassert, ok_bind, hstart]
  dsimp only
  rw [hlps, ok_bind]
  rcases Nat.lt_or_ge context.length n with hlong | hle
  · -- there is no room for an earlier occurrence
    refine ⟨none, ?_, .none fun e hoccurs => ?_⟩
    · rw [findLoop, if_neg (by omega)]
      rfl
    · have hle := hoccurs.le
      omega
  · refine findLoop_spec rfl hn hborders (longest_zero _ _).scan hn (by omega)
      (fun e he hoccurs => ?_) (by omega)
    obtain rfl := Nat.le_zero.mp he
    have hlength := hoccurs.suffix.length_le
    rw [List.take_zero, List.length_nil, List.length_drop] at hlength
    omega

namespace NgramProposer

variable {self : NgramProposer}

/-- The drafts for a context: what follows the first earlier occurrence of its last `n` tokens, for
the largest size `n` that there is one for. -/
inductive Proposes (self : NgramProposer) (context : List TokenId) :
    Option (List TokenId) → Prop where
  | none : (∀ n, self.minN ≤ n → n ≤ self.maxN → ∀ e, ¬ OccursAgain context n e) →
      Proposes self context none
  | first {n e : ℕ} : self.minN ≤ n → n ≤ self.maxN → OccursAgain context n e →
      (∀ n', n < n' → n' ≤ self.maxN → ∀ e', ¬ OccursAgain context n' e') →
      (∀ e' < e, ¬ OccursAgain context n e') →
      Proposes self context (some ((context.drop e).take self.k))

theorem mem_sizes : n ∈ self.sizes ↔ self.minN ≤ n ∧ n ≤ self.maxN := by
  rw [sizes, List.mem_reverse, List.mem_range'_1]
  omega

theorem sizes_pairwise (self : NgramProposer) : self.sizes.Pairwise (· > ·) := by
  rw [sizes, List.pairwise_reverse]
  exact List.pairwise_lt_range'

theorem propose_spec (hmin : 0 < self.minN) (context : List TokenId) :
    ∃ result, self.propose context = .ok result ∧ self.Proposes context result := by
  -- the sizes that are left, after larger ones without an occurrence
  suffices hloop : ∀ ns : List ℕ, ns.Pairwise (· > ·) →
      (∀ n ∈ ns, self.minN ≤ n ∧ n ≤ self.maxN) →
      (∀ n, self.minN ≤ n → n ≤ self.maxN → n ∉ ns → ∀ e, ¬ OccursAgain context n e) →
      ∃ result, proposeLoop context self.k ns = .ok result ∧ self.Proposes context result from
    hloop self.sizes self.sizes_pairwise (fun n hn => mem_sizes.mp hn) fun n hle hge hnot =>
      absurd (mem_sizes.mpr ⟨hle, hge⟩) hnot
  intro ns
  induction ns with
  | nil =>
      intro _ _ hnone
      exact ⟨none, rfl, .none fun n hle hge => hnone n hle hge List.not_mem_nil⟩
  | cons n ns ih =>
      intro hpairwise hrange hnone
      obtain ⟨hgt, hpairwise⟩ := List.pairwise_cons.mp hpairwise
      obtain ⟨hle, hge⟩ := hrange n List.mem_cons_self
      obtain ⟨result, hfind, hfollows⟩ := findSubarrayKmp_spec context (hmin.trans_le hle) self.k
      unfold proposeLoop
      rw [hfind, ok_bind]
      cases hfollows with
      | none hnot =>
          refine ih hpairwise (fun n' hn' => hrange n' (List.mem_cons_of_mem n hn')) ?_
          intro n' hle' hge' hnot'
          rcases eq_or_ne n' n with rfl | hne
          · exact hnot
          · exact hnone n' hle' hge' fun hmem => (List.mem_cons.mp hmem).elim hne hnot'
      | first hoccurs hfirst =>
          refine ⟨_, rfl, .first hle hge hoccurs (fun n' hlt hge' => ?_) hfirst⟩
          refine hnone n' (hle.trans hlt.le) hge' fun hmem => ?_
          rcases List.mem_cons.mp hmem with rfl | hmem
          · exact lt_irrefl _ hlt
          · exact lt_asymm hlt (hgt n' hmem)

/-- The example of the source. -/
example : propose { minN := 2, maxN := 3, k := 4 } [1, 2, 3, 4, 2, 3] = .ok (some [4, 2, 3]) := by
  decide

end NgramProposer

/-! ## The drafts of a batch -/

section Batch

variable {cfg : BatchConfig} {drafter : NgramProposer} {b b' : InputBatch} {i : ℕ}
  {sampledIds draft : List TokenId}

/-- The tokens of a row of the batch. -/
def InputBatch.knownTokens (b : InputBatch) (i : ℕ) : List TokenId :=
  (List.range (b.numTokensNoSpec i)).map (b.tokenIdsCpu i)

/-- The sampled tokens that are stored for a row. -/
def InputBatch.storedIds (b : InputBatch) (i : ℕ) (sampledIds : List TokenId) : List TokenId :=
  match b.reqIds[i]? with
  | none => []
  | some reqId => if isSpecDecodeSupported reqId b then sampledIds else []

/-- What becomes of a row, and the draft for it. -/
structure DraftSpec (drafter : NgramProposer) (b : InputBatch) (i : ℕ) (sampledIds : List TokenId)
    (row : ℕ → TokenId) (draft : List TokenId) : Prop where
  tokens : (List.range (b.numTokensNoSpec i + (b.storedIds i sampledIds).length)).map row =
    b.knownTokens i ++ b.storedIds i sampledIds
  beyond : ∀ j, b.numTokensNoSpec i + (b.storedIds i sampledIds).length ≤ j →
    row j = b.tokenIdsCpu i j
  skips : b.storedIds i sampledIds = [] → draft = []
  drafts : b.storedIds i sampledIds ≠ [] → ∃ result, draft = result.getD [] ∧
    drafter.Proposes (b.knownTokens i ++ b.storedIds i sampledIds) result

/-- A row that nothing is stored in keeps its tokens. -/
theorem DraftSpec.skip (h : b.storedIds i sampledIds = []) :
    DraftSpec drafter b i sampledIds (b.tokenIdsCpu i) [] where
  tokens := by rw [h, List.append_nil]; rfl
  beyond _ _ := rfl
  skips _ := rfl
  drafts hne := absurd h hne

/-- The other rows do not matter. -/
theorem DraftSpec.of_row {rows : ℕ → ℕ → TokenId} {row : ℕ → TokenId}
    (h : DraftSpec drafter { b with tokenIdsCpu := rows } i sampledIds row draft)
    (hrow : rows i = b.tokenIdsCpu i) : DraftSpec drafter b i sampledIds row draft := by
  have hknown : InputBatch.knownTokens { b with tokenIdsCpu := rows } i = b.knownTokens i :=
    congrArg (List.map · (List.range (b.numTokensNoSpec i))) hrow
  exact ⟨hknown ▸ h.tokens, fun j hj => (h.beyond j hj).trans (congrFun hrow j), h.skips,
    fun hne => hknown ▸ h.drafts hne⟩

/-- A row with values stored after its tokens. -/
theorem npAssign_append {width start : ℕ} (row : ℕ → TokenId) {values : List TokenId}
    (hfit : start + values.length ≤ width) :
    ∃ row', npAssign width row start (start + values.length) values = .ok row' ∧
      (List.range (start + values.length)).map row' = (List.range start).map row ++ values ∧
      ∀ j, start + values.length ≤ j → row' j = row j := by
  refine ⟨fun j => if start ≤ j ∧ j < start + values.length then values.getD (j - start) (row j)
    else row j, ?_, ?_, fun j hj => if_neg fun hin => absurd hin.2 (Nat.not_lt.mpr hj)⟩
  · unfold npAssign
    rw [min_eq_left (by omega), min_eq_left hfit, if_pos (Nat.add_sub_cancel_left _ _).symm]
  · rw [List.range_add, List.map_append, List.map_map]
    congr 1
    · refine List.map_congr_left fun j hj => if_neg fun hin => ?_
      exact absurd hin.1 (Nat.not_le.mpr (List.mem_range.mp hj))
    · apply List.ext_getElem
      · rw [List.length_map, List.length_range]
      · intro m _ hm
        rw [List.getElem_map, List.getElem_range, Function.comp_apply,
          if_pos ⟨Nat.le_add_right _ _, Nat.add_lt_add_left hm _⟩, Nat.add_sub_cancel_left,
          List.getD_eq_getElem?_getD, List.getElem?_eq_getElem hm, Option.getD_some]

theorem generateDraft_spec (cfg : BatchConfig) (hmin : 0 < drafter.minN) (hi : i < b.reqIds.length)
    (hfit : b.numTokensNoSpec i + (b.storedIds i sampledIds).length ≤ cfg.maxModelLen) :
    ∃ row draft, generateDraft cfg drafter b sampledIds i =
        .ok ({ b with tokenIdsCpu := Function.update b.tokenIdsCpu i row }, draft) ∧
      DraftSpec drafter b i sampledIds row draft := by
  have hstored : b.storedIds i sampledIds =
      if isSpecDecodeSupported b.reqIds[i] b then sampledIds else [] := by
    rw [InputBatch.storedIds, List.getElem?_eq_getElem hi]
  unfold generateDraft
  by_cases hskip : b.storedIds i sampledIds = []
  · refine ⟨b.tokenIdsCpu i, [], ?_, .skip hskip⟩
    rw [Function.update_eq_self]
    dsimp only
    split_ifs with hempty
    · rfl
    · rw [pyGet_nat b.reqIds i hi, ok_bind, if_pos]
      · rfl
      · by_contra hsupported
        rw [hstored, if_pos (by simpa using hsupported)] at hskip
        exact hempty (by rw [hskip, List.length_nil])
  · have hsupported : isSpecDecodeSupported b.reqIds[i] b = true := by
      by_contra hnot
      exact hskip (by rw [hstored, if_neg hnot])
    rw [if_pos hsupported] at hstored
    rw [hstored] at hfit hskip
    obtain ⟨row, hassign, htokens, hbeyond⟩ := npAssign_append (b.tokenIdsCpu i) hfit
    obtain ⟨result, hpropose, hproposes⟩ :=
      NgramProposer.propose_spec hmin (b.knownTokens i ++ sampledIds)
    refine ⟨row, result.getD [], ?_, ⟨by rw [hstored]; exact htokens, by rwa [hstored],
      fun hnil => absurd (hstored.symm.trans hnil) hskip, fun _ => ⟨result, rfl, by rwa [hstored]⟩⟩⟩
    dsimp only
    rw [if_neg (fun hzero => hskip (List.length_eq_zero_iff.mp hzero)), pyGet_nat b.reqIds i hi,
      ok_bind, if_neg (by rw [hsupported]; exact Bool.noConfusion), hassign, ok_bind,
      min_eq_left hfit, htokens]
    change (drafter.propose (b.knownTokens i ++ sampledIds) >>= _) = _
    rw [hpropose, ok_bind]
    rfl

/-- The rows are drafted for one by one, and none of them is read again. -/
theorem generateDrafts_spec (hmin : 0 < drafter.minN) {start : ℕ} {sampled : List (List TokenId)}
    (hlength : start + sampled.length ≤ b.reqIds.length)
    (hfit : ∀ i sampledIds, sampled[i]? = some sampledIds → b.numTokensNoSpec (start + i) +
      (b.storedIds (start + i) sampledIds).length ≤ cfg.maxModelLen) :
    ∃ rows drafts, generateDrafts cfg drafter b start sampled =
        .ok ({ b with tokenIdsCpu := rows }, drafts) ∧ drafts.length = sampled.length ∧
      (∀ i, i < start ∨ start + sampled.length ≤ i → rows i = b.tokenIdsCpu i) ∧
      ∀ i sampledIds draft, sampled[i]? = some sampledIds → drafts[i]? = some draft →
        DraftSpec drafter b (start + i) sampledIds (rows (start + i)) draft := by
  induction sampled generalizing b start with
  | nil => exact ⟨b.tokenIdsCpu, [], rfl, rfl, fun _ _ => rfl, fun _ _ _ h => by cases h⟩
  | cons sampledIds sampled ih =>
      rw [List.length_cons] at hlength
      obtain ⟨row, draft, hone, hspec⟩ := generateDraft_spec cfg hmin
        (show start < b.reqIds.length by omega) (hfit 0 sampledIds rfl)
      have hroom : start + 1 + sampled.length ≤ b.reqIds.length := by omega
      obtain ⟨rows, drafts, hrest, hdrafts, hframe, hspecs⟩ := ih
        (b := { b with tokenIdsCpu := Function.update b.tokenIdsCpu start row }) hroom
        fun i ids hi => by
          have hnext := hfit (i + 1) ids hi
          rwa [← Nat.add_assoc, Nat.add_right_comm] at hnext
      refine ⟨rows, draft :: drafts, ?_, congrArg (· + 1) hdrafts, fun i hi => ?_, ?_⟩
      · unfold generateDrafts
        rw [hone, ok_bind]
        dsimp only
        rw [hrest]
        rfl
      · rw [List.length_cons] at hi
        have hne : i ≠ start := by omega
        rw [hframe i (by omega)]
        exact Function.update_of_ne hne row b.tokenIdsCpu
      · intro i ids out hids hout
        cases i with
        | zero =>
            obtain rfl := Option.some.inj hids
            obtain rfl := Option.some.inj hout
            have hrow : rows start = row := by
              rw [hframe start (.inl (Nat.lt_succ_self start))]
              exact Function.update_self start row b.tokenIdsCpu
            rw [Nat.add_zero, hrow]
            exact hspec
        | succ i =>
            have hne : start + (i + 1) ≠ start := by omega
            have hother := hspecs i ids out hids hout
            rw [Nat.add_assoc, Nat.add_comm 1 i] at hother
            exact hother.of_row (Function.update_of_ne hne row b.tokenIdsCpu)

/-- Every row has its sampled tokens after the known ones, and is drafted for from them. -/
theorem generateDraftTokenIds_spec (hmin : 0 < drafter.minN) {sampled : List (List TokenId)}
    (hlength : sampled.length ≤ b.reqIds.length)
    (hfit : ∀ i sampledIds, sampled[i]? = some sampledIds →
      b.numTokensNoSpec i + (b.storedIds i sampledIds).length ≤ cfg.maxModelLen) :
    ∃ rows drafts, generateDraftTokenIds cfg drafter b sampled =
        .ok ({ b with tokenIdsCpu := rows }, drafts) ∧ drafts.length = sampled.length ∧
      (∀ i, sampled.length ≤ i → rows i = b.tokenIdsCpu i) ∧
      ∀ i sampledIds draft, sampled[i]? = some sampledIds → drafts[i]? = some draft →
        DraftSpec drafter b i sampledIds (rows i) draft := by
  have hlength' : 0 + sampled.length ≤ b.reqIds.length := by rwa [Nat.zero_add]
  obtain ⟨rows, drafts, hrun, hdrafts, hframe, hspecs⟩ :=
    generateDrafts_spec hmin hlength' fun i ids hi => by
      rw [Nat.zero_add]
      exact hfit i ids hi
  refine ⟨rows, drafts, hrun, hdrafts, fun i hi => hframe i (.inr ?_), ?_⟩
  · rwa [Nat.zero_add]
  · intro i ids draft hids hdraft
    have hspec := hspecs i ids draft hids hdraft
    rwa [Nat.zero_add] at hspec

/-- Two requests, of which the second one has no new token. -/
def twoRequests : InputBatch :=
  { InputBatch.init with
    reqIds := [some 7, some 8]
    tokenIdsCpu := fun _ j => [1, 2, 3, 4, 2].getD j 0
    numTokensNoSpec := fun i => if i = 0 then 5 else 4 }

def twoRequestsConfig : BatchConfig where
  maxNumReqs := 2
  maxModelLen := 16
  maxNumBlocksPerReq := 1
  vocabSize := 100
  float32 := id

theorem generateDraftTokenIds_spec_twoRequests : ∃ rows drafts,
    generateDraftTokenIds twoRequestsConfig { minN := 2, maxN := 3, k := 4 } twoRequests [[3], []] =
        .ok ({ twoRequests with tokenIdsCpu := rows }, drafts) ∧ drafts.length = 2 ∧
      (∀ i, 2 ≤ i → rows i = twoRequests.tokenIdsCpu i) ∧
      ∀ i sampledIds draft, [[3], []][i]? = some sampledIds → drafts[i]? = some draft →
        DraftSpec { minN := 2, maxN := 3, k := 4 } twoRequests i sampledIds (rows i) draft :=
  generateDraftTokenIds_spec (by decide) (by decide) fun i sampledIds hi => by
    rcases i with _ | _ | i
    · obtain rfl := Option.some.inj hi
      decide
    · obtain rfl := Option.some.inj hi
      decide
    · exact absurd hi (by simp)

end Batch

end Spexis
