import Spexis.Library.Transition
import Spexis.Model.Worker.ModelRunner
import Spexis.Verification.Worker.BatchIndex

/-! # Following the scheduler outputs

What holds of the row of every request after each `_update_states`. -/

namespace Spexis

open Python

namespace InputBatch

/-- What is asked of the rows: of the row of a request, of a row without one, of a row that has just
been emptied, and of a row that a request is appended to. -/
structure RowRule where
  holds : CachedRequestState → Row → Prop
  vacant : Row → Prop
  hole : Row → Prop
  appended : CachedRequestState → Row → Prop

/-- Adding, removing and moving requests respects the rule. -/
structure RowRule.Sound (cfg : BatchConfig) (rule : RowRule) : Prop where
  init : ∀ i, rule.vacant (InputBatch.init.row i)
  clear : ∀ request row, rule.holds request row → rule.vacant row.clear ∧ rule.hole row.clear
  fill : ∀ request row, rule.vacant row → rule.hole row → rule.holds request (row.add cfg request)
  append : ∀ request row, rule.vacant row → rule.appended request row →
    rule.holds request (row.add cfg request)
  move : ∀ request source row, rule.holds request source → rule.vacant row →
    rule.holds request (source.receive row) ∧ rule.vacant source.vacate
  cut : ∀ row, rule.vacant row → rule.vacant { row with outputTokenIds := none }

/-- Rows may hold anything. -/
def anyRow : RowRule where
  holds _ _ := True
  vacant _ := True
  hole _ := True
  appended _ _ := True

theorem anyRow_sound (cfg : BatchConfig) : anyRow.Sound cfg where
  init _ := trivial
  clear _ _ _ := ⟨trivial, trivial⟩
  fill _ _ _ _ := trivial
  append _ _ _ _ := trivial
  move _ _ _ _ _ := ⟨trivial, trivial⟩
  cut _ _ := trivial

variable {cfg : BatchConfig} {rule : RowRule} {b b' : InputBatch} {i j src dst : ℕ}
  {requests requests' : ReqId → Option CachedRequestState} {reqId q : ReqId}
  {request : CachedRequestState}

/-- The adapter of a request that has a row. -/
def loraOf (b : InputBatch) (q : ReqId) : ℕ :=
  ((dictGet? b.reqIdToIndex q).map b.requestLoraMapping).getD 0

/-- The batch agrees with the cached requests, and its rows with the rule. -/
structure Kept (cfg : BatchConfig) (rule : RowRule)
    (requests : ReqId → Option CachedRequestState) (b : InputBatch) : Prop where
  indexed : b.Indexed
  rows : ∀ i q, b.slot i = some q → ∃ request, requests q = some request ∧ request.reqId = q ∧
    rule.holds request (b.row i) ∧ b.entry q = Entry.of cfg request ∧
    b.requestLoraMapping i = loraId request
  vacant : ∀ i, b.slot i = none → rule.vacant (b.row i)
  absent : ∀ q, (∀ i, b.slot i ≠ some q) → b.entry q = Entry.blank
  adapters : b.Adapters b.loraOf

theorem init_kept (hrule : rule.Sound cfg) : Kept cfg rule requests init where
  indexed := init_indexed
  rows i q hq := by
    simp [init, slot] at hq
  vacant i _ := hrule.init i
  absent q _ := by
    simp [init, entry, Entry.blank]
  adapters := init_adapters

/-- Requests without a row do not matter. -/
theorem Kept.congr_requests (h : Kept cfg rule requests b)
    (hsame : ∀ i q, b.slot i = some q → requests' q = requests q) :
    Kept cfg rule requests' b where
  indexed := h.indexed
  rows i q hq := by
    rw [hsame i q hq]
    exact h.rows i q hq
  vacant := h.vacant
  absent := h.absent
  adapters := h.adapters

/-- The rows emptied in this update. -/
def Clean (rule : RowRule) (b : InputBatch) : Prop :=
  ∀ i < b.reqIds.length, b.slot i = none → rule.hole (b.row i)

theorem RemoveSpec.slot (hspec : RemoveSpec reqId i b b') (j : ℕ) :
    b'.slot j = if j = i then none else b.slot j := by
  have hrow := congrArg Row.reqId (hspec.row j)
  split_ifs at hrow ⊢ <;> exact hrow

theorem RemoveSpec.loraId_row (hspec : RemoveSpec reqId i b b') (j : ℕ) :
    b'.requestLoraMapping j = if j = i then 0 else b.requestLoraMapping j := by
  have hrow := congrArg Row.loraId (hspec.row j)
  split_ifs at hrow ⊢ <;> exact hrow

theorem Indexed.loraOf_eq (h : b.Indexed) (hq : b.slot i = some q) :
    b.loraOf q = b.requestLoraMapping i := by
  rw [loraOf, h.get_eq_some.mpr hq, Option.map_some, Option.getD_some]

theorem Indexed.loraOf_absent (h : b.Indexed) (hq : ∀ i, b.slot i ≠ some q) : b.loraOf q = 0 := by
  rw [loraOf, h.get_eq_none.mpr hq, Option.map_none, Option.getD_none]

/-- The adapters of the requests in the batch, by their rows. -/
theorem Indexed.loraOf_eq_of (h : b.Indexed) {lora : ReqId → ℕ}
    (hrows : ∀ i q, b.slot i = some q → lora q = b.requestLoraMapping i)
    (habsent : ∀ q, (∀ i, b.slot i ≠ some q) → lora q = 0) : b.loraOf = lora := by
  funext q
  by_cases hq : ∃ i, b.slot i = some q
  · obtain ⟨i, hi⟩ := hq
    rw [h.loraOf_eq hi, hrows i q hi]
  · rw [not_exists] at hq
    rw [h.loraOf_absent hq, habsent q hq]

theorem Kept.remove (hrule : rule.Sound cfg) (h : Kept cfg rule requests b)
    (hclean : Clean rule b) (hslot : b.slot i = some reqId) (hspec : RemoveSpec reqId i b b') :
    Kept cfg rule requests b' ∧ Clean rule b' := by
  have hindexed := h.indexed.remove hslot hspec
  have hcleared : rule.vacant (b'.row i) ∧ rule.hole (b'.row i) := by
    obtain ⟨request, -, -, hholds, -⟩ := h.rows i reqId hslot
    rw [hspec.row, if_pos rfl]
    exact hrule.clear request _ hholds
  refine ⟨⟨hindexed, fun j q hq => ?_, fun j hj => ?_, fun q hq => ?_, ?_⟩, fun j hlt hj => ?_⟩
  · rw [hspec.slot] at hq
    split_ifs at hq with hji
    have hne : q ≠ reqId := by
      rintro rfl
      exact hji (h.indexed.slot_inj hq hslot)
    rw [hspec.row, if_neg hji, hspec.entry, if_neg hne, hspec.loraId_row, if_neg hji]
    exact h.rows j q hq
  · by_cases hji : j = i
    · rw [hji]
      exact hcleared.1
    · rw [hspec.slot, if_neg hji] at hj
      rw [hspec.row, if_neg hji]
      exact h.vacant j hj
  · rw [hspec.entry]
    split_ifs with hreq
    · rfl
    · refine h.absent q fun j hj => ?_
      have hji : j ≠ i := by
        rintro rfl
        exact hreq (Option.some.inj (hj.symm.trans hslot))
      exact hq j (by rw [hspec.slot, if_neg hji, hj])
  · obtain ⟨b₁, hlora, hids, hloras⟩ := hspec.loras
    have hremoved := (h.adapters.remove (h.indexed.loraOf_eq hslot) hlora).congr hids hloras
    have hsame : b'.loraOf = Function.update b.loraOf reqId 0 := by
      refine hindexed.loraOf_eq_of (fun j q hq => ?_) fun q hq => ?_
      · rw [hspec.slot] at hq
        split_ifs at hq with hji
        have hne : q ≠ reqId := by
          rintro rfl
          exact hji (h.indexed.slot_inj hq hslot)
        rw [Function.update_of_ne hne, hspec.loraId_row, if_neg hji, h.indexed.loraOf_eq hq]
      · rw [Function.update_apply]
        split_ifs with hreq
        · rfl
        · refine h.indexed.loraOf_absent fun j hj => ?_
          have hji : j ≠ i := by
            rintro rfl
            exact hreq (Option.some.inj (hj.symm.trans hslot))
          exact hq j (by rw [hspec.slot, if_neg hji, hj])
    rwa [hsame]
  · by_cases hji : j = i
    · rw [hji]
      exact hcleared.2
    · rw [hspec.slot, if_neg hji] at hj
      rw [hspec.row, if_neg hji]
      exact hclean j (by rw [← hspec.length]; exact hlt) hj

theorem Kept.add {reqIndex : Option ℕ} {outputTokenIds : List TokenId}
    (h : Kept cfg rule requests b) (hclean : Clean rule b) (hrequest : requests reqId = some request)
    (hreqId : request.reqId = reqId) (habsent : ∀ i, b.slot i ≠ some reqId)
    (hfree : b.slot (reqIndex.getD b.numReqs) = none)
    (hholds : rule.holds request ((b.row (reqIndex.getD b.numReqs)).add cfg request))
    (hok : b.addRequest cfg request outputTokenIds reqIndex = .ok b') :
    Kept cfg rule requests b' ∧ Clean rule b' := by
  subst hreqId
  have hframe := addRequest_frame h.indexed.refs hok
  have hrow := addRequest_row h.indexed.refs hok
  have hentry := addRequest_entry h.indexed.refs hok
  generalize reqIndex.getD b.numReqs = i at *
  have hslot : ∀ j, b'.slot j = if j = i then some request.reqId else b.slot j := by
    intro j
    have hj := congrArg Row.reqId (hrow j)
    split_ifs at hj ⊢ <;> exact hj
  have hlora : ∀ j, b'.requestLoraMapping j =
      if j = i then loraId request else b.requestLoraMapping j := by
    intro j
    have hj := congrArg Row.loraId (hrow j)
    split_ifs at hj ⊢ <;> exact hj
  have hindexed := h.indexed.add habsent hfree hframe hslot
  refine ⟨⟨hindexed, fun j q hq => ?_, fun j hj => ?_, fun q hq => ?_, ?_⟩, fun j hlt hj => ?_⟩
  · rw [hslot] at hq
    rw [hrow, hentry, hlora]
    by_cases hji : j = i
    · rw [if_pos hji] at hq
      obtain rfl := Option.some.inj hq
      rw [if_pos hji, if_pos rfl, if_pos hji, hji, h.absent _ habsent, Entry.blank_add]
      exact ⟨request, hrequest, rfl, hholds, rfl, rfl⟩
    · rw [if_neg hji] at hq
      have hne : q ≠ request.reqId := by
        rintro rfl
        exact habsent j hq
      rw [if_neg hji, if_neg hne, if_neg hji]
      exact h.rows j q hq
  · rw [hslot] at hj
    split_ifs at hj with hji
    rw [hrow, if_neg hji]
    exact h.vacant j hj
  · have hne : q ≠ request.reqId := by
      rintro rfl
      exact hq i (by rw [hslot, if_pos rfl])
    rw [hentry, if_neg hne]
    refine h.absent q fun j hj => hq j ?_
    have hji : j ≠ i := by
      rintro rfl
      exact absurd (hj.symm.trans hfree) nofun
    rw [hslot, if_neg hji, hj]
  · have hadded := (h.adapters.add (i := i) (h.indexed.loraOf_absent habsent)).congr
      hframe.loraIdToRequestIds hframe.loraIdToLoraRequest
    have hsame : b'.loraOf = Function.update b.loraOf request.reqId (loraId request) := by
      refine hindexed.loraOf_eq_of (fun j q hq => ?_) fun q hq => ?_
      · rw [hslot] at hq
        rw [hlora]
        by_cases hji : j = i
        · rw [if_pos hji] at hq
          obtain rfl := Option.some.inj hq
          rw [Function.update_self, if_pos hji]
        · rw [if_neg hji] at hq
          have hne : q ≠ request.reqId := by
            rintro rfl
            exact habsent j hq
          rw [Function.update_of_ne hne, if_neg hji, h.indexed.loraOf_eq hq]
      · have hne : q ≠ request.reqId := by
          rintro rfl
          exact hq i (by rw [hslot, if_pos rfl])
        rw [Function.update_of_ne hne]
        refine h.indexed.loraOf_absent fun j hj => hq j ?_
        have hji : j ≠ i := by
          rintro rfl
          exact absurd (hj.symm.trans hfree) nofun
        rw [hslot, if_neg hji, hj]
    rwa [hsame]
  · rw [hslot] at hj
    split_ifs at hj with hji
    rw [hrow, if_neg hji]
    refine hclean j ?_ hj
    have hle := hframe.le
    rw [hframe.length] at hlt
    omega

theorem Kept.move (hrule : rule.Sound cfg) (h : Kept cfg rule requests b) (hlt : dst < src)
    (hfree : b.slot dst = none) (hspec : MoveSpec reqId src dst b b') :
    Kept cfg rule requests b' := by
  have hindexed := h.indexed.move hfree hspec
  have hlora : ∀ j, j ≠ src → b'.requestLoraMapping j =
      b.requestLoraMapping (if j = dst then src else j) := by
    intro j hjs
    have hj := congrArg Row.loraId (hspec.row j)
    rw [if_neg hjs] at hj
    split_ifs at hj ⊢ <;> exact hj
  obtain ⟨mover, hmover, hmoverId, hholds, hentry, hmapping⟩ := h.rows src reqId hspec.slot_src
  have hmove := hrule.move mover (b.row src) (b.row dst) hholds (h.vacant dst hfree)
  have hrows : ∀ j q, b'.slot j = some q → j ≠ src ∧
      b.slot (if j = dst then src else j) = some q := by
    intro j q hq
    rw [hspec.slot] at hq
    split_ifs at hq ⊢ with hdst
    · exact ⟨by omega, hq⟩
    · exact ⟨by assumption, hq⟩
  refine ⟨hindexed, fun j q hq => ?_, fun j hj => ?_, fun q hq => ?_, ?_⟩
  · obtain ⟨hjs, hold⟩ := hrows j q hq
    rw [hspec.entry, hlora j hjs, hspec.row, if_neg hjs]
    split_ifs at hold ⊢ with hdst
    · obtain rfl := Option.some.inj (hspec.slot_src.symm.trans hold)
      exact ⟨mover, hmover, hmoverId, hmove.1, hentry, hmapping⟩
    · exact h.rows j q hold
  · rw [hspec.slot] at hj
    rw [hspec.row]
    split_ifs at hj ⊢ with hdst hsrc
    · exact absurd (hspec.slot_src.symm.trans hj) nofun
    · rw [hsrc]
      exact hmove.2
    · exact h.vacant j hj
  · rw [hspec.entry]
    refine h.absent q fun j hj => ?_
    by_cases hsrc : j = src
    · refine hq dst ?_
      rw [hspec.slot, if_pos rfl, ← hsrc, hj]
    · have hdst : j ≠ dst := by
        rintro rfl
        exact absurd (hj.symm.trans hfree) nofun
      exact hq j (by rw [hspec.slot, if_neg hdst, if_neg hsrc, hj])
  · have hsame : b'.loraOf = b.loraOf := by
      refine hindexed.loraOf_eq_of (fun j q hq => ?_) fun q hq => ?_
      · obtain ⟨hjs, hold⟩ := hrows j q hq
        rw [hlora j hjs, h.indexed.loraOf_eq hold]
      · refine h.indexed.loraOf_absent fun j hj => ?_
        by_cases hsrc : j = src
        · refine hq dst ?_
          rw [hspec.slot, if_pos rfl, ← hsrc, hj]
        · have hdst : j ≠ dst := by
            rintro rfl
            exact absurd (hj.symm.trans hfree) nofun
          exact hq j (by rw [hspec.slot, if_neg hdst, if_neg hsrc, hj])
    rw [hsame]
    exact h.adapters.congr hspec.loraIdToRequestIds hspec.loraIdToLoraRequest

theorem row_cut {n : ℕ} (hrows : ∀ i, (b.slot i).isSome ↔ i < n) (i : ℕ) : (b.cut n).row i =
    if i < n then b.row i else { b.row i with outputTokenIds := none } := by
  have hslot := slot_cut hrows i
  have href : ((b.cut n).reqOutputTokenIds[i]?).join =
      if i < n then (b.reqOutputTokenIds[i]?).join else none := by
    rw [InputBatch.cut, List.getElem?_take]
    split_ifs <;> rfl
  simp only [row, hslot, href]
  split_ifs <;> rfl

theorem Kept.cut {n : ℕ} (hrule : rule.Sound cfg) (h : Kept cfg rule requests b)
    (hrows : ∀ i, (b.slot i).isSome ↔ i < n) : Kept cfg rule requests (b.cut n) where
  indexed := h.indexed.cut hrows
  rows i q hq := by
    rw [slot_cut hrows] at hq
    have hi : i < n := (hrows i).mp (by rw [hq]; rfl)
    rw [row_cut hrows, if_pos hi]
    exact h.rows i q hq
  vacant i hi := by
    rw [slot_cut hrows] at hi
    have hi' : ¬ i < n := fun hlt => by
      have hsome := (hrows i).mpr hlt
      rw [hi] at hsome
      cases hsome
    rw [row_cut hrows, if_neg hi']
    exact hrule.cut _ (h.vacant i hi)
  absent q hq := h.absent q fun i hi => hq i (by rw [slot_cut hrows, hi])
  adapters := h.adapters.congr rfl rfl

/-! ## Removals -/

/-- What removing some requests does to the rows. -/
structure RemovalsSpec (reqIds : List ReqId) (reqIndices : List ℕ) (b b' : InputBatch) : Prop where
  slot : ∀ i, b'.slot i = if ∃ q ∈ reqIds, b.slot i = some q then none else b.slot i
  indices : ∀ i, i ∈ reqIndices ↔ ∃ q ∈ reqIds, b.slot i = some q
  nodup : reqIndices.Nodup
  length : b'.reqIds.length = b.reqIds.length
  beyond : ∀ i, b.reqIds.length ≤ i → b'.row i = b.row i

theorem removeRequests_spec (hrule : rule.Sound cfg) {reqIds : List ReqId} {reqIndices : List ℕ}
    (h : Kept cfg rule requests b) (hclean : Clean rule b)
    (hok : ModelRunner.removeRequests reqIds b = .ok (reqIndices, b')) :
    Kept cfg rule requests b' ∧ Clean rule b' ∧ RemovalsSpec reqIds reqIndices b b' := by
  induction reqIds generalizing b reqIndices with
  | nil =>
      obtain ⟨rfl, rfl⟩ := Prod.mk.inj (Except.ok.inj hok)
      exact ⟨h, hclean, by simp, by simp, List.nodup_nil, rfl, fun _ _ => rfl⟩
  | cons q reqIds ih =>
      simp only [ModelRunner.removeRequests, bind_eq_ok, pure_eq_ok, Prod.exists,
        Prod.mk.injEq] at hok
      obtain ⟨reqIndex, b₁, hremove, indices, b₂, hrest, rfl, rfl⟩ := hok
      obtain ⟨hget, hspec⟩ := removeRequest_eq_ok hremove
      cases reqIndex with
      | none =>
          obtain rfl : b₁ = b := hspec
          obtain ⟨hkept, hclean', hspec'⟩ := ih h hclean hrest
          have habsent := h.indexed.get_eq_none.mp hget.symm
          have hiff : ∀ i, (∃ p ∈ q :: reqIds, b₁.slot i = some p) ↔
              ∃ p ∈ reqIds, b₁.slot i = some p := by
            intro i
            simp [habsent i]
          refine ⟨hkept, hclean', ⟨?_, ?_, hspec'.nodup, hspec'.length, hspec'.beyond⟩⟩
          · intro i
            simp only [hiff]
            exact hspec'.slot i
          · intro i
            rw [hiff]
            exact hspec'.indices i
      | some k =>
          have hspec : RemoveSpec q k b b₁ := hspec
          have hslot := h.indexed.get_eq_some.mp hget.symm
          obtain ⟨hkept₁, hclean₁⟩ := h.remove hrule hclean hslot hspec
          obtain ⟨hkept, hclean', hspec'⟩ := ih hkept₁ hclean₁ hrest
          have hiff : ∀ i, (∃ p ∈ q :: reqIds, b.slot i = some p) ↔
              i = k ∨ ∃ p ∈ reqIds, b₁.slot i = some p := by
            intro i
            simp only [hspec.slot, List.mem_cons, exists_eq_or_imp]
            constructor
            · rintro (hi | ⟨p, hp, hi⟩)
              · exact .inl (h.indexed.slot_inj hi hslot)
              · by_cases hik : i = k
                · exact .inl hik
                · exact .inr ⟨p, hp, by rw [if_neg hik, hi]⟩
            · rintro (rfl | ⟨p, hp, hi⟩)
              · exact .inl hslot
              · split_ifs at hi with hik
                exact .inr ⟨p, hp, hi⟩
          refine ⟨hkept, hclean', ⟨fun i => ?_, fun i => ?_, ?_, ?_, fun i hi => ?_⟩⟩
          · rw [hspec'.slot]
            by_cases hik : i = k
            · have hnone : b₁.slot i = none := by rw [hspec.slot, if_pos hik]
              rw [if_pos ((hiff i).mpr (.inl hik)), hnone, ite_self]
            · simp only [hiff, hik, false_or]
              rw [hspec.slot, if_neg hik]
          · rw [hiff, Option.toList_some, List.singleton_append, List.mem_cons, hspec'.indices]
          · rw [Option.toList_some, List.singleton_append, List.nodup_cons, hspec'.indices]
            refine ⟨?_, hspec'.nodup⟩
            rintro ⟨p, -, hp⟩
            rw [hspec.slot, if_pos rfl] at hp
            cases hp
          · rw [hspec'.length, hspec.length]
          · have hik : i ≠ k := by
              have := hspec.lt
              omega
            rw [hspec'.beyond i (by rw [hspec.length]; exact hi), hspec.row, if_neg hik]

end InputBatch

namespace ModelRunner

open InputBatch

variable {cfg : RunnerConfig} {rule : RowRule} {r r' : ModelRunner} {d : Delivery}
  {request request' : CachedRequestState} {data : CachedRequestData} {q : ReqId}

/-! ## Cached requests -/

/-- The fields of a cached request that never change. -/
structure SameParams (request request' : CachedRequestState) : Prop where
  reqId : request'.reqId = request.reqId
  promptTokenIds : request'.promptTokenIds = request.promptTokenIds
  samplingParams : request'.samplingParams = request.samplingParams
  generator : request'.generator = request.generator
  loraRequest : request'.loraRequest = request.loraRequest

theorem SameParams.refl (request : CachedRequestState) : SameParams request request :=
  ⟨rfl, rfl, rfl, rfl, rfl⟩

theorem SameParams.trans {request₁ request₂ request₃ : CachedRequestState}
    (h : SameParams request₁ request₂) (h' : SameParams request₂ request₃) :
    SameParams request₁ request₃ :=
  ⟨h'.reqId.trans h.reqId, h'.promptTokenIds.trans h.promptTokenIds,
    h'.samplingParams.trans h.samplingParams, h'.generator.trans h.generator,
    h'.loraRequest.trans h.loraRequest⟩

/-- What an update does to the state of a request: only a rollback replaces its list. -/
structure UpdateSpec (data : CachedRequestData) (request request' : CachedRequestState)
    (r r' : ModelRunner) : Prop where
  params : SameParams request request'
  ref : data.specResult ≠ false → request'.outputTokenIds = request.outputTokenIds
  requests : r'.requests = Function.update r.requests data.reqId (some request')
  inputBatch : r'.inputBatch = r.inputBatch

theorem appendTokens_frame (h : appendTokens data request r = .ok r') :
    r'.requests = r.requests ∧ r'.inputBatch = r.inputBatch := by
  simp only [appendTokens] at h
  split_ifs at h
  · simp only [bind_eq_ok, pure_eq_ok] at h
    obtain ⟨_, -, rfl⟩ := h
    exact ⟨rfl, rfl⟩
  · obtain rfl := pure_eq_ok.mp h
    exact ⟨rfl, rfl⟩
  · obtain rfl := pure_eq_ok.mp h
    exact ⟨rfl, rfl⟩

theorem updateRequest_spec (h : updateRequest data request r = .ok r') :
    ∃ request', UpdateSpec data request request' r r' := by
  simp only [updateRequest, bind_eq_ok, pure_eq_ok, Prod.exists] at h
  obtain ⟨request₁, r₁, houtput, rfl⟩ := h
  unfold updateOutput at houtput
  split_ifs at houtput with hresult
  · obtain ⟨rfl, rfl⟩ := Prod.mk.inj (Except.ok.inj houtput)
    refine ⟨_,
      { params := ?_
        ref := fun hne => absurd hresult hne
        requests := rfl
        inputBatch := rfl }⟩
    exact ⟨rfl, rfl, rfl, rfl, rfl⟩
  · simp only [bind_eq_ok, pure_eq_ok, Prod.mk.injEq] at houtput
    obtain ⟨r₂, happend, rfl, rfl⟩ := houtput
    obtain ⟨hrequests, hbatch⟩ := appendTokens_frame happend
    refine ⟨_,
      { params := ?_
        ref := ?_
        requests := congrArg (Function.update · _ _) hrequests
        inputBatch := hbatch }⟩
    · exact ⟨rfl, rfl, rfl, rfl, rfl⟩
    · exact fun _ => rfl

/-- The arrays of tokens and blocks are not part of a row. -/
theorem updateRow_row {b b' : InputBatch} {i : ℕ} (h : updateRow cfg data i b = .ok b') :
    (∀ j, b'.row j = b.row j) ∧ b'.reqIds = b.reqIds ∧ b'.reqIdToIndex = b.reqIdToIndex ∧
      ∀ {rule : RowRule} {requests}, Kept cfg.batch rule requests b →
        Kept cfg.batch rule requests b' := by
  simp only [updateRow, bind_eq_ok, pure_eq_ok, Prod.exists] at h
  obtain ⟨blockTable, -, tokens, numTokens, -, rfl⟩ := h
  refine ⟨fun _ => rfl, rfl, rfl, fun h => ?_⟩
  exact ⟨⟨h.indexed.keys, h.indexed.slot_iff, h.indexed.refs⟩, h.rows, h.vacant, h.absent,
    h.adapters.congr rfl rfl⟩

/-- An updated request keeps its row when the rule allows its new state. -/
theorem kept_update {requests : ReqId → Option CachedRequestState} {b : InputBatch}
    (h : Kept cfg.batch rule requests b) (hrequest : requests q = some request)
    (hparams : SameParams request request')
    (hholds : b.Present q → ∀ row, rule.holds request row → rule.holds request' row) :
    Kept cfg.batch rule (Function.update requests q (some request')) b where
  indexed := h.indexed
  rows i p hp := by
    obtain ⟨request₀, hrequest₀, hreqId, hrow, hentry, hlora⟩ := h.rows i p hp
    by_cases hpq : p = q
    · subst hpq
      obtain rfl := Option.some.inj (hrequest.symm.trans hrequest₀)
      refine ⟨request', Function.update_self .., hparams.reqId.trans hreqId,
        hholds (h.indexed.present_iff.mpr ⟨i, hp⟩) _ hrow, ?_, ?_⟩
      · rw [hentry, Entry.of, Entry.of, hparams.samplingParams]
      · rw [hlora, loraId, loraId, hparams.loraRequest]
    · exact ⟨request₀, by rw [Function.update_of_ne hpq, hrequest₀], hreqId, hrow, hentry, hlora⟩
  vacant := h.vacant
  absent := h.absent
  adapters := h.adapters

/-- The rule allows the states that the updates of requests with a row lead to. -/
def Allows (rule : RowRule) (present : ReqId → Prop) (datas : List CachedRequestData) : Prop :=
  ∀ data ∈ datas, present data.reqId → ∀ request request', SameParams request request' →
    (data.specResult ≠ false → request'.outputTokenIds = request.outputTokenIds) →
    ∀ row, rule.holds request row → rule.holds request' row

/-- What the loop over the cached requests does. -/
structure CachedSpec (datas : List CachedRequestData) (reqIdsToAdd : List ReqId)
    (r r' : ModelRunner) : Prop where
  toAdd : reqIdsToAdd =
    (datas.map (·.reqId)).filter fun q => (dictGet? r.inputBatch.reqIdToIndex q).isNone
  row : ∀ i, r'.inputBatch.row i = r.inputBatch.row i
  reqIds : r'.inputBatch.reqIds = r.inputBatch.reqIds
  index : r'.inputBatch.reqIdToIndex = r.inputBatch.reqIdToIndex
  params : ∀ q request', r'.requests q = some request' →
    ∃ request, r.requests q = some request ∧ SameParams request request'

theorem updateCachedRequests_spec {datas : List CachedRequestData} {reqIdsToAdd : List ReqId}
    (h : Kept cfg.batch rule r.requests r.inputBatch)
    (hallows : Allows rule r.inputBatch.Present datas)
    (hok : updateCachedRequests cfg datas r = .ok (reqIdsToAdd, r')) :
    Kept cfg.batch rule r'.requests r'.inputBatch ∧ CachedSpec datas reqIdsToAdd r r' := by
  induction datas generalizing r reqIdsToAdd with
  | nil =>
      obtain ⟨rfl, rfl⟩ := Prod.mk.inj (Except.ok.inj hok)
      exact ⟨h, rfl, fun _ => rfl, rfl, rfl, fun q request hq => ⟨request, hq, .refl request⟩⟩
  | cons data datas ih =>
      rw [updateCachedRequests] at hok
      split at hok
      · cases hok
      next request hrequest =>
        obtain ⟨r₁, hupdate, hok⟩ := bind_eq_ok.mp hok
        obtain ⟨request₁, hspec⟩ := updateRequest_spec hupdate
        have hholds : r.inputBatch.Present data.reqId →
            ∀ row, rule.holds request row → rule.holds request₁ row := fun hpresent =>
          hallows data List.mem_cons_self hpresent request request₁ hspec.params hspec.ref
        have hkept₁ : Kept cfg.batch rule r₁.requests r₁.inputBatch := by
          rw [hspec.requests, hspec.inputBatch]
          exact kept_update h hrequest hspec.params hholds
        have hallows₁ : Allows rule r.inputBatch.Present datas :=
          fun data' hdata' => hallows data' (List.mem_cons_of_mem data hdata')
        have hparams₁ : ∀ q request', r₁.requests q = some request' →
            ∃ request, r.requests q = some request ∧ SameParams request request' := by
          intro q request' hq
          rw [hspec.requests] at hq
          by_cases hqd : q = data.reqId
          · rw [hqd, Function.update_self] at hq
            obtain rfl := Option.some.inj hq
            exact ⟨request, hqd ▸ hrequest, hspec.params⟩
          · rw [Function.update_of_ne hqd] at hq
            exact ⟨request', hq, .refl request'⟩
        have hparams : ∀ r' : ModelRunner, (∀ q request', r'.requests q = some request' →
            ∃ request, r₁.requests q = some request ∧ SameParams request request') →
            ∀ q request', r'.requests q = some request' →
              ∃ request, r.requests q = some request ∧ SameParams request request' := by
          intro r' hr' q request' hq
          obtain ⟨request₂, hq₂, hsame₂⟩ := hr' q request' hq
          obtain ⟨request₃, hq₃, hsame₃⟩ := hparams₁ q request₂ hq₂
          exact ⟨request₃, hq₃, hsame₃.trans hsame₂⟩
        rw [hspec.inputBatch] at hok
        split at hok
        next hnone =>
          simp only [bind_eq_ok, pure_eq_ok, Prod.exists, Prod.mk.injEq] at hok
          obtain ⟨reqIds, r₂, hrest, rfl, rfl⟩ := hok
          obtain ⟨hkept, hcached⟩ := ih hkept₁ (hspec.inputBatch ▸ hallows₁) hrest
          refine ⟨hkept, ?_, ?_, ?_, ?_, hparams _ hcached.params⟩
          · rw [hcached.toAdd, hspec.inputBatch, List.map_cons, List.filter_cons_of_pos]
            simp [hnone]
          · exact fun i => (hcached.row i).trans (by rw [hspec.inputBatch])
          · exact hcached.reqIds.trans (by rw [hspec.inputBatch])
          · exact hcached.index.trans (by rw [hspec.inputBatch])
        next reqIndex hsome =>
          obtain ⟨b, hrow, hrest⟩ := bind_eq_ok.mp hok
          obtain ⟨hrows, hreqIds, hindex, hkeeps⟩ := updateRow_row hrow
          have hpresent : ∀ q, b.Present q ↔ r.inputBatch.Present q := by
            intro q
            rw [Present, Present, hindex]
          obtain ⟨hkept, hcached⟩ := ih (r := { r₁ with inputBatch := b })
            (hkeeps (hspec.inputBatch ▸ hkept₁))
            (fun data' hdata' hp => hallows₁ data' hdata' ((hpresent _).mp hp)) hrest
          refine ⟨hkept, ?_, ?_, ?_, ?_, hparams _ hcached.params⟩
          · rw [hcached.toAdd, List.map_cons, List.filter_cons_of_neg]
            · simp only [hindex]
            · simp [hsome]
          · exact fun i => (hcached.row i).trans (hrows i)
          · exact hcached.reqIds.trans hreqIds
          · exact hcached.index.trans hindex

/-! ## New requests -/

theorem addNewRequests_spec (params : ReqId → WorkerRequestParams) (datas : List NewRequestData)
    (r : ModelRunner) {r' : ModelRunner}
    (hr' : r' = datas.foldl (fun r data => addNewRequest params data r) r) :
    r'.inputBatch = r.inputBatch ∧
      (∀ q, q ∉ datas.map (·.reqId) → r'.requests q = r.requests q) ∧
      ∀ q ∈ datas.map (·.reqId), ∃ request, r'.requests q = some request ∧ request.reqId = q ∧
        request.samplingParams = (params q).samplingParams := by
  induction datas generalizing r with
  | nil =>
      subst hr'
      exact ⟨rfl, fun _ _ => rfl, fun q hq => absurd hq List.not_mem_nil⟩
  | cons data datas ih =>
      obtain ⟨hbatch, hother, hnew⟩ := ih (addNewRequest params data r) hr'
      refine ⟨hbatch, fun q hq => ?_, fun q hq => ?_⟩
      · rw [List.map_cons, List.mem_cons, not_or] at hq
        rw [hother q hq.2]
        exact Function.update_of_ne hq.1 _ _
      · by_cases hmem : q ∈ datas.map (·.reqId)
        · exact hnew q hmem
        · rw [List.map_cons, List.mem_cons] at hq
          obtain rfl := hq.resolve_right hmem
          rw [hother _ hmem]
          exact ⟨_, Function.update_self .., rfl, rfl⟩

/-! ## Additions -/

/-- Every cached request is filed under its id. -/
def Named (requests : ReqId → Option CachedRequestState) : Prop :=
  ∀ q request, requests q = some request → request.reqId = q

/-- The rows at the end of the batch suit the requests that are appended there. -/
def Appends (rule : RowRule) (requests : ReqId → Option CachedRequestState) (b : InputBatch)
    (reqIds : List ReqId) : Prop :=
  ∀ j q request, reqIds[j]? = some q → requests q = some request →
    rule.appended request (b.row (b.reqIds.length + j))

theorem addRequests_spec (hrule : rule.Sound cfg.batch) {reqIds : List ReqId}
    {empties empties' : List ℕ} (h : Kept cfg.batch rule r.requests r.inputBatch)
    (hclean : Clean rule r.inputBatch) (hnamed : Named r.requests)
    (hholes : r.inputBatch.Holes empties) (hnodup : reqIds.Nodup)
    (habsent : ∀ q ∈ reqIds, ∀ i, r.inputBatch.slot i ≠ some q)
    (happends : Appends rule r.requests r.inputBatch (reqIds.drop empties.length))
    (hok : addRequests cfg reqIds empties r = .ok (empties', r')) :
    Kept cfg.batch rule r'.requests r'.inputBatch ∧ r'.inputBatch.Holes empties' ∧
      r'.requests = r.requests ∧ r'.heap = r.heap := by
  induction reqIds generalizing empties r with
  | nil =>
      obtain ⟨rfl, rfl⟩ := Prod.mk.inj (Except.ok.inj hok)
      exact ⟨h, hholes, rfl, rfl⟩
  | cons q reqIds ih =>
      rw [addRequests] at hok
      split at hok
      · cases hok
      next request hrequest =>
        obtain ⟨b, hadd, hrest⟩ := bind_eq_ok.mp hok
        have hreqId := hnamed q request hrequest
        have hframe := addRequest_frame h.indexed.refs hadd
        have hrow := addRequest_row h.indexed.refs hadd
        have hlength : r.inputBatch.numReqs + empties.length = r.inputBatch.reqIds.length :=
          h.indexed.numReqs_add_holes (hholes.ascending.imp fun hlt => ne_of_lt hlt) hholes.mem
            fun i q hi => slot_lt hi
        obtain ⟨hfree, hholds⟩ : r.inputBatch.slot (empties.head?.getD r.inputBatch.numReqs) = none ∧
            rule.holds request
              ((r.inputBatch.row (empties.head?.getD r.inputBatch.numReqs)).add cfg.batch
                request) := by
          cases empties with
          | nil =>
              have hfree : r.inputBatch.slot r.inputBatch.numReqs = none := by
                rw [slot, List.getElem?_eq_none (by simp at hlength; omega), Option.join_none]
              refine ⟨hfree, hrule.append _ _ (h.vacant _ hfree) ?_⟩
              have hnumReqs : r.inputBatch.numReqs = r.inputBatch.reqIds.length + 0 := hlength
              rw [List.head?_nil, Option.getD_none, hnumReqs]
              exact happends 0 q request rfl hrequest
          | cons hole holes =>
              obtain ⟨hlt, hfree⟩ := (hholes.mem hole).mp List.mem_cons_self
              exact ⟨hfree, hrule.fill _ _ (h.vacant _ hfree) (hclean _ hlt hfree)⟩
        obtain ⟨hkept₁, hclean₁⟩ := h.add hclean hrequest hreqId
          (habsent q List.mem_cons_self) hfree hholds hadd
        have hslot : ∀ j, b.slot j =
            if j = empties.head?.getD r.inputBatch.numReqs then some q
            else r.inputBatch.slot j := by
          intro j
          have hj := congrArg Row.reqId (hrow j)
          rw [← hreqId]
          split_ifs at hj ⊢ <;> exact hj
        obtain ⟨hq, hnodup'⟩ := List.nodup_cons.mp hnodup
        have habsent₁ : ∀ p ∈ reqIds, ∀ i, b.slot i ≠ some p := by
          intro p hp i
          rw [hslot]
          split_ifs with hi
          · rintro heq
            exact hq (Option.some.inj heq ▸ hp)
          · exact habsent p (List.mem_cons_of_mem q hp) i
        obtain ⟨hholes₁, happends₁⟩ : b.Holes empties.tail ∧
            Appends rule r.requests b (reqIds.drop empties.tail.length) := by
          cases empties with
          | nil =>
              have hend : r.inputBatch.numReqs = r.inputBatch.reqIds.length := hlength
              have hlength₁ : b.reqIds.length = r.inputBatch.reqIds.length + 1 := by
                rw [hframe.length, List.head?_nil, Option.getD_none, hend]
                omega
              refine ⟨⟨List.Pairwise.nil, fun i => ?_⟩, fun j p request' hp hrequest' => ?_⟩
              · have hmem := hholes.mem i
                rw [List.tail_nil, hslot, List.head?_nil, Option.getD_none, hend, hlength₁]
                simp only [List.not_mem_nil, false_iff, not_and] at hmem ⊢
                intro hi
                split_ifs with hi'
                · exact not_false
                · exact hmem (by omega)
              · have hne : ¬ b.reqIds.length + j = r.inputBatch.reqIds.length := by omega
                rw [hrow, List.head?_nil, Option.getD_none, hend, if_neg hne, hlength₁, add_assoc,
                  add_comm 1 j]
                exact happends (j + 1) p request' hp hrequest'
          | cons hole holes =>
              obtain ⟨hlt, hfree⟩ := (hholes.mem hole).mp List.mem_cons_self
              obtain ⟨hsmallest, hascending⟩ := List.pairwise_cons.mp hholes.ascending
              have hlength₁ : b.reqIds.length = r.inputBatch.reqIds.length := by
                rw [hframe.length, List.head?_cons, Option.getD_some]
                omega
              refine ⟨⟨hascending, fun i => ?_⟩, fun j p request' hp hrequest' => ?_⟩
              · have hmem := hholes.mem i
                rw [List.mem_cons] at hmem
                rw [List.tail_cons, hslot, List.head?_cons, Option.getD_some, hlength₁]
                by_cases hi : i = hole
                · rw [if_pos hi, hi]
                  exact ⟨fun hmem' => absurd (hsmallest hole hmem') (lt_irrefl _),
                    fun hnone => absurd hnone.2 (Option.some_ne_none q)⟩
                · rw [if_neg hi, ← hmem]
                  exact ⟨.inr, fun hmem' => hmem'.resolve_left hi⟩
              · have hne : ¬ b.reqIds.length + j = hole := by omega
                rw [hrow, List.head?_cons, Option.getD_some, if_neg hne, hlength₁]
                exact happends j p request' hp hrequest'
        obtain ⟨hkept, hholes', hrequests, hheap⟩ := ih (r := { r with inputBatch := b }) hkept₁
          hclean₁ hnamed hholes₁ hnodup' habsent₁ happends₁ hrest
        exact ⟨hkept, hholes', hrequests, hheap⟩

end ModelRunner

/-! ## A whole update -/

namespace Delivery

variable (d : Delivery)

/-- The request keeps its row. -/
def Stays (b : InputBatch) (q : ReqId) : Prop :=
  b.Present q ∧ q ∉ d.schedulerOutput.finishedReqIds ∧
    q ∈ d.schedulerOutput.numScheduledTokens.map Prod.fst

instance (b : InputBatch) : DecidablePred (d.Stays b) := fun q =>
  inferInstanceAs (Decidable (q ∈ b.reqIdToIndex.map Prod.fst ∧ _ ∧ _))

/-- The requests that lose their row. -/
def leaving (b : InputBatch) : List ReqId :=
  (b.reqIdToIndex.map Prod.fst).filter fun q => ¬ d.Stays b q

/-- The requests that get a row, in the order in which they are added. -/
def joining (b : InputBatch) : List ReqId :=
  d.schedulerOutput.scheduledNewReqs.map (·.reqId) ++
    (d.schedulerOutput.scheduledCachedReqs.map (·.reqId)).filter fun q => ¬ d.Stays b q

/-- The sampling parameters of a request in the output. -/
def samplingParams (r : ModelRunner) (q : ReqId) : Option WorkerSamplingParams :=
  if q ∈ d.schedulerOutput.scheduledNewReqs.map (·.reqId) then some (d.params q).samplingParams
  else (r.requests q).map (·.samplingParams)

/-- What the scheduler keeps to: no request is scheduled twice, and a new one is new. -/
structure WellFormed (r : ModelRunner) : Prop where
  nodup : (d.schedulerOutput.scheduledNewReqs.map (·.reqId) ++
    d.schedulerOutput.scheduledCachedReqs.map (·.reqId)).Nodup
  fresh : ∀ q ∈ d.schedulerOutput.scheduledNewReqs.map (·.reqId),
    q ∈ d.schedulerOutput.finishedReqIds ∨ r.requests q = none

end Delivery

namespace ModelRunner

open InputBatch

variable {cfg : RunnerConfig} {rule : RowRule} {r r' : ModelRunner} {d : Delivery}

/-- What removing the finished and the unscheduled requests does. -/
structure StaleSpec (d : Delivery) (empties : List ℕ) (r r' : ModelRunner) : Prop where
  slot : ∀ i q, r'.inputBatch.slot i = some q ↔
    r.inputBatch.slot i = some q ∧ d.Stays r.inputBatch q
  length : r'.inputBatch.reqIds.length = r.inputBatch.reqIds.length
  beyond : ∀ i, r.inputBatch.reqIds.length ≤ i → r'.inputBatch.row i = r.inputBatch.row i
  requests : ∀ q, r'.requests q =
    if q ∈ d.schedulerOutput.finishedReqIds then none else r.requests q
  holes : r'.inputBatch.Holes empties

theorem slot_of_removals {b₀ b₁ b₂ : InputBatch} {finished unscheduled : List ReqId}
    {indices indices' : List ℕ} (h₁ : RemovalsSpec finished indices b₀ b₁)
    (h₂ : RemovalsSpec unscheduled indices' b₁ b₂) (i : ℕ) (q : ReqId) :
    b₂.slot i = some q ↔ b₀.slot i = some q ∧ q ∉ finished ∧ q ∉ unscheduled := by
  have hone : b₁.slot i = some q ↔ b₀.slot i = some q ∧ q ∉ finished := by
    rw [h₁.slot]
    split_ifs with hex
    · obtain ⟨p, hp, hslot⟩ := hex
      refine ⟨nofun, fun ⟨hq, hnot⟩ => ?_⟩
      obtain rfl := Option.some.inj (hslot.symm.trans hq)
      exact absurd hp hnot
    · exact ⟨fun hq => ⟨hq, fun hmem => hex ⟨q, hmem, hq⟩⟩, And.left⟩
  rw [h₂.slot]
  split_ifs with hex
  · obtain ⟨p, hp, hslot⟩ := hex
    refine ⟨nofun, fun ⟨hq, hnot, hnot'⟩ => ?_⟩
    obtain rfl := Option.some.inj (hslot.symm.trans (hone.mpr ⟨hq, hnot⟩))
    exact absurd hp hnot'
  · rw [hone]
    exact ⟨fun ⟨hq, hnot⟩ => ⟨hq, hnot, fun hmem => hex ⟨q, hmem, hone.mpr ⟨hq, hnot⟩⟩⟩,
      fun ⟨hq, hnot, _⟩ => ⟨hq, hnot⟩⟩

theorem removeStale_spec (hrule : rule.Sound cfg.batch) {empties : List ℕ}
    (h : Kept cfg.batch rule r.requests r.inputBatch) (hdense : r.inputBatch.Dense)
    (hok : removeStale d r = .ok (empties, r')) :
    Kept cfg.batch rule r'.requests r'.inputBatch ∧ Clean rule r'.inputBatch ∧
      StaleSpec d empties r r' := by
  simp only [removeStale, bind_eq_ok, pure_eq_ok, pyAssert_eq_ok, Prod.exists, Prod.mk.injEq]
    at hok
  obtain ⟨indices, b₁, hfinished, indices', b₂, hunscheduled, _, -, rfl, rfl⟩ := hok
  have hclean : Clean rule r.inputBatch := fun i hi hnone => by
    have hsome := hdense i hi
    rw [hnone] at hsome
    cases hsome
  obtain ⟨hkept₁, hclean₁, hspec₁⟩ := removeRequests_spec hrule h hclean hfinished
  obtain ⟨hkept₂, hclean₂, hspec₂⟩ := removeRequests_spec hrule hkept₁ hclean₁ hunscheduled
  have hslot : ∀ i q, b₂.slot i = some q ↔
      r.inputBatch.slot i = some q ∧ d.Stays r.inputBatch q := by
    intro i q
    rw [slot_of_removals hspec₁ hspec₂, (d.finishedOrder.perm _).mem_iff,
      (d.unscheduledOrder.perm _).mem_iff]
    simp only [unscheduledReqIds, List.mem_filter, decide_eq_true_eq, not_and, not_not]
    have hpresent : r.inputBatch.slot i = some q → q ∉ d.schedulerOutput.finishedReqIds →
        q ∈ b₁.reqIdToIndex.map Prod.fst := by
      intro hq hnot
      refine hkept₁.indexed.present_iff.mpr ⟨i, ?_⟩
      rw [hspec₁.slot, if_neg]
      · exact hq
      · rintro ⟨p, hp, hslot⟩
        obtain rfl := Option.some.inj (hslot.symm.trans hq)
        exact hnot ((d.finishedOrder.perm _).mem_iff.mp hp)
    constructor
    · rintro ⟨hq, hnot, hscheduled⟩
      exact ⟨hq, h.indexed.present_iff.mpr ⟨i, hq⟩, hnot, hscheduled (hpresent hq hnot)⟩
    · rintro ⟨hq, -, hnot, hscheduled⟩
      exact ⟨hq, hnot, fun _ => hscheduled⟩
  have hlength : b₂.reqIds.length = r.inputBatch.reqIds.length :=
    hspec₂.length.trans hspec₁.length
  refine ⟨hkept₂.congr_requests fun i q hq => ?_, hclean₂, hslot, hlength, fun i hi => ?_,
    fun _ => rfl, ?_, fun i => ?_⟩
  · exact if_neg ((hslot i q).mp hq).2.2.1
  · rw [hspec₂.beyond i (by rw [hspec₁.length]; exact hi), hspec₁.beyond i hi]
  · have hnodup : (indices ++ indices').Nodup := by
      refine List.nodup_append.mpr ⟨hspec₁.nodup, hspec₂.nodup, ?_⟩
      rintro i hi i' hi' rfl
      obtain ⟨q, -, hq⟩ := (hspec₂.indices i).mp hi'
      rw [hspec₁.slot, if_pos ((hspec₁.indices i).mp hi)] at hq
      cases hq
    have hsorted := (List.pairwise_insertionSort (· ≤ ·) (indices ++ indices'))
    have hnodup' := (List.perm_insertionSort (· ≤ ·) (indices ++ indices')).nodup_iff.mpr hnodup
    exact hsorted.imp₂ (fun i i' hle hne => lt_of_le_of_ne hle hne) hnodup'
  · rw [(List.perm_insertionSort (· ≤ ·) _).mem_iff, List.mem_append, hspec₁.indices,
      hspec₂.indices, hlength]
    constructor
    · rintro (⟨q, hq, hi⟩ | ⟨q, hq, hi⟩)
      · have hnone : b₁.slot i = none := by rw [hspec₁.slot, if_pos ⟨q, hq, hi⟩]
        refine ⟨slot_lt hi, ?_⟩
        rw [hspec₂.slot, hnone, ite_self]
      · refine ⟨by rw [← hspec₁.length]; exact slot_lt hi, ?_⟩
        rw [hspec₂.slot, if_pos ⟨q, hq, hi⟩]
    · rintro ⟨hlt, hnone⟩
      obtain ⟨q, hq⟩ := Option.isSome_iff_exists.mp (hdense i hlt)
      by_cases hmem : q ∈ d.finishedOrder.order d.schedulerOutput.finishedReqIds
      · exact .inl ⟨q, hmem, hq⟩
      · refine .inr ⟨q, ?_, ?_⟩
        · by_contra hnot
          have hsome := (slot_of_removals hspec₁ hspec₂ i q).mpr ⟨hq, hmem, hnot⟩
          rw [hnone] at hsome
          cases hsome
        · rw [hspec₁.slot, if_neg]
          · exact hq
          · rintro ⟨p, hp, hslot'⟩
            obtain rfl := Option.some.inj (hslot'.symm.trans hq)
            exact hmem hp

/-- As many rows become empty as requests lose their row. -/
theorem StaleSpec.length_empties {empties : List ℕ} (h : StaleSpec d empties r r')
    (hindexed : r.inputBatch.Indexed) (hdense : r.inputBatch.Dense) :
    empties.length = (d.leaving r.inputBatch).length := by
  have hget : ∀ q ∈ d.leaving r.inputBatch, ∃ i, r.inputBatch.slot i = some q ∧
      (dictGet? r.inputBatch.reqIdToIndex q).getD 0 = i := by
    intro q hq
    obtain ⟨i, hi⟩ := hindexed.present_iff.mp (List.mem_filter.mp hq).1
    exact ⟨i, hi, by rw [hindexed.get_eq_some.mpr hi, Option.getD_some]⟩
  have hperm : empties.Perm
      ((d.leaving r.inputBatch).map fun q => (dictGet? r.inputBatch.reqIdToIndex q).getD 0) := by
    refine (List.perm_ext_iff_of_nodup (h.holes.ascending.imp fun hlt => ne_of_lt hlt) ?_).mpr
      fun i => ?_
    · refine (hindexed.keys.filter _).map_on fun q hq q' hq' heq => ?_
      obtain ⟨i, hi, hqi⟩ := hget q hq
      obtain ⟨i', hi', hqi'⟩ := hget q' hq'
      obtain rfl : i = i' := hqi.symm.trans (heq.trans hqi')
      exact Option.some.inj (hi.symm.trans hi')
    · rw [h.holes.mem, h.length, List.mem_map]
      constructor
      · rintro ⟨hlt, hnone⟩
        obtain ⟨q, hq⟩ := Option.isSome_iff_exists.mp (hdense i hlt)
        refine ⟨q, List.mem_filter.mpr ⟨hindexed.present_iff.mpr ⟨i, hq⟩, ?_⟩, ?_⟩
        · simp only [decide_not, Bool.not_eq_eq_eq_not, Bool.not_true, decide_eq_false_iff_not]
          intro hstays
          exact absurd (((h.slot i q).mpr ⟨hq, hstays⟩).symm.trans hnone) nofun
        · rw [hindexed.get_eq_some.mpr hq, Option.getD_some]
      · rintro ⟨q, hq, heq⟩
        obtain ⟨i', hi', hqi'⟩ := hget q hq
        obtain rfl : i' = i := hqi'.symm.trans heq
        refine ⟨slot_lt hi', ?_⟩
        have hleaves := (List.mem_filter.mp hq).2
        cases hslot : r'.inputBatch.slot i' with
        | none => rfl
        | some p =>
            obtain ⟨hp, hstays⟩ := (h.slot i' p).mp hslot
            obtain rfl := Option.some.inj (hp.symm.trans hi')
            exact absurd hstays (by simpa using hleaves)
  rw [hperm.length_eq, List.length_map]

/-- The batch follows the scheduler, and its rows follow the rule. -/
structure Follows (cfg : RunnerConfig) (rule : RowRule) (r : ModelRunner) : Prop where
  kept : Kept cfg.batch rule r.requests r.inputBatch
  dense : r.inputBatch.Dense
  named : Named r.requests

theorem init_follows (hrule : rule.Sound cfg.batch) : Follows cfg rule ModelRunner.init where
  kept := init_kept hrule
  dense i hi := absurd hi (Nat.not_lt_zero i)
  named q request hrequest := by
    cases hrequest

/-- The rows after the batch suit the requests that are appended to it. -/
def SuitsAppended (rule : RowRule) (d : Delivery) (r : ModelRunner) : Prop :=
  ∀ j q, (d.joining r.inputBatch)[(d.leaving r.inputBatch).length + j]? = some q →
    ∀ request : CachedRequestState, d.samplingParams r q = some request.samplingParams →
      rule.appended request (r.inputBatch.row (r.inputBatch.reqIds.length + j))

theorem updateStates_follows (hrule : rule.Sound cfg.batch) (h : Follows cfg rule r)
    (hwell : d.WellFormed r)
    (hallows : Allows rule (d.Stays r.inputBatch) d.schedulerOutput.scheduledCachedReqs)
    (hsuits : SuitsAppended rule d r) (hok : updateStates cfg d r = .ok r') :
    Follows cfg rule r' := by
  simp only [updateStates, bind_eq_ok, Prod.exists] at hok
  obtain ⟨empties, r₁, hstale, reqIdsToAdd, r₃, hcached, empties', r₄, hadd, hok⟩ := hok
  obtain ⟨hkept₁, hclean₁, hspec₁⟩ := removeStale_spec hrule h.kept h.dense hstale
  obtain ⟨r₂, hr₂⟩ : ∃ r₂, r₂ = d.schedulerOutput.scheduledNewReqs.foldl
      (fun r data => addNewRequest d.params data r) r₁ := ⟨_, rfl⟩
  rw [← hr₂] at hcached
  obtain ⟨hbatch₂, hother₂, hnew₂⟩ := addNewRequests_spec _ _ _ hr₂
  have hpresent₁ : ∀ q, r₁.inputBatch.Present q ↔ d.Stays r.inputBatch q := by
    intro q
    rw [hkept₁.indexed.present_iff]
    refine ⟨fun ⟨i, hi⟩ => ((hspec₁.slot i q).mp hi).2, fun hstays => ?_⟩
    obtain ⟨i, hi⟩ := h.kept.indexed.present_iff.mp hstays.1
    exact ⟨i, (hspec₁.slot i q).mpr ⟨hi, hstays⟩⟩
  have hnewAbsent : ∀ q ∈ d.schedulerOutput.scheduledNewReqs.map (·.reqId), ∀ i,
      r₁.inputBatch.slot i ≠ some q := by
    intro q hq i hi
    obtain ⟨hold, hstays⟩ := (hspec₁.slot i q).mp hi
    obtain ⟨request, hrequest, -⟩ := h.kept.rows i q hold
    rcases hwell.fresh q hq with hfinished | hnone
    · exact hstays.2.1 hfinished
    · rw [hrequest] at hnone
      cases hnone
  have hkept₂ : Kept cfg.batch rule r₂.requests r₂.inputBatch := by
    rw [hbatch₂]
    exact hkept₁.congr_requests fun i q hq => hother₂ q fun hmem => hnewAbsent q hmem i hq
  obtain ⟨hkept₃, hspec₃⟩ := updateCachedRequests_spec hkept₂
    (fun data hdata hpresent =>
      hallows data hdata ((hpresent₁ _).mp (by rwa [hbatch₂] at hpresent))) hcached
  have hparams₃ : ∀ q request, r₃.requests q = some request → request.reqId = q ∧
      d.samplingParams r q = some request.samplingParams := by
    intro q request hrequest
    obtain ⟨request₂, hrequest₂, hsame⟩ := hspec₃.params q request hrequest
    rw [hsame.reqId, hsame.samplingParams, Delivery.samplingParams]
    by_cases hq : q ∈ d.schedulerOutput.scheduledNewReqs.map (·.reqId)
    · obtain ⟨request', hrequest', hreqId, hsampling⟩ := hnew₂ q hq
      obtain rfl := Option.some.inj (hrequest'.symm.trans hrequest₂)
      rw [if_pos hq, hsampling]
      exact ⟨hreqId, rfl⟩
    · rw [hother₂ q hq, hspec₁.requests] at hrequest₂
      split_ifs at hrequest₂
      rw [if_neg hq, hrequest₂]
      exact ⟨h.named q request₂ hrequest₂, rfl⟩
  have htoAdd : d.schedulerOutput.scheduledNewReqs.map (·.reqId) ++ reqIdsToAdd =
      d.joining r.inputBatch := by
    rw [hspec₃.toAdd, Delivery.joining, hbatch₂]
    congr 1
    apply List.filter_congr
    intro q _
    have hget : dictGet? r₁.inputBatch.reqIdToIndex q = none ↔ ¬ d.Stays r.inputBatch q := by
      rw [dictGet?_eq_none]
      exact not_congr (hpresent₁ q)
    rw [Bool.eq_iff_iff, Option.isNone_iff_eq_none, hget, decide_eq_true_iff]
  have hslot₃ : ∀ i, r₃.inputBatch.slot i = r₁.inputBatch.slot i := by
    intro i
    rw [slot, slot, hspec₃.reqIds, hbatch₂]
  have hlength₃ : r₃.inputBatch.reqIds.length = r.inputBatch.reqIds.length := by
    rw [hspec₃.reqIds, hbatch₂, hspec₁.length]
  have hrow₃ : ∀ i, r₃.inputBatch.row i = r₁.inputBatch.row i := by
    intro i
    rw [hspec₃.row, hbatch₂]
  rw [htoAdd] at hadd
  have hclean₃ : Clean rule r₃.inputBatch := fun i hi hnone => by
    rw [hrow₃]
    rw [hslot₃] at hnone
    exact hclean₁ i (by rw [hspec₁.length, ← hlength₃]; exact hi) hnone
  have hnamed₃ : Named r₃.requests := fun q request hrequest => (hparams₃ q request hrequest).1
  have hholes₃ : r₃.inputBatch.Holes empties := by
    refine ⟨hspec₁.holes.ascending, fun i => ?_⟩
    rw [hslot₃, hlength₃, ← hspec₁.length]
    exact hspec₁.holes.mem i
  have hnodup : (d.joining r.inputBatch).Nodup :=
    hwell.nodup.sublist (List.Sublist.append_left List.filter_sublist _)
  have habsent₃ : ∀ q ∈ d.joining r.inputBatch, ∀ i, r₃.inputBatch.slot i ≠ some q := by
    intro q hq i
    rw [hslot₃]
    rcases List.mem_append.mp hq with hq | hq
    · exact hnewAbsent q hq i
    · intro hi
      have hleaves := (List.mem_filter.mp hq).2
      exact absurd ((hspec₁.slot i q).mp hi).2 (by simpa using hleaves)
  have happends₃ : Appends rule r₃.requests r₃.inputBatch
      ((d.joining r.inputBatch).drop empties.length) := by
    intro j q request hq hrequest
    rw [List.getElem?_drop, hspec₁.length_empties h.kept.indexed h.dense] at hq
    rw [hrow₃, hlength₃, hspec₁.beyond _ (Nat.le_add_right _ _)]
    exact hsuits j q hq request (hparams₃ q request hrequest).2
  obtain ⟨hkept₄, hholes₄, hrequests₄, -⟩ := addRequests_spec hrule hkept₃ hclean₃ hnamed₃ hholes₃
    hnodup habsent₃ happends₃ hadd
  have hnamed₄ : Named r₄.requests := by
    rw [hrequests₄]
    exact fun q request hrequest => (hparams₃ q request hrequest).1
  split_ifs at hok with hfull
  · obtain rfl := pure_eq_ok.mp hok
    refine ⟨hkept₄, fun i hi => ?_, hnamed₄⟩
    rw [Option.isSome_iff_ne_none]
    intro hnone
    have hmem := (hholes₄.mem i).mpr ⟨hi, hnone⟩
    rw [hfull] at hmem
    exact absurd hmem List.not_mem_nil
  · simp only [bind_eq_ok, pure_eq_ok] at hok
    obtain ⟨b, hcondense, rfl⟩ := hok
    obtain ⟨-, hkept, hdense⟩ := condense_spec (I := Kept cfg.batch rule r₄.requests)
      hkept₄.indexed hkept₄ hholes₄
      (fun _ _ _ _ _ hkept _ hlt hfree hspec => hkept.move hrule hlt hfree hspec)
      (fun _ _ hkept _ hrows => hkept.cut hrule hrows) hcondense
    exact ⟨hkept, hdense, hnamed₄⟩

/-! ## Runs -/

/-- A worker takes one scheduler output. -/
def Step (cfg : RunnerConfig) (r : ModelRunner) (d : Delivery) (r' : ModelRunner) : Prop :=
  d.WellFormed r ∧ updateStates cfg d r = .ok r'

/-- Runs from the empty batch. -/
abbrev Run (cfg : RunnerConfig) : List Delivery → ModelRunner → Prop :=
  Transition.Run (Step cfg) ModelRunner.init

instance (d : Delivery) (r : ModelRunner) : Decidable (d.WellFormed r) :=
  decidable_of_iff (_ ∧ _) ⟨fun h => ⟨h.1, h.2⟩, fun h => ⟨h.nodup, h.fresh⟩⟩

/-- The worker after the outputs, if it can take them all. -/
def deliver (cfg : RunnerConfig) : List Delivery → ModelRunner → Option ModelRunner
  | [], r => some r
  | d :: ds, r =>
    match updateStates cfg d r with
    | .ok r' => if d.WellFormed r then deliver cfg ds r' else none
    | .error _ => none

theorem deliver_cons {ds : List Delivery} {r r' : ModelRunner}
    (h : deliver cfg (d :: ds) r = some r') :
    ∃ r₁, Step cfg r d r₁ ∧ deliver cfg ds r₁ = some r' := by
  rw [deliver] at h
  split at h
  next r₁ hok =>
    split_ifs at h with hwell
    exact ⟨r₁, ⟨hwell, hok⟩, h⟩
  · cases h

theorem deliver_run {ds : List Delivery} {r r' : ModelRunner} (h : deliver cfg ds r = some r') :
    Transition.Run (Step cfg) r ds r' := by
  induction ds generalizing r with
  | nil =>
      cases h
      exact .nil
  | cons d ds ih =>
      obtain ⟨r₁, hstep, hrest⟩ := deliver_cons h
      exact .cons hstep (ih hrest)

end ModelRunner

end Spexis
