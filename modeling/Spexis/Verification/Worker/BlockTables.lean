import Spexis.Verification.BlockSupply
import Spexis.Verification.Worker.ModelRunner
import Spexis.Verification.Worker.PrepareInputs

/-! # The block table of the persistent batch

What an update does to the blocks of each request's row, wherever the row moves. -/

namespace Spexis

open Python

namespace InputBatch

variable {cfg : BatchConfig} {b b' : InputBatch} {i src dst : ℕ} {q reqId : ReqId}
  {request : CachedRequestState} {outputTokenIds : List TokenId}

/-- The blocks in the row of a request and its number of computed tokens. -/
def filed (b : InputBatch) (q : ReqId) : Option (List BlockId × ℕ) :=
  (dictGet? b.reqIdToIndex q).map fun i => (b.blockTable.blockRow i, b.numComputedTokensCpu i)

theorem Indexed.filed_eq (h : b.Indexed) (hq : b.slot i = some q) :
    b.filed q = some (b.blockTable.blockRow i, b.numComputedTokensCpu i) := by
  rw [filed, h.get_eq_some.mpr hq, Option.map_some]

theorem Indexed.filed_eq_none (h : b.Indexed) : b.filed q = none ↔ ∀ i, b.slot i ≠ some q := by
  rw [filed, Option.map_eq_none_iff, h.get_eq_none]

/-- The entries of the requests, by their rows. -/
theorem Indexed.filed_eq_of (h : b.Indexed) {entries : ReqId → Option (List BlockId × ℕ)}
    (hrows : ∀ i q, b.slot i = some q →
      entries q = some (b.blockTable.blockRow i, b.numComputedTokensCpu i))
    (habsent : ∀ q, (∀ i, b.slot i ≠ some q) → entries q = none) : b.filed = entries := by
  funext q
  by_cases hq : ∃ i, b.slot i = some q
  · obtain ⟨i, hi⟩ := hq
    rw [h.filed_eq hi, hrows i q hi]
  · rw [not_exists] at hq
    rw [h.filed_eq_none.mpr hq, habsent q hq]

/-! ## Removing a request -/

theorem removeRequest_tables {reqIndex : Option ℕ}
    (h : b.removeRequest reqId = .ok (reqIndex, b')) :
    b'.blockTable = b.blockTable ∧ b'.numComputedTokensCpu = b.numComputedTokensCpu := by
  unfold removeRequest at h
  split at h
  · obtain ⟨-, rfl⟩ := Prod.mk.inj (Except.ok.inj h)
    exact ⟨rfl, rfl⟩
  · simp only [bind_eq_ok, pure_eq_ok, Prod.mk.injEq] at h
    obtain ⟨_, -, _, -, b₁, hlora, -, rfl⟩ := h
    rw [removeLora_eq_ok hlora]
    exact ⟨rfl, rfl⟩

theorem Indexed.removeRequest_filed {reqIndex : Option ℕ} (h : b.Indexed)
    (hok : b.removeRequest reqId = .ok (reqIndex, b')) :
    b'.Indexed ∧ b'.filed = Function.update b.filed reqId none := by
  obtain ⟨hget, hspec⟩ := removeRequest_eq_ok hok
  obtain ⟨htable, hcomputed⟩ := removeRequest_tables hok
  cases reqIndex with
  | none =>
      obtain rfl : b' = b := hspec
      have hnone : b'.filed reqId = none := by
        rw [filed, ← hget, Option.map_none]
      refine ⟨h, ?_⟩
      rw [← hnone, Function.update_eq_self]
  | some i =>
      have hspec : RemoveSpec reqId i b b' := hspec
      have hslot := h.get_eq_some.mp hget.symm
      have h' := h.remove hslot hspec
      refine ⟨h', h'.filed_eq_of (fun j p hp => ?_) fun p hp => ?_⟩
      · rw [hspec.slot] at hp
        split_ifs at hp with hj
        have hne : p ≠ reqId := by
          rintro rfl
          exact hj (h.slot_inj hp hslot)
        rw [Function.update_of_ne hne, h.filed_eq hp, htable, hcomputed]
      · by_cases hpq : p = reqId
        · rw [hpq, Function.update_self]
        · rw [Function.update_of_ne hpq, h.filed_eq_none]
          intro j hj
          refine hp j ?_
          rw [hspec.slot, if_neg, hj]
          rintro rfl
          exact hpq (Option.some.inj (hj.symm.trans hslot))

theorem Indexed.removeRequests_filed {reqIds : List ReqId} {reqIndices : List ℕ} (h : b.Indexed)
    (hok : ModelRunner.removeRequests reqIds b = .ok (reqIndices, b')) :
    b'.Indexed ∧ ∀ p, b'.filed p = if p ∈ reqIds then none else b.filed p := by
  induction reqIds generalizing b reqIndices with
  | nil =>
      obtain ⟨-, rfl⟩ := Prod.mk.inj (Except.ok.inj hok)
      exact ⟨h, fun p => (if_neg List.not_mem_nil).symm⟩
  | cons reqId reqIds ih =>
      simp only [ModelRunner.removeRequests, bind_eq_ok, pure_eq_ok, Prod.exists,
        Prod.mk.injEq] at hok
      obtain ⟨_, b₁, hremove, _, b₂, hrest, -, rfl⟩ := hok
      obtain ⟨h₁, hfiled⟩ := h.removeRequest_filed hremove
      obtain ⟨h₂, hrest⟩ := ih h₁ hrest
      refine ⟨h₂, fun p => ?_⟩
      rw [hrest, hfiled]
      by_cases hp : p = reqId
      · simp [hp]
      · simp [hp]

/-! ## Adding a request -/

theorem addRequest_tables {reqIndex : Option ℕ}
    (hrefs : b.reqOutputTokenIds.length = b.reqIds.length)
    (hroom : request.blockIds.length ≤ cfg.maxNumBlocksPerReq)
    (h : b.addRequest cfg request outputTokenIds reqIndex = .ok b') :
    b'.blockTable.blockRow = Function.update b.blockTable.blockRow
        (reqIndex.getD b.numReqs) request.blockIds ∧
      b'.numComputedTokensCpu = Function.update b.numComputedTokensCpu
        (reqIndex.getD b.numReqs) request.numComputedTokens := by
  simp only [addRequest, bind_eq_ok, pure_eq_ok] at h
  obtain ⟨_, -, b₁, hslot, b₂, htokens, b₃, hmask, rfl⟩ := h
  obtain ⟨-, hb₁⟩ := addSlot_eq_ok hrefs hslot
  simp only [addTokens, bind_eq_ok, pure_eq_ok] at htokens
  obtain ⟨_, -, _, -, blockTable, htable, rfl⟩ := htokens
  obtain ⟨t, ht, hrow⟩ := BlockTable.addRow_blockRow (t := b₁.blockTable)
    (i := reqIndex.getD b.numReqs) hroom
  obtain rfl := Except.ok.inj (ht.symm.trans htable)
  rw [addLora_eq, addAllowedTokenIds_eq_ok hmask]
  refine ⟨hrow.trans ?_, ?_⟩
  · rw [hb₁]
  · rw [hb₁]
    rfl

theorem Indexed.addRequest_filed {reqIndex : Option ℕ} (h : b.Indexed)
    (hroom : request.blockIds.length ≤ cfg.maxNumBlocksPerReq)
    (habsent : ∀ i, b.slot i ≠ some request.reqId)
    (hfree : b.slot (reqIndex.getD b.numReqs) = none)
    (hok : b.addRequest cfg request outputTokenIds reqIndex = .ok b') :
    b'.filed = Function.update b.filed request.reqId
      (some (request.blockIds, request.numComputedTokens)) := by
  obtain ⟨htable, hcomputed⟩ := addRequest_tables h.refs hroom hok
  have hslot : ∀ j, b'.slot j =
      if j = reqIndex.getD b.numReqs then some request.reqId else b.slot j := by
    intro j
    have hj := congrArg Row.reqId (addRequest_row h.refs hok j)
    split_ifs at hj ⊢ <;> exact hj
  have h' := h.add habsent hfree (addRequest_frame h.refs hok) hslot
  refine h'.filed_eq_of (fun j p hp => ?_) fun p hp => ?_
  · rw [hslot] at hp
    rw [htable, hcomputed]
    split_ifs at hp with hj
    · rw [← Option.some.inj hp, hj, Function.update_self, Function.update_self,
        Function.update_self]
    · have hne : p ≠ request.reqId := by
        rintro rfl
        exact habsent j hp
      rw [Function.update_of_ne hne, Function.update_of_ne hj, Function.update_of_ne hj,
        h.filed_eq hp]
  · have hne : p ≠ request.reqId := by
      rintro rfl
      refine hp (reqIndex.getD b.numReqs) ?_
      rw [hslot, if_pos rfl]
    rw [Function.update_of_ne hne, h.filed_eq_none]
    intro j hj
    refine hp j ?_
    rw [hslot, if_neg, hj]
    rintro rfl
    rw [hfree] at hj
    cases hj

/-! ## Moving requests -/

theorem moveRequest_tables (h : moveRequest src dst b = .ok b') :
    b'.blockTable.blockRow =
        Function.update b.blockTable.blockRow dst (b.blockTable.blockRow src) ∧
      b'.numComputedTokensCpu =
        Function.update b.numComputedTokensCpu dst (b.numComputedTokensCpu src) := by
  simp only [moveRequest, bind_eq_ok] at h
  obtain ⟨x, -, h⟩ := h
  cases x with
  | none => cases h
  | some reqId =>
      simp only [bind_eq_ok, pure_eq_ok] at h
      obtain ⟨_, -, _, -, _, -, _, -, _, -, rfl⟩ := h
      exact ⟨BlockTable.moveRow_blockRow _ _ _, rfl⟩

theorem Indexed.moveRequest_filed (h : b.Indexed) (hne : dst ≠ src) (hfree : b.slot dst = none)
    (hok : moveRequest src dst b = .ok b') : b'.filed = b.filed := by
  obtain ⟨reqId, hspec⟩ := moveRequest_eq_ok hne hok
  obtain ⟨htable, hcomputed⟩ := moveRequest_tables hok
  refine (h.move hfree hspec).filed_eq_of (fun j p hp => ?_) fun p hp => ?_
  · rw [hspec.slot] at hp
    rw [htable, hcomputed]
    split_ifs at hp with hdst hsrc
    · rw [h.filed_eq hp, hdst, Function.update_self, Function.update_self]
    · rw [h.filed_eq hp, Function.update_of_ne hdst, Function.update_of_ne hdst]
  · rw [h.filed_eq_none]
    intro j hj
    have hdst : j ≠ dst := by
      rintro rfl
      rw [hfree] at hj
      cases hj
    by_cases hsrc : j = src
    · refine hp dst ?_
      rw [hspec.slot, if_pos rfl, ← hsrc, hj]
    · refine hp j ?_
      rw [hspec.slot, if_neg hdst, if_neg hsrc, hj]

/-- Condensing moves rows only. -/
theorem Indexed.condense_filed {holes : List ℕ} (h : b.Indexed) (hholes : b.Holes holes)
    (hok : b.condense holes = .ok b') : b'.filed = b.filed := by
  unfold condense at hok
  split_ifs at hok with hempty
  · obtain rfl := Except.ok.inj hok
    rfl
  · simp only [bind_eq_ok, pure_eq_ok] at hok
    obtain ⟨b₁, hfill, rfl⟩ := hok
    have hmove : ∀ (s s' : InputBatch) (src dst : ℕ), s.Indexed ∧ s.filed = b.filed → dst < src →
        (s.slot src).isSome → s.slot dst = none → moveRequest src dst s = .ok s' →
        (s'.Indexed ∧ s'.filed = b.filed) ∧ ∀ i, s'.slot i =
          if i = dst then s.slot src else if i = src then none else s.slot i := by
      intro s s' src dst hs hlt _ hfree hone
      obtain ⟨reqId, hspec⟩ := moveRequest_eq_ok (ne_of_lt hlt) hone
      refine ⟨⟨hs.1.move hfree hspec, ?_⟩, hspec.slot⟩
      exact (hs.1.moveRequest_filed (ne_of_lt hlt) hfree hone).trans hs.2
    obtain ⟨⟨-, hfiled⟩, -⟩ := Compaction.fill_spec hmove ⟨h, rfl⟩ (hholes.gaps h hempty) hfill
    exact hfiled

end InputBatch

namespace ModelRunner

open InputBatch

variable {cfg : RunnerConfig} {r r' : ModelRunner} {d : Delivery} {data : CachedRequestData}
  {request : CachedRequestState} {i : ℕ} {p q : ReqId}

/-- The blocks of a request and its number of computed tokens, as the worker knows them. -/
def card (r : ModelRunner) (q : ReqId) : Option (List BlockId × ℕ) :=
  (r.requests q).map fun request => (request.blockIds, request.numComputedTokens)

theorem card_of_requests (h : r'.requests = r.requests) : r'.card = r.card := by
  unfold card
  rw [h]

/-! ## Updating cached requests -/

theorem updateRequest_card (h : updateRequest data request r = .ok r') :
    r'.inputBatch = r.inputBatch ∧
      r'.card = Function.update r.card data.reqId
        (some (data.blocks request.blockIds, data.numComputedTokens)) := by
  simp only [updateRequest, bind_eq_ok, pure_eq_ok, Prod.exists] at h
  obtain ⟨request₁, r₁, houtput, rfl⟩ := h
  have hframe : r₁.inputBatch = r.inputBatch ∧ r₁.requests = r.requests ∧
      request₁.blockIds = request.blockIds ∧
      request₁.numComputedTokens = data.numComputedTokens := by
    unfold updateOutput at houtput
    split_ifs at houtput
    · obtain ⟨rfl, rfl⟩ := Prod.mk.inj (Except.ok.inj houtput)
      exact ⟨rfl, rfl, rfl, rfl⟩
    · simp only [bind_eq_ok, pure_eq_ok, Prod.mk.injEq] at houtput
      obtain ⟨r₂, happend, rfl, rfl⟩ := houtput
      obtain ⟨hrequests, hbatch⟩ := appendTokens_frame happend
      exact ⟨hbatch, hrequests, rfl, rfl⟩
  obtain ⟨hbatch, hrequests, hblocks, hcomputed⟩ := hframe
  refine ⟨hbatch, funext fun p => ?_⟩
  unfold card setRequest
  by_cases hp : p = data.reqId
  · simp only [hp, Function.update_self, Option.map_some, hblocks, hcomputed]
    rfl
  · simp only [Function.update_of_ne hp, hrequests]

theorem updateRow_tables {b b' : InputBatch}
    (hroom : (b.blockTable.blockRow i).length + data.newBlockIds.length ≤
      cfg.batch.maxNumBlocksPerReq)
    (hok : updateRow cfg data i b = .ok b') :
    (b.Indexed → b'.Indexed) ∧ (∀ j, b'.slot j = b.slot j) ∧
      b'.blockTable.blockRow = Function.update b.blockTable.blockRow i
        (b.blockTable.blockRow i ++ data.newBlockIds) ∧
      b'.numComputedTokensCpu =
        Function.update b.numComputedTokensCpu i data.numComputedTokens := by
  simp only [updateRow, bind_eq_ok, pure_eq_ok, Prod.exists] at hok
  obtain ⟨blockTable, htable, tokens, numTokens, -, rfl⟩ := hok
  rw [BlockTable.length_blockRow] at hroom
  obtain ⟨t, ht, hrow⟩ := BlockTable.appendRow_blockRow hroom
  obtain rfl := Except.ok.inj (ht.symm.trans htable)
  exact ⟨fun h => ⟨h.keys, h.slot_iff, h.refs⟩, fun _ => rfl, hrow, rfl⟩

/-- The row of a request that is still in the batch gets the new blocks at its end. -/
theorem updateRow_filed {b b' : InputBatch} (h : b.Indexed) (hq : b.slot i = some q)
    (hroom : (b.blockTable.blockRow i).length + data.newBlockIds.length ≤
      cfg.batch.maxNumBlocksPerReq)
    (hok : updateRow cfg data i b = .ok b') :
    b'.Indexed ∧ b'.filed = Function.update b.filed q
      (some (b.blockTable.blockRow i ++ data.newBlockIds, data.numComputedTokens)) := by
  obtain ⟨hindexed, hslot, htable, hcomputed⟩ := updateRow_tables hroom hok
  refine ⟨hindexed h, (hindexed h).filed_eq_of (fun j p hp => ?_) fun p hp => ?_⟩
  · rw [hslot] at hp
    rw [htable, hcomputed]
    by_cases hj : j = i
    · subst hj
      obtain rfl := Option.some.inj (hp.symm.trans hq)
      simp only [Function.update_self]
    · have hne : p ≠ q := by
        rintro rfl
        exact hj (h.slot_inj hp hq)
      simp only [Function.update_of_ne hne, Function.update_of_ne hj, h.filed_eq hp]
  · have hne : p ≠ q := by
      rintro rfl
      exact hp i ((hslot i).trans hq)
    rw [Function.update_of_ne hne, h.filed_eq_none]
    intro j hj
    exact hp j ((hslot j).trans hj)

/-- What the loop over the cached requests does to the blocks. -/
structure CachedFiling (datas : List CachedRequestData) (r r' : ModelRunner) : Prop where
  other : ∀ p ∉ datas.map (·.reqId),
    r'.card p = r.card p ∧ r'.inputBatch.filed p = r.inputBatch.filed p
  known : ∀ data ∈ datas, ∃ blocks n, r.card data.reqId = some (blocks, n) ∧
    r'.card data.reqId = some (data.blocks blocks, data.numComputedTokens)
  filed : ∀ data ∈ datas, r'.inputBatch.filed data.reqId =
    (r.inputBatch.filed data.reqId).map fun entry =>
      (entry.1 ++ data.newBlockIds, data.numComputedTokens)

/-- The rows of the requests have room for the new blocks. -/
def HasRoom (cfg : RunnerConfig) (filed : ReqId → Option (List BlockId × ℕ))
    (datas : List CachedRequestData) : Prop :=
  ∀ data ∈ datas, ∀ blocks n, filed data.reqId = some (blocks, n) →
    blocks.length + data.newBlockIds.length ≤ cfg.batch.maxNumBlocksPerReq

/-- The update of one cached request. -/
theorem updateCachedRequests_cons {datas : List CachedRequestData} {reqIdsToAdd : List ReqId}
    (h : r.inputBatch.Indexed) (hroom : HasRoom cfg r.inputBatch.filed (data :: datas))
    (hok : updateCachedRequests cfg (data :: datas) r = .ok (reqIdsToAdd, r')) :
    ∃ r₁ rest, updateCachedRequests cfg datas r₁ = .ok (rest, r') ∧ r₁.inputBatch.Indexed ∧
      (∃ blocks n, r.card data.reqId = some (blocks, n) ∧
        r₁.card = Function.update r.card data.reqId
          (some (data.blocks blocks, data.numComputedTokens))) ∧
      r₁.inputBatch.filed = Function.update r.inputBatch.filed data.reqId
        ((r.inputBatch.filed data.reqId).map fun entry =>
          (entry.1 ++ data.newBlockIds, data.numComputedTokens)) := by
  rw [updateCachedRequests] at hok
  split at hok
  · cases hok
  next request hrequest =>
    obtain ⟨r₁, hupdate, hok⟩ := bind_eq_ok.mp hok
    obtain ⟨hbatch, hcard⟩ := updateRequest_card hupdate
    have hknown : r.card data.reqId = some (request.blockIds, request.numComputedTokens) := by
      rw [card, hrequest, Option.map_some]
    split at hok
    next hnone =>
      simp only [bind_eq_ok, pure_eq_ok, Prod.exists, Prod.mk.injEq] at hok
      obtain ⟨rest, r₂, hrest, -, rfl⟩ := hok
      rw [hbatch] at hnone
      have hfiled : r.inputBatch.filed data.reqId = none := by
        rw [InputBatch.filed, hnone, Option.map_none]
      refine ⟨r₁, rest, hrest, hbatch ▸ h, ⟨_, _, hknown, hcard⟩, ?_⟩
      rw [hbatch, hfiled, Option.map_none, ← hfiled, Function.update_eq_self]
    next reqIndex hsome =>
      obtain ⟨b, hrow, hrest⟩ := bind_eq_ok.mp hok
      rw [hbatch] at hsome hrow
      have hslot := h.get_eq_some.mp hsome
      have hfiled := h.filed_eq hslot
      obtain ⟨hindexed, hfiled'⟩ := updateRow_filed h hslot
        (hroom data List.mem_cons_self _ _ hfiled) hrow
      refine ⟨{ r₁ with inputBatch := b }, _, hrest, hindexed, ⟨_, _, hknown, hcard⟩, ?_⟩
      rw [hfiled, Option.map_some]
      exact hfiled'

theorem updateCachedRequests_filing {datas : List CachedRequestData} {reqIdsToAdd : List ReqId}
    (hnodup : (datas.map (·.reqId)).Nodup) (h : r.inputBatch.Indexed)
    (hroom : HasRoom cfg r.inputBatch.filed datas)
    (hok : updateCachedRequests cfg datas r = .ok (reqIdsToAdd, r')) : CachedFiling datas r r' := by
  induction datas generalizing r reqIdsToAdd with
  | nil =>
      obtain ⟨-, rfl⟩ := Prod.mk.inj (Except.ok.inj hok)
      exact ⟨fun _ _ => ⟨rfl, rfl⟩, fun _ hdata => absurd hdata List.not_mem_nil,
        fun _ hdata => absurd hdata List.not_mem_nil⟩
  | cons data datas ih =>
      obtain ⟨r₁, rest, hrest, h₁, ⟨blocks, n, hknown, hcard⟩, hfiled⟩ :=
        updateCachedRequests_cons h hroom hok
      rw [List.map_cons, List.nodup_cons] at hnodup
      have hne : ∀ data' ∈ datas, data'.reqId ≠ data.reqId := fun data' hdata' heq =>
        hnodup.1 (heq ▸ List.mem_map_of_mem hdata')
      have hroom₁ : HasRoom cfg r₁.inputBatch.filed datas := by
        intro data' hdata' blocks' n' hfiled'
        rw [hfiled, Function.update_of_ne (hne data' hdata')] at hfiled'
        exact hroom data' (List.mem_cons_of_mem _ hdata') blocks' n' hfiled'
      have hspec := ih hnodup.2 h₁ hroom₁ hrest
      obtain ⟨hself, hselfFiled⟩ := hspec.other data.reqId hnodup.1
      refine ⟨fun p hp => ?_, fun data' hdata' => ?_, fun data' hdata' => ?_⟩
      · rw [List.map_cons, List.mem_cons, not_or] at hp
        obtain ⟨hother, hotherFiled⟩ := hspec.other p hp.2
        rw [hother, hotherFiled, hcard, hfiled, Function.update_of_ne hp.1,
          Function.update_of_ne hp.1]
        exact ⟨rfl, rfl⟩
      · rcases List.mem_cons.mp hdata' with rfl | hdata'
        · exact ⟨blocks, n, hknown, by rw [hself, hcard, Function.update_self]⟩
        · obtain ⟨blocks', n', hknown', hcard'⟩ := hspec.known data' hdata'
          rw [hcard, Function.update_of_ne (hne data' hdata')] at hknown'
          exact ⟨blocks', n', hknown', hcard'⟩
      · rcases List.mem_cons.mp hdata' with rfl | hdata'
        · rw [hselfFiled, hfiled, Function.update_self]
        · rw [hspec.filed data' hdata', hfiled, Function.update_of_ne (hne data' hdata')]

/-! ## New requests -/

theorem addNewRequests_card (params : ReqId → WorkerRequestParams) {datas : List NewRequestData}
    (hnodup : (datas.map (·.reqId)).Nodup)
    (hr' : r' = datas.foldl (fun r data => addNewRequest params data r) r) :
    (∀ p ∉ datas.map (·.reqId), r'.card p = r.card p) ∧
      ∀ data ∈ datas, r'.card data.reqId = some (data.blockIds, data.numComputedTokens) := by
  induction datas generalizing r with
  | nil =>
      subst hr'
      exact ⟨fun _ _ => rfl, fun _ hdata => absurd hdata List.not_mem_nil⟩
  | cons data datas ih =>
      rw [List.map_cons, List.nodup_cons] at hnodup
      obtain ⟨hother, hnew⟩ := ih (r := addNewRequest params data r) hnodup.2 hr'
      have hcard : (addNewRequest params data r).card = Function.update r.card data.reqId
          (some (data.blockIds, data.numComputedTokens)) := by
        funext p
        unfold card addNewRequest setRequest
        by_cases hp : p = data.reqId
        · simp [hp]
        · simp [hp]
      refine ⟨fun p hp => ?_, fun data' hdata' => ?_⟩
      · rw [List.map_cons, List.mem_cons, not_or] at hp
        rw [hother p hp.2, hcard, Function.update_of_ne hp.1]
      · rcases List.mem_cons.mp hdata' with rfl | hdata'
        · rw [hother _ hnodup.1, hcard, Function.update_self]
        · exact hnew data' hdata'

/-! ## Additions -/

/-- A request that is added goes to a row without one. -/
theorem head_free {b : InputBatch} {empties : List ℕ} (h : b.Indexed) (hholes : b.Holes empties) :
    b.slot (empties.head?.getD b.numReqs) = none := by
  cases empties with
  | nil =>
      have hlength := h.numReqs_add_holes (hholes.ascending.imp fun hlt => ne_of_lt hlt) hholes.mem
        fun i q hi => slot_lt hi
      rw [List.length_nil, Nat.add_zero] at hlength
      rw [List.head?_nil, Option.getD_none, slot, List.getElem?_eq_none (le_of_eq hlength.symm),
        Option.join_none]
  | cons hole holes => exact ((hholes.mem hole).mp List.mem_cons_self).2

/-- The requests that are added get the blocks that the worker knows of them. -/
theorem addRequests_filed {reqIds : List ReqId} {empties empties' : List ℕ}
    (h : Kept cfg.batch anyRow r.requests r.inputBatch) (hnamed : Named r.requests)
    (hholes : r.inputBatch.Holes empties) (hnodup : reqIds.Nodup)
    (habsent : ∀ q ∈ reqIds, ∀ i, r.inputBatch.slot i ≠ some q)
    (hroom : ∀ q blocks n, r.card q = some (blocks, n) →
      blocks.length ≤ cfg.batch.maxNumBlocksPerReq)
    (hok : addRequests cfg reqIds empties r = .ok (empties', r')) :
    ∀ p, r'.inputBatch.filed p = if p ∈ reqIds then r.card p else r.inputBatch.filed p := by
  induction reqIds generalizing empties r with
  | nil =>
      obtain ⟨-, rfl⟩ := Prod.mk.inj (Except.ok.inj hok)
      simp
  | cons q reqIds ih =>
      rw [addRequests] at hok
      split at hok
      · cases hok
      next request hrequest =>
        obtain ⟨b, hadd, hrest⟩ := bind_eq_ok.mp hok
        have hreqId := hnamed q request hrequest
        have hcard : r.card q = some (request.blockIds, request.numComputedTokens) := by
          rw [card, hrequest, Option.map_some]
        have hone : addRequests cfg [q] empties r =
            .ok (empties.tail, { r with inputBatch := b }) := by
          simp only [addRequests, hrequest, hadd, ok_bind]
        obtain ⟨hq, hnodup'⟩ := List.nodup_cons.mp hnodup
        have hfree := head_free h.indexed hholes
        have habsent' : ∀ i, r.inputBatch.slot i ≠ some request.reqId := by
          rw [hreqId]
          exact habsent q List.mem_cons_self
        have hfiled := h.indexed.addRequest_filed (hroom q _ _ hcard) habsent' hfree hadd
        rw [hreqId, ← hcard] at hfiled
        obtain ⟨hkept₁, hholes₁, -, -⟩ := addRequests_spec (anyRow_sound cfg.batch) h
          (fun _ _ _ => trivial) hnamed hholes (List.nodup_singleton q)
          (fun p hp => List.mem_singleton.mp hp ▸ habsent q List.mem_cons_self)
          (fun _ _ _ _ _ => trivial) hone
        have habsent₁ : ∀ p ∈ reqIds, ∀ i, b.slot i ≠ some p := by
          intro p hp
          have hne : p ≠ q := fun heq => hq (heq ▸ hp)
          rw [← hkept₁.indexed.filed_eq_none]
          change b.filed p = none
          rw [hfiled, Function.update_of_ne hne, h.indexed.filed_eq_none]
          exact habsent p (List.mem_cons_of_mem q hp)
        intro p
        rw [ih (r := { r with inputBatch := b }) hkept₁ hnamed hholes₁ hnodup' habsent₁ hroom hrest]
        change (if p ∈ reqIds then r.card p else b.filed p) = _
        rw [hfiled]
        by_cases hp : p = q
        · simp [hp]
        · simp [hp]

/-! ## A whole update -/

/-- The rows of the finished and the unscheduled requests go, the others stay as they are. -/
theorem removeStale_filed {empties : List ℕ} (h : r.inputBatch.Indexed)
    (hok : removeStale d r = .ok (empties, r')) (p : ReqId) :
    r'.inputBatch.filed p = if d.Stays r.inputBatch p then r.inputBatch.filed p else none := by
  simp only [removeStale, bind_eq_ok, pure_eq_ok, pyAssert_eq_ok, Prod.exists, Prod.mk.injEq]
    at hok
  obtain ⟨_, b₁, hfinished, _, b₂, hunscheduled, _, -, -, rfl⟩ := hok
  obtain ⟨h₁, hfiled₁⟩ := h.removeRequests_filed hfinished
  obtain ⟨-, hfiled₂⟩ := h₁.removeRequests_filed hunscheduled
  have habsent : ∀ {b : InputBatch}, ¬ b.Present p → b.filed p = none := by
    intro b hnot
    rw [filed, dictGet?_eq_none.mpr hnot, Option.map_none]
  have hdone : p ∈ d.finishedOrder.order d.schedulerOutput.finishedReqIds ↔
      p ∈ d.schedulerOutput.finishedReqIds := (d.finishedOrder.perm _).mem_iff
  have hgoes : p ∈ d.unscheduledOrder.order (unscheduledReqIds d.schedulerOutput b₁) ↔
      b₁.Present p ∧ p ∉ d.schedulerOutput.numScheduledTokens.map Prod.fst := by
    rw [(d.unscheduledOrder.perm _).mem_iff, unscheduledReqIds, List.mem_filter,
      decide_eq_true_eq]
    rfl
  change b₂.filed p = _
  by_cases hstays : d.Stays r.inputBatch p
  · rw [if_pos hstays, hfiled₂, if_neg (fun hmem => (hgoes.mp hmem).2 hstays.2.2), hfiled₁,
      if_neg (mt hdone.mp hstays.2.1)]
  · rw [if_neg hstays, hfiled₂]
    split_ifs with hmem
    · rfl
    · by_cases hpresent : b₁.Present p
      · have hscheduled : p ∈ d.schedulerOutput.numScheduledTokens.map Prod.fst := by
          by_contra hnot
          exact hmem (hgoes.mpr ⟨hpresent, hnot⟩)
        rw [hfiled₁]
        split_ifs with hfin
        · rfl
        · exact habsent fun hold => hstays ⟨hold, mt hdone.mpr hfin, hscheduled⟩
      · exact habsent hpresent

/-- What an update does to the blocks that the worker knows and to those in the rows. -/
structure FilingSpec (d : Delivery) (r r' : ModelRunner) : Prop where
  new : ∀ data ∈ d.schedulerOutput.scheduledNewReqs,
    r'.card data.reqId = some (data.blockIds, data.numComputedTokens)
  cached : ∀ data ∈ d.schedulerOutput.scheduledCachedReqs, ∃ blocks n,
    r.card data.reqId = some (blocks, n) ∧
      r'.card data.reqId = some (data.blocks blocks, data.numComputedTokens)
  other : ∀ p ∉ d.schedulerOutput.scheduledNewReqs.map (·.reqId) ++
      d.schedulerOutput.scheduledCachedReqs.map (·.reqId),
    r'.card p = if p ∈ d.schedulerOutput.finishedReqIds then none else r.card p
  joins : ∀ p ∈ d.joining r.inputBatch, r'.inputBatch.filed p = r'.card p
  stays : ∀ data ∈ d.schedulerOutput.scheduledCachedReqs, d.Stays r.inputBatch data.reqId →
    r'.inputBatch.filed data.reqId = (r.inputBatch.filed data.reqId).map fun entry =>
      (entry.1 ++ data.newBlockIds, data.numComputedTokens)
  unlisted : ∀ p ∉ d.schedulerOutput.scheduledNewReqs.map (·.reqId) ++
      d.schedulerOutput.scheduledCachedReqs.map (·.reqId),
    r'.inputBatch.filed p = if d.Stays r.inputBatch p then r.inputBatch.filed p else none

/-- The lists of blocks that the worker will know have room in its rows. -/
structure CardsFit (cfg : RunnerConfig) (d : Delivery) (r : ModelRunner) : Prop where
  new : ∀ data ∈ d.schedulerOutput.scheduledNewReqs,
    data.blockIds.length ≤ cfg.batch.maxNumBlocksPerReq
  cached : ∀ data ∈ d.schedulerOutput.scheduledCachedReqs, ∀ blocks n,
    r.card data.reqId = some (blocks, n) →
      (data.blocks blocks).length ≤ cfg.batch.maxNumBlocksPerReq
  other : ∀ q blocks n, r.card q = some (blocks, n) →
    blocks.length ≤ cfg.batch.maxNumBlocksPerReq

theorem updateStates_filing (h : Follows cfg anyRow r) (hwell : d.WellFormed r)
    (hroom : HasRoom cfg r.inputBatch.filed d.schedulerOutput.scheduledCachedReqs)
    (hcards : CardsFit cfg d r) (hok : updateStates cfg d r = .ok r') :
    Follows cfg anyRow r' ∧ FilingSpec d r r' := by
  have hfollows := updateStates_follows (anyRow_sound cfg.batch) h hwell
    (fun _ _ _ _ _ _ _ _ _ => trivial) (fun _ _ _ _ _ => trivial) hok
  refine ⟨hfollows, ?_⟩
  simp only [updateStates, bind_eq_ok, Prod.exists] at hok
  obtain ⟨empties, r₁, hstale, reqIdsToAdd, r₃, hcached, empties', r₄, hadd, hok⟩ := hok
  obtain ⟨hkept₁, -, hspec₁⟩ := removeStale_spec (anyRow_sound cfg.batch) h.kept h.dense hstale
  have hfiled₁ := removeStale_filed h.kept.indexed hstale
  obtain ⟨r₂, hr₂⟩ : ∃ r₂, r₂ = d.schedulerOutput.scheduledNewReqs.foldl
      (fun r data => addNewRequest d.params data r) r₁ := ⟨_, rfl⟩
  rw [← hr₂] at hcached
  obtain ⟨hnewNodup, hcachedNodup, hdisjoint⟩ := List.nodup_append.mp hwell.nodup
  obtain ⟨hbatch₂, hother₂, hnew₂⟩ := addNewRequests_spec _ _ _ hr₂
  obtain ⟨hcardOther₂, hcardNew₂⟩ := addNewRequests_card _ hnewNodup hr₂
  have hnewStays : ∀ q ∈ d.schedulerOutput.scheduledNewReqs.map (·.reqId),
      ¬ d.Stays r.inputBatch q := by
    rintro q hq ⟨hpresent, hnot, -⟩
    obtain ⟨i, hi⟩ := h.kept.indexed.present_iff.mp hpresent
    obtain ⟨request, hrequest, -⟩ := h.kept.rows i q hi
    rcases hwell.fresh q hq with hfinished | hnone
    · exact hnot hfinished
    · rw [hrequest] at hnone
      cases hnone
  have hkept₂ : Kept cfg.batch anyRow r₂.requests r₂.inputBatch := by
    rw [hbatch₂]
    exact hkept₁.congr_requests fun i q hq =>
      hother₂ q fun hmem => hnewStays q hmem ((hspec₁.slot i q).mp hq).2
  obtain ⟨hkept₃, hspec₃⟩ := updateCachedRequests_spec hkept₂
    (fun _ _ _ _ _ _ _ _ _ => trivial) hcached
  have hroom₂ : HasRoom cfg r₂.inputBatch.filed d.schedulerOutput.scheduledCachedReqs := by
    intro data hdata blocks n hfiled
    rw [hbatch₂, hfiled₁] at hfiled
    split_ifs at hfiled
    exact hroom data hdata blocks n hfiled
  have hfiling := updateCachedRequests_filing hcachedNodup hkept₂.indexed hroom₂ hcached
  have hcard₁ : ∀ p, r₁.card p =
      if p ∈ d.schedulerOutput.finishedReqIds then none else r.card p := by
    intro p
    rw [card, hspec₁.requests]
    split_ifs <;> rfl
  have hnamed₃ : Named r₃.requests := by
    intro q request hrequest
    obtain ⟨request₂, hrequest₂, hsame⟩ := hspec₃.params q request hrequest
    rw [hsame.reqId]
    by_cases hq : q ∈ d.schedulerOutput.scheduledNewReqs.map (·.reqId)
    · obtain ⟨request', hrequest', hreqId, -⟩ := hnew₂ q hq
      obtain rfl := Option.some.inj (hrequest'.symm.trans hrequest₂)
      exact hreqId
    · rw [hother₂ q hq, hspec₁.requests] at hrequest₂
      split_ifs at hrequest₂
      exact h.named q request₂ hrequest₂
  have htoAdd : d.schedulerOutput.scheduledNewReqs.map (·.reqId) ++ reqIdsToAdd =
      d.joining r.inputBatch := by
    rw [hspec₃.toAdd, Delivery.joining, hbatch₂]
    congr 1
    apply List.filter_congr
    intro q _
    have hpresent : r₁.inputBatch.Present q ↔ d.Stays r.inputBatch q := by
      rw [hkept₁.indexed.present_iff]
      constructor
      · rintro ⟨i, hi⟩
        exact ((hspec₁.slot i q).mp hi).2
      · intro hstays
        obtain ⟨i, hi⟩ := h.kept.indexed.present_iff.mp hstays.1
        exact ⟨i, (hspec₁.slot i q).mpr ⟨hi, hstays⟩⟩
    have hget : dictGet? r₁.inputBatch.reqIdToIndex q = none ↔ ¬ d.Stays r.inputBatch q := by
      rw [dictGet?_eq_none]
      exact not_congr hpresent
    rw [Bool.eq_iff_iff, Option.isNone_iff_eq_none, hget, decide_eq_true_iff]
  rw [htoAdd] at hadd
  have hslot₃ : ∀ i, r₃.inputBatch.slot i = r₁.inputBatch.slot i := by
    intro i
    rw [slot, slot, hspec₃.reqIds, hbatch₂]
  have hholes₃ : r₃.inputBatch.Holes empties := by
    refine ⟨hspec₁.holes.ascending, fun i => ?_⟩
    rw [hslot₃, hspec₃.reqIds, hbatch₂]
    exact hspec₁.holes.mem i
  have hleaves : ∀ q ∈ d.joining r.inputBatch, ¬ d.Stays r.inputBatch q := by
    intro q hq
    rcases List.mem_append.mp hq with hq | hq
    · exact hnewStays q hq
    · simpa using (List.mem_filter.mp hq).2
  have hnodup : (d.joining r.inputBatch).Nodup :=
    hwell.nodup.sublist (List.Sublist.append_left List.filter_sublist _)
  have habsent₃ : ∀ q ∈ d.joining r.inputBatch, ∀ i, r₃.inputBatch.slot i ≠ some q := by
    intro q hq i hi
    rw [hslot₃] at hi
    exact hleaves q hq ((hspec₁.slot i q).mp hi).2
  obtain ⟨hkept₄, hholes₄, hrequests₄, -⟩ := addRequests_spec (anyRow_sound cfg.batch) hkept₃
    (fun _ _ _ => trivial) hnamed₃ hholes₃ hnodup habsent₃ (fun _ _ _ _ _ => trivial) hadd
  have hend : r'.card = r₃.card ∧ r'.inputBatch.filed = r₄.inputBatch.filed := by
    split_ifs at hok
    · obtain rfl := pure_eq_ok.mp hok
      exact ⟨card_of_requests hrequests₄, rfl⟩
    · simp only [bind_eq_ok, pure_eq_ok] at hok
      obtain ⟨b, hcondense, rfl⟩ := hok
      exact ⟨card_of_requests hrequests₄, hkept₄.indexed.condense_filed hholes₄ hcondense⟩
  obtain ⟨hcard, hfiled⟩ := hend
  have hnotNew : ∀ data ∈ d.schedulerOutput.scheduledCachedReqs,
      data.reqId ∉ d.schedulerOutput.scheduledNewReqs.map (·.reqId) := fun data hdata hmem =>
    hdisjoint _ hmem _ (List.mem_map_of_mem hdata) rfl
  have hnew : ∀ data ∈ d.schedulerOutput.scheduledNewReqs,
      r'.card data.reqId = some (data.blockIds, data.numComputedTokens) := by
    intro data hdata
    have hmem : data.reqId ∈ d.schedulerOutput.scheduledNewReqs.map (·.reqId) :=
      List.mem_map_of_mem hdata
    rw [hcard, (hfiling.other _ fun hcached' => hdisjoint _ hmem _ hcached' rfl).1,
      hcardNew₂ data hdata]
  have hcached' : ∀ data ∈ d.schedulerOutput.scheduledCachedReqs, ∃ blocks n,
      r.card data.reqId = some (blocks, n) ∧
        r'.card data.reqId = some (data.blocks blocks, data.numComputedTokens) := by
    intro data hdata
    obtain ⟨blocks, n, hknown, hupdated⟩ := hfiling.known data hdata
    rw [hcardOther₂ _ (hnotNew data hdata), hcard₁] at hknown
    split_ifs at hknown
    exact ⟨blocks, n, hknown, hcard ▸ hupdated⟩
  have hother : ∀ p ∉ d.schedulerOutput.scheduledNewReqs.map (·.reqId) ++
        d.schedulerOutput.scheduledCachedReqs.map (·.reqId),
      r'.card p = if p ∈ d.schedulerOutput.finishedReqIds then none else r.card p := by
    intro p hp
    rw [List.mem_append, not_or] at hp
    rw [hcard, (hfiling.other p hp.2).1, hcardOther₂ p hp.1, hcard₁]
  have hroom' : ∀ q blocks n, r₃.card q = some (blocks, n) →
      blocks.length ≤ cfg.batch.maxNumBlocksPerReq := by
    intro q blocks n hq
    rw [← hcard] at hq
    by_cases hlisted : q ∈ d.schedulerOutput.scheduledNewReqs.map (·.reqId) ++
        d.schedulerOutput.scheduledCachedReqs.map (·.reqId)
    · rcases List.mem_append.mp hlisted with hmem | hmem
      · obtain ⟨data, hdata, rfl⟩ := List.mem_map.mp hmem
        obtain ⟨rfl, -⟩ := Prod.mk.inj (Option.some.inj ((hnew data hdata).symm.trans hq))
        exact hcards.new data hdata
      · obtain ⟨data, hdata, rfl⟩ := List.mem_map.mp hmem
        obtain ⟨blocks', n', hknown, hupdated⟩ := hcached' data hdata
        obtain ⟨rfl, -⟩ := Prod.mk.inj (Option.some.inj (hupdated.symm.trans hq))
        exact hcards.cached data hdata _ _ hknown
    · rw [hother q hlisted] at hq
      split_ifs at hq
      exact hcards.other q blocks n hq
  have hfiled₄ := addRequests_filed hkept₃ hnamed₃ hholes₃ hnodup habsent₃ hroom' hadd
  refine ⟨hnew, hcached', hother, fun p hp => ?_, fun data hdata hstays => ?_, fun p hp => ?_⟩
  · rw [hfiled, hfiled₄, if_pos hp, hcard]
  · have hnot : data.reqId ∉ d.joining r.inputBatch := fun hmem => hleaves _ hmem hstays
    rw [hfiled, hfiled₄, if_neg hnot, hfiling.filed data hdata, hbatch₂, hfiled₁,
      if_pos hstays]
  · rw [List.mem_append, not_or] at hp
    have hnot : p ∉ d.joining r.inputBatch := by
      intro hmem
      rcases List.mem_append.mp hmem with hmem | hmem
      · exact hp.1 hmem
      · exact hp.2 (List.mem_of_mem_filter hmem)
    rw [hfiled, hfiled₄, if_neg hnot, (hfiling.other p hp.2).2, hbatch₂, hfiled₁]

end ModelRunner

end Spexis
