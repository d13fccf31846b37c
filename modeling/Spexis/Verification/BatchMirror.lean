import Spexis.Verification.Cluster
import Spexis.Verification.HandleInputBatch

/-! # The engine's batch mirrors the workers'

The two copies of the persistent batch take the same steps, in whatever order each of them removes
the requests. -/

namespace Spexis

open Python

/-! ## The same steps -/

namespace InputBatch

variable {cfg : BatchConfig} {b b' : InputBatch} {request : CachedRequestState} {reqId : ReqId}
  {src dst : ℕ}

/-- The part of the batch that the engine keeps too. -/
def mirror (b : InputBatch) : CPUInputBatch :=
  ⟨b.reqIds, b.reqIdToIndex⟩

@[simp] theorem numReqs_mirror (b : InputBatch) : b.mirror.numReqs = b.numReqs := rfl

theorem addSlot_mirror {i : ℕ} (h : b.addSlot request i = .ok b') :
    ∃ reqIds, CPUInputBatch.putReqId request.reqId i b.reqIds = .ok reqIds ∧
      b'.mirror = ⟨reqIds, dictSet b.reqIdToIndex request.reqId i⟩ := by
  simp only [addSlot] at h
  unfold CPUInputBatch.putReqId
  split_ifs at h ⊢ with hi
  · obtain rfl := Except.ok.inj h
    exact ⟨_, rfl, rfl⟩
  · simp only [bind_eq_ok, pure_eq_ok] at h
    obtain ⟨reqIds, hset, _, -, rfl⟩ := h
    exact ⟨reqIds, hset, rfl⟩

theorem addRequest_mirror {outputTokenIds : List TokenId} {reqIndex : Option ℕ}
    (h : b.addRequest cfg request outputTokenIds reqIndex = .ok b') :
    b.mirror.addRequest cfg.maxNumReqs request.reqId reqIndex = .ok b'.mirror := by
  simp only [addRequest, bind_eq_ok, pure_eq_ok, pyAssert_eq_ok] at h
  obtain ⟨_, hlt, b₁, hslot, b₂, htokens, b₃, hmask, rfl⟩ := h
  obtain ⟨reqIds, hids, hmirror⟩ := addSlot_mirror hslot
  have hsame : (b₃.addLora request (reqIndex.getD b.numReqs)).mirror = b₁.mirror := by
    rw [addLora_eq]
    obtain rfl := addAllowedTokenIds_eq_ok hmask
    obtain ⟨tokens, blockTable, rfl⟩ := addTokens_eq_ok htokens
    rfl
  have hassert : pyAssert (reqIndex.getD b.mirror.numReqs < cfg.maxNumReqs) "" = .ok () :=
    pyAssert_eq_ok.mpr hlt
  rw [hsame, hmirror, CPUInputBatch.addRequest, hassert, ok_bind]
  exact bind_eq_ok.mpr ⟨reqIds, hids, rfl⟩

theorem removeRequest_mirror {reqIndex : Option ℕ}
    (h : b.removeRequest reqId = .ok (reqIndex, b')) :
    b.mirror.removeRequest reqId = .ok (reqIndex, b'.mirror) := by
  unfold removeRequest at h
  unfold CPUInputBatch.removeRequest
  dsimp only [mirror]
  cases hget : dictGet? b.reqIdToIndex reqId with
  | none =>
      simp only [hget] at h
      obtain ⟨rfl, rfl⟩ := Prod.mk.inj (Except.ok.inj h)
      rfl
  | some i =>
      simp only [hget, bind_eq_ok, pure_eq_ok, Prod.mk.injEq] at h
      obtain ⟨reqIds, hset, _, -, b₁, hlora, rfl, rfl⟩ := h
      rw [removeLora_eq_ok hlora]
      dsimp only
      rw [hset, ok_bind]
      rfl

theorem moveRequest_mirror (h : moveRequest src dst b = .ok b') :
    CPUInputBatch.moveRequest src dst b.mirror = .ok b'.mirror := by
  unfold moveRequest at h
  unfold CPUInputBatch.moveRequest
  dsimp only [mirror]
  obtain ⟨x, hget, h⟩ := bind_eq_ok.mp h
  rw [hget, ok_bind]
  cases x with
  | none => cases h
  | some reqId =>
      simp only [bind_eq_ok, pure_eq_ok] at h
      obtain ⟨_, hdst, _, hsrc, _, -, _, -, _, -, rfl⟩ := h
      dsimp only
      rw [hdst, ok_bind, hsrc, ok_bind]
      rfl

theorem condense_mirror {holes : List ℕ} (h : b.condense holes = .ok b') :
    b.mirror.condense holes = .ok b'.mirror := by
  unfold condense at h
  rw [CPUInputBatch.condense, numReqs_mirror]
  split_ifs at h ⊢ with hempty
  · obtain rfl := Except.ok.inj h
    rfl
  · simp only [bind_eq_ok, pure_eq_ok] at h
    obtain ⟨b₁, hfill, rfl⟩ := h
    have hfill' : Compaction.fill CPUInputBatch.moveRequest holes (b.numReqs + holes.length - 1)
        b.mirror = .ok b₁.mirror :=
      Compaction.fill_map (fun _ _ _ _ hmove => moveRequest_mirror hmove) hfill
    dsimp only
    rw [hfill', ok_bind]
    rfl

end InputBatch

namespace ModelRunner

open InputBatch

variable {cfg : RunnerConfig} {r r' : ModelRunner} {d : Delivery}

theorem removeRequests_mirror {reqIds : List ReqId} {b b' : InputBatch} {indices : List ℕ}
    (h : removeRequests reqIds b = .ok (indices, b')) :
    b.mirror.removeRequests reqIds = .ok (indices, b'.mirror) := by
  induction reqIds generalizing b indices with
  | nil =>
      obtain ⟨rfl, rfl⟩ := Prod.mk.inj (Except.ok.inj h)
      rfl
  | cons reqId reqIds ih =>
      simp only [removeRequests, bind_eq_ok, pure_eq_ok, Prod.exists, Prod.mk.injEq] at h
      obtain ⟨reqIndex, b₁, hremove, indices, b₂, hrest, rfl, rfl⟩ := h
      rw [CPUInputBatch.removeRequests, removeRequest_mirror hremove, ok_bind]
      dsimp only
      rw [ih hrest, ok_bind]
      rfl

theorem removeStale_mirror {empties : List ℕ} (h : removeStale d r = .ok (empties, r')) :
    r.inputBatch.mirror.removeStale d.schedulerOutput d.finishedOrder d.unscheduledOrder =
      .ok (empties, r'.inputBatch.mirror) := by
  simp only [removeStale, bind_eq_ok, pure_eq_ok, pyAssert_eq_ok, Prod.exists, Prod.mk.injEq] at h
  obtain ⟨finished, b₁, hfinished, unscheduled, b₂, hunscheduled, _, hlength, rfl, rfl⟩ := h
  have hassert : pyAssert (unscheduled.length = (d.unscheduledOrder.order
      (b₁.mirror.unscheduledReqIds d.schedulerOutput)).length) "" = .ok () :=
    pyAssert_eq_ok.mpr hlength
  rw [CPUInputBatch.removeStale, removeRequests_mirror hfinished, ok_bind]
  dsimp only
  have hstale := removeRequests_mirror hunscheduled
  rw [show unscheduledReqIds d.schedulerOutput b₁ =
    b₁.mirror.unscheduledReqIds d.schedulerOutput from rfl] at hstale
  rw [hstale, ok_bind]
  dsimp only
  rw [hassert, ok_bind]
  rfl

theorem addNewRequests_named (params : ReqId → WorkerRequestParams) (datas : List NewRequestData)
    (h : Named r.requests) :
    Named (datas.foldl (fun r data => addNewRequest params data r) r).requests := by
  induction datas generalizing r with
  | nil => exact h
  | cons data datas ih =>
      refine ih fun q request hrequest => ?_
      by_cases hq : q = data.reqId
      · subst hq
        simp only [addNewRequest, setRequest, Function.update_self, Option.some.injEq] at hrequest
        rw [← hrequest]
      · exact h q request ((Function.update_of_ne hq _ _).symm.trans hrequest)

theorem updateCachedRequests_mirror {datas : List CachedRequestData} {reqIdsToAdd : List ReqId}
    (hnamed : Named r.requests) (h : updateCachedRequests cfg datas r = .ok (reqIdsToAdd, r')) :
    reqIdsToAdd = (datas.map (·.reqId)).filter
        (fun q => (dictGet? r.inputBatch.reqIdToIndex q).isNone) ∧
      r'.inputBatch.mirror = r.inputBatch.mirror ∧ Named r'.requests := by
  induction datas generalizing r reqIdsToAdd with
  | nil =>
      obtain ⟨rfl, rfl⟩ := Prod.mk.inj (Except.ok.inj h)
      exact ⟨rfl, rfl, hnamed⟩
  | cons data datas ih =>
      rw [updateCachedRequests] at h
      split at h
      · cases h
      next request hrequest =>
        obtain ⟨r₁, hupdate, h⟩ := bind_eq_ok.mp h
        obtain ⟨request₁, hspec⟩ := updateRequest_spec hupdate
        have hnamed₁ : Named r₁.requests := by
          intro q request' hq
          rw [hspec.requests] at hq
          by_cases hqd : q = data.reqId
          · rw [hqd, Function.update_self] at hq
            obtain rfl := Option.some.inj hq
            rw [hspec.params.reqId, hqd]
            exact hnamed _ _ hrequest
          · rw [Function.update_of_ne hqd] at hq
            exact hnamed q request' hq
        rw [hspec.inputBatch] at h
        split at h
        next hnone =>
          simp only [bind_eq_ok, pure_eq_ok, Prod.exists, Prod.mk.injEq] at h
          obtain ⟨reqIds, r₂, hrest, rfl, rfl⟩ := h
          obtain ⟨htoAdd, hmirror, hnamed₂⟩ := ih hnamed₁ hrest
          refine ⟨?_, by rw [hmirror, hspec.inputBatch], hnamed₂⟩
          rw [htoAdd, hspec.inputBatch, List.map_cons, List.filter_cons_of_pos]
          simp [hnone]
        next reqIndex hsome =>
          obtain ⟨b, hrow, hrest⟩ := bind_eq_ok.mp h
          obtain ⟨-, hreqIds, hindex, -⟩ := updateRow_row hrow
          have hb : b.mirror = r.inputBatch.mirror := by rw [mirror, hreqIds, hindex, mirror]
          obtain ⟨htoAdd, hmirror, hnamed₂⟩ :=
            ih (r := { r₁ with inputBatch := b }) hnamed₁ hrest
          refine ⟨?_, hmirror.trans hb, hnamed₂⟩
          rw [htoAdd, List.map_cons, List.filter_cons_of_neg]
          · simp only [hindex]
          · simp [hsome]

theorem addRequests_mirror {reqIds : List ReqId} {empties empties' : List ℕ}
    (hnamed : Named r.requests) (h : addRequests cfg reqIds empties r = .ok (empties', r')) :
    r.inputBatch.mirror.addRequests cfg.batch.maxNumReqs reqIds empties =
      .ok (empties', r'.inputBatch.mirror) := by
  induction reqIds generalizing empties r with
  | nil =>
      obtain ⟨rfl, rfl⟩ := Prod.mk.inj (Except.ok.inj h)
      rfl
  | cons reqId reqIds ih =>
      rw [addRequests] at h
      split at h
      · cases h
      next request hrequest =>
        obtain ⟨b, hadd, hrest⟩ := bind_eq_ok.mp h
        have hmirror := addRequest_mirror hadd
        rw [hnamed reqId request hrequest] at hmirror
        rw [CPUInputBatch.addRequests, hmirror, ok_bind]
        exact ih (r := { r with inputBatch := b }) hnamed hrest

/-- With the same orders of iteration the engine's batch takes the same step. -/
theorem updateStates_mirror (hnamed : Named r.requests) (h : updateStates cfg d r = .ok r') :
    r.inputBatch.mirror.updateStates cfg.batch.maxNumReqs d.schedulerOutput d.finishedOrder
      d.unscheduledOrder = .ok r'.inputBatch.mirror := by
  simp only [updateStates, bind_eq_ok, Prod.exists] at h
  obtain ⟨empties, r₁, hstale, reqIdsToAdd, r₃, hcached, empties', r₄, hadd, h⟩ := h
  have hnamed₁ : Named r₁.requests := by
    simp only [removeStale, bind_eq_ok, pure_eq_ok, Prod.exists, Prod.mk.injEq] at hstale
    obtain ⟨_, _, -, _, _, -, _, -, -, rfl⟩ := hstale
    intro q request hrequest
    dsimp only at hrequest
    split_ifs at hrequest
    exact hnamed q request hrequest
  obtain ⟨hbatch₂, -, -⟩ := addNewRequests_spec d.params d.schedulerOutput.scheduledNewReqs r₁ rfl
  obtain ⟨htoAdd, hmirror₃, hnamed₃⟩ :=
    updateCachedRequests_mirror (addNewRequests_named d.params _ hnamed₁) hcached
  have hadd' := addRequests_mirror hnamed₃ hadd
  rw [hmirror₃, hbatch₂, htoAdd, hbatch₂] at hadd'
  rw [CPUInputBatch.updateStates, removeStale_mirror hstale, ok_bind]
  dsimp only
  rw [CPUInputBatch.reqIdsToAdd]
  dsimp only [mirror] at hadd' ⊢
  rw [hadd', ok_bind]
  dsimp only
  split_ifs at h ⊢
  · obtain rfl := pure_eq_ok.mp h
    rfl
  · simp only [bind_eq_ok, pure_eq_ok] at h
    obtain ⟨b, hcondense, rfl⟩ := h
    exact condense_mirror hcondense

/-! ## Runs -/

theorem Step.follows (h : Follows cfg anyRow r) (hstep : Step cfg r d r') :
    Follows cfg anyRow r' :=
  updateStates_follows (anyRow_sound cfg.batch) h hstep.1
    (fun _ _ _ _ _ _ _ _ _ => trivial) (fun _ _ _ _ _ => trivial) hstep.2

end ModelRunner

namespace InputBatch

variable {b : InputBatch}

theorem Indexed.mirror (h : b.Indexed) : b.mirror.Indexed where
  keys := h.keys
  slot_iff q i := by
    rw [InputBatch.mirror, h.slot_iff, slot, Option.join_eq_some_iff]

theorem Indexed.mirror_rows (h : b.Indexed) (hdense : b.Dense) :
    b.mirror.Rows b.requestIds where
  indexed := h.mirror
  reqIds := hdense.reqIds_eq
  numReqs := h.numReqs_eq_length hdense

end InputBatch

/-- An output as the workers and the engine receive it, each with its own orders of iteration. -/
structure Feed where
  delivery : Delivery
  resumeHelper : ResumeHelper
  finishedOrder : IterationOrder
  unscheduledOrder : IterationOrder

namespace Feed

open InputBatch

variable {cfg : RunnerConfig} {r r' : ModelRunner} {c c' : CPUInputBatch} {feed : Feed}
  {feeds : List Feed}

abbrev output (feed : Feed) : SpexisSchedulerOutput :=
  feed.delivery.schedulerOutput

/-- The engine's batch takes the output. -/
def updateStates (maxNumReqs : ℕ) (c : CPUInputBatch) (feed : Feed) :
    Except PyError CPUInputBatch :=
  c.updateStates maxNumReqs feed.output feed.finishedOrder feed.unscheduledOrder

/-- The requests of an output are those that it schedules, each with the ids it schedules. -/
structure Emitted (feed : Feed) : Prop where
  perm : feed.output.reqIds.Perm (feed.output.numScheduledTokens.map Prod.fst)
  total : feed.output.totalNumScheduledTokens = (feed.output.numScheduledTokens.map Prod.snd).sum
  new : ∀ data ∈ feed.output.scheduledNewReqs,
    feed.output.numScheduled data.reqId ≤ data.promptTokenIds.length
  resumed : ∀ data ∈ feed.output.scheduledCachedReqs, data.resumedFromPreemption →
    ∃ tokens, dictGet? feed.resumeHelper data.reqId = some tokens ∧
      feed.output.numScheduled data.reqId ≤ tokens.length
  running : ∀ data ∈ feed.output.scheduledCachedReqs, ¬ data.resumedFromPreemption →
    data.newTokenIds.length = feed.output.numScheduled data.reqId

theorem Emitted.length_inputTokenIds (h : feed.Emitted) (hnodup : feed.output.reqIds.Nodup)
    {q : ReqId} (hq : q ∈ feed.output.reqIds) :
    (feed.output.inputTokenIds feed.resumeHelper q).length = feed.output.numScheduled q := by
  rcases List.mem_append.mp hq with hq | hq
  · obtain ⟨data, hdata, rfl⟩ := List.mem_map.mp hq
    rw [feed.output.inputTokenIds_eq hnodup
      (List.mem_append_left _ (List.mem_map_of_mem hdata)), List.length_take]
    exact min_eq_left (h.new data hdata)
  · obtain ⟨data, hdata, rfl⟩ := List.mem_map.mp hq
    rw [feed.output.inputTokenIds_eq hnodup
      (List.mem_append_right _ (List.mem_map_of_mem hdata))]
    split_ifs with hflag
    · obtain ⟨tokens, htokens, hle⟩ := h.resumed data hdata hflag
      rw [htokens, Option.getD_some, List.length_take]
      exact min_eq_left hle
    · exact h.running data hdata hflag

/-- The workers take the outputs. -/
abbrev Run (cfg : RunnerConfig) : List Feed → ModelRunner → Prop :=
  Transition.Run (fun r feed r' => ModelRunner.Step cfg r feed.delivery r') ModelRunner.init

/-- The engine's batch after an output, beside the workers'. -/
structure MirrorSpec (feed : Feed) (r : ModelRunner) (c : CPUInputBatch) : Prop where
  reqIdToIndex : c.reqIdToIndex = r.inputBatch.reqIdToIndex
  reqIds : c.reqIds = r.inputBatch.reqIds
  filled : none ∉ c.reqIds
  index : ∀ q i, dictGet? c.reqIdToIndex q = some i ↔ c.reqIds[i]? = some (some q)
  scheduled : ∀ q, q ∈ c.reqIdToIndex.map Prod.fst ↔
    q ∈ feed.output.numScheduledTokens.map Prod.fst
  bijection : Set.BijOn (dictGet? c.reqIdToIndex)
    {q | q ∈ feed.output.numScheduledTokens.map Prod.fst}
    (some '' Set.Iio feed.output.numScheduledTokens.length)
  counts : ∀ q ∈ c.reqIds.reduceOption,
    (feed.output.inputTokenIds feed.resumeHelper q).length = feed.output.numScheduled q
  tokens : ∃ tokenIds, c.reorderTokenIds feed.output feed.resumeHelper = .ok tokenIds ∧
    tokenIds = c.reqIds.reduceOption.flatMap (feed.output.inputTokenIds feed.resumeHelper) ∧
    tokenIds.length = feed.output.totalNumScheduledTokens

theorem Run.follows (hrun : Run cfg feeds r) : ModelRunner.Follows cfg InputBatch.anyRow r :=
  Transition.Run.invariant hrun (ModelRunner.init_follows (InputBatch.anyRow_sound cfg.batch))
    fun _ _ _ h hstep => hstep.follows h

theorem updateStates_mirror (h : ModelRunner.Follows cfg InputBatch.anyRow r)
    (hstep : ModelRunner.Step cfg r feed.delivery r') :
    feed.updateStates cfg.batch.maxNumReqs r.inputBatch.mirror = .ok r'.inputBatch.mirror := by
  rw [updateStates, CPUInputBatch.updateStates_orders h.kept.indexed.mirror _ _ _
    feed.delivery.finishedOrder feed.delivery.unscheduledOrder]
  exact ModelRunner.updateStates_mirror h.named hstep.2

/-- After any outputs the engine's batch is the image of the workers'. -/
theorem Run.mirror (hrun : Run cfg feeds r) :
    feeds.foldlM (fun c feed => feed.updateStates cfg.batch.maxNumReqs c) .init =
      .ok r.inputBatch.mirror := by
  induction hrun with
  | nil => rfl
  | snoc hrun hstep ih =>
      rw [List.foldlM_append, ih, ok_bind, List.foldlM_cons, updateStates_mirror (Run.follows hrun) hstep]
      rfl

theorem mirrorSpec (h : ModelRunner.Follows cfg InputBatch.anyRow r)
    (hstep : ModelRunner.Step cfg r feed.delivery r') (hemitted : feed.Emitted) :
    MirrorSpec feed r' r'.inputBatch.mirror := by
  have h' := hstep.follows h
  have hrows := h'.kept.indexed.mirror_rows h'.dense
  have hkeys : ∀ q, q ∈ r'.inputBatch.mirror.reqIdToIndex.map Prod.fst ↔
      q ∈ feed.output.numScheduledTokens.map Prod.fst := fun q =>
    CPUInputBatch.updateStates_keys h.kept.indexed.mirror hemitted.perm
      (updateStates_mirror h hstep)
  have hscheduled : ∀ q, q ∈ r'.inputBatch.requestIds ↔
      q ∈ feed.output.numScheduledTokens.map Prod.fst := by
    intro q
    rw [← hkeys, ← hrows.mem_keys]
  have hperm : r'.inputBatch.requestIds.Perm (feed.output.numScheduledTokens.map Prod.fst) :=
    (List.perm_ext_iff_of_nodup (h'.kept.indexed.nodup_requestIds h'.dense)
      (hemitted.perm.nodup_iff.mp hstep.1.nodup)).mpr hscheduled
  have hreqIds : r'.inputBatch.mirror.reqIds.reduceOption = r'.inputBatch.requestIds := rfl
  have hlisted : ∀ q, q ∈ r'.inputBatch.requestIds ↔ q ∈ feed.output.reqIds := fun q =>
    (hscheduled q).trans hemitted.perm.mem_iff.symm
  have hcounts : ∀ q ∈ r'.inputBatch.requestIds,
      (feed.output.inputTokenIds feed.resumeHelper q).length = feed.output.numScheduled q :=
    fun q hq => hemitted.length_inputTokenIds hstep.1.nodup ((hlisted q).mp hq)
  have htokens := hrows.reorderTokenIds hstep.1.nodup hlisted fun data hdata hflag => by
    obtain ⟨tokens, htokens, -⟩ := hemitted.resumed data hdata hflag
    exact Option.isSome_iff_exists.mpr ⟨tokens, htokens⟩
  have hbij := hrows.bijOn
  simp only [hscheduled, hperm.length_eq, List.length_map] at hbij
  refine ⟨rfl, rfl, ?_, fun q i => ?_, hkeys, hbij, hcounts, _, htokens, rfl, ?_⟩
  · rw [hrows.reqIds]
    simp
  · rw [hrows.get_eq_some, hrows.reqIds, List.getElem?_map]
    simp
  · have hvalues : (feed.output.numScheduledTokens.map Prod.fst).map feed.output.numScheduled =
        feed.output.numScheduledTokens.map Prod.snd :=
      map_getD_dictGet? (hemitted.perm.nodup_iff.mp hstep.1.nodup) 0
    rw [List.length_flatMap, List.map_congr_left hcounts, hemitted.total, ← hvalues]
    exact (hperm.map feed.output.numScheduled).sum_eq

def churnConfig : RunnerConfig where
  batch := { maxNumReqs := 4, maxModelLen := 16, maxNumBlocksPerReq := 4, vocabSize := 32,
             float32 := id }
  pipelineParallelSize := 2

/-- The engine removes the requests in the reverse order. -/
def churnFeed (out : SpexisSchedulerOutput) : Feed where
  delivery :=
    { schedulerOutput := out
      params := fun _ => ⟨{}, none⟩
      finishedOrder := ⟨id, List.Perm.refl⟩
      unscheduledOrder := ⟨id, List.Perm.refl⟩ }
  resumeHelper := []
  finishedOrder := ⟨List.reverse, List.reverse_perm⟩
  unscheduledOrder := ⟨List.reverse, List.reverse_perm⟩

/-- Four requests are prefilled. -/
def churnPrefill : Feed :=
  churnFeed {
    scheduledNewReqs := [⟨0, [1], [1], 0⟩, ⟨1, [2], [2], 0⟩, ⟨2, [3], [3], 0⟩, ⟨3, [4], [4], 0⟩]
    scheduledCachedReqs := []
    numScheduledTokens := [(0, 1), (1, 1), (2, 1), (3, 1)]
    totalNumScheduledTokens := 4
    finishedReqIds := [] }

/-- Request 0 has finished, requests 1 and 2 are not scheduled, and request 4 is new. -/
def churnUpdate : Feed :=
  churnFeed {
    scheduledNewReqs := [⟨4, [5, 6], [5], 0⟩]
    scheduledCachedReqs := [⟨3, false, [7], [], 1, true, 0⟩]
    numScheduledTokens := [(3, 1), (4, 2)]
    totalNumScheduledTokens := 3
    finishedReqIds := [0] }

theorem churnUpdate_emitted : churnUpdate.Emitted where
  perm := by decide
  total := rfl
  new := by decide
  resumed := by decide
  running := by decide

end Feed

namespace Cluster

open ModelRunner

variable {cfg : Config} {runner : RunnerConfig} {events : List Event} {c : Cluster}

/-- The output that an event sends to the workers. -/
def Event.delivery : Event → Option Delivery
  | .operate _ => none
  | .launch _ d => some d

/-- What the scheduler emits along a run is what the workers can take. -/
theorem Run.deliveries (hrun : Run cfg runner events c) :
    ModelRunner.Run runner (events.filterMap Event.delivery) c.worker := by
  induction hrun with
  | nil => exact .nil
  | @snoc _ c₁ _ event hrun hstep ih =>
      rw [List.filterMap_append]
      cases hstep with
      | operate =>
          rw [List.filterMap_cons_none rfl, List.filterMap_nil, List.append_nil]
          exact ih
      | launch execute d hstep hphase hupdate =>
          have hlaunch := (Step.launch execute d hstep hphase hupdate).launchSpec (Run.informed hrun)
          exact .snoc ih ⟨hlaunch.wellFormed, hupdate⟩

end Cluster

end Spexis
