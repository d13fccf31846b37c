import Mathlib.Algebra.Order.Floor.Extended
import Mathlib.Tactic.Positivity
import Spexis.Library.BucketSort
import Spexis.Verification.Schedule

/-! # The requests that keep speculating

The confidence drop passes the candidates in the order of their buckets, and within a
bucket in the order in which they run, until its budget is spent. -/

namespace Spexis

open Python BucketSort

namespace Request

/-- The confidences of the unverified tokens are known, and each lies between 0 and 1. -/
structure Scored (r : Request) : Prop where
  known : r.spLen ≤ r.specConfidenceList.length
  range : ∀ confidence ∈ r.specConfidenceList, 0 ≤ confidence ∧ confidence ≤ 1

instance : DecidablePred Scored := fun r =>
  decidable_of_iff (r.spLen ≤ r.specConfidenceList.length ∧
    ∀ confidence ∈ r.specConfidenceList, 0 ≤ confidence ∧ confidence ≤ 1)
    ⟨fun h => ⟨h.1, h.2⟩, fun h => ⟨h.known, h.range⟩⟩

/-- The joint confidence, where it is known. -/
def jointConfidence (r : Request) : ℚ :=
  r.specConfidence.toOption.getD 0

theorem Scored.confidence_range {r : Request} (h : r.Scored) (is : List ℕ)
    (his : ∀ i ∈ is, i < r.specConfidenceList.length) (confidence : ℚ)
    (hrange : 0 ≤ confidence ∧ confidence ≤ 1) :
    ∃ c, is.foldlM (fun confidence i => do
        return confidence * (← pyGet r.specConfidenceList (-(i + 1 : ℕ)))) confidence =
      (.ok c : Except PyError ℚ) ∧ 0 ≤ c ∧ c ≤ 1 := by
  induction is generalizing confidence with
  | nil => exact ⟨confidence, rfl, hrange⟩
  | cons i is ih =>
      have hi := his i List.mem_cons_self
      have hpos : r.specConfidenceList.length - (i + 1) < r.specConfidenceList.length := by omega
      have hget := pyGet_neg (Nat.succ_pos i) hi (List.getElem?_eq_getElem hpos)
      obtain ⟨hnonneg, hone⟩ := h.range _ (List.getElem_mem hpos)
      obtain ⟨c, hc, hcrange⟩ := ih (fun j hj => his j (List.mem_cons_of_mem i hj))
        (confidence * r.specConfidenceList[r.specConfidenceList.length - (i + 1)])
        ⟨mul_nonneg hrange.1 hnonneg, mul_le_one₀ hrange.2 hnonneg hone⟩
      refine ⟨c, ?_, hcrange⟩
      rw [List.foldlM_cons, hget]
      exact hc

theorem Scored.specConfidence {r : Request} (h : r.Scored) :
    r.specConfidence = .ok r.jointConfidence ∧ 0 ≤ r.jointConfidence ∧ r.jointConfidence ≤ 1 := by
  have hknown := h.known
  obtain ⟨c, hc, hrange⟩ := h.confidence_range (List.range r.spLen.toNat)
    (fun i hi => by have := List.mem_range.mp hi; omega) 1 ⟨zero_le_one, le_rfl⟩
  have hjoint : r.jointConfidence = c := by
    rw [jointConfidence, Request.specConfidence, hc]
    rfl
  rw [hjoint]
  exact ⟨hc, hrange⟩

/-- The confidence bucket of a request. -/
def confidenceBucket (cfg : Config) (r : Request) : ℕ :=
  min ⌊r.jointConfidence * cfg.spexis.confidenceBuckets⌋₊ (cfg.spexis.confidenceBuckets.toNat - 1)

end Request

variable {cfg : Config} {request : ReqId → Request} {running : List ReqId}

/-! ## Buckets -/

/-- The requests the confidence drop chooses from. -/
def dropCandidates (request : ReqId → Request) (running : List ReqId) : List ReqId :=
  running.filter fun reqId => (request reqId).isDropCandidate

/-- The requests that must run a real token. -/
def realRequests (request : ReqId → Request) (running : List ReqId) : List ReqId :=
  running.filter fun reqId =>
    !(request reqId).shouldPreempt && (request reqId).hasPendingRealToken

/-- The bucket of a request. -/
abbrev bucketKey (cfg : Config) (request : ReqId → Request) (reqId : ReqId) : ℕ :=
  (request reqId).confidenceBucket cfg

/-- The list of the first `n` buckets. -/
def bucketList (cfg : Config) (request : ReqId → Request) (xs : List ReqId) (n : ℕ) :
    List (List ReqId) :=
  (List.range n).map (bucket (bucketKey cfg request) xs)

theorem bucketIdx_eq {r : Request} (h : r.Scored) (hbuckets : 1 ≤ cfg.spexis.confidenceBuckets) :
    bucketIdx cfg r.jointConfidence = .ok (r.confidenceBucket cfg) ∧
      r.confidenceBucket cfg < cfg.spexis.confidenceBuckets.toNat := by
  obtain ⟨-, hnonneg, hone⟩ := h.specConfidence
  have hwidth : r.jointConfidence / (1 / (cfg.spexis.confidenceBuckets : ℚ)) =
      r.jointConfidence * cfg.spexis.confidenceBuckets := by
    rw [one_div, div_inv_eq_mul]
  have hscaled : 0 ≤ r.jointConfidence * (cfg.spexis.confidenceBuckets : ℚ) :=
    mul_nonneg hnonneg (by exact_mod_cast hbuckets.trans' zero_le_one)
  have hfloor : pyInt (r.jointConfidence * cfg.spexis.confidenceBuckets) =
      (⌊r.jointConfidence * cfg.spexis.confidenceBuckets⌋₊ : ℤ) := by
    rw [pyInt, if_pos hscaled, Int.natCast_floor_eq_floor hscaled]
  have hlt : r.confidenceBucket cfg < cfg.spexis.confidenceBuckets.toNat := by
    unfold Request.confidenceBucket
    omega
  refine ⟨?_, hlt⟩
  have hidx : min (pyInt (r.jointConfidence / (1 / (cfg.spexis.confidenceBuckets : ℚ))))
      (cfg.spexis.confidenceBuckets - 1) = (r.confidenceBucket cfg : ℤ) := by
    rw [hwidth, hfloor, Request.confidenceBucket]
    omega
  unfold bucketIdx
  simp only [hidx]
  rw [if_neg (by omega)]
  rfl

theorem bucketList_length (xs : List ReqId) (n : ℕ) :
    (bucketList cfg request xs n).length = n := by
  simp [bucketList]

theorem pyGet_bucketList {xs : List ReqId} {n i : ℕ} (h : i < n) :
    pyGet (bucketList cfg request xs n) (i : ℤ) =
      .ok (bucket (bucketKey cfg request) xs i) := by
  rw [pyGet_nat _ i (by rwa [bucketList_length])]
  simp [bucketList]

theorem bucketList_nil (n : ℕ) :
    bucketList cfg request [] n = List.replicate n [] := by
  refine List.ext_getElem (by simp [bucketList]) (fun i hi hi' => ?_)
  simp [bucketList, bucket]

theorem bucketList_snoc (xs : List ReqId) (n : ℕ) (q : ReqId) :
    bucketList cfg request (xs ++ [q]) n = (bucketList cfg request xs n).set
      (bucketKey cfg request q) (bucket (bucketKey cfg request) xs (bucketKey cfg request q) ++ [q]) := by
  apply List.ext_getElem
  · simp [bucketList]
  · intro i hi hi'
    by_cases hq : bucketKey cfg request q = i
    · subst hq
      simp [bucketList, bucket]
    · simp [bucketList, bucket, hq]

/-- The candidates end up in their buckets, in list order. -/
theorem confidenceBucketList_eq (hbuckets : 1 ≤ cfg.spexis.confidenceBuckets) (xs : List ReqId)
    (hscored : ∀ q ∈ dropCandidates request running, (request q).Scored) :
    confidenceBucketList cfg request running
        (bucketList cfg request xs cfg.spexis.confidenceBuckets.toNat) =
      .ok (bucketList cfg request (xs ++ dropCandidates request running)
        cfg.spexis.confidenceBuckets.toNat) := by
  induction running generalizing xs with
  | nil => simp [confidenceBucketList, dropCandidates]
  | cons q running ih =>
      by_cases hq : (request q).isDropCandidate = true
      · have hcons : dropCandidates request (q :: running) =
            q :: dropCandidates request running := by
          simp [dropCandidates, hq]
        rw [hcons] at hscored ⊢
        have hscore := hscored q List.mem_cons_self
        obtain ⟨hidx, hlt⟩ := bucketIdx_eq hscore hbuckets
        have hrest := ih (xs ++ [q]) (fun p hp => hscored p (List.mem_cons_of_mem q hp))
        rw [List.append_assoc, List.singleton_append] at hrest
        rw [← hrest, bucketList_snoc]
        simp only [confidenceBucketList, hq, ite_true, hscore.specConfidence.1]
        change (bucketIdx cfg (request q).jointConfidence >>= fun idx => _) = _
        rw [hidx]
        change (pyGet _ _ >>= fun bucket => _) = _
        rw [pyGet_bucketList hlt]
        rfl
      · have hcons : dropCandidates request (q :: running) = dropCandidates request running := by
          simp [dropCandidates, hq]
        rw [hcons] at hscored ⊢
        simp only [confidenceBucketList, hq]
        exact ih xs hscored

/-! ## The cut -/

/-- Where the selection of the first `k` entries stops, and what it leaves as its position. -/
inductive Cut (key : ReqId → ℕ) (xs : List ReqId) (n k : ℕ) (tmpIdx : ℤ) (tmpReqIdx : ℕ) : Prop where
  /-- Below the buckets that are passed whole. -/
  | between (j : ℕ) (hj : j ≤ n) (htmp : tmpIdx = (j : ℤ) - 1) (hreq : tmpReqIdx = 0)
      (hleft : (descending key xs n).drop k = descending key xs j)
  /-- Inside a bucket. -/
  | inside (j : ℕ) (hj : j < n) (htmp : tmpIdx = (j : ℤ) - 1) (hreq : tmpReqIdx ≠ 0)
      (hlen : tmpReqIdx < (bucket key xs j).length)
      (hleft : (descending key xs n).drop k = remaining key xs j tmpReqIdx)

theorem Cut.succ {key : ReqId → ℕ} {xs : List ReqId} {n k : ℕ} {tmpIdx : ℤ} {tmpReqIdx : ℕ}
    (hlen : (bucket key xs n).length ≤ k)
    (h : Cut key xs n (k - (bucket key xs n).length) tmpIdx tmpReqIdx) :
    Cut key xs (n + 1) k tmpIdx tmpReqIdx := by
  have hdrop : (descending key xs (n + 1)).drop k =
      (descending key xs n).drop (k - (bucket key xs n).length) := by
    rw [descending, List.drop_append, List.drop_eq_nil_of_le hlen, List.nil_append]
  cases h with
  | between j hj htmp hreq hleft => exact .between j (by omega) htmp hreq (hdrop.trans hleft)
  | inside j hj htmp hreq hin hleft =>
      exact .inside j (by omega) htmp hreq hin (hdrop.trans hleft)

theorem passBuckets_eq (cfg : Config) {xs : List ReqId} {n i k : ℕ} (hi : i ≤ n)
    (hscored : ∀ q ∈ xs, (request q).Scored) (passed : List ReqId) (maxDropped : ℚ) :
    ∃ selection, passBuckets cfg request (bucketList cfg request xs n) i k passed maxDropped =
        .ok selection ∧
      selection.passed = passed ++ (descending (bucketKey cfg request) xs i).take k ∧
      Cut (bucketKey cfg request) xs i k selection.tmpIdx selection.tmpReqIdx := by
  induction i generalizing k passed maxDropped with
  | zero => exact ⟨_, rfl, by simp [descending], .between 0 le_rfl rfl rfl (by simp [descending])⟩
  | succ i ih =>
      set key := bucketKey cfg request with hkey
      by_cases hk : k = 0
      · subst hk
        refine ⟨⟨passed, maxDropped, i, 0⟩, rfl, by simp, ?_⟩
        exact .between (i + 1) le_rfl (by simp) rfl (by simp)
      simp only [passBuckets, hk, ite_false, pyGet_bucketList (Nat.lt_of_succ_le hi)]
      by_cases hlen : (bucket key xs i).length ≤ k
      · obtain ⟨selection, hpass, hpassed, hcut⟩ := ih (by omega)
          (passed ++ bucket key xs i) (i * (1 / (cfg.spexis.confidenceBuckets : ℚ)))
          (k := k - (bucket key xs i).length)
        refine ⟨selection, ?_, ?_, hcut.succ hlen⟩
        · rw [← hpass]
          change (if (bucket key xs i).length ≤ k then _ else _) = _
          rw [if_pos hlen]
        · rw [hpassed, descending, List.take_append, List.take_of_length_le hlen,
            List.append_assoc]
      · have hk' : k < (bucket key xs i).length := not_le.mp hlen
        have hscore := hscored _ (mem_bucket.mp (List.getElem_mem hk')).1
        refine ⟨⟨passed ++ (bucket key xs i).take k, (request (bucket key xs i)[k]).jointConfidence,
          (i : ℤ) - 1, k⟩, ?_, ?_, ?_⟩
        · change (if (bucket key xs i).length ≤ k then _ else _) = _
          rw [if_neg hlen, pyGet_nat _ k hk']
          change ((request (bucket key xs i)[k]).specConfidence >>= fun confidence => _) = _
          rw [hscore.specConfidence.1]
          rfl
        · rw [descending, List.take_append_of_le_length hk'.le]
        · refine .inside i (Nat.lt_succ_self i) rfl hk hk' ?_
          rw [descending, List.drop_append_of_le_length hk'.le, remaining]

/-! ## The selection -/

/-- The number of requests that may be passed. -/
def passBudget (cfg : Config) (request : ReqId → Request) (running : List ReqId) : ℤ :=
  max (running.length - ⌊running.length * cfg.spexis.dropRatio⌋ -
    (realRequests request running).length) 0

/-- The candidates in the order in which they are passed. -/
def passOrder (cfg : Config) (request : ReqId → Request) (running : List ReqId) : List ReqId :=
  descending (bucketKey cfg request) (dropCandidates request running)
    cfg.spexis.confidenceBuckets.toNat

theorem mem_dropCandidates {q : ReqId} :
    q ∈ dropCandidates request running ↔ q ∈ running ∧ (request q).isDropCandidate = true := by
  simp [dropCandidates]

theorem passOrder_perm (hbuckets : 1 ≤ cfg.spexis.confidenceBuckets)
    (hscored : ∀ q ∈ dropCandidates request running, (request q).Scored) :
    (passOrder cfg request running).Perm (dropCandidates request running) :=
  descending_perm_self (fun q hq => (bucketIdx_eq (hscored q hq) hbuckets).2)

/-- The confidence drop in one equation: it passes the first requests of its order, and then
the boost adds to them from where the selection stopped. -/
theorem applyConfidenceDrop_eq (hbuckets : 1 ≤ cfg.spexis.confidenceBuckets)
    (hratio : 0 ≤ cfg.spexis.dropRatio)
    (hscored : ∀ q ∈ dropCandidates request running, (request q).Scored) :
    ∃ selection : DropSelection,
      applyConfidenceDrop cfg request running = (do
        let boosted ←
          if cfg.enableLaSched2 then
            lengthAwareBoost cfg request
              (bucketList cfg request (dropCandidates request running)
                cfg.spexis.confidenceBuckets.toNat) selection.tmpIdx selection.tmpReqIdx
          else .ok []
        return (selection.passed ++ boosted, selection.maxDroppedConfidence)) ∧
      selection.passed =
        (passOrder cfg request running).take (passBudget cfg request running).toNat ∧
      Cut (bucketKey cfg request) (dropCandidates request running)
        cfg.spexis.confidenceBuckets.toNat (passBudget cfg request running).toNat
        selection.tmpIdx selection.tmpReqIdx := by
  have hdropped : pyInt (running.length * cfg.spexis.dropRatio) =
      ⌊running.length * cfg.spexis.dropRatio⌋ :=
    if_pos (by positivity)
  have hbudget : ((running.length : ℤ) - ⌊running.length * cfg.spexis.dropRatio⌋ -
      (realRequests request running).length).toNat = (passBudget cfg request running).toNat := by
    unfold passBudget
    omega
  have hlist := confidenceBucketList_eq hbuckets [] hscored
  rw [bucketList_nil, List.nil_append] at hlist
  obtain ⟨selection, hselect, hpassed, hcut⟩ := passBuckets_eq cfg
    (k := (passBudget cfg request running).toNat) le_rfl hscored [] 0
  rw [List.nil_append] at hpassed
  refine ⟨selection, ?_, hpassed, hcut⟩
  unfold applyConfidenceDrop
  simp only [hlist, hdropped]
  rw [if_neg (by omega)]
  change (passBuckets _ _ _ _ ((running.length : ℤ) - ⌊running.length * cfg.spexis.dropRatio⌋ -
    (realRequests request running).length).toNat _ _ >>= fun selection => _) = _
  rw [hbudget, hselect]
  rfl

namespace Scheduling

variable {st st₁ st₂ : Scheduling}

/-- The running requests that are marked to keep speculating. -/
def passedRequests (st : Scheduling) : List ReqId :=
  st.runningScheduled.filter fun reqId => (st.request reqId).confidencePassed

/-- What the confidence drop alone does to the marks of the running requests. -/
structure ConfidenceDropSpec (cfg : Config) (st st₁ : Scheduling) : Prop where
  passed_length : (st₁.passedRequests.length : ℤ) =
    min ((dropCandidates st.request st.runningScheduled).length : ℤ)
      (passBudget cfg st.request st.runningScheduled)
  passed_subset : st₁.passedRequests ⊆ dropCandidates st.request st.runningScheduled
  bucket_le : ∀ p ∈ st₁.passedRequests, ∀ q ∈ dropCandidates st.request st.runningScheduled,
    q ∉ st₁.passedRequests →
      (st.request q).confidenceBucket cfg ≤ (st.request p).confidenceBucket cfg
  earlier : ∀ p ∈ st₁.passedRequests, ∀ q ∈ dropCandidates st.request st.runningScheduled,
    q ∉ st₁.passedRequests →
      (st.request p).confidenceBucket cfg = (st.request q).confidenceBucket cfg →
        [p, q].Sublist st.runningScheduled
  frame : ∃ passed, st₁ = st.setConfidencePassed passed

theorem mem_passedRequests_setConfidencePassed {passed : List ReqId} {q : ReqId} :
    q ∈ (st.setConfidencePassed passed).passedRequests ↔ q ∈ st.runningScheduled ∧ q ∈ passed := by
  simp +contextual [passedRequests, setConfidencePassed]

theorem passedRequests_setConfidencePassed {passed : List ReqId} (hnodup : st.runningScheduled.Nodup)
    (hpassed : passed.Nodup) (hsub : passed ⊆ st.runningScheduled) :
    (st.setConfidencePassed passed).passedRequests.Perm passed := by
  have hmarked : (st.setConfidencePassed passed).passedRequests.Nodup := hnodup.filter _
  rw [List.perm_ext_iff_of_nodup hmarked hpassed]
  intro q
  rw [mem_passedRequests_setConfidencePassed]
  exact and_iff_right_of_imp (fun hq => hsub hq)

theorem confidencePass_spec (hla : cfg.enableLaSched1 = true) (hboost : cfg.enableLaSched2 = false)
    (hbuckets : 1 ≤ cfg.spexis.confidenceBuckets) (hratio : 0 ≤ cfg.spexis.dropRatio)
    (hnodup : st.runningScheduled.Nodup)
    (hscored : ∀ q ∈ dropCandidates st.request st.runningScheduled, (st.request q).Scored) :
    ∃ st₁ maxDroppedConfidence, st.confidencePass cfg = .ok (st₁, maxDroppedConfidence) ∧
      ConfidenceDropSpec cfg st st₁ := by
  obtain ⟨selection, heq, hpassed, -⟩ := applyConfidenceDrop_eq hbuckets hratio hscored
  rw [hboost] at heq
  have hrun : st.confidencePass cfg = .ok (st.setConfidencePassed selection.passed,
      selection.maxDroppedConfidence) := by
    rw [confidencePass, if_pos hla, heq]
    change Except.ok (st.setConfidencePassed (selection.passed ++ []), _) = _
    rw [List.append_nil]
  set order := passOrder cfg st.request st.runningScheduled with horder
  set budget := passBudget cfg st.request st.runningScheduled with hbudget
  have hperm := passOrder_perm hbuckets hscored
  have hcandidates : (dropCandidates st.request st.runningScheduled).Sublist st.runningScheduled :=
    List.filter_sublist
  have hsub : selection.passed ⊆ dropCandidates st.request st.runningScheduled := by
    intro q hq
    rw [hpassed] at hq
    exact hperm.mem_iff.mp (List.mem_of_mem_take hq)
  have hmem : ∀ q, q ∈ (st.setConfidencePassed selection.passed).passedRequests ↔
      q ∈ selection.passed := by
    intro q
    rw [mem_passedRequests_setConfidencePassed]
    exact and_iff_right_of_imp (fun hq => hcandidates.subset (hsub hq))
  -- what is not passed is left in the order
  have hahead : ∀ p ∈ (st.setConfidencePassed selection.passed).passedRequests,
      ∀ q ∈ dropCandidates st.request st.runningScheduled,
      q ∉ (st.setConfidencePassed selection.passed).passedRequests →
        Ahead (bucketKey cfg st.request) (dropCandidates st.request st.runningScheduled) p q := by
    intro p hp q hq hnot
    rw [hmem] at hp hnot
    rw [hpassed] at hp hnot
    have hq' : q ∈ order := hperm.mem_iff.mpr hq
    rw [← List.take_append_drop budget.toNat order, List.mem_append] at hq'
    exact ahead_of_take_drop hp (hq'.resolve_left hnot)
  refine ⟨_, _, hrun, ⟨?_, fun q hq => hsub ((hmem q).mp hq), ?_, ?_, _, rfl⟩⟩
  · have hpassedNodup : selection.passed.Nodup := by
      rw [hpassed]
      exact (hperm.nodup_iff.mpr (hnodup.sublist hcandidates)).sublist (List.take_sublist _ _)
    have hlen := (passedRequests_setConfidencePassed hnodup hpassedNodup
      (fun q hq => hcandidates.subset (hsub hq))).length_eq
    have hnonneg : 0 ≤ budget := le_max_right _ _
    rw [hlen, hpassed, List.length_take, hperm.length_eq]
    omega
  · intro p hp q hq hnot
    rcases hahead p hp q hq hnot with hlt | ⟨hkey, -⟩
    · exact hlt.le
    · exact hkey.ge
  · intro p hp q hq hnot hkey
    rcases hahead p hp q hq hnot with hlt | ⟨-, hsublist⟩
    · exact absurd hkey hlt.ne'
    · exact hsublist.trans hcandidates

/-! ## The running loop after the selection -/

/-- A candidate that the selection did not pass. -/
def Droppable (st : Scheduling) (reqId : ReqId) : Prop :=
  reqId ∈ dropCandidates st.request st.runningScheduled ∧ reqId ∉ st.passedRequests

/-- What the running loop has done so far. -/
structure Selected (cfg : Config) (st st' : Scheduling) : Prop where
  running : st'.runningScheduled <+: st.runningScheduled
  unscheduled : ∀ q ∈ st'.runningScheduled, q ∉ st'.scheduled → st'.request q = st.request q ∨
    (st'.request q).confidenceDropped = true ∧ (st'.request q).hasPendingRealToken = false
  scheduled : ∀ q ∈ st'.scheduled,
    q ∈ realRequests st.request st.runningScheduled ∨ q ∈ st.passedRequests
  nodup : st'.scheduled.Nodup
  dropped : ∀ q, (st'.request q).confidenceDropped = true →
    (st.request q).confidenceDropped = true ∨ st.Droppable q

theorem Selected.refl (hnone : st.scheduled = []) : Selected cfg st st where
  running := List.prefix_rfl
  unscheduled := fun _ _ _ => .inl rfl
  scheduled := by simp [hnone]
  nodup := by simp [hnone]
  dropped := fun _ => .inl

theorem Selected.evict {reqId : ReqId} {xs : List ReqId} (h : Selected cfg st st₁)
    (hnodup : st.runningScheduled.Nodup) (hlast : st₁.runningScheduled = xs ++ [reqId])
    (kv : KVCacheManager) (r : Request)
    (hr : r.confidenceDropped = (st₁.request reqId).confidenceDropped) :
    Selected cfg st
      (preempt { st₁ with runningScheduled := xs, kvCacheManager := kv } reqId r) := by
  have hsub : xs <+: st₁.runningScheduled := hlast ▸ List.prefix_append _ _
  have hleft : reqId ∉ xs := by
    have hrun := hnodup.sublist h.running.sublist
    rw [hlast] at hrun
    exact fun hmem => (List.nodup_append.mp hrun).2.2 _ hmem _ List.mem_cons_self rfl
  refine ⟨?_, ?_, ?_, ?_, ?_⟩
  · rw [preempt_runningScheduled]
    exact hsub.trans h.running
  · intro q hq hsched
    rw [preempt_runningScheduled] at hq
    have hne : q ≠ reqId := by
      rintro rfl
      exact hleft hq
    rw [preempt_request_of_ne hne]
    rw [Scheduling.scheduled, preempt_numScheduledTokens] at hsched
    exact h.unscheduled q (hsub.subset hq) hsched
  · intro q hq
    rw [Scheduling.scheduled, preempt_numScheduledTokens] at hq
    exact h.scheduled q hq
  · rw [Scheduling.scheduled, preempt_numScheduledTokens]
    exact h.nodup
  · intro q hq
    by_cases heq : q = reqId
    · subst heq
      refine h.dropped q ?_
      unfold preempt at hq
      split at hq
      · simpa [Request.markForPreemption, hr] using hq
      · simp [Request.reinitialize] at hq
    · rw [preempt_request_of_ne heq] at hq
      exact h.dropped q hq

theorem Selected.assign {reqId : ReqId} {realToken : Bool} (h : Selected cfg st st₁)
    (hla : cfg.enableLaSched1 = true) (hmem : reqId ∈ st₁.runningScheduled)
    (hsched : reqId ∉ st₁.scheduled) (heligible : Eligible cfg (st₁.request reqId) realToken)
    (n : ℕ) (blocks : List BlockId) (kv : KVCacheManager) :
    Selected cfg st (assignRunning
      { st₁.setRequest reqId (claimed (st₁.request reqId) realToken) with kvCacheManager := kv }
      reqId n blocks realToken) := by
  have hrun := h.running.subset hmem
  -- a request that the loop has dropped is not eligible
  have heq : st₁.request reqId = st.request reqId := by
    refine (h.unscheduled reqId hmem hsched).resolve_right (fun hdropped => ?_)
    cases realToken with
    | true => exact Bool.noConfusion (hdropped.2.symm.trans heligible.2)
    | false => exact Bool.noConfusion (heligible.2.2.1.symm.trans hdropped.1)
  have hscheduled : (assignRunning
      { st₁.setRequest reqId (claimed (st₁.request reqId) realToken) with kvCacheManager := kv }
      reqId n blocks realToken).scheduled = st₁.scheduled ++ [reqId] :=
    assignRunning_scheduled _ _ _ _ _ hsched
  refine ⟨?_, ?_, ?_, ?_, ?_⟩
  · rw [assignRunning_runningScheduled]
    exact h.running
  · intro q hq hnot
    rw [hscheduled, List.mem_append, List.mem_singleton, not_or] at hnot
    rw [assignRunning_runningScheduled] at hq
    rw [assignRunning_request, Function.update_of_ne hnot.2]
    simp only [setRequest_request, Function.update_of_ne hnot.2]
    exact h.unscheduled q hq hnot.1
  · intro q hq
    rw [hscheduled, List.mem_append, List.mem_singleton] at hq
    rcases hq with hq | rfl
    · exact h.scheduled q hq
    · rw [heq] at heligible
      cases realToken with
      | true =>
          left
          simp [realRequests, hrun, heligible.1, heligible.2]
      | false =>
          right
          simp [passedRequests, hrun, heligible.2.2.2.2 hla]
  · rw [hscheduled]
    exact h.nodup.append_singleton hsched
  · intro q hq
    refine h.dropped q ?_
    by_cases hq' : q = reqId
    · subst hq'
      cases realToken <;> simpa [claimed] using hq
    · rw [assignRunning_request, Function.update_of_ne hq'] at hq
      simpa only [setRequest_request, Function.update_of_ne hq'] using hq

theorem Selected.drop {reqId : ReqId} (h : Selected cfg st st₁)
    (hmem : reqId ∈ st₁.runningScheduled) (hsched : reqId ∉ st₁.scheduled)
    (hcandidate : (st₁.request reqId).isDropCandidate = true)
    (hpassed : (st₁.request reqId).confidencePassed = false) :
    Selected cfg st (st₁.setRequest reqId { st₁.request reqId with
      confidenceDropped := true
      dropLen := (st₁.request reqId).spLen }) := by
  have hkeeps : (st₁.request reqId).hasPendingRealToken = false ∧
      (st₁.request reqId).confidenceDropped = false := by
    simp only [Request.isDropCandidate, not_or, Bool.not_eq_true, decide_eq_true_eq] at hcandidate
    exact ⟨hcandidate.2.1, hcandidate.2.2.1⟩
  have heq : st₁.request reqId = st.request reqId := by
    refine (h.unscheduled reqId hmem hsched).resolve_right (fun hdropped => ?_)
    exact Bool.noConfusion (hkeeps.2.symm.trans hdropped.1)
  have hdroppable : st.Droppable reqId := by
    rw [heq] at hcandidate hpassed
    refine ⟨mem_dropCandidates.mpr ⟨h.running.subset hmem, hcandidate⟩, ?_⟩
    simp [passedRequests, hpassed]
  refine ⟨h.running, ?_, h.scheduled, h.nodup, ?_⟩
  · intro q hq hnot
    by_cases hq' : q = reqId
    · subst hq'
      right
      rw [setRequest_request, Function.update_self]
      exact ⟨rfl, hkeeps.1⟩
    · rw [setRequest_request, Function.update_of_ne hq']
      exact h.unscheduled q hq hnot
  · intro q hq
    by_cases hq' : q = reqId
    · subst hq'
      exact .inr hdroppable
    · rw [setRequest_request, Function.update_of_ne hq'] at hq
      exact h.dropped q hq

theorem RunningMove.selected (hmove : RunningMove cfg st₁ st₂) (hla : cfg.enableLaSched1 = true)
    (hnodup : st.runningScheduled.Nodup) (h : Selected cfg st st₁) : Selected cfg st st₂ := by
  cases hmove with
  | allocFail => exact ⟨h.running, h.unscheduled, h.scheduled, h.nodup, h.dropped⟩
  | evict reqId realToken xs hlast =>
      refine h.evict hnodup hlast _ _ ?_
      cases realToken <;> rfl
  | assign reqId realToken n blocks kv hmem hsched heligible =>
      exact h.assign hla hmem hsched heligible n blocks kv
  | drop reqId hmem hsched hcandidate hpassed => exact h.drop hmem hsched hcandidate hpassed.2

theorem runningLoop_selected {fuel : ℕ} (hla : cfg.enableLaSched1 = true)
    (hnodup : st.runningScheduled.Nodup) (hnone : st.scheduled = [])
    (h : runningLoop cfg fuel 0 st = .ok st') : Selected cfg st st' := by
  have hmoves := runningLoop_moves hnodup (by simp [hnone]) h
  clear h
  induction hmoves with
  | refl => exact .refl hnone
  | tail _ hmove ih => exact hmove.selected hla hnodup ih

/-- Only requests with a real token to run and requests that were passed are scheduled. -/
theorem Selected.scheduled_length (h : Selected cfg st st₁) :
    st₁.scheduled.length ≤
      (realRequests st.request st.runningScheduled).length + st.passedRequests.length := by
  rw [← List.length_append]
  refine (h.nodup.subperm (fun q hq => ?_)).length_le
  rw [List.mem_append]
  exact h.scheduled q hq

theorem dropCandidates_setConfidencePassed (st : Scheduling) (passed running : List ReqId) :
    dropCandidates (st.setConfidencePassed passed).request running =
      dropCandidates st.request running := by
  refine List.filter_congr (fun q _ => ?_)
  obtain ⟨b, hb⟩ := setConfidencePassed_request st passed q
  rw [hb]
  rfl

theorem realRequests_setConfidencePassed (st : Scheduling) (passed running : List ReqId) :
    realRequests (st.setConfidencePassed passed).request running =
      realRequests st.request running := by
  refine List.filter_congr (fun q _ => ?_)
  obtain ⟨b, hb⟩ := setConfidencePassed_request st passed q
  rw [hb]
  rfl

/-- Without the boost, the confidence drop passes as many candidates as the budget allows, those
of the highest buckets first and the earliest first within a bucket. The running loop that
follows keeps to the budget and drops only candidates that were not passed. -/
theorem confidencePass_runningLoop (hla : cfg.enableLaSched1 = true)
    (hboost : cfg.enableLaSched2 = false) (hbuckets : 1 ≤ cfg.spexis.confidenceBuckets)
    (hratio : 0 ≤ cfg.spexis.dropRatio) (hnodup : st.runningScheduled.Nodup)
    (hnone : st.scheduled = [])
    (hscored : ∀ q ∈ dropCandidates st.request st.runningScheduled, (st.request q).Scored) :
    ∃ st₁ maxDroppedConfidence, st.confidencePass cfg = .ok (st₁, maxDroppedConfidence) ∧
      ConfidenceDropSpec cfg st st₁ ∧
      ∀ fuel st₂, runningLoop cfg fuel 0 st₁ = .ok st₂ →
        (st₂.scheduled.length : ℤ) ≤
          max (st.runningScheduled.length - ⌊st.runningScheduled.length * cfg.spexis.dropRatio⌋)
            (realRequests st.request st.runningScheduled).length ∧
        ∀ q, (st₂.request q).confidenceDropped = true → (st.request q).confidenceDropped = true ∨
          q ∈ dropCandidates st.request st.runningScheduled ∧ q ∉ st₁.passedRequests := by
  obtain ⟨st₁, maxDropped, hpass, hspec⟩ :=
    confidencePass_spec hla hboost hbuckets hratio hnodup hscored
  refine ⟨st₁, maxDropped, hpass, hspec, fun fuel st₂ hloop => ?_⟩
  obtain ⟨passed, rfl⟩ := hspec.frame
  have hselected : Selected cfg (st.setConfidencePassed passed) st₂ :=
    runningLoop_selected hla (by exact hnodup) (by exact hnone) hloop
  constructor
  · have hlen := hselected.scheduled_length
    have hpassed := hspec.passed_length
    rw [realRequests_setConfidencePassed] at hlen
    unfold passBudget at hpassed
    change st₂.scheduled.length ≤ (realRequests st.request st.runningScheduled).length + _ at hlen
    omega
  · intro q hq
    refine (hselected.dropped q hq).imp (fun hdropped => ?_) (fun hdroppable => ?_)
    · obtain ⟨b, hb⟩ := setConfidencePassed_request st passed q
      rwa [hb] at hdropped
    · rw [Droppable, dropCandidates_setConfidencePassed] at hdroppable
      exact hdroppable

/-- A running request with one unverified token. -/
def speculating (confidence : ℚ) (predictedLenProb : List ℚ) : Request :=
  { Request.init [7] { maxTokens := 8 } none with
    status := .running
    outputTokenIds := [3]
    allTokenIds := [7, 3]
    numComputedTokens := 1
    spLen := 1
    specConfidenceList := [confidence]
    predictedLenProb := predictedLenProb }

/-- A batch of running requests. -/
def batchOf (cfg : Config) (requests : List Request) : Scheduling :=
  { Scheduler.init cfg with
    request := fun reqId => requests.getD reqId (speculating 0 [])
    runningScheduled := List.range requests.length
    tokenBudget := cfg.maxNumScheduledTokens }

/-- Half of the batch is dropped. -/
def halfDropped : Config where
  scheduler := { maxNumSeqs := 4, maxNumBatchedTokens := 8 }
  spexis := { spexisVer := .v2_0, dropRatio := 1 / 2 }
  kvCache := { blockSize := 2, numBlocks := 16, maxModelLen := 12, numPreallocateTokens := 0 }
  pipelineParallelSize := 2

theorem confidencePass_runningLoop_batch :
    let st := batchOf halfDropped
      [speculating (1 / 2) [], speculating (9 / 10) [], speculating 1 [], speculating (1 / 5) []]
    ∃ st₁ maxDroppedConfidence, st.confidencePass halfDropped = .ok (st₁, maxDroppedConfidence) ∧
      ConfidenceDropSpec halfDropped st st₁ := by
  intro st
  obtain ⟨st₁, maxDropped, hpass, hspec, -⟩ := @confidencePass_runningLoop halfDropped
    st (by decide) (by decide) (by decide) (by decide +kernel) (by decide) rfl
    (by decide +kernel)
  exact ⟨st₁, maxDropped, hpass, hspec⟩

end Scheduling

end Spexis
