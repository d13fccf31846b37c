import Spexis.Verification.ConfidenceDrop

/-! # The length-aware boost

The boost is meant to go on where the drop selection stopped. It does, unless the
selection stopped inside a bucket. -/

namespace Spexis

open Python BucketSort

variable {cfg : Config} {request : ReqId → Request} {running : List ReqId}

/-! ## Eligible requests -/

/-- Is the predicted remaining length the one to boost, and the confidence high enough? -/
def Request.isBoostable (cfg : Config) (r : Request) : Bool :=
  (boostable cfg r).toOption.getD false

/-- There is a threshold for each predicted length probability. -/
def Request.LengthPredicted (cfg : Config) (r : Request) : Prop :=
  r.predictedLenProb.length ≤ cfg.spexis.lenprobThreshold.length

instance : DecidablePred (Request.LengthPredicted cfg) := fun r =>
  inferInstanceAs (Decidable (r.predictedLenProb.length ≤ _))

theorem expectRemainLenIdx_go_ok {thresholdList : List ℚ} {idx : ℕ} {probs : List ℚ}
    (h : idx + probs.length ≤ thresholdList.length) :
    ∃ i, Request.expectRemainLenIdx.go thresholdList idx probs = .ok i := by
  induction probs generalizing idx with
  | nil => exact ⟨-1, rfl⟩
  | cons prob probs ih =>
      rw [List.length_cons] at h
      have hidx : idx < thresholdList.length := by omega
      obtain ⟨i, hi⟩ := ih (by omega : idx + 1 + probs.length ≤ thresholdList.length)
      by_cases hprob : prob ≥ thresholdList[idx]
      · refine ⟨idx, ?_⟩
        rw [Request.expectRemainLenIdx.go, pyGet_nat _ idx hidx]
        change (if prob ≥ thresholdList[idx] then _ else _) = _
        rw [if_pos hprob]
        rfl
      · refine ⟨i, ?_⟩
        rw [Request.expectRemainLenIdx.go, pyGet_nat _ idx hidx]
        change (if prob ≥ thresholdList[idx] then _ else _) = _
        rw [if_neg hprob]
        exact hi

theorem boostable_eq {r : Request} (hscored : r.Scored) (hlen : r.LengthPredicted cfg) :
    boostable cfg r = .ok (r.isBoostable cfg) := by
  obtain ⟨i, hi⟩ : ∃ i, r.expectRemainLenIdx cfg.spexis.lenprobThreshold = .ok i :=
    expectRemainLenIdx_go_ok (by simpa [Request.LengthPredicted] using hlen)
  obtain ⟨b, hb⟩ : ∃ b, boostable cfg r = .ok b := by
    unfold boostable
    rw [hi, hscored.specConfidence.1]
    change ∃ b, (if i = cfg.spexis.laSched2LenidxThre then _ else _) = Except.ok b
    split_ifs
    · exact ⟨_, rfl⟩
    · exact ⟨_, rfl⟩
  rw [Request.isBoostable, hb]
  rfl

/-- The first requests of a scan that may be boosted. -/
def boostedFrom (cfg : Config) (request : ReqId → Request) (scan : List ReqId) (m : ℤ) :
    List ReqId :=
  (scan.filter fun reqId => (request reqId).isBoostable cfg).take m.toNat

theorem boostedFrom_nonpos {scan : List ReqId} {m : ℤ} (h : m ≤ 0) :
    boostedFrom cfg request scan m = [] := by
  simp [boostedFrom, Int.toNat_of_nonpos h]

theorem boostedFrom_append (cfg : Config) (request : ReqId → Request) (scan scan' : List ReqId) (m : ℤ) :
    boostedFrom cfg request (scan ++ scan') m = boostedFrom cfg request scan m ++
      boostedFrom cfg request scan' (m - (boostedFrom cfg request scan m).length) := by
  simp only [boostedFrom, List.filter_append, List.take_append, List.length_take]
  congr 2
  omega

/-! ## The scan -/

theorem boostBucket_eq (scan : List ReqId)
    (hboost : ∀ q ∈ scan, boostable cfg (request q) = .ok ((request q).isBoostable cfg)) (m : ℤ) :
    boostBucket cfg request scan m = .ok (boostedFrom cfg request scan m,
      m - (boostedFrom cfg request scan m).length) := by
  induction scan generalizing m with
  | nil => simp [boostBucket, boostedFrom]
  | cons q scan ih =>
      have hrest := ih (fun p hp => hboost p (List.mem_cons_of_mem q hp))
      have hcons := boostedFrom_append cfg request [q] scan m
      rw [List.singleton_append] at hcons
      rw [hcons]
      have hone : boostedFrom cfg request [q] m =
          if ((request q).isBoostable cfg && decide (m > 0)) = true then [q] else [] := by
        by_cases hq : (request q).isBoostable cfg = true
        · by_cases hm : m > 0
          · have hnat : 1 ≤ m.toNat := by omega
            simp [boostedFrom, hq, hm, hnat]
          · simp [boostedFrom_nonpos (not_lt.mp hm), hm]
        · simp [boostedFrom, hq]
      have hleft : (if ((request q).isBoostable cfg && decide (m > 0)) = true then m - 1 else m) =
          m - (boostedFrom cfg request [q] m).length := by
        rw [hone]
        split_ifs <;> simp
      rw [boostBucket, hboost q List.mem_cons_self]
      change (if (if ((request q).isBoostable cfg && decide (m > 0)) = true then m - 1 else m) = 0
        then Except.ok (if ((request q).isBoostable cfg && decide (m > 0)) = true then [q] else [], 0)
        else boostBucket cfg request scan
          (if ((request q).isBoostable cfg && decide (m > 0)) = true then m - 1 else m) >>= _) = _
      rw [← hone, hleft, hrest]
      split_ifs with hzero
      · rw [boostedFrom_nonpos hzero.le, List.append_nil, hzero]
      · change Except.ok (_, _) = _
        rw [List.length_append]
        congr 2
        omega

theorem boostBuckets_eq {xs : List ReqId} {n i : ℕ} (hi : i ≤ n)
    (hboost : ∀ q ∈ xs, boostable cfg (request q) = .ok ((request q).isBoostable cfg)) (m : ℤ) :
    boostBuckets cfg request (bucketList cfg request xs n) i m =
      .ok (boostedFrom cfg request (descending (bucketKey cfg request) xs i) m) := by
  induction i generalizing m with
  | zero => simp [boostBuckets, descending, boostedFrom]
  | succ i ih =>
      have hone := boostBucket_eq (bucket (bucketKey cfg request) xs i)
        (fun q hq => hboost q (mem_bucket.mp hq).1) m
      rw [boostBuckets, pyGet_bucketList (Nat.lt_of_succ_le hi), descending, boostedFrom_append]
      change (boostBucket cfg request (bucket (bucketKey cfg request) xs i) m >>= _) = _
      rw [hone]
      change (if m - (boostedFrom cfg request (bucket (bucketKey cfg request) xs i) m).length = 0
        then Except.ok _ else boostBuckets cfg request _ i _ >>= _) = _
      split_ifs with hzero
      · rw [boostedFrom_nonpos hzero.le, List.append_nil]
      · rw [ih (by omega)]
        rfl

/-- What the boost scans when the selection stopped inside bucket `j` after `i` requests: it takes
up the bucket below, or the highest bucket when there is none. -/
def scannedAfter (cfg : Config) (request : ReqId → Request) (xs : List ReqId) (j i : ℕ) :
    List ReqId :=
  if j = 0 then
    (bucket (bucketKey cfg request) xs (cfg.spexis.confidenceBuckets.toNat - 1)).drop i
  else remaining (bucketKey cfg request) xs (j - 1) i

theorem pyGet_bucketList_wrapped {xs : List ReqId} {n : ℕ} (hn : 0 < n) :
    pyGet (bucketList cfg request xs n) (-1) = .ok (bucket (bucketKey cfg request) xs (n - 1)) := by
  refine pyGet_neg (k := 1) Nat.one_pos ?_ ?_
  · rwa [bucketList_length]
  · rw [bucketList_length]
    simp [bucketList, hn]

theorem lengthAwareBoost_between {xs : List ReqId} {n j : ℕ} (hj : j ≤ n)
    (hboost : ∀ q ∈ xs, boostable cfg (request q) = .ok ((request q).isBoostable cfg)) :
    lengthAwareBoost cfg request (bucketList cfg request xs n) ((j : ℤ) - 1) 0 =
      .ok (boostedFrom cfg request (descending (bucketKey cfg request) xs j)
        cfg.spexis.laSched2MaxReqs) := by
  unfold lengthAwareBoost
  change (if cfg.spexis.laSched2MaxReqs = 0 then Except.ok []
    else boostBuckets cfg request _ (((j : ℤ) - 1 + 1).toNat) _ >>= _) = _
  have hidx : ((j : ℤ) - 1 + 1).toNat = j := by omega
  split_ifs with hzero
  · rw [boostedFrom_nonpos hzero.le]
  · rw [hidx, boostBuckets_eq hj hboost]
    rfl

theorem lengthAwareBoost_inside {xs : List ReqId} {j i : ℕ}
    (hj : j < cfg.spexis.confidenceBuckets.toNat) (hi : i ≠ 0)
    (hboost : ∀ q ∈ xs, boostable cfg (request q) = .ok ((request q).isBoostable cfg)) :
    lengthAwareBoost cfg request (bucketList cfg request xs cfg.spexis.confidenceBuckets.toNat)
        ((j : ℤ) - 1) i =
      .ok (boostedFrom cfg request (scannedAfter cfg request xs j i)
        cfg.spexis.laSched2MaxReqs) := by
  set n := cfg.spexis.confidenceBuckets.toNat with hn
  -- the bucket that is scanned from its `i`-th request on
  obtain ⟨k, hk, hget⟩ : ∃ k, (if j = 0 then k = n - 1 else k = j - 1) ∧
      pyGet (bucketList cfg request xs n) ((j : ℤ) - 1) =
        .ok (bucket (bucketKey cfg request) xs k) := by
    by_cases hzero : j = 0
    · subst hzero
      exact ⟨n - 1, by simp, pyGet_bucketList_wrapped hj⟩
    · refine ⟨j - 1, by simp [hzero], ?_⟩
      have hcast : (j : ℤ) - 1 = ((j - 1 : ℕ) : ℤ) := by omega
      rw [hcast]
      exact pyGet_bucketList (by omega)
  have hscan : scannedAfter cfg request xs j i = (bucket (bucketKey cfg request) xs k).drop i ++
      descending (bucketKey cfg request) xs (j - 1) := by
    unfold scannedAfter
    split_ifs at hk ⊢ with hzero
    · subst hzero hk
      simp [descending, hn]
    · subst hk
      rfl
  have hbucket := boostBucket_eq ((bucket (bucketKey cfg request) xs k).drop i)
    (fun q hq => hboost q (mem_bucket.mp (List.mem_of_mem_drop hq)).1) cfg.spexis.laSched2MaxReqs
  have hidx : ((j : ℤ) - 1 - 1 + 1).toNat = j - 1 := by omega
  rw [hscan, boostedFrom_append]
  unfold lengthAwareBoost
  simp only [hi, ne_eq, not_false_eq_true, ite_true, hget]
  change (boostBucket cfg request ((bucket (bucketKey cfg request) xs k).drop i) _ >>= _) = _
  rw [hbucket]
  change (if cfg.spexis.laSched2MaxReqs - (boostedFrom cfg request _ _).length = 0 then Except.ok _
    else boostBuckets cfg request _ (((j : ℤ) - 1 - 1 + 1).toNat) _ >>= _) = _
  split_ifs with hzero
  · rw [boostedFrom_nonpos hzero.le, List.append_nil]
  · rw [hidx, boostBuckets_eq (by omega) hboost]
    rfl

/-! ## When the boost goes on where the selection stopped -/

/-- The candidates in the order of the selection, without those it passed. -/
def notPassed (cfg : Config) (request : ReqId → Request) (running : List ReqId) : List ReqId :=
  (passOrder cfg request running).drop (passBudget cfg request running).toNat

/-- The selection stops inside bucket `j`, after `i` of its requests. -/
structure SplitsBucket (cfg : Config) (request : ReqId → Request) (running : List ReqId)
    (j i : ℕ) : Prop where
  pos : 0 < i
  lt_length : i < (bucket (bucketKey cfg request) (dropCandidates request running) j).length
  left : notPassed cfg request running =
    remaining (bucketKey cfg request) (dropCandidates request running) j i

/-- Nothing that may be boosted is left in the bucket the selection stopped inside, and nothing in
what the boost passes over in the bucket below or, where there is none, scans again in the
highest bucket. -/
structure NothingSkipped (cfg : Config) (request : ReqId → Request) (candidates : List ReqId)
    (j i : ℕ) : Prop where
  rest : ∀ q ∈ (bucket (bucketKey cfg request) candidates j).drop i,
    (request q).isBoostable cfg = false
  wrapped : j = 0 → ∀ q ∈ (bucket (bucketKey cfg request) candidates
    (cfg.spexis.confidenceBuckets.toNat - 1)).drop i, (request q).isBoostable cfg = false
  below : j ≠ 0 → ∀ q ∈ (bucket (bucketKey cfg request) candidates (j - 1)).take i,
    (request q).isBoostable cfg = false

/-- The condition under which the boost goes on where the selection stopped. -/
def BoostContinues (cfg : Config) (request : ReqId → Request) (running : List ReqId) : Prop :=
  cfg.spexis.laSched2MaxReqs ≤ 0 ∨ cfg.spexis.confidenceBuckets = 1 ∨
    ∀ j i, SplitsBucket cfg request running j i →
      NothingSkipped cfg request (dropCandidates request running) j i

theorem boostedFrom_eq_nil {scan : List ReqId} {m : ℤ} (hm : 0 < m) :
    boostedFrom cfg request scan m = [] ↔ ∀ q ∈ scan, (request q).isBoostable cfg = false := by
  have hnat : m.toNat ≠ 0 := by omega
  simp [boostedFrom, List.take_eq_nil_iff, hnat]

theorem mem_of_mem_boostedFrom {scan : List ReqId} {m : ℤ} {q : ReqId}
    (h : q ∈ boostedFrom cfg request scan m) : q ∈ scan :=
  (List.mem_filter.mp (List.mem_of_mem_take h)).1

/-- A scan that leaves out the front of a list boosts the same requests only if nothing is to be
boosted there. -/
theorem boostedFrom_append_iff {front scan : List ReqId} {m : ℤ} (hm : 0 < m)
    (hdisjoint : front.Disjoint scan) :
    (∀ q, q ∈ boostedFrom cfg request scan m ↔ q ∈ boostedFrom cfg request (front ++ scan) m) ↔
      ∀ q ∈ front, (request q).isBoostable cfg = false := by
  rw [← boostedFrom_eq_nil hm]
  constructor
  · intro h
    rw [List.eq_nil_iff_forall_not_mem]
    intro q hq
    have hboth : q ∈ boostedFrom cfg request (front ++ scan) m := by
      rw [boostedFrom_append]
      exact List.mem_append_left _ hq
    exact hdisjoint (mem_of_mem_boostedFrom hq) (mem_of_mem_boostedFrom ((h q).mpr hboth))
  · intro h q
    rw [boostedFrom_append, h, List.nil_append, List.length_nil, Nat.cast_zero, sub_zero]

theorem descending_eq_remaining {key : ReqId → ℕ} {xs : List ReqId} {j : ℕ} (hj : j ≠ 0) (i : ℕ) :
    descending key xs j = (bucket key xs (j - 1)).take i ++ remaining key xs (j - 1) i := by
  obtain ⟨j, rfl⟩ := Nat.exists_eq_succ_of_ne_zero hj
  rw [descending, remaining, ← List.append_assoc, Nat.succ_sub_one, List.take_append_drop]

theorem remaining_nodup (key : ReqId → ℕ) {xs : List ReqId} (hnodup : xs.Nodup) (j i : ℕ) :
    (remaining key xs j i).Nodup := by
  have hwhole : (descending key xs (j + 1)).Nodup :=
    descending_perm.nodup_iff.mpr (hnodup.filter _)
  exact hwhole.sublist ((List.drop_sublist i _).append_right _)

theorem scannedAfter_iff {xs : List ReqId} {j i : ℕ} (hnodup : xs.Nodup)
    (hm : 0 < cfg.spexis.laSched2MaxReqs) (hn : 1 < cfg.spexis.confidenceBuckets.toNat) :
    (∀ q, q ∈ boostedFrom cfg request (scannedAfter cfg request xs j i)
        cfg.spexis.laSched2MaxReqs ↔
      q ∈ boostedFrom cfg request (remaining (bucketKey cfg request) xs j i)
        cfg.spexis.laSched2MaxReqs) ↔ NothingSkipped cfg request xs j i := by
  by_cases hj : j = 0
  · -- the highest bucket is scanned again, and it shares nothing with what is left
    subst hj
    have hleft : remaining (bucketKey cfg request) xs 0 i =
        (bucket (bucketKey cfg request) xs 0).drop i := by
      simp [remaining, descending]
    rw [hleft, scannedAfter, if_pos rfl]
    constructor
    · intro h
      have hnone : ∀ q, q ∉ boostedFrom cfg request ((bucket (bucketKey cfg request) xs
          (cfg.spexis.confidenceBuckets.toNat - 1)).drop i) cfg.spexis.laSched2MaxReqs := by
        intro q hq
        have htop := mem_bucket.mp (List.mem_of_mem_drop (mem_of_mem_boostedFrom hq))
        have hlow := mem_bucket.mp (List.mem_of_mem_drop (mem_of_mem_boostedFrom ((h q).mp hq)))
        omega
      have hnone' := fun q hq => hnone q ((h q).mpr hq)
      refine ⟨?_, fun _ => ?_, fun hne => absurd rfl hne⟩
      · exact (boostedFrom_eq_nil hm).mp (List.eq_nil_iff_forall_not_mem.mpr hnone')
      · exact (boostedFrom_eq_nil hm).mp (List.eq_nil_iff_forall_not_mem.mpr hnone)
    · intro h q
      rw [(boostedFrom_eq_nil hm).mpr h.rest, (boostedFrom_eq_nil hm).mpr (h.wrapped rfl)]
  · -- the scan leaves out the front of what is left
    have hleft : remaining (bucketKey cfg request) xs j i =
        ((bucket (bucketKey cfg request) xs j).drop i ++
          (bucket (bucketKey cfg request) xs (j - 1)).take i) ++
            remaining (bucketKey cfg request) xs (j - 1) i := by
      rw [List.append_assoc, ← descending_eq_remaining hj, remaining]
    have hsplit := remaining_nodup (bucketKey cfg request) hnodup j i
    rw [hleft] at hsplit
    rw [scannedAfter, if_neg hj, hleft, boostedFrom_append_iff hm (List.disjoint_of_nodup_append hsplit)]
    constructor
    · intro h
      exact ⟨fun q hq => h q (List.mem_append_left _ hq), fun hzero => absurd hzero hj,
        fun _ q hq => h q (List.mem_append_right _ hq)⟩
    · intro h q hq
      exact (List.mem_append.mp hq).elim (h.rest q) (h.below hj q)

theorem applyConfidenceDrop_boost_iff (hla : cfg.enableLaSched2 = true)
    (hbuckets : 1 ≤ cfg.spexis.confidenceBuckets) (hratio : 0 ≤ cfg.spexis.dropRatio)
    (hnodup : running.Nodup)
    (hscored : ∀ q ∈ dropCandidates request running, (request q).Scored)
    (hlen : ∀ q ∈ dropCandidates request running, (request q).LengthPredicted cfg) :
    ∃ boosted maxDroppedConfidence,
      applyConfidenceDrop cfg request running =
        .ok ((passOrder cfg request running).take (passBudget cfg request running).toNat ++ boosted,
          maxDroppedConfidence) ∧
      ((∀ q, q ∈ boosted ↔ q ∈ boostedFrom cfg request (notPassed cfg request running)
        cfg.spexis.laSched2MaxReqs) ↔ BoostContinues cfg request running) := by
  have hboost : ∀ q ∈ dropCandidates request running,
      boostable cfg (request q) = .ok ((request q).isBoostable cfg) :=
    fun q hq => boostable_eq (hscored q hq) (hlen q hq)
  obtain ⟨selection, heq, hpassed, hcut⟩ := applyConfidenceDrop_eq hbuckets hratio hscored
  rw [if_pos hla, hpassed] at heq
  cases hcut with
  | between j hj htmp hreq hleft =>
      rw [htmp, hreq, lengthAwareBoost_between hj hboost] at heq
      refine ⟨_, _, heq, iff_of_true (fun q => ?_) (.inr (.inr (fun j' i' hsplit => ?_)))⟩
      · rw [notPassed, passOrder, hleft]
      · have hother := hsplit.left
        rw [notPassed, passOrder, hleft] at hother
        exact absurd hother (descending_ne_remaining hsplit.pos hsplit.lt_length)
  | inside j hj htmp hreq hin hleft =>
      rw [htmp, lengthAwareBoost_inside hj hreq hboost] at heq
      refine ⟨_, _, heq, ?_⟩
      have hsplit : SplitsBucket cfg request running j selection.tmpReqIdx :=
        ⟨by omega, hin, hleft⟩
      rw [hsplit.left]
      by_cases hm : cfg.spexis.laSched2MaxReqs ≤ 0
      · refine iff_of_true (fun q => ?_) (.inl hm)
        rw [boostedFrom_nonpos hm, boostedFrom_nonpos hm]
      by_cases hone : cfg.spexis.confidenceBuckets = 1
      · refine iff_of_true (fun q => ?_) (.inr (.inl hone))
        have hzero : j = 0 := by omega
        subst hzero
        simp [scannedAfter, remaining, descending, hone]
      have hcandidates : (dropCandidates request running).Nodup := hnodup.filter _
      rw [scannedAfter_iff hcandidates (by omega) (by omega)]
      constructor
      · intro h
        refine .inr (.inr (fun j' i' hother => ?_))
        obtain ⟨rfl, rfl⟩ := remaining_inj hsplit.pos hsplit.lt_length hother.lt_length
          (hsplit.left.symm.trans hother.left)
        exact h
      · rintro (h | h | h)
        · exact absurd h hm
        · exact absurd h hone
        · exact h j selection.tmpReqIdx hsplit

namespace Scheduling

/-- Half of the batch is dropped, and up to 16 requests of the dropped half are boosted. -/
def halfBoosted : Config :=
  { halfDropped with spexis := { spexisVer := .v2_5, dropRatio := 1 / 2 } }

/-- Four requests of the same confidence that are all about to finish. -/
def aboutToFinish : Scheduling :=
  batchOf halfBoosted (List.replicate 4 (speculating (9 / 10) [1]))

end Scheduling

end Spexis
