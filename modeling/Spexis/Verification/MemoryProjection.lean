import Spexis.Verification.LengthCalc

/-! # Memory projections

Every request stays with the probability that it does not finish, and brings its tokens and the
expected new ones. -/

namespace Spexis

open Python

namespace LengthCalcConfig

variable {cfg : LengthCalcConfig} {M n : ℕ} {r : Request} {batch : List Request}

/-- The lists of the configuration line up, lengths count from one, and precisions are
probabilities. -/
structure Aligned (cfg : LengthCalcConfig) : Prop where
  expectLength : cfg.lenprobThreshold.length ≤ cfg.expectLength.length
  lenestiPrec : cfg.lenprobThreshold.length ≤ cfg.lenestiPrec.length
  length_pos : ∀ length ∈ cfg.expectLength, 1 ≤ length
  precision : ∀ prec ∈ cfg.lenestiPrec, 0 ≤ prec ∧ prec ≤ 1

/-- No more probabilities are predicted than there are thresholds. -/
def Predicted (cfg : LengthCalcConfig) (r : Request) : Prop :=
  r.predictedLenProb.length ≤ cfg.lenprobThreshold.length

/-! ## The probability to finish -/

theorem cumLenProb_nonneg (h : cfg.Estimates) (L n : ℕ) : 0 ≤ cfg.cumLenProb L n := by
  obtain ⟨d, hd, hP⟩ := h.exists_stages
  rw [cumLenProb, hP]
  exact Renewal.atLeast_nonneg h.pos.le h.reject_nonneg L n

theorem cumLenProb_le_one (h : cfg.Estimates) (L n : ℕ) : cfg.cumLenProb L n ≤ 1 := by
  obtain ⟨d, hd, hP⟩ := h.exists_stages
  rw [cumLenProb, hP]
  exact Renewal.atLeast_le_one h.pos.le h.reject_nonneg (add_sub_cancel _ _) L n

theorem expGenLen_nonneg (h : cfg.Estimates) (n : ℕ) : 0 ≤ cfg.expGenLen n := by
  rw [expGenLen_eq_lengthAt h]
  exact Renewal.lengthAt_nonneg h.pos.le h.reject_nonneg n

/-- The first threshold that is reached is one of the list. -/
theorem expectRemainLenIdx_go {thresholds : List ℚ} {idx : ℕ} {probs : List ℚ}
    (h : idx + probs.length ≤ thresholds.length) :
    Request.expectRemainLenIdx.go thresholds idx probs = .ok (-1) ∨
      ∃ k : ℕ, Request.expectRemainLenIdx.go thresholds idx probs = .ok (k : ℤ) ∧
        k < thresholds.length := by
  induction probs generalizing idx with
  | nil => exact .inl rfl
  | cons prob probs ih =>
      rw [List.length_cons] at h
      have hidx : idx < thresholds.length := by omega
      rw [Request.expectRemainLenIdx.go, pyGet_nat _ idx hidx, ok_bind]
      split_ifs
      · exact .inr ⟨idx, rfl, hidx⟩
      · exact ih (by omega)

/-- The probability that a request finishes, as the projection counts it. -/
def effProb (cfg : LengthCalcConfig) (n : ℕ) (r : Request) : ℚ :=
  match r.expectRemainLenIdx cfg.lenprobThreshold with
  | .ok remainLenIdx =>
    if remainLenIdx = -1 then 0
    else
      match pyGet cfg.expectLength remainLenIdx, pyGet cfg.lenestiPrec remainLenIdx with
      | .ok length, .ok prec => cfg.cumLenProb length n * prec
      | _, _ => 0
  | .error _ => 0

/-- A request either has no estimate, or one from each list. -/
theorem effProb_cases (ha : cfg.Aligned) (hr : cfg.Predicted r) (n : ℕ) :
    (r.expectRemainLenIdx cfg.lenprobThreshold = .ok (-1) ∧ cfg.effProb n r = 0) ∨
      ∃ (k length : ℕ) (prec : ℚ), r.expectRemainLenIdx cfg.lenprobThreshold = .ok (k : ℤ) ∧
        pyGet cfg.expectLength (k : ℤ) = .ok length ∧ 1 ≤ length ∧
        pyGet cfg.lenestiPrec (k : ℤ) = .ok prec ∧ 0 ≤ prec ∧ prec ≤ 1 ∧
        cfg.effProb n r = cfg.cumLenProb length n * prec := by
  have hbound : 0 + r.predictedLenProb.length ≤ cfg.lenprobThreshold.length := by
    rw [Nat.zero_add]
    exact hr
  rcases expectRemainLenIdx_go hbound with hnone | ⟨k, hsome, hk⟩
  · refine .inl ⟨hnone, ?_⟩
    rw [effProb, Request.expectRemainLenIdx, hnone]
    rfl
  · have hlength : k < cfg.expectLength.length := hk.trans_le ha.expectLength
    have hprec : k < cfg.lenestiPrec.length := hk.trans_le ha.lenestiPrec
    have hget := pyGet_nat cfg.expectLength k hlength
    have hget' := pyGet_nat cfg.lenestiPrec k hprec
    have hne : ¬ ((k : ℤ) = -1) := by omega
    obtain ⟨hnonneg, hle⟩ := ha.precision _ (List.getElem_mem hprec)
    refine .inr ⟨k, _, _, hsome, hget, ha.length_pos _ (List.getElem_mem hlength), hget', hnonneg,
      hle, ?_⟩
    rw [effProb, Request.expectRemainLenIdx, hsome]
    simp only [hne, ite_false, hget, hget']

theorem effProb_nonneg (h : cfg.Estimates) (ha : cfg.Aligned) (hr : cfg.Predicted r) :
    0 ≤ cfg.effProb n r := by
  rcases effProb_cases ha hr n with ⟨-, hzero⟩ | ⟨k, length, prec, -, -, -, -, hprec, -, heq⟩
  · exact hzero.ge
  · rw [heq]
    exact mul_nonneg (cumLenProb_nonneg h length n) hprec

theorem effProb_le_one (h : cfg.Estimates) (ha : cfg.Aligned) (hr : cfg.Predicted r) :
    cfg.effProb n r ≤ 1 := by
  rcases effProb_cases ha hr n with ⟨-, hzero⟩ | ⟨k, length, prec, -, -, -, -, hprec, hle, heq⟩
  · rw [hzero]
    exact zero_le_one
  · rw [heq]
    exact mul_le_one₀ (cumLenProb_le_one h length n) hprec hle

/-! ## The projection -/

/-- The part of the projection that one request contributes: it stays with what it has and what it
is expected to generate, unless it finishes. -/
def stayingTokens (cfg : LengthCalcConfig) (n : ℕ) (r : Request) : ℚ :=
  (1 - cfg.effProb n r) * (r.numTokens + cfg.expGenLen n)

theorem stayingTokens_nonneg (h : cfg.Estimates) (ha : cfg.Aligned) (hr : cfg.Predicted r) :
    0 ≤ cfg.stayingTokens n r :=
  mul_nonneg (sub_nonneg.mpr (effProb_le_one h ha hr))
    (add_nonneg (Nat.cast_nonneg _) (expGenLen_nonneg h n))

theorem stayingTokens_le (h : cfg.Estimates) (ha : cfg.Aligned) (hr : cfg.Predicted r) :
    cfg.stayingTokens n r ≤ r.numTokens + cfg.expGenLen n := by
  have hkeep : 1 - cfg.effProb n r ≤ 1 := sub_le_self 1 (effProb_nonneg h ha hr)
  exact mul_le_of_le_one_left (add_nonneg (Nat.cast_nonneg _) (expGenLen_nonneg h n)) hkeep

/-- The tokens of a batch. -/
def sumReqLen (batch : List Request) : ℕ :=
  (batch.map Request.numTokens).sum

/-- The projection is the sum over the requests. -/
theorem sum_stayingTokens (cfg : LengthCalcConfig) (n : ℕ) (batch : List Request) :
    (batch.map (cfg.stayingTokens n)).sum =
      sumReqLen batch + (batch.length - (batch.map (cfg.effProb n)).sum) * cfg.expGenLen n -
        (batch.map fun r => cfg.effProb n r * r.numTokens).sum := by
  induction batch with
  | nil => simp [sumReqLen]
  | cons r batch ih =>
      simp only [List.map_cons, List.sum_cons, List.length_cons, ih, sumReqLen, stayingTokens]
      push_cast
      ring

theorem sum_map_nonneg {f : Request → ℚ} (hf : ∀ r ∈ batch, 0 ≤ f r) : 0 ≤ (batch.map f).sum :=
  List.sum_nonneg (by simpa using hf)

theorem sum_effProb_le (h : cfg.Estimates) (ha : cfg.Aligned)
    (hbatch : ∀ r ∈ batch, cfg.Predicted r) : (batch.map (cfg.effProb n)).sum ≤ batch.length := by
  have hle := List.sum_le_card_nsmul (batch.map (cfg.effProb n)) 1 (by
    intro x hx
    obtain ⟨r, hr, rfl⟩ := List.mem_map.mp hx
    exact effProb_le_one h ha (hbatch r hr))
  simpa using hle

theorem sum_stayingTokens_le (h : cfg.Estimates) (ha : cfg.Aligned)
    (hbatch : ∀ r ∈ batch, cfg.Predicted r) :
    (batch.map (cfg.stayingTokens n)).sum ≤
      sumReqLen batch + batch.length * cfg.expGenLen n := by
  have hle : (batch.map (cfg.stayingTokens n)).sum ≤
      (batch.map fun r => (r.numTokens : ℚ) + cfg.expGenLen n).sum :=
    List.sum_le_sum fun r hr => stayingTokens_le h ha (hbatch r hr)
  have hsum : (batch.map fun r => (r.numTokens : ℚ) + cfg.expGenLen n).sum =
      sumReqLen batch + batch.length * cfg.expGenLen n := by
    rw [List.sum_map_add, List.map_const', List.sum_replicate, nsmul_eq_mul, sumReqLen]
    push_cast
    rw [List.map_map]
    rfl
  exact hle.trans hsum.le

theorem finishedContribution_eq (h : cfg.Estimates) (ha : cfg.Aligned) (hr : cfg.Predicted r)
    (n : ℕ) :
    cfg.finishedContribution n r = .ok (cfg.effProb n r, cfg.effProb n r * r.numTokens) := by
  rw [finishedContribution]
  rcases effProb_cases ha hr n with
    ⟨hnone, hzero⟩ | ⟨k, length, prec, hsome, hget, -, hprec, -, -, heq⟩
  · rw [hnone, hzero, ok_bind, if_pos rfl, zero_mul]
    rfl
  · have hne : ¬ ((k : ℤ) = -1) := by omega
    rw [hsome, heq, ok_bind, if_neg hne, cumProb_eq_cumLenProb h hget, ok_bind, hprec, ok_bind]
    rfl

/-- The calculated projection is the sum over the requests. -/
theorem calculateIterMem_eq (h : cfg.Estimates) (ha : cfg.Aligned)
    (hbatch : ∀ r ∈ batch, cfg.Predicted r) (n : ℕ) :
    cfg.calculateIterMem n (sumReqLen batch) batch =
      .ok (batch.map (cfg.stayingTokens n)).sum := by
  have hfinished : batch.mapM (cfg.finishedContribution n) =
      .ok (batch.map fun r => (cfg.effProb n r, cfg.effProb n r * r.numTokens)) :=
    mapM_eq_ok fun r hr => finishedContribution_eq h ha (hbatch r hr) n
  rw [LengthCalcConfig.calculateIterMem, hfinished, ok_bind, sum_stayingTokens, List.map_map,
    List.map_map]
  rfl

end LengthCalcConfig

open LengthCalcConfig (Aligned Estimates stayingTokens effProb effProb_cases sumReqLen
  sum_stayingTokens cumLenProb_nonneg cumLenProb_le_one sum_map_nonneg effProb_nonneg
  sum_effProb_le stayingTokens_nonneg sum_stayingTokens_le defaultConfig defaultConfig_estimates)

variable {cfg : LengthCalcConfig} {M n : ℕ} {c : LenProbCache} {e : ExpGenLenCache}
  {batch : List Request}

/-- Whatever the tables hold, the loop adds up the probabilities to finish. -/
theorem LenProbCache.Sound.expFinished (h : c.Sound cfg M) (hcfg : cfg.Estimates)
    (ha : cfg.Aligned) (hn : 1 ≤ n) (hnM : n ≤ M) (hbatch : ∀ r ∈ batch, cfg.Predicted r)
    (reqs reqlen : ℚ) : ∃ c', c'.Sound cfg M ∧
      LenProbCache.expFinished n batch reqs reqlen c =
        .ok (reqs + (batch.map (cfg.effProb n)).sum,
          reqlen + (batch.map fun r => cfg.effProb n r * r.numTokens).sum, c') := by
  induction batch generalizing c reqs reqlen with
  | nil => exact ⟨c, h, by simp [LenProbCache.expFinished]⟩
  | cons r batch ih =>
      obtain ⟨hr, hrest⟩ := List.forall_mem_cons.mp hbatch
      simp only [LenProbCache.expFinished, h.config, List.map_cons, List.sum_cons]
      rcases effProb_cases ha hr n with
        ⟨hnone, hzero⟩ | ⟨k, length, prec, hsome, hget, hpos, hprec, -, -, heq⟩
      · obtain ⟨c', hsound, hloop⟩ := ih h hrest reqs reqlen
        refine ⟨c', hsound, ?_⟩
        rw [hnone, hzero, ok_bind, if_pos rfl, hloop, zero_mul, zero_add, zero_add]
      · obtain ⟨c₁, hcum, hsound₁⟩ := h.cumProbGet hcfg hget hpos hn hnM
        obtain ⟨c', hsound, hloop⟩ := ih hsound₁ hrest (reqs + cfg.cumLenProb length n * prec)
          (reqlen + cfg.cumLenProb length n * prec * r.numTokens)
        have hne : ¬ ((k : ℤ) = -1) := by omega
        refine ⟨c', hsound, ?_⟩
        rw [hsome, heq, ok_bind, if_neg hne, hcum, ok_bind]
        simp only [hsound₁.config, hprec, ok_bind]
        rw [hloop, add_assoc, add_assoc]

/-- Whatever the tables hold, the projection is the calculated one. -/
theorem calculateIterMem_eq (he : e.Sound cfg M) (hc : c.Sound cfg M) (hcfg : cfg.Estimates)
    (ha : cfg.Aligned) (hn : 1 ≤ n) (hnM : n ≤ M) (hbatch : ∀ r ∈ batch, cfg.Predicted r) :
    ∃ e' c', calculateIterMem e c n (sumReqLen batch) batch =
      .ok ((batch.map (cfg.stayingTokens n)).sum, e', c') := by
  obtain ⟨e', hget, -⟩ := he.get hnM
  obtain ⟨c', -, hloop⟩ := hc.expFinished hcfg ha hn hnM hbatch 0 0
  refine ⟨e', c', ?_⟩
  rw [calculateIterMem, hget, ok_bind]
  simp only [hloop, ok_bind, zero_add, sum_stayingTokens]
  rfl

/-- The bounds of the projections after `n` iterations, for any tables that queries leave. -/
structure ProjectionSpec (cfg : LengthCalcConfig) (M n : ℕ) : Prop where
  /-- The probability to have finished. -/
  cumProb : ∀ c, LenProbCache.Reachable cfg M c → ∀ lenIdx length,
    pyGet cfg.expectLength lenIdx = .ok length →
      ∃ prob c', c.cumProbGet lenIdx n = .ok (prob, c') ∧ 0 ≤ prob ∧ prob ≤ 1
  /-- The expected number of finished requests. -/
  finished : ∀ c batch, LenProbCache.Reachable cfg M c → (∀ r ∈ batch, cfg.Predicted r) →
    ∃ reqs reqlen c', LenProbCache.expFinished n batch 0 0 c = .ok (reqs, reqlen, c') ∧
      0 ≤ reqs ∧ reqs ≤ batch.length
  /-- The projected memory. -/
  memory : ∀ e c batch, ExpGenLenCache.Reachable cfg M e → LenProbCache.Reachable cfg M c →
    (∀ r ∈ batch, cfg.Predicted r) → ∃ expectGenLen e₁ memory e' c',
      e.get n = .ok (expectGenLen, e₁) ∧
      calculateIterMem e c n (sumReqLen batch) batch = .ok (memory, e', c') ∧
      0 ≤ memory ∧ memory ≤ sumReqLen batch + batch.length * expectGenLen
  /-- One more request in the batch. -/
  mono : ∀ e₁ e₂ c₁ c₂ xs r ys, ExpGenLenCache.Reachable cfg M e₁ →
    ExpGenLenCache.Reachable cfg M e₂ → LenProbCache.Reachable cfg M c₁ →
    LenProbCache.Reachable cfg M c₂ → (∀ q ∈ xs ++ r :: ys, cfg.Predicted q) →
      ∃ memory memory' rest rest',
        calculateIterMem e₁ c₁ n (sumReqLen (xs ++ ys)) (xs ++ ys) = .ok (memory, rest) ∧
        calculateIterMem e₂ c₂ n (sumReqLen (xs ++ r :: ys)) (xs ++ r :: ys) =
          .ok (memory', rest') ∧
        memory ≤ memory'

theorem projectionSpec (hcfg : cfg.Estimates) (ha : cfg.Aligned) (hn : 1 ≤ n) (hnM : n ≤ M) :
    ProjectionSpec cfg M n where
  cumProb := by
    intro c hc lenIdx length hget
    have hpos : 1 ≤ length := by
      obtain ⟨k, -, hk⟩ := pyGet_eq_ok.mp hget
      exact ha.length_pos _ (List.mem_of_getElem? hk)
    obtain ⟨c', hcum, -⟩ := (hc.sound hcfg).cumProbGet hcfg hget hpos hn hnM
    exact ⟨_, c', hcum, cumLenProb_nonneg hcfg length n, cumLenProb_le_one hcfg length n⟩
  finished := by
    intro c batch hc hbatch
    obtain ⟨c', -, hloop⟩ := (hc.sound hcfg).expFinished hcfg ha hn hnM hbatch 0 0
    rw [zero_add, zero_add] at hloop
    exact ⟨_, _, c', hloop, sum_map_nonneg fun r hr => effProb_nonneg hcfg ha (hbatch r hr),
      sum_effProb_le hcfg ha hbatch⟩
  memory := by
    intro e c batch he hc hbatch
    obtain ⟨e₁, hget, -⟩ := he.sound.get hnM
    obtain ⟨e', c', hmem⟩ := calculateIterMem_eq he.sound (hc.sound hcfg) hcfg ha hn hnM hbatch
    exact ⟨_, e₁, _, e', c', hget, hmem,
      sum_map_nonneg fun r hr => stayingTokens_nonneg hcfg ha (hbatch r hr),
      sum_stayingTokens_le hcfg ha hbatch⟩
  mono := by
    intro e₁ e₂ c₁ c₂ xs r ys he₁ he₂ hc₁ hc₂ hbatch
    have hless : ∀ q ∈ xs ++ ys, cfg.Predicted q := by
      intro q hq
      refine hbatch q ?_
      rw [List.mem_append, List.mem_cons]
      exact (List.mem_append.mp hq).imp_right .inr
    obtain ⟨e', c', hmem⟩ := calculateIterMem_eq he₁.sound (hc₁.sound hcfg) hcfg ha hn hnM hless
    obtain ⟨e'', c'', hmem'⟩ :=
      calculateIterMem_eq he₂.sound (hc₂.sound hcfg) hcfg ha hn hnM hbatch
    refine ⟨_, _, (e', c'), (e'', c''), hmem, hmem', ?_⟩
    have hr := stayingTokens_nonneg (n := n) hcfg ha (hbatch r (by simp))
    simp only [List.map_append, List.map_cons, List.sum_append, List.sum_cons]
    linarith

theorem defaultConfig_aligned : defaultConfig.Aligned where
  expectLength := by decide
  lenestiPrec := by decide
  length_pos := by decide
  precision := by decide +kernel

theorem projectionSpec_default : ProjectionSpec defaultConfig 64 8 :=
  projectionSpec defaultConfig_estimates defaultConfig_aligned (by decide) (by decide)

end Spexis
