import Spexis.Library.Lists
import Spexis.Library.Renewal
import Spexis.Model.LengthCalc

/-! # Length estimates

What the two tables estimate: tokens follow one another as renewals, and a rejected token is the
long step. The memoised answers are the calculated ones, whatever was asked before. -/

namespace Spexis

open Python Finset

namespace LengthCalcConfig

variable {cfg : LengthCalcConfig} {l n L : ℕ} {lenIdx : ℤ}

/-- Pipelines with at least two stages, and an acceptance probability that is not zero. -/
structure Estimates (cfg : LengthCalcConfig) : Prop where
  ppStages : 2 ≤ cfg.ppStages
  pos : 0 < cfg.averageSpecAcc
  le_one : cfg.averageSpecAcc ≤ 1

/-- The weight of the runs of `l` tokens that take `n` iterations. -/
def lenProb (cfg : LengthCalcConfig) (l n : ℕ) : ℚ :=
  Renewal.mass cfg.averageSpecAcc (1 - cfg.averageSpecAcc) cfg.ppStages l n

/-- The weight of the runs of at least `L` tokens that end after `n` iterations. -/
def cumLenProb (cfg : LengthCalcConfig) (L n : ℕ) : ℚ :=
  Renewal.atLeast cfg.averageSpecAcc (1 - cfg.averageSpecAcc) cfg.ppStages L n

/-- The expected number of tokens completed within `n` iterations. -/
def expectedTokens (cfg : LengthCalcConfig) (n : ℕ) : ℚ :=
  Renewal.expected cfg.averageSpecAcc (1 - cfg.averageSpecAcc) cfg.ppStages n

theorem Estimates.reject_nonneg (h : cfg.Estimates) : 0 ≤ 1 - cfg.averageSpecAcc :=
  sub_nonneg.mpr h.le_one

theorem Estimates.exists_stages (h : cfg.Estimates) : ∃ d, 0 < d ∧ cfg.ppStages = d + 1 :=
  ⟨cfg.ppStages - 1, by have := h.ppStages; omega, by have := h.ppStages; omega⟩

/-! ## The calculated values -/

theorem list_range_sum (f : ℕ → ℚ) (n : ℕ) : ((List.range n).map f).sum = ∑ i ∈ range n, f i :=
  rfl

theorem expGenLen_eq_lengthAt (h : cfg.Estimates) (n : ℕ) : cfg.expGenLen n =
    Renewal.lengthAt cfg.averageSpecAcc (1 - cfg.averageSpecAcc) cfg.ppStages n := by
  obtain ⟨d, hd, hP⟩ := h.exists_stages
  rw [hP, Renewal.lengthAt_eq_sum_long hd, expGenLen, hP, list_range_sum]
  refine sum_congr rfl (fun w hw => ?_)
  have hle : w * d + w ≤ n := by
    rw [mem_range, Nat.lt_succ_iff, Nat.le_div_iff_mul_le (Nat.succ_pos d), Nat.mul_succ] at hw
    exact hw
  have htrue : n - w * (d + 1) = n - w * d - w := by rw [Nat.mul_succ, Nat.sub_add_eq]
  have hlength : n - w * d - w + w = n - w * d := by omega
  have hchoose : (n - w * d).choose (n - w * d - w) = (n - w * d).choose w :=
    Nat.choose_symm (by omega)
  simp only [htrue, hlength, hchoose]
  ring

theorem calcProbLen_eq_lenProb (h : cfg.Estimates) (hl : l ≤ n) :
    cfg.calcProbLen l n = .ok (cfg.lenProb l n) := by
  obtain ⟨d, hd, hP⟩ := h.exists_stages
  have hone : d + 1 ≠ 1 := by omega
  have hrest : (n : ℤ) - l = ((n - l : ℕ) : ℤ) := by omega
  have hstages : ((d + 1 : ℕ) : ℤ) - 1 = (d : ℤ) := by omega
  have hmod : ((n - l : ℕ) : ℤ).fmod d = ((n - l) % d : ℕ) := by
    rw [Int.fmod_eq_emod_of_nonneg _ (Int.natCast_nonneg d), Int.natCast_mod]
  simp only [calcProbLen, hP, hone, hrest, hstages, hmod, ite_false]
  by_cases hdvd : (n - l) % d = 0
  · obtain ⟨w, hw⟩ := Nat.dvd_of_mod_eq_zero hdvd
    have hdiv : ((n - l : ℕ) : ℤ).fdiv d = w := by
      rw [Int.fdiv_eq_ediv_of_nonneg _ (Int.natCast_nonneg d), hw, Nat.cast_mul,
        Int.mul_ediv_cancel_left _ (by omega)]
    have hn : n = l + w * d := by
      rw [Nat.mul_comm w d]
      omega
    have hmass : cfg.lenProb l n =
        l.choose w * cfg.averageSpecAcc ^ (l - w) * (1 - cfg.averageSpecAcc) ^ w := by
      rw [lenProb, hP, hn, Renewal.mass_eq_choose hd]
    have hpow : (l.choose w : ℚ) * cfg.averageSpecAcc ^ ((l : ℤ) - w) =
        l.choose w * cfg.averageSpecAcc ^ (l - w) := by
      rcases Nat.lt_or_ge l w with hlt | hge
      · rw [Nat.choose_eq_zero_of_lt hlt, Nat.cast_zero, zero_mul, zero_mul]
      · rw [← Nat.cast_sub hge, zpow_natCast]
    simp [hdvd, hdiv, h.pos.ne', hmass, hpow, pure, Except.pure]
  · have hzero : cfg.lenProb l n = 0 := by
      rw [lenProb, hP]
      by_contra hne
      obtain ⟨w, -, hw⟩ := Renewal.exists_of_mass_ne_zero hne
      exact hdvd (by rw [hw, Nat.add_sub_cancel_left, Nat.mul_mod_left])
    have hrest' : (((n - l) % d : ℕ) : ℤ) ≠ 0 := by omega
    rw [if_pos hrest', hzero]
    rfl

theorem sum_lenProb (cfg : LengthCalcConfig) (L n : ℕ) :
    ((List.range (n + 1 - L)).map fun k => cfg.lenProb (L + k) n).sum = cfg.cumLenProb L n := by
  rw [list_range_sum]
  exact (sum_Ico_eq_sum_range (fun l => cfg.lenProb l n) L (n + 1)).symm

theorem cumProb_eq_cumLenProb (h : cfg.Estimates) (hL : pyGet cfg.expectLength lenIdx = .ok L) :
    cfg.cumProb lenIdx n = .ok (cfg.cumLenProb L n) := by
  have hprobs : (List.range (n + 1 - L)).mapM (fun k => cfg.calcProbLen (L + k) n) =
      .ok ((List.range (n + 1 - L)).map fun k => cfg.lenProb (L + k) n) :=
    mapM_eq_ok (fun k hk => calcProbLen_eq_lenProb h (by
      rw [List.mem_range] at hk
      omega))
  rw [cumProb, hL, ok_bind, hprobs, ok_bind, sum_lenProb]
  rfl

end LengthCalcConfig

/-! ## The memoised answers -/

section ExpGenLen

variable {c c' : ExpGenLenCache} {n : ℕ} {v : ℚ}

namespace ExpGenLenCache

/-- Every entry that is not blank is the calculated value. -/
structure Sound (cfg : LengthCalcConfig) (M : ℕ) (c : ExpGenLenCache) : Prop where
  config : c.config = cfg
  maxIter : c.maxIter = M
  length : c.cache.length = M + 1
  cache : c.cache.Entries fun n v => v = -1 ∨ v = cfg.expGenLen n

/-- The tables that some queries leave behind. -/
inductive Reachable (cfg : LengthCalcConfig) (M : ℕ) : ExpGenLenCache → Prop where
  | init : Reachable cfg M (init cfg M)
  | get {c c' : ExpGenLenCache} {n : ℕ} {v : ℚ} : Reachable cfg M c →
      c.get n = .ok (v, c') → Reachable cfg M c'

variable {cfg : LengthCalcConfig} {M : ℕ}

theorem init_sound : (init cfg M).Sound cfg M where
  config := rfl
  maxIter := rfl
  length := List.length_replicate
  cache := List.Entries.replicate (fun _ => .inl rfl)

theorem Sound.get (h : c.Sound cfg M) (hn : n ≤ M) :
    ∃ c', c.get n = .ok (cfg.expGenLen n, c') ∧ c'.Sound cfg M := by
  have hlt : n < c.cache.length := by rw [h.length]; omega
  have hle : ¬ n > c.maxIter := by rw [h.maxIter]; omega
  have hentry := h.cache n _ (List.getElem?_eq_getElem hlt)
  by_cases hblank : c.cache[n] = -1
  · refine ⟨{ c with cache := c.cache.set n (cfg.expGenLen n) }, ?_, h.config, h.maxIter,
      (List.length_set ..).trans h.length, h.cache.set (.inr rfl)⟩
    have hset : pySet c.cache (n : ℤ) (cfg.expGenLen n) = .ok (c.cache.set n (cfg.expGenLen n)) :=
      pySet_eq_ok_nat.mpr ⟨hlt, rfl⟩
    simp only [ExpGenLenCache.get, hle, ite_false, pyGet_nat _ _ hlt, ok_bind, hblank, ite_true,
      h.config, hset]
    rfl
  · refine ⟨c, ?_, h⟩
    rw [ExpGenLenCache.get, if_neg hle, pyGet_nat _ _ hlt, ok_bind, if_neg hblank,
      hentry.resolve_left hblank]
    rfl

theorem le_maxIter_of_get (h : c.get n = .ok (v, c')) : n ≤ c.maxIter := by
  by_contra hgt
  rw [ExpGenLenCache.get, if_pos (not_le.mp hgt)] at h
  exact nomatch h

theorem Reachable.sound (h : Reachable cfg M c) : c.Sound cfg M := by
  induction h with
  | init => exact init_sound
  | get _ hget ih =>
      obtain ⟨c₁, hget', hsound⟩ := ih.get (ih.maxIter ▸ le_maxIter_of_get hget)
      rw [hget] at hget'
      cases hget'
      exact hsound

end ExpGenLenCache

end ExpGenLen

namespace LengthCalcConfig

variable {cfg : LengthCalcConfig} {n : ℕ}

/-- What an expected generation length should be. -/
structure ExpGenLenSpec (cfg : LengthCalcConfig) (n : ℕ) : Prop where
  expected : cfg.expGenLen n = cfg.expectedTokens n
  mono : ∀ m, 1 ≤ m → m ≤ n → cfg.expGenLen m ≤ cfg.expGenLen n
  floor : ((n / cfg.ppStages : ℕ) : ℚ) ≤ cfg.expGenLen n

/-- The renewal equation: the first token is accepted or rejected, and counts when it fits. -/
theorem expectedTokens_eq (h : cfg.Estimates) (n : ℕ) : cfg.expectedTokens n =
    cfg.averageSpecAcc * Renewal.earlier 1 (fun m => 1 + cfg.expectedTokens m) n +
      (1 - cfg.averageSpecAcc) *
        Renewal.earlier cfg.ppStages (fun m => 1 + cfg.expectedTokens m) n := by
  obtain ⟨d, hd, hP⟩ := h.exists_stages
  simpa only [expectedTokens, hP] using Renewal.expected_eq n

theorem expGenLen_eq_expectedTokens_iff (h : cfg.Estimates) (hn : 1 ≤ n) :
    cfg.expGenLen n = cfg.expectedTokens n ↔ cfg.averageSpecAcc = 1 ∨ n = 1 := by
  obtain ⟨d, hd, hP⟩ := h.exists_stages
  rw [expGenLen_eq_lengthAt h, expectedTokens, hP]
  exact Renewal.lengthAt_eq_expected_iff h.pos h.reject_nonneg (add_sub_cancel _ _) hd hn

/-- The sum leaves out the runs that have completed tokens and none at the last iteration. -/
theorem expGenLenSpec_iff (h : cfg.Estimates) (hn : 1 ≤ n) :
    cfg.ExpGenLenSpec n ↔ cfg.averageSpecAcc = 1 ∨ n = 1 := by
  constructor
  · intro hspec
    exact (expGenLen_eq_expectedTokens_iff h hn).mp hspec.expected
  · intro hcase
    obtain ⟨d, hd, hP⟩ := h.exists_stages
    have hexpected : ∀ m, 1 ≤ m → m ≤ n → cfg.expGenLen m = cfg.expectedTokens m :=
      fun m hm hmn => (expGenLen_eq_expectedTokens_iff h hm).mpr
        (hcase.imp_right (fun h1 => by omega))
    refine ⟨hexpected n hn le_rfl, fun m hm hmn => ?_, ?_⟩
    · rw [hexpected m hm hmn, hexpected n hn le_rfl]
      exact Renewal.expected_mono h.pos.le h.reject_nonneg hmn
    · rw [hexpected n hn le_rfl, expectedTokens, hP]
      exact Renewal.div_le_expected h.pos.le h.reject_nonneg (add_sub_cancel _ _) n

/-- The default tables of a pipeline of four stages. -/
def defaultConfig : LengthCalcConfig where
  ppStages := 4
  averageSpecAcc := 4 / 5
  expectLength := [4, 8, 16, 32, 64]
  lenprobThreshold := List.replicate 5 (1 / 2)
  lenestiPrec := [727 / 1000, 7423 / 10000, 7709 / 10000, 7909 / 10000, 8164 / 10000]
  iterList := (List.range 16).map fun k => 4 * (k + 1)

theorem defaultConfig_estimates : defaultConfig.Estimates where
  ppStages := by decide
  pos := by decide +kernel
  le_one := by decide +kernel

theorem expGenLenSpec_iff_default :
    defaultConfig.ExpGenLenSpec 4 ↔ defaultConfig.averageSpecAcc = 1 ∨ 4 = 1 :=
  expGenLenSpec_iff defaultConfig_estimates (by decide)

/-- After four iterations the sum is below two tokens, and the expectation above two and a half. -/
theorem expGenLen_default_ne : ¬ defaultConfig.ExpGenLenSpec 4 := by
  intro h
  exact absurd h.expected (by decide +kernel)

end LengthCalcConfig

namespace LenProbCache

variable {c c' : LenProbCache} {cfg : LengthCalcConfig} {M l n L : ℕ} {lenIdx : ℤ} {v : ℚ}

/-- Every entry that is not blank is the calculated value. -/
structure Sound (cfg : LengthCalcConfig) (M : ℕ) (c : LenProbCache) : Prop where
  config : c.config = cfg
  maxIter : c.maxIter = M
  probLength : c.probCache.length = M
  prob : c.probCache.Entries fun i row => row.length = M ∧
    row.Entries fun j v => v = -1 ∨ cfg.calcProbLen (j + 1) (i + 1) = .ok v
  cumLength : c.cumProbCache.length = cfg.expectLength.length
  cumProb : c.cumProbCache.Entries fun k row => row.length = M ∧
    row.Entries fun j v => v = -1 ∨ cfg.cumProb k (j + 1) = .ok v

/-- The tables that some queries leave behind. Lengths and iterations count from one. -/
inductive Reachable (cfg : LengthCalcConfig) (M : ℕ) : LenProbCache → Prop where
  | init : Reachable cfg M (init cfg M)
  | get {c c' : LenProbCache} {l n : ℕ} {v : ℚ} : Reachable cfg M c → 1 ≤ l → 1 ≤ n →
      c.get l n = .ok (v, c') → Reachable cfg M c'
  | cumProbGet {c c' : LenProbCache} {lenIdx : ℤ} {L n : ℕ} {v : ℚ} : Reachable cfg M c →
      pyGet cfg.expectLength lenIdx = .ok L → 1 ≤ L → 1 ≤ n →
      c.cumProbGet lenIdx n = .ok (v, c') → Reachable cfg M c'

theorem init_sound : (init cfg M).Sound cfg M where
  config := rfl
  maxIter := rfl
  probLength := List.length_replicate
  prob := List.Entries.replicate
    (fun _ => ⟨List.length_replicate, List.Entries.replicate (fun _ => .inl rfl)⟩)
  cumLength := List.length_replicate
  cumProb := List.Entries.replicate
    (fun _ => ⟨List.length_replicate, List.Entries.replicate (fun _ => .inl rfl)⟩)

theorem le_maxIter_of_get (h : c.get l n = .ok (v, c')) : n ≤ c.maxIter := by
  by_contra hgt
  rw [LenProbCache.get, if_pos (not_le.mp hgt)] at h
  exact nomatch h

theorem le_maxIter_of_cumProbGet (h : c.cumProbGet lenIdx n = .ok (v, c')) : n ≤ c.maxIter := by
  by_contra hgt
  rw [LenProbCache.cumProbGet, if_pos (not_le.mp hgt)] at h
  exact nomatch h

theorem natCast_succ_sub_one (n : ℕ) : ((n + 1 : ℕ) : ℤ) - 1 = n := by
  omega

/-- An answer of `get` is the calculated one, and so is what it stores. -/
theorem Sound.of_get (h : c.Sound cfg M) (hl : 1 ≤ l) (hn : 1 ≤ n)
    (hget : c.get l n = .ok (v, c')) : cfg.calcProbLen l n = .ok v ∧ c'.Sound cfg M := by
  have hle := le_maxIter_of_get hget
  obtain ⟨l, rfl⟩ : ∃ k, l = k + 1 := ⟨l - 1, by omega⟩
  obtain ⟨n, rfl⟩ : ∃ k, n = k + 1 := ⟨n - 1, by omega⟩
  rw [LenProbCache.get, if_neg (not_lt.mpr hle), natCast_succ_sub_one, natCast_succ_sub_one] at hget
  simp only [bind_eq_ok, pyGet_eq_ok_nat] at hget
  obtain ⟨row, hrow, value, hvalue, hget⟩ := hget
  obtain ⟨hlen, hentries⟩ := h.prob _ _ hrow
  have hentry : value = -1 ∨ cfg.calcProbLen (l + 1) (n + 1) = .ok value := hentries _ _ hvalue
  by_cases hblank : value = -1
  · simp only [hblank, ite_true, bind_eq_ok, pySet_eq_ok_nat, pure_eq_ok, Prod.mk.injEq] at hget
    obtain ⟨w, hw, row', ⟨-, rfl⟩, table, ⟨-, rfl⟩, rfl, rfl⟩ := hget
    rw [h.config] at hw
    refine ⟨hw, h.config, h.maxIter, (List.length_set ..).trans h.probLength, ?_, h.cumLength,
      h.cumProb⟩
    exact h.prob.set ⟨(List.length_set ..).trans hlen, hentries.set (.inr hw)⟩
  · rw [if_neg hblank] at hget
    simp only [pure_eq_ok, Prod.mk.injEq] at hget
    obtain ⟨rfl, rfl⟩ := hget
    exact ⟨hentry.resolve_left hblank, h⟩

theorem Sound.get (h : c.Sound cfg M) (hl : 1 ≤ l) (hlM : l ≤ M) (hn : 1 ≤ n) (hnM : n ≤ M)
    (hv : cfg.calcProbLen l n = .ok v) : ∃ c', c.get l n = .ok (v, c') ∧ c'.Sound cfg M := by
  suffices hget : ∃ v' c', c.get l n = .ok (v', c') by
    obtain ⟨v', c', hget⟩ := hget
    obtain ⟨hv', hsound⟩ := h.of_get hl hn hget
    rw [hv] at hv'
    cases hv'
    exact ⟨c', hget, hsound⟩
  have hle : ¬ n > c.maxIter := by rw [h.maxIter]; omega
  obtain ⟨l, rfl⟩ : ∃ k, l = k + 1 := ⟨l - 1, by omega⟩
  obtain ⟨n, rfl⟩ : ∃ k, n = k + 1 := ⟨n - 1, by omega⟩
  have hrow : n < c.probCache.length := by rw [h.probLength]; omega
  have hentry := h.prob n _ (List.getElem?_eq_getElem hrow)
  have hcol : l < c.probCache[n].length := by rw [hentry.1]; omega
  by_cases hblank : c.probCache[n][l] = -1
  · have hset := pySet_eq_ok_nat.mpr ⟨hcol, (rfl : c.probCache[n].set l v = _)⟩
    have hset' := pySet_eq_ok_nat.mpr
      ⟨hrow, (rfl : c.probCache.set n (c.probCache[n].set l v) = _)⟩
    refine ⟨v, ?_⟩
    simp only [LenProbCache.get, hle, ite_false, natCast_succ_sub_one, pyGet_nat _ _ hrow,
      pyGet_nat _ _ hcol, ok_bind, hblank, ite_true, h.config, hv, hset, hset']
    exact ⟨_, rfl⟩
  · refine ⟨c.probCache[n][l], c, ?_⟩
    simp only [LenProbCache.get, hle, ite_false, natCast_succ_sub_one, pyGet_nat _ _ hrow,
      pyGet_nat _ _ hcol, ok_bind, hblank]
    rfl

/-- The sum of the memoised probabilities is the calculated sum. -/
theorem Sound.foldlM_get (h : c.Sound cfg M) (hcfg : cfg.Estimates) (hL : 1 ≤ L) (hn : n ≤ M)
    (ks : List ℕ) (hks : ∀ k ∈ ks, L + k ≤ n) (cum : ℚ) :
    ∃ c', ks.foldlM (fun (cumProb, c) k => do
        let (prob, c) ← LenProbCache.get c (L + k) n
        return (cumProb + prob, c)) (cum, c) =
      (.ok (cum + (ks.map fun k => cfg.lenProb (L + k) n).sum, c') :
        Except PyError (ℚ × LenProbCache)) ∧ c'.Sound cfg M := by
  induction ks generalizing c cum with
  | nil => exact ⟨c, by simp [pure, Except.pure], h⟩
  | cons k ks ih =>
      have hk := hks k List.mem_cons_self
      obtain ⟨c₁, hget, hsound⟩ := h.get (by omega) (by omega) (by omega) hn
        (LengthCalcConfig.calcProbLen_eq_lenProb hcfg hk)
      obtain ⟨c₂, hrest, hsound'⟩ := ih hsound (fun k' hk' => hks k' (List.mem_cons_of_mem k hk'))
        (cum + cfg.lenProb (L + k) n)
      refine ⟨c₂, ?_, hsound'⟩
      simp only [List.foldlM_cons, hget, ok_bind, List.map_cons, List.sum_cons, ← add_assoc]
      exact hrest

theorem Sound.calcCumProbLen (h : c.Sound cfg M) (hcfg : cfg.Estimates)
    (hidx : pyGet cfg.expectLength lenIdx = .ok L) (hL : 1 ≤ L) (hnM : n ≤ M) :
    ∃ c', c.calcCumProbLen lenIdx n = .ok (cfg.cumLenProb L n, c') ∧ c'.Sound cfg M := by
  obtain ⟨c', hfold, hsound⟩ := h.foldlM_get hcfg hL hnM (List.range (n + 1 - L))
    (fun k hk => by
      rw [List.mem_range] at hk
      omega) 0
  refine ⟨c', ?_, hsound⟩
  rw [LenProbCache.calcCumProbLen, h.config, hidx, ok_bind, hfold, zero_add,
    LengthCalcConfig.sum_lenProb]

/-- Whatever is stored, the answer of `cumProbGet` is the calculated one. -/
theorem Sound.cumProbGet (h : c.Sound cfg M) (hcfg : cfg.Estimates)
    (hidx : pyGet cfg.expectLength lenIdx = .ok L) (hL : 1 ≤ L) (hn : 1 ≤ n) (hnM : n ≤ M) :
    ∃ c', c.cumProbGet lenIdx n = .ok (cfg.cumLenProb L n, c') ∧ c'.Sound cfg M := by
  have hle : ¬ n > c.maxIter := by rw [h.maxIter]; omega
  obtain ⟨n, rfl⟩ : ∃ k, n = k + 1 := ⟨n - 1, by omega⟩
  obtain ⟨k, hk, hLk⟩ := pyGet_eq_ok.mp hidx
  have hcum : cfg.cumProb k (n + 1) = .ok (cfg.cumLenProb L (n + 1)) :=
    LengthCalcConfig.cumProb_eq_cumLenProb hcfg (pyGet_eq_ok_nat.mpr hLk)
  have hrow : ∀ {c : LenProbCache}, c.Sound cfg M → ∃ row, c.cumProbCache[k]? = some row ∧
      pyGet c.cumProbCache lenIdx = .ok row ∧ n < row.length := by
    intro c h
    have hlt : k < c.cumProbCache.length := h.cumLength ▸ pyIndex_lt hk
    have hsome := List.getElem?_eq_getElem hlt
    refine ⟨_, hsome, pyGet_eq_ok.mpr ⟨k, h.cumLength ▸ hk, hsome⟩, ?_⟩
    rw [(h.cumProb k _ hsome).1]
    exact hnM
  obtain ⟨row, hsome, hget, hcol⟩ := hrow h
  by_cases hblank : row[n] = -1
  · obtain ⟨c₁, hcalc, h₁⟩ := h.calcCumProbLen hcfg hidx hL hnM
    obtain ⟨row₁, hsome₁, hget₁, hcol₁⟩ := hrow h₁
    obtain ⟨hlen, hentries⟩ := h₁.cumProb _ _ hsome₁
    obtain ⟨row₂, hrow₂⟩ : ∃ row₂, row₁.set n (cfg.cumLenProb L (n + 1)) = row₂ := ⟨_, rfl⟩
    have hset := pySet_eq_ok_nat.mpr ⟨hcol₁, hrow₂⟩
    have hset' := pySet_eq_ok.mpr ⟨k, h₁.cumLength ▸ hk, (rfl : c₁.cumProbCache.set k row₂ = _)⟩
    have hsound : row₂.length = M ∧
        row₂.Entries fun j v => v = -1 ∨ cfg.cumProb k (j + 1) = .ok v := by
      rw [← hrow₂]
      exact ⟨(List.length_set ..).trans hlen, hentries.set (.inr hcum)⟩
    refine ⟨{ c₁ with cumProbCache := c₁.cumProbCache.set k row₂ }, ?_, h₁.config, h₁.maxIter,
      h₁.probLength, h₁.prob, (List.length_set ..).trans h₁.cumLength, h₁.cumProb.set hsound⟩
    simp only [LenProbCache.cumProbGet, hle, ite_false, natCast_succ_sub_one, hget, hget₁,
      pyGet_nat _ _ hcol, ok_bind, hblank, ite_true, hcalc, hset, hset']
    rfl
  · refine ⟨c, ?_, h⟩
    have hentry : row[n] = -1 ∨ cfg.cumProb k (n + 1) = .ok row[n] :=
      (h.cumProb _ _ hsome).2 n _ (List.getElem?_eq_getElem hcol)
    have hvalue : row[n] = cfg.cumLenProb L (n + 1) := by
      have := hentry.resolve_left hblank
      rw [hcum] at this
      exact (Except.ok.inj this).symm
    simp only [LenProbCache.cumProbGet, hle, ite_false, natCast_succ_sub_one, hget,
      pyGet_nat _ _ hcol, ok_bind, hblank]
    rw [hvalue]
    rfl

theorem Reachable.sound (hcfg : cfg.Estimates) (h : Reachable cfg M c) : c.Sound cfg M := by
  induction h with
  | init => exact init_sound
  | get _ hl hn hget ih => exact (ih.of_get hl hn hget).2
  | cumProbGet _ hidx hL hn hget ih =>
      obtain ⟨c₁, hget', hsound⟩ :=
        ih.cumProbGet hcfg hidx hL hn (ih.maxIter ▸ le_maxIter_of_cumProbGet hget)
      rw [hget] at hget'
      cases hget'
      exact hsound

/-- What `cum_prob_get` answers. -/
def finishProb (c : LenProbCache) (lenIdx : ℤ) (n : ℕ) : Except PyError ℚ :=
  Prod.fst <$> c.cumProbGet lenIdx n

theorem Reachable.finishProb (h : Reachable cfg M c) (hcfg : cfg.Estimates)
    (hidx : pyGet cfg.expectLength lenIdx = .ok L) (hL : 1 ≤ L) (hn : 1 ≤ n) (hnM : n ≤ M) :
    c.finishProb lenIdx n = .ok (cfg.cumLenProb L n) := by
  obtain ⟨c', hget, -⟩ := (h.sound hcfg).cumProbGet hcfg hidx hL hn hnM
  rw [LenProbCache.finishProb, hget]
  rfl

/-- Allowing more iterations never lowers the probability to have finished. -/
def FinishProbMonotone (cfg : LengthCalcConfig) (M : ℕ) (lenIdx : ℤ) : Prop :=
  ∀ c c', Reachable cfg M c → Reachable cfg M c' → ∀ n n', 1 ≤ n → n ≤ n' → n' ≤ M →
    ∃ v v', c.finishProb lenIdx n = .ok v ∧ c'.finishProb lenIdx n' = .ok v' ∧ v ≤ v'

/-- The sum counts only the runs that end at the horizon. It grows with the horizon when nothing is
rejected, when the threshold is never passed, and with two stages up to twice the threshold. -/
theorem finishProbMonotone_iff (hcfg : cfg.Estimates)
    (hidx : pyGet cfg.expectLength lenIdx = .ok L) (hL : 1 ≤ L) :
    FinishProbMonotone cfg M lenIdx ↔
      cfg.averageSpecAcc = 1 ∨ M ≤ L ∨ cfg.ppStages = 2 ∧ M ≤ 2 * L := by
  obtain ⟨d, hd, hP⟩ := hcfg.exists_stages
  have hmono := Renewal.atLeast_mono_iff (M := M) hcfg.pos hcfg.reject_nonneg
    (add_sub_cancel _ _) hd hL
  have hone : d = 1 ↔ cfg.ppStages = 2 := by omega
  rw [← hone, ← hmono]
  constructor
  · intro h n n' hn hle hnM
    obtain ⟨v, v', hv, hv', hvv'⟩ := h _ _ .init .init n n' hn hle hnM
    rw [Reachable.init.finishProb hcfg hidx hL hn (hle.trans hnM)] at hv
    rw [Reachable.init.finishProb hcfg hidx hL (hn.trans hle) hnM] at hv'
    cases hv
    cases hv'
    simpa only [LengthCalcConfig.cumLenProb, hP] using hvv'
  · intro h c c' hc hc' n n' hn hle hnM
    refine ⟨_, _, hc.finishProb hcfg hidx hL hn (hle.trans hnM),
      hc'.finishProb hcfg hidx hL (hn.trans hle) hnM, ?_⟩
    simpa only [LengthCalcConfig.cumLenProb, hP] using h n n' hn hle hnM

open LengthCalcConfig (defaultConfig)

theorem finishProbMonotone_iff_default :
    FinishProbMonotone defaultConfig 64 0 ↔
      defaultConfig.averageSpecAcc = 1 ∨ 64 ≤ 4 ∨ defaultConfig.ppStages = 2 ∧ 64 ≤ 2 * 4 :=
  finishProbMonotone_iff LengthCalcConfig.defaultConfig_estimates rfl (by decide)

theorem finishProb_default_four : (init defaultConfig 64).finishProb 0 4 = .ok (256 / 625) := by
  decide +kernel

theorem finishProb_default_five : (init defaultConfig 64).finishProb 0 5 = .ok (1024 / 3125) := by
  decide +kernel

theorem finishProb_default_dips : ¬ FinishProbMonotone defaultConfig 64 0 := by
  intro h
  obtain ⟨v, v', hv, hv', hle⟩ := h _ _ .init .init 4 5 (by decide) (by decide) (by decide)
  rw [finishProb_default_four] at hv
  rw [finishProb_default_five] at hv'
  cases hv
  cases hv'
  exact absurd hle (by decide +kernel)

end LenProbCache

/-! ## The two tables -/

namespace LengthCalcConfig

variable {cfg : LengthCalcConfig} {M l w n : ℕ}

/-- A run cannot have more rejections than tokens. -/
theorem lenProb_eq_zero_of_lt (h : cfg.Estimates) (hn : n = l + w * (cfg.ppStages - 1))
    (hlt : l < w) : cfg.lenProb l n = 0 := by
  obtain ⟨d, hd, hP⟩ := h.exists_stages
  rw [hP, Nat.add_sub_cancel] at hn
  rw [lenProb, hP, hn, Renewal.mass_eq_choose hd, Nat.choose_eq_zero_of_lt hlt]
  simp

/-- The sum over the rejections is the sum over the lengths. -/
theorem expGenLen_eq_sum_lenProb (h : cfg.Estimates) (n : ℕ) :
    cfg.expGenLen n = ∑ l ∈ Icc 1 n, l * cfg.lenProb l n :=
  expGenLen_eq_lengthAt h n

/-- The generation length after `n` iterations is the mean of the length table, and both memoised
tables answer with the calculated values. -/
structure TablesAgree (cfg : LengthCalcConfig) (M n : ℕ) (prob : ℕ → ℚ) : Prop where
  calcProbLen : ∀ l, 1 ≤ l → l ≤ n → cfg.calcProbLen l n = .ok (prob l)
  expGenLen : cfg.expGenLen n = ∑ l ∈ Icc 1 n, l * prob l
  /-- More rejections than tokens. -/
  vanishes : ∀ l w, n = l + w * (cfg.ppStages - 1) → l < w → prob l = 0
  expGenLen_get : ∀ c, ExpGenLenCache.Reachable cfg M c →
    ∃ c', c.get n = .ok (cfg.expGenLen n, c')
  lenProb_get : ∀ c, LenProbCache.Reachable cfg M c → ∀ l, 1 ≤ l → l ≤ n →
    ∃ c', c.get l n = .ok (prob l, c')

theorem exists_tablesAgree (h : cfg.Estimates) (hn : 1 ≤ n) (hnM : n ≤ M) :
    ∃ prob, cfg.TablesAgree M n prob := by
  refine ⟨fun l => cfg.lenProb l n, fun l _ hl => calcProbLen_eq_lenProb h hl,
    expGenLen_eq_sum_lenProb h n, fun l w => lenProb_eq_zero_of_lt h, fun c hc => ?_,
    fun c hc l hl hln => ?_⟩
  · obtain ⟨c', hget, -⟩ := hc.sound.get hnM
    exact ⟨c', hget⟩
  · obtain ⟨c', hget, -⟩ := (hc.sound h).get hl (hln.trans hnM) hn hnM
      (calcProbLen_eq_lenProb h hln)
    exact ⟨c', hget⟩

theorem exists_tablesAgree_default : ∃ prob, defaultConfig.TablesAgree 64 8 prob :=
  exists_tablesAgree defaultConfig_estimates (by decide) (by decide)

end LengthCalcConfig

end Spexis
