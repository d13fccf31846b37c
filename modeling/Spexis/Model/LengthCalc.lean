import Mathlib.Data.Nat.Choose.Basic
import Spexis.Model.Request

/-! # Length and memory estimates

The expected generation length after some iterations, the probability of a
length, and the peak KV memory projected from both. -/

namespace Spexis

open Python

/-- What the two caches are built with. -/
structure LengthCalcConfig where
  ppStages : ℕ
  averageSpecAcc : ℚ
  expectLength : List ℕ
  lenprobThreshold : List ℚ
  lenestiPrec : List ℚ
  iterList : List ℕ
  deriving DecidableEq, Repr

namespace LengthCalcConfig

/-- `ExpGenLenCache.calculate`. -/
def expGenLen (cfg : LengthCalcConfig) (numIter : ℕ) : ℚ :=
  ((List.range (numIter / cfg.ppStages + 1)).map fun wrong =>
    let true' := numIter - wrong * cfg.ppStages
    let length := true' + wrong
    (length : ℚ) * length.choose true' * cfg.averageSpecAcc ^ true' *
      (1 - cfg.averageSpecAcc) ^ wrong).sum

/-- `LenProbCache.calc_prob_len`. -/
def calcProbLen (cfg : LengthCalcConfig) (length numIter : ℕ) : Except PyError ℚ := do
  if cfg.ppStages = 1 then throw .zeroDivisionError
  let rest : ℤ := numIter - length
  if rest.fmod (cfg.ppStages - 1) ≠ 0 then return 0
  let wrong := rest.fdiv (cfg.ppStages - 1)
  let true' := length - wrong
  if wrong < 0 then throw (.valueError "k must be a non-negative integer")
  if cfg.averageSpecAcc = 0 ∧ true' < 0 then throw .zeroDivisionError
  return (length.choose wrong.toNat : ℚ) * cfg.averageSpecAcc ^ true' *
    (1 - cfg.averageSpecAcc) ^ wrong

/-- `LenProbCache.calc_cum_prob_len`: the lengths from the expected one to `numIter`. -/
def cumProb (cfg : LengthCalcConfig) (lenIdx : ℤ) (numIter : ℕ) : Except PyError ℚ := do
  let length ← pyGet cfg.expectLength lenIdx
  let probs ← (List.range (numIter + 1 - length)).mapM
    fun k => cfg.calcProbLen (length + k) numIter
  return probs.sum

/-- One request's expected finishes and the tokens they release. -/
def finishedContribution (cfg : LengthCalcConfig) (numIter : ℕ) (r : Request) :
    Except PyError (ℚ × ℚ) := do
  let remainLenIdx ← r.expectRemainLenIdx cfg.lenprobThreshold
  if remainLenIdx = -1 then return (0, 0)
  let probLen ← cfg.cumProb remainLenIdx numIter
  let effProb := probLen * (← pyGet cfg.lenestiPrec remainLenIdx)
  return (effProb, effProb * r.numTokens)

def calculateIterMem (cfg : LengthCalcConfig) (numIter sumReqLen : ℕ)
    (currentBatch : List Request) : Except PyError ℚ := do
  let finished ← currentBatch.mapM (cfg.finishedContribution numIter)
  let expFinishedReqs := (finished.map Prod.fst).sum
  let expFinishedReqlen := (finished.map Prod.snd).sum
  return sumReqLen + (currentBatch.length - expFinishedReqs) * cfg.expGenLen numIter -
    expFinishedReqlen

/-- The projected memory at each iteration and its peak. -/
def calculatePeakMem (cfg : LengthCalcConfig) (currentBatch : List Request) :
    Except PyError (List ℚ × ℚ) := do
  let sumReqLen := (currentBatch.map Request.numTokens).sum
  let memoryUsageList ← cfg.iterList.mapM fun i => cfg.calculateIterMem i sumReqLen currentBatch
  return (memoryUsageList, memoryUsageList.foldl max 0)

end LengthCalcConfig

/-! ## The memoised tables

An entry of `-1` has not been computed. -/

structure ExpGenLenCache where
  config : LengthCalcConfig
  maxIter : ℕ
  cache : List ℚ
  deriving DecidableEq, Repr

namespace ExpGenLenCache

def init (config : LengthCalcConfig) (maxIter : ℕ) : ExpGenLenCache where
  config := config
  maxIter := maxIter
  cache := List.replicate (maxIter + 1) (-1)

/-- The answer, and the cache after the call. -/
def get (c : ExpGenLenCache) (numIter : ℕ) : Except PyError (ℚ × ExpGenLenCache) := do
  if numIter > c.maxIter then
    throw (.valueError ("num_iter " ++ toString numIter ++ " exceeds max_iter " ++
      toString c.maxIter))
  let value ← pyGet c.cache numIter
  if value = -1 then do
    let value := c.config.expGenLen numIter
    return (value, { c with cache := ← pySet c.cache numIter value })
  else return (value, c)

end ExpGenLenCache

structure LenProbCache where
  config : LengthCalcConfig
  maxIter : ℕ
  probCache : List (List ℚ)
  cumProbCache : List (List ℚ)
  deriving DecidableEq, Repr

namespace LenProbCache

def init (config : LengthCalcConfig) (maxIter : ℕ) : LenProbCache where
  config := config
  maxIter := maxIter
  probCache := List.replicate maxIter (List.replicate maxIter (-1))
  cumProbCache := List.replicate config.expectLength.length (List.replicate maxIter (-1))

/-- `num_iter` and `length` count from one, so a zero reads the last entry. -/
def get (c : LenProbCache) (length numIter : ℕ) : Except PyError (ℚ × LenProbCache) := do
  if numIter > c.maxIter then
    throw (.valueError ("num_iter " ++ toString numIter ++ " exceeds max_iter " ++
      toString c.maxIter))
  let row ← pyGet c.probCache (numIter - 1)
  let value ← pyGet row (length - 1)
  if value = -1 then do
    let value ← c.config.calcProbLen length numIter
    let row ← pySet row (length - 1) value
    return (value, { c with probCache := ← pySet c.probCache (numIter - 1) row })
  else return (value, c)

def calcCumProbLen (c : LenProbCache) (lenIdx : ℤ) (numIter : ℕ) :
    Except PyError (ℚ × LenProbCache) := do
  let length ← pyGet c.config.expectLength lenIdx
  (List.range (numIter + 1 - length)).foldlM (fun (cumProb, c) k => do
    let (prob, c) ← c.get (length + k) numIter
    return (cumProb + prob, c)) (0, c)

def cumProbGet (c : LenProbCache) (lenIdx : ℤ) (numIter : ℕ) :
    Except PyError (ℚ × LenProbCache) := do
  if numIter > c.maxIter then
    throw (.valueError ("num_iter " ++ toString numIter ++ " exceeds max_iter " ++
      toString c.maxIter))
  let row ← pyGet c.cumProbCache lenIdx
  let value ← pyGet row (numIter - 1)
  if value = -1 then do
    let (value, c) ← c.calcCumProbLen lenIdx numIter
    let row ← pyGet c.cumProbCache lenIdx
    let row ← pySet row (numIter - 1) value
    return (value, { c with cumProbCache := ← pySet c.cumProbCache lenIdx row })
  else return (value, c)

/-- The loop of `calculate_iter_mem`: the expected number of finished requests, and the tokens that
they release. -/
def expFinished (numIter : ℕ) :
    List Request → ℚ → ℚ → LenProbCache → Except PyError (ℚ × ℚ × LenProbCache)
  | [], expFinishedReqs, expFinishedReqlen, c => .ok (expFinishedReqs, expFinishedReqlen, c)
  | r :: currentBatch, expFinishedReqs, expFinishedReqlen, c => do
    let remainLenIdx ← r.expectRemainLenIdx c.config.lenprobThreshold
    if remainLenIdx = -1 then
      expFinished numIter currentBatch expFinishedReqs expFinishedReqlen c
    else do
      let (probLen, c) ← c.cumProbGet remainLenIdx numIter
      let effProb := probLen * (← pyGet c.config.lenestiPrec remainLenIdx)
      expFinished numIter currentBatch (expFinishedReqs + effProb)
        (expFinishedReqlen + effProb * r.numTokens) c

end LenProbCache

/-- `calculate_iter_mem`, which asks the memoised tables. -/
def calculateIterMem (expGenLenCache : ExpGenLenCache) (lenProbCache : LenProbCache)
    (numIter sumReqLen : ℕ) (currentBatch : List Request) :
    Except PyError (ℚ × ExpGenLenCache × LenProbCache) := do
  let (expectGenLen, expGenLenCache) ← expGenLenCache.get numIter
  let (expFinishedReqs, expFinishedReqlen, lenProbCache) ←
    LenProbCache.expFinished numIter currentBatch 0 0 lenProbCache
  let memory := sumReqLen + (currentBatch.length - expFinishedReqs) * expectGenLen -
    expFinishedReqlen
  return (memory, expGenLenCache, lenProbCache)

end Spexis
