import Spexis.Model.LengthCalc
import Spexis.Model.SchedOutput

/-! # Configuration and lookahead scheduling

The choice of the requests that keep speculating (part 1) and the projection of
the memory that new prefills would need (part 2). Scores and estimates are exact
rationals. -/

namespace Spexis

open Python

inductive SpexisVer where
  | v1_0
  | v2_0
  | v2_5
  deriving DecidableEq, Repr

structure SpexisConfig where
  spexisVer : SpexisVer := .v1_0
  dropRatio : ℚ := 0
  confidenceBuckets : ℤ := 20
  laSched2MaxReqs : ℤ := 16
  laSched2LenidxThre : ℤ := 0
  laSched2ConfThre : ℚ := 1 / 2
  memEstiBar : ℚ := 7 / 10
  memEstimateMargin : ℚ := 19 / 20
  averageSpecAcc : ℚ := 4 / 5
  maxEstimateIter : ℕ := 64
  estimateIterStride : ℕ := 4
  prefillReserveBlocks : ℤ := 512
  expectLength : List ℕ := [4, 8, 16, 32, 64]
  lenprobThreshold : List ℚ := [1 / 2, 1 / 2, 1 / 2, 1 / 2, 1 / 2]
  lenestiPrec : List ℚ := [727 / 1000, 7423 / 10000, 7709 / 10000, 7909 / 10000, 8164 / 10000]

structure SchedulerConfig where
  maxNumSeqs : ℕ
  maxNumBatchedTokens : ℕ
  longPrefillTokenThreshold : ℤ := 0
  numLookaheadTokens : ℕ := 0

/-- The configuration of an engine; the KV cache has the scheduler's `max_model_len`. -/
structure Config where
  scheduler : SchedulerConfig
  spexis : SpexisConfig := {}
  kvCache : KVCacheConfig
  pipelineParallelSize : ℕ

namespace Config

def maxModelLen (cfg : Config) : ℕ :=
  cfg.kvCache.maxModelLen

def maxNumScheduledTokens (cfg : Config) : ℕ :=
  cfg.scheduler.maxNumBatchedTokens

def enableLaSched1 (cfg : Config) : Bool :=
  cfg.spexis.spexisVer = .v2_0 ∨ cfg.spexis.spexisVer = .v2_5

def enableLaSched2 (cfg : Config) : Bool :=
  cfg.spexis.spexisVer = .v2_5

/-- `range(stride, max_iter + 1, stride)`. -/
def iterList (cfg : Config) : List ℕ :=
  (List.range (cfg.spexis.maxEstimateIter / cfg.spexis.estimateIterStride)).map
    fun k => cfg.spexis.estimateIterStride * (k + 1)

def lengthCalc (cfg : Config) : LengthCalcConfig where
  ppStages := cfg.pipelineParallelSize
  averageSpecAcc := cfg.spexis.averageSpecAcc
  expectLength := cfg.spexis.expectLength
  lenprobThreshold := cfg.spexis.lenprobThreshold
  lenestiPrec := cfg.spexis.lenestiPrec
  iterList := cfg.iterList

/-- What the configuration classes check. -/
structure Accepted (cfg : Config) : Prop where
  pipelineParallelSize : 2 ≤ cfg.pipelineParallelSize
  maxNumSeqs : 1 ≤ cfg.scheduler.maxNumSeqs
  maxNumBatchedTokens : cfg.scheduler.maxNumSeqs ≤ cfg.scheduler.maxNumBatchedTokens
  dropRatio : 0 ≤ cfg.spexis.dropRatio ∧ cfg.spexis.dropRatio < 1
  blockSize : 0 < cfg.kvCache.blockSize

end Config

namespace Request

/-- `_has_pending_real_token`. -/
def hasPendingRealToken (r : Request) : Bool :=
  (r.specResult = some false ∧ r.justFixed = some true) ∨ r.dropEnd = true ∨
    r.numComputedTokens < r.numPromptTokens

/-- Can the confidence drop stop this request from speculating? -/
def isDropCandidate (r : Request) : Bool :=
  ¬ r.shouldPreempt ∧ ¬ r.hasPendingRealToken ∧ ¬ (r.confidenceDropped ∨ r.stopDropped)

end Request

/-! ## Part 1: confidence drop -/

/-- The bucket of a confidence score. -/
def bucketIdx (cfg : Config) (confidenceScore : ℚ) : Except PyError ℕ := do
  let numBuckets := cfg.spexis.confidenceBuckets
  let bucketWidth := 1 / (numBuckets : ℚ)
  let idx := min (pyInt (confidenceScore / bucketWidth)) (numBuckets - 1)
  if idx < 0 ∨ idx ≥ numBuckets then throw (.valueError "Invalid confidence score")
  return idx.toNat

/-- The bucket sort of the running requests. -/
def confidenceBucketList (cfg : Config) (request : ReqId → Request) :
    List ReqId → List (List ReqId) → Except PyError (List (List ReqId))
  | [], buckets => .ok buckets
  | reqId :: running, buckets => do
    if (request reqId).isDropCandidate then
      let idx ← bucketIdx cfg (← (request reqId).specConfidence)
      let bucket ← pyGet buckets idx
      confidenceBucketList cfg request running (buckets.set idx (bucket ++ [reqId]))
    else confidenceBucketList cfg request running buckets

/-- Where a selection stopped. -/
structure DropSelection where
  passed : List ReqId
  maxDroppedConfidence : ℚ
  tmpIdx : ℤ
  tmpReqIdx : ℕ

/-- Passes buckets from high confidence down until the budget is spent; the first
argument counts the buckets that are left. -/
def passBuckets (cfg : Config) (request : ReqId → Request) (buckets : List (List ReqId)) :
    ℕ → ℕ → List ReqId → ℚ → Except PyError DropSelection
  | 0, _, passed, maxDropped => .ok ⟨passed, maxDropped, -1, 0⟩
  | tmpIdx + 1, effectivePassNum, passed, maxDropped => do
    if effectivePassNum = 0 then return ⟨passed, maxDropped, tmpIdx, 0⟩
    let bucket ← pyGet buckets tmpIdx
    if bucket.length ≤ effectivePassNum then
      passBuckets cfg request buckets tmpIdx (effectivePassNum - bucket.length) (passed ++ bucket)
        (tmpIdx * (1 / (cfg.spexis.confidenceBuckets : ℚ)))
    else
      let next ← pyGet bucket effectivePassNum
      let confidence ← (request next).specConfidence
      return ⟨passed ++ bucket.take effectivePassNum, confidence, (tmpIdx : ℤ) - 1,
        effectivePassNum⟩

/-- Is a request below the cut short and confident enough to be boosted? -/
def boostable (cfg : Config) (r : Request) : Except PyError Bool := do
  if (← r.expectRemainLenIdx cfg.spexis.lenprobThreshold) = cfg.spexis.laSched2LenidxThre then
    return (← r.specConfidence) > cfg.spexis.laSched2ConfThre
  return false

/-- The boost of one bucket: the requests passed and the boosts that are left. -/
def boostBucket (cfg : Config) (request : ReqId → Request) :
    List ReqId → ℤ → Except PyError (List ReqId × ℤ)
  | [], maxBoostReqs => .ok ([], maxBoostReqs)
  | reqId :: bucket, maxBoostReqs => do
    let boost := (← boostable cfg (request reqId)) && decide (maxBoostReqs > 0)
    let maxBoostReqs := if boost then maxBoostReqs - 1 else maxBoostReqs
    let boosted := if boost then [reqId] else []
    if maxBoostReqs = 0 then return (boosted, 0)
    let (rest, maxBoostReqs) ← boostBucket cfg request bucket maxBoostReqs
    return (boosted ++ rest, maxBoostReqs)

def boostBuckets (cfg : Config) (request : ReqId → Request) (buckets : List (List ReqId)) :
    ℕ → ℤ → Except PyError (List ReqId)
  | 0, _ => .ok []
  | tmpIdx + 1, maxBoostReqs => do
    let bucket ← pyGet buckets tmpIdx
    let (boosted, maxBoostReqs) ← boostBucket cfg request bucket maxBoostReqs
    if maxBoostReqs = 0 then return boosted
    return boosted ++ (← boostBuckets cfg request buckets tmpIdx maxBoostReqs)

/-- `_length_aware_boost`. -/
def lengthAwareBoost (cfg : Config) (request : ReqId → Request) (buckets : List (List ReqId))
    (tmpIdx : ℤ) (tmpReqIdx : ℕ) : Except PyError (List ReqId) := do
  let maxBoostReqs := cfg.spexis.laSched2MaxReqs
  let (boosted, maxBoostReqs) ←
    if tmpReqIdx ≠ 0 then do
      -- the selection has already moved on, so this is the bucket below the cut
      let bucket ← pyGet buckets tmpIdx
      boostBucket cfg request (bucket.drop tmpReqIdx) maxBoostReqs
    else .ok ([], maxBoostReqs)
  let tmpIdx := if tmpReqIdx ≠ 0 then tmpIdx - 1 else tmpIdx
  if maxBoostReqs = 0 then return boosted
  return boosted ++ (← boostBuckets cfg request buckets (tmpIdx + 1).toNat maxBoostReqs)

/-- The requests `_apply_confidence_drop` passes, and the highest dropped confidence. -/
def applyConfidenceDrop (cfg : Config) (request : ReqId → Request) (running : List ReqId) :
    Except PyError (List ReqId × ℚ) := do
  let batchSize := running.length
  let effectivePassNum := batchSize - pyInt (batchSize * cfg.spexis.dropRatio)
  let numBuckets := cfg.spexis.confidenceBuckets
  if numBuckets = 0 then throw .zeroDivisionError
  let numRealRequests := (running.filter fun reqId =>
    !(request reqId).shouldPreempt && (request reqId).hasPendingRealToken).length
  let buckets ← confidenceBucketList cfg request running (List.replicate numBuckets.toNat [])
  let selection ← passBuckets cfg request buckets numBuckets.toNat
    (effectivePassNum - numRealRequests).toNat [] 0
  let boosted ←
    if cfg.enableLaSched2 then
      lengthAwareBoost cfg request buckets selection.tmpIdx selection.tmpReqIdx
    else .ok []
  return (selection.passed ++ boosted, selection.maxDroppedConfidence)

/-! ## Part 2: projected memory -/

structure MemoryEstimate where
  shouldEstimateLength : Bool
  delayPrefill : Bool
  memUsageList : List ℚ
  memInTokens : ℤ

/-- `_estimate_lookahead_memory`. -/
def estimateLookaheadMemory (cfg : Config) (kv : KVCacheManager) (waiting : List ReqId)
    (runningScheduled : List Request) (tokenBudget : ℕ) (havePreempted : Bool) :
    Except PyError MemoryEstimate := do
  if ¬ havePreempted ∧ waiting ≠ [] ∧ tokenBudget > 0 ∧ kv.usage > cfg.spexis.memEstiBar then
    let memInTokens := ((kv.blockPool.numGpuBlocks : ℤ) - cfg.spexis.prefillReserveBlocks) *
      cfg.kvCache.blockSize
    let (memUsageList, peakMem) ← cfg.lengthCalc.calculatePeakMem runningScheduled
    return ⟨true, peakMem > cfg.spexis.memEstimateMargin * memInTokens, memUsageList, memInTokens⟩
  return ⟨false, false, [], 0⟩

/-- The projection with a waiting request's footprint added. -/
def addFootprint (cfg : Config) (r : Request) (memUsageList : List ℚ) : List ℚ :=
  List.zipWith (fun usage iterVal => usage + (r.numTokens + cfg.lengthCalc.expGenLen iterVal))
    memUsageList cfg.iterList

end Spexis
