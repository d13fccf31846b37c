import Spexis.Model.KVCacheManager

/-! # How many blocks the KV cache has

At start-up the memory that each worker has left is divided among the layers of its model, and the
scheduler gets the number of blocks that all workers have. -/

namespace Spexis

open Python

namespace StartUp

abbrev LayerName := String

structure Dtype where
  name : String
  /-- `get_dtype_size`. -/
  elementSize : ℕ
  elementSize_pos : 0 < elementSize
  deriving DecidableEq

structure AttentionSpec where
  blockSize : ℕ
  numKvHeads : ℕ
  headSize : ℕ
  dtype : Dtype
  useMla : Bool
  blockSize_pos : 0 < blockSize
  numKvHeads_pos : 0 < numKvHeads
  headSize_pos : 0 < headSize
  deriving DecidableEq

def AttentionSpec.pageSizeBytes (spec : AttentionSpec) : ℕ :=
  let coef := if spec.useMla then 1 else 2
  coef * spec.blockSize * spec.numKvHeads * spec.headSize * spec.dtype.elementSize

/-- What `kv_cache_spec` says of a layer. -/
inductive LayerSpec where
  | fullAttention (spec : AttentionSpec)
  | slidingWindow (spec : AttentionSpec) (window : ℕ) (notMla : spec.useMla = false)
  deriving DecidableEq

/-- What is read of `vllm_config`. -/
structure VllmConfig where
  maxModelLen : ℕ
  maxNumBatchedTokens : ℕ
  numGpuBlocksOverride : Option ℕ

namespace LayerSpec

def attention : LayerSpec → AttentionSpec
  | fullAttention spec => spec
  | slidingWindow spec _ _ => spec

def pageSizeBytes (layer : LayerSpec) : ℕ :=
  layer.attention.pageSizeBytes

def typeId : LayerSpec → String
  | fullAttention spec =>
    "full_attention_" ++ toString spec.blockSize ++ "_" ++ toString spec.pageSizeBytes
  | slidingWindow spec window _ =>
    "sliding_window_" ++ toString window ++ "_" ++ toString spec.blockSize ++ "_" ++
      toString spec.pageSizeBytes

/-- The blocks of `max_memory_usage_bytes`. -/
def maxNumBlocks (cfg : VllmConfig) : LayerSpec → ℕ
  | fullAttention spec => cdiv cfg.maxModelLen spec.blockSize
  | slidingWindow spec window _ =>
    let numTokens := min (window + cfg.maxNumBatchedTokens - 1) cfg.maxModelLen
    cdiv numTokens spec.blockSize + 1

def maxMemoryUsageBytes (cfg : VllmConfig) (layer : LayerSpec) : ℕ :=
  layer.maxNumBlocks cfg * layer.pageSizeBytes

end LayerSpec

structure KVCacheGroupSpec where
  layerNames : List LayerName
  kvCacheSpec : LayerSpec
  deriving DecidableEq

/-- The size of the tensor of each layer is in bytes. -/
structure KVCacheConfig where
  numBlocks : ℕ
  tensors : List (LayerName × ℕ)
  kvCacheGroups : List KVCacheGroupSpec
  deriving DecidableEq

/-! ## Checking the memory -/

def neededMemory (cfg : VllmConfig) (kvCacheSpec : List (LayerName × LayerSpec)) : ℕ :=
  (kvCacheSpec.map fun layer => layer.2.maxMemoryUsageBytes cfg).sum

/-- `fits_in_memory`. -/
def fitsInMemory (cfg : VllmConfig) (kvCacheSpec : List (LayerName × LayerSpec))
    (availableMemory : ℤ) (modelLen : ℤ) : Bool :=
  decide ((neededMemory { cfg with maxModelLen := modelLen.toNat } kvCacheSpec : ℤ) ≤
    availableMemory)

/-- The loop of `estimate_max_model_len`. -/
def searchModelLen (fits : ℤ → Bool) (left right result : ℤ) : ℤ :=
  if left ≤ right then
    let mid := (left + right) / 2
    if fits mid then searchModelLen fits (mid + 1) right mid
    else searchModelLen fits left (mid - 1) result
  else result
termination_by (right + 1 - left).toNat
decreasing_by all_goals omega

def estimateMaxModelLen (cfg : VllmConfig) (kvCacheSpec : List (LayerName × LayerSpec))
    (availableMemory : ℤ) : ℤ :=
  let fits := fitsInMemory cfg kvCacheSpec availableMemory
  if fits 1 then searchModelLen fits 1 cfg.maxModelLen 1 else 0

/-- `gib` writes a number of bytes in GiB, with two decimals. -/
def checkEnoughKvCacheMemory (gib : ℤ → String) (cfg : VllmConfig)
    (kvCacheSpec : List (LayerName × LayerSpec)) (availableMemory : ℤ) : Except PyError Unit :=
  let needed := neededMemory cfg kvCacheSpec
  if availableMemory ≤ 0 then
    throw (.valueError ("No available memory for the cache blocks. " ++
      "Try increasing `gpu_memory_utilization` when initializing the engine."))
  else if (needed : ℤ) > availableMemory then
    -- the line with the estimate is a statement of its own, and not a part of the message
    let estimatedMsg :=
      if estimateMaxModelLen cfg kvCacheSpec availableMemory > 0
      then " Based on the available memory," else ""
    throw (.valueError ("To serve at least one request with the models's max seq len (" ++
      toString cfg.maxModelLen ++ "), (" ++ gib needed ++ " GiB KV cache is needed, which is " ++
      "larger than the available KV cache memory (" ++ gib availableMemory ++ " GiB)." ++
      estimatedMsg ++ "  Try increasing `gpu_memory_utilization` or decreasing " ++
      "`max_model_len` when initializing the engine."))
  else .ok ()

/-! ## Dividing the memory -/

/-- The group of some layers, which is to have one spec. -/
def createKvCacheGroupSpec (kvCacheSpec : List (LayerName × LayerSpec))
    (layerNames : List LayerName) : Except PyError KVCacheGroupSpec := do
  let first ← pyGet layerNames 0
  let layerSpec ← dictGet kvCacheSpec first
  let others ← layerNames.tail.mapM (dictGet kvCacheSpec)
  pyAssert (∀ other ∈ others, other = layerSpec)
    "All layers in the same KV cache group must share the same KVCacheSpec."
  return ⟨layerNames, layerSpec⟩

def createKvCacheGroupSpecs (kvCacheSpec : List (LayerName × LayerSpec))
    (groupedLayerNames : List (List LayerName)) : Except PyError (List KVCacheGroupSpec) :=
  groupedLayerNames.mapM (createKvCacheGroupSpec kvCacheSpec)

def isKvCacheTypeUniform (kvCacheSpec : List (LayerName × LayerSpec)) : Bool :=
  (kvCacheSpec.map fun layer => layer.2.typeId).dedup.length = 1

/-- The number of blocks is the quotient of the memory, unless the configuration gives it. -/
def getKvCacheConfigUniformType (cfg : VllmConfig) (kvCacheSpec : List (LayerName × LayerSpec))
    (availableMemory : ℤ) : Except PyError KVCacheConfig := do
  let pageSizes := (kvCacheSpec.map fun layer => layer.2.pageSizeBytes).dedup
  pyAssert (pageSizes.length = 1) ""
  let pageSize ← pyGet pageSizes 0
  let numBlocks := (max (availableMemory / pageSize / kvCacheSpec.length) 0).toNat
  let numBlocks := cfg.numGpuBlocksOverride.getD numBlocks
  -- the concurrency that is logged is a quotient by the model length
  if cfg.maxModelLen = 0 then throw .zeroDivisionError
  let perLayerSize := pageSize * numBlocks
  let groups ← createKvCacheGroupSpecs kvCacheSpec [kvCacheSpec.map Prod.fst]
  return ⟨numBlocks, kvCacheSpec.map fun layer => (layer.1, perLayerSize), groups⟩

def LayerSpec.isFullAttention : LayerSpec → Bool
  | fullAttention _ => true
  | slidingWindow .. => false

/-- A full-attention layer with the spec of the layer. -/
def LayerSpec.toFullAttention (layer : LayerSpec) : LayerSpec :=
  .fullAttention layer.attention

/-- Sliding windows become full attention if the model has layers of both types. -/
def unifyHybridKvCacheSpecs (kvCacheSpec : List (LayerName × LayerSpec)) :
    List (LayerName × LayerSpec) :=
  let hasFullAttention := kvCacheSpec.any fun layer => layer.2.isFullAttention
  let hasSlidingWindow := kvCacheSpec.any fun layer => !layer.2.isFullAttention
  if hasFullAttention ∧ hasSlidingWindow then
    kvCacheSpec.map fun layer => (layer.1, layer.2.toFullAttention)
  else kvCacheSpec

def getKvCacheConfig (gib : ℤ → String) (cfg : VllmConfig)
    (kvCacheSpec : List (LayerName × LayerSpec)) (availableMemory : ℤ) :
    Except PyError KVCacheConfig := do
  checkEnoughKvCacheMemory gib cfg kvCacheSpec availableMemory
  let kvCacheSpec := unifyHybridKvCacheSpecs kvCacheSpec
  if isKvCacheTypeUniform kvCacheSpec then
    getKvCacheConfigUniformType cfg kvCacheSpec availableMemory
  else throw (.notImplementedError "")

/-! ## All workers -/

/-- All workers take the smallest number of blocks. -/
def unifyKvCacheConfigs (kvCacheConfigs : List KVCacheConfig) :
    Except PyError (List KVCacheConfig) :=
  let kvCacheConfigs := kvCacheConfigs.map fun config =>
    { config with
      kvCacheGroups := config.kvCacheGroups.mergeSort fun x y =>
        decide (x.kvCacheSpec.typeId ≤ y.kvCacheSpec.typeId) }
  match kvCacheConfigs with
  | [] => throw (.valueError "min() arg is an empty sequence")
  | first :: rest => do
    pyAssert (∀ config ∈ rest, ∀ groups ∈ first.kvCacheGroups.zip config.kvCacheGroups,
      groups.1.kvCacheSpec = groups.2.kvCacheSpec) ""
    let minNumBlocks := (rest.map KVCacheConfig.numBlocks).foldl min first.numBlocks
    return (first :: rest).map fun config => { config with numBlocks := minNumBlocks }

/-- `_initialize_kv_caches`, from the layers and the memory that the workers report: the number of
blocks of the scheduler, and the configuration of each worker. -/
def initializeKvCaches (gib : ℤ → String) (cfg : VllmConfig)
    (kvCacheSpecs : List (List (LayerName × LayerSpec))) (availableGpuMemory : List ℤ) :
    Except PyError (ℕ × List KVCacheConfig) := do
  pyAssert (kvCacheSpecs.length = availableGpuMemory.length) ""
  let kvCacheConfigs ← (kvCacheSpecs.zip availableGpuMemory).mapM fun worker =>
    getKvCacheConfig gib cfg worker.1 worker.2
  let kvCacheConfigs ← unifyKvCacheConfigs kvCacheConfigs
  let first ← pyGet kvCacheConfigs 0
  pyAssert (∀ config ∈ kvCacheConfigs, config.numBlocks = first.numBlocks) ""
  return (first.numBlocks, kvCacheConfigs)

end StartUp

end Spexis
