import Spexis.Library.Lists
import Spexis.Model.KVCacheSizing
import Mathlib.Algebra.Order.BigOperators.Group.List
import Mathlib.Data.List.Dedup
import Mathlib.Order.Bounds.Basic

/-! # How many blocks the KV cache has -/

namespace Spexis

open Python

namespace StartUp

variable {cfg : VllmConfig} {gib : ℤ → String} {kvCacheSpec : List (LayerName × LayerSpec)}
  {availableMemory : ℤ} {config : KVCacheConfig} {s : LayerSpec}

/-! ## The estimated model length -/

/-- The search keeps the greatest length that is known to fit just below its interval. -/
theorem searchModelLen_isGreatest {fits : ℤ → Bool} {bound : ℤ}
    (hfits : ∀ m n, m ≤ n → fits n = true → fits m = true) {left right result : ℤ}
    (hresult : 1 ≤ result ∧ result ≤ bound ∧ fits result = true) (hleft : result ≤ left)
    (hnext : left ≤ result + 1) (hright : right ≤ bound)
    (habove : ∀ n ≤ bound, fits n = true → n ≤ max right result) :
    IsGreatest {n | 1 ≤ n ∧ n ≤ bound ∧ fits n = true} (searchModelLen fits left right result) := by
  fun_induction searchModelLen fits left right result with
  | case1 left right result hle mid hmid ih =>
      have hmid' : mid = (left + right) / 2 := rfl
      refine ih ⟨by omega, by omega, hmid⟩ (by omega) le_rfl hright fun n hn hfit => ?_
      have hn' := habove n hn hfit
      omega
  | case2 left right result hle mid hmid ih =>
      have hmid' : mid = (left + right) / 2 := rfl
      refine ih hresult hleft hnext (by omega) fun n hn hfit => ?_
      have hlt : n < mid := by
        by_contra hge
        exact hmid (hfits mid n (not_lt.mp hge) hfit)
      omega
  | case3 left right result hgt =>
      refine ⟨hresult, fun n hn => ?_⟩
      have hn' := habove n hn.2.1 hn.2.2
      omega

theorem LayerSpec.maxNumBlocks_mono (layer : LayerSpec) {m n : ℕ} (h : m ≤ n) :
    layer.maxNumBlocks { cfg with maxModelLen := m } ≤
      layer.maxNumBlocks { cfg with maxModelLen := n } := by
  cases layer with
  | fullAttention spec => exact cdiv_le_cdiv h _
  | slidingWindow spec window notMla =>
      exact Nat.succ_le_succ (cdiv_le_cdiv (min_le_min_left _ h) _)

theorem fitsInMemory_anti {m n : ℤ} (h : m ≤ n)
    (hfits : fitsInMemory cfg kvCacheSpec availableMemory n = true) :
    fitsInMemory cfg kvCacheSpec availableMemory m = true := by
  rw [fitsInMemory, decide_eq_true_eq] at hfits ⊢
  refine le_trans (Int.ofNat_le.mpr ?_) hfits
  refine List.sum_le_sum fun layer _ => Nat.mul_le_mul_right _ ?_
  exact layer.2.maxNumBlocks_mono (Int.toNat_le_toNat h)

/-- The estimate is the greatest model length that fits into the memory, or 0 if none does. -/
theorem estimateMaxModelLen_spec (hlen : 0 < cfg.maxModelLen) :
    (estimateMaxModelLen cfg kvCacheSpec availableMemory = 0 ∧
      ∀ n, 1 ≤ n → fitsInMemory cfg kvCacheSpec availableMemory n = false) ∨
    IsGreatest {n | 1 ≤ n ∧ n ≤ (cfg.maxModelLen : ℤ) ∧
      fitsInMemory cfg kvCacheSpec availableMemory n = true}
      (estimateMaxModelLen cfg kvCacheSpec availableMemory) := by
  unfold estimateMaxModelLen
  by_cases hone : fitsInMemory cfg kvCacheSpec availableMemory 1 = true
  · right
    rw [if_pos hone]
    exact searchModelLen_isGreatest (fun _ _ => fitsInMemory_anti) ⟨le_rfl, by omega, hone⟩ le_rfl
      (by omega) le_rfl fun n hn _ => le_max_of_le_left hn
  · left
    refine ⟨if_neg hone, fun n hn => ?_⟩
    by_contra hfits
    exact hone (fitsInMemory_anti hn (Bool.eq_true_of_not_eq_false hfits))

/-! ## Layers with one spec -/

/-- All layers have the spec. -/
def Uniform (kvCacheSpec : List (LayerName × LayerSpec)) (s : LayerSpec) : Prop :=
  kvCacheSpec ≠ [] ∧ ∀ layer ∈ kvCacheSpec, layer.2 = s

theorem Uniform.map_dedup {β : Type*} [DecidableEq β] (h : Uniform kvCacheSpec s)
    (f : LayerSpec → β) : (kvCacheSpec.map fun layer => f layer.2).dedup = [f s] := by
  have hreplicate : kvCacheSpec.map (fun layer => f layer.2) =
      List.replicate kvCacheSpec.length (f s) := by
    refine List.eq_replicate_iff.mpr ⟨List.length_map _, fun b hb => ?_⟩
    obtain ⟨layer, hlayer, rfl⟩ := List.mem_map.mp hb
    rw [h.2 layer hlayer]
  rw [hreplicate, List.replicate_dedup (List.length_pos_iff.mpr h.1).ne']

theorem Uniform.sum_map (h : Uniform kvCacheSpec s) (f : LayerSpec → ℕ) :
    (kvCacheSpec.map fun layer => f layer.2).sum = kvCacheSpec.length * f s := by
  rw [List.map_congr_left fun layer hlayer => congrArg f (h.2 layer hlayer), List.map_const',
    List.sum_replicate_nat]

/-- The layers of a dictionary are one group if and only if they have one spec. -/
theorem createKvCacheGroupSpecs_eq_ok (hnodup : (kvCacheSpec.map Prod.fst).Nodup)
    {groups : List KVCacheGroupSpec} :
    createKvCacheGroupSpecs kvCacheSpec [kvCacheSpec.map Prod.fst] = .ok groups ↔
      ∃ s, Uniform kvCacheSpec s ∧ groups = [⟨kvCacheSpec.map Prod.fst, s⟩] := by
  cases kvCacheSpec with
  | nil =>
      constructor
      · intro h
        cases h
      · rintro ⟨s, ⟨hne, -⟩, -⟩
        exact absurd rfl hne
  | cons layer rest =>
      have hget : ∀ other ∈ layer :: rest, dictGet (layer :: rest) other.1 = .ok other.2 :=
        fun other hother => dictGet_eq_ok.mpr ((dictGet?_eq_some hnodup).mpr hother)
      have hothers : (rest.map Prod.fst).mapM (dictGet (layer :: rest)) =
          .ok (rest.map Prod.snd) := by
        rw [List.mapM_map]
        exact mapM_eq_ok fun other hother => hget other (List.mem_cons_of_mem _ hother)
      have hgroup : createKvCacheGroupSpec (layer :: rest) ((layer :: rest).map Prod.fst) = do
          pyAssert (∀ other ∈ rest.map Prod.snd, other = layer.2)
            "All layers in the same KV cache group must share the same KVCacheSpec."
          return ⟨(layer :: rest).map Prod.fst, layer.2⟩ := by
        rw [createKvCacheGroupSpec, List.map_cons, pyGet_cons_zero, ok_bind,
          hget layer List.mem_cons_self, ok_bind, List.tail_cons, hothers, ok_bind]
      rw [createKvCacheGroupSpecs, List.mapM_cons, hgroup]
      simp only [List.mapM_nil, bind_eq_ok, pure_eq_ok, pyAssert_eq_ok]
      constructor
      · rintro ⟨group, ⟨-, hsame, rfl⟩, groups', rfl, rfl⟩
        refine ⟨layer.2, ⟨List.cons_ne_nil _ _, fun other hother => ?_⟩, rfl⟩
        rcases List.mem_cons.mp hother with rfl | hother
        · rfl
        · exact hsame _ (List.mem_map_of_mem hother)
      · rintro ⟨s, ⟨-, hsame⟩, rfl⟩
        obtain rfl := hsame layer List.mem_cons_self
        refine ⟨_, ⟨(), fun other hother => ?_, rfl⟩, [], rfl, rfl⟩
        obtain ⟨layer', hlayer', rfl⟩ := List.mem_map.mp hother
        exact hsame layer' (List.mem_cons_of_mem _ hlayer')

/-! ## One worker -/

/-- The bytes that one more block takes. -/
def bytesPerBlock (kvCacheSpec : List (LayerName × LayerSpec)) : ℕ :=
  (kvCacheSpec.map fun layer => layer.2.pageSizeBytes).sum

theorem LayerSpec.pageSizeBytes_pos (layer : LayerSpec) : 0 < layer.pageSizeBytes := by
  have hspec : 0 < layer.attention.pageSizeBytes := by
    unfold AttentionSpec.pageSizeBytes
    have hcoef : 0 < if layer.attention.useMla then 1 else 2 := by split_ifs <;> decide
    have hblock := layer.attention.blockSize_pos
    have hheads := layer.attention.numKvHeads_pos
    have hhead := layer.attention.headSize_pos
    have helement := layer.attention.dtype.elementSize_pos
    exact Nat.mul_pos (Nat.mul_pos (Nat.mul_pos (Nat.mul_pos hcoef hblock) hheads) hhead) helement
  exact hspec

theorem bytesPerBlock_unify (kvCacheSpec : List (LayerName × LayerSpec)) :
    bytesPerBlock (unifyHybridKvCacheSpecs kvCacheSpec) = bytesPerBlock kvCacheSpec := by
  unfold unifyHybridKvCacheSpecs
  dsimp only
  split_ifs
  · rw [bytesPerBlock, List.map_map]
    rfl
  · rfl

theorem keys_unify (kvCacheSpec : List (LayerName × LayerSpec)) :
    (unifyHybridKvCacheSpecs kvCacheSpec).map Prod.fst = kvCacheSpec.map Prod.fst := by
  unfold unifyHybridKvCacheSpecs
  dsimp only
  split_ifs
  · rw [List.map_map]
    rfl
  · rfl

/-- The blocks that the memory holds. -/
def numBlocksOf (cfg : VllmConfig) (kvCacheSpec : List (LayerName × LayerSpec))
    (availableMemory : ℤ) : ℕ :=
  cfg.numGpuBlocksOverride.getD (availableMemory / bytesPerBlock kvCacheSpec).toNat

/-- The configuration of layers with one spec. -/
def sized (kvCacheSpec : List (LayerName × LayerSpec)) (s : LayerSpec) (numBlocks : ℕ) :
    KVCacheConfig where
  numBlocks := numBlocks
  tensors := kvCacheSpec.map fun layer => (layer.1, s.pageSizeBytes * numBlocks)
  kvCacheGroups := [⟨kvCacheSpec.map Prod.fst, s⟩]

theorem getKvCacheConfigUniformType_eq_ok (hnodup : (kvCacheSpec.map Prod.fst).Nodup)
    (hpos : 0 < availableMemory) :
    getKvCacheConfigUniformType cfg kvCacheSpec availableMemory = .ok config ↔
      0 < cfg.maxModelLen ∧ ∃ s, Uniform kvCacheSpec s ∧
        config = sized kvCacheSpec s (numBlocksOf cfg kvCacheSpec availableMemory) := by
  -- with one spec the page size is the one of the spec
  have huniform : ∀ s, Uniform kvCacheSpec s →
      getKvCacheConfigUniformType cfg kvCacheSpec availableMemory =
        if cfg.maxModelLen = 0 then throw .zeroDivisionError
        else .ok (sized kvCacheSpec s (numBlocksOf cfg kvCacheSpec availableMemory)) := by
    intro s h
    have hnum : max (availableMemory / s.pageSizeBytes / (kvCacheSpec.length : ℤ)) 0 =
        availableMemory / bytesPerBlock kvCacheSpec := by
      rw [bytesPerBlock, h.sum_map LayerSpec.pageSizeBytes,
        Int.ediv_ediv_of_nonneg (Int.natCast_nonneg _), mul_comm kvCacheSpec.length, Nat.cast_mul]
      exact max_eq_left (Int.ediv_nonneg hpos.le (by positivity))
    have hgroups : createKvCacheGroupSpecs kvCacheSpec [kvCacheSpec.map Prod.fst] =
        .ok [⟨kvCacheSpec.map Prod.fst, s⟩] :=
      (createKvCacheGroupSpecs_eq_ok hnodup).mpr ⟨s, h, rfl⟩
    rw [getKvCacheConfigUniformType, h.map_dedup LayerSpec.pageSizeBytes]
    simp only [List.length_singleton, pyGet_cons_zero, ok_bind, hnum, hgroups]
    split_ifs <;> rfl
  constructor
  · intro h
    have hgroups : ∃ s, Uniform kvCacheSpec s := by
      simp only [getKvCacheConfigUniformType, bind_eq_ok] at h
      obtain ⟨-, -, pageSize, -, h⟩ := h
      split_ifs at h
      · cases h
      simp only [bind_eq_ok] at h
      obtain ⟨groups, hgroups, -⟩ := h
      obtain ⟨s, hs, -⟩ := (createKvCacheGroupSpecs_eq_ok hnodup).mp hgroups
      exact ⟨s, hs⟩
    obtain ⟨s, hs⟩ := hgroups
    rw [huniform s hs] at h
    split_ifs at h with hlen
    exact ⟨Nat.pos_of_ne_zero hlen, s, hs, (Except.ok.inj h).symm⟩
  · rintro ⟨hlen, s, hs, rfl⟩
    rw [huniform s hs, if_neg hlen.ne']

theorem checkEnoughKvCacheMemory_eq_ok {u : Unit} :
    checkEnoughKvCacheMemory gib cfg kvCacheSpec availableMemory = .ok u ↔
      0 < availableMemory ∧ (neededMemory cfg kvCacheSpec : ℤ) ≤ availableMemory := by
  unfold checkEnoughKvCacheMemory
  dsimp only
  split_ifs with hnone hneeded
  · simp [hnone]
  · simp [not_le.mpr hneeded]
  · exact ⟨fun _ => ⟨not_le.mp hnone, not_lt.mp hneeded⟩, fun _ => rfl⟩

/-- What a worker must report, for layers that get the spec. -/
structure Accepted (cfg : VllmConfig) (s : LayerSpec)
    (worker : List (LayerName × LayerSpec) × ℤ) : Prop where
  available : 0 < worker.2
  enough : (neededMemory cfg worker.1 : ℤ) ≤ worker.2
  modelLen : 0 < cfg.maxModelLen
  uniform : Uniform (unifyHybridKvCacheSpecs worker.1) s

theorem getKvCacheConfig_eq_ok {worker : List (LayerName × LayerSpec) × ℤ}
    (hnodup : (worker.1.map Prod.fst).Nodup) :
    getKvCacheConfig gib cfg worker.1 worker.2 = .ok config ↔ ∃ s, Accepted cfg s worker ∧
      config = sized (unifyHybridKvCacheSpecs worker.1) s (numBlocksOf cfg worker.1 worker.2) := by
  have hnodup' : ((unifyHybridKvCacheSpecs worker.1).map Prod.fst).Nodup := by
    rwa [keys_unify]
  have hnum : numBlocksOf cfg (unifyHybridKvCacheSpecs worker.1) worker.2 =
      numBlocksOf cfg worker.1 worker.2 := by
    rw [numBlocksOf, bytesPerBlock_unify]
    rfl
  rw [getKvCacheConfig]
  simp only [bind_eq_ok, checkEnoughKvCacheMemory_eq_ok]
  constructor
  · rintro ⟨-, ⟨hpos, henough⟩, h⟩
    split_ifs at h
    obtain ⟨hlen, s, huniform, rfl⟩ := (getKvCacheConfigUniformType_eq_ok hnodup' hpos).mp h
    exact ⟨s, ⟨hpos, henough, hlen, huniform⟩, by rw [hnum]⟩
  · rintro ⟨s, h, rfl⟩
    refine ⟨(), ⟨h.available, h.enough⟩, ?_⟩
    have htype : isKvCacheTypeUniform (unifyHybridKvCacheSpecs worker.1) = true := by
      rw [isKvCacheTypeUniform, h.uniform.map_dedup LayerSpec.typeId]
      rfl
    rw [if_pos htype]
    exact (getKvCacheConfigUniformType_eq_ok hnodup' h.available).mpr
      ⟨h.modelLen, s, h.uniform, by rw [hnum]⟩

/-! ## All workers -/

variable {worker : List (LayerName × LayerSpec) × ℤ}
  {workers : List (List (LayerName × LayerSpec) × ℤ)}

/-- The configuration of a worker by itself. -/
def workerConfig (cfg : VllmConfig) (worker : List (LayerName × LayerSpec) × ℤ) : KVCacheConfig :=
  match unifyHybridKvCacheSpecs worker.1 with
  | [] => ⟨0, [], []⟩
  | layer :: layers => sized (layer :: layers) layer.2 (numBlocksOf cfg worker.1 worker.2)

theorem workerConfig_eq (h : Uniform (unifyHybridKvCacheSpecs worker.1) s) :
    workerConfig cfg worker =
      sized (unifyHybridKvCacheSpecs worker.1) s (numBlocksOf cfg worker.1 worker.2) := by
  unfold workerConfig
  split
  next hnil => exact absurd hnil h.1
  next layer layers hcons =>
    rw [hcons, h.2 layer (hcons ▸ List.mem_cons_self)]

/-- The blocks that every worker holds. -/
def poolSize (cfg : VllmConfig) (workers : List (List (LayerName × LayerSpec) × ℤ)) : ℕ :=
  match workers.map fun worker => numBlocksOf cfg worker.1 worker.2 with
  | [] => 0
  | n :: ns => ns.foldl min n

theorem poolSize_le (cfg : VllmConfig) (hworker : worker ∈ workers) :
    poolSize cfg workers ≤ numBlocksOf cfg worker.1 worker.2 := by
  unfold poolSize
  have hmem : numBlocksOf cfg worker.1 worker.2 ∈
      workers.map fun worker => numBlocksOf cfg worker.1 worker.2 := List.mem_map_of_mem hworker
  split
  next hnil =>
    rw [hnil] at hmem
    cases hmem
  next n ns hcons =>
    rw [hcons] at hmem
    obtain ⟨hfirst, hrest⟩ := List.le_foldl_min_iff.mp (le_refl (ns.foldl min n))
    rcases List.mem_cons.mp hmem with heq | hmem
    · rw [heq]
      exact hfirst
    · exact hrest _ hmem

theorem exists_poolSize (cfg : VllmConfig) (hne : workers ≠ []) : ∃ worker ∈ workers,
    poolSize cfg workers = numBlocksOf cfg worker.1 worker.2 := by
  unfold poolSize
  split
  next hnil => exact absurd (List.map_eq_nil_iff.mp hnil) hne
  next n ns hcons =>
    have hmem := List.foldl_min_mem ns n
    rw [← hcons] at hmem
    obtain ⟨worker, hworker, heq⟩ := List.mem_map.mp hmem
    exact ⟨worker, hworker, heq.symm⟩

theorem unifyKvCacheConfigs_singleton {first : KVCacheConfig} {rest : List KVCacheConfig}
    (h : ∀ config ∈ first :: rest, ∃ group, config.kvCacheGroups = [group]) :
    unifyKvCacheConfigs (first :: rest) = do
      pyAssert (∀ config ∈ rest, ∀ groups ∈ first.kvCacheGroups.zip config.kvCacheGroups,
        groups.1.kvCacheSpec = groups.2.kvCacheSpec) ""
      return (first :: rest).map fun config =>
        { config with
          numBlocks := (rest.map KVCacheConfig.numBlocks).foldl min first.numBlocks } := by
  have hsorted : ((first :: rest).map fun config =>
      { config with
        kvCacheGroups := config.kvCacheGroups.mergeSort fun x y =>
          decide (x.kvCacheSpec.typeId ≤ y.kvCacheSpec.typeId) }) = first :: rest := by
    refine (List.map_congr_left fun config hconfig => ?_).trans (List.map_id _)
    obtain ⟨group, hgroup⟩ := h config hconfig
    rw [hgroup, List.mergeSort_singleton, ← hgroup]
    rfl
  rw [unifyKvCacheConfigs, hsorted]

theorem Accepted.workerConfig_eq (h : Accepted cfg s worker) : workerConfig cfg worker =
    sized (unifyHybridKvCacheSpecs worker.1) s (numBlocksOf cfg worker.1 worker.2) :=
  StartUp.workerConfig_eq h.uniform

/-- The configurations of the workers can be unified if and only if their layers have one spec. -/
theorem unifyKvCacheConfigs_workers {configs : List KVCacheConfig} (hne : workers ≠ [])
    (h : ∀ worker ∈ workers, ∃ s, Accepted cfg s worker) :
    unifyKvCacheConfigs (workers.map (workerConfig cfg)) = .ok configs ↔
      (∃ s, ∀ worker ∈ workers, Accepted cfg s worker) ∧
      configs = workers.map fun worker =>
        { workerConfig cfg worker with numBlocks := poolSize cfg workers } := by
  cases workers with
  | nil => exact absurd rfl hne
  | cons first rest =>
      have hgroups : ∀ worker ∈ first :: rest, ∀ s, Accepted cfg s worker →
          (workerConfig cfg worker).kvCacheGroups =
            [⟨(unifyHybridKvCacheSpecs worker.1).map Prod.fst, s⟩] := by
        intro worker _ s hs
        rw [hs.workerConfig_eq]
        rfl
      have hnum : ∀ worker ∈ first :: rest, (workerConfig cfg worker).numBlocks =
          numBlocksOf cfg worker.1 worker.2 := by
        intro worker hworker
        obtain ⟨s, hs⟩ := h worker hworker
        rw [hs.workerConfig_eq]
        rfl
      have hrest : (rest.map (workerConfig cfg)).map KVCacheConfig.numBlocks =
          rest.map fun worker => numBlocksOf cfg worker.1 worker.2 := by
        rw [List.map_map]
        exact List.map_congr_left fun worker hworker =>
          hnum worker (List.mem_cons_of_mem _ hworker)
      have hmin : ((rest.map (workerConfig cfg)).map KVCacheConfig.numBlocks).foldl min
          (workerConfig cfg first).numBlocks = poolSize cfg (first :: rest) := by
        rw [poolSize, List.map_cons, hnum first List.mem_cons_self, hrest]
      have hsingleton : ∀ config ∈ workerConfig cfg first :: rest.map (workerConfig cfg),
          ∃ group, config.kvCacheGroups = [group] := by
        intro config hconfig
        rw [← List.map_cons] at hconfig
        obtain ⟨worker, hworker, rfl⟩ := List.mem_map.mp hconfig
        obtain ⟨s, hs⟩ := h worker hworker
        exact ⟨_, hgroups worker hworker s hs⟩
      obtain ⟨s, hs⟩ := h first List.mem_cons_self
      rw [List.map_cons, unifyKvCacheConfigs_singleton hsingleton, hmin, ← List.map_cons,
        List.map_map]
      simp only [bind_eq_ok, pyAssert_eq_ok, pure_eq_ok, exists_const]
      refine and_congr ?_ eq_comm
      constructor
      · intro hsame
        refine ⟨s, fun worker hworker => ?_⟩
        rcases List.mem_cons.mp hworker with rfl | hrest
        · exact hs
        · obtain ⟨s', hs'⟩ := h worker hworker
          have hgroup := hsame _ (List.mem_map_of_mem hrest)
          rw [hgroups first List.mem_cons_self s hs, hgroups worker hworker s' hs'] at hgroup
          obtain rfl : s = s' := hgroup _ List.mem_cons_self
          exact hs'
      · rintro ⟨s', hall⟩ config hconfig groups hmem
        obtain ⟨worker, hworker, rfl⟩ := List.mem_map.mp hconfig
        rw [hgroups first List.mem_cons_self s' (hall first List.mem_cons_self),
          hgroups worker (List.mem_cons_of_mem _ hworker) s'
            (hall worker (List.mem_cons_of_mem _ hworker))] at hmem
        obtain rfl := List.mem_singleton.mp hmem
        rfl

theorem initializeKvCaches_eq_ok {kvCacheSpecs : List (List (LayerName × LayerSpec))}
    {availableGpuMemory : List ℤ} {n : ℕ} {configs : List KVCacheConfig}
    (hnodup : ∀ kvCacheSpec ∈ kvCacheSpecs, (kvCacheSpec.map Prod.fst).Nodup) :
    initializeKvCaches gib cfg kvCacheSpecs availableGpuMemory = .ok (n, configs) ↔
      kvCacheSpecs.length = availableGpuMemory.length ∧ kvCacheSpecs ≠ [] ∧
      (∃ s, ∀ worker ∈ kvCacheSpecs.zip availableGpuMemory, Accepted cfg s worker) ∧
      n = poolSize cfg (kvCacheSpecs.zip availableGpuMemory) ∧
      configs = (kvCacheSpecs.zip availableGpuMemory).map fun worker =>
        { workerConfig cfg worker with numBlocks := n } := by
  generalize hworkers : kvCacheSpecs.zip availableGpuMemory = workers
  have hkeys : ∀ worker ∈ workers, (worker.1.map Prod.fst).Nodup := by
    intro worker hworker
    rw [← hworkers] at hworker
    exact hnodup _ (List.of_mem_zip hworker).1
  have hworker : ∀ worker ∈ workers, ∀ s, Accepted cfg s worker →
      getKvCacheConfig gib cfg worker.1 worker.2 = .ok (workerConfig cfg worker) := by
    intro worker hmem s hs
    exact (getKvCacheConfig_eq_ok (hkeys worker hmem)).mpr ⟨s, hs, hs.workerConfig_eq⟩
  have hempty : kvCacheSpecs.length = availableGpuMemory.length →
      (workers = [] ↔ kvCacheSpecs = []) :=
    fun hlength => hworkers ▸ List.zip_eq_nil_iff_of_length hlength
  rw [initializeKvCaches, hworkers]
  simp only [bind_eq_ok, pyAssert_eq_ok, exists_const]
  constructor
  · rintro ⟨hlength, configs₀, hmap, configs₁, hunify, first, hfirst, -, heq⟩
    have haccepted : ∀ worker ∈ workers, ∃ s, Accepted cfg s worker := by
      intro worker hmem
      obtain ⟨config, hconfig⟩ := exists_of_mapM_eq_ok hmap worker hmem
      obtain ⟨s, hs, -⟩ := (getKvCacheConfig_eq_ok (hkeys worker hmem)).mp hconfig
      exact ⟨s, hs⟩
    have hmap' := mapM_eq_ok fun worker hmem =>
      (haccepted worker hmem).elim fun s hs => hworker worker hmem s hs
    obtain rfl := Except.ok.inj (hmap.symm.trans hmap')
    have hne : workers ≠ [] := by
      rintro rfl
      cases hunify
    obtain ⟨hall, rfl⟩ := (unifyKvCacheConfigs_workers hne haccepted).mp hunify
    obtain ⟨rfl, rfl⟩ := Prod.mk.inj (Except.ok.inj heq)
    have hnum : first.numBlocks = poolSize cfg workers := by
      obtain ⟨worker, rest, rfl⟩ := List.exists_cons_of_ne_nil hne
      rw [List.map_cons, pyGet_cons_zero] at hfirst
      rw [← Except.ok.inj hfirst]
    refine ⟨hlength, (hempty hlength).not.mp hne, hall, hnum, ?_⟩
    rw [hnum]
  · rintro ⟨hlength, hne, ⟨s, hall⟩, rfl, rfl⟩
    have hne' := (hempty hlength).not.mpr hne
    refine ⟨hlength, _, mapM_eq_ok fun worker hmem => hworker worker hmem s (hall worker hmem), _,
      (unifyKvCacheConfigs_workers hne' fun worker hmem => ⟨s, hall worker hmem⟩).mpr
        ⟨⟨s, hall⟩, rfl⟩, ?_⟩
    obtain ⟨worker, rest, rfl⟩ := List.exists_cons_of_ne_nil hne'
    refine ⟨_, pyGet_cons_zero _ _, fun config hconfig => ?_, rfl⟩
    obtain ⟨other, -, rfl⟩ := List.mem_map.mp hconfig
    rfl

/-! ## What the scheduler gets -/

/-- The number of blocks with which the scheduler starts, when the configuration gives none. -/
structure PoolSpec (cfg : VllmConfig) (s : LayerSpec)
    (workers : List (List (LayerName × LayerSpec) × ℤ)) (n : ℕ) (configs : List KVCacheConfig) :
    Prop where
  /-- Every worker has the blocks, in tensors that hold them. -/
  configs : List.Forall₂ (fun worker config => config.numBlocks = n ∧
    config.tensors.map Prod.fst = worker.1.map Prod.fst ∧
    (∀ tensor ∈ config.tensors, s.pageSizeBytes * n ≤ tensor.2) ∧
    config.kvCacheGroups = [⟨worker.1.map Prod.fst, s⟩]) workers configs
  fits : ∀ worker ∈ workers, (n : ℤ) * bytesPerBlock worker.1 ≤ worker.2
  tight : ∃ worker ∈ workers, worker.2 < ((n : ℤ) + 1) * bytesPerBlock worker.1
  /-- The pool holds the longest request if no window has been taken for full attention after the
  memory was checked. -/
  holds : (∀ worker ∈ workers, unifyHybridKvCacheSpecs worker.1 = worker.1) →
    s.maxNumBlocks cfg ≤ n

theorem numBlocksOf_fits (hoverride : cfg.numGpuBlocksOverride = none) (h : Accepted cfg s worker) :
    (numBlocksOf cfg worker.1 worker.2 : ℤ) * bytesPerBlock worker.1 ≤ worker.2 ∧
      worker.2 < ((numBlocksOf cfg worker.1 worker.2 : ℤ) + 1) * bytesPerBlock worker.1 := by
  have hbytes : 0 < bytesPerBlock worker.1 := by
    rw [← bytesPerBlock_unify, bytesPerBlock, h.uniform.sum_map LayerSpec.pageSizeBytes]
    exact Nat.mul_pos (List.length_pos_iff.mpr h.uniform.1) s.pageSizeBytes_pos
  have hnum : (numBlocksOf cfg worker.1 worker.2 : ℤ) = worker.2 / bytesPerBlock worker.1 := by
    rw [numBlocksOf, hoverride, Option.getD_none]
    exact Int.toNat_of_nonneg (Int.ediv_nonneg h.available.le (Int.natCast_nonneg _))
  rw [hnum]
  exact ⟨Int.ediv_mul_le _ (by omega), Int.lt_ediv_add_one_mul_self _ (by omega)⟩

theorem maxNumBlocks_le_numBlocksOf (hoverride : cfg.numGpuBlocksOverride = none)
    (h : Accepted cfg s worker) (hsame : unifyHybridKvCacheSpecs worker.1 = worker.1) :
    s.maxNumBlocks cfg ≤ numBlocksOf cfg worker.1 worker.2 := by
  have huniform := h.uniform
  rw [hsame] at huniform
  have hneeded : neededMemory cfg worker.1 = s.maxNumBlocks cfg * bytesPerBlock worker.1 := by
    rw [neededMemory, huniform.sum_map (LayerSpec.maxMemoryUsageBytes cfg), bytesPerBlock,
      huniform.sum_map LayerSpec.pageSizeBytes, LayerSpec.maxMemoryUsageBytes]
    ring
  have henough := h.enough
  have hlt := (numBlocksOf_fits hoverride h).2
  rw [hneeded] at henough
  by_contra hgt
  have hmul : (numBlocksOf cfg worker.1 worker.2 + 1) * bytesPerBlock worker.1 ≤
      s.maxNumBlocks cfg * bytesPerBlock worker.1 := Nat.mul_le_mul_right _ (by omega)
  have hcast := Int.ofNat_le.mpr hmul
  push_cast at hcast henough
  omega

theorem poolSpec (hoverride : cfg.numGpuBlocksOverride = none) (hne : workers ≠ [])
    (h : ∀ worker ∈ workers, Accepted cfg s worker) :
    PoolSpec cfg s workers (poolSize cfg workers) (workers.map fun worker =>
      { workerConfig cfg worker with numBlocks := poolSize cfg workers }) where
  configs := by
    rw [List.forall₂_map_right_iff, List.forall₂_same]
    intro worker hworker
    rw [(h worker hworker).workerConfig_eq]
    refine ⟨rfl, ?_, fun tensor htensor => ?_, ?_⟩
    · rw [← keys_unify worker.1]
      exact List.map_map
    · obtain ⟨layer, -, rfl⟩ := List.mem_map.mp htensor
      exact Nat.mul_le_mul_left _ (poolSize_le cfg hworker)
    · rw [← keys_unify worker.1]
      rfl
  fits := by
    intro worker hworker
    have hle := Int.ofNat_le.mpr (poolSize_le cfg hworker)
    exact (mul_le_mul_of_nonneg_right hle (Int.natCast_nonneg _)).trans
      (numBlocksOf_fits hoverride (h worker hworker)).1
  tight := by
    obtain ⟨worker, hworker, heq⟩ := exists_poolSize cfg hne
    refine ⟨worker, hworker, ?_⟩
    rw [heq]
    exact (numBlocksOf_fits hoverride (h worker hworker)).2
  holds := by
    intro hsame
    obtain ⟨worker, hworker, heq⟩ := exists_poolSize cfg hne
    rw [heq]
    exact maxNumBlocks_le_numBlocksOf hoverride (h worker hworker) (hsame worker hworker)

/-- The engine starts if and only if each worker has memory for one request of the greatest length
and all layers get one spec; it then takes as many blocks as all workers hold. -/
theorem initializeKvCaches_spec (hoverride : cfg.numGpuBlocksOverride = none)
    {kvCacheSpecs : List (List (LayerName × LayerSpec))} {availableGpuMemory : List ℤ}
    (hnodup : ∀ kvCacheSpec ∈ kvCacheSpecs, (kvCacheSpec.map Prod.fst).Nodup) :
    ((∃ result, initializeKvCaches gib cfg kvCacheSpecs availableGpuMemory = .ok result) ↔
      kvCacheSpecs.length = availableGpuMemory.length ∧ kvCacheSpecs ≠ [] ∧
        ∃ s, ∀ worker ∈ kvCacheSpecs.zip availableGpuMemory, Accepted cfg s worker) ∧
    ∀ n configs, initializeKvCaches gib cfg kvCacheSpecs availableGpuMemory = .ok (n, configs) →
      ∃ s, (∀ worker ∈ kvCacheSpecs.zip availableGpuMemory, Accepted cfg s worker) ∧
        PoolSpec cfg s (kvCacheSpecs.zip availableGpuMemory) n configs := by
  constructor
  · constructor
    · rintro ⟨⟨n, configs⟩, h⟩
      obtain ⟨hlength, hne, hall, -⟩ := (initializeKvCaches_eq_ok hnodup).mp h
      exact ⟨hlength, hne, hall⟩
    · rintro ⟨hlength, hne, hall⟩
      exact ⟨_, (initializeKvCaches_eq_ok hnodup).mpr ⟨hlength, hne, hall, rfl, rfl⟩⟩
  · intro n configs h
    obtain ⟨hlength, hne, ⟨s, hall⟩, rfl, rfl⟩ := (initializeKvCaches_eq_ok hnodup).mp h
    exact ⟨s, hall, poolSpec hoverride ((List.zip_eq_nil_iff_of_length hlength).not.mpr hne) hall⟩

/-- The null block aside, the scheduler's pool is at most one block short of the longest request. -/
theorem PoolSpec.maxNumBlocksPerReq_le {spec : AttentionSpec} {n : ℕ}
    {configs : List KVCacheConfig} (h : PoolSpec cfg (.fullAttention spec) workers n configs)
    (hsame : ∀ worker ∈ workers, unifyHybridKvCacheSpecs worker.1 = worker.1)
    {kv : Spexis.KVCacheConfig} (hlen : kv.maxModelLen = cfg.maxModelLen)
    (hblock : kv.blockSize = spec.blockSize) :
    kv.maxNumBlocksPerReq ≤ (BlockPool.init n).getNumFreeBlocks + 1 := by
  have hholds : cdiv cfg.maxModelLen spec.blockSize ≤ n := h.holds hsame
  rw [Spexis.KVCacheConfig.maxNumBlocksPerReq, hlen, hblock, BlockPool.getNumFreeBlocks,
    BlockPool.init, List.length_tail, List.length_range]
  omega

/-! ## Two workers -/

def float16 : Dtype := ⟨"float16", 2, by decide⟩

def smallSpec : AttentionSpec := ⟨16, 1, 4, float16, false, by decide, by decide, by decide⟩

def smallConfig : VllmConfig := ⟨64, 32, none⟩

def twoLayers : List (LayerName × LayerSpec) :=
  [("layers.0", .fullAttention smallSpec), ("layers.1", .fullAttention smallSpec)]

theorem twoLayers_uniform :
    Uniform (unifyHybridKvCacheSpecs twoLayers) (.fullAttention smallSpec) :=
  ⟨by decide, by decide⟩

theorem twoLayers_accepted {available : ℤ} (h : 2048 ≤ available) :
    Accepted smallConfig (.fullAttention smallSpec) (twoLayers, available) where
  available := lt_of_lt_of_le (by decide) h
  enough := h
  modelLen := by decide
  uniform := twoLayers_uniform

/-- The second worker has less memory. -/
theorem initializeKvCaches_spec_twoWorkers : ∃ n configs,
    initializeKvCaches toString smallConfig [twoLayers, twoLayers] [4096, 2100] =
      .ok (n, configs) ∧ n = 4 ∧ ∃ s,
        PoolSpec smallConfig s [(twoLayers, 4096), (twoLayers, 2100)] n configs := by
  obtain ⟨hok, hspec⟩ := @initializeKvCaches_spec smallConfig toString rfl
    [twoLayers, twoLayers] [4096, 2100] (by decide)
  have haccepted : ∀ worker ∈ [twoLayers, twoLayers].zip [4096, (2100 : ℤ)],
      Accepted smallConfig (.fullAttention smallSpec) worker := by
    intro worker hworker
    rcases List.mem_pair.mp hworker with rfl | rfl
    · exact twoLayers_accepted (by decide)
    · exact twoLayers_accepted (by decide)
  obtain ⟨⟨n, configs⟩, hresult⟩ := hok.mpr ⟨rfl, by decide, _, haccepted⟩
  obtain ⟨s, hs, hpool⟩ := hspec n configs hresult
  refine ⟨n, configs, hresult, ?_, s, hpool⟩
  have hs' : LayerSpec.fullAttention smallSpec = s :=
    (hs (twoLayers, 2100) (by decide)).uniform.2 ("layers.0", _) (by decide)
  subst hs'
  have hholds : 4 ≤ n := hpool.holds (by decide)
  have hfits : (n : ℤ) * 512 ≤ 2100 := hpool.fits (twoLayers, 2100) (by decide)
  omega

/-- Two blocks of each layer fit. -/
theorem estimateMaxModelLen_spec_twoLayers :
    estimateMaxModelLen smallConfig twoLayers 1500 = 32 := by
  rcases @estimateMaxModelLen_spec smallConfig twoLayers 1500 (by decide) with
    ⟨-, hnone⟩ | ⟨hmem, hupper⟩
  · exact absurd (hnone 1 le_rfl) (by decide)
  · refine le_antisymm ?_ (hupper ⟨by decide, by decide, by decide⟩)
    by_contra hlt
    exact absurd (fitsInMemory_anti (not_le.mp hlt) hmem.2.2) (by decide)

/-! ## A pool that is too small -/

/-- A layer with a window and one without. -/
def hybridLayers : List (LayerName × LayerSpec) :=
  [("layers.0", .fullAttention smallSpec), ("layers.1", .slidingWindow smallSpec 1 rfl)]

/-- The memory has been checked before the window is taken for full attention. -/
theorem hybrid_pool_short : ¬ ∀ cfg : VllmConfig, cfg.numGpuBlocksOverride = none →
    ∀ kvCacheSpec available n configs,
      initializeKvCaches toString cfg [kvCacheSpec] [available] = .ok (n, configs) →
        ∀ layer ∈ kvCacheSpec, layer.2 = .fullAttention smallSpec →
          layer.2.maxNumBlocks cfg ≤ n := by
  intro hall
  have haccepted : Accepted smallConfig (.fullAttention smallSpec) (hybridLayers, 1900) :=
    ⟨by decide, by decide, by decide, by decide, by decide⟩
  obtain ⟨configs, hresult⟩ : ∃ configs,
      initializeKvCaches toString smallConfig [hybridLayers] [1900] = .ok (3, configs) := by
    refine ⟨_, (initializeKvCaches_eq_ok (by decide)).mpr
      ⟨rfl, List.cons_ne_nil _ _, ⟨.fullAttention smallSpec, fun worker hworker => ?_⟩,
        by decide, rfl⟩⟩
    rw [List.mem_singleton.mp hworker]
    exact haccepted
  have hle := hall smallConfig rfl hybridLayers 1900 3 configs hresult
    ("layers.0", .fullAttention smallSpec) List.mem_cons_self rfl
  exact absurd hle (by decide)

end StartUp

end Spexis
