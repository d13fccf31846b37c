import Mathlib.Data.List.TakeWhile
import Spexis.Library.Paging
import Spexis.Model.V1.Scheduler
import Spexis.Verification.V1.BlockSharing

/-! # What attention reads through the block tables

The keys and values of a scheduled token go into the slot that the block table gives its position.
With blocks shared, evicted and taken over, every running request still reads what its own tokens
have been computed to. -/

namespace Spexis.V1

open Python Transition Paging

/-- What the keys and values of a token depend on: the adapter and the tokens up to it. -/
structure CacheEntry where
  loraIntId : Option ℤ
  tokenIds : List TokenId
  deriving DecidableEq, Repr

def Request.cacheEntry (r : Request) (position : ℕ) : CacheEntry :=
  ⟨r.loraIntId, r.allTokenIds.take (position + 1)⟩

/-! ## What a hash stands for -/

/-- The adapter among the extra keys. -/
def loraOf : Option (List ExtraKey) → Option ℤ
  | some (.lora loraIntId :: _) => some loraIntId
  | _ => none

/-- The tokens of a chain of hashes. -/
def tokensOf (hashes : List BlockHashType) : List TokenId :=
  hashes.flatMap BlockHashType.tokenIds

/-- The hashes are those of the request's first blocks. -/
structure Labelled (cfg : KVCacheConfig) (r : Request) (hashes : List BlockHashType) : Prop where
  tokens : ∀ i h, hashes[i]? = some h →
    h.tokenIds = pySlice r.allTokenIds (i * cfg.blockSize) ((i + 1) * cfg.blockSize)
  lora : ∀ h ∈ hashes, loraOf h.extraKeys = r.loraIntId

section Hashes

variable {cfg : KVCacheConfig} {r : Request} {hashes : List BlockHashType}

theorem labelled_nil (cfg : KVCacheConfig) (r : Request) : Labelled cfg r [] :=
  ⟨fun _ _ h => (by cases h), fun _ h => absurd h List.not_mem_nil⟩

theorem Labelled.take (h : Labelled cfg r hashes) (n : ℕ) : Labelled cfg r (hashes.take n) := by
  refine ⟨fun i hash hget => ?_, fun hash hmem => h.lora hash (List.mem_of_mem_take hmem)⟩
  rw [List.getElem?_take] at hget
  split_ifs at hget
  exact h.tokens i hash hget

/-- A chain of hashes has the tokens of its blocks. -/
theorem Labelled.tokensOf_eq (h : Labelled cfg r hashes) :
    tokensOf hashes = r.allTokenIds.take (hashes.length * cfg.blockSize) := by
  induction hashes using List.reverseRecOn with
  | nil => rw [List.length_nil, Nat.zero_mul, List.take_zero]; rfl
  | append_singleton hashes hash ih =>
      have hinit : Labelled cfg r hashes := by
        have htake := h.take hashes.length
        rwa [List.take_left] at htake
      have hlast := h.tokens hashes.length hash List.getElem?_concat_length
      have hcut : r.allTokenIds.take (hashes.length * cfg.blockSize) =
          (r.allTokenIds.take ((hashes.length + 1) * cfg.blockSize)).take
            (hashes.length * cfg.blockSize) := by
        rw [List.take_take, min_eq_left (Nat.mul_le_mul_right _ (Nat.le_succ _))]
      rw [tokensOf, List.flatMap_append, ← tokensOf, ih hinit, List.flatMap_singleton, hlast,
        pySlice, hcut, List.take_append_drop, List.length_append, List.length_singleton]

/-- The keys of multi-modal inputs are no adapters. -/
theorem genMmExtraHashKeysLoop_mm (start stop : ℤ) (inputs : List (PlaceholderRange × String))
    (currMmIdx : ℕ) {key : ExtraKey}
    (h : key ∈ (genMmExtraHashKeysLoop start stop inputs currMmIdx).1) :
    ∃ mmHash, key = .mm mmHash := by
  induction inputs generalizing currMmIdx with
  | nil => exact absurd h List.not_mem_nil
  | cons input inputs ih =>
      obtain ⟨position, mmHash⟩ := input
      unfold genMmExtraHashKeysLoop at h
      split_ifs at h
      · exact ih _ h
      · rcases List.mem_cons.mp h with rfl | h
        · exact ⟨mmHash, rfl⟩
        · exact ih _ h
      · exact ⟨mmHash, List.mem_singleton.mp h⟩
      · exact absurd h List.not_mem_nil

theorem genMmExtraHashKeys_mm {start stop mmIdx mmIdx' : ℤ} {keys : List ExtraKey} {key : ExtraKey}
    (h : genMmExtraHashKeys r start stop mmIdx = .ok (keys, mmIdx')) (hkey : key ∈ keys) :
    ∃ mmHash, key = .mm mmHash := by
  unfold genMmExtraHashKeys at h
  split at h
  · cases h
    exact absurd hkey List.not_mem_nil
  next last hlast =>
    by_cases hlength : r.mmPositions.length ≠ r.mmHashes.length
    · rw [if_pos hlength] at h
      cases h
    rw [if_neg hlength] at h
    by_cases hpassed : (last.offset + last.length : ℤ) < start
    · rw [if_pos hpassed] at h
      cases h
      exact absurd hkey List.not_mem_nil
    rw [if_neg hpassed] at h
    obtain ⟨_, -, h⟩ := bind_eq_ok.mp h
    obtain ⟨rfl, -⟩ := Prod.mk.inj (pure_eq_ok.mp h)
    exact genMmExtraHashKeysLoop_mm _ _ _ _ hkey

theorem loraOf_generate {start stop mmIdx mmIdx' : ℤ} {keys : Option (List ExtraKey)}
    (h : generateBlockHashExtraKeys r start stop mmIdx = .ok (keys, mmIdx')) :
    loraOf keys = r.loraIntId := by
  unfold generateBlockHashExtraKeys at h
  simp only [bind_eq_ok, pure_eq_ok, Prod.exists, Prod.mk.injEq] at h
  obtain ⟨mmKeys, _, hmm, rfl, -⟩ := h
  cases hlora : r.loraIntId with
  | some loraIntId => simp [genLoraExtraHashKeys, hlora, loraOf]
  | none =>
      rw [genLoraExtraHashKeys, hlora, List.nil_append]
      cases mmKeys with
      | nil => rfl
      | cons key mmKeys =>
          obtain ⟨mmHash, rfl⟩ := genMmExtraHashKeys_mm hmm List.mem_cons_self
          rfl

theorem hashRequestTokensLoop_labelled {n start : ℕ} {parent : Option ℕ} {mmIdx : ℤ}
    (h : hashRequestTokensLoop cfg r n start parent mmIdx = .ok hashes) :
    (∀ i hash, hashes[i]? = some hash → hash.tokenIds = pySlice r.allTokenIds
        (start + i * cfg.blockSize) (start + (i + 1) * cfg.blockSize)) ∧
      ∀ hash ∈ hashes, loraOf hash.extraKeys = r.loraIntId := by
  induction n generalizing start parent mmIdx hashes with
  | zero =>
      cases h
      exact ⟨fun _ _ hget => (by cases hget), fun _ hmem => absurd hmem List.not_mem_nil⟩
  | succ n ih =>
      obtain ⟨keys, mmIdx', rest, hadapter, hrest, rfl⟩ : ∃ keys mmIdx' rest,
          loraOf keys = r.loraIntId ∧
          hashRequestTokensLoop cfg r n (start + cfg.blockSize) (some (hashBlockTokens cfg parent
            (pySlice r.allTokenIds start (start + cfg.blockSize)) keys).hashValue) mmIdx' =
              .ok rest ∧
          hashBlockTokens cfg parent (pySlice r.allTokenIds start (start + cfg.blockSize)) keys ::
            rest = hashes := by
        unfold hashRequestTokensLoop at h
        by_cases hneed : needExtraKeys r = true
        · simp only [if_pos hneed, bind_eq_ok, pure_eq_ok, Prod.exists] at h
          obtain ⟨keys, mmIdx', hkeys, rest, hrest, hhashes⟩ := h
          exact ⟨keys, mmIdx', rest, loraOf_generate hkeys, hrest, hhashes⟩
        · simp only [if_neg hneed, ok_bind, bind_eq_ok, pure_eq_ok] at h
          obtain ⟨rest, hrest, hhashes⟩ := h
          rw [needExtraKeys, decide_eq_true_eq, not_or, not_not, not_not] at hneed
          exact ⟨none, mmIdx, rest, hneed.2.symm, hrest, hhashes⟩
      obtain ⟨htokens, hlora⟩ := ih hrest
      refine ⟨fun i hash hget => ?_, fun hash hmem => ?_⟩
      · cases i with
        | zero =>
            obtain rfl := Option.some.inj hget
            rw [Nat.zero_mul, Nat.add_zero, Nat.zero_add, Nat.one_mul]
            rfl
        | succ i =>
            rw [htokens i hash hget]
            congr 1 <;> ring
      · rcases List.mem_cons.mp hmem with rfl | hmem
        · exact hadapter
        · exact hlora hash hmem

theorem hashRequestTokens_labelled (h : hashRequestTokens cfg r = .ok hashes) :
    Labelled cfg r hashes := by
  obtain ⟨htokens, hlora⟩ := hashRequestTokensLoop_labelled h
  refine ⟨fun i hash hget => ?_, hlora⟩
  have htoken := htokens i hash hget
  rwa [Nat.zero_add, Nat.zero_add] at htoken

end Hashes

/-! ## The memory -/

abbrev CacheMemory := Memory BlockId CacheEntry

/-- The block has the entries of a chain that ends in its hash. -/
def Memorized (cfg : KVCacheConfig) (memory : CacheMemory) (b : BlockId) (h : BlockHashType) :
    Prop :=
  ∃ hashes, Chained cfg none (hashes ++ [h]) ∧ ∀ slot < cfg.blockSize,
    memory b slot = some ⟨loraOf h.extraKeys,
      (tokensOf (hashes ++ [h])).take (hashes.length * cfg.blockSize + slot + 1)⟩

section Memorized

variable {cfg : KVCacheConfig} {r : Request} {hashes : List BlockHashType} {memory : CacheMemory}
  {b : BlockId} {h : BlockHashType} {i slot : ℕ}

/-- The chain up to a hash, and the entries that its tokens have. -/
theorem Labelled.cacheEntry_eq (hlabelled : Labelled cfg r hashes) (hget : hashes[i]? = some h)
    (hslot : slot < cfg.blockSize) :
    hashes.take i ++ [h] = hashes.take (i + 1) ∧ (hashes.take i).length = i ∧
      (⟨loraOf h.extraKeys, (tokensOf (hashes.take (i + 1))).take
        (i * cfg.blockSize + slot + 1)⟩ : CacheEntry) =
        r.cacheEntry (i * cfg.blockSize + slot) := by
  have hlt := (List.getElem?_eq_some_iff.mp hget).1
  have hlength : (hashes.take (i + 1)).length = i + 1 := by
    rw [List.length_take, min_eq_left (Nat.succ_le_of_lt hlt)]
  have hle : i * cfg.blockSize + slot + 1 ≤ (i + 1) * cfg.blockSize := by
    rw [Nat.succ_mul]
    omega
  refine ⟨by rw [List.take_add_one, hget]; rfl, by rw [List.length_take, min_eq_left hlt.le], ?_⟩
  rw [(hlabelled.take (i + 1)).tokensOf_eq, hlength, List.take_take, min_eq_left hle,
    hlabelled.lora h (List.mem_of_getElem? hget)]
  rfl

/-- A block under a hash of the request has the entries of the request. -/
theorem Memorized.entry (hfree : cfg.CollisionFree) (hmem : Memorized cfg memory b h)
    (hlabelled : Labelled cfg r hashes) (hchained : Chained cfg none hashes)
    (hget : hashes[i]? = some h) (hslot : slot < cfg.blockSize) :
    memory b slot = some (r.cacheEntry (i * cfg.blockSize + slot)) := by
  obtain ⟨hchain, hlength, hentry⟩ := hlabelled.cacheEntry_eq hget hslot
  obtain ⟨others, hothers, hslots⟩ := hmem
  have hshort := hchained.of_isPrefix (List.take_prefix (i + 1) hashes)
  rw [← hchain] at hshort
  have heq := Chained.eq_of_hashValue_eq hfree hothers hshort rfl
  have hothersLength : others.length = i := by
    have hlengths := congrArg List.length heq
    rw [List.length_append, List.length_append, hlength] at hlengths
    exact Nat.add_right_cancel hlengths
  rw [hslots slot hslot, heq, hothersLength, hchain, hentry]

theorem memorized_of_entries (hlabelled : Labelled cfg r hashes)
    (hchained : Chained cfg none hashes) (hget : hashes[i]? = some h)
    (hentries : ∀ slot < cfg.blockSize,
      memory b slot = some (r.cacheEntry (i * cfg.blockSize + slot))) :
    Memorized cfg memory b h := by
  have hchain : hashes.take i ++ [h] = hashes.take (i + 1) := by
    rw [List.take_add_one, hget]
    rfl
  refine ⟨hashes.take i, hchain ▸ hchained.of_isPrefix (List.take_prefix _ _), fun slot hslot => ?_⟩
  obtain ⟨-, hlength, hentry⟩ := hlabelled.cacheEntry_eq hget hslot
  rw [hentries slot hslot, hchain, hlength, hentry]

/-- The blocks that a search finds can be read. -/
theorem holds_of_cached {key : BlockId → Option BlockHashType} {blocks : List BlockId}
    (hpos : 0 < cfg.blockSize) (hfree : cfg.CollisionFree)
    (hmem : ∀ b h, key b = some h → Memorized cfg memory b h)
    (hlabelled : Labelled cfg r hashes) (hchained : Chained cfg none hashes)
    (hcached : ∀ (i : ℕ) (b : BlockId), blocks[i]? = some b →
      ∃ h, key b = some h ∧ hashes[i]? = some h) :
    Holds cfg.blockSize blocks r.cacheEntry memory (blocks.length * cfg.blockSize) := by
  intro position hposition
  have hblock := List.getElem?_eq_getElem ((Nat.div_lt_iff_lt_mul hpos).mpr hposition)
  obtain ⟨h, hkey, hget⟩ := hcached _ _ hblock
  refine ⟨_, hblock, ?_⟩
  rw [(hmem _ h hkey).entry hfree hlabelled hchained hget (Nat.mod_lt position hpos),
    Nat.div_add_mod']

end Memorized

/-! ## Allocation -/

namespace KVCacheManager

variable {cfg : KVCacheConfig} {m m' : KVCacheManager} {free computed newBlocks : List BlockId}
  {q : ReqId} {r : Request} {n numLookaheadTokens : ℕ}

/-- The new blocks have been nobody's. -/
theorem allocateSlots_unused (hcfg : cfg.PrefixCaching) (h : m.Pooled cfg free)
    (hcomp : computed.Nodup) (hnew : ∀ b ∈ computed, b ∉ m.reqToBlocks q)
    (hhashed : ∀ b ∈ computed, ∃ h, m.blockPool.blockHash b = some h)
    (hroom : (m.reqToBlocks q ++ computed).length <
      numRequiredBlocks cfg r computed.length n numLookaheadTokens →
        (m.reqToBlocks q ++ computed).length < cfg.maxNumBlocksPerReq)
    (heq : m.allocateSlots cfg q r n computed numLookaheadTokens = .ok (some newBlocks, m')) :
    ∀ b ∈ newBlocks, ∀ q', b ∉ m.reqToBlocks q' := by
  have hcount := h.length_filter hcomp (fun b hb => (hhashed b hb).elim (h.hashed b))
  have hsize : m.blockPool.getNumFreeBlocks = (free.length : ℤ) := h.queue.numFreeBlocks
  unfold allocateSlots at heq
  by_cases hzero : n = 0
  · rw [if_pos hzero] at heq
    cases heq
  rw [if_neg hzero, dropSkippedBlocks_full hcfg.fullAttention, ok_bind] at heq
  by_cases htoo : (numRequiredBlocks cfg r computed.length n numLookaheadTokens : ℤ) -
      (m.reqToBlocks q).length - computed.length > m.blockPool.getNumFreeBlocks -
        (computed.filter (fun b => m.blockPool.refCnt b = 0)).length
  · have hnone := (if_pos htoo).symm.trans heq
    cases hnone
  obtain ⟨queue, htouch, hpooled₁⟩ := touchComputedBlocks_ok hcfg h hcomp hnew hhashed
  have henough : (numRequiredBlocks cfg r computed.length n numLookaheadTokens : ℤ) -
      (m.reqToBlocks q).length - computed.length ≤ (free.filter (· ∉ computed)).length := by
    omega
  obtain ⟨newBlocks', _, _, _, _, htake, -, -, hnewFree, -⟩ :=
    takeNewBlocks_ok (q := q) hpooled₁ henough
      (fun hpos => by
        dsimp only
        rw [Function.update_self]
        refine hroom ?_
        rw [List.length_append]
        omega)
  have hsome := (if_neg htoo).symm.trans heq
  rw [htouch, ok_bind] at hsome
  obtain ⟨⟨taken, m₂⟩, htaken, hcommit⟩ := bind_eq_ok.mp hsome
  obtain ⟨rfl, -⟩ := Prod.mk.inj (Except.ok.inj (htake.symm.trans htaken))
  obtain ⟨m₃, -, hreturn⟩ := bind_eq_ok.mp hcommit
  obtain ⟨hblocks, -⟩ := Prod.mk.inj (pure_eq_ok.mp hreturn)
  obtain rfl := Option.some.inj hblocks
  intro b hb q'
  exact h.sharing.notMem_of_free (List.mem_of_mem_filter (hnewFree b hb)) q'

end KVCacheManager

namespace Session

variable {cfg : KVCacheConfig} {s s' : Session} {call : Call} {q : ReqId} {memory : CacheMemory}
  {m' : KVCacheManager} {computed newBlocks : List BlockId} {c k n required : ℕ}

/-- The memory has the entries of the blocks with a hash, and of what the running requests have
computed. -/
structure Stored (cfg : KVCacheConfig) (s : Session) (memory : CacheMemory) : Prop where
  labelled : ∀ q, Labelled cfg (s.request q) (s.manager.reqToBlockHashes q)
  hashed : ∀ b h, s.manager.blockPool.blockHash b = some h → Memorized cfg memory b h
  running : ∀ q, s.phase q = .running → Holds cfg.blockSize (s.manager.reqToBlocks q)
    (s.request q).cacheEntry memory (s.request q).numComputedTokens

/-- The memory once the tokens that the call schedules have been computed. -/
def forward (cfg : KVCacheConfig) (s s' : Session) (memory : CacheMemory) : Call → CacheMemory
  | .allocateWaiting q n | .allocateRunning q n =>
    if (s'.request q).numComputedTokens = (s.request q).numComputedTokens then memory
    else storeRange cfg.blockSize (s'.manager.reqToBlocks q) (s'.request q).cacheEntry
      ((s'.request q).numComputedTokens - n) n memory
  | _ => memory

/-- The hashes that an allocation adds are those of the request's blocks. -/
theorem allocated_labelled {r : Request} {m : KVCacheManager} {f : ℕ}
    (h : Labelled cfg r (m.reqToBlockHashes q))
    (halloc : KVCacheManager.Allocated cfg m m' q r computed newBlocks k f required) :
    Labelled cfg r (m'.reqToBlockHashes q) := by
  have hold : ∀ i hash, (m'.reqToBlockHashes q)[i]? = some hash →
      (m.reqToBlockHashes q)[i]? = some hash ∨ (m.reqToBlockHashes q).length ≤ i := by
    intro i hash hget
    rcases Nat.lt_or_ge i (m.reqToBlockHashes q).length with hlt | hge
    · exact .inl ((halloc.caching.isPrefix.getElem?_eq hlt).trans hget)
    · exact .inr hge
  refine ⟨fun i hash hget => ?_, fun hash hmem => ?_⟩
  · rcases hold i hash hget with hold | hnew
    · exact h.tokens i hash hold
    · exact (halloc.caching.computed i hash hnew hget).1
  · obtain ⟨i, hget⟩ := List.mem_iff_getElem?.mp hmem
    rcases hold i hash hget with hold | hnew
    · exact h.lora hash (List.mem_of_getElem? hold)
    · obtain ⟨_, hkeys⟩ := (halloc.caching.computed i hash hnew hget).2
      exact loraOf_generate hkeys

/-- What is stored after an allocation goes into blocks of the request alone. -/
theorem allocated_written (hsound : s.Sound cfg)
    (hhashed : ∀ b ∈ computed, ∃ h, s.manager.blockPool.blockHash b = some h)
    (hhold : s.manager.Holding cfg q (s.request q) (s.manager.reqToBlocks q ++ computed) k)
    (hunused : ∀ b ∈ newBlocks, ∀ q', b ∉ s.manager.reqToBlocks q') {i : ℕ} {b : BlockId}
    (hi : k ≤ i) (hget : (s.manager.reqToBlocks q ++ computed ++ newBlocks)[i]? = some b) :
    (b ∈ newBlocks ∨ s.manager.blockPool.blockHash b = none) ∧
      ∀ q', q' ≠ q → b ∉ s.manager.reqToBlocks q' := by
  obtain ⟨free, hpooled⟩ := hsound.pooled
  rcases Nat.lt_or_ge i (s.manager.reqToBlocks q ++ computed).length with hlt | hge
  · rw [List.getElem?_append_left hlt] at hget
    have hnone := hhold.fresh i b hi hget
    refine ⟨.inr hnone, fun q' hne hmem => hne ?_⟩
    rcases List.mem_append.mp (List.mem_of_getElem? hget) with hown | hcomputed
    · exact hpooled.exclusive b q' q hnone hmem hown
    · obtain ⟨hash, hhash⟩ := hhashed b hcomputed
      rw [hnone] at hhash
      cases hhash
  · rw [List.getElem?_append_right hge] at hget
    have hnew := List.mem_of_getElem? hget
    exact ⟨.inl hnew, fun q' _ => hunused b hnew q'⟩

theorem allocated_stored (hpos : 0 < cfg.blockSize) (hsound : s.Sound cfg)
    (h : s.Stored cfg memory)
    (halloc : KVCacheManager.Allocated cfg s.manager m' q (s.request q) computed newBlocks k
      ((c + n) / cfg.blockSize) required)
    (hk : c / cfg.blockSize = k)
    (hhashed : ∀ b ∈ computed, ∃ h, s.manager.blockPool.blockHash b = some h)
    (hhold : s.manager.Holding cfg q (s.request q) (s.manager.reqToBlocks q ++ computed) k)
    (hunused : ∀ b ∈ newBlocks, ∀ q', b ∉ s.manager.reqToBlocks q')
    (hread : Holds cfg.blockSize (s.manager.reqToBlocks q ++ computed) (s.request q).cacheEntry
      memory c)
    (hroom : c + n ≤ (s.manager.reqToBlocks q ++ computed ++ newBlocks).length * cfg.blockSize) :
    Stored cfg { s with
      manager := m'
      request := s.setComputed q (c + n)
      phase := Function.update s.phase q .running
      searched := none }
      (storeRange cfg.blockSize (s.manager.reqToBlocks q ++ computed ++ newBlocks)
        (s.request q).cacheEntry c n memory) := by
  obtain ⟨free', hpooled'⟩ := halloc.pooled
  have hblocks : m'.reqToBlocks q = s.manager.reqToBlocks q ++ computed ++ newBlocks := by
    rw [halloc.reqToBlocks, Function.update_self]
  have hnodup : (s.manager.reqToBlocks q ++ computed ++ newBlocks).Nodup :=
    hblocks ▸ hpooled'.sharing.owned_nodup q
  have hlabelled := allocated_labelled (h.labelled q) halloc
  have hwritten : ∀ position b, c ≤ position → position < c + n →
      (s.manager.reqToBlocks q ++ computed ++ newBlocks)[position / cfg.blockSize]? = some b →
        (b ∈ newBlocks ∨ s.manager.blockPool.blockHash b = none) ∧
          ∀ q', q' ≠ q → b ∉ s.manager.reqToBlocks q' := fun position b hle _ hget =>
    allocated_written hsound hhashed hhold hunused (hk ▸ Nat.div_le_div_right hle) hget
  have hstored := (hread.append newBlocks).storeRange hnodup hpos hroom
  refine ⟨fun q' => ?_, fun b hash hhash => ?_, fun q' hrunning => ?_⟩
  · by_cases hq : q' = q
    · subst hq
      simp only [setComputed, Function.update_self]
      exact ⟨hlabelled.tokens, hlabelled.lora⟩
    · simp only [setComputed, Function.update_of_ne hq, halloc.blockHashes q' hq]
      exact h.labelled q'
  · by_cases hmem : b ∈ pySlice (s.manager.reqToBlocks q ++ computed ++ newBlocks) k
      ((c + n) / cfg.blockSize)
    · -- the block has become full with this allocation
      obtain ⟨i, -, hi, hget⟩ := exists_of_mem_pySlice hmem
      obtain ⟨b', hash', hget', hhash', hhashes⟩ := halloc.holding.cached i hi
      obtain rfl := Option.some.inj (hget.symm.trans hget')
      obtain rfl := Option.some.inj (hhash.symm.trans hhash')
      refine memorized_of_entries hlabelled halloc.holding.chained hhashes fun slot hslot => ?_
      have hfull : (i + 1) * cfg.blockSize ≤ c + n :=
        (Nat.mul_le_mul_right _ hi).trans (Nat.div_mul_le_self _ _)
      rw [Nat.succ_mul] at hfull
      obtain ⟨b'', hget'', hentry⟩ := hstored (i * cfg.blockSize + slot) (by omega)
      rw [Nat.mul_comm, Nat.mul_add_div hpos, Nat.div_eq_of_lt hslot, Nat.add_zero] at hget''
      rw [Nat.mul_comm, Nat.mul_add_mod, Nat.mod_eq_of_lt hslot] at hentry
      obtain rfl := Option.some.inj (hget.symm.trans hget'')
      rw [hentry, Nat.mul_comm]
    · have hkey := (halloc.caching.frame b hmem).symm.trans hhash
      by_cases hnew : b ∈ newBlocks
      · rw [if_pos hnew] at hkey
        cases hkey
      rw [if_neg hnew] at hkey
      obtain ⟨hashes, hchained, hslots⟩ := h.hashed b hash hkey
      refine ⟨hashes, hchained, fun slot hslot => ?_⟩
      rw [storeRange_of_ne fun position hle hlt hget _ => ?_, hslots slot hslot]
      rcases (hwritten position b hle hlt hget).1 with hmem | hnone
      · exact hnew hmem
      · rw [hnone] at hkey
        cases hkey
  · by_cases hq : q' = q
    · subst hq
      simp only [setComputed, Function.update_self, hblocks]
      exact hstored
    · have hphase : s.phase q' = .running :=
        (Function.update_of_ne hq _ s.phase).symm.trans hrunning
      simp only [setComputed, halloc.reqToBlocks, Function.update_of_ne hq]
      exact (h.running q' hphase).frame fun position b hle hlt hget =>
        (hwritten position b hle hlt hget).2 q' hq

/-- An allocation for a request that is not freed, as the memory sees it. -/
theorem allocate_stored (hcfg : cfg.PrefixCaching) (hsound : s.Sound cfg) (h : s.Stored cfg memory)
    (hr : (s.request q).Plain cfg) (hn : 0 < n)
    (hle : (s.request q).numComputedTokens + computed.length * cfg.blockSize + n ≤
      (s.request q).numTokens)
    (hcomp : computed.Nodup) (hnew : ∀ b ∈ computed, b ∉ s.manager.reqToBlocks q)
    (hhashed : ∀ b ∈ computed, ∃ h, s.manager.blockPool.blockHash b = some h)
    (hhold : s.manager.Holding cfg q (s.request q) (s.manager.reqToBlocks q ++ computed) k)
    (hcached : (s.manager.numCachedBlock q).getD computed.length = (k : ℤ))
    (hk : ((s.request q).numComputedTokens + computed.length * cfg.blockSize) / cfg.blockSize = k)
    (hread : Holds cfg.blockSize (s.manager.reqToBlocks q ++ computed) (s.request q).cacheEntry
      memory ((s.request q).numComputedTokens + computed.length * cfg.blockSize))
    (heq : s.manager.allocateSlots cfg q (s.request q) n computed 0 = .ok (some newBlocks, m')) :
    Stored cfg { s with
      manager := m'
      request := s.setComputed q
        ((s.request q).numComputedTokens + computed.length * cfg.blockSize + n)
      phase := Function.update s.phase q .running
      searched := none }
      (storeRange cfg.blockSize (m'.reqToBlocks q) (s.request q).cacheEntry
        ((s.request q).numComputedTokens + computed.length * cfg.blockSize) n memory) := by
  obtain ⟨free, hpooled⟩ := hsound.pooled
  have hpos := hcfg.blockSize_pos
  obtain ⟨c, hc⟩ : ∃ c, c = (s.request q).numComputedTokens + computed.length * cfg.blockSize :=
    ⟨_, rfl⟩
  rw [← hc] at hle hk hread ⊢
  have hfloor := Nat.div_mul_le_self (c + n) cfg.blockSize
  have hfull : (((s.request q).numComputedTokens + computed.length * cfg.blockSize + n : ℤ) -
      (s.request q).specTokenIds.length) / cfg.blockSize = ((c + n) / cfg.blockSize : ℕ) := by
    rw [hr.specTokenIds, hc]
    simp
  have hrequired : KVCacheManager.numRequiredBlocks cfg (s.request q) computed.length n 0 =
      cdiv (c + n) cfg.blockSize := by
    rw [KVCacheManager.numRequiredBlocks, hc, Nat.add_zero]
  have hroom : KVCacheManager.numRequiredBlocks cfg (s.request q) computed.length n 0 ≤
      cfg.maxNumBlocksPerReq := by
    rw [hrequired]
    exact (cdiv_le_iff hpos).mpr ((hle.trans hr.numTokens_le).trans (le_cdiv_mul hpos))
  have hkf : k ≤ (c + n) / cfg.blockSize := hk ▸ Nat.div_le_div_right (Nat.le_add_right c n)
  have hunused := KVCacheManager.allocateSlots_unused hcfg hpooled hcomp hnew hhashed
    (fun hlt => lt_of_lt_of_le hlt hroom) heq
  rcases KVCacheManager.allocateSlots_ok hcfg hr.hashable hpooled hn hcomp hnew hhashed hhold
    hcached hfull hkf (hcfg.le_maxNumBlocksPerReq ((hfloor.trans hle).trans hr.numTokens_le))
    (hfloor.trans hle) (fun hlt => lt_of_lt_of_le hlt hroom) with
    hrefused | ⟨newBlocks', m'', heq', halloc⟩
  · have hnone := Prod.mk.inj (Except.ok.inj (hrefused.symm.trans heq))
    cases hnone.1
  obtain ⟨hblocks, rfl⟩ := Prod.mk.inj (Except.ok.inj (heq'.symm.trans heq))
  obtain rfl := Option.some.inj hblocks
  have hlength := halloc.length
  rw [min_eq_left hroom, hrequired] at hlength
  have htable : m''.reqToBlocks q = s.manager.reqToBlocks q ++ computed ++ newBlocks' := by
    rw [halloc.reqToBlocks, Function.update_self]
  rw [htable]
  exact allocated_stored hpos hsound h halloc hk hhashed hhold hunused hread
    ((le_cdiv_mul hpos).trans (Nat.mul_le_mul_right _ hlength))

theorem allocateWaiting_stored (hcfg : cfg.PrefixCaching) (hfree : cfg.CollisionFree)
    (hsound : s.Sound cfg) (h : s.Stored cfg memory)
    (hstep : Step cfg s (.allocateWaiting q n) s') :
    s'.Stored cfg (forward cfg s s' memory (.allocateWaiting q n)) := by
  obtain ⟨⟨computed, num, hsearched, hn, hle⟩, hperform⟩ := hstep
  obtain ⟨hphase, rfl, hcomputed⟩ := hsound.searched q computed num hsearched
  have hkept := hsound.kept q
  rw [hphase] at hkept
  simp only [perform, hsearched, bind_eq_ok, pure_eq_ok, Prod.exists] at hperform
  obtain ⟨result, m', hallocate, hs'⟩ := hperform
  cases hkept with
  | waiting hr hzero hblocks hcached hold =>
      cases result with
      | none =>
          obtain rfl := KVCacheManager.allocateSlots_none hcfg.fullAttention hallocate
          subst hs'
          simp only [forward, if_true]
          exact ⟨h.labelled, h.hashed, h.running⟩
      | some newBlocks =>
          have hhashed : ∀ b ∈ computed, ∃ h, s.manager.blockPool.blockHash b = some h := by
            intro b hb
            obtain ⟨i, hi⟩ := List.mem_iff_getElem?.mp hb
            obtain ⟨hash, hkey, -⟩ := hcomputed.cached i b hi
            exact ⟨hash, hkey⟩
          have hhold : s.manager.Holding cfg q (s.request q) (s.manager.reqToBlocks q ++ computed)
              computed.length := by
            rw [hblocks, List.nil_append]
            refine ⟨hold.chained, hold.hashes_le, fun i hi => ?_, fun i b hi hget => ?_⟩
            · obtain ⟨hash, hkey, hhash⟩ := hcomputed.cached i _ (List.getElem?_eq_getElem hi)
              exact ⟨_, hash, List.getElem?_eq_getElem hi, hkey, hhash⟩
            · rw [List.getElem?_eq_none hi] at hget
              cases hget
          have hread : Holds cfg.blockSize (s.manager.reqToBlocks q ++ computed)
              (s.request q).cacheEntry memory (computed.length * cfg.blockSize) := by
            rw [hblocks, List.nil_append]
            exact holds_of_cached hcfg.blockSize_pos hfree h.hashed (h.labelled q) hold.chained
              hcomputed.cached
          have hstored := allocate_stored hcfg hsound h hr hn (by rwa [hzero, Nat.zero_add])
            hcomputed.nodup (by simp [hblocks]) hhashed hhold (by simp [hcached])
            (by rw [hzero, Nat.zero_add]; exact Nat.mul_div_left _ hcfg.blockSize_pos)
            (by rwa [hzero, Nat.zero_add]) hallocate
          rw [hzero, Nat.zero_add] at hstored
          subst hs'
          have hgrown : ¬ computed.length * cfg.blockSize + n =
              (s.request q).numComputedTokens := by
            omega
          simp only [forward, setComputed, Function.update_self, if_neg hgrown,
            Nat.add_sub_cancel]
          exact hstored

theorem allocateRunning_stored (hcfg : cfg.PrefixCaching) (hsound : s.Sound cfg)
    (h : s.Stored cfg memory) (hstep : Step cfg s (.allocateRunning q n) s') :
    s'.Stored cfg (forward cfg s s' memory (.allocateRunning q n)) := by
  obtain ⟨⟨hphase, hn, hle⟩, hperform⟩ := hstep
  have hkept := hsound.kept q
  rw [hphase] at hkept
  simp only [perform, bind_eq_ok, pure_eq_ok, Prod.exists] at hperform
  obtain ⟨result, m', hallocate, hs'⟩ := hperform
  cases hkept with
  | running hr hcomputed hlength hcached hold =>
      cases result with
      | none =>
          obtain rfl := KVCacheManager.allocateSlots_none hcfg.fullAttention hallocate
          subst hs'
          simp only [forward, if_true]
          exact ⟨h.labelled, h.hashed, h.running⟩
      | some newBlocks =>
          have hstored := allocate_stored hcfg hsound h hr hn (by simpa using hle)
            List.nodup_nil (by simp) (by simp) (by simpa using hold) (by simp [hcached]) (by simp)
            (by simpa using h.running q hphase) hallocate
          rw [List.length_nil, Nat.zero_mul, Nat.add_zero, ← hphase, Function.update_eq_self]
            at hstored
          subst hs'
          have hgrown : ¬ (s.request q).numComputedTokens + n =
              (s.request q).numComputedTokens := by
            omega
          simp only [forward, setComputed, Function.update_self, if_neg hgrown, Nat.add_sub_cancel]
          exact hstored

/-! ## The other calls -/

/-- A request without blocks of its own: nothing of it has to be read. -/
theorem Stored.release (h : s.Stored cfg memory) {r : Request} {phase : Phase}
    {searched : Option (ReqId × List BlockId × ℕ)} (hphase : phase ≠ .running)
    (hlabelled : Labelled cfg r (s.manager.reqToBlockHashes q))
    (hblocks : ∀ q', q' ≠ q → m'.reqToBlocks q' = s.manager.reqToBlocks q')
    (hhashes : m'.reqToBlockHashes = s.manager.reqToBlockHashes)
    (hkeys : m'.blockPool.blockHash = s.manager.blockPool.blockHash) :
    Stored cfg ⟨m', Function.update s.request q r, Function.update s.phase q phase, searched⟩
      memory := by
  refine ⟨fun q' => ?_, fun b hash hhash => h.hashed b hash (hkeys ▸ hhash), fun q' hrunning => ?_⟩
  · by_cases hq : q' = q
    · subst hq
      simpa only [Function.update_self, hhashes] using hlabelled
    · simpa only [Function.update_of_ne hq, hhashes] using h.labelled q'
  · by_cases hq : q' = q
    · subst hq
      exact absurd ((Function.update_self _ _ s.phase).symm.trans hrunning) hphase
    · simp only [Function.update_of_ne hq] at hrunning ⊢
      rw [hblocks q' hq]
      exact h.running q' hrunning

theorem appendOutputToken_stored {tokenId : TokenId} (hsound : s.Sound cfg)
    (h : s.Stored cfg memory) (hphase : s.phase q = .running) :
    Stored cfg { s with
      request := Function.update s.request q ((s.request q).appendOutputTokenId tokenId)
      searched := none } memory := by
  have hkept := hsound.kept q
  rw [hphase] at hkept
  cases hkept with
  | running hr hcomputed hlength hcached hold =>
      refine ⟨fun q' => ?_, h.hashed, fun q' hrunning => ?_⟩
      · by_cases hq : q' = q
        · subst hq
          simp only [Function.update_self]
          refine ⟨fun i hash hget => ?_, (h.labelled q').lora⟩
          -- the blocks with hashes are full
          have hi := (List.getElem?_eq_some_iff.mp hget).1
          have hfull : (i + 1) * cfg.blockSize ≤ (s.request q').allTokenIds.length :=
            (Nat.mul_le_mul_right _ hi).trans hold.hashes_le
          rw [(h.labelled q').tokens i hash hget, pySlice, pySlice,
            Request.appendOutputTokenId, List.take_append_of_le_length hfull]
        · simpa only [Function.update_of_ne hq] using h.labelled q'
      · by_cases hq : q' = q
        · subst hq
          simp only [Function.update_self]
          refine (h.running q' hrunning).congr fun position hposition => ?_
          have hfits : position + 1 ≤ (s.request q').allTokenIds.length :=
            (Nat.succ_le_of_lt hposition).trans hcomputed
          rw [Request.cacheEntry, Request.cacheEntry, Request.appendOutputTokenId,
            List.take_append_of_le_length hfits]
        · simpa only [Function.update_of_ne hq] using h.running q' hrunning

theorem recordBlockHashes_labelled {m : KVCacheManager} {r : Request}
    (h : Labelled cfg r (m.reqToBlockHashes q)) (hrecord : m.recordBlockHashes cfg q r = .ok m') :
    Labelled cfg r (m'.reqToBlockHashes q) := by
  unfold KVCacheManager.recordBlockHashes at hrecord
  split_ifs at hrecord
  · simp only [bind_eq_ok, pure_eq_ok] at hrecord
    obtain ⟨hashes, hhashes, rfl⟩ := hrecord
    simp only [Function.update_self]
    exact hashRequestTokens_labelled hhashes
  · cases hrecord
    exact h

theorem getComputedBlocks_stored (hcfg : cfg.PrefixCaching) (hfree : cfg.CollisionFree)
    (hsound : s.Sound cfg) (h : s.Stored cfg memory)
    (hstep : Step cfg s (.getComputedBlocks q) s') :
    s'.Stored cfg memory := by
  obtain ⟨hphase, hperform⟩ := hstep
  replace hphase : s.phase q = .waiting := hphase
  obtain ⟨free, hpooled⟩ := hsound.pooled
  have hkept := hsound.kept q
  rw [hphase] at hkept
  cases hkept with
  | waiting hr hzero hblocks hcached hold =>
      obtain ⟨computed, m', hashes, heq, hm', -, -⟩ :=
        KVCacheManager.getComputedBlocks_ok hcfg hfree hr.hashable hpooled hr.numTokens_pos hold
      have hlabelled : Labelled cfg (s.request q) (m'.reqToBlockHashes q) := by
        unfold KVCacheManager.getComputedBlocks at heq
        rw [if_neg (not_not.mpr hcfg.enableCaching)] at heq
        obtain ⟨m₁, hrecord, hsearch⟩ := bind_eq_ok.mp heq
        have hm₁ : m' = m₁ := by
          split_ifs at hsearch
          · exact (Prod.mk.inj (pure_eq_ok.mp hsearch)).2.symm
          · obtain ⟨_, -, hsearch⟩ := bind_eq_ok.mp hsearch
            exact (Prod.mk.inj (pure_eq_ok.mp hsearch)).2.symm
        exact hm₁ ▸ recordBlockHashes_labelled (h.labelled q) hrecord
      simp only [perform, heq, ok_bind] at hperform
      obtain rfl := pure_eq_ok.mp hperform
      have hblocks' : m'.reqToBlocks = s.manager.reqToBlocks := by rw [hm']
      have hpool : m'.blockPool = s.manager.blockPool := by rw [hm']
      refine ⟨fun q' => ?_, fun b hash hhash => h.hashed b hash ?_, fun q' hrunning => ?_⟩
      · by_cases hq : q' = q
        · exact hq ▸ hlabelled
        · have hsame : m'.reqToBlockHashes q' = s.manager.reqToBlockHashes q' := by
            rw [hm']
            exact Function.update_of_ne hq _ _
          exact hsame ▸ h.labelled q'
      · rw [← hpool]
        exact hhash
      · rw [hblocks']
        exact h.running q' hrunning

theorem step_stored (hcfg : cfg.PrefixCaching) (hfree : cfg.CollisionFree) (hsound : s.Sound cfg)
    (h : s.Stored cfg memory) (hstep : Step cfg s call s') :
    s'.Stored cfg (forward cfg s s' memory call) := by
  obtain ⟨free, hpooled⟩ := hsound.pooled
  cases call with
  | addRequest q r =>
      obtain ⟨⟨hphase, -, -⟩, hperform⟩ := hstep
      cases hperform
      have hkept := hsound.kept q
      rw [hphase] at hkept
      cases hkept with
      | unknown hblocks hcached hhashes =>
          refine h.release (fun hrunning => by cases hrunning) ?_ (fun _ _ => rfl) rfl rfl
          rw [hhashes]
          exact labelled_nil cfg r
  | appendOutputToken q tokenId =>
      obtain ⟨⟨hphase, -⟩, hperform⟩ := hstep
      cases hperform
      exact appendOutputToken_stored hsound h hphase
  | getComputedBlocks q => exact getComputedBlocks_stored hcfg hfree hsound h hstep
  | allocateWaiting q n => exact allocateWaiting_stored hcfg hfree hsound h hstep
  | allocateRunning q n => exact allocateRunning_stored hcfg hsound h hstep
  | preempt q =>
      obtain ⟨-, hperform⟩ := hstep
      obtain ⟨m', free', heq, -, hblocks, hhashes, -, hkeys⟩ :=
        KVCacheManager.free_ok hcfg hpooled q
      simp only [perform, heq, ok_bind] at hperform
      obtain rfl := pure_eq_ok.mp hperform
      refine h.release (fun hrunning => by cases hrunning) ⟨(h.labelled q).tokens,
        (h.labelled q).lora⟩ (fun q' hq => ?_) hhashes hkeys
      rw [hblocks, Function.update_of_ne hq]
  | free q =>
      obtain ⟨-, hperform⟩ := hstep
      obtain ⟨m', free', heq, -, hblocks, hhashes, -, hkeys⟩ :=
        KVCacheManager.free_ok hcfg hpooled q
      simp only [perform, heq, ok_bind] at hperform
      obtain rfl := pure_eq_ok.mp hperform
      have hrelease : Stored cfg ⟨m', Function.update s.request q (s.request q),
          Function.update s.phase q .freed, none⟩ memory :=
        h.release (fun hrunning => by cases hrunning) (h.labelled q) (fun q' hq => by
          rw [hblocks, Function.update_of_ne hq]) hhashes hkeys
      rwa [Function.update_eq_self] at hrelease
  | freeBlockHashes q =>
      obtain ⟨hphase, hperform⟩ := hstep
      cases hperform
      refine ⟨fun q' => ?_, h.hashed, fun q' hrunning => ?_⟩
      · by_cases hq : q' = q
        · subst hq
          simp only [KVCacheManager.freeBlockHashes, Function.update_self]
          exact labelled_nil cfg _
        · simpa only [KVCacheManager.freeBlockHashes, Function.update_of_ne hq] using h.labelled q'
      · by_cases hq : q' = q
        · subst hq
          exact absurd ((Function.update_self _ _ s.phase).symm.trans hrunning) (by simp)
        · exact h.running q' ((Function.update_of_ne hq _ s.phase).symm.trans hrunning)
  | resetPrefixCache =>
      obtain ⟨-, hperform⟩ := hstep
      cases hperform
      -- either nothing changes, or no block has a hash any more
      by_cases hused : (s.manager.blockPool.numGpuBlocks : ℤ) -
          s.manager.blockPool.getNumFreeBlocks ≠ 1
      · have hsame : s.manager.resetPrefixCache = (false, s.manager) := by
          simp only [KVCacheManager.resetPrefixCache, BlockPool.resetPrefixCache, if_pos hused]
        rw [hsame]
        exact ⟨h.labelled, h.hashed, h.running⟩
      · have hreset : s.manager.resetPrefixCache = (true, { s.manager with
            blockPool := { s.manager.blockPool with
              blockHash := fun _ => none
              cachedBlockHashToBlock := fun _ => none } }) := by
          simp only [KVCacheManager.resetPrefixCache, BlockPool.resetPrefixCache, if_neg hused]
        rw [hreset]
        exact ⟨h.labelled, fun b hash hhash => (by cases hhash), h.running⟩

/-! ## Runs -/

/-- Only running requests have blocks. -/
theorem Sound.running_of_mem (hsound : s.Sound cfg) {b : BlockId}
    (hb : b ∈ s.manager.reqToBlocks q) : s.phase q = .running := by
  have hkept := hsound.kept q
  cases hphase : s.phase q with
  | running => rfl
  | unknown =>
      rw [hphase] at hkept
      cases hkept with
      | unknown hblocks => exact absurd hb (hblocks ▸ List.not_mem_nil)
  | waiting =>
      rw [hphase] at hkept
      cases hkept with
      | waiting _ _ hblocks => exact absurd hb (hblocks ▸ List.not_mem_nil)
  | freed =>
      rw [hphase] at hkept
      cases hkept with
      | freed hblocks => exact absurd hb (hblocks ▸ List.not_mem_nil)

/-- A block that is shared has the same place in all tables. -/
theorem Sound.shared_index (hfree : cfg.CollisionFree) (hsound : s.Sound cfg) {q' : ReqId}
    {b : BlockId} {i j : ℕ} (hget : (s.manager.reqToBlocks q)[i]? = some b)
    (hget' : (s.manager.reqToBlocks q')[j]? = some b) (hne : q ≠ q') : i = j := by
  obtain ⟨free, hpooled⟩ := hsound.pooled
  have hhashed : s.manager.blockPool.blockHash b ≠ none := fun hnone =>
    hne (hpooled.exclusive b q q' hnone (List.mem_of_getElem? hget) (List.mem_of_getElem? hget'))
  have hhash : ∀ {q : ReqId} {i : ℕ}, (s.manager.reqToBlocks q)[i]? = some b → ∃ h,
      s.manager.blockPool.blockHash b = some h ∧ (s.manager.reqToBlockHashes q)[i]? = some h ∧
        Chained cfg none (s.manager.reqToBlockHashes q) := by
    intro q i hget
    have hkept := hsound.kept q
    rw [hsound.running_of_mem (List.mem_of_getElem? hget)] at hkept
    cases hkept with
    | running hr hcomputed hlength hcached hold =>
        rcases Nat.lt_or_ge i ((s.request q).numComputedTokens / cfg.blockSize) with hlt | hge
        · obtain ⟨b', h, hget'', hkey, hhashes⟩ := hold.cached i hlt
          obtain rfl := Option.some.inj (hget.symm.trans hget'')
          exact ⟨h, hkey, hhashes, hold.chained⟩
        · exact absurd (hold.fresh i b hge hget) hhashed
  obtain ⟨h, hkey, hhashes, hchained⟩ := hhash hget
  obtain ⟨h', hkey', hhashes', hchained'⟩ := hhash hget'
  obtain rfl := Option.some.inj (hkey.symm.trans hkey')
  have hchain : ∀ {hashes : List BlockHashType} {i : ℕ}, hashes[i]? = some h →
      hashes.take i ++ [h] = hashes.take (i + 1) ∧ (hashes.take i).length = i := by
    intro hashes i hget
    have hlt := (List.getElem?_eq_some_iff.mp hget).1
    exact ⟨by rw [List.take_add_one, hget]; rfl, by rw [List.length_take, min_eq_left hlt.le]⟩
  have heq := Chained.eq_of_hashValue_eq hfree
    ((hchain hhashes).1 ▸ hchained.of_isPrefix (List.take_prefix _ _))
    ((hchain hhashes').1 ▸ hchained'.of_isPrefix (List.take_prefix _ _)) rfl
  have hlength := congrArg List.length heq
  rw [List.length_append, List.length_append, (hchain hhashes).2, (hchain hhashes').2] at hlength
  exact Nat.add_right_cancel hlength

/-- A block with as many references as there are running requests is in all their tables. -/
theorem Sound.mem_of_refCnt (hsound : s.Sound cfg) {running : List ReqId} (hnodup : running.Nodup)
    (hrunning : ∀ q, s.phase q = .running ↔ q ∈ running) {b : BlockId}
    (hb : b ∈ s.manager.reqToBlocks q) (hrefs : s.manager.blockPool.refCnt b = running.length)
    {q' : ReqId} (hq' : q' ∈ running) : b ∈ s.manager.reqToBlocks q' := by
  obtain ⟨free, hpooled⟩ := hsound.pooled
  have hcount := hpooled.sharing.refs_eq b (hpooled.sharing.mem_items q b hb)
  have hsub : {q | b ∈ s.manager.reqToBlocks q} ⊆ (running.toFinset : Set ReqId) := fun p hp =>
    List.mem_toFinset.mpr ((hrunning p).mp (hsound.running_of_mem hp))
  have hcard : (running.toFinset : Set ReqId).ncard ≤ {q | b ∈ s.manager.reqToBlocks q}.ncard := by
    rw [Set.ncard_coe_finset, List.toFinset_card_of_nodup hnodup]
    omega
  have hall := Set.eq_of_subset_of_ncard_le hsub hcard (Finset.finite_toSet _)
  have hmem : q' ∈ {q | b ∈ s.manager.reqToBlocks q} := hall ▸ List.mem_toFinset.mpr hq'
  exact hmem

/-- What the next batch reads: the running requests through their tables, the request that is about
to be admitted through the blocks that have been found, and all of them through the common ones. -/
structure PagedSpec (cfg : KVCacheConfig) (s : Session) (memory : CacheMemory) : Prop where
  reads : ∀ q, s.phase q = .running → Holds cfg.blockSize (s.manager.reqToBlocks q)
    (s.request q).cacheEntry memory (s.request q).numComputedTokens
  hits : ∀ q computed numComputedTokens, s.searched = some (q, computed, numComputedTokens) →
    Holds cfg.blockSize computed (s.request q).cacheEntry memory numComputedTokens
  commonPrefix : ∀ (st : Scheduling) (k : ℕ), st.kvCacheManager = s.manager → st.running.Nodup →
    (∀ q, s.phase q = .running ↔ q ∈ st.running) → st.numCommonPrefixBlocks = .ok k →
      ∀ q ∈ st.running, k ≤ (s.manager.reqToBlocks q).length ∧
        ∀ q' ∈ st.running, (s.manager.reqToBlocks q).take k = (s.manager.reqToBlocks q').take k

/-- The blocks that are counted as common are those of every running request. -/
theorem Sound.commonPrefix (hfree : cfg.CollisionFree) (hsound : s.Sound cfg) {st : Scheduling}
    (hmanager : st.kvCacheManager = s.manager) (hnodup : st.running.Nodup)
    (hrunning : ∀ q, s.phase q = .running ↔ q ∈ st.running)
    (hcommon : st.numCommonPrefixBlocks = .ok k) :
    ∃ blocks : List BlockId, blocks.length = k ∧
      ∀ q ∈ st.running, (s.manager.reqToBlocks q).take k = blocks := by
  unfold Scheduling.numCommonPrefixBlocks at hcommon
  cases hhead : st.running.head? with
  | none =>
      rw [List.head?_eq_none_iff] at hhead
      rw [hhead] at hcommon ⊢
      cases hcommon
      exact ⟨[], rfl, fun q hq => absurd hq List.not_mem_nil⟩
  | some first =>
      have hfirst := List.mem_of_head? hhead
      simp only [hhead, bind_eq_ok, pure_eq_ok, hmanager] at hcommon
      obtain ⟨_, -, rfl⟩ := hcommon
      obtain ⟨common, hcommon⟩ : ∃ common, common = (s.manager.reqToBlocks first).takeWhile
          (fun b => s.manager.blockPool.refCnt b = st.running.length) := ⟨_, rfl⟩
      have hshort : common <+: s.manager.reqToBlocks first := hcommon ▸ List.takeWhile_prefix _
      have hrefs : ∀ b ∈ common, s.manager.blockPool.refCnt b = st.running.length := fun b hb =>
        of_decide_eq_true (List.mem_takeWhile_imp (p := fun b =>
          decide (s.manager.blockPool.refCnt b = st.running.length)) (hcommon ▸ hb))
      rw [← hcommon]
      refine ⟨common, rfl, fun q hq => ?_⟩
      apply List.ext_getElem?
      intro i
      rw [List.getElem?_take]
      split_ifs with hi
      · have hget := List.getElem?_eq_getElem hi
        have hget' := (hshort.getElem?_eq hi).symm.trans hget
        have hheld := hsound.mem_of_refCnt hnodup hrunning (List.mem_of_getElem? hget')
          (hrefs _ (List.getElem_mem hi)) hq
        obtain ⟨j, hj⟩ := List.mem_iff_getElem?.mp hheld
        by_cases hne : first = q
        · rw [← hne, hget', hget]
        · rw [hsound.shared_index hfree hget' hj hne, hj, ← hget,
            hsound.shared_index hfree hget' hj hne]
      · rw [List.getElem?_eq_none (Nat.not_lt.mp hi)]

/-- The session together with the memory of the workers. -/
def PagedStep (cfg : KVCacheConfig) (p : Session × CacheMemory) (call : Call)
    (p' : Session × CacheMemory) : Prop :=
  Step cfg p.1 call p'.1 ∧ p'.2 = forward cfg p.1 p'.1 p.2 call

/-- The memory only follows the session. -/
theorem exists_memory {t : Session} {calls : List Call} (hrun : Run (Step cfg) t calls s)
    (memory₀ : CacheMemory) : ∃ memory, Run (PagedStep cfg) (t, memory₀) calls (s, memory) := by
  induction hrun with
  | nil => exact ⟨memory₀, .nil⟩
  | @snoc calls t u call hrun hstep ih =>
      obtain ⟨memory, hpaged⟩ := ih
      exact ⟨forward cfg t u memory call, .snoc hpaged ⟨hstep, rfl⟩⟩

/-- Whatever is shared, evicted, preempted or taken over, attention reads the tokens of its own
request. -/
theorem run_pagedSpec {m : KVCacheManager} {calls : List Call} (hcfg : cfg.PrefixCaching)
    (hfree : cfg.CollisionFree) (hinit : KVCacheManager.init cfg = .ok m)
    {memory₀ : CacheMemory} (hrun : Run (PagedStep cfg) (start m, memory₀) calls (s, memory)) :
    PagedSpec cfg s memory := by
  obtain ⟨hblocks, hstart⟩ := start_sound hcfg hinit
  have hempty : Stored cfg (start m) memory₀ := by
    simp only [KVCacheManager.init, BlockPool.init, bind_eq_ok, pure_eq_ok, pyAssert_eq_ok,
      Prod.exists] at hinit
    obtain ⟨pool, ⟨-, hpos, b, queue, hpop, rfl⟩, rfl⟩ := hinit
    exact ⟨fun q => labelled_nil cfg _, fun b hash hhash => (by cases hhash),
      fun q hrunning => (by cases hrunning)⟩
  obtain ⟨hsound, hstored⟩ : s.Sound cfg ∧ s.Stored cfg memory :=
    hrun.invariant (I := fun p => p.1.Sound cfg ∧ p.1.Stored cfg p.2) ⟨hstart, hempty⟩ (by
      rintro ⟨s, memory⟩ call ⟨s', memory'⟩ ⟨hsound, hstored⟩ ⟨hstep, hmemory⟩
      obtain ⟨s'', heq, hsound'⟩ := perform_sound hcfg hfree hblocks hsound hstep.1
      obtain rfl : s' = s'' := Except.ok.inj (hstep.2.symm.trans heq)
      exact ⟨hsound', hmemory ▸ step_stored hcfg hfree hsound hstored hstep⟩)
  refine ⟨hstored.running, fun q computed num hsearched => ?_, ?_⟩
  · obtain ⟨hphase, rfl, hcomputed⟩ := hsound.searched q computed num hsearched
    have hkept := hsound.kept q
    rw [hphase] at hkept
    cases hkept with
    | waiting hr hzero hblocks hcached hold =>
        exact holds_of_cached hcfg.blockSize_pos hfree hstored.hashed (hstored.labelled q)
          hold.chained hcomputed.cached
  · intro st k hmanager hnodup hrunning hcommon
    obtain ⟨blocks, hlength, hall⟩ := hsound.commonPrefix hfree hmanager hnodup hrunning hcommon
    intro q hq
    refine ⟨?_, fun q' hq' => (hall q hq).trans (hall q' hq').symm⟩
    have htake := congrArg List.length (hall q hq)
    rw [List.length_take, hlength] at htake
    omega

/-- The second of two requests with one prompt takes the first block of the other one over. -/
def sharedPrompt : List Call :=
  [.addRequest 0 smallPrompt, .getComputedBlocks 0, .allocateWaiting 0 3, .addRequest 1 smallPrompt,
    .getComputedBlocks 1, .allocateWaiting 1 1]

theorem run_pagedSpec_sharedPrompt :
    ∃ m s memory, KVCacheManager.init smallCache = .ok m ∧
      Run (PagedStep smallCache) (start m, fun _ _ => none) sharedPrompt (s, memory) ∧
      s.manager.numCachedBlock 1 = some 1 ∧ PagedSpec smallCache s memory := by
  obtain ⟨m, s, hinit, hrun, hcached⟩ : ∃ m s, KVCacheManager.init smallCache = .ok m ∧
      Run (Step smallCache) (start m) sharedPrompt s ∧ s.manager.numCachedBlock 1 = some 1 := by
    refine ⟨_, _, rfl, .cons ⟨⟨rfl, ⟨nofun, rfl, by decide, by decide⟩, rfl⟩, rfl⟩
      (.cons ⟨rfl, rfl⟩ (.cons ⟨⟨_, _, rfl, by decide, by decide⟩, rfl⟩
        (.cons ⟨⟨rfl, ⟨nofun, rfl, by decide, by decide⟩, rfl⟩, rfl⟩
          (.cons ⟨rfl, rfl⟩ (.single ⟨⟨_, _, rfl, by decide, by decide⟩, rfl⟩))))), ?_⟩
    rfl
  obtain ⟨memory, hpaged⟩ := exists_memory hrun fun _ _ => none
  exact ⟨m, s, memory, hinit, hpaged, hcached, run_pagedSpec ⟨rfl, rfl, by decide⟩
    (numberingHashFn_collisionFree smallCache rfl rfl) hinit hpaged⟩

end Session

end Spexis.V1
