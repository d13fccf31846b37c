import Mathlib.Data.List.Induction
import Mathlib.Data.List.Nodup
import Mathlib.Logic.Equiv.List
import Spexis.Model.V1.KVCacheUtils

/-! # Chains of block hashes -/

namespace Spexis.V1

open Python

variable {cfg : KVCacheConfig} {r : Request} {parent : Option ℕ} {h x y : BlockHashType}
  {hs xs ys : List BlockHashType}

/-- The hash function of the cache has no collisions and yields neither of the two values that
stand for a missing parent. -/
structure KVCacheConfig.CollisionFree (cfg : KVCacheConfig) : Prop where
  injective : ∀ {parent parent' : ℕ} {tokenIds tokenIds' : List TokenId}
    {extraKeys extraKeys' : Option (List ExtraKey)},
    cfg.cachingHashFn parent tokenIds extraKeys = cfg.cachingHashFn parent' tokenIds' extraKeys' →
      parent = parent' ∧ tokenIds = tokenIds' ∧ extraKeys = extraKeys'
  ne_zero : ∀ parent tokenIds extraKeys, cfg.cachingHashFn parent tokenIds extraKeys ≠ 0
  ne_noneHash : ∀ parent tokenIds extraKeys,
    cfg.cachingHashFn parent tokenIds extraKeys ≠ cfg.noneHash

def ExtraKey.code : ExtraKey → ℤ ⊕ List ℕ
  | .lora loraIntId => .inl loraIntId
  | .mm mmHash => .inr (mmHash.toList.map Char.toNat)

theorem ExtraKey.code_injective : Function.Injective ExtraKey.code := by
  have hchar : Function.Injective Char.toNat := fun c d h => Char.toNat_inj.mp h
  rintro (a | a) (b | b) h
  · rw [Sum.inl.inj h]
  · cases h
  · cases h
  · rw [String.toList_injective (List.map_injective_iff.mpr hchar (Sum.inr.inj h))]

/-- A numbering of all parents, tokens and keys. -/
def numberingHashFn (parent : ℕ) (tokenIds : List TokenId) (extraKeys : Option (List ExtraKey)) :
    ℕ :=
  Encodable.encode (parent, tokenIds, extraKeys.map (List.map ExtraKey.code)) + 2

theorem numberingHashFn_collisionFree (cfg : KVCacheConfig)
    (hfn : cfg.cachingHashFn = numberingHashFn) (hnone : cfg.noneHash = 1) :
    cfg.CollisionFree := by
  refine ⟨fun h => ?_, fun _ _ _ => ?_, fun _ _ _ => ?_⟩
  · rw [hfn, numberingHashFn, numberingHashFn] at h
    have hencode := Encodable.encode_injective (Nat.add_right_cancel h)
    simp only [Prod.mk.injEq] at hencode
    exact ⟨hencode.1, hencode.2.1,
      Option.map_injective (List.map_injective_iff.mpr ExtraKey.code_injective) hencode.2.2⟩
  · rw [hfn, numberingHashFn]
    omega
  · rw [hfn, hnone, numberingHashFn]
    omega

/-- Each hash is computed from the one before it. -/
def Chained (cfg : KVCacheConfig) : Option ℕ → List BlockHashType → Prop
  | _, [] => True
  | parent, h :: hs =>
    h = hashBlockTokens cfg parent h.tokenIds h.extraKeys ∧ Chained cfg (some h.hashValue) hs

/-- The parent of the hash that comes after the given ones. -/
def lastHashValue (hs : List BlockHashType) : Option ℕ :=
  hs.getLast?.map BlockHashType.hashValue

@[simp] theorem lastHashValue_append : lastHashValue (xs ++ [x]) = some x.hashValue := by
  simp [lastHashValue]

theorem chained_append : Chained cfg parent (xs ++ ys) ↔
    Chained cfg parent xs ∧ Chained cfg ((lastHashValue xs).or parent) ys := by
  induction xs generalizing parent with
  | nil => simp [Chained, lastHashValue]
  | cons x xs ih =>
      have hlast : (lastHashValue (x :: xs)).or parent =
          (lastHashValue xs).or (some x.hashValue) := by
        cases xs with
        | nil => rfl
        | cons y ys =>
            simp only [lastHashValue, List.getLast?_cons_cons]
            cases hget : (y :: ys).getLast? with
            | none => simp at hget
            | some z => rfl
      rw [hlast, List.cons_append, Chained, Chained, ih, and_assoc]

/-- One more hash. -/
theorem Chained.concat (h : Chained cfg none hs) (tokenIds : List TokenId)
    (extraKeys : Option (List ExtraKey)) :
    Chained cfg none (hs ++ [hashBlockTokens cfg (lastHashValue hs) tokenIds extraKeys]) := by
  rw [chained_append]
  exact ⟨h, by simp [hashBlockTokens], trivial⟩

theorem Chained.last (h : Chained cfg none (xs ++ [x])) :
    x = hashBlockTokens cfg (lastHashValue xs) x.tokenIds x.extraKeys := by
  have hx := (chained_append.mp h).2.1
  rwa [Option.or_none] at hx

theorem Chained.of_isPrefix (h : Chained cfg none ys) (hxs : xs <+: ys) : Chained cfg none xs := by
  obtain ⟨zs, rfl⟩ := hxs
  exact (chained_append.mp h).1

section CollisionFree

variable (hfree : cfg.CollisionFree)

include hfree

theorem Chained.hashValue_ne (h : Chained cfg none (xs ++ [x])) :
    x.hashValue ≠ 0 ∧ x.hashValue ≠ cfg.noneHash := by
  rw [h.last]
  exact ⟨hfree.ne_zero _ _ _, hfree.ne_noneHash _ _ _⟩

/-- A chain is determined by its last hash value. -/
theorem Chained.eq_of_hashValue_eq (hx : Chained cfg none (xs ++ [x]))
    (hy : Chained cfg none (ys ++ [y])) (heq : x.hashValue = y.hashValue) :
    xs ++ [x] = ys ++ [y] := by
  induction xs using List.reverseRecOn generalizing x y ys with
  | nil =>
      have hxl := hx.last
      have hyl := hy.last
      have hvalue := heq
      rw [hxl, hyl] at hvalue
      obtain ⟨hparent, htokens, hkeys⟩ := hfree.injective hvalue
      cases ys using List.reverseRecOn with
      | nil =>
          rw [hxl, hyl, htokens, hkeys]
      | append_singleton ys z =>
          have hz := Chained.hashValue_ne hfree (hy.of_isPrefix (List.prefix_append _ _))
          simp [lastHashValue, hz.1] at hparent
          exact absurd hparent.symm hz.2
  | append_singleton xs w ih =>
      have hxl := hx.last
      have hyl := hy.last
      have hvalue := heq
      rw [hxl, hyl] at hvalue
      obtain ⟨hparent, htokens, hkeys⟩ := hfree.injective hvalue
      have hxs := hx.of_isPrefix (List.prefix_append _ _)
      have hw := Chained.hashValue_ne hfree hxs
      cases ys using List.reverseRecOn with
      | nil =>
          simp [lastHashValue, hw.1] at hparent
          exact absurd hparent hw.2
      | append_singleton ys z =>
          have hys := hy.of_isPrefix (List.prefix_append _ _)
          have hz := Chained.hashValue_ne hfree hys
          simp only [lastHashValue_append, hw.1, hz.1, ite_false] at hparent
          rw [hxl, hyl, htokens, hkeys, ih hxs hys hparent]

/-- No hash value occurs twice in a chain. -/
theorem Chained.nodup (h : Chained cfg none hs) : hs.Nodup := by
  induction hs using List.reverseRecOn with
  | nil => exact List.nodup_nil
  | append_singleton hs x ih =>
      have hnodup : hs.Nodup := ih (h.of_isPrefix (List.prefix_append _ _))
      rw [← List.concat_eq_append]
      refine hnodup.concat (fun hmem => ?_)
      obtain ⟨us, vs, rfl⟩ := List.append_of_mem hmem
      have hpre : us ++ [x] <+: us ++ x :: vs ++ [x] := ⟨vs ++ [x], by simp⟩
      have heq := Chained.eq_of_hashValue_eq hfree (h.of_isPrefix hpre) h rfl
      have hlength := congrArg List.length heq
      simp at hlength

end CollisionFree

/-! ## The hashes of a request -/

/-- The hashes of the multi-modal inputs are known. -/
def Request.Hashable (r : Request) : Prop :=
  r.mmPositions ≠ [] → r.mmPositions.length = r.mmHashes.length

theorem generateBlockHashExtraKeys_ok (hr : r.Hashable) (start stop : ℤ) {mmIdx : ℤ}
    (hidx : -1 ≤ mmIdx) :
    ∃ extraKeys mmIdx', generateBlockHashExtraKeys r start stop mmIdx = .ok (extraKeys, mmIdx') ∧
      -1 ≤ mmIdx' := by
  have hmm : ∃ extraKeys mmIdx', genMmExtraHashKeys r start stop mmIdx =
      .ok (extraKeys, mmIdx') ∧ -1 ≤ mmIdx' := by
    unfold genMmExtraHashKeys
    cases hlast : r.mmPositions.getLast? with
    | none => exact ⟨[], mmIdx, rfl, hidx⟩
    | some last =>
        have hne : r.mmPositions ≠ [] := List.ne_nil_of_mem (List.mem_of_getLast? hlast)
        have hpos := List.length_pos_iff.mpr hne
        have hvalid : 0 ≤ mmIdx ∨ -mmIdx ≤ r.mmPositions.length := by omega
        simp only [if_neg (not_not.mpr (hr hne))]
        by_cases hpassed : (last.offset + last.length : ℤ) < start
        · exact ⟨[], mmIdx, if_pos hpassed, hidx⟩
        · rw [if_neg hpassed, pyAssert, if_pos hvalid]
          exact ⟨_, _, rfl, by omega⟩
  obtain ⟨extraKeys, mmIdx', heq, hidx'⟩ := hmm
  unfold generateBlockHashExtraKeys
  rw [heq]
  exact ⟨_, mmIdx', rfl, hidx'⟩

theorem hashRequestTokensLoop_ok (hr : r.Hashable) (n start : ℕ) {mmIdx : ℤ} (hidx : -1 ≤ mmIdx)
    (parent : Option ℕ) :
    ∃ hs, hashRequestTokensLoop cfg r n start parent mmIdx = .ok hs ∧ hs.length = n ∧
      Chained cfg parent hs := by
  induction n generalizing start parent mmIdx with
  | zero => exact ⟨[], rfl, rfl, trivial⟩
  | succ n ih =>
      unfold hashRequestTokensLoop
      by_cases hneed : needExtraKeys r = true
      · obtain ⟨extraKeys, mmIdx', heq, hidx'⟩ :=
          generateBlockHashExtraKeys_ok hr (start : ℤ) (start + cfg.blockSize : ℕ) hidx
        obtain ⟨hs, hrest, hlength, hchained⟩ := ih (start + cfg.blockSize) hidx'
          (some (hashBlockTokens cfg parent
            (pySlice r.allTokenIds start (start + cfg.blockSize)) extraKeys).hashValue)
        refine ⟨_ :: hs, ?_, by simp [hlength], rfl, hchained⟩
        simp only [if_pos hneed, heq, ok_bind, hrest]
        rfl
      · obtain ⟨hs, hrest, hlength, hchained⟩ := ih (start + cfg.blockSize) hidx
          (some (hashBlockTokens cfg parent
            (pySlice r.allTokenIds start (start + cfg.blockSize)) none).hashValue)
        refine ⟨_ :: hs, ?_, by simp [hlength], rfl, hchained⟩
        simp only [if_neg hneed, ok_bind, hrest]
        rfl

theorem hashRequestTokens_ok (cfg : KVCacheConfig) (hr : r.Hashable) :
    ∃ hs, hashRequestTokens cfg r = .ok hs ∧ hs.length = r.numTokens / cfg.blockSize ∧
      Chained cfg none hs :=
  hashRequestTokensLoop_ok hr _ 0 (by omega) none

end Spexis.V1
