import Mathlib.Algebra.BigOperators.Group.List.Basic
import Spexis.Library.Python
import Spexis.Library.Ragged

/-! # One-dimensional arrays

Operations on whole numpy arrays and torch tensors, as lists. Integers are exact where the arrays
have 64 bits; `int32` stands where a value is kept in 32 bits. -/

namespace Python

variable {α β γ κ : Type} {ks : List κ}

/-- A value kept in 32 bits. -/
def int32 (x : ℤ) : ℤ :=
  x.bmod (2 ^ 32)

/-- The array, repeated to the length when it has a single element. -/
def npBroadcastTo (length : ℕ) (xs : List α) : Except PyError (List α) :=
  if xs.length = length then .ok xs
  else
    match xs with
    | [x] => .ok (List.replicate length x)
    | _ => .error (.valueError "operands could not be broadcast together")

/-- An operation on the elements, written to an array of the length. -/
def npZipInto (length : ℕ) (f : α → β → γ) (xs : List α) (ys : List β) :
    Except PyError (List γ) := do
  let xs ← npBroadcastTo length xs
  let ys ← npBroadcastTo length ys
  return List.zipWith f xs ys

/-- An operation on the elements. -/
def npZip (f : α → β → γ) (xs : List α) (ys : List β) : Except PyError (List γ) :=
  npZipInto (if xs.length = 1 then ys.length else xs.length) f xs ys

/-- `np.repeat(xs, repeats)`. -/
def npRepeat (xs : List α) (repeats : List ℤ) : Except PyError (List α) := do
  let repeats ← npBroadcastTo xs.length repeats
  if ∀ n ∈ repeats, 0 ≤ n then
    return (List.zipWith (fun x (n : ℤ) => List.replicate n.toNat x) xs repeats).flatten
  else throw (.valueError "counts cannot be negative")

/-- `np.cumsum(xs)`, on top of a total. -/
def npCumsum (total : ℤ) : List ℤ → List ℤ
  | [] => []
  | x :: xs => (total + x) :: npCumsum (total + x) xs

/-- `xs[indices]` for an array of the length. -/
def npTake (length : ℕ) (xs : ℕ → α) (indices : List ℤ) : Except PyError (List α) :=
  indices.mapM fun k =>
    match pyIndex length k with
    | some i => .ok (xs i)
    | none => .error .indexError

/-- `torch.index_select(xs, 0, indices)` for a tensor of the length. -/
def indexSelect (length : ℕ) (xs : ℕ → α) (indices : List ℤ) : Except PyError (List α) :=
  indices.mapM fun (k : ℤ) =>
    if 0 ≤ k ∧ k < length then .ok (xs k.toNat) else .error .indexError

/-- The elements of a table of the width, row by row. -/
def npFlatten (width : ℕ) (xs : ℕ → ℕ → α) (k : ℕ) : α :=
  xs (k / width) (k % width)

/-- `tl.load(xs + index)`, inside the array. -/
def tlLoad (xs : List α) (index : ℤ) : Except PyError α :=
  if 0 ≤ index then
    match xs[index.toNat]? with
    | some x => .ok x
    | none => .error .indexError
  else .error .indexError

/-- `tl.store(xs + index, x)`, inside the array. -/
def tlStore (xs : List α) (index : ℤ) (x : α) : Except PyError (List α) :=
  if 0 ≤ index ∧ index < xs.length then .ok (xs.set index.toNat x) else .error .indexError

/-! ## On arrays of the same keys -/

theorem int32_eq {x : ℤ} (hlow : 0 ≤ x) (hhigh : x < 2 ^ 31) : int32 x = x :=
  Int.bmod_eq_of_le (by omega) (by omega)

theorem int32_natCast {n : ℕ} (h : n < 2 ^ 31) : int32 n = n :=
  int32_eq (Int.natCast_nonneg n) (by exact_mod_cast h)

theorem npBroadcastTo_eq {length : ℕ} {xs : List α} (h : xs.length = length) :
    npBroadcastTo length xs = .ok xs :=
  if_pos h

theorem npZipInto_map {length : ℕ} (hlength : ks.length = length) (f : α → β → γ) (g : κ → α)
    (h : κ → β) : npZipInto length f (ks.map g) (ks.map h) = .ok (ks.map fun k => f (g k) (h k)) := by
  rw [npZipInto, npBroadcastTo_eq (by rw [List.length_map, hlength]), ok_bind,
    npBroadcastTo_eq (by rw [List.length_map, hlength]), ok_bind, List.zipWith_map,
    List.zipWith_self]
  rfl

theorem npZip_map (f : α → β → γ) (g : κ → α) (h : κ → β) :
    npZip f (ks.map g) (ks.map h) = .ok (ks.map fun k => f (g k) (h k)) := by
  apply npZipInto_map
  simp

theorem npTake_map (length : ℕ) (xs : ℕ → α) (index : κ → ℕ)
    (hindex : ∀ k ∈ ks, index k < length) :
    npTake length xs (ks.map fun k => (index k : ℤ)) = .ok (ks.map fun k => xs (index k)) := by
  rw [npTake, List.mapM_map]
  apply mapM_eq_ok
  intro k hk
  have hpy : pyIndex length (index k : ℤ) = some (index k) := by
    rw [pyIndex, if_pos (Int.natCast_nonneg _), if_pos (by exact_mod_cast hindex k hk),
      Int.toNat_natCast]
  simp [hpy]

theorem indexSelect_map (length : ℕ) (xs : ℕ → α) (index : κ → ℕ)
    (hindex : ∀ k ∈ ks, index k < length) :
    indexSelect length xs (ks.map fun k => (index k : ℤ)) = .ok (ks.map fun k => xs (index k)) := by
  rw [indexSelect, List.mapM_map]
  apply mapM_eq_ok
  intro k hk
  have hrange : (0 : ℤ) ≤ (index k : ℤ) ∧ (index k : ℤ) < length :=
    ⟨Int.natCast_nonneg _, by exact_mod_cast hindex k hk⟩
  simp [hrange]

theorem tlLoad_eq {xs : List α} {n : ℕ} {x : α} (h : xs[n]? = some x) : tlLoad xs n = .ok x := by
  rw [tlLoad, if_pos (Int.natCast_nonneg n), Int.toNat_natCast, h]

theorem tlStore_eq {xs : List α} {n : ℕ} (h : n < xs.length) (x : α) :
    tlStore xs n x = .ok (xs.set n x) := by
  rw [tlStore, if_pos ⟨Int.natCast_nonneg n, by exact_mod_cast h⟩, Int.toNat_natCast]

theorem npFlatten_index {width i p : ℕ} (hp : p < width) (xs : ℕ → ℕ → α) :
    npFlatten width xs (i * width + p) = xs i p := by
  rw [npFlatten, Nat.mul_comm, Nat.mul_add_div (by omega), Nat.div_eq_of_lt hp, Nat.add_zero,
    Nat.mul_add_mod, Nat.mod_eq_of_lt hp]

/-! ## On ragged arrays -/

open Ragged

theorem npRepeat_cells (f : ℕ → α) (ns : List ℕ) :
    npRepeat ((List.range ns.length).map f) (ns.map Nat.cast) =
      .ok ((cells ns).map fun c => f c.1) := by
  rw [npRepeat, npBroadcastTo_eq (by simp), ok_bind, if_pos (by simp), ← flatten_replicate f ns,
    List.zipWith_map_right]
  rfl

theorem npCumsum_eq (total : ℕ) (ns : List ℕ) :
    npCumsum total (ns.map Nat.cast) =
      (List.range ns.length).map fun i => ((total + (ns.take (i + 1)).sum : ℕ) : ℤ) := by
  induction ns generalizing total with
  | nil => rfl
  | cons n ns ih =>
      rw [List.map_cons, npCumsum, ← Nat.cast_add, ih (total + n), List.length_cons,
        List.range_succ_eq_map, List.map_cons, List.map_map]
      simp [Int.add_assoc]

/-- The cumulative sums less the counts are the numbers of the cells in earlier rows. -/
theorem npCumsum_sub (ns : List ℕ) :
    npZip (· - ·) (npCumsum 0 (ns.map Nat.cast)) (ns.map Nat.cast) =
      .ok ((List.range ns.length).map fun i => ((ns.take i).sum : ℤ)) := by
  have hcounts : ns.map (Nat.cast : ℕ → ℤ) =
      (List.range ns.length).map fun i => ((ns.getD i 0 : ℕ) : ℤ) := by
    conv_lhs => rw [← map_range_getD ns, List.map_map]
    rfl
  have hsums := npCumsum_eq 0 ns
  rw [Nat.cast_zero] at hsums
  rw [hsums, hcounts, npZip_map]
  congr 1
  apply List.map_congr_left
  intro i hi
  have hlt : i < ns.length := List.mem_range.mp hi
  have hsum : (ns.take (i + 1)).sum = (ns.take i).sum + ns.getD i 0 := by
    rw [List.take_add_one, List.sum_append]
    simp [hlt]
  rw [Nat.zero_add, hsum, Nat.cast_add, Int.add_sub_cancel]

end Python
