import Mathlib.Data.List.Basic
import Mathlib.Data.List.Nodup
import Mathlib.Data.Rat.Floor

/-! # Python lists, integers and exceptions

Indexing and slice assignment follow the language's rules for negative and
out-of-range indices. Raised exceptions are the error side of `Except`. -/

universe u v

namespace Python

/-- The exceptions a modelled function can raise. -/
inductive PyError where
  | assertionError (message : String)
  | indexError
  | keyError
  | typeError
  | zeroDivisionError
  | valueError (message : String)
  | runtimeError (message : String)
  | notImplementedError (message : String)
  deriving DecidableEq, Repr

/-- `assert condition, message`. -/
def pyAssert (condition : Prop) [Decidable condition] (message : String) :
    Except PyError Unit :=
  if condition then .ok () else .error (.assertionError message)

/-- The position `xs[i]` refers to in a list of the given length. -/
def pyIndex (length : ℕ) (i : ℤ) : Option ℕ :=
  if 0 ≤ i then
    if i < length then some i.toNat else none
  else if 0 ≤ length + i then some (length + i).toNat
  else none

/-- `xs[i]`. -/
def pyGet {α : Type*} (xs : List α) (i : ℤ) : Except PyError α :=
  match (pyIndex xs.length i).bind (xs[·]?) with
  | some x => .ok x
  | none => .error .indexError

/-- The list after `xs[i] = v`. -/
def pySet {α : Type*} (xs : List α) (i : ℤ) (v : α) : Except PyError (List α) :=
  match pyIndex xs.length i with
  | some k => .ok (xs.set k v)
  | none => .error .indexError

/-- The position at which the slice `xs[i:]` starts. -/
def pySliceStart (length : ℕ) (i : ℤ) : ℕ :=
  if i < 0 then (length + i).toNat else min i.toNat length

/-- The list after `xs[i:] = ys`. -/
def pySetTail {α : Type*} (xs : List α) (i : ℤ) (ys : List α) : List α :=
  xs.take (pySliceStart xs.length i) ++ ys

/-- `xs[start:stop]` for bounds that are not negative. -/
def pySlice {α : Type*} (xs : List α) (start stop : ℕ) : List α :=
  (xs.take stop).drop start

/-- `xs[start:stop]`. -/
def pySliceInt {α : Type*} (xs : List α) (start stop : ℤ) : List α :=
  pySlice xs (pySliceStart xs.length start) (pySliceStart xs.length stop)

/-- `text.find(sub, start)`, which is `none` where the language returns `-1`. -/
def pyFind {α : Type*} [DecidableEq α] (text sub : List α) (start : ℤ) : Option ℕ :=
  (List.range (text.length + 1)).find? fun i =>
    pySliceStart text.length start ≤ i ∧ sub <+: text.drop i

/-- `d[k] = v` on the items of a dictionary in insertion order. -/
def dictSet {κ α : Type*} [DecidableEq κ] (d : List (κ × α)) (k : κ) (v : α) : List (κ × α) :=
  if k ∈ d.map Prod.fst then d.map (fun kv => if kv.1 = k then (k, v) else kv)
  else d ++ [(k, v)]

/-- `d.get(k)`. -/
def dictGet? {κ α : Type*} [DecidableEq κ] (d : List (κ × α)) (k : κ) : Option α :=
  (d.find? (fun kv => kv.1 = k)).map Prod.snd

/-- `d[k]`. -/
def dictGet {κ α : Type*} [DecidableEq κ] (d : List (κ × α)) (k : κ) : Except PyError α :=
  match dictGet? d k with
  | some v => .ok v
  | none => .error .keyError

/-- `xs.add(x)` on the elements of a set, or a new key of a dictionary. -/
def setAdd {α : Type*} [DecidableEq α] (xs : List α) (x : α) : List α :=
  if x ∈ xs then xs else xs ++ [x]

/-- `int(q)`, which truncates towards zero. -/
def pyInt (q : ℚ) : ℤ :=
  if 0 ≤ q then ⌊q⌋ else -⌊-q⌋

/-- `-(a // -b)`. -/
def cdiv (a b : ℕ) : ℕ :=
  (a + b - 1) / b

/-! ## Exceptions -/

theorem bind_eq_ok {ε : Type v} {α β : Type u} {x : Except ε α} {f : α → Except ε β} {b : β} :
    x >>= f = .ok b ↔ ∃ a, x = .ok a ∧ f a = .ok b := by
  cases x with
  | error e => simp [bind, Except.bind]
  | ok a => simp [bind, Except.bind]

theorem bind_eq_error {ε : Type v} {α β : Type u} {x : Except ε α} {f : α → Except ε β} {e : ε} :
    x >>= f = .error e ↔ x = .error e ∨ ∃ a, x = .ok a ∧ f a = .error e := by
  cases x with
  | error e => simp [bind, Except.bind]
  | ok a => simp [bind, Except.bind]

@[simp] theorem ok_bind {ε : Type v} {α β : Type u} (a : α) (f : α → Except ε β) :
    ((.ok a : Except ε α) >>= f) = f a := rfl

theorem map_eq_ok {ε : Type v} {α β : Type u} {x : Except ε α} {f : α → β} {b : β} :
    f <$> x = .ok b ↔ ∃ a, x = .ok a ∧ f a = b := by
  cases x with
  | error e => simp [Functor.map, Except.map]
  | ok a => simp [Functor.map, Except.map]

@[simp] theorem pure_eq_ok {ε α : Type*} {a b : α} :
    (pure a : Except ε α) = .ok b ↔ a = b := by
  simp [pure, Except.pure]

@[simp] theorem throw_eq_ok_iff_false {α : Type*} {e : PyError} {b : α} :
    (throw e : Except PyError α) = .ok b ↔ False :=
  iff_false_intro (fun h => nomatch h)

@[simp] theorem pyAssert_eq_ok {condition : Prop} [Decidable condition] {message : String}
    {u : Unit} : pyAssert condition message = .ok u ↔ condition := by
  by_cases h : condition <;> simp [pyAssert, h]

@[simp] theorem pyAssert_eq_error {condition : Prop} [Decidable condition] {message : String}
    {e : PyError} : pyAssert condition message = .error e ↔
      ¬ condition ∧ .assertionError message = e := by
  by_cases h : condition <;> simp [pyAssert, h]

@[simp] theorem pure_eq_error {ε α : Type*} {a : α} {e : ε} :
    (pure a : Except ε α) = .error e ↔ False :=
  iff_false_intro (fun h => nomatch h)

theorem mapM_eq_ok {ε α β : Type*} {f : α → Except ε β} {g : α → β} {xs : List α}
    (h : ∀ x ∈ xs, f x = .ok (g x)) : xs.mapM f = .ok (xs.map g) := by
  induction xs with
  | nil => rfl
  | cons x xs ih =>
      rw [List.mapM_cons, h x List.mem_cons_self, ok_bind,
        ih (fun y hy => h y (List.mem_cons_of_mem x hy)), ok_bind]
      rfl

theorem exists_of_mapM_eq_ok {ε α β : Type*} {f : α → Except ε β} {xs : List α} {ys : List β}
    (h : xs.mapM f = .ok ys) : ∀ x ∈ xs, ∃ y, f x = .ok y := by
  induction xs generalizing ys with
  | nil => simp
  | cons x xs ih =>
      rw [List.mapM_cons] at h
      simp only [bind_eq_ok, pure_eq_ok] at h
      obtain ⟨y, hy, ys, hys, -⟩ := h
      intro z hz
      rcases List.mem_cons.mp hz with rfl | hz
      · exact ⟨y, hy⟩
      · exact ih hys z hz

/-- A change of every answer of `mapM`. -/
theorem mapM_zipWith {ε α β : Type*} {f g : α → Except ε β} {h : β → α → β} {xs : List α}
    {ys : List β} (hmap : xs.mapM f = .ok ys) (hg : ∀ x y, f x = .ok y → g x = .ok (h y x)) :
    xs.mapM g = .ok (List.zipWith h ys xs) := by
  induction xs generalizing ys with
  | nil =>
      cases hmap
      rfl
  | cons x xs ih =>
      rw [List.mapM_cons] at hmap
      simp only [bind_eq_ok, pure_eq_ok] at hmap
      obtain ⟨y, hy, ys, hys, rfl⟩ := hmap
      rw [List.mapM_cons, hg x y hy, ok_bind, ih hys, ok_bind]
      rfl

/-! ## Dictionaries -/

section Dict

variable {κ α : Type*} [DecidableEq κ] {d : List (κ × α)} {k k' : κ} {v v' : α}

theorem dictSet_of_notMem (h : k ∉ d.map Prod.fst) : dictSet d k v = d ++ [(k, v)] :=
  if_neg h

@[simp] theorem mem_dictSet_keys :
    k' ∈ (dictSet d k v).map Prod.fst ↔ k' ∈ d.map Prod.fst ∨ k' = k := by
  unfold dictSet
  split_ifs with h
  · have hkeys : (d.map fun kv => if kv.1 = k then (k, v) else kv).map Prod.fst =
        d.map Prod.fst := by
      rw [List.map_map]
      apply List.map_congr_left
      intro kv _
      by_cases hk : kv.1 = k <;> simp [hk]
    rw [hkeys]
    exact ⟨.inl, fun h' => h'.elim id (fun h' => h' ▸ h)⟩
  · simp

theorem mem_dictSet : (k', v') ∈ dictSet d k v ↔ k' = k ∧ v' = v ∨ k' ≠ k ∧ (k', v') ∈ d := by
  unfold dictSet
  split_ifs with h
  · rw [List.mem_map]
    constructor
    · rintro ⟨⟨k₁, v₁⟩, hmem, heq⟩
      by_cases hk : k₁ = k
      · rw [if_pos hk] at heq
        obtain ⟨rfl, rfl⟩ := Prod.mk.inj heq
        exact .inl ⟨rfl, rfl⟩
      · rw [if_neg hk] at heq
        obtain ⟨rfl, rfl⟩ := Prod.mk.inj heq
        exact .inr ⟨hk, hmem⟩
    · rintro (⟨rfl, rfl⟩ | ⟨hk, hmem⟩)
      · obtain ⟨kv, hmem, hkv⟩ := List.mem_map.mp h
        exact ⟨kv, hmem, if_pos hkv⟩
      · exact ⟨(k', v'), hmem, if_neg hk⟩
  · rw [List.mem_append, List.mem_singleton, Prod.mk.injEq]
    constructor
    · rintro (hmem | heq)
      · refine .inr ⟨?_, hmem⟩
        rintro rfl
        exact h (List.mem_map_of_mem hmem)
      · exact .inl heq
    · rintro (heq | ⟨-, hmem⟩)
      · exact .inr heq
      · exact .inl hmem

theorem nodup_dictSet_keys (hd : (d.map Prod.fst).Nodup) :
    ((dictSet d k v).map Prod.fst).Nodup := by
  unfold dictSet
  split_ifs with h
  · have hkeys : (d.map fun kv => if kv.1 = k then (k, v) else kv).map Prod.fst =
        d.map Prod.fst := by
      rw [List.map_map]
      apply List.map_congr_left
      intro kv _
      by_cases hk : kv.1 = k <;> simp [hk]
    rwa [hkeys]
  · rw [List.map_append, List.nodup_append]
    refine ⟨hd, List.pairwise_singleton _ _, ?_⟩
    rintro k₁ hk₁ k₂ hk₂ rfl
    obtain rfl : k₁ = k := List.mem_singleton.mp hk₂
    exact h hk₁

@[simp] theorem dictGet?_nil : dictGet? ([] : List (κ × α)) k = none := rfl

@[simp] theorem dictGet?_cons_self : dictGet? ((k, v) :: d) k = some v := by
  simp [dictGet?]

theorem dictGet?_cons_of_ne (h : k' ≠ k) : dictGet? ((k', v) :: d) k = dictGet? d k := by
  simp [dictGet?, h]

theorem dictGet?_eq_none : dictGet? d k = none ↔ k ∉ d.map Prod.fst := by
  simp only [dictGet?, Option.map_eq_none_iff, List.find?_eq_none, decide_eq_true_eq,
    List.mem_map, not_exists, not_and]

theorem exists_dictGet? (h : k ∈ d.map Prod.fst) : ∃ v, dictGet? d k = some v := by
  rw [← Option.isSome_iff_exists, Option.isSome_iff_ne_none, Ne, dictGet?_eq_none, not_not]
  exact h

theorem dictGet?_append (d d' : List (κ × α)) (k : κ) :
    dictGet? (d ++ d') k = (dictGet? d k).or (dictGet? d' k) := by
  rw [dictGet?, List.find?_append, Option.map_or]
  rfl

theorem dictGet?_eq_some (hd : (d.map Prod.fst).Nodup) : dictGet? d k = some v ↔ (k, v) ∈ d := by
  induction d with
  | nil => simp [dictGet?]
  | cons kv d ih =>
      obtain ⟨k₁, v₁⟩ := kv
      simp only [List.map_cons, List.nodup_cons] at hd
      by_cases hk : k₁ = k
      · subst hk
        have hnot : (k₁, v) ∉ d := fun hmem => hd.1 (List.mem_map_of_mem (f := Prod.fst) hmem)
        simp [dictGet?, hnot, eq_comm]
      · have hk' : ¬ k = k₁ := fun h => hk h.symm
        simpa [dictGet?, hk, hk'] using ih hd.2

/-- The values of a dictionary, in the order of its keys. -/
theorem map_getD_dictGet? (hd : (d.map Prod.fst).Nodup) (v : α) :
    (d.map Prod.fst).map (fun k => (dictGet? d k).getD v) = d.map Prod.snd := by
  rw [List.map_map]
  apply List.map_congr_left
  rintro ⟨k, v'⟩ hitem
  have hget : dictGet? d k = some v' := (dictGet?_eq_some hd).mpr hitem
  rw [Function.comp_apply, hget, Option.getD_some]

theorem dictGet?_dictSet_self (h : k ∉ d.map Prod.fst) : dictGet? (dictSet d k v) k = some v := by
  have hnone : d.find? (fun kv => kv.1 = k) = none := by
    refine List.find?_eq_none.mpr (fun kv hkv heq => h ?_)
    exact List.mem_map.mpr ⟨kv, hkv, by simpa using heq⟩
  rw [dictSet_of_notMem h, dictGet?, List.find?_append, hnone]
  simp

theorem dictGet?_dictSet_of_ne (h : k ∉ d.map Prod.fst) (hne : k' ≠ k) :
    dictGet? (dictSet d k v) k' = dictGet? d k' := by
  rw [dictSet_of_notMem h, dictGet?, dictGet?, List.find?_append]
  cases d.find? (fun kv => kv.1 = k') with
  | none => simp [Ne.symm hne]
  | some kv => rfl

theorem dictGet_eq_ok : dictGet d k = .ok v ↔ dictGet? d k = some v := by
  unfold dictGet
  cases dictGet? d k <;> simp

end Dict

@[simp] theorem mem_setAdd {α : Type*} [DecidableEq α] {xs : List α} {x y : α} :
    y ∈ setAdd xs x ↔ y ∈ xs ∨ y = x := by
  unfold setAdd
  split_ifs with h
  · exact ⟨.inl, fun hy => hy.elim id (fun hy => hy ▸ h)⟩
  · simp

theorem nodup_setAdd {α : Type*} [DecidableEq α] {xs : List α} {x : α} (h : xs.Nodup) :
    (setAdd xs x).Nodup := by
  unfold setAdd
  split_ifs with hx
  · exact h
  · rw [← List.concat_eq_append]
    exact List.Nodup.concat hx h

/-! ## Lists -/

/-- `xs[-k]` is the entry `k` places before the end. -/
theorem pyGet_neg {α : Type*} {xs : List α} {k : ℕ} {x : α} (hpos : 0 < k) (hk : k ≤ xs.length)
    (hget : xs[xs.length - k]? = some x) : pyGet xs (-(k : ℤ)) = .ok x := by
  have hneg : ¬ (0 : ℤ) ≤ -(k : ℤ) := by omega
  have hin : (0 : ℤ) ≤ (xs.length : ℤ) + -(k : ℤ) := by omega
  have hpos' : ((xs.length : ℤ) + -(k : ℤ)).toNat = xs.length - k := by omega
  simp only [pyGet, pyIndex, hneg, ite_false, hin, ite_true, hpos', Option.bind_some, hget]

theorem pyGet_nat {α : Type*} (xs : List α) (i : ℕ) (hi : i < xs.length) :
    pyGet xs (i : ℤ) = .ok xs[i] := by
  simp [pyGet, pyIndex, hi]

theorem pyGet_cons_zero {α : Type*} (x : α) (xs : List α) : pyGet (x :: xs) 0 = .ok x := by
  simp [pyGet, pyIndex]

theorem pyGet_eq_ok_nat {α : Type*} {xs : List α} {i : ℕ} {x : α} :
    pyGet xs (i : ℤ) = .ok x ↔ xs[i]? = some x := by
  by_cases hi : i < xs.length
  · rw [pyGet_nat xs i hi, List.getElem?_eq_getElem hi]
    simp
  · simp [pyGet, pyIndex, hi]

theorem pyIndex_nat {length i : ℕ} (hi : i < length) : pyIndex length (i : ℤ) = some i := by
  simp [pyIndex, hi]

theorem pyIndex_lt {length k : ℕ} {i : ℤ} (h : pyIndex length i = some k) : k < length := by
  unfold pyIndex at h
  split_ifs at h <;> simp only [Option.some.injEq] at h <;> omega

theorem pyGet_eq_ok {α : Type*} {xs : List α} {i : ℤ} {x : α} :
    pyGet xs i = .ok x ↔ ∃ k, pyIndex xs.length i = some k ∧ xs[k]? = some x := by
  unfold pyGet
  cases hk : pyIndex xs.length i with
  | none => simp
  | some k => cases hx : xs[k]? <;> simp [hx]

theorem pySet_eq_ok {α : Type*} {xs ys : List α} {i : ℤ} {v : α} :
    pySet xs i v = .ok ys ↔ ∃ k, pyIndex xs.length i = some k ∧ xs.set k v = ys := by
  unfold pySet
  cases pyIndex xs.length i <;> simp

theorem pySet_eq_ok_nat {α : Type*} {xs ys : List α} {i : ℕ} {v : α} :
    pySet xs (i : ℤ) v = .ok ys ↔ i < xs.length ∧ xs.set i v = ys := by
  rw [pySet_eq_ok]
  constructor
  · rintro ⟨k, hk, rfl⟩
    have hlt : i < xs.length := by
      by_contra hge
      simp [pyIndex, hge] at hk
    rw [pyIndex_nat hlt, Option.some.injEq] at hk
    exact ⟨hlt, hk ▸ rfl⟩
  · rintro ⟨hlt, rfl⟩
    exact ⟨i, pyIndex_nat hlt, rfl⟩

/-- `xs[-k:] = ys` keeps all but the last `k` entries. -/
theorem pySetTail_neg {α : Type*} (xs ys : List α) (k : ℕ) (hpos : 0 < k) :
    pySetTail xs (-(k : ℤ)) ys = xs.take (xs.length - k) ++ ys := by
  have hneg : -(k : ℤ) < 0 := by omega
  have hstart : ((xs.length : ℤ) + -(k : ℤ)).toNat = xs.length - k := by omega
  simp only [pySetTail, pySliceStart, hneg, ite_true, hstart]

theorem pySlice_length {α : Type*} (xs : List α) (start stop : ℕ) (h : stop ≤ xs.length) :
    (pySlice xs start stop).length = stop - start := by
  simp [pySlice, h]

theorem getElem?_pySlice {α : Type*} (xs : List α) {start stop i : ℕ} (h : start + i < stop) :
    (pySlice xs start stop)[i]? = xs[start + i]? := by
  rw [pySlice, List.getElem?_drop, List.getElem?_take_of_lt h]

theorem exists_of_mem_pySlice {α : Type*} {xs : List α} {start stop : ℕ} {x : α}
    (h : x ∈ pySlice xs start stop) : ∃ i, start ≤ i ∧ i < stop ∧ xs[i]? = some x := by
  obtain ⟨i, hi⟩ := List.mem_iff_getElem?.mp h
  have hlt : start + i < stop := by
    have := (List.getElem?_eq_some_iff.mp hi).1
    simp only [pySlice, List.length_drop, List.length_take] at this
    omega
  rw [getElem?_pySlice xs hlt] at hi
  exact ⟨start + i, by omega, hlt, hi⟩

/-- Ceiling division: `cdiv a b` blocks of size `b` are the fewest that hold `a`. -/
theorem cdiv_le_iff {a b k : ℕ} (hb : 0 < b) : cdiv a b ≤ k ↔ a ≤ k * b := by
  rw [cdiv, Nat.div_le_iff_le_mul_add_pred hb, Nat.mul_comm b k]
  omega

theorem le_cdiv_mul {a b : ℕ} (hb : 0 < b) : a ≤ cdiv a b * b :=
  (cdiv_le_iff hb).mp le_rfl

theorem cdiv_le_cdiv {a a' : ℕ} (h : a ≤ a') (b : ℕ) : cdiv a b ≤ cdiv a' b := by
  unfold cdiv
  exact Nat.div_le_div_right (by omega)

end Python
