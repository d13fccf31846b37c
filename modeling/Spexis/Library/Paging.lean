import Mathlib.Data.List.Nodup
import Mathlib.Logic.Function.Basic

/-! # Paged memory

A sequence is stored through a table of pages, and is read back as long as nothing is stored in its
pages through another table. -/

namespace Paging

variable {β ε : Type*} [DecidableEq β]

/-- What the slots of the pages contain. -/
abbrev Memory (β ε : Type*) := β → ℕ → Option ε

/-- The memory after the value of a position has been stored. -/
def store (pageSize : ℕ) (table : List β) (value : ℕ → ε) (memory : Memory β ε) (position : ℕ) :
    Memory β ε :=
  match table[position / pageSize]? with
  | none => memory
  | some b =>
    Function.update memory b
      (Function.update (memory b) (position % pageSize) (some (value position)))

/-- The memory after `n` positions from `start` on have been stored. -/
def storeRange (pageSize : ℕ) (table : List β) (value : ℕ → ε) (start n : ℕ)
    (memory : Memory β ε) : Memory β ε :=
  (List.range' start n).foldl (store pageSize table value) memory

/-- The first `n` values can be read through the table. -/
def Holds (pageSize : ℕ) (table : List β) (value : ℕ → ε) (memory : Memory β ε) (n : ℕ) : Prop :=
  ∀ position < n, ∃ b, table[position / pageSize]? = some b ∧
    memory b (position % pageSize) = some (value position)

variable {pageSize : ℕ} {table table' : List β} {value value' : ℕ → ε} {memory : Memory β ε}
  {b : β} {slot position start n m : ℕ}

theorem storeRange_succ (start n : ℕ) (memory : Memory β ε) :
    storeRange pageSize table value start (n + 1) memory =
      store pageSize table value (storeRange pageSize table value start n memory) (start + n) := by
  rw [storeRange, List.range'_concat, List.foldl_append, Nat.one_mul]
  rfl

theorem store_of_ne (h : table[position / pageSize]? = some b → position % pageSize ≠ slot) :
    store pageSize table value memory position b slot = memory b slot := by
  unfold store
  cases hget : table[position / pageSize]? with
  | none => rfl
  | some c =>
      by_cases hc : b = c
      · subst hc
        dsimp only
        rw [Function.update_self, Function.update_of_ne (h hget).symm]
      · dsimp only
        rw [Function.update_of_ne hc]

theorem store_self (hget : table[position / pageSize]? = some b) :
    store pageSize table value memory position b (position % pageSize) = some (value position) := by
  unfold store
  rw [hget]
  dsimp only
  rw [Function.update_self, Function.update_self]

/-- A slot that none of the positions has keeps its value. -/
theorem storeRange_of_ne (h : ∀ position, start ≤ position → position < start + n →
    table[position / pageSize]? = some b → position % pageSize ≠ slot) :
    storeRange pageSize table value start n memory b slot = memory b slot := by
  induction n with
  | zero => rfl
  | succ n ih =>
      rw [storeRange_succ, store_of_ne (h (start + n) (Nat.le_add_right _ _) (Nat.lt_succ_self _))]
      exact ih fun position hle hlt => h position hle (Nat.lt_succ_of_lt hlt)

omit [DecidableEq β] in
/-- Two positions of one slot are the same. -/
theorem eq_of_slot (hnodup : table.Nodup) (hget : table[position / pageSize]? = some b)
    (hget' : table[m / pageSize]? = some b) (hslot : position % pageSize = m % pageSize) :
    position = m := by
  have hlt := (List.getElem?_eq_some_iff.mp hget).1
  have hpage := (List.getElem?_inj hlt hnodup).mp (hget.trans hget'.symm)
  rw [← Nat.div_add_mod position pageSize, ← Nat.div_add_mod m pageSize, hpage, hslot]

/-- The values that follow are stored after those that are there. -/
theorem Holds.storeRange (hnodup : table.Nodup) (hpage : 0 < pageSize)
    (hroom : n + m ≤ table.length * pageSize) (h : Holds pageSize table value memory n) :
    Holds pageSize table value (storeRange pageSize table value n m memory) (n + m) := by
  induction m with
  | zero => exact h
  | succ m ih =>
      intro position hposition
      rw [storeRange_succ]
      have hstored := ih (Nat.le_of_succ_le hroom)
      rcases Nat.lt_succ_iff_lt_or_eq.mp hposition with hlt | rfl
      · obtain ⟨b, hget, hvalue⟩ := hstored position hlt
        refine ⟨b, hget, ?_⟩
        rw [store_of_ne fun hget' hslot => ?_, hvalue]
        exact Nat.ne_of_lt hlt (eq_of_slot hnodup hget hget' hslot.symm)
      · have hpages : (n + m) / pageSize < table.length := (Nat.div_lt_iff_lt_mul hpage).mpr hroom
        exact ⟨_, List.getElem?_eq_getElem hpages, store_self (List.getElem?_eq_getElem hpages)⟩

/-- What is stored in other pages does not matter. -/
theorem Holds.frame (h : Holds pageSize table value memory n)
    (hother : ∀ position b, start ≤ position → position < start + m →
      table'[position / pageSize]? = some b → b ∉ table) :
    Holds pageSize table value (Paging.storeRange pageSize table' value' start m memory) n := by
  intro position hposition
  obtain ⟨b, hget, hvalue⟩ := h position hposition
  refine ⟨b, hget, ?_⟩
  rw [storeRange_of_ne fun other hle hlt hget' _ => ?_, hvalue]
  exact hother other b hle hlt hget' (List.mem_of_getElem? hget)

omit [DecidableEq β] in
/-- More pages do not matter. -/
theorem Holds.append (h : Holds pageSize table value memory n) (more : List β) :
    Holds pageSize (table ++ more) value memory n := by
  intro position hposition
  obtain ⟨b, hget, hvalue⟩ := h position hposition
  refine ⟨b, ?_, hvalue⟩
  rw [List.getElem?_append_left (List.getElem?_eq_some_iff.mp hget).1, hget]

omit [DecidableEq β] in
/-- The values before `n` are all that matters. -/
theorem Holds.congr (h : Holds pageSize table value memory n)
    (hvalue : ∀ position < n, value' position = value position) :
    Holds pageSize table value' memory n := fun position hposition => by
  obtain ⟨b, hget, hstored⟩ := h position hposition
  exact ⟨b, hget, hstored.trans (congrArg some (hvalue position hposition).symm)⟩

/-! ## Addresses -/

section Address

variable {table table' : List ℕ} {position' a : ℕ}

/-- The address of a position, when the pages have numbers. -/
def address (pageSize : ℕ) (table : List ℕ) (position : ℕ) : Option ℕ :=
  table[position / pageSize]?.map fun page => page * pageSize + position % pageSize

theorem address_of_lt (hpage : 0 < pageSize) (h : position < table.length * pageSize) :
    ∃ a, address pageSize table position = some a := by
  have hlt := (Nat.div_lt_iff_lt_mul hpage).mpr h
  rw [address, List.getElem?_eq_getElem hlt]
  exact ⟨_, rfl⟩

theorem address_append (h : address pageSize table position = some a) (more : List ℕ) :
    address pageSize (table ++ more) position = some a := by
  rw [address, Option.map_eq_some_iff] at h
  obtain ⟨page, hget, hpage⟩ := h
  rw [address, List.getElem?_append_left (List.getElem?_eq_some_iff.mp hget).1, hget,
    Option.map_some, hpage]

/-- An address determines the page and the slot in it. -/
theorem page_of_address (hpage : 0 < pageSize) (h : address pageSize table position = some a)
    (h' : address pageSize table' position' = some a) :
    ∃ page, table[position / pageSize]? = some page ∧
      table'[position' / pageSize]? = some page ∧
      position % pageSize = position' % pageSize := by
  rw [address, Option.map_eq_some_iff] at h h'
  obtain ⟨page, hget, ha⟩ := h
  obtain ⟨page', hget', ha'⟩ := h'
  have hslot := Nat.mod_lt position hpage
  have hslot' := Nat.mod_lt position' hpage
  have heq : page = page' := by
    have hdiv := congrArg (· / pageSize) (ha.trans ha'.symm)
    simpa only [Nat.mul_comm _ pageSize, Nat.mul_add_div hpage, Nat.div_eq_of_lt hslot,
      Nat.div_eq_of_lt hslot', Nat.add_zero] using hdiv
  subst heq
  exact ⟨page, hget, hget', by omega⟩

theorem address_inj (hpage : 0 < pageSize) (hnodup : table.Nodup)
    (h : address pageSize table position = some a)
    (h' : address pageSize table position' = some a) : position = position' := by
  obtain ⟨page, hget, hget', hslot⟩ := page_of_address hpage h h'
  exact eq_of_slot hnodup hget hget' hslot

end Address

/-! ## Scattered writes -/

section Scatter

variable {α γ : Type*} [DecidableEq α] {writes : List (α × γ)} {f : α → γ} {a : α} {c : γ}

/-- The array after the writes. -/
def scatter (writes : List (α × γ)) (f : α → γ) : α → γ :=
  writes.foldl (fun f write => Function.update f write.1 write.2) f

theorem scatter_of_notMem (h : a ∉ writes.map Prod.fst) : scatter writes f a = f a := by
  induction writes generalizing f with
  | nil => rfl
  | cons write writes ih =>
      rw [List.map_cons, List.mem_cons, not_or] at h
      rw [scatter, List.foldl_cons]
      change scatter writes _ a = f a
      rw [ih h.2, Function.update_of_ne h.1]

theorem scatter_of_mem (hnodup : (writes.map Prod.fst).Nodup) (h : (a, c) ∈ writes) :
    scatter writes f a = c := by
  induction writes generalizing f with
  | nil => exact absurd h List.not_mem_nil
  | cons write writes ih =>
      rw [List.map_cons, List.nodup_cons] at hnodup
      rcases List.mem_cons.mp h with rfl | h
      · rw [scatter, List.foldl_cons]
        change scatter writes _ a = c
        rw [scatter_of_notMem hnodup.1, Function.update_self]
      · exact ih hnodup.2 h

end Scatter

end Paging
