import Mathlib.Data.List.Nodup

/-! # Doubly linked lists

The items of a list, linked by two pointer maps that may also be defined elsewhere. -/

namespace LinkedList

variable {α : Type*} {prev next prev' next' : α → Option α} {items xs ys us vs ws : List α} {x : α}
  {start : Option α}

/-- The pointer of each item leads to the item after it. -/
def Forward (next : α → Option α) : List α → Prop
  | [] => True
  | x :: xs => next x = xs.head? ∧ Forward next xs

/-- The items of the list, each once, with a pointer to either neighbour. -/
structure Linked (prev next : α → Option α) (items : List α) : Prop where
  nodup : items.Nodup
  forward : Forward next items
  backward : Forward prev items.reverse

/-- The items met by following the pointers until there is none. -/
inductive Walk (next : α → Option α) : Option α → List α → Prop where
  | stop : Walk next none []
  | step {x : α} {xs : List α} (h : Walk next (next x) xs) : Walk next (some x) (x :: xs)

/-! ## Walks -/

theorem Forward.walk (h : Forward next items) : Walk next items.head? items := by
  induction items with
  | nil => exact .stop
  | cons x xs ih =>
      obtain ⟨hnext, hrest⟩ := h
      refine .step ?_
      rw [hnext]
      exact ih hrest

theorem Walk.unique (h : Walk next start xs) (h' : Walk next start ys) : xs = ys := by
  induction h generalizing ys with
  | stop =>
      cases h'
      rfl
  | step _ ih =>
      cases h' with
      | step h' => rw [ih h']

/-! ## Pointers that change at one place -/

theorem Forward.of_append (h : Forward next (us ++ vs)) : Forward next vs := by
  induction us with
  | nil => exact h
  | cons u us ih => exact ih h.2

theorem Forward.congr (h : Forward next items) (hsame : ∀ y ∈ items, next' y = next y) :
    Forward next' items := by
  induction items with
  | nil => trivial
  | cons x xs ih =>
      refine ⟨?_, ih h.2 (fun y hy => hsame y (List.mem_cons_of_mem _ hy))⟩
      rw [hsame x List.mem_cons_self]
      exact h.1

/-- Only the last of the items has to be pointed at what now comes after them. -/
theorem Forward.relink (h : Forward next (us ++ vs)) (hnodup : us.Nodup)
    (hlast : ∀ y, us.getLast? = some y → next' y = ws.head?)
    (hframe : ∀ y ∈ us, us.getLast? ≠ some y → next' y = next y) (hnew : Forward next' ws) :
    Forward next' (us ++ ws) := by
  induction us with
  | nil => exact hnew
  | cons u us ih =>
      obtain ⟨hnotMem, hrest⟩ := List.nodup_cons.mp hnodup
      cases us with
      | nil => exact ⟨hlast u rfl, hnew⟩
      | cons v us =>
          refine ⟨?_, ih h.2 hrest hlast (fun y hy => hframe y (List.mem_cons_of_mem _ hy))⟩
          have hother : (u :: v :: us).getLast? ≠ some u := by
            intro heq
            rw [List.getLast?_cons_cons] at heq
            exact hnotMem (List.mem_of_getLast? heq)
          rw [hframe u List.mem_cons_self hother]
          exact h.1

namespace Linked

theorem reverse (h : Linked prev next items) : Linked next prev items.reverse :=
  ⟨List.nodup_reverse.mpr h.nodup, h.backward, by simpa using h.forward⟩

theorem walk_forwards (h : Linked prev next items) : Walk next items.head? items :=
  h.forward.walk

theorem walk_backwards (h : Linked prev next items) :
    Walk prev items.getLast? items.reverse := by
  simpa using h.reverse.walk_forwards

/-! ## Neighbours -/

theorem next_eq (h : Linked prev next (us ++ x :: vs)) : next x = vs.head? :=
  h.forward.of_append.1

theorem prev_eq (h : Linked prev next (us ++ x :: vs)) : prev x = us.getLast? := by
  have hreverse : Linked next prev (vs.reverse ++ x :: us.reverse) := by simpa using h.reverse
  simpa using hreverse.next_eq

/-! ## Removal and insertion -/

/-- The neighbours of a removed item are linked to each other. -/
theorem remove (h : Linked prev next (us ++ x :: vs))
    (hbefore : ∀ y, us.getLast? = some y → next' y = vs.head?)
    (hafter : ∀ y, vs.head? = some y → prev' y = us.getLast?)
    (hnext : ∀ y ∈ us ++ vs, us.getLast? ≠ some y → next' y = next y)
    (hprev : ∀ y ∈ us ++ vs, vs.head? ≠ some y → prev' y = prev y) :
    Linked prev' next' (us ++ vs) := by
  obtain ⟨hus, hxvs, hdisjoint⟩ := List.nodup_append.mp h.nodup
  obtain ⟨hx, hvs⟩ := List.nodup_cons.mp hxvs
  have hapart : ∀ y ∈ us, y ∉ vs := fun y hy hy' =>
    hdisjoint y hy y (List.mem_cons_of_mem _ hy') rfl
  refine ⟨?_, ?_, ?_⟩
  · exact List.nodup_append.mpr ⟨hus, hvs, fun y hy z hz heq => hapart y hy (heq ▸ hz)⟩
  · refine h.forward.relink hus hbefore ?_ ?_
    · exact fun y hy => hnext y (List.mem_append_left _ hy)
    · refine h.forward.of_append.2.congr (fun y hy => hnext y (List.mem_append_right _ hy) ?_)
      exact fun heq => hapart y (List.mem_of_getLast? heq) hy
  · have hbackward : Forward prev (vs.reverse ++ x :: us.reverse) := by simpa using h.backward
    rw [List.reverse_append]
    refine hbackward.relink (List.nodup_reverse.mpr hvs) ?_ ?_ ?_
    · simpa using hafter
    · intro y hy hne
      rw [List.mem_reverse] at hy
      exact hprev y (List.mem_append_right _ hy) (by simpa using hne)
    · refine hbackward.of_append.2.congr (fun y hy => ?_)
      rw [List.mem_reverse] at hy
      exact hprev y (List.mem_append_left _ hy) (fun heq => hapart y hy (List.mem_of_head? heq))

/-- An item is put behind the last one. -/
theorem concat (h : Linked prev next items) (hx : x ∉ items)
    (hlast : ∀ y, items.getLast? = some y → next' y = some x) (hnew : next' x = none)
    (hnew' : prev' x = items.getLast?)
    (hnext : ∀ y ∈ items, items.getLast? ≠ some y → next' y = next y)
    (hprev : ∀ y ∈ items, prev' y = prev y) :
    Linked prev' next' (items ++ [x]) := by
  refine ⟨?_, ?_, ?_⟩
  · rw [← List.concat_eq_append]
    exact h.nodup.concat hx
  · have hforward : Forward next (items ++ []) := by simpa using h.forward
    exact hforward.relink h.nodup hlast hnext ⟨hnew, trivial⟩
  · rw [List.reverse_append]
    refine ⟨by simpa using hnew', h.backward.congr (fun y hy => ?_)⟩
    exact hprev y (List.mem_reverse.mp hy)

end Linked

end LinkedList
