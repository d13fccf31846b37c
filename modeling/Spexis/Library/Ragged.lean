import Mathlib.Algebra.BigOperators.Group.List.Basic
import Mathlib.Algebra.GroupWithZero.Nat
import Mathlib.Data.List.Nodup

/-! # Ragged arrays

Rows of different lengths, laid out one after the other. Every flat array over such a layout is
the image of the list of its cells, so that computations on whole arrays become facts about a
single cell. -/

namespace Ragged

variable {α : Type*} {ns : List ℕ} {i j : ℕ}

/-- The cells `(i, j)` with `j < ns[i]`, row by row. -/
def cells : List ℕ → List (ℕ × ℕ)
  | [] => []
  | n :: ns => (List.range n).map (fun j => (0, j)) ++ (cells ns).map fun c => (c.1 + 1, c.2)

@[simp] theorem cells_nil : cells [] = [] := rfl

theorem cells_cons (n : ℕ) (ns : List ℕ) :
    cells (n :: ns) =
      (List.range n).map (fun j => (0, j)) ++ (cells ns).map fun c => (c.1 + 1, c.2) := rfl

theorem mem_cells : (i, j) ∈ cells ns ↔ ∃ n, ns[i]? = some n ∧ j < n := by
  induction ns generalizing i with
  | nil => simp
  | cons n ns ih =>
      rw [cells_cons, List.mem_append]
      cases i with
      | zero => simp
      | succ i =>
          rw [List.getElem?_cons_succ, ← ih]
          simp

@[simp] theorem length_cells (ns : List ℕ) : (cells ns).length = ns.sum := by
  induction ns with
  | nil => rfl
  | cons n ns ih => rw [cells_cons, List.length_append, List.length_map, List.length_map,
      List.length_range, ih, List.sum_cons]

theorem nodup_cells (ns : List ℕ) : (cells ns).Nodup := by
  induction ns with
  | nil => exact List.nodup_nil
  | cons n ns ih =>
      rw [cells_cons, List.nodup_append]
      refine ⟨?_, ?_, ?_⟩
      · exact List.nodup_range.map fun j j' h => (Prod.mk.inj h).2
      · exact ih.map fun c c' h => Prod.ext (Nat.succ.inj (Prod.mk.inj h).1) (Prod.mk.inj h).2
      · rintro c hc c' hc' rfl
        obtain ⟨j, -, rfl⟩ := List.mem_map.mp hc
        obtain ⟨c', -, h⟩ := List.mem_map.mp hc'
        cases h

/-- A double loop over the rows visits the cells in order. -/
theorem flatten_rows (f : ℕ → ℕ → α) (ns : List ℕ) (start : ℕ) :
    ((ns.zipIdx start).map fun p => (List.range p.1).map (f p.2)).flatten =
      (cells ns).map fun c => f (start + c.1) c.2 := by
  induction ns generalizing start with
  | nil => rfl
  | cons n ns ih =>
      rw [List.zipIdx_cons, List.map_cons, List.flatten_cons, ih (start + 1), cells_cons,
        List.map_append, List.map_map, List.map_map]
      congr 1
      apply List.map_congr_left
      intro c _
      simp only [Function.comp_apply]
      rw [Nat.add_assoc, Nat.add_comm 1]

/-- Repeating what each row has to its length gives every cell what its row has. -/
theorem flatten_replicate (f : ℕ → α) (ns : List ℕ) :
    (List.zipWith (fun x n => List.replicate n x) ((List.range ns.length).map f) ns).flatten =
      (cells ns).map fun c => f c.1 := by
  induction ns generalizing f with
  | nil => rfl
  | cons n ns ih =>
      rw [List.length_cons, List.range_succ_eq_map, List.map_cons, List.map_map,
        List.zipWith_cons_cons, List.flatten_cons, ih (f ∘ Nat.succ), cells_cons, List.map_append,
        List.map_map, List.map_map]
      congr 1
      simp [Function.comp_def]

theorem map_range_getD (ns : List ℕ) : (List.range ns.length).map (fun i => ns.getD i 0) = ns := by
  apply List.ext_getElem
  · simp
  · intro i _ hi
    simp [hi]

/-- The flat index of a cell is the number of the cells in earlier rows and its column. -/
theorem range_sum (ns : List ℕ) :
    List.range ns.sum = (cells ns).map fun c => (ns.take c.1).sum + c.2 := by
  induction ns with
  | nil => rfl
  | cons n ns ih =>
      rw [List.sum_cons, List.range_add, ih, cells_cons, List.map_append, List.map_map,
        List.map_map, List.map_map]
      congr 1
      · simp [Function.comp_def]
      · apply List.map_congr_left
        intro c _
        simp [Nat.add_assoc]

/-- The cell at a flat index. -/
theorem getElem?_cells (h : (i, j) ∈ cells ns) :
    (cells ns)[(ns.take i).sum + j]? = some (i, j) := by
  induction ns generalizing i with
  | nil => simp at h
  | cons n ns ih =>
      obtain ⟨m, hm, hj⟩ := mem_cells.mp h
      cases i with
      | zero =>
          obtain rfl : n = m := by simpa using hm
          rw [cells_cons, List.getElem?_append_left (by simpa using hj)]
          simp [hj]
      | succ i =>
          have hcell : (i, j) ∈ cells ns := mem_cells.mpr ⟨m, by simpa using hm, hj⟩
          have hindex : ((n :: ns).take (i + 1)).sum + j = n + ((ns.take i).sum + j) := by
            rw [List.take_succ_cons, List.sum_cons, Nat.add_assoc]
          rw [cells_cons, hindex, List.getElem?_append_right (by simp), List.length_map,
            List.length_range, Nat.add_sub_cancel_left, List.getElem?_map, ih hcell]
          rfl

end Ragged
