import Mathlib.Logic.Function.Basic
import Spexis.Library.Python

/-! # Array rows and list objects

The rows of numpy arrays are functions on columns, and list objects that can be shared are kept on
a heap and named by references. -/

namespace Python

/-- The row after `row[start:stop] = values`, which repeats a single value. -/
def npAssign {α : Type*} (width : ℕ) (row : ℕ → α) (start stop : ℕ) (values : List α) :
    Except PyError (ℕ → α) :=
  let start := min start width
  let stop := min stop width
  if values.length = stop - start then
    .ok fun j => if start ≤ j ∧ j < stop then values.getD (j - start) (row j) else row j
  else
    match values with
    | [v] => .ok fun j => if start ≤ j ∧ j < stop then v else row j
    | _ => .error (.valueError "could not broadcast input array")

/-- The identity of a list object. -/
abbrev ListRef := ℕ

/-- The list objects that have been made, by identity. -/
structure ListHeap (α : Type*) where
  lists : List (List α)

namespace ListHeap

variable {α : Type*}

def empty : ListHeap α := ⟨[]⟩

/-- A new list object. -/
def alloc (heap : ListHeap α) (xs : List α) : ListRef × ListHeap α :=
  (heap.lists.length, ⟨heap.lists ++ [xs]⟩)

/-- The contents of a list object. -/
def read (heap : ListHeap α) (ref : ListRef) : List α :=
  heap.lists.getD ref []

/-- `xs.extend(ys)`. -/
def extend (heap : ListHeap α) (ref : ListRef) (ys : List α) : ListHeap α :=
  ⟨heap.lists.set ref (heap.read ref ++ ys)⟩

end ListHeap

end Python
