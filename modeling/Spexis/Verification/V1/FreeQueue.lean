import Spexis.Library.LinkedList
import Spexis.Model.V1.KVCacheUtils

/-! # The free block queue holds a list of blocks -/

namespace Spexis.V1

open Python LinkedList

namespace FreeKVCacheBlockQueue

variable {q q' : FreeKVCacheBlockQueue} {items us vs : List BlockId} {b : BlockId}

/-- The queue links the blocks of the list, and no others. -/
structure Holds (q : FreeKVCacheBlockQueue) (items : List BlockId) : Prop where
  linked : Linked q.prevFreeBlock q.nextFreeBlock items
  head : q.freeListHead = items.head?
  tail : q.freeListTail = items.getLast?
  numFreeBlocks : q.numFreeBlocks = items.length
  unlinked : ∀ b ∉ items, q.prevFreeBlock b = none ∧ q.nextFreeBlock b = none

/-! ## The first queue -/

theorem forward_range' (next : ℕ → Option ℕ) (start n : ℕ)
    (hnext : ∀ i, start ≤ i → i < start + n →
      next i = if i + 1 < start + n then some (i + 1) else none) :
    Forward next (List.range' start n) := by
  induction n generalizing start with
  | zero => trivial
  | succ n ih =>
      rw [List.range'_succ]
      refine ⟨?_, ih (start + 1) (fun i hi hi' => ?_)⟩
      · rw [hnext start le_rfl (by omega)]
        cases n with
        | zero => simp
        | succ n => simp [List.range'_succ]
      · rw [hnext i (by omega) (by omega)]
        simp only [show start + 1 + n = start + (n + 1) by omega]

theorem forward_reverse_range (prev : ℕ → Option ℕ) (n : ℕ)
    (hprev : ∀ i < n, prev i = if 0 < i then some (i - 1) else none) :
    Forward prev (List.range n).reverse := by
  induction n with
  | zero => trivial
  | succ n ih =>
      rw [List.range_succ, List.reverse_append]
      refine ⟨?_, ih (fun i hi => hprev i (by omega))⟩
      rw [hprev n (by omega)]
      cases n with
      | zero => rfl
      | succ n => simp [List.range_succ]

theorem init_holds {numBlocks : ℕ} (hpos : 0 < numBlocks) :
    (init numBlocks).Holds (List.range numBlocks) := by
  obtain ⟨n, rfl⟩ : ∃ n, numBlocks = n + 1 := ⟨numBlocks - 1, by omega⟩
  refine ⟨⟨List.nodup_range, ?_, ?_⟩, ?_, ?_, ?_, ?_⟩
  · rw [List.range_eq_range']
    exact forward_range' _ 0 (n + 1) (fun i _ _ => by simp [init])
  · refine forward_reverse_range _ (n + 1) (fun i hi => ?_)
    simp only [init, hi, and_true]
  · simp [init, List.range_succ_eq_map]
  · simp [init, List.range_succ]
  · simp [init]
  · intro (b : ℕ) hb
    simp only [List.mem_range, not_lt] at hb
    have hprev : ¬ (0 < b ∧ b < n + 1) := by omega
    have hnext : ¬ b + 1 < n + 1 := by omega
    exact ⟨if_neg hprev, if_neg hnext⟩

/-! ## Operations -/

/-- What the removal of a block does to the pointers, between its two neighbours. -/
theorem remove_eq (hprev : q.prevFreeBlock b = us.getLast?) (hnext : q.nextFreeBlock b = vs.head?)
    (hus : b ∉ us) (hvs : b ∉ vs) :
    q.remove b =
      { numFreeBlocks := q.numFreeBlocks - 1
        freeListHead := if some b = q.freeListHead then vs.head? else q.freeListHead
        freeListTail := if some b = q.freeListTail then us.getLast? else q.freeListTail
        prevFreeBlock := fun y =>
          if y = b then none else if vs.head? = some y then us.getLast? else q.prevFreeBlock y
        nextFreeBlock := fun y =>
          if y = b then none else if us.getLast? = some y then vs.head? else q.nextFreeBlock y } := by
  have hlast : ∀ p, us.getLast? = some p → b ≠ p := by
    rintro p hp rfl
    exact hus (List.mem_of_getLast? hp)
  have hhead : ∀ n, vs.head? = some n → b ≠ n := by
    rintro n hn rfl
    exact hvs (List.mem_of_head? hn)
  unfold remove
  rw [hprev, hnext]
  cases hp : us.getLast? with
  | none =>
      simp only [hnext]
      cases hn : vs.head? with
      | none => simp [funext_iff, Function.update_apply, hprev, hp]
      | some n => simp [funext_iff, Function.update_apply, hprev, hp, hhead n hn, eq_comm (a := n)]
  | some p =>
      simp only [Function.update_of_ne (hlast p hp), hnext]
      cases hn : vs.head? with
      | none => simp [funext_iff, Function.update_apply, hprev, hp, eq_comm (a := p)]
      | some n =>
          simp [funext_iff, Function.update_apply, hprev, hp, hhead n hn, eq_comm (a := p),
            eq_comm (a := n)]

theorem Holds.remove_append (h : q.Holds (us ++ b :: vs)) : (q.remove b).Holds (us ++ vs) := by
  obtain ⟨-, hbvs, hdisjoint⟩ := List.nodup_append.mp h.linked.nodup
  have hus : b ∉ us := fun hmem => hdisjoint b hmem b List.mem_cons_self rfl
  have hvs : b ∉ vs := (List.nodup_cons.mp hbvs).1
  have hother : ∀ y ∈ us ++ vs, y ≠ b := by
    rintro y hy rfl
    exact (List.mem_append.mp hy).elim hus hvs
  rw [remove_eq h.linked.prev_eq h.linked.next_eq hus hvs]
  refine ⟨h.linked.remove ?_ ?_ ?_ ?_, ?_, ?_, ?_, ?_⟩
  · intro y hy
    simp [hother y (List.mem_append_left _ (List.mem_of_getLast? hy)), hy]
  · intro y hy
    simp [hother y (List.mem_append_right _ (List.mem_of_head? hy)), hy]
  · intro y hy hne
    simp [hother y hy, hne]
  · intro y hy hne
    simp [hother y hy, hne]
  · -- the head moves on when the removed block was the first one
    simp only [h.head]
    cases us with
    | nil => simp
    | cons u us =>
        have hne : b ≠ u := fun heq => hus (heq ▸ List.mem_cons_self)
        simp [hne]
  · simp only [h.tail]
    cases vs with
    | nil => simp
    | cons v vs =>
        have hlast : (us ++ b :: v :: vs).getLast? = (us ++ v :: vs).getLast? := by
          simp [List.getLast?_append]
        have hne : some b ≠ (us ++ v :: vs).getLast? := fun heq =>
          hother b (List.mem_of_getLast? heq.symm) rfl
        rw [hlast, if_neg hne]
  · have hsize := h.numFreeBlocks
    simp only [List.length_append, List.length_cons] at hsize ⊢
    omega
  · intro y hy
    by_cases hyb : y = b
    · simp [hyb]
    · have hout := h.unlinked y (by simpa [hyb] using hy)
      have hlast : us.getLast? ≠ some y := fun heq =>
        hy (List.mem_append_left _ (List.mem_of_getLast? heq))
      have hhead : vs.head? ≠ some y := fun heq =>
        hy (List.mem_append_right _ (List.mem_of_head? heq))
      simpa [hyb, hlast, hhead] using hout

theorem Holds.remove (h : q.Holds items) (hb : b ∈ items) : (q.remove b).Holds (items.erase b) := by
  obtain ⟨us, vs, rfl⟩ := List.append_of_mem hb
  have hus : b ∉ us := fun hmem =>
    (List.nodup_append.mp h.linked.nodup).2.2 b hmem b List.mem_cons_self rfl
  rw [List.erase_append_right _ hus, List.erase_cons_head]
  exact h.remove_append

theorem Holds.popleft_cons (h : q.Holds (b :: items)) :
    ∃ q', q.popleft = .ok (b, q') ∧ q'.Holds items := by
  have hremoved : (q.remove b).Holds ([] ++ items) := Holds.remove_append h
  refine ⟨q.remove b, ?_, hremoved⟩
  rw [popleft, h.head]
  rfl

theorem Holds.append (h : q.Holds items) (hb : b ∉ items) :
    ∃ q', q.append b = .ok q' ∧ q'.Holds (items ++ [b]) := by
  obtain ⟨hprev, hnext⟩ := h.unlinked b hb
  unfold FreeKVCacheBlockQueue.append
  rw [h.tail]
  cases hlast : items.getLast? with
  | none =>
      obtain rfl := List.getLast?_eq_none_iff.mp hlast
      refine ⟨_, by rw [h.head]; rfl, ⟨⟨by simp, ?_, ?_⟩, rfl, rfl, ?_, ?_⟩⟩
      · simp [Forward]
      · simpa [Forward] using hprev
      · simp [h.numFreeBlocks]
      · intro y hy
        have hne : y ≠ b := by simpa using hy
        simpa [Function.update_of_ne hne] using h.unlinked y List.not_mem_nil
  | some t =>
      have hne : ∀ y ∈ items, y ≠ b := fun y hy heq => hb (heq ▸ hy)
      have ht : t ≠ b := hne t (List.mem_of_getLast? hlast)
      refine ⟨_, rfl, ⟨h.linked.concat hb ?_ ?_ ?_ ?_ ?_, ?_, ?_, ?_, ?_⟩⟩
      · rintro y hy
        obtain rfl : t = y := Option.some.inj (hlast.symm.trans hy)
        simp [Function.update_of_ne ht]
      · simp
      · simp [hlast]
      · intro y hy hother
        have hyt : y ≠ t := fun heq => hother (heq ▸ hlast)
        simp [Function.update_of_ne (hne y hy), Function.update_of_ne hyt]
      · intro y hy
        exact Function.update_of_ne (hne y hy) _ _
      · cases items with
        | nil => cases hlast
        | cons y items => simpa using h.head
      · simp
      · simp [h.numFreeBlocks]
      · intro y hy
        simp only [List.mem_append, List.mem_singleton, not_or] at hy
        have hyt : y ≠ t := fun heq => hy.1 (heq ▸ List.mem_of_getLast? hlast)
        simpa [Function.update_of_ne hy.2, Function.update_of_ne hyt] using h.unlinked y hy.1

end FreeKVCacheBlockQueue

end Spexis.V1
