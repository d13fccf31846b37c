import Mathlib.Data.Set.Basic

/-! # Announcements of departures

Items that have left are put into an outbox. A flush empties the outbox, and what it takes out is
either sent or lost. -/

/-- The numbered states of items and an outbox. -/
structure Outbox (α : Type*) where
  length : ℕ
  /-- The items that have not left. -/
  live : ℕ → Set α
  /-- The items that have left and will not come back. -/
  gone : ℕ → Set α
  outbox : ℕ → Set α
  flushed : ℕ → Prop
  sent : ℕ → Prop
  empty : outbox 0 = ∅
  sent_flushed : ∀ {k}, sent k → flushed k
  flush : ∀ {k}, k < length → flushed k → live (k + 1) = live k ∧ outbox (k + 1) = ∅
  keep : ∀ {k}, k < length → ¬ flushed k →
    outbox (k + 1) = outbox k ∪ {x | x ∈ live k ∧ x ∉ live (k + 1)}
  outbox_gone : ∀ {k}, k ≤ length → outbox k ⊆ gone k
  gone_mono : ∀ {k}, k < length → gone k ⊆ gone (k + 1)
  gone_disjoint : ∀ {k}, k ≤ length → ∀ x ∈ gone k, x ∉ live k

namespace Outbox

variable {α : Type*} (b : Outbox α)

/-- The item leaves in the step. -/
def Leaves (k : ℕ) (x : α) : Prop :=
  x ∈ b.live k ∧ x ∉ b.live (k + 1)

/-- The item is among those that the step sends. -/
def Announced (k : ℕ) (x : α) : Prop :=
  b.sent k ∧ x ∈ b.outbox k

/-- The step is the first one after another that sends anything. -/
structure NextSent (k i : ℕ) : Prop where
  lt : k < i
  lt_length : i < b.length
  sent : b.sent i
  first : ∀ m, k < m → m < i → ¬ b.sent m

/-- An item that leaves is announced once, at the first opportunity. -/
def AnnouncedOnce : Prop :=
  ∀ k < b.length, ∀ x, b.Leaves k x → ∀ i, b.NextSent k i →
    ∀ m < b.length, b.Announced m x ↔ m = i

/-- Nothing is sent after a flush that loses something. -/
def Lossless : Prop :=
  ∀ k < b.length, b.flushed k → ¬ b.sent k → (b.outbox k).Nonempty →
    ∀ i, k < i → i < b.length → ¬ b.sent i

variable {b} {x : α} {i j k : ℕ}

theorem NextSent.exists (hk : k < i) (hi : i < b.length) (hsent : b.sent i) :
    ∃ j, j ≤ i ∧ b.NextSent k j := by
  induction i using Nat.strong_induction_on with
  | _ i ih =>
      by_cases hfirst : ∃ m, k < m ∧ m < i ∧ b.sent m
      · obtain ⟨m, hkm, hmi, hm⟩ := hfirst
        obtain ⟨j, hj, hnext⟩ := ih m hmi hkm (by omega) hm
        exact ⟨j, by omega, hnext⟩
      · exact ⟨i, le_rfl, hk, hi, hsent, fun m hkm hmi hm => hfirst ⟨m, hkm, hmi, hm⟩⟩

theorem gone_le (hij : i ≤ j) (hj : j ≤ b.length) : b.gone i ⊆ b.gone j := by
  induction j, hij using Nat.le_induction with
  | base => exact subset_rfl
  | succ j hij ih => exact (ih (by omega)).trans (b.gone_mono (by omega))

theorem gone_notMem_live (hx : x ∈ b.gone i) (hij : i ≤ j) (hj : j ≤ b.length) : x ∉ b.live j :=
  b.gone_disjoint hj x (gone_le hij hj hx)

theorem Leaves.not_flushed (h : b.Leaves k x) (hk : k < b.length) : ¬ b.flushed k := fun hflush =>
  h.2 ((b.flush hk hflush).1 ▸ h.1)

theorem Leaves.mem_outbox (h : b.Leaves k x) (hk : k < b.length) : x ∈ b.outbox (k + 1) := by
  rw [b.keep hk (h.not_flushed hk)]
  exact .inr h

theorem Leaves.notMem_outbox (h : b.Leaves k x) (hk : k < b.length) (hi : i ≤ k) :
    x ∉ b.outbox i := fun hx =>
  gone_notMem_live (b.outbox_gone (by omega) hx) hi (by omega) h.1

/-- What has been flushed does not come back. -/
theorem notMem_outbox_of_gone (hgone : x ∈ b.gone i) (hx : x ∉ b.outbox i) (hij : i ≤ j)
    (hj : j ≤ b.length) : x ∉ b.outbox j := by
  induction j, hij using Nat.le_induction with
  | base => exact hx
  | succ j hij ih =>
      have hprev := ih (by omega)
      by_cases hflush : b.flushed j
      · rw [(b.flush (by omega) hflush).2]
        exact Set.notMem_empty x
      · rw [b.keep (by omega) hflush]
        rintro (hmem | hleaves)
        · exact hprev hmem
        · exact gone_notMem_live hgone hij (by omega) hleaves.1

theorem notMem_outbox_after_flush (hx : x ∈ b.outbox k) (hflush : b.flushed k) (hkj : k < j)
    (hj : j ≤ b.length) : x ∉ b.outbox j := by
  have hgone : x ∈ b.gone (k + 1) := b.gone_mono (by omega) (b.outbox_gone (by omega) hx)
  refine notMem_outbox_of_gone hgone ?_ hkj hj
  rw [(b.flush (by omega) hflush).2]
  exact Set.notMem_empty x

/-- Whatever is in the outbox has left in an earlier step. -/
theorem exists_leaves_of_mem_outbox (hx : x ∈ b.outbox j) (hj : j ≤ b.length) :
    ∃ k < j, b.Leaves k x := by
  induction j with
  | zero =>
      rw [b.empty] at hx
      exact absurd hx (Set.notMem_empty x)
  | succ j ih =>
      by_cases hflush : b.flushed j
      · rw [(b.flush (by omega) hflush).2] at hx
        exact absurd hx (Set.notMem_empty x)
      · rw [b.keep (by omega) hflush] at hx
        rcases hx with hx | hleaves
        · obtain ⟨k, hk, hleaves⟩ := ih hx (by omega)
          exact ⟨k, by omega, hleaves⟩
        · exact ⟨j, by omega, hleaves⟩

/-- If no flush loses anything, an item is still in the outbox when the next step sends. -/
theorem Lossless.mem_outbox (h : b.Lossless) (hk : k < b.length) (hleaves : b.Leaves k x)
    (hnext : b.NextSent k i) : x ∈ b.outbox i := by
  have hkeep : ∀ m, k + 1 ≤ m → m ≤ i → x ∈ b.outbox m := by
    intro m hkm hmi
    induction m, hkm using Nat.le_induction with
    | base => exact hleaves.mem_outbox hk
    | succ m hkm ih =>
        have hmem := ih (by omega)
        have hquiet := hnext.first m (by omega) (by omega)
        have hlength := hnext.lt_length
        have hflush : ¬ b.flushed m := fun hflush =>
          h m (by omega) hflush hquiet ⟨x, hmem⟩ i (by omega) hlength hnext.sent
        rw [b.keep (by omega) hflush]
        exact .inl hmem
  exact hkeep i hnext.lt le_rfl

theorem Lossless.announcedOnce (h : b.Lossless) : b.AnnouncedOnce := by
  intro k hk x hleaves i hnext m hm
  have hmem := h.mem_outbox hk hleaves hnext
  constructor
  · rintro ⟨hsent, hx⟩
    rcases Nat.lt_trichotomy m i with hlt | rfl | hgt
    · by_cases hmk : m ≤ k
      · exact absurd hx (hleaves.notMem_outbox hk hmk)
      · exact absurd hsent (hnext.first m (by omega) hlt)
    · rfl
    · exact absurd hx
        (notMem_outbox_after_flush hmem (b.sent_flushed hnext.sent) hgt (by omega))
  · rintro rfl
    exact ⟨hnext.sent, hmem⟩

theorem AnnouncedOnce.lossless (h : b.AnnouncedOnce) : b.Lossless := by
  rintro j hj hflush hquiet ⟨x, hx⟩ i hji hi hsent
  obtain ⟨k, hk, hleaves⟩ := exists_leaves_of_mem_outbox hx (by omega)
  obtain ⟨m, hmi, hnext⟩ := NextSent.exists (k := k) (by omega) hi hsent
  obtain ⟨hsent', hx'⟩ := (h k (by omega) x hleaves m hnext m hnext.lt_length).mpr rfl
  rcases Nat.lt_trichotomy m j with hlt | rfl | hgt
  · exact notMem_outbox_after_flush hx' (b.sent_flushed hsent') hlt (by omega) hx
  · exact hquiet hsent'
  · exact notMem_outbox_after_flush hx hflush hgt (by omega) hx'

/-- Every departure is announced once if and only if no flush loses one before a later
announcement. -/
theorem announcedOnce_iff : b.AnnouncedOnce ↔ b.Lossless :=
  ⟨AnnouncedOnce.lossless, Lossless.announcedOnce⟩

/-! ## A party that follows the announcements -/

/-- The items that a party knows, which it learns of when they are live and forgets when they are
announced. -/
structure Follower (b : Outbox α) where
  known : ℕ → Set α
  nothing : known 0 = ∅
  quiet : ∀ {k}, k < b.length → ¬ b.sent k → known (k + 1) = known k
  told : ∀ {k}, k < b.length → b.sent k →
    known (k + 1) ⊆ {x | x ∈ known k ∧ x ∉ b.outbox k} ∪ b.live k

theorem Follower.known_subset (f : b.Follower) (hj : j ≤ b.length)
    (hlossless : ∀ k < j, b.flushed k → ¬ b.sent k → b.outbox k = ∅) :
    f.known j ⊆ b.live j ∪ b.outbox j := by
  induction j with
  | zero =>
      rw [f.nothing]
      exact Set.empty_subset _
  | succ j ih =>
      have hsubset := ih (by omega) fun k hk => hlossless k (by omega)
      by_cases hsent : b.sent j
      · have hflush := b.flush (show j < b.length by omega) (b.sent_flushed hsent)
        rw [hflush.1]
        intro x hx
        rcases f.told (by omega) hsent hx with ⟨hknown, hnot⟩ | hlive
        · exact .inl ((hsubset hknown).resolve_right hnot)
        · exact .inl hlive
      · rw [f.quiet (by omega) hsent]
        by_cases hflush : b.flushed j
        · have hempty := hlossless j (by omega) hflush hsent
          rw [hempty, Set.union_empty] at hsubset
          rw [(b.flush (by omega) hflush).1]
          exact hsubset.trans Set.subset_union_left
        · rw [b.keep (by omega) hflush]
          intro x hx
          by_cases hlive : x ∈ b.live (j + 1)
          · exact .inl hlive
          · rcases hsubset hx with hold | hold
            · exact .inr (.inr ⟨hold, hlive⟩)
            · exact .inr (.inl hold)

/-- Right after it has been told anything, the party knows no item that has left. -/
theorem Follower.notMem_known (f : b.Follower) (h : b.Lossless) (hi : i < b.length)
    (hsent : b.sent i) (hki : k < i) (hleaves : b.Leaves k x) : x ∉ f.known (i + 1) := by
  intro hknown
  have hsubset := f.known_subset (j := i) (by omega) fun j hj hflush hquiet =>
    Set.not_nonempty_iff_eq_empty.mp fun hlost => h j (by omega) hflush hquiet hlost i hj hi hsent
  have hgone : x ∈ b.gone i := gone_le (by omega) (by omega)
    (b.outbox_gone (by omega) (hleaves.mem_outbox (by omega)))
  have hlive : x ∉ b.live i := b.gone_disjoint (by omega) x hgone
  rcases f.told hi hsent hknown with ⟨hold, hnot⟩ | hnew
  · rcases hsubset hold with hlive' | hpending
    · exact hlive hlive'
    · exact hnot hpending
  · exact hlive hnew

end Outbox
