import Mathlib.Data.List.Nodup
import Mathlib.Logic.Function.Basic

/-! # Inverse indices

Items with a key each, and for every key in use the items that have it. -/

variable {β κ : Type*} {key : β → Option κ} {entries : κ → Option (List β)} {b : β} {k : κ}
  {bs : List β}

/-- The entries list the items of each key, each once, and no entry is empty. -/
structure InverseIndex (key : β → Option κ) (entries : κ → Option (List β)) : Prop where
  key_iff : ∀ b k, key b = some k ↔ ∃ bs, entries k = some bs ∧ b ∈ bs
  nonempty : ∀ k, entries k ≠ some []
  nodup : ∀ k bs, entries k = some bs → bs.Nodup

namespace InverseIndex

theorem empty : InverseIndex (fun _ : β => (none : Option κ)) (fun _ => none) where
  key_iff := by simp
  nonempty := by simp
  nodup := by simp

theorem mem (h : InverseIndex key entries) (hk : key b = some k) :
    ∃ bs, entries k = some bs ∧ b ∈ bs :=
  (h.key_iff b k).mp hk

/-- The first item of an entry has its key. -/
theorem key_of_head (h : InverseIndex key entries) (hb : (entries k).bind List.head? = some b) :
    key b = some k := by
  obtain ⟨bs, hbs, hhead⟩ := Option.bind_eq_some_iff.mp hb
  exact (h.key_iff b k).mpr ⟨bs, hbs, List.mem_of_head? hhead⟩

section Change

variable [DecidableEq β] [DecidableEq κ]

/-- An item without a key gets one. -/
theorem insert (h : InverseIndex key entries) (hb : key b = none) :
    InverseIndex (Function.update key b (some k))
      (Function.update entries k (some (((entries k).getD []) ++ [b]))) := by
  have hnot : ∀ k bs, entries k = some bs → b ∉ bs := by
    intro k bs hbs hmem
    have hkey := (h.key_iff b k).mpr ⟨bs, hbs, hmem⟩
    rw [hb] at hkey
    cases hkey
  refine ⟨?_, ?_, ?_⟩
  · intro c l
    by_cases hc : c = b
    · subst hc
      rw [Function.update_self]
      by_cases hl : l = k
      · subst hl
        simp
      · rw [Function.update_of_ne hl]
        constructor
        · rintro ⟨⟩
          exact absurd rfl hl
        · rintro ⟨bs, hbs, hmem⟩
          exact absurd hmem (hnot l bs hbs)
    · rw [Function.update_of_ne hc, h.key_iff]
      by_cases hl : l = k
      · subst hl
        rw [Function.update_self]
        cases entries l <;> simp [hc]
      · rw [Function.update_of_ne hl]
  · intro l
    by_cases hl : l = k
    · subst hl
      simp
    · rw [Function.update_of_ne hl]
      exact h.nonempty l
  · intro l bs
    by_cases hl : l = k
    · subst hl
      rw [Function.update_self]
      rintro ⟨⟩
      rw [← List.concat_eq_append]
      cases hbs : entries l with
      | none => simp
      | some bs => exact (h.nodup l bs hbs).concat (hnot l bs hbs)
    · rw [Function.update_of_ne hl]
      exact h.nodup l bs

/-- An item loses its key. -/
theorem erase (h : InverseIndex key entries) (hk : key b = some k) (hbs : entries k = some bs) :
    InverseIndex (Function.update key b none)
      (Function.update entries k (if bs.erase b = [] then none else some (bs.erase b))) := by
  have hnodup := h.nodup k bs hbs
  have hentry : ∀ bs', (if bs.erase b = [] then none else some (bs.erase b)) = some bs' →
      bs' = bs.erase b ∧ bs' ≠ [] := by
    intro bs'
    split_ifs with hnil
    · simp
    · rintro ⟨⟩
      exact ⟨rfl, hnil⟩
  refine ⟨?_, ?_, ?_⟩
  · intro c l
    by_cases hc : c = b
    · subst hc
      rw [Function.update_self]
      refine ⟨nofun, ?_⟩
      rintro ⟨bs', hbs', hmem⟩
      by_cases hl : l = k
      · subst hl
        rw [Function.update_self] at hbs'
        obtain ⟨rfl, -⟩ := hentry bs' hbs'
        exact absurd hmem (hnodup.not_mem_erase)
      · rw [Function.update_of_ne hl] at hbs'
        have hkey := (h.key_iff c l).mpr ⟨bs', hbs', hmem⟩
        rw [hk] at hkey
        exact absurd (Option.some.inj hkey).symm hl
    · rw [Function.update_of_ne hc, h.key_iff]
      by_cases hl : l = k
      · subst hl
        rw [Function.update_self, hbs]
        constructor
        · rintro ⟨bs', ⟨⟩, hmem⟩
          have hmem' : c ∈ bs.erase b := (List.mem_erase_of_ne hc).mpr hmem
          rw [if_neg (List.ne_nil_of_mem hmem')]
          exact ⟨_, rfl, hmem'⟩
        · rintro ⟨bs', hbs', hmem⟩
          obtain ⟨rfl, -⟩ := hentry bs' hbs'
          exact ⟨bs, rfl, List.mem_of_mem_erase hmem⟩
      · rw [Function.update_of_ne hl]
  · intro l
    by_cases hl : l = k
    · subst hl
      rw [Function.update_self]
      exact fun hnil => (hentry [] hnil).2 rfl
    · rw [Function.update_of_ne hl]
      exact h.nonempty l
  · intro l bs'
    by_cases hl : l = k
    · subst hl
      rw [Function.update_self]
      intro hbs'
      rw [(hentry bs' hbs').1]
      exact hnodup.erase b
    · rw [Function.update_of_ne hl]
      exact h.nodup l bs'

end Change

end InverseIndex
