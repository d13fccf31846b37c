import Mathlib.Algebra.BigOperators.Group.List.Basic
import Spexis.Model.V1.Scheduler

/-! # The encoder cache

What allocating and freeing encoder inputs does to the free slots, and which inputs are chosen for
a step. -/

namespace Spexis.V1

open Python

/-- The slots that some inputs of a request take. -/
def Request.encoderTokens (r : Request) (inputs : List ℕ) : ℤ :=
  (inputs.map fun i => (r.getNumEncoderTokens i : ℤ)).sum

namespace Request

variable {r r' : Request}

@[simp] theorem encoderTokens_nil (r : Request) : r.encoderTokens [] = 0 := rfl

@[simp] theorem encoderTokens_cons (r : Request) (i : ℕ) (inputs : List ℕ) :
    r.encoderTokens (i :: inputs) = r.getNumEncoderTokens i + r.encoderTokens inputs := by
  simp [encoderTokens]

@[simp] theorem encoderTokens_append (r : Request) (xs ys : List ℕ) :
    r.encoderTokens (xs ++ ys) = r.encoderTokens xs + r.encoderTokens ys := by
  simp [encoderTokens]

theorem encoderTokens_nonneg (r : Request) (inputs : List ℕ) : 0 ≤ r.encoderTokens inputs := by
  induction inputs with
  | nil => exact le_rfl
  | cons i inputs ih =>
      rw [encoderTokens_cons]
      exact add_nonneg (Int.natCast_nonneg _) ih

theorem encoderTokens_erase {inputs : List ℕ} {i : ℕ} (hi : i ∈ inputs) :
    r.getNumEncoderTokens i + r.encoderTokens (inputs.erase i) = r.encoderTokens inputs :=
  List.sum_map_erase (fun i => (r.getNumEncoderTokens i : ℤ)) hi

theorem getNumEncoderTokens_congr (h : r'.mmPositions = r.mmPositions) :
    r'.getNumEncoderTokens = r.getNumEncoderTokens := by
  funext i
  rw [getNumEncoderTokens, h, getNumEncoderTokens]

theorem encoderTokens_congr (h : r'.mmPositions = r.mmPositions) :
    r'.encoderTokens = r.encoderTokens := by
  funext inputs
  rw [encoderTokens, getNumEncoderTokens_congr h, encoderTokens]

end Request

namespace EncoderCacheManager

variable {e e₁ e₂ e₃ : EncoderCacheManager} {q : ReqId} {r r' : Request} {i : ℕ} {ids : List ℕ}

/-! ## Freeing -/

/-- Inputs of one request are freed, and their slots are free again. -/
structure Releases (q : ReqId) (r : Request) (e e' : EncoderCacheManager) : Prop where
  sublist : (e'.cached q).Sublist (e.cached q)
  other : ∀ p ≠ q, e'.cached p = e.cached p
  total : e'.numFreeSlots + r.encoderTokens (e'.cached q) =
    e.numFreeSlots + r.encoderTokens (e.cached q)
  grows : e.numFreeSlots ≤ e'.numFreeSlots

theorem Releases.refl (q : ReqId) (r : Request) (e : EncoderCacheManager) : Releases q r e e :=
  ⟨List.Sublist.refl _, fun _ _ => rfl, rfl, le_rfl⟩

theorem Releases.trans (h : Releases q r e₁ e₂) (h' : Releases q r e₂ e₃) : Releases q r e₁ e₃ :=
  ⟨h'.sublist.trans h.sublist, fun p hp => (h'.other p hp).trans (h.other p hp),
    h'.total.trans h.total, h.grows.trans h'.grows⟩

theorem Releases.congr (h : Releases q r e₁ e₂) (hmm : r'.mmPositions = r.mmPositions) :
    Releases q r' e₁ e₂ := by
  refine ⟨h.sublist, h.other, ?_, h.grows⟩
  rw [Request.encoderTokens_congr hmm]
  exact h.total

theorem freeEncoderInput_cached (hi : i ∈ e.cached q) :
    (e.freeEncoderInput q r i).cached q = (e.cached q).erase i := by
  rw [freeEncoderInput, if_neg (List.ne_nil_of_mem hi)]
  exact Function.update_self _ _ _

theorem freeEncoderInput_releases (hi : i ∈ e.cached q) :
    Releases q r e (e.freeEncoderInput q r i) := by
  have hcached := freeEncoderInput_cached (r := r) hi
  have hslots : (e.freeEncoderInput q r i).numFreeSlots =
      e.numFreeSlots + r.getNumEncoderTokens i := by
    rw [freeEncoderInput, if_neg (List.ne_nil_of_mem hi)]
  refine ⟨hcached ▸ List.erase_sublist, fun p hp => ?_, ?_, ?_⟩
  · rw [freeEncoderInput, if_neg (List.ne_nil_of_mem hi)]
    exact Function.update_of_ne hp _ _
  · rw [hcached, hslots, ← Request.encoderTokens_erase hi]
    ring
  · rw [hslots]
    exact le_add_of_nonneg_right (Int.natCast_nonneg _)

/-- Some of the listed inputs are freed. -/
theorem foldl_releases {f : EncoderCacheManager → ℕ → EncoderCacheManager}
    (hf : ∀ e i, f e i = e ∨ f e i = e.freeEncoderInput q r i) (hnodup : ids.Nodup)
    (hmem : ∀ i ∈ ids, i ∈ e.cached q) : Releases q r e (ids.foldl f e) := by
  induction ids generalizing e with
  | nil => exact .refl q r e
  | cons i ids ih =>
      obtain ⟨hnot, hnodup⟩ := List.nodup_cons.mp hnodup
      have hi := hmem i List.mem_cons_self
      have hrest : ∀ j ∈ ids, j ∈ e.cached q := fun j hj => hmem j (List.mem_cons_of_mem i hj)
      rw [List.foldl_cons]
      rcases hf e i with hsame | hfree
      · rw [hsame]
        exact ih hnodup hrest
      · rw [hfree]
        refine (freeEncoderInput_releases hi).trans (ih hnodup fun j hj => ?_)
        have hne : j ≠ i := fun heq => hnot (heq ▸ hj)
        rw [freeEncoderInput_cached hi]
        exact (List.mem_erase_of_ne hne).mpr (hrest j hj)

theorem notMem_foldl_free (hnodup : ids.Nodup) (hcached : (e.cached q).Nodup)
    (hmem : ∀ i ∈ ids, i ∈ e.cached q) (hi : i ∈ ids) :
    i ∉ (ids.foldl (fun e i => e.freeEncoderInput q r i) e).cached q := by
  induction ids generalizing e with
  | nil => exact absurd hi List.not_mem_nil
  | cons j ids ih =>
      obtain ⟨hnot, hnodup⟩ := List.nodup_cons.mp hnodup
      have hj := hmem j List.mem_cons_self
      have hone := freeEncoderInput_cached (r := r) hj
      have hcached₁ : ((e.freeEncoderInput q r j).cached q).Nodup := hone ▸ hcached.erase j
      have hrest : ∀ k ∈ ids, k ∈ (e.freeEncoderInput q r j).cached q := by
        intro k hk
        have hne : k ≠ j := fun heq => hnot (heq ▸ hk)
        rw [hone]
        exact (List.mem_erase_of_ne hne).mpr (hmem k (List.mem_cons_of_mem j hk))
      rw [List.foldl_cons]
      rcases List.mem_cons.mp hi with heq | hi
      · have hreleases := foldl_releases (r := r) (f := fun e i => e.freeEncoderInput q r i)
          (fun _ _ => .inr rfl) hnodup hrest
        intro hin
        have hin' := hreleases.sublist.subset hin
        rw [hone, heq] at hin'
        exact hcached.not_mem_erase hin'
      · exact ih hnodup hcached₁ hrest hi

/-- All inputs of a request are freed. -/
theorem free_releases (r : Request) (hcached : (e.cached q).Nodup) :
    Releases q r e (e.free q r) ∧ (e.free q r).cached q = [] := by
  have hreleases : Releases q r e (e.free q r) :=
    foldl_releases (fun _ _ => .inr rfl) hcached fun _ => id
  refine ⟨hreleases, List.eq_nil_iff_forall_not_mem.mpr fun i hi => ?_⟩
  exact notMem_foldl_free hcached hcached (fun _ => id) (hreleases.sublist.subset hi) hi

/-- The inputs that the decoder has taken in are freed. -/
theorem freeEncoderInputs_releases {s : Scheduler}
    (hcached : (s.encoderCacheManager.cached q).Nodup) :
    Releases q (s.request q) s.encoderCacheManager (s.freeEncoderInputs q) := by
  refine foldl_releases (fun e i => ?_) hcached fun _ => id
  split
  · exact .inl rfl
  · split_ifs
    · exact .inr rfl
    · exact .inl rfl

/-! ## Allocating -/

/-- New inputs of one request are cached, and they take their slots. -/
structure Takes (q : ReqId) (r : Request) (inputs : List ℕ) (e e' : EncoderCacheManager) :
    Prop where
  cached : e'.cached q = e.cached q ++ inputs
  other : ∀ p ≠ q, e'.cached p = e.cached p
  slots : e'.numFreeSlots = e.numFreeSlots - r.encoderTokens inputs

theorem Takes.total {inputs : List ℕ} (h : Takes q r inputs e₁ e₂) :
    e₂.numFreeSlots + r.encoderTokens (e₂.cached q) =
      e₁.numFreeSlots + r.encoderTokens (e₁.cached q) := by
  rw [h.cached, h.slots, Request.encoderTokens_append]
  ring

theorem foldl_allocate_takes {inputs : List ℕ} (hnodup : inputs.Nodup)
    (hnew : ∀ i ∈ inputs, i ∉ e.cached q) :
    Takes q r inputs e (inputs.foldl (fun e i => e.allocate q r i) e) := by
  induction inputs generalizing e with
  | nil => exact ⟨by simp, fun _ _ => rfl, by simp⟩
  | cons i inputs ih =>
      obtain ⟨hnot, hnodup⟩ := List.nodup_cons.mp hnodup
      have hone : (e.allocate q r i).cached q = e.cached q ++ [i] := by
        have hset : (e.allocate q r i).cached q = setAdd (e.cached q) i :=
          Function.update_self _ _ _
        rw [hset, setAdd, if_neg (hnew i List.mem_cons_self)]
      have hrest : ∀ j ∈ inputs, j ∉ (e.allocate q r i).cached q := by
        intro j hj
        rw [hone, List.mem_append, List.mem_singleton]
        rintro (hold | rfl)
        · exact hnew j (List.mem_cons_of_mem i hj) hold
        · exact hnot hj
      obtain ⟨hcached, hother, hslots⟩ := ih hnodup hrest
      refine ⟨?_, fun p hp => ?_, ?_⟩
      · rw [List.foldl_cons, hcached, hone, List.append_assoc, List.singleton_append]
      · rw [List.foldl_cons, hother p hp]
        exact Function.update_of_ne hp _ _
      · rw [List.foldl_cons, hslots, Request.encoderTokens_cons]
        simp only [allocate]
        ring

theorem foldl_allocate_numFreeSlots (inputs : List ℕ) (e : EncoderCacheManager) :
    (inputs.foldl (fun e i => e.allocate q r i) e).numFreeSlots =
      e.numFreeSlots - r.encoderTokens inputs := by
  induction inputs generalizing e with
  | nil => simp
  | cons i inputs ih =>
      rw [List.foldl_cons, ih, Request.encoderTokens_cons]
      simp only [allocate]
      ring

/-! ## The slots in use -/

/-- The total length of the cached placeholders of some requests. -/
def slotsUsed (e : EncoderCacheManager) (request : ReqId → Request) (reqIds : List ReqId) : ℤ :=
  (reqIds.map fun q => (request q).encoderTokens (e.cached q)).sum

/-- What one request gains, the sum over all requests gains. -/
theorem sum_map_of_eq_off {f g : ReqId → ℤ} {qs : List ReqId} (hnodup : qs.Nodup) (hq : q ∈ qs)
    (hsame : ∀ p ≠ q, g p = f p) : (qs.map g).sum + f q = (qs.map f).sum + g q := by
  have hrest : (qs.erase q).map g = (qs.erase q).map f :=
    List.map_congr_left fun p hp => hsame p (hnodup.mem_erase_iff.mp hp).1
  rw [← List.sum_map_erase g hq, ← List.sum_map_erase f hq, hrest]
  ring

/-- The slots of one request are taken or freed: no slot is lost. -/
theorem add_slotsUsed {request request' : ReqId → Request} {reqIds : List ReqId}
    (hnodup : reqIds.Nodup) (hq : q ∈ reqIds) (hother : ∀ p ≠ q, e₂.cached p = e₁.cached p)
    (hmm : ∀ p, (request' p).mmPositions = (request p).mmPositions)
    (htotal : e₂.numFreeSlots + (request q).encoderTokens (e₂.cached q) =
      e₁.numFreeSlots + (request q).encoderTokens (e₁.cached q)) :
    e₂.numFreeSlots + e₂.slotsUsed request' reqIds =
      e₁.numFreeSlots + e₁.slotsUsed request reqIds := by
  have hsame : ∀ p ≠ q, (request' p).encoderTokens (e₂.cached p) =
      (request p).encoderTokens (e₁.cached p) := by
    intro p hp
    rw [hother p hp, Request.encoderTokens_congr (hmm p)]
  have hsum := sum_map_of_eq_off hnodup hq hsame
  rw [Request.encoderTokens_congr (hmm q)] at hsum
  rw [slotsUsed, slotsUsed]
  omega

theorem slotsUsed_congr {request request' : ReqId → Request} {reqIds : List ReqId}
    (hcached : e₂.cached = e₁.cached)
    (hmm : ∀ p ∈ reqIds, (request' p).mmPositions = (request p).mmPositions) :
    e₂.slotsUsed request' reqIds = e₁.slotsUsed request reqIds := by
  rw [slotsUsed, slotsUsed]
  refine congrArg List.sum (List.map_congr_left fun p hp => ?_)
  rw [hcached, Request.encoderTokens_congr (hmm p hp)]

/-- A request without cached inputs may be left out. -/
theorem slotsUsed_erase {request : ReqId → Request} {reqIds : List ReqId}
    (hempty : e.cached q = []) : e.slotsUsed request (reqIds.erase q) = e.slotsUsed request reqIds := by
  by_cases hq : q ∈ reqIds
  · have herase := List.sum_map_erase (fun p => (request p).encoderTokens (e.cached p)) hq
    rw [hempty, Request.encoderTokens_nil, zero_add] at herase
    exact herase
  · rw [List.erase_of_not_mem hq]

end EncoderCacheManager

/-! ## The inputs of a step -/

/-- The placeholders come one after the other. -/
def Request.Ordered (r : Request) : Prop :=
  r.mmPositions.Pairwise fun position position' =>
    position.offset + position.length ≤ position'.offset

namespace Scheduling

open EncoderCacheManager

variable {cfg : Config} {e : EncoderCacheManager} {q : ReqId} {r : Request} {c i : ℕ}

/-- What `_try_schedule_encoder_inputs` chooses, from some input on. -/
structure EncoderChoice (e : EncoderCacheManager) (q : ReqId) (r : Request) (i : ℕ)
    (encoderBudget : ℤ) (result : List ℕ × ℤ × ℤ) : Prop where
  nodup : result.1.Nodup
  from_start : ∀ j ∈ result.1, i ≤ j
  new : ∀ j ∈ result.1, j ∉ e.cached q
  budget : result.2.2 = encoderBudget - r.encoderTokens result.1
  nonneg : 0 ≤ encoderBudget → 0 ≤ result.2.2

theorem EncoderChoice.stop (e : EncoderCacheManager) (q : ReqId) (r : Request) (i : ℕ)
    (n encoderBudget : ℤ) : EncoderChoice e q r i encoderBudget ([], n, encoderBudget) :=
  ⟨List.nodup_nil, fun _ hj => absurd hj List.not_mem_nil, fun _ hj => absurd hj List.not_mem_nil,
    by simp, id⟩

theorem tryScheduleEncoderInputsLoop_choice (n : ℤ) {positions : List PlaceholderRange}
    (hpositions : positions = r.mmPositions.drop i) (encoderBudget : ℤ) :
    EncoderChoice e q r i encoderBudget
      (tryScheduleEncoderInputsLoop cfg e q r c n positions i encoderBudget) := by
  induction positions generalizing i encoderBudget with
  | nil => exact .stop e q r i n encoderBudget
  | cons position positions ih =>
      have hdrop : positions = r.mmPositions.drop (i + 1) := by
        rw [← List.tail_drop, ← hpositions, List.tail_cons]
      have htokens : r.getNumEncoderTokens i = position.length := by
        have hget : r.mmPositions[i]? = some position := by
          rw [← List.head?_drop, ← hpositions, List.head?_cons]
        rw [Request.getNumEncoderTokens, hget]
        rfl
      simp only [tryScheduleEncoderInputsLoop]
      split_ifs with hbehind hskip hchunked hfull hbefore
      · exact .stop e q r i n encoderBudget
      · obtain ⟨hnodup, hstart, hnew, hbudget, hnonneg⟩ := ih hdrop encoderBudget
        exact ⟨hnodup, fun j hj => Nat.le_of_succ_le (hstart j hj), hnew, hbudget, hnonneg⟩
      · exact .stop e q r i _ encoderBudget
      · exact .stop e q r i _ encoderBudget
      · exact .stop e q r i _ encoderBudget
      · obtain ⟨hnodup, hstart, hnew, hbudget, hnonneg⟩ := ih hdrop (encoderBudget - position.length)
        rw [not_or, not_lt] at hfull
        rw [not_or, hasCache, decide_eq_true_iff] at hskip
        refine ⟨List.nodup_cons.mpr ⟨fun hi => absurd (hstart i hi) (Nat.not_succ_le_self i),
          hnodup⟩, fun j hj => ?_, fun j hj => ?_, ?_, fun _ => hnonneg (by omega)⟩
        · rcases List.mem_cons.mp hj with rfl | hj
          · exact le_rfl
          · exact Nat.le_of_succ_le (hstart j hj)
        · rcases List.mem_cons.mp hj with rfl | hj
          · exact hskip.2
          · exact hnew j hj
        · rw [Request.encoderTokens_cons, hbudget, htokens]
          ring

/-- Every placeholder that the tokens reach is chosen or cached. -/
theorem tryScheduleEncoderInputsLoop_covers {n : ℤ} {positions : List PlaceholderRange}
    (hordered : positions.Pairwise fun position position' =>
      position.offset + position.length ≤ position'.offset) (encoderBudget : ℤ)
    (hpos : 0 < (tryScheduleEncoderInputsLoop cfg e q r c n positions i encoderBudget).2.1)
    {j : ℕ} {position : PlaceholderRange} (hj : positions[j]? = some position)
    (hreached : (position.offset : ℤ) <
      c + (tryScheduleEncoderInputsLoop cfg e q r c n positions i encoderBudget).2.1)
    (hahead : c < position.offset + position.length) :
    i + j ∈ (tryScheduleEncoderInputsLoop cfg e q r c n positions i encoderBudget).1 ∨
      i + j ∈ e.cached q := by
  induction positions generalizing i j encoderBudget with
  | nil => simp at hj
  | cons first positions ih =>
      obtain ⟨hfirst, hordered⟩ := List.pairwise_cons.mp hordered
      -- the placeholders from the first one on
      have hlater : first.offset ≤ position.offset := by
        cases j with
        | zero =>
            obtain rfl := Option.some.inj hj
            exact le_rfl
        | succ j =>
            have hmem : position ∈ positions := List.mem_of_getElem? hj
            exact (Nat.le_add_right _ _).trans (hfirst position hmem)
      simp only [tryScheduleEncoderInputsLoop] at hpos hreached ⊢
      split_ifs at hpos hreached ⊢ with hbehind hskip hchunked hfull hbefore
      · simp only at hreached
        omega
      · cases j with
        | zero =>
            obtain rfl := Option.some.inj hj
            rcases hskip with hpast | hcached
            · omega
            · exact .inr (of_decide_eq_true hcached)
        | succ j =>
            have hrest := ih hordered encoderBudget hpos hj hreached
            rwa [Nat.add_right_comm, Nat.add_assoc] at hrest
      · simp only at hreached
        omega
      · simp only at hreached
        omega
      · exact absurd hpos (lt_irrefl 0)
      · cases j with
        | zero => exact .inl List.mem_cons_self
        | succ j =>
            have hrest := ih hordered (encoderBudget - first.length) hpos hj hreached
            rw [Nat.add_right_comm, Nat.add_assoc] at hrest
            exact hrest.imp_left fun hmem => List.mem_cons_of_mem i hmem

end Scheduling

end Spexis.V1
