import Mathlib.Data.List.Infix
import Spexis.Library.Lists
import Spexis.Library.Occurrences
import Spexis.Model.Detokenizer

/-! # Streaming with stop strings

A stop string is found as soon as the text contains one, and the text that is held back is enough
for nothing to be taken back. -/

namespace Spexis

open Python

variable {χ : Type}

/-! ## The search for stop strings -/

/-- Does the text contain a stop string? -/
def Occurs (stop : List (List χ)) (text : List χ) : Prop :=
  ∃ s ∈ stop, s <:+: text

/-- The text after the truncation `check_stop_strings` asks for. -/
def truncated (text : List χ) (truncateTo : ℤ) : List χ :=
  if truncateTo ≠ -1 then pySliceInt text 0 truncateTo else text

theorem pySliceInt_zero (text : List χ) (k : ℕ) : pySliceInt text 0 (k : ℤ) = text.take k := by
  have hneg : ¬ (k : ℤ) < 0 := by omega
  simp [pySliceInt, pySliceStart, pySlice, hneg]

theorem pySliceInt_neg (text : List χ) {k : ℕ} (hk : k ≠ 0) :
    pySliceInt text 0 (-(k : ℤ)) = text.take (text.length - k) := by
  have hstop : ((text.length : ℤ) + -(k : ℤ)).toNat = text.length - k := by omega
  have hpos : 0 < k := by omega
  simp [pySliceInt, pySliceStart, pySlice, hstop, hpos]

theorem truncated_nat (text : List χ) (k : ℕ) : truncated text (k : ℤ) = text.take k := by
  rw [truncated, if_pos (by omega), pySliceInt_zero]

section CheckStopStrings

variable [DecidableEq χ] {old new : List χ} {stop : List (List χ)} {includeInOutput : Bool} {stopStr : List χ}
  {truncateTo : ℤ}

theorem checkStopStrings_go_isSome (hnew : new ≠ []) (hstop : ∀ s ∈ stop, s ≠ [])
    (hold : ¬ Occurs stop old) :
    (checkStopStrings.go (old ++ new) new.length includeInOutput stop).isSome ↔
      Occurs stop (old ++ new) := by
  induction stop with
  | nil => simp [checkStopStrings.go, Occurs]
  | cons s stop ih =>
      have hrest : ¬ Occurs stop old := fun ⟨s', hs', hin⟩ =>
        hold ⟨s', List.mem_cons_of_mem s hs', hin⟩
      have hfirst := pyFind_window_isSome (hstop s List.mem_cons_self) hnew
        (fun hin => hold ⟨s, List.mem_cons_self, hin⟩)
      have hsplit : Occurs (s :: stop) (old ++ new) ↔
          s <:+: old ++ new ∨ Occurs stop (old ++ new) := by
        simp [Occurs]
      rw [hsplit, ← hfirst, ← ih (fun s' hs' => hstop s' (List.mem_cons_of_mem s hs')) hrest]
      cases hfind : pyFind (old ++ new) s (1 - new.length - s.length) with
      | none => simp [checkStopStrings.go, hfind]
      | some i =>
          simp only [checkStopStrings.go, hfind, Option.isSome_some, true_or, iff_true]
          split_ifs <;> rfl

/-- An update reports a stop string exactly when the text has come to contain one. -/
theorem checkStopStrings_isSome (includeInOutput : Bool) (hstop : ∀ s ∈ stop, s ≠ [])
    (hold : ¬ Occurs stop old) :
    (checkStopStrings (old ++ new) new.length stop includeInOutput).isSome ↔
      Occurs stop (old ++ new) := by
  unfold checkStopStrings
  split_ifs with hnew
  · rw [List.length_eq_zero_iff.mp hnew, List.append_nil]
    simpa using hold
  · exact checkStopStrings_go_isSome (fun h => hnew (List.length_eq_zero_iff.mpr h)) hstop hold

/-- What is cut off starts with the stop string at the earliest, and that ends in the new text. -/
theorem truncated_of_checkStopStrings (hstop : ∀ s ∈ stop, s ≠ [])
    (h : checkStopStrings (old ++ new) new.length stop includeInOutput =
      some (stopStr, truncateTo)) :
    stopStr ∈ stop ∧ ∃ k, truncated (old ++ new) truncateTo = (old ++ new).take k ∧
      old.length < k + (if includeInOutput then 0 else stopStr.length) := by
  unfold checkStopStrings at h
  split_ifs at h with hnew
  have hnew' : new ≠ [] := fun h => hnew (List.length_eq_zero_iff.mpr h)
  clear hnew
  induction stop with
  | nil => exact nomatch h
  | cons s stop ih =>
      rw [checkStopStrings.go] at h
      split at h
      · obtain ⟨hmem, hk⟩ := ih (fun s' hs' => hstop s' (List.mem_cons_of_mem s hs')) h
        exact ⟨List.mem_cons_of_mem s hmem, hk⟩
      next i hfind =>
        obtain ⟨hlate, hin⟩ := lt_of_pyFind_window (hstop s List.mem_cons_self) hnew' hfind
        split_ifs at h with hinclude hend
        · obtain ⟨rfl, rfl⟩ := Prod.mk.inj (Option.some.inj h)
          refine ⟨List.mem_cons_self, (old ++ new).length, ?_, ?_⟩
          · rw [truncated, if_neg (by simp), List.take_length]
          · rw [if_pos hinclude]
            omega
        · obtain ⟨rfl, rfl⟩ := Prod.mk.inj (Option.some.inj h)
          refine ⟨List.mem_cons_self, i + s.length, ?_, ?_⟩
          · rw [← Nat.cast_add, truncated_nat]
          · rw [if_pos hinclude]
            omega
        · obtain ⟨rfl, rfl⟩ := Prod.mk.inj (Option.some.inj h)
          refine ⟨List.mem_cons_self, i, truncated_nat _ _, ?_⟩
          rw [if_neg hinclude]
          exact hlate

end CheckStopStrings

namespace IncrementalDetokenizer

variable {tokenizer : Tokenizer χ} {d d' : IncrementalDetokenizer χ} {ids newIds : List ℕ}

/-! ## Decoding -/

/-- The text of the detokenizer and what it has emitted do not matter to the decoding. -/
def withText (d : IncrementalDetokenizer χ) (text : List χ) (lastOffset : ℤ) :
    IncrementalDetokenizer χ :=
  { d with outputText := text, lastOutputTextOffset := lastOffset }

@[simp] theorem withText_outputText (text : List χ) (o : ℤ) :
    (d.withText text o).outputText = text := rfl
@[simp] theorem withText_lastOutputTextOffset (text : List χ) (o : ℤ) :
    (d.withText text o).lastOutputTextOffset = o := rfl
@[simp] theorem withText_withText (text text' : List χ) (o o' : ℤ) :
    (d.withText text o).withText text' o' = d.withText text' o' := rfl

theorem decode_withText (ids : List ℕ) (d : IncrementalDetokenizer χ) (text : List χ) (o : ℤ) :
    decode tokenizer ids (d.withText text o) =
      ((decode tokenizer ids d).1, (decode tokenizer ids d).2.withText text o) := by
  induction ids generalizing d with
  | nil => rfl
  | cons id ids ih =>
      have hone : (d.withText text o).decodeToken tokenizer id =
          ((d.decodeToken tokenizer id).1, (d.decodeToken tokenizer id).2.withText text o) := rfl
      simp only [decode, hone, ih]

theorem decode_append (ids newIds : List ℕ) (d : IncrementalDetokenizer χ) :
    decode tokenizer (ids ++ newIds) d =
      ((decode tokenizer ids d).1 ++ (decode tokenizer newIds (decode tokenizer ids d).2).1,
        (decode tokenizer newIds (decode tokenizer ids d).2).2) := by
  induction ids generalizing d with
  | nil => rfl
  | cons id ids ih => simp only [List.cons_append, decode, ih, List.append_assoc]

theorem decode_outputText_isPrefix (tokenizer : Tokenizer χ) (ids newIds : List ℕ)
    (d : IncrementalDetokenizer χ) :
    (decode tokenizer ids d).1 <+: (decode tokenizer (ids ++ newIds) d).1 := by
  rw [decode_append]
  exact List.prefix_append _ _

/-- The fields that stay as `from_new_request` sets them. -/
structure SameParams (d d' : IncrementalDetokenizer χ) : Prop where
  stop : d'.stop = d.stop
  includeStopStrInOutput : d'.includeStopStrInOutput = d.includeStopStrInOutput
  stopBufferLength : d'.stopBufferLength = d.stopBufferLength
  tokenizer : d'.tokenizer = d.tokenizer

theorem decode_sameParams (tokenizer : Tokenizer χ) (ids : List ℕ)
    (d : IncrementalDetokenizer χ) : SameParams d (decode tokenizer ids d).2 := by
  induction ids generalizing d with
  | nil => exact ⟨rfl, rfl, rfl, rfl⟩
  | cons id ids ih =>
      obtain ⟨hstop, hinclude, hbuffer, htokenizer⟩ := ih (d.decodeToken tokenizer id).2
      exact ⟨hstop, hinclude, hbuffer, htokenizer⟩

/-! ## The stream of texts -/

/-- The arguments of one `update`. -/
structure Call where
  newTokenIds : List ℕ
  stopTerminated : Bool

/-- The state of a request that has decoded some tokens and has not stopped. -/
structure Streaming (d₀ : IncrementalDetokenizer χ) (tokenizer : Tokenizer χ) (ids : List ℕ)
    (lastOffset : ℤ) (d : IncrementalDetokenizer χ) : Prop where
  decoder : d₀.tokenizer = some tokenizer
  state : d = (decode tokenizer ids d₀).2.withText (decode tokenizer ids d₀).1 lastOffset
  unstopped : ¬ Occurs d₀.stop (decode tokenizer ids d₀).1

variable {d₀ : IncrementalDetokenizer χ} {lastOffset : ℤ} {c : Call}

theorem Streaming.sameParams (h : Streaming d₀ tokenizer ids lastOffset d) : SameParams d₀ d := by
  obtain ⟨hstop, hinclude, hbuffer, htokenizer⟩ := decode_sameParams tokenizer ids d₀
  rw [h.state]
  exact ⟨hstop, hinclude, hbuffer, htokenizer⟩

/-! ## What a call emits -/

/-- What may be emitted of a text whose end is held back. -/
def released (text : List χ) (buffer : ℕ) : List χ :=
  text.take (text.length - buffer)

theorem released_length (text : List χ) (buffer : ℕ) :
    (released text buffer).length = text.length - buffer := by
  rw [released, List.length_take, Nat.min_eq_left (Nat.sub_le _ _)]

theorem released_mono {text text' : List χ} (h : text <+: text') (buffer : ℕ) :
    released text buffer <+: released text' buffer := by
  have hle := h.length_le
  obtain ⟨rest, rfl⟩ := h
  have hkept : (text ++ rest).take (text.length - buffer) = text.take (text.length - buffer) :=
    List.take_append_of_le_length (Nat.sub_le _ _)
  rw [released, released, ← hkept]
  exact List.take_prefix_take_left (by omega)

theorem released_zero (text : List χ) : released text 0 = text := by
  rw [released, Nat.sub_zero, List.take_length]

theorem getNextOutputText_held {buffer : ℕ} (hbuffer : d.stopBufferLength = buffer) :
    d.getNextOutputText false false = (released d.outputText buffer, d) := by
  unfold getNextOutputText released
  by_cases hzero : buffer = 0
  · subst hzero
    simp [hbuffer]
  · have hzero' : (buffer : ℤ) ≠ 0 := by omega
    simp only [hbuffer, Bool.false_eq_true, not_false_eq_true, ite_true, ite_false, hzero', ne_eq,
      pySliceInt_neg _ hzero]

theorem getNextOutputText_finished : d.getNextOutputText true false = (d.outputText, d) := by
  simp [getNextOutputText]

theorem pySliceInt_nat (text : List χ) (start stop : ℕ) (hstop : stop ≤ text.length)
    (hle : start ≤ stop) : pySliceInt text start stop = (text.take stop).drop start := by
  have hstart : ¬ (start : ℤ) < 0 := by omega
  have hstop' : ¬ (stop : ℤ) < 0 := by omega
  rw [pySliceInt, pySliceStart, pySliceStart, if_neg hstart, if_neg hstop', pySlice,
    Int.toNat_natCast, Int.toNat_natCast, Nat.min_eq_left hstop, Nat.min_eq_left (hle.trans hstop)]

/-- The delta mode emits what has been released since the last call. -/
theorem getNextOutputText_delta (finished : Bool) {buffer offset : ℕ}
    (hbuffer : (if finished then 0 else d.stopBufferLength) = buffer)
    (hlast : d.lastOutputTextOffset = offset) (hle : offset ≤ d.outputText.length - buffer) :
    d.getNextOutputText finished true = ((released d.outputText buffer).drop offset,
      d.withText d.outputText (d.outputText.length - buffer : ℕ)) := by
  unfold getNextOutputText released
  simp only [hbuffer, hlast, not_true_eq_false, ite_false]
  by_cases hnew : (offset : ℤ) < d.outputText.length - buffer
  · have hlength : (d.outputText.length : ℤ) - buffer = (d.outputText.length - buffer : ℕ) := by
      omega
    rw [if_pos hnew, hlength, pySliceInt_nat _ _ _ (Nat.sub_le _ _) hle]
    rfl
  · have hsame : offset = d.outputText.length - buffer := by omega
    rw [if_neg hnew, ← hsame, List.drop_eq_nil_of_le (by rw [List.length_take]; omega), withText,
      ← hlast]

/-- What the delta stream and the cumulative stream return, with what had been released before. -/
structure StreamSpec (before : List χ) (outs outs' : List (Option (List χ) × List χ)) : Prop where
  reports : outs.map Prod.fst = outs'.map Prod.fst
  total : (outs'.map Prod.snd).getLast? = some (before ++ (outs.map Prod.snd).flatten)
  prefixes : ∀ text ∈ outs'.map Prod.snd, text <+: before ++ (outs.map Prod.snd).flatten

/-- More calls after one that releases a longer text. -/
theorem StreamSpec.cons {before released : List χ} (report : Option (List χ))
    {outs outs' : List (Option (List χ) × List χ)} (h : StreamSpec released outs outs')
    (hpre : before <+: released) :
    StreamSpec before ((report, released.drop before.length) :: outs)
      ((report, released) :: outs') := by
  have hjoin : before ++ ((((report, released.drop before.length) :: outs).map Prod.snd).flatten) =
      released ++ (outs.map Prod.snd).flatten := by
    rw [List.map_cons, List.flatten_cons, ← List.append_assoc,
      ← List.prefix_append_drop hpre]
  refine ⟨?_, ?_, ?_⟩
  · rw [List.map_cons, List.map_cons, h.reports]
  · rw [hjoin, ← h.total, List.map_cons]
    have hsome : (outs'.map Prod.snd).getLast?.isSome := by rw [h.total]; rfl
    rw [List.getLast?_cons]
    obtain ⟨last, hlast⟩ := Option.isSome_iff_exists.mp hsome
    rw [hlast]
    rfl
  · rw [hjoin]
    intro text htext
    rcases List.mem_cons.mp htext with rfl | htext
    · exact List.prefix_append _ _
    · exact h.prefixes text htext

section Stream

variable [DecidableEq χ]

/-- An update and the text that is returned after it: the stop string and the text. -/
def call (finished delta : Bool) (c : Call) (d : IncrementalDetokenizer χ) :
    (Option (List χ) × List χ) × IncrementalDetokenizer χ :=
  let (stopString, d) := d.update c.newTokenIds c.stopTerminated
  let (text, d) := d.getNextOutputText finished delta
  ((stopString, text), d)

/-- The calls for a request, which is finished with the last one. -/
def stream (delta : Bool) : List Call → IncrementalDetokenizer χ →
    List (Option (List χ) × List χ)
  | [], _ => []
  | c :: calls, d =>
    let (out, d) := d.call calls.isEmpty delta c
    out :: stream delta calls d

/-- An update that is not stop-terminated, by way of the search. -/
theorem Streaming.update_eq (h : Streaming d₀ tokenizer ids lastOffset d) (hids : newIds ≠ []) :
    ∃ new, (decode tokenizer (ids ++ newIds) d₀).1 = (decode tokenizer ids d₀).1 ++ new ∧
      d.update newIds false =
        match checkStopStrings ((decode tokenizer ids d₀).1 ++ new) new.length d₀.stop
          d₀.includeStopStrInOutput with
        | none => (none, (decode tokenizer (ids ++ newIds) d₀).2.withText
            ((decode tokenizer ids d₀).1 ++ new) lastOffset)
        | some (stopString, truncateTo) => (some stopString,
            (decode tokenizer (ids ++ newIds) d₀).2.withText
              (truncated ((decode tokenizer ids d₀).1 ++ new) truncateTo) lastOffset) := by
  have hparams := h.sameParams
  obtain ⟨hstop, hinclude, -, -⟩ := decode_sameParams tokenizer (ids ++ newIds) d₀
  refine ⟨(decode tokenizer newIds (decode tokenizer ids d₀).2).1, by rw [decode_append], ?_⟩
  rw [update, if_neg hids, hparams.tokenizer, h.decoder]
  simp only [Bool.false_eq_true, false_and, ite_false, Nat.sub_zero, List.take_length]
  rw [h.state, decode_withText]
  rw [decode_append] at hstop hinclude ⊢
  dsimp only at hstop hinclude ⊢
  generalize (decode tokenizer newIds (decode tokenizer ids d₀).2).1 = new
  generalize (decode tokenizer newIds (decode tokenizer ids d₀).2).2 = e at hstop hinclude ⊢
  generalize (decode tokenizer ids d₀).1 = old
  rw [← hstop, ← hinclude]
  have hsame : checkStopStrings ((e.withText old lastOffset).outputText ++ new) new.length
      (e.withText old lastOffset).stop (e.withText old lastOffset).includeStopStrInOutput =
      checkStopStrings (old ++ new) new.length e.stop e.includeStopStrInOutput := rfl
  rw [hsame]
  cases checkStopStrings (old ++ new) new.length e.stop e.includeStopStrInOutput with
  | none => rfl
  | some found =>
      dsimp only
      unfold truncated
      split_ifs <;> rfl

/-- A stop-terminated update reports nothing and adds to the text. -/
theorem Streaming.update_stopTerminated (h : Streaming d₀ tokenizer ids lastOffset d)
    (hids : newIds ≠ []) : (d.update newIds true).1 = none ∧
      (d.update newIds true).2.lastOutputTextOffset = lastOffset ∧
      (d.update newIds true).2.outputText = (decode tokenizer ids d₀).1 ++
        (decode tokenizer (newIds.take (newIds.length -
          if d₀.includeStopStrInOutput then 0 else 1)) (decode tokenizer ids d₀).2).1 := by
  have hskip : (if true = true ∧ ¬ d₀.includeStopStrInOutput = true then 1 else 0) =
      if d₀.includeStopStrInOutput then 0 else 1 := by
    cases d₀.includeStopStrInOutput <;> rfl
  rw [update, if_neg hids, h.sameParams.tokenizer, h.decoder]
  dsimp only
  rw [h.sameParams.includeStopStrInOutput, h.state, decode_withText, if_pos rfl, hskip]
  exact ⟨rfl, rfl, rfl⟩

/-- What has been emitted does not matter to an update. -/
theorem Streaming.update_congr {lastOffset' : ℤ} (h : Streaming d₀ tokenizer ids lastOffset d)
    (h' : Streaming d₀ tokenizer ids lastOffset' d') (hids : newIds ≠ []) (stopTerminated : Bool) :
    (d.update newIds stopTerminated).1 = (d'.update newIds stopTerminated).1 ∧
      (d.update newIds stopTerminated).2.outputText =
        (d'.update newIds stopTerminated).2.outputText := by
  cases stopTerminated with
  | true =>
      obtain ⟨hnone, -, htext⟩ := h.update_stopTerminated hids
      obtain ⟨hnone', -, htext'⟩ := h'.update_stopTerminated hids
      exact ⟨hnone.trans hnone'.symm, htext.trans htext'.symm⟩
  | false =>
      obtain ⟨new, htext, hupdate⟩ := h.update_eq hids
      obtain ⟨new', htext', hupdate'⟩ := h'.update_eq hids
      obtain rfl := List.append_cancel_left (htext.symm.trans htext')
      rw [hupdate, hupdate']
      split <;> exact ⟨rfl, rfl⟩

theorem Streaming.update_lastOffset (h : Streaming d₀ tokenizer ids lastOffset d)
    (hids : newIds ≠ []) (stopTerminated : Bool) :
    (d.update newIds stopTerminated).2.lastOutputTextOffset = lastOffset := by
  cases stopTerminated with
  | true => exact (h.update_stopTerminated hids).2.1
  | false =>
      obtain ⟨new, -, hupdate⟩ := h.update_eq hids
      rw [hupdate]
      split <;> rfl

theorem Streaming.report_isSome (h : Streaming d₀ tokenizer ids lastOffset d) (hids : newIds ≠ [])
    (hstops : ∀ s ∈ d₀.stop, s ≠ []) : (d.update newIds false).1.isSome ↔
      Occurs d₀.stop (decode tokenizer (ids ++ newIds) d₀).1 := by
  obtain ⟨new, htext, hupdate⟩ := h.update_eq hids
  rw [htext, ← checkStopStrings_isSome d₀.includeStopStrInOutput hstops h.unstopped,
    hupdate]
  split
  next hnone => simp [hnone]
  next hfound => simp [hfound]

/-- A request that has not stopped goes on. -/
theorem Streaming.goesOn (h : Streaming d₀ tokenizer ids lastOffset d) (hids : newIds ≠ [])
    (hstops : ∀ s ∈ d₀.stop, s ≠ []) (hnone : (d.update newIds false).1 = none) :
    Streaming d₀ tokenizer (ids ++ newIds) lastOffset (d.update newIds false).2 := by
  have hunstopped : ¬ Occurs d₀.stop (decode tokenizer (ids ++ newIds) d₀).1 := by
    rw [← h.report_isSome hids hstops, hnone]
    simp
  refine ⟨h.decoder, ?_, hunstopped⟩
  obtain ⟨new, htext, hupdate⟩ := h.update_eq hids
  rw [hupdate] at hnone ⊢
  split at hnone
  · rw [htext]
  · cases hnone

/-- What had been released before the last update is never taken back. -/
theorem Streaming.released_isPrefix {buffer : ℕ} (h : Streaming d₀ tokenizer ids lastOffset d)
    (hids : newIds ≠ []) (hstops : ∀ s ∈ d₀.stop, s ≠ [])
    (hbuffer : d₀.includeStopStrInOutput = false → ∀ s ∈ d₀.stop, s.length ≤ buffer + 1)
    (stopTerminated : Bool) :
    released (decode tokenizer ids d₀).1 buffer <+:
      (d.update newIds stopTerminated).2.outputText := by
  have hreleased : released (decode tokenizer ids d₀).1 buffer <+: (decode tokenizer ids d₀).1 :=
    List.take_prefix _ _
  cases stopTerminated with
  | true =>
      rw [(h.update_stopTerminated hids).2.2]
      exact hreleased.trans (List.prefix_append _ _)
  | false =>
      obtain ⟨new, htext, hupdate⟩ := h.update_eq hids
      rw [hupdate]
      split
      · exact hreleased.trans (List.prefix_append _ _)
      next stopStr truncateTo hfound =>
        obtain ⟨hmem, k, htruncated, hlate⟩ := truncated_of_checkStopStrings hstops hfound
        have hle : (decode tokenizer ids d₀).1.length - buffer ≤ k := by
          cases hinclude : d₀.includeStopStrInOutput with
          | true =>
              rw [hinclude, if_pos rfl] at hlate
              omega
          | false =>
              have hlength := hbuffer hinclude stopStr hmem
              rw [hinclude, if_neg (by simp)] at hlate
              omega
        have hkept : ((decode tokenizer ids d₀).1 ++ new).take
            ((decode tokenizer ids d₀).1.length - buffer) =
              (decode tokenizer ids d₀).1.take ((decode tokenizer ids d₀).1.length - buffer) :=
          List.take_append_of_le_length (Nat.sub_le _ _)
        rw [withText_outputText, htruncated, released, ← hkept]
        exact List.take_prefix_take_left hle

/-! ## A whole stream -/

/-- The parameters that `from_new_request` sets up for the stop strings. -/
structure Buffered (d₀ : IncrementalDetokenizer χ) (buffer : ℕ) : Prop where
  nonempty : ∀ s ∈ d₀.stop, s ≠ []
  stopBufferLength : d₀.stopBufferLength = buffer
  covers : d₀.includeStopStrInOutput = false → ∀ s ∈ d₀.stop, s.length ≤ buffer + 1

theorem Streaming.stream_last {buffer : ℕ} (hbuffered : Buffered d₀ buffer)
    (h : Streaming d₀ tokenizer ids ((decode tokenizer ids d₀).1.length - buffer : ℕ) d)
    (h' : Streaming d₀ tokenizer ids 0 d') (hids : c.newTokenIds ≠ []) :
    StreamSpec (released (decode tokenizer ids d₀).1 buffer) (stream true [c] d)
      (stream false [c] d') := by
  obtain ⟨hreport, htext⟩ := h.update_congr h' hids c.stopTerminated
  have hpre := h.released_isPrefix hids hbuffered.nonempty hbuffered.covers c.stopTerminated
  have hlast := h.update_lastOffset hids c.stopTerminated
  have hle := hpre.length_le
  rw [released_length] at hle
  have hdelta := getNextOutputText_delta true (Int.natCast_zero).symm hlast
    (by rw [Nat.sub_zero]; exact hle)
  have hjoin := (List.prefix_append_drop hpre).symm
  rw [released_length] at hjoin
  have hout : stream true [c] d = [((d.update c.newTokenIds c.stopTerminated).1,
      (d.update c.newTokenIds c.stopTerminated).2.outputText.drop
        ((decode tokenizer ids d₀).1.length - buffer))] := by
    simp only [stream, call, List.isEmpty_nil, hdelta, released_zero]
  have hout' : stream false [c] d' = [((d'.update c.newTokenIds c.stopTerminated).1,
      (d'.update c.newTokenIds c.stopTerminated).2.outputText)] := by
    simp only [stream, call, List.isEmpty_nil, getNextOutputText_finished]
  rw [hout, hout', ← hreport, ← htext]
  refine ⟨rfl, ?_, ?_⟩
  · simp [hjoin]
  · simp [hjoin]

/-- The first call leaves a request that goes on, and the rest continues it. -/
theorem Streaming.stream_cons {buffer : ℕ} {calls : List Call} (hbuffered : Buffered d₀ buffer)
    (h : Streaming d₀ tokenizer ids ((decode tokenizer ids d₀).1.length - buffer : ℕ) d)
    (h' : Streaming d₀ tokenizer ids 0 d') (hids : c.newTokenIds ≠ [])
    (hgo : c.stopTerminated = false) (hcalls : calls ≠ [])
    (hnone : (d'.update c.newTokenIds false).1 = none) :
    ∃ e e', Streaming d₀ tokenizer (ids ++ c.newTokenIds)
        ((decode tokenizer (ids ++ c.newTokenIds) d₀).1.length - buffer : ℕ) e ∧
      Streaming d₀ tokenizer (ids ++ c.newTokenIds) 0 e' ∧
      stream true (c :: calls) d = (none,
        (released (decode tokenizer (ids ++ c.newTokenIds) d₀).1 buffer).drop
          ((decode tokenizer ids d₀).1.length - buffer)) :: stream true calls e ∧
      stream false (c :: calls) d' = (none,
        released (decode tokenizer (ids ++ c.newTokenIds) d₀).1 buffer) :: stream false calls e' := by
  have hnone' : (d.update c.newTokenIds false).1 = none :=
    (h.update_congr h' hids false).1.trans hnone
  have hnext := h.goesOn hids hbuffered.nonempty hnone'
  have hnext' := h'.goesOn hids hbuffered.nonempty hnone
  have hempty : calls.isEmpty = false := by simpa using hcalls
  have hlonger := (decode_outputText_isPrefix tokenizer ids c.newTokenIds d₀).length_le
  have htext : (d.update c.newTokenIds false).2.outputText =
      (decode tokenizer (ids ++ c.newTokenIds) d₀).1 := by
    rw [hnext.state, withText_outputText]
  have htext' : (d'.update c.newTokenIds false).2.outputText =
      (decode tokenizer (ids ++ c.newTokenIds) d₀).1 := by
    rw [hnext'.state, withText_outputText]
  have hbuffer := hnext.sameParams.stopBufferLength.trans hbuffered.stopBufferLength
  have hbuffer' := hnext'.sameParams.stopBufferLength.trans hbuffered.stopBufferLength
  have hdelta := getNextOutputText_delta false hbuffer (h.update_lastOffset hids false)
    (by rw [htext]; omega)
  have hheld := getNextOutputText_held hbuffer'
  rw [htext] at hdelta
  rw [htext'] at hheld
  refine ⟨(d.update c.newTokenIds false).2.withText (decode tokenizer (ids ++ c.newTokenIds) d₀).1
      ((decode tokenizer (ids ++ c.newTokenIds) d₀).1.length - buffer : ℕ), _,
    ⟨h.decoder, ?_, hnext.unstopped⟩, hnext', ?_, ?_⟩
  · rw [hnext.state]
    rfl
  · simp only [stream, call, hempty, hgo, hdelta, hnone']
  · simp only [stream, call, hempty, hgo, hheld, hnone]

theorem stream_eq_nil {delta : Bool} {calls : List Call} {d : IncrementalDetokenizer χ} :
    stream delta calls d = [] ↔ calls = [] := by
  cases calls <;> simp [stream]

theorem stream_cumulative (c : Call) (calls : List Call) (d : IncrementalDetokenizer χ) :
    stream false (c :: calls) d = (d.call calls.isEmpty false c).1 ::
      stream false calls (d.update c.newTokenIds c.stopTerminated).2 := rfl

/-- A call that is not stop-terminated reports a stop string exactly when the text accumulated so
far contains one. -/
def Detects (d₀ : IncrementalDetokenizer χ) (tokenizer : Tokenizer χ) (ids : List ℕ)
    (calls : List Call) (outs : List (Option (List χ) × List χ)) : Prop :=
  ∀ (k : ℕ) (c : Call), calls[k]? = some c → c.stopTerminated = false →
    ∃ out, outs[k]? = some out ∧ (out.1.isSome ↔ Occurs d₀.stop
      (decode tokenizer (ids ++ (calls.take (k + 1)).flatMap Call.newTokenIds) d₀).1)

/-- The reports of a stream, one for each call. -/
theorem Streaming.reports {calls : List Call} (h : Streaming d₀ tokenizer ids lastOffset d)
    (hstops : ∀ s ∈ d₀.stop, s ≠ []) (hids : ∀ c ∈ calls, c.newTokenIds ≠ [])
    (hgo : ∀ c ∈ calls.dropLast, c.stopTerminated = false)
    (hnone : ∀ out ∈ (stream false calls d).dropLast, out.1 = none) :
    Detects d₀ tokenizer ids calls (stream false calls d) := by
  induction calls generalizing ids d with
  | nil => exact fun k c hc => nomatch hc
  | cons c calls ih =>
      have hfirst : c.newTokenIds ≠ [] := hids c List.mem_cons_self
      intro k
      cases k with
      | zero =>
          intro c' hc' hgo'
          obtain rfl : c = c' := Option.some.inj hc'
          refine ⟨(d.call calls.isEmpty false c).1, rfl, ?_⟩
          have hreport := h.report_isSome hfirst hstops
          rw [← hgo'] at hreport
          have htake : (([] : List Call).flatMap Call.newTokenIds) = [] := rfl
          rw [List.take_succ_cons, List.take_zero, List.flatMap_cons, htake, List.append_nil]
          exact hreport
      | succ k =>
          intro c' hc' hgo'
          have hlast : calls ≠ [] := by
            rintro rfl
            exact nomatch hc'
          have hrest : stream false calls (d.update c.newTokenIds c.stopTerminated).2 ≠ [] :=
            fun hnil => hlast (stream_eq_nil.mp hnil)
          rw [stream_cumulative, List.dropLast_cons_of_ne_nil hrest] at hnone
          rw [List.dropLast_cons_of_ne_nil hlast] at hgo
          have hterminated := hgo c List.mem_cons_self
          have hnone' : (d.update c.newTokenIds c.stopTerminated).1 = none :=
            hnone _ List.mem_cons_self
          rw [hterminated] at hnone hnone' hrest
          have hnext := h.goesOn hfirst hstops hnone'
          obtain ⟨out, hout, hreport⟩ := ih hnext
            (fun c' hc' => hids c' (List.mem_cons_of_mem c hc'))
            (fun c' hc' => hgo c' (List.mem_cons_of_mem c hc'))
            (fun out hmem => hnone out (List.mem_cons_of_mem _ hmem)) k c' hc' hgo'
          refine ⟨out, ?_, ?_⟩
          · rw [stream_cumulative, hterminated]
            exact hout
          · rw [hreport, List.take_succ_cons, List.flatMap_cons, List.append_assoc]

theorem Streaming.streamSpec {buffer : ℕ} {calls : List Call} (hbuffered : Buffered d₀ buffer)
    (h : Streaming d₀ tokenizer ids ((decode tokenizer ids d₀).1.length - buffer : ℕ) d)
    (h' : Streaming d₀ tokenizer ids 0 d') (hcalls : calls ≠ [])
    (hids : ∀ c ∈ calls, c.newTokenIds ≠ [])
    (hgo : ∀ c ∈ calls.dropLast, c.stopTerminated = false)
    (hnone : ∀ out ∈ (stream false calls d').dropLast, out.1 = none) :
    StreamSpec (released (decode tokenizer ids d₀).1 buffer) (stream true calls d)
      (stream false calls d') := by
  induction calls generalizing ids d d' with
  | nil => exact absurd rfl hcalls
  | cons c calls ih =>
      by_cases hlast : calls = []
      · subst hlast
        exact h.stream_last hbuffered h' (hids c List.mem_cons_self)
      · have hgo' : c.stopTerminated = false := by
          apply hgo
          rw [List.dropLast_cons_of_ne_nil hlast]
          exact List.mem_cons_self
        have hrest : ∀ e : IncrementalDetokenizer χ, stream false calls e ≠ [] := fun e hnil =>
          hlast (stream_eq_nil.mp hnil)
        have hnone' : (d'.update c.newTokenIds false).1 = none := by
          have hfirst := hnone (d'.call calls.isEmpty false c).1 (by
            rw [stream, List.dropLast_cons_of_ne_nil (hrest _)]
            exact List.mem_cons_self)
          rw [← hgo']
          exact hfirst
        obtain ⟨e, e', he, he', hout, hout'⟩ := h.stream_cons hbuffered h'
          (hids c List.mem_cons_self) hgo' hlast hnone'
        rw [hout', List.dropLast_cons_of_ne_nil (hrest e')] at hnone
        rw [List.dropLast_cons_of_ne_nil hlast] at hgo
        have hspec := ih he he' hlast (fun c' hc' => hids c' (List.mem_cons_of_mem c hc'))
          (fun c' hc' => hgo c' (List.mem_cons_of_mem c hc'))
          (fun out hmem => hnone out (List.mem_cons_of_mem _ hmem))
        rw [hout, hout']
        have hpre : released (decode tokenizer ids d₀).1 buffer <+:
            released (decode tokenizer (ids ++ c.newTokenIds) d₀).1 buffer :=
          released_mono (decode_outputText_isPrefix tokenizer ids c.newTokenIds d₀) buffer
        have hcons := StreamSpec.cons none hspec hpre
        rwa [released_length] at hcons

end Stream

/-! ## The streams of a request -/

theorem fromNewRequest_buffered (tokenizer : Tokenizer χ) (promptTokenIds : List ℕ)
    (params : DetokenizerParams χ) (prompt : List (List χ) × ℕ × ℕ)
    (hstops : ∀ s ∈ params.stop, s ≠ []) :
    ∃ buffer, Buffered (fromNewRequest (some tokenizer) promptTokenIds params prompt) buffer := by
  have hlongest : ∀ s ∈ params.stop, s.length ≤ (params.stop.map List.length).foldl max 0 :=
    fun s hs => (List.foldl_max_le_iff.mp le_rfl).2 _ (List.mem_map_of_mem hs)
  by_cases hheld : params.stop ≠ [] ∧ ¬ params.includeStopStrInOutput
  · obtain ⟨s, hs⟩ := List.exists_mem_of_ne_nil _ hheld.1
    have hpos : 0 < s.length := List.length_pos_iff.mpr (hstops s hs)
    refine ⟨(params.stop.map List.length).foldl max 0 - 1, hstops, ?_, fun _ s hs => ?_⟩
    · have hmax := hlongest s hs
      have hlength : (fromNewRequest (some tokenizer) promptTokenIds params prompt).stopBufferLength
          = ((params.stop.map List.length).foldl max 0 : ℕ) - 1 := if_pos hheld
      rw [hlength]
      omega
    · have hmax := hlongest s hs
      omega
  · refine ⟨0, hstops, if_neg hheld, fun hinclude s hs => ?_⟩
    have hincluded : params.includeStopStrInOutput = false := hinclude
    have hnone : params.stop = [] := by
      by_contra hne
      exact hheld ⟨hne, by simp [hincluded]⟩
    have hmem : s ∈ params.stop := hs
    rw [hnone] at hmem
    exact nomatch hmem

theorem fromNewRequest_initial (tokenizer : Tokenizer χ) (promptTokenIds : List ℕ)
    (params : DetokenizerParams χ) (prompt : List (List χ) × ℕ × ℕ)
    (hstops : ∀ s ∈ params.stop, s ≠ []) :
    Streaming (fromNewRequest (some tokenizer) promptTokenIds params prompt) tokenizer [] 0
      (fromNewRequest (some tokenizer) promptTokenIds params prompt) := by
  refine ⟨rfl, rfl, ?_⟩
  rintro ⟨s, hs, hin⟩
  exact hstops s hs (List.infix_nil.mp hin)

/-- A stop is found with the token that completes it, and the pieces that are emitted join to the
text at the end. -/
theorem fromNewRequest_stream [DecidableEq χ] (tokenizer : Tokenizer χ) (promptTokenIds : List ℕ)
    (params : DetokenizerParams χ) (prompt : List (List χ) × ℕ × ℕ)
    (hstops : ∀ s ∈ params.stop, s ≠ []) (d : IncrementalDetokenizer χ)
    (hd : d = fromNewRequest (some tokenizer) promptTokenIds params prompt) (calls : List Call)
    (hcalls : calls ≠ []) (hids : ∀ c ∈ calls, c.newTokenIds ≠ [])
    (hgo : ∀ c ∈ calls.dropLast, c.stopTerminated = false)
    (hnone : ∀ out ∈ (stream false calls d).dropLast, out.1 = none) :
    Detects d tokenizer [] calls (stream false calls d) ∧
      StreamSpec [] (stream true calls d) (stream false calls d) := by
  subst hd
  obtain ⟨buffer, hbuffered⟩ := fromNewRequest_buffered tokenizer promptTokenIds params prompt hstops
  have hinitial := fromNewRequest_initial tokenizer promptTokenIds params prompt hstops
  have hstart : ((decode tokenizer []
      (fromNewRequest (some tokenizer) promptTokenIds params prompt)).1.length - buffer : ℕ) =
        (0 : ℤ) := by
    simp [decode]
  refine ⟨hinitial.reports hstops hids hgo hnone, ?_⟩
  have hdelta := hinitial
  rw [← hstart] at hdelta
  simpa [released, decode] using hdelta.streamSpec hbuffered hinitial hcalls hids hgo hnone

/-- A tokenizer with one piece of text for each of its three tokens. -/
def threePieces : Tokenizer Char := fun allInputIds prevTokens _ readOffset _ _ =>
  let piece := match allInputIds.getLast? with
    | some 0 => ['h', 'e']
    | some 1 => ['l', 'l']
    | _ => ['o', '!']
  { newTokens := [piece]
    newDecodedTokenText := piece
    prefixOffset := readOffset
    readOffset := (prevTokens ++ [piece]).length }

/-- The detokenizer of a request that stops at the end of its greeting. -/
def greeting : IncrementalDetokenizer Char :=
  fromNewRequest (some threePieces) [1] ⟨[['l', 'o']], false, true, true⟩ ([['l', 'l']], 0, 1)

theorem fromNewRequest_stream_greeting :
    Detects greeting threePieces [] [⟨[0, 1], false⟩, ⟨[2], false⟩]
        (stream false [⟨[0, 1], false⟩, ⟨[2], false⟩] greeting) ∧
      StreamSpec [] (stream true [⟨[0, 1], false⟩, ⟨[2], false⟩] greeting)
        (stream false [⟨[0, 1], false⟩, ⟨[2], false⟩] greeting) :=
  fromNewRequest_stream threePieces [1] ⟨[['l', 'o']], false, true, true⟩ ([['l', 'l']], 0, 1)
    (by decide) greeting rfl [⟨[0, 1], false⟩, ⟨[2], false⟩] (by decide) (by decide) (by decide)
    (by decide)

-- one letter is held back, and the stop string is cut off
example : stream true [⟨[0, 1], false⟩, ⟨[2], false⟩] greeting =
    [(none, ['h', 'e', 'l']), (some ['l', 'o'], [])] := by decide

end IncrementalDetokenizer

end Spexis
