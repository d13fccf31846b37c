import Spexis.Model.MessageQueue
import Mathlib.Data.List.Infix

/-! # Delivery through the broadcast queue

An object keeps its chunk until every reader has marked it, whatever the interleaving: the writer
waits for the flags of all readers, clears the written flag before theirs, and a reader looks at its
own flag before the written flag. -/

namespace Spexis

open Python

namespace ShmRingBuffer

variable {maxChunkBytes : ℕ}

@[simp] theorem setMetadata_same (b : ShmRingBuffer maxChunkBytes) (idx byte value : ℕ) :
    (b.setMetadata idx byte value).metadata idx byte = value := by
  simp [setMetadata]

theorem setMetadata_of_ne_idx (b : ShmRingBuffer maxChunkBytes) {idx idx' : ℕ} (byte value : ℕ)
    (h : idx' ≠ idx) : (b.setMetadata idx byte value).metadata idx' = b.metadata idx' := by
  simp [setMetadata, h]

theorem setMetadata_of_ne_byte (b : ShmRingBuffer maxChunkBytes) (idx idx' : ℕ) {byte byte' : ℕ}
    (value : ℕ) (h : byte' ≠ byte) :
    (b.setMetadata idx byte value).metadata idx' byte' = b.metadata idx' byte' := by
  by_cases hidx : idx' = idx
  · subst hidx
    simp [setMetadata, h]
  · rw [setMetadata_of_ne_idx b byte value hidx]

@[simp] theorem setMetadata_data (b : ShmRingBuffer maxChunkBytes) (idx byte value : ℕ) :
    (b.setMetadata idx byte value).data = b.data := rfl

@[simp] theorem setData_metadata (b : ShmRingBuffer maxChunkBytes) (idx : ℕ)
    (data : Buffer maxChunkBytes) : (b.setData idx data).metadata = b.metadata := rfl

@[simp] theorem setData_same (b : ShmRingBuffer maxChunkBytes) (idx : ℕ)
    (data : Buffer maxChunkBytes) : (b.setData idx data).data idx = data := by
  simp [setData]

theorem setData_of_ne (b : ShmRingBuffer maxChunkBytes) {idx idx' : ℕ}
    (data : Buffer maxChunkBytes) (h : idx' ≠ idx) :
    (b.setData idx data).data idx' = b.data idx' := by
  simp [setData, h]

end ShmRingBuffer

/-- Two messages that are less than a ring apart lie in different chunks. -/
theorem eq_of_mod_eq {i j k : ℕ} (h : i % k = j % k) (hle : i ≤ j) (hlt : j < i + k) : i = j := by
  have hsub : (j - i) % k = 0 := Nat.sub_mod_eq_zero_of_mod_eq h.symm
  rw [Nat.mod_eq_of_lt (by omega)] at hsub
  omega

section Pickle

variable {α : Type*} {size : ℕ}

/-- What readers rely on: the bytes after a serialised object do not matter. -/
def Pickle.SelfDelimiting (pickle : Pickle α) : Prop :=
  ∀ obj rest, pickle.loads (pickle.dumps obj ++ rest) = .ok obj

/-- The object does not fit in a chunk. -/
def Pickle.overflows (pickle : Pickle α) (cfg : MessageQueueConfig) (obj : α) : Bool :=
  cfg.maxChunkBytes ≤ (pickle.dumps obj).length

/-- The chunk holds the object, or the mark of one that does not fit. -/
def Pickle.HeldBy (pickle : Pickle α) (buf : Buffer size) (obj : α) : Prop :=
  if size ≤ (pickle.dumps obj).length then buf.slice 0 1 = [1]
  else buf.slice 0 1 = [0] ∧ buf.slice 1 (1 + (pickle.dumps obj).length) = pickle.dumps obj

theorem Buffer.slice_prefix (buf : Buffer size) (start : ℕ) {mid stop : ℕ} (hstop : mid ≤ stop) :
    buf.slice start mid <+: buf.slice start stop :=
  (List.take_prefix_take_left hstop).drop start

variable {pickle : Pickle α} {buf : Buffer size} {obj : α}

theorem Pickle.HeldBy.slice_zero (h : pickle.HeldBy buf obj) :
    buf.slice 0 1 = [1] ↔ size ≤ (pickle.dumps obj).length := by
  unfold Pickle.HeldBy at h
  split_ifs at h with hlong
  · simp [h, hlong]
  · simp [h.1, hlong]

theorem Pickle.HeldBy.loads (h : pickle.HeldBy buf obj) (hpickle : pickle.SelfDelimiting)
    (hfits : (pickle.dumps obj).length < size) : pickle.loads (buf.slice 1 size) = .ok obj := by
  unfold Pickle.HeldBy at h
  rw [if_neg (not_le.mpr hfits)] at h
  have hmid : 1 + (pickle.dumps obj).length ≤ size := by omega
  obtain ⟨rest, hrest⟩ := Buffer.slice_prefix buf 1 hmid
  rw [← hrest, h.2]
  exact hpickle obj rest

end Pickle

/-! ## The invariant -/

/-- Is the reader waiting for a message that it has already marked as read? -/
def DequeuePc.waiting {α : Type*} : DequeuePc α → ℕ
  | .recv => 1
  | _ => 0

theorem DequeuePc.waiting_le {α : Type*} (pc : DequeuePc α) : pc.waiting ≤ 1 := by
  cases pc <;> simp [waiting]

/-- The number of messages that a reader has marked. -/
def LocalReader.consumed {α : Type*} (reader : LocalReader α) : ℕ :=
  reader.returned.length + reader.pc.waiting

/-- Between the two stores of the written flag. -/
def EnqueuePc.owns {α : Type*} : EnqueuePc α → Bool
  | .writeOverflow _ | .writeObject _ | .clearRead _ _ | .setWritten _ => true
  | _ => false

/-- The object that is still to be sent through the socket. -/
def EnqueuePc.sending {α : Type*} : EnqueuePc α → List α
  | .send obj => [obj]
  | _ => []

section Invariants

variable {α : Type*} (pickle : Pickle α) (cfg : MessageQueueConfig)

/-- What a reader knows of the message it is at, which it has taken up `consumed` messages before.
The chunk is `cleared` when the written flag of the writer's next chunk is 0. -/
def DequeuePc.Knows (published : List α) (consumed : ℕ) (cleared : Prop) : DequeuePc α → Prop
  | .idle | .loadRead => True
  | .loadWritten readFlag =>
    readFlag = 0 → consumed < published.length ∨ consumed = published.length ∧ cleared
  | .loadOverflow => consumed < published.length
  | .loadObject => ∃ obj, published[consumed]? = some obj ∧ pickle.overflows cfg obj = false
  | .setRead read => ∃ obj, published[consumed]? = some obj ∧
      read = if pickle.overflows cfg obj then none else some obj
  | .recv => ∃ obj, published[consumed - 1]? = some obj ∧ pickle.overflows cfg obj = true
  | .raised _ => False

/-- A reader follows the writer, less than a ring behind. -/
structure LocalReader.Follows (published enqueued : List α) (cleared : Prop)
    (reader : LocalReader α) : Prop where
  idx : reader.currentIdx = reader.consumed % cfg.maxChunks
  behind : reader.consumed ≤ published.length
  bound : published.length ≤ reader.consumed + cfg.maxChunks
  returned : reader.returned <+: enqueued
  socket : reader.socket =
    ((enqueued.drop reader.returned.length).filter (pickle.overflows cfg)).map pickle.dumps
  pc : reader.pc.Knows pickle cfg published reader.consumed cleared

/-- What the writer knows of its chunk. There is `room` in it for a reader that has marked the
message the chunk holds, if the ring has `wrapped`. -/
def EnqueuePc.Knows (wrapped : Prop) (room : Fin cfg.nLocalReader → Prop)
    (buf : Buffer cfg.maxChunkBytes) (flags : ℕ → ℕ) : EnqueuePc α → Prop
  | .idle => True
  | .countReads _ i readCount => i ≤ cfg.nLocalReader ∧ readCount ≤ i ∧
      (wrapped → readCount = i → ∀ rank : Fin cfg.nLocalReader, rank < i → room rank)
  | .loadWritten _ readCount => wrapped → readCount = cfg.nLocalReader → ∀ rank, room rank
  | .clearWritten _ => ∀ rank, room rank
  | .writeOverflow _ => (∀ rank, room rank) ∧ flags 0 = 0
  | .writeObject obj => (∀ rank, room rank) ∧ flags 0 = 0 ∧ pickle.overflows cfg obj = false ∧
      buf.slice 0 1 = [0]
  | .clearRead obj i => (∀ rank, room rank) ∧ flags 0 = 0 ∧ pickle.HeldBy buf obj ∧
      i ≤ cfg.nLocalReader ∧ ∀ rank : Fin cfg.nLocalReader, rank < i → flags (rank + 1) = 0
  | .setWritten obj => (∀ rank, room rank) ∧ flags 0 = 0 ∧ pickle.HeldBy buf obj ∧
      ∀ rank : Fin cfg.nLocalReader, flags (rank + 1) = 0
  | .send obj => pickle.overflows cfg obj = true

end Invariants

theorem EnqueuePc.Knows.mono {α : Type*} {cfg : MessageQueueConfig} {pickle : Pickle α}
    {wrapped : Prop} {room room' : Fin cfg.nLocalReader → Prop} {buf : Buffer cfg.maxChunkBytes}
    {flags flags' : ℕ → ℕ} {pc : EnqueuePc α}
    (h : pc.Knows pickle cfg wrapped room buf flags) (hroom : ∀ rank, room rank → room' rank)
    (hflags : (∀ rank, room rank) → flags' = flags) :
    pc.Knows pickle cfg wrapped room' buf flags' := by
  cases pc with
  | idle => trivial
  | countReads obj i readCount =>
      obtain ⟨hi, hle, hread⟩ := h
      exact ⟨hi, hle, fun hwrapped hcount rank hrank => hroom rank (hread hwrapped hcount rank hrank)⟩
  | loadWritten obj readCount =>
      exact fun hwrapped hcount rank => hroom rank (h hwrapped hcount rank)
  | clearWritten obj => exact fun rank => hroom rank (h rank)
  | writeOverflow obj =>
      rw [EnqueuePc.Knows, hflags h.1]
      exact ⟨fun rank => hroom rank (h.1 rank), h.2⟩
  | writeObject obj =>
      rw [EnqueuePc.Knows, hflags h.1]
      exact ⟨fun rank => hroom rank (h.1 rank), h.2⟩
  | clearRead obj i =>
      rw [EnqueuePc.Knows, hflags h.1]
      exact ⟨fun rank => hroom rank (h.1 rank), h.2⟩
  | setWritten obj =>
      rw [EnqueuePc.Knows, hflags h.1]
      exact ⟨fun rank => hroom rank (h.1 rank), h.2⟩
  | send obj => exact h

theorem DequeuePc.Knows.grow {α : Type*} {cfg : MessageQueueConfig} {pickle : Pickle α}
    {published : List α} {consumed : ℕ} {cleared cleared' : Prop} {pc : DequeuePc α}
    (h : pc.Knows pickle cfg published consumed cleared) (obj : α) :
    pc.Knows pickle cfg (published ++ [obj]) consumed cleared' := by
  have hlength : (published ++ [obj]).length = published.length + 1 := List.length_append
  have hget : ∀ {i : ℕ} {first : α}, published[i]? = some first →
      (published ++ [obj])[i]? = some first := fun hfirst =>
    List.getElem?_append_left (List.getElem?_eq_some_iff.mp hfirst).1 |>.trans hfirst
  cases pc with
  | idle => trivial
  | loadRead => trivial
  | loadWritten readFlag =>
      refine fun hread => .inl ?_
      rw [hlength]
      rcases h hread with hlt | ⟨heq, -⟩
      · exact Nat.lt_succ_of_lt hlt
      · exact Nat.lt_succ_of_le heq.le
  | loadOverflow =>
      rw [DequeuePc.Knows, hlength]
      exact Nat.lt_succ_of_lt h
  | loadObject =>
      obtain ⟨first, hfirst, hfits⟩ := h
      exact ⟨first, hget hfirst, hfits⟩
  | setRead read =>
      obtain ⟨first, hfirst, hread⟩ := h
      exact ⟨first, hget hfirst, hread⟩
  | recv =>
      obtain ⟨first, hfirst, hlong⟩ := h
      exact ⟨first, hget hfirst, hlong⟩
  | raised e => exact h

namespace MessageQueue

variable {α : Type*} {cfg : MessageQueueConfig} {pickle : Pickle α} {q : MessageQueue α cfg}

/-- The chunks of the messages of the last round that the writer is not replacing, and those that
have not been used yet. -/
structure Ring (pickle : Pickle α) (q : MessageQueue α cfg) : Prop where
  kept : ∀ i obj, q.published[i]? = some obj →
    q.published.length < i + cfg.maxChunks ∨
      q.published.length = i + cfg.maxChunks ∧ q.writer.owns = false →
    q.buffer.metadata (i % cfg.maxChunks) 0 = 1 ∧
      pickle.HeldBy (q.buffer.data (i % cfg.maxChunks)) obj ∧
      ∀ rank : Fin cfg.nLocalReader, q.buffer.metadata (i % cfg.maxChunks) (rank + 1) =
        if i < (q.reader rank).consumed then 1 else 0
  fresh : ∀ i < cfg.maxChunks, q.published.length < i ∨
      q.published.length = i ∧ q.writer.owns = false →
    q.buffer.metadata i 0 = 0 ∧
      ∀ rank : Fin cfg.nLocalReader, q.buffer.metadata i (rank + 1) = 0

/-- The writer's chunk. -/
def slot (q : MessageQueue α cfg) : ℕ :=
  q.published.length % cfg.maxChunks

/-- Has the reader marked the message that the writer's chunk holds? -/
def Room (q : MessageQueue α cfg) (rank : Fin cfg.nLocalReader) : Prop :=
  q.published.length < (q.reader rank).consumed + cfg.maxChunks

structure Coherent (pickle : Pickle α) (q : MessageQueue α cfg) : Prop where
  idx : q.currentIdx = q.slot
  log : q.published = q.enqueued ++ q.writer.sending
  ring : q.Ring pickle
  writer : q.writer.Knows pickle cfg (cfg.maxChunks ≤ q.published.length) q.Room
    (q.buffer.data q.slot) (q.buffer.metadata q.slot)
  reader : ∀ rank, (q.reader rank).Follows pickle cfg q.published q.enqueued
    (q.buffer.metadata q.slot 0 = 0)

theorem init_coherent (data : ℕ → Buffer cfg.maxChunkBytes) :
    (init α cfg data).Coherent pickle where
  idx := (Nat.zero_mod _).symm
  log := rfl
  ring := ⟨fun i obj hobj => by simp [init] at hobj, fun i _ _ => ⟨rfl, fun _ => rfl⟩⟩
  writer := trivial
  reader _ := ⟨(Nat.zero_mod _).symm, le_rfl, Nat.zero_le _, List.nil_prefix, rfl, trivial⟩

/-! ## Readers -/

theorem reader_slot_ne {rank : Fin cfg.nLocalReader}
    (hbehind : (q.reader rank).consumed < q.published.length) (hroom : q.Room rank) :
    (q.reader rank).consumed % cfg.maxChunks ≠ q.slot := fun heq =>
  hbehind.ne (eq_of_mod_eq heq hbehind.le hroom)

/-- A step of a reader that marks nothing. -/
theorem Coherent.setReader (h : q.Coherent pickle) {rank : Fin cfg.nLocalReader}
    {reader : LocalReader α} (hconsumed : reader.consumed = (q.reader rank).consumed)
    (hreader : reader.Follows pickle cfg q.published q.enqueued (q.buffer.metadata q.slot 0 = 0)) :
    Coherent pickle { q with reader := Function.update q.reader rank reader } := by
  have hsame : ∀ rank', (Function.update q.reader rank reader rank').consumed =
      (q.reader rank').consumed := by
    intro rank'
    by_cases hrank : rank' = rank
    · subst hrank
      rw [Function.update_self, hconsumed]
    · rw [Function.update_of_ne hrank]
  refine ⟨h.idx, h.log, ⟨fun i obj hobj hi => ?_, h.ring.fresh⟩, ?_, fun rank' => ?_⟩
  · simp only [hsame]
    exact h.ring.kept i obj hobj hi
  · have hroom : Room { q with reader := Function.update q.reader rank reader } = q.Room := by
      funext rank'
      simp only [Room, hsame]
    rw [hroom]
    exact h.writer
  · by_cases hrank : rank' = rank
    · subst hrank
      simp only [Function.update_self]
      exact hreader
    · simp only [Function.update_of_ne hrank]
      exact h.reader rank'

/-- A reader marks the message that it is at. -/
theorem Coherent.mark (h : q.Coherent pickle) {rank : Fin cfg.nLocalReader} {reader : LocalReader α}
    (hbehind : (q.reader rank).consumed < q.published.length)
    (hconsumed : reader.consumed = (q.reader rank).consumed + 1)
    (hreader : reader.Follows pickle cfg q.published q.enqueued (q.buffer.metadata q.slot 0 = 0)) :
    Coherent pickle { q with
      buffer := q.buffer.setMetadata ((q.reader rank).consumed % cfg.maxChunks) (rank + 1) 1
      reader := Function.update q.reader rank reader } := by
  have hbound := (h.reader rank).bound
  have hbyte : ∀ idx, (q.buffer.setMetadata ((q.reader rank).consumed % cfg.maxChunks) (rank + 1)
      1).metadata idx 0 = q.buffer.metadata idx 0 := fun idx =>
    ShmRingBuffer.setMetadata_of_ne_byte _ _ _ _ (Nat.succ_ne_zero _).symm
  have hgrow : ∀ rank', (q.reader rank').consumed ≤
      (Function.update q.reader rank reader rank').consumed := by
    intro rank'
    by_cases hrank : rank' = rank
    · subst hrank
      rw [Function.update_self, hconsumed]
      exact Nat.le_succ _
    · rw [Function.update_of_ne hrank]
  refine ⟨h.idx, h.log, ⟨fun i obj hobj hi => ?_, fun i hi hfresh => ?_⟩, ?_, fun rank' => ?_⟩
  · obtain ⟨hwritten, hheld, hread⟩ := h.ring.kept i obj hobj hi
    have hlt : i < q.published.length := (List.getElem?_eq_some_iff.mp hobj).1
    have hle : q.published.length ≤ i + cfg.maxChunks := hi.elim le_of_lt fun heq => heq.1.le
    refine ⟨(hbyte _).trans hwritten, hheld, fun rank' => ?_⟩
    have hsame : i % cfg.maxChunks = (q.reader rank).consumed % cfg.maxChunks →
        i = (q.reader rank).consumed := by
      intro hmod
      rcases Nat.le_total i (q.reader rank).consumed with hle | hle
      · exact eq_of_mod_eq hmod hle (by omega)
      · exact (eq_of_mod_eq hmod.symm hle (by omega)).symm
    by_cases hrank : rank' = rank
    · subst hrank
      simp only [Function.update_self, hconsumed]
      by_cases hmod : i % cfg.maxChunks = (q.reader rank').consumed % cfg.maxChunks
      · have hlast : i < (q.reader rank').consumed + 1 := Nat.lt_succ_of_le (hsame hmod).le
        rw [hmod, ShmRingBuffer.setMetadata_same, if_pos hlast]
      · rw [ShmRingBuffer.setMetadata_of_ne_idx _ _ _ hmod, hread rank']
        have hne : i ≠ (q.reader rank').consumed := fun heq => hmod (heq ▸ rfl)
        exact if_congr (by omega) rfl rfl
    · simp only [Function.update_of_ne hrank]
      have hbyte' : (rank' : ℕ) + 1 ≠ rank + 1 := fun heq =>
        hrank (Fin.ext (Nat.succ_injective heq))
      rw [ShmRingBuffer.setMetadata_of_ne_byte _ _ _ _ hbyte']
      exact hread rank'
  · have hne : i ≠ (q.reader rank).consumed % cfg.maxChunks := by
      have hlen : q.published.length ≤ i := hfresh.elim le_of_lt fun heq => heq.1.le
      rw [Nat.mod_eq_of_lt (hbehind.trans_le hlen |>.trans hi)]
      exact (hbehind.trans_le hlen).ne'
    simp only [ShmRingBuffer.setMetadata_of_ne_idx _ _ _ hne]
    exact h.ring.fresh i hi hfresh
  · refine EnqueuePc.Knows.mono h.writer (fun rank' hroom => ?_) fun hroom => ?_
    · exact lt_of_lt_of_le hroom (Nat.add_le_add_right (hgrow rank') _)
    · exact ShmRingBuffer.setMetadata_of_ne_idx _ _ _ (reader_slot_ne hbehind (hroom rank)).symm
  · have hcleared : (q.buffer.setMetadata ((q.reader rank).consumed % cfg.maxChunks) (rank + 1)
        1).metadata q.slot 0 = 0 ↔ q.buffer.metadata q.slot 0 = 0 := by rw [hbyte]
    change LocalReader.Follows pickle cfg q.published q.enqueued
      ((q.buffer.setMetadata ((q.reader rank).consumed % cfg.maxChunks) (rank + 1)
        1).metadata q.slot 0 = 0) (Function.update q.reader rank reader rank')
    rw [hcleared]
    by_cases hrank : rank' = rank
    · subst hrank
      rw [Function.update_self]
      exact hreader
    · rw [Function.update_of_ne hrank]
      exact h.reader rank'

theorem Coherent.room (h : q.Coherent pickle) (howns : q.writer.owns = true)
    (rank : Fin cfg.nLocalReader) : q.Room rank := by
  have hwriter := h.writer
  cases hpc : q.writer <;> rw [hpc] at howns hwriter <;>
    first | exact absurd howns Bool.false_ne_true | exact hwriter.1 rank

theorem Coherent.cleared (h : q.Coherent pickle) (howns : q.writer.owns = true) :
    q.buffer.metadata q.slot 0 = 0 := by
  have hwriter := h.writer
  cases hpc : q.writer <;> rw [hpc] at howns hwriter <;>
    first | exact absurd howns Bool.false_ne_true | exact hwriter.2 | exact hwriter.2.1

/-- The message that a reader is at. -/
theorem Coherent.current (h : q.Coherent pickle) {rank : Fin cfg.nLocalReader}
    (hbehind : (q.reader rank).consumed < q.published.length) :
    ∃ obj, q.published[(q.reader rank).consumed]? = some obj ∧
      q.buffer.metadata ((q.reader rank).consumed % cfg.maxChunks) 0 = 1 ∧
      pickle.HeldBy (q.buffer.data ((q.reader rank).consumed % cfg.maxChunks)) obj ∧
      q.buffer.metadata ((q.reader rank).consumed % cfg.maxChunks) (rank + 1) = 0 := by
  have hobj := List.getElem?_eq_getElem hbehind
  have hwindow : q.published.length < (q.reader rank).consumed + cfg.maxChunks ∨
      q.published.length = (q.reader rank).consumed + cfg.maxChunks ∧ q.writer.owns = false := by
    cases howns : q.writer.owns with
    | true => exact .inl (h.room howns rank)
    | false =>
        rcases (h.reader rank).bound.lt_or_eq with hlt | heq
        · exact .inl hlt
        · exact .inr ⟨heq, rfl⟩
  obtain ⟨hwritten, hheld, hread⟩ := h.ring.kept _ _ hobj hwindow
  exact ⟨_, hobj, hwritten, hheld, (hread rank).trans (if_neg (lt_irrefl _))⟩

/-- Once the ring has wrapped, the chunk that comes next is marked as written, and as read by the
readers that have made room. -/
theorem Coherent.lastRound (h : q.Coherent pickle) (howns : q.writer.owns = false)
    (hwrapped : cfg.maxChunks ≤ q.published.length) :
    q.buffer.metadata q.slot 0 = 1 ∧ ∀ rank : Fin cfg.nLocalReader,
      q.buffer.metadata q.slot (rank + 1) =
        if q.published.length - cfg.maxChunks < (q.reader rank).consumed then 1 else 0 := by
  have hpos := cfg.maxChunks_pos
  have hlast : q.published.length - cfg.maxChunks < q.published.length := by omega
  have hslot : (q.published.length - cfg.maxChunks) % cfg.maxChunks = q.slot :=
    (Nat.mod_eq_sub_mod hwrapped).symm
  obtain ⟨hwritten, -, hflags⟩ := h.ring.kept _ _ (List.getElem?_eq_getElem hlast)
    (.inr ⟨by omega, howns⟩)
  rw [hslot] at hwritten hflags
  exact ⟨hwritten, hflags⟩

/-- A reader that has marked everything finds its flag set, until the writer has cleared the
written flag. -/
theorem Coherent.upToDate (h : q.Coherent pickle) {rank : Fin cfg.nLocalReader}
    (hall : (q.reader rank).consumed = q.published.length)
    (hread : q.buffer.metadata q.slot (rank + 1) = 0) : q.buffer.metadata q.slot 0 = 0 := by
  cases howns : q.writer.owns with
  | true => exact h.cleared howns
  | false =>
      rcases Nat.lt_or_ge q.published.length cfg.maxChunks with hlt | hge
      · rw [slot, Nat.mod_eq_of_lt hlt]
        exact (h.ring.fresh _ hlt (.inr ⟨rfl, howns⟩)).1
      · have hpos := cfg.maxChunks_pos
        have hone := (h.lastRound howns hge).2 rank
        rw [hread, hall, if_pos (by omega)] at hone
        cases hone

theorem Coherent.movePc (h : q.Coherent pickle) {rank : Fin cfg.nLocalReader} {pc : DequeuePc α}
    (hwaiting : pc.waiting = (q.reader rank).pc.waiting)
    (hknows : pc.Knows pickle cfg q.published (q.reader rank).consumed
      (q.buffer.metadata q.slot 0 = 0)) :
    Coherent pickle { q with
      reader := Function.update q.reader rank { q.reader rank with pc } } := by
  have hreader := h.reader rank
  have hconsumed : LocalReader.consumed { q.reader rank with pc } = (q.reader rank).consumed :=
    congrArg (_ + ·) hwaiting
  refine h.setReader hconsumed ⟨hconsumed ▸ hreader.idx, hconsumed ▸ hreader.behind,
    hconsumed ▸ hreader.bound, hreader.returned, hreader.socket, ?_⟩
  rw [hconsumed]
  exact hknows

/-- An object that has been published without the socket has been enqueued. -/
theorem Coherent.enqueued_of_fits (h : q.Coherent pickle) {i : ℕ} {obj : α}
    (hobj : q.published[i]? = some obj) (hfits : pickle.overflows cfg obj = false) :
    q.enqueued[i]? = some obj := by
  have hwriter := h.writer
  rw [h.log] at hobj
  rcases Nat.lt_or_ge i q.enqueued.length with hlt | hge
  · rwa [List.getElem?_append_left hlt] at hobj
  · rw [List.getElem?_append_right hge] at hobj
    have hmem := List.mem_of_getElem? hobj
    cases hpc : q.writer <;> rw [hpc] at hmem hwriter
    case send sent =>
      obtain rfl := List.mem_singleton.mp hmem
      exact absurd (hfits.symm.trans hwriter) Bool.false_ne_true
    all_goals exact absurd hmem List.not_mem_nil

theorem socket_concat {reader : LocalReader α} {obj : α}
    (hobj : q.enqueued[reader.returned.length]? = some obj) :
    ((q.enqueued.drop reader.returned.length).filter (pickle.overflows cfg)).map pickle.dumps =
      (if pickle.overflows cfg obj then [pickle.dumps obj] else []) ++
        ((q.enqueued.drop (reader.returned ++ [obj]).length).filter
          (pickle.overflows cfg)).map pickle.dumps := by
  obtain ⟨hlt, hget⟩ := List.getElem?_eq_some_iff.mp hobj
  rw [List.drop_eq_getElem_cons hlt, hget, List.filter_cons, List.length_append,
    List.length_singleton]
  split_ifs <;> rfl

theorem returned_concat {reader : LocalReader α} {obj : α} (h : reader.returned <+: q.enqueued)
    (hobj : q.enqueued[reader.returned.length]? = some obj) :
    reader.returned ++ [obj] <+: q.enqueued := by
  obtain ⟨rest, hrest⟩ := h
  rw [← hrest, List.getElem?_append_right le_rfl, Nat.sub_self] at hobj
  cases rest with
  | nil => cases hobj
  | cons first rest =>
      cases hobj
      exact ⟨rest, by rw [← hrest, List.append_assoc, List.singleton_append]⟩

theorem readerStep_setRead (h : q.Coherent pickle) {rank : Fin cfg.nLocalReader} {read : Option α}
    (hpc : (q.reader rank).pc = .setRead read) (timedOut : Bool) :
    (q.readerStep pickle rank timedOut).Coherent pickle := by
  have hreader := h.reader rank
  have hknows := hreader.pc
  rw [hpc] at hknows
  obtain ⟨obj, hobj, hread⟩ := hknows
  have hbehind : (q.reader rank).consumed < q.published.length :=
    (List.getElem?_eq_some_iff.mp hobj).1
  have hnow : (q.reader rank).consumed = (q.reader rank).returned.length := by
    simp only [LocalReader.consumed, hpc, DequeuePc.waiting, Nat.add_zero]
  have hnext : ((q.reader rank).currentIdx + 1) % cfg.maxChunks =
      ((q.reader rank).consumed + 1) % cfg.maxChunks := by
    rw [hreader.idx, Nat.mod_add_mod]
  have hbound := hreader.bound
  simp only [readerStep, hpc]
  rw [hreader.idx]
  cases hlong : pickle.overflows cfg obj with
  | true =>
      rw [hlong, if_pos rfl] at hread
      subst hread
      have hconsumed : LocalReader.consumed { q.reader rank with
          pc := .recv, currentIdx := ((q.reader rank).currentIdx + 1) % cfg.maxChunks } =
          (q.reader rank).consumed + 1 := by
        rw [hnow]
        rfl
      rw [hreader.idx] at hconsumed
      refine h.mark hbehind hconsumed ⟨?_, ?_, ?_, hreader.returned, hreader.socket, ?_⟩
      · rw [hconsumed, ← hreader.idx]
        exact hnext
      · rw [hconsumed]
        exact hbehind
      · rw [hconsumed]
        omega
      · rw [hconsumed]
        exact ⟨obj, hobj, hlong⟩
  | false =>
      rw [hlong, if_neg Bool.false_ne_true] at hread
      subst hread
      have hqueued := h.enqueued_of_fits hobj hlong
      rw [hnow] at hqueued
      have hconsumed : LocalReader.consumed { q.reader rank with
          pc := .idle, returned := (q.reader rank).returned ++ [obj],
          currentIdx := ((q.reader rank).currentIdx + 1) % cfg.maxChunks } =
          (q.reader rank).consumed + 1 := by
        rw [hnow]
        exact List.length_append
      rw [hreader.idx] at hconsumed
      refine h.mark hbehind hconsumed
        ⟨?_, ?_, ?_, returned_concat hreader.returned hqueued, ?_, trivial⟩
      · rw [hconsumed, ← hreader.idx]
        exact hnext
      · rw [hconsumed]
        exact hbehind
      · rw [hconsumed]
        omega
      · have hsocket := hreader.socket
        rw [socket_concat hqueued, hlong] at hsocket
        exact hsocket

theorem readerStep_recv (hpickle : pickle.SelfDelimiting) (h : q.Coherent pickle)
    {rank : Fin cfg.nLocalReader} (hpc : (q.reader rank).pc = .recv) (timedOut : Bool) :
    (q.readerStep pickle rank timedOut).Coherent pickle := by
  have hreader := h.reader rank
  have hknows := hreader.pc
  rw [hpc] at hknows
  obtain ⟨obj, hobj, hlong⟩ := hknows
  have hnow : (q.reader rank).consumed = (q.reader rank).returned.length + 1 := by
    simp only [LocalReader.consumed, hpc, DequeuePc.waiting]
  rw [hnow, Nat.add_sub_cancel] at hobj
  cases hsocket : (q.reader rank).socket with
  | nil => simpa only [readerStep, hpc, hsocket] using h
  | cons message socket =>
      have hqueue := hreader.socket
      have hlt : (q.reader rank).returned.length < q.enqueued.length := by
        by_contra hge
        rw [List.drop_eq_nil_of_le (not_lt.mp hge), hsocket] at hqueue
        cases hqueue
      have hqueued : q.enqueued[(q.reader rank).returned.length]? = some obj := by
        rwa [h.log, List.getElem?_append_left hlt] at hobj
      rw [socket_concat hqueued, hlong, hsocket] at hqueue
      obtain ⟨rfl, hrest⟩ := List.cons.inj hqueue
      have hloads : pickle.loads (pickle.dumps obj) = .ok obj := by
        have hnil := hpickle obj []
        rwa [List.append_nil] at hnil
      simp only [readerStep, hpc, hsocket, LocalReader.receive, hloads]
      have hconsumed : LocalReader.consumed { q.reader rank with
          socket, pc := .idle, returned := (q.reader rank).returned ++ [obj] } =
          (q.reader rank).consumed := by
        rw [hnow]
        exact List.length_append
      refine h.setReader hconsumed ⟨?_, ?_, ?_, returned_concat hreader.returned hqueued, hrest,
        trivial⟩
      · rw [hconsumed]
        exact hreader.idx
      · rw [hconsumed]
        exact hreader.behind
      · rw [hconsumed]
        exact hreader.bound

theorem readerStep_coherent (hpickle : pickle.SelfDelimiting) (h : q.Coherent pickle)
    (rank : Fin cfg.nLocalReader) (timedOut : Bool) :
    (q.readerStep pickle rank timedOut).Coherent pickle := by
  have hreader := h.reader rank
  have hknows := hreader.pc
  have hidx := hreader.idx
  cases hpc : (q.reader rank).pc with
  | idle => simpa only [readerStep, hpc] using h
  | loadRead =>
      simp only [readerStep, hpc]
      refine h.movePc (congrArg DequeuePc.waiting hpc).symm fun hread => ?_
      rcases hreader.behind.lt_or_eq with hlt | heq
      · exact .inl hlt
      · rw [hidx, heq] at hread
        exact .inr ⟨heq, h.upToDate heq hread⟩
  | loadWritten readFlag =>
      rw [hpc] at hknows
      simp only [readerStep, hpc]
      split_ifs with hwait
      · exact h.movePc (congrArg DequeuePc.waiting hpc).symm trivial
      · exact h.movePc (congrArg DequeuePc.waiting hpc).symm trivial
      · obtain ⟨hwritten, hread⟩ := not_or.mp hwait
        refine h.movePc (congrArg DequeuePc.waiting hpc).symm ?_
        rcases hknows (not_not.mp hread) with hlt | ⟨heq, hcleared⟩
        · exact hlt
        · rw [hidx, heq] at hwritten
          exact absurd hcleared hwritten
  | loadOverflow =>
      rw [hpc] at hknows
      obtain ⟨obj, hobj, -, hheld, -⟩ := h.current hknows
      rw [← hidx] at hheld
      simp only [readerStep, hpc]
      split_ifs with hlong
      · refine h.movePc (congrArg DequeuePc.waiting hpc).symm ?_
        refine ⟨obj, hobj, ?_⟩
        rw [Pickle.overflows, decide_eq_true (hheld.slice_zero.mp hlong), if_pos rfl]
      · refine h.movePc (congrArg DequeuePc.waiting hpc).symm ?_
        exact ⟨obj, hobj, decide_eq_false (hlong ∘ hheld.slice_zero.mpr)⟩
  | loadObject =>
      rw [hpc] at hknows
      obtain ⟨obj, hobj, hfits⟩ := hknows
      obtain ⟨obj', hobj', -, hheld, -⟩ := h.current (List.getElem?_eq_some_iff.mp hobj).1
      obtain rfl := Option.some.inj (hobj.symm.trans hobj')
      rw [← hidx] at hheld
      have hloads := hheld.loads hpickle (not_le.mp (of_decide_eq_false hfits))
      simp only [readerStep, hpc, hloads]
      refine h.movePc (congrArg DequeuePc.waiting hpc).symm ?_
      exact ⟨obj, hobj, by rw [hfits]; rfl⟩
  | setRead read => exact readerStep_setRead h hpc timedOut
  | recv => exact readerStep_recv hpickle h hpc timedOut
  | raised e =>
      rw [hpc] at hknows
      exact hknows.elim

/-! ## The writer -/

/-- A step of the writer that leaves the shared memory alone. -/
theorem Coherent.moveWriter (h : q.Coherent pickle) {pc : EnqueuePc α}
    (howns : pc.owns = q.writer.owns) (hsending : pc.sending = q.writer.sending)
    (hknows : pc.Knows pickle cfg (cfg.maxChunks ≤ q.published.length) q.Room
      (q.buffer.data q.slot) (q.buffer.metadata q.slot)) :
    Coherent pickle { q with writer := pc } := by
  refine ⟨h.idx, hsending ▸ h.log, ⟨fun i obj hobj hi => ?_, fun i hi hfresh => ?_⟩, hknows,
    h.reader⟩
  · exact h.ring.kept i obj hobj (howns ▸ hi)
  · exact h.ring.fresh i hi (howns ▸ hfresh)

/-- A store to the writer's own chunk. -/
theorem Coherent.store (h : q.Coherent pickle) {pc : EnqueuePc α}
    {buffer : ShmRingBuffer cfg.maxChunkBytes} (howns : pc.owns = true)
    (hsending : q.writer.sending = [])
    (hdata : ∀ idx, idx ≠ q.slot → buffer.data idx = q.buffer.data idx)
    (hmetadata : ∀ idx, idx ≠ q.slot → buffer.metadata idx = q.buffer.metadata idx)
    (hknows : pc.Knows pickle cfg (cfg.maxChunks ≤ q.published.length) q.Room
      (buffer.data q.slot) (buffer.metadata q.slot)) :
    Coherent pickle { q with buffer, writer := pc } := by
  have hpc : pc.sending = [] := by
    cases pc <;> first | rfl | exact absurd howns Bool.false_ne_true
  have hcleared : buffer.metadata q.slot 0 = 0 := by
    cases pc <;>
      first | exact absurd howns Bool.false_ne_true | exact hknows.2 | exact hknows.2.1
  refine ⟨h.idx, ?_, ⟨fun i obj hobj hi => ?_, fun i hi hfresh => ?_⟩, hknows, fun rank => ?_⟩
  · rw [hpc, ← hsending]
    exact h.log
  · have hlt : i < q.published.length := (List.getElem?_eq_some_iff.mp hobj).1
    have hwindow : q.published.length < i + cfg.maxChunks := by
      rcases hi with hi | hi
      · exact hi
      · exact absurd (howns.symm.trans hi.2) Bool.false_ne_true.symm
    have hne : i % cfg.maxChunks ≠ q.slot := fun heq =>
      hlt.ne (eq_of_mod_eq heq hlt.le hwindow)
    simp only [hdata _ hne, hmetadata _ hne]
    exact h.ring.kept i obj hobj (.inl hwindow)
  · have hlt : q.published.length < i := by
      rcases hfresh with hlt | heq
      · exact hlt
      · exact absurd (howns.symm.trans heq.2) Bool.false_ne_true.symm
    have hne : i ≠ q.slot := by
      rw [slot, Nat.mod_eq_of_lt (hlt.trans hi)]
      exact hlt.ne'
    simp only [hmetadata _ hne]
    exact h.ring.fresh i hi (.inl hlt)
  · have hreader := h.reader rank
    refine ⟨hreader.idx, hreader.behind, hreader.bound, hreader.returned, hreader.socket, ?_⟩
    have hknows := hreader.pc
    cases hpc : (q.reader rank).pc <;> rw [hpc] at hknows
    case loadWritten readFlag =>
      exact fun hread => (hknows hread).imp_right fun heq => ⟨heq.1, hcleared⟩
    all_goals exact hknows

/-- A read flag of the chunk that comes next tells whether the reader has made room in it. -/
theorem Coherent.readFlag (h : q.Coherent pickle) (howns : q.writer.owns = false)
    (rank : Fin cfg.nLocalReader) :
    q.buffer.metadata q.slot (rank + 1) ≤ 1 ∧ (cfg.maxChunks ≤ q.published.length →
      q.buffer.metadata q.slot (rank + 1) = 1 → q.Room rank) := by
  rcases Nat.lt_or_ge q.published.length cfg.maxChunks with hlt | hwrapped
  · have hfresh := (h.ring.fresh _ hlt (.inr ⟨rfl, howns⟩)).2 rank
    rw [slot, Nat.mod_eq_of_lt hlt, hfresh]
    exact ⟨zero_le_one, fun hwrapped => absurd hlt (not_lt.mpr hwrapped)⟩
  · rw [(h.lastRound howns hwrapped).2 rank]
    by_cases hread : q.published.length - cfg.maxChunks < (q.reader rank).consumed
    · rw [if_pos hread]
      exact ⟨le_rfl, fun _ _ => show _ < _ by omega⟩
    · rw [if_neg hread]
      exact ⟨zero_le_one, fun _ hone => absurd hone zero_ne_one⟩

theorem socket_append {reader : LocalReader α} (h : reader.returned <+: q.enqueued) (obj : α) :
    (((q.enqueued ++ [obj]).drop reader.returned.length).filter
        (pickle.overflows cfg)).map pickle.dumps =
      ((q.enqueued.drop reader.returned.length).filter (pickle.overflows cfg)).map pickle.dumps ++
        if pickle.overflows cfg obj then [pickle.dumps obj] else [] := by
  rw [List.drop_append_of_le_length h.length_le, List.filter_append, List.map_append,
    List.filter_singleton]
  cases pickle.overflows cfg obj <;> rfl

theorem writerStep_setWritten (h : q.Coherent pickle) {obj : α}
    (hpc : q.writer = .setWritten obj) (timedOut : Bool) :
    (q.writerStep pickle timedOut).Coherent pickle := by
  have hknows := h.writer
  have hlog := h.log
  rw [hpc] at hknows hlog
  obtain ⟨hroom, -, hheld, hflags⟩ := hknows
  have hall : q.published = q.enqueued := hlog.trans (List.append_nil _)
  have hlength : (q.published ++ [obj]).length = q.published.length + 1 := List.length_append
  have hidx : (q.currentIdx + 1) % cfg.maxChunks =
      (q.published ++ [obj]).length % cfg.maxChunks := by
    rw [h.idx, slot, Nat.mod_add_mod, hlength]
  have hkept : ∀ i first, (q.published ++ [obj])[i]? = some first →
      (q.published ++ [obj]).length ≤ i + cfg.maxChunks →
      (q.buffer.setMetadata q.slot 0 1).metadata (i % cfg.maxChunks) 0 = 1 ∧
        pickle.HeldBy (q.buffer.data (i % cfg.maxChunks)) first ∧
        ∀ rank : Fin cfg.nLocalReader,
          (q.buffer.setMetadata q.slot 0 1).metadata (i % cfg.maxChunks) (rank + 1) =
            if i < (q.reader rank).consumed then 1 else 0 := by
    intro i first hfirst hi
    rw [hlength] at hi
    rcases Nat.lt_or_ge i q.published.length with hlt | hge
    · rw [List.getElem?_append_left hlt] at hfirst
      have hne : i % cfg.maxChunks ≠ q.slot := fun heq => hlt.ne (eq_of_mod_eq heq hlt.le hi)
      rw [ShmRingBuffer.setMetadata_of_ne_idx _ _ _ hne]
      exact h.ring.kept i first hfirst (.inl hi)
    · have hlast : i = q.published.length := by
        have hlt := (List.getElem?_eq_some_iff.mp hfirst).1
        rw [hlength] at hlt
        omega
      subst hlast
      rw [List.getElem?_concat_length] at hfirst
      cases hfirst
      refine ⟨ShmRingBuffer.setMetadata_same _ _ _ _, hheld, fun rank => ?_⟩
      rw [ShmRingBuffer.setMetadata_of_ne_byte _ _ _ _ (Nat.succ_ne_zero _),
        if_neg (not_lt.mpr (h.reader rank).behind)]
      exact hflags rank
  have hfresh : ∀ i < cfg.maxChunks, (q.published ++ [obj]).length ≤ i →
      (q.buffer.setMetadata q.slot 0 1).metadata i 0 = 0 ∧
        ∀ rank : Fin cfg.nLocalReader,
          (q.buffer.setMetadata q.slot 0 1).metadata i (rank + 1) = 0 := by
    intro i hi hle
    rw [hlength] at hle
    have hne : i ≠ q.slot := by
      rw [slot, Nat.mod_eq_of_lt (lt_trans (Nat.lt_of_succ_le hle) hi)]
      exact (Nat.lt_of_succ_le hle).ne'
    rw [ShmRingBuffer.setMetadata_of_ne_idx _ _ _ hne]
    exact h.ring.fresh i hi (.inl hle)
  have hwindow : ∀ {i j : ℕ} {P : Prop}, i < j ∨ i = j ∧ P → i ≤ j := fun hi =>
    hi.elim le_of_lt fun heq => heq.1.le
  simp only [writerStep, hpc]
  rw [h.idx] at hidx ⊢
  cases hlong : pickle.overflows cfg obj with
  | true =>
      rw [if_pos (of_decide_eq_true hlong)]
      refine ⟨hidx, ?_, ⟨fun i first hfirst hi => hkept i first hfirst (hwindow hi),
        fun i hi hle => hfresh i hi (hwindow hle)⟩, hlong, fun rank => ?_⟩
      · exact congrArg (· ++ [obj]) hall
      · have hreader := h.reader rank
        refine ⟨hreader.idx, ?_, ?_, hreader.returned, hreader.socket,
          DequeuePc.Knows.grow hreader.pc obj⟩
        · rw [hlength]
          exact Nat.le_succ_of_le hreader.behind
        · rw [hlength]
          exact hroom rank
  | false =>
      rw [if_neg (of_decide_eq_false hlong)]
      refine ⟨hidx, ?_, ⟨fun i first hfirst hi => hkept i first hfirst (hwindow hi),
        fun i hi hle => hfresh i hi (hwindow hle)⟩, trivial, fun rank => ?_⟩
      · exact (congrArg (· ++ [obj]) hall).trans (List.append_nil _).symm
      · have hreader := h.reader rank
        refine ⟨hreader.idx, ?_, ?_, hreader.returned.trans (List.prefix_append _ _), ?_,
          DequeuePc.Knows.grow hreader.pc obj⟩
        · rw [hlength]
          exact Nat.le_succ_of_le hreader.behind
        · rw [hlength]
          exact hroom rank
        · rw [socket_append hreader.returned, hlong, if_neg Bool.false_ne_true, List.append_nil]
          exact hreader.socket

theorem writerStep_send (h : q.Coherent pickle) (hmark : cfg.maxChunks < cfg.highWaterMark)
    {obj : α} (hpc : q.writer = .send obj) (timedOut : Bool) :
    (q.writerStep pickle timedOut).Coherent pickle := by
  have hlong := h.writer
  have hlog := h.log
  rw [hpc] at hlong hlog
  simp only [writerStep, hpc]
  have hsame : ∀ rank,
      (q.localSend (pickle.dumps obj) rank).consumed = (q.reader rank).consumed := by
    intro rank
    simp only [localSend]
    split_ifs <;> rfl
  refine ⟨h.idx, ?_, ⟨fun i first hfirst hi => ?_, fun i hi hfresh => ?_⟩, trivial, fun rank => ?_⟩
  · rw [hlog]
    exact (List.append_nil _).symm
  · simp only [hsame]
    exact h.ring.kept i first hfirst (hi.imp_right fun heq => ⟨heq.1, by rw [hpc]; rfl⟩)
  · exact h.ring.fresh i hi (hfresh.imp_right fun heq => ⟨heq.1, by rw [hpc]; rfl⟩)
  · have hreader := h.reader rank
    have hsocket : (q.reader rank).socket.length < cfg.highWaterMark := by
      have hlength : q.published.length = q.enqueued.length + 1 := by
        rw [hlog]
        exact List.length_append
      have hbound := hreader.bound
      have hwaiting := (q.reader rank).pc.waiting_le
      have hconsumed : (q.reader rank).consumed =
        (q.reader rank).returned.length + (q.reader rank).pc.waiting := rfl
      have hfilter := List.length_filter_le (pickle.overflows cfg)
        (q.enqueued.drop (q.reader rank).returned.length)
      rw [List.length_drop] at hfilter
      rw [hreader.socket, List.length_map]
      omega
    simp only [localSend, if_pos hsocket]
    refine ⟨hreader.idx, hreader.behind, hreader.bound,
      hreader.returned.trans (List.prefix_append _ _), ?_, hreader.pc⟩
    rw [socket_append hreader.returned, hlong, if_pos rfl]
    exact congrArg (· ++ _) hreader.socket

theorem writerStep_coherent (h : q.Coherent pickle) (hmark : cfg.maxChunks < cfg.highWaterMark)
    (timedOut : Bool) : (q.writerStep pickle timedOut).Coherent pickle := by
  have hknows := h.writer
  have hidx := h.idx
  cases hpc : q.writer with
  | idle => simpa only [writerStep, hpc] using h
  | countReads obj i readCount =>
      rw [hpc] at hknows
      obtain ⟨hi, hcount, hroom⟩ := hknows
      have howns : q.writer.owns = false := congrArg EnqueuePc.owns hpc
      have hsending : q.writer.sending = [] := congrArg EnqueuePc.sending hpc
      simp only [writerStep, hpc]
      split_ifs with hlt
      · obtain ⟨hone, hread⟩ : q.buffer.metadata q.currentIdx (i + 1) ≤ 1 ∧
            (cfg.maxChunks ≤ q.published.length →
              q.buffer.metadata q.currentIdx (i + 1) = 1 → q.Room ⟨i, hlt⟩) :=
          hidx ▸ h.readFlag howns ⟨i, hlt⟩
        refine h.moveWriter howns.symm hsending.symm ?_
        refine ⟨hlt, by omega, fun hwrapped hall rank hrank => ?_⟩
        rcases Nat.lt_succ_iff_lt_or_eq.mp hrank with hrank | hrank
        · exact hroom hwrapped (by omega) rank hrank
        · obtain rfl : rank = ⟨i, hlt⟩ := Fin.ext hrank
          exact hread hwrapped (by omega)
      · refine h.moveWriter howns.symm hsending.symm fun hwrapped hall rank => ?_
        exact hroom hwrapped (by omega) rank (by omega)
  | loadWritten obj readCount =>
      rw [hpc] at hknows
      have howns : q.writer.owns = false := congrArg EnqueuePc.owns hpc
      have hsending : q.writer.sending = [] := congrArg EnqueuePc.sending hpc
      simp only [writerStep, hpc]
      split_ifs with hwait htimeout
      · exact h.moveWriter howns.symm hsending.symm trivial
      · refine h.moveWriter howns.symm hsending.symm ?_
        exact ⟨Nat.zero_le _, le_rfl, fun _ _ rank hrank => absurd hrank (Nat.not_lt_zero _)⟩
      · refine h.moveWriter howns.symm hsending.symm fun rank => ?_
        rcases Nat.lt_or_ge q.published.length cfg.maxChunks with hlt | hwrapped
        · exact Nat.lt_add_left _ hlt
        · refine hknows hwrapped (not_not.mp fun hcount => hwait ⟨?_, hcount⟩) rank
          rw [hidx, (h.lastRound howns hwrapped).1]
          exact one_ne_zero
  | clearWritten obj =>
      rw [hpc] at hknows
      simp only [writerStep, hpc]
      refine h.store ?_ (congrArg EnqueuePc.sending hpc) ?_ ?_ ?_
      · rfl
      · exact fun _ _ => rfl
      · rw [hidx]
        exact fun idx hne => ShmRingBuffer.setMetadata_of_ne_idx _ _ _ hne
      · rw [hidx]
        exact ⟨hknows, ShmRingBuffer.setMetadata_same _ _ _ _⟩
  | writeOverflow obj =>
      rw [hpc] at hknows
      have hbyte : ∀ byte : UInt8,
          ((q.buffer.data q.slot).blit 0 [byte] cfg.maxChunkBytes_pos).slice 0 1 = [byte] :=
        fun byte => Buffer.slice_blit_same _ 0 [byte] cfg.maxChunkBytes_pos
      simp only [writerStep, hpc]
      split_ifs with hlong
      · refine h.store ?_ (congrArg EnqueuePc.sending hpc) ?_ ?_ ?_
        · rfl
        · rw [hidx]
          exact fun idx hne => ShmRingBuffer.setData_of_ne _ _ hne
        · exact fun _ _ => rfl
        · refine ⟨hknows.1, hknows.2, ?_, Nat.zero_le _, fun rank hrank =>
            absurd hrank (Nat.not_lt_zero _)⟩
          rw [hidx, ShmRingBuffer.setData_same, Pickle.HeldBy, if_pos hlong]
          exact hbyte 1
      · refine h.store ?_ (congrArg EnqueuePc.sending hpc) ?_ ?_ ?_
        · rfl
        · rw [hidx]
          exact fun idx hne => ShmRingBuffer.setData_of_ne _ _ hne
        · exact fun _ _ => rfl
        · refine ⟨hknows.1, hknows.2, decide_eq_false hlong, ?_⟩
          rw [hidx, ShmRingBuffer.setData_same]
          exact hbyte 0
  | writeObject obj =>
      rw [hpc] at hknows
      obtain ⟨hroom, hcleared, hfits, hzero⟩ := hknows
      have hlt := not_le.mp (of_decide_eq_false hfits)
      have hfit : 1 + (pickle.dumps obj).length ≤ cfg.maxChunkBytes := by omega
      simp only [writerStep, hpc, dif_pos hfit]
      refine h.store ?_ (congrArg EnqueuePc.sending hpc) ?_ ?_ ?_
      · rfl
      · rw [hidx]
        exact fun idx hne => ShmRingBuffer.setData_of_ne _ _ hne
      · exact fun _ _ => rfl
      · refine ⟨hroom, hcleared, ?_, Nat.zero_le _, fun rank hrank =>
          absurd hrank (Nat.not_lt_zero _)⟩
        rw [hidx, ShmRingBuffer.setData_same, Pickle.HeldBy, if_neg (not_le.mpr hlt)]
        exact ⟨(Buffer.slice_blit_before _ _ hfit le_rfl).trans hzero,
          Buffer.slice_blit_same _ 1 _ hfit⟩
  | clearRead obj i =>
      rw [hpc] at hknows
      obtain ⟨hroom, hcleared, hheld, hi, hflags⟩ := hknows
      simp only [writerStep, hpc]
      split_ifs with hlt
      · refine h.store ?_ (congrArg EnqueuePc.sending hpc) ?_ ?_ ?_
        · rfl
        · exact fun _ _ => rfl
        · rw [hidx]
          exact fun idx hne => ShmRingBuffer.setMetadata_of_ne_idx _ _ _ hne
        · rw [hidx]
          refine ⟨hroom, ?_, hheld, hlt, fun rank hrank => ?_⟩
          · rw [ShmRingBuffer.setMetadata_of_ne_byte _ _ _ _ (Nat.succ_ne_zero i).symm]
            exact hcleared
          · rcases Nat.lt_succ_iff_lt_or_eq.mp hrank with hrank | hrank
            · rw [ShmRingBuffer.setMetadata_of_ne_byte _ _ _ _ (by omega)]
              exact hflags rank hrank
            · rw [hrank]
              exact ShmRingBuffer.setMetadata_same _ _ _ _
      · refine h.moveWriter ?_ ?_ ?_
        · rw [hpc]
          rfl
        · rw [hpc]
          rfl
        · exact ⟨hroom, hcleared, hheld, fun rank => hflags rank (by omega)⟩
  | setWritten obj => exact writerStep_setWritten h hpc timedOut
  | send obj => exact writerStep_send h hmark hpc timedOut

theorem step_coherent (hpickle : pickle.SelfDelimiting) (hmark : cfg.maxChunks < cfg.highWaterMark)
    (h : q.Coherent pickle) (action : Action α cfg.nLocalReader) :
    (q.step pickle action).Coherent pickle := by
  cases action with
  | enqueue obj =>
      simp only [step]
      split
      next hpc =>
        refine h.moveWriter (congrArg EnqueuePc.owns hpc).symm
          (congrArg EnqueuePc.sending hpc).symm ?_
        exact ⟨Nat.zero_le _, le_rfl, fun _ _ rank hrank => absurd hrank (Nat.not_lt_zero _)⟩
      · exact h
  | writer timedOut => exact writerStep_coherent h hmark timedOut
  | dequeue rank =>
      simp only [step]
      split
      next hpc => exact h.movePc (congrArg DequeuePc.waiting hpc).symm trivial
      · exact h
  | reader rank timedOut => exact readerStep_coherent hpickle h rank timedOut

theorem run_coherent (hpickle : pickle.SelfDelimiting) (hmark : cfg.maxChunks < cfg.highWaterMark)
    (h : q.Coherent pickle) (actions : List (Action α cfg.nLocalReader)) :
    (q.run pickle actions).Coherent pickle := by
  induction actions generalizing q with
  | nil => exact h
  | cons action actions ih => exact ih (step_coherent hpickle hmark h action)

/-! ## Progress -/

/-- The writer, left to itself, returns from `enqueue`. -/
def Finishes (pickle : Pickle α) (q : MessageQueue α cfg) (obj : α) : Prop :=
  ∃ n, (q.run pickle (List.replicate n (.writer false))).enqueued = q.enqueued ++ [obj]

theorem Finishes.step {obj : α} (h : Finishes pickle (q.writerStep pickle false) obj)
    (henqueued : (q.writerStep pickle false).enqueued = q.enqueued) : q.Finishes pickle obj := by
  obtain ⟨n, hn⟩ := h
  exact ⟨n + 1, by rw [← henqueued, ← hn]; rfl⟩

theorem finishes_send {obj : α} (hpc : q.writer = .send obj) : q.Finishes pickle obj := by
  refine ⟨1, ?_⟩
  simp only [run, List.replicate_one, List.foldl_cons, List.foldl_nil, MessageQueue.step,
    writerStep, hpc]

theorem finishes_setWritten {obj : α} (hpc : q.writer = .setWritten obj) :
    q.Finishes pickle obj := by
  by_cases hlong : (pickle.dumps obj).length ≥ cfg.maxChunkBytes
  · refine Finishes.step (finishes_send ?_) ?_ <;>
      simp only [writerStep, hpc, if_pos hlong]
  · refine ⟨1, ?_⟩
    simp only [run, List.replicate_one, List.foldl_cons, List.foldl_nil, MessageQueue.step,
      writerStep, hpc, if_neg hlong]

theorem finishes_clearRead {obj : α} {i : ℕ} (hpc : q.writer = .clearRead obj i)
    (hi : i ≤ cfg.nLocalReader) : q.Finishes pickle obj := by
  induction hrest : cfg.nLocalReader - i generalizing q i with
  | zero =>
      have hlt : ¬ i < cfg.nLocalReader := by omega
      refine Finishes.step (finishes_setWritten ?_) ?_ <;>
        simp only [writerStep, hpc, if_neg hlt]
  | succ rest ih =>
      have hlt : i < cfg.nLocalReader := by omega
      have hnext : (q.writerStep pickle false).writer = .clearRead obj (i + 1) := by
        simp only [writerStep, hpc, if_pos hlt]
      exact Finishes.step (ih hnext hlt (by omega)) (by simp only [writerStep, hpc, if_pos hlt])

theorem finishes_clearWritten {obj : α} (hpc : q.writer = .clearWritten obj) :
    q.Finishes pickle obj := by
  refine Finishes.step ?_ (by simp only [writerStep, hpc])
  by_cases hlong : (pickle.dumps obj).length ≥ cfg.maxChunkBytes
  · refine Finishes.step (finishes_clearRead ?_ (Nat.zero_le _)) ?_ <;>
      simp only [writerStep, hpc, if_pos hlong]
  · have hfit : 1 + (pickle.dumps obj).length ≤ cfg.maxChunkBytes := by omega
    refine Finishes.step (Finishes.step (finishes_clearRead ?_ (Nat.zero_le _)) ?_) ?_ <;>
      simp only [writerStep, hpc, if_neg hlong, dif_pos hfit]

/-- The writer does not wait for a chunk that has not been written or that all have read. -/
theorem finishes_countReads {obj : α} {i readCount : ℕ}
    (hpc : q.writer = .countReads obj i readCount) (hi : i ≤ cfg.nLocalReader)
    (hfree : q.buffer.metadata q.currentIdx 0 ≠ 0 → readCount = i ∧
      ∀ rank : Fin cfg.nLocalReader, q.buffer.metadata q.currentIdx (rank + 1) = 1) :
    q.Finishes pickle obj := by
  induction hrest : cfg.nLocalReader - i generalizing q i readCount with
  | zero =>
      have hlt : ¬ i < cfg.nLocalReader := by omega
      have hpass : ¬ (q.buffer.metadata q.currentIdx 0 ≠ 0 ∧ readCount ≠ cfg.nLocalReader) := by
        rintro ⟨hwritten, hcount⟩
        have := (hfree hwritten).1
        omega
      refine Finishes.step (Finishes.step (finishes_clearWritten ?_) ?_) ?_ <;>
        simp only [writerStep, hpc, if_neg hlt, if_neg hpass]
  | succ rest ih =>
      have hlt : i < cfg.nLocalReader := by omega
      have hnext : (q.writerStep pickle false).writer =
          .countReads obj (i + 1) (readCount + q.buffer.metadata q.currentIdx (i + 1)) := by
        simp only [writerStep, hpc, if_pos hlt]
      refine Finishes.step (ih hnext hlt ?_ (by omega)) ?_
      · simp only [writerStep, hpc, if_pos hlt]
        intro hwritten
        obtain ⟨hcount, hread⟩ := hfree hwritten
        exact ⟨by rw [hcount, hread ⟨i, hlt⟩], hread⟩
      · simp only [writerStep, hpc, if_pos hlt]

/-- A writer with room in its chunk for every reader enqueues the object. -/
theorem Coherent.enqueues (h : q.Coherent pickle) (hidle : q.writer = .idle)
    (hroom : ∀ rank, q.Room rank) (obj : α) :
    ∃ n, (q.run pickle (.enqueue obj :: List.replicate n (.writer false))).enqueued =
      q.enqueued ++ [obj] := by
  have howns : q.writer.owns = false := congrArg EnqueuePc.owns hidle
  have hstep : q.step pickle (.enqueue obj) = { q with writer := .countReads obj 0 0 } := by
    simp only [MessageQueue.step, hidle]
  have hread : q.buffer.metadata q.currentIdx 0 ≠ 0 →
      ∀ rank : Fin cfg.nLocalReader, q.buffer.metadata q.currentIdx (rank + 1) = 1 := by
    rw [h.idx]
    intro hwritten rank
    have hwrapped : cfg.maxChunks ≤ q.published.length := by
      by_contra hlt
      have hfresh := (h.ring.fresh _ (not_le.mp hlt) (.inr ⟨rfl, howns⟩)).1
      rw [← Nat.mod_eq_of_lt (not_le.mp hlt)] at hfresh
      exact hwritten hfresh
    obtain ⟨-, hflags⟩ := h.lastRound howns hwrapped
    have hmarked := hroom rank
    rw [Room] at hmarked
    exact (hflags rank).trans (if_pos (by omega))
  have hfinishes : Finishes pickle { q with writer := .countReads obj 0 0 } obj :=
    finishes_countReads rfl (Nat.zero_le _) fun hwritten => ⟨rfl, hread hwritten⟩
  obtain ⟨n, hn⟩ := hfinishes
  exact ⟨n, by rw [← hn, ← hstep]; rfl⟩

/-- A reader returns the next object that has been enqueued, whatever the writer is doing. -/
theorem Coherent.dequeues (hpickle : pickle.SelfDelimiting) (h : q.Coherent pickle)
    {rank : Fin cfg.nLocalReader} (hidle : (q.reader rank).pc = .idle) {obj : α}
    (hobj : q.enqueued[(q.reader rank).returned.length]? = some obj) :
    ((q.run pickle (.dequeue rank :: List.replicate 5 (.reader rank false))).reader rank).returned =
      (q.reader rank).returned ++ [obj] := by
  have hreader := h.reader rank
  have hidx := hreader.idx
  have hnow : (q.reader rank).consumed = (q.reader rank).returned.length := by
    simp only [LocalReader.consumed, hidle, DequeuePc.waiting, Nat.add_zero]
  have hpublished : q.published[(q.reader rank).consumed]? = some obj := by
    rw [h.log, hnow]
    exact (List.getElem?_append_left (List.getElem?_eq_some_iff.mp hobj).1).trans hobj
  obtain ⟨obj', hobj', hwritten, hheld, hread⟩ :=
    h.current (List.getElem?_eq_some_iff.mp hpublished).1
  obtain rfl := Option.some.inj (hpublished.symm.trans hobj')
  rw [← hidx] at hwritten hheld hread
  have hsocket := hreader.socket
  rw [socket_concat hobj] at hsocket
  by_cases hlong : cfg.maxChunkBytes ≤ (pickle.dumps obj).length
  · have hzero := hheld.slice_zero.mpr hlong
    have hloads : pickle.loads (pickle.dumps obj) = .ok obj := by
      have hnil := hpickle obj []
      rwa [List.append_nil] at hnil
    have hover : pickle.overflows cfg obj = true := decide_eq_true hlong
    rw [hover, if_pos rfl] at hsocket
    simp [run, List.replicate, MessageQueue.step, readerStep, hidle, hread, hwritten, hzero,
      hsocket, LocalReader.receive, hloads]
  · have hzero := mt hheld.slice_zero.mp hlong
    have hloads := hheld.loads hpickle (not_le.mp hlong)
    simp [run, List.replicate, MessageQueue.step, readerStep, hidle, hread, hwritten, hzero, hloads]

/-- Every reader returns the objects that have been enqueued, each once and in order, at most a ring
and one object behind; the next one is there for it whenever it asks, and the writer waits only for
readers that are a ring behind. -/
structure BroadcastSpec (pickle : Pickle α) (q : MessageQueue α cfg) : Prop where
  returned : ∀ rank, (q.reader rank).returned <+: q.enqueued
  behind : ∀ rank, q.enqueued.length ≤ (q.reader rank).returned.length + cfg.maxChunks + 1
  raises : ∀ rank e, (q.reader rank).pc ≠ .raised e
  dequeues : ∀ rank obj, (q.reader rank).pc = .idle →
    q.enqueued[(q.reader rank).returned.length]? = some obj →
    ((q.run pickle (.dequeue rank :: List.replicate 5 (.reader rank false))).reader rank).returned =
      (q.reader rank).returned ++ [obj]
  enqueues : ∀ obj, q.writer = .idle →
    (∀ rank, q.enqueued.length < (q.reader rank).returned.length + cfg.maxChunks) →
    ∃ n, (q.run pickle (.enqueue obj :: List.replicate n (.writer false))).enqueued =
      q.enqueued ++ [obj]

/-- `pickle` on the booleans. -/
def boolPickle : Pickle Bool where
  dumps obj := [0x80, 0x05, if obj then 0x88 else 0x89, 0x2e]
  loads
    | 0x80 :: 0x05 :: 0x88 :: 0x2e :: _ => .ok true
    | 0x80 :: 0x05 :: 0x89 :: 0x2e :: _ => .ok false
    | _ => .error (.valueError "unpickling stack underflow")

/-- Two readers and chunks of four bytes, in which a pickled boolean does not fit. -/
def twoReaders : MessageQueueConfig where
  nLocalReader := 2
  maxChunkBytes := 4
  maxChunks := 2
  highWaterMark := 1000
  maxChunkBytes_pos := Nat.succ_pos 3
  maxChunks_pos := Nat.two_pos

/-- The second reader takes the object while the first one is still looking at its flag. -/
def oneObject : List (Action Bool 2) :=
  .enqueue true :: List.replicate 11 (.writer false) ++
    [.dequeue 0, .reader 0 false, .dequeue 1] ++ List.replicate 5 (.reader 1 false)

theorem boolPickle_selfDelimiting : boolPickle.SelfDelimiting := by
  intro obj rest
  cases obj <;> rfl

end MessageQueue

end Spexis
