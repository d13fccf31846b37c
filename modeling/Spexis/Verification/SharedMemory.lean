import Spexis.Model.SharedMemory

/-! # Delivery through the mailbox

The slot is empty or holds one payload. The writer owns it while the flag is 0 and
the reader while the flag is 1, whatever the interleaving. -/

namespace Spexis

open Python

namespace ShmBuffer

/-! ## Regions -/

/-- The largest payload that the region after the flag and the length holds. -/
def capacity : ℕ := maxSize - flagSize - headerSize

@[simp] theorem flag_setFlag (b : ShmBuffer) (n : ℕ) (h : n < 2 ^ 31) :
    (b.setFlag n).flag = n := by
  have hslice := b.slice_blit_same 0 (int32View n) (flag_fits n)
  simp only [int32View_length] at hslice
  simp only [flag, setFlag, flagSize, hslice]
  exact int32FromBuffer_int32View h

@[simp] theorem flag_setFlag_zero (b : ShmBuffer) : (b.setFlag 0).flag = 0 :=
  flag_setFlag b 0 (by decide)

@[simp] theorem flag_setFlag_one (b : ShmBuffer) : (b.setFlag 1).flag = 1 :=
  flag_setFlag b 1 (by decide)

@[simp] theorem flag_setDataLen (b : ShmBuffer) (n : ℤ) : (b.setDataLen n).flag = b.flag :=
  congrArg int32FromBuffer (b.slice_blit_before _ (dataLen_fits n) le_rfl)

@[simp] theorem dataLen_setFlag (b : ShmBuffer) (n : ℤ) : (b.setFlag n).dataLen = b.dataLen :=
  congrArg int32FromBuffer (b.slice_blit_after _ (flag_fits n) (by simp [flagSize]))

@[simp] theorem payload_setFlag (b : ShmBuffer) (n len : ℤ) :
    (b.setFlag n).payload len = b.payload len :=
  b.slice_blit_after _ (flag_fits n) (by simp [flagSize])

@[simp] theorem payload_setDataLen (b : ShmBuffer) (n len : ℤ) :
    (b.setDataLen n).payload len = b.payload len :=
  b.slice_blit_after _ (dataLen_fits n) (by simp [flagSize, headerSize])

theorem dataLen_setDataLen (b : ShmBuffer) {n : ℕ} (h : n < 2 ^ 31) :
    (b.setDataLen n).dataLen = n := by
  have hslice := b.slice_blit_same flagSize (int32View n) (dataLen_fits n)
  simp only [int32View_length] at hslice
  simp only [dataLen, setDataLen, headerSize, hslice]
  exact int32FromBuffer_int32View h

theorem setPayload_fits (b : ShmBuffer) {data : Payload} (h : data.length ≤ capacity) :
    ∃ b', b.setPayload data = .ok b' ∧ b'.flag = b.flag ∧
      b'.payload data.length = data := by
  simp only [capacity, maxSize, flagSize, headerSize] at h
  have hfit : flagSize + headerSize + data.length ≤ maxSize := by
    simp only [maxSize, flagSize, headerSize]; omega
  refine ⟨_, b.setSlice_fits hfit rfl, ?_, ?_⟩
  · exact congrArg int32FromBuffer (b.slice_blit_before data hfit (by simp [flagSize]))
  · simp only [payload, Int.toNat_natCast]
    exact b.slice_blit_same _ data hfit

/-- The slice that a payload is written to has its length just when it fits. -/
theorem sliceLength_eq_iff (data : Payload) :
    Buffer.sliceLength maxSize (flagSize + headerSize) (flagSize + headerSize + data.length) =
      data.length ↔ data.length ≤ capacity := by
  simp only [Buffer.sliceLength, capacity, maxSize, flagSize, headerSize]
  omega

theorem setPayload_too_long (b : ShmBuffer) {data : Payload} (h : capacity < data.length) :
    b.setPayload data = .error (.valueError "could not broadcast input array") := by
  simp only [capacity, maxSize, flagSize, headerSize] at h
  apply b.setSlice_too_long
  · simp only [Buffer.sliceLength, maxSize, flagSize, headerSize]; omega
  · omega

end ShmBuffer

open ShmBuffer

namespace Mailbox

/-! ## Ownership of the slot -/

/-- The payload the writer has taken up. -/
def WriterPc.taken : WriterPc → List Payload
  | .next | .raised _ => []
  | .waitFlag data | .writePayload data | .writeDataLen data | .setFlag data => [data]

/-- What the buffer holds while the writer fills the slot. -/
def Filled (b : ShmBuffer) : WriterPc → Prop
  | .next | .waitFlag _ | .writePayload _ => True
  | .writeDataLen data => b.payload data.length = data
  | .setFlag data => b.payload data.length = data ∧ b.dataLen = data.length
  | .raised _ => False

/-- What the reader has taken out of a slot that holds the payload. -/
def Taken (data : Payload) : ReaderPc → Prop
  | .waitFlag | .readDataLen => True
  | .readPayload dataLen => dataLen = data.length
  | .resetFlag payload => payload = data

inductive Slot (m : Mailbox) : Prop where
  | empty (hflag : m.buffer.flag = 0) (hreader : m.reader = .waitFlag)
      (hreturned : m.returned = m.written) (hfilled : Filled m.buffer m.writer)
  | full (data : Payload) (hflag : m.buffer.flag = 1)
      (hwritten : m.written = m.returned ++ [data])
      (hpayload : m.buffer.payload data.length = data) (hlen : m.buffer.dataLen = data.length)
      (hwriter : m.writer = .next ∨ ∃ data', m.writer = .waitFlag data')
      (htaken : Taken data m.reader)

structure Inv (payloads : List Payload) (m : Mailbox) : Prop where
  slot : Slot m
  order : payloads = m.written ++ WriterPc.taken m.writer ++ m.pending

theorem init_inv (b : ShmBuffer) (payloads : List Payload) : Inv payloads (init b payloads) where
  slot := .empty (by simp [init]) rfl rfl trivial
  order := by simp [init, WriterPc.taken]

variable {payloads : List Payload} {m : Mailbox}

theorem writerStep_inv (hfit : ∀ data ∈ payloads, data.length ≤ capacity) (h : Inv payloads m) :
    Inv payloads m.writerStep := by
  obtain ⟨hslot, horder⟩ := h
  have hmem : ∀ data, WriterPc.taken m.writer = [data] → data.length ≤ capacity := by
    intro data hdata
    apply hfit
    simp [horder, hdata]
  cases hw : m.writer with
  | next =>
      cases hp : m.pending with
      | nil => simpa only [writerStep, hw, hp] using ⟨hslot, horder⟩
      | cons data pending =>
          have hdata : data.length ≤ capacity := hfit data (by simp [horder, hp])
          have hpass : fitsAssertion data := by
            simp only [capacity, maxSize, flagSize, headerSize] at hdata
            simp only [fitsAssertion, maxSize, flagSize]
            omega
          simp only [writerStep, hw, hp, hpass, ite_true]
          refine ⟨?_, by simpa [WriterPc.taken, hw, hp] using horder⟩
          cases hslot with
          | empty hflag hreader hreturned => exact .empty hflag hreader hreturned trivial
          | full d hflag hwritten hpayload hlen _ htaken =>
              exact .full d hflag hwritten hpayload hlen (.inr ⟨data, rfl⟩) htaken
  | waitFlag data =>
      by_cases hf : m.buffer.flag = 0
      · simp only [writerStep, hw, hf, ite_true]
        refine ⟨?_, by simpa [WriterPc.taken, hw] using horder⟩
        cases hslot with
        | empty hflag hreader hreturned => exact .empty hflag hreader hreturned trivial
        | full _ hflag => simp [hf] at hflag
      · simpa only [writerStep, hw, hf, ite_false] using ⟨hslot, horder⟩
  | writePayload data =>
      obtain ⟨b, hb, hbflag, hbpayload⟩ :=
        m.buffer.setPayload_fits (hmem data (by simp [WriterPc.taken, hw]))
      simp only [writerStep, hw, hb]
      refine ⟨?_, by simpa [WriterPc.taken, hw] using horder⟩
      cases hslot with
      | empty hflag hreader hreturned =>
          exact .empty (hbflag.trans hflag) hreader hreturned hbpayload
      | full _ _ _ _ _ hwriter => simp [hw] at hwriter
  | writeDataLen data =>
      have hlen := hmem data (by simp [WriterPc.taken, hw])
      simp only [capacity, maxSize, flagSize, headerSize] at hlen
      simp only [writerStep, hw]
      refine ⟨?_, by simpa [WriterPc.taken, hw] using horder⟩
      cases hslot with
      | empty hflag hreader hreturned hfilled =>
          simp only [Filled, hw] at hfilled
          exact .empty (by simpa using hflag) hreader hreturned
            ⟨by simpa using hfilled, dataLen_setDataLen _ (by omega)⟩
      | full _ _ _ _ _ hwriter => simp [hw] at hwriter
  | setFlag data =>
      simp only [writerStep, hw]
      refine ⟨?_, by simpa [WriterPc.taken, hw] using horder⟩
      cases hslot with
      | empty hflag hreader hreturned hfilled =>
          simp only [Filled, hw] at hfilled
          refine .full data (by simp) (by simp [hreturned]) (by simpa using hfilled.1)
            (by simpa using hfilled.2) (.inl rfl) ?_
          simp [hreader, Taken]
      | full _ _ _ _ _ hwriter => simp [hw] at hwriter
  | raised e => simpa only [writerStep, hw] using ⟨hslot, horder⟩

theorem readerStep_inv (h : Inv payloads m) : Inv payloads m.readerStep := by
  obtain ⟨hslot, horder⟩ := h
  cases hslot with
  | empty hflag hreader hreturned hfilled =>
      have hstay : m.readerStep = m := by simp [readerStep, hreader, hflag]
      rw [hstay]
      exact ⟨.empty hflag hreader hreturned hfilled, horder⟩
  | full data hflag hwritten hpayload hlen hwriter htaken =>
      cases hr : m.reader with
      | waitFlag =>
          simp only [readerStep, hr, hflag, ite_true]
          exact ⟨.full data hflag hwritten hpayload hlen hwriter trivial, horder⟩
      | readDataLen =>
          simp only [readerStep, hr]
          exact ⟨.full data hflag hwritten hpayload hlen hwriter hlen, horder⟩
      | readPayload dataLen =>
          simp only [Taken, hr] at htaken
          simp only [readerStep, hr]
          exact ⟨.full data hflag hwritten hpayload hlen hwriter (by rw [htaken]; exact hpayload),
            horder⟩
      | resetFlag payload =>
          simp only [Taken, hr] at htaken
          simp only [readerStep, hr]
          refine ⟨.empty (by simp) rfl (by rw [hwritten, htaken]) ?_, horder⟩
          rcases hwriter with hw | ⟨data', hw⟩ <;> simp [hw, Filled]

theorem run_inv (hfit : ∀ data ∈ payloads, data.length ≤ capacity) (h : Inv payloads m)
    (interleaving : List Actor) : Inv payloads (m.run interleaving) := by
  induction interleaving generalizing m with
  | nil => exact h
  | cons actor interleaving ih =>
      apply ih
      cases actor with
      | writer => exact writerStep_inv hfit h
      | reader => exact readerStep_inv h

/-! ## Delivery -/

/-- Every message is delivered intact, once and in order. -/
structure Delivers (payloads : List Payload) (m : Mailbox) : Prop where
  prefix_written : m.returned <+: m.written
  written_prefix : m.written <+: payloads
  /-- A payload that has been handed over has been returned. -/
  none_lost : m.buffer.flag = 0 → m.returned = m.written
  writer_ok : ∀ e, m.writer ≠ .raised e
  slice_eq : ∀ data, m.writer = .writePayload data →
    Buffer.sliceLength maxSize (flagSize + headerSize) (flagSize + headerSize + data.length) =
      data.length

theorem Inv.delivers (hfit : ∀ data ∈ payloads, data.length ≤ capacity) (h : Inv payloads m) :
    Delivers payloads m := by
  obtain ⟨hslot, horder⟩ := h
  refine ⟨?_, ?_, ?_, ?_, ?_⟩
  · cases hslot with
    | empty _ _ hreturned => exact hreturned ▸ List.prefix_rfl
    | full data _ hwritten => exact ⟨[data], hwritten.symm⟩
  · exact ⟨_, by rw [horder, List.append_assoc]⟩
  · intro hflag
    cases hslot with
    | empty _ _ hreturned => exact hreturned
    | full _ hone => simp [hflag] at hone
  · intro e he
    cases hslot with
    | empty _ _ _ hfilled => simp [he, Filled] at hfilled
    | full _ _ _ _ _ hwriter => simp [he] at hwriter
  · intro data hdata
    apply (sliceLength_eq_iff data).mpr
    apply hfit
    simp [horder, hdata, WriterPc.taken]

/-! ## Payloads past the capacity -/

/-- Nothing is under way and the payloads are still to be published. -/
structure Clear (payloads : List Payload) (m : Mailbox) : Prop where
  flag : m.buffer.flag = 0
  writer : m.writer = .next
  reader : m.reader = .waitFlag
  pending : m.pending = payloads

theorem run_append (m : Mailbox) (xs ys : List Actor) :
    m.run (xs ++ ys) = (m.run xs).run ys :=
  List.foldl_append

theorem Clear.deliver {data : Payload} (h : Clear (data :: payloads) m)
    (hfit : data.length ≤ capacity) : ∃ interleaving, Clear payloads (m.run interleaving) := by
  have hpass : fitsAssertion data := by
    simp only [capacity, maxSize, flagSize, headerSize] at hfit
    simp only [fitsAssertion, maxSize, flagSize]
    omega
  obtain ⟨b, hb, hbflag, -⟩ := m.buffer.setPayload_fits hfit
  refine ⟨[.writer, .writer, .writer, .writer, .writer, .reader, .reader, .reader, .reader], ?_⟩
  have hflag : b.flag = 0 := hbflag.trans h.flag
  constructor <;>
    simp [run, step, writerStep, readerStep, h.writer, h.pending, h.reader, hpass, h.flag, hb]

theorem Clear.raises {data : Payload} (h : Clear (data :: payloads) m) (hpass : fitsAssertion data)
    (hlong : capacity < data.length) :
    ∃ interleaving e, (m.run interleaving).writer = .raised e := by
  refine ⟨[.writer, .writer, .writer], .valueError "could not broadcast input array", ?_⟩
  simp [run, step, writerStep, h.writer, h.pending, hpass, h.flag,
    m.buffer.setPayload_too_long hlong]

theorem Clear.raises_of_mem (h : Clear payloads m) (hpass : ∀ data ∈ payloads, fitsAssertion data)
    {data : Payload} (hmem : data ∈ payloads) (hlong : capacity < data.length) :
    ∃ interleaving e, (m.run interleaving).writer = .raised e := by
  induction payloads generalizing m with
  | nil => cases hmem
  | cons first payloads ih =>
      by_cases hfirst : capacity < first.length
      · exact h.raises (hpass first List.mem_cons_self) hfirst
      · obtain ⟨xs, hclear⟩ := h.deliver (by omega)
        have htail : data ∈ payloads := by
          rcases List.mem_cons.mp hmem with rfl | hmem
          · exact absurd hlong hfirst
          · exact hmem
        obtain ⟨ys, e, he⟩ :=
          ih hclear (fun d hd => hpass d (List.mem_cons_of_mem _ hd)) htail
        exact ⟨xs ++ ys, e, by rw [run_append]; exact he⟩

theorem init_clear (b : ShmBuffer) (payloads : List Payload) :
    Clear payloads (init b payloads) :=
  ⟨by simp [init], rfl, rfl, rfl⟩

/-- The assertion leaves out the length header: of the payloads it passes, those that
leave room for the header are delivered in every interleaving, and any other makes the
writer fail in one. -/
theorem delivers_iff_capacity (b : ShmBuffer) (payloads : List Payload)
    (hpass : ∀ data ∈ payloads, fitsAssertion data) :
    (∀ interleaving, Delivers payloads ((init b payloads).run interleaving)) ↔
      ∀ data ∈ payloads, flagSize + headerSize + data.length ≤ maxSize := by
  have hroom : ∀ data : Payload,
      flagSize + headerSize + data.length ≤ maxSize ↔ data.length ≤ capacity := by
    intro data
    simp only [capacity, maxSize, flagSize, headerSize]
    omega
  simp only [hroom]
  constructor
  · intro h data hmem
    by_contra hlong
    obtain ⟨interleaving, e, he⟩ :=
      (init_clear b payloads).raises_of_mem hpass hmem (by omega)
    exact (h interleaving).writer_ok e he
  · intro hfit interleaving
    exact (run_inv hfit (init_inv b payloads) interleaving).delivers hfit

theorem delivers_iff_capacity_three_bytes :
    (∀ interleaving, Delivers [[1, 2, 3], []]
      ((init (Buffer.zeros maxSize) [[1, 2, 3], []]).run interleaving)) ↔
      ∀ data ∈ ([[1, 2, 3], []] : List Payload), flagSize + headerSize + data.length ≤ maxSize :=
  delivers_iff_capacity (Buffer.zeros maxSize) [[1, 2, 3], []] (by decide)

/-- A payload of 1048570 bytes passes the assertion and makes the writer fail. -/
theorem asserted_payload_not_delivered :
    ¬ ∀ (b : ShmBuffer) (payloads : List Payload), (∀ data ∈ payloads, fitsAssertion data) →
      ∀ interleaving, Delivers payloads ((init b payloads).run interleaving) := by
  intro h
  have hpass : fitsAssertion (List.replicate 1048570 (7 : UInt8)) := by
    simp only [fitsAssertion, List.length_replicate, maxSize, flagSize]
    omega
  have hlong : capacity < (List.replicate 1048570 (7 : UInt8)).length := by
    simp only [List.length_replicate, capacity, maxSize, flagSize, headerSize]
    omega
  have hall : ∀ data ∈ [List.replicate 1048570 (7 : UInt8)], fitsAssertion data := by
    intro data hdata
    rw [List.mem_singleton.mp hdata]
    exact hpass
  obtain ⟨interleaving, e, he⟩ :=
    (init_clear (Buffer.zeros maxSize) [List.replicate 1048570 7]).raises hpass hlong
  exact (h _ _ hall interleaving).writer_ok e he

end Mailbox

end Spexis
