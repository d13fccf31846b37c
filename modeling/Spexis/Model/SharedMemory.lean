import Spexis.Library.Bytes

/-! # The shared-memory mailbox

The exit-layer worker publishes its output through one segment: a flag, a length and
a payload. Reads and writes of the three regions are the atomic steps. -/

namespace Spexis

open Python

def maxSize : ℕ := 1024 * 1024

def flagSize : ℕ := 4

def headerSize : ℕ := 4

abbrev ShmBuffer := Buffer maxSize

abbrev Payload := List UInt8

namespace ShmBuffer

def flag (b : ShmBuffer) : ℤ :=
  int32FromBuffer (b.slice 0 flagSize)

def dataLen (b : ShmBuffer) : ℤ :=
  int32FromBuffer (b.slice flagSize (flagSize + headerSize))

def payload (b : ShmBuffer) (dataLen : ℤ) : Payload :=
  b.slice (flagSize + headerSize) (flagSize + headerSize + dataLen.toNat)

theorem flag_fits (n : ℤ) : 0 + (int32View n).length ≤ maxSize := by
  simp only [int32View_length, maxSize]
  omega

theorem dataLen_fits (n : ℤ) : flagSize + (int32View n).length ≤ maxSize := by
  simp only [int32View_length, maxSize, flagSize]
  omega

def setFlag (b : ShmBuffer) (n : ℤ) : ShmBuffer :=
  b.blit 0 (int32View n) (flag_fits n)

def setDataLen (b : ShmBuffer) (n : ℤ) : ShmBuffer :=
  b.blit flagSize (int32View n) (dataLen_fits n)

def setPayload (b : ShmBuffer) (data : Payload) : Except PyError ShmBuffer :=
  b.setSlice (flagSize + headerSize) (flagSize + headerSize + data.length) data

end ShmBuffer

/-- Where the writer is in `execute_spec_parallel_model_ray`. -/
inductive WriterPc where
  | next
  | waitFlag (data : Payload)
  | writePayload (data : Payload)
  | writeDataLen (data : Payload)
  | setFlag (data : Payload)
  | raised (e : PyError)

/-- Where the reader is in `read_result_from_shm`. -/
inductive ReaderPc where
  | waitFlag
  | readDataLen
  | readPayload (dataLen : ℤ)
  | resetFlag (payload : Payload)

structure Mailbox where
  buffer : ShmBuffer
  writer : WriterPc
  reader : ReaderPc
  /-- The payloads that are still to be published. -/
  pending : List Payload
  written : List Payload
  returned : List Payload

/-- The writer's size assertion. -/
def fitsAssertion (data : Payload) : Prop :=
  data.length < maxSize - flagSize

instance (data : Payload) : Decidable (fitsAssertion data) :=
  inferInstanceAs (Decidable (_ < _))

namespace Mailbox

/-- `_init_spexis_state` clears the flag and the length. -/
def init (buffer : ShmBuffer) (payloads : List Payload) : Mailbox where
  buffer := (buffer.setFlag 0).setDataLen 0
  writer := .next
  reader := .waitFlag
  pending := payloads
  written := []
  returned := []

def writerStep (m : Mailbox) : Mailbox :=
  match m.writer with
  | .next =>
    match m.pending with
    | [] => m
    | data :: pending =>
      if fitsAssertion data then { m with writer := .waitFlag data, pending }
      else
        { m with
          writer := .raised (.assertionError "Object too large for shared memory")
          pending }
  | .waitFlag data => if m.buffer.flag = 0 then { m with writer := .writePayload data } else m
  | .writePayload data =>
    match m.buffer.setPayload data with
    | .ok buffer => { m with buffer, writer := .writeDataLen data }
    | .error e => { m with writer := .raised e }
  | .writeDataLen data =>
    { m with buffer := m.buffer.setDataLen data.length, writer := .setFlag data }
  | .setFlag data =>
    { m with buffer := m.buffer.setFlag 1, writer := .next, written := m.written ++ [data] }
  | .raised _ => m

def readerStep (m : Mailbox) : Mailbox :=
  match m.reader with
  | .waitFlag => if m.buffer.flag = 1 then { m with reader := .readDataLen } else m
  | .readDataLen => { m with reader := .readPayload m.buffer.dataLen }
  | .readPayload dataLen => { m with reader := .resetFlag (m.buffer.payload dataLen) }
  | .resetFlag payload =>
    { m with
      buffer := m.buffer.setFlag 0
      reader := .waitFlag
      returned := m.returned ++ [payload] }

end Mailbox

inductive Actor where
  | writer
  | reader
  deriving DecidableEq, Repr

namespace Mailbox

def step (m : Mailbox) : Actor → Mailbox
  | .writer => m.writerStep
  | .reader => m.readerStep

/-- One interleaving of the two processes. -/
def run (m : Mailbox) (interleaving : List Actor) : Mailbox :=
  interleaving.foldl step m

end Mailbox

end Spexis
