import Spexis.Library.Bytes
import Mathlib.Logic.Function.Basic

/-! # The broadcast queue

One writer broadcasts objects to the readers of its node through a ring of shared chunks, each with
a written flag and a read flag for every reader; an object that does not fit in a chunk goes through
a socket. Loads and stores of a flag or of a region of a chunk are the atomic steps. -/

namespace Spexis

open Python

/-- `pickle`. -/
structure Pickle (α : Type*) where
  dumps : α → List UInt8
  loads : List UInt8 → Except PyError α

/-- The parameters of `MessageQueue.__init__`, with the messages that a socket queues for one
subscriber before it drops any. -/
structure MessageQueueConfig where
  nLocalReader : ℕ
  maxChunkBytes : ℕ
  maxChunks : ℕ
  highWaterMark : ℕ
  maxChunkBytes_pos : 0 < maxChunkBytes
  maxChunks_pos : 0 < maxChunks

/-- The chunks and their metadata: byte 0 is the written flag, byte `rank + 1` a read flag. -/
structure ShmRingBuffer (maxChunkBytes : ℕ) where
  data : ℕ → Buffer maxChunkBytes
  metadata : ℕ → ℕ → ℕ

namespace ShmRingBuffer

variable {maxChunkBytes : ℕ}

def setMetadata (b : ShmRingBuffer maxChunkBytes) (idx byte value : ℕ) :
    ShmRingBuffer maxChunkBytes :=
  let flags := Function.update (b.metadata idx) byte value
  { b with metadata := Function.update b.metadata idx flags }

def setData (b : ShmRingBuffer maxChunkBytes) (idx : ℕ) (data : Buffer maxChunkBytes) :
    ShmRingBuffer maxChunkBytes :=
  { b with data := Function.update b.data idx data }

end ShmRingBuffer

/-- Where the writer is in `enqueue`. -/
inductive EnqueuePc (α : Type*) where
  | idle
  | countReads (obj : α) (i readCount : ℕ)
  | loadWritten (obj : α) (readCount : ℕ)
  | clearWritten (obj : α)
  | writeOverflow (obj : α)
  | writeObject (obj : α)
  | clearRead (obj : α) (i : ℕ)
  | setWritten (obj : α)
  | send (obj : α)

/-- Where a reader is in `dequeue`. -/
inductive DequeuePc (α : Type*) where
  | idle
  | loadRead
  | loadWritten (readFlag : ℕ)
  | loadOverflow
  | loadObject
  /-- The object that has been read, if it has not overflown. -/
  | setRead (obj : Option α)
  | recv
  | raised (e : PyError)

structure LocalReader (α : Type*) where
  pc : DequeuePc α
  currentIdx : ℕ
  /-- The messages that its socket has not received. -/
  socket : List (List UInt8)
  returned : List α

structure MessageQueue (α : Type*) (cfg : MessageQueueConfig) where
  buffer : ShmRingBuffer cfg.maxChunkBytes
  writer : EnqueuePc α
  currentIdx : ℕ
  reader : Fin cfg.nLocalReader → LocalReader α
  /-- The objects whose chunk has been marked as written. -/
  published : List α
  /-- The objects whose `enqueue` has returned. -/
  enqueued : List α

namespace MessageQueue

variable {α : Type*} {cfg : MessageQueueConfig}

/-- The metadata is cleared, whatever the memory has held. -/
def init (α : Type*) (cfg : MessageQueueConfig) (data : ℕ → Buffer cfg.maxChunkBytes) :
    MessageQueue α cfg where
  buffer := ⟨data, fun _ _ => 0⟩
  writer := .idle
  currentIdx := 0
  reader _ := ⟨.idle, 0, [], []⟩
  published := []
  enqueued := []

/-- `self.local_socket.send`: a full subscriber misses the message. -/
def localSend (q : MessageQueue α cfg) (message : List UInt8) :
    Fin cfg.nLocalReader → LocalReader α := fun rank =>
  let reader := q.reader rank
  if reader.socket.length < cfg.highWaterMark then
    { reader with socket := reader.socket ++ [message] }
  else reader

/-- The next step of `enqueue`; where it has waited too long, it may give up. -/
def writerStep (pickle : Pickle α) (timedOut : Bool) (q : MessageQueue α cfg) :
    MessageQueue α cfg :=
  match q.writer with
  | .idle => q
  | .countReads obj i readCount =>
    if i < cfg.nLocalReader then
      let readFlag := q.buffer.metadata q.currentIdx (i + 1)
      { q with writer := .countReads obj (i + 1) (readCount + readFlag) }
    else { q with writer := .loadWritten obj readCount }
  | .loadWritten obj readCount =>
    let writtenFlag := q.buffer.metadata q.currentIdx 0
    if writtenFlag ≠ 0 ∧ readCount ≠ cfg.nLocalReader then
      { q with writer := if timedOut then .idle else .countReads obj 0 0 }
    else { q with writer := .clearWritten obj }
  | .clearWritten obj =>
    { q with buffer := q.buffer.setMetadata q.currentIdx 0 0, writer := .writeOverflow obj }
  | .writeOverflow obj =>
    let buf := q.buffer.data q.currentIdx
    if (pickle.dumps obj).length ≥ cfg.maxChunkBytes then
      { q with
        buffer := q.buffer.setData q.currentIdx (buf.blit 0 [1] cfg.maxChunkBytes_pos)
        writer := .clearRead obj 0 }
    else
      { q with
        buffer := q.buffer.setData q.currentIdx (buf.blit 0 [0] cfg.maxChunkBytes_pos)
        writer := .writeObject obj }
  | .writeObject obj =>
    let buf := q.buffer.data q.currentIdx
    if h : 1 + (pickle.dumps obj).length ≤ cfg.maxChunkBytes then
      { q with
        buffer := q.buffer.setData q.currentIdx (buf.blit 1 (pickle.dumps obj) h)
        writer := .clearRead obj 0 }
    else q
  | .clearRead obj i =>
    if i < cfg.nLocalReader then
      { q with
        buffer := q.buffer.setMetadata q.currentIdx (i + 1) 0
        writer := .clearRead obj (i + 1) }
    else { q with writer := .setWritten obj }
  | .setWritten obj =>
    let q := { q with
      buffer := q.buffer.setMetadata q.currentIdx 0 1
      currentIdx := (q.currentIdx + 1) % cfg.maxChunks
      published := q.published ++ [obj] }
    if (pickle.dumps obj).length ≥ cfg.maxChunkBytes then { q with writer := .send obj }
    else { q with writer := .idle, enqueued := q.enqueued ++ [obj] }
  | .send obj =>
    { q with
      reader := q.localSend (pickle.dumps obj)
      writer := .idle
      enqueued := q.enqueued ++ [obj] }

/-- `pickle.loads` of what a reader has got, which is then returned. -/
def LocalReader.receive (pickle : Pickle α) (reader : LocalReader α) (message : List UInt8) :
    LocalReader α :=
  match pickle.loads message with
  | .ok obj => { reader with pc := .idle, returned := reader.returned ++ [obj] }
  | .error e => { reader with pc := .raised e }

/-- The next step of a reader's `dequeue`; where it has waited too long, it may give up. -/
def readerStep (pickle : Pickle α) (rank : Fin cfg.nLocalReader) (timedOut : Bool)
    (q : MessageQueue α cfg) : MessageQueue α cfg :=
  let reader := q.reader rank
  let set (reader : LocalReader α) : MessageQueue α cfg :=
    { q with reader := Function.update q.reader rank reader }
  let buf := q.buffer.data reader.currentIdx
  match reader.pc with
  | .idle => q
  | .loadRead =>
    set { reader with pc := .loadWritten (q.buffer.metadata reader.currentIdx (rank + 1)) }
  | .loadWritten readFlag =>
    let writtenFlag := q.buffer.metadata reader.currentIdx 0
    if writtenFlag = 0 ∨ readFlag ≠ 0 then
      set { reader with pc := if timedOut then .idle else .loadRead }
    else set { reader with pc := .loadOverflow }
  | .loadOverflow =>
    if buf.slice 0 1 = [1] then set { reader with pc := .setRead none }
    else set { reader with pc := .loadObject }
  | .loadObject =>
    match pickle.loads (buf.slice 1 cfg.maxChunkBytes) with
    | .ok obj => set { reader with pc := .setRead (some obj) }
    | .error e => set { reader with pc := .raised e }
  | .setRead obj =>
    let q := { q with buffer := q.buffer.setMetadata reader.currentIdx (rank + 1) 1 }
    let reader := { reader with currentIdx := (reader.currentIdx + 1) % cfg.maxChunks }
    let reader := match obj with
      | some obj => { reader with pc := .idle, returned := reader.returned ++ [obj] }
      | none => { reader with pc := .recv }
    { q with reader := Function.update q.reader rank reader }
  | .recv =>
    match reader.socket with
    | [] => q
    | message :: socket => set (LocalReader.receive pickle { reader with socket } message)
  | .raised _ => q

/-- What can happen next: a process that is idle calls `enqueue` or `dequeue`, or one takes a
step. -/
inductive Action (α : Type*) (nLocalReader : ℕ) where
  | enqueue (obj : α)
  | writer (timedOut : Bool)
  | dequeue (rank : Fin nLocalReader)
  | reader (rank : Fin nLocalReader) (timedOut : Bool)

def step (pickle : Pickle α) (q : MessageQueue α cfg) :
    Action α cfg.nLocalReader → MessageQueue α cfg
  | .enqueue obj =>
    match q.writer with
    | .idle => { q with writer := .countReads obj 0 0 }
    | _ => q
  | .writer timedOut => q.writerStep pickle timedOut
  | .dequeue rank =>
    let reader := q.reader rank
    match reader.pc with
    | .idle => { q with reader := Function.update q.reader rank { reader with pc := .loadRead } }
    | _ => q
  | .reader rank timedOut => q.readerStep pickle rank timedOut

/-- One interleaving of the processes. -/
def run (pickle : Pickle α) (q : MessageQueue α cfg) (actions : List (Action α cfg.nLocalReader)) :
    MessageQueue α cfg :=
  actions.foldl (step pickle) q

end MessageQueue

end Spexis
