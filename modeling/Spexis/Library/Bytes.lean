import Spexis.Library.Python

/-! # Byte buffers

Buffers of a fixed size with slice reads and slice writes, and the 32-bit integers
that are viewed as bytes in them. -/

namespace Python

structure Buffer (size : ℕ) where
  bytes : List UInt8
  length_eq : bytes.length = size

namespace Buffer

variable {size : ℕ}

def zeros (size : ℕ) : Buffer size where
  bytes := List.replicate size 0
  length_eq := List.length_replicate

/-- `b[start:stop]`; a bound past the end is cut off. -/
def slice (b : Buffer size) (start stop : ℕ) : List UInt8 :=
  pySlice b.bytes start stop

/-- The length of the slice `b[start:stop]`. -/
def sliceLength (size start stop : ℕ) : ℕ :=
  min stop size - start

/-- Overwrites the bytes from `start` on. -/
def blit (b : Buffer size) (start : ℕ) (data : List UInt8) (h : start + data.length ≤ size) :
    Buffer size where
  bytes := b.bytes.take start ++ data ++ b.bytes.drop (start + data.length)
  length_eq := by
    have := b.length_eq
    simp only [List.length_append, List.length_take, List.length_drop]
    omega

/-- The data written by `b[start:stop] = data`: one byte is repeated to fill the slice, and
any other length has to be that of the slice. -/
def broadcast (length : ℕ) (data : List UInt8) : Option (List UInt8) :=
  if data.length = length then some data
  else if data.length = 1 then some (List.replicate length (data.headD 0))
  else none

theorem broadcast_length {length : ℕ} {data out : List UInt8}
    (h : broadcast length data = some out) : out.length = length := by
  unfold broadcast at h
  split_ifs at h with hlen hone
  · cases h
    exact hlen
  · cases h
    exact List.length_replicate

/-- `b[start:stop] = data`. -/
def setSlice (b : Buffer size) (start stop : ℕ) (data : List UInt8) :
    Except PyError (Buffer size) :=
  if hstart : start ≤ size then
    match h : broadcast (sliceLength size start stop) data with
    | some out => .ok (b.blit start out (by
        have := broadcast_length h
        simp only [sliceLength] at this
        omega))
    | none => .error (.valueError "could not broadcast input array")
  else .error (.valueError "could not broadcast input array")

/-! ## Slices of an overwritten buffer -/

theorem setSlice_fits (b : Buffer size) {start stop : ℕ} {data : List UInt8}
    (hstop : stop ≤ size) (hdata : start + data.length = stop) :
    b.setSlice start stop data = .ok (b.blit start data (by omega)) := by
  have hlen : data.length = sliceLength size start stop := by
    simp only [sliceLength]; omega
  have hb : broadcast (sliceLength size start stop) data = some data := by
    simp [broadcast, hlen]
  rw [setSlice, dif_pos (by omega)]
  split
  · rename_i out h
    have hout : out = data := by rw [hb] at h; exact (Option.some.inj h).symm
    subst hout
    rfl
  · rename_i h
    simp [hb] at h

/-- A longer payload than the slice holds is refused, unless it is a single byte. -/
theorem setSlice_too_long (b : Buffer size) {start stop : ℕ} {data : List UInt8}
    (hlong : sliceLength size start stop < data.length) (hone : 1 < data.length) :
    b.setSlice start stop data = .error (.valueError "could not broadcast input array") := by
  have hb : broadcast (sliceLength size start stop) data = none := by
    rw [broadcast, if_neg (by omega), if_neg (by omega)]
  rw [setSlice]
  split
  · split
    · rename_i h; simp [hb] at h
    · rfl
  · rfl

theorem slice_blit_same (b : Buffer size) (start : ℕ) (data : List UInt8)
    (h : start + data.length ≤ size) :
    (b.blit start data h).slice start (start + data.length) = data := by
  have hb := b.length_eq
  have htake : (b.bytes.take start).length = start := by simp; omega
  simp only [slice, pySlice, blit]
  rw [List.take_append_of_le_length (by simp [htake]), List.take_of_length_le (by simp [htake]),
    List.drop_append_of_le_length (by simp [htake]), List.drop_of_length_le (by simp), List.nil_append]

theorem slice_blit_before (b : Buffer size) {start stop at' : ℕ} (data : List UInt8)
    (h : at' + data.length ≤ size) (hstop : stop ≤ at') :
    (b.blit at' data h).slice start stop = b.slice start stop := by
  have hb := b.length_eq
  have htake : (b.bytes.take at').length = at' := by simp; omega
  simp only [slice, pySlice, blit, List.append_assoc]
  rw [List.take_append_of_le_length (by omega), List.take_take, Nat.min_eq_left hstop]

theorem slice_blit_after (b : Buffer size) {start stop at' : ℕ} (data : List UInt8)
    (h : at' + data.length ≤ size) (hstart : at' + data.length ≤ start) :
    (b.blit at' data h).slice start stop = b.slice start stop := by
  have hb := b.length_eq
  have htake : (b.bytes.take at').length = at' := by simp; omega
  have hpre : (b.bytes.take at' ++ data).length = at' + data.length := by simp [htake]
  simp only [slice, pySlice, blit]
  apply List.ext_getElem?
  intro i
  simp only [List.getElem?_drop, List.getElem?_take]
  by_cases hi : start + i < stop
  · rw [if_pos hi, if_pos hi, List.getElem?_append_right (by omega), List.getElem?_drop, hpre]
    congr 1
    omega
  · rw [if_neg hi, if_neg hi]

end Buffer

/-! ## Integers of 32 bits -/

/-- `np.array([n], dtype=np.int32).view(np.uint8)`, low byte first. -/
def int32View (n : ℤ) : List UInt8 :=
  let m := (n % 2 ^ 32).toNat
  [.ofNat m, .ofNat (m / 2 ^ 8), .ofNat (m / 2 ^ 16), .ofNat (m / 2 ^ 24)]

/-- `np.frombuffer(bytes, dtype=np.int32)[0]`. -/
def int32FromBuffer : List UInt8 → ℤ
  | b0 :: b1 :: b2 :: b3 :: _ =>
    let m : ℕ := b0.toNat + 2 ^ 8 * b1.toNat + 2 ^ 16 * b2.toNat + 2 ^ 24 * b3.toNat
    if m < 2 ^ 31 then (m : ℤ) else (m : ℤ) - 2 ^ 32
  | _ => 0

@[simp] theorem int32View_length (n : ℤ) : (int32View n).length = 4 := rfl

theorem int32FromBuffer_int32View {n : ℕ} (h : n < 2 ^ 31) :
    int32FromBuffer (int32View n) = n := by
  have hm : ((n : ℤ) % 2 ^ 32).toNat = n := by omega
  simp only [int32View, int32FromBuffer, hm, UInt8.toNat_ofNat']
  rw [if_pos (by omega)]
  omega

end Python
