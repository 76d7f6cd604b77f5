import RtThread.Std.RingBuffer

/-!
# The serial ring buffer

`struct serial_ringbuffer` of `serial.h` and its operations in `serial.c`, each
of which runs with interrupts disabled. The indices are 16-bit words masked to
the buffer size; `SerialRingbuffer.Contains` says which bytes they enclose.
-/

namespace RtThread.Serial

open RtThread.Std

/-- `SERIAL_RBUFFER_SIZE`. -/
def serialRbufferSize : Nat := 128

structure SerialRingbuffer where
  buffer : Nat → BitVec 8
  putIndex : BitVec 16
  getIndex : BitVec 16

/-- `(index + 1) & (SERIAL_RBUFFER_SIZE - 1)`. -/
def nextIndex (index : BitVec 16) : BitVec 16 :=
  (index + 1#16) &&& BitVec.ofNat 16 (serialRbufferSize - 1)

namespace SerialRingbuffer

/-- `serial_ringbuffer_init`. -/
def init : SerialRingbuffer where
  buffer _ := 0
  putIndex := 0
  getIndex := 0

/-- `serial_ringbuffer_putc`, which drops the oldest byte of a full buffer. -/
def putc (ring : SerialRingbuffer) (ch : BitVec 8) : SerialRingbuffer :=
  let ring :=
    { ring with
      buffer := Function.update ring.buffer ring.putIndex.toNat ch
      putIndex := nextIndex ring.putIndex }
  if ring.putIndex = ring.getIndex then { ring with getIndex := nextIndex ring.getIndex }
  else ring

/-- `serial_ringbuffer_putchar`, which refuses a byte when the buffer is full. -/
def putchar (ring : SerialRingbuffer) (ch : BitVec 8) : Int × SerialRingbuffer :=
  let next := nextIndex ring.putIndex
  if next ≠ ring.getIndex then
    (1, { ring with
      buffer := Function.update ring.buffer ring.putIndex.toNat ch
      putIndex := next })
  else (-1, ring)

/-- `serial_ringbuffer_getc`: the oldest byte, or -1. -/
def getc (ring : SerialRingbuffer) : Int × SerialRingbuffer :=
  if ring.getIndex ≠ ring.putIndex then
    ((ring.buffer ring.getIndex.toNat).toNat, { ring with getIndex := nextIndex ring.getIndex })
  else (-1, ring)

/-- `serial_ringbuffer_size`. -/
def size (ring : SerialRingbuffer) : BitVec 32 :=
  (ring.putIndex.setWidth 32 - ring.getIndex.setWidth 32) &&&
    BitVec.ofNat 32 (serialRbufferSize - 1)

/-- The bytes in the buffer, oldest first. -/
def Contains (ring : SerialRingbuffer) (queue : List (BitVec 8)) : Prop :=
  Holds serialRbufferSize ring.buffer ring.getIndex.toNat ring.putIndex.toNat queue

end SerialRingbuffer

theorem nextIndex_toNat (index : BitVec 16) :
    (nextIndex index).toNat = (index.toNat + 1) % serialRbufferSize := by
  have mask : (BitVec.ofNat 16 (serialRbufferSize - 1)).toNat = 2 ^ 7 - 1 := rfl
  rw [nextIndex, BitVec.toNat_and, mask, Nat.and_two_pow_sub_one_eq_mod, BitVec.toNat_add,
    Nat.mod_mod_of_dvd _ (by decide)]
  rfl

namespace SerialRingbuffer

variable {ring : SerialRingbuffer} {queue : List (BitVec 8)} {byte : BitVec 8}

theorem init_contains : init.Contains [] := Holds.nil (by decide)

theorem Contains.empty_iff (contains : ring.Contains queue) :
    ring.getIndex = ring.putIndex ↔ queue = [] := by
  rw [← Holds.empty_iff contains, BitVec.toNat_inj]

theorem Contains.full_iff (contains : ring.Contains queue) :
    nextIndex ring.putIndex = ring.getIndex ↔ queue.length + 1 = serialRbufferSize := by
  rw [← Holds.full_iff contains, ← nextIndex_toNat, BitVec.toNat_inj]

theorem Contains.putchar_room (contains : ring.Contains queue)
    (room : queue.length + 1 < serialRbufferSize) (byte : BitVec 8) :
    (ring.putchar byte).1 = 1 ∧ (ring.putchar byte).2.Contains (queue ++ [byte]) := by
  have free := (not_congr contains.full_iff).mpr (Nat.ne_of_lt room)
  have pushed := Holds.push contains room byte
  rw [← nextIndex_toNat] at pushed
  rw [putchar, if_pos free]
  exact ⟨rfl, pushed⟩

theorem Contains.putchar_full (contains : ring.Contains queue)
    (full : queue.length + 1 = serialRbufferSize) (byte : BitVec 8) :
    ring.putchar byte = (-1, ring) := by
  rw [putchar, if_neg (Classical.not_not.mpr (contains.full_iff.mpr full))]

theorem Contains.getc_nil (contains : ring.Contains []) : ring.getc = (-1, ring) := by
  rw [getc, if_neg (Classical.not_not.mpr (contains.empty_iff.mpr rfl))]

theorem Contains.getc_cons (contains : ring.Contains (byte :: queue)) :
    ring.getc.1 = byte.toNat ∧ ring.getc.2.Contains queue := by
  have some := (not_congr contains.empty_iff).mpr (List.cons_ne_nil byte queue)
  obtain ⟨first, popped⟩ := Holds.pop contains
  rw [← nextIndex_toNat] at popped
  rw [getc, if_pos some]
  exact ⟨congrArg (fun byte => (byte.toNat : Int)) first, popped⟩

/-- A full buffer gives up its oldest byte for a new one. -/
theorem Contains.putc (contains : ring.Contains queue) (byte : BitVec 8) :
    (ring.putc byte).Contains
      (if queue.length + 1 < serialRbufferSize then queue ++ [byte]
        else queue.tail ++ [byte]) := by
  have room := contains.room
  split
  · rename_i spare
    have free := (not_congr contains.full_iff).mpr (Nat.ne_of_lt spare)
    have pushed := Holds.push contains spare byte
    rw [← nextIndex_toNat] at pushed
    rw [SerialRingbuffer.putc, if_neg free]
    exact pushed
  · have full := contains.full_iff.mpr (by omega)
    cases queue with
    | nil => simp [serialRbufferSize] at *
    | cons oldest rest =>
        have pushed := (Holds.pop contains).2.push (by simpa using room) byte
        rw [← nextIndex_toNat, ← nextIndex_toNat] at pushed
        rw [SerialRingbuffer.putc, if_pos full]
        exact pushed

theorem Contains.size_toNat (contains : ring.Contains queue) :
    ring.size.toNat = queue.length := by
  have mask : (BitVec.ofNat 32 (serialRbufferSize - 1)).toNat = 2 ^ 7 - 1 := rfl
  have length := Holds.length_eq contains
  have put := Holds.back_lt contains
  have get := contains.inside
  have capacity : serialRbufferSize = 128 := rfl
  rw [capacity] at length put get
  rw [size, BitVec.toNat_and, mask, Nat.and_two_pow_sub_one_eq_mod, BitVec.toNat_sub,
    BitVec.toNat_setWidth_of_le (by decide), BitVec.toNat_setWidth_of_le (by decide),
    Nat.mod_mod_of_dvd _ (pow_dvd_pow 2 (by decide))]
  omega

end SerialRingbuffer

end RtThread.Serial
