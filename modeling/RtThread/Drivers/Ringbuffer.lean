import RtThread.Std.Machine
import RtThread.Std.RingBuffer
import RtThread.Kernel.State

/-!
# The ring buffer for device drivers

The byte buffer of `ringbuffer.c`. Its indices run freely over 16 bits; the mask
makes positions of them. Differences of indices are computed in `int`: where the
result is stored in 16 bits, subtraction of words gives the same.
-/

namespace RtThread

open RtThread.Std

abbrev Byte := BitVec 8

/-- `struct rt_ringbuffer`, with the memory behind `buffer_ptr`. -/
structure Ringbuffer where
  readIndex : BitVec 16
  writeIndex : BitVec 16
  buffer : Nat → Byte
  bufferSize : BitVec 16

/-- Copy `count` bytes behind `source` of one memory to `target` in the other. -/
def memcpy (memory : Nat → Byte) (target : Nat) (other : Nat → Byte) (source count : Nat) :
    Nat → Byte := fun place =>
  if target ≤ place ∧ place < target + count then other (source + (place - target))
  else memory place

def rtRingbufferInit (pool : Nat → Byte) (size : BitVec 16) : Ringbuffer :=
  ⟨0, 0, pool, (rtAlignDown (size.setWidth 32)).setWidth 16⟩

/-- The result is the number of bytes put. -/
def rtRingbufferPut (rb : Ringbuffer) (ptr : Nat → Byte) (length : BitVec 16) : Ringbuffer × Nat :=
  let mask := rb.bufferSize - 1
  -- "whether has enough space"
  let size := rb.bufferSize - (rb.writeIndex - rb.readIndex)
  if size = 0 then (rb, 0)
  else
    let length := if size < length then size else length
    let writePosition := (rb.writeIndex &&& mask).toNat
    let behind := rb.bufferSize.toNat - writePosition
    let buffer :=
      if length.toNat < behind then memcpy rb.buffer writePosition ptr 0 length.toNat
      else memcpy (memcpy rb.buffer writePosition ptr 0 behind) 0 ptr behind (length.toNat - behind)
    ({ rb with buffer := buffer, writeIndex := rb.writeIndex + length }, length.toNat)

/-- The results are the memory at `ptr` and the number of bytes got. Here the
difference of the indices is stored in 32 bits. -/
def rtRingbufferGet (rb : Ringbuffer) (ptr : Nat → Byte) (length : BitVec 16) :
    Ringbuffer × (Nat → Byte) × Nat :=
  let mask := rb.bufferSize - 1
  let size : BitVec 32 := rb.writeIndex.setWidth 32 - rb.readIndex.setWidth 32
  if size = 0 then (rb, ptr, 0)
  else
    let length := if size < length.setWidth 32 then size.setWidth 16 else length
    let readPosition := (rb.readIndex &&& mask).toNat
    let behind := rb.bufferSize.toNat - readPosition
    let ptr :=
      if length.toNat ≤ behind then memcpy ptr 0 rb.buffer readPosition length.toNat
      else memcpy (memcpy ptr 0 rb.buffer readPosition behind) behind rb.buffer 0
        (length.toNat + readPosition - rb.bufferSize.toNat)
    ({ rb with readIndex := rb.readIndex + length }, ptr, length.toNat)

/-- "put a character into ring buffer": the difference of the indices is an `int` here. -/
def rtRingbufferPutchar (rb : Ringbuffer) (ch : Byte) : Ringbuffer × Nat :=
  let mask := rb.bufferSize - 1
  if (rb.writeIndex.toNat : Int) - rb.readIndex.toNat = rb.bufferSize.toNat then (rb, 0)
  else
    ({ rb with
      buffer := Function.update rb.buffer (rb.writeIndex &&& mask).toNat ch
      writeIndex := rb.writeIndex + 1 }, 1)

/-- "get a character from a ringbuffer" -/
def rtRingbufferGetchar (rb : Ringbuffer) (ch : Nat → Byte) : Ringbuffer × (Nat → Byte) × Nat :=
  if rb.readIndex = rb.writeIndex then (rb, ch, 0)
  else
    let mask := rb.bufferSize - 1
    ({ rb with readIndex := rb.readIndex + 1 },
      Function.update ch 0 (rb.buffer (rb.readIndex &&& mask).toNat), 1)

/-! ## Sequences of calls -/

/-- The calls, each with what the memory at `ptr` contains. -/
inductive RingbufferCall where
  | put (ptr : Nat → Byte) (length : BitVec 16)
  | get (ptr : Nat → Byte) (length : BitVec 16)

/-- What a call reports: a number of bytes, or the bytes at `ptr` up to the number. -/
inductive RingbufferResult where
  | stored (count : Nat)
  | fetched (bytes : List Byte)
deriving DecidableEq, Repr

/-- The first bytes of a memory. -/
def bytesOf (ptr : Nat → Byte) (count : Nat) : List Byte := (List.range count).map ptr

def ringbufferMachine : Machine Ringbuffer RingbufferCall RingbufferResult where
  step rb
    | .put ptr length =>
        let (rb, count) := rtRingbufferPut rb ptr length
        some (rb, [.stored count])
    | .get ptr length =>
        let (rb, ptr, count) := rtRingbufferGet rb ptr length
        some (rb, [.fetched (bytesOf ptr count)])

/-- A queue of at most `capacity` bytes, which is what the buffer is for: it stores
what there is room for, and gives out the oldest bytes. -/
def boundedFifo (capacity : Nat) : Machine (List Byte) RingbufferCall RingbufferResult where
  step queue
    | .put ptr length =>
        let count := min length.toNat (capacity - queue.length)
        some (queue ++ bytesOf ptr count, [.stored count])
    | .get _ length =>
        some (queue.drop length.toNat, [.fetched (queue.take length.toNat)])

/-- When the write index has wrapped around and the read index has not, a `get` asks
for no more than there is. -/
def Ringbuffer.Reads (rb : Ringbuffer) : RingbufferCall → Prop
  | .put _ _ => True
  | .get _ length => rb.readIndex ≤ rb.writeIndex ∨ length ≤ rb.writeIndex - rb.readIndex

end RtThread
