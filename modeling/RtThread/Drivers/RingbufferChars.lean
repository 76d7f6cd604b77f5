import RtThread.Drivers.RingbufferRuns

/-!
# Single characters in the ring buffer

`rt_ringbuffer_putchar` compares the difference of two 16-bit indices as an `int` with the
size, so that it does not see a full buffer when only the write index has wrapped around.
-/

namespace RtThread

open RtThread.Std

section

variable {rb : Ringbuffer}

theorem memcpy_one (memory other : Nat → Byte) (target source : Nat) :
    memcpy memory target other source 1 = Function.update memory target (other source) := by
  funext place
  rw [memcpy, Function.update_apply]
  by_cases here : place = target
  · subst here
    simp
  · rw [if_neg here, if_neg (by omega)]

theorem memcpy_zero (memory other : Nat → Byte) (target source : Nat) :
    memcpy memory target other source 0 = memory := by
  funext place
  rw [memcpy, if_neg (by omega)]

/-- A masked index lies inside the buffer. -/
theorem Ringbuffer.and_mask_lt (some_ : 0 < rb.bufferSize.toNat) (index : BitVec 16) :
    (index &&& (rb.bufferSize - 1)).toNat < rb.bufferSize.toNat := by
  have below : (index &&& (rb.bufferSize - 1)).toNat ≤ (rb.bufferSize - 1).toNat := by
    rw [BitVec.toNat_and]
    exact Nat.and_le_right
  have bound := rb.bufferSize.isLt
  have one : (rb.bufferSize - 1).toNat = rb.bufferSize.toNat - 1 := by bv_omega
  omega

/-- One byte is put where the write index points, unless the buffer is full. -/
theorem rtRingbufferPut_one (some_ : 0 < rb.bufferSize.toNat) (ptr : Nat → Byte) :
    rtRingbufferPut rb ptr 1 =
      if rb.writeIndex - rb.readIndex = rb.bufferSize then (rb, 0)
      else
        ({ rb with
          buffer := Function.update rb.buffer (rb.writeIndex &&& (rb.bufferSize - 1)).toNat (ptr 0)
          writeIndex := rb.writeIndex + 1 }, 1) := by
  have inside := Ringbuffer.and_mask_lt some_ rb.writeIndex
  unfold rtRingbufferPut
  dsimp only
  have full : rb.bufferSize - (rb.writeIndex - rb.readIndex) = 0 ↔
      rb.writeIndex - rb.readIndex = rb.bufferSize := by
    constructor <;> intro same <;> bv_omega
  rw [if_congr full rfl rfl]
  split
  · rfl
  · rename_i room
    rw [← full] at room
    have length : (if rb.bufferSize - (rb.writeIndex - rb.readIndex) < 1 then
        rb.bufferSize - (rb.writeIndex - rb.readIndex) else 1) = 1 := by
      refine if_neg fun less => room ?_
      bv_omega
    rw [length]
    have one : (1 : BitVec 16).toNat = 1 := rfl
    rw [one]
    congr 2
    split
    · rw [memcpy_one]
    · have last : rb.bufferSize.toNat - (rb.writeIndex &&& (rb.bufferSize - 1)).toNat = 1 := by
        omega
      rw [last, memcpy_one, Nat.sub_self, memcpy_zero]

/-- One byte is got from where the read index points, unless the buffer is empty. -/
theorem rtRingbufferGet_one (some_ : 0 < rb.bufferSize.toNat) (ptr : Nat → Byte) :
    rtRingbufferGet rb ptr 1 =
      if rb.readIndex = rb.writeIndex then (rb, ptr, 0)
      else
        ({ rb with readIndex := rb.readIndex + 1 },
          Function.update ptr 0 (rb.buffer (rb.readIndex &&& (rb.bufferSize - 1)).toNat), 1) := by
  have inside := Ringbuffer.and_mask_lt some_ rb.readIndex
  unfold rtRingbufferGet
  dsimp only
  have empty : rb.writeIndex.setWidth 32 - rb.readIndex.setWidth 32 = (0 : BitVec 32) ↔
      rb.readIndex = rb.writeIndex := by
    constructor
    · intro same
      refine BitVec.eq_of_toNat_eq ?_
      have wide : rb.writeIndex.setWidth 32 = rb.readIndex.setWidth 32 := by bv_omega
      have equal := congrArg BitVec.toNat wide
      rw [BitVec.toNat_setWidth_of_le (by decide), BitVec.toNat_setWidth_of_le (by decide)] at equal
      exact equal.symm
    · intro same
      rw [same]
      exact BitVec.sub_self _
  rw [if_congr empty rfl rfl]
  split
  · rfl
  · rename_i some'
    rw [← empty] at some'
    have length : (if rb.writeIndex.setWidth 32 - rb.readIndex.setWidth 32 <
        (1 : BitVec 16).setWidth 32 then
          (rb.writeIndex.setWidth 32 - rb.readIndex.setWidth 32).setWidth 16 else 1) =
        (1 : BitVec 16) := by
      refine if_neg fun less => some' ?_
      have one : (1 : BitVec 16).setWidth 32 = (1 : BitVec 32) := rfl
      rw [one] at less
      bv_omega
    rw [length]
    have one : (1 : BitVec 16).toNat = 1 := rfl
    rw [one]
    rw [if_pos (by omega), memcpy_one]

/-- The write index has wrapped around, the read index has not, and the buffer is full. -/
def Ringbuffer.FullAround (rb : Ringbuffer) : Prop :=
  rb.writeIndex < rb.readIndex ∧ rb.writeIndex - rb.readIndex = rb.bufferSize

instance (rb : Ringbuffer) : Decidable rb.FullAround :=
  inferInstanceAs (Decidable (_ ∧ _))

/-- `rt_ringbuffer_getchar` does what `rt_ringbuffer_get` of one byte does. So does
`rt_ringbuffer_putchar` for `rt_ringbuffer_put`, unless the buffer is full and only the write
index has wrapped around. -/
theorem chars_agree (some_ : 0 < rb.bufferSize.toNat) (ptr : Nat → Byte) :
    (rtRingbufferPutchar rb (ptr 0) = rtRingbufferPut rb ptr 1 ↔ ¬ rb.FullAround) ∧
      rtRingbufferGetchar rb ptr = rtRingbufferGet rb ptr 1 := by
  constructor
  · rw [rtRingbufferPut_one some_, rtRingbufferPutchar]
    by_cases full : rb.writeIndex - rb.readIndex = rb.bufferSize
    · rw [if_pos full]
      by_cases around : rb.writeIndex < rb.readIndex
      · have negative : ¬ (rb.writeIndex.toNat : Int) - rb.readIndex.toNat =
            rb.bufferSize.toNat := by
          rw [BitVec.lt_def] at around
          omega
        rw [if_neg negative]
        exact iff_of_false (fun same => absurd (congrArg Prod.snd same) (by simp))
          (not_not_intro ⟨around, full⟩)
      · have seen : (rb.writeIndex.toNat : Int) - rb.readIndex.toNat = rb.bufferSize.toNat := by
          bv_omega
        rw [if_pos seen]
        exact iff_of_true rfl fun both => around both.1
    · have unseen : ¬ (rb.writeIndex.toNat : Int) - rb.readIndex.toNat = rb.bufferSize.toNat := by
        intro seen
        refine full ?_
        bv_omega
      rw [if_neg unseen, if_neg full]
      exact iff_of_true rfl fun both => full both.2
  · rw [rtRingbufferGet_one some_]
    rfl

end

/-- The write index has wrapped around and the read index has not, in a buffer with room for one
byte. -/
theorem chars_agree_wrapped : ∃ calls results rb,
    ringbufferMachine.Run (fun _ _ => True) (rtRingbufferInit (fun _ => 0) 32768) calls results rb ∧
      rb.writeIndex < rb.readIndex ∧
      rtRingbufferPutchar rb 7 = rtRingbufferPut rb (fun _ => 7) 1 ∧
      rtRingbufferGetchar rb (fun _ => 7) = rtRingbufferGet rb (fun _ => 7) 1 := by
  have executed : (ringbufferMachine.execute (rtRingbufferInit (fun _ => 0) 32768)
      [.put (fun _ => 1) 32768, .get (fun _ => 0) 32768, .put (fun _ => 2) 32768,
        .get (fun _ => 0) 1]).map (fun (rb, _) => (rb.readIndex, rb.writeIndex, rb.bufferSize)) =
          some (32769, 0, 32768) := by decide +kernel
  obtain ⟨⟨rb, results⟩, result, fields⟩ := Option.map_eq_some_iff.mp executed
  obtain ⟨readIndex, rest⟩ := Prod.mk.inj fields
  obtain ⟨writeIndex, bufferSize⟩ := Prod.mk.inj rest
  obtain ⟨putchar, getchar⟩ := @chars_agree rb (by rw [bufferSize]; decide) fun _ => 7
  refine ⟨_, results, rb, Machine.run_of_execute (fun _ _ _ => trivial) result, ?_, ?_, getchar⟩
  · rw [readIndex, writeIndex]
    decide
  · refine putchar.mpr fun full => ?_
    rw [Ringbuffer.FullAround, readIndex, writeIndex, bufferSize] at full
    revert full
    decide

/-- After 65536 bytes have been put and 32768 of them got, the buffer is full. Another byte is
refused by `rt_ringbuffer_put`, and stored by `rt_ringbuffer_putchar`. -/
theorem putchar_overfills : ∃ calls results rb,
    ringbufferMachine.Run (fun _ _ => True) (rtRingbufferInit (fun _ => 0) 32768) calls results rb ∧
      rtRingbufferPut rb (fun _ => 7) 1 = (rb, 0) ∧ (rtRingbufferPutchar rb 7).2 = 1 := by
  have executed : (ringbufferMachine.execute (rtRingbufferInit (fun _ => 0) 32768)
      [.put (fun _ => 1) 32768, .get (fun _ => 0) 32768, .put (fun _ => 2) 32768]).map
        (fun (rb, _) => (rb.readIndex, rb.writeIndex, rb.bufferSize)) =
          some (32768, 0, 32768) := by decide +kernel
  obtain ⟨⟨rb, results⟩, result, fields⟩ := Option.map_eq_some_iff.mp executed
  obtain ⟨readIndex, rest⟩ := Prod.mk.inj fields
  obtain ⟨writeIndex, bufferSize⟩ := Prod.mk.inj rest
  refine ⟨_, results, rb, Machine.run_of_execute (fun _ _ _ => trivial) result, ?_, ?_⟩
  · rw [rtRingbufferPut_one (by rw [bufferSize]; decide), readIndex, writeIndex, bufferSize]
    exact if_pos (by decide)
  · rw [rtRingbufferPutchar, readIndex, writeIndex, bufferSize, if_neg (by decide)]

end RtThread
