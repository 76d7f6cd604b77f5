import RtThread.Std.RingBuffer

/-!
# Indices that run freely

Two indices of `w` bits run over a circular buffer and are only masked where a slot
is meant. The buffer has `2 ^ power` slots, so that wrapping around does not matter
to the slots, and fewer than `2 ^ w`, so that the difference of the indices is the
number of items.
-/

namespace RtThread.Std

universe u

variable {α : Type u} {w : Nat}

/-- The slots from `front` on, up to `back`, hold `queue`. -/
structure FreeRunning (size : Nat) (slots : Nat → α) (front back : BitVec w) (queue : List α) :
    Prop where
  fills : Fills size slots (front.toNat % size) (back.toNat % size) queue
  distance : back.toNat = (front.toNat + queue.length) % 2 ^ w

/-- A size that a mask works for. -/
def MaskSize (w size : Nat) : Prop := ∃ power < w, size = 2 ^ power

/-- Where no mask works, the mask that is used maps a power below the size to slot 0. -/
theorem exists_hole {size : Nat} (positive : 0 < size) (unmasked : ¬ ∃ power, size = 2 ^ power) :
    ∃ power, 2 ^ power < size ∧ 2 ^ power &&& (size - 1) = 0 := by
  by_contra none_
  push Not at none_
  have many : size ≠ 1 := by
    rintro rfl
    exact unmasked ⟨0, rfl⟩
  obtain ⟨mask, isMask⟩ : ∃ mask, size - 1 = mask := ⟨_, rfl⟩
  have bits : ∀ power, 2 ^ power ≤ mask → mask.testBit power = true := by
    intro power below
    by_contra clear
    refine none_ power (by omega) (Nat.eq_of_testBit_eq fun bit => ?_)
    rw [isMask, Nat.testBit_and, Nat.testBit_two_pow, Nat.zero_testBit]
    by_cases same : power = bit
    · rw [← same, Bool.eq_false_iff.mpr clear, Bool.and_false]
    · rw [decide_eq_false same, Bool.false_and]
  refine unmasked ⟨mask.log2 + 1, ?_⟩
  have whole : mask = 2 ^ (mask.log2 + 1) - 1 := by
    refine Nat.eq_of_testBit_eq fun bit => ?_
    rw [Nat.testBit_two_pow_sub_one]
    by_cases low : bit < mask.log2 + 1
    · rw [decide_eq_true low]
      refine bits bit ((Nat.pow_le_pow_right (by decide) (Nat.le_of_lt_succ low)).trans ?_)
      exact Nat.log2_self_le (by omega)
    · rw [decide_eq_false low]
      refine Nat.testBit_lt_two_pow (Nat.lt_log2_self.trans_le ?_)
      exact Nat.pow_le_pow_right (by decide) (Nat.le_of_not_lt low)
  have positive' := Nat.two_pow_pos (mask.log2 + 1)
  omega

namespace MaskSize

variable {size : Nat}

theorem dvd (valid : MaskSize w size) : size ∣ 2 ^ w := by
  obtain ⟨power, upper, rfl⟩ := valid
  exact Nat.pow_dvd_pow 2 upper.le

theorem lt (valid : MaskSize w size) : size < 2 ^ w := by
  obtain ⟨power, upper, rfl⟩ := valid
  exact Nat.pow_lt_pow_right (by decide) upper

theorem pos (valid : MaskSize w size) : 0 < size := by
  obtain ⟨power, -, rfl⟩ := valid
  exact Nat.two_pow_pos power

theorem one_toNat (valid : MaskSize w size) : (1 : BitVec w).toNat = 1 := by
  have below := valid.lt
  have positive := valid.pos
  simpa using Nat.mod_eq_of_lt (show 1 < 2 ^ w by omega)

/-- The mask takes an index to its slot. -/
theorem and_mask (valid : MaskSize w size) {bound : BitVec w} (same : bound.toNat = size)
    (index : BitVec w) : (index &&& (bound - 1)).toNat = index.toNat % size := by
  have positive := valid.pos
  have mask : (bound - 1).toNat = size - 1 := by
    rw [BitVec.toNat_sub, valid.one_toNat, same]
    have below := valid.lt
    rw [show 2 ^ w - 1 + size = (size - 1) + 2 ^ w by omega, Nat.add_mod_right,
      Nat.mod_eq_of_lt (by omega)]
  obtain ⟨power, -, rfl⟩ := valid
  rw [BitVec.toNat_and, mask, Nat.and_two_pow_sub_one_eq_mod]

/-- An index and its slot advance together. -/
theorem advance (valid : MaskSize w size) (index count : BitVec w) :
    (index + count).toNat % size = (index.toNat % size + count.toNat) % size := by
  rw [BitVec.toNat_add, Nat.mod_mod_of_dvd _ valid.dvd, Nat.mod_add_mod]

end MaskSize

namespace FreeRunning

variable {size : Nat} {slots : Nat → α} {front back : BitVec w} {queue : List α} {item : α}

theorem nil (valid : MaskSize w size) (slots : Nat → α) (index : BitVec w) :
    FreeRunning size slots index index [] where
  fills := Fills.nil (Nat.mod_lt _ valid.pos)
  distance := (Nat.mod_eq_of_lt index.isLt).symm

theorem length_le (free : FreeRunning size slots front back queue) : queue.length ≤ size :=
  free.fills.room

/-- The difference of the indices is the number of items. -/
theorem count (free : FreeRunning size slots front back queue) (valid : MaskSize w size) :
    (back - front).toNat = queue.length := by
  have room := free.length_le
  have below := valid.lt
  have inside := front.isLt
  rw [BitVec.toNat_sub, free.distance, Nat.add_mod_mod,
    show 2 ^ w - front.toNat + (front.toNat + queue.length) = queue.length + 2 ^ w by omega,
    Nat.add_mod_right, Nat.mod_eq_of_lt (by omega)]

theorem empty_iff (free : FreeRunning size slots front back queue) (valid : MaskSize w size) :
    front = back ↔ queue = [] := by
  have counted := free.count valid
  rw [← List.length_eq_zero_iff, ← counted]
  constructor
  · rintro rfl
    simp
  · intro none_
    have zero : back - front = 0#w := BitVec.eq_of_toNat_eq (by simpa using none_)
    have same := BitVec.sub_eq_iff_eq_add.mp zero
    rw [BitVec.zero_add] at same
    exact same.symm

/-- Store some items behind the last one. -/
theorem append {slots' : Nat → α} {items : List α} {amount : BitVec w}
    (free : FreeRunning size slots front back queue) (valid : MaskSize w size)
    (room : queue.length + items.length ≤ size) (counted : amount.toNat = items.length)
    (stored : ∀ (offset : Nat) (bound : offset < items.length),
      slots' ((back.toNat % size + offset) % size) = items[offset])
    (kept : ∀ slot < size,
      (∀ offset < items.length, slot ≠ (back.toNat % size + offset) % size) →
        slots' slot = slots slot) :
    FreeRunning size slots' front (back + amount) (queue ++ items) := by
  constructor
  · rw [valid.advance, counted]
    exact free.fills.append room stored kept
  · rw [BitVec.toNat_add, free.distance, counted, List.length_append, Nat.mod_add_mod,
      Nat.add_assoc]

/-- Take some of the items. -/
theorem drop {amount : BitVec w} (free : FreeRunning size slots front back queue)
    (valid : MaskSize w size) (bound : amount.toNat ≤ queue.length) :
    FreeRunning size slots (front + amount) back (queue.drop amount.toNat) := by
  constructor
  · rw [valid.advance]
    exact free.fills.drop bound
  · rw [BitVec.toNat_add, free.distance, List.length_drop, Nat.mod_add_mod, Nat.add_assoc,
      Nat.add_sub_cancel' bound]

/-- Store an item behind the last one. -/
theorem push (free : FreeRunning size slots front back queue) (valid : MaskSize w size)
    (room : queue.length < size) (item : α) :
    FreeRunning size (Function.update slots (back.toNat % size) item) front (back + 1)
      (queue ++ [item]) := by
  refine free.append valid (Nat.succ_le_of_lt room) valid.one_toNat ?_ ?_
  · intro offset bound
    obtain rfl : offset = 0 := by simpa using bound
    simp
  · intro slot _ outside
    have apart := outside 0 (by simp)
    rw [Nat.add_zero, Nat.mod_mod] at apart
    exact Function.update_of_ne apart ..

/-- Take the first item. -/
theorem pop (free : FreeRunning size slots front back (item :: queue))
    (valid : MaskSize w size) :
    slots (front.toNat % size) = item ∧ FreeRunning size slots (front + 1) back queue := by
  constructor
  · exact free.fills.pop.1
  · have positive : (1 : BitVec w).toNat ≤ (item :: queue).length := by
      rw [valid.one_toNat]
      simp
    have rest := free.drop valid positive
    rwa [valid.one_toNat] at rest

end FreeRunning

end RtThread.Std
