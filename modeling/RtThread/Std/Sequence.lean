import Mathlib

/-!
# Serial numbers

The places of a stream are named by their number modulo `2 ^ width`, however long the stream is. Of
two places that are less than half of the numbers apart, the signed difference of the numbers tells
which one comes first.
-/

namespace RtThread.Std

variable {width : Nat} {base : BitVec width} {a b : Nat}

/-- The number of the place `a`, where the first place has the number `base`. -/
def serial (base : BitVec width) (a : Nat) : BitVec width := base + BitVec.ofNat width a

theorem serial_zero (base : BitVec width) : serial base 0 = base := BitVec.add_zero base

theorem serial_add (base : BitVec width) (a count : Nat) :
    serial base (a + count) = serial base a + BitVec.ofNat width count := by
  rw [serial, serial, BitVec.ofNat_add, BitVec.add_assoc]

/-- Less than half of the numbers lie between two places. -/
structure Comparable (width a b : Nat) : Prop where
  left : a < b + 2 ^ (width - 1)
  right : b < a + 2 ^ (width - 1)

theorem Comparable.symm (near : Comparable width a b) : Comparable width b a := ⟨near.right, near.left⟩

/-- The difference of the numbers is that of the places. -/
theorem serial_sub_toInt (near : Comparable width a b) :
    (serial base a - serial base b).toInt = (a : Int) - b := by
  obtain ⟨left, right⟩ := near
  rw [serial, serial, add_sub_add_left_eq_sub, BitVec.toInt_sub, BitVec.toInt_ofNat',
    BitVec.toInt_ofNat', Int.bmod_sub_bmod, Int.sub_bmod_bmod]
  rcases Nat.eq_zero_or_pos width with rfl | wide
  · obtain rfl : a = b := by omega
    simp
  · have split : 2 ^ width = 2 * 2 ^ (width - 1) := by
      rw [← Nat.pow_succ', Nat.succ_eq_add_one, Nat.sub_add_cancel wide]
    apply Int.bmod_eq_of_le
    · rw [split]
      omega
    · rw [split]
      omega

/-- Different places have different numbers. -/
theorem serial_inj (near : Comparable width a b) : serial base a = serial base b ↔ a = b := by
  refine ⟨fun same => ?_, congrArg _⟩
  have apart : (serial base a - serial base b).toInt = (a : Int) - b := serial_sub_toInt near
  rw [same, sub_self] at apart
  simp at apart
  omega

/-- The number of places from one to a later one, where it fits into fewer bits. -/
theorem serial_sub_toNat {short : Nat} (order : a ≤ b) (below : b - a < 2 ^ short)
    (narrow : short ≤ width) : ((serial base b - serial base a).setWidth short).toNat = b - a := by
  obtain ⟨count, rfl⟩ := Nat.exists_eq_add_of_le order
  rw [Nat.add_sub_cancel_left] at below ⊢
  rw [serial_add, add_sub_cancel_left, BitVec.toNat_setWidth, BitVec.toNat_ofNat,
    Nat.mod_mod_of_dvd _ (Nat.pow_dvd_pow 2 narrow), Nat.mod_eq_of_lt below]

/-- How far a number is from another place. -/
theorem sub_serial_toInt {x : BitVec width} (near : Comparable width a b)
    (lower : -(2 ^ (width - 1) : Int) ≤ (x - serial base a).toInt + a - b)
    (upper : (x - serial base a).toInt + a - b < 2 ^ (width - 1)) :
    (x - serial base b).toInt = (x - serial base a).toInt + a - b := by
  have split : x - serial base b = x - serial base a + (serial base a - serial base b) := by
    rw [sub_add_sub_cancel]
  rcases Nat.eq_zero_or_pos width with rfl | wide
  · obtain ⟨left, right⟩ := near
    obtain rfl : a = b := by omega
    rw [Int.add_sub_cancel]
  · rw [split, BitVec.toInt_add, serial_sub_toInt near, ← Int.add_sub_assoc]
    have whole : (2 ^ width : Int) = 2 * 2 ^ (width - 1) := by
      rw [← Int.pow_succ', Nat.sub_add_cancel wide]
    apply Int.bmod_eq_of_le
    · push_cast
      rw [whole]
      omega
    · push_cast
      rw [whole]
      omega

/-- A number that is not behind a place is the number of a later one. -/
theorem eq_serial {x : BitVec width} (order : 0 ≤ (x - serial base a).toInt) :
    x = serial base (a + (x - serial base a).toInt.toNat) := by
  have back : BitVec.ofNat width (x - serial base a).toInt.toNat = x - serial base a := by
    have same : ((x - serial base a).toInt.toNat : Int) = (x - serial base a).toInt :=
      Int.toNat_of_nonneg order
    rw [← BitVec.ofInt_natCast, same, BitVec.ofInt_toInt]
  rw [serial_add, back, add_sub_cancel]

end RtThread.Std
