import Mathlib

/-!
# The offset of a Thumb branch

The 32-bit branches of Thumb-2 scatter their offset over two half-words. Reading the offset and
writing another one into the same instruction are inverse to each other.
-/

namespace RtThread.Std

/-- The two half-words of a branch. -/
structure ThumbBranch where
  upper : BitVec 16
  lower : BitVec 16
deriving DecidableEq, Repr

namespace ThumbBranch

def s (branch : ThumbBranch) : Bool := branch.upper.getLsbD 10
def j1 (branch : ThumbBranch) : Bool := branch.lower.getLsbD 13
def j2 (branch : ThumbBranch) : Bool := branch.lower.getLsbD 11

/-- `S:I1:I2:imm10:imm11:0`, where `I1` is the complement of `J1` exclusive-or `S`, and `I2` that
of `J2`. -/
def offset (branch : ThumbBranch) : BitVec 25 :=
  BitVec.ofBool branch.s ++ BitVec.ofBool (!(branch.j1 ^^ branch.s)) ++
    BitVec.ofBool (!(branch.j2 ^^ branch.s)) ++ branch.upper.extractLsb' 0 10 ++
    branch.lower.extractLsb' 0 11 ++ 0#1

/-- `J1` and `J2` for an offset. -/
def j1Of (offset : BitVec 25) : Bool := offset.getLsbD 24 ^^ !offset.getLsbD 23
def j2Of (offset : BitVec 25) : Bool := offset.getLsbD 24 ^^ !offset.getLsbD 22

/-- The same instruction with another offset. -/
def withOffset (branch : ThumbBranch) (offset : BitVec 25) : ThumbBranch where
  upper := branch.upper.extractLsb' 11 5 ++ BitVec.ofBool (offset.getLsbD 24) ++
    offset.extractLsb' 12 10
  lower := branch.lower.extractLsb' 14 2 ++ BitVec.ofBool (j1Of offset) ++
    branch.lower.extractLsb' 12 1 ++ BitVec.ofBool (j2Of offset) ++ offset.extractLsb' 1 11

/-- The bits that are no part of the offset. -/
def opcode (branch : ThumbBranch) : BitVec 16 × BitVec 16 :=
  (branch.upper &&& 0xf800, branch.lower &&& 0xd000)

variable {branch : ThumbBranch} {offset : BitVec 25} {i : Nat}

theorem offset_bit (below : i < 25) : branch.offset.getLsbD i =
    if i < 1 then false
    else if i < 12 then branch.lower.getLsbD (i - 1)
    else if i < 22 then branch.upper.getLsbD (i - 12)
    else if i < 23 then !(branch.j2 ^^ branch.s)
    else if i < 24 then !(branch.j1 ^^ branch.s)
    else branch.s := by
  rw [ThumbBranch.offset, BitVec.getLsbD_append, BitVec.getLsbD_append, BitVec.getLsbD_append,
    BitVec.getLsbD_append, BitVec.getLsbD_append]
  simp only [BitVec.getLsbD_ofBool, BitVec.getLsbD_extractLsb', BitVec.getLsbD_zero]
  have last : i - 24 = 0 := by omega
  grind

theorem upper_withOffset_bit : (branch.withOffset offset).upper.getLsbD i =
    if i < 10 then offset.getLsbD (i + 12)
    else if i = 10 then offset.getLsbD 24
    else branch.upper.getLsbD i := by
  have beyond : 16 ≤ i → branch.upper.getLsbD i = false := BitVec.getLsbD_of_ge _ _
  rw [withOffset, BitVec.getLsbD_append, BitVec.getLsbD_append]
  simp only [BitVec.getLsbD_ofBool, BitVec.getLsbD_extractLsb']
  grind

theorem lower_withOffset_bit : (branch.withOffset offset).lower.getLsbD i =
    if i < 11 then offset.getLsbD (i + 1)
    else if i = 11 then j2Of offset
    else if i = 13 then j1Of offset
    else branch.lower.getLsbD i := by
  have beyond : 16 ≤ i → branch.lower.getLsbD i = false := BitVec.getLsbD_of_ge _ _
  rw [withOffset, BitVec.getLsbD_append, BitVec.getLsbD_append, BitVec.getLsbD_append,
    BitVec.getLsbD_append]
  simp only [BitVec.getLsbD_ofBool, BitVec.getLsbD_extractLsb']
  grind

@[simp] theorem s_withOffset : (branch.withOffset offset).s = offset.getLsbD 24 :=
  upper_withOffset_bit

@[simp] theorem j1_withOffset : (branch.withOffset offset).j1 = j1Of offset :=
  lower_withOffset_bit

@[simp] theorem j2_withOffset : (branch.withOffset offset).j2 = j2Of offset :=
  lower_withOffset_bit

theorem clear_bit (offset : BitVec 25) (i : Nat) :
    (offset &&& ~~~1).getLsbD i = (offset.getLsbD i && decide (i ≠ 0)) := by
  have beyond : 25 ≤ i → offset.getLsbD i = false := BitVec.getLsbD_of_ge _ _
  rw [BitVec.getLsbD_and, BitVec.getLsbD_not, show (1 : BitVec 25) = 1#25 from rfl,
    BitVec.getLsbD_one]
  grind

/-- Bits one to eleven as a number. -/
theorem low_bits_iff {other : BitVec 25} :
    (∀ i < 12, 0 < i → offset.getLsbD i = other.getLsbD i) ↔
      offset.toNat / 2 % 2 ^ 11 = other.toNat / 2 % 2 ^ 11 := by
  constructor
  · intro same
    refine Nat.eq_of_testBit_eq fun i => ?_
    rw [Nat.testBit_mod_two_pow, Nat.testBit_mod_two_pow, Nat.testBit_div_two,
      Nat.testBit_div_two]
    by_cases below : i < 11
    · have bit := same (i + 1) (by omega) (Nat.succ_pos i)
      rw [BitVec.getLsbD, BitVec.getLsbD] at bit
      rw [bit]
    · rw [decide_eq_false below, Bool.false_and, Bool.false_and]
  · intro same i below some_
    have bit := congrArg (Nat.testBit · (i - 1)) same
    simp only [Nat.testBit_mod_two_pow, Nat.testBit_div_two, Nat.sub_add_cancel some_,
      decide_eq_true (show i - 1 < 11 by omega), Bool.true_and] at bit
    exact bit

/-- What has been written is read again, but for bit 0, which has no place in the instruction. -/
theorem offset_withOffset : (branch.withOffset offset).offset = offset &&& ~~~1 := by
  have complement (a b : Bool) : (!((a ^^ !b) ^^ a)) = b := by cases a <;> cases b <;> rfl
  refine BitVec.eq_of_getLsbD_eq fun i below => ?_
  rw [offset_bit below, s_withOffset, j1_withOffset, j2_withOffset, j1Of, j2Of, complement,
    complement, clear_bit]
  by_cases low : i < 12
  · rw [if_pos low, lower_withOffset_bit]
    grind
  · rw [upper_withOffset_bit]
    grind

theorem opcode_withOffset : (branch.withOffset offset).opcode = branch.opcode := by
  have mask : ∀ i < 16, (0xf800 : BitVec 16).getLsbD i = true → 11 ≤ i := by decide
  have mask' : ∀ i < 16, (0xd000 : BitVec 16).getLsbD i = true → i = 12 ∨ 14 ≤ i := by decide
  refine Prod.ext ?_ ?_
  · refine BitVec.eq_of_getLsbD_eq fun i below => ?_
    have set := mask i below
    rw [opcode, opcode, BitVec.getLsbD_and, BitVec.getLsbD_and, upper_withOffset_bit]
    grind
  · refine BitVec.eq_of_getLsbD_eq fun i below => ?_
    have set := mask' i below
    rw [opcode, opcode, BitVec.getLsbD_and, BitVec.getLsbD_and, lower_withOffset_bit]
    grind

/-- Opcode and offset make up the instruction. -/
theorem ext_of_opcode_offset {other : ThumbBranch} (opcode : branch.opcode = other.opcode)
    (same : branch.offset = other.offset) : branch = other := by
  have mask : ∀ i < 16, 11 ≤ i → (0xf800 : BitVec 16).getLsbD i = true := by decide
  have mask' : ∀ i < 16, i = 12 ∨ 14 ≤ i → (0xd000 : BitVec 16).getLsbD i = true := by decide
  have bit : ∀ i < 25, branch.offset.getLsbD i = other.offset.getLsbD i := fun i _ => by rw [same]
  have sign : branch.s = other.s := by
    have bit := bit 24 (by decide)
    rw [offset_bit (by decide), offset_bit (by decide)] at bit
    simpa using bit
  have first : branch.j1 = other.j1 := by
    have bit := bit 23 (by decide)
    rw [offset_bit (by decide), offset_bit (by decide), sign] at bit
    simpa using bit
  have second : branch.j2 = other.j2 := by
    have bit := bit 22 (by decide)
    rw [offset_bit (by decide), offset_bit (by decide), sign] at bit
    simpa using bit
  obtain ⟨upper, lower⟩ := Prod.mk.inj opcode
  obtain ⟨u, l⟩ := branch
  obtain ⟨u', l'⟩ := other
  rw [mk.injEq]
  constructor
  · refine BitVec.eq_of_getLsbD_eq fun i below => ?_
    have fixed := congrArg (·.getLsbD i) upper
    have set := mask i below
    simp only [BitVec.getLsbD_and] at fixed
    rcases Nat.lt_trichotomy i 10 with low | rfl | high
    · have bit := bit (i + 12) (by omega)
      rw [offset_bit (by omega), offset_bit (by omega)] at bit
      grind
    · exact sign
    · grind
  · refine BitVec.eq_of_getLsbD_eq fun i below => ?_
    have fixed := congrArg (·.getLsbD i) lower
    have set := mask' i below
    simp only [BitVec.getLsbD_and] at fixed
    by_cases low : i < 11
    · have bit := bit (i + 1) (by omega)
      rw [offset_bit (by omega), offset_bit (by omega)] at bit
      grind
    · have places : i = 11 ∨ i = 13 ∨ i = 12 ∨ 14 ≤ i := by omega
      rcases places with rfl | rfl | other
      · exact second
      · exact first
      · grind

/-- When the second half-word stays as it is, the offset that is read is the one that has been
written if and only if the half-word was to stay. -/
theorem offset_upper_iff :
    (ThumbBranch.mk (branch.withOffset offset).upper branch.lower).offset = offset &&& ~~~1 ↔
      (branch.withOffset offset).lower = branch.lower := by
  constructor
  · intro same
    have kept := @opcode_withOffset branch offset
    have equal : mk (branch.withOffset offset).upper branch.lower = branch.withOffset offset :=
      ext_of_opcode_offset (Prod.ext rfl (Prod.mk.inj kept).2.symm)
        (same.trans offset_withOffset.symm)
    exact (congrArg lower equal).symm
  · intro same
    rw [← same]
    exact offset_withOffset

/-- The second half-word stays when `J1`, `J2` and the last bits of the offset do. -/
theorem lower_withOffset_eq_iff : (branch.withOffset offset).lower = branch.lower ↔
    j1Of offset = branch.j1 ∧ j2Of offset = branch.j2 ∧
      ∀ i < 12, 0 < i → offset.getLsbD i = branch.offset.getLsbD i := by
  constructor
  · intro same
    refine ⟨?_, ?_, fun i below some_ => ?_⟩
    · rw [j1, ← same]
      exact j1_withOffset.symm
    · rw [j2, ← same]
      exact j2_withOffset.symm
    · have bit := @lower_withOffset_bit branch offset (i - 1)
      rw [offset_bit (by omega)]
      grind
  · rintro ⟨first, second, rest⟩
    refine BitVec.eq_of_getLsbD_eq fun i below => ?_
    rw [lower_withOffset_bit, first, second]
    split
    · have bit := rest (i + 1) (by omega) (Nat.succ_pos i)
      rw [offset_bit (by omega)] at bit
      grind
    · split
      · subst i
        rfl
      · split
        · subst i
          rfl
        · rfl

end ThumbBranch

end RtThread.Std
