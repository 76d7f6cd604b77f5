import RtThread.Std.ThumbBranch
import RtThread.Memory.WordRoutines

/-!
# Relocating a module

`rt_module_arm_relocate` of `module.c`. The memory is little-endian, and an address may be odd.
-/

namespace RtThread

open RtThread.Std

/-! ## Relocation types -/

def rArmNone : BitVec 8 := 0
def rArmPc24 : BitVec 8 := 1
def rArmAbs32 : BitVec 8 := 2
def rArmRel32 : BitVec 8 := 3
def rArmThmCall : BitVec 8 := 10
def rArmGlobDat : BitVec 8 := 21
def rArmJumpSlot : BitVec 8 := 22
def rArmRelative : BitVec 8 := 23
def rArmPlt32 : BitVec 8 := 27
def rArmCall : BitVec 8 := 28
def rArmJump24 : BitVec 8 := 29
def rArmThmJump24 : BitVec 8 := 30
def rArmV4bx : BitVec 8 := 40

structure Elf32Rel where
  rOffset : BitVec 32
  rInfo : BitVec 32
deriving DecidableEq, Repr

/-- `ELF32_R_TYPE`. -/
def elf32RType (info : BitVec 32) : BitVec 8 := info.setWidth 8

namespace ByteMemory

def loadHalf (memory : ByteMemory) (address : BitVec 32) : BitVec 16 :=
  memory (address + 1) ++ memory address

def storeHalf (memory : ByteMemory) (address : BitVec 32) (half : BitVec 16) : ByteMemory :=
  let memory := memory.storeByte address (half.extractLsb' 0 8)
  memory.storeByte (address + 1) (half.extractLsb' 8 8)

/-- The offset that the source puts together from `upper` and `lower`. -/
def thumbBits (upper lower : BitVec 32) : BitVec 32 :=
  let sign := (upper >>> 10) &&& 1
  let j1 := (lower >>> 13) &&& 1
  let j2 := (lower >>> 11) &&& 1
  (sign <<< 24) ||| ((~~~(j1 ^^^ sign) &&& 1) <<< 23) ||| ((~~~(j2 ^^^ sign) &&& 1) <<< 22) |||
    ((upper &&& 0x03ff) <<< 12) ||| ((lower &&& 0x07ff) <<< 1)

/-- The same with its sign. -/
def thumbOffset (upper lower : BitVec 32) : BitVec 32 :=
  let offset := thumbBits upper lower
  if offset &&& 0x01000000 ≠ 0 then offset - 0x02000000 else offset

/-- The half-words that the source puts together from `offset`. -/
def thumbUpper (upper offset : BitVec 32) : BitVec 16 :=
  let sign := (offset.sshiftRight 24) &&& 1
  ((upper &&& 0xf800) ||| (sign <<< 10) ||| ((offset.sshiftRight 12) &&& 0x03ff)).setWidth 16

def thumbLower (lower offset : BitVec 32) : BitVec 16 :=
  let sign := (offset.sshiftRight 24) &&& 1
  let j1 := sign ^^^ (~~~(offset.sshiftRight 23) &&& 1)
  let j2 := sign ^^^ (~~~(offset.sshiftRight 22) &&& 1)
  ((lower &&& 0xd000) ||| (j1 <<< 13) ||| (j2 <<< 11) |||
    ((offset.sshiftRight 1) &&& 0x07ff)).setWidth 16

/-- `R_ARM_THM_CALL` and `R_ARM_THM_JUMP24`. As `where` points at words, `where + 2` is eight bytes
behind it. -/
def relocateThumb (memory : ByteMemory) (where_ symVal : BitVec 32) : ByteMemory × Int :=
  let upper := (memory.loadHalf where_).setWidth 32
  let lower := (memory.loadHalf (where_ + 2)).setWidth 32
  let offset := thumbOffset upper lower + (symVal - where_)
  if offset &&& 1 = 0 ∨ offset.toInt ≤ (0xff000000 : BitVec 32).toInt ∨
      (0x01000000 : BitVec 32).toInt ≤ offset.toInt then (memory, -1)
  else
    let memory := memory.storeHalf where_ (thumbUpper upper offset)
    let memory := memory.storeHalf (where_ + 2 * 4) (thumbLower lower offset)
    (memory, 0)

/-- The memory, and the result. -/
def rtModuleArmRelocate (memory : ByteMemory) (moduleSpace : BitVec 32) (rel : Elf32Rel)
    (symVal : BitVec 32) : ByteMemory × Int :=
  let where_ := moduleSpace + rel.rOffset
  let type := elf32RType rel.rInfo
  if type = rArmNone then (memory, 0)
  else if type = rArmAbs32 then (memory.storeWord where_ (memory.loadWord where_ + symVal), 0)
  else if type = rArmPc24 ∨ type = rArmPlt32 ∨ type = rArmCall ∨ type = rArmJump24 then
    let addend := memory.loadWord where_ &&& 0x00ffffff
    let addend := if addend &&& 0x00800000 ≠ 0 then addend ||| 0xff000000 else addend
    let tmp := (symVal - where_ + (addend <<< 2)) >>> 2
    (memory.storeWord where_ ((memory.loadWord where_ &&& 0xff000000) ||| (tmp &&& 0x00ffffff)), 0)
  else if type = rArmRel32 then
    (memory.storeWord where_ (memory.loadWord where_ + (symVal - where_)), 0)
  else if type = rArmV4bx then
    (memory.storeWord where_ ((memory.loadWord where_ &&& 0xf000000f) ||| 0x01a0f000), 0)
  else if type = rArmGlobDat ∨ type = rArmJumpSlot then (memory.storeWord where_ symVal, 0)
  else if type = rArmRelative then
    (memory.storeWord where_ (symVal + memory.loadWord where_), 0)
  else if type = rArmThmCall ∨ type = rArmThmJump24 then memory.relocateThumb where_ symVal
  else (memory, -1)

/-! ## Half-words -/

section

variable {memory : ByteMemory} {address a : BitVec 32} {half : BitVec 16}

theorem ne_succ (a : BitVec 32) : a ≠ a + 1 := by
  bv_omega

theorem add_ne_add {i j : BitVec 32} (apart : i ≠ j) : address + i ≠ address + j :=
  (add_right_injective address).ne apart

theorem loadHalf_storeHalf : (memory.storeHalf address half).loadHalf address = half := by
  have second : (memory.storeHalf address half) (address + 1) = half.extractLsb' 8 8 :=
    Function.update_self ..
  have first : (memory.storeHalf address half) address = half.extractLsb' 0 8 := by
    rw [storeHalf, storeByte_of_ne (ne_succ address)]
    exact Function.update_self ..
  rw [loadHalf, second, first]
  refine BitVec.eq_of_getLsbD_eq fun i below => ?_
  rw [BitVec.getLsbD_append, BitVec.getLsbD_extractLsb', BitVec.getLsbD_extractLsb']
  grind

theorem storeHalf_frame (first : a ≠ address) (second : a ≠ address + 1) :
    memory.storeHalf address half a = memory a := by
  rw [storeHalf, storeByte_of_ne second, storeByte_of_ne first]

theorem loadHalf_frame {i j : BitVec 32} (same : i ≠ j) (first : i ≠ j + 1) (second : i + 1 ≠ j) :
    (memory.storeHalf (address + j) half).loadHalf (address + i) =
      memory.loadHalf (address + i) := by
  have both : i + 1 ≠ j + 1 := fun equal => same (add_right_cancel equal)
  rw [loadHalf, loadHalf, add_assoc,
    storeHalf_frame (add_ne_add same) (by rw [add_assoc]; exact add_ne_add first),
    storeHalf_frame (add_ne_add second) (by rw [add_assoc]; exact add_ne_add both)]

theorem loadHalf_ext {memory' : ByteMemory} :
    memory.loadHalf address = memory'.loadHalf address ↔
      memory address = memory' address ∧ memory (address + 1) = memory' (address + 1) := by
  constructor
  · intro same
    rw [loadHalf, loadHalf] at same
    have bit (i : Nat) := congrArg (·.getLsbD i) same
    simp only [BitVec.getLsbD_append] at bit
    refine ⟨BitVec.eq_of_getLsbD_eq fun i below => ?_, BitVec.eq_of_getLsbD_eq fun i below => ?_⟩
    · have bit := bit i
      grind
    · have bit := bit (i + 8)
      grind
  · rintro ⟨first, second⟩
    rw [loadHalf, loadHalf, first, second]

end

/-! ## The offset -/

/-- The instruction at an address. -/
def thumbAt (memory : ByteMemory) (address : BitVec 32) : ThumbBranch :=
  ⟨memory.loadHalf address, memory.loadHalf (address + 2)⟩

section

variable {i : Nat}

theorem one_bit : (1 : BitVec 32).getLsbD i = decide (i = 0) := by
  rw [show (1 : BitVec 32) = 1#32 from rfl, BitVec.getLsbD_one]
  rfl

theorem imm10_bit : (0x03ff : BitVec 32).getLsbD i = decide (i < 10) := by
  by_cases below : i < 32
  · revert i
    decide
  · rw [BitVec.getLsbD_of_ge _ _ (Nat.le_of_not_lt below), decide_eq_false (by omega)]

theorem imm11_bit : (0x07ff : BitVec 32).getLsbD i = decide (i < 11) := by
  by_cases below : i < 32
  · revert i
    decide
  · rw [BitVec.getLsbD_of_ge _ _ (Nat.le_of_not_lt below), decide_eq_false (by omega)]

end

theorem thumbBits_eq (branch : ThumbBranch) :
    thumbBits (branch.upper.setWidth 32) (branch.lower.setWidth 32) =
      branch.offset.setWidth 32 := by
  refine BitVec.eq_of_getLsbD_eq fun i below => ?_
  have beyond : 25 ≤ i → branch.offset.getLsbD i = false := BitVec.getLsbD_of_ge _ _
  have read := @ThumbBranch.offset_bit branch i
  simp only [ThumbBranch.s, ThumbBranch.j1, ThumbBranch.j2] at read
  simp only [thumbBits, BitVec.getLsbD_or, BitVec.getLsbD_shiftLeft, BitVec.getLsbD_and,
    BitVec.getLsbD_not, BitVec.getLsbD_xor, BitVec.getLsbD_ushiftRight, BitVec.getLsbD_setWidth,
    imm10_bit, imm11_bit, one_bit]
  interval_cases i <;> simp_all

/-- Bit 24 is the sign. -/
theorem thumbOffset_eq (branch : ThumbBranch) :
    thumbOffset (branch.upper.setWidth 32) (branch.lower.setWidth 32) =
      branch.offset.signExtend 32 := by
  have sign : branch.offset.setWidth 32 &&& 0x01000000 ≠ 0 ↔ branch.offset.msb = true := by
    rw [show (0x01000000 : BitVec 32) = BitVec.twoPow 32 24 from rfl, BitVec.and_twoPow,
      BitVec.getLsbD_setWidth, BitVec.msb_eq_getLsbD_last]
    cases branch.offset.getLsbD 24 <;> decide
  simp only [thumbOffset, thumbBits_eq, sign]
  refine BitVec.eq_of_toNat_eq ?_
  rw [BitVec.toNat_signExtend, BitVec.toNat_setWidth_of_le (by decide)]
  split
  · rename_i negative
    have large := BitVec.msb_eq_true_iff_two_mul_ge.mp negative
    have period : (0x02000000 : BitVec 32).toNat = 2 ^ 25 := rfl
    rw [BitVec.toNat_sub, BitVec.toNat_setWidth_of_le (by decide), period]
    omega
  · rw [BitVec.toNat_setWidth_of_le (by decide)]
    rfl

theorem thumbUpper_eq (branch : ThumbBranch) (offset : BitVec 32) :
    thumbUpper (branch.upper.setWidth 32) offset =
      (branch.withOffset (offset.setWidth 25)).upper := by
  refine BitVec.eq_of_getLsbD_eq fun i below => ?_
  rw [ThumbBranch.upper_withOffset_bit]
  simp only [thumbUpper, BitVec.getLsbD_or, BitVec.getLsbD_shiftLeft, BitVec.getLsbD_and,
    BitVec.getLsbD_sshiftRight, BitVec.getLsbD_setWidth, imm10_bit, one_bit]
  interval_cases i <;> simp

theorem thumbLower_eq (branch : ThumbBranch) (offset : BitVec 32) :
    thumbLower (branch.lower.setWidth 32) offset =
      (branch.withOffset (offset.setWidth 25)).lower := by
  refine BitVec.eq_of_getLsbD_eq fun i below => ?_
  rw [ThumbBranch.lower_withOffset_bit]
  simp only [thumbLower, ThumbBranch.j1Of, ThumbBranch.j2Of, BitVec.getLsbD_or,
    BitVec.getLsbD_shiftLeft, BitVec.getLsbD_and, BitVec.getLsbD_xor, BitVec.getLsbD_not,
    BitVec.getLsbD_sshiftRight, BitVec.getLsbD_setWidth, imm11_bit, one_bit]
  interval_cases i <;> simp

theorem setWidth_signExtend (offset : BitVec 25) :
    (offset.signExtend 32).setWidth 25 = offset := by
  refine BitVec.eq_of_getLsbD_eq fun i below => ?_
  have wide : i < 32 := by omega
  rw [BitVec.getLsbD_setWidth, BitVec.getLsbD_signExtend, if_pos below, decide_eq_true below,
    decide_eq_true wide, Bool.true_and, Bool.true_and]

/-- An offset in the range that the source checks fits into an instruction. -/
theorem signExtend_setWidth {offset : BitVec 32}
    (above : (0xff000000 : BitVec 32).toInt < offset.toInt)
    (below : offset.toInt < (0x01000000 : BitVec 32).toInt) :
    (offset.setWidth 25).signExtend 32 = offset := by
  refine BitVec.eq_of_toInt_eq ?_
  rw [BitVec.toInt_signExtend_of_le (by decide), BitVec.toInt_setWidth]
  have least : (0xff000000 : BitVec 32).toInt = -16777216 := by decide
  have bound : (0x01000000 : BitVec 32).toInt = 16777216 := by decide
  have value := BitVec.toInt_eq_toNat_bmod offset
  rw [Int.bmod_def] at value ⊢
  omega

/-! ## When the call is relocated -/

variable {memory : ByteMemory} {where_ symVal : BitVec 32}

/-- The offset of the instruction after relocation. -/
def thumbTarget (memory : ByteMemory) (where_ symVal : BitVec 32) : BitVec 32 :=
  (memory.thumbAt where_).offset.signExtend 32 + (symVal - where_)

/-- The target is no Thumb address in the range of the instruction. -/
def ThumbRefused (memory : ByteMemory) (where_ symVal : BitVec 32) : Prop :=
  let offset := memory.thumbTarget where_ symVal
  offset &&& 1 = 0 ∨ offset.toInt ≤ -2 ^ 24 ∨ 2 ^ 24 ≤ offset.toInt

/-- The second half-word of the instruction needs no change, and is the same as the half-word
eight bytes behind the instruction. -/
def ThumbSecondStays (memory : ByteMemory) (where_ symVal : BitVec 32) : Prop :=
  let offset := (memory.thumbTarget where_ symVal).setWidth 25
  (symVal - where_) % 4096 = 1 ∧
    ThumbBranch.j1Of offset = (memory.thumbAt where_).j1 ∧
    ThumbBranch.j2Of offset = (memory.thumbAt where_).j2 ∧
    memory.loadHalf (where_ + 8) = memory.loadHalf (where_ + 2)

instance : Decidable (ThumbRefused memory where_ symVal) := by
  unfold ThumbRefused
  infer_instance

instance : Decidable (ThumbSecondStays memory where_ symVal) := by
  unfold ThumbSecondStays
  infer_instance

/-- The offset that is read afterwards is the one from before plus `symVal - where_`, without bit
0, nothing else of the instruction changes, and nothing outside of it. A refused relocation changes
nothing. -/
def RelocatesThumb (memory : ByteMemory) (where_ symVal : BitVec 32)
    (after : ByteMemory × Int) : Prop :=
  (after.2 = 0 →
    (after.1.thumbAt where_).offset.signExtend 32 =
        ((memory.thumbAt where_).offset.signExtend 32 + (symVal - where_)) &&& ~~~1 ∧
      (after.1.thumbAt where_).opcode = (memory.thumbAt where_).opcode ∧
      ∀ a, (∀ i < 4, a ≠ where_ + i) → after.1 a = memory a) ∧
  (after.2 = -1 → after.1 = memory)

/-- What the source writes is the instruction with the new offset, its second half at the wrong
place. -/
theorem relocateThumb_eq : memory.relocateThumb where_ symVal =
    if ThumbRefused memory where_ symVal then (memory, -1)
    else
      let branch :=
        (memory.thumbAt where_).withOffset ((memory.thumbTarget where_ symVal).setWidth 25)
      ((memory.storeHalf where_ branch.upper).storeHalf (where_ + 8) branch.lower, 0) := by
  have offset : thumbOffset ((memory.loadHalf where_).setWidth 32)
      ((memory.loadHalf (where_ + 2)).setWidth 32) + (symVal - where_) =
        memory.thumbTarget where_ symVal := by
    rw [thumbTarget, ← thumbOffset_eq]
    rfl
  simp only [relocateThumb, ThumbRefused, offset]
  refine if_congr Iff.rfl rfl ?_
  rw [← thumbUpper_eq, ← thumbLower_eq]
  rfl

/-- The last bits of the new offset are those of the old one when the distance is one modulo
4096. -/
theorem thumbTarget_low (odd : memory.thumbTarget where_ symVal &&& 1 ≠ 0) :
    (∀ i < 12, 0 < i → ((memory.thumbTarget where_ symVal).setWidth 25).getLsbD i =
      (memory.thumbAt where_).offset.getLsbD i) ↔ (symVal - where_) % 4096 = 1 := by
  set old := (memory.thumbAt where_).offset with old_def
  have even : old.toNat % 2 = 0 := by
    have bit : old.getLsbD 0 = false := ThumbBranch.offset_bit (by decide)
    rw [BitVec.getLsbD, Nat.testBit_zero] at bit
    simpa using bit
  have value : (memory.thumbTarget where_ symVal).toNat % 2 ^ 25 =
      (old.toNat + (symVal - where_).toNat) % 2 ^ 25 := by
    rw [thumbTarget, ← old_def, BitVec.toNat_add, BitVec.toNat_signExtend,
      BitVec.toNat_setWidth_of_le (by decide)]
    split <;> omega
  have last : (memory.thumbTarget where_ symVal).toNat % 2 = 1 := by
    rw [Ne, ← BitVec.toNat_inj, BitVec.toNat_and] at odd
    have bit := Nat.and_one_is_mod (memory.thumbTarget where_ symVal).toNat
    simp at odd
    omega
  have period : (4096 : BitVec 32).toNat = 4096 := rfl
  have one : (1 : BitVec 32).toNat = 1 := rfl
  rw [ThumbBranch.low_bits_iff, BitVec.toNat_setWidth, ← BitVec.toNat_inj, BitVec.toNat_umod,
    period, one]
  omega

/-! ## What the source writes -/

section

variable {upper lower : BitVec 16}

/-- The second half-word of the instruction is not written. -/
theorem thumbAt_written :
    ((memory.storeHalf where_ upper).storeHalf (where_ + 8) lower).thumbAt where_ =
      ⟨upper, (memory.thumbAt where_).lower⟩ := by
  have first : ((memory.storeHalf where_ upper).storeHalf (where_ + 8) lower).loadHalf where_ =
      upper := by
    have kept := @loadHalf_frame (memory.storeHalf where_ upper) where_ lower 0 8 (by decide)
      (by decide) (by decide)
    rw [add_zero] at kept
    rw [kept, loadHalf_storeHalf]
  have second : ((memory.storeHalf where_ upper).storeHalf (where_ + 8) lower).loadHalf
      (where_ + 2) = memory.loadHalf (where_ + 2) := by
    have kept := @loadHalf_frame memory where_ upper 2 0 (by decide) (by decide) (by decide)
    rw [add_zero] at kept
    rw [loadHalf_frame (by decide) (by decide) (by decide), kept]
  rw [thumbAt, first, second, thumbAt]

/-- Nothing outside of the instruction changes when the half-word is there already. -/
theorem written_outside_iff :
    (∀ a, (∀ i < 4, a ≠ where_ + i) →
      (memory.storeHalf where_ upper).storeHalf (where_ + 8) lower a = memory a) ↔
      memory.loadHalf (where_ + 8) = lower := by
  have there : ((memory.storeHalf where_ upper).storeHalf (where_ + 8) lower).loadHalf
      (where_ + 8) = lower := loadHalf_storeHalf
  rw [← there, loadHalf_ext, there]
  constructor
  · intro kept
    refine ⟨(kept _ fun i below => ?_).symm, (kept _ fun i below => ?_).symm⟩
    · exact add_ne_add (by bv_omega)
    · rw [add_assoc]
      exact add_ne_add (by bv_omega)
  · rintro ⟨first, second⟩ a outside
    by_cases here : a = where_ + 8
    · rw [here, first]
    by_cases here' : a = where_ + 8 + 1
    · rw [here', second]
    have start := outside 0 (by decide)
    rw [add_zero] at start
    rw [storeHalf_frame here here', storeHalf_frame start (outside 1 (by decide))]

end

/-- The offset is right when the second half-word is to stay. -/
theorem offset_written_iff {branch : ThumbBranch} {target : BitVec 32}
    (fits : (target.setWidth 25).signExtend 32 = target) :
    (ThumbBranch.mk (branch.withOffset (target.setWidth 25)).upper branch.lower).offset.signExtend
        32 = target &&& ~~~1 ↔
      (branch.withOffset (target.setWidth 25)).lower = branch.lower := by
  have cleared : (target.setWidth 25 &&& ~~~1).signExtend 32 = target &&& ~~~1 := by
    rw [BitVec.signExtend_and, fits]
    rfl
  rw [← ThumbBranch.offset_upper_iff, ← cleared]
  refine ⟨fun same => ?_, congrArg _⟩
  have narrow := congrArg (BitVec.setWidth 25) same
  rwa [setWidth_signExtend, setWidth_signExtend] at narrow

theorem relocatesThumb_iff :
    RelocatesThumb memory where_ symVal (memory.relocateThumb where_ symVal) ↔
      ThumbRefused memory where_ symVal ∨ ThumbSecondStays memory where_ symVal := by
  rw [relocateThumb_eq]
  by_cases refused : ThumbRefused memory where_ symVal
  · rw [if_pos refused]
    have failed : (-1 : Int) ≠ 0 := by decide
    exact iff_of_true ⟨fun success => absurd success failed, fun _ => rfl⟩ (Or.inl refused)
  rw [if_neg refused, or_iff_right refused]
  simp only [ThumbRefused, not_or, not_le] at refused
  obtain ⟨odd, above, below⟩ := refused
  have fits := signExtend_setWidth above below
  set target := memory.thumbTarget where_ symVal with target_def
  set branch := memory.thumbAt where_ with branch_def
  set written := branch.withOffset (target.setWidth 25) with written_def
  set after := (memory.storeHalf where_ written.upper).storeHalf (where_ + 8) written.lower
    with after_def
  have instruction : after.thumbAt where_ = ⟨written.upper, branch.lower⟩ := thumbAt_written
  have opcode : (ThumbBranch.mk written.upper branch.lower).opcode = branch.opcode :=
    Prod.ext (Prod.mk.inj ThumbBranch.opcode_withOffset).1 rfl
  have done_ : (0 : Int) ≠ -1 := by decide
  have exact_ : RelocatesThumb memory where_ symVal (after, 0) ↔
      written.lower = branch.lower ∧ memory.loadHalf (where_ + 8) = written.lower := by
    rw [← offset_written_iff fits, ← written_outside_iff, ← written_def, ← instruction]
    constructor
    · intro exact_
      obtain ⟨offset, -, kept⟩ := exact_.1 rfl
      exact ⟨offset, kept⟩
    · rintro ⟨offset, kept⟩
      refine ⟨fun _ => ⟨offset, ?_, kept⟩, fun failed => absurd failed done_⟩
      rw [instruction, opcode]
  rw [exact_]
  constructor
  · rintro ⟨same, copy⟩
    obtain ⟨first, second, distance⟩ := ThumbBranch.lower_withOffset_eq_iff.mp same
    exact ⟨(thumbTarget_low odd).mp distance, first, second, copy.trans same⟩
  · rintro ⟨distance, first, second, copy⟩
    have same := ThumbBranch.lower_withOffset_eq_iff.mpr
      ⟨first, second, (thumbTarget_low odd).mpr distance⟩
    exact ⟨same, copy.trans same.symm⟩

end ByteMemory

/-- A Thumb branch is relocated as it should be exactly when the relocation is refused, or when the
second half-word is to stay and the one that is written instead holds the same. -/
theorem rtModuleArmRelocate_thumb_iff (memory : ByteMemory) (moduleSpace symVal : BitVec 32)
    {rel : Elf32Rel}
    (thumb : elf32RType rel.rInfo = rArmThmCall ∨ elf32RType rel.rInfo = rArmThmJump24) :
    memory.RelocatesThumb (moduleSpace + rel.rOffset) symVal
        (memory.rtModuleArmRelocate moduleSpace rel symVal) ↔
      memory.ThumbRefused (moduleSpace + rel.rOffset) symVal ∨
        memory.ThumbSecondStays (moduleSpace + rel.rOffset) symVal := by
  have reached : memory.rtModuleArmRelocate moduleSpace rel symVal =
      memory.relocateThumb (moduleSpace + rel.rOffset) symVal := by
    rcases thumb with call | jump
    · rw [ByteMemory.rtModuleArmRelocate, call]
      rfl
    · rw [ByteMemory.rtModuleArmRelocate, jump]
      rfl
  rw [reached]
  exact ByteMemory.relocatesThumb_iff

/-- `bl` as an assembler leaves it, between zeros. -/
def callHere : ByteMemory := fun address =>
  if address = 0x1000 then 0xff else if address = 0x1001 then 0xf7
  else if address = 0x1002 then 0xfe else if address = 0x1003 then 0xff else 0

/-- The relocation to `0x1800` succeeds, and the call goes to another place. -/
theorem callHere_misplaced :
    ¬ callHere.RelocatesThumb (0 + 0x1000) 0x1801
      (callHere.rtModuleArmRelocate 0 ⟨0x1000, 0x10a⟩ 0x1801) := by
  intro exact_
  have offset := (exact_.1 (by decide +kernel)).1
  exact absurd offset (by decide +kernel)

/-- `bl` as an assembler leaves it, with its second half-word again where the source writes. -/
def callBehind : ByteMemory := fun address =>
  if address = 0x1000 then 0xff else if address = 0x1001 then 0xf7
  else if address = 0x1002 ∨ address = 0x1008 then 0xfe
  else if address = 0x1003 ∨ address = 0x1009 then 0xff else 0

theorem rtModuleArmRelocate_thumb_iff_behind :
    elf32RType 0x10a = rArmThmCall ∧
    callBehind.RelocatesThumb (0 + 0x1000) 0x1001
      (callBehind.rtModuleArmRelocate 0 ⟨0x1000, 0x10a⟩ 0x1001) :=
  ⟨rfl, (@rtModuleArmRelocate_thumb_iff callBehind 0 0x1001 ⟨0x1000, 0x10a⟩
    (Or.inl rfl)).mpr (Or.inr (by decide +kernel))⟩

end RtThread
