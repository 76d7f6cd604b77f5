import RtThread.Kernel.State

/-!
# The scheduler

`scheduler.c` for at most 32 priorities. Interrupts are disabled throughout
each of these functions, so each is one step. The stack check, the hook and the
context switch itself change nothing that is modelled.
-/

namespace RtThread

open RtThread.Std

/-- The table `rt_lowest_bitmap`. -/
def rtLowestBitmap : List Nat :=
  [0, 0, 1, 0, 2, 0, 1, 0, 3, 0, 1, 0, 2, 0, 1, 0,
   4, 0, 1, 0, 2, 0, 1, 0, 3, 0, 1, 0, 2, 0, 1, 0,
   5, 0, 1, 0, 2, 0, 1, 0, 3, 0, 1, 0, 2, 0, 1, 0,
   4, 0, 1, 0, 2, 0, 1, 0, 3, 0, 1, 0, 2, 0, 1, 0,
   6, 0, 1, 0, 2, 0, 1, 0, 3, 0, 1, 0, 2, 0, 1, 0,
   4, 0, 1, 0, 2, 0, 1, 0, 3, 0, 1, 0, 2, 0, 1, 0,
   5, 0, 1, 0, 2, 0, 1, 0, 3, 0, 1, 0, 2, 0, 1, 0,
   4, 0, 1, 0, 2, 0, 1, 0, 3, 0, 1, 0, 2, 0, 1, 0,
   7, 0, 1, 0, 2, 0, 1, 0, 3, 0, 1, 0, 2, 0, 1, 0,
   4, 0, 1, 0, 2, 0, 1, 0, 3, 0, 1, 0, 2, 0, 1, 0,
   5, 0, 1, 0, 2, 0, 1, 0, 3, 0, 1, 0, 2, 0, 1, 0,
   4, 0, 1, 0, 2, 0, 1, 0, 3, 0, 1, 0, 2, 0, 1, 0,
   6, 0, 1, 0, 2, 0, 1, 0, 3, 0, 1, 0, 2, 0, 1, 0,
   4, 0, 1, 0, 2, 0, 1, 0, 3, 0, 1, 0, 2, 0, 1, 0,
   5, 0, 1, 0, 2, 0, 1, 0, 3, 0, 1, 0, 2, 0, 1, 0,
   4, 0, 1, 0, 2, 0, 1, 0, 3, 0, 1, 0, 2, 0, 1, 0]

/-- The byte of `group` at `shift`, as an index of the table. -/
def lowestInByte (group : BitVec 32) (shift : Nat) : Nat :=
  rtLowestBitmap.getD ((group >>> shift) &&& 0xff#32).toNat 0

/-- `highest_ready_priority`: the byte cascade of `rt_schedule`. -/
def highestReadyPriority (group : BitVec 32) : Nat :=
  if group &&& 0xff#32 ≠ 0#32 then lowestInByte group 0
  else if group &&& 0xff00#32 ≠ 0#32 then lowestInByte group 8 + 8
  else if group &&& 0xff0000#32 ≠ 0#32 then lowestInByte group 16 + 16
  else lowestInByte group 24 + 24

/-- The entry behind the head of the list that the bitmap selects. -/
def highestReadyThread (kernel : Kernel) : ThreadPtr :=
  threadEntry (kernel.threadLinks.next
    (.ready (highestReadyPriority kernel.rtThreadReadyPriorityGroup)))

/-- `rt_system_scheduler_start`, up to the first context switch. -/
def rtSystemSchedulerStart (kernel : Kernel) : Kernel :=
  { kernel with rtCurrentThread := highestReadyThread kernel }

def rtSchedule (kernel : Kernel) : Kernel :=
  if kernel.rtSchedulerLockNest = 0 then
    let toThread := highestReadyThread kernel
    if toThread ≠ kernel.rtCurrentThread then
      { kernel with
        rtCurrentPriority := highestReadyPriority kernel.rtThreadReadyPriorityGroup
        rtCurrentThread := toThread }
    else kernel
  else kernel

def rtScheduleInsertThread (kernel : Kernel) (thread : ThreadId) : Kernel :=
  let kernel := kernel.setStat thread .ready
  let kernel := kernel.linkThreadBefore (.ready (kernel.threads thread).currentPriority) thread
  { kernel with
    rtThreadReadyPriorityGroup :=
      kernel.rtThreadReadyPriorityGroup ||| (kernel.threads thread).numberMask }

def rtScheduleRemoveThread (kernel : Kernel) (thread : ThreadId) : Kernel :=
  let kernel := kernel.unlinkThread thread
  if kernel.threadLinks.isEmpty (.ready (kernel.threads thread).currentPriority) then
    { kernel with
      rtThreadReadyPriorityGroup :=
        kernel.rtThreadReadyPriorityGroup &&& ~~~(kernel.threads thread).numberMask }
  else kernel

/-- The nest counter is an `rt_int16_t`. -/
def rtEnterCritical (kernel : Kernel) : Kernel :=
  { kernel with rtSchedulerLockNest := (kernel.rtSchedulerLockNest + 1).bmod 65536 }

def rtExitCritical (kernel : Kernel) : Kernel :=
  let nest := (kernel.rtSchedulerLockNest - 1).bmod 65536
  if nest ≤ 0 then rtSchedule { kernel with rtSchedulerLockNest := 0 }
  else { kernel with rtSchedulerLockNest := nest }

/-! ## The bitmap lookup -/

/-- Every entry but the first names the lowest set bit of its index. -/
theorem rtLowestBitmap_lowest : ∀ byte : Fin 256, byte.val ≠ 0 →
    rtLowestBitmap.getD byte.val 0 < 8 ∧
      byte.val.testBit (rtLowestBitmap.getD byte.val 0) = true ∧
      ∀ bit < rtLowestBitmap.getD byte.val 0, byte.val.testBit bit = false := by
  decide +kernel

private theorem byteMask_getLsbD (bit : Nat) : (0xff#32).getLsbD bit = decide (bit < 8) := by
  rw [BitVec.getLsbD_ofNat, show 255 = 2 ^ 8 - 1 from rfl, Nat.testBit_two_pow_sub_one]
  by_cases small : bit < 8
  · simp [small, show bit < 32 by omega]
  · simp [small]

/-- A byte of the group is zero exactly when none of its bits is set. -/
theorem byte_eq_zero_iff (group : BitVec 32) {shift : Nat} (within : shift ≤ 24) :
    group &&& (0xff#32 <<< shift) = 0#32 ↔ ∀ bit < 8, group.getLsbD (bit + shift) = false := by
  constructor
  · intro zero bit small
    have clear := congrArg (fun word => word.getLsbD (bit + shift)) zero
    rw [BitVec.getLsbD_and, BitVec.getLsbD_shiftLeft, byteMask_getLsbD, BitVec.getLsbD_zero]
      at clear
    simpa [small, show bit + shift < 32 by omega, show ¬ bit + shift < shift by omega] using clear
  · intro clear
    apply BitVec.eq_of_getLsbD_eq
    intro index bound
    by_cases inside : shift ≤ index ∧ index < shift + 8
    · have unset := clear (index - shift) (by omega)
      rw [Nat.sub_add_cancel inside.1] at unset
      simp [unset]
    · simp only [BitVec.getLsbD_and, BitVec.getLsbD_shiftLeft, byteMask_getLsbD,
        BitVec.getLsbD_zero]
      by_cases below : index < shift
      · simp [below]
      · simp [show ¬ index - shift < 8 by omega]

/-- The lookup in one byte of the group finds the lowest bit set in it. -/
theorem lowestInByte_lowest (group : BitVec 32) {shift : Nat} (within : shift ≤ 24)
    (nonzero : group &&& (0xff#32 <<< shift) ≠ 0#32) :
    lowestInByte group shift < 8 ∧ group.getLsbD (lowestInByte group shift + shift) = true ∧
      ∀ bit < lowestInByte group shift, group.getLsbD (bit + shift) = false := by
  have bound : ((group >>> shift) &&& 0xff#32).toNat < 256 := by
    simp only [BitVec.toNat_and, BitVec.toNat_ofNat]
    exact Nat.lt_of_le_of_lt Nat.and_le_right (by decide)
  have bits : ∀ bit < 8, ((group >>> shift) &&& 0xff#32).toNat.testBit bit =
      group.getLsbD (bit + shift) := by
    intro bit small
    rw [BitVec.testBit_toNat, BitVec.getLsbD_and, byteMask_getLsbD,
      BitVec.getLsbD_ushiftRight, Nat.add_comm]
    simp [small]
  have positive : ((group >>> shift) &&& 0xff#32).toNat ≠ 0 := by
    intro zero
    apply nonzero
    rw [byte_eq_zero_iff group within]
    intro bit small
    rw [← bits bit small, zero, Nat.zero_testBit]
  obtain ⟨small, found, lower⟩ := rtLowestBitmap_lowest ⟨_, bound⟩ positive
  refine ⟨small, ?_, ?_⟩
  · exact (bits _ small).symm.trans found
  · intro bit below
    exact (bits bit (Nat.lt_trans below small)).symm.trans (lower bit below)

/-- The cascade finds the lowest bit set in the group, whatever the group. -/
theorem highestReadyPriority_lowest (group : BitVec 32) (nonzero : group ≠ 0#32) :
    highestReadyPriority group < 32 ∧ group.getLsbD (highestReadyPriority group) = true ∧
      ∀ priority < highestReadyPriority group, group.getLsbD priority = false := by
  have byte := fun shift (within : shift ≤ 24) => lowestInByte_lowest group within
  have zero := fun shift (within : shift ≤ 24) => (byte_eq_zero_iff group within).mp
  have clear : ∀ shift ≤ 24, group &&& (0xff#32 <<< shift) = 0#32 →
      ∀ priority, shift ≤ priority → priority < shift + 8 → group.getLsbD priority = false := by
    intro shift within empty priority lower upper
    have unset := zero shift within empty (priority - shift) (by omega)
    rwa [Nat.sub_add_cancel lower] at unset
  have assemble : ∀ shift ≤ 24, group &&& (0xff#32 <<< shift) ≠ 0#32 →
      (∀ priority < shift, group.getLsbD priority = false) →
      lowestInByte group shift + shift < 32 ∧
        group.getLsbD (lowestInByte group shift + shift) = true ∧
        ∀ priority < lowestInByte group shift + shift, group.getLsbD priority = false := by
    intro shift within found below
    obtain ⟨small, set, lower⟩ := byte shift within found
    refine ⟨by omega, set, ?_⟩
    intro priority before
    by_cases early : priority < shift
    · exact below priority early
    · have unset := lower (priority - shift) (by omega)
      rwa [Nat.sub_add_cancel (by omega)] at unset
  unfold highestReadyPriority
  split
  · rename_i found
    exact assemble 0 (by omega) found (by simp)
  · rename_i none0
    have clear0 := clear 0 (by omega) (Classical.not_not.mp none0)
    split
    · rename_i found
      exact assemble 8 (by omega) found (fun priority below => clear0 priority (by omega) below)
    · rename_i none8
      have clear8 := clear 8 (by omega) (Classical.not_not.mp none8)
      have low : ∀ priority < 16, group.getLsbD priority = false := by
        intro priority below
        by_cases first : priority < 8
        · exact clear0 priority (by omega) first
        · exact clear8 priority (by omega) below
      split
      · rename_i found
        exact assemble 16 (by omega) found low
      · rename_i none16
        have clear16 := clear 16 (by omega) (Classical.not_not.mp none16)
        have most : ∀ priority < 24, group.getLsbD priority = false := by
          intro priority below
          by_cases first : priority < 16
          · exact low priority first
          · exact clear16 priority (by omega) below
        refine assemble 24 (by omega) ?_ most
        intro none24
        apply nonzero
        apply BitVec.eq_of_getLsbD_eq
        intro index bound
        rw [BitVec.getLsbD_zero]
        by_cases first : index < 24
        · exact most index first
        · exact clear 24 (by omega) none24 index (by omega) (by omega)

end RtThread
