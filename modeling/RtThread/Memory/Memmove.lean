import RtThread.Memory.WordRoutines

/-!
# `rt_memmove`

The areas may overlap. The bytes are copied from the end of the areas when the destination begins
inside the source, so that each byte is read before it is written.
-/

namespace RtThread

namespace ByteMemory

/-- `while (n--) *(--tmp) = *(--s)`. -/
def copyDown (memory : ByteMemory) (tmp s n : BitVec 32) : ByteMemory :=
  if n = 0 then memory
  else copyDown (memory.storeByte (tmp - 1) (memory (s - 1))) (tmp - 1) (s - 1) (n - 1)
termination_by n.toNat
decreasing_by bv_omega

/-- The memory, and the pointer that is returned. -/
def rtMemmove (memory : ByteMemory) (dest src n : BitVec 32) : ByteMemory × BitVec 32 :=
  if src < dest ∧ dest < src + n then (memory.copyDown (dest + n) (src + n) n, dest)
  else (memory.copyBytes dest src n, dest)

section

variable {memory : ByteMemory} {dst src len tmp s n a : BitVec 32}

theorem pred_lt_pred {i : BitVec 32} (later : i ≠ 0) (below : i < n) : i - 1 < n - 1 := by
  bv_omega

theorem zero_lt {i : BitVec 32} (later : i ≠ 0) : 0 < i := by
  bv_omega

theorem succ_lt_succ {i j : BitVec 32} (before : i < j) (below : j < n - 1) : 1 + i < 1 + j := by
  bv_omega

theorem one_le (some_ : n ≠ 0) : 1 ≤ n := by
  bv_omega

theorem succ_ne_zero {i : BitVec 32} (below : i < n - 1) : 1 + i ≠ 0 := by
  bv_omega

/-! ## The loop that goes up -/

/-- No byte is written that is still to be read behind it. -/
def ReadsAhead (dst src len : BitVec 32) : Prop :=
  ∀ i j, i < j → j < len → dst + i ≠ src + j

theorem ReadsAhead.step (ahead : ReadsAhead dst src len) (some_ : len ≠ 0) :
    ReadsAhead (dst + 1) (src + 1) (len - 1) := by
  intro i j before below same
  rw [BitVec.add_assoc, BitVec.add_assoc] at same
  exact ahead (1 + i) (1 + j) (succ_lt_succ before below) (skip_lt (one_le some_) below) same

/-- What has been copied is what the source has been before. -/
theorem copyBytes_moves (ahead : ReadsAhead dst src len) {i : BitVec 32} (below : i < len) :
    memory.copyBytes dst src len (dst + i) = memory (src + i) := by
  fun_induction copyBytes memory dst src len generalizing i with
  | case1 memory dst src => exact absurd below BitVec.not_lt_zero
  | case2 memory dst src len some_ ih =>
      by_cases first : i = 0
      · subst first
        have behind : ¬ dst - (dst + 1) < len - 1 := by
          clear ih ahead below
          bv_omega
        rw [add_zero, add_zero, copyBytes_frame behind]
        exact Function.update_self ..
      · have place : dst + i = dst + 1 + (i - 1) := by abel
        have origin : src + 1 + (i - 1) = src + i := by abel
        have unwritten : src + i ≠ dst := by
          have apart := ahead 0 i (zero_lt first) below
          rwa [add_zero, ne_comm] at apart
        rw [place, ih (ahead.step some_) (pred_lt_pred first below), origin,
          storeByte_of_ne unwritten]

/-! ## The loop that goes down -/

/-- No byte is written that is still to be read in front of it. -/
def ReadsBehind (tmp s n : BitVec 32) : Prop :=
  ∀ i j, i < j → j < n → tmp - 1 - i ≠ s - 1 - j

theorem ReadsBehind.step (behind : ReadsBehind tmp s n) (some_ : n ≠ 0) :
    ReadsBehind (tmp - 1) (s - 1) (n - 1) := by
  intro i j before below same
  refine behind (1 + i) (1 + j) (succ_lt_succ before below) (skip_lt (one_le some_) below) ?_
  rwa [← sub_sub, ← sub_sub]

theorem copyDown_frame (outside : ∀ i, i < n → a ≠ tmp - 1 - i) :
    memory.copyDown tmp s n a = memory a := by
  fun_induction copyDown memory tmp s n with
  | case1 memory tmp s => rfl
  | case2 memory tmp s n some_ ih =>
      have here : a ≠ tmp - 1 := by simpa using outside 0 (zero_lt some_)
      rw [ih fun i below => ?_, storeByte_of_ne here]
      have apart := outside (1 + i) (skip_lt (one_le some_) below)
      rwa [← sub_sub] at apart

theorem copyDown_moves (behind : ReadsBehind tmp s n) {i : BitVec 32} (below : i < n) :
    memory.copyDown tmp s n (tmp - 1 - i) = memory (s - 1 - i) := by
  fun_induction copyDown memory tmp s n generalizing i with
  | case1 memory tmp s => exact absurd below BitVec.not_lt_zero
  | case2 memory tmp s n some_ ih =>
      by_cases first : i = 0
      · subst first
        rw [sub_zero, sub_zero, copyDown_frame fun j later same => ?_]
        · exact Function.update_self ..
        · -- the loop goes on below the byte that it has written
          refine succ_ne_zero later ?_
          rw [sub_sub _ 1 j] at same
          exact sub_eq_self.mp same.symm
      · have place : tmp - 1 - i = tmp - 1 - 1 - (i - 1) := by abel
        have origin : s - 1 - 1 - (i - 1) = s - 1 - i := by abel
        have unwritten : s - 1 - i ≠ tmp - 1 := by
          have apart := behind 0 i (zero_lt first) below
          rwa [sub_zero, ne_comm] at apart
        rw [place, ih (behind.step some_) (pred_lt_pred first below), origin,
          storeByte_of_ne unwritten]

end

end ByteMemory

/-- A byte of an area has the address that the area has without its end. -/
theorem toNat_byte {area n i : BitVec 32} (fits : area.toNat + n.toNat ≤ 2 ^ 32) (below : i < n) :
    (area + i).toNat = area.toNat + i.toNat := by
  have inside := BitVec.lt_def.mp below
  rw [BitVec.toNat_add, Nat.mod_eq_of_lt (by omega)]

/-- However the areas lie, the destination gets the bytes that the source has had, and no other
byte changes. The areas may reach up to the end of the address space. -/
theorem memmove_exact (memory : ByteMemory) {dest src n : BitVec 32}
    (source : src.toNat + n.toNat ≤ 2 ^ 32) (destination : dest.toNat + n.toNat ≤ 2 ^ 32) :
    (memory.rtMemmove dest src n).2 = dest ∧
      (∀ i, i < n → (memory.rtMemmove dest src n).1 (dest + i) = memory (src + i)) ∧
      ∀ a, (∀ i, i < n → a ≠ dest + i) → (memory.rtMemmove dest src n).1 a = memory a := by
  have mirror {i : BitVec 32} (below : i < n) : n - 1 - i < n := by bv_omega
  have back (start i : BitVec 32) : start + n - 1 - (n - 1 - i) = start + i := by abel
  have count (start i : BitVec 32) : start + n - 1 - i = start + (n - 1 - i) := by abel
  rw [ByteMemory.rtMemmove]
  split
  · -- the destination begins inside the source
    rename_i inside
    have behind : ByteMemory.ReadsBehind (dest + n) (src + n) n := by
      intro i j before below same
      rw [count, count] at same
      have address := congrArg BitVec.toNat same
      have less : (n - 1 - j).toNat < (n - 1 - i).toNat := by
        clear same address
        bv_omega
      have start := BitVec.lt_def.mp inside.1
      rw [toNat_byte destination (mirror (BitVec.lt_trans before below)),
        toNat_byte source (mirror below)] at address
      omega
    refine ⟨rfl, fun i below => ?_, fun a outside => ByteMemory.copyDown_frame fun i below => ?_⟩
    · calc memory.copyDown (dest + n) (src + n) n (dest + i)
          = memory.copyDown (dest + n) (src + n) n (dest + n - 1 - (n - 1 - i)) := by rw [back]
        _ = memory (src + n - 1 - (n - 1 - i)) :=
            ByteMemory.copyDown_moves behind (mirror below)
        _ = memory (src + i) := by rw [back]
    · rw [count]
      exact outside (n - 1 - i) (mirror below)
  · rename_i inside
    have ahead : ByteMemory.ReadsAhead dest src n := by
      intro i j before below same
      have address := congrArg BitVec.toNat same
      have less := BitVec.lt_def.mp before
      have within := BitVec.lt_def.mp below
      rw [toNat_byte destination (BitVec.lt_trans before below), toNat_byte source below]
        at address
      refine inside ⟨BitVec.lt_def.mpr (by omega), BitVec.lt_def.mpr ?_⟩
      rw [BitVec.toNat_add, Nat.mod_eq_of_lt (by omega)]
      omega
    refine ⟨rfl, fun i below => ByteMemory.copyBytes_moves ahead below, fun a outside => ?_⟩
    refine ByteMemory.copyBytes_frame fun here => outside (a - dest) here ?_
    abel

/-- The last ten bytes of the address space, moved up by two. -/
theorem memmove_exact_at_end :
    (lowBytes.rtMemmove 0xfffffff8 0xfffffff6 8).2 = 0xfffffff8 ∧
      ∀ i, i < 8 → (lowBytes.rtMemmove 0xfffffff8 0xfffffff6 8).1 (0xfffffff8 + i) =
        lowBytes (0xfffffff6 + i) :=
  have exact_ := @memmove_exact lowBytes 0xfffffff8 0xfffffff6 8 (by decide) (by decide)
  ⟨exact_.1, exact_.2.1⟩

end RtThread
