import RtThread.Std.FreeRunning
import RtThread.Memory.HeapData

/-!
# Aligned blocks

`rt_malloc_align` and `rt_free_align` on the system heap. The word in front of the aligned pointer
is where the block begins that `rt_malloc` has returned.
-/

namespace RtThread

open RtThread.Std

/-- The number that `width` bytes hold, the lowest byte first. -/
def loadAt (bytes : Nat → BitVec 8) (address : Nat) : Nat → Nat
  | 0 => 0
  | width + 1 => (bytes address).toNat + 2 ^ 8 * loadAt bytes (address + 1) width

/-- `align_size` of `rt_malloc_align`. -/
def alignSize (size align : BitVec 32) : BitVec 32 := rtAlign size + rtAlign align

/-- `align_ptr` of `rt_malloc_align`. -/
def alignPtr (ptr align : BitVec 32) : BitVec 32 :=
  if ptr &&& (align - 1) = 0 then ptr + align else (ptr + (align - 1)) &&& ~~~(align - 1)

namespace HeapMemory

def rtMallocAlign (memory : HeapMemory) (size align : BitVec 32) : Option (HeapMemory × Nat) := do
  let (memory, ptr) ← memory.rtMalloc (alignSize size align)
  if ptr ≠ 0 then
    let alignPtr := (alignPtr (BitVec.ofNat 32 ptr) (rtAlign align)).toNat
    some ({ memory with bytes := storeAt memory.bytes (alignPtr - 4) 4 ptr }, alignPtr)
  else some (memory, 0)

def rtFreeAlign (memory : HeapMemory) (ptr : Nat) : Option HeapMemory :=
  memory.rtFree (loadAt memory.bytes (ptr - 4) 4)

end HeapMemory

/-! ## A word -/

section

variable {bytes : Nat → BitVec 8} {address width value : Nat}

theorem loadAt_eq (stored : ∀ i < width, bytes (address + i) = BitVec.ofNat 8 (value >>> (8 * i))) :
    loadAt bytes address width = value % 2 ^ (8 * width) := by
  induction width generalizing address value with
  | zero => simp [loadAt, Nat.mod_one]
  | succ width ih =>
      have rest := @ih (address + 1) (value >>> 8) fun i below => by
        rw [← Nat.shiftRight_add, Nat.add_assoc, Nat.add_comm 1, stored (i + 1) (by omega)]
        congr 2
        omega
      have first := stored 0 (Nat.succ_pos _)
      rw [Nat.add_zero] at first
      rw [loadAt, rest, first, BitVec.toNat_ofNat, Nat.mul_zero, Nat.shiftRight_zero,
        Nat.shiftRight_eq_div_pow, Nat.mul_succ, Nat.add_comm (8 * width), Nat.pow_add,
        Nat.mod_mul]

theorem loadAt_storeAt (small : value < 2 ^ (8 * width)) :
    loadAt (storeAt bytes address width value) address width = value := by
  refine (loadAt_eq fun i below => ?_).trans (Nat.mod_eq_of_lt small)
  rw [storeAt, if_pos ⟨by omega, by omega⟩, Nat.add_sub_cancel_left]

theorem loadAt_congr {bytes' : Nat → BitVec 8}
    (same : ∀ i < width, bytes' (address + i) = bytes (address + i)) :
    loadAt bytes' address width = loadAt bytes address width := by
  induction width generalizing address with
  | zero => rfl
  | succ width ih =>
      have first := same 0 (Nat.succ_pos _)
      rw [Nat.add_zero] at first
      rw [loadAt, loadAt, first, ih fun i below => ?_]
      rw [Nat.add_assoc, Nat.add_comm 1]
      exact same (i + 1) (by omega)

end

/-! ## Where the pointer lies -/

/-- What a mask leaves, and what it takes away. -/
theorem clear_mask {w : Nat} (address mask : BitVec w) :
    (address &&& ~~~mask).toNat + (address &&& mask).toNat = address.toNat := by
  have apart : (address &&& ~~~mask) &&& (address &&& mask) = 0#w := by
    ext i
    simp only [BitVec.getElem_and, BitVec.getElem_not]
    cases address[i] <;> cases mask[i] <;> simp
  have join : (address &&& ~~~mask) ||| (address &&& mask) = address := by
    ext i
    simp only [BitVec.getElem_or, BitVec.getElem_and, BitVec.getElem_not]
    cases address[i] <;> cases mask[i] <;> rfl
  have sum := BitVec.toNat_add_of_and_eq_zero apart
  rw [BitVec.add_eq_or_of_and_eq_zero _ _ apart, join] at sum
  exact sum.symm

/-- `align` is a power of two, at least 4. -/
def AlignSize (align : BitVec 32) : Prop := ∃ power, 2 ≤ power ∧ align.toNat = 2 ^ power

section

variable {size align ptr : BitVec 32}

theorem AlignSize.maskSize (valid : AlignSize align) : MaskSize 32 align.toNat := by
  obtain ⟨power, -, same⟩ := valid
  refine ⟨power, ?_, same⟩
  by_contra large
  have more := Nat.pow_le_pow_right (show 0 < 2 by decide) (Nat.le_of_not_lt large)
  have below := align.isLt
  omega

theorem AlignSize.dvd (valid : AlignSize align) : 4 ∣ align.toNat := by
  obtain ⟨power, least, same⟩ := valid
  rw [same]
  exact Nat.pow_dvd_pow 2 least

theorem AlignSize.le (valid : AlignSize align) : 4 ≤ align.toNat :=
  Nat.le_of_dvd valid.maskSize.pos valid.dvd

/-- The size that is asked for does not wrap around. -/
theorem alignSize_toNat (valid : AlignSize align)
    (small : size.toNat + align.toNat + 4 < 2 ^ 32) :
    (rtAlign align = align) ∧
      (alignSize size align).toNat = 4 * ((size.toNat + 3) / 4) + align.toNat := by
  obtain ⟨quarter, same⟩ := valid.dvd
  have kept : rtAlign align = align := by
    refine BitVec.eq_of_toNat_eq ?_
    rw [rtAlign_toNat (by omega)]
    omega
  refine ⟨kept, ?_⟩
  rw [alignSize, kept, BitVec.toNat_add, rtAlign_toNat (by omega), Nat.mod_eq_of_lt (by omega)]

/-- The pointer is aligned, and behind the first word of the block; the block has the room that is
asked for behind it. -/
theorem alignPtr_spec (valid : AlignSize align) (aligned : ptr.toNat % 4 = 0) {rounded : Nat}
    (some_ : 0 < rounded) (fits : ptr.toNat + (rounded + align.toNat) ≤ 2 ^ 32) :
    (alignPtr ptr align).toNat % align.toNat = 0 ∧ ptr.toNat + 4 ≤ (alignPtr ptr align).toNat ∧
      (alignPtr ptr align).toNat + rounded ≤ ptr.toNat + (rounded + align.toNat) := by
  have mask := valid.maskSize
  have least := valid.le
  have low := mask.and_mask rfl ptr
  rw [alignPtr]
  split
  · -- the block is aligned itself
    rename_i zero
    replace low : 0 = ptr.toNat % align.toNat := by
      rw [← low, zero]
      rfl
    have sum : (ptr + align).toNat = ptr.toNat + align.toNat := by
      rw [BitVec.toNat_add, Nat.mod_eq_of_lt (by omega)]
    rw [sum, Nat.add_mod_right]
    omega
  · rename_i off
    have rest : ptr.toNat % align.toNat ≠ 0 := fun zero =>
      off (BitVec.eq_of_toNat_eq (low.trans zero))
    have less := Nat.mod_lt ptr.toNat mask.pos
    have whole := Nat.div_add_mod ptr.toNat align.toNat
    obtain ⟨quarter, same⟩ := valid.dvd
    have step : ptr.toNat % align.toNat % 4 = 0 := by
      rw [Nat.mod_mod_of_dvd _ valid.dvd, aligned]
    have last : (ptr + (align - 1)).toNat = align.toNat * (ptr.toNat / align.toNat + 1) +
        (ptr.toNat % align.toNat - 1) := by
      have pred : (align - 1).toNat = align.toNat - 1 := by bv_omega
      rw [BitVec.toNat_add, pred, Nat.mod_eq_of_lt (by omega), Nat.mul_succ]
      omega
    have clear := clear_mask (ptr + (align - 1)) (align - 1)
    rw [mask.and_mask rfl, last, Nat.mul_add_mod, Nat.mod_eq_of_lt (by omega)] at clear
    have place := Nat.add_right_cancel clear
    rw [place, Nat.mul_mod_right, Nat.mul_succ]
    omega

/-- As long as only the bytes behind the pointer are written, the word in front of it says where
the block begins. -/
theorem loadAt_alignPtr {bytes later : Nat → BitVec 8} {q : Nat}
    (kept : ∀ i < 4, later (q - 4 + i) = storeAt bytes (q - 4) 4 ptr.toNat (q - 4 + i)) :
    loadAt later (q - 4) 4 = ptr.toNat :=
  (loadAt_congr kept).trans (loadAt_storeAt ptr.isLt)

end

/-! ## What happens to the block meanwhile -/

def HeapCall.applyMemory (memory : HeapMemory) : HeapCall → Option (HeapMemory × Nat)
  | .malloc size => memory.rtMalloc size
  | .realloc rmem newsize => memory.rtRealloc rmem newsize
  | .free rmem => (memory.rtFree rmem).map fun memory => (memory, 0)

structure MemorySystem where
  memory : HeapMemory
  live : List Nat

inductive MemoryAction where
  | call (call : HeapCall)
  /-- Somebody writes to memory that he has allocated. -/
  | write (address : Nat) (byte : BitVec 8)

def memoryMachine : Machine MemorySystem MemoryAction Nat where
  step system
    | .call call => (call.applyMemory system.memory).map fun (memory, pointer) =>
        (⟨memory, call.follow system.live pointer⟩, [pointer])
    | .write address byte =>
        let bytes := Function.update system.memory.bytes address byte
        some (⟨{ system.memory with bytes := bytes }, system.live⟩, [])

/-- The block at `raw` is not given back, and written only in the `size` bytes from `q` on. -/
def MemorySystem.Leaves (raw q size : Nat) (system : MemorySystem) : MemoryAction → Prop
  | .call (.malloc _) => True
  | .call (.realloc rmem _) | .call (.free rmem) =>
      (rmem = 0 ∨ rmem ∈ system.live) ∧ rmem ≠ raw
  | .write address _ => q ≤ address ∧ address < q + size ∨
      ∃ other ∈ system.live, other ≠ raw ∧ other ≤ address ∧
        address < other + system.memory.heap.usable other

/-- A block in use is where it has been, and its first bytes are what they have been. -/
structure LeavesBlock (base finish : Nat) (memory : HeapMemory) (system : MemorySystem)
    (raw count : Nat) : Prop where
  inv : ∃ blocks, HeapInv base finish system.memory.heap blocks system.live
  member : raw ∈ system.live
  usable : system.memory.heap.usable raw = memory.heap.usable raw
  bytes : ∀ i < count, system.memory.bytes (raw + i) = memory.bytes (raw + i)

section

variable {base finish : Nat} {memory memory' : HeapMemory} {blocks live : List Nat}
  {raw pointer : Nat}

theorem HeapInv.leaves (inv : HeapInv base finish memory.heap blocks live) (member : raw ∈ live) :
    LeavesBlock base finish memory ⟨memory, live⟩ raw (memory.heap.usable raw) :=
  ⟨⟨blocks, inv⟩, member, rfl, fun _ _ => rfl⟩

theorem HeapInv.malloc_leaves (inv : HeapInv base finish memory.heap blocks live)
    (member : raw ∈ live) {size : BitVec 32}
    (result : memory.rtMalloc size = some (memory', pointer)) :
    LeavesBlock base finish memory ⟨memory', if pointer = 0 then live else pointer :: live⟩ raw
      (memory.heap.usable raw) := by
  rcases inv.malloc_memory result with ⟨rfl, rfl⟩ | ⟨nonnull, blocks', inv', writes, usable, -⟩
  · exact inv.leaves member
  · rw [if_neg nonnull]
    refine ⟨⟨blocks', inv'⟩, List.mem_cons_of_mem _ member, usable raw member, fun i below => ?_⟩
    rw [← usable raw member] at below
    exact inv'.kept_data inv.begins writes (List.mem_cons_of_mem _ member) i below

theorem HeapInv.free_leaves (inv : HeapInv base finish memory.heap blocks live)
    (member : raw ∈ live) {rmem : Nat} (owns : rmem = 0 ∨ rmem ∈ live) (apart : rmem ≠ raw)
    (freed : memory.rtFree rmem = some memory') :
    LeavesBlock base finish memory ⟨memory', live.erase rmem⟩ raw (memory.heap.usable raw) := by
  by_cases null : rmem = 0
  · subst null
    obtain rfl := Option.some_inj.mp ((if_pos rfl).symm.trans freed)
    rw [List.erase_of_not_mem inv.zero_notMem]
    exact inv.leaves member
  · have there := owns.resolve_left null
    have writes := inv.free_memory there freed
    have headers := memory.rtFree_heap rmem
    obtain ⟨next, blocks', result, -, inv', -⟩ := inv.free there
    rw [freed, result] at headers
    obtain rfl : memory'.heap = next := Option.some_inj.mp headers
    refine ⟨⟨blocks', inv'⟩, (List.mem_erase_of_ne apart.symm).mpr member,
      inv.free_usable there member apart.symm result, inv.kept_data inv.begins writes member⟩

/-- `rt_realloc` sees the size only after it has been rounded up. -/
theorem HeapMemory.rtRealloc_align (memory : HeapMemory) (rmem : Nat) (newsize : BitVec 32) :
    memory.rtRealloc rmem (rtAlign newsize) = memory.rtRealloc rmem newsize := by
  have twice : rtAlign (rtAlign newsize) = rtAlign newsize := by
    have multiple := rtAlign_mod newsize
    refine BitVec.eq_of_toNat_eq ?_
    rw [rtAlign_toNat (by omega)]
    omega
  unfold rtRealloc
  rw [twice]

theorem HeapInv.realloc_leaves (inv : HeapInv base finish memory.heap blocks live)
    (member : raw ∈ live) {rmem : Nat} (owns : rmem = 0 ∨ rmem ∈ live) (apart : rmem ≠ raw)
    {newsize : BitVec 32} (result : memory.rtRealloc rmem newsize = some (memory', pointer)) :
    LeavesBlock base finish memory
      ⟨memory', if pointer = 0 then live else pointer :: live.erase rmem⟩ raw
      (memory.heap.usable raw) := by
  by_cases null : rmem = 0
  · subst null
    rw [List.erase_of_not_mem inv.zero_notMem]
    unfold HeapMemory.rtRealloc at result
    dsimp only at result
    split at result
    · obtain ⟨rfl, rfl⟩ := Prod.mk.inj (Option.some_inj.mp result)
      exact inv.leaves member
    · exact inv.malloc_leaves member result
  · have there := owns.resolve_left null
    have headers := memory.rtRealloc_heap rmem newsize
    obtain ⟨next, pointer', outcome, either⟩ := inv.realloc newsize (Or.inr there)
    rw [result, outcome] at headers
    obtain ⟨rfl, rfl⟩ := Prod.mk.inj (Option.some_inj.mp headers)
    have multiple := rtAlign_mod newsize
    rw [← HeapMemory.rtRealloc_align] at result
    obtain ⟨nothing, done⟩ := inv.realloc_memory there (by omega) result
    simp only [id_eq] at either ⊢
    by_cases refused : pointer = 0
    · obtain rfl := nothing refused
      rw [if_pos refused]
      exact inv.leaves member
    · rw [if_neg refused]
      obtain ⟨blocks', inv', -⟩ := (either.resolve_left fun both => refused both.1).2
      obtain ⟨there', usable, bytes⟩ := (done refused).others raw member apart.symm
      exact ⟨⟨blocks', inv'⟩, List.mem_cons_of_mem _ there', usable, bytes⟩

theorem HeapInv.call_leaves (inv : HeapInv base finish memory.heap blocks live)
    (member : raw ∈ live) {call : HeapCall} {q size : Nat}
    (legal : MemorySystem.Leaves raw q size ⟨memory, live⟩ (.call call))
    (result : call.applyMemory memory = some (memory', pointer)) :
    LeavesBlock base finish memory ⟨memory', call.follow live pointer⟩ raw
      (memory.heap.usable raw) := by
  cases call with
  | malloc size => exact inv.malloc_leaves member result
  | realloc rmem newsize => exact inv.realloc_leaves member legal.1 legal.2 result
  | free rmem =>
      obtain ⟨next, freed, made⟩ := Option.map_eq_some_iff.mp result
      obtain ⟨rfl, rfl⟩ := Prod.mk.inj made
      exact inv.free_leaves member legal.1 legal.2 freed

/-- The heap lies in the address space. -/
theorem rtSystemHeapInit_within {magic : Nat → BitVec 16} {used : Nat → Bool} {links : Links Nat}
    {beginAddr endAddr : BitVec 32} {heap : Heap}
    (init : rtSystemHeapInit magic used links beginAddr endAddr = some heap) :
    heap.heapPtr + heap.heapEnd < 2 ^ 32 := by
  obtain ⟨⟨large, ordered⟩, result⟩ := Option.ite_none_right_eq_some.mp init
  have size : (rtAlignDown endAddr - rtAlign beginAddr - 24#32).toNat =
      (rtAlignDown endAddr).toNat - (rtAlign beginAddr).toNat - 24 := by bv_omega
  have within : (rtAlign beginAddr).toNat + 24 ≤ (rtAlignDown endAddr).toNat := by bv_omega
  have bound := (rtAlignDown endAddr).isLt
  rw [size] at result
  obtain rfl := Option.some_inj.mp result
  simp only [Heap.setMagic, Heap.setUsed, Heap.setNext, Heap.setPrev, Heap.heapEnd]
  omega

/-- The data of a pointer in use end where the heap does, at the latest. -/
theorem HeapShape.usable_le {heap : Heap} {rmem : Nat}
    (shape : HeapShape base finish heap blocks live) (member : rmem ∈ live) :
    rmem + heap.usable rmem ≤ base + finish := by
  obtain ⟨mem, here, -, rfl⟩ := shape.exists_block member
  have ends := shape.tiles.next_le_last here
  have below := shape.room mem here
  rw [shape.usable_eq]
  omega

/-- While the block is left alone, it stays what it is in front of the pointer. -/
theorem HeapInv.run_leaves {q size : Nat} {actions : List MemoryAction} {events : List Nat}
    {later : MemorySystem} (inv : HeapInv base finish memory.heap blocks live)
    (member : raw ∈ live) (front : raw ≤ q) (inside : q + size ≤ raw + memory.heap.usable raw)
    (run : memoryMachine.Run (MemorySystem.Leaves raw q size) ⟨memory, live⟩ actions events
      later) : LeavesBlock base finish memory later raw (q - raw) := by
  refine @Machine.Run.invariant _ _ _ _ _ _ _ _ _
    (fun system => LeavesBlock base finish memory system raw (q - raw)) run
    ⟨⟨blocks, inv⟩, member, rfl, fun _ _ => rfl⟩ ?_
  rintro ⟨between, live⟩ action next emitted ⟨⟨blocks, inv⟩, member, usable, bytes⟩ legal step
  cases action with
  | call call =>
      obtain ⟨⟨after, pointer⟩, result, made⟩ := Option.map_eq_some_iff.mp step
      obtain ⟨rfl, -⟩ := Prod.mk.inj made
      obtain ⟨inv', member', usable', bytes'⟩ := inv.call_leaves member legal result
      have room : between.heap.usable raw = memory.heap.usable raw := usable
      refine ⟨inv', member', usable'.trans usable, fun i below => ?_⟩
      exact (bytes' i (by omega)).trans (bytes i below)
  | write address byte =>
      obtain ⟨rfl, -⟩ := Prod.mk.inj (Option.some_inj.mp step)
      refine ⟨⟨blocks, inv⟩, member, usable, fun i below => ?_⟩
      refine (Function.update_of_ne ?_ ..).trans (bytes i below)
      rintro rfl
      rcases legal with ⟨above, -⟩ | ⟨other, there, apart, low, high⟩
      · omega
      · have ranges := inv.data_apart member there apart.symm
        have room : between.heap.usable raw = memory.heap.usable raw := usable
        have reaches : raw + i < other + between.heap.usable other := high
        omega

end

/-- Every block that `rt_malloc` may return has room for the aligned pointer, for the word in front
of it and for what has been asked for behind it. For the system heap in every state, the pointer
lies in the block that `rt_malloc` has taken, and whatever happens then as long as nobody gives
that block back and only the bytes that have been asked for are written of it, `rt_free_align`
gives back this block. -/
theorem malloc_align_sound {magic : Nat → BitVec 16} {used : Nat → Bool} {links : Links Nat}
    {beginAddr endAddr : BitVec 32} {heap : Heap} {calls : List HeapCall} {pointers : List Nat}
    {system : HeapSystem} {size align : BitVec 32}
    (init : rtSystemHeapInit magic used links beginAddr endAddr = some heap)
    (run : heapMachine.Run HeapSystem.OwnsArgument ⟨heap, []⟩ calls pointers system)
    (valid : AlignSize align) (some_ : 1 ≤ size.toNat)
    (small : size.toNat + align.toNat + 4 < 2 ^ 32) (bytes : Nat → BitVec 8) :
    (∀ ptr : BitVec 32, ptr.toNat % 4 = 0 →
      ptr.toNat + (alignSize size align).toNat ≤ 2 ^ 32 →
      ∀ q, q = (alignPtr ptr (rtAlign align)).toNat →
        q % align.toNat = 0 ∧ ptr.toNat + 4 ≤ q ∧
          q + size.toNat ≤ ptr.toNat + (alignSize size align).toNat ∧
          ∀ bytes later : Nat → BitVec 8,
            (∀ address, ¬ (q ≤ address ∧ address < q + size.toNat) →
              later address = storeAt bytes (q - 4) 4 ptr.toNat address) →
            loadAt later (q - 4) 4 = ptr.toNat) ∧
      ∀ next q, (HeapMemory.mk system.heap bytes).rtMallocAlign size align = some (next, q) →
        q ≠ 0 → ∃ between raw,
          (HeapMemory.mk system.heap bytes).rtMalloc (alignSize size align) = some (between, raw) ∧
          raw ≠ 0 ∧ next.heap = between.heap ∧ q % align.toNat = 0 ∧ raw + 4 ≤ q ∧
          q + size.toNat ≤ raw + next.heap.usable raw ∧
          ∀ actions events later,
            memoryMachine.Run (MemorySystem.Leaves raw q size.toNat) ⟨next, raw :: system.live⟩
              actions events later →
            raw ∈ later.live ∧ later.memory.rtFreeAlign q = later.memory.rtFree raw ∧
              ∃ freed blocks, later.memory.rtFree raw = some freed ∧
                HeapKept ⟨freed.heap, later.live.erase raw⟩ blocks := by
  obtain ⟨same, total⟩ := alignSize_toNat valid small
  have places : ∀ ptr : BitVec 32, ptr.toNat % 4 = 0 →
      ptr.toNat + (alignSize size align).toNat ≤ 2 ^ 32 →
        (alignPtr ptr align).toNat % align.toNat = 0 ∧
          ptr.toNat + 4 ≤ (alignPtr ptr align).toNat ∧
          (alignPtr ptr align).toNat + size.toNat ≤
            ptr.toNat + (alignSize size align).toNat := by
    intro ptr aligned fits
    rw [total] at fits ⊢
    obtain ⟨multiple, front, behind⟩ := alignPtr_spec valid aligned (by omega) fits
    exact ⟨multiple, front, by omega⟩
  constructor
  · rintro ptr aligned fits q rfl
    rw [same]
    obtain ⟨multiple, front, behind⟩ := places ptr aligned fits
    refine ⟨multiple, front, behind, fun bytes later kept => ?_⟩
    exact @loadAt_alignPtr _ bytes _ _ fun i below => kept _ (by omega)
  · intro next q result nonnull
    obtain ⟨⟨between, raw⟩, allocated, made⟩ := Option.bind_eq_some_iff.mp result
    have headers := (HeapMemory.mk system.heap bytes).rtMalloc_heap (alignSize size align)
    rw [allocated] at headers
    dsimp only at made
    have taken : raw ≠ 0 := by
      rintro rfl
      obtain ⟨-, rfl⟩ := Prod.mk.inj (Option.some_inj.mp made)
      exact nonnull rfl
    rw [if_pos taken, same] at made
    obtain ⟨rfl, placed⟩ := Prod.mk.inj (Option.some_inj.mp made)
    rcases heap_reached init (fun _ _ owns => owns) run with ⟨blocks, inv, -⟩ | ⟨tiny, rfl⟩
    · obtain ⟨-, blocks', inv', -, -, room⟩ :=
        (@HeapInv.malloc_memory _ _ ⟨system.heap, bytes⟩ between blocks system.live inv _ _
          allocated).resolve_left fun refused => taken refused.1
      have member : raw ∈ raw :: system.live := List.mem_cons_self
      have aligned : raw % 4 = 0 := (@HeapInv.kept _ _ _ ⟨between.heap, _⟩ inv').aligned raw member
      have ends := inv'.usable_le member
      have within := rtSystemHeapInit_within init
      have rounded : (alignSize size align).toNat ≤ between.heap.usable raw := by
        obtain ⟨quarter, whole⟩ := valid.dvd
        have request : (alignSize size align).toNat ≤ 0xFFFFFFFC := by omega
        exact ((rtAlign_le request).trans (Nat.le_max_left ..)).trans room
      have value : (BitVec.ofNat 32 raw).toNat = raw := by
        rw [BitVec.toNat_ofNat, Nat.mod_eq_of_lt (by omega)]
      obtain ⟨multiple, front, behind⟩ := places (BitVec.ofNat 32 raw) (value.symm ▸ aligned)
        (by rw [value]; omega)
      rw [placed, value] at front behind
      rw [placed] at multiple
      refine ⟨between, raw, allocated, taken, rfl, multiple, front, by dsimp only; omega, ?_⟩
      intro actions events later run'
      obtain ⟨⟨blocks'', inv''⟩, there, -, kept⟩ := @HeapInv.run_leaves _ _
        ⟨between.heap, storeAt between.bytes (q - 4) 4 raw⟩ blocks' _ raw q size.toNat actions events
        later inv' member (by omega) (by dsimp only; omega) (placed ▸ run')
      have word : loadAt later.memory.bytes (q - 4) 4 = raw := by
        rw [← value]
        refine @loadAt_alignPtr _ between.bytes _ _ fun i below => ?_
        have first := kept (q - 4 - raw + i) (by omega)
        rwa [show raw + (q - 4 - raw + i) = q - 4 + i by omega, ← value] at first
      obtain ⟨freed, blocks, given, -, inv, -⟩ := inv''.free there
      have headers := later.memory.rtFree_heap raw
      rw [given] at headers
      obtain ⟨memory, freed', rfl⟩ := Option.map_eq_some_iff.mp headers
      refine ⟨there, by rw [HeapMemory.rtFreeAlign, word], memory, blocks, freed', ?_⟩
      exact @HeapInv.kept _ _ _ ⟨_, _⟩ inv
    · obtain ⟨-, -, null⟩ := (rtSystemHeapInit_fresh init).malloc tiny headers.symm
      exact absurd null taken

/-- 10 bytes at a multiple of 16, from a kilobyte of which 40 bytes have been taken. -/
theorem malloc_align_sound_sixteen : ∃ next : HeapMemory, ∃ raw,
    (HeapMemory.mk firstTaken fun _ => 0).rtMallocAlign 10 16 = some (next, 4176) ∧
      4176 % 16 = 0 ∧ raw + 4 ≤ 4176 ∧ 4176 + 10 ≤ raw + next.heap.usable raw ∧
      next.rtFreeAlign 4176 = next.rtFree raw := by
  have headers : rtMalloc firstTaken (alignSize 10 16) =
      some ({ firstTaken.occupy 52 28 with lfree := 92 }, 4160) :=
    rtMalloc_first (by decide) (by decide) (by decide) (by decide +kernel) (by decide +kernel)
      (by decide +kernel) (by decide +kernel) (by decide +kernel) (by decide +kernel)
      (by decide +kernel) (by decide +kernel)
  obtain ⟨⟨memory, raw⟩, taken, same⟩ := Option.map_eq_some_iff.mp
    ((HeapMemory.rtMalloc_heap (HeapMemory.mk firstTaken fun _ => 0) _).trans headers)
  obtain ⟨-, rfl⟩ := Prod.mk.inj same
  have aligned : (HeapMemory.mk firstTaken fun _ => 0).rtMallocAlign 10 16 = some
      ({ memory with bytes := storeAt memory.bytes 4172 4 4160 }, 4176) := by
    rw [HeapMemory.rtMallocAlign, taken]
    rfl
  have valid : AlignSize 16 := ⟨4, by decide, by decide⟩
  obtain ⟨between, raw, -, -, -, multiple, behind, room, later⟩ :=
    (malloc_align_sound bareHeap_init firstTaken_run valid (by decide) (by decide) fun _ => 0).2 _ _
      aligned (by decide)
  obtain ⟨-, back, -⟩ := later [] [] _ .nil
  exact ⟨_, raw, aligned, multiple, behind, room, back⟩

end RtThread
