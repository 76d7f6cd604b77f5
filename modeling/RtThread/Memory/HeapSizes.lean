import RtThread.Memory.HeapSearch
import RtThread.Memory.HeapMemory

/-!
# How much is allocated

A result has the room that was asked for, except where a size wraps around: the last
three sizes are rounded up to none at all, and a product may be anything.
-/

namespace RtThread

open RtThread.Std

/-- The data bytes of the block that a pointer belongs to. -/
def Heap.usable (heap : Heap) (rmem : Nat) : Nat :=
  let mem := rmem - 12 - heap.heapPtr
  heap.links.next mem - mem - 12

/-- `rt_malloc` takes a block for the size. -/
def Heap.Grants (heap : Heap) (blocks : List Nat) (size : BitVec 32) : Prop :=
  heap.Admits size ∧ ∃ mem ∈ blocks, heap.Offers (requestSize size) mem

theorem rtAlign_le {size : BitVec 32} (small : size.toNat ≤ 0xFFFFFFFC) :
    size.toNat ≤ (rtAlign size).toNat := by
  rw [rtAlign_toNat small]
  omega

theorem rtAlign_wraps {size : BitVec 32} (large : ¬ size.toNat ≤ 0xFFFFFFFC) :
    rtAlign size = 0#32 := by
  obtain rfl | rfl | rfl : size = 0xFFFFFFFD#32 ∨ size = 0xFFFFFFFE#32 ∨ size = 0xFFFFFFFF#32 := by
    bv_omega
  all_goals decide

section

variable {base finish : Nat} {heap next : Heap} {blocks left right live : List Nat}
  {mem block : Nat}

theorem HeapShape.usable_eq (shape : HeapShape base finish heap blocks live) (mem : Nat) :
    heap.usable (base + mem + 12) = heap.links.next mem - mem - 12 := by
  have offset : base + mem + 12 - 12 - heap.heapPtr = mem := by
    rw [shape.begins]
    omega
  rw [Heap.usable, offset]

/-! ## Where the blocks end

A call moves the end of the block it is about, and of free ones. -/

theorem Heap.plugForward_next (heap : Heap) (apart : block ≠ mem) :
    (heap.plugForward mem).links.next block = heap.links.next block := by
  unfold Heap.plugForward
  dsimp only
  split
  · split <;> exact Function.update_of_ne apart ..
  · rfl

theorem Heap.plugBackward_next (heap : Heap) (mem : Nat) (used : heap.used block = true) :
    (heap.plugBackward mem).links.next block = heap.links.next block := by
  unfold Heap.plugBackward
  dsimp only
  split
  · rename_i merges
    have apart : block ≠ heap.links.prev mem := by
      rintro rfl
      simp [used] at merges
    split <;> exact Function.update_of_ne apart ..
  · rfl

theorem Heap.plugHoles_next (plugged : heap.plugHoles mem = some next)
    (used : heap.used block = true) : next.links.next block = heap.links.next block := by
  obtain ⟨⟨-, unused⟩, result⟩ := Option.ite_none_right_eq_some.mp plugged
  have apart : block ≠ mem := by
    rintro rfl
    rw [used] at unused
    cases unused
  rw [← Option.some_inj.mp result, Heap.plugBackward_next, Heap.plugForward_next _ apart]
  rwa [Heap.plugForward_used]

theorem HeapShape.free_next (shape : HeapShape base finish heap blocks live) (here : mem ∈ blocks)
    (inUse : heap.used mem = true) (freed : rtFree heap (base + mem + 12) = some next)
    (used : heap.used block = true) (apart : block ≠ mem) :
    next.links.next block = heap.links.next block := by
  rw [shape.free_eq here inUse] at freed
  have kept : (heap.release mem).used block = true := by
    simp only [Heap.release, Function.update_of_ne apart, used]
  rw [Heap.plugHoles_next freed kept]
  rfl

theorem Heap.advanceFree_links {heap' : Heap} (advanced : heap'.advanceFree mem = some next) :
    next.links = heap'.links := by
  unfold Heap.advanceFree at advanced
  split at advanced
  · obtain ⟨lfree, -, result⟩ := Option.bind_eq_some_iff.mp advanced
    rw [← Option.some_inj.mp (Option.ite_none_right_eq_some.mp result).2]
  · rw [Option.some_inj.mp advanced]

theorem Heap.occupy_next {size : Nat} (notMem : block ≠ mem) (notNew : block ≠ mem + 12 + size) :
    (heap.occupy mem size).links.next block = heap.links.next block := by
  by_cases fits : size + 24 ≤ heap.links.next mem - (mem + 12)
  · rw [Heap.occupy_split fits, (@Heap.splitBlock_links heap mem size _ rfl).1,
      Function.update_of_ne notMem, Function.update_of_ne notNew]
  · rw [Heap.occupy_whole fits]

/-- What is left of a block that is taken begins where its data end. -/
theorem Heap.occupy_next_self {size : Nat} :
    (heap.occupy mem size).links.next mem =
      if size + 24 ≤ heap.links.next mem - (mem + 12) then mem + 12 + size
      else heap.links.next mem := by
  by_cases fits : size + 24 ≤ heap.links.next mem - (mem + 12)
  · rw [Heap.occupy_split fits, (@Heap.splitBlock_links heap mem size _ rfl).1,
      Function.update_self, if_pos fits]
  · rw [Heap.occupy_whole fits, if_neg fits]

theorem Heap.cutBlock_next (heap : Heap) (mem size : Nat) :
    (heap.cutBlock mem size).links.next =
      Function.update (Function.update heap.links.next (mem + 12 + size) (heap.links.next mem)) mem
        (mem + 12 + size) := by
  rw [Heap.cutBlock, (@Heap.splitBlock_links _ mem size _ rfl).1]
  rfl

theorem Heap.cutBlock_used (heap : Heap) (mem size : Nat) :
    (heap.cutBlock mem size).used = Function.update heap.used (mem + 12 + size) false := by
  rw [Heap.cutBlock, Heap.splitBlock_eq]
  rfl

/-! ## The room of a result -/

theorem HeapInv.malloc_usable (inv : HeapInv base finish heap blocks live) {size : BitVec 32}
    {pointer : Nat} (result : rtMalloc heap size = some (next, pointer)) (nonnull : pointer ≠ 0) :
    requestSize size ≤ next.usable pointer ∧ next.usable pointer ≤ heap.memSizeAligned := by
  rcases inv.malloc_cases size with
    ⟨refused, -⟩ | ⟨-, left, mem, right, next', rfl, offers, advanced, inv', -, taken⟩
  · obtain ⟨-, rfl⟩ := Prod.mk.inj (Option.some_inj.mp (result.symm.trans refused))
    exact absurd rfl nonnull
  · obtain ⟨rfl, rfl⟩ := Prod.mk.inj (Option.some_inj.mp (result.symm.trans taken))
    have fits := offers.2.2.2
    have ends := inv.ends
    simp only [Heap.heapEnd] at ends
    have reaches := inv.tiles.next_le_last (a := mem) (by simp)
    rw [inv'.usable_eq, Heap.advanceFree_links advanced, Heap.occupy_next_self]
    split <;> omega

theorem Heap.cut_next (used : heap.used mem = true) {size : Nat}
    (plugged : (heap.cutBlock mem size).plugHoles (mem + 12 + size) = some next) :
    next.links.next mem = mem + 12 + size := by
  rw [Heap.plugHoles_next plugged, Heap.cutBlock_next, Function.update_self]
  rw [Heap.cutBlock_used, Function.update_of_ne (by omega), used]

/-- Giving back one pointer leaves the others as long as they are. -/
theorem HeapInv.free_usable (inv : HeapInv base finish heap blocks live) {rmem other : Nat}
    (member : rmem ∈ live) (there : other ∈ live) (apart : other ≠ rmem)
    (freed : rtFree heap rmem = some next) : next.usable other = heap.usable other := by
  obtain ⟨mem, here, inUse, rfl⟩ := inv.exists_block member
  obtain ⟨block, -, used, rfl⟩ := inv.exists_block there
  obtain ⟨next', blocks', result, -, inv', -⟩ := inv.free member
  obtain rfl : next' = next := Option.some_inj.mp (result.symm.trans freed)
  have differ : block ≠ mem := by
    rintro rfl
    exact apart rfl
  rw [inv'.usable_eq, inv.usable_eq, inv.free_next here inUse freed used differ]

/-- With `size` as the low bits of `total`, a result of `rt_malloc` has room for all of
`total` as long as nothing wraps around. -/
theorem HeapInv.malloc_enough (inv : HeapInv base finish heap blocks live)
    (bound : heap.memSizeAligned + 28 ≤ 2 ^ 32) {size : BitVec 32} {total : Nat}
    (low : size = BitVec.ofNat 32 total) :
    (∀ next pointer, rtMalloc heap size = some (next, pointer) → pointer ≠ 0 →
        total ≤ next.usable pointer) ↔
      total ≤ 0xFFFFFFFC ∨ ¬ heap.Grants blocks size := by
  constructor
  · intro enough
    by_contra! wraps
    obtain ⟨large, admits, mem, member, offers⟩ := wraps
    rcases inv.malloc_cases size with
      ⟨-, misses⟩ | ⟨-, left, mem, right, next, -, -, -, -, -, taken⟩
    · exact misses admits mem member offers
    · have room := enough _ _ taken (by omega)
      have most := (inv.malloc_usable taken (by omega)).2
      omega
  · rintro (small | refuses) next pointer result nonnull
    · have exact_ : size.toNat = total := by
        rw [low, BitVec.toNat_ofNat]
        omega
      have rounded : size.toNat ≤ (rtAlign size).toNat := rtAlign_le (by omega)
      have room := (inv.malloc_usable result nonnull).1
      unfold requestSize at room
      omega
    · rcases inv.malloc_cases size with
        ⟨refused, -⟩ | ⟨admits, left, mem, right, next, rfl, offers, -⟩
      · obtain ⟨-, rfl⟩ := Prod.mk.inj (Option.some_inj.mp (result.symm.trans refused))
        exact absurd rfl nonnull
      · exact absurd ⟨admits, mem, by simp, offers⟩ refuses

/-- What `rt_realloc` returns for a pointer in use has the room that was asked for,
unless the size is rounded up to none and the block is not left to `rt_malloc`. -/
theorem HeapInv.realloc_enough (inv : HeapInv base finish heap blocks live) {rmem : Nat}
    (member : rmem ∈ live) (newsize : BitVec 32) :
    (∀ next pointer, rtRealloc heap rmem newsize = some (next, pointer) → pointer ≠ 0 →
        newsize.toNat ≤ next.usable pointer) ↔
      newsize.toNat ≤ 0xFFFFFFFC ∨ 0 < heap.usable rmem ∧ heap.usable rmem ≤ 24 := by
  obtain ⟨mem, here, used, rfl⟩ := inv.exists_block member
  obtain ⟨left, right, rfl⟩ := List.append_of_mem here
  have usable := inv.usable_eq mem
  have cases := inv.realloc_cases newsize
  by_cases small : newsize.toNat ≤ 0xFFFFFFFC
  · have rounded := rtAlign_le small
    refine iff_of_true (fun next pointer result nonnull => ?_) (Or.inl small)
    rcases cases with ⟨-, outcome⟩ | ⟨same, outcome⟩ | ⟨fits, outcome⟩ | ⟨-, -, outcome⟩
    · obtain ⟨-, rfl⟩ := Prod.mk.inj (Option.some_inj.mp (result.symm.trans outcome))
      exact absurd rfl nonnull
    · obtain ⟨rfl, rfl⟩ := Prod.mk.inj (Option.some_inj.mp (result.symm.trans outcome))
      omega
    · obtain ⟨next', blocks', plugged, -, inv', -⟩ := inv.shrink used (rtAlign_mod newsize) fits
      rw [plugged] at outcome
      obtain ⟨rfl, rfl⟩ := Prod.mk.inj (Option.some_inj.mp (result.symm.trans outcome))
      rw [inv'.usable_eq, Heap.cut_next used plugged]
      omega
    · obtain ⟨heap', nmem, allocated, either⟩ := inv.malloc (rtAlign newsize)
      rw [outcome, allocated, Option.bind_some] at result
      rcases either with ⟨rfl, rfl⟩ | ⟨nonnull', blocks', inv', -⟩
      · obtain ⟨-, rfl⟩ := Prod.mk.inj (Option.some_inj.mp result)
        exact absurd rfl nonnull
      · rw [if_pos nonnull'] at result
        obtain ⟨final, freed, done⟩ := Option.map_eq_some_iff.mp result
        obtain ⟨rfl, rfl⟩ := Prod.mk.inj done
        have apart : nmem ≠ base + mem + 12 := by
          rintro rfl
          exact (List.nodup_cons.mp inv'.live_nodup).1 member
        have room := (inv.malloc_usable allocated nonnull').1
        have multiple := rtAlign_mod newsize
        have again : (rtAlign newsize).toNat ≤ (rtAlign (rtAlign newsize)).toNat :=
          rtAlign_le (by omega)
        rw [inv'.free_usable (by simp [member]) (by simp) apart freed]
        unfold requestSize at room
        omega
  · -- nothing is left of the size, and `rt_malloc` refuses to allocate nothing
    have none_ := rtAlign_wraps small
    rw [none_, BitVec.toNat_zero] at cases
    rcases cases with ⟨large, -⟩ | ⟨same, outcome⟩ | ⟨fits, outcome⟩ | ⟨less, differs, outcome⟩
    · omega
    · refine iff_of_false (fun enough => ?_) (by omega)
      have room := enough _ _ outcome (by omega)
      omega
    · refine iff_of_false (fun enough => ?_) (by omega)
      obtain ⟨next', blocks', plugged, -, inv', -⟩ :=
        @HeapInv.shrink _ _ _ _ _ _ _ 0 inv used rfl fits
      rw [plugged] at outcome
      have room := enough _ _ outcome (by omega)
      rw [inv'.usable_eq, Heap.cut_next used plugged] at room
      omega
    · refine iff_of_true (fun next pointer result nonnull => ?_) (by omega)
      have refused : rtMalloc heap 0#32 = some (heap, 0) := if_pos rfl
      rw [outcome, refused] at result
      obtain ⟨-, rfl⟩ := Prod.mk.inj (Option.some_inj.mp result)
      exact absurd rfl nonnull

end

/-- `rt_calloc` allocates what `rt_malloc` does for the product. -/
theorem rtCalloc_usable (memory : HeapMemory) (count size : BitVec 32) (total : Nat) :
    (∀ next pointer, memory.rtCalloc count size = some (next, pointer) → pointer ≠ 0 →
        total ≤ next.heap.usable pointer) ↔
      ∀ next pointer, rtMalloc memory.heap (count * size) = some (next, pointer) → pointer ≠ 0 →
        total ≤ next.usable pointer := by
  have headers := memory.rtCalloc_heap count size
  constructor
  · intro enough next pointer result nonnull
    rw [← headers] at result
    obtain ⟨⟨memory', pointer'⟩, cleared, same⟩ := Option.map_eq_some_iff.mp result
    obtain ⟨rfl, rfl⟩ := Prod.mk.inj same
    exact enough _ _ cleared nonnull
  · intro enough next pointer cleared nonnull
    rw [cleared] at headers
    exact enough _ _ headers.symm nonnull

/-- What an allocation returns has the room that was asked for if and only if the size
does not wrap around or nothing is returned. -/
theorem allocation_sizes {magic : Nat → BitVec 16} {used : Nat → Bool} {links : Links Nat}
    {beginAddr endAddr : BitVec 32} {heap : Heap} {calls : List HeapCall} {pointers : List Nat}
    {system : HeapSystem} {blocks : List Nat}
    (init : rtSystemHeapInit magic used links beginAddr endAddr = some heap)
    (run : heapMachine.Run HeapSystem.OwnsArgument ⟨heap, []⟩ calls pointers system)
    (kept : HeapKept system blocks) :
    (∀ size : BitVec 32,
      (∀ next pointer, rtMalloc system.heap size = some (next, pointer) → pointer ≠ 0 →
          size.toNat ≤ next.usable pointer) ↔
        size.toNat ≤ 0xFFFFFFFC ∨ ¬ system.heap.Grants blocks size) ∧
    (∀ (bytes : Nat → BitVec 8) (count size : BitVec 32),
      (∀ next pointer, (HeapMemory.mk system.heap bytes).rtCalloc count size = some (next, pointer) →
          pointer ≠ 0 → count.toNat * size.toNat ≤ next.heap.usable pointer) ↔
        count.toNat * size.toNat ≤ 0xFFFFFFFC ∨ ¬ system.heap.Grants blocks (count * size)) ∧
    ∀ rmem ∈ system.live, ∀ newsize : BitVec 32,
      (∀ next pointer, rtRealloc system.heap rmem newsize = some (next, pointer) → pointer ≠ 0 →
          newsize.toNat ≤ next.usable pointer) ↔
        newsize.toNat ≤ 0xFFFFFFFC ∨
          0 < system.heap.usable rmem ∧ system.heap.usable rmem ≤ 24 := by
  have bound := (rtSystemHeapInit_size init).2
  rcases heap_reached init (fun _ _ owns => owns) run with ⟨blocks', inv, -⟩ | ⟨small, rfl⟩
  · obtain rfl := kept.unique inv.kept
    have size : system.heap.memSizeAligned = heap.memSizeAligned := by
      have ends := inv.ends
      simp only [Heap.heapEnd] at ends
      omega
    rw [← size] at bound
    refine ⟨fun size => inv.malloc_enough bound (by simp), fun bytes count size => ?_,
      fun rmem member newsize => inv.realloc_enough member newsize⟩
    rw [rtCalloc_usable]
    refine inv.malloc_enough bound ?_
    rw [BitVec.ofNat_mul]
    simp
  · have fresh := rtSystemHeapInit_fresh init
    have refuses : ∀ size, ¬ heap.Grants blocks size := by
      rintro size ⟨-, mem, -, -, early, -⟩
      unfold requestSize at early
      omega
    have null : ∀ size total next pointer, rtMalloc heap size = some (next, pointer) →
        pointer ≠ 0 → total ≤ next.usable pointer := fun size total next pointer result nonnull =>
      absurd (fresh.malloc small result).2.2 nonnull
    refine ⟨fun size => iff_of_true (null size _) (Or.inr (refuses size)),
      fun bytes count size => ?_, by simp⟩
    rw [rtCalloc_usable]
    exact iff_of_true (null _ _) (Or.inr (refuses _))

theorem Heap.Fresh.grants {heap : Heap} (fresh : heap.Fresh) {size : BitVec 32}
    (nonzero : size ≠ 0#32) (room : requestSize size < heap.memSizeAligned) :
    heap.Grants [0] size := by
  have admitted : (rtAlign size).toNat ≤ requestSize size := Nat.le_max_left ..
  refine ⟨⟨nonzero, by omega⟩, 0, by simp, ?_, by omega, fresh.unused, ?_⟩
  · rw [fresh.lfree]
  · rw [fresh.next, Heap.heapEnd]
    omega

/-- A kilobyte, from which 40 bytes have been taken. -/
theorem heap_one_block : ∃ heap system pointer blocks,
    rtSystemHeapInit (fun _ => 0) (fun _ => false) ⟨fun _ => 0, fun _ => 0⟩ 0x1000#32 0x1400#32 =
      some heap ∧ heap.memSizeAligned = 1000 ∧
    heapMachine.Run HeapSystem.OwnsArgument ⟨heap, []⟩ [.malloc 40#32] [pointer] system ∧
    HeapInv heap.heapPtr heap.heapEnd system.heap blocks system.live ∧ system.live = [pointer] ∧
    40 ≤ system.heap.usable pointer := by
  obtain ⟨heap, init, size⟩ : ∃ heap, rtSystemHeapInit (fun _ => 0) (fun _ => false)
      ⟨fun _ => 0, fun _ => 0⟩ 0x1000#32 0x1400#32 = some heap ∧ heap.memSizeAligned = 1000 :=
    ⟨_, rfl, by decide⟩
  have fresh := rtSystemHeapInit_fresh init
  have inv := rtSystemHeapInit_inv init (by omega)
  have request : requestSize 40#32 = 40 := by decide
  obtain ⟨admits, mem, member, offers⟩ := @Heap.Fresh.grants heap fresh 40#32 (by decide) (by omega)
  rcases inv.malloc_cases 40#32 with
    ⟨-, misses⟩ | ⟨-, left, mem, right, next, -, -, -, inv', -, taken⟩
  · exact absurd offers (misses admits mem member)
  · have nonnull : heap.heapPtr + mem + 12 ≠ 0 := by omega
    have room := (inv.malloc_usable taken nonnull).1
    rw [request] at room
    have step : heapMachine.step ⟨heap, []⟩ (.malloc 40#32) =
        some (⟨next, [heap.heapPtr + mem + 12]⟩, [heap.heapPtr + mem + 12]) := by
      simp [heapMachine, HeapCall.apply, HeapCall.follow, taken]
    exact ⟨heap, ⟨next, _⟩, _, _, init, size, .snoc .nil trivial step, inv', rfl, room⟩

theorem allocation_sizes_one_block : ∃ system blocks rmem, HeapKept system blocks ∧
    rmem ∈ system.live ∧
    ((∀ next pointer, rtMalloc system.heap 100#32 = some (next, pointer) → pointer ≠ 0 →
        (100#32).toNat ≤ next.usable pointer) ↔
      (100#32).toNat ≤ 0xFFFFFFFC ∨ ¬ system.heap.Grants blocks 100#32) ∧
    ((∀ next pointer, rtRealloc system.heap rmem 100#32 = some (next, pointer) → pointer ≠ 0 →
        (100#32).toNat ≤ next.usable pointer) ↔
      (100#32).toNat ≤ 0xFFFFFFFC ∨
        0 < system.heap.usable rmem ∧ system.heap.usable rmem ≤ 24) := by
  obtain ⟨heap, system, pointer, blocks, init, -, run, inv, live, -⟩ := heap_one_block
  obtain ⟨allocates, -, resizes⟩ := allocation_sizes init run inv.kept
  have member : pointer ∈ system.live := by simp [live]
  exact ⟨system, blocks, pointer, inv.kept, member, allocates _, resizes _ member _⟩

/-- A kilobyte: the largest size gets a block, and so does a product that wraps around.
Of a block of 40 bytes nothing is left when the largest size is asked for. -/
theorem allocation_wraps : ∃ heap system pointer blocks,
    rtSystemHeapInit (fun _ => 0) (fun _ => false) ⟨fun _ => 0, fun _ => 0⟩ 0x1000#32 0x1400#32 =
      some heap ∧ HeapKept ⟨heap, []⟩ [0] ∧
    (∃ next pointer, rtMalloc heap 0xFFFFFFFF#32 = some (next, pointer) ∧ pointer ≠ 0 ∧
      next.usable pointer < (0xFFFFFFFF#32).toNat) ∧
    (∃ next pointer, (HeapMemory.mk heap fun _ => 0).rtCalloc 0x40000001#32 4#32 =
        some (next, pointer) ∧ pointer ≠ 0 ∧
      next.heap.usable pointer < (0x40000001#32).toNat * (4#32).toNat) ∧
    heapMachine.Run HeapSystem.OwnsArgument ⟨heap, []⟩ [.malloc 40#32] [pointer] system ∧
    HeapKept system blocks ∧ pointer ∈ system.live ∧
      ∃ next pointer', rtRealloc system.heap pointer 0xFFFFFFFF#32 = some (next, pointer') ∧
        pointer' ≠ 0 ∧ next.usable pointer' < (0xFFFFFFFF#32).toNat := by
  obtain ⟨heap, system, pointer, blocks, init, size, run, inv', live, room⟩ := heap_one_block
  have fresh := rtSystemHeapInit_fresh init
  have inv := rtSystemHeapInit_inv init (by omega)
  have bound := (rtSystemHeapInit_size init).2
  have request : requestSize 0xFFFFFFFF#32 = 12 := by decide
  have product : requestSize (0x40000001#32 * 4#32) = 12 := by decide
  have member : pointer ∈ system.live := by simp [live]
  have least := fresh.grants (show 0xFFFFFFFF#32 ≠ 0#32 by decide) (by omega)
  have wrapped := fresh.grants (show 0x40000001#32 * 4#32 ≠ 0#32 by decide) (by omega)
  have allocated := (inv.malloc_enough bound
    (show 0xFFFFFFFF#32 = BitVec.ofNat 32 (0xFFFFFFFF#32).toNat by decide)).not.mpr (by
      simp [least])
  have cleared := (inv.malloc_enough bound (show 0x40000001#32 * 4#32 =
    BitVec.ofNat 32 ((0x40000001#32).toNat * (4#32).toNat) by decide)).not.mpr (by
      rintro (small | refuses)
      · revert small
        decide
      · exact refuses wrapped)
  rw [← rtCalloc_usable ⟨heap, fun _ => 0⟩] at cleared
  have resized := (inv'.realloc_enough member 0xFFFFFFFF#32).not.mpr (by
    rintro (small | ⟨-, short⟩)
    · revert small
      decide
    · omega)
  simp only [not_forall, Nat.not_le] at allocated cleared resized
  obtain ⟨next, result, taken, nonnull, short⟩ := allocated
  obtain ⟨next', result', taken', nonnull', short'⟩ := cleared
  obtain ⟨next'', result'', taken'', nonnull'', short''⟩ := resized
  exact ⟨heap, system, pointer, blocks, init, inv.kept, ⟨next, result, taken, nonnull, short⟩,
    ⟨next', result', taken', nonnull', short'⟩, run, inv'.kept, member, next'', result'', taken'',
    nonnull'', short''⟩

end RtThread
