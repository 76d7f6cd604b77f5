import RtThread.Memory.MemheapSound

/-!
# What an allocation from a memory heap finds

`rt_memheap_alloc` searches the free list only if the aligned size is less than the number of
available bytes. The search itself finds a block whenever one is large enough.
-/

namespace RtThread

open RtThread.Std

/-- The data bytes of a block. -/
def Memheap.blockSize (heap : Memheap) (block : Nat) : Nat := heap.blocks.next block - block - 24

/-- A pointer has at least `size` bytes behind it, and without one no free block has
`max(RT_ALIGN(size, 4), RT_MEMHEAP_MINIALLOC)` bytes. -/
def Memheap.AllocExact (heap : Memheap) (frees : List Nat) (size : BitVec 32) : Prop :=
  ∃ next ptr, rtMemheapAlloc heap size = some (next, ptr) ∧
    (ptr ≠ 0 → ptr + size.toNat ≤ next.blocks.next (ptr - 24)) ∧
    (ptr = 0 → ∀ block ∈ frees, heap.blockSize block < max (rtAlign size).toNat 12)

section

variable {heap next : Memheap} {blocks frees : List Nat} {live : List (Nat × BitVec 32)}
  {size : BitVec 32}

theorem Memheap.requestSize_eq (size : BitVec 32) :
    Memheap.requestSize size = max (rtAlign size).toNat 12 := by
  unfold Memheap.requestSize
  dsimp only
  split <;> omega

/-- A search that ends without a block has looked at each of them. -/
theorem Memheap.findFree_small {bytes fuel freeSize x header found : Nat}
    (segment : heap.frees.Segment x frees heap.freeList) (apart : heap.freeList ∉ frees)
    (small : freeSize < bytes)
    (searched : heap.findFree bytes fuel (heap.frees.next x) freeSize = some (header, found))
    (short : found < bytes) : ∀ block ∈ frees, heap.blockSize block < bytes := by
  induction frees generalizing x fuel freeSize with
  | nil => simp
  | cons node frees ih =>
      obtain ⟨toNode, -, rest⟩ := segment
      obtain ⟨notHead, notLater⟩ := List.ne_and_not_mem_of_not_mem_cons apart
      cases fuel with
      | zero => cases searched
      | succ fuel =>
          rw [toNode, findFree, if_pos ⟨Ne.symm notHead, small⟩] at searched
          dsimp only at searched
          by_cases fits : heap.blockSize node < bytes
          · rw [blockSize] at fits
            rw [if_pos fits] at searched
            intro block member
            rcases List.mem_cons.mp member with rfl | member
            · exact fits
            · exact ih rest notLater fits searched block member
          · rw [blockSize] at fits
            rw [if_neg fits] at searched
            cases fuel with
            | zero => cases searched
            | succ fuel =>
                rw [findFree, if_neg (by simp [fits])] at searched
                obtain ⟨-, rfl⟩ := Prod.mk.inj (Option.some_inj.mp searched)
                exact absurd short fits

/-- The block taken fits, and none fits if none is taken. -/
theorem MemheapInv.takeBlock_fits (inv : MemheapInv heap blocks frees live) {bytes : Nat}
    {found : Option Nat} (positive : 0 < bytes)
    (taken : heap.takeBlock bytes = some (next, found)) :
    found = none ↔ ∀ block ∈ frees, heap.blockSize block < bytes := by
  have apart := (List.nodup_cons.mp inv.ring.distinct).1
  obtain ⟨header, freeSize, searched, either⟩ := @Memheap.findFree_spec heap frees bytes
    heap.poolSize 0 heap.freeList inv.ring.segment apart inv.frees_length positive
  simp only [Memheap.takeBlock, searched, Option.bind_eq_bind, Option.bind_some] at taken
  rcases either with short | ⟨member, rfl, fits⟩
  · rw [if_neg (Nat.not_le.mpr short)] at taken
    obtain ⟨-, rfl⟩ := Prod.mk.inj (Option.some_inj.mp taken)
    exact iff_of_true rfl
      (Memheap.findFree_small inv.ring.segment apart positive searched short)
  · rw [if_pos fits] at taken
    refine iff_of_false ?_ fun all => Nat.not_lt.mpr fits (all header member)
    rintro rfl
    split at taken <;> cases (Prod.mk.inj (Option.some_inj.mp taken)).2

/-- A free block is no larger than what is available. -/
theorem MemheapInv.blockSize_le (inv : MemheapInv heap blocks frees live) {block : Nat}
    (member : block ∈ frees) : heap.blockSize block ≤ heap.availableSize := by
  obtain ⟨here, unused⟩ := List.mem_filter.mp (inv.spare.subset member)
  obtain ⟨left, right, rfl⟩ := List.append_of_mem here
  exact inv.spare_le (by simpa using unused)

/-- An allocated block is as long as the request unless the request wraps around. -/
theorem MemheapInv.serves_new {h : Nat} (inv : MemheapInv heap blocks frees ((h + 24, size) :: live))
    (small : heap.poolSize < 2 ^ 32) :
    h + 24 + size.toNat ≤ heap.blocks.next h ↔ size.toNat ≤ 0xFFFFFFFC := by
  constructor
  · intro long
    have kept := @MemheapInv.kept blocks frees ⟨heap, (h + 24, size) :: live⟩ inv
    have inside := kept.within (h + 24) (by simp)
    have tailer := kept.tailer.2
    rw [Nat.add_sub_cancel] at inside
    dsimp only at inside tailer
    omega
  · intro modest
    have long := inv.served (h + 24, size) List.mem_cons_self
    have aligned := rtAlign_toNat modest
    rw [Memheap.requestSize_eq, Nat.add_sub_cancel] at long
    dsimp only at long
    omega

theorem MemheapInv.allocExact_iff (inv : MemheapInv heap blocks frees live)
    (small : heap.poolSize < 2 ^ 32) (size : BitVec 32) :
    heap.AllocExact frees size ↔
      (∀ block ∈ frees, heap.blockSize block < max (rtAlign size).toNat 12) ∨
        size.toNat ≤ 0xFFFFFFFC ∧ max (rtAlign size).toNat 12 ≠ heap.availableSize := by
  have request := Memheap.requestSize_eq size
  rw [Memheap.AllocExact, rtMemheapAlloc, request]
  by_cases enough : max (rtAlign size).toNat 12 < heap.availableSize
  · obtain ⟨next, found, taken, either⟩ := inv.takeBlock size
    have fits := inv.takeBlock_fits (Memheap.requestSize_pos size) taken
    rw [request] at fits taken
    rcases either with ⟨rfl, rfl⟩ | ⟨h, rfl, blocks', frees', inv'⟩
    · have none_ := fits.mp rfl
      refine iff_of_true ⟨next, 0, ?_, by simp, fun _ => none_⟩ (Or.inl none_)
      simp [enough, taken]
    · have some_ : ¬ ∀ block ∈ frees, heap.blockSize block < max (rtAlign size).toNat 12 :=
        fun all => Option.some_ne_none _ (fits.mpr all)
      have pool : (next.markUsed h).poolSize < 2 ^ 32 := by
        rw [show (next.markUsed h).poolSize = next.poolSize from Memheap.setMagic_poolSize ..,
          Memheap.takeBlock_poolSize taken]
        exact small
      have serves := inv'.serves_new pool
      rw [or_iff_right some_, and_iff_left (Nat.ne_of_lt enough), ← serves]
      simp [enough, taken]
  · have same : (∀ block ∈ frees, heap.blockSize block < max (rtAlign size).toNat 12) ↔
        (∀ block ∈ frees, heap.blockSize block < max (rtAlign size).toNat 12) ∨
          size.toNat ≤ 0xFFFFFFFC ∧ max (rtAlign size).toNat 12 ≠ heap.availableSize := by
      refine ⟨Or.inl, fun either => either.elim id fun wraps block member => ?_⟩
      have counted := inv.blockSize_le member
      have differs := wraps.2
      omega
    rw [← same]
    simp [enough]

end

/-- In each state that the calls lead to, an allocation is exact if no free block is large enough,
or if aligning the size does not wrap around and the request is not for all that is available. -/
theorem memheap_alloc_exact {self header startAddr : Nat} {magic : Nat → BitVec 32}
    {poolPtr : Nat → Nat} {links freeLinks : Links Nat} {poolSize : BitVec 32}
    {calls : List MemheapCall} {pointers : List Nat} {system : MemheapSystem}
    (enough : 48 ≤ poolSize.toNat)
    (outside : header < startAddr ∨ startAddr + poolSize.toNat ≤ header)
    (run : memheapMachine.Run MemheapSystem.OwnsArgument
      ⟨rtMemheapInit self header magic poolPtr links freeLinks startAddr poolSize, []⟩ calls
      pointers system) :
    ∃ blocks frees, MemheapKept system blocks frees ∧ ∀ size,
      (system.heap.AllocExact frees size ↔
        (∀ block ∈ frees, system.heap.blockSize block < max (rtAlign size).toNat 12) ∨
          size.toNat ≤ 0xFFFFFFFC ∧ max (rtAlign size).toNat 12 ≠ system.heap.availableSize) := by
  obtain ⟨small, blocks, frees, inv⟩ := memheapInv_of_run enough outside run
  exact ⟨blocks, frees, inv.kept, inv.allocExact_iff small⟩

theorem memheap_alloc_exact_two_blocks : ∃ system pointers,
    memheapMachine.Run MemheapSystem.OwnsArgument ⟨kilobyte, []⟩
      [.alloc 40#32, .alloc 5#32, .free 4120] pointers system ∧
    ∃ blocks frees, MemheapKept system blocks frees ∧ system.heap.AllocExact frees 100 := by
  have executed : ((memheapMachine.restrict MemheapSystem.OwnsArgument).execute ⟨kilobyte, []⟩
      [.alloc 40#32, .alloc 5#32, .free 4120]).map (fun (system, _) =>
        system.heap.availableSize) = some 916 := by decide +kernel
  obtain ⟨⟨system, pointers⟩, result, available⟩ := Option.map_eq_some_iff.mp executed
  have run := Machine.run_of_execute_restrict result
  dsimp only at available
  obtain ⟨blocks, frees, kept, exact_⟩ := memheap_alloc_exact (by decide) (by decide) run
  refine ⟨system, pointers, run, blocks, frees, kept, (exact_ 100).mpr (Or.inr ⟨by decide, ?_⟩)⟩
  rw [available]
  decide

/-- A request for all that is available finds nothing, and a request that wraps around is handed
12 bytes. -/
theorem memheap_alloc_inexact :
    MemheapKept ⟨kilobyte, []⟩ [0x1000] [0x1000] ∧ ¬ kilobyte.AllocExact [0x1000] 976 ∧
      ¬ kilobyte.AllocExact [0x1000] 0xFFFFFFFF := by
  have inv : MemheapInv kilobyte [0x1000] [0x1000] [] :=
    rtMemheapInit_inv (by decide) (Or.inl (by decide))
  have exact_ := inv.allocExact_iff (by decide)
  refine ⟨@MemheapInv.kept _ _ ⟨kilobyte, []⟩ inv, ?_, ?_⟩
  · rw [exact_]
    decide
  · rw [exact_]
    decide

end RtThread
