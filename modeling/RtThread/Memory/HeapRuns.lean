import RtThread.Memory.HeapSteps

/-!
# Runs of the system heap

Every call keeps the invariant and has a result, whatever the sizes. What is
allocated can be given back in any order, and then the heap is one free block.
-/

namespace RtThread

open RtThread.Std

section

variable {base finish : Nat} {heap : Heap} {blocks left right live : List Nat} {mem : Nat}

/-- The header is new; apart from the links, it is all that `splitBlock` writes. -/
theorem Heap.splitBlock_eq (heap : Heap) (mem size : Nat) :
    heap.splitBlock mem size = { heap with
      used := Function.update heap.used (mem + 12 + size) false
      links := (heap.splitBlock mem size).links } := by
  unfold Heap.splitBlock
  dsimp only
  split <;> rfl

/-- `lfree` moves on to a free block or the sentinel, and over no free block. -/
theorem Heap.advanceFree_spec (tiles : Tiles 12 (· ≠ finish) heap.links (blocks ++ [finish]))
    (ends : heap.heapEnd = finish) (member : mem ∈ blocks)
    (lfree : heap.lfree ≠ mem →
      heap.lfree = finish ∨ heap.lfree ∈ blocks ∧ heap.used heap.lfree = false) :
    ∃ lfree', heap.advanceFree mem = some { heap with lfree := lfree' } ∧
      (lfree' = finish ∨ lfree' ∈ blocks ∧ heap.used lfree' = false) ∧
      ((∀ block ∈ blocks, heap.used block = false → heap.lfree ≤ block) →
        ∀ block ∈ blocks, heap.used block = false → lfree' ≤ block) := by
  by_cases taken : mem = heap.lfree
  · obtain ⟨before, rest, whole⟩ := List.append_of_mem (List.mem_append_left [finish] member)
    rw [whole] at tiles
    have suffix : Tiles 12 (· ≠ heap.heapEnd) heap.links (mem :: rest) := by
      rw [ends]
      exact tiles.right_of_append
    have last := congrArg List.getLast? whole
    rw [List.getLast?_concat, List.getLast?_append_of_ne_nil _ (by simp), ← ends] at last
    obtain ⟨found, here, result, free, lowest⟩ := Heap.findFree_spec suffix last.symm
    refine ⟨found, ?_, ?_, ?_⟩
    · rw [Heap.advanceFree, if_pos taken, ← taken, result]
      exact if_pos free
    · have inside : found ∈ blocks ++ [finish] := by
        rw [whole]
        exact List.mem_append_right _ here
      rcases List.mem_append.mp inside with inside | atEnd
      · rw [ends] at free
        exact free.imp_right fun unused => ⟨inside, unused⟩
      · exact Or.inl (List.mem_singleton.mp atEnd)
    · intro lower block there unused
      have known := List.mem_append_left [finish] there
      rw [whole] at known
      rcases List.mem_append.mp known with earlier | later
      · -- nothing in front of `lfree` is free
        have room := (List.pairwise_append.mp tiles.pairwise).2.2 block earlier mem (by simp)
        have above := lower block there unused
        omega
      · exact lowest block later unused
  · refine ⟨heap.lfree, ?_, lfree (Ne.symm taken), id⟩
    rw [Heap.advanceFree, if_neg taken]

theorem Heap.occupy_split {size : Nat} (fits : size + 24 ≤ heap.links.next mem - (mem + 12)) :
    heap.occupy mem size = { heap with
      usedMem := heap.usedMem + (size + 12)
      maxMem := max heap.maxMem (heap.usedMem + (size + 12))
      magic := Function.update heap.magic mem heapMagic
      used := Function.update (Function.update heap.used (mem + 12 + size) false) mem true
      links := (heap.splitBlock mem size).links } := by
  rw [Heap.occupy, if_pos fits, heap.splitBlock_eq]
  rfl

theorem Heap.occupy_whole {size : Nat} (tight : ¬ size + 24 ≤ heap.links.next mem - (mem + 12)) :
    heap.occupy mem size = { heap with
      usedMem := heap.usedMem + (heap.links.next mem - mem)
      maxMem := max heap.maxMem (heap.usedMem + (heap.links.next mem - mem))
      magic := Function.update heap.magic mem heapMagic
      used := Function.update heap.used mem true } := by
  rw [Heap.occupy, if_neg tight]
  rfl

/-- Blocks other than the one at `mem` have kept their magic number. -/
theorem HeapShape.magic_mark {used' : Nat → Bool} (shape : HeapShape base finish heap blocks live)
    (marked : ∀ block ∈ blocks, block ≠ mem → used' block = heap.used block) :
    ∀ block ∈ blocks, used' block = true →
      Function.update heap.magic mem heapMagic block = heapMagic := by
  intro block member inUse
  by_cases same : block = mem
  · rw [same, Function.update_self]
  · rw [Function.update_of_ne same]
    rw [marked block member same] at inUse
    exact shape.magic block member inUse

/-- A block that is free and large enough is taken, and a new header is put behind
what is needed of it. -/
theorem HeapInv.occupySplit {size : Nat}
    (inv : HeapInv base finish heap (left ++ mem :: right) live)
    (unused : heap.used mem = false) (aligned : size % 4 = 0)
    (fits : size + 24 ≤ heap.links.next mem - (mem + 12)) :
    ∃ next, (heap.occupy mem size).advanceFree mem = some next ∧
      HeapInv base finish next (left ++ mem :: (mem + 12 + size) :: right)
        ((base + mem + 12) :: live) ∧
      (heap.Lowest (left ++ mem :: right) →
        next.Lowest (left ++ mem :: (mem + 12 + size) :: right)) := by
  obtain ⟨next, rest, follows⟩ := HeapShape.exists_next right finish
  have separated := inv.separated
  rw [List.append_assoc, List.cons_append, follows] at separated
  obtain ⟨before, either, behind⟩ := Separated.split.mp separated
  have nextUsed := either.resolve_left (by simp [unused])
  have grows : (base + mem + 12) :: live =
      if heap.used mem = true then live else (base + mem + 12) :: live := by
    rw [if_neg (by simp [unused])]
  rw [Heap.occupy_split fits]
  rw [inv.links_next follows] at fits
  have tiles := inv.splitBlock_tiles follows (show mem + 12 + size + 12 ≤ next by omega)
  have whole : left ++ mem :: (mem + 12 + size) :: right ++ [finish] =
      left ++ mem :: (mem + 12 + size) :: next :: rest := by
    simp [follows]
  have distinct := tiles.nodup (by decide)
  rw [whole] at distinct
  obtain ⟨-, inner, outside⟩ := List.nodup_append.mp distinct
  obtain ⟨outer, inner⟩ := List.nodup_cons.mp inner
  have notBehind := (List.nodup_cons.mp inner).1
  have notBlock : ∀ block ∈ left ++ mem :: right, block ≠ mem + 12 + size := by
    rintro block member rfl
    rcases List.mem_append.mp member with member | member
    · exact outside _ member _ (by simp) rfl
    · rcases List.mem_cons.mp member with same | member
      · omega
      · exact notBehind (follows ▸ List.mem_append_left _ member)
  obtain ⟨lfree, advanced, free, lowest⟩ := @Heap.advanceFree_spec finish { heap with
    usedMem := heap.usedMem + (size + 12)
    maxMem := max heap.maxMem (heap.usedMem + (size + 12))
    magic := Function.update heap.magic mem heapMagic
    used := Function.update (Function.update heap.used (mem + 12 + size) false) mem true
    links := (heap.splitBlock mem size).links } _ mem tiles inv.ends (by simp) (by
      dsimp only
      intro apart
      refine inv.lfree.imp_right fun free => ⟨?_, ?_⟩
      · have member := free.1
        simp only [List.mem_append, List.mem_cons] at member ⊢
        tauto
      · rw [Function.update_of_ne apart, Function.update_of_ne (notBlock _ free.1)]
        exact free.2)
  refine ⟨_, advanced, ⟨?_, ?_, by simp⟩, fun lower => lowest fun block member free => ?_⟩
  · refine inv.split follows (by omega) aligned rfl rfl rfl rfl ?_ ?_ free grows
    · refine inv.magic_mark fun block member apart => ?_
      dsimp only
      rw [Function.update_of_ne apart, Function.update_of_ne (notBlock block member)]
    · rw [usedSize, if_neg (by simp [unused])]
      rfl
  · have marked : ∀ block ∈ left ++ [mem], heap.used block = true →
        Function.update (Function.update heap.used (mem + 12 + size) false) mem true block =
          true := by
      intro block member used
      by_cases same : block = mem
      · rw [same, Function.update_self]
      · have known : block ≠ mem + 12 + size := by
          refine notBlock block ?_
          simp only [List.mem_append, List.mem_cons, List.not_mem_nil, or_false] at member ⊢
          tauto
        rwa [Function.update_of_ne same, Function.update_of_ne known]
    have behind' : Separated (Function.update (Function.update heap.used (mem + 12 + size) false)
        mem true) (next :: rest) :=
      (behind.update notBehind).update fun here => outer (List.mem_cons_of_mem _ here)
    have notMem : next ≠ mem := by
      rintro rfl
      exact outer (by simp)
    have notNew : next ≠ mem + 12 + size := by
      rintro rfl
      exact notBehind List.mem_cons_self
    have nextMarked : Function.update (Function.update heap.used (mem + 12 + size) false) mem true
        next = true := by
      rwa [Function.update_of_ne notMem, Function.update_of_ne notNew]
    rw [whole]
    exact Separated.split.mpr ⟨before.mono marked, Or.inl (Function.update_self ..),
      List.isChain_cons_cons.mpr ⟨Or.inr nextMarked, behind'⟩⟩
  · have atMem := lower mem (by simp) unused
    dsimp only at free ⊢
    by_cases new : block = mem + 12 + size
    · omega
    · have notMem : block ≠ mem := by
        rintro rfl
        simp at free
      rw [Function.update_of_ne notMem, Function.update_of_ne new] at free
      refine lower block ?_ free
      simp only [List.mem_append, List.mem_cons, new, false_or] at member ⊢
      exact member

/-- A block that is free and not much too large is taken. -/
theorem HeapInv.occupyWhole {size : Nat}
    (inv : HeapInv base finish heap (left ++ mem :: right) live) (unused : heap.used mem = false)
    (tight : ¬ size + 24 ≤ heap.links.next mem - (mem + 12)) :
    ∃ next, (heap.occupy mem size).advanceFree mem = some next ∧
      HeapInv base finish next (left ++ mem :: right) ((base + mem + 12) :: live) ∧
      (heap.Lowest (left ++ mem :: right) → next.Lowest (left ++ mem :: right)) := by
  obtain ⟨next, rest, follows⟩ := HeapShape.exists_next right finish
  have points := inv.links_next follows
  rw [Heap.occupy_whole tight]
  obtain ⟨lfree, advanced, free, lowest⟩ := @Heap.advanceFree_spec finish { heap with
    usedMem := heap.usedMem + (heap.links.next mem - mem)
    maxMem := max heap.maxMem (heap.usedMem + (heap.links.next mem - mem))
    magic := Function.update heap.magic mem heapMagic
    used := Function.update heap.used mem true } _ mem inv.tiles inv.ends (by simp) (by
      dsimp only
      intro apart
      refine inv.lfree.imp_right (And.imp_right fun unused => ?_)
      rwa [Function.update_of_ne apart])
  refine ⟨_, advanced, ⟨?_, ?_, by simp⟩, fun lower => lowest fun block member free => ?_⟩
  · refine inv.mark follows unused rfl rfl rfl rfl ?_ (by rw [points]) free
    refine inv.magic_mark fun block member apart => ?_
    dsimp only
    rw [Function.update_of_ne apart]
  · refine inv.separated.mono fun block member used => ?_
    dsimp only
    by_cases same : block = mem
    · rw [same, Function.update_self]
    · rwa [Function.update_of_ne same]
  · dsimp only at free ⊢
    have notMem : block ≠ mem := by
      rintro rfl
      simp at free
    rw [Function.update_of_ne notMem] at free
    exact lower block member free

/-- The header behind what `size` bytes need of the block at `mem`, if there is to be
one. -/
def Heap.remainder (heap : Heap) (mem size : Nat) : List Nat :=
  if size + 24 ≤ heap.links.next mem - (mem + 12) then [mem + 12 + size] else []

theorem HeapInv.occupy {size : Nat} (inv : HeapInv base finish heap (left ++ mem :: right) live)
    (unused : heap.used mem = false) (aligned : size % 4 = 0) :
    ∃ next, (heap.occupy mem size).advanceFree mem = some next ∧
      HeapInv base finish next (left ++ mem :: (heap.remainder mem size ++ right))
        ((base + mem + 12) :: live) ∧
      (heap.Lowest (left ++ mem :: right) →
        next.Lowest (left ++ mem :: (heap.remainder mem size ++ right))) := by
  unfold Heap.remainder
  split
  · exact inv.occupySplit unused aligned ‹_›
  · exact inv.occupyWhole unused ‹_›

/-- "every data block must be at least MIN_SIZE_ALIGNED long" -/
def requestSize (size : BitVec 32) : Nat := max (rtAlign size).toNat 12

theorem requestSize_eq (size : BitVec 32) :
    (if (rtAlign size).toNat < 12 then 12 else (rtAlign size).toNat) = requestSize size := by
  unfold requestSize
  split <;> omega

/-- The search of `rt_malloc` comes to the block at `mem`, and it fits. -/
def Heap.Offers (heap : Heap) (size mem : Nat) : Prop :=
  heap.lfree ≤ mem ∧ mem < heap.memSizeAligned - size ∧ heap.Fits size mem

/-- `rt_malloc` does not refuse the size before it searches. -/
def Heap.Admits (heap : Heap) (size : BitVec 32) : Prop :=
  size ≠ 0#32 ∧ (rtAlign size).toNat ≤ heap.memSizeAligned

/-- `rt_malloc` leaves the heap alone when the search offers no block, and takes a
block that it offers otherwise. -/
theorem HeapInv.malloc_cases (inv : HeapInv base finish heap blocks live) (size : BitVec 32) :
    rtMalloc heap size = some (heap, 0) ∧
        (heap.Admits size → ∀ mem ∈ blocks, ¬ heap.Offers (requestSize size) mem) ∨
      heap.Admits size ∧ ∃ left mem right next, blocks = left ++ mem :: right ∧
        heap.Offers (requestSize size) mem ∧
        (heap.occupy mem (requestSize size)).advanceFree mem = some next ∧
        HeapInv base finish next (left ++ mem :: (heap.remainder mem (requestSize size) ++ right))
          ((base + mem + 12) :: live) ∧
        (heap.Lowest blocks →
          next.Lowest (left ++ mem :: (heap.remainder mem (requestSize size) ++ right))) ∧
        rtMalloc heap size = some (next, base + mem + 12) := by
  unfold rtMalloc
  by_cases zero : size = 0#32
  · exact Or.inl ⟨if_pos zero, fun admits => absurd zero admits.1⟩
  rw [if_neg zero]
  dsimp only
  by_cases large : heap.memSizeAligned < (rtAlign size).toNat
  · exact Or.inl ⟨if_pos large, fun admits => absurd admits.2 (Nat.not_le_of_lt large)⟩
  rw [if_neg large]
  have ends := inv.ends
  have alignedRequest := rtAlign_mod size
  rw [requestSize_eq]
  have aligned : requestSize size % 4 = 0 := by
    unfold requestSize
    omega
  have firstRoom := inv.room 0 (List.mem_of_mem_head? inv.start)
  have enough : requestSize size ≤ heap.memSizeAligned := by
    simp only [Heap.heapEnd] at ends
    unfold requestSize
    omega
  have start : heap.lfree ∈ blocks ++ [finish] := by
    rcases inv.lfree with atEnd | ⟨member, -⟩
    · simp [atEnd]
    · exact List.mem_append_left _ member
  obtain ⟨rest, inside, tiles, last⟩ := inv.suffix start
  rw [← ends] at tiles last
  rcases Heap.findFit_spec enough tiles last with
    ⟨none_, misses⟩ | ⟨mem, member, found, within, fits⟩
  · refine Or.inl ⟨by simp [none_], fun _ mem member offers => ?_⟩
    exact misses mem ((inside mem).mpr ⟨List.mem_append_left _ member, offers.1⟩) offers.2.1
      offers.2.2
  · obtain ⟨known, above⟩ := (inside mem).mp member
    have here : mem ∈ blocks := by
      refine (List.mem_append.mp known).resolve_right fun atEnd => ?_
      rw [List.mem_singleton] at atEnd
      simp only [Heap.heapEnd] at ends
      omega
    obtain ⟨left, right, rfl⟩ := List.append_of_mem here
    have memAligned := inv.aligned.2 mem (by simp)
    have baseAligned := inv.aligned.1
    obtain ⟨next, advanced, inv', lowest⟩ := inv.occupy fits.1 aligned
    have asserts : mem + 12 + requestSize size ≤ next.heapEnd ∧
        (next.heapPtr + mem + 12) % 4 = 0 ∧ (next.heapPtr + mem) % 4 = 0 := by
      rw [inv'.ends, inv'.begins]
      simp only [Heap.heapEnd] at ends
      omega
    refine Or.inr ⟨⟨zero, Nat.le_of_not_lt large⟩, left, mem, right, next, rfl,
      ⟨above, within, fits⟩, advanced, inv', lowest, ?_⟩
    simp only [found, advanced, Option.bind_eq_bind, Option.bind_some, if_pos asserts]
    rw [inv'.begins]

/-- `rt_malloc` leaves the heap alone, or returns a pointer that was not in use. -/
theorem HeapInv.malloc (inv : HeapInv base finish heap blocks live) (size : BitVec 32) :
    ∃ next pointer, rtMalloc heap size = some (next, pointer) ∧
      (pointer = 0 ∧ next = heap ∨
        pointer ≠ 0 ∧ ∃ blocks', HeapInv base finish next blocks' (pointer :: live) ∧
          (heap.Lowest blocks → next.Lowest blocks')) := by
  rcases inv.malloc_cases size with
    ⟨result, -⟩ | ⟨-, left, mem, right, next, -, -, -, inv', lowest, result⟩
  · exact ⟨heap, 0, result, Or.inl ⟨rfl, rfl⟩⟩
  · exact ⟨next, base + mem + 12, result, Or.inr ⟨by omega, _, inv', lowest⟩⟩

theorem HeapShape.live_nodup (shape : HeapShape base finish heap blocks live) : live.Nodup := by
  have injective : Function.Injective fun block : Nat => base + block + 12 := by
    intro block block' same
    simp only at same
    omega
  have distinct := (List.nodup_append.mp shape.nodup).1.filter heap.used
  exact shape.handed.nodup_iff.mpr (distinct.map injective)

theorem HeapShape.zero_notMem (shape : HeapShape base finish heap blocks live) : 0 ∉ live := by
  intro member
  obtain ⟨mem, -, -, same⟩ := shape.exists_block member
  omega

/-- The order of the pointers does not matter. -/
theorem HeapInv.perm {live' : List Nat} (inv : HeapInv base finish heap blocks live)
    (same : live'.Perm live) : HeapInv base finish heap blocks live' := by
  refine ⟨{ inv.toHeapShape with handed := same.trans inv.handed }, inv.separated, ?_⟩
  rintro rfl
  exact inv.fresh same.nil_eq.symm

/-- The links do not depend on the counters. -/
theorem Heap.splitBlock_congr {heap' : Heap} (links : heap'.links = heap.links)
    (ends : heap'.memSizeAligned = heap.memSizeAligned) (mem size : Nat) :
    (heap'.splitBlock mem size).links = (heap.splitBlock mem size).links := by
  cases heap
  cases heap'
  dsimp only at links ends
  subst links ends
  unfold Heap.splitBlock
  dsimp only [Heap.setUsed, Heap.setNext, Heap.setPrev]
  split <;> rfl

/-- A used block is counted. -/
theorem HeapShape.usedSize_le {next : Nat} {rest : List Nat}
    (shape : HeapShape base finish heap (left ++ mem :: right) live)
    (follows : right ++ [finish] = next :: rest) : usedSize heap.used mem next ≤ heap.usedMem := by
  rw [shape.usedMem, List.append_assoc, List.cons_append, follows, weigh_split, weigh]
  omega

/-- The new header that `rt_realloc` writes, and what it takes off `used_mem`. -/
def Heap.cutBlock (heap : Heap) (mem size : Nat) : Heap :=
  ({ heap with usedMem := heap.usedMem - (heap.links.next mem - mem - 12 - size) }.setMagic
    (mem + 12 + size) heapMagic).splitBlock mem size

/-- `rt_realloc` cuts off what a block does not need any more. -/
theorem HeapInv.shrink {size : Nat} (inv : HeapInv base finish heap (left ++ mem :: right) live)
    (used : heap.used mem = true) (aligned : size % 4 = 0)
    (fits : size + 24 < heap.links.next mem - mem - 12) :
    ∃ next blocks', (heap.cutBlock mem size).plugHoles (mem + 12 + size) = some next ∧
      blocks'.Sublist (left ++ mem :: (mem + 12 + size) :: right) ∧
      HeapInv base finish next blocks' live ∧
      HeapShape base finish (heap.cutBlock mem size) (left ++ mem :: (mem + 12 + size) :: right)
        live ∧
      (heap.Lowest (left ++ mem :: right) →
        heap.lfree < mem ∨ right.head? = some heap.lfree → next.Lowest blocks') := by
  unfold Heap.cutBlock
  obtain ⟨next, rest, follows⟩ := HeapShape.exists_next right finish
  have counted := inv.usedSize_le follows
  rw [usedSize, if_pos used] at counted
  rw [inv.links_next follows] at fits ⊢
  have tiles := inv.splitBlock_tiles follows (show mem + 12 + size + 12 ≤ next by omega)
  have distinct := tiles.nodup (by decide)
  obtain ⟨-, inner, outside⟩ := List.nodup_append.mp (List.nodup_append.mp distinct).1
  obtain ⟨outer, inner⟩ := List.nodup_cons.mp inner
  have notBehind := (List.nodup_cons.mp inner).1
  have notBlock : ∀ block ∈ left ++ mem :: right, block ≠ mem + 12 + size := by
    rintro block member rfl
    rcases List.mem_append.mp member with member | member
    · exact outside _ member _ (by simp) rfl
    · rcases List.mem_cons.mp member with same | member
      · omega
      · exact notBehind member
  have marked : Function.update heap.used (mem + 12 + size) false mem = true := by
    rw [Function.update_of_ne (notBlock mem (by simp))]
    exact used
  generalize cut : (({ heap with usedMem := heap.usedMem - (next - mem - 12 - size) }
    ).setMagic (mem + 12 + size) heapMagic).splitBlock mem size = heap'
  have fields := ((({ heap with usedMem := heap.usedMem - (next - mem - 12 - size) }
    ).setMagic (mem + 12 + size) heapMagic)).splitBlock_eq mem size
  rw [cut] at fields
  have usedEq : heap'.used = Function.update heap.used (mem + 12 + size) false :=
    congrArg Heap.used fields
  have lfreeEq : heap'.lfree = heap.lfree := (congrArg Heap.lfree fields).trans rfl
  have magicEq : heap'.magic = Function.update heap.magic (mem + 12 + size) heapMagic :=
    congrArg Heap.magic fields
  have usedMemEq : heap'.usedMem = heap.usedMem - (next - mem - 12 - size) :=
    congrArg Heap.usedMem fields
  have shape : HeapShape base finish heap' (left ++ mem :: (mem + 12 + size) :: right) live := by
    refine inv.split follows (by omega) aligned ((congrArg Heap.heapPtr fields).trans rfl)
      ((congrArg Heap.heapEnd fields).trans rfl) ?_ ?_ ?_ ?_ ?_ (if_pos used).symm
    · rw [← cut]
      refine Heap.splitBlock_congr ?_ ?_ mem size <;> rfl
    · rw [usedEq]
      exact (Function.update_eq_self_iff.mpr marked.symm).symm
    · intro block member inUse
      have apart := notBlock block member
      rw [usedEq, Function.update_of_ne apart] at inUse
      rw [magicEq, Function.update_of_ne apart]
      exact inv.magic block member inUse
    · rw [usedMemEq, usedSize, if_pos used]
      omega
    · rw [lfreeEq, usedEq]
      refine inv.lfree.imp_right fun free => ⟨?_, ?_⟩
      · have member := free.1
        simp only [List.mem_append, List.mem_cons] at member ⊢
        tauto
      · rw [Function.update_of_ne (notBlock _ free.1)]
        exact free.2
  have nonempty : live ≠ [] := by
    rintro rfl
    have member : mem ∈ (left ++ mem :: right).filter heap.used :=
      List.mem_filter.mpr ⟨by simp, used⟩
    have none_ := List.map_eq_nil_iff.mp inv.handed.nil_eq.symm
    rw [none_] at member
    cases member
  have separated := inv.separated
  rw [List.append_assoc, List.cons_append, follows] at separated
  obtain ⟨before, -, behind⟩ := Separated.split.mp separated
  have below := inv.room mem (by simp)
  have regroup : left ++ mem :: (mem + 12 + size) :: right =
      (left ++ [mem]) ++ (mem + 12 + size) :: right := by simp
  rw [regroup] at shape ⊢
  have unused : heap'.used (mem + 12 + size) = false := by
    rw [usedEq, Function.update_self]
  have before' : Separated heap'.used (left ++ [mem]) := by
    rw [usedEq]
    refine before.update fun member => notBlock (mem + 12 + size) ?_ rfl
    simp only [List.mem_append, List.mem_cons, List.not_mem_nil, or_false] at member ⊢
    tauto
  have behind' : Separated heap'.used (right ++ [finish]) := by
    rw [usedEq, follows]
    refine behind.update fun member => ?_
    rw [← follows] at member
    rcases List.mem_append.mp member with member | atEnd
    · exact notBehind member
    · rw [List.mem_singleton] at atEnd
      have nextRoom := inv.next_le_finish follows
      omega
  obtain ⟨next', blocks', plugged, fewer, inv', lowest⟩ :=
    shape.plugHoles unused before' behind' fun empty => absurd empty nonempty
  refine ⟨next', blocks', plugged, fewer, inv', shape, fun lower near => lowest ?_ ?_⟩
  · intro block there free
    have known : block ∈ left ++ mem :: right := by
      simp only [List.mem_append, List.mem_cons, List.not_mem_nil, or_false] at there ⊢
      tauto
    rw [usedEq, Function.update_of_ne (notBlock block known)] at free
    rw [lfreeEq]
    exact lower block known free
  · rw [lfreeEq]
    exact near.imp_left fun lower => by omega

/-- What `rt_realloc` does with a pointer in use. -/
theorem HeapInv.realloc_cases (inv : HeapInv base finish heap (left ++ mem :: right) live)
    (newsize : BitVec 32) :
    (heap.memSizeAligned < (rtAlign newsize).toNat ∧
        rtRealloc heap (base + mem + 12) newsize = some (heap, 0)) ∨
      (heap.links.next mem - mem - 12 = (rtAlign newsize).toNat ∧
        rtRealloc heap (base + mem + 12) newsize = some (heap, base + mem + 12)) ∨
      ((rtAlign newsize).toNat + 24 < heap.links.next mem - mem - 12 ∧
        rtRealloc heap (base + mem + 12) newsize =
          ((heap.cutBlock mem (rtAlign newsize).toNat).plugHoles
            (mem + 12 + (rtAlign newsize).toNat)).map fun next => (next, base + mem + 12)) ∨
      (heap.links.next mem - mem - 12 ≤ (rtAlign newsize).toNat + 24 ∧
        heap.links.next mem - mem - 12 ≠ (rtAlign newsize).toNat ∧
        rtRealloc heap (base + mem + 12) newsize =
          (rtMalloc heap (rtAlign newsize)).bind fun result =>
            if result.2 ≠ 0 then (rtFree result.1 (base + mem + 12)).map fun next => (next, result.2)
            else some (result.1, 0)) := by
  unfold rtRealloc
  dsimp only
  by_cases large : heap.memSizeAligned < (rtAlign newsize).toNat
  · exact Or.inl ⟨large, if_pos large⟩
  have below := inv.room mem (by simp)
  have offset : base + mem + 12 - 12 - heap.heapPtr = mem := by
    rw [inv.begins]
    omega
  have within : ¬ (base + mem + 12 < heap.heapPtr ∨
      heap.heapPtr + heap.heapEnd ≤ base + mem + 12) := by
    rw [inv.begins, inv.ends]
    omega
  have null : base + mem + 12 ≠ 0 := by omega
  rw [if_neg large, if_neg null, if_neg within, offset]
  by_cases same : heap.links.next mem - mem - 12 = (rtAlign newsize).toNat
  · exact Or.inr (Or.inl ⟨same, if_pos same⟩)
  rw [if_neg same]
  by_cases fits : (rtAlign newsize).toNat + 12 + 12 < heap.links.next mem - mem - 12
  · rw [if_pos fits]
    exact Or.inr (Or.inr (Or.inl ⟨fits, (Option.map_eq_bind ..).symm⟩))
  · rw [if_neg fits]
    refine Or.inr (Or.inr (Or.inr ⟨by omega, same, ?_⟩))
    refine congrArg _ (funext fun result => ?_)
    obtain ⟨heap', nmem⟩ := result
    change (if nmem ≠ 0 then _ else _) = _
    split
    · exact (Option.map_eq_bind ..).symm
    · rfl

/-- When `rt_realloc` cuts something off a block below `lfree`, `lfree` is the next
block. -/
def Heap.CutsAbove (heap : Heap) (rmem : Nat) (newsize : BitVec 32) : Prop :=
  let mem := rmem - 12 - heap.heapPtr
  rmem ≠ 0 → (rtAlign newsize).toNat + 24 < heap.links.next mem - mem - 12 →
    heap.lfree < mem ∨ heap.links.next mem = heap.lfree ∧ heap.lfree ≠ heap.heapEnd

/-- `rt_realloc` leaves the heap alone, or returns a pointer in place of the one
it was given. -/
theorem HeapInv.realloc {rmem : Nat} (inv : HeapInv base finish heap blocks live)
    (newsize : BitVec 32) (owns : rmem = 0 ∨ rmem ∈ live) :
    ∃ next pointer, rtRealloc heap rmem newsize = some (next, pointer) ∧
      (pointer = 0 ∧ next = heap ∨
        pointer ≠ 0 ∧ ∃ blocks', HeapInv base finish next blocks' (pointer :: live.erase rmem) ∧
          (heap.Lowest blocks → heap.CutsAbove rmem newsize → next.Lowest blocks')) := by
  by_cases null : rmem = 0
  · unfold rtRealloc
    dsimp only
    by_cases large : heap.memSizeAligned < (rtAlign newsize).toNat
    · exact ⟨heap, 0, if_pos large, Or.inl ⟨rfl, rfl⟩⟩
    rw [if_neg large, if_pos null, null, List.erase_of_not_mem inv.zero_notMem]
    obtain ⟨next, pointer, result, either⟩ := inv.malloc (rtAlign newsize)
    refine ⟨next, pointer, result, either.imp_right (And.imp_right ?_)⟩
    rintro ⟨blocks', inv', lowest⟩
    exact ⟨blocks', inv', fun lower _ => lowest lower⟩
  have member := owns.resolve_left null
  obtain ⟨mem, here, used, rfl⟩ := inv.exists_block member
  obtain ⟨left, right, rfl⟩ := List.append_of_mem here
  rcases inv.realloc_cases newsize with
    ⟨-, result⟩ | ⟨-, result⟩ | ⟨fits, result⟩ | ⟨-, -, result⟩
  · exact ⟨heap, 0, result, Or.inl ⟨rfl, rfl⟩⟩
  · exact ⟨heap, _, result, Or.inr ⟨null, _, inv.perm (List.perm_cons_erase member).symm,
      fun lower _ => lower⟩⟩
  · obtain ⟨next, blocks', plugged, -, inv', -, lowest⟩ :=
      inv.shrink used (rtAlign_mod newsize) fits
    rw [plugged] at result
    refine ⟨next, _, result, Or.inr ⟨null, blocks',
      inv'.perm (List.perm_cons_erase member).symm, fun lower above => lowest lower ?_⟩⟩
    have offset : base + mem + 12 - 12 - heap.heapPtr = mem := by
      rw [inv.begins]
      omega
    rw [Heap.CutsAbove, offset] at above
    refine (above null fits).imp_right ?_
    rintro ⟨touches, inside⟩
    obtain ⟨after, rest, follows⟩ := HeapShape.exists_next right finish
    rw [inv.links_next follows] at touches
    rw [inv.ends, ← touches] at inside
    cases right with
    | nil => exact absurd (List.cons.inj follows).1.symm inside
    | cons first right =>
        rw [List.head?_cons, ← touches]
        exact congrArg some (List.cons.inj follows).1
  · obtain ⟨heap', nmem, allocated, either⟩ := inv.malloc (rtAlign newsize)
    rw [allocated] at result
    rcases either with ⟨rfl, rfl⟩ | ⟨nonnull, blocks', inv', lowest⟩
    · exact ⟨heap', 0, result, Or.inl ⟨rfl, rfl⟩⟩
    · obtain ⟨next, blocks'', freed, -, inv'', lowest'⟩ :=
        inv'.free (List.mem_cons_of_mem nmem member)
      have apart : nmem ≠ base + mem + 12 := by
        rintro rfl
        exact (List.nodup_cons.mp inv'.live_nodup).1 member
      rw [List.erase_cons_tail (by simpa using apart)] at inv''
      rw [Option.bind_some, if_pos nonnull, freed] at result
      exact ⟨next, nmem, result, Or.inr ⟨nonnull, blocks'', inv'',
        fun lower _ => lowest' (lowest lower)⟩⟩

/-! ## Runs -/

/-- The call is no `rt_realloc` that leaves a free block below `lfree`. -/
def HeapSystem.CutsAbove (system : HeapSystem) : HeapCall → Prop
  | .realloc rmem newsize => system.heap.CutsAbove rmem newsize
  | _ => True

/-- Every permitted call has a result, and the invariant holds again. -/
theorem HeapInv.step {system : HeapSystem} {blocks : List Nat}
    (inv : HeapInv base finish system.heap blocks system.live) {call : HeapCall}
    (owns : system.OwnsArgument call) :
    ∃ next pointer, heapMachine.step system call = some (next, [pointer]) ∧
      ∃ blocks', HeapInv base finish next.heap blocks' next.live ∧
        (system.heap.Lowest blocks → system.CutsAbove call → next.heap.Lowest blocks') := by
  cases call with
  | malloc size =>
      obtain ⟨heap, pointer, result, either⟩ := inv.malloc size
      refine ⟨⟨heap, _⟩, pointer, by simp [heapMachine, HeapCall.apply, result]; rfl, ?_⟩
      rcases either with ⟨rfl, rfl⟩ | ⟨nonnull, blocks', inv', lowest⟩
      · exact ⟨blocks, inv, fun lower _ => lower⟩
      · exact ⟨blocks', by simpa [HeapCall.follow, nonnull] using inv',
          fun lower _ => lowest lower⟩
  | realloc rmem newsize =>
      obtain ⟨heap, pointer, result, either⟩ := inv.realloc newsize owns
      refine ⟨⟨heap, _⟩, pointer, by simp [heapMachine, HeapCall.apply, result]; rfl, ?_⟩
      rcases either with ⟨rfl, rfl⟩ | ⟨nonnull, blocks', inv', lowest⟩
      · exact ⟨blocks, inv, fun lower _ => lower⟩
      · exact ⟨blocks', by simpa [HeapCall.follow, nonnull] using inv', lowest⟩
  | free rmem =>
      by_cases null : rmem = 0
      · refine ⟨⟨system.heap, system.live.erase rmem⟩, 0,
          by simp [heapMachine, HeapCall.apply, HeapCall.follow, rtFree, null], blocks, ?_,
          fun lower _ => lower⟩
        simpa [null, List.erase_of_not_mem inv.zero_notMem] using inv
      · obtain ⟨heap, blocks', freed, -, inv', lowest⟩ := inv.free (owns.resolve_left null)
        exact ⟨⟨heap, _⟩, 0, by simp [heapMachine, HeapCall.apply, freed]; rfl, blocks', inv',
          fun lower _ => lowest lower⟩

end

end RtThread
