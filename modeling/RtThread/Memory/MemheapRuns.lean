import RtThread.Memory.MemheapSteps

/-!
# Runs of a memory heap

The free list holds the blocks that are not used, and no two of them touch. The
operations keep this, and a block that is handed out is as large as the request,
unless the request was so large that aligning it wraps around.
-/

namespace RtThread

open RtThread.Std

section

variable {heap : Memheap} {blocks frees left right : List Nat} {live : List (Nat × BitVec 32)}
  {item h : Nat}

namespace Memheap

/-! ## The free list -/

theorem insertFree_eq (heap : Memheap) (item : Nat) :
    ∃ frees, heap.insertFree item = { heap with frees := frees } := ⟨_, rfl⟩

theorem insertFree_ring (ring : heap.frees.Circle heap.freeList frees)
    (fresh : item ∉ heap.freeList :: frees) :
    (heap.insertFree item).frees.Circle heap.freeList (item :: frees) := by
  have apart : item ≠ heap.freeList := fun same => fresh (same ▸ List.mem_cons_self)
  have notFirst : heap.frees.next heap.freeList ≠ item := fun same => fresh (same ▸ ring.next_mem)
  have next : (heap.insertFree item).frees.next = Function.update
      (Function.update heap.frees.next item (heap.frees.next heap.freeList)) heap.freeList item :=
    rfl
  have prev : (heap.insertFree item).frees.prev = Function.update
      (Function.update heap.frees.prev item heap.freeList) (heap.frees.next heap.freeList) item := by
    have reads : Function.update heap.frees.next item (heap.frees.next heap.freeList)
        heap.freeList = heap.frees.next heap.freeList := Function.update_of_ne apart.symm ..
    simp [insertFree, setNextFree, setPrevFree, Links.setNext, Links.setPrev, reads]
  refine ring.insertFront fresh ?_ ?_ ?_ ?_ ?_ ?_
  · rw [next, Function.update_self]
  · rw [next, Function.update_of_ne apart, Function.update_self]
  · rw [prev, Function.update_of_ne notFirst.symm, Function.update_self]
  · rw [prev, Function.update_self]
  · intro x notHead notItem
    rw [next, Function.update_of_ne notHead, Function.update_of_ne notItem]
  · intro x notItem notFirst
    rw [prev, Function.update_of_ne notFirst, Function.update_of_ne notItem]

theorem removeFree_ring (ring : heap.frees.Circle heap.freeList (left ++ item :: right)) :
    (heap.removeFree item).frees.Circle heap.freeList (left ++ right) := by
  have apart := ring.next_ne (show item ∈ left ++ item :: right by simp)
  have prev : (heap.removeFree item).frees.prev =
      Function.update heap.frees.prev (heap.frees.next item) (heap.frees.prev item) := rfl
  have next : (heap.removeFree item).frees.next =
      Function.update heap.frees.next (heap.frees.prev item) (heap.frees.next item) := by
    have reads : Function.update heap.frees.prev (heap.frees.next item) (heap.frees.prev item)
        item = heap.frees.prev item := Function.update_of_ne apart.symm ..
    simp [removeFree, setNextFree, setPrevFree, Links.setNext, Links.setPrev, reads]
  refine ring.remove ?_ ?_ ?_ ?_
  · rw [next, Function.update_self]
  · rw [prev, Function.update_self]
  · intro x notPrev _
    rw [next, Function.update_of_ne notPrev]
  · intro x notNext _
    rw [prev, Function.update_of_ne notNext]

/-- An item outside the ring may lose its pointers. -/
theorem clearFree_ring (ring : heap.frees.Circle heap.freeList frees)
    (outside : item ∉ heap.freeList :: frees) :
    (heap.clearFree item).frees.Circle heap.freeList frees := by
  refine ring.congr ?_ ?_
  · intro x member
    have apart : x ≠ item := fun same => outside (same ▸ member)
    exact Function.update_of_ne apart ..
  · intro x member
    have apart : x ≠ item := fun same => outside (same ▸ member)
    exact Function.update_of_ne apart ..

/-- The search ends at a block that is large enough, or has met none. -/
theorem findFree_spec {size fuel freeSize : Nat} {x : Nat}
    (segment : heap.frees.Segment x frees heap.freeList) (apart : heap.freeList ∉ frees)
    (enough : frees.length + 2 ≤ fuel) (small : freeSize < size) :
    ∃ header found, heap.findFree size fuel (heap.frees.next x) freeSize = some (header, found) ∧
      (found < size ∨ header ∈ frees ∧ found = heap.blocks.next header - header - 24 ∧
        size ≤ found) := by
  induction frees generalizing x fuel freeSize with
  | nil =>
      obtain ⟨fuel, rfl⟩ : ∃ rest, fuel = rest + 1 := ⟨fuel - 1, by omega⟩
      refine ⟨heap.freeList, freeSize, ?_, Or.inl small⟩
      rw [segment.1, findFree]
      simp
  | cons node frees ih =>
      obtain ⟨toNode, -, rest⟩ := segment
      obtain ⟨notHead, notLater⟩ := not_or.mp fun either => apart (List.mem_cons.mpr either)
      rw [List.length_cons] at enough
      obtain ⟨fuel, rfl⟩ : ∃ rest, fuel = rest + 1 + 1 := ⟨fuel - 2, by omega⟩
      rw [toNode, findFree, if_pos ⟨Ne.symm notHead, small⟩]
      dsimp only
      by_cases fits : heap.blocks.next node - node - 24 < size
      · rw [if_pos fits]
        have later : frees.length + 2 ≤ fuel + 1 := by omega
        obtain ⟨header, found, result, either⟩ := ih rest notLater later fits
        refine ⟨header, found, result, either.imp_right fun ⟨member, rest⟩ => ?_⟩
        exact ⟨List.mem_cons_of_mem _ member, rest⟩
      · rw [if_neg fits, findFree, if_neg (by simp [fits])]
        exact ⟨node, _, rfl, Or.inr ⟨List.mem_cons_self, rfl, Nat.le_of_not_lt fits⟩⟩

end Memheap

/-! ## Giving a block back -/

/-- A heap in which the blocks at `loose` are neither used nor on the free list. -/
structure MemheapLoose (heap : Memheap) (blocks frees loose : List Nat)
    (live : List (Nat × BitVec 32)) : Prop extends MemheapBlocks heap blocks live where
  ring : heap.frees.Circle heap.freeList frees
  spare : (loose ++ frees).Perm (blocks.filter fun block => !heap.isUsed block)
  outside : heap.freeList < heap.startAddr ∨ heap.tail < heap.freeList
  listed : heap.blockList = heap.startAddr

/-- The two lists of a memory heap. -/
structure MemheapInv (heap : Memheap) (blocks frees : List Nat) (live : List (Nat × BitVec 32)) :
    Prop extends MemheapLoose heap blocks frees [] live where
  separated : Separated heap.isUsed (blocks ++ [heap.tail])

/-- What a filter finds beside one element. -/
theorem cons_perm_filter {p : Nat → Bool} {found : List Nat} (holds : p item = true) :
    (item :: found).Perm ((left ++ item :: right).filter p) ↔
      found.Perm ((left ++ right).filter p) := by
  rw [List.filter_append, List.filter_cons_of_pos holds, List.filter_append]
  constructor
  · intro same
    exact (same.trans List.perm_middle).cons_inv
  · intro same
    exact (same.cons item).trans List.perm_middle.symm

namespace MemheapLoose

variable {loose : List Nat}

theorem start_le (shape : MemheapLoose heap blocks frees loose live) (member : h ∈ blocks) :
    heap.startAddr ≤ h ∧ h + 24 ≤ heap.tail := by
  obtain ⟨left, right, rfl⟩ := List.append_of_mem member
  have tiles := shape.tiles
  have pairwise := tiles.pairwise
  refine ⟨?_, (List.pairwise_append.mp pairwise).2.2 h member _ (by simp)⟩
  have start := shape.start
  cases left with
  | nil => exact Nat.le_of_eq (Option.some_inj.mp start).symm
  | cons head left =>
      obtain rfl : head = heap.startAddr := Option.some_inj.mp start
      have room := (List.pairwise_cons.mp (List.pairwise_append.mp pairwise).1).1 h (by simp)
      omega

theorem not_freeList (shape : MemheapLoose heap blocks frees loose live) (member : h ∈ blocks) :
    h ≠ heap.freeList := by
  have bounds := shape.start_le member
  have outside := shape.outside
  omega

/-- A left neighbour that is not used takes the block in. -/
theorem mergeLeft (shape : MemheapLoose heap (left ++ h :: right) frees [h] live)
    (unused : heap.isUsed h = false) (before : Separated heap.isUsed left) :
    ∃ next left' h' loose', heap.mergeLeft h = (next, h', !loose'.isEmpty) ∧
      (loose' = [] ∨ loose' = [h']) ∧ next.isUsed = heap.isUsed ∧ next.tail = heap.tail ∧
      MemheapLoose next (left' ++ h' :: right) frees loose' live ∧ heap.isUsed h' = false ∧
      Separated heap.isUsed left' ∧ ∀ x ∈ left'.getLast?, heap.isUsed x = true := by
  rcases List.eq_nil_or_concat' left with rfl | ⟨left, p, rfl⟩
  · obtain rfl : h = heap.startAddr := Option.some_inj.mp shape.start
    have sentinel : ¬ heap.isUsed (heap.blocks.prev heap.startAddr) = false := by
      rw [shape.back, shape.sentinel]
      decide
    refine ⟨heap, [], heap.startAddr, [heap.startAddr], if_neg sentinel, Or.inr rfl, rfl, rfl,
      shape, unused, before, ?_⟩
    rintro x ⟨⟩
  · have regroup : left ++ [p] ++ h :: right = left ++ p :: h :: right := by simp
    obtain ⟨b, rest, behind⟩ := MemheapBlocks.follows right heap.tail
    have onward := (shape.neighbour behind).next
    have room := (shape.neighbour behind).room
    rw [regroup] at shape
    have touch := shape.neighbour (List.cons_append ..)
    have back := touch.prev trivial
    have apart := touch.room
    by_cases unusedP : heap.isUsed p = false
    · have result : heap.mergeLeft h = ({ heap with
          availableSize := heap.availableSize + 24
          blocks := ⟨Function.update heap.blocks.next p b,
            Function.update heap.blocks.prev b p⟩ }, p, false) := by
        have reads : Function.update heap.blocks.next p b h = b := by
          rw [Function.update_of_ne (by omega), onward]
        have reads' : Function.update heap.blocks.prev b p h = p := by
          rw [Function.update_of_ne (by omega), back]
        simp [Memheap.mergeLeft, unusedP, Memheap.setNext, Memheap.setPrev, Links.setNext,
          Links.setPrev, back, onward, reads, reads']
      refine ⟨_, left, p, [], result, Or.inl rfl, rfl, rfl, ⟨?_, shape.ring, ?_, shape.outside,
        shape.listed⟩, unusedP, before.left_of_append, ?_⟩
      · refine shape.merge unusedP unused ⟨rfl, rfl, rfl, rfl, rfl⟩ rfl rfl ?_ ?_ rfl
        · rw [onward]
        · rw [onward]
      · have spare := shape.spare
        rw [← regroup] at spare
        have rest := (cons_perm_filter (by simp [unused])).mp spare
        rwa [List.append_assoc, List.singleton_append] at rest
      · intro x member
        have either := (List.isChain_append.mp before).2.2 x member p rfl
        exact either.resolve_right (by simp [unusedP])
    · rw [← regroup] at shape
      have stays : ¬ heap.isUsed (heap.blocks.prev h) = false := by rwa [back]
      refine ⟨heap, left ++ [p], h, [h], if_neg stays, Or.inr rfl, rfl, rfl, shape, unused,
        before, ?_⟩
      intro x member
      obtain rfl : p = x := by simpa using member
      simpa using unusedP

/-- A right neighbour that is not used is taken in. -/
theorem mergeRight (shape : MemheapLoose heap (left ++ h :: right) frees loose live)
    (unused : heap.isUsed h = false) (alone : loose = [] ∨ loose = [h])
    (behind : Separated heap.isUsed (right ++ [heap.tail])) :
    ∃ right' frees', MemheapLoose (heap.mergeRight h) (left ++ h :: right') frees' loose live ∧
      (heap.mergeRight h).isUsed = heap.isUsed ∧ (heap.mergeRight h).tail = heap.tail ∧
      Separated heap.isUsed (right' ++ [heap.tail]) ∧
      ∀ x ∈ (right' ++ [heap.tail]).head?, heap.isUsed x = true := by
  cases right with
  | nil =>
      have onward := (shape.neighbour rfl).next
      have stays : heap.mergeRight h = heap := if_neg (by rw [onward, shape.sentinel]; decide)
      rw [stays]
      refine ⟨[], frees, shape, rfl, rfl, behind, ?_⟩
      rintro x ⟨⟩
      exact shape.sentinel
  | cons n right =>
      have touch := shape.neighbour (List.cons_append ..)
      have onward := touch.next
      have room := touch.room
      by_cases unusedN : heap.isUsed n = false
      · obtain ⟨b, rest, follows⟩ := MemheapBlocks.follows right heap.tail
        rw [List.cons_append, follows] at behind
        obtain ⟨either, behind⟩ := List.isChain_cons_cons.mp behind
        have regroup : left ++ h :: n :: right = (left ++ [h]) ++ n :: right := by simp
        have member : n ∈ frees := by
          have held : n ∈ loose ++ frees :=
            shape.spare.mem_iff.mpr (List.mem_filter.mpr ⟨by simp, by simp [unusedN]⟩)
          rcases List.mem_append.mp held with held | held
          · rcases alone with rfl | rfl
            · cases held
            · rw [List.mem_singleton] at held
              omega
          · exact held
        obtain ⟨front, back, rfl⟩ := List.append_of_mem member
        have result : heap.mergeRight h = Memheap.removeFree { heap with
            availableSize := heap.availableSize + 24
            blocks := ⟨Function.update heap.blocks.next h (heap.blocks.next n),
              Function.update heap.blocks.prev (heap.blocks.next n) h⟩ } n := by
          simp [Memheap.mergeRight, unusedN, Memheap.setNext, Memheap.setPrev, Links.setNext,
            Links.setPrev, onward]
        rw [result]
        refine ⟨right, front ++ back, ⟨?_, ?_, ?_, shape.outside, shape.listed⟩, rfl, rfl,
          follows ▸ behind, ?_⟩
        · exact shape.merge unused unusedN ⟨rfl, rfl, rfl, rfl, rfl⟩ rfl rfl rfl rfl rfl
        · exact @Memheap.removeFree_ring _ front back n shape.ring
        · have spare := shape.spare
          rw [regroup, ← List.append_assoc] at spare
          have rest := (cons_perm_filter (by simp [unusedN])).mp (List.perm_middle.symm.trans spare)
          rwa [List.append_assoc, List.append_assoc, List.singleton_append] at rest
        · rw [follows]
          rintro x ⟨⟩
          exact either.resolve_left (by simp [unusedN])
      · have stays : heap.mergeRight h = heap := if_neg (by rwa [onward])
        rw [stays]
        refine ⟨n :: right, frees, shape, rfl, rfl, behind, ?_⟩
        rintro x ⟨⟩
        simpa using unusedN

/-- The block goes to the front of the free list. -/
theorem insertFree (shape : MemheapLoose heap blocks frees [h] live) :
    MemheapLoose (heap.insertFree h) blocks (h :: frees) [] live := by
  have distinct : (blocks.filter fun block => !heap.isUsed block).Nodup :=
    (List.nodup_append.mp shape.nodup).1.filter _
  have distinct := shape.spare.nodup_iff.mpr distinct
  have member := (List.mem_filter.mp (shape.spare.subset (by simp : h ∈ [h] ++ frees))).1
  have ring : (heap.insertFree h).frees.Circle heap.freeList (h :: frees) := by
    refine Memheap.insertFree_ring shape.ring ?_
    rw [List.mem_cons]
    rintro (same | listed)
    · exact shape.not_freeList member same
    · exact (List.nodup_cons.mp distinct).1 listed
  obtain ⟨pointers, result⟩ := Memheap.insertFree_eq heap h
  rw [result] at ring ⊢
  exact ⟨shape.congr ⟨rfl, rfl, rfl, rfl, rfl⟩ rfl rfl rfl rfl, ring, shape.spare, shape.outside,
    shape.listed⟩

end MemheapLoose

/-- `rt_memheap_free` of a pointer in use. -/
theorem MemheapInv.giveBlock (inv : MemheapInv heap (left ++ h :: right) frees live)
    (used : heap.isUsed h = true) :
    ∃ blocks' frees', MemheapInv (heap.giveBlock h) blocks' frees'
      (live.filter fun entry => entry.1 ≠ h + 24) := by
  have separated := inv.separated
  rw [List.append_assoc, List.cons_append] at separated
  obtain ⟨before, behind⟩ := separated.around
  have distinct := inv.nodup
  rw [List.append_assoc, List.cons_append] at distinct
  obtain ⟨-, inner, apart⟩ := List.nodup_append.mp distinct
  have outside := (List.nodup_cons.mp inner).1
  have notLeft : h ∉ left := fun member => apart h member h (by simp) rfl
  obtain ⟨heap', released⟩ : ∃ heap', heap' = { heap with
    magic := Function.update heap.magic h (heap.magic h &&& ~~~rtMemheapUsed)
    availableSize := heap.availableSize + (heap.blocks.next h - h) - 24 } := ⟨_, rfl⟩
  have magic : heap'.magic =
      Function.update heap.magic h (heap.magic h &&& ~~~rtMemheapUsed) := by rw [released]
  have marks : heap'.isUsed = Function.update heap.isUsed h false :=
    Memheap.isUsed_update magic (and_not_used _)
  have unused : heap'.isUsed h = false := by rw [marks, Function.update_self]
  have sameTail : heap'.tail = heap.tail := by rw [released]; rfl
  have shape : MemheapLoose heap' (left ++ h :: right) frees [h]
      (live.filter fun entry => entry.1 ≠ h + 24) := by
    refine ⟨?_, ?_, ?_, ?_, ?_⟩
    · rw [released]
      exact inv.release used ⟨rfl, rfl, rfl, rfl, rfl⟩ rfl rfl rfl rfl
    · rw [released]
      exact inv.ring
    · refine (cons_perm_filter (by simp [unused])).mpr ?_
      have spare := inv.spare
      rw [List.nil_append, List.filter_append, List.filter_cons_of_neg (by simp [used]),
        ← List.filter_append] at spare
      have same : (left ++ right).filter (fun block => !heap'.isUsed block) =
          (left ++ right).filter fun block => !heap.isUsed block := by
        refine List.filter_congr fun block member => ?_
        rw [marks, Function.update_of_ne]
        rintro rfl
        rcases List.mem_append.mp member with member | member
        · exact notLeft member
        · exact outside (List.mem_append_left _ member)
      rwa [same]
    · rw [released]
      exact inv.outside
    · rw [released]
      exact inv.listed
  have before' : Separated heap'.isUsed left := marks ▸ before.update notLeft
  have behind' : Separated heap'.isUsed (right ++ [heap'.tail]) := by
    rw [marks, sameTail]
    exact behind.update outside
  obtain ⟨next, left', h', loose, merged, alone, marks', sameTail', shape', unused', before'',
    last⟩ := shape.mergeLeft unused before'
  rw [← marks'] at unused' before'' last behind'
  rw [← sameTail'] at behind'
  obtain ⟨right', frees', shape'', marks'', sameTail'', behind'', first⟩ :=
    shape'.mergeRight unused' alone behind'
  have result : heap.giveBlock h =
      if (!loose.isEmpty) = true then (next.mergeRight h').insertFree h'
      else next.mergeRight h' := by
    have unfolded : heap.giveBlock h =
        if (heap'.mergeLeft h).2.2 = true then
          ((heap'.mergeLeft h).1.mergeRight (heap'.mergeLeft h).2.1).insertFree
            (heap'.mergeLeft h).2.1
        else (heap'.mergeLeft h).1.mergeRight (heap'.mergeLeft h).2.1 := by
      rw [released]
      rfl
    rw [unfolded, merged]
  have whole : Separated (next.mergeRight h').isUsed
      ((left' ++ h' :: right') ++ [(next.mergeRight h').tail]) := by
    obtain ⟨c, rest, follows⟩ := MemheapBlocks.follows right' next.tail
    rw [marks'', sameTail'', List.append_assoc, List.cons_append, follows]
    rw [follows] at behind'' first
    exact before''.join behind'' last (first c rfl)
  rw [result]
  rcases alone with rfl | rfl
  · exact ⟨_, frees', shape'', whole⟩
  · refine ⟨_, h' :: frees', shape''.insertFree, ?_⟩
    obtain ⟨pointers, inserted⟩ := Memheap.insertFree_eq (next.mergeRight h') h'
    simp only [List.isEmpty_cons, Bool.not_false, if_true]
    rw [inserted]
    exact whole

/-! ## Taking a block -/

namespace Memheap

/-- What the split writes, when the new header is another one. -/
theorem splitBlock_eq {size b : Nat} (points : heap.blocks.next h = b) :
    (heap.splitBlock h size).markUsed h = { heap with
      availableSize := heap.availableSize - size - 24
      magic := Function.update (Function.update heap.magic (h + size + 24) rtMemheapMagic) h
        (Function.update heap.magic (h + size + 24) rtMemheapMagic h ||| rtMemheapUsed)
      poolPtr := Function.update heap.poolPtr (h + size + 24) heap.self
      blocks := ⟨Function.update (Function.update heap.blocks.next (h + size + 24) b) h
          (h + size + 24),
        Function.update (Function.update heap.blocks.prev (h + size + 24) h) b (h + size + 24)⟩
      frees := (((heap.removeFree h).clearFree h).insertFree (h + size + 24)).frees } := by
  have reads : Function.update heap.blocks.next (h + size + 24) b h = b := by
    rw [Function.update_of_ne (by omega), points]
  simp only [splitBlock, markUsed, removeFree, clearFree, insertFree, setMagic, setPoolPtr, setNext,
    setPrev, setNextFree, setPrevFree, Links.setNext, Links.setPrev, points, reads]

theorem wholeBlock_eq (heap : Memheap) (h freeSize : Nat) :
    (heap.wholeBlock h freeSize).markUsed h = { heap with
      availableSize := heap.availableSize - freeSize
      magic := Function.update heap.magic h (heap.magic h ||| rtMemheapUsed)
      frees := ((heap.removeFree h).clearFree h).frees } := rfl

theorem requestSize_pos (size : BitVec 32) : 0 < requestSize size := by
  unfold requestSize
  dsimp only
  split <;> omega

end Memheap

namespace MemheapInv

variable {front back : List Nat} {size : BitVec 32}

/-- The blocks on the free list beside the one that is taken. -/
theorem spare_beside (inv : MemheapInv heap (left ++ h :: right) (front ++ h :: back) live)
    (unused : heap.isUsed h = false) :
    (front ++ back).Perm ((left ++ right).filter fun block => !heap.isUsed block) :=
  (cons_perm_filter (by simp [unused])).mp (List.perm_middle.symm.trans inv.spare)

/-- The free list without the block that is taken. -/
theorem ring_beside (inv : MemheapInv heap (left ++ h :: right) (front ++ h :: back) live) :
    ((heap.removeFree h).clearFree h).frees.Circle heap.freeList (front ++ back) := by
  have distinct := inv.ring.distinct
  rw [← List.cons_append] at distinct
  obtain ⟨-, inner, apart⟩ := List.nodup_append.mp distinct
  have outside := (List.nodup_cons.mp inner).1
  refine @Memheap.clearFree_ring (heap.removeFree h) _ h (Memheap.removeFree_ring inv.ring) ?_
  rw [← List.cons_append]
  intro member
  rcases List.mem_append.mp member with member | member
  · exact apart h member h (by simp) rfl
  · exact outside member

/-- The block counts as available. -/
theorem spare_le (inv : MemheapInv heap (left ++ h :: right) frees live)
    (unused : heap.isUsed h = false) :
    heap.blocks.next h - h - 24 ≤ heap.availableSize := by
  obtain ⟨b, rest, behind⟩ := MemheapBlocks.follows right heap.tail
  rw [inv.available, (inv.neighbour behind).next, List.append_assoc, List.cons_append, behind,
    weigh_split, weigh, spareSize, unused]
  simp only [Bool.false_eq_true, if_false]
  omega

/-- The whole of a block is taken. -/
theorem whole (inv : MemheapInv heap (left ++ h :: right) (front ++ h :: back) live)
    (unused : heap.isUsed h = false)
    (fits : Memheap.requestSize size ≤ heap.blocks.next h - h - 24) :
    MemheapInv ((heap.wholeBlock h (heap.blocks.next h - h - 24)).markUsed h)
      (left ++ h :: right) (front ++ back) ((h + 24, size) :: live) := by
  have counted := inv.spare_le unused
  have positive := Memheap.requestSize_pos size
  have distinct := inv.nodup
  rw [List.append_assoc, List.cons_append] at distinct
  obtain ⟨-, inner, apart⟩ := List.nodup_append.mp distinct
  have outside := (List.nodup_cons.mp inner).1
  obtain ⟨next, result⟩ : ∃ next, next =
      (heap.wholeBlock h (heap.blocks.next h - h - 24)).markUsed h := ⟨_, rfl⟩
  rw [← result]
  rw [Memheap.wholeBlock_eq] at result
  have magic : next.magic = Function.update heap.magic h (heap.magic h ||| rtMemheapUsed) := by
    rw [result]
  have marks := Memheap.isUsed_update magic (or_used _)
  have sameTail : next.tail = heap.tail := by rw [result]; rfl
  have shape : MemheapBlocks next (left ++ h :: right) ((h + 24, size) :: live) := by
    refine inv.mark unused ?_ magic ?_ ?_ ?_ (by omega)
    · rw [result]
      exact ⟨rfl, rfl, rfl, rfl, rfl⟩
    · rw [result]
    · rw [result]
    · rw [result]
      exact Nat.sub_add_cancel counted
  refine ⟨⟨shape, ?_, ?_, ?_, ?_⟩, ?_⟩
  · rw [result]
    exact inv.ring_beside
  · have others : (left ++ right).filter (fun block => !next.isUsed block) =
        (left ++ right).filter fun block => !heap.isUsed block := by
      refine List.filter_congr fun block member => ?_
      rw [marks, Function.update_of_ne]
      rintro rfl
      rcases List.mem_append.mp member with member | member
      · exact apart _ member _ (by simp) rfl
      · exact outside (List.mem_append_left _ member)
    rw [List.nil_append, List.filter_append, List.filter_cons_of_neg
      (by simp [marks, Function.update_self]), ← List.filter_append, others]
    exact inv.spare_beside unused
  · rw [result]
    exact inv.outside
  · rw [result]
    exact inv.listed
  · rw [sameTail]
    refine inv.separated.mono fun block _ used => ?_
    rw [marks]
    by_cases same : block = h
    · rw [same, Function.update_self]
    · rwa [Function.update_of_ne same]

/-- The front of a block is taken, and the rest of it goes to the free list. -/
theorem split (inv : MemheapInv heap (left ++ h :: right) (front ++ h :: back) live)
    (unused : heap.isUsed h = false)
    (fits : Memheap.requestSize size + 24 + 12 ≤ heap.blocks.next h - h - 24) :
    MemheapInv ((heap.splitBlock h (Memheap.requestSize size)).markUsed h)
      (left ++ h :: (h + Memheap.requestSize size + 24) :: right)
      ((h + Memheap.requestSize size + 24) :: (front ++ back)) ((h + 24, size) :: live) := by
  obtain ⟨b, rest, behind⟩ := MemheapBlocks.follows right heap.tail
  have points := (inv.neighbour behind).next
  have counted := inv.spare_le unused
  rw [points] at fits counted
  obtain ⟨n, place⟩ : ∃ n, n = h + Memheap.requestSize size + 24 := ⟨_, rfl⟩
  have separated := inv.separated
  rw [List.append_assoc, List.cons_append, behind] at separated
  obtain ⟨before, either, beyond⟩ := Separated.split.mp separated
  have nextUsed := either.resolve_left (by simp [unused])
  obtain ⟨next, result⟩ : ∃ next, next =
      (heap.splitBlock h (Memheap.requestSize size)).markUsed h := ⟨_, rfl⟩
  rw [← result]
  rw [Memheap.splitBlock_eq points, ← place] at result
  rw [← place]
  -- the new header is there, and nothing is marked yet
  obtain ⟨cut, halfway⟩ : ∃ cut : Memheap, cut = { heap with
    availableSize := heap.availableSize - 24
    magic := Function.update heap.magic n rtMemheapMagic
    poolPtr := Function.update heap.poolPtr n heap.self
    blocks := ⟨Function.update (Function.update heap.blocks.next n b) h n,
      Function.update (Function.update heap.blocks.prev n h) b n⟩ } := ⟨_, rfl⟩
  have cutMagic : cut.magic = Function.update heap.magic n rtMemheapMagic := by rw [halfway]
  have cutShape : MemheapBlocks cut (left ++ h :: n :: right) live := by
    refine inv.toMemheapBlocks.split behind unused (by omega) (by omega) ?_ cutMagic ?_ ?_ ?_ ?_
    · rw [halfway]
      exact ⟨rfl, rfl, rfl, rfl, rfl⟩
    · rw [halfway]
    · rw [halfway]
    · rw [halfway]
    · rw [halfway]
      dsimp only
      omega
  have distinct := cutShape.nodup
  have sameTail : cut.tail = heap.tail := by rw [halfway]; rfl
  have whole : left ++ h :: n :: right ++ [cut.tail] = left ++ h :: n :: b :: rest := by
    simp [sameTail, behind]
  rw [whole] at distinct
  obtain ⟨-, inner, apart⟩ := List.nodup_append.mp distinct
  obtain ⟨notBehind, inner'⟩ := List.nodup_cons.mp inner
  have fresh := (List.nodup_cons.mp inner').1
  have cutMarks := Memheap.isUsed_update cutMagic
    (show decide (rtMemheapMagic &&& rtMemheapUsed ≠ 0) = false by decide)
  have cutUnused : cut.isUsed h = false := by
    rw [cutMarks, Function.update_of_ne (by omega)]
    exact unused
  have magic : next.magic = Function.update cut.magic h (cut.magic h ||| rtMemheapUsed) := by
    rw [result, halfway]
  have marks := Memheap.isUsed_update magic (or_used _)
  have cutPoints : cut.blocks.next h = n := by
    rw [halfway]
    exact Function.update_self ..
  have shape : MemheapBlocks next (left ++ h :: n :: right) ((h + 24, size) :: live) := by
    refine cutShape.mark cutUnused ?_ magic ?_ ?_ ?_ (by omega)
    · rw [result, halfway]
      exact ⟨rfl, rfl, rfl, rfl, rfl⟩
    · rw [result, halfway]
    · rw [result, halfway]
    · rw [cutPoints, result, halfway]
      dsimp only
      omega
  have usedH : next.isUsed h = true := by rw [marks, Function.update_self]
  have unusedN : next.isUsed n = false := by
    rw [marks, Function.update_of_ne (by omega), cutMarks, Function.update_self]
  have kept : ∀ x, x ≠ h → x ≠ n → next.isUsed x = heap.isUsed x := by
    intro x notH notN
    rw [marks, Function.update_of_ne notH, cutMarks, Function.update_of_ne notN]
  have notLeft : ∀ x ∈ left, x ≠ h ∧ x ≠ n := fun x member =>
    ⟨apart x member h (by simp), apart x member n (by simp)⟩
  have notRest : ∀ x ∈ b :: rest, x ≠ h ∧ x ≠ n := by
    refine fun x member => ⟨?_, ?_⟩
    · rintro rfl
      exact notBehind (List.mem_cons_of_mem _ member)
    · rintro rfl
      exact fresh member
  have notRight : ∀ x ∈ right, x ≠ h ∧ x ≠ n := fun x member =>
    notRest x (behind ▸ List.mem_append_left _ member)
  have others : (left ++ right).filter (fun block => !next.isUsed block) =
      (left ++ right).filter fun block => !heap.isUsed block := by
    refine List.filter_congr fun block member => ?_
    have beside := (List.mem_append.mp member).elim (notLeft block) (notRight block)
    rw [kept block beside.1 beside.2]
  refine ⟨⟨shape, ?_, ?_, ?_, ?_⟩, ?_⟩
  · rw [result]
    refine @Memheap.insertFree_ring ((heap.removeFree h).clearFree h) _ n inv.ring_beside ?_
    rw [List.mem_cons]
    rintro (same | member)
    · have outside := inv.outside
      have region := inv.start_le (show h ∈ left ++ h :: right by simp)
      have upper : b ≤ heap.tail := by
        have tiles := inv.tiles
        rw [List.append_assoc, List.cons_append, behind] at tiles
        exact tiles.bounds.2.2 heap.tail (by simp [← behind])
      change n = heap.freeList at same
      omega
    · have held := (List.mem_filter.mp ((inv.spare_beside unused).subset member)).1
      rcases List.mem_append.mp held with member | member
      · exact (notLeft n member).2 rfl
      · exact (notRight n member).2 rfl
  · have regroup : left ++ h :: n :: right = (left ++ [h]) ++ n :: right := by simp
    rw [List.nil_append, regroup]
    refine (cons_perm_filter (by simp [unusedN])).mpr ?_
    rw [List.append_assoc, List.singleton_append, List.filter_append,
      List.filter_cons_of_neg (by simp [usedH]), ← List.filter_append, others]
    exact inv.spare_beside unused
  · rw [result]
    exact inv.outside
  · rw [result]
    exact inv.listed
  · have lastTail : next.tail = cut.tail := by rw [result, sameTail]; rfl
    rw [lastTail, whole]
    have before' : Separated next.isUsed (left ++ [h]) := by
      refine before.mono fun x member used => ?_
      rcases List.mem_append.mp member with member | last
      · rw [kept x (notLeft x member).1 (notLeft x member).2]
        exact used
      · rw [List.mem_singleton.mp last]
        exact usedH
    have beyond' : Separated next.isUsed (b :: rest) := by
      refine beyond.mono fun x member used => ?_
      rw [kept x (notRest x member).1 (notRest x member).2]
      exact used
    have usedB : next.isUsed b = true := by
      have beside := notRest b List.mem_cons_self
      rw [kept b beside.1 beside.2]
      exact nextUsed
    exact Separated.split.mpr
      ⟨before', Or.inl usedH, List.isChain_cons_cons.mpr ⟨Or.inr usedB, beyond'⟩⟩

/-- The free list is shorter than the pool. -/
theorem frees_length (inv : MemheapInv heap blocks frees live) :
    frees.length + 2 ≤ heap.poolSize := by
  have few : frees.length ≤ blocks.length := by
    have counted : frees.length = _ := inv.spare.length_eq
    rw [counted]
    exact List.length_filter_le _ _
  have room := inv.tiles.length_le inv.start
  have some_ : 0 < blocks.length := by
    refine List.length_pos_iff.mpr ?_
    rintro rfl
    cases inv.start
  rw [Memheap.tail] at room
  omega

/-- The search has a result, and what it takes is handed out. -/
theorem takeBlock (inv : MemheapInv heap blocks frees live) (size : BitVec 32) :
    ∃ next found, heap.takeBlock (Memheap.requestSize size) = some (next, found) ∧
      (found = none ∧ next = heap ∨ ∃ h, found = some h ∧ ∃ blocks' frees',
        MemheapInv (next.markUsed h) blocks' frees' ((h + 24, size) :: live)) := by
  have positive := Memheap.requestSize_pos size
  have enough := inv.frees_length
  obtain ⟨header, found, searched, either⟩ := @Memheap.findFree_spec heap frees
    (Memheap.requestSize size) heap.poolSize 0 heap.freeList inv.ring.segment
    (List.nodup_cons.mp inv.ring.distinct).1 enough positive
  rcases either with small | ⟨member, rfl, fits⟩
  · refine ⟨heap, none, ?_, Or.inl ⟨rfl, rfl⟩⟩
    simp [Memheap.takeBlock, searched, Nat.not_le.mpr small]
  · obtain ⟨front, back, rfl⟩ := List.append_of_mem member
    obtain ⟨here, unused⟩ := List.mem_filter.mp (inv.spare.subset member)
    obtain ⟨left, right, rfl⟩ := List.append_of_mem here
    have unused : heap.isUsed header = false := by simpa using unused
    by_cases splits : Memheap.requestSize size + 24 + 12 ≤ heap.blocks.next header - header - 24
    · refine ⟨heap.splitBlock header (Memheap.requestSize size), some header, ?_,
        Or.inr ⟨header, rfl, _, _, inv.split unused splits⟩⟩
      simp [Memheap.takeBlock, searched, fits, splits]
    · refine ⟨heap.wholeBlock header (heap.blocks.next header - header - 24), some header, ?_,
        Or.inr ⟨header, rfl, _, _, inv.whole unused fits⟩⟩
      simp [Memheap.takeBlock, searched, fits, splits]

end MemheapInv

end

end RtThread
