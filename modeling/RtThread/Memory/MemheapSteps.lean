import RtThread.Std.Circle
import RtThread.Std.Tiling
import RtThread.Memory.Memheap

/-!
# The blocks of a memory heap

The items tile the pool, and the size that is available is that of the blocks
without the used mark. The four ways in which the operations change this are a
header that comes or goes and a mark that is set or cleared; the pointers of the
free list do not matter to them.
-/

namespace RtThread

open RtThread.Std

namespace Memheap

/-- Where the tailer block is. -/
def tail (heap : Memheap) : Nat := heap.startAddr + heap.poolSize - 24

/-- The fields that the operations do not write. -/
structure SamePool (heap heap' : Memheap) : Prop where
  self : heap'.self = heap.self
  startAddr : heap'.startAddr = heap.startAddr
  poolSize : heap'.poolSize = heap.poolSize
  blockList : heap'.blockList = heap.blockList
  freeList : heap'.freeList = heap.freeList

theorem SamePool.tail {heap heap' : Memheap} (same : heap.SamePool heap') :
    heap'.tail = heap.tail := by
  rw [Memheap.tail, Memheap.tail, same.startAddr, same.poolSize]

/-- Writing the magic number of one item marks or unmarks that item. -/
theorem isUsed_update {heap heap' : Memheap} {item : Nat} {magic : BitVec 32} {value : Bool}
    (write : heap'.magic = Function.update heap.magic item magic)
    (marks : decide (magic &&& rtMemheapUsed ≠ 0) = value) :
    heap'.isUsed = Function.update heap.isUsed item value := by
  ext other
  rw [isUsed, write]
  by_cases same : other = item
  · rw [same, Function.update_self, Function.update_self, marks]
  · rw [Function.update_of_ne same, Function.update_of_ne same, isUsed]

end Memheap

theorem or_used (magic : BitVec 32) :
    decide ((magic ||| rtMemheapUsed) &&& rtMemheapUsed ≠ 0) = true := by
  have bit : (magic ||| rtMemheapUsed) &&& rtMemheapUsed = rtMemheapUsed := by
    ext i
    simp only [BitVec.getElem_and, BitVec.getElem_or]
    cases magic[i] <;> cases rtMemheapUsed[i] <;> rfl
  rw [bit]
  decide

theorem and_not_used (magic : BitVec 32) :
    decide ((magic &&& ~~~rtMemheapUsed) &&& rtMemheapUsed ≠ 0) = false := by
  rw [BitVec.and_assoc]
  simp

theorem rtMemheapMask_eq : rtMemheapMask = ~~~rtMemheapUsed := by decide

theorem or_used_mask (magic : BitVec 32) :
    (magic ||| rtMemheapUsed) &&& rtMemheapMask = magic &&& rtMemheapMask := by
  rw [rtMemheapMask_eq]
  ext i
  simp only [BitVec.getElem_and, BitVec.getElem_or, BitVec.getElem_not]
  cases magic[i] <;> cases rtMemheapUsed[i] <;> rfl

theorem and_not_used_mask (magic : BitVec 32) :
    (magic &&& ~~~rtMemheapUsed) &&& rtMemheapMask = magic &&& rtMemheapMask := by
  rw [rtMemheapMask_eq, BitVec.and_assoc, BitVec.and_self]

/-- What a block adds to `available_size`. -/
def spareSize (used : Nat → Bool) (block next : Nat) : Nat :=
  if used block = true then 0 else next - block - 24

/-- The blocks in the pool in front of the tailer block. -/
structure MemheapBlocks (heap : Memheap) (blocks : List Nat) (live : List (Nat × BitVec 32)) :
    Prop where
  tiles : Tiles 24 (fun _ => True) heap.blocks (blocks ++ [heap.tail])
  start : blocks.head? = some heap.startAddr
  onward : heap.blocks.next heap.tail = heap.startAddr
  back : heap.blocks.prev heap.startAddr = heap.tail
  sentinel : heap.isUsed heap.tail = true
  owned : ∀ block ∈ blocks, heap.Owns block
  available : heap.availableSize = weigh (spareSize heap.isUsed) (blocks ++ [heap.tail])
  handed : (live.map Prod.fst).Perm ((blocks.filter heap.isUsed).map (· + 24))
  served : ∀ entry ∈ live,
    entry.1 + Memheap.requestSize entry.2 ≤ heap.blocks.next (entry.1 - 24)

section

variable {heap heap' : Memheap} {blocks left right : List Nat} {live live' : List (Nat × BitVec 32)}
  {a n h : Nat}

namespace MemheapBlocks

theorem nodup (shape : MemheapBlocks heap blocks live) : (blocks ++ [heap.tail]).Nodup :=
  shape.tiles.nodup (by decide)

theorem follows (right : List Nat) (tail : Nat) : ∃ next rest, right ++ [tail] = next :: rest := by
  cases right with
  | nil => exact ⟨tail, [], rfl⟩
  | cons next right => exact ⟨next, right ++ [tail], rfl⟩

/-- A block of a pointer in use. -/
theorem exists_block {ptr : Nat} (shape : MemheapBlocks heap blocks live)
    (member : ptr ∈ live.map Prod.fst) :
    ∃ block ∈ blocks, heap.isUsed block = true ∧ ptr = block + 24 := by
  obtain ⟨block, here, rfl⟩ := List.mem_map.mp (shape.handed.subset member)
  obtain ⟨here, used⟩ := List.mem_filter.mp here
  exact ⟨block, here, used, rfl⟩

/-- The pointers of the free list are not part of the blocks. -/
theorem congr (shape : MemheapBlocks heap blocks live) (pool : heap.SamePool heap')
    (magic : heap'.magic = heap.magic) (poolPtr : heap'.poolPtr = heap.poolPtr)
    (links : heap'.blocks = heap.blocks) (available : heap'.availableSize = heap.availableSize) :
    MemheapBlocks heap' blocks live := by
  have marks : heap'.isUsed = heap.isUsed := by
    ext item
    rw [Memheap.isUsed, magic, Memheap.isUsed]
  have owns : ∀ block, heap'.Owns block ↔ heap.Owns block := by
    intro block
    rw [Memheap.Owns, magic, poolPtr, pool.self, Memheap.Owns]
  constructor
  case tiles => simpa only [pool.tail, links] using shape.tiles
  case start => simpa only [pool.startAddr] using shape.start
  case onward => simpa only [pool.tail, pool.startAddr, links] using shape.onward
  case back => simpa only [pool.tail, pool.startAddr, links] using shape.back
  case sentinel => simpa only [pool.tail, marks] using shape.sentinel
  case owned => simpa only [owns] using shape.owned
  case available => simpa only [available, marks, pool.tail] using shape.available
  case handed => simpa only [marks] using shape.handed
  case served => simpa only [links] using shape.served

/-- Two neighbours that are not used become one block. -/
theorem merge (shape : MemheapBlocks heap (left ++ a :: n :: right) live)
    (unusedA : heap.isUsed a = false) (unusedN : heap.isUsed n = false)
    (pool : heap.SamePool heap') (magic : heap'.magic = heap.magic)
    (poolPtr : heap'.poolPtr = heap.poolPtr)
    (next : heap'.blocks.next = Function.update heap.blocks.next a (heap.blocks.next n))
    (prev : heap'.blocks.prev = Function.update heap.blocks.prev (heap.blocks.next n) a)
    (available : heap'.availableSize = heap.availableSize + 24) :
    MemheapBlocks heap' (left ++ a :: right) live := by
  obtain ⟨b, rest, behind⟩ := follows right heap.tail
  have whole : left ++ a :: n :: right ++ [heap.tail] = left ++ a :: n :: b :: rest := by
    simp [behind]
  have merged : left ++ a :: right ++ [heap.tail] = left ++ a :: b :: rest := by
    simp [behind]
  have tiles := shape.tiles
  have distinct := shape.nodup
  rw [whole] at tiles distinct
  have regroup : left ++ a :: n :: b :: rest = (left ++ [a]) ++ n :: b :: rest := by simp
  have touch : Neighbours 24 (fun _ => True) heap.blocks n b := by
    rw [regroup] at tiles
    exact (Tiles.split.mp tiles).2.1
  have first := (Tiles.split.mp tiles).2.1
  have room := first.room
  have room' := touch.room
  rw [touch.next] at next prev
  have marks : heap'.isUsed = heap.isUsed := by
    ext item
    rw [Memheap.isUsed, magic, Memheap.isUsed]
  have notUsed : ∀ entry ∈ live, entry.1 - 24 ≠ a := by
    rintro entry member same
    obtain ⟨block, -, used, ptr⟩ := shape.exists_block (List.mem_map_of_mem member)
    rw [ptr, Nat.add_sub_cancel] at same
    rw [same, unusedA] at used
    cases used
  constructor
  case tiles =>
      rw [pool.tail, merged]
      refine tiles.remove (by decide) ?_ (fun _ => ?_) ?_ ?_
      · rw [next, Function.update_self]
      · rw [prev, Function.update_self]
      · intro x notA _
        rw [next, Function.update_of_ne notA]
      · intro y _ notB
        rw [prev, Function.update_of_ne notB]
  case start =>
      rw [pool.startAddr, ← shape.start]
      cases left <;> rfl
  case onward =>
      rw [pool.tail, pool.startAddr, next, Function.update_of_ne]
      · exact shape.onward
      · rintro same
        have last : heap.tail ∈ n :: b :: rest := by
          rw [← behind, ← List.cons_append]
          exact List.mem_append_right _ (List.mem_singleton_self _)
        rw [same] at last
        exact (List.nodup_cons.mp (List.nodup_append.mp distinct).2.1).1 last
  case back =>
      rw [pool.tail, pool.startAddr, prev, Function.update_of_ne]
      · exact shape.back
      · rintro same
        have begins : heap.startAddr ≤ a := by
          have start := shape.start
          cases left with
          | nil => exact Nat.le_of_eq (Option.some_inj.mp start).symm
          | cons head left =>
              obtain rfl : head = heap.startAddr := Option.some_inj.mp start
              exact (tiles.bounds.1 _ (by simp))
        omega
  case sentinel =>
      rw [pool.tail, marks]
      exact shape.sentinel
  case owned =>
      intro block member
      rw [Memheap.Owns, magic, poolPtr, pool.self]
      refine shape.owned block ?_
      simp only [List.mem_append, List.mem_cons] at member ⊢
      tauto
  case available =>
      have parts := @weigh_insert (spareSize heap.isUsed) (spareSize heap.isUsed) left rest a b n
        distinct fun _ _ _ _ => rfl
      rw [available, shape.available, pool.tail, whole, merged, marks]
      simp only [spareSize, unusedA, unusedN, Bool.false_eq_true, if_false] at parts
      omega
  case handed =>
      rw [marks]
      simpa [List.filter_cons, unusedA, unusedN] using shape.handed
  case served =>
      intro entry member
      rw [next, Function.update_of_ne (notUsed entry member)]
      exact shape.served entry member

/-- What comes behind a block that is not the tailer block. -/
theorem neighbour {b : Nat} {rest : List Nat}
    (shape : MemheapBlocks heap (left ++ h :: right) live)
    (behind : right ++ [heap.tail] = b :: rest) :
    Neighbours 24 (fun _ => True) heap.blocks h b := by
  have tiles := shape.tiles
  rw [List.append_assoc, List.cons_append, behind] at tiles
  exact (Tiles.split.mp tiles).2.1

/-- A header is put into a block that is not used. -/
theorem split {b : Nat} {rest : List Nat} (shape : MemheapBlocks heap (left ++ h :: right) live)
    (behind : right ++ [heap.tail] = b :: rest) (unused : heap.isUsed h = false)
    (lower : h + 24 ≤ n) (upper : n + 24 ≤ b) (pool : heap.SamePool heap')
    (magic : heap'.magic = Function.update heap.magic n rtMemheapMagic)
    (poolPtr : heap'.poolPtr = Function.update heap.poolPtr n heap.self)
    (next : heap'.blocks.next = Function.update (Function.update heap.blocks.next n b) h n)
    (prev : heap'.blocks.prev = Function.update (Function.update heap.blocks.prev n h) b n)
    (available : heap'.availableSize + 24 = heap.availableSize) :
    MemheapBlocks heap' (left ++ h :: n :: right) live := by
  have whole : left ++ h :: right ++ [heap.tail] = left ++ h :: b :: rest := by
    simp [behind]
  have grown : left ++ h :: n :: right ++ [heap.tail] = left ++ h :: n :: b :: rest := by
    simp [behind]
  have tiles := shape.tiles
  rw [whole] at tiles
  obtain ⟨before, -, beyond⟩ := tiles.bounds
  have fresh : ∀ x ∈ left ++ h :: right ++ [heap.tail], x ≠ n := by
    rw [whole]
    rintro x member rfl
    rcases List.mem_append.mp member with member | member
    · have bound := before x (List.mem_append_left _ member)
      omega
    · rcases List.mem_cons.mp member with same | member
      · omega
      · have bound := beyond x member
        omega
  have freshTail : heap.tail ≠ n := fresh heap.tail (by simp)
  have unmarked := @Memheap.isUsed_update heap heap' n rtMemheapMagic false magic (by decide)
  have marks : ∀ x, x ≠ n → heap'.isUsed x = heap.isUsed x := fun x apart => by
    rw [unmarked, Function.update_of_ne apart]
  have tailBound : h < heap.tail := by
    have bound := beyond heap.tail (by simp [← behind])
    omega
  have startBound : heap.startAddr ≤ h ∧ heap.startAddr ∈ left ++ h :: right := by
    have start := shape.start
    cases left with
    | nil =>
        exact ⟨Nat.le_of_eq (Option.some_inj.mp start).symm, by simp [← Option.some_inj.mp start]⟩
    | cons head left =>
        obtain rfl : head = heap.startAddr := Option.some_inj.mp start
        exact ⟨before _ (by simp), by simp⟩
  have tiles' : Tiles 24 (fun _ => True) heap'.blocks (left ++ h :: n :: b :: rest) := by
    refine tiles.insert (by decide) ⟨?_, fun _ => ?_, lower⟩ ⟨?_, fun _ => ?_, upper⟩ ?_ ?_
    · rw [next, Function.update_self]
    · rw [prev, Function.update_of_ne (by omega), Function.update_self]
    · rw [next, Function.update_of_ne (by omega), Function.update_self]
    · rw [prev, Function.update_self]
    · intro x notH notN
      rw [next, Function.update_of_ne notH, Function.update_of_ne notN]
    · intro y notN notB
      rw [prev, Function.update_of_ne notB, Function.update_of_ne notN]
  have notUsed : ∀ entry ∈ live, entry.1 - 24 ≠ h ∧ entry.1 - 24 ≠ n := by
    intro entry member
    obtain ⟨block, here, used, ptr⟩ := shape.exists_block (List.mem_map_of_mem member)
    rw [ptr, Nat.add_sub_cancel]
    refine ⟨?_, fresh block (List.mem_append_left _ here)⟩
    rintro rfl
    rw [unused] at used
    cases used
  constructor
  case tiles =>
      rw [pool.tail, grown]
      exact tiles'
  case start =>
      rw [pool.startAddr, ← shape.start]
      cases left <;> rfl
  case onward =>
      rw [pool.tail, pool.startAddr, next, Function.update_of_ne (by omega),
        Function.update_of_ne freshTail]
      exact shape.onward
  case back =>
      rw [pool.tail, pool.startAddr, prev, Function.update_of_ne (by omega),
        Function.update_of_ne (fresh _ (List.mem_append_left _ startBound.2))]
      exact shape.back
  case sentinel =>
      rw [pool.tail, marks _ freshTail]
      exact shape.sentinel
  case owned =>
      intro block member
      by_cases same : block = n
      · rw [Memheap.Owns, magic, poolPtr, pool.self, same, Function.update_self,
          Function.update_self]
        exact ⟨by decide, rfl⟩
      · rw [Memheap.Owns, magic, poolPtr, pool.self, Function.update_of_ne same,
          Function.update_of_ne same]
        refine shape.owned block ?_
        simp only [List.mem_append, List.mem_cons] at member ⊢
        tauto
  case available =>
      have parts := @weigh_insert (spareSize heap.isUsed) (spareSize heap'.isUsed) left rest h b n
        (tiles'.nodup (by decide)) fun x _ notN y => by rw [spareSize, spareSize, marks x notN]
      have wasAvailable := shape.available
      rw [whole] at wasAvailable
      rw [pool.tail, grown]
      have unusedN : heap'.isUsed n = false := by rw [unmarked, Function.update_self]
      have unusedH : heap'.isUsed h = false := by
        rw [marks h (by omega)]
        exact unused
      simp only [spareSize, unused, unusedN, unusedH, Bool.false_eq_true, if_false] at parts
      omega
  case handed =>
      have sameLeft : left.filter heap'.isUsed = left.filter heap.isUsed :=
        List.filter_congr fun x member => marks x (fresh x (by simp [member]))
      have sameRight : right.filter heap'.isUsed = right.filter heap.isUsed :=
        List.filter_congr fun x member => marks x (fresh x (by simp [member]))
      have unusedN : heap'.isUsed n = false := by rw [unmarked, Function.update_self]
      have unusedH : heap'.isUsed h = false := by
        rw [marks h (by omega)]
        exact unused
      have handed := shape.handed
      simp only [List.filter_append, List.filter_cons, unused, unusedN, unusedH, sameLeft,
        sameRight] at handed ⊢
      exact handed
  case served =>
      intro entry member
      obtain ⟨notH, notN⟩ := notUsed entry member
      rw [next, Function.update_of_ne notH, Function.update_of_ne notN]
      exact shape.served entry member

/-- The mark of one block changes. -/
theorem remark {value : Bool} {word : BitVec 32}
    (shape : MemheapBlocks heap (left ++ h :: right) live) (pool : heap.SamePool heap')
    (magic : heap'.magic = Function.update heap.magic h word)
    (kept : word &&& rtMemheapMask = heap.magic h &&& rtMemheapMask)
    (marks : decide (word &&& rtMemheapUsed ≠ 0) = value) (poolPtr : heap'.poolPtr = heap.poolPtr)
    (blocks : heap'.blocks = heap.blocks)
    (available : heap'.availableSize + spareSize heap.isUsed h (heap.blocks.next h) =
      heap.availableSize +
        spareSize (Function.update heap.isUsed h value) h (heap.blocks.next h))
    (handed : (live'.map Prod.fst).Perm
      (((left ++ h :: right).filter (Function.update heap.isUsed h value)).map (· + 24)))
    (served : ∀ entry ∈ live',
      entry.1 + Memheap.requestSize entry.2 ≤ heap.blocks.next (entry.1 - 24)) :
    MemheapBlocks heap' (left ++ h :: right) live' := by
  have marked := Memheap.isUsed_update magic marks
  obtain ⟨b, rest, behind⟩ := follows right heap.tail
  have whole : left ++ h :: right ++ [heap.tail] = left ++ h :: b :: rest := by simp [behind]
  have distinct := shape.nodup
  constructor
  case tiles =>
      rw [pool.tail, blocks]
      exact shape.tiles
  case start =>
      rw [pool.startAddr]
      exact shape.start
  case onward =>
      rw [pool.tail, pool.startAddr, blocks]
      exact shape.onward
  case back =>
      rw [pool.tail, pool.startAddr, blocks]
      exact shape.back
  case sentinel =>
      rw [pool.tail, marked, Function.update_of_ne]
      · exact shape.sentinel
      · intro same
        exact (List.nodup_append.mp distinct).2.2 h (by simp) heap.tail (by simp) same.symm
  case owned =>
      intro block member
      have owns := shape.owned block member
      rw [Memheap.Owns, magic, poolPtr, pool.self]
      refine ⟨?_, owns.2⟩
      by_cases same : block = h
      · rw [same, Function.update_self, kept, ← same]
        exact owns.1
      · rw [Function.update_of_ne same]
        exact owns.1
  case available =>
      have parts := @weigh_update (spareSize heap.isUsed)
        (spareSize (Function.update heap.isUsed h value)) left rest h b (whole ▸ distinct)
        fun x apart y => by rw [spareSize, spareSize, Function.update_of_ne apart]
      have before := shape.available
      rw [(shape.neighbour behind).next] at available
      rw [whole] at before
      rw [pool.tail, whole, marked]
      omega
  case handed =>
      rw [marked]
      exact handed
  case served =>
      rw [blocks]
      exact served

/-- The blocks that are used, when `h` is one of them or is not. -/
theorem filter_perm (shape : MemheapBlocks heap (left ++ h :: right) live) :
    ((left ++ h :: right).filter (Function.update heap.isUsed h true)).Perm
      (h :: (left ++ h :: right).filter (Function.update heap.isUsed h false)) := by
  refine filter_perm_cons (List.nodup_append.mp shape.nodup).1 (by simp) ?_ ?_ ?_
  · rw [Function.update_self]
  · rw [Function.update_self]
  · intro x _ apart
    rw [Function.update_of_ne apart, Function.update_of_ne apart]

/-- A block is handed out. -/
theorem mark {size : BitVec 32} (shape : MemheapBlocks heap (left ++ h :: right) live)
    (unused : heap.isUsed h = false) (pool : heap.SamePool heap')
    (magic : heap'.magic = Function.update heap.magic h (heap.magic h ||| rtMemheapUsed))
    (poolPtr : heap'.poolPtr = heap.poolPtr) (blocks : heap'.blocks = heap.blocks)
    (available : heap'.availableSize + (heap.blocks.next h - h - 24) = heap.availableSize)
    (fits : h + 24 + Memheap.requestSize size ≤ heap.blocks.next h) :
    MemheapBlocks heap' (left ++ h :: right) ((h + 24, size) :: live) := by
  refine shape.remark pool magic (or_used_mask _) (or_used _) poolPtr blocks ?_ ?_ ?_
  · rw [spareSize, spareSize, unused, Function.update_self]
    simpa using available
  · have same : Function.update heap.isUsed h false = heap.isUsed :=
      Function.update_eq_self_iff.mpr unused.symm
    have marked := shape.filter_perm
    rw [same] at marked
    exact (shape.handed.cons (h + 24)).trans (marked.map (· + 24)).symm
  · rintro entry member
    rcases List.mem_cons.mp member with rfl | member
    · simpa using fits
    · exact shape.served entry member

/-- A block is given back. -/
theorem release (shape : MemheapBlocks heap (left ++ h :: right) live)
    (used : heap.isUsed h = true) (pool : heap.SamePool heap')
    (magic : heap'.magic = Function.update heap.magic h (heap.magic h &&& ~~~rtMemheapUsed))
    (poolPtr : heap'.poolPtr = heap.poolPtr) (blocks : heap'.blocks = heap.blocks)
    (available : heap'.availableSize =
      heap.availableSize + (heap.blocks.next h - h) - 24) :
    MemheapBlocks heap' (left ++ h :: right) (live.filter fun entry => entry.1 ≠ h + 24) := by
  obtain ⟨b, rest, behind⟩ := follows right heap.tail
  have room := (shape.neighbour behind).room
  refine shape.remark pool magic (and_not_used_mask _) (and_not_used _) poolPtr blocks ?_ ?_ ?_
  · rw [spareSize, spareSize, used, Function.update_self]
    rw [(shape.neighbour behind).next] at available ⊢
    simp only [if_true, Bool.false_eq_true, if_false]
    omega
  · have same : Function.update heap.isUsed h true = heap.isUsed :=
      Function.update_eq_self_iff.mpr used.symm
    have marked := shape.filter_perm
    rw [same] at marked
    have others : ∀ ptr ∈ ((left ++ h :: right).filter
        (Function.update heap.isUsed h false)).map (· + 24), decide (ptr ≠ h + 24) = true := by
      intro ptr member
      obtain ⟨block, here, rfl⟩ := List.mem_map.mp member
      have notUsed := (List.mem_filter.mp here).2
      have apart : block ≠ h := by
        rintro rfl
        rw [Function.update_self] at notUsed
        cases notUsed
      simpa using apart
    have handed := (shape.handed.trans (marked.map (· + 24))).filter fun ptr => ptr ≠ h + 24
    rw [List.map_cons, List.filter_cons_of_neg (by simp), List.filter_eq_self.mpr others,
      List.filter_map] at handed
    exact handed
  · intro entry member
    exact shape.served entry (List.mem_filter.mp member).1

end MemheapBlocks

end

end RtThread
