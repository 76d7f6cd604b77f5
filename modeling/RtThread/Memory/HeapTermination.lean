import RtThread.Std.Loop
import RtThread.Memory.HeapSizes

/-!
# The loops of `rt_malloc` end

Both loops go along the blocks. They end at the sentinel, if not before, unless the bound of the
search is behind the sentinel.
-/

namespace RtThread

open RtThread.Std

namespace Heap

/-- `for (ptr = lfree; ptr < mem_size_aligned - size; ptr = mem->next)`. -/
def searchLoop (heap : Heap) (size : Nat) : Loop Nat Nat where
  guard ptr := ptr < heap.searchEnd size
  body ptr :=
    if heap.used ptr = false ∧ size ≤ heap.links.next ptr - (ptr + 12) then .inr ptr
    else .inl (heap.links.next ptr)

/-- `while (lfree->used && lfree != heap_end)`. -/
def freeLoop (heap : Heap) : Loop Nat Nat where
  guard lfree := heap.used lfree = true ∧ lfree ≠ heap.heapEnd
  body lfree := .inl (heap.links.next lfree)

/-- `next` leads from offset 0 through `blocks` to the sentinel. -/
structure Blocks (heap : Heap) (blocks : List Nat) : Prop where
  start : blocks.head? = some 0
  visits : (blocks ++ [heap.heapEnd]).IsChain fun a b => heap.links.next a = b ∧ a < b

/-- A call of `rt_malloc` that comes to its loops makes no more rounds in each of them than there
are blocks. -/
def SearchEnds (heap : Heap) (blocks : List Nat) (size : BitVec 32) : Prop :=
  heap.Admits size →
    ∃ n ≤ blocks.length, ∃ found,
      (heap.searchLoop (requestSize size)).Ends n heap.lfree found ∧
      ∀ mem, found = .inr mem → mem = heap.lfree →
        ∃ n ≤ blocks.length, ∃ lfree,
          (heap.occupy mem (requestSize size)).freeLoop.Ends n mem (.inl lfree)

variable {heap : Heap} {size ptr : Nat}

/-! ## The loops and the functions -/

/-- `findFit` is what the search ends with. -/
theorem findFit_eq_some_iff {result : Option Nat} : heap.findFit size ptr = some result ↔
    ∃ n found, (heap.searchLoop size).Ends n ptr found ∧ result = found.getRight? := by
  constructor
  · intro found
    refine Heap.findFit.partial_correctness heap size (fun ptr result =>
      ∃ n found, (heap.searchLoop size).Ends n ptr found ∧ result = found.getRight?) ?_ ptr result
        found
    intro search ih ptr result found
    split at found
    · rename_i within
      split at found
      · rename_i fits
        cases found
        exact ⟨1, _, .leave within (if_pos fits), rfl⟩
      · rename_i misses
        obtain ⟨n, last, ends, same⟩ := ih _ _ found
        exact ⟨n + 1, last, .round within (if_neg misses) ends, same⟩
    · rename_i beyond
      cases found
      exact ⟨0, _, .exit beyond, rfl⟩
  · rintro ⟨n, found, ends, rfl⟩
    induction ends with
    | exit fails =>
        rw [findFit]
        exact if_neg fails
    | leave holds leaves =>
        rw [findFit, if_pos (show _ < _ from holds)]
        simp only [searchLoop] at leaves
        split at leaves
        · rename_i fits
          cases leaves
          exact if_pos fits
        · cases leaves
    | round holds goes _ ih =>
        rw [findFit, if_pos (show _ < _ from holds)]
        simp only [searchLoop] at goes
        split at goes
        · cases goes
        · rename_i misses
          cases goes
          rw [if_neg misses]
          exact ih

/-- `findFree` is where the other loop ends. -/
theorem findFree_eq_some_iff {lfree result : Nat} : heap.findFree lfree = some result ↔
    ∃ n, heap.freeLoop.Ends n lfree (.inl result) := by
  constructor
  · intro found
    refine Heap.findFree.partial_correctness heap (fun lfree result =>
      ∃ n, heap.freeLoop.Ends n lfree (.inl result)) ?_ lfree result found
    intro search ih lfree result found
    split at found
    · rename_i goesOn
      obtain ⟨n, ends⟩ := ih _ _ found
      exact ⟨n + 1, .round goesOn rfl ends⟩
    · rename_i stops
      cases found
      exact ⟨0, .exit stops⟩
  · rintro ⟨n, ends⟩
    generalize out : (Sum.inl result : Nat ⊕ Nat) = found at ends
    induction ends with
    | exit fails =>
        cases out
        rw [findFree]
        exact if_neg fails
    | leave _ leaves => cases out
    | round holds goes _ ih =>
        cases goes
        rw [findFree, if_pos (show _ ∧ _ from holds)]
        exact ih out

/-- The second loop has no other way out. -/
theorem freeLoop_exits {n lfree : Nat} {result : Nat ⊕ Nat}
    (ends : heap.freeLoop.Ends n lfree result) : ∃ found, result = .inl found := by
  induction ends with
  | @exit lfree _ => exact ⟨lfree, rfl⟩
  | leave _ leaves => cases leaves
  | round _ _ _ ih => exact ih

end Heap

section

variable {base finish : Nat} {heap : Heap} {blocks left right live : List Nat} {mem size : Nat}

/-- No more blocks lie in front of the sentinel from one of them on. -/
theorem HeapShape.rest (shape : HeapShape base finish heap blocks live)
    (member : mem ∈ blocks ++ [finish]) :
    ∃ rest, rest.length ≤ blocks.length ∧ Tiles 12 (· ≠ finish) heap.links (mem :: rest) ∧
      (mem :: rest).getLast? = some finish := by
  obtain ⟨before, rest, whole⟩ := List.append_of_mem member
  have tiles := shape.tiles
  rw [whole] at tiles
  have total := congrArg List.length whole
  have last := congrArg List.getLast? whole
  rw [List.getLast?_concat, List.getLast?_append_of_ne_nil _ (by simp)] at last
  simp only [List.length_append, List.length_cons, List.length_nil] at total
  exact ⟨rest, by omega, tiles.right_of_append, last.symm⟩

/-- With room for the request the search ends. -/
theorem HeapShape.search_ends (shape : HeapShape base finish heap blocks live)
    (enough : size ≤ heap.memSizeAligned) :
    ∃ n ≤ blocks.length, ∃ found, (heap.searchLoop size).Ends n heap.lfree found := by
  have ends := shape.ends
  simp only [Heap.heapEnd] at ends
  have start : heap.lfree ∈ blocks ++ [finish] := by
    rcases shape.lfree with atEnd | ⟨member, -⟩
    · rw [atEnd]
      exact List.mem_append_right _ (List.mem_singleton_self finish)
    · exact List.mem_append_left _ member
  obtain ⟨rest, few, tiles, last⟩ := shape.rest start
  have denied : ¬ (heap.searchLoop size).guard finish := by
    simp only [Heap.searchLoop, Heap.searchEnd, if_pos enough]
    omega
  obtain ⟨n, rounds, found, search⟩ := Loop.ends_within denied (tiles.imp fun a b touch _ => by
    simp only [Heap.searchLoop, touch.next]
    split
    · exact .inr ⟨_, rfl⟩
    · exact .inl rfl) last
  exact ⟨n, rounds.trans few, found, search⟩

/-- What the search finds is a block. -/
theorem HeapShape.search_finds (shape : HeapShape base finish heap blocks live)
    (enough : size ≤ heap.memSizeAligned) {n : Nat}
    (search : (heap.searchLoop size).Ends n heap.lfree (.inr mem)) : heap.lfree ∈ blocks := by
  have ends := shape.ends
  simp only [Heap.heapEnd] at ends
  refine (shape.lfree.resolve_left fun atEnd => ?_).1
  have denied : ¬ (heap.searchLoop size).guard heap.lfree := by
    simp only [Heap.searchLoop, Heap.searchEnd, if_pos enough]
    omega
  cases search with
  | leave holds _ => exact denied holds
  | round holds _ _ => exact denied holds

/-- Once the block at `mem` has been taken, the next free one or the sentinel is found. -/
theorem HeapShape.free_ends (shape : HeapShape base finish heap blocks live) (here : mem ∈ blocks) :
    ∃ n ≤ blocks.length, ∃ lfree, (heap.occupy mem size).freeLoop.Ends n mem (.inl lfree) := by
  have ends := shape.ends
  have below := shape.room mem here
  by_cases fits : size + 24 ≤ heap.links.next mem - (mem + 12)
  · -- what remains of the block comes next
    have used : (heap.occupy mem size).used mem = true := by
      rw [Heap.occupy_split fits]
      exact Function.update_self ..
    have onward : (heap.occupy mem size).links.next mem = mem + 12 + size := by
      rw [Heap.occupy_next_self, if_pos fits]
    have unused : (heap.occupy mem size).used (mem + 12 + size) = false := by
      rw [Heap.occupy_split fits]
      dsimp only
      rw [Function.update_of_ne (by omega), Function.update_self]
    have stays : (heap.occupy mem size).heapEnd = heap.heapEnd := by
      rw [Heap.occupy_split fits]
      rfl
    refine ⟨1, List.length_pos_of_mem here, mem + 12 + size,
      .round ⟨used, by rw [stays]; omega⟩ (congrArg Sum.inl onward) (.exit fun goesOn => ?_)⟩
    cases unused.symm.trans goesOn.1
  · obtain ⟨rest, few, tiles, last⟩ := shape.rest (List.mem_append_left [finish] here)
    have denied : ¬ (heap.occupy mem size).freeLoop.guard finish := by
      rw [Heap.occupy_whole fits]
      exact fun goesOn => goesOn.2 ends.symm
    rw [Heap.occupy_whole fits] at denied ⊢
    obtain ⟨n, rounds, result, loop⟩ := Loop.ends_within denied
      (tiles.imp fun a b touch _ => .inl (congrArg Sum.inl touch.next)) last
    obtain ⟨lfree, rfl⟩ := Heap.freeLoop_exits loop
    exact ⟨n, rounds.trans few, lfree, loop⟩

theorem HeapShape.searchEnds (shape : HeapShape base finish heap blocks live) (size : BitVec 32) :
    heap.SearchEnds blocks size := by
  intro admits
  have ends := shape.ends
  have room := shape.room 0 (List.mem_of_mem_head? shape.start)
  simp only [Heap.heapEnd] at ends
  have enough : requestSize size ≤ heap.memSizeAligned := by
    have within := admits.2
    unfold requestSize
    omega
  obtain ⟨n, few, found, search⟩ := shape.search_ends enough
  refine ⟨n, few, found, search, ?_⟩
  rintro mem rfl rfl
  exact shape.free_ends (shape.search_finds enough search)

end

/-- Where there is no room for a block, the search goes on at the sentinel for ever. -/
theorem Heap.Fresh.not_searchEnds {heap : Heap} (fresh : heap.Fresh)
    (small : heap.memSizeAligned < 12) {blocks : List Nat} {size : BitVec 32}
    (admits : heap.Admits size) : ¬ heap.SearchEnds blocks size := by
  intro searchEnds
  obtain ⟨n, -, found, search, -⟩ := searchEnds admits
  have request : requestSize size = 12 := by
    have within := admits.2
    unfold requestSize
    omega
  rw [request, fresh.lfree] at search
  let Stays (ptr : Nat) : Prop := ptr = 0 ∨ ptr = heap.heapEnd
  have start : Stays 0 := Or.inl rfl
  refine Loop.not_ends start ?_ search
  intro ptr here
  have bound : ptr < heap.searchEnd 12 := by
    rw [Heap.searchEnd, if_neg (by omega)]
    rcases here with rfl | rfl
    · omega
    · simp only [Heap.heapEnd]
      omega
  refine ⟨bound, heap.links.next ptr, if_neg ?_, Or.inr ?_⟩
  · rintro ⟨unused, fits⟩
    rcases here with rfl | rfl
    · rw [fresh.next, Heap.heapEnd] at fits
      omega
    · rw [fresh.sentinel] at unused
      cases unused
  · rcases here with rfl | rfl
    · exact fresh.next
    · exact fresh.around

/-- In every reachable state the loops of `rt_malloc` make no more rounds than there are blocks,
unless the heap has no room for one block and the request gets past the first check. -/
theorem heap_search_terminates {magic : Nat → BitVec 16} {used : Nat → Bool} {links : Links Nat}
    {beginAddr endAddr : BitVec 32} {heap : Heap} {calls : List HeapCall} {pointers : List Nat}
    {system : HeapSystem} {blocks : List Nat}
    (init : rtSystemHeapInit magic used links beginAddr endAddr = some heap)
    (run : heapMachine.Run HeapSystem.OwnsArgument ⟨heap, []⟩ calls pointers system)
    (visited : system.heap.Blocks blocks) (size : BitVec 32) :
    system.heap.SearchEnds blocks size ↔
      12 ≤ system.heap.memSizeAligned ∨ size = 0#32 ∨
        system.heap.memSizeAligned < (rtAlign size).toNat := by
  have refused : ¬ system.heap.Admits size ↔
      size = 0#32 ∨ system.heap.memSizeAligned < (rtAlign size).toNat := by
    rw [Heap.Admits, not_and_or, not_not, not_le]
  rw [← refused]
  rcases heap_reached init (fun _ _ owns => owns) run with ⟨blocks', inv, -⟩ | ⟨small, rfl⟩
  · have same : blocks = blocks' :=
      chain_unique visited.visits inv.kept.visits (visited.start.trans inv.kept.start.symm)
    have ends := inv.ends
    have room := inv.room 0 (List.mem_of_mem_head? inv.start)
    have stays : system.heap.memSizeAligned = heap.memSizeAligned := by
      simp only [Heap.heapEnd] at ends
      omega
    refine iff_of_true (same ▸ inv.searchEnds size) (Or.inl ?_)
    simp only [Heap.heapEnd] at ends room
    omega
  · have fresh := rtSystemHeapInit_fresh init
    rw [or_iff_right (Nat.not_le_of_lt small)]
    constructor
    · intro searchEnds admits
      exact fresh.not_searchEnds small admits searchEnds
    · exact fun refuses admits => absurd admits refuses

/-- A kilobyte, from which 40 bytes have been taken. -/
theorem heap_search_terminates_one_block : ∃ (system : HeapSystem) (blocks : List Nat),
    system.heap.Blocks blocks ∧ system.heap.memSizeAligned = 1000 ∧
    (system.heap.SearchEnds blocks 100#32 ↔
      12 ≤ system.heap.memSizeAligned ∨ 100#32 = 0#32 ∨
        system.heap.memSizeAligned < (rtAlign 100#32).toNat) := by
  obtain ⟨heap, system, pointer, blocks, init, size, run, inv, -⟩ := heap_one_block
  have visited : system.heap.Blocks blocks := ⟨inv.kept.start, inv.kept.visits⟩
  have same : system.heap.memSizeAligned = 1000 := by
    have ends := inv.ends
    simp only [Heap.heapEnd] at ends
    omega
  exact ⟨system, blocks, visited, same, heap_search_terminates init run visited 100#32⟩

/-- 32 bytes leave room for eight bytes of data, and a request for eight never ends. -/
theorem heap_search_never_ends : ∃ heap, rtSystemHeapInit (fun _ => 0) (fun _ => false)
      ⟨fun _ => 0, fun _ => 0⟩ 0x1000#32 0x1020#32 = some heap ∧ heap.Blocks [0] ∧
    ¬ heap.SearchEnds [0] 8#32 ∧ rtMalloc heap 8#32 = none := by
  obtain ⟨heap, init, size⟩ : ∃ heap, rtSystemHeapInit (fun _ => 0) (fun _ => false)
      ⟨fun _ => 0, fun _ => 0⟩ 0x1000#32 0x1020#32 = some heap ∧ heap.memSizeAligned = 8 :=
    ⟨_, rfl, by decide⟩
  have fresh := rtSystemHeapInit_fresh init
  have admits : heap.Admits 8#32 := ⟨by decide, by rw [size]; decide⟩
  refine ⟨heap, init, ⟨rfl, ?_⟩, fresh.not_searchEnds (by omega) admits, ?_⟩
  · refine List.isChain_pair.mpr ⟨fresh.next, ?_⟩
    simp only [Heap.heapEnd]
    omega
  · by_contra result
    obtain ⟨⟨next, pointer⟩, result⟩ := Option.ne_none_iff_exists'.mp result
    exact (fresh.malloc (by omega) result).1 admits

end RtThread
