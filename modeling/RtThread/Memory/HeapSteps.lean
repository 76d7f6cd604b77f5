import RtThread.Std.Tiling
import RtThread.Memory.Heap

/-!
# The blocks of the system heap

The headers tile the heap, and the counters fit them. Every call keeps this;
between marking a block as free and plugging the holes around it, the block may
have free neighbours.
-/

namespace RtThread

open RtThread.Std

/-- What a block adds to `used_mem`. -/
def usedSize (used : Nat → Bool) (block next : Nat) : Nat :=
  if used block = true then next - block else 0

/-- The blocks from `heap_ptr` to the sentinel at `finish`. -/
structure HeapShape (base finish : Nat) (heap : Heap) (blocks live : List Nat) : Prop where
  begins : heap.heapPtr = base
  ends : heap.heapEnd = finish
  tiles : Tiles 12 (· ≠ finish) heap.links (blocks ++ [finish])
  /-- The last block has room for data, so that no pointer in use is `heap_end`. -/
  room : ∀ block ∈ blocks, block + 24 ≤ finish
  start : blocks.head? = some 0
  first : heap.links.prev 0 = 0
  sentinel : heap.used finish = true
  aligned : base % 4 = 0 ∧ ∀ block ∈ blocks ++ [finish], block % 4 = 0
  lfree : heap.lfree = finish ∨ heap.lfree ∈ blocks ∧ heap.used heap.lfree = false
  usedMem : heap.usedMem = weigh (usedSize heap.used) (blocks ++ [finish])
  handed : live.Perm ((blocks.filter heap.used).map fun block => base + block + 12)
  magic : ∀ block ∈ blocks, heap.used block = true → heap.magic block = heapMagic

/-- No two neighbours are both free, and `lfree` is the start of an empty heap. -/
structure HeapInv (base finish : Nat) (heap : Heap) (blocks live : List Nat) : Prop extends
    HeapShape base finish heap blocks live where
  separated : Separated heap.used (blocks ++ [finish])
  fresh : live = [] → heap.lfree = 0

/-- The header at `n` goes, and the block at `a` ends where that one did. -/
def Heap.merge (heap : Heap) (a n : Nat) : Heap :=
  { heap with
    lfree := if heap.lfree = n then a else heap.lfree
    links := (heap.links.setNext a (heap.links.next n)).setPrev (heap.links.next n) a }

/-- The block at `mem` becomes free. -/
def Heap.release (heap : Heap) (mem : Nat) : Heap :=
  { heap with
    usedMem := heap.usedMem - (heap.links.next mem - mem)
    lfree := if mem < heap.lfree then mem else heap.lfree
    magic := Function.update heap.magic mem 0
    used := Function.update heap.used mem false }

/-- No free block lies below `lfree`. -/
def Heap.Lowest (heap : Heap) (blocks : List Nat) : Prop :=
  ∀ block ∈ blocks, heap.used block = false → heap.lfree ≤ block

theorem Heap.plugForward_eq {heap : Heap} {mem : Nat}
    (merges : mem ≠ heap.links.next mem ∧ heap.used (heap.links.next mem) = false ∧
      heap.links.next mem ≠ heap.heapEnd) :
    heap.plugForward mem = heap.merge mem (heap.links.next mem) := by
  have kept : ∀ target, (heap.links.setNext mem target).next (heap.links.next mem) =
      heap.links.next (heap.links.next mem) := fun target => Function.update_of_ne merges.1.symm ..
  unfold Heap.plugForward Heap.merge
  simp only [if_pos merges]
  split <;> simp [Heap.setNext, Heap.setPrev, *]

theorem Heap.plugBackward_eq {heap : Heap} {mem : Nat}
    (merges : heap.links.prev mem ≠ mem ∧ heap.used (heap.links.prev mem) = false) :
    heap.plugBackward mem = heap.merge (heap.links.prev mem) mem := by
  have kept : ∀ target, (heap.links.setNext (heap.links.prev mem) target).next mem =
      heap.links.next mem := fun target => Function.update_of_ne merges.1.symm ..
  unfold Heap.plugBackward Heap.merge
  simp only [if_pos merges]
  split <;> simp [Heap.setNext, Heap.setPrev, *]

theorem Heap.plugForward_used (heap : Heap) (mem : Nat) :
    (heap.plugForward mem).used = heap.used := by
  unfold Heap.plugForward
  dsimp only
  split <;> [split; skip] <;> rfl

theorem Heap.plugBackward_used (heap : Heap) (mem : Nat) :
    (heap.plugBackward mem).used = heap.used := by
  unfold Heap.plugBackward
  dsimp only
  split <;> [split; skip] <;> rfl

section

variable {base finish : Nat} {heap : Heap} {blocks left right live : List Nat} {mem a n : Nat}

namespace HeapShape

theorem nodup (shape : HeapShape base finish heap blocks live) : (blocks ++ [finish]).Nodup :=
  shape.tiles.nodup (by decide)

theorem pairwise (shape : HeapShape base finish heap blocks live) :
    blocks.Pairwise fun a b => a + 12 ≤ b :=
  (List.pairwise_append.mp shape.tiles.pairwise).1

/-- Something follows every block, if only the sentinel. -/
theorem exists_next (right : List Nat) (finish : Nat) :
    ∃ next rest, right ++ [finish] = next :: rest := by
  cases right with
  | nil => exact ⟨finish, [], rfl⟩
  | cons next right => exact ⟨next, right ++ [finish], rfl⟩

theorem links_next (shape : HeapShape base finish heap (left ++ mem :: right) live)
    {next : Nat} {rest : List Nat} (follows : right ++ [finish] = next :: rest) :
    heap.links.next mem = next := by
  have tiles := shape.tiles
  rw [List.append_assoc, List.cons_append, follows] at tiles
  exact (Tiles.split.mp tiles).2.1.next

theorem next_le_finish {next : Nat} {rest : List Nat}
    (shape : HeapShape base finish heap (left ++ mem :: right) live)
    (follows : right ++ [finish] = next :: rest) : next ≤ finish := by
  cases right with
  | nil => exact Nat.le_of_eq (List.cons.inj follows).1.symm
  | cons block right =>
      obtain rfl : block = next := (List.cons.inj follows).1
      exact Nat.le_of_add_right_le (shape.room block (by simp))

theorem links_prev (shape : HeapShape base finish heap (left ++ a :: mem :: right) live) :
    heap.links.prev mem = a := by
  have tiles := shape.tiles
  rw [List.append_assoc, List.cons_append, List.cons_append] at tiles
  have below := shape.room mem (by simp)
  exact (Tiles.split.mp tiles).2.1.prev (by omega)

/-- Two free neighbours become one block. -/
theorem merge (shape : HeapShape base finish heap (left ++ a :: n :: right) live)
    (unusedA : heap.used a = false) (unusedN : heap.used n = false) :
    HeapShape base finish (heap.merge a n) (left ++ a :: right) live := by
  obtain ⟨c, rest, follows⟩ := exists_next right finish
  have onward : heap.links.next n = c := by
    have regroup : left ++ a :: n :: right = (left ++ [a]) ++ n :: right := by simp
    exact (regroup ▸ shape).links_next follows
  have whole : left ++ a :: n :: right ++ [finish] = left ++ a :: n :: c :: rest := by
    simp [follows]
  have merged : left ++ a :: right ++ [finish] = left ++ a :: c :: rest := by
    simp [follows]
  have distinct := shape.nodup
  rw [whole] at distinct
  have tiles := shape.tiles
  rw [whole] at tiles
  have room := (Tiles.split.mp tiles).2.1.room
  have room' := (List.isChain_cons_cons.mp (Tiles.split.mp tiles).2.2).1.room
  have below := shape.room n (by simp)
  refine ⟨shape.begins, shape.ends, ?_, ?_, ?_, ?_, shape.sentinel, ?_, ?_, ?_, ?_, ?_⟩
  · rw [merged]
    refine tiles.remove (by decide) ?_ ?_ ?_ ?_
    · simp [Heap.merge, Links.setPrev, Links.setNext, onward]
    · simp [Heap.merge, Links.setPrev, onward]
    · intro x notA notN
      simp [Heap.merge, Links.setPrev, Links.setNext, notA]
    · intro y notN notC
      simp [Heap.merge, Links.setPrev, Links.setNext, onward, notC]
  · intro block member
    refine shape.room block ?_
    simp only [List.mem_append, List.mem_cons] at member ⊢
    tauto
  · have start := shape.start
    cases left <;> simpa using start
  · -- the block at the start has nothing in front of it, so it is not `c`
    have positive : 0 ≠ c := by omega
    simp [Heap.merge, Links.setPrev, Links.setNext, onward, positive, shape.first]
  · refine ⟨shape.aligned.1, fun block member => shape.aligned.2 block ?_⟩
    simp only [List.mem_append, List.mem_cons] at member ⊢
    tauto
  · simp only [Heap.merge]
    split
    · right
      simp [unusedA]
    · rename_i apart
      refine shape.lfree.imp_right (And.imp_left fun member => ?_)
      simp only [List.mem_append, List.mem_cons] at member ⊢
      tauto
  · rw [merged]
    change heap.usedMem = weigh (usedSize heap.used) (left ++ a :: c :: rest)
    have sizes := weigh_insert distinct (fun x _ _ y => rfl : ∀ x, x ≠ a → x ≠ n → ∀ y,
      usedSize heap.used x y = usedSize heap.used x y)
    simp only [usedSize, unusedA, unusedN, Bool.false_eq_true, if_false] at sizes
    rw [shape.usedMem, whole]
    exact sizes
  · have handed := shape.handed
    simp only [List.filter_append, List.filter_cons, unusedA, unusedN, Bool.false_eq_true,
      if_false] at handed
    simpa only [Heap.merge, List.filter_append, List.filter_cons, unusedA, Bool.false_eq_true,
      if_false] using handed
  · intro block member used
    refine shape.magic block ?_ used
    simp only [List.mem_append, List.mem_cons] at member ⊢
    tauto

theorem merge_lfree (shape : HeapShape base finish heap blocks live) (member : a ∈ blocks)
    (same : (heap.merge a n).lfree = finish) : heap.lfree = finish := by
  have below := shape.room a member
  simp only [Heap.merge] at same
  split at same
  · omega
  · exact same

/-- The hole at `mem` is plugged forward if the next block is free. -/
theorem plugForward_cases (shape : HeapShape base finish heap (left ++ mem :: right) live) :
    heap.plugForward mem = heap ∧ (∀ next ∈ (right ++ [finish]).head?, heap.used next = true) ∨
      ∃ n after, right = n :: after ∧ heap.used n = false ∧
        heap.plugForward mem = heap.merge mem n := by
  obtain ⟨next, rest, follows⟩ := exists_next right finish
  have points := shape.links_next follows
  by_cases merges : mem ≠ heap.links.next mem ∧ heap.used (heap.links.next mem) = false ∧
      heap.links.next mem ≠ heap.heapEnd
  · right
    rw [Heap.plugForward_eq merges]
    rw [points, shape.ends] at merges
    cases right with
    | nil =>
        obtain rfl : finish = next := (List.cons.inj follows).1
        exact absurd rfl merges.2.2
    | cons n right =>
        obtain rfl : n = next := (List.cons.inj follows).1
        exact ⟨n, right, rfl, merges.2.1, by rw [points]⟩
  · refine Or.inl ⟨if_neg merges, ?_⟩
    rw [follows]
    rintro x ⟨⟩
    rw [points, shape.ends] at merges
    by_cases last : next = finish
    · rw [last]
      exact shape.sentinel
    · have apart : mem ≠ next := by
        rintro rfl
        have distinct := shape.nodup
        rw [List.append_assoc, List.cons_append, follows] at distinct
        simp [List.nodup_append] at distinct
      simpa [apart, last] using merges

/-- The hole at `mem` is plugged backward if the block before it is free. -/
theorem plugBackward_cases (shape : HeapShape base finish heap (left ++ mem :: right) live) :
    heap.plugBackward mem = heap ∧ (∀ q ∈ left.getLast?, heap.used q = true) ∨
      ∃ before q, left = before ++ [q] ∧ heap.used q = false ∧
        heap.plugBackward mem = heap.merge q mem := by
  rcases List.eq_nil_or_concat' left with rfl | ⟨before, q, rfl⟩
  · obtain rfl : mem = 0 := by simpa using shape.start
    exact Or.inl ⟨if_neg (by simp [shape.first]), by simp⟩
  · have regroup : before ++ [q] ++ mem :: right = before ++ q :: mem :: right := by simp
    rw [regroup] at shape
    have points := shape.links_prev
    by_cases merges : heap.links.prev mem ≠ mem ∧ heap.used (heap.links.prev mem) = false
    · right
      rw [Heap.plugBackward_eq merges]
      rw [points] at merges
      exact ⟨before, q, rfl, merges.2, by rw [points]⟩
    · refine Or.inl ⟨if_neg merges, ?_⟩
      intro x member
      obtain rfl : q = x := by simpa using member
      have apart : q ≠ mem := by
        rintro rfl
        have distinct := shape.nodup
        simp [List.nodup_append] at distinct
      rw [points] at merges
      simpa [apart] using merges

/-- The cached pointer never moves up, and does not stay behind the hole. -/
theorem plugForward_lfree (shape : HeapShape base finish heap (left ++ mem :: right) live) :
    (heap.plugForward mem).lfree ≤ heap.lfree ∧
      (right.head? = some heap.lfree → (heap.plugForward mem).lfree ≤ mem) := by
  rcases shape.plugForward_cases with ⟨stays, used⟩ | ⟨n, after, rfl, -, merges⟩
  · rw [stays]
    refine ⟨Nat.le_refl _, fun first => ?_⟩
    -- the pointer is at a free block, or at the sentinel
    obtain ⟨after, rfl⟩ : ∃ after, right = heap.lfree :: after := List.head?_eq_some_iff.mp first
    have inUse := used heap.lfree (by simp)
    rcases shape.lfree with atEnd | ⟨-, unused⟩
    · have room := shape.room heap.lfree (by simp)
      omega
    · rw [inUse] at unused
      cases unused
  · have order : mem < n := by
      have behind := (List.pairwise_append.mp shape.pairwise).2.1
      have room := (List.pairwise_cons.mp behind).1 n (by simp)
      omega
    rw [merges]
    simp only [Heap.merge, List.head?_cons, Option.some_inj]
    split <;> omega

theorem plugBackward_lfree (shape : HeapShape base finish heap (left ++ mem :: right) live) :
    (heap.plugBackward mem).lfree ≤ heap.lfree := by
  rcases shape.plugBackward_cases with ⟨stays, -⟩ | ⟨before, q, rfl, -, merges⟩
  · rw [stays]
  · have order : q < mem := by
      have room := (List.pairwise_append.mp shape.pairwise).2.2 q (by simp) mem (by simp)
      omega
    rw [merges]
    simp only [Heap.merge]
    split <;> omega

/-- After the hole has been plugged forward, the next block is used. -/
theorem plugForward (shape : HeapShape base finish heap (left ++ mem :: right) live)
    (unused : heap.used mem = false) (behind : Separated heap.used (right ++ [finish])) :
    ∃ right', right'.Sublist right ∧
      HeapShape base finish (heap.plugForward mem) (left ++ mem :: right') live ∧
      (heap.plugForward mem).used = heap.used ∧ Separated heap.used (right' ++ [finish]) ∧
      (∀ next ∈ (right' ++ [finish]).head?, heap.used next = true) ∧
      ((heap.plugForward mem).lfree = finish → heap.lfree = finish) := by
  rcases shape.plugForward_cases with ⟨stays, used⟩ | ⟨n, after, rfl, unusedN, merges⟩
  · rw [stays]
    exact ⟨right, .refl _, shape, rfl, behind, used, id⟩
  · rw [merges]
    obtain ⟨next, rest, follows⟩ := exists_next after finish
    rw [List.cons_append, follows] at behind
    obtain ⟨either, behind⟩ := List.isChain_cons_cons.mp behind
    refine ⟨after, List.sublist_cons_self .., shape.merge unused unusedN, rfl, follows ▸ behind,
      ?_, shape.merge_lfree (by simp)⟩
    rw [follows]
    rintro x ⟨⟩
    exact either.resolve_left (by simp [unusedN])

/-- After the hole has been plugged backward too, it has no free neighbour. -/
theorem plugBackward (shape : HeapShape base finish heap (left ++ mem :: right) live)
    (unused : heap.used mem = false) (before : Separated heap.used left)
    (behind : Separated heap.used (right ++ [finish]))
    (used : ∀ next ∈ (right ++ [finish]).head?, heap.used next = true) :
    ∃ blocks, blocks.Sublist (left ++ mem :: right) ∧
      HeapShape base finish (heap.plugBackward mem) blocks live ∧
      Separated (heap.plugBackward mem).used (blocks ++ [finish]) ∧
      ((heap.plugBackward mem).lfree = finish → heap.lfree = finish) := by
  obtain ⟨next, rest, follows⟩ := exists_next right finish
  rw [follows] at behind used
  have nextUsed : heap.used next = true := used next rfl
  rcases shape.plugBackward_cases with ⟨stays, last⟩ | ⟨before', q, rfl, unusedQ, merges⟩
  · rw [stays]
    refine ⟨_, .refl _, shape, ?_, id⟩
    rw [List.append_assoc, List.cons_append, follows]
    exact before.join behind last nextUsed
  · rw [merges]
    have regroup : before' ++ [q] ++ mem :: right = before' ++ q :: mem :: right := by simp
    rw [regroup] at shape ⊢
    refine ⟨before' ++ q :: right, ?_, shape.merge unusedQ unused, ?_,
      shape.merge_lfree (by simp)⟩
    · exact List.Sublist.append_left ((List.sublist_cons_self ..).cons_cons q) before'
    · change Separated heap.used _
      rw [List.append_assoc, List.cons_append, follows]
      -- a free block has a used one in front of it
      refine Separated.join before.left_of_append behind ?_ nextUsed
      intro x member
      have either := (List.isChain_append.mp before).2.2 x member q rfl
      exact either.resolve_right (by simp [unusedQ])

/-- With nothing in use there is one block. -/
theorem eq_single (shape : HeapShape base finish heap blocks [])
    (separated : Separated heap.used (blocks ++ [finish])) : blocks = [0] := by
  have start := shape.start
  have none_ : blocks.filter heap.used = [] := by
    simpa using shape.handed.nil_eq.symm
  have unused : ∀ block ∈ blocks, ¬ heap.used block = true := List.filter_eq_nil_iff.mp none_
  cases blocks with
  | nil => cases start
  | cons first blocks =>
      obtain rfl : first = 0 := by simpa using start
      cases blocks with
      | nil => rfl
      | cons second blocks =>
          have either := (List.isChain_cons_cons.mp separated).1
          exact absurd either (by simp [unused 0, unused second])

/-- A free block is merged with its free neighbours, and `lfree` is not above it
afterwards unless it was before. -/
theorem plugHoles (shape : HeapShape base finish heap (left ++ mem :: right) live)
    (unused : heap.used mem = false) (before : Separated heap.used left)
    (behind : Separated heap.used (right ++ [finish])) (free : live = [] → heap.lfree ≠ finish) :
    ∃ next blocks, heap.plugHoles mem = some next ∧ blocks.Sublist (left ++ mem :: right) ∧
      HeapInv base finish next blocks live ∧
      (heap.Lowest (left ++ right) → heap.lfree ≤ mem ∨ right.head? = some heap.lfree →
        next.Lowest blocks) := by
  have below := shape.room mem (by simp)
  have asserts : mem < heap.heapEnd ∧ heap.used mem = false := by
    rw [shape.ends]
    exact ⟨by omega, unused⟩
  obtain ⟨right', fewer, forward, sameUsed, behind', next, lfree⟩ :=
    shape.plugForward unused behind
  obtain ⟨lower, reaches⟩ := shape.plugForward_lfree
  have lower' := forward.plugBackward_lfree
  have sameUsed' := (heap.plugForward mem).plugBackward_used mem
  rw [← sameUsed] at unused before behind' next
  obtain ⟨blocks, fewer', backward, separated, lfree'⟩ :=
    forward.plugBackward unused before behind' next
  have sub : blocks.Sublist (left ++ mem :: right) :=
    fewer'.trans ((fewer.cons_cons mem).append_left left)
  refine ⟨_, blocks, if_pos asserts, sub, ⟨backward, separated, ?_⟩, ?_⟩
  · rintro rfl
    have single := backward.eq_single separated
    rcases backward.lfree with atEnd | ⟨member, -⟩
    · exact absurd (lfree (lfree' atEnd)) (free rfl)
    · rw [single] at member
      exact List.mem_singleton.mp member
  · intro lowest near block member free
    have known := sub.subset member
    rw [sameUsed', sameUsed] at free
    by_cases same : block = mem
    · rw [same]
      rcases near with near | first
      · omega
      · exact Nat.le_trans lower' (reaches first)
    · have above := lowest block (by simpa [same] using known) free
      omega

/-! ## Releasing -/

/-- The block of a pointer in use. -/
theorem exists_block {rmem : Nat} (shape : HeapShape base finish heap blocks live)
    (member : rmem ∈ live) :
    ∃ mem ∈ blocks, heap.used mem = true ∧ rmem = base + mem + 12 := by
  obtain ⟨mem, here, rfl⟩ := List.mem_map.mp (shape.handed.subset member)
  obtain ⟨here, used⟩ := List.mem_filter.mp here
  exact ⟨mem, here, used, rfl⟩

/-- A block in use becomes free, next to whatever there is. -/
theorem release (shape : HeapShape base finish heap (left ++ mem :: right) live)
    (used : heap.used mem = true) :
    HeapShape base finish (heap.release mem) (left ++ mem :: right)
      (live.erase (base + mem + 12)) := by
  have below := shape.room mem (by simp)
  obtain ⟨next, rest, follows⟩ := exists_next right finish
  have points := shape.links_next follows
  have distinct := shape.nodup
  refine ⟨shape.begins, shape.ends, shape.tiles, shape.room, shape.start, shape.first, ?_,
    shape.aligned,
    ?_, ?_, ?_, ?_⟩
  · have apart : finish ≠ mem := by omega
    exact (Function.update_of_ne apart ..).trans shape.sentinel
  · simp only [Heap.release]
    split
    · right
      simp
    · refine shape.lfree.imp_right (And.imp_right fun unused => ?_)
      have apart : heap.lfree ≠ mem := by
        intro same
        rw [same, used] at unused
        cases unused
      rwa [Function.update_of_ne apart]
  · have whole : left ++ mem :: right ++ [finish] = left ++ mem :: next :: rest := by
      simp [follows]
    rw [whole] at distinct
    have same : ∀ x, x ≠ mem → ∀ y,
        usedSize (Function.update heap.used mem false) x y = usedSize heap.used x y := by
      intro x apart y
      rw [usedSize, usedSize, Function.update_of_ne apart]
    have sizes := weigh_update distinct same
    have before : usedSize heap.used mem next = next - mem := if_pos used
    have after : usedSize (Function.update heap.used mem false) mem next = 0 :=
      if_neg (by simp)
    rw [before, after] at sizes
    change heap.usedMem - (heap.links.next mem - mem) = weigh _ _
    rw [shape.usedMem, points, whole]
    exact Nat.sub_eq_of_eq_add sizes.symm
  · have inner : (left ++ mem :: right).Nodup := (List.nodup_append.mp distinct).1
    have freed := @filter_perm_cons (Function.update heap.used mem false) heap.used _ mem inner
      (by simp) (by simp) used fun x _ apart => by rw [Function.update_of_ne apart]
    have handed := shape.handed.trans (freed.map fun block => base + block + 12)
    refine (handed.erase (base + mem + 12)).trans ?_
    rw [List.map_cons, List.erase_cons_head]
    rfl
  · intro block member inUse
    simp only [Heap.release] at inUse ⊢
    have apart : block ≠ mem := by
      rintro rfl
      simp at inUse
    rw [Function.update_of_ne apart] at inUse ⊢
    exact shape.magic block member inUse

end HeapShape

theorem rtFree_eq {rmem : Nat} (nonnull : rmem ≠ 0)
    (asserts : rmem % 4 = 0 ∧ heap.heapPtr ≤ rmem ∧ rmem < heap.heapPtr + heap.heapEnd)
    (offset : rmem - 12 - heap.heapPtr = mem)
    (inUse : heap.used mem = true ∧ heap.magic mem = heapMagic) :
    rtFree heap rmem = (heap.release mem).plugHoles mem := by
  subst offset
  rw [rtFree, if_neg nonnull, if_pos asserts]
  simp only [if_pos inUse]
  congr 1
  unfold Heap.release Heap.setUsed Heap.setMagic
  dsimp only
  split <;> rfl

theorem HeapShape.free_eq (shape : HeapShape base finish heap blocks live) (here : mem ∈ blocks)
    (used : heap.used mem = true) :
    rtFree heap (base + mem + 12) = (heap.release mem).plugHoles mem := by
  have below := shape.room mem here
  have aligned := shape.aligned.2 mem (List.mem_append_left _ here)
  have alignedBase := shape.aligned.1
  refine rtFree_eq (by omega) ?_ ?_ ⟨used, shape.magic mem here used⟩
  · rw [shape.begins, shape.ends]
    omega
  · rw [shape.begins]
    omega

/-- `rt_free` takes back a pointer in use. -/
theorem HeapInv.free {rmem : Nat} (inv : HeapInv base finish heap blocks live)
    (member : rmem ∈ live) :
    ∃ next blocks', rtFree heap rmem = some next ∧ blocks'.Sublist blocks ∧
      HeapInv base finish next blocks' (live.erase rmem) ∧
      (heap.Lowest blocks → next.Lowest blocks') := by
  obtain ⟨mem, here, used, rfl⟩ := inv.exists_block member
  have freed := inv.free_eq here used
  have below := inv.room mem here
  obtain ⟨left, right, rfl⟩ := List.append_of_mem here
  have distinct := inv.nodup
  have apart := inv.separated
  rw [List.append_assoc, List.cons_append] at apart distinct
  obtain ⟨before, behind⟩ := apart.around
  obtain ⟨-, inner, outside⟩ := List.nodup_append.mp distinct
  have notBehind := (List.nodup_cons.mp inner).1
  have notBefore : mem ∉ left := fun member => outside mem member mem (by simp) rfl
  have found : (heap.release mem).lfree ≠ finish := by
    have lower : heap.lfree ≤ finish := by
      rcases inv.lfree with atEnd | ⟨free, -⟩
      · exact Nat.le_of_eq atEnd
      · exact Nat.le_of_add_right_le (inv.room _ free)
    simp only [Heap.release]
    split <;> omega
  obtain ⟨next, blocks', plugged, fewer, inv', lowest⟩ := (inv.release used).plugHoles
    (Function.update_self ..) (before.update notBefore) (behind.update notBehind) fun _ => found
  have moved : (heap.release mem).lfree = min mem heap.lfree := by
    simp only [Heap.release]
    split <;> omega
  refine ⟨next, blocks', freed.trans plugged, fewer, inv', fun lower => lowest ?_
    (Or.inl (by omega))⟩
  intro block there free
  have apart : block ≠ mem := by
    rintro rfl
    rcases List.mem_append.mp there with earlier | later
    · exact notBefore earlier
    · exact notBehind (List.mem_append_left _ later)
  have known : block ∈ left ++ mem :: right := by
    simp only [List.mem_append, List.mem_cons] at there ⊢
    tauto
  have below := lower block known (by
    simpa only [Heap.release, Function.update_of_ne apart] using free)
  omega

/-! ## Allocating -/

/-- The block at `mem` is free and has room for `size` bytes of data. -/
def Heap.Fits (heap : Heap) (size mem : Nat) : Prop :=
  heap.used mem = false ∧ size ≤ heap.links.next mem - (mem + 12)

/-- From any block on, the loop of `rt_malloc` ends. It finds a block that fits, if
there is one before its end. -/
theorem Heap.findFit_spec {size ptr : Nat} {rest : List Nat} (enough : size ≤ heap.memSizeAligned)
    (tiles : Tiles 12 (· ≠ heap.heapEnd) heap.links (ptr :: rest))
    (last : (ptr :: rest).getLast? = some heap.heapEnd) :
    heap.findFit size ptr = some none ∧
        (∀ mem ∈ ptr :: rest, mem < heap.memSizeAligned - size → ¬ heap.Fits size mem) ∨
      ∃ mem ∈ ptr :: rest, heap.findFit size ptr = some (some mem) ∧
        mem < heap.memSizeAligned - size ∧ heap.Fits size mem := by
  have bound : heap.searchEnd size = heap.memSizeAligned - size := if_pos enough
  induction rest generalizing ptr with
  | nil =>
      obtain rfl : ptr = heap.heapEnd := by simpa using last
      left
      simp only [Heap.heapEnd]
      rw [Heap.findFit, if_neg (by omega)]
      refine ⟨rfl, fun mem member below => ?_⟩
      rw [List.mem_singleton] at member
      omega
  | cons next rest ih =>
      have apart := (List.pairwise_cons.mp tiles.pairwise).1
      obtain ⟨touch, tiles⟩ := List.isChain_cons_cons.mp tiles
      rw [Heap.findFit, bound]
      by_cases within : ptr < heap.memSizeAligned - size
      · rw [if_pos within]
        by_cases fits : heap.Fits size ptr
        · rw [if_pos (show _ ∧ _ from fits)]
          exact Or.inr ⟨ptr, by simp, rfl, within, fits⟩
        · rw [if_neg (show ¬ (_ ∧ _) from fits), touch.next]
          rcases ih tiles (by simpa using last) with ⟨none_, misses⟩ | ⟨mem, member, found⟩
          · exact Or.inl ⟨none_, List.forall_mem_cons.mpr ⟨fun _ => fits, misses⟩⟩
          · exact Or.inr ⟨mem, List.mem_cons_of_mem _ member, found⟩
      · rw [if_neg within]
        refine Or.inl ⟨rfl, fun mem member below => ?_⟩
        rcases List.mem_cons.mp member with rfl | member
        · exact absurd below within
        · have beyond := apart mem member
          omega

/-- From any block on, the loop that looks for a free block ends at the first one or
at the sentinel. -/
theorem Heap.findFree_spec {lfree : Nat} {rest : List Nat}
    (tiles : Tiles 12 (· ≠ heap.heapEnd) heap.links (lfree :: rest))
    (last : (lfree :: rest).getLast? = some heap.heapEnd) :
    ∃ found ∈ lfree :: rest, heap.findFree lfree = some found ∧
      (found = heap.heapEnd ∨ heap.used found = false) ∧
      ∀ block ∈ lfree :: rest, heap.used block = false → found ≤ block := by
  induction rest generalizing lfree with
  | nil =>
      obtain rfl : lfree = heap.heapEnd := by simpa using last
      refine ⟨heap.heapEnd, by simp, ?_, Or.inl rfl, by simp⟩
      rw [Heap.findFree, if_neg (by simp)]
  | cons next rest ih =>
      have apart := (List.pairwise_cons.mp tiles.pairwise).1
      obtain ⟨touch, tiles⟩ := List.isChain_cons_cons.mp tiles
      rw [Heap.findFree]
      by_cases goesOn : heap.used lfree = true ∧ lfree ≠ heap.heapEnd
      · rw [if_pos goesOn, touch.next]
        obtain ⟨found, member, result, free, lowest⟩ := ih tiles (by simpa using last)
        refine ⟨found, List.mem_cons_of_mem _ member, result, free,
          List.forall_mem_cons.mpr ⟨fun unused => ?_, lowest⟩⟩
        simp [goesOn.1] at unused
      · rw [if_neg goesOn]
        refine ⟨lfree, by simp, rfl, ?_, List.forall_mem_cons.mpr ⟨fun _ => Nat.le_refl _, ?_⟩⟩
        · by_cases atEnd : lfree = heap.heapEnd
          · exact Or.inl atEnd
          · exact Or.inr (by simpa [atEnd] using goesOn)
        · intro block member _
          exact Nat.le_of_add_right_le (apart block member)

/-- The list from a block or the sentinel on. -/
theorem HeapShape.suffix (shape : HeapShape base finish heap blocks live)
    (member : mem ∈ blocks ++ [finish]) :
    ∃ rest, (∀ block, block ∈ mem :: rest ↔ block ∈ blocks ++ [finish] ∧ mem ≤ block) ∧
      Tiles 12 (· ≠ finish) heap.links (mem :: rest) ∧ (mem :: rest).getLast? = some finish := by
  obtain ⟨before, rest, whole⟩ := List.append_of_mem member
  have tiles := shape.tiles
  rw [whole] at tiles
  refine ⟨rest, ?_, tiles.right_of_append, ?_⟩
  · intro block
    obtain ⟨-, inner, apart⟩ := List.pairwise_append.mp tiles.pairwise
    rw [whole, List.mem_append]
    constructor
    · intro here
      refine ⟨Or.inr here, ?_⟩
      rcases List.mem_cons.mp here with rfl | here
      · exact Nat.le_refl _
      · exact Nat.le_of_add_right_le ((List.pairwise_cons.mp inner).1 block here)
    · rintro ⟨earlier | here, above⟩
      · have room := apart block earlier mem (by simp)
        omega
      · exact here
  · have last := congrArg List.getLast? whole
    rw [List.getLast?_concat, List.getLast?_append_of_ne_nil _ (by simp)] at last
    exact last.symm

/-- Only the links between the block and the next one change. -/
theorem Heap.splitBlock_links (heap : Heap) {mem size next : Nat}
    (points : heap.links.next mem = next) :
    (heap.splitBlock mem size).links.next =
        Function.update (Function.update heap.links.next (mem + 12 + size) next) mem
          (mem + 12 + size) ∧
      (heap.splitBlock mem size).links.prev =
        if next ≠ heap.heapEnd then
          Function.update (Function.update heap.links.prev (mem + 12 + size) mem) next
            (mem + 12 + size)
        else Function.update heap.links.prev (mem + 12 + size) mem := by
  have apart : mem + 12 + size ≠ mem := by omega
  have onward : Function.update (Function.update heap.links.next (mem + 12 + size) next) mem
      (mem + 12 + size) (mem + 12 + size) = next := by
    rw [Function.update_of_ne apart, Function.update_self]
  simp only [Heap.splitBlock, Heap.setUsed, Heap.setNext, Heap.setPrev, Links.setNext,
    Links.setPrev, points, onward, Heap.heapEnd]
  by_cases inside : next ≠ heap.memSizeAligned + 12
  · simp [inside]
  · simp [inside]

namespace HeapShape

/-- The new header tiles the block at `mem`. -/
theorem splitBlock_tiles {size next : Nat} {rest : List Nat}
    (shape : HeapShape base finish heap (left ++ mem :: right) live)
    (follows : right ++ [finish] = next :: rest) (room : mem + 12 + size + 12 ≤ next) :
    Tiles 12 (· ≠ finish) (heap.splitBlock mem size).links
      (left ++ mem :: (mem + 12 + size) :: right ++ [finish]) := by
  have points := shape.links_next follows
  obtain ⟨nextLinks, prevLinks⟩ := @Heap.splitBlock_links heap mem size next points
  have tiles := shape.tiles
  have below := shape.room mem (by simp)
  rw [List.append_assoc, List.cons_append, follows] at tiles
  rw [List.append_assoc, List.cons_append, List.cons_append, follows]
  have ends := shape.ends
  refine tiles.insert (by decide) ⟨?_, ?_, by omega⟩ ⟨?_, ?_, room⟩ ?_ ?_
  · rw [nextLinks, Function.update_self]
  · intro _
    rw [prevLinks]
    split
    · rw [Function.update_of_ne (by omega), Function.update_self]
    · rw [Function.update_self]
  · rw [nextLinks, Function.update_of_ne (by omega), Function.update_self]
  · intro inside
    rw [prevLinks, if_pos (by rwa [ends]), Function.update_self]
  · intro x notMem notNew
    rw [nextLinks, Function.update_of_ne notMem, Function.update_of_ne notNew]
  · intro y notNew notNext
    rw [prevLinks]
    split
    · rw [Function.update_of_ne notNext, Function.update_of_ne notNew]
    · rw [Function.update_of_ne notNew]

/-- The pointers in use once the block at `mem` is. -/
theorem handed_mark {used' : Nat → Bool} {live' : List Nat}
    (shape : HeapShape base finish heap (left ++ mem :: right) live) (fresh : List Nat)
    (before : ∀ block ∈ left, used' block = heap.used block)
    (behind : ∀ block ∈ right, used' block = heap.used block) (marked : used' mem = true)
    (free : ∀ block ∈ fresh, used' block = false)
    (grows : live' = if heap.used mem = true then live else (base + mem + 12) :: live) :
    live'.Perm (((left ++ mem :: (fresh ++ right)).filter used').map
      fun block => base + block + 12) := by
  have handed := shape.handed
  have sameLeft : left.filter used' = left.filter heap.used :=
    List.filter_congr fun block member => before block member
  have sameRight : right.filter used' = right.filter heap.used :=
    List.filter_congr fun block member => behind block member
  have none_ : fresh.filter used' = [] :=
    List.filter_eq_nil_iff.mpr fun block member => by simp [free block member]
  simp only [List.filter_append, List.filter_cons, marked, if_true, sameLeft, sameRight, none_,
    List.nil_append] at handed ⊢
  rw [grows]
  by_cases used : heap.used mem = true
  · rw [if_pos used]
    simpa [used] using handed
  · rw [if_neg used]
    simp only [used, Bool.false_eq_true, if_false] at handed
    refine (handed.cons _).trans ?_
    rw [← List.map_cons (f := fun block => base + block + 12)]
    exact List.Perm.map _ List.perm_middle.symm

/-- The block at `mem` is used up to a new header behind its first `size` bytes. -/
theorem split {heap' : Heap} {size next : Nat} {rest live' : List Nat}
    (shape : HeapShape base finish heap (left ++ mem :: right) live)
    (follows : right ++ [finish] = next :: rest) (fits : mem + 12 + size + 24 ≤ next)
    (aligned : size % 4 = 0) (begins : heap'.heapPtr = heap.heapPtr)
    (ends : heap'.heapEnd = heap.heapEnd) (links : heap'.links = (heap.splitBlock mem size).links)
    (used : heap'.used = Function.update (Function.update heap.used (mem + 12 + size) false) mem true)
    (magic : ∀ block ∈ left ++ mem :: right, heap'.used block = true →
      heap'.magic block = heapMagic)
    (usedMem : heap'.usedMem + usedSize heap.used mem next = heap.usedMem + (size + 12))
    (lfree : heap'.lfree = finish ∨ heap'.lfree ∈ left ++ mem :: (mem + 12 + size) :: right ∧
      heap'.used heap'.lfree = false)
    (grows : live' = if heap.used mem = true then live else (base + mem + 12) :: live) :
    HeapShape base finish heap' (left ++ mem :: (mem + 12 + size) :: right) live' := by
  have tiles := shape.splitBlock_tiles follows (show mem + 12 + size + 12 ≤ next by omega)
  have distinct := tiles.nodup (by decide)
  have whole : left ++ mem :: (mem + 12 + size) :: right ++ [finish] =
      left ++ mem :: (mem + 12 + size) :: next :: rest := by
    simp [follows]
  have old : left ++ mem :: right ++ [finish] = left ++ mem :: next :: rest := by
    simp [follows]
  obtain ⟨-, inner, outside⟩ := List.nodup_append.mp (List.nodup_append.mp distinct).1
  obtain ⟨outer, inner⟩ := List.nodup_cons.mp inner
  have marked : ∀ block, block ≠ mem → block ≠ mem + 12 + size →
      heap'.used block = heap.used block := by
    intro block notMem notNew
    rw [used, Function.update_of_ne notMem, Function.update_of_ne notNew]
  have newUsed : heap'.used (mem + 12 + size) = false := by
    rw [used, Function.update_of_ne (by omega), Function.update_self]
  have memUsed : heap'.used mem = true := by
    rw [used, Function.update_self]
  have nextRoom := shape.next_le_finish follows
  refine ⟨begins.trans shape.begins, ends.trans shape.ends, ?_, ?_, ?_, ?_, ?_, ?_, lfree, ?_, ?_,
    ?_⟩
  · rw [links]
    exact tiles
  · intro block member
    simp only [List.mem_append, List.mem_cons] at member
    rcases member with member | rfl | rfl | member
    · exact shape.room block (by simp [member])
    · exact shape.room block (by simp)
    · omega
    · exact shape.room block (by simp [member])
  · have start := shape.start
    cases left <;> simpa using start
  · -- the new header is not the first one, and neither is what follows it
    obtain ⟨-, prevLinks⟩ := @Heap.splitBlock_links heap mem size next (shape.links_next follows)
    rw [links, prevLinks]
    split
    · rw [Function.update_of_ne (by omega), Function.update_of_ne (by omega)]
      exact shape.first
    · rw [Function.update_of_ne (by omega)]
      exact shape.first
  · have below := shape.room mem (by simp)
    have apart : finish ≠ mem + 12 + size := by omega
    rw [marked finish (by omega) apart]
    exact shape.sentinel
  · refine ⟨shape.aligned.1, fun block member => ?_⟩
    have memAligned := shape.aligned.2 mem (by simp)
    simp only [List.mem_append, List.mem_cons, List.not_mem_nil, or_false] at member
    rcases member with (member | rfl | rfl | member) | member
    · exact shape.aligned.2 block (by simp [member])
    · exact memAligned
    · omega
    · exact shape.aligned.2 block (by simp [member])
    · exact shape.aligned.2 block (by simp [member])
  · have same : ∀ x, x ≠ mem → x ≠ mem + 12 + size → ∀ y,
        usedSize heap'.used x y = usedSize heap.used x y := by
      intro x notMem notNew y
      rw [usedSize, usedSize, marked x notMem notNew]
    have sizes := weigh_insert (whole ▸ distinct) same
    have memSize : usedSize heap'.used mem (mem + 12 + size) = size + 12 := by
      rw [usedSize, if_pos memUsed]
      omega
    have newSize : usedSize heap'.used (mem + 12 + size) next = 0 := by
      rw [usedSize, if_neg (by simp [newUsed])]
    rw [memSize, newSize, ← old, ← shape.usedMem] at sizes
    rw [whole]
    omega
  · have perm := shape.handed_mark [mem + 12 + size]
      (fun block member => marked block (outside block member mem (by simp))
        (outside block member _ (by simp)))
      (fun block member => marked block
        (by rintro rfl; exact outer (List.mem_cons_of_mem _ member))
        (by rintro rfl; exact (List.nodup_cons.mp inner).1 member))
      memUsed (by simpa using newUsed) grows
    exact perm
  · intro block member inUse
    refine magic block ?_ inUse
    simp only [List.mem_append, List.mem_cons] at member ⊢
    rcases member with member | rfl | rfl | member
    · exact Or.inl member
    · exact Or.inr (Or.inl rfl)
    · rw [newUsed] at inUse
      cases inUse
    · exact Or.inr (Or.inr member)

/-- All of the block at `mem` is used. -/
theorem mark {heap' : Heap} {next : Nat} {rest : List Nat}
    (shape : HeapShape base finish heap (left ++ mem :: right) live)
    (follows : right ++ [finish] = next :: rest) (unused : heap.used mem = false)
    (begins : heap'.heapPtr = heap.heapPtr) (ends : heap'.heapEnd = heap.heapEnd)
    (links : heap'.links = heap.links) (used : heap'.used = Function.update heap.used mem true)
    (magic : ∀ block ∈ left ++ mem :: right, heap'.used block = true →
      heap'.magic block = heapMagic)
    (usedMem : heap'.usedMem = heap.usedMem + (next - mem))
    (lfree : heap'.lfree = finish ∨ heap'.lfree ∈ left ++ mem :: right ∧
      heap'.used heap'.lfree = false) :
    HeapShape base finish heap' (left ++ mem :: right) ((base + mem + 12) :: live) := by
  have distinct := shape.nodup
  obtain ⟨-, inner, outside⟩ := List.nodup_append.mp (List.nodup_append.mp distinct).1
  have outer := (List.nodup_cons.mp inner).1
  have whole : left ++ mem :: right ++ [finish] = left ++ mem :: next :: rest := by
    simp [follows]
  have marked : ∀ block, block ≠ mem → heap'.used block = heap.used block := by
    intro block notMem
    rw [used, Function.update_of_ne notMem]
  have memUsed : heap'.used mem = true := by
    rw [used, Function.update_self]
  refine ⟨begins.trans shape.begins, ends.trans shape.ends, ?_, shape.room, shape.start, ?_, ?_,
    shape.aligned, lfree, ?_, ?_, magic⟩
  · rw [links]
    exact shape.tiles
  · rw [links]
    exact shape.first
  · have below := shape.room mem (by simp)
    rw [marked finish (by omega)]
    exact shape.sentinel
  · have same : ∀ x, x ≠ mem → ∀ y, usedSize heap'.used x y = usedSize heap.used x y := by
      intro x notMem y
      rw [usedSize, usedSize, marked x notMem]
    have sizes := weigh_update (whole ▸ distinct) same
    have before : usedSize heap.used mem next = 0 := if_neg (by simp [unused])
    have after : usedSize heap'.used mem next = next - mem := if_pos memUsed
    rw [before, after, ← whole, ← shape.usedMem] at sizes
    omega
  · exact shape.handed_mark []
      (fun block member => marked block (outside block member mem (by simp)))
      (fun block member => marked block (by rintro rfl; exact outer member)) memUsed (by simp)
      (by simp [unused])

end HeapShape

end

end RtThread
