import RtThread.Memory.HeapSizes

/-!
# What becomes of the data

The allocator writes to headers, and the headers it writes to are those of the list
before or after the call. The data of a pointer in use lie between them; only
`rt_memcpy` writes data, to a block that nobody has yet.
-/

namespace RtThread

open RtThread.Std

/-! ## Bytes -/

theorem storeAt_eqOn (bytes : Nat → BitVec 8) (address width value : Nat) :
    Set.EqOn (storeAt bytes address width value) bytes (Set.Ico address (address + width))ᶜ :=
  fun _ outside => if_neg outside

theorem rtMemcpy_eqOn (bytes : Nat → BitVec 8) (dst src count : Nat) :
    Set.EqOn (rtMemcpy bytes dst src count) bytes (Set.Ico dst (dst + count))ᶜ := by
  induction count generalizing bytes dst src with
  | zero => exact fun _ _ => rfl
  | succ count ih =>
      intro x outside
      simp only [Set.mem_compl_iff, Set.mem_Ico, not_and, Nat.not_lt] at outside
      have later : x ∈ (Set.Ico (dst + 1) (dst + 1 + count))ᶜ := by
        simp only [Set.mem_compl_iff, Set.mem_Ico, not_and, Nat.not_lt]
        omega
      have apart : x ≠ dst := by
        rintro rfl
        omega
      rw [rtMemcpy, ih _ _ _ later, Function.update_of_ne apart]

/-- Bytes are copied to where none of them comes from. -/
theorem rtMemcpy_copies {bytes : Nat → BitVec 8} {dst src count : Nat}
    (apart : src + count ≤ dst ∨ dst + count ≤ src) :
    ∀ i < count, rtMemcpy bytes dst src count (dst + i) = bytes (src + i) := by
  induction count generalizing bytes dst src with
  | zero => simp
  | succ count ih =>
      intro i below
      rw [rtMemcpy]
      cases i with
      | zero =>
          have first : dst ∈ (Set.Ico (dst + 1) (dst + 1 + count))ᶜ := by simp
          simp only [Nat.add_zero]
          rw [rtMemcpy_eqOn _ _ _ _ first, Function.update_self]
      | succ i =>
          have rest := @ih (Function.update bytes dst (bytes src)) (dst + 1) (src + 1) (by omega) i
            (by omega)
          have differ : src + 1 + i ≠ dst := by omega
          rw [Function.update_of_ne differ] at rest
          rw [Nat.add_comm i 1, ← Nat.add_assoc, ← Nat.add_assoc, rest]

/-! ## Headers -/

/-- The bytes of the headers at some offsets. -/
def Heap.headers (heap : Heap) (blocks : List Nat) : Set Nat :=
  {x | ∃ block ∈ blocks, x ∈ heap.headerBytes block}

namespace HeapMemory

/-- Of the memory, only headers at some offsets have changed. -/
structure WritesHeaders (memory memory' : HeapMemory) (blocks : List Nat) : Prop where
  heapPtr : memory'.heap.heapPtr = memory.heap.heapPtr
  bytes : Set.EqOn memory'.bytes memory.bytes (memory.heap.headers blocks)ᶜ

variable {memory memory' memory'' : HeapMemory} {blocks blocks' : List Nat} {mem : Nat}

namespace WritesHeaders

theorem refl (memory : HeapMemory) (blocks : List Nat) : memory.WritesHeaders memory blocks :=
  ⟨rfl, fun _ _ => rfl⟩

theorem trans (first : memory.WritesHeaders memory' blocks)
    (second : memory'.WritesHeaders memory'' blocks) : memory.WritesHeaders memory'' blocks := by
  refine ⟨second.heapPtr.trans first.heapPtr, ?_⟩
  have same : memory'.heap.headers blocks = memory.heap.headers blocks := by
    unfold Heap.headers Heap.headerBytes
    rw [first.heapPtr]
  have bytes := second.bytes
  rw [same] at bytes
  exact bytes.trans first.bytes

theorem mono (writes : memory.WritesHeaders memory' blocks) (more : blocks ⊆ blocks') :
    memory.WritesHeaders memory' blocks' := by
  refine ⟨writes.heapPtr, writes.bytes.mono (Set.compl_subset_compl.mpr ?_)⟩
  rintro x ⟨block, member, inside⟩
  exact ⟨block, more member, inside⟩

/-- The variables of the allocator are not among the bytes. -/
theorem counters (memory : HeapMemory) (blocks : List Nat) (heap : Heap)
    (same : heap.heapPtr = memory.heap.heapPtr) :
    memory.WritesHeaders { memory with heap := heap } blocks :=
  ⟨same, fun _ _ => rfl⟩

end WritesHeaders

/-- A field of a header is written. -/
theorem storeAt_writes (memory : HeapMemory) (member : mem ∈ blocks) (offset width value : Nat)
    (within : offset + width ≤ 12) :
    Set.EqOn (storeAt memory.bytes (memory.heap.heapPtr + mem + offset) width value) memory.bytes
      (memory.heap.headers blocks)ᶜ := by
  refine (storeAt_eqOn ..).mono (Set.compl_subset_compl.mpr ?_)
  rintro x ⟨low, high⟩
  exact ⟨mem, member, by omega, by omega⟩

theorem setMagic_writes (member : mem ∈ blocks) (magic : BitVec 16) :
    memory.WritesHeaders (memory.setMagic mem magic) blocks :=
  ⟨rfl, memory.storeAt_writes member 0 2 _ (by decide)⟩

theorem setUsed_writes (member : mem ∈ blocks) (used : Bool) :
    memory.WritesHeaders (memory.setUsed mem used) blocks :=
  ⟨rfl, memory.storeAt_writes member 2 2 _ (by decide)⟩

theorem setNext_writes (member : mem ∈ blocks) (target : Nat) :
    memory.WritesHeaders (memory.setNext mem target) blocks :=
  ⟨rfl, memory.storeAt_writes member 4 4 _ (by decide)⟩

theorem setPrev_writes (member : mem ∈ blocks) (target : Nat) :
    memory.WritesHeaders (memory.setPrev mem target) blocks :=
  ⟨rfl, memory.storeAt_writes member 8 4 _ (by decide)⟩

end HeapMemory

section

variable {base finish : Nat} {heap : Heap} {memory memory' : HeapMemory}
  {blocks left right live : List Nat} {mem block : Nat}

theorem HeapShape.next_mem (shape : HeapShape base finish heap blocks live)
    (member : block ∈ blocks) : heap.links.next block ∈ blocks ++ [finish] := by
  obtain ⟨left, right, rfl⟩ := List.append_of_mem member
  obtain ⟨next, rest, follows⟩ := HeapShape.exists_next right finish
  rw [shape.links_next follows, List.append_assoc, List.cons_append, follows]
  simp

theorem HeapShape.prev_mem (shape : HeapShape base finish heap blocks live)
    (member : block ∈ blocks) : heap.links.prev block ∈ blocks := by
  obtain ⟨left, right, rfl⟩ := List.append_of_mem member
  rcases List.eq_nil_or_concat' left with rfl | ⟨before, q, rfl⟩
  · obtain rfl : block = 0 := by simpa using shape.start
    simp [shape.first]
  · have regroup : before ++ [q] ++ block :: right = before ++ q :: block :: right := by simp
    rw [regroup] at shape ⊢
    simp [shape.links_prev]

namespace HeapMemory

theorem plugForward_writes (shape : HeapShape base finish memory.heap blocks live)
    (member : mem ∈ blocks) :
    memory.WritesHeaders (memory.plugForward mem) (blocks ++ [finish]) := by
  unfold plugForward
  dsimp only
  split
  · rename_i merges
    have here := List.mem_append_left [finish] member
    have inside : memory.heap.links.next mem ∈ blocks := by
      have known := shape.next_mem member
      rw [shape.ends] at merges
      simpa [merges.2.2] using known
    have onward : ∀ target, (memory.heap.links.setNext mem target).next (memory.heap.links.next mem)
        ∈ blocks ++ [finish] := by
      intro target
      have kept : (memory.heap.links.setNext mem target).next (memory.heap.links.next mem) =
          memory.heap.links.next (memory.heap.links.next mem) :=
        Function.update_of_ne merges.1.symm ..
      rw [kept]
      exact shape.next_mem inside
    split
    · refine (WritesHeaders.counters memory _ _ ?_).trans
        ((setNext_writes here _).trans (setPrev_writes (onward _) _))
      rfl
    · exact (setNext_writes here _).trans (setPrev_writes (onward _) _)
  · exact .refl ..

theorem plugBackward_writes (shape : HeapShape base finish memory.heap blocks live)
    (member : mem ∈ blocks) :
    memory.WritesHeaders (memory.plugBackward mem) (blocks ++ [finish]) := by
  unfold plugBackward
  dsimp only
  split
  · rename_i merges
    have here := List.mem_append_left [finish] (shape.prev_mem member)
    have onward : ∀ target, (memory.heap.links.setNext (memory.heap.links.prev mem) target).next mem
        ∈ blocks ++ [finish] := by
      intro target
      have kept : (memory.heap.links.setNext (memory.heap.links.prev mem) target).next mem =
          memory.heap.links.next mem := Function.update_of_ne merges.1.symm ..
      rw [kept]
      exact shape.next_mem member
    split
    · refine (WritesHeaders.counters memory _ _ ?_).trans
        ((setNext_writes here _).trans (setPrev_writes (onward _) _))
      rfl
    · exact (setNext_writes here _).trans (setPrev_writes (onward _) _)
  · exact .refl ..

theorem plugHoles_writes (shape : HeapShape base finish memory.heap blocks live)
    (member : mem ∈ blocks) (plugged : memory.plugHoles mem = some memory') :
    memory.WritesHeaders memory' (blocks ++ [finish]) := by
  obtain ⟨⟨-, unused⟩, result⟩ := Option.ite_none_right_eq_some.mp plugged
  obtain ⟨left, right, rfl⟩ := List.append_of_mem member
  obtain ⟨right', fewer, between⟩ : ∃ right', right'.Sublist right ∧
      HeapShape base finish (memory.plugForward mem).heap (left ++ mem :: right') live := by
    rw [plugForward_heap]
    rcases shape.plugForward_cases with ⟨stays, -⟩ | ⟨n, after, rfl, unusedN, merges⟩
    · exact ⟨right, .refl _, stays.symm ▸ shape⟩
    · exact ⟨after, List.sublist_cons_self .., merges.symm ▸ shape.merge unused unusedN⟩
  have sub : left ++ mem :: right' ++ [finish] ⊆ left ++ mem :: right ++ [finish] :=
    (((fewer.cons_cons mem).append_left left).append_right [finish]).subset
  rw [← Option.some_inj.mp result]
  exact (plugForward_writes shape (by simp)).trans ((plugBackward_writes between (by simp)).mono sub)

theorem splitBlock_writes {size : Nat} (here : mem ∈ blocks) (new : mem + 12 + size ∈ blocks)
    (onward : memory.heap.links.next mem ∈ blocks) :
    memory.WritesHeaders (memory.splitBlock mem size) blocks := by
  have apart : mem + 12 + size ≠ mem := by omega
  unfold splitBlock
  dsimp only
  split
  · refine (((((setUsed_writes new false).trans (setNext_writes new _)).trans
      (setPrev_writes new _)).trans (setNext_writes here _))).trans (setPrev_writes ?_ _)
    change Function.update (Function.update memory.heap.links.next _ _) _ _ _ ∈ _
    rw [Function.update_of_ne apart, Function.update_self]
    exact onward
  · exact (((setUsed_writes new false).trans (setNext_writes new _)).trans
      (setPrev_writes new _)).trans (setNext_writes here _)

theorem occupy_writes (here : mem ∈ blocks) {size : Nat}
    (new : memory.heap.remainder mem size ⊆ blocks)
    (onward : memory.heap.links.next mem ∈ blocks) :
    memory.WritesHeaders (memory.occupy mem size) blocks := by
  unfold occupy
  dsimp only
  refine WritesHeaders.trans ?_ (setMagic_writes here _)
  split
  · rename_i fits
    rw [Heap.remainder, if_pos fits] at new
    refine ((splitBlock_writes here (new (by simp)) onward).trans
      (setUsed_writes here true)).trans (.counters _ _ _ ?_)
    rfl
  · refine (setUsed_writes here true).trans (.counters _ _ _ ?_)
    rfl

/-- `rt_malloc` returns `RT_NULL` and has done nothing, or has taken a block. -/
theorem rtMalloc_occupies {request : BitVec 32} {pointer : Nat}
    (result : memory.rtMalloc request = some (memory', pointer)) :
    pointer = 0 ∧ memory' = memory ∨ ∃ mem, pointer = memory'.heap.heapPtr + mem + 12 ∧
      memory'.bytes = (memory.occupy mem (requestSize request)).bytes := by
  unfold rtMalloc at result
  split at result
  · obtain ⟨rfl, rfl⟩ := Prod.mk.inj (Option.some_inj.mp result)
    exact Or.inl ⟨rfl, rfl⟩
  dsimp only at result
  split at result
  · obtain ⟨rfl, rfl⟩ := Prod.mk.inj (Option.some_inj.mp result)
    exact Or.inl ⟨rfl, rfl⟩
  rw [requestSize_eq] at result
  obtain ⟨found, -, result⟩ := Option.bind_eq_some_iff.mp result
  cases found with
  | none =>
      obtain ⟨rfl, rfl⟩ := Prod.mk.inj (Option.some_inj.mp result)
      exact Or.inl ⟨rfl, rfl⟩
  | some mem =>
      obtain ⟨heap, -, result⟩ := Option.bind_eq_some_iff.mp result
      obtain ⟨-, result⟩ := Option.ite_none_right_eq_some.mp result
      obtain ⟨rfl, rfl⟩ := Prod.mk.inj (Option.some_inj.mp result)
      exact Or.inr ⟨mem, rfl, rfl⟩

end HeapMemory

/-- No other block begins within one. -/
theorem HeapShape.ne_within (shape : HeapShape base finish heap blocks live)
    (here : mem ∈ blocks) (there : block ∈ blocks) {size : Nat}
    (within : mem + 12 + size < heap.links.next mem) : block ≠ mem + 12 + size := by
  rintro rfl
  have ends := shape.tiles.next_le (by decide) (List.mem_append_left _ here)
    (List.mem_append_left _ there) (by omega)
  omega

/-- Blocks other than the one that is taken end where they did. -/
theorem HeapShape.occupy_next (shape : HeapShape base finish heap blocks live)
    (here : mem ∈ blocks) (there : block ∈ blocks) (apart : block ≠ mem) (size : Nat) :
    (heap.occupy mem size).links.next block = heap.links.next block := by
  by_cases fits : size + 24 ≤ heap.links.next mem - (mem + 12)
  · exact Heap.occupy_next apart (shape.ne_within here there (by omega))
  · rw [Heap.occupy_whole fits]

/-- A pointer in use keeps its data when only headers are written. -/
theorem HeapShape.kept_data {other : Nat} (shape : HeapShape base finish heap blocks live)
    (begins : memory.heap.heapPtr = base)
    (writes : memory.WritesHeaders memory' (blocks ++ [finish])) (member : other ∈ live) :
    ∀ i < heap.usable other, memory'.bytes (other + i) = memory.bytes (other + i) := by
  obtain ⟨mem, here, -, rfl⟩ := shape.exists_block member
  intro i below
  refine writes.bytes ?_
  rintro ⟨block, there, inside⟩
  rw [shape.usable_eq] at below
  have data : base + mem + 12 + i ∈ heap.dataBytes (base + mem + 12) := by
    rw [shape.dataBytes_eq]
    exact ⟨by omega, by omega⟩
  have header : base + mem + 12 + i ∈ heap.headerBytes block := by
    change base + mem + 12 + i ∈ Set.Ico (memory.heap.heapPtr + block) _ at inside
    rw [begins] at inside
    rwa [Heap.headerBytes, shape.begins]
  exact Set.disjoint_left.mp (shape.dataBytes_disjoint here there) data header

theorem HeapInv.malloc_memory (inv : HeapInv base finish memory.heap blocks live)
    {size : BitVec 32} {pointer : Nat}
    (result : memory.rtMalloc size = some (memory', pointer)) :
    pointer = 0 ∧ memory' = memory ∨ pointer ≠ 0 ∧ ∃ blocks',
      HeapInv base finish memory'.heap blocks' (pointer :: live) ∧
      memory.WritesHeaders memory' (blocks' ++ [finish]) ∧
      (∀ other ∈ live, memory'.heap.usable other = memory.heap.usable other) ∧
      requestSize size ≤ memory'.heap.usable pointer := by
  rcases HeapMemory.rtMalloc_occupies result with ⟨rfl, rfl⟩ | ⟨mem, rfl, bytes⟩
  · exact Or.inl ⟨rfl, rfl⟩
  have headers := memory.rtMalloc_heap size
  rw [result] at headers
  rcases inv.malloc_cases size with
    ⟨refused, -⟩ | ⟨-, left, mem', right, next, same, offers, advanced, inv', -, taken⟩
  · have null := (Prod.mk.inj (Option.some_inj.mp (headers.trans refused))).2
    simp only [id_eq] at null
    omega
  obtain ⟨rfl, pointer⟩ := Prod.mk.inj (Option.some_inj.mp (headers.trans taken))
  obtain rfl : mem = mem' := by
    have begins := inv'.begins
    simp only [id_eq] at pointer
    omega
  rw [inv'.begins]
  refine Or.inr ⟨by omega, _, inv', ⟨inv'.begins.trans inv.begins.symm, ?_⟩, ?_, ?_⟩
  · rw [bytes]
    refine (HeapMemory.occupy_writes ?_ ?_ ?_).bytes
    · simp
    · intro block new
      simp [new]
    · have onward : memory.heap.links.next mem ∈ blocks ++ [finish] :=
        inv.next_mem (by simp [same])
      rw [same] at onward
      simp only [List.mem_append, List.mem_cons] at onward ⊢
      tauto
  · intro other member
    obtain ⟨block, there, used, rfl⟩ := inv.exists_block member
    have apart : block ≠ mem := by
      rintro rfl
      rw [offers.2.2.1] at used
      cases used
    rw [inv'.usable_eq, inv.usable_eq, Heap.advanceFree_links advanced,
      inv.occupy_next (by simp [same]) there apart]
  · rw [← inv'.begins] at taken ⊢
    exact (inv.malloc_usable taken (by omega)).1

theorem HeapMemory.rtFree_eq {rmem : Nat} (nonnull : rmem ≠ 0)
    (freed : memory.rtFree rmem = some memory') (offset : rmem - 12 - memory.heap.heapPtr = mem) :
    HeapMemory.plugHoles ⟨memory.heap.release mem,
      ((memory.setUsed mem false).setMagic mem 0).bytes⟩ mem = some memory' := by
  unfold HeapMemory.rtFree at freed
  rw [if_neg nonnull] at freed
  obtain ⟨-, freed⟩ := Option.ite_none_right_eq_some.mp freed
  obtain ⟨-, plugged⟩ := Option.ite_none_right_eq_some.mp freed
  rw [offset] at plugged
  have lfree : ((memory.setUsed mem false).setMagic mem 0).heap.lfree = memory.heap.lfree := rfl
  rw [← plugged]
  dsimp only
  rw [lfree]
  congr 2
  unfold Heap.release
  split <;> rfl

theorem HeapInv.free_memory (inv : HeapInv base finish memory.heap blocks live) {rmem : Nat}
    (member : rmem ∈ live) (freed : memory.rtFree rmem = some memory') :
    memory.WritesHeaders memory' (blocks ++ [finish]) := by
  obtain ⟨mem, here, used, rfl⟩ := inv.exists_block member
  have offset : base + mem + 12 - 12 - memory.heap.heapPtr = mem := by
    rw [inv.begins]
    omega
  have known := List.mem_append_left [finish] here
  have released : HeapShape base finish (memory.heap.release mem) blocks
      (live.erase (base + mem + 12)) := by
    obtain ⟨left, right, rfl⟩ := List.append_of_mem here
    exact inv.release used
  have plugged := HeapMemory.rtFree_eq (by omega) freed offset
  have marked : memory.WritesHeaders ((memory.setUsed mem false).setMagic mem 0)
      (blocks ++ [finish]) :=
    (HeapMemory.setUsed_writes known false).trans (HeapMemory.setMagic_writes known 0)
  exact (marked.trans (.counters _ _ (memory.heap.release mem) rfl)).trans
    (HeapMemory.plugHoles_writes released here plugged)

/-- `rt_realloc` cuts a block in the memory as it does among the headers. -/
theorem HeapInv.cut_memory (inv : HeapInv base finish memory.heap (left ++ mem :: right) live)
    (used : memory.heap.used mem = true) {size : Nat} (aligned : size % 4 = 0)
    (fits : size + 24 < memory.heap.links.next mem - mem - 12) {cut : HeapMemory}
    (same : cut = ({ memory with heap := { memory.heap with
      usedMem := memory.heap.usedMem - (memory.heap.links.next mem - mem - 12 - size) }
        }.setMagic (mem + 12 + size) heapMagic).splitBlock mem size)
    (plugged : cut.plugHoles (mem + 12 + size) = some memory') :
    ∃ blocks', HeapInv base finish memory'.heap blocks' live ∧
      memory'.heap.usable (base + mem + 12) = size ∧
      (∀ other ∈ live, other ≠ base + mem + 12 →
        memory'.heap.usable other = memory.heap.usable other) ∧
      ∀ other ∈ live, ∀ i < memory'.heap.usable other,
        memory'.bytes (other + i) = memory.bytes (other + i) := by
  have headers : cut.heap = memory.heap.cutBlock mem size := by
    rw [same, HeapMemory.splitBlock_heap]
    rfl
  have plugged' : (memory.heap.cutBlock mem size).plugHoles (mem + 12 + size) =
      some memory'.heap := by
    rw [← headers, ← HeapMemory.plugHoles_heap, plugged]
    rfl
  obtain ⟨next, blocks', result, -, inv', shape, -⟩ := inv.shrink used aligned fits
  obtain rfl : next = memory'.heap := Option.some_inj.mp (result.symm.trans plugged')
  have stays : ∀ other ∈ live,
      memory'.heap.usable other = (memory.heap.cutBlock mem size).usable other := by
    intro other member
    obtain ⟨block, -, inUse, rfl⟩ := shape.exists_block member
    rw [inv'.usable_eq, shape.usable_eq, Heap.plugHoles_next plugged' inUse]
  refine ⟨blocks', inv', ?_, ?_, ?_⟩
  · rw [inv'.usable_eq, Heap.cut_next used plugged']
    omega
  · intro other member apart
    rw [stays other member]
    obtain ⟨block, there, -, rfl⟩ := inv.exists_block member
    have differ : block ≠ mem := by
      rintro rfl
      exact apart rfl
    rw [shape.usable_eq, inv.usable_eq, Heap.cutBlock_next, Function.update_of_ne differ,
      Function.update_of_ne (inv.ne_within (by simp) there (by omega))]
  · have onward : memory.heap.links.next mem ∈ left ++ mem :: (mem + 12 + size) :: right ++
        [finish] := by
      have known : memory.heap.links.next mem ∈ left ++ mem :: right ++ [finish] :=
        inv.next_mem (by simp)
      simp only [List.mem_append, List.mem_cons] at known ⊢
      tauto
    have wrote : memory.WritesHeaders cut (left ++ mem :: (mem + 12 + size) :: right ++
        [finish]) := by
      rw [same]
      refine (HeapMemory.WritesHeaders.trans (.counters memory _ _ ?_)
        (HeapMemory.setMagic_writes (by simp) heapMagic)).trans
          (HeapMemory.splitBlock_writes (by simp) (by simp) onward)
      rfl
    have shape' := shape
    rw [← headers] at shape'
    have writes := wrote.trans (HeapMemory.plugHoles_writes shape' (by simp) plugged)
    intro other member i below
    rw [stays other member] at below
    exact shape.kept_data inv.begins writes member i below

/-- The data of two pointers in use lie one behind the other. -/
theorem HeapShape.data_apart {rmem other : Nat} (shape : HeapShape base finish heap blocks live)
    (member : rmem ∈ live) (there : other ∈ live) (apart : rmem ≠ other) :
    rmem + heap.usable rmem ≤ other ∨ other + heap.usable other ≤ rmem := by
  obtain ⟨mem, here, -, rfl⟩ := shape.exists_block member
  obtain ⟨block, here', -, rfl⟩ := shape.exists_block there
  rw [shape.usable_eq, shape.usable_eq]
  have known := List.mem_append_left [finish] here
  have known' := List.mem_append_left [finish] here'
  rcases Nat.lt_or_gt_of_ne (show mem ≠ block by omega) with before | behind
  · have ends := shape.tiles.next_le (by decide) known known' before
    omega
  · have ends := shape.tiles.next_le (by decide) known' known behind
    omega

/-! ## `rt_realloc` -/

/-- What `rt_realloc` has done when it returns `pointer` for a pointer in use. -/
structure ReallocDone (memory memory' : HeapMemory) (live : List Nat)
    (rmem newsize pointer : Nat) : Prop where
  moved : ∀ i < min (memory.heap.usable rmem) newsize,
    memory'.bytes (pointer + i) = memory.bytes (rmem + i)
  kept : ∃ blocks, HeapKept ⟨memory'.heap, pointer :: live.erase rmem⟩ blocks
  gone : rmem ∈ pointer :: live.erase rmem → pointer = rmem
  others : ∀ other ∈ live, other ≠ rmem →
    other ∈ live.erase rmem ∧ memory'.heap.usable other = memory.heap.usable other ∧
      ∀ i < memory.heap.usable other, memory'.bytes (other + i) = memory.bytes (other + i)

/-- The data are copied into a new block before the old one is given back. -/
theorem HeapInv.moved_memory (inv : HeapInv base finish memory.heap blocks live)
    {rmem pointer count newsize : Nat} (member : rmem ∈ live) {size : BitVec 32}
    {between copied : HeapMemory} (allocated : memory.rtMalloc size = some (between, pointer))
    (nonnull : pointer ≠ 0)
    (enough : count = min (memory.heap.usable rmem) size.toNat) (small : size.toNat ≤ 0xFFFFFFFC)
    (fewer : newsize ≤ size.toNat)
    (copies : copied = ⟨between.heap, rtMemcpy between.bytes pointer rmem count⟩)
    (freed : copied.rtFree rmem = some memory') :
    ReallocDone memory memory' live rmem newsize pointer := by
  obtain ⟨-, blocks', inv', writes, lengths, large⟩ :=
    (inv.malloc_memory allocated).resolve_left fun refused => nonnull refused.1
  have room : size.toNat ≤ requestSize size :=
    Nat.le_trans (rtAlign_le small) (Nat.le_max_left ..)
  have distinct := List.nodup_cons.mp inv'.live_nodup
  have apart : pointer ≠ rmem := by
    rintro rfl
    exact distinct.1 member
  have member' : rmem ∈ pointer :: live := List.mem_cons_of_mem _ member
  -- the block is given back in a heap that differs in its data only
  have bytes : copied.bytes = rtMemcpy between.bytes pointer rmem count := by rw [copies]
  have same : copied.heap = between.heap := by rw [copies]
  have copiedInv := inv'
  rw [← same] at copiedInv
  have headers := copied.rtFree_heap rmem
  rw [freed] at headers
  obtain ⟨next, blocks'', result, -, inv'', -⟩ := copiedInv.free member'
  obtain rfl : next = memory'.heap := Option.some_inj.mp (result.symm.trans headers.symm)
  have released := copiedInv.free_memory member' freed
  have fromBlock : ∀ other ∈ pointer :: live, ∀ i < between.heap.usable other,
      memory'.bytes (other + i) = rtMemcpy between.bytes pointer rmem count (other + i) := by
    intro other there i below
    rw [← same] at below
    rw [← bytes]
    exact copiedInv.kept_data copiedInv.begins released there i below
  have untouched : ∀ other ∈ live, ∀ i < memory.heap.usable other,
      between.bytes (other + i) = memory.bytes (other + i) := by
    intro other there i below
    rw [← lengths other there] at below
    exact inv'.kept_data inv.begins writes (List.mem_cons_of_mem _ there) i below
  rw [List.erase_cons_tail (by simpa using apart)] at inv''
  refine ⟨?_, ⟨blocks'', HeapInv.kept inv''⟩, ?_, ?_⟩
  · intro i below
    have ranges := inv'.data_apart member' (List.mem_cons_self ..) apart.symm
    rw [lengths rmem member] at ranges
    rw [fromBlock pointer (List.mem_cons_self ..) i (by omega),
      rtMemcpy_copies (by omega) i (by omega), untouched rmem member i (by omega)]
  · intro still
    rcases List.mem_cons.mp still with same | old
    · exact same.symm
    · exact absurd old (List.Nodup.not_mem_erase distinct.2)
  · intro other there differ
    have there' : other ∈ pointer :: live := List.mem_cons_of_mem _ there
    have notNew : other ≠ pointer := by
      rintro rfl
      exact distinct.1 there
    have ranges := inv'.data_apart there' (List.mem_cons_self ..) notNew
    rw [lengths other there] at ranges
    refine ⟨(List.mem_erase_of_ne differ).mpr there, ?_, fun i below => ?_⟩
    · rw [copiedInv.free_usable member' there' differ result, same, lengths other there]
    · rw [fromBlock other there' i (by rwa [lengths other there]), rtMemcpy_eqOn,
        untouched other there i below]
      rintro ⟨low, high⟩
      omega

theorem HeapInv.realloc_memory (inv : HeapInv base finish memory.heap blocks live)
    {rmem pointer : Nat} (member : rmem ∈ live) {newsize : BitVec 32}
    (small : newsize.toNat ≤ 0xFFFFFFFC)
    (result : memory.rtRealloc rmem newsize = some (memory', pointer)) :
    (pointer = 0 → memory' = memory) ∧
      (pointer ≠ 0 → ReallocDone memory memory' live rmem newsize.toNat pointer) := by
  obtain ⟨mem, here, used, rfl⟩ := inv.exists_block member
  have rounded := rtAlign_le small
  have multiple := rtAlign_mod newsize
  have usable := inv.usable_eq mem
  have offset : base + mem + 12 - 12 - memory.heap.heapPtr = mem := by
    rw [inv.begins]
    omega
  unfold HeapMemory.rtRealloc at result
  dsimp only at result
  split at result
  · obtain ⟨rfl, rfl⟩ := Prod.mk.inj (Option.some_inj.mp result)
    exact ⟨fun _ => rfl, fun nonnull => absurd rfl nonnull⟩
  have within : ¬ (base + mem + 12 < memory.heap.heapPtr ∨
      memory.heap.heapPtr + memory.heap.heapEnd ≤ base + mem + 12) := by
    have below := inv.room mem here
    rw [inv.begins, inv.ends]
    omega
  have null : base + mem + 12 ≠ 0 := by omega
  rw [if_neg null, if_neg within, offset] at result
  split at result
  · obtain ⟨rfl, rfl⟩ := Prod.mk.inj (Option.some_inj.mp result)
    have reordered := inv.perm (List.perm_cons_erase member).symm
    exact ⟨fun _ => rfl, fun _ => ⟨fun _ _ => rfl, ⟨blocks, HeapInv.kept reordered⟩, fun _ => rfl,
      fun other there apart => ⟨(List.mem_erase_of_ne apart).mpr there, rfl, fun _ _ => rfl⟩⟩⟩
  split at result
  · rename_i fits
    obtain ⟨cut, plugged, done⟩ := Option.bind_eq_some_iff.mp result
    obtain ⟨rfl, rfl⟩ := Prod.mk.inj (Option.some_inj.mp done)
    refine ⟨fun null => by omega, fun _ => ?_⟩
    obtain ⟨left, right, rfl⟩ := List.append_of_mem here
    obtain ⟨blocks', inv', self, lengths, bytes⟩ := inv.cut_memory used multiple fits rfl plugged
    have reordered := inv'.perm (List.perm_cons_erase member).symm
    refine ⟨fun i below => bytes _ member i (by omega), ⟨blocks', HeapInv.kept reordered⟩,
      fun _ => rfl, fun other there apart => ?_⟩
    refine ⟨(List.mem_erase_of_ne apart).mpr there, lengths other there apart, fun i below => ?_⟩
    exact bytes other there i (by rwa [lengths other there apart])
  · obtain ⟨⟨between, nmem⟩, allocated, rest⟩ := Option.bind_eq_some_iff.mp result
    dsimp only at rest
    split at rest
    · obtain ⟨final, freed, done⟩ := Option.bind_eq_some_iff.mp rest
      obtain ⟨rfl, rfl⟩ := Prod.mk.inj (Option.some_inj.mp done)
      refine ⟨fun null => absurd null ‹_›, fun nonnull => ?_⟩
      refine inv.moved_memory member allocated nonnull ?_ (by omega) rounded rfl freed
      split <;> omega
    · obtain ⟨rfl, rfl⟩ := Prod.mk.inj (Option.some_inj.mp rest)
      refine ⟨fun _ => ?_, fun nonnull => absurd rfl nonnull⟩
      rcases inv.malloc_memory allocated with ⟨-, same⟩ | ⟨nonnull, -⟩
      · exact same
      · exact absurd nonnull ‹_›

end

/-- For a pointer in use and a size that the heap could hold, `rt_realloc` returns
`RT_NULL` and has changed nothing, or it returns the data and leaves all other data as
they are. -/
theorem realloc_keeps {magic : Nat → BitVec 16} {used : Nat → Bool} {links : Links Nat}
    {beginAddr endAddr : BitVec 32} {heap : Heap} {calls : List HeapCall} {pointers : List Nat}
    {system : HeapSystem} {rmem : Nat} {newsize : BitVec 32}
    (init : rtSystemHeapInit magic used links beginAddr endAddr = some heap)
    (run : heapMachine.Run HeapSystem.OwnsArgument ⟨heap, []⟩ calls pointers system)
    (member : rmem ∈ system.live) (within : newsize.toNat ≤ system.heap.memSizeAligned)
    (bytes : Nat → BitVec 8) :
    ∃ memory pointer,
      (HeapMemory.mk system.heap bytes).rtRealloc rmem newsize = some (memory, pointer) ∧
      rtRealloc system.heap rmem newsize = some (memory.heap, pointer) ∧
      (pointer = 0 → memory = ⟨system.heap, bytes⟩) ∧
      (pointer ≠ 0 →
        ReallocDone ⟨system.heap, bytes⟩ memory system.live rmem newsize.toNat pointer) := by
  have bound := (rtSystemHeapInit_size init).2
  rcases heap_reached init (fun _ _ owns => owns) run with ⟨blocks, inv, -⟩ | ⟨-, rfl⟩
  · have ends := inv.ends
    simp only [Heap.heapEnd] at ends
    obtain ⟨next, pointer, result, -⟩ := inv.realloc newsize (Or.inr member)
    have headers := (HeapMemory.mk system.heap bytes).rtRealloc_heap rmem newsize
    rw [result] at headers
    obtain ⟨⟨memory, pointer'⟩, result', same⟩ := Option.map_eq_some_iff.mp headers
    obtain ⟨rfl, rfl⟩ := Prod.mk.inj same
    exact ⟨memory, pointer', result', result,
      @HeapInv.realloc_memory _ _ ⟨system.heap, bytes⟩ memory blocks system.live inv rmem pointer'
        member newsize (by omega) result'⟩
  · cases member

/-- A block of 40 bytes in a kilobyte is enlarged to 100 bytes. -/
theorem realloc_keeps_one_block : ∃ (system : HeapSystem) (rmem : Nat),
    rmem ∈ system.live ∧ (100#32).toNat ≤ system.heap.memSizeAligned ∧
    ∀ bytes, ∃ memory pointer,
      (HeapMemory.mk system.heap bytes).rtRealloc rmem 100#32 = some (memory, pointer) ∧
      rtRealloc system.heap rmem 100#32 = some (memory.heap, pointer) ∧
      (pointer = 0 → memory = ⟨system.heap, bytes⟩) ∧
      (pointer ≠ 0 →
        ReallocDone ⟨system.heap, bytes⟩ memory system.live rmem (100#32).toNat pointer) := by
  obtain ⟨heap, system, pointer, blocks, init, size, run, inv, live, -⟩ := heap_one_block
  have ends := inv.ends
  simp only [Heap.heapEnd] at ends
  have member : pointer ∈ system.live := by simp [live]
  have within : (100#32).toNat ≤ system.heap.memSizeAligned := by
    have hundred : (100#32).toNat = 100 := rfl
    omega
  exact ⟨system, pointer, member, within, realloc_keeps init run member within⟩

end RtThread
