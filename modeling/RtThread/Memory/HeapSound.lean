import RtThread.Memory.HeapRuns

/-!
# The system heap is sound

What the invariant says in the words of the memory: the blocks from the start of
the heap on cover it, the pointers in use own disjoint bytes between the headers,
and when all of them have been given back there is one free block again.
-/

namespace RtThread

open RtThread.Std

/-- The bytes of the header at an offset. -/
def Heap.headerBytes (heap : Heap) (block : Nat) : Set Nat :=
  Set.Ico (heap.heapPtr + block) (heap.heapPtr + block + 12)

/-- The bytes from a pointer up to the next header. -/
def Heap.dataBytes (heap : Heap) (rmem : Nat) : Set Nat :=
  Set.Ico rmem (heap.heapPtr + heap.links.next (rmem - 12 - heap.heapPtr))

/-- What holds of the heap when `next` leads from offset 0 through `blocks` to the
sentinel. -/
structure HeapKept (system : HeapSystem) (blocks : List Nat) : Prop where
  start : blocks.head? = some 0
  visits : (blocks ++ [system.heap.heapEnd]).IsChain
    fun a b => system.heap.links.next a = b ∧ a < b
  covers : ∀ offset < system.heap.heapEnd, ∃! block,
    block ∈ blocks ∧ block ≤ offset ∧ offset < system.heap.links.next block
  prev : blocks.IsChain fun a b => system.heap.links.prev b = a
  first : system.heap.links.prev 0 = 0
  separated : (blocks ++ [system.heap.heapEnd]).IsChain
    fun a b => system.heap.used a = true ∨ system.heap.used b = true
  lfree : system.heap.lfree = system.heap.heapEnd ∨
    system.heap.lfree ∈ blocks ∧ system.heap.used system.heap.lfree = false
  live : system.live.Perm
    ((blocks.filter system.heap.used).map fun block => system.heap.heapPtr + block + 12)
  aligned : ∀ rmem ∈ system.live, rmem % 4 = 0
  apart : ∀ rmem ∈ system.live, ∀ other ∈ system.live, rmem ≠ other →
    Disjoint (system.heap.dataBytes rmem) (system.heap.dataBytes other)
  headers : ∀ rmem ∈ system.live, ∀ block ∈ blocks ++ [system.heap.heapEnd],
    Disjoint (system.heap.dataBytes rmem) (system.heap.headerBytes block)
  usedMem : system.heap.usedMem =
    ((blocks.filter system.heap.used).map fun block => system.heap.links.next block - block).sum

section

variable {base finish : Nat} {heap : Heap} {blocks live : List Nat} {mem : Nat}

/-- Where the data of a pointer in use end. -/
theorem HeapShape.dataBytes_eq (shape : HeapShape base finish heap blocks live) (mem : Nat) :
    heap.dataBytes (base + mem + 12) = Set.Ico (base + mem + 12) (base + heap.links.next mem) := by
  have offset : base + mem + 12 - 12 - base = mem := by omega
  rw [Heap.dataBytes, shape.begins, offset]

/-- A block ends before the next header. -/
theorem HeapShape.dataBytes_disjoint {block : Nat}
    (shape : HeapShape base finish heap blocks live) (here : mem ∈ blocks)
    (there : block ∈ blocks ++ [finish]) :
    Disjoint (heap.dataBytes (base + mem + 12)) (heap.headerBytes block) := by
  rw [shape.dataBytes_eq, Heap.headerBytes, shape.begins, Set.disjoint_left]
  rintro x ⟨low, high⟩ ⟨low', high'⟩
  rcases Nat.lt_or_ge mem block with before | behind
  · have ends := shape.tiles.next_le (by decide) (List.mem_append_left _ here) there before
    omega
  · omega

theorem HeapShape.dataBytes_apart {block : Nat}
    (shape : HeapShape base finish heap blocks live) (here : mem ∈ blocks)
    (there : block ∈ blocks) (apart : mem ≠ block) :
    Disjoint (heap.dataBytes (base + mem + 12)) (heap.dataBytes (base + block + 12)) := by
  rw [shape.dataBytes_eq, shape.dataBytes_eq, Set.disjoint_left]
  rintro x ⟨low, high⟩ ⟨low', high'⟩
  have here' := List.mem_append_left [finish] here
  have there' := List.mem_append_left [finish] there
  rcases Nat.lt_or_gt_of_ne apart with before | behind
  · have ends := shape.tiles.next_le (by decide) here' there' before
    omega
  · have ends := shape.tiles.next_le (by decide) there' here' behind
    omega

theorem HeapShape.prev_chain (shape : HeapShape base finish heap blocks live) :
    blocks.IsChain fun a b => heap.links.prev b = a := by
  have touching : blocks.IsChain (Neighbours 12 (· ≠ finish) heap.links) :=
    shape.tiles.left_of_append
  refine List.IsChain.imp_of_mem_imp ?_ touching
  intro a b here there touch
  have below := shape.room b there
  exact touch.prev (by omega)

theorem HeapInv.kept {system : HeapSystem}
    (inv : HeapInv base finish system.heap blocks system.live) : HeapKept system blocks := by
  obtain ⟨rfl, rfl⟩ : system.heap.heapPtr = base ∧ system.heap.heapEnd = finish :=
    ⟨inv.begins, inv.ends⟩
  have tiles := inv.tiles
  constructor
  case start => exact inv.start
  case visits =>
      refine tiles.imp fun a b touch => ⟨touch.next, ?_⟩
      have room := touch.room
      omega
  case covers =>
      intro offset below
      obtain ⟨block, member, within⟩ := tiles.exists_within inv.start (Nat.zero_le _) below
      refine ⟨block, ⟨member, within⟩, ?_⟩
      rintro other ⟨there, within'⟩
      exact tiles.within_unique (by decide) (List.mem_append_left _ there)
        (List.mem_append_left _ member) within' within
  case prev => exact inv.prev_chain
  case first => exact inv.first
  case separated => exact inv.separated
  case lfree => exact inv.lfree
  case live => exact inv.handed
  case aligned =>
      intro rmem member
      obtain ⟨mem, here, -, rfl⟩ := inv.exists_block member
      have block := inv.aligned.2 mem (List.mem_append_left _ here)
      have start := inv.aligned.1
      omega
  case apart =>
      intro rmem member other member' differ
      obtain ⟨mem, here, -, rfl⟩ := inv.exists_block member
      obtain ⟨block, there, -, rfl⟩ := inv.exists_block member'
      refine inv.dataBytes_apart here there ?_
      rintro rfl
      exact differ rfl
  case headers =>
      intro rmem member block there
      obtain ⟨mem, here, -, rfl⟩ := inv.exists_block member
      exact inv.dataBytes_disjoint here there
  case usedMem =>
      rw [inv.usedMem, weigh_eq_sum tiles]
      clear inv tiles
      induction blocks with
      | nil => rfl
      | cons block blocks ih =>
          rw [List.map_cons, List.sum_cons, ih, usedSize]
          cases marked : system.heap.used block <;> simp [marked]

/-! ## The first block -/

/-- A heap that is large enough for one block begins with one. -/
theorem rtSystemHeapInit_inv {magic : Nat → BitVec 16} {used : Nat → Bool} {links : Links Nat}
    {beginAddr endAddr : BitVec 32}
    (init : rtSystemHeapInit magic used links beginAddr endAddr = some heap)
    (enough : 12 ≤ heap.memSizeAligned) :
    HeapInv heap.heapPtr heap.heapEnd heap [0] [] := by
  obtain ⟨⟨large, ordered⟩, result⟩ := Option.ite_none_right_eq_some.mp init
  have beginAligned := rtAlign_mod beginAddr
  have endAligned := rtAlignDown_mod endAddr
  have size : (rtAlignDown endAddr - rtAlign beginAddr - 24#32).toNat =
      (rtAlignDown endAddr).toNat - (rtAlign beginAddr).toNat - 24 := by bv_omega
  have within : (rtAlign beginAddr).toNat + 24 ≤ (rtAlignDown endAddr).toNat := by bv_omega
  rw [size] at result
  obtain rfl := Option.some_inj.mp result
  simp only [Heap.setMagic, Heap.setUsed, Heap.setNext, Heap.setPrev, Heap.heapEnd,
    Links.setNext, Links.setPrev] at enough ⊢
  constructor
  case separated => simp [Separated]
  case fresh => simp
  constructor
  case begins => rfl
  case ends => rfl
  case tiles => exact List.isChain_pair.mpr ⟨by simp, by simp, by omega⟩
  case room => simp; omega
  case start => rfl
  case first => simp
  case sentinel => simp
  case aligned => simp; omega
  case lfree => simp
  case usedMem => simp [weigh, usedSize]
  case handed => simp
  case magic => simp

/-! ## Giving everything back -/

/-- The pointers in use can be given back in any order. -/
theorem HeapInv.freeAll {order : List Nat} (inv : HeapInv base finish heap blocks live)
    (same : order.Perm live) :
    ∃ final events, heapMachine.execute ⟨heap, live⟩ (order.map .free) = some (final, events) ∧
      final.live = [] ∧ HeapInv base finish final.heap [0] final.live := by
  induction order generalizing heap blocks live with
  | nil =>
      obtain rfl := same.nil_eq
      obtain rfl := inv.eq_single inv.separated
      exact ⟨_, _, rfl, rfl, inv⟩
  | cons rmem order ih =>
      have member : rmem ∈ live := same.subset (by simp)
      obtain ⟨next, blocks', freed, -, inv', -⟩ := inv.free member
      have rest : order.Perm (live.erase rmem) := by simpa using same.erase rmem
      obtain ⟨final, events, executed, none_, kept⟩ := ih inv' rest
      have step : heapMachine.step ⟨heap, live⟩ (.free rmem) =
          some (⟨next, live.erase rmem⟩, [0]) := by
        simp [heapMachine, HeapCall.apply, HeapCall.follow, freed]
      exact ⟨final, _, Machine.execute_cons step executed, none_, kept⟩

end

/-- From the first block on, every call that may be made has a result and keeps
the heap in order. Giving back all pointers, in any order, leaves one free block. -/
theorem heap_kept {magic : Nat → BitVec 16} {used : Nat → Bool} {links : Links Nat}
    {beginAddr endAddr : BitVec 32} {heap : Heap} {calls : List HeapCall} {pointers : List Nat}
    {system : HeapSystem}
    (init : rtSystemHeapInit magic used links beginAddr endAddr = some heap)
    (enough : 12 ≤ heap.memSizeAligned)
    (run : heapMachine.Run HeapSystem.OwnsArgument ⟨heap, []⟩ calls pointers system) :
    (∃ blocks, HeapKept system blocks) ∧
      (∀ call, system.OwnsArgument call → (heapMachine.step system call).isSome) ∧
      ∀ order : List Nat, order.Perm system.live → ∃ final returned,
        heapMachine.execute system (order.map .free) = some (final, returned) ∧
          HeapKept final [0] ∧ final.live = [] ∧ final.heap.used 0 = false ∧
          final.heap.links.next 0 = final.heap.heapEnd ∧ final.heap.usedMem = 0 ∧
          final.heap.lfree = 0 := by
  obtain ⟨blocks, inv⟩ := @Machine.Run.invariant _ _ _ _ _ _ _ _ _
    (fun state => ∃ blocks, HeapInv heap.heapPtr heap.heapEnd state.heap blocks state.live) run
    ⟨[0], rtSystemHeapInit_inv init enough⟩ (by
      rintro state call next returned ⟨blocks, inv⟩ owns transition
      obtain ⟨next', pointer, result, blocks', inv', -⟩ := inv.step owns
      obtain ⟨rfl, -⟩ := Prod.mk.inj (Option.some_inj.mp (transition.symm.trans result))
      exact ⟨blocks', inv'⟩)
  refine ⟨⟨blocks, inv.kept⟩, ?_, ?_⟩
  · intro call owns
    obtain ⟨next, pointer, result, -⟩ := inv.step owns
    simp [result]
  · intro order same
    obtain ⟨final, returned, executed, none_, inv'⟩ := inv.freeAll same
    have kept := inv'.kept
    have unused : final.heap.used 0 = false := by
      have given := kept.live
      rw [none_] at given
      simpa using given.nil_eq
    refine ⟨final, returned, executed, kept, none_, unused, ?_, ?_, inv'.fresh none_⟩
    · exact (List.isChain_pair.mp kept.visits).1
    · rw [kept.usedMem]
      simp [unused]

/-! ## A kilobyte -/

/-- The block at `lfree` is large enough, and what remains of it is free. -/
theorem rtMalloc_first {heap : Heap} {size : BitVec 32} {count next : Nat}
    (asked : (rtAlign size).toNat = count) (some_ : size ≠ 0#32) (large : 12 ≤ count)
    (within : count ≤ heap.memSizeAligned) (reached : heap.lfree < heap.searchEnd count)
    (unused : heap.used heap.lfree = false)
    (fits : count ≤ heap.links.next heap.lfree - (heap.lfree + 12))
    (taken : (heap.occupy heap.lfree count).used heap.lfree = true ∧
      heap.lfree ≠ (heap.occupy heap.lfree count).heapEnd ∧
      heap.lfree = (heap.occupy heap.lfree count).lfree)
    (behind : (heap.occupy heap.lfree count).links.next heap.lfree = next)
    (remains : (heap.occupy heap.lfree count).used next = false)
    (sound : heap.lfree + 12 + count ≤ (heap.occupy heap.lfree count).heapEnd ∧
      ((heap.occupy heap.lfree count).heapPtr + heap.lfree + 12) % 4 = 0 ∧
      ((heap.occupy heap.lfree count).heapPtr + heap.lfree) % 4 = 0) :
    rtMalloc heap size = some ({ heap.occupy heap.lfree count with lfree := next },
      (heap.occupy heap.lfree count).heapPtr + heap.lfree + 12) := by
  have found : heap.findFit count heap.lfree = some (some heap.lfree) := by
    rw [Heap.findFit, if_pos reached, if_pos ⟨unused, fits⟩]
  have onward : (heap.occupy heap.lfree count).findFree heap.lfree = some next := by
    rw [Heap.findFree, if_pos ⟨taken.1, taken.2.1⟩, behind, Heap.findFree,
      if_neg (by rw [remains]; exact fun both => Bool.noConfusion both.1)]
  have advanced : (heap.occupy heap.lfree count).advanceFree heap.lfree =
      some { heap.occupy heap.lfree count with lfree := next } := by
    rw [Heap.advanceFree, if_pos taken.2.2, ← taken.2.2, onward]
    exact if_pos (.inr remains)
  rw [rtMalloc, if_neg some_]
  dsimp only
  rw [asked, if_neg (Nat.not_lt.mpr within), if_neg (Nat.not_lt.mpr large), found]
  change ((Heap.advanceFree _ _).bind _ : Option _) = _
  rw [advanced]
  exact if_pos sound

def bareHeap : Heap :=
  (rtSystemHeapInit (fun _ => 0) (fun _ => false) ⟨fun _ => 0, fun _ => 0⟩ 0x1000#32 0x1400#32).get
    rfl

theorem bareHeap_init : rtSystemHeapInit (fun _ => 0) (fun _ => false) ⟨fun _ => 0, fun _ => 0⟩
    0x1000#32 0x1400#32 = some bareHeap := (Option.some_get _).symm

/-- 40 bytes have been taken. -/
def firstTaken : Heap := { bareHeap.occupy 0 40 with lfree := 52 }

theorem bareHeap_malloc : rtMalloc bareHeap 40#32 = some (firstTaken, 4108) :=
  rtMalloc_first (by decide) (by decide) (by decide) (by decide +kernel) (by decide +kernel)
    (by decide +kernel) (by decide +kernel) (by decide +kernel) (by decide +kernel)
    (by decide +kernel) (by decide +kernel)

theorem firstTaken_run : heapMachine.Run HeapSystem.OwnsArgument ⟨bareHeap, []⟩ [.malloc 40#32]
    [4108] ⟨firstTaken, [4108]⟩ := by
  have step : heapMachine.step ⟨bareHeap, []⟩ (.malloc 40#32) =
      some (⟨firstTaken, [4108]⟩, [4108]) := by
    simp [heapMachine, HeapCall.apply, HeapCall.follow, bareHeap_malloc]
  exact .snoc .nil trivial step

/-- Then 100 bytes are taken as well. -/
theorem heap_kept_two_blocks : ∃ blocks system,
    heapMachine.Run HeapSystem.OwnsArgument ⟨bareHeap, []⟩ [.malloc 40#32, .malloc 100#32]
        [4108, 4160] system ∧
      system.live = [4160, 4108] ∧ HeapKept system blocks ∧
      ∀ order : List Nat, order.Perm system.live → ∃ final returned,
        heapMachine.execute system (order.map .free) = some (final, returned) ∧
          HeapKept final [0] := by
  have second : rtMalloc firstTaken 100#32 =
      some ({ firstTaken.occupy 52 100 with lfree := 164 }, 4160) :=
    rtMalloc_first (by decide) (by decide) (by decide) (by decide +kernel) (by decide +kernel)
      (by decide +kernel) (by decide +kernel) (by decide +kernel) (by decide +kernel)
      (by decide +kernel) (by decide +kernel)
  have step : heapMachine.step ⟨firstTaken, [4108]⟩ (.malloc 100#32) =
      some (⟨{ firstTaken.occupy 52 100 with lfree := 164 }, [4160, 4108]⟩, [4160]) := by
    simp [heapMachine, HeapCall.apply, HeapCall.follow, second]
  have run := firstTaken_run.snoc (show HeapSystem.OwnsArgument _ (.malloc 100#32) from trivial) step
  obtain ⟨⟨blocks, kept⟩, -, returns⟩ := heap_kept bareHeap_init (by decide +kernel) run
  refine ⟨blocks, _, run, rfl, kept, fun order same => ?_⟩
  obtain ⟨final, returned, executed, whole, -⟩ := returns order same
  exact ⟨final, returned, executed, whole⟩

end RtThread
