import RtThread.Memory.MemheapRuns

/-!
# Memory heaps are sound

What the invariant says in the words of the memory. Blocks are as large as the
requests that they serve exactly as long as aligning the requests does not wrap
around.
-/

namespace RtThread

open RtThread.Std

/-- The bytes from a pointer up to the next header. -/
def Memheap.dataBytes (heap : Memheap) (ptr : Nat) : Set Nat :=
  Set.Ico ptr (heap.blocks.next (ptr - 24))

/-- What holds of the heap when `next` leads from `start_addr` through `blocks` to
the tailer block and back, and `next_free` leads through `frees`. -/
structure MemheapKept (system : MemheapSystem) (blocks frees : List Nat) : Prop where
  listed : system.heap.blockList = system.heap.startAddr
  start : blocks.head? = some system.heap.startAddr
  visits : (blocks ++ [system.heap.tail]).IsChain fun a b =>
    system.heap.blocks.next a = b ∧ system.heap.blocks.prev b = a ∧ a + 24 ≤ b
  circular : system.heap.blocks.next system.heap.tail = system.heap.startAddr ∧
    system.heap.blocks.prev system.heap.startAddr = system.heap.tail
  tailer : system.heap.isUsed system.heap.tail = true ∧
    system.heap.tail + 24 = system.heap.startAddr + system.heap.poolSize
  covers : ∀ address, system.heap.startAddr ≤ address → address < system.heap.tail →
    ∃! block, block ∈ blocks ∧ block ≤ address ∧ address < system.heap.blocks.next block
  free : system.heap.frees.Circle system.heap.freeList frees
  spare : frees.Perm (blocks.filter fun block => !system.heap.isUsed block)
  separated : (blocks ++ [system.heap.tail]).IsChain
    fun a b => system.heap.isUsed a = true ∨ system.heap.isUsed b = true
  available : system.heap.availableSize =
    (frees.map fun block => system.heap.blocks.next block - block - 24).sum
  live : (system.live.map Prod.fst).Perm ((blocks.filter system.heap.isUsed).map (· + 24))
  within : ∀ ptr ∈ system.live.map Prod.fst, system.heap.startAddr + 24 ≤ ptr ∧
    system.heap.blocks.next (ptr - 24) ≤ system.heap.tail
  apart : ∀ ptr ∈ system.live.map Prod.fst, ∀ other ∈ system.live.map Prod.fst, ptr ≠ other →
    Disjoint (system.heap.dataBytes ptr) (system.heap.dataBytes other)

/-- Every block in use is at least as long as the size that was asked for, rounded up
to a multiple of 4. -/
def MemheapSystem.Serves (system : MemheapSystem) : Prop :=
  ∀ entry ∈ system.live,
    entry.1 + 4 * ((entry.2.toNat + 3) / 4) ≤ system.heap.blocks.next (entry.1 - 24)

section

variable {heap : Memheap} {blocks frees left right : List Nat} {live : List (Nat × BitVec 32)}
  {h : Nat}

theorem MemheapInv.kept {system : MemheapSystem}
    (inv : MemheapInv system.heap blocks frees system.live) : MemheapKept system blocks frees := by
  have tiles := inv.tiles
  have room := tiles.length_le inv.start
  have some_ : 0 < blocks.length := by
    refine List.length_pos_iff.mpr ?_
    rintro rfl
    cases inv.start
  constructor
  case listed => exact inv.listed
  case start => exact inv.start
  case visits => exact tiles.imp fun a b touch => ⟨touch.next, touch.prev trivial, touch.room⟩
  case circular => exact ⟨inv.onward, inv.back⟩
  case tailer =>
      refine ⟨inv.sentinel, ?_⟩
      rw [Memheap.tail] at room ⊢
      omega
  case covers =>
      intro address lower upper
      obtain ⟨block, member, inside⟩ := tiles.exists_within inv.start lower upper
      refine ⟨block, ⟨member, inside⟩, ?_⟩
      rintro other ⟨there, inside'⟩
      exact tiles.within_unique (by decide) (List.mem_append_left _ there)
        (List.mem_append_left _ member) inside' inside
  case free => exact inv.ring
  case spare => exact inv.spare
  case separated => exact inv.separated
  case available =>
      have sizes := (inv.spare.map fun block =>
        system.heap.blocks.next block - block - 24).sum_nat
      rw [List.nil_append] at sizes
      rw [inv.available, weigh_eq_sum tiles, sizes]
      clear inv tiles room some_ sizes
      induction blocks with
      | nil => rfl
      | cons block blocks ih =>
          rw [List.map_cons, List.sum_cons, ih, spareSize]
          cases marked : system.heap.isUsed block <;> simp [marked]
  case live => exact inv.handed
  case within =>
      intro ptr member
      obtain ⟨block, here, -, rfl⟩ := inv.exists_block member
      have region := inv.start_le here
      rw [Nat.add_sub_cancel]
      exact ⟨by omega, tiles.next_le (by decide) (List.mem_append_left _ here) (by simp)
        (by omega)⟩
  case apart =>
      intro ptr member other member' differ
      obtain ⟨block, here, -, rfl⟩ := inv.exists_block member
      obtain ⟨block', there, -, rfl⟩ := inv.exists_block member'
      have here' := List.mem_append_left [system.heap.tail] here
      have there' := List.mem_append_left [system.heap.tail] there
      rw [Memheap.dataBytes, Memheap.dataBytes, Nat.add_sub_cancel, Nat.add_sub_cancel,
        Set.disjoint_left]
      rintro x ⟨low, high⟩ ⟨low', high'⟩
      rcases Nat.lt_or_ge block block' with before | behind
      · have ends := tiles.next_le (by decide) here' there' before
        omega
      · have before : block' < block := by omega
        have ends := tiles.next_le (by decide) there' here' before
        omega

/-- A block is too small exactly for the requests which wrap around. -/
theorem MemheapInv.serves_iff {system : MemheapSystem}
    (inv : MemheapInv system.heap blocks frees system.live)
    (small : system.heap.poolSize < 2 ^ 32) :
    system.Serves ↔ ∀ entry ∈ system.live, entry.2.toNat ≤ 0xFFFFFFFC := by
  have kept := inv.kept
  constructor
  · intro serves entry member
    have long := serves entry member
    have inside := kept.within entry.1 (List.mem_map_of_mem member)
    have tailer := kept.tailer.2
    omega
  · intro modest entry member
    have long := inv.served entry member
    have aligned := rtAlign_toNat (modest entry member)
    rw [Memheap.requestSize] at long
    split at long <;> omega

/-! ## The first block -/

theorem rtMemheapInit_inv {self header startAddr : Nat} {magic : Nat → BitVec 32}
    {poolPtr : Nat → Nat} {blocks frees : Links Nat} {size : BitVec 32} (enough : 48 ≤ size.toNat)
    (outside : header < startAddr ∨ startAddr + size.toNat ≤ header) :
    MemheapInv (rtMemheapInit self header magic poolPtr blocks frees startAddr size)
      [startAddr] [startAddr] [] := by
  have poolSize : (rtAlignDown size).toNat = size.toNat - size.toNat % 4 := by
    rw [rtAlignDown, mask_toNat]
  obtain ⟨pool, rest⟩ : ∃ pool, (rtAlignDown size).toNat = pool + 48 :=
    ⟨(rtAlignDown size).toNat - 48, by omega⟩
  have apartHeader : startAddr + pool + 24 ≠ header := by omega
  have apartStart : startAddr ≠ header := by omega
  have apartTail : startAddr + pool + 24 ≠ startAddr := by omega
  -- the object before the first block goes to the free list
  obtain ⟨empty, before⟩ : ∃ empty : Memheap, empty =
      ⟨self, startAddr, pool + 48, pool, startAddr, header,
        Function.update (Function.update magic header rtMemheapMagic) startAddr rtMemheapMagic,
        Function.update (Function.update poolPtr header self) startAddr self,
        ⟨Function.update (Function.update blocks.next header 0) startAddr (startAddr + pool + 24),
          Function.update (Function.update blocks.prev header 0) startAddr (startAddr + pool + 24)⟩,
        ⟨Function.update frees.next header header, Function.update frees.prev header header⟩⟩ :=
    ⟨_, rfl⟩
  have nobody : empty.frees.Circle header [] := by
    rw [before]
    exact ⟨⟨Function.update_self .., Function.update_self ..⟩, List.nodup_singleton _⟩
  have ring : ((empty.insertFree startAddr).clearFree (startAddr + pool + 24)).frees.Circle header
      [startAddr] := by
    have first : (empty.insertFree startAddr).frees.Circle header [startAddr] := by
      have freeList : empty.freeList = header := by rw [before]
      rw [← freeList] at nobody apartStart ⊢
      exact Memheap.insertFree_ring nobody (by simpa using apartStart)
    have freeList : (empty.insertFree startAddr).freeList = header := by rw [before]; rfl
    rw [← freeList] at first apartHeader ⊢
    exact Memheap.clearFree_ring first (by simp [apartHeader, apartTail])
  obtain ⟨heap, made⟩ : ∃ heap, heap =
      rtMemheapInit self header magic poolPtr blocks frees startAddr size := ⟨_, rfl⟩
  rw [← made]
  have result : heap = { empty with
      magic := Function.update empty.magic (startAddr + pool + 24) (rtMemheapMagic ||| rtMemheapUsed)
      poolPtr := Function.update empty.poolPtr (startAddr + pool + 24) self
      blocks := ⟨Function.update empty.blocks.next (startAddr + pool + 24) startAddr,
        Function.update empty.blocks.prev (startAddr + pool + 24) startAddr⟩
      frees := ((empty.insertFree startAddr).clearFree (startAddr + pool + 24)).frees } := by
    rw [made, before]
    simp only [rtMemheapInit, rest, Nat.add_sub_cancel, Memheap.insertFree, Memheap.clearFree,
      Memheap.setMagic, Memheap.setPoolPtr, Memheap.setNext, Memheap.setPrev, Memheap.setNextFree,
      Memheap.setPrevFree, Links.setNext, Links.setPrev]
  have tail : heap.tail = startAddr + pool + 24 := by
    rw [result, before, Memheap.tail]
    dsimp only
    omega
  have marks : heap.isUsed = Function.update empty.isUsed (startAddr + pool + 24) true :=
    @Memheap.isUsed_update empty heap (startAddr + pool + 24) (rtMemheapMagic ||| rtMemheapUsed)
      true (by rw [result]) (or_used _)
  have sentinel : heap.isUsed heap.tail = true := by rw [marks, tail, Function.update_self]
  have owned : heap.magic startAddr = rtMemheapMagic ∧ heap.poolPtr startAddr = heap.self := by
    rw [result, before]
    dsimp only
    rw [Function.update_of_ne apartTail.symm, Function.update_self,
      Function.update_of_ne apartTail.symm, Function.update_self]
    exact ⟨rfl, rfl⟩
  have unused : heap.isUsed startAddr = false := by
    rw [Memheap.isUsed, owned.1]
    rfl
  have begins : heap.startAddr = startAddr := by rw [result, before]
  have links : heap.blocks = ⟨Function.update empty.blocks.next heap.tail startAddr,
      Function.update empty.blocks.prev heap.tail startAddr⟩ := by
    rw [tail, result]
  have points : empty.blocks.next startAddr = heap.tail ∧
      empty.blocks.prev startAddr = heap.tail := by
    rw [tail, before]
    exact ⟨Function.update_self .., Function.update_self ..⟩
  rw [← tail] at apartTail
  constructor
  case separated => exact List.isChain_pair.mpr (Or.inr sentinel)
  constructor
  case ring =>
      rw [result]
      dsimp only
      rwa [before] at ring ⊢
  case spare => simp [unused]
  case outside =>
      rw [tail, result, before]
      dsimp only
      omega
  case listed => rw [result, before]
  constructor
  case tiles =>
      refine List.isChain_pair.mpr ⟨?_, fun _ => ?_, ?_⟩
      · rw [links]
        exact (Function.update_of_ne apartTail.symm ..).trans points.1
      · rw [links]
        exact Function.update_self ..
      · rw [tail]
        omega
  case start => rw [begins]; rfl
  case onward =>
      rw [links, begins]
      exact Function.update_self ..
  case back =>
      rw [links, begins]
      exact (Function.update_of_ne apartTail.symm ..).trans points.2
  case sentinel => exact sentinel
  case owned =>
      intro block member
      obtain rfl := List.mem_singleton.mp member
      rw [Memheap.Owns, owned.1]
      exact ⟨by decide, owned.2⟩
  case available =>
      have available : heap.availableSize = pool := by rw [result, before]
      simp only [available, List.singleton_append, weigh, spareSize, unused, tail,
        Bool.false_eq_true, if_false]
      omega
  case handed => simp [unused]
  case served => simp

/-! ## Runs -/

namespace Memheap

@[simp] theorem setMagic_poolSize (heap : Memheap) (item : Nat) (magic : BitVec 32) :
    (heap.setMagic item magic).poolSize = heap.poolSize := rfl

@[simp] theorem setPoolPtr_poolSize (heap : Memheap) (item pool : Nat) :
    (heap.setPoolPtr item pool).poolSize = heap.poolSize := rfl

@[simp] theorem setNext_poolSize (heap : Memheap) (item target : Nat) :
    (heap.setNext item target).poolSize = heap.poolSize := rfl

@[simp] theorem setPrev_poolSize (heap : Memheap) (item target : Nat) :
    (heap.setPrev item target).poolSize = heap.poolSize := rfl

@[simp] theorem insertFree_poolSize (heap : Memheap) (item : Nat) :
    (heap.insertFree item).poolSize = heap.poolSize := rfl

@[simp] theorem removeFree_poolSize (heap : Memheap) (item : Nat) :
    (heap.removeFree item).poolSize = heap.poolSize := rfl

@[simp] theorem clearFree_poolSize (heap : Memheap) (item : Nat) :
    (heap.clearFree item).poolSize = heap.poolSize := rfl

@[simp] theorem mergeLeft_poolSize (heap : Memheap) (h : Nat) :
    (heap.mergeLeft h).1.poolSize = heap.poolSize := by
  unfold mergeLeft
  split <;> simp

@[simp] theorem mergeRight_poolSize (heap : Memheap) (h : Nat) :
    (heap.mergeRight h).poolSize = heap.poolSize := by
  unfold mergeRight
  split <;> simp

theorem giveBlock_poolSize (heap : Memheap) (h : Nat) :
    (heap.giveBlock h).poolSize = heap.poolSize := by
  unfold giveBlock
  dsimp only
  split <;> simp

theorem takeBlock_poolSize {size : Nat} {next : Memheap} {found : Option Nat}
    (taken : heap.takeBlock size = some (next, found)) : next.poolSize = heap.poolSize := by
  simp only [takeBlock, Option.bind_eq_bind, Option.bind_eq_some_iff] at taken
  obtain ⟨⟨header, freeSize⟩, -, taken⟩ := taken
  dsimp only at taken
  split at taken
  · split at taken <;> obtain ⟨rfl, -⟩ := Prod.mk.inj (Option.some_inj.mp taken)
    · simp [splitBlock]
    · simp [wholeBlock]
  · obtain ⟨rfl, -⟩ := Prod.mk.inj (Option.some_inj.mp taken)
    rfl

end Memheap

/-- Every permitted call has a result, and the invariant holds again. -/
theorem MemheapInv.step {system : MemheapSystem}
    (inv : MemheapInv system.heap blocks frees system.live) {call : MemheapCall}
    (owns : system.OwnsArgument call) :
    ∃ next pointers, memheapMachine.step system call = some (next, pointers) ∧
      next.heap.poolSize = system.heap.poolSize ∧
      ∃ blocks' frees', MemheapInv next.heap blocks' frees' next.live := by
  cases call with
  | alloc size =>
      by_cases enough : Memheap.requestSize size < system.heap.availableSize
      · obtain ⟨next, found, taken, either⟩ := inv.takeBlock size
        rcases either with ⟨rfl, rfl⟩ | ⟨h, rfl, blocks', frees', inv'⟩
        · refine ⟨system, [0], ?_, rfl, blocks, frees, inv⟩
          simp [memheapMachine, rtMemheapAlloc, enough, taken]
        · refine ⟨⟨next.markUsed h, (h + 24, size) :: system.live⟩, [h + 24], ?_, ?_, blocks',
            frees', inv'⟩
          · simp [memheapMachine, rtMemheapAlloc, enough, taken]
          · exact (Memheap.setMagic_poolSize ..).trans (Memheap.takeBlock_poolSize taken)
      · refine ⟨system, [0], ?_, rfl, blocks, frees, inv⟩
        simp [memheapMachine, rtMemheapAlloc, enough]
  | free ptr =>
      obtain ⟨h, here, used, rfl⟩ := inv.exists_block owns
      obtain ⟨left, right, rfl⟩ := List.append_of_mem here
      obtain ⟨blocks', frees', inv'⟩ := inv.giveBlock used
      have own : system.heap.Owns h := inv.owned h (by simp)
      refine ⟨⟨system.heap.giveBlock h, _⟩, [], ?_, ?_, blocks', frees', inv'⟩
      · simp [memheapMachine, rtMemheapFree, own]
      · exact Memheap.giveBlock_poolSize ..

end

/-- From the first block on, the calls keep the invariant. -/
theorem memheapInv_of_run {self header startAddr : Nat} {magic : Nat → BitVec 32}
    {poolPtr : Nat → Nat} {blocks frees : Links Nat} {size : BitVec 32} {calls : List MemheapCall}
    {pointers : List Nat} {system : MemheapSystem} (enough : 48 ≤ size.toNat)
    (outside : header < startAddr ∨ startAddr + size.toNat ≤ header)
    (run : memheapMachine.Run MemheapSystem.OwnsArgument
      ⟨rtMemheapInit self header magic poolPtr blocks frees startAddr size, []⟩ calls pointers
      system) :
    system.heap.poolSize < 2 ^ 32 ∧
      ∃ blocks' frees', MemheapInv system.heap blocks' frees' system.live := by
  refine @Machine.Run.invariant _ _ _ _ _ _ _ _ _
    (fun state => state.heap.poolSize < 2 ^ 32 ∧
      ∃ blocks' frees', MemheapInv state.heap blocks' frees' state.live) run
    ⟨(rtAlignDown size).isLt, _, _, rtMemheapInit_inv enough outside⟩ ?_
  rintro state call next returned ⟨small, blocks', frees', inv⟩ owns transition
  obtain ⟨next', returned', result, same, kept⟩ := inv.step owns
  obtain ⟨rfl, -⟩ := Prod.mk.inj (Option.some_inj.mp (transition.symm.trans result))
  exact ⟨same ▸ small, kept⟩

/-- From the first block on, every call that may be made has a result and keeps the
lists in order. The blocks in use are as long as was asked for if and only if no
size that was asked for is larger than `0xFFFFFFFC`. -/
theorem memheap_kept {self header startAddr : Nat} {magic : Nat → BitVec 32} {poolPtr : Nat → Nat}
    {blocks frees : Links Nat} {size : BitVec 32} {calls : List MemheapCall} {pointers : List Nat}
    {system : MemheapSystem} (enough : 48 ≤ size.toNat)
    (outside : header < startAddr ∨ startAddr + size.toNat ≤ header)
    (run : memheapMachine.Run MemheapSystem.OwnsArgument
      ⟨rtMemheapInit self header magic poolPtr blocks frees startAddr size, []⟩ calls pointers
      system) :
    ((∃ blocks frees, MemheapKept system blocks frees) ∧ system.Serves ↔
        ∀ entry ∈ system.live, entry.2.toNat ≤ 0xFFFFFFFC) ∧
      (∃ blocks frees, MemheapKept system blocks frees) ∧
      ∀ call, system.OwnsArgument call → (memheapMachine.step system call).isSome := by
  obtain ⟨small, blocks', frees', inv⟩ := memheapInv_of_run enough outside run
  have kept : ∃ blocks frees, MemheapKept system blocks frees := ⟨blocks', frees', inv.kept⟩
  refine ⟨?_, kept, ?_⟩
  · rw [← inv.serves_iff small]
    exact and_iff_right kept
  · intro call owns
    obtain ⟨next, returned, result, -⟩ := inv.step owns
    simp [result]

/-- A kilobyte at `0x1000`, managed by an object at 8. -/
def kilobyte : Memheap :=
  rtMemheapInit 8 16 (fun _ => 0) (fun _ => 0) ⟨fun _ => 0, fun _ => 0⟩ ⟨fun _ => 0, fun _ => 0⟩
    0x1000 0x400#32

instance (system : MemheapSystem) (call : MemheapCall) : Decidable (system.OwnsArgument call) :=
  match call with
  | .alloc _ => inferInstanceAs (Decidable True)
  | .free _ => inferInstanceAs (Decidable (_ ∈ _))

/-- Two blocks are taken, and the first of them is given back. -/
theorem memheap_kept_two_blocks : ∃ system pointers,
    memheapMachine.Run MemheapSystem.OwnsArgument ⟨kilobyte, []⟩
      [.alloc 40#32, .alloc 5#32, .free 4120] pointers system ∧
    (∃ blocks frees, MemheapKept system blocks frees) ∧ system.Serves := by
  have executed : ((memheapMachine.restrict MemheapSystem.OwnsArgument).execute ⟨kilobyte, []⟩
      [.alloc 40#32, .alloc 5#32, .free 4120]).map (fun (system, _) => system.live) =
        some [(4184, 5#32)] := by decide +kernel
  obtain ⟨⟨system, pointers⟩, result, live⟩ := Option.map_eq_some_iff.mp executed
  have run := Machine.run_of_execute_restrict result
  refine ⟨system, pointers, run, (memheap_kept (by decide) (by decide) run).1.mpr ?_⟩
  dsimp only at live
  rw [live]
  decide

/-- Aligning `0xFFFFFFFF` gives 0, so that a block of 12 bytes is handed out. -/
theorem memheap_serves_too_little : ∃ system pointers,
    memheapMachine.Run MemheapSystem.OwnsArgument ⟨kilobyte, []⟩ [.alloc 0xFFFFFFFF#32] pointers
      system ∧ ¬ system.Serves := by
  have executed : ((memheapMachine.restrict MemheapSystem.OwnsArgument).execute ⟨kilobyte, []⟩
      [.alloc 0xFFFFFFFF#32]).map (fun (system, _) =>
        (system.live, system.heap.blocks.next 0x1000)) =
        some ([(4120, 0xFFFFFFFF#32)], 4132) := by decide +kernel
  obtain ⟨⟨system, pointers⟩, result, values⟩ := Option.map_eq_some_iff.mp executed
  obtain ⟨live, next⟩ := Prod.mk.inj values
  refine ⟨system, pointers, Machine.run_of_execute_restrict result, fun serves => ?_⟩
  have long := serves (4120, 0xFFFFFFFF#32) (by rw [live]; simp)
  rw [show 4120 - 24 = 0x1000 from rfl, next] at long
  exact absurd long (by decide)

end RtThread
