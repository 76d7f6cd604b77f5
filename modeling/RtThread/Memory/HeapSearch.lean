import RtThread.Memory.HeapSound

/-!
# What `rt_malloc` finds

The search starts at `lfree`, so it sees every free block as long as none lies
below. It stops in front of the last place where the request could begin: a last
block with exactly the room that is asked for is not found.
-/

namespace RtThread

open RtThread.Std

/-! ## The blocks are determined by the headers -/

/-- Following a pointer leads through one list only. -/
theorem chain_unique {next : Nat → Nat} {last : Nat} {blocks blocks' : List Nat}
    (visits : (blocks ++ [last]).IsChain fun a b => next a = b ∧ a < b)
    (visits' : (blocks' ++ [last]).IsChain fun a b => next a = b ∧ a < b)
    (start : blocks.head? = blocks'.head?) : blocks = blocks' := by
  have below : ∀ {block rest}, ((block :: rest) ++ [last]).IsChain
      (fun a b => next a = b ∧ a < b) → block < last := by
    intro block rest chain
    have increasing : ((block :: rest) ++ [last]).IsChain (· < ·) := chain.imp fun _ _ h => h.2
    exact (List.pairwise_append.mp increasing.pairwise).2.2 block (by simp) last (by simp)
  induction blocks generalizing blocks' with
  | nil => exact (List.head?_eq_none_iff.mp start.symm).symm
  | cons block blocks ih =>
      cases blocks' with
      | nil => cases start
      | cons block' blocks' =>
          obtain rfl : block = block' := Option.some_inj.mp start
          refine congrArg _ (ih visits.tail visits'.tail ?_)
          cases blocks with
          | nil =>
              cases blocks' with
              | nil => rfl
              | cons second' blocks' =>
                  have points := (List.isChain_cons_cons.mp visits).1.1
                  have points' := (List.isChain_cons_cons.mp visits').1.1
                  have before := below visits'.tail
                  omega
          | cons second blocks =>
              cases blocks' with
              | nil =>
                  have points := (List.isChain_cons_cons.mp visits).1.1
                  have points' := (List.isChain_cons_cons.mp visits').1.1
                  have before := below visits.tail
                  omega
              | cons second' blocks' =>
                  have points := (List.isChain_cons_cons.mp visits).1.1
                  have points' := (List.isChain_cons_cons.mp visits').1.1
                  exact congrArg some (points.symm.trans points')

theorem HeapKept.unique {system : HeapSystem} {blocks blocks' : List Nat}
    (kept : HeapKept system blocks) (kept' : HeapKept system blocks') : blocks = blocks' :=
  chain_unique kept.visits kept'.visits (kept.start.trans kept'.start.symm)

section

variable {magic : Nat → BitVec 16} {used : Nat → Bool} {links : Links Nat}
  {beginAddr endAddr : BitVec 32} {heap next : Heap} {system : HeapSystem} {calls : List HeapCall}
  {pointers : List Nat} {allowed : HeapSystem → HeapCall → Prop}

/-! ## A heap without room for one block -/

theorem rtSystemHeapInit_size
    (init : rtSystemHeapInit magic used links beginAddr endAddr = some heap) :
    heap.memSizeAligned % 4 = 0 ∧ heap.memSizeAligned + 28 ≤ 2 ^ 32 := by
  obtain ⟨⟨large, ordered⟩, result⟩ := Option.ite_none_right_eq_some.mp init
  have beginAligned := rtAlign_mod beginAddr
  have endAligned := rtAlignDown_mod endAddr
  have size : (rtAlignDown endAddr - rtAlign beginAddr - 24#32).toNat =
      (rtAlignDown endAddr).toNat - (rtAlign beginAddr).toNat - 24 := by bv_omega
  have within : (rtAlign beginAddr).toNat + 24 ≤ (rtAlignDown endAddr).toNat := by bv_omega
  have bound := (rtAlignDown endAddr).isLt
  rw [size] at result
  obtain rfl := Option.some_inj.mp result
  simp only [Heap.setMagic, Heap.setUsed, Heap.setNext, Heap.setPrev]
  omega

/-- A block at offset 0 and the sentinel, which points at itself. -/
structure Heap.Fresh (heap : Heap) : Prop where
  lfree : heap.lfree = 0
  unused : heap.used 0 = false
  next : heap.links.next 0 = heap.heapEnd
  sentinel : heap.used heap.heapEnd = true
  around : heap.links.next heap.heapEnd = heap.heapEnd

theorem rtSystemHeapInit_fresh
    (init : rtSystemHeapInit magic used links beginAddr endAddr = some heap) : heap.Fresh := by
  obtain ⟨-, result⟩ := Option.ite_none_right_eq_some.mp init
  obtain rfl := Option.some_inj.mp result
  constructor <;> simp [Heap.setMagic, Heap.setUsed, Heap.setNext, Heap.setPrev, Heap.heapEnd,
    Links.setNext, Links.setPrev]

/-- The bound wraps around, and the search goes on at the sentinel for ever. -/
theorem Heap.Fresh.findFit_ne_some (fresh : heap.Fresh) (small : heap.memSizeAligned < 12)
    {ptr : Nat} (here : ptr = 0 ∨ ptr = heap.heapEnd) (result : Option Nat) :
    heap.findFit 12 ptr ≠ some result := by
  suffices ∀ ptr result, heap.findFit 12 ptr = some result → ¬ (ptr = 0 ∨ ptr = heap.heapEnd) from
    fun found => this ptr result found here
  refine Heap.findFit.partial_correctness heap 12 _ ?_
  intro search ih ptr result found here
  have bound : ptr < heap.searchEnd 12 := by
    rw [Heap.searchEnd, if_neg (by omega)]
    rcases here with rfl | rfl
    · omega
    · simp only [Heap.heapEnd]
      omega
  have misses : ¬ (heap.used ptr = false ∧ 12 ≤ heap.links.next ptr - (ptr + 12)) := by
    rintro ⟨unused, fits⟩
    rcases here with rfl | rfl
    · rw [fresh.next, Heap.heapEnd] at fits
      omega
    · rw [fresh.sentinel] at unused
      cases unused
  rw [if_pos bound, if_neg misses] at found
  refine ih _ _ found (Or.inr ?_)
  rcases here with rfl | rfl
  · exact fresh.next
  · exact fresh.around

/-- Where there is no room for a block, `rt_malloc` returns `RT_NULL` or does not
return. -/
theorem Heap.Fresh.malloc (fresh : heap.Fresh) (small : heap.memSizeAligned < 12)
    {size : BitVec 32} {pointer : Nat} (result : rtMalloc heap size = some (next, pointer)) :
    ¬ heap.Admits size ∧ next = heap ∧ pointer = 0 := by
  unfold rtMalloc at result
  split at result
  · obtain ⟨rfl, rfl⟩ := Prod.mk.inj (Option.some_inj.mp result)
    exact ⟨fun admits => admits.1 ‹_›, rfl, rfl⟩
  dsimp only at result
  split at result
  · obtain ⟨rfl, rfl⟩ := Prod.mk.inj (Option.some_inj.mp result)
    exact ⟨fun admits => absurd admits.2 (Nat.not_le_of_lt ‹_›), rfl, rfl⟩
  rw [if_pos (by omega), fresh.lfree] at result
  obtain ⟨found, search, -⟩ := Option.bind_eq_some_iff.mp result
  exact absurd search (fresh.findFit_ne_some small (Or.inl rfl) found)

theorem Heap.Fresh.step (fresh : heap.Fresh) (small : heap.memSizeAligned < 12) {call : HeapCall}
    (owns : HeapSystem.OwnsArgument ⟨heap, []⟩ call) {emitted : List Nat}
    (step : heapMachine.step ⟨heap, []⟩ call = some (system, emitted)) :
    system = ⟨heap, []⟩ := by
  obtain ⟨⟨next, pointer⟩, result, done⟩ := Option.map_eq_some_iff.mp step
  obtain ⟨rfl, rfl⟩ := Prod.mk.inj done
  have null : ∀ rmem : Nat, rmem = 0 ∨ rmem ∈ ([] : List Nat) → rmem = 0 := by simp
  cases call with
  | malloc size =>
      obtain ⟨-, rfl, rfl⟩ := fresh.malloc small result
      rfl
  | realloc rmem newsize =>
      obtain rfl := null rmem owns
      simp only [HeapCall.apply, rtRealloc] at result
      split at result
      · obtain ⟨rfl, rfl⟩ := Prod.mk.inj (Option.some_inj.mp result)
        rfl
      · rw [if_pos trivial] at result
        obtain ⟨-, rfl, rfl⟩ := fresh.malloc small result
        rfl
  | free rmem =>
      obtain rfl := null rmem owns
      obtain ⟨rfl, rfl⟩ := Prod.mk.inj (Option.some_inj.mp result)
      rfl

/-- Every run keeps the invariant, unless there is no room for one block and nothing
is ever allocated. The run keeps `lfree` low if every `rt_realloc` does. -/
theorem heap_reached (init : rtSystemHeapInit magic used links beginAddr endAddr = some heap)
    (owns : ∀ system call, allowed system call → system.OwnsArgument call)
    (run : heapMachine.Run allowed ⟨heap, []⟩ calls pointers system) :
    (∃ blocks, HeapInv heap.heapPtr heap.heapEnd system.heap blocks system.live ∧
        ((∀ system call, allowed system call → system.CutsAbove call) →
          system.heap.Lowest blocks)) ∨
      heap.memSizeAligned < 12 ∧ system = ⟨heap, []⟩ := by
  have fresh := rtSystemHeapInit_fresh init
  by_cases enough : 12 ≤ heap.memSizeAligned
  · left
    refine @Machine.Run.invariant _ _ _ _ _ _ _ _ _ (fun state => ∃ blocks,
      HeapInv heap.heapPtr heap.heapEnd state.heap blocks state.live ∧
        ((∀ system call, allowed system call → system.CutsAbove call) →
          state.heap.Lowest blocks)) run ⟨[0], rtSystemHeapInit_inv init enough, ?_⟩ ?_
    · intro _ block member _
      rw [fresh.lfree]
      exact Nat.zero_le _
    · rintro state call next returned ⟨blocks, inv, lowest⟩ admitted transition
      obtain ⟨next', pointer, result, blocks', inv', keeps⟩ := inv.step (owns _ _ admitted)
      obtain ⟨rfl, -⟩ := Prod.mk.inj (Option.some_inj.mp (transition.symm.trans result))
      exact ⟨blocks', inv', fun above => keeps (lowest above) (above _ _ admitted)⟩
  · refine Or.inr ⟨by omega, ?_⟩
    refine @Machine.Run.invariant _ _ _ _ _ _ _ _ _ (fun state => state = ⟨heap, []⟩) run rfl ?_
    rintro state call next returned rfl admitted transition
    exact fresh.step (by omega) (owns _ _ admitted) transition

end

/-! ## Failing only when it must -/

/-- Only the last block has room for `size` bytes of data, and it has room for no
more. -/
def Heap.OnlyLastFits (heap : Heap) (size : Nat) (blocks : List Nat) : Prop :=
  (∃ block ∈ blocks, heap.Fits size block) ∧
    ∀ block ∈ blocks, heap.Fits size block → block + 12 + size = heap.heapEnd

/-- While no `rt_realloc` leaves a free block below `lfree`, `lfree` is the lowest
free block, and `rt_malloc` fails only when no block fits or the last block alone
does, and exactly. -/
theorem malloc_finds {magic : Nat → BitVec 16} {used : Nat → Bool} {links : Links Nat}
    {beginAddr endAddr : BitVec 32} {heap : Heap} {calls : List HeapCall} {pointers : List Nat}
    {system : HeapSystem} {blocks : List Nat}
    (init : rtSystemHeapInit magic used links beginAddr endAddr = some heap)
    (run : heapMachine.Run (fun system call => system.OwnsArgument call ∧ system.CutsAbove call)
      ⟨heap, []⟩ calls pointers system)
    (kept : HeapKept system blocks) :
    system.heap.Lowest blocks ∧ ∀ size : BitVec 32, size ≠ 0#32 →
      size.toNat ≤ system.heap.memSizeAligned → ∀ next pointer,
        rtMalloc system.heap size = some (next, pointer) →
          ((pointer = 0 → ∀ block ∈ blocks, ¬ system.heap.Fits (requestSize size) block) ↔
            ¬ system.heap.OnlyLastFits (requestSize size) blocks) := by
  have fresh := rtSystemHeapInit_fresh init
  obtain ⟨multiple, bound⟩ := rtSystemHeapInit_size init
  rcases heap_reached init (fun _ _ admitted => admitted.1) run with
    ⟨blocks', inv, lowest⟩ | ⟨small, rfl⟩
  · obtain rfl := kept.unique inv.kept
    have lower := lowest fun _ _ admitted => admitted.2
    refine ⟨lower, fun size nonzero within next pointer result => ?_⟩
    have ends := inv.ends
    simp only [Heap.heapEnd] at ends
    have admits : system.heap.Admits size := by
      refine ⟨nonzero, ?_⟩
      rw [rtAlign_toNat (by omega)]
      omega
    rcases inv.malloc_cases size with
      ⟨refused, misses⟩ | ⟨-, left, mem, right, next', rfl, offers, -, -, -, taken⟩
    · obtain ⟨-, rfl⟩ := Prod.mk.inj (Option.some_inj.mp (result.symm.trans refused))
      constructor
      · rintro none_ ⟨⟨block, member, fits⟩, -⟩
        exact none_ rfl block member fits
      · intro others _ block member fits
        refine others ⟨⟨block, member, fits⟩, fun other there fits' => ?_⟩
        -- a block that the search passes over begins too late for a larger one
        have low := lower other there fits'.1
        have late : ¬ other < system.heap.memSizeAligned - requestSize size :=
          fun early => misses admits other there ⟨low, early, fits'⟩
        have room := fits'.2
        have touches := inv.tiles.next_le_last there
        simp only [Heap.heapEnd] at touches ⊢
        unfold requestSize at room late ⊢
        omega
    · obtain ⟨-, rfl⟩ := Prod.mk.inj (Option.some_inj.mp (result.symm.trans taken))
      refine iff_of_true (fun null => by omega) ?_
      rintro ⟨-, all⟩
      have atEnd := all mem (by simp) offers.2.2
      have early := offers.2.1
      simp only [Heap.heapEnd] at atEnd
      omega
  · refine ⟨fun block _ _ => ?_, fun size nonzero within next pointer result => ?_⟩
    · rw [fresh.lfree]
      exact Nat.zero_le _
    · dsimp only at within
      refine absurd ⟨nonzero, ?_⟩ (fresh.malloc small result).1
      rw [rtAlign_toNat (by omega)]
      omega

/-- A kilobyte, from which 40 bytes have been taken. -/
theorem malloc_finds_one_block : ∃ system blocks, HeapKept system blocks ∧
    system.heap.memSizeAligned = 1000 ∧ system.heap.Lowest blocks ∧
    ∀ next pointer, rtMalloc system.heap 100#32 = some (next, pointer) →
      ((pointer = 0 → ∀ block ∈ blocks, ¬ system.heap.Fits (requestSize 100#32) block) ↔
        ¬ system.heap.OnlyLastFits (requestSize 100#32) blocks) := by
  obtain ⟨heap, init, size⟩ : ∃ heap, rtSystemHeapInit (fun _ => 0) (fun _ => false)
      ⟨fun _ => 0, fun _ => 0⟩ 0x1000#32 0x1400#32 = some heap ∧ heap.memSizeAligned = 1000 :=
    ⟨_, rfl, by decide⟩
  have inv := rtSystemHeapInit_inv init (by omega)
  obtain ⟨system, pointer, step, blocks, inv', -⟩ :=
    @HeapInv.step _ _ ⟨heap, []⟩ [0] inv (.malloc 40#32) trivial
  have run : heapMachine.Run
      (fun system call => system.OwnsArgument call ∧ system.CutsAbove call) ⟨heap, []⟩
      [.malloc 40#32] [pointer] system := .snoc .nil ⟨trivial, trivial⟩ step
  have kept := inv'.kept
  have same : system.heap.memSizeAligned = 1000 := by
    have ends := inv'.ends
    simp only [Heap.heapEnd] at ends
    omega
  obtain ⟨lowest, finds⟩ := malloc_finds init run kept
  refine ⟨system, blocks, kept, same, lowest, finds 100#32 (by decide) ?_⟩
  rw [same]
  decide

/-! ### Where `rt_malloc` misses a block -/

theorem rtMalloc_taken {heap next : Heap} {size : BitVec 32} {mem : Nat}
    (admits : heap.Admits size)
    (found : heap.findFit (requestSize size) heap.lfree = some (some mem))
    (taken : (heap.occupy mem (requestSize size)).advanceFree mem = some next)
    (asserts : mem + 12 + requestSize size ≤ next.heapEnd ∧
      (next.heapPtr + mem + 12) % 4 = 0 ∧ (next.heapPtr + mem) % 4 = 0) :
    rtMalloc heap size = some (next, next.heapPtr + mem + 12) := by
  unfold rtMalloc
  rw [if_neg admits.1]
  dsimp only
  rw [if_neg (Nat.not_lt_of_le admits.2), requestSize_eq]
  simp only [found, taken, Option.bind_eq_bind, Option.bind_some, if_pos asserts]

/-- A free block between a used one and the sentinel stays as it is. -/
theorem Heap.plugHoles_last {heap : Heap} {mem : Nat} (below : mem < heap.heapEnd)
    (unused : heap.used mem = false) (next : heap.links.next mem = heap.heapEnd)
    (prev : heap.used (heap.links.prev mem) = true) : heap.plugHoles mem = some heap := by
  have forward : heap.plugForward mem = heap := if_neg fun merges => merges.2.2 next
  have backward : heap.plugBackward mem = heap := if_neg (by simp [prev])
  rw [Heap.plugHoles, if_pos ⟨below, unused⟩, forward, backward]

theorem HeapKept.next_mem {system : HeapSystem} {blocks : List Nat} {block : Nat}
    (kept : HeapKept system blocks) (member : block ∈ blocks)
    (inside : system.heap.links.next block ≠ system.heap.heapEnd) :
    system.heap.links.next block ∈ blocks := by
  obtain ⟨left, right, rfl⟩ := List.append_of_mem member
  have visits := kept.visits
  cases right with
  | nil =>
      rw [List.append_assoc, List.cons_append, List.nil_append] at visits
      exact absurd (List.isChain_append_cons_cons.mp visits).2.1.1 inside
  | cons second right =>
      rw [List.append_assoc, List.cons_append, List.cons_append] at visits
      rw [(List.isChain_append_cons_cons.mp visits).2.1.1]
      simp

/-- A kilobyte: 1000 bytes are refused although the only block has 1000. When 996 of
them have been taken and all but 100 been cut off again, `lfree` is the sentinel and
nothing is found any more. -/
theorem malloc_misses : ∃ heap system pointers blocks,
    rtSystemHeapInit (fun _ => 0) (fun _ => false) ⟨fun _ => 0, fun _ => 0⟩ 0x1000#32 0x1400#32 =
      some heap ∧ heap.memSizeAligned = 1000 ∧
    (rtMalloc heap 1000#32 = some (heap, 0) ∧ HeapKept ⟨heap, []⟩ [0] ∧
      heap.Fits (requestSize 1000#32) 0) ∧
    heapMachine.Run HeapSystem.OwnsArgument ⟨heap, []⟩
      [.malloc 996#32, .realloc 0x100c 100#32] pointers system ∧
    rtMalloc system.heap 4#32 = some (system.heap, 0) ∧ HeapKept system blocks ∧
      112 ∈ blocks ∧ system.heap.Fits (requestSize 4#32) 112 := by
  obtain ⟨heap, init, size, base⟩ : ∃ heap, rtSystemHeapInit (fun _ => 0) (fun _ => false)
      ⟨fun _ => 0, fun _ => 0⟩ 0x1000#32 0x1400#32 = some heap ∧ heap.memSizeAligned = 1000 ∧
        heap.heapPtr = 0x1000 := ⟨_, rfl, by decide, by decide⟩
  have fresh := rtSystemHeapInit_fresh init
  have inv := rtSystemHeapInit_inv init (by omega)
  have ends : heap.heapEnd = 1012 := by rw [Heap.heapEnd, size]
  have onward : heap.links.next 0 = 1012 := fresh.next.trans ends
  have whole : requestSize 1000#32 = 1000 := by decide
  have most : requestSize 996#32 = 996 := by decide
  have least : requestSize 4#32 = 12 := by decide
  -- the search for 1000 bytes does not begin
  have refused : rtMalloc heap 1000#32 = some (heap, 0) := by
    rcases inv.malloc_cases 1000#32 with ⟨result, -⟩ | ⟨-, left, mem, right, -, -, offers, -⟩
    · exact result
    · have early := offers.2.1
      rw [whole, size] at early
      omega
  have tight : ¬ 996 + 24 ≤ heap.links.next 0 - (0 + 12) := by omega
  -- all of the block is taken, and `lfree` runs on to the sentinel
  obtain ⟨full, fullEq⟩ : ∃ full : Heap, full = { heap.occupy 0 996 with lfree := 1012 } := ⟨_, rfl⟩
  have taken : rtMalloc heap 996#32 = some (full, 0x100c) := by
    have found : heap.findFit 996 0 = some (some 0) := by
      rw [Heap.findFit, if_pos (by simp [Heap.searchEnd, size])]
      exact if_pos ⟨fresh.unused, by omega⟩
    have sentinel : (heap.occupy 0 996).findFree 0 = some 1012 := by
      rw [Heap.occupy_whole tight, Heap.findFree, if_pos (by simp [Heap.heapEnd])]
      dsimp only
      rw [onward, Heap.findFree, if_neg]
      simp [Heap.heapEnd, size]
    have advanced : (heap.occupy 0 996).advanceFree 0 = some full := by
      have start : (heap.occupy 0 996).lfree = 0 := by
        rw [Heap.occupy_whole tight]
        exact fresh.lfree
      rw [Heap.advanceFree, if_pos start.symm, start, sentinel, fullEq]
      refine if_pos (Or.inl ?_)
      rw [Heap.occupy_whole tight]
      exact ends.symm
    have result := @rtMalloc_taken heap full 996#32 0 ⟨by decide, by rw [size]; decide⟩
      (by rw [most, fresh.lfree]; exact found) (by rw [most]; exact advanced)
      (by rw [most, fullEq, Heap.occupy_whole tight]; simp [Heap.heapEnd, size, base])
    rw [result, fullEq, Heap.occupy_whole tight]
    simp [base]
  rw [Heap.occupy_whole tight] at fullEq
  obtain ⟨next, pointer, step, blocks, inv', -⟩ :=
    @HeapInv.step _ _ ⟨heap, []⟩ [0] inv (.malloc 996#32) trivial
  have step' : heapMachine.step ⟨heap, []⟩ (.malloc 996#32) =
      some (⟨full, [0x100c]⟩, [0x100c]) := by
    simp [heapMachine, HeapCall.apply, HeapCall.follow, taken]
  obtain ⟨rfl, -⟩ := Prod.mk.inj (Option.some_inj.mp (step.symm.trans step'))
  -- the rest of the block becomes free below `lfree`
  obtain ⟨cut, cutEq⟩ : ∃ cut, cut = full.cutBlock 0 100 := ⟨_, rfl⟩
  have fields : cut.heapEnd = 1012 ∧ cut.lfree = 1012 ∧ cut.used 0 = true ∧
      cut.used 112 = false ∧ cut.links.next 0 = 112 ∧ cut.links.next 112 = 1012 ∧
        cut.links.prev 112 = 0 := by
    rw [cutEq, fullEq]
    simp [Heap.cutBlock, Heap.splitBlock, Heap.setMagic, Heap.setUsed, Heap.setNext, Heap.setPrev,
      Links.setNext, Links.setPrev, Heap.heapEnd, size, onward]
  obtain ⟨cutEnds, cutFree, usedFirst, unused, first, last, back⟩ := fields
  have shape : full.memSizeAligned = 1000 ∧ full.links.next 0 = 1012 := by
    rw [fullEq]
    exact ⟨size, onward⟩
  have hundred : (rtAlign 100#32).toNat = 100 := by decide
  have shrunk : rtRealloc full 0x100c 100#32 = some (cut, 0x100c) := by
    obtain ⟨left, right, rfl⟩ := List.append_of_mem (List.mem_of_mem_head? inv'.start)
    have cases := inv'.realloc_cases 100#32
    rw [hundred, shape.1, shape.2, base] at cases
    rcases cases with ⟨large, -⟩ | ⟨same, -⟩ | ⟨-, result⟩ | ⟨near, -⟩
    · omega
    · omega
    · refine result.trans ?_
      rw [← cutEq, Heap.plugHoles_last (by omega) unused (last.trans cutEnds.symm)
        (by rw [back]; exact usedFirst)]
      rfl
    · omega
  have cutStep : heapMachine.step ⟨full, [0x100c]⟩ (.realloc 0x100c 100#32) =
      some (⟨cut, [0x100c]⟩, [0x100c]) := by
    simp [heapMachine, HeapCall.apply, HeapCall.follow, shrunk]
  have run : heapMachine.Run HeapSystem.OwnsArgument ⟨heap, []⟩
      [.malloc 996#32, .realloc 0x100c 100#32] [0x100c, 0x100c] ⟨cut, [0x100c]⟩ :=
    .snoc (.snoc .nil trivial step') (Or.inr (List.mem_singleton.mpr rfl)) cutStep
  obtain ⟨blocks'', reached⟩ := (heap_reached init (fun _ _ owns => owns) run).resolve_right
    (by rw [size]; omega)
  have kept := reached.1.kept
  have member : 112 ∈ blocks'' := by
    have visited := kept.next_mem (List.mem_of_mem_head? kept.start)
      (by rw [first, cutEnds]; decide)
    rwa [first] at visited
  have nothing : rtMalloc cut 4#32 = some (cut, 0) := by
    rcases reached.1.malloc_cases 4#32 with ⟨result, -⟩ | ⟨-, left, mem, right, -, -, offers, -⟩
    · exact result
    · have above := offers.1
      have early := offers.2.1
      simp only [Heap.heapEnd] at above early cutEnds
      omega
  exact ⟨heap, ⟨cut, [0x100c]⟩, _, blocks'', init, size, ⟨refused, inv.kept,
    fresh.unused, by rw [whole]; omega⟩, run, nothing, kept, member, unused,
    by rw [least, last]; decide⟩

end RtThread
