import RtThread.Std.Chain
import RtThread.Kernel.MemPool

/-!
# Runs of a memory pool

Every block is free or in use, and the list and the counter of the free blocks
agree, as long as each thread that `rt_mp_free` resumes still finds a block.
-/

namespace RtThread

open RtThread.Std

namespace MemPool

variable {mp : MemPool}

/-- The addresses of the blocks. -/
def blocks (mp : MemPool) : List Nat := (List.range mp.blockTotalCount.toNat).map mp.block

theorem block_injective (mp : MemPool) : Function.Injective mp.block := by
  intro offset offset' same
  have equal : offset * (mp.blockSize.toNat + 4) = offset' * (mp.blockSize.toNat + 4) :=
    Nat.add_left_cancel same
  exact Nat.eq_of_mul_eq_mul_right (by omega) equal

theorem blocks_nodup (mp : MemPool) : mp.blocks.Nodup :=
  List.nodup_range.map mp.block_injective

theorem zero_notMem_blocks (placed : 0 < mp.startAddress) : 0 ∉ mp.blocks := by
  intro member
  obtain ⟨offset, -, equal⟩ := List.mem_map.mp member
  rw [block] at equal
  omega

/-- What `rt_mp_init` and `rt_mp_create` build: a pool with at least one block,
in memory that is not at `RT_NULL` and holds all blocks. -/
inductive Built : MemPool → Prop where
  | init (word : Nat → Nat) (address start : Nat) (size blockSize : BitVec 32)
      (placed : 0 < start)
      (some_ : (rtMpInit word address start size blockSize).blockTotalCount ≠ 0#32) :
      Built (rtMpInit word address start size blockSize)
  | create (word : Nat → Nat) (address start : Nat) (blockCount blockSize : BitVec 32)
      (placed : 0 < start) (some_ : blockCount ≠ 0#32)
      (whole : ((rtAlign blockSize).toNat + 4) * blockCount.toNat < 2 ^ 32) :
      Built (rtMpCreate word address start blockCount blockSize)

/-! ## Setting up a pool -/

/-- What the loops over the blocks leave alone. -/
def header (mp : MemPool) : Nat × Nat × BitVec 32 × BitVec 32 × BitVec 32 :=
  (mp.address, mp.startAddress, mp.blockSize, mp.blockTotalCount, mp.blockFreeCount)

theorem linkBlocks_header (mp : MemPool) (count : Nat) :
    (mp.linkBlocks count).header = mp.header := by
  induction count with
  | zero => rfl
  | succ count ih => exact ih

theorem block_congr {mp' : MemPool} (same : mp'.header = mp.header) : mp'.block = mp.block := by
  simp only [header, Prod.mk.injEq] at same
  funext offset
  rw [block, block, same.2.1, same.2.2.1]

/-- The loop links every block it has passed. -/
theorem linkBlocks_word (mp : MemPool) {offset count : Nat} (passed : offset < count) :
    (mp.linkBlocks count).word (mp.block offset) = mp.block (offset + 1) := by
  induction count with
  | zero => cases passed
  | succ count ih =>
      rw [linkBlocks, setWord_word]
      by_cases last : offset = count
      · rw [last, Function.update_self]
      · rw [Function.update_of_ne (mp.block_injective.ne last)]
        exact ih (by omega)

theorem initList_total (mp : MemPool) : mp.initList.blockTotalCount = mp.blockTotalCount :=
  congrArg (fun header => header.2.2.2.1) (mp.linkBlocks_header _)

/-- The last block is the end of the list. -/
theorem initList_word (mp : MemPool) {offset : Nat} (bound : offset < mp.blockTotalCount.toNat) :
    mp.initList.word (mp.block offset) =
      if offset + 1 = mp.blockTotalCount.toNat then 0 else mp.block (offset + 1) := by
  have same := block_congr (mp.linkBlocks_header mp.blockTotalCount.toNat)
  have total : (mp.linkBlocks mp.blockTotalCount.toNat).blockTotalCount = mp.blockTotalCount :=
    congrArg (fun header => header.2.2.2.1) (mp.linkBlocks_header _)
  simp only [initList, setWord_word, same, total]
  split
  · rename_i last
    have here : mp.blockTotalCount.toNat - 1 = offset := by omega
    rw [here, Function.update_self]
  · rename_i more
    have apart : offset ≠ mp.blockTotalCount.toNat - 1 := by omega
    rw [Function.update_of_ne (mp.block_injective.ne apart)]
    exact mp.linkBlocks_word bound

/-- The blocks from one on are a list. -/
theorem initList_chain_from (mp : MemPool) (placed : 0 < mp.startAddress) (count offset : Nat)
    (rest : offset + count = mp.blockTotalCount.toNat) :
    Chain mp.initList.word 0 (if offset = mp.blockTotalCount.toNat then 0 else mp.block offset)
      ((List.range' offset count).map mp.block) := by
  induction count generalizing offset with
  | zero =>
      rw [if_pos (by omega)]
      rfl
  | succ count ih =>
      rw [if_neg (by omega), List.range'_succ, List.map_cons]
      refine ⟨rfl, ?_, ?_⟩
      · rw [block]
        omega
      · rw [mp.initList_word (by omega)]
        exact ih (offset + 1) (by omega)

theorem initList_chain (mp : MemPool) (placed : 0 < mp.startAddress)
    (some_ : mp.blockTotalCount ≠ 0#32) :
    Chain mp.initList.word 0 mp.initList.blockList mp.blocks := by
  have positive : mp.blockTotalCount.toNat ≠ 0 := fun zero =>
    some_ (BitVec.eq_of_toNat_eq zero)
  have chain := mp.initList_chain_from placed mp.blockTotalCount.toNat 0 (Nat.zero_add _)
  have first : mp.block 0 = mp.startAddress := by
    rw [block, Nat.zero_mul, Nat.add_zero]
  have head : mp.initList.blockList = mp.startAddress :=
    congrArg (fun header => header.2.1) (mp.linkBlocks_header _)
  rw [if_neg positive.symm, first] at chain
  rw [head, blocks, List.range_eq_range']
  exact chain

end MemPool

/-! ## The blocks in use -/

/-- Each block is free, or one of the pointers in use points behind its first word. -/
structure PoolInv (built mp : MemPool) (live free used : List Nat) : Prop where
  chain : Chain mp.word 0 mp.blockList free
  count : mp.blockFreeCount.toNat = free.length
  split : (free ++ used).Perm built.blocks
  handed : live = used.map (· + 4)
  owned : ∀ block ∈ used, mp.word block = mp.address

namespace PoolInv

variable {built mp : MemPool} {live free used : List Nat}

theorem nodup (inv : PoolInv built mp live free used) : (free ++ used).Nodup :=
  inv.split.nodup_iff.mpr built.blocks_nodup

/-- Take a block when there is one. -/
theorem take (inv : PoolInv built mp live free used) (available : mp.blockFreeCount ≠ 0#32) :
    ∃ rest, PoolInv built mp.take ((mp.blockList + 4) :: live) rest (mp.blockList :: used) := by
  have count := inv.count
  have nodup := inv.nodup
  cases free with
  | nil => exact absurd (BitVec.eq_of_toNat_eq count) available
  | cons block rest =>
      obtain ⟨rfl, nonnull, chain⟩ := inv.chain
      rw [List.cons_append, List.nodup_cons, List.mem_append, not_or] at nodup
      have fresh := nodup.1
      refine ⟨rest, chain.update fresh.1 _, ?_, ?_, ?_, ?_⟩
      · change (mp.blockFreeCount - 1#32).toNat = rest.length
        rw [List.length_cons] at count
        bv_omega
      · exact List.perm_middle.trans inv.split
      · rw [inv.handed, List.map_cons]
      · intro block member
        simp only [MemPool.take, MemPool.setWord_word]
        rcases List.mem_cons.mp member with rfl | member
        · exact Function.update_self ..
        · have apart : block ≠ mp.blockList := by
            rintro rfl
            exact fresh.2 member
          rw [Function.update_of_ne apart]
          exact inv.owned block member

/-- Put a block back that is in use. -/
theorem put {block : Nat} (inv : PoolInv built mp live free used)
    (placed : 0 ∉ built.blocks) (inUse : block ∈ used) :
    PoolInv built (mp.put block) (live.erase (block + 4)) (block :: free) (used.erase block) := by
  have nodup := List.nodup_append.mp inv.nodup
  have fresh : block ∉ free := fun member => nodup.2.2 block member block inUse rfl
  have known : block ∈ built.blocks := inv.split.subset (List.mem_append_right _ inUse)
  have nonnull : block ≠ 0 := fun zero => placed (zero ▸ known)
  have joined : (block :: free ++ used.erase block).Perm (free ++ used) :=
    List.perm_middle.symm.trans ((List.perm_cons_erase inUse).symm.append_left free)
  refine ⟨inv.chain.push fresh nonnull, ?_, joined.trans inv.split, ?_, ?_⟩
  · have fewer : free.length < built.blocks.length := by
      have total := inv.split.length_eq
      have positive := List.length_pos_of_mem inUse
      rw [List.length_append] at total
      omega
    have bound := built.blockTotalCount.isLt
    rw [MemPool.blocks, List.length_map, List.length_range] at fewer
    have count := inv.count
    change (mp.blockFreeCount + 1#32).toNat = (block :: free).length
    rw [List.length_cons]
    bv_omega
  · have injective : Function.Injective fun block : Nat => block + 4 :=
      fun _ _ same => Nat.add_right_cancel same
    rw [inv.handed, List.map_erase injective]
  · intro other member
    have apart : other ≠ block := (nodup.2.1.mem_erase_iff.mp member).1
    simp only [MemPool.put, MemPool.setWord_word]
    rw [Function.update_of_ne apart]
    exact inv.owned other (List.mem_of_mem_erase member)

end PoolInv

/-! ## Steps -/

/-- What a step does to the pool and to the pointers in use. -/
inductive MpEffect (system : MpSystem) (action : MpAction) : MemPool → List Nat → Prop where
  | keeps (count : BitVec 32) :
      MpEffect system action { system.mp with suspendThreadCount := count } system.live
  | takes (relies : system.mp.blockFreeCount ≠ 0#32 ∨
        ∃ context call, action = .advance context ∧ system.frames context = some (call, .resumed)) :
      MpEffect system action system.mp.take ((system.mp.blockList + 4) :: system.live)
  | puts (context : Context) (block : Nat) (count : BitVec 32)
      (frees : action = .enter context (.free block)) :
      MpEffect system action { system.mp.put (block - 4) with suspendThreadCount := count }
        (system.live.erase block)

section

variable {system next : MpSystem} {action : MpAction} {emitted : List MpEvent}

theorem MpEffect.enter_alloc {context : Context} {time : BitVec 32}
    {result : Kernel × MemPool × MpOutcome}
    (step : rtMpAlloc system.kernel system.mp context time = some result) :
    MpEffect system action (system.settle context (.alloc time) result).1.mp
      ((system.settle context (.alloc time) result).2.foldl MpEvent.follow system.live) := by
  unfold rtMpAlloc at step
  split at step
  · rename_i available
    obtain rfl := Option.some_inj.mp step
    exact .takes (Or.inl available)
  split at step
  · obtain rfl := Option.some_inj.mp step
    exact .keeps system.mp.suspendThreadCount
  cases context with
  | handler index => cases step
  | thread thread =>
      dsimp only at step
      split at step
      · obtain ⟨⟨timer, kernel⟩, -, done⟩ := Option.bind_eq_some_iff.mp step
        obtain rfl := Option.some_inj.mp done
        exact .keeps (system.mp.suspendThreadCount + 1#32)
      · obtain rfl := Option.some_inj.mp step
        exact .keeps (system.mp.suspendThreadCount + 1#32)

theorem MpEffect.enter_free {context : Context} {block : Nat}
    {result : Kernel × MemPool × MpOutcome}
    (step : rtMpFree system.kernel system.mp block = some result) :
    MpEffect system (.enter context (.free block))
      (system.settle context (.free block) result).1.mp
      ((MpSystem.marks context (.free block) ++ (system.settle context (.free block) result).2).foldl
        MpEvent.follow system.live) := by
  unfold rtMpFree at step
  dsimp only at step
  split at step
  case isFalse => cases step
  split at step
  · split at step
    · obtain rfl := Option.some_inj.mp step
      exact .puts context block (system.mp.suspendThreadCount - 1#32) rfl
    · cases step
  · obtain rfl := Option.some_inj.mp step
    exact .puts context block system.mp.suspendThreadCount rfl

theorem MpEffect.advance {context : Context} {call : MpCall} {point : MpPoint}
    (at_ : system.frames context = some (call, point))
    (step : system.advanceFrame context call point = some (next, emitted)) :
    MpEffect system (.advance context) next.mp (emitted.foldl MpEvent.follow system.live) := by
  cases point with
  | suspended =>
      obtain ⟨rfl, rfl⟩ := Prod.mk.inj (Option.some_inj.mp step)
      exact .keeps system.mp.suspendThreadCount
  | reschedule =>
      obtain ⟨rfl, rfl⟩ := Prod.mk.inj (Option.some_inj.mp step)
      exact .keeps system.mp.suspendThreadCount
  | resumed =>
      obtain ⟨rfl, rfl⟩ := Prod.mk.inj (Option.some_inj.mp step)
      exact .takes (Or.inr ⟨context, call, rfl, at_⟩)
  | woken =>
      cases context with
      | handler index => cases step
      | thread thread =>
          simp only [MpSystem.advanceFrame] at step
          split at step
          · obtain ⟨rfl, rfl⟩ := Prod.mk.inj (Option.some_inj.mp step)
            exact .keeps system.mp.suspendThreadCount
          · obtain ⟨rfl, rfl⟩ := Prod.mk.inj (Option.some_inj.mp step)
            exact .keeps system.mp.suspendThreadCount

theorem MpEffect.of_step (step : mpMachine.step system action = some (next, emitted)) :
    MpEffect system action next.mp next.live := by
  obtain ⟨⟨middle, events⟩, applied, done⟩ := Option.map_eq_some_iff.mp step
  obtain ⟨rfl, rfl⟩ := Prod.mk.inj done
  dsimp only
  cases action with
  | around change =>
      obtain ⟨kernel, -, done⟩ := Option.map_eq_some_iff.mp applied
      obtain ⟨rfl, rfl⟩ := Prod.mk.inj done
      exact .keeps system.mp.suspendThreadCount
  | enter context call =>
      change system.enter context call = some (middle, events) at applied
      unfold MpSystem.enter at applied
      split at applied
      case isFalse => cases applied
      obtain ⟨result, first, done⟩ := Option.bind_eq_some_iff.mp applied
      obtain ⟨rfl, rfl⟩ := Prod.mk.inj (Option.some_inj.mp done)
      cases call with
      | alloc time => exact .enter_alloc first
      | free block => exact .enter_free first
  | advance context =>
      change system.advance context = some (middle, events) at applied
      unfold MpSystem.advance at applied
      split at applied
      case isFalse => cases applied
      obtain ⟨⟨call, point⟩, at_, applied⟩ := Option.bind_eq_some_iff.mp applied
      exact .advance at_ applied

end

/-! ## Runs -/

namespace MpSystem

/-- Only pointers that have been returned are freed, and each only once. -/
def FreesLive (system : MpSystem) : MpAction → Prop
  | .enter _ (.free block) => block ∈ system.live
  | _ => True

/-- A resumed thread finds a block when it executes its second section, and
`rt_mp_free` finds a thread on the list when `suspend_thread_count` says so. -/
def StillServed (system : MpSystem) : MpAction → Prop
  | .enter _ (.free _) => system.mp.suspendThreadCount ≠ 0#32 →
    system.kernel.threadLinks.isEmpty (.wait (.mempool 0)) = false
  | .advance context => (system.frames context).map Prod.snd = some .resumed →
    system.mp.blockFreeCount ≠ 0#32
  | _ => True

instance (system : MpSystem) : DecidablePred system.FreesLive
  | .around _ => inferInstanceAs (Decidable True)
  | .enter _ (.alloc _) => inferInstanceAs (Decidable True)
  | .enter _ (.free block) => inferInstanceAs (Decidable (block ∈ system.live))
  | .advance _ => inferInstanceAs (Decidable True)

instance (system : MpSystem) : DecidablePred system.StillServed
  | .around _ => inferInstanceAs (Decidable True)
  | .enter _ (.alloc _) => inferInstanceAs (Decidable True)
  | .enter _ (.free _) => inferInstanceAs (Decidable (system.mp.suspendThreadCount ≠ 0#32 →
      system.kernel.threadLinks.isEmpty (.wait (.mempool 0)) = false))
  | .advance context => inferInstanceAs (Decidable ((system.frames context).map Prod.snd =
      some .resumed → system.mp.blockFreeCount ≠ 0#32))

end MpSystem

/-- The pool that was `built` has lost no block and has none in two places. -/
structure PoolKept (built : MemPool) (system : MpSystem) : Prop where
  /-- The free blocks are those on the list, the counter counts them, and the
  other blocks are those in use. -/
  shared : ∃ free used, Chain system.mp.word 0 system.mp.blockList free ∧
    system.mp.blockFreeCount.toNat = free.length ∧ (free ++ used).Perm built.blocks ∧
    system.live = used.map (· + 4)
  /-- `block_total_count` blocks. -/
  total : built.blocks.Nodup ∧ built.blocks.length = built.blockTotalCount.toNat
  /-- No pointer is handed out that is in use. -/
  distinct : system.live.Nodup

section

variable {built : MemPool} {config : Config} {system next : MpSystem} {action : MpAction}
  {actions : List MpAction} {events emitted : List MpEvent} {live free used : List Nat}

theorem PoolInv.kept (inv : PoolInv built system.mp system.live free used) :
    PoolKept built system := by
  refine ⟨⟨free, used, inv.chain, inv.count, inv.split, inv.handed⟩,
    ⟨built.blocks_nodup, by simp [MemPool.blocks]⟩, ?_⟩
  rw [inv.handed]
  have injective : Function.Injective fun block : Nat => block + 4 :=
    fun _ _ same => Nat.add_right_cancel same
  exact (List.nodup_append.mp inv.nodup).2.1.map injective

/-- A pool that has been set up has all its blocks on the list. -/
theorem PoolInv.initial (mp : MemPool) (placed : 0 < mp.startAddress)
    (some_ : mp.blockTotalCount ≠ 0#32) (full : mp.blockFreeCount = mp.blockTotalCount) :
    PoolInv mp.initList mp.initList [] mp.initList.blocks [] ∧ 0 ∉ mp.initList.blocks := by
  have same : mp.initList.header = mp.header := mp.linkBlocks_header _
  have total := mp.initList_total
  have free : mp.initList.blockFreeCount = mp.blockFreeCount :=
    congrArg (fun header => header.2.2.2.2) same
  have blocks : mp.initList.blocks = mp.blocks := by
    rw [MemPool.blocks, MemPool.blocks, MemPool.block_congr same, total]
  refine ⟨⟨?_, ?_, by simp, rfl, nofun⟩, ?_⟩
  · rw [blocks]
    exact mp.initList_chain placed some_
  · rw [blocks, free, full]
    simp [MemPool.blocks]
  · rw [blocks]
    exact MemPool.zero_notMem_blocks placed

theorem MemPool.Built.inv {mp : MemPool} (built : mp.Built) :
    PoolInv mp mp [] mp.blocks [] ∧ 0 ∉ mp.blocks := by
  cases built with
  | init word address start size blockSize placed some_ =>
      refine PoolInv.initial _ placed ?_ rfl
      exact fun none_ => some_ ((MemPool.initList_total _).trans none_)
  | create word address start blockCount blockSize placed some_ whole =>
      exact PoolInv.initial _ placed some_ rfl

/-- Any step that the condition admits. -/
theorem PoolInv.step (inv : PoolInv built system.mp system.live free used)
    (placed : 0 ∉ built.blocks) (contract : system.FreesLive action)
    (served : system.StillServed action)
    (step : mpMachine.step system action = some (next, emitted)) :
    ∃ free used, PoolInv built next.mp next.live free used := by
  have effect := MpEffect.of_step step
  generalize next.mp = mp at effect
  generalize next.live = live at effect
  cases effect with
  | keeps count => exact ⟨free, used, inv.chain, inv.count, inv.split, inv.handed, inv.owned⟩
  | takes relies =>
      have available : system.mp.blockFreeCount ≠ 0#32 := by
        rcases relies with available | ⟨context, call, rfl, at_⟩
        · exact available
        · exact served (by rw [at_]; rfl)
      obtain ⟨rest, taken⟩ := inv.take available
      exact ⟨rest, _, taken⟩
  | puts context block count frees =>
      subst frees
      have inUse : block ∈ used.map (· + 4) := inv.handed ▸ contract
      obtain ⟨blockPtr, member, rfl⟩ := List.mem_map.mp inUse
      rw [Nat.add_sub_cancel]
      have put := inv.put placed member
      exact ⟨_, _, put.chain, put.count, put.split, put.handed, put.owned⟩

theorem PoolInv.of_run (built' : built.Built)
    (run : mpMachine.Run (fun system action => system.FreesLive action ∧ system.StillServed action)
      (MpSystem.boot config built) actions events system) :
    ∃ free used, PoolInv built system.mp system.live free used := by
  obtain ⟨initial, placed⟩ := built'.inv
  have start : ∃ free used, PoolInv built (MpSystem.boot config built).mp
      (MpSystem.boot config built).live free used := ⟨_, _, initial⟩
  have inv := @Machine.Run.invariant _ _ _ _ _ _ _ _ _
    (fun system => ∃ free used, PoolInv built system.mp system.live free used) run start
  refine inv ?_
  rintro system action next emitted ⟨free, used, inv⟩ ⟨contract, served⟩ step
  exact inv.step placed contract served step

/-- The second section takes what it finds. -/
theorem MpSystem.step_resumed {context : Context} {call : MpCall}
    (at_ : system.frames context = some (call, .resumed))
    (step : mpMachine.step system (.advance context) = some (next, emitted)) :
    next.live = (system.mp.blockList + 4) :: system.live := by
  obtain ⟨⟨middle, events⟩, applied, done⟩ := Option.map_eq_some_iff.mp step
  obtain ⟨rfl, rfl⟩ := Prod.mk.inj done
  change system.advance context = some (middle, events) at applied
  unfold MpSystem.advance at applied
  split at applied
  case isFalse => cases applied
  rw [at_] at applied
  obtain ⟨-, rfl⟩ := Prod.mk.inj (Option.some_inj.mp applied)
  rfl

/-- A resumed thread that finds no block breaks the pool. -/
theorem PoolInv.broken {context : Context} {call : MpCall}
    (inv : PoolInv built system.mp system.live free used)
    (at_ : system.frames context = some (call, .resumed))
    (empty : system.mp.blockFreeCount = 0#32)
    (step : mpMachine.step system (.advance context) = some (next, emitted)) :
    ¬ PoolKept built next := by
  intro kept
  obtain ⟨free', used', -, -, split', handed'⟩ := kept.shared
  -- all blocks are in use, and one more pointer is
  have count := inv.count
  have total := inv.split.length_eq
  have total' := split'.length_eq
  have more := congrArg List.length (handed'.symm.trans (MpSystem.step_resumed at_ step))
  have before := congrArg List.length inv.handed
  rw [empty] at count
  simp only [List.length_append, List.length_map, List.length_cons] at total total' more before
  change 0 = free.length at count
  omega

end

/-- In every run whose steps meet the condition no block is lost or handed out
twice, and the first second section that does not meet it breaks the pool. -/
theorem pool_conservation {built : MemPool} {config : Config} {system : MpSystem}
    {actions : List MpAction} {events : List MpEvent} (pool : built.Built)
    (run : mpMachine.Run (fun system action => system.FreesLive action ∧ system.StillServed action)
      (MpSystem.boot config built) actions events system) :
    PoolKept built system ∧ ∀ context call next emitted,
      system.frames context = some (call, .resumed) → system.mp.blockFreeCount = 0#32 →
      mpMachine.step system (.advance context) = some (next, emitted) → ¬ PoolKept built next := by
  obtain ⟨free, used, inv⟩ := PoolInv.of_run pool run
  exact ⟨inv.kept, fun context call next emitted at_ empty step => inv.broken at_ empty step⟩

/-- Thread 1 has the only block, thread 0 waits for it, and thread 1 frees it. -/
def servedLate : List MpAction :=
  [.around (.threadStartup 0), .around (.threadStartup 1), .around .schedulerStart,
    .around (.switchTo 1), .enter (.thread 1) (.alloc 0), .around (.switchTo 0),
    .enter (.thread 0) (.alloc 0xffffffff), .advance (.thread 0), .around (.switchTo 1),
    .enter (.thread 1) (.free 0x1004), .advance (.thread 1)]

theorem pool_conservation_one_block :
    ∃ system events, mpMachine.execute
        (MpSystem.boot Config.plain (rtMpInit (fun _ => 0) 0x100 0x1000 8 4))
        (servedLate ++ [.around (.switchTo 0), .advance (.thread 0), .advance (.thread 0)]) =
          some (system, events) ∧
      system.live = [0x1004] ∧
      PoolKept (rtMpInit (fun _ => 0) 0x100 0x1000 8 4) system := by
  have final : ((mpMachine.restrict fun system action =>
        system.FreesLive action ∧ system.StillServed action).execute
      (MpSystem.boot Config.plain (rtMpInit (fun _ => 0) 0x100 0x1000 8 4))
      (servedLate ++ [.around (.switchTo 0), .advance (.thread 0), .advance (.thread 0)])).map
      (fun final => final.1.live) = some [0x1004] := by
    decide +kernel
  obtain ⟨⟨system, events⟩, success, live⟩ := Option.map_eq_some_iff.mp final
  have built : (rtMpInit (fun _ => 0) 0x100 0x1000 8 4).Built :=
    .init _ _ _ _ _ (by decide) (by decide)
  exact ⟨system, events, Machine.execute_of_restrict success, live,
    (pool_conservation built (Machine.run_of_execute_restrict success)).1⟩

/-- Thread 1 allocates once more before thread 0 executes. Then both have a
block, of one, and `block_free_count` is below zero. -/
theorem block_free_count_underflow :
    ∃ system events, mpMachine.Run (fun system action => system.FreesLive action)
        (MpSystem.boot Config.plain (rtMpInit (fun _ => 0) 0x100 0x1000 8 4))
        (servedLate ++ [.enter (.thread 1) (.alloc 0), .around (.switchTo 0), .advance (.thread 0),
          .advance (.thread 0)]) events system ∧
      (rtMpInit (fun _ => 0) 0x100 0x1000 8 4).Built ∧
      system.mp.blockFreeCount = 0xffffffff#32 ∧ system.live = [4, 0x1004] ∧
      ¬ PoolKept (rtMpInit (fun _ => 0) 0x100 0x1000 8 4) system := by
  have final : ((mpMachine.restrict fun system action => system.FreesLive action).execute
      (MpSystem.boot Config.plain (rtMpInit (fun _ => 0) 0x100 0x1000 8 4))
      (servedLate ++ [.enter (.thread 1) (.alloc 0), .around (.switchTo 0), .advance (.thread 0),
        .advance (.thread 0)])).map
      (fun final => (final.1.mp.blockFreeCount, final.1.live)) =
        some (0xffffffff#32, [4, 0x1004]) := by
    decide +kernel
  obtain ⟨⟨system, events⟩, success, values⟩ := Option.map_eq_some_iff.mp final
  obtain ⟨count, live⟩ := Prod.mk.inj values
  refine ⟨system, events, Machine.run_of_execute_restrict success,
    .init _ _ _ _ _ (by decide) (by decide), count, live, ?_⟩
  intro kept
  obtain ⟨free, used, -, -, split, handed⟩ := kept.shared
  have blocks : (rtMpInit (fun _ => 0) 0x100 0x1000 8 4).blocks.length = 1 := by decide
  have total := split.length_eq
  have two := congrArg List.length (live.symm.trans handed)
  rw [List.length_append] at total
  rw [List.length_map] at two
  simp only [List.length_cons, List.length_nil] at two
  omega

end RtThread
