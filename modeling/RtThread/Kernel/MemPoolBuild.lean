import RtThread.Kernel.MemPoolRuns

/-!
# Building a memory pool from any parameters

`rt_mp_init` and `rt_mp_create` with their 32-bit sizes and addresses. All the words that they
write are a multiple of 4 apart, so that two of them are the same or do not overlap.
-/

namespace RtThread

open RtThread.Std

/-- The words in memory, and the addresses that have been written. -/
structure PoolMemory where
  word : BitVec 32 → BitVec 32
  written : List (BitVec 32)

/-- What the two functions set in a `struct rt_mempool`. -/
structure BuiltPool where
  startAddress : BitVec 32
  size : BitVec 32
  blockSize : BitVec 32
  blockList : BitVec 32
  blockTotalCount : BitVec 32
  blockFreeCount : BitVec 32
  suspendThreadCount : BitVec 32

namespace PoolMemory

def write (memory : PoolMemory) (address value : BitVec 32) : PoolMemory :=
  ⟨Function.update memory.word address value, address :: memory.written⟩

/-- The loop over the blocks, up to `offset`; `stride` is
`block_size + sizeof(rt_uint8_t *)`. -/
def linkBlocks (memory : PoolMemory) (blockPtr stride : BitVec 32) : Nat → PoolMemory
  | 0 => memory
  | offset + 1 =>
      (memory.linkBlocks blockPtr stride offset).write
        (blockPtr + BitVec.ofNat 32 offset * stride)
        (blockPtr + (BitVec.ofNat 32 offset + 1) * stride)

/-- "initialize free block list"; the loop ends with `offset` at the number of blocks. -/
def initList (memory : PoolMemory) (blockPtr stride total : BitVec 32) : PoolMemory :=
  (memory.linkBlocks blockPtr stride total.toNat).write (blockPtr + (total - 1) * stride) 0

/-- `rt_mp_init`; a division by zero has no result. -/
def rtMpInit (memory : PoolMemory) (start size blockSize : BitVec 32) :
    Option (BuiltPool × PoolMemory) :=
  let size := rtAlignDown size
  let blockSize := rtAlign blockSize
  if blockSize + 4 = 0 then none
  else
    let total := size / (blockSize + 4)
    some (⟨start, size, blockSize, start, total, total, 0⟩,
      memory.initList start (blockSize + 4) total)

/-- `rt_mp_create`, where `object` is what `rt_object_allocate` returns and `malloc` is `rt_malloc`.
It returns `RT_NULL` if one of them does. -/
def rtMpCreate (malloc : BitVec 32 → BitVec 32) (memory : PoolMemory)
    (object blockCount blockSize : BitVec 32) : Option (BuiltPool × PoolMemory) :=
  if object = 0 then none
  else
    let blockSize := rtAlign blockSize
    let size := (blockSize + 4) * blockCount
    let start := malloc size
    if start = 0 then none
    else
      some (⟨start, size, blockSize, start, blockCount, blockCount, 0⟩,
        memory.initList start (blockSize + 4) blockCount)

end PoolMemory

/-- The words that were written lie in the `size` bytes from `start` on, and the block list is a
chain of `block_total_count` blocks there with `blockSize` bytes each behind the pointer. -/
structure ValidPool (start size : Nat) (blockSize : BitVec 32) (pool : BuiltPool)
    (memory : PoolMemory) : Prop where
  inside : ∀ address ∈ memory.written,
    start ≤ address.toNat ∧ address.toNat + 4 ≤ start + size
  chain : ∃ blocks, Chain memory.word 0 pool.blockList blocks ∧
    blocks.length = pool.blockTotalCount.toNat ∧
    (∀ block ∈ blocks, start ≤ block.toNat ∧
      block.toNat + 4 + blockSize.toNat ≤ start + size) ∧
    blocks.Pairwise fun block other => block.toNat + 4 + blockSize.toNat ≤ other.toNat ∨
      other.toNat + 4 + blockSize.toNat ≤ block.toNat

/-- `rt_malloc` returns `RT_NULL` for 0 bytes, and what it returns else is in the address space.
For sizes that are no multiple of 4, which `rt_mp_create` never asks for, nothing is said: above
`0xFFFFFFFC` they wrap around when they are aligned. -/
structure Mallocs (malloc : BitVec 32 → BitVec 32) : Prop where
  zero : malloc 0 = 0
  region : ∀ size, size.toNat % 4 = 0 → malloc size ≠ 0 →
    (malloc size).toNat + size.toNat ≤ 2 ^ 32

/-! ## How many blocks fit -/

theorem div_succ_le {width place other : Nat} (wide : 0 < width) (before : place + width ≤ other) :
    place / width + 1 ≤ other / width := by
  rw [← Nat.add_div_right _ wide]
  exact Nat.div_le_div_right before

/-- Ranges of `width` that do not overlap fill what they lie in. -/
theorem length_mul_le {width start size : Nat} {places : List Nat} (wide : 0 < width)
    (inside : ∀ place ∈ places, start ≤ place ∧ place + width ≤ start + size)
    (apart : places.Pairwise fun place other =>
      place + width ≤ other ∨ other + width ≤ place) : places.length * width ≤ size := by
  -- no two of them have the same quotient
  let slot (place : Nat) : Nat := (place - start) / width
  have distinct : (places.map slot).Nodup := by
    refine List.pairwise_map.mpr (apart.imp_of_mem fun {place other} member member' differ => ?_)
    have lower := (inside place member).1
    have lower' := (inside other member').1
    rcases differ with before | behind
    · have steps : slot place + 1 ≤ slot other := div_succ_le wide (by omega)
      omega
    · have steps : slot other + 1 ≤ slot place := div_succ_le wide (by omega)
      omega
  have subset : (places.map slot) ⊆ List.range (size / width) := by
    intro quotient member
    obtain ⟨place, there, rfl⟩ := List.mem_map.mp member
    obtain ⟨lower, upper⟩ := inside place there
    exact List.mem_range.mpr (div_succ_le wide (by omega))
  have count := (distinct.subperm subset).length_le
  rw [List.length_map, List.length_range] at count
  exact (Nat.le_div_iff_mul_le wide).mp count

/-! ## The free block list -/

section

variable {memory : PoolMemory} {start stride : BitVec 32} {count offset : Nat}

/-- The blocks of a pool. -/
def blockAt (start stride : BitVec 32) (offset : Nat) : BitVec 32 :=
  start + BitVec.ofNat 32 offset * stride

theorem blockAt_toNat (room : start.toNat + (offset + 1) * stride.toNat ≤ 2 ^ 32)
    (wide : 0 < stride.toNat) :
    (blockAt start stride offset).toNat = start.toNat + offset * stride.toNat := by
  have inside : start.toNat + offset * stride.toNat < 2 ^ 32 := by
    rw [Nat.add_mul] at room
    omega
  have small : offset < 2 ^ 32 := by
    have steps := Nat.le_mul_of_pos_right offset wide
    omega
  rw [blockAt, BitVec.toNat_add, BitVec.toNat_mul, BitVec.toNat_ofNat, Nat.mod_eq_of_lt small,
    Nat.mod_eq_of_lt (show offset * stride.toNat < 2 ^ 32 by omega), Nat.mod_eq_of_lt inside]

theorem room_of_lt (room : start.toNat + count * stride.toNat ≤ 2 ^ 32) (below : offset < count) :
    start.toNat + (offset + 1) * stride.toNat ≤ 2 ^ 32 :=
  Nat.le_trans (Nat.add_le_add_left (Nat.mul_le_mul_right _ below) _) room

theorem blockAt_injective {other : Nat} (wide : 0 < stride.toNat)
    (room : start.toNat + count * stride.toNat ≤ 2 ^ 32) (here : offset < count)
    (there : other < count) (same : blockAt start stride offset = blockAt start stride other) :
    offset = other := by
  have equal := congrArg BitVec.toNat same
  rw [blockAt_toNat (room_of_lt room here) wide, blockAt_toNat (room_of_lt room there) wide]
    at equal
  exact Nat.eq_of_mul_eq_mul_right wide (by omega)

theorem linkBlocks_written (memory : PoolMemory) (start stride : BitVec 32) (count : Nat) :
    ∀ address ∈ (memory.linkBlocks start stride count).written,
      address ∈ memory.written ∨ ∃ offset < count, address = blockAt start stride offset := by
  induction count with
  | zero => exact fun address member => Or.inl member
  | succ count ih =>
      intro address member
      rcases List.mem_cons.mp member with rfl | member
      · exact Or.inr ⟨count, Nat.lt_succ_self _, rfl⟩
      · refine (ih address member).imp_right fun ⟨offset, below, here⟩ => ?_
        exact ⟨offset, Nat.lt_succ_of_lt below, here⟩

/-- The loop links every block it has passed to the next one. -/
theorem linkBlocks_word (wide : 0 < stride.toNat)
    (room : start.toNat + count * stride.toNat ≤ 2 ^ 32) (passed : offset < count) :
    (memory.linkBlocks start stride count).word (blockAt start stride offset) =
      blockAt start stride (offset + 1) := by
  induction count with
  | zero => cases passed
  | succ count ih =>
      have whole : (memory.linkBlocks start stride (count + 1)).word =
          Function.update (memory.linkBlocks start stride count).word
            (blockAt start stride count) (blockAt start stride (count + 1)) := by
        rw [PoolMemory.linkBlocks, PoolMemory.write, blockAt, blockAt, BitVec.ofNat_add]
        rfl
      rw [whole]
      by_cases last : offset = count
      · rw [last, Function.update_self]
      · rw [Function.update_of_ne fun same =>
          last (blockAt_injective wide room passed (Nat.lt_succ_self _) same)]
        refine ih ?_ (by omega)
        rw [Nat.add_mul] at room
        omega

variable {total blockSize : BitVec 32} {region : Nat}

theorem ofNat_pred (some_ : 0 < total.toNat) :
    BitVec.ofNat 32 (total.toNat - 1) = total - 1 := by
  have bound := total.isLt
  have one_ : (1 : BitVec 32) ≤ total := BitVec.le_def.mpr some_
  apply BitVec.eq_of_toNat_eq
  rw [BitVec.toNat_ofNat, BitVec.toNat_sub_of_le one_]
  exact Nat.mod_eq_of_lt (by omega)

/-- The last block is the end of the list. -/
theorem initList_word (wide : 0 < stride.toNat)
    (room : start.toNat + total.toNat * stride.toNat ≤ 2 ^ 32) (bound : offset < total.toNat) :
    (memory.initList start stride total).word (blockAt start stride offset) =
      if offset + 1 = total.toNat then 0 else blockAt start stride (offset + 1) := by
  have whole : (memory.initList start stride total).word =
      Function.update (memory.linkBlocks start stride total.toNat).word
        (blockAt start stride (total.toNat - 1)) 0 := by
    rw [PoolMemory.initList, PoolMemory.write, blockAt, ofNat_pred (by omega)]
  rw [whole]
  split
  · rename_i last
    rw [show total.toNat - 1 = offset by omega, Function.update_self]
  · rename_i more
    rw [Function.update_of_ne fun same => more ?_, linkBlocks_word wide room bound]
    have equal := blockAt_injective wide room bound (by omega) same
    omega

/-- The blocks from one on are a list. -/
theorem initList_chain_from (wide : 0 < stride.toNat) (placed : start ≠ 0)
    (room : start.toNat + total.toNat * stride.toNat ≤ 2 ^ 32)
    (rest : offset + count = total.toNat) :
    Chain (memory.initList start stride total).word 0
      (if offset = total.toNat then 0 else blockAt start stride offset)
      ((List.range' offset count).map (blockAt start stride)) := by
  induction count generalizing offset with
  | zero =>
      rw [if_pos (by omega)]
      rfl
  | succ count ih =>
      rw [if_neg (by omega), List.range'_succ, List.map_cons]
      refine ⟨rfl, fun none_ => ?_, ?_⟩
      · have here := blockAt_toNat (room_of_lt room (show offset < total.toNat by omega)) wide
        rw [none_] at here
        have zero : 0 = start.toNat + offset * stride.toNat := here
        exact placed (BitVec.eq_of_toNat_eq (show start.toNat = 0 by omega))
      · rw [initList_word wide room (by omega)]
        exact ih (by omega)

/-- The pool is as it should be if the blocks fit into the region. -/
theorem validPool_of_room {word : BitVec 32 → BitVec 32} {size aligned : BitVec 32}
    (placed : start ≠ 0) (room : start.toNat + region ≤ 2 ^ 32)
    (wide : blockSize.toNat + 4 ≤ stride.toNat) (some_ : 0 < total.toNat)
    (fits : total.toNat * stride.toNat ≤ region) :
    ValidPool start.toNat region blockSize ⟨start, size, aligned, start, total, total, 0⟩
      (PoolMemory.initList ⟨word, []⟩ start stride total) := by
  have wide' : 0 < stride.toNat := by omega
  have room' : start.toNat + total.toNat * stride.toNat ≤ 2 ^ 32 := by omega
  have place (offset : Nat) (below : offset < total.toNat) :
      (blockAt start stride offset).toNat = start.toNat + offset * stride.toNat :=
    blockAt_toNat (room_of_lt room' below) wide'
  have ends (offset : Nat) (below : offset < total.toNat) :
      offset * stride.toNat + stride.toNat ≤ region := by
    have steps := Nat.mul_le_mul_right stride.toNat (Nat.succ_le_of_lt below)
    rw [Nat.succ_mul] at steps
    omega
  constructor
  case inside =>
      have last : blockAt start stride (total.toNat - 1) = start + (total - 1) * stride := by
        rw [blockAt, ofNat_pred some_]
      have blocks : ∀ address ∈ (PoolMemory.initList ⟨word, []⟩ start stride total).written,
          ∃ offset < total.toNat, address = blockAt start stride offset := by
        intro address member
        rcases List.mem_cons.mp member with rfl | member
        · exact ⟨total.toNat - 1, by omega, last.symm⟩
        · exact (linkBlocks_written ⟨word, []⟩ start stride _ address member).resolve_left
            List.not_mem_nil
      intro address member
      obtain ⟨offset, below, rfl⟩ := blocks address member
      rw [place offset below]
      have here := ends offset below
      omega
  case chain =>
      have chain := @initList_chain_from ⟨word, []⟩ start stride total.toNat 0 total wide' placed
        room' (Nat.zero_add _)
      have first : blockAt start stride 0 = start := by simp [blockAt]
      rw [if_neg (by omega), first] at chain
      refine ⟨_, chain, by simp, ?_, ?_⟩
      · intro block member
        obtain ⟨offset, there, rfl⟩ := List.mem_map.mp member
        have below : offset < total.toNat := by simpa using there
        have here := ends offset below
        rw [place offset below]
        omega
      · refine List.pairwise_map.mpr ((List.pairwise_lt_range').imp_of_mem ?_)
        intro offset other member member' before
        have below : offset < total.toNat := by simpa using member
        have below' : other < total.toNat := by simpa using member'
        have steps := Nat.mul_le_mul_right stride.toNat (Nat.succ_le_of_lt before)
        rw [Nat.succ_mul] at steps
        rw [place offset below, place other below']
        omega

/-- No pool without a block is valid, as its list does not end. -/
theorem ValidPool.some_block {pool : BuiltPool} {start' : Nat}
    (valid : ValidPool start' region blockSize pool memory) (placed : pool.blockList ≠ 0) :
    0 < pool.blockTotalCount.toNat := by
  obtain ⟨blocks, chain, count, -⟩ := valid.chain
  obtain ⟨rest, rfl, -⟩ := chain.exists_cons placed
  rw [← count]
  exact Nat.succ_pos _

/-- The blocks of a valid pool fit into its region. -/
theorem ValidPool.room {pool : BuiltPool} {start' : Nat}
    (valid : ValidPool start' region blockSize pool memory) :
    pool.blockTotalCount.toNat * (blockSize.toNat + 4) ≤ region := by
  obtain ⟨blocks, -, count, inside, apart⟩ := valid.chain
  rw [← count, ← List.length_map BitVec.toNat]
  refine @length_mul_le _ start' _ _ (by omega) ?_ ?_
  · intro place member
    obtain ⟨block, there, rfl⟩ := List.mem_map.mp member
    have bounds := inside block there
    omega
  · refine List.pairwise_map.mpr (apart.imp fun {block other} differ => ?_)
    omega

/-! ## The two functions -/

theorem stride_toNat (some_ : rtAlign blockSize + 4 ≠ 0) :
    (rtAlign blockSize + 4).toNat = (rtAlign blockSize).toNat + 4 := by
  have aligned := rtAlign_mod blockSize
  have bound := (rtAlign blockSize).isLt
  have full : (rtAlign blockSize).toNat ≠ 0xFFFFFFFC := by
    intro full
    refine some_ (BitVec.eq_of_toNat_eq ?_)
    rw [BitVec.toNat_add, full]
    rfl
  rw [BitVec.toNat_add, show (4 : BitVec 32).toNat = 4 from rfl]
  exact Nat.mod_eq_of_lt (by omega)

/-- `rt_mp_create` asks for whole words. -/
theorem poolBytes_mod (blockSize blockCount : BitVec 32) :
    ((rtAlign blockSize + 4) * blockCount).toNat % 4 = 0 := by
  have aligned : (rtAlign blockSize + 4).toNat % 4 = 0 := by
    have words := rtAlign_mod blockSize
    rw [BitVec.toNat_add, show (4 : BitVec 32).toNat = 4 from rfl]
    omega
  rw [BitVec.toNat_mul, Nat.mod_mod_of_dvd _ (by decide), Nat.mul_mod, aligned, Nat.zero_mul]

theorem le_rtAlign (modest : blockSize.toNat ≤ 0xFFFFFFFC) :
    blockSize.toNat ≤ (rtAlign blockSize).toNat ∧
      (rtAlign blockSize).toNat ≤ blockSize.toNat + 3 := by
  rw [rtAlign_toNat modest]
  omega

theorem rtMpInit_valid_iff (word : BitVec 32 → BitVec 32) {size : BitVec 32} (placed : start ≠ 0)
    (room : start.toNat + size.toNat ≤ 2 ^ 32) (blockSize : BitVec 32) :
    (∀ pool memory, PoolMemory.rtMpInit ⟨word, []⟩ start size blockSize = some (pool, memory) →
        ValidPool start.toNat size.toNat blockSize pool memory) ↔
      rtAlign blockSize + 4 = 0 ∨ blockSize.toNat ≤ 0xFFFFFFFC ∧
        (rtAlign blockSize).toNat + 4 ≤ (rtAlignDown size).toNat := by
  by_cases zero : rtAlign blockSize + 4 = 0
  · refine iff_of_true (fun pool memory built => ?_) (Or.inl zero)
    simp only [PoolMemory.rtMpInit, zero, if_true] at built
    cases built
  have stride := stride_toNat zero
  have total : (rtAlignDown size / (rtAlign blockSize + 4)).toNat =
      (rtAlignDown size).toNat / ((rtAlign blockSize).toNat + 4) := by
    rw [BitVec.toNat_udiv, stride]
  have below : (rtAlignDown size).toNat ≤ size.toNat := by
    rw [rtAlignDown, mask_toNat]
    omega
  simp only [PoolMemory.rtMpInit, zero, if_false, Option.some.injEq, Prod.mk.injEq, false_or]
  constructor
  · intro valid
    have built := valid _ _ ⟨rfl, rfl⟩
    have some_ := built.some_block placed
    have fits := built.room
    dsimp only at some_ fits
    have wide := Nat.le_trans (Nat.le_mul_of_pos_left (blockSize.toNat + 4) some_) fits
    have bound := size.isLt
    rw [total] at some_
    exact ⟨by omega, (Nat.div_pos_iff.mp some_).2⟩
  · rintro ⟨modest, enough⟩ pool memory ⟨rfl, rfl⟩
    have aligned := le_rtAlign modest
    refine validPool_of_room placed room (by omega) ?_ ?_
    · rw [total]
      exact Nat.div_pos enough (by omega)
    · rw [total, stride]
      exact Nat.le_trans (Nat.div_mul_le_self _ _) below

/-- In a region with room for the blocks, the pool with natural numbers as addresses has the same
blocks and the same words in them. -/
theorem initList_agrees (mp : MemPool) (memory : PoolMemory)
    (placed : mp.startAddress = start.toNat)
    (wide : (mp.blockSize + 4).toNat = mp.blockSize.toNat + 4)
    (room : start.toNat + mp.blockTotalCount.toNat * (mp.blockSize + 4).toNat ≤ 2 ^ 32)
    (below : offset < mp.blockTotalCount.toNat) :
    mp.block offset = (blockAt start (mp.blockSize + 4) offset).toNat ∧
      mp.initList.word (mp.block offset) =
        ((memory.initList start (mp.blockSize + 4) mp.blockTotalCount).word
          (blockAt start (mp.blockSize + 4) offset)).toNat := by
  have positive : 0 < (mp.blockSize + 4).toNat := by omega
  have place (index : Nat) (inside : index < mp.blockTotalCount.toNat) :
      mp.block index = (blockAt start (mp.blockSize + 4) index).toNat := by
    rw [blockAt_toNat (room_of_lt room inside) positive, MemPool.block, placed, wide]
  refine ⟨place offset below, ?_⟩
  rw [mp.initList_word below, initList_word positive room below]
  split
  · rfl
  · exact place (offset + 1) (by omega)

/-- A product that wraps around leaves no room for the blocks. -/
theorem no_wrap {width aligned count : Nat} (near : aligned ≤ width + 3)
    (fits : count * (width + 4) ≤ count * (aligned + 4) % 2 ^ 32) :
    count * (aligned + 4) < 2 ^ 32 := by
  have longer := Nat.mul_le_mul_left count near
  rw [Nat.mul_add] at fits longer
  rw [Nat.mul_add] at fits ⊢
  omega

theorem rtMpCreate_valid_iff {malloc : BitVec 32 → BitVec 32} (word : BitVec 32 → BitVec 32)
    (mallocs : Mallocs malloc) (object blockCount blockSize : BitVec 32) :
    (∀ pool memory,
        PoolMemory.rtMpCreate malloc ⟨word, []⟩ object blockCount blockSize = some (pool, memory) →
        ValidPool pool.startAddress.toNat pool.size.toNat blockSize pool memory) ↔
      object = 0 ∨ malloc ((rtAlign blockSize + 4) * blockCount) = 0 ∨
        blockSize.toNat ≤ 0xFFFFFFFC ∧
          blockCount.toNat * ((rtAlign blockSize).toNat + 4) < 2 ^ 32 := by
  by_cases none_ : object = 0
  · refine iff_of_true (fun pool memory built => ?_) (Or.inl none_)
    simp only [PoolMemory.rtMpCreate, none_, if_true] at built
    cases built
  by_cases full : malloc ((rtAlign blockSize + 4) * blockCount) = 0
  · refine iff_of_true (fun pool memory built => ?_) (Or.inr (Or.inl full))
    simp only [PoolMemory.rtMpCreate, none_, full, if_true, if_false] at built
    cases built
  have zero : rtAlign blockSize + 4 ≠ 0 := by
    intro zero
    rw [zero, zero_mul] at full
    exact full mallocs.zero
  have stride := stride_toNat zero
  have bytes : ((rtAlign blockSize + 4) * blockCount).toNat =
      blockCount.toNat * ((rtAlign blockSize).toNat + 4) % 2 ^ 32 := by
    rw [BitVec.toNat_mul, stride, Nat.mul_comm]
  have bound := ((rtAlign blockSize + 4) * blockCount).isLt
  simp only [PoolMemory.rtMpCreate, none_, full, if_false, Option.some.injEq, Prod.mk.injEq,
    false_or]
  constructor
  · intro valid
    have built := valid _ _ ⟨rfl, rfl⟩
    have some_ := built.some_block full
    have fits := built.room
    dsimp only at some_ fits
    have wide := Nat.le_trans (Nat.le_mul_of_pos_left (blockSize.toNat + 4) some_) fits
    have modest : blockSize.toNat ≤ 0xFFFFFFFC := by omega
    rw [bytes] at fits
    exact ⟨modest, no_wrap (le_rtAlign modest).2 fits⟩
  · rintro ⟨modest, small⟩ pool memory ⟨rfl, rfl⟩
    have aligned := le_rtAlign modest
    rw [Nat.mod_eq_of_lt small] at bytes
    have words := poolBytes_mod blockSize blockCount
    refine validPool_of_room full (mallocs.region _ words full) (by omega) ?_ ?_
    · rw [Nat.pos_iff_ne_zero]
      intro empty
      have none' : blockCount = 0 := BitVec.eq_of_toNat_eq empty
      rw [none', mul_zero] at full
      exact full mallocs.zero
    · rw [stride]
      exact Nat.le_of_eq bytes.symm

end

/-- `rt_mp_init` builds a valid pool in every region that has room for a block, and `rt_mp_create`
of every number of blocks whose bytes it can count; neither does for other parameters. -/
theorem mp_builds_valid {malloc : BitVec 32 → BitVec 32} (mallocs : Mallocs malloc)
    (word : BitVec 32 → BitVec 32) (blockSize : BitVec 32) :
    (∀ start size : BitVec 32, start ≠ 0 → start.toNat + size.toNat ≤ 2 ^ 32 →
      ((∀ pool memory,
          PoolMemory.rtMpInit ⟨word, []⟩ start size blockSize = some (pool, memory) →
          ValidPool start.toNat size.toNat blockSize pool memory) ↔
        rtAlign blockSize + 4 = 0 ∨ blockSize.toNat ≤ 0xFFFFFFFC ∧
          (rtAlign blockSize).toNat + 4 ≤ (rtAlignDown size).toNat)) ∧
    ∀ object blockCount : BitVec 32,
      ((∀ pool memory,
          PoolMemory.rtMpCreate malloc ⟨word, []⟩ object blockCount blockSize =
            some (pool, memory) →
          ValidPool pool.startAddress.toNat pool.size.toNat blockSize pool memory) ↔
        object = 0 ∨ malloc ((rtAlign blockSize + 4) * blockCount) = 0 ∨
          blockSize.toNat ≤ 0xFFFFFFFC ∧
            blockCount.toNat * ((rtAlign blockSize).toNat + 4) < 2 ^ 32) :=
  ⟨fun _ _ placed room => rtMpInit_valid_iff word placed room blockSize,
    fun object blockCount => rtMpCreate_valid_iff word mallocs object blockCount blockSize⟩

/-- Memory from `0x20000000` on, of which at most 64 kilobytes are handed out. -/
def malloc64k (size : BitVec 32) : BitVec 32 :=
  if size = 0 ∨ 0x10000 < size then 0 else 0x20000000

theorem malloc64k_mallocs : Mallocs malloc64k where
  zero := rfl
  region size _ some_ := by
    unfold malloc64k at some_ ⊢
    split at some_
    · exact absurd rfl some_
    · rename_i modest
      rw [if_neg modest]
      have small := BitVec.le_def.mp (BitVec.not_lt.mp (not_or.mp modest).2)
      simp at small ⊢
      omega

theorem mp_builds_valid_64k :
    (∃ pool memory, PoolMemory.rtMpInit ⟨fun _ => 0, []⟩ 0x20000000 100 7 = some (pool, memory) ∧
      ValidPool 0x20000000 100 7 pool memory) ∧
    ∃ pool memory, PoolMemory.rtMpCreate malloc64k ⟨fun _ => 0, []⟩ 0x10000000 10 7 =
        some (pool, memory) ∧
      ValidPool pool.startAddress.toNat pool.size.toNat 7 pool memory := by
  obtain ⟨init, create⟩ := mp_builds_valid malloc64k_mallocs (fun _ => 0) 7
  refine ⟨⟨_, _, rfl, ?_⟩, ⟨_, _, rfl, ?_⟩⟩
  · exact (init 0x20000000 100 (by decide) (by decide)).mpr (Or.inr (by decide)) _ _ rfl
  · exact (create 0x10000000 10).mpr (Or.inr (Or.inr (by decide))) _ _ rfl

/-- A region without room for a block, and a number of bytes that wraps around to 8. -/
theorem mp_builds_invalid :
    (¬ ∀ pool memory, PoolMemory.rtMpInit ⟨fun _ => 0, []⟩ 0x20000000 4 4 = some (pool, memory) →
      ValidPool 0x20000000 4 4 pool memory) ∧
    ¬ ∀ pool memory, PoolMemory.rtMpCreate malloc64k ⟨fun _ => 0, []⟩ 0x10000000 0x20000001 4 =
        some (pool, memory) →
      ValidPool pool.startAddress.toNat pool.size.toNat 4 pool memory := by
  have init := @rtMpInit_valid_iff 0x20000000 (fun _ => 0) 4 (by decide) (by decide) 4
  have create := rtMpCreate_valid_iff (fun _ => 0) malloc64k_mallocs 0x10000000 0x20000001 4
  constructor
  · exact fun valid => absurd (init.mp valid) (by decide)
  · exact fun valid => absurd (create.mp valid) (by decide)

end RtThread
