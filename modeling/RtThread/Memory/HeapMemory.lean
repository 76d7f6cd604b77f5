import RtThread.Memory.HeapRuns

/-!
# The memory of the system heap

The allocator of `mem.c` once more, with every byte between `heap_ptr` and the end:
what the headers say is in `heap` as before, and each write to a header also changes
the bytes where that header lies. Whether these are bytes of somebody's data is what
there is to show. `rt_realloc` copies data, and `rt_calloc` clears them.
-/

namespace RtThread

open RtThread.Std

/-- Write `width` bytes of a number, the lowest first. -/
def storeAt (bytes : Nat → BitVec 8) (address width value : Nat) : Nat → BitVec 8 := fun x =>
  if address ≤ x ∧ x < address + width then BitVec.ofNat 8 (value >>> (8 * (x - address)))
  else bytes x

/-- `rt_memcpy`, byte by byte. -/
def rtMemcpy (bytes : Nat → BitVec 8) (dst src : Nat) : Nat → Nat → BitVec 8
  | 0 => bytes
  | count + 1 => rtMemcpy (Function.update bytes dst (bytes src)) (dst + 1) (src + 1) count

/-- `rt_memset`, byte by byte. -/
def rtMemset (bytes : Nat → BitVec 8) (s : Nat) (c : BitVec 8) : Nat → Nat → BitVec 8
  | 0 => bytes
  | count + 1 => rtMemset (Function.update bytes s c) (s + 1) c count

/-- The heap and the memory by address. -/
structure HeapMemory where
  heap : Heap
  bytes : Nat → BitVec 8

namespace HeapMemory

/-! ## Headers

A header is `magic` and `used` of two bytes each, and `next` and `prev` of four. -/

def setMagic (memory : HeapMemory) (mem : Nat) (magic : BitVec 16) : HeapMemory :=
  ⟨memory.heap.setMagic mem magic,
    storeAt memory.bytes (memory.heap.heapPtr + mem) 2 magic.toNat⟩

def setUsed (memory : HeapMemory) (mem : Nat) (used : Bool) : HeapMemory :=
  ⟨memory.heap.setUsed mem used,
    storeAt memory.bytes (memory.heap.heapPtr + mem + 2) 2 used.toNat⟩

def setNext (memory : HeapMemory) (mem target : Nat) : HeapMemory :=
  ⟨memory.heap.setNext mem target, storeAt memory.bytes (memory.heap.heapPtr + mem + 4) 4 target⟩

def setPrev (memory : HeapMemory) (mem target : Nat) : HeapMemory :=
  ⟨memory.heap.setPrev mem target, storeAt memory.bytes (memory.heap.heapPtr + mem + 8) 4 target⟩

/-! ## Merging -/

/-- "plug hole forward" -/
def plugForward (memory : HeapMemory) (mem : Nat) : HeapMemory :=
  let heap := memory.heap
  let nmem := heap.links.next mem
  if mem ≠ nmem ∧ heap.used nmem = false ∧ nmem ≠ heap.heapEnd then
    let memory :=
      if heap.lfree = nmem then { memory with heap := { heap with lfree := mem } } else memory
    let memory := memory.setNext mem (memory.heap.links.next nmem)
    memory.setPrev (memory.heap.links.next nmem) mem
  else memory

/-- "plug hole backward" -/
def plugBackward (memory : HeapMemory) (mem : Nat) : HeapMemory :=
  let heap := memory.heap
  let pmem := heap.links.prev mem
  if pmem ≠ mem ∧ heap.used pmem = false then
    let memory :=
      if heap.lfree = mem then { memory with heap := { heap with lfree := pmem } } else memory
    let memory := memory.setNext pmem (memory.heap.links.next mem)
    memory.setPrev (memory.heap.links.next mem) pmem
  else memory

def plugHoles (memory : HeapMemory) (mem : Nat) : Option HeapMemory :=
  if mem < memory.heap.heapEnd ∧ memory.heap.used mem = false then
    some ((memory.plugForward mem).plugBackward mem)
  else none

/-! ## Allocating -/

/-- A header for what remains behind a block of `size` bytes at `mem`. -/
def splitBlock (memory : HeapMemory) (mem size : Nat) : HeapMemory :=
  let mem2 := mem + 12 + size
  let memory := memory.setUsed mem2 false
  let memory := memory.setNext mem2 (memory.heap.links.next mem)
  let memory := memory.setPrev mem2 mem
  let memory := memory.setNext mem mem2
  if memory.heap.links.next mem2 ≠ memory.heap.memSizeAligned + 12 then
    memory.setPrev (memory.heap.links.next mem2) mem2
  else memory

def countUsed (memory : HeapMemory) (size : Nat) : HeapMemory :=
  { memory with heap := memory.heap.countUsed size }

/-- Use the block at `mem`, or as much of it as `size` bytes need. -/
def occupy (memory : HeapMemory) (mem size : Nat) : HeapMemory :=
  let memory := if size + 24 ≤ memory.heap.links.next mem - (mem + 12) then
      ((memory.splitBlock mem size).setUsed mem true).countUsed (size + 12)
    else (memory.setUsed mem true).countUsed (memory.heap.links.next mem - mem)
  memory.setMagic mem heapMagic

/-- The pointer is `RT_NULL` when no block fits. -/
def rtMalloc (memory : HeapMemory) (size : BitVec 32) : Option (HeapMemory × Nat) :=
  if size = 0#32 then some (memory, 0)
  else
    let size := (rtAlign size).toNat
    if memory.heap.memSizeAligned < size then some (memory, 0)
    else do
      let size := if size < 12 then 12 else size
      match ← memory.heap.findFit size memory.heap.lfree with
      | none => some (memory, 0)
      | some mem => do
        let memory := memory.occupy mem size
        let heap ← memory.heap.advanceFree mem
        if mem + 12 + size ≤ heap.heapEnd ∧ (heap.heapPtr + mem + 12) % 4 = 0 ∧
            (heap.heapPtr + mem) % 4 = 0 then
          some ({ memory with heap := heap }, heap.heapPtr + mem + 12)
        else none

def rtFree (memory : HeapMemory) (rmem : Nat) : Option HeapMemory :=
  if rmem = 0 then some memory
  else if rmem % 4 = 0 ∧ memory.heap.heapPtr ≤ rmem ∧
      rmem < memory.heap.heapPtr + memory.heap.heapEnd then
    let mem := rmem - 12 - memory.heap.heapPtr
    if memory.heap.used mem = true ∧ memory.heap.magic mem = heapMagic then
      let memory := memory.setUsed mem false
      let memory := memory.setMagic mem 0
      let heap := memory.heap
      let heap := if mem < heap.lfree then { heap with lfree := mem } else heap
      let heap := { heap with usedMem := heap.usedMem - (heap.links.next mem - mem) }
      { memory with heap := heap }.plugHoles mem
    else none
  else none

def rtRealloc (memory : HeapMemory) (rmem : Nat) (newsize : BitVec 32) :
    Option (HeapMemory × Nat) :=
  let newsize := rtAlign newsize
  let heap := memory.heap
  if heap.memSizeAligned < newsize.toNat then some (memory, 0)
  else if rmem = 0 then memory.rtMalloc newsize
  else if rmem < heap.heapPtr ∨ heap.heapPtr + heap.heapEnd ≤ rmem then some (memory, rmem)
  else
    let mem := rmem - 12 - heap.heapPtr
    let size := heap.links.next mem - mem - 12
    if size = newsize.toNat then some (memory, rmem)
    else if newsize.toNat + 12 + 12 < size then do
      let memory :=
        { memory with heap := { heap with usedMem := heap.usedMem - (size - newsize.toNat) } }
      let memory := memory.setMagic (mem + 12 + newsize.toNat) heapMagic
      let memory ← (memory.splitBlock mem newsize.toNat).plugHoles (mem + 12 + newsize.toNat)
      some (memory, rmem)
    else do
      let (memory, nmem) ← memory.rtMalloc newsize
      if nmem ≠ 0 then do
        let count := if size < newsize.toNat then size else newsize.toNat
        let memory ← { memory with bytes := rtMemcpy memory.bytes nmem rmem count }.rtFree rmem
        some (memory, nmem)
      else some (memory, 0)

def rtCalloc (memory : HeapMemory) (count size : BitVec 32) : Option (HeapMemory × Nat) := do
  let (memory, p) ← memory.rtMalloc (count * size)
  if p ≠ 0 then
    some ({ memory with bytes := rtMemset memory.bytes p 0 (count * size).toNat }, p)
  else some (memory, 0)

/-! ## What the headers say

The headers are those of the heap without its memory. -/

variable (memory : HeapMemory) (mem size : Nat)

@[simp] theorem setMagic_heap (magic : BitVec 16) :
    (memory.setMagic mem magic).heap = memory.heap.setMagic mem magic := rfl

@[simp] theorem setUsed_heap (used : Bool) :
    (memory.setUsed mem used).heap = memory.heap.setUsed mem used := rfl

@[simp] theorem setNext_heap (target : Nat) :
    (memory.setNext mem target).heap = memory.heap.setNext mem target := rfl

@[simp] theorem setPrev_heap (target : Nat) :
    (memory.setPrev mem target).heap = memory.heap.setPrev mem target := rfl

@[simp] theorem plugForward_heap :
    (memory.plugForward mem).heap = memory.heap.plugForward mem := by
  unfold plugForward Heap.plugForward
  dsimp only
  split
  · split <;> rfl
  · rfl

@[simp] theorem plugBackward_heap :
    (memory.plugBackward mem).heap = memory.heap.plugBackward mem := by
  unfold plugBackward Heap.plugBackward
  dsimp only
  split
  · split <;> rfl
  · rfl

theorem plugHoles_heap : (memory.plugHoles mem).map heap = memory.heap.plugHoles mem := by
  unfold plugHoles Heap.plugHoles
  split
  · simp
  · rfl

@[simp] theorem splitBlock_heap :
    (memory.splitBlock mem size).heap = memory.heap.splitBlock mem size := by
  unfold splitBlock Heap.splitBlock
  exact apply_ite heap _ _ _

@[simp] theorem occupy_heap : (memory.occupy mem size).heap = memory.heap.occupy mem size := by
  unfold occupy Heap.occupy
  dsimp only [setMagic_heap]
  split
  · simp [countUsed]
  · rfl

/-- The calls do to the headers what they do in a heap without its memory. -/
theorem rtMalloc_heap (request : BitVec 32) :
    (memory.rtMalloc request).map (Prod.map heap id) = RtThread.rtMalloc memory.heap request := by
  unfold rtMalloc RtThread.rtMalloc
  split
  · rfl
  dsimp only
  split
  · rfl
  generalize (if (rtAlign request).toNat < 12 then 12 else (rtAlign request).toNat) = size
  generalize memory.heap.findFit size memory.heap.lfree = found
  rcases found with - | - | mem
  · rfl
  · rfl
  simp only [Option.bind_eq_bind, Option.bind_some, occupy_heap]
  generalize (memory.heap.occupy mem _).advanceFree mem = advanced
  cases advanced with
  | none => rfl
  | some next =>
      simp only [Option.bind_some]
      split <;> rfl

theorem rtFree_heap (rmem : Nat) :
    (memory.rtFree rmem).map heap = RtThread.rtFree memory.heap rmem := by
  unfold rtFree RtThread.rtFree
  split
  · rfl
  split
  · dsimp only
    split
    · exact plugHoles_heap ..
    · rfl
  · rfl

theorem rtRealloc_heap (rmem : Nat) (newsize : BitVec 32) :
    (memory.rtRealloc rmem newsize).map (Prod.map heap id) =
      RtThread.rtRealloc memory.heap rmem newsize := by
  unfold rtRealloc RtThread.rtRealloc
  dsimp only
  split
  · rfl
  split
  · exact rtMalloc_heap ..
  split
  · rfl
  generalize rmem - 12 - memory.heap.heapPtr = mem
  generalize (rtAlign newsize).toNat = size
  split
  · rfl
  split
  · have plugged := plugHoles_heap (({ memory with heap := { memory.heap with
      usedMem := memory.heap.usedMem - (memory.heap.links.next mem - mem - 12 - size) }
        }.setMagic (mem + 12 + size) heapMagic).splitBlock mem size) (mem + 12 + size)
    rw [splitBlock_heap, setMagic_heap] at plugged
    rw [← plugged]
    simp only [Option.bind_eq_bind, Option.map_bind, Option.bind_map]
    rfl
  · rw [← rtMalloc_heap]
    simp only [Option.bind_eq_bind, Option.map_bind, Option.bind_map]
    refine congrArg _ (funext fun result => ?_)
    simp only [Function.comp_apply, Prod.map_snd, id_eq, Prod.map_fst]
    split
    · generalize rtMemcpy result.1.bytes result.2 rmem _ = bytes
      have freed := rtFree_heap ⟨result.1.heap, bytes⟩ rmem
      rw [← freed]
      simp only [Option.map_bind, Option.bind_map]
      rfl
    · rfl

theorem rtCalloc_heap (count request : BitVec 32) :
    (memory.rtCalloc count request).map (Prod.map heap id) =
      RtThread.rtMalloc memory.heap (count * request) := by
  unfold rtCalloc
  rw [← rtMalloc_heap]
  cases memory.rtMalloc (count * request) with
  | none => rfl
  | some result =>
      obtain ⟨next, pointer⟩ := result
      by_cases null : pointer ≠ 0
      · simp [null]
      · simp [not_not.mp null]

end HeapMemory

end RtThread
