import RtThread.Std.Machine
import RtThread.Kernel.State

/-!
# The system heap

The allocator of `mem.c`. A pointer to a header is the offset of the header from
`heap_ptr`; the heap lies in the address space, so no offset reaches 2^32. The
calls run one after another, so that the semaphore is there whenever one takes
it. A failed assertion has no result, and neither has a loop without an end.
-/

namespace RtThread

open RtThread.Std

/-- `HEAP_MAGIC`. -/
def heapMagic : BitVec 16 := 0x1ea0

/-- The variables of `mem.c`, and the headers in the memory behind `heap_ptr`. -/
structure Heap where
  heapPtr : Nat
  memSizeAligned : Nat
  lfree : Nat
  usedMem : Nat
  maxMem : Nat
  magic : Nat → BitVec 16
  used : Nat → Bool
  /-- `next` and `prev`. -/
  links : Links Nat

namespace Heap

def heapEnd (heap : Heap) : Nat := heap.memSizeAligned + 12

def setMagic (heap : Heap) (mem : Nat) (magic : BitVec 16) : Heap :=
  { heap with magic := Function.update heap.magic mem magic }

def setUsed (heap : Heap) (mem : Nat) (used : Bool) : Heap :=
  { heap with used := Function.update heap.used mem used }

def setNext (heap : Heap) (mem target : Nat) : Heap :=
  { heap with links := heap.links.setNext mem target }

def setPrev (heap : Heap) (mem target : Nat) : Heap :=
  { heap with links := heap.links.setPrev mem target }

/-- `used_mem` grows, and `max_mem` follows. -/
def countUsed (heap : Heap) (size : Nat) : Heap :=
  { heap with
    usedMem := heap.usedMem + size
    maxMem := max heap.maxMem (heap.usedMem + size) }

/-! ## Merging -/

/-- "plug hole forward" -/
def plugForward (heap : Heap) (mem : Nat) : Heap :=
  let nmem := heap.links.next mem
  if mem ≠ nmem ∧ heap.used nmem = false ∧ nmem ≠ heap.heapEnd then
    let heap := if heap.lfree = nmem then { heap with lfree := mem } else heap
    let heap := heap.setNext mem (heap.links.next nmem)
    heap.setPrev (heap.links.next nmem) mem
  else heap

/-- "plug hole backward" -/
def plugBackward (heap : Heap) (mem : Nat) : Heap :=
  let pmem := heap.links.prev mem
  if pmem ≠ mem ∧ heap.used pmem = false then
    let heap := if heap.lfree = mem then { heap with lfree := pmem } else heap
    let heap := heap.setNext pmem (heap.links.next mem)
    heap.setPrev (heap.links.next mem) pmem
  else heap

def plugHoles (heap : Heap) (mem : Nat) : Option Heap :=
  if mem < heap.heapEnd ∧ heap.used mem = false then
    some ((heap.plugForward mem).plugBackward mem)
  else none

end Heap

/-- `rt_system_heap_init`, with what the memory contains before. Without enough
memory there is no heap. -/
def rtSystemHeapInit (magic : Nat → BitVec 16) (used : Nat → Bool) (links : Links Nat)
    (beginAddr endAddr : BitVec 32) : Option Heap :=
  let beginAlign := rtAlign beginAddr
  let endAlign := rtAlignDown endAddr
  if 24#32 < endAlign ∧ beginAlign ≤ endAlign - 24#32 then
    let memSizeAligned := (endAlign - beginAlign - 24#32).toNat
    let heap : Heap := ⟨beginAlign.toNat, memSizeAligned, 0, 0, 0, magic, used, links⟩
    let heap := heap.setMagic 0 heapMagic
    let heap := heap.setNext 0 (memSizeAligned + 12)
    let heap := heap.setPrev 0 0
    let heap := heap.setUsed 0 false
    let heap := heap.setMagic heap.heapEnd heapMagic
    let heap := heap.setUsed heap.heapEnd true
    let heap := heap.setNext heap.heapEnd (memSizeAligned + 12)
    some (heap.setPrev heap.heapEnd (memSizeAligned + 12))
  else none

namespace Heap

/-! ## Allocating -/

/-- `mem_size_aligned - size`, which wraps around for a heap without room for one
block. -/
def searchEnd (heap : Heap) (size : Nat) : Nat :=
  if size ≤ heap.memSizeAligned then heap.memSizeAligned - size
  else 2 ^ 32 + heap.memSizeAligned - size

/-- The loop of `rt_malloc` over the blocks, up to the first one that fits. -/
def findFit (heap : Heap) (size ptr : Nat) : Option (Option Nat) :=
  if ptr < heap.searchEnd size then
    if heap.used ptr = false ∧ size ≤ heap.links.next ptr - (ptr + 12) then some (some ptr)
    else heap |>.findFit size (heap.links.next ptr)
  else some none
partial_fixpoint

/-- The loop that looks for the next free block. -/
def findFree (heap : Heap) (lfree : Nat) : Option Nat :=
  if heap.used lfree = true ∧ lfree ≠ heap.heapEnd then
    heap |>.findFree (heap.links.next lfree)
  else some lfree
partial_fixpoint

/-- A header for what remains behind a block of `size` bytes at `mem`. -/
def splitBlock (heap : Heap) (mem size : Nat) : Heap :=
  let mem2 := mem + 12 + size
  let heap := heap.setUsed mem2 false
  let heap := heap.setNext mem2 (heap.links.next mem)
  let heap := heap.setPrev mem2 mem
  let heap := heap.setNext mem mem2
  if heap.links.next mem2 ≠ heap.memSizeAligned + 12 then heap.setPrev (heap.links.next mem2) mem2
  else heap

/-- Use the block at `mem`, or as much of it as `size` bytes need. -/
def occupy (heap : Heap) (mem size : Nat) : Heap :=
  let heap := if size + 24 ≤ heap.links.next mem - (mem + 12) then
      ((heap.splitBlock mem size).setUsed mem true).countUsed (size + 12)
    else (heap.setUsed mem true).countUsed (heap.links.next mem - mem)
  heap.setMagic mem heapMagic

/-- Move `lfree` on if it is the block that has been taken. -/
def advanceFree (heap : Heap) (mem : Nat) : Option Heap :=
  if mem = heap.lfree then do
    let lfree ← heap.findFree heap.lfree
    if lfree = heap.heapEnd ∨ heap.used lfree = false then some { heap with lfree := lfree }
    else none
  else some heap

end Heap

/-- The pointer is `RT_NULL` when no block fits. -/
def rtMalloc (heap : Heap) (size : BitVec 32) : Option (Heap × Nat) :=
  if size = 0#32 then some (heap, 0)
  else
    let size := (rtAlign size).toNat
    if heap.memSizeAligned < size then some (heap, 0)
    else do
      let size := if size < 12 then 12 else size
      match ← heap.findFit size heap.lfree with
      | none => some (heap, 0)
      | some mem => do
        let heap ← (heap.occupy mem size).advanceFree mem
        if mem + 12 + size ≤ heap.heapEnd ∧ (heap.heapPtr + mem + 12) % 4 = 0 ∧
            (heap.heapPtr + mem) % 4 = 0 then
          some (heap, heap.heapPtr + mem + 12)
        else none

def rtFree (heap : Heap) (rmem : Nat) : Option Heap :=
  if rmem = 0 then some heap
  else if rmem % 4 = 0 ∧ heap.heapPtr ≤ rmem ∧ rmem < heap.heapPtr + heap.heapEnd then
    let mem := rmem - 12 - heap.heapPtr
    if heap.used mem = true ∧ heap.magic mem = heapMagic then
      let heap := heap.setUsed mem false
      let heap := heap.setMagic mem 0
      let heap := if mem < heap.lfree then { heap with lfree := mem } else heap
      let heap := { heap with usedMem := heap.usedMem - (heap.links.next mem - mem) }
      heap.plugHoles mem
    else none
  else none

/-- The data that `rt_memcpy` moves lie between headers. -/
def rtRealloc (heap : Heap) (rmem : Nat) (newsize : BitVec 32) : Option (Heap × Nat) :=
  let newsize := rtAlign newsize
  if heap.memSizeAligned < newsize.toNat then some (heap, 0)
  else if rmem = 0 then rtMalloc heap newsize
  else if rmem < heap.heapPtr ∨ heap.heapPtr + heap.heapEnd ≤ rmem then some (heap, rmem)
  else
    let mem := rmem - 12 - heap.heapPtr
    let size := heap.links.next mem - mem - 12
    if size = newsize.toNat then some (heap, rmem)
    else if newsize.toNat + 12 + 12 < size then do
      let heap := { heap with usedMem := heap.usedMem - (size - newsize.toNat) }
      let heap := heap.setMagic (mem + 12 + newsize.toNat) heapMagic
      let heap ← (heap.splitBlock mem newsize.toNat).plugHoles (mem + 12 + newsize.toNat)
      some (heap, rmem)
    else do
      let (heap, nmem) ← rtMalloc heap newsize
      if nmem ≠ 0 then do
        let heap ← rtFree heap rmem
        some (heap, nmem)
      else some (heap, 0)

/-! ## Sequences of calls -/

inductive HeapCall where
  | malloc (size : BitVec 32)
  | realloc (rmem : Nat) (newsize : BitVec 32)
  | free (rmem : Nat)
deriving DecidableEq, Repr

structure HeapSystem where
  heap : Heap
  /-- The pointers that have been returned and not been given back. -/
  live : List Nat

/-- The pointers in use after a call that has returned `pointer`. -/
def HeapCall.follow (live : List Nat) (pointer : Nat) : HeapCall → List Nat
  | .malloc _ => if pointer = 0 then live else pointer :: live
  | .realloc rmem _ => if pointer = 0 then live else pointer :: live.erase rmem
  | .free rmem => live.erase rmem

def HeapCall.apply (heap : Heap) : HeapCall → Option (Heap × Nat)
  | .malloc size => rtMalloc heap size
  | .realloc rmem newsize => rtRealloc heap rmem newsize
  | .free rmem => (rtFree heap rmem).map fun heap => (heap, 0)

/-- The events are the pointers that the calls return. -/
def heapMachine : Machine HeapSystem HeapCall Nat where
  step system call := (call.apply system.heap).map fun (heap, pointer) =>
    (⟨heap, call.follow system.live pointer⟩, [pointer])

/-- `rt_free` and `rt_realloc` get pointers in use, or `RT_NULL`. -/
def HeapSystem.OwnsArgument (system : HeapSystem) : HeapCall → Prop
  | .malloc _ => True
  | .realloc rmem _ | .free rmem => rmem = 0 ∨ rmem ∈ system.live

end RtThread
