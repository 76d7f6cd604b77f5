import RtThread.Std.Machine
import RtThread.Kernel.State

/-!
# Memory heap objects

The allocator of `memheap.c`. A pointer to an item is its address; the pool lies
in the address space, so no address in it reaches 2^32. What an item contains is
there for every address, as the memory is before a header is written.
-/

namespace RtThread

open RtThread.Std

/-- `RT_MEMHEAP_MAGIC`. -/
def rtMemheapMagic : BitVec 32 := 0x1ea01ea0

/-- `RT_MEMHEAP_USED`. -/
def rtMemheapUsed : BitVec 32 := 0x01

/-- `RT_MEMHEAP_MASK`. -/
def rtMemheapMask : BitVec 32 := 0xfffffffe

/-- A `struct rt_memheap` and the items in its pool. -/
structure Memheap where
  /-- The address of the object, to which every `pool_ptr` leads. -/
  self : Nat
  startAddr : Nat
  poolSize : Nat
  availableSize : Nat
  blockList : Nat
  /-- The address of `free_header`, to which `free_list` leads. -/
  freeList : Nat
  magic : Nat → BitVec 32
  poolPtr : Nat → Nat
  /-- `next` and `prev`. -/
  blocks : Links Nat
  /-- `next_free` and `prev_free`. -/
  frees : Links Nat

namespace Memheap

/-- `RT_MEMHEAP_IS_USED`. -/
def isUsed (heap : Memheap) (item : Nat) : Bool := heap.magic item &&& rtMemheapUsed ≠ 0

def setMagic (heap : Memheap) (item : Nat) (magic : BitVec 32) : Memheap :=
  { heap with magic := Function.update heap.magic item magic }

def setPoolPtr (heap : Memheap) (item pool : Nat) : Memheap :=
  { heap with poolPtr := Function.update heap.poolPtr item pool }

def setNext (heap : Memheap) (item target : Nat) : Memheap :=
  { heap with blocks := heap.blocks.setNext item target }

def setPrev (heap : Memheap) (item target : Nat) : Memheap :=
  { heap with blocks := heap.blocks.setPrev item target }

def setNextFree (heap : Memheap) (item target : Nat) : Memheap :=
  { heap with frees := heap.frees.setNext item target }

def setPrevFree (heap : Memheap) (item target : Nat) : Memheap :=
  { heap with frees := heap.frees.setPrev item target }

/-- Put an item at the front of the free list. -/
def insertFree (heap : Memheap) (item : Nat) : Memheap :=
  let heap := heap.setNextFree item (heap.frees.next heap.freeList)
  let heap := heap.setPrevFree item heap.freeList
  let heap := heap.setPrevFree (heap.frees.next heap.freeList) item
  heap.setNextFree heap.freeList item

/-- Take an item out of the free list. -/
def removeFree (heap : Memheap) (item : Nat) : Memheap :=
  let heap := heap.setPrevFree (heap.frees.next item) (heap.frees.prev item)
  heap.setNextFree (heap.frees.prev item) (heap.frees.next item)

/-- The item is in no list. -/
def clearFree (heap : Memheap) (item : Nat) : Memheap :=
  (heap.setNextFree item 0).setPrevFree item 0

end Memheap

/-- `rt_memheap_init` of the object at `self`, whose `free_header` is at `header`,
with what the memory contains before. -/
def rtMemheapInit (self header : Nat) (magic : Nat → BitVec 32) (poolPtr : Nat → Nat)
    (blocks frees : Links Nat) (startAddr : Nat) (size : BitVec 32) : Memheap :=
  let poolSize := (rtAlignDown size).toNat
  let heap : Memheap :=
    ⟨self, startAddr, poolSize, poolSize - 2 * 24, startAddr, header, magic, poolPtr, blocks, frees⟩
  -- the free list header
  let heap := heap.setMagic header rtMemheapMagic
  let heap := heap.setPoolPtr header self
  let heap := heap.setNext header 0
  let heap := heap.setPrev header 0
  let heap := heap.setNextFree header header
  let heap := heap.setPrevFree header header
  -- the first big memory block
  let heap := heap.setMagic startAddr rtMemheapMagic
  let heap := heap.setPoolPtr startAddr self
  let tail := startAddr + heap.availableSize + 24
  let heap := heap.setNext startAddr tail
  let heap := heap.setPrev startAddr tail
  let heap := heap.insertFree startAddr
  -- the tailer block
  let heap := heap.setMagic tail (rtMemheapMagic ||| rtMemheapUsed)
  let heap := heap.setPoolPtr tail self
  let heap := heap.setNext tail startAddr
  let heap := heap.setPrev tail startAddr
  heap.clearFree tail

namespace Memheap

/-! ## Allocating -/

/-- The search on the free list, and the size of the last block looked at. No list
of blocks is as long as the pool is large, so that the pool size bounds the loop. -/
def findFree (heap : Memheap) (size : Nat) : Nat → Nat → Nat → Option (Nat × Nat)
  | 0, _, _ => none
  | fuel + 1, header, freeSize =>
      if header ≠ heap.freeList ∧ freeSize < size then
        let freeSize := heap.blocks.next header - header - 24
        if freeSize < size then heap.findFree size fuel (heap.frees.next header) freeSize
        else heap.findFree size fuel header freeSize
      else some (header, freeSize)

/-- "split the block" -/
def splitBlock (heap : Memheap) (header size : Nat) : Memheap :=
  let new := header + size + 24
  let heap := heap.setMagic new rtMemheapMagic
  let heap := heap.setPoolPtr new heap.self
  -- "break down the block list"
  let heap := heap.setPrev new header
  let heap := heap.setNext new (heap.blocks.next header)
  let heap := heap.setPrev (heap.blocks.next header) new
  let heap := heap.setNext header new
  let heap := (heap.removeFree header).clearFree header
  let heap := heap.insertFree new
  { heap with availableSize := heap.availableSize - size - 24 }

/-- Use the whole block. -/
def wholeBlock (heap : Memheap) (header freeSize : Nat) : Memheap :=
  let heap := { heap with availableSize := heap.availableSize - freeSize }
  (heap.removeFree header).clearFree header

/-- What `rt_memheap_alloc` does while it holds the lock, and the block it takes. -/
def takeBlock (heap : Memheap) (size : Nat) : Option (Memheap × Option Nat) := do
  let (header, freeSize) ←
    heap.findFree size heap.poolSize (heap.frees.next heap.freeList) 0
  if size ≤ freeSize then
    if size + 24 + 12 ≤ freeSize then some (heap.splitBlock header size, some header)
    else some (heap.wholeBlock header freeSize, some header)
  else some (heap, none)

/-- "Mark the allocated block as not available." -/
def markUsed (heap : Memheap) (header : Nat) : Memheap :=
  heap.setMagic header (heap.magic header ||| rtMemheapUsed)

/-- The size of the block that a request needs. -/
def requestSize (size : BitVec 32) : Nat :=
  let size := (rtAlign size).toNat
  if size < 12 then 12 else size

/-! ## Releasing -/

/-- "merge: left node", and whether the header has to be inserted to the free list -/
def mergeLeft (heap : Memheap) (header : Nat) : Memheap × Nat × Bool :=
  if heap.isUsed (heap.blocks.prev header) = false then
    let heap := { heap with availableSize := heap.availableSize + 24 }
    let heap := heap.setNext (heap.blocks.prev header) (heap.blocks.next header)
    let heap := heap.setPrev (heap.blocks.next header) (heap.blocks.prev header)
    (heap, heap.blocks.prev header, false)
  else (heap, header, true)

/-- "merge: right node" -/
def mergeRight (heap : Memheap) (header : Nat) : Memheap :=
  if heap.isUsed (heap.blocks.next header) = false then
    let heap := { heap with availableSize := heap.availableSize + 24 }
    let new := heap.blocks.next header
    let heap := heap.setPrev (heap.blocks.next new) header
    let heap := heap.setNext header (heap.blocks.next new)
    heap.removeFree new
  else heap

/-- What `rt_memheap_free` does while it holds the lock. -/
def giveBlock (heap : Memheap) (header : Nat) : Memheap :=
  let heap := heap.setMagic header (heap.magic header &&& ~~~rtMemheapUsed)
  let heap := { heap with
    availableSize := heap.availableSize + (heap.blocks.next header - header) - 24 }
  let (heap, header, insertHeader) := heap.mergeLeft header
  let heap := heap.mergeRight header
  if insertHeader then heap.insertFree header else heap

/-- The magic number is checked, and the block belongs to this heap. -/
def Owns (heap : Memheap) (header : Nat) : Prop :=
  heap.magic header &&& rtMemheapMask = rtMemheapMagic ∧ heap.poolPtr header = heap.self

instance (heap : Memheap) (header : Nat) : Decidable (heap.Owns header) :=
  inferInstanceAs (Decidable (_ ∧ _))

end Memheap

/-- Nothing else takes the lock. The pointer is `RT_NULL` when no block fits. -/
def rtMemheapAlloc (heap : Memheap) (size : BitVec 32) : Option (Memheap × Nat) :=
  let size := Memheap.requestSize size
  if size < heap.availableSize then do
    match ← heap.takeBlock size with
    | (heap, some header) => some (heap.markUsed header, header + 24)
    | (heap, none) => some (heap, 0)
  else some (heap, 0)

/-- A failed assertion has no result, and neither has a block of another heap. -/
def rtMemheapFree (heap : Memheap) (ptr : Nat) : Option Memheap :=
  if heap.Owns (ptr - 24) then some (heap.giveBlock (ptr - 24)) else none

/-! ## Sequences of calls -/

inductive MemheapCall where
  | alloc (size : BitVec 32)
  | free (ptr : Nat)
deriving DecidableEq, Repr

structure MemheapSystem where
  heap : Memheap
  /-- The pointers that have been returned and not been given back, each with the
  size that was asked for. -/
  live : List (Nat × BitVec 32)

/-- The events are the pointers that the calls return. -/
def memheapMachine : Machine MemheapSystem MemheapCall Nat where
  step system
    | .alloc size => (rtMemheapAlloc system.heap size).map fun (heap, ptr) =>
        (⟨heap, if ptr = 0 then system.live else (ptr, size) :: system.live⟩, [ptr])
    | .free ptr => (rtMemheapFree system.heap ptr).map fun heap =>
        (⟨heap, system.live.filter fun entry => entry.1 ≠ ptr⟩, [])

/-- `rt_memheap_free` gets pointers in use. -/
def MemheapSystem.OwnsArgument (system : MemheapSystem) : MemheapCall → Prop
  | .alloc _ => True
  | .free ptr => ptr ∈ system.live.map Prod.fst

end RtThread
