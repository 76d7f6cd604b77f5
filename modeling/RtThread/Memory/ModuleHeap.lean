import RtThread.Memory.Page

/-!
# The memory of a module

`rt_module_malloc`, `rt_module_free` and `rt_module_realloc`. A module gets pages and cuts them
into blocks. The head of a block lies in the same memory as the heads of the free runs of
pages: the size of a block is where such a run has its link.
-/

namespace RtThread

open RtThread.Std

/-- `PAGE_COUNT_MAX`. -/
def pageCountMax : BitVec 32 := 256

/-- `sizeof(struct rt_mem_head)`, the unit of the sizes. -/
abbrev memHeadSize : Nat := 8

/-- `struct rt_page_info`. -/
structure PageInfo where
  pagePtr : Nat
  npage : Nat
deriving DecidableEq, Repr

/-- What `struct rt_module` says of the memory of a module. -/
structure RtModule where
  memList : Nat
  pageArray : Nat → PageInfo
  pageCnt : BitVec 32

/-- The memory of all modules, and the value of `mod_sem`. -/
structure ModuleHeap where
  heap : PageHeap
  modules : Nat → RtModule
  modSem : BitVec 16

namespace ModuleHeap

/-- `((struct rt_mem_head *)b)->size`. -/
def size (mem : ModuleHeap) (b : Nat) : Nat := (mem.heap.cells b).first

/-- `((struct rt_mem_head *)b)->next`. -/
def next (mem : ModuleHeap) (b : Nat) : Nat := (mem.heap.cells b).second

def setCell (mem : ModuleHeap) (b : Nat) (cell : Cell) : ModuleHeap :=
  { mem with heap := { mem.heap with cells := Function.update mem.heap.cells b cell } }

def setSize (mem : ModuleHeap) (b size : Nat) : ModuleHeap :=
  mem.setCell b { mem.heap.cells b with first := size }

def setNext (mem : ModuleHeap) (b next : Nat) : ModuleHeap :=
  mem.setCell b { mem.heap.cells b with second := next }

def setModule (mem : ModuleHeap) (m : Nat) (module : RtModule) : ModuleHeap :=
  { mem with modules := Function.update mem.modules m module }

/-- `*prev = target`, on the way along the list of a module. -/
def store (mem : ModuleHeap) (m target : Nat) : Option Nat → ModuleHeap
  | none => mem.setModule m { mem.modules m with memList := target }
  | some b => mem.setNext b target

/-- The list of the free blocks of a module. -/
def list (mem : ModuleHeap) (m : Nat) : FreeList where
  head := (mem.modules m).memList
  next := mem.next
  size := mem.size

/-- `b + b->size`. -/
def behind (mem : ModuleHeap) (b : Nat) : Nat := b + memHeadSize * mem.size b

def lock (mem : ModuleHeap) : Option ModuleHeap :=
  (semTake mem.modSem).map fun value => { mem with modSem := value }

def unlock (mem : ModuleHeap) : ModuleHeap := { mem with modSem := semRelease mem.modSem }

section

variable (mem : ModuleHeap) (m b target : Nat) (prev : Option Nat)

@[simp] theorem list_setNext :
    (mem.setNext b target).list m = (mem.list m).store target (some b) := by
  simp only [list, setNext, setCell, FreeList.store, FreeList.mk.injEq, true_and]
  constructor
  · funext other
    by_cases same : other = b
    · simp [next, same]
    · simp [next, same]
  · funext other
    by_cases same : other = b
    · simp [size, same]
    · simp [size, same]

@[simp] theorem list_setSize :
    (mem.setSize b target).list m = (mem.list m).setSize b target := by
  simp only [list, setSize, setCell, FreeList.setSize, FreeList.mk.injEq, true_and]
  constructor
  · funext other
    by_cases same : other = b
    · simp [next, same]
    · simp [next, same]
  · funext other
    by_cases same : other = b
    · simp [size, same]
    · simp [size, same]

@[simp] theorem list_store : (mem.store m target prev).list m = (mem.list m).store target prev := by
  cases prev with
  | none =>
      simp only [store, setModule, list, FreeList.store, Function.update_self]
      rfl
  | some b => exact mem.list_setNext m b target

@[simp] theorem next_setSize (other : Nat) : (mem.setSize b target).next other = mem.next other :=
  congrFun (congrArg FreeList.next (mem.list_setSize 0 b target)) other

@[simp] theorem size_setNext (other : Nat) : (mem.setNext b target).size other = mem.size other :=
  (congrFun (congrArg FreeList.size (mem.list_setNext 0 b target)) other).trans
    (congrFun ((mem.list 0).size_store target (some b)) other)

@[simp] theorem size_store (other : Nat) : (mem.store m target prev).size other = mem.size other :=
  (congrFun (congrArg FreeList.size (mem.list_store m target prev)) other).trans
    (congrFun ((mem.list m).size_store target prev) other)

@[simp] theorem size_setSize_self : (mem.setSize b target).size b = target := by
  simp [size, setSize, setCell]

end

/-- Keep the first units of the block that `*prev` points at, or all of it, and take them off
the list. -/
def takeUnits (mem : ModuleHeap) (m : Nat) (prev : Option Nat) (nunits : Nat) : ModuleHeap :=
  let b := (mem.list m).load prev
  if nunits < mem.size b then
    let n := b + memHeadSize * nunits
    let mem := mem.setNext n (mem.next b)
    let mem := mem.setSize n (mem.size b - nunits)
    let mem := mem.setSize b nunits
    mem.store m n prev
  else mem.store m (mem.next b) prev

end ModuleHeap

/-- `nunits`: the units of a block for so many bytes, its head included. -/
def unitsFor (size : BitVec 32) : Nat := (size + 7).toNat / memHeadSize + 1

/-- `npage`: the pages of a block for so many bytes. -/
def pagesFor (size : BitVec 32) : Nat := (size + 8 + 4095).toNat / pageSize

/-- A failed assertion does not return. -/
def rtModuleMallocPage (mem : ModuleHeap) (self npages : Nat) : Option (ModuleHeap × Nat) := do
  let (heap, chunk) ← rtPageAlloc mem.heap npages
  let mem := { mem with heap := heap }
  if chunk = 0 then pure (mem, 0)
  else
    let module := mem.modules self
    let pageCnt := module.pageCnt + 1
    let mem := mem.setModule self { module with
      pageArray := Function.update module.pageArray module.pageCnt.toNat ⟨chunk, npages⟩
      pageCnt := pageCnt }
    if pageCnt ≤ pageCountMax then pure (mem, chunk) else none

/-- The entries behind `index` move down, and the last one is cleared. -/
def RtModule.dropPage (module : RtModule) (index : Nat) : RtModule :=
  let last := (module.pageCnt - 1).toNat
  { module with
    pageArray := Function.update
      (fun i => if index ≤ i ∧ i < last then module.pageArray (i + 1) else module.pageArray i)
      last ⟨0, 0⟩
    pageCnt := module.pageCnt - 1 }

/-- The entry `i` loses its first pages, or goes as a whole. -/
def RtModule.cutPage (module : RtModule) (i npages : Nat) : Option RtModule :=
  let page := module.pageArray i
  if page.npage = npages + 1 then
    some { module with
      pageArray := Function.update module.pageArray i
        ⟨page.pagePtr + pageSize * npages, page.npage - npages⟩ }
  else if page.npage = npages then some (module.dropPage i)
  else none

/-- After the entry has been cut, the `page_cnt` of the module that frees goes down in any
case. -/
def rtModuleFreePage (mem : ModuleHeap) (self : Option Nat) (m pagePtr npages : Nat) :
    Option ModuleHeap := do
  let self ← self
  let heap ← rtPageFree mem.heap pagePtr npages
  let mem := { mem with heap := heap }
  let module := mem.modules m
  let i ← (List.range module.pageCnt.toNat).find? fun i =>
    (module.pageArray i).pagePtr = pagePtr
  let module ← module.cutPage i npages
  let mem := mem.setModule m module
  let module := mem.modules self
  pure (mem.setModule self { module with pageCnt := module.pageCnt - 1 })

namespace ModuleHeap

/-- What the block at `b` has of whole pages is given back; what is left of it stays on the
list. -/
def givePages (mem : ModuleHeap) (self : Option Nat) (m b : Nat) (prev : Option Nat) :
    Option ModuleHeap :=
  let npage := mem.size b * memHeadSize / pageSize
  if 0 < npage then
    let mem :=
      if mem.size b * memHeadSize % pageSize ≠ 0 then
        let nunits := npage * pageSize / memHeadSize
        let r := b + memHeadSize * nunits
        let mem := mem.setNext r (mem.next b)
        let mem := mem.setSize r (mem.size b - nunits)
        mem.store m r prev
      else mem.store m (mem.next b) prev
    rtModuleFreePage mem self m b npage
  else some mem

/-- The block joins the one on the list that ends where it begins. -/
def joinBehind (mem : ModuleHeap) (self : Option Nat) (m b n : Nat) (prev : Option Nat) :
    Option ModuleHeap :=
  let mem :=
    if b + memHeadSize * (mem.size b + mem.size n) = mem.next b then
      let mem := mem.setSize b (mem.size b + (mem.size (mem.next b) + mem.size n))
      mem.setNext b (mem.next (mem.next b))
    else mem.setSize b (mem.size b + mem.size n)
  if b % pageSize = 0 then mem.givePages self m b prev else some mem

/-- The block joins the one on the list that begins where it ends. At the begin of a page, it
comes onto the list only with what is left behind whole pages. -/
def joinBefore (mem : ModuleHeap) (self : Option Nat) (m b n : Nat) (prev : Option Nat) :
    Option ModuleHeap :=
  let mem := mem.setSize n (mem.size b + mem.size n)
  let mem := mem.setNext n (mem.next b)
  if n % pageSize = 0 then mem.givePages self m n prev else some (mem.store m n prev)

/-- The block touches none on the list. At the begin of a page, its pages are given back before
its size is read for what is left, and the size is compared with the bytes of a page. -/
def insert (mem : ModuleHeap) (self : Option Nat) (m b n : Nat) (prev : Option Nat) :
    Option ModuleHeap :=
  if n % pageSize = 0 then
    let npage := mem.size n * memHeadSize / pageSize
    if 0 < npage then do
      let mem ← rtModuleFreePage mem self m n npage
      if mem.size n % pageSize ≠ 0 then
        let nunits := npage * pageSize / memHeadSize
        let r := n + memHeadSize * nunits
        let mem := mem.setNext r b
        let mem := mem.setSize r ((mem.size n + 2 ^ 32 - nunits) % 2 ^ 32)
        pure (mem.store m r prev)
      else pure (mem.store m b prev)
    else some mem
  else
    let mem := mem.setNext n b
    some (mem.store m n prev)

/-- Join the block with the one that `*prev` points at, or link it in front of it. -/
def giveUnits (mem : ModuleHeap) (self : Option Nat) (m n : Nat) (prev : Option Nat) :
    Option ModuleHeap :=
  let b := (mem.list m).load prev
  if b ≠ 0 ∧ mem.behind b = n ∧ n % pageSize ≠ 0 then mem.joinBehind self m b n prev
  else if b ≠ 0 ∧ b = mem.behind n then mem.joinBefore self m b n prev
  else mem.insert self m b n prev

/-- New pages are a block on the list, in the order of the addresses. -/
def linkPages (mem : ModuleHeap) (self up npage : Nat) : Option ModuleHeap := do
  let mem := mem.setSize up (npage * pageSize / memHeadSize)
  let prev ← (mem.list self).seek (fun _ => true) (fun b => mem.behind up < b) none
  let mem := mem.setNext up ((mem.list self).load prev)
  pure (mem.store self up prev)

end ModuleHeap

/-- Without a block that is large enough, pages are asked for, and the search starts again. When
there are no pages, `mod_sem` is not released. -/
def ModuleHeap.rtModuleMalloc (mem : ModuleHeap) (self : Nat) (size : BitVec 32) :
    Option (ModuleHeap × Nat) :=
  if size = 0 then none
  else do
    let mem ← mem.lock
    let prev ← (mem.list self).seek (fun _ => true) (fun b => unitsFor size ≤ mem.size b) none
    let b := (mem.list self).load prev
    if b ≠ 0 then pure ((mem.takeUnits self prev (unitsFor size)).unlock, b + memHeadSize)
    else
      let (mem, up) ← rtModuleMallocPage mem self (pagesFor size)
      if up = 0 then pure (mem, 0)
      else
        let mem ← mem.linkPages self up (pagesFor size)
        mem.unlock |>.rtModuleMalloc self size
partial_fixpoint

export ModuleHeap (rtModuleMalloc)

/-- `addr` is the address behind the head of the block. -/
def rtModuleFree (mem : ModuleHeap) (self : Option Nat) (m addr : Nat) : Option ModuleHeap :=
  if addr ≠ 0 ∧ addr % memHeadSize = 0 then do
    let mem ← mem.lock
    let n := addr - memHeadSize
    let prev ← (mem.list m).seek
      (fun b => 0 < mem.size b ∧ (n < b ∨ mem.behind b ≤ n))
      (fun b => mem.behind b = n ∧ n % pageSize ≠ 0 ∨ b = mem.behind n ∨ mem.behind n < b) none
    let mem ← mem.giveUnits self m n prev
    pure mem.unlock
  else none

namespace ModuleHeap

/-- `rt_memmove` of whole units. -/
def memmove (mem : ModuleHeap) (dst src units : Nat) : ModuleHeap :=
  let cells := fun address =>
    if dst ≤ address ∧ address < dst + memHeadSize * units then
      mem.heap.cells (src + (address - dst))
    else mem.heap.cells address
  { mem with heap := { mem.heap with cells := cells } }

/-- The units that a block lacks. -/
def lack (mem : ModuleHeap) (b nunits : Nat) : Nat := nunits - mem.size b

/-- The block behind this one is the second one on the list, and large enough. -/
def GrowsInPlace (mem : ModuleHeap) (self b nunits : Nat) : Prop :=
  let p := mem.next (mem.modules self).memList
  p ≠ 0 ∧ mem.lack b nunits ≤ mem.size p ∧ p = mem.behind b

instance (mem : ModuleHeap) (self b nunits : Nat) : Decidable (mem.GrowsInPlace self b nunits) :=
  inferInstanceAs (Decidable (_ ∧ _ ∧ _))

/-- The block takes what it lacks from the one behind it. -/
def growInPlace (mem : ModuleHeap) (self b nunits : Nat) : ModuleHeap :=
  let prev := (mem.modules self).memList
  let p := mem.next prev
  if mem.size p = mem.lack b nunits then
    let mem := mem.setSize b nunits
    mem.setNext prev (mem.next p)
  else
    let tmpp := p
    let p := b + memHeadSize * nunits
    let mem := mem.setNext p (mem.next tmpp)
    let mem := mem.setSize p (mem.size tmpp + mem.size b - nunits)
    let mem := mem.setSize b nunits
    mem.setNext prev p

end ModuleHeap

/-- A null pointer is not dereferenced. -/
def rtModuleRealloc (mem : ModuleHeap) (self ptr : Nat) (size : BitVec 32) :
    Option (ModuleHeap × Nat) :=
  if ptr = 0 then rtModuleMalloc mem self size
  else if size = 0 then (rtModuleFree mem (some self) self ptr).map fun mem => (mem, 0)
  else
    let nunits := unitsFor size
    let b := ptr - memHeadSize
    if nunits ≤ mem.size b then
      if nunits = mem.size b then some (mem, ptr)
      else do
        let p := b + memHeadSize * nunits
        let mem := mem.setSize p (mem.size b - nunits)
        let mem := mem.setSize b nunits
        let mem ← rtModuleFree mem (some self) self (p + memHeadSize)
        pure (mem, b + memHeadSize)
    else if (mem.modules self).memList = 0 then none
    else if mem.GrowsInPlace self b nunits then
      some (mem.growInPlace self b nunits, b + memHeadSize)
    else do
      let (mem, p) ← rtModuleMalloc mem self size
      if p = 0 then pure (mem, 0)
      else
        let mem := mem.memmove p (b + memHeadSize) (mem.size b)
        let mem ← rtModuleFree mem (some self) self (b + memHeadSize)
        pure (mem, p)

end RtThread
