import RtThread.Std.FreeList

/-!
# The page allocator

`rt_page_alloc` and `rt_page_free`. The head of a free run of pages lies in its first page.
Memory is a cell of two words at each address, since a module keeps heads of its own in the
pages that it has been given.
-/

namespace RtThread

open RtThread.Std

/-- `RT_MM_PAGE_SIZE`. -/
abbrev pageSize : Nat := 4096

/-- Two words of memory. -/
structure Cell where
  first : Nat
  second : Nat
deriving DecidableEq, Repr

/-- `rt_sem_take` with `RT_WAITING_FOREVER`, by a caller whom nobody will wake. -/
def semTake (value : BitVec 16) : Option (BitVec 16) :=
  if 0#16 < value then some (value - 1#16) else none

/-- `rt_sem_release` when nobody waits. -/
def semRelease (value : BitVec 16) : BitVec 16 := value + 1#16

/-- The heap memory, `rt_page_list` and the value of `heap_sem`. -/
structure PageHeap where
  cells : Nat → Cell
  rtPageList : Nat
  heapSem : BitVec 16

namespace PageHeap

/-- `((struct rt_page_head *)b)->next`. -/
def next (heap : PageHeap) (b : Nat) : Nat := (heap.cells b).first

/-- `((struct rt_page_head *)b)->page`. -/
def page (heap : PageHeap) (b : Nat) : Nat := (heap.cells b).second

def setNext (heap : PageHeap) (b next : Nat) : PageHeap :=
  { heap with cells := Function.update heap.cells b { heap.cells b with first := next } }

def setPage (heap : PageHeap) (b page : Nat) : PageHeap :=
  { heap with cells := Function.update heap.cells b { heap.cells b with second := page } }

/-- `*prev = target`. -/
def store (heap : PageHeap) (target : Nat) : Option Nat → PageHeap
  | none => { heap with rtPageList := target }
  | some b => heap.setNext b target

/-- The list that starts at `rt_page_list`. -/
def list (heap : PageHeap) : FreeList where
  head := heap.rtPageList
  next := heap.next
  size := heap.page

def lock (heap : PageHeap) : Option PageHeap :=
  (semTake heap.heapSem).map fun value => { heap with heapSem := value }

def unlock (heap : PageHeap) : PageHeap :=
  { heap with heapSem := semRelease heap.heapSem }

@[simp] theorem list_setNext (heap : PageHeap) (b target : Nat) :
    (heap.setNext b target).list = heap.list.store target (some b) := by
  simp only [list, setNext, FreeList.store, FreeList.mk.injEq, true_and]
  constructor
  · funext other
    by_cases same : other = b
    · simp [next, same]
    · simp [next, same]
  · funext other
    by_cases same : other = b
    · simp [page, same]
    · simp [page, same]

@[simp] theorem list_setPage (heap : PageHeap) (b pages : Nat) :
    (heap.setPage b pages).list = heap.list.setSize b pages := by
  simp only [list, setPage, FreeList.setSize, FreeList.mk.injEq, true_and]
  constructor
  · funext other
    by_cases same : other = b
    · simp [next, same]
    · simp [next, same]
  · funext other
    by_cases same : other = b
    · simp [page, same]
    · simp [page, same]

@[simp] theorem list_store (heap : PageHeap) (target : Nat) (prev : Option Nat) :
    (heap.store target prev).list = heap.list.store target prev := by
  cases prev with
  | none => rfl
  | some b => exact heap.list_setNext b target

@[simp] theorem next_setPage (heap : PageHeap) (b pages other : Nat) :
    (heap.setPage b pages).next other = heap.next other :=
  congrFun (congrArg FreeList.next (heap.list_setPage b pages)) other

@[simp] theorem page_setNext (heap : PageHeap) (b target other : Nat) :
    (heap.setNext b target).page other = heap.page other :=
  (congrFun (congrArg FreeList.size (heap.list_setNext b target)) other).trans
    (congrFun (heap.list.size_store target (some b)) other)

@[simp] theorem page_setPage_self (heap : PageHeap) (b pages : Nat) :
    (heap.setPage b pages).page b = pages := by
  simp [page, setPage]

theorem page_setPage_of_ne {b other : Nat} (heap : PageHeap) (pages : Nat) (apart : other ≠ b) :
    (heap.setPage b pages).page other = heap.page other := by
  simp [page, setPage, apart]

@[simp] theorem list_unlock (heap : PageHeap) : heap.unlock.list = heap.list := rfl

/-- Take the first pages of the run that `*prev` points at, or the whole of it. -/
def takePages (heap : PageHeap) (prev : Option Nat) (npages : Nat) : PageHeap :=
  let b := heap.list.load prev
  if b = 0 then heap
  else if npages < heap.page b then
    let n := b + pageSize * npages
    let heap := heap.setNext n (heap.next b)
    let heap := heap.setPage n (heap.page b - npages)
    heap.store n prev
  else heap.store (heap.next b) prev

/-- Join the pages with the run that `*prev` points at, or link them in front of it. -/
def givePages (heap : PageHeap) (prev : Option Nat) (n npages : Nat) : PageHeap :=
  let b := heap.list.load prev
  if b ≠ 0 ∧ b + pageSize * heap.page b = n then
    let heap := heap.setPage b (heap.page b + npages)
    if b + pageSize * heap.page b = heap.next b then
      let heap := heap.setPage b (heap.page b + heap.page (heap.next b))
      heap.setNext b (heap.next (heap.next b))
    else heap
  else if b ≠ 0 ∧ b = n + pageSize * npages then
    let heap := heap.setPage n (heap.page b + npages)
    let heap := heap.setNext n (heap.next b)
    heap.store n prev
  else
    let heap := heap.setPage n npages
    let heap := heap.setNext n b
    heap.store n prev

theorem list_takePages {heap : PageHeap} {prev : Option Nat} (some_ : heap.list.load prev ≠ 0)
    (npages : Nat) :
    (heap.takePages prev npages).list = heap.list.take pageSize prev npages := by
  rw [takePages, if_neg some_, FreeList.take]
  change _ = if npages < heap.page (heap.list.load prev) then _ else _
  split
  · dsimp only
    rw [page_setNext, list_store, list_setPage, list_setNext, FreeList.setSize_store]
    rfl
  · exact heap.list_store _ prev

theorem list_givePages (heap : PageHeap) (prev : Option Nat) (n npages : Nat) :
    (heap.givePages prev n npages).list = heap.list.give pageSize prev n npages := by
  rw [givePages, FreeList.give]
  generalize heap.list.load prev = b
  by_cases behind : b ≠ 0 ∧ b + pageSize * heap.page b = n
  · refine Eq.trans ?_ (if_pos behind).symm
    rw [if_pos behind]
    dsimp only
    rw [next_setPage, page_setPage_self]
    by_cases joins : b + pageSize * (heap.page b + npages) = heap.next b
    · -- The next run is another one, unless all that is joined is empty.
      have measure : (heap.setPage b (heap.page b + npages)).page (heap.next b) =
          heap.page (heap.next b) := by
        by_cases same : heap.next b = b
        · rw [same] at joins ⊢
          rw [page_setPage_self]
          simp only [pageSize] at joins
          omega
        · exact heap.page_setPage_of_ne _ same
      refine Eq.trans ?_ (if_pos joins).symm
      rw [if_pos joins, measure, list_setNext, list_setPage, list_setPage,
        FreeList.setSize_setSize]
      simp only [next_setPage]
      rfl
    · refine Eq.trans ?_ (if_neg joins).symm
      rw [if_neg joins]
      exact heap.list_setPage _ _
  · refine Eq.trans ?_ (if_neg behind).symm
    rw [if_neg behind]
    split
    · dsimp only
      rw [next_setPage, list_store, list_setNext, list_setPage]
      rfl
    · dsimp only
      rw [list_store, list_setNext, list_setPage]

end PageHeap

/-- The result is 0 when there is no run of so many pages. -/
def rtPageAlloc (heap : PageHeap) (npages : Nat) : Option (PageHeap × Nat) :=
  if npages = 0 then some (heap, 0)
  else do
    let heap ← heap.lock
    let prev ← heap.list.seek (fun _ => true) (fun b => npages ≤ heap.page b) none
    let b := heap.list.load prev
    pure ((heap.takePages prev npages).unlock, b)

/-- A failed assertion does not return. -/
def rtPageFree (heap : PageHeap) (n npages : Nat) : Option PageHeap :=
  if n ≠ 0 ∧ n % pageSize = 0 ∧ npages ≠ 0 then do
    let heap ← heap.lock
    let prev ← heap.list.seek
      (fun b => 0 < heap.page b ∧ (n < b ∨ b + pageSize * heap.page b ≤ n))
      (fun b => b + pageSize * heap.page b = n ∨ b = n + pageSize * npages ∨
        n + pageSize * npages < b) none
    pure (heap.givePages prev n npages).unlock
  else none

def rtPageInit (heap : PageHeap) (addr npages : Nat) : Option PageHeap :=
  if addr ≠ 0 ∧ npages ≠ 0 then rtPageFree { heap with rtPageList := 0 } addr npages
  else none

end RtThread
