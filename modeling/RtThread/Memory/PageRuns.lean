import RtThread.Std.Machine
import RtThread.Memory.Page

/-!
# Runs of the page allocator

The runs of free pages lie apart from each other, and with the pages that have been
allocated they are the pages of the heap. Whoever has allocated pages writes to them, and
gives them back in parts.
-/

namespace RtThread

open RtThread.Std

section

variable {heap : PageHeap} {left right : List Span} {run next given : Span} {npages : Nat}

/-- Taking pages, only the list changes. -/
theorem PageHeap.heapSem_takePages (heap : PageHeap) (prev : Option Nat) (npages : Nat) :
    (heap.takePages prev npages).heapSem = heap.heapSem := by
  have store (heap : PageHeap) (target : Nat) :
      (heap.store target prev).heapSem = heap.heapSem := by
    cases prev <;> rfl
  rw [takePages]
  dsimp only
  split
  · rfl
  · split
    · rw [store]
      rfl
    · exact store _ _

theorem PageHeap.heapSem_givePages (heap : PageHeap) (prev : Option Nat) (n npages : Nat) :
    (heap.givePages prev n npages).heapSem = heap.heapSem := by
  have store (heap : PageHeap) (target : Nat) :
      (heap.store target prev).heapSem = heap.heapSem := by
    cases prev <;> rfl
  rw [givePages]
  dsimp only
  split
  · split <;> rfl
  · split
    · rw [store]
      rfl
    · rw [store]
      rfl

/-- The semaphore is taken and released. -/
theorem PageHeap.unlock_lock {locked : PageHeap} (taken : heap.lock = some locked) :
    locked.unlock = heap := by
  obtain ⟨value, takes, rfl⟩ := Option.map_eq_some_iff.mp taken
  obtain ⟨-, takes⟩ := Option.ite_none_right_eq_some.mp takes
  obtain rfl := Option.some_inj.mp takes
  have value := BitVec.sub_add_cancel heap.heapSem 1#16
  exact congrArg (fun value => { heap with heapSem := value }) value

theorem PageHeap.lock_isSome (positive : 0#16 < heap.heapSem) :
    ∃ locked, heap.lock = some locked := by
  rw [lock, semTake, if_pos positive]
  exact ⟨_, rfl⟩

theorem rtPageAlloc_heapSem {result : PageHeap × Nat}
    (step : rtPageAlloc heap npages = some result) :
    result.1.heapSem = heap.heapSem := by
  rw [rtPageAlloc] at step
  split at step
  · obtain rfl := Option.some_inj.mp step
    rfl
  · obtain ⟨locked, taken, step⟩ := Option.bind_eq_some_iff.mp step
    obtain ⟨prev, -, made⟩ := Option.bind_eq_some_iff.mp step
    obtain rfl := Option.some_inj.mp made
    change semRelease (locked.takePages prev npages).heapSem = _
    rw [PageHeap.heapSem_takePages]
    exact congrArg PageHeap.heapSem (PageHeap.unlock_lock taken)

theorem rtPageFree_heapSem {n : Nat} {result : PageHeap}
    (step : rtPageFree heap n npages = some result) :
    result.heapSem = heap.heapSem := by
  obtain ⟨-, step⟩ := Option.ite_none_right_eq_some.mp step
  obtain ⟨locked, taken, step⟩ := Option.bind_eq_some_iff.mp step
  obtain ⟨prev, -, made⟩ := Option.bind_eq_some_iff.mp step
  obtain rfl := Option.some_inj.mp made
  change semRelease (locked.givePages prev n npages).heapSem = _
  rw [PageHeap.heapSem_givePages]
  exact congrArg PageHeap.heapSem (PageHeap.unlock_lock taken)

/-- Taking pages, only heads of runs are written. -/
theorem PageHeap.takePages_cells {address : Nat}
    (threads : heap.list.Threads none (left ++ run :: right))
    (outside : ∀ other ∈ left ++ (run.rest pageSize npages ++ right), address ≠ other.start) :
    (heap.takePages (FreeList.after none left) npages).cells address = heap.cells address := by
  obtain ⟨points, nonnull, size⟩ := threads.node
  have store (heap : PageHeap) (target : Nat) :
      (heap.store target (FreeList.after none left)).cells address = heap.cells address := by
    rcases FreeList.after_eq none left with first | ⟨other, member, behind⟩
    · rw [first]
      rfl
    · rw [behind]
      exact Function.update_of_ne (outside other (List.mem_append_left _ member)) _ _
  have measure : heap.page run.start = run.length := size
  rw [takePages, points, if_neg nonnull, measure]
  split
  · rename_i less
    have rest : ⟨run.start + pageSize * npages, run.length - npages⟩ ∈
        left ++ (run.rest pageSize npages ++ right) := by
      simp [Span.rest, less]
    have apart := outside _ rest
    refine (store _ _).trans ((Function.update_of_ne apart _ _).trans ?_)
    exact Function.update_of_ne apart _ _
  · exact store heap _

/-- The first run that is long enough is cut, and without one nothing is. -/
theorem rtPageAlloc_spec {free : List Span} (spaced : Spaced pageSize free)
    (threads : heap.list.Threads none free) (positive : 0#16 < heap.heapSem) (some_ : 0 < npages) :
    (rtPageAlloc heap npages = some (heap, 0) ∧ ∀ run ∈ free, run.length < npages) ∨
      ∃ left run right next, free = left ++ run :: right ∧ npages ≤ run.length ∧
        rtPageAlloc heap npages = some (next, run.start) ∧
        next.list.Threads none (left ++ (run.rest pageSize npages ++ right)) ∧
        ∀ address, (∀ other ∈ left ++ (run.rest pageSize npages ++ right),
          address ≠ other.start) → next.cells address = heap.cells address := by
  obtain ⟨locked, taken⟩ := PageHeap.lock_isSome positive
  have unlocked := PageHeap.unlock_lock taken
  rw [← unlocked, PageHeap.list_unlock] at threads
  have alloc : ∀ prev, locked.list.seek (fun _ => true) (fun b => npages ≤ locked.page b) none =
      some prev → rtPageAlloc heap npages =
        some ((locked.takePages prev npages).unlock, locked.list.load prev) := by
    intro prev found
    rw [rtPageAlloc, if_neg (Nat.pos_iff_ne_zero.mp some_), taken]
    change (locked.list.seek _ _ none).bind _ = _
    rw [found]
    rfl
  obtain ⟨left, right, rfl, found, passed, stops⟩ := @FreeList.Threads.seek locked.list none free
    (fun _ => true) (fun b => npages ≤ locked.page b) threads fun _ _ _ _ _ => rfl
  cases right with
  | nil =>
      have ends := FreeList.threads_nil.mp (FreeList.threads_append.mp threads).2
      refine Or.inl ⟨?_, fun run member => ?_⟩
      · rw [alloc _ found, ends]
        have kept : locked.takePages (FreeList.after none left) npages = locked := by
          rw [PageHeap.takePages, ends]
          rfl
        rw [kept, unlocked]
      · have measure : locked.page run.start = run.length := (threads.node_of_mem member).2
        have short := of_decide_eq_false (passed run (List.append_nil left ▸ member))
        rw [measure] at short
        exact Nat.lt_of_not_le short
  | cons run right =>
      obtain ⟨points, nonnull, measure⟩ := threads.node
      have fits : npages ≤ run.length := measure ▸ of_decide_eq_true (stops run rfl)
      have result := alloc _ found
      rw [points] at result
      refine Or.inr ⟨left, run, right, _, rfl, fits, result, ?_, ?_⟩
      · rw [PageHeap.list_unlock, PageHeap.list_takePages (points ▸ nonnull)]
        exact threads.take (spaced.take fits)
      · intro address outside
        rw [← unlocked]
        exact locked.takePages_cells threads outside

/-- Pages that are in no run become free. -/
theorem rtPageFree_spec {free : List Span} (spaced : Spaced pageSize free)
    (threads : heap.list.Threads none free) (positive : 0#16 < heap.heapSem)
    (nonnull : given.start ≠ 0) (aligned : given.start % pageSize = 0) (some_ : 0 < given.length)
    (clear : ∀ run ∈ free, run.Clear pageSize given) :
    ∃ next free', rtPageFree heap given.start given.length = some next ∧
      next.list.Threads none free' ∧ Spaced pageSize free' ∧
      (cellsOf pageSize free').Perm (given.cells pageSize ++ cellsOf pageSize free) := by
  obtain ⟨locked, taken⟩ := PageHeap.lock_isSome positive
  have unlocked := PageHeap.unlock_lock taken
  rw [← unlocked, PageHeap.list_unlock] at threads
  obtain ⟨left, right, rfl, found, above, stops⟩ :=
    threads.seek_place spaced (by decide) some_ clear fun b => decide_eq_true_iff
  have result : rtPageFree heap given.start given.length =
      some (locked.givePages (FreeList.after none left) given.start given.length).unlock := by
    rw [rtPageFree, if_pos ⟨nonnull, aligned, some_.ne'⟩, taken]
    exact congrArg (Option.bind · _) found
  obtain ⟨free', threads', spaced', perm⟩ := threads.give (by decide) spaced nonnull some_ above
    (fun b member => clear b (List.mem_append_right _ member)) stops
  rw [← PageHeap.list_givePages] at threads'
  exact ⟨_, free', result, threads', spaced', perm⟩

end

/-! ## Runs -/

/-- The heap, and the runs of pages that have been allocated and not been given back. -/
structure PageState where
  heap : PageHeap
  live : List Span

inductive PageAction where
  | alloc (npages : Nat)
  /-- Give back some of the pages of a run, behind the first `skip`. -/
  | free (run : Span) (skip npages : Nat)
  /-- The owner of a page writes to it. -/
  | write (address : Nat) (cell : Cell)
deriving DecidableEq, Repr

/-- What can be done with the pages: an owner gives back pages of one run of his, and writes
to his pages. -/
def PageState.Legal (state : PageState) : PageAction → Prop
  | .alloc _ => True
  | .free run skip npages => run ∈ state.live ∧ 0 < npages ∧ skip + npages ≤ run.length
  | .write address _ => ∃ run ∈ state.live, run.start ≤ address ∧ address < run.finish pageSize

/-- The results of `rt_page_alloc` are observed. -/
def pageMachine : Machine PageState PageAction Nat where
  step state
    | .alloc npages => do
        let (heap, address) ← rtPageAlloc state.heap npages
        let live := if address = 0 then state.live else ⟨address, npages⟩ :: state.live
        pure (⟨heap, live⟩, [address])
    | .free run skip npages => do
        let heap ← rtPageFree state.heap (run.start + pageSize * skip) npages
        pure (⟨heap, run.cut pageSize skip npages ++ state.live.erase run⟩, [])
    | .write address cell =>
        let heap := { state.heap with cells := Function.update state.heap.cells address cell }
        some (⟨heap, state.live⟩, [])

/-- The pages of the heap `grid` are those of the runs on the list and those allocated. -/
structure PageInv (grid : Span) (state : PageState) (free : List Span) : Prop where
  threads : state.heap.list.Threads none free
  spaced : Spaced pageSize free
  nonempty : ∀ run ∈ state.live, 0 < run.length
  cells : (cellsOf pageSize free ++ cellsOf pageSize state.live).Perm (grid.cells pageSize)
  unlocked : state.heap.heapSem = 1#16
  nonnull : grid.start ≠ 0
  aligned : grid.start % pageSize = 0

namespace PageInv

variable {grid run : Span} {state next : PageState} {free : List Span}

theorem positive (inv : PageInv grid state free) : 0#16 < state.heap.heapSem := by
  rw [inv.unlocked]
  decide

theorem nodup (inv : PageInv grid state free) :
    (cellsOf pageSize free ++ cellsOf pageSize state.live).Nodup :=
  inv.cells.nodup_iff.mpr (Span.nodup_cells (by decide) grid)

theorem inside (inv : PageInv grid state free) (member : run ∈ free ∨ run ∈ state.live) :
    run.cells pageSize ⊆ grid.cells pageSize := by
  intro cell there
  refine inv.cells.subset (List.mem_append.mpr ?_)
  exact member.imp (fun member => cells_subset member there) fun member => cells_subset member there

/-- Pages of one run that has been allocated lie apart from those that are free. -/
theorem clear (inv : PageInv grid state free) (live : run ∈ state.live) {part : Span}
    (some_ : 0 < part.length) (cells : part.cells pageSize ⊆ run.cells pageSize) :
    ∀ other ∈ free, other.Clear pageSize part := by
  intro other member
  refine Span.clear_of_disjoint (inv.inside (Or.inl member))
    (List.Subset.trans cells (inv.inside (Or.inr live))) (inv.spaced.nonempty other member) some_ ?_
  have apart := (List.nodup_append.mp inv.nodup).2.2
  intro cell here there
  exact apart cell (cells_subset member here) cell (cells_subset live (cells there)) rfl

/-- A page of the heap has an address that is a multiple of the size of a page. -/
theorem page_aligned (inv : PageInv grid state free) {address : Nat}
    (member : address ∈ grid.cells pageSize) : address ≠ 0 ∧ address % pageSize = 0 := by
  obtain ⟨index, -, rfl⟩ := Span.mem_cells.mp member
  have nonnull := inv.nonnull
  have aligned := inv.aligned
  refine ⟨by omega, ?_⟩
  rw [Nat.add_mul_mod_self_left, aligned]

theorem alloc {npages : Nat} {emitted : List Nat} (inv : PageInv grid state free)
    (step : pageMachine.step state (.alloc npages) = some (next, emitted)) :
    ∃ free', PageInv grid next free' := by
  obtain ⟨⟨heap, address⟩, alloc, made⟩ := Option.bind_eq_some_iff.mp step
  obtain ⟨rfl, -⟩ := Prod.mk.inj (Option.some_inj.mp made)
  have value := rtPageAlloc_heapSem alloc
  have unchanged (same : rtPageAlloc state.heap npages = some (state.heap, 0)) :
      ∃ free', PageInv grid ⟨heap, if address = 0 then state.live
        else ⟨address, npages⟩ :: state.live⟩ free' := by
    obtain ⟨rfl, rfl⟩ := Prod.mk.inj (Option.some_inj.mp (alloc.symm.trans same))
    exact ⟨free, inv⟩
  rcases Nat.eq_zero_or_pos npages with rfl | some_
  · exact unchanged rfl
  rcases rtPageAlloc_spec inv.spaced inv.threads inv.positive some_ with
    ⟨same, -⟩ | ⟨left, run, right, after, rfl, fits, result, threads, -⟩
  · exact unchanged same
  · obtain ⟨rfl, rfl⟩ := Prod.mk.inj (Option.some_inj.mp (alloc.symm.trans result))
    have nonnull := inv.threads.node.2.1
    rw [if_neg nonnull]
    refine ⟨_, threads, inv.spaced.take fits, ?_, ?_, value.trans inv.unlocked, inv.nonnull,
      inv.aligned⟩
    · intro span member
      rcases List.mem_cons.mp member with rfl | member
      · exact some_
      · exact inv.nonempty span member
    · refine List.Perm.trans ?_ inv.cells
      simp only [cellsOf_append, cellsOf_cons, Span.cells_rest fits, List.append_assoc]
      refine List.Perm.append_left _ (List.Perm.trans ?_ (List.perm_append_comm_assoc ..))
      exact List.Perm.append_left _ (List.perm_append_comm_assoc ..)

theorem free_ {skip npages : Nat} (inv : PageInv grid state free)
    (legal : state.Legal (.free run skip npages)) :
    ∃ heap free', rtPageFree state.heap (run.start + pageSize * skip) npages = some heap ∧
      PageInv grid ⟨heap, run.cut pageSize skip npages ++ state.live.erase run⟩ free' := by
  obtain ⟨member, some_, fits⟩ := legal
  have cut := @Span.cells_cut pageSize _ _ _ fits
  have part : Span.cells pageSize ⟨run.start + pageSize * skip, npages⟩ ⊆ run.cells pageSize :=
    fun cell there => cut.symm.subset (List.mem_append_left _ there)
  obtain ⟨nonnull, aligned⟩ := inv.page_aligned
    (inv.inside (Or.inr member) (part (Span.start_mem_cells some_)))
  obtain ⟨heap, free', result, threads, spaced, perm⟩ := @rtPageFree_spec state.heap
    ⟨run.start + pageSize * skip, npages⟩ free inv.spaced inv.threads inv.positive nonnull aligned
    some_ (inv.clear member some_ part)
  have live := cellsOf_perm pageSize (List.perm_cons_erase member)
  rw [cellsOf_cons] at live
  refine ⟨heap, free', result, threads, spaced, fun span there => ?_, ?_,
    (rtPageFree_heapSem result).trans inv.unlocked, inv.nonnull, inv.aligned⟩
  · rcases List.mem_append.mp there with cutOff | other
    · exact Span.length_pos_cut cutOff
    · exact inv.nonempty span (List.mem_of_mem_erase other)
  · refine List.Perm.trans ?_ inv.cells
    rw [cellsOf_append]
    refine (perm.append_right _).trans ?_
    rw [List.append_assoc]
    refine (List.perm_append_comm_assoc ..).trans (List.Perm.append_left _ ?_)
    rw [← List.append_assoc]
    exact ((cut.symm.append_right _).trans live.symm)

/-- The head of a free run lies in no run that has been allocated. -/
theorem head_outside (inv : PageInv grid state free) {other : Span} (there : other ∈ free)
    (member : run ∈ state.live) :
    ¬ (run.start ≤ other.start ∧ other.start < run.finish pageSize) := by
  rintro ⟨low, high⟩
  rcases inv.clear member (inv.nonempty run member) (List.Subset.refl _) other there with
    before | behind
  · have first := inv.spaced.nonempty other there
    rw [Span.finish] at before
    simp only [pageSize] at before
    omega
  · omega

/-- What the owners write is not on the list. -/
theorem writes {cells : Nat → Cell} (inv : PageInv grid state free)
    (kept : ∀ address, (∀ run ∈ state.live,
      ¬ (run.start ≤ address ∧ address < run.finish pageSize)) →
        cells address = state.heap.cells address) :
    PageInv grid ⟨{ state.heap with cells := cells }, state.live⟩ free := by
  have same (other : Span) (there : other ∈ free) :
      cells other.start = state.heap.cells other.start :=
    kept _ fun _ member => inv.head_outside there member
  refine ⟨inv.threads.move rfl (fun other there => ?_) fun other there => ?_, inv.spaced,
    inv.nonempty, inv.cells, inv.unlocked, inv.nonnull, inv.aligned⟩
  · exact congrArg Cell.first (same other there)
  · exact congrArg Cell.second (same other there)

theorem write {address : Nat} {cell : Cell} (inv : PageInv grid state free)
    (legal : state.Legal (.write address cell)) :
    PageInv grid ⟨{ state.heap with cells := Function.update state.heap.cells address cell },
      state.live⟩ free := by
  obtain ⟨run, member, inside⟩ := legal
  refine inv.writes fun other outside => Function.update_of_ne ?_ _ _
  rintro rfl
  exact outside run member inside

/-- The order in which the runs have been allocated does not matter. -/
theorem perm {live : List Span} (inv : PageInv grid state free) (same : live.Perm state.live) :
    PageInv grid ⟨state.heap, live⟩ free := by
  refine ⟨inv.threads, inv.spaced, fun run member => inv.nonempty run (same.subset member), ?_,
    inv.unlocked, inv.nonnull, inv.aligned⟩
  exact ((cellsOf_perm pageSize same).append_left _).trans inv.cells

/-- Each step keeps the invariant. -/
theorem step {action : PageAction} {emitted : List Nat} (inv : PageInv grid state free)
    (legal : state.Legal action) (step : pageMachine.step state action = some (next, emitted)) :
    ∃ free', PageInv grid next free' := by
  cases action with
  | alloc npages => exact inv.alloc step
  | free run skip npages =>
      obtain ⟨heap, freed, made⟩ := Option.bind_eq_some_iff.mp step
      obtain ⟨rfl, -⟩ := Prod.mk.inj (Option.some_inj.mp made)
      obtain ⟨heap', free', result, inv'⟩ := inv.free_ legal
      obtain rfl := Option.some_inj.mp (freed.symm.trans result)
      exact ⟨free', inv'⟩
  | write address cell =>
      obtain ⟨rfl, -⟩ := Prod.mk.inj (Option.some_inj.mp step)
      exact ⟨free, inv.write legal⟩

/-- After `rt_page_init`, all pages are one run. -/
theorem init {heap heap' : PageHeap} {addr npages : Nat} (unlocked : heap.heapSem = 1#16)
    (init : rtPageInit heap addr npages = some heap') :
    ∃ free, PageInv ⟨addr, npages⟩ ⟨heap', []⟩ free := by
  obtain ⟨⟨nonnull, some_⟩, made⟩ := Option.ite_none_right_eq_some.mp init
  obtain ⟨⟨-, aligned, -⟩, -⟩ := Option.ite_none_right_eq_some.mp made
  have positive : 0#16 < heap.heapSem := by
    rw [unlocked]
    decide
  obtain ⟨heap'', free, result, threads, spaced, perm⟩ :=
    @rtPageFree_spec { heap with rtPageList := 0 } ⟨addr, npages⟩ [] .nil
      (FreeList.threads_nil.mpr rfl) positive nonnull aligned (Nat.pos_of_ne_zero some_) (by simp)
  obtain rfl := Option.some_inj.mp (made.symm.trans result)
  refine ⟨free, threads, spaced, by simp, ?_, (rtPageFree_heapSem made).trans unlocked, nonnull,
    aligned⟩
  simpa using perm

end PageInv

/-- After each step of a run, the runs on the list lie in the order of their addresses, and
none touches the next one. They and the runs allocated are the pages of the heap, without
overlap. An allocation fails only if no run on the list is long enough, and what has been
allocated can be given back. -/
theorem page_list_coalesced {heap heap' : PageHeap} {addr npages : Nat} {actions : List PageAction}
    {events : List Nat} {state : PageState} (unlocked : heap.heapSem = 1#16)
    (init : rtPageInit heap addr npages = some heap')
    (run : pageMachine.Run PageState.Legal ⟨heap', []⟩ actions events state) :
    ∃ free, state.heap.list.Threads none free ∧ Spaced pageSize free ∧
      (cellsOf pageSize free ++ cellsOf pageSize state.live).Perm
        (Span.cells pageSize ⟨addr, npages⟩) ∧
      state.live.Pairwise (Span.Clear pageSize) ∧
      (∀ count, 0 < count → ∃ next address, rtPageAlloc state.heap count = some (next, address) ∧
        (address = 0 → ∀ run ∈ free, run.length < count)) ∧
      ∀ run skip count, state.Legal (.free run skip count) →
        ∃ next, rtPageFree state.heap (run.start + pageSize * skip) count = some next := by
  obtain ⟨free, inv⟩ := run.invariant (PageInv.init unlocked init)
    fun _ _ _ _ inv legal step => Exists.elim inv fun _ inv => inv.step legal step
  refine ⟨free, inv.threads, inv.spaced, inv.cells, ?_, fun count some_ => ?_, ?_⟩
  · exact pairwise_clear (fun run member => inv.inside (Or.inr member)) inv.nonempty
      (List.nodup_append.mp inv.nodup).2.1
  · rcases rtPageAlloc_spec inv.spaced inv.threads inv.positive some_ with
      ⟨same, short⟩ | ⟨left, run, right, next, rfl, -, result, -⟩
    · exact ⟨_, _, same, fun _ => short⟩
    · refine ⟨_, _, result, fun null => ?_⟩
      exact absurd null inv.threads.node.2.1
  · intro run skip count legal
    obtain ⟨next, free', result, -⟩ := inv.free_ legal
    exact ⟨next, result⟩

/-- A heap of four pages from the address 4096 on. -/
def fourPages : PageHeap :=
  (((⟨fun _ => ⟨0, 0⟩, 0, 1#16⟩ : PageHeap).setPage 4096 4).setNext 4096 0).store 4096 none

theorem fourPages_init : rtPageInit ⟨fun _ => ⟨0, 0⟩, 0, 1#16⟩ 4096 4 = some fourPages := by
  rw [rtPageInit, if_pos (by decide), rtPageFree, if_pos (by decide)]
  change ((FreeList.seek _ _ _ none).bind _ : Option PageHeap) = _
  rw [FreeList.seek]
  rfl

/-- Three pages are allocated, and the second one of them is given back. -/
theorem page_list_coalesced_four : ∃ state,
    rtPageInit ⟨fun _ => ⟨0, 0⟩, 0, 1#16⟩ 4096 4 = some fourPages ∧
      pageMachine.Run PageState.Legal ⟨fourPages, []⟩ [.alloc 3, .free ⟨4096, 3⟩ 1 1] [4096] state ∧
      ∃ free, state.heap.list.Threads none free ∧ Spaced pageSize free ∧
        (cellsOf pageSize free ++ cellsOf pageSize [⟨4096, 1⟩, ⟨12288, 1⟩]).Perm
          (Span.cells pageSize ⟨4096, 4⟩) := by
  have alloc : pageMachine.step ⟨fourPages, []⟩ (.alloc 3) =
      some (⟨fourPages.takePages none 3, [⟨4096, 3⟩]⟩, [4096]) := by
    change ((rtPageAlloc fourPages 3).bind _ : Option _) = _
    rw [rtPageAlloc, if_neg (by decide)]
    change (((FreeList.seek _ _ _ none).bind _ : Option (PageHeap × Nat)).bind _ : Option _) = _
    rw [FreeList.seek]
    rfl
  have admitted : PageState.Legal ⟨fourPages, []⟩ (.alloc 3) := trivial
  have taken := Machine.Run.snoc .nil admitted alloc
  have legal : PageState.Legal ⟨fourPages.takePages none 3, [⟨4096, 3⟩]⟩ (.free ⟨4096, 3⟩ 1 1) :=
    ⟨List.mem_cons_self, by decide, by decide⟩
  obtain ⟨-, -, -, -, -, -, returns⟩ := page_list_coalesced rfl fourPages_init taken
  obtain ⟨next, freed⟩ := returns _ _ _ legal
  have free : pageMachine.step ⟨fourPages.takePages none 3, [⟨4096, 3⟩]⟩ (.free ⟨4096, 3⟩ 1 1) =
      some (⟨next, [⟨4096, 1⟩, ⟨12288, 1⟩]⟩, []) := by
    change ((rtPageFree _ _ _).bind _ : Option _) = _
    rw [freed]
    rfl
  have run := taken.snoc legal free
  obtain ⟨free, threads, spaced, cells, -⟩ := page_list_coalesced rfl fourPages_init run
  exact ⟨_, fourPages_init, run, free, threads, spaced, cells⟩

end RtThread
