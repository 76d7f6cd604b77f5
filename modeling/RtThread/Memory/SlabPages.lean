import RtThread.Memory.PageRuns
import RtThread.Memory.SlabSizes

/-!
# The pages of the slab allocator

Pages are given to zones, to large blocks and to others, and the table of the pages says what
each page of a zone and the first page of a large block is for.
-/

namespace RtThread

open RtThread.Std

/-! ## The value of the semaphore -/

namespace PageHeap

def withSem (heap : PageHeap) (value : BitVec 16) : PageHeap := { heap with heapSem := value }

variable {heap : PageHeap} {value : BitVec 16}

theorem list_withSem : (heap.withSem value).list = heap.list := rfl

theorem next_withSem (b : Nat) : (heap.withSem value).next b = heap.next b := rfl

theorem page_withSem (b : Nat) : (heap.withSem value).page b = heap.page b := rfl

theorem setNext_withSem (b target : Nat) :
    (heap.withSem value).setNext b target = (heap.setNext b target).withSem value := rfl

theorem setPage_withSem (b pages : Nat) :
    (heap.withSem value).setPage b pages = (heap.setPage b pages).withSem value := rfl

theorem store_withSem (target : Nat) (prev : Option Nat) :
    (heap.withSem value).store target prev = (heap.store target prev).withSem value := by
  cases prev <;> rfl

theorem ite_withSem {p : Prop} [Decidable p] (a b : PageHeap) :
    (if p then a else b).withSem value = if p then a.withSem value else b.withSem value :=
  apply_ite (withSem · value) p a b

theorem takePages_withSem (prev : Option Nat) (npages : Nat) :
    (heap.withSem value).takePages prev npages = (heap.takePages prev npages).withSem value := by
  simp only [takePages, list_withSem, next_withSem, page_withSem, setNext_withSem,
    setPage_withSem, store_withSem, ite_withSem]

theorem givePages_withSem (prev : Option Nat) (n npages : Nat) :
    (heap.withSem value).givePages prev n npages =
      (heap.givePages prev n npages).withSem value := by
  simp only [givePages, list_withSem, next_withSem, page_withSem, setNext_withSem,
    setPage_withSem, store_withSem, ite_withSem]
  rfl

theorem lock_withSem : (heap.withSem 1#16).lock = some (heap.withSem 0#16) := by
  have positive : 0#16 < (heap.withSem 1#16).heapSem := show 0#16 < 1#16 by decide
  rw [lock, semTake, if_pos positive]
  exact congrArg (fun value => some (heap.withSem value)) (show 1#16 - 1#16 = 0#16 by decide)

/-- Where the semaphore has been taken, the rest of the heap is as before. -/
theorem lock_eq {locked : PageHeap} (taken : heap.lock = some locked) :
    ∃ value, locked = heap.withSem value := by
  obtain ⟨value, -, rfl⟩ := Option.map_eq_some_iff.mp taken
  exact ⟨value, rfl⟩

end PageHeap

/-- What `rt_page_alloc` does does not depend on the value of the semaphore. -/
theorem rtPageAlloc_withSem {heap heap' : PageHeap} {npages p : Nat}
    (step : rtPageAlloc heap npages = some (heap', p)) :
    rtPageAlloc (heap.withSem 1#16) npages = some (heap'.withSem 1#16, p) := by
  rw [rtPageAlloc] at step ⊢
  split at step
  · rename_i none_
    obtain ⟨rfl, rfl⟩ := Prod.mk.inj (Option.some_inj.mp step)
    rw [if_pos none_]
  · rename_i some_
    obtain ⟨locked, taken, step⟩ := Option.bind_eq_some_iff.mp step
    obtain ⟨value, rfl⟩ := PageHeap.lock_eq taken
    obtain ⟨prev, found, made⟩ := Option.bind_eq_some_iff.mp step
    obtain ⟨rfl, rfl⟩ := Prod.mk.inj (Option.some_inj.mp made)
    rw [if_neg some_]
    rw [PageHeap.lock_withSem]
    change ((FreeList.seek heap.list (fun _ => true) (fun b => npages ≤ heap.page b) none).bind _ :
      Option (PageHeap × Nat)) = _
    have found : heap.list.seek (fun _ => true) (fun b => npages ≤ heap.page b) none = some prev :=
      found
    rw [found]
    change some (((heap.withSem 0#16).takePages prev npages).unlock, _) =
      some (((heap.withSem value).takePages prev npages).unlock.withSem 1#16, _)
    rw [PageHeap.takePages_withSem, PageHeap.takePages_withSem]
    rfl

theorem rtPageFree_withSem {heap heap' : PageHeap} {npages n : Nat}
    (step : rtPageFree heap n npages = some heap') :
    rtPageFree (heap.withSem 1#16) n npages = some (heap'.withSem 1#16) := by
  obtain ⟨checks, step⟩ := Option.ite_none_right_eq_some.mp step
  obtain ⟨locked, taken, step⟩ := Option.bind_eq_some_iff.mp step
  obtain ⟨value, rfl⟩ := PageHeap.lock_eq taken
  obtain ⟨prev, found, made⟩ := Option.bind_eq_some_iff.mp step
  obtain rfl := Option.some_inj.mp made
  rw [rtPageFree, if_pos checks]
  rw [PageHeap.lock_withSem]
  change ((FreeList.seek heap.list (fun b => 0 < heap.page b ∧
      (n < b ∨ b + pageSize * heap.page b ≤ n)) (fun b => b + pageSize * heap.page b = n ∨
        b = n + pageSize * npages ∨ n + pageSize * npages < b) none).bind _ : Option PageHeap) = _
  have found : heap.list.seek (fun b => 0 < heap.page b ∧
      (n < b ∨ b + pageSize * heap.page b ≤ n)) (fun b => b + pageSize * heap.page b = n ∨
        b = n + pageSize * npages ∨ n + pageSize * npages < b) none = some prev := found
  rw [found]
  change some ((heap.withSem 0#16).givePages prev n npages).unlock =
    some (((heap.withSem value).givePages prev n npages).unlock.withSem 1#16)
  rw [PageHeap.givePages_withSem, PageHeap.givePages_withSem]
  rfl

namespace PageInv

variable {grid run : Span} {heap heap' : PageHeap} {live free : List Span} {npages p : Nat}

/-- Whoever asks for pages becomes the owner of a run of them. -/
theorem alloc_withSem (inv : PageInv grid ⟨heap.withSem 1#16, live⟩ free)
    (step : rtPageAlloc heap npages = some (heap', p)) :
    ∃ free', PageInv grid
      ⟨heap'.withSem 1#16, if p = 0 then live else ⟨p, npages⟩ :: live⟩ free' := by
  have step := rtPageAlloc_withSem step
  refine @PageInv.alloc _ _ _ _ npages [p] inv ?_
  change ((rtPageAlloc (heap.withSem 1#16) npages).bind _ : Option _) = _
  rw [step]
  rfl

/-- Pages of a run are given back. -/
theorem free_withSem {skip : Nat} (inv : PageInv grid ⟨heap.withSem 1#16, live⟩ free)
    (member : run ∈ live) (some_ : 0 < npages) (fits : skip + npages ≤ run.length)
    (step : rtPageFree heap (run.start + pageSize * skip) npages = some heap') :
    ∃ free', PageInv grid
      ⟨heap'.withSem 1#16, run.cut pageSize skip npages ++ live.erase run⟩ free' := by
  obtain ⟨next, free', result, inv'⟩ := inv.free_ ⟨member, some_, fits⟩
  obtain rfl := Option.some_inj.mp ((rtPageFree_withSem step).symm.trans result)
  exact ⟨free', inv'⟩

/-- A whole run is given back. -/
theorem free_all (inv : PageInv grid ⟨heap.withSem 1#16, live⟩ free) (member : run ∈ live)
    (step : rtPageFree heap run.start run.length = some heap') :
    ∃ free', PageInv grid ⟨heap'.withSem 1#16, live.erase run⟩ free' := by
  have nothing : run.cut pageSize 0 run.length = [] := by simp [Span.cut, Span.rest]
  have freed := inv.free_withSem member (inv.nonempty run member) (Nat.zero_add _).le step
  rwa [nothing] at freed

end PageInv

/-! ## The owners of the pages -/

/-- The pages of a zone. -/
def Slab.zoneSpan (slab : Slab) (z : Nat) : Span := ⟨z, slab.zonePageCnt⟩

theorem Slab.setUsage_inside (slab : Slab) (z : Nat) (kup : Nat → MemUsage) {i : Nat}
    (within : i < slab.zonePageCnt) :
    (slab.setUsage z kup).memusage (slab.btokup z + i) = kup i := by
  refine (if_pos ⟨Nat.le_add_right _ _, Nat.add_lt_add_left within _⟩).trans ?_
  rw [Nat.add_sub_cancel_left]

theorem Slab.setUsage_outside (slab : Slab) (z : Nat) (kup : Nat → MemUsage) {index : Nat}
    (outside : index < slab.btokup z ∨ slab.btokup z + slab.zonePageCnt ≤ index) :
    (slab.setUsage z kup).memusage index = slab.memusage index :=
  if_neg (by omega)

/-- The pages of zones, of large blocks and of others, with what the table says about them. -/
structure SlabPages (slab : Slab) (grid : Span) (zones : List Nat) (large others : List Span) :
    Prop where
  pages : ∃ free, PageInv grid
    ⟨slab.pages.withSem 1#16, zones.map slab.zoneSpan ++ (large ++ others)⟩ free
  start : grid.start = slab.heapStart
  small : ∀ z ∈ zones, ∀ i < slab.zonePageCnt, slab.memusage (slab.btokup z + i) = ⟨.small, i⟩
  first : ∀ run ∈ large, slab.memusage (slab.btokup run.start) = ⟨.large, run.length⟩

namespace SlabPages

variable {slab slab' : Slab} {grid run : Span} {zones zones' : List Nat} {large others : List Span}
  {z p : Nat}

/-- The runs of pages that belong to somebody. -/
theorem page (owned : SlabPages slab grid zones large others)
    (member : run ∈ zones.map slab.zoneSpan ++ (large ++ others)) :
    run.start = slab.heapStart + pageSize * slab.btokup run.start := by
  obtain ⟨free, inv⟩ := owned.pages
  have inside := inv.inside (Or.inr member) (Span.start_mem_cells (inv.nonempty run member))
  obtain ⟨index, -, same⟩ := Span.mem_cells.mp inside
  rw [owned.start] at same
  rw [Slab.btokup, ← same, Nat.add_sub_cancel_left, Nat.mul_div_cancel_left _ (by decide)]

theorem aligned (owned : SlabPages slab grid zones large others)
    (member : run ∈ zones.map slab.zoneSpan ++ (large ++ others)) :
    run.start ≠ 0 ∧ run.start % pageSize = 0 := by
  obtain ⟨free, inv⟩ := owned.pages
  exact inv.page_aligned
    (inv.inside (Or.inr member) (Span.start_mem_cells (inv.nonempty run member)))

theorem clear (owned : SlabPages slab grid zones large others) :
    (zones.map slab.zoneSpan ++ (large ++ others)).Pairwise (Span.Clear pageSize) := by
  obtain ⟨free, inv⟩ := owned.pages
  exact pairwise_clear (fun run member => inv.inside (Or.inr member)) inv.nonempty
    (List.nodup_append.mp inv.nodup).2.1

/-- The pages of two owners do not overlap. -/
theorem apart {run' : Span} (owned : SlabPages slab grid zones large others)
    (member : run ∈ zones.map slab.zoneSpan ++ (large ++ others))
    (member' : run' ∈ zones.map slab.zoneSpan ++ (large ++ others)) (differ : run ≠ run') :
    Span.Clear pageSize run run' := by
  have symm : Std.Symm (Span.Clear pageSize) := ⟨fun _ _ => Span.Clear.symm⟩
  exact owned.clear.forall member member' differ

theorem nodup (owned : SlabPages slab grid zones large others) : zones.Nodup := by
  have clear := List.pairwise_map.mp (List.pairwise_append.mp owned.clear).1
  refine clear.imp_of_mem fun {z z'} member _ clear => ?_
  rintro rfl
  obtain ⟨free, inv⟩ := owned.pages
  have some_ := inv.nonempty _ (List.mem_append_left _ (List.mem_map_of_mem member))
  simp only [Span.Clear, Span.finish, Slab.zoneSpan, pageSize] at clear some_
  omega

/-- The pages do not depend on the headers of the zones and on the counters. -/
theorem congr (owned : SlabPages slab grid zones large others) (pages : slab'.pages = slab.pages)
    (start : slab'.heapStart = slab.heapStart) (count : slab'.zonePageCnt = slab.zonePageCnt)
    (table : slab'.memusage = slab.memusage) : SlabPages slab' grid zones large others := by
  have span : slab'.zoneSpan = slab.zoneSpan := by
    ext z
    rw [Slab.zoneSpan, Slab.zoneSpan, count]
  have index : slab'.btokup = slab.btokup := by
    ext addr
    rw [Slab.btokup, Slab.btokup, start]
  refine ⟨?_, owned.start.trans start.symm, ?_, ?_⟩
  · rw [pages, span]
    exact owned.pages
  · rw [count, table, index]
    exact owned.small
  · rw [table, index]
    exact owned.first

/-- The order of the zones does not matter. -/
theorem perm (owned : SlabPages slab grid zones large others) (same : zones'.Perm zones) :
    SlabPages slab grid zones' large others := by
  obtain ⟨free, inv⟩ := owned.pages
  exact ⟨⟨free, inv.perm ((same.map _).append_right _)⟩, owned.start,
    fun z member => owned.small z (same.subset member), owned.first⟩

/-- A table that says something else about the pages of one run only, says the same about those
of the others. -/
theorem tag_kept {a b : Span} {i : Nat} (clear : Span.Clear pageSize a b)
    (page : a.start = slab.heapStart + pageSize * slab.btokup a.start)
    (page' : b.start = slab.heapStart + pageSize * slab.btokup b.start) (within : i < a.length)
    (same : ∀ index, index < slab.btokup b.start ∨ slab.btokup b.start + b.length ≤ index →
      slab'.memusage index = slab.memusage index) :
    slab'.memusage (slab.btokup a.start + i) = slab.memusage (slab.btokup a.start + i) := by
  refine same _ ?_
  simp only [Span.Clear, Span.finish, pageSize] at clear page page'
  omega

/-- The tables agree outside one run, whose owner changes. -/
theorem retag {zones' : List Nat} {large' others' : List Span}
    (owned : SlabPages slab grid zones large others)
    (pages : ∃ free, PageInv grid
      ⟨slab'.pages.withSem 1#16, zones'.map slab'.zoneSpan ++ (large' ++ others')⟩ free)
    (sameStart : slab'.heapStart = slab.heapStart)
    (sameCnt : slab'.zonePageCnt = slab.zonePageCnt)
    (page : run.start = slab.heapStart + pageSize * slab.btokup run.start)
    (same : ∀ index, index < slab.btokup run.start ∨ slab.btokup run.start + run.length ≤ index →
      slab'.memusage index = slab.memusage index)
    (small : ∀ z ∈ zones', (z ∈ zones ∧ Span.Clear pageSize (slab.zoneSpan z) run) ∨
      ∀ i < slab.zonePageCnt, slab'.memusage (slab.btokup z + i) = ⟨.small, i⟩)
    (first : ∀ other ∈ large', (other ∈ large ∧ Span.Clear pageSize other run) ∨
      slab'.memusage (slab.btokup other.start) = ⟨.large, other.length⟩) :
    SlabPages slab' grid zones' large' others' := by
  have index (addr : Nat) : slab'.btokup addr = slab.btokup addr := by
    rw [Slab.btokup, sameStart, Slab.btokup]
  refine ⟨pages, owned.start.trans sameStart.symm, fun z member i within => ?_,
    fun other member => ?_⟩
  · rw [index]
    rw [sameCnt] at within
    rcases small z member with ⟨old, clear⟩ | new
    · have there : slab.zoneSpan z ∈ zones.map slab.zoneSpan ++ (large ++ others) :=
        List.mem_append_left _ (List.mem_map_of_mem old)
      exact (tag_kept clear (owned.page there) page within same).trans (owned.small z old i within)
    · exact new i within
  · rw [index]
    rcases first other member with ⟨old, clear⟩ | new
    · have there : other ∈ zones.map slab.zoneSpan ++ (large ++ others) :=
        List.mem_append_right _ (List.mem_append_left _ old)
      obtain ⟨free, inv⟩ := owned.pages
      have some_ := inv.nonempty other there
      have kept := @tag_kept slab slab' other run 0 clear (owned.page there) page some_ same
      exact kept.trans (owned.first other old)
    · exact new

/-! ## The steps -/

/-- A run that has just been allocated lies apart from those of the others. -/
theorem fresh {L : List Span} {heap : PageHeap}
    (nonempty : ∃ free, PageInv grid ⟨heap, run :: L⟩ free) (start : grid.start = slab.heapStart) :
    run.start = slab.heapStart + pageSize * slab.btokup run.start ∧
      ∀ other ∈ L, Span.Clear pageSize other run := by
  obtain ⟨free, inv⟩ := nonempty
  have here : run ∈ run :: L := List.mem_cons_self
  have inside := inv.inside (Or.inr here) (Span.start_mem_cells (inv.nonempty run here))
  obtain ⟨index, -, same⟩ := Span.mem_cells.mp inside
  rw [start] at same
  refine ⟨?_, fun other member => ?_⟩
  · rw [Slab.btokup, ← same, Nat.add_sub_cancel_left, Nat.mul_div_cancel_left _ (by decide)]
  · have clear := pairwise_clear (fun run member => inv.inside (Or.inr member)) inv.nonempty
      (List.nodup_append.mp inv.nodup).2.1
    exact ((List.pairwise_cons.mp clear).1 other member).symm

/-- Pages for a zone. -/
theorem allocZone (owned : SlabPages slab grid zones large others)
    (size : slab.zonePageCnt = slab.zoneSize / pageSize)
    (step : slab.allocZone = some (slab', z)) :
    ∃ pages memusage, slab' = { slab with pages := pages, memusage := memusage } ∧
      SlabPages slab' grid (if z = 0 then zones else z :: zones) large others := by
  obtain ⟨⟨pages, p⟩, alloc, step⟩ := Option.bind_eq_some_iff.mp step
  obtain ⟨free, inv⟩ := owned.pages
  have inv' := inv.alloc_withSem alloc
  rw [← size] at inv'
  by_cases null : p = 0
  · rw [if_pos null] at inv'
    dsimp only at step
    rw [if_pos null] at step
    obtain ⟨rfl, rfl⟩ := Prod.mk.inj (Option.some_inj.mp step)
    rw [if_pos rfl]
    exact ⟨pages, slab.memusage, rfl, inv', owned.start, owned.small, owned.first⟩
  · rw [if_neg null] at inv'
    dsimp only at step
    rw [if_neg null] at step
    obtain ⟨locked, locks, step⟩ := Option.bind_eq_some_iff.mp step
    obtain ⟨heap, taken, rfl⟩ := Option.map_eq_some_iff.mp locks
    obtain ⟨value, rfl⟩ := PageHeap.lock_eq taken
    obtain ⟨rfl, rfl⟩ := Prod.mk.inj (Option.some_inj.mp step)
    rw [if_neg null]
    obtain ⟨page, apart⟩ := fresh inv' owned.start
    refine ⟨_, _, rfl, ?_⟩
    refine @retag slab _ grid ⟨p, slab.zonePageCnt⟩ zones large others (p :: zones) large others
      owned inv' rfl rfl page (fun index outside => ?_) (fun z member => ?_) fun other member => ?_
    · exact slab.setUsage_outside p _ outside
    · rcases List.mem_cons.mp member with rfl | old
      · exact Or.inr fun i within => slab.setUsage_inside z _ within
      · exact Or.inl ⟨old, apart _ (List.mem_append_left _ (List.mem_map_of_mem old))⟩
    · exact Or.inl ⟨member,
        apart _ (List.mem_append_right _ (List.mem_append_left _ member))⟩

/-- The pages of the first zone of `zone_free` are given back. -/
theorem releaseZone (owned : SlabPages slab grid zones large others)
    (size : slab.zonePageCnt = slab.zoneSize / pageSize) (member : slab.zoneFree ∈ zones)
    (step : slab.releaseZone = some slab') :
    ∃ pages memusage, slab' = { slab with
        zoneFree := (slab.zones slab.zoneFree).next
        zoneFreeCnt := slab.zoneFreeCnt - 1
        pages := pages
        memusage := memusage } ∧
      SlabPages slab' grid (zones.erase slab.zoneFree) large others := by
  obtain ⟨pages, freed, made⟩ := Option.bind_eq_some_iff.mp step
  obtain rfl := Option.some_inj.mp made
  refine ⟨_, _, rfl, ?_⟩
  obtain ⟨free, inv⟩ := owned.pages
  have front := inv.perm (((List.perm_cons_erase member).symm.map slab.zoneSpan).append_right _)
  have freed : rtPageFree slab.pages.unlock slab.zoneFree slab.zonePageCnt = some pages :=
    size ▸ freed
  have inv' := @PageInv.free_all _ (slab.zoneSpan slab.zoneFree) slab.pages.unlock _ _ _ front
    List.mem_cons_self freed
  rw [List.map_cons, List.cons_append, List.erase_cons_head] at inv'
  obtain ⟨page, apart⟩ := fresh ⟨free, front⟩ owned.start
  refine @retag slab _ grid (slab.zoneSpan slab.zoneFree) zones large others
    (zones.erase slab.zoneFree) large others owned inv' rfl rfl page (fun index outside => ?_)
    (fun z old => ?_) fun other old => ?_
  · exact slab.setUsage_outside slab.zoneFree (fun _ => ⟨.free, 0⟩) outside
  · exact Or.inl ⟨List.mem_of_mem_erase old,
      apart _ (List.mem_append_left _ (List.mem_map_of_mem old))⟩
  · exact Or.inl ⟨old, apart _ (List.mem_append_right _ (List.mem_append_left _ old))⟩

/-- Pages of their own for a large block. -/
theorem mallocLarge {size npages : Nat} (owned : SlabPages slab grid zones large others)
    (rounded : npages = (size + (pageSize - 1)) % 2 ^ 32 / pageSize)
    (step : slab.mallocLarge size = some (slab', p)) :
    (p = 0 ∧ ∃ pages, slab' = { slab with pages := pages } ∧
      SlabPages slab' grid zones large others) ∨
    (p ≠ 0 ∧ ∃ pages memusage, slab' = { slab.use (npages * pageSize) with
        pages := pages
        memusage := memusage } ∧
      SlabPages slab' grid zones (⟨p, npages⟩ :: large) others) := by
  obtain ⟨⟨pages, chunk⟩, alloc, step⟩ := Option.bind_eq_some_iff.mp step
  rw [← rounded, Nat.mul_div_cancel _ (by decide)] at alloc step
  dsimp only at step
  obtain ⟨free, inv⟩ := owned.pages
  have inv' := inv.alloc_withSem alloc
  by_cases null : chunk = 0
  · rw [if_pos null] at inv' step
    obtain ⟨rfl, rfl⟩ := Prod.mk.inj (Option.some_inj.mp step)
    exact Or.inl ⟨rfl, pages, rfl, inv', owned.start, owned.small, owned.first⟩
  · rw [if_neg null] at inv' step
    obtain ⟨locked, locks, step⟩ := Option.bind_eq_some_iff.mp step
    obtain ⟨heap, taken, rfl⟩ := Option.map_eq_some_iff.mp locks
    obtain ⟨value, rfl⟩ := PageHeap.lock_eq taken
    obtain ⟨rfl, rfl⟩ := Prod.mk.inj (Option.some_inj.mp step)
    refine Or.inr ⟨null, _, _, rfl, ?_⟩
    obtain ⟨page, apart⟩ := fresh inv' owned.start
    obtain ⟨free', inv'⟩ := inv'
    have owners := inv'.perm List.perm_middle
    refine @retag slab _ grid ⟨chunk, npages⟩ zones large others zones (⟨chunk, npages⟩ :: large)
      others owned ⟨free', owners⟩ rfl rfl page (fun index outside => ?_) (fun z old => ?_)
      fun other member => ?_
    · have some_ := inv'.nonempty _ List.mem_cons_self
      have apart : index ≠ slab.btokup chunk := by
        dsimp only at outside some_
        omega
      exact Function.update_of_ne apart _ _
    · exact Or.inl ⟨old, apart _ (List.mem_append_left _ (List.mem_map_of_mem old))⟩
    · rcases List.mem_cons.mp member with rfl | old
      · exact Or.inr (Function.update_self ..)
      · exact Or.inl ⟨old, apart _ (List.mem_append_right _ (List.mem_append_left _ old))⟩

/-- What the table says about a large block. -/
theorem kup_large (owned : SlabPages slab grid zones large others) (member : run ∈ large) :
    run.start / pageSize * pageSize = run.start ∧ slab.kup run.start = ⟨.large, run.length⟩ := by
  have there : run ∈ zones.map slab.zoneSpan ++ (large ++ others) :=
    List.mem_append_right _ (List.mem_append_left _ member)
  have whole := Nat.div_mul_cancel (Nat.dvd_of_mod_eq_zero (owned.aligned there).2)
  refine ⟨whole, ?_⟩
  rw [Slab.kup, whole]
  exact owned.first run member

/-- The pages of a large block are given back. -/
theorem freeLarge (owned : SlabPages slab grid zones large others) (member : run ∈ large)
    (step : slab.freeLarge run.start = some slab') :
    ∃ pages memusage, slab' = { slab with
        usedMem := slab.usedMem - run.length * pageSize
        pages := pages
        memusage := memusage } ∧
      SlabPages slab' grid zones (large.erase run) others := by
  obtain ⟨whole, -⟩ := owned.kup_large member
  have tag := owned.first run member
  rw [Slab.freeLarge, whole] at step
  dsimp only at step
  obtain ⟨locked, locks, step⟩ := Option.bind_eq_some_iff.mp step
  obtain ⟨heap, taken, rfl⟩ := Option.map_eq_some_iff.mp locks
  obtain ⟨value, rfl⟩ := PageHeap.lock_eq taken
  dsimp only at step
  rw [tag] at step
  obtain ⟨pages, freed, made⟩ := Option.bind_eq_some_iff.mp step
  obtain rfl := Option.some_inj.mp made
  refine ⟨_, _, rfl, ?_⟩
  obtain ⟨free, inv⟩ := owned.pages
  have front := inv.perm (List.Perm.trans List.perm_middle.symm
    (((List.perm_cons_erase member).symm.append_right others).append_left _))
  have inv' := @PageInv.free_all _ run (slab.pages.withSem value).unlock _ _ _ front
    List.mem_cons_self freed
  rw [List.erase_cons_head] at inv'
  obtain ⟨page, apart⟩ := fresh ⟨free, front⟩ owned.start
  refine @retag slab _ grid run zones large others zones (large.erase run) others owned inv' rfl rfl
    page (fun index outside => ?_) (fun z old => ?_) fun other old => ?_
  · have some_ := front.nonempty _ List.mem_cons_self
    have apart : index ≠ slab.btokup run.start := by omega
    exact Function.update_of_ne apart _ _
  · exact Or.inl ⟨old, apart _ (List.mem_append_left _ (List.mem_map_of_mem old))⟩
  · exact Or.inl ⟨List.mem_of_mem_erase old,
      apart _ (List.mem_append_right _ (List.mem_append_left _ old))⟩

/-- What the table says about the pages of a zone. -/
theorem kup_small (owned : SlabPages slab grid zones large others) (member : z ∈ zones)
    (low : z ≤ p) (high : p < z + pageSize * slab.zonePageCnt) :
    (slab.kup p).type = .small ∧ slab.zoneOf p = z := by
  have there : slab.zoneSpan z ∈ zones.map slab.zoneSpan ++ (large ++ others) :=
    List.mem_append_left _ (List.mem_map_of_mem member)
  have page : z = slab.heapStart + pageSize * slab.btokup z := owned.page there
  obtain ⟨-, aligned⟩ := owned.aligned there
  have aligned : z % pageSize = 0 := aligned
  have within : (p - z) / pageSize < slab.zonePageCnt := by
    simp only [pageSize] at high ⊢
    omega
  have start : p / pageSize * pageSize = z + pageSize * ((p - z) / pageSize) := by
    simp only [pageSize] at aligned ⊢
    omega
  have index : slab.btokup (p / pageSize * pageSize) = slab.btokup z + (p - z) / pageSize := by
    rw [start]
    simp only [Slab.btokup, pageSize] at page ⊢
    omega
  have tag : slab.kup p = ⟨.small, (p - z) / pageSize⟩ := by
    rw [Slab.kup, index]
    exact owned.small z member _ within
  rw [Slab.zoneOf, tag, start]
  refine ⟨rfl, ?_⟩
  dsimp only
  rw [Nat.mul_comm, Nat.add_sub_cancel]

end SlabPages

end RtThread
