import RtThread.Memory.AllocatorLocks
import RtThread.Memory.SlabWrites

/-!
# Runs of the slab allocator

Blocks are allocated and given back in any order, while others allocate pages and give them back.
After each step, the zones are consistent. A block whose size is a power of two begins at a
multiple of it if the size is at most that of a page, but a larger one may not.
-/

namespace RtThread

open RtThread.Std

/-! ## The machine -/

/-- The allocator, the blocks that are live, and the runs of pages that others have. -/
structure SlabState where
  slab : Slab
  live : List Span
  others : List Span

inductive SlabAction where
  | malloc (size : Nat)
  | free (block : Span)
  | realloc (block : Span) (size : Nat)
  /-- Others call `rt_page_alloc`. -/
  | pageAlloc (npages : Nat)
  /-- Others give back some of the pages of a run, behind the first `skip`. -/
  | pageFree (run : Span) (skip npages : Nat)
  /-- The owner of a block, or of a run of pages, writes to it. -/
  | write (block : Span) (memory : SlabMemory)

namespace SlabState

/-- Who gives something back, or writes to it, has it. -/
def Legal (state : SlabState) : SlabAction → Prop
  | .malloc _ => True
  | .free block => block ∈ state.live
  | .realloc block size => block ∈ state.live ∧ size ≠ 0
  | .pageAlloc _ => True
  | .pageFree run skip npages => run ∈ state.others ∧ 0 < npages ∧ skip + npages ≤ run.length
  | .write block memory => block ∈ state.live ++ state.others.map pageBytes ∧
      state.slab.memory.Writes memory block

/-- Only chunks of zones are allocated, written to and given back. -/
def Small (state : SlabState) : SlabAction → Prop
  | .malloc size => size < state.slab.zoneLimit
  | .free block => block ∈ state.live
  | .realloc .. => False
  | .pageAlloc _ => False
  | .pageFree .. => False
  | .write block memory => block ∈ state.live ∧ state.slab.memory.Writes memory block

/-- The state before a block or a page has been allocated. -/
def start (slab : Slab) : SlabState := ⟨slab, [], []⟩

end SlabState

/-- The results of the calls are observed. -/
def slabMachine : Machine SlabState SlabAction Nat where
  step state
    | .malloc size => do
        let (slab, p) ← state.slab.malloc size
        let live := if p = 0 then state.live
          else ⟨p, state.slab.blockSize size⟩ :: state.live
        pure ({ state with slab := slab, live := live }, [p])
    | .free block => do
        let slab ← state.slab.free block.start
        pure ({ state with slab := slab, live := state.live.erase block }, [])
    | .realloc block size => do
        let (slab, p) ← state.slab.realloc block.start size
        let asked := state.slab.reallocSize block.start size
        let live := if p = 0 then state.live
          else ⟨p, state.slab.blockSize asked⟩ :: state.live.erase block
        pure ({ state with slab := slab, live := live }, [p])
    | .pageAlloc npages => do
        let (pages, p) ← rtPageAlloc state.slab.pages npages
        let others := if p = 0 then state.others else ⟨p, npages⟩ :: state.others
        pure ({ state with slab := { state.slab with pages := pages }, others := others }, [p])
    | .pageFree run skip npages => do
        let pages ← rtPageFree state.slab.pages (run.start + pageSize * skip) npages
        let others := run.cut pageSize skip npages ++ state.others.erase run
        pure ({ state with slab := { state.slab with pages := pages }, others := others }, [])
    | .write _ memory => some ({ state with slab := state.slab.setMemory memory }, [])

/-! ## The start -/

/-- The variables that `rt_system_heap_init` leaves as they are. -/
structure Slab.Fresh (slab : Slab) : Prop where
  zoneArray : ∀ zi, slab.zoneArray zi = 0
  zoneFree : slab.zoneFree = 0
  zoneFreeCnt : slab.zoneFreeCnt = 0
  usedMem : slab.usedMem = 0

/-- The pages of a heap. -/
def heapGrid (beginAddr endAddr : Nat) : Span :=
  ⟨alignUp beginAddr pageSize,
    (endAddr / pageSize * pageSize - alignUp beginAddr pageSize) / pageSize⟩

/-- There are no zones. -/
def ZoneView.empty : ZoneView where
  inUse := []
  queue _ := []
  size _ := 0
  free _ := []
  taken _ := []

namespace SlabInv

variable {grid block run : Span} {view : ZoneView} {large table live : List Span}
  {slab start : Slab} {beginAddr endAddr : Nat} {state next : SlabState}

/-- After `rt_system_heap_init`, only the table of the pages has been allocated. -/
theorem init (fresh : slab.Fresh)
    (accepted : alignUp beginAddr pageSize < endAddr / pageSize * pageSize)
    (init : slab.rtSystemHeapInit beginAddr endAddr = some start) :
    ∃ table, SlabInv (heapGrid beginAddr endAddr) .empty [] table start [] := by
  rw [Slab.rtSystemHeapInit] at init
  dsimp only at init
  rw [if_neg (Nat.not_le.mpr accepted)] at init
  obtain ⟨pages, paged, init⟩ := Option.bind_eq_some_iff.mp init
  obtain ⟨⟨heap, table⟩, alloc, made⟩ := Option.bind_eq_some_iff.mp init
  obtain rfl := Option.some_inj.mp made
  obtain ⟨free, inv⟩ := PageInv.init rfl paged
  have same : pages.withSem 1#16 = pages := by
    have unlocked : pages.heapSem = 1#16 := inv.unlocked
    rw [PageHeap.withSem, ← unlocked]
  rw [← same] at inv
  obtain ⟨free', inv'⟩ := inv.alloc_withSem alloc
  refine ⟨_, ⟨doubleZoneSize_cases _, rfl, rfl⟩, ⟨⟨free', inv'⟩, rfl, ?_, ?_⟩, ?_, List.Perm.refl _,
    fresh.usedMem⟩
  · exact fun z member => absurd member List.not_mem_nil
  · exact fun run member => absurd member List.not_mem_nil
  · refine ⟨?_, ⟨fun i => ?_, fun i => List.nodup_nil, ?_⟩, fun zi z => ?_, ?_, fresh.zoneFreeCnt,
      List.nodup_nil⟩
    · exact fun z member => absurd member List.not_mem_nil
    · cases i with
      | none => exact fresh.zoneFree
      | some zi => exact fresh.zoneArray zi
    · exact fun i j node member => absurd member List.not_mem_nil
    · exact iff_of_false List.not_mem_nil fun stays => List.not_mem_nil stays.1
    · exact fun z member => absurd member List.not_mem_nil

/-! ## Steps and runs -/

/-- Each step keeps the invariant. -/
theorem step {action : SlabAction} {emitted : List Nat}
    (inv : SlabInv grid view large (state.others ++ table) state.slab state.live)
    (legal : state.Legal action) (step : slabMachine.step state action = some (next, emitted)) :
    ∃ view' large', SlabInv grid view' large' (next.others ++ table) next.slab next.live := by
  cases action with
  | malloc size =>
      obtain ⟨⟨slab, p⟩, malloc, made⟩ := Option.bind_eq_some_iff.mp step
      obtain ⟨rfl, -⟩ := Prod.mk.inj (Option.some_inj.mp made)
      dsimp only
      rcases inv.malloc malloc with ⟨null, inv'⟩ | ⟨view', large', z, inv', nonnull, -⟩
      · rw [if_pos null]
        exact ⟨view, large, inv'⟩
      · rw [if_neg nonnull]
        exact ⟨view', large', inv'⟩
  | free block =>
      obtain ⟨slab, freed, made⟩ := Option.bind_eq_some_iff.mp step
      obtain ⟨rfl, -⟩ := Prod.mk.inj (Option.some_inj.mp made)
      obtain ⟨view', large', inv', -⟩ := inv.free legal freed
      exact ⟨view', large', inv'⟩
  | realloc block size =>
      obtain ⟨⟨slab, p⟩, moved, made⟩ := Option.bind_eq_some_iff.mp step
      obtain ⟨rfl, -⟩ := Prod.mk.inj (Option.some_inj.mp made)
      exact inv.realloc legal.1 moved
  | pageAlloc npages =>
      obtain ⟨⟨pages, p⟩, alloc, made⟩ := Option.bind_eq_some_iff.mp step
      obtain ⟨rfl, -⟩ := Prod.mk.inj (Option.some_inj.mp made)
      have inv' := inv.pageAlloc alloc
      refine ⟨view, large, ?_⟩
      dsimp only
      split
      · rename_i null
        rwa [if_pos null] at inv'
      · rename_i nonnull
        rwa [if_neg nonnull] at inv'
  | pageFree run skip npages =>
      obtain ⟨pages, freed, made⟩ := Option.bind_eq_some_iff.mp step
      obtain ⟨rfl, -⟩ := Prod.mk.inj (Option.some_inj.mp made)
      obtain ⟨member, some_, fits⟩ := legal
      have inv' := inv.pageFree (List.mem_append_left table member) some_ fits freed
      rw [List.erase_append_left _ member, ← List.append_assoc] at inv'
      exact ⟨view, large, inv'⟩
  | write block memory =>
      obtain ⟨rfl, -⟩ := Prod.mk.inj (Option.some_inj.mp step)
      obtain ⟨member, writes⟩ := legal
      refine ⟨view, large, inv.write ?_ writes⟩
      rcases List.mem_append.mp member with block | pages
      · exact (inv.owned block).imp_right fun ⟨run, there, same⟩ =>
          ⟨run, List.mem_append_left _ there, same⟩
      · obtain ⟨run, there, same⟩ := List.mem_map.mp pages
        exact Or.inr ⟨run, List.mem_append_right _ (List.mem_append_left _ there), same.symm⟩

theorem after {actions : List SlabAction} {events : List Nat}
    (inv : SlabInv grid view large table slab [])
    (run : slabMachine.Run SlabState.Legal (.start slab) actions events state) :
    ∃ view' large', SlabInv grid view' large' (state.others ++ table) state.slab state.live := by
  apply run.invariant
  · exact ⟨view, large, inv⟩
  · rintro state action next emitted ⟨view, large, inv⟩ legal step
    exact inv.step legal step

/-- Without large requests, there are no large blocks. -/
theorem small_step {action : SlabAction} {emitted : List Nat}
    (inv : SlabInv grid view [] table state.slab state.live) (small : state.Small action)
    (step : slabMachine.step state action = some (next, emitted)) :
    ∃ view', SlabInv grid view' [] table next.slab next.live := by
  cases action with
  | malloc size =>
      obtain ⟨⟨slab, p⟩, malloc, made⟩ := Option.bind_eq_some_iff.mp step
      obtain ⟨rfl, -⟩ := Prod.mk.inj (Option.some_inj.mp made)
      dsimp only
      rcases inv.malloc malloc with
        ⟨null, inv'⟩ | ⟨view', large', z, inv', nonnull, -, -, -, kept⟩
      · rw [if_pos null]
        exact ⟨view, inv'⟩
      · rw [if_neg nonnull]
        exact ⟨view', kept small ▸ inv'⟩
  | free block =>
      obtain ⟨slab, freed, made⟩ := Option.bind_eq_some_iff.mp step
      obtain ⟨rfl, -⟩ := Prod.mk.inj (Option.some_inj.mp made)
      obtain ⟨view', large', inv', kept⟩ := inv.free small freed
      exact ⟨view', kept rfl ▸ inv'⟩
  | realloc block size => exact small.elim
  | pageAlloc npages => exact small.elim
  | pageFree run skip npages => exact small.elim
  | write block memory =>
      obtain ⟨rfl, -⟩ := Prod.mk.inj (Option.some_inj.mp step)
      obtain ⟨member, writes⟩ := small
      refine ⟨view, inv.write ((inv.owned member).imp_right ?_) writes⟩
      exact fun ⟨run, there, same⟩ => ⟨run, List.mem_append_left _ there, same⟩

end SlabInv

/-! ## A heap of ten pages -/

/-- The first run of pages is large enough. -/
theorem rtPageAlloc_first {heap locked : PageHeap} {npages : Nat} (some_ : npages ≠ 0)
    (lock : heap.lock = some locked) (nonnull : locked.list.load none ≠ 0)
    (large : npages ≤ locked.page (locked.list.load none)) :
    rtPageAlloc heap npages =
      some ((locked.takePages none npages).unlock, locked.list.load none) := by
  rw [rtPageAlloc, if_neg some_, lock]
  change ((FreeList.seek _ _ _ none).bind _ : Option (PageHeap × Nat)) = _
  rw [FreeList.seek_first nonnull rfl (decide_eq_true large)]
  rfl

/-- The pages from the address 8192 on. -/
def tenPages : PageHeap :=
  (((⟨fun _ => ⟨0, 0⟩, 0, 1#16⟩ : PageHeap).setPage 8192 10).setNext 8192 0).store 8192 none

/-- The first page is the table of the pages. -/
def tenPagesSlab : Slab :=
  { blankSlab with
    pages := tenPages.takePages none 1
    heapStart := 8192
    zoneSize := 32768
    zoneLimit := 8192
    zonePageCnt := 8 }

theorem blankSlab_fresh : blankSlab.Fresh := ⟨fun _ => rfl, rfl, rfl, rfl⟩

theorem rtPageInit_pages {npages : Nat} (some_ : npages ≠ 0) :
    rtPageInit ⟨fun _ => ⟨0, 0⟩, 0, 1#16⟩ 8192 npages =
      some ((((⟨fun _ => ⟨0, 0⟩, 0, 1#16⟩ : PageHeap).setPage 8192 npages).setNext 8192 0).store
        8192 none) := by
  rw [rtPageInit, if_pos ⟨by decide, some_⟩, rtPageFree,
    if_pos ⟨by decide, by decide, some_⟩]
  change ((FreeList.seek _ _ _ none).bind _ : Option PageHeap) = _
  rw [FreeList.seek]
  rfl

theorem tenPagesSlab_init : blankSlab.rtSystemHeapInit 8192 49152 = some tenPagesSlab := by
  change ((rtPageInit ⟨fun _ => ⟨0, 0⟩, 0, 1#16⟩ 8192 10).bind _ : Option Slab) = _
  rw [rtPageInit_pages (by decide)]
  change ((rtPageAlloc tenPages 1).bind _ : Option Slab) = _
  rw [rtPageAlloc_first (by decide) rfl (by decide) (by decide)]
  rfl

theorem tenPagesSlab_malloc_large : ∃ slab, tenPagesSlab.malloc 8192 = some (slab, 12288) := by
  apply Exists.intro
  change ((rtPageAlloc tenPagesSlab.pages 2).bind _ : Option (Slab × Nat)) = _
  rw [rtPageAlloc_first (by decide) rfl (by decide) (by decide)]
  rfl

/-! ## The zones -/

/-- What the headers of the zones, the lists and the counters say, where `view` are the zones
that have pages, with their chunks. -/
structure Slab.Consistent (slab : Slab) (view : ZoneView) (live : List Span) : Prop where
  magic : ∀ z ∈ view.zones, (slab.zones z).magic = zallocSlabMagic ↔ z ∈ view.inUse
  nfree : ∀ z ∈ view.inUse, (slab.zones z).uindex < (slab.zones z).nmax ∧
    (slab.zones z).nfree =
      (slab.zones z).nmax - 1 - (slab.zones z).uindex + (view.free z).length
  freechunk : ∀ z ∈ view.inUse, Chain slab.cNext 0 (slab.zones z).freechunk (view.free z)
  distinct : ∀ z ∈ view.inUse, (view.free z ++ view.taken z).Nodup
  chunk : ∀ z ∈ view.inUse, ∀ p ∈ view.free z ++ view.taken z,
    (∃ index, p = (slab.zones z).baseptr + (slab.zones z).chunksize * index) ∧
      z + slabZoneSize ≤ p ∧ p + (slab.zones z).chunksize ≤ z + slab.zoneSize
  zoneArray : ∀ zi,
    Chain (SlabZone.next ∘ slab.zones) 0 (slab.zoneArray zi) (view.queue (some zi)) ∧
    (view.queue (some zi)).Nodup ∧ ∀ z, z ∈ view.queue (some zi) ↔
      z ∈ view.inUse ∧ (slab.zones z).zoneindex = zi ∧ 0 < (slab.zones z).nfree
  zoneFree : Chain (SlabZone.next ∘ slab.zones) 0 slab.zoneFree (view.queue none) ∧
    (view.queue none).Nodup ∧ ∀ z ∈ view.queue none, z ∉ view.inUse
  zoneFreeCnt : slab.zoneFreeCnt = (view.queue none).length
  blocks : live.Perm (view.inUse.flatMap fun z =>
    (view.taken z).map fun p => ⟨p, (slab.zones z).chunksize⟩)
  usedMem : slab.usedMem = (live.map Span.length).sum

theorem SlabInv.consistent {grid : Span} {view : ZoneView} {others live : List Span} {slab : Slab}
    (inv : SlabInv grid view [] others slab live) : slab.Consistent view live := by
  have sound (z : Nat) (member : z ∈ view.inUse) := (inv.zones.sound z member).1
  refine ⟨fun z member => ?_, fun z member => ?_, fun z member => (sound z member).chain,
    fun z member => ?_, fun z member p there => ?_, fun zi => ?_, ?_, inv.zones.count, ?_, inv.used⟩
  · rcases List.mem_append.mp member with used | parked
    · exact iff_of_true (sound z used).magic used
    · obtain ⟨unused, magic⟩ := inv.zones.parked z parked
      exact iff_of_false (fun same => absurd (same.symm.trans magic) (by decide)) unused
  · have count := (sound z member).nfree
    have below : (slab.zones z).uindex + 1 ≤ (slab.zones z).nmax := (sound z member).slots.used_le
    omega
  · have large := ((sound z member).chunk inv.geometry).1
    exact (sound z member).slots.nodup (Nat.lt_of_lt_of_le (by decide) large)
  · have there := List.mem_append.mp there
    obtain ⟨index, -, place⟩ := (sound z member).slots.cell there
    exact ⟨⟨index, place⟩, (sound z member).inside inv.geometry there⟩
  · exact ⟨inv.zones.lists.chain (some zi), inv.zones.lists.nodup _, inv.zones.row zi⟩
  · exact ⟨inv.zones.lists.chain none, inv.zones.lists.nodup _,
      fun z parked => (inv.zones.parked z parked).1⟩
  · have blocks := inv.blocks
    rw [List.map_nil, List.append_nil] at blocks
    refine blocks.trans (List.Perm.of_eq (List.flatMap_congr fun z member => ?_))
    rw [(inv.zones.sound z member).2]

/-- As long as only chunks are allocated and given back, the zones are consistent, and each page of
the heap belongs to one zone, to the table of the pages or to the free runs. -/
theorem slab_zones_consistent {slab start : Slab} {beginAddr endAddr : Nat} (fresh : slab.Fresh)
    (accepted : alignUp beginAddr pageSize < endAddr / pageSize * pageSize)
    (init : slab.rtSystemHeapInit beginAddr endAddr = some start) :
    ∃ table, ∀ actions events state,
      slabMachine.Run SlabState.Small (.start start) actions events state →
      ∃ view free, state.slab.Consistent view state.live ∧
        state.slab.pages.list.Threads none free ∧
        (cellsOf pageSize free ++
          cellsOf pageSize (view.zones.map state.slab.zoneSpan ++ table)).Perm
            ((heapGrid beginAddr endAddr).cells pageSize) := by
  obtain ⟨table, initial⟩ := SlabInv.init fresh accepted init
  refine ⟨table, fun actions events state run => ?_⟩
  have reached : ∃ view,
      SlabInv (heapGrid beginAddr endAddr) view [] table state.slab state.live := by
    apply run.invariant
    · exact ⟨_, initial⟩
    · rintro state action next emitted ⟨view, inv⟩ small step
      exact inv.small_step small step
  obtain ⟨view, inv⟩ := reached
  obtain ⟨free, pages⟩ := inv.pages.pages
  exact ⟨view, free, inv.consistent, pages.threads, pages.cells⟩

/-- The first zone of an index becomes the first one of `zone_free`. -/
def Slab.park (slab : Slab) (z : Nat) : Slab :=
  { (slab.setZoneArray (slab.zones z).zoneindex (slab.zones z).next).setZone z
      { slab.zones z with magic := -1, next := slab.zoneFree } with
    zoneFree := z
    zoneFreeCnt := slab.zoneFreeCnt + 1 }

/-- No zone is passed on the way to the first one. -/
theorem Slab.parkZone_first {slab : Slab} {z : Nat} (nonnull : z ≠ 0)
    (first : slab.zoneArray (slab.zones z).zoneindex = z) :
    slab.parkZone z = some (slab.park z) := by
  have found : (slab.zoneList (slab.zones z).zoneindex).seek (fun _ => true)
      (fun other => other = z) none = some none :=
    FreeList.seek_first (by change slab.zoneArray _ ≠ 0; rwa [first]) rfl (by
      change decide (slab.zoneArray _ = z) = true
      rw [first, decide_eq_true rfl])
  rw [Slab.parkZone]
  dsimp only
  rw [found]
  exact if_pos first

def twentyPages : PageHeap :=
  (((⟨fun _ => ⟨0, 0⟩, 0, 1#16⟩ : PageHeap).setPage 8192 20).setNext 8192 0).store 8192 none

def twentyPagesSlab : Slab :=
  { blankSlab with
    pages := twentyPages.takePages none 1
    heapStart := 8192
    zoneSize := 32768
    zoneLimit := 8192
    zonePageCnt := 8 }

theorem twentyPagesSlab_init : blankSlab.rtSystemHeapInit 8192 90112 = some twentyPagesSlab := by
  change ((rtPageInit ⟨fun _ => ⟨0, 0⟩, 0, 1#16⟩ 8192 20).bind _ : Option Slab) = _
  rw [rtPageInit_pages (by decide)]
  change ((rtPageAlloc twentyPages 1).bind _ : Option Slab) = _
  rw [rtPageAlloc_first (by decide) rfl (by decide) (by decide)]
  rfl

/-- The state behind a call. -/
def SlabState.next (state : SlabState) (action : SlabAction) : SlabState :=
  ((slabMachine.step state action).getD (state, [])).1

namespace SlabState

variable {start state : SlabState} {actions : List SlabAction} {events : List Nat}

theorem step_malloc {size p : Nat} {slab : Slab} (nonnull : p ≠ 0)
    (taken : state.slab.malloc size = some (slab, p)) :
    slabMachine.step state (.malloc size) =
      some ({ state with slab, live := ⟨p, state.slab.blockSize size⟩ :: state.live }, [p]) := by
  refine Option.bind_eq_some_iff.mpr ⟨_, taken, ?_⟩
  dsimp only
  rw [if_neg nonnull]
  rfl

theorem step_free {block : Span} {slab : Slab} (freed : state.slab.free block.start = some slab) :
    slabMachine.step state (.free block) =
      some ({ state with slab, live := state.live.erase block }, []) :=
  Option.bind_eq_some_iff.mpr ⟨_, freed, rfl⟩

/-- The run goes on with a call whose result can be computed. -/
theorem run_next (run : slabMachine.Run Small start actions events state) (action : SlabAction)
    (told : List Nat) (small : state.Small action)
    (result : (slabMachine.step state action).map Prod.snd = some told) :
    slabMachine.Run Small start (actions ++ [action]) (events ++ told) (state.next action) := by
  obtain ⟨⟨after, emitted⟩, step, rfl⟩ := Option.map_eq_some_iff.mp result
  rw [next, step]
  exact run.snoc small step

end SlabState

/-- The pages of a new zone are the first ones that are free. -/
def Slab.grow (slab : Slab) (size : Nat) : Slab :=
  let z := slab.pages.rtPageList
  let pages := { slab.pages with heapSem := 0#16 }.takePages none (slab.zoneSize / pageSize)
  let slab := { slab with pages }.setUsage z fun off => ⟨.small, off⟩
  (slab.initZone z (zoneindex size).1 (zoneindex size).2).1.unlock

def oneZone : SlabState := ⟨twentyPagesSlab.grow 8191, [⟨20480, 8192⟩], []⟩

def fullZone : SlabState := (oneZone.next (.malloc 8191)).next (.malloc 8191)

def twoZones : SlabState := ⟨fullZone.slab.grow 8191, ⟨53248, 8192⟩ :: fullZone.live, []⟩

def lastChunk : SlabState := (twoZones.next (.free ⟨20480, 8192⟩)).next (.free ⟨28672, 8192⟩)

/-- The semaphore is held while the last chunk of the first zone is given back. -/
def lockedSlab : Slab :=
  { lastChunk.slab with pages := { lastChunk.slab.pages with heapSem := 0#16 } }

def parkedZone : SlabState :=
  { lastChunk with
    slab := (((lockedSlab.putChunk 12288 36864).addFree 12288).park 12288).unlock
    live := lastChunk.live.erase ⟨36864, 8192⟩ }

theorem twentyPagesSlab_malloc : twentyPagesSlab.malloc 8191 = some (oneZone.slab, 20480) := by
  change (((rtPageAlloc _ 8).bind _ : Option _).bind _ : Option (Slab × Nat)) = _
  rw [rtPageAlloc_first (by decide) rfl (by decide) (by decide)]
  rfl

theorem fullZone_malloc : fullZone.slab.malloc 8191 = some (twoZones.slab, 53248) := by
  change (((rtPageAlloc _ 8).bind _ : Option _).bind _ : Option (Slab × Nat)) = _
  rw [rtPageAlloc_first (by decide +kernel) rfl (by decide +kernel) (by decide +kernel)]
  rfl

theorem lastChunk_free : lastChunk.slab.free 36864 = some parkedZone.slab := by
  have sem : lastChunk.slab.pages.heapSem = 1#16 := by decide +kernel
  have lock : lastChunk.slab.lock = some lockedSlab := by
    rw [Slab.lock, PageHeap.lock, sem]
    rfl
  have zone : lockedSlab.zoneOf 36864 = 12288 := by decide +kernel
  have park : ((lockedSlab.putChunk 12288 36864).addFree 12288).parkZone 12288 =
      some (((lockedSlab.putChunk 12288 36864).addFree 12288).park 12288) :=
    Slab.parkZone_first (by decide) (by decide +kernel)
  rw [Slab.free, if_neg (by decide), if_neg (by decide +kernel), Slab.freeChunk, lock]
  simp only [Option.bind_eq_bind, Option.bind_some, zone]
  rw [if_pos (by decide +kernel), if_pos (by decide +kernel), Slab.retireZone, park]
  simp only [Option.bind_eq_bind, Option.bind_some]
  rw [if_neg (by decide +kernel)]
  rfl

/-- The chunks of a zone are all given back while another one serves their size, and the zone is
used again for another size. -/
def recycling : List SlabAction :=
  [.malloc 8191, .malloc 8191, .malloc 8191, .malloc 8191, .free ⟨20480, 8192⟩,
    .free ⟨28672, 8192⟩, .free ⟨36864, 8192⟩, .malloc 100]

theorem slab_zones_consistent_recycled : ∃ state,
    slabMachine.Run SlabState.Small (.start twentyPagesSlab) recycling
        [20480, 28672, 36864, 53248, 12328] state ∧
      parkedZone.slab.zoneFreeCnt = 1 ∧ state = parkedZone.next (.malloc 100) ∧
      ∃ table view free, state.slab.Consistent view state.live ∧
        state.slab.pages.list.Threads none free ∧
        (cellsOf pageSize free ++
          cellsOf pageSize (view.zones.map state.slab.zoneSpan ++ table)).Perm
            ((heapGrid 8192 90112).cells pageSize) := by
  have one : slabMachine.Run SlabState.Small (.start twentyPagesSlab) [.malloc 8191] [20480]
      oneZone := .snoc .nil (show 8191 < 8192 by decide)
    (SlabState.step_malloc (by decide) twentyPagesSlab_malloc)
  have another := SlabState.run_next one (.malloc 8191) [28672]
    (show 8191 < oneZone.slab.zoneLimit by decide +kernel) (by decide +kernel)
  have full := SlabState.run_next another (.malloc 8191) [36864]
    (show 8191 < (oneZone.next (.malloc 8191)).slab.zoneLimit by decide +kernel) (by decide +kernel)
  have two : slabMachine.Run SlabState.Small (.start twentyPagesSlab) _ _ twoZones :=
    full.snoc (show fullZone.Small (.malloc 8191) from
        show 8191 < fullZone.slab.zoneLimit by decide +kernel)
      (SlabState.step_malloc (by decide) fullZone_malloc)
  have given := SlabState.run_next two (.free ⟨20480, 8192⟩) []
    (show _ ∈ twoZones.live by decide +kernel) (by decide +kernel)
  have lasts := SlabState.run_next given (.free ⟨28672, 8192⟩) []
    (show _ ∈ (twoZones.next (.free ⟨20480, 8192⟩)).live by decide +kernel) (by decide +kernel)
  have parked : slabMachine.Run SlabState.Small (.start twentyPagesSlab) _ _ parkedZone :=
    lasts.snoc (show lastChunk.Small (.free ⟨36864, 8192⟩) from
        show _ ∈ lastChunk.live by decide +kernel)
      (SlabState.step_free lastChunk_free)
  have run := SlabState.run_next parked (.malloc 100) [12328]
    (show 100 < parkedZone.slab.zoneLimit by decide +kernel) (by decide +kernel)
  obtain ⟨table, consistent⟩ :=
    slab_zones_consistent blankSlab_fresh (by decide) twentyPagesSlab_init
  exact ⟨_, run, by decide +kernel, rfl, table, consistent _ _ _ run⟩

/-! ## Alignment -/

/-- A power of two up to the size of a page divides the address of a page. -/
theorem page_mod_two_pow {k z : Nat} (small : 2 ^ k ≤ pageSize) (aligned : z % pageSize = 0) :
    z % 2 ^ k = 0 := by
  have exponent : k ≤ 12 := (Nat.pow_le_pow_iff_right (by decide : 1 < 2)).mp small
  have whole : 2 ^ k ∣ pageSize := Nat.pow_dvd_pow 2 exponent
  exact Nat.mod_eq_zero_of_dvd (Nat.dvd_trans whole (Nat.dvd_of_mod_eq_zero aligned))

/-- The chunks whose size is a power of two lie as the zone does. -/
theorem IsChunk.mod_two_pow {k z p : Nat} (chunk : IsChunk z (2 ^ k) p) :
    p % 2 ^ k = z % 2 ^ k := by
  obtain ⟨index, rfl⟩ := chunk
  obtain ⟨count, offset⟩ := dvd_chunkOffset k
  rw [offset, Nat.add_mul_mod_self_left, Nat.add_mul_mod_self_left]

/-- A block whose size is a power of two begins at a multiple of it if and only if the size is at
most that of a page, or the zone or the run of pages that serves the request begins at such a
multiple. -/
theorem malloc_two_pow_aligned {slab start slab' : Slab} {beginAddr endAddr size k p : Nat}
    {actions : List SlabAction} {events : List Nat} {state : SlabState} (fresh : slab.Fresh)
    (accepted : alignUp beginAddr pageSize < endAddr / pageSize * pageSize)
    (init : slab.rtSystemHeapInit beginAddr endAddr = some start)
    (run : slabMachine.Run SlabState.Legal (.start start) actions events state)
    (power : size = 2 ^ k) (large : 8 ≤ size)
    (malloc : state.slab.malloc size = some (slab', p)) (nonnull : p ≠ 0) :
    p % size = 0 ↔
      size ≤ pageSize ∨ ∃ z, state.slab.servedFrom size = some z ∧ z % size = 0 := by
  subst power
  obtain ⟨table, initial⟩ := SlabInv.init fresh accepted init
  obtain ⟨view, blocks, inv⟩ := initial.after run
  rcases inv.malloc malloc with ⟨null, -⟩ | ⟨-, -, z, -, -, aligned, from_, place, -⟩
  · exact absurd null nonnull
  have same : p % 2 ^ k = z % 2 ^ k := by
    split at place
    · rw [place]
    · rename_i narrow
      have small := Nat.lt_of_lt_of_le (Nat.not_le.mp narrow) inv.geometry.limit_le
      rw [zoneindex_two_pow large small] at place
      exact place.mod_two_pow
  rw [same]
  constructor
  · exact fun multiple => Or.inr ⟨z, from_, multiple⟩
  · rintro (small | ⟨z', from', multiple⟩)
    · exact page_mod_two_pow small aligned
    · obtain rfl := Option.some_inj.mp (from_.symm.trans from')
      exact multiple

/-- A block of 8192 bytes is asked for. -/
theorem malloc_two_pow_aligned_ten : ∃ slab, tenPagesSlab.malloc 8192 = some (slab, 12288) ∧
    (12288 % 8192 = 0 ↔
      8192 ≤ pageSize ∨ ∃ z, tenPagesSlab.servedFrom 8192 = some z ∧ z % 8192 = 0) := by
  obtain ⟨slab, malloc⟩ := tenPagesSlab_malloc_large
  exact ⟨slab, malloc, malloc_two_pow_aligned blankSlab_fresh (by decide) tenPagesSlab_init .nil
    (show 8192 = 2 ^ 13 by decide) (by decide) malloc (by decide)⟩

/-- The block begins at a multiple of 4096 only. -/
theorem malloc_two_pow_unaligned :
    ¬ ∀ (slab start slab' : Slab) (beginAddr endAddr size k p : Nat) (actions : List SlabAction)
      (events : List Nat) (state : SlabState), slab.Fresh →
      alignUp beginAddr pageSize < endAddr / pageSize * pageSize →
      slab.rtSystemHeapInit beginAddr endAddr = some start →
      slabMachine.Run SlabState.Legal (.start start) actions events state →
      size = 2 ^ k → 8 ≤ size → state.slab.malloc size = some (slab', p) → p ≠ 0 →
      p % size = 0 := by
  intro aligned
  obtain ⟨slab, malloc⟩ := tenPagesSlab_malloc_large
  have multiple := aligned blankSlab tenPagesSlab slab 8192 49152 8192 13 12288 [] []
    (.start tenPagesSlab) blankSlab_fresh (by decide) tenPagesSlab_init .nil (by decide) (by decide)
    malloc (by decide)
  exact absurd multiple (by decide)

end RtThread
