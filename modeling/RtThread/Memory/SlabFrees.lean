import RtThread.Memory.SlabSteps

/-!
# Blocks that are given back to the slab allocator

A chunk goes back into its zone, which may leave its list and may be released; the pages of a
large block are free again. `rt_realloc` is a new block in the place of an old one.
-/

namespace RtThread

open RtThread.Std

/-! ## Sizes -/

/-- A request for the size of a chunk gets one of this size. -/
theorem zoneindex_zoneChunk : ∀ zi < nzones, (zoneindex (zoneChunk zi)).2 = zoneChunk zi := by
  decide

theorem Slab.Geometry.blockSize_chunk {slab : Slab} {bytes : Nat} (geometry : slab.Geometry)
    (some_ : 0 < bytes) (small : bytes < slab.zoneLimit) :
    slab.blockSize (zoneindex bytes).2 = (zoneindex bytes).2 := by
  have small' := Nat.lt_of_lt_of_le small geometry.limit_le
  obtain ⟨-, -, within, half⟩ := zoneindex_bounds some_ small'
  obtain ⟨chunk, index⟩ := zoneindex_chunk some_ small'
  rw [Slab.blockSize]
  split
  · rename_i wide
    have limit := geometry.zoneLimit
    rw [zallocZoneLimit] at within limit
    have whole : (zoneindex bytes).2 = 8192 ∨ (zoneindex bytes).2 = 16384 := by
      rcases geometry.zoneSize with size | size | size
      all_goals
        rw [size] at limit
        omega
    rcases whole with size | size
    all_goals
      rw [size]
      decide
  · rw [chunk]
    exact zoneindex_zoneChunk _ index

/-- A block is a chunk that is used, or the pages of a run. -/
def ZoneView.Owned (view : ZoneView) (runs : List Span) (block : Span) : Prop :=
  (∃ z ∈ view.inUse, block.start ∈ view.taken z ∧ block.length = view.size z) ∨
    ∃ run ∈ runs, block = pageBytes run

namespace SlabInv

variable {grid block run : Span} {view : ZoneView} {large others live live' : List Span}
  {slab slab' : Slab} {z p bytes : Nat}

/-- The order of the blocks does not matter. -/
theorem perm (inv : SlabInv grid view large others slab live) (same : live'.Perm live) :
    SlabInv grid view large others slab live' :=
  ⟨inv.geometry, inv.pages, inv.zones, same.trans inv.blocks,
    inv.used.trans (same.map Span.length).sum_eq.symm⟩

/-! ## Zones -/

/-- The pages of the first zone of `zone_free` are given back. -/
theorem releaseZone (inv : SlabInv grid view large others slab live) (some_ : slab.zoneFree ≠ 0)
    (step : slab.releaseZone = some slab') :
    ∃ view', SlabInv grid view' large others slab' live := by
  obtain ⟨rest, front, ok, -⟩ := inv.zones.unpark some_
  have parked : slab.zoneFree ∈ view.queue none := front ▸ List.mem_cons_self
  obtain ⟨pages, memusage, rfl, owned⟩ := inv.pages.releaseZone inv.geometry.zonePageCnt
    (List.mem_append_right _ parked) step
  have left : view.zones.erase slab.zoneFree = ZoneView.zones { view with
      queue := Function.update view.queue none rest } := by
    change (view.inUse ++ view.queue none).erase slab.zoneFree =
      view.inUse ++ Function.update view.queue none rest none
    rw [front, Function.update_self, List.erase_append_right _ (inv.zones.parked _ parked).1,
      List.erase_cons_head]
  rw [left] at owned
  exact ⟨_, inv.geometry.congr rfl rfl rfl, owned, ok.congr rfl rfl rfl rfl rfl rfl rfl, inv.blocks,
    inv.used⟩

/-- A zone whose chunks are all free leaves its list. -/
theorem retireZone (inv : SlabInv grid view large others slab live) (member : z ∈ view.inUse)
    (full : (slab.zones z).nfree = (slab.zones z).nmax) (step : slab.retireZone z = some slab') :
    ∃ view', SlabInv grid view' large others slab' live := by
  obtain ⟨slab₁, park, step⟩ := Option.bind_eq_some_iff.mp step
  obtain ⟨sound, -⟩ := inv.zones.sound z member
  have several := (sound.chunk inv.geometry).2.2
  have nonnull : z ≠ 0 := (@SlabPages.aligned _ _ (slab.zoneSpan z) _ _ _ inv.pages
    (List.mem_append_left _ (List.mem_map_of_mem (List.mem_append_left _ member)))).1
  obtain ⟨zones, zoneArray, queue, rfl, ok, front⟩ :=
    inv.zones.parkZone member (by omega) park
  have owners : (ZoneView.zones { view with inUse := view.inUse.erase z, queue := queue }).Perm
      view.zones := by
    change (view.inUse.erase z ++ queue none).Perm (view.inUse ++ view.queue none)
    rw [front]
    exact List.perm_middle.trans ((List.perm_cons_erase member).symm.append_right _)
  have owned := inv.pages.perm owners
  have same := @ZoneView.blocks_park view z queue member inv.zones.nodup (sound.taken_eq_nil full)
  have inv₁ : SlabInv grid { view with inUse := view.inUse.erase z, queue := queue } large others
      { slab with
        zones := zones
        zoneArray := zoneArray
        zoneFree := z
        zoneFreeCnt := slab.zoneFreeCnt + 1 } live :=
    ⟨inv.geometry.congr rfl rfl rfl, owned.congr rfl rfl rfl rfl, ok,
      inv.blocks.trans (same.append_right _), inv.used⟩
  split at step
  · exact inv₁.releaseZone nonnull step
  · obtain rfl := Option.some_inj.mp step
    exact ⟨_, inv₁.unlock⟩

/-! ## Chunks -/

/-- A chunk lies in its zone only. -/
theorem elsewhere (inv : SlabInv grid view large others slab live) (member : z ∈ view.inUse)
    (used : p ∈ view.taken z) {other : Nat} (there : other ∈ view.inUse) (apart : other ≠ z) :
    p ∉ view.free other := by
  intro here
  obtain ⟨-, low, high⟩ := inv.cell member (Or.inr used)
  obtain ⟨-, low', high'⟩ := inv.cell there (Or.inl here)
  have zone (w : Nat) (member : w ∈ view.inUse) :
      slab.zoneSpan w ∈ view.zones.map slab.zoneSpan ++ (large ++ others) :=
    List.mem_append_left _ (List.mem_map_of_mem (List.mem_append_left _ member))
  have clear := inv.pages.apart (zone z member) (zone other there)
    fun same => apart (congrArg Span.start same).symm
  have width := (inv.zones.sound z member).2 ▸
    ((inv.zones.sound z member).1.chunk inv.geometry).1
  have width' := (inv.zones.sound other there).2 ▸
    ((inv.zones.sound other there).1.chunk inv.geometry).1
  simp only [Span.Clear, Span.finish, Slab.zoneSpan] at clear
  rw [slabZoneSize] at low low'
  omega

/-- A chunk is given back. -/
theorem freeChunk (inv : SlabInv grid view large others slab live) (member : z ∈ view.inUse)
    (used : p ∈ view.taken z) (step : slab.freeChunk p = some slab') :
    ∃ view', SlabInv grid view' large others slab' (live.erase ⟨p, view.size z⟩) := by
  obtain ⟨locked, taken, step⟩ := Option.bind_eq_some_iff.mp step
  obtain ⟨value, rfl, inv⟩ := inv.lock taken
  obtain ⟨-, low, high⟩ := inv.cell member (Or.inr used)
  have width := (inv.zones.sound z member).2 ▸
    ((inv.zones.sound z member).1.chunk inv.geometry).1
  have found := (inv.pages.kup_small (List.mem_append_left _ member)
    (Nat.le_trans (Nat.le_add_right z slabZoneSize) low) (by omega)).2
  have nonnull : z ≠ 0 := (@SlabPages.aligned _ _
    (Slab.zoneSpan { slab with pages := slab.pages.withSem value } z) _ _ _ inv.pages
    (List.mem_append_left _ (List.mem_map_of_mem (List.mem_append_left _ member)))).1
  dsimp only at step
  rw [found] at step
  obtain ⟨-, step⟩ := Option.ite_none_right_eq_some.mp step
  obtain ⟨zones, zoneArray, cNext, queue, made, ok, parked⟩ :=
    inv.zones.addFree inv.geometry member nonnull used
      fun other there apart => inv.elsewhere member used there apart
  rw [made] at step ok
  have kept : ZoneView.zones { view with
      queue := queue
      free := Function.update view.free z (p :: view.free z)
      taken := Function.update view.taken z ((view.taken z).erase p) } = view.zones :=
    congrArg (view.inUse ++ ·) parked
  have blocks := (@ZoneView.blocks_put view z p queue
    (Function.update view.free z (p :: view.free z)) member inv.zones.nodup used).append_right
    (large.map pageBytes)
  have owned := inv.pages
  rw [← kept] at owned
  have inv₁ := inv.lose ok blocks (owned.congr rfl rfl rfl rfl) (inv.geometry.congr rfl rfl rfl) rfl
  split at step
  · rename_i full
    exact inv₁.retireZone member full.1 step
  · obtain rfl := Option.some_inj.mp step
    exact ⟨_, inv₁.unlock⟩

/-! ## Blocks -/

/-- A block that is live is one of a zone, or a large one. -/
theorem owned (inv : SlabInv grid view large others slab live) (member : block ∈ live) :
    view.Owned large block := by
  rcases List.mem_append.mp (inv.blocks.subset member) with chunk | pages
  · obtain ⟨z, zone, there⟩ := List.mem_flatMap.mp chunk
    obtain ⟨p, used, rfl⟩ := List.mem_map.mp there
    exact Or.inl ⟨z, zone, used, rfl⟩
  · obtain ⟨run, there, rfl⟩ := List.mem_map.mp pages
    exact Or.inr ⟨run, there, rfl⟩

/-- The pages of a large block are given back. -/
theorem freeLarge (inv : SlabInv grid view large others slab live) (member : run ∈ large)
    (step : slab.freeLarge run.start = some slab') :
    SlabInv grid view (large.erase run) others slab' (live.erase (pageBytes run)) := by
  obtain ⟨pages, memusage, rfl, owned⟩ := inv.pages.freeLarge member step
  have blocks : (view.blocks ++ large.map pageBytes).Perm
      (pageBytes run :: (view.blocks ++ (large.erase run).map pageBytes)) :=
    (((List.perm_cons_erase member).map pageBytes).append_left _).trans List.perm_middle
  exact inv.lose (inv.zones.congr rfl rfl rfl rfl rfl rfl rfl) blocks owned
    (inv.geometry.congr rfl rfl rfl) rfl

/-- What the table says about the page of a block. -/
theorem kup_block (inv : SlabInv grid view large others slab live) :
    (∀ z ∈ view.inUse, ∀ p ∈ view.taken z,
      p ≠ 0 ∧ (slab.kup p).type = .small ∧ slab.zoneOf p = z) ∧
    ∀ run ∈ large, run.start ≠ 0 ∧ (slab.kup run.start).type = .large := by
  refine ⟨fun z member p used => ?_, fun run member => ?_⟩
  · obtain ⟨-, low, high⟩ := inv.cell member (Or.inr used)
    have width := (inv.zones.sound z member).2 ▸
      ((inv.zones.sound z member).1.chunk inv.geometry).1
    rw [slabZoneSize] at low
    refine ⟨by omega, inv.pages.kup_small (List.mem_append_left _ member) ?_ ?_⟩
    · omega
    · omega
  · have there := inv.pages.aligned
      (List.mem_append_right _ (List.mem_append_left _ member))
    exact ⟨there.1, congrArg MemUsage.type (inv.pages.kup_large member).2⟩

/-- `rt_free` takes back a block. -/
theorem free (inv : SlabInv grid view large others slab live) (member : block ∈ live)
    (step : slab.free block.start = some slab') :
    ∃ view' large', SlabInv grid view' large' others slab' (live.erase block) ∧
      (large = [] → large' = []) := by
  obtain ⟨small, wide⟩ := inv.kup_block
  rw [Slab.free] at step
  rcases inv.owned member with ⟨z, zone, used, size⟩ | ⟨run, there, rfl⟩
  · obtain ⟨nonnull, type, -⟩ := small z zone _ used
    rw [if_neg nonnull, if_neg (by rw [type]; decide)] at step
    obtain ⟨view', inv'⟩ := inv.freeChunk zone used step
    rw [← size] at inv'
    exact ⟨view', large, inv', id⟩
  · obtain ⟨nonnull, type⟩ := wide run there
    rw [if_neg (show (pageBytes run).start ≠ 0 from nonnull),
      if_pos (show (slab.kup (pageBytes run).start).type = .large from type)] at step
    exact ⟨view, _, inv.freeLarge there step, fun none_ => absurd there (by simp [none_])⟩

/-- A new block takes the place of an old one. -/
theorem replace (inv : SlabInv grid view large others slab live) (member : block ∈ live)
    (step : slab.replace block.start bytes = some (slab', p)) :
    ∃ view' large', SlabInv grid view' large' others slab'
      (if p = 0 then live else ⟨p, slab.blockSize bytes⟩ :: live.erase block) := by
  obtain ⟨⟨slab₁, nptr⟩, malloc, step⟩ := Option.bind_eq_some_iff.mp step
  dsimp only at step
  rcases inv.malloc malloc with ⟨rfl, inv₁⟩ | ⟨view₁, large₁, z, inv₁, nonnull, -⟩
  · rw [if_pos rfl] at step
    obtain ⟨rfl, rfl⟩ := Prod.mk.inj (Option.some_inj.mp step)
    exact ⟨view, large, inv₁⟩
  · rw [if_neg nonnull] at step
    obtain ⟨slab₂, freed, made⟩ := Option.bind_eq_some_iff.mp step
    obtain ⟨rfl, rfl⟩ := Prod.mk.inj (Option.some_inj.mp made)
    obtain ⟨view', large', inv', -⟩ := inv₁.free (List.mem_cons_of_mem _ member) freed
    rw [if_neg nonnull]
    refine ⟨view', large', inv'.perm ?_⟩
    have whole := (List.perm_cons_erase member).cons ⟨nptr, slab.blockSize bytes⟩
    have left := (whole.trans (List.Perm.swap ..)).erase block
    rw [List.erase_cons_head] at left
    exact left.symm

end SlabInv

/-- The size for which `rt_realloc` calls `rt_malloc`. -/
def Slab.reallocSize (slab : Slab) (ptr size : Nat) : Nat :=
  if (slab.kup ptr).type = .small then (zoneindex size).2 else size

namespace SlabInv

variable {grid block run : Span} {view : ZoneView} {large others others' live : List Span}
  {slab slab' : Slab} {p bytes npages skip : Nat}

/-- `rt_realloc` gives a block for another one, or null. -/
theorem realloc (inv : SlabInv grid view large others slab live) (member : block ∈ live)
    (step : slab.realloc block.start bytes = some (slab', p)) :
    ∃ view' large', SlabInv grid view' large' others slab' (if p = 0 then live
      else ⟨p, slab.blockSize (slab.reallocSize block.start bytes)⟩ :: live.erase block) := by
  obtain ⟨small, wide⟩ := inv.kup_block
  rw [Slab.realloc] at step
  rcases inv.owned member with ⟨z, zone, used, size⟩ | ⟨run, there, rfl⟩
  · obtain ⟨nonnull, type, found⟩ := small z zone _ used
    rw [Slab.reallocSize, if_pos type]
    rw [type] at step
    dsimp only at step
    rw [found] at step
    obtain ⟨-, step⟩ := Option.ite_none_right_eq_some.mp step
    split at step
    · rename_i same
      obtain ⟨rfl, rfl⟩ := Prod.mk.inj (Option.some_inj.mp step)
      obtain ⟨sound, width⟩ := inv.zones.sound z zone
      obtain ⟨bytes', some_, below, -, chunk⟩ := sound.kind
      have kept : slab.blockSize (zoneindex bytes).2 = block.length := by
        rw [← same, chunk, inv.geometry.blockSize_chunk some_ below, ← chunk, width, size]
      rw [if_neg nonnull, kept]
      exact ⟨view, large, inv.perm (List.perm_cons_erase member).symm⟩
    · exact inv.replace member step
  · obtain ⟨nonnull, type⟩ := wide run there
    have type : (slab.kup (pageBytes run).start).type = .large := type
    have asked : slab.reallocSize (pageBytes run).start bytes = bytes := by
      rw [Slab.reallocSize, type, if_neg (by decide)]
    rw [asked]
    rw [type] at step
    exact inv.replace member step

/-! ## The pages of others -/

/-- Others ask for pages. -/
theorem pageAlloc {heap : PageHeap} (inv : SlabInv grid view large others slab live)
    (step : rtPageAlloc slab.pages npages = some (heap, p)) :
    SlabInv grid view large (if p = 0 then others else ⟨p, npages⟩ :: others)
      { slab with pages := heap } live := by
  obtain ⟨free, pages⟩ := inv.pages.pages
  obtain ⟨free', pages'⟩ := pages.alloc_withSem step
  refine ⟨inv.geometry.congr rfl rfl rfl,
    ⟨⟨free', pages'.perm ?_⟩, inv.pages.start, inv.pages.small, inv.pages.first⟩,
    inv.zones.congr rfl rfl rfl rfl rfl rfl rfl, inv.blocks, inv.used⟩
  dsimp only
  split
  · exact List.Perm.refl _
  · exact (List.perm_middle.append_left _).trans List.perm_middle

/-- Others give back pages of theirs. -/
theorem pageFree {heap : PageHeap} (inv : SlabInv grid view large others slab live)
    (member : run ∈ others) (some_ : 0 < npages) (fits : skip + npages ≤ run.length)
    (step : rtPageFree slab.pages (run.start + pageSize * skip) npages = some heap) :
    SlabInv grid view large (run.cut pageSize skip npages ++ others.erase run)
      { slab with pages := heap } live := by
  obtain ⟨free, pages⟩ := inv.pages.pages
  have there : run ∈ view.zones.map slab.zoneSpan ++ (large ++ others) :=
    List.mem_append_right _ (List.mem_append_right _ member)
  obtain ⟨free', pages'⟩ := pages.free_withSem there some_ fits step
  refine ⟨inv.geometry.congr rfl rfl rfl,
    ⟨⟨free', pages'.perm ?_⟩, inv.pages.start, inv.pages.small, inv.pages.first⟩,
    inv.zones.congr rfl rfl rfl rfl rfl rfl rfl, inv.blocks, inv.used⟩
  have rest : (view.zones.map slab.zoneSpan ++ (large ++ others.erase run)).Perm
      ((view.zones.map slab.zoneSpan ++ (large ++ others)).erase run) := by
    have split : (view.zones.map slab.zoneSpan ++ (large ++ others)).Perm
        (run :: (view.zones.map slab.zoneSpan ++ (large ++ others.erase run))) :=
      ((((List.perm_cons_erase member).append_left large).trans List.perm_middle).append_left
        _).trans List.perm_middle
    have left := (split.erase run).symm
    rwa [List.erase_cons_head] at left
  refine List.Perm.trans ?_ (rest.append_left _)
  refine ((List.perm_append_comm_assoc ..).append_left _).trans ?_
  exact List.perm_append_comm_assoc ..

end SlabInv

end RtThread
