import RtThread.Memory.SlabPages
import RtThread.Memory.SlabZones

/-!
# Steps of the slab allocator

Pages, zones and chunks together. Each call keeps the invariant, and what it takes or gives back
is one block.
-/

namespace RtThread

open RtThread.Std

/-! ## Blocks -/

/-- The blocks of all zones, when the chunks of one zone change. -/
theorem flatMap_perm_erase {α β : Type} [DecidableEq α] {l : List α} {a : α} {f f' : α → List β}
    (member : a ∈ l) (nodup : l.Nodup) (same : ∀ b ≠ a, f' b = f b) :
    (l.flatMap f').Perm (f' a ++ (l.erase a).flatMap f) := by
  have rest : (l.erase a).flatMap f' = (l.erase a).flatMap f := by
    apply List.flatMap_congr
    rintro b there
    apply same
    rintro rfl
    exact nodup.not_mem_erase there
  rw [← rest]
  exact (List.perm_cons_erase member).flatMap_right f'

namespace ZoneView

variable {view : ZoneView} {z p : Nat} {queue : Option Nat → List Nat} {free : Nat → List Nat}

theorem blocks_take (member : z ∈ view.inUse) (nodup : view.inUse.Nodup) :
    (blocks { view with
      queue := queue
      free := free
      taken := Function.update view.taken z (p :: view.taken z) }).Perm
        (⟨p, view.size z⟩ :: view.blocks) := by
  let f (w : Nat) : List Span := (view.taken w).map fun q => ⟨q, view.size w⟩
  let f' (w : Nat) : List Span :=
    (Function.update view.taken z (p :: view.taken z) w).map fun q => ⟨q, view.size w⟩
  have here : f' z = ⟨p, view.size z⟩ :: f z := by
    simp only [f', f, Function.update_self, List.map_cons]
  have same : ∀ w ≠ z, f' w = f w := fun w apart => by
    simp only [f', f, Function.update_of_ne apart]
  have before : (view.inUse.flatMap f).Perm (f z ++ (view.inUse.erase z).flatMap f) :=
    flatMap_perm_erase member nodup fun _ _ => rfl
  have after : (view.inUse.flatMap f').Perm (f' z ++ (view.inUse.erase z).flatMap f) :=
    flatMap_perm_erase member nodup same
  rw [here] at after
  exact after.trans (before.symm.cons _)

theorem blocks_put (member : z ∈ view.inUse) (nodup : view.inUse.Nodup)
    (used : p ∈ view.taken z) :
    view.blocks.Perm (⟨p, view.size z⟩ :: blocks { view with
      queue := queue
      free := free
      taken := Function.update view.taken z ((view.taken z).erase p) }) := by
  let f (w : Nat) : List Span := (view.taken w).map fun q => ⟨q, view.size w⟩
  let f' (w : Nat) : List Span :=
    (Function.update view.taken z ((view.taken z).erase p) w).map fun q => ⟨q, view.size w⟩
  have here : (f z).Perm (⟨p, view.size z⟩ :: f' z) := by
    simp only [f', f, Function.update_self]
    exact (List.perm_cons_erase used).map _
  have same : ∀ w ≠ z, f' w = f w := fun w apart => by
    simp only [f', f, Function.update_of_ne apart]
  have before : (view.inUse.flatMap f).Perm (f z ++ (view.inUse.erase z).flatMap f) :=
    flatMap_perm_erase member nodup fun _ _ => rfl
  have after : (view.inUse.flatMap f').Perm (f' z ++ (view.inUse.erase z).flatMap f) :=
    flatMap_perm_erase member nodup same
  exact (before.trans (here.append_right _)).trans (after.symm.cons _)

theorem blocks_park (member : z ∈ view.inUse) (nodup : view.inUse.Nodup)
    (none_ : view.taken z = []) :
    view.blocks.Perm (blocks { view with inUse := view.inUse.erase z, queue := queue }) := by
  have before := @flatMap_perm_erase _ _ _ _ z
    (fun w => (view.taken w).map fun q => (⟨q, view.size w⟩ : Span)) _ member nodup fun _ _ => rfl
  rwa [none_, List.map_nil, List.nil_append] at before

theorem blocks_init {size : Nat} (fresh : z ∉ view.inUse) :
    blocks
      { inUse := z :: view.inUse
        queue := queue
        size := Function.update view.size z size
        free := free
        taken := Function.update view.taken z [p] } = ⟨p, size⟩ :: view.blocks := by
  rw [blocks, List.flatMap_cons]
  dsimp only
  rw [Function.update_self, Function.update_self]
  refine congrArg _ (List.flatMap_congr fun w there => ?_)
  have apart : w ≠ z := fun same => fresh (same ▸ there)
  rw [Function.update_of_ne apart, Function.update_of_ne apart]

end ZoneView

/-- The memory of some pages. -/
def pageBytes (run : Span) : Span := ⟨run.start, run.length * pageSize⟩

/-! ## The invariant -/

/-- The zones, the pages and the blocks that are live fit together. -/
structure SlabInv (grid : Span) (view : ZoneView) (large others : List Span) (slab : Slab)
    (live : List Span) : Prop where
  geometry : slab.Geometry
  pages : SlabPages slab grid view.zones large others
  zones : SlabZones slab view
  blocks : live.Perm (view.blocks ++ large.map pageBytes)
  used : slab.usedMem = (live.map Span.length).sum

/-! ## Where a request is served from -/

/-- The first run of free pages that is long enough, or 0. -/
def PageHeap.firstRun (heap : PageHeap) (npages : Nat) : Option Nat :=
  (heap.list.seek (fun _ => true) (fun b => npages ≤ heap.page b) none).map heap.list.load

theorem rtPageAlloc_firstRun {heap heap' : PageHeap} {npages p : Nat} (nonnull : p ≠ 0)
    (step : rtPageAlloc heap npages = some (heap', p)) : heap.firstRun npages = some p := by
  have some_ : npages ≠ 0 := by
    rintro rfl
    exact nonnull (Prod.mk.inj (Option.some_inj.mp step)).2.symm
  rw [rtPageAlloc, if_neg some_] at step
  obtain ⟨locked, taken, step⟩ := Option.bind_eq_some_iff.mp step
  obtain ⟨value, rfl⟩ := PageHeap.lock_eq taken
  obtain ⟨prev, found, made⟩ := Option.bind_eq_some_iff.mp step
  obtain ⟨-, rfl⟩ := Prod.mk.inj (Option.some_inj.mp made)
  exact Option.map_eq_some_iff.mpr ⟨prev, found, rfl⟩

/-- The pages for a large block. -/
def blockPages (size : Nat) : Nat := (size + (pageSize - 1)) % 2 ^ 32 / pageSize

/-- The zone or the run of pages from which a request is served. -/
def Slab.servedFrom (slab : Slab) (size : Nat) : Option Nat :=
  if slab.zoneLimit ≤ size then slab.pages.firstRun (blockPages size)
  else if slab.zoneArray (zoneindex size).1 ≠ 0 then some (slab.zoneArray (zoneindex size).1)
  else if slab.zoneFree ≠ 0 then some slab.zoneFree
  else slab.pages.firstRun (slab.zoneSize / pageSize)

/-- The size of the block that serves a request. -/
def Slab.blockSize (slab : Slab) (size : Nat) : Nat :=
  if slab.zoneLimit ≤ size then blockPages size * pageSize else (zoneindex size).2

/-- A chunk of a zone. -/
def IsChunk (z width p : Nat) : Prop := ∃ index, p = z + Slab.chunkOffset width + width * index

namespace SlabInv

variable {grid block : Span} {view view' : ZoneView} {large large' others others' live : List Span}
  {slab slab' : Slab} {z p size bytes : Nat}

theorem setSem (inv : SlabInv grid view large others slab live) (value : BitVec 16) :
    SlabInv grid view large others { slab with pages := slab.pages.withSem value } live :=
  ⟨inv.geometry.congr rfl rfl rfl,
    ⟨inv.pages.pages, inv.pages.start, inv.pages.small, inv.pages.first⟩,
    inv.zones.congr rfl rfl rfl rfl rfl rfl rfl, inv.blocks, inv.used⟩

theorem lock (inv : SlabInv grid view large others slab live) {locked : Slab}
    (taken : slab.lock = some locked) :
    ∃ value, locked = { slab with pages := slab.pages.withSem value } ∧
      SlabInv grid view large others locked live := by
  obtain ⟨heap, locks, rfl⟩ := Option.map_eq_some_iff.mp taken
  obtain ⟨value, rfl⟩ := PageHeap.lock_eq locks
  exact ⟨value, rfl, inv.setSem value⟩

theorem unlock (inv : SlabInv grid view large others slab live) :
    SlabInv grid view large others slab.unlock live :=
  inv.setSem _

/-- One more block is live. -/
theorem gain (inv : SlabInv grid view large others slab live) (zones : SlabZones slab' view')
    (blocks : (view'.blocks ++ large'.map pageBytes).Perm
      (block :: (view.blocks ++ large.map pageBytes)))
    (pages : SlabPages slab' grid view'.zones large' others) (geometry : slab'.Geometry)
    (used : slab'.usedMem = slab.usedMem + block.length) :
    SlabInv grid view' large' others slab' (block :: live) := by
  refine ⟨geometry, pages, zones, (inv.blocks.cons block).trans blocks.symm, ?_⟩
  rw [used, inv.used, List.map_cons, List.sum_cons, Nat.add_comm]

/-- A block is no longer live. -/
theorem lose (inv : SlabInv grid view large others slab live) (zones : SlabZones slab' view')
    (blocks : (view.blocks ++ large.map pageBytes).Perm
      (block :: (view'.blocks ++ large'.map pageBytes)))
    (pages : SlabPages slab' grid view'.zones large' others) (geometry : slab'.Geometry)
    (used : slab'.usedMem = slab.usedMem - block.length) :
    SlabInv grid view' large' others slab' (live.erase block) := by
  have whole := inv.blocks.trans blocks
  have member : block ∈ live := whole.symm.subset List.mem_cons_self
  have rest := whole.erase block
  rw [List.erase_cons_head] at rest
  refine ⟨geometry, pages, zones, rest, ?_⟩
  have sum := ((List.perm_cons_erase member).map Span.length).sum_eq
  rw [List.map_cons, List.sum_cons] at sum
  rw [used, inv.used, sum, Nat.add_sub_cancel_left]

/-! ## Chunks -/

/-- The chunks lie in their zones. -/
theorem cell (inv : SlabInv grid view large others slab live) (member : z ∈ view.inUse)
    (chunk : p ∈ view.free z ∨ p ∈ view.taken z) :
    IsChunk z (view.size z) p ∧ z + slabZoneSize ≤ p ∧
      p + view.size z ≤ z + pageSize * slab.zonePageCnt := by
  obtain ⟨sound, width⟩ := inv.zones.sound z member
  obtain ⟨index, -, place⟩ := sound.slots.cell chunk
  obtain ⟨low, high⟩ := sound.inside inv.geometry chunk
  rw [width] at place high
  rw [inv.geometry.pages.1]
  refine ⟨⟨index, ?_⟩, low, high⟩
  rw [place, sound.baseptr, width]

/-- A chunk of the first zone of the index. -/
theorem takeChunk (inv : SlabInv grid view large others slab live) (some_ : 0 < bytes)
    (small : bytes < slab.zoneLimit) (first : slab.zoneArray (zoneindex bytes).1 ≠ 0)
    (step : slab.takeChunk (zoneindex bytes).1 (zoneindex bytes).2 = some (slab', p)) :
    ∃ view', SlabInv grid view' large others slab' (⟨p, (zoneindex bytes).2⟩ :: live) ∧
      slab.zoneArray (zoneindex bytes).1 ∈ view'.zones ∧
      IsChunk (slab.zoneArray (zoneindex bytes).1) (zoneindex bytes).2 p ∧ p ≠ 0 := by
  have width := (zoneindex_chunk some_ (Nat.lt_of_lt_of_le small inv.geometry.limit_le)).1
  rw [width] at step ⊢
  obtain ⟨zones, zoneArray, queue, free, made, ok, parked, member, size⟩ :=
    inv.zones.takeChunk inv.geometry first step
  dsimp only at made ok
  obtain ⟨z, same⟩ : ∃ z, slab.zoneArray (zoneindex bytes).1 = z := ⟨_, rfl⟩
  rw [same] at ok member size ⊢
  have kept : ZoneView.zones { view with
      queue := queue
      free := free
      taken := Function.update view.taken z (p :: view.taken z) } = view.zones :=
    congrArg (view.inUse ++ ·) parked
  subst made
  have blocks := (@ZoneView.blocks_take view z p queue free member inv.zones.nodup).append_right
    (large.map pageBytes)
  rw [size] at blocks
  have owned := inv.pages
  rw [← kept] at owned
  have inv' := inv.gain ok blocks (owned.congr rfl rfl rfl rfl) (inv.geometry.congr rfl rfl rfl) rfl
  have there : p ∈ Function.update view.taken z (p :: view.taken z) z := by
    rw [Function.update_self]
    exact List.mem_cons_self
  obtain ⟨cell, low, -⟩ := inv'.cell member (Or.inr there)
  refine ⟨_, inv', List.mem_append_left _ member, size ▸ cell, ?_⟩
  rw [slabZoneSize] at low
  omega

/-- A zone is made of pages that nobody else uses. -/
theorem initZone {slab₁ : Slab} {view₁ : ZoneView} (inv : SlabInv grid view large others slab live)
    (geometry : slab₁.Geometry) (pages : SlabPages slab₁ grid (z :: view₁.zones) large others)
    (zones : SlabZones slab₁ view₁) (blocks : view₁.blocks = view.blocks)
    (used : slab₁.usedMem = slab.usedMem) (fresh : z ∉ view₁.inUse)
    (outside : ∀ i, z ∉ view₁.queue i) (some_ : 0 < bytes) (small : bytes < slab₁.zoneLimit) :
    ∃ view', SlabInv grid view' large others
      (slab₁.initZone z (zoneindex bytes).1 (zoneindex bytes).2).1
      (⟨z + Slab.chunkOffset (zoneindex bytes).2, (zoneindex bytes).2⟩ :: live) ∧
      z ∈ view'.zones := by
  have nonnull : z ≠ 0 := (@SlabPages.aligned _ _ (slab₁.zoneSpan z) _ _ _ pages
    (List.mem_append_left _ (List.mem_map_of_mem List.mem_cons_self))).1
  have ok := zones.initZone geometry some_ small nonnull fresh outside
  rw [Slab.initZone_eq] at ok ⊢
  dsimp only at ok ⊢
  refine ⟨_, inv.gain ok ?_ ?_ (geometry.congr rfl rfl rfl) ?_,
    List.mem_append_left _ List.mem_cons_self⟩
  · rw [ZoneView.blocks_init fresh, blocks]
    exact List.Perm.refl _
  · rw [ZoneView.zones]
    dsimp only
    rw [Function.update_of_ne (by simp), List.cons_append]
    exact pages.congr rfl rfl rfl rfl
  · exact congrArg (· + (zoneindex bytes).2) used

/-- A zone that is free as a whole, or a new one. -/
theorem newZone (inv : SlabInv grid view large others slab live) (some_ : 0 < bytes)
    (small : bytes < slab.zoneLimit)
    (step : slab.newZone (zoneindex bytes).1 (zoneindex bytes).2 = some (slab', p)) :
    (p = 0 ∧ SlabInv grid view large others slab' live) ∨
      ∃ view' z, p = z + Slab.chunkOffset (zoneindex bytes).2 ∧ z ≠ 0 ∧ z ∈ view'.zones ∧
        SlabInv grid view' large others slab' (⟨p, (zoneindex bytes).2⟩ :: live) ∧
        (if slab.zoneFree ≠ 0 then some slab.zoneFree
          else slab.pages.firstRun (slab.zoneSize / pageSize)) = some z := by
  rw [Slab.newZone] at step
  by_cases parked : slab.zoneFree ≠ 0
  · rw [if_pos parked] at step ⊢
    obtain ⟨rest, front, ok, outside⟩ := inv.zones.unpark parked
    have owners : (slab.zoneFree :: ZoneView.zones { view with
        queue := Function.update view.queue none rest }).Perm view.zones := by
      change (slab.zoneFree :: (view.inUse ++ Function.update view.queue none rest none)).Perm
        (view.inUse ++ view.queue none)
      rw [front, Function.update_self]
      exact List.perm_middle.symm
    have pages := inv.pages.perm owners
    have fresh : slab.zoneFree ∉ view.inUse :=
      (inv.zones.parked slab.zoneFree (front ▸ List.mem_cons_self)).1
    obtain ⟨view', inv', there⟩ := @initZone _ _ _ _ _ _ slab.zoneFree bytes
      { slab with
        zoneFree := (slab.zones slab.zoneFree).next
        zoneFreeCnt := slab.zoneFreeCnt - 1 } _ inv
      (inv.geometry.congr rfl rfl rfl) (pages.congr rfl rfl rfl rfl) ok rfl rfl fresh outside some_
      small
    obtain ⟨rfl, rfl⟩ := Prod.mk.inj (Option.some_inj.mp step)
    exact Or.inr ⟨view', _, rfl, parked, there, inv'.unlock, rfl⟩
  · rw [if_neg parked] at step ⊢
    obtain ⟨⟨slab₁, z⟩, alloc, step⟩ := Option.bind_eq_some_iff.mp step
    have run (nonnull : z ≠ 0) : slab.pages.firstRun (slab.zoneSize / pageSize) = some z := by
      obtain ⟨⟨heap, z'⟩, taken, made⟩ := Option.bind_eq_some_iff.mp alloc
      have same : z' = z := by
        dsimp only at made
        split at made
        · rename_i null
          exact null.trans (Prod.mk.inj (Option.some_inj.mp made)).2
        · obtain ⟨locked, -, made⟩ := Option.bind_eq_some_iff.mp made
          exact (Prod.mk.inj (Option.some_inj.mp made)).2
      rw [same] at taken
      have found := rtPageAlloc_firstRun nonnull taken
      exact found
    obtain ⟨pages, memusage, rfl, owners⟩ :=
      inv.unlock.pages.allocZone inv.geometry.zonePageCnt alloc
    dsimp only at step
    by_cases null : z = 0
    · rw [if_pos null] at step owners
      obtain ⟨rfl, rfl⟩ := Prod.mk.inj (Option.some_inj.mp step)
      exact Or.inl ⟨rfl, SlabInv.unlock ⟨inv.geometry.congr rfl rfl rfl, owners,
        inv.zones.congr rfl rfl rfl rfl rfl rfl rfl, inv.blocks, inv.used⟩⟩
    · rw [if_neg null] at step owners
      have apart := (List.nodup_cons.mp owners.nodup).1
      have outside (i : Option Nat) : z ∉ view.queue i := by
        intro there
        cases i with
        | none => exact apart (List.mem_append_right _ there)
        | some zi => exact apart (List.mem_append_left _ ((inv.zones.row zi z).mp there).1)
      obtain ⟨view', inv', there⟩ := @initZone _ _ _ _ _ _ z bytes
        { slab.unlock with pages := pages, memusage := memusage } view inv
        (inv.geometry.congr rfl rfl rfl) owners (inv.zones.congr rfl rfl rfl rfl rfl rfl rfl) rfl
        rfl (fun there => apart (List.mem_append_left _ there)) outside some_ small
      obtain ⟨rfl, rfl⟩ := Prod.mk.inj (Option.some_inj.mp step)
      exact Or.inr ⟨view', z, rfl, null, there, inv'.unlock, run null⟩

/-- A chunk for a small request. -/
theorem mallocSmall (inv : SlabInv grid view large others slab live) (some_ : 0 < bytes)
    (small : bytes < slab.zoneLimit) (step : slab.mallocSmall bytes = some (slab', p)) :
    (p = 0 ∧ SlabInv grid view large others slab' live) ∨
      ∃ view' z, SlabInv grid view' large others slab' (⟨p, (zoneindex bytes).2⟩ :: live) ∧
        p ≠ 0 ∧ z ∈ view'.zones ∧ IsChunk z (zoneindex bytes).2 p ∧
        slab.servedFrom bytes = some z := by
  obtain ⟨locked, taken, step⟩ := Option.bind_eq_some_iff.mp step
  obtain ⟨value, rfl, inv⟩ := inv.lock taken
  obtain ⟨-, step⟩ := Option.ite_none_right_eq_some.mp step
  rw [Slab.servedFrom, if_neg (Nat.not_le.mpr small)]
  split at step
  · rename_i first
    obtain ⟨⟨slab₁, chunk⟩, take, made⟩ := Option.bind_eq_some_iff.mp step
    obtain ⟨rfl, rfl⟩ := Prod.mk.inj (Option.some_inj.mp made)
    obtain ⟨view', inv', there, cell, nonnull⟩ := inv.takeChunk some_ small first take
    exact Or.inr ⟨view', _, inv'.unlock, nonnull, there, cell, if_pos first⟩
  · rename_i empty
    rcases inv.newZone some_ small step with
      ⟨null, inv'⟩ | ⟨view', z, place, nonnull, there, inv', run⟩
    · exact Or.inl ⟨null, inv'⟩
    · exact Or.inr ⟨view', z, inv', by omega, there, ⟨0, place⟩, (if_neg empty).trans run⟩

/-- Pages for a large request. -/
theorem mallocLarge (inv : SlabInv grid view large others slab live)
    (step : slab.mallocLarge bytes = some (slab', p)) :
    (p = 0 ∧ SlabInv grid view large others slab' live) ∨
      SlabInv grid view (⟨p, blockPages bytes⟩ :: large) others slab'
          (⟨p, blockPages bytes * pageSize⟩ :: live) ∧
        p ≠ 0 ∧ slab.pages.firstRun (blockPages bytes) = some p := by
  rcases inv.pages.mallocLarge rfl step with
    ⟨null, pages, rfl, owned⟩ | ⟨nonnull, pages, memusage, rfl, owned⟩
  · exact Or.inl ⟨null, inv.geometry.congr rfl rfl rfl, owned,
      inv.zones.congr rfl rfl rfl rfl rfl rfl rfl, inv.blocks, inv.used⟩
  · obtain ⟨⟨heap, chunk⟩, alloc, made⟩ := Option.bind_eq_some_iff.mp step
    have same : chunk = p := by
      dsimp only at made
      split at made
      · rename_i null
        exact null.trans (Prod.mk.inj (Option.some_inj.mp made)).2
      · obtain ⟨locked, -, made⟩ := Option.bind_eq_some_iff.mp made
        exact (Prod.mk.inj (Option.some_inj.mp made)).2
    rw [same, Nat.mul_div_cancel _ (by decide)] at alloc
    exact Or.inr ⟨inv.gain (inv.zones.congr rfl rfl rfl rfl rfl rfl rfl) List.perm_middle owned
      (inv.geometry.congr rfl rfl rfl) rfl, nonnull, rtPageAlloc_firstRun nonnull alloc⟩

/-- `rt_malloc` gives a block of its own, or null. -/
theorem malloc (inv : SlabInv grid view large others slab live)
    (step : slab.malloc bytes = some (slab', p)) :
    (p = 0 ∧ SlabInv grid view large others slab' live) ∨
      ∃ view' large' z, SlabInv grid view' large' others slab' (⟨p, slab.blockSize bytes⟩ :: live) ∧
        p ≠ 0 ∧ z % pageSize = 0 ∧ slab.servedFrom bytes = some z ∧
        (if slab.zoneLimit ≤ bytes then p = z else IsChunk z (zoneindex bytes).2 p) ∧
        (bytes < slab.zoneLimit → large' = large) := by
  rw [Slab.malloc] at step
  split at step
  · obtain ⟨rfl, rfl⟩ := Prod.mk.inj (Option.some_inj.mp step)
    exact Or.inl ⟨rfl, inv⟩
  · rename_i some_
    split at step
    · rename_i wide
      rcases inv.mallocLarge step with ⟨null, inv'⟩ | ⟨inv', nonnull, run⟩
      · exact Or.inl ⟨null, inv'⟩
      · have aligned := (inv'.pages.aligned
          (List.mem_append_right _ (List.mem_append_left _ List.mem_cons_self))).2
        refine Or.inr ⟨view, ⟨p, blockPages bytes⟩ :: large, p, ?_, nonnull, aligned, ?_, ?_, ?_⟩
        · rwa [Slab.blockSize, if_pos wide]
        · rw [Slab.servedFrom, if_pos wide, run]
        · rw [if_pos wide]
        · exact fun small => absurd wide (Nat.not_le.mpr small)
    · rename_i narrow
      rcases inv.mallocSmall (Nat.pos_of_ne_zero some_) (Nat.not_le.mp narrow) step with
        ⟨null, inv'⟩ | ⟨view', z, inv', nonnull, there, cell, from_⟩
      · exact Or.inl ⟨null, inv'⟩
      · have aligned := (@SlabPages.aligned _ _ (slab'.zoneSpan z) _ _ _ inv'.pages
          (List.mem_append_left _ (List.mem_map_of_mem there))).2
        refine Or.inr ⟨view', large, z, ?_, nonnull, aligned, from_, ?_, fun _ => rfl⟩
        · rwa [Slab.blockSize, if_neg narrow]
        · rwa [if_neg narrow]

end SlabInv

end RtThread
