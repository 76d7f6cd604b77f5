import RtThread.Memory.SlabFrees

/-!
# Writes to the blocks of the slab allocator

The headers of the zones, the links of the free chunks and the heads of the free runs of pages lie
in the memory of the heap, but not in the blocks that are live: their owners can write to them.
-/

namespace RtThread

open RtThread.Std

/-- The memory of the heap, read as a header of a zone, a link of a chunk or a head of a run. -/
structure SlabMemory where
  zones : Nat → SlabZone
  cNext : Nat → Nat
  cells : Nat → Cell

namespace Slab

def memory (slab : Slab) : SlabMemory := ⟨slab.zones, slab.cNext, slab.pages.cells⟩

def setMemory (slab : Slab) (memory : SlabMemory) : Slab :=
  { slab with
    zones := memory.zones
    cNext := memory.cNext
    pages := { slab.pages with cells := memory.cells } }

end Slab

/-- Some bytes lie outside a block. -/
def Outside (block : Span) (address bytes : Nat) : Prop :=
  address + bytes ≤ block.start ∨ block.start + block.length ≤ address

/-- What has been written lies in a block. -/
structure SlabMemory.Writes (memory memory' : SlabMemory) (block : Span) : Prop where
  zones : ∀ z, Outside block z slabZoneSize → memory'.zones z = memory.zones z
  cNext : ∀ p, Outside block p 4 → memory'.cNext p = memory.cNext p
  cells : ∀ b, Outside block b 8 → memory'.cells b = memory.cells b

namespace SlabInv

variable {grid block : Span} {view : ZoneView} {large others live : List Span} {slab : Slab}
  {z p : Nat}

/-- The pages of a zone lie apart from those of a run. -/
theorem zone_clear (inv : SlabInv grid view large others slab live) {run : Span}
    (member : z ∈ view.zones) (there : run ∈ large ++ others) :
    Span.Clear pageSize (slab.zoneSpan z) run :=
  (List.pairwise_append.mp inv.pages.clear).2.2 _ (List.mem_map_of_mem member) run there

/-- The header of a zone lies in no block. -/
theorem header_outside (inv : SlabInv grid view large others slab live) (member : z ∈ view.zones)
    (owned : view.Owned (large ++ others) block) : Outside block z slabZoneSize := by
  have size := inv.geometry.pages
  rcases owned with ⟨z', zone, used, length⟩ | ⟨run, there, rfl⟩
  · obtain ⟨-, low, high⟩ := inv.cell zone (Or.inr used)
    rw [Outside, length]
    by_cases same : z = z'
    · exact Or.inl (same ▸ low)
    · have clear := inv.pages.apart
        (List.mem_append_left _ (List.mem_map_of_mem member))
        (List.mem_append_left _ (List.mem_map_of_mem (List.mem_append_left _ zone)))
        fun spans => same (congrArg Span.start spans)
      simp only [Span.Clear, Span.finish, Slab.zoneSpan, pageSize] at clear size high
      rw [slabZoneSize] at low ⊢
      omega
  · have clear := inv.zone_clear member there
    simp only [Span.Clear, Span.finish, Slab.zoneSpan, pageSize] at clear size
    simp only [Outside, pageBytes, slabZoneSize, pageSize]
    omega

/-- A chunk that is free lies in no block. -/
theorem free_outside (inv : SlabInv grid view large others slab live) (member : z ∈ view.inUse)
    (free : p ∈ view.free z) (owned : view.Owned (large ++ others) block) : Outside block p 4 := by
  obtain ⟨sound, width⟩ := inv.zones.sound z member
  have large_ := (sound.chunk inv.geometry).1
  obtain ⟨-, low, high⟩ := inv.cell member (Or.inl free)
  rw [← width] at high
  rcases owned with ⟨z', zone, used, length⟩ | ⟨run, there, rfl⟩
  · rw [Outside, length]
    by_cases same : z = z'
    · subst same
      have apart := sound.slots.apart (by omega) free used
      rw [← width]
      omega
    · obtain ⟨-, low', high'⟩ := inv.cell zone (Or.inr used)
      have clear := inv.pages.apart
        (List.mem_append_left _ (List.mem_map_of_mem (List.mem_append_left _ member)))
        (List.mem_append_left _ (List.mem_map_of_mem (List.mem_append_left _ zone)))
        fun spans => same (congrArg Span.start spans)
      simp only [Span.Clear, Span.finish, Slab.zoneSpan] at clear
      omega
  · have clear := inv.zone_clear (List.mem_append_left _ member) there
    simp only [Span.Clear, Span.finish, Slab.zoneSpan, pageSize] at clear high
    simp only [Outside, pageBytes, pageSize]
    omega

/-- A block lies in pages that belong to somebody. -/
theorem within_pages (inv : SlabInv grid view large others slab live)
    (owned : view.Owned (large ++ others) block) :
    ∃ run ∈ view.zones.map slab.zoneSpan ++ (large ++ others),
      run.start ≤ block.start ∧ block.start + block.length ≤ run.finish pageSize := by
  rcases owned with ⟨z, zone, used, length⟩ | ⟨run, there, rfl⟩
  · obtain ⟨-, low, high⟩ := inv.cell zone (Or.inr used)
    refine ⟨slab.zoneSpan z,
      List.mem_append_left _ (List.mem_map_of_mem (List.mem_append_left _ zone)), ?_, ?_⟩
    · exact Nat.le_trans (Nat.le_add_right z slabZoneSize) low
    · rw [length]
      exact high
  · refine ⟨run, List.mem_append_right _ there, Nat.le_refl _, ?_⟩
    simp only [pageBytes, Span.finish, Nat.mul_comm]
    exact Nat.le_refl _

/-- Writes to a block do not matter. -/
theorem write {memory : SlabMemory} (inv : SlabInv grid view large others slab live)
    (owned : view.Owned (large ++ others) block) (writes : slab.memory.Writes memory block) :
    SlabInv grid view large others (slab.setMemory memory) live := by
  obtain ⟨free, pages⟩ := inv.pages.pages
  obtain ⟨run, there, low, high⟩ := inv.within_pages owned
  have kept (other : Span) (member : other ∈ free) :
      memory.cells other.start = slab.pages.cells other.start := by
    apply writes.cells
    have clear := pages.clear there (pages.nonempty run there) (List.Subset.refl _) other member
    have some_ := pages.spaced.nonempty other member
    simp only [Span.Clear, Span.finish, pageSize] at clear high
    rw [Outside]
    omega
  refine ⟨inv.geometry.congr rfl rfl rfl, ⟨⟨free, ?_⟩, inv.pages.start, inv.pages.small,
    inv.pages.first⟩, ?_, inv.blocks, inv.used⟩
  · refine ⟨pages.threads.move rfl (fun other member => ?_) fun other member => ?_, pages.spaced,
      pages.nonempty, pages.cells, rfl, pages.nonnull, pages.aligned⟩
    · exact congrArg Cell.first (kept other member)
    · exact congrArg Cell.second (kept other member)
  · apply inv.zones.agree
    case headers => exact fun z member => writes.zones z (inv.header_outside member owned)
    case links => exact fun z member p free => writes.cNext p (inv.free_outside member free owned)
    all_goals rfl

end SlabInv

end RtThread
