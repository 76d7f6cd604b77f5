import RtThread.Std.Chains
import RtThread.Std.Slots
import RtThread.Memory.SlabSizes

/-!
# The zones of the slab allocator

What the header of a zone says about its chunks, and the lists that the zones are in. A zone that
is in use and has free chunks is in the list of its index, and a zone that is free as a whole may
be in `zone_free`.
-/

namespace RtThread

open RtThread.Std

/-! ## A zone -/

namespace SlabZone

/-- The chunk that is taken next: one that has never been used or, when all have been, the first
one on the list. -/
def nextChunk (zone : SlabZone) : Nat :=
  if zone.uindex + 1 ≠ zone.nmax then zone.baseptr + (zone.uindex + 1) * zone.chunksize
  else zone.freechunk

/-- The header when that chunk has been taken, which was linked to `link`. -/
def drop (zone : SlabZone) (link : Nat) : SlabZone :=
  { zone with
    nfree := zone.nfree - 1
    next := if zone.nfree - 1 = 0 then 0 else zone.next
    uindex := if zone.uindex + 1 ≠ zone.nmax then zone.uindex + 1 else zone.uindex
    freechunk := if zone.uindex + 1 ≠ zone.nmax then zone.freechunk else link }

/-- The header when a chunk has come back. The zone is in front of `next` when it had none. -/
def add (zone : SlabZone) (ptr next : Nat) : SlabZone :=
  { zone with
    freechunk := ptr
    nfree := zone.nfree + 1
    next := if zone.nfree = 0 then next else zone.next }

end SlabZone

/-- The header of a zone whose first chunk is used. -/
def Slab.zoneHeader (slab : Slab) (z zi size : Nat) : SlabZone where
  magic := zallocSlabMagic
  nfree := (slab.zoneSize - chunkOffset size) / size - 1
  nmax := (slab.zoneSize - chunkOffset size) / size
  next := slab.zoneArray zi
  baseptr := z + chunkOffset size
  uindex := 0
  chunksize := size
  zoneindex := zi
  freechunk := 0

/-- The header of a zone in use, whose chunks are on its list, `taken`, or have never been used. -/
structure ZoneSound (slab : Slab) (z : Nat) (zone : SlabZone) (free taken : List Nat) : Prop where
  magic : zone.magic = zallocSlabMagic
  kind : ∃ bytes, 0 < bytes ∧ bytes < slab.zoneLimit ∧ zone.zoneindex = (zoneindex bytes).1 ∧
    zone.chunksize = (zoneindex bytes).2
  baseptr : zone.baseptr = z + Slab.chunkOffset zone.chunksize
  nmax : zone.nmax = (slab.zoneSize - Slab.chunkOffset zone.chunksize) / zone.chunksize
  nfree : zone.nfree + (zone.uindex + 1) = zone.nmax + free.length
  chain : Chain slab.cNext 0 zone.freechunk free
  slots : Slots zone.chunksize ⟨zone.baseptr, zone.nmax⟩ (zone.uindex + 1) free taken

namespace ZoneSound

variable {slab slab' : Slab} {z p : Nat} {zone : SlabZone} {free taken : List Nat}

theorem chunk (sound : ZoneSound slab z zone free taken) (geometry : slab.Geometry) :
    8 ≤ zone.chunksize ∧ zone.chunksize = zoneChunk zone.zoneindex ∧ 2 ≤ zone.nmax := by
  obtain ⟨bytes, some_, small, index, size⟩ := sound.kind
  have small' := Nat.lt_of_lt_of_le small geometry.limit_le
  have room := geometry.room some_ small
  refine ⟨size ▸ (zoneindex_bounds some_ small').2.1, ?_, ?_⟩
  · rw [index, size]
    exact (zoneindex_chunk some_ small').1
  · rwa [sound.nmax, size]

/-- The chunks lie behind the header, in the zone. -/
theorem inside (sound : ZoneSound slab z zone free taken) (geometry : slab.Geometry)
    (member : p ∈ free ∨ p ∈ taken) :
    z + slabZoneSize ≤ p ∧ p + zone.chunksize ≤ z + slab.zoneSize := by
  obtain ⟨large, -, several⟩ := sound.chunk geometry
  obtain ⟨low, high⟩ := sound.slots.inside member
  have offset := @le_chunkOffset zone.chunksize (by omega)
  have fits := Nat.mul_div_le (slab.zoneSize - Slab.chunkOffset zone.chunksize) zone.chunksize
  rw [← sound.nmax] at fits
  have some_ : zone.chunksize ≤ zone.chunksize * zone.nmax := Nat.le_mul_of_pos_right _ (by omega)
  have base := sound.baseptr
  rw [Span.finish] at high
  dsimp only at low high
  omega

/-- Other zones and the link to the next zone can change. -/
theorem congr (sound : ZoneSound slab z zone free taken) (size : slab'.zoneSize = slab.zoneSize)
    (limit : slab'.zoneLimit = slab.zoneLimit)
    (links : ∀ p ∈ free, slab'.cNext p = slab.cNext p) (next : Nat) :
    ZoneSound slab' z { zone with next := next } free taken := by
  refine ⟨sound.magic, ?_, sound.baseptr, ?_, sound.nfree, sound.chain.congr links, sound.slots⟩
  · rw [limit]
    exact sound.kind
  · rw [size]
    exact sound.nmax

theorem move (sound : ZoneSound slab z zone free taken) (size : slab'.zoneSize = slab.zoneSize)
    (limit : slab'.zoneLimit = slab.zoneLimit) (links : slab'.cNext = slab.cNext) :
    ZoneSound slab' z zone free taken :=
  sound.congr size limit (fun p _ => congrFun links p) zone.next

/-- When all chunks have been used, one is on the list. -/
theorem free_eq (sound : ZoneSound slab z zone free taken) (some_ : 0 < zone.nfree)
    (last : zone.uindex + 1 = zone.nmax) :
    zone.freechunk ≠ 0 ∧ ∃ rest, free = zone.freechunk :: rest ∧
      Chain slab.cNext 0 (slab.cNext zone.freechunk) rest := by
  have nonnull : zone.freechunk ≠ 0 := by
    intro null
    have count := sound.nfree
    rw [sound.chain.head_eq_null_iff.mp null, List.length_nil] at count
    omega
  exact ⟨nonnull, sound.chain.exists_cons nonnull⟩

/-- A chunk is taken. -/
theorem drop (sound : ZoneSound slab z zone free taken) (some_ : 0 < zone.nfree) :
    ∃ free', ZoneSound slab z (zone.drop (slab.cNext zone.freechunk)) free'
      (zone.nextChunk :: taken) := by
  have count := sound.nfree
  by_cases last : zone.uindex + 1 = zone.nmax
  · obtain ⟨-, rest, split, chain⟩ := sound.free_eq some_ last
    have slots := sound.slots
    rw [split] at count slots
    rw [List.length_cons] at count
    refine ⟨rest, sound.magic, sound.kind, sound.baseptr, sound.nmax, ?_, ?_, ?_⟩
    · simp only [SlabZone.drop, last, ne_eq, not_true_eq_false, if_false]
      omega
    · simpa only [SlabZone.drop, last, ne_eq, not_true_eq_false, if_false] using chain
    · simpa only [SlabZone.drop, SlabZone.nextChunk, last, ne_eq, not_true_eq_false,
        if_false] using slots.reuse
  · have slots := sound.slots.grow (Nat.lt_of_le_of_ne sound.slots.used_le last)
    rw [Nat.mul_comm] at slots
    refine ⟨free, sound.magic, sound.kind, sound.baseptr, sound.nmax, ?_, ?_, ?_⟩
    · simp only [SlabZone.drop, last, ne_eq, not_false_eq_true, if_true]
      omega
    · simpa only [SlabZone.drop, last, ne_eq, not_false_eq_true, if_true] using sound.chain
    · simpa only [SlabZone.drop, SlabZone.nextChunk, last, ne_eq, not_false_eq_true,
        if_true] using slots

/-- The header of a zone that has just been made. -/
theorem start {bytes : Nat} (geometry : slab.Geometry) (some_ : 0 < bytes)
    (small : bytes < slab.zoneLimit) :
    ZoneSound slab z (slab.zoneHeader z (zoneindex bytes).1 (zoneindex bytes).2) []
      [z + Slab.chunkOffset (zoneindex bytes).2] := by
  have several := geometry.room some_ small
  refine ⟨rfl, ⟨bytes, some_, small, rfl, rfl⟩, rfl, rfl, ?_, rfl, Slots.start ?_⟩
  · simp only [Slab.zoneHeader, List.length_nil]
    omega
  · simp only [Slab.zoneHeader]
    omega

/-- A chunk comes back onto the list. -/
theorem add {next : Nat} (sound : ZoneSound slab z zone free taken) (geometry : slab.Geometry)
    (member : p ∈ taken) (size : slab'.zoneSize = slab.zoneSize)
    (limit : slab'.zoneLimit = slab.zoneLimit)
    (links : slab'.cNext = Function.update slab.cNext p zone.freechunk) :
    ZoneSound slab' z (zone.add p next) (p :: free) (taken.erase p) := by
  have nonnull : p ≠ 0 := by
    have low := (sound.inside geometry (Or.inr member)).1
    rw [slabZoneSize] at low
    omega
  have nodup := sound.slots.nodup (Nat.lt_of_lt_of_le (by decide) (sound.chunk geometry).1)
  have fresh : p ∉ free := fun there => (List.nodup_append.mp nodup).2.2 p there p member rfl
  have count := sound.nfree
  refine ⟨sound.magic, ?_, sound.baseptr, ?_, ?_, ?_, sound.slots.put member⟩
  · rw [limit]
    exact sound.kind
  · rw [size]
    exact sound.nmax
  · rw [List.length_cons, SlabZone.add]
    dsimp only
    omega
  · rw [links]
    exact sound.chain.push fresh nonnull

/-- When all chunks are free, none is taken. -/
theorem taken_eq_nil (sound : ZoneSound slab z zone free taken) (full : zone.nfree = zone.nmax) :
    taken = [] := by
  have count := sound.nfree
  exact sound.slots.taken_eq_nil (by omega)

end ZoneSound

/-! ## The zones -/

/-- The zones in use, the lists of zones (`none` is `zone_free`), and the chunks of each zone. -/
structure ZoneView where
  inUse : List Nat
  queue : Option Nat → List Nat
  size : Nat → Nat
  free : Nat → List Nat
  taken : Nat → List Nat

namespace ZoneView

/-- The zones that have pages. -/
def zones (view : ZoneView) : List Nat := view.inUse ++ view.queue none

/-- The chunks that are used. -/
def blocks (view : ZoneView) : List Span :=
  view.inUse.flatMap fun z => (view.taken z).map fun p => ⟨p, view.size z⟩

end ZoneView

namespace Slab

/-- The first zone of a list. -/
def queueHead (zoneFree : Nat) (zoneArray : Nat → Nat) : Option Nat → Nat
  | none => zoneFree
  | some zi => zoneArray zi

variable {slab slab' : Slab} {zi z : Nat} {zone : SlabZone}

theorem queueHead_array (zoneFree : Nat) (zoneArray : Nat → Nat) :
    queueHead zoneFree (Function.update zoneArray zi z) =
      Function.update (queueHead zoneFree zoneArray) (some zi) z := by
  ext i
  cases i with
  | none => rw [Function.update_of_ne (by simp), queueHead, queueHead]
  | some other =>
      rw [queueHead]
      by_cases same : other = zi
      · rw [same, Function.update_self, Function.update_self]
      · rw [Function.update_of_ne same, Function.update_of_ne (by simpa using same), queueHead]

theorem queueHead_free (zoneFree : Nat) (zoneArray : Nat → Nat) :
    queueHead z zoneArray = Function.update (queueHead zoneFree zoneArray) none z := by
  ext i
  cases i with
  | none => rw [Function.update_self, queueHead]
  | some other => rw [Function.update_of_ne (by simp), queueHead, queueHead]

/-! ## What the functions write -/

theorem takeChunk_eq (first : slab.zoneArray zi = z) (header : slab.zones z = zone)
    (some_ : 0 < zone.nfree) (linked : zone.uindex + 1 = zone.nmax → zone.freechunk ≠ 0) :
    slab.takeChunk zi zone.chunksize =
      some ({ slab.use zone.chunksize with
        zones := Function.update slab.zones z (zone.drop (slab.cNext zone.freechunk))
        zoneArray := if zone.nfree - 1 = 0 then Function.update slab.zoneArray zi zone.next
          else slab.zoneArray }, zone.nextChunk) := by
  have dropped : slab.dropFree zi = { slab with
      zones := Function.update slab.zones z { zone with
        nfree := zone.nfree - 1
        next := if zone.nfree - 1 = 0 then 0 else zone.next }
      zoneArray := if zone.nfree - 1 = 0 then Function.update slab.zoneArray zi zone.next
        else slab.zoneArray } := by
    rw [dropFree, first]
    simp only [setZone, setZoneArray, Function.update_self, Function.update_idem, header]
    split <;> rfl
  rw [takeChunk, first, header]
  dsimp only
  rw [if_pos some_, dropped]
  simp only [setZone, Function.update_self, Function.update_idem]
  by_cases last : zone.uindex + 1 = zone.nmax
  · rw [if_neg (not_not.mpr last), if_neg (linked last)]
    simp only [SlabZone.drop, SlabZone.nextChunk, last, ne_eq, not_true_eq_false, if_false]
    rfl
  · rw [if_pos last]
    simp only [SlabZone.drop, SlabZone.nextChunk, last, ne_eq, not_false_eq_true, if_true]
    rfl

theorem initZone_eq (slab : Slab) (z zi size : Nat) :
    slab.initZone z zi size = ({ slab.use size with
      zones := Function.update slab.zones z (slab.zoneHeader z zi size)
      zoneArray := Function.update slab.zoneArray zi z }, z + chunkOffset size) :=
  rfl

theorem addFree_putChunk (header : slab.zones z = zone) (ptr : Nat) :
    (slab.putChunk z ptr).addFree z = { slab with
      zones := Function.update slab.zones z (zone.add ptr (slab.zoneArray zone.zoneindex))
      zoneArray := if zone.nfree = 0 then Function.update slab.zoneArray zone.zoneindex z
        else slab.zoneArray
      cNext := Function.update slab.cNext ptr zone.freechunk
      usedMem := slab.usedMem - zone.chunksize } := by
  rw [addFree, putChunk]
  simp only [setZone, setZoneArray, Function.update_self, Function.update_idem, header,
    SlabZone.add]
  split <;> rfl

end Slab

/-- The headers and lists of the zones. -/
structure SlabZones (slab : Slab) (view : ZoneView) : Prop where
  sound : ∀ z ∈ view.inUse, ZoneSound slab z (slab.zones z) (view.free z) (view.taken z) ∧
    (slab.zones z).chunksize = view.size z
  lists : Chains (SlabZone.next ∘ slab.zones) 0 (Slab.queueHead slab.zoneFree slab.zoneArray)
    view.queue
  row : ∀ zi z, z ∈ view.queue (some zi) ↔
    z ∈ view.inUse ∧ (slab.zones z).zoneindex = zi ∧ 0 < (slab.zones z).nfree
  parked : ∀ z ∈ view.queue none, z ∉ view.inUse ∧ (slab.zones z).magic = -1
  count : slab.zoneFreeCnt = (view.queue none).length
  nodup : view.inUse.Nodup

theorem mem_update_queue {queue : Option Nat → List Nat} {i : Option Nat} {list : List Nat}
    {z : Nat} (same : z ∈ list ↔ z ∈ queue i) (j : Option Nat) :
    z ∈ Function.update queue i list j ↔ z ∈ queue j := by
  by_cases here : j = i
  · rw [here, Function.update_self]
    exact same
  · rw [Function.update_of_ne here]

namespace SlabZones

variable {slab slab' : Slab} {view view' : ZoneView} {zi z p : Nat}

/-- Only one zone changes, but for the links between the zones. -/
theorem change (ok : SlabZones slab view) (z : Nat)
    (headers : ∀ other, other ≠ z → ∃ next,
      slab'.zones other = { slab.zones other with next := next })
    (size : slab'.zoneSize = slab.zoneSize) (limit : slab'.zoneLimit = slab.zoneLimit)
    (links : ∀ other ∈ view.inUse, other ≠ z → ∀ p ∈ view.free other,
      slab'.cNext p = slab.cNext p)
    (chunks : ∀ other, other ≠ z → view'.size other = view.size other ∧
      view'.free other = view.free other ∧ view'.taken other = view.taken other)
    (members : ∀ other, other ≠ z → (other ∈ view'.inUse ↔ other ∈ view.inUse))
    (queues : ∀ other, other ≠ z → ∀ i, other ∈ view'.queue i ↔ other ∈ view.queue i)
    (lists : Chains (SlabZone.next ∘ slab'.zones) 0
      (Slab.queueHead slab'.zoneFree slab'.zoneArray) view'.queue)
    (sound : z ∈ view'.inUse → ZoneSound slab' z (slab'.zones z) (view'.free z) (view'.taken z) ∧
      (slab'.zones z).chunksize = view'.size z)
    (row : ∀ zi, z ∈ view'.queue (some zi) ↔
      z ∈ view'.inUse ∧ (slab'.zones z).zoneindex = zi ∧ 0 < (slab'.zones z).nfree)
    (parked : z ∈ view'.queue none → z ∉ view'.inUse ∧ (slab'.zones z).magic = -1)
    (count : slab'.zoneFreeCnt = (view'.queue none).length) (nodup : view'.inUse.Nodup) :
    SlabZones slab' view' := by
  refine ⟨fun other member => ?_, lists, fun zi other => ?_, fun other member => ?_, count, nodup⟩
  · by_cases same : other = z
    · rw [same] at member ⊢
      exact sound member
    · have old := (members other same).mp member
      obtain ⟨next, header⟩ := headers other same
      obtain ⟨kept, free, taken⟩ := chunks other same
      obtain ⟨before, width⟩ := ok.sound other old
      rw [header, kept, free, taken]
      exact ⟨before.congr size limit (links other old same) next, width⟩
  · by_cases same : other = z
    · rw [same]
      exact row zi
    · obtain ⟨next, header⟩ := headers other same
      rw [queues other same, members other same, header]
      exact ok.row zi other
  · by_cases same : other = z
    · rw [same] at member ⊢
      exact parked member
    · obtain ⟨next, header⟩ := headers other same
      rw [members other same, header]
      exact ok.parked other ((queues other same none).mp member)

/-- Nothing matters but the headers of the zones that have pages, the links of the free chunks, and
the variables of the lists. -/
theorem agree (ok : SlabZones slab view) (headers : ∀ z ∈ view.zones, slab'.zones z = slab.zones z)
    (links : ∀ z ∈ view.inUse, ∀ p ∈ view.free z, slab'.cNext p = slab.cNext p)
    (array : slab'.zoneArray = slab.zoneArray) (free : slab'.zoneFree = slab.zoneFree)
    (count : slab'.zoneFreeCnt = slab.zoneFreeCnt) (size : slab'.zoneSize = slab.zoneSize)
    (limit : slab'.zoneLimit = slab.zoneLimit) : SlabZones slab' view := by
  have used (z : Nat) (member : z ∈ view.inUse) : slab'.zones z = slab.zones z :=
    headers z (List.mem_append_left _ member)
  have parked (z : Nat) (member : z ∈ view.queue none) : slab'.zones z = slab.zones z :=
    headers z (List.mem_append_right _ member)
  refine ⟨fun z member => ?_, ⟨fun i => ?_, ok.lists.nodup, ok.lists.apart⟩, fun zi z => ?_,
    fun z member => ?_, count.trans ok.count, ok.nodup⟩
  · obtain ⟨sound, width⟩ := ok.sound z member
    rw [used z member]
    exact ⟨sound.congr size limit (links z member) _, width⟩
  · rw [free, array]
    apply (ok.lists.chain i).congr
    intro z member
    apply congrArg SlabZone.next
    cases i with
    | none => exact parked z member
    | some zi => exact used z ((ok.row zi z).mp member).1
  · rw [ok.row zi z]
    apply and_congr_right
    intro member
    rw [used z member]
  · rw [parked z member]
    exact ok.parked z member

/-- The zones do not depend on the pages and the counters. -/
theorem congr (ok : SlabZones slab view) (zones : slab'.zones = slab.zones)
    (links : slab'.cNext = slab.cNext) (array : slab'.zoneArray = slab.zoneArray)
    (free : slab'.zoneFree = slab.zoneFree) (count : slab'.zoneFreeCnt = slab.zoneFreeCnt)
    (size : slab'.zoneSize = slab.zoneSize) (limit : slab'.zoneLimit = slab.zoneLimit) :
    SlabZones slab' view :=
  ok.agree (fun z _ => congrFun zones z) (fun _ _ p _ => congrFun links p) array free count size
    limit

/-- The headers of the other zones, when one is written. -/
theorem headers_update {zone : SlabZone} (slab : Slab) (z other : Nat) (apart : other ≠ z) :
    ∃ next, Function.update slab.zones z zone other = { slab.zones other with next := next } :=
  ⟨(slab.zones other).next, Function.update_of_ne apart _ _⟩

/-- The first zone of an index. -/
theorem front (ok : SlabZones slab view) (some_ : slab.zoneArray zi ≠ 0) :
    ∃ rest, view.queue (some zi) = slab.zoneArray zi :: rest ∧ slab.zoneArray zi ∈ view.inUse ∧
      (slab.zones (slab.zoneArray zi)).zoneindex = zi ∧
      0 < (slab.zones (slab.zoneArray zi)).nfree := by
  obtain ⟨rest, front, -⟩ := (ok.lists.chain (some zi)).exists_cons some_
  have first : slab.zoneArray zi ∈ view.queue (some zi) := front ▸ List.mem_cons_self
  exact ⟨rest, front, (ok.row zi _).mp first⟩

/-- A chunk of the first zone of an index is taken. -/
theorem takeChunk {result : Slab × Nat} (ok : SlabZones slab view) (geometry : slab.Geometry)
    (some_ : slab.zoneArray zi ≠ 0) (step : slab.takeChunk zi (zoneChunk zi) = some result) :
    ∃ zones zoneArray queue free,
      result.1 = { slab.use (zoneChunk zi) with zones := zones, zoneArray := zoneArray } ∧
      SlabZones result.1 { view with
        queue := queue
        free := free
        taken := Function.update view.taken (slab.zoneArray zi)
          (result.2 :: view.taken (slab.zoneArray zi)) } ∧
      queue none = view.queue none ∧ slab.zoneArray zi ∈ view.inUse ∧
      view.size (slab.zoneArray zi) = zoneChunk zi := by
  obtain ⟨rest, front, member, index, positive⟩ := ok.front some_
  obtain ⟨z, first⟩ : ∃ z, slab.zoneArray zi = z := ⟨_, rfl⟩
  obtain ⟨zone, header⟩ : ∃ zone, slab.zones z = zone := ⟨_, rfl⟩
  rw [first] at front member index positive ⊢
  obtain ⟨sound, width⟩ := ok.sound z member
  rw [header] at index positive sound width
  have chunk : zone.chunksize = zoneChunk zi := index ▸ (sound.chunk geometry).2.1
  rw [← chunk] at step ⊢
  rw [Slab.takeChunk_eq first header positive fun last => (sound.free_eq positive last).1] at step
  obtain rfl := Option.some_inj.mp step
  obtain ⟨free', sound'⟩ := sound.drop positive
  have there : z ∈ view.queue (some zi) := front ▸ List.mem_cons_self
  have left (j : Option Nat) : z ∉ Function.update view.queue (some zi) rest j := by
    have erased := ok.lists.notMem_erase there j
    rwa [front, List.erase_cons_head] at erased
  -- The zone leaves the list with its last chunk.
  have lists : Chains (Function.update (SlabZone.next ∘ slab.zones) z
        (if zone.nfree - 1 = 0 then 0 else zone.next)) 0
      (Slab.queueHead slab.zoneFree (if zone.nfree - 1 = 0
        then Function.update slab.zoneArray zi zone.next else slab.zoneArray))
      (if zone.nfree - 1 = 0 then Function.update view.queue (some zi) rest else view.queue) := by
    have link : zone.next = (SlabZone.next ∘ slab.zones) z := congrArg SlabZone.next header.symm
    by_cases last : zone.nfree - 1 = 0
    · have popped := (ok.lists.pop front).update left 0
      rw [← link] at popped
      rw [if_pos last, if_pos last, if_pos last, Slab.queueHead_array]
      exact popped
    · rw [if_neg last, if_neg last, if_neg last, link, Function.update_eq_self]
      exact ok.lists
  refine ⟨_, _, if zone.nfree - 1 = 0 then Function.update view.queue (some zi) rest
    else view.queue, Function.update view.free z free', rfl, ?_, ?_, member, width.symm⟩
  · apply ok.change z
    case headers => exact headers_update slab z
    case size => rfl
    case limit => rfl
    case links => exact fun _ _ _ _ _ => rfl
    case chunks =>
      intro other apart
      exact ⟨rfl, Function.update_of_ne apart _ _, Function.update_of_ne apart _ _⟩
    case members => exact fun _ _ => Iff.rfl
    case queues =>
      intro other apart i
      dsimp only
      split
      · apply mem_update_queue
        rw [front, List.mem_cons, or_iff_right apart]
      · rfl
    case lists =>
      rw [Function.comp_update]
      exact lists
    case sound =>
      intro _
      dsimp only
      rw [Function.update_self, Function.update_self, Function.update_self]
      exact ⟨sound'.move rfl rfl rfl, width⟩
    case row =>
      intro zi'
      dsimp only
      rw [Function.update_self]
      by_cases last : zone.nfree - 1 = 0
      · rw [if_pos last]
        refine iff_of_false (left _) fun stays => ?_
        have none_ := stays.2.2
        rw [SlabZone.drop] at none_
        dsimp only at none_
        omega
      · rw [if_neg last, ok.row zi' z, header]
        have more : 0 < zone.nfree ↔ 0 < zone.nfree - 1 := by omega
        exact and_congr_right fun _ => and_congr_right fun _ => more
    case parked =>
      intro there
      dsimp only at there
      split at there
      · exact absurd there (left none)
      · exact absurd member (ok.parked z there).1
    case count =>
      dsimp only
      split
      · rw [Function.update_of_ne (by simp)]
        exact ok.count
      · exact ok.count
    case nodup => exact ok.nodup
  · split
    · exact Function.update_of_ne (by simp) _ _
    · rfl

/-- A zone of which no chunk is used is made one of an index. -/
theorem initZone {bytes : Nat} (ok : SlabZones slab view) (geometry : slab.Geometry)
    (some_ : 0 < bytes) (small : bytes < slab.zoneLimit) (nonnull : z ≠ 0)
    (fresh : z ∉ view.inUse) (outside : ∀ i, z ∉ view.queue i) :
    SlabZones (slab.initZone z (zoneindex bytes).1 (zoneindex bytes).2).1
      { inUse := z :: view.inUse
        queue := Function.update view.queue (some (zoneindex bytes).1)
          (z :: view.queue (some (zoneindex bytes).1))
        size := Function.update view.size z (zoneindex bytes).2
        free := Function.update view.free z []
        taken := Function.update view.taken z [z + Slab.chunkOffset (zoneindex bytes).2] } := by
  rw [Slab.initZone_eq]
  apply ok.change z
  case headers => exact headers_update slab z
  case size => rfl
  case limit => rfl
  case links => exact fun _ _ _ _ _ => rfl
  case chunks =>
    intro other apart
    exact ⟨Function.update_of_ne apart _ _, Function.update_of_ne apart _ _,
      Function.update_of_ne apart _ _⟩
  case members =>
    intro other apart
    rw [List.mem_cons, or_iff_right apart]
  case queues =>
    intro other apart
    apply mem_update_queue
    rw [List.mem_cons, or_iff_right apart]
  case lists =>
    dsimp only
    rw [Function.comp_update, Slab.queueHead_array]
    exact ok.lists.push outside nonnull (some (zoneindex bytes).1)
  case sound =>
    intro _
    dsimp only
    rw [Function.update_self, Function.update_self, Function.update_self, Function.update_self]
    exact ⟨(ZoneSound.start geometry some_ small).move rfl rfl rfl, rfl⟩
  case row =>
    intro zi
    dsimp only
    rw [Function.update_self]
    have several := geometry.room some_ small
    have more : 0 < (slab.zoneSize - Slab.chunkOffset (zoneindex bytes).2) /
        (zoneindex bytes).2 - 1 := by omega
    by_cases same : zi = (zoneindex bytes).1
    · rw [same, Function.update_self]
      exact iff_of_true List.mem_cons_self ⟨List.mem_cons_self, rfl, more⟩
    · rw [Function.update_of_ne (by simpa using same)]
      exact iff_of_false (outside _) fun stays => same stays.2.1.symm
  case parked =>
    intro there
    dsimp only at there
    rw [Function.update_of_ne (by simp)] at there
    exact absurd there (outside none)
  case count =>
    dsimp only
    rw [Function.update_of_ne (by simp)]
    exact ok.count
  case nodup => exact List.nodup_cons.mpr ⟨fresh, ok.nodup⟩

/-- A chunk comes back into its zone. -/
theorem addFree (ok : SlabZones slab view) (geometry : slab.Geometry) (member : z ∈ view.inUse)
    (nonnull : z ≠ 0) (used : p ∈ view.taken z)
    (elsewhere : ∀ other ∈ view.inUse, other ≠ z → p ∉ view.free other) :
    ∃ zones zoneArray cNext queue,
      (slab.putChunk z p).addFree z = { slab with
        zones := zones
        zoneArray := zoneArray
        cNext := cNext
        usedMem := slab.usedMem - view.size z } ∧
      SlabZones ((slab.putChunk z p).addFree z) { view with
        queue := queue
        free := Function.update view.free z (p :: view.free z)
        taken := Function.update view.taken z ((view.taken z).erase p) } ∧
      queue none = view.queue none := by
  obtain ⟨sound, width⟩ := ok.sound z member
  obtain ⟨zone, header⟩ : ∃ zone, slab.zones z = zone := ⟨_, rfl⟩
  rw [header] at sound width
  rw [Slab.addFree_putChunk header, width]
  have outside (none_ : zone.nfree = 0) (j : Option Nat) : z ∉ view.queue j := by
    intro there
    cases j with
    | none => exact (ok.parked z there).1 member
    | some zi =>
        have positive := ((ok.row zi z).mp there).2.2
        rw [header] at positive
        omega
  refine ⟨_, _, _, if zone.nfree = 0 then Function.update view.queue (some zone.zoneindex)
    (z :: view.queue (some zone.zoneindex)) else view.queue, rfl, ?_, ?_⟩
  · apply ok.change z
    case headers => exact headers_update slab z
    case size => rfl
    case limit => rfl
    case links =>
      intro other there apart q member
      apply Function.update_of_ne
      rintro rfl
      exact elsewhere other there apart member
    case chunks =>
      intro other apart
      exact ⟨rfl, Function.update_of_ne apart _ _, Function.update_of_ne apart _ _⟩
    case members => exact fun _ _ => Iff.rfl
    case queues =>
      intro other apart i
      dsimp only
      split
      · apply mem_update_queue
        rw [List.mem_cons, or_iff_right apart]
      · rfl
    case lists =>
      rw [Function.comp_update]
      change Chains (Function.update (SlabZone.next ∘ slab.zones) z
          (if zone.nfree = 0 then slab.zoneArray zone.zoneindex else zone.next)) 0
        (Slab.queueHead slab.zoneFree (if zone.nfree = 0
          then Function.update slab.zoneArray zone.zoneindex z else slab.zoneArray)) _
      by_cases none_ : zone.nfree = 0
      · rw [if_pos none_, if_pos none_, if_pos none_, Slab.queueHead_array]
        exact ok.lists.push (outside none_) nonnull (some zone.zoneindex)
      · have link : zone.next = (SlabZone.next ∘ slab.zones) z := congrArg SlabZone.next header.symm
        rw [if_neg none_, if_neg none_, if_neg none_, link, Function.update_eq_self]
        exact ok.lists
    case sound =>
      intro _
      dsimp only
      rw [Function.update_self, Function.update_self, Function.update_self]
      exact ⟨sound.add geometry used rfl rfl rfl, width⟩
    case row =>
      intro zi
      dsimp only
      rw [Function.update_self]
      have positive : 0 < (zone.add p (slab.zoneArray zone.zoneindex)).nfree := Nat.succ_pos _
      by_cases none_ : zone.nfree = 0
      · rw [if_pos none_]
        by_cases same : zi = zone.zoneindex
        · rw [same, Function.update_self]
          exact iff_of_true List.mem_cons_self ⟨member, rfl, positive⟩
        · rw [Function.update_of_ne (by simpa using same)]
          exact iff_of_false (outside none_ _) fun stays => same stays.2.1.symm
      · rw [if_neg none_, ok.row zi z, header]
        have before : 0 < zone.nfree := Nat.pos_of_ne_zero none_
        exact and_congr_right fun _ => and_congr_right fun _ => iff_of_true before positive
    case parked =>
      intro there
      dsimp only at there
      split at there
      · rw [Function.update_of_ne (by simp)] at there
        exact absurd member (ok.parked z there).1
      · exact absurd member (ok.parked z there).1
    case count =>
      dsimp only
      split
      · rw [Function.update_of_ne (by simp)]
        exact ok.count
      · exact ok.count
    case nodup => exact ok.nodup
  · split
    · exact Function.update_of_ne (by simp) _ _
    · rfl

/-- The loop that looks for the pointer to a zone finds it, and the zone leaves its list. -/
theorem unlinkZone (ok : SlabZones slab view) (there : z ∈ view.queue (some zi)) :
    ∃ pz zones zoneArray,
      (slab.zoneList zi).seek (fun _ => true) (fun other => other = z) none = some pz ∧
      slab.storeZone zi (slab.zones z).next pz =
        { slab with zones := zones, zoneArray := zoneArray } ∧
      zones z = slab.zones z ∧
      (∀ other, ∃ next, zones other = { slab.zones other with next := next }) ∧
      Chains (SlabZone.next ∘ zones) 0 (Slab.queueHead slab.zoneFree zoneArray)
        (Function.update view.queue (some zi) ((view.queue (some zi)).erase z)) := by
  obtain ⟨left, right, split⟩ := List.append_of_mem there
  have nodup := ok.lists.nodup (some zi)
  have chain := ok.lists.chain (some zi)
  rw [split] at nodup chain
  have fresh : z ∉ left := fun here =>
    (List.nodup_append.mp nodup).2.2 z here z List.mem_cons_self rfl
  have erased : (view.queue (some zi)).erase z = left ++ right := by
    rw [split, List.erase_append_right _ fresh, List.erase_cons_head]
  have found := @FreeList.seek_chain (slab.zoneList zi) none _ _ _ chain fresh
  rw [Option.or_none] at found
  rw [erased]
  rcases List.eq_nil_or_concat' left with rfl | ⟨before, prev, rfl⟩
  · refine ⟨none, slab.zones, Function.update slab.zoneArray zi (slab.zones z).next, found, rfl,
      rfl, fun other => ⟨_, rfl⟩, ?_⟩
    rw [Slab.queueHead_array]
    exact ok.lists.pop split
  · have apart : z ≠ prev := by
      rintro rfl
      simp at fresh
    rw [List.append_assoc, List.singleton_append] at split
    rw [List.getLast?_concat] at found
    refine ⟨some prev, _, slab.zoneArray, found, rfl, Function.update_of_ne apart _ _,
      fun other => ?_, ?_⟩
    · by_cases same : other = prev
      · rw [same, Function.update_self]
        exact ⟨_, rfl⟩
      · rw [Function.update_of_ne same]
        exact ⟨_, rfl⟩
    · rw [Function.comp_update, List.append_assoc, List.singleton_append]
      exact ok.lists.unlink split

/-- A zone whose chunks are all free is put into `zone_free`. -/
theorem parkZone (ok : SlabZones slab view) (member : z ∈ view.inUse)
    (positive : 0 < (slab.zones z).nfree) (step : slab.parkZone z = some slab') :
    ∃ zones zoneArray queue,
      slab' = { slab with
        zones := zones
        zoneArray := zoneArray
        zoneFree := z
        zoneFreeCnt := slab.zoneFreeCnt + 1 } ∧
      SlabZones slab' { view with inUse := view.inUse.erase z, queue := queue } ∧
      queue none = z :: view.queue none := by
  obtain ⟨zi, index⟩ : ∃ zi, (slab.zones z).zoneindex = zi := ⟨_, rfl⟩
  have there : z ∈ view.queue (some zi) := (ok.row zi z).mpr ⟨member, index, positive⟩
  obtain ⟨pz, zones, zoneArray, found, stored, kept, headers, lists⟩ := ok.unlinkZone there
  rw [Slab.parkZone, index] at step
  dsimp only at step
  rw [found] at step
  obtain ⟨-, made⟩ := Option.ite_none_right_eq_some.mp step
  rw [stored] at made
  obtain rfl := Option.some_inj.mp made
  have outside := ok.lists.notMem_erase there
  have nonnull : z ≠ 0 := by
    rintro rfl
    exact (ok.lists.chain (some zi)).null_notMem there
  refine ⟨_, _, Function.update (Function.update view.queue (some zi)
    ((view.queue (some zi)).erase z)) none (z :: view.queue none), rfl, ?_, Function.update_self ..⟩
  apply ok.change z
  case headers =>
    intro other apart
    obtain ⟨next, same⟩ := headers other
    exact ⟨next, (Function.update_of_ne apart _ _).trans same⟩
  case size => rfl
  case limit => rfl
  case links => exact fun _ _ _ _ _ => rfl
  case chunks => exact fun _ _ => ⟨rfl, rfl, rfl⟩
  case members => exact fun other apart => List.mem_erase_of_ne apart
  case queues =>
    intro other apart i
    dsimp only
    rw [mem_update_queue ?_ i]
    · apply mem_update_queue
      exact List.mem_erase_of_ne apart
    · rw [Function.update_of_ne (by simp), List.mem_cons, or_iff_right apart]
  case lists =>
    have pushed := lists.push outside nonnull none
    rw [Function.update_of_ne (by simp : none ≠ some zi)] at pushed
    change Chains (SlabZone.next ∘ Function.update zones z _) 0 _ _
    rw [Function.comp_update, Slab.queueHead_free slab.zoneFree]
    exact pushed
  case sound => exact fun still => absurd still ok.nodup.not_mem_erase
  case row =>
    intro other
    refine iff_of_false ?_ fun stays => absurd stays.1 ok.nodup.not_mem_erase
    dsimp only
    rw [Function.update_of_ne (by simp)]
    exact outside _
  case parked =>
    intro _
    refine ⟨ok.nodup.not_mem_erase, ?_⟩
    change (Function.update zones z _ z).magic = -1
    rw [Function.update_self]
  case count =>
    dsimp only
    rw [Function.update_self, List.length_cons, ok.count]
    rfl
  case nodup => exact ok.nodup.erase z

/-- The first zone leaves `zone_free`. -/
theorem unpark (ok : SlabZones slab view) (some_ : slab.zoneFree ≠ 0) :
    ∃ rest, view.queue none = slab.zoneFree :: rest ∧
      SlabZones { slab with
        zoneFree := (slab.zones slab.zoneFree).next
        zoneFreeCnt := slab.zoneFreeCnt - 1 }
        { view with queue := Function.update view.queue none rest } ∧
      ∀ j, slab.zoneFree ∉ Function.update view.queue none rest j := by
  obtain ⟨rest, front, -⟩ := (ok.lists.chain none).exists_cons some_
  have front : view.queue none = slab.zoneFree :: rest := front
  have here : slab.zoneFree ∈ view.queue none := front ▸ List.mem_cons_self
  have outside (j : Option Nat) : slab.zoneFree ∉ Function.update view.queue none rest j := by
    have erased := ok.lists.notMem_erase here j
    rwa [front, List.erase_cons_head] at erased
  refine ⟨rest, front, ?_, outside⟩
  apply ok.change slab.zoneFree
  case headers => exact fun other _ => ⟨_, rfl⟩
  case size => rfl
  case limit => rfl
  case links => exact fun _ _ _ _ _ => rfl
  case chunks => exact fun _ _ => ⟨rfl, rfl, rfl⟩
  case members => exact fun _ _ => Iff.rfl
  case queues =>
    intro other apart
    apply mem_update_queue
    rw [front, List.mem_cons, or_iff_right apart]
  case lists =>
    rw [Slab.queueHead_free slab.zoneFree]
    exact ok.lists.pop front
  case sound => exact fun still => absurd still (ok.parked _ here).1
  case row =>
    intro zi
    exact iff_of_false (outside (some zi)) fun stays => (ok.parked _ here).1 stays.1
  case parked => exact fun there => absurd there (outside none)
  case count =>
    have count := ok.count
    rw [front, List.length_cons] at count
    dsimp only
    rw [Function.update_self, count]
    omega
  case nodup => exact ok.nodup

end SlabZones

end RtThread
