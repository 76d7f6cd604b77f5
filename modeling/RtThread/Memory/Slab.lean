import RtThread.Memory.Page

/-!
# The slab allocator

`rt_malloc`, `rt_free` and `rt_realloc` of a thread that belongs to no module. A zone consists
of pages and holds chunks of one size; requests that are too large for a zone get pages of
their own.
-/

namespace RtThread

open RtThread.Std

/-- The next multiple, as long as it is below 2 ^ 32. -/
def alignUp (n align : Nat) : Nat := (n + align - 1) / align * align

/-- `ZALLOC_SLAB_MAGIC`. -/
def zallocSlabMagic : Int := 0x51ab51ab

/-- `ZALLOC_MIN_ZONE_SIZE`. -/
def zallocMinZoneSize : Nat := 32 * 1024

/-- `ZALLOC_MAX_ZONE_SIZE`. -/
def zallocMaxZoneSize : Nat := 128 * 1024

/-- `ZALLOC_ZONE_LIMIT`. -/
def zallocZoneLimit : Nat := 16 * 1024

/-- `NZONES`. -/
def nzones : Nat := 72

/-- `ZONE_RELEASE_THRESH`. -/
def zoneReleaseThresh : Int := 2

/-- `sizeof(slab_zone)`. -/
def slabZoneSize : Nat := 36

/-- `slab_zone`, the header of a zone. -/
structure SlabZone where
  magic : Int
  nfree : Nat
  nmax : Nat
  next : Nat
  baseptr : Nat
  uindex : Nat
  chunksize : Nat
  zoneindex : Nat
  freechunk : Nat
deriving DecidableEq, Repr

inductive PageType where
  | free
  | small
  | large
deriving DecidableEq, Repr

/-- `struct memusage`. For a small page, `size` is its number in the zone; for the first page of
a large block, it is the number of pages. -/
structure MemUsage where
  type : PageType
  size : Nat
deriving DecidableEq, Repr

/-- The variables of the allocator, with the headers and links in its memory. -/
structure Slab where
  pages : PageHeap
  heapStart : Nat
  zones : Nat → SlabZone
  /-- `c_next` of a chunk. -/
  cNext : Nat → Nat
  zoneArray : Nat → Nat
  zoneFree : Nat
  zoneFreeCnt : Int
  zoneSize : Nat
  zoneLimit : Nat
  zonePageCnt : Nat
  memusage : Nat → MemUsage
  usedMem : Nat
  maxMem : Nat

/-- The index of the zones for a size, and the size of their chunks. -/
def zoneindex (bytes : Nat) : Nat × Nat :=
  if bytes < 128 then (alignUp bytes 8 / 8 - 1, alignUp bytes 8)
  else if bytes < 256 then (alignUp bytes 16 / 16 + 7, alignUp bytes 16)
  else if bytes < 512 then (alignUp bytes 32 / 32 + 15, alignUp bytes 32)
  else if bytes < 1024 then (alignUp bytes 64 / 64 + 23, alignUp bytes 64)
  else if bytes < 2048 then (alignUp bytes 128 / 128 + 31, alignUp bytes 128)
  else if bytes < 4096 then (alignUp bytes 256 / 256 + 39, alignUp bytes 256)
  else if bytes < 8192 then (alignUp bytes 512 / 512 + 47, alignUp bytes 512)
  else if bytes < 16384 then (alignUp bytes 1024 / 1024 + 55, alignUp bytes 1024)
  else (0, bytes)

namespace Slab

/-- `btokup`, as an index into `memusage`. -/
def btokup (slab : Slab) (addr : Nat) : Nat := (addr - slab.heapStart) / pageSize

/-- The entry of the page of a pointer. -/
def kup (slab : Slab) (ptr : Nat) : MemUsage :=
  slab.memusage (slab.btokup (ptr / pageSize * pageSize))

/-- The zone of a chunk, from the table of the pages. -/
def zoneOf (slab : Slab) (ptr : Nat) : Nat :=
  ptr / pageSize * pageSize - (slab.kup ptr).size * pageSize

def setZone (slab : Slab) (z : Nat) (zone : SlabZone) : Slab :=
  { slab with zones := Function.update slab.zones z zone }

def setZoneArray (slab : Slab) (zi z : Nat) : Slab :=
  { slab with zoneArray := Function.update slab.zoneArray zi z }

/-- Describe the pages of a zone. -/
def setUsage (slab : Slab) (z : Nat) (kup : Nat → MemUsage) : Slab :=
  { slab with
    memusage := fun index =>
      if slab.btokup z ≤ index ∧ index < slab.btokup z + slab.zonePageCnt then
        kup (index - slab.btokup z)
      else slab.memusage index }

/-- `used_mem += size`. -/
def use (slab : Slab) (size : Nat) : Slab :=
  { slab with
    usedMem := slab.usedMem + size
    maxMem := max slab.maxMem (slab.usedMem + size) }

def lock (slab : Slab) : Option Slab :=
  slab.pages.lock.map fun pages => { slab with pages := pages }

def unlock (slab : Slab) : Slab := { slab with pages := slab.pages.unlock }

/-- The list of the zones of one index. -/
def zoneList (slab : Slab) (zi : Nat) : FreeList where
  head := slab.zoneArray zi
  next z := (slab.zones z).next
  size _ := slab.zonePageCnt

/-- Redirect a pointer in the list of the zones of one index. -/
def storeZone (slab : Slab) (zi target : Nat) : Option Nat → Slab
  | none => slab.setZoneArray zi target
  | some z => slab.setZone z { slab.zones z with next := target }

/-- `--z->z_nfree`, for the first zone of an index, which leaves the list when it becomes
empty. -/
def dropFree (slab : Slab) (zi : Nat) : Slab :=
  let z := slab.zoneArray zi
  let slab := slab.setZone z { slab.zones z with nfree := (slab.zones z).nfree - 1 }
  if (slab.zones z).nfree = 0 then
    let slab := slab.setZoneArray zi (slab.zones z).next
    slab.setZone z { slab.zones z with next := 0 }
  else slab

/-- Take a chunk of the first zone of an index. A failed assertion and a null pointer do not
return. -/
def takeChunk (slab : Slab) (zi size : Nat) : Option (Slab × Nat) :=
  let z := slab.zoneArray zi
  if 0 < (slab.zones z).nfree then
    let slab := slab.dropFree zi
    if (slab.zones z).uindex + 1 ≠ (slab.zones z).nmax then
      let slab := slab.setZone z { slab.zones z with uindex := (slab.zones z).uindex + 1 }
      let chunk := (slab.zones z).baseptr + (slab.zones z).uindex * size
      some (slab.use (slab.zones z).chunksize, chunk)
    else
      let chunk := (slab.zones z).freechunk
      if chunk = 0 then none
      else
        let slab := slab.setZone z { slab.zones z with freechunk := slab.cNext chunk }
        some (slab.use (slab.zones z).chunksize, chunk)
  else none

/-- Where the chunks of a zone begin: those whose size is a power of two are aligned to it. -/
def chunkOffset (size : Nat) : Nat :=
  if (size ||| (size - 1)) + 1 = size <<< 1 then alignUp slabZoneSize size
  else alignUp slabZoneSize 8

/-- Make a zone of an index, and take its first chunk. -/
def initZone (slab : Slab) (z zi size : Nat) : Slab × Nat :=
  let off := chunkOffset size
  let nmax := (slab.zoneSize - off) / size
  let slab := slab.setZone z {
    magic := zallocSlabMagic
    nfree := nmax - 1
    nmax := nmax
    next := slab.zoneArray zi
    baseptr := z + off
    uindex := 0
    chunksize := size
    zoneindex := zi
    freechunk := 0 }
  let slab := slab.setZoneArray zi z
  (slab.use size, z + off)

/-- Pages for a zone, of which the table says to which one they belong. -/
def allocZone (slab : Slab) : Option (Slab × Nat) := do
  let (pages, z) ← rtPageAlloc slab.pages (slab.zoneSize / pageSize)
  let slab := { slab with pages := pages }
  if z = 0 then pure (slab, 0)
  else
    let slab ← slab.lock
    pure (slab.setUsage z fun off => ⟨.small, off⟩, z)

/-- A zone that is free as a whole, or a new one. Without pages, the semaphore that has been
released before they are asked for is released again. -/
def newZone (slab : Slab) (zi size : Nat) : Option (Slab × Nat) :=
  if slab.zoneFree ≠ 0 then
    let z := slab.zoneFree
    let slab := { slab with
      zoneFree := (slab.zones z).next
      zoneFreeCnt := slab.zoneFreeCnt - 1 }
    let (slab, chunk) := slab.initZone z zi size
    some (slab.unlock, chunk)
  else do
    let (slab, z) ← slab.unlock.allocZone
    if z = 0 then pure (slab.unlock, 0)
    else
      let (slab, chunk) := slab.initZone z zi size
      pure (slab.unlock, chunk)

/-- Pages of their own for a large request. -/
def mallocLarge (slab : Slab) (size : Nat) : Option (Slab × Nat) := do
  let size := (size + (pageSize - 1)) % 2 ^ 32 / pageSize * pageSize
  let (pages, chunk) ← rtPageAlloc slab.pages (size / pageSize)
  let slab := { slab with pages := pages }
  if chunk = 0 then pure (slab, 0)
  else
    let slab := { slab with
      memusage := Function.update slab.memusage (slab.btokup chunk) ⟨.large, size / pageSize⟩ }
    let slab ← slab.lock
    pure ((slab.use size).unlock, chunk)

/-- A chunk for a request that is smaller than `zone_limit`. -/
def mallocSmall (slab : Slab) (size : Nat) : Option (Slab × Nat) := do
  let slab ← slab.lock
  let zi := (zoneindex size).1
  let size := (zoneindex size).2
  if zi < nzones then
    if slab.zoneArray zi ≠ 0 then
      let (slab, chunk) ← slab.takeChunk zi size
      pure (slab.unlock, chunk)
    else slab.newZone zi size
  else none

/-- `rt_malloc`. -/
def malloc (slab : Slab) (size : Nat) : Option (Slab × Nat) :=
  if size = 0 then some (slab, 0)
  else if slab.zoneLimit ≤ size then slab.mallocLarge size
  else slab.mallocSmall size

/-- A zone leaves the list of its index and becomes the first one of `zone_free`. -/
def parkZone (slab : Slab) (z : Nat) : Option Slab := do
  let zi := (slab.zones z).zoneindex
  let pz ← (slab.zoneList zi).seek (fun _ => true) (fun other => other = z) none
  if (slab.zoneList zi).load pz = z then
    let slab := slab.storeZone zi (slab.zones z).next pz
    let slab := slab.setZone z { slab.zones z with magic := -1, next := slab.zoneFree }
    pure { slab with zoneFree := z, zoneFreeCnt := slab.zoneFreeCnt + 1 }
  else none

/-- The pages of the first one of `zone_free` are given back. -/
def releaseZone (slab : Slab) : Option Slab := do
  let z := slab.zoneFree
  let slab := { slab with
    zoneFree := (slab.zones z).next
    zoneFreeCnt := slab.zoneFreeCnt - 1 }
  let slab := (slab.setUsage z fun _ => ⟨.free, 0⟩).unlock
  let pages ← rtPageFree slab.pages z (slab.zoneSize / pageSize)
  pure { slab with pages := pages }

/-- All chunks of the zone are free. When there are too many such zones, one is released. -/
def retireZone (slab : Slab) (z : Nat) : Option Slab := do
  let slab ← slab.parkZone z
  if zoneReleaseThresh < slab.zoneFreeCnt then slab.releaseZone else pure slab.unlock

/-- `z->z_nfree++`, for a zone which comes back onto the list of its index when it has been
empty. -/
def addFree (slab : Slab) (z : Nat) : Slab :=
  let zi := (slab.zones z).zoneindex
  let nfree := (slab.zones z).nfree
  let slab := slab.setZone z { slab.zones z with nfree := nfree + 1 }
  if nfree = 0 then
    let slab := slab.setZone z { slab.zones z with next := slab.zoneArray zi }
    slab.setZoneArray zi z
  else slab

/-- A chunk becomes the first one of the free chunks of its zone. -/
def putChunk (slab : Slab) (z ptr : Nat) : Slab :=
  let slab := { slab with cNext := Function.update slab.cNext ptr (slab.zones z).freechunk }
  let slab := slab.setZone z { slab.zones z with freechunk := ptr }
  { slab with usedMem := slab.usedMem - (slab.zones z).chunksize }

/-- Put a chunk back into its zone. -/
def freeChunk (slab : Slab) (ptr : Nat) : Option Slab := do
  let slab ← slab.lock
  let z := slab.zoneOf ptr
  if (slab.zones z).magic = zallocSlabMagic then
    let slab := (slab.putChunk z ptr).addFree z
    if (slab.zones z).nfree = (slab.zones z).nmax ∧
        ((slab.zones z).next ≠ 0 ∨ slab.zoneArray (slab.zones z).zoneindex ≠ z) then
      slab.retireZone z
    else pure slab.unlock
  else none

/-- Give back the pages of a large block. -/
def freeLarge (slab : Slab) (ptr : Nat) : Option Slab := do
  let index := slab.btokup (ptr / pageSize * pageSize)
  let slab ← slab.lock
  let size := (slab.memusage index).size
  let slab := { slab with
    memusage := Function.update slab.memusage index { slab.memusage index with size := 0 }
    usedMem := slab.usedMem - size * pageSize }
  let slab := slab.unlock
  let pages ← rtPageFree slab.pages ptr size
  pure { slab with pages := pages }

/-- `rt_free`. -/
def free (slab : Slab) (ptr : Nat) : Option Slab :=
  if ptr = 0 then some slab
  else if (slab.kup ptr).type = .large then slab.freeLarge ptr
  else slab.freeChunk ptr

/-- A new block takes the place of an old one. -/
def replace (slab : Slab) (ptr size : Nat) : Option (Slab × Nat) := do
  let (slab, nptr) ← slab.malloc size
  if nptr = 0 then pure (slab, 0)
  else
    let slab ← slab.free ptr
    pure (slab, nptr)

/-- `rt_realloc` of a block, to a size that is not 0. -/
def realloc (slab : Slab) (ptr size : Nat) : Option (Slab × Nat) :=
  match (slab.kup ptr).type with
  | .large => slab.replace ptr size
  | .small =>
      let zone := slab.zones (slab.zoneOf ptr)
      if zone.magic = zallocSlabMagic then
        let size := (zoneindex size).2
        if zone.chunksize = size then some (slab, ptr) else slab.replace ptr size
      else none
  | .free => some (slab, 0)

end Slab

/-- The loop that doubles `zone_size`; after two passes, it is `ZALLOC_MAX_ZONE_SIZE`. -/
def doubleZoneSize (limsize : Nat) : Nat → Nat → Nat
  | 0, zoneSize => zoneSize
  | passes + 1, zoneSize =>
      if zoneSize < zallocMaxZoneSize ∧ zoneSize * 2 < limsize / 1024 then
        doubleZoneSize limsize passes (zoneSize * 2)
      else zoneSize

/-- `rt_system_heap_init`. Nothing is allocated but `memusage`. -/
def Slab.rtSystemHeapInit (slab : Slab) (beginAddr endAddr : Nat) : Option Slab :=
  let heapStart := alignUp beginAddr pageSize
  let heapEnd := endAddr / pageSize * pageSize
  if heapEnd ≤ heapStart then some slab
  else do
    let limsize := heapEnd - heapStart
    let npages := limsize / pageSize
    let pages ← rtPageInit { slab.pages with heapSem := 1#16 } heapStart npages
    let zoneSize := doubleZoneSize limsize 2 zallocMinZoneSize
    let (pages, _) ← rtPageAlloc pages (alignUp (npages * 4) pageSize / pageSize)
    pure { slab with
      pages := pages
      heapStart := heapStart
      zoneSize := zoneSize
      zoneLimit := min (zoneSize / 4) zallocZoneLimit
      zonePageCnt := zoneSize / pageSize }

end RtThread
