import RtThread.Memory.PageRuns
import RtThread.Memory.Slab
import RtThread.Memory.ModuleHeap

/-!
# The locks of the allocators

`heap_sem` protects the pages and the slab zones, `mod_sem` the memory of the modules. A call
leaves both as it has found them, unless it needs pages that there are not.
-/

namespace RtThread

open RtThread.Std

/-- There is a run of so many pages. -/
def PageHeap.Offers (heap : PageHeap) (npages : Nat) : Prop :=
  npages ≠ 0 ∧ heap.list.Meets fun b => npages ≤ heap.page b

theorem rtPageAlloc_ne_zero {heap : PageHeap} {npages : Nat} {result : PageHeap × Nat}
    (step : rtPageAlloc heap npages = some result) :
    result.2 ≠ 0 ↔ heap.Offers npages := by
  rw [rtPageAlloc] at step
  split at step
  · obtain rfl := Option.some_inj.mp step
    exact iff_of_false (fun some_ => some_ rfl) fun offers => offers.1 ‹_›
  · rename_i some_
    obtain ⟨locked, taken, step⟩ := Option.bind_eq_some_iff.mp step
    obtain ⟨prev, found, made⟩ := Option.bind_eq_some_iff.mp step
    obtain rfl := Option.some_inj.mp made
    rw [← PageHeap.unlock_lock taken]
    refine (FreeList.seek_meets found).trans ?_
    simp only [decide_eq_true_eq]
    exact (and_iff_right some_).symm

/-! ## The memory of a module -/

/-- Taking a semaphore and releasing it changes nothing. -/
theorem semRelease_semTake {value taken : BitVec 16} (takes : semTake value = some taken) :
    semRelease taken = value := by
  obtain ⟨-, takes⟩ := Option.ite_none_right_eq_some.mp takes
  obtain rfl := Option.some_inj.mp takes
  exact BitVec.sub_add_cancel value 1#16

theorem semTake_ne {value taken : BitVec 16} (takes : semTake value = some taken) :
    taken ≠ value := by
  obtain ⟨-, takes⟩ := Option.ite_none_right_eq_some.mp takes
  obtain rfl := Option.some_inj.mp takes
  bv_omega

theorem semRelease_ne (value : BitVec 16) : semRelease value ≠ value := by
  rw [semRelease]
  bv_omega

namespace ModuleHeap

/-- The values of `heap_sem` and `mod_sem`. -/
def locks (mem : ModuleHeap) : BitVec 16 × BitVec 16 := (mem.heap.heapSem, mem.modSem)

variable {mem mem' : ModuleHeap} {self : Option Nat} {m b n npage : Nat} {prev : Option Nat}

@[simp] theorem locks_setSize (size : Nat) : (mem.setSize b size).locks = mem.locks := rfl

@[simp] theorem locks_setNext (next : Nat) : (mem.setNext b next).locks = mem.locks := rfl

@[simp] theorem locks_setModule (module : RtModule) :
    (mem.setModule m module).locks = mem.locks := rfl

@[simp] theorem locks_store (target : Nat) : (mem.store m target prev).locks = mem.locks := by
  cases prev <;> rfl

theorem locks_unlock {locked : ModuleHeap} (taken : mem.lock = some locked)
    (kept : mem'.locks = locked.locks) : mem'.unlock.locks = mem.locks := by
  obtain ⟨value, takes, rfl⟩ := Option.map_eq_some_iff.mp taken
  obtain ⟨heap, mod⟩ := Prod.mk.inj kept
  exact Prod.ext heap ((congrArg semRelease mod).trans (semRelease_semTake takes))

@[simp] theorem locks_takeUnits (nunits : Nat) :
    (mem.takeUnits m prev nunits).locks = mem.locks := by
  rw [takeUnits]
  dsimp only
  split <;> simp

end ModuleHeap

section

variable {mem mem' : ModuleHeap} {self : Option Nat} {m b n npage : Nat} {prev : Option Nat}

theorem rtModuleFreePage_locks {pagePtr npages : Nat}
    (step : rtModuleFreePage mem self m pagePtr npages = some mem') :
    mem'.locks = mem.locks := by
  obtain ⟨self, -, step⟩ := Option.bind_eq_some_iff.mp step
  obtain ⟨heap, freed, step⟩ := Option.bind_eq_some_iff.mp step
  obtain ⟨i, -, step⟩ := Option.bind_eq_some_iff.mp step
  obtain ⟨module, -, made⟩ := Option.bind_eq_some_iff.mp step
  obtain rfl := Option.some_inj.mp made
  exact Prod.ext (rtPageFree_heapSem freed) rfl

namespace ModuleHeap

theorem givePages_locks (step : mem.givePages self m b prev = some mem') :
    mem'.locks = mem.locks := by
  rw [givePages] at step
  dsimp only at step
  split at step
  · refine (rtModuleFreePage_locks step).trans ?_
    split <;> simp
  · exact congrArg locks (Option.some_inj.mp step).symm

theorem joinBehind_locks (step : mem.joinBehind self m b n prev = some mem') :
    mem'.locks = mem.locks := by
  rw [joinBehind] at step
  dsimp only at step
  have joined : ∀ {joined : ModuleHeap}, joined.locks = mem.locks →
      (if b % pageSize = 0 then joined.givePages self m b prev else some joined) = some mem' →
        mem'.locks = mem.locks := by
    intro joined kept step
    split at step
    · exact (givePages_locks step).trans kept
    · exact (congrArg locks (Option.some_inj.mp step).symm).trans kept
  refine joined ?_ step
  split <;> simp

theorem joinBefore_locks (step : mem.joinBefore self m b n prev = some mem') :
    mem'.locks = mem.locks := by
  rw [joinBefore] at step
  split at step
  · exact (givePages_locks step).trans (by simp)
  · obtain rfl := Option.some_inj.mp step
    simp

theorem insert_locks (step : mem.insert self m b n prev = some mem') :
    mem'.locks = mem.locks := by
  rw [insert] at step
  split at step
  · dsimp only at step
    split at step
    · obtain ⟨freed, frees, made⟩ := Option.bind_eq_some_iff.mp step
      refine Eq.trans ?_ (rtModuleFreePage_locks frees)
      split at made
      · obtain rfl := Option.some_inj.mp made
        simp
      · obtain rfl := Option.some_inj.mp made
        simp
    · exact congrArg locks (Option.some_inj.mp step).symm
  · obtain rfl := Option.some_inj.mp step
    simp

theorem giveUnits_locks (step : mem.giveUnits self m n prev = some mem') :
    mem'.locks = mem.locks := by
  rw [giveUnits] at step
  split at step
  · exact joinBehind_locks step
  · split at step
    · exact joinBefore_locks step
    · exact insert_locks step

end ModuleHeap

/-- On every path, `rt_module_free` releases `mod_sem` once. -/
theorem rtModuleFree_locks {addr : Nat} (step : rtModuleFree mem self m addr = some mem') :
    mem'.locks = mem.locks := by
  obtain ⟨-, step⟩ := Option.ite_none_right_eq_some.mp step
  obtain ⟨locked, taken, step⟩ := Option.bind_eq_some_iff.mp step
  obtain ⟨prev, -, step⟩ := Option.bind_eq_some_iff.mp step
  obtain ⟨given, gives, made⟩ := Option.bind_eq_some_iff.mp step
  obtain rfl := Option.some_inj.mp made
  exact ModuleHeap.locks_unlock taken (ModuleHeap.giveUnits_locks gives)

/-- There is a block that is large enough, or pages for one. -/
def ModuleHeap.Serves (mem : ModuleHeap) (self : Nat) (size : BitVec 32) : Prop :=
  (mem.list self).Meets (fun b => unitsFor size ≤ mem.size b) ∨ mem.heap.Offers (pagesFor size)

/-- If there are pages at all, they are enough. -/
theorem unitsFor_le {size : BitVec 32} (some_ : pagesFor size ≠ 0) :
    unitsFor size ≤ pagesFor size * pageSize / memHeadSize := by
  simp only [unitsFor, pagesFor, BitVec.toNat_add, pageSize, memHeadSize] at some_ ⊢
  have bound := size.isLt
  rw [show (7 : BitVec 32).toNat = 7 from rfl, show (8 : BitVec 32).toNat = 8 from rfl,
    show (4095 : BitVec 32).toNat = 4095 from rfl] at *
  omega

variable {result : ModuleHeap × Nat} {size : BitVec 32} {module up : Nat}

theorem rtModuleMallocPage_locks (step : rtModuleMallocPage mem module npage = some result) :
    result.1.locks = mem.locks ∧ (result.2 ≠ 0 ↔ mem.heap.Offers npage) := by
  obtain ⟨⟨heap, chunk⟩, alloc, step⟩ := Option.bind_eq_some_iff.mp step
  have value := rtPageAlloc_heapSem alloc
  have offers := rtPageAlloc_ne_zero alloc
  dsimp only at value offers step
  split at step
  · rename_i null
    obtain rfl := Option.some_inj.mp step
    rw [null] at offers
    exact ⟨Prod.ext value rfl, offers⟩
  · obtain ⟨-, step⟩ := Option.ite_none_right_eq_some.mp step
    obtain rfl := Option.some_inj.mp step
    exact ⟨Prod.ext value rfl, offers⟩

/-- New pages are on the list. -/
theorem ModuleHeap.linkPages_meets (some_ : up ≠ 0)
    (step : mem.linkPages module up npage = some mem') :
    mem'.locks = mem.locks ∧
      (mem'.list module).Meets fun b => npage * pageSize / memHeadSize ≤ mem'.size b := by
  obtain ⟨prev, found, made⟩ := Option.bind_eq_some_iff.mp step
  have measure : (mem.setSize up (npage * pageSize / memHeadSize)).size up =
      npage * pageSize / memHeadSize := size_setSize_self ..
  have kept : (mem.setSize up (npage * pageSize / memHeadSize)).locks = mem.locks := rfl
  generalize mem.setSize up (npage * pageSize / memHeadSize) = sized at found made measure kept
  obtain rfl := Option.some_inj.mp made
  refine ⟨by simp [kept], ?_⟩
  obtain ⟨place, walk, nonnull, same⟩ := @FreeList.Onward.meets_store _
    (((sized.setNext up ((sized.list module).load prev)).store module up prev).list module) prev up
    (FreeList.seek_onward found).1 some_ (by rw [list_store, FreeList.load_store_self])
    (fun other differ differ' => by
      rw [list_store, FreeList.load_store_of_ne _ _ differ, list_setNext,
        FreeList.load_store_of_ne _ _ differ'])
  refine ⟨place, walk, nonnull, ?_⟩
  dsimp only
  rw [same, size_store, size_setNext, measure]

/-- Without pages, `rt_module_malloc` leaves `mod_sem` taken. -/
theorem rtModuleMalloc_locks (step : rtModuleMalloc mem module size = some result) :
    result.1.heap.heapSem = mem.heap.heapSem ∧
      (result.1.modSem = mem.modSem ↔ mem.Serves module size) := by
  refine ModuleHeap.rtModuleMalloc.partial_correctness module size (fun mem result =>
    result.1.heap.heapSem = mem.heap.heapSem ∧
      (result.1.modSem = mem.modSem ↔ mem.Serves module size)) ?_ mem result step
  intro malloc ih mem result step
  obtain ⟨-, step⟩ := Option.ite_none_left_eq_some.mp step
  obtain ⟨locked, taken, step⟩ := Option.bind_eq_some_iff.mp step
  obtain ⟨prev, found, step⟩ := Option.bind_eq_some_iff.mp step
  have meets := FreeList.seek_meets found
  simp only [decide_eq_true_eq] at meets
  have restored (mem' : ModuleHeap) (kept : mem'.locks = locked.locks) :
      mem'.unlock.locks = mem.locks := ModuleHeap.locks_unlock taken kept
  obtain ⟨value, takes, rfl⟩ := Option.map_eq_some_iff.mp taken
  dsimp only at step
  split at step
  · rename_i nonnull
    obtain rfl := Option.some_inj.mp step
    obtain ⟨heap, mod⟩ := Prod.mk.inj (restored _ (ModuleHeap.locks_takeUnits _))
    exact ⟨heap, iff_of_true mod (Or.inl (meets.mp nonnull))⟩
  · rename_i null
    obtain ⟨⟨paged, up⟩, pages, step⟩ := Option.bind_eq_some_iff.mp step
    obtain ⟨kept, offers⟩ := rtModuleMallocPage_locks pages
    dsimp only at kept offers step
    split at step
    · rename_i none_
      obtain rfl := Option.some_inj.mp step
      obtain ⟨heap, mod⟩ := Prod.mk.inj kept
      refine ⟨heap, iff_of_false (fun same => semTake_ne takes (mod.symm.trans same)) ?_⟩
      rintro (serves | serves)
      · exact null (meets.mpr serves)
      · exact offers.mpr serves none_
    · rename_i some_
      obtain ⟨linked, links, step⟩ := Option.bind_eq_some_iff.mp step
      obtain ⟨kept', place, walk, nonnull, large⟩ := ModuleHeap.linkPages_meets some_ links
      obtain ⟨heap, mod⟩ := Prod.mk.inj (restored _ (kept'.trans kept))
      obtain ⟨heap', mod'⟩ := ih _ _ step
      have serves := offers.mp some_
      refine ⟨heap'.trans heap, iff_of_true ((mod'.mpr (Or.inl ?_)).trans mod) (Or.inr serves)⟩
      exact ⟨place, walk, nonnull, (unitsFor_le serves.1).trans large⟩

/-- The block shrinks, grows in place or moves to one that there is. -/
def ModuleHeap.ServesAgain (mem : ModuleHeap) (self ptr : Nat) (size : BitVec 32) : Prop :=
  unitsFor size ≤ mem.size (ptr - memHeadSize) ∨
    mem.GrowsInPlace self (ptr - memHeadSize) (unitsFor size) ∨ mem.Serves self size

@[simp] theorem ModuleHeap.locks_growInPlace (nunits : Nat) :
    (mem.growInPlace module b nunits).locks = mem.locks := by
  rw [growInPlace]
  split <;> simp

@[simp] theorem ModuleHeap.locks_memmove (dst src units : Nat) :
    (mem.memmove dst src units).locks = mem.locks := rfl

theorem rtModuleRealloc_locks {ptr : Nat} (some_ : ptr ≠ 0) (large : size ≠ 0)
    (step : rtModuleRealloc mem module ptr size = some result) :
    result.1.heap.heapSem = mem.heap.heapSem ∧
      (result.1.modSem = mem.modSem ↔ mem.ServesAgain module ptr size) := by
  rw [rtModuleRealloc, if_neg some_, if_neg large] at step
  have same (kept : result.1.locks = mem.locks) (serves : mem.ServesAgain module ptr size) :
      result.1.heap.heapSem = mem.heap.heapSem ∧
        (result.1.modSem = mem.modSem ↔ mem.ServesAgain module ptr size) := by
    obtain ⟨heap, mod⟩ := Prod.mk.inj kept
    exact ⟨heap, iff_of_true mod serves⟩
  dsimp only at step
  split at step
  · rename_i enough
    refine same ?_ (Or.inl enough)
    split at step
    · exact congrArg (ModuleHeap.locks ∘ Prod.fst) (Option.some_inj.mp step).symm
    · obtain ⟨freed, frees, made⟩ := Option.bind_eq_some_iff.mp step
      obtain rfl := Option.some_inj.mp made
      exact (rtModuleFree_locks frees).trans (by simp)
  · rename_i more
    obtain ⟨-, step⟩ := Option.ite_none_left_eq_some.mp step
    split at step
    · rename_i grows
      obtain rfl := Option.some_inj.mp step
      exact same (by simp) (Or.inr (Or.inl grows))
    · rename_i moves
      obtain ⟨⟨found, p⟩, malloc, step⟩ := Option.bind_eq_some_iff.mp step
      obtain ⟨heap, mod⟩ := rtModuleMalloc_locks malloc
      have serves : mem.ServesAgain module ptr size ↔ mem.Serves module size :=
        (or_iff_right more).trans (or_iff_right moves)
      rw [serves, ← mod]
      split at step
      · obtain rfl := Option.some_inj.mp step
        exact ⟨heap, Iff.rfl⟩
      · obtain ⟨freed, frees, made⟩ := Option.bind_eq_some_iff.mp step
        obtain rfl := Option.some_inj.mp made
        obtain ⟨heap', mod'⟩ := Prod.mk.inj (rtModuleFree_locks frees)
        exact ⟨heap'.trans heap, by rw [show freed.modSem = found.modSem from mod']⟩

end

/-! ## The slab -/

namespace Slab

/-- The value of `heap_sem`. -/
def heapSem (slab : Slab) : BitVec 16 := slab.pages.heapSem

/-- A small request is served from a zone with free chunks, a zone that is free as a whole, or
the pages for a new one. -/
def Serves (slab : Slab) (size : Nat) : Prop :=
  size = 0 ∨ slab.zoneLimit ≤ size ∨ slab.zoneArray (zoneindex size).1 ≠ 0 ∨ slab.zoneFree ≠ 0 ∨
    slab.pages.Offers (slab.zoneSize / pageSize)

/-- The block stays where it is, or moves to one that there is. -/
def ServesAgain (slab : Slab) (ptr size : Nat) : Prop :=
  match (slab.kup ptr).type with
  | .large => slab.Serves size
  | .small => (slab.zones (slab.zoneOf ptr)).chunksize = (zoneindex size).2 ∨
      slab.Serves (zoneindex size).2
  | .free => True

variable {slab slab' locked : Slab} {ptr z zi size : Nat} {result : Slab × Nat}

theorem heapSem_unlock (taken : slab.lock = some locked) (kept : slab'.heapSem = locked.heapSem) :
    slab'.unlock.heapSem = slab.heapSem := by
  obtain ⟨pages, takes, rfl⟩ := Option.map_eq_some_iff.mp taken
  have restored := congrArg PageHeap.heapSem (PageHeap.unlock_lock takes)
  exact (congrArg semRelease kept).trans restored

@[simp] theorem heapSem_dropFree : (slab.dropFree zi).heapSem = slab.heapSem := by
  rw [dropFree]
  split <;> rfl

@[simp] theorem heapSem_addFree : (slab.addFree z).heapSem = slab.heapSem := by
  rw [addFree]
  split <;> rfl

theorem takeChunk_heapSem (step : slab.takeChunk zi size = some result) :
    result.1.heapSem = slab.heapSem := by
  obtain ⟨-, step⟩ := Option.ite_none_right_eq_some.mp step
  have dropped : (slab.dropFree zi).heapSem = slab.heapSem := heapSem_dropFree
  split at step
  · obtain rfl := Option.some_inj.mp step
    exact dropped
  · obtain ⟨-, step⟩ := Option.ite_none_left_eq_some.mp step
    obtain rfl := Option.some_inj.mp step
    exact dropped

theorem allocZone_heapSem (step : slab.allocZone = some result) :
    (result.2 ≠ 0 ↔ slab.pages.Offers (slab.zoneSize / pageSize)) ∧
      (result.2 = 0 → result.1.heapSem = slab.heapSem) ∧
      (result.2 ≠ 0 → semRelease result.1.heapSem = slab.heapSem) := by
  obtain ⟨⟨pages, z⟩, alloc, step⟩ := Option.bind_eq_some_iff.mp step
  have kept := rtPageAlloc_heapSem alloc
  have offers := rtPageAlloc_ne_zero alloc
  dsimp only at kept offers step
  split at step
  · rename_i null
    obtain rfl := Option.some_inj.mp step
    rw [null] at offers
    exact ⟨offers, fun _ => kept, fun some_ => absurd rfl some_⟩
  · rename_i some_
    obtain ⟨locked, taken, made⟩ := Option.bind_eq_some_iff.mp step
    obtain rfl := Option.some_inj.mp made
    refine ⟨offers, fun null => absurd null some_, fun _ => ?_⟩
    exact (heapSem_unlock taken rfl).trans kept

/-- Without pages, `heap_sem` is released once more than it is taken. -/
theorem newZone_heapSem (taken : slab.lock = some locked)
    (step : locked.newZone zi size = some result) :
    result.1.heapSem = slab.heapSem ↔
      slab.zoneFree ≠ 0 ∨ slab.pages.Offers (slab.zoneSize / pageSize) := by
  have restored (slab' : Slab) (kept : slab'.heapSem = locked.heapSem) :
      slab'.unlock.heapSem = slab.heapSem := heapSem_unlock taken kept
  obtain ⟨pages, takes, rfl⟩ := Option.map_eq_some_iff.mp taken
  rw [newZone] at step
  split at step
  · rename_i some_
    obtain rfl := Option.some_inj.mp step
    exact iff_of_true (restored _ rfl) (Or.inl some_)
  · rename_i none_
    obtain ⟨⟨slab', z⟩, alloc, step⟩ := Option.bind_eq_some_iff.mp step
    obtain ⟨offers, fails, serves⟩ := allocZone_heapSem alloc
    replace offers : z ≠ 0 ↔ pages.unlock.Offers (slab.zoneSize / pageSize) := offers
    rw [PageHeap.unlock_lock takes] at offers
    have unlocked := restored _ rfl
    dsimp only at fails serves step
    split at step
    · rename_i null
      obtain rfl := Option.some_inj.mp step
      refine iff_of_false ?_ ?_
      · change semRelease slab'.heapSem ≠ slab.heapSem
        rw [fails null, unlocked]
        exact semRelease_ne _
      · rintro (parked | some_)
        · exact none_ parked
        · exact offers.mpr some_ null
    · rename_i some_
      obtain rfl := Option.some_inj.mp step
      exact iff_of_true ((serves some_).trans unlocked) (Or.inr (offers.mp some_))

theorem mallocSmall_heapSem (step : slab.mallocSmall size = some result) :
    result.1.heapSem = slab.heapSem ↔ slab.zoneArray (zoneindex size).1 ≠ 0 ∨
      slab.zoneFree ≠ 0 ∨ slab.pages.Offers (slab.zoneSize / pageSize) := by
  obtain ⟨locked, taken, step⟩ := Option.bind_eq_some_iff.mp step
  obtain ⟨-, step⟩ := Option.ite_none_right_eq_some.mp step
  have known : locked.zoneArray = slab.zoneArray := by
    obtain ⟨pages, -, rfl⟩ := Option.map_eq_some_iff.mp taken
    rfl
  rw [known] at step
  split at step
  · rename_i some_
    obtain ⟨⟨slab', chunk⟩, takes, made⟩ := Option.bind_eq_some_iff.mp step
    obtain rfl := Option.some_inj.mp made
    exact iff_of_true (heapSem_unlock taken (takeChunk_heapSem takes)) (Or.inl some_)
  · rename_i none_
    rw [or_iff_right none_]
    exact newZone_heapSem taken step

theorem mallocLarge_heapSem (step : slab.mallocLarge size = some result) :
    result.1.heapSem = slab.heapSem := by
  obtain ⟨⟨pages, chunk⟩, alloc, step⟩ := Option.bind_eq_some_iff.mp step
  have kept := rtPageAlloc_heapSem alloc
  dsimp only at kept step
  split at step
  · obtain rfl := Option.some_inj.mp step
    exact kept
  · obtain ⟨locked, taken, made⟩ := Option.bind_eq_some_iff.mp step
    obtain rfl := Option.some_inj.mp made
    exact (heapSem_unlock taken rfl).trans kept

theorem malloc_heapSem (step : slab.malloc size = some result) :
    result.1.heapSem = slab.heapSem ↔ slab.Serves size := by
  rw [malloc] at step
  split at step
  · rename_i zero
    obtain rfl := Option.some_inj.mp step
    exact iff_of_true rfl (Or.inl zero)
  · rename_i some_
    rw [Serves, or_iff_right some_]
    split at step
    · rename_i large
      exact iff_of_true (mallocLarge_heapSem step) (Or.inl large)
    · rename_i small
      rw [or_iff_right small]
      exact mallocSmall_heapSem step

theorem parkZone_heapSem (step : slab.parkZone z = some slab') :
    slab'.heapSem = slab.heapSem := by
  obtain ⟨pz, -, step⟩ := Option.bind_eq_some_iff.mp step
  obtain ⟨-, step⟩ := Option.ite_none_right_eq_some.mp step
  obtain rfl := Option.some_inj.mp step
  cases pz <;> rfl

theorem freeChunk_heapSem (step : slab.freeChunk ptr = some slab') :
    slab'.heapSem = slab.heapSem := by
  obtain ⟨locked, taken, step⟩ := Option.bind_eq_some_iff.mp step
  obtain ⟨-, step⟩ := Option.ite_none_right_eq_some.mp step
  have restored (slab' : Slab) (kept : slab'.heapSem = locked.heapSem) :
      slab'.unlock.heapSem = slab.heapSem := heapSem_unlock taken kept
  dsimp only at step
  split at step
  · obtain ⟨parked, parks, step⟩ := Option.bind_eq_some_iff.mp step
    have kept := (parkZone_heapSem parks).trans heapSem_addFree
    split at step
    · obtain ⟨pages, freed, made⟩ := Option.bind_eq_some_iff.mp step
      obtain rfl := Option.some_inj.mp made
      exact (rtPageFree_heapSem freed).trans (restored parked kept)
    · obtain rfl := Option.some_inj.mp step
      exact restored parked kept
  · obtain rfl := Option.some_inj.mp step
    exact restored _ heapSem_addFree

theorem freeLarge_heapSem (step : slab.freeLarge ptr = some slab') :
    slab'.heapSem = slab.heapSem := by
  obtain ⟨locked, taken, step⟩ := Option.bind_eq_some_iff.mp step
  obtain ⟨pages, freed, made⟩ := Option.bind_eq_some_iff.mp step
  obtain rfl := Option.some_inj.mp made
  exact (rtPageFree_heapSem freed).trans (heapSem_unlock taken rfl)

/-- On every path, `rt_free` releases `heap_sem` as often as it takes it. -/
theorem free_heapSem (step : slab.free ptr = some slab') : slab'.heapSem = slab.heapSem := by
  rw [free] at step
  split at step
  · exact congrArg heapSem (Option.some_inj.mp step).symm
  · split at step
    · exact freeLarge_heapSem step
    · exact freeChunk_heapSem step

theorem replace_heapSem (step : slab.replace ptr size = some result) :
    result.1.heapSem = slab.heapSem ↔ slab.Serves size := by
  obtain ⟨⟨slab', nptr⟩, malloc, step⟩ := Option.bind_eq_some_iff.mp step
  rw [← malloc_heapSem malloc]
  dsimp only at step
  split at step
  · obtain rfl := Option.some_inj.mp step
    rfl
  · obtain ⟨freed, frees, made⟩ := Option.bind_eq_some_iff.mp step
    obtain rfl := Option.some_inj.mp made
    rw [free_heapSem frees]

theorem realloc_heapSem (step : slab.realloc ptr size = some result) :
    result.1.heapSem = slab.heapSem ↔ slab.ServesAgain ptr size := by
  rw [realloc] at step
  rw [ServesAgain]
  generalize (slab.kup ptr).type = type at step ⊢
  cases type with
  | large => exact replace_heapSem step
  | small =>
      dsimp only at step ⊢
      obtain ⟨-, step⟩ := Option.ite_none_right_eq_some.mp step
      split at step
      · rename_i same
        obtain rfl := Option.some_inj.mp step
        exact iff_of_true rfl (Or.inl same)
      · rename_i differs
        exact (replace_heapSem step).trans (or_iff_right differs).symm
  | free =>
      obtain rfl := Option.some_inj.mp step
      exact iff_of_true rfl trivial

end Slab

/-! ## Calls -/

/-- The slab, and the memory of the modules, which is cut from the same pages. -/
structure Allocator where
  slab : Slab
  modules : Nat → RtModule
  modSem : BitVec 16

/-- What a thread calls. -/
inductive AllocatorCall where
  | malloc (size : BitVec 32)
  | free (ptr : Nat)
  | realloc (ptr : Nat) (size : BitVec 32)
  | pageAlloc (npages : Nat)
  | pageFree (addr npages : Nat)
  | moduleMalloc (size : BitVec 32)
  | moduleFree (module addr : Nat)
deriving DecidableEq, Repr

namespace Allocator

def moduleHeap (allocator : Allocator) : ModuleHeap :=
  ⟨allocator.slab.pages, allocator.modules, allocator.modSem⟩

def setPages (allocator : Allocator) (pages : PageHeap) : Allocator :=
  { allocator with slab := { allocator.slab with pages := pages } }

def setModuleHeap (allocator : Allocator) (mem : ModuleHeap) : Allocator :=
  ⟨{ allocator.slab with pages := mem.heap }, mem.modules, mem.modSem⟩

/-- The values of `heap_sem` and `mod_sem`. -/
def locks (allocator : Allocator) : BitVec 16 × BitVec 16 :=
  (allocator.slab.heapSem, allocator.modSem)

/-- `rt_module_malloc`; `self` is `rt_module_self()`. -/
def moduleMalloc (allocator : Allocator) (self : Option Nat) (size : BitVec 32) :
    Option (Allocator × Nat) := do
  let self ← self
  let result ← rtModuleMalloc allocator.moduleHeap self size
  pure (allocator.setModuleHeap result.1, result.2)

/-- `rt_module_free`. -/
def moduleFree (allocator : Allocator) (self : Option Nat) (module addr : Nat) :
    Option Allocator :=
  (rtModuleFree allocator.moduleHeap self module addr).map allocator.setModuleHeap

/-- `rt_malloc`. -/
def malloc (allocator : Allocator) (self : Option Nat) (size : BitVec 32) :
    Option (Allocator × Nat) :=
  if size = 0 then some (allocator, 0)
  else if self ≠ none then allocator.moduleMalloc self size
  else do
    let result ← allocator.slab.malloc size.toNat
    pure ({ allocator with slab := result.1 }, result.2)

/-- `rt_free`. -/
def free (allocator : Allocator) (self : Option Nat) (ptr : Nat) : Option Allocator :=
  if ptr = 0 then some allocator
  else
    match self with
    | some module => allocator.moduleFree self module ptr
    | none => (allocator.slab.free ptr).map fun slab => { allocator with slab := slab }

/-- `rt_realloc`. -/
def realloc (allocator : Allocator) (self : Option Nat) (ptr : Nat) (size : BitVec 32) :
    Option (Allocator × Nat) :=
  if ptr = 0 then allocator.malloc self size
  else if size = 0 then (allocator.free self ptr).map fun allocator => (allocator, 0)
  else
    match self with
    | some module => do
        let result ← rtModuleRealloc allocator.moduleHeap module ptr size
        pure (allocator.setModuleHeap result.1, result.2)
    | none => do
        let result ← allocator.slab.realloc ptr size.toNat
        pure ({ allocator with slab := result.1 }, result.2)

/-- A call of a thread that belongs to the module `self`, or to none. -/
def call (allocator : Allocator) (self : Option Nat) : AllocatorCall → Option (Allocator × Nat)
  | .malloc size => allocator.malloc self size
  | .free ptr => (allocator.free self ptr).map fun allocator => (allocator, 0)
  | .realloc ptr size => allocator.realloc self ptr size
  | .pageAlloc npages => do
      let result ← rtPageAlloc allocator.slab.pages npages
      pure (allocator.setPages result.1, result.2)
  | .pageFree addr npages => do
      let pages ← rtPageFree allocator.slab.pages addr npages
      pure (allocator.setPages pages, 0)
  | .moduleMalloc size => allocator.moduleMalloc self size
  | .moduleFree module addr =>
      (allocator.moduleFree self module addr).map fun allocator => (allocator, 0)

/-- `rt_malloc` finds a chunk or a block, or the pages for one. -/
def ServesMalloc (allocator : Allocator) (self : Option Nat) (size : BitVec 32) : Prop :=
  match self with
  | some module => size = 0 ∨ allocator.moduleHeap.Serves module size
  | none => allocator.slab.Serves size.toNat

/-- The block of `rt_realloc` stays where it is, or `rt_malloc` finds another one. -/
def ServesRealloc (allocator : Allocator) (self : Option Nat) (ptr : Nat) (size : BitVec 32) :
    Prop :=
  if ptr = 0 then allocator.ServesMalloc self size
  else if size = 0 then True
  else
    match self with
    | some module => allocator.moduleHeap.ServesAgain module ptr size
    | none => allocator.slab.ServesAgain ptr size.toNat

/-- The call needs no pages that there are not. -/
def Serves (allocator : Allocator) (self : Option Nat) : AllocatorCall → Prop
  | .malloc size => allocator.ServesMalloc self size
  | .realloc ptr size => allocator.ServesRealloc self ptr size
  | .moduleMalloc size => ∀ module ∈ self, allocator.moduleHeap.Serves module size
  | .free _ | .pageAlloc _ | .pageFree _ _ | .moduleFree _ _ => True

variable {allocator allocator' : Allocator} {self : Option Nat} {size : BitVec 32}
  {ptr module addr : Nat} {result : Allocator × Nat}

theorem moduleMalloc_locks (step : allocator.moduleMalloc self size = some result) :
    result.1.locks = allocator.locks ↔
      ∀ module ∈ self, allocator.moduleHeap.Serves module size := by
  obtain ⟨module, rfl, step⟩ := Option.bind_eq_some_iff.mp step
  obtain ⟨⟨mem, p⟩, malloc, made⟩ := Option.bind_eq_some_iff.mp step
  obtain rfl := Option.some_inj.mp made
  obtain ⟨heap, mod⟩ := rtModuleMalloc_locks malloc
  refine Prod.ext_iff.trans ((and_iff_right heap).trans (mod.trans ?_))
  simp

theorem moduleFree_locks (step : allocator.moduleFree self module addr = some allocator') :
    allocator'.locks = allocator.locks := by
  obtain ⟨mem, frees, rfl⟩ := Option.map_eq_some_iff.mp step
  exact rtModuleFree_locks frees

theorem slab_locks {slab : Slab} :
    Allocator.locks { allocator with slab := slab } = allocator.locks ↔
      slab.heapSem = allocator.slab.heapSem :=
  Prod.ext_iff.trans (and_iff_left rfl)

theorem malloc_locks (step : allocator.malloc self size = some result) :
    result.1.locks = allocator.locks ↔ allocator.ServesMalloc self size := by
  rw [malloc] at step
  split at step
  · rename_i zero
    obtain rfl := Option.some_inj.mp step
    refine iff_of_true rfl ?_
    cases self with
    | some module => exact Or.inl zero
    | none => exact Or.inl (congrArg BitVec.toNat zero)
  · rename_i some_
    split at step
    · rename_i inModule
      refine (moduleMalloc_locks step).trans ?_
      cases self with
      | some module => exact (by simp : _ ↔ _).trans (or_iff_right some_).symm
      | none => exact absurd rfl inModule
    · rename_i outside
      obtain rfl : self = none := not_not.mp outside
      obtain ⟨⟨slab, chunk⟩, malloc, made⟩ := Option.bind_eq_some_iff.mp step
      obtain rfl := Option.some_inj.mp made
      exact slab_locks.trans (Slab.malloc_heapSem malloc)

theorem free_locks (step : allocator.free self ptr = some allocator') :
    allocator'.locks = allocator.locks := by
  unfold free at step
  split at step
  · exact congrArg locks (Option.some_inj.mp step).symm
  · split at step
    · exact moduleFree_locks step
    · obtain ⟨slab, frees, rfl⟩ := Option.map_eq_some_iff.mp step
      exact slab_locks.mpr (Slab.free_heapSem frees)

theorem realloc_locks (step : allocator.realloc self ptr size = some result) :
    result.1.locks = allocator.locks ↔ allocator.ServesRealloc self ptr size := by
  unfold realloc at step
  unfold ServesRealloc
  split at step
  · rename_i null
    rw [if_pos null]
    exact malloc_locks step
  rename_i some_
  rw [if_neg some_]
  split at step
  · rename_i zero
    rw [if_pos zero]
    obtain ⟨freed, frees, rfl⟩ := Option.map_eq_some_iff.mp step
    exact iff_of_true (free_locks frees) trivial
  rename_i large
  rw [if_neg large]
  split at step
  · obtain ⟨⟨mem, p⟩, realloc, made⟩ := Option.bind_eq_some_iff.mp step
    obtain rfl := Option.some_inj.mp made
    obtain ⟨heap, mod⟩ := rtModuleRealloc_locks some_ large realloc
    exact Prod.ext_iff.trans ((and_iff_right heap).trans mod)
  · obtain ⟨⟨slab, p⟩, realloc, made⟩ := Option.bind_eq_some_iff.mp step
    obtain rfl := Option.some_inj.mp made
    exact slab_locks.trans (Slab.realloc_heapSem realloc)

/-- A call leaves the locks as it has found them if and only if there is what it needs. -/
theorem call_locks {call : AllocatorCall} (step : allocator.call self call = some result) :
    result.1.locks = allocator.locks ↔ allocator.Serves self call := by
  cases call with
  | malloc size => exact malloc_locks step
  | free ptr =>
      obtain ⟨freed, frees, rfl⟩ := Option.map_eq_some_iff.mp step
      exact iff_of_true (free_locks frees) trivial
  | realloc ptr size => exact realloc_locks step
  | pageAlloc npages =>
      obtain ⟨⟨pages, chunk⟩, alloc, made⟩ := Option.bind_eq_some_iff.mp step
      obtain rfl := Option.some_inj.mp made
      exact iff_of_true (slab_locks.mpr (rtPageAlloc_heapSem alloc)) trivial
  | pageFree addr npages =>
      obtain ⟨pages, frees, made⟩ := Option.bind_eq_some_iff.mp step
      obtain rfl := Option.some_inj.mp made
      exact iff_of_true (slab_locks.mpr (rtPageFree_heapSem frees)) trivial
  | moduleMalloc size => exact moduleMalloc_locks step
  | moduleFree module addr =>
      obtain ⟨freed, frees, rfl⟩ := Option.map_eq_some_iff.mp step
      exact iff_of_true (moduleFree_locks frees) trivial

end Allocator

/-- The values of the locks when a call begins and when it returns. -/
structure LockUse where
  onEntry : BitVec 16 × BitVec 16
  onReturn : BitVec 16 × BitVec 16
deriving DecidableEq, Repr

/-- Threads of any modules call in any order, and the locks are observed. -/
def allocatorMachine : Machine Allocator (Option Nat × AllocatorCall) LockUse where
  step allocator action :=
    (allocator.call action.1 action.2).map fun result =>
      (result.1, [⟨allocator.locks, result.1.locks⟩])

/-- In a run, all calls return with the locks as they have found them if and only if none needs
pages that there are not; and then the locks are at the end what they have been at the start. -/
theorem allocator_locks_balanced {start state : Allocator}
    {calls : List (Option Nat × AllocatorCall)} {uses : List LockUse}
    (run : allocatorMachine.Run (fun _ _ => True) start calls uses state) :
    ((∀ use ∈ uses, use.onReturn = use.onEntry) ↔
      allocatorMachine.Run (fun allocator action => allocator.Serves action.1 action.2) start calls
        uses state) ∧
      (allocatorMachine.Run (fun allocator action => allocator.Serves action.1 action.2) start calls
        uses state → state.locks = start.locks) := by
  constructor
  · refine @Machine.Run.good_iff _ _ _ _ _ _ _ _ _ _ (fun _ => True) _ run trivial ?_
    intro allocator action next emitted _ _ step
    obtain ⟨result, calls, made⟩ := Option.map_eq_some_iff.mp step
    obtain ⟨rfl, rfl⟩ := Prod.mk.inj made
    refine ⟨trivial, ?_⟩
    rw [List.forall_mem_singleton]
    exact Allocator.call_locks calls
  · intro served
    refine @Machine.Run.invariant _ _ _ _ _ _ _ _ _ (fun state => state.locks = start.locks) served
      rfl ?_
    intro allocator action next emitted kept serves step
    obtain ⟨result, calls, made⟩ := Option.map_eq_some_iff.mp step
    obtain ⟨rfl, -⟩ := Prod.mk.inj made
    exact ((Allocator.call_locks calls).mpr serves).trans kept

/-- Nothing has been initialized. -/
def blankSlab : Slab where
  pages := ⟨fun _ => ⟨0, 0⟩, 0, 0#16⟩
  heapStart := 0
  zones _ := ⟨0, 0, 0, 0, 0, 0, 0, 0, 0⟩
  cNext _ := 0
  zoneArray _ := 0
  zoneFree := 0
  zoneFreeCnt := 0
  zoneSize := 0
  zoneLimit := 0
  zonePageCnt := 0
  memusage _ := ⟨.free, 0⟩
  usedMem := 0
  maxMem := 0

/-- A heap of four pages, of which three are left, and no memory of any module. -/
def threePages : Allocator where
  slab := { blankSlab with
    pages := fourPages.takePages none 1
    heapStart := 4096
    zoneSize := 32768
    zoneLimit := 8192
    zonePageCnt := 8 }
  modules _ := ⟨0, fun _ => ⟨0, 0⟩, 0⟩
  modSem := 1#16

theorem threePages_init : blankSlab.rtSystemHeapInit 4096 20480 = some threePages.slab := by
  change ((rtPageInit ⟨fun _ => ⟨0, 0⟩, 0, 1#16⟩ 4096 4).bind _ : Option Slab) = _
  rw [fourPages_init]
  change ((rtPageAlloc fourPages 1).bind _ : Option Slab) = _
  rw [rtPageAlloc, if_neg (by decide)]
  change (((FreeList.seek _ _ _ none).bind _ : Option (PageHeap × Nat)).bind _ : Option Slab) = _
  rw [FreeList.seek]
  rfl

/-- A block of two pages is allocated. -/
theorem allocator_locks_balanced_large : ∃ state,
    allocatorMachine.Run (fun _ _ => True) threePages [(none, .malloc 8192)]
      [⟨(1#16, 1#16), (1#16, 1#16)⟩] state ∧
    allocatorMachine.Run (fun allocator action => allocator.Serves action.1 action.2) threePages
      [(none, .malloc 8192)] [⟨(1#16, 1#16), (1#16, 1#16)⟩] state ∧
    state.locks = (1#16, 1#16) := by
  have alloc : rtPageAlloc threePages.slab.pages 2 =
      some (threePages.slab.pages.takePages none 2, 8192) := by
    rw [rtPageAlloc, if_neg (by decide)]
    change ((FreeList.seek _ _ _ none).bind _ : Option (PageHeap × Nat)) = _
    rw [FreeList.seek]
    rfl
  have malloc : ∃ slab, threePages.slab.malloc 8192 = some (slab, 8192) ∧
      slab.heapSem = 1#16 := by
    apply Exists.intro
    constructor
    · change ((rtPageAlloc threePages.slab.pages 2).bind _ : Option (Slab × Nat)) = _
      rw [alloc]
      rfl
    · rfl
  obtain ⟨slab, malloc, value⟩ := malloc
  have step : allocatorMachine.step threePages (none, .malloc 8192) =
      some ({ threePages with slab := slab }, [⟨(1#16, 1#16), (slab.heapSem, 1#16)⟩]) := by
    change (((threePages.slab.malloc 8192).bind _ : Option (Allocator × Nat)).map _ : Option _) = _
    rw [malloc]
    rfl
  rw [value] at step
  have run : allocatorMachine.Run (fun _ _ => True) threePages [(none, .malloc 8192)]
      [⟨(1#16, 1#16), (1#16, 1#16)⟩] _ := .snoc .nil trivial step
  obtain ⟨balanced, kept⟩ := allocator_locks_balanced run
  have served := balanced.mp (by simp)
  exact ⟨_, run, served, kept served⟩

/-- The three pages are too few for a zone, and for a block of four pages in a module: `heap_sem`
is released twice, and `mod_sem` is not released. -/
theorem allocator_locks_unbalanced :
    blankSlab.rtSystemHeapInit 4096 20480 = some threePages.slab ∧
      threePages.locks = (1#16, 1#16) ∧
      (∃ state, threePages.call none (.malloc 8) = some (state, 0) ∧
        state.locks = (2#16, 1#16)) ∧
      ∃ state, threePages.call (some 0) (.moduleMalloc 12288) = some (state, 0) ∧
        state.locks = (1#16, 0#16) := by
  have threads : threePages.slab.pages.list.Threads none [⟨8192, 3⟩] :=
    FreeList.threads_cons.mpr ⟨⟨rfl, by decide, rfl⟩, FreeList.threads_nil.mpr rfl⟩
  have few {npages : Nat} (more : 3 < npages) :
      rtPageAlloc threePages.slab.pages npages = some (threePages.slab.pages, 0) := by
    rcases rtPageAlloc_spec ⟨by simp, by simp⟩ threads (by decide) (Nat.zero_lt_of_lt more) with
      ⟨none_, -⟩ | ⟨left, run, right, -, whole, fits, -, -⟩
    · exact none_
    · have member : run ∈ [(⟨8192, 3⟩ : Span)] := by simp [whole]
      rw [List.mem_singleton.mp member] at fits
      exact absurd fits (Nat.not_le_of_lt more)
  have malloc : rtModuleMalloc threePages.moduleHeap 0 12288 =
      some ({ threePages.moduleHeap with modSem := 0#16 }, 0) := by
    rw [rtModuleMalloc, if_neg (by decide)]
    change ((FreeList.seek _ _ _ none).bind _ : Option (ModuleHeap × Nat)) = _
    rw [FreeList.seek]
    change (((rtPageAlloc threePages.slab.pages 4).bind _ : Option (ModuleHeap × Nat)).bind _ :
      Option (ModuleHeap × Nat)) = _
    rw [few (by decide)]
    rfl
  refine ⟨threePages_init, rfl, ?_, ?_⟩
  · apply Exists.intro
    constructor
    · change ((((rtPageAlloc threePages.slab.pages 8).bind _ : Option (Slab × Nat)).bind _ :
        Option (Slab × Nat)).bind _ : Option (Allocator × Nat)) = _
      rw [few (by decide)]
      rfl
    · rfl
  · apply Exists.intro
    constructor
    · change ((rtModuleMalloc threePages.moduleHeap 0 12288).bind _ :
        Option (Allocator × Nat)) = _
      rw [malloc]
      rfl
    · rfl

end RtThread
