import RtThread.Memory.AllocatorLocks
import RtThread.Memory.ModuleUnits

/-!
# Runs of the memory of a module

New pages come onto the list and are cut at once, so that no node has the begin of a page. As long
as no block at the begin of a page is given back, no unit and no page is lost.
-/

namespace RtThread

open RtThread.Std

/-! ## New pages -/

/-- When pages are allocated, those of the others stay as they are. -/
theorem PageInv.alloc_kept {grid : Span} {heap heap' : PageHeap} {live free : List Span}
    {npages p : Nat} (inv : PageInv grid ⟨heap, live⟩ free)
    (step : rtPageAlloc heap npages = some (heap', p)) :
    ∃ free', PageInv grid ⟨heap', if p = 0 then live else ⟨p, npages⟩ :: live⟩ free' ∧
      ∀ run ∈ live, ∀ address, run.start ≤ address → address < run.finish pageSize →
        heap'.cells address = heap.cells address := by
  have transition : pageMachine.step ⟨heap, live⟩ (.alloc npages) =
      some (⟨heap', if p = 0 then live else ⟨p, npages⟩ :: live⟩, [p]) := by
    change ((rtPageAlloc heap npages).bind _ : Option _) = _
    rw [step]
    rfl
  obtain ⟨free', inv'⟩ := inv.alloc transition
  refine ⟨free', inv', fun run member address low high => ?_⟩
  rcases Nat.eq_zero_or_pos npages with rfl | some_
  · rw [(Prod.mk.inj (Option.some_inj.mp step)).1]
  rcases rtPageAlloc_spec inv.spaced inv.threads inv.positive some_ with
    ⟨same, -⟩ | ⟨left, first, right, next, rfl, fits, result, threads, kept⟩
  · rw [(Prod.mk.inj (Option.some_inj.mp (step.symm.trans same))).1]
  · obtain ⟨rfl, rfl⟩ := Prod.mk.inj (Option.some_inj.mp (step.symm.trans result))
    apply kept
    rintro other there rfl
    rw [← threads.unique inv'.threads] at inv'
    refine inv'.head_outside there ?_ ⟨low, high⟩
    dsimp only
    split
    · exact member
    · exact List.mem_cons_of_mem _ member

/-- The entry behind the last one. -/
theorem RtModule.pages_push (module : RtModule) (page : PageInfo)
    (room : module.pageCnt ≤ pageCountMax) :
    RtModule.pages { module with
      pageArray := Function.update module.pageArray module.pageCnt.toNat page
      pageCnt := module.pageCnt + 1 } = module.pages ++ [⟨page.pagePtr, page.npage⟩] := by
  have count : (module.pageCnt + 1).toNat = module.pageCnt.toNat + 1 := by
    rw [pageCountMax] at room
    bv_omega
  rw [RtModule.pages, RtModule.pages, count, List.range_succ, List.map_append, List.map_singleton]
  dsimp only
  rw [Function.update_self]
  apply congrArg (· ++ [_])
  apply List.map_congr_left
  intro i below
  rw [Function.update_of_ne (List.mem_range.mp below).ne]

namespace ModuleInv

variable {grid : Span} {others free nodes blocks : List Span} {m npages up : Nat}
  {mem mem' : ModuleHeap}

/-- Where the heads of the units are kept, so are the list and the blocks. -/
theorem kept (inv : ModuleInv grid others m mem free nodes blocks)
    (head : (mem'.modules m).memList = (mem.modules m).memList)
    (cells : ∀ unit ∈ cellsOf memHeadSize (nodes ++ blocks),
      mem'.heap.cells unit = mem.heap.cells unit) :
    (mem'.list m).Threads none nodes ∧ ∀ block ∈ blocks, mem'.size block.start = block.length := by
  have first (span : Span) (member : span ∈ nodes ++ blocks) :
      mem'.heap.cells span.start = mem.heap.cells span.start := by
    apply cells
    apply cells_subset member
    apply Span.start_mem_cells
    exact (List.mem_append.mp member).elim (inv.spaced.nonempty span) (inv.nonempty span)
  refine ⟨inv.threads.move head (fun node member => ?_) fun node member => ?_,
    fun block member => ?_⟩
  · exact congrArg Cell.second (first node (List.mem_append_left _ member))
  · exact congrArg Cell.first (first node (List.mem_append_left _ member))
  · have same := congrArg Cell.first (first block (List.mem_append_right _ member))
    exact same.trans (inv.sizes block member)

/-- New pages are a block of the module that is not on the list yet. -/
theorem mallocPage (inv : ModuleInv grid others m mem free nodes blocks)
    (step : rtModuleMallocPage mem m npages = some (mem', up)) :
    (up = 0 ∧ ∃ free', ModuleInv grid others m mem' free' nodes blocks) ∨
      (up ≠ 0 ∧ up % pageSize = 0 ∧ 0 < npages ∧ ∃ free', ModuleInv grid others m
        (mem'.setSize up (npages * pageSize / memHeadSize)) free' nodes
          (unitsOf ⟨up, npages⟩ :: blocks)) := by
  obtain ⟨⟨heap, chunk⟩, alloc, step⟩ := Option.bind_eq_some_iff.mp step
  obtain ⟨free', pages, unchanged⟩ := inv.pages.alloc_kept alloc
  -- The units of the module lie in pages that it has had before.
  have cells (unit : Nat) (member : unit ∈ cellsOf memHeadSize (nodes ++ blocks)) :
      heap.cells unit = mem.heap.cells unit := by
    obtain ⟨run, known, there⟩ := inv.in_pages member
    obtain ⟨low, high⟩ := unit_bounds there
    exact unchanged run (List.mem_append_left _ known) unit low high
  dsimp only at step
  by_cases null : chunk = 0
  · rw [if_pos null] at step pages
    obtain ⟨rfl, rfl⟩ := Prod.mk.inj (Option.some_inj.mp step)
    obtain ⟨threads, sizes⟩ := @kept grid others free nodes blocks m mem
      { mem with heap := heap } inv rfl cells
    exact Or.inl ⟨rfl, free',
      ⟨pages, threads, sizes, inv.nonempty, inv.cells, inv.count, inv.heads⟩, inv.spaced, inv.inner⟩
  · rw [if_neg null] at step pages
    obtain ⟨room, made⟩ := Option.ite_none_right_eq_some.mp step
    obtain ⟨rfl, rfl⟩ := Prod.mk.inj (Option.some_inj.mp made)
    have some_ : 0 < npages := pages.nonempty ⟨chunk, npages⟩ List.mem_cons_self
    have first := @Span.start_mem_cells pageSize ⟨chunk, npages⟩ some_
    obtain ⟨-, aligned⟩ := pages.page_aligned (pages.inside (Or.inr List.mem_cons_self) first)
    have clear := pairwise_clear (fun run member => pages.inside (Or.inr member)) pages.nonempty
      (List.nodup_append.mp pages.nodup).2.1
    have fresh (unit : Nat) (member : unit ∈ cellsOf memHeadSize (nodes ++ blocks)) :
        unit ≠ chunk := by
      rintro rfl
      obtain ⟨run, known, there⟩ := inv.in_pages member
      obtain ⟨low, high⟩ := unit_bounds there
      have apart := (List.pairwise_cons.mp clear).1 run (List.mem_append_left _ known)
      simp only [Span.Clear, Span.finish, pageSize] at apart high
      omega
    refine Or.inr ⟨null, aligned, some_, free', ?_⟩
    generalize pushed : ModuleHeap.setSize (ModuleHeap.setModule { mem with heap := heap } m _)
      chunk (npages * pageSize / memHeadSize) = mem₁
    have entries : (mem₁.modules m).pages = (mem.modules m).pages ++ [⟨chunk, npages⟩] := by
      subst pushed
      change RtModule.pages (Function.update mem.modules m _ m) = _
      rw [Function.update_self]
      exact (mem.modules m).pages_push ⟨chunk, npages⟩ inv.count
    have memList : (mem₁.modules m).memList = (mem.modules m).memList := by
      subst pushed
      change RtModule.memList (Function.update mem.modules m _ m) = _
      rw [Function.update_self]
    have count : (mem₁.modules m).pageCnt = (mem.modules m).pageCnt + 1 := by
      subst pushed
      change RtModule.pageCnt (Function.update mem.modules m _ m) = _
      rw [Function.update_self]
    have measure : mem₁.size chunk = npages * pageSize / memHeadSize := by
      rw [← pushed]
      exact ModuleHeap.size_setSize_self ..
    have others_ (address : Nat) (apart : address ≠ chunk) :
        mem₁.heap.cells address = heap.cells address := by
      subst pushed
      exact Function.update_of_ne apart _ _
    have rest : mem₁.heap = { heap with cells := mem₁.heap.cells } := by
      subst pushed
      rfl
    obtain ⟨threads, sizes⟩ := inv.kept memList fun unit member =>
      (others_ unit (fresh unit member)).trans (cells unit member)
    refine ⟨⟨?_, threads, ?_, ?_, ?_, ?_, ?_⟩, inv.spaced, inv.inner⟩
    · have owners (run : Span) : ((mem.modules m).pages ++ [run] ++ others).Perm
          (run :: ((mem.modules m).pages ++ others)) := by
        rw [List.append_assoc, List.singleton_append]
        exact List.perm_middle
      rw [entries, rest]
      refine (pages.perm (owners _)).writes fun address outside => others_ address ?_
      rintro rfl
      refine outside ⟨address, npages⟩ ((owners _).symm.subset List.mem_cons_self)
        ⟨Nat.le_refl _, ?_⟩
      simp only [Span.finish, pageSize]
      omega
    · intro block member
      rcases List.mem_cons.mp member with rfl | member
      · rw [unitsOf, measure]
        simp only [pageSize, memHeadSize]
        omega
      · exact sizes block member
    · intro block member
      rcases List.mem_cons.mp member with rfl | member
      · simp only [unitsOf, pageSize, memHeadSize]
        omega
      · exact inv.nonempty block member
    · rw [entries, List.map_append, cellsOf_append, cellsOf_append, cellsOf_cons,
        List.map_singleton, cellsOf_cons, cellsOf_nil, List.append_nil]
      refine (List.perm_append_comm_assoc ..).trans (List.perm_append_comm.trans ?_)
      rw [← cellsOf_append]
      exact inv.cells.append_right _
    · rwa [count]
    · intro block member
      rcases List.mem_cons.mp member with rfl | member
      · exact Or.inl aligned
      · exact inv.heads block member

/-- The new pages come onto the list, in the order of the addresses. -/
theorem link {block : Span} {prev : Option Nat}
    (inv : ModuleInv grid others m mem free nodes (block :: blocks))
    (whole : block.finish memHeadSize % pageSize = 0) (nonnull : block.start ≠ 0)
    (found : (mem.list m).seek (fun _ => true) (fun b => mem.behind block.start < b) none =
      some prev) :
    ∃ left right, nodes = left ++ right ∧ (∀ a ∈ left, a.finish memHeadSize ≤ block.start) ∧
      (∀ b ∈ right, block.finish memHeadSize < b.start) ∧
      ModuleUnits grid others m
        ((mem.setNext block.start ((mem.list m).load prev)).store m block.start prev) free
        (left ++ block :: right) blocks := by
  have measure := inv.sizes block List.mem_cons_self
  have some_ := inv.nonempty block List.mem_cons_self
  have finish : mem.behind block.start = block.finish memHeadSize := by
    rw [ModuleHeap.behind, measure, Span.finish]
  rw [finish] at found
  obtain ⟨left, right, rfl, found', passed, stops⟩ := @FreeList.Threads.seek (mem.list m) none nodes
    (fun _ => true) (fun b => block.finish memHeadSize < b) inv.threads fun _ _ _ _ _ => rfl
  obtain rfl := Option.some_inj.mp (found.symm.trans found')
  have positive (span : Span) (member : span ∈ left ++ right) : 0 < span.length :=
    inv.spaced.nonempty span member
  have below (a : Span) (member : a ∈ left) : a.finish memHeadSize ≤ block.start := by
    have there := List.mem_append_left right member
    have goes := of_decide_eq_false (passed a member)
    have first := inv.inner a there a.start (Span.start_mem_cells (positive a there))
    refine (inv.clear a there).resolve_right fun behind => first ?_
    rw [Nat.le_antisymm (Nat.le_of_not_lt goes) behind]
    exact whole
  have above (b : Span) (member : b ∈ right) : block.finish memHeadSize < b.start := by
    cases right with
    | nil => cases member
    | cons next right =>
        have far : block.finish memHeadSize < next.start := of_decide_eq_true (stops next rfl)
        rcases List.mem_cons.mp member with rfl | member
        · exact far
        · exact far.trans ((Spaced.append_iff.mp inv.spaced).2.1.start_lt b member)
  have nodup : ((left ++ block :: right).map Span.start).Nodup := by
    rw [List.map_append, List.map_cons, List.nodup_middle, ← List.map_append]
    refine List.nodup_cons.mpr ⟨fun there => ?_, inv.spaced.nodup⟩
    obtain ⟨node, member, same⟩ := List.mem_map.mp there
    have size := positive node member
    rcases List.mem_append.mp member with before | behind
    · have apart := below node before
      rw [Span.finish, memHeadSize] at apart
      omega
    · have apart := above node behind
      rw [Span.finish] at apart
      omega
  have writes : ModuleHeap.Writes m (fun b => b = block.start ∨ b ∈ FreeList.after none left) mem
      ((mem.setNext block.start ((mem.list m).load (FreeList.after none left))).store m block.start
        (FreeList.after none left)) :=
    ModuleHeap.Writes.store (ModuleHeap.Writes.refl.setCell (Or.inl rfl)) fun b => Or.inr
  obtain ⟨same, pages, sizes⟩ := inv.writes writes (by
    rintro b (rfl | behind)
    · exact cells_subset (by simp) (Span.start_mem_cells some_)
    · rcases FreeList.after_eq none left with start | ⟨node, member, last⟩
      · cases start.symm.trans behind
      · obtain rfl : node.start = b := Option.some_inj.mp (last.symm.trans behind)
        exact cells_subset (by simp [member])
          (Span.start_mem_cells (positive node (List.mem_append_left _ member))))
  refine ⟨left, right, rfl, below, above, pages, ?_, sizes, ?_, ?_, ?_, ?_⟩
  · have linked := @FreeList.Threads.link _ left right block [] inv.threads nodup nonnull
    have kept : (mem.list m).setSize block.start block.length = mem.list m := by
      rw [← measure]
      exact (mem.list m).setSize_size block.start
    rw [List.append_nil, kept] at linked
    rw [ModuleHeap.list_store, ModuleHeap.list_setNext]
    exact linked
  · exact fun other member => inv.nonempty other (List.mem_cons_of_mem _ member)
  · rw [same]
    refine (cellsOf_perm _ ?_).trans inv.cells
    rw [List.append_assoc, List.append_assoc, List.cons_append]
    exact List.perm_middle.symm.append_left left
  · rw [writes.pageCnt]
    exact inv.count
  · exact fun other member => inv.heads other (List.mem_cons_of_mem _ member)

end ModuleInv

/-! ## Allocation -/

/-- The block reaches into the last one of the pages. -/
theorem lt_unitsFor {size : BitVec 32} : pagesFor size * 512 < unitsFor size + 512 := by
  simp only [unitsFor, pagesFor, BitVec.toNat_add, pageSize, memHeadSize]
  have bound := size.isLt
  rw [show (7 : BitVec 32).toNat = 7 from rfl, show (8 : BitVec 32).toNat = 8 from rfl,
    show (4095 : BitVec 32).toNat = 4095 from rfl]
  omega

/-- Behind a block that reaches into the last page, there is no begin of a page. -/
theorem inner_rest {run node : Span} {count : Nat} (aligned : run.start % pageSize = 0)
    (last : run.length * 512 < count + 512)
    (member : node ∈ (unitsOf run).rest memHeadSize count) : Inner node := by
  obtain ⟨less, member⟩ := List.mem_ite_nil_right.mp member
  obtain rfl := List.mem_singleton.mp member
  intro unit there
  obtain ⟨index, below, rfl⟩ := Span.mem_cells.mp there
  simp only [unitsOf, memHeadSize, pageSize] at aligned less below ⊢
  omega

/-- What is left of a span has no other units. -/
theorem Inner.rest {run node : Span} {count : Nat} (inner : Inner run) (fits : count ≤ run.length)
    (member : node ∈ run.rest memHeadSize count) : Inner node := by
  intro unit there
  apply inner
  rw [Span.cells_rest fits]
  exact List.mem_append_right _ (cells_subset member there)

namespace ModuleInv

variable {grid : Span} {others free nodes blocks : List Span} {m p : Nat} {size : BitVec 32}
  {mem mem' : ModuleHeap}

/-- A block is cut from the first node that is large enough. -/
theorem mallocFound (inv : ModuleInv grid others m mem free nodes blocks) {left right : List Span}
    {run : Span} (split : nodes = left ++ run :: right) (fits : unitsFor size ≤ run.length) :
    ModuleInv grid others m (mem.takeUnits m (FreeList.after none left) (unitsFor size)) free
      (left ++ (run.rest memHeadSize (unitsFor size) ++ right))
      (⟨run.start, unitsFor size⟩ :: blocks) := by
  subst split
  have some_ : 0 < unitsFor size := Nat.succ_pos _
  have spaced := inv.spaced.take fits
  have inner := inv.inner run (by simp)
  refine ⟨inv.toModuleUnits.take some_ fits spaced (Or.inr ?_), spaced, fun node member => ?_⟩
  · intro unit there
    apply inner
    rw [Span.cells_rest fits]
    exact List.mem_append_left _ there
  · rcases List.mem_append.mp member with before | behind
    · exact inv.inner node (List.mem_append_left _ before)
    · rcases List.mem_append.mp behind with rest | behind
      · exact inner.rest fits rest
      · exact inv.inner node (List.mem_append_right _ (List.mem_cons_of_mem _ behind))

/-- With new pages on the list, the search ends there. -/
theorem mallocPages {left right : List Span} {up : Nat}
    (units : ModuleUnits grid others m mem free
      (left ++ unitsOf ⟨up, pagesFor size⟩ :: right) blocks)
    (spaced : Spaced memHeadSize (left ++ right)) (inner : ∀ node ∈ left ++ right, Inner node)
    (above : ∀ a ∈ left, a.finish memHeadSize ≤ up)
    (below : ∀ b ∈ right, (unitsOf ⟨up, pagesFor size⟩).finish memHeadSize < b.start)
    (aligned : up % pageSize = 0) (nonnull : up ≠ 0) (some_ : 0 < pagesFor size)
    (short : ∀ node ∈ left, node.length < unitsFor size)
    (step : rtModuleMalloc mem.unlock m size = some (mem', p)) :
    ∃ free' nodes', ModuleInv grid others m mem' free' nodes'
      (if p = 0 then blocks else ⟨p - memHeadSize, unitsFor size⟩ :: blocks) := by
  have fits : unitsFor size ≤ (unitsOf ⟨up, pagesFor size⟩).length := by
    have enough := unitsFor_le some_.ne'
    simp only [unitsOf, memHeadSize, pageSize] at enough ⊢
    omega
  have positive : 0 < unitsFor size := Nat.succ_pos _
  have spaced' := spaced.put_rest (Nat.mul_pos (by decide) positive) fits above below
  rw [ModuleHeap.rtModuleMalloc] at step
  obtain ⟨-, step⟩ := Option.ite_none_left_eq_some.mp step
  obtain ⟨locked, taken, step⟩ := Option.bind_eq_some_iff.mp step
  obtain ⟨value, -, rfl⟩ := Option.map_eq_some_iff.mp taken
  obtain ⟨prev, found, step⟩ := Option.bind_eq_some_iff.mp step
  have place := @FreeList.Threads.seek_at (mem.list m) none left right _
    (fun b => unitsFor size ≤ mem.size b) units.threads (fun node member => by
      have measure := (units.threads.node_of_mem (List.mem_append_left _ member)).2
      rw [decide_eq_false_iff_not, show mem.size node.start = node.length from measure]
      exact Nat.not_le.mpr (short node member)) (by
      rw [decide_eq_true_iff, show mem.size _ = _ from units.threads.node.2.2]
      exact fits)
  obtain rfl := Option.some_inj.mp (found.symm.trans place)
  have points : (mem.list m).load (FreeList.after none left) = up := units.threads.node.1
  have points' : (ModuleHeap.list { mem.unlock with modSem := value } m).load
      (FreeList.after none left) = up := points
  dsimp only at step
  rw [points', if_pos nonnull] at step
  obtain ⟨rfl, rfl⟩ := Prod.mk.inj (Option.some_inj.mp step)
  rw [if_neg (by rw [memHeadSize]; omega), Nat.add_sub_cancel]
  have taken := (units.setSem value).take positive fits spaced' (Or.inl aligned)
  refine ⟨free, _, ModuleInv.setSem ⟨taken, spaced', fun node member => ?_⟩ _⟩
  rcases List.mem_append.mp member with before | behind
  · exact inner node (List.mem_append_left _ before)
  · rcases List.mem_append.mp behind with rest | behind
    · exact @inner_rest ⟨up, pagesFor size⟩ node _ aligned lt_unitsFor rest
    · exact inner node (List.mem_append_right _ behind)

/-- `rt_module_malloc` gives a block of units, or null. -/
theorem malloc (inv : ModuleInv grid others m mem free nodes blocks)
    (step : rtModuleMalloc mem m size = some (mem', p)) :
    ∃ free' nodes', ModuleInv grid others m mem' free' nodes'
      (if p = 0 then blocks else ⟨p - memHeadSize, unitsFor size⟩ :: blocks) := by
  rw [ModuleHeap.rtModuleMalloc] at step
  obtain ⟨nonempty, step⟩ := Option.ite_none_left_eq_some.mp step
  obtain ⟨locked, taken, step⟩ := Option.bind_eq_some_iff.mp step
  obtain ⟨value, rfl, inv⟩ := inv.lock taken
  obtain ⟨prev, found, step⟩ := Option.bind_eq_some_iff.mp step
  obtain ⟨left, right, rfl, found', passed, stops⟩ := @FreeList.Threads.seek _ none nodes
    (fun _ => true) (fun b => unitsFor size ≤ ModuleHeap.size { mem with modSem := value } b)
    inv.threads fun _ _ _ _ _ => rfl
  obtain rfl := Option.some_inj.mp (found.symm.trans found')
  dsimp only at step
  cases right with
  | cons run right =>
      obtain ⟨points, nonnull, measure⟩ := inv.threads.node
      rw [points, if_pos nonnull] at step
      obtain ⟨rfl, rfl⟩ := Prod.mk.inj (Option.some_inj.mp step)
      have fits : unitsFor size ≤ run.length := by
        have stop := of_decide_eq_true (stops run rfl)
        rwa [show ModuleHeap.size _ run.start = run.length from measure] at stop
      rw [if_neg (by rw [memHeadSize]; omega), Nat.add_sub_cancel]
      exact ⟨_, _, (inv.mallocFound rfl fits).setSem _⟩
  | nil =>
      have ends := FreeList.threads_nil.mp (FreeList.threads_append.mp inv.threads).2
      rw [List.append_nil] at inv
      rw [ends, if_neg (not_not.mpr rfl)] at step
      obtain ⟨⟨paged, up⟩, pages, step⟩ := Option.bind_eq_some_iff.mp step
      dsimp only at step
      rcases inv.mallocPage pages with ⟨rfl, free', inv'⟩ | ⟨some_, aligned, more, free', inv'⟩
      · rw [if_pos rfl] at step
        obtain ⟨rfl, rfl⟩ := Prod.mk.inj (Option.some_inj.mp step)
        exact ⟨_, _, inv'⟩
      · rw [if_neg some_] at step
        obtain ⟨linked, links, step⟩ := Option.bind_eq_some_iff.mp step
        obtain ⟨prev, place, made⟩ := Option.bind_eq_some_iff.mp links
        obtain rfl := Option.some_inj.mp made
        have whole : (unitsOf ⟨up, pagesFor size⟩).finish memHeadSize % pageSize = 0 := by
          simp only [Span.finish, unitsOf, memHeadSize, pageSize] at aligned ⊢
          omega
        obtain ⟨before, behind, rfl, above, below, units⟩ := inv'.link whole some_ place
        refine mallocPages units inv'.spaced inv'.inner above below aligned some_ more
          (fun node member => ?_) step
        have there := List.mem_append_left behind member
        have goes := of_decide_eq_false (passed node there)
        rw [show ModuleHeap.size _ node.start = node.length from
          (inv.threads.node_of_mem there).2] at goes
        exact Nat.not_le.mp goes

end ModuleInv

/-! ## Runs -/

/-- The memory, and the blocks that are live, with their heads. -/
structure ModuleState where
  mem : ModuleHeap
  live : List Span

inductive ModuleAction where
  | malloc (size : BitVec 32)
  | free (block : Span)
  /-- The owner of a block writes to it. -/
  | write (address : Nat) (cell : Cell)
deriving DecidableEq, Repr

namespace ModuleState

/-- Blocks that are live are given back, and written to behind their heads. -/
def Legal (state : ModuleState) : ModuleAction → Prop
  | .malloc _ => True
  | .free block => block ∈ state.live
  | .write address _ =>
      ∃ block ∈ state.live, block.start < address ∧ address < block.finish memHeadSize

/-- No block at the begin of a page is given back. -/
def Inside (state : ModuleState) (action : ModuleAction) : Prop :=
  state.Legal action ∧ ∀ block, action = .free block → block.start % pageSize ≠ 0

end ModuleState

/-- The calls of a thread of the module `m`. The results of `rt_module_malloc` are observed. -/
def moduleMachine (m : Nat) : Machine ModuleState ModuleAction Nat where
  step state
    | .malloc size => do
        let (mem, p) ← rtModuleMalloc state.mem m size
        let live := if p = 0 then state.live
          else ⟨p - memHeadSize, unitsFor size⟩ :: state.live
        pure (⟨mem, live⟩, [p])
    | .free block => do
        let mem ← rtModuleFree state.mem (some m) m (block.start + memHeadSize)
        pure (⟨mem, state.live.erase block⟩, [])
    | .write address cell => some (⟨state.mem.setCell address cell, state.live⟩, [])

namespace ModuleInv

variable {grid : Span} {others free nodes blocks : List Span} {m : Nat} {mem : ModuleHeap}

/-- The order of the blocks does not matter. -/
theorem perm {blocks' : List Span} (inv : ModuleInv grid others m mem free nodes blocks)
    (same : blocks'.Perm blocks) : ModuleInv grid others m mem free nodes blocks' := by
  refine ⟨⟨inv.pages, inv.threads, fun block member => inv.sizes block (same.subset member),
    fun block member => inv.nonempty block (same.subset member), ?_, inv.count,
    fun block member => inv.heads block (same.subset member)⟩, inv.spaced, inv.inner⟩
  exact (cellsOf_perm _ (same.append_left nodes)).trans inv.cells

/-- Behind the head of a block, there is no head of another one or of a node. -/
theorem write {block : Span} {address : Nat} {cell : Cell}
    (inv : ModuleInv grid others m mem free nodes blocks) (member : block ∈ blocks)
    (low : block.start < address) (high : address < block.finish memHeadSize) :
    ModuleInv grid others m (mem.setCell address cell) free nodes blocks := by
  have front := inv.perm (List.perm_cons_erase member).symm
  have whole := front.pairwise
  have outside (span : Span) (clear : span.Clear memHeadSize block) : span.start ≠ address := by
    rintro rfl
    simp only [Span.Clear, Span.finish] at clear high
    omega
  have heads (span : Span) (there : span ∈ nodes ++ blocks) : span.start ≠ address := by
    rcases List.mem_append.mp there with node | other
    · exact outside span (front.clear span node)
    · rcases List.mem_cons.mp ((List.perm_cons_erase member).subset other) with rfl | other
      · exact low.ne
      · have clear := (List.pairwise_cons.mp (List.pairwise_append.mp whole).2.1).1 span other
        exact outside span clear.symm
  have kept (span : Span) (there : span ∈ nodes ++ blocks) :
      (mem.setCell address cell).heap.cells span.start = mem.heap.cells span.start :=
    Function.update_of_ne (heads span there) _ _
  refine ⟨⟨?_, ?_, fun other there => ?_, inv.nonempty, inv.cells, inv.count, inv.heads⟩,
    inv.spaced, inv.inner⟩
  · refine inv.pages.writes fun other clear => Function.update_of_ne ?_ _ _
    rintro rfl
    -- The unit of the address lies in a page of the module.
    obtain ⟨index, within⟩ : ∃ index, index = (other - block.start) / memHeadSize := ⟨_, rfl⟩
    have unit : block.start + memHeadSize * index ∈ block.cells memHeadSize := by
      refine Span.mem_cells.mpr ⟨index, ?_, rfl⟩
      simp only [Span.finish, memHeadSize] at high within ⊢
      omega
    obtain ⟨run, known, there⟩ := inv.in_pages (cells_subset (List.mem_append_right _ member) unit)
    have lower := (unit_bounds there).1
    have upper := unit_fits there
    refine clear run (List.mem_append_left _ known) ?_
    simp only [memHeadSize] at within lower upper
    omega
  · refine inv.threads.move rfl (fun node there => ?_) fun node there => ?_
    · exact congrArg Cell.second (kept node (List.mem_append_left _ there))
    · exact congrArg Cell.first (kept node (List.mem_append_left _ there))
  · have same := congrArg Cell.first (kept other (List.mem_append_right _ there))
    exact same.trans (inv.sizes other there)

/-- Each step that is allowed keeps the invariant. -/
theorem step {state next : ModuleState} {action : ModuleAction} {emitted : List Nat}
    (inv : ModuleInv grid others m state.mem free nodes state.live)
    (allowed : state.Inside action)
    (step : (moduleMachine m).step state action = some (next, emitted)) :
    ∃ free' nodes', ModuleInv grid others m next.mem free' nodes' next.live := by
  obtain ⟨legal, inside⟩ := allowed
  cases action with
  | malloc size =>
      obtain ⟨⟨mem, p⟩, malloc, made⟩ := Option.bind_eq_some_iff.mp step
      obtain ⟨rfl, -⟩ := Prod.mk.inj (Option.some_inj.mp made)
      exact inv.malloc malloc
  | free block =>
      obtain ⟨mem, freed, made⟩ := Option.bind_eq_some_iff.mp step
      obtain ⟨rfl, -⟩ := Prod.mk.inj (Option.some_inj.mp made)
      have front := inv.perm (List.perm_cons_erase legal).symm
      obtain ⟨nodes', inv'⟩ := front.free_ (inside block rfl) freed
      exact ⟨free, nodes', inv'⟩
  | write address cell =>
      obtain ⟨rfl, -⟩ := Prod.mk.inj (Option.some_inj.mp step)
      obtain ⟨block, member, low, high⟩ := legal
      exact ⟨free, nodes, inv.write member low high⟩

/-- A module has no memory at first. -/
theorem init {pages : PageState} {free : List Span} {mem : ModuleHeap}
    (inv : PageInv grid pages free) (heap : mem.heap = pages.heap)
    (memList : (mem.modules m).memList = 0) (pageCnt : (mem.modules m).pageCnt = 0) :
    ModuleInv grid pages.live m mem free [] [] := by
  have none_ : (mem.modules m).pages = [] := by
    rw [RtModule.pages, pageCnt]
    rfl
  refine ⟨⟨?_, FreeList.threads_nil.mpr memList, by simp, by simp, ?_, ?_, by simp⟩, Spaced.nil,
    by simp⟩
  · rw [none_, heap]
    exact inv
  · rw [none_]
    exact List.Perm.refl _
  · rw [pageCnt]
    decide

end ModuleInv

/-- Each page of the heap is free, belongs to others or is recorded in `page_array`, and each unit
of the recorded pages lies in exactly one node of the list or one block that is live. -/
structure ModuleState.Accounted (grid : Span) (others : List Span) (m : Nat) (state : ModuleState)
    (free nodes : List Span) : Prop where
  rtPageList : state.mem.heap.list.Threads none free
  pages : (cellsOf pageSize free ++
    cellsOf pageSize ((state.mem.modules m).pages ++ others)).Perm (grid.cells pageSize)
  memList : (state.mem.list m).Threads none nodes
  heads : ∀ block ∈ state.live, state.mem.size block.start = block.length
  units : (cellsOf memHeadSize (nodes ++ state.live)).Perm
    (cellsOf memHeadSize ((state.mem.modules m).pages.map unitsOf))
  once : (cellsOf memHeadSize (nodes ++ state.live)).Nodup

/-- As long as no block at the begin of a page is given back, no page and no unit of a module is
lost. -/
theorem module_units_accounted {heap heap' : PageHeap} {addr npages m : Nat}
    {before : List PageAction} {results events : List Nat} {pages : PageState} {mem : ModuleHeap}
    {actions : List ModuleAction} {state : ModuleState} (unlocked : heap.heapSem = 1#16)
    (init : rtPageInit heap addr npages = some heap')
    (prior : pageMachine.Run PageState.Legal ⟨heap', []⟩ before results pages)
    (same : mem.heap = pages.heap) (memList : (mem.modules m).memList = 0)
    (pageCnt : (mem.modules m).pageCnt = 0)
    (run : (moduleMachine m).Run ModuleState.Inside ⟨mem, []⟩ actions events state) :
    ∃ free nodes, state.Accounted ⟨addr, npages⟩ pages.live m free nodes := by
  obtain ⟨free, inv⟩ := prior.invariant (PageInv.init unlocked init)
    fun _ _ _ _ inv legal step => Exists.elim inv fun _ inv => inv.step legal step
  have reached : ∃ free nodes,
      ModuleInv ⟨addr, npages⟩ pages.live m state.mem free nodes state.live := by
    apply run.invariant
    · exact ⟨free, [], .init inv same memList pageCnt⟩
    · rintro state action next emitted ⟨free, nodes, inv⟩ allowed step
      exact inv.step allowed step
  obtain ⟨free', nodes, inv'⟩ := reached
  exact ⟨free', nodes, inv'.pages.threads, inv'.pages.cells, inv'.threads, inv'.sizes, inv'.cells,
    inv'.nodup⟩

/-! ## A module with one page -/

/-- A module without memory, and four free pages. -/
def oneModule : ModuleHeap := ⟨fourPages, fun _ => ⟨0, fun _ => ⟨0, 0⟩, 0⟩, 1#16⟩

/-- The first block lies at the begin of the page. -/
def oneBlock : ModuleHeap :=
  let module : RtModule := ⟨0, Function.update (fun _ => ⟨0, 0⟩) 0 ⟨4096, 1⟩, 1⟩
  let paged := ModuleHeap.setModule { oneModule with heap := fourPages.takePages none 1 } 0 module
  ((paged.setSize 4096 512).setNext 4096 0 |>.store 0 4096 none).takeUnits 0 none 2

/-- The second block lies behind it. -/
def twoBlocks : ModuleHeap := oneBlock.takeUnits 0 none 2

theorem oneModule_malloc : rtModuleMalloc oneModule 0 8 = some (oneBlock, 4104) := by
  rw [ModuleHeap.rtModuleMalloc, if_neg (by decide)]
  change ((FreeList.seek _ _ _ none).bind _ : Option (ModuleHeap × Nat)) = _
  rw [FreeList.seek]
  change ((rtPageAlloc fourPages 1).bind _ : Option (ModuleHeap × Nat)).bind _ = _
  rw [rtPageAlloc, if_neg (by decide)]
  change (((FreeList.seek _ _ _ none).bind _ : Option (PageHeap × Nat)).bind _ :
    Option (ModuleHeap × Nat)).bind _ = _
  rw [FreeList.seek]
  change ((FreeList.seek _ _ _ none).bind _ : Option ModuleHeap).bind _ = _
  rw [FreeList.seek]
  change rtModuleMalloc _ 0 8 = _
  rw [ModuleHeap.rtModuleMalloc, if_neg (by decide)]
  change ((FreeList.seek _ _ _ none).bind _ : Option (ModuleHeap × Nat)) = _
  rw [FreeList.seek]
  rfl

theorem oneBlock_malloc : rtModuleMalloc oneBlock 0 8 = some (twoBlocks, 4120) := by
  rw [ModuleHeap.rtModuleMalloc, if_neg (by decide)]
  change ((FreeList.seek _ _ _ none).bind _ : Option (ModuleHeap × Nat)) = _
  rw [FreeList.seek]
  rfl

/-- A block that fills no page does not come back onto the list at the begin of one. -/
theorem twoBlocks_free : rtModuleFree twoBlocks (some 0) 0 4104 = some twoBlocks := by
  rw [rtModuleFree, if_pos (by decide)]
  change ((FreeList.seek _ _ _ none).bind _ : Option ModuleHeap) = _
  rw [FreeList.seek]
  rfl

theorem twoBlocks_free_inside : ∃ mem, rtModuleFree twoBlocks (some 0) 0 4120 = some mem := by
  apply Exists.intro
  rw [rtModuleFree, if_pos (by decide)]
  change ((FreeList.seek _ _ _ none).bind _ : Option ModuleHeap) = _
  rw [FreeList.seek]
  rfl

/-- Two blocks are allocated. -/
theorem twoBlocks_run : (moduleMachine 0).Run ModuleState.Inside ⟨oneModule, []⟩
    [.malloc 8, .malloc 8] [4104, 4120] ⟨twoBlocks, [⟨4112, 2⟩, ⟨4096, 2⟩]⟩ := by
  have first : (moduleMachine 0).step ⟨oneModule, []⟩ (.malloc 8) =
      some (⟨oneBlock, [⟨4096, 2⟩]⟩, [4104]) := by
    change ((rtModuleMalloc oneModule 0 8).bind _ : Option _) = _
    rw [oneModule_malloc]
    rfl
  have second : (moduleMachine 0).step ⟨oneBlock, [⟨4096, 2⟩]⟩ (.malloc 8) =
      some (⟨twoBlocks, [⟨4112, 2⟩, ⟨4096, 2⟩]⟩, [4120]) := by
    change ((rtModuleMalloc oneBlock 0 8).bind _ : Option _) = _
    rw [oneBlock_malloc]
    rfl
  exact (Machine.Run.nil.snoc ⟨trivial, by simp⟩ first).snoc ⟨trivial, by simp⟩ second

/-- The second block is given back. -/
theorem module_units_accounted_inside : ∃ mem, (moduleMachine 0).Run ModuleState.Inside
    ⟨oneModule, []⟩ [.malloc 8, .malloc 8, .free ⟨4112, 2⟩] [4104, 4120] ⟨mem, [⟨4096, 2⟩]⟩ ∧
      ∃ free nodes, ModuleState.Accounted ⟨4096, 4⟩ [] 0 ⟨mem, [⟨4096, 2⟩]⟩ free nodes := by
  obtain ⟨mem, freed⟩ := twoBlocks_free_inside
  have step : (moduleMachine 0).step ⟨twoBlocks, [⟨4112, 2⟩, ⟨4096, 2⟩]⟩ (.free ⟨4112, 2⟩) =
      some (⟨mem, [⟨4096, 2⟩]⟩, []) := by
    change ((rtModuleFree twoBlocks (some 0) 0 4120).bind _ : Option _) = _
    rw [freed]
    rfl
  have inside : ModuleState.Inside ⟨twoBlocks, [⟨4112, 2⟩, ⟨4096, 2⟩]⟩ (.free ⟨4112, 2⟩) := by
    refine ⟨List.mem_cons_self, ?_⟩
    rintro block same
    cases same
    decide
  have run := twoBlocks_run.snoc inside step
  exact ⟨mem, run, module_units_accounted rfl fourPages_init .nil rfl rfl rfl run⟩

/-- The first block is given back, and its two units are lost. -/
theorem module_units_lost :
    ¬ ∀ (heap heap' : PageHeap) (addr npages m : Nat) (before : List PageAction)
      (results events : List Nat) (pages : PageState) (mem : ModuleHeap)
      (actions : List ModuleAction) (state : ModuleState), heap.heapSem = 1#16 →
      rtPageInit heap addr npages = some heap' →
      pageMachine.Run PageState.Legal ⟨heap', []⟩ before results pages → mem.heap = pages.heap →
      (mem.modules m).memList = 0 → (mem.modules m).pageCnt = 0 →
      (moduleMachine m).Run ModuleState.Legal ⟨mem, []⟩ actions events state →
      ∃ free nodes, state.Accounted ⟨addr, npages⟩ pages.live m free nodes := by
  intro accounted
  have step : (moduleMachine 0).step ⟨twoBlocks, [⟨4112, 2⟩, ⟨4096, 2⟩]⟩ (.free ⟨4096, 2⟩) =
      some (⟨twoBlocks, [⟨4112, 2⟩]⟩, []) := by
    change ((rtModuleFree twoBlocks (some 0) 0 4104).bind _ : Option _) = _
    rw [twoBlocks_free]
    rfl
  have legal : ModuleState.Legal ⟨twoBlocks, [⟨4112, 2⟩, ⟨4096, 2⟩]⟩ (.free ⟨4096, 2⟩) :=
    List.mem_cons_of_mem _ List.mem_cons_self
  have run := (twoBlocks_run.mono fun _ _ inside => inside.1).snoc legal step
  obtain ⟨free, nodes, all⟩ := accounted ⟨fun _ => ⟨0, 0⟩, 0, 1#16⟩ fourPages 4096 4 0 [] [] _
    ⟨fourPages, []⟩ oneModule _ _ rfl fourPages_init .nil rfl rfl rfl run
  have listed : (twoBlocks.list 0).Threads none [⟨4128, 508⟩] :=
    FreeList.threads_cons.mpr ⟨⟨rfl, by decide, rfl⟩, FreeList.threads_nil.mpr rfl⟩
  obtain rfl := all.memList.unique listed
  have recorded : (twoBlocks.modules 0).pages = [⟨4096, 1⟩] := rfl
  have count := all.units.length_eq
  rw [recorded] at count
  simp [cellsOf, unitsOf, pageSize, memHeadSize, Span.length_cells] at count

end RtThread
