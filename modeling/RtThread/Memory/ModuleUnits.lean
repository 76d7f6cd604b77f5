import RtThread.Memory.PageRuns
import RtThread.Memory.ModuleHeap

/-!
# Units of the memory of a module

The pages of a module are cut into units, each of which belongs to a block or to a node of the
free list. A block that does not lie at the begin of a page joins the nodes around it.
-/

namespace RtThread

open RtThread.Std

/-! ## What is written -/

/-- In the module `m`, only its list has changed, and in the memory only the heads at some
addresses. -/
structure ModuleHeap.Writes (m : Nat) (heads : Nat → Prop) (mem mem' : ModuleHeap) : Prop where
  cells : ∀ address, ¬ heads address → mem'.heap.cells address = mem.heap.cells address
  rtPageList : mem'.heap.rtPageList = mem.heap.rtPageList
  heapSem : mem'.heap.heapSem = mem.heap.heapSem
  pageArray : (mem'.modules m).pageArray = (mem.modules m).pageArray
  pageCnt : (mem'.modules m).pageCnt = (mem.modules m).pageCnt

namespace ModuleHeap.Writes

variable {m b : Nat} {heads : Nat → Prop} {mem mem' : ModuleHeap} {prev : Option Nat}

theorem refl : Writes m heads mem mem := ⟨fun _ _ => rfl, rfl, rfl, rfl, rfl⟩

theorem setCell {cell : Cell} (writes : Writes m heads mem mem') (head : heads b) :
    Writes m heads mem (mem'.setCell b cell) := by
  refine ⟨fun address outside => ?_, writes.rtPageList, writes.heapSem, writes.pageArray,
    writes.pageCnt⟩
  have apart : address ≠ b := fun same => outside (same ▸ head)
  exact (Function.update_of_ne apart _ _).trans (writes.cells address outside)

theorem store {target : Nat} (writes : Writes m heads mem mem') (head : ∀ b ∈ prev, heads b) :
    Writes m heads mem (mem'.store m target prev) := by
  cases prev with
  | some b => exact writes.setCell (head b rfl)
  | none =>
      refine ⟨writes.cells, writes.rtPageList, writes.heapSem, ?_, ?_⟩
      · simpa [ModuleHeap.store, setModule] using writes.pageArray
      · simpa [ModuleHeap.store, setModule] using writes.pageCnt

end ModuleHeap.Writes

/-! ## The list -/

namespace ModuleHeap

variable {mem mem' : ModuleHeap} {m n nunits : Nat} {prev : Option Nat} {self : Option Nat}

theorem list_takeUnits (fits : nunits ≤ mem.size ((mem.list m).load prev)) :
    (mem.takeUnits m prev nunits).list m =
      ((mem.list m).take memHeadSize prev nunits).setSize ((mem.list m).load prev) nunits := by
  rw [takeUnits, FreeList.take]
  generalize (mem.list m).load prev = b at fits
  split
  · rename_i less
    refine Eq.trans ?_ (congrArg (FreeList.setSize · b nunits) (if_pos less)).symm
    simp only [list_store, list_setSize, list_setNext, size_setNext, FreeList.setSize_store]
    rfl
  · rename_i more
    refine Eq.trans ?_ (congrArg (FreeList.setSize · b nunits) (if_neg more)).symm
    have exact_ : nunits = mem.size b := by omega
    rw [list_store, FreeList.setSize_store, exact_]
    exact congrArg (FreeList.store · (mem.next b) prev) ((mem.list m).setSize_size b).symm

/-- A block that does not lie at the begin of a page joins blocks on the list that do not
either. -/
theorem giveUnits_eq (inside : n % pageSize ≠ 0)
    (others : (mem.list m).load prev ≠ 0 → (mem.list m).load prev % pageSize ≠ 0) :
    ∃ mem', mem.giveUnits self m n prev = some mem' ∧
      mem'.list m = (mem.list m).give memHeadSize prev n (mem.size n) ∧
      Writes m (fun b => b = n ∨ b = (mem.list m).load prev ∧ b ≠ 0 ∨ b ∈ prev) mem mem' := by
  have head : ∀ b ∈ prev, b = n ∨ b = (mem.list m).load prev ∧ b ≠ 0 ∨ b ∈ prev :=
    fun b member => Or.inr (Or.inr member)
  rw [giveUnits, FreeList.give]
  generalize (mem.list m).load prev = b at others head
  by_cases behind : b ≠ 0 ∧ mem.behind b = n
  · have here : b = n ∨ b = b ∧ b ≠ 0 ∨ b ∈ prev := Or.inr (Or.inl ⟨rfl, behind.1⟩)
    rw [if_pos ⟨behind.1, behind.2, inside⟩, joinBehind]
    dsimp only
    rw [if_neg (others behind.1)]
    refine ⟨_, rfl, ?_, ?_⟩
    · refine Eq.trans ?_ (if_pos behind).symm
      by_cases joins : b + memHeadSize * (mem.size b + mem.size n) = mem.next b
      · refine Eq.trans ?_ (if_pos joins).symm
        rw [if_pos joins, list_setNext, list_setSize, next_setSize, next_setSize, Nat.add_assoc,
          Nat.add_comm (mem.size n)]
        rfl
      · refine Eq.trans ?_ (if_neg joins).symm
        rw [if_neg joins, list_setSize]
        rfl
    · split
      · exact (Writes.refl.setCell here).setCell here
      · exact Writes.refl.setCell here
  · rw [if_neg fun both => behind ⟨both.1, both.2.1⟩]
    by_cases front : b ≠ 0 ∧ b = mem.behind n
    · rw [if_pos front, joinBefore, if_neg inside]
      refine ⟨_, rfl, ?_, ?_⟩
      · refine Eq.trans ?_ ((if_neg behind).trans (if_pos front)).symm
        rw [list_store, list_setNext, list_setSize, next_setSize]
        rfl
      · exact ((Writes.refl.setCell (Or.inl rfl)).setCell (Or.inl rfl)).store head
    · rw [if_neg front, insert, if_neg inside]
      refine ⟨_, rfl, ?_, ?_⟩
      · refine Eq.trans ?_ ((if_neg behind).trans (if_neg front)).symm
        have kept : (mem.list m).setSize n (mem.size n) = mem.list m := (mem.list m).setSize_size n
        rw [list_store, list_setNext, kept]
      · exact (Writes.refl.setCell (Or.inl rfl)).store head

theorem takeUnits_writes : Writes m (fun b => b = (mem.list m).load prev ∨
    b = (mem.list m).load prev + memHeadSize * nunits ∧
      nunits < mem.size ((mem.list m).load prev) ∨ b ∈ prev) mem (mem.takeUnits m prev nunits) := by
  rw [takeUnits]
  dsimp only
  have head : ∀ b ∈ prev, b = (mem.list m).load prev ∨ b = (mem.list m).load prev +
      memHeadSize * nunits ∧ nunits < mem.size ((mem.list m).load prev) ∨ b ∈ prev :=
    fun b member => Or.inr (Or.inr member)
  split
  · rename_i less
    refine Writes.store ?_ head
    refine ((Writes.refl.setCell ?_).setCell ?_).setCell (Or.inl rfl)
    · exact Or.inr (Or.inl ⟨rfl, less⟩)
    · exact Or.inr (Or.inl ⟨rfl, less⟩)
  · exact Writes.refl.store head

end ModuleHeap

/-! ## Pages and units -/

/-- The units of some pages. -/
def unitsOf (run : Span) : Span := ⟨run.start, run.length * (pageSize / memHeadSize)⟩

/-- What `page_array` says: its first `page_cnt` entries. -/
def RtModule.pages (module : RtModule) : List Span :=
  (List.range module.pageCnt.toNat).map fun i =>
    ⟨(module.pageArray i).pagePtr, (module.pageArray i).npage⟩

/-- No unit of the span is the first one of a page. -/
def Inner (span : Span) : Prop := ∀ unit ∈ span.cells memHeadSize, unit % pageSize ≠ 0

theorem mem_unitsOf {run : Span} {unit : Nat} : unit ∈ (unitsOf run).cells memHeadSize ↔
    ∃ page ∈ run.cells pageSize, ∃ index < 512, unit = page + memHeadSize * index := by
  simp only [Span.mem_cells, unitsOf, memHeadSize, pageSize]
  constructor
  · rintro ⟨index, below, rfl⟩
    refine ⟨_, ⟨index / 512, by omega, rfl⟩, index % 512, Nat.mod_lt _ (by decide), ?_⟩
    omega
  · rintro ⟨_, ⟨page, below, rfl⟩, index, small, rfl⟩
    exact ⟨page * 512 + index, by omega, by omega⟩

theorem unitsOf_subset {run grid : Span} (inside : run.cells pageSize ⊆ grid.cells pageSize) :
    (unitsOf run).cells memHeadSize ⊆ (unitsOf grid).cells memHeadSize := by
  intro unit member
  obtain ⟨page, there, index, below, rfl⟩ := mem_unitsOf.mp member
  exact mem_unitsOf.mpr ⟨page, inside there, index, below, rfl⟩

/-- A unit lies in the pages. -/
theorem unit_bounds {run : Span} {unit : Nat} (member : unit ∈ (unitsOf run).cells memHeadSize) :
    run.start ≤ unit ∧ unit < run.finish pageSize := by
  obtain ⟨index, below, rfl⟩ := Span.mem_cells.mp member
  simp only [unitsOf, memHeadSize, pageSize, Span.finish] at below ⊢
  omega

/-- The pages do not end within a unit. -/
theorem unit_fits {run : Span} {unit : Nat} (member : unit ∈ (unitsOf run).cells memHeadSize) :
    unit + 8 ≤ run.finish pageSize := by
  obtain ⟨index, below, rfl⟩ := Span.mem_cells.mp member
  simp only [unitsOf, memHeadSize, pageSize, Span.finish] at below ⊢
  omega

/-- Runs of pages that lie apart have no unit in common. -/
theorem unitsOf_disjoint {a b : Span} (clear : a.Clear pageSize b) :
    ((unitsOf a).cells memHeadSize).Disjoint ((unitsOf b).cells memHeadSize) := by
  intro unit here there
  have first := unit_bounds here
  have second := unit_bounds there
  rcases clear with before | behind
  · omega
  · omega

theorem nodup_units {runs : List Span} (clear : runs.Pairwise (Span.Clear pageSize)) :
    (cellsOf memHeadSize (runs.map unitsOf)).Nodup := by
  refine List.nodup_flatMap.mpr ⟨fun span _ => Span.nodup_cells (by decide) span, ?_⟩
  exact List.Pairwise.map _ (fun _ _ => unitsOf_disjoint) clear

/-- The pages, the free list and the blocks of a module. -/
structure ModuleUnits (grid : Span) (others : List Span) (m : Nat) (mem : ModuleHeap)
    (free nodes blocks : List Span) : Prop where
  pages : PageInv grid ⟨mem.heap, (mem.modules m).pages ++ others⟩ free
  threads : (mem.list m).Threads none nodes
  sizes : ∀ block ∈ blocks, mem.size block.start = block.length
  nonempty : ∀ block ∈ blocks, 0 < block.length
  cells : (cellsOf memHeadSize (nodes ++ blocks)).Perm
    (cellsOf memHeadSize ((mem.modules m).pages.map unitsOf))
  count : (mem.modules m).pageCnt ≤ pageCountMax
  heads : ∀ block ∈ blocks, block.start % pageSize = 0 ∨ Inner block

/-- Between the calls, the nodes are ordered and do not touch, and none has the begin of a
page. -/
structure ModuleInv (grid : Span) (others : List Span) (m : Nat) (mem : ModuleHeap)
    (free nodes blocks : List Span) : Prop extends
    ModuleUnits grid others m mem free nodes blocks where
  spaced : Spaced memHeadSize nodes
  inner : ∀ node ∈ nodes, Inner node

namespace ModuleUnits

variable {grid : Span} {others free nodes blocks dropped : List Span} {m : Nat}
  {mem mem' : ModuleHeap} {heads : Nat → Prop}

/-- The value of `mod_sem` does not matter. -/
theorem setSem (inv : ModuleUnits grid others m mem free nodes blocks) (value : BitVec 16) :
    ModuleUnits grid others m { mem with modSem := value } free nodes blocks :=
  ⟨inv.pages, inv.threads, inv.sizes, inv.nonempty, inv.cells, inv.count, inv.heads⟩

theorem nodup (inv : ModuleUnits grid others m mem free nodes blocks) :
    (cellsOf memHeadSize (nodes ++ blocks)).Nodup := by
  refine inv.cells.nodup_iff.mpr (nodup_units ?_)
  refine pairwise_clear
    (fun run member => inv.pages.inside (Or.inr (List.mem_append_left _ member)))
    (fun run member => inv.pages.nonempty run (List.mem_append_left _ member)) ?_
  have nodup := (List.nodup_append.mp inv.pages.nodup).2.1
  rw [cellsOf_append] at nodup
  exact (List.nodup_append.mp nodup).1

/-- A unit lies in a page of the module. -/
theorem in_pages (inv : ModuleUnits grid others m mem free nodes blocks) {unit : Nat}
    (member : unit ∈ cellsOf memHeadSize (nodes ++ blocks)) :
    ∃ run ∈ (mem.modules m).pages, unit ∈ (unitsOf run).cells memHeadSize := by
  obtain ⟨span, there, inside⟩ := List.mem_flatMap.mp (inv.cells.subset member)
  obtain ⟨run, known, rfl⟩ := List.mem_map.mp there
  exact ⟨run, known, inside⟩

theorem in_grid (inv : ModuleUnits grid others m mem free nodes blocks) {span : Span}
    (member : span ∈ nodes ++ blocks) :
    span.cells memHeadSize ⊆ (unitsOf grid).cells memHeadSize := by
  intro unit there
  obtain ⟨run, known, inside⟩ := inv.in_pages (cells_subset member there)
  exact unitsOf_subset (inv.pages.inside (Or.inr (List.mem_append_left _ known))) inside

/-- Writing heads of units, the pages stay as they are. -/
theorem pages_writes (inv : ModuleUnits grid others m mem free nodes blocks)
    (writes : ModuleHeap.Writes m heads mem mem')
    (inside : ∀ b, heads b → b ∈ cellsOf memHeadSize (nodes ++ blocks)) :
    (mem'.modules m).pages = (mem.modules m).pages ∧
      PageInv grid ⟨mem'.heap, (mem'.modules m).pages ++ others⟩ free := by
  have same : (mem'.modules m).pages = (mem.modules m).pages := by
    rw [RtModule.pages, RtModule.pages, writes.pageArray, writes.pageCnt]
  have heap : mem'.heap = ⟨mem'.heap.cells, mem.heap.rtPageList, mem.heap.heapSem⟩ := by
    rw [← writes.rtPageList, ← writes.heapSem]
  refine ⟨same, ?_⟩
  rw [same, heap]
  refine inv.pages.writes fun address outside => writes.cells address fun head => ?_
  obtain ⟨run, known, there⟩ := inv.in_pages (inside address head)
  exact outside run (List.mem_append_left _ known) (unit_bounds there)

/-- A head that is written is that of a node or of a block that is given up. -/
theorem sizes_writes (inv : ModuleUnits grid others m mem free nodes (dropped ++ blocks))
    (writes : ModuleHeap.Writes m heads mem mem')
    (inside : ∀ b, heads b → b ∈ cellsOf memHeadSize (nodes ++ dropped)) :
    ∀ block ∈ blocks, mem'.size block.start = block.length := by
  intro block member
  have nodup := inv.nodup
  rw [← List.append_assoc, cellsOf_append] at nodup
  have apart := (List.nodup_append.mp nodup).2.2
  have first : block.start ∈ cellsOf memHeadSize blocks := cells_subset member
    (Span.start_mem_cells (inv.nonempty block (List.mem_append_right _ member)))
  have kept := writes.cells block.start fun head => apart _ (inside _ head) _ first rfl
  exact (congrArg Cell.first kept).trans (inv.sizes block (List.mem_append_right _ member))

/-- Only heads of nodes and of one block are written. -/
theorem writes {block : Span} (inv : ModuleUnits grid others m mem free nodes (block :: blocks))
    (writes : ModuleHeap.Writes m heads mem mem')
    (inside : ∀ b, heads b → b ∈ cellsOf memHeadSize (nodes ++ [block])) :
    (mem'.modules m).pages = (mem.modules m).pages ∧
      PageInv grid ⟨mem'.heap, (mem'.modules m).pages ++ others⟩ free ∧
      ∀ other ∈ blocks, mem'.size other.start = other.length := by
  obtain ⟨same, pages⟩ := inv.pages_writes writes fun b head => by
    have member := inside b head
    rw [cellsOf_append, cellsOf_cons, cellsOf_nil, List.append_nil] at member
    rw [cellsOf_append, cellsOf_cons]
    exact (List.mem_append.mp member).elim (List.mem_append_left _)
      fun there => List.mem_append_right _ (List.mem_append_left _ there)
  exact ⟨same, pages, @sizes_writes _ _ _ _ _ [block] _ _ _ _ inv writes inside⟩

/-- The first units of a node become a block. -/
theorem take {left right : List Span} {run : Span} {nunits : Nat}
    (inv : ModuleUnits grid others m mem free (left ++ run :: right) blocks)
    (some_ : 0 < nunits) (fits : nunits ≤ run.length)
    (spaced : Spaced memHeadSize (left ++ (run.rest memHeadSize nunits ++ right)))
    (head : run.start % pageSize = 0 ∨ Inner ⟨run.start, nunits⟩) :
    ModuleUnits grid others m (mem.takeUnits m (FreeList.after none left) nunits) free
      (left ++ (run.rest memHeadSize nunits ++ right)) (⟨run.start, nunits⟩ :: blocks) := by
  obtain ⟨points, nonnull, measure⟩ := inv.threads.node
  have measure : mem.size run.start = run.length := measure
  have split := @Span.cells_rest memHeadSize nunits run fits
  have writes := @ModuleHeap.takeUnits_writes mem m nunits (FreeList.after none left)
  have listed := @ModuleHeap.list_takeUnits mem m nunits (FreeList.after none left)
    (by rw [points, measure]; exact fits)
  rw [points] at writes listed
  generalize mem.takeUnits m (FreeList.after none left) nunits = mem' at writes listed
  have inside : ∀ b, (b = run.start ∨ b = run.start + memHeadSize * nunits ∧
      nunits < mem.size run.start ∨ b ∈ FreeList.after none left) →
        b ∈ cellsOf memHeadSize (left ++ run :: right) := by
    have here : run ∈ left ++ run :: right := by simp
    rintro b (rfl | ⟨rfl, less⟩ | behind)
    · exact cells_subset here (Span.start_mem_cells (some_.trans_le fits))
    · exact cells_subset here (Span.mem_cells.mpr ⟨nunits, measure ▸ less, rfl⟩)
    · rcases FreeList.after_eq none left with first | ⟨other, member, last⟩
      · cases first.symm.trans behind
      · obtain rfl : other.start = b := Option.some_inj.mp (last.symm.trans behind)
        refine cells_subset (List.mem_append_left _ member) (Span.start_mem_cells ?_)
        exact spaced.nonempty other (List.mem_append_left _ member)
  obtain ⟨same, pages⟩ := inv.pages_writes writes fun b head => by
    rw [cellsOf_append]
    exact List.mem_append_left _ (inside b head)
  have moved : (cellsOf memHeadSize (left ++ (run.rest memHeadSize nunits ++ right) ++
      ⟨run.start, nunits⟩ :: blocks)).Perm
        (cellsOf memHeadSize (left ++ run :: right ++ blocks)) := by
    simp only [cellsOf_append, cellsOf_cons, split, List.append_assoc]
    refine List.Perm.append_left _ ?_
    exact (List.Perm.append_left _ (List.perm_append_comm_assoc ..)).trans
      (List.perm_append_comm_assoc ..)
  have nodup := moved.nodup_iff.mpr inv.nodup
  rw [cellsOf_append, cellsOf_cons] at nodup
  have apart (other : Span) (member : other ∈ left ++ (run.rest memHeadSize nunits ++ right)) :
      other.start ≠ run.start := by
    intro equal
    refine (List.nodup_append.mp nodup).2.2 _ (cells_subset member
      (Span.start_mem_cells (spaced.nonempty other member))) _ (List.mem_append_left _
        (@Span.start_mem_cells memHeadSize ⟨run.start, nunits⟩ some_)) equal
  refine ⟨pages, ?_, fun block member => ?_, fun block member => ?_, ?_, ?_, fun block member => ?_⟩
  · rw [listed]
    refine (inv.threads.take spaced).move (FreeList.load_setSize ..)
      (fun other _ => FreeList.load_setSize ..) fun other member => ?_
    exact FreeList.size_setSize_of_ne _ _ (apart other member)
  · rcases List.mem_cons.mp member with rfl | member
    · exact (congrFun (congrArg FreeList.size listed) run.start).trans
        (FreeList.size_setSize_self ..)
    · refine @sizes_writes _ _ _ _ _ [] _ _ _ _ inv writes (fun b head => ?_) block member
      rw [List.append_nil]
      exact inside b head
  · rcases List.mem_cons.mp member with rfl | member
    · exact some_
    · exact inv.nonempty block member
  · rw [same]
    exact moved.trans inv.cells
  · rw [writes.pageCnt]
    exact inv.count
  · rcases List.mem_cons.mp member with rfl | member
    · exact head
    · exact inv.heads block member

end ModuleUnits

namespace ModuleInv

variable {grid : Span} {others free nodes blocks : List Span} {block : Span} {m : Nat}
  {mem mem' : ModuleHeap} {self : Option Nat} {prev : Option Nat}

/-- Nodes and blocks do not overlap. -/
theorem pairwise (inv : ModuleInv grid others m mem free nodes blocks) :
    (nodes ++ blocks).Pairwise (Span.Clear memHeadSize) := by
  refine pairwise_clear (fun span => inv.in_grid) (fun span there => ?_) inv.nodup
  exact (List.mem_append.mp there).elim (inv.spaced.nonempty span) (inv.nonempty span)

theorem clear (inv : ModuleInv grid others m mem free nodes (block :: blocks)) :
    ∀ node ∈ nodes, node.Clear memHeadSize block := fun node member =>
  (List.pairwise_append.mp inv.pairwise).2.2 node member block List.mem_cons_self

/-- A block that does not lie at the begin of a page comes back onto the list. -/
theorem give (inv : ModuleInv grid others m mem free nodes (block :: blocks))
    (inside : block.start % pageSize ≠ 0)
    (found : (mem.list m).seek
      (fun b => 0 < mem.size b ∧ (block.start < b ∨ mem.behind b ≤ block.start))
      (fun b => mem.behind b = block.start ∧ block.start % pageSize ≠ 0 ∨
        b = mem.behind block.start ∨ mem.behind block.start < b) none = some prev)
    (step : mem.giveUnits self m block.start prev = some mem') :
    ∃ nodes', ModuleInv grid others m mem' free nodes' blocks := by
  have measure := inv.sizes block List.mem_cons_self
  have some_ := inv.nonempty block List.mem_cons_self
  have clear := inv.clear
  obtain ⟨left, right, rfl, found', above, stops⟩ := @FreeList.Threads.seek_place (mem.list m)
    memHeadSize block nodes (fun b => mem.behind b = block.start ∧ block.start % pageSize ≠ 0 ∨
      b = mem.behind block.start ∨ mem.behind block.start < b) inv.spaced inv.threads (by decide)
      some_ clear fun b => by
    rw [decide_eq_true_iff, and_iff_left inside, ModuleHeap.behind, ModuleHeap.behind, measure]
    rfl
  obtain rfl := Option.some_inj.mp (found.symm.trans found')
  have first : (mem.list m).load (FreeList.after none left) ≠ 0 →
      ∃ run rest, right = run :: rest ∧
        (mem.list m).load (FreeList.after none left) = run.start := by
    intro nonnull
    cases right with
    | nil =>
        have ends := FreeList.threads_nil.mp (FreeList.threads_append.mp inv.threads).2
        exact absurd ends nonnull
    | cons run rest => exact ⟨run, rest, rfl, inv.threads.node.1⟩
  have start_mem {span : Span} (member : span ∈ left ++ right) :
      span.start ∈ span.cells memHeadSize :=
    Span.start_mem_cells (inv.spaced.nonempty span member)
  obtain ⟨mem₁, given, listed, writes⟩ := @ModuleHeap.giveUnits_eq mem m block.start
    (FreeList.after none left) self inside fun nonnull => by
      obtain ⟨run, rest, rfl, points⟩ := first nonnull
      rw [points]
      exact inv.inner run (by simp) _ (start_mem (by simp))
  obtain rfl := Option.some_inj.mp (step.symm.trans given)
  -- Only heads of the block and of nodes are written.
  have heads : ∀ b, (b = block.start ∨ b = (mem.list m).load (FreeList.after none left) ∧ b ≠ 0 ∨
      b ∈ FreeList.after none left) → b ∈ cellsOf memHeadSize ((left ++ right) ++ [block]) := by
    rintro b (rfl | ⟨rfl, nonnull⟩ | behind)
    · exact cells_subset (by simp) (Span.start_mem_cells some_)
    · obtain ⟨run, rest, rfl, points⟩ := first nonnull
      rw [points]
      exact cells_subset (by simp) (start_mem (by simp))
    · rcases FreeList.after_eq none left with start | ⟨node, member, last⟩
      · cases start.symm.trans behind
      · obtain rfl : node.start = b := Option.some_inj.mp (last.symm.trans behind)
        exact cells_subset (by simp [member]) (start_mem (by simp [member]))
  obtain ⟨same, pages, sizes⟩ := inv.writes writes heads
  have nonnull : block.start ≠ 0 := fun null => inside (by rw [null, Nat.zero_mod])
  obtain ⟨nodes', threads, spaced, perm⟩ := inv.threads.give (by decide) inv.spaced nonnull some_
    above (fun b member => clear b (List.mem_append_right _ member)) stops
  rw [← measure, ← listed] at threads
  have within : Inner block :=
    (inv.heads block List.mem_cons_self).resolve_left inside
  refine ⟨nodes', ⟨pages, threads, sizes, ?_, ?_, ?_, ?_⟩, spaced, ?_⟩
  · exact fun other member => inv.nonempty other (List.mem_cons_of_mem _ member)
  · rw [same]
    refine List.Perm.trans ?_ inv.cells
    rw [cellsOf_append, cellsOf_append, cellsOf_cons]
    refine (perm.append_right _).trans ?_
    rw [List.append_assoc]
    exact List.perm_append_comm_assoc ..
  · rw [writes.pageCnt]
    exact inv.count
  · exact fun other member => inv.heads other (List.mem_cons_of_mem _ member)
  · intro node member unit there
    rcases List.mem_append.mp (perm.subset (cells_subset member there)) with given | old
    · exact within unit given
    · obtain ⟨node', known, there'⟩ := List.mem_flatMap.mp old
      exact inv.inner node' known unit there'

theorem setSem (inv : ModuleInv grid others m mem free nodes blocks) (value : BitVec 16) :
    ModuleInv grid others m { mem with modSem := value } free nodes blocks :=
  ⟨inv.toModuleUnits.setSem value, inv.spaced, inv.inner⟩

theorem lock (inv : ModuleInv grid others m mem free nodes blocks) {locked : ModuleHeap}
    (taken : mem.lock = some locked) : ∃ value, locked = { mem with modSem := value } ∧
      ModuleInv grid others m locked free nodes blocks := by
  obtain ⟨value, -, rfl⟩ := Option.map_eq_some_iff.mp taken
  exact ⟨value, rfl, inv.setSem value⟩

/-- `rt_module_free` takes back a block that does not lie at the begin of a page. -/
theorem free_ (inv : ModuleInv grid others m mem free nodes (block :: blocks))
    (inside : block.start % pageSize ≠ 0)
    (step : rtModuleFree mem self m (block.start + memHeadSize) = some mem') :
    ∃ nodes', ModuleInv grid others m mem' free nodes' blocks := by
  obtain ⟨-, step⟩ := Option.ite_none_right_eq_some.mp step
  obtain ⟨locked, taken, step⟩ := Option.bind_eq_some_iff.mp step
  obtain ⟨value, rfl, inv⟩ := inv.lock taken
  dsimp only at step
  rw [Nat.add_sub_cancel] at step
  obtain ⟨prev, found, step⟩ := Option.bind_eq_some_iff.mp step
  obtain ⟨given, gives, made⟩ := Option.bind_eq_some_iff.mp step
  obtain rfl := Option.some_inj.mp made
  obtain ⟨nodes', inv'⟩ := inv.give inside found gives
  exact ⟨nodes', inv'.setSem _⟩

end ModuleInv

end RtThread
