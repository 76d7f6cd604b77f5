import Mathlib

/-!
# Lists of free spans

A span is a number of adjacent cells of one width. An allocator threads its free spans
through their own memory, in the order of their addresses. Whoever walks along the list
holds the place of a pointer, so that he can redirect it.
-/

namespace RtThread.Std

/-- Adjacent cells from the address `start` on. -/
structure Span where
  start : Nat
  length : Nat
deriving DecidableEq, Repr

namespace Span

/-- The address behind the last cell. -/
def finish (width : Nat) (span : Span) : Nat := span.start + width * span.length

def cells (width : Nat) (span : Span) : List Nat :=
  (List.range span.length).map fun index => span.start + width * index

/-- Two spans that do not overlap. -/
def Clear (width : Nat) (a b : Span) : Prop := a.finish width ≤ b.start ∨ b.finish width ≤ a.start

section

variable {width : Nat} {a b c span : Span}

theorem Clear.symm (clear : Clear width a b) : Clear width b a := Or.symm clear

theorem mem_cells {cell : Nat} :
    cell ∈ span.cells width ↔ ∃ index < span.length, span.start + width * index = cell := by
  simp [cells]

theorem start_mem_cells (some_ : 0 < span.length) : span.start ∈ span.cells width :=
  mem_cells.mpr ⟨0, some_, rfl⟩

theorem length_cells (width : Nat) (span : Span) : (span.cells width).length = span.length := by
  simp [cells]

/-- A span is its first cells and the others. -/
theorem cells_split (width start first second : Nat) :
    Span.cells width ⟨start, first + second⟩ =
      Span.cells width ⟨start, first⟩ ++ Span.cells width ⟨start + width * first, second⟩ := by
  simp only [cells, List.range_add, List.map_append, List.map_map]
  refine congrArg _ (List.map_congr_left fun index _ => ?_)
  simp only [Function.comp_apply]
  rw [Nat.mul_add, Nat.add_assoc]

/-- Two spans that touch are one. -/
theorem cells_join (touches : a.finish width = b.start) :
    Span.cells width ⟨a.start, a.length + b.length⟩ = a.cells width ++ b.cells width := by
  rw [cells_split, show a.start + width * a.length = b.start from touches]

theorem finish_join (touches : a.finish width = b.start) :
    Span.finish width ⟨a.start, a.length + b.length⟩ = b.finish width := by
  rw [finish, finish, ← touches, finish, Nat.mul_add, Nat.add_assoc]

theorem nodup_cells (positive : 0 < width) (span : Span) : (span.cells width).Nodup := by
  refine List.Nodup.map_on ?_ List.nodup_range
  intro i _ j _ same
  exact Nat.eq_of_mul_eq_mul_left positive (Nat.add_left_cancel same)

/-- Spans of one grid that share no cell do not overlap. -/
theorem clear_of_disjoint {grid : Span} (inside : a.cells width ⊆ grid.cells width)
    (inside' : b.cells width ⊆ grid.cells width) (some_ : 0 < a.length) (some' : 0 < b.length)
    (disjoint : (a.cells width).Disjoint (b.cells width)) : Clear width a b := by
  obtain ⟨i, -, start⟩ := mem_cells.mp (inside (start_mem_cells some_))
  obtain ⟨j, -, start'⟩ := mem_cells.mp (inside' (start_mem_cells some'))
  by_contra overlap
  obtain ⟨first, second⟩ := not_or.mp overlap
  simp only [finish, ← start, ← start', not_le] at first second
  rcases Nat.le_total i j with before | before
  · refine disjoint (mem_cells.mpr ⟨j - i, ?_, ?_⟩) (start_mem_cells some')
    · rw [Nat.add_assoc, ← Nat.mul_add] at first
      have close := Nat.lt_of_mul_lt_mul_left (Nat.lt_of_add_lt_add_left first)
      omega
    · rw [← start, ← start', Nat.add_assoc, ← Nat.mul_add, Nat.add_sub_cancel' before]
  · refine disjoint (start_mem_cells some_) (mem_cells.mpr ⟨i - j, ?_, ?_⟩)
    · rw [Nat.add_assoc, ← Nat.mul_add] at second
      have close := Nat.lt_of_mul_lt_mul_left (Nat.lt_of_add_lt_add_left second)
      omega
    · rw [← start, ← start', Nat.add_assoc, ← Nat.mul_add, Nat.add_sub_cancel' before]

end

end Span

/-- The cells of all spans. -/
def cellsOf (width : Nat) (spans : List Span) : List Nat := spans.flatMap (Span.cells width)

@[simp] theorem cellsOf_nil (width : Nat) : cellsOf width [] = [] := rfl

@[simp] theorem cellsOf_cons (width : Nat) (span : Span) (spans : List Span) :
    cellsOf width (span :: spans) = span.cells width ++ cellsOf width spans := rfl

@[simp] theorem cellsOf_append (width : Nat) (left right : List Span) :
    cellsOf width (left ++ right) = cellsOf width left ++ cellsOf width right :=
  List.flatMap_append ..

theorem cellsOf_perm {spans spans' : List Span} (width : Nat) (perm : spans.Perm spans') :
    (cellsOf width spans).Perm (cellsOf width spans') :=
  perm.flatMap_right _

theorem cells_subset {width : Nat} {span : Span} {spans : List Span} (member : span ∈ spans) :
    span.cells width ⊆ cellsOf width spans :=
  fun _ cell => List.mem_flatMap.mpr ⟨span, member, cell⟩

/-- Spans that share no cell do not overlap. -/
theorem pairwise_clear {width : Nat} {spans : List Span} {grid : Span}
    (inside : ∀ span ∈ spans, span.cells width ⊆ grid.cells width)
    (nonempty : ∀ span ∈ spans, 0 < span.length) (nodup : (cellsOf width spans).Nodup) :
    spans.Pairwise (Span.Clear width) := by
  refine List.Pairwise.imp_of_mem ?_ (List.nodup_flatMap.mp nodup).2
  exact fun first second disjoint => Span.clear_of_disjoint (inside _ first) (inside _ second)
    (nonempty _ first) (nonempty _ second) disjoint

/-- What is left of a span without its first cells. -/
def Span.rest (width : Nat) (span : Span) (count : Nat) : List Span :=
  if count < span.length then [⟨span.start + width * count, span.length - count⟩] else []

theorem Span.cells_rest {width count : Nat} {span : Span} (fits : count ≤ span.length) :
    span.cells width = Span.cells width ⟨span.start, count⟩ ++
      cellsOf width (span.rest width count) := by
  by_cases less : count < span.length
  · rw [rest, if_pos less, cellsOf_cons, cellsOf_nil, List.append_nil, ← cells_split,
      Nat.add_sub_cancel' fits]
  · rw [rest, if_neg less, cellsOf_nil, List.append_nil, Nat.le_antisymm fits (by omega)]

/-- What is left of a span without some cells in the middle. -/
def Span.cut (width : Nat) (span : Span) (skip count : Nat) : List Span :=
  (if 0 < skip then [⟨span.start, skip⟩] else []) ++ span.rest width (skip + count)

theorem Span.cells_cut {width skip count : Nat} {span : Span}
    (fits : skip + count ≤ span.length) : (span.cells width).Perm
      (Span.cells width ⟨span.start + width * skip, count⟩ ++
        cellsOf width (span.cut width skip count)) := by
  have front : cellsOf width (if 0 < skip then [⟨span.start, skip⟩] else []) =
      Span.cells width ⟨span.start, skip⟩ := by
    by_cases some_ : 0 < skip
    · rw [if_pos some_, cellsOf_cons, cellsOf_nil, List.append_nil]
    · obtain rfl : skip = 0 := by omega
      rfl
  rw [cells_rest fits, cells_split, cut, cellsOf_append, front, List.append_assoc]
  exact List.perm_append_comm_assoc ..

theorem Span.length_pos_cut {width skip count : Nat} {span part : Span}
    (member : part ∈ span.cut width skip count) : 0 < part.length := by
  rcases List.mem_append.mp member with front | behind
  · obtain ⟨some_, front⟩ := List.mem_ite_nil_right.mp front
    exact List.mem_singleton.mp front ▸ some_
  · obtain ⟨less, behind⟩ := List.mem_ite_nil_right.mp behind
    exact List.mem_singleton.mp behind ▸ Nat.sub_pos_of_lt less

/-- Spans in the order of their addresses, none of which touches the next one. -/
structure Spaced (width : Nat) (spans : List Span) : Prop where
  ordered : spans.Pairwise fun a b => a.finish width < b.start
  nonempty : ∀ span ∈ spans, 0 < span.length

namespace Spaced

variable {width : Nat} {spans left right : List Span} {a b : Span}

theorem nil : Spaced width [] := ⟨.nil, by simp⟩

theorem append_iff : Spaced width (left ++ right) ↔ Spaced width left ∧
    Spaced width right ∧ ∀ a ∈ left, ∀ b ∈ right, a.finish width < b.start := by
  constructor
  · rintro ⟨ordered, nonempty⟩
    obtain ⟨before, behind, across⟩ := List.pairwise_append.mp ordered
    exact ⟨⟨before, fun a member => nonempty a (List.mem_append_left _ member)⟩,
      ⟨behind, fun b member => nonempty b (List.mem_append_right _ member)⟩, across⟩
  · rintro ⟨before, behind, across⟩
    refine ⟨List.pairwise_append.mpr ⟨before.ordered, behind.ordered, across⟩, ?_⟩
    intro span member
    exact (List.mem_append.mp member).elim (before.nonempty span) (behind.nonempty span)

theorem cons_iff : Spaced width (a :: right) ↔ 0 < a.length ∧ Spaced width right ∧
    ∀ b ∈ right, a.finish width < b.start := by
  constructor
  · rintro ⟨ordered, nonempty⟩
    obtain ⟨across, behind⟩ := List.pairwise_cons.mp ordered
    exact ⟨nonempty a (by simp), ⟨behind, fun b member => nonempty b (by simp [member])⟩, across⟩
  · rintro ⟨some_, behind, across⟩
    refine ⟨List.pairwise_cons.mpr ⟨across, behind.ordered⟩, ?_⟩
    intro span member
    rcases List.mem_cons.mp member with rfl | member
    · exact some_
    · exact behind.nonempty span member

theorem start_lt (spaced : Spaced width (a :: right)) :
    ∀ b ∈ right, a.start < b.start := by
  intro b member
  have across := (cons_iff.mp spaced).2.2 b member
  rw [Span.finish] at across
  omega

/-- A span between others that do not touch it. -/
theorem put {span : Span} (before : Spaced width left) (behind : Spaced width right)
    (some_ : 0 < span.length) (above : ∀ a ∈ left, a.finish width < span.start)
    (below : ∀ b ∈ right, span.finish width < b.start) :
    Spaced width (left ++ span :: right) := by
  refine append_iff.mpr ⟨before, cons_iff.mpr ⟨some_, behind, below⟩, fun a member b there => ?_⟩
  have first := above a member
  rcases List.mem_cons.mp there with rfl | there
  · exact first
  · have second := below b there
    rw [Span.finish] at second
    omega

/-- The cells of one span lie between the other spans. -/
theorem around {span : Span} (spaced : Spaced width (left ++ span :: right)) :
    Spaced width left ∧ 0 < span.length ∧ Spaced width right ∧
      (∀ a ∈ left, a.finish width < span.start) ∧ ∀ b ∈ right, span.finish width < b.start := by
  obtain ⟨before, behind, across⟩ := append_iff.mp spaced
  obtain ⟨some_, behind, below⟩ := cons_iff.mp behind
  exact ⟨before, some_, behind, fun a member => across a member span List.mem_cons_self, below⟩

/-- The first cells of a span are taken. -/
theorem take {span : Span} {count : Nat} (spaced : Spaced width (left ++ span :: right))
    (fits : count ≤ span.length) : Spaced width (left ++ (span.rest width count ++ right)) := by
  obtain ⟨before, some_, behind, above, below⟩ := spaced.around
  by_cases less : count < span.length
  · rw [Span.rest, if_pos less]
    refine put before behind (Nat.sub_pos_of_lt less) (fun a member => ?_) fun b member => ?_
    · exact Nat.lt_of_lt_of_le (above a member) (Nat.le_add_right ..)
    · have next := below b member
      rw [Span.finish] at next ⊢
      rwa [Nat.add_assoc, ← Nat.mul_add, Nat.add_sub_cancel' fits]
  · rw [Span.rest, if_neg less, List.nil_append]
    refine append_iff.mpr ⟨before, behind, fun a member b there => ?_⟩
    have first := above a member
    have second := below b there
    rw [Span.finish] at second
    omega

/-- What is left of a span lies between the spans around it. -/
theorem put_rest {span : Span} {count : Nat} (spaced : Spaced width (left ++ right))
    (positive : 0 < width * count) (fits : count ≤ span.length)
    (above : ∀ a ∈ left, a.finish width ≤ span.start)
    (below : ∀ b ∈ right, span.finish width < b.start) :
    Spaced width (left ++ (span.rest width count ++ right)) := by
  obtain ⟨before, behind, -⟩ := append_iff.mp spaced
  by_cases less : count < span.length
  · rw [Span.rest, if_pos less]
    refine put before behind (Nat.sub_pos_of_lt less) (fun a member => ?_) fun b member => ?_
    · have lower := above a member
      dsimp only
      omega
    · have upper := below b member
      rw [Span.finish] at upper ⊢
      rwa [Nat.add_assoc, ← Nat.mul_add, Nat.add_sub_cancel' fits]
  · rwa [Span.rest, if_neg less, List.nil_append]

theorem nodup (spaced : Spaced width spans) : (spans.map Span.start).Nodup := by
  refine List.Pairwise.map _ ?_ spaced.ordered
  intro a b apart
  rw [Span.finish] at apart
  omega

end Spaced

/-! ## Lists in memory -/

/-- The pointer at `none` points at the first node and the one at `some node` at the next
node; 0 is behind the last one. -/
structure FreeList where
  head : Nat
  next : Nat → Nat
  size : Nat → Nat

namespace FreeList

def load (list : FreeList) : Option Nat → Nat
  | none => list.head
  | some node => list.next node

def store (list : FreeList) (target : Nat) : Option Nat → FreeList
  | none => { list with head := target }
  | some node => { list with next := Function.update list.next node target }

def setSize (list : FreeList) (node size : Nat) : FreeList :=
  { list with size := Function.update list.size node size }

/-- Walk on from the pointer at `prev` until it points at a node where to `stop`, or at none.
Each node must pass a `check`. -/
def seek (list : FreeList) (check stop : Nat → Bool) (prev : Option Nat) : Option (Option Nat) :=
  if list.load prev = 0 then some prev
  else if check (list.load prev) then
    if stop (list.load prev) then some prev
    else list |>.seek check stop (some (list.load prev))
  else none
partial_fixpoint

/-- A search may stop where it begins. -/
theorem seek_first {list : FreeList} {check stop : Nat → Bool} {prev : Option Nat}
    (nonnull : list.load prev ≠ 0) (good : check (list.load prev) = true)
    (stops : stop (list.load prev) = true) : list.seek check stop prev = some prev := by
  rw [seek, if_neg nonnull, if_pos good, if_pos stops]

section

variable (list : FreeList) (target node size : Nat) (prev : Option Nat)

@[simp] theorem load_store_self : (list.store target prev).load prev = target := by
  cases prev <;> simp [load, store]

theorem load_store_of_ne {prev prev' : Option Nat} (apart : prev' ≠ prev) :
    (list.store target prev).load prev' = list.load prev' := by
  cases prev with
  | none =>
      cases prev' with
      | none => exact absurd rfl apart
      | some node => rfl
  | some node =>
      cases prev' with
      | none => rfl
      | some other =>
          have differ : other ≠ node := fun same => apart (congrArg some same)
          simp [load, store, differ]

@[simp] theorem size_store : (list.store target prev).size = list.size := by
  cases prev <;> rfl

@[simp] theorem load_setSize : (list.setSize node size).load prev = list.load prev := by
  cases prev <;> rfl

@[simp] theorem size_setSize_self : (list.setSize node size).size node = size := by
  simp [setSize]

theorem size_setSize_of_ne {node other : Nat} (apart : other ≠ node) :
    (list.setSize node size).size other = list.size other := by
  simp [setSize, apart]

end

/-- The place of the pointer behind some spans. -/
def after : Option Nat → List Span → Option Nat
  | prev, [] => prev
  | _, span :: spans => after (some span.start) spans

/-- The places of the pointers that lead to some spans. -/
def places : Option Nat → List Span → List (Option Nat)
  | _, [] => []
  | prev, span :: spans => prev :: places (some span.start) spans

/-- The pointer at `prev` leads along `spans`, whose lengths the nodes store. -/
def Leads (list : FreeList) : Option Nat → List Span → Prop
  | _, [] => True
  | prev, span :: spans => (list.load prev = span.start ∧ span.start ≠ 0 ∧
      list.size span.start = span.length) ∧ list.Leads (some span.start) spans

/-- The pointer at `prev` leads along `spans` and to the end of the list. -/
structure Threads (list : FreeList) (prev : Option Nat) (spans : List Span) : Prop where
  leads : list.Leads prev spans
  ends : list.load (after prev spans) = 0

section

variable {list list' : FreeList} {prev place : Option Nat} {spans left right : List Span}
  {span : Span} {check stop : Nat → Bool}

theorem after_append (prev : Option Nat) (left right : List Span) :
    after prev (left ++ right) = after (after prev left) right := by
  induction left generalizing prev with
  | nil => rfl
  | cons span left ih => exact ih (some span.start)

theorem after_concat (prev : Option Nat) (left : List Span) (span : Span) :
    after prev (left ++ [span]) = some span.start := after_append ..

theorem mem_places (member : place ∈ places prev spans) :
    place = prev ∨ ∃ span ∈ spans, place = some span.start := by
  induction spans generalizing prev with
  | nil => cases member
  | cons span spans ih =>
      rcases List.mem_cons.mp member with rfl | member
      · exact Or.inl rfl
      · rcases ih member with rfl | ⟨other, there, rfl⟩
        · exact Or.inr ⟨span, by simp, rfl⟩
        · exact Or.inr ⟨other, by simp [there], rfl⟩

theorem after_eq (prev : Option Nat) (spans : List Span) :
    after prev spans = prev ∨ ∃ span ∈ spans, after prev spans = some span.start := by
  induction spans generalizing prev with
  | nil => exact Or.inl rfl
  | cons span spans ih =>
      rcases ih (some span.start) with same | ⟨other, there, same⟩
      · exact Or.inr ⟨span, by simp, same⟩
      · exact Or.inr ⟨other, by simp [there], same⟩

/-- The place behind some spans is none of the places before it. -/
theorem after_notMem_places (fresh : ∀ span ∈ spans, prev ≠ some span.start)
    (nodup : (spans.map Span.start).Nodup) : after prev spans ∉ places prev spans := by
  induction spans generalizing prev with
  | nil => exact List.not_mem_nil
  | cons span spans ih =>
      obtain ⟨outside, nodup⟩ := List.nodup_cons.mp nodup
      have later : ∀ other ∈ spans, some span.start ≠ some other.start := by
        intro other there same
        rw [Option.some.injEq] at same
        exact outside (same ▸ List.mem_map_of_mem there)
      have tail := ih later nodup
      rw [places, List.mem_cons, not_or]
      refine ⟨?_, tail⟩
      rcases after_eq (some span.start) spans with same | ⟨other, there, same⟩
      · exact fun back => fresh span (by simp) (back.symm.trans same)
      · exact fun back => fresh other (by simp [there]) (back.symm.trans same)

theorem leads_append : list.Leads prev (left ++ right) ↔
    list.Leads prev left ∧ list.Leads (after prev left) right := by
  induction left generalizing prev with
  | nil => simp [Leads, after]
  | cons span left ih => simp [Leads, after, ih, and_assoc]

theorem threads_append : list.Threads prev (left ++ right) ↔
    list.Leads prev left ∧ list.Threads (after prev left) right := by
  constructor
  · rintro ⟨leads, ends⟩
    obtain ⟨before, behind⟩ := leads_append.mp leads
    exact ⟨before, behind, by rwa [← after_append]⟩
  · rintro ⟨before, behind, ends⟩
    exact ⟨leads_append.mpr ⟨before, behind⟩, by rwa [after_append]⟩

theorem threads_nil : list.Threads prev [] ↔ list.load prev = 0 :=
  ⟨fun threads => threads.ends, fun ends => ⟨trivial, ends⟩⟩

theorem threads_cons : list.Threads prev (span :: spans) ↔
    (list.load prev = span.start ∧ span.start ≠ 0 ∧ list.size span.start = span.length) ∧
      list.Threads (some span.start) spans := by
  constructor
  · rintro ⟨⟨here, behind⟩, ends⟩
    exact ⟨here, behind, ends⟩
  · rintro ⟨here, behind, ends⟩
    exact ⟨⟨here, behind⟩, ends⟩

/-- Only the pointers and the sizes that are read matter. -/
theorem Leads.congr (leads : list.Leads prev spans)
    (load : ∀ place ∈ places prev spans, list'.load place = list.load place)
    (size : ∀ span ∈ spans, list'.size span.start = list.size span.start) :
    list'.Leads prev spans := by
  induction spans generalizing prev with
  | nil => trivial
  | cons span spans ih =>
      obtain ⟨⟨points, nonnull, measure⟩, behind⟩ := leads
      refine ⟨⟨(load prev (by simp [places])).trans points, nonnull,
        (size span (by simp)).trans measure⟩, ih behind ?_ ?_⟩
      · exact fun place member => load place (by simp [places, member])
      · exact fun other member => size other (by simp [member])

/-- The rest of a list hangs at another place, or in another list. -/
theorem Threads.move {place : Option Nat} (threads : list.Threads prev spans)
    (first : list'.load place = list.load prev)
    (load : ∀ span ∈ spans, list'.load (some span.start) = list.load (some span.start))
    (size : ∀ span ∈ spans, list'.size span.start = list.size span.start) :
    list'.Threads place spans := by
  induction spans generalizing prev place with
  | nil => exact threads_nil.mpr (first.trans (threads_nil.mp threads))
  | cons span spans ih =>
      obtain ⟨⟨points, nonnull, measure⟩, behind⟩ := threads_cons.mp threads
      refine threads_cons.mpr ⟨⟨first.trans points, nonnull, (size span (by simp)).trans measure⟩,
        ih behind (load span (by simp)) ?_ ?_⟩
      · exact fun other member => load other (by simp [member])
      · exact fun other member => size other (by simp [member])

/-- Where a walk along a list ends. -/
theorem Threads.seek (threads : list.Threads prev spans)
    (passes : ∀ left span right, spans = left ++ span :: right →
      (∀ earlier ∈ left, stop earlier.start = false) → check span.start = true) :
    ∃ left right, spans = left ++ right ∧ list.seek check stop prev = some (after prev left) ∧
      (∀ span ∈ left, stop span.start = false) ∧ ∀ span ∈ right.head?, stop span.start = true := by
  induction spans generalizing prev with
  | nil =>
      refine ⟨[], [], rfl, ?_, by simp, by simp⟩
      rw [FreeList.seek, if_pos (threads_nil.mp threads)]
      rfl
  | cons span spans ih =>
      obtain ⟨⟨points, nonnull, -⟩, behind⟩ := threads_cons.mp threads
      have good := passes [] span spans rfl (by simp)
      by_cases stops : stop span.start = true
      · refine ⟨[], span :: spans, rfl, ?_, by simp, by simpa using stops⟩
        rw [FreeList.seek, points, if_neg nonnull, if_pos good, if_pos stops]
        rfl
      · have goes : stop span.start = false := Bool.not_eq_true _ ▸ stops
        obtain ⟨left, right, rfl, found, passed, stopped⟩ := ih behind (by
          rintro left other right rfl earlier
          refine passes (span :: left) other right rfl fun before member => ?_
          rcases List.mem_cons.mp member with rfl | member
          · exact goes
          · exact earlier before member)
        refine ⟨span :: left, right, rfl, ?_, ?_, stopped⟩
        · rw [FreeList.seek, points, if_neg nonnull, if_pos good, if_neg stops]
          exact found
        · intro other member
          rcases List.mem_cons.mp member with rfl | member
          · exact goes
          · exact passed other member

/-- A walk along the list ends at the first node where to stop. -/
theorem Threads.seek_at (threads : list.Threads prev (left ++ span :: right))
    (goes : ∀ node ∈ left, stop node.start = false) (stops : stop span.start = true) :
    list.seek (fun _ => true) stop prev = some (after prev left) := by
  induction left generalizing prev with
  | nil =>
      obtain ⟨⟨points, nonnull, -⟩, -⟩ := threads_cons.mp threads
      rw [FreeList.seek, points, if_neg nonnull, if_pos rfl, if_pos stops]
      rfl
  | cons node left ih =>
      obtain ⟨⟨points, nonnull, -⟩, behind⟩ := threads_cons.mp threads
      have passed : ¬ stop node.start = true := ne_true_of_eq_false (goes node List.mem_cons_self)
      rw [FreeList.seek, points, if_neg nonnull, if_pos rfl, if_neg passed]
      exact ih behind fun other member => goes other (List.mem_cons_of_mem _ member)

/-- The list determines its spans. -/
theorem Threads.unique {spans' : List Span} (threads : list.Threads prev spans)
    (threads' : list.Threads prev spans') : spans = spans' := by
  induction spans generalizing prev spans' with
  | nil =>
      cases spans' with
      | nil => rfl
      | cons span spans' =>
          obtain ⟨⟨points, nonnull, -⟩, -⟩ := threads_cons.mp threads'
          exact absurd (points.symm.trans (threads_nil.mp threads)) nonnull
  | cons span spans ih =>
      obtain ⟨⟨points, nonnull, measure⟩, behind⟩ := threads_cons.mp threads
      cases spans' with
      | nil => exact absurd (points.symm.trans (threads_nil.mp threads')) nonnull
      | cons span' spans' =>
          obtain ⟨⟨points', -, measure'⟩, behind'⟩ := threads_cons.mp threads'
          have start := points.symm.trans points'
          have length : span.length = span'.length := by rw [← measure, ← measure', start]
          obtain ⟨start', length'⟩ := span'
          obtain rfl : span = ⟨start', length'⟩ := by
            cases span
            simp_all
          rw [ih behind behind']

/-- Where the pointers of a list are. -/
def Place (prev : Option Nat) (spans : List Span) (place : Option Nat) : Prop :=
  place = prev ∨ ∃ span ∈ spans, place = some span.start

/-- What does not change when the pointer behind `left` is redirected: the list up to there,
and the rest of it behind `olds`, wherever it hangs. -/
theorem Threads.keep {olds : List Span} (threads : list.Threads none (left ++ (olds ++ right)))
    (nodup : ((left ++ right).map Span.start).Nodup)
    (load : ∀ place, Place none (left ++ right) place → place ≠ after none left →
      list'.load place = list.load place)
    (size : ∀ span ∈ left ++ right, list'.size span.start = list.size span.start) :
    list'.Leads none left ∧
      ∀ place, list'.load place = list.load (after none (left ++ olds)) →
        list'.Threads place right := by
  obtain ⟨leads, behind⟩ := threads_append.mp threads
  obtain ⟨-, behind⟩ := threads_append.mp behind
  rw [List.map_append] at nodup
  obtain ⟨before, -, apart⟩ := List.nodup_append.mp nodup
  refine ⟨leads.congr ?_ ?_, fun place first => behind.move ?_ ?_ ?_⟩
  · intro place member
    refine load place ?_ ?_
    · refine (mem_places member).imp_right fun ⟨span, there, same⟩ => ?_
      exact ⟨span, List.mem_append_left _ there, same⟩
    · rintro rfl
      exact after_notMem_places (by simp) before member
  · exact fun span member => size span (List.mem_append_left _ member)
  · rw [first, after_append]
  · intro span member
    refine load _ (Or.inr ⟨span, List.mem_append_right _ member, rfl⟩) fun same => ?_
    rcases after_eq none left with start | ⟨earlier, there, start⟩
    · exact Option.some_ne_none _ (same.trans start)
    · have equal : span.start = earlier.start := Option.some_inj.mp (same.trans start)
      exact apart _ (List.mem_map_of_mem there) _ (List.mem_map_of_mem member) equal.symm
  · exact fun span member => size span (List.mem_append_right _ member)

/-- Redirect the pointer behind `left`, so that it leads past `olds`. -/
theorem Threads.drop {olds : List Span} (threads : list.Threads none (left ++ (olds ++ right)))
    (nodup : ((left ++ right).map Span.start).Nodup)
    (here : list'.load (after none left) = list.load (after none (left ++ olds)))
    (load : ∀ place, Place none (left ++ right) place → place ≠ after none left →
      list'.load place = list.load place)
    (size : ∀ span ∈ left ++ right, list'.size span.start = list.size span.start) :
    list'.Threads none (left ++ right) := by
  obtain ⟨leads, rest⟩ := threads.keep nodup load size
  exact threads_append.mpr ⟨leads, rest _ here⟩

/-- Redirect the pointer behind `left` to a node that leads past `olds`. -/
theorem Threads.put {olds : List Span} (threads : list.Threads none (left ++ (olds ++ right)))
    (nodup : ((left ++ right).map Span.start).Nodup) (nonnull : span.start ≠ 0)
    (here : list'.load (after none left) = span.start)
    (onward : list'.load (some span.start) = list.load (after none (left ++ olds)))
    (measure : list'.size span.start = span.length)
    (load : ∀ place, Place none (left ++ right) place → place ≠ after none left →
      list'.load place = list.load place)
    (size : ∀ other ∈ left ++ right, list'.size other.start = list.size other.start) :
    list'.Threads none (left ++ span :: right) := by
  obtain ⟨leads, rest⟩ := threads.keep nodup load size
  exact threads_append.mpr
    ⟨leads, threads_cons.mpr ⟨⟨here, nonnull, measure⟩, rest _ onward⟩⟩

theorem setSize_store (list : FreeList) (target node size : Nat) (prev : Option Nat) :
    (list.store target prev).setSize node size = (list.setSize node size).store target prev := by
  cases prev <;> rfl

@[simp] theorem setSize_size (list : FreeList) (node : Nat) :
    list.setSize node (list.size node) = list := by
  simp [setSize]

@[simp] theorem setSize_setSize (list : FreeList) (node first second : Nat) :
    (list.setSize node first).setSize node second = list.setSize node second := by
  simp [setSize]

/-- To redirect a pointer to where it points changes nothing. -/
theorem store_load (list : FreeList) (prev : Option Nat) :
    list.store (list.load prev) prev = list := by
  cases prev <;> simp [store, load]

/-- The place behind the earlier spans is not that of the pointer in a later one. -/
theorem after_ne (nodup : ((left ++ span :: right).map Span.start).Nodup) :
    after none left ≠ some span.start := by
  intro same
  rw [List.map_append, List.map_cons] at nodup
  obtain ⟨-, -, apart⟩ := List.nodup_append.mp nodup
  rcases after_eq none left with start | ⟨earlier, there, start⟩
  · cases start.symm.trans same
  · have equal : earlier.start = span.start := Option.some_inj.mp (start.symm.trans same)
    exact apart _ (List.mem_map_of_mem there) _ List.mem_cons_self equal

/-- The node of `span` is written, and the pointer behind `left` redirected to it, so that
both lead past `olds`. -/
theorem Threads.link {olds : List Span} (threads : list.Threads none (left ++ (olds ++ right)))
    (nodup : ((left ++ span :: right).map Span.start).Nodup) (nonnull : span.start ≠ 0) :
    (((list.setSize span.start span.length).store (list.load (after none (left ++ olds)))
      (some span.start)).store span.start (after none left)).Threads none
        (left ++ span :: right) := by
  have place := after_ne nodup
  have without : ((left ++ right).map Span.start).Nodup := by
    rw [List.map_append, List.map_cons] at nodup
    rw [List.map_append]
    exact nodup.sublist (List.Sublist.append_left (List.sublist_cons_self _ _) _)
  have apart : ∀ other ∈ left ++ right, other.start ≠ span.start := by
    rw [List.map_append, List.map_cons] at nodup
    have outside := (List.nodup_cons.mp (List.nodup_middle.mp nodup)).1
    rw [← List.map_append] at outside
    rintro other member same
    exact outside (same ▸ List.mem_map_of_mem member)
  refine threads.put without nonnull ?_ ?_ ?_ ?_ ?_
  · simp
  · rw [load_store_of_ne _ _ place.symm, load_store_self]
  · simp
  · intro other member differ
    rw [load_store_of_ne _ _ differ, load_store_of_ne, load_setSize]
    rintro rfl
    rcases member with same | ⟨earlier, member, same⟩
    · cases same
    · exact apart earlier member (Option.some_inj.mp same).symm
  · intro other member
    simp [size_setSize_of_ne _ _ (apart other member)]

/-- A span grows over those behind it. -/
theorem Threads.grow {olds : List Span} {length : Nat}
    (threads : list.Threads none (left ++ (span :: olds ++ right)))
    (nodup : ((left ++ span :: right).map Span.start).Nodup) :
    ((list.setSize span.start length).store (list.load (after none (left ++ span :: olds)))
      (some span.start)).Threads none (left ++ ⟨span.start, length⟩ :: right) := by
  obtain ⟨-, behind⟩ := threads_append.mp threads
  obtain ⟨⟨points, nonnull, -⟩, -⟩ := threads_cons.mp behind
  have distinct : ((left ++ ⟨span.start, length⟩ :: right).map Span.start).Nodup := by
    simpa using nodup
  have linked := Threads.link threads distinct nonnull
  have same : ((list.setSize span.start length).store
      (list.load (after none (left ++ span :: olds))) (some span.start)).load (after none left) =
        span.start := by
    rw [load_store_of_ne _ _ (after_ne nodup), load_setSize, points]
  have kept := store_load ((list.setSize span.start length).store
    (list.load (after none (left ++ span :: olds))) (some span.start)) (after none left)
  rw [same] at kept
  rwa [kept] at linked

end

/-! ## Giving and taking -/

/-- Take the first cells of the node that the pointer at `prev` points at, or all of them. -/
def take (list : FreeList) (width : Nat) (prev : Option Nat) (count : Nat) : FreeList :=
  let b := list.load prev
  if count < list.size b then
    let n := b + width * count
    ((list.setSize n (list.size b - count)).store (list.next b) (some n)).store n prev
  else list.store (list.next b) prev

/-- Join some cells with the node that the pointer at `prev` points at, or link them in front of
it. -/
def give (list : FreeList) (width : Nat) (prev : Option Nat) (n count : Nat) : FreeList :=
  let b := list.load prev
  if b ≠ 0 ∧ b + width * list.size b = n then
    if b + width * (list.size b + count) = list.next b then
      (list.setSize b (list.size b + count + list.size (list.next b))).store
        (list.next (list.next b)) (some b)
    else list.setSize b (list.size b + count)
  else if b ≠ 0 ∧ b = n + width * count then
    ((list.setSize n (list.size b + count)).store (list.next b) (some n)).store n prev
  else ((list.setSize n count).store b (some n)).store n prev

section

variable {list : FreeList} {width count : Nat} {left right : List Span} {run next given : Span}

/-- What the node behind the earlier ones says. -/
theorem Threads.node (threads : list.Threads none (left ++ run :: right)) :
    list.load (after none left) = run.start ∧ run.start ≠ 0 ∧ list.size run.start = run.length := by
  obtain ⟨-, behind⟩ := threads_append.mp threads
  exact (threads_cons.mp behind).1

theorem Threads.node_of_mem {spans : List Span} (threads : list.Threads none spans)
    (member : run ∈ spans) : run.start ≠ 0 ∧ list.size run.start = run.length := by
  obtain ⟨left, right, rfl⟩ := List.append_of_mem member
  exact threads.node.2

/-- The first cells of a node are taken, or the whole of it. -/
theorem Threads.take (threads : list.Threads none (left ++ run :: right))
    (left' : Spaced width (left ++ (run.rest width count ++ right))) :
    (list.take width (after none left) count).Threads none
      (left ++ (run.rest width count ++ right)) := by
  obtain ⟨points, nonnull, measure⟩ := threads.node
  replace threads : list.Threads none (left ++ ([run] ++ right)) := threads
  have onward : list.load (after none (left ++ [run])) = list.next run.start := by
    rw [after_concat]
    rfl
  rw [FreeList.take, points, measure]
  dsimp only
  by_cases less : count < run.length
  · rw [Span.rest, if_pos less] at left' ⊢
    rw [if_pos less, ← onward]
    refine @Threads.link _ left right ⟨_, _⟩ [run] threads left'.nodup ?_
    exact Nat.ne_of_gt (Nat.add_pos_left (Nat.pos_of_ne_zero nonnull) _)
  · rw [Span.rest, if_neg less] at left' ⊢
    rw [if_neg less, ← onward]
    refine threads.drop left'.nodup ?_ (fun other _ differ => ?_) fun other _ => ?_
    · simp
    · rw [load_store_of_ne _ _ differ]
    · simp

/-- Cells behind a node, and in front of another one, join the two. -/
theorem Threads.give_between (spaced : Spaced width (left ++ run :: next :: right))
    (threads : list.Threads none (left ++ run :: next :: right))
    (touches : run.finish width = given.start) (reaches : given.finish width = next.start) :
    (list.give width (after none left) given.start given.length).Threads none
      (left ++ ⟨run.start, run.length + given.length + next.length⟩ :: right) := by
  obtain ⟨points, known, measure⟩ := threads.node
  obtain ⟨-, behind⟩ := threads_append.mp threads
  obtain ⟨-, behind⟩ := threads_cons.mp behind
  obtain ⟨⟨onto, -, measure'⟩, -⟩ := threads_cons.mp behind
  replace onto : list.next run.start = next.start := onto
  have nodup := spaced.nodup
  rw [List.map_append, List.map_cons, List.map_cons] at nodup
  have onward : list.load (after none (left ++ [run, next])) = list.next next.start := by
    rw [after_append]
    rfl
  have closes : run.start + width * (run.length + given.length) = next.start := by
    rw [← reaches, Span.finish, ← touches, Span.finish, Nat.mul_add, Nat.add_assoc]
  rw [give, points, measure]
  rw [if_pos ⟨known, touches⟩, onto, if_pos closes, measure', ← onward]
  refine @Threads.grow _ left right run [next] _ threads ?_
  rw [List.map_append, List.map_cons]
  refine nodup.sublist (List.Sublist.append_left ?_ _)
  exact (List.sublist_cons_self _ _).cons_cons _

/-- Cells behind a node are joined with it. -/
theorem Threads.give_behind (spaced : Spaced width (left ++ run :: right))
    (threads : list.Threads none (left ++ run :: right))
    (touches : run.finish width = given.start)
    (below : ∀ b ∈ right, given.finish width < b.start) :
    (list.give width (after none left) given.start given.length).Threads none
      (left ++ ⟨run.start, run.length + given.length⟩ :: right) := by
  obtain ⟨points, known, measure⟩ := threads.node
  have open_ : run.start + width * (run.length + given.length) ≠ list.next run.start := by
    have reaches : run.start + width * (run.length + given.length) = given.finish width := by
      rw [Span.finish, ← touches, Span.finish, Nat.mul_add, Nat.add_assoc]
    obtain ⟨-, behind⟩ := threads_append.mp threads
    obtain ⟨-, behind⟩ := threads_cons.mp behind
    rw [reaches]
    cases right with
    | nil =>
        have ends : list.next run.start = 0 := threads_nil.mp behind
        rw [ends, Span.finish, ← touches, Span.finish]
        omega
    | cons next right =>
        have onto : list.next run.start = next.start := (threads_cons.mp behind).1.1
        rw [onto]
        exact (below next List.mem_cons_self).ne
  rw [give, points, measure]
  rw [if_pos ⟨known, touches⟩, if_neg open_]
  replace threads : list.Threads none (left ++ ([run] ++ right)) := threads
  have grown := @Threads.grow _ left right run [] (run.length + given.length) threads spaced.nodup
  have kept := store_load (list.setSize run.start (run.length + given.length)) (some run.start)
  rw [load_setSize] at kept
  rwa [after_concat, kept] at grown

/-- Cells in front of a node are joined with it. -/
theorem Threads.give_before (positive : 0 < width)
    (spaced : Spaced width (left ++ ⟨given.start, run.length + given.length⟩ :: right))
    (threads : list.Threads none (left ++ run :: right)) (nonnull : given.start ≠ 0)
    (touches : run.start = given.finish width) (some_ : 0 < run.length) :
    (list.give width (after none left) given.start given.length).Threads none
      (left ++ ⟨given.start, run.length + given.length⟩ :: right) := by
  obtain ⟨points, known, measure⟩ := threads.node
  have onward : list.load (after none (left ++ [run])) = list.next run.start := by
    rw [after_concat]
    rfl
  have far : ¬(run.start ≠ 0 ∧ run.start + width * run.length = given.start) := by
    rintro ⟨-, back⟩
    rw [Span.finish] at touches
    have more := Nat.mul_pos positive some_
    omega
  rw [give, points, measure]
  rw [if_neg far, if_pos ⟨known, touches⟩, ← onward]
  replace threads : list.Threads none (left ++ ([run] ++ right)) := threads
  exact @Threads.link _ left right ⟨_, _⟩ [run] threads spaced.nodup nonnull

/-- Cells that touch no node become a node of their own. -/
theorem Threads.give_apart (spaced : Spaced width (left ++ given :: right))
    (threads : list.Threads none (left ++ right)) (nonnull : given.start ≠ 0) :
    (list.give width (after none left) given.start given.length).Threads none
      (left ++ given :: right) := by
  have inserted : list.give width (after none left) given.start given.length =
      ((list.setSize given.start given.length).store (list.load (after none left))
        (some given.start)).store given.start (after none left) := by
    rw [give]
    cases right with
    | nil =>
        have ends := threads_nil.mp (threads_append.mp threads).2
        rw [if_neg fun both => both.1 ends, if_neg fun both => both.1 ends]
    | cons run right =>
        obtain ⟨points, -, measure⟩ := threads.node
        have below := spaced.around.2.2.2.2 run List.mem_cons_self
        rw [Span.finish] at below
        rw [points, measure, if_neg fun both => absurd both.2 (by omega),
          if_neg fun both => absurd both.2 (by omega)]
  rw [inserted]
  have linked := @Threads.link _ left right given [] threads spaced.nodup nonnull
  rwa [List.append_nil] at linked

/-- Where a walk along the list ends that looks for the place of some cells. -/
theorem Threads.seek_place {free : List Span} {stop : Nat → Bool} (spaced : Spaced width free)
    (threads : list.Threads none free) (positive : 0 < width) (some_ : 0 < given.length)
    (clear : ∀ run ∈ free, run.Clear width given)
    (stop_iff : ∀ b, stop b = true ↔ b + width * list.size b = given.start ∨
      b = given.start + width * given.length ∨ given.start + width * given.length < b) :
    ∃ left right, free = left ++ right ∧
      list.seek (fun b => 0 < list.size b ∧
        (given.start < b ∨ b + width * list.size b ≤ given.start)) stop none =
          some (after none left) ∧
      (∀ a ∈ left, a.finish width < given.start) ∧
      ∀ b ∈ right.head?, b.finish width = given.start ∨
        b.start = given.finish width ∨ given.finish width < b.start := by
  have sizes (run : Span) (member : run ∈ free) : list.size run.start = run.length :=
    (threads.node_of_mem member).2
  have more := Nat.mul_pos positive some_
  obtain ⟨left, right, rfl, found, passed, stops⟩ := @Threads.seek list none free
    (fun b => 0 < list.size b ∧ (given.start < b ∨ b + width * list.size b ≤ given.start)) stop
    threads (by
      rintro left run right rfl -
      have member : run ∈ left ++ run :: right := by simp
      refine decide_eq_true ?_
      rw [sizes run member]
      refine ⟨spaced.nonempty run member, ?_⟩
      rcases clear run member with under | behind
      · exact Or.inr under
      · rw [Span.finish] at behind
        exact Or.inl (by omega))
  refine ⟨left, right, rfl, found, fun a member => ?_, fun b member => ?_⟩
  · have inside := List.mem_append_left right member
    have goes := mt (stop_iff a.start).mpr (ne_true_of_eq_false (passed a member))
    rw [sizes a inside] at goes
    have apart := clear a inside
    simp only [Span.Clear, Span.finish, not_or] at goes apart ⊢
    omega
  · have stop := (stop_iff b.start).mp (stops b member)
    rwa [sizes b (List.mem_append_right _ (List.mem_of_mem_head? member))] at stop

/-- Cells that are in no node are put where a walk along the list ends. -/
theorem Threads.give (positive : 0 < width) (spaced : Spaced width (left ++ right))
    (threads : list.Threads none (left ++ right)) (nonnull : given.start ≠ 0)
    (some_ : 0 < given.length) (above : ∀ a ∈ left, a.finish width < given.start)
    (clear : ∀ b ∈ right, b.Clear width given)
    (stops : ∀ b ∈ right.head?, b.finish width = given.start ∨
      b.start = given.finish width ∨ given.finish width < b.start) :
    ∃ free, (list.give width (after none left) given.start given.length).Threads none free ∧
      Spaced width free ∧
      (cellsOf width free).Perm (given.cells width ++ cellsOf width (left ++ right)) := by
  obtain ⟨before, behind, across⟩ := Spaced.append_iff.mp spaced
  have count (first second third : List Nat) :
      (first ++ (second ++ third)).Perm (second ++ (first ++ third)) :=
    List.perm_append_comm_assoc ..
  by_cases apart : ∀ b ∈ right, given.finish width < b.start
  · have spaced' := before.put behind some_ above apart
    refine ⟨_, threads.give_apart spaced' nonnull, spaced', ?_⟩
    simp only [cellsOf_append, cellsOf_cons]
    exact count ..
  cases right with
  | nil => simp at apart
  | cons run right =>
      obtain ⟨-, first, -, upper, lower⟩ := spaced.around
      have later := (Spaced.cons_iff.mp behind).2.1
      by_cases touches : run.finish width = given.start
      · -- The cells lie behind the node, and may reach the next one.
        have beyond : ∀ b ∈ right, given.finish width ≤ b.start := by
          intro b member
          refine (clear b (List.mem_cons_of_mem _ member)).resolve_left fun under => ?_
          have above := lower b member
          rw [Span.finish] at under
          omega
        by_cases open_ : ∀ b ∈ right, given.finish width < b.start
        · refine ⟨_, threads.give_behind spaced touches open_,
            before.put later ?_ upper ?_, ?_⟩
          · exact Nat.add_pos_left first _
          · rwa [Span.finish_join touches]
          · simp only [cellsOf_append, cellsOf_cons, Span.cells_join touches, List.append_assoc]
            refine (List.Perm.append_left _ (count ..)).trans (count ..)
        · cases right with
          | nil => simp at open_
          | cons next right =>
              obtain ⟨-, rest, under⟩ := Spaced.cons_iff.mp later
              have reaches : given.finish width = next.start := by
                refine Nat.le_antisymm (beyond next List.mem_cons_self) (Nat.le_of_not_lt ?_)
                refine fun below => open_ fun b member => ?_
                rcases List.mem_cons.mp member with rfl | member
                · exact below
                · exact below.trans (later.start_lt b member)
              have joins : Span.finish width ⟨run.start, run.length + given.length⟩ =
                  next.start := by
                rw [Span.finish_join touches, reaches]
              have closes := Span.finish_join joins
              have whole := Span.cells_join joins
              dsimp only at closes whole
              refine ⟨_, threads.give_between spaced touches reaches,
                before.put rest ?_ upper ?_, ?_⟩
              · exact Nat.add_pos_left (Nat.add_pos_left first _) _
              · rwa [closes]
              · simp only [cellsOf_append, cellsOf_cons, whole, Span.cells_join touches,
                  List.append_assoc]
                exact (List.Perm.append_left _ (count ..)).trans (count ..)
      · have touches : run.start = given.finish width := by
          rcases stops run rfl with behind' | front | far
          · exact absurd behind' touches
          · exact front
          · refine absurd (fun b member => ?_) apart
            rcases List.mem_cons.mp member with rfl | member
            · exact far
            · exact far.trans (behind.start_lt b member)
        have joins := Span.cells_join touches.symm
        have closes := Span.finish_join touches.symm
        rw [Nat.add_comm] at joins closes
        have spaced' : Spaced width (left ++ ⟨given.start, run.length + given.length⟩ :: right) := by
          refine before.put later (Nat.add_pos_left first _) above ?_
          rwa [closes]
        refine ⟨_, threads.give_before positive spaced' nonnull touches first, spaced', ?_⟩
        simp only [cellsOf_append, cellsOf_cons, joins, List.append_assoc]
        exact count ..

end

/-! ## Walks along any list -/

/-- A walk along the list from the pointer at `prev` comes to the pointer at a place. -/
inductive Onward (list : FreeList) (prev : Option Nat) : Option Nat → Prop where
  | here : list.Onward prev prev
  | next {place} (walk : list.Onward prev place) (some_ : list.load place ≠ 0) :
      list.Onward prev (some (list.load place))

/-- A node of the list, wherever it ends, is `good`. -/
def Meets (list : FreeList) (good : Nat → Prop) : Prop :=
  ∃ place, list.Onward none place ∧ list.load place ≠ 0 ∧ good (list.load place)

section

variable {list list' : FreeList} {prev place other : Option Nat} {target : Nat}
  {check stop : Nat → Bool}

theorem Onward.cases_first (walk : list.Onward prev other) :
    other = prev ∨ list.load prev ≠ 0 ∧ list.Onward (some (list.load prev)) other := by
  induction walk with
  | here => exact Or.inl rfl
  | next walk some_ ih =>
      rcases ih with rfl | ⟨first, walk⟩
      · exact Or.inr ⟨some_, .here⟩
      · exact Or.inr ⟨first, walk.next some_⟩

theorem Onward.trans (walk : list.Onward prev place) (onward : list.Onward place other) :
    list.Onward prev other := by
  induction onward with
  | here => exact walk
  | next _ some_ ih => exact ih.next some_

/-- Where a search ends. At the end of the list, it has passed all nodes. -/
theorem seek_onward (found : list.seek check stop prev = some place) :
    list.Onward prev place ∧ (list.load place ≠ 0 → stop (list.load place) = true) ∧
      (list.load place = 0 → ∀ other, list.Onward prev other → list.load other ≠ 0 →
        stop (list.load other) = false) := by
  refine FreeList.seek.partial_correctness list check stop (fun prev place => list.Onward prev place
    ∧ (list.load place ≠ 0 → stop (list.load place) = true) ∧ (list.load place = 0 →
      ∀ other, list.Onward prev other → list.load other ≠ 0 → stop (list.load other) = false))
    ?_ prev place found
  intro seek ih prev place found
  split at found
  · rename_i ends
    obtain rfl := Option.some_inj.mp found
    refine ⟨.here, fun some_ => absurd ends some_, fun _ other walk some_ => ?_⟩
    rcases walk.cases_first with rfl | ⟨first, -⟩
    · exact absurd ends some_
    · exact absurd ends first
  · rename_i first
    obtain ⟨-, found⟩ := Option.ite_none_right_eq_some.mp found
    split at found
    · rename_i stops
      obtain rfl := Option.some_inj.mp found
      exact ⟨.here, fun _ => stops, fun ends => absurd ends first⟩
    · rename_i goes
      obtain ⟨walk, stops, passed⟩ := ih _ _ found
      refine ⟨(Onward.here.next first).trans walk, stops, fun ends other onward some_ => ?_⟩
      rcases onward.cases_first with rfl | ⟨-, onward⟩
      · exact Bool.not_eq_true _ ▸ goes
      · exact passed ends other onward some_

/-- A search from the head finds a node if and only if there is one to stop at. -/
theorem seek_meets (found : list.seek check stop none = some place) :
    list.load place ≠ 0 ↔ list.Meets fun node => stop node = true := by
  obtain ⟨walk, stops, passed⟩ := seek_onward found
  constructor
  · intro some_
    exact ⟨place, walk, some_, stops some_⟩
  · rintro ⟨other, onward, some_, stop'⟩ ends
    exact absurd (passed ends other onward some_) (ne_true_of_eq_false · stop')

/-- A node that a pointer on the way is redirected to is on the list, even if it has been on it
before. -/
theorem Onward.meets_store (walk : list.Onward none place) (some_ : target ≠ 0)
    (here : list'.load place = target)
    (load : ∀ other, other ≠ place → other ≠ some target → list'.load other = list.load other) :
    list'.Meets fun node => node = target := by
  have goes : ∀ other, list.Onward none other → (list'.Meets fun node => node = target) ∨
      list'.Onward none other ∧ other ≠ some target := by
    intro other onward
    induction onward with
    | here => exact Or.inr ⟨.here, Option.some_ne_none _ ∘ Eq.symm⟩
    | @next other onward first ih =>
        rcases ih with meets | ⟨onward', differ⟩
        · exact Or.inl meets
        by_cases same : list'.load other = target
        · exact Or.inl ⟨other, onward', same ▸ some_, same⟩
        · have kept := load other (fun back => same (back ▸ here)) differ
          rw [← kept]
          exact Or.inr ⟨onward'.next (kept ▸ first), fun back => same (Option.some_inj.mp back)⟩
  rcases goes place walk with meets | ⟨onward, -⟩
  · exact meets
  · exact ⟨place, onward, here ▸ some_, here⟩

end
end FreeList

end RtThread.Std
