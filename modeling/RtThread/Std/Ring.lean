import Mathlib

/-!
# Intrusive circular lists

A family of intrusive doubly linked lists is a pair of pointer maps over one
type of nodes. Some nodes are heads; every other node is linked behind at most
one head. `Rings` says which sequence each head carries, and the operation
lemmas say how each pointer edit moves a node between those sequences.

Nothing here mentions what a node stands for.
-/

namespace RtThread.Std

universe u

/-- The `next` and `prev` pointers of every node of one family of lists. -/
structure Links (α : Type u) where
  next : α → α
  prev : α → α

namespace Links

variable {α : Type u} [DecidableEq α]

def setNext (links : Links α) (node target : α) : Links α :=
  { links with next := Function.update links.next node target }

def setPrev (links : Links α) (node target : α) : Links α :=
  { links with prev := Function.update links.prev node target }

/-- `node->next = node->prev = node`. -/
def selfLink (links : Links α) (node : α) : Links α :=
  (links.setPrev node node).setNext node node

/-- Link `node` in front of `position`, pointer by pointer. -/
def insertBefore (links : Links α) (position node : α) : Links α :=
  let links := links.setNext (links.prev position) node
  let links := links.setPrev node (links.prev position)
  let links := links.setPrev position node
  links.setNext node position

/-- Link `node` behind `position`, pointer by pointer. -/
def insertAfter (links : Links α) (position node : α) : Links α :=
  let links := links.setPrev (links.next position) node
  let links := links.setNext node (links.next position)
  let links := links.setNext position node
  links.setPrev node position

/-- Close the gap around `node` and link it to itself. -/
def unlink (links : Links α) (node : α) : Links α :=
  let links := links.setPrev (links.next node) (links.prev node)
  let links := links.setNext (links.prev node) (links.next node)
  links.selfLink node

theorem insertBefore_next (links : Links α) (position node other : α) :
    (links.insertBefore position node).next other =
      if other = node then position
      else if other = links.prev position then node else links.next other := by
  simp [insertBefore, setNext, setPrev, Function.update_apply]

theorem insertBefore_prev (links : Links α) (position node other : α) :
    (links.insertBefore position node).prev other =
      if other = position then node
      else if other = node then links.prev position else links.prev other := by
  simp [insertBefore, setNext, setPrev, Function.update_apply]

theorem insertAfter_next (links : Links α) (position node other : α) :
    (links.insertAfter position node).next other =
      if other = position then node
      else if other = node then links.next position else links.next other := by
  simp [insertAfter, setNext, setPrev, Function.update_apply]

theorem insertAfter_prev (links : Links α) (position node other : α) :
    (links.insertAfter position node).prev other =
      if other = node then position
      else if other = links.next position then node else links.prev other := by
  simp [insertAfter, setNext, setPrev, Function.update_apply]

theorem unlink_next (links : Links α) (node other : α) :
    (links.unlink node).next other =
      if other = node then node
      else if other = links.prev node then links.next node else links.next other := by
  have kept : (links.setPrev (links.next node) (links.prev node)).prev node = links.prev node := by
    simp only [setPrev, Function.update_apply, ite_self]
  simp only [unlink, kept]
  simp [selfLink, setNext, setPrev, Function.update_apply]

theorem unlink_prev (links : Links α) (node other : α) :
    (links.unlink node).prev other =
      if other = node then node
      else if other = links.next node then links.prev node else links.prev other := by
  simp [unlink, selfLink, setNext, setPrev, Function.update_apply]

/-- A head whose successor is itself carries no node. -/
def isEmpty (links : Links α) (head : α) : Bool := links.next head = head

/-- Walk from `node` until `head` comes round again or `stop` holds. The walk
has no result when the pointers never lead to either. -/
def scan (links : Links α) (head : α) (stop : α → Bool) (node : α) : Option α :=
  if node = head then some head
  else if stop node then some node
  else links |>.scan head stop (links.next node)
partial_fixpoint

/-- `node` is met when following `next` from `head` before `head` comes round. -/
def Linked (links : Links α) (head node : α) : Prop :=
  ∃ count, 0 < count ∧ links.next^[count] head = node ∧
    ∀ before, 0 < before → before ≤ count → links.next^[before] head ≠ head

/-- Consecutive nodes of `first :: nodes ++ [last]` point at each other. -/
def Segment (links : Links α) : α → List α → α → Prop
  | first, [], last => links.next first = last ∧ links.prev last = first
  | first, node :: nodes, last =>
      links.next first = node ∧ links.prev node = first ∧ Segment links node nodes last

omit [DecidableEq α] in
theorem segment_append {links : Links α} {first middle last : α} {left right : List α} :
    links.Segment first (left ++ middle :: right) last ↔
      links.Segment first left middle ∧ links.Segment middle right last := by
  induction left generalizing first with
  | nil => simp [Segment, and_assoc]
  | cons node nodes ih => simp [Segment, ih, and_assoc]

omit [DecidableEq α] in
/-- A segment depends only on the pointers between its end points. -/
theorem Segment.congr {links links' : Links α} {first last : α} {nodes : List α}
    (segment : links.Segment first nodes last)
    (next : ∀ node ∈ first :: nodes, links'.next node = links.next node)
    (prev : ∀ node, node ∈ nodes ∨ node = last → links'.prev node = links.prev node) :
    links'.Segment first nodes last := by
  induction nodes generalizing first with
  | nil =>
      have atFirst := next first (by simp)
      have atLast := prev last (Or.inr rfl)
      simp only [Segment] at segment ⊢
      rw [atFirst, atLast]
      exact segment
  | cons node nodes ih =>
      obtain ⟨toNode, fromNode, rest⟩ := segment
      refine ⟨?_, ?_, ih rest ?_ ?_⟩
      · rw [next first (by simp)]
        exact toNode
      · rw [prev node (by simp)]
        exact fromNode
      · intro other member
        exact next other (List.mem_cons_of_mem _ member)
      · intro other member
        exact prev other (by simp only [List.mem_cons]; tauto)

omit [DecidableEq α] in
theorem Segment.prev_mem {links : Links α} {first last : α} {nodes : List α}
    (segment : links.Segment first nodes last) : links.prev last ∈ first :: nodes := by
  induction nodes generalizing first with
  | nil => simp [segment.2]
  | cons node nodes ih => exact List.mem_cons_of_mem _ (ih segment.2.2)

omit [DecidableEq α] in
theorem Segment.next_mem {links : Links α} {first last : α} {nodes : List α}
    (segment : links.Segment first nodes last) : links.next first ∈ nodes ∨
      links.next first = last := by
  cases nodes with
  | nil => exact Or.inr segment.1
  | cons node nodes => exact Or.inl (by simp [segment.1])

omit [DecidableEq α] in
/-- Redirect the far end of a segment to a new last node. -/
theorem Segment.retarget_last {links links' : Links α} {first last last' : α} {nodes : List α}
    (segment : links.Segment first nodes last) (distinct : (first :: nodes).Nodup)
    (next : ∀ node ∈ first :: nodes, node ≠ links.prev last → links'.next node = links.next node)
    (prev : ∀ node ∈ nodes, links'.prev node = links.prev node)
    (toLast : links'.next (links.prev last) = last')
    (fromLast : links'.prev last' = links.prev last) :
    links'.Segment first nodes last' := by
  induction nodes generalizing first with
  | nil =>
      rw [segment.2] at toLast fromLast
      exact ⟨toLast, fromLast⟩
  | cons node nodes ih =>
      obtain ⟨toNode, fromNode, rest⟩ := segment
      have apart : first ≠ links.prev last := by
        intro equal
        exact (List.nodup_cons.mp distinct).1 (equal ▸ rest.prev_mem)
      refine ⟨?_, ?_, ih rest (List.nodup_cons.mp distinct).2 ?_ ?_⟩
      · rw [next first (by simp) apart]
        exact toNode
      · rw [prev node (by simp)]
        exact fromNode
      · intro other member
        exact next other (List.mem_cons_of_mem _ member)
      · intro other member
        exact prev other (List.mem_cons_of_mem _ member)

omit [DecidableEq α] in
/-- Redirect the near end of a segment to a new first node. -/
theorem Segment.retarget_first {links links' : Links α} {first first' last : α} {nodes : List α}
    (segment : links.Segment first nodes last) (distinct : (nodes ++ [last]).Nodup)
    (next : ∀ node ∈ nodes, links'.next node = links.next node)
    (prev : ∀ node, node ∈ nodes ∨ node = last → node ≠ links.next first →
      links'.prev node = links.prev node)
    (toFirst : links'.next first' = links.next first)
    (fromFirst : links'.prev (links.next first) = first') :
    links'.Segment first' nodes last := by
  cases nodes with
  | nil =>
      rw [segment.1] at toFirst fromFirst
      exact ⟨toFirst, fromFirst⟩
  | cons node nodes =>
      obtain ⟨toNode, fromNode, rest⟩ := segment
      rw [toNode] at toFirst fromFirst prev
      refine ⟨toFirst, fromFirst, rest.congr ?_ ?_⟩
      · exact next
      · intro other member
        refine prev other (by simp only [List.mem_cons]; tauto) ?_
        rintro rfl
        apply (List.nodup_cons.mp distinct).1
        simpa using member

/-- Walking a segment returns the first node which stops it, or its end. -/
theorem Segment.scan_eq {links : Links α} {head first : α} {stop : α → Bool}
    {nodes : List α} (segment : links.Segment first nodes head) (apart : head ∉ nodes) :
    links.scan head stop (links.next first) = some ((nodes.find? stop).getD head) := by
  induction nodes generalizing first with
  | nil =>
      rw [segment.1, scan]
      simp
  | cons node nodes ih =>
      obtain ⟨toNode, -, rest⟩ := segment
      have nodeApart : node ≠ head := by
        rintro rfl
        exact apart (by simp)
      have tailApart : head ∉ nodes := fun member => apart (List.mem_cons_of_mem _ member)
      rw [toNode, scan, if_neg nodeApart]
      by_cases stops : stop node
      · simp [stops]
      · simp [stops, ih rest tailApart]

omit [DecidableEq α] in
/-- The nodes met by walking a closed segment are exactly its members. -/
theorem Segment.linked_iff {links : Links α} {head : α} {nodes : List α}
    (segment : links.Segment head nodes head) (apart : head ∉ nodes) (node : α) :
    links.Linked head node ↔ node ∈ nodes := by
  have walk : ∀ (suffix : List α) (first : α), links.Segment first suffix head →
      head ∉ suffix → ∀ count, count < suffix.length →
        links.next^[count + 1] first = suffix[count]?.getD head := by
    intro suffix
    induction suffix with
    | nil => intro _ _ _ count bound; simp at bound
    | cons node nodes ih =>
        intro first segment apart count bound
        obtain ⟨toNode, -, rest⟩ := segment
        cases count with
        | zero => simp [toNode]
        | succ count =>
            rw [Function.iterate_succ_apply, toNode]
            simpa using ih node rest (fun member => apart (List.mem_cons_of_mem _ member))
              count (by simpa using bound)
  have close : ∀ (suffix : List α) (first : α), links.Segment first suffix head →
      links.next^[suffix.length + 1] first = head := by
    intro suffix
    induction suffix with
    | nil => intro first segment; simpa using segment.1
    | cons node nodes ih =>
        intro first segment
        obtain ⟨toNode, -, rest⟩ := segment
        rw [List.length_cons, Function.iterate_succ_apply, toNode]
        exact ih node rest
  constructor
  · rintro ⟨count, positive, reaches, early⟩
    obtain ⟨count, rfl⟩ : ∃ before, count = before + 1 := ⟨count - 1, by omega⟩
    have bound : count < nodes.length := by
      by_contra beyond
      exact early (nodes.length + 1) (by omega) (by omega) (close nodes head segment)
    rw [walk nodes head segment apart count bound, List.getElem?_eq_getElem bound] at reaches
    rw [← reaches]
    exact List.getElem_mem bound
  · intro member
    obtain ⟨index, bound, found⟩ := List.getElem_of_mem member
    refine ⟨index + 1, by omega, ?_, ?_⟩
    · rw [walk nodes head segment apart index bound, List.getElem?_eq_getElem bound]
      exact found
    · intro before positive upper
      obtain ⟨before, rfl⟩ : ∃ earlier, before = earlier + 1 := ⟨before - 1, by omega⟩
      have within : before < nodes.length := by omega
      rw [walk nodes head segment apart before within, List.getElem?_eq_getElem within]
      intro equal
      exact apart (equal ▸ List.getElem_mem within)

end Links

/-- Every head carries a closed segment of distinct non-heads, no node is behind
two heads, and a node behind none is linked to itself. -/
structure Rings {α : Type u} (Head : α → Prop) (links : Links α) (lists : α → List α) : Prop where
  ring : ∀ head, Head head → links.Segment head (lists head) head
  distinct : ∀ head, Head head → (lists head).Nodup
  plain : ∀ head node, Head head → node ∈ lists head → ¬ Head node
  single : ∀ head head' node, Head head → Head head' → node ∈ lists head →
    node ∈ lists head' → head = head'
  loose : ∀ node, ¬ Head node → (∀ head, Head head → node ∉ lists head) →
    links.next node = node ∧ links.prev node = node

namespace Rings

variable {α : Type u} {Head : α → Prop} {links : Links α} {lists : α → List α}

/-- When every node is linked to itself, every list is empty. -/
theorem nil (Head : α → Prop) : Rings Head ⟨id, id⟩ fun _ => [] := by
  constructor <;> simp [Links.Segment]

theorem head_not_mem (rings : Rings Head links lists) {head head' : α} (isHead : Head head)
    (isHead' : Head head') : head ∉ lists head' :=
  fun member => rings.plain head' head isHead' member isHead

theorem nodup_cons (rings : Rings Head links lists) {head : α} (isHead : Head head) :
    (head :: lists head).Nodup :=
  List.nodup_cons.mpr ⟨rings.head_not_mem isHead isHead, rings.distinct head isHead⟩

theorem linked_iff (rings : Rings Head links lists) {head : α} (isHead : Head head) (node : α) :
    links.Linked head node ↔ node ∈ lists head :=
  (rings.ring head isHead).linked_iff (rings.head_not_mem isHead isHead) node

theorem scan_eq [DecidableEq α] (rings : Rings Head links lists) {head : α} (isHead : Head head)
    (stop : α → Bool) :
    links.scan head stop (links.next head) = some (((lists head).find? stop).getD head) :=
  (rings.ring head isHead).scan_eq (rings.head_not_mem isHead isHead)

theorem next_head (rings : Rings Head links lists) {head : α} (isHead : Head head) :
    links.next head = (lists head).headD head := by
  have segment := rings.ring head isHead
  cases shape : lists head with
  | nil =>
      rw [shape] at segment
      exact segment.1
  | cons node nodes =>
      rw [shape] at segment
      exact segment.1

@[simp] theorem isEmpty_iff [DecidableEq α] (rings : Rings Head links lists) {head : α}
    (isHead : Head head) : links.isEmpty head = true ↔ lists head = [] := by
  simp only [Links.isEmpty, decide_eq_true_eq, rings.next_head isHead]
  cases shape : lists head with
  | nil => simp
  | cons node nodes =>
      have apart := rings.head_not_mem isHead isHead
      rw [shape] at apart
      have : node ≠ head := by
        rintro rfl
        exact apart (by simp)
      simp [this]

/-- A segment of one ring is untouched by pointer edits at nodes outside it. -/
theorem ring_frame (rings : Rings Head links lists) {links' : Links α} {head : α}
    (isHead : Head head)
    (next : ∀ node ∈ head :: lists head, links'.next node = links.next node)
    (prev : ∀ node ∈ head :: lists head, links'.prev node = links.prev node) :
    links'.Segment head (lists head) head := by
  refine (rings.ring head isHead).congr next ?_
  rintro node (member | rfl)
  · exact prev node (List.mem_cons_of_mem _ member)
  · exact prev node (by simp)

/-- Two rings share neither heads nor nodes. -/
theorem apart (rings : Rings Head links lists) {head head' : α} (isHead : Head head)
    (isHead' : Head head') (different : head ≠ head') :
    ∀ node ∈ head :: lists head, node ∉ head' :: lists head' := by
  intro node member member'
  rw [List.mem_cons] at member member'
  rcases member with rfl | member <;> rcases member' with rfl | member'
  · exact different rfl
  · exact rings.head_not_mem isHead isHead' member'
  · exact rings.head_not_mem isHead' isHead member
  · exact different (rings.single head head' node isHead isHead' member member')

/-- The two neighbours of a linked node, seen from its head. -/
theorem split (rings : Rings Head links lists) {head node : α} (isHead : Head head)
    {left right : List α} (shape : lists head = left ++ node :: right) :
    links.Segment head left node ∧ links.Segment node right head ∧
      (head :: left).Nodup ∧ (right ++ [head]).Nodup ∧ node ∉ head :: left ∧ node ∉ right ∧
      head ∉ right ∧ ∀ other ∈ head :: left, other ∉ right := by
  have segment := rings.ring head isHead
  have distinct := rings.nodup_cons isHead
  rw [shape] at segment distinct
  have parts := Links.segment_append.mp segment
  simp only [List.nodup_cons, List.mem_append, List.mem_cons, not_or, List.nodup_append]
    at distinct ⊢
  refine ⟨parts.1, parts.2, ?_⟩
  grind

variable [DecidableEq α]

/-- Unlinking a carried node closes the gap in its own list. -/
private theorem unlink_carried (rings : Rings Head links lists) {owner node : α}
    (isOwner : Head owner) (plain : ¬ Head node) (member : node ∈ lists owner) :
    Rings Head (links.unlink node) (fun head => (lists head).erase node) := by
  obtain ⟨left, right, shape⟩ := List.append_of_mem member
  obtain ⟨before, after, leftDistinct, rightDistinct, notLeft, notRight, ownerRight, disjoint⟩ :=
    rings.split isOwner shape
  have erased : (lists owner).erase node = left ++ right := by
    rw [shape, List.erase_append_right _ (fun held => notLeft (List.mem_cons_of_mem _ held))]
    simp
  have fromMem := before.prev_mem
  have toMem := after.next_mem
  have others : ∀ head, Head head → head ≠ owner → node ∉ lists head := fun head isHead
    different held => different (rings.single head owner node isHead isOwner held member)
  have within : ∀ other, other ∈ left ∨ other ∈ right → other ∈ lists owner := by
    intro other side
    rw [shape]
    simp only [List.mem_append, List.mem_cons]
    tauto
  refine ⟨?_, ?_, ?_, ?_, ?_⟩
  · intro head isHead
    by_cases same : head = owner
    · subst same
      rw [erased]
      cases right with
      | nil =>
          rw [List.append_nil]
          have ends := after.1
          refine before.retarget_last leftDistinct ?_ ?_ ?_ ?_ <;>
            grind [Links.unlink_next, Links.unlink_prev]
      | cons first rest =>
          obtain ⟨toFirst, fromFirst, tail⟩ := after
          refine Links.segment_append.mpr
            ⟨before.retarget_last leftDistinct ?_ ?_ ?_ ?_, tail.congr ?_ ?_⟩ <;>
            grind [Links.unlink_next, Links.unlink_prev]
    · have outside := rings.apart isHead isOwner same
      rw [List.erase_of_not_mem (others head isHead same)]
      refine rings.ring_frame isHead ?_ ?_ <;>
        grind [Links.unlink_next, Links.unlink_prev]
  · intro head isHead
    exact (rings.distinct head isHead).erase node
  · intro head other isHead held
    exact rings.plain head other isHead (List.mem_of_mem_erase held)
  · intro head head' other isHead isHead' held held'
    exact rings.single head head' other isHead isHead' (List.mem_of_mem_erase held)
      (List.mem_of_mem_erase held')
  · intro other plainOther free
    by_cases same : other = node
    · subst same
      simp [Links.unlink_next, Links.unlink_prev]
    · have wasFree : ∀ head, Head head → other ∉ lists head := by
        intro head isHead held
        exact free head isHead ((List.mem_erase_of_ne same).mpr held)
      have loop := rings.loose other plainOther wasFree
      have notOwner : other ≠ owner := fun equal => plainOther (equal ▸ isOwner)
      have notWithin := wasFree owner isOwner
      grind [Links.unlink_next, Links.unlink_prev]

/-- Unlinking a node removes it from whichever list carries it. -/
theorem unlink (rings : Rings Head links lists) {node : α} (plain : ¬ Head node) :
    Rings Head (links.unlink node) (fun head => (lists head).erase node) := by
  by_cases carried : ∃ head, Head head ∧ node ∈ lists head
  · obtain ⟨owner, isOwner, member⟩ := carried
    exact rings.unlink_carried isOwner plain member
  · have free : ∀ head, Head head → node ∉ lists head := by
      intro head isHead member
      exact carried ⟨head, isHead, member⟩
    obtain ⟨nextLoop, prevLoop⟩ := rings.loose node plain free
    have sameNext : (links.unlink node).next = links.next := by
      funext other
      grind [Links.unlink_next]
    have samePrev : (links.unlink node).prev = links.prev := by
      funext other
      grind [Links.unlink_prev]
    have same : links.unlink node = links := by
      rw [show links.unlink node = ⟨(links.unlink node).next, (links.unlink node).prev⟩ from rfl,
        sameNext, samePrev]
    rw [same]
    refine ⟨?_, ?_, ?_, ?_, ?_⟩
    · intro head isHead
      rw [List.erase_of_not_mem (free head isHead)]
      exact rings.ring head isHead
    · intro head isHead
      exact (rings.distinct head isHead).erase node
    · intro head other isHead held
      exact rings.plain head other isHead (List.mem_of_mem_erase held)
    · intro head head' other isHead isHead' held held'
      exact rings.single head head' other isHead isHead' (List.mem_of_mem_erase held)
        (List.mem_of_mem_erase held')
    · intro other plainOther stays
      refine rings.loose other plainOther ?_
      intro head isHead held
      apply stays head isHead
      rwa [List.erase_of_not_mem (free head isHead)]

/-- Linking a loose node in front of a head appends it to that head's list. -/
theorem insertBefore_head (rings : Rings Head links lists) {owner node : α}
    (isOwner : Head owner) (plain : ¬ Head node) (free : ∀ head, Head head → node ∉ lists head) :
    Rings Head (links.insertBefore owner node)
      (Function.update lists owner (lists owner ++ [node])) := by
  have segment := rings.ring owner isOwner
  have distinct := rings.nodup_cons isOwner
  have fromMem := segment.prev_mem
  have notOwner : node ≠ owner := fun equal => plain (equal ▸ isOwner)
  have notOwned := free owner isOwner
  refine ⟨?_, ?_, ?_, ?_, ?_⟩
  · intro head isHead
    by_cases same : head = owner
    · subst same
      rw [Function.update_self]
      refine Links.segment_append.mpr
        ⟨segment.retarget_last distinct ?_ ?_ ?_ ?_, ?_, ?_⟩ <;>
        grind [Links.insertBefore_next, Links.insertBefore_prev]
    · have outside := rings.apart isHead isOwner same
      have notHere := free head isHead
      have notHead : node ≠ head := fun equal => plain (equal ▸ isHead)
      rw [Function.update_of_ne same]
      refine rings.ring_frame isHead ?_ ?_ <;>
        grind [Links.insertBefore_next, Links.insertBefore_prev]
  · intro head isHead
    have old := rings.distinct head isHead
    by_cases same : head = owner <;> grind [Function.update_apply]
  · intro head other isHead held
    have old := rings.plain head other isHead
    by_cases same : head = owner <;> grind [Function.update_apply]
  · intro head head' other isHead isHead' held held'
    have old := rings.single head head' other isHead isHead'
    have notHere := free head isHead
    have notThere := free head' isHead'
    grind [Function.update_apply]
  · intro other plainOther stays
    have notNode : other ≠ node := by
      rintro rfl
      apply stays owner isOwner
      simp
    have wasFree : ∀ head, Head head → other ∉ lists head := by
      intro head isHead held
      apply stays head isHead
      by_cases same : head = owner <;> grind [Function.update_apply]
    have loop := rings.loose other plainOther wasFree
    have otherOwner : other ≠ owner := fun equal => plainOther (equal ▸ isOwner)
    have notWithin := wasFree owner isOwner
    grind [Links.insertBefore_next, Links.insertBefore_prev]

/-- Linking a loose node in front of a carried one puts it just before it. -/
theorem insertBefore_mem (rings : Rings Head links lists) {owner node position : α}
    {left right : List α} (isOwner : Head owner) (plain : ¬ Head node)
    (free : ∀ head, Head head → node ∉ lists head)
    (shape : lists owner = left ++ position :: right) :
    Rings Head (links.insertBefore position node)
      (Function.update lists owner (left ++ node :: position :: right)) := by
  obtain ⟨before, after, leftDistinct, rightDistinct, notLeft, notRight, ownerRight, disjoint⟩ :=
    rings.split isOwner shape
  have fromMem := before.prev_mem
  have notOwner : node ≠ owner := fun equal => plain (equal ▸ isOwner)
  have notOwned := free owner isOwner
  have member : ∀ other, other ∈ lists owner ↔ other ∈ left ∨ other = position ∨ other ∈ right := by
    intro other
    rw [shape]
    simp
  have membership : ∀ head other, other ∈ Function.update lists owner
      (left ++ node :: position :: right) head ↔
        other ∈ lists head ∨ (head = owner ∧ other = node) := by
    intro head other
    by_cases same : head = owner <;> grind [Function.update_apply]
  refine ⟨?_, ?_, ?_, ?_, ?_⟩
  · intro head isHead
    by_cases same : head = owner
    · subst same
      rw [Function.update_self]
      refine Links.segment_append.mpr
        ⟨before.retarget_last leftDistinct ?_ ?_ ?_ ?_, ?_, ?_, after.congr ?_ ?_⟩ <;>
        grind [Links.insertBefore_next, Links.insertBefore_prev]
    · have outside := rings.apart isHead isOwner same
      have notHere := free head isHead
      have notHead : node ≠ head := fun equal => plain (equal ▸ isHead)
      rw [Function.update_of_ne same]
      refine rings.ring_frame isHead ?_ ?_ <;>
        grind [Links.insertBefore_next, Links.insertBefore_prev]
  · intro head isHead
    have old := rings.distinct head isHead
    by_cases same : head = owner <;> grind [Function.update_apply]
  · intro head other isHead held
    rcases (membership head other).mp held with old | ⟨-, rfl⟩
    · exact rings.plain head other isHead old
    · exact plain
  · intro head head' other isHead isHead' held held'
    have old := rings.single head head' other isHead isHead'
    have notHere := free head isHead
    have notThere := free head' isHead'
    rw [membership] at held held'
    grind
  · intro other plainOther stays
    have notNode : other ≠ node := by
      rintro rfl
      exact stays owner isOwner ((membership owner other).mpr (Or.inr ⟨rfl, rfl⟩))
    have wasFree : ∀ head, Head head → other ∉ lists head := fun head isHead held =>
      stays head isHead ((membership head other).mpr (Or.inl held))
    have loop := rings.loose other plainOther wasFree
    have otherOwner : other ≠ owner := fun equal => plainOther (equal ▸ isOwner)
    have notWithin := wasFree owner isOwner
    grind [Links.insertBefore_next, Links.insertBefore_prev]

/-- Linking a loose node where a scan ended puts it before the first node which
stopped the scan, or last when none did. -/
theorem insertBefore_scan (rings : Rings Head links lists) {owner node : α}
    (isOwner : Head owner) (plain : ¬ Head node) (free : ∀ head, Head head → node ∉ lists head)
    (stop : α → Bool) :
    Rings Head (links.insertBefore (((lists owner).find? stop).getD owner) node)
      (Function.update lists owner ((lists owner).takeWhile (fun other => !stop other) ++
        node :: (lists owner).dropWhile (fun other => !stop other))) := by
  have whole : (lists owner).takeWhile (fun other => !stop other) ++
      (lists owner).dropWhile (fun other => !stop other) = lists owner :=
    List.takeWhile_append_dropWhile
  have found : (lists owner).find? stop =
      ((lists owner).dropWhile fun other => !stop other).head? := by
    simpa using List.find?_not_eq_head?_dropWhile (fun other => !stop other) (lists owner)
  cases rest : (lists owner).dropWhile fun other => !stop other with
  | nil =>
      rw [rest, List.append_nil] at whole
      rw [rest] at found
      rw [found, whole]
      exact rings.insertBefore_head isOwner plain free
  | cons position right =>
      rw [rest] at whole found
      rw [found]
      exact rings.insertBefore_mem isOwner plain free whole.symm

/-- Linking a loose node behind a head puts it first in that head's list. -/
theorem insertAfter_head (rings : Rings Head links lists) {owner node : α}
    (isOwner : Head owner) (plain : ¬ Head node) (free : ∀ head, Head head → node ∉ lists head) :
    Rings Head (links.insertAfter owner node)
      (Function.update lists owner (node :: lists owner)) := by
  have segment := rings.ring owner isOwner
  have distinct := rings.nodup_cons isOwner
  have closed : (lists owner ++ [owner]).Nodup := by
    simp only [List.nodup_cons, List.nodup_append] at distinct ⊢
    grind
  have toMem := segment.next_mem
  have notOwner : node ≠ owner := fun equal => plain (equal ▸ isOwner)
  have notOwned := free owner isOwner
  refine ⟨?_, ?_, ?_, ?_, ?_⟩
  · intro head isHead
    by_cases same : head = owner
    · subst same
      rw [Function.update_self]
      refine ⟨?_, ?_, segment.retarget_first closed ?_ ?_ ?_ ?_⟩ <;>
        grind [Links.insertAfter_next, Links.insertAfter_prev]
    · have outside := rings.apart isHead isOwner same
      have notHere := free head isHead
      have notHead : node ≠ head := fun equal => plain (equal ▸ isHead)
      rw [Function.update_of_ne same]
      refine rings.ring_frame isHead ?_ ?_ <;>
        grind [Links.insertAfter_next, Links.insertAfter_prev]
  · intro head isHead
    have old := rings.distinct head isHead
    by_cases same : head = owner <;> grind [Function.update_apply]
  · intro head other isHead held
    have old := rings.plain head other isHead
    by_cases same : head = owner <;> grind [Function.update_apply]
  · intro head head' other isHead isHead' held held'
    have old := rings.single head head' other isHead isHead'
    have notHere := free head isHead
    have notThere := free head' isHead'
    grind [Function.update_apply]
  · intro other plainOther stays
    have notNode : other ≠ node := by
      rintro rfl
      apply stays owner isOwner
      simp
    have wasFree : ∀ head, Head head → other ∉ lists head := by
      intro head isHead held
      apply stays head isHead
      by_cases same : head = owner <;> grind [Function.update_apply]
    have loop := rings.loose other plainOther wasFree
    have otherOwner : other ≠ owner := fun equal => plainOther (equal ▸ isOwner)
    have notWithin := wasFree owner isOwner
    grind [Links.insertAfter_next, Links.insertAfter_prev]

end Rings

end RtThread.Std
