import RtThread.Std.Ring

/-!
# Where each node of a family of lists is

Often it matters behind which head a node is linked and not where in that list.
`Placed` reads the pointers that way: a node has at most one `home`, and every
pointer edit changes the home of one node.
-/

namespace RtThread.Std

universe u

variable {α : Type u}

/-- The pointers carry each node behind its `home`, and loose if it has none. -/
def Placed (Head : α → Prop) (links : Links α) (home : α → Option α) : Prop :=
  ∃ lists, Rings Head links lists ∧
    ∀ node head, home node = some head ↔ Head head ∧ node ∈ lists head

namespace Placed

variable {Head : α → Prop} {links : Links α} {home : α → Option α} {head node : α}

/-- When every node is linked to itself, none has a home. -/
theorem nil (Head : α → Prop) : Placed Head ⟨id, id⟩ fun _ => none :=
  ⟨fun _ => [], Rings.nil Head, by simp⟩

theorem linked_iff (placed : Placed Head links home) (isHead : Head head) (node : α) :
    links.Linked head node ↔ home node = some head := by
  obtain ⟨lists, rings, homes⟩ := placed
  rw [rings.linked_iff isHead, homes]
  exact ⟨fun member => ⟨isHead, member⟩, And.right⟩

/-- The node behind a head is at home there, unless the list is empty. -/
theorem next_home (placed : Placed Head links home) (isHead : Head head)
    (plain : ¬ Head (links.next head)) : home (links.next head) = some head := by
  obtain ⟨lists, rings, homes⟩ := placed
  have entry := rings.next_head isHead
  rw [homes]
  refine ⟨isHead, ?_⟩
  cases shape : lists head with
  | nil =>
      rw [shape] at entry
      exact absurd (entry ▸ isHead) plain
  | cons first rest =>
      rw [shape] at entry
      simp [entry]

theorem plain (placed : Placed Head links home) (there : home node = some head) :
    ¬ Head node := by
  obtain ⟨lists, rings, homes⟩ := placed
  obtain ⟨isHead, member⟩ := (homes node head).mp there
  exact rings.plain head node isHead member

/-- A node that is linked to itself has no home. -/
theorem home_eq_none (placed : Placed Head links home) (plain : ¬ Head node)
    (alone : links.next node = node) : home node = none := by
  obtain ⟨lists, rings, homes⟩ := placed
  cases there : home node with
  | none => rfl
  | some head =>
      exfalso
      obtain ⟨isHead, member⟩ := (homes node head).mp there
      obtain ⟨left, right, shape⟩ := List.append_of_mem member
      obtain ⟨-, behind, -, -, -, absent, -, -⟩ := rings.split isHead shape
      rcases behind.next_mem with later | last
      · exact absent (alone ▸ later)
      · exact plain (alone.symm.trans last ▸ isHead)

variable [DecidableEq α]

theorem isEmpty_iff (placed : Placed Head links home) (isHead : Head head) :
    links.isEmpty head = true ↔ ∀ node, home node ≠ some head := by
  obtain ⟨lists, rings, homes⟩ := placed
  rw [rings.isEmpty_iff isHead, List.eq_nil_iff_forall_not_mem]
  constructor
  · intro empty node there
    exact empty node ((homes node head).mp there).2
  · intro empty node member
    exact empty node ((homes node head).mpr ⟨isHead, member⟩)

/-- A list that is not empty has a first node, which is no head. -/
theorem first (placed : Placed Head links home) (isHead : Head head)
    (occupied : links.isEmpty head = false) :
    home (links.next head) = some head := by
  obtain ⟨lists, rings, homes⟩ := placed
  have entry := rings.next_head isHead
  have nonempty : lists head ≠ [] := by
    intro empty
    rw [(rings.isEmpty_iff isHead).mpr empty] at occupied
    cases occupied
  obtain ⟨node, rest, shape⟩ := List.exists_cons_of_ne_nil nonempty
  rw [shape, List.headD_cons] at entry
  rw [entry, homes, shape]
  exact ⟨isHead, by simp⟩

/-- An unlinked node has no home. -/
theorem unlink (placed : Placed Head links home) (plain : ¬ Head node) :
    Placed Head (links.unlink node) (Function.update home node none) := by
  obtain ⟨lists, rings, homes⟩ := placed
  refine ⟨_, rings.unlink plain, ?_⟩
  intro other head
  by_cases same : other = node
  · subst same
    simp only [Function.update_self, reduceCtorEq, false_iff, not_and]
    intro isHead
    exact (rings.distinct head isHead).not_mem_erase
  · rw [Function.update_of_ne same, homes, List.mem_erase_of_ne same]

/-- A list into which `node` has been put makes `head` its home. -/
private theorem of_inserted {lists : α → List α} {links' : Links α} {inserted : List α}
    (homes : ∀ node head, home node = some head ↔ Head head ∧ node ∈ lists head)
    (isHead : Head head) (free : home node = none)
    (rings : Rings Head links' (Function.update lists head inserted))
    (members : ∀ other, other ∈ inserted ↔ other = node ∨ other ∈ lists head) :
    Placed Head links' (Function.update home node (some head)) := by
  refine ⟨_, rings, ?_⟩
  intro other head'
  by_cases there : head' = head
  · subst there
    rw [Function.update_self, members]
    by_cases same : other = node
    · subst same
      simp [isHead]
    · rw [Function.update_of_ne same, homes]
      simp [same]
  · rw [Function.update_of_ne there]
    by_cases same : other = node
    · subst same
      have elsewhere := homes other head'
      rw [free] at elsewhere
      simp only [Function.update_self, Option.some.injEq]
      exact ⟨fun equal => absurd equal.symm there, fun member => nomatch elsewhere.mpr member⟩
    · rw [Function.update_of_ne same, homes]

/-- Unlinking a node does not change the front of a list that it is not in. -/
theorem next_unlink (placed : Placed Head links home) (isHead : Head head) (plain : ¬ Head node)
    (elsewhere : home node ≠ some head) : (links.unlink node).next head = links.next head := by
  obtain ⟨lists, rings, homes⟩ := placed
  have absent : node ∉ lists head := fun member => elsewhere ((homes node head).mpr ⟨isHead, member⟩)
  rw [(rings.unlink plain).next_head isHead, rings.next_head isHead, List.erase_of_not_mem absent]

/-- Linking a node in front of one head does not change the front of another list. -/
theorem next_insertBefore_head {owner : α} (placed : Placed Head links home) (isHead : Head head)
    (isOwner : Head owner) (plain : ¬ Head node) (free : home node = none)
    (apart : head ≠ owner) : (links.insertBefore owner node).next head = links.next head := by
  obtain ⟨lists, rings, homes⟩ := placed
  have loose : ∀ other, Head other → node ∉ lists other := by
    intro other isOther member
    exact nomatch free.symm.trans ((homes node other).mpr ⟨isOther, member⟩)
  rw [(rings.insertBefore_head isOwner plain loose).next_head isHead, rings.next_head isHead,
    Function.update_of_ne apart]

/-- A loose node that is linked in front of a head is at home there. -/
theorem insertBefore_head (placed : Placed Head links home) (isHead : Head head)
    (plain : ¬ Head node) (free : home node = none) :
    Placed Head (links.insertBefore head node) (Function.update home node (some head)) := by
  obtain ⟨lists, rings, homes⟩ := placed
  have loose : ∀ other, Head other → node ∉ lists other := by
    intro other isOther member
    exact nomatch free.symm.trans ((homes node other).mpr ⟨isOther, member⟩)
  exact of_inserted homes isHead free (rings.insertBefore_head isHead plain loose)
    (by simp [or_comm])

/-- So is a loose node that is linked behind a head. -/
theorem insertAfter_head (placed : Placed Head links home) (isHead : Head head)
    (plain : ¬ Head node) (free : home node = none) :
    Placed Head (links.insertAfter head node) (Function.update home node (some head)) := by
  obtain ⟨lists, rings, homes⟩ := placed
  have loose : ∀ other, Head other → node ∉ lists other := by
    intro other isOther member
    exact nomatch free.symm.trans ((homes node other).mpr ⟨isOther, member⟩)
  exact of_inserted homes isHead free (rings.insertAfter_head isHead plain loose) (by simp)

/-- So is a loose node that is linked where a scan of the list has ended. -/
theorem insertBefore_scan (placed : Placed Head links home) (isHead : Head head)
    (plain : ¬ Head node) (free : home node = none) {stop : α → Bool} {position : α}
    (scan : links.scan head stop (links.next head) = some position) :
    Placed Head (links.insertBefore position node) (Function.update home node (some head)) := by
  obtain ⟨lists, rings, homes⟩ := placed
  have loose : ∀ other, Head other → node ∉ lists other := by
    intro other isOther member
    exact nomatch free.symm.trans ((homes node other).mpr ⟨isOther, member⟩)
  rw [rings.scan_eq isHead, Option.some_inj] at scan
  subst scan
  refine of_inserted homes isHead free (rings.insertBefore_scan isHead plain loose stop) ?_
  intro other
  have whole : (lists head).takeWhile (fun other => !stop other) ++
      (lists head).dropWhile (fun other => !stop other) = lists head :=
    List.takeWhile_append_dropWhile
  rw [List.mem_append, List.mem_cons]
  conv_rhs => rw [← whole, List.mem_append]
  tauto

end Placed

end RtThread.Std
