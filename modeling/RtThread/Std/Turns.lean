import Mathlib

/-!
# Taking turns

The members of a ring take turns, each for as many ticks as its slice. After any number
of ticks the one whose turn it is stands in the periodic sequence in which every member
is repeated as often as its slice says, in the order of the ring.
-/

namespace RtThread.Std

universe u

variable {α : Type u}

/-- Whose turn it is, who waits for a turn, in order, and how many ticks are left. -/
structure Turns (α : Type u) where
  current : α
  waiting : List α
  left : Nat

/-- One period: every member for its slice. -/
def period (slice : α → Nat) (ring : List α) : List α :=
  ring.flatMap fun member => List.replicate (slice member) member

namespace Turns

def ring (turns : Turns α) : List α := turns.current :: turns.waiting

/-- The turn of a member with its whole slice begins. -/
def begin (slice : α → Nat) (current : α) (waiting : List α) : Turns α :=
  ⟨current, waiting, slice current⟩

/-- A tick: the turn goes to the next member when nothing is left of it. -/
def next (slice : α → Nat) (turns : Turns α) : Turns α :=
  if turns.left = 1 then
    match turns.waiting with
    | [] => begin slice turns.current []
    | first :: others => begin slice first (others ++ [turns.current])
  else { turns with left := turns.left - 1 }

/-- Something is left of the turn, and not more than the slice. -/
structure Valid (slice : α → Nat) (turns : Turns α) : Prop where
  positive : ∀ member ∈ turns.ring, 0 < slice member
  some_ : 0 < turns.left
  bound : turns.left ≤ slice turns.current

/-- The period from now on. -/
def ahead (slice : α → Nat) (turns : Turns α) : List α :=
  List.replicate turns.left turns.current ++ period slice turns.waiting ++
    List.replicate (slice turns.current - turns.left) turns.current

variable {slice : α → Nat} {turns : Turns α} {current : α} {waiting : List α}

theorem begin_valid (positive : ∀ member ∈ current :: waiting, 0 < slice member) :
    (begin slice current waiting).Valid slice where
  positive := positive
  some_ := positive current List.mem_cons_self
  bound := Nat.le_refl _

theorem begin_ahead : (begin slice current waiting).ahead slice =
    period slice (current :: waiting) := by
  simp [begin, ahead, period]

/-- After the last tick of a turn the ring has moved on by one. -/
theorem next_last (last : turns.left = 1) : ∃ current waiting,
    turns.next slice = begin slice current waiting ∧ current :: waiting = turns.ring.rotate 1 := by
  rw [next, if_pos last]
  cases shape : turns.waiting with
  | nil => exact ⟨turns.current, [], rfl, by simp [ring, shape]⟩
  | cons first others => exact ⟨first, others ++ [turns.current], rfl, by simp [ring, shape]⟩

theorem next_more (more : turns.left ≠ 1) :
    turns.next slice = { turns with left := turns.left - 1 } := by
  rw [next, if_neg more]

theorem Valid.next (valid : turns.Valid slice) : (turns.next slice).Valid slice := by
  by_cases last : turns.left = 1
  · obtain ⟨current, waiting, same, moved⟩ := @next_last α slice _ last
    rw [same]
    refine begin_valid fun member here => valid.positive member ?_
    rw [moved, List.mem_rotate] at here
    exact here
  · have some_ := valid.some_
    have bound := valid.bound
    rw [next_more last]
    refine ⟨valid.positive, ?_, ?_⟩
    · exact Nat.sub_pos_of_lt (by omega)
    · exact (Nat.sub_le ..).trans bound

/-- A tick takes the first of the period to its end. -/
theorem Valid.next_ahead (valid : turns.Valid slice) :
    (turns.next slice).ahead slice = (turns.ahead slice).rotate 1 := by
  have some_ := valid.some_
  have bound := valid.bound
  obtain ⟨left, isLeft⟩ := Nat.exists_eq_add_of_le' some_
  have first : turns.ahead slice = turns.current :: (List.replicate left turns.current ++
      period slice turns.waiting ++
        List.replicate (slice turns.current - turns.left) turns.current) := by
    rw [ahead, isLeft, List.replicate_succ]
    rfl
  have back : List.replicate (slice turns.current - turns.left) turns.current ++ [turns.current] =
      List.replicate (slice turns.current - left) turns.current := by
    rw [← List.replicate_succ']
    congr 1
    omega
  rw [first, List.rotate_cons_succ, List.rotate_zero, List.append_assoc, back]
  by_cases last : turns.left = 1
  · obtain ⟨current, waiting, same, moved⟩ := @next_last α slice _ last
    obtain rfl : left = 0 := by omega
    rw [same, begin_ahead, moved, ring, List.rotate_cons_succ, List.rotate_zero]
    simp [period]
  · rw [next_more last, ahead]
    dsimp only
    rw [isLeft, Nat.add_sub_cancel]

/-! ## Any number of ticks -/

theorem valid_iterate (valid : turns.Valid slice) (ticks : Nat) :
    ((next slice)^[ticks] turns).Valid slice := by
  induction ticks with
  | zero => exact valid
  | succ ticks ih =>
      rw [Function.iterate_succ_apply']
      exact ih.next

theorem ahead_iterate (valid : turns.Valid slice) (ticks : Nat) :
    ((next slice)^[ticks] turns).ahead slice = (turns.ahead slice).rotate ticks := by
  induction ticks with
  | zero => rw [List.rotate_zero, Function.iterate_zero_apply]
  | succ ticks ih =>
      rw [Function.iterate_succ_apply', (valid_iterate valid ticks).next_ahead, ih,
        List.rotate_rotate]

/-- The ring is never changed but rotated. -/
theorem ring_iterate (ticks : Nat) :
    ∃ turned, ((next slice)^[ticks] turns).ring = turns.ring.rotate turned := by
  induction ticks with
  | zero => exact ⟨0, by rw [List.rotate_zero, Function.iterate_zero_apply]⟩
  | succ ticks ih =>
      obtain ⟨turned, same⟩ := ih
      rw [Function.iterate_succ_apply']
      by_cases last : ((next slice)^[ticks] turns).left = 1
      · obtain ⟨current, waiting, begun, moved⟩ := @next_last α slice _ last
        refine ⟨turned + 1, ?_⟩
        rw [begun, ← List.rotate_rotate, ← same, ← moved]
        rfl
      · rw [next_more last]
        exact ⟨turned, same⟩

theorem Valid.ahead_head (valid : turns.Valid slice) :
    (turns.ahead slice).head? = some turns.current := by
  obtain ⟨left, isLeft⟩ := Nat.exists_eq_add_of_le' valid.some_
  rw [ahead, isLeft, List.replicate_succ]
  rfl

/-- The turn after some ticks is the one that the period gives. -/
theorem current_iterate (positive : ∀ member ∈ current :: waiting, 0 < slice member)
    (ticks : Nat) :
    (period slice (current :: waiting))[ticks % (period slice (current :: waiting)).length]? =
      some ((next slice)^[ticks] (begin slice current waiting)).current := by
  have valid := begin_valid positive
  have head := (valid_iterate valid ticks).ahead_head
  rw [ahead_iterate valid, begin_ahead, ← List.rotate_mod] at head
  rwa [List.head?_rotate] at head
  refine Nat.mod_lt _ ?_
  have some_ := positive current List.mem_cons_self
  rw [period, List.flatMap_cons, List.length_append, List.length_replicate]
  omega

end Turns

end RtThread.Std
