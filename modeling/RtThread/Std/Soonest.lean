import Mathlib

/-!
# What comes round next

Times in a cycle, the distance from now to when one of them comes round again, and the search of a
list for the least key.
-/

namespace RtThread.Std

universe u v

/-! ## Times in a cycle -/

section

variable {κ : Type u} [CommRing κ] [LinearOrder κ] [IsStrictOrderedRing κ]
  {period now a b : κ}

/-- How long it takes after `now` until it is `time`, in a cycle of length `period`. A whole cycle
when it is `time` now. -/
def untilNext (period now time : κ) : κ :=
  if now < time then time - now else time - now + period

/-- The cyclic order: what is still to come goes before what is over, and else the order is that of
the times. -/
theorem untilNext_lt_iff (valid : 0 ≤ a ∧ a < period) (valid' : 0 ≤ b ∧ b < period) :
    untilNext period now a < untilNext period now b ↔
      now < a ∧ a < b ∨ now < a ∧ b ≤ now ∨ a < b ∧ b ≤ now := by
  rcases lt_or_ge now a with later | past <;> rcases lt_or_ge now b with later' | past'
  · rw [untilNext, if_pos later, untilNext, if_pos later', sub_lt_sub_iff_right]
    exact ⟨fun before => .inl ⟨later, before⟩, by
      rintro (⟨-, before⟩ | ⟨-, past'⟩ | ⟨before, -⟩)
      · exact before
      · exact absurd later' past'.not_gt
      · exact before⟩
  · rw [untilNext, if_pos later, untilNext, if_neg past'.not_gt]
    exact iff_of_true (by linarith [valid.2, valid'.1]) (.inr (.inl ⟨later, past'⟩))
  · rw [untilNext, if_neg past.not_gt, untilNext, if_pos later']
    refine iff_of_false (by linarith [valid.1, valid'.2]) ?_
    rintro (⟨later, -⟩ | ⟨later, -⟩ | ⟨-, past'⟩)
    · exact later.not_ge past
    · exact later.not_ge past
    · exact later'.not_ge past'
  · rw [untilNext, if_neg past.not_gt, untilNext, if_neg past'.not_gt, add_lt_add_iff_right,
      sub_lt_sub_iff_right]
    exact ⟨fun before => .inr (.inr ⟨before, past'⟩), by
      rintro (⟨later, -⟩ | ⟨later, -⟩ | ⟨before, -⟩)
      · exact absurd later past.not_gt
      · exact absurd later past.not_gt
      · exact before⟩

end

/-! ## The least key -/

/-- The least key so far, and who has it. -/
structure Least (α : Type u) (κ : Type v) where
  key : κ
  holder : Option α

namespace Least

variable {α : Type u} {κ : Type v} [LinearOrder κ]

/-- Someone comes with a key. -/
def visit (admitted : α → Prop) [DecidablePred admitted] (key : α → κ) (best : Least α κ) (x : α) :
    Least α κ :=
  if admitted x ∧ key x < best.key then ⟨key x, some x⟩ else best

/-- What `best` says of those who have come, when nobody has to beat less than `bound`. -/
inductive Tells (admitted : α → Prop) (key : α → κ) (bound : κ) (seen : List α) :
    Least α κ → Prop where
  | nobody (least : ∀ y ∈ seen, admitted y → bound ≤ key y) :
      Tells admitted key bound seen ⟨bound, none⟩
  | somebody (x : α) (member : x ∈ seen) (admits : admitted x) (below : key x < bound)
      (least : ∀ y ∈ seen, admitted y → key x ≤ key y) :
      Tells admitted key bound seen ⟨key x, some x⟩

variable {admitted : α → Prop} [DecidablePred admitted] {key : α → κ} {bound : κ} {seen : List α}
  {best : Least α κ}

theorem Tells.visit (tells : Tells admitted key bound seen best) (x : α) :
    Tells admitted key bound (seen ++ [x]) (best.visit admitted key x) := by
  rw [Least.visit]
  by_cases better : admitted x ∧ key x < best.key
  · rw [if_pos better]
    obtain ⟨admits, below⟩ := better
    have last : x ∈ seen ++ [x] := List.mem_append_right seen (List.mem_singleton_self x)
    cases tells with
    | nobody least =>
        refine .somebody x last admits below fun y member admits' => ?_
        rcases List.mem_append.mp member with old | new
        · exact below.le.trans (least y old admits')
        · rw [List.mem_singleton.mp new]
    | somebody z _ _ below' least =>
        refine .somebody x last admits (below.trans below') fun y member admits' => ?_
        rcases List.mem_append.mp member with old | new
        · exact below.le.trans (least y old admits')
        · rw [List.mem_singleton.mp new]
  · rw [if_neg better]
    have worse : admitted x → best.key ≤ key x := fun admits =>
      le_of_not_gt fun below => better ⟨admits, below⟩
    cases tells with
    | nobody least =>
        refine .nobody fun y member admits' => ?_
        rcases List.mem_append.mp member with old | new
        · exact least y old admits'
        · rw [List.mem_singleton.mp new] at admits' ⊢
          exact worse admits'
    | somebody z member' admits below least =>
        refine .somebody z (List.mem_append_left _ member') admits below fun y member admits' => ?_
        rcases List.mem_append.mp member with old | new
        · exact least y old admits'
        · rw [List.mem_singleton.mp new] at admits' ⊢
          exact worse admits'

/-- The search of a list. -/
theorem Tells.foldl (tells : Tells admitted key bound seen best) (l : List α) :
    Tells admitted key bound (seen ++ l) (l.foldl (Least.visit admitted key) best) := by
  induction l generalizing seen best with
  | nil => simpa using tells
  | cons x rest ih =>
      have next := ih (tells.visit x)
      rwa [List.append_assoc, List.singleton_append] at next

theorem tells_foldl (admitted : α → Prop) [DecidablePred admitted] (key : α → κ) (bound : κ)
    (l : List α) : Tells admitted key bound l (l.foldl (Least.visit admitted key) ⟨bound, none⟩) :=
  have nobody : Tells admitted key bound [] ⟨bound, none⟩ := .nobody fun _ member => nomatch member
  nobody.foldl l

end Least

end RtThread.Std
