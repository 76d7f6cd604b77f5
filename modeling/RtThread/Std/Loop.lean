import Mathlib

/-!
# Rounds of a loop

A loop that tests a guard before each round, and whose body goes on or leaves with a result. How
many rounds it makes, and when it makes rounds for ever.
-/

namespace RtThread.Std

universe u v

structure Loop (σ : Type u) (ρ : Type v) where
  guard : σ → Prop
  body : σ → σ ⊕ ρ

namespace Loop

variable {σ : Type u} {ρ : Type v}

/-- The loop ends after some rounds: where the guard fails, or with the result that the body has
left with. -/
inductive Ends (loop : Loop σ ρ) : Nat → σ → σ ⊕ ρ → Prop where
  | exit {s} (fails : ¬ loop.guard s) : Ends loop 0 s (.inl s)
  | leave {s r} (holds : loop.guard s) (leaves : loop.body s = .inr r) : Ends loop 1 s (.inr r)
  | round {n s s' r} (holds : loop.guard s) (goes : loop.body s = .inl s')
      (rest : Ends loop n s' r) : Ends loop (n + 1) s r

variable {loop : Loop σ ρ} {n : Nat} {s : σ} {r : σ ⊕ ρ}

/-- What makes every round go on never ends. -/
theorem not_ends {Stays : σ → Prop} (here : Stays s)
    (stays : ∀ s, Stays s → loop.guard s ∧ ∃ s', loop.body s = .inl s' ∧ Stays s') :
    ¬ loop.Ends n s r := by
  intro ends
  induction ends with
  | exit fails => exact fails (stays _ here).1
  | leave _ leaves =>
      obtain ⟨-, s', goes, -⟩ := stays _ here
      cases goes.symm.trans leaves
  | round _ goes _ ih =>
      obtain ⟨-, s', goes', there⟩ := stays _ here
      obtain rfl := Sum.inl_injective (goes'.symm.trans goes)
      exact ih there

/-- A loop that goes along a list, to whose last element the guard denies a round, makes no more
rounds than there are elements in front of it. -/
theorem ends_within {last : σ} {l : List σ} (denied : ¬ loop.guard last)
    (along : (s :: l).IsChain fun a b =>
      loop.guard a → loop.body a = .inl b ∨ ∃ r, loop.body a = .inr r)
    (final : (s :: l).getLast? = some last) : ∃ n ≤ l.length, ∃ r, loop.Ends n s r := by
  induction l generalizing s with
  | nil =>
      obtain rfl : s = last := by simpa using final
      exact ⟨0, le_rfl, _, .exit denied⟩
  | cons next rest ih =>
      obtain ⟨first, along⟩ := List.isChain_cons_cons.mp along
      by_cases holds : loop.guard s
      · rcases first holds with goes | ⟨r, leaves⟩
        · obtain ⟨n, few, r, ends⟩ := ih along (by simpa using final)
          exact ⟨n + 1, Nat.succ_le_succ few, r, .round holds goes ends⟩
        · exact ⟨1, Nat.succ_le_succ (Nat.zero_le _), .inr r, .leave holds leaves⟩
      · exact ⟨0, Nat.zero_le _, _, .exit holds⟩

end Loop

end RtThread.Std
