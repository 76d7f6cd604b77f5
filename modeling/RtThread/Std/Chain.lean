import Mathlib

/-!
# Singly linked lists in memory

A chain is a list of addresses each of which points at the next one; the last
one points at `null`. A chain depends only on the pointers of its own nodes, so
that several chains can share one memory.
-/

namespace RtThread.Std

universe u

variable {α : Type u}

/-- Following `next` from `head` visits `nodes` and ends at `null`. -/
def Chain (next : α → α) (null : α) : α → List α → Prop
  | head, [] => head = null
  | head, node :: nodes => head = node ∧ node ≠ null ∧ Chain next null (next node) nodes

namespace Chain

variable {next next' : α → α} {null head node : α} {nodes : List α}

@[simp] theorem nil_iff : Chain next null head [] ↔ head = null := Iff.rfl

theorem congr (chain : Chain next null head nodes) (same : ∀ node ∈ nodes, next' node = next node) :
    Chain next' null head nodes := by
  induction nodes generalizing head with
  | nil => exact chain
  | cons node nodes ih =>
      obtain ⟨first, nonnull, rest⟩ := chain
      refine ⟨first, nonnull, ?_⟩
      rw [same node (by simp)]
      exact ih rest fun other member => same other (by simp [member])

/-- A pointer outside the chain can be overwritten. -/
theorem update [DecidableEq α] (chain : Chain next null head nodes) (outside : node ∉ nodes)
    (target : α) : Chain (Function.update next node target) null head nodes := by
  refine chain.congr fun other member => Function.update_of_ne ?_ ..
  rintro rfl
  exact outside member

theorem null_notMem (chain : Chain next null head nodes) : null ∉ nodes := by
  induction nodes generalizing head with
  | nil => exact List.not_mem_nil
  | cons node nodes ih =>
      obtain ⟨-, nonnull, rest⟩ := chain
      rw [List.mem_cons, not_or]
      exact ⟨nonnull.symm, ih rest⟩

/-- The head is `null` when the chain is empty, and only then. -/
theorem head_eq_null_iff (chain : Chain next null head nodes) : head = null ↔ nodes = [] := by
  cases nodes with
  | nil => exact iff_of_true chain rfl
  | cons node nodes =>
      obtain ⟨rfl, nonnull, -⟩ := chain
      exact iff_of_false nonnull (by simp)

theorem exists_cons (chain : Chain next null head nodes) (nonnull : head ≠ null) :
    ∃ rest, nodes = head :: rest ∧ Chain next null (next head) rest := by
  cases nodes with
  | nil => exact absurd chain nonnull
  | cons node nodes =>
      obtain ⟨rfl, -, rest⟩ := chain
      exact ⟨nodes, rfl, rest⟩

/-- The pointers determine the chain. -/
theorem unique {nodes' : List α} (chain : Chain next null head nodes)
    (chain' : Chain next null head nodes') : nodes = nodes' := by
  induction nodes generalizing head nodes' with
  | nil => exact (chain'.head_eq_null_iff.mp chain).symm
  | cons node nodes ih =>
      obtain ⟨rfl, nonnull, rest⟩ := chain
      obtain ⟨rest', rfl, tail⟩ := chain'.exists_cons nonnull
      rw [ih rest tail]

/-- Put a node in front. -/
theorem push [DecidableEq α] (chain : Chain next null head nodes) (outside : node ∉ nodes)
    (nonnull : node ≠ null) :
    Chain (Function.update next node head) null node (node :: nodes) := by
  refine ⟨rfl, nonnull, ?_⟩
  rw [Function.update_self]
  exact chain.update outside head

/-- Hang a chain behind the last node. -/
theorem append [DecidableEq α] {last : α} {rest : List α}
    (chain : Chain next null head (nodes ++ [last])) (nodup : (nodes ++ [last]).Nodup)
    (tail : Chain next null node rest) (outside : last ∉ rest) :
    Chain (Function.update next last node) null head (nodes ++ last :: rest) := by
  induction nodes generalizing head with
  | nil =>
      obtain ⟨rfl, nonnull, -⟩ := chain
      refine ⟨rfl, nonnull, ?_⟩
      rw [Function.update_self]
      exact tail.update outside node
  | cons first nodes ih =>
      obtain ⟨rfl, nonnull, chain⟩ := chain
      obtain ⟨fresh, nodup⟩ := List.nodup_cons.mp nodup
      have apart : head ≠ last := by
        rintro rfl
        simp at fresh
      refine ⟨rfl, nonnull, ?_⟩
      rw [Function.update_of_ne apart]
      exact ih chain nodup

end Chain

end RtThread.Std
