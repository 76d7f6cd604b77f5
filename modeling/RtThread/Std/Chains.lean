import RtThread.Std.Chain
import RtThread.Std.FreeList

/-!
# Lists that share one memory

Several chains run through the same pointers. A node is in at most one of them, so that a pointer
that is redirected belongs to one list only.
-/

namespace RtThread.Std

universe u v

variable {α : Type u} {ι : Type v}

/-- The node behind another one leaves the chain. -/
theorem Chain.unlink [DecidableEq α] {next : α → α} {null head prev node : α} {left right : List α}
    (chain : Chain next null head (left ++ prev :: node :: right))
    (nodup : (left ++ prev :: node :: right).Nodup) :
    Chain (Function.update next prev (next node)) null head (left ++ prev :: right) := by
  induction left generalizing head with
  | nil =>
      obtain ⟨rfl, nonnull, -, -, rest⟩ := chain
      have fresh : head ∉ right := fun member => by simp [member] at nodup
      refine ⟨rfl, nonnull, ?_⟩
      rw [Function.update_self]
      exact rest.update fresh _
  | cons first left ih =>
      obtain ⟨rfl, nonnull, chain⟩ := chain
      obtain ⟨fresh, nodup⟩ := List.nodup_cons.mp nodup
      have apart : head ≠ prev := by
        rintro rfl
        simp at fresh
      refine ⟨rfl, nonnull, ?_⟩
      rw [Function.update_of_ne apart]
      exact ih chain nodup

/-- Who walks along a chain finds the pointer that points at a node. -/
theorem FreeList.seek_chain {list : FreeList} {prev : Option Nat} {left right : List Nat}
    {node : Nat} (chain : Chain list.next 0 (list.load prev) (left ++ node :: right))
    (fresh : node ∉ left) :
    list.seek (fun _ => true) (fun other => other = node) prev = some (left.getLast?.or prev) := by
  induction left generalizing prev with
  | nil =>
      obtain ⟨points, nonnull, -⟩ := chain
      rw [seek, if_neg (points ▸ nonnull), if_pos rfl, if_pos (decide_eq_true points)]
      rfl
  | cons first left ih =>
      obtain ⟨points, nonnull, chain⟩ := chain
      obtain ⟨apart, fresh⟩ := not_or.mp fun here => fresh (List.mem_cons.mpr here)
      have rest := @ih (some first) chain fresh
      rw [seek, points, if_neg nonnull, if_pos rfl, if_neg (by simpa using Ne.symm apart), rest,
        List.getLast?_cons]
      cases left.getLast? with
      | none => rfl
      | some last => rfl

/-- Lists of nodes in one memory. -/
structure Chains (next : α → α) (null : α) (head : ι → α) (nodes : ι → List α) : Prop where
  chain : ∀ i, Chain next null (head i) (nodes i)
  nodup : ∀ i, (nodes i).Nodup
  apart : ∀ i j node, node ∈ nodes i → node ∈ nodes j → i = j

namespace Chains

variable {next : α → α} {null node : α} {head : ι → α} {nodes : ι → List α} {i : ι}

/-- The pointer of a node that is in no list can be overwritten. -/
theorem update [DecidableEq α] (chains : Chains next null head nodes)
    (outside : ∀ j, node ∉ nodes j) (target : α) :
    Chains (Function.update next node target) null head nodes :=
  ⟨fun j => (chains.chain j).update (outside j) target, chains.nodup, chains.apart⟩

variable [DecidableEq ι]

/-- One list is replaced by another one. -/
theorem replace {next' : α → α} {head' : ι → α} {list : List α}
    (chains : Chains next null head nodes) (chain : Chain next' null (head' i) list)
    (others : ∀ j, j ≠ i → Chain next' null (head' j) (nodes j)) (nodup : list.Nodup)
    (fresh : ∀ node ∈ list, node ∈ nodes i ∨ ∀ j, node ∉ nodes j) :
    Chains next' null head' (Function.update nodes i list) := by
  have single (j : ι) (node : α) (elsewhere : j ≠ i) (there : node ∈ nodes j) : node ∉ list := by
    intro here
    rcases fresh node here with old | new
    · exact elsewhere (chains.apart j i node there old)
    · exact new j there
  refine ⟨fun j => ?_, fun j => ?_, fun j k node first second => ?_⟩
  · by_cases same : j = i
    · subst same
      rwa [Function.update_self]
    · rw [Function.update_of_ne same]
      exact others j same
  · by_cases same : j = i
    · subst same
      rwa [Function.update_self]
    · rw [Function.update_of_ne same]
      exact chains.nodup j
  · by_cases same : j = i
    · subst same
      rw [Function.update_self] at first
      by_contra elsewhere
      rw [Function.update_of_ne (Ne.symm elsewhere)] at second
      exact single k node (Ne.symm elsewhere) second first
    · rw [Function.update_of_ne same] at first
      by_cases same' : k = i
      · subst same'
        rw [Function.update_self] at second
        exact absurd second (single j node same first)
      · rw [Function.update_of_ne same'] at second
        exact chains.apart j k node first second

/-- The first node of a list leaves it. -/
theorem pop {rest : List α} (chains : Chains next null head nodes)
    (front : nodes i = node :: rest) :
    Chains next null (Function.update head i (next node)) (Function.update nodes i rest) := by
  have chain := chains.chain i
  have nodup := chains.nodup i
  rw [front] at chain nodup
  refine chains.replace ?_ (fun j apart => ?_) (List.nodup_cons.mp nodup).2 fun other member => ?_
  · obtain ⟨-, -, rest⟩ := chain
    rwa [Function.update_self]
  · rw [Function.update_of_ne apart]
    exact chains.chain j
  · exact Or.inl (front ▸ List.mem_cons_of_mem node member)

variable [DecidableEq α]

/-- Put a node in front of a list. -/
theorem push (chains : Chains next null head nodes) (outside : ∀ j, node ∉ nodes j)
    (nonnull : node ≠ null) (i : ι) :
    Chains (Function.update next node (head i)) null (Function.update head i node)
      (Function.update nodes i (node :: nodes i)) := by
  refine chains.replace ?_ (fun j apart => ?_) ?_ fun other member => ?_
  · rw [Function.update_self]
    exact (chains.chain i).push (outside i) nonnull
  · rw [Function.update_of_ne apart]
    exact (chains.chain j).update (outside j) _
  · exact List.nodup_cons.mpr ⟨outside i, chains.nodup i⟩
  · rcases List.mem_cons.mp member with rfl | old
    · exact Or.inr outside
    · exact Or.inl old

/-- A node further back leaves its list. -/
theorem unlink {prev : α} {left right : List α} (chains : Chains next null head nodes)
    (split : nodes i = left ++ prev :: node :: right) :
    Chains (Function.update next prev (next node)) null head
      (Function.update nodes i (left ++ prev :: right)) := by
  have chain := chains.chain i
  have nodup := chains.nodup i
  rw [split] at chain nodup
  have kept : (left ++ prev :: right).Sublist (left ++ prev :: node :: right) :=
    List.Sublist.append_left ((List.sublist_cons_self node right).cons_cons prev) left
  refine chains.replace (chain.unlink nodup) (fun j apart => ?_) (nodup.sublist kept)
    fun other member => Or.inl (split ▸ kept.subset member)
  refine (chains.chain j).update (fun there => apart (chains.apart j i prev there ?_)) _
  rw [split]
  exact List.mem_append_right left List.mem_cons_self

/-- What has left its list is in none. -/
theorem notMem_erase (chains : Chains next null head nodes) (member : node ∈ nodes i) (j : ι) :
    node ∉ Function.update nodes i ((nodes i).erase node) j := by
  by_cases same : j = i
  · subst same
    rw [Function.update_self]
    exact (chains.nodup j).not_mem_erase
  · rw [Function.update_of_ne same]
    exact fun there => same (chains.apart j i node there member)

end Chains

end RtThread.Std
