import Mathlib

/-!
# Elements in lists or in somebody's hands

Every element of a collection is listed, or one holder has it in hand, and never
both. A holder has at most one element. Taking and giving move one element.
-/

namespace RtThread.Std

universe u v

variable {κ : Type u} {α : Type v}

/-- The elements of `all` are those of `listed` and those in the holders' hands. -/
def Custody (hands : κ → Option α) (listed all : List α) : Prop :=
  ∃ holders : List (κ × α), (holders.map Prod.fst).Nodup ∧
    (∀ holder element, (holder, element) ∈ holders ↔ hands holder = some element) ∧
    (listed ++ holders.map Prod.snd).Perm all

namespace Custody

variable {hands : κ → Option α} {listed listed' all : List α} {holder : κ} {element : α}

theorem perm (custody : Custody hands listed all) (same : listed'.Perm listed) :
    Custody hands listed' all := by
  obtain ⟨holders, nodup, holds, split⟩ := custody
  exact ⟨holders, nodup, holds, (same.append_right _).trans split⟩

theorem mem_all (custody : Custody hands listed all) (member : element ∈ listed) :
    element ∈ all := by
  obtain ⟨holders, -, -, split⟩ := custody
  exact split.subset (List.mem_append_left _ member)

theorem held_mem_all (custody : Custody hands listed all) (held : hands holder = some element) :
    element ∈ all := by
  obtain ⟨holders, -, holds, split⟩ := custody
  refine split.subset (List.mem_append_right _ ?_)
  exact List.mem_map_of_mem (f := Prod.snd) ((holds holder element).mpr held)

theorem nodup_listed (custody : Custody hands listed all) (distinct : all.Nodup) :
    listed.Nodup := by
  obtain ⟨holders, -, -, split⟩ := custody
  exact (List.nodup_append.mp (split.nodup_iff.mpr distinct)).1

/-- What is in somebody's hands is not listed. -/
theorem notMem_listed (custody : Custody hands listed all) (distinct : all.Nodup)
    (held : hands holder = some element) : element ∉ listed := by
  obtain ⟨holders, -, holds, split⟩ := custody
  intro member
  have there := List.mem_map_of_mem (f := Prod.snd) ((holds holder element).mpr held)
  exact (List.nodup_append.mp (split.nodup_iff.mpr distinct)).2.2 _ member _ there rfl

theorem length_lt (custody : Custody hands listed all) (held : hands holder = some element) :
    listed.length < all.length := by
  obtain ⟨holders, -, holds, split⟩ := custody
  have some_ := List.length_pos_of_mem ((holds holder element).mpr held)
  have total := split.length_eq
  rw [List.length_append, List.length_map] at total
  omega

/-- No two holders have the same element. -/
theorem holder_unique {holder' : κ} (custody : Custody hands listed all) (distinct : all.Nodup)
    (held : hands holder = some element) (held' : hands holder' = some element) :
    holder = holder' := by
  obtain ⟨holders, -, holds, split⟩ := custody
  have nodup := (List.nodup_append.mp (split.nodup_iff.mpr distinct)).2.1
  have same := List.inj_on_of_nodup_map nodup ((holds _ _).mpr held) ((holds _ _).mpr held') rfl
  exact congrArg Prod.fst same

variable [DecidableEq κ]

/-- A holder takes an element off the list. -/
theorem take (custody : Custody hands listed all) (split : listed.Perm (element :: listed'))
    (free : hands holder = none) :
    Custody (Function.update hands holder (some element)) listed' all := by
  obtain ⟨holders, nodup, holds, total⟩ := custody
  refine ⟨(holder, element) :: holders, ?_, ?_, ?_⟩
  · rw [List.map_cons, List.nodup_cons]
    refine ⟨?_, nodup⟩
    intro member
    obtain ⟨⟨other, held⟩, there, rfl⟩ := List.mem_map.mp member
    exact nomatch free.symm.trans ((holds _ _).mp there)
  · intro other held
    by_cases same : other = holder
    · subst same
      have old : (other, held) ∉ holders := fun there =>
        nomatch free.symm.trans ((holds _ _).mp there)
      simp [old, eq_comm]
    · simp [same, holds]
  · refine List.Perm.trans ?_ total
    refine List.Perm.trans List.perm_middle ?_
    exact (split.symm.append_right _)

/-- A holder puts its element on the list. -/
theorem give (custody : Custody hands listed all) (held : hands holder = some element)
    (joined : listed'.Perm (element :: listed)) :
    Custody (Function.update hands holder none) listed' all := by
  obtain ⟨holders, nodup, holds, total⟩ := custody
  obtain ⟨left, right, rfl⟩ := List.append_of_mem ((holds holder element).mpr held)
  simp only [List.map_append, List.map_cons, List.nodup_append, List.nodup_cons] at nodup
  refine ⟨left ++ right, ?_, ?_, ?_⟩
  · rw [List.map_append, List.nodup_append]
    refine ⟨nodup.1, nodup.2.1.2, ?_⟩
    intro first here second there
    exact nodup.2.2 first here second (List.mem_cons_of_mem _ there)
  · intro other held'
    by_cases same : other = holder
    · subst same
      have notLeft : (other, held') ∉ left := fun there =>
        nodup.2.2 other (List.mem_map_of_mem (f := Prod.fst) there) other (by simp) rfl
      have notRight : (other, held') ∉ right := fun there =>
        nodup.2.1.1 (List.mem_map_of_mem (f := Prod.fst) there)
      simp [notLeft, notRight]
    · rw [Function.update_of_ne same, ← holds]
      simp [same]
  · refine List.Perm.trans ?_ total
    refine (joined.append_right _).trans ?_
    simp only [List.map_append, List.map_cons, List.cons_append]
    rw [← List.append_assoc, ← List.append_assoc]
    exact List.perm_middle.symm

end Custody

end RtThread.Std
