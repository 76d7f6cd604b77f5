import RtThread.Std.FreeList

/-!
# Slots

The cells of a span are handed out one after the other. Those that have been given back are free,
and can be handed out again.
-/

namespace RtThread.Std

/-- The first cells of a span, which are free or taken. -/
structure Slots (width : Nat) (span : Span) (used : Nat) (free taken : List Nat) : Prop where
  used_le : used ≤ span.length
  cells : (free ++ taken).Perm (Span.cells width ⟨span.start, used⟩)

namespace Slots

variable {width used p : Nat} {span : Span} {free taken : List Nat}

theorem start (some_ : 0 < span.length) : Slots width span 1 [] [span.start] := by
  refine ⟨some_, ?_⟩
  have first : Span.cells width ⟨span.start, 1⟩ = [span.start] := by simp [Span.cells]
  rw [first]
  rfl

/-- Take the first cell that has never been taken. -/
theorem grow (slots : Slots width span used free taken) (less : used < span.length) :
    Slots width span (used + 1) free ((span.start + width * used) :: taken) := by
  have last : Span.cells width ⟨span.start + width * used, 1⟩ = [span.start + width * used] := by
    simp [Span.cells]
  refine ⟨less, ?_⟩
  rw [Span.cells_split, last]
  refine List.perm_middle.trans ?_
  exact (List.perm_append_singleton _ _).symm.trans (slots.cells.append_right _)

/-- Take a free cell. -/
theorem reuse (slots : Slots width span used (p :: free) taken) :
    Slots width span used free (p :: taken) :=
  ⟨slots.used_le, List.perm_middle.trans slots.cells⟩

theorem put (slots : Slots width span used free taken) (member : p ∈ taken) :
    Slots width span used (p :: free) (taken.erase p) := by
  refine ⟨slots.used_le, List.Perm.trans ?_ slots.cells⟩
  exact List.perm_middle.symm.trans ((List.perm_cons_erase member).symm.append_left free)

theorem length (slots : Slots width span used free taken) :
    free.length + taken.length = used := by
  rw [← List.length_append, slots.cells.length_eq, Span.length_cells]

theorem nodup (slots : Slots width span used free taken) (positive : 0 < width) :
    (free ++ taken).Nodup :=
  slots.cells.nodup_iff.mpr (Span.nodup_cells positive _)

theorem cell (slots : Slots width span used free taken) (member : p ∈ free ∨ p ∈ taken) :
    ∃ index < used, p = span.start + width * index := by
  obtain ⟨index, below, same⟩ :=
    Span.mem_cells.mp (slots.cells.subset (List.mem_append.mpr member))
  exact ⟨index, below, same.symm⟩

/-- The cells lie in the span. -/
theorem inside (slots : Slots width span used free taken) (member : p ∈ free ∨ p ∈ taken) :
    span.start ≤ p ∧ p + width ≤ span.finish width := by
  obtain ⟨index, below, rfl⟩ := slots.cell member
  have within : width * (index + 1) ≤ width * span.length :=
    Nat.mul_le_mul_left width (Nat.le_trans below slots.used_le)
  rw [Nat.mul_succ] at within
  rw [Span.finish]
  omega

/-- A cell that is free and one that is taken do not overlap. -/
theorem apart {q : Nat} (slots : Slots width span used free taken) (positive : 0 < width)
    (here : q ∈ free) (there : p ∈ taken) : q + width ≤ p ∨ p + width ≤ q := by
  obtain ⟨i, -, first⟩ := slots.cell (Or.inl here)
  obtain ⟨j, -, second⟩ := slots.cell (Or.inr there)
  have differ : q ≠ p := (List.nodup_append.mp (slots.nodup positive)).2.2 q here p there
  rcases Nat.lt_trichotomy i j with below | same | above
  · have steps := Nat.mul_le_mul_left width (Nat.succ_le_of_lt below)
    rw [Nat.mul_succ] at steps
    omega
  · exact absurd (first.trans (same ▸ second.symm)) differ
  · have steps := Nat.mul_le_mul_left width (Nat.succ_le_of_lt above)
    rw [Nat.mul_succ] at steps
    omega

/-- When all cells that have been used are free, none is taken. -/
theorem taken_eq_nil (slots : Slots width span used free taken) (all : free.length = used) :
    taken = [] := by
  have sum := slots.length
  exact List.eq_nil_of_length_eq_zero (by omega)

end Slots

end RtThread.Std
