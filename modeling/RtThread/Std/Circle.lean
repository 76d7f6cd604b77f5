import RtThread.Std.Ring

/-!
# One ring of nodes

A head and the distinct nodes behind it point at each other in a circle. Unlike
`Rings`, nothing is said of the pointers of other nodes, so that a node may be
left with whatever it had, and a change is described by the pointers that it
writes.
-/

namespace RtThread.Std.Links

universe u

variable {α : Type u} {links links' : Links α} {head node : α} {nodes left right : List α}

/-- `head` and the nodes behind it form a ring. -/
structure Circle (links : Links α) (head : α) (nodes : List α) : Prop where
  segment : links.Segment head nodes head
  distinct : (head :: nodes).Nodup

namespace Circle

theorem congr (circle : links.Circle head nodes)
    (next : ∀ x ∈ head :: nodes, links'.next x = links.next x)
    (prev : ∀ x ∈ head :: nodes, links'.prev x = links.prev x) : links'.Circle head nodes := by
  refine ⟨circle.segment.congr next ?_, circle.distinct⟩
  rintro x (member | rfl)
  · exact prev x (List.mem_cons_of_mem _ member)
  · exact prev x List.mem_cons_self

theorem next_mem (circle : links.Circle head nodes) : links.next head ∈ head :: nodes := by
  rcases circle.segment.next_mem with member | last
  · exact List.mem_cons_of_mem _ member
  · rw [last]
    exact List.mem_cons_self

/-- A node behind the head does not point at itself. -/
theorem next_ne (circle : links.Circle head nodes) (member : node ∈ nodes) :
    links.next node ≠ node := by
  obtain ⟨left, right, rfl⟩ := List.append_of_mem member
  obtain ⟨outside, distinct⟩ := List.nodup_cons.mp circle.distinct
  have behind := (segment_append.mp circle.segment).2
  rcases behind.next_mem with later | last
  · intro same
    rw [same] at later
    exact (List.nodup_cons.mp (List.nodup_append.mp distinct).2.1).1 later
  · intro same
    rw [last] at same
    exact outside (same ▸ member)

/-- A node comes in behind the head. -/
theorem insertFront (circle : links.Circle head nodes) (fresh : node ∉ head :: nodes)
    (first : links'.next head = node) (onward : links'.next node = links.next head)
    (back : links'.prev node = head) (second : links'.prev (links.next head) = node)
    (next : ∀ x, x ≠ head → x ≠ node → links'.next x = links.next x)
    (prev : ∀ x, x ≠ node → x ≠ links.next head → links'.prev x = links.prev x) :
    links'.Circle head (node :: nodes) := by
  obtain ⟨notHead, notBehind⟩ := not_or.mp fun either => fresh (List.mem_cons.mpr either)
  obtain ⟨outside, distinct⟩ := List.nodup_cons.mp circle.distinct
  constructor
  · refine ⟨first, back, circle.segment.retarget_first ?_ ?_ ?_ onward second⟩
    · rw [List.nodup_append]
      refine ⟨distinct, List.nodup_singleton _, ?_⟩
      rintro x member y last rfl
      rw [List.mem_singleton] at last
      exact outside (last ▸ member)
    · intro x member
      refine next x ?_ ?_
      · rintro rfl
        exact outside member
      · rintro rfl
        exact notBehind member
    · intro x member apart
      refine prev x ?_ apart
      rintro rfl
      exact member.elim notBehind notHead
  · refine List.nodup_cons.mpr ⟨?_, List.nodup_cons.mpr ⟨notBehind, distinct⟩⟩
    rw [List.mem_cons]
    rintro (rfl | member)
    · exact notHead rfl
    · exact outside member

/-- A node goes, and its neighbours point at each other. -/
theorem remove (circle : links.Circle head (left ++ node :: right))
    (onward : links'.next (links.prev node) = links.next node)
    (back : links'.prev (links.next node) = links.prev node)
    (next : ∀ x, x ≠ links.prev node → x ≠ node → links'.next x = links.next x)
    (prev : ∀ x, x ≠ links.next node → x ≠ node → links'.prev x = links.prev x) :
    links'.Circle head (left ++ right) := by
  obtain ⟨before, behind⟩ := segment_append.mp circle.segment
  have distinct : (head :: left ++ node :: right).Nodup := circle.distinct
  obtain ⟨leftDistinct, inner, apart⟩ := List.nodup_append.mp distinct
  obtain ⟨outside, rightDistinct⟩ := List.nodup_cons.mp inner
  have notLeft : ∀ x ∈ head :: left, x ≠ node := fun x member =>
    apart x member node List.mem_cons_self
  have notRight : ∀ x ∈ right, x ≠ node := fun x member same => outside (same ▸ member)
  have fromLeft := before.prev_mem
  have keepNext : ∀ x ∈ head :: left, x ≠ links.prev node → links'.next x = links.next x :=
    fun x member differ => next x differ (notLeft x member)
  constructor
  · cases right with
    | nil =>
        obtain ⟨toHead, -⟩ := behind
        rw [toHead] at onward back prev
        rw [List.append_nil]
        refine before.retarget_last leftDistinct keepNext ?_ onward back
        intro x member
        refine prev x ?_ (notLeft x (List.mem_cons_of_mem _ member))
        rintro rfl
        exact (List.nodup_cons.mp leftDistinct).1 member
    | cons first right =>
        obtain ⟨toFirst, -, rest⟩ := behind
        rw [toFirst] at onward back prev
        refine segment_append.mpr
          ⟨before.retarget_last leftDistinct keepNext ?_ onward back, rest.congr ?_ ?_⟩
        · intro x member
          have member' := List.mem_cons_of_mem head member
          exact prev x (apart x member' first (by simp)) (notLeft x member')
        · intro x member
          refine next x ?_ (notRight x member)
          rintro rfl
          exact apart _ fromLeft _ (List.mem_cons_of_mem _ member) rfl
        · rintro x (member | rfl)
          · refine prev x ?_ (notRight x (List.mem_cons_of_mem _ member))
            rintro rfl
            exact (List.nodup_cons.mp rightDistinct).1 member
          · exact prev x (apart x List.mem_cons_self first (by simp))
              (notLeft x List.mem_cons_self)
  · refine distinct.sublist ?_
    exact List.Sublist.cons_cons head ((List.sublist_cons_self node right).append_left left)

/-! ## The operations of lists -/

variable [DecidableEq α]

theorem unlink (circle : links.Circle head (left ++ node :: right)) :
    (links.unlink node).Circle head (left ++ right) := by
  have before := (segment_append.mp circle.segment).1.prev_mem
  have distinct : (head :: left ++ node :: right).Nodup := circle.distinct
  have notBefore : links.prev node ≠ node := by
    intro same
    rw [same] at before
    exact (List.nodup_append.mp distinct).2.2 node before node List.mem_cons_self rfl
  have notBehind : links.next node ≠ node := circle.next_ne (by simp)
  refine circle.remove ?_ ?_ ?_ ?_
  · rw [unlink_next, if_neg notBefore, if_pos rfl]
  · rw [unlink_prev, if_neg notBehind, if_pos rfl]
  · intro x apart apart'
    rw [unlink_next, if_neg apart', if_neg apart]
  · intro x apart apart'
    rw [unlink_prev, if_neg apart', if_neg apart]

/-- A node comes in at the end, which is in front of the head. -/
theorem insertBefore_head (circle : links.Circle head nodes) (fresh : node ∉ head :: nodes) :
    (links.insertBefore head node).Circle head (nodes ++ [node]) := by
  have apart : head ≠ node := fun same => fresh (same ▸ List.mem_cons_self)
  have last := circle.segment.prev_mem
  have apart' : links.prev head ≠ node := fun same => fresh (same ▸ last)
  constructor
  · refine segment_append.mpr ⟨circle.segment.retarget_last circle.distinct ?_ ?_ ?_ ?_, ?_, ?_⟩
    · intro x member differ
      have other : x ≠ node := fun same => fresh (same ▸ member)
      rw [insertBefore_next, if_neg other, if_neg differ]
    · intro x member
      have other : x ≠ node := fun same => fresh (same ▸ List.mem_cons_of_mem _ member)
      have inner : x ≠ head := fun same =>
        (List.nodup_cons.mp circle.distinct).1 (same ▸ member)
      rw [insertBefore_prev, if_neg inner, if_neg other]
    · rw [insertBefore_next, if_neg apart', if_pos rfl]
    · rw [insertBefore_prev, if_neg apart.symm, if_pos rfl]
    · rw [insertBefore_next, if_pos rfl]
    · rw [insertBefore_prev, if_pos rfl]
  · rw [← List.cons_append, List.nodup_append]
    refine ⟨circle.distinct, List.nodup_singleton _, ?_⟩
    rintro x member y only rfl
    exact fresh (List.mem_singleton.mp only ▸ member)

/-- The first node moves to the end. -/
theorem rotate (circle : links.Circle head (node :: nodes)) :
    ((links.unlink node).insertBefore head node).Circle head (nodes ++ [node]) := by
  have without : (links.unlink node).Circle head nodes :=
    @unlink α links head node [] nodes _ circle
  refine without.insertBefore_head ?_
  obtain ⟨outside, distinct⟩ := List.nodup_cons.mp circle.distinct
  rw [List.mem_cons]
  rintro (rfl | member)
  · exact outside List.mem_cons_self
  · exact (List.nodup_cons.mp distinct).1 member

end Circle

end RtThread.Std.Links
