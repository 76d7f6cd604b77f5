import Mathlib

/-!
# Circular buffers

A circular buffer keeps a queue in the slots from `front` up to `back`, modulo
its capacity. `Fills` says which queue of a known length the slots and indices
spell out. Where one slot stays free, equal indices mean an empty queue, and the
indices alone determine the length: this is `Holds`. Where the free slots are empty,
the slots alone determine the queue: this is `Sparse`.
-/

namespace RtThread.Std

universe u

variable {α : Type u}

/-- Two offsets short of the capacity name different slots. -/
theorem offset_inj {capacity front offset offset' : Nat} (bound : offset < capacity)
    (bound' : offset' < capacity)
    (same : (front + offset) % capacity = (front + offset') % capacity) : offset = offset' := by
  have congruent : offset ≡ offset' [MOD capacity] := Nat.ModEq.add_left_cancel' front same
  exact congruent.eq_of_lt_of_lt bound bound'

/-- The next index of a ring. -/
theorem next_index {capacity index : Nat} (inside : index < capacity) :
    (if index + 1 ≥ capacity then 0 else index + 1) = (index + 1) % capacity := by
  split
  · rename_i last
    rw [show index + 1 = capacity by omega, Nat.mod_self]
  · rename_i inner
    rw [Nat.mod_eq_of_lt (by omega)]

/-- The slots from `front` on, up to `back`, hold `queue`. -/
structure Fills (capacity : Nat) (slots : Nat → α) (front back : Nat) (queue : List α) :
    Prop where
  inside : front < capacity
  room : queue.length ≤ capacity
  back_eq : back = (front + queue.length) % capacity
  slot : ∀ (offset : Nat) (bound : offset < queue.length),
    slots ((front + offset) % capacity) = queue[offset]

namespace Fills

variable {capacity front back : Nat} {slots : Nat → α} {queue : List α} {item : α}

theorem nil (inside : front < capacity) : Fills capacity slots front front [] where
  inside := inside
  room := Nat.zero_le capacity
  back_eq := (Nat.mod_eq_of_lt inside).symm
  slot := by simp

/-- Store an item behind the last one. -/
theorem push (fills : Fills capacity slots front back queue) (room : queue.length < capacity)
    (item : α) :
    Fills capacity (Function.update slots back item) front ((back + 1) % capacity)
      (queue ++ [item]) := by
  refine ⟨fills.inside, by simpa using Nat.succ_le_of_lt room, ?_, ?_⟩
  · rw [fills.back_eq, Nat.mod_add_mod, List.length_append, List.length_singleton, Nat.add_assoc]
  · intro offset bound
    by_cases early : offset < queue.length
    · have apart : (front + offset) % capacity ≠ back := by
        rw [fills.back_eq]
        intro same
        have equal := offset_inj (by omega) room same
        omega
      rw [Function.update_of_ne apart, List.getElem_append_left early]
      exact fills.slot offset early
    · obtain rfl : offset = queue.length := by
        simp only [List.length_append, List.length_singleton] at bound
        omega
      rw [← fills.back_eq]
      simp

/-- Take the first item. -/
theorem pop (fills : Fills capacity slots front back (item :: queue)) :
    slots front = item ∧ Fills capacity slots ((front + 1) % capacity) back queue := by
  have inside := fills.inside
  have room := fills.room
  have positive := Nat.zero_lt_of_lt inside
  refine ⟨?_, Nat.mod_lt _ positive, ?_, ?_, ?_⟩
  · have first := fills.slot 0 (by simp)
    rwa [Nat.add_zero, Nat.mod_eq_of_lt inside] at first
  · rw [List.length_cons] at room
    omega
  · rw [fills.back_eq, Nat.mod_add_mod, List.length_cons]
    congr 1
    omega
  · intro offset bound
    have next := fills.slot (offset + 1) (by simpa using bound)
    rw [Nat.mod_add_mod, Nat.add_assoc, Nat.add_comm 1 offset]
    simpa using next

/-- Store some items behind the last one. -/
theorem append {slots' : Nat → α} {items : List α}
    (fills : Fills capacity slots front back queue)
    (room : queue.length + items.length ≤ capacity)
    (stored : ∀ (offset : Nat) (bound : offset < items.length),
      slots' ((back + offset) % capacity) = items[offset])
    (kept : ∀ slot < capacity, (∀ offset < items.length, slot ≠ (back + offset) % capacity) →
      slots' slot = slots slot) :
    Fills capacity slots' front ((back + items.length) % capacity) (queue ++ items) := by
  have place : ∀ offset,
      (back + offset) % capacity = (front + (queue.length + offset)) % capacity := by
    intro offset
    rw [fills.back_eq, Nat.mod_add_mod, Nat.add_assoc]
  refine ⟨fills.inside, by simpa using room, ?_, ?_⟩
  · rw [place, List.length_append]
  · intro offset bound
    rw [List.length_append] at bound
    by_cases early : offset < queue.length
    · rw [List.getElem_append_left early, kept _ (Nat.mod_lt _ (Nat.zero_lt_of_lt fills.inside))]
      · exact fills.slot offset early
      · intro later inside same
        rw [place] at same
        have equal := offset_inj (by omega) (by omega) same
        omega
    · obtain ⟨later, rfl⟩ := Nat.exists_eq_add_of_le (Nat.le_of_not_lt early)
      rw [List.getElem_append_right (Nat.le_add_right ..), ← place]
      have offset := stored later (by omega)
      simpa using offset

/-- Take some of the items. -/
theorem drop {count : Nat} (fills : Fills capacity slots front back queue)
    (bound : count ≤ queue.length) :
    Fills capacity slots ((front + count) % capacity) back (queue.drop count) := by
  have room := fills.room
  refine ⟨Nat.mod_lt _ (Nat.zero_lt_of_lt fills.inside), ?_, ?_, ?_⟩
  · rw [List.length_drop]
    omega
  · rw [fills.back_eq, Nat.mod_add_mod, List.length_drop, Nat.add_assoc,
      Nat.add_sub_cancel' bound]
  · intro offset inside
    rw [List.length_drop] at inside
    rw [Nat.mod_add_mod, Nat.add_assoc, List.getElem_drop]
    exact fills.slot (count + offset) (by omega)

end Fills

/-- The slots from `front` up to `back` hold `queue`. -/
structure Holds (capacity : Nat) (slots : Nat → α) (front back : Nat) (queue : List α) :
    Prop where
  inside : front < capacity
  room : queue.length < capacity
  back_eq : back = (front + queue.length) % capacity
  slot : ∀ (offset : Nat) (bound : offset < queue.length),
    slots ((front + offset) % capacity) = queue[offset]

namespace Holds

variable {capacity front back : Nat} {slots : Nat → α} {queue : List α} {item : α}

theorem nil (inside : front < capacity) : Holds capacity slots front front [] where
  inside := inside
  room := Nat.zero_lt_of_lt inside
  back_eq := (Nat.mod_eq_of_lt inside).symm
  slot := by simp

theorem back_lt (holds : Holds capacity slots front back queue) : back < capacity := by
  rw [holds.back_eq]
  exact Nat.mod_lt _ (Nat.zero_lt_of_lt holds.inside)

theorem fills (holds : Holds capacity slots front back queue) :
    Fills capacity slots front back queue :=
  ⟨holds.inside, holds.room.le, holds.back_eq, holds.slot⟩

theorem of_fills (fills : Fills capacity slots front back queue)
    (room : queue.length < capacity) : Holds capacity slots front back queue :=
  ⟨fills.inside, room, fills.back_eq, fills.slot⟩

theorem empty_iff (holds : Holds capacity slots front back queue) :
    front = back ↔ queue = [] := by
  constructor
  · intro same
    have start : (front + 0) % capacity = (front + queue.length) % capacity := by
      rw [← holds.back_eq, ← same, Nat.add_zero, Nat.mod_eq_of_lt holds.inside]
    have none := offset_inj (Nat.zero_lt_of_lt holds.inside) holds.room start
    exact List.eq_nil_of_length_eq_zero none.symm
  · rintro rfl
    rw [holds.back_eq, List.length_nil, Nat.add_zero, Nat.mod_eq_of_lt holds.inside]

theorem full_iff (holds : Holds capacity slots front back queue) :
    (back + 1) % capacity = front ↔ queue.length + 1 = capacity := by
  have positive := Nat.zero_lt_of_lt holds.inside
  have next : (back + 1) % capacity = (front + (queue.length + 1)) % capacity := by
    rw [holds.back_eq, Nat.mod_add_mod, Nat.add_assoc]
  constructor
  · intro same
    by_contra other
    have start : (front + (queue.length + 1)) % capacity = (front + 0) % capacity := by
      rw [← next, same, Nat.add_zero, Nat.mod_eq_of_lt holds.inside]
    have room := holds.room
    have zero := offset_inj (by omega) positive start
    omega
  · intro full
    rw [next, full, Nat.add_mod_right, Nat.mod_eq_of_lt holds.inside]

/-- Store an item behind the last one. -/
theorem push (holds : Holds capacity slots front back queue)
    (room : queue.length + 1 < capacity) (item : α) :
    Holds capacity (Function.update slots back item) front ((back + 1) % capacity)
      (queue ++ [item]) :=
  .of_fills (holds.fills.push holds.room item) (by simpa using room)

/-- Take the first item. -/
theorem pop (holds : Holds capacity slots front back (item :: queue)) :
    slots front = item ∧ Holds capacity slots ((front + 1) % capacity) back queue := by
  obtain ⟨first, rest⟩ := holds.fills.pop
  have room := holds.room
  rw [List.length_cons] at room
  exact ⟨first, .of_fills rest (by omega)⟩

/-- The distance between the indices is the number of items. -/
theorem length_eq (holds : Holds capacity slots front back queue) :
    (back + capacity - front) % capacity = queue.length := by
  have inside := holds.inside
  have room := holds.room
  have back_eq := holds.back_eq
  by_cases straight : front + queue.length < capacity
  · rw [Nat.mod_eq_of_lt straight] at back_eq
    rw [show back + capacity - front = queue.length + capacity by omega, Nat.add_mod_right,
      Nat.mod_eq_of_lt room]
  · rw [Nat.mod_eq_sub_mod (by omega), Nat.mod_eq_of_lt (by omega)] at back_eq
    rw [show back + capacity - front = queue.length by omega, Nat.mod_eq_of_lt room]

/-- The indices and slots determine the queue. -/
theorem unique {queue' : List α} (holds : Holds capacity slots front back queue)
    (holds' : Holds capacity slots front back queue') : queue = queue' := by
  have length : queue.length = queue'.length := by
    rw [← holds.length_eq, holds'.length_eq]
  refine List.ext_getElem length fun offset bound bound' => ?_
  rw [← holds.slot offset bound, holds'.slot offset bound']

end Holds

/-- The slots from `front` up to `back` hold `queue`, and the others are empty. -/
structure Sparse (capacity : Nat) (slots : Nat → Option α) (front back : Nat) (queue : List α) :
    Prop where
  inside : front < capacity
  room : queue.length ≤ capacity
  back_eq : back = (front + queue.length) % capacity
  slot : ∀ offset < capacity, slots ((front + offset) % capacity) = queue[offset]?

namespace Sparse

variable {capacity front back : Nat} {slots : Nat → Option α} {queue : List α} {item : α}

theorem nil (inside : front < capacity) (empty : ∀ slot < capacity, slots slot = none) :
    Sparse capacity slots front front [] where
  inside := inside
  room := Nat.zero_le capacity
  back_eq := (Nat.mod_eq_of_lt inside).symm
  slot _ _ := empty _ (Nat.mod_lt _ (Nat.zero_lt_of_lt inside))

theorem back_lt (sparse : Sparse capacity slots front back queue) : back < capacity := by
  rw [sparse.back_eq]
  exact Nat.mod_lt _ (Nat.zero_lt_of_lt sparse.inside)

/-- Every slot is at some offset. -/
theorem offset_of (sparse : Sparse capacity slots front back queue) {slot : Nat}
    (inside : slot < capacity) : ∃ offset < capacity, slot = (front + offset) % capacity := by
  have start := sparse.inside
  refine ⟨(slot + capacity - front) % capacity, Nat.mod_lt _ (Nat.zero_lt_of_lt inside), ?_⟩
  rw [Nat.add_mod_mod, show front + (slot + capacity - front) = slot + capacity by omega,
    Nat.add_mod_right, Nat.mod_eq_of_lt inside]

/-- The slot behind the queue is empty, unless there is none. -/
theorem back_empty (sparse : Sparse capacity slots front back queue)
    (room : queue.length < capacity) : slots back = none := by
  rw [sparse.back_eq, sparse.slot _ room, List.getElem?_eq_none le_rfl]

/-- Without items all the slots are empty. -/
theorem empty (sparse : Sparse capacity slots front back []) {slot : Nat}
    (inside : slot < capacity) : slots slot = none := by
  obtain ⟨offset, bound, rfl⟩ := sparse.offset_of inside
  rw [sparse.slot offset bound, List.getElem?_nil]

/-- A full queue ends where it begins. -/
theorem full (sparse : Sparse capacity slots front back queue) (full : queue.length = capacity) :
    back = front := by
  rw [sparse.back_eq, full, Nat.add_mod_right, Nat.mod_eq_of_lt sparse.inside]

/-- Store an item behind the last one. -/
theorem push (sparse : Sparse capacity slots front back queue) (room : queue.length < capacity)
    (item : α) :
    Sparse capacity (Function.update slots back (some item)) front ((back + 1) % capacity)
      (queue ++ [item]) := by
  refine ⟨sparse.inside, by simpa using Nat.succ_le_of_lt room, ?_, ?_⟩
  · rw [sparse.back_eq, Nat.mod_add_mod, List.length_append, List.length_singleton, Nat.add_assoc]
  · intro offset bound
    by_cases last : offset = queue.length
    · subst last
      rw [← sparse.back_eq]
      simp
    · have apart : (front + offset) % capacity ≠ back := by
        rw [sparse.back_eq]
        intro same
        exact last (offset_inj bound room same)
      rw [Function.update_of_ne apart, sparse.slot offset bound]
      rcases Nat.lt_or_gt_of_ne last with early | late
      · rw [List.getElem?_append_left early]
      · rw [List.getElem?_eq_none late.le,
          List.getElem?_eq_none (by simpa using Nat.succ_le_of_lt late)]

/-- Take the first item, and empty its slot. -/
theorem pop (sparse : Sparse capacity slots front back (item :: queue)) :
    slots front = some item ∧
      Sparse capacity (Function.update slots front none) ((front + 1) % capacity) back queue := by
  have inside := sparse.inside
  have room := sparse.room
  have positive := Nat.zero_lt_of_lt inside
  rw [List.length_cons] at room
  constructor
  · have first := sparse.slot 0 positive
    rwa [Nat.add_zero, Nat.mod_eq_of_lt inside] at first
  · refine ⟨Nat.mod_lt _ positive, by omega, ?_, ?_⟩
    · rw [sparse.back_eq, Nat.mod_add_mod, List.length_cons]
      congr 1
      omega
    · intro offset bound
      rw [Nat.mod_add_mod, Nat.add_assoc, Nat.add_comm 1 offset]
      by_cases around : offset + 1 = capacity
      · rw [around, Nat.add_mod_right, Nat.mod_eq_of_lt inside, Function.update_self,
          List.getElem?_eq_none (by omega)]
      · have apart : (front + (offset + 1)) % capacity ≠ front := by
          intro same
          have start : (front + (offset + 1)) % capacity = (front + 0) % capacity := by
            rw [same, Nat.add_zero, Nat.mod_eq_of_lt inside]
          have zero := offset_inj (by omega) positive start
          omega
        rw [Function.update_of_ne apart, sparse.slot _ (by omega), List.getElem?_cons_succ]

/-- The empty slots are those that the queue leaves free. -/
theorem countP_empty (sparse : Sparse capacity slots front back queue) :
    (List.range capacity).countP (fun slot => (slots slot).isNone) + queue.length = capacity := by
  have rotated : ((List.range capacity).map fun offset => (front + offset) % capacity).Perm
      (List.range capacity) := by
    refine (List.perm_ext_iff_of_nodup ?_ List.nodup_range).mpr ?_
    · refine List.Nodup.map_on ?_ List.nodup_range
      intro offset bound offset' bound' same
      exact offset_inj (List.mem_range.mp bound) (List.mem_range.mp bound') same
    · intro slot
      simp only [List.mem_map, List.mem_range]
      constructor
      · rintro ⟨offset, -, rfl⟩
        exact Nat.mod_lt _ (Nat.zero_lt_of_lt sparse.inside)
      · intro inside
        obtain ⟨offset, bound, rfl⟩ := sparse.offset_of inside
        exact ⟨offset, bound, rfl⟩
  have room := sparse.room
  obtain ⟨rest, whole⟩ := Nat.exists_eq_add_of_le room
  -- The first offsets have the items, and the rest have nothing.
  have split : List.range capacity =
      List.range queue.length ++ (List.range rest).map (queue.length + ·) := by
    rw [whole, List.range_add]
  rw [← rotated.countP_eq, List.countP_map]
  conv_lhs => rw [split]
  rw [List.countP_append, List.countP_eq_zero.mpr, List.countP_eq_length.mpr]
  · rw [List.length_map, List.length_range]
    omega
  · intro offset member
    obtain ⟨later, bound, rfl⟩ := List.mem_map.mp member
    rw [List.mem_range] at bound
    simp [sparse.slot (queue.length + later) (by omega)]
  · intro offset bound
    rw [List.mem_range] at bound
    simp [sparse.slot offset (by omega), bound]

end Sparse

end RtThread.Std
