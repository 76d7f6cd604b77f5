import RtThread.Std.RingBuffer

/-!
# Rings emptied in two stages

Items go into the slots of a ring in turn. A first reader finishes with them in
that order, and a second one follows and takes them back. Turn `k` is at slot `k`
modulo the capacity, and one slot stays free, so that equal indices mean that a
reader has caught up.
-/

namespace RtThread.Std

universe u

variable {α : Type u} {capacity : Nat}

/-- The slots of the first turns. -/
def turns (capacity count : Nat) : List Nat := (List.range count).map (· % capacity)

theorem turns_succ (capacity count : Nat) :
    turns capacity (count + 1) = turns capacity count ++ [count % capacity] := by
  simp [turns, List.range_succ]

theorem take_turns (capacity : Nat) {count more : Nat} (bound : count ≤ more) :
    (turns capacity more).take count = turns capacity count := by
  rw [turns, ← List.map_take, List.take_range, Nat.min_eq_left bound, turns]

/-- How often a slot has been visited. -/
def visits (capacity count slot : Nat) : Nat := (turns capacity count).count slot

/-- The slots from one index up to another. -/
def distance (capacity start stop : Nat) : Nat := (stop + capacity - start) % capacity

/-- The distance between two turns. -/
theorem distance_mod {first last : Nat} (le : first ≤ last) (near : last < first + capacity) :
    distance capacity (first % capacity) (last % capacity) = last - first := by
  have positive : 0 < capacity := by omega
  have holds : Holds capacity (fun _ => ()) (first % capacity) (last % capacity)
      (List.replicate (last - first) ()) := by
    refine ⟨Nat.mod_lt _ positive, ?_, ?_, ?_⟩
    · rw [List.length_replicate]
      omega
    · rw [List.length_replicate, Nat.mod_add_mod, Nat.add_sub_cancel' le]
    · intro offset bound
      rw [List.getElem_replicate]
  rw [distance, holds.length_eq, List.length_replicate]

/-- The distance leads from one index to the other. -/
theorem add_distance {start stop : Nat} (inside : start < capacity) (inside' : stop < capacity) :
    (start + distance capacity start stop) % capacity = stop := by
  rw [distance, Nat.add_mod_mod, show start + (stop + capacity - start) = stop + capacity by omega,
    Nat.add_mod_right, Nat.mod_eq_of_lt inside']

/-- The items `written` went into the slots up to `back`. The first `finished` of
them are finished, up to `middle`, and the first `returned` are taken back, up to
`front`. -/
structure StagedRing (capacity : Nat) (slots : Nat → α) (front middle back : Nat)
    (written : List α) (finished returned : Nat) : Prop where
  behind : returned ≤ finished
  known : finished ≤ written.length
  room : written.length < returned + capacity
  front_eq : front = returned % capacity
  middle_eq : middle = finished % capacity
  back_eq : back = written.length % capacity
  slot : ∀ (turn : Nat) (bound : turn < written.length), returned ≤ turn →
    slots (turn % capacity) = written[turn]

namespace StagedRing

variable {slots : Nat → α} {front middle back finished returned : Nat} {written : List α}

theorem start (positive : 0 < capacity) (slots : Nat → α) :
    StagedRing capacity slots 0 0 0 [] 0 0 := by
  constructor <;> simp [positive]

theorem positive (staged : StagedRing capacity slots front middle back written finished returned) :
    0 < capacity := by
  have behind := staged.behind
  have known := staged.known
  have room := staged.room
  omega

/-- Two turns that are not taken back have different slots. -/
theorem turn_inj {turn turn' : Nat} (late : returned ≤ turn) (late' : returned ≤ turn')
    (near : turn < returned + capacity) (near' : turn' < returned + capacity)
    (same : turn % capacity = turn' % capacity) : turn = turn' := by
  obtain ⟨offset, rfl⟩ := Nat.exists_eq_add_of_le late
  obtain ⟨offset', rfl⟩ := Nat.exists_eq_add_of_le late'
  rw [offset_inj (by omega) (by omega) same]

/-- The first reader has caught up exactly when its index says so. -/
theorem finished_iff
    (staged : StagedRing capacity slots front middle back written finished returned) :
    back = middle ↔ finished = written.length := by
  rw [staged.back_eq, staged.middle_eq]
  have behind := staged.behind
  have known := staged.known
  have room := staged.room
  constructor
  · intro same
    exact (turn_inj (by omega) behind room (by omega) same).symm
  · rintro rfl
    rfl

/-- The second reader has caught up exactly when its index says so. -/
theorem returned_iff
    (staged : StagedRing capacity slots front middle back written finished returned) :
    middle = front ↔ returned = finished := by
  rw [staged.front_eq, staged.middle_eq]
  have behind := staged.behind
  have known := staged.known
  have room := staged.room
  constructor
  · intro same
    exact (turn_inj behind le_rfl (by omega) (by omega) same).symm
  · rintro rfl
    rfl

/-- The slots that are not taken back. -/
theorem distance_back
    (staged : StagedRing capacity slots front middle back written finished returned) :
    distance capacity front back = written.length - returned := by
  rw [staged.front_eq, staged.back_eq]
  exact distance_mod (staged.behind.trans staged.known) staged.room

/-- The slots that are finished and not taken back. -/
theorem distance_middle
    (staged : StagedRing capacity slots front middle back written finished returned) :
    distance capacity front middle = finished - returned := by
  have known := staged.known
  have room := staged.room
  rw [staged.front_eq, staged.middle_eq]
  exact distance_mod staged.behind (by omega)

/-- The slot to be written next has been finished and taken back as often as it
has been written. -/
theorem back_clean
    (staged : StagedRing capacity slots front middle back written finished returned)
    {count : Nat} (late : returned ≤ count) (bound : count ≤ written.length) :
    visits capacity count back = visits capacity returned back := by
  have room := staged.room
  induction count, late using Nat.le_induction with
  | base => rfl
  | succ count late ih =>
      have other : count % capacity ≠ back := by
        rw [staged.back_eq]
        intro same
        have equal := turn_inj late (late.trans (by omega)) (by omega) room same
        omega
      rw [← ih (by omega), visits, turns_succ, List.count_append, List.count_singleton]
      simp [visits, other]

/-- Write an item. -/
theorem write (staged : StagedRing capacity slots front middle back written finished returned)
    (room : written.length + 1 < returned + capacity) (item : α) :
    StagedRing capacity (Function.update slots back item) front middle ((back + 1) % capacity)
      (written ++ [item]) finished returned := by
  have known := staged.known
  refine ⟨staged.behind, ?_, ?_, staged.front_eq, staged.middle_eq, ?_, ?_⟩
  · rw [List.length_append]
    omega
  · simpa using room
  · rw [staged.back_eq, Nat.mod_add_mod, List.length_append, List.length_singleton]
  · intro turn bound late
    rw [List.length_append, List.length_singleton] at bound
    by_cases early : turn < written.length
    · have other : turn % capacity ≠ back := by
        rw [staged.back_eq]
        intro same
        have behind := staged.behind
        have equal := turn_inj late (by omega) (by omega) staged.room same
        omega
      rw [Function.update_of_ne other, List.getElem_append_left early]
      exact staged.slot turn early late
    · obtain rfl : turn = written.length := by omega
      rw [← staged.back_eq]
      simp

/-- The first reader finishes with an item. -/
theorem finish (staged : StagedRing capacity slots front middle back written finished returned)
    (pending : back ≠ middle) :
    StagedRing capacity slots front ((middle + 1) % capacity) back written (finished + 1)
      returned := by
  have known := staged.known
  have some_ := mt staged.finished_iff.mpr pending
  refine ⟨staged.behind.trans (Nat.le_succ finished), by omega, staged.room, staged.front_eq, ?_,
    staged.back_eq, staged.slot⟩
  rw [staged.middle_eq, Nat.mod_add_mod]

/-- The second reader takes an item back, and clears its slot. -/
theorem takeBack (staged : StagedRing capacity slots front middle back written finished returned)
    (pending : middle ≠ front) (cleared : α) :
    written[returned]? = some (slots front) ∧
      StagedRing capacity (Function.update slots front cleared) ((front + 1) % capacity) middle
        back written finished (returned + 1) := by
  have behind := staged.behind
  have known := staged.known
  have room := staged.room
  have some_ := mt staged.returned_iff.mpr pending
  have inside : returned < written.length := by omega
  constructor
  · rw [List.getElem?_eq_getElem inside, ← staged.slot returned inside le_rfl, ← staged.front_eq]
  · refine ⟨by omega, known, by omega, ?_, staged.middle_eq, staged.back_eq, ?_⟩
    · rw [staged.front_eq, Nat.mod_add_mod]
    · intro turn bound late
      have other : turn % capacity ≠ front := by
        rw [staged.front_eq]
        intro same
        have kept : returned ≤ turn := by omega
        have equal := turn_inj kept le_rfl (by omega) (by omega) same
        omega
      rw [Function.update_of_ne other]
      exact staged.slot turn bound (by omega)

end StagedRing

end RtThread.Std
