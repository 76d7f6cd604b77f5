import Mathlib

/-!
# Lists of waiting threads

Every thread is in some phase. A list of waiters has only threads in a phase that
waits, each once; a roll has all the threads in a phase that is marked. A list that is
sorted stays so when a thread is inserted where a search ends.
-/

namespace RtThread.Std

universe u v

variable {Thread : Type u} {Phase : Type v} {phase : Thread → Phase} {waits marked : Phase → Bool}
  {list : List Thread} {thread other : Thread} {new : Phase}

structure Waiters (phase : Thread → Phase) (waits : Phase → Bool) (list : List Thread) : Prop where
  nodup : list.Nodup
  all : ∀ thread ∈ list, waits (phase thread) = true

structure Roll (phase : Thread → Phase) (marked : Phase → Bool) (list : List Thread) : Prop where
  nodup : list.Nodup
  mem_iff : ∀ thread, thread ∈ list ↔ marked (phase thread) = true

theorem Waiters.nil : Waiters phase waits [] where
  nodup := List.nodup_nil
  all := by simp

theorem Waiters.notMem (waiters : Waiters phase waits list)
    (runs : waits (phase thread) = false) : thread ∉ list := by
  intro member
  rw [waiters.all thread member] at runs
  cases runs

theorem Roll.nil (nobody : ∀ thread, marked (phase thread) = false) : Roll phase marked [] where
  nodup := List.nodup_nil
  mem_iff thread := by simp [nobody thread]

variable [DecidableEq Thread]

/-- A thread that is not listed changes its phase. -/
theorem Waiters.update (waiters : Waiters phase waits list) (outside : thread ∉ list)
    (new : Phase) : Waiters (Function.update phase thread new) waits list where
  nodup := waiters.nodup
  all other member := by
    rw [Function.update_of_ne (ne_of_mem_of_not_mem member outside)]
    exact waiters.all other member

/-- A thread begins to wait. -/
theorem Waiters.append (waiters : Waiters phase waits list) (outside : thread ∉ list)
    (begins : waits new = true) :
    Waiters (Function.update phase thread new) waits (list ++ [thread]) where
  nodup := List.nodup_append.mpr ⟨waiters.nodup, List.nodup_singleton thread, by
    rintro other member _ last rfl
    obtain rfl := List.mem_singleton.mp last
    exact outside member⟩
  all other member := by
    rcases List.mem_append.mp member with before | last
    · exact (waiters.update outside new).all other before
    · obtain rfl := List.mem_singleton.mp last
      rwa [Function.update_self]

/-- The first waiter is resumed. -/
theorem Waiters.tail (waiters : Waiters phase waits (thread :: list)) (new : Phase) :
    Waiters (Function.update phase thread new) waits list := by
  have distinct := List.nodup_cons.mp waiters.nodup
  have rest : Waiters phase waits list :=
    ⟨distinct.2, fun other member => waiters.all other (List.mem_cons_of_mem thread member)⟩
  exact rest.update distinct.1 new

/-- A waiter is taken off the list. -/
theorem Waiters.erase (waiters : Waiters phase waits list) (thread : Thread) (new : Phase) :
    Waiters (Function.update phase thread new) waits (list.erase thread) := by
  have rest : Waiters phase waits (list.erase thread) :=
    ⟨waiters.nodup.erase thread, fun other member =>
      waiters.all other (List.mem_of_mem_erase member)⟩
  exact rest.update waiters.nodup.not_mem_erase new

/-- A thread that is not marked gets another phase that is not. -/
theorem Roll.update (roll : Roll phase marked list) (before : marked (phase thread) = false)
    (after : marked new = false) : Roll (Function.update phase thread new) marked list where
  nodup := roll.nodup
  mem_iff other := by
    rcases eq_or_ne other thread with rfl | apart
    · rw [Function.update_self, roll.mem_iff, before, after]
    · rw [Function.update_of_ne apart, roll.mem_iff]

/-- A thread gets marked. -/
theorem Roll.cons (roll : Roll phase marked list) (before : marked (phase thread) = false)
    (after : marked new = true) :
    Roll (Function.update phase thread new) marked (thread :: list) where
  nodup := by
    refine List.nodup_cons.mpr ⟨fun member => ?_, roll.nodup⟩
    rw [roll.mem_iff, before] at member
    cases member
  mem_iff other := by
    rcases eq_or_ne other thread with rfl | apart
    · simp [after]
    · rw [Function.update_of_ne apart, List.mem_cons, roll.mem_iff, or_iff_right apart]

/-- A thread is no longer marked, if it has been. -/
theorem Roll.erase (roll : Roll phase marked list) (thread : Thread) (after : marked new = false) :
    Roll (Function.update phase thread new) marked (list.erase thread) where
  nodup := roll.nodup.erase thread
  mem_iff other := by
    rcases eq_or_ne other thread with rfl | apart
    · simp [after, roll.nodup.not_mem_erase]
    · rw [Function.update_of_ne apart, List.mem_erase_of_ne apart, roll.mem_iff]

/-! ## Insertion -/

omit [DecidableEq Thread] in
/-- A list stays sorted when `thread` comes in before the first that stops the search. -/
theorem pairwise_insert {before : Thread → Thread → Prop} {stop : Thread → Bool}
    (trans : ∀ {first second third}, before first second → before second third →
      before first third)
    (sorted : list.Pairwise before)
    (passed : ∀ other ∈ list, stop other = false → before other thread)
    (stopped : ∀ other ∈ list, stop other = true → before thread other) :
    (list.takeWhile (fun other => !stop other) ++
      thread :: list.dropWhile (fun other => !stop other)).Pairwise before := by
  induction list with
  | nil => simp
  | cons first list ih =>
      obtain ⟨least, rest⟩ := List.pairwise_cons.mp sorted
      by_cases stops : stop first = true
      · have front : before thread first := stopped first List.mem_cons_self stops
        simp only [List.takeWhile_cons, List.dropWhile_cons, stops]
        refine List.pairwise_cons.mpr ⟨fun other member => ?_, sorted⟩
        rcases List.mem_cons.mp member with rfl | member
        · exact front
        · exact trans front (least other member)
      · have goes := Bool.eq_false_iff.mpr stops
        simp only [List.takeWhile_cons, List.dropWhile_cons, goes]
        refine List.pairwise_cons.mpr ⟨fun other member => ?_, ih rest ?_ ?_⟩
        · rcases List.mem_append.mp member with early | late
          · exact least other ((List.takeWhile_prefix _).subset early)
          · rcases List.mem_cons.mp late with rfl | late
            · exact passed first List.mem_cons_self goes
            · exact least other ((List.dropWhile_suffix _).subset late)
        · exact fun other member => passed other (List.mem_cons_of_mem first member)
        · exact fun other member => stopped other (List.mem_cons_of_mem first member)

end RtThread.Std
