import Mathlib

/-!
# Pieces of a stream in two queues

What has been taken from a stream and not been acknowledged is in pieces, of which some are held
until they are acknowledged and the others wait for their turn. Each queue is in the order of the
stream. Pieces go from one queue to the other, and none is lost in between.
-/

namespace RtThread.Std

universe u

variable {α : Type u}

/-- `count` places of a stream, from `place` on. -/
structure Portion (α : Type u) where
  place : Nat
  count : Nat
  value : α

namespace Portion

variable {p q : Portion α} {pieces : List (Portion α)}

/-- The place behind the piece. -/
def stop (p : Portion α) : Nat := p.place + p.count

/-- The one piece comes in front of the other. -/
def Before (p q : Portion α) : Prop := p.stop ≤ q.place

/-- The pieces do not overlap. -/
def Apart (p q : Portion α) : Prop := p.Before q ∨ q.Before p

theorem Apart.symm (apart : p.Apart q) : q.Apart p := Or.symm apart

/-- Of two pieces that do not overlap, the one that begins first comes first. -/
theorem Apart.before_iff (apart : p.Apart q) (filled : 0 < p.count) (filled' : 0 < q.count) :
    p.place < q.place ↔ p.Before q := by
  rw [Apart, Before, Before, stop, stop] at apart
  rw [Before, stop]
  omega

/-- A piece goes where the first one begins that is not in front of it. -/
theorem insert_pairwise {behind : Portion α → Bool} (order : pieces.Pairwise Before)
    (apart : ∀ q ∈ pieces, q.Apart p) (agrees : ∀ q ∈ pieces, behind q = true ↔ q.Before p) :
    (pieces.takeWhile behind ++ p :: pieces.dropWhile behind).Pairwise Before := by
  have front (q : Portion α) (member : q ∈ pieces.takeWhile behind) : q.Before p :=
    (agrees q (List.takeWhile_subset _ member)).mp (List.mem_takeWhile_imp member)
  have rest : (pieces.dropWhile behind).Pairwise Before :=
    order.sublist (List.dropWhile_sublist _)
  have back (q : Portion α) (member : q ∈ pieces.dropWhile behind) : p.Before q := by
    cases shape : pieces.dropWhile behind with
    | nil =>
        rw [shape] at member
        cases member
    | cons head tail =>
        have inside : head ∈ pieces :=
          (List.dropWhile_sublist behind).subset (shape ▸ List.mem_cons_self)
        have stays : behind head = false := by
          have found := List.head_dropWhile_not behind (by simp [shape] : pieces.dropWhile behind ≠ [])
          simpa [shape] using found
        have first : p.Before head := by
          refine (apart head inside).resolve_left fun before => ?_
          rw [(agrees head inside).mpr before] at stays
          cases stays
        rw [shape] at member rest
        rcases List.mem_cons.mp member with rfl | member
        · exact first
        · have later := (List.pairwise_cons.mp rest).1 q member
          rw [Before, stop] at first later ⊢
          omega
  refine List.pairwise_append.mpr ⟨order.sublist (List.takeWhile_sublist _),
    List.pairwise_cons.mpr ⟨back, rest⟩, fun a memberA b memberB => ?_⟩
  rcases List.mem_cons.mp memberB with rfl | memberB
  · exact front a memberA
  · have first := front a memberA
    have second := back b memberB
    rw [Before, stop] at first second ⊢
    omega

/-- The piece that all others come in front of is the last one. -/
theorem getLast?_eq (order : pieces.Pairwise Before) (member : p ∈ pieces)
    (front : ∀ q ∈ pieces, q = p ∨ q.Before p) (filled : 0 < p.count) :
    pieces.getLast? = some p := by
  rcases List.eq_nil_or_concat pieces with rfl | ⟨rest, last, rfl⟩
  · cases member
  · rw [List.concat_eq_append] at *
    rw [List.getLast?_concat]
    rcases List.mem_append.mp member with member | single
    · have before := (List.pairwise_append.mp order).2.2 p member last (by simp)
      rcases front last (by simp) with rfl | before'
      · rfl
      · simp only [Before, stop] at before before'
        omega
    · rw [List.mem_singleton.mp single]

theorem before_last (order : pieces.Pairwise Before) (last : p ∈ pieces.getLast?)
    (member : q ∈ pieces) : q = p ∨ q.Before p := by
  rcases List.eq_nil_or_concat pieces with rfl | ⟨rest, r, rfl⟩
  · cases member
  · rw [List.concat_eq_append] at *
    rw [List.getLast?_concat] at last
    obtain rfl : r = p := Option.some_inj.mp last
    rcases List.mem_append.mp member with member | single
    · exact .inr ((List.pairwise_append.mp order).2.2 q member r (by simp))
    · exact .inl (List.mem_singleton.mp single)

theorem insert_perm (behind : Portion α → Bool) :
    (pieces.takeWhile behind ++ p :: pieces.dropWhile behind).Perm (p :: pieces) := by
  have whole := List.takeWhile_append_dropWhile (p := behind) (l := pieces)
  exact List.perm_middle.trans (by rw [whole])

/-- The pieces lie beside each other, from `low` to `high`. -/
def Consecutive (low : Nat) : List (Portion α) → Nat → Prop
  | [], high => low = high
  | p :: rest, high => p.place = low ∧ 0 < p.count ∧ Consecutive p.stop rest high

theorem Consecutive.last {low high : Nat} (consecutive : Consecutive low pieces high)
    (last : p ∈ pieces.getLast?) : p.stop = high := by
  induction pieces generalizing low with
  | nil => cases last
  | cons q rest ih =>
      obtain ⟨-, -, consecutive⟩ := consecutive
      cases rest with
      | nil =>
          obtain rfl : q = p := Option.some_inj.mp last
          exact consecutive
      | cons r rest =>
          rw [List.getLast?_cons_cons] at last
          exact ih consecutive last

theorem Consecutive.length_le {low high : Nat} (consecutive : Consecutive low pieces high) :
    low + pieces.length ≤ high := by
  induction pieces generalizing low with
  | nil => exact consecutive.le
  | cons p rest ih =>
      obtain ⟨place, filled, consecutive⟩ := consecutive
      have more := ih consecutive
      rw [stop] at more
      rw [List.length_cons]
      omega

theorem Consecutive.lt_last {low high : Nat} (consecutive : Consecutive low pieces high)
    (last : p ∈ pieces.getLast?) : low < p.stop := by
  have length := consecutive.length_le
  have some_ := List.length_pos_of_mem (List.mem_of_mem_getLast? last)
  rw [consecutive.last last]
  omega

end Portion

/-- The places from `low` to `high` are in the two queues. -/
structure Queues (held waiting : List (Portion α)) (low high : Nat) : Prop where
  range : low ≤ high
  heldOrder : held.Pairwise Portion.Before
  waitingOrder : waiting.Pairwise Portion.Before
  apart : ∀ p ∈ held, ∀ q ∈ waiting, p.Apart q
  within : ∀ p ∈ held ++ waiting, low < p.stop ∧ p.stop ≤ high
  filled : ∀ p ∈ held ++ waiting, 0 < p.count
  covers : ∀ place, low ≤ place → place < high →
    ∃ p ∈ held ++ waiting, p.place ≤ place ∧ place < p.stop

namespace Queues

variable {held waiting held' waiting' : List (Portion α)} {low high : Nat} {p : Portion α}

theorem empty (low : Nat) : Queues ([] : List (Portion α)) [] low low :=
  ⟨le_rfl, .nil, .nil, by simp, by simp, by simp, by omega⟩

/-- The same pieces are in the queues, in another way. -/
theorem rearrange (queues : Queues held waiting low high) (same : (held' ++ waiting').Perm
    (held ++ waiting)) (order : held'.Pairwise Portion.Before) (order' : waiting'.Pairwise Portion.Before)
    (apart : ∀ p ∈ held', ∀ q ∈ waiting', p.Apart q) : Queues held' waiting' low high := by
  refine ⟨queues.range, order, order', apart, fun p member => queues.within p (same.mem_iff.mp member),
    fun p member => queues.filled p (same.mem_iff.mp member), fun place lower upper => ?_⟩
  obtain ⟨p, member, inside⟩ := queues.covers place lower upper
  exact ⟨p, same.mem_iff.mpr member, inside⟩

/-- The first piece that waits is held. -/
theorem send (queues : Queues held (p :: waiting) low high) (same : held'.Perm (p :: held))
    (order : held'.Pairwise Portion.Before) : Queues held' waiting low high := by
  have rest := List.pairwise_cons.mp queues.waitingOrder
  refine queues.rearrange ?_ order rest.2 fun q member r member' => ?_
  · exact (same.append_right waiting).trans List.perm_middle.symm
  · rcases List.mem_cons.mp (same.mem_iff.mp member) with rfl | member
    · exact .inl (rest.1 r member')
    · exact queues.apart q member r (List.mem_cons_of_mem _ member')

/-- The first piece that is held waits again. -/
theorem takeBack (queues : Queues (p :: held) waiting low high) (same : waiting'.Perm (p :: waiting))
    (order : waiting'.Pairwise Portion.Before) : Queues held waiting' low high := by
  have rest := List.pairwise_cons.mp queues.heldOrder
  refine queues.rearrange ?_ rest.2 order fun q member r member' => ?_
  · exact (same.append_left held).trans List.perm_middle
  · rcases List.mem_cons.mp (same.mem_iff.mp member') with rfl | member'
    · exact .inr (rest.1 q member)
    · exact queues.apart q (List.mem_cons_of_mem _ member) r member'

/-- All that is held waits again, in front of the rest. -/
theorem takeBackAll (queues : Queues held waiting low high)
    (front : ∀ p ∈ held, ∀ q ∈ waiting, p.Before q) : Queues [] (held ++ waiting) low high := by
  refine queues.rearrange (.refl _) .nil ?_ (by simp)
  exact List.pairwise_append.mpr ⟨queues.heldOrder, queues.waitingOrder, front⟩

/-- In a queue that is in order, the pieces that are acknowledged are in front. -/
theorem mem_dropWhile {pieces : List (Portion α)} (order : pieces.Pairwise Portion.Before)
    (filled : ∀ p ∈ pieces, 0 < p.count) {low' : Nat} :
    p ∈ pieces.dropWhile (fun q => q.stop ≤ low') ↔ p ∈ pieces ∧ low' < p.stop := by
  induction pieces with
  | nil => simp
  | cons q rest ih =>
      obtain ⟨front, order'⟩ := List.pairwise_cons.mp order
      rw [List.dropWhile_cons]
      by_cases done : q.stop ≤ low'
      · simp only [done, decide_true, if_true]
        rw [ih order' fun r member => filled r (List.mem_cons_of_mem _ member)]
        constructor
        · exact fun ⟨member, later⟩ => ⟨List.mem_cons_of_mem _ member, later⟩
        · rintro ⟨member, later⟩
          rcases List.mem_cons.mp member with rfl | member
          · omega
          · exact ⟨member, later⟩
      · simp only [done, decide_false, Bool.false_eq_true, if_false, iff_self_and]
        intro member
        rcases List.mem_cons.mp member with rfl | member
        · omega
        · have before := front p member
          have some_ := filled p (List.mem_cons_of_mem _ member)
          rw [Portion.Before] at before
          rw [Portion.stop]
          omega

/-- The pieces that are acknowledged are dropped. -/
theorem advance (queues : Queues held waiting low high) {low' : Nat} (further : low ≤ low')
    (within : low' ≤ high) :
    Queues (held.dropWhile fun p => p.stop ≤ low') (waiting.dropWhile fun p => p.stop ≤ low') low'
      high := by
  have kept (p : Portion α) : p ∈ held.dropWhile (fun p => p.stop ≤ low') ++
      waiting.dropWhile (fun p => p.stop ≤ low') ↔ p ∈ held ++ waiting ∧ low' < p.stop := by
    rw [List.mem_append, List.mem_append, mem_dropWhile queues.heldOrder fun q member =>
      queues.filled q (List.mem_append_left _ member), mem_dropWhile queues.waitingOrder fun q member =>
      queues.filled q (List.mem_append_right _ member)]
    tauto
  refine ⟨within, queues.heldOrder.sublist (List.dropWhile_sublist _),
    queues.waitingOrder.sublist (List.dropWhile_sublist _), fun p member q member' => ?_,
    fun p member => ?_, fun p member => queues.filled p ((kept p).mp member).1,
    fun place lower upper => ?_⟩
  · exact queues.apart p ((List.dropWhile_sublist _).subset member) q
      ((List.dropWhile_sublist _).subset member')
  · obtain ⟨member, later⟩ := (kept p).mp member
    exact ⟨later, (queues.within p member).2⟩
  · obtain ⟨p, member, first, last⟩ := queues.covers place (further.trans lower) upper
    exact ⟨p, (kept p).mpr ⟨member, by omega⟩, first, last⟩

/-- When nothing that is held comes behind what waits, the last piece that waits ends the whole. -/
theorem last_stop (queues : Queues held (waiting ++ [p]) low high)
    (front : ∀ q ∈ held, ∀ r ∈ waiting ++ [p], q.Before r) : p.stop = high := by
  have own : p ∈ held ++ (waiting ++ [p]) := by simp
  obtain ⟨later, upper⟩ := queues.within p own
  obtain ⟨q, member, first, last⟩ := queues.covers (high - 1) (by omega) (by omega)
  have before : q.Before p ∨ q = p := by
    rcases List.mem_append.mp member with member | member
    · exact .inl (front q member p (by simp))
    · rcases List.mem_append.mp member with member | member
      · exact .inl ((List.pairwise_append.mp queues.waitingOrder).2.2 q member p (by simp))
      · exact .inr (List.mem_singleton.mp member)
  rcases before with before | rfl
  · rw [Portion.Before] at before
    rw [Portion.stop] at upper ⊢
    omega
  · omega

/-- The last piece that waits gets longer. -/
theorem extend (queues : Queues held (waiting ++ [p]) low high) (last : p.stop = high)
    (p' : Portion α) {high' : Nat} (place : p'.place = p.place) (longer : high ≤ high')
    (last' : p'.stop = high') : Queues held (waiting ++ [p']) low high' := by
  obtain ⟨front, -, behind⟩ := List.pairwise_append.mp queues.waitingOrder
  have first (q : Portion α) (member : q ∈ held) : q.Before p' := by
    have apart := queues.apart q member p (by simp)
    have upper := (queues.within q (List.mem_append_left _ member)).2
    have some_ := queues.filled q (List.mem_append_left _ member)
    have some' := queues.filled p (by simp)
    simp only [Portion.Apart, Portion.Before, Portion.stop] at apart last upper ⊢
    omega
  have own : 0 < p.count := queues.filled p (by simp)
  have lower := (queues.within p (by simp)).1
  refine ⟨queues.range.trans longer, queues.heldOrder, ?_, fun q member r member' => ?_, fun q member => ?_, fun q member => ?_,
    fun place' lower' upper => ?_⟩
  · refine List.pairwise_append.mpr ⟨front, List.pairwise_singleton _ _, fun q member r single => ?_⟩
    have before := behind q member p (by simp)
    obtain rfl := List.mem_singleton.mp single
    rwa [Portion.Before, place]
  · rcases List.mem_append.mp member' with member' | single
    · exact queues.apart q member r (List.mem_append_left _ member')
    · obtain rfl := List.mem_singleton.mp single
      exact .inl (first q member)
  · rw [← List.append_assoc, List.mem_append] at member
    rcases member with member | single
    · obtain ⟨low', upper'⟩ := queues.within q (by
        rw [← List.append_assoc]
        exact List.mem_append_left _ member)
      exact ⟨low', upper'.trans longer⟩
    · obtain rfl := List.mem_singleton.mp single
      rw [last'] at *
      omega
  · rw [← List.append_assoc, List.mem_append] at member
    rcases member with member | single
    · exact queues.filled q (by
        rw [← List.append_assoc]
        exact List.mem_append_left _ member)
    · obtain rfl := List.mem_singleton.mp single
      rw [Portion.stop] at last last'
      omega
  · by_cases old : place' < high
    · obtain ⟨q, member, inside⟩ := queues.covers place' lower' old
      rw [← List.append_assoc, List.mem_append] at member
      rcases member with member | single
      · refine ⟨q, ?_, inside⟩
        rw [← List.append_assoc]
        exact List.mem_append_left _ member
      · obtain rfl := List.mem_singleton.mp single
        exact ⟨p', by simp, by rw [place]; exact inside.1, by omega⟩
    · refine ⟨p', by simp, ?_, by omega⟩
      rw [Portion.stop] at last
      omega

/-- A piece that comes next waits behind the others. -/
theorem append (queues : Queues held waiting low high) (next : p.place = high)
    (filled : 0 < p.count) : Queues held (waiting ++ [p]) low p.stop := by
  have behind (q : Portion α) (member : q ∈ held ++ waiting) : q.Before p := by
    have upper := (queues.within q member).2
    rwa [Portion.Before, next]
  have place : low < p.stop := by
    have range := queues.range
    rw [Portion.stop]
    omega
  have longer : high ≤ p.stop := by
    rw [Portion.stop]
    omega
  refine ⟨place.le, queues.heldOrder, ?_, fun q member r member' => ?_, fun q member => ?_,
    fun q member => ?_, fun place' lower upper => ?_⟩
  · refine List.pairwise_append.mpr ⟨queues.waitingOrder, List.pairwise_singleton _ _,
      fun q member r single => ?_⟩
    obtain rfl := List.mem_singleton.mp single
    exact behind q (List.mem_append_right _ member)
  · rcases List.mem_append.mp member' with member' | single
    · exact queues.apart q member r member'
    · obtain rfl := List.mem_singleton.mp single
      exact .inl (behind q (List.mem_append_left _ member))
  · rw [← List.append_assoc, List.mem_append] at member
    rcases member with member | single
    · obtain ⟨lower, upper⟩ := queues.within q member
      exact ⟨lower, upper.trans longer⟩
    · obtain rfl := List.mem_singleton.mp single
      exact ⟨place, le_rfl⟩
  · rw [← List.append_assoc, List.mem_append] at member
    rcases member with member | single
    · exact queues.filled q member
    · obtain rfl := List.mem_singleton.mp single
      exact filled
  · rw [← List.append_assoc]
    by_cases old : place' < high
    · obtain ⟨q, member, inside⟩ := queues.covers place' lower old
      exact ⟨q, List.mem_append_left _ member, inside⟩
    · exact ⟨p, by simp, by omega, upper⟩

theorem appendAll {pieces : List (Portion α)} {high' : Nat} (queues : Queues held waiting low high)
    (consecutive : Portion.Consecutive high pieces high') :
    Queues held (waiting ++ pieces) low high' := by
  induction pieces generalizing waiting high with
  | nil =>
      obtain rfl : high = high' := consecutive
      rwa [List.append_nil]
  | cons p rest ih =>
      obtain ⟨next, filled, consecutive⟩ := consecutive
      have longer := ih (queues.append next filled) consecutive
      rwa [List.append_assoc] at longer

end Queues

end RtThread.Std
