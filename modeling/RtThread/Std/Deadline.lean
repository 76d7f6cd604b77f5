import Mathlib

/-!
# Deadlines in modular time

A clock and its deadlines are words of one width and only their difference has a
meaning. `ahead` is that difference; as long as no deadline lies a whole horizon
ahead, comparisons of word differences decide the order of the deadlines and
whether one has been reached.

A countdown is what a deadline stands for: the number of ticks left until it
fires.
-/

namespace RtThread.Std

variable {width : Nat} {now deadline deadline' horizon : BitVec width}

/-- How many ticks `deadline` is ahead of `now`. -/
def ahead (now deadline : BitVec width) : Nat := (deadline - now).toNat

@[simp] theorem ahead_self (now : BitVec width) : ahead now now = 0 := by
  simp [ahead]

@[simp] theorem ahead_add (now delay : BitVec width) : ahead now (now + delay) = delay.toNat := by
  simp [ahead, add_sub_cancel_left]

/-- A tick of the clock takes one from every positive distance. -/
theorem ahead_tick (positive : 0 < ahead now deadline) :
    ahead (now + BitVec.ofNat width 1) deadline = ahead now deadline - 1 := by
  unfold ahead at *
  have bound := (deadline - now).isLt
  have one : (BitVec.ofNat width 1).toNat = 1 := Nat.mod_eq_of_lt (by omega)
  rw [← BitVec.sub_sub, BitVec.toNat_sub_of_le, one]
  rw [BitVec.le_def, one]
  exact positive

/-- Within the horizon, the difference of two deadlines is short exactly when the
first is not behind the second. -/
theorem sub_lt_horizon_iff (half : 2 * horizon.toNat ≤ 2 ^ width)
    (near : ahead now deadline < horizon.toNat) (near' : ahead now deadline' < horizon.toNat) :
    deadline' - deadline < horizon ↔ ahead now deadline ≤ ahead now deadline' := by
  unfold ahead at *
  have relative : deadline' - deadline = (deadline' - now) - (deadline - now) :=
    (sub_sub_sub_cancel_right _ _ _).symm
  rw [relative, BitVec.lt_def]
  rcases Nat.lt_or_ge (deadline' - now).toNat (deadline - now).toNat with behind | reached
  · rw [BitVec.toNat_sub_of_lt (BitVec.lt_def.mpr behind)]
    omega
  · rw [BitVec.toNat_sub_of_le (BitVec.le_def.mpr reached)]
    omega

/-- Within the horizon, a deadline has been reached exactly when it is now. -/
theorem reached_iff (half : 2 * horizon.toNat ≤ 2 ^ width)
    (near : ahead now deadline < horizon.toNat) :
    now - deadline < horizon ↔ ahead now deadline = 0 := by
  rw [sub_lt_horizon_iff half near (by simp; omega), ahead_self]
  omega

/-- One tick of a countdown: it fires when one tick is left and then starts again
from `reload`. -/
def countDown (reload : Option Nat) : Option Nat → Option Nat
  | none => none
  | some left => if left = 1 then reload else some (left - 1)

@[simp] theorem countDown_none (reload : Option Nat) : countDown reload none = none := rfl

/-- A countdown without reload runs out once. -/
theorem countDown_once {count : Nat} (positive : 0 < count) (ticks : Nat) :
    (countDown none)^[ticks] (some count) =
      if ticks < count then some (count - ticks) else none := by
  induction ticks with
  | zero => simp [positive]
  | succ ticks ih =>
      rw [Function.iterate_succ_apply', ih]
      by_cases pending : ticks < count
      · rw [if_pos pending, countDown]
        by_cases last : count - ticks = 1
        · rw [if_pos last, if_neg (by omega)]
        · rw [if_neg last, if_pos (by omega)]
          congr 1
      · rw [if_neg pending, if_neg (by omega), countDown_none]

private theorem succ_mod_eq_ite {count : Nat} (positive : 0 < count) (ticks : Nat) :
    (ticks + 1) % count = if ticks % count + 1 = count then 0 else ticks % count + 1 := by
  have inside := Nat.mod_lt ticks positive
  rw [← Nat.mod_add_mod]
  split
  · rename_i last
    rw [last, Nat.mod_self]
  · exact Nat.mod_eq_of_lt (by omega)

/-- A countdown which reloads its start value goes round and round. -/
theorem countDown_periodic {count : Nat} (positive : 0 < count) (ticks : Nat) :
    (countDown (some count))^[ticks] (some count) = some (count - ticks % count) := by
  induction ticks with
  | zero => simp
  | succ ticks ih =>
      have inside := Nat.mod_lt ticks positive
      rw [Function.iterate_succ_apply', ih, countDown, succ_mod_eq_ite positive]
      by_cases last : ticks % count + 1 = count
      · rw [if_pos last, if_pos (by omega), Nat.sub_zero]
      · rw [if_neg last, if_neg (by omega), Nat.sub_add_eq]

/-- A countdown without reload fires exactly at the tick that its start names. -/
theorem countDown_once_fires {count : Nat} (positive : 0 < count) (ticks : Nat) :
    (countDown none)^[ticks] (some count) = some 1 ↔ ticks + 1 = count := by
  rw [countDown_once positive]
  split
  · rw [Option.some_inj]
    omega
  · constructor
    · intro impossible
      cases impossible
    · intro equal
      omega

/-- A countdown which reloads its start value fires exactly once a round. -/
theorem countDown_periodic_fires {count : Nat} (positive : 0 < count) (ticks : Nat) :
    (countDown (some count))^[ticks] (some count) = some 1 ↔ count ∣ ticks + 1 := by
  have inside := Nat.mod_lt ticks positive
  rw [countDown_periodic positive, Option.some_inj, Nat.dvd_iff_mod_eq_zero,
    succ_mod_eq_ite positive]
  split <;> omega

end RtThread.Std
