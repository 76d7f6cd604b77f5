import Mathlib

/-!
# Sums with an end-around carry

A word has two digits to a base, and the carry of a sum of words is added at its low end. Numbers
stand for the same sum when they are equal modulo the largest word, and zero together: the largest
word and zero are kept apart.
-/

namespace RtThread.Std

variable {base : Nat} {a b c d : Nat} {digits digits' : List Nat}

/-- Both stand for the same sum. -/
structure OnesEq (base a b : Nat) : Prop where
  modEq : a ≡ b [MOD base * base - 1]
  zero : a = 0 ↔ b = 0

namespace OnesEq

theorem refl (base a : Nat) : OnesEq base a a := ⟨Nat.ModEq.refl a, Iff.rfl⟩

theorem symm (same : OnesEq base a b) : OnesEq base b a := ⟨same.modEq.symm, same.zero.symm⟩

theorem trans (same : OnesEq base a b) (same' : OnesEq base b c) : OnesEq base a c :=
  ⟨same.modEq.trans same'.modEq, same.zero.trans same'.zero⟩

theorem add (same : OnesEq base a b) (same' : OnesEq base c d) :
    OnesEq base (a + c) (b + d) := by
  refine ⟨same.modEq.add same'.modEq, ?_⟩
  rw [Nat.add_eq_zero_iff, Nat.add_eq_zero_iff, same.zero, same'.zero]

theorem mul (factor : Nat) (same : OnesEq base a b) : OnesEq base (factor * a) (factor * b) := by
  refine ⟨same.modEq.mul_left factor, ?_⟩
  rw [Nat.mul_eq_zero, Nat.mul_eq_zero, same.zero]

/-- There is one word for each sum. -/
theorem eq (same : OnesEq base a b) (left : a < base * base) (right : b < base * base) : a = b := by
  obtain ⟨modEq, zero⟩ := same
  rcases Nat.eq_zero_or_pos a with none_ | positive
  · rw [none_, zero.mp none_]
  · have positive' : 0 < b := Nat.pos_of_ne_zero fun none_ => by
      rw [zero.mpr none_] at positive
      exact absurd positive (Nat.lt_irrefl 0)
    have shifted : a - 1 ≡ b - 1 [MOD base * base - 1] := by
      apply Nat.ModEq.add_right_cancel' 1
      rwa [Nat.sub_add_cancel positive, Nat.sub_add_cancel positive']
    have equal := shifted.eq_of_lt_of_lt (by omega) (by omega)
    omega

end OnesEq

/-- The base twice is once around. -/
theorem base_mul_base (positive : 0 < base) : base * base ≡ 1 [MOD base * base - 1] := by
  have square : 0 < base * base := Nat.mul_pos positive positive
  have split : base * base = 1 + (base * base - 1) := by omega
  calc base * base ≡ 1 + (base * base - 1) [MOD base * base - 1] := by rw [← split]
    _ ≡ 1 + 0 [MOD base * base - 1] := Nat.ModEq.add_left 1 (Nat.modEq_zero_iff_dvd.mpr dvd_rfl)

theorem onesEq_twice (positive : 0 < base) : OnesEq base (base * (base * a)) a := by
  refine ⟨?_, by simp [positive.ne']⟩
  rw [← Nat.mul_assoc]
  simpa using (base_mul_base positive).mul_right a

/-- The words above the lowest are added to it. -/
theorem onesEq_fold (positive : 0 < base) :
    OnesEq base (a / (base * base) + a % (base * base)) a := by
  have square : 0 < base * base := Nat.mul_pos positive positive
  have parts := Nat.div_add_mod a (base * base)
  constructor
  · calc a / (base * base) + a % (base * base)
        = 1 * (a / (base * base)) + a % (base * base) := by rw [Nat.one_mul]
      _ ≡ base * base * (a / (base * base)) + a % (base * base) [MOD base * base - 1] :=
        ((base_mul_base positive).symm.mul_right _).add_right _
      _ = a := parts
  · constructor
    · intro none_
      obtain ⟨high, low⟩ := Nat.add_eq_zero_iff.mp none_
      rw [high, low] at parts
      simpa using parts.symm
    · rintro rfl
      simp

/-- The two digits of a word change places. -/
theorem onesEq_swap (positive : 0 < base) :
    OnesEq base (a % base * base + a / base) (base * a) := by
  have parts := Nat.div_add_mod a base
  constructor
  · calc a % base * base + a / base = a % base * base + 1 * (a / base) := by rw [Nat.one_mul]
      _ ≡ a % base * base + base * base * (a / base) [MOD base * base - 1] :=
        Nat.ModEq.add_left _ ((base_mul_base positive).symm.mul_right _)
      _ = base * (base * (a / base) + a % base) := by ring
      _ = base * a := by rw [parts]
  · constructor
    · intro none_
      obtain ⟨low, high⟩ := Nat.add_eq_zero_iff.mp none_
      have low' : a % base = 0 := (Nat.mul_eq_zero.mp low).resolve_right positive.ne'
      rw [high, low'] at parts
      simp [← parts]
    · intro none_
      obtain rfl := (Nat.mul_eq_zero.mp none_).resolve_left positive.ne'
      simp

/-- The sum of the words of some digits, of which the first in each word is the low one. -/
def onesSum (base : Nat) : List Nat → Nat
  | [] => 0
  | [low] => low
  | low :: high :: rest => low + base * high + onesSum base rest

@[simp] theorem onesSum_nil : onesSum base [] = 0 := rfl

theorem onesSum_eq_zero (positive : 0 < base) :
    onesSum base digits = 0 ↔ ∀ digit ∈ digits, digit = 0 := by
  induction digits using onesSum.induct with
  | case1 => simp
  | case2 low => simp [onesSum]
  | case3 low high rest ih => simp [onesSum, ih, positive.ne', and_assoc]

/-- Behind a digit the places change. -/
theorem onesSum_cons (positive : 0 < base) (digit : Nat) (digits : List Nat) :
    OnesEq base (onesSum base (digit :: digits)) (digit + base * onesSum base digits) := by
  refine ⟨?_, ?_⟩
  · induction digits using onesSum.induct generalizing digit with
    | case1 => exact Nat.ModEq.refl _
    | case2 low => exact Nat.ModEq.refl _
    | case3 low high rest ih =>
        rw [onesSum]
        calc digit + base * low + onesSum base (high :: rest)
            ≡ digit + base * low + (high + base * onesSum base rest) [MOD base * base - 1] :=
              (ih high).add_left _
          _ = digit + base * low + (1 * high + base * onesSum base rest) := by rw [Nat.one_mul]
          _ ≡ digit + base * low + (base * base * high + base * onesSum base rest)
              [MOD base * base - 1] :=
              (((base_mul_base positive).symm.mul_right high).add_right _).add_left _
          _ = digit + base * (low + base * high + onesSum base rest) := by ring
  · rw [onesSum_eq_zero positive, Nat.add_eq_zero_iff, Nat.mul_eq_zero, onesSum_eq_zero positive]
    simp [positive.ne']

/-- A sum as it stands behind an odd or even number of digits. -/
def turned (base : Nat) (odd : Bool) (a : Nat) : Nat := if odd then base * a else a

theorem OnesEq.turned {odd : Bool} (same : OnesEq base a b) :
    OnesEq base (turned base odd a) (turned base odd b) := by
  cases odd with
  | false => exact same
  | true => exact same.mul base

theorem turned_turned (positive : 0 < base) (odd odd' : Bool) (a : Nat) :
    OnesEq base (turned base odd (turned base odd' a)) (turned base (odd ^^ odd') a) := by
  cases odd <;> cases odd'
  · exact .refl _ _
  · exact .refl _ _
  · exact .refl _ _
  · exact onesEq_twice positive

theorem turned_add {odd : Bool} :
    turned base odd (a + b) = turned base odd a + turned base odd b := by
  cases odd with
  | false => rfl
  | true => exact Nat.mul_add base a b

/-- Whether the number of digits is odd. -/
def oddLength (digits : List Nat) : Bool := digits.length % 2 == 1

theorem oddLength_cons (digit : Nat) (digits : List Nat) :
    oddLength (digit :: digits) = !oddLength digits := by
  rw [oddLength, oddLength, List.length_cons]
  rcases Nat.mod_two_eq_zero_or_one digits.length with even | odd
  · simp [even, Nat.add_mod]
  · simp [odd, Nat.add_mod]

theorem oddLength_append (digits digits' : List Nat) :
    oddLength (digits ++ digits') = (oddLength digits ^^ oddLength digits') := by
  induction digits with
  | nil => simp [oddLength]
  | cons digit rest ih => rw [List.cons_append, oddLength_cons, oddLength_cons, ih, Bool.not_xor]

/-- The sum of some digits and those behind them. -/
theorem onesSum_append (positive : 0 < base) (digits digits' : List Nat) :
    OnesEq base (onesSum base (digits ++ digits'))
      (onesSum base digits + turned base (oddLength digits) (onesSum base digits')) := by
  induction digits with
  | nil => exact (show onesSum base digits' = 0 + onesSum base digits' by simp) ▸ .refl _ _
  | cons digit rest ih =>
      have step : OnesEq base (base * turned base (oddLength rest) (onesSum base digits'))
          (turned base (oddLength (digit :: rest)) (onesSum base digits')) := by
        rw [oddLength_cons, ← Bool.true_xor]
        exact turned_turned positive true _ _
      have first := onesSum_cons positive digit (rest ++ digits')
      have rest' := (OnesEq.refl base digit).add (ih.mul base)
      have last := (onesSum_cons positive digit rest).symm.add step
      rw [Nat.mul_add, ← Nat.add_assoc] at rest'
      exact (first.trans rest').trans last

end RtThread.Std
