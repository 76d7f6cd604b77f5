import RtThread.Format.Print

/-!
# The value of a rendered number

A reader for numbers in any base up to 16, as the inverse of `print_number`: spaces, a sign, digits,
and spaces again.
-/

namespace RtThread

open RtThread.Std

/-! ## Reading numbers -/

/-- The value of a digit; 16 if the character is none. -/
def digitValue (c : BitVec 8) : Nat :=
  if 48 ≤ c.toNat ∧ c.toNat ≤ 57 then c.toNat - 48
  else if 97 ≤ c.toNat ∧ c.toNat ≤ 102 then c.toNat - 87
  else if 65 ≤ c.toNat ∧ c.toNat ≤ 70 then c.toNat - 55
  else 16

def digitsValue (base : Nat) (digits : List (BitVec 8)) : Nat :=
  digits.foldl (fun value c => value * base + digitValue c) 0

/-- Digits, and then only spaces. -/
def readDigits (base : Nat) (text : List (BitVec 8)) : Option Nat :=
  let digits := text.takeWhile fun c => digitValue c < base
  let rest := text.dropWhile fun c => digitValue c < base
  if digits ≠ [] ∧ ∀ c ∈ rest, c = char ' ' then some (digitsValue base digits) else none

/-- A number with its sign, in a text that may begin and end with spaces. -/
def readNumber (base : Nat) (text : List (BitVec 8)) : Option Int :=
  match text.dropWhile (· = char ' ') with
  | [] => none
  | c :: text =>
      if c = char '-' then (readDigits base text).map fun value => -Int.ofNat value
      else if c = char '+' then (readDigits base text).map Int.ofNat
      else (readDigits base (c :: text)).map Int.ofNat

example : readNumber 16 ([' ', '-', '0', '1', 'f', ' '].map char) = some (-31) := by decide

variable {base spaces : Nat} {digits : List (BitVec 8)}

/-- Spaces may follow; a character that is no digit of the base may not. -/
theorem readDigits_eq (base_ : base ≤ 16) (some_ : digits ≠ [])
    (solid : ∀ c ∈ digits, c ≠ char ' ') :
    readDigits base (digits ++ List.replicate spaces (char ' ')) =
      if ∀ c ∈ digits, digitValue c < base then some (digitsValue base digits) else none := by
  have blank : ¬ digitValue (char ' ') < base := by
    rw [show digitValue (char ' ') = 16 from rfl]
    omega
  unfold readDigits
  split
  · rename_i all
    have front : ∀ c ∈ digits, decide (digitValue c < base) = true := fun c member =>
      decide_eq_true (all c member)
    rw [List.takeWhile_append_of_pos front, List.dropWhile_append_of_pos front]
    simp [some_, blank]
  · rename_i other
    push Not at other
    obtain ⟨c, member, high⟩ := other
    rw [if_neg]
    rintro ⟨-, rest⟩
    have inside : c ∈ digits ++ List.replicate spaces (char ' ') := List.mem_append_left _ member
    rw [← List.takeWhile_append_dropWhile (p := fun c => digitValue c < base)
      (l := digits ++ List.replicate spaces (char ' '))] at inside
    rcases List.mem_append.mp inside with front | behind
    · have low : decide (digitValue c < base) = true :=
        List.mem_takeWhile_imp (p := fun c => decide (digitValue c < base)) front
      have low' := of_decide_eq_true low
      omega
    · exact solid c member (rest c behind)

/-! ## The digits of a number -/

theorem digitValue_digitChars (large : Bool) :
    ∀ digit < 16, digitValue ((digitChars large).getD digit 0) = digit := by
  cases large <;> decide

theorem tmpDigits_eq (large : Bool) (base : Nat) (num : BitVec 32) :
    tmpDigits large base num = (Nat.digits (divisor base) num.toNat).map fun digit =>
      (digitChars large).getD digit 0 := by
  fun_induction tmpDigits large base num with
  | case1 =>
      rw [show (0 : BitVec 32).toNat = 0 from rfl, Nat.digits_zero]
      rfl
  | case2 num some_ ih =>
      have positive : 0 < num.toNat :=
        Nat.pos_of_ne_zero fun none_ => some_ (BitVec.eq_of_toNat_eq none_)
      have large_ := le_divisor base
      rw [Nat.digits_def' (by omega) positive, List.map_cons, ih, (divide_toNat num base).1,
        (divide_toNat num base).2]

theorem divisor_le (base : Nat) : divisor base ≤ 16 := by
  unfold divisor
  split <;> omega

/-- The values of what is in `tmp`. -/
theorem getTmp_values (large : Bool) (base : Nat) (num : BitVec 32) :
    (getTmp large base num).map digitValue =
      if num = 0 then [0] else Nat.digits (divisor base) num.toNat := by
  unfold getTmp
  split
  · rfl
  · rw [tmpDigits_eq, List.map_map]
    refine (List.map_congr_left fun digit member => ?_).trans (List.map_id _)
    have low := Nat.digits_lt_base (by have := le_divisor base; omega) member
    exact digitValue_digitChars large digit (by have := divisor_le base; omega)

theorem digitsValue_reverse (base : Nat) (digits : List (BitVec 8)) :
    digitsValue base digits.reverse = Nat.ofDigits base (digits.map digitValue) := by
  rw [digitsValue, List.foldl_reverse, Nat.ofDigits_eq_foldr, List.foldr_map]
  congr 1
  funext c value
  rw [Nat.cast_id, Nat.mul_comm, Nat.add_comm]

/-- In base 8, the digits of base 16 have the value of the number only if there is one of them that
base 8 has as well. -/
theorem ofDigits_hex_octal (value : Nat) :
    (∀ digit ∈ Nat.digits 16 value, digit < 8) ∧ Nat.ofDigits 8 (Nat.digits 16 value) = value ↔
      value < 8 := by
  constructor
  · rintro ⟨low, same⟩
    by_contra large
    have positive : 0 < value := by omega
    rw [Nat.digits_def' (by decide) positive] at low same
    have first := low (value % 16) List.mem_cons_self
    have rest : Nat.ofDigits 8 (Nat.digits 16 (value / 16)) ≤ value / 16 := by
      calc Nat.ofDigits 8 (Nat.digits 16 (value / 16)) ≤
            Nat.ofDigits 16 (Nat.digits 16 (value / 16)) := Nat.ofDigits_monotone _ (by decide)
        _ = value / 16 := Nat.ofDigits_digits 16 (value / 16)
    rw [Nat.ofDigits_cons] at same
    omega
  · intro small
    by_cases none_ : value = 0
    · simp [none_]
    · rw [Nat.digits_of_lt 16 value none_ (by omega)]
      simp [Nat.ofDigits, small]

/-- The bases that `vsnprintf` passes; `%o` sets no flag. -/
theorem integerFormat_base {c : BitVec 8} {flags flags' : Flags}
    (letter : integerFormat c flags = some (base, flags')) :
    (base = 8 ∨ base = 10 ∨ base = 16) ∧ (base = 8 → flags' = flags) := by
  unfold integerFormat at letter
  split at letter
  · obtain ⟨rfl, rfl⟩ := Prod.mk.inj (Option.some.inj letter)
    exact ⟨Or.inl rfl, fun _ => rfl⟩
  split at letter
  · obtain ⟨rfl, rfl⟩ := Prod.mk.inj (Option.some.inj letter)
    exact ⟨Or.inr (Or.inr rfl), fun never => absurd never (by decide)⟩
  split at letter
  · obtain ⟨rfl, rfl⟩ := Prod.mk.inj (Option.some.inj letter)
    exact ⟨Or.inr (Or.inr rfl), fun never => absurd never (by decide)⟩
  split at letter
  · obtain ⟨rfl, rfl⟩ := Prod.mk.inj (Option.some.inj letter)
    exact ⟨Or.inr (Or.inl rfl), fun never => absurd never (by decide)⟩
  split at letter
  · obtain ⟨rfl, rfl⟩ := Prod.mk.inj (Option.some.inj letter)
    exact ⟨Or.inr (Or.inl rfl), fun never => absurd never (by decide)⟩
  · cases letter

/-- The digits denote the number in its base, but for numbers from 8 on in base 8. -/
theorem getTmp_denotes (large : Bool) (num : BitVec 32) (base_ : base = 8 ∨ base = 10 ∨ base = 16) :
    (∀ c ∈ (getTmp large base num).reverse, digitValue c < base) ∧
        digitsValue base (getTmp large base num).reverse = num.toNat ↔
      (base = 8 → num.toNat < 8) := by
  have members : (∀ c ∈ (getTmp large base num).reverse, digitValue c < base) ↔
      ∀ digit ∈ (getTmp large base num).map digitValue, digit < base := by
    simp
  rw [members, digitsValue_reverse, getTmp_values]
  by_cases none_ : num = 0
  · rw [if_pos none_, none_]
    rcases base_ with rfl | rfl | rfl <;> simp
  · rw [if_neg none_]
    have honoured (honest : divisor base = base) (more : 1 < base) :
        (∀ digit ∈ Nat.digits (divisor base) num.toNat, digit < base) ∧
          Nat.ofDigits base (Nat.digits (divisor base) num.toNat) = num.toNat := by
      rw [honest]
      exact ⟨fun digit member => Nat.digits_lt_base more member,
        Nat.ofDigits_digits base num.toNat⟩
    rcases base_ with rfl | rfl | rfl
    · exact (ofDigits_hex_octal num.toNat).trans ⟨fun small _ => small, fun small => small rfl⟩
    · exact iff_of_true (honoured rfl (by decide)) (fun never => absurd never (by decide))
    · exact iff_of_true (honoured rfl (by decide)) (fun never => absurd never (by decide))

/-! ## Reading what is rendered -/

theorem readNumber_spaces (text : List (BitVec 8)) :
    readNumber base (List.replicate spaces (char ' ') ++ text) = readNumber base text := by
  have blank : ∀ c ∈ List.replicate spaces (char ' '), decide (c = char ' ') = true :=
    fun c member => decide_eq_true (List.eq_of_mem_replicate member)
  rw [readNumber, List.dropWhile_append_of_pos blank]
  rfl

theorem readNumber_digits (some_ : digits ≠ []) (solid : ∀ c ∈ digits, digitValue c < 16)
    (text : List (BitVec 8)) :
    readNumber base (digits ++ text) =
      (readDigits base (digits ++ text)).map Int.ofNat := by
  cases digits with
  | nil => exact absurd rfl some_
  | cons c digits =>
      have digit := solid c List.mem_cons_self
      have noSpace : c ≠ char ' ' := fun same => absurd (same ▸ digit) (by decide)
      have noMinus : c ≠ char '-' := fun same => absurd (same ▸ digit) (by decide)
      have noPlus : c ≠ char '+' := fun same => absurd (same ▸ digit) (by decide)
      rw [List.cons_append, readNumber, List.dropWhile_cons_of_neg (by simpa using noSpace)]
      dsimp only
      rw [if_neg noMinus, if_neg noPlus]

/-- The sign of a number in front of its digits. -/
def withSign (sign : Option (BitVec 8)) (value : Nat) : Int :=
  if sign = some (char '-') then -Int.ofNat value else Int.ofNat value

theorem withSign_inj {sign : Option (BitVec 8)} {left right : Nat}
    (same : withSign sign left = withSign sign right) : left = right := by
  unfold withSign at same
  split at same
  · exact Int.ofNat.inj (neg_injective same)
  · exact Int.ofNat.inj same

theorem getSign_cases (type : Flags) (num : BitVec 32) :
    (getSign type num).1 = none ∨ (getSign type num).1 = some (char '-') ∨
      (getSign type num).1 = some (char '+') ∨ (getSign type num).1 = some (char ' ') := by
  unfold getSign
  split
  · split
    · exact Or.inr (Or.inl rfl)
    split
    · exact Or.inr (Or.inr (Or.inl rfl))
    split
    · exact Or.inr (Or.inr (Or.inr rfl))
    · exact Or.inl rfl
  · exact Or.inl rfl

theorem readNumber_signed {sign : Option (BitVec 8)} {text : List (BitVec 8)}
    (cases_ : sign = none ∨ sign = some (char '-') ∨ sign = some (char '+') ∨
      sign = some (char ' '))
    (some_ : digits ≠ []) (solid : ∀ c ∈ digits, digitValue c < 16) :
    readNumber base (sign.toList ++ (digits ++ text)) =
      (readDigits base (digits ++ text)).map (withSign sign) := by
  rcases cases_ with rfl | rfl | rfl | rfl
  · exact readNumber_digits some_ solid text
  · rfl
  · rfl
  · exact (@readNumber_spaces base 1 (digits ++ text)).trans (readNumber_digits some_ solid text)

theorem getTmp_solid (large : Bool) (base : Nat) (num : BitVec 32) :
    ∀ c ∈ getTmp large base num, digitValue c < 16 := by
  intro c member
  have value := List.mem_map_of_mem (f := digitValue) member
  rw [getTmp_values] at value
  split at value
  · have zero := List.mem_singleton.mp value
    omega
  · have low := Nat.digits_lt_base (by have := le_divisor base; omega) value
    have few := divisor_le base
    omega

/-! ## The length of what is rendered -/

/-- How often `size` is decremented without need: once behind each loop that fills. -/
def passes (type : Flags) : Nat := if type.left then 0 else if type.zeropad then 1 else 2

theorem padding_total {type : Flags} {signed : Bool} {size : Int} (least : -2 ^ 31 ≤ size) :
    (padding type signed true size).lead + (padding type signed true size).mid +
        (padding type signed true size).tail = (size - signed.toNat).toNat ↔
      -2 ^ 31 ≤ size - (signed.toNat + passes type) := by
  have first := pred32_cases size
  cases zeropad : type.zeropad <;> cases left : type.left <;> cases signed <;>
    simp [padding, padLead, padMid, restLead, restSign, restMid, sizeLead, passes, zeropad, left]
  case false.false.false =>
    have second := pred32_cases (min size 0)
    have third := pred32_cases (min (pred32 (min size 0)) 0)
    omega
  case false.false.true =>
    have second := pred32_cases (min (if 0 < size then pred32 size else size) 0)
    have third := pred32_cases (pred32 (min (if 0 < size then pred32 size else size) 0))
    have fourth :=
      pred32_cases (min (pred32 (pred32 (min (if 0 < size then pred32 size else size) 0))) 0)
    omega
  case true.false.false =>
    have second := pred32_cases (min size 0)
    omega
  case true.false.true =>
    have second := pred32_cases (min (pred32 size) 0)
    omega
  all_goals omega

/-- Without zeros to fill with, nothing stands between the sign and the digits. -/
theorem padding_mid {type : Flags} {signed : Bool} {size : Int} (zeropad : type.zeropad = false)
    (fits : -2 ^ 31 ≤ size - (signed.toNat + passes type)) :
    (padding type signed true size).mid = 0 := by
  have first := pred32_cases size
  cases left : type.left <;> cases signed <;>
    simp [padding, padMid, restLead, restSign, sizeLead, passes, zeropad, left] at fits ⊢
  case false.false =>
    have second := pred32_cases (min size 0)
    omega
  case false.true =>
    have second := pred32_cases (min (if 0 < size then pred32 size else size) 0)
    have third := pred32_cases (pred32 (min (if 0 < size then pred32 size else size) 0))
    omega

/-- No decrement of `size` wraps around, or what is left behind a subtraction that does is no
padding. -/
def SizeFits (type : Flags) (sign : Nat) (s precision : Int) : Prop :=
  -2 ^ 31 ≤ s - precision - (sign + passes type) ∨ s - precision + 2 ^ 32 ≤ sign

variable {type : Flags} {sign : Option (BitVec 8)} {tmp : List (BitVec 8)}
  {s precision : BitVec 32}

theorem sizeLeft_cases (few : tmp.length ≤ 16) :
    (sizeLeft tmp s precision).toInt = s.toInt - max precision.toInt tmp.length ∨
      (sizeLeft tmp s precision).toInt = s.toInt - max precision.toInt tmp.length + 2 ^ 32 ∧
        s.toInt - max precision.toInt tmp.length < -2 ^ 31 := by
  have short := toInt_length few
  have chosen : (if precision.slt (BitVec.ofNat 32 tmp.length) then BitVec.ofNat 32 tmp.length
      else precision).toInt = max precision.toInt tmp.length := by
    split
    · rename_i less
      rw [slt_iff] at less
      omega
    · rename_i more
      rw [slt_iff] at more
      omega
  have least := BitVec.le_toInt s
  have most := @BitVec.toInt_lt 32 s
  have most' := @BitVec.toInt_lt 32 precision
  unfold sizeLeft
  dsimp only
  rw [BitVec.toInt_sub, chosen]
  by_cases wraps : s.toInt - max precision.toInt tmp.length < -2 ^ 31
  · right
    rw [← Int.add_bmod_right, Int.bmod_eq_of_le] <;> omega
  · left
    rw [Int.bmod_eq_of_le] <;> omega

theorem passes_le (type : Flags) : passes type ≤ 2 := by
  unfold passes
  split
  · decide
  · split <;> decide

theorem SizeFits.noWrap (few : tmp.length ≤ 16)
    (fits : SizeFits type sign.isSome.toNat s.toInt (max precision.toInt tmp.length)) :
    -2 ^ 31 ≤ (sizeLeft tmp s precision).toInt - (sign.isSome.toNat + passes type) := by
  have least := BitVec.le_toInt (sizeLeft tmp s precision)
  have bound := BitVec.le_toInt s
  have most := @BitVec.toInt_lt 32 precision
  have one := sign.isSome.toNat_le
  have two := passes_le type
  unfold SizeFits at fits
  rcases @sizeLeft_cases tmp s precision few with exact_ | ⟨wrapped, low⟩ <;> omega

/-- The size of the text is what the width, the precision and the digits ask for if and only if
the size fits. -/
theorem paddedText_total (few : tmp.length ≤ 16) :
    ((paddedText type sign tmp s precision true).length : Int) =
        max s.toInt (sign.isSome.toNat + max precision.toInt tmp.length) ↔
      SizeFits type sign.isSome.toNat s.toInt (max precision.toInt tmp.length) := by
  have least := BitVec.le_toInt (sizeLeft tmp s precision)
  have total := @padding_total type sign.isSome _ least
  rw [paddedText_length, SizeFits]
  have bound := BitVec.le_toInt s
  have most := @BitVec.toInt_lt 32 precision
  have one := sign.isSome.toNat_le
  rcases @sizeLeft_cases tmp s precision few with exact_ | ⟨wrapped, low⟩
  · rw [exact_] at least total
    rw [exact_]
    omega
  · have fits : -2 ^ 31 ≤ s.toInt - max precision.toInt tmp.length + 2 ^ 32 -
        (sign.isSome.toNat + passes type) := by
      have two := passes_le type
      omega
    rw [wrapped] at total
    have exact_ := total.mpr fits
    rw [wrapped]
    omega

/-! ## What a rendered number denotes -/

theorem digitsValue_zeros (zeros : Nat) :
    digitsValue base (List.replicate zeros (char '0') ++ digits) = digitsValue base digits := by
  have none_ : (List.replicate zeros (char '0')).foldl
      (fun value c => value * base + digitValue c) 0 = 0 := by
    induction zeros with
    | zero => rfl
    | succ zeros ih =>
        rw [List.replicate_succ, List.foldl_cons, show digitValue (char '0') = 0 from rfl,
          Nat.zero_mul, ih]
  rw [digitsValue, List.foldl_append, none_, digitsValue]

/-- Padding, a sign, zeros and digits denote the number with the digits and the sign. -/
theorem readNumber_fields {zeros tail : Nat}
    (cases_ : sign = none ∨ sign = some (char '-') ∨ sign = some (char '+') ∨
      sign = some (char ' '))
    (some_ : digits ≠ []) (solid : ∀ c ∈ digits, digitValue c < 16) (base_ : base ≤ 16)
    (positive : 0 < base) :
    readNumber base (List.replicate spaces (char ' ') ++ (sign.toList ++
        ((List.replicate zeros (char '0') ++ digits) ++ List.replicate tail (char ' ')))) =
      if ∀ c ∈ digits, digitValue c < base then some (withSign sign (digitsValue base digits))
      else none := by
  have some' : List.replicate zeros (char '0') ++ digits ≠ [] :=
    List.append_ne_nil_of_right_ne_nil _ some_
  have zero {c : BitVec 8} (member : c ∈ List.replicate zeros (char '0')) : digitValue c = 0 :=
    (List.eq_of_mem_replicate member).symm ▸ rfl
  have solid' : ∀ c ∈ List.replicate zeros (char '0') ++ digits, digitValue c < 16 := by
    intro c member
    rcases List.mem_append.mp member with front | behind
    · rw [zero front]
      decide
    · exact solid c behind
  have noSpace : ∀ c ∈ List.replicate zeros (char '0') ++ digits, c ≠ char ' ' :=
    fun c member same => absurd (same ▸ solid' c member) (by decide)
  have low : (∀ c ∈ List.replicate zeros (char '0') ++ digits, digitValue c < base) ↔
      ∀ c ∈ digits, digitValue c < base := by
    constructor
    · exact fun all c member => all c (List.mem_append_right _ member)
    · intro all c member
      rcases List.mem_append.mp member with front | behind
      · rw [zero front]
        exact positive
      · exact all c behind
  rw [readNumber_spaces, readNumber_signed cases_ some' solid', readDigits_eq base_ some' noSpace,
    digitsValue_zeros]
  by_cases all : ∀ c ∈ digits, digitValue c < base
  · rw [if_pos (low.mpr all), if_pos all]
    rfl
  · rw [if_neg fun all' => all (low.mp all'), if_neg all]
    rfl

theorem readNumber_paddedText
    (cases_ : sign = none ∨ sign = some (char '-') ∨ sign = some (char '+') ∨
      sign = some (char ' '))
    (some_ : 0 < tmp.length) (solid : ∀ c ∈ tmp, digitValue c < 16) (base_ : base ≤ 16)
    (positive : 0 < base)
    (inner : sign.isSome = true → type.zeropad = false →
      (padding type sign.isSome true (sizeLeft tmp s precision).toInt).mid = 0) :
    readNumber base (paddedText type sign tmp s precision true) =
      if ∀ c ∈ tmp.reverse, digitValue c < base then
        some (withSign sign (digitsValue base tmp.reverse)) else none := by
  have some' : tmp.reverse ≠ [] := by
    rw [ne_eq, List.reverse_eq_nil_iff]
    rintro rfl
    exact absurd some_ (Nat.lt_irrefl 0)
  have solid' : ∀ c ∈ tmp.reverse, digitValue c < 16 := fun c member =>
    solid c (List.mem_reverse.mp member)
  have fields (lead zeros tail : Nat) :=
    @readNumber_fields base lead tmp.reverse sign zeros tail cases_ some' solid' base_ positive
  unfold paddedText
  dsimp only
  generalize padding type sign.isSome true (sizeLeft tmp s precision).toInt = pads at inner ⊢
  cases zeropad : type.zeropad with
  | true =>
      rw [← fields pads.lead (pads.mid + (precision.toInt - tmp.length).toNat) pads.tail,
        Flags.fill, if_pos zeropad, ← List.replicate_append_replicate]
      simp only [List.append_assoc]
  | false =>
      have blank : type.fill = char ' ' := by
        rw [Flags.fill, if_neg (by rw [zeropad]; decide)]
      cases sign with
      | none =>
          rw [← fields (pads.lead + pads.mid) (precision.toInt - tmp.length).toNat pads.tail, blank,
            ← List.replicate_append_replicate]
          simp only [Option.toList_none, List.nil_append, List.append_nil, List.append_assoc]
      | some sign =>
          rw [← fields pads.lead (precision.toInt - tmp.length).toNat pads.tail,
            inner rfl zeropad]
          simp only [List.replicate_zero, List.append_nil, List.append_assoc]

/-- The number that a conversion is given. -/
def numberValue (flags : Flags) (num : BitVec 32) : Int :=
  if flags.sign then num.toInt else num.toNat

/-- The length of the sign. -/
def signLength (flags : Flags) (num : BitVec 32) : Nat :=
  if flags.sign && (num.slt 0 || flags.plus || flags.space) then 1 else 0

/-- The number of digits. -/
def digitCount (base : Nat) (value : Int) : Nat := max 1 (Nat.digits base value.natAbs).length

theorem getSign_value (type : Flags) (num : BitVec 32) :
    withSign (getSign type num).1 (getSign type num).2.toNat = numberValue type num ∧
      (getSign type num).2.toNat = (numberValue type num).natAbs := by
  have value := num.toInt_eq_toNat_cond
  have range := num.isLt
  unfold getSign numberValue
  split
  · split
    · rename_i negative
      have below : num.toInt < 0 := slt_iff.mp negative
      have abs : (-num).toNat = num.toInt.natAbs := by
        rw [BitVec.toNat_neg]
        split at value <;> omega
      dsimp only
      rw [abs, withSign, if_pos rfl]
      exact ⟨by rw [Int.ofNat_eq_natCast]; omega, rfl⟩
    · rename_i positive
      have above : ¬ num.toInt < 0 := fun below => positive (slt_iff.mpr below)
      have same : num.toInt = num.toNat := by
        split at value <;> omega
      rw [same]
      split
      · exact ⟨rfl, rfl⟩
      split
      · exact ⟨rfl, rfl⟩
      · exact ⟨rfl, rfl⟩
  · exact ⟨rfl, rfl⟩

theorem getSign_length (type : Flags) (num : BitVec 32) :
    (getSign type num).1.isSome.toNat = signLength type num := by
  unfold getSign signLength
  cases type.sign <;> cases num.slt 0 <;> cases type.plus <;> cases type.space <;> rfl

theorem justified_value (flags : Flags) (num : BitVec 32) :
    numberValue flags.justified num = numberValue flags num ∧
      signLength flags.justified num = signLength flags num := by
  unfold Flags.justified
  split
  · exact ⟨rfl, rfl⟩
  · exact ⟨rfl, rfl⟩

theorem getTmp_count (large : Bool) (num : BitVec 32)
    (base_ : base = 8 ∨ base = 10 ∨ base = 16) (honoured : base = 8 → num.toNat < 8) :
    (getTmp large base num).length = digitCount base num.toNat := by
  rw [← List.length_map (f := digitValue), getTmp_values, digitCount, Int.natAbs_natCast]
  split
  · rename_i none_
    rw [none_]
    simp
  · rename_i some_
    have positive : num.toNat ≠ 0 := fun none_ => some_ (BitVec.eq_of_toNat_eq none_)
    have same : (Nat.digits (divisor base) num.toNat).length =
        (Nat.digits base num.toNat).length := by
      rcases base_ with rfl | rfl | rfl
      · have small := honoured rfl
        rw [Nat.digits_of_lt 8 _ positive small,
          Nat.digits_of_lt (divisor 8) _ positive (Nat.lt_trans small (by decide))]
      · rfl
      · rfl
    have many : 0 < (Nat.digits base num.toNat).length :=
      List.length_pos_iff.mpr (Nat.digits_ne_nil_iff_ne_zero.mpr positive)
    omega

/-! ## The conversions -/

theorem conversionPiece_number {args : VaList} {spec : Spec} {c : BitVec 8} {flags : Flags}
    (letter : integerFormat c spec.flags = some (base, flags)) :
    conversionPiece args spec c =
      numberPiece (fetchNum spec.qualifier flags (args.word spec.arg)) base spec.fieldWidth
        spec.precision flags := by
  unfold conversionPiece
  split
  · rename_i other
    rw [other] at letter
    cases letter
  split
  · rename_i other
    rw [other] at letter
    cases letter
  split
  · rename_i other
    rw [other] at letter
    cases letter
  split
  · rename_i other
    rw [other] at letter
    cases letter
  · rw [letter]

theorem fetchNum_whole {qualifier : BitVec 8} (whole : qualifier ≠ char 'h') (flags : Flags)
    (word : BitVec 32) : fetchNum qualifier flags word = word := by
  unfold fetchNum
  rw [if_neg whole]
  split <;> rfl

/-- What has been put from an address on. -/
def storedText (start : Nat) (str : CharSink) : List (BitVec 8) :=
  (List.range (str.cursor - start)).map fun index => (str.read (start + index)).getD 0

theorem storedText_puts {str : CharSink} {last : Nat} {text : List (BitVec 8)}
    (room : str.cursor + text.length ≤ last + 1) :
    storedText str.cursor (str.puts last text) = text := by
  rw [storedText, Sink.puts_cursor, Nat.add_sub_cancel_left]
  apply List.ext_getElem
  · simp
  · intro index below below'
    have found := @Sink.puts_read _ last text str index below' (by omega)
    rw [List.getElem_map, List.getElem_range, found, List.getElem?_eq_getElem below']
    rfl

/-- A number that has room is stored with its sign. -/
theorem printNumber_room {str : CharSink} {last : Nat} {num : BitVec 32} {flags : Flags}
    (room : ((numberPiece num base s precision flags).put last str).cursor ≤ last + 1) :
    (numberPiece num base s precision flags).put last str =
      str.puts last ((numberPiece num base s precision flags).text true) := by
  rw [Piece.put] at room ⊢
  by_cases stored : str.cursor + (numberPiece num base s precision flags).lead ≤ last
  · rw [decide_eq_true stored]
  · rw [decide_eq_false stored, Sink.puts_cursor] at room
    have longer : (numberPiece num base s precision flags).lead <
        ((numberPiece num base s precision flags).text false).length :=
      padLead_lt (getTmp_length flags.justified.large base (getSign flags.justified num).2).1 false
    omega

/-- The text denotes the number, and it is as long as the width, the sign, the precision and the
digits ask for. -/
structure Faithful (base : Nat) (flags : Flags) (num fieldWidth precision : BitVec 32)
    (text : List (BitVec 8)) : Prop where
  denotes : readNumber base text = some (numberValue flags num)
  length : (text.length : Int) = max fieldWidth.toInt
    (signLength flags num + max precision.toInt (digitCount base (numberValue flags num)))

theorem faithful_iff {num : BitVec 32} {flags : Flags}
    (base_ : base = 8 ∨ base = 10 ∨ base = 16) (unsigned : base = 8 → flags.sign = false) :
    Faithful base flags num s precision ((numberPiece num base s precision flags).text true) ↔
      (base = 8 → num.toNat < 8) ∧
        SizeFits flags.justified (signLength flags num) s.toInt
          (max precision.toInt (digitCount base (numberValue flags num))) := by
  have low : 0 < base := by omega
  have high : base ≤ 16 := by omega
  obtain ⟨value, abs⟩ := getSign_value flags.justified num
  have length := getSign_length flags.justified num
  have cases_ := getSign_cases flags.justified num
  have plain (octal : base = 8) : getSign flags.justified num = (none, num) := by
    have unsigned' : flags.justified.sign = false := by
      unfold Flags.justified
      split
      · exact unsigned octal
      · exact unsigned octal
    rw [getSign, unsigned']
    rfl
  rw [(justified_value flags num).1] at value abs
  rw [(justified_value flags num).2] at length
  have sized := getTmp_length flags.justified.large base (getSign flags.justified num).2
  have solid := getTmp_solid flags.justified.large base (getSign flags.justified num).2
  have honest := getTmp_denotes flags.justified.large (getSign flags.justified num).2 base_
  have count := getTmp_count flags.justified.large (getSign flags.justified num).2 base_
  have same : digitCount base (getSign flags.justified num).2.toNat =
      digitCount base (numberValue flags num) := by
    rw [digitCount, digitCount, Int.natAbs_natCast, abs]
  rw [same] at count
  have small : (base = 8 → (getSign flags.justified num).2.toNat < 8) ↔
      (base = 8 → num.toNat < 8) := by
    constructor
    · intro small octal
      have below := small octal
      rwa [plain octal] at below
    · intro small octal
      rw [plain octal]
      exact small octal
  rw [small] at honest count
  have total := @paddedText_total flags.justified (getSign flags.justified num).1
    (getTmp flags.justified.large base (getSign flags.justified num).2) s precision sized.2
  have reads := @readNumber_paddedText base flags.justified (getSign flags.justified num).1
    (getTmp flags.justified.large base (getSign flags.justified num).2) s precision cases_ sized.1
    solid high low
  show Faithful base flags num s precision (paddedText flags.justified
    (getSign flags.justified num).1 (getTmp flags.justified.large base
      (getSign flags.justified num).2) s precision true) ↔ _
  constructor
  · rintro ⟨denotes, longs⟩
    have octal (eight : base = 8) : num.toNat < 8 := by
      rw [reads (fun signed => by rw [plain eight] at signed; cases signed)] at denotes
      split at denotes
      · rename_i all
        have number := withSign_inj ((Option.some.inj denotes).trans value.symm)
        exact honest.mp ⟨all, number⟩ eight
      · cases denotes
    rw [← count octal, ← length] at longs ⊢
    exact ⟨octal, total.mp longs⟩
  · rintro ⟨octal, fits⟩
    rw [← count octal, ← length] at fits
    obtain ⟨all, number⟩ := honest.mpr octal
    refine ⟨?_, ?_⟩
    · rw [reads (fun _ zeropad => padding_mid zeropad (fits.noWrap sized.2)), if_pos all, number,
        value]
    · rw [← count octal, ← length]
      exact total.mpr fits

/-- What is stored for an integer conversion is faithful if and only if it is not `%o` with a number
from 8 on, and the padding can be counted; there is room for all of it, and the letter has no `h`
before it. -/
theorem integer_conversion_faithful (text : NulString) (args : VaList) (fmt arg last base : Nat)
    (spec : Spec) (c : BitVec 8) (flags : Flags) (str : CharSink)
    (scanned : text.scanSpec args fmt arg = some spec)
    (letter : integerFormat c spec.flags = some (base, flags))
    (whole : spec.qualifier ≠ char 'h')
    (room : (convert args last spec c str).1.cursor ≤ last + 1) :
    Faithful base flags (args.word spec.arg) spec.fieldWidth spec.precision
        (storedText str.cursor (convert args last spec c str).1) ↔
      (base = 8 → (args.word spec.arg).toNat < 8) ∧
        SizeFits flags.justified (signLength flags (args.word spec.arg)) spec.fieldWidth.toInt
          (max spec.precision.toInt
            (digitCount base (numberValue flags (args.word spec.arg)))) := by
  obtain ⟨base_, octal⟩ := integerFormat_base letter
  have unsigned (eight : base = 8) : flags.sign = false := by
    rw [octal eight]
    exact NulString.scanSpec_sign scanned
  rw [convert_fst, conversionPiece_number letter, fetchNum_whole whole] at room ⊢
  have stored := printNumber_room room
  rw [stored]
  rw [stored, Sink.puts_cursor] at room
  rw [storedText_puts room]
  exact faithful_iff base_ unsigned

/-- `%o` -/
def octalFormat : NulString where
  chars := ['%', 'o'].map char
  nonzero := by decide
  fits := by decide

def oneWord (word : BitVec 32) : VaList := ⟨fun _ => word, fun _ => nullString⟩

def octalSpec : Spec := ⟨1, 0, Flags.none, -1, -1, 0⟩

theorem octalFormat_scanned (word : BitVec 32) :
    octalFormat.scanSpec (oneWord word) 0 0 = some octalSpec := by
  have read₁ : octalFormat.read 1 = some (char 'o') := rfl
  have flags : octalFormat.scanFlags 0 Flags.none = some (1, Flags.none) := by
    rw [NulString.scanFlags, read₁, Option.bind_eq_bind, Option.bind_some, if_neg (by decide),
      if_neg (by decide), if_neg (by decide), if_neg (by decide), if_neg (by decide)]
  simp only [NulString.scanSpec, flags, Option.bind_eq_bind, Option.bind_some]
  rfl

theorem octal_printed (word : BitVec 32) :
    (convert (oneWord word) 0x200000ff octalSpec (char 'o') ⟨0x20000000, []⟩).1 =
      (numberPiece word 8 (-1) (-1) Flags.none).put 0x200000ff ⟨0x20000000, []⟩ := by
  rw [convert_fst]
  rfl

theorem integer_conversion_faithful_seven :
    Faithful 8 Flags.none 7 (-1) (-1) (storedText 0x20000000
      (convert (oneWord 7) 0x200000ff octalSpec (char 'o') ⟨0x20000000, []⟩).1) := by
  have digits : getTmp false 8 7 = [char '7'] := by
    rw [getTmp, if_neg (by decide), tmpDigits, if_neg (by decide), tmpDigits, if_pos (by decide)]
    rfl
  have printed (stored : Bool) : (numberPiece 7 8 (-1) (-1) Flags.none).text stored =
      paddedText Flags.none none [char '7'] (-1) (-1) stored := by
    rw [← digits]
    rfl
  have count : digitCount 8 (numberValue Flags.none 7) = 1 := by
    rw [show numberValue Flags.none 7 = 7 from rfl, digitCount, show (7 : Int).natAbs = 7 from rfl,
      Nat.digits_of_lt 8 7 (by decide) (by decide)]
    rfl
  refine (integer_conversion_faithful octalFormat (oneWord 7) 0 0 0x200000ff 8 octalSpec (char 'o')
    Flags.none ⟨0x20000000, []⟩ (octalFormat_scanned 7) rfl (by decide) ?_).mpr
      ⟨fun _ => by decide, ?_⟩
  · rw [octal_printed, Piece.put, Sink.puts_cursor, printed]
    decide +kernel
  · refine Or.inl ?_
    rw [show (oneWord 7).word octalSpec.arg = 7 from rfl, count]
    decide

/-- 16 is printed as it is for `%x`, and not as `20`. -/
theorem octal_sixteen :
    storedText 0x20000000 (convert (oneWord 16) 0x200000ff octalSpec (char 'o')
        ⟨0x20000000, []⟩).1 = ['1', '0'].map char ∧
      ¬ Faithful 8 Flags.none 16 (-1) (-1) (['1', '0'].map char) := by
  have digits : getTmp false 8 16 = [char '0', char '1'] := by
    rw [getTmp, if_neg (by decide), tmpDigits, if_neg (by decide), tmpDigits, if_neg (by decide),
      tmpDigits, if_pos (by decide)]
    rfl
  have printed (stored : Bool) : (numberPiece 16 8 (-1) (-1) Flags.none).text stored =
      ['1', '0'].map char := by
    have padded : (numberPiece 16 8 (-1) (-1) Flags.none).text stored =
        paddedText Flags.none none [char '0', char '1'] (-1) (-1) stored := by
      rw [← digits]
      rfl
    rw [padded]
    cases stored <;> decide +kernel
  constructor
  · rw [octal_printed, Piece.put, printed]
    exact @storedText_puts ⟨0x20000000, []⟩ 0x200000ff _ (by decide)
  · intro faithful
    exact absurd faithful.denotes (by decide)

end RtThread
