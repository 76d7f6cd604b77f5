import RtThread.Std.Sink

/-!
# Formatting a number

`print_number` of `kservice.c`, with `RT_PRINTF_PRECISION` and without `RT_PRINTF_LONGLONG` and
`RT_PRINTF_SPECIAL`. `int` and `long` have 32 bits and wrap around. A cursor is a natural number,
as it moves on behind the end of the buffer.
-/

namespace RtThread

open RtThread.Std

/-- A character of the source. -/
def char (c : Char) : BitVec 8 := BitVec.ofNat 8 c.toNat

/-- The buffer, with `buf` or `str` as its cursor. -/
abbrev CharSink := Sink (BitVec 8)

/-- `ZEROPAD`, `SIGN`, `PLUS`, `SPACE`, `LEFT`, `SPECIAL` and `LARGE`. -/
structure Flags where
  zeropad : Bool
  sign : Bool
  plus : Bool
  space : Bool
  left : Bool
  special : Bool
  large : Bool
deriving DecidableEq

/-! ## Counting down -/

/-- `size - 1` as an `int`. -/
def pred32 (size : Int) : Int := if size = -2 ^ 31 then 2 ^ 31 - 1 else size - 1

theorem toInt_pred (size : BitVec 32) : (size - 1).toInt = pred32 size.toInt := by
  have lower := BitVec.le_toInt size
  have upper := @BitVec.toInt_lt 32 size
  rw [BitVec.toInt_sub, show (1 : BitVec 32).toInt = 1 from rfl, pred32]
  split
  · rename_i least
    rw [least]
    rfl
  · rw [Int.bmod_eq_of_le] <;> omega

theorem slt_iff {low size : BitVec 32} : low.slt size = true ↔ low.toInt < size.toInt :=
  BitVec.slt_iff_toInt_lt

theorem toInt_pred_of_slt {low size : BitVec 32} (more : low.slt size = true) :
    (size - 1).toInt = size.toInt - 1 := by
  have above := slt_iff.mp more
  have lower := BitVec.le_toInt low
  rw [toInt_pred, pred32, if_neg (by omega)]

theorem countdown_lt {low size : BitVec 32} (more : low.slt size = true) :
    ((size - 1).toInt - low.toInt).toNat < (size.toInt - low.toInt).toNat := by
  have above := slt_iff.mp more
  rw [toInt_pred_of_slt more]
  omega

/-- `while (low < size--)`, putting `c` each time, and `size` behind the loop. -/
def putWhile (last : Nat) (c : BitVec 8) (low size : BitVec 32) (buf : CharSink) :
    CharSink × BitVec 32 :=
  if low.slt size then putWhile last c low (size - 1) (buf.put last c) else (buf, size - 1)
termination_by (size.toInt - low.toInt).toNat
decreasing_by exact countdown_lt ‹_›

/-! ## `print_number` -/

/-- The remainder, and the quotient that replaces `*n`. -/
def divide (n : BitVec 32) (base : Nat) : BitVec 32 × BitVec 32 :=
  if base = 10 then (n % 10, n / 10) else (n % 16, n / 16)

/-- `small_digits` and `large_digits`. -/
def digitChars (large : Bool) : List (BitVec 8) :=
  if large then
    ['0', '1', '2', '3', '4', '5', '6', '7', '8', '9', 'A', 'B', 'C', 'D', 'E', 'F'].map char
  else ['0', '1', '2', '3', '4', '5', '6', '7', '8', '9', 'a', 'b', 'c', 'd', 'e', 'f'].map char

/-- The base that `divide` honours. -/
def divisor (base : Nat) : Nat := if base = 10 then 10 else 16

theorem divide_toNat (num : BitVec 32) (base : Nat) :
    (divide num base).1.toNat = num.toNat % divisor base ∧
      (divide num base).2.toNat = num.toNat / divisor base := by
  unfold divide divisor
  split
  · exact ⟨BitVec.toNat_umod, BitVec.toNat_udiv⟩
  · exact ⟨BitVec.toNat_umod, BitVec.toNat_udiv⟩

theorem le_divisor (base : Nat) : 10 ≤ divisor base := by
  unfold divisor
  split <;> omega

theorem divide_lt {num : BitVec 32} (base : Nat) (some_ : num ≠ 0) :
    (divide num base).2.toNat < num.toNat := by
  have nonzero : num.toNat ≠ 0 := fun none_ => some_ (BitVec.eq_of_toNat_eq none_)
  have large := le_divisor base
  rw [(divide_toNat num base).2]
  exact Nat.div_lt_self (Nat.pos_of_ne_zero nonzero) (by omega)

/-- The loop that puts the digits into `tmp`, the lowest first. -/
def tmpDigits (large : Bool) (base : Nat) (num : BitVec 32) : List (BitVec 8) :=
  if num = 0 then []
  else
    (digitChars large).getD (divide num base).1.toNat 0 ::
      tmpDigits large base (divide num base).2
termination_by num.toNat
decreasing_by exact divide_lt base ‹_›

/-- "get sign"; the number is negated if it is negative. -/
def getSign (type : Flags) (num : BitVec 32) : Option (BitVec 8) × BitVec 32 :=
  if type.sign then
    if num.slt 0 then (some (char '-'), -num)
    else if type.plus then (some (char '+'), num)
    else if type.space then (some (char ' '), num)
    else (none, num)
  else (none, num)

/-- What is in `tmp`. -/
def getTmp (large : Bool) (base : Nat) (num : BitVec 32) : List (BitVec 8) :=
  if num = 0 then [char '0'] else tmpDigits large base num

/-- `c` behind "justify left". -/
def Flags.fill (type : Flags) : BitVec 8 := if type.zeropad then char '0' else char ' '

/-- The spaces before the sign. -/
def putLead (last : Nat) (type : Flags) (sign : Option (BitVec 8)) (size : BitVec 32)
    (buf : CharSink) : CharSink × BitVec 32 :=
  if !(type.zeropad || type.left) then
    putWhile last (char ' ') 0
      (if sign.isSome && (0#32).slt size then size - 1 else size) buf
  else (buf, size)

/-- The sign, which only counts if it is stored. -/
def putSign (last : Nat) (sign : Option (BitVec 8)) (size : BitVec 32) (buf : CharSink) :
    CharSink × BitVec 32 :=
  match sign with
  | some sign => (buf.put last sign, if buf.cursor ≤ last then size - 1 else size)
  | none => (buf, size)

/-- "no align to the left" -/
def putMid (last : Nat) (type : Flags) (size : BitVec 32) (buf : CharSink) :
    CharSink × BitVec 32 :=
  if !type.left then putWhile last type.fill 0 size buf else (buf, size)

/-- `print_number` from `size -= precision` on, with the digits in `tmp`. -/
def putTmp (last : Nat) (type : Flags) (sign : Option (BitVec 8)) (tmp : List (BitVec 8))
    (s precision : BitVec 32) (buf : CharSink) : CharSink :=
  let i := BitVec.ofNat 32 tmp.length
  let precision := if precision.slt i then i else precision
  let size := s - precision
  let (buf, size) := putLead last type sign size buf
  let (buf, size) := putSign last sign size buf
  let (buf, size) := putMid last type size buf
  let (buf, _) := putWhile last (char '0') i precision buf
  -- "put number in the temporary buffer", the last digit first
  let buf := buf.puts last tmp.reverse
  (putWhile last (char ' ') 0 size buf).1

/-- `type` behind "if (type & LEFT)". -/
def Flags.justified (flags : Flags) : Flags :=
  if flags.left then { flags with zeropad := false } else flags

def printNumber (buf : CharSink) (last : Nat) (num : BitVec 32) (base : Nat)
    (s precision : BitVec 32) (flags : Flags) : CharSink :=
  let type := flags.justified
  let (sign, num) := getSign type num
  putTmp last type sign (getTmp type.large base num) s precision buf

/-! ## What it puts -/

/-- What `while (low < size--)` puts. -/
theorem putWhile_fst (last : Nat) (c : BitVec 8) (low size : BitVec 32) (buf : CharSink) :
    (putWhile last c low size buf).1 =
      buf.puts last (List.replicate (size.toInt - low.toInt).toNat c) := by
  fun_induction putWhile last c low size buf with
  | case1 size buf more ih =>
      have above := slt_iff.mp more
      have count : (size.toInt - low.toInt).toNat =
          ((size - 1).toInt - low.toInt).toNat + 1 := by
        rw [toInt_pred_of_slt more]
        omega
      rw [ih, count, List.replicate_succ, Sink.puts_cons]
  | case2 size buf done =>
      have below : size.toInt ≤ low.toInt := by
        simpa [slt_iff] using done
      rw [Int.toNat_of_nonpos (by omega)]
      rfl

/-- Where `while (low < size--)` leaves `size`. -/
theorem putWhile_snd (last : Nat) (c : BitVec 8) (low size : BitVec 32) (buf : CharSink) :
    (putWhile last c low size buf).2.toInt = pred32 (min size.toInt low.toInt) := by
  fun_induction putWhile last c low size buf with
  | case1 size buf more ih =>
      have above := slt_iff.mp more
      rw [ih, toInt_pred_of_slt more]
      congr 1
      omega
  | case2 size buf done =>
      have below : size.toInt ≤ low.toInt := by
        simpa [slt_iff] using done
      rw [toInt_pred, min_eq_left below]

/-- What `while (size-- > 0)` puts. -/
theorem putWhile_zero_fst (last : Nat) (c : BitVec 8) (size : BitVec 32) (buf : CharSink) :
    (putWhile last c 0 size buf).1 = buf.puts last (List.replicate size.toInt.toNat c) := by
  rw [putWhile_fst, show (0 : BitVec 32).toInt = 0 from rfl, Int.sub_zero]

theorem putWhile_zero_snd (last : Nat) (c : BitVec 8) (size : BitVec 32) (buf : CharSink) :
    (putWhile last c 0 size buf).2.toInt = pred32 (min size.toInt 0) :=
  putWhile_snd last c 0 size buf

/-- The size that `putLead` counts down: "if ((sign)&&(size>0)) size--". -/
def sizeLead (signed : Bool) (size : Int) : Int :=
  if signed && decide (0 < size) then pred32 size else size

/-- The number of characters of `putLead`. -/
def padLead (type : Flags) (signed : Bool) (size : Int) : Nat :=
  if !(type.zeropad || type.left) then (sizeLead signed size).toNat else 0

/-- Where `putLead` leaves `size`. -/
def restLead (type : Flags) (signed : Bool) (size : Int) : Int :=
  if !(type.zeropad || type.left) then pred32 (min (sizeLead signed size) 0) else size

/-- Where `putSign` leaves `size`. -/
def restSign (signed stored : Bool) (size : Int) : Int :=
  if signed && stored then pred32 size else size

/-- The number of characters of `putMid`. -/
def padMid (type : Flags) (size : Int) : Nat := if !type.left then size.toNat else 0

/-- Where `putMid` leaves `size`. -/
def restMid (type : Flags) (size : Int) : Int :=
  if !type.left then pred32 (min size 0) else size

/-- The padding before the sign, between the sign and the number, and behind the number. -/
structure Padding where
  lead : Nat
  mid : Nat
  tail : Nat

/-- How `size` turns into padding, for a number with or without a sign whose sign is stored or
is not. -/
def padding (type : Flags) (signed stored : Bool) (size : Int) : Padding :=
  let rest := restSign signed stored (restLead type signed size)
  ⟨padLead type signed size, padMid type rest, (restMid type rest).toNat⟩

theorem putLead_eq (last : Nat) (type : Flags) (sign : Option (BitVec 8)) (size : BitVec 32)
    (buf : CharSink) :
    (putLead last type sign size buf).1 =
        buf.puts last (List.replicate (padLead type sign.isSome size.toInt) (char ' ')) ∧
      (putLead last type sign size buf).2.toInt = restLead type sign.isSome size.toInt := by
  have start : (if sign.isSome && (0#32).slt size then size - 1 else size).toInt =
      sizeLead sign.isSome size.toInt := by
    unfold sizeLead
    rw [show (0#32).slt size = decide (0 < size.toInt) from rfl]
    split
    · exact toInt_pred size
    · rfl
  unfold putLead padLead restLead
  split
  · rw [putWhile_zero_fst, putWhile_zero_snd, start]
    exact ⟨rfl, rfl⟩
  · exact ⟨rfl, rfl⟩

theorem putSign_eq (last : Nat) (sign : Option (BitVec 8)) (size : BitVec 32) (buf : CharSink) :
    (putSign last sign size buf).1 = buf.puts last sign.toList ∧
      (putSign last sign size buf).2.toInt =
        restSign sign.isSome (decide (buf.cursor ≤ last)) size.toInt := by
  cases sign with
  | none => exact ⟨rfl, rfl⟩
  | some sign =>
      refine ⟨rfl, ?_⟩
      by_cases stored : buf.cursor ≤ last
      · simpa [putSign, restSign, stored] using toInt_pred size
      · simp [putSign, restSign, stored]

theorem putMid_eq (last : Nat) (type : Flags) (size : BitVec 32) (buf : CharSink) :
    (putMid last type size buf).1 =
        buf.puts last (List.replicate (padMid type size.toInt) type.fill) ∧
      (putMid last type size buf).2.toInt = restMid type size.toInt := by
  unfold putMid padMid restMid
  split
  · exact ⟨putWhile_zero_fst last type.fill size buf, putWhile_zero_snd last type.fill size buf⟩
  · exact ⟨rfl, rfl⟩

/-- `size` behind `size -= precision`. -/
def sizeLeft (tmp : List (BitVec 8)) (s precision : BitVec 32) : BitVec 32 :=
  let i := BitVec.ofNat 32 tmp.length
  s - (if precision.slt i then i else precision)

/-- What `putTmp` puts, if the sign is stored and if it is not. -/
def paddedText (type : Flags) (sign : Option (BitVec 8)) (tmp : List (BitVec 8))
    (s precision : BitVec 32) (stored : Bool) : List (BitVec 8) :=
  let pads := padding type sign.isSome stored (sizeLeft tmp s precision).toInt
  List.replicate pads.lead (char ' ') ++ sign.toList ++ List.replicate pads.mid type.fill ++
    List.replicate (precision.toInt - tmp.length).toNat (char '0') ++ tmp.reverse ++
    List.replicate pads.tail (char ' ')

theorem tmpDigits_length_le (large : Bool) (base : Nat) (count : Nat) (num : BitVec 32)
    (below : num.toNat < 10 ^ count) : (tmpDigits large base num).length ≤ count := by
  induction count generalizing num with
  | zero =>
      have none_ : num = 0 := BitVec.eq_of_toNat_eq (by simpa using below)
      rw [none_, tmpDigits, if_pos rfl]
      exact Nat.le_refl 0
  | succ count ih =>
      rw [tmpDigits]
      split
      · exact Nat.zero_le _
      · have quotient : (divide num base).2.toNat < 10 ^ count := by
          rw [pow_succ] at below
          rw [(divide_toNat num base).2]
          calc num.toNat / divisor base ≤ num.toNat / 10 :=
                Nat.div_le_div_left (le_divisor base) (by decide)
            _ < 10 ^ count := by omega
        exact Nat.succ_le_succ (ih _ quotient)

/-- The digits fit into `tmp`. -/
theorem getTmp_length (large : Bool) (base : Nat) (num : BitVec 32) :
    0 < (getTmp large base num).length ∧ (getTmp large base num).length ≤ 16 := by
  unfold getTmp
  split
  · exact ⟨Nat.one_pos, by decide⟩
  · rename_i some_
    constructor
    · rw [tmpDigits, if_neg some_]
      exact Nat.succ_pos _
    · have few := tmpDigits_length_le large base 10 num (by have := num.isLt; omega)
      omega

theorem toInt_length {tmp : List (BitVec 8)} (few : tmp.length ≤ 16) :
    (BitVec.ofNat 32 tmp.length).toInt = tmp.length := by
  rw [BitVec.toInt_ofNat', Int.bmod_eq_of_le] <;> omega

/-- `putTmp` puts `paddedText`, where the sign is stored if its place is not behind the end of the
buffer. -/
theorem putTmp_eq (last : Nat) (type : Flags) (sign : Option (BitVec 8)) (tmp : List (BitVec 8))
    (s precision : BitVec 32) (buf : CharSink) (few : tmp.length ≤ 16) :
    putTmp last type sign tmp s precision buf =
      buf.puts last (paddedText type sign tmp s precision
        (decide (buf.cursor +
          (padding type sign.isSome true (sizeLeft tmp s precision).toInt).lead ≤ last))) := by
  have zeros : ((if precision.slt (BitVec.ofNat 32 tmp.length) then BitVec.ofNat 32 tmp.length
      else precision).toInt - (BitVec.ofNat 32 tmp.length).toInt).toNat =
      (precision.toInt - tmp.length).toNat := by
    have short := toInt_length few
    split
    · rename_i less
      rw [slt_iff] at less
      omega
    · omega
  unfold putTmp paddedText
  dsimp only
  rw [show (s - if precision.slt (BitVec.ofNat 32 tmp.length) then BitVec.ofNat 32 tmp.length
      else precision) = sizeLeft tmp s precision from rfl]
  generalize sizeLeft tmp s precision = size
  obtain ⟨lead, rest⟩ := putLead_eq last type sign size buf
  obtain ⟨signText, rest'⟩ := putSign_eq last sign (putLead last type sign size buf).2
    (putLead last type sign size buf).1
  rw [putWhile_zero_fst, putWhile_fst, zeros, (putMid_eq ..).1, (putMid_eq ..).2, rest', signText,
    rest, lead, Sink.puts_cursor, List.length_replicate]
  simp only [padding, Sink.puts_append]
  rfl

end RtThread
