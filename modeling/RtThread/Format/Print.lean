import RtThread.Format.Scan
import RtThread.Format.Rendering

/-!
# Formatted output

`vsnprintf` and what calls it: `rt_snprintf` and `rt_kprintf`. A buffer pointer that runs past the
end of the address space has no meaning, and so no result. Before that, pointers are compared as
the natural numbers they are.
-/

namespace RtThread

open RtThread.Std

/-! ## The conversions -/

theorem prewidth_lt {width : BitVec 32} (more : (0#32).slt (width - 1) = true) :
    (width - 1 - 1).toInt.toNat < (width - 1).toInt.toNat := by
  have above := slt_iff.mp more
  rw [show (0#32).toInt = 0 from rfl] at above
  rw [toInt_pred_of_slt more]
  omega

/-- `while (--field_width > 0)`, putting spaces, and `field_width` behind the loop. -/
def putWidth (last : Nat) (fieldWidth : BitVec 32) (str : CharSink) : CharSink × BitVec 32 :=
  if (0#32).slt (fieldWidth - 1) then
    putWidth last (fieldWidth - 1) (str.put last (char ' '))
  else (str, fieldWidth - 1)
termination_by (fieldWidth - 1).toInt.toNat
decreasing_by exact prewidth_lt ‹_›

/-- `case 'c'` -/
def printChar (last : Nat) (spec : Spec) (c : BitVec 8) (str : CharSink) : CharSink :=
  let (str, fieldWidth) :=
    if !spec.flags.left then putWidth last spec.fieldWidth str else (str, spec.fieldWidth)
  let str := str.put last c
  -- "put width"
  (putWidth last fieldWidth str).1

/-- `len`, which the precision may shorten. -/
def stringLength (spec : Spec) (s : NulString) : BitVec 32 :=
  let len := BitVec.ofNat 32 s.chars.length
  if (0#32).slt spec.precision && spec.precision.slt len then spec.precision else len

/-- `case 's'` -/
def printString (last : Nat) (spec : Spec) (s : NulString) (str : CharSink) : CharSink :=
  let len := stringLength spec s
  let (str, fieldWidth) :=
    if !spec.flags.left then putWhile last (char ' ') len spec.fieldWidth str
    else (str, spec.fieldWidth)
  let str := str.puts last (s.chars.take len.toInt.toNat)
  (putWhile last (char ' ') len fieldWidth str).1

/-- The string that is printed for `RT_NULL`. -/
def nullString : NulString where
  chars := ['(', 'N', 'U', 'L', 'L', ')'].map char
  nonzero := by decide
  fits := by decide

/-- `s`, if `args` has the address of a string next. -/
def VaList.pointer (args : VaList) (arg : Nat) : NulString :=
  if args.word arg = 0 then nullString else args.string (args.word arg)

/-- `base` and `flags` for the letters behind which there is a "break", and nothing for the other
ones. -/
def integerFormat (c : BitVec 8) (flags : Flags) : Option (Nat × Flags) :=
  if c = char 'o' then some (8, flags)
  else if c = char 'X' then some (16, { flags with large := true })
  else if c = char 'x' then some (16, flags)
  else if c = char 'd' ∨ c = char 'i' then some (10, { flags with sign := true })
  else if c = char 'u' then some (10, flags)
  else none

/-- `num`, from the next word. -/
def fetchNum (qualifier : BitVec 8) (flags : Flags) (word : BitVec 32) : BitVec 32 :=
  if qualifier = char 'l' then word
  else if qualifier = char 'h' then
    if flags.sign then (word.setWidth 16).signExtend 32 else (word.setWidth 16).setWidth 32
  else word

/-- `case 'p'` -/
def printPointer (last : Nat) (spec : Spec) (word : BitVec 32) (str : CharSink) : CharSink :=
  if spec.fieldWidth = -1 then
    printNumber str last word 16 8 spec.precision { spec.flags with zeropad := true }
  else printNumber str last word 16 spec.fieldWidth spec.precision spec.flags

/-- The `switch` over the letter `c` of a conversion and what comes behind it, with `fmt` and the
number of words taken up to the end of the `for` loop's body. -/
def convert (args : VaList) (last : Nat) (spec : Spec) (c : BitVec 8) (str : CharSink) :
    CharSink × Nat × Nat :=
  if c = char 'c' then
    (printChar last spec ((args.word spec.arg).setWidth 8) str, spec.fmt, spec.arg + 1)
  else if c = char 's' then
    (printString last spec (args.pointer spec.arg) str, spec.fmt, spec.arg + 1)
  else if c = char 'p' then
    (printPointer last spec (args.word spec.arg) str, spec.fmt, spec.arg + 1)
  else if c = char '%' then (str.put last (char '%'), spec.fmt, spec.arg)
  else
    match integerFormat c spec.flags with
    | some (base, flags) =>
        (printNumber str last (fetchNum spec.qualifier flags (args.word spec.arg)) base
          spec.fieldWidth spec.precision flags, spec.fmt, spec.arg + 1)
    | none =>
        -- the format may end here; then `fmt` goes back for the "++fmt" of the loop
        if c ≠ 0 then ((str.put last (char '%')).put last c, spec.fmt, spec.arg)
        else (str.put last (char '%'), spec.fmt - 1, spec.arg)

/-- The `for` loop of `vsnprintf`. -/
def NulString.vsnprintfLoop (text : NulString) (args : VaList) (last fmt arg : Nat)
    (str : CharSink) : Option CharSink := do
  let c ← text.read fmt
  if c = 0 then some str
  else if c ≠ char '%' then text |>.vsnprintfLoop args last (fmt + 1) arg (str.put last c)
  else
    let spec ← text.scanSpec args fmt arg
    let c ← text.read spec.fmt
    let (str, fmt, arg) := convert args last spec c str
    text |>.vsnprintfLoop args last (fmt + 1) arg str
partial_fixpoint

/-- `end`: "Make sure end is always >= buf". -/
def bufferEnd (buf size : BitVec 32) : BitVec 32 :=
  let last := buf + size - 1
  if last.ult buf then -1 else last

/-- The buffer and the value that is returned. -/
structure Formatted where
  buffer : CharSink
  n : BitVec 32

def vsnprintf (buf size : BitVec 32) (text : NulString) (args : VaList) : Option Formatted := do
  let last := (bufferEnd buf size).toNat
  let str ← text.vsnprintfLoop args last 0 0 ⟨buf.toNat, []⟩
  if str.cursor < 2 ^ 32 then
    let address := if str.cursor ≤ last then str.cursor else last
    -- "the trailing null byte doesn't count towards the total"
    some ⟨⟨str.cursor, (address, 0) :: str.stores⟩, BitVec.ofNat 32 (str.cursor - buf.toNat)⟩
  else none

def rtSnprintf (buf size : BitVec 32) (text : NulString) (args : VaList) : Option Formatted :=
  vsnprintf buf size text args

/-- `rt_kprintf`: what is in `rt_log_buf`, and the length that is passed to `rt_device_write` if
there is a console device. -/
def rtKprintf (consoleDevice rtLogBuf : BitVec 32) (text : NulString) (args : VaList) :
    Option (CharSink × Option (BitVec 32)) := do
  let formatted ← vsnprintf rtLogBuf 128 text args
  if consoleDevice = 0 then some (formatted.buffer, none)
  else some (formatted.buffer, some formatted.n)

/-! ## What a format asks for -/

theorem putWidth_fst (last : Nat) (fieldWidth : BitVec 32) (str : CharSink) :
    (putWidth last fieldWidth str).1 =
      str.puts last (List.replicate (fieldWidth - 1).toInt.toNat (char ' ')) := by
  fun_induction putWidth last fieldWidth str with
  | case1 fieldWidth str more ih =>
      have above := slt_iff.mp more
      rw [show (0#32).toInt = 0 from rfl] at above
      have count : (fieldWidth - 1).toInt.toNat = (fieldWidth - 1 - 1).toInt.toNat + 1 := by
        rw [toInt_pred_of_slt more]
        omega
      rw [ih, count, List.replicate_succ, Sink.puts_cons]
  | case2 fieldWidth str done =>
      have below : (fieldWidth - 1).toInt ≤ 0 := by
        simpa [slt_iff] using done
      rw [Int.toNat_of_nonpos below]
      rfl

/-- Where `while (--field_width > 0)` leaves `field_width`. -/
def restWidth (fieldWidth : BitVec 32) : BitVec 32 :=
  if (0#32).slt (fieldWidth - 1) then 0 else fieldWidth - 1

theorem putWidth_snd (last : Nat) (fieldWidth : BitVec 32) (str : CharSink) :
    (putWidth last fieldWidth str).2 = restWidth fieldWidth := by
  fun_induction putWidth last fieldWidth str with
  | case1 fieldWidth str more ih =>
      rw [ih, restWidth, restWidth, if_pos more]
      split
      · rfl
      · rename_i done
        have below : (fieldWidth - 1 - 1).toInt ≤ 0 := by
          simpa [slt_iff] using done
        have above := slt_iff.mp more
        rw [show (0#32).toInt = 0 from rfl] at above
        rw [toInt_pred_of_slt more] at below
        have one : fieldWidth - 1 = 1 := BitVec.eq_of_toInt_eq (by
          rw [show (1 : BitVec 32).toInt = 1 from rfl]
          omega)
        rw [one]
        rfl
  | case2 fieldWidth str done => rw [restWidth, if_neg done]

/-- What `printChar` puts. -/
def charText (spec : Spec) (c : BitVec 8) : List (BitVec 8) :=
  let spaces (width : BitVec 32) := List.replicate (width - 1).toInt.toNat (char ' ')
  if !spec.flags.left then spaces spec.fieldWidth ++ c :: spaces (restWidth spec.fieldWidth)
  else c :: spaces spec.fieldWidth

theorem printChar_eq (last : Nat) (spec : Spec) (c : BitVec 8) (str : CharSink) :
    printChar last spec c str = str.puts last (charText spec c) := by
  unfold printChar charText
  dsimp only
  rw [putWidth_fst]
  split
  · rw [putWidth_fst, putWidth_snd, Sink.puts_append, Sink.puts_cons]
  · rw [Sink.puts_cons]

/-- What `printString` puts. -/
def stringText (spec : Spec) (s : NulString) : List (BitVec 8) :=
  let len := (stringLength spec s).toInt
  let spaces (width : Int) := List.replicate (width - len).toNat (char ' ')
  let width := spec.fieldWidth.toInt
  if !spec.flags.left then
    spaces width ++ s.chars.take len.toNat ++ spaces (pred32 (min width len))
  else s.chars.take len.toNat ++ spaces width

theorem printString_eq (last : Nat) (spec : Spec) (s : NulString) (str : CharSink) :
    printString last spec s str = str.puts last (stringText spec s) := by
  unfold printString stringText
  dsimp only
  rw [putWhile_fst]
  split
  · rw [putWhile_fst, putWhile_snd, Sink.puts_append, Sink.puts_append]
  · rw [Sink.puts_append]

/-- The piece of a conversion with the letter `c`. -/
def conversionPiece (args : VaList) (spec : Spec) (c : BitVec 8) : Piece :=
  if c = char 'c' then Piece.plain (charText spec ((args.word spec.arg).setWidth 8))
  else if c = char 's' then Piece.plain (stringText spec (args.pointer spec.arg))
  else if c = char 'p' then
    if spec.fieldWidth = -1 then
      numberPiece (args.word spec.arg) 16 8 spec.precision { spec.flags with zeropad := true }
    else numberPiece (args.word spec.arg) 16 spec.fieldWidth spec.precision spec.flags
  else if c = char '%' then Piece.plain [char '%']
  else
    match integerFormat c spec.flags with
    | some (base, flags) =>
        numberPiece (fetchNum spec.qualifier flags (args.word spec.arg)) base spec.fieldWidth
          spec.precision flags
    | none => if c ≠ 0 then Piece.plain [char '%', c] else Piece.plain [char '%']

theorem convert_fst (args : VaList) (last : Nat) (spec : Spec) (c : BitVec 8) (str : CharSink) :
    (convert args last spec c str).1 = (conversionPiece args spec c).put last str := by
  unfold convert conversionPiece
  split
  · exact printChar_eq last spec _ str
  split
  · exact printString_eq last spec _ str
  split
  · unfold printPointer
    split
    · exact printNumber_eq str last _ 16 8 spec.precision _
    · exact printNumber_eq str last _ 16 spec.fieldWidth spec.precision spec.flags
  split
  · rfl
  cases integerFormat c spec.flags with
  | some format => exact printNumber_eq str last _ format.1 _ _ format.2
  | none =>
      dsimp only
      split
      · rfl
      · rfl

/-- Where `fmt` is at the end of the `for` loop's body, and the number of words taken. -/
def conversionEnd (spec : Spec) (c : BitVec 8) : Nat × Nat :=
  if c = char 'c' then (spec.fmt, spec.arg + 1)
  else if c = char 's' then (spec.fmt, spec.arg + 1)
  else if c = char 'p' then (spec.fmt, spec.arg + 1)
  else if c = char '%' then (spec.fmt, spec.arg)
  else
    match integerFormat c spec.flags with
    | some _ => (spec.fmt, spec.arg + 1)
    | none => if c ≠ 0 then (spec.fmt, spec.arg) else (spec.fmt - 1, spec.arg)

theorem convert_snd (args : VaList) (last : Nat) (spec : Spec) (c : BitVec 8) (str : CharSink) :
    (convert args last spec c str).2 = conversionEnd spec c := by
  unfold convert conversionEnd
  split
  · rfl
  split
  · rfl
  split
  · rfl
  split
  · rfl
  cases integerFormat c spec.flags with
  | some format => rfl
  | none =>
      dsimp only
      split
      · rfl
      · rfl

theorem conversionEnd_fst (spec : Spec) (c : BitVec 8) (some_ : c ≠ 0) :
    (conversionEnd spec c).1 = spec.fmt := by
  unfold conversionEnd
  split
  · rfl
  split
  · rfl
  split
  · rfl
  split
  · rfl
  cases integerFormat c spec.flags with
  | some format => rfl
  | none => rfl

theorem conversionEnd_zero (spec : Spec) : (conversionEnd spec 0).1 = spec.fmt - 1 := by
  rfl

/-- The pieces that the rest of a format asks for. -/
def NulString.formatPieces (text : NulString) (args : VaList) (fmt arg : Nat) :
    Option (List Piece) := do
  let c ← text.read fmt
  if c = 0 then some []
  else if c ≠ char '%' then
    let pieces ← text |>.formatPieces args (fmt + 1) arg
    some (Piece.plain [c] :: pieces)
  else
    let spec ← text.scanSpec args fmt arg
    let c ← text.read spec.fmt
    let pieces ←
      text |>.formatPieces args ((conversionEnd spec c).1 + 1) (conversionEnd spec c).2
    some (conversionPiece args spec c :: pieces)
partial_fixpoint

variable {text : NulString} {args : VaList} {fmt : Nat}

/-- The next character is behind the `%`, and not behind the `'\0'` of the format. -/
theorem conversionEnd_inside {spec : Spec} {c : BitVec 8} (found : text.read spec.fmt = some c)
    (above : fmt < spec.fmt) (upTo : spec.fmt ≤ text.chars.length) :
    fmt < (conversionEnd spec c).1 + 1 ∧ (conversionEnd spec c).1 + 1 ≤ text.chars.length := by
  by_cases zero : c = 0
  · rw [zero, conversionEnd_zero]
    omega
  · have below := NulString.lt_of_read found zero
    rw [conversionEnd_fst spec c zero]
    omega

section

variable {arg : Nat} {c : BitVec 8} {pieces : List Piece}

theorem formatPieces_end (found : text.read fmt = some 0) :
    text.formatPieces args fmt arg = some [] := by
  rw [NulString.formatPieces, found, Option.bind_eq_bind, Option.bind_some, if_pos rfl]

theorem formatPieces_literal (found : text.read fmt = some c) (some_ : c ≠ 0)
    (literal : c ≠ char '%') (rest : text.formatPieces args (fmt + 1) arg = some pieces) :
    text.formatPieces args fmt arg = some (Piece.plain [c] :: pieces) := by
  rw [NulString.formatPieces, found, Option.bind_eq_bind, Option.bind_some, if_neg some_,
    if_pos literal, rest]
  rfl

theorem formatPieces_conversion {spec : Spec} (found : text.read fmt = some (char '%'))
    (scanned : text.scanSpec args fmt arg = some spec) (letter : text.read spec.fmt = some c)
    (rest : text.formatPieces args ((conversionEnd spec c).1 + 1) (conversionEnd spec c).2 =
      some pieces) :
    text.formatPieces args fmt arg = some (conversionPiece args spec c :: pieces) := by
  rw [NulString.formatPieces]
  simp only [found, Option.bind_eq_bind, Option.bind_some, ne_eq, not_true_eq_false, if_false,
    scanned, letter, rest]
  rfl

end

/-- The loop comes to the `'\0'` of the format, reads nothing behind it, and puts the pieces. -/
theorem vsnprintfLoop_eq (inside : fmt ≤ text.chars.length) (arg : Nat) :
    ∃ pieces, text.formatPieces args fmt arg = some pieces ∧
      ∀ last str, text.vsnprintfLoop args last fmt arg str =
        some (Piece.putAll last pieces str) := by
  induction left : text.chars.length - fmt using Nat.strong_induction_on generalizing fmt arg with
  | _ left' ih =>
      obtain ⟨c, found⟩ := NulString.read_isSome inside
      by_cases ends : c = 0
      · refine ⟨[], formatPieces_end (ends ▸ found), fun last str => ?_⟩
        rw [NulString.vsnprintfLoop, found, Option.bind_eq_bind, Option.bind_some, if_pos ends]
        rfl
      have below := NulString.lt_of_read found ends
      by_cases literal : c ≠ char '%'
      · obtain ⟨pieces, rest, puts⟩ := @ih (text.chars.length - (fmt + 1)) (by omega) (fmt + 1)
          below arg rfl
        refine ⟨_, formatPieces_literal found ends literal rest, fun last str => ?_⟩
        rw [NulString.vsnprintfLoop, found, Option.bind_eq_bind, Option.bind_some, if_neg ends,
          if_pos literal, puts]
        rfl
      · obtain ⟨spec, scanned, above, upTo⟩ := @NulString.scanSpec_isSome text fmt args below arg
        obtain ⟨letter, found'⟩ := NulString.read_isSome upTo
        obtain ⟨onward, upTo'⟩ := conversionEnd_inside found' above upTo
        obtain ⟨pieces, rest, puts⟩ :=
          @ih (text.chars.length - ((conversionEnd spec letter).1 + 1)) (by omega)
            ((conversionEnd spec letter).1 + 1) upTo' (conversionEnd spec letter).2 rfl
        have percent : c = char '%' := not_not.mp literal
        refine ⟨_, formatPieces_conversion (percent ▸ found) scanned found' rest,
          fun last str => ?_⟩
        rw [NulString.vsnprintfLoop]
        simp only [found, Option.bind_eq_bind, Option.bind_some, if_neg ends, if_neg literal,
          scanned, found', convert_fst, convert_snd, puts]
        rfl

end RtThread
