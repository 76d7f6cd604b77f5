import RtThread.Format.Number

/-!
# Scanning a format

The part of `vsnprintf` that reads the format up to the letter of a conversion. A position that is
not a character of the format or its `'\0'` cannot be read. The words that `va_arg` takes are
counted, and a string argument is looked up by its address.
-/

namespace RtThread

open RtThread.Std

/-- A string that ends with `'\0'`, in an address space of 32 bits. -/
structure NulString where
  chars : List (BitVec 8)
  nonzero : ∀ c ∈ chars, c ≠ 0
  fits : chars.length < 2 ^ 32

namespace NulString

/-- `*fmt`, with `fmt` as the distance from the start of the string. -/
def read (text : NulString) (fmt : Nat) : Option (BitVec 8) :=
  if fmt = text.chars.length then some 0 else text.chars[fmt]?

variable {text : NulString} {fmt : Nat} {c : BitVec 8}

theorem read_isSome (inside : fmt ≤ text.chars.length) : ∃ c, text.read fmt = some c := by
  unfold read
  split
  · exact ⟨0, rfl⟩
  · exact ⟨_, List.getElem?_eq_getElem (by omega)⟩

/-- A character that is not `'\0'` has another one behind it. -/
theorem lt_of_read (found : text.read fmt = some c) (some_ : c ≠ 0) :
    fmt < text.chars.length := by
  unfold read at found
  split at found
  · exact absurd (Option.some.inj found).symm some_
  · exact (List.getElem?_eq_some_iff.mp found).1

end NulString

/-- The words of a `va_list`, and the strings in memory. -/
structure VaList where
  word : Nat → BitVec 32
  string : BitVec 32 → NulString

def isdigit (c : BitVec 8) : Bool := (c.setWidth 32 - 48#32).ult 10

theorem isdigit_ne_zero {c : BitVec 8} (digit : isdigit c = true) : c ≠ 0 := by
  rintro rfl
  exact absurd digit (by decide)

/-- What stands between the `%` and the letter of a conversion, with `fmt` at the letter and `arg`
as the number of words that have been taken. -/
structure Spec where
  fmt : Nat
  arg : Nat
  flags : Flags
  fieldWidth : BitVec 32
  precision : BitVec 32
  qualifier : BitVec 8

/-- No flag is set. -/
def Flags.none : Flags := ⟨false, false, false, false, false, false, false⟩

namespace NulString

/-- "process flags": the `while (1)` loop, which "skips the first '%' also". -/
def scanFlags (text : NulString) (fmt : Nat) (flags : Flags) : Option (Nat × Flags) := do
  let fmt := fmt + 1
  let c ← text.read fmt
  if c = char '-' then text |>.scanFlags fmt { flags with left := true }
  else if c = char '+' then text |>.scanFlags fmt { flags with plus := true }
  else if c = char ' ' then text |>.scanFlags fmt { flags with space := true }
  else if c = char '#' then text |>.scanFlags fmt { flags with special := true }
  else if c = char '0' then text |>.scanFlags fmt { flags with zeropad := true }
  else some (fmt, flags)
partial_fixpoint

/-- The loop of `skip_atoi`. -/
def skipAtoi (text : NulString) (s : Nat) (i : BitVec 32) : Option (Nat × BitVec 32) := do
  let c ← text.read s
  if isdigit c then text |>.skipAtoi (s + 1) (i * 10 + c.setWidth 32 - 48)
  else some (s, i)
partial_fixpoint

/-- "get field width" -/
def scanWidth (text : NulString) (args : VaList) (fmt arg : Nat) (flags : Flags) :
    Option Spec := do
  let c ← text.read fmt
  if isdigit c then
    let (fmt, fieldWidth) ← text.skipAtoi fmt 0
    some ⟨fmt, arg, flags, fieldWidth, -1, 0⟩
  else if c = char '*' then
    -- "it's the next argument"
    let fieldWidth := args.word arg
    if fieldWidth.slt 0 then
      some ⟨fmt + 1, arg + 1, { flags with left := true }, -fieldWidth, -1, 0⟩
    else some ⟨fmt + 1, arg + 1, flags, fieldWidth, -1, 0⟩
  else some ⟨fmt, arg, flags, -1, -1, 0⟩

/-- The precision behind the `.`, if there is one. -/
def scanPoint (text : NulString) (args : VaList) (spec : Spec) : Option Spec := do
  let fmt := spec.fmt + 1
  let c ← text.read fmt
  if isdigit c then
    let (fmt, precision) ← text.skipAtoi fmt 0
    some { spec with fmt := fmt, precision := precision }
  else if c = char '*' then
    some { spec with fmt := fmt + 1, arg := spec.arg + 1, precision := args.word spec.arg }
  else some { spec with fmt := fmt }

/-- "get the precision" -/
def scanPrecision (text : NulString) (args : VaList) (spec : Spec) : Option Spec := do
  let c ← text.read spec.fmt
  if c = char '.' then
    let spec ← text.scanPoint args spec
    some (if spec.precision.slt 0 then { spec with precision := 0 } else spec)
  else some spec

/-- "get the conversion qualifier" -/
def scanQualifier (text : NulString) (spec : Spec) : Option Spec := do
  let c ← text.read spec.fmt
  if c = char 'h' ∨ c = char 'l' then some { spec with fmt := spec.fmt + 1, qualifier := c }
  else some spec

/-- From a `%` to the letter of its conversion. -/
def scanSpec (text : NulString) (args : VaList) (fmt arg : Nat) : Option Spec := do
  let (fmt, flags) ← text.scanFlags fmt Flags.none
  let spec ← text.scanWidth args fmt arg flags
  let spec ← text.scanPrecision args spec
  text.scanQualifier spec

/-! ## No flag of the format is `SIGN` -/

section

variable {text : NulString} {args : VaList}

theorem scanFlags_sign (fmt : Nat) (flags : Flags) (result : Nat × Flags)
    (scanned : text.scanFlags fmt flags = some result) : result.2.sign = flags.sign := by
  refine scanFlags.partial_correctness text (fun _ flags result => result.2.sign = flags.sign) ?_
    fmt flags result scanned
  intro scan onward fmt flags result scanned
  obtain ⟨c, -, scanned⟩ := Option.bind_eq_some_iff.mp scanned
  split at scanned
  · exact (onward _ _ _ scanned).trans rfl
  split at scanned
  · exact (onward _ _ _ scanned).trans rfl
  split at scanned
  · exact (onward _ _ _ scanned).trans rfl
  split at scanned
  · exact (onward _ _ _ scanned).trans rfl
  split at scanned
  · exact (onward _ _ _ scanned).trans rfl
  · exact Option.some.inj scanned ▸ rfl

theorem scanWidth_sign {fmt arg : Nat} {flags : Flags} {spec : Spec}
    (scanned : text.scanWidth args fmt arg flags = some spec) : spec.flags.sign = flags.sign := by
  obtain ⟨c, -, scanned⟩ := Option.bind_eq_some_iff.mp scanned
  split at scanned
  · obtain ⟨result, -, scanned⟩ := Option.bind_eq_some_iff.mp scanned
    exact Option.some.inj scanned ▸ rfl
  split at scanned
  · dsimp only at scanned
    split at scanned
    · exact Option.some.inj scanned ▸ rfl
    · exact Option.some.inj scanned ▸ rfl
  · exact Option.some.inj scanned ▸ rfl

theorem scanPoint_flags {spec spec' : Spec} (scanned : text.scanPoint args spec = some spec') :
    spec'.flags = spec.flags := by
  obtain ⟨c, -, scanned⟩ := Option.bind_eq_some_iff.mp scanned
  split at scanned
  · obtain ⟨result, -, scanned⟩ := Option.bind_eq_some_iff.mp scanned
    exact Option.some.inj scanned ▸ rfl
  split at scanned
  · exact Option.some.inj scanned ▸ rfl
  · exact Option.some.inj scanned ▸ rfl

theorem scanPrecision_flags {spec spec' : Spec}
    (scanned : text.scanPrecision args spec = some spec') : spec'.flags = spec.flags := by
  obtain ⟨c, -, scanned⟩ := Option.bind_eq_some_iff.mp scanned
  split at scanned
  · obtain ⟨pointed, point, scanned⟩ := Option.bind_eq_some_iff.mp scanned
    rw [← Option.some.inj scanned, ← scanPoint_flags point]
    split
    · rfl
    · rfl
  · exact Option.some.inj scanned ▸ rfl

theorem scanQualifier_flags {spec spec' : Spec} (scanned : text.scanQualifier spec = some spec') :
    spec'.flags = spec.flags := by
  obtain ⟨c, -, scanned⟩ := Option.bind_eq_some_iff.mp scanned
  split at scanned
  · exact Option.some.inj scanned ▸ rfl
  · exact Option.some.inj scanned ▸ rfl

theorem scanSpec_sign {fmt arg : Nat} {spec : Spec}
    (scanned : text.scanSpec args fmt arg = some spec) : spec.flags.sign = false := by
  obtain ⟨result, flags, scanned⟩ := Option.bind_eq_some_iff.mp scanned
  obtain ⟨width, widthScanned, scanned⟩ := Option.bind_eq_some_iff.mp scanned
  obtain ⟨precision, precisionScanned, scanned⟩ := Option.bind_eq_some_iff.mp scanned
  rw [scanQualifier_flags scanned, scanPrecision_flags precisionScanned,
    scanWidth_sign widthScanned, scanFlags_sign fmt Flags.none result flags]
  rfl

end

/-! ## The scan stays in the format -/

variable {text : NulString} {fmt : Nat}

theorem scanFlags_isSome (inside : fmt < text.chars.length) (flags : Flags) :
    ∃ result, text.scanFlags fmt flags = some result ∧
      fmt < result.1 ∧ result.1 ≤ text.chars.length := by
  induction left : text.chars.length - fmt using Nat.strong_induction_on generalizing fmt flags with
  | _ left' ih =>
      obtain ⟨c, found⟩ := @read_isSome text (fmt + 1) inside
      have onward (flags : Flags) (some_ : c ≠ 0) :
          ∃ result, text.scanFlags (fmt + 1) flags = some result ∧
            fmt < result.1 ∧ result.1 ≤ text.chars.length := by
        have below := lt_of_read found some_
        obtain ⟨result, scanned, above, upTo⟩ :=
          ih (text.chars.length - (fmt + 1)) (by omega) below flags rfl
        exact ⟨result, scanned, Nat.lt_of_succ_lt above, upTo⟩
      rw [scanFlags]
      simp only [found, Option.bind_eq_bind, Option.bind_some]
      split
      · rename_i flag
        exact onward _ (by rw [flag]; decide)
      split
      · rename_i flag
        exact onward _ (by rw [flag]; decide)
      split
      · rename_i flag
        exact onward _ (by rw [flag]; decide)
      split
      · rename_i flag
        exact onward _ (by rw [flag]; decide)
      split
      · rename_i flag
        exact onward _ (by rw [flag]; decide)
      · exact ⟨_, rfl, Nat.lt_succ_self _, inside⟩

theorem skipAtoi_isSome (inside : fmt ≤ text.chars.length) (i : BitVec 32) :
    ∃ result, text.skipAtoi fmt i = some result ∧
      fmt ≤ result.1 ∧ result.1 ≤ text.chars.length := by
  induction left : text.chars.length - fmt using Nat.strong_induction_on generalizing fmt i with
  | _ left' ih =>
      obtain ⟨c, found⟩ := read_isSome inside
      rw [skipAtoi]
      simp only [found, Option.bind_eq_bind, Option.bind_some]
      split
      · rename_i digit
        have below := lt_of_read found (isdigit_ne_zero digit)
        obtain ⟨result, scanned, above, upTo⟩ :=
          ih (text.chars.length - (fmt + 1)) (by omega) below
            (i * 10 + c.setWidth 32 - 48) rfl
        exact ⟨result, scanned, Nat.le_of_succ_le above, upTo⟩
      · exact ⟨_, rfl, Nat.le_refl _, inside⟩

variable {args : VaList} {spec : Spec}

theorem scanWidth_isSome (inside : fmt ≤ text.chars.length) (arg : Nat) (flags : Flags) :
    ∃ spec, text.scanWidth args fmt arg flags = some spec ∧
      fmt ≤ spec.fmt ∧ spec.fmt ≤ text.chars.length := by
  obtain ⟨c, found⟩ := read_isSome inside
  simp only [scanWidth, found, Option.bind_eq_bind, Option.bind_some]
  split
  · obtain ⟨result, scanned, above, upTo⟩ := skipAtoi_isSome inside 0
    rw [scanned]
    exact ⟨_, rfl, above, upTo⟩
  split
  · rename_i star
    have below : fmt < text.chars.length := lt_of_read found (by rw [star]; decide)
    split
    · exact ⟨_, rfl, Nat.le_succ _, below⟩
    · exact ⟨_, rfl, Nat.le_succ _, below⟩
  · exact ⟨_, rfl, Nat.le_refl _, inside⟩

theorem scanPoint_isSome (inside : spec.fmt < text.chars.length) :
    ∃ spec', text.scanPoint args spec = some spec' ∧
      spec.fmt ≤ spec'.fmt ∧ spec'.fmt ≤ text.chars.length := by
  obtain ⟨c, found⟩ := @read_isSome text (spec.fmt + 1) inside
  simp only [scanPoint, found, Option.bind_eq_bind, Option.bind_some]
  split
  · obtain ⟨result, scanned, above, upTo⟩ := @skipAtoi_isSome text (spec.fmt + 1) inside 0
    rw [scanned]
    exact ⟨_, rfl, Nat.le_of_succ_le above, upTo⟩
  split
  · rename_i star
    have below := lt_of_read found (by rw [star]; decide)
    exact ⟨_, rfl, Nat.le_add_right _ 2, below⟩
  · exact ⟨_, rfl, Nat.le_succ _, inside⟩

theorem scanPrecision_isSome (inside : spec.fmt ≤ text.chars.length) :
    ∃ spec', text.scanPrecision args spec = some spec' ∧
      spec.fmt ≤ spec'.fmt ∧ spec'.fmt ≤ text.chars.length := by
  obtain ⟨c, found⟩ := read_isSome inside
  simp only [scanPrecision, found, Option.bind_eq_bind, Option.bind_some]
  split
  · rename_i point
    obtain ⟨spec', scanned, above, upTo⟩ :=
      @scanPoint_isSome text args spec (lt_of_read found (by rw [point]; decide))
    rw [scanned, Option.bind_some]
    refine ⟨_, rfl, ?_⟩
    split
    · exact ⟨above, upTo⟩
    · exact ⟨above, upTo⟩
  · exact ⟨_, rfl, Nat.le_refl _, inside⟩

theorem scanQualifier_isSome (inside : spec.fmt ≤ text.chars.length) :
    ∃ spec', text.scanQualifier spec = some spec' ∧
      spec.fmt ≤ spec'.fmt ∧ spec'.fmt ≤ text.chars.length := by
  obtain ⟨c, found⟩ := read_isSome inside
  simp only [scanQualifier, found, Option.bind_eq_bind, Option.bind_some]
  split
  · rename_i letter
    have some_ : c ≠ 0 := by
      rcases letter with rfl | rfl <;> decide
    exact ⟨_, rfl, Nat.le_succ _, lt_of_read found some_⟩
  · exact ⟨_, rfl, Nat.le_refl _, inside⟩

/-- The letter of a conversion is behind its `%`, and not behind the `'\0'` of the format. -/
theorem scanSpec_isSome (inside : fmt < text.chars.length) (arg : Nat) :
    ∃ spec, text.scanSpec args fmt arg = some spec ∧
      fmt < spec.fmt ∧ spec.fmt ≤ text.chars.length := by
  obtain ⟨result, flagsScanned, first, upTo₁⟩ := scanFlags_isSome inside Flags.none
  obtain ⟨width, widthScanned, second, upTo₂⟩ :=
    @scanWidth_isSome text result.1 args upTo₁ arg result.2
  obtain ⟨precision, precisionScanned, third, upTo₃⟩ := @scanPrecision_isSome text args width upTo₂
  obtain ⟨spec, scanned, fourth, upTo₄⟩ := @scanQualifier_isSome text precision upTo₃
  refine ⟨spec, ?_, by omega, upTo₄⟩
  simp only [scanSpec, flagsScanned, widthScanned, precisionScanned, scanned,
    Option.bind_eq_bind, Option.bind_some]

end NulString

end RtThread
