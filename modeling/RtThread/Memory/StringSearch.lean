import Mathlib

/-!
# `rt_strstr`

With `rt_strlen` and `rt_memcmp`. A byte that may not be read has no value, so that a routine that
reads one has no result, and neither has a loop without an end.
-/

namespace RtThread

/-- A byte at each address that may be read. -/
abbrev ReadableMemory := BitVec 32 → Option (BitVec 8)

namespace ReadableMemory

/-- The loop of `rt_strlen`, which leaves `sc` at the terminator. -/
def findNul (memory : ReadableMemory) (sc : BitVec 32) : Option (BitVec 32) := do
  if (← memory sc) ≠ 0 then memory |>.findNul (sc + 1) else some sc
partial_fixpoint

def rtStrlen (memory : ReadableMemory) (s : BitVec 32) : Option (BitVec 32) := do
  let sc ← memory.findNul s
  some (sc - s)

def rtMemcmp (memory : ReadableMemory) (su1 su2 count : BitVec 32) : Option Int :=
  if 0 < count then do
    let res : Int := (← memory su1).toNat - (← memory su2).toNat
    if res ≠ 0 then some res else rtMemcmp memory (su1 + 1) (su2 + 1) (count - 1)
  else some 0
termination_by count.toNat
decreasing_by bv_omega

/-- The loop of `rt_strstr`. The lengths are `int`s; the result is `RT_NULL` behind the last place
where `s2` has room. -/
def findString (memory : ReadableMemory) (s1 s2 l1 l2 : BitVec 32) : Option (BitVec 32) :=
  if l2.sle l1 then do
    let l1 := l1 - 1
    if (← memory.rtMemcmp s1 s2 l2) = 0 then some s1
    else memory |>.findString (s1 + 1) s2 l1 l2
  else some 0
partial_fixpoint

def rtStrstr (memory : ReadableMemory) (s1 s2 : BitVec 32) : Option (BitVec 32) := do
  let l2 ← memory.rtStrlen s2
  if l2 = 0 then some s1
  else
    let l1 ← memory.rtStrlen s1
    memory.findString s1 s2 l1 l2

/-! ## Strings -/

/-- The bytes of a string, and its terminator. -/
def Holds (memory : ReadableMemory) : BitVec 32 → List (BitVec 8) → Prop
  | s, [] => memory s = some 0
  | s, byte :: text => memory s = some byte ∧ byte ≠ 0 ∧ memory.Holds (s + 1) text

/-- The address is that of a byte of the string, or of its terminator. -/
def InString (s : BitVec 32) (text : List (BitVec 8)) (address : BitVec 32) : Prop :=
  address - s ≤ BitVec.ofNat 32 text.length

instance (s : BitVec 32) (text : List (BitVec 8)) (address : BitVec 32) :
    Decidable (InString s text address) :=
  inferInstanceAs (Decidable (_ ≤ _))

/-- Only the two strings may be read. -/
def only (memory : ReadableMemory) (s1 s2 : BitVec 32) (text pattern : List (BitVec 8)) :
    ReadableMemory := fun address =>
  if InString s1 text address ∨ InString s2 pattern address then memory address else none

variable {memory memory' : ReadableMemory} {s s1 s2 : BitVec 32} {text pattern : List (BitVec 8)}

/-- What the memory says elsewhere does not matter. -/
theorem Holds.agree (holds : memory.Holds s text) (short : text.length < 2 ^ 31)
    (same : ∀ address, InString s text address → memory' address = memory address) :
    memory'.Holds s text := by
  induction text generalizing s with
  | nil =>
      refine (same s ?_).trans holds
      simp [InString]
  | cons byte text ih =>
      obtain ⟨first, some_, rest⟩ := holds
      rw [List.length_cons] at short
      refine ⟨(same s ?_).trans first, some_, ih rest (by omega) fun address inside => same _ ?_⟩
      · simp [InString]
      · simp only [InString, List.length_cons] at inside ⊢
        have back : address - s = address - (s + 1) + 1 := by abel
        rw [back]
        bv_omega

theorem findNul_holds (holds : memory.Holds s text) :
    memory.findNul s = some (s + BitVec.ofNat 32 text.length) := by
  induction text generalizing s with
  | nil =>
      rw [findNul, holds]
      simp
  | cons byte text ih =>
      obtain ⟨first, some_, rest⟩ := holds
      have onward := ih rest
      rw [findNul, first]
      simp only [Option.bind_eq_bind, Option.bind_some, if_pos some_, onward, List.length_cons]
      rw [add_assoc, add_comm 1, BitVec.ofNat_add]
      rfl

theorem rtStrlen_holds (holds : memory.Holds s text) :
    memory.rtStrlen s = some (BitVec.ofNat 32 text.length) := by
  rw [rtStrlen, findNul_holds holds]
  simp

/-- The comparison ends inside both strings, and says whether one begins with the other. -/
theorem rtMemcmp_holds (holds : memory.Holds s1 text) (holds' : memory.Holds s2 pattern)
    (fits : pattern.length ≤ text.length) (short : pattern.length < 2 ^ 31) :
    ∃ res, memory.rtMemcmp s1 s2 (BitVec.ofNat 32 pattern.length) = some res ∧
      (res = 0 ↔ pattern <+: text) := by
  induction pattern generalizing s1 s2 text with
  | nil => exact ⟨0, by simp [rtMemcmp], by simp⟩
  | cons byte pattern ih =>
      cases text with
      | nil => simp at fits
      | cons head text =>
          obtain ⟨first, -, rest⟩ := holds
          obtain ⟨first', -, rest'⟩ := holds'
          rw [List.length_cons] at short
          have more : 0 < BitVec.ofNat 32 (byte :: pattern).length := by
            rw [List.length_cons]
            bv_omega
          have fewer : BitVec.ofNat 32 (byte :: pattern).length - 1 =
              BitVec.ofNat 32 pattern.length := by
            rw [List.length_cons, BitVec.ofNat_add]
            exact add_sub_cancel_right ..
          rw [rtMemcmp, if_pos more, first, first', fewer]
          simp only [Option.bind_eq_bind, Option.bind_some]
          by_cases same : head = byte
          · subst same
            obtain ⟨res, result, decides⟩ := ih rest rest' (Nat.le_of_succ_le_succ fits) (by omega)
            refine ⟨res, by simpa using result, decides.trans ?_⟩
            simp
          · have differ : (head.toNat : Int) - byte.toNat ≠ 0 := fun zero =>
              same (BitVec.eq_of_toNat_eq (by omega))
            refine ⟨_, if_pos differ, iff_of_false differ fun starts => same ?_⟩
            exact (List.cons_prefix_cons.mp starts).1.symm

/-- The string occurs at a place, and at none before. -/
def First (text pattern : List (BitVec 8)) (place : Nat) : Prop :=
  pattern <+: text.drop place ∧ ∀ before < place, ¬ pattern <+: text.drop before

theorem First.unique {place place' : Nat} (first : First text pattern place)
    (first' : First text pattern place') : place = place' := by
  refine Nat.le_antisymm (Nat.le_of_not_lt fun less => ?_) (Nat.le_of_not_lt fun less => ?_)
  · exact first.2 _ less first'.1
  · exact first'.2 _ less first.1

theorem First.cons {place : Nat} {byte : BitVec 8} (first : First text pattern place)
    (differs : ¬ pattern <+: byte :: text) : First (byte :: text) pattern (place + 1) := by
  refine ⟨by simpa using first.1, fun before less => ?_⟩
  cases before with
  | zero => exact differs
  | succ before => simpa using first.2 before (Nat.lt_of_succ_lt_succ less)

theorem First.le {place : Nat} (first : First text pattern place) : place ≤ text.length := by
  refine Nat.le_of_not_lt fun beyond => first.2 _ beyond ?_
  have nothing := first.1
  rwa [List.drop_eq_nil_of_le beyond.le, ← List.drop_length] at nothing

theorem First.occurs {place : Nat} (first : First text pattern place) : pattern <:+: text :=
  first.1.isInfix.trans (List.drop_suffix place text).isInfix

/-- What `rt_strstr` is to return. -/
def Found (s1 : BitVec 32) (text pattern : List (BitVec 8)) (result : BitVec 32) : Prop :=
  (∃ place, First text pattern place ∧ result = s1 + BitVec.ofNat 32 place) ∨
    result = 0 ∧ ¬ pattern <:+: text

theorem Found.unique {result result' : BitVec 32} (found : Found s1 text pattern result)
    (found' : Found s1 text pattern result') : result = result' := by
  rcases found with ⟨place, first, rfl⟩ | ⟨rfl, nowhere⟩
  · rcases found' with ⟨place', first', rfl⟩ | ⟨-, nowhere⟩
    · rw [first.unique first']
    · exact absurd first.occurs nowhere
  · rcases found' with ⟨place', first', -⟩ | ⟨rfl, -⟩
    · exact absurd first'.occurs nowhere
    · rfl

theorem sle_ofNat {first second : Nat} (short : first < 2 ^ 31) (short' : second < 2 ^ 31) :
    (BitVec.ofNat 32 first).sle (BitVec.ofNat 32 second) = true ↔ first ≤ second := by
  have small {n : Nat} (short : n < 2 ^ 31) : (BitVec.ofNat 32 n).toInt = n := by
    rw [BitVec.toInt_eq_toNat_of_lt]
    · rw [BitVec.toNat_ofNat, Nat.mod_eq_of_lt (by omega)]
    · rw [BitVec.toNat_ofNat, Nat.mod_eq_of_lt (by omega)]
      omega
  rw [BitVec.sle_iff_toInt_le, small short, small short', Int.ofNat_le]

/-- Without room for the pattern it occurs nowhere. -/
theorem not_infix (less : text.length < pattern.length) : ¬ pattern <:+: text := fun occurs =>
  Nat.not_le_of_lt less occurs.length_le

/-- The search comes to the first place, or to `RT_NULL` behind all places. -/
theorem findString_holds (holds : memory.Holds s1 text) (holds' : memory.Holds s2 pattern)
    (short : text.length < 2 ^ 31) (short' : pattern.length < 2 ^ 31) (some_ : pattern ≠ []) :
    ∃ result, memory.findString s1 s2 (BitVec.ofNat 32 text.length)
        (BitVec.ofNat 32 pattern.length) = some result ∧ Found s1 text pattern result := by
  induction text generalizing s1 with
  | nil =>
      have less := List.length_pos_iff.mpr some_
      have ends := mt (sle_ofNat short' short).mp (Nat.not_le_of_lt less)
      rw [findString, if_neg ends]
      exact ⟨0, rfl, Or.inr ⟨rfl, not_infix less⟩⟩
  | cons byte text ih =>
      rw [findString]
      by_cases fits : pattern.length ≤ (byte :: text).length
      · obtain ⟨res, result, decides⟩ := rtMemcmp_holds holds holds' fits short'
        rw [if_pos ((sle_ofNat short' short).mpr fits), result]
        simp only [Option.bind_eq_bind, Option.bind_some]
        by_cases starts : res = 0
        · rw [if_pos starts]
          refine ⟨s1, rfl, Or.inl ⟨0, ⟨decides.mp starts, by simp⟩, ?_⟩⟩
          exact (add_zero s1).symm
        · have differs := mt decides.mpr starts
          have fewer : BitVec.ofNat 32 (byte :: text).length - 1 =
              BitVec.ofNat 32 text.length := by
            rw [List.length_cons, BitVec.ofNat_add]
            exact add_sub_cancel_right ..
          obtain ⟨result, found, where_⟩ := ih holds.2.2 (Nat.lt_of_succ_lt short)
          rw [if_neg starts, fewer]
          refine ⟨result, found, ?_⟩
          rcases where_ with ⟨place, first, rfl⟩ | ⟨rfl, nowhere⟩
          · refine Or.inl ⟨place + 1, first.cons differs, ?_⟩
            rw [add_assoc, add_comm 1, BitVec.ofNat_add]
            rfl
          · refine Or.inr ⟨rfl, fun occurs => ?_⟩
            exact (List.infix_cons_iff.mp occurs).elim differs nowhere
      · rw [if_neg (mt (sle_ofNat short' short).mp fits)]
        exact ⟨0, rfl, Or.inr ⟨rfl, not_infix (Nat.lt_of_not_le fits)⟩⟩

theorem rtStrstr_holds (holds : memory.Holds s1 text) (holds' : memory.Holds s2 pattern)
    (short : text.length < 2 ^ 31) (short' : pattern.length < 2 ^ 31) :
    ∃ result, memory.rtStrstr s1 s2 = some result ∧ Found s1 text pattern result := by
  rw [rtStrstr, rtStrlen_holds holds', rtStrlen_holds holds]
  simp only [Option.bind_eq_bind, Option.bind_some]
  by_cases empty : pattern = []
  · subst empty
    refine ⟨s1, if_pos rfl, Or.inl ⟨0, ⟨List.nil_prefix, by simp⟩, (add_zero s1).symm⟩⟩
  · have length := List.length_pos_iff.mpr empty
    have some_ : BitVec.ofNat 32 pattern.length ≠ 0 := by bv_omega
    rw [if_neg some_]
    exact findString_holds holds holds' short short' empty

end ReadableMemory

open ReadableMemory

/-- The result is the address of the first place where the pattern occurs, and `RT_NULL` without
one, also when nothing but the two strings may be read. Both have less than 2^31 bytes, and the
first one lies behind address 0 and does not wrap around. -/
theorem strstr_first {memory : ReadableMemory} {s1 s2 : BitVec 32}
    {text pattern : List (BitVec 8)} (holds : memory.Holds s1 text)
    (holds' : memory.Holds s2 pattern) (short : text.length < 2 ^ 31)
    (short' : pattern.length < 2 ^ 31) (nonnull : s1 ≠ 0)
    (fits : s1.toNat + text.length < 2 ^ 32) :
    ∃ result, memory.rtStrstr s1 s2 = some result ∧
      (memory.only s1 s2 text pattern).rtStrstr s1 s2 = some result ∧
      (∀ place, First text pattern place → result = s1 + BitVec.ofNat 32 place) ∧
      (pattern = [] → result = s1) ∧
      (result = 0 ↔ ¬ pattern <:+: text) := by
  obtain ⟨result, returned, found⟩ := rtStrstr_holds holds holds' short short'
  have confined : (memory.only s1 s2 text pattern).Holds s1 text :=
    holds.agree short fun _ inside => if_pos (Or.inl inside)
  have confined' : (memory.only s1 s2 text pattern).Holds s2 pattern :=
    holds'.agree short' fun _ inside => if_pos (Or.inr inside)
  obtain ⟨result', returned', found'⟩ := rtStrstr_holds confined confined' short short'
  obtain rfl := found.unique found'
  refine ⟨result, returned, returned', fun place first => ?_, fun empty => ?_, ?_⟩
  · exact found.unique (Or.inl ⟨place, first, rfl⟩)
  · subst empty
    refine found.unique (Or.inl ⟨0, ⟨List.nil_prefix, by simp⟩, (add_zero s1).symm⟩)
  · rcases found with ⟨place, first, rfl⟩ | ⟨rfl, nowhere⟩
    · refine iff_of_false (fun null => ?_) (not_not_intro first.occurs)
      have inside := first.le
      bv_omega
    · exact iff_of_true rfl nowhere

/-- "ab" in "aab". -/
def aab : ReadableMemory := fun address =>
  if address = 0x100 ∨ address = 0x101 ∨ address = 0x200 then some 97
  else if address = 0x102 ∨ address = 0x201 then some 98
  else if address = 0x103 ∨ address = 0x202 then some 0
  else none

theorem strstr_first_aab : aab.rtStrstr 0x100 0x200 = some 0x101 := by
  obtain ⟨result, returned, -, first, -⟩ := @strstr_first aab 0x100 0x200 [97, 97, 98] [97, 98]
    ⟨rfl, by decide, rfl, by decide, rfl, by decide, rfl⟩
    ⟨rfl, by decide, rfl, by decide, rfl⟩ (by decide) (by decide) (by decide) (by decide)
  rw [returned, first 1 ⟨by decide, by decide⟩]
  rfl

end RtThread
