import RtThread.Format.Number

/-!
# Renderings through a limit

What a format asks for is a list of pieces. A piece may depend on whether the character at one
place of it, the sign of a number, is stored, and it may only do so behind that place.
-/

namespace RtThread

open RtThread.Std

/-- A piece whose place `lead` may be noticed. If the piece `grows`, it becomes longer by one
character when that place is not stored. -/
structure Piece where
  lead : Nat
  grows : Bool
  text : Bool → List (BitVec 8)
  agree : (text true).take (lead + 1) = (text false).take (lead + 1)
  lead_le : ∀ stored, lead ≤ (text stored).length
  growth : (text true).length < 2 ^ 31 →
    (text false).length = (text true).length + grows.toNat
  lead_lt : grows = true → lead < (text true).length

namespace Piece

/-- A text that does not depend on what is stored. -/
def plain (text : List (BitVec 8)) : Piece where
  lead := 0
  grows := false
  text _ := text
  agree := rfl
  lead_le _ := Nat.zero_le _
  growth _ := rfl
  lead_lt grows := absurd grows (by decide)

def put (last : Nat) (str : CharSink) (piece : Piece) : CharSink :=
  str.puts last (piece.text (decide (str.cursor + piece.lead ≤ last)))

def putAll (last : Nat) (pieces : List Piece) (str : CharSink) : CharSink :=
  pieces.foldl (put last) str

/-- The complete rendering. -/
def complete (pieces : List Piece) : List (BitVec 8) := pieces.flatMap fun piece => piece.text true

/-- The places of all pieces that can grow are among the first `room` characters; `offset`
characters come before the pieces. -/
def SignsFit (room : Nat) : Nat → List Piece → Prop
  | _, [] => True
  | offset, piece :: pieces =>
      (piece.grows = true → offset + piece.lead < room) ∧
        SignsFit room (offset + (piece.text true).length) pieces

variable {last start room offset index : Nat} {piece : Piece} {pieces : List Piece}
  {str : CharSink}

@[simp] theorem complete_cons :
    complete (piece :: pieces) = piece.text true ++ complete pieces := rfl

@[simp] theorem putAll_cons :
    putAll last (piece :: pieces) str = putAll last pieces (piece.put last str) := rfl

theorem cursor_le_putAll : str.cursor ≤ (putAll last pieces str).cursor := by
  induction pieces generalizing str with
  | nil => exact Nat.le_refl _
  | cons piece pieces ih =>
      calc str.cursor ≤ (piece.put last str).cursor := by
            rw [put, Sink.puts_cursor]
            exact Nat.le_add_right _ _
        _ ≤ (putAll last (piece :: pieces) str).cursor := ih

/-- What is stored lies between the cursor and the end of the buffer. -/
theorem mem_putAll {store : Nat × BitVec 8} (member : store ∈ (putAll last pieces str).stores) :
    store ∈ str.stores ∨ str.cursor ≤ store.1 ∧ store.1 ≤ last := by
  induction pieces generalizing str with
  | nil => exact Or.inl member
  | cons piece pieces ih =>
      rcases ih member with old | ⟨above, below⟩
      · exact Sink.mem_puts old
      · rw [put, Sink.puts_cursor] at above
        exact Or.inr ⟨by omega, below⟩

theorem putAll_read_of_lt (below : index < str.cursor) :
    (putAll last pieces str).read index = str.read index := by
  induction pieces generalizing str with
  | nil => rfl
  | cons piece pieces ih =>
      rw [putAll_cons, ih, put, Sink.puts_read_of_lt below]
      rw [put, Sink.puts_cursor]
      omega

theorem agree_getElem (inside : index ≤ piece.lead) (stored : Bool) :
    (piece.text stored)[index]? = (piece.text true)[index]? := by
  cases stored with
  | true => rfl
  | false =>
      have same := congrArg (fun text => text[index]?) piece.agree
      simp only [List.getElem?_take] at same
      rw [if_pos (by omega), if_pos (by omega)] at same
      exact same.symm

/-- The buffer holds the complete rendering, as far as it goes. -/
theorem putAll_read (inside : index < (complete pieces).length) (fits : str.cursor + index ≤ last) :
    (putAll last pieces str).read (str.cursor + index) = (complete pieces)[index]? := by
  induction pieces generalizing str index with
  | nil => cases inside
  | cons piece pieces ih =>
      rw [complete_cons, List.length_append] at inside
      rw [putAll_cons, complete_cons]
      by_cases stored : str.cursor + piece.lead ≤ last
      · have moved : piece.put last str = str.puts last (piece.text true) := by
          rw [put, decide_eq_true stored]
        by_cases first : index < (piece.text true).length
        · rw [putAll_read_of_lt, moved, Sink.puts_read first fits,
            List.getElem?_append_left first]
          rw [moved, Sink.puts_cursor]
          omega
        · have later := @ih (index - (piece.text true).length) (piece.put last str) (by omega)
          rw [moved, Sink.puts_cursor] at later
          rw [List.getElem?_append_right (by omega), ← later (by omega), moved]
          congr 1
          omega
      · have moved : piece.put last str = str.puts last (piece.text false) := by
          rw [put, decide_eq_false stored]
        have first : index < (piece.text false).length := by
          have far := piece.lead_le false
          omega
        have first' : index < (piece.text true).length := by
          have far := piece.lead_le true
          omega
        rw [putAll_read_of_lt, moved, Sink.puts_read first fits,
          List.getElem?_append_left first', agree_getElem (by omega)]
        rw [moved, Sink.puts_cursor]
        omega

/-- The cursor is behind the complete rendering, or behind the end of the buffer. -/
theorem putAll_cursor_cases :
    (putAll last pieces str).cursor = str.cursor + (complete pieces).length ∨
      last < (putAll last pieces str).cursor := by
  induction pieces generalizing str with
  | nil => exact Or.inl rfl
  | cons piece pieces ih =>
      rw [putAll_cons, complete_cons, List.length_append]
      by_cases stored : str.cursor + piece.lead ≤ last
      · have moved : (piece.put last str).cursor = str.cursor + (piece.text true).length := by
          rw [put, decide_eq_true stored, Sink.puts_cursor]
        rcases @ih (piece.put last str) with ends | far
        · exact Or.inl (by omega)
        · exact Or.inr far
      · have moved : (piece.put last str).cursor = str.cursor + (piece.text false).length := by
          rw [put, decide_eq_false stored, Sink.puts_cursor]
        have far := piece.lead_le false
        have onward := @cursor_le_putAll last pieces (piece.put last str)
        exact Or.inr (by omega)

theorem put_length (short : (piece.text true).length < 2 ^ 31) :
    str.cursor + (piece.text true).length ≤ (piece.put last str).cursor ∧
      (piece.put last str).cursor ≤ str.cursor + 2 * (piece.text true).length := by
  rw [put, Sink.puts_cursor]
  cases decide (str.cursor + piece.lead ≤ last) with
  | true => omega
  | false =>
      rw [piece.growth short]
      cases grows : piece.grows with
      | true =>
          have some_ := piece.lead_lt grows
          rw [Bool.toNat_true]
          omega
      | false =>
          rw [Bool.toNat_false]
          omega

/-- What is rendered is as long as the complete rendering, or longer. -/
theorem putAll_length (short : (complete pieces).length < 2 ^ 31) :
    str.cursor + (complete pieces).length ≤ (putAll last pieces str).cursor ∧
      (putAll last pieces str).cursor ≤ str.cursor + 2 * (complete pieces).length := by
  induction pieces generalizing str with
  | nil => exact ⟨Nat.le_refl _, Nat.le_refl _⟩
  | cons piece pieces ih =>
      rw [complete_cons, List.length_append] at short
      obtain ⟨atLeast, atMost⟩ := @put_length last piece str (by omega)
      obtain ⟨rest, rest'⟩ := @ih (piece.put last str) (by omega)
      rw [putAll_cons, complete_cons, List.length_append]
      omega

/-- It is as long if and only if no sign that counts is behind the end of the buffer. -/
theorem putAll_cursor_iff (short : (complete pieces).length < 2 ^ 31)
    (here : str.cursor = start + offset) (end_ : last + 1 = start + room) :
    (putAll last pieces str).cursor = str.cursor + (complete pieces).length ↔
      SignsFit room offset pieces := by
  induction pieces generalizing str offset with
  | nil => exact iff_of_true rfl trivial
  | cons piece pieces ih =>
      rw [complete_cons, List.length_append] at short
      have rest := @putAll_length last pieces (piece.put last str) (by omega)
      have moved : (piece.put last str).cursor = str.cursor +
          (piece.text (decide (str.cursor + piece.lead ≤ last))).length := by
        rw [put, Sink.puts_cursor]
      have onward (same : (piece.text (decide (str.cursor + piece.lead ≤ last))).length =
          (piece.text true).length) := @ih (offset + (piece.text true).length)
        (piece.put last str) (by omega) (by omega)
      rw [putAll_cons, complete_cons, List.length_append, SignsFit]
      cases stored : decide (str.cursor + piece.lead ≤ last) with
      | true =>
          rw [stored] at moved onward
          have fits : offset + piece.lead < room := by
            have inside := of_decide_eq_true stored
            omega
          rw [← onward rfl, moved]
          constructor
          · intro ends
            exact ⟨fun _ => fits, by omega⟩
          · rintro ⟨-, ends⟩
            omega
      | false =>
          have behind : ¬ offset + piece.lead < room := by
            have outside := of_decide_eq_false stored
            omega
          rw [stored, piece.growth (by omega)] at moved
          cases grows : piece.grows with
          | true =>
              rw [grows, Bool.toNat_true] at moved
              constructor
              · intro ends
                omega
              · rintro ⟨fits, -⟩
                exact absurd (fits rfl) behind
          | false =>
              rw [grows, Bool.toNat_false] at moved
              rw [stored, piece.growth (by omega), grows] at onward
              rw [← onward rfl, moved]
              constructor
              · intro ends
                exact ⟨fun never => absurd never (by decide), by omega⟩
              · rintro ⟨-, ends⟩
                omega

/-- A place is always inside the complete rendering, so that more room than that is no help. -/
theorem signsFit_of_complete (all : offset + (complete pieces).length ≤ room) :
    SignsFit room offset pieces := by
  induction pieces generalizing offset with
  | nil => trivial
  | cons piece pieces ih =>
      rw [complete_cons, List.length_append] at all
      refine ⟨fun grows => ?_, ih (by omega)⟩
      have inside := piece.lead_lt grows
      omega

end Piece

/-! ## Numbers -/

/-- A sign that is not stored leaves one character more to pad with, if there is padding behind
it. -/
def padGrows (type : Flags) (signed : Bool) (size : Int) : Bool :=
  signed && (type.zeropad || type.left) && decide (0 < size)

theorem pred32_cases (size : Int) :
    size = -2 ^ 31 ∧ pred32 size = 2 ^ 31 - 1 ∨ size ≠ -2 ^ 31 ∧ pred32 size = size - 1 := by
  unfold pred32
  split
  · exact Or.inl ⟨‹_›, rfl⟩
  · exact Or.inr ⟨‹_›, rfl⟩

@[simp] theorem padding_lead (type : Flags) (signed stored : Bool) (size : Int) :
    (padding type signed stored size).lead = padLead type signed size := rfl

theorem padding_growth {type : Flags} {signed : Bool} {size : Int} (least : -2 ^ 31 ≤ size)
    (short : (padding type signed true size).lead + signed.toNat +
      (padding type signed true size).mid + (padding type signed true size).tail < 2 ^ 31 - 1) :
    (padding type signed false size).mid + (padding type signed false size).tail =
      (padding type signed true size).mid + (padding type signed true size).tail +
        (padGrows type signed size).toNat := by
  cases signed with
  | false => rfl
  | true =>
      cases zeropad : type.zeropad <;> cases left : type.left <;>
        simp [padding, padLead, padMid, restLead, restSign, restMid, padGrows, zeropad, left]
          at short ⊢
      case false.false =>
        have first := pred32_cases size
        have start : sizeLead true size = if 0 < size then pred32 size else size := by
          simp [sizeLead]
        have second := pred32_cases (min (sizeLead true size) 0)
        have third := pred32_cases (pred32 (min (sizeLead true size) 0))
        have fourth := pred32_cases (min (pred32 (pred32 (min (sizeLead true size) 0))) 0)
        have fourth' := pred32_cases (min (pred32 (min (sizeLead true size) 0)) 0)
        omega
      case true.false =>
        have first := pred32_cases size
        have second := pred32_cases (min (pred32 size) 0)
        have second' := pred32_cases (min size 0)
        by_cases more : 0 < size
        · simp [more]
          omega
        · simp [more]
          omega
      all_goals
        have first := pred32_cases size
        by_cases more : 0 < size
        · simp [more]
          omega
        · simp [more]
          omega

variable {type : Flags} {sign : Option (BitVec 8)} {tmp : List (BitVec 8)} {s precision : BitVec 32}

theorem paddedText_length (stored : Bool) :
    (paddedText type sign tmp s precision stored).length =
      (padding type sign.isSome stored (sizeLeft tmp s precision).toInt).lead +
      sign.isSome.toNat +
      (padding type sign.isSome stored (sizeLeft tmp s precision).toInt).mid +
      (precision.toInt - tmp.length).toNat + tmp.length +
      (padding type sign.isSome stored (sizeLeft tmp s precision).toInt).tail := by
  cases sign <;> simp [paddedText] <;> omega

/-- There are digits behind the sign. -/
theorem padLead_lt (some_ : 0 < tmp.length) (stored : Bool) :
    padLead type sign.isSome (sizeLeft tmp s precision).toInt <
      (paddedText type sign tmp s precision stored).length := by
  rw [paddedText_length, padding_lead]
  omega

/-- Up to the sign, it does not matter whether the sign is stored. -/
theorem paddedText_agree :
    (paddedText type sign tmp s precision true).take
        (padLead type sign.isSome (sizeLeft tmp s precision).toInt + 1) =
      (paddedText type sign tmp s precision false).take
        (padLead type sign.isSome (sizeLeft tmp s precision).toInt + 1) := by
  cases sign with
  | none => rfl
  | some sign =>
      have front (stored : Bool) :
          (paddedText type (some sign) tmp s precision stored).take
            (padLead type true (sizeLeft tmp s precision).toInt + 1) =
          List.replicate (padLead type true (sizeLeft tmp s precision).toInt) (char ' ') ++
            [sign] := by
        unfold paddedText
        simp only [List.append_assoc]
        rw [← List.append_assoc]
        exact List.take_left' (by simp [padding])
      exact (front true).trans (front false).symm

theorem paddedText_growth (some_ : 0 < tmp.length)
    (short : (paddedText type sign tmp s precision true).length < 2 ^ 31) :
    (paddedText type sign tmp s precision false).length =
      (paddedText type sign tmp s precision true).length +
        (padGrows type sign.isSome (sizeLeft tmp s precision).toInt).toNat := by
  have least := BitVec.le_toInt (sizeLeft tmp s precision)
  rw [paddedText_length] at short ⊢
  rw [paddedText_length]
  have grown := @padding_growth type sign.isSome _ least (by omega)
  rw [padding_lead] at short ⊢
  rw [padding_lead]
  omega

/-- A number with its padding. -/
def paddedPiece (type : Flags) (sign : Option (BitVec 8)) (tmp : List (BitVec 8))
    (s precision : BitVec 32) (some_ : 0 < tmp.length) : Piece where
  lead := padLead type sign.isSome (sizeLeft tmp s precision).toInt
  grows := padGrows type sign.isSome (sizeLeft tmp s precision).toInt
  text := paddedText type sign tmp s precision
  agree := paddedText_agree
  lead_le stored := Nat.le_of_lt (padLead_lt some_ stored)
  growth := paddedText_growth some_
  lead_lt _ := padLead_lt some_ true

/-- What `printNumber` puts. -/
def numberPiece (num : BitVec 32) (base : Nat) (s precision : BitVec 32) (flags : Flags) : Piece :=
  let type := flags.justified
  paddedPiece type (getSign type num).1 (getTmp type.large base (getSign type num).2) s precision
    (getTmp_length type.large base (getSign type num).2).1

theorem printNumber_eq (str : CharSink) (last : Nat) (num : BitVec 32) (base : Nat)
    (s precision : BitVec 32) (flags : Flags) :
    printNumber str last num base s precision flags =
      (numberPiece num base s precision flags).put last str :=
  putTmp_eq last flags.justified _ _ s precision str
    (getTmp_length flags.justified.large base (getSign flags.justified num).2).2

end RtThread
