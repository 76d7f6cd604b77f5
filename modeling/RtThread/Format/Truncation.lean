import RtThread.Format.Print

/-!
# What is stored and what is returned

`rt_snprintf` for any size of the buffer, and `rt_kprintf` with its buffer of 128 bytes. The
complete rendering of a format is what is put when no end of the buffer is in the way.
-/

namespace RtThread

open RtThread.Std

/-- The pieces that a format asks for. -/
def askedPieces (text : NulString) (args : VaList) : List Piece :=
  (text.formatPieces args 0 0).getD []

def completeRendering (text : NulString) (args : VaList) : List (BitVec 8) :=
  Piece.complete (askedPieces text args)

/-- `str` behind the loop, for a buffer of `size` bytes at `buf`. -/
def rendered (buf size : BitVec 32) (text : NulString) (args : VaList) : CharSink :=
  Piece.putAll (bufferEnd buf size).toNat (askedPieces text args) ⟨buf.toNat, []⟩

variable {text : NulString} {args : VaList} {buf size : BitVec 32}

theorem vsnprintfLoop_rendered :
    text.vsnprintfLoop args (bufferEnd buf size).toNat 0 0 ⟨buf.toNat, []⟩ =
      some (rendered buf size text args) := by
  obtain ⟨pieces, asked, puts⟩ := @vsnprintfLoop_eq text args 0 (Nat.zero_le _) 0
  rw [puts, rendered, askedPieces, asked]
  rfl

/-- The address of the `'\0'` that is put last. -/
def nulAddress (buf size : BitVec 32) (text : NulString) (args : VaList) : Nat :=
  min (rendered buf size text args).cursor (bufferEnd buf size).toNat

theorem rtSnprintf_eq (inside : (rendered buf size text args).cursor < 2 ^ 32) :
    rtSnprintf buf size text args = some
      ⟨⟨(rendered buf size text args).cursor,
        (nulAddress buf size text args, 0) :: (rendered buf size text args).stores⟩,
        BitVec.ofNat 32 ((rendered buf size text args).cursor - buf.toNat)⟩ := by
  simp only [rtSnprintf, vsnprintf, vsnprintfLoop_rendered, Option.bind_eq_bind, Option.bind_some,
    if_pos inside, nulAddress, min_def]

theorem rtSnprintf_outside (outside : ¬ (rendered buf size text args).cursor < 2 ^ 32) :
    rtSnprintf buf size text args = none := by
  simp only [rtSnprintf, vsnprintf, vsnprintfLoop_rendered, Option.bind_eq_bind, Option.bind_some,
    if_neg outside]

theorem bufferEnd_toNat (some_ : size ≠ 0) :
    (bufferEnd buf size).toNat = min (buf.toNat + (size.toNat - 1)) (2 ^ 32 - 1) := by
  have positive : size.toNat ≠ 0 := fun zero => some_ (BitVec.eq_of_toNat_eq zero)
  have range := buf.isLt
  have range' := size.isLt
  have sum : (buf + size - 1).toNat = (buf.toNat + (size.toNat - 1)) % 2 ^ 32 := by
    rw [BitVec.toNat_sub, BitVec.toNat_add, show (1 : BitVec 32).toNat = 1 from rfl]
    omega
  unfold bufferEnd
  dsimp only
  split
  · rename_i wraps
    rw [BitVec.ult_iff_lt, BitVec.lt_def, sum] at wraps
    rw [show (-1 : BitVec 32).toNat = 2 ^ 32 - 1 from rfl]
    omega
  · rename_i stays
    rw [BitVec.ult_iff_lt, BitVec.lt_def, sum] at stays
    rw [sum]
    omega

theorem le_rendered : buf.toNat ≤ (rendered buf size text args).cursor :=
  @Piece.cursor_le_putAll (bufferEnd buf size).toNat (askedPieces text args) ⟨buf.toNat, []⟩

/-- `n`, as the number of characters that are rendered. -/
theorem rendered_length (inside : (rendered buf size text args).cursor < 2 ^ 32) :
    (BitVec.ofNat 32 ((rendered buf size text args).cursor - buf.toNat)).toNat =
      (rendered buf size text args).cursor - buf.toNat := by
  rw [BitVec.toNat_ofNat]
  omega

/-- `buf[min(n, size - 1)]` is a `'\0'`, where `n` is the `rt_int32_t` that is returned. -/
def EndsAtValue (buf size : BitVec 32) (result : Formatted) : Prop :=
  ∃ address : Nat, (address : Int) = buf.toNat + min result.n.toInt (size.toNat - 1) ∧
    result.buffer.read address = some 0

/-- A rendering of 2^31 characters or more is returned as a negative value. -/
theorem n_toInt (inside : (rendered buf size text args).cursor < 2 ^ 32) :
    (BitVec.ofNat 32 ((rendered buf size text args).cursor - buf.toNat)).toInt =
      if (rendered buf size text args).cursor - buf.toNat < 2 ^ 31 then
        (((rendered buf size text args).cursor - buf.toNat : Nat) : Int)
      else (((rendered buf size text args).cursor - buf.toNat : Nat) : Int) - 2 ^ 32 := by
  rw [BitVec.toInt_eq_toNat_cond, rendered_length inside]
  by_cases short : (rendered buf size text args).cursor - buf.toNat < 2 ^ 31
  · rw [if_pos short, if_pos (by omega)]
  · rw [if_neg short, if_neg (by omega)]
    rfl

/-- `rt_snprintf` reads the format up to its `'\0'`. Unless the rendering runs past the end of the
address space, it stores nothing outside the buffer, and, if the value can be the length of the
rendering, a `'\0'` behind what fits of it. -/
theorem snprintf_in_bounds (text : NulString) (args : VaList) (buf size : BitVec 32)
    (some_ : size ≠ 0) :
    ∃ str, text.vsnprintfLoop args (bufferEnd buf size).toNat 0 0 ⟨buf.toNat, []⟩ = some str ∧
      (str.cursor < 2 ^ 32 → ∃ result, rtSnprintf buf size text args = some result ∧
        (∀ store ∈ result.buffer.stores,
          buf.toNat ≤ store.1 ∧ store.1 ≤ buf.toNat + (size.toNat - 1)) ∧
        (EndsAtValue buf size result ↔ str.cursor - buf.toNat < 2 ^ 31)) := by
  refine ⟨_, vsnprintfLoop_rendered, fun inside => ⟨_, rtSnprintf_eq inside, ?_, ?_⟩⟩
  · have last := @bufferEnd_toNat buf size some_
    have start := @le_rendered text args buf size
    have range := buf.isLt
    intro store member
    rcases List.mem_cons.mp member with rfl | member
    · dsimp only [nulAddress]
      omega
    · rcases Piece.mem_putAll member with never | ⟨above, below⟩
      · cases never
      · have above : buf.toNat ≤ store.1 := above
        omega
  · have last := @bufferEnd_toNat buf size some_
    have start := @le_rendered text args buf size
    have positive : size.toNat ≠ 0 := fun zero => some_ (BitVec.eq_of_toNat_eq zero)
    have value := n_toInt inside
    constructor
    · rintro ⟨address, place, -⟩
      by_contra long
      -- the value lies so far below zero that `buf` does not make up for it
      rw [if_neg long] at value
      dsimp only at place
      omega
    · intro short
      rw [if_pos short] at value
      refine ⟨nulAddress buf size text args, ?_, ?_⟩
      · dsimp only
        rw [value, nulAddress]
        omega
      · dsimp only
        rw [Sink.read, List.find?_cons_of_pos (by simp)]
        rfl

/-- A format that ends inside a conversion. -/
def openFormat : NulString where
  chars := ['a', '%'].map char
  nonzero := by decide
  fits := by decide

def noArgs : VaList := ⟨fun _ => 0, fun _ => nullString⟩

theorem openFormat_asked :
    askedPieces openFormat noArgs = [Piece.plain [char 'a'], Piece.plain [char '%']] := by
  have read₂ : openFormat.read 2 = some 0 := rfl
  have flags : openFormat.scanFlags 1 Flags.none = some (2, Flags.none) := by
    rw [NulString.scanFlags, read₂, Option.bind_eq_bind, Option.bind_some, if_neg (by decide),
      if_neg (by decide), if_neg (by decide), if_neg (by decide), if_neg (by decide)]
  have scanned : openFormat.scanSpec noArgs 1 0 = some ⟨2, 0, Flags.none, -1, -1, 0⟩ := by
    simp only [NulString.scanSpec, flags, Option.bind_eq_bind, Option.bind_some]
    rfl
  have asked : openFormat.formatPieces noArgs 0 0 =
      some [Piece.plain [char 'a'], Piece.plain [char '%']] :=
    formatPieces_literal (by rfl) (by decide) (by decide)
      (@formatPieces_conversion _ _ 1 0 _ _ _ rfl scanned read₂ (formatPieces_end rfl))
  rw [askedPieces, asked]
  rfl

theorem snprintf_in_bounds_open :
    ∃ result, rtSnprintf 0x20000000 2 openFormat noArgs = some result ∧
      (∀ store ∈ result.buffer.stores, 0x20000000 ≤ store.1 ∧ store.1 ≤ 0x20000001) ∧
      EndsAtValue 0x20000000 2 result := by
  obtain ⟨str, runs, holds⟩ := snprintf_in_bounds openFormat noArgs 0x20000000 2 (by decide)
  obtain rfl := Option.some.inj (vsnprintfLoop_rendered.symm.trans runs)
  have ends : (rendered 0x20000000 2 openFormat noArgs).cursor = 0x20000002 := by
    rw [rendered, openFormat_asked]
    decide
  obtain ⟨result, returns, stores, value⟩ := holds (by rw [ends]; decide)
  exact ⟨result, returns, stores, value.mpr (by rw [ends]; decide)⟩

/-- `%*cx` -/
def wideFormat : NulString where
  chars := ['%', '*', 'c', 'x'].map char
  nonzero := by decide
  fits := by decide

/-- The greatest width, and a character. -/
def widestField : VaList :=
  ⟨fun arg => if arg = 0 then 0x7fffffff else (char 'c').setWidth 32, fun _ => nullString⟩

def widestSpec : Spec := ⟨2, 1, Flags.none, 0x7fffffff, -1, 0⟩

theorem wideFormat_asked : askedPieces wideFormat widestField =
    [Piece.plain (charText widestSpec (char 'c')), Piece.plain [char 'x']] := by
  have read₁ : wideFormat.read 1 = some (char '*') := rfl
  have read₂ : wideFormat.read 2 = some (char 'c') := rfl
  have flags : wideFormat.scanFlags 0 Flags.none = some (1, Flags.none) := by
    rw [NulString.scanFlags, read₁, Option.bind_eq_bind, Option.bind_some, if_neg (by decide),
      if_neg (by decide), if_neg (by decide), if_neg (by decide), if_neg (by decide)]
  have scanned : wideFormat.scanSpec widestField 0 0 = some widestSpec := by
    simp only [NulString.scanSpec, flags, Option.bind_eq_bind, Option.bind_some]
    rfl
  have word : (widestField.word widestSpec.arg).setWidth 8 = char 'c' := by decide
  have piece : conversionPiece widestField widestSpec (char 'c') =
      Piece.plain (charText widestSpec (char 'c')) := by
    rw [conversionPiece, if_pos rfl, word]
  have onward : conversionEnd widestSpec (char 'c') = (2, 2) := by
    rw [conversionEnd, if_pos rfl]
    rfl
  have rest : wideFormat.formatPieces widestField 3 2 = some [Piece.plain [char 'x']] :=
    formatPieces_literal rfl (by decide) (by decide) (formatPieces_end rfl)
  have asked : wideFormat.formatPieces widestField 0 0 =
      some [Piece.plain (charText widestSpec (char 'c')), Piece.plain [char 'x']] := by
    rw [← piece]
    exact formatPieces_conversion rfl scanned read₂ (by rw [onward]; exact rest)
  rw [askedPieces, asked, Option.getD_some]

theorem widestSpec_length : (charText widestSpec (char 'c')).length = 0x7fffffff := by
  have left : (!widestSpec.flags.left) = true := by decide
  have before : (widestSpec.fieldWidth - 1).toInt.toNat = 0x7ffffffe := by decide +kernel
  have behind : (restWidth widestSpec.fieldWidth - 1).toInt.toNat = 0 := by decide +kernel
  unfold charText
  dsimp only
  rw [if_pos left, List.length_append, List.length_cons, List.length_replicate,
    List.length_replicate, before, behind]

theorem wideFormat_cursor (buf size : BitVec 32) :
    (rendered buf size wideFormat widestField).cursor = buf.toNat + 2 ^ 31 := by
  have length (stored : Bool) :
      ((Piece.plain (charText widestSpec (char 'c'))).text stored).length = 0x7fffffff :=
    widestSpec_length
  have one (stored : Bool) : ((Piece.plain [char 'x']).text stored).length = 1 := rfl
  rw [rendered, wideFormat_asked, Piece.putAll_cons, Piece.putAll_cons, Piece.put, Piece.putAll,
    List.foldl_nil, Sink.puts_cursor, Piece.put, Sink.puts_cursor, length, one]
  exact Nat.add_assoc ..

/-- A rendering of 2^31 characters: the value is -2^31, and `buf[-2^31]` is not in the buffer. -/
theorem snprintf_value_negative :
    ∃ result, rtSnprintf 0x20000000 16 wideFormat widestField = some result ∧
      result.n.toInt = -2 ^ 31 ∧ ¬ EndsAtValue 0x20000000 16 result := by
  have cursor := wideFormat_cursor 0x20000000 16
  have start : (0x20000000 : BitVec 32).toNat = 0x20000000 := rfl
  have inside : (rendered 0x20000000 16 wideFormat widestField).cursor < 2 ^ 32 := by
    omega
  have value := n_toInt inside
  rw [cursor, Nat.add_sub_cancel_left, if_neg (Nat.lt_irrefl _)] at value
  refine ⟨_, rtSnprintf_eq inside, ?_, ?_⟩
  · dsimp only
    rw [cursor, Nat.add_sub_cancel_left]
    exact value
  · rintro ⟨address, place, -⟩
    dsimp only at place
    rw [cursor, Nat.add_sub_cancel_left, value] at place
    rw [start, show (16 : BitVec 32).toNat = 16 from rfl] at place
    omega

/-- The characters in the buffer before the `'\0'`. -/
def bufferText (buf size : BitVec 32) (result : Formatted) : List (Option (BitVec 8)) :=
  (List.range (min result.n.toNat (size.toNat - 1))).map fun index =>
    result.buffer.read (buf.toNat + index)

theorem rendered_cursor_iff (some_ : size ≠ 0)
    (short : (completeRendering text args).length < 2 ^ 31)
    (inside : buf.toNat + (completeRendering text args).length < 2 ^ 32) :
    (rendered buf size text args).cursor = buf.toNat + (completeRendering text args).length ↔
      Piece.SignsFit size.toNat 0 (askedPieces text args) := by
  have last := @bufferEnd_toNat buf size some_
  have positive : size.toNat ≠ 0 := fun zero => some_ (BitVec.eq_of_toNat_eq zero)
  have exact_ := @Piece.putAll_cursor_iff (bufferEnd buf size).toNat buf.toNat
    ((bufferEnd buf size).toNat + 1 - buf.toNat) 0 (askedPieces text args) ⟨buf.toNat, []⟩ short rfl
    (by omega)
  refine Iff.trans exact_ ?_
  by_cases clamped : buf.toNat + (size.toNat - 1) < 2 ^ 32
  · rw [show (bufferEnd buf size).toNat + 1 - buf.toNat = size.toNat by omega]
  · have all : 0 + (Piece.complete (askedPieces text args)).length ≤
        (bufferEnd buf size).toNat + 1 - buf.toNat := by
      unfold completeRendering at inside
      omega
    exact iff_of_true (Piece.signsFit_of_complete all)
      (Piece.signsFit_of_complete (Nat.le_trans all (by omega)))

/-- The value that is returned is the length of the complete rendering if and only if that fits into
the value and into the address space, and no sign that leaves padding behind it is cut off. -/
theorem rtSnprintf_length_iff (some_ : size ≠ 0) :
    (∃ result, rtSnprintf buf size text args = some result ∧
      result.n.toInt = (completeRendering text args).length) ↔
    (completeRendering text args).length < 2 ^ 31 ∧
      buf.toNat + (completeRendering text args).length < 2 ^ 32 ∧
      Piece.SignsFit size.toNat 0 (askedPieces text args) := by
  constructor
  · rintro ⟨result, returns, length⟩
    by_cases inside : (rendered buf size text args).cursor < 2 ^ 32
    · obtain rfl := Option.some.inj ((rtSnprintf_eq inside).symm.trans returns)
      have counted := rendered_length inside
      have above := @le_rendered text args buf size
      dsimp only at length
      have bound := @BitVec.toInt_lt 32
        (BitVec.ofNat 32 ((rendered buf size text args).cursor - buf.toNat))
      rw [BitVec.toInt_eq_toNat_cond, counted] at length bound
      have ends : (rendered buf size text args).cursor =
          buf.toNat + (completeRendering text args).length := by
        split at length <;> omega
      have short : (completeRendering text args).length < 2 ^ 31 := by
        split at length <;> omega
      have inside' : buf.toNat + (completeRendering text args).length < 2 ^ 32 := by omega
      exact ⟨short, inside', (rendered_cursor_iff some_ short inside').mp ends⟩
    · rw [rtSnprintf_outside inside] at returns
      cases returns
  · rintro ⟨short, inside, fits⟩
    have ends := (rendered_cursor_iff some_ short inside).mpr fits
    have inside' : (rendered buf size text args).cursor < 2 ^ 32 := by omega
    refine ⟨_, rtSnprintf_eq inside', ?_⟩
    dsimp only
    rw [BitVec.toInt_eq_toNat_cond, rendered_length inside', ends, if_pos (by omega)]
    omega

/-- What is in the buffer at an index that is before the `'\0'` and before its end. -/
theorem buffer_read {index : Nat} (some_ : size ≠ 0)
    (inside : index < (completeRendering text args).length) (fits : index < size.toNat - 1)
    (before : buf.toNat + index < (rendered buf size text args).cursor)
    (space : (rendered buf size text args).cursor < 2 ^ 32) :
    Sink.read ⟨(rendered buf size text args).cursor,
      (nulAddress buf size text args, 0) :: (rendered buf size text args).stores⟩
        (buf.toNat + index) = (completeRendering text args)[index]? := by
  have last := @bufferEnd_toNat buf size some_
  have apart : nulAddress buf size text args ≠ buf.toNat + index := by
    rw [nulAddress]
    omega
  rw [Sink.read, List.find?_cons_of_neg (by simpa using apart)]
  exact @Piece.putAll_read _ index _ ⟨buf.toNat, []⟩ inside (by dsimp only; omega)

/-- A value that is the length of the complete rendering comes with as much of the rendering as
fits. -/
theorem bufferText_eq {result : Formatted} (some_ : size ≠ 0)
    (returns : rtSnprintf buf size text args = some result)
    (length : result.n.toInt = (completeRendering text args).length) :
    bufferText buf size result =
      ((completeRendering text args).take (size.toNat - 1)).map some := by
  obtain ⟨short, inside, fits⟩ := (rtSnprintf_length_iff some_).mp ⟨result, returns, length⟩
  have ends := (rendered_cursor_iff some_ short inside).mpr fits
  have inside' : (rendered buf size text args).cursor < 2 ^ 32 := by omega
  obtain rfl := Option.some.inj ((rtSnprintf_eq inside').symm.trans returns)
  rw [bufferText, rendered_length inside', ends, Nat.add_sub_cancel_left]
  apply List.ext_getElem
  · simp [Nat.min_comm]
  · intro index below below'
    have counted : index < min (completeRendering text args).length (size.toNat - 1) := by
      simpa using below
    have found := @buffer_read text args buf size index some_ (by omega) (by omega) (by omega)
      inside'
    rw [ends] at found
    simp only [List.getElem_map, List.getElem_range, List.getElem_take]
    rw [found]
    exact List.getElem?_eq_getElem (by omega)

/-- Two sizes of the buffer show the same value and as much of the same text as fits if and only if
the complete rendering fits into the value and behind both buffers, and no sign that leaves
padding behind it is cut off in either of them. -/
theorem snprintf_sizes_agree (text : NulString) (args : VaList) (buf₁ size₁ buf₂ size₂ : BitVec 32)
    (some₁ : size₁ ≠ 0) (some₂ : size₂ ≠ 0) :
    (∃ result₁ result₂, rtSnprintf buf₁ size₁ text args = some result₁ ∧
      rtSnprintf buf₂ size₂ text args = some result₂ ∧
      result₁.n = result₂.n ∧ result₁.n.toInt = (completeRendering text args).length ∧
      (size₁ ≤ size₂ → bufferText buf₁ size₁ result₁ <+: bufferText buf₂ size₂ result₂) ∧
      (size₂ ≤ size₁ → bufferText buf₂ size₂ result₂ <+: bufferText buf₁ size₁ result₁)) ↔
    (completeRendering text args).length < 2 ^ 31 ∧
      (buf₁.toNat + (completeRendering text args).length < 2 ^ 32 ∧
        Piece.SignsFit size₁.toNat 0 (askedPieces text args)) ∧
      (buf₂.toNat + (completeRendering text args).length < 2 ^ 32 ∧
        Piece.SignsFit size₂.toNat 0 (askedPieces text args)) := by
  constructor
  · rintro ⟨result₁, result₂, returns₁, returns₂, same, length, -⟩
    obtain ⟨short, first⟩ := (rtSnprintf_length_iff some₁).mp ⟨result₁, returns₁, length⟩
    obtain ⟨-, second⟩ := (rtSnprintf_length_iff some₂).mp ⟨result₂, returns₂, same ▸ length⟩
    exact ⟨short, first, second⟩
  · rintro ⟨short, first, second⟩
    obtain ⟨result₁, returns₁, length₁⟩ := (rtSnprintf_length_iff some₁).mpr ⟨short, first⟩
    obtain ⟨result₂, returns₂, length₂⟩ := (rtSnprintf_length_iff some₂).mpr ⟨short, second⟩
    have same : result₁.n = result₂.n := BitVec.eq_of_toInt_eq (length₁.trans length₂.symm)
    refine ⟨result₁, result₂, returns₁, returns₂, same, length₁, fun less => ?_, fun less => ?_⟩
    · rw [bufferText_eq some₁ returns₁ length₁, bufferText_eq some₂ returns₂ length₂]
      exact (List.take_prefix_take_left (by bv_omega)).map some
    · rw [bufferText_eq some₁ returns₁ length₁, bufferText_eq some₂ returns₂ length₂]
      exact (List.take_prefix_take_left (by bv_omega)).map some

/-- With -1, it is rendered as `a-0001`. -/
def signedFormat : NulString where
  chars := ['a', '%', '0', '5', 'd'].map char
  nonzero := by decide
  fits := by decide

def minusOne : VaList := ⟨fun _ => -1, fun _ => nullString⟩

theorem signedFormat_asked : askedPieces signedFormat minusOne =
    [Piece.plain [char 'a'],
      numberPiece (-1) 10 5 (-1) ⟨true, true, false, false, false, false, false⟩] := by
  have read₂ : signedFormat.read 2 = some (char '0') := rfl
  have read₃ : signedFormat.read 3 = some (char '5') := rfl
  have read₄ : signedFormat.read 4 = some (char 'd') := rfl
  have flags : signedFormat.scanFlags 1 Flags.none =
      some (3, ⟨true, false, false, false, false, false, false⟩) := by
    rw [NulString.scanFlags, read₂, Option.bind_eq_bind, Option.bind_some, if_neg (by decide),
      if_neg (by decide), if_neg (by decide), if_neg (by decide), if_pos rfl, NulString.scanFlags,
      read₃, Option.bind_eq_bind, Option.bind_some, if_neg (by decide), if_neg (by decide),
      if_neg (by decide), if_neg (by decide), if_neg (by decide)]
    rfl
  have digits : signedFormat.skipAtoi 3 0 = some (4, 5) := by
    rw [NulString.skipAtoi, read₃, Option.bind_eq_bind, Option.bind_some, if_pos (by decide),
      NulString.skipAtoi, read₄, Option.bind_eq_bind, Option.bind_some, if_neg (by decide)]
    rfl
  have width : signedFormat.scanWidth minusOne 3 0
      ⟨true, false, false, false, false, false, false⟩ =
      some ⟨4, 0, ⟨true, false, false, false, false, false, false⟩, 5, -1, 0⟩ := by
    rw [NulString.scanWidth, read₃, Option.bind_eq_bind, Option.bind_some, if_pos (by decide),
      digits]
    rfl
  have scanned : signedFormat.scanSpec minusOne 1 0 =
      some ⟨4, 0, ⟨true, false, false, false, false, false, false⟩, 5, -1, 0⟩ := by
    simp only [NulString.scanSpec, flags, width, Option.bind_eq_bind, Option.bind_some]
    rfl
  have asked : signedFormat.formatPieces minusOne 0 0 = some
      [Piece.plain [char 'a'],
        numberPiece (-1) 10 5 (-1) ⟨true, true, false, false, false, false, false⟩] :=
    formatPieces_literal (by rfl) (by decide) (by decide)
      (@formatPieces_conversion _ _ 1 0 _ _ _ rfl scanned read₄ (formatPieces_end rfl))
  rw [askedPieces, asked]
  rfl

theorem minusOne_text (stored : Bool) :
    (numberPiece (-1) 10 5 (-1) ⟨true, true, false, false, false, false, false⟩).text stored =
      paddedText ⟨true, true, false, false, false, false, false⟩ (some (char '-')) [char '1'] 5 (-1)
        stored := by
  have digits : getTmp false 10 1 = [char '1'] := by
    rw [getTmp, if_neg (by decide), tmpDigits, if_neg (by decide), tmpDigits, if_pos (by decide)]
    rfl
  rw [← digits]
  rfl

theorem signedFormat_complete :
    completeRendering signedFormat minusOne = ['a', '-', '0', '0', '0', '1'].map char := by
  rw [completeRendering, signedFormat_asked, Piece.complete, List.flatMap_cons, List.flatMap_cons,
    List.flatMap_nil, minusOne_text]
  decide +kernel

theorem snprintf_sizes_agree_from_two :
    ∃ result₁ result₂, rtSnprintf 0x20000000 2 signedFormat minusOne = some result₁ ∧
      rtSnprintf 0x20001000 64 signedFormat minusOne = some result₂ ∧
      result₁.n = result₂.n ∧ result₁.n.toInt = 6 ∧
      bufferText 0x20000000 2 result₁ <+: bufferText 0x20001000 64 result₂ := by
  have fits (size : Nat) (more : 2 ≤ size) :
      Piece.SignsFit size 0 (askedPieces signedFormat minusOne) := by
    rw [signedFormat_asked]
    exact ⟨fun never => absurd never (by decide), fun _ => more, trivial⟩
  obtain ⟨result₁, result₂, returns₁, returns₂, same, length, shorter, -⟩ :=
    (snprintf_sizes_agree signedFormat minusOne 0x20000000 2 0x20001000 64 (by decide)
      (by decide)).mpr ⟨by rw [signedFormat_complete]; decide,
        ⟨by rw [signedFormat_complete]; decide, fits _ (by decide)⟩,
        ⟨by rw [signedFormat_complete]; decide, fits _ (by decide)⟩⟩
  rw [signedFormat_complete] at length
  exact ⟨result₁, result₂, returns₁, returns₂, same, length, shorter (by decide)⟩

/-- With one byte for the buffer, the sign is not stored and one is returned more than with 64
bytes. -/
theorem snprintf_sizes_disagree :
    ∃ result₁ result₂, rtSnprintf 0x20000000 1 signedFormat minusOne = some result₁ ∧
      rtSnprintf 0x20000000 64 signedFormat minusOne = some result₂ ∧
      result₁.n = 7 ∧ result₂.n = 6 := by
  have cursor₁ : (rendered 0x20000000 1 signedFormat minusOne).cursor = 0x20000007 := by
    rw [rendered, signedFormat_asked]
    simp only [Piece.putAll, List.foldl_cons, List.foldl_nil, Piece.put, Sink.puts_cursor,
      minusOne_text]
    decide +kernel
  have cursor₂ : (rendered 0x20000000 64 signedFormat minusOne).cursor = 0x20000006 := by
    rw [rendered, signedFormat_asked]
    simp only [Piece.putAll, List.foldl_cons, List.foldl_nil, Piece.put, Sink.puts_cursor,
      minusOne_text]
    decide +kernel
  refine ⟨_, _, rtSnprintf_eq (by rw [cursor₁]; decide), rtSnprintf_eq (by rw [cursor₂]; decide),
    ?_, ?_⟩
  · dsimp only
    rw [cursor₁]
    rfl
  · dsimp only
    rw [cursor₂]
    rfl

/-! ## Console output -/

/-- The length that is passed to the device is within `rt_log_buf` and is the number of characters
of the rendering that are stored there, before the `'\0'` in the last byte at the latest. -/
def ConsoleSound (consoleDevice rtLogBuf : BitVec 32) (text : NulString) (args : VaList) : Prop :=
  consoleDevice ≠ 0 → ∃ buffer length,
    rtKprintf consoleDevice rtLogBuf text args = some (buffer, some length) ∧
      length.toNat ≤ 128 ∧ length.toNat = min (completeRendering text args).length 127 ∧
      ∀ index < length.toNat, ∃ c, (completeRendering text args)[index]? = some c ∧
        buffer.read (rtLogBuf.toNat + index) = some c

variable {consoleDevice rtLogBuf : BitVec 32}

theorem rtKprintf_eq (device : consoleDevice ≠ 0)
    (inside : (rendered rtLogBuf 128 text args).cursor < 2 ^ 32) :
    rtKprintf consoleDevice rtLogBuf text args = some
      (⟨(rendered rtLogBuf 128 text args).cursor,
        (nulAddress rtLogBuf 128 text args, 0) :: (rendered rtLogBuf 128 text args).stores⟩,
        some (BitVec.ofNat 32 ((rendered rtLogBuf 128 text args).cursor - rtLogBuf.toNat))) := by
  have formatted := @rtSnprintf_eq text args rtLogBuf 128 inside
  rw [rtSnprintf] at formatted
  simp only [rtKprintf, formatted, Option.bind_eq_bind, Option.bind_some, if_neg device]

/-- The console device is passed what is in `rt_log_buf` if and only if the complete rendering is
shorter than the buffer; the array `rt_log_buf` lies in the address space. -/
theorem console_output_stays (consoleDevice rtLogBuf : BitVec 32) (text : NulString) (args : VaList)
    (array : rtLogBuf.toNat + 128 ≤ 2 ^ 32) :
    ConsoleSound consoleDevice rtLogBuf text args ↔
      consoleDevice = 0 ∨ (completeRendering text args).length < 128 := by
  by_cases device : consoleDevice = 0
  · exact iff_of_true (fun device' => absurd device device') (Or.inl device)
  have last := @bufferEnd_toNat rtLogBuf 128 (by decide)
  rw [show (128 : BitVec 32).toNat = 128 from rfl] at last
  have cases_ : (rendered rtLogBuf 128 text args).cursor =
      rtLogBuf.toNat + (completeRendering text args).length ∨
      (bufferEnd rtLogBuf 128).toNat < (rendered rtLogBuf 128 text args).cursor :=
    @Piece.putAll_cursor_cases _ (askedPieces text args) ⟨rtLogBuf.toNat, []⟩
  constructor
  · intro sound
    obtain ⟨buffer, length, output, -, counted, -⟩ := sound device
    refine Or.inr ?_
    by_cases inside : (rendered rtLogBuf 128 text args).cursor < 2 ^ 32
    · have passed := Option.some.inj ((rtKprintf_eq device inside).symm.trans output)
      have same := Option.some.inj (congrArg Prod.snd passed)
      rw [← same, rendered_length inside] at counted
      have above := @le_rendered text args rtLogBuf 128
      omega
    · have none_ := @rtSnprintf_outside text args rtLogBuf 128 inside
      rw [rtSnprintf] at none_
      simp only [rtKprintf, none_, Option.bind_eq_bind, Option.bind_none] at output
      cases output
  · rintro (none_ | short)
    · exact absurd none_ device
    · have all : 0 + (Piece.complete (askedPieces text args)).length ≤ (128 : BitVec 32).toNat := by
        rw [Nat.zero_add]
        exact Nat.le_of_lt short
      have ends := (@rendered_cursor_iff text args rtLogBuf 128 (by decide) (by omega)
        (by omega)).mpr (Piece.signsFit_of_complete all)
      have inside : (rendered rtLogBuf 128 text args).cursor < 2 ^ 32 := by omega
      have counted := rendered_length inside
      rw [ends, Nat.add_sub_cancel_left] at counted
      refine fun _ => ⟨_, _, rtKprintf_eq device inside, ?_⟩
      rw [ends, Nat.add_sub_cancel_left, counted]
      refine ⟨by omega, by omega, fun index below => ?_⟩
      have stored : index < (128 : BitVec 32).toNat - 1 := by
        rw [show (128 : BitVec 32).toNat = 128 from rfl]
        omega
      have found := @buffer_read text args rtLogBuf 128 index (by decide) below stored
        (by omega) inside
      rw [ends] at found
      exact ⟨_, List.getElem?_eq_getElem below, found.trans (List.getElem?_eq_getElem below)⟩

theorem console_output_stays_open : ConsoleSound 1 0x20000000 openFormat noArgs :=
  (console_output_stays 1 0x20000000 openFormat noArgs (by decide)).mpr
    (Or.inr (by rw [completeRendering, openFormat_asked]; decide))

/-- `%s` -/
def stringFormat : NulString where
  chars := ['%', 's'].map char
  nonzero := by decide
  fits := by decide

/-- The address of a string of 130 characters. -/
def longString : VaList where
  word _ := 0x20001000
  string _ :=
    { chars := List.replicate 130 (char 'x')
      nonzero := fun c member => (List.eq_of_mem_replicate member).symm ▸ by decide
      fits := by
        rw [List.length_replicate]
        decide }

theorem stringFormat_asked : askedPieces stringFormat longString =
    [Piece.plain (List.replicate 130 (char 'x'))] := by
  have read₁ : stringFormat.read 1 = some (char 's') := rfl
  have flags : stringFormat.scanFlags 0 Flags.none = some (1, Flags.none) := by
    rw [NulString.scanFlags, read₁, Option.bind_eq_bind, Option.bind_some, if_neg (by decide),
      if_neg (by decide), if_neg (by decide), if_neg (by decide), if_neg (by decide)]
  have scanned : stringFormat.scanSpec longString 0 0 = some ⟨1, 0, Flags.none, -1, -1, 0⟩ := by
    simp only [NulString.scanSpec, flags, Option.bind_eq_bind, Option.bind_some]
    rfl
  have asked : stringFormat.formatPieces longString 0 0 =
      some [conversionPiece longString ⟨1, 0, Flags.none, -1, -1, 0⟩ (char 's')] :=
    formatPieces_conversion rfl scanned read₁ (formatPieces_end rfl)
  have text : stringText ⟨1, 0, Flags.none, -1, -1, 0⟩ (longString.pointer 0) =
      List.replicate 130 (char 'x') := by
    decide +kernel
  rw [askedPieces, asked, ← text]
  rfl

/-- A string that does not fit into `rt_log_buf`, and two bytes behind its end for the device. -/
theorem console_output_leaves :
    ∃ buffer, rtKprintf 1 0x20000000 stringFormat longString = some (buffer, some 130) := by
  have cursor : (rendered 0x20000000 128 stringFormat longString).cursor = 0x20000082 := by
    rw [rendered, stringFormat_asked]
    simp only [Piece.putAll, List.foldl_cons, List.foldl_nil, Piece.put, Sink.puts_cursor,
      Piece.plain, List.length_replicate]
    rfl
  have output := @rtKprintf_eq stringFormat longString 1 0x20000000 (by decide)
    (by rw [cursor]; decide)
  rw [cursor] at output
  exact ⟨_, output⟩

end RtThread
