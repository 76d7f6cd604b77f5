import RtThread.Lwip.Checksum

/-!
# What the checksums compute

The three algorithms compute one sum, wherever the data lies, and the checksum of a chain is that of
its bytes in a row.
-/

namespace RtThread.Lwip

open RtThread.Std

variable {data left : List (BitVec 8)} {sum sum' : BitVec 32} {n : Nat}

/-- The sum that a checksum is about. -/
def dataSum (data : List (BitVec 8)) : Nat := onesSum 256 (data.map BitVec.toNat)

theorem byte_base : 0 < 256 := by decide

/-! ## Words -/

theorem foldU32t_toNat (u : BitVec 32) :
    (foldU32t u).toNat = u.toNat / 65536 + u.toNat % 65536 := by
  have mask : (0xffff : BitVec 32).toNat = 2 ^ 16 - 1 := rfl
  have short := u.isLt
  rw [foldU32t, BitVec.toNat_add, BitVec.toNat_ushiftRight, BitVec.toNat_and, mask,
    Nat.and_two_pow_sub_one_eq_mod, Nat.shiftRight_eq_div_pow, Nat.mod_eq_of_lt (by omega)]

theorem foldU32t_spec (u : BitVec 32) : OnesEq 256 (foldU32t u).toNat u.toNat := by
  rw [foldU32t_toNat]
  exact onesEq_fold byte_base

theorem foldU32t_lt {u : BitVec 32} (small : u.toNat < 2 * 65536 - 1) :
    (foldU32t u).toNat < 65536 := by
  rw [foldU32t_toNat]
  omega

theorem foldU32t_twice_lt (u : BitVec 32) : (foldU32t (foldU32t u)).toNat < 65536 := by
  have short := u.isLt
  apply foldU32t_lt
  rw [foldU32t_toNat]
  omega

/-- Two bytes beside each other. -/
theorem low_or_high {low high : Nat} (lowLt : low < 256) :
    high * 256 ||| low = high * 256 + low := by
  rw [← Nat.shiftLeft_eq high 8, Nat.shiftLeft_add_eq_or_of_lt lowLt]

theorem loadU16_toNat (low high : BitVec 8) :
    (loadU16 low high).toNat = low.toNat + 256 * high.toNat := by
  have lowLt := low.isLt
  have highLt := high.isLt
  have above : (high.setWidth 32 <<< 8).toNat = high.toNat * 256 := by
    rw [BitVec.toNat_shiftLeft, BitVec.toNat_setWidth, Nat.shiftLeft_eq]
    omega
  have below : (low.setWidth 32).toNat = low.toNat := by
    rw [BitVec.toNat_setWidth]
    omega
  rw [loadU16, BitVec.toNat_or, above, below, Nat.or_comm, low_or_high lowLt]
  ring

theorem swapBytesInWord_toNat {w : BitVec 32} (word : w.toNat < 65536) :
    (swapBytesInWord w).toNat = w.toNat % 256 * 256 + w.toNat / 256 := by
  have low : ((w &&& 0xff) <<< 8).toNat = w.toNat % 256 * 256 := by
    have mask : (0xff : BitVec 32).toNat = 2 ^ 8 - 1 := rfl
    rw [BitVec.toNat_shiftLeft, BitVec.toNat_and, mask, Nat.and_two_pow_sub_one_eq_mod,
      Nat.shiftLeft_eq]
    omega
  have high : ((w &&& 0xff00) >>> 8).toNat = w.toNat / 256 := by
    have mask : (0xff00 : BitVec 32).toNat >>> 8 = 2 ^ 8 - 1 := rfl
    rw [BitVec.toNat_ushiftRight, BitVec.toNat_and, Nat.shiftRight_and_distrib, mask,
      Nat.and_two_pow_sub_one_eq_mod, Nat.shiftRight_eq_div_pow]
    omega
  rw [swapBytesInWord, BitVec.toNat_or, low, high, low_or_high (by omega)]

theorem swapBytesInWord_spec {w : BitVec 32} (word : w.toNat < 65536) :
    OnesEq 256 (swapBytesInWord w).toNat (256 * w.toNat) ∧
      (swapBytesInWord w).toNat < 65536 := by
  rw [swapBytesInWord_toNat word]
  exact ⟨onesEq_swap byte_base, by omega⟩

theorem htons_toNat (x : BitVec 16) :
    (htons x).toNat = x.toNat % 256 * 256 + x.toNat / 256 := by
  have short := x.isLt
  have low : ((x &&& 0xff) <<< 8).toNat = x.toNat % 256 * 256 := by
    have mask : (0xff : BitVec 16).toNat = 2 ^ 8 - 1 := rfl
    rw [BitVec.toNat_shiftLeft, BitVec.toNat_and, mask, Nat.and_two_pow_sub_one_eq_mod,
      Nat.shiftLeft_eq]
    omega
  have high : ((x &&& 0xff00) >>> 8).toNat = x.toNat / 256 := by
    have mask : (0xff00 : BitVec 16).toNat >>> 8 = 2 ^ 8 - 1 := rfl
    rw [BitVec.toNat_ushiftRight, BitVec.toNat_and, Nat.shiftRight_and_distrib, mask,
      Nat.and_two_pow_sub_one_eq_mod, Nat.shiftRight_eq_div_pow]
    omega
  rw [htons, BitVec.toNat_or, low, high, low_or_high (by omega)]

/-! ## The sums -/

theorem dataSum_cons₂ (low high : BitVec 8) (rest : List (BitVec 8)) :
    dataSum (low :: high :: rest) = low.toNat + 256 * high.toNat + dataSum rest := rfl

theorem dataSum_le (data : List (BitVec 8)) : 2 * dataSum data ≤ 65535 * (data.length + 1) := by
  match data with
  | [] => simp [dataSum]
  | [last] =>
      have short := last.isLt
      simp [dataSum, onesSum]
      omega
  | low :: high :: rest =>
      have rest' := dataSum_le rest
      have lowLt := low.isLt
      have highLt := high.isLt
      rw [dataSum_cons₂, List.length_cons, List.length_cons]
      omega

theorem addWords_spec (sum : BitVec 32) (data : List (BitVec 8))
    (room : sum.toNat + dataSum data < 2 ^ 32) :
    ((addWords sum data).2.headD 0).toNat + (addWords sum data).1.toNat =
      sum.toNat + dataSum data := by
  match data with
  | [] => simp [addWords, dataSum]
  | [last] => simp [addWords, dataSum, onesSum, Nat.add_comm]
  | low :: high :: rest =>
      rw [dataSum_cons₂] at room ⊢
      have step : (sum + loadU16 low high).toNat =
          sum.toNat + (low.toNat + 256 * high.toNat) := by
        rw [BitVec.toNat_add, loadU16_toNat, Nat.mod_eq_of_lt (by omega)]
      rw [addWords, addWords_spec (sum + loadU16 low high) rest (by omega), step]
      omega

theorem finishSum_spec (odd : Bool) (sum : BitVec 32) (left : List (BitVec 8)) (t1 : BitVec 8)
    (room : sum.toNat + ((left.headD 0).toNat + 256 * t1.toNat) < 2 ^ 32) :
    OnesEq 256 (finishSum odd sum left t1).toNat
      (turned 256 odd (sum.toNat + ((left.headD 0).toNat + 256 * t1.toNat))) := by
  have total : (sum + loadU16 (left.headD 0) t1).toNat =
      sum.toNat + ((left.headD 0).toNat + 256 * t1.toNat) := by
    rw [BitVec.toNat_add, loadU16_toNat, Nat.mod_eq_of_lt room]
  have folded := (foldU32t_spec (foldU32t (sum + loadU16 (left.headD 0) t1))).trans
    (foldU32t_spec (sum + loadU16 (left.headD 0) t1))
  have short := foldU32t_twice_lt (sum + loadU16 (left.headD 0) t1)
  rw [total] at folded
  have kept {w : BitVec 32} (word : w.toNat < 65536) : (w.setWidth 16).toNat = w.toNat :=
    Nat.mod_eq_of_lt word
  cases odd with
  | false =>
      change OnesEq 256 (BitVec.setWidth 16 (foldU32t _)).toNat _
      rw [kept short]
      exact folded
  | true =>
      obtain ⟨swapped, word⟩ := swapBytesInWord_spec short
      change OnesEq 256 (BitVec.setWidth 16 (swapBytesInWord _)).toNat _
      rw [kept word]
      exact swapped.trans (folded.mul 256)

/-- The sum of the data behind an odd address, before its bytes are swapped. -/
theorem turned_odd (first : BitVec 8) (rest : List (BitVec 8)) :
    OnesEq 256 (turned 256 true (dataSum rest + 256 * first.toNat)) (dataSum (first :: rest)) := by
  have twice := (OnesEq.refl 256 (256 * dataSum rest)).add
    (onesEq_twice (a := first.toNat) byte_base)
  rw [← Nat.mul_add, Nat.add_comm _ first.toNat] at twice
  exact twice.trans (onesSum_cons byte_base first.toNat (rest.map BitVec.toNat)).symm

/-- The words that are left and the end bytes complete a sum. -/
theorem finishSum_addWords (odd : Bool) (sum : BitVec 32) (data : List (BitVec 8)) (t1 : BitVec 8)
    (room : sum.toNat + dataSum data + 256 * t1.toNat < 2 ^ 32) :
    OnesEq 256 (finishSum odd (addWords sum data).1 (addWords sum data).2 t1).toNat
      (turned 256 odd (sum.toNat + dataSum data + 256 * t1.toNat)) := by
  have words := addWords_spec sum data (by omega)
  have total : (addWords sum data).1.toNat + (((addWords sum data).2.headD 0).toNat +
      256 * t1.toNat) = sum.toNat + dataSum data + 256 * t1.toNat := by omega
  have finished := finishSum_spec odd (addWords sum data).1 (addWords sum data).2 t1
    (by rw [total]; exact room)
  rwa [total] at finished

/-- The default algorithm computes the sum of the data, wherever it lies. -/
theorem lwipStandardChksum_spec (dataptr : Nat) (short : data.length ≤ 0x20000) :
    OnesEq 256 (lwipStandardChksum dataptr data).toNat (dataSum data) := by
  have bound := dataSum_le data
  rw [lwipStandardChksum]
  cases odd : dataptr % 2 == 1 with
  | false =>
      have same : takeOdd false data = (0, data) := by cases data <;> rfl
      rw [same]
      have finished := finishSum_addWords false 0 data 0 (by simp; omega)
      simpa [turned] using finished
  | true =>
      cases data with
      | nil => exact .refl _ _
      | cons first rest =>
          have bound' := dataSum_le rest
          have firstLt := first.isLt
          rw [List.length_cons] at short
          have finished := finishSum_addWords true 0 rest first (by simp; omega)
          rw [show (0 : BitVec 32).toNat = 0 from rfl, Nat.zero_add] at finished
          exact finished.trans (turned_odd first rest)

/-! ## The other algorithms -/

theorem addBack_spec (sum word : BitVec 32) :
    OnesEq 256 (addBack sum word).toNat (sum.toNat + word.toNat) := by
  have sumLt := sum.isLt
  have wordLt := word.isLt
  have around : 2 ^ 32 ≡ 1 [MOD 256 * 256 - 1] := by decide
  have total : (sum + word).toNat = (sum.toNat + word.toNat) % 2 ^ 32 := BitVec.toNat_add sum word
  rw [addBack]
  by_cases carry : sum.toNat + word.toNat < 2 ^ 32
  · rw [Nat.mod_eq_of_lt carry] at total
    have same : ¬ sum + word < sum := by
      rw [BitVec.lt_def, total]
      omega
    simp only [same, if_false]
    rw [total]
    exact .refl _ _
  · have less : sum + word < sum := by
      rw [BitVec.lt_def, total]
      omega
    simp only [less, if_true]
    have back : (sum + word + 1).toNat = sum.toNat + word.toNat - 2 ^ 32 + 1 := by
      rw [BitVec.toNat_add, total]
      simp
      omega
    rw [back]
    refine ⟨?_, by omega⟩
    calc sum.toNat + word.toNat - 2 ^ 32 + 1
        ≡ sum.toNat + word.toNat - 2 ^ 32 + 2 ^ 32 [MOD 256 * 256 - 1] := around.symm.add_left _
      _ = sum.toNat + word.toNat := by omega

theorem doubleWord_spec (b0 b1 b2 b3 : BitVec 8) :
    OnesEq 256 (loadU16 b0 b1 ||| loadU16 b2 b3 <<< 16).toNat
      ((b0.toNat + 256 * b1.toNat) + (b2.toNat + 256 * b3.toNat)) := by
  have low := loadU16_toNat b0 b1
  have high := loadU16_toNat b2 b3
  have lt0 := b0.isLt
  have lt1 := b1.isLt
  have lt2 := b2.isLt
  have lt3 := b3.isLt
  have above : (loadU16 b2 b3 <<< 16).toNat = (loadU16 b2 b3).toNat <<< 16 := by
    rw [BitVec.toNat_shiftLeft, Nat.mod_eq_of_lt]
    rw [Nat.shiftLeft_eq]
    omega
  have below : (loadU16 b0 b1).toNat < 2 ^ 16 := by omega
  rw [BitVec.toNat_or, above, Nat.or_comm, ← Nat.shiftLeft_add_eq_or_of_lt below, Nat.add_comm,
    ← low, ← high]
  refine (OnesEq.refl _ _).add ?_
  have twice := onesEq_twice (a := (loadU16 b2 b3).toNat) byte_base
  have same : (loadU16 b2 b3).toNat <<< 16 = 256 * (256 * (loadU16 b2 b3).toNat) := by
    rw [Nat.shiftLeft_eq]
    ring
  rwa [← same] at twice

theorem addDoubleWords_spec (sum : BitVec 32) (data : List (BitVec 8)) :
    OnesEq 256 ((addDoubleWords sum data).1.toNat + dataSum (addDoubleWords sum data).2)
        (sum.toNat + dataSum data) ∧ (addDoubleWords sum data).2.length ≤ 7 := by
  induction sum, data using addDoubleWords.induct with
  | case1 sum b0 b1 b2 b3 b4 b5 b6 b7 rest ping pong ih =>
      obtain ⟨same, few⟩ := ih
      rw [addDoubleWords]
      refine ⟨same.trans ?_, few⟩
      have first := (addBack_spec sum (loadU16 b0 b1 ||| loadU16 b2 b3 <<< 16)).trans
        ((OnesEq.refl _ sum.toNat).add (doubleWord_spec b0 b1 b2 b3))
      have second := (addBack_spec ping (loadU16 b4 b5 ||| loadU16 b6 b7 <<< 16)).trans
        (first.add (doubleWord_spec b4 b5 b6 b7))
      have whole := second.add (OnesEq.refl _ (dataSum rest))
      have total : sum.toNat + dataSum (b0 :: b1 :: b2 :: b3 :: b4 :: b5 :: b6 :: b7 :: rest) =
          sum.toNat + (b0.toNat + 256 * b1.toNat + (b2.toNat + 256 * b3.toNat)) +
            (b4.toNat + 256 * b5.toNat + (b6.toNat + 256 * b7.toNat)) + dataSum rest := by
        simp only [dataSum_cons₂]
        ring
      rw [total]
      exact whole
  | case2 sum data short =>
      have same : addDoubleWords sum data = (sum, data) := by
        rw [addDoubleWords]
        exact short
      rw [same]
      refine ⟨.refl _ _, ?_⟩
      rcases data with _ | ⟨b0, _ | ⟨b1, _ | ⟨b2, _ | ⟨b3, _ | ⟨b4, _ | ⟨b5, _ | ⟨b6, rest⟩⟩⟩⟩⟩⟩⟩
      all_goals try simp
      cases rest with
      | nil => simp
      | cons b7 rest => exact (short b0 b1 b2 b3 b4 b5 b6 b7 rest rfl).elim

theorem takeHalf_spec (half : Bool) (data : List (BitVec 8)) :
    (takeHalf half data).1.toNat + dataSum (takeHalf half data).2 = dataSum data := by
  rcases data with _ | ⟨low, _ | ⟨high, rest⟩⟩
  · simp [takeHalf]
  · simp [takeHalf]
  · cases half with
    | false => simp [takeHalf]
    | true => simp [takeHalf, loadU16_toNat, dataSum_cons₂]

/-- What the third algorithm does behind the first byte. -/
theorem unrolled_spec (odd half : Bool) (data : List (BitVec 8)) (t1 : BitVec 8) :
    let aligned := takeHalf half data
    let bulk := addDoubleWords aligned.1 aligned.2
    let words := addWords (foldU32t bulk.1) bulk.2
    OnesEq 256 (finishSum odd words.1 words.2 t1).toNat
      (turned 256 odd (dataSum data + 256 * t1.toNat)) := by
  intro aligned bulk words
  obtain ⟨same, few⟩ := addDoubleWords_spec aligned.1 aligned.2
  rw [takeHalf_spec] at same
  have short := bulk.1.isLt
  have folded : (foldU32t bulk.1).toNat ≤ 131070 := by
    rw [foldU32t_toNat]
    omega
  have bound := dataSum_le bulk.2
  have t1Lt := t1.isLt
  have few' : bulk.2.length ≤ 7 := few
  have finished := finishSum_addWords odd (foldU32t bulk.1) bulk.2 t1 (by omega)
  refine finished.trans (OnesEq.turned ?_)
  exact (((foldU32t_spec bulk.1).add (.refl _ _)).trans same).add (.refl _ _)

/-- The third algorithm computes the same sum. -/
theorem lwipStandardChksum3_spec (dataptr : Nat) (data : List (BitVec 8)) :
    OnesEq 256 (lwipStandardChksum3 dataptr data).toNat (dataSum data) := by
  rw [lwipStandardChksum3]
  cases odd : dataptr % 2 == 1 with
  | false =>
      have same : takeOdd false data = (0, data) := by cases data <;> rfl
      simp only [same]
      have summed := unrolled_spec false (dataptr % 4 != 0) data 0
      simpa [turned] using summed
  | true =>
      cases data with
      | nil => exact unrolled_spec true (dataptr % 4 != 0) [] 0
      | cons first rest => exact (unrolled_spec true _ rest first).trans (turned_odd first rest)

theorem addBigEndian_spec (acc : BitVec 32) (data : List (BitVec 8))
    (room : acc.toNat + 32768 * data.length + 32768 < 2 ^ 32) :
    OnesEq 256 (addBigEndian acc data).toNat (acc.toNat + 256 * dataSum data) := by
  have high (byte : BitVec 8) : (byte.setWidth 32 <<< 8).toNat = byte.toNat * 256 := by
    have byteLt := byte.isLt
    rw [BitVec.toNat_shiftLeft, BitVec.toNat_setWidth, Nat.shiftLeft_eq]
    omega
  induction acc, data using addBigEndian.induct with
  | case1 acc => exact .refl _ _
  | case2 acc last =>
      have lastLt := last.isLt
      simp only [List.length_cons, List.length_nil] at room
      rw [addBigEndian, BitVec.toNat_add, high, Nat.mod_eq_of_lt (by omega), Nat.mul_comm]
      exact .refl _ _
  | case3 acc first second rest ih =>
      have firstLt := first.isLt
      have secondLt := second.isLt
      rw [List.length_cons, List.length_cons, Nat.mul_add_one, Nat.mul_add_one] at room
      have room' : acc.toNat + (first.toNat * 256 + second.toNat) + 32768 * rest.length + 32768 <
          2 ^ 32 := by omega
      have low : (second.setWidth 32).toNat = second.toNat := by
        rw [BitVec.toNat_setWidth]
        omega
      have next : (acc + (first.setWidth 32 <<< 8 ||| second.setWidth 32)).toNat =
          acc.toNat + (first.toNat * 256 + second.toNat) := by
        rw [BitVec.toNat_add, BitVec.toNat_or, high, low, low_or_high secondLt]
        omega
      rw [addBigEndian]
      refine (ih (by rw [next]; exact room')).trans ?_
      have twice := onesEq_twice (a := second.toNat) byte_base
      have step := ((OnesEq.refl 256 (acc.toNat + 256 * first.toNat)).add twice.symm).add
        (.refl 256 (256 * dataSum rest))
      have left : acc.toNat + (first.toNat * 256 + second.toNat) + 256 * dataSum rest =
          acc.toNat + 256 * first.toNat + second.toNat + 256 * dataSum rest := by ring
      have right : acc.toNat + 256 * dataSum (first :: second :: rest) =
          acc.toNat + 256 * first.toNat + 256 * (256 * second.toNat) + 256 * dataSum rest := by
        rw [dataSum_cons₂]
        ring
      rw [next, left, right]
      exact step

/-- The first algorithm computes the same sum. -/
theorem lwipStandardChksum1_spec (short : data.length ≤ 0xffff) :
    OnesEq 256 (lwipStandardChksum1 data).toNat (dataSum data) := by
  have summed := addBigEndian_spec 0 data (by simp; omega)
  rw [show (0 : BitVec 32).toNat = 0 from rfl, Nat.zero_add] at summed
  have once := (foldU32t_spec (addBigEndian 0 data)).trans summed
  have folded : ∃ acc : BitVec 32, acc.toNat < 65536 ∧ OnesEq 256 acc.toNat (256 * dataSum data) ∧
      lwipStandardChksum1 data = htons (acc.setWidth 16) := by
    rw [lwipStandardChksum1]
    by_cases carries : foldU32t (addBigEndian 0 data) &&& 0xffff0000 = 0
    · refine ⟨foldU32t (addBigEndian 0 data), ?_, once, ?_⟩
      · have high : (foldU32t (addBigEndian 0 data) &&& 0xffff0000).toNat >>> 16 = 0 := by
          rw [carries]
          rfl
        have mask : (0xffff0000 : BitVec 32).toNat >>> 16 = 2 ^ 16 - 1 := rfl
        have short := (foldU32t (addBigEndian 0 data)).isLt
        rw [BitVec.toNat_and, Nat.shiftRight_and_distrib, mask, Nat.and_two_pow_sub_one_eq_mod,
          Nat.shiftRight_eq_div_pow] at high
        omega
      · exact congrArg _ (congrArg _ (if_neg (not_not.mpr carries)))
    · refine ⟨foldU32t (foldU32t (addBigEndian 0 data)), foldU32t_twice_lt _,
        (foldU32t_spec _).trans once, ?_⟩
      exact congrArg _ (congrArg _ (if_pos carries))
  obtain ⟨acc, word, sum, same⟩ := folded
  have kept : (acc.setWidth 16).toNat = acc.toNat := Nat.mod_eq_of_lt word
  rw [same, htons_toNat, kept]
  exact ((onesEq_swap byte_base).trans (sum.mul 256)).trans (onesEq_twice byte_base)

/-- Whichever algorithm is compiled in, and wherever the data lies, the sum is the same. -/
theorem chksum_algorithms_agree (dataptr dataptr' dataptr'' : Nat) (short : data.length ≤ 0xffff) :
    lwipStandardChksum dataptr data = lwipStandardChksum1 data ∧
      lwipStandardChksum dataptr' data = lwipStandardChksum3 dataptr'' data := by
  have second (dataptr : Nat) : OnesEq 256 (lwipStandardChksum dataptr data).toNat (dataSum data) :=
    lwipStandardChksum_spec dataptr (by omega)
  constructor
  · exact BitVec.eq_of_toNat_eq (((second dataptr).trans (lwipStandardChksum1_spec short).symm).eq
      (BitVec.isLt _) (BitVec.isLt _))
  · exact BitVec.eq_of_toNat_eq (((second dataptr').trans
      (lwipStandardChksum3_spec dataptr'' data).symm).eq (BitVec.isLt _) (BitVec.isLt _))

theorem chksum_algorithms_agree_three :
    lwipStandardChksum 1 [1, 2, 3] = lwipStandardChksum1 [1, 2, 3] ∧
      lwipStandardChksum 0 [1, 2, 3] = lwipStandardChksum3 7 [1, 2, 3] :=
  chksum_algorithms_agree 1 0 7 (by decide)

end RtThread.Lwip
