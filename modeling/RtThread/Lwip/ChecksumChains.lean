import RtThread.Lwip.ChecksumSums

/-!
# What the checksums of packets tell

A packet with the checksum that has been computed for it is accepted, however it is cut into pbufs,
and a changed word is noticed. Where a packet is changed on its way, so is its checksum.
-/

namespace RtThread.Lwip

open RtThread.Std

variable {p p' : List PlacedPbuf} {data before after : List (BitVec 8)} {src dest : BitVec 32}
  {proto : BitVec 8} {protoLen chksum : BitVec 16} {dataptr dataptr' : Nat}

/-! ## Chains -/

/-- The bytes of a chain. -/
def chainBytes (p : List PlacedPbuf) : List (BitVec 8) := p.flatMap PlacedPbuf.data

/-- Whether the number of bytes is odd. -/
def oddBytes (data : List (BitVec 8)) : Bool := oddLength (data.map BitVec.toNat)

theorem oddBytes_eq (data : List (BitVec 8)) : oddBytes data = (data.length % 2 == 1) := by
  rw [oddBytes, oddLength, List.length_map]

theorem oddBytes_append (data data' : List (BitVec 8)) :
    oddBytes (data ++ data') = (oddBytes data ^^ oddBytes data') := by
  rw [oddBytes, List.map_append, oddLength_append, oddBytes, oddBytes]

theorem dataSum_append (data data' : List (BitVec 8)) :
    OnesEq 256 (dataSum (data ++ data'))
      (dataSum data + turned 256 (oddBytes data) (dataSum data')) := by
  rw [dataSum, List.map_append]
  exact onesSum_append byte_base _ _

/-- `acc` is the sum of the bytes so far, as it stands in front of the next pbuf. -/
structure SumsUp (acc : BitVec 32) (swapped : Bool) (done : List (BitVec 8)) : Prop where
  word : acc.toNat < 65536
  sum : OnesEq 256 acc.toNat (turned 256 swapped (dataSum done))
  swapped : swapped = oddBytes done

/-- The bytes of one more pbuf are summed up. -/
theorem SumsUp.next {acc : BitVec 32} {swapped : Bool} {done : List (BitVec 8)}
    (sums : SumsUp acc swapped done) (dataptr : Nat) (short : data.length ≤ 0x20000) :
    let next := foldU32t (acc + (lwipStandardChksum dataptr data).setWidth 32)
    next.toNat < 65536 ∧
      OnesEq 256 next.toNat (turned 256 swapped (dataSum (done ++ data))) := by
  obtain ⟨word, sum, rfl⟩ := sums
  have wide := (lwipStandardChksum dataptr data).isLt
  have added : (acc + (lwipStandardChksum dataptr data).setWidth 32).toNat =
      acc.toNat + (lwipStandardChksum dataptr data).toNat := by
    rw [BitVec.toNat_add, BitVec.toNat_setWidth]
    omega
  refine ⟨foldU32t_lt (by rw [added]; omega), (foldU32t_spec _).trans ?_⟩
  rw [added]
  have both := sum.add (lwipStandardChksum_spec dataptr short)
  refine both.trans ?_
  have whole : OnesEq 256 (turned 256 (oddBytes done) _) _ := (dataSum_append done data).turned
  rw [turned_add] at whole
  refine OnesEq.symm (whole.trans ((OnesEq.refl _ _).add ?_))
  have twice := turned_turned byte_base (oddBytes done) (oddBytes done) (dataSum data)
  rwa [Bool.xor_self] at twice

/-- What the loop makes of one pbuf. -/
theorem SumsUp.turn {next : BitVec 32} {swapped : Bool} {done : List (BitVec 8)}
    (same : swapped = oddBytes done) (word : next.toNat < 65536)
    (sum : OnesEq 256 next.toNat (turned 256 swapped (dataSum (done ++ data)))) :
    (data.length % 2 ≠ 0 → SumsUp (swapBytesInWord next) (!swapped) (done ++ data)) ∧
      (¬ data.length % 2 ≠ 0 → SumsUp next swapped (done ++ data)) := by
  have odd := oddBytes_append done data
  rw [oddBytes_eq data, ← same] at odd
  constructor
  · intro one
    obtain ⟨spec, word'⟩ := swapBytesInWord_spec word
    refine ⟨word', ?_, ?_⟩
    · have twice := turned_turned byte_base true swapped (dataSum (done ++ data))
      rw [Bool.true_xor] at twice
      exact (spec.trans (sum.mul 256)).trans twice
    · rw [odd]
      have one' : data.length % 2 = 1 := by omega
      simp [one']
  · intro none_
    refine ⟨word, sum, ?_⟩
    rw [odd]
    have none' : data.length % 2 = 0 := by omega
    simp [none']

theorem sumChain_spec {acc : BitVec 32} {swapped : Bool} {done : List (BitVec 8)}
    (short : ∀ q ∈ p, q.data.length ≤ 0x20000) (sums : SumsUp acc swapped done) :
    SumsUp (sumChain acc swapped p).1 (sumChain acc swapped p).2 (done ++ chainBytes p) := by
  induction p generalizing acc swapped done with
  | nil =>
      rw [chainBytes, List.flatMap_nil, List.append_nil]
      exact sums
  | cons q rest ih =>
      obtain ⟨word, sum⟩ := sums.next q.payload (short q List.mem_cons_self)
      obtain ⟨odd, even⟩ := SumsUp.turn sums.swapped word sum
      have short' (q' : PlacedPbuf) (member : q' ∈ rest) := short q' (List.mem_cons_of_mem q member)
      have split : done ++ chainBytes (q :: rest) = done ++ q.data ++ chainBytes rest := by
        rw [chainBytes, List.flatMap_cons, List.append_assoc]
        rfl
      rw [sumChain, split]
      split
      · rename_i one
        exact ih short' (odd one)
      · rename_i none_
        exact ih short' (even none_)

/-- At the end the bytes are put in order. -/
theorem SumsUp.finish_sum {acc : BitVec 32} {swapped : Bool} {total : Nat}
    (word : acc.toNat < 65536) (sum : OnesEq 256 acc.toNat (turned 256 swapped total)) :
    (if swapped then swapBytesInWord acc else acc).toNat < 65536 ∧
      OnesEq 256 (if swapped then swapBytesInWord acc else acc).toNat total := by
  cases swapped with
  | false => exact ⟨word, sum⟩
  | true =>
      obtain ⟨spec, word'⟩ := swapBytesInWord_spec word
      exact ⟨word', (spec.trans (sum.mul 256)).trans (onesEq_twice byte_base)⟩

theorem SumsUp.empty : SumsUp 0 false [] := ⟨by decide, .refl _ _, rfl⟩

/-- The sum over a chain is that of its bytes in a row. -/
theorem chainSum_spec (short : ∀ q ∈ p, q.data.length ≤ 0x20000) :
    (chainSum p).toNat < 65536 ∧ OnesEq 256 (chainSum p).toNat (dataSum (chainBytes p)) :=
  SumsUp.finish_sum (sumChain_spec short SumsUp.empty).word (sumChain_spec short SumsUp.empty).sum

/-- The checksum of a chain is the one that its bytes would have in a row. -/
theorem inet_chksum_pbuf_flat (short : ∀ q ∈ p, q.data.length ≤ 0xffff)
    (whole : (chainBytes p).length ≤ 0xffff) :
    inetChksumPbuf p = inetChksum dataptr (chainBytes p) := by
  obtain ⟨word, sum⟩ := chainSum_spec fun q member => (short q member).trans (by decide)
  have flat : OnesEq 256 (lwipStandardChksum dataptr (chainBytes p)).toNat _ :=
    lwipStandardChksum_spec dataptr (by omega)
  have kept : ((chainSum p).setWidth 16).toNat = (chainSum p).toNat := Nat.mod_eq_of_lt word
  rw [inetChksumPbuf, inetChksum]
  apply congrArg
  apply BitVec.eq_of_toNat_eq
  rw [kept]
  exact (sum.trans flat.symm).eq word (BitVec.isLt _)

theorem inet_chksum_pbuf_flat_pair :
    inetChksumPbuf [⟨0, [1, 2, 3]⟩, ⟨9, [4, 5]⟩] = inetChksum 5 [1, 2, 3, 4, 5] :=
  have flat : chainBytes [⟨0, [1, 2, 3]⟩, ⟨9, [4, 5]⟩] = [1, 2, 3, 4, 5] := rfl
  flat ▸ inet_chksum_pbuf_flat (by decide) (by decide)

/-! ## The pseudo header -/

/-- The words of the pseudo header. -/
def pseudoSum (src dest : BitVec 32) (proto : BitVec 8) (protoLen : BitVec 16) : Nat :=
  src.toNat % 65536 + src.toNat / 65536 + dest.toNat % 65536 + dest.toNat / 65536 +
    (htons (proto.setWidth 16)).toNat + (htons protoLen).toNat

theorem low_word (w : BitVec 32) : (w &&& 0xffff).toNat = w.toNat % 65536 := by
  have mask : (0xffff : BitVec 32).toNat = 2 ^ 16 - 1 := rfl
  rw [BitVec.toNat_and, mask, Nat.and_two_pow_sub_one_eq_mod]

theorem high_word (w : BitVec 32) : (w >>> 16 &&& 0xffff).toNat = w.toNat / 65536 := by
  have short := w.isLt
  rw [low_word, BitVec.toNat_ushiftRight, Nat.shiftRight_eq_div_pow]
  omega

/-- No carry leaves the sum of a few words. -/
theorem toNat_add_word {acc w : BitVec 32} (bound : Nat) (small : acc.toNat < bound * 65536)
    (word : w.toNat < 65536) (few : bound < 1024) :
    (acc + w).toNat = acc.toNat + w.toNat ∧ (acc + w).toNat < (bound + 1) * 65536 := by
  have total : (acc + w).toNat = acc.toNat + w.toNat := by
    rw [BitVec.toNat_add, Nat.mod_eq_of_lt (by omega)]
  exact ⟨total, by omega⟩

theorem addPseudo_spec {acc : BitVec 32} (src dest : BitVec 32) (proto : BitVec 8)
    (protoLen : BitVec 16) (word : acc.toNat < 65536) :
    OnesEq 256 (~~~ addPseudo acc src dest proto protoLen).toNat
      (acc.toNat + pseudoSum src dest proto protoLen) := by
  have wide (x : BitVec 16) : (x.setWidth 32).toNat = x.toNat := by
    have short := x.isLt
    rw [BitVec.toNat_setWidth]
    omega
  have short (x : BitVec 16) : (x.setWidth 32).toNat < 65536 := by
    rw [wide]
    exact x.isLt
  have low (w : BitVec 32) : (w &&& 0xffff).toNat < 65536 := by
    rw [low_word]
    omega
  have high (w : BitVec 32) : (w >>> 16 &&& 0xffff).toNat < 65536 := by
    have bound := w.isLt
    rw [high_word]
    omega
  obtain ⟨sum₁, small₁⟩ := toNat_add_word 1 (by omega) (low src) (by decide)
  obtain ⟨sum₂, small₂⟩ := toNat_add_word _ small₁ (high src) (by decide)
  obtain ⟨sum₃, small₃⟩ := toNat_add_word _ small₂ (low dest) (by decide)
  obtain ⟨sum₄, small₄⟩ := toNat_add_word _ small₃ (high dest) (by decide)
  obtain ⟨sum₅, small₅⟩ := toNat_add_word _ small₄ (short (htons (proto.setWidth 16))) (by decide)
  obtain ⟨sum₆, -⟩ := toNat_add_word _ small₅ (short (htons protoLen)) (by decide)
  rw [sum₅, sum₄, sum₃, sum₂, sum₁, wide, wide, low_word, high_word, low_word, high_word] at sum₆
  have total : acc.toNat + pseudoSum src dest proto protoLen = acc.toNat + src.toNat % 65536 +
      src.toNat / 65536 + dest.toNat % 65536 + dest.toNat / 65536 +
        (htons (proto.setWidth 16)).toNat + (htons protoLen).toNat := by
    rw [pseudoSum]
    ring
  rw [total, ← sum₆, addPseudo, BitVec.not_not]
  have kept {w : BitVec 32} (small : w.toNat < 65536) : (w.setWidth 16).toNat = w.toNat :=
    Nat.mod_eq_of_lt small
  rw [kept (foldU32t_twice_lt _)]
  exact (foldU32t_spec _).trans (foldU32t_spec _)

/-- The checksum with a pseudo header, of which only the bytes of the chain matter. -/
theorem inetChksumPseudo_spec (src dest : BitVec 32) (proto : BitVec 8) (protoLen : BitVec 16)
    (short : ∀ q ∈ p, q.data.length ≤ 0x20000) :
    OnesEq 256 (~~~ inetChksumPseudo p src dest proto protoLen).toNat
      (dataSum (chainBytes p) + pseudoSum src dest proto protoLen) := by
  obtain ⟨word, sum⟩ := chainSum_spec short
  exact (addPseudo_spec src dest proto protoLen word).trans (sum.add (.refl _ _))

/-! ## Acceptance -/

theorem loadField_toNat (low high : BitVec 8) :
    (loadField low high).toNat = low.toNat + 256 * high.toNat := by
  have lowLt := low.isLt
  have highLt := high.isLt
  rw [loadField, BitVec.toNat_setWidth, loadU16_toNat]
  omega

/-- What is stored in a field is loaded. -/
theorem loadField_fieldBytes (field : BitVec 16) :
    loadField (field.setWidth 8) ((field >>> 8).setWidth 8) = field := by
  have short := field.isLt
  apply BitVec.eq_of_toNat_eq
  rw [loadField_toNat, BitVec.toNat_setWidth, BitVec.toNat_setWidth, BitVec.toNat_ushiftRight,
    Nat.shiftRight_eq_div_pow]
  omega

/-- A word of a packet that begins at an even place. -/
theorem dataSum_word (after : List (BitVec 8)) (low high : BitVec 8)
    (even : before.length % 2 = 0) :
    OnesEq 256 (dataSum (before ++ low :: high :: after))
      (dataSum (before ++ 0 :: 0 :: after) + (loadField low high).toNat) := by
  have still : oddBytes before = false := by
    rw [oddBytes_eq, even]
    rfl
  have whole := dataSum_append before (low :: high :: after)
  have zero := (dataSum_append before (0 :: 0 :: after)).add (.refl 256 (loadField low high).toNat)
  have same : dataSum before + turned 256 (oddBytes before) (dataSum (low :: high :: after)) =
      dataSum before + turned 256 (oddBytes before) (dataSum (0 :: 0 :: after)) +
        (loadField low high).toNat := by
    rw [still, dataSum_cons₂, dataSum_cons₂, loadField_toNat]
    simp [turned]
    ring
  rw [same] at whole
  exact whole.trans zero.symm

/-- A checksum is accepted when the sum is the largest word. -/
theorem accepted_iff {sum : BitVec 16} {total : Nat} (same : OnesEq 256 (~~~ sum).toNat total) :
    sum = 0 ↔ OnesEq 256 total 65535 := by
  have short := sum.isLt
  constructor
  · rintro rfl
    exact same.symm
  · intro full
    have equal := (same.trans full).eq (BitVec.isLt _) (by decide)
    rw [BitVec.toNat_not] at equal
    apply BitVec.eq_of_toNat_eq
    change sum.toNat = 0
    omega

/-- The checksum completes the sum of the rest. -/
theorem completes {sum : BitVec 16} {total : Nat} (same : OnesEq 256 (~~~ sum).toNat total) :
    OnesEq 256 (total + sum.toNat) 65535 := by
  have short := sum.isLt
  have whole := same.symm.add (.refl 256 sum.toNat)
  have full : (~~~ sum).toNat + sum.toNat = 65535 := by
    rw [BitVec.toNat_not]
    omega
  rwa [full] at whole

theorem udpChksum_completes {sum : BitVec 16} {total : Nat}
    (completes : OnesEq 256 (total + sum.toNat) 65535) :
    OnesEq 256 (total + (udpChksum sum).toNat) 65535 := by
  rw [udpChksum]
  split
  · rename_i zero
    rw [zero] at completes
    refine (completes.add (.refl 256 65535)).trans ⟨by decide, by decide⟩
  · exact completes

/-- Two words of one sum. -/
theorem same_word {word word' : BitVec 16}
    (equal : word.toNat ≡ word'.toNat [MOD 256 * 256 - 1]) :
    word = word' ∨ word = 0 ∧ word' = 0xffff ∨ word = 0xffff ∧ word' = 0 := by
  have short := word.isLt
  have short' := word'.isLt
  have cases : word.toNat = word'.toNat ∨ word.toNat = 0 ∧ word'.toNat = 65535 ∨
      word.toNat = 65535 ∧ word'.toNat = 0 := by
    rw [Nat.ModEq] at equal
    omega
  rcases cases with same | ⟨zero, full⟩ | ⟨full, zero⟩
  · exact .inl (BitVec.eq_of_toNat_eq same)
  · exact .inr (.inl ⟨BitVec.eq_of_toNat_eq zero, BitVec.eq_of_toNat_eq full⟩)
  · exact .inr (.inr ⟨BitVec.eq_of_toNat_eq full, BitVec.eq_of_toNat_eq zero⟩)

/-- A packet with the checksum that has been computed for it is accepted, however it is cut. -/
theorem inet_chksum_pseudo_accepts (even : before.length % 2 = 0)
    (short : ∀ q ∈ p, q.data.length ≤ 0xffff) (short' : ∀ q ∈ p', q.data.length ≤ 0xffff)
    (computed : chainBytes p = before ++ 0 :: 0 :: after)
    (carried : chksum = inetChksumPseudo p src dest proto protoLen ∨
      chksum = udpChksum (inetChksumPseudo p src dest proto protoLen))
    (received : chainBytes p' = before ++ (fieldBytes chksum ++ after)) :
    inetChksumPseudo p' src dest proto protoLen = 0 := by
  have long (q : PlacedPbuf) (member : q ∈ p) := (short q member).trans (by decide : _ ≤ 0x20000)
  have long' (q : PlacedPbuf) (member : q ∈ p') :=
    (short' q member).trans (by decide : _ ≤ 0x20000)
  have whole := completes (inetChksumPseudo_spec src dest proto protoLen long)
  have full : OnesEq 256 (dataSum (chainBytes p) + pseudoSum src dest proto protoLen +
      chksum.toNat) 65535 := by
    rcases carried with rfl | rfl
    · exact whole
    · exact udpChksum_completes whole
  have word := dataSum_word after (chksum.setWidth 8) ((chksum >>> 8).setWidth 8) even
  rw [loadField_fieldBytes, ← computed] at word
  rw [accepted_iff (inetChksumPseudo_spec src dest proto protoLen long'), received]
  refine (word.add (.refl 256 (pseudoSum src dest proto protoLen))).trans ?_
  rwa [Nat.add_right_comm] at full

theorem inet_chksum_pseudo_accepts_cut :
    inetChksumPseudo [⟨3, [0x12]⟩, ⟨0, [0x34, 0x83, 0xb2, 0x56]⟩] 0x0200000a 0x0100000a 17 5 = 0 :=
  @inet_chksum_pseudo_accepts [⟨0, [0x12, 0x34, 0, 0, 0x56]⟩] _ [0x12, 0x34] [0x56] _ _ _ _ _ rfl
    (by decide) (by decide) rfl (.inl rfl) (by decide)

/-- A packet that is accepted with other bytes in one of its words has the other word of the same
sum there: nothing but zero and its complement are mistaken for each other. -/
theorem inet_chksum_pseudo_notices {low high low' high' : BitVec 8} (even : before.length % 2 = 0)
    (short : ∀ q ∈ p, q.data.length ≤ 0xffff) (short' : ∀ q ∈ p', q.data.length ≤ 0xffff)
    (sent : chainBytes p = before ++ low :: high :: after)
    (received : chainBytes p' = before ++ low' :: high' :: after)
    (valid : inetChksumPseudo p src dest proto protoLen = 0)
    (accepted : inetChksumPseudo p' src dest proto protoLen = 0) :
    loadField low high = loadField low' high' ∨
      loadField low high = 0 ∧ loadField low' high' = 0xffff ∨
        loadField low high = 0xffff ∧ loadField low' high' = 0 := by
  have long (q : PlacedPbuf) (member : q ∈ p) := (short q member).trans (by decide : _ ≤ 0x20000)
  have long' (q : PlacedPbuf) (member : q ∈ p') :=
    (short' q member).trans (by decide : _ ≤ 0x20000)
  rw [accepted_iff (inetChksumPseudo_spec src dest proto protoLen long), sent] at valid
  rw [accepted_iff (inetChksumPseudo_spec src dest proto protoLen long'), received] at accepted
  have word := (dataSum_word after low high even).add
    (.refl 256 (pseudoSum src dest proto protoLen))
  have word' := (dataSum_word after low' high' even).add
    (.refl 256 (pseudoSum src dest proto protoLen))
  have equal := ((word.symm.trans valid).trans (accepted.symm.trans word')).modEq
  rw [Nat.add_right_comm, Nat.add_right_comm (dataSum _) (loadField low' high').toNat] at equal
  exact same_word (Nat.ModEq.add_left_cancel' _ equal)

theorem inet_chksum_pseudo_notices_complement :
    loadField 0 0 = loadField 0xff 0xff ∨ loadField 0 0 = 0 ∧ loadField 0xff 0xff = 0xffff ∨
      loadField 0 0 = 0xffff ∧ loadField 0xff 0xff = 0 :=
  @inet_chksum_pseudo_notices [⟨0, [0, 0, 0xeb, 0xe7]⟩] [⟨0, [0xff, 0xff, 0xeb, 0xe7]⟩] []
    [0xeb, 0xe7] 0x0200000a 0x0100000a 17 4 _ _ _ _ rfl (by decide) (by decide) rfl rfl
    (by decide) (by decide)

/-! ## A part of a chain -/

/-- No bytes are left to sum up. -/
theorem sumChainPartial_zero (acc : BitVec 32) (swapped : Bool) (p : List PlacedPbuf) :
    sumChainPartial acc swapped 0 p = some (acc, swapped) := by
  cases p with
  | nil => rfl
  | cons q rest => rw [sumChainPartial, if_pos rfl]

theorem sumChainPartial_spec {acc acc' : BitVec 32} {swapped swapped' : Bool}
    {done : List (BitVec 8)} {chksumLen : Nat} (short : ∀ q ∈ p, q.data.length ≤ 0x20000)
    (sums : SumsUp acc swapped done)
    (returned : sumChainPartial acc swapped chksumLen p = some (acc', swapped')) :
    acc'.toNat < 65536 ∧
      OnesEq 256 acc'.toNat (turned 256 swapped'
        (dataSum (done ++ (chainBytes p).take chksumLen))) := by
  induction p generalizing acc swapped done chksumLen with
  | nil =>
      cases returned
      simpa [chainBytes] using And.intro sums.word sums.sum
  | cons q rest ih =>
      have short' (q' : PlacedPbuf) (member : q' ∈ rest) := short q' (List.mem_cons_of_mem q member)
      have bytes : chainBytes (q :: rest) = q.data ++ chainBytes rest := List.flatMap_cons
      rw [sumChainPartial] at returned
      split at returned
      · rename_i none_
        cases returned
        rw [none_, List.take_zero, List.append_nil]
        exact ⟨sums.word, sums.sum⟩
      · have long : (q.data.take chksumLen).length ≤ 0x20000 :=
          (List.length_take_le' chksumLen q.data).trans (short q List.mem_cons_self)
        obtain ⟨word, sum⟩ := sums.next q.payload long
        by_cases inside : q.data.length ≤ chksumLen
        · -- the whole pbuf counts
          have all : q.data.take chksumLen = q.data := List.take_of_length_le inside
          rw [all] at word sum
          obtain ⟨odd, even⟩ := SumsUp.turn sums.swapped word sum
          have split : done ++ (chainBytes (q :: rest)).take chksumLen =
              done ++ q.data ++ (chainBytes rest).take (chksumLen - q.data.length) := by
            rw [bytes, List.take_append, all, List.append_assoc]
          rw [split]
          simp only [all] at returned
          split at returned
          · split at returned
            · rename_i one
              exact ih short' (odd one) returned
            · rename_i none_
              exact ih short' (even none_) returned
          · cases returned
        · -- the loop ends in this pbuf
          have ended : chksumLen - (q.data.take chksumLen).length = 0 := by
            rw [List.length_take]
            omega
          have part : (chainBytes (q :: rest)).take chksumLen = q.data.take chksumLen := by
            rw [bytes, List.take_append_of_le_length (Nat.le_of_not_le inside)]
          rw [part]
          have few : 0 < 0x7fff := by decide
          simp only [ended, sumChainPartial_zero, few, if_true] at returned
          split at returned
          · obtain ⟨spec, word'⟩ := swapBytesInWord_spec word
            cases returned
            refine ⟨word', (spec.trans (sum.mul 256)).trans ?_⟩
            have twice := turned_turned byte_base true swapped
              (dataSum (done ++ q.data.take chksumLen))
            rwa [Bool.true_xor] at twice
          · cases returned
            exact ⟨word, sum⟩

/-- The checksum over a part of a chain is that of a chain of the same bytes. -/
theorem inet_chksum_pseudo_partial_flat {chksumLen sum : BitVec 16}
    (short : ∀ q ∈ p, q.data.length ≤ 0xffff) (short' : ∀ q ∈ p', q.data.length ≤ 0xffff)
    (covered : chainBytes p' = (chainBytes p).take chksumLen.toNat)
    (returned : inetChksumPseudoPartial p src dest proto protoLen chksumLen = some sum) :
    sum = inetChksumPseudo p' src dest proto protoLen := by
  have long (q : PlacedPbuf) (member : q ∈ p) := (short q member).trans (by decide : _ ≤ 0x20000)
  have long' (q : PlacedPbuf) (member : q ∈ p') :=
    (short' q member).trans (by decide : _ ≤ 0x20000)
  rw [inetChksumPseudoPartial, Option.map_eq_some_iff] at returned
  obtain ⟨⟨acc, swapped⟩, summed, rfl⟩ := returned
  obtain ⟨word, same⟩ := sumChainPartial_spec long SumsUp.empty summed
  rw [List.nil_append, ← covered] at same
  obtain ⟨word', same'⟩ := SumsUp.finish_sum word same
  have left := (addPseudo_spec src dest proto protoLen word').trans (same'.add (.refl 256 _))
  have right := inetChksumPseudo_spec src dest proto protoLen long'
  have equal := (left.trans right.symm).eq (BitVec.isLt _) (BitVec.isLt _)
  exact BitVec.not_inj.mp (BitVec.eq_of_toNat_eq equal)

theorem inet_chksum_pseudo_partial_flat_three :
    ∃ sum, inetChksumPseudoPartial [⟨0, [1]⟩, ⟨0, [2, 3, 4]⟩] 0x0200000a 0x0100000a 136 4 3 =
      some sum ∧ sum = inetChksumPseudo [⟨0, [1, 2, 3]⟩] 0x0200000a 0x0100000a 136 4 :=
  ⟨_, rfl, @inet_chksum_pseudo_partial_flat [⟨0, [1]⟩, ⟨0, [2, 3, 4]⟩] _ _ _ _ _ 3 _
    (by decide) (by decide) rfl rfl⟩

/-! ## Packets that are changed -/

theorem dataSum_fieldBytes (field : BitVec 16) (rest : List (BitVec 8)) :
    dataSum (fieldBytes field ++ rest) = field.toNat + dataSum rest := by
  have loaded := loadField_toNat (field.setWidth 8) ((field >>> 8).setWidth 8)
  rw [loadField_fieldBytes] at loaded
  rw [loaded]
  rfl

theorem dataSum_eq_zero : dataSum data = 0 ↔ ∀ byte ∈ data, byte = 0 := by
  rw [dataSum, onesSum_eq_zero byte_base]
  simp [← BitVec.toNat_inj]

/-- The largest word, and everything of its sum. -/
theorem onesEq_full_iff {total : Nat} :
    OnesEq 256 total 65535 ↔ total ≡ 0 [MOD 256 * 256 - 1] ∧ total ≠ 0 := by
  have full : 65535 ≡ 0 [MOD 256 * 256 - 1] := by decide
  constructor
  · rintro ⟨modEq, zero⟩
    exact ⟨modEq.trans full, fun none_ => absurd (zero.mp none_) (by decide)⟩
  · rintro ⟨modEq, positive⟩
    exact ⟨modEq.trans full.symm, fun none_ => (positive none_).elim, fun none_ =>
      absurd none_ (by decide)⟩

/-- An adjusted checksum makes up for what the packet loses. -/
theorem adjustChksum_modEq (chksum host : BitVec 16) :
    (adjustChksum chksum host).toNat ≡ chksum.toNat + (htons host).toNat
      [MOD 256 * 256 - 1] := by
  have short := chksum.isLt
  have hostLt := host.isLt
  have limit : (htons (0xffff - host)).toNat = 65535 - (htons host).toNat := by
    have complement : (0xffff - host).toNat = 65535 - host.toNat := by
      rw [BitVec.toNat_sub]
      change (2 ^ 16 - host.toNat + 65535) % 2 ^ 16 = 65535 - host.toNat
      omega
    rw [htons_toNat, htons_toNat, complement]
    omega
  have hostLt' := (htons host).isLt
  rw [adjustChksum]
  by_cases carries : chksum ≥ htons (0xffff - host)
  · have around : 65535 ≤ chksum.toNat + (htons host).toNat := by
      have least : (htons (0xffff - host)).toNat ≤ chksum.toNat := carries
      omega
    have wrapped : (chksum + htons host + 1).toNat =
        chksum.toNat + (htons host).toNat - 65535 := by
      rw [BitVec.toNat_add, BitVec.toNat_add]
      change ((chksum.toNat + (htons host).toNat) % 2 ^ 16 + 1) % 2 ^ 16 = _
      omega
    rw [if_pos carries, wrapped, Nat.ModEq]
    omega
  · have below : chksum.toNat + (htons host).toNat < 65535 := by
      have less : chksum.toNat < (htons (0xffff - host)).toNat := BitVec.not_le.mp carries
      omega
    rw [if_neg carries, BitVec.toNat_add, Nat.mod_eq_of_lt (by omega)]

theorem inetChksumPbuf_accepted_iff (short : ∀ q ∈ p, q.data.length ≤ 0xffff) :
    inetChksumPbuf p = 0 ↔ OnesEq 256 (dataSum (chainBytes p)) 65535 := by
  obtain ⟨word, sum⟩ := chainSum_spec fun q member => (short q member).trans (by decide)
  apply accepted_iff
  have kept : ((chainSum p).setWidth 16).toNat = (chainSum p).toNat := Nat.mod_eq_of_lt word
  rw [inetChksumPbuf, BitVec.not_not, kept]
  exact sum

theorem inetChksum_accepted_iff (short : data.length ≤ 0xffff) :
    inetChksum dataptr data = 0 ↔ OnesEq 256 (dataSum data) 65535 := by
  apply accepted_iff
  rw [inetChksum, BitVec.not_not]
  exact lwipStandardChksum_spec dataptr (by omega)

/-- The answer to an echo request has the sum of the request. -/
theorem icmpEchoReply_modEq {reply : List (BitVec 8)} (answered : icmpEchoReply data = some reply) :
    dataSum reply ≡ dataSum data [MOD 256 * 256 - 1] := by
  rcases data with _ | ⟨type, _ | ⟨code, _ | ⟨c0, _ | ⟨c1, rest⟩⟩⟩⟩
  case cons.cons.cons.cons =>
    rw [icmpEchoReply] at answered
    split at answered
    · rename_i echo
      obtain rfl : _ = reply := Option.some.inj answered
      have adjusted := (adjustChksum_modEq (loadField c0 c1) (8 <<< 8)).add_right
        (256 * code.toNat + dataSum rest)
      have host : (htons (8 <<< 8)).toNat = 8 := by decide
      have type' : type.toNat = 8 := by
        rw [echo]
        rfl
      rw [host, loadField_toNat] at adjusted
      rw [dataSum_cons₂, dataSum_fieldBytes, dataSum_cons₂, dataSum_cons₂, type']
      convert adjusted using 1
      · change 0 + 256 * code.toNat + _ = _
        ring
      · ring
    · cases answered
  all_goals cases answered

/-- The answer to a valid echo request passes the same check, unless it consists of zeros: its sum
is then zero, which the checksum does not stand for. -/
theorem icmp_echo_reply_accepted_iff (short : ∀ q ∈ p, q.data.length ≤ 0xffff)
    (short' : ∀ q ∈ p', q.data.length ≤ 0xffff)
    (answered : icmpEchoReply (chainBytes p) = some (chainBytes p'))
    (valid : inetChksumPbuf p = 0) :
    inetChksumPbuf p' = 0 ↔ ∃ byte ∈ chainBytes p', byte ≠ 0 := by
  rw [inetChksumPbuf_accepted_iff short, onesEq_full_iff] at valid
  rw [inetChksumPbuf_accepted_iff short', onesEq_full_iff]
  have same := (icmpEchoReply_modEq answered).trans valid.1
  rw [and_iff_right same, Ne, dataSum_eq_zero]
  push Not
  rfl

theorem icmp_echo_reply_accepted_one :
    inetChksumPbuf [⟨0, [0, 0, 0xff, 0xfe, 0, 1]⟩] = 0 ↔
      ∃ byte ∈ ([0, 0, 0xff, 0xfe, 0, 1] : List (BitVec 8)), byte ≠ 0 :=
  icmp_echo_reply_accepted_iff (p := [⟨0, [8, 0, 0xf7, 0xfe, 0, 1]⟩]) (by decide) (by decide)
    (by decide) (by decide)

/-- A request of zeros behind its type and checksum. -/
example : inetChksumPbuf [⟨0, [8, 0, 0xf7, 0xff, 0, 0, 0, 0]⟩] = 0 ∧
    icmpEchoReply [8, 0, 0xf7, 0xff, 0, 0, 0, 0] = some [0, 0, 0, 0, 0, 0, 0, 0] ∧
      inetChksumPbuf [⟨0, [0, 0, 0, 0, 0, 0, 0, 0]⟩] = 0xffff := by decide

/-- What a forwarded header keeps, and what it does not. -/
theorem ipForwardHeader_sums {header forwarded : List (BitVec 8)}
    (sent : ipForwardHeader header = some forwarded) :
    ∃ (others : Nat) (ttl : BitVec 8) (chksum : BitVec 16), header[8]? = some ttl ∧ ttl - 1 ≠ 0 ∧
      dataSum header = others + ttl.toNat + chksum.toNat ∧
      dataSum forwarded = others + (ttl - 1).toNat + (adjustChksum chksum 0x100).toNat ∧
      forwarded.length = header.length := by
  rcases header with _ | ⟨b0, _ | ⟨b1, _ | ⟨b2, _ | ⟨b3, _ | ⟨b4, _ | ⟨b5, _ | ⟨b6, _ | ⟨b7,
    _ | ⟨ttl, _ | ⟨proto, _ | ⟨c0, _ | ⟨c1, rest⟩⟩⟩⟩⟩⟩⟩⟩⟩⟩⟩⟩
  case cons.cons.cons.cons.cons.cons.cons.cons.cons.cons.cons.cons =>
    rw [ipForwardHeader] at sent
    split at sent
    · cases sent
    · rename_i lives
      obtain rfl : _ = forwarded := Option.some.inj sent
      refine ⟨dataSum [b0, b1, b2, b3, b4, b5, b6, b7] + 256 * proto.toNat + dataSum rest, ttl,
        loadField c0 c1, rfl, lives, ?_, ?_, by simp [fieldBytes]⟩
      · simp only [dataSum_cons₂, loadField_toNat]
        simp [dataSum]
        ring
      · simp only [dataSum_cons₂, dataSum_fieldBytes]
        simp [dataSum]
        ring
  all_goals cases sent

/-- The header of a forwarded packet passes the check of the next hop, unless the packet has come
with no time to live: it then goes on with the longest. -/
theorem ip_forward_accepted_iff {header forwarded : List (BitVec 8)} (dataptr' : Nat)
    (short : header.length ≤ 60) (sent : ipForwardHeader header = some forwarded)
    (valid : inetChksum dataptr header = 0) :
    inetChksum dataptr' forwarded = 0 ↔ header[8]? ≠ some 0 := by
  obtain ⟨others, ttl, chksum, read, lives, before, behind, long⟩ := ipForwardHeader_sums sent
  rw [inetChksum_accepted_iff (by omega), onesEq_full_iff, before] at valid
  rw [inetChksum_accepted_iff (by omega), onesEq_full_iff, behind, read]
  have adjusted := adjustChksum_modEq chksum 0x100
  have host : (htons 0x100).toNat = 1 := by decide
  rw [host] at adjusted
  have ttlLt := ttl.isLt
  have counted : (ttl - 1).toNat = (ttl.toNat + 255) % 256 := by
    rw [BitVec.toNat_sub, Nat.add_comm]
    rfl
  have lives' : (ttl - 1).toNat ≠ 0 := fun none_ => lives (BitVec.eq_of_toNat_eq none_)
  have same : some ttl ≠ some 0 ↔ ttl.toNat ≠ 0 := by
    rw [Ne, Option.some.injEq, ← BitVec.toNat_inj]
    rfl
  rw [same, and_iff_left (by omega)]
  rw [Nat.ModEq] at adjusted valid ⊢
  omega

theorem ip_forward_accepted_header :
    inetChksum 0 [0x45, 0, 0, 20, 0, 0, 0, 0, 63, 17, 0x66, 0xd7, 10, 0, 0, 1, 10, 0, 1, 2] = 0 ↔
      some (64 : BitVec 8) ≠ some 0 :=
  @ip_forward_accepted_iff 0
    [0x45, 0, 0, 20, 0, 0, 0, 0, 64, 17, 0x65, 0xd7, 10, 0, 0, 1, 10, 0, 1, 2] _ 0
    (by decide) (by decide) (by decide)

end RtThread.Lwip
