import Mathlib

/-!
# Chains of packet buffers

`struct pbuf` and the functions of `pbuf.c` that change the lengths of a chain. A chain is the list
of its pbufs, each with the bytes at its `payload`. `LWIP_ASSERT` does not return when its condition
does not hold, which is `none` here.
-/

namespace RtThread.Lwip

/-- A pbuf. The number of bytes at `payload` is `len`. -/
structure Pbuf where
  payload : List (BitVec 8)
  totLen : BitVec 16
deriving DecidableEq, Repr

/-- `p->len`. -/
def Pbuf.len (p : Pbuf) : BitVec 16 := BitVec.ofNat 16 p.payload.length

/-- The pbufs from one on, along `next`. -/
abbrev PbufChain := List Pbuf

/-- The bytes of a packet. -/
def PbufChain.bytes (chain : PbufChain) : List (BitVec 8) := chain.flatMap Pbuf.payload

@[simp] theorem PbufChain.bytes_nil : PbufChain.bytes [] = [] := rfl

@[simp] theorem PbufChain.bytes_cons (p : Pbuf) (rest : PbufChain) :
    PbufChain.bytes (p :: rest) = p.payload ++ PbufChain.bytes rest := rfl

@[simp] theorem PbufChain.bytes_append (chain chain' : PbufChain) :
    PbufChain.bytes (chain ++ chain') = PbufChain.bytes chain ++ PbufChain.bytes chain' :=
  List.flatMap_append

/-- `p->tot_len` of the first pbuf. -/
def PbufChain.totLen : PbufChain → BitVec 16
  | [] => 0
  | p :: _ => p.totLen

/-- The loop of `pbuf_realloc` from `q` on, and what follows it. -/
def pbufReallocLoop (grow remLen : BitVec 16) : PbufChain → Option PbufChain
  | [] => none
  | q :: rest =>
      if remLen > q.len then
        (pbufReallocLoop grow (remLen - q.len) rest).map
          (⟨q.payload, q.totLen + grow⟩ :: ·)
      else some [⟨q.payload.take remLen.toNat, remLen⟩]

def pbufRealloc (p : PbufChain) (newLen : BitVec 16) : Option PbufChain :=
  if newLen ≥ p.totLen then some p else pbufReallocLoop (newLen - p.totLen) newLen p

/-- `pbuf_header` with a negative increment, which hides `magnitude` bytes of the first pbuf. -/
def pbufHeaderHide (magnitude : BitVec 16) : PbufChain → Option PbufChain
  | [] => none
  | p :: rest =>
      if magnitude ≤ p.len then
        some (⟨p.payload.drop magnitude.toNat, p.totLen - magnitude⟩ :: rest)
      else none

/-- The loop of `pbuf_cat` along the first chain, and what follows it. -/
def pbufCat : PbufChain → PbufChain → Option PbufChain
  | [], _ => none
  | [p], t => if p.totLen = p.len then some (⟨p.payload, p.totLen + t.totLen⟩ :: t) else none
  | p :: q :: rest, t =>
      (pbufCat (q :: rest) t).map (⟨p.payload, p.totLen + t.totLen⟩ :: ·)

/-- `pbuf_clen`, which counts in eight bits. -/
def pbufClen (p : PbufChain) : BitVec 8 := BitVec.ofNat 8 p.length

namespace PbufChain

/-- Each `tot_len` counts the bytes from its pbuf to the end of the chain. -/
def Sound : PbufChain → Prop
  | [] => True
  | p :: rest => p.totLen = BitVec.ofNat 16 (bytes (p :: rest)).length ∧ Sound rest

theorem Sound.totLen {chain : PbufChain} (sound : chain.Sound) :
    chain.totLen = BitVec.ofNat 16 chain.bytes.length := by
  cases chain with
  | nil => rfl
  | cons p rest => exact sound.1

theorem Sound.totLen_toNat {chain : PbufChain} (sound : chain.Sound)
    (short : chain.bytes.length < 2 ^ 16) : chain.totLen.toNat = chain.bytes.length := by
  rw [sound.totLen, BitVec.toNat_ofNat, Nat.mod_eq_of_lt short]

end PbufChain

theorem Pbuf.len_toNat {p : Pbuf} {rest : PbufChain}
    (short : (PbufChain.bytes (p :: rest)).length < 2 ^ 16) :
    p.len.toNat = p.payload.length := by
  rw [PbufChain.bytes_cons, List.length_append] at short
  rw [Pbuf.len, BitVec.toNat_ofNat, Nat.mod_eq_of_lt (by omega)]

/-- The loop of `pbuf_realloc` cuts the chain behind the bytes that remain. -/
theorem pbufReallocLoop_spec {grow remLen : BitVec 16} {chain : PbufChain} (sound : chain.Sound)
    (some_ : chain ≠ []) (short : chain.bytes.length < 2 ^ 16)
    (below : remLen.toNat ≤ chain.bytes.length)
    (grows : grow = remLen - BitVec.ofNat 16 chain.bytes.length) :
    ∃ chain', pbufReallocLoop grow remLen chain = some chain' ∧ chain'.Sound ∧ chain' ≠ [] ∧
      chain'.bytes = chain.bytes.take remLen.toNat := by
  induction chain generalizing remLen with
  | nil => exact absurd rfl some_
  | cons q rest ih =>
      have len := Pbuf.len_toNat short
      rw [PbufChain.bytes_cons, List.length_append] at short below
      rw [pbufReallocLoop]
      split
      · rename_i more
        rw [gt_iff_lt, BitVec.lt_def, len] at more
        have left : (remLen - q.len).toNat = remLen.toNat - q.payload.length := by
          rw [BitVec.toNat_sub_of_le (by rw [BitVec.le_def]; omega), len]
        have filled : rest ≠ [] := by
          rintro rfl
          simp at below
          omega
        have same : grow = remLen - q.len - BitVec.ofNat 16 (PbufChain.bytes rest).length := by
          rw [grows, PbufChain.bytes_cons, List.length_append, BitVec.ofNat_add, Pbuf.len,
            sub_add_eq_sub_sub]
        obtain ⟨chain', cut, sound', -, bytes⟩ := ih sound.2 filled (by omega) (by omega) same
        refine ⟨⟨q.payload, q.totLen + grow⟩ :: chain', by rw [cut]; rfl, ⟨?_, sound'⟩, by simp, ?_⟩
        · rw [sound.1, grows, add_sub_cancel]
          rw [PbufChain.bytes_cons, bytes, List.length_append, List.length_take, left,
            Nat.min_eq_left (by omega), Nat.add_sub_cancel' more.le, BitVec.ofNat_toNat,
            BitVec.setWidth_eq]
        · rw [PbufChain.bytes_cons, PbufChain.bytes_cons, bytes, left, List.take_append,
            List.take_of_length_le more.le]
      · rename_i few
        rw [gt_iff_lt, BitVec.lt_def, len, Nat.not_lt] at few
        refine ⟨_, rfl, ⟨?_, trivial⟩, by simp, ?_⟩
        · rw [PbufChain.bytes_cons, PbufChain.bytes_nil, List.append_nil, List.length_take,
            Nat.min_eq_left few, BitVec.ofNat_toNat, BitVec.setWidth_eq]
        · rw [PbufChain.bytes_cons, PbufChain.bytes_nil, List.append_nil, PbufChain.bytes_cons,
            List.take_append_of_le_length few]

/-- `pbuf_realloc` keeps the first bytes of a packet. -/
theorem pbufRealloc_spec (newLen : BitVec 16) {chain : PbufChain} (sound : chain.Sound)
    (some_ : chain ≠ []) (short : chain.bytes.length < 2 ^ 16) :
    ∃ chain', pbufRealloc chain newLen = some chain' ∧ chain'.Sound ∧ chain' ≠ [] ∧
      chain'.bytes = chain.bytes.take newLen.toNat := by
  have totLen := sound.totLen_toNat short
  rw [pbufRealloc]
  split
  · rename_i whole
    rw [ge_iff_le, BitVec.le_def, totLen] at whole
    exact ⟨chain, rfl, sound, some_, (List.take_of_length_le whole).symm⟩
  · rename_i shorter
    rw [ge_iff_le, BitVec.le_def, totLen, Nat.not_le] at shorter
    exact pbufReallocLoop_spec sound some_ short shorter.le (by rw [sound.totLen])

/-- `pbuf_header` hides the first bytes of a packet. -/
theorem pbufHeaderHide_spec {magnitude : BitVec 16} {p : Pbuf} {rest : PbufChain}
    (sound : PbufChain.Sound (p :: rest)) (short : (PbufChain.bytes (p :: rest)).length < 2 ^ 16)
    (room : magnitude.toNat ≤ p.payload.length) :
    ∃ chain', pbufHeaderHide magnitude (p :: rest) = some chain' ∧ chain'.Sound ∧ chain' ≠ [] ∧
      chain'.bytes = (PbufChain.bytes (p :: rest)).drop magnitude.toNat := by
  have len := Pbuf.len_toNat short
  have fits : magnitude ≤ p.len := by
    rw [BitVec.le_def, len]
    exact room
  refine ⟨_, if_pos fits, ⟨?_, sound.2⟩, by simp, ?_⟩
  · rw [sound.1, PbufChain.bytes_cons, PbufChain.bytes_cons, List.length_append, List.length_append,
      List.length_drop]
    apply BitVec.eq_of_toNat_eq
    rw [PbufChain.bytes_cons, List.length_append] at short
    rw [BitVec.toNat_sub_of_le, BitVec.toNat_ofNat, BitVec.toNat_ofNat, Nat.mod_eq_of_lt short,
      Nat.mod_eq_of_lt] <;> try rw [BitVec.le_def, BitVec.toNat_ofNat, Nat.mod_eq_of_lt short]
    all_goals omega
  · rw [PbufChain.bytes_cons, PbufChain.bytes_cons, List.drop_append_of_le_length room]

/-- `pbuf_cat` puts the bytes of one packet behind those of another. -/
theorem pbufCat_spec {h t : PbufChain} (soundH : h.Sound) (soundT : t.Sound) (some_ : h ≠ []) :
    ∃ chain, pbufCat h t = some chain ∧ chain.Sound ∧ chain.bytes = h.bytes ++ t.bytes := by
  induction h with
  | nil => exact absurd rfl some_
  | cons p rest ih =>
      have sum : p.totLen + t.totLen =
          BitVec.ofNat 16 (PbufChain.bytes (p :: rest) ++ t.bytes).length := by
        rw [soundH.1, soundT.totLen, List.length_append, BitVec.ofNat_add]
      cases rest with
      | nil =>
          have last : p.totLen = p.len := by
            rw [soundH.1, Pbuf.len, PbufChain.bytes_cons, PbufChain.bytes_nil, List.append_nil]
          refine ⟨⟨p.payload, p.totLen + t.totLen⟩ :: t, if_pos last, ⟨?_, soundT⟩, ?_⟩
          · simpa using sum
          · simp
      | cons q rest =>
          obtain ⟨chain, cat, sound, bytes⟩ := ih soundH.2 (by simp)
          refine ⟨⟨p.payload, p.totLen + t.totLen⟩ :: chain, ?_, ⟨?_, sound⟩, ?_⟩
          · rw [pbufCat, cat]
            rfl
          · refine sum.trans ?_
            simp only [PbufChain.bytes_cons, bytes, List.append_assoc]
          · rw [PbufChain.bytes_cons, PbufChain.bytes_cons, bytes, List.append_assoc]

end RtThread.Lwip
