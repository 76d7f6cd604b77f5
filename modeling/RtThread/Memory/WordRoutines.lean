import Mathlib

/-!
# `rt_memset` and `rt_memcpy`

Without `RT_TINY_SIZE` the two routines of `kservice.c` go by words where they can, and with it by
bytes. Memory is little-endian; addresses and counts wrap around at 2^32. Each loop is a function
that ends because its count becomes smaller.
-/

namespace RtThread

/-- A byte at each address. -/
abbrev ByteMemory := BitVec 32 → BitVec 8

namespace ByteMemory

def storeByte (memory : ByteMemory) (address : BitVec 32) (byte : BitVec 8) : ByteMemory :=
  Function.update memory address byte

def storeWord (memory : ByteMemory) (address word : BitVec 32) : ByteMemory :=
  let memory := memory.storeByte address (word.extractLsb' 0 8)
  let memory := memory.storeByte (address + 1) (word.extractLsb' 8 8)
  let memory := memory.storeByte (address + 2) (word.extractLsb' 16 8)
  memory.storeByte (address + 3) (word.extractLsb' 24 8)

def loadWord (memory : ByteMemory) (address : BitVec 32) : BitVec 32 :=
  memory (address + 3) ++ memory (address + 2) ++ memory (address + 1) ++ memory address

/-! ## `rt_memset` -/

/-- `while (count--) *m++ = d`. -/
def setBytes (memory : ByteMemory) (d : BitVec 8) (m count : BitVec 32) : ByteMemory :=
  if count = 0 then memory else setBytes (memory.storeByte m d) d (m + 1) (count - 1)
termination_by count.toNat
decreasing_by bv_omega

/-- The loop that writes four words, and where it leaves `aligned_addr` and `count`. -/
def setBlocks (memory : ByteMemory) (buffer alignedAddr count : BitVec 32) :
    ByteMemory × BitVec 32 × BitVec 32 :=
  if count < 16 then (memory, alignedAddr, count)
  else
    let memory := memory.storeWord alignedAddr buffer
    let memory := memory.storeWord (alignedAddr + 4) buffer
    let memory := memory.storeWord (alignedAddr + 8) buffer
    let memory := memory.storeWord (alignedAddr + 12) buffer
    setBlocks memory buffer (alignedAddr + 16) (count - 16)
termination_by count.toNat
decreasing_by bv_omega

def setWords (memory : ByteMemory) (buffer alignedAddr count : BitVec 32) :
    ByteMemory × BitVec 32 × BitVec 32 :=
  if count < 4 then (memory, alignedAddr, count)
  else setWords (memory.storeWord alignedAddr buffer) buffer (alignedAddr + 4) (count - 4)
termination_by count.toNat
decreasing_by bv_omega

/-- `d` in each byte of a word. -/
def fill (d : BitVec 32) : BitVec 32 :=
  let buffer := (d <<< 8) ||| d
  buffer ||| (buffer <<< 16)

/-- The memory, and the pointer that is returned. -/
def rtMemset (memory : ByteMemory) (s c count : BitVec 32) : ByteMemory × BitVec 32 :=
  let d := c &&& 0xff
  if ¬ count < 4 ∧ s &&& 3 = 0 then
    let (memory, alignedAddr, count) := memory.setBlocks (fill d) s count
    let (memory, m, count) := memory.setWords (fill d) alignedAddr count
    (memory.setBytes (d.setWidth 8) m count, s)
  else (memory.setBytes (d.setWidth 8) s count, s)

/-- `rt_memset` with `RT_TINY_SIZE`. -/
def rtMemsetTiny (memory : ByteMemory) (s c count : BitVec 32) : ByteMemory × BitVec 32 :=
  (memory.setBytes (c.setWidth 8) s count, s)

/-! ## `rt_memcpy` -/

/-- `while (len--) *dst_ptr++ = *src_ptr++`. -/
def copyBytes (memory : ByteMemory) (dstPtr srcPtr len : BitVec 32) : ByteMemory :=
  if len = 0 then memory
  else copyBytes (memory.storeByte dstPtr (memory srcPtr)) (dstPtr + 1) (srcPtr + 1) (len - 1)
termination_by len.toNat
decreasing_by bv_omega

/-- `*aligned_dst++ = *aligned_src++`. -/
def copyWord (memory : ByteMemory) (alignedDst alignedSrc : BitVec 32) : ByteMemory :=
  memory.storeWord alignedDst (memory.loadWord alignedSrc)

/-- The loop that copies four words; `len` is an `int`, and the comparison is unsigned. -/
def copyBlocks (memory : ByteMemory) (alignedDst alignedSrc len : BitVec 32) :
    ByteMemory × BitVec 32 × BitVec 32 × BitVec 32 :=
  if len < 16 then (memory, alignedDst, alignedSrc, len)
  else
    let memory := memory.copyWord alignedDst alignedSrc
    let memory := memory.copyWord (alignedDst + 4) (alignedSrc + 4)
    let memory := memory.copyWord (alignedDst + 8) (alignedSrc + 8)
    let memory := memory.copyWord (alignedDst + 12) (alignedSrc + 12)
    copyBlocks memory (alignedDst + 16) (alignedSrc + 16) (len - 16)
termination_by len.toNat
decreasing_by bv_omega

def copyWords (memory : ByteMemory) (alignedDst alignedSrc len : BitVec 32) :
    ByteMemory × BitVec 32 × BitVec 32 × BitVec 32 :=
  if len < 4 then (memory, alignedDst, alignedSrc, len)
  else copyWords (memory.copyWord alignedDst alignedSrc) (alignedDst + 4) (alignedSrc + 4) (len - 4)
termination_by len.toNat
decreasing_by bv_omega

def rtMemcpy (memory : ByteMemory) (dst src count : BitVec 32) : ByteMemory × BitVec 32 :=
  if ¬ count < 16 ∧ (src &&& 3) ||| (dst &&& 3) = 0 then
    let (memory, alignedDst, alignedSrc, len) := memory.copyBlocks dst src count
    let (memory, dstPtr, srcPtr, len) := memory.copyWords alignedDst alignedSrc len
    (memory.copyBytes dstPtr srcPtr len, dst)
  else (memory.copyBytes dst src count, dst)

/-- `rt_memcpy` with `RT_TINY_SIZE`. -/
def rtMemcpyTiny (memory : ByteMemory) (dst src count : BitVec 32) : ByteMemory × BitVec 32 :=
  (memory.copyBytes dst src count, dst)

section

variable {memory : ByteMemory} {address s c count dst src len d buffer : BitVec 32}

/-! ## One word is four bytes -/

theorem setBytes_step {byte : BitVec 8} (some_ : count ≠ 0) :
    memory.setBytes byte s count =
      (memory.storeByte s byte).setBytes byte (s + 1) (count - 1) := by
  rw [setBytes, if_neg some_]

theorem fill_byte (c : BitVec 32) {place : Nat}
    (aligned : place = 0 ∨ place = 8 ∨ place = 16 ∨ place = 24) :
    (fill (c &&& 0xff)).extractLsb' place 8 = c.setWidth 8 := by
  ext i below
  rcases aligned with rfl | rfl | rfl | rfl
  · interval_cases i <;> simp [fill]
  · interval_cases i <;> simp [fill]
  · interval_cases i <;> simp [fill]
  · interval_cases i <;> simp [fill]

theorem mask_setWidth (c : BitVec 32) : (c &&& 0xff).setWidth 8 = c.setWidth 8 := by
  ext i below
  interval_cases i <;> simp

/-- The word of a fill is four of its bytes. -/
theorem setBytes_word (c : BitVec 32) (enough : ¬ count < 4) :
    memory.setBytes (c.setWidth 8) s count =
      (memory.storeWord s (fill (c &&& 0xff))).setBytes (c.setWidth 8) (s + 4) (count - 4) := by
  have steps : s + 1 + 1 = s + 2 ∧ s + 2 + 1 = s + 3 ∧ s + 3 + 1 = s + 4 := by bv_omega
  have counts : count - 1 - 1 = count - 2 ∧ count - 2 - 1 = count - 3 ∧
      count - 3 - 1 = count - 4 := by bv_omega
  rw [setBytes_step (by bv_omega), setBytes_step (by bv_omega), steps.1, counts.1,
    setBytes_step (by bv_omega), steps.2.1, counts.2.1, setBytes_step (by bv_omega), steps.2.2,
    counts.2.2, storeWord, fill_byte c (Or.inl rfl), fill_byte c (Or.inr (Or.inl rfl)),
    fill_byte c (Or.inr (Or.inr (Or.inl rfl))), fill_byte c (Or.inr (Or.inr (Or.inr rfl)))]

theorem setBytes_blocks (memory : ByteMemory) (c s count : BitVec 32) :
    (memory.setBlocks (fill (c &&& 0xff)) s count).1.setBytes (c.setWidth 8)
        (memory.setBlocks (fill (c &&& 0xff)) s count).2.1
        (memory.setBlocks (fill (c &&& 0xff)) s count).2.2 =
      memory.setBytes (c.setWidth 8) s count := by
  fun_induction setBlocks memory (fill (c &&& 0xff)) s count with
  | case1 memory s count few => rfl
  | case2 memory s count enough first second third fourth ih =>
      have steps : s + 4 + 4 = s + 8 ∧ s + 8 + 4 = s + 12 ∧ s + 12 + 4 = s + 16 := by bv_omega
      have counts : count - 4 - 4 = count - 8 ∧ count - 8 - 4 = count - 12 ∧
          count - 12 - 4 = count - 16 := by bv_omega
      refine ih.trans (Eq.symm ?_)
      calc memory.setBytes (c.setWidth 8) s count
          = first.setBytes (c.setWidth 8) (s + 4) (count - 4) := setBytes_word c (by bv_omega)
        _ = second.setBytes (c.setWidth 8) (s + 8) (count - 8) := by
            rw [setBytes_word c (by bv_omega), steps.1, counts.1]
        _ = third.setBytes (c.setWidth 8) (s + 12) (count - 12) := by
            rw [setBytes_word c (by bv_omega), steps.2.1, counts.2.1]
        _ = fourth.setBytes (c.setWidth 8) (s + 16) (count - 16) := by
            rw [setBytes_word c (by bv_omega), steps.2.2, counts.2.2]

theorem setBytes_words (memory : ByteMemory) (c s count : BitVec 32) :
    (memory.setWords (fill (c &&& 0xff)) s count).1.setBytes (c.setWidth 8)
        (memory.setWords (fill (c &&& 0xff)) s count).2.1
        (memory.setWords (fill (c &&& 0xff)) s count).2.2 =
      memory.setBytes (c.setWidth 8) s count := by
  fun_induction setWords memory (fill (c &&& 0xff)) s count with
  | case1 memory s count few => rfl
  | case2 memory s count enough ih =>
      exact ih.trans (setBytes_word c enough).symm

/-- What the byte loop writes. -/
theorem setBytes_apply (memory : ByteMemory) (byte : BitVec 8) (s count a : BitVec 32) :
    memory.setBytes byte s count a = if a - s < count then byte else memory a := by
  fun_induction setBytes memory byte s count with
  | case1 memory s =>
      rw [if_neg (by bv_omega)]
  | case2 memory s count some_ ih =>
      rw [ih, storeByte]
      by_cases here : a = s
      · subst here
        rw [if_neg (by bv_omega), if_pos (by bv_omega), Function.update_self]
      · rw [Function.update_of_ne here]
        congr 1
        rw [eq_iff_iff]
        bv_omega

/-! ## `rt_memcpy` by bytes -/

/-- The two areas do not overlap. -/
def Apart (dst src count : BitVec 32) : Prop :=
  ∀ i j, i < count → j < count → dst + i ≠ src + j

theorem skip_lt {skip i : BitVec 32} (enough : skip ≤ len) (below : i < len - skip) :
    skip + i < len := by
  bv_omega

theorem Apart.step {skip : BitVec 32} (apart : Apart dst src len) (enough : skip ≤ len) :
    Apart (dst + skip) (src + skip) (len - skip) := by
  intro i j below below' same
  rw [BitVec.add_assoc, BitVec.add_assoc] at same
  exact apart (skip + i) (skip + j) (skip_lt enough below) (skip_lt enough below') same

theorem copyBytes_step (some_ : len ≠ 0) :
    memory.copyBytes dst src len =
      (memory.storeByte dst (memory src)).copyBytes (dst + 1) (src + 1) (len - 1) := by
  rw [copyBytes, if_neg some_]

theorem loadWord_byte (memory : ByteMemory) (address : BitVec 32) :
    (memory.loadWord address).extractLsb' 0 8 = memory address ∧
      (memory.loadWord address).extractLsb' 8 8 = memory (address + 1) ∧
      (memory.loadWord address).extractLsb' 16 8 = memory (address + 2) ∧
      (memory.loadWord address).extractLsb' 24 8 = memory (address + 3) := by
  have bit (i : Nat) : (memory.loadWord address).getLsbD i =
      if i < 8 then (memory address).getLsbD i
      else if i - 8 < 8 then (memory (address + 1)).getLsbD (i - 8)
      else if i - 8 - 8 < 8 then (memory (address + 2)).getLsbD (i - 8 - 8)
      else (memory (address + 3)).getLsbD (i - 8 - 8 - 8) := by
    rw [loadWord, BitVec.getLsbD_append, BitVec.getLsbD_append, BitVec.getLsbD_append]
  have byte {place : Nat} {value : BitVec 8}
      (bits : ∀ i < 8, (memory.loadWord address).getLsbD (place + i) = value.getLsbD i) :
      (memory.loadWord address).extractLsb' place 8 = value := by
    refine BitVec.eq_of_getLsbD_eq fun i below => ?_
    rw [BitVec.getLsbD_extractLsb', bits i below, decide_eq_true below, Bool.true_and]
  refine ⟨byte fun i below => ?_, byte fun i below => ?_, byte fun i below => ?_,
    byte fun i below => ?_⟩
  · rw [bit, if_pos (by omega), Nat.zero_add]
  · rw [bit, if_neg (by omega), if_pos (by omega), show 8 + i - 8 = i by omega]
  · rw [bit, if_neg (by omega), if_neg (by omega), if_pos (by omega),
      show 16 + i - 8 - 8 = i by omega]
  · rw [bit, if_neg (by omega), if_neg (by omega), if_neg (by omega),
      show 24 + i - 8 - 8 - 8 = i by omega]

theorem storeByte_of_ne {byte : BitVec 8} (apart : address ≠ s) :
    memory.storeByte s byte address = memory address :=
  Function.update_of_ne apart ..

/-- A word that is copied is four bytes, none of which is written before it is read. -/
theorem copyBytes_word (apart : Apart dst src len) (enough : ¬ len < 4) :
    memory.copyBytes dst src len =
      (memory.copyWord dst src).copyBytes (dst + 4) (src + 4) (len - 4) := by
  have differ (i j : BitVec 32) (below : i < 4) (below' : j < 4) : src + j ≠ dst + i :=
    (apart i j (by bv_omega) (by bv_omega)).symm
  have apart₀ (j : BitVec 32) (below : j < 4) : src + j ≠ dst := by
    simpa using differ 0 j (by decide) below
  have steps (start : BitVec 32) :
      start + 1 + 1 = start + 2 ∧ start + 2 + 1 = start + 3 ∧ start + 3 + 1 = start + 4 := by
    bv_omega
  have lens : len - 1 - 1 = len - 2 ∧ len - 2 - 1 = len - 3 ∧ len - 3 - 1 = len - 4 := by bv_omega
  let first := memory.storeByte dst (memory src)
  let second := first.storeByte (dst + 1) (memory (src + 1))
  let third := second.storeByte (dst + 2) (memory (src + 2))
  let fourth := third.storeByte (dst + 3) (memory (src + 3))
  have word : memory.copyWord dst src = fourth := by
    obtain ⟨byte₀, byte₁, byte₂, byte₃⟩ := loadWord_byte memory src
    rw [copyWord, storeWord, byte₀, byte₁, byte₂, byte₃]
  have read₁ : first (src + 1) = memory (src + 1) := storeByte_of_ne (apart₀ 1 (by decide))
  have read₂ : second (src + 2) = memory (src + 2) :=
    calc second (src + 2) = first (src + 2) :=
          storeByte_of_ne (differ 1 2 (by decide) (by decide))
      _ = memory (src + 2) := storeByte_of_ne (apart₀ 2 (by decide))
  have read₃ : third (src + 3) = memory (src + 3) :=
    calc third (src + 3) = second (src + 3) :=
          storeByte_of_ne (differ 2 3 (by decide) (by decide))
      _ = first (src + 3) := storeByte_of_ne (differ 1 3 (by decide) (by decide))
      _ = memory (src + 3) := storeByte_of_ne (apart₀ 3 (by decide))
  calc memory.copyBytes dst src len
      = first.copyBytes (dst + 1) (src + 1) (len - 1) := copyBytes_step (by bv_omega)
    _ = second.copyBytes (dst + 2) (src + 2) (len - 2) := by
        rw [copyBytes_step (by bv_omega), read₁, (steps dst).1, (steps src).1, lens.1]
    _ = third.copyBytes (dst + 3) (src + 3) (len - 3) := by
        rw [copyBytes_step (by bv_omega), read₂, (steps dst).2.1, (steps src).2.1, lens.2.1]
    _ = fourth.copyBytes (dst + 4) (src + 4) (len - 4) := by
        rw [copyBytes_step (by bv_omega), read₃, (steps dst).2.2, (steps src).2.2, lens.2.2]
    _ = (memory.copyWord dst src).copyBytes (dst + 4) (src + 4) (len - 4) := by rw [word]

theorem copyBytes_words (memory : ByteMemory) (dst src len : BitVec 32)
    (apart : Apart dst src len) :
    (memory.copyWords dst src len).1.copyBytes (memory.copyWords dst src len).2.1
        (memory.copyWords dst src len).2.2.1 (memory.copyWords dst src len).2.2.2 =
      memory.copyBytes dst src len := by
  fun_induction copyWords memory dst src len with
  | case1 memory dst src len few => rfl
  | case2 memory dst src len enough ih =>
      exact (ih (apart.step (by bv_omega))).trans (copyBytes_word apart enough).symm

theorem copyBytes_blocks (memory : ByteMemory) (dst src len : BitVec 32)
    (apart : Apart dst src len) :
    (memory.copyBlocks dst src len).1.copyBytes (memory.copyBlocks dst src len).2.1
        (memory.copyBlocks dst src len).2.2.1 (memory.copyBlocks dst src len).2.2.2 =
      memory.copyBytes dst src len ∧
    Apart (memory.copyBlocks dst src len).2.1 (memory.copyBlocks dst src len).2.2.1
      (memory.copyBlocks dst src len).2.2.2 := by
  fun_induction copyBlocks memory dst src len with
  | case1 memory dst src len few => exact ⟨rfl, apart⟩
  | case2 memory dst src len enough first second third fourth ih =>
      have steps (start : BitVec 32) : start + 4 + 4 = start + 8 ∧ start + 8 + 4 = start + 12 ∧
          start + 12 + 4 = start + 16 := by bv_omega
      have lens : len - 4 - 4 = len - 8 ∧ len - 8 - 4 = len - 12 ∧ len - 12 - 4 = len - 16 := by
        bv_omega
      have apart₄ : Apart (dst + 4) (src + 4) (len - 4) := apart.step (by bv_omega)
      have apart₈ : Apart (dst + 8) (src + 8) (len - 8) := apart.step (by bv_omega)
      have apart₁₂ : Apart (dst + 12) (src + 12) (len - 12) := apart.step (by bv_omega)
      obtain ⟨same, apart'⟩ := ih (apart.step (by bv_omega))
      refine ⟨same.trans (Eq.symm ?_), apart'⟩
      calc memory.copyBytes dst src len
          = first.copyBytes (dst + 4) (src + 4) (len - 4) := copyBytes_word apart (by bv_omega)
        _ = second.copyBytes (dst + 8) (src + 8) (len - 8) := by
            rw [copyBytes_word apart₄ (by bv_omega), (steps dst).1, (steps src).1, lens.1]
        _ = third.copyBytes (dst + 12) (src + 12) (len - 12) := by
            rw [copyBytes_word apart₈ (by bv_omega), (steps dst).2.1, (steps src).2.1, lens.2.1]
        _ = fourth.copyBytes (dst + 16) (src + 16) (len - 16) := by
            rw [copyBytes_word apart₁₂ (by bv_omega), (steps dst).2.2, (steps src).2.2, lens.2.2]

/-- The byte loop writes nowhere else. -/
theorem copyBytes_frame {memory : ByteMemory} {dst src len a : BitVec 32}
    (outside : ¬ a - dst < len) : memory.copyBytes dst src len a = memory a := by
  fun_induction copyBytes memory dst src len with
  | case1 memory dst src => rfl
  | case2 memory dst src len some_ ih =>
      rw [ih (by bv_omega), storeByte_of_ne (by bv_omega)]

/-! ## The two routines -/

theorem rtMemset_eq (memory : ByteMemory) (s c count : BitVec 32) :
    memory.rtMemset s c count = memory.rtMemsetTiny s c count := by
  rw [rtMemset, rtMemsetTiny]
  dsimp only
  rw [mask_setWidth]
  split
  · rw [setBytes_words, setBytes_blocks]
  · rfl

theorem rtMemcpy_eq (memory : ByteMemory) {dst src count : BitVec 32}
    (apart : Apart dst src count) :
    memory.rtMemcpy dst src count = memory.rtMemcpyTiny dst src count := by
  obtain ⟨same, apart'⟩ := copyBytes_blocks memory dst src count apart
  rw [rtMemcpy, rtMemcpyTiny]
  dsimp only
  split
  · rw [copyBytes_words _ _ _ _ apart', same]
  · rfl

end

end ByteMemory

/-- Both routines do what their byte loops do, for every address and count, and change the bytes
from the destination on only; their loops end, as they are functions. -/
theorem word_routines_agree :
    (∀ (memory : ByteMemory) (s c count : BitVec 32),
      memory.rtMemset s c count = memory.rtMemsetTiny s c count ∧
        ∀ a, ¬ a - s < count → (memory.rtMemset s c count).1 a = memory a) ∧
    ∀ (memory : ByteMemory) (dst src count : BitVec 32),
      (∀ i j, i < count → j < count → dst + i ≠ src + j) →
        memory.rtMemcpy dst src count = memory.rtMemcpyTiny dst src count ∧
          ∀ a, ¬ a - dst < count → (memory.rtMemcpy dst src count).1 a = memory a := by
  refine ⟨fun memory s c count => ?_, fun memory dst src count apart => ?_⟩
  · have same := memory.rtMemset_eq s c count
    refine ⟨same, fun a outside => ?_⟩
    rw [same]
    exact (memory.setBytes_apply _ s count a).trans (if_neg outside)
  · have same := memory.rtMemcpy_eq apart
    refine ⟨same, fun a outside => ?_⟩
    rw [same]
    exact ByteMemory.copyBytes_frame outside

/-- The low byte of each address. -/
def lowBytes : ByteMemory := fun address => address.setWidth 8

theorem word_routines_agree_twenty :
    lowBytes.rtMemcpy 0x100 0x200 20 = lowBytes.rtMemcpyTiny 0x100 0x200 20 :=
  (word_routines_agree.2 lowBytes 0x100 0x200 20 fun i j below below' => by bv_omega).1

end RtThread
