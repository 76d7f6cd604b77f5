import RtThread.Memory.Slab

/-!
# The sizes of the slab allocator

What `zoneindex` and the start of a zone's chunks have to do with the size that is asked for, and
with the limits that `rt_system_heap_init` has set.
-/

namespace RtThread

open RtThread.Std

section

variable {n align bytes size zi : Nat}

theorem dvd_alignUp (n align : Nat) : align ∣ alignUp n align := Nat.dvd_mul_left ..

theorem le_alignUp (positive : 0 < align) : n ≤ alignUp n align := by
  have whole := Nat.div_add_mod (n + align - 1) align
  have rest := Nat.mod_lt (n + align - 1) positive
  rw [alignUp, Nat.mul_comm]
  omega

theorem alignUp_lt (positive : 0 < align) : alignUp n align < n + align := by
  have below := Nat.div_mul_le_self (n + align - 1) align
  rw [alignUp]
  omega

/-! ## Chunks -/

/-- The size of the chunks in the zones of an index. -/
def zoneChunk (zi : Nat) : Nat :=
  if zi < 16 then 8 * (zi + 1)
  else if zi < 24 then 16 * (zi - 7)
  else if zi < 32 then 32 * (zi - 15)
  else if zi < 40 then 64 * (zi - 23)
  else if zi < 48 then 128 * (zi - 31)
  else if zi < 56 then 256 * (zi - 39)
  else if zi < 64 then 512 * (zi - 47)
  else 1024 * (zi - 55)

/-- The index tells the size of the chunks. -/
theorem zoneindex_chunk (some_ : 0 < bytes) (small : bytes < zallocZoneLimit) :
    (zoneindex bytes).2 = zoneChunk (zoneindex bytes).1 ∧ (zoneindex bytes).1 < nzones := by
  rw [zallocZoneLimit] at small
  have lowest : ∀ k ≤ 16, zoneChunk (k - 1) = if k = 0 then 8 else k * 8 := by decide
  have higher : ∀ k ≤ 16, 8 ≤ k → zoneChunk (k + 7) = k * 16 ∧ zoneChunk (k + 15) = k * 32 ∧
      zoneChunk (k + 23) = k * 64 ∧ zoneChunk (k + 31) = k * 128 ∧ zoneChunk (k + 39) = k * 256 ∧
      zoneChunk (k + 47) = k * 512 ∧ zoneChunk (k + 55) = k * 1024 := by decide
  rw [zoneindex]
  split_ifs
  all_goals
    simp only [alignUp, nzones, Nat.mul_div_cancel _ (show 0 < 8 by decide),
      Nat.mul_div_cancel _ (show 0 < 16 by decide), Nat.mul_div_cancel _ (show 0 < 32 by decide),
      Nat.mul_div_cancel _ (show 0 < 64 by decide), Nat.mul_div_cancel _ (show 0 < 128 by decide),
      Nat.mul_div_cancel _ (show 0 < 256 by decide), Nat.mul_div_cancel _ (show 0 < 512 by decide),
      Nat.mul_div_cancel _ (show 0 < 1024 by decide)]
  · have tiny := lowest ((bytes + 8 - 1) / 8) (by omega)
    rw [if_neg (by omega)] at tiny
    exact ⟨tiny.symm, by omega⟩
  · exact ⟨(higher ((bytes + 16 - 1) / 16) (by omega) (by omega)).1.symm, by omega⟩
  · exact ⟨(higher ((bytes + 32 - 1) / 32) (by omega) (by omega)).2.1.symm, by omega⟩
  · exact ⟨(higher ((bytes + 64 - 1) / 64) (by omega) (by omega)).2.2.1.symm, by omega⟩
  · exact ⟨(higher ((bytes + 128 - 1) / 128) (by omega) (by omega)).2.2.2.1.symm, by omega⟩
  · exact ⟨(higher ((bytes + 256 - 1) / 256) (by omega) (by omega)).2.2.2.2.1.symm, by omega⟩
  · exact ⟨(higher ((bytes + 512 - 1) / 512) (by omega) (by omega)).2.2.2.2.2.1.symm, by omega⟩
  · exact ⟨(higher ((bytes + 1024 - 1) / 1024) (by omega) (by omega)).2.2.2.2.2.2.symm, by omega⟩

/-- A chunk is large enough, and no larger than the limit that the request is below. -/
theorem zoneindex_bounds (some_ : 0 < bytes) (small : bytes < zallocZoneLimit) :
    bytes ≤ (zoneindex bytes).2 ∧ 8 ≤ (zoneindex bytes).2 ∧
      (zoneindex bytes).2 ≤ zallocZoneLimit ∧
      (bytes < 8192 → (zoneindex bytes).2 ≤ 8192) := by
  rw [zallocZoneLimit] at small
  rw [zoneindex, zallocZoneLimit]
  split_ifs
  all_goals
    simp only [alignUp]
    omega

/-- A power of two is the size of a chunk. -/
theorem zoneindex_two_pow {k : Nat} (large : 8 ≤ 2 ^ k) (small : 2 ^ k < zallocZoneLimit) :
    (zoneindex (2 ^ k)).2 = 2 ^ k := by
  have lower : 3 ≤ k := (Nat.pow_le_pow_iff_right (by decide : 1 < 2)).mp large
  have upper : k < 14 := (Nat.pow_lt_pow_iff_right (by decide : 1 < 2)).mp small
  interval_cases k <;> decide

theorem le_chunkOffset (positive : 0 < size) : slabZoneSize ≤ Slab.chunkOffset size := by
  rw [Slab.chunkOffset]
  split
  · exact le_alignUp positive
  · exact le_alignUp (by decide)

theorem chunkOffset_le (large : 8 ≤ size) : Slab.chunkOffset size ≤ size + 40 := by
  rw [Slab.chunkOffset]
  split
  · have below := @alignUp_lt slabZoneSize size (by omega)
    rw [slabZoneSize] at below ⊢
    omega
  · rw [slabZoneSize, alignUp]
    omega

/-- Chunks whose size is a power of two begin at a multiple of it. -/
theorem dvd_chunkOffset (k : Nat) : 2 ^ k ∣ Slab.chunkOffset (2 ^ k) := by
  have ones : 2 ^ k ||| (2 ^ k - 1) = 2 ^ k + (2 ^ k - 1) := by
    have apart := Nat.two_pow_add_eq_or_of_lt (Nat.sub_one_lt (Nat.two_pow_pos k).ne') 1
    rw [Nat.mul_one] at apart
    exact apart.symm
  have power : (2 ^ k ||| (2 ^ k - 1)) + 1 = 2 ^ k <<< 1 := by
    have positive := Nat.two_pow_pos k
    rw [ones, Nat.shiftLeft_eq]
    omega
  rw [Slab.chunkOffset, if_pos power]
  exact dvd_alignUp ..

end

/-! ## Zones -/

/-- What `rt_system_heap_init` has chosen. -/
structure Slab.Geometry (slab : Slab) : Prop where
  zoneSize : slab.zoneSize = 32 * 1024 ∨ slab.zoneSize = 64 * 1024 ∨ slab.zoneSize = 128 * 1024
  zoneLimit : slab.zoneLimit = min (slab.zoneSize / 4) zallocZoneLimit
  zonePageCnt : slab.zonePageCnt = slab.zoneSize / pageSize

namespace Slab.Geometry

variable {slab slab' : Slab} {bytes : Nat}

theorem congr (geometry : slab.Geometry) (size : slab'.zoneSize = slab.zoneSize)
    (limit : slab'.zoneLimit = slab.zoneLimit) (count : slab'.zonePageCnt = slab.zonePageCnt) :
    slab'.Geometry := by
  refine ⟨?_, ?_, ?_⟩
  · rw [size]
    exact geometry.zoneSize
  · rw [limit, size]
    exact geometry.zoneLimit
  · rw [count, size]
    exact geometry.zonePageCnt

theorem limit_le (geometry : slab.Geometry) : slab.zoneLimit ≤ zallocZoneLimit :=
  geometry.zoneLimit ▸ Nat.min_le_right ..

theorem pages (geometry : slab.Geometry) :
    pageSize * slab.zonePageCnt = slab.zoneSize ∧ 0 < slab.zonePageCnt := by
  rw [geometry.zonePageCnt, pageSize]
  rcases geometry.zoneSize with size | size | size
  all_goals
    rw [size]
    decide

/-- A zone has room for several chunks. -/
theorem room (geometry : slab.Geometry) (some_ : 0 < bytes) (small : bytes < slab.zoneLimit) :
    2 ≤ (slab.zoneSize - Slab.chunkOffset (zoneindex bytes).2) / (zoneindex bytes).2 := by
  obtain ⟨-, large, within, half⟩ :=
    zoneindex_bounds some_ (Nat.lt_of_lt_of_le small geometry.limit_le)
  have offset := chunkOffset_le large
  have limit := geometry.zoneLimit
  rw [zallocZoneLimit] at within limit
  rw [Nat.le_div_iff_mul_le (by omega)]
  rcases geometry.zoneSize with size | size | size
  · rw [size] at limit ⊢
    have short : bytes < 8192 := by omega
    have half := half short
    omega
  · rw [size]
    omega
  · rw [size]
    omega

end Slab.Geometry

theorem doubleZoneSize_cases (limsize : Nat) :
    doubleZoneSize limsize 2 zallocMinZoneSize = 32 * 1024 ∨
      doubleZoneSize limsize 2 zallocMinZoneSize = 64 * 1024 ∨
      doubleZoneSize limsize 2 zallocMinZoneSize = 128 * 1024 := by
  rw [doubleZoneSize]
  split
  · rw [doubleZoneSize]
    split
    · exact Or.inr (Or.inr rfl)
    · exact Or.inr (Or.inl rfl)
  · exact Or.inl rfl

end RtThread
