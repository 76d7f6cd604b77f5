import RtThread.Std.FreeRunning
import RtThread.Drivers.Ringbuffer

/-!
# Runs of the ring buffer

As long as the 32-bit difference in `rt_ringbuffer_get` does no harm, the buffer is
a bounded queue.
-/

namespace RtThread

open RtThread.Std

/-! ## Copies in two pieces -/

section

variable {size position count : Nat} {buffer ptr : Nat → Byte}

/-- Bytes are stored from `position` on, around the end of the buffer. -/
theorem copyIn_spec (inside : position < size) (bound : count ≤ size) (buffer' : Nat → Byte)
    (copied : buffer' =
      if count < size - position then memcpy buffer position ptr 0 count
      else memcpy (memcpy buffer position ptr 0 (size - position)) 0 ptr (size - position)
        (count - (size - position))) :
    (∀ offset < count, buffer' ((position + offset) % size) = ptr offset) ∧
      ∀ slot < size, (∀ offset < count, slot ≠ (position + offset) % size) →
        buffer' slot = buffer slot := by
  have straight : ∀ offset, position + offset < size →
      (position + offset) % size = position + offset := fun offset => Nat.mod_eq_of_lt
  have around : ∀ offset, size ≤ position + offset → offset < size →
      (position + offset) % size = position + offset - size := by
    intro offset beyond short
    rw [Nat.mod_eq_sub_mod beyond, Nat.mod_eq_of_lt (by omega)]
  split at copied
  · constructor
    · intro offset early
      rw [straight offset (by omega), copied, memcpy, if_pos (by omega)]
      congr 1
      omega
    · intro slot _ outside
      rw [copied, memcpy, if_neg]
      rintro ⟨lower, upper⟩
      have here := outside (slot - position) (by omega)
      rw [straight _ (by omega)] at here
      omega
  · constructor
    · intro offset early
      by_cases beyond : size ≤ position + offset
      · rw [around offset beyond (by omega), copied, memcpy, if_pos (by omega)]
        congr 1
        omega
      · rw [straight offset (by omega), copied, memcpy, if_neg (by omega), memcpy,
          if_pos (by omega)]
        congr 1
        omega
    · intro slot short outside
      rw [copied, memcpy, if_neg, memcpy, if_neg]
      · rintro ⟨lower, upper⟩
        have here := outside (slot - position) (by omega)
        rw [straight _ (by omega)] at here
        omega
      · rintro ⟨-, upper⟩
        have here := outside (slot + size - position) (by omega)
        rw [around _ (by omega) (by omega)] at here
        omega

/-- Bytes are read from `position` on, around the end of the buffer. -/
theorem copyOut_spec (inside : position < size) (bound : count ≤ size) (ptr' : Nat → Byte)
    (copied : ptr' =
      if count ≤ size - position then memcpy ptr 0 buffer position count
      else memcpy (memcpy ptr 0 buffer position (size - position)) (size - position) buffer 0
        (count + position - size)) :
    ∀ offset < count, ptr' offset = buffer ((position + offset) % size) := by
  intro offset early
  split at copied
  · rw [copied, memcpy, if_pos (by omega), Nat.mod_eq_of_lt (by omega)]
    rfl
  · by_cases beyond : size ≤ position + offset
    · rw [copied, memcpy, if_pos (by omega), Nat.mod_eq_sub_mod beyond,
        Nat.mod_eq_of_lt (by omega)]
      congr 1
      omega
    · rw [copied, memcpy, if_neg (by omega), memcpy, if_pos (by omega),
        Nat.mod_eq_of_lt (by omega)]
      rfl

end

/-! ## What the buffer holds -/

/-- The buffer of `size` bytes holds `queue`. -/
structure Ringbuffer.Stores (rb : Ringbuffer) (size : Nat) (queue : List Byte) : Prop where
  bufferSize : rb.bufferSize.toNat = size
  holds : FreeRunning size rb.buffer rb.readIndex rb.writeIndex queue

/-- The sizes that `rt_ringbuffer_init` keeps and a mask works for. -/
def RingbufferSize (size : Nat) : Prop := ∃ power, 2 ≤ power ∧ power ≤ 15 ∧ size = 2 ^ power

section

variable {size : Nat} {rb : Ringbuffer} {queue : List Byte} {ptr : Nat → Byte}
  {length : BitVec 16}

theorem RingbufferSize.mask (valid : RingbufferSize size) : MaskSize 16 size := by
  obtain ⟨power, -, upper, same⟩ := valid
  exact ⟨power, by omega, same⟩

theorem RingbufferSize.bounds (valid : RingbufferSize size) : 4 ≤ size ∧ size ≤ 32768 := by
  obtain ⟨power, lower, upper, rfl⟩ := valid
  exact ⟨Nat.pow_le_pow_right (n := 2) (by decide) lower,
    Nat.pow_le_pow_right (n := 2) (by decide) upper⟩

namespace Ringbuffer.Stores

theorem length_le (stores : rb.Stores size queue) : queue.length ≤ size := stores.holds.length_le

/-- What the buffer has room for. -/
theorem space (stores : rb.Stores size queue) (valid : RingbufferSize size) :
    (rb.bufferSize - (rb.writeIndex - rb.readIndex)).toNat = size - queue.length := by
  have counted := stores.holds.count valid.mask
  have bufferSize := stores.bufferSize
  have room := stores.length_le
  rw [BitVec.toNat_sub, counted, bufferSize]
  have bounds := valid.bounds
  omega

/-- `rt_ringbuffer_put` stores what there is room for. -/
theorem put (stores : rb.Stores size queue) (valid : RingbufferSize size) (ptr : Nat → Byte)
    (length : BitVec 16) :
    ∃ next, rtRingbufferPut rb ptr length =
        (next, min length.toNat (size - queue.length)) ∧
      next.Stores size (queue ++ bytesOf ptr (min length.toNat (size - queue.length))) := by
  have space := stores.space valid
  have room := stores.length_le
  have bounds := valid.bounds
  unfold rtRingbufferPut
  dsimp only
  obtain ⟨free, isFree⟩ : ∃ free, rb.bufferSize - (rb.writeIndex - rb.readIndex) = free := ⟨_, rfl⟩
  rw [isFree] at space ⊢
  by_cases full : free = 0
  · rw [if_pos full]
    rw [full] at space
    have none_ : min length.toNat (size - queue.length) = 0 := by
      rw [← space]
      simp
    rw [none_]
    exact ⟨rb, rfl, by simpa [bytesOf] using stores⟩
  rw [if_neg full]
  obtain ⟨taken, chosen, amount⟩ : ∃ taken, (if free < length then free else length) = taken ∧
      taken.toNat = min length.toNat (size - queue.length) := by
    refine ⟨_, rfl, ?_⟩
    split <;> bv_omega
  rw [chosen, valid.mask.and_mask stores.bufferSize, stores.bufferSize, ← amount]
  obtain ⟨buffer, made⟩ : ∃ buffer, buffer =
      if taken.toNat < size - rb.writeIndex.toNat % size then
        memcpy rb.buffer (rb.writeIndex.toNat % size) ptr 0 taken.toNat
      else memcpy (memcpy rb.buffer (rb.writeIndex.toNat % size) ptr 0
        (size - rb.writeIndex.toNat % size)) 0 ptr (size - rb.writeIndex.toNat % size)
        (taken.toNat - (size - rb.writeIndex.toNat % size)) := ⟨_, rfl⟩
  obtain ⟨copied, kept⟩ := copyIn_spec (Nat.mod_lt _ (by omega)) (by omega) buffer made
  have items : (bytesOf ptr taken.toNat).length = taken.toNat := by simp [bytesOf]
  have stored : ∀ offset (bound : offset < (bytesOf ptr taken.toNat).length),
      buffer ((rb.writeIndex.toNat % size + offset) % size) =
        (bytesOf ptr taken.toNat)[offset] := by
    intro offset bound
    rw [copied offset (by omega)]
    simp [bytesOf]
  rw [← made]
  exact ⟨_, rfl, stores.bufferSize,
    stores.holds.append valid.mask (by omega) items.symm stored (by rwa [items])⟩

/-- The memory behind `ptr` that `rt_ringbuffer_get` fills. -/
theorem bytesOf_take {ptr : Nat → Byte} {count : Nat} (bound : count ≤ queue.length)
    (copied : ∀ offset (early : offset < count), ptr offset = queue[offset]) :
    bytesOf ptr count = queue.take count := by
  refine List.ext_getElem (by simp [bytesOf, bound]) fun offset early _ => ?_
  rw [List.getElem_take]
  simpa [bytesOf] using copied offset (by simpa [bytesOf] using early)

/-- `rt_ringbuffer_get` gives out the oldest bytes, where the difference of the
indices does no harm. -/
theorem get (stores : rb.Stores size queue) (valid : RingbufferSize size) (ptr : Nat → Byte)
    (length : BitVec 16) (reads : rb.Reads (.get ptr length)) :
    ∃ next ptr', rtRingbufferGet rb ptr length = (next, ptr', min length.toNat queue.length) ∧
      bytesOf ptr' (min length.toNat queue.length) = queue.take length.toNat ∧
      next.Stores size (queue.drop length.toNat) := by
  have counted := stores.holds.count valid.mask
  have room := stores.length_le
  have bounds := valid.bounds
  unfold rtRingbufferGet
  dsimp only
  obtain ⟨difference, isSize⟩ : ∃ difference : BitVec 32,
      rb.writeIndex.setWidth 32 - rb.readIndex.setWidth 32 = difference := ⟨_, rfl⟩
  rw [isSize]
  have reads' : rb.readIndex.toNat ≤ rb.writeIndex.toNat ∨ length.toNat ≤ queue.length := by
    rw [← counted]
    exact reads
  have wide : difference.toNat =
      (2 ^ 32 - rb.readIndex.toNat + rb.writeIndex.toNat) % 2 ^ 32 := by
    rw [← isSize, BitVec.toNat_sub]
    simp
    omega
  have distance := stores.holds.distance
  have straight : rb.readIndex.toNat ≤ rb.writeIndex.toNat → difference.toNat = queue.length := by
    intro order
    omega
  by_cases none_ : difference = 0
  · rw [if_pos none_]
    rw [none_] at wide
    have empty : queue.length = 0 := by
      simp at wide
      omega
    obtain rfl := List.eq_nil_of_length_eq_zero empty
    exact ⟨rb, ptr, by simp, by simp [bytesOf], by simpa using stores⟩
  rw [if_neg none_]
  obtain ⟨taken, chosen, amount⟩ : ∃ taken,
      (if difference < length.setWidth 32 then difference.setWidth 16 else length) = taken ∧
        taken.toNat = min length.toNat queue.length := by
    refine ⟨_, rfl, ?_⟩
    have wider : (length.setWidth 32).toNat = length.toNat := by
      simp
      omega
    by_cases less : difference < length.setWidth 32
    · rw [if_pos less]
      rw [BitVec.lt_def, wider] at less
      have narrow : (difference.setWidth 16).toNat = difference.toNat := by
        rw [BitVec.toNat_setWidth]
        omega
      rw [narrow]
      omega
    · rw [if_neg less]
      rw [BitVec.lt_def, wider] at less
      omega
  rw [chosen, valid.mask.and_mask stores.bufferSize, stores.bufferSize, ← amount]
  obtain ⟨ptr', made⟩ : ∃ ptr', ptr' =
      if taken.toNat ≤ size - rb.readIndex.toNat % size then
        memcpy ptr 0 rb.buffer (rb.readIndex.toNat % size) taken.toNat
      else memcpy (memcpy ptr 0 rb.buffer (rb.readIndex.toNat % size)
        (size - rb.readIndex.toNat % size)) (size - rb.readIndex.toNat % size) rb.buffer 0
        (taken.toNat + rb.readIndex.toNat % size - size) := ⟨_, rfl⟩
  have copied := copyOut_spec (Nat.mod_lt _ (by omega)) (by omega) ptr' made
  rw [← made]
  have within : ∀ offset (early : offset < taken.toNat), ptr' offset = queue[offset] := by
    intro offset early
    rw [copied offset early]
    exact stores.holds.fills.slot offset (by omega)
  have whole : queue.take length.toNat = queue.take taken.toNat := by
    rw [amount, List.take_eq_take_iff]
    omega
  have rest : queue.drop length.toNat = queue.drop taken.toNat := by
    by_cases short : length.toNat ≤ queue.length
    · rw [amount, Nat.min_eq_left short]
    · rw [List.drop_of_length_le (by omega), List.drop_of_length_le (by omega)]
  rw [whole, rest]
  exact ⟨_, ptr', rfl, bytesOf_take (by omega) within, stores.bufferSize,
    stores.holds.drop valid.mask (by omega)⟩

end Ringbuffer.Stores

/-! ## Runs -/

theorem Ringbuffer.Stores.init {pool : Nat → Byte} {size : BitVec 16}
    (valid : RingbufferSize size.toNat) : (rtRingbufferInit pool size).Stores size.toNat [] := by
  have bounds := valid.bounds
  have aligned : size.toNat % 4 = 0 := by
    obtain ⟨power, lower, -, same⟩ := valid
    obtain ⟨rest, rfl⟩ := Nat.exists_eq_add_of_le lower
    rw [same, Nat.pow_add]
    exact Nat.mul_mod_right ..
  have bufferSize : (rtRingbufferInit pool size).bufferSize.toNat = size.toNat := by
    have wide : (size.setWidth 32).toNat = size.toNat := by
      simp
      omega
    rw [rtRingbufferInit]
    dsimp only
    rw [BitVec.toNat_setWidth, rtAlignDown, mask_toNat, wide]
    omega
  exact ⟨bufferSize, .nil valid.mask pool 0⟩

/-- A call that does no harm has the result that the queue gives. -/
theorem Ringbuffer.Stores.step (stores : rb.Stores size queue) (valid : RingbufferSize size)
    {call : RingbufferCall} (reads : rb.Reads call) :
    ∃ next queue' result, ringbufferMachine.step rb call = some (next, [result]) ∧
      (boundedFifo size).step queue call = some (queue', [result]) ∧ next.Stores size queue' := by
  cases call with
  | put ptr length =>
      obtain ⟨next, result, stores'⟩ := stores.put valid ptr length
      exact ⟨next, _, _, by simp [ringbufferMachine, result], rfl, stores'⟩
  | get ptr length =>
      obtain ⟨next, ptr', result, bytes, stores'⟩ := stores.get valid ptr length reads
      exact ⟨next, _, _, by simp [ringbufferMachine, result, bytes], rfl, stores'⟩

/-- A `get` which asks for more than there is, once the write index has wrapped around,
gets as much as it asks for. -/
theorem Ringbuffer.get_beyond {ptr : Nat → Byte} {length : BitVec 16}
    (harm : ¬ rb.Reads (.get ptr length)) :
    (rtRingbufferGet rb ptr length).2.2 = length.toNat := by
  obtain ⟨wrapped, -⟩ := not_or.mp harm
  rw [BitVec.not_le] at wrapped
  have order := BitVec.lt_def.mp wrapped
  have wide : (rb.writeIndex.setWidth 32 - rb.readIndex.setWidth 32).toNat =
      2 ^ 32 - rb.readIndex.toNat + rb.writeIndex.toNat := by
    rw [BitVec.toNat_sub]
    simp
    omega
  have wider : (length.setWidth 32).toNat = length.toNat := by
    simp
    omega
  have some_ : rb.writeIndex.setWidth 32 - rb.readIndex.setWidth 32 ≠ 0 := by
    intro none_
    rw [none_] at wide
    simp at wide
    omega
  have large : ¬ rb.writeIndex.setWidth 32 - rb.readIndex.setWidth 32 < length.setWidth 32 := by
    rw [BitVec.lt_def, wide, wider]
    omega
  unfold rtRingbufferGet
  dsimp only
  rw [if_neg some_, if_neg large]

variable {pool : Nat → Byte} {bytes : BitVec 16} {calls : List RingbufferCall}
  {results : List RingbufferResult}

/-- Without harm, the buffer does what the queue does. -/
theorem Ringbuffer.fifo_of_reads (valid : RingbufferSize bytes.toNat)
    (run : ringbufferMachine.Run Ringbuffer.Reads (rtRingbufferInit pool bytes) calls results rb) :
    ∃ queue, (boundedFifo bytes.toNat).Run (fun _ _ => True) [] calls results queue ∧
      rb.Stores bytes.toNat queue := by
  induction run with
  | nil => exact ⟨[], .nil, .init valid⟩
  | snoc _ admitted transition ih =>
      obtain ⟨queue, same, stores⟩ := ih
      obtain ⟨next, queue', result, moved, moved', stores'⟩ := stores.step valid admitted
      obtain ⟨rfl, rfl⟩ := Prod.mk.inj (Option.some_inj.mp (transition.symm.trans moved))
      exact ⟨queue', same.snoc trivial moved', stores'⟩

/-- What does as the queue does, has done no harm. -/
theorem Ringbuffer.reads_of_fifo (valid : RingbufferSize bytes.toNat)
    (run : ringbufferMachine.Run (fun _ _ => True) (rtRingbufferInit pool bytes) calls results rb)
    (same : (boundedFifo bytes.toNat).Run (fun _ _ => True) [] calls results queue) :
    ringbufferMachine.Run Ringbuffer.Reads (rtRingbufferInit pool bytes) calls results rb ∧
      rb.Stores bytes.toNat queue := by
  induction run generalizing queue with
  | nil =>
      obtain ⟨-, rfl⟩ := same.none
      exact ⟨.nil, .init valid⟩
  | @snoc calls results before call emitted after prior _ transition ih =>
      obtain ⟨results', queue', emitted', same, -, moved, whole⟩ := same.last
      have single : ∃ result result', emitted = [result] ∧ emitted' = [result'] := by
        cases call <;>
          exact ⟨_, _, (Prod.mk.inj (Option.some_inj.mp transition)).2.symm,
            (Prod.mk.inj (Option.some_inj.mp moved)).2.symm⟩
      obtain ⟨result, result', rfl, rfl⟩ := single
      obtain ⟨rfl, last⟩ := List.append_inj' whole rfl
      obtain rfl := List.singleton_inj.mp last
      obtain ⟨within, stores⟩ := ih same
      have reads : before.Reads call := by
        cases call with
        | put ptr length => trivial
        | get ptr length =>
            by_contra harm
            have beyond := get_beyond harm
            have counted := stores.holds.count valid.mask
            have more := (not_or.mp harm).2
            rw [BitVec.not_le, BitVec.lt_def, counted] at more
            have fetched : [RingbufferResult.fetched (bytesOf (rtRingbufferGet before ptr length).2.1
                (rtRingbufferGet before ptr length).2.2)] = [result] :=
              (Prod.mk.inj (Option.some_inj.mp transition)).2
            have fetched' : [RingbufferResult.fetched (queue'.take length.toNat)] = [result] :=
              (Prod.mk.inj (Option.some_inj.mp moved)).2
            rw [← fetched', beyond] at fetched
            have bytes := RingbufferResult.fetched.inj (List.singleton_inj.mp fetched)
            have lengths := congrArg List.length bytes
            rw [List.length_take, bytesOf, List.length_map, List.length_range] at lengths
            omega
      obtain ⟨next, queue'', result', moved', moved'', stores'⟩ := stores.step valid reads
      obtain ⟨rfl, -⟩ := Prod.mk.inj (Option.some_inj.mp (transition.symm.trans moved'))
      obtain ⟨rfl, -⟩ := Prod.mk.inj (Option.some_inj.mp (moved.symm.trans moved''))
      exact ⟨within.snoc reads transition, stores'⟩

end

/-- The results are those of a queue of at most `size` bytes, and the indices say how
many bytes it has. -/
def ActsAsFifo (size : Nat) (calls : List RingbufferCall) (results : List RingbufferResult)
    (rb : Ringbuffer) : Prop :=
  ∃ queue, (boundedFifo size).Run (fun _ _ => True) [] calls results queue ∧
    queue.length ≤ size ∧ (rb.writeIndex - rb.readIndex).toNat = queue.length

/-- The buffer is a bounded queue in a run if and only if no `get` of the run asks for
more than there is while only the write index has wrapped around. -/
theorem ringbuffer_fifo {pool : Nat → Byte} {size : BitVec 16} {calls : List RingbufferCall}
    {results : List RingbufferResult} {rb : Ringbuffer} (valid : RingbufferSize size.toNat)
    (run : ringbufferMachine.Run (fun _ _ => True) (rtRingbufferInit pool size) calls results rb) :
    ActsAsFifo size.toNat calls results rb ↔
      ringbufferMachine.Run Ringbuffer.Reads (rtRingbufferInit pool size) calls results rb := by
  constructor
  · rintro ⟨queue, same, -, -⟩
    exact (Ringbuffer.reads_of_fifo valid run same).1
  · intro reads
    obtain ⟨queue, same, stores⟩ := Ringbuffer.fifo_of_reads valid reads
    exact ⟨queue, same, stores.length_le, stores.holds.count valid.mask⟩

instance (rb : Ringbuffer) (call : RingbufferCall) : Decidable (rb.Reads call) :=
  match call with
  | .put _ _ => inferInstanceAs (Decidable True)
  | .get _ _ => inferInstanceAs (Decidable (_ ∨ _))

/-- Of five bytes, four fit, and a `get` of nine takes them. -/
theorem ringbuffer_fifo_four : ∃ rb,
    ActsAsFifo 4 [.put (fun place => place) 5, .get (fun _ => 0) 9]
      [.stored 4, .fetched [0, 1, 2, 3]] rb := by
  have executed : ((ringbufferMachine.restrict Ringbuffer.Reads).execute
      (rtRingbufferInit (fun _ => 0) 4) [.put (fun place => place) 5, .get (fun _ => 0) 9]).map
        Prod.snd = some [.stored 4, .fetched [0, 1, 2, 3]] := by decide +kernel
  obtain ⟨⟨rb, results⟩, result, rfl⟩ := Option.map_eq_some_iff.mp executed
  have reads := Machine.run_of_execute_restrict result
  exact ⟨rb, (ringbuffer_fifo ⟨2, by decide⟩ (reads.mono fun _ _ _ => trivial)).mpr reads⟩

/-- After 65536 bytes have been put and 32768 of them got, a `get` of 40000 takes 40000. -/
theorem ringbuffer_reads_beyond : ∃ calls results rb,
    ringbufferMachine.Run (fun _ _ => True) (rtRingbufferInit (fun _ => 0) 32768) calls results rb ∧
      ¬ ActsAsFifo 32768 calls results rb := by
  have executed : (ringbufferMachine.execute (rtRingbufferInit (fun _ => 0) 32768)
      [.put (fun _ => 1) 32768, .get (fun _ => 0) 32768, .put (fun _ => 2) 32768]).map
        (fun (rb, _) => (rb.readIndex, rb.writeIndex)) = some (32768, 0) := by decide +kernel
  obtain ⟨⟨rb, results⟩, result, indices⟩ := Option.map_eq_some_iff.mp executed
  obtain ⟨readIndex, writeIndex⟩ := Prod.mk.inj indices
  have run := (Machine.run_of_execute (fun _ _ _ => trivial) result).snoc trivial
    (show ringbufferMachine.step rb (.get (fun _ => 0) 40000) = some (_, _) from rfl)
  refine ⟨_, _, _, run, fun fifo => ?_⟩
  obtain ⟨queue, same, -, -⟩ := fifo
  obtain ⟨reads, -⟩ := Ringbuffer.reads_of_fifo ⟨15, by decide⟩ run same
  obtain ⟨results', before, emitted, prior, within, -, -⟩ := reads.last
  obtain ⟨rfl, -⟩ := Prod.mk.inj (Option.some_inj.mp (prior.execute.symm.trans result))
  rw [Ringbuffer.Reads, readIndex, writeIndex] at within
  exact absurd within (by decide)

end RtThread
