import RtThread.Drivers.PipeRuns

/-!
# The pipe as a queue

The pipe gives the ring buffer its size aligned to four bytes, and the ring buffer
finds bytes with the mask `size - 1`. As long as no call waits and the indices do not
wrap around, the pipe is a queue for the sizes that such a mask works for. For any
other size there is a power of two below the size that the mask takes to the start.
-/

namespace RtThread

open RtThread.Std

/-- A call of `rt_pipe_read` or `rt_pipe_write`. -/
structure PipeCall where
  side : PipeSide
  thread : ThreadId
  buffer : Nat → Byte
  size : BitVec 32

namespace PipeCall

def action (call : PipeCall) : PipeAction :=
  .call call.side call.thread call.buffer call.size

/-- What the call asks of a queue: the ring buffer is given 16 bits of the size. -/
def request (call : PipeCall) : RingbufferCall :=
  match call.side with
  | .reader => .get call.buffer (call.size.setWidth 16)
  | .writer => .put call.buffer (call.size.setWidth 16)

end PipeCall

namespace PipeEvent

def result : PipeEvent → RingbufferResult
  | .read _ bytes => .fetched bytes
  | .written _ count => .stored count

/-- The number of bytes that a call has moved into the pipe. -/
def moved : PipeEvent → Nat
  | .read _ _ => 0
  | .written _ count => count

end PipeEvent

/-- The call does not wait. -/
def PipeSystem.Returns (system : PipeSystem) (action : PipeAction) : Prop :=
  ∃ next event, pipeMachine.step system action = some (next, [event])

/-- Calls which do not wait and move fewer than 65536 bytes have the results that a
queue of `capacity` bytes gives. -/
def Pipe.IsFifo (pipe : Pipe) (capacity : Nat) : Prop :=
  ∀ (calls : List PipeCall) (events : List PipeEvent) (system : PipeSystem),
    pipeMachine.Run PipeSystem.Returns (.start pipe) (calls.map PipeCall.action) events system →
      (events.map PipeEvent.moved).sum < 65536 →
        ∃ queue, (boundedFifo capacity).Run (fun _ _ => True) []
          (calls.map PipeCall.request) (events.map PipeEvent.result) queue

/-! ## Where the mask works -/

section

variable {system next : PipeSystem} {call : PipeCall} {event : PipeEvent}

/-- The write index counts the bytes put. -/
theorem rtRingbufferPut_writeIndex (rb : Ringbuffer) (ptr : Nat → Byte) (length : BitVec 16) :
    (rtRingbufferPut rb ptr length).1.writeIndex.toNat =
      (rb.writeIndex.toNat + (rtRingbufferPut rb ptr length).2) % 65536 := by
  unfold rtRingbufferPut
  dsimp only
  split
  · exact (Nat.mod_eq_of_lt rb.writeIndex.isLt).symm
  · exact BitVec.toNat_add ..

theorem rtRingbufferGet_writeIndex (rb : Ringbuffer) (ptr : Nat → Byte) (length : BitVec 16) :
    (rtRingbufferGet rb ptr length).1.writeIndex = rb.writeIndex := by
  unfold rtRingbufferGet
  dsimp only
  split <;> rfl

namespace PipeSystem

/-- No thread waits. -/
structure Quiet (system : PipeSystem) : Prop where
  readers : system.pipe.suspendedReadList = []
  writers : system.pipe.suspendedWriteList = []

/-- A call that does not wait is a call of the ring buffer. -/
theorem Quiet.step (quiet : system.Quiet)
    (step : pipeMachine.step system call.action = some (next, [event])) :
    next.Quiet ∧ ringbufferMachine.step system.pipe.ringbuffer call.request =
        some (next.pipe.ringbuffer, [event.result]) ∧
      next.pipe.ringbuffer.writeIndex.toNat =
        (system.pipe.ringbuffer.writeIndex.toNat + event.moved) % 65536 := by
  obtain ⟨side, thread, buffer, size⟩ := call
  simp only [pipeMachine, PipeCall.action] at step
  split at step
  · cases side with
    | reader =>
        have passes := Option.some_inj.mp step
        simp only [pass, read, quiet.writers] at passes
        split at passes
        · cases passes
        · obtain ⟨rfl, same⟩ := Prod.mk.inj passes
          rw [← List.singleton_inj.mp same]
          refine ⟨⟨quiet.readers, rfl⟩, rfl, ?_⟩
          rw [PipeEvent.moved, Nat.add_zero, Nat.mod_eq_of_lt (BitVec.isLt _)]
          exact congrArg BitVec.toNat (rtRingbufferGet_writeIndex ..)
    | writer =>
        have passes := Option.some_inj.mp step
        simp only [pass, write, quiet.readers] at passes
        split at passes
        · cases passes
        · obtain ⟨rfl, same⟩ := Prod.mk.inj passes
          rw [← List.singleton_inj.mp same]
          exact ⟨⟨rfl, quiet.writers⟩, rfl, rtRingbufferPut_writeIndex ..⟩
  · cases step

end PipeSystem

variable {size : Nat} {rb : Ringbuffer} {queue queue' : List Byte} {request : RingbufferCall}

/-- Fewer bytes are in the buffer than have been put into it, so that the read index
has not got ahead of the write index. -/
theorem Ringbuffer.Stores.reads (stores : rb.Stores size queue)
    (few : queue.length ≤ rb.writeIndex.toNat) (call : RingbufferCall) : rb.Reads call := by
  cases call with
  | put ptr length => trivial
  | get ptr length =>
      left
      have distance := stores.holds.distance
      rw [BitVec.le_def]
      omega

/-- The queue grows by the bytes that are put into it. -/
theorem boundedFifo_length_le
    (step : (boundedFifo size).step queue request = some (queue', [event.result])) :
    queue'.length ≤ queue.length + event.moved := by
  cases request with
  | put ptr length =>
      obtain ⟨rfl, results⟩ := Prod.mk.inj (Option.some_inj.mp step)
      cases event with
      | read thread bytes => cases results
      | written thread count =>
          rw [List.length_append, bytesOf, List.length_map, List.length_range,
            RingbufferResult.stored.inj (List.singleton_inj.mp results), PipeEvent.moved]
  | get ptr length =>
      obtain ⟨rfl, -⟩ := Prod.mk.inj (Option.some_inj.mp step)
      rw [List.length_drop]
      omega

end

section

variable {memory : Nat → Byte} {size : BitVec 32} {calls : List PipeCall}
  {events : List PipeEvent} {system : PipeSystem}

/-- The ring buffer of a pipe that has not moved 65536 bytes does what the queue does. -/
theorem PipeSystem.fifo_of_few (valid : RingbufferSize (rtAlign size).toNat)
    (run : pipeMachine.Run PipeSystem.Returns (.start (rtPipeCreate memory size))
      (calls.map PipeCall.action) events system)
    (few : (events.map PipeEvent.moved).sum < 65536) :
    system.Quiet ∧
      system.pipe.ringbuffer.writeIndex.toNat = (events.map PipeEvent.moved).sum ∧
      ∃ queue, (boundedFifo (rtAlign size).toNat).Run (fun _ _ => True) []
          (calls.map PipeCall.request) (events.map PipeEvent.result) queue ∧
        system.pipe.ringbuffer.Stores (rtAlign size).toNat queue ∧
        queue.length ≤ (events.map PipeEvent.moved).sum := by
  induction calls using List.reverseRecOn generalizing events system with
  | nil =>
      obtain ⟨rfl, rfl⟩ := run.none
      refine ⟨⟨rfl, rfl⟩, rfl, [], .nil, ?_, Nat.le_refl 0⟩
      have narrow : ((rtAlign size).setWidth 16).toNat = (rtAlign size).toNat := by
        have bounds := valid.bounds
        rw [BitVec.toNat_setWidth]
        omega
      rw [← narrow] at valid ⊢
      exact .init valid
  | append_singleton calls call ih =>
      rw [List.map_append, List.map_singleton] at run ⊢
      obtain ⟨events, before, emitted, prior, ⟨after, event, returned⟩, transition, rfl⟩ := run.last
      obtain ⟨rfl, rfl⟩ := Prod.mk.inj (Option.some_inj.mp (transition.symm.trans returned))
      rw [List.map_append, List.sum_append, List.map_singleton, List.sum_singleton] at few ⊢
      obtain ⟨quiet, counted, queue, same, stores, bound⟩ := ih prior (by omega)
      obtain ⟨quiet', called, index⟩ := quiet.step returned
      obtain ⟨next, queue', result, moved, moved', stores'⟩ :=
        stores.step valid (stores.reads (by omega) call.request)
      obtain ⟨rfl, results⟩ := Prod.mk.inj (Option.some_inj.mp (called.symm.trans moved))
      obtain rfl := List.singleton_inj.mp results
      have grown := boundedFifo_length_le moved'
      rw [counted, Nat.mod_eq_of_lt few] at index
      refine ⟨quiet', index, queue', ?_, stores', ?_⟩
      · rw [List.map_append, List.map_singleton]
        exact same.snoc trivial moved'
      · omega

end

/-! ## Where the mask has a hole -/

section

variable {rb : Ringbuffer} {buffer ptr : Nat → Byte} {front back bytes length : BitVec 16}
  {position : Nat}

/-- Bytes which fit in front of the end of the buffer are put in one piece. -/
theorem rtRingbufferPut_low (some_ : bytes - (back - front) ≠ 0)
    (room : length ≤ bytes - (back - front)) (start : (back &&& (bytes - 1)).toNat = position)
    (low : position + length.toNat < bytes.toNat) :
    rtRingbufferPut ⟨front, back, buffer, bytes⟩ ptr length =
      (⟨front, back + length, memcpy buffer position ptr 0 length.toNat, bytes⟩,
        length.toNat) := by
  unfold rtRingbufferPut
  dsimp only
  rw [if_neg some_, if_neg (BitVec.not_lt.mpr room), start, if_pos (by omega)]

/-- A byte is read from the start of the buffer. -/
theorem rtRingbufferGet_first (start : rb.readIndex = 0) (some_ : rb.writeIndex ≠ 0)
    (sized : rb.bufferSize ≠ 0) :
    rtRingbufferGet rb ptr 1 =
      ({ rb with readIndex := 1 }, memcpy ptr 0 rb.buffer 0 1, 1) := by
  have wide : rb.writeIndex.setWidth 32 - rb.readIndex.setWidth 32 ≠ (0 : BitVec 32) := by
    rw [start]
    bv_omega
  have enough : ¬ rb.writeIndex.setWidth 32 - rb.readIndex.setWidth 32 <
      (1 : BitVec 16).setWidth 32 := by
    rw [start]
    bv_omega
  have first : (rb.readIndex &&& (rb.bufferSize - 1)).toNat = 0 := by
    rw [start]
    simp
  have fits : (1 : BitVec 16).toNat ≤ rb.bufferSize.toNat - 0 := by bv_omega
  unfold rtRingbufferGet
  dsimp only
  rw [if_neg wide, if_neg enough, first, if_pos fits, start]
  rfl

namespace PipeSystem.Quiet

variable {system : PipeSystem} {rb' : Ringbuffer} {ptr' : Nat → Byte} {count : Nat}
  {thread : ThreadId} {request : BitVec 32}

/-- A write that finds room, while nobody waits. -/
theorem write (quiet : system.Quiet) (idle : system.phase thread = .idle)
    (put : rtRingbufferPut system.pipe.ringbuffer ptr (request.setWidth 16) = (rb', count))
    (some_ : count ≠ 0) :
    ∃ next, pipeMachine.step system (.call .writer thread ptr request) =
        some (next, [.written thread count]) ∧
      next.Quiet ∧ next.phase thread = .idle ∧ next.pipe.ringbuffer = rb' := by
  refine ⟨PipeSystem.done ⟨{ system.pipe with ringbuffer := rb' }, system.phase⟩ thread, ?_,
    ⟨quiet.readers, quiet.writers⟩, Function.update_self .., rfl⟩
  simp only [pipeMachine, idle, pass, PipeSystem.write, put, if_neg some_, quiet.readers]

/-- A read that finds bytes, while nobody waits. -/
theorem read (quiet : system.Quiet) (idle : system.phase thread = .idle)
    (get : rtRingbufferGet system.pipe.ringbuffer ptr (request.setWidth 16) = (rb', ptr', count))
    (some_ : count ≠ 0) :
    ∃ next, pipeMachine.step system (.call .reader thread ptr request) =
        some (next, [.read thread (bytesOf ptr' count)]) := by
  simp only [pipeMachine, idle, pass, PipeSystem.read, get, if_neg some_, quiet.writers]
  exact ⟨_, rfl⟩

end PipeSystem.Quiet

variable {memory : Nat → Byte} {size : BitVec 32}

/-- Zeros up to the hole in the mask, and then a one. -/
def holeCalls (power : Nat) : List PipeCall :=
  [⟨.writer, 0, fun _ => 0, BitVec.ofNat 32 (2 ^ power)⟩, ⟨.writer, 0, fun _ => 1, 1⟩,
    ⟨.reader, 0, fun _ => 0, 1⟩]

theorem start_ringbuffer (accepted : size.toNat ≤ 32768) :
    (rtPipeCreate memory size).ringbuffer =
        ⟨0, 0, memory, (rtPipeCreate memory size).ringbuffer.bufferSize⟩ ∧
      (rtPipeCreate memory size).ringbuffer.bufferSize.toNat = (rtAlign size).toNat := by
  have aligned := rtAlign_toNat (show size.toNat ≤ 0xFFFFFFFC by omega)
  refine ⟨rfl, ?_⟩
  rw [rtPipeCreate, rtRingbufferInit, rtAlignDown]
  dsimp only
  rw [BitVec.toNat_setWidth, mask_toNat, BitVec.toNat_setWidth, BitVec.toNat_setWidth, aligned]
  omega

/-- A mask with a hole takes the byte behind `length` bytes to the start of the buffer. -/
theorem put_hole (positive : 0 < length.toNat) (below : length.toNat < bytes.toNat)
    (small : bytes.toNat ≤ 32768) (hole : length.toNat &&& (bytes.toNat - 1) = 0)
    (buffer : Nat → Byte) :
    rtRingbufferPut ⟨0, 0, buffer, bytes⟩ (fun _ => 0) length =
        (⟨0, length, memcpy buffer 0 (fun _ => 0) 0 length.toNat, bytes⟩, length.toNat) ∧
      rtRingbufferPut ⟨0, length, buffer, bytes⟩ (fun _ => 1) 1 =
        (⟨0, length + 1, memcpy buffer 0 (fun _ => 1) 0 1, bytes⟩, 1) := by
  have zero : (0 &&& (bytes - 1) : BitVec 16).toNat = 0 := by simp
  have start : (length &&& (bytes - 1)).toNat = 0 := by
    have mask : (bytes - 1).toNat = bytes.toNat - 1 := by bv_omega
    rw [BitVec.toNat_and, mask, hole]
  constructor
  · have put := @rtRingbufferPut_low buffer (fun _ => 0) 0 0 bytes length 0 (by bv_omega)
      (by bv_omega) zero (by omega)
    rwa [show 0 + length = length by simp] at put
  · exact rtRingbufferPut_low (by bv_omega) (by bv_omega) start (by bv_omega)

/-- The one is read before the zeros. -/
theorem PipeSystem.hole_run {power : Nat} (accepted : size.toNat ≤ 32768)
    (below : 2 ^ power < (rtAlign size).toNat)
    (hole : 2 ^ power &&& ((rtAlign size).toNat - 1) = 0) :
    ∃ system, pipeMachine.Run PipeSystem.Returns (.start (rtPipeCreate memory size))
      ((holeCalls power).map PipeCall.action)
      [.written 0 (2 ^ power), .written 0 1, .read 0 [1]] system := by
  obtain ⟨same, bound⟩ := @start_ringbuffer memory size accepted
  have aligned := rtAlign_toNat (show size.toNat ≤ 0xFFFFFFFC by omega)
  have positive := Nat.two_pow_pos power
  rw [← bound] at below hole aligned
  obtain ⟨bytes, isBytes⟩ : ∃ bytes, (rtPipeCreate memory size).ringbuffer.bufferSize = bytes :=
    ⟨_, rfl⟩
  rw [isBytes] at same below hole aligned
  obtain ⟨length, isLength, narrow⟩ : ∃ length : BitVec 16,
      (BitVec.ofNat 32 (2 ^ power)).setWidth 16 = length ∧ length.toNat = 2 ^ power := by
    refine ⟨_, rfl, ?_⟩
    rw [BitVec.toNat_setWidth, BitVec.toNat_ofNat, Nat.mod_eq_of_lt (by omega),
      Nat.mod_eq_of_lt (by omega)]
  rw [← narrow] at below hole positive
  have puts := put_hole positive below (by omega) hole
  have quiet : (PipeSystem.start (rtPipeCreate memory size)).Quiet := ⟨rfl, rfl⟩
  obtain ⟨zeros, step, quiet, idle, holds⟩ := @Quiet.write (fun _ => 0) _ _ length.toNat 0
    (BitVec.ofNat 32 (2 ^ power)) quiet rfl (by
      rw [isLength]
      exact (congrArg (rtRingbufferPut · _ _) same).trans (puts memory).1) positive.ne'
  have first : pipeMachine.Run PipeSystem.Returns _ _ _ zeros := .snoc .nil ⟨_, _, step⟩ step
  obtain ⟨one, step, quiet, idle, holds⟩ := @Quiet.write (fun _ => 1) _ _ 1 0 1 quiet idle (by
      rw [holds]
      exact (puts _).2) (by decide)
  have second := first.snoc ⟨_, _, step⟩ step
  obtain ⟨next, step⟩ := @Quiet.read (fun _ => 0) _ _ _ 1 0 1 quiet idle (by
      rw [holds]
      exact rtRingbufferGet_first rfl (by bv_omega) (by bv_omega)) (by decide)
  have third := second.snoc ⟨_, _, step⟩ step
  rw [narrow] at third
  exact ⟨_, third⟩

/-- A queue gives out a zero. -/
theorem not_isFifo_of_hole {power : Nat} (accepted : size.toNat ≤ 32768)
    (below : 2 ^ power < (rtAlign size).toNat)
    (hole : 2 ^ power &&& ((rtAlign size).toNat - 1) = 0) :
    ¬ (rtPipeCreate memory size).IsFifo (rtAlign size).toNat := by
  intro fifo
  have aligned := rtAlign_toNat (show size.toNat ≤ 0xFFFFFFFC by omega)
  obtain ⟨system, run⟩ := @PipeSystem.hole_run memory size power accepted below hole
  have few : 2 ^ power + (1 + (0 + 0)) < 65536 := by omega
  obtain ⟨queue, same⟩ := fifo _ _ _ run few
  have results := (Prod.mk.inj (Option.some_inj.mp same.execute)).2
  have fetched := RingbufferResult.fetched.inj
    (List.cons.inj (List.cons.inj (List.cons.inj results).2).2).1
  have positive := Nat.two_pow_pos power
  have length : ((BitVec.ofNat 32 (2 ^ power)).setWidth 16 : BitVec 16).toNat = 2 ^ power := by
    rw [BitVec.toNat_setWidth, BitVec.toNat_ofNat, Nat.mod_eq_of_lt (by omega),
      Nat.mod_eq_of_lt (by omega)]
  rw [length] at fetched
  obtain ⟨rest, zeros⟩ : ∃ rest : List Byte, bytesOf (fun _ => 0)
      (min (2 ^ power) ((rtAlign size).toNat - ([] : List Byte).length)) = 0 :: rest := by
    rw [List.length_nil, Nat.sub_zero, Nat.min_eq_left below.le, bytesOf,
      ← Nat.succ_pred_eq_of_pos positive, List.range_succ_eq_map]
    exact ⟨_, rfl⟩
  dsimp only at fetched
  rw [List.nil_append, zeros] at fetched
  exact absurd (List.cons.inj fetched).1 (by decide)

end

/-- A pipe is a queue for the sizes that a mask works for once they are aligned. -/
theorem pipe_fifo (memory : Nat → Byte) {size : BitVec 32}
    (accepted : 1 ≤ size.toNat ∧ size.toNat ≤ 32768) :
    (rtPipeCreate memory size).IsFifo (rtAlign size).toNat ↔
      RingbufferSize (rtAlign size).toNat := by
  have aligned := rtAlign_toNat (show size.toNat ≤ 0xFFFFFFFC by omega)
  constructor
  · intro fifo
    by_contra unsuited
    have unmasked : ¬ ∃ power, (rtAlign size).toNat = 2 ^ power := by
      rintro ⟨power, same⟩
      refine unsuited ⟨power, ?_, ?_, same⟩
      · refine Nat.le_of_not_lt fun low => ?_
        have short := Nat.pow_le_pow_right (show 0 < 2 by decide) (Nat.le_of_lt_succ low)
        omega
      · refine Nat.le_of_not_lt fun high => ?_
        have long := Nat.pow_le_pow_right (show 0 < 2 by decide) (Nat.succ_le_of_lt high)
        omega
    obtain ⟨power, below, hole⟩ := exists_hole (by omega) unmasked
    exact not_isFifo_of_hole accepted.2 below hole fifo
  · intro valid calls events system run few
    obtain ⟨-, -, queue, same, -, -⟩ := PipeSystem.fifo_of_few valid run few
    exact ⟨queue, same⟩

/-- The sizes 5 to 8 are aligned to 8, which a mask works for. -/
theorem pipe_fifo_five : (rtPipeCreate (fun _ => 0) 5).IsFifo (rtAlign 5).toNat :=
  (pipe_fifo (fun _ => 0) (by decide)).mpr ⟨3, by decide, by decide, rfl⟩

/-- In a pipe of 12 bytes the fifth byte is stored over the first one: it is read in
place of the first one. -/
theorem pipe_overwrites :
    (∃ system, pipeMachine.Run PipeSystem.Returns (.start (rtPipeCreate (fun _ => 0) 12))
        [.call .writer 0 (fun _ => 0) 4, .call .writer 0 (fun _ => 1) 1,
          .call .reader 0 (fun _ => 0) 1]
        [.written 0 4, .written 0 1, .read 0 [1]] system) ∧
      ¬ (rtPipeCreate (fun _ => 0) 12).IsFifo (rtAlign 12).toNat :=
  have below : 2 ^ 2 < (rtAlign 12).toNat := by decide
  have hole : 2 ^ 2 &&& ((rtAlign 12).toNat - 1) = 0 := by decide
  ⟨PipeSystem.hole_run (by decide) below hole, not_isFifo_of_hole (by decide) below hole⟩

end RtThread
