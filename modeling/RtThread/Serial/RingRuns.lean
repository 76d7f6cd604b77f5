import RtThread.Std.Machine
import RtThread.Serial.Ring

/-!
# Runs of the serial ring buffer

Whatever the calls, the ring does what a queue of `SERIAL_RBUFFER_SIZE - 1` bytes does
which refuses a byte of `putchar` when it is full, and gives up its oldest byte for one of
`putc`.
-/

namespace RtThread.Serial

open RtThread.Std

inductive RingCall where
  | putc (ch : BitVec 8)
  | putchar (ch : BitVec 8)
  | getc
  | size
deriving DecidableEq, Repr

inductive RingResult where
  /-- The `int` of `putchar` or `getc`. -/
  | value (result : Int)
  | count (size : Nat)
deriving DecidableEq, Repr

/-- `putc` returns nothing. -/
def ringMachine : Machine SerialRingbuffer RingCall RingResult where
  step ring
    | .putc ch => some (ring.putc ch, [])
    | .putchar ch =>
      let (result, ring) := ring.putchar ch
      some (ring, [.value result])
    | .getc =>
      let (result, ring) := ring.getc
      some (ring, [.value result])
    | .size => some (ring, [.count ring.size.toNat])

/-- What the ring is for. -/
def overwritingFifo (capacity : Nat) : Machine (List (BitVec 8)) RingCall RingResult where
  step queue
    | .putc ch => some ((if queue.length < capacity then queue else queue.tail) ++ [ch], [])
    | .putchar ch =>
      if queue.length < capacity then some (queue ++ [ch], [.value 1])
      else some (queue, [.value (-1)])
    | .getc =>
      match queue with
      | [] => some ([], [.value (-1)])
      | ch :: queue => some (queue, [.value ch.toNat])
    | .size => some (queue, [.count queue.length])

/-- The bytes that a ring may hold. -/
def ringCapacity : Nat := serialRbufferSize - 1

namespace SerialRingbuffer

variable {ring : SerialRingbuffer} {queue : List (BitVec 8)}

theorem Contains.length_le (contains : ring.Contains queue) : queue.length ≤ ringCapacity := by
  have room := contains.room
  rw [ringCapacity]
  omega

theorem Contains.indices_lt (contains : ring.Contains queue) :
    ring.getIndex.toNat < serialRbufferSize ∧ ring.putIndex.toNat < serialRbufferSize :=
  ⟨contains.inside, Holds.back_lt contains⟩

/-- A call has the result that it has on the queue. -/
theorem Contains.step (contains : ring.Contains queue) (call : RingCall) :
    ∃ next queue' results, ringMachine.step ring call = some (next, results) ∧
      (overwritingFifo ringCapacity).step queue call = some (queue', results) ∧
      next.Contains queue' := by
  have bound := contains.length_le
  have spare : queue.length < ringCapacity ↔ queue.length + 1 < serialRbufferSize := by
    rw [ringCapacity]
    omega
  cases call with
  | putc ch =>
      refine ⟨ring.putc ch, _, [], rfl, rfl, ?_⟩
      have stored := contains.putc ch
      rw [← apply_ite (· ++ [ch])] at stored
      simpa only [spare] using stored
  | putchar ch =>
      by_cases room : queue.length < ringCapacity
      · obtain ⟨accepted, contains'⟩ := contains.putchar_room (spare.mp room) ch
        refine ⟨(ring.putchar ch).2, queue ++ [ch], [.value 1], ?_, if_pos room, contains'⟩
        rw [← accepted]
        rfl
      · have full : queue.length + 1 = serialRbufferSize := by
          have whole : queue.length = ringCapacity := by omega
          rw [whole]
          rfl
        refine ⟨ring, queue, [.value (-1)], ?_, if_neg room, contains⟩
        simp only [ringMachine, contains.putchar_full full ch]
  | getc =>
      cases queue with
      | nil =>
          refine ⟨ring, [], [.value (-1)], ?_, rfl, contains⟩
          simp only [ringMachine, contains.getc_nil]
      | cons ch queue =>
          obtain ⟨taken, contains'⟩ := contains.getc_cons
          refine ⟨ring.getc.2, queue, [.value ch.toNat], ?_, rfl, contains'⟩
          rw [← taken]
          rfl
  | size =>
      refine ⟨ring, queue, [.count queue.length], ?_, rfl, contains⟩
      rw [← contains.size_toNat]
      rfl

/-- Any calls have the results that they have on the queue. -/
theorem Contains.execute (contains : ring.Contains queue) (calls : List RingCall) :
    ∃ next queue' results, ringMachine.execute ring calls = some (next, results) ∧
      (overwritingFifo ringCapacity).execute queue calls = some (queue', results) ∧
      next.Contains queue' := by
  induction calls generalizing ring queue with
  | nil => exact ⟨ring, queue, [], rfl, rfl, contains⟩
  | cons call calls ih =>
      obtain ⟨next, queue', results, moved, moved', contains'⟩ := contains.step call
      obtain ⟨final, queue'', results', rest, rest', contains''⟩ := ih contains'
      exact ⟨final, queue'', results ++ results', Machine.execute_cons moved rest,
        Machine.execute_cons moved' rest', contains''⟩

end SerialRingbuffer

/-- A queue that gives up its oldest bytes keeps the last ones. -/
theorem overwritingFifo_putc {capacity : Nat} (some_ : 0 < capacity) (queue bytes : List (BitVec 8))
    (bound : queue.length ≤ capacity) :
    (overwritingFifo capacity).execute queue (bytes.map .putc) =
      some ((queue ++ bytes).drop ((queue ++ bytes).length - capacity), []) := by
  induction bytes generalizing queue with
  | nil =>
      have none_ : (queue ++ []).length - capacity = 0 := by
        rw [List.append_nil]
        omega
      rw [none_, List.append_nil]
      rfl
  | cons byte bytes ih =>
      rw [List.map_cons]
      change _ = some (_, [] ++ [])
      refine Machine.execute_cons rfl ?_
      by_cases room : queue.length < capacity
      · rw [if_pos room, ih (queue ++ [byte]) (by simpa using room)]
        simp
      · rw [if_neg room, ih (queue.tail ++ [byte]) (by simp; omega)]
        cases queue with
        | nil => simp at room; omega
        | cons oldest queue =>
            have more : (oldest :: queue ++ byte :: bytes).length - capacity =
                (queue ++ [byte] ++ bytes).length - capacity + 1 := by
              simp at bound room ⊢
              omega
            rw [more]
            simp

/-- For all calls after `serial_ringbuffer_init` the results are those of the queue, whose
bytes the indices enclose; a call that is refused leaves the ring as it is. Calls of `putc`
leave the last bytes. -/
theorem ring_fifo (calls : List RingCall) : ∃ ring queue results,
    ringMachine.execute .init calls = some (ring, results) ∧
      (overwritingFifo ringCapacity).execute [] calls = some (queue, results) ∧
      ring.Contains queue ∧ queue.length ≤ ringCapacity ∧
      ring.getIndex.toNat < serialRbufferSize ∧ ring.putIndex.toNat < serialRbufferSize ∧
      (∀ ch, queue.length = ringCapacity ↔ (ring.putchar ch).1 = -1) ∧
      (∀ ch, (ring.putchar ch).1 = -1 → (ring.putchar ch).2 = ring) ∧
      (queue = [] ↔ ring.getc.1 = -1) ∧ (ring.getc.1 = -1 → ring.getc.2 = ring) ∧
      ∀ bytes, ∃ next, ringMachine.execute ring (bytes.map .putc) = some (next, []) ∧
        next.Contains ((queue ++ bytes).drop ((queue ++ bytes).length - ringCapacity)) := by
  obtain ⟨ring, queue, results, run, run', contains⟩ :=
    SerialRingbuffer.init_contains.execute calls
  obtain ⟨get, put⟩ := contains.indices_lt
  have bound := contains.length_le
  have refused : ∀ ch, queue.length = ringCapacity ↔ (ring.putchar ch).1 = -1 := by
    intro ch
    constructor
    · intro full
      rw [contains.putchar_full (by rw [full]; rfl)]
    · intro result
      by_contra room
      have spare : queue.length + 1 < serialRbufferSize := by
        have below : queue.length < ringCapacity := by omega
        exact Nat.add_lt_of_lt_sub below
      rw [(contains.putchar_room spare ch).1] at result
      cases result
  have emptied : queue = [] ↔ ring.getc.1 = -1 := by
    constructor
    · rintro rfl
      rw [contains.getc_nil]
    · intro result
      cases queue with
      | nil => rfl
      | cons ch queue =>
          rw [contains.getc_cons.1] at result
          omega
  refine ⟨ring, queue, results, run, run', contains, bound, get, put, refused, ?_, emptied, ?_, ?_⟩
  · intro ch result
    have full : queue.length + 1 = serialRbufferSize := by
      rw [(refused ch).mpr result]
      rfl
    rw [contains.putchar_full full]
  · intro result
    obtain rfl := emptied.mpr result
    rw [contains.getc_nil]
  · intro bytes
    obtain ⟨next, queue', results', run, run', contains'⟩ := contains.execute (bytes.map .putc)
    rw [overwritingFifo_putc (by decide) queue bytes bound] at run'
    obtain ⟨rfl, rfl⟩ := Prod.mk.inj (Option.some_inj.mp run')
    exact ⟨next, run, contains'⟩

end RtThread.Serial
