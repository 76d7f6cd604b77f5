import RtThread.Std.Machine
import RtThread.Serial.Device

/-!
# Interrupt-mode receive

`getchar` drains the receive FIFO in a loop of its own and returns at most one
of the bytes it has read. So a receive interrupt loses nothing exactly when it
is a character time-out that finds a single byte.
-/

namespace RtThread.Serial

open RtThread.Std

/-- How many bytes the receive FIFO holds. -/
def rxFifoDepth : Nat := 16

/-- The hardware receives a byte, or raises one of the receive interrupts. -/
inductive RxAction where
  | arrive (byte : BitVec 8)
  | interrupt (source : Interrupt)
deriving DecidableEq, Repr

/-- RDA needs `FIFO_THRESHOLD` bytes in the FIFO, CTI fewer but at least one. -/
def RxPending (device : SerialDevice) : Interrupt → Prop
  | .rda => fifoThreshold.toNat ≤ device.uart.rbr.length
  | .cti => 0 < device.uart.rbr.length ∧ device.uart.rbr.length < fifoThreshold.toNat
  | .thre => False

instance (device : SerialDevice) : (source : Interrupt) → Decidable (RxPending device source)
  | .rda => inferInstanceAs (Decidable (_ ≤ _))
  | .cti => inferInstanceAs (Decidable (_ ∧ _))
  | .thre => inferInstanceAs (Decidable False)

/-- The receive side of the device. Each interrupt is reported with the state
that it found. A byte that arrives at a full FIFO is lost by the hardware. -/
def rxMachine : Machine SerialDevice RxAction (SerialDevice × Interrupt) where
  step device
    | .arrive byte =>
      let rbr := if device.uart.rbr.length < rxFifoDepth then device.uart.rbr ++ [byte]
        else device.uart.rbr
      some ({ device with uart := { device.uart with rbr := rbr } }, [])
    | .interrupt source =>
      if RxPending device source then
        (uart0IrqHandler device source).map fun next => (next, [(device, source)])
      else none

/-- The bytes that the handler takes from RBR are appended to the receive ring,
each once and in order, and after RDA some byte is left for a later CTI. -/
def LosesNothing (device : SerialDevice) (source : Interrupt) : Prop :=
  ∃ next popped, uart0IrqHandler device source = some next ∧
    device.uart.rbr = popped ++ next.uart.rbr ∧
    next.intRx = popped.foldl SerialRingbuffer.putc device.intRx ∧
    (source = .rda → next.uart.rbr ≠ [])

/-- A character time-out with one byte in the FIFO. -/
def SingleTimeout (device : SerialDevice) (source : Interrupt) : Prop :=
  source = .cti ∧ device.uart.rbr.length = 1

/-! ## What `getchar` does with the FIFO -/

/-- With fewer bytes than its budget `getchar` reads them all and returns the last. -/
theorem getcharLoop_drains {rbr : List (BitVec 8)} {result : Int} {budget : BitVec 8}
    (few : rbr.length < budget.toNat) :
    ∃ left, SerialDevice.getcharLoop result budget rbr =
      ((rbr.getLast?.map fun byte => (byte.toNat : Int)).getD result, left, []) := by
  induction rbr generalizing result budget with
  | nil => exact ⟨budget, rfl⟩
  | cons byte rbr ih =>
      rw [List.length_cons] at few
      have larger : budget > 1 := by
        rw [gt_iff_lt, BitVec.lt_def]
        exact Nat.lt_of_le_of_lt (by simp) few
      have spent : (budget - 1).toNat = budget.toNat - 1 :=
        BitVec.toNat_sub_of_le (BitVec.le_of_lt larger)
      obtain ⟨left, drained⟩ := @ih byte.toNat (budget - 1) (by omega)
      refine ⟨left, ?_⟩
      rw [SerialDevice.getcharLoop, if_pos larger, drained]
      cases rbr <;> simp [List.getLast?_cons]

/-- With at least as many bytes as its budget `getchar` reads all but one of the
budget and returns none of them. -/
theorem getcharLoop_stops {rbr : List (BitVec 8)} {result : Int} {budget : BitVec 8}
    (positive : 0 < budget.toNat) (many : budget.toNat ≤ rbr.length) :
    SerialDevice.getcharLoop result budget rbr = (-1, 1, rbr.drop (budget.toNat - 1)) := by
  induction rbr generalizing result budget with
  | nil =>
      rw [List.length_nil] at many
      omega
  | cons byte rbr ih =>
      rw [SerialDevice.getcharLoop]
      split
      · rename_i larger
        have spent : (budget - 1).toNat = budget.toNat - 1 :=
          BitVec.toNat_sub_of_le (BitVec.le_of_lt larger)
        have above : 1 < budget.toNat := larger
        rw [List.length_cons] at many
        rw [ih (by omega) (by omega), spent]
        obtain ⟨more, shape⟩ : ∃ more, budget.toNat - 1 = more + 1 := ⟨budget.toNat - 2, by omega⟩
        rw [shape, List.drop_succ_cons, Nat.add_sub_cancel]
      · rename_i last
        have one : budget = 1 := by
          rw [gt_iff_lt, BitVec.lt_def] at last
          exact BitVec.eq_of_toNat_eq (Nat.le_antisymm (Nat.le_of_not_lt last) positive)
        subst one
        rfl

namespace SerialDevice

/-- With nothing in the FIFO the receive loop ends. -/
theorem receiveLoop_nil {device : SerialDevice} (empty : device.uart.rbr = []) :
    device.receiveLoop = some device := by
  rw [receiveLoop]
  simp only [getchar, empty, getcharLoop, if_true]
  rw [← empty]

/-- A receive loop with the budget to drain the FIFO stores its last byte only. -/
theorem receiveLoop_drains {device : SerialDevice} {last : BitVec 8}
    (few : device.uart.rbr.length < device.recvFifoLength.toNat)
    (ends : device.uart.rbr.getLast? = some last) :
    ∃ next, device.receiveLoop = some next ∧ next.uart.rbr = [] ∧
      next.intRx = device.intRx.putc last := by
  obtain ⟨left, drained⟩ := @getcharLoop_drains _ (-1) _ few
  rw [ends] at drained
  have byte : (last.toNat : Int) ≠ -1 := by omega
  rw [receiveLoop, getchar, drained]
  simp only [Option.map_some, Option.getD_some, byte, if_false]
  refine ⟨_, receiveLoop_nil rfl, rfl, ?_⟩
  simp

/-- A receive loop whose budget is in the FIFO drops what it reads. -/
theorem receiveLoop_stops {device : SerialDevice} (positive : 0 < device.recvFifoLength.toNat)
    (many : device.recvFifoLength.toNat ≤ device.uart.rbr.length) :
    ∃ next, device.receiveLoop = some next ∧
      next.uart.rbr = device.uart.rbr.drop (device.recvFifoLength.toNat - 1) ∧
      next.intRx = device.intRx := by
  rw [receiveLoop, getchar, getcharLoop_stops positive many]
  exact ⟨_, if_pos rfl, rfl, rfl⟩

end SerialDevice

/-! ## What an interrupt loses -/

/-- A character time-out empties the FIFO and stores its last byte only. -/
theorem uart0IrqHandler_cti {device : SerialDevice} {last : BitVec 8}
    (few : device.uart.rbr.length < fifoThreshold.toNat)
    (ends : device.uart.rbr.getLast? = some last) :
    ∃ next, uart0IrqHandler device .cti = some next ∧ next.uart.rbr = [] ∧
      next.intRx = device.intRx.putc last := by
  obtain ⟨next, received, empty, stored⟩ :=
    @SerialDevice.receiveLoop_drains { device with recvFifoLength := fifoThreshold } last few ends
  exact ⟨_, Option.bind_eq_some_iff.mpr ⟨next, received, rfl⟩, empty, stored⟩

/-- Receive data available takes all but one byte of the threshold and stores none. -/
theorem uart0IrqHandler_rda {device : SerialDevice}
    (many : fifoThreshold.toNat ≤ device.uart.rbr.length) :
    ∃ next, uart0IrqHandler device .rda = some next ∧
      next.uart.rbr = device.uart.rbr.drop (fifoThreshold.toNat - 1) ∧
      next.intRx = device.intRx :=
  have positive : 0 < fifoThreshold.toNat := by decide
  @SerialDevice.receiveLoop_stops { device with recvFifoLength := fifoThreshold } positive many

/-- Whatever it loses, receive data available leaves a byte in the FIFO. -/
theorem rda_leaves_byte {device next : SerialDevice} (pending : RxPending device .rda)
    (handled : uart0IrqHandler device .rda = some next) : next.uart.rbr ≠ [] := by
  obtain ⟨_, handled', left, -⟩ := uart0IrqHandler_rda pending
  obtain rfl := Option.some_inj.mp (handled'.symm.trans handled)
  have many : fifoThreshold.toNat ≤ device.uart.rbr.length := pending
  have threshold : fifoThreshold.toNat = 14 := rfl
  rw [left, Ne, List.drop_eq_nil_iff]
  omega

/-- Every stored byte moves the put index by one. -/
theorem putIndex_foldl_putc (bytes : List (BitVec 8)) (ring : SerialRingbuffer) :
    (bytes.foldl SerialRingbuffer.putc ring).putIndex.toNat % serialRbufferSize =
      (ring.putIndex.toNat + bytes.length) % serialRbufferSize := by
  induction bytes generalizing ring with
  | nil => rfl
  | cons byte bytes ih =>
      have moved : (ring.putc byte).putIndex = nextIndex ring.putIndex := by
        unfold SerialRingbuffer.putc
        dsimp only
        split <;> rfl
      rw [List.foldl_cons, ih, moved, nextIndex_toNat, Nat.mod_add_mod, List.length_cons]
      congr 1
      omega

/-- Rings that have taken different numbers of bytes differ. -/
theorem length_congr_of_foldl_putc {bytes bytes' : List (BitVec 8)} {ring : SerialRingbuffer}
    (same : bytes.foldl SerialRingbuffer.putc ring = bytes'.foldl SerialRingbuffer.putc ring)
    (few : bytes.length < serialRbufferSize) (few' : bytes'.length < serialRbufferSize) :
    bytes.length = bytes'.length := by
  have indices := putIndex_foldl_putc bytes ring
  rw [same, putIndex_foldl_putc] at indices
  exact (offset_inj few' few indices).symm

/-- An interrupt loses nothing exactly when it is a time-out with a single byte. -/
theorem losesNothing_iff {device : SerialDevice} {source : Interrupt}
    (pending : RxPending device source) :
    LosesNothing device source ↔ SingleTimeout device source := by
  have threshold : fifoThreshold.toNat = 14 := rfl
  have size : serialRbufferSize = 128 := rfl
  cases source with
  | thre => exact pending.elim
  | rda =>
      obtain ⟨next, handled, left, kept⟩ := uart0IrqHandler_rda pending
      have many : fifoThreshold.toNat ≤ device.uart.rbr.length := pending
      constructor
      · rintro ⟨_, popped, handled', shape, stored, -⟩
        obtain rfl := Option.some_inj.mp (handled'.symm.trans handled)
        have taken := congrArg List.length shape
        rw [List.length_append, left, List.length_drop] at taken
        have none : ([] : List (BitVec 8)).length = popped.length :=
          length_congr_of_foldl_putc (kept.symm.trans stored) (by simp [size]) (by omega)
        rw [List.length_nil] at none
        omega
      · rintro ⟨impossible, -⟩
        cases impossible
  | cti =>
      obtain ⟨positive, few⟩ : 0 < device.uart.rbr.length ∧
        device.uart.rbr.length < fifoThreshold.toNat := pending
      have nonempty := List.ne_nil_of_length_pos positive
      obtain ⟨next, handled, empty, kept⟩ :=
        uart0IrqHandler_cti few (List.getLast?_eq_some_getLast nonempty)
      constructor
      · rintro ⟨_, popped, handled', shape, stored, -⟩
        obtain rfl := Option.some_inj.mp (handled'.symm.trans handled)
        rw [empty, List.append_nil] at shape
        have one : [device.uart.rbr.getLast nonempty].length = popped.length :=
          length_congr_of_foldl_putc (kept.symm.trans stored) (by simp [size])
            (by rw [← shape]; omega)
        exact ⟨rfl, by rw [shape, ← one]; rfl⟩
      · rintro ⟨-, single⟩
        obtain ⟨byte, shape⟩ := List.length_eq_one_iff.mp single
        refine ⟨next, [byte], handled, by rw [shape, empty]; rfl, ?_, by simp⟩
        rw [kept]
        simp [shape]

/-! ## Every run -/

/-- Along every run of arrivals and receive interrupts, no interrupt loses a
byte if and only if each is a character time-out which finds one byte. -/
theorem receive_loses_nothing_iff {start device : SerialDevice} {actions : List RxAction}
    {events : List (SerialDevice × Interrupt)}
    (run : rxMachine.Run (fun _ _ => True) start actions events device) :
    (∀ taken ∈ events, LosesNothing taken.1 taken.2) ↔
      ∀ taken ∈ events, SingleTimeout taken.1 taken.2 := by
  have pending : ∀ taken ∈ events, RxPending taken.1 taken.2 := by
    induction run with
    | nil => simp
    | @snoc _ _ state action _ _ _ _ step ih =>
        intro taken member
        rcases List.mem_append.mp member with earlier | last
        · exact ih taken earlier
        · cases action with
          | arrive byte =>
              obtain ⟨-, rfl⟩ := Prod.mk.inj (Option.some_inj.mp step)
              cases last
          | interrupt source =>
              obtain ⟨raised, handled⟩ := Option.ite_none_right_eq_some.mp step
              obtain ⟨next, -, pair⟩ := Option.map_eq_some_iff.mp handled
              obtain ⟨-, rfl⟩ := Prod.mk.inj pair
              rw [List.mem_singleton.mp last]
              exact raised
  constructor
  · intro lossless taken member
    exact (losesNothing_iff (pending taken member)).mp (lossless taken member)
  · intro single taken member
    exact (losesNothing_iff (pending taken member)).mpr (single taken member)

/-- A character time-out can be served. -/
theorem step_timeout {device : SerialDevice} (pending : RxPending device .cti) :
    ∃ next, rxMachine.step device (.interrupt .cti) = some (next, [(device, .cti)]) := by
  have nonempty := List.ne_nil_of_length_pos pending.1
  obtain ⟨next, handled, -⟩ :=
    uart0IrqHandler_cti pending.2 (List.getLast?_eq_some_getLast nonempty)
  refine ⟨next, ?_⟩
  simp only [rxMachine, if_pos pending, handled, Option.map_some]

/-- An idle device with these bytes in the receive FIFO. -/
def arrived (bytes : List (BitVec 8)) : SerialDevice :=
  { SerialDevice.init with uart := ⟨bytes, [], 0⟩ }

/-- Two bytes arrive and a character time-out loses the first. -/
theorem receive_loses_byte :
    ∃ device events, rxMachine.execute .init [.arrive 0x41, .arrive 0x42, .interrupt .cti] =
        some (device, events) ∧ ¬ ∀ taken ∈ events, LosesNothing taken.1 taken.2 := by
  have pending : RxPending (arrived [0x41, 0x42]) .cti := by decide
  have first : rxMachine.step .init (.arrive 0x41) = some (arrived [0x41], []) := rfl
  have second : rxMachine.step (arrived [0x41]) (.arrive 0x42) =
      some (arrived [0x41, 0x42], []) := rfl
  obtain ⟨next, third⟩ := step_timeout pending
  have success : rxMachine.execute .init [.arrive 0x41, .arrive 0x42, .interrupt .cti] =
      some (next, [(arrived [0x41, 0x42], .cti)]) :=
    Machine.execute_cons first (Machine.execute_cons second (Machine.execute_cons third rfl))
  refine ⟨next, _, success, fun lossless => ?_⟩
  have single := (losesNothing_iff pending).mp (lossless _ (List.mem_singleton_self _))
  exact absurd single.2 (by decide)

/-- A single byte arrives and a character time-out stores it. -/
theorem receive_loses_nothing_iff_single :
    ∃ device events, rxMachine.execute .init [.arrive 0x41, .interrupt .cti] =
        some (device, events) ∧
      ((∀ taken ∈ events, LosesNothing taken.1 taken.2) ↔
        ∀ taken ∈ events, SingleTimeout taken.1 taken.2) := by
  have pending : RxPending (arrived [0x41]) .cti := by decide
  have first : rxMachine.step .init (.arrive 0x41) = some (arrived [0x41], []) := rfl
  obtain ⟨next, second⟩ := step_timeout pending
  have success : rxMachine.execute .init [.arrive 0x41, .interrupt .cti] =
      some (next, [(arrived [0x41], .cti)]) :=
    Machine.execute_cons first (Machine.execute_cons second rfl)
  exact ⟨next, _, success, receive_loses_nothing_iff (rxMachine.run_of_execute (by simp) success)⟩

end RtThread.Serial
