import RtThread.Std.Machine
import RtThread.Serial.Device

/-!
# Interrupt-mode transmit

`rt_serial_write` and the THRE interrupt as whole steps. `serial_put` takes a
byte of value zero for an empty ring, so the transmitter delivers what it has
accepted as long as it accepts no such byte.
-/

namespace RtThread.Serial

open RtThread.Std

/-- A program writes, the line takes a byte from the transmit FIFO, or the FIFO
has drained and raises THRE. -/
inductive TxAction where
  | write (buffer : List (BitVec 8))
  | shift
  | thre
deriving DecidableEq, Repr

/-- The transmit side of the device. A write reports the bytes that it counts as
written. -/
def txMachine : Machine SerialDevice TxAction (List (BitVec 8)) where
  step device
    | .write buffer =>
      (device.rtSerialWrite buffer).map fun (writeNbytes, next) =>
        (next, [buffer.take writeNbytes])
    | .shift =>
      if device.uart.txFifo ≠ 0 then
        some ({ device with uart := { device.uart with txFifo := device.uart.txFifo - 1 } }, [])
      else none
    | .thre =>
      if device.uart.txFifo = 0 then (uart0IrqHandler device .thre).map fun next => (next, [])
      else none

/-- None of the bytes for which the ring has room is zero. -/
def AcceptsNonzero (device : SerialDevice) : TxAction → Prop
  | .write buffer =>
    0 ∉ buffer.take (serialRbufferSize - 1 - device.intTx.size.toNat)
  | _ => True

/-- The bytes written to THR are a prefix of those accepted, and when `tx_busy` is
clear the ring is empty and none is missing. -/
def Delivers (accepted : List (BitVec 8)) (device : SerialDevice) : Prop :=
  device.uart.thr <+: accepted ∧
    (device.txBusy = false →
      device.intTx.getIndex = device.intTx.putIndex ∧ device.uart.thr = accepted)

/-- What has been written to THR and what waits in the ring are, together, the
bytes accepted so far. -/
structure TxInv (accepted : List (BitVec 8)) (device : SerialDevice) (queue : List (BitVec 8)) :
    Prop where
  ring : device.intTx.Contains queue
  nonzero : 0 ∉ queue
  delivered : device.uart.thr ++ queue = accepted
  idle : device.txBusy = false → queue = [] ∧ device.sendFifoLength = 0

namespace SerialDevice

variable {device : SerialDevice} {queue : List (BitVec 8)}

/-- What `rt_serial_write` takes from its buffer is as much as fits the ring. -/
theorem storeBytes_contains {ring : SerialRingbuffer} (contains : ring.Contains queue)
    (bytes : List (BitVec 8)) :
    (storeBytes ring bytes).1 = min bytes.length (serialRbufferSize - 1 - queue.length) ∧
      (storeBytes ring bytes).2.Contains
        (queue ++ bytes.take (serialRbufferSize - 1 - queue.length)) := by
  induction bytes generalizing ring queue with
  | nil => simpa [storeBytes] using contains
  | cons byte bytes ih =>
      have room := contains.room
      by_cases spare : queue.length + 1 < serialRbufferSize
      · obtain ⟨accepted, contains'⟩ := contains.putchar_room spare byte
        obtain ⟨stored, contains''⟩ := ih contains'
        rw [List.append_assoc, List.singleton_append] at contains''
        have left : serialRbufferSize - 1 - queue.length =
            serialRbufferSize - 1 - (queue ++ [byte]).length + 1 := by
          rw [List.length_append, List.length_singleton]
          omega
        simp only [storeBytes]
        rw [accepted, if_pos (by decide), left, List.take_succ_cons]
        refine ⟨?_, contains''⟩
        rw [stored, List.length_cons]
        omega
      · have full : queue.length + 1 = serialRbufferSize := by omega
        have none : serialRbufferSize - 1 - queue.length = 0 := by omega
        simpa [storeBytes, contains.putchar_full full byte, none] using contains

/-- A write with `tx_busy` clear stores its bytes, sets `tx_busy` and sends. -/
theorem rtSerialWrite_idle (idle : device.txBusy = false) (buffer : List (BitVec 8)) :
    device.rtSerialWrite buffer =
      (serialPut { device with intTx := (storeBytes device.intTx buffer).2, txBusy := true }).map
        fun (_, next) => ((storeBytes device.intTx buffer).1, next) := by
  rw [rtSerialWrite, Option.map_eq_bind]
  simp only [idle, if_true]
  rfl

/-- An empty ring ends `serial_put`, which clears `tx_busy` if it has sent nothing. -/
theorem serialPutLoop_nil (contains : device.intTx.Contains []) (count : Nat) :
    device.serialPutLoop count = some (count,
      if count = 0 then { device with txBusy := false, completions := device.completions + 1 }
      else device) := by
  rw [serialPutLoop, contains.getc_nil]
  simp only [Int.reduceNeg, gt_iff_lt, Int.reduceLT, if_false]
  split <;> rfl

/-- The oldest byte of the ring, `byte`, has been moved to THR. -/
def moved (device : SerialDevice) (byte : BitVec 8) : SerialDevice :=
  { ({ device with intTx := device.intTx.getc.2 } : SerialDevice).writeThr byte with
    sendFifoLength := device.sendFifoLength + 1 }

/-- A byte that is not zero goes to THR while the FIFO has room. -/
theorem serialPutLoop_cons {byte : BitVec 8} (contains : device.intTx.Contains (byte :: queue))
    (nonzero : byte ≠ 0) (room : device.sendFifoLength < 15) (count : Nat) :
    device.serialPutLoop count =
      if device.sendFifoLength + 1 = 15 then some (count + 1, device.moved byte)
      else (device.moved byte).serialPutLoop (count + 1) := by
  obtain ⟨taken, -⟩ := contains.getc_cons
  have positive : device.intTx.getc.1 > 0 := by
    have some : byte.toNat ≠ 0 := fun zero => nonzero (BitVec.eq_of_toNat_eq zero)
    omega
  have same : BitVec.ofInt 8 device.intTx.getc.1 = byte := by
    rw [taken]
    simp
  have remain : (15 : Int) - (device.sendFifoLength + 1).toNat = 0 ↔
      device.sendFifoLength + 1 = 15 := by
    have fifteen : (15 : BitVec 8).toNat = 15 := rfl
    rw [← BitVec.toNat_inj, fifteen]
    omega
  rw [serialPutLoop]
  simp only [putChar, moved, writeThr, same, positive, room, if_true, remain]

/-- `serial_put` on a ring without zeros sends from the front of the ring until
that is empty or the FIFO is full. -/
theorem serialPutLoop_spec (contains : device.intTx.Contains queue) (nonzero : 0 ∉ queue)
    (room : device.sendFifoLength < 15) (count : Nat) :
    ∃ total next sent rest, device.serialPutLoop count = some (total, next) ∧
      queue = sent ++ rest ∧ next.intTx.Contains rest ∧
      next.uart.thr = device.uart.thr ++ sent ∧
      (next.txBusy = false → device.txBusy = false ∨ queue = [] ∧ count = 0) ∧
      (queue = [] → next.sendFifoLength = device.sendFifoLength) := by
  induction queue generalizing device count with
  | nil =>
      refine ⟨_, _, [], [], serialPutLoop_nil contains count, rfl, ?_⟩
      split <;> simp_all
  | cons byte queue ih =>
      have step := serialPutLoop_cons contains (fun zero => nonzero (by simp [zero])) room count
      obtain ⟨-, contains'⟩ := contains.getc_cons
      split at step
      · exact ⟨_, _, [byte], queue, step, rfl, contains', rfl, Or.inl, by simp⟩
      · rename_i more
        have room' : (device.moved byte).sendFifoLength < 15 := by
          have fifteen : (15 : BitVec 8).toNat = 15 := rfl
          have one : (1 : BitVec 8).toNat = 1 := rfl
          rw [← BitVec.toNat_inj, BitVec.toNat_add, fifteen, one] at more
          rw [BitVec.lt_def, fifteen] at room ⊢
          rw [moved, BitVec.toNat_add, one]
          omega
        obtain ⟨total, next, sent, rest, loop, rfl, contains'', thr, busy, -⟩ :=
          @ih (device.moved byte) contains'
            (fun zero => nonzero (List.mem_cons_of_mem _ zero)) room' (count + 1)
        refine ⟨total, next, byte :: sent, rest, step.trans loop, rfl, contains'', ?_, ?_, by simp⟩
        · rw [thr, moved, writeThr, List.append_assoc]
          rfl
        · intro quiet
          rcases busy quiet with idle | ⟨-, impossible⟩
          · exact Or.inl idle
          · cases impossible

/-- A few bytes are sent all at once. -/
theorem serialPutLoop_all (contains : device.intTx.Contains queue) (nonzero : 0 ∉ queue)
    (few : device.sendFifoLength.toNat + queue.length < 15) (count : Nat)
    (some_ : 0 < count + queue.length) :
    device.serialPutLoop count = some (count + queue.length, queue.foldl moved device) ∧
      (queue.foldl moved device).intTx.Contains [] := by
  induction queue generalizing device count with
  | nil =>
      have sent : count ≠ 0 := Nat.ne_of_gt some_
      rw [serialPutLoop_nil contains, if_neg sent]
      exact ⟨rfl, contains⟩
  | cons byte rest ih =>
      have fifteen : (15 : BitVec 8).toNat = 15 := rfl
      have one : (1 : BitVec 8).toNat = 1 := rfl
      rw [List.length_cons] at few ⊢
      have grown : (device.sendFifoLength + 1).toNat = device.sendFifoLength.toNat + 1 := by
        rw [BitVec.toNat_add, one]
        omega
      have step := serialPutLoop_cons contains (fun zero => nonzero (by simp [zero]))
        (by rw [BitVec.lt_def, fifteen]; omega) count
      rw [if_neg (by rw [← BitVec.toNat_inj, grown, fifteen]; omega)] at step
      obtain ⟨loop, empty⟩ := @ih (device.moved byte) contains.getc_cons.2
        (fun zero => nonzero (List.mem_cons_of_mem _ zero))
        (by change (device.sendFifoLength + 1).toNat + _ < _; omega) (count + 1) (by omega)
      rw [step, loop, Nat.add_assoc, Nat.add_comm 1]
      exact ⟨rfl, empty⟩

end SerialDevice

/-! ## What one step preserves -/

/-- A `serial_put` with an empty FIFO keeps the invariant. -/
theorem TxInv.serialPut {accepted queue : List (BitVec 8)} {device : SerialDevice}
    (ring : device.intTx.Contains queue) (nonzero : 0 ∉ queue)
    (delivered : device.uart.thr ++ queue = accepted) (drained : device.sendFifoLength = 0)
    (idle : device.txBusy = false → queue = []) :
    ∃ total next rest, device.serialPut = some (total, next) ∧ TxInv accepted next rest := by
  obtain ⟨total, next, sent, rest, loop, rfl, ring', thr, busy, kept⟩ :=
    SerialDevice.serialPutLoop_spec ring nonzero (by rw [drained]; decide) 0
  refine ⟨total, next, rest, loop, ring', ?_, ?_, ?_⟩
  · exact fun zero => nonzero (List.mem_append_right _ zero)
  · rw [thr, List.append_assoc, delivered]
  · intro quiet
    have empty : sent ++ rest = [] := (busy quiet).elim idle And.left
    exact ⟨(List.append_eq_nil_iff.mp empty).2, (kept empty).trans drained⟩

theorem TxInv.write {accepted queue : List (BitVec 8)} {device : SerialDevice}
    (inv : TxInv accepted device queue) {buffer : List (BitVec 8)}
    (admitted : AcceptsNonzero device (.write buffer)) :
    ∃ writeNbytes next rest, device.rtSerialWrite buffer = some (writeNbytes, next) ∧
      TxInv (accepted ++ buffer.take writeNbytes) next rest := by
  let free := serialRbufferSize - 1 - queue.length
  obtain ⟨count, ring⟩ := SerialDevice.storeBytes_contains inv.ring buffer
  have taken : buffer.take free = buffer.take (SerialDevice.storeBytes device.intTx buffer).1 := by
    rw [count, Nat.min_comm, ← List.take_eq_take_min]
  have nonzero : 0 ∉ queue ++ buffer.take free := by
    rw [AcceptsNonzero, inv.ring.size_toNat] at admitted
    rw [List.mem_append, not_or]
    exact ⟨inv.nonzero, admitted⟩
  have delivered : device.uart.thr ++ (queue ++ buffer.take free) =
      accepted ++ buffer.take (SerialDevice.storeBytes device.intTx buffer).1 := by
    rw [← List.append_assoc, inv.delivered, taken]
  cases busy : device.txBusy with
  | false =>
      obtain ⟨empty, drained⟩ := inv.idle busy
      obtain ⟨total, next, rest, put, inv'⟩ := @TxInv.serialPut _ _
        { device with
          intTx := (SerialDevice.storeBytes device.intTx buffer).2, txBusy := true }
        ring nonzero delivered drained (by simp)
      refine ⟨_, next, rest, ?_, inv'⟩
      rw [SerialDevice.rtSerialWrite_idle busy, put, Option.map_some]
  | true =>
      refine ⟨_, { device with intTx := (SerialDevice.storeBytes device.intTx buffer).2 }, _, ?_,
        ring, nonzero, delivered, ?_⟩
      · simp [SerialDevice.rtSerialWrite, busy]
      · simp [busy]

theorem TxInv.thre {accepted queue : List (BitVec 8)} {device : SerialDevice}
    (inv : TxInv accepted device queue) :
    ∃ next rest, uart0IrqHandler device .thre = some next ∧ TxInv accepted next rest := by
  obtain ⟨total, next, rest, put, inv'⟩ :=
    @TxInv.serialPut accepted queue { device with sendFifoLength := 0 } inv.ring inv.nonzero
      inv.delivered rfl fun quiet => (inv.idle quiet).1
  exact ⟨next, rest, Option.bind_eq_some_iff.mpr ⟨_, put, rfl⟩, inv'⟩

/-! ## Every run -/

theorem TxInv.init : TxInv [] .init [] where
  ring := SerialRingbuffer.init_contains
  nonzero := by simp
  delivered := rfl
  idle _ := ⟨rfl, rfl⟩

theorem TxInv.of_run {actions : List TxAction} {events : List (List (BitVec 8))}
    {device : SerialDevice} (run : txMachine.Run AcceptsNonzero .init actions events device) :
    ∃ queue, TxInv events.flatten device queue := by
  induction run with
  | nil => exact ⟨[], .init⟩
  | @snoc _ _ state action _ _ _ admitted step ih =>
      obtain ⟨queue, inv⟩ := ih
      rw [List.flatten_append]
      cases action with
      | write buffer =>
          obtain ⟨writeNbytes, next, rest, write, inv'⟩ := inv.write admitted
          simp only [txMachine, write, Option.map_some, Option.some_inj, Prod.mk.injEq] at step
          obtain ⟨rfl, rfl⟩ := step
          exact ⟨rest, by simpa using inv'⟩
      | shift =>
          obtain ⟨-, step⟩ := Option.ite_none_right_eq_some.mp step
          obtain ⟨rfl, rfl⟩ := Prod.mk.inj (Option.some_inj.mp step)
          exact ⟨queue, by simpa using ⟨inv.ring, inv.nonzero, inv.delivered, inv.idle⟩⟩
      | thre =>
          obtain ⟨next, rest, handled, inv'⟩ := inv.thre
          obtain ⟨-, step⟩ := Option.ite_none_right_eq_some.mp step
          simp only [handled, Option.map_some, Option.some_inj, Prod.mk.injEq] at step
          obtain ⟨rfl, rfl⟩ := step
          exact ⟨rest, by simpa using inv'⟩

/-- Along every run which accepts no zero byte, the transmitter delivers the
bytes it has accepted. -/
theorem transmit_delivers_accepted {actions : List TxAction} {events : List (List (BitVec 8))}
    {device : SerialDevice} (run : txMachine.Run AcceptsNonzero .init actions events device) :
    Delivers events.flatten device := by
  obtain ⟨queue, inv⟩ := TxInv.of_run run
  refine ⟨⟨queue, inv.delivered⟩, fun quiet => ?_⟩
  obtain ⟨rfl, -⟩ := inv.idle quiet
  exact ⟨inv.ring.empty_iff.mpr rfl, by simpa using inv.delivered⟩

/-! Two bytes are sent, a third one waits for THRE, and the next THRE finds the ring empty. -/

def bytesStored : SerialDevice :=
  { SerialDevice.init with
    intTx := (SerialDevice.storeBytes .init [0x41, 0x42]).2
    txBusy := true }

def bytesSent : SerialDevice := [0x41, 0x42].foldl SerialDevice.moved bytesStored

def byteWaits : SerialDevice :=
  { bytesSent with intTx := (SerialDevice.storeBytes bytesSent.intTx [0x43]).2 }

/-- So many bytes are left in the transmit FIFO. -/
def SerialDevice.left (device : SerialDevice) (txFifo : Nat) : SerialDevice :=
  { device with uart := { device.uart with txFifo } }

def byteResumed : SerialDevice := { byteWaits.left 0 with sendFifoLength := 0 }

def lastSent : SerialDevice := [0x43].foldl SerialDevice.moved byteResumed

def allSent : SerialDevice :=
  { lastSent.left 0 with
    sendFifoLength := 0
    txBusy := false
    completions := lastSent.completions + 1 }

def sending : List TxAction :=
  [.write [0x41, 0x42], .write [0x43], .shift, .shift, .thre, .shift, .thre]

theorem bytesSent_write : bytesSent.intTx.Contains [] ∧
    txMachine.step .init (.write [0x41, 0x42]) = some (bytesSent, [[0x41, 0x42]]) := by
  obtain ⟨count, contains⟩ :=
    SerialDevice.storeBytes_contains SerialRingbuffer.init_contains [0x41, 0x42]
  obtain ⟨loop, empty⟩ := @SerialDevice.serialPutLoop_all bytesStored [0x41, 0x42] contains
    (by decide) (by decide) 0 (by decide)
  have put : bytesStored.serialPut = some (2, bytesSent) := loop
  have write : SerialDevice.init.rtSerialWrite [0x41, 0x42] = some (2, bytesSent) := by
    rw [SerialDevice.rtSerialWrite_idle rfl]
    exact Option.map_eq_some_iff.mpr ⟨_, put, Prod.ext count rfl⟩
  refine ⟨empty, ?_⟩
  simp only [txMachine, write, Option.map_some]
  rfl

theorem byteWaits_write : byteWaits.intTx.Contains [0x43] ∧
    txMachine.step bytesSent (.write [0x43]) = some (byteWaits, [[0x43]]) := by
  obtain ⟨count, contains⟩ := SerialDevice.storeBytes_contains bytesSent_write.1 [0x43]
  have write : bytesSent.rtSerialWrite [0x43] = some (1, byteWaits) :=
    congrArg (fun count => some (count, byteWaits)) count
  refine ⟨contains, ?_⟩
  simp only [txMachine, write, Option.map_some]
  rfl

theorem lastSent_thre : lastSent.intTx.Contains [] ∧
    txMachine.step (byteWaits.left 0) .thre = some (lastSent, []) := by
  obtain ⟨loop, empty⟩ := @SerialDevice.serialPutLoop_all byteResumed [0x43] byteWaits_write.1
    (by decide) (by decide) 0 (by decide)
  have handled : uart0IrqHandler (byteWaits.left 0) .thre = some lastSent :=
    Option.bind_eq_some_iff.mpr ⟨_, loop, rfl⟩
  refine ⟨empty, ?_⟩
  change (uart0IrqHandler (byteWaits.left 0) .thre).map _ = _
  rw [handled]
  rfl

theorem allSent_thre : txMachine.step (lastSent.left 0) .thre = some (allSent, []) := by
  have loop := @SerialDevice.serialPutLoop_nil { lastSent.left 0 with sendFifoLength := 0 }
    lastSent_thre.1 0
  have handled : uart0IrqHandler (lastSent.left 0) .thre = some allSent :=
    Option.bind_eq_some_iff.mpr ⟨_, loop, rfl⟩
  change (uart0IrqHandler (lastSent.left 0) .thre).map _ = _
  rw [handled]
  rfl

theorem transmit_delivers_accepted_later :
    txMachine.Run AcceptsNonzero .init sending [[0x41, 0x42], [0x43]] allSent ∧
      allSent.txBusy = false ∧ allSent.uart.thr = [0x41, 0x42, 0x43] ∧
      Delivers [0x41, 0x42, 0x43] allSent := by
  have nonzero {device : SerialDevice} {buffer : List (BitVec 8)} (without : 0 ∉ buffer) :
      AcceptsNonzero device (.write buffer) := fun zero => without (List.mem_of_mem_take zero)
  have shift {device : SerialDevice} : AcceptsNonzero device .shift := trivial
  have thre {device : SerialDevice} : AcceptsNonzero device .thre := trivial
  have shifted : txMachine.step byteWaits .shift = some (byteWaits.left 1, []) := rfl
  have shifted' : txMachine.step (byteWaits.left 1) .shift = some (byteWaits.left 0, []) := rfl
  have shifted'' : txMachine.step lastSent .shift = some (lastSent.left 0, []) := rfl
  have run : txMachine.Run AcceptsNonzero .init sending [[0x41, 0x42], [0x43]] allSent :=
    ((((((Machine.Run.nil.snoc (nonzero (by decide)) bytesSent_write.2).snoc (nonzero (by decide))
      byteWaits_write.2).snoc shift shifted).snoc shift shifted').snoc thre lastSent_thre.2).snoc
      shift shifted'').snoc thre allSent_thre
  exact ⟨run, rfl, rfl, transmit_delivers_accepted run⟩

/-- The device after a `serial_put` which has dropped a zero byte. -/
def SerialDevice.stalled (device : SerialDevice) : SerialDevice :=
  { device with
    intTx := device.intTx.getc.2, txBusy := false, completions := device.completions + 1 }

/-- `serial_put` takes a zero at the front of the ring for an empty ring. -/
theorem SerialDevice.serialPut_zero {device : SerialDevice} {queue : List (BitVec 8)}
    (contains : device.intTx.Contains (0 :: queue)) :
    device.serialPut = some (0, device.stalled) := by
  obtain ⟨taken, -⟩ := contains.getc_cons
  have zero : ¬ device.intTx.getc.1 > 0 := by
    rw [taken]
    simp
  rw [serialPut, serialPutLoop]
  simp [zero, stalled]

/-- A write of a zero byte and another one leaves the second behind in the ring. -/
theorem transmit_stalls_on_zero :
    ∃ device events, txMachine.execute .init [.write [0x00, 0x41]] = some (device, events) ∧
      ¬ Delivers events.flatten device := by
  let ring := (SerialDevice.storeBytes .init [0x00, 0x41]).2
  have contains : ring.Contains [0x00, 0x41] :=
    (SerialDevice.storeBytes_contains SerialRingbuffer.init_contains [0x00, 0x41]).2
  have put := @SerialDevice.serialPut_zero
    { SerialDevice.init with intTx := ring, txBusy := true } [0x41] contains
  have step : txMachine.step .init (.write [0x00, 0x41]) =
      some (SerialDevice.stalled { SerialDevice.init with intTx := ring, txBusy := true },
        [[0x00, 0x41]]) := by
    simp only [txMachine]
    rw [SerialDevice.rtSerialWrite_idle rfl]
    exact congrArg (Option.map _) (congrArg (Option.map _) put)
  refine ⟨_, _, Machine.execute_cons step rfl, fun delivers => ?_⟩
  have empty := (delivers.2 rfl).1
  exact absurd empty (by decide)

end RtThread.Serial
