import RtThread.Serial.Transmit

/-!
# The transmit FIFO

`SendFifoLength` shadows the hardware FIFO: it grows with each byte written to THR and is
reset by the THRE interrupt. `serial_put` is only called when it is zero, and stops when it
reaches 15, so that `put_char` always has room.
-/

namespace RtThread.Serial

open RtThread.Std

namespace SerialDevice

/-! ## The loop with an assertion -/

/-- `put_char`, which must not be called when it would discard the byte. -/
def putCharAsserted (device : SerialDevice) (c : BitVec 8) : Option (Int × SerialDevice) :=
  if device.sendFifoLength < 15 then some (device.putChar c) else none

/-- The loop of `serial_put` with the assertion. -/
def serialPutLoopAsserted (device : SerialDevice) (count : Nat) : Option (Nat × SerialDevice) := do
  let (ch, intTx) := device.intTx.getc
  let device := { device with intTx := intTx }
  if ch > 0 then
    let (remain, device) ← device.putCharAsserted (BitVec.ofInt 8 ch)
    if remain = 0 then some (count + 1, device) else device |>.serialPutLoopAsserted (count + 1)
  else if count = 0 then
    some (count, { device with txBusy := false, completions := device.completions + 1 })
  else some (count, device)
partial_fixpoint

/-- What a call of `serial_put` does that starts with `device`: it has taken some bytes off the
ring, and has written those to THR that are not zero. -/
structure Puts (device : SerialDevice) (count : Nat) (total : Nat) (next : SerialDevice)
    (taken rest : List (BitVec 8)) : Prop where
  ring : next.intTx.Contains rest
  thr : next.uart.thr = device.uart.thr ++ taken.filter (· ≠ 0)
  counted : total = count + (taken.filter (· ≠ 0)).length
  length : next.sendFifoLength.toNat =
    device.sendFifoLength.toNat + (taken.filter (· ≠ 0)).length
  room : next.sendFifoLength.toNat ≤ 15
  line : next.uart.txFifo = device.uart.txFifo + (taken.filter (· ≠ 0)).length
  busy : next.txBusy = false → device.txBusy = false ∨ total = 0

variable {device next : SerialDevice} {queue : List (BitVec 8)} {byte : BitVec 8}

/-- A zero at the front of the ring ends `serial_put` as an empty ring does. -/
theorem serialPutLoop_zero (contains : device.intTx.Contains (0 :: queue)) (count : Nat) :
    device.serialPutLoop count = some (count,
      if count = 0 then device.stalled else { device with intTx := device.intTx.getc.2 }) := by
  obtain ⟨taken, -⟩ := contains.getc_cons
  have zero : ¬ device.intTx.getc.1 > 0 := by
    rw [taken]
    simp
  rw [serialPutLoop]
  simp only [zero, if_false]
  split <;> rfl

/-- As long as there is room the assertion makes no difference. -/
theorem serialPutLoopAsserted_eq (room : device.sendFifoLength < 15) (count : Nat) :
    device.serialPutLoopAsserted count =
      let (ch, intTx) := device.intTx.getc
      let device := { device with intTx := intTx }
      if ch > 0 then
        let (remain, device) := device.putChar (BitVec.ofInt 8 ch)
        if remain = 0 then some (count + 1, device)
        else device.serialPutLoopAsserted (count + 1)
      else if count = 0 then
        some (count, { device with txBusy := false, completions := device.completions + 1 })
      else some (count, device) := by
  rw [serialPutLoopAsserted]
  simp only [putCharAsserted, room, if_true, Option.bind_eq_bind, Option.bind_some]

theorem moved_length (room : device.sendFifoLength < 15) :
    (device.moved byte).sendFifoLength.toNat = device.sendFifoLength.toNat + 1 := by
  have fifteen : (15 : BitVec 8).toNat = 15 := rfl
  have one : (1 : BitVec 8).toNat = 1 := rfl
  rw [BitVec.lt_def, fifteen] at room
  rw [moved, BitVec.toNat_add, one]
  omega

/-- `serial_put` sends from the front of the ring until it meets a zero, the ring is empty or
the FIFO is full, and the assertion holds. -/
theorem serialPutLoop_puts (contains : device.intTx.Contains queue)
    (room : device.sendFifoLength < 15) (count : Nat) :
    ∃ total next taken rest, device.serialPutLoop count = some (total, next) ∧
      device.serialPutLoopAsserted count = some (total, next) ∧ queue = taken ++ rest ∧
      device.Puts count total next taken rest := by
  have fifteen : (15 : BitVec 8).toNat = 15 := rfl
  induction queue generalizing device count with
  | nil =>
      have short : device.sendFifoLength.toNat < 15 := BitVec.lt_def.mp room
      have ends := serialPutLoop_nil contains count
      have same : device.serialPutLoopAsserted count = device.serialPutLoop count := by
        rw [serialPutLoopAsserted_eq room, serialPutLoop, contains.getc_nil]
        simp
      refine ⟨_, _, [], [], ends, same.trans ends, rfl, ?_⟩
      split
      · rename_i first
        exact ⟨contains, by simp, rfl, rfl, short.le, rfl, fun _ => Or.inr first⟩
      · exact ⟨contains, by simp, rfl, rfl, short.le, rfl, Or.inl⟩
  | cons byte queue ih =>
      have short : device.sendFifoLength.toNat < 15 := BitVec.lt_def.mp room
      obtain ⟨taken, contains'⟩ := contains.getc_cons
      by_cases zero : byte = 0
      · subst zero
        have ends := serialPutLoop_zero contains count
        have same : device.serialPutLoopAsserted count = device.serialPutLoop count := by
          have none_ : ¬ device.intTx.getc.1 > 0 := by
            rw [taken]
            simp
          rw [serialPutLoopAsserted_eq room, serialPutLoop]
          simp only [none_, if_false]
        refine ⟨_, _, [0], queue, ends, same.trans ends, rfl, ?_⟩
        split
        · rename_i first
          exact ⟨contains', by simp [stalled], by simp, by simp [stalled], short.le,
            by simp [stalled], fun _ => Or.inr first⟩
        · exact ⟨contains', by simp, by simp, by simp, short.le, by simp, Or.inl⟩
      · have step := serialPutLoop_cons contains zero room count
        have step' : device.serialPutLoopAsserted count =
            if device.sendFifoLength + 1 = 15 then some (count + 1, device.moved byte)
            else (device.moved byte).serialPutLoopAsserted (count + 1) := by
          have positive : device.intTx.getc.1 > 0 := by
            have some_ : byte.toNat ≠ 0 := fun none_ => zero (BitVec.eq_of_toNat_eq none_)
            omega
          have same : BitVec.ofInt 8 device.intTx.getc.1 = byte := by
            rw [taken]
            simp
          have remain : (15 : Int) - (device.sendFifoLength + 1).toNat = 0 ↔
              device.sendFifoLength + 1 = 15 := by
            rw [← BitVec.toNat_inj, fifteen]
            omega
          rw [serialPutLoopAsserted_eq room]
          simp only [putChar, moved, writeThr, same, positive, room, if_true, remain]
        have more := @moved_length device byte room
        have single : [byte].filter (· ≠ 0) = [byte] :=
          List.filter_cons_of_pos (by simpa using zero)
        split at step
        · rename_i last
          rw [if_pos last] at step'
          refine ⟨_, _, [byte], queue, step, step', rfl, contains', ?_, ?_, ?_, by omega, ?_, Or.inl⟩
          · rw [single]
            rfl
          · rw [single]
            rfl
          · rw [single]
            exact more
          · rw [single]
            rfl
        · rename_i goes
          rw [if_neg goes] at step'
          have below : (device.moved byte).sendFifoLength < 15 := by
            rw [BitVec.lt_def, fifteen, more]
            have differ : (device.sendFifoLength + 1).toNat ≠ 15 := by
              rw [← fifteen]
              exact fun same => goes (BitVec.eq_of_toNat_eq same)
            rw [BitVec.toNat_add] at differ
            have one : (1 : BitVec 8).toNat = 1 := rfl
            omega
          obtain ⟨total, next, taken, rest, loop, loop', rfl, puts⟩ :=
            @ih (device.moved byte) contains' below (count + 1)
          have length := puts.length
          have line := puts.line
          have counted := puts.counted
          refine ⟨total, next, byte :: taken, rest, step.trans loop, step'.trans loop', rfl,
            puts.ring, ?_, ?_, ?_, puts.room, ?_, ?_⟩
          · rw [puts.thr, List.filter_cons_of_pos (by simpa using zero), moved, writeThr,
              List.append_assoc]
            rfl
          · rw [List.filter_cons_of_pos (by simpa using zero), List.length_cons]
            omega
          · rw [List.filter_cons_of_pos (by simpa using zero), List.length_cons]
            omega
          · rw [List.filter_cons_of_pos (by simpa using zero), List.length_cons, line]
            have grown : (device.moved byte).uart.txFifo = device.uart.txFifo + 1 := rfl
            omega
          · intro quiet
            rcases puts.busy quiet with idle | none_
            · exact Or.inl idle
            · omega

end SerialDevice

/-! ## Runs -/

/-- The device with the number of bytes written to THR since the last THRE interrupt, and whether
the FIFO has drained since then. -/
structure MonitoredTx where
  device : SerialDevice
  sinceDrain : Nat
  drained : Bool

/-- THRE is raised once each time the line has taken the last byte of the FIFO. -/
def monitoredTx : Machine MonitoredTx TxAction (List (BitVec 8)) where
  step state action :=
    if action = .thre ∧ state.drained = false then none
    else (txMachine.step state.device action).map fun (next, events) =>
      (⟨next, (if action = .thre then 0 else state.sinceDrain) +
          (next.uart.thr.length - state.device.uart.thr.length),
        if action = .thre then false
        else state.drained || (action = .shift && next.uart.txFifo = 0)⟩, events)

/-- The device with which a step calls `serial_put`. -/
def SerialDevice.putStart (device : SerialDevice) : TxAction → Option SerialDevice
  | .write buffer =>
    if device.txBusy = false then
      some { device with
        intTx := (SerialDevice.storeBytes device.intTx buffer).2
        txBusy := true }
    else none
  | .shift => none
  | .thre => some { device with sendFifoLength := 0 }

/-- A call of `serial_put` takes as many bytes that are not zero off the ring as it writes to THR,
and calls `put_char` only where that has room. -/
def SerialDevice.PutsWhatItTakes (device next : SerialDevice) : Prop :=
  ∃ count taken rest, device.intTx.Contains (taken ++ rest) ∧
    device.serialPut = some (count, next) ∧
    device.serialPutLoopAsserted 0 = some (count, next) ∧
    next.intTx.Contains rest ∧
    next.uart.thr = device.uart.thr ++ taken.filter (· ≠ 0) ∧
    next.uart.thr.length - device.uart.thr.length = (taken.filter (· ≠ 0)).length

/-- `SendFifoLength` bounds what is in the FIFO, and is zero when nothing is under way. -/
structure FifoInv (state : MonitoredTx) : Prop where
  ring : ∃ queue, state.device.intTx.Contains queue
  room : state.device.sendFifoLength.toNat ≤ 15
  since : state.sinceDrain ≤ state.device.sendFifoLength.toNat
  line : state.device.uart.txFifo ≤ state.device.sendFifoLength.toNat
  idle : state.device.txBusy = false → state.device.sendFifoLength = 0 ∧ state.drained = false

section

variable {state after : MonitoredTx} {device next start : SerialDevice} {action : TxAction}
  {events : List (List (BitVec 8))}

/-- What `serial_put` makes of an empty FIFO. -/
theorem SerialDevice.serialPut_fifo {queue : List (BitVec 8)}
    (contains : device.intTx.Contains queue) (empty : device.sendFifoLength = 0)
    (busy : device.txBusy = true) (line : device.uart.txFifo = 0) :
    ∃ total next, device.serialPut = some (total, next) ∧ device.PutsWhatItTakes next ∧
      FifoInv ⟨next, next.uart.thr.length - device.uart.thr.length, false⟩ := by
  obtain ⟨total, next, taken, rest, put, put', rfl, puts⟩ :=
    serialPutLoop_puts contains (by rw [empty]; decide) 0
  have written : next.uart.thr.length - device.uart.thr.length =
      (taken.filter (· ≠ 0)).length := by
    rw [puts.thr, List.length_append]
    omega
  have length := puts.length
  rw [empty] at length
  have zero : (0 : BitVec 8).toNat = 0 := rfl
  refine ⟨total, next, put, ⟨total, taken, rest, contains, put, put', puts.ring, puts.thr, written⟩,
    ⟨rest, puts.ring⟩, puts.room, ?_, ?_, ?_⟩
  · change next.uart.thr.length - device.uart.thr.length ≤ next.sendFifoLength.toNat
    omega
  · have grown := puts.line
    change next.uart.txFifo ≤ next.sendFifoLength.toNat
    omega
  · intro quiet
    refine ⟨BitVec.eq_of_toNat_eq ?_, rfl⟩
    rcases puts.busy quiet with idle | none_
    · cases busy.symm.trans idle
    · have counted := puts.counted
      change next.sendFifoLength.toNat = _
      omega

/-- A step that calls `serial_put` is that call. -/
theorem txMachine_put (step : txMachine.step device action = some (next, events))
    (starts : device.putStart action = some start) :
    ∃ count, start.serialPut = some (count, next) := by
  cases action with
  | write buffer =>
      obtain ⟨idle, same⟩ := Option.ite_none_right_eq_some.mp starts
      obtain rfl := Option.some_inj.mp same
      simp only [txMachine, SerialDevice.rtSerialWrite_idle idle, Option.map_eq_some_iff,
        Prod.mk.injEq, Prod.exists] at step
      obtain ⟨written, device', ⟨count, device'', put, -, rfl⟩, rfl, -⟩ := step
      exact ⟨count, put⟩
  | shift => cases starts
  | thre =>
      obtain rfl := Option.some_inj.mp starts
      obtain ⟨-, handled⟩ := Option.ite_none_right_eq_some.mp step
      simp only [uart0IrqHandler, SerialDevice.rtHwSerialIntTxIsr, Option.map_eq_some_iff,
        Option.bind_eq_bind, Option.bind_eq_some_iff, Option.pure_def, Option.some.injEq,
        Prod.mk.injEq, Prod.exists] at handled
      obtain ⟨device', ⟨count, device'', put, rfl⟩, rfl, -⟩ := handled
      exact ⟨count, put⟩

/-- Every call of `serial_put` finds the FIFO empty. -/
theorem FifoInv.putStart (inv : FifoInv state)
    (step : monitoredTx.step state action = some (after, events))
    (starts : state.device.putStart action = some start) :
    start.serialPut.map Prod.snd = some after.device ∧ start.PutsWhatItTakes after.device ∧
      FifoInv after := by
  obtain ⟨queue, contains⟩ := inv.ring
  obtain ⟨raised, moved⟩ := Option.ite_none_left_eq_some.mp step
  obtain ⟨⟨next, emitted⟩, transition, same⟩ := Option.map_eq_some_iff.mp moved
  obtain ⟨rfl, rfl⟩ := Prod.mk.inj same
  obtain ⟨count, put⟩ := txMachine_put transition starts
  have calls : ∃ queue, start.intTx.Contains queue ∧ start.sendFifoLength = 0 ∧
      start.uart.txFifo = 0 ∧ start.txBusy = true ∧ start.uart.thr = state.device.uart.thr ∧
      (if action = .thre then 0 else state.sinceDrain) = 0 ∧
      (if action = .thre then false
        else state.drained || (action = .shift && next.uart.txFifo = 0)) = false := by
    cases action with
    | write buffer =>
        obtain ⟨idle, same⟩ := Option.ite_none_right_eq_some.mp starts
        obtain rfl := Option.some_inj.mp same
        obtain ⟨empty, quiet⟩ := inv.idle idle
        have since := inv.since
        have line := inv.line
        rw [empty] at since line
        exact ⟨_, (SerialDevice.storeBytes_contains contains buffer).2, empty,
          Nat.le_zero.mp line, rfl, rfl, Nat.le_zero.mp since, by simp [quiet]⟩
    | shift => cases starts
    | thre =>
        obtain rfl := Option.some_inj.mp starts
        obtain ⟨empty, -⟩ := Option.ite_none_right_eq_some.mp transition
        have busy : state.device.txBusy = true := by
          by_contra idle
          exact raised ⟨rfl, (inv.idle (Bool.not_eq_true _ ▸ idle)).2⟩
        exact ⟨queue, contains, rfl, empty, busy, rfl, rfl, rfl⟩
  obtain ⟨queue, contains, empty, line, busy, thr, since, quiet⟩ := calls
  obtain ⟨total, next', put', takes, inv'⟩ :=
    SerialDevice.serialPut_fifo contains empty busy line
  obtain ⟨-, rfl⟩ := Prod.mk.inj (Option.some_inj.mp (put.symm.trans put'))
  refine ⟨by rw [put]; rfl, takes, ?_⟩
  rw [since, quiet, Nat.zero_add, ← thr]
  exact inv'

theorem FifoInv.init : FifoInv ⟨.init, 0, false⟩ where
  ring := ⟨[], SerialRingbuffer.init_contains⟩
  room := Nat.zero_le 15
  since := Nat.le_refl 0
  line := Nat.le_refl 0
  idle _ := ⟨rfl, rfl⟩

theorem FifoInv.step (inv : FifoInv state)
    (step : monitoredTx.step state action = some (after, events)) : FifoInv after := by
  cases starts : state.device.putStart action with
  | some start => exact (inv.putStart step starts).2.2
  | none =>
      obtain ⟨queue, contains⟩ := inv.ring
      obtain ⟨-, moved⟩ := Option.ite_none_left_eq_some.mp step
      obtain ⟨⟨next, emitted⟩, transition, same⟩ := Option.map_eq_some_iff.mp moved
      obtain ⟨rfl, rfl⟩ := Prod.mk.inj same
      cases action with
      | thre => cases starts
      | write buffer =>
          have busy : state.device.txBusy = true := by
            by_contra idle
            rw [SerialDevice.putStart, if_pos (Bool.not_eq_true _ ▸ idle)] at starts
            cases starts
          simp only [txMachine, SerialDevice.rtSerialWrite, busy, Bool.true_eq_false, if_false,
            Option.pure_def, Option.map_some, Option.some.injEq, Prod.mk.injEq] at transition
          obtain ⟨rfl, rfl⟩ := transition
          refine ⟨⟨_, (SerialDevice.storeBytes_contains contains buffer).2⟩, inv.room, ?_,
            inv.line, fun idle => ?_⟩
          · simpa using inv.since
          · cases (show true = false from idle)
      | shift =>
          obtain ⟨some_, result⟩ := Option.ite_none_right_eq_some.mp transition
          obtain ⟨rfl, rfl⟩ := Prod.mk.inj (Option.some_inj.mp result)
          have line := inv.line
          refine ⟨⟨queue, contains⟩, inv.room, ?_, ?_, fun idle => ?_⟩
          · simpa using inv.since
          · change state.device.uart.txFifo - 1 ≤ state.device.sendFifoLength.toNat
            omega
          · -- what is on the line has been counted, so that `tx_busy` is set
            have empty := (inv.idle idle).1
            rw [empty] at line
            exact absurd (Nat.le_zero.mp line) some_

end

/-- In every run the counter is at most 15 and bounds the bytes written since the last drain, it
is zero when `tx_busy` is clear, and every call of `serial_put` takes from the ring what it writes
to THR, without a call of `put_char` that discards. -/
theorem fifo_never_overfilled {actions : List TxAction} {events : List (List (BitVec 8))}
    {state : MonitoredTx}
    (run : monitoredTx.Run (fun _ _ => True) ⟨.init, 0, false⟩ actions events state) :
    state.device.sendFifoLength.toNat ≤ 15 ∧
      state.sinceDrain ≤ state.device.sendFifoLength.toNat ∧
      state.device.uart.txFifo ≤ state.device.sendFifoLength.toNat ∧
      (state.device.txBusy = false → state.device.sendFifoLength = 0) ∧
      ∀ action next emitted start, monitoredTx.step state action = some (next, emitted) →
        state.device.putStart action = some start →
          start.serialPut.map Prod.snd = some next.device ∧ start.PutsWhatItTakes next.device := by
  have inv : FifoInv state :=
    run.invariant .init fun _ _ _ _ inv _ step => inv.step step
  refine ⟨inv.room, inv.since, inv.line, fun idle => (inv.idle idle).1, ?_⟩
  intro action next emitted start step starts
  obtain ⟨put, takes, -⟩ := inv.putStart step starts
  exact ⟨put, takes⟩

theorem monitoredTx_step {state : MonitoredTx} {action : TxAction} {next : SerialDevice}
    {events : List (List (BitVec 8))} (ready : action = .thre → state.drained = true)
    (step : txMachine.step state.device action = some (next, events)) :
    monitoredTx.step state action = some
      (⟨next, (if action = .thre then 0 else state.sinceDrain) +
          (next.uart.thr.length - state.device.uart.thr.length),
        if action = .thre then false
        else state.drained || (action = .shift && next.uart.txFifo = 0)⟩, events) := by
  have raised : ¬ (action = .thre ∧ state.drained = false) := fun ⟨thre, later⟩ => by
    rw [ready thre] at later
    cases later
  simp only [monitoredTx, if_neg raised, step, Option.map_some]

/-- Two bytes are sent, and a third one when the FIFO has drained. -/
theorem fifo_never_overfilled_later : ∃ events state,
    monitoredTx.Run (fun _ _ => True) ⟨.init, 0, false⟩ sending events state ∧
      state.device.uart.thr = [0x41, 0x42, 0x43] ∧
      state.device.sendFifoLength.toNat ≤ 15 ∧
      state.sinceDrain ≤ state.device.sendFifoLength.toNat ∧
      state.device.uart.txFifo ≤ state.device.sendFifoLength.toNat ∧
      (state.device.txBusy = false → state.device.sendFifoLength = 0) ∧
      ∀ action next emitted start, monitoredTx.step state action = some (next, emitted) →
        state.device.putStart action = some start →
          start.serialPut.map Prod.snd = some next.device ∧ start.PutsWhatItTakes next.device := by
  have first : monitoredTx.step ⟨.init, 0, false⟩ (.write [0x41, 0x42]) =
      some (⟨bytesSent, 2, false⟩, [[0x41, 0x42]]) := monitoredTx_step nofun bytesSent_write.2
  have second : monitoredTx.step ⟨bytesSent, 2, false⟩ (.write [0x43]) =
      some (⟨byteWaits, 2, false⟩, [[0x43]]) := monitoredTx_step nofun byteWaits_write.2
  have shifted : monitoredTx.step ⟨byteWaits, 2, false⟩ .shift =
      some (⟨byteWaits.left 1, 2, false⟩, []) := rfl
  have drained : monitoredTx.step ⟨byteWaits.left 1, 2, false⟩ .shift =
      some (⟨byteWaits.left 0, 2, true⟩, []) := rfl
  have third : monitoredTx.step ⟨byteWaits.left 0, 2, true⟩ .thre =
      some (⟨lastSent, 1, false⟩, []) := monitoredTx_step (fun _ => rfl) lastSent_thre.2
  have drained' : monitoredTx.step ⟨lastSent, 1, false⟩ .shift =
      some (⟨lastSent.left 0, 1, true⟩, []) := rfl
  have last : monitoredTx.step ⟨lastSent.left 0, 1, true⟩ .thre =
      some (⟨allSent, 0, false⟩, []) := monitoredTx_step (fun _ => rfl) allSent_thre
  have run : monitoredTx.Run (fun _ _ => True) ⟨.init, 0, false⟩ sending [[0x41, 0x42], [0x43]]
      ⟨allSent, 0, false⟩ :=
    ((((((Machine.Run.nil.snoc trivial first).snoc trivial second).snoc trivial shifted).snoc trivial
      drained).snoc trivial third).snoc trivial drained').snoc trivial last
  exact ⟨_, _, run, rfl, fifo_never_overfilled run⟩

end RtThread.Serial
