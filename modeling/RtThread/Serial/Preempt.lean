import RtThread.Std.Machine
import RtThread.Serial.Device

/-!
# Transmit under preemption

The transmit path of `serial.c` and `put_char`, one step for each stretch that
no interrupt can split: the ring operations and the test of `tx_busy` run with
interrupts disabled, every other access to a shared variable is a step of its
own. Any number of threads and the THRE interrupt take turns.
-/

namespace RtThread.Serial

open RtThread.Std

/-- Who executes: a thread, or `UART0_IRQHandler`. -/
inductive Context where
  | thread (thread : Nat)
  | irq
deriving DecidableEq, Repr

/-- Where a context is. `count` is the local variable of `serial_put`, `ch` the
byte that it has taken from the ring and not yet written to THR. -/
inductive Pc where
  | idle
  /-- The first loop of `rt_serial_write`, with the bytes still to be stored. -/
  | store (bytes : List (BitVec 8))
  | testBusy
  | setBusy
  | getc (count : Nat)
  | testFifo (count : Nat) (ch : BitVec 8)
  | writeThr (count : Nat) (ch : BitVec 8)
  | loadFifo (count : Nat)
  | storeFifo (count : Nat) (length : BitVec 8)
  | remain (count : Nat)
  | clearBusy
deriving DecidableEq, Repr

/-- The byte a context has taken from the ring and not yet written. -/
def Pc.held : Pc → Option (BitVec 8)
  | .testFifo _ ch => some ch
  | .writeThr _ ch => some ch
  | _ => none

/-- The device, where each context is, and which contexts hold a byte, in the
order in which they took it from the ring (a history variable). -/
structure TxSystem where
  device : SerialDevice
  pc : Context → Pc
  holders : List Context

inductive TxStep where
  /-- A thread calls `rt_serial_write`. -/
  | call (thread : Nat) (buffer : List (BitVec 8))
  /-- A context takes its next step. -/
  | run (context : Context)
  /-- The THRE interrupt starts. -/
  | thre
  /-- The line takes a byte from the transmit FIFO. -/
  | shift
deriving DecidableEq, Repr

/-- A byte is stored in the transmit ring, or dropped by `put_char`. -/
inductive TxEvent where
  | stored (byte : BitVec 8)
  | dropped (byte : BitVec 8)
deriving DecidableEq, Repr

namespace TxSystem

def goto (system : TxSystem) (context : Context) (pc : Pc) : TxSystem :=
  { system with pc := Function.update system.pc context pc }

def setDevice (system : TxSystem) (device : SerialDevice) : TxSystem :=
  { system with device := device }

/-- The next step of a context; an idle one has none. -/
def runContext (system : TxSystem) (context : Context) : Option (TxSystem × List TxEvent) :=
  let device := system.device
  match system.pc context with
  | .idle => none
  | .store [] => some (system.goto context .testBusy, [])
  | .store (byte :: bytes) =>
    let (result, intTx) := device.intTx.putchar byte
    if result ≠ -1 then
      some ((system.setDevice { device with intTx := intTx }).goto context (.store bytes),
        [.stored byte])
    else some (system.goto context .testBusy, [])
  | .testBusy =>
    some (system.goto context (if device.txBusy = false then .setBusy else .idle), [])
  | .setBusy =>
    some ((system.setDevice { device with txBusy := true }).goto context (.getc 0), [])
  | .getc count =>
    let (ch, intTx) := device.intTx.getc
    let system := system.setDevice { device with intTx := intTx }
    if ch > 0 then
      some ({ system.goto context (.testFifo count (BitVec.ofInt 8 ch)) with
        holders := system.holders ++ [context] }, [])
    else if count = 0 then some (system.goto context .clearBusy, [])
    else some (system.goto context .idle, [])
  | .testFifo count ch =>
    if device.sendFifoLength < 15 then some (system.goto context (.writeThr count ch), [])
    else
      some ({ system.goto context (.remain count) with
        holders := system.holders.erase context }, [.dropped ch])
  | .writeThr count ch =>
    some ({ (system.setDevice (device.writeThr ch)).goto context (.loadFifo count) with
      holders := system.holders.erase context }, [])
  | .loadFifo count => some (system.goto context (.storeFifo count device.sendFifoLength), [])
  | .storeFifo count length =>
    some ((system.setDevice { device with sendFifoLength := length + 1 }).goto context
      (.remain count), [])
  | .remain count =>
    let remain : Int := 15 - device.sendFifoLength.toNat
    some (system.goto context (if remain = 0 then .idle else .getc (count + 1)), [])
  | .clearBusy =>
    some ((system.setDevice
      { device with txBusy := false, completions := device.completions + 1 }).goto context .idle,
      [])

/-- No thread runs while the interrupt is being served. -/
def step (system : TxSystem) : TxStep → Option (TxSystem × List TxEvent)
  | .call thread buffer =>
    if system.pc .irq = .idle ∧ system.pc (.thread thread) = .idle then
      some (system.goto (.thread thread) (.store buffer), [])
    else none
  | .run context =>
    if context = .irq ∨ system.pc .irq = .idle then system.runContext context else none
  | .thre =>
    if system.pc .irq = .idle ∧ system.device.uart.txFifo = 0 then
      some ((system.setDevice { system.device with sendFifoLength := 0 }).goto .irq (.getc 0), [])
    else none
  | .shift =>
    let uart := system.device.uart
    if uart.txFifo ≠ 0 then
      some (system.setDevice
        { system.device with uart := { uart with txFifo := uart.txFifo - 1 } }, [])
    else none

def init : TxSystem where
  device := .init
  pc _ := .idle
  holders := []

end TxSystem

def preemptMachine : Machine TxSystem TxStep TxEvent where
  step := TxSystem.step

/-- The bytes stored in the transmit ring, in order. -/
def storedBytes (events : List TxEvent) : List (BitVec 8) :=
  events.filterMap fun
    | .stored byte => some byte
    | .dropped _ => none

/-- The bytes dropped by `put_char`. -/
def droppedBytes (events : List TxEvent) : List (BitVec 8) :=
  events.filterMap fun
    | .stored _ => none
    | .dropped byte => some byte

/-- Programs write no zero byte. -/
def WritesNonzero : TxStep → Prop
  | .call _ buffer => 0 ∉ buffer
  | _ => True

/-- A context executes `serial_put`. -/
def Pc.InSerialPut : Pc → Prop
  | .idle | .store _ | .testBusy | .setBusy => False
  | .getc _ | .testFifo _ _ | .writeThr _ _ | .loadFifo _ | .storeFifo _ _ | .remain _
  | .clearBusy => True

/-- `tx_busy` is still clear when a thread that has found it clear sets it. -/
def SetsClear (system : TxSystem) : TxStep → Prop
  | .run context => system.pc context = .setBusy → system.device.txBusy = false
  | _ => True

/-- The THRE interrupt is taken while no thread is in `serial_put`, and not
between the store of a byte and the setting of `tx_busy` for it. -/
def InterruptsApart (system : TxSystem) : TxStep → Prop
  | .thre => (∀ thread, ¬ (system.pc (.thread thread)).InSerialPut) ∧
      (system.device.txBusy = true ∨
        system.device.intTx.getIndex = system.device.intTx.putIndex)
  | _ => True

/-- What THR has received is a prefix of what the ring has, and nothing was dropped. -/
def KeepsOrder (events : List TxEvent) (system : TxSystem) : Prop :=
  system.device.uart.thr <+: storedBytes events ∧ droppedBytes events = []

/-- The bytes that contexts hold, in the order in which they took them. -/
def TxSystem.heldBytes (system : TxSystem) : List (BitVec 8) :=
  system.holders.filterMap fun context => (system.pc context).held

/-- `put_char` finds room in the FIFO, and a context writes to THR only when no
other one holds a byte that it took from the ring earlier. -/
def InTurnAt (system : TxSystem) (context : Context) : Pc → Prop
  | .testFifo _ _ => system.device.sendFifoLength < 15
  | .writeThr _ _ => system.holders.head? = some context
  | _ => True

/-- THR, the bytes that contexts hold and the ring are, together, what was stored. -/
structure OrderInv (stored : List (BitVec 8)) (system : TxSystem) (queue : List (BitVec 8)) :
    Prop where
  ring : system.device.intTx.Contains queue
  nonzero : 0 ∉ queue
  holders : ∀ context, context ∈ system.holders ↔ (system.pc context).held ≠ none
  distinct : system.holders.Nodup
  delivered : system.device.uart.thr ++ system.heldBytes ++ queue = stored
  unsent : ∀ context bytes, system.pc context = .store bytes → 0 ∉ bytes

namespace OrderInv

variable {stored queue : List (BitVec 8)} {system : TxSystem} {context : Context} {pc : Pc}
  {device : SerialDevice}

/-- A step that moves no byte keeps the invariant. -/
theorem goto (inv : OrderInv stored system queue) (ring : device.intTx = system.device.intTx)
    (thr : device.uart.thr = system.device.uart.thr) (held : pc.held = (system.pc context).held)
    (unsent : ∀ bytes, pc = .store bytes → 0 ∉ bytes) :
    OrderInv stored ((system.setDevice device).goto context pc) queue := by
  have same : ∀ other, (((system.setDevice device).goto context pc).pc other).held =
      (system.pc other).held := by
    intro other
    by_cases equal : other = context
    · subst equal
      simpa [TxSystem.goto] using held
    · simp [TxSystem.goto, TxSystem.setDevice, equal]
  refine ⟨ring ▸ inv.ring, inv.nonzero, ?_, inv.distinct, ?_, ?_⟩
  · intro other
    rw [same]
    exact inv.holders other
  · have kept : ((system.setDevice device).goto context pc).heldBytes = system.heldBytes := by
      simp only [TxSystem.heldBytes, same]
      rfl
    rw [kept, ← inv.delivered, ← thr]
    rfl
  · intro other bytes at_store
    by_cases equal : other = context
    · subst equal
      exact unsent bytes (by simpa [TxSystem.goto] using at_store)
    · exact inv.unsent other bytes (by simpa [TxSystem.goto, TxSystem.setDevice, equal]
        using at_store)

theorem not_holder (inv : OrderInv stored system queue) (free : (system.pc context).held = none) :
    context ∉ system.holders := by
  rw [inv.holders, free]
  simp

theorem setRing (inv : OrderInv stored system queue) {ring : SerialRingbuffer}
    {stored' queue' : List (BitVec 8)} (contains : ring.Contains queue') (nonzero : 0 ∉ queue')
    (delivered : system.device.uart.thr ++ system.heldBytes ++ queue' = stored') :
    OrderInv stored' (system.setDevice { system.device with intTx := ring }) queue' :=
  ⟨contains, nonzero, inv.holders, inv.distinct, delivered, inv.unsent⟩

/-- `serial_ringbuffer_putchar` stores a byte behind all others. -/
theorem store {byte : BitVec 8} {bytes : List (BitVec 8)} (inv : OrderInv stored system queue)
    (at_store : system.pc context = .store (byte :: bytes))
    (room : queue.length + 1 < serialRbufferSize) :
    OrderInv (stored ++ [byte])
      ((system.setDevice
        { system.device with intTx := (system.device.intTx.putchar byte).2 }).goto context
          (.store bytes)) (queue ++ [byte]) := by
  have unsent := inv.unsent context _ at_store
  have nonzero : 0 ∉ queue ++ [byte] := by
    rw [List.mem_append, not_or]
    exact ⟨inv.nonzero, fun zero => unsent (by rw [List.mem_singleton.mp zero]; simp)⟩
  have delivered : system.device.uart.thr ++ system.heldBytes ++ (queue ++ [byte]) =
      stored ++ [byte] := by
    rw [← inv.delivered]
    simp
  refine (inv.setRing (inv.ring.putchar_room room byte).2 nonzero delivered).goto rfl rfl ?_ ?_
  · exact (congrArg Pc.held at_store).symm
  · rintro _ ⟨rfl⟩
    exact fun zero => unsent (List.mem_cons_of_mem _ zero)

/-- `serial_ringbuffer_getc` hands the oldest byte of the ring to a context. -/
theorem take {byte : BitVec 8} {count : Nat} (inv : OrderInv stored system (byte :: queue))
    (at_getc : system.pc context = .getc count) :
    OrderInv stored
      { (system.setDevice { system.device with intTx := system.device.intTx.getc.2 }).goto context
          (.testFifo count byte) with
        holders := system.holders ++ [context] } queue := by
  have absent : context ∉ system.holders := inv.not_holder (by rw [at_getc]; rfl)
  have others : ∀ other, other ≠ context →
      Function.update system.pc context (.testFifo count byte) other = system.pc other :=
    fun other apart => Function.update_of_ne apart _ _
  refine ⟨inv.ring.getc_cons.2, fun zero => inv.nonzero (List.mem_cons_of_mem _ zero), ?_, ?_,
    ?_, ?_⟩
  · intro other
    by_cases equal : other = context
    · subst equal
      simp [TxSystem.goto, Pc.held]
    · simpa [TxSystem.goto, TxSystem.setDevice, equal] using inv.holders other
  · exact List.nodup_append.mpr ⟨inv.distinct, List.nodup_singleton _, by
      intro left member right last
      rw [List.mem_singleton.mp last]
      rintro rfl
      exact absent member⟩
  · have kept : (system.holders.filterMap fun other =>
        (Function.update system.pc context (.testFifo count byte) other).held) =
          system.heldBytes := by
      refine List.filterMap_congr fun other member => ?_
      rw [others other fun equal => absent (equal ▸ member)]
    have last : ([context].filterMap fun other =>
        (Function.update system.pc context (.testFifo count byte) other).held) = [byte] := by
      simp [Pc.held]
    simp only [TxSystem.heldBytes, TxSystem.goto, TxSystem.setDevice, List.filterMap_append, last]
    rw [kept, ← inv.delivered]
    simp
  · intro other bytes at_store
    by_cases equal : other = context
    · subst equal
      simp [TxSystem.goto] at at_store
    · exact inv.unsent other bytes (by simpa [TxSystem.goto, TxSystem.setDevice, equal]
        using at_store)

/-- The context that has held its byte longest writes it to THR. -/
theorem write {ch : BitVec 8} {count : Nat} (inv : OrderInv stored system queue)
    (at_write : system.pc context = .writeThr count ch)
    (first : system.holders.head? = some context) :
    OrderInv stored
      { (system.setDevice (system.device.writeThr ch)).goto context (.loadFifo count) with
        holders := system.holders.erase context } queue := by
  obtain ⟨rest, shape⟩ := List.head?_eq_some_iff.mp first
  have distinct := inv.distinct
  rw [shape] at distinct
  obtain ⟨absent, distinct⟩ := List.nodup_cons.mp distinct
  have erased : system.holders.erase context = rest := by
    rw [shape, List.erase_cons_head]
  rw [erased]
  refine ⟨inv.ring, inv.nonzero, ?_, distinct, ?_, ?_⟩
  · intro other
    by_cases equal : other = context
    · subst equal
      simpa [TxSystem.goto, Pc.held] using absent
    · have member := inv.holders other
      rw [shape, List.mem_cons] at member
      simpa [TxSystem.goto, TxSystem.setDevice, equal] using member
  · have kept : (rest.filterMap fun other =>
        (Function.update system.pc context (.loadFifo count) other).held) =
          rest.filterMap fun other => (system.pc other).held := by
      refine List.filterMap_congr fun other member => ?_
      have apart : other ≠ context := fun equal => absent (equal ▸ member)
      rw [Function.update_of_ne apart]
    have held : system.heldBytes = ch :: rest.filterMap fun other => (system.pc other).held := by
      rw [TxSystem.heldBytes, shape, List.filterMap_cons, at_write]
      rfl
    have delivered := inv.delivered
    rw [held] at delivered
    rw [← delivered]
    simp only [TxSystem.heldBytes, TxSystem.goto, TxSystem.setDevice, SerialDevice.writeThr, kept]
    simp
  · intro other bytes at_store
    by_cases equal : other = context
    · subst equal
      simp [TxSystem.goto] at at_store
    · exact inv.unsent other bytes (by simpa [TxSystem.goto, TxSystem.setDevice, equal]
        using at_store)

/-- A step of one context in its turn keeps the invariant and drops nothing. -/
theorem runContext {next : TxSystem} {emitted : List TxEvent}
    (inv : OrderInv stored system queue) (inTurn : InTurnAt system context (system.pc context))
    (step : system.runContext context = some (next, emitted)) :
    droppedBytes emitted = [] ∧
      ∃ queue', OrderInv (stored ++ storedBytes emitted) next queue' := by
  have quiet : ∀ {pc' : Pc} {device' : SerialDevice},
      some ((system.setDevice device').goto context pc', []) = some (next, emitted) →
      device'.intTx = system.device.intTx → device'.uart.thr = system.device.uart.thr →
      pc'.held = (system.pc context).held → (∀ bytes, pc' = .store bytes → 0 ∉ bytes) →
      droppedBytes emitted = [] ∧
        ∃ queue', OrderInv (stored ++ storedBytes emitted) next queue' := by
    intro pc' device' same ring thr held unsent
    obtain ⟨rfl, rfl⟩ := Prod.mk.inj (Option.some_inj.mp same)
    exact ⟨rfl, queue, by simpa [storedBytes] using inv.goto ring thr held unsent⟩
  cases here : system.pc context with
  | idle =>
      simp only [TxSystem.runContext, here] at step
      cases step
  | store bytes =>
      cases bytes with
      | nil =>
          simp only [TxSystem.runContext, here] at step
          exact quiet step rfl rfl (by rw [here]; rfl) (by simp)
      | cons byte bytes =>
          simp only [TxSystem.runContext, here] at step
          have room := inv.ring.room
          by_cases spare : queue.length + 1 < serialRbufferSize
          · rw [(inv.ring.putchar_room spare byte).1, if_pos (by decide)] at step
            obtain ⟨rfl, rfl⟩ := Prod.mk.inj (Option.some_inj.mp step)
            exact ⟨rfl, _, inv.store here spare⟩
          · rw [inv.ring.putchar_full (by omega) byte, if_neg (by simp)] at step
            exact quiet step rfl rfl (by rw [here]; rfl) (by simp)
  | testBusy =>
      simp only [TxSystem.runContext, here] at step
      refine quiet step rfl rfl ?_ ?_ <;> split <;> simp [here, Pc.held]
  | setBusy =>
      simp only [TxSystem.runContext, here] at step
      exact quiet step rfl rfl (by rw [here]; rfl) (by simp)
  | getc count =>
      simp only [TxSystem.runContext, here] at step
      cases queue with
      | nil =>
          rw [inv.ring.getc_nil, if_neg (by simp)] at step
          split at step <;> exact quiet step rfl rfl (by rw [here]; rfl) (by simp)
      | cons byte queue =>
          obtain ⟨taken, -⟩ := inv.ring.getc_cons
          have some : byte.toNat ≠ 0 := by
            intro zero
            have isZero : byte = 0 := BitVec.eq_of_toNat_eq zero
            exact inv.nonzero (by simp [isZero])
          have same : BitVec.ofInt 8 system.device.intTx.getc.1 = byte := by
            rw [taken]
            simp
          rw [if_pos (by omega), same] at step
          obtain ⟨rfl, rfl⟩ := Prod.mk.inj (Option.some_inj.mp step)
          exact ⟨rfl, queue, (List.append_nil stored).symm ▸ inv.take here⟩
  | testFifo count ch =>
      have room : system.device.sendFifoLength < 15 := by
        simpa [InTurnAt, here] using inTurn
      simp only [TxSystem.runContext, here, room, if_true] at step
      exact quiet step rfl rfl (by rw [here]; rfl) (by simp)
  | writeThr count ch =>
      have first : system.holders.head? = some context := by
        simpa [InTurnAt, here] using inTurn
      simp only [TxSystem.runContext, here] at step
      obtain ⟨rfl, rfl⟩ := Prod.mk.inj (Option.some_inj.mp step)
      exact ⟨rfl, queue, (List.append_nil stored).symm ▸ inv.write here first⟩
  | loadFifo count =>
      simp only [TxSystem.runContext, here] at step
      exact quiet step rfl rfl (by rw [here]; rfl) (by simp)
  | storeFifo count length =>
      simp only [TxSystem.runContext, here] at step
      exact quiet step rfl rfl (by rw [here]; rfl) (by simp)
  | remain count =>
      simp only [TxSystem.runContext, here] at step
      refine quiet step rfl rfl ?_ ?_ <;> split <;> simp [here, Pc.held]
  | clearBusy =>
      simp only [TxSystem.runContext, here] at step
      exact quiet step rfl rfl (by rw [here]; rfl) (by simp)

end OrderInv

/-! ## One context at a time -/

/-- What `SendFifoLength` and `tx_busy` are while a context is in `serial_put`. -/
def PutAt (device : SerialDevice) : Pc → Prop
  | .idle | .store _ | .testBusy | .setBusy => True
  | .getc count => device.sendFifoLength.toNat = count ∧ count < 15 ∧
      (device.txBusy = true ∨ device.intTx.getIndex = device.intTx.putIndex)
  | .testFifo count _ | .writeThr count _ | .loadFifo count =>
      device.sendFifoLength.toNat = count ∧ count < 15 ∧ device.txBusy = true
  | .storeFifo count length => length.toNat = count ∧ count < 15 ∧ device.txBusy = true
  | .remain count =>
      device.sendFifoLength.toNat = count + 1 ∧ count < 15 ∧ device.txBusy = true
  | .clearBusy => device.sendFifoLength = 0

theorem PutAt.outside {device : SerialDevice} {pc : Pc} (outside : ¬ pc.InSerialPut) :
    PutAt device pc := by
  cases pc <;> first | trivial | exact absurd trivial outside

/-- Storing bytes in the ring disturbs no context that runs with `tx_busy` set. -/
theorem PutAt.storing {device device' : SerialDevice} {pc : Pc} (put : PutAt device pc)
    (busy : pc.InSerialPut → device.txBusy = true) (same : device'.txBusy = device.txBusy)
    (fifo : device'.sendFifoLength = device.sendFifoLength) : PutAt device' pc := by
  by_cases inside : pc.InSerialPut
  · have set := same.trans (busy inside)
    cases pc <;> simp_all [PutAt, Pc.InSerialPut]
  · exact .outside inside

/-- The line takes bytes without the driver noticing. -/
theorem PutAt.shifted {device device' : SerialDevice} {pc : Pc} (put : PutAt device pc)
    (busy : device'.txBusy = device.txBusy) (fifo : device'.sendFifoLength = device.sendFifoLength)
    (ring : device'.intTx = device.intTx) : PutAt device' pc := by
  cases pc <;> first | trivial | simpa only [PutAt, busy, fifo, ring] using put

/-- At most one context is in `serial_put`; a thread there has set `tx_busy`, and
when `tx_busy` is clear nothing has been counted in `SendFifoLength`. -/
structure TurnInv (system : TxSystem) : Prop where
  alone : ∀ one other, (system.pc one).InSerialPut → (system.pc other).InSerialPut → one = other
  busy : ∀ thread, (system.pc (.thread thread)).InSerialPut → system.device.txBusy = true
  irq : system.pc .irq = .idle ∨ (system.pc .irq).InSerialPut
  clear : system.device.txBusy = false → system.device.sendFifoLength = 0
  put : ∀ context, PutAt system.device (system.pc context)

namespace TurnInv

variable {system next : TxSystem} {context : Context} {pc : Pc} {device : SerialDevice}
  {emitted : List TxEvent}

/-- The history of the bytes does not matter. -/
theorem withHolders (inv : TurnInv system) (holders : List Context) :
    TurnInv { system with holders := holders } :=
  ⟨inv.alone, inv.busy, inv.irq, inv.clear, inv.put⟩

theorem init : TurnInv .init where
  alone _ _ inside := nomatch inside
  busy _ inside := nomatch inside
  irq := .inl rfl
  clear _ := rfl
  put _ := trivial

/-- A thread moves outside `serial_put`. -/
theorem outside {thread : Nat} (inv : TurnInv system) (free : system.pc .irq = .idle)
    (after : ¬ pc.InSerialPut) (busy : device.txBusy = system.device.txBusy)
    (fifo : device.sendFifoLength = system.device.sendFifoLength) :
    TurnInv ((system.setDevice device).goto (.thread thread) pc) := by
  have same : ∀ other, (((system.setDevice device).goto (.thread thread) pc).pc other).InSerialPut →
      ((system.setDevice device).goto (.thread thread) pc).pc other = system.pc other := by
    intro other inside
    by_cases equal : other = .thread thread
    · subst equal
      exact absurd (by simpa [TxSystem.goto] using inside) after
    · simp [TxSystem.goto, TxSystem.setDevice, equal]
  refine ⟨?_, ?_, .inl free, ?_, ?_⟩
  · intro one other first second
    exact inv.alone one other (same one first ▸ first) (same other second ▸ second)
  · intro other inside
    exact busy.trans (inv.busy other (same _ inside ▸ inside))
  · intro idle
    exact fifo.trans (inv.clear (busy.symm.trans idle))
  · intro other
    by_cases inside : (((system.setDevice device).goto (.thread thread) pc).pc other).InSerialPut
    · have same := same other inside
      rw [same] at inside ⊢
      refine (inv.put other).storing (fun _ => ?_) busy fifo
      cases other with
      | thread other => exact inv.busy other inside
      | irq => exact absurd inside (by rw [free]; exact id)
    · exact .outside inside

/-- The context in `serial_put` moves, inside it or out of it. -/
theorem inside (inv : TurnInv system) (before : (system.pc context).InSerialPut)
    (put : PutAt device pc) (after : pc = .idle ∨ pc.InSerialPut)
    (busy : ∀ thread, context = .thread thread → pc.InSerialPut → device.txBusy = true)
    (clear : device.txBusy = false → device.sendFifoLength = 0) :
    TurnInv ((system.setDevice device).goto context pc) := by
  have others : ∀ other, other ≠ context →
      ((system.setDevice device).goto context pc).pc other = system.pc other ∧
        ¬ (system.pc other).InSerialPut := by
    intro other apart
    exact ⟨by simp [TxSystem.goto, TxSystem.setDevice, apart],
      fun there => apart (inv.alone other context there before)⟩
  have only : ∀ other, (((system.setDevice device).goto context pc).pc other).InSerialPut →
      other = context := by
    intro other there
    by_contra apart
    exact (others other apart).2 ((others other apart).1 ▸ there)
  have here : ((system.setDevice device).goto context pc).pc context = pc := by
    simp [TxSystem.goto]
  refine ⟨?_, ?_, ?_, clear, ?_⟩
  · intro one other first second
    rw [only one first, only other second]
  · intro thread there
    obtain rfl := only _ there
    exact busy thread rfl (here ▸ there)
  · by_cases equal : Context.irq = context
    · subst equal
      rw [here]
      exact after
    · rw [(others _ equal).1]
      exact inv.irq
  · intro other
    by_cases equal : other = context
    · rw [equal, here]
      exact put
    · rw [(others other equal).1]
      exact .outside (others other equal).2

/-- A thread that finds `tx_busy` still clear enters `serial_put` alone. -/
theorem enter {thread : Nat} (inv : TurnInv system) (free : system.pc .irq = .idle)
    (still : system.device.txBusy = false) :
    TurnInv ((system.setDevice { system.device with txBusy := true }).goto (.thread thread)
      (.getc 0)) := by
  have nobody : ∀ other, ¬ (system.pc other).InSerialPut := by
    intro other there
    cases other with
    | thread other => exact absurd ((inv.busy other there).symm.trans still) (by simp)
    | irq => exact absurd there (by rw [free]; exact id)
  have only : ∀ other, (((system.setDevice { system.device with txBusy := true }).goto
      (.thread thread) (.getc 0)).pc other).InSerialPut → other = .thread thread := by
    intro other there
    by_contra apart
    exact nobody other (by simpa [TxSystem.goto, TxSystem.setDevice, apart] using there)
  refine ⟨?_, fun _ _ => rfl, .inl free, nofun, ?_⟩
  · intro one other first second
    rw [only one first, only other second]
  · intro other
    by_cases equal : other = .thread thread
    · subst equal
      simp [TxSystem.goto, TxSystem.setDevice, PutAt, inv.clear still]
    · refine .outside fun there => equal (only other there)

/-- The THRE interrupt finds no thread in `serial_put`. -/
theorem thre (apart : InterruptsApart system .thre) :
    TurnInv ((system.setDevice { system.device with sendFifoLength := 0 }).goto .irq
      (.getc 0)) := by
  obtain ⟨nobody, asked⟩ := apart
  have threads : ∀ thread, ¬ (((system.setDevice { system.device with sendFifoLength := 0 }).goto
      .irq (.getc 0)).pc (.thread thread)).InSerialPut := nobody
  have only : ∀ other, (((system.setDevice { system.device with sendFifoLength := 0 }).goto
      .irq (.getc 0)).pc other).InSerialPut → other = .irq := by
    intro other there
    cases other with
    | thread thread => exact absurd there (threads thread)
    | irq => rfl
  refine ⟨?_, ?_, .inr trivial, fun _ => rfl, ?_⟩
  · intro one other first second
    rw [only one first, only other second]
  · intro thread there
    exact absurd there (threads thread)
  · intro other
    cases other with
    | thread thread => exact .outside (threads thread)
    | irq => exact ⟨rfl, by decide, asked⟩

/-- A step of one context keeps the invariant. -/
theorem runContext (inv : TurnInv system) (turn : context = .irq ∨ system.pc .irq = .idle)
    (still : SetsClear system (.run context))
    (step : system.runContext context = some (next, emitted)) : TurnInv next := by
  have thread_of : ¬ (system.pc context).InSerialPut → system.pc context ≠ .idle →
      system.pc .irq = .idle ∧ ∃ thread, context = .thread thread := by
    intro outside running
    cases context with
    | thread thread => exact ⟨turn.resolve_left (by simp), thread, rfl⟩
    | irq => exact absurd inv.irq (not_or.mpr ⟨running, outside⟩)
  have put := inv.put context
  cases here : system.pc context with
  | idle =>
      simp only [TxSystem.runContext, here] at step
      cases step
  | store bytes =>
      obtain ⟨free, thread, rfl⟩ := thread_of (by rw [here]; exact id) (by simp [here])
      cases bytes with
      | nil =>
          simp only [TxSystem.runContext, here] at step
          obtain ⟨rfl, -⟩ := Prod.mk.inj (Option.some_inj.mp step)
          exact @outside _ _ system.device _ inv free id rfl rfl
      | cons byte bytes =>
          simp only [TxSystem.runContext, here] at step
          split at step
          · obtain ⟨rfl, -⟩ := Prod.mk.inj (Option.some_inj.mp step)
            exact inv.outside free id rfl rfl
          · obtain ⟨rfl, -⟩ := Prod.mk.inj (Option.some_inj.mp step)
            exact @outside _ _ system.device _ inv free id rfl rfl
  | testBusy =>
      obtain ⟨free, thread, rfl⟩ := thread_of (by rw [here]; exact id) (by simp [here])
      simp only [TxSystem.runContext, here] at step
      obtain ⟨rfl, -⟩ := Prod.mk.inj (Option.some_inj.mp step)
      refine @outside _ _ system.device _ inv free ?_ rfl rfl
      split <;> exact id
  | setBusy =>
      obtain ⟨free, thread, rfl⟩ := thread_of (by rw [here]; exact id) (by simp [here])
      simp only [TxSystem.runContext, here] at step
      obtain ⟨rfl, -⟩ := Prod.mk.inj (Option.some_inj.mp step)
      exact inv.enter free (still here)
  | getc count =>
      have before : (system.pc context).InSerialPut := by rw [here]; trivial
      have entered : ∀ thread, context = .thread thread → system.device.txBusy = true := by
        rintro thread rfl
        exact inv.busy thread before
      rw [here] at put
      obtain ⟨counted, room, asked⟩ := put
      simp only [TxSystem.runContext, here] at step
      split at step
      · rename_i positive
        -- a byte is there, so the interrupt was not taken with an empty ring
        have busy : system.device.txBusy = true := asked.resolve_right fun empty => by
          rw [SerialRingbuffer.getc, if_neg (not_not.mpr empty)] at positive
          simp at positive
        obtain ⟨rfl, -⟩ := Prod.mk.inj (Option.some_inj.mp step)
        have moved := @inside system context
          (.testFifo count (BitVec.ofInt 8 system.device.intTx.getc.1))
          { system.device with intTx := system.device.intTx.getc.2 } inv before
          ⟨counted, room, busy⟩ (.inr trivial) (fun _ _ _ => busy) inv.clear
        exact moved.withHolders _
      · split at step
        · rename_i first
          obtain ⟨rfl, -⟩ := Prod.mk.inj (Option.some_inj.mp step)
          exact inv.inside before (BitVec.eq_of_toNat_eq (counted.trans first)) (.inr trivial)
            (fun thread same _ => entered thread same) inv.clear
        · obtain ⟨rfl, -⟩ := Prod.mk.inj (Option.some_inj.mp step)
          exact inv.inside before trivial (.inl rfl) (fun _ _ inside => False.elim inside) inv.clear
  | testFifo count ch =>
      have before : (system.pc context).InSerialPut := by rw [here]; trivial
      rw [here] at put
      obtain ⟨counted, room, busy⟩ := put
      have free : system.device.sendFifoLength < 15 := by
        rw [BitVec.lt_def, counted]
        exact room
      simp only [TxSystem.runContext, here, if_pos free] at step
      obtain ⟨rfl, -⟩ := Prod.mk.inj (Option.some_inj.mp step)
      exact @inside _ _ _ system.device inv before ⟨counted, room, busy⟩ (.inr trivial)
        (fun _ _ _ => busy) inv.clear
  | writeThr count ch =>
      have before : (system.pc context).InSerialPut := by rw [here]; trivial
      rw [here] at put
      simp only [TxSystem.runContext, here] at step
      obtain ⟨rfl, -⟩ := Prod.mk.inj (Option.some_inj.mp step)
      have moved := @inside system context (.loadFifo count) (system.device.writeThr ch) inv before
        put (.inr trivial) (fun _ _ _ => put.2.2) inv.clear
      exact moved.withHolders _
  | loadFifo count =>
      have before : (system.pc context).InSerialPut := by rw [here]; trivial
      rw [here] at put
      simp only [TxSystem.runContext, here] at step
      obtain ⟨rfl, -⟩ := Prod.mk.inj (Option.some_inj.mp step)
      exact @inside _ _ _ system.device inv before put (.inr trivial) (fun _ _ _ => put.2.2)
        inv.clear
  | storeFifo count length =>
      have before : (system.pc context).InSerialPut := by rw [here]; trivial
      rw [here] at put
      obtain ⟨counted, room, busy⟩ := put
      have next : (length + 1).toNat = count + 1 := by
        rw [BitVec.toNat_add, counted]
        exact Nat.mod_eq_of_lt (by change count + 1 < 256; omega)
      simp only [TxSystem.runContext, here] at step
      obtain ⟨rfl, -⟩ := Prod.mk.inj (Option.some_inj.mp step)
      exact inv.inside before ⟨next, room, busy⟩ (.inr trivial) (fun _ _ _ => busy)
        fun idle => absurd (busy.symm.trans idle) (by simp)
  | remain count =>
      have before : (system.pc context).InSerialPut := by rw [here]; trivial
      rw [here] at put
      obtain ⟨counted, room, busy⟩ := put
      simp only [TxSystem.runContext, here] at step
      obtain ⟨rfl, -⟩ := Prod.mk.inj (Option.some_inj.mp step)
      split
      · exact @inside _ _ _ system.device inv before trivial (.inl rfl) (fun _ _ inside => False.elim inside) inv.clear
      · rename_i left
        rw [counted] at left
        exact @inside _ _ _ system.device inv before ⟨counted, by omega, .inl busy⟩ (.inr trivial)
          (fun _ _ _ => busy) inv.clear
  | clearBusy =>
      have before : (system.pc context).InSerialPut := by rw [here]; trivial
      rw [here] at put
      simp only [TxSystem.runContext, here] at step
      obtain ⟨rfl, -⟩ := Prod.mk.inj (Option.some_inj.mp step)
      exact inv.inside before trivial (.inl rfl) (fun _ _ inside => False.elim inside) fun _ => put

/-- Every step under the schedule keeps the invariant. -/
theorem step {action : TxStep} (inv : TurnInv system) (still : SetsClear system action)
    (apart : InterruptsApart system action) (step : system.step action = some (next, emitted)) :
    TurnInv next := by
  cases action with
  | call thread buffer =>
      obtain ⟨⟨free, -⟩, same⟩ := Option.ite_none_right_eq_some.mp step
      obtain ⟨rfl, -⟩ := Prod.mk.inj (Option.some_inj.mp same)
      exact @outside _ _ system.device _ inv free id rfl rfl
  | run context =>
      obtain ⟨turn, same⟩ := Option.ite_none_right_eq_some.mp step
      exact inv.runContext turn still same
  | thre =>
      obtain ⟨-, same⟩ := Option.ite_none_right_eq_some.mp step
      obtain ⟨rfl, -⟩ := Prod.mk.inj (Option.some_inj.mp same)
      exact thre apart
  | shift =>
      obtain ⟨-, same⟩ := Option.ite_none_right_eq_some.mp step
      obtain ⟨rfl, -⟩ := Prod.mk.inj (Option.some_inj.mp same)
      refine ⟨inv.alone, inv.busy, inv.irq, inv.clear, fun context => ?_⟩
      exact (inv.put context).shifted rfl rfl rfl

/-- `put_char` finds room, and the only byte on its way is written first. -/
theorem inTurn {stored queue : List (BitVec 8)} (inv : TurnInv system)
    (order : OrderInv stored system queue) (context : Context) :
    InTurnAt system context (system.pc context) := by
  have put := inv.put context
  cases here : system.pc context with
  | testFifo count ch =>
      rw [here] at put
      change system.device.sendFifoLength < 15
      rw [BitVec.lt_def, put.1]
      exact put.2.1
  | writeThr count ch =>
      have before : (system.pc context).InSerialPut := by rw [here]; trivial
      have mine : context ∈ system.holders := (order.holders context).mpr (by rw [here]; nofun)
      have only : ∀ other ∈ system.holders, other = context := by
        intro other member
        refine inv.alone other context ?_ before
        have held := (order.holders other).mp member
        cases there : system.pc other <;> simp_all [Pc.held, Pc.InSerialPut]
      obtain ⟨first, rest, shape⟩ := List.exists_cons_of_ne_nil (List.ne_nil_of_mem mine)
      change system.holders.head? = some context
      rw [shape, List.head?_cons, only first (by simp [shape])]
  | _ => trivial

end TurnInv

/-! ## Every run -/

theorem OrderInv.init : OrderInv [] .init [] where
  ring := SerialRingbuffer.init_contains
  nonzero := by simp
  holders := by simp [TxSystem.init, Pc.held]
  distinct := List.nodup_nil
  delivered := rfl
  unsent := by simp [TxSystem.init]

/-- Every step in turn keeps the invariant and drops nothing. -/
theorem OrderInv.step {stored queue : List (BitVec 8)} {system next : TxSystem} {action : TxStep}
    {emitted : List TxEvent} (inv : OrderInv stored system queue)
    (nonzero : WritesNonzero action)
    (inTurn : ∀ context, InTurnAt system context (system.pc context))
    (step : system.step action = some (next, emitted)) :
    droppedBytes emitted = [] ∧
      ∃ queue', OrderInv (stored ++ storedBytes emitted) next queue' := by
  cases action with
  | call thread buffer =>
      obtain ⟨⟨-, free⟩, same⟩ := Option.ite_none_right_eq_some.mp step
      obtain ⟨rfl, rfl⟩ := Prod.mk.inj (Option.some_inj.mp same)
      have called : OrderInv stored
          ((system.setDevice system.device).goto (.thread thread) (.store buffer)) queue :=
        inv.goto rfl rfl (by rw [free]; rfl) (by rintro _ ⟨rfl⟩; exact nonzero)
      exact ⟨rfl, queue, (List.append_nil stored).symm ▸ called⟩
  | run context =>
      obtain ⟨-, same⟩ := Option.ite_none_right_eq_some.mp step
      exact inv.runContext (inTurn context) same
  | thre =>
      obtain ⟨⟨free, -⟩, same⟩ := Option.ite_none_right_eq_some.mp step
      obtain ⟨rfl, rfl⟩ := Prod.mk.inj (Option.some_inj.mp same)
      have raised : OrderInv stored
          ((system.setDevice { system.device with sendFifoLength := 0 }).goto .irq (.getc 0))
          queue :=
        inv.goto rfl rfl (by rw [free]; rfl) (by simp)
      exact ⟨rfl, queue, (List.append_nil stored).symm ▸ raised⟩
  | shift =>
      obtain ⟨-, same⟩ := Option.ite_none_right_eq_some.mp step
      obtain ⟨rfl, rfl⟩ := Prod.mk.inj (Option.some_inj.mp same)
      refine ⟨rfl, queue, (List.append_nil stored).symm ▸ ?_⟩
      exact ⟨inv.ring, inv.nonzero, inv.holders, inv.distinct, inv.delivered, inv.unsent⟩

/-- However threads and the THRE interrupt take turns, transmit order is kept as
long as `tx_busy` is set only while it is clear and the interrupt is not taken
between the test of `tx_busy` and the end of `serial_put`. -/
theorem transmit_keeps_order {actions : List TxStep} {events : List TxEvent} {system : TxSystem}
    (run : preemptMachine.Run (fun system action => WritesNonzero action ∧
      SetsClear system action ∧ InterruptsApart system action) .init actions events system) :
    KeepsOrder events system := by
  have kept : TurnInv system ∧ droppedBytes events = [] ∧
      ∃ queue, OrderInv (storedBytes events) system queue := by
    induction run with
    | nil => exact ⟨.init, rfl, [], .init⟩
    | snoc _ admitted step ih =>
        obtain ⟨turn, none, queue, inv⟩ := ih
        obtain ⟨none', queue', inv'⟩ := inv.step admitted.1 (turn.inTurn inv) step
        refine ⟨turn.step admitted.2.1 admitted.2.2 step, ?_⟩
        simp only [droppedBytes, storedBytes, List.filterMap_append] at *
        exact ⟨by rw [none, none']; rfl, queue', inv'⟩
  obtain ⟨-, none, queue, inv⟩ := kept
  refine ⟨⟨system.heldBytes ++ queue, ?_⟩, none⟩
  rw [← List.append_assoc]
  exact inv.delivered

instance : (action : TxStep) → Decidable (WritesNonzero action)
  | .call _ _ => inferInstanceAs (Decidable (¬ _))
  | .run _ | .thre | .shift => inferInstanceAs (Decidable True)

instance (system : TxSystem) : (action : TxStep) → Decidable (SetsClear system action)
  | .run _ => inferInstanceAs (Decidable (_ → _))
  | .call _ _ | .thre | .shift => inferInstanceAs (Decidable True)

open TxStep in
/-- Two threads write at the same time: the first sends 0x41, 0x43 and 0x42, and the
second leaves 0x44 in the ring for the interrupt. -/
def twoWriters : List TxStep :=
  [call 0 [0x41, 0x42], call 1 [0x43]] ++
    [0, 1, 0, 0, 1, 0, 0, 1].map (fun thread => run (.thread thread)) ++
    List.replicate 19 (run (.thread 0)) ++ [call 1 [0x44]] ++
    List.replicate 3 (run (.thread 1)) ++ List.replicate 3 shift

/-- Between two THRE interrupts nothing is asked of the interrupt. -/
theorem run_without_thre {start system : TxSystem} {actions : List TxStep} {events : List TxEvent}
    (success : (preemptMachine.restrict fun system action => WritesNonzero action ∧
      SetsClear system action ∧ action ≠ .thre).execute start actions = some (system, events)) :
    preemptMachine.Run (fun system action => WritesNonzero action ∧
      SetsClear system action ∧ InterruptsApart system action) start actions events system := by
  refine (Machine.run_of_execute_restrict success).mono fun system action allowed => ?_
  refine ⟨allowed.1, allowed.2.1, ?_⟩
  cases action <;> first | trivial | exact absurd rfl allowed.2.2

/-- The THRE interrupt sends the byte that the second thread has left to it. -/
theorem transmit_keeps_order_two_threads :
    ∃ events system, preemptMachine.Run (fun system action => WritesNonzero action ∧
        SetsClear system action ∧ InterruptsApart system action) .init
        (twoWriters ++ [.thre] ++ List.replicate 7 (.run .irq)) events system ∧
      system.device.uart.thr = [0x41, 0x43, 0x42, 0x44] ∧ KeepsOrder events system := by
  have interrupted : preemptMachine.Run (fun system action => WritesNonzero action ∧
      SetsClear system action ∧ InterruptsApart system action)
      .init (twoWriters ++ [.thre]) _ _ :=
    .snoc (run_without_thre rfl)
      ⟨trivial, trivial, fun thread => match thread with | 0 | 1 | _ + 2 => id, .inl rfl⟩ rfl
  have whole : preemptMachine.Run (fun system action => WritesNonzero action ∧
      SetsClear system action ∧ InterruptsApart system action)
      .init (twoWriters ++ [.thre] ++ List.replicate 7 (.run .irq)) _ _ :=
    interrupted.append (run_without_thre rfl)
  exact ⟨_, _, whole, rfl, transmit_keeps_order whole⟩

/-- A thread has taken its second byte from the ring; the FIFO drains, and the
interrupt sends the third byte before the thread writes the second. -/
theorem transmit_overtakes :
    ∃ system events, preemptMachine.execute .init
        (.call 0 [0x41, 0x42, 0x43] :: List.replicate 13 (.run (.thread 0)) ++
          [.shift, .thre] ++ List.replicate 7 (.run .irq) ++
          List.replicate 2 (.run (.thread 0))) = some (system, events) ∧
      ¬ KeepsOrder events system := by
  refine ⟨_, _, rfl, fun keeps => ?_⟩
  exact absurd keeps.1 (by decide)

/-! ## One context alone -/

/-- `context` can get from one state to another by its own steps. -/
def Alone (context : Context) : TxSystem → TxSystem → Prop :=
  Relation.ReflTransGen fun system next =>
    ∃ emitted, system.runContext context = some (next, emitted)

theorem Alone.cons {context : Context} {system next final : TxSystem} {emitted : List TxEvent}
    (step : system.runContext context = some (next, emitted)) (rest : Alone context next final) :
    Alone context system final :=
  Relation.ReflTransGen.head ⟨emitted, step⟩ rest

theorem SerialDevice.putChar_room {device : SerialDevice} (room : device.sendFifoLength < 15)
    (c : BitVec 8) : device.putChar c =
      ((15 : Int) - (device.sendFifoLength + 1).toNat,
        { device.writeThr c with sendFifoLength := device.sendFifoLength + 1 }) := by
  simp only [putChar, if_pos room]

theorem SerialDevice.putChar_full {device : SerialDevice} (full : ¬ device.sendFifoLength < 15)
    (c : BitVec 8) :
    device.putChar c = ((15 : Int) - device.sendFifoLength.toNat, device) := by
  simp only [putChar, if_neg full]

/-- The steps of `put_char` and of the test that follows it amount to `putChar`. -/
theorem putChar_alone {system : TxSystem} {context : Context} {count : Nat} {ch : BitVec 8}
    (here : system.pc context = .testFifo count ch) :
    ∃ next, Alone context system next ∧ next.device = (system.device.putChar ch).2 ∧
      ((system.device.putChar ch).1 = 0 → next.pc = Function.update system.pc context .idle) ∧
      ((system.device.putChar ch).1 ≠ 0 →
        next.pc = Function.update system.pc context (.getc (count + 1))) := by
  by_cases room : system.device.sendFifoLength < 15
  · let testing := system.goto context (.writeThr count ch)
    let written : TxSystem :=
      { (testing.setDevice (testing.device.writeThr ch)).goto context (.loadFifo count) with
        holders := testing.holders.erase context }
    let loaded := written.goto context (.storeFifo count written.device.sendFifoLength)
    let counted := (loaded.setDevice { loaded.device with
      sendFifoLength := written.device.sendFifoLength + 1 }).goto context (.remain count)
    have test : system.runContext context = some (testing, []) := by
      simp only [TxSystem.runContext, here, if_pos room, testing]
    have write : testing.runContext context = some (written, []) := by
      simp [TxSystem.runContext, written, testing, TxSystem.goto]
    have load : written.runContext context = some (loaded, []) := by
      simp [TxSystem.runContext, loaded, written, TxSystem.goto]
    have store : loaded.runContext context = some (counted, []) := by
      simp [TxSystem.runContext, counted, loaded, TxSystem.goto]
    have remain : counted.runContext context = some (counted.goto context
        (if (15 : Int) - counted.device.sendFifoLength.toNat = 0 then .idle
          else .getc (count + 1)), []) := by
      simp [TxSystem.runContext, counted, TxSystem.goto]
    rw [SerialDevice.putChar_room room]
    refine ⟨_, .cons test (.cons write (.cons load (.cons store (.cons remain .refl)))), rfl, ?_,
      ?_⟩
    · intro full
      rw [if_pos (show (15 : Int) - counted.device.sendFifoLength.toNat = 0 from full)]
      simp [counted, loaded, written, testing, TxSystem.goto, TxSystem.setDevice]
    · intro more
      rw [if_neg (show ¬ (15 : Int) - counted.device.sendFifoLength.toNat = 0 from more)]
      simp [counted, loaded, written, testing, TxSystem.goto, TxSystem.setDevice]
  · let dropped : TxSystem :=
      { system.goto context (.remain count) with holders := system.holders.erase context }
    have drop : system.runContext context = some (dropped, [.dropped ch]) := by
      simp only [TxSystem.runContext, here, if_neg room, dropped]
    have remain : dropped.runContext context = some (dropped.goto context
        (if (15 : Int) - dropped.device.sendFifoLength.toNat = 0 then .idle
          else .getc (count + 1)), []) := by
      simp [TxSystem.runContext, dropped, TxSystem.goto]
    rw [SerialDevice.putChar_full room]
    refine ⟨_, .cons drop (.cons remain .refl), rfl, ?_, ?_⟩
    · intro full
      rw [if_pos (show (15 : Int) - dropped.device.sendFifoLength.toNat = 0 from full)]
      simp [dropped, TxSystem.goto]
    · intro more
      rw [if_neg (show ¬ (15 : Int) - dropped.device.sendFifoLength.toNat = 0 from more)]
      simp [dropped, TxSystem.goto]

/-- Left alone, a context in `serial_put` does what `serialPutLoop` says. -/
theorem serialPutLoop_alone {device next : SerialDevice} {count total : Nat}
    (loop : device.serialPutLoop count = some (total, next)) {system : TxSystem}
    {context : Context} (same : system.device = device)
    (here : system.pc context = .getc count) :
    ∃ final, Alone context system final ∧ final.device = next ∧
      final.pc = Function.update system.pc context .idle := by
  refine SerialDevice.serialPutLoop.partial_correctness
    (fun device count result => ∀ system : TxSystem, system.device = device →
      system.pc context = .getc count → ∃ final, Alone context system final ∧
        final.device = result.2 ∧ final.pc = Function.update system.pc context .idle)
    ?_ device count (total, next) loop system same here
  rintro again ih device count result round system rfl here
  let taken : SerialDevice := { system.device with intTx := system.device.intTx.getc.2 }
  by_cases positive : system.device.intTx.getc.1 > 0
  · let held : TxSystem :=
      { (system.setDevice taken).goto context
          (.testFifo count (BitVec.ofInt 8 system.device.intTx.getc.1)) with
        holders := system.holders ++ [context] }
    have take : system.runContext context = some (held, []) := by
      simp only [TxSystem.runContext, here, if_pos positive, held, taken]
      rfl
    have atTest : held.pc context =
        .testFifo count (BitVec.ofInt 8 system.device.intTx.getc.1) := by
      simp [held, TxSystem.goto]
    obtain ⟨sent, steps, device, idle, more⟩ := putChar_alone atTest
    have same : ∀ pc, Function.update held.pc context pc = Function.update system.pc context pc :=
      fun pc => Function.update_idem _ _ _
    have round : (if (taken.putChar (BitVec.ofInt 8 system.device.intTx.getc.1)).1 = 0 then
        some (count + 1, (taken.putChar (BitVec.ofInt 8 system.device.intTx.getc.1)).2)
      else again (taken.putChar (BitVec.ofInt 8 system.device.intTx.getc.1)).2 (count + 1)) =
        some result := by
      rw [← round]
      exact (if_pos positive).symm
    split at round
    · rename_i full
      obtain rfl := Option.some_inj.mp round
      exact ⟨sent, .cons take steps, device, (idle full).trans (same _)⟩
    · rename_i left
      obtain ⟨final, rest, device', pc⟩ := ih _ _ _ round sent device
        (by rw [more left, Function.update_self])
      refine ⟨final, .cons take (steps.trans rest), device', ?_⟩
      rw [pc, more left, same, Function.update_idem]
  · have round : (if count = 0 then some (count,
          { taken with txBusy := false, completions := taken.completions + 1 })
        else some (count, taken)) = some result := by
      rw [← round]
      exact (if_neg positive).symm
    by_cases first : count = 0
    · rw [if_pos first] at round
      obtain rfl := Option.some_inj.mp round
      let clearing := (system.setDevice taken).goto context .clearBusy
      have take : system.runContext context = some (clearing, []) := by
        simp only [TxSystem.runContext, here, if_neg positive, if_pos first, clearing, taken]
      have clear : clearing.runContext context = some ((clearing.setDevice
          { taken with txBusy := false, completions := taken.completions + 1 }).goto context
            .idle, []) := by
        simp [TxSystem.runContext, clearing, TxSystem.goto, TxSystem.setDevice]
      exact ⟨_, .cons take (.cons clear .refl), rfl, Function.update_idem _ _ _⟩
    · rw [if_neg first] at round
      obtain rfl := Option.some_inj.mp round
      have take : system.runContext context =
          some ((system.setDevice taken).goto context .idle, []) := by
        simp only [TxSystem.runContext, here, if_neg positive, if_neg first, taken]
      exact ⟨_, .cons take .refl, rfl, rfl⟩

/-- Served without a break, the THRE interrupt does what `UART0_IRQHandler` does. -/
theorem thre_alone {system started : TxSystem} {emitted : List TxEvent} {next : SerialDevice}
    (step : system.step .thre = some (started, emitted))
    (handled : uart0IrqHandler system.device .thre = some next) :
    ∃ final, Alone .irq started final ∧ final.device = next ∧ final.pc = system.pc := by
  obtain ⟨⟨free, -⟩, same⟩ := Option.ite_none_right_eq_some.mp step
  obtain ⟨rfl, -⟩ := Prod.mk.inj (Option.some_inj.mp same)
  obtain ⟨⟨total, _⟩, put, pair⟩ := Option.bind_eq_some_iff.mp handled
  obtain rfl := Option.some_inj.mp pair
  obtain ⟨final, steps, device, pc⟩ := @serialPutLoop_alone _ _ _ _ put
    ((system.setDevice { system.device with sendFifoLength := 0 }).goto .irq (.getc 0)) .irq rfl
    (by simp [TxSystem.goto])
  refine ⟨final, steps, device, ?_⟩
  rw [pc, ← free]
  simp [TxSystem.goto, TxSystem.setDevice]

end RtThread.Serial
