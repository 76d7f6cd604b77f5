import RtThread.Drivers.DataqueueSteps

/-!
# Transmission with DMA

The DMA branch of `rt_serial_write` and `rt_hw_serial_dma_tx_isr` in `serial.c`. Each
accepted buffer waits in a data queue of 40 items, which finds an item with the mask 39:
its bits are not consecutive, so that indices less than 40 apart may share a slot.
-/

namespace RtThread.Serial

open RtThread.Std

/-- The part of `struct rt_serial_device` for transmission with DMA. -/
structure DmaDevice where
  txDq : DataqueueSystem
  txBusy : Bool

/-- A buffer has been accepted by `rt_serial_write` or passed to `dma_transmit`. -/
inductive DmaEvent where
  | accepted (buffer : DataItem)
  | transmitted (buffer : DataItem)
deriving DecidableEq, Repr

namespace DmaDevice

/-- What `rt_serial_init` makes, with `RT_SERIAL_TX_DATAQUEUE_SIZE` and
`RT_SERIAL_TX_DATAQUEUE_LWM`. -/
def rtSerialInit (items : Nat → DataItem) : DmaDevice :=
  ⟨.start (rtDataQueueInit 40 30 items false), false⟩

/-- `dma_transmit` of the next buffer, if `rt_data_queue_pop` finds one. -/
def popNext (device : DmaDevice) : Option (DmaDevice × Option DataItem) :=
  (device.txDq.pop none 0).map fun (txDq, emitted) =>
    ({ device with txDq := txDq }, emitted.findSome? fun
      | .popped buffer => some buffer
      | _ => none)

/-- `rt_serial_write` with `RT_DEVICE_FLAG_DMA_TX`, where the queue has room. -/
def rtSerialWrite (device : DmaDevice) (buffer : DataItem) :
    Option (DmaDevice × List DmaEvent) := do
  let (txDq, _) ← device.txDq.push none buffer 20
  let device := { device with txDq := txDq }
  if device.txBusy = false then
    let (device, next) ← popNext { device with txBusy := true }
    pure (device, .accepted buffer :: next.toList.map .transmitted)
  else pure (device, [.accepted buffer])

def rtHwSerialDmaTxIsr (device : DmaDevice) : Option (DmaDevice × List DmaEvent) := do
  match ← device.popNext with
  | (device, some buffer) => pure (device, [.transmitted buffer])
  | (device, none) => pure ({ device with txBusy := false }, [])

end DmaDevice

inductive DmaAction where
  | write (buffer : DataItem)
  /-- A transmission is complete. -/
  | isr
deriving DecidableEq, Repr

def dmaMachine : Machine DmaDevice DmaAction DmaEvent where
  step device
    | .write buffer => device.rtSerialWrite buffer
    | .isr => device.rtHwSerialDmaTxIsr

def DmaEvent.accepted? : DmaEvent → Option DataItem
  | .accepted buffer => some buffer
  | .transmitted _ => none

def DmaEvent.transmitted? : DmaEvent → Option DataItem
  | .accepted _ => none
  | .transmitted buffer => some buffer

/-- What has been passed to `dma_transmit` is the first of what has been accepted, and all
of it where the device is not busy. -/
structure DmaInOrder (events : List DmaEvent) (device : DmaDevice) : Prop where
  inOrder : events.filterMap DmaEvent.transmitted? <+: events.filterMap DmaEvent.accepted?
  idle : device.txBusy = false → device.txDq.queue.isEmpty = true ∧
    events.filterMap DmaEvent.transmitted? = events.filterMap DmaEvent.accepted?

/-- No buffer that is still queued has the slot of the next one. -/
def DmaDevice.SlotFree (device : DmaDevice) : Prop :=
  let queue := device.txDq.queue
  ∀ offset < (queue.putIndex - queue.getIndex).toNat,
    queue.slot (queue.getIndex + BitVec.ofNat 16 offset) ≠ queue.slot queue.putIndex

/-- A buffer is accepted only where its slot is free. -/
def DmaDevice.Spares (device : DmaDevice) : DmaAction → Prop
  | .write _ => device.SlotFree
  | .isr => True

/-! ## The queue -/

/-- The slots from the one of `get_index` on hold `pending`, each item in a slot of its own. -/
structure Pends (queue : Dataqueue) (pending : List DataItem) : Prop where
  size : queue.size = 40
  pushers : queue.suspendedPushList = []
  poppers : queue.suspendedPopList = []
  silent : queue.evtNotify = false
  counted : (queue.putIndex - queue.getIndex).toNat = pending.length
  held : ∀ offset (bound : offset < pending.length),
    queue.queue (queue.slot (queue.getIndex + BitVec.ofNat 16 offset)) = pending[offset]
  apart : ∀ offset offset', offset < pending.length → offset' < pending.length →
    queue.slot (queue.getIndex + BitVec.ofNat 16 offset) =
      queue.slot (queue.getIndex + BitVec.ofNat 16 offset') → offset = offset'

namespace Pends

variable {queue : Dataqueue} {pending : List DataItem} {buffer : DataItem}

theorem init (items : Nat → DataItem) : Pends (rtDataQueueInit 40 30 items false) [] where
  size := rfl
  pushers := rfl
  poppers := rfl
  silent := rfl
  counted := by simp [rtDataQueueInit]
  held := by rintro offset ⟨⟩
  apart := by rintro offset offset' ⟨⟩

theorem slot_lt (pends : Pends queue pending) (index : BitVec 16) : queue.slot index < 40 := by
  have mask : (queue.size - 1).toNat = 39 := by
    rw [pends.size]
    rfl
  rw [Dataqueue.slot, BitVec.toNat_and, mask]
  exact Nat.lt_succ_of_le Nat.and_le_right

/-- There are no more items than slots. -/
theorem length_le (pends : Pends queue pending) : pending.length ≤ 40 := by
  have injective : Function.Injective fun offset : Fin pending.length =>
      (⟨queue.slot (queue.getIndex + BitVec.ofNat 16 offset), pends.slot_lt _⟩ : Fin 40) := by
    intro offset offset' same
    exact Fin.ext (pends.apart offset offset' offset.isLt offset'.isLt (Fin.mk.inj same))
  simpa using Fintype.card_le_of_injective _ injective

theorem isEmpty_iff (pends : Pends queue pending) : queue.isEmpty = true ↔ pending = [] := by
  rw [← List.length_eq_zero_iff, ← pends.counted, Dataqueue.isEmpty, decide_eq_true_iff]
  bv_omega

/-- An item is put into a free slot. -/
theorem store (pends : Pends queue pending)
    (free : ∀ offset < pending.length,
      queue.slot (queue.getIndex + BitVec.ofNat 16 offset) ≠ queue.slot queue.putIndex) :
    Pends (queue.store buffer) (pending ++ [buffer]) := by
  have few := pends.length_le
  have counted := pends.counted
  have last : queue.getIndex + BitVec.ofNat 16 pending.length = queue.putIndex := by bv_omega
  have slots : ∀ index, (queue.store buffer).slot index = queue.slot index := fun _ => rfl
  constructor
  · exact pends.size
  · exact pends.pushers
  · exact pends.poppers
  · exact pends.silent
  · rw [List.length_append, List.length_singleton]
    change (queue.putIndex + 1 - queue.getIndex).toNat = _
    bv_omega
  · intro offset bound
    rw [List.length_append, List.length_singleton] at bound
    rw [slots]
    change Function.update queue.queue (queue.slot queue.putIndex) buffer
      (queue.slot (queue.getIndex + BitVec.ofNat 16 offset)) = _
    by_cases early : offset < pending.length
    · rw [Function.update_of_ne (free offset early), List.getElem_append_left early]
      exact pends.held offset early
    · obtain rfl : offset = pending.length := by omega
      rw [last, Function.update_self]
      simp
  · intro offset offset' bound bound' same
    rw [List.length_append, List.length_singleton] at bound bound'
    rw [slots, slots] at same
    change queue.slot (queue.getIndex + _) = queue.slot (queue.getIndex + _) at same
    by_cases early : offset < pending.length
    · by_cases early' : offset' < pending.length
      · exact pends.apart offset offset' early early' same
      · obtain rfl : offset' = pending.length := by omega
        rw [last] at same
        exact absurd same (free offset early)
    · obtain rfl : offset = pending.length := by omega
      by_cases early' : offset' < pending.length
      · rw [last] at same
        exact absurd same.symm (free offset' early')
      · omega

/-- The first item is taken. -/
theorem take (pends : Pends queue (buffer :: pending)) {next : Dataqueue}
    (size : next.size = queue.size) (pushers : next.suspendedPushList = [])
    (poppers : next.suspendedPopList = []) (silent : next.evtNotify = false)
    (get : next.getIndex = queue.getIndex + 1) (put : next.putIndex = queue.putIndex)
    (items : next.queue = queue.queue) : Pends next pending := by
  have few := pends.length_le
  have counted := pends.counted
  rw [List.length_cons] at few counted
  have slots : ∀ offset, next.slot (next.getIndex + BitVec.ofNat 16 offset) =
      queue.slot (queue.getIndex + BitVec.ofNat 16 (offset + 1)) := by
    intro offset
    rw [Dataqueue.slot, Dataqueue.slot, size, get]
    rw [Nat.add_comm offset 1, BitVec.ofNat_add, BitVec.add_assoc]
    rfl
  constructor
  · rw [size]
    exact pends.size
  · exact pushers
  · exact poppers
  · exact silent
  · rw [get, put]
    have back := queue.putIndex.isLt
    have front := queue.getIndex.isLt
    rw [BitVec.toNat_sub] at counted
    rw [BitVec.toNat_sub, BitVec.toNat_add, show (1 : BitVec 16).toNat = 1 from rfl]
    omega
  · intro offset bound
    rw [slots, items]
    exact pends.held (offset + 1) (Nat.succ_lt_succ bound)
  · intro offset offset' bound bound' same
    rw [slots, slots] at same
    exact Nat.succ_injective
      (pends.apart _ _ (Nat.succ_lt_succ bound) (Nat.succ_lt_succ bound') same)

theorem front (pends : Pends queue (buffer :: pending)) : queue.front = buffer := by
  have first := pends.held 0 (Nat.succ_pos _)
  rw [Dataqueue.front]
  simpa using first

end Pends

/-! ## Runs -/

namespace DmaDevice

variable {device next : DmaDevice} {pending : List DataItem} {buffer : DataItem}
  {emitted : List DmaEvent}

/-- `rt_data_queue_pop` takes the first item. -/
theorem popNext_cons (pends : Pends device.txDq.queue (buffer :: pending)) :
    ∃ next, device.popNext = some (next, some buffer) ∧ next.txBusy = device.txBusy ∧
      Pends next.txDq.queue pending := by
  have holds : ¬ device.txDq.queue.isEmpty = true := by
    rw [pends.isEmpty_iff]
    simp
  unfold popNext DataqueueSystem.pop
  dsimp only
  rw [if_neg holds, pends.front]
  split
  · rw [pends.pushers]
    exact ⟨_, rfl, rfl, pends.take rfl rfl pends.poppers pends.silent rfl rfl rfl⟩
  · exact ⟨_, rfl, rfl, pends.take rfl pends.pushers pends.poppers pends.silent rfl rfl rfl⟩

theorem popNext_nil (pends : Pends device.txDq.queue []) : device.popNext = some (device, none) := by
  have empty : device.txDq.queue.isEmpty = true := pends.isEmpty_iff.mpr rfl
  unfold popNext DataqueueSystem.pop
  dsimp only
  rw [if_pos empty, if_pos rfl]
  rfl

/-- The data queue has room for a buffer that `rt_data_queue_push` takes at once. -/
theorem push_some {txDq : DataqueueSystem} {events : List DataqueueEvent}
    (pends : Pends device.txDq.queue pending)
    (push : device.txDq.push none buffer 20 = some (txDq, events)) :
    txDq.queue = device.txDq.queue.store buffer := by
  cases DataqueueSystem.pushes_of_push push with
  | refused full zero => cases zero
  | blocked full same => cases same
  | woke room waiting =>
      rw [pends.poppers] at waiting
      cases waiting
  | stored room nobody => rfl

/-- What has been accepted and not passed to `dma_transmit` is in the queue. -/
structure Sends (device : DmaDevice) (events : List DmaEvent) (pending : List DataItem) : Prop where
  pends : Pends device.txDq.queue pending
  whole : events.filterMap DmaEvent.accepted? = events.filterMap DmaEvent.transmitted? ++ pending
  idle : device.txBusy = false → pending = []

theorem Sends.inOrder {events : List DmaEvent} (sends : device.Sends events pending) :
    DmaInOrder events device := by
  refine ⟨⟨pending, sends.whole.symm⟩, fun free => ?_⟩
  obtain rfl := sends.idle free
  exact ⟨sends.pends.isEmpty_iff.mpr rfl, by simpa using sends.whole.symm⟩

theorem Sends.write {events : List DmaEvent} (sends : device.Sends events pending)
    (free : device.SlotFree) (step : device.rtSerialWrite buffer = some (next, emitted)) :
    ∃ pending, next.Sends (events ++ emitted) pending := by
  simp only [rtSerialWrite, Option.bind_eq_bind, Option.bind_eq_some_iff] at step
  obtain ⟨⟨txDq, noted⟩, push, step⟩ := step
  have queue := push_some sends.pends push
  have pends := @Pends.store _ _ buffer sends.pends
    (fun offset bound => free offset (sends.pends.counted.symm ▸ bound))
  rw [← queue] at pends
  dsimp only at step
  split at step
  · rename_i idle
    have nothing := sends.idle idle
    subst nothing
    obtain ⟨after, popped, busy, pends'⟩ :=
      @popNext_cons { device with txDq := txDq, txBusy := true } [] buffer pends
    rw [popped] at step
    obtain ⟨rfl, rfl⟩ := Prod.mk.inj (Option.some_inj.mp step)
    refine ⟨[], pends', ?_, fun free => ?_⟩
    · have whole := sends.whole
      rw [List.append_nil] at whole
      rw [List.filterMap_append, List.filterMap_append, whole, List.append_nil]
      rfl
    · rfl
  · rename_i busy
    obtain ⟨rfl, rfl⟩ := Prod.mk.inj (Option.some_inj.mp step)
    refine ⟨pending ++ [buffer], pends, ?_, fun free => absurd free busy⟩
    rw [List.filterMap_append, List.filterMap_append, sends.whole, List.append_assoc,
      List.append_assoc]
    rfl

theorem Sends.isr {events : List DmaEvent} (sends : device.Sends events pending)
    (step : device.rtHwSerialDmaTxIsr = some (next, emitted)) :
    ∃ pending, next.Sends (events ++ emitted) pending := by
  cases pending with
  | nil =>
      rw [rtHwSerialDmaTxIsr, popNext_nil sends.pends] at step
      obtain ⟨rfl, rfl⟩ := Prod.mk.inj (Option.some_inj.mp step)
      exact ⟨[], sends.pends, by simpa using sends.whole, fun _ => rfl⟩
  | cons buffer rest =>
      obtain ⟨after, popped, busy, pends⟩ := popNext_cons sends.pends
      rw [rtHwSerialDmaTxIsr, popped] at step
      obtain ⟨rfl, rfl⟩ := Prod.mk.inj (Option.some_inj.mp step)
      refine ⟨rest, pends, ?_, fun free => ?_⟩
      · have accepted : [DmaEvent.transmitted buffer].filterMap DmaEvent.accepted? = [] := rfl
        have transmitted : [DmaEvent.transmitted buffer].filterMap DmaEvent.transmitted? =
          [buffer] := rfl
        rw [List.filterMap_append, List.filterMap_append, sends.whole, accepted, transmitted,
          List.append_nil, List.append_assoc]
        rfl
      · rw [busy] at free
        cases sends.idle free

end DmaDevice

/-- While each buffer is put into a free slot, what is passed to `dma_transmit` is a prefix
of what has been accepted. -/
theorem dma_in_order {items : Nat → DataItem} {actions : List DmaAction}
    {events : List DmaEvent} {device : DmaDevice}
    (run : dmaMachine.Run DmaDevice.Spares (.rtSerialInit items) actions events device) :
    DmaInOrder events device := by
  obtain ⟨pending, sends⟩ : ∃ pending, device.Sends events pending := by
    refine @Machine.Run.history _ _ _ _ _ _ _ _ _
      (fun events (device : DmaDevice) => ∃ pending, device.Sends events pending) run
      ⟨[], .init items, rfl, fun _ => rfl⟩ ?_
    rintro events device action next emitted ⟨pending, sends⟩ spares step
    cases action with
    | write buffer => exact sends.write spares step
    | isr => exact sends.isr step
  exact sends.inOrder

instance (device : DmaDevice) : Decidable device.SlotFree :=
  inferInstanceAs (Decidable (∀ offset < _, _))

instance (device : DmaDevice) : (action : DmaAction) → Decidable (device.Spares action)
  | .write _ => inferInstanceAs (Decidable device.SlotFree)
  | .isr => inferInstanceAs (Decidable True)

/-- The first two buffers are passed on, and the third one is still queued. -/
theorem dma_in_order_three : ∃ events device,
    dmaMachine.Run DmaDevice.Spares (.rtSerialInit fun _ => ⟨0, 0⟩)
      [.write ⟨1, 1⟩, .write ⟨2, 1⟩, .write ⟨3, 1⟩, .isr] events device ∧
      DmaInOrder events device ∧
      events.filterMap DmaEvent.transmitted? = [⟨1, 1⟩, ⟨2, 1⟩] := by
  obtain ⟨events, device, executed, transmitted⟩ : ∃ events device,
      (dmaMachine.restrict DmaDevice.Spares).execute (.rtSerialInit fun _ => ⟨0, 0⟩)
        [.write ⟨1, 1⟩, .write ⟨2, 1⟩, .write ⟨3, 1⟩, .isr] = some (device, events) ∧
      events.filterMap DmaEvent.transmitted? = [⟨1, 1⟩, ⟨2, 1⟩] := ⟨_, _, rfl, rfl⟩
  have run := Machine.run_of_execute_restrict executed
  exact ⟨events, device, run, dma_in_order run, transmitted⟩

/-- The tenth buffer is put over the second one, which is still queued: the second
transmission sends the tenth one. -/
theorem dma_overwrites : ∃ events device,
    dmaMachine.Run (fun _ _ => True) (.rtSerialInit fun _ => ⟨0, 0⟩)
      ((List.range 10).map (fun number => .write ⟨number, 1⟩) ++ [.isr]) events device ∧
      events.filterMap DmaEvent.transmitted? = [⟨0, 1⟩, ⟨9, 1⟩] ∧
      ¬ DmaInOrder events device := by
  obtain ⟨events, device, executed, accepted, transmitted⟩ : ∃ events device,
      dmaMachine.execute (.rtSerialInit fun _ => ⟨0, 0⟩)
        ((List.range 10).map (fun number => .write ⟨number, 1⟩) ++ [.isr]) =
          some (device, events) ∧
        events.filterMap DmaEvent.accepted? = (List.range 10).map (fun number => ⟨number, 1⟩) ∧
        events.filterMap DmaEvent.transmitted? = [⟨0, 1⟩, ⟨9, 1⟩] := ⟨_, _, rfl, rfl, rfl⟩
  refine ⟨events, device, Machine.run_of_execute (fun _ _ _ => trivial) executed, transmitted, ?_⟩
  intro right
  have inOrder := right.inOrder
  rw [accepted, transmitted] at inOrder
  exact absurd inOrder (by decide)

end RtThread.Serial
