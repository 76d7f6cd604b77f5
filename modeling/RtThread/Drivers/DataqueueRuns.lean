import RtThread.Std.FreeRunning
import RtThread.Drivers.DataqueueSteps

/-!
# Runs of the data queue

As long as every push sees that the queue is full, the queue is a bounded FIFO.
-/

namespace RtThread

open RtThread.Std

/-! ## What the queue holds -/

def DataqueueEvent.pushedItem : DataqueueEvent → Option DataItem
  | .pushed item => some item
  | _ => none

def DataqueueEvent.poppedItem : DataqueueEvent → Option DataItem
  | .popped item => some item
  | _ => none

/-- The queue of `size` items holds `contents`. -/
structure Dataqueue.Stores (queue : Dataqueue) (size : Nat) (contents : List DataItem) : Prop where
  isSize : queue.size.toNat = size
  holds : FreeRunning size queue.queue queue.getIndex queue.putIndex contents

/-- With `size` items, `put_index` has not wrapped around past `get_index`, so that
their difference in `int` is `size`. -/
def Dataqueue.ShowsFull (queue : Dataqueue) : Prop :=
  queue.putIndex - queue.getIndex = queue.size → queue.getIndex ≤ queue.putIndex

/-- The action looks at the queue in `rt_data_queue_push`. -/
def DataqueueSystem.triesPush (system : DataqueueSystem) : DataqueueAction → Bool
  | .push _ _ _ => true
  | .wake thread =>
      match system.phase thread with
      | .pushing _ _ .resumed => true
      | _ => false
  | _ => false

/-- A push sees whether the queue is full. -/
def DataqueueSystem.SeesFull (system : DataqueueSystem) (action : DataqueueAction) : Prop :=
  system.triesPush action = true → system.queue.ShowsFull

section

variable {size : Nat} {queue : Dataqueue} {contents : List DataItem} {item : DataItem}
  {system next : DataqueueSystem} {context : Option ThreadId} {timeout : Int}
  {action : DataqueueAction} {emitted events : List DataqueueEvent}

@[simp] theorem DataqueueEvent.pushedItem_pushed :
    (DataqueueEvent.pushed item).pushedItem = some item := rfl

@[simp] theorem DataqueueEvent.pushedItem_popped :
    (DataqueueEvent.popped item).pushedItem = none := rfl

@[simp] theorem DataqueueEvent.pushedItem_etimeout :
    DataqueueEvent.etimeout.pushedItem = none := rfl

@[simp] theorem DataqueueEvent.poppedItem_pushed :
    (DataqueueEvent.pushed item).poppedItem = none := rfl

@[simp] theorem DataqueueEvent.poppedItem_popped :
    (DataqueueEvent.popped item).poppedItem = some item := rfl

@[simp] theorem DataqueueEvent.poppedItem_etimeout :
    DataqueueEvent.etimeout.poppedItem = none := rfl

@[simp] theorem Dataqueue.pushed_notify (queue : Dataqueue) (notice : DataqueueNotice) :
    (queue.notify notice).filterMap DataqueueEvent.pushedItem = [] := by
  unfold Dataqueue.notify
  split <;> rfl

@[simp] theorem Dataqueue.popped_notify (queue : Dataqueue) (notice : DataqueueNotice) :
    (queue.notify notice).filterMap DataqueueEvent.poppedItem = [] := by
  unfold Dataqueue.notify
  split <;> rfl

namespace Dataqueue.Stores

theorem slot (stores : queue.Stores size contents) (valid : MaskSize 16 size)
    (index : BitVec 16) : queue.slot index = index.toNat % size :=
  valid.and_mask stores.isSize index

/-- The comparison in `int` tells whether the queue is full. -/
theorem isFull_iff (stores : queue.Stores size contents) (valid : MaskSize 16 size)
    (shows_ : queue.ShowsFull) : queue.isFull = true ↔ contents.length = size := by
  have isSize := stores.isSize
  have counted := stores.holds.count valid
  have distance := stores.holds.distance
  have below := valid.lt
  have front := queue.getIndex.isLt
  rw [isFull, decide_eq_true_eq, difference, isSize]
  constructor
  · intro same
    omega
  · intro full
    have order := shows_ (BitVec.eq_of_toNat_eq (by omega))
    rw [BitVec.le_def] at order
    omega

theorem isEmpty_iff (stores : queue.Stores size contents) (valid : MaskSize 16 size) :
    queue.isEmpty = true ↔ contents = [] := by
  rw [isEmpty, decide_eq_true_eq]
  exact stores.holds.empty_iff valid

theorem store (stores : queue.Stores size contents) (valid : MaskSize 16 size)
    (room : contents.length < size) (item : DataItem) :
    (queue.store item).Stores size (contents ++ [item]) := by
  constructor
  · exact stores.isSize
  · rw [Dataqueue.store, stores.slot valid]
    exact stores.holds.push valid room item

theorem take (stores : queue.Stores size (item :: contents)) (valid : MaskSize 16 size) :
    queue.front = item ∧
      { queue with getIndex := queue.getIndex + 1 : Dataqueue }.Stores size contents := by
  obtain ⟨front, holds⟩ := stores.holds.pop valid
  constructor
  · rwa [Dataqueue.front, stores.slot valid]
  · exact ⟨stores.isSize, holds⟩

end Dataqueue.Stores

/-- What a step does to the items. -/
structure StepsFifo (size : Nat) (contents contents' : List DataItem) (next : DataqueueSystem)
    (emitted : List DataqueueEvent) : Prop where
  stores : next.queue.Stores size contents'
  order : contents ++ emitted.filterMap DataqueueEvent.pushedItem =
    emitted.filterMap DataqueueEvent.poppedItem ++ contents'

theorem DataqueueSystem.Pushes.fifo (stores : system.queue.Stores size contents)
    (valid : MaskSize 16 size) (shows_ : system.queue.ShowsFull)
    (pushes : system.Pushes context item timeout next emitted) :
    ∃ contents', StepsFifo size contents contents' next emitted := by
  have room : system.queue.isFull = false → contents.length < size := by
    intro open_
    have upper := stores.holds.length_le
    have other := mt (stores.isFull_iff valid shows_).mpr (by rw [open_]; decide)
    omega
  cases pushes with
  | refused full zero =>
      refine ⟨contents, ?_, by simp [List.filterMap_cons]⟩
      rw [done_queue]
      exact ⟨stores.isSize, stores.holds⟩
  | blocked full same => exact ⟨contents, ⟨stores.isSize, stores.holds⟩, by simp⟩
  | woke open_ waiting =>
      have stored := stores.store valid (room open_) item
      refine ⟨contents ++ [item], ?_, by simp [List.filterMap_cons]⟩
      rw [done_queue, resume_queue]
      exact ⟨stored.isSize, stored.holds⟩
  | stored open_ nobody =>
      refine ⟨contents ++ [item], ?_, by simp [List.filterMap_cons]⟩
      rw [done_queue]
      exact stores.store valid (room open_) item

theorem DataqueueSystem.Pops.fifo (stores : system.queue.Stores size contents)
    (valid : MaskSize 16 size) (pops : system.Pops context timeout next emitted) :
    ∃ contents', StepsFifo size contents contents' next emitted := by
  have some_ : system.queue.isEmpty = false →
      ∃ rest, contents = system.queue.front :: rest ∧ system.taken.Stores size rest := by
    intro nonempty
    cases contents with
    | nil =>
        have empty := (stores.isEmpty_iff valid).mpr rfl
        rw [nonempty] at empty
        cases empty
    | cons item rest =>
        obtain ⟨rfl, holds⟩ := stores.take valid
        exact ⟨rest, rfl, holds⟩
  cases pops with
  | refused empty zero =>
      refine ⟨contents, ?_, by simp [List.filterMap_cons]⟩
      rwa [done_queue]
  | blocked empty same => exact ⟨contents, ⟨stores.isSize, stores.holds⟩, by simp⟩
  | woke holds low waiting =>
      obtain ⟨rest, rfl, stored⟩ := some_ holds
      refine ⟨rest, ?_, by simp [List.filterMap_cons]⟩
      rw [done_queue, resume_queue]
      exact ⟨stored.isSize, stored.holds⟩
  | ended holds low nobody =>
      obtain ⟨rest, rfl, stored⟩ := some_ holds
      refine ⟨rest, ?_, by simp [List.filterMap_cons]⟩
      rw [done_queue]
      exact ⟨stored.isSize, stored.holds⟩
  | took holds high =>
      obtain ⟨rest, rfl, stored⟩ := some_ holds
      refine ⟨rest, ?_, by simp [List.filterMap_cons]⟩
      rwa [done_queue]

theorem DataqueueSystem.Moves.fifo (stores : system.queue.Stores size contents)
    (valid : MaskSize 16 size) (sees : system.SeesFull action)
    (moves : system.Moves action next emitted) :
    ∃ contents', StepsFifo size contents contents' next emitted := by
  cases moves with
  | push calls attempt pushes =>
      refine pushes.fifo stores valid (sees ?_)
      rcases attempt with rfl | ⟨thread, rfl, -, resumed⟩
      · rfl
      · simp [triesPush, resumed]
  | pop calls attempt pops => exact pops.fifo stores valid
  | expirePush blocked | expirePop blocked =>
      exact ⟨contents, ⟨stores.isSize, stores.holds⟩, by simp⟩
  | giveUp expired =>
      refine ⟨contents, ?_, by simp [List.filterMap_cons]⟩
      rwa [done_queue]

/-! ## Runs -/

/-- After some events the items that are stored are those pushed and not popped yet. -/
structure DataqueueSystem.HoldsFifo (system : DataqueueSystem) (size : Nat)
    (events : List DataqueueEvent) (contents : List DataItem) : Prop where
  order : events.filterMap DataqueueEvent.pushedItem =
    events.filterMap DataqueueEvent.poppedItem ++ contents
  bound : contents.length ≤ size
  count : (system.queue.putIndex - system.queue.getIndex).toNat = contents.length

/-- A push stores nothing: it blocks or returns `-RT_ETIMEOUT`. -/
structure DataqueueSystem.Refuses (system next : DataqueueSystem)
    (emitted : List DataqueueEvent) : Prop where
  kept : next.queue.queue = system.queue.queue
  putIndex : next.queue.putIndex = system.queue.putIndex
  ends : emitted = [.etimeout] ∨ emitted = [] ∧ ∃ thread item timeout,
    next.queue.suspendedPushList = system.queue.suspendedPushList ++ [thread] ∧
      next.phase thread = .pushing item timeout .suspended

theorem DataqueueSystem.Pushes.refuses (full : system.queue.isFull = true)
    (pushes : system.Pushes context item timeout next emitted) : system.Refuses next emitted := by
  cases pushes with
  | refused _ zero =>
      constructor
      · rw [done_queue]
      · rw [done_queue]
      · exact .inl rfl
  | @blocked thread _ same =>
      exact ⟨rfl, rfl, .inr ⟨rfl, thread, item, timeout, rfl, Function.update_self ..⟩⟩
  | woke room waiting | stored room nobody => simp [full] at room

theorem DataqueueSystem.Moves.refuses (full : system.queue.isFull = true)
    (tries : system.triesPush action = true) (moves : system.Moves action next emitted) :
    system.Refuses next emitted := by
  cases moves with
  | push calls attempt pushes => exact pushes.refuses full
  | pop calls attempt pops =>
      rcases attempt with rfl | ⟨thread, rfl, -, resumed⟩
      · cases tries
      · simp [triesPush, resumed] at tries
  | expirePush blocked | expirePop blocked => cases tries
  | giveUp expired =>
      rcases expired with ⟨item, timeout, expired⟩ | ⟨timeout, expired⟩ <;>
        simp [triesPush, expired] at tries

end

/-- In a run whose pushes all see whether the queue is full, the items popped are those
pushed, in order, at most `size` are held, and a push on a full queue is refused. -/
theorem dataqueue_fifo {size lwm : BitVec 16} {memory : Nat → DataItem} {evtNotify : Bool}
    {actions : List DataqueueAction} {events : List DataqueueEvent} {system : DataqueueSystem}
    (valid : MaskSize 16 size.toNat)
    (run : dataqueueMachine.Run DataqueueSystem.SeesFull
      (.start (rtDataQueueInit size lwm memory evtNotify)) actions events system) :
    ∃ contents, system.HoldsFifo size.toNat events contents ∧
      (contents.length = size.toNat → ∀ action next emitted, system.triesPush action = true →
        system.SeesFull action → dataqueueMachine.step system action = some (next, emitted) →
          system.Refuses next emitted) := by
  obtain ⟨contents, stores, order⟩ : ∃ contents, system.queue.Stores size.toNat contents ∧
      events.filterMap DataqueueEvent.pushedItem =
        events.filterMap DataqueueEvent.poppedItem ++ contents := by
    refine @Machine.Run.history _ _ _ _ _ _ _ _ _ (fun events system => ∃ contents,
      system.queue.Stores size.toNat contents ∧ events.filterMap DataqueueEvent.pushedItem =
        events.filterMap DataqueueEvent.poppedItem ++ contents) run ?_ ?_
    · exact ⟨[], ⟨rfl, .nil valid memory 0⟩, rfl⟩
    · rintro events system action next emitted ⟨contents, stores, order⟩ sees step
      obtain ⟨contents', stores', order'⟩ :=
        (DataqueueSystem.moves_of_step step).fifo stores valid sees
      refine ⟨contents', stores', ?_⟩
      rw [List.filterMap_append, List.filterMap_append, order, List.append_assoc, order',
        List.append_assoc]
  refine ⟨contents, ⟨order, stores.holds.length_le, stores.holds.count valid⟩, ?_⟩
  intro full action next emitted tries sees step
  exact (DataqueueSystem.moves_of_step step).refuses
    ((stores.isFull_iff valid (sees tries)).mpr full) tries

instance (queue : Dataqueue) : Decidable queue.ShowsFull := inferInstanceAs (Decidable (_ → _))

instance (system : DataqueueSystem) (action : DataqueueAction) :
    Decidable (system.SeesFull action) := inferInstanceAs (Decidable (_ → _))

/-- A blocked push stores its item after a pop. -/
theorem dataqueue_fifo_two : ∃ system contents, DataqueueSystem.HoldsFifo system 1
    [.pushed ⟨1, 4⟩, .popped ⟨1, 4⟩, .pushed ⟨2, 8⟩] contents := by
  have executed : ((dataqueueMachine.restrict DataqueueSystem.SeesFull).execute
      (.start (rtDataQueueInit 1 0 (fun _ => ⟨0, 0⟩) false))
      [.push none ⟨1, 4⟩ 0, .push (some 0) ⟨2, 8⟩ 5, .pop none 0, .wake 0]).map Prod.snd =
        some [.pushed ⟨1, 4⟩, .popped ⟨1, 4⟩, .pushed ⟨2, 8⟩] := by decide +kernel
  obtain ⟨⟨system, events⟩, result, rfl⟩ := Option.map_eq_some_iff.mp executed
  obtain ⟨contents, holds, -⟩ :=
    dataqueue_fifo ⟨0, by decide⟩ (Machine.run_of_execute_restrict result)
  exact ⟨system, contents, holds⟩

/-- A queue of one item that is empty at an index. -/
def emptyAt (index : BitVec 16) : DataqueueSystem :=
  .start { rtDataQueueInit 1 0 (fun _ => ⟨0, 0⟩) false with getIndex := index, putIndex := index }

/-- The indices reach every value. -/
theorem reaches_emptyAt (count : Nat) : ∃ actions events,
    dataqueueMachine.Run (fun _ _ => True) (emptyAt 0) actions events
      (emptyAt (BitVec.ofNat 16 count)) ∧
    (events.filterMap DataqueueEvent.pushedItem).length =
      (events.filterMap DataqueueEvent.poppedItem).length := by
  induction count with
  | zero => exact ⟨[], [], .nil, rfl⟩
  | succ count ih =>
      obtain ⟨actions, events, run, balanced⟩ := ih
      obtain ⟨index, isIndex⟩ : ∃ index, BitVec.ofNat 16 count = index := ⟨_, rfl⟩
      have next : BitVec.ofNat 16 (count + 1) = index + 1 := by
        rw [← isIndex, BitVec.ofNat_add]
        rfl
      rw [isIndex] at run
      rw [next]
      have room : (emptyAt index).queue.isFull = false := by
        simp [emptyAt, DataqueueSystem.start, Dataqueue.isFull, Dataqueue.difference,
          rtDataQueueInit]
      have same : (emptyAt index).queue.store ⟨0, 0⟩ =
          { (emptyAt index).queue with putIndex := index + 1 } := by
        rw [Dataqueue.store]
        congr 1
        exact Function.update_eq_self ..
      have pushed : dataqueueMachine.step (emptyAt index) (.push none ⟨0, 0⟩ 0) =
          some (.start { (emptyAt index).queue with putIndex := index + 1 },
            [.pushed ⟨0, 0⟩]) := by
        simp only [dataqueueMachine, DataqueueSystem.push, room, same]
        rfl
      have holds : Dataqueue.isEmpty { (emptyAt index).queue with putIndex := index + 1 } =
          false := by
        simp [emptyAt, DataqueueSystem.start, Dataqueue.isEmpty, rtDataQueueInit]
      have popped : dataqueueMachine.step
          (.start { (emptyAt index).queue with putIndex := index + 1 }) (.pop none 0) =
            some (emptyAt (index + 1), [.popped ⟨0, 0⟩]) := by
        simp only [dataqueueMachine, DataqueueSystem.pop, DataqueueSystem.start, holds]
        rfl
      refine ⟨_, _, (run.snoc trivial pushed).snoc trivial popped, ?_⟩
      simpa [List.filterMap_cons] using balanced

/-- After 65535 pushes and pops, two items fit a queue of one. -/
theorem dataqueue_stores_too_many : ∃ actions events system,
    dataqueueMachine.Run (fun _ _ => True)
      (.start (rtDataQueueInit 1 0 (fun _ => ⟨0, 0⟩) false)) actions events system ∧
    ¬ ∃ contents, system.HoldsFifo 1 events contents := by
  obtain ⟨actions, events, run, balanced⟩ := reaches_emptyAt 65535
  have executed : (dataqueueMachine.execute (emptyAt (BitVec.ofNat 16 65535))
      [.push none ⟨0, 0⟩ 0, .push none ⟨0, 0⟩ 0]).map Prod.snd =
        some [.pushed ⟨0, 0⟩, .pushed ⟨0, 0⟩] := by decide +kernel
  obtain ⟨⟨system, stored⟩, result, rfl⟩ := Option.map_eq_some_iff.mp executed
  refine ⟨_, _, _, run.append (Machine.run_of_execute (fun _ _ _ => trivial) result), ?_⟩
  rintro ⟨contents, order, bound, -⟩
  have lengths := congrArg List.length order
  simp [List.filterMap_cons] at lengths
  omega

end RtThread
