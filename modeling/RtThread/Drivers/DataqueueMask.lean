import RtThread.Drivers.Dataqueue

/-!
# The interrupt mask in the data queue

The calls of `dataqueue.c` with the interrupt mask that they change. A thread that
waits has its own mask while it waits: `rt_schedule` returns with the mask it was called
with. A step is what happens with interrupts disabled; `rt_data_queue_reset` lets
interrupts in between two of the threads that it resumes.
-/

namespace RtThread.DataqueueMask

open RtThread.Std

/-- The mask of the processor: whether interrupts are disabled. -/
abbrev Mask := Bool

/-- A call: the mask it was entered with, its variable `level`, and the mask as it is. -/
structure Frame where
  entry : Mask
  level : Mask
  mask : Mask
deriving DecidableEq, Repr

/-- A call begins. -/
def Frame.enter (mask : Mask) : Frame := ⟨mask, mask, mask⟩

/-- `level = rt_hw_interrupt_disable()`. -/
def Frame.rtHwInterruptDisable (frame : Frame) : Frame :=
  { frame with level := frame.mask, mask := true }

/-- `rt_hw_interrupt_enable(level)`. -/
def Frame.rtHwInterruptEnable (frame : Frame) : Frame := { frame with mask := frame.level }

/-- `RT_EOK`, `-RT_ERROR`, `-RT_ETIMEOUT` and `-RT_EEMPTY`. -/
inductive Result where
  | eok | error | etimeout | eempty
deriving DecidableEq, Repr

/-- A thread, or an interrupt handler with its nesting. -/
inductive Context where
  | thread (thread : ThreadId)
  | handler (nesting : Nat)
deriving DecidableEq, Repr

/-- "resume on pop list", "resume on push list". -/
inductive ResetLoop where
  | popList | pushList
deriving DecidableEq, Repr

/-- Where a caller is. A thread that has been resumed has `thread->error`. -/
inductive Phase where
  | idle
  | pushing (item : DataItem) (timeout : Int) (frame : Frame) (error : Option Result)
  | popping (timeout : Int) (frame : Frame) (error : Option Result)
  | resetting (loop : ResetLoop) (frame : Frame)
deriving DecidableEq, Repr

inductive Event where
  | notified (notice : DataqueueNotice) (frame : Frame)
  /-- A call has returned, with the item where it is one that fetches an item. -/
  | returned (result : Result) (item : Option DataItem) (frame : Frame)
deriving DecidableEq, Repr

structure System where
  queue : Dataqueue
  phase : Context → Phase

namespace System

def setPhase (system : System) (context : Context) (phase : Phase) : System :=
  { system with phase := Function.update system.phase context phase }

/-- `rt_thread_resume`, seen from the thread, whose `error` has been set. -/
def resume (system : System) (thread : ThreadId) (result : Result) : System :=
  system.setPhase (.thread thread) (match system.phase (.thread thread) with
    | .pushing item timeout frame _ => .pushing item timeout frame (some result)
    | .popping timeout frame _ => .popping timeout frame (some result)
    | phase => phase)

/-- `evt_notify`, where it is not `RT_NULL`. -/
def notify (system : System) (notice : DataqueueNotice) (frame : Frame) : List Event :=
  if system.queue.evtNotify then [.notified notice frame] else []

/-- `__exit` of a push or a pop. -/
def exit (system : System) (context : Context) (notice : DataqueueNotice) (result : Result)
    (item : Option DataItem) (frame : Frame) : System × List Event :=
  let frame := frame.rtHwInterruptEnable
  (system.setPhase context .idle,
    (if result = .eok then system.notify notice frame else []) ++ [.returned result item frame])

/-- `rt_data_queue_push` from the head of its loop on. An interrupt handler cannot wait. -/
def push (system : System) (context : Context) (item : DataItem) (timeout : Int)
    (frame : Frame) : Option (System × List Event) :=
  let queue := system.queue
  if queue.isFull then
    let queue := { queue with waitingLwm := true }
    -- "queue is full"
    if timeout = 0 then
      some (exit { system with queue := queue } context .push .etimeout none frame)
    else
      match context with
      | .thread thread =>
          let queue := { queue with suspendedPushList := queue.suspendedPushList ++ [thread] }
          some (setPhase { system with queue := queue } context
            (.pushing item timeout frame.rtHwInterruptEnable none), [])
      | .handler _ => none
  else
    let queue := queue.store item
    match queue.suspendedPopList with
    | thread :: rest =>
        let system := resume { system with queue := { queue with suspendedPopList := rest } }
          thread .eok
        some (system.setPhase context .idle, [.returned .eok none frame.rtHwInterruptEnable])
    | [] => some (exit { system with queue := queue } context .push .eok none frame)

/-- `rt_data_queue_pop` from the head of its loop on. -/
def pop (system : System) (context : Context) (timeout : Int) (frame : Frame) :
    Option (System × List Event) :=
  let queue := system.queue
  if queue.isEmpty then
    -- "queue is empty"
    if timeout = 0 then some (exit system context .pop .etimeout none frame)
    else
      match context with
      | .thread thread =>
          let queue := { queue with suspendedPopList := queue.suspendedPopList ++ [thread] }
          some (setPhase { system with queue := queue } context
            (.popping timeout frame.rtHwInterruptEnable none), [])
      | .handler _ => none
  else
    let item := queue.front
    let queue := { queue with getIndex := queue.getIndex + 1 }
    if queue.waitingLwm = true ∧ queue.difference ≤ queue.lwm.toNat then
      let queue := { queue with waitingLwm := false }
      match queue.suspendedPushList with
      | thread :: rest =>
          let system := resume { system with queue := { queue with suspendedPushList := rest } }
            thread .eok
          let frame := frame.rtHwInterruptEnable
          some (system.setPhase context .idle,
            system.notify .lwm frame ++ [.returned .eok (some item) frame])
      | [] =>
          -- `rt_hw_interrupt_enable` is called in the other branch only.
          let system := { system with queue := queue }
          some (system.setPhase context .idle,
            system.notify .lwm frame ++ [.returned .eok (some item) frame])
    else some (exit { system with queue := queue } context .pop .eok (some item) frame)

/-- `rt_data_queue_peak`. -/
def peak (system : System) (frame : Frame) : System × List Event :=
  let frame := frame.rtHwInterruptDisable
  if system.queue.isEmpty then
    (system, [.returned .eempty none frame.rtHwInterruptEnable])
  else
    (system, [.returned .eok (some system.queue.front) frame.rtHwInterruptEnable])

/-- A turn of one of the loops of `rt_data_queue_reset`, or its end. -/
def reset (system : System) (context : Context) (loop : ResetLoop) (frame : Frame) :
    System × List Event :=
  match loop with
  | .popList =>
      match system.queue.suspendedPopList with
      | thread :: rest =>
          let frame := frame.rtHwInterruptDisable
          let queue := { system.queue with suspendedPopList := rest }
          let system := resume { system with queue := queue } thread .error
          (system.setPhase context (.resetting .popList frame.rtHwInterruptEnable), [])
      | [] => (system.setPhase context (.resetting .pushList frame), [])
  | .pushList =>
      match system.queue.suspendedPushList with
      | thread :: rest =>
          let frame := frame.rtHwInterruptDisable
          let queue := { system.queue with suspendedPushList := rest }
          let system := resume { system with queue := queue } thread .error
          (system.setPhase context (.resetting .pushList frame.rtHwInterruptEnable), [])
      | [] => (system.setPhase context .idle, [.returned .eok none frame])

/-- The timer of a thread that waits runs out. -/
def expire (system : System) (thread : ThreadId) : Option (System × List Event) :=
  let queue := system.queue
  match system.phase (.thread thread) with
  | .pushing _ timeout _ none =>
      if 0 < timeout then
        some (resume { system with queue := { queue with
          suspendedPushList := queue.suspendedPushList.erase thread } } thread .etimeout, [])
      else none
  | .popping timeout _ none =>
      if 0 < timeout then
        some (resume { system with queue := { queue with
          suspendedPopList := queue.suspendedPopList.erase thread } } thread .etimeout, [])
      else none
  | _ => none

/-- "thread is waked up": it disables interrupts again and looks at its `error`. A reset
goes on with its loop. -/
def wake (system : System) (context : Context) : Option (System × List Event) :=
  match system.phase context with
  | .pushing item timeout frame (some result) =>
      let frame := frame.rtHwInterruptDisable
      if result ≠ .eok then some (system.exit context .push result none frame)
      else system.push context item timeout frame
  | .popping timeout frame (some result) =>
      let frame := frame.rtHwInterruptDisable
      if result ≠ .eok then some (system.exit context .pop result none frame)
      else system.pop context timeout frame
  | .resetting loop frame => some (system.reset context loop frame)
  | _ => none

/-- No caller has called yet. -/
def start (queue : Dataqueue) : System := ⟨queue, fun _ => .idle⟩

end System

/-- The calls are made with any interrupt mask. -/
inductive Action where
  | push (context : Context) (item : DataItem) (timeout : Int) (mask : Mask)
  | pop (context : Context) (timeout : Int) (mask : Mask)
  | peak (context : Context) (mask : Mask)
  | reset (context : Context) (mask : Mask)
  | expire (thread : ThreadId)
  | wake (context : Context)
deriving DecidableEq, Repr

def maskMachine : Machine System Action Event where
  step system
    | .push context item timeout mask =>
        if system.phase context = .idle then
          system.push context item timeout (Frame.enter mask).rtHwInterruptDisable
        else none
    | .pop context timeout mask =>
        if system.phase context = .idle then
          system.pop context timeout (Frame.enter mask).rtHwInterruptDisable
        else none
    | .peak context mask =>
        if system.phase context = .idle then some (system.peak (Frame.enter mask)) else none
    | .reset context mask =>
        if system.phase context = .idle then
          some (system.setPhase context (.resetting .popList (Frame.enter mask)), [])
        else none
    | .expire thread => system.expire thread
    | .wake context => system.wake context

/-- The mask is the one that the call was entered with. -/
def Frame.Restored (frame : Frame) : Prop := frame.mask = frame.entry

def Event.Restored : Event → Prop
  | .notified _ frame => frame.Restored
  | .returned _ _ frame => frame.Restored

namespace System

/-- A pop would end the wait for the low-water mark, and nobody waits to push. -/
def EndsUnheeded (system : System) : Prop :=
  let queue := { system.queue with getIndex := system.queue.getIndex + 1 }
  system.queue.isEmpty = false ∧ queue.waitingLwm = true ∧
    queue.difference ≤ queue.lwm.toNat ∧ queue.suspendedPushList = []

/-- The mask that a pop was entered with, where the action makes a pass of one. -/
def popEntry (system : System) : Action → Option Mask
  | .pop _ _ mask => some mask
  | .wake context =>
      match system.phase context with
      | .popping _ frame (some .eok) => some frame.entry
      | _ => none
  | _ => none

/-- A pop that was entered with interrupts enabled does what leaves them disabled. -/
def LeavesDisabled (system : System) (action : Action) : Prop :=
  system.popEntry action = some false ∧ system.EndsUnheeded

end System

end RtThread.DataqueueMask
