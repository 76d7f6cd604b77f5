import RtThread.Std.Machine
import RtThread.Kernel.State

/-!
# The data queue for device drivers

The queue of `dataqueue.c`, shared by threads and interrupt handlers. A step is
what happens with interrupts disabled: a call up to where it blocks or ends, what a
thread does once it has been resumed, or a timer that runs out. The differences of
the 16-bit indices are computed in `int`.
-/

namespace RtThread

open RtThread.Std

/-- `struct rt_data_item`. -/
structure DataItem where
  dataPtr : Nat
  dataSize : Nat
deriving DecidableEq, Repr

/-- `RT_DATAQUEUE_EVENT_POP`, `RT_DATAQUEUE_EVENT_PUSH` and `RT_DATAQUEUE_EVENT_LWM`. -/
inductive DataqueueNotice where
  | pop | push | lwm
deriving DecidableEq, Repr

/-- `struct rt_data_queue`. -/
structure Dataqueue where
  size : BitVec 16
  lwm : BitVec 16
  waitingLwm : Bool
  getIndex : BitVec 16
  putIndex : BitVec 16
  queue : Nat → DataItem
  suspendedPushList : List ThreadId
  suspendedPopList : List ThreadId
  /-- `evt_notify` is not `RT_NULL`. -/
  evtNotify : Bool

/-- Where a blocked thread is: on the list, resumed by the other side, or resumed by its
timer. -/
inductive Wakeup where
  | suspended | resumed | timedOut
deriving DecidableEq, Repr

inductive DataqueuePhase where
  | idle
  | pushing (item : DataItem) (timeout : Int) (wakeup : Wakeup)
  | popping (timeout : Int) (wakeup : Wakeup)
deriving DecidableEq, Repr

structure DataqueueSystem where
  queue : Dataqueue
  phase : ThreadId → DataqueuePhase

inductive DataqueueEvent where
  | pushed (item : DataItem)
  | popped (item : DataItem)
  /-- A call has returned `-RT_ETIMEOUT`. -/
  | etimeout
  | notified (notice : DataqueueNotice)
deriving DecidableEq, Repr

/-- `rt_data_queue_init`, with what the memory of the items contains. -/
def rtDataQueueInit (size lwm : BitVec 16) (queue : Nat → DataItem) (evtNotify : Bool) :
    Dataqueue :=
  ⟨size, lwm, false, 0, 0, queue, [], [], evtNotify⟩

namespace Dataqueue

/-- `put_index - get_index`, an `int`. -/
def difference (queue : Dataqueue) : Int := (queue.putIndex.toNat : Int) - queue.getIndex.toNat

def isFull (queue : Dataqueue) : Bool := queue.difference = queue.size.toNat

def isEmpty (queue : Dataqueue) : Bool := queue.getIndex = queue.putIndex

/-- The slot of an index. -/
def slot (queue : Dataqueue) (index : BitVec 16) : Nat := (index &&& (queue.size - 1)).toNat

/-- Store an item. -/
def store (queue : Dataqueue) (item : DataItem) : Dataqueue :=
  { queue with
    queue := Function.update queue.queue (queue.slot queue.putIndex) item
    putIndex := queue.putIndex + 1 }

def front (queue : Dataqueue) : DataItem := queue.queue (queue.slot queue.getIndex)

def notify (queue : Dataqueue) (notice : DataqueueNotice) : List DataqueueEvent :=
  if queue.evtNotify then [.notified notice] else []

end Dataqueue

namespace DataqueueSystem

/-- The thread, if it is one and not an interrupt handler, goes on after the call. -/
def done (system : DataqueueSystem) : Option ThreadId → DataqueueSystem
  | none => system
  | some thread => { system with phase := Function.update system.phase thread .idle }

/-- `rt_thread_resume`, seen from the thread. -/
def resume (system : DataqueueSystem) (thread : ThreadId) (wakeup : Wakeup) : DataqueueSystem :=
  { system with phase := Function.update system.phase thread (match system.phase thread with
    | .idle => .idle
    | .pushing item timeout _ => .pushing item timeout wakeup
    | .popping timeout _ => .popping timeout wakeup) }

/-- `rt_data_queue_push` from where it looks at the queue. An interrupt handler cannot
block. -/
def push (system : DataqueueSystem) (context : Option ThreadId) (item : DataItem)
    (timeout : Int) : Option (DataqueueSystem × List DataqueueEvent) :=
  let queue := system.queue
  if queue.isFull then
    let queue := { queue with waitingLwm := true }
    if timeout = 0 then some ({ system with queue := queue }.done context, [.etimeout])
    else context.map fun thread =>
      (⟨{ queue with suspendedPushList := queue.suspendedPushList ++ [thread] },
        Function.update system.phase thread (.pushing item timeout .suspended)⟩, [])
  else
    let queue := queue.store item
    match queue.suspendedPopList with
    | thread :: rest =>
        some ((DataqueueSystem.resume ⟨{ queue with suspendedPopList := rest }, system.phase⟩
          thread .resumed).done context, [.pushed item])
    | [] => some ({ system with queue := queue }.done context, .pushed item :: queue.notify .push)

/-- `rt_data_queue_pop` from where it looks at the queue. -/
def pop (system : DataqueueSystem) (context : Option ThreadId) (timeout : Int) :
    Option (DataqueueSystem × List DataqueueEvent) :=
  let queue := system.queue
  if queue.isEmpty then
    if timeout = 0 then some (system.done context, [.etimeout])
    else context.map fun thread =>
      (⟨{ queue with suspendedPopList := queue.suspendedPopList ++ [thread] },
        Function.update system.phase thread (.popping timeout .suspended)⟩, [])
  else
    let item := queue.front
    let queue := { queue with getIndex := queue.getIndex + 1 }
    if queue.waitingLwm = true ∧ queue.difference ≤ queue.lwm.toNat then
      let queue := { queue with waitingLwm := false }
      match queue.suspendedPushList with
      | thread :: rest =>
          some ((DataqueueSystem.resume ⟨{ queue with suspendedPushList := rest }, system.phase⟩
            thread .resumed).done context, .popped item :: queue.notify .lwm)
      | [] => some ({ system with queue := queue }.done context, .popped item :: queue.notify .lwm)
    else some ({ system with queue := queue }.done context, .popped item :: queue.notify .pop)

end DataqueueSystem

inductive DataqueueAction where
  /-- A call by a thread or, without one, by an interrupt handler. -/
  | push (context : Option ThreadId) (item : DataItem) (timeout : Int)
  | pop (context : Option ThreadId) (timeout : Int)
  /-- The timer of a blocked thread runs out. -/
  | expire (thread : ThreadId)
  /-- A thread that has been resumed runs. -/
  | wake (thread : ThreadId)
deriving DecidableEq, Repr

/-- Only a thread that is in no call begins one. -/
def DataqueueSystem.isFree (system : DataqueueSystem) (context : Option ThreadId) : Bool :=
  context.all fun thread => system.phase thread = .idle

def dataqueueMachine : Machine DataqueueSystem DataqueueAction DataqueueEvent where
  step system
    | .push context item timeout =>
        if system.isFree context then system.push context item timeout else none
    | .pop context timeout =>
        if system.isFree context then system.pop context timeout else none
    | .expire thread =>
        match system.phase thread with
        | .pushing _ timeout .suspended =>
            if 0 < timeout then
              some (DataqueueSystem.resume ⟨{ system.queue with
                suspendedPushList := system.queue.suspendedPushList.erase thread }, system.phase⟩
                thread .timedOut, [])
            else none
        | .popping timeout .suspended =>
            if 0 < timeout then
              some (DataqueueSystem.resume ⟨{ system.queue with
                suspendedPopList := system.queue.suspendedPopList.erase thread }, system.phase⟩
                thread .timedOut, [])
            else none
        | _ => none
    | .wake thread =>
        match system.phase thread with
        | .pushing item timeout .resumed => system.push (some thread) item timeout
        | .popping timeout .resumed => system.pop (some thread) timeout
        | .pushing _ _ .timedOut | .popping _ .timedOut =>
            some (system.done (some thread), [.etimeout])
        | _ => none

/-- No thread has called yet. -/
def DataqueueSystem.start (queue : Dataqueue) : DataqueueSystem := ⟨queue, fun _ => .idle⟩

end RtThread
