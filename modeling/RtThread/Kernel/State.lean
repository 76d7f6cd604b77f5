import RtThread.Std.Ring

/-!
# Kernel data

The records of `rtdef.h` and the global variables of the scheduler, the clock
and the timer service. Threads, timers and IPC objects are named by numbers in
place of their addresses. List nodes are embedded in these records in the
source; here each family of lists has its own node type and pointer maps.

Configuration: 32 priorities, no soft timers, no modules (`rtconfig.h`).
-/

namespace RtThread

open RtThread.Std

abbrev ThreadId := Nat

/-- `RT_THREAD_PRIORITY_MAX`. -/
def threadPriorityMax : Nat := 32

/-- `RT_TICK_MAX / 2`, the horizon of every tick comparison. -/
def halfTickMax : BitVec 32 := 0x7fffffff

/-- `RT_ALIGN(size, RT_ALIGN_SIZE)`. -/
def rtAlign (size : BitVec 32) : BitVec 32 := (size + 3#32) &&& ~~~3#32

/-- `RT_ALIGN_DOWN(size, RT_ALIGN_SIZE)`. -/
def rtAlignDown (size : BitVec 32) : BitVec 32 := size &&& ~~~3#32

/-- Clearing the two lowest bits subtracts them. -/
theorem mask_toNat (address : BitVec 32) :
    (address &&& ~~~3#32).toNat = address.toNat - address.toNat % 4 := by
  have apart : (address &&& ~~~3#32) &&& (address &&& 3#32) = 0#32 := by
    ext i
    simp only [BitVec.getElem_and, BitVec.getElem_not]
    cases address[i] <;> cases (3#32)[i] <;> simp
  have join : (address &&& ~~~3#32) ||| (address &&& 3#32) = address := by
    ext i
    simp only [BitVec.getElem_or, BitVec.getElem_and, BitVec.getElem_not]
    cases address[i] <;> cases (3#32)[i] <;> rfl
  have low : (address &&& 3#32).toNat = address.toNat % 4 := by
    rw [BitVec.toNat_and]
    exact Nat.and_two_pow_sub_one_eq_mod _ 2
  have sum := BitVec.toNat_add_of_and_eq_zero apart
  rw [BitVec.add_eq_or_of_and_eq_zero _ _ apart, join, low] at sum
  omega

theorem rtAlign_mod (size : BitVec 32) : (rtAlign size).toNat % 4 = 0 := by
  rw [rtAlign, mask_toNat]
  omega

theorem rtAlignDown_mod (size : BitVec 32) : (rtAlignDown size).toNat % 4 = 0 := by
  rw [rtAlignDown, mask_toNat]
  omega

/-- Aligning rounds up, unless it wraps around. -/
theorem rtAlign_toNat {size : BitVec 32} (small : size.toNat ≤ 0xFFFFFFFC) :
    (rtAlign size).toNat = 4 * ((size.toNat + 3) / 4) := by
  rw [rtAlign, mask_toNat, BitVec.toNat_add, Nat.mod_eq_of_lt]
  · simp
    omega
  · simp
    omega

/-- Result codes; `error` stands for `-RT_ERROR`, and so on. -/
inductive Err where
  | eok | error | etimeout | efull
deriving DecidableEq, Repr

/-- The suspend lists of IPC objects. -/
inductive WaitList where
  | sem (index : Nat)
  | mutex (index : Nat)
  | event (index : Nat)
  | mailbox (index : Nat)
  | mailboxSender (index : Nat)
  | messageQueue (index : Nat)
  | mempool (index : Nat)
deriving DecidableEq, Repr

/-- Nodes of the lists which link threads through `tlist`. -/
inductive ThreadNode where
  /-- `rt_thread_priority_table[priority]`. -/
  | ready (priority : Nat)
  /-- `rt_thread_defunct`. -/
  | defunct
  /-- The suspend list of an IPC object. -/
  | wait (list : WaitList)
  /-- `thread->tlist`. -/
  | tlist (thread : ThreadId)
deriving DecidableEq, Repr

def ThreadNode.IsHead : ThreadNode → Prop
  | .tlist _ => False
  | _ => True

@[simp] theorem ThreadNode.isHead_ready (priority : Nat) : (ThreadNode.ready priority).IsHead :=
  trivial

@[simp] theorem ThreadNode.isHead_defunct : ThreadNode.defunct.IsHead := trivial

@[simp] theorem ThreadNode.isHead_wait (list : WaitList) : (ThreadNode.wait list).IsHead := trivial

@[simp] theorem ThreadNode.not_isHead_tlist (thread : ThreadId) :
    ¬ (ThreadNode.tlist thread).IsHead := id

/-- A timer is the `thread_timer` of a thread or an object of its own. -/
inductive TimerId where
  | thread (thread : ThreadId)
  | object (index : Nat)
deriving DecidableEq, Repr

/-- Nodes of the hard timer list. -/
inductive TimerNode where
  /-- `rt_timer_list`. -/
  | timerList
  /-- `timer->list`. -/
  | timer (timer : TimerId)
deriving DecidableEq, Repr

def TimerNode.IsHead : TimerNode → Prop
  | .timerList => True
  | .timer _ => False

@[simp] theorem TimerNode.isHead_timerList : TimerNode.timerList.IsHead := trivial

@[simp] theorem TimerNode.not_isHead_timer (timer : TimerId) : ¬ (TimerNode.timer timer).IsHead :=
  id

/-- Nodes of the object containers that threads and timers are registered in. -/
inductive ObjectNode where
  | threadContainer
  | timerContainer
  | thread (thread : ThreadId)
  | timer (timer : TimerId)
deriving DecidableEq, Repr

def ObjectNode.IsHead : ObjectNode → Prop
  | .threadContainer | .timerContainer => True
  | .thread _ | .timer _ => False

@[simp] theorem ObjectNode.isHead_threadContainer : ObjectNode.threadContainer.IsHead := trivial

@[simp] theorem ObjectNode.isHead_timerContainer : ObjectNode.timerContainer.IsHead := trivial

@[simp] theorem ObjectNode.not_isHead_thread (thread : ThreadId) :
    ¬ (ObjectNode.thread thread).IsHead := id

@[simp] theorem ObjectNode.not_isHead_timer (timer : TimerId) :
    ¬ (ObjectNode.timer timer).IsHead := id

inductive ThreadStat where
  | init | ready | suspend | running | close
deriving DecidableEq, Repr

/-- `struct rt_thread`, without its name, stack and list nodes. -/
structure Thread where
  /-- The `RT_Object_Class_Static` bit of `type`. -/
  isSystemObject : Bool
  error : Err
  stat : ThreadStat
  currentPriority : Nat
  initPriority : Nat
  numberMask : BitVec 32
  eventSet : BitVec 32
  eventInfo : BitVec 8
  initTick : BitVec 32
  remainingTick : BitVec 32
  /-- Whether `cleanup` is set. -/
  cleanup : Bool
deriving DecidableEq

/-- `struct rt_timer`: the two flag bits in use and the two tick fields. -/
structure Timer where
  activated : Bool
  periodic : Bool
  initTick : BitVec 32
  timeoutTick : BitVec 32
deriving DecidableEq

/-- `RT_IPC_FLAG_FIFO` and `RT_IPC_FLAG_PRIO`. -/
inductive IpcFlag where
  | fifo | prio
deriving DecidableEq, Repr

structure Semaphore where
  flag : IpcFlag
  value : BitVec 16
deriving DecidableEq

structure Mutex where
  flag : IpcFlag
  value : BitVec 16
  originalPriority : Nat
  hold : BitVec 8
  owner : Option ThreadId
deriving DecidableEq

structure Event where
  flag : IpcFlag
  set : BitVec 32
deriving DecidableEq

structure Mailbox where
  flag : IpcFlag
  msgPool : Nat → BitVec 32
  size : BitVec 16
  entry : BitVec 16
  inOffset : BitVec 16
  outOffset : BitVec 16

/-- A `struct rt_thread *`: null, a thread, or what `rt_list_entry` makes of a
list head, which points at no thread. -/
inductive ThreadPtr where
  | null
  | thread (thread : ThreadId)
  | wild (node : ThreadNode)
deriving DecidableEq, Repr

/-- `rt_list_entry(node, struct rt_thread, tlist)`. -/
def threadEntry : ThreadNode → ThreadPtr
  | .tlist thread => .thread thread
  | node => .wild node

@[simp] theorem threadEntry_eq_thread {node : ThreadNode} {thread : ThreadId} :
    threadEntry node = .thread thread ↔ node = .tlist thread := by
  cases node <;> simp [threadEntry]

/-- Every kernel variable that the modelled functions read or write. -/
structure Kernel where
  threadLinks : Links ThreadNode
  timerLinks : Links TimerNode
  objectLinks : Links ObjectNode
  threads : ThreadId → Thread
  timers : TimerId → Timer
  rtThreadReadyPriorityGroup : BitVec 32
  rtCurrentThread : ThreadPtr
  rtCurrentPriority : Nat
  rtSchedulerLockNest : Int
  rtTick : BitVec 32
  sems : Nat → Semaphore
  mutexes : Nat → Mutex
  events : Nat → Event
  mailboxes : Nat → Mailbox

/-- The records of the IPC objects. -/
structure Objects where
  sems : Nat → Semaphore
  mutexes : Nat → Mutex
  events : Nat → Event
  mailboxes : Nat → Mailbox

namespace Kernel

def objects (kernel : Kernel) : Objects :=
  ⟨kernel.sems, kernel.mutexes, kernel.events, kernel.mailboxes⟩

def setThread (kernel : Kernel) (thread : ThreadId) (record : Thread) : Kernel :=
  { kernel with threads := Function.update kernel.threads thread record }

def setTimer (kernel : Kernel) (timer : TimerId) (record : Timer) : Kernel :=
  { kernel with timers := Function.update kernel.timers timer record }

def setSem (kernel : Kernel) (index : Nat) (record : Semaphore) : Kernel :=
  { kernel with sems := Function.update kernel.sems index record }

def setMutex (kernel : Kernel) (index : Nat) (record : Mutex) : Kernel :=
  { kernel with mutexes := Function.update kernel.mutexes index record }

def setEvent (kernel : Kernel) (index : Nat) (record : Event) : Kernel :=
  { kernel with events := Function.update kernel.events index record }

def setMailbox (kernel : Kernel) (index : Nat) (record : Mailbox) : Kernel :=
  { kernel with mailboxes := Function.update kernel.mailboxes index record }

/-- `thread->error = result`. -/
def setError (kernel : Kernel) (thread : ThreadId) (result : Err) : Kernel :=
  kernel.setThread thread { kernel.threads thread with error := result }

/-- `thread->stat = stat`. -/
def setStat (kernel : Kernel) (thread : ThreadId) (stat : ThreadStat) : Kernel :=
  kernel.setThread thread { kernel.threads thread with stat := stat }

/-- `timer->parent.flag &= ~RT_TIMER_FLAG_ACTIVATED`. -/
def deactivate (kernel : Kernel) (timer : TimerId) : Kernel :=
  kernel.setTimer timer { kernel.timers timer with activated := false }

/-- `rt_list_remove(&(thread->tlist))`. -/
def unlinkThread (kernel : Kernel) (thread : ThreadId) : Kernel :=
  { kernel with threadLinks := kernel.threadLinks.unlink (.tlist thread) }

/-- `rt_list_insert_before(position, &(thread->tlist))`. -/
def linkThreadBefore (kernel : Kernel) (position : ThreadNode) (thread : ThreadId) : Kernel :=
  { kernel with threadLinks := kernel.threadLinks.insertBefore position (.tlist thread) }

/-- `rt_list_insert_after(position, &(thread->tlist))`. -/
def linkThreadAfter (kernel : Kernel) (position : ThreadNode) (thread : ThreadId) : Kernel :=
  { kernel with threadLinks := kernel.threadLinks.insertAfter position (.tlist thread) }

/-- `rt_list_remove(&(timer->list))`. -/
def unlinkTimer (kernel : Kernel) (timer : TimerId) : Kernel :=
  { kernel with timerLinks := kernel.timerLinks.unlink (.timer timer) }

/-- `rt_object_detach`. -/
def rtObjectDetach (kernel : Kernel) (node : ObjectNode) : Kernel :=
  { kernel with objectLinks := kernel.objectLinks.unlink node }

end Kernel

end RtThread
