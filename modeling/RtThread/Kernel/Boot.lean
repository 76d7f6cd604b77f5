import RtThread.Kernel.Thread

/-!
# The kernel before any thread is started

`Config` is what the initialisation calls leave behind: every thread has been
through `rt_thread_init` or `rt_thread_create`, every IPC object through its own
initialisation, and all lists are empty. Threads that are never started stand
for unused storage, so their number is not bounded.
-/

namespace RtThread

open RtThread.Std

structure Config where
  priority : ThreadId → Nat
  /-- `RT_ASSERT(priority < RT_THREAD_PRIORITY_MAX)` in `_rt_thread_init`. -/
  priority_lt : ∀ thread, priority thread < threadPriorityMax
  tick : ThreadId → BitVec 32
  isSystemObject : ThreadId → Bool
  cleanup : ThreadId → Bool
  /-- `_rt_thread_init` does not set `number_mask`. -/
  numberMask : ThreadId → BitVec 32
  eventSet : ThreadId → BitVec 32
  eventInfo : ThreadId → BitVec 8
  objectLinks : Links ObjectNode
  /-- Timers of their own, as `rt_timer_init` leaves them. -/
  timerPeriodic : Nat → Bool
  timerTime : Nat → BitVec 32
  rtTick : BitVec 32
  semFlag : Nat → IpcFlag
  /-- The argument of `rt_sem_init`. -/
  semValue : Nat → BitVec 32
  mutexFlag : Nat → IpcFlag
  eventFlag : Nat → IpcFlag
  mailboxFlag : Nat → IpcFlag
  mailboxPool : Nat → Nat → BitVec 32
  mailboxSize : Nat → BitVec 16

namespace Config

variable (config : Config)

/-- `_rt_thread_init`. -/
def initThread (thread : ThreadId) : Thread where
  isSystemObject := config.isSystemObject thread
  error := .eok
  stat := .init
  currentPriority := config.priority thread
  initPriority := config.priority thread
  numberMask := config.numberMask thread
  eventSet := config.eventSet thread
  eventInfo := config.eventInfo thread
  initTick := config.tick thread
  remainingTick := config.tick thread
  cleanup := config.cleanup thread

/-- `_rt_timer_init`; the timer of a thread is one-shot with time 0. -/
def initTimer : TimerId → Timer
  | .thread _ => { activated := false, periodic := false, initTick := 0, timeoutTick := 0 }
  | .object index =>
    { activated := false, periodic := config.timerPeriodic index
      initTick := config.timerTime index, timeoutTick := 0 }

/-- `rt_sem_init`, which stores 16 bits of its argument. -/
def initSem (index : Nat) : Semaphore where
  flag := config.semFlag index
  value := (config.semValue index).setWidth 16

/-- `rt_mutex_init`. -/
def initMutex (index : Nat) : Mutex where
  flag := config.mutexFlag index
  value := 1
  originalPriority := 0xff
  hold := 0
  owner := none

/-- `rt_mb_init`. -/
def initMailbox (index : Nat) : Mailbox where
  flag := config.mailboxFlag index
  msgPool := config.mailboxPool index
  size := config.mailboxSize index
  entry := 0
  inOffset := 0
  outOffset := 0

/-- The state after `rt_system_scheduler_init` and the object initialisations. -/
def kernel : Kernel where
  threadLinks := ⟨id, id⟩
  timerLinks := ⟨id, id⟩
  objectLinks := config.objectLinks
  threads := config.initThread
  timers := config.initTimer
  rtThreadReadyPriorityGroup := 0
  rtCurrentThread := .null
  rtCurrentPriority := threadPriorityMax - 1
  rtSchedulerLockNest := 0
  rtTick := config.rtTick
  sems := config.initSem
  mutexes := config.initMutex
  events index := ⟨config.eventFlag index, 0⟩
  mailboxes := config.initMailbox

/-- A configuration in which every object is as plain as it can be. -/
def plain : Config where
  priority _ := 31
  priority_lt _ := by decide
  tick _ := 10
  isSystemObject _ := true
  cleanup _ := false
  numberMask _ := 0
  eventSet _ := 0
  eventInfo _ := 0
  objectLinks := ⟨id, id⟩
  timerPeriodic _ := false
  timerTime _ := 1
  rtTick := 0
  semFlag _ := .fifo
  semValue _ := 0
  mutexFlag _ := .fifo
  eventFlag _ := .fifo
  mailboxFlag _ := .fifo
  mailboxPool _ _ := 0
  mailboxSize _ := 1

end Config

end RtThread
