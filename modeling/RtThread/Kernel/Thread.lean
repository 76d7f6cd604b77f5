import RtThread.Kernel.Scheduler
import RtThread.Kernel.Timer

/-!
# Threads

`thread.c`, split where it enables interrupts. `none` means that the call does
not return, or that it follows a current-thread pointer that names no thread.
-/

namespace RtThread

open RtThread.Std

/-- `1 << priority`, the cached bitmap mask of a priority. -/
def priorityMask (priority : Nat) : BitVec 32 := 1#32 <<< priority

/-- Set `current_priority` and recalculate the priority attribute. -/
def setPriority (kernel : Kernel) (thread : ThreadId) (priority : Nat) : Kernel :=
  kernel.setThread thread
    { kernel.threads thread with
      currentPriority := priority, numberMask := priorityMask priority }

def rtThreadSuspend (kernel : Kernel) (thread : ThreadId) : Err × Kernel :=
  if (kernel.threads thread).stat ≠ .ready then (.error, kernel)
  else (.eok, rtScheduleRemoveThread (kernel.setStat thread .suspend) thread)

/-- The first interrupts-disabled section of `rt_thread_resume`. -/
def rtThreadResumeUnlink (kernel : Kernel) (thread : ThreadId) : Kernel :=
  ((kernel.unlinkThread thread).unlinkTimer (.thread thread)).deactivate (.thread thread)

/-- `rt_thread_resume` as one step. -/
def rtThreadResume (kernel : Kernel) (thread : ThreadId) : Err × Kernel :=
  if (kernel.threads thread).stat ≠ .suspend then (.error, kernel)
  else (.eok, rtScheduleInsertThread (rtThreadResumeUnlink kernel thread) thread)

def rtThreadStartup (kernel : Kernel) (thread : ThreadId) : Option Kernel :=
  if (kernel.threads thread).stat = .init then
    let kernel := setPriority kernel thread (kernel.threads thread).initPriority
    let kernel := kernel.setStat thread .suspend
    let kernel := (rtThreadResume kernel thread).2
    some (if kernel.rtCurrentThread ≠ .null then rtSchedule kernel else kernel)
  else none

/-- `RT_THREAD_CTRL_CHANGE_PRIORITY` of `rt_thread_control`. -/
def rtThreadChangePriority (kernel : Kernel) (thread : ThreadId) (priority : Nat) : Kernel :=
  if (kernel.threads thread).stat = .ready then
    let kernel := rtScheduleRemoveThread kernel thread
    let kernel := setPriority kernel thread priority
    rtScheduleInsertThread kernel thread
  else setPriority kernel thread priority

def rtThreadDetach (kernel : Kernel) (thread : ThreadId) : Kernel :=
  let kernel := rtScheduleRemoveThread kernel thread
  let kernel := rtTimerDetach kernel (.thread thread)
  let kernel := kernel.setStat thread .close
  let kernel := kernel.rtObjectDetach (.thread thread)
  if (kernel.threads thread).cleanup then kernel.linkThreadAfter .defunct thread else kernel

def rtThreadDelete (kernel : Kernel) (thread : ThreadId) : Kernel :=
  let kernel := rtScheduleRemoveThread kernel thread
  let kernel := rtTimerDetach kernel (.thread thread)
  let kernel := kernel.setStat thread .close
  kernel.linkThreadAfter .defunct thread

def rtThreadExit (kernel : Kernel) : Option Kernel :=
  match kernel.rtCurrentThread with
  | .thread thread =>
    let kernel := rtScheduleRemoveThread kernel thread
    let kernel := kernel.setStat thread .close
    let kernel := rtTimerDetach kernel (.thread thread)
    let kernel :=
      if (kernel.threads thread).isSystemObject && !(kernel.threads thread).cleanup then
        kernel.rtObjectDetach (.thread thread)
      else kernel.linkThreadAfter .defunct thread
    some (rtSchedule kernel)
  | _ => none

/-- The interrupts-disabled section of `rt_thread_yield`, and whether it is
followed by `rt_schedule`. -/
def rtThreadYieldSection (kernel : Kernel) (thread : ThreadId) : Kernel × Bool :=
  if (kernel.threads thread).stat = .ready ∧
      kernel.threadLinks.next (.tlist thread) ≠ kernel.threadLinks.prev (.tlist thread) then
    ((kernel.unlinkThread thread).linkThreadBefore
      (.ready (kernel.threads thread).currentPriority) thread, true)
  else (kernel, false)

def rtThreadYield (kernel : Kernel) : Option Kernel :=
  match kernel.rtCurrentThread with
  | .thread thread =>
    let (kernel, reschedule) := rtThreadYieldSection kernel thread
    some (if reschedule then rtSchedule kernel else kernel)
  | _ => none

/-- Reset the timeout of the thread timer and start it. -/
def startThreadTimer (kernel : Kernel) (thread : ThreadId) (time : BitVec 32) :
    Option (Err × Kernel) :=
  rtTimerStart (rtTimerControl kernel (.thread thread) (.setTime time)) (.thread thread)

/-- The interrupts-disabled section of `rt_thread_sleep`, with the result of
`rt_timer_start`, which the source ignores. -/
def rtThreadSleepSection (kernel : Kernel) (thread : ThreadId) (tick : BitVec 32) :
    Option (Err × Kernel) :=
  startThreadTimer (rtThreadSuspend kernel thread).2 thread tick

/-- `rt_thread_sleep` up to the point where the thread has been switched out. -/
def rtThreadSleep (kernel : Kernel) (tick : BitVec 32) : Option Kernel :=
  match kernel.rtCurrentThread with
  | .thread thread => do
    let (_, kernel) ← rtThreadSleepSection kernel thread tick
    pure (rtSchedule kernel)
  | _ => none

/-- The end of `rt_thread_sleep`, when the thread runs again. -/
def rtThreadSleepReturn (kernel : Kernel) (thread : ThreadId) : Kernel :=
  if (kernel.threads thread).error = .etimeout then kernel.setError thread .eok else kernel

/-- `rt_thread_timeout`, the callback of every thread timer. -/
def rtThreadTimeout (kernel : Kernel) (thread : ThreadId) : Option Kernel :=
  if (kernel.threads thread).stat = .suspend then
    let kernel := kernel.setError thread .etimeout
    let kernel := kernel.unlinkThread thread
    let kernel := rtScheduleInsertThread kernel thread
    some (rtSchedule kernel)
  else none

end RtThread
