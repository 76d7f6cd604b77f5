import RtThread.Kernel.ReadyRuns
import RtThread.Kernel.Lives

/-!
# Masks that nobody has written

`number_mask` of a thread is arbitrary until the thread is started or its priority is
changed. `remask` puts the right mask in every record. An operation that reads a mask
reads that of a thread whose mask has been written, so it does the same to the kernel
with and without `remask`, and what holds of the ready structure carries over.
-/

namespace RtThread

open RtThread.Std

/-- `number_mask` is that of the priority. -/
def Thread.Masked (record : Thread) : Prop :=
  record.numberMask = priorityMask record.currentPriority

def Thread.remask (record : Thread) : Thread :=
  { record with numberMask := priorityMask record.currentPriority }

namespace Kernel

/-- The kernel with the right mask in every record. -/
def remask (kernel : Kernel) : Kernel :=
  { kernel with threads := fun thread => (kernel.threads thread).remask }

/-- The mask of the thread is that of its priority. -/
def Masked (kernel : Kernel) (thread : ThreadId) : Prop := (kernel.threads thread).Masked

variable {kernel : Kernel} {thread : ThreadId}

theorem remask_setThread (kernel : Kernel) (thread : ThreadId) (record : Thread) :
    (kernel.setThread thread record).remask = kernel.remask.setThread thread record.remask := by
  simp only [Kernel.remask, setThread]
  congr 1
  funext other
  by_cases same : other = thread
  · simp [same]
  · simp [Function.update_of_ne same]

theorem remask_setStat (kernel : Kernel) (thread : ThreadId) (stat : ThreadStat) :
    (kernel.setStat thread stat).remask = kernel.remask.setStat thread stat :=
  remask_setThread ..

theorem remask_setError (kernel : Kernel) (thread : ThreadId) (result : Err) :
    (kernel.setError thread result).remask = kernel.remask.setError thread result :=
  remask_setThread ..

theorem remask_setPriority (kernel : Kernel) (thread : ThreadId) (priority : Nat) :
    (setPriority kernel thread priority).remask = setPriority kernel.remask thread priority :=
  remask_setThread ..

theorem remask_unlinkThread (kernel : Kernel) (thread : ThreadId) :
    (kernel.unlinkThread thread).remask = kernel.remask.unlinkThread thread := rfl

theorem remask_linkThreadAfter (kernel : Kernel) (position : ThreadNode) (thread : ThreadId) :
    (kernel.linkThreadAfter position thread).remask =
      kernel.remask.linkThreadAfter position thread := rfl

theorem remask_rtTimerDetach (kernel : Kernel) (timer : TimerId) :
    (rtTimerDetach kernel timer).remask = rtTimerDetach kernel.remask timer := rfl

theorem remask_rtObjectDetach (kernel : Kernel) (node : ObjectNode) :
    (kernel.rtObjectDetach node).remask = kernel.remask.rtObjectDetach node := rfl

end Kernel

open Kernel

variable {kernel : Kernel} {thread : ThreadId}

theorem rtSchedule_remask (kernel : Kernel) :
    rtSchedule kernel.remask = (rtSchedule kernel).remask := by
  unfold rtSchedule
  rw [apply_ite remask, apply_ite remask]
  rfl

/-- What is read of the record that is to be inserted. -/
theorem rtScheduleInsertThread_eq (kernel : Kernel) (thread : ThreadId) :
    rtScheduleInsertThread kernel thread =
      { (kernel.setStat thread .ready).linkThreadBefore
          (.ready (kernel.threads thread).currentPriority) thread with
        rtThreadReadyPriorityGroup :=
          kernel.rtThreadReadyPriorityGroup ||| (kernel.threads thread).numberMask } := by
  simp [rtScheduleInsertThread, setStat, setThread, linkThreadBefore]

theorem rtScheduleInsertThread_remask (masked : kernel.Masked thread) :
    rtScheduleInsertThread kernel.remask thread = (rtScheduleInsertThread kernel thread).remask := by
  rw [rtScheduleInsertThread_eq, rtScheduleInsertThread_eq, ← remask_setStat]
  have same : (kernel.remask.threads thread).numberMask = (kernel.threads thread).numberMask :=
    masked.symm
  rw [same]
  rfl

theorem rtScheduleRemoveThread_remask (masked : kernel.Masked thread) :
    rtScheduleRemoveThread kernel.remask thread = (rtScheduleRemoveThread kernel thread).remask := by
  have same : (kernel.remask.threads thread).numberMask = (kernel.threads thread).numberMask :=
    masked.symm
  unfold rtScheduleRemoveThread
  dsimp only
  rw [apply_ite remask]
  change (if _ then { kernel.remask.unlinkThread thread with rtThreadReadyPriorityGroup := _ &&&
    ~~~(kernel.remask.threads thread).numberMask } else _) = _
  rw [same]
  rfl

theorem Kernel.Masked.setStat (masked : kernel.Masked thread) (stat : ThreadStat) :
    (kernel.setStat thread stat).Masked thread := by
  simpa [Kernel.Masked, Thread.Masked, Kernel.setStat, setThread] using masked

theorem setPriority_masked (kernel : Kernel) (thread : ThreadId) (priority : Nat) :
    (setPriority kernel thread priority).Masked thread := by
  simp [Kernel.Masked, Thread.Masked, setPriority, setThread]

theorem rtThreadSuspend_remask (masked : (kernel.threads thread).stat = .ready →
    kernel.Masked thread) :
    rtThreadSuspend kernel.remask thread =
      ((rtThreadSuspend kernel thread).1, (rtThreadSuspend kernel thread).2.remask) := by
  have same : (kernel.remask.threads thread).stat = (kernel.threads thread).stat := rfl
  unfold rtThreadSuspend
  rw [same]
  split
  · rfl
  · rename_i isReady
    have stays := (masked (Classical.not_not.mp isReady)).setStat .suspend
    rw [← remask_setStat, rtScheduleRemoveThread_remask stays]

theorem rtThreadResume_remask (masked : (kernel.threads thread).stat = .suspend →
    kernel.Masked thread) :
    rtThreadResume kernel.remask thread =
      ((rtThreadResume kernel thread).1, (rtThreadResume kernel thread).2.remask) := by
  have same : (kernel.remask.threads thread).stat = (kernel.threads thread).stat := rfl
  unfold rtThreadResume
  rw [same]
  split
  · rfl
  · rename_i suspended
    have stays : (rtThreadResumeUnlink kernel thread).Masked thread :=
      masked (Classical.not_not.mp suspended)
    exact congrArg (Prod.mk Err.eok) (rtScheduleInsertThread_remask stays)

theorem rtThreadStartup_remask (kernel : Kernel) (thread : ThreadId) :
    rtThreadStartup kernel.remask thread = (rtThreadStartup kernel thread).map remask := by
  have same : (kernel.remask.threads thread).stat = (kernel.threads thread).stat := rfl
  have priority : (kernel.remask.threads thread).initPriority =
      (kernel.threads thread).initPriority := rfl
  unfold rtThreadStartup
  rw [same]
  split
  · dsimp only
    rw [priority, ← remask_setPriority, ← remask_setStat, rtThreadResume_remask fun _ =>
      (setPriority_masked kernel thread (kernel.threads thread).initPriority).setStat .suspend,
      rtSchedule_remask, ← apply_ite remask]
    rfl
  · rfl

theorem rtThreadChangePriority_remask (priority : Nat)
    (masked : (kernel.threads thread).stat = .ready → kernel.Masked thread) :
    rtThreadChangePriority kernel.remask thread priority =
      (rtThreadChangePriority kernel thread priority).remask := by
  have same : (kernel.remask.threads thread).stat = (kernel.threads thread).stat := rfl
  unfold rtThreadChangePriority
  rw [same]
  split
  · rename_i isReady
    dsimp only
    rw [rtScheduleRemoveThread_remask (masked isReady), ← remask_setPriority,
      rtScheduleInsertThread_remask (setPriority_masked ..)]
  · exact (remask_setPriority ..).symm

theorem rtTimerStart_remask (kernel : Kernel) (timer : TimerId) :
    rtTimerStart kernel.remask timer =
      (rtTimerStart kernel timer).map fun result => (result.1, result.2.remask) := by
  have activated : (kernel.remask.timers timer).activated = (kernel.timers timer).activated := rfl
  have initTick : (kernel.remask.timers timer).initTick = (kernel.timers timer).initTick := rfl
  unfold rtTimerStart
  rw [activated, initTick]
  split
  · rfl
  split
  · simp only [Option.bind_eq_bind, Option.map_bind]
    rfl
  · rfl

theorem startThreadTimer_remask (kernel : Kernel) (thread : ThreadId) (time : BitVec 32) :
    startThreadTimer kernel.remask thread time =
      (startThreadTimer kernel thread time).map fun result => (result.1, result.2.remask) := by
  unfold startThreadTimer
  exact rtTimerStart_remask (rtTimerControl kernel (.thread thread) (.setTime time)) _

theorem rtThreadSleepSection_remask (tick : BitVec 32)
    (masked : (kernel.threads thread).stat = .ready → kernel.Masked thread) :
    rtThreadSleepSection kernel.remask thread tick =
      (rtThreadSleepSection kernel thread tick).map fun result => (result.1, result.2.remask) := by
  unfold rtThreadSleepSection
  rw [rtThreadSuspend_remask masked]
  exact startThreadTimer_remask ..

theorem rtThreadSleepReturn_remask (kernel : Kernel) (thread : ThreadId) :
    rtThreadSleepReturn kernel.remask thread = (rtThreadSleepReturn kernel thread).remask := by
  unfold rtThreadSleepReturn
  rw [apply_ite remask, remask_setError]
  rfl

theorem rtThreadTimeout_remask
    (masked : (kernel.threads thread).stat = .suspend → kernel.Masked thread) :
    rtThreadTimeout kernel.remask thread = (rtThreadTimeout kernel thread).map remask := by
  have same : (kernel.remask.threads thread).stat = (kernel.threads thread).stat := rfl
  unfold rtThreadTimeout
  rw [same]
  split
  · rename_i suspended
    have stays : ((kernel.setError thread .etimeout).unlinkThread thread).Masked thread := by
      simpa [Kernel.Masked, Thread.Masked, setError, setThread, unlinkThread]
        using masked suspended
    dsimp only
    rw [Option.map_some, ← rtSchedule_remask, ← rtScheduleInsertThread_remask stays,
      remask_unlinkThread, remask_setError]
  · rfl

/-- Ending a thread does the same with every mask corrected, as long as its removal
from the ready structure does. -/
theorem rtThreadDelete_remask (removes : rtScheduleRemoveThread kernel.remask thread =
    (rtScheduleRemoveThread kernel thread).remask) :
    rtThreadDelete kernel.remask thread = (rtThreadDelete kernel thread).remask := by
  unfold rtThreadDelete
  dsimp only
  rw [removes, remask_linkThreadAfter, remask_setStat, remask_rtTimerDetach]

theorem rtThreadDetach_remask (removes : rtScheduleRemoveThread kernel.remask thread =
    (rtScheduleRemoveThread kernel thread).remask) :
    rtThreadDetach kernel.remask thread = (rtThreadDetach kernel thread).remask := by
  unfold rtThreadDetach
  dsimp only
  rw [removes, ← remask_rtTimerDetach, ← remask_setStat, ← remask_rtObjectDetach,
    ← remask_linkThreadAfter, apply_ite remask]
  rfl

theorem rtThreadExitSection_remask (masked : kernel.Masked thread) :
    rtThreadExitSection kernel.remask thread = (rtThreadExitSection kernel thread).remask := by
  unfold rtThreadExitSection
  dsimp only
  rw [rtScheduleRemoveThread_remask masked, ← remask_setStat, ← remask_rtTimerDetach,
    ← remask_rtObjectDetach, ← remask_linkThreadAfter, apply_ite remask]
  rfl

theorem rtThreadYieldSection_remask (kernel : Kernel) (thread : ThreadId) :
    rtThreadYieldSection kernel.remask thread =
      ((rtThreadYieldSection kernel thread).1.remask, (rtThreadYieldSection kernel thread).2) := by
  have same : (kernel.remask.threads thread).stat = (kernel.threads thread).stat := rfl
  have links : kernel.remask.threadLinks = kernel.threadLinks := rfl
  unfold rtThreadYieldSection
  rw [same, links]
  split
  · rfl
  · rfl

theorem rtIpcListSuspend_remask (list : WaitList) (flag : IpcFlag)
    (masked : (kernel.threads thread).stat = .ready → kernel.Masked thread) :
    rtIpcListSuspend kernel.remask list thread flag =
      (rtIpcListSuspend kernel list thread flag).map remask := by
  have stops : ∀ kernel : Kernel, stopsSuspension kernel.remask.threads thread =
      stopsSuspension kernel.threads thread := by
    intro kernel
    funext node
    cases node <;> rfl
  unfold rtIpcListSuspend
  dsimp only
  rw [rtThreadSuspend_remask masked]
  cases flag with
  | fifo => rfl
  | prio =>
      simp only [stops, Option.bind_eq_bind, Option.map_bind]
      rfl

theorem suspendOn_remask (list : WaitList) (flag : IpcFlag) (time : BitVec 32)
    (masked : (kernel.threads thread).stat = .ready → kernel.Masked thread) :
    suspendOn kernel.remask list thread flag time =
      (suspendOn kernel list thread flag time).map fun result => (result.1.remask, result.2) := by
  unfold suspendOn
  rw [rtIpcListSuspend_remask list flag masked]
  cases rtIpcListSuspend kernel list thread flag with
  | none => rfl
  | some next =>
      simp only [Option.map_some, Option.bind_eq_bind, Option.bind_some]
      split
      · rw [startThreadTimer_remask]
        cases startThreadTimer next thread time <;> rfl
      · rfl

theorem rtThreadIdleTake_remask (kernel : Kernel) :
    rtThreadIdleTake kernel.remask =
      (rtThreadIdleTake kernel).map fun taken => (taken.1, taken.2.remask) := by
  have same : kernel.remask.threadLinks.next .defunct = kernel.threadLinks.next .defunct := rfl
  unfold rtThreadIdleTake
  rw [same]
  cases threadEntry (kernel.threadLinks.next .defunct) <;> rfl

end RtThread
