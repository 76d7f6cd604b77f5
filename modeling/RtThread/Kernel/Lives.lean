import RtThread.Kernel.ReadyQueue
import RtThread.Kernel.System

/-!
# How threads end

`rt_thread_exit`, `rt_thread_detach` and `rt_thread_delete` of `thread.c` and
`rt_thread_idle_excute` of `idle.c`, among all that threads and interrupt
handlers do meanwhile. A step is one interrupts-disabled section, one store or
one call of a cleanup or of `rt_free`; `rt_tick_increase` and
`rt_thread_startup` are one step each. A handler may take any step at any time,
so it does not matter who takes it.

The blocking calls and the wakeups of `ipc.c` are made of `suspendOn`, of
`rt_thread_resume` and of changes of priority, which are steps here.
-/

namespace RtThread

open RtThread.Std

/-! ## Sections -/

/-- `rt_object_init`, as far as the container is concerned. -/
def Kernel.rtObjectInit (kernel : Kernel) (container node : ObjectNode) : Kernel :=
  { kernel with objectLinks := kernel.objectLinks.insertAfter container node }

/-- What `rt_thread_init` and `rt_thread_create` register. They leave the record
behind that `Config` has. -/
def rtThreadInit (kernel : Kernel) (thread : ThreadId) : Kernel :=
  (kernel.rtObjectInit .threadContainer (.thread thread)).rtObjectInit
    .timerContainer (.timer (.thread thread))

/-- `rt_thread_exit` up to `rt_schedule`. -/
def rtThreadExitSection (kernel : Kernel) (thread : ThreadId) : Kernel :=
  let kernel := rtScheduleRemoveThread kernel thread
  let kernel := kernel.setStat thread .close
  let kernel := rtTimerDetach kernel (.thread thread)
  if (kernel.threads thread).isSystemObject && !(kernel.threads thread).cleanup then
    kernel.rtObjectDetach (.thread thread)
  else kernel.linkThreadAfter .defunct thread

@[simp] theorem rtThreadExitSection_threads (kernel : Kernel) (thread : ThreadId) :
    (rtThreadExitSection kernel thread).threads = Function.update kernel.threads thread
      { kernel.threads thread with stat := .close } := by
  unfold rtThreadExitSection
  dsimp only
  split <;>
    simp [rtTimerDetach, Kernel.rtObjectDetach, Kernel.linkThreadAfter, Kernel.unlinkTimer,
      Kernel.setStat, Kernel.setThread]

theorem rtThreadExit_eq {kernel : Kernel} {thread : ThreadId}
    (current : kernel.rtCurrentThread = .thread thread) :
    rtThreadExit kernel = some (rtSchedule (rtThreadExitSection kernel thread)) := by
  rw [rtThreadExit, current]
  rfl

/-- The section of `rt_thread_suspend`. -/
def rtThreadSuspendSection (kernel : Kernel) (thread : ThreadId) : Kernel :=
  rtScheduleRemoveThread (kernel.setStat thread .suspend) thread

theorem rtThreadSuspend_eq {kernel : Kernel} {thread : ThreadId}
    (isReady : (kernel.threads thread).stat = .ready) :
    rtThreadSuspend kernel thread = (.eok, rtThreadSuspendSection kernel thread) := by
  rw [rtThreadSuspend, if_neg (not_not.mpr isReady)]
  rfl

/-- The thread that `rt_thread_idle_excute` takes off `rt_thread_defunct`. -/
def rtThreadIdleTake (kernel : Kernel) : Option (ThreadId × Kernel) :=
  match threadEntry (kernel.threadLinks.next .defunct) with
  | .thread thread => some (thread, kernel.unlinkThread thread)
  | _ => none

theorem rtThreadIdleTake_front {kernel next : Kernel} {thread : ThreadId}
    (take : rtThreadIdleTake kernel = some (thread, next)) :
    kernel.threadLinks.next .defunct = .tlist thread ∧ next = kernel.unlinkThread thread := by
  unfold rtThreadIdleTake at take
  split at take
  · rename_i front there
    obtain ⟨rfl, rfl⟩ := Prod.mk.inj (Option.some_inj.mp take)
    exact ⟨threadEntry_eq_thread.mp there, rfl⟩
  · cases take

/-! ## The system -/

/-- The calls that end another thread. -/
inductive EndCall where
  /-- `rt_thread_detach`. -/
  | detach
  /-- `rt_thread_delete`. -/
  | delete
deriving DecidableEq, Repr

/-- How far the end of a thread has come, named by what has been done to it. -/
inductive EndPoint where
  | removed (call : EndCall)
  /-- The first section of `rt_timer_detach` is over. -/
  | timerUnlinked (call : EndCall)
  | timerDetached (call : EndCall)
  /-- `stat` is `RT_THREAD_CLOSE`. -/
  | closed (call : EndCall)
  /-- `rt_thread_detach` has found a cleanup. -/
  | objectDetached
  /-- Taken off `rt_thread_defunct`; it is no system object. -/
  | reaped
  | stackFreed
  /-- The section of `rt_object_delete` is over. -/
  | objectDeleted
deriving DecidableEq, Repr

/-- The two sections of `rt_thread_resume`. -/
inductive ResumePoint where
  | unlink
  | insert
deriving DecidableEq, Repr

structure LifeSystem where
  kernel : Kernel
  /-- Threads that a call is ending or that the idle thread is releasing. -/
  ending : ThreadId → Option EndPoint
  /-- Where each context stands in `rt_thread_resume`. -/
  resuming : Context → Option (ThreadId × ResumePoint)
  /-- The thread that `rt_thread_suspend` has tested and not yet suspended. -/
  suspending : Context → Option ThreadId

inductive LifeAction where
  | threadInit (thread : ThreadId)
  | schedulerStart
  | threadStartup (thread : ThreadId)
  | tickIncrease
  | schedule
  | enterCritical
  | exitCritical
  /-- The test of `rt_thread_suspend`, if it finds a ready thread. -/
  | suspendBegin (context : Context) (thread : ThreadId)
  | suspendAdvance (context : Context)
  /-- `rt_thread_resume` inside a section of an IPC call. -/
  | resume (thread : ThreadId)
  | changePriority (thread : ThreadId) (priority : Nat)
  | yield
  | sleep (tick : BitVec 32)
  | sleepReturn
  /-- The running thread starts to wait for an IPC object. -/
  | wait (list : WaitList) (flag : IpcFlag) (time : BitVec 32)
  /-- The test of `rt_thread_resume`, if it finds a suspended thread. -/
  | resumeBegin (context : Context) (thread : ThreadId)
  | resumeAdvance (context : Context)
  | exit
  /-- The first section of a call that ends another thread. -/
  | endThread (call : EndCall) (thread : ThreadId)
  /-- The next step towards the end of a thread. -/
  | advance (thread : ThreadId)
  /-- `rt_thread_idle_excute` while there is a defunct thread. -/
  | idle
deriving DecidableEq, Repr

inductive LifeNotice where
  /-- The call that ends the thread is over. -/
  | ended (thread : ThreadId)
  | cleanedUp (thread : ThreadId)
  | stackFreed (thread : ThreadId)
  | objectFreed (thread : ThreadId)
deriving DecidableEq, Repr

def LifeNotice.thread : LifeNotice → ThreadId
  | .ended thread | .cleanedUp thread | .stackFreed thread | .objectFreed thread => thread

namespace LifeSystem

def current (system : LifeSystem) : Option ThreadId :=
  match system.kernel.rtCurrentThread with
  | .thread thread => some thread
  | _ => none

/-- A step which changes only the kernel. -/
def withKernel (system : LifeSystem) (kernel : Kernel) : LifeSystem × List LifeNotice :=
  ({ system with kernel := kernel }, [])

def setEnding (system : LifeSystem) (thread : ThreadId) (kernel : Kernel)
    (point : Option EndPoint) : LifeSystem :=
  { system with kernel := kernel, ending := Function.update system.ending thread point }

def setResuming (system : LifeSystem) (context : Context) (kernel : Kernel)
    (point : Option (ThreadId × ResumePoint)) : LifeSystem :=
  { system with kernel := kernel, resuming := Function.update system.resuming context point }

def setSuspending (system : LifeSystem) (context : Context) (kernel : Kernel)
    (thread : Option ThreadId) : LifeSystem :=
  { system with kernel := kernel, suspending := Function.update system.suspending context thread }

/-- The next step of a call that ends `thread`, or of `rt_thread_idle_excute`. -/
def advance (system : LifeSystem) (thread : ThreadId) : EndPoint → LifeSystem × List LifeNotice
  | .removed call =>
    (system.setEnding thread (system.kernel.unlinkTimer (.thread thread))
      (some (.timerUnlinked call)), [])
  | .timerUnlinked call =>
    (system.setEnding thread (system.kernel.rtObjectDetach (.timer (.thread thread)))
      (some (.timerDetached call)), [])
  | .timerDetached call =>
    (system.setEnding thread (system.kernel.setStat thread .close) (some (.closed call)), [])
  | .closed .delete =>
    (system.setEnding thread (system.kernel.linkThreadAfter .defunct thread) none,
      [.ended thread])
  | .closed .detach =>
    let kernel := system.kernel.rtObjectDetach (.thread thread)
    if (kernel.threads thread).cleanup then
      (system.setEnding thread kernel (some .objectDetached), [])
    else (system.setEnding thread kernel none, [.ended thread])
  | .objectDetached =>
    (system.setEnding thread (system.kernel.linkThreadAfter .defunct thread) none,
      [.ended thread])
  | .reaped => (system.setEnding thread system.kernel (some .stackFreed), [.stackFreed thread])
  | .stackFreed =>
    (system.setEnding thread (system.kernel.rtObjectDetach (.thread thread))
      (some .objectDeleted), [])
  | .objectDeleted => (system.setEnding thread system.kernel none, [.objectFreed thread])

/-- The section of `rt_thread_idle_excute`, which calls the cleanup. -/
def idle (system : LifeSystem) : Option (LifeSystem × List LifeNotice) := do
  let (thread, kernel) ← rtThreadIdleTake system.kernel
  let record := kernel.threads thread
  let point := if record.isSystemObject then none else some EndPoint.reaped
  pure (system.setEnding thread kernel point, if record.cleanup then [.cleanedUp thread] else [])

def resumeAdvance (system : LifeSystem) (context : Context) :
    ThreadId × ResumePoint → LifeSystem
  | (thread, .unlink) =>
    system.setResuming context (rtThreadResumeUnlink system.kernel thread) (some (thread, .insert))
  | (thread, .insert) =>
    system.setResuming context (rtScheduleInsertThread system.kernel thread) none

/-- No thread is registered and none has been started. -/
def boot (config : Config) : LifeSystem where
  kernel := { config.kernel with objectLinks := ⟨id, id⟩ }
  ending _ := none
  resuming _ := none
  suspending _ := none

end LifeSystem

def LifeAction.apply (system : LifeSystem) : LifeAction → Option (LifeSystem × List LifeNotice)
  | .threadInit thread => some (system.withKernel (rtThreadInit system.kernel thread))
  | .schedulerStart =>
    if system.kernel.rtCurrentThread = .null then
      some (system.withKernel (rtSystemSchedulerStart system.kernel))
    else none
  | .threadStartup thread => (rtThreadStartup system.kernel thread).map system.withKernel
  | .tickIncrease =>
    (rtTickIncrease threadTimeoutFunc system.kernel).map fun (kernel, _) =>
      system.withKernel kernel
  | .schedule => some (system.withKernel (rtSchedule system.kernel))
  | .enterCritical => some (system.withKernel (rtEnterCritical system.kernel))
  | .exitCritical => some (system.withKernel (rtExitCritical system.kernel))
  | .suspendBegin context thread =>
    if system.suspending context = none ∧ (system.kernel.threads thread).stat = .ready then
      some (system.setSuspending context system.kernel (some thread), [])
    else none
  | .suspendAdvance context =>
    (system.suspending context).map fun thread =>
      (system.setSuspending context (rtThreadSuspendSection system.kernel thread) none, [])
  | .resume thread => some (system.withKernel (rtThreadResume system.kernel thread).2)
  | .changePriority thread priority =>
    some (system.withKernel (rtThreadChangePriority system.kernel thread priority))
  | .yield => system.current.map fun thread =>
    system.withKernel (rtThreadYieldSection system.kernel thread).1
  | .sleep tick => do
    let thread ← system.current
    let (_, kernel) ← rtThreadSleepSection system.kernel thread tick
    pure (system.withKernel kernel)
  | .sleepReturn => system.current.map fun thread =>
    system.withKernel (rtThreadSleepReturn system.kernel thread)
  | .wait list flag time => do
    let thread ← system.current
    let (kernel, _) ← suspendOn system.kernel list thread flag time
    pure (system.withKernel kernel)
  | .resumeBegin context thread =>
    if system.resuming context = none ∧ (system.kernel.threads thread).stat = .suspend then
      some (system.setResuming context system.kernel (some (thread, .unlink)), [])
    else none
  | .resumeAdvance context =>
    (system.resuming context).map fun there => (system.resumeAdvance context there, [])
  | .exit => system.current.map fun thread =>
    ({ system with kernel := rtThreadExitSection system.kernel thread }, [.ended thread])
  | .endThread call thread =>
    some (system.setEnding thread (rtScheduleRemoveThread system.kernel thread)
      (some (.removed call)), [])
  | .advance thread => (system.ending thread).map (system.advance thread)
  | .idle => system.idle

def lifeMachine : Machine LifeSystem LifeAction LifeNotice where
  step := LifeAction.apply

/-! ## The calls as a whole -/

/-- The test and the section of `rt_thread_suspend` make up the call. -/
theorem rtThreadSuspend_sections (system : LifeSystem) {context : Context} {thread : ThreadId}
    (idle : system.suspending context = none)
    (isReady : (system.kernel.threads thread).stat = .ready) :
    lifeMachine.execute system [.suspendBegin context thread, .suspendAdvance context] =
      some ({ system with kernel := (rtThreadSuspend system.kernel thread).2 }, []) := by
  have done : Function.update system.suspending context none = system.suspending := by
    rw [← idle, Function.update_eq_self]
  simp [Machine.execute, lifeMachine, LifeAction.apply, LifeSystem.setSuspending, idle, isReady,
    rtThreadSuspend_eq, done]

/-- The sections of `rt_thread_delete` make up the call. -/
theorem rtThreadDelete_sections (system : LifeSystem) (thread : ThreadId) :
    lifeMachine.execute system
      [.endThread .delete thread, .advance thread, .advance thread, .advance thread,
        .advance thread] =
      some (system.setEnding thread (rtThreadDelete system.kernel thread) none,
        [.ended thread]) := by
  simp [Machine.execute, lifeMachine, LifeAction.apply, LifeSystem.setEnding, LifeSystem.advance,
    rtThreadDelete, rtTimerDetach]

/-- The sections of `rt_thread_detach` make up the call. -/
theorem rtThreadDetach_sections (system : LifeSystem) (thread : ThreadId) :
    lifeMachine.execute system
      ([.endThread .detach thread, .advance thread, .advance thread, .advance thread,
        .advance thread] ++
        if (system.kernel.threads thread).cleanup then [.advance thread] else []) =
      some (system.setEnding thread (rtThreadDetach system.kernel thread) none,
        [.ended thread]) := by
  by_cases cleanup : (system.kernel.threads thread).cleanup = true
  · simp [Machine.execute, lifeMachine, LifeAction.apply, LifeSystem.setEnding,
      LifeSystem.advance, rtThreadDetach, rtTimerDetach, Kernel.setStat, Kernel.setThread,
      Kernel.rtObjectDetach, Kernel.unlinkTimer, cleanup]
  · simp [Machine.execute, lifeMachine, LifeAction.apply, LifeSystem.setEnding,
      LifeSystem.advance, rtThreadDetach, rtTimerDetach, Kernel.setStat, Kernel.setThread,
      Kernel.rtObjectDetach, Kernel.unlinkTimer, cleanup]

end RtThread
