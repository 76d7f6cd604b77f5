import RtThread.Std.Machine
import RtThread.Kernel.Boot
import RtThread.Kernel.Clock
import RtThread.Kernel.Ipc

/-!
# Threads and interrupt handlers at work

A step is one interrupts-disabled section of a call, one `rt_schedule` or one
test of a thread's own record. A thread can only take a step while it is
`rt_current_thread`; an interrupt handler can take one at any time, so every
interleaving of the sections is a run. `rt_tick_increase` and
`rt_thread_startup` are one step each.
-/

namespace RtThread

open RtThread.Std

/-- Who executes a call. The code that runs before the scheduler counts as a
handler: it is no thread. -/
inductive Context where
  | thread (thread : ThreadId)
  | handler (index : Nat)
deriving DecidableEq, Repr

/-- A kernel call with the present values of its parameters. -/
inductive Call where
  | semTake (sem : Nat) (time : BitVec 32)
  | semRelease (sem : Nat)
  | mutexTake (mutex : Nat) (time : BitVec 32)
  | mutexRelease (mutex : Nat)
  | eventSend (event : Nat) (set : BitVec 32)
  | eventRecv (event : Nat) (set : BitVec 32) (option : BitVec 8) (timeout : BitVec 32)
  | mbSendWait (mailbox : Nat) (value timeout : BitVec 32)
  | mbRecv (mailbox : Nat) (timeout : BitVec 32)
  | semControl (sem : Nat) (cmd : BitVec 8) (arg : BitVec 32)
  | eventControl (event : Nat) (cmd : BitVec 8)
  | mbControl (mailbox : Nat) (cmd : BitVec 8)
  | threadSleep (tick : BitVec 32)
  | threadResume (thread : ThreadId)
deriving DecidableEq, Repr

/-- Where a call stands between two of its steps. -/
inductive Point where
  /-- Its thread has been suspended; `rt_schedule` is next. -/
  | suspended
  /-- Back from `rt_schedule`; the test of `thread->error` is next. -/
  | woken
  /-- The section after that test is next. -/
  | again
  /-- It has resumed a thread; `rt_schedule` is next. -/
  | reschedule
  /-- Back from that `rt_schedule`; its return is next. -/
  | returning
  /-- `rt_thread_resume` has seen a suspended thread; its first section is next. -/
  | unlink
  /-- `rt_schedule_insert_thread`, the second section, is next. -/
  | insert
deriving DecidableEq, Repr

structure Frame where
  call : Call
  /-- `tick_delta`, the tick at which a mailbox call started its timer. -/
  tickDelta : BitVec 32
  point : Point
deriving DecidableEq

structure System where
  kernel : Kernel
  /-- The call that each context is in. -/
  frames : Context → Option Frame

inductive Action where
  /-- `rt_system_scheduler_start`. -/
  | schedulerStart
  | threadStartup (thread : ThreadId)
  | tickIncrease
  /-- Begin a call and execute its first section. -/
  | enter (context : Context) (call : Call)
  /-- Execute the next step of the call that the context is in. -/
  | advance (context : Context)
deriving DecidableEq, Repr

inductive Notice where
  | returned (context : Context) (call : Call) (result : Err)
  /-- The call has stored a word for its caller. -/
  | stored (context : Context) (word : BitVec 32)
  /-- A timed wait has called `rt_timer_start` and got this result. -/
  | timerStarted (context : Context) (result : Err)
deriving DecidableEq, Repr

/-- A thread executes code while it is current. -/
def Context.Running (kernel : Kernel) : Context → Prop
  | .thread self => kernel.rtCurrentThread = .thread self
  | .handler _ => True

instance (kernel : Kernel) : (context : Context) → Decidable (context.Running kernel)
  | .thread thread => inferInstanceAs (Decidable (kernel.rtCurrentThread = .thread thread))
  | .handler _ => inferInstanceAs (Decidable True)

/-- `RT_DEBUG_NOT_IN_INTERRUPT`: a handler never waits and uses no mutex. -/
def Call.allowedIn (call : Call) : Context → Bool
  | .thread _ => true
  | .handler _ =>
    match call with
    | .semTake _ time => time = 0#32
    | .mbSendWait _ _ timeout => timeout = 0#32
    | .mbRecv _ timeout => timeout = 0#32
    | .semRelease _ | .eventSend _ _ | .threadResume _ => true
    | .semControl _ _ _ | .eventControl _ _ | .mbControl _ _ => true
    | .mutexTake _ _ | .mutexRelease _ | .eventRecv _ _ _ _ | .threadSleep _ => false

/-- `rt_thread_sleep` up to `rt_schedule`. -/
def threadSleepEnter (kernel : Kernel) (tick : BitVec 32) : Option (Kernel × Outcome) :=
  match kernel.rtCurrentThread with
  | .thread thread => do
    let (result, kernel) ← rtThreadSleepSection kernel thread tick
    pure (kernel, .suspends (some result))
  | _ => none

/-- The first section of a call; `rt_thread_resume` has none before its test. -/
def Call.enter (kernel : Kernel) : Call → Option (Kernel × Outcome)
  | .semTake sem time => rtSemTake kernel sem time
  | .semRelease sem => rtSemRelease kernel sem
  | .mutexTake mutex time => rtMutexTake kernel mutex time
  | .mutexRelease mutex => rtMutexRelease kernel mutex
  | .eventSend event set => rtEventSend kernel event set
  | .eventRecv event set option timeout => rtEventRecv kernel event set option timeout
  | .mbSendWait mailbox value timeout => rtMbSendWait kernel mailbox value timeout
  | .mbRecv mailbox timeout => rtMbRecv kernel mailbox timeout
  | .semControl sem cmd arg => rtSemControl kernel sem cmd arg
  | .eventControl event cmd => rtEventControl kernel event cmd
  | .mbControl mailbox cmd => rtMbControl kernel mailbox cmd
  | .threadSleep tick => threadSleepEnter kernel tick
  | .threadResume _ => none

/-- The section of a call behind its test of `thread->error`, when there was
none: a mailbox call goes round its loop again. -/
def Call.again (kernel : Kernel) (thread : ThreadId) (tickDelta : BitVec 32) :
    Call → Option (Kernel × Outcome)
  | .eventRecv _ _ _ _ => some (kernel, rtEventRecvReturn kernel thread)
  | .mbSendWait mailbox value timeout =>
    rtMbSendRound kernel mailbox value (reduceTimeout timeout tickDelta kernel.rtTick)
  | .mbRecv mailbox timeout =>
    rtMbRecvRound kernel mailbox (reduceTimeout timeout tickDelta kernel.rtTick)
  | _ => none

/-- A mailbox call overwrites its `timeout` before it goes round its loop. -/
def Call.reduce (tickDelta rtTick : BitVec 32) : Call → Call
  | .mbSendWait mailbox value timeout =>
    .mbSendWait mailbox value (reduceTimeout timeout tickDelta rtTick)
  | .mbRecv mailbox timeout => .mbRecv mailbox (reduceTimeout timeout tickDelta rtTick)
  | call => call

namespace System

/-- Leave a context in the middle of a call. -/
def setFrame (system : System) (context : Context) (kernel : Kernel) (frame : Option Frame) :
    System where
  kernel := kernel
  frames := Function.update system.frames context frame

/-- What follows a section of `call`. -/
def settle (system : System) (context : Context) (call : Call) (kernel : Kernel) :
    Outcome → System × List Notice
  | .returns result output =>
    (system.setFrame context kernel none,
      output.toList.map (.stored context) ++ [.returned context call result])
  | .suspends timer =>
    (system.setFrame context kernel (some ⟨call, kernel.rtTick, .suspended⟩),
      timer.toList.map (.timerStarted context))
  | .reschedules output =>
    (system.setFrame context kernel (some ⟨call, kernel.rtTick, .reschedule⟩),
      output.toList.map (.stored context))

def enter (system : System) (context : Context) (call : Call) : Option (System × List Notice) :=
  if context.Running system.kernel ∧ call.allowedIn context ∧ system.frames context = none then
    match call with
    | .threadResume thread =>
      some (if (system.kernel.threads thread).stat ≠ .suspend then
        (system, [.returned context call .error])
      else
        (system.setFrame context system.kernel
          (some ⟨call, system.kernel.rtTick, .unlink⟩), []))
    | call => do
      let (kernel, outcome) ← call.enter system.kernel
      pure (system.settle context call kernel outcome)
  else none

/-- Back in a call whose thread was suspended. -/
def wake (system : System) (thread : ThreadId) (frame : Frame) : System × List Notice :=
  let kernel := system.kernel
  let context := Context.thread thread
  let result := (kernel.threads thread).error
  match frame.call with
  | .threadSleep _ =>
    (system.setFrame context (rtThreadSleepReturn kernel thread) none,
      [.returned context frame.call .eok])
  | .semTake _ _ | .mutexTake _ _ =>
    (system.setFrame context kernel none, [.returned context frame.call result])
  | _ =>
    if result ≠ .eok then
      (system.setFrame context kernel none, [.returned context frame.call result])
    else (system.setFrame context kernel (some { frame with point := .again }), [])

def advanceFrame (system : System) (context : Context) (frame : Frame) :
    Option (System × List Notice) :=
  let kernel := system.kernel
  match frame.point with
  | .suspended =>
    some (system.setFrame context (rtSchedule kernel) (some { frame with point := .woken }), [])
  | .woken =>
    match context with
    | .thread thread => some (system.wake thread frame)
    | .handler _ => none
  | .again =>
    match context with
    | .thread thread => do
      let (next, outcome) ← frame.call.again kernel thread frame.tickDelta
      pure (system.settle context (frame.call.reduce frame.tickDelta kernel.rtTick) next outcome)
    | .handler _ => none
  | .reschedule =>
    some (system.setFrame context (rtSchedule kernel) (some { frame with point := .returning }), [])
  | .returning =>
    some (system.setFrame context kernel none, [.returned context frame.call .eok])
  | .unlink =>
    match frame.call with
    | .threadResume thread =>
      some (system.setFrame context (rtThreadResumeUnlink kernel thread)
        (some { frame with point := .insert }), [])
    | _ => none
  | .insert =>
    match frame.call with
    | .threadResume thread =>
      some (system.setFrame context (rtScheduleInsertThread kernel thread) none,
        [.returned context frame.call .eok])
    | _ => none

def advance (system : System) (context : Context) : Option (System × List Notice) :=
  if context.Running system.kernel then
    (system.frames context).bind (system.advanceFrame context)
  else none

/-- A step which changes only the kernel. -/
def withKernel (system : System) (kernel : Kernel) : System × List Notice :=
  ({ system with kernel := kernel }, [])

/-- All threads unstarted and no call under way. -/
def boot (config : Config) : System where
  kernel := config.kernel
  frames _ := none

end System

/-- The callback of every thread timer is `rt_thread_timeout`; no other timer is
in use. -/
def threadTimeoutFunc : TimerId → Kernel → Option Kernel
  | .thread thread, kernel => rtThreadTimeout kernel thread
  | .object _, kernel => some kernel

def Action.apply (system : System) : Action → Option (System × List Notice)
  | .schedulerStart =>
    if system.kernel.rtCurrentThread = .null then
      some (system.withKernel (rtSystemSchedulerStart system.kernel))
    else none
  | .threadStartup thread => (rtThreadStartup system.kernel thread).map system.withKernel
  | .tickIncrease =>
    (rtTickIncrease threadTimeoutFunc system.kernel).map fun (kernel, _) =>
      system.withKernel kernel
  | .enter context call => system.enter context call
  | .advance context => system.advance context

def systemMachine : Machine System Action Notice where
  step := Action.apply

end RtThread
