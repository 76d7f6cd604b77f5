import RtThread.Kernel.System
import RtThread.Drivers.Dataqueue

/-!
# Completions

The completion of `completion.c`. A step is what happens with interrupts disabled: a
wait up to where it blocks or ends, what a waiter does once it has been resumed, or
the second half of `rt_completion_done`; its first half, which looks at the flag, is a
step of its own, since it does not disable interrupts.
-/

namespace RtThread

open RtThread.Std

/-- `struct rt_completion`; the flag is `RT_COMPLETED` or `RT_UNCOMPLETED`. -/
structure Completion where
  flag : Bool
  suspendedList : List ThreadId
deriving DecidableEq, Repr

/-- Where a thread or a handler is. -/
inductive CompletionPhase where
  | idle
  | waiting (timeout : Int) (wakeup : Wakeup)
  /-- `rt_completion_done` has found the flag not set. -/
  | setting
deriving DecidableEq, Repr

structure CompletionSystem where
  completion : Completion
  phase : Context → CompletionPhase

inductive CompletionEvent where
  /-- `rt_completion_wait` has suspended its thread. -/
  | blocked
  /-- `rt_completion_wait` has returned, with or without having suspended its thread. -/
  | returned (result : Err) (suspended : Bool)
  /-- `rt_completion_done` has set the flag, for a waiter or while nobody waits. -/
  | set (resumes : Bool)
deriving DecidableEq, Repr

def rtCompletionInit : Completion := ⟨false, []⟩

namespace CompletionSystem

def setPhase (system : CompletionSystem) (context : Context) (phase : CompletionPhase) :
    CompletionSystem :=
  { system with phase := Function.update system.phase context phase }

/-- `rt_thread_resume`, or the timer, seen from the thread. -/
def resume (system : CompletionSystem) (thread : ThreadId) (wakeup : Wakeup) : CompletionSystem :=
  system.setPhase (.thread thread) (match system.phase (.thread thread) with
    | .waiting timeout _ => .waiting timeout wakeup
    | phase => phase)

/-- `rt_completion_wait` up to where it suspends its thread. -/
def wait (system : CompletionSystem) (context : Context) (timeout : Int) :
    Option (CompletionSystem × List CompletionEvent) :=
  let completion := system.completion
  if completion.flag then some (system, [.returned .eok false])
  else if completion.suspendedList ≠ [] then none -- "only one thread can suspend on complete"
  else if timeout = 0 then some (system, [.returned .etimeout false])
  else
    match context with
    | .handler _ => none
    | .thread thread =>
        some (setPhase ⟨{ completion with suspendedList := completion.suspendedList ++ [thread] },
          system.phase⟩ context (.waiting timeout .suspended), [.blocked])

/-- The waiter goes on: it cleans the flag, whatever has woken it up. -/
def wake (system : CompletionSystem) (thread : ThreadId) (result : Err) :
    CompletionSystem × List CompletionEvent :=
  (setPhase ⟨{ system.completion with flag := false }, system.phase⟩ (.thread thread) .idle,
    [.returned result true])

/-- `rt_completion_done` with interrupts disabled. -/
def set (system : CompletionSystem) (context : Context) :
    CompletionSystem × List CompletionEvent :=
  match system.completion.suspendedList with
  | thread :: rest =>
      ((resume ⟨⟨true, rest⟩, system.phase⟩ thread .resumed).setPhase context .idle, [.set true])
  | [] => (setPhase ⟨⟨true, []⟩, system.phase⟩ context .idle, [.set false])

end CompletionSystem

inductive CompletionAction where
  | wait (context : Context) (timeout : Int)
  /-- `rt_completion_done` looks at the flag. -/
  | done (context : Context)
  /-- It goes on where the flag was not set. -/
  | set (context : Context)
  /-- The timer of a waiter runs out. -/
  | expire (thread : ThreadId)
  /-- A waiter that has been resumed runs. -/
  | wake (thread : ThreadId)
deriving DecidableEq, Repr

def completionMachine : Machine CompletionSystem CompletionAction CompletionEvent where
  step system
    | .wait context timeout =>
        if system.phase context = .idle then system.wait context timeout else none
    | .done context =>
        if system.phase context = .idle then
          if system.completion.flag then some (system, [])
          else some (system.setPhase context .setting, [])
        else none
    | .set context =>
        if system.phase context = .setting then some (system.set context) else none
    | .expire thread =>
        match system.phase (.thread thread) with
        | .waiting timeout .suspended =>
            if 0 < timeout then
              some (CompletionSystem.resume ⟨{ system.completion with
                suspendedList := system.completion.suspendedList.erase thread }, system.phase⟩
                thread .timedOut, [])
            else none
        | _ => none
    | .wake thread =>
        match system.phase (.thread thread) with
        | .waiting _ .resumed => some (system.wake thread .eok)
        | .waiting _ .timedOut => some (system.wake thread .etimeout)
        | _ => none

/-- No thread has called yet. -/
def CompletionSystem.start : CompletionSystem := ⟨rtCompletionInit, fun _ => .idle⟩

end RtThread
