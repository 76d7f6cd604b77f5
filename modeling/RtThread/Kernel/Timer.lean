import RtThread.Kernel.State

/-!
# Hard timers

`timer.c` without soft timers. `none` means that the call does not return: a
failed `RT_ASSERT` loops forever, and so does a walk along a broken list.
-/

namespace RtThread

open RtThread.Std

/-- The commands of `rt_timer_control`; `getTime` only reports. -/
inductive TimerCommand where
  | setTime (tick : BitVec 32)
  | getTime
  | setOneshot
  | setPeriodic
deriving DecidableEq, Repr

def rtTimerControl (kernel : Kernel) (timer : TimerId) : TimerCommand → Kernel
  | .setTime tick => kernel.setTimer timer { kernel.timers timer with initTick := tick }
  | .getTime => kernel
  | .setOneshot => kernel.setTimer timer { kernel.timers timer with periodic := false }
  | .setPeriodic => kernel.setTimer timer { kernel.timers timer with periodic := true }

/-- The insertion scan of `rt_timer_start` stops at the first timer whose
deadline is not before `timeoutTick`. -/
def stopsInsertion (timers : TimerId → Timer) (timeoutTick : BitVec 32) : TimerNode → Bool
  | .timerList => false
  | .timer timer => (timers timer).timeoutTick - timeoutTick < halfTickMax

/-- `timer->timeout_tick = rt_tick_get() + timer->init_tick`. -/
def setDeadline (kernel : Kernel) (timer : TimerId) : Kernel :=
  kernel.setTimer timer
    { kernel.timers timer with timeoutTick := kernel.rtTick + (kernel.timers timer).initTick }

/-- Flag a timer `ACTIVATED` and link it in front of `position`. -/
def linkTimer (kernel : Kernel) (position : TimerNode) (timer : TimerId) : Kernel :=
  { kernel.setTimer timer { kernel.timers timer with activated := true } with
    timerLinks := kernel.timerLinks.insertBefore position (.timer timer) }

def rtTimerStart (kernel : Kernel) (timer : TimerId) : Option (Err × Kernel) :=
  if (kernel.timers timer).activated then some (.error, kernel)
  else if (kernel.timers timer).initTick < halfTickMax then do
    let kernel := setDeadline kernel timer
    -- The scan ends at the list head when no timer stops it.
    let position ← kernel.timerLinks.scan .timerList
      (stopsInsertion kernel.timers (kernel.timers timer).timeoutTick)
      (kernel.timerLinks.next .timerList)
    pure (.eok, linkTimer kernel position timer)
  else none

def rtTimerStop (kernel : Kernel) (timer : TimerId) : Err × Kernel :=
  if (kernel.timers timer).activated then
    (.eok, (kernel.unlinkTimer timer).deactivate timer)
  else (.error, kernel)

/-- `rt_timer_detach` unlinks the timer and leaves its `ACTIVATED` bit alone. -/
def rtTimerDetach (kernel : Kernel) (timer : TimerId) : Kernel :=
  (kernel.unlinkTimer timer).rtObjectDetach (.timer timer)

/-- What `rt_timer_check` does with a timer after its callback has returned. -/
def rtTimerFinish (kernel : Kernel) (timer : TimerId) : Option Kernel :=
  if (kernel.timers timer).periodic && (kernel.timers timer).activated then do
    let (_, kernel) ← rtTimerStart (kernel.deactivate timer) timer
    pure kernel
  else some (kernel.deactivate timer)

/-- The loop of `rt_timer_check`, which also reports the timers it fires.
`timeoutFunc` is `timer->timeout_func(timer->parameter)`. -/
def Kernel.rtTimerCheckLoop (timeoutFunc : TimerId → Kernel → Option Kernel)
    (currentTick : BitVec 32) (kernel : Kernel) : Option (Kernel × List TimerId) :=
  match kernel.timerLinks.next .timerList with
  | .timerList => some (kernel, [])
  | .timer timer =>
    if currentTick - (kernel.timers timer).timeoutTick < halfTickMax then do
      let kernel ← timeoutFunc timer (kernel.unlinkTimer timer)
      let currentTick := kernel.rtTick
      let kernel ← rtTimerFinish kernel timer
      let (kernel, fired) ← kernel |>.rtTimerCheckLoop timeoutFunc currentTick
      pure (kernel, timer :: fired)
    else some (kernel, [])
partial_fixpoint

export Kernel (rtTimerCheckLoop)

def rtTimerCheck (timeoutFunc : TimerId → Kernel → Option Kernel) (kernel : Kernel) :
    Option (Kernel × List TimerId) :=
  rtTimerCheckLoop timeoutFunc kernel.rtTick kernel

/-! ## What the timer calls leave alone -/

theorem rtTimerStart_frame {kernel next : Kernel} {timer : TimerId} {result : Err}
    (step : rtTimerStart kernel timer = some (result, next)) :
    next = { kernel with timers := next.timers, timerLinks := next.timerLinks } := by
  unfold rtTimerStart at step
  split at step
  · simp only [Option.some.injEq, Prod.mk.injEq] at step
    rw [← step.2]
  · split at step
    · simp only [Option.bind_eq_bind, Option.bind_eq_some_iff, Option.pure_def,
        Option.some.injEq, Prod.mk.injEq] at step
      obtain ⟨position, -, -, rfl⟩ := step
      rfl
    · simp at step

end RtThread
