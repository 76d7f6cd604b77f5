import RtThread.Kernel.Thread

/-!
# The clock

`rt_tick_increase` counts the tick, charges it to the running thread and then
checks the timers.
-/

namespace RtThread

/-- Charge one tick to the time slice of `thread`; report whether it is used up. -/
def chargeTick (kernel : Kernel) (thread : ThreadId) : Kernel × Bool :=
  let record := kernel.threads thread
  let remainingTick := record.remainingTick - 1#32
  if remainingTick = 0#32 then
    (kernel.setThread thread { record with remainingTick := record.initTick }, true)
  else (kernel.setThread thread { record with remainingTick := remainingTick }, false)

/-- The time slice of the running thread: a thread that has used it up yields. -/
def checkTimeSlice (kernel : Kernel) : Option Kernel :=
  match kernel.rtCurrentThread with
  | .thread thread =>
    let (kernel, expired) := chargeTick kernel thread
    if expired then rtThreadYield kernel else some kernel
  | _ => none

def rtTickIncrease (timeoutFunc : TimerId → Kernel → Option Kernel) (kernel : Kernel) :
    Option (Kernel × List TimerId) := do
  let kernel ← checkTimeSlice { kernel with rtTick := kernel.rtTick + 1#32 }
  rtTimerCheck timeoutFunc kernel

end RtThread
