import RtThread.Kernel.System

/-!
# What goes on around one object

A message queue or a memory pool is used by threads and interrupt handlers that
do other things in between. All that matters of these is that time passes, that
threads are started and which of the threads that are ready is current.
-/

namespace RtThread

inductive Surroundings where
  | schedulerStart
  | threadStartup (thread : ThreadId)
  | tickIncrease
  /-- Another call, or a handler, has switched to a thread that is ready. -/
  | switchTo (thread : ThreadId)
deriving DecidableEq, Repr

def Surroundings.apply (kernel : Kernel) : Surroundings → Option Kernel
  | .schedulerStart =>
    if kernel.rtCurrentThread = .null then some (rtSystemSchedulerStart kernel) else none
  | .threadStartup thread => rtThreadStartup kernel thread
  | .tickIncrease => (rtTickIncrease threadTimeoutFunc kernel).map Prod.fst
  | .switchTo thread =>
    if (kernel.threads thread).stat = .ready then
      some { kernel with rtCurrentThread := .thread thread }
    else none

end RtThread
