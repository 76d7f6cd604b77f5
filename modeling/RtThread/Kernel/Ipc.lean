import RtThread.Kernel.Thread

/-!
# Inter-thread communication

The sections of `ipc.c` in which interrupts are disabled: semaphores, mutexes,
events and mailboxes. Between two of them a call waits in `rt_schedule`;
`Outcome` says how it goes on. Waiting times are `rt_int32_t`: a positive one
starts the thread timer and a negative one waits forever. `none` means that the
call does not return or follows a pointer that names no thread.
-/

namespace RtThread

open RtThread.Std

/-- How a call goes on when it enables interrupts. -/
inductive Outcome where
  /-- It returns; `output` is what it stored for its caller. -/
  | returns (result : Err) (output : Option (BitVec 32))
  /-- Its thread is suspended, so it calls `rt_schedule` and then tests
  `thread->error`; `timer` is the result of `rt_timer_start` if it was called. -/
  | suspends (timer : Option Err)
  /-- It has resumed a thread, so it calls `rt_schedule` and returns `RT_EOK`. -/
  | reschedules (output : Option (BitVec 32))
deriving DecidableEq, Repr

/-! ## Suspend lists -/

/-- The scan of a `RT_IPC_FLAG_PRIO` list stops at the first thread of lower
priority than `thread`. -/
def stopsSuspension (threads : ThreadId → Thread) (thread : ThreadId) : ThreadNode → Bool
  | .tlist sthread => (threads thread).currentPriority < (threads sthread).currentPriority
  | _ => false

def rtIpcListSuspend (kernel : Kernel) (list : WaitList) (thread : ThreadId) (flag : IpcFlag) :
    Option Kernel :=
  let kernel := (rtThreadSuspend kernel thread).2
  match flag with
  | .fifo => some (kernel.linkThreadBefore (.wait list) thread)
  | .prio => do
    -- The scan ends at the list head when no thread stops it.
    let position ← kernel.threadLinks.scan (.wait list) (stopsSuspension kernel.threads thread)
      (kernel.threadLinks.next (.wait list))
    pure (kernel.linkThreadBefore position thread)

def rtIpcListResume (kernel : Kernel) (list : WaitList) : Option Kernel :=
  match threadEntry (kernel.threadLinks.next (.wait list)) with
  | .thread thread => some (rtThreadResume kernel thread).2
  | _ => none

/-- Every thread leaves the list with `thread->error = -RT_ERROR`. The callers
have disabled interrupts, so the loop is one section. -/
def Kernel.rtIpcListResumeAll (list : WaitList) (kernel : Kernel) : Option Kernel :=
  if kernel.threadLinks.isEmpty (.wait list) then some kernel
  else match threadEntry (kernel.threadLinks.next (.wait list)) with
    | .thread thread =>
      (rtThreadResume (kernel.setError thread .error) thread).2 |>.rtIpcListResumeAll list
    | _ => none
partial_fixpoint

export Kernel (rtIpcListResumeAll)

/-- `RT_IPC_CMD_RESET`. -/
def ipcCmdReset : BitVec 8 := 0x01

/-- `time > 0`. -/
def hasWaitingTime (time : BitVec 32) : Bool := BitVec.slt 0 time

/-- What every blocking call does once it has decided to wait: put its thread
on the suspend list and start the thread timer if there is a waiting time. -/
def suspendOn (kernel : Kernel) (list : WaitList) (thread : ThreadId) (flag : IpcFlag)
    (time : BitVec 32) : Option (Kernel × Outcome) := do
  let kernel ← rtIpcListSuspend kernel list thread flag
  if hasWaitingTime time then
    let (result, kernel) ← startThreadTimer kernel thread time
    pure (kernel, .suspends (some result))
  else pure (kernel, .suspends none)

/-! ## Semaphores -/

def rtSemTake (kernel : Kernel) (sem : Nat) (time : BitVec 32) : Option (Kernel × Outcome) :=
  let record := kernel.sems sem
  if record.value ≠ 0#16 then
    some (kernel.setSem sem { record with value := record.value - 1#16 }, .returns .eok none)
  else if time = 0#32 then some (kernel, .returns .etimeout none)
  else match kernel.rtCurrentThread with
    | .thread thread =>
      suspendOn (kernel.setError thread .eok) (.sem sem) thread record.flag time
    | _ => none

def rtSemRelease (kernel : Kernel) (sem : Nat) : Option (Kernel × Outcome) :=
  let record := kernel.sems sem
  if kernel.threadLinks.isEmpty (.wait (.sem sem)) then
    some (kernel.setSem sem { record with value := record.value + 1#16 }, .returns .eok none)
  else do
    let kernel ← rtIpcListResume kernel (.sem sem)
    pure (kernel, .reschedules none)

def rtSemControl (kernel : Kernel) (sem : Nat) (cmd : BitVec 8) (arg : BitVec 32) :
    Option (Kernel × Outcome) :=
  if cmd = ipcCmdReset then do
    let kernel ← rtIpcListResumeAll (.sem sem) kernel
    pure (kernel.setSem sem { kernel.sems sem with value := arg.setWidth 16 }, .reschedules none)
  else some (kernel, .returns .error none)

/-! ## Mutexes -/

/-- Raise the owner of a mutex to the priority of `thread` if it is lower. -/
def raiseOwner (kernel : Kernel) (owner thread : ThreadId) : Kernel :=
  let priority := (kernel.threads thread).currentPriority
  if priority < (kernel.threads owner).currentPriority then
    rtThreadChangePriority kernel owner priority
  else kernel

def rtMutexTake (kernel : Kernel) (mutex : Nat) (time : BitVec 32) : Option (Kernel × Outcome) :=
  match kernel.rtCurrentThread with
  | .thread thread =>
    let kernel := kernel.setError thread .eok
    let record := kernel.mutexes mutex
    if record.owner = some thread then
      some (kernel.setMutex mutex { record with hold := record.hold + 1#8 }, .returns .eok none)
    else if record.value ≠ 0#16 then
      some (kernel.setMutex mutex
        { record with
          value := record.value - 1#16
          owner := some thread
          originalPriority := (kernel.threads thread).currentPriority
          hold := record.hold + 1#8 }, .returns .eok none)
    else if time = 0#32 then
      some (kernel.setError thread .etimeout, .returns .etimeout none)
    else match record.owner with
      | some owner =>
        suspendOn (raiseOwner kernel owner thread) (.mutex mutex) thread record.flag time
      | none => none
  | _ => none

/-- Give `owner` back the priority that the mutex has saved. -/
def restorePriority (kernel : Kernel) (owner : ThreadId) (originalPriority : Nat) : Kernel :=
  if originalPriority ≠ (kernel.threads owner).currentPriority then
    rtThreadChangePriority kernel owner originalPriority
  else kernel

/-- The last release of a mutex: hand it to the first suspended thread, or free it. -/
def passMutex (kernel : Kernel) (mutex : Nat) : Option (Kernel × Outcome) :=
  let record := kernel.mutexes mutex
  if kernel.threadLinks.isEmpty (.wait (.mutex mutex)) then
    some (kernel.setMutex mutex
      { record with
        value := record.value + 1#16
        owner := none
        originalPriority := 0xff }, .returns .eok none)
  else match threadEntry (kernel.threadLinks.next (.wait (.mutex mutex))) with
    | .thread thread => do
      let kernel := kernel.setMutex mutex
        { record with
          owner := some thread
          originalPriority := (kernel.threads thread).currentPriority
          hold := record.hold + 1#8 }
      let kernel ← rtIpcListResume kernel (.mutex mutex)
      pure (kernel, .reschedules none)
    | _ => none

def rtMutexRelease (kernel : Kernel) (mutex : Nat) : Option (Kernel × Outcome) :=
  match kernel.rtCurrentThread with
  | .thread thread =>
    let record := kernel.mutexes mutex
    if record.owner ≠ some thread then
      some (kernel.setError thread .error, .returns .error none)
    else
      let kernel := kernel.setMutex mutex { record with hold := record.hold - 1#8 }
      if (kernel.mutexes mutex).hold = 0#8 then
        passMutex (restorePriority kernel thread record.originalPriority) mutex
      else some (kernel, .returns .eok none)
  | _ => none

/-! ## Events -/

/-- `RT_EVENT_FLAG_AND`. -/
def eventFlagAnd : BitVec 8 := 0x01

/-- `RT_EVENT_FLAG_OR`. -/
def eventFlagOr : BitVec 8 := 0x02

/-- `RT_EVENT_FLAG_CLEAR`. -/
def eventFlagClear : BitVec 8 := 0x04

/-- Whether `set` satisfies a thread that waits for `wanted`. -/
def eventSatisfies (option : BitVec 8) (wanted set : BitVec 32) : Bool :=
  if option &&& eventFlagAnd ≠ 0#8 then set &&& wanted = wanted
  else if option &&& eventFlagOr ≠ 0#8 then set &&& wanted ≠ 0#32
  else false

/-- A thread that waits for any of several events keeps those it has received. -/
def saveReceived (kernel : Kernel) (event : Nat) (thread : ThreadId) : Kernel :=
  let record := kernel.threads thread
  if record.eventInfo &&& eventFlagAnd ≠ 0#8 then kernel
  else kernel.setThread thread
    { record with eventSet := record.eventSet &&& (kernel.events event).set }

/-- `event->set &= ~set`, if the option says so. -/
def clearEvent (kernel : Kernel) (event : Nat) (option : BitVec 8) (set : BitVec 32) : Kernel :=
  let record := kernel.events event
  if option &&& eventFlagClear ≠ 0#8 then
    kernel.setEvent event { record with set := record.set &&& ~~~set }
  else kernel

/-- Resume a suspended thread that the event satisfies. -/
def resumeSatisfied (kernel : Kernel) (event : Nat) (thread : ThreadId) : Kernel :=
  let kernel := saveReceived kernel event thread
  let record := kernel.threads thread
  (rtThreadResume (clearEvent kernel event record.eventInfo record.eventSet) thread).2

/-- The walk of `rt_event_send` along the suspend list, which also reports
whether it has resumed a thread. -/
def Kernel.eventSendLoop (event : Nat) (kernel : Kernel) (node : ThreadNode)
    (needSchedule : Bool) : Option (Kernel × Bool) :=
  if node = .wait (.event event) then some (kernel, needSchedule)
  else match threadEntry node with
    | .thread thread =>
      let record := kernel.threads thread
      -- The walk moves on before the thread leaves the list.
      let following := kernel.threadLinks.next node
      if eventSatisfies record.eventInfo record.eventSet (kernel.events event).set then
        resumeSatisfied kernel event thread |>.eventSendLoop event following true
      else kernel |>.eventSendLoop event following needSchedule
    | _ => none
partial_fixpoint

export Kernel (eventSendLoop)

def rtEventSend (kernel : Kernel) (event : Nat) (set : BitVec 32) : Option (Kernel × Outcome) :=
  if set = 0#32 then some (kernel, .returns .error none)
  else do
    let record := kernel.events event
    let kernel := kernel.setEvent event { record with set := record.set ||| set }
    let (kernel, needSchedule) ← eventSendLoop event kernel
      (kernel.threadLinks.next (.wait (.event event))) false
    pure (kernel, if needSchedule then .reschedules none else .returns .eok none)

/-- The source resets `thread->error` just before it disables interrupts. -/
def rtEventRecv (kernel : Kernel) (event : Nat) (set : BitVec 32) (option : BitVec 8)
    (timeout : BitVec 32) : Option (Kernel × Outcome) :=
  if set = 0#32 then some (kernel, .returns .error none)
  else match kernel.rtCurrentThread with
    | .thread thread =>
      let kernel := kernel.setError thread .eok
      let record := kernel.events event
      if eventSatisfies option set record.set then
        some (clearEvent kernel event option set, .returns .eok (some (record.set &&& set)))
      else if timeout = 0#32 then
        some (kernel.setError thread .etimeout, .returns .etimeout none)
      else
        suspendOn (kernel.setThread thread
          { kernel.threads thread with eventSet := set, eventInfo := option })
          (.event event) thread record.flag timeout
    | _ => none

/-- The end of `rt_event_recv`, when the thread has been resumed. -/
def rtEventRecvReturn (kernel : Kernel) (thread : ThreadId) : Outcome :=
  .returns (kernel.threads thread).error (some (kernel.threads thread).eventSet)

def rtEventControl (kernel : Kernel) (event : Nat) (cmd : BitVec 8) :
    Option (Kernel × Outcome) :=
  if cmd = ipcCmdReset then do
    let kernel ← rtIpcListResumeAll (.event event) kernel
    pure (kernel.setEvent event { kernel.events event with set := 0 }, .reschedules none)
  else some (kernel, .returns .error none)

/-! ## Mailboxes -/

/-- `++offset`, back to 0 at the end of the pool. -/
def nextOffset (mailbox : Mailbox) (offset : BitVec 16) : BitVec 16 :=
  if offset + 1#16 ≥ mailbox.size then 0#16 else offset + 1#16

/-- Store a mail. -/
def Mailbox.put (mailbox : Mailbox) (value : BitVec 32) : Mailbox :=
  { mailbox with
    msgPool := Function.update mailbox.msgPool mailbox.inOffset.toNat value
    inOffset := nextOffset mailbox mailbox.inOffset
    entry := mailbox.entry + 1#16 }

/-- Take out a mail; its value is `msgPool outOffset`. -/
def Mailbox.get (mailbox : Mailbox) : Mailbox :=
  { mailbox with
    outOffset := nextOffset mailbox mailbox.outOffset
    entry := mailbox.entry - 1#16 }

/-- What is left of a waiting time that started at `tickDelta`. -/
def reduceTimeout (timeout tickDelta rtTick : BitVec 32) : BitVec 32 :=
  if hasWaitingTime timeout then
    let timeout := timeout - (rtTick - tickDelta)
    if timeout.slt 0 then 0#32 else timeout
  else timeout

/-- Resume the first thread on `list`, if there is one. -/
def resumeFirst (kernel : Kernel) (list : WaitList) (output : Option (BitVec 32)) :
    Option (Kernel × Outcome) :=
  if kernel.threadLinks.isEmpty (.wait list) then some (kernel, .returns .eok output)
  else do
    let kernel ← rtIpcListResume kernel list
    pure (kernel, .reschedules output)

/-- One round of `rt_mb_send_wait`: wait while the mailbox is full. -/
def rtMbSendRound (kernel : Kernel) (mailbox : Nat) (value timeout : BitVec 32) :
    Option (Kernel × Outcome) :=
  let record := kernel.mailboxes mailbox
  if record.entry = record.size then
    match kernel.rtCurrentThread with
    | .thread thread =>
      let kernel := kernel.setError thread .eok
      if timeout = 0#32 then some (kernel, .returns .efull none)
      else suspendOn kernel (.mailboxSender mailbox) thread record.flag timeout
    | _ => none
  else resumeFirst (kernel.setMailbox mailbox (record.put value)) (.mailbox mailbox) none

def rtMbSendWait (kernel : Kernel) (mailbox : Nat) (value timeout : BitVec 32) :
    Option (Kernel × Outcome) :=
  if (kernel.mailboxes mailbox).entry = (kernel.mailboxes mailbox).size ∧ timeout = 0#32 then
    some (kernel, .returns .efull none)
  else rtMbSendRound kernel mailbox value timeout

/-- One round of `rt_mb_recv`: wait while the mailbox is empty. -/
def rtMbRecvRound (kernel : Kernel) (mailbox : Nat) (timeout : BitVec 32) :
    Option (Kernel × Outcome) :=
  let record := kernel.mailboxes mailbox
  if record.entry = 0#16 then
    match kernel.rtCurrentThread with
    | .thread thread =>
      let kernel := kernel.setError thread .eok
      if timeout = 0#32 then
        some (kernel.setError thread .etimeout, .returns .etimeout none)
      else suspendOn kernel (.mailbox mailbox) thread record.flag timeout
    | _ => none
  else
    resumeFirst (kernel.setMailbox mailbox record.get) (.mailboxSender mailbox)
      (some (record.msgPool record.outOffset.toNat))

def rtMbRecv (kernel : Kernel) (mailbox : Nat) (timeout : BitVec 32) :
    Option (Kernel × Outcome) :=
  if (kernel.mailboxes mailbox).entry = 0#16 ∧ timeout = 0#32 then
    some (kernel, .returns .etimeout none)
  else rtMbRecvRound kernel mailbox timeout

def rtMbControl (kernel : Kernel) (mailbox : Nat) (cmd : BitVec 8) :
    Option (Kernel × Outcome) :=
  if cmd = ipcCmdReset then do
    let kernel ← rtIpcListResumeAll (.mailbox mailbox) kernel
    let kernel ← rtIpcListResumeAll (.mailboxSender mailbox) kernel
    pure (kernel.setMailbox mailbox
      { kernel.mailboxes mailbox with entry := 0, inOffset := 0, outOffset := 0 },
      .reschedules none)
  else some (kernel, .returns .error none)

end RtThread
