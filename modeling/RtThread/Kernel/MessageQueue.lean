import RtThread.Std.Chain
import RtThread.Kernel.Surroundings

/-!
# Message queues

The nodes of a queue are on its free list, on the list of queued messages or in
the hands of a call: sending and receiving are two sections each, and between
them the call copies the message while interrupts are enabled. A step is one
section, one pointer or one byte written outside a section, one `rt_schedule` or
one test of `thread->error`.
-/

namespace RtThread

open RtThread.Std

/-- `struct rt_messagequeue` and the memory of its pool. Addresses are natural
numbers; `RT_NULL` is 0. -/
structure MessageQueue where
  flag : IpcFlag
  msgPool : Nat
  msgSize : BitVec 16
  maxMsgs : BitVec 16
  entry : BitVec 16
  msgQueueHead : Nat
  msgQueueTail : Nat
  msgQueueFree : Nat
  /-- `next` of the message at an address. -/
  next : Nat → Nat
  /-- The bytes that follow it. -/
  data : Nat → Nat → BitVec 8

namespace MessageQueue

/-- The address of a message in the pool. -/
def message (mq : MessageQueue) (temp : Nat) : Nat := mq.msgPool + temp * (mq.msgSize.toNat + 4)

/-- The loop that builds the free list. -/
def initFree (mq : MessageQueue) : Nat → MessageQueue
  | 0 => { mq with msgQueueFree := 0 }
  | temp + 1 =>
    let mq := mq.initFree temp
    { mq with
      next := Function.update mq.next (mq.message temp) mq.msgQueueFree
      msgQueueFree := mq.message temp }

/-- Take a message off the free list. -/
def takeFree (mq : MessageQueue) : MessageQueue :=
  { mq with msgQueueFree := mq.next mq.msgQueueFree }

/-- Put a message on the free list. -/
def putFree (mq : MessageQueue) (msg : Nat) : MessageQueue :=
  { mq with next := Function.update mq.next msg mq.msgQueueFree, msgQueueFree := msg }

/-- Link a message to the end of the queue. -/
def linkTail (mq : MessageQueue) (msg : Nat) : MessageQueue :=
  let mq := if mq.msgQueueTail ≠ 0 then
    { mq with next := Function.update mq.next mq.msgQueueTail msg } else mq
  let mq := { mq with msgQueueTail := msg }
  let mq := if mq.msgQueueHead = 0 then { mq with msgQueueHead := msg } else mq
  { mq with entry := mq.entry + 1#16 }

/-- Link a message to the beginning of the queue. -/
def linkHead (mq : MessageQueue) (msg : Nat) : MessageQueue :=
  let mq := { mq with next := Function.update mq.next msg mq.msgQueueHead, msgQueueHead := msg }
  let mq := if mq.msgQueueTail = 0 then { mq with msgQueueTail := msg } else mq
  { mq with entry := mq.entry + 1#16 }

/-- Move the head on, and forget the tail when it was the last message. -/
def advanceHead (mq : MessageQueue) : MessageQueue :=
  { mq with
    msgQueueHead := mq.next mq.msgQueueHead
    msgQueueTail := if mq.msgQueueTail = mq.msgQueueHead then 0 else mq.msgQueueTail }

/-- Unlink the first message. -/
def unlinkHead (mq : MessageQueue) : MessageQueue :=
  { mq.advanceHead with entry := mq.entry - 1#16 }

/-- The loop of `RT_IPC_CMD_RESET`. -/
def releaseMessages (mq : MessageQueue) : Option MessageQueue :=
  if mq.msgQueueHead = 0 then some mq
  else mq.advanceHead.putFree mq.msgQueueHead |>.releaseMessages
partial_fixpoint

end MessageQueue

/-- `rt_mq_init`; `next` and `data` are what the pool contains before. -/
def rtMqInit (next : Nat → Nat) (data : Nat → Nat → BitVec 8) (msgPool : Nat)
    (msgSize poolSize : BitVec 32) (flag : IpcFlag) : MessageQueue :=
  let msgSize : BitVec 16 := (rtAlign msgSize).setWidth 16
  let maxMsgs : BitVec 16 := (poolSize / (msgSize.setWidth 32 + 4#32)).setWidth 16
  let mq : MessageQueue := ⟨flag, msgPool, msgSize, maxMsgs, 0, 0, 0, 0, next, data⟩
  mq.initFree maxMsgs.toNat

/-- `rt_mq_create`, when `rt_malloc` has returned `msgPool`. -/
def rtMqCreate (next : Nat → Nat) (data : Nat → Nat → BitVec 8) (msgPool : Nat)
    (msgSize maxMsgs : BitVec 32) (flag : IpcFlag) : MessageQueue :=
  let mq : MessageQueue :=
    ⟨flag, msgPool, (rtAlign msgSize).setWidth 16, maxMsgs.setWidth 16, 0, 0, 0, 0, next, data⟩
  mq.initFree mq.maxMsgs.toNat

/-! ## Calls -/

inductive MqCall where
  | send (buffer : List (BitVec 8))
  | urgent (buffer : List (BitVec 8))
  | recv (size : Nat) (timeout : BitVec 32)
  | control (cmd : BitVec 8)
deriving DecidableEq, Repr

/-- The message that the call sends. -/
def MqCall.buffer : MqCall → List (BitVec 8)
  | .send buffer | .urgent buffer => buffer
  | _ => []

def MqCall.isUrgent : MqCall → Bool
  | .urgent _ => true
  | _ => false

/-- `RT_ASSERT(size != 0)`. -/
def MqCall.Asserts : MqCall → Prop
  | .send buffer | .urgent buffer => buffer ≠ []
  | .recv size _ => size ≠ 0
  | .control _ => True

instance : DecidablePred MqCall.Asserts
  | .send buffer => inferInstanceAs (Decidable (buffer ≠ []))
  | .urgent buffer => inferInstanceAs (Decidable (buffer ≠ []))
  | .recv size _ => inferInstanceAs (Decidable (size ≠ 0))
  | .control _ => inferInstanceAs (Decidable True)

/-- Where a call stands between two of its steps. -/
inductive MqPoint where
  /-- Its thread has been suspended; `rt_schedule` is next. -/
  | suspended
  /-- Back from `rt_schedule`; the test of `thread->error` is next. -/
  | woken
  /-- The next round of the loop is next. -/
  | again
  /-- It has resumed a thread; `rt_schedule` is next. -/
  | reschedule
  /-- Back from that `rt_schedule`; its return is next. -/
  | returning
  /-- `msg->next = RT_NULL` is next. -/
  | clear (msg : Nat)
  /-- So many bytes have been copied to the message. -/
  | fill (msg count : Nat)
  /-- These bytes have been copied from the message. -/
  | drain (msg : Nat) (taken : List (BitVec 8))
deriving DecidableEq, Repr

structure MqFrame where
  call : MqCall
  /-- `tick_delta`. -/
  tickDelta : BitVec 32
  point : MqPoint
deriving DecidableEq

/-- How a call goes on when it enables interrupts. -/
inductive MqOutcome where
  | returns (result : Err)
  | goesOn (point : MqPoint)
deriving DecidableEq, Repr

/-- The first section of `rt_mq_send` and `rt_mq_urgent`, with the test of the
size before it. -/
def rtMqSendBegin (mq : MessageQueue) (buffer : List (BitVec 8)) (onward : Nat → MqPoint) :
    MessageQueue × MqOutcome :=
  if mq.msgSize.toNat < buffer.length then (mq, .returns .error)
  else if mq.msgQueueFree = 0 then (mq, .returns .efull)
  else (mq.takeFree, .goesOn (onward mq.msgQueueFree))

/-- How a section ends that may have resumed a thread. -/
def Outcome.onMq : Outcome → MqOutcome
  | .returns result _ => .returns result
  | .suspends _ => .goesOn .suspended
  | .reschedules _ => .goesOn .reschedule

/-- One round of `rt_mq_recv`: wait while the queue is empty. -/
def rtMqRecvRound (kernel : Kernel) (mq : MessageQueue) (context : Context)
    (timeout : BitVec 32) : Option (Kernel × MessageQueue × MqOutcome) :=
  if mq.entry = 0#16 then
    match context with
    | .thread thread => do
      let kernel := kernel.setError thread .eok
      if timeout = 0#32 then
        pure (kernel.setError thread .etimeout, mq, .returns .etimeout)
      else
        let (kernel, outcome) ← suspendOn kernel (.messageQueue 0) thread mq.flag timeout
        pure (kernel, mq, outcome.onMq)
    -- `RT_DEBUG_NOT_IN_INTERRUPT`
    | .handler _ => none
  else some (kernel, mq.unlinkHead, .goesOn (.drain mq.msgQueueHead []))

def rtMqRecv (kernel : Kernel) (mq : MessageQueue) (context : Context) (timeout : BitVec 32) :
    Option (Kernel × MessageQueue × MqOutcome) :=
  if mq.entry = 0#16 ∧ timeout = 0#32 then some (kernel, mq, .returns .etimeout)
  else rtMqRecvRound kernel mq context timeout

def rtMqControl (kernel : Kernel) (mq : MessageQueue) (cmd : BitVec 8) :
    Option (Kernel × MessageQueue × MqOutcome) :=
  if cmd = ipcCmdReset then do
    let kernel ← rtIpcListResumeAll (.messageQueue 0) kernel
    let mq ← mq.releaseMessages
    pure (kernel, { mq with entry := 0 }, .goesOn .reschedule)
  else some (kernel, mq, .returns .error)

/-- The first section of a call. -/
def MqCall.enter (kernel : Kernel) (mq : MessageQueue) (context : Context) :
    MqCall → Option (Kernel × MessageQueue × MqOutcome)
  | .send buffer => some (kernel, rtMqSendBegin mq buffer .clear)
  | .urgent buffer => some (kernel, rtMqSendBegin mq buffer (.fill · 0))
  | .recv _ timeout => rtMqRecv kernel mq context timeout
  | .control cmd => rtMqControl kernel mq cmd

/-- The second section of `rt_mq_send` and `rt_mq_urgent`. -/
def MqCall.link (kernel : Kernel) (mq : MessageQueue) (msg : Nat) (call : MqCall) :
    Option (Kernel × MessageQueue × MqOutcome) := do
  let mq := match call with
    | .urgent _ => mq.linkHead msg
    | _ => mq.linkTail msg
  let (kernel, outcome) ← resumeFirst kernel (.messageQueue 0) none
  pure (kernel, mq, outcome.onMq)

/-! ## The machine -/

inductive MqEvent where
  | returned (context : Context) (call : MqCall) (result : Err)
  /-- The call has stored these bytes in its caller's buffer of that size. -/
  | received (context : Context) (size : Nat) (bytes : List (BitVec 8))
  /-- A section has linked a message. -/
  | linked (urgent : Bool) (buffer : List (BitVec 8))
  /-- A section has unlinked a message. -/
  | unlinked (context : Context)
  /-- A section has released all messages. -/
  | emptied
deriving DecidableEq, Repr

inductive MqAction where
  | around (change : Surroundings)
  /-- Begin a call and execute its first section. -/
  | enter (context : Context) (call : MqCall)
  /-- Execute the next step of the call that the context is in. -/
  | advance (context : Context)
deriving DecidableEq, Repr

structure MqSystem where
  kernel : Kernel
  mq : MessageQueue
  /-- The call that each context is in. -/
  frames : Context → Option MqFrame

namespace MqSystem

def setFrame (system : MqSystem) (context : Context) (kernel : Kernel) (mq : MessageQueue)
    (frame : Option MqFrame) : MqSystem where
  kernel := kernel
  mq := mq
  frames := Function.update system.frames context frame

/-- What follows a section of `call`. -/
def settle (system : MqSystem) (context : Context) (call : MqCall) :
    Kernel × MessageQueue × MqOutcome → MqSystem × List MqEvent
  | (kernel, mq, .returns result) =>
    (system.setFrame context kernel mq none, [.returned context call result])
  | (kernel, mq, .goesOn point) =>
    (system.setFrame context kernel mq (some ⟨call, kernel.rtTick, point⟩), [])

/-- What the first section of a call does to the queue. -/
def marks (context : Context) (call : MqCall) (outcome : MqOutcome) : List MqEvent :=
  match call, outcome with
  | .recv _ _, .goesOn (.drain _ _) => [.unlinked context]
  | .control _, .goesOn _ => [.emptied]
  | _, _ => []

def enter (system : MqSystem) (context : Context) (call : MqCall) :
    Option (MqSystem × List MqEvent) :=
  if context.Running system.kernel ∧ call.Asserts ∧ system.frames context = none then do
    let result ← call.enter system.kernel system.mq context
    let (next, emitted) := system.settle context call result
    pure (next, marks context call result.2.2 ++ emitted)
  else none

def advanceFrame (system : MqSystem) (context : Context) (frame : MqFrame) :
    Option (MqSystem × List MqEvent) :=
  let kernel := system.kernel
  let mq := system.mq
  let goTo (kernel : Kernel) (mq : MessageQueue) (point : MqPoint) :=
    (system.setFrame context kernel mq (some { frame with point := point }), ([] : List MqEvent))
  match frame.point with
  | .suspended => some (goTo (rtSchedule kernel) mq .woken)
  | .woken =>
    match context with
    | .thread thread =>
      some (if (kernel.threads thread).error ≠ .eok then
        (system.setFrame context kernel mq none,
          [.returned context frame.call (kernel.threads thread).error])
      else goTo kernel mq .again)
    | .handler _ => none
  | .again =>
    match frame.call with
    | .recv size timeout => do
      let timeout := reduceTimeout timeout frame.tickDelta kernel.rtTick
      let result ← rtMqRecvRound kernel mq context timeout
      let (next, emitted) := system.settle context (.recv size timeout) result
      pure (next, marks context frame.call result.2.2 ++ emitted)
    | _ => none
  | .reschedule => some (goTo (rtSchedule kernel) mq .returning)
  | .returning =>
    some (system.setFrame context kernel mq none, [.returned context frame.call .eok])
  | .clear msg => some (goTo kernel { mq with next := Function.update mq.next msg 0 } (.fill msg 0))
  | .fill msg count =>
    match frame.call.buffer[count]? with
    | some byte =>
      some (goTo kernel { mq with
        data := Function.update mq.data msg (Function.update (mq.data msg) count byte) }
        (.fill msg (count + 1)))
    | none => do
      let result ← frame.call.link kernel mq msg
      let (next, emitted) := system.settle context frame.call result
      pure (next, .linked frame.call.isUrgent frame.call.buffer :: emitted)
  | .drain msg taken =>
    match frame.call with
    | .recv size _ =>
      if taken.length < min size mq.msgSize.toNat then
        some (goTo kernel mq (.drain msg (taken ++ [mq.data msg taken.length])))
      else
        some (system.setFrame context kernel (mq.putFree msg) none,
          [.received context size taken, .returned context frame.call .eok])
    | _ => none

def advance (system : MqSystem) (context : Context) : Option (MqSystem × List MqEvent) :=
  if context.Running system.kernel then
    (system.frames context).bind (system.advanceFrame context)
  else none

/-- A queue that has just been set up, and no call under way. -/
def boot (config : Config) (mq : MessageQueue) : MqSystem where
  kernel := config.kernel
  mq := mq
  frames _ := none

end MqSystem

def MqAction.apply (system : MqSystem) : MqAction → Option (MqSystem × List MqEvent)
  | .around change =>
    (change.apply system.kernel).map fun kernel => ({ system with kernel := kernel }, [])
  | .enter context call => system.enter context call
  | .advance context => system.advance context

def mqMachine : Machine MqSystem MqAction MqEvent where
  step := MqAction.apply

end RtThread
