import RtThread.Drivers.Ringbuffer

/-!
# The pipe device

The pipe of `pipe.c`: a ring buffer with a list of readers and a list of writers.
Only threads call, and a thread that waits has no timer. A step is what happens with
interrupts disabled: a pass of the loop in `rt_pipe_read` or `rt_pipe_write`. The size
of a request has 32 bits; the ring buffer is given 16 of them.
-/

namespace RtThread

open RtThread.Std

/-- `struct rt_pipe_device`. -/
structure Pipe where
  ringbuffer : Ringbuffer
  suspendedReadList : List ThreadId
  suspendedWriteList : List ThreadId

inductive PipeSide where
  | reader | writer
deriving DecidableEq, Repr

def PipeSide.other : PipeSide → PipeSide
  | .reader => .writer
  | .writer => .reader

/-- A thread in a call is on the list of its side, or has been resumed. -/
inductive PipePhase where
  | idle
  | blocked (side : PipeSide) (buffer : Nat → Byte) (size : BitVec 32)
  | resumed (side : PipeSide) (buffer : Nat → Byte) (size : BitVec 32)

structure PipeSystem where
  pipe : Pipe
  phase : ThreadId → PipePhase

/-- A call has returned, with the bytes read or the number of bytes written. -/
inductive PipeEvent where
  | read (thread : ThreadId) (bytes : List Byte)
  | written (thread : ThreadId) (count : Nat)
deriving DecidableEq, Repr

/-- What `rt_pipe_create` makes of the memory that it gets. -/
def rtPipeCreate (memory : Nat → Byte) (size : BitVec 32) : Pipe :=
  ⟨rtRingbufferInit memory ((rtAlign size).setWidth 16), [], []⟩

namespace PipeSystem

/-- `rt_thread_resume`, seen from the thread. -/
def resume (system : PipeSystem) (thread : ThreadId) : PipeSystem :=
  { system with phase := Function.update system.phase thread (match system.phase thread with
    | .blocked side buffer size => .resumed side buffer size
    | phase => phase) }

/-- The call of a thread returns. -/
def done (system : PipeSystem) (thread : ThreadId) : PipeSystem :=
  { system with phase := Function.update system.phase thread .idle }

/-- A pass of the loop in `rt_pipe_read`. -/
def read (system : PipeSystem) (thread : ThreadId) (buffer : Nat → Byte) (size : BitVec 32) :
    PipeSystem × List PipeEvent :=
  let (rb, buffer', readNbytes) :=
    rtRingbufferGet system.pipe.ringbuffer buffer (size.setWidth 16)
  let pipe := { system.pipe with ringbuffer := rb }
  if readNbytes = 0 then
    (⟨{ pipe with suspendedReadList := pipe.suspendedReadList ++ [thread] },
      Function.update system.phase thread (.blocked .reader buffer' size)⟩, [])
  else
    match pipe.suspendedWriteList with
    | other :: rest =>
        ((resume ⟨{ pipe with suspendedWriteList := rest }, system.phase⟩ other).done thread,
          [.read thread (bytesOf buffer' readNbytes)])
    | [] => (done ⟨pipe, system.phase⟩ thread, [.read thread (bytesOf buffer' readNbytes)])

/-- A pass of the loop in `rt_pipe_write`. -/
def write (system : PipeSystem) (thread : ThreadId) (buffer : Nat → Byte) (size : BitVec 32) :
    PipeSystem × List PipeEvent :=
  let (rb, writeNbytes) := rtRingbufferPut system.pipe.ringbuffer buffer (size.setWidth 16)
  let pipe := { system.pipe with ringbuffer := rb }
  if writeNbytes = 0 then
    -- "pipe full, waiting on suspended write list"
    (⟨{ pipe with suspendedWriteList := pipe.suspendedWriteList ++ [thread] },
      Function.update system.phase thread (.blocked .writer buffer size)⟩, [])
  else
    match pipe.suspendedReadList with
    | other :: rest =>
        ((resume ⟨{ pipe with suspendedReadList := rest }, system.phase⟩ other).done thread,
          [.written thread writeNbytes])
    | [] => (done ⟨pipe, system.phase⟩ thread, [.written thread writeNbytes])

end PipeSystem

inductive PipeAction where
  | call (side : PipeSide) (thread : ThreadId) (buffer : Nat → Byte) (size : BitVec 32)
  /-- A thread that has been resumed runs. -/
  | wake (thread : ThreadId)

def PipeSystem.pass (system : PipeSystem) (side : PipeSide) (thread : ThreadId)
    (buffer : Nat → Byte) (size : BitVec 32) : PipeSystem × List PipeEvent :=
  match side with
  | .reader => system.read thread buffer size
  | .writer => system.write thread buffer size

def pipeMachine : Machine PipeSystem PipeAction PipeEvent where
  step system
    | .call side thread buffer size =>
        match system.phase thread with
        | .idle => some (system.pass side thread buffer size)
        | _ => none
    | .wake thread =>
        match system.phase thread with
        | .resumed side buffer size => some (system.pass side thread buffer size)
        | _ => none

/-- No thread has called yet. -/
def PipeSystem.start (pipe : Pipe) : PipeSystem := ⟨pipe, fun _ => .idle⟩

end RtThread
