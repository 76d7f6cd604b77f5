import RtThread.Kernel.Surroundings

/-!
# Memory pools

A pool hands out blocks of one size. The first word of a block is a pointer: to
the next free block while the block is free, to the pool while it is in use. A
step is one section, one `rt_schedule` or one test of `thread->error`.
-/

namespace RtThread

open RtThread.Std

/-- `struct rt_mempool` and the memory of its blocks. Addresses are natural
numbers; `RT_NULL` is 0. -/
structure MemPool where
  /-- Where the pool object itself is. -/
  address : Nat
  startAddress : Nat
  size : BitVec 32
  blockSize : BitVec 32
  blockList : Nat
  blockTotalCount : BitVec 32
  blockFreeCount : BitVec 32
  suspendThreadCount : BitVec 32
  /-- The pointer at an address. -/
  word : Nat → Nat

namespace MemPool

/-- `block_ptr + offset * (block_size + sizeof(rt_uint8_t *))`. -/
def block (mp : MemPool) (offset : Nat) : Nat :=
  mp.startAddress + offset * (mp.blockSize.toNat + 4)

def setWord (mp : MemPool) (address value : Nat) : MemPool :=
  { mp with word := Function.update mp.word address value }

@[simp] theorem setWord_word (mp : MemPool) (address value : Nat) :
    (mp.setWord address value).word = Function.update mp.word address value := rfl

@[simp] theorem setWord_block (mp : MemPool) (address value : Nat) :
    (mp.setWord address value).block = mp.block := rfl

/-- The loop that links each block to the next one. -/
def linkBlocks (mp : MemPool) : Nat → MemPool
  | 0 => mp
  | offset + 1 => (mp.linkBlocks offset).setWord (mp.block offset) (mp.block (offset + 1))

/-- The free block list as `rt_mp_init` and `rt_mp_create` build it. A pool has at
least one block. -/
def initList (mp : MemPool) : MemPool :=
  let mp := mp.linkBlocks mp.blockTotalCount.toNat
  let mp := mp.setWord (mp.block (mp.blockTotalCount.toNat - 1)) 0
  { mp with blockList := mp.startAddress }

/-- Take the first block of the list. -/
def take (mp : MemPool) : MemPool :=
  let blockPtr := mp.blockList
  let mp := { mp with
    blockFreeCount := mp.blockFreeCount - 1#32
    blockList := mp.word blockPtr }
  mp.setWord blockPtr mp.address

/-- Put a block on the list. -/
def put (mp : MemPool) (blockPtr : Nat) : MemPool :=
  let mp := { mp with blockFreeCount := mp.blockFreeCount + 1#32 }
  let mp := mp.setWord blockPtr mp.blockList
  { mp with blockList := blockPtr }

end MemPool

/-- `rt_mp_init` for a pool at `address`; `word` is what the memory contains before. -/
def rtMpInit (word : Nat → Nat) (address start : Nat) (size blockSize : BitVec 32) : MemPool :=
  let size := rtAlignDown size
  let blockSize := rtAlign blockSize
  let blockTotalCount := size / (blockSize + 4#32)
  let mp : MemPool := ⟨address, start, size, blockSize, 0, blockTotalCount, blockTotalCount, 0, word⟩
  mp.initList

/-- `rt_mp_create`, when `rt_malloc` has returned `start`. -/
def rtMpCreate (word : Nat → Nat) (address start : Nat) (blockCount blockSize : BitVec 32) :
    MemPool :=
  let blockSize := rtAlign blockSize
  let size := (blockSize + 4#32) * blockCount
  let mp : MemPool := ⟨address, start, size, blockSize, 0, blockCount, blockCount, 0, word⟩
  mp.initList

/-! ## Calls -/

inductive MpCall where
  | alloc (time : BitVec 32)
  | free (block : Nat)
deriving DecidableEq, Repr

/-- Where a call stands between two of its steps. -/
inductive MpPoint where
  /-- The thread of `rt_mp_alloc` has been suspended; `rt_schedule` is next. -/
  | suspended
  /-- Back from `rt_schedule`; the test of `thread->error` is next. -/
  | woken
  /-- The second section of `rt_mp_alloc` is next. -/
  | resumed
  /-- `rt_mp_free` has resumed a thread; `rt_schedule` is next. -/
  | reschedule
deriving DecidableEq, Repr

/-- How a call goes on when it enables interrupts. -/
inductive MpOutcome where
  /-- `rt_mp_alloc` returns a pointer. -/
  | allocated (pointer : Nat)
  /-- `rt_mp_free` returns. -/
  | returns
  | goesOn (point : MpPoint)
deriving DecidableEq, Repr

/-- What both sections of `rt_mp_alloc` that find a block end with. -/
def MemPool.hand (mp : MemPool) : MemPool × MpOutcome := (mp.take, .allocated (mp.blockList + 4))

/-- The first section of `rt_mp_alloc`. -/
def rtMpAlloc (kernel : Kernel) (mp : MemPool) (context : Context) (time : BitVec 32) :
    Option (Kernel × MemPool × MpOutcome) :=
  if mp.blockFreeCount ≠ 0#32 then some (kernel, mp.hand)
  else if time = 0#32 then some (kernel, mp, .allocated 0)
  else match context with
    | .thread thread => do
      let kernel := (rtThreadSuspend kernel thread).2
      let kernel := kernel.linkThreadAfter (.wait (.mempool 0)) thread
      let mp := { mp with suspendThreadCount := mp.suspendThreadCount + 1#32 }
      if hasWaitingTime time then
        let (_, kernel) ← startThreadTimer kernel thread time
        pure (kernel, mp, .goesOn .suspended)
      else pure (kernel, mp, .goesOn .suspended)
    -- `RT_DEBUG_NOT_IN_INTERRUPT`
    | .handler _ => none

/-- The section of `rt_mp_free`. No thread is at the head of the suspend list
when the list is empty. -/
def rtMpFree (kernel : Kernel) (mp : MemPool) (block : Nat) :
    Option (Kernel × MemPool × MpOutcome) :=
  let blockPtr := block - 4
  -- the block has to belong to this pool
  if mp.word blockPtr = mp.address then
    let mp := mp.put blockPtr
    if mp.suspendThreadCount ≠ 0#32 then
      match threadEntry (kernel.threadLinks.next (.wait (.mempool 0))) with
      | .thread thread =>
        some ((rtThreadResume (kernel.setError thread .eok) thread).2,
          { mp with suspendThreadCount := mp.suspendThreadCount - 1#32 }, .goesOn .reschedule)
      | _ => none
    else some (kernel, mp, .returns)
  else none

/-- The first section of a call. -/
def MpCall.enter (kernel : Kernel) (mp : MemPool) (context : Context) :
    MpCall → Option (Kernel × MemPool × MpOutcome)
  | .alloc time => rtMpAlloc kernel mp context time
  | .free block => rtMpFree kernel mp block

/-! ## The machine -/

inductive MpEvent where
  /-- `rt_mp_alloc` has returned this. -/
  | allocated (context : Context) (pointer : Nat)
  /-- `rt_mp_free` has taken this back. -/
  | released (context : Context) (block : Nat)
deriving DecidableEq, Repr

/-- Who may use which pointer is up to the callers; `RT_NULL` is no block. -/
def MpEvent.follow (live : List Nat) : MpEvent → List Nat
  | .allocated _ pointer => if pointer = 0 then live else pointer :: live
  | .released _ block => live.erase block

inductive MpAction where
  | around (change : Surroundings)
  /-- Begin a call and execute its first section. -/
  | enter (context : Context) (call : MpCall)
  /-- Execute the next step of the call that the context is in. -/
  | advance (context : Context)
deriving DecidableEq, Repr

structure MpSystem where
  kernel : Kernel
  mp : MemPool
  /-- The pointers that have been returned and not been freed since. -/
  live : List Nat
  /-- The call that each context is in. -/
  frames : Context → Option (MpCall × MpPoint)

namespace MpSystem

def setFrame (system : MpSystem) (context : Context) (kernel : Kernel) (mp : MemPool)
    (frame : Option (MpCall × MpPoint)) : MpSystem :=
  { system with kernel := kernel, mp := mp, frames := Function.update system.frames context frame }

/-- What follows a section of `call`. -/
def settle (system : MpSystem) (context : Context) (call : MpCall) :
    Kernel × MemPool × MpOutcome → MpSystem × List MpEvent
  | (kernel, mp, .allocated pointer) =>
    (system.setFrame context kernel mp none, [.allocated context pointer])
  | (kernel, mp, .returns) => (system.setFrame context kernel mp none, [])
  | (kernel, mp, .goesOn point) => (system.setFrame context kernel mp (some (call, point)), [])

/-- The block that the call takes back. -/
def marks (context : Context) : MpCall → List MpEvent
  | .alloc _ => []
  | .free block => [.released context block]

def enter (system : MpSystem) (context : Context) (call : MpCall) :
    Option (MpSystem × List MpEvent) :=
  if context.Running system.kernel ∧ system.frames context = none then do
    let result ← call.enter system.kernel system.mp context
    let (next, emitted) := system.settle context call result
    pure (next, marks context call ++ emitted)
  else none

def advanceFrame (system : MpSystem) (context : Context) (call : MpCall) :
    MpPoint → Option (MpSystem × List MpEvent)
  | .suspended =>
    some (system.settle context call (rtSchedule system.kernel, system.mp, .goesOn .woken))
  | .woken =>
    match context with
    | .thread thread =>
      some (system.settle context call (system.kernel, system.mp,
        if (system.kernel.threads thread).error ≠ .eok then .allocated 0 else .goesOn .resumed))
    | .handler _ => none
  | .resumed => some (system.settle context call (system.kernel, system.mp.hand))
  | .reschedule => some (system.settle context call (rtSchedule system.kernel, system.mp, .returns))

def advance (system : MpSystem) (context : Context) : Option (MpSystem × List MpEvent) :=
  if context.Running system.kernel then do
    let (call, point) ← system.frames context
    system.advanceFrame context call point
  else none

/-- A pool that has just been set up, and no call under way. -/
def boot (config : Config) (mp : MemPool) : MpSystem where
  kernel := config.kernel
  mp := mp
  live := []
  frames _ := none

end MpSystem

def MpAction.apply (system : MpSystem) : MpAction → Option (MpSystem × List MpEvent)
  | .around change =>
    (change.apply system.kernel).map fun kernel => ({ system with kernel := kernel }, [])
  | .enter context call => system.enter context call
  | .advance context => system.advance context

def mpMachine : Machine MpSystem MpAction MpEvent where
  step system action := (action.apply system).map fun (next, emitted) =>
    ({ next with live := emitted.foldl MpEvent.follow system.live }, emitted)

end RtThread
