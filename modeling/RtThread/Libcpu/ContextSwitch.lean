import RtThread.Std.Machine
import RtThread.Std.Words

/-!
# Switching contexts on a Cortex-M3

`context_gcc.S` and `rt_hw_stack_init`, with what the processor itself does when it takes and leaves
an exception. Places are addresses of words. The stack of handlers is apart from those of the
threads, and so are the variables.
-/

namespace RtThread

open RtThread.Std

universe u

/-! ## Registers -/

/-- `struct stack_context`, the registers that the processor stores by itself. -/
structure StackContext where
  r0 : BitVec 32
  r1 : BitVec 32
  r2 : BitVec 32
  r3 : BitVec 32
  r12 : BitVec 32
  lr : BitVec 32
  pc : BitVec 32
  psr : BitVec 32
deriving DecidableEq, Repr

namespace StackContext

def words (context : StackContext) : List (BitVec 32) :=
  [context.r0, context.r1, context.r2, context.r3, context.r12, context.lr, context.pc, context.psr]

def load (memory : Nat → BitVec 32) (place : Nat) : StackContext where
  r0 := memory place
  r1 := memory (place + 1)
  r2 := memory (place + 2)
  r3 := memory (place + 3)
  r12 := memory (place + 4)
  lr := memory (place + 5)
  pc := memory (place + 6)
  psr := memory (place + 7)

@[simp] theorem length_words (context : StackContext) : context.words.length = 8 := rfl

end StackContext

/-- `R4 - R11`, the registers that PendSV stores. -/
structure CalleeSaved where
  r4 : BitVec 32
  r5 : BitVec 32
  r6 : BitVec 32
  r7 : BitVec 32
  r8 : BitVec 32
  r9 : BitVec 32
  r10 : BitVec 32
  r11 : BitVec 32
deriving DecidableEq, Repr

namespace CalleeSaved

def words (saved : CalleeSaved) : List (BitVec 32) :=
  [saved.r4, saved.r5, saved.r6, saved.r7, saved.r8, saved.r9, saved.r10, saved.r11]

def load (memory : Nat → BitVec 32) (place : Nat) : CalleeSaved where
  r4 := memory place
  r5 := memory (place + 1)
  r6 := memory (place + 2)
  r7 := memory (place + 3)
  r8 := memory (place + 4)
  r9 := memory (place + 5)
  r10 := memory (place + 6)
  r11 := memory (place + 7)

@[simp] theorem length_words (saved : CalleeSaved) : saved.words.length = 8 := rfl

end CalleeSaved

/-! ## Exceptions -/

/-- What the processor stores below the stack pointer. With `stkAlign`, the `STKALIGN` bit, it leaves
a word free where the place would not be a multiple of eight bytes, and says so in bit 9. -/
def pushFrame (stkAlign : Bool) (memory : Nat → BitVec 32) (psp : Nat) (context : StackContext) :
    (Nat → BitVec 32) × Nat :=
  let odd := stkAlign && psp % 2 == 1
  let frame := if odd then psp - 9 else psp - 8
  let psr := context.psr &&& ~~~0x200#32 ||| if odd then 0x200#32 else 0#32
  (storeWords memory frame { context with psr }.words, frame)

/-- What the processor loads when it leaves an exception. -/
def popFrame (stkAlign : Bool) (memory : Nat → BitVec 32) (frame : Nat) : StackContext × Nat :=
  let context := StackContext.load memory frame
  ({ context with psr := context.psr &&& ~~~0x200#32 },
    if stkAlign && context.psr.getLsbD 9 then frame + 9 else frame + 8)

/-- What the processor executes. -/
inductive CpuMode where
  /-- The program that starts the scheduler, which has a stack of its own. -/
  | main
  | thread
  /-- A handler. -/
  | handler
  /-- `PendSV_Handler` up to where it disables interrupts. -/
  | pendSv
deriving DecidableEq, Repr

/-- The processor, the stacks of the threads, and the variables of `cpuport.c`. -/
structure Cpu (Thread : Type u) where
  mode : CpuMode
  context : StackContext
  saved : CalleeSaved
  psp : Nat
  primask : Bool
  pendSvSet : Bool
  memory : Nat → BitVec 32
  /-- `rt_thread_switch_interrupt_flag`. -/
  switchInterruptFlag : Bool
  /-- `rt_interrupt_from_thread`, the thread whose `sp` it points to. -/
  interruptFromThread : Option Thread
  /-- `rt_interrupt_to_thread`. -/
  interruptToThread : Option Thread
  /-- The field `sp` of the threads. -/
  sp : Thread → Nat

/-- The parameters of `rt_hw_stack_init`. -/
structure ThreadEntry where
  tentry : BitVec 32
  parameter : BitVec 32
  texit : BitVec 32
deriving DecidableEq, Repr

namespace ThreadEntry

/-- The registers with which a thread begins. -/
def context (entry : ThreadEntry) : StackContext where
  r0 := entry.parameter
  r1 := 0
  r2 := 0
  r3 := 0
  r12 := 0
  lr := entry.texit
  pc := entry.tentry
  psr := 0x01000000

end ThreadEntry

/-- `rt_hw_stack_init`, which stores downwards from the last word of the stack. -/
def rtHwStackInit (memory : Nat → BitVec 32) (entry : ThreadEntry) (stackAddr : Nat) :
    (Nat → BitVec 32) × Nat :=
  let stk := stackAddr - 15
  (storeWords memory stk
    ([0, 0, 0, 0, 0, 0, 0, 0] ++ [entry.parameter, 0, 0, 0, 0, entry.texit, entry.tentry, 0x01000000]),
    stk)

namespace Cpu

variable {Thread : Type u}

/-- `rt_hw_context_switch` and `rt_hw_context_switch_interrupt`. -/
def rtHwContextSwitch (cpu : Cpu Thread) (fromThread toThread : Thread) : Cpu Thread :=
  let cpu :=
    if cpu.switchInterruptFlag then cpu
    else { cpu with switchInterruptFlag := true, interruptFromThread := some fromThread }
  { cpu with interruptToThread := some toThread, pendSvSet := true }

/-- `rt_hw_context_switch_to`. -/
def rtHwContextSwitchTo (cpu : Cpu Thread) (toThread : Thread) : Cpu Thread :=
  { cpu with
    interruptToThread := some toThread
    interruptFromThread := none
    switchInterruptFlag := true
    pendSvSet := true
    primask := false }

/-- `R4 - R11` go onto the stack of the thread that is left, if there is one. -/
def saveFromThread [DecidableEq Thread] (cpu : Cpu Thread) : Cpu Thread :=
  match cpu.interruptFromThread with
  | none => cpu
  | some fromThread =>
      let r1 := cpu.psp - 8
      { cpu with
        memory := storeWords cpu.memory r1 cpu.saved.words
        sp := Function.update cpu.sp fromThread r1 }

/-- `PendSV_Handler` from where it disables interrupts. -/
def pendSvHandler [DecidableEq Thread] (cpu : Cpu Thread) : Option (Cpu Thread) :=
  if cpu.switchInterruptFlag then
    let cpu := { cpu with switchInterruptFlag := false }.saveFromThread
    cpu.interruptToThread.map fun toThread =>
      let r1 := cpu.sp toThread
      { cpu with saved := CalleeSaved.load cpu.memory r1, psp := r1 + 8 }
  else some cpu

end Cpu

/-! ## Steps -/

inductive CpuAction (Thread : Type u) where
  /-- `rt_hw_stack_init` for a thread. -/
  | create (thread : Thread) (entry : ThreadEntry)
  /-- `rt_hw_context_switch_to`. -/
  | begin (toThread : Thread)
  /-- The code of a thread computes: some words leave its stack and others come onto it. -/
  | run (popped : Nat) (pushed : List (BitVec 32)) (context : StackContext) (saved : CalleeSaved)
  /-- `rt_hw_interrupt_disable`, or `rt_hw_interrupt_enable` with a level. -/
  | mask (primask : Bool)
  /-- `rt_hw_context_switch`, or `rt_hw_context_switch_interrupt`. -/
  | switch (fromThread toThread : Thread)
  /-- An exception is taken. -/
  | enter
  /-- The code of a handler computes, which keeps `R4 - R11`. -/
  | handle (context : StackContext)
  /-- PendSV is the next exception, as no other is left. -/
  | pendSv
  /-- `PendSV_Handler` disables interrupts and does its work. -/
  | serve
  /-- The last exception returns. -/
  | leave

/-- What the code of a thread finds in the registers and on its stack. -/
structure ThreadSees where
  context : StackContext
  saved : CalleeSaved
  popped : List (BitVec 32)
deriving DecidableEq, Repr

/-- The stacks of the threads: the place behind the last word, and the number of words. -/
structure StackLayout (Thread : Type u) where
  top : Thread → Nat
  size : Thread → Nat
  fits : ∀ thread, size thread ≤ top thread
  apart : ∀ thread other, thread ≠ other →
    top thread ≤ top other - size other ∨ top other ≤ top thread - size thread

variable {Thread : Type u} [DecidableEq Thread]

/-- The processor. -/
def cpuMachine (stkAlign : Bool) (layout : StackLayout Thread) :
    Machine (Cpu Thread) (CpuAction Thread) ThreadSees where
  step cpu
    | .create thread entry =>
        let (memory, stk) := rtHwStackInit cpu.memory entry (layout.top thread - 1)
        if cpu.mode = .main ∨ cpu.mode = .thread then
          some ({ cpu with memory, sp := Function.update cpu.sp thread stk }, [])
        else none
    | .begin toThread =>
        if cpu.mode = .main then
          some ({ cpu.rtHwContextSwitchTo toThread with mode := .handler }, [])
        else none
    | .run popped pushed context saved =>
        if cpu.mode = .thread then
          let psp := cpu.psp + popped - pushed.length
          some ({ cpu with context, saved, psp, memory := storeWords cpu.memory psp pushed },
            [⟨cpu.context, cpu.saved, loadWords cpu.memory cpu.psp popped⟩])
        else none
    | .mask primask =>
        if cpu.mode = .thread then some ({ cpu with primask }, []) else none
    | .switch fromThread toThread =>
        if cpu.mode = .main then none
        else some (cpu.rtHwContextSwitch fromThread toThread, [])
    | .enter =>
        if cpu.mode = .thread ∧ cpu.primask = false then
          let (memory, psp) := pushFrame stkAlign cpu.memory cpu.psp cpu.context
          some ({ cpu with memory, psp, mode := .handler }, [])
        else none
    | .handle context =>
        if cpu.mode = .handler ∨ cpu.mode = .pendSv then some ({ cpu with context }, []) else none
    | .pendSv =>
        if cpu.mode = .handler ∧ cpu.pendSvSet then
          some ({ cpu with mode := .pendSv, pendSvSet := false }, [])
        else none
    | .serve =>
        if cpu.mode = .pendSv then
          cpu.pendSvHandler.map fun cpu => ({ cpu with mode := .handler }, [])
        else none
    | .leave =>
        if cpu.mode = .handler ∧ cpu.pendSvSet = false then
          let (context, psp) := popFrame stkAlign cpu.memory cpu.psp
          some ({ cpu with context, psp, mode := .thread }, [])
        else none

/-! ## A processor for each thread -/

/-- The registers and the stack of a thread that nothing else touches. -/
structure ThreadContext where
  context : StackContext
  saved : CalleeSaved
  stack : List (BitVec 32)
deriving DecidableEq, Repr

/-- What the switches are for: each thread has a processor of its own, one of which is running. -/
structure Threads (Thread : Type u) where
  mode : CpuMode
  primask : Bool
  pendSvSet : Bool
  contexts : Thread → Option ThreadContext
  running : Option Thread
  /-- `rt_current_thread`, for which the processor is meant. -/
  current : Option Thread

def ThreadEntry.start (entry : ThreadEntry) : ThreadContext where
  context := entry.context
  saved := ⟨0, 0, 0, 0, 0, 0, 0, 0⟩
  stack := []

def threadsMachine : Machine (Threads Thread) (CpuAction Thread) ThreadSees where
  step threads
    | .create thread entry =>
        if threads.mode = .main ∨ threads.mode = .thread then
          some ({ threads with
            contexts := Function.update threads.contexts thread (some entry.start) }, [])
        else none
    | .begin toThread =>
        if threads.mode = .main then
          some ({ threads with
            mode := .handler, pendSvSet := true, primask := false, current := some toThread }, [])
        else none
    | .run popped pushed context saved =>
        match threads.mode, threads.running with
        | .thread, some thread =>
            (threads.contexts thread).map fun own =>
              ({ threads with
                contexts := Function.update threads.contexts thread
                  (some ⟨context, saved, pushed ++ own.stack.drop popped⟩) },
              [⟨own.context, own.saved, own.stack.take popped⟩])
        | _, _ => none
    | .mask primask =>
        if threads.mode = .thread then some ({ threads with primask }, []) else none
    | .switch _ toThread =>
        if threads.mode = .main then none
        else some ({ threads with pendSvSet := true, current := some toThread }, [])
    | .enter =>
        if threads.mode = .thread ∧ threads.primask = false then
          some ({ threads with mode := .handler }, [])
        else none
    | .handle _ =>
        if threads.mode = .handler ∨ threads.mode = .pendSv then some (threads, []) else none
    | .pendSv =>
        if threads.mode = .handler ∧ threads.pendSvSet then
          some ({ threads with mode := .pendSv, pendSvSet := false }, [])
        else none
    | .serve =>
        if threads.mode = .pendSv then
          some ({ threads with mode := .handler, running := threads.current }, [])
        else none
    | .leave =>
        if threads.mode = .handler ∧ threads.pendSvSet = false then
          some ({ threads with mode := .thread }, [])
        else none

omit [DecidableEq Thread] in
/-- The processor after a reset, when the variables are zero. -/
structure Cpu.Boots (cpu : Cpu Thread) : Prop where
  mode : cpu.mode = .main
  switchInterruptFlag : cpu.switchInterruptFlag = false
  interruptToThread : cpu.interruptToThread = none

omit [DecidableEq Thread] in
/-- No thread has been created. -/
def Cpu.unshared (cpu : Cpu Thread) : Threads Thread where
  mode := cpu.mode
  primask := cpu.primask
  pendSvSet := cpu.pendSvSet
  contexts _ := none
  running := none
  current := none

/-- What the kernel and the threads keep to: only threads that have been created are switched to,
the kernel says which one it leaves, and the stacks have room for what an exception and PendSV
store. -/
def Threads.Obeys (layout : StackLayout Thread) (threads : Threads Thread) :
    CpuAction Thread → Prop
  | .create thread _ => threads.running ≠ some thread ∧ 17 ≤ layout.size thread
  | .begin toThread => threads.contexts toThread ≠ none
  | .run popped pushed context _ =>
      context.psr.getLsbD 9 = false ∧
        ∀ thread ∈ threads.running, ∀ own ∈ threads.contexts thread, popped ≤ own.stack.length ∧
          pushed.length + (own.stack.length - popped) + 17 ≤ layout.size thread
  | .switch fromThread toThread =>
      threads.current = some fromThread ∧ threads.contexts toThread ≠ none
  | _ => True

instance (layout : StackLayout Thread) (threads : Threads Thread) :
    (action : CpuAction Thread) → Decidable (threads.Obeys layout action)
  | .create _ _ => inferInstanceAs (Decidable (_ ∧ _))
  | .begin _ => inferInstanceAs (Decidable (_ ≠ _))
  | .run _ _ _ _ => inferInstanceAs (Decidable (_ ∧ ∀ _ ∈ threads.running, ∀ _ ∈ _, _ ∧ _))
  | .switch _ _ => inferInstanceAs (Decidable (_ ∧ _))
  | .mask _ | .enter | .handle _ | .pendSv | .serve | .leave => .isTrue trivial

end RtThread
