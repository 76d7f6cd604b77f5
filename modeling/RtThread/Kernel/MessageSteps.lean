import RtThread.Kernel.MessageNodes

/-!
# Steps of a message queue

`MessageFlow` is what a message queue is for: messages come in at the end, or at
the beginning when they are urgent, and each receiver takes the first one and
stores it for its caller. Every step of the code is a step of it.
-/

namespace RtThread

open RtThread.Std

structure MessageFlow where
  queue : List (List (BitVec 8))
  /-- The message that a receiver has taken and not yet stored. -/
  inHand : Context → Option (List (BitVec 8))

namespace MessageFlow

/-- A caller's buffer begins with the message, as far as there is room for it. -/
def after (flow : MessageFlow) : MqEvent → Option MessageFlow
  | .linked true message => some { flow with queue := message :: flow.queue }
  | .linked false message => some { flow with queue := flow.queue ++ [message] }
  | .unlinked context =>
    match flow.queue with
    | [] => none
    | message :: queue => some ⟨queue, Function.update flow.inHand context (some message)⟩
  | .received context size bytes => do
    let message ← flow.inHand context
    if bytes.take message.length = message.take size then
      some { flow with inHand := Function.update flow.inHand context none }
    else none
  | .emptied => some { flow with queue := [] }
  | .returned _ _ _ => some flow

/-- Nothing has been sent yet. -/
def initial : MessageFlow := ⟨[], fun _ => none⟩

/-- What the events make of an empty flow. -/
def ofEvents (events : List MqEvent) : Option MessageFlow := events.foldlM after initial

end MessageFlow

/-! ## The invariant -/

/-- The message that the call has in its hands. -/
def MqPoint.msg : MqPoint → Option Nat
  | .clear msg | .fill msg _ | .drain msg _ => some msg
  | _ => none

def MqFrame.msg (frame : Option MqFrame) : Option Nat := frame.bind fun frame => frame.point.msg

def MqSystem.hands (system : MqSystem) (context : Context) : Option Nat :=
  MqFrame.msg (system.frames context)

/-- The node holds the message. -/
def Stores (mq : MessageQueue) (msg : Nat) (message : List (BitVec 8)) : Prop :=
  message.length ≤ mq.msgSize.toNat ∧
    ∀ (index : Nat) (bound : index < message.length), mq.data msg index = message[index]

/-- What is true of the node that a call has in its hands. -/
inductive MqFrameFits (mq : MessageQueue) : Option (List (BitVec 8)) → Option MqFrame → Prop where
  | idle : MqFrameFits mq none none
  | empty {frame : MqFrame} (nothing : frame.point.msg = none) : MqFrameFits mq none (some frame)
  | clear {buffer : List (BitVec 8)} {tickDelta : BitVec 32} {msg : Nat}
      (fits : buffer.length ≤ mq.msgSize.toNat) :
      MqFrameFits mq none (some ⟨.send buffer, tickDelta, .clear msg⟩)
  | fill {call : MqCall} {tickDelta : BitVec 32} {msg count : Nat}
      (sends : call = .send call.buffer ∨ call = .urgent call.buffer)
      (fits : call.buffer.length ≤ mq.msgSize.toNat)
      (cleared : call = .send call.buffer → mq.next msg = 0)
      (copied : ∀ (index : Nat) (bound : index < call.buffer.length), index < count →
        mq.data msg index = call.buffer[index]) :
      MqFrameFits mq none (some ⟨call, tickDelta, .fill msg count⟩)
  | drain {size : Nat} {timeout tickDelta : BitVec 32} {msg : Nat} {taken message : List (BitVec 8)}
      (stored : Stores mq msg message) (room : taken.length ≤ size)
      (copied : ∀ (index : Nat) (bound : index < taken.length), taken[index] = mq.data msg index) :
      MqFrameFits mq (some message) (some ⟨.recv size timeout, tickDelta, .drain msg taken⟩)

/-- The system has come as far as the flow. -/
structure MqInv (pool : Nat × BitVec 16 × BitVec 16) (system : MqSystem) (flow : MessageFlow)
    (free queue : List Nat) : Prop where
  pool : system.mq.pool = pool
  lists : MqLists system.mq system.hands free queue
  queued : List.Forall₂ (Stores system.mq) queue flow.queue
  frames : ∀ context, MqFrameFits system.mq (flow.inHand context) (system.frames context)

section

variable {pool : Nat × BitVec 16 × BitVec 16} {mq mq' : MessageQueue} {system : MqSystem}
  {flow flow' : MessageFlow}
  {free queue free' queue' : List Nat} {context : Context} {kernel : Kernel}
  {frame : Option MqFrame} {message : List (BitVec 8)} {msg : Nat}

theorem Stores.congr (stores : Stores mq msg message) (size : mq'.msgSize = mq.msgSize)
    (data : mq'.data msg = mq.data msg) : Stores mq' msg message := by
  refine ⟨by rw [size]; exact stores.1, fun index bound => ?_⟩
  rw [data]
  exact stores.2 index bound

theorem MqFrameFits.congr {inHand : Option (List (BitVec 8))} (fits : MqFrameFits mq inHand frame)
    (size : mq'.msgSize = mq.msgSize)
    (same : ∀ msg, MqFrame.msg frame = some msg →
      mq'.next msg = mq.next msg ∧ mq'.data msg = mq.data msg) :
    MqFrameFits mq' inHand frame := by
  cases fits with
  | idle => exact .idle
  | empty nothing => exact .empty nothing
  | clear fits => exact .clear (by rwa [size])
  | @fill call tickDelta msg count sends fits cleared copied =>
      obtain ⟨next, data⟩ := same msg rfl
      refine .fill sends (by rwa [size]) ?_ ?_
      · rw [next]
        exact cleared
      · rw [data]
        exact copied
  | @drain reader timeout tickDelta msg taken message stored room copied =>
      obtain ⟨-, data⟩ := same msg rfl
      refine .drain (stored.congr size data) room ?_
      rw [data]
      exact copied

theorem MqSystem.hands_setFrame (system : MqSystem) (context : Context) (kernel : Kernel)
    (mq : MessageQueue) (frame : Option MqFrame) :
    (system.setFrame context kernel mq frame).hands =
      Function.update system.hands context (MqFrame.msg frame) := by
  funext other
  by_cases same : other = context
  · subst same
    simp [MqSystem.hands, MqSystem.setFrame]
  · simp [MqSystem.hands, MqSystem.setFrame, same]

/-- A step of one context, which writes at most the node in its hands and the
pointers of the lists. -/
theorem MqInv.setFrame (inv : MqInv pool system flow free queue)
    (lists : MqLists mq' (Function.update system.hands context (MqFrame.msg frame)) free' queue')
    (queued : List.Forall₂ (Stores mq') queue' flow'.queue)
    (own : MqFrameFits mq' (flow'.inHand context) frame)
    (others : ∀ other, other ≠ context → flow'.inHand other = flow.inHand other)
    (kept : mq'.pool = system.mq.pool)
    (same : ∀ other msg, other ≠ context → system.hands other = some msg →
      mq'.next msg = system.mq.next msg ∧ mq'.data msg = system.mq.data msg) :
    MqInv pool (system.setFrame context kernel mq' frame) flow' free' queue' := by
  refine ⟨kept.trans inv.pool, by rwa [MqSystem.hands_setFrame], queued, fun other => ?_⟩
  by_cases apart : other = context
  · subst apart
    simpa [MqSystem.setFrame] using own
  · have unmoved : (system.setFrame context kernel mq' frame).frames other =
        system.frames other := Function.update_of_ne apart ..
    rw [unmoved, others other apart]
    exact (inv.frames other).congr (MessageQueue.msgSize_congr kept) fun msg held =>
      same other msg apart held

/-- A context without a message in its hands only changes its frame. -/
theorem MqInv.setIdle (inv : MqInv pool system flow free queue) (idle : system.hands context = none)
    (nothing : flow.inHand context = none) (empty : MqFrame.msg frame = none) :
    MqInv pool (system.setFrame context kernel system.mq frame) flow free queue := by
  refine inv.setFrame ?_ inv.queued ?_ (fun _ _ => rfl) rfl fun _ _ _ _ => ⟨rfl, rfl⟩
  · rw [empty, ← idle, Function.update_eq_self]
    exact inv.lists
  · rw [nothing]
    cases frame with
    | none => exact .idle
    | some frame => exact .empty empty

/-- What a step has to show: its events are possible in the flow, and they lead
to a flow that the system has come as far as. -/
def MqMoves (pool : Nat × BitVec 16 × BitVec 16) (flow : MessageFlow) (emitted : List MqEvent)
    (next : MqSystem) : Prop :=
  ∃ flow' free queue, emitted.foldlM MessageFlow.after flow = some flow' ∧
    MqInv pool next flow' free queue

theorem suspendOn_onMq {next : Kernel} {list : WaitList} {thread : ThreadId} {flag : IpcFlag}
    {time : BitVec 32} {outcome : Outcome}
    (step : suspendOn kernel list thread flag time = some (next, outcome)) :
    outcome.onMq = .goesOn .suspended := by
  obtain ⟨suspended, -, step⟩ := Option.bind_eq_some_iff.mp step
  split at step
  · obtain ⟨⟨result, started⟩, -, done⟩ := Option.bind_eq_some_iff.mp step
    obtain ⟨-, rfl⟩ := Prod.mk.inj (Option.some_inj.mp done)
    rfl
  · obtain ⟨-, rfl⟩ := Prod.mk.inj (Option.some_inj.mp step)
    rfl

/-- The section of `rt_mq_recv`. -/
theorem MqInv.recvRound {size : Nat} {timeout timeout' : BitVec 32}
    {result : Kernel × MessageQueue × MqOutcome} (inv : MqInv pool system flow free queue)
    (idle : system.hands context = none) (nothing : flow.inHand context = none)
    (round : rtMqRecvRound system.kernel system.mq context timeout = some result) :
    MqMoves pool flow (MqSystem.marks context (.recv size timeout') result.2.2 ++
        (system.settle context (.recv size timeout) result).2)
      (system.settle context (.recv size timeout) result).1 := by
  unfold rtMqRecvRound at round
  split at round
  · cases context with
    | handler index => cases round
    | thread thread =>
        dsimp only at round
        split at round
        · obtain rfl := Option.some_inj.mp round
          exact ⟨flow, free, queue, rfl, inv.setIdle idle nothing rfl⟩
        · obtain ⟨⟨suspended, outcome⟩, step, done⟩ := Option.bind_eq_some_iff.mp round
          obtain rfl := Option.some_inj.mp done
          rw [suspendOn_onMq step]
          exact ⟨flow, free, queue, rfl, inv.setIdle idle nothing rfl⟩
  · rename_i nonempty
    obtain rfl := Option.some_inj.mp round
    obtain ⟨rest, rfl, lists⟩ := inv.lists.unlinkHead idle nonempty
    have queued := inv.queued
    generalize messages : flow.queue = contents at queued
    cases queued with
    | @cons _ message _ contents stored queued =>
        refine ⟨⟨contents, Function.update flow.inHand context (some message)⟩, free, rest, ?_,
          inv.setFrame lists queued ?_ ?_ rfl fun _ _ _ _ => ⟨rfl, rfl⟩⟩
        · simp [MqSystem.marks, MqSystem.settle, MessageFlow.after, messages]
        · simpa using .drain stored (Nat.zero_le size) nofun
        · exact fun other apart => Function.update_of_ne apart ..

/-- The first section of `rt_mq_send` and `rt_mq_urgent`. -/
theorem MqInv.sendBegin {call : MqCall} {onward : Nat → MqPoint}
    (inv : MqInv pool system flow free queue)
    (idle : system.hands context = none) (nothing : flow.inHand context = none)
    (holds : ∀ msg, (onward msg).msg = some msg)
    (begins : call.buffer.length ≤ system.mq.msgSize.toNat → ∀ mq : MessageQueue,
      mq.msgSize = system.mq.msgSize → ∀ msg,
        MqFrameFits mq none (some ⟨call, system.kernel.rtTick, onward msg⟩))
    (silent : ∀ outcome, MqSystem.marks context call outcome = []) :
    MqMoves pool flow (MqSystem.marks context call (rtMqSendBegin system.mq call.buffer onward).2 ++
        (system.settle context call
          (system.kernel, rtMqSendBegin system.mq call.buffer onward)).2)
      (system.settle context call (system.kernel, rtMqSendBegin system.mq call.buffer onward)).1 := by
  rw [silent, List.nil_append]
  unfold rtMqSendBegin
  split
  · exact ⟨flow, free, queue, rfl, inv.setIdle idle nothing rfl⟩
  rename_i fits
  split
  · exact ⟨flow, free, queue, rfl, inv.setIdle idle nothing rfl⟩
  · rename_i available
    obtain ⟨rest, rfl, lists⟩ := inv.lists.takeFree idle available
    refine ⟨flow, rest, queue, rfl, inv.setFrame ?_ inv.queued ?_ (fun _ _ => rfl) rfl
      fun _ _ _ _ => ⟨rfl, rfl⟩⟩
    · rw [show MqFrame.msg (some ⟨call, system.kernel.rtTick, onward system.mq.msgQueueFree⟩) =
        some system.mq.msgQueueFree from holds _]
      exact lists
    · rw [nothing]
      exact begins (Nat.le_of_not_lt fits) system.mq.takeFree rfl _

/-- `RT_IPC_CMD_RESET` empties the queue; other commands are refused. -/
theorem MqInv.control {cmd : BitVec 8} {result : Kernel × MessageQueue × MqOutcome}
    (inv : MqInv pool system flow free queue)
    (idle : system.hands context = none) (nothing : flow.inHand context = none)
    (step : rtMqControl system.kernel system.mq cmd = some result) :
    MqMoves pool flow (MqSystem.marks context (.control cmd) result.2.2 ++
        (system.settle context (.control cmd) result).2)
      (system.settle context (.control cmd) result).1 := by
  unfold rtMqControl at step
  split at step
  · obtain ⟨woken, -, step⟩ := Option.bind_eq_some_iff.mp step
    obtain ⟨released, loop, done⟩ := Option.bind_eq_some_iff.mp step
    obtain rfl := Option.some_inj.mp done
    obtain ⟨released', loop', lists, data, kept, next⟩ :=
      @MqLists.releaseMessages system.mq _ _ _ system.mq.entry inv.lists
    obtain rfl := Option.some_inj.mp (loop.symm.trans loop')
    refine ⟨{ flow with queue := [] }, queue.reverse ++ free, [], rfl,
      inv.setFrame ?_ .nil ?_ (fun _ _ => rfl) kept ?_⟩
    · rw [show MqFrame.msg (some ⟨.control cmd, woken.rtTick, .reschedule⟩) = none from rfl,
        ← idle, Function.update_eq_self]
      exact lists
    · rw [nothing]
      exact .empty rfl
    · intro other msg _ held
      exact ⟨next other msg held, congrFun data msg⟩
  · obtain rfl := Option.some_inj.mp step
    exact ⟨flow, free, queue, rfl, inv.setIdle idle nothing rfl⟩

/-- The first section of any call. -/
theorem MqInv.enter {call : MqCall} {result : MqSystem × List MqEvent}
    (inv : MqInv pool system flow free queue) (step : system.enter context call = some result) :
    MqMoves pool flow result.2 result.1 := by
  unfold MqSystem.enter at step
  split at step
  case isFalse => cases step
  rename_i guard
  obtain ⟨-, -, vacant⟩ := guard
  have idle : system.hands context = none := by
    rw [MqSystem.hands, vacant]
    rfl
  have nothing : flow.inHand context = none := by
    have fits := inv.frames context
    rw [vacant] at fits
    generalize flow.inHand context = inHand at fits
    cases fits
    rfl
  obtain ⟨first, section_, done⟩ := Option.bind_eq_some_iff.mp step
  obtain rfl := Option.some_inj.mp done
  cases call with
  | send buffer =>
      obtain rfl := Option.some_inj.mp section_
      exact inv.sendBegin idle nothing (fun _ => rfl)
        (fun fits mq size _ => .clear (by rwa [size])) fun _ => rfl
  | urgent buffer =>
      obtain rfl := Option.some_inj.mp section_
      exact inv.sendBegin idle nothing (fun _ => rfl)
        (fun fits mq size _ => .fill (.inr rfl) (by rwa [size]) nofun nofun) fun _ => rfl
  | recv size timeout =>
      simp only [MqCall.enter, rtMqRecv] at section_
      split at section_
      · obtain rfl := Option.some_inj.mp section_
        exact ⟨flow, free, queue, rfl, inv.setIdle idle nothing rfl⟩
      · exact inv.recvRound idle nothing section_
  | control cmd => exact inv.control idle nothing section_

/-- Writing the node in somebody's hands leaves the nodes of the others alone. -/
theorem MqLists.holds_apart {hands : Context → Option Nat} {other : Context} {node : Nat}
    (lists : MqLists mq hands free queue) (held : hands context = some msg)
    (apart : other ≠ context) (heldToo : hands other = some node) : node ≠ msg := by
  rintro rfl
  exact apart (lists.custody.holder_unique mq.messages_nodup heldToo held)

theorem queued_congr {contents : List (List (BitVec 8))}
    (queued : List.Forall₂ (Stores mq) queue contents) (size : mq'.msgSize = mq.msgSize)
    (data : ∀ node ∈ queue, mq'.data node = mq.data node) :
    List.Forall₂ (Stores mq') queue contents := by
  induction queued with
  | nil => exact .nil
  | cons stored _ ih =>
      refine .cons (stored.congr size (data _ List.mem_cons_self)) (ih fun node member => ?_)
      exact data node (List.mem_cons_of_mem _ member)

/-- A context keeps its node and writes it. -/
theorem MqInv.write (inv : MqInv pool system flow free queue)
    (held : system.hands context = some msg) (lists : MqLists mq' system.hands free queue)
    (own : MqFrameFits mq' (flow.inHand context) frame)
    (keeps : MqFrame.msg frame = some msg) (kept : mq'.pool = system.mq.pool)
    (same : ∀ node, node ≠ msg → mq'.next node = system.mq.next node ∧
      mq'.data node = system.mq.data node) :
    MqInv pool (system.setFrame context kernel mq' frame) flow free queue := by
  refine inv.setFrame ?_ ?_ own (fun _ _ => rfl) kept ?_
  · rw [keeps, ← held, Function.update_eq_self]
    exact lists
  · refine queued_congr inv.queued (MessageQueue.msgSize_congr kept) fun node member =>
      (same node ?_).2
    rintro rfl
    exact (inv.lists.apart held).2 member
  · intro other node apart heldToo
    exact same node (inv.lists.holds_apart held apart heldToo)

/-- `msg->next = RT_NULL`. -/
theorem MqInv.clear {buffer : List (BitVec 8)} {tickDelta : BitVec 32}
    (inv : MqInv pool system flow free queue)
    (at_ : system.frames context = some ⟨.send buffer, tickDelta, .clear msg⟩)
    (nothing : flow.inHand context = none) (fits : buffer.length ≤ system.mq.msgSize.toNat) :
    MqInv pool (system.setFrame context kernel
      { system.mq with next := Function.update system.mq.next msg 0 }
      (some ⟨.send buffer, tickDelta, .fill msg 0⟩)) flow free queue := by
  have held : system.hands context = some msg := by
    rw [MqSystem.hands, at_]
    rfl
  refine inv.write held (inv.lists.setNext held 0) ?_ rfl rfl ?_
  · rw [nothing]
    refine .fill (.inl rfl) fits (fun _ => Function.update_self ..) ?_
    intro index _ before
    cases before
  · intro node apart
    exact ⟨Function.update_of_ne apart .., rfl⟩

/-- A byte is copied to the message. -/
theorem MqInv.fill {call : MqCall} {tickDelta : BitVec 32} {count : Nat} {byte : BitVec 8}
    (inv : MqInv pool system flow free queue)
    (at_ : system.frames context = some ⟨call, tickDelta, .fill msg count⟩)
    (nothing : flow.inHand context = none)
    (sends : call = .send call.buffer ∨ call = .urgent call.buffer)
    (fits : call.buffer.length ≤ system.mq.msgSize.toNat)
    (cleared : call = .send call.buffer → system.mq.next msg = 0)
    (copied : ∀ (index : Nat) (bound : index < call.buffer.length), index < count →
      system.mq.data msg index = call.buffer[index])
    (more : call.buffer[count]? = some byte) :
    MqInv pool (system.setFrame context kernel
      { system.mq with
        data := Function.update system.mq.data msg
          (Function.update (system.mq.data msg) count byte) }
      (some ⟨call, tickDelta, .fill msg (count + 1)⟩)) flow free queue := by
  have held : system.hands context = some msg := by
    rw [MqSystem.hands, at_]
    rfl
  have lists := inv.lists
  refine inv.write held ⟨lists.freeChain, lists.queueChain, lists.tail, lists.entry, lists.custody,
    lists.pool⟩ ?_ rfl rfl ?_
  · rw [nothing]
    refine .fill sends fits cleared ?_
    intro index bound before
    simp only [Function.update_self]
    by_cases last : index = count
    · subst last
      rw [Function.update_self]
      exact (List.getElem_eq_iff bound).mpr more |>.symm
    · rw [Function.update_of_ne last]
      exact copied index bound (by omega)
  · intro node apart
    exact ⟨rfl, Function.update_of_ne apart ..⟩

/-- A byte is copied from the message. -/
theorem MqInv.drain {size : Nat} {timeout tickDelta : BitVec 32} {taken : List (BitVec 8)}
    (inv : MqInv pool system flow free queue)
    (at_ : system.frames context = some ⟨.recv size timeout, tickDelta, .drain msg taken⟩)
    (inHand : flow.inHand context = some message) (stored : Stores system.mq msg message)
    (copied : ∀ (index : Nat) (bound : index < taken.length),
      taken[index] = system.mq.data msg index) (more : taken.length < size) :
    MqInv pool (system.setFrame context kernel system.mq (some ⟨.recv size timeout, tickDelta,
      .drain msg (taken ++ [system.mq.data msg taken.length])⟩)) flow free queue := by
  have held : system.hands context = some msg := by
    rw [MqSystem.hands, at_]
    rfl
  refine inv.write held inv.lists ?_ rfl rfl fun _ _ => ⟨rfl, rfl⟩
  rw [inHand]
  refine .drain stored ?_ ?_
  · rw [List.length_append, List.length_singleton]
    exact more
  · intro index bound
    rw [List.getElem_append]
    split
    · exact copied index _
    · rename_i beyond
      rw [List.length_append, List.length_singleton] at bound
      obtain rfl : index = taken.length := by omega
      simp

/-- The bytes that fit are those of the message. -/
theorem Stores.received {size : Nat} {taken : List (BitVec 8)} (stored : Stores mq msg message)
    (room : taken.length ≤ size)
    (copied : ∀ (index : Nat) (bound : index < taken.length), taken[index] = mq.data msg index)
    (full : ¬ taken.length < min size mq.msgSize.toNat) :
    taken.take message.length = message.take size := by
  obtain ⟨fits, content⟩ := stored
  refine List.ext_getElem ?_ ?_
  · simp only [List.length_take]
    omega
  · intro index bound bound'
    rw [List.length_take] at bound bound'
    rw [List.getElem_take, List.getElem_take, copied index (by omega), content index (by omega)]

/-- The node goes back to the free list. -/
theorem MqInv.put {size : Nat} {timeout tickDelta : BitVec 32} {taken : List (BitVec 8)}
    (inv : MqInv pool system flow free queue)
    (at_ : system.frames context = some ⟨.recv size timeout, tickDelta, .drain msg taken⟩)
    (inHand : flow.inHand context = some message) (stored : Stores system.mq msg message)
    (room : taken.length ≤ size)
    (copied : ∀ (index : Nat) (bound : index < taken.length),
      taken[index] = system.mq.data msg index)
    (full : ¬ taken.length < min size system.mq.msgSize.toNat) (result : Err) :
    MqMoves pool flow [.received context size taken, .returned context (.recv size timeout) result]
      (system.setFrame context kernel (system.mq.putFree msg) none) := by
  have held : system.hands context = some msg := by
    rw [MqSystem.hands, at_]
    rfl
  refine ⟨{ flow with inHand := Function.update flow.inHand context none }, msg :: free, queue, ?_,
    inv.setFrame (inv.lists.putFree held) (queued_congr inv.queued rfl fun _ _ => rfl) ?_ ?_ rfl ?_⟩
  · simp [MessageFlow.after, inHand, stored.received room copied full]
  · simpa using MqFrameFits.idle
  · exact fun other apart => Function.update_of_ne apart ..
  · intro other node apart heldToo
    exact ⟨Function.update_of_ne (inv.lists.holds_apart held apart heldToo) .., rfl⟩

@[simp] theorem MessageQueue.linkTail_data (mq : MessageQueue) (msg : Nat) :
    (mq.linkTail msg).data = mq.data := by
  unfold MessageQueue.linkTail
  dsimp only
  split <;> split <;> rfl

@[simp] theorem MessageQueue.linkTail_pool (mq : MessageQueue) (msg : Nat) :
    (mq.linkTail msg).pool = mq.pool := by
  unfold MessageQueue.linkTail
  dsimp only
  split <;> split <;> rfl

theorem MessageQueue.linkTail_next {node : Nat} (apart : node ≠ mq.msgQueueTail) :
    (mq.linkTail msg).next node = mq.next node := by
  have update := Function.update_of_ne apart msg mq.next
  unfold MessageQueue.linkTail
  dsimp only
  split <;> split <;> first | exact update | rfl

@[simp] theorem MessageQueue.linkHead_data (mq : MessageQueue) (msg : Nat) :
    (mq.linkHead msg).data = mq.data := by
  unfold MessageQueue.linkHead
  dsimp only
  split <;> rfl

@[simp] theorem MessageQueue.linkHead_pool (mq : MessageQueue) (msg : Nat) :
    (mq.linkHead msg).pool = mq.pool := by
  unfold MessageQueue.linkHead
  dsimp only
  split <;> rfl

theorem MessageQueue.linkHead_next {node : Nat} (apart : node ≠ msg) :
    (mq.linkHead msg).next node = mq.next node := by
  have update := Function.update_of_ne apart mq.msgQueueHead mq.next
  unfold MessageQueue.linkHead
  dsimp only
  split <;> exact update

/-- What somebody has in hand is not the last queued node. -/
theorem MqLists.ne_tail {hands : Context → Option Nat} (lists : MqLists mq hands free queue)
    (held : hands context = some msg) : msg ≠ mq.msgQueueTail := by
  rw [lists.tail]
  rintro rfl
  cases last : queue.getLast? with
  | none =>
      rw [last] at held
      exact lists.held_ne_zero held rfl
  | some node =>
      rw [last] at held
      exact (lists.apart held).2 (List.mem_of_getLast? last)

/-- A section with one event after which the call has no node, however it ends. -/
theorem MqMoves.settle {call : MqCall} {event : MqEvent} (outcome : Outcome)
    (possible : flow.after event = some flow')
    (empty : ∀ frame, MqFrame.msg frame = none →
      MqInv pool (system.setFrame context kernel mq' frame) flow' free' queue') :
    MqMoves pool flow (event :: (system.settle context call (kernel, mq', outcome.onMq)).2)
      (system.settle context call (kernel, mq', outcome.onMq)).1 := by
  refine ⟨flow', free', queue', ?_, ?_⟩
  · rw [List.foldlM_cons, possible]
    cases outcome <;> rfl
  · cases outcome with
    | returns result output => exact empty none rfl
    | suspends timer => exact empty (some ⟨call, kernel.rtTick, .suspended⟩) rfl
    | reschedules output => exact empty (some ⟨call, kernel.rtTick, .reschedule⟩) rfl

/-- The second section of `rt_mq_send` and `rt_mq_urgent`. -/
theorem MqInv.link {call : MqCall} {tickDelta : BitVec 32} {count : Nat}
    {result : Kernel × MessageQueue × MqOutcome} (inv : MqInv pool system flow free queue)
    (at_ : system.frames context = some ⟨call, tickDelta, .fill msg count⟩)
    (nothing : flow.inHand context = none)
    (sends : call = .send call.buffer ∨ call = .urgent call.buffer)
    (cleared : call = .send call.buffer → system.mq.next msg = 0)
    (stored : Stores system.mq msg call.buffer)
    (step : call.link system.kernel system.mq msg = some result) :
    MqMoves pool flow (.linked call.isUrgent call.buffer ::
      (system.settle context call result).2) (system.settle context call result).1 := by
  have held : system.hands context = some msg := by
    rw [MqSystem.hands, at_]
    rfl
  obtain ⟨⟨woken, outcome⟩, -, done⟩ := Option.bind_eq_some_iff.mp step
  obtain rfl := Option.some_inj.mp done
  have own : ∀ mq frame, MqFrame.msg frame = none →
      MqFrameFits mq (flow.inHand context) frame := by
    intro mq frame empty
    rw [nothing]
    cases frame with
    | none => exact .idle
    | some frame => exact .empty empty
  cases call with
  | send buffer =>
      have linked : ∀ frame, MqFrame.msg frame = none →
          MqInv pool (system.setFrame context woken (system.mq.linkTail msg) frame)
            ⟨flow.queue ++ [buffer], flow.inHand⟩ free (queue ++ [msg]) := by
        intro frame empty
        have same := MessageQueue.msgSize_congr (system.mq.linkTail_pool msg)
        refine inv.setFrame (empty ▸ inv.lists.linkTail held (cleared rfl)) ?_ (own _ _ empty)
          (fun _ _ => rfl) (by simp) ?_
        · refine List.rel_append (queued_congr inv.queued same fun _ _ => by simp) ?_
          exact .cons (stored.congr same (by simp)) .nil
        · intro other node apart heldToo
          exact ⟨MessageQueue.linkTail_next (inv.lists.ne_tail heldToo), by simp⟩
      exact MqMoves.settle outcome rfl linked
  | urgent buffer =>
      have linked : ∀ frame, MqFrame.msg frame = none →
          MqInv pool (system.setFrame context woken (system.mq.linkHead msg) frame)
            ⟨buffer :: flow.queue, flow.inHand⟩ free (msg :: queue) := by
        intro frame empty
        have same := MessageQueue.msgSize_congr (system.mq.linkHead_pool msg)
        refine inv.setFrame (empty ▸ inv.lists.linkHead held) ?_ (own _ _ empty)
          (fun _ _ => rfl) (by simp) ?_
        · exact .cons (stored.congr same (by simp))
            (queued_congr inv.queued same fun _ _ => by simp)
        · intro other node apart heldToo
          exact ⟨MessageQueue.linkHead_next (inv.lists.holds_apart held apart heldToo), by simp⟩
      exact MqMoves.settle outcome rfl linked
  | recv size timeout => simp at sends
  | control cmd => simp at sends

/-- Any step of a call. -/
theorem MqInv.advanceFrame {current : MqFrame} {result : MqSystem × List MqEvent}
    (inv : MqInv pool system flow free queue) (at_ : system.frames context = some current)
    (step : system.advanceFrame context current = some result) :
    MqMoves pool flow result.2 result.1 := by
  have fits := inv.frames context
  rw [at_] at fits
  generalize inHand : flow.inHand context = message at fits
  cases fits with
  | clear fits =>
      obtain rfl := Option.some_inj.mp step
      exact ⟨flow, free, queue, rfl, inv.clear at_ inHand fits⟩
  | @fill call tickDelta msg count sends fits cleared copied =>
      simp only [MqSystem.advanceFrame] at step
      split at step
      · rename_i more
        obtain rfl := Option.some_inj.mp step
        exact ⟨flow, free, queue, rfl, inv.fill at_ inHand sends fits cleared copied more⟩
      · rename_i complete
        obtain ⟨linked, section_, done⟩ := Option.bind_eq_some_iff.mp step
        obtain rfl := Option.some_inj.mp done
        have beyond := List.getElem?_eq_none_iff.mp complete
        have stored : Stores system.mq msg call.buffer :=
          ⟨fits, fun index bound => copied index bound (by omega)⟩
        exact inv.link at_ inHand sends cleared stored section_
  | @drain size timeout tickDelta msg taken message stored room copied =>
      simp only [MqSystem.advanceFrame] at step
      split at step
      · rename_i more
        obtain rfl := Option.some_inj.mp step
        refine ⟨flow, free, queue, rfl, ?_⟩
        exact inv.drain at_ inHand stored copied (Nat.lt_of_lt_of_le more (Nat.min_le_left ..))
      · rename_i full
        obtain rfl := Option.some_inj.mp step
        exact inv.put at_ inHand stored room copied full .eok
  | empty nothing =>
      have idle : system.hands context = none := by
        rw [MqSystem.hands, at_]
        exact nothing
      have stays : ∀ kernel frame, MqFrame.msg frame = none →
          MqInv pool (system.setFrame context kernel system.mq frame) flow free queue :=
        fun kernel frame empty => inv.setIdle idle inHand empty
      obtain ⟨call, tickDelta, point⟩ := current
      cases point with
      | clear msg => simp [MqPoint.msg] at nothing
      | fill msg count => simp [MqPoint.msg] at nothing
      | drain msg taken => simp [MqPoint.msg] at nothing
      | suspended =>
          obtain rfl := Option.some_inj.mp step
          exact ⟨flow, free, queue, rfl, stays _ _ rfl⟩
      | reschedule =>
          obtain rfl := Option.some_inj.mp step
          exact ⟨flow, free, queue, rfl, stays _ _ rfl⟩
      | returning =>
          obtain rfl := Option.some_inj.mp step
          exact ⟨flow, free, queue, rfl, stays _ _ rfl⟩
      | woken =>
          cases context with
          | handler index => cases step
          | thread thread =>
              obtain rfl := Option.some_inj.mp step
              split
              · exact ⟨flow, free, queue, rfl, stays _ _ rfl⟩
              · exact ⟨flow, free, queue, rfl, stays _ _ rfl⟩
      | again =>
          cases call with
          | send buffer => cases step
          | urgent buffer => cases step
          | control cmd => cases step
          | recv size timeout =>
              obtain ⟨round, section_, done⟩ := Option.bind_eq_some_iff.mp step
              obtain rfl := Option.some_inj.mp done
              exact inv.recvRound idle inHand section_

/-- Any step of the machine. -/
theorem MqInv.step {action : MqAction} {next : MqSystem} {emitted : List MqEvent}
    (inv : MqInv pool system flow free queue)
    (step : mqMachine.step system action = some (next, emitted)) :
    MqMoves pool flow emitted next := by
  cases action with
  | around change =>
      obtain ⟨kernel, -, done⟩ := Option.map_eq_some_iff.mp step
      obtain ⟨rfl, rfl⟩ := Prod.mk.inj done
      exact ⟨flow, free, queue, rfl, inv.pool, inv.lists, inv.queued, inv.frames⟩
  | enter context call => exact inv.enter step
  | advance context =>
      change system.advance context = some (next, emitted) at step
      unfold MqSystem.advance at step
      split at step
      case isFalse => cases step
      obtain ⟨current, at_, step⟩ := Option.bind_eq_some_iff.mp step
      exact inv.advanceFrame at_ step

end

end RtThread
