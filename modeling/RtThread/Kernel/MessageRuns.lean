import RtThread.Kernel.MessageWaits

/-!
# Runs of a message queue

Every run of the calls on a queue that has just been set up is a run of
`MessageFlow`: no message is lost, duplicated, overtaken or changed, and no node
of the pool is lost or in two places.
-/

namespace RtThread

open RtThread.Std

/-- What `rt_mq_init` and `rt_mq_create` build in memory that is not at `RT_NULL`. -/
inductive MessageQueue.Built : MessageQueue → Prop where
  | init (next : Nat → Nat) (data : Nat → Nat → BitVec 8) (msgPool : Nat)
      (msgSize poolSize : BitVec 32) (flag : IpcFlag) (pool : 0 < msgPool) :
      Built (rtMqInit next data msgPool msgSize poolSize flag)
  | create (next : Nat → Nat) (data : Nat → Nat → BitVec 8) (msgPool : Nat)
      (msgSize maxMsgs : BitVec 32) (flag : IpcFlag) (pool : 0 < msgPool) :
      Built (rtMqCreate next data msgPool msgSize maxMsgs flag)

/-- All nodes are free. -/
theorem MessageQueue.Built.lists {mq : MessageQueue} (built : mq.Built) :
    MqLists mq (fun _ => none) mq.messages.reverse [] := by
  cases built with
  | init next data msgPool msgSize poolSize flag pool =>
      exact MqLists.initial _ pool rfl rfl rfl
  | create next data msgPool msgSize maxMsgs flag pool =>
      exact MqLists.initial _ pool rfl rfl rfl

/-- A queue that has just been set up has come as far as the empty flow. -/
theorem MqInv.boot {mq : MessageQueue} (built : mq.Built) (config : Config) :
    MqInv mq.pool (MqSystem.boot config mq) .initial mq.messages.reverse [] :=
  ⟨rfl, built.lists, .nil, fun _ => .idle⟩

theorem MqInv.of_run {config : Config} {mq : MessageQueue} {actions : List MqAction}
    {events : List MqEvent} {system : MqSystem} (built : mq.Built)
    (run : mqMachine.Run (fun _ _ => True) (MqSystem.boot config mq) actions events system) :
    ∃ flow free queue, MessageFlow.ofEvents events = some flow ∧
      MqInv mq.pool system flow free queue := by
  refine @Machine.Run.history _ _ _ _ _ _ _ _ _ (fun events system => ∃ flow free queue,
    MessageFlow.ofEvents events = some flow ∧ MqInv mq.pool system flow free queue) run ?_ ?_
  · exact ⟨_, _, _, rfl, .boot built config⟩
  · rintro events system action next emitted ⟨flow, free, queue, sofar, inv⟩ - step
    obtain ⟨flow', free', queue', onward, inv'⟩ := inv.step step
    refine ⟨flow', free', queue', ?_, inv'⟩
    rw [MessageFlow.ofEvents, List.foldlM_append]
    exact Option.bind_eq_some_iff.mpr ⟨flow, sofar, onward⟩

theorem MqWaits.of_run {config : Config} {mq : MessageQueue} {actions : List MqAction}
    {events : List MqEvent} {system : MqSystem}
    (run : mqMachine.Run (fun _ _ => True) (MqSystem.boot config mq) actions events system) :
    MqWaits system :=
  run.invariant (.boot config mq) fun _ _ _ _ inv _ step => inv.step step

/-- After the events, the queue that was `built` has lost no node and no message. -/
structure MessagesKept (built : MessageQueue) (events : List MqEvent) (system : MqSystem) :
    Prop where
  /-- The nodes of the pool are the same as ever, and as many as there should be. -/
  nodes : system.mq.messages = built.messages ∧ built.messages.Nodup ∧
    built.messages.length = built.maxMsgs.toNat
  /-- The free list, the queue and the hands of the calls share the nodes, `entry`
  and `msg_queue_tail` fit the queue, and the queue is what the events have made of it. -/
  shared : ∃ flow free queue, MessageFlow.ofEvents events = some flow ∧
    MqLists system.mq system.hands free queue ∧
    List.Forall₂ (Stores system.mq) queue flow.queue
  /-- Whoever calls it, `RT_IPC_CMD_RESET` fails the waiters, comes to its end and puts
  every queued node on the free list. -/
  reset : ∀ free queue, MqLists system.mq system.hands free queue →
    ∀ context, context.Running system.kernel → system.frames context = none →
      ∃ next, system.enter context (.control ipcCmdReset) = some (next, [.emptied]) ∧
        MqLists next.mq next.hands (queue.reverse ++ free) []

theorem MqLists.reset {system : MqSystem} {free queue : List Nat} {context : Context}
    (lists : MqLists system.mq system.hands free queue) (waits : MqWaits system)
    (running : context.Running system.kernel) (vacant : system.frames context = none) :
    ∃ next, system.enter context (.control ipcCmdReset) = some (next, [.emptied]) ∧
      MqLists next.mq next.hands (queue.reverse ++ free) [] := by
  have idle : system.hands context = none := by
    rw [MqSystem.hands, vacant]
    rfl
  obtain ⟨woken, resume⟩ := waits.resumeAll
  obtain ⟨released, loop, emptied, -⟩ :=
    @MqLists.releaseMessages system.mq _ _ _ system.mq.entry lists
  have section_ : rtMqControl system.kernel system.mq ipcCmdReset =
      some (woken, { released with entry := 0 }, .goesOn .reschedule) := by
    simp [rtMqControl, resume, loop]
  have same : (system.setFrame context woken { released with entry := 0 }
      (some ⟨.control ipcCmdReset, woken.rtTick, .reschedule⟩)).hands = system.hands := by
    rw [MqSystem.hands_setFrame]
    change Function.update system.hands context none = system.hands
    rw [← idle, Function.update_eq_self]
  refine ⟨system.setFrame context woken { released with entry := 0 }
    (some ⟨.control ipcCmdReset, woken.rtTick, .reschedule⟩), ?_, ?_⟩
  · rw [MqSystem.enter, if_pos ⟨running, trivial, vacant⟩]
    simp [MqCall.enter, section_, MqSystem.settle, MqSystem.marks]
  · rw [same]
    exact emptied

/-- Whatever calls are under way, wherever they have been interrupted, messages
and nodes are conserved. -/
theorem message_conservation {config : Config} {mq : MessageQueue} {actions : List MqAction}
    {events : List MqEvent} {system : MqSystem} (built : mq.Built)
    (run : mqMachine.Run (fun _ _ => True) (MqSystem.boot config mq) actions events system) :
    MessagesKept mq events system := by
  obtain ⟨flow, free, queue, sofar, inv⟩ := MqInv.of_run built run
  refine ⟨⟨MessageQueue.messages_congr inv.pool, mq.messages_nodup, ?_⟩,
    ⟨flow, free, queue, sofar, inv.lists, inv.queued⟩, ?_⟩
  · simp [MessageQueue.messages]
  · intro free queue lists context running vacant
    exact lists.reset (.of_run run) running vacant

/-- A pool of two messages of four bytes. -/
def twoMessages : MessageQueue := rtMqInit (fun _ => 0) (fun _ _ => 0) 0x1000 2 16 .fifo

open MqAction in
/-- A handler sends between the two sections of a sender, and the receiver gets both
messages, the urgent one first. Then one message is queued and another under way. -/
def urgentFirst : List MqAction :=
  [around (.threadStartup 0), around (.threadStartup 1), around .schedulerStart,
    enter (.thread 0) (.send [1, 2]), advance (.thread 0), enter (.handler 0) (.urgent [3])] ++
    List.replicate 2 (advance (.handler 0)) ++ List.replicate 3 (advance (.thread 0)) ++
    enter (.thread 0) (.recv 4 0) :: List.replicate 5 (advance (.thread 0)) ++
    enter (.thread 0) (.recv 2 0) :: List.replicate 3 (advance (.thread 0)) ++
    enter (.thread 0) (.send [4]) :: List.replicate 3 (advance (.thread 0)) ++
    [enter (.thread 0) (.send [5]), advance (.thread 0)]

/-- A handler resets the queue in the middle of a send. -/
theorem message_conservation_urgent :
    ∃ system next events,
      mqMachine.execute (.boot Config.plain twoMessages) urgentFirst = some (system, events) ∧
      .received (.thread 0) 4 [3, 0, 0, 0] ∈ events ∧ .received (.thread 0) 2 [1, 2] ∈ events ∧
      system.mq.entry = 1 ∧
      mqMachine.execute (.boot Config.plain twoMessages)
        (urgentFirst ++ [.enter (.handler 0) (.control ipcCmdReset)]) =
          some (next, events ++ [.emptied]) ∧
      next.mq.entry = 0 ∧ MessagesKept twoMessages (events ++ [.emptied]) next := by
  have final : (mqMachine.execute (.boot Config.plain twoMessages) urgentFirst).map
      (fun final => (decide (.received (.thread 0) 4 [3, 0, 0, 0] ∈ final.2),
        decide (.received (.thread 0) 2 [1, 2] ∈ final.2), final.1.mq.entry,
        (final.1.frames (.handler 0)).isNone)) = some (true, true, 1, true) := by
    decide +kernel
  obtain ⟨⟨system, events⟩, success, shows⟩ := Option.map_eq_some_iff.mp final
  simp only [Prod.mk.injEq, Option.isNone_iff_eq_none] at shows
  obtain ⟨first, second, queued, vacant⟩ := shows
  have built : twoMessages.Built := .init (fun _ => 0) (fun _ _ => 0) 0x1000 2 16 .fifo (by decide)
  have run := @Machine.run_of_execute _ _ _ mqMachine (fun _ _ => True) _ _ _ _
    (fun _ _ _ => trivial) success
  have kept := message_conservation built run
  obtain ⟨flow, free, queue, -, lists, -⟩ := kept.shared
  obtain ⟨next, reset, emptied⟩ := kept.reset free queue lists (.handler 0) trivial vacant
  have last : mqMachine.execute system [.enter (.handler 0) (.control ipcCmdReset)] =
      some (next, [.emptied]) := by
    simp [Machine.execute, mqMachine, MqAction.apply, reset]
  have whole := Machine.execute_append success last
  exact ⟨system, next, events, success, of_decide_eq_true first, of_decide_eq_true second, queued,
    whole, BitVec.eq_of_toNat_eq emptied.entry, message_conservation built
      (Machine.run_of_execute (fun _ _ _ => trivial) whole)⟩

end RtThread
