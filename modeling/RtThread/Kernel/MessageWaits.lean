import RtThread.Kernel.MessageSteps
import RtThread.Kernel.WaitOrder
import RtThread.Kernel.WaitRuns

/-!
# The waiters of a message queue

The suspend list of a message queue is well formed in every run, so that
`rt_ipc_list_resume_all` comes to its end.
-/

namespace RtThread

open RtThread.Std

/-- Between two steps each thread is at home in one list, and a thread that runs
is ready unless it is about to be switched out. -/
structure MqWaits (system : MqSystem) : Prop where
  homes : ∃ home, WaitInv system.kernel home
  unlocked : system.kernel.rtSchedulerLockNest = 0
  runs : ∀ thread, system.kernel.rtCurrentThread = .thread thread →
    (system.kernel.threads thread).stat = .ready ∨
      ∃ frame, system.frames (.thread thread) = some frame ∧ frame.point = .suspended

/-- The context is not about to be switched out. -/
def MqSystem.Awake (system : MqSystem) (context : Context) : Prop :=
  ∀ frame, system.frames context = some frame → frame.point ≠ .suspended

namespace MqWaits

variable {system next : MqSystem} {context : Context} {kernel : Kernel} {mq : MessageQueue}
  {home : ThreadId → Option ThreadNode} {emitted : List MqEvent}

theorem boot (config : Config) (mq : MessageQueue) : MqWaits (MqSystem.boot config mq) :=
  ⟨⟨_, WaitInv.initial config⟩, rfl, by simp [MqSystem.boot, Config.kernel]⟩

/-- A running thread that is not about to be switched out is ready. -/
theorem ready (inv : MqWaits system) {thread : ThreadId} (awake : system.Awake (.thread thread))
    (running : system.kernel.rtCurrentThread = .thread thread) :
    (system.kernel.threads thread).stat = .ready := by
  rcases inv.runs thread running with isReady | ⟨frame, there, point⟩
  · exact isReady
  · exact absurd point (awake frame there)

/-- A section that suspends no thread. -/
theorem setFrame (inv : MqWaits system) (homes : ∃ home, WaitInv kernel home)
    (wakes : Wakes system.kernel kernel) (awake : system.Awake context) (mq : MessageQueue)
    (frame : Option MqFrame) : MqWaits (system.setFrame context kernel mq frame) := by
  refine ⟨homes, wakes.nest.trans inv.unlocked, fun thread isCurrent => ?_⟩
  have running := wakes.current.symm.trans isCurrent
  by_cases same : Context.thread thread = context
  · subst same
    exact Or.inl (wakes.ready thread (inv.ready awake running))
  · rw [show (system.setFrame context kernel mq frame).frames (.thread thread) =
      system.frames (.thread thread) from Function.update_of_ne same ..]
    exact (inv.runs thread running).imp_left (wakes.ready thread)

/-- A step that leaves the kernel alone. -/
theorem stay (inv : MqWaits system) (awake : system.Awake context) (mq : MessageQueue)
    (frame : Option MqFrame) : MqWaits (system.setFrame context system.kernel mq frame) :=
  inv.setFrame inv.homes (.refl system.kernel) awake mq frame

/-- `rt_schedule`, which switches to a ready thread. -/
theorem schedule (inv : MqWaits system) (mq : MessageQueue) (frame : Option MqFrame) :
    MqWaits (system.setFrame context (rtSchedule system.kernel) mq frame) := by
  obtain ⟨home, waits⟩ := inv.homes
  refine ⟨⟨home, waits.schedule⟩, (Elapses.schedule waits).nest.trans inv.unlocked, ?_⟩
  intro thread isCurrent
  have current : (rtSchedule system.kernel).rtCurrentThread = .thread thread := isCurrent
  rw [rtSchedule_current, if_pos inv.unlocked] at current
  change ((rtSchedule system.kernel).threads thread).stat = .ready ∨ _
  rw [rtSchedule_threads]
  exact Or.inl (waits.selected_ready current)

/-- The thread of a call is suspended. -/
theorem suspend {thread : ThreadId} {call : MqCall} {tickDelta : BitVec 32} {outcome : Outcome}
    (keeps : SectionKeeps system.kernel kernel outcome) (inv : MqWaits system)
    (running : system.kernel.rtCurrentThread = .thread thread) (mq : MessageQueue) :
    MqWaits (system.setFrame (.thread thread) kernel mq
      (some ⟨call, tickDelta, .suspended⟩)) := by
  refine ⟨keeps.homes, keeps.nest.trans inv.unlocked, fun other isCurrent => ?_⟩
  obtain rfl := ThreadPtr.thread.inj ((keeps.current.symm.trans isCurrent).symm.trans running)
  exact Or.inr ⟨_, Function.update_self .., rfl⟩

/-- The section of `rt_mq_recv`. -/
theorem recvRound {call : MqCall} {timeout : BitVec 32}
    {result : Kernel × MessageQueue × MqOutcome} (inv : MqWaits system)
    (running : context.Running system.kernel) (awake : system.Awake context)
    (round : rtMqRecvRound system.kernel system.mq context timeout = some result) :
    MqWaits (system.settle context call result).1 := by
  unfold rtMqRecvRound at round
  split at round
  · cases context with
    | handler index => cases round
    | thread thread =>
        obtain ⟨home, waits⟩ := inv.homes
        have isReady := inv.ready awake running
        have reset := waits.setError thread .eok
        have wakes : Wakes system.kernel (system.kernel.setError thread .eok) := .setThread rfl
        dsimp only at round
        split at round
        · obtain rfl := Option.some_inj.mp round
          exact inv.setFrame ⟨_, reset.setError thread .etimeout⟩ (wakes.trans (.setThread rfl))
            awake _ _
        · obtain ⟨⟨suspended, outcome⟩, step, done⟩ := Option.bind_eq_some_iff.mp round
          obtain rfl := Option.some_inj.mp done
          have keeps := SectionKeeps.of_suspendOn reset wakes running isReady step
          rw [suspendOn_onMq step]
          exact inv.suspend keeps running system.mq
  · obtain rfl := Option.some_inj.mp round
    exact inv.stay awake _ _

/-- The first section of a call. -/
theorem enter {call : MqCall} (inv : MqWaits system)
    (step : system.enter context call = some (next, emitted)) : MqWaits next := by
  obtain ⟨⟨running, -, vacant⟩, step⟩ := Option.ite_none_right_eq_some.mp step
  have awake : system.Awake context := by simp [MqSystem.Awake, vacant]
  obtain ⟨result, section_, done⟩ := Option.bind_eq_some_iff.mp step
  obtain ⟨rfl, -⟩ := Prod.mk.inj (Option.some_inj.mp done)
  -- sending leaves the kernel alone until the message is linked
  have sends : ∀ onward, MqWaits (system.settle context call
      (system.kernel, rtMqSendBegin system.mq call.buffer onward)).1 := by
    intro onward
    unfold rtMqSendBegin
    split
    · exact inv.stay awake _ _
    split
    · exact inv.stay awake _ _
    · exact inv.stay awake _ _
  cases call with
  | send buffer =>
      obtain rfl := Option.some_inj.mp section_
      exact sends .clear
  | urgent buffer =>
      obtain rfl := Option.some_inj.mp section_
      exact sends (.fill · 0)
  | recv size timeout =>
      simp only [MqCall.enter, rtMqRecv] at section_
      split at section_
      · obtain rfl := Option.some_inj.mp section_
        exact inv.stay awake _ _
      · exact inv.recvRound running awake section_
  | control cmd =>
      simp only [MqCall.enter, rtMqControl] at section_
      split at section_
      · obtain ⟨woken, resume, section_⟩ := Option.bind_eq_some_iff.mp section_
        obtain ⟨released, -, done⟩ := Option.bind_eq_some_iff.mp section_
        obtain rfl := Option.some_inj.mp done
        obtain ⟨homes, wakes⟩ := WaitInv.rtIpcListResumeAll inv.homes resume
        exact inv.setFrame homes wakes awake _ _
      · obtain rfl := Option.some_inj.mp section_
        exact inv.stay awake _ _

/-- The section that links a message may wake a receiver. -/
theorem link {call : MqCall} {msg : Nat} {result : Kernel × MessageQueue × MqOutcome}
    (inv : MqWaits system) (awake : system.Awake context)
    (step : call.link system.kernel system.mq msg = some result) :
    MqWaits (system.settle context call result).1 := by
  obtain ⟨home, waits⟩ := inv.homes
  obtain ⟨⟨woken, outcome⟩, resume, done⟩ := Option.bind_eq_some_iff.mp step
  obtain rfl := Option.some_inj.mp done
  have keeps := SectionKeeps.of_resumeFirst waits (.refl system.kernel) resume
  have wakes : Wakes system.kernel woken := by
    refine ⟨keeps.current, keeps.nest, fun thread isReady => ?_⟩
    exact (keeps.ready thread isReady).resolve_right fun ⟨_, timer, suspends⟩ =>
      resumeFirst_outcome resume timer suspends
  cases outcome with
  | returns result output => exact inv.setFrame keeps.homes wakes awake _ _
  | suspends timer => exact absurd rfl (resumeFirst_outcome resume timer)
  | reschedules output => exact inv.setFrame keeps.homes wakes awake _ _

/-- A later step of a call. -/
theorem advanceFrame {frame : MqFrame} (inv : MqWaits system)
    (running : context.Running system.kernel) (there : system.frames context = some frame)
    (step : system.advanceFrame context frame = some (next, emitted)) : MqWaits next := by
  obtain ⟨call, tickDelta, point⟩ := frame
  have awake : point ≠ .suspended → system.Awake context := by
    rintro apart frame at_
    obtain rfl := Option.some_inj.mp (there.symm.trans at_)
    exact apart
  cases point with
  | suspended =>
      obtain ⟨rfl, -⟩ := Prod.mk.inj (Option.some_inj.mp step)
      exact inv.schedule _ _
  | reschedule =>
      obtain ⟨rfl, -⟩ := Prod.mk.inj (Option.some_inj.mp step)
      exact inv.schedule _ _
  | woken =>
      cases context with
      | handler index => cases step
      | thread thread =>
          simp only [MqSystem.advanceFrame, Option.some_inj] at step
          split at step
          · obtain ⟨rfl, -⟩ := Prod.mk.inj step
            exact inv.stay (awake (by simp)) _ _
          · obtain ⟨rfl, -⟩ := Prod.mk.inj step
            exact inv.stay (awake (by simp)) _ _
  | again =>
      cases call with
      | recv size timeout =>
          obtain ⟨round, section_, done⟩ := Option.bind_eq_some_iff.mp step
          obtain ⟨rfl, -⟩ := Prod.mk.inj (Option.some_inj.mp done)
          exact inv.recvRound running (awake (by simp)) section_
      | send buffer => cases step
      | urgent buffer => cases step
      | control cmd => cases step
  | returning =>
      obtain ⟨rfl, -⟩ := Prod.mk.inj (Option.some_inj.mp step)
      exact inv.stay (awake (by simp)) _ _
  | clear msg =>
      obtain ⟨rfl, -⟩ := Prod.mk.inj (Option.some_inj.mp step)
      exact inv.stay (awake (by simp)) _ _
  | fill msg count =>
      simp only [MqSystem.advanceFrame] at step
      split at step
      · obtain ⟨rfl, -⟩ := Prod.mk.inj (Option.some_inj.mp step)
        exact inv.stay (awake (by simp)) _ _
      · obtain ⟨linked, section_, done⟩ := Option.bind_eq_some_iff.mp step
        obtain ⟨rfl, -⟩ := Prod.mk.inj (Option.some_inj.mp done)
        exact inv.link (awake (by simp)) section_
  | drain msg taken =>
      simp only [MqSystem.advanceFrame] at step
      split at step
      · split at step
        · obtain ⟨rfl, -⟩ := Prod.mk.inj (Option.some_inj.mp step)
          exact inv.stay (awake (by simp)) _ _
        · obtain ⟨rfl, -⟩ := Prod.mk.inj (Option.some_inj.mp step)
          exact inv.stay (awake (by simp)) _ _
      · cases step

/-- Time passes, a thread is started or another one becomes current. -/
theorem around {change : Surroundings} (inv : MqWaits system)
    (step : change.apply system.kernel = some kernel) :
    MqWaits { system with kernel := kernel } := by
  obtain ⟨home, waits⟩ := inv.homes
  cases change with
  | schedulerStart =>
      obtain ⟨-, done⟩ := Option.ite_none_right_eq_some.mp step
      obtain rfl := Option.some_inj.mp done
      exact ⟨⟨home, waits.congr rfl rfl rfl fun _ => rfl⟩, inv.unlocked,
        fun thread selected => Or.inl (waits.selected_ready selected)⟩
  | threadStartup thread =>
      obtain ⟨isInit, started, rest, homes, threads, final⟩ := waits.threadStartup step
      have begun : MqWaits { system with kernel := started } := by
        refine ⟨⟨_, homes⟩, rest.nest.trans inv.unlocked, fun other isCurrent => ?_⟩
        refine (inv.runs other (rest.current.symm.trans isCurrent)).imp_left fun isReady => ?_
        change (started.threads other).stat = .ready
        rw [threads]
        by_cases same : other = thread
        · simp [same]
        · rwa [Function.update_of_ne same]
      rcases final with rfl | rfl
      · exact begun
      · have scheduled := @schedule _ (.thread thread) begun system.mq
          (system.frames (.thread thread))
        rwa [MqSystem.setFrame, Function.update_eq_self] at scheduled
  | tickIncrease =>
      obtain ⟨⟨next, fired⟩, tick, rfl⟩ := Option.map_eq_some_iff.mp step
      obtain ⟨home', homes, elapses⟩ := waits.tickIncrease tick
      refine ⟨⟨home', homes⟩, elapses.nest.trans inv.unlocked, fun thread isCurrent => ?_⟩
      rcases elapses.current with same | isReady
      · exact (inv.runs thread (same.symm.trans isCurrent)).imp_left elapses.ready
      · exact Or.inl (isReady thread isCurrent)
  | switchTo thread =>
      obtain ⟨isReady, done⟩ := Option.ite_none_right_eq_some.mp step
      obtain rfl := Option.some_inj.mp done
      refine ⟨⟨home, waits.congr rfl rfl rfl fun _ => rfl⟩, inv.unlocked, fun other isCurrent => ?_⟩
      obtain rfl := ThreadPtr.thread.inj isCurrent
      exact Or.inl isReady

/-- Any step of the machine. -/
theorem step {action : MqAction} (inv : MqWaits system)
    (step : mqMachine.step system action = some (next, emitted)) : MqWaits next := by
  cases action with
  | around change =>
      obtain ⟨kernel, changes, done⟩ := Option.map_eq_some_iff.mp step
      obtain ⟨rfl, -⟩ := Prod.mk.inj done
      exact inv.around changes
  | enter context call => exact inv.enter step
  | advance context =>
      obtain ⟨running, step⟩ := Option.ite_none_right_eq_some.mp step
      obtain ⟨frame, there, step⟩ := Option.bind_eq_some_iff.mp step
      exact inv.advanceFrame running there step

/-- `RT_IPC_CMD_RESET` fails all waiters, however many there are. -/
theorem resumeAll (inv : MqWaits system) :
    ∃ woken, rtIpcListResumeAll (.messageQueue 0) system.kernel = some woken := by
  obtain ⟨home, waits⟩ := inv.homes
  obtain ⟨queue, queued⟩ := waits.queued (.messageQueue 0)
  exact ⟨_, rtIpcListResumeAll_eq ⟨home, waits⟩ queued⟩

end MqWaits

end RtThread
