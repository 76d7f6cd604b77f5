import RtThread.Kernel.WaitTicks

/-!
# Runs of blocking calls

In every run each thread is in at most one list, and in one that fits its state,
as long as no thread is put into the ready queue while it is linked elsewhere.
`rt_thread_resume` enables interrupts between its two sections, so two calls
that resume one thread at the same time insert it twice.
-/

namespace RtThread

open RtThread.Std

/-- A call of `rt_thread_resume` inserts a thread only while that thread is in
no list and its timer is stopped. -/
def ResumesLoose (system : System) : Action → Prop
  | .advance context => ∀ thread tickDelta,
      system.frames context = some ⟨.threadResume thread, tickDelta, .insert⟩ →
        (∀ head : ThreadNode, head.IsHead →
          ¬ system.kernel.threadLinks.Linked head (.tlist thread)) ∧
        (system.kernel.timers (.thread thread)).activated = false
  | _ => True

/-- A thread that is running is ready, unless it is about to be switched out. It
is ready as long as the scheduler is locked. -/
structure ThreadsInv (system : System) : Prop where
  homes : ∃ home, WaitInv system.kernel home
  locked : system.kernel.rtSchedulerLockNest ≠ 0 → CurrentReady system.kernel
  current : ∀ thread, system.kernel.rtCurrentThread = .thread thread →
    (system.kernel.threads thread).stat = .ready ∨
      ∃ frame, system.frames (.thread thread) = some frame ∧ frame.point = .suspended

/-- The invariant of all runs that never lock the scheduler. -/
structure SystemInv (system : System) : Prop where
  homes : ∃ home, WaitInv system.kernel home
  unlocked : system.kernel.rtSchedulerLockNest = 0
  current : ∀ thread, system.kernel.rtCurrentThread = .thread thread →
    (system.kernel.threads thread).stat = .ready ∨
      ∃ frame, system.frames (.thread thread) = some frame ∧ frame.point = .suspended

theorem SystemInv.threads {system : System} (inv : SystemInv system) : ThreadsInv system :=
  ⟨inv.homes, fun locked => absurd inv.unlocked locked, inv.current⟩

/-- How the section that the action executes ends, if it executes one. -/
def Action.outcome (system : System) : Action → Option Outcome
  | .enter _ call => (call.enter system.kernel).map Prod.snd
  | .advance (.thread thread) =>
    match system.frames (.thread thread) with
    | some ⟨call, tickDelta, .again⟩ =>
      (call.again system.kernel thread tickDelta).map Prod.snd
    | _ => none
  | _ => none

/-- No thread starts to wait while the scheduler is locked. -/
def WaitsUnlocked (system : System) (action : Action) : Prop :=
  system.kernel.rtSchedulerLockNest = 0 ∨
    ∀ timer, action.outcome system ≠ some (.suspends timer)

/-- The timed waits that a step has begun have their timer running. -/
def ArmsTimers (next : System) (emitted : List Notice) : Prop :=
  ∀ context result, .timerStarted context result ∈ emitted → result = .eok ∧
    ∃ thread, context = .thread thread ∧
      (next.kernel.timers (.thread thread)).activated = true ∧
      next.kernel.timerLinks.Linked .timerList (.timer (.thread thread))

theorem WaitInv.initial (config : Config) : WaitInv config.kernel fun _ => none := by
  have loose : atNode (fun _ => none) = fun _ => none := by
    funext node
    cases node <;> rfl
  have rings : Rings TimerNode.IsHead config.kernel.timerLinks (timerLists []) :=
    Rings.congr_timerLists (Rings.nil _) rfl
  refine ⟨?_, ⟨[], rings, ?_⟩, by simp, by simp, ?_, fun _ => rfl, fun _ => rfl⟩
  · rw [loose]
    exact Placed.nil _
  · intro timer
    cases timer <;> simp [Config.kernel, Config.initTimer]
  · intro thread active
    cases active

theorem SystemInv.initial (config : Config) : SystemInv (System.boot config) :=
  ⟨⟨_, WaitInv.initial config⟩, rfl, by simp [System.boot, Config.kernel]⟩

theorem WaitsUnlocked.outcome {system : System} {action : Action} {outcome : Outcome}
    (unlocked : WaitsUnlocked system action) (ends : action.outcome system = some outcome) :
    system.kernel.rtSchedulerLockNest = 0 ∨ ∀ timer, outcome ≠ .suspends timer :=
  unlocked.imp_right fun never timer suspends => never timer (by rw [ends, suspends])

/-! ## Starting a thread -/

/-- Starting a thread makes it ready at its initial priority. -/
theorem WaitInv.threadStartup {kernel next : Kernel} {home : ThreadId → Option ThreadNode}
    {thread : ThreadId} (inv : WaitInv kernel home)
    (step : rtThreadStartup kernel thread = some next) :
    (kernel.threads thread).stat = .init ∧
      ∃ started, SameRest kernel started ∧
        WaitInv started (Function.update home thread
          (some (.ready (kernel.threads thread).initPriority))) ∧
        started.threads = Function.update kernel.threads thread
          { kernel.threads thread with
            stat := .ready
            currentPriority := (kernel.threads thread).initPriority
            numberMask := priorityMask (kernel.threads thread).initPriority } ∧
        (next = started ∨ next = rtSchedule started) := by
  unfold rtThreadStartup at step
  split at step
  · rename_i isInit
    let prepared := (setPriority kernel thread (kernel.threads thread).initPriority).setStat
      thread .suspend
    have ranked : WaitInv (setPriority kernel thread (kernel.threads thread).initPriority) home :=
      inv.setThread_same _ rfl
    have idle : WaitInv prepared home := by
      apply ranked.setThread
      · intro priority there
        exact nomatch isInit.symm.trans (inv.ready thread priority there)
      · exact fun _ _ => rfl
      · exact fun _ => rfl
    have suspended : (prepared.threads thread).stat = .suspend := by
      simp [prepared, Kernel.setStat, Kernel.setThread]
    have record : prepared.threads = Function.update kernel.threads thread
        { kernel.threads thread with
          stat := .suspend
          currentPriority := (kernel.threads thread).initPriority
          numberMask := priorityMask (kernel.threads thread).initPriority } := by
      simp [prepared, Kernel.setStat, setPriority, Kernel.setThread]
    have resumed := idle.resumeThread suspended
    rw [record, Function.update_self] at resumed
    have staged : SameRest kernel prepared := ⟨rfl, rfl, rfl⟩
    refine ⟨isInit, (RtThread.rtThreadResume prepared thread).2,
      staged.trans (rtThreadResume_sameRest prepared thread), resumed, ?_, ?_⟩
    · rw [rtThreadResume_threads suspended, record]
      simp
    · rw [Option.some_inj] at step
      split at step
      · exact Or.inr step.symm
      · exact Or.inl step.symm
  · cases step

/-! ## One step -/

namespace ThreadsInv

variable {system next : System} {context : Context} {kernel : Kernel}
  {home : ThreadId → Option ThreadNode}

/-- A step of a context that is not about to be switched out, or of the kernel
outside every call. -/
theorem setFrame (inv : ThreadsInv system) (waits : WaitInv kernel home)
    (wakes : Wakes system.kernel kernel) (frame : Option Frame)
    (awake : ∀ old, system.frames context = some old → old.point ≠ .suspended) :
    ThreadsInv (system.setFrame context kernel frame) := by
  refine ⟨⟨home, waits⟩, ?_, ?_⟩
  · intro locked thread isCurrent
    exact wakes.ready thread (inv.locked (wakes.nest ▸ locked) thread
      (wakes.current.symm.trans isCurrent))
  intro thread isCurrent
  rcases inv.current thread (wakes.current.symm.trans isCurrent) with isReady | ⟨old, there, point⟩
  · exact Or.inl (wakes.ready thread isReady)
  · right
    have apart : Context.thread thread ≠ context := by
      rintro rfl
      exact awake old there point
    exact ⟨old, by simpa [System.setFrame, apart] using there, point⟩

/-- `rt_schedule`, which a call may make anywhere. -/
theorem schedule (inv : ThreadsInv system) (frame : Option Frame) :
    ThreadsInv (system.setFrame context (rtSchedule system.kernel) frame) := by
  obtain ⟨home, waits⟩ := inv.homes
  have isReady : CurrentReady (rtSchedule system.kernel) := by
    intro thread isCurrent
    rw [rtSchedule_threads]
    have current := rtSchedule_current system.kernel
    split at current
    · exact waits.selected_ready (current.symm.trans isCurrent)
    · rename_i locked
      exact inv.locked locked thread (current.symm.trans isCurrent)
  exact ⟨⟨home, waits.schedule⟩, fun _ => isReady, fun thread isCurrent =>
    Or.inl (isReady thread isCurrent)⟩

/-- A running thread that is not about to be switched out is ready. -/
theorem currentReady (inv : ThreadsInv system) {thread : ThreadId}
    (running : system.kernel.rtCurrentThread = .thread thread)
    (awake : ∀ old, system.frames (.thread thread) = some old → old.point ≠ .suspended) :
    CurrentReady system.kernel := by
  intro other isCurrent
  obtain rfl := ThreadPtr.thread.inj (running.symm.trans isCurrent)
  rcases inv.current thread isCurrent with isReady | ⟨old, there, point⟩
  · exact isReady
  · exact absurd point (awake old there)

/-- The end of a section. -/
theorem settle {outcome : Outcome} (inv : ThreadsInv system) (call : Call)
    (keeps : SectionKeeps system.kernel kernel outcome)
    (awake : ∀ old, system.frames context = some old → old.point ≠ .suspended)
    (own : (∃ thread, context = .thread thread ∧
        system.kernel.rtCurrentThread = .thread thread) ∨
      ∀ timer, outcome ≠ .suspends timer)
    (unlocked : system.kernel.rtSchedulerLockNest = 0 ∨ ∀ timer, outcome ≠ .suspends timer) :
    ThreadsInv (system.settle context call kernel outcome).1 ∧
      ArmsTimers (system.settle context call kernel outcome).1
        (system.settle context call kernel outcome).2 := by
  obtain ⟨home, waits⟩ := keeps.homes
  cases outcome with
  | returns result output =>
      have wakes : Wakes system.kernel kernel := by
        refine ⟨keeps.current, keeps.nest, ?_⟩
        intro thread isReady
        simpa using keeps.ready thread isReady
      refine ⟨inv.setFrame waits wakes none awake, ?_⟩
      intro other result' member
      simp [System.settle] at member
  | reschedules output =>
      have wakes : Wakes system.kernel kernel := by
        refine ⟨keeps.current, keeps.nest, ?_⟩
        intro thread isReady
        simpa using keeps.ready thread isReady
      refine ⟨inv.setFrame waits wakes _ awake, ?_⟩
      intro other result' member
      simp [System.settle] at member
  | suspends timer =>
      obtain ⟨thread, rfl, running⟩ := own.resolve_right fun never => never timer rfl
      constructor
      · have free : kernel.rtSchedulerLockNest = 0 :=
          keeps.nest.trans (unlocked.resolve_right fun never => never timer rfl)
        refine ⟨⟨home, waits⟩, fun locked => absurd free locked, ?_⟩
        intro other isCurrent
        have same : other = thread :=
          ThreadPtr.thread.inj ((keeps.current.symm.trans isCurrent).symm.trans running)
        subst same
        exact Or.inr ⟨⟨call, kernel.rtTick, .suspended⟩,
          by simp [System.settle, System.setFrame], rfl⟩
      · intro other result member
        simp only [System.settle, List.mem_map, Option.mem_toList, Notice.timerStarted.injEq]
          at member
        obtain ⟨_, rfl, rfl, rfl⟩ := member
        obtain ⟨succeeds, active⟩ := keeps.armed thread _ running rfl
        exact ⟨succeeds, thread, rfl, active, (waits.timer_linked_iff _).mpr active⟩

end ThreadsInv

theorem resumeFirst_outcome {kernel next : Kernel} {list : WaitList}
    {output : Option (BitVec 32)} {outcome : Outcome}
    (step : resumeFirst kernel list output = some (next, outcome)) (timer : Option Err) :
    outcome ≠ .suspends timer := by
  unfold resumeFirst at step
  split at step
  · obtain ⟨rfl, rfl⟩ := Prod.mk.inj (Option.some_inj.mp step)
    simp
  · obtain ⟨resumed, -, done⟩ := Option.bind_eq_some_iff.mp step
    obtain ⟨rfl, rfl⟩ := Prod.mk.inj (Option.some_inj.mp done)
    simp

/-- What a handler calls never suspends a thread, whichever thread is current. -/
theorem Call.enter_handler {call : Call} {index : Nat} {kernel next : Kernel} {outcome : Outcome}
    {home : ThreadId → Option ThreadNode} (inv : WaitInv kernel home)
    (allowed : call.allowedIn (.handler index) = true)
    (step : call.enter kernel = some (next, outcome)) :
    SectionKeeps kernel next outcome ∧ ∀ timer, outcome ≠ .suspends timer := by
  cases call with
  | semTake sem time =>
      have untimed : time = 0#32 := by simpa [Call.allowedIn] using allowed
      refine ⟨rtSemTake_keeps inv (Or.inl untimed) step, ?_⟩
      subst untimed
      simp only [Call.enter, rtSemTake, if_true] at step
      intro timer
      split at step <;>
      · obtain ⟨rfl, rfl⟩ := Prod.mk.inj (Option.some_inj.mp step)
        simp
  | semRelease sem =>
      refine ⟨rtSemRelease_keeps inv step, ?_⟩
      simp only [Call.enter, rtSemRelease] at step
      intro timer
      split at step
      · obtain ⟨rfl, rfl⟩ := Prod.mk.inj (Option.some_inj.mp step)
        simp
      · obtain ⟨resumed, -, done⟩ := Option.bind_eq_some_iff.mp step
        obtain ⟨rfl, rfl⟩ := Prod.mk.inj (Option.some_inj.mp done)
        simp
  | eventSend event set =>
      refine ⟨rtEventSend_keeps inv step, ?_⟩
      simp only [Call.enter, rtEventSend] at step
      intro timer
      split at step
      · obtain ⟨rfl, rfl⟩ := Prod.mk.inj (Option.some_inj.mp step)
        simp
      · obtain ⟨⟨walked, need⟩, -, done⟩ := Option.bind_eq_some_iff.mp step
        obtain ⟨rfl, rfl⟩ := Prod.mk.inj (Option.some_inj.mp done)
        cases need <;> simp
  | mbSendWait mailbox value timeout =>
      have untimed : timeout = 0#32 := by simpa [Call.allowedIn] using allowed
      subst untimed
      simp only [Call.enter, rtMbSendWait, and_true] at step
      split at step
      · obtain ⟨rfl, rfl⟩ := Prod.mk.inj (Option.some_inj.mp step)
        exact ⟨.of_wakes inv (.refl kernel) (by simp), by simp⟩
      · rename_i room
        rw [rtMbSendRound] at step
        simp only [if_neg room] at step
        exact ⟨.of_resumeFirst (inv.setMailbox _ _) (.setMailbox _ _ _) step,
          resumeFirst_outcome step⟩
  | mbRecv mailbox timeout =>
      have untimed : timeout = 0#32 := by simpa [Call.allowedIn] using allowed
      subst untimed
      simp only [Call.enter, rtMbRecv, and_true] at step
      split at step
      · obtain ⟨rfl, rfl⟩ := Prod.mk.inj (Option.some_inj.mp step)
        exact ⟨.of_wakes inv (.refl kernel) (by simp), by simp⟩
      · rename_i mail
        rw [rtMbRecvRound] at step
        simp only [if_neg mail] at step
        exact ⟨.of_resumeFirst (inv.setMailbox _ _) (.setMailbox _ _ _) step,
          resumeFirst_outcome step⟩
  | semControl sem cmd arg => exact rtSemControl_keeps inv step
  | eventControl event cmd => exact rtEventControl_keeps inv step
  | mbControl mailbox cmd => exact rtMbControl_keeps inv step
  | threadResume thread => cases step
  | mutexTake mutex time => cases allowed
  | mutexRelease mutex => cases allowed
  | eventRecv event set option timeout => cases allowed
  | threadSleep tick => cases allowed

/-- The first section of a call by a running thread. -/
theorem Call.enter_keeps {call : Call} {kernel next : Kernel} {outcome : Outcome}
    {home : ThreadId → Option ThreadNode} (inv : WaitInv kernel home)
    (eligible : CurrentReady kernel) (step : call.enter kernel = some (next, outcome)) :
    SectionKeeps kernel next outcome := by
  cases call with
  | semTake sem time => exact rtSemTake_keeps inv (Or.inr eligible) step
  | semRelease sem => exact rtSemRelease_keeps inv step
  | mutexTake mutex time => exact rtMutexTake_keeps inv eligible step
  | mutexRelease mutex => exact rtMutexRelease_keeps inv step
  | eventSend event set => exact rtEventSend_keeps inv step
  | eventRecv event set option timeout => exact rtEventRecv_keeps inv eligible step
  | mbSendWait mailbox value timeout =>
      simp only [Call.enter, rtMbSendWait] at step
      split at step
      · obtain ⟨rfl, rfl⟩ := Prod.mk.inj (Option.some_inj.mp step)
        exact .of_wakes inv (.refl kernel) (by simp)
      · exact rtMbSendRound_keeps inv eligible step
  | mbRecv mailbox timeout =>
      simp only [Call.enter, rtMbRecv] at step
      split at step
      · obtain ⟨rfl, rfl⟩ := Prod.mk.inj (Option.some_inj.mp step)
        exact .of_wakes inv (.refl kernel) (by simp)
      · exact rtMbRecvRound_keeps inv eligible step
  | semControl sem cmd arg => exact (rtSemControl_keeps inv step).1
  | eventControl event cmd => exact (rtEventControl_keeps inv step).1
  | mbControl mailbox cmd => exact (rtMbControl_keeps inv step).1
  | threadSleep tick => exact threadSleepEnter_keeps inv eligible step
  | threadResume thread => cases step

/-- The section behind the test of `thread->error`. -/
theorem Call.again_keeps {call : Call} {kernel next : Kernel} {outcome : Outcome}
    {thread : ThreadId} {tickDelta : BitVec 32} {home : ThreadId → Option ThreadNode}
    (inv : WaitInv kernel home) (eligible : CurrentReady kernel)
    (step : call.again kernel thread tickDelta = some (next, outcome)) :
    SectionKeeps kernel next outcome := by
  cases call <;> simp only [Call.again, reduceCtorEq] at step
  case eventRecv =>
    obtain ⟨rfl, rfl⟩ := Prod.mk.inj (Option.some_inj.mp step)
    exact .of_wakes inv (.refl kernel) (by simp [rtEventRecvReturn])
  case mbSendWait => exact rtMbSendRound_keeps inv eligible step
  case mbRecv => exact rtMbRecvRound_keeps inv eligible step

namespace ThreadsInv

variable {system next : System} {context : Context} {emitted : List Notice}

theorem armsNothing (next : System) {emitted : List Notice}
    (silent : ∀ context result, .timerStarted context result ∉ emitted) :
    ArmsTimers next emitted :=
  fun context result member => absurd member (silent context result)

theorem enter (inv : ThreadsInv system) {call : Call}
    (unlocked : WaitsUnlocked system (.enter context call))
    (step : system.enter context call = some (next, emitted)) :
    ThreadsInv next ∧ ArmsTimers next emitted := by
  unfold System.enter at step
  split at step
  · rename_i admitted
    obtain ⟨running, allowed, idle⟩ := admitted
    obtain ⟨home, waits⟩ := inv.homes
    have awake : ∀ old, system.frames context = some old → old.point ≠ .suspended := by
      intro old there
      rw [idle] at there
      cases there
    split at step
    · rename_i thread
      split at step
      · obtain ⟨rfl, rfl⟩ := Prod.mk.inj (Option.some_inj.mp step)
        exact ⟨inv, armsNothing _ (by simp)⟩
      · obtain ⟨rfl, rfl⟩ := Prod.mk.inj (Option.some_inj.mp step)
        exact ⟨inv.setFrame waits (.refl _) _ awake, armsNothing _ (by simp)⟩
    · obtain ⟨⟨kernel, outcome⟩, enter, done⟩ := Option.bind_eq_some_iff.mp step
      have pair := Option.some_inj.mp done
      have ends : (Action.enter context call).outcome system = some outcome := by
        simp only [Action.outcome, enter, Option.map_some]
      have free := unlocked.outcome ends
      cases context with
      | thread thread =>
          have keeps := Call.enter_keeps waits (inv.currentReady running awake) enter
          have settled := inv.settle call keeps awake (Or.inl ⟨thread, rfl, running⟩) free
          rwa [pair] at settled
      | handler index =>
          obtain ⟨keeps, returns⟩ := Call.enter_handler waits allowed enter
          have settled := inv.settle call keeps awake (Or.inr returns) free
          rwa [pair] at settled
  · cases step

/-- A thread whose call was suspended goes on. -/
theorem wake {thread : ThreadId} (frame : Frame) (inv : ThreadsInv system)
    (awake : ∀ old, system.frames (.thread thread) = some old → old.point ≠ .suspended) :
    ThreadsInv (system.wake thread frame).1 ∧
      ArmsTimers (system.wake thread frame).1 (system.wake thread frame).2 := by
  obtain ⟨home, waits⟩ := inv.homes
  unfold System.wake
  dsimp only
  split
  · refine ⟨?_, armsNothing _ (by simp)⟩
    unfold rtThreadSleepReturn
    split
    · exact inv.setFrame (waits.setError thread .eok) (.setThread rfl) none awake
    · exact inv.setFrame waits (.refl _) none awake
  · exact ⟨inv.setFrame waits (.refl _) none awake, armsNothing _ (by simp)⟩
  · exact ⟨inv.setFrame waits (.refl _) none awake, armsNothing _ (by simp)⟩
  · split <;> exact ⟨inv.setFrame waits (.refl _) _ awake, armsNothing _ (by simp)⟩

theorem advance (inv : ThreadsInv system) (loose : ResumesLoose system (.advance context))
    (unlocked : WaitsUnlocked system (.advance context))
    (step : system.advance context = some (next, emitted)) :
    ThreadsInv next ∧ ArmsTimers next emitted := by
  unfold System.advance at step
  split at step
  · rename_i running
    obtain ⟨⟨call, tickDelta, point⟩, there, step⟩ := Option.bind_eq_some_iff.mp step
    obtain ⟨home, waits⟩ := inv.homes
    have awake : point ≠ .suspended →
        ∀ old, system.frames context = some old → old.point ≠ .suspended := by
      intro apart old there'
      obtain rfl := Option.some_inj.mp (there.symm.trans there')
      exact apart
    unfold System.advanceFrame at step
    cases point with
    | suspended =>
        obtain ⟨rfl, rfl⟩ := Prod.mk.inj (Option.some_inj.mp step)
        exact ⟨inv.schedule _, armsNothing _ (by simp)⟩
    | woken =>
        cases context with
        | thread thread =>
            have pair := Option.some_inj.mp step
            have woken := inv.wake ⟨call, tickDelta, .woken⟩ (awake (by simp))
            rwa [pair] at woken
        | handler index => cases step
    | again =>
        cases context with
        | thread thread =>
            obtain ⟨⟨kernel, outcome⟩, section_, done⟩ := Option.bind_eq_some_iff.mp step
            have pair := Option.some_inj.mp done
            have keeps := Call.again_keeps waits
              (inv.currentReady running (awake (by simp))) section_
            have ends : (Action.advance (.thread thread)).outcome system = some outcome := by
              simp only [Action.outcome, there, section_, Option.map_some]
            have free := unlocked.outcome ends
            have settled := inv.settle (call.reduce tickDelta system.kernel.rtTick) keeps
              (awake (by simp)) (Or.inl ⟨thread, rfl, running⟩) free
            rwa [pair] at settled
        | handler index => cases step
    | reschedule =>
        obtain ⟨rfl, rfl⟩ := Prod.mk.inj (Option.some_inj.mp step)
        exact ⟨inv.schedule _, armsNothing _ (by simp)⟩
    | returning =>
        obtain ⟨rfl, rfl⟩ := Prod.mk.inj (Option.some_inj.mp step)
        exact ⟨inv.setFrame waits (.refl _) _ (awake (by simp)), armsNothing _ (by simp)⟩
    | unlink =>
        cases call <;> simp only [reduceCtorEq] at step
        case threadResume thread =>
          obtain ⟨rfl, rfl⟩ := Prod.mk.inj (Option.some_inj.mp step)
          exact ⟨inv.setFrame (waits.resumeUnlink thread) ⟨rfl, rfl, fun _ => id⟩ _
            (awake (by simp)), armsNothing _ (by simp)⟩
    | insert =>
        cases call <;> simp only [reduceCtorEq] at step
        case threadResume thread =>
          obtain ⟨rfl, rfl⟩ := Prod.mk.inj (Option.some_inj.mp step)
          obtain ⟨free, stopped⟩ := loose thread tickDelta there
          have homeless : home thread = none := by
            cases place : home thread with
            | none => rfl
            | some head =>
                have isHead : head.IsHead := by
                  obtain ⟨lists, -, homes⟩ := waits.placed
                  exact ((homes (.tlist thread) head).mp place).1
                exact absurd ((waits.linked_iff isHead thread).mpr place) (free head isHead)
          have inserted := waits.insertThread homeless stopped
          exact ⟨inv.setFrame inserted (.of_update ⟨rfl, rfl, rfl⟩ rfl fun _ => rfl) _
            (awake (by simp)), armsNothing _ (by simp)⟩
  · cases step

/-- Time passes, or the scheduler runs, outside every call. -/
theorem elapse {kernel : Kernel} {home home' : ThreadId → Option ThreadNode}
    (inv : ThreadsInv system) (waits : WaitInv kernel home')
    (elapses : Elapses system.kernel kernel home home') :
    ThreadsInv { system with kernel := kernel } := by
  have isReady : ∀ thread, kernel.rtCurrentThread = .thread thread →
      system.kernel.rtSchedulerLockNest ≠ 0 → (kernel.threads thread).stat = .ready := by
    intro thread isCurrent locked
    rcases elapses.current with same | isReady
    · exact elapses.ready (inv.locked locked thread (same.symm.trans isCurrent))
    · exact isReady thread isCurrent
  refine ⟨⟨home', waits⟩, fun locked thread isCurrent =>
    isReady thread isCurrent (elapses.nest ▸ locked), ?_⟩
  intro thread isCurrent
  rcases elapses.current with same | isReady
  · rcases inv.current thread (same.symm.trans isCurrent) with isReady | suspended
    · exact Or.inl (elapses.ready isReady)
    · exact Or.inr suspended
  · exact Or.inl (isReady thread isCurrent)

theorem threadStartup {thread : ThreadId} {kernel : Kernel} (inv : ThreadsInv system)
    (step : rtThreadStartup system.kernel thread = some kernel) :
    ThreadsInv { system with kernel := kernel } := by
  obtain ⟨home, waits⟩ := inv.homes
  obtain ⟨isInit, started, rest, waits', threads, final⟩ := waits.threadStartup step
  have begun : ThreadsInv { system with kernel := started } := by
    have stays : ∀ other, (system.kernel.threads other).stat = .ready →
        (started.threads other).stat = .ready := by
      intro other isReady
      by_cases same : other = thread
      · subst same
        exact nomatch isInit.symm.trans isReady
      · simpa [threads, same] using isReady
    refine ⟨⟨_, waits'⟩, ?_, ?_⟩
    · intro locked other isCurrent
      exact stays other (inv.locked (rest.nest ▸ locked) other (rest.current.symm.trans isCurrent))
    · intro other isCurrent
      rcases inv.current other (rest.current.symm.trans isCurrent) with isReady | suspended
      · exact Or.inl (stays other isReady)
      · exact Or.inr suspended
  rcases final with rfl | rfl
  · exact begun
  · exact begun.elapse waits'.schedule (.schedule waits')

/-- Every step that inserts only loose threads keeps the invariant, and arms
every timed wait that it begins. -/
theorem step {action : Action} (inv : ThreadsInv system) (loose : ResumesLoose system action)
    (unlocked : WaitsUnlocked system action)
    (step : systemMachine.step system action = some (next, emitted)) :
    ThreadsInv next ∧ ArmsTimers next emitted := by
  cases action with
  | schedulerStart =>
      obtain ⟨home, waits⟩ := inv.homes
      obtain ⟨-, started⟩ := Option.ite_none_right_eq_some.mp step
      obtain ⟨rfl, rfl⟩ := Prod.mk.inj (Option.some_inj.mp started)
      exact ⟨⟨⟨home, waits.congr rfl rfl rfl fun _ => rfl⟩,
        fun _ thread selected => waits.selected_ready selected,
        fun thread selected => Or.inl (waits.selected_ready selected)⟩, armsNothing _ (by simp)⟩
  | threadStartup thread =>
      obtain ⟨kernel, startup, pair⟩ := Option.map_eq_some_iff.mp step
      obtain ⟨rfl, rfl⟩ := Prod.mk.inj pair
      exact ⟨inv.threadStartup startup, armsNothing _ (by simp)⟩
  | tickIncrease =>
      obtain ⟨⟨kernel, fired⟩, tick, pair⟩ := Option.map_eq_some_iff.mp step
      obtain ⟨rfl, rfl⟩ := Prod.mk.inj pair
      obtain ⟨home, waits⟩ := inv.homes
      obtain ⟨home', waits', elapses⟩ := waits.tickIncrease tick
      exact ⟨inv.elapse waits' elapses, armsNothing _ (by simp)⟩
  | enter context call => exact inv.enter unlocked step
  | advance context => exact inv.advance loose unlocked step

end ThreadsInv

/-! ### The scheduler lock -/

@[simp] theorem System.settle_kernel (system : System) (context : Context) (call : Call)
    (kernel : Kernel) (outcome : Outcome) :
    (system.settle context call kernel outcome).1.kernel = kernel := by
  cases outcome <;> rfl

theorem System.wake_nest (system : System) (thread : ThreadId) (frame : Frame) :
    (system.wake thread frame).1.kernel.rtSchedulerLockNest =
      system.kernel.rtSchedulerLockNest := by
  unfold System.wake
  dsimp only
  split
  · unfold rtThreadSleepReturn
    split <;> rfl
  · rfl
  · rfl
  · split <;> rfl

namespace ThreadsInv

variable {system next : System} {context : Context} {emitted : List Notice}

theorem enter_nest {call : Call} (inv : ThreadsInv system)
    (step : system.enter context call = some (next, emitted)) :
    next.kernel.rtSchedulerLockNest = system.kernel.rtSchedulerLockNest := by
  obtain ⟨home, waits⟩ := inv.homes
  obtain ⟨⟨running, allowed, idle⟩, step⟩ := Option.ite_none_right_eq_some.mp step
  split at step
  · split at step <;>
    · obtain ⟨rfl, rfl⟩ := Prod.mk.inj (Option.some_inj.mp step)
      rfl
  · obtain ⟨⟨kernel, outcome⟩, enter, done⟩ := Option.bind_eq_some_iff.mp step
    have pair : system.settle context call kernel outcome = (next, emitted) :=
      Option.some_inj.mp done
    have settled := system.settle_kernel context call kernel outcome
    rw [pair] at settled
    rw [settled]
    cases context with
    | thread thread =>
        exact (Call.enter_keeps waits (inv.currentReady running (by simp [idle])) enter).nest
    | handler index => exact (Call.enter_handler waits allowed enter).1.nest

theorem advance_nest (inv : ThreadsInv system)
    (step : system.advance context = some (next, emitted)) :
    next.kernel.rtSchedulerLockNest = system.kernel.rtSchedulerLockNest := by
  obtain ⟨home, waits⟩ := inv.homes
  obtain ⟨running, step⟩ := Option.ite_none_right_eq_some.mp step
  obtain ⟨⟨call, tickDelta, point⟩, there, step⟩ := Option.bind_eq_some_iff.mp step
  unfold System.advanceFrame at step
  cases point with
  | suspended =>
      obtain ⟨rfl, rfl⟩ := Prod.mk.inj (Option.some_inj.mp step)
      exact (Elapses.schedule waits).nest
  | woken =>
      cases context with
      | thread thread =>
          rw [← (Prod.mk.inj (Option.some_inj.mp step)).1]
          exact system.wake_nest thread _
      | handler index => cases step
  | again =>
      cases context with
      | thread thread =>
          obtain ⟨⟨kernel, outcome⟩, section_, done⟩ := Option.bind_eq_some_iff.mp step
          have pair : system.settle (.thread thread) (call.reduce tickDelta system.kernel.rtTick)
              kernel outcome = (next, emitted) := Option.some_inj.mp done
          have settled := system.settle_kernel (.thread thread)
            (call.reduce tickDelta system.kernel.rtTick) kernel outcome
          rw [pair] at settled
          rw [settled]
          exact (Call.again_keeps waits (inv.currentReady running (by simp [there])) section_).nest
      | handler index => cases step
  | reschedule =>
      obtain ⟨rfl, rfl⟩ := Prod.mk.inj (Option.some_inj.mp step)
      exact (Elapses.schedule waits).nest
  | returning =>
      obtain ⟨rfl, rfl⟩ := Prod.mk.inj (Option.some_inj.mp step)
      rfl
  | unlink =>
      cases call <;> simp only [reduceCtorEq] at step
      obtain ⟨rfl, rfl⟩ := Prod.mk.inj (Option.some_inj.mp step)
      rfl
  | insert =>
      cases call <;> simp only [reduceCtorEq] at step
      obtain ⟨rfl, rfl⟩ := Prod.mk.inj (Option.some_inj.mp step)
      rfl

/-- No step locks or unlocks the scheduler. -/
theorem step_nest {action : Action} (inv : ThreadsInv system)
    (step : systemMachine.step system action = some (next, emitted)) :
    next.kernel.rtSchedulerLockNest = system.kernel.rtSchedulerLockNest := by
  obtain ⟨home, waits⟩ := inv.homes
  cases action with
  | schedulerStart =>
      obtain ⟨-, started⟩ := Option.ite_none_right_eq_some.mp step
      obtain ⟨rfl, rfl⟩ := Prod.mk.inj (Option.some_inj.mp started)
      rfl
  | threadStartup thread =>
      obtain ⟨kernel, startup, pair⟩ := Option.map_eq_some_iff.mp step
      obtain ⟨rfl, rfl⟩ := Prod.mk.inj pair
      obtain ⟨-, started, rest, waits', -, final⟩ := waits.threadStartup startup
      rcases final with rfl | rfl
      · exact rest.nest
      · exact (Elapses.schedule waits').nest.trans rest.nest
  | tickIncrease =>
      obtain ⟨⟨kernel, fired⟩, tick, pair⟩ := Option.map_eq_some_iff.mp step
      obtain ⟨rfl, rfl⟩ := Prod.mk.inj pair
      obtain ⟨home', waits', elapses⟩ := waits.tickIncrease tick
      exact elapses.nest
  | enter context call => exact inv.enter_nest step
  | advance context => exact inv.advance_nest step

end ThreadsInv

/-! ## Every run -/

theorem SystemInv.currentReady {system : System} {thread : ThreadId} (inv : SystemInv system)
    (running : system.kernel.rtCurrentThread = .thread thread)
    (awake : ∀ old, system.frames (.thread thread) = some old → old.point ≠ .suspended) :
    CurrentReady system.kernel := inv.threads.currentReady running awake

theorem SystemInv.step {system next : System} {action : Action} {emitted : List Notice}
    (inv : SystemInv system) (loose : ResumesLoose system action)
    (step : systemMachine.step system action = some (next, emitted)) :
    SystemInv next ∧ ArmsTimers next emitted := by
  obtain ⟨kept, arms⟩ := inv.threads.step loose (Or.inl inv.unlocked) step
  exact ⟨⟨kept.homes, (inv.threads.step_nest step).trans inv.unlocked, kept.current⟩, arms⟩

theorem SystemInv.of_run {config : Config} {actions : List Action} {notices : List Notice}
    {system : System}
    (run : systemMachine.Run ResumesLoose (System.boot config) actions notices system) :
    SystemInv system :=
  run.invariant (SystemInv.initial config) fun _ _ _ _ inv loose step => (inv.step loose step).1

/-- In every run whose resumed threads are loose when they are inserted, ready
threads wait nowhere, suspended ones wait in one place at most, and the timer of
every timed wait is running when the wait begins. -/
theorem waits_consistent {config : Config} {actions : List Action} {notices : List Notice}
    {system : System}
    (run : systemMachine.Run ResumesLoose (System.boot config) actions notices system) :
    WaitConsistent system.kernel ∧
      ∀ action next emitted, ResumesLoose system action →
        systemMachine.step system action = some (next, emitted) → ArmsTimers next emitted := by
  have inv := SystemInv.of_run run
  obtain ⟨home, waits⟩ := inv.homes
  exact ⟨waits.consistent, fun _ _ _ loose step => (inv.step loose step).2⟩

/-- Two threads of different priorities. -/
def twoThreads : Config :=
  { Config.plain with
    priority := fun thread => if thread = 0 then 5 else 10
    priority_lt := by
      intro thread
      split <;> decide }

/-- A thread that `rt_thread_resume` is about to insert is linked to itself. -/
def Frame.insertsAlone (kernel : Kernel) (frame : Frame) : Bool :=
  match frame.call, frame.point with
  | .threadResume thread, .insert =>
      kernel.threadLinks.next (.tlist thread) = .tlist thread &&
        ! (kernel.timers (.thread thread)).activated
  | _, _ => true

def InsertsAlone (system : System) : Action → Prop
  | .advance context => ∀ frame ∈ system.frames context, frame.insertsAlone system.kernel = true
  | _ => True

instance (system : System) : (action : Action) → Decidable (InsertsAlone system action)
  | .advance context =>
    inferInstanceAs (Decidable (∀ frame ∈ system.frames context, _ = true))
  | .schedulerStart | .threadStartup _ | .tickIncrease | .enter _ _ =>
    inferInstanceAs (Decidable True)

theorem SystemInv.resumesLoose {system : System} {action : Action} (inv : SystemInv system)
    (alone : InsertsAlone system action) : ResumesLoose system action := by
  obtain ⟨home, waits⟩ := inv.homes
  cases action with
  | advance context =>
      intro thread tickDelta there
      have itself := alone _ there
      simp only [Frame.insertsAlone, Bool.and_eq_true, decide_eq_true_eq, Bool.not_eq_true']
        at itself
      refine ⟨fun head isHead => ?_, itself.2⟩
      rw [waits.placed.linked_iff isHead, waits.placed.home_eq_none (by simp) itself.1]
      nofun
  | schedulerStart => trivial
  | threadStartup thread => trivial
  | tickIncrease => trivial
  | enter context call => trivial

theorem resumesLoose_of_alone {config : Config} {actions : List Action} {notices : List Notice}
    {system : System}
    (run : systemMachine.Run InsertsAlone (System.boot config) actions notices system) :
    systemMachine.Run ResumesLoose (System.boot config) actions notices system := by
  induction run with
  | nil => exact .nil
  | snoc _ alone transition ih =>
      exact .snoc ih ((SystemInv.of_run ih).resumesLoose alone) transition

/-- Thread 1 resumes thread 0, which waits for a semaphore, and waits for another one until thread 0
releases it. -/
def resumedWaiter : List Action :=
  [.threadStartup 0, .threadStartup 1, .schedulerStart,
    .enter (.thread 0) (.semTake 0 0xffffffff), .advance (.thread 0),
    .enter (.thread 1) (.threadResume 0), .advance (.thread 1), .advance (.thread 1),
    .enter (.thread 1) (.semTake 1 0xffffffff), .advance (.thread 1), .advance (.thread 0),
    .enter (.thread 0) (.semRelease 1), .advance (.thread 0), .advance (.thread 0)]

theorem waits_consistent_two_threads :
    ∃ system notices, systemMachine.execute (System.boot twoThreads) resumedWaiter =
        some (system, notices) ∧
      Notice.returned (.thread 1) (.threadResume 0) .eok ∈ notices ∧
      WaitConsistent system.kernel := by
  have outcome : ((systemMachine.restrict InsertsAlone).execute (System.boot twoThreads)
      resumedWaiter).any (fun outcome =>
        decide (Notice.returned (.thread 1) (.threadResume 0) .eok ∈ outcome.2)) = true := by
    decide +kernel
  obtain ⟨⟨system, notices⟩, restricted, resumed⟩ := (Option.any_eq_true _ _).mp outcome
  have run := resumesLoose_of_alone (Machine.run_of_execute_restrict restricted)
  exact ⟨system, notices, Machine.execute_of_restrict restricted, of_decide_eq_true resumed,
    (waits_consistent run).1⟩

/-- The interrupt handler resumes thread 0 between the two sections of a
`rt_thread_resume` of thread 1, which then inserts it again. Thread 0 stays at
the front of its ready list when it waits for the next semaphore. -/
theorem resume_links_waiting_thread :
    ∃ system notices, systemMachine.execute (System.boot twoThreads)
        [.threadStartup 0, .threadStartup 1, .schedulerStart,
          .enter (.thread 0) (.semTake 0 0xffffffff), .advance (.thread 0),
          .enter (.thread 1) (.threadResume 0), .advance (.thread 1),
          .enter (.handler 0) (.threadResume 0), .advance (.handler 0), .advance (.handler 0),
          .advance (.thread 1),
          .enter (.thread 1) (.semTake 1 0xffffffff), .advance (.thread 1), .advance (.thread 0),
          .enter (.thread 0) (.semTake 0 0xffffffff)] = some (system, notices) ∧
      ¬ WaitConsistent system.kernel := by
  have outcome : (systemMachine.execute (System.boot twoThreads)
      [.threadStartup 0, .threadStartup 1, .schedulerStart,
        .enter (.thread 0) (.semTake 0 0xffffffff), .advance (.thread 0),
        .enter (.thread 1) (.threadResume 0), .advance (.thread 1),
        .enter (.handler 0) (.threadResume 0), .advance (.handler 0), .advance (.handler 0),
        .advance (.thread 1),
        .enter (.thread 1) (.semTake 1 0xffffffff), .advance (.thread 1), .advance (.thread 0),
        .enter (.thread 0) (.semTake 0 0xffffffff)]).any (fun final =>
          decide ((final.1.kernel.threads 0).stat = .suspend ∧
            final.1.kernel.threadLinks.next (.ready 5) = .tlist 0)) = true := by
    decide +kernel
  obtain ⟨⟨system, notices⟩, success, shown⟩ := (Option.any_eq_true _ _).mp outcome
  obtain ⟨suspended, front⟩ : (system.kernel.threads 0).stat = .suspend ∧
      system.kernel.threadLinks.next (.ready 5) = .tlist 0 := of_decide_eq_true shown
  refine ⟨system, notices, success, ?_⟩
  intro consistent
  refine (consistent.suspended 0 suspended).1 5 ⟨1, by decide, by simp [front], ?_⟩
  intro before positive small
  obtain rfl : before = 1 := by omega
  simp [front]

end RtThread
