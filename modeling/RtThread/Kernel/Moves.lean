import RtThread.Kernel.Sections

/-!
# One step of the system

`Move` says once what a step can do as long as nobody calls `rt_thread_resume`.
`CallsInv` is what holds between the steps: a thread that waits on a suspend list
is inside the call that put it there. The invariants of the IPC objects are
proved by cases on the move.
-/

namespace RtThread

open RtThread.Std

/-- The call goes on after the test of `thread->error`. -/
def Call.Loops : Call → Prop
  | .eventRecv _ _ _ _ | .mbSendWait _ _ _ | .mbRecv _ _ => True
  | _ => False

/-- Where a call can be between two of its steps. -/
inductive FrameAt : Context → Frame → Prop where
  | waits {thread : ThreadId} {call : Call} {tickDelta : BitVec 32} {point : Point}
      (blocks : call.Blocks) (halted : point = .suspended ∨ point = .woken) :
      FrameAt (.thread thread) ⟨call, tickDelta, point⟩
  | again {thread : ThreadId} {call : Call} {tickDelta : BitVec 32} (loops : call.Loops) :
      FrameAt (.thread thread) ⟨call, tickDelta, .again⟩
  | passes {context : Context} {call : Call} {tickDelta : BitVec 32} {point : Point}
      (wakes : ∃ list, call.wakes list) (passed : point = .reschedule ∨ point = .returning) :
      FrameAt context ⟨call, tickDelta, point⟩

/-- The thread is in a call that waits on the list, and nothing has happened to
it yet. -/
def WaitsIn (system : System) (list : WaitList) (thread : ThreadId) : Prop :=
  ∃ call tickDelta point, system.frames (.thread thread) = some ⟨call, tickDelta, point⟩ ∧
    (point = .suspended ∨ point = .woken) ∧ call.waitsOn = some list ∧
      (system.kernel.threads thread).error = .eok

structure CallsInv (system : System) : Prop where
  threads : ThreadsInv system
  frames : ∀ context frame, system.frames context = some frame → FrameAt context frame
  begun : ∀ thread, system.frames (.thread thread) ≠ none →
    (system.kernel.threads thread).stat ≠ .init
  waiting : ∀ thread list, system.kernel.Waits list thread → WaitsIn system list thread

/-- No call of `rt_thread_resume` begins. -/
def NoResume : Action → Prop
  | .enter _ (.threadResume _) => False
  | _ => True

/-- The thread is started. -/
structure Starts (kernel next : Kernel) (thread : ThreadId) : Prop where
  init : (kernel.threads thread).stat = .init
  ready : (next.threads thread).stat = .ready
  loose : ∀ list, ¬ next.Waits list thread

/-- What happens to the threads outside every call. -/
structure Passes (kernel next : Kernel) : Prop where
  objects : next.objects = kernel.objects
  thread : ∀ thread, Rests kernel next thread ∨ Resumes kernel next thread .etimeout ∨
    Starts kernel next thread

theorem Elapses.passes {kernel next : Kernel} {home home' : ThreadId → Option ThreadNode}
    (elapses : Elapses kernel next home home') (inv : WaitInv kernel home)
    (inv' : WaitInv next home') : Passes kernel next := by
  refine ⟨elapses.objects, ?_⟩
  intro thread
  rcases elapses.thread thread with stays | timesOut
  · refine Or.inl ⟨stays.stat, stays.error, stays.eventSet, stays.eventInfo, ?_⟩
    intro list
    rw [Kernel.Waits, inv'.linked_iff (ThreadNode.isHead_wait list), stays.waits,
      ← inv.linked_iff (ThreadNode.isHead_wait list), Kernel.Waits]
  · refine Or.inr (Or.inl ⟨timesOut.suspended, timesOut.ready, timesOut.error, ?_⟩)
    intro list there
    exact timesOut.leaves list ((inv'.linked_iff (ThreadNode.isHead_wait list) thread).mp there)

theorem Rests.schedule (kernel : Kernel) (thread : ThreadId) :
    Rests kernel (rtSchedule kernel) thread :=
  .of_same (by rw [rtSchedule_threads]) (rtSchedule_threadLinks kernel)

theorem rtSchedule_objects (kernel : Kernel) : (rtSchedule kernel).objects = kernel.objects := by
  unfold rtSchedule
  dsimp only
  split
  · split <;> rfl
  · rfl

/-- The context that takes the step. -/
def Action.context : Action → Option Context
  | .enter context _ | .advance context => some context
  | _ => none

/-- What a step can do. -/
inductive Move (system : System) : Action → System → List Notice → Prop where
  /-- Time passes, a thread is started or the scheduler is. -/
  | elapse {action : Action} {kernel : Kernel} (nobody : action.context = none)
      (passes : Passes system.kernel kernel) :
      Move system action { system with kernel := kernel } []
  /-- A call runs `rt_schedule`. -/
  | schedule {context : Context} {frame : Frame} {point : Point}
      (there : system.frames context = some frame)
      (onward : frame.point = .suspended ∧ point = .woken ∨
        frame.point = .reschedule ∧ point = .returning) :
      Move system (.advance context)
        (system.setFrame context (rtSchedule system.kernel) (some { frame with point := point })) []
  /-- A call that has resumed a thread returns. -/
  | finish {context : Context} {frame : Frame} (there : system.frames context = some frame)
      (passed : frame.point = .returning) :
      Move system (.advance context) (system.setFrame context system.kernel none)
        [.returned context frame.call .eok]
  | sleepReturn {thread : ThreadId} {frame : Frame} {tick : BitVec 32}
      (there : system.frames (.thread thread) = some frame) (woken : frame.point = .woken)
      (sleeps : frame.call = .threadSleep tick) (runs : Runs (some thread) system.kernel) :
      Move system (.advance (.thread thread))
        (system.setFrame (.thread thread) (rtThreadSleepReturn system.kernel thread) none)
        [.returned (.thread thread) frame.call .eok]
  /-- A thread that has waited returns `thread->error`. -/
  | wakeReturn {thread : ThreadId} {frame : Frame}
      (there : system.frames (.thread thread) = some frame) (woken : frame.point = .woken)
      (waited : frame.call.waitsOn ≠ none) (runs : Runs (some thread) system.kernel)
      (ends : frame.call.Loops → (system.kernel.threads thread).error ≠ .eok) :
      Move system (.advance (.thread thread)) (system.setFrame (.thread thread) system.kernel none)
        [.returned (.thread thread) frame.call (system.kernel.threads thread).error]
  /-- A thread that has waited goes on with its call. -/
  | wakeAgain {thread : ThreadId} {frame : Frame}
      (there : system.frames (.thread thread) = some frame) (woken : frame.point = .woken)
      (loops : frame.call.Loops) (runs : Runs (some thread) system.kernel)
      (succeeds : (system.kernel.threads thread).error = .eok) :
      Move system (.advance (.thread thread))
        (system.setFrame (.thread thread) system.kernel (some { frame with point := .again })) []
  /-- The first section of a call. -/
  | enter {context : Context} {call : Call} {kernel : Kernel} {outcome : Outcome}
      (idle : system.frames context = none) (running : context.Running system.kernel)
      (runs : ∀ thread, context = .thread thread → Runs (some thread) system.kernel)
      (allowed : call.allowedIn context = true)
      (enters : call.enter system.kernel = some (kernel, outcome))
      (effect : SectionEffect call context.self system.kernel kernel outcome)
      (keeps : SectionKeeps system.kernel kernel outcome) :
      Move system (.enter context call) (system.settle context call kernel outcome).1
        (system.settle context call kernel outcome).2
  /-- The section behind the test of `thread->error`. -/
  | again {thread : ThreadId} {call : Call} {tickDelta : BitVec 32} {kernel : Kernel}
      {outcome : Outcome}
      (there : system.frames (.thread thread) = some ⟨call, tickDelta, .again⟩)
      (runs : Runs (some thread) system.kernel)
      (goes : call.again system.kernel thread tickDelta = some (kernel, outcome))
      (effect : SectionEffect (call.reduce tickDelta system.kernel.rtTick) (some thread)
        system.kernel kernel outcome)
      (keeps : SectionKeeps system.kernel kernel outcome) :
      Move system (.advance (.thread thread))
        (system.settle (.thread thread) (call.reduce tickDelta system.kernel.rtTick) kernel
          outcome).1
        (system.settle (.thread thread) (call.reduce tickDelta system.kernel.rtTick) kernel
          outcome).2

/-- A call that is no `rt_thread_resume` begins with its first section. -/
theorem System.enter_settles {system next : System} {context : Context} {call : Call}
    {emitted : List Notice} (without : NoResume (.enter context call))
    (step : system.enter context call = some (next, emitted)) :
    ∃ kernel outcome, system.frames context = none ∧ context.Running system.kernel ∧
      call.allowedIn context = true ∧ call.enter system.kernel = some (kernel, outcome) ∧
      next = (system.settle context call kernel outcome).1 ∧
      emitted = (system.settle context call kernel outcome).2 := by
  obtain ⟨⟨running, allowed, idle⟩, step⟩ := Option.ite_none_right_eq_some.mp step
  split at step
  · exact without.elim
  obtain ⟨⟨kernel, outcome⟩, enters, done⟩ := Option.bind_eq_some_iff.mp step
  obtain pair : system.settle context _ kernel outcome = (next, emitted) :=
    Option.some_inj.mp done
  exact ⟨kernel, outcome, idle, running, allowed, enters, by rw [pair], by rw [pair]⟩

/-- The first section of a call returns from that call only. -/
theorem System.enter_returned {system next : System} {context other : Context}
    {call call' : Call} {result : Err} {emitted : List Notice}
    (without : NoResume (.enter context call))
    (step : system.enter context call = some (next, emitted))
    (returned : .returned other call' result ∈ emitted) : call' = call := by
  obtain ⟨kernel, outcome, -, -, -, -, -, rfl⟩ := System.enter_settles without step
  cases outcome with
  | returns result output =>
      simp only [System.settle, List.mem_append, List.mem_map, List.mem_singleton,
        Notice.returned.injEq] at returned
      rcases returned with ⟨word, -, absurd⟩ | ⟨-, same, -⟩
      · cases absurd
      · exact same
  | suspends timer => simp [System.settle] at returned
  | reschedules output => simp [System.settle] at returned

/-- A call whose first section returns can begin. -/
theorem System.enter_of_section {system : System} {context : Context} {call : Call}
    {kernel : Kernel} {outcome : Outcome} (without : NoResume (.enter context call))
    (running : context.Running system.kernel) (allowed : call.allowedIn context = true)
    (idle : system.frames context = none)
    (enters : call.enter system.kernel = some (kernel, outcome)) :
    systemMachine.step system (.enter context call) =
      some (system.settle context call kernel outcome) := by
  have begins : system.enter context call = some (system.settle context call kernel outcome) := by
    unfold System.enter
    rw [if_pos ⟨running, allowed, idle⟩]
    split
    · exact without.elim
    · rw [enters]
      rfl
  exact begins

namespace CallsInv

variable {system next : System} {context : Context} {emitted : List Notice}

theorem runs {thread : ThreadId} (inv : CallsInv system)
    (running : system.kernel.rtCurrentThread = .thread thread)
    (awake : ∀ old, system.frames (.thread thread) = some old → old.point ≠ .suspended) :
    Runs (some thread) system.kernel :=
  ⟨thread, rfl, running, inv.threads.currentReady running awake thread running⟩

/-- No call of `rt_thread_resume` is under way. -/
theorem resumesLoose (inv : CallsInv system) (action : Action) : ResumesLoose system action := by
  cases action with
  | advance context =>
      intro thread tickDelta there
      have fits := inv.frames context _ there
      cases fits with
      | passes wakes passed => rcases passed with absurd | absurd <;> cases absurd
      | waits blocks halted => rcases halted with absurd | absurd <;> cases absurd
  | schedulerStart => trivial
  | threadStartup thread => trivial
  | tickIncrease => trivial
  | enter context call => trivial

theorem moveEnter {call : Call} (inv : CallsInv system)
    (without : NoResume (.enter context call))
    (step : system.enter context call = some (next, emitted)) :
    Move system (.enter context call) next emitted := by
  obtain ⟨home, waits⟩ := inv.threads.homes
  obtain ⟨kernel, outcome, idle, running, allowed, enters, rfl, rfl⟩ :=
    System.enter_settles without step
  cases context with
  | thread thread =>
      have runs := inv.runs running (by simp [idle])
      have isReady : CurrentReady system.kernel :=
        inv.threads.currentReady running (by simp [idle])
      refine .enter idle running ?_ allowed enters (Call.enter_effect waits runs enters)
        (Call.enter_keeps waits isReady enters)
      rintro other ⟨⟩
      exact runs
  | handler index =>
      refine .enter idle running ?_ allowed enters (Call.enter_handler_effect waits allowed enters)
        (Call.enter_handler waits allowed enters).1
      rintro other ⟨⟩

theorem moveWake {thread : ThreadId} {frame : Frame}
    (there : system.frames (.thread thread) = some frame) (woken : frame.point = .woken)
    (blocks : frame.call.Blocks) (runs : Runs (some thread) system.kernel) :
    Move system (.advance (.thread thread)) (system.wake thread frame).1
      (system.wake thread frame).2 := by
  obtain ⟨call, tickDelta, point⟩ := frame
  have loop : call.Loops → call.waitsOn ≠ none →
      Move system (.advance (.thread thread))
        (if (system.kernel.threads thread).error ≠ .eok then
          (system.setFrame (.thread thread) system.kernel none,
            [Notice.returned (.thread thread) call (system.kernel.threads thread).error])
        else (system.setFrame (.thread thread) system.kernel
          (some ⟨call, tickDelta, .again⟩), [])).1
        (if (system.kernel.threads thread).error ≠ .eok then
          (system.setFrame (.thread thread) system.kernel none,
            [Notice.returned (.thread thread) call (system.kernel.threads thread).error])
        else (system.setFrame (.thread thread) system.kernel
          (some ⟨call, tickDelta, .again⟩), [])).2 := by
    intro loops waited
    split
    · rename_i fails
      exact .wakeReturn there woken waited runs fun _ => fails
    · rename_i succeeds
      exact .wakeAgain there woken loops runs (Classical.not_not.mp succeeds)
  cases call with
  | threadSleep tick => exact .sleepReturn there woken rfl runs
  | semTake sem time => exact .wakeReturn there woken blocks runs fun loops => loops.elim
  | mutexTake mutex time => exact .wakeReturn there woken blocks runs fun loops => loops.elim
  | eventRecv event set option timeout => exact loop trivial blocks
  | mbSendWait mailbox value timeout => exact loop trivial blocks
  | mbRecv mailbox timeout => exact loop trivial blocks
  | semRelease sem => exact absurd rfl blocks
  | mutexRelease mutex => exact absurd rfl blocks
  | eventSend event set => exact absurd rfl blocks
  | semControl sem cmd arg => exact absurd rfl blocks
  | eventControl event cmd => exact absurd rfl blocks
  | mbControl mailbox cmd => exact absurd rfl blocks
  | threadResume thread => exact absurd rfl blocks

theorem moveAdvance (inv : CallsInv system)
    (step : system.advance context = some (next, emitted)) :
    Move system (.advance context) next emitted := by
  obtain ⟨home, waits⟩ := inv.threads.homes
  obtain ⟨running, step⟩ := Option.ite_none_right_eq_some.mp step
  obtain ⟨frame, there, step⟩ := Option.bind_eq_some_iff.mp step
  cases inv.frames context frame there with
  | @waits thread call tickDelta point blocks halted =>
      rcases halted with rfl | rfl
      · obtain ⟨rfl, rfl⟩ := Prod.mk.inj (Option.some_inj.mp step)
        exact .schedule there (Or.inl ⟨rfl, rfl⟩)
      · have runs := inv.runs running (by simp [there])
        have woken := moveWake there rfl blocks runs
        rwa [show system.wake thread _ = (next, emitted) from Option.some_inj.mp step] at woken
  | @again thread call tickDelta loops =>
      obtain ⟨⟨kernel, outcome⟩, goes, done⟩ := Option.bind_eq_some_iff.mp step
      have pair : system.settle (.thread thread) (call.reduce tickDelta system.kernel.rtTick)
          kernel outcome = (next, emitted) := Option.some_inj.mp done
      obtain ⟨rfl, rfl⟩ := Prod.mk.inj pair.symm
      have awake : ∀ old, system.frames (.thread thread) = some old → old.point ≠ .suspended := by
        simp [there]
      exact .again there (inv.runs running awake) goes
        (Call.again_effect waits (inv.runs running awake) goes)
        (Call.again_keeps waits (inv.threads.currentReady running awake) goes)
  | @passes _ call tickDelta point wakes passed =>
      rcases passed with rfl | rfl
      · obtain ⟨rfl, rfl⟩ := Prod.mk.inj (Option.some_inj.mp step)
        exact .schedule there (Or.inr ⟨rfl, rfl⟩)
      · obtain ⟨rfl, rfl⟩ := Prod.mk.inj (Option.some_inj.mp step)
        exact .finish there rfl

theorem passesStartup {thread : ThreadId} {kernel : Kernel} (inv : CallsInv system)
    (step : rtThreadStartup system.kernel thread = some kernel) :
    Passes system.kernel kernel := by
  obtain ⟨home, waits⟩ := inv.threads.homes
  obtain ⟨isInit, started, rest, waits', threads, final⟩ := waits.threadStartup step
  have begun : Passes system.kernel started := by
    refine ⟨rest.objects, ?_⟩
    intro other
    by_cases same : other = thread
    · subst same
      have ready : (started.threads other).stat = .ready := by rw [threads, Function.update_self]
      exact Or.inr (Or.inr ⟨isInit, ready,
        fun list there => nomatch (waits'.suspended_of_waits there).symm.trans ready⟩)
    · exact Or.inl (.of_homes waits waits' (by rw [threads, Function.update_of_ne same])
        (Function.update_of_ne same ..))
  rcases final with rfl | rfl
  · exact begun
  · refine ⟨(rtSchedule_objects started).trans begun.objects, ?_⟩
    intro other
    have rests := Rests.schedule started other
    rcases begun.thread other with same | resumes | starts
    · exact Or.inl (same.trans rests)
    · exact Or.inr (Or.inl (resumes.then_rests rests))
    · exact Or.inr (Or.inr ⟨starts.init, rests.stat.trans starts.ready,
        fun list there => starts.loose list ((rests.waits list).mp there)⟩)

/-- Every step is a move. -/
theorem move {action : Action} (inv : CallsInv system) (without : NoResume action)
    (step : systemMachine.step system action = some (next, emitted)) :
    Move system action next emitted := by
  cases action with
  | schedulerStart =>
      obtain ⟨-, started⟩ := Option.ite_none_right_eq_some.mp step
      obtain ⟨rfl, rfl⟩ := Prod.mk.inj (Option.some_inj.mp started)
      exact .elapse rfl ⟨rfl, fun thread => Or.inl (.of_same rfl rfl)⟩
  | threadStartup thread =>
      obtain ⟨kernel, startup, pair⟩ := Option.map_eq_some_iff.mp step
      obtain ⟨rfl, rfl⟩ := Prod.mk.inj pair
      exact .elapse rfl (inv.passesStartup startup)
  | tickIncrease =>
      obtain ⟨⟨kernel, fired⟩, tick, pair⟩ := Option.map_eq_some_iff.mp step
      obtain ⟨rfl, rfl⟩ := Prod.mk.inj pair
      obtain ⟨home, waits⟩ := inv.threads.homes
      obtain ⟨home', waits', elapses⟩ := waits.tickIncrease tick
      exact .elapse rfl (elapses.passes waits waits')
  | enter context call => exact inv.moveEnter without step
  | advance context => exact inv.moveAdvance step

end CallsInv

/-! ## Everyone but the thread that takes the step -/

@[simp] theorem System.setFrame_frames_self (system : System) (context : Context)
    (kernel : Kernel) (frame : Option Frame) :
    (system.setFrame context kernel frame).frames context = frame :=
  Function.update_self ..

theorem System.setFrame_frames_other (system : System) {context other : Context}
    (kernel : Kernel) (frame : Option Frame) (apart : other ≠ context) :
    (system.setFrame context kernel frame).frames other = system.frames other :=
  Function.update_of_ne apart ..

theorem System.settle_frames_other (system : System) {context other : Context} (call : Call)
    (kernel : Kernel) (outcome : Outcome) (apart : other ≠ context) :
    (system.settle context call kernel outcome).1.frames other = system.frames other := by
  cases outcome <;> exact Function.update_of_ne apart ..

/-- A section shows at most what it stores, the start of its timer and its return. -/
theorem System.settle_silent (system : System) (context : Context) (call : Call)
    (kernel : Kernel) (outcome : Outcome) {shows : Notice → Bool}
    (stored : ∀ word, shows (.stored context word) = false)
    (started : ∀ result, shows (.timerStarted context result) = false)
    (returned : ∀ result, shows (.returned context call result) = false) :
    (system.settle context call kernel outcome).2.countP shows = 0 := by
  rw [List.countP_eq_zero]
  intro notice member
  cases outcome with
  | returns result output =>
      simp only [System.settle, List.mem_append, List.mem_map, List.mem_singleton] at member
      rcases member with ⟨word, -, rfl⟩ | rfl
      · simp [stored]
      · simp [returned]
  | suspends timer =>
      obtain ⟨result, -, rfl⟩ := List.mem_map.mp member
      simp [started]
  | reschedules output =>
      obtain ⟨word, -, rfl⟩ := List.mem_map.mp member
      simp [stored]

/-- What a step does to a thread that does not take it. -/
inductive Bystands (kernel next : Kernel) (thread : ThreadId) : Prop where
  | rests (rests : Rests kernel next thread)
  | timesOut (resumes : Resumes kernel next thread .etimeout)
  | starts (starts : Starts kernel next thread)
  | woken {list : WaitList} {result : Err} (waited : kernel.Waits list thread)
      (resumes : Resumes kernel next thread result)

theorem Rests.sleepReturn {kernel : Kernel} {thread other : ThreadId} (apart : other ≠ thread) :
    Rests kernel (rtThreadSleepReturn kernel thread) other := by
  unfold rtThreadSleepReturn
  split
  · exact .setError kernel _ apart
  · exact .refl kernel other

theorem rtThreadSleepReturn_objects (kernel : Kernel) (thread : ThreadId) :
    (rtThreadSleepReturn kernel thread).objects = kernel.objects := by
  unfold rtThreadSleepReturn
  split <;> rfl

theorem rtThreadSleepReturn_links (kernel : Kernel) (thread : ThreadId) :
    (rtThreadSleepReturn kernel thread).threadLinks = kernel.threadLinks := by
  unfold rtThreadSleepReturn
  split <;> rfl

theorem SectionEffect.bystands {call : Call} {context : Context} {kernel next : Kernel}
    {outcome : Outcome} {thread : ThreadId}
    (effect : SectionEffect call context.self kernel next outcome)
    (apart : context ≠ .thread thread) : Bystands kernel next thread := by
  rcases effect.others thread (Context.self_ne apart) with rests | ⟨list, -, waited, resumes⟩
  · exact .rests rests
  · exact .woken waited resumes

theorem Passes.bystands {kernel next : Kernel} (passes : Passes kernel next)
    (thread : ThreadId) : Bystands kernel next thread := by
  rcases passes.thread thread with rests | resumes | starts
  · exact .rests rests
  · exact .timesOut resumes
  · exact .starts starts

theorem Move.bystander {system next : System} {action : Action} {emitted : List Notice}
    {thread : ThreadId} (move : Move system action next emitted)
    (apart : action.context ≠ some (.thread thread)) :
    next.frames (.thread thread) = system.frames (.thread thread) ∧
      Bystands system.kernel next.kernel thread := by
  have other : ∀ {context : Context}, some context ≠ some (Context.thread thread) →
      Context.thread thread ≠ context := fun different same => different (same ▸ rfl)
  cases move with
  | elapse nobody passes => exact ⟨rfl, passes.bystands thread⟩
  | schedule there onward =>
      exact ⟨system.setFrame_frames_other _ _ (other apart), .rests (.schedule _ thread)⟩
  | finish there passed =>
      exact ⟨system.setFrame_frames_other _ _ (other apart), .rests (.refl _ thread)⟩
  | @sleepReturn self frame tick there woken sleeps runs =>
      have different : thread ≠ self := fun same => apart (same ▸ rfl)
      exact ⟨system.setFrame_frames_other _ _ (other apart), .rests (.sleepReturn different)⟩
  | wakeReturn there woken waited runs ends =>
      exact ⟨system.setFrame_frames_other _ _ (other apart), .rests (.refl _ thread)⟩
  | wakeAgain there woken loops runs succeeds =>
      exact ⟨system.setFrame_frames_other _ _ (other apart), .rests (.refl _ thread)⟩
  | enter idle running runs allowed enters effect keeps =>
      refine ⟨system.settle_frames_other _ _ _ (other apart), ?_⟩
      rw [System.settle_kernel]
      exact effect.bystands fun same => apart (same ▸ rfl)
  | @again self call tickDelta kernel outcome there runs goes effect keeps =>
      refine ⟨system.settle_frames_other _ _ _ (other apart), ?_⟩
      rw [System.settle_kernel]
      have effect' : SectionEffect (call.reduce tickDelta system.kernel.rtTick)
        (Context.thread self).self system.kernel kernel outcome := effect
      exact effect'.bystands fun same => apart (same ▸ rfl)

/-- Who the notice is about. -/
def Notice.context : Notice → Context
  | .returned context _ _ | .stored context _ | .timerStarted context _ => context

theorem System.settle_notices (system : System) (context : Context) (call : Call)
    (kernel : Kernel) (outcome : Outcome) :
    ∀ notice ∈ (system.settle context call kernel outcome).2, notice.context = context := by
  intro notice shown
  cases outcome with
  | returns result output =>
      simp only [System.settle, List.mem_append, List.mem_map, List.mem_singleton] at shown
      rcases shown with ⟨word, -, rfl⟩ | rfl <;> rfl
  | suspends timer =>
      obtain ⟨result, -, rfl⟩ := List.mem_map.mp shown
      rfl
  | reschedules output =>
      obtain ⟨word, -, rfl⟩ := List.mem_map.mp shown
      rfl

/-- A step shows what happens to the context that takes it. -/
theorem Move.notices_context {system next : System} {action : Action} {emitted : List Notice}
    (move : Move system action next emitted) :
    ∀ notice ∈ emitted, action.context = some notice.context := by
  intro notice shown
  cases move with
  | elapse nobody passes => cases shown
  | schedule there onward => cases shown
  | finish there passed =>
      rw [List.mem_singleton.mp shown]
      rfl
  | sleepReturn there woken sleeps runs =>
      rw [List.mem_singleton.mp shown]
      rfl
  | wakeReturn there woken waited runs ends =>
      rw [List.mem_singleton.mp shown]
      rfl
  | wakeAgain there woken loops runs succeeds => cases shown
  | enter idle running runs allowed enters effect keeps =>
      exact congrArg some (System.settle_notices _ _ _ _ _ notice shown).symm
  | again there runs goes effect keeps =>
      exact congrArg some (System.settle_notices _ _ _ _ _ notice shown).symm

theorem Move.frames_other {system next : System} {action : Action} {emitted : List Notice}
    {other : Context} (move : Move system action next emitted)
    (apart : action.context ≠ some other) : next.frames other = system.frames other := by
  have different : ∀ {context : Context}, some context ≠ some other → other ≠ context :=
    fun unequal same => unequal (same ▸ rfl)
  cases move with
  | elapse nobody passes => rfl
  | schedule there onward => exact system.setFrame_frames_other _ _ (different apart)
  | finish there passed => exact system.setFrame_frames_other _ _ (different apart)
  | sleepReturn there woken sleeps runs =>
      exact system.setFrame_frames_other _ _ (different apart)
  | wakeReturn there woken waited runs ends =>
      exact system.setFrame_frames_other _ _ (different apart)
  | wakeAgain there woken loops runs succeeds =>
      exact system.setFrame_frames_other _ _ (different apart)
  | enter idle running runs allowed enters effect keeps =>
      exact system.settle_frames_other _ _ _ (different apart)
  | again there runs goes effect keeps =>
      exact system.settle_frames_other _ _ _ (different apart)

/-- A ready thread and its call are left alone until it runs. -/
theorem Move.rests_of_ready {system next : System} {action : Action} {emitted : List Notice}
    {thread : ThreadId} (move : Move system action next emitted)
    (apart : action.context ≠ some (.thread thread))
    (isReady : (system.kernel.threads thread).stat = .ready) :
    next.frames (.thread thread) = system.frames (.thread thread) ∧
      Rests system.kernel next.kernel thread := by
  obtain ⟨frames, bystands⟩ := move.bystander apart
  refine ⟨frames, ?_⟩
  cases bystands with
  | rests rests => exact rests
  | timesOut resumes => exact nomatch isReady.symm.trans resumes.suspended
  | starts starts => exact nomatch isReady.symm.trans starts.init
  | woken waited resumes => exact nomatch isReady.symm.trans resumes.suspended

/-! ## The invariant -/

theorem WaitsIn.of_rests {system next : System} {list : WaitList} {thread : ThreadId}
    (waits : WaitsIn system list thread)
    (frames : next.frames (.thread thread) = system.frames (.thread thread))
    (rests : Rests system.kernel next.kernel thread) : WaitsIn next list thread := by
  obtain ⟨call, tickDelta, point, there, halted, waitsOn, error⟩ := waits
  exact ⟨call, tickDelta, point, frames.trans there, halted, waitsOn, rests.error.trans error⟩

/-- Before the first call nobody waits. -/
theorem not_waits_boot (config : Config) (list : WaitList) (thread : ThreadId) :
    ¬ (System.boot config).kernel.Waits list thread := by
  intro there
  exact nomatch ((WaitInv.initial config).linked_iff (ThreadNode.isHead_wait list) thread).mp there

theorem CallsInv.initial (config : Config) : CallsInv (System.boot config) := by
  refine ⟨(SystemInv.initial config).threads, ?_, ?_, ?_⟩
  · intro context frame there
    cases there
  · intro thread busy
    exact absurd rfl busy
  · intro thread list there
    exact absurd there (not_waits_boot config list thread)

theorem Call.reduce_waitsOn (call : Call) (tickDelta rtTick : BitVec 32) :
    (call.reduce tickDelta rtTick).waitsOn = call.waitsOn := by
  cases call <;> rfl

theorem Call.reduce_object (call : Call) (tickDelta rtTick : BitVec 32) :
    (call.reduce tickDelta rtTick).object = call.object := by
  cases call <;> rfl

namespace CallsInv

variable {system next : System} {context : Context} {emitted : List Notice}

/-- The frame that a section leaves behind. -/
theorem frameAt_settle {call : Call} {kernel : Kernel} {outcome : Outcome} (inv : CallsInv system)
    (effect : SectionEffect call context.self system.kernel kernel outcome) :
    ∀ other frame, (system.settle context call kernel outcome).1.frames other = some frame →
      FrameAt other frame := by
  intro other frame there
  by_cases same : other = context
  · subst same
    cases outcome with
    | returns result output => simp [System.settle] at there
    | suspends timer =>
        obtain ⟨blocks, thread, self, -⟩ := effect.suspends timer rfl
        simp only [System.settle, System.setFrame_frames_self, Option.some.injEq] at there
        subst there
        cases other with
        | thread self => exact .waits blocks (Or.inl rfl)
        | handler index => cases self
    | reschedules output =>
        simp only [System.settle, System.setFrame_frames_self, Option.some.injEq] at there
        subst there
        exact .passes (effect.reschedules output rfl) (Or.inl rfl)
  · rw [system.settle_frames_other call kernel outcome same] at there
    exact inv.frames other frame there

theorem frameAt_setFrame {kernel : Kernel} {frame : Option Frame} (inv : CallsInv system)
    (fits : ∀ new, frame = some new → FrameAt context new) :
    ∀ other old, (system.setFrame context kernel frame).frames other = some old →
      FrameAt other old := by
  intro other old there
  by_cases same : other = context
  · subst same
    rw [System.setFrame_frames_self] at there
    exact fits old there
  · rw [system.setFrame_frames_other kernel frame same] at there
    exact inv.frames other old there

theorem frameAt_move {action : Action} (inv : CallsInv system)
    (move : Move system action next emitted) :
    ∀ context frame, next.frames context = some frame → FrameAt context frame := by
  cases move with
  | elapse nobody passes => exact inv.frames
  | @schedule context frame point there onward =>
      refine inv.frameAt_setFrame ?_
      rintro new ⟨⟩
      have fits := inv.frames context frame there
      rcases onward with ⟨old, rfl⟩ | ⟨old, rfl⟩ <;> cases fits with
      | waits blocks halted =>
          first
            | exact .waits blocks (Or.inr rfl)
            | exact absurd old (by rcases halted with rfl | rfl <;> simp)
      | again loops => cases old
      | passes wakes passed =>
          first
            | exact .passes wakes (Or.inr rfl)
            | exact absurd old (by rcases passed with rfl | rfl <;> simp)
  | finish there passed => exact inv.frameAt_setFrame nofun
  | sleepReturn there woken sleeps runs => exact inv.frameAt_setFrame nofun
  | wakeReturn there woken waited runs ends => exact inv.frameAt_setFrame nofun
  | wakeAgain there woken loops runs succeeds =>
      refine inv.frameAt_setFrame ?_
      rintro new ⟨⟩
      exact .again loops
  | enter idle running runs allowed enters effect keeps => exact inv.frameAt_settle effect
  | @again thread call tickDelta kernel outcome there runs goes effect keeps =>
      exact @frameAt_settle system (.thread thread) _ kernel outcome inv effect

/-- Only a caller that suspends itself can have joined a list, the one that its
call waits on. -/
theorem section_waits {call : Call} {kernel : Kernel} {outcome : Outcome} {list : WaitList}
    {thread : ThreadId} (runs : ∀ self, context = .thread self → Runs (some self) system.kernel)
    (effect : SectionEffect call context.self system.kernel kernel outcome)
    (keeps : SectionKeeps system.kernel kernel outcome) (waits : kernel.Waits list thread) :
    system.kernel.Waits list thread ∨
      call.waitsOn = some list ∧ ∃ timer, outcome = .suspends timer := by
  by_cases own : context.self = some thread
  · right
    cases context with
    | handler index => cases own
    | thread self =>
        obtain rfl := Option.some_inj.mp own
        obtain ⟨other, same, -, isReady⟩ := runs self rfl
        obtain rfl := Option.some_inj.mp same
        obtain ⟨home, inv⟩ := keeps.homes
        rcases keeps.ready self isReady with ready | ⟨-, timer, rfl⟩
        · exact nomatch ready.symm.trans (inv.suspended_of_waits waits)
        · obtain ⟨-, other, same, halted⟩ := effect.suspends timer rfl
          obtain rfl := Option.some_inj.mp same
          exact ⟨(halted.waits list).mp waits, timer, rfl⟩
  · rcases effect.others thread own with rests | ⟨-, -, -, resumes⟩
    · exact Or.inl ((rests.waits list).mp waits)
    · exact absurd waits (resumes.loose list)

/-- A thread that takes a step has been started. -/
theorem begun_settle {thread : ThreadId} {call : Call} {kernel : Kernel} {outcome : Outcome}
    (runs : Runs (some thread) system.kernel)
    (effect : SectionEffect call (some thread) system.kernel kernel outcome)
    (keeps : SectionKeeps system.kernel kernel outcome) :
    (kernel.threads thread).stat ≠ .init := by
  obtain ⟨self, same, -, isReady⟩ := runs
  obtain rfl := Option.some_inj.mp same
  rcases keeps.ready thread isReady with ready | ⟨-, timer, rfl⟩
  · simp [ready]
  · obtain ⟨-, self, same, halted⟩ := effect.suspends timer rfl
    obtain rfl := Option.some_inj.mp same
    simp [halted.stat]

theorem begun_move {action : Action} {thread : ThreadId} (inv : CallsInv system)
    (move : Move system action next emitted) (busy : next.frames (.thread thread) ≠ none) :
    (next.kernel.threads thread).stat ≠ .init := by
  by_cases apart : action.context = some (.thread thread)
  · cases move with
    | elapse nobody passes => exact nomatch nobody.symm.trans apart
    | schedule there onward =>
        obtain rfl := Option.some_inj.mp apart
        exact (Rests.schedule system.kernel thread).stat ▸ inv.begun thread (by simp [there])
    | finish there passed =>
        obtain rfl := Option.some_inj.mp apart
        exact absurd (system.setFrame_frames_self ..) busy
    | sleepReturn there woken sleeps runs =>
        obtain rfl := Context.thread.inj (Option.some_inj.mp apart)
        exact absurd (system.setFrame_frames_self ..) busy
    | wakeReturn there woken waited runs ends =>
        obtain rfl := Context.thread.inj (Option.some_inj.mp apart)
        exact absurd (system.setFrame_frames_self ..) busy
    | wakeAgain there woken loops runs succeeds =>
        obtain rfl := Context.thread.inj (Option.some_inj.mp apart)
        exact inv.begun _ (by simp [there])
    | enter idle running runs allowed enters effect keeps =>
        obtain rfl := Option.some_inj.mp apart
        rw [System.settle_kernel]
        exact begun_settle (runs thread rfl) effect keeps
    | again there runs goes effect keeps =>
        obtain rfl := Context.thread.inj (Option.some_inj.mp apart)
        rw [System.settle_kernel]
        exact begun_settle runs effect keeps
  · obtain ⟨frames, bystands⟩ := move.bystander apart
    cases bystands with
    | rests rests => exact rests.stat ▸ inv.begun thread (frames ▸ busy)
    | timesOut resumes => simp [resumes.ready]
    | starts starts => simp [starts.ready]
    | woken waited resumes => simp [resumes.ready]

/-- A thread that its own section has put on a suspend list is in that call. -/
theorem waiting_settle {thread : ThreadId} {call : Call} {kernel : Kernel} {outcome : Outcome}
    {list : WaitList} (runs : Runs (some thread) system.kernel)
    (effect : SectionEffect call (some thread) system.kernel kernel outcome)
    (keeps : SectionKeeps system.kernel kernel outcome) (waits : kernel.Waits list thread) :
    WaitsIn (system.settle (.thread thread) call kernel outcome).1 list thread := by
  obtain ⟨self, same, current, isReady⟩ := runs
  obtain rfl := Option.some_inj.mp same
  obtain ⟨home, inv⟩ := keeps.homes
  have suspended := inv.suspended_of_waits waits
  rcases keeps.ready thread isReady with ready | ⟨-, timer, rfl⟩
  · exact nomatch ready.symm.trans suspended
  · obtain ⟨-, self, same, halted⟩ := effect.suspends timer rfl
    obtain rfl := Option.some_inj.mp same
    have waitsOn := (halted.waits list).mp waits
    refine ⟨call, kernel.rtTick, .suspended, ?_, Or.inl rfl, waitsOn, halted.error ?_⟩
    · simp [System.settle]
    · simp [waitsOn]

theorem waiting_move {action : Action} {thread : ThreadId} {list : WaitList}
    (inv : CallsInv system) (move : Move system action next emitted)
    (waits : next.kernel.Waits list thread) : WaitsIn next list thread := by
  obtain ⟨home, placed⟩ := inv.threads.homes
  by_cases apart : action.context = some (.thread thread)
  · have awake : ∀ {kernel : Kernel}, Runs (some thread) kernel → kernel = system.kernel →
        ¬ system.kernel.Waits list thread := by
      rintro kernel ⟨self, same, -, isReady⟩ rfl there
      obtain rfl := Option.some_inj.mp same
      exact nomatch isReady.symm.trans (placed.suspended_of_waits there)
    cases move with
    | elapse nobody passes => exact nomatch nobody.symm.trans apart
    | @schedule context frame point there onward =>
        obtain rfl := Option.some_inj.mp apart
        have rests := Rests.schedule system.kernel thread
        obtain ⟨call, tickDelta, old, there', halted, waitsOn, error⟩ :=
          inv.waiting thread list ((rests.waits list).mp waits)
        obtain rfl := Option.some_inj.mp (there.symm.trans there')
        refine ⟨call, tickDelta, point, by simp, ?_, waitsOn, rests.error.trans error⟩
        rcases onward with ⟨-, rfl⟩ | ⟨resched, rfl⟩
        · exact Or.inr rfl
        · rcases halted with rfl | rfl <;> cases resched
    | @finish context frame there passed =>
        obtain rfl := Option.some_inj.mp apart
        obtain ⟨call, tickDelta, old, there', halted, -⟩ := inv.waiting thread list waits
        obtain rfl := Option.some_inj.mp (there.symm.trans there')
        rcases halted with rfl | rfl <;> cases passed
    | @sleepReturn self frame tick there woken sleeps runs =>
        obtain rfl := Context.thread.inj (Option.some_inj.mp apart)
        refine absurd ?_ (awake runs rfl)
        rw [Kernel.Waits, ← rtThreadSleepReturn_links system.kernel self]
        exact waits
    | wakeReturn there woken waited runs ends =>
        obtain rfl := Context.thread.inj (Option.some_inj.mp apart)
        exact absurd waits (awake runs rfl)
    | wakeAgain there woken loops runs succeeds =>
        obtain rfl := Context.thread.inj (Option.some_inj.mp apart)
        exact absurd waits (awake runs rfl)
    | enter idle running runs allowed enters effect keeps =>
        obtain rfl := Option.some_inj.mp apart
        rw [System.settle_kernel] at waits
        exact waiting_settle (runs thread rfl) effect keeps waits
    | again there runs goes effect keeps =>
        obtain rfl := Context.thread.inj (Option.some_inj.mp apart)
        rw [System.settle_kernel] at waits
        exact waiting_settle runs effect keeps waits
  · obtain ⟨frames, bystands⟩ := move.bystander apart
    cases bystands with
    | rests rests =>
        exact (inv.waiting thread list ((rests.waits list).mp waits)).of_rests frames rests
    | timesOut resumes => exact absurd waits (resumes.loose list)
    | starts starts => exact absurd waits (starts.loose list)
    | woken waited resumes => exact absurd waits (resumes.loose list)

theorem step {action : Action} (inv : CallsInv system) (without : NoResume action)
    (unlocked : WaitsUnlocked system action)
    (step : systemMachine.step system action = some (next, emitted)) : CallsInv next :=
  have move := inv.move without step
  ⟨(inv.threads.step (inv.resumesLoose action) unlocked step).1, inv.frameAt_move move,
    fun _ busy => inv.begun_move move busy, fun _ _ waits => inv.waiting_move move waits⟩

end CallsInv

/-! ## Runs -/

/-- The invariants of a run that never locks the scheduler. -/
structure Unlocked (system : System) : Prop where
  calls : CallsInv system
  nest : system.kernel.rtSchedulerLockNest = 0

theorem Unlocked.step {system next : System} {action : Action} {emitted : List Notice}
    (inv : Unlocked system) (without : NoResume action)
    (step : systemMachine.step system action = some (next, emitted)) : Unlocked next :=
  ⟨inv.calls.step without (Or.inl inv.nest) step,
    (inv.calls.threads.step_nest step).trans inv.nest⟩

/-- What holds at first and is kept by every move holds in every run. -/
theorem Unlocked.run {allowed : System → Action → Prop} {Inv : List Notice → System → Prop}
    {start system : System} {actions : List Action} {notices : List Notice}
    (run : systemMachine.Run allowed start actions notices system)
    (without : ∀ system action, allowed system action → NoResume action)
    (unlocked : Unlocked start) (initial : Inv [] start)
    (preserved : ∀ shown system action next emitted, Unlocked system → Unlocked next →
      Inv shown system → allowed system action → Move system action next emitted →
      Inv (shown ++ emitted) next) : Unlocked system ∧ Inv notices system := by
  induction run with
  | nil => exact ⟨unlocked, initial⟩
  | snoc _ admitted transition ih =>
      obtain ⟨before, holds⟩ := ih
      have after := before.step (without _ _ admitted) transition
      exact ⟨after, preserved _ _ _ _ _ before after holds admitted
        (before.calls.move (without _ _ admitted) transition)⟩

/-- The rule for a run that is annotated. -/
theorem Unlocked.run_annotate {Note : Type} {notes : System → Action → List Note}
    {allowed : System → Action → Prop} {Inv : List Note → List Notice → System → Prop}
    {start system : System} {actions : List Action} {annotated : List (Note ⊕ Notice)}
    (run : (systemMachine.annotate notes).Run allowed start actions annotated system)
    (without : ∀ system action, allowed system action → NoResume action)
    (unlocked : Unlocked start) (initial : Inv [] [] start)
    (preserved : ∀ noted shown system action next emitted, Unlocked system → Unlocked next →
      Inv noted shown system → allowed system action → Move system action next emitted →
      Inv (noted ++ notes system action) (shown ++ emitted) next) :
    Unlocked system ∧
      Inv (annotated.filterMap Sum.getLeft?) (annotated.filterMap Sum.getRight?) system := by
  induction run with
  | nil => exact ⟨unlocked, initial⟩
  | snoc _ admitted annotation ih =>
      obtain ⟨before, holds⟩ := ih
      obtain ⟨shown, transition, rfl⟩ := Machine.annotate_step annotation
      have after := before.step (without _ _ admitted) transition
      rw [Machine.left_of_annotated, Machine.right_of_annotated]
      exact ⟨after, preserved _ _ _ _ _ _ before after holds admitted
        (before.calls.move (without _ _ admitted) transition)⟩

theorem Unlocked.initial (config : Config) : Unlocked (System.boot config) :=
  ⟨.initial config, rfl⟩

theorem Unlocked.of_run {allowed : System → Action → Prop} {config : Config} {system : System}
    {actions : List Action} {notices : List Notice}
    (run : systemMachine.Run allowed (System.boot config) actions notices system)
    (without : ∀ system action, allowed system action → NoResume action) : Unlocked system := by
  have kept := @Unlocked.run allowed (fun _ _ => True) _ _ _ _ run without (.initial config)
    trivial fun _ _ _ _ _ _ _ _ _ _ => trivial
  exact kept.1

/-- The members of a set that has gained and lost at most one element. -/
theorem card_exchange {α : Type} [DecidableEq α] {old : Finset α} {gains loses : Option α}
    (gained : ∀ element, gains = some element → element ∉ old)
    (lost : ∀ element, loses = some element → element ∈ old)
    (apart : gains = none ∨ loses = none) :
    ∃ new : Finset α, (∀ element, element ∈ new ↔
        element ∈ old ∧ loses ≠ some element ∨ gains = some element) ∧
      new.card + loses.toList.length = old.card + gains.toList.length := by
  cases gains with
  | some element =>
      obtain rfl := apart.resolve_left nofun
      refine ⟨insert element old, ?_, ?_⟩
      · intro other
        simp [or_comm, eq_comm]
      · simp [Finset.card_insert_of_notMem (gained element rfl)]
  | none =>
      cases loses with
      | none => exact ⟨old, by simp, rfl⟩
      | some element =>
          refine ⟨old.erase element, ?_, ?_⟩
          · intro other
            simp [and_comm, eq_comm]
          · simpa using Finset.card_erase_add_one (lost element rfl)

/-! ## A call that only has to return -/

/-- The notice is the return of a call in this context. -/
def Notice.returnsIn (context : Context) : Notice → Bool
  | .returned other _ _ => other = context
  | _ => false

/-- The thread is in the call and will return the result when it runs. -/
structure Owes (system : System) (thread : ThreadId) (call : Call) (result : Err) : Prop where
  frame : ∃ tickDelta point, system.frames (.thread thread) = some ⟨call, tickDelta, point⟩ ∧
    (point = .suspended ∨ point = .woken)
  ready : (system.kernel.threads thread).stat = .ready
  error : (system.kernel.threads thread).error = result

/-- The first call to return in the thread is this one, with this result. -/
def Returns (system : System) (notices : List Notice) (thread : ThreadId) (call : Call)
    (result : Err) : Prop :=
  (notices.find? (Notice.returnsIn (.thread thread)) = none ∧ Owes system thread call result) ∨
    notices.find? (Notice.returnsIn (.thread thread)) =
      some (.returned (.thread thread) call result)

theorem Move.quiet {system next : System} {action : Action} {emitted : List Notice}
    {thread : ThreadId} (move : Move system action next emitted)
    (apart : action.context ≠ some (.thread thread)) :
    emitted.find? (Notice.returnsIn (.thread thread)) = none := by
  rw [List.find?_eq_none]
  intro notice shown returns
  have context := move.notices_context notice shown
  cases notice with
  | returned other call result =>
      have same : other = .thread thread := by simpa [Notice.returnsIn] using returns
      exact apart (context.trans (congrArg some same))
  | stored other word => cases returns
  | timerStarted other result => cases returns

/-- One step of a system in which a thread only has to return. -/
theorem Owes.step {system next : System} {action : Action} {emitted : List Notice}
    {thread : ThreadId} {call : Call} {result : Err} (owes : Owes system thread call result)
    (waits : call.waitsOn ≠ none) (straight : ¬ call.Loops)
    (move : Move system action next emitted) : Returns next emitted thread call result := by
  obtain ⟨tickDelta, point, there, halted⟩ := owes.frame
  by_cases apart : action.context = some (.thread thread)
  · cases move with
    | elapse nobody passes => exact nomatch nobody.symm.trans apart
    | @schedule context frame point' there' onward =>
        obtain rfl := Option.some_inj.mp apart
        obtain rfl := Option.some_inj.mp (there.symm.trans there')
        have rests := Rests.schedule system.kernel thread
        refine Or.inl ⟨rfl, ⟨tickDelta, point', by simp, ?_⟩, rests.stat.trans owes.ready,
          rests.error.trans owes.error⟩
        rcases onward with ⟨-, rfl⟩ | ⟨resched, -⟩
        · exact Or.inr rfl
        · rcases halted with rfl | rfl <;> cases resched
    | @finish context frame there' passed =>
        obtain rfl := Option.some_inj.mp apart
        obtain rfl := Option.some_inj.mp (there.symm.trans there')
        rcases halted with rfl | rfl <;> cases passed
    | @sleepReturn self frame tick there' woken sleeps runs =>
        obtain rfl := Context.thread.inj (Option.some_inj.mp apart)
        obtain rfl := Option.some_inj.mp (there.symm.trans there')
        subst sleeps
        exact absurd rfl waits
    | @wakeReturn self frame there' woken waited runs ends =>
        obtain rfl := Context.thread.inj (Option.some_inj.mp apart)
        obtain rfl := Option.some_inj.mp (there.symm.trans there')
        right
        simp [Notice.returnsIn, owes.error]
    | @wakeAgain self frame there' woken loops runs succeeds =>
        obtain rfl := Context.thread.inj (Option.some_inj.mp apart)
        obtain rfl := Option.some_inj.mp (there.symm.trans there')
        exact absurd loops straight
    | enter idle running runs allowed enters effect keeps =>
        obtain rfl := Option.some_inj.mp apart
        exact nomatch idle.symm.trans there
    | again there' runs goes effect keeps =>
        obtain rfl := Context.thread.inj (Option.some_inj.mp apart)
        obtain same := Option.some_inj.mp (there.symm.trans there')
        simp only [Frame.mk.injEq] at same
        rcases halted with rfl | rfl <;> cases same.2.2
  · obtain ⟨frames, rests⟩ := move.rests_of_ready apart owes.ready
    exact Or.inl ⟨move.quiet apart, ⟨tickDelta, point, frames.trans there, halted⟩,
      rests.stat.trans owes.ready, rests.error.trans owes.error⟩

/-- What a ready thread in `rt_sem_take` or `rt_mutex_take` returns is settled,
whatever the others do before it runs. -/
theorem Owes.run {allowed : System → Action → Prop} {start system : System}
    {actions : List Action} {notices : List Notice} {thread : ThreadId} {call : Call}
    {result : Err} (owes : Owes start thread call result) (waits : call.waitsOn ≠ none)
    (straight : ¬ call.Loops) (unlocked : Unlocked start)
    (run : systemMachine.Run allowed start actions notices system)
    (without : ∀ system action, allowed system action → NoResume action) :
    Returns system notices thread call result := by
  have kept : ∀ shown system action next emitted, Unlocked system → Unlocked next →
      Returns system shown thread call result → allowed system action →
      Move system action next emitted → Returns next (shown ++ emitted) thread call result := ?_
  · exact (@Unlocked.run allowed (fun shown system => Returns system shown thread call result)
      _ _ _ _ run without unlocked (Or.inl ⟨rfl, owes⟩) kept).2
  intro shown system action next emitted _ _ returns _ move
  rcases returns with ⟨silent, owes⟩ | returned
  · rcases owes.step waits straight move with ⟨silent', owes'⟩ | returned
    · exact Or.inl ⟨by rw [List.find?_append, silent, silent']; rfl, owes'⟩
    · exact Or.inr (by rw [List.find?_append, silent, returned]; rfl)
  · exact Or.inr (by rw [List.find?_append, returned]; rfl)

/-- Such a thread returns as soon as it has run `rt_schedule` and the test behind
it, and nothing keeps it from doing so. -/
theorem Owes.advances {system : System} {thread : ThreadId} {call : Call} {result : Err}
    (owes : Owes system thread call result) (waits : call.waitsOn ≠ none)
    (straight : ¬ call.Loops) (running : (Context.thread thread).Running system.kernel) :
    ∃ next emitted, systemMachine.step system (.advance (.thread thread)) = some (next, emitted) ∧
      (emitted = [.returned (.thread thread) call result] ∨
        (∃ tickDelta, next.frames (.thread thread) = some ⟨call, tickDelta, .woken⟩) ∧
          Owes next thread call result) := by
  obtain ⟨tickDelta, point, there, halted⟩ := owes.frame
  have advances : ∀ after, system.advanceFrame (.thread thread) ⟨call, tickDelta, point⟩ =
      some after → systemMachine.step system (.advance (.thread thread)) = some after := by
    intro after goes
    have step : system.advance (.thread thread) = some after := by
      rw [System.advance, if_pos running, there]
      exact goes
    exact step
  rcases halted with rfl | rfl
  · have rests := Rests.schedule system.kernel thread
    refine ⟨_, _, advances _ rfl, Or.inr ⟨⟨tickDelta, by simp⟩, ⟨tickDelta, .woken, by simp,
      Or.inr rfl⟩, rests.stat.trans owes.ready, rests.error.trans owes.error⟩⟩
  · have returns : system.wake thread ⟨call, tickDelta, .woken⟩ =
        (system.setFrame (.thread thread) system.kernel none,
          [.returned (.thread thread) call result]) := by
      cases call <;> first
        | exact absurd trivial straight
        | exact absurd rfl waits
        | rw [System.wake, owes.error]
    exact ⟨_, _, advances _ (congrArg some returns), Or.inl rfl⟩

end RtThread
