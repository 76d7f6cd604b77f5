import RtThread.Kernel.MutexView
import RtThread.Kernel.WaitRuns

/-!
# The system of threads and mutexes

Runs in which threads only take and release mutexes, sleep and let time pass.
`MutexState` is such a system seen from its mutexes; `MutexStep` is what can
happen in it, and every step of the kernel is one of its steps.
-/

namespace RtThread

open RtThread.Std

/-- What a thread is doing, as far as mutexes are concerned. -/
inductive Phase where
  | idle
  /-- It has waited in `rt_mutex_take`, which has not returned yet. -/
  | taking (mutex : Nat)
  /-- It has handed the mutex on in `rt_mutex_release`, which has not returned yet. -/
  | releasing (mutex : Nat)
  | sleeping
deriving DecidableEq, Repr

structure MutexState where
  view : MutexView
  phase : ThreadId → Phase

/-- A call on a mutex has returned `RT_EOK`. -/
inductive MutexNotice where
  | took (thread : ThreadId) (mutex : Nat)
  | released (thread : ThreadId) (mutex : Nat)
deriving DecidableEq, Repr

def Notice.onMutex : Notice → Option MutexNotice
  | .returned (.thread thread) (.mutexTake mutex _) .eok => some (.took thread mutex)
  | .returned (.thread thread) (.mutexRelease mutex) .eok => some (.released thread mutex)
  | _ => none

/-- The calls on mutexes that a step begins. For a release it matters who is
first in line. -/
inductive MutexLabel where
  | take (thread : ThreadId) (mutex : Nat) (time : BitVec 32)
  | release (thread : ThreadId) (mutex : Nat) (front : Option ThreadId)
  | other
deriving DecidableEq, Repr

def Action.onMutex (kernel : Kernel) : Action → MutexLabel
  | .enter (.thread thread) (.mutexTake mutex time) => .take thread mutex time
  | .enter (.thread thread) (.mutexRelease mutex) =>
    .release thread mutex (frontWaiter kernel mutex)
  | _ => .other

theorem Action.onMutex_other {kernel : Kernel} {action : Action}
    (notTake : ∀ thread mutex time, action ≠ .enter (.thread thread) (.mutexTake mutex time))
    (notRelease : ∀ thread mutex, action ≠ .enter (.thread thread) (.mutexRelease mutex)) :
    action.onMutex kernel = .other := by
  unfold Action.onMutex
  split
  · exact absurd rfl (notTake _ _ _)
  · exact absurd rfl (notRelease _ _)
  · rfl

/-- The phase of a thread whose section has ended. -/
def Outcome.phase (during : Phase) : Outcome → Phase
  | .returns _ _ => .idle
  | .suspends _ => during
  | .reschedules _ => during

/-- What a section shows when it returns `RT_EOK`. -/
def Outcome.shows (notice : MutexNotice) : Outcome → List MutexNotice
  | .returns .eok _ => [notice]
  | _ => []

/-- Nothing happens to the mutexes and priorities; threads may time out. -/
structure ViewElapses (before after : MutexView) : Prop where
  currentPriority : after.currentPriority = before.currentPriority
  initPriority : after.initPriority = before.initPriority
  mutexes : after.mutexes = before.mutexes
  thread : ∀ thread,
    (after.stat thread = before.stat thread ∧ after.error thread = before.error thread ∧
      after.waits thread = before.waits thread) ∨
    (before.stat thread = .suspend ∧ after.stat thread = .ready ∧
      after.error thread = .etimeout ∧ after.waits thread = none)

/-- What can happen to threads and mutexes. -/
inductive MutexStep (before : MutexState) :
    MutexLabel → List MutexNotice → MutexState → Prop where
  | take {thread : ThreadId} {mutex : Nat} {time : BitVec 32} {after : MutexView}
      {outcome : Outcome} (isReady : before.view.stat thread = .ready)
      (isIdle : before.phase thread = .idle)
      (move : TakeMove thread mutex time before.view after outcome) :
      MutexStep before (.take thread mutex time) (outcome.shows (.took thread mutex))
        ⟨after, Function.update before.phase thread (outcome.phase (.taking mutex))⟩
  | release {thread : ThreadId} {mutex : Nat} {front : Option ThreadId} {after : MutexView}
      {outcome : Outcome} (isReady : before.view.stat thread = .ready)
      (isIdle : before.phase thread = .idle)
      (move : ReleaseMove thread mutex front before.view after outcome) :
      MutexStep before (.release thread mutex front) (outcome.shows (.released thread mutex))
        ⟨after, Function.update before.phase thread (outcome.phase (.releasing mutex))⟩
  | sleep {thread : ThreadId} (isReady : before.view.stat thread = .ready)
      (isIdle : before.phase thread = .idle) :
      MutexStep before .other []
        ⟨before.view.setStat thread .suspend, Function.update before.phase thread .sleeping⟩
  /-- A thread that waited for a mutex returns. -/
  | finishTake {thread : ThreadId} {mutex : Nat} (isReady : before.view.stat thread = .ready)
      (during : before.phase thread = .taking mutex) :
      MutexStep before .other
        (if before.view.error thread = .eok then [.took thread mutex] else [])
        ⟨before.view, Function.update before.phase thread .idle⟩
  | finishRelease {thread : ThreadId} {mutex : Nat}
      (during : before.phase thread = .releasing mutex) :
      MutexStep before .other [.released thread mutex]
        ⟨before.view, Function.update before.phase thread .idle⟩
  | finishSleep {thread : ThreadId} (result : Err)
      (during : before.phase thread = .sleeping) :
      MutexStep before .other []
        ⟨before.view.setError thread result, Function.update before.phase thread .idle⟩
  | start {thread : ThreadId} (isInit : before.view.stat thread = .init) :
      MutexStep before .other []
        ⟨(before.view.setStat thread .ready).setPriority thread
          (before.view.initPriority thread), before.phase⟩
  | elapse {after : MutexView} (elapses : ViewElapses before.view after) :
      MutexStep before .other [] ⟨after, before.phase⟩

/-! ## The kernel refines it -/

/-- The frame of a thread and its phase. -/
inductive FrameFits : Option Frame → Phase → Prop where
  | idle : FrameFits none .idle
  | taking {mutex : Nat} {time tickDelta : BitVec 32} {point : Point}
      (waits : point = .suspended ∨ point = .woken) :
      FrameFits (some ⟨.mutexTake mutex time, tickDelta, point⟩) (.taking mutex)
  | releasing {mutex : Nat} {tickDelta : BitVec 32} {point : Point}
      (passed : point = .reschedule ∨ point = .returning) :
      FrameFits (some ⟨.mutexRelease mutex, tickDelta, point⟩) (.releasing mutex)
  | sleeping {tick tickDelta : BitVec 32} {point : Point}
      (waits : point = .suspended ∨ point = .woken) :
      FrameFits (some ⟨.threadSleep tick, tickDelta, point⟩) .sleeping

/-- The state is what the system looks like. -/
structure Refines (system : System) (state : MutexState) : Prop where
  inv : SystemInv system
  seen : ∃ home, WaitInv system.kernel home ∧ state.view = view system.kernel home
  frames : ∀ thread, FrameFits (system.frames (.thread thread)) (state.phase thread)
  handlers : ∀ index, system.frames (.handler index) = none

/-- Threads only take and release mutexes and sleep. -/
def MutexCalls : Action → Prop
  | .enter _ (.mutexTake _ _) => True
  | .enter _ (.mutexRelease _) => True
  | .enter _ (.threadSleep _) => True
  | .enter _ _ => False
  | _ => True

instance : DecidablePred MutexCalls
  | .enter _ (.mutexTake _ _) | .enter _ (.mutexRelease _) | .enter _ (.threadSleep _)
  | .schedulerStart | .threadStartup _ | .tickIncrease | .advance _ => isTrue trivial
  | .enter _ (.semTake _ _) | .enter _ (.semRelease _) | .enter _ (.eventSend _ _)
  | .enter _ (.eventRecv _ _ _ _) | .enter _ (.mbSendWait _ _ _) | .enter _ (.mbRecv _ _)
  | .enter _ (.semControl _ _ _) | .enter _ (.eventControl _ _) | .enter _ (.mbControl _ _)
  | .enter _ (.threadResume _) => isFalse id

theorem Refines.initial (config : Config) :
    Refines (System.boot config) ⟨view config.kernel fun _ => none, fun _ => .idle⟩ :=
  ⟨.initial config, ⟨_, .initial config, rfl⟩, fun _ => .idle, fun _ => rfl⟩

/-- The passage of time and its view. -/
theorem Elapses.viewElapses {kernel next : Kernel} {home home' : ThreadId → Option ThreadNode}
    (elapses : Elapses kernel next home home') :
    ViewElapses (view kernel home) (view next home') where
  currentPriority := funext elapses.currentPriority
  initPriority := funext elapses.initPriority
  mutexes := elapses.mutexes
  thread thread := by
    rcases elapses.thread thread with stays | timesOut
    · refine Or.inl ⟨stays.stat, stays.error, ?_⟩
      ext list
      simp only [view, suspendList_eq_some]
      exact stays.waits list
    · refine Or.inr ⟨timesOut.suspended, timesOut.ready, timesOut.error, ?_⟩
      rw [Option.eq_none_iff_forall_ne_some]
      intro list there
      exact timesOut.leaves list (suspendList_eq_some.mp there)

namespace Refines

variable {system next : System} {state : MutexState} {context : Context}
  {emitted : List Notice}

theorem resumesLoose (refines : Refines system state) (action : Action) :
    ResumesLoose system action := by
  cases action with
  | advance context =>
      intro thread tickDelta there
      cases context with
      | thread self =>
          have fits := refines.frames self
          rw [there] at fits
          cases fits
      | handler index => exact nomatch (refines.handlers index).symm.trans there
  | schedulerStart => trivial
  | threadStartup thread => trivial
  | tickIncrease => trivial
  | enter context call => trivial

/-- The system after a step of one thread. -/
theorem setFrame {thread : ThreadId} {kernel : Kernel} {frame : Option Frame} {phase : Phase}
    (refines : Refines system state)
    (inv : SystemInv (system.setFrame (.thread thread) kernel frame))
    {home : ThreadId → Option ThreadNode} (waits : WaitInv kernel home)
    (fits : FrameFits frame phase) :
    Refines (system.setFrame (.thread thread) kernel frame)
      ⟨view kernel home, Function.update state.phase thread phase⟩ := by
  refine ⟨inv, ⟨home, waits, rfl⟩, ?_, ?_⟩
  · intro other
    by_cases same : other = thread
    · subst same
      simpa [System.setFrame] using fits
    · simpa [System.setFrame, same] using refines.frames other
  · intro index
    simpa [System.setFrame] using refines.handlers index

/-- The end of the first section of a call on a mutex. -/
theorem settle {thread : ThreadId} {kernel : Kernel} {call : Call} {outcome : Outcome}
    (refines : Refines system state) (during : Phase)
    (inv : SystemInv (system.settle (.thread thread) call kernel outcome).1)
    {home : ThreadId → Option ThreadNode} (waits : WaitInv kernel home)
    (suspends : ∀ timer tickDelta, outcome = .suspends timer →
      FrameFits (some ⟨call, tickDelta, .suspended⟩) during)
    (reschedules : ∀ output tickDelta, outcome = .reschedules output →
      FrameFits (some ⟨call, tickDelta, .reschedule⟩) during) :
    Refines (system.settle (.thread thread) call kernel outcome).1
      ⟨view kernel home, Function.update state.phase thread (outcome.phase during)⟩ := by
  cases outcome with
  | returns result output => exact refines.setFrame inv waits .idle
  | suspends timer => exact refines.setFrame inv waits (suspends timer _ rfl)
  | reschedules output => exact refines.setFrame inv waits (reschedules output _ rfl)

/-- A settled section shows the return of its call and nothing else. -/
theorem settle_take (system : System) (thread : ThreadId) (kernel : Kernel) (mutex : Nat)
    (time : BitVec 32) (outcome : Outcome) :
    (system.settle (.thread thread) (.mutexTake mutex time) kernel outcome).2.filterMap
      Notice.onMutex = outcome.shows (.took thread mutex) := by
  cases outcome with
  | returns result output => cases output <;> cases result <;> rfl
  | suspends timer => cases timer <;> rfl
  | reschedules output => cases output <;> rfl

theorem returned_take (thread : ThreadId) (mutex : Nat) (time : BitVec 32) (result : Err) :
    [Notice.returned (.thread thread) (.mutexTake mutex time) result].filterMap Notice.onMutex =
      if result = .eok then [.took thread mutex] else [] := by
  cases result <;> rfl

theorem settle_release (system : System) (thread : ThreadId) (kernel : Kernel) (mutex : Nat)
    (outcome : Outcome) :
    (system.settle (.thread thread) (.mutexRelease mutex) kernel outcome).2.filterMap
      Notice.onMutex = outcome.shows (.released thread mutex) := by
  cases outcome with
  | returns result output => cases output <;> cases result <;> rfl
  | suspends timer => cases timer <;> rfl
  | reschedules output => cases output <;> rfl

/-- The view of a thread that goes to sleep. -/
theorem threadSleepEnter_refines {kernel slept : Kernel} {home : ThreadId → Option ThreadNode}
    {thread : ThreadId} {tick : BitVec 32} {outcome : Outcome} (waits : WaitInv kernel home)
    (running : kernel.rtCurrentThread = .thread thread)
    (isReady : (kernel.threads thread).stat = .ready)
    (step : threadSleepEnter kernel tick = some (slept, outcome)) :
    ∃ home' timer, WaitInv slept home' ∧ outcome = .suspends timer ∧
      view slept home' = (view kernel home).setStat thread .suspend := by
  simp only [threadSleepEnter, running] at step
  obtain ⟨⟨result, asleep⟩, start, done⟩ := Option.bind_eq_some_iff.mp step
  obtain ⟨rfl, rfl⟩ := Prod.mk.inj (Option.some_inj.mp done)
  have rest := rtThreadSuspend_sameRest kernel thread
  have threads := rtThreadSuspend_threads isReady
  have timers : (rtThreadSuspend kernel thread).2.timers = kernel.timers := by
    simp [rtThreadSuspend, isReady, Kernel.setStat, Kernel.setThread]
  obtain ⟨-, -, armed, frame⟩ := (waits.suspendThread isReady).startTimer
    (by simp [threads]) (by rw [timers]; exact waits.stopped_of_ready isReady) start
  refine ⟨_, _, armed, rfl, ?_⟩
  have unlisted : suspendList (home thread) = none := by
    rw [Option.eq_none_iff_forall_ne_some]
    intro list there
    exact waits.not_waiting_of_ready isReady list (suspendList_eq_some.mp there)
  have threads' : asleep.threads = Function.update kernel.threads thread
      { kernel.threads thread with stat := .suspend } := by
    rw [frame]
    exact threads
  have mutexes : asleep.mutexes = kernel.mutexes := by
    rw [frame]
    exact rest.mutexes
  have own : suspendList (Function.update home thread none thread) = suspendList (home thread) := by
    rw [Function.update_self, unlisted]
    rfl
  rw [view_update threads' mutexes own fun other apart => by rw [Function.update_of_ne apart]]
  simp [MutexView.setStat, view]

theorem enter (refines : Refines system state) {call : Call}
    (mutexCalls : MutexCalls (.enter context call)) (inv : SystemInv next)
    (step : system.enter context call = some (next, emitted)) :
    ∃ state', MutexStep state (Action.onMutex system.kernel (.enter context call))
      (emitted.filterMap Notice.onMutex) state' ∧ Refines next state' := by
  unfold System.enter at step
  split at step
  · rename_i admitted
    obtain ⟨running, allowed, idleFrame⟩ := admitted
    cases context with
    | handler index =>
        cases call <;> first | exact mutexCalls.elim | cases allowed
    | thread thread =>
        obtain ⟨home, waits, seen⟩ := refines.seen
        have isReady := refines.inv.currentReady running (by simp [idleFrame]) thread running
        have isReady' : state.view.stat thread = .ready := by
          rw [seen]
          exact isReady
        have isIdle : state.phase thread = .idle := by
          have fits := refines.frames thread
          rw [idleFrame] at fits
          generalize state.phase thread = phase at fits
          cases fits
          rfl
        cases call <;> first | exact mutexCalls.elim | skip
        case mutexTake mutex time =>
          obtain ⟨⟨kernel, outcome⟩, taken, done⟩ := Option.bind_eq_some_iff.mp step
          obtain ⟨home', waits', move⟩ := rtMutexTake_refines waits running isReady taken
          rw [← seen] at move
          have pair : system.settle (.thread thread) (.mutexTake mutex time) kernel outcome =
              (next, emitted) := Option.some_inj.mp done
          have shows := settle_take system thread kernel mutex time outcome
          have settled := refines.settle (.taking mutex) (by rw [pair]; exact inv) waits'
            (fun _ _ _ => .taking (Or.inl rfl))
            (fun output _ reschedules => absurd reschedules (move.not_reschedules output))
          rw [pair] at shows settled
          refine ⟨_, ?_, settled⟩
          rw [show emitted.filterMap Notice.onMutex = _ from shows]
          exact .take isReady' isIdle move
        case mutexRelease mutex =>
          obtain ⟨⟨kernel, outcome⟩, released, done⟩ := Option.bind_eq_some_iff.mp step
          obtain ⟨home', waits', move⟩ := rtMutexRelease_refines waits running released
          rw [← seen] at move
          have pair : system.settle (.thread thread) (.mutexRelease mutex) kernel outcome =
              (next, emitted) := Option.some_inj.mp done
          have shows := settle_release system thread kernel mutex outcome
          have settled := refines.settle (.releasing mutex) (by rw [pair]; exact inv) waits'
            (fun timer _ suspends => absurd suspends (move.not_suspends timer))
            (fun _ _ _ => .releasing (Or.inl rfl))
          rw [pair] at shows settled
          refine ⟨_, ?_, settled⟩
          rw [show emitted.filterMap Notice.onMutex = _ from shows]
          exact .release isReady' isIdle move
        case threadSleep tick =>
          obtain ⟨⟨kernel, outcome⟩, slept, done⟩ := Option.bind_eq_some_iff.mp step
          obtain ⟨home', timer, waits', rfl, asleep⟩ :=
            threadSleepEnter_refines waits running isReady slept
          rw [← seen] at asleep
          have pair : system.settle (.thread thread) (.threadSleep tick) kernel
              (.suspends timer) = (next, emitted) := Option.some_inj.mp done
          have settled := refines.settle .sleeping (by rw [pair]; exact inv) waits'
            (fun _ _ _ => .sleeping (Or.inl rfl)) (by
              intro output tickDelta suspends
              cases suspends)
          have silent : emitted.filterMap Notice.onMutex = [] := by
            rw [show emitted = _ from (Prod.mk.inj pair).2.symm]
            cases timer <;> rfl
          rw [pair] at settled
          refine ⟨_, ?_, settled⟩
          rw [silent, asleep]
          exact .sleep isReady' isIdle
  · cases step

/-- The record of a thread that goes on is not touched before it runs. -/
theorem advance (refines : Refines system state) (inv : SystemInv next)
    (step : system.advance context = some (next, emitted)) :
    ∃ state', MutexStep state .other (emitted.filterMap Notice.onMutex) state' ∧
      Refines next state' := by
  unfold System.advance at step
  split at step
  · rename_i running
    obtain ⟨⟨call, tickDelta, point⟩, there, step⟩ := Option.bind_eq_some_iff.mp step
    obtain ⟨home, waits, seen⟩ := refines.seen
    cases context with
    | handler index => exact nomatch (refines.handlers index).symm.trans there
    | thread thread =>
        have fits := refines.frames thread
        rw [there] at fits
        have isReady : point ≠ .suspended → state.view.stat thread = .ready := by
          intro awake
          rw [seen]
          refine refines.inv.currentReady running ?_ thread running
          intro old there'
          obtain rfl := Option.some_inj.mp (there.symm.trans there')
          exact awake
        have same : ∀ frame, FrameFits frame (state.phase thread) →
            next = system.setFrame (.thread thread) (rtSchedule system.kernel) frame →
            ∃ state', MutexStep state .other [] state' ∧ Refines next state' := by
          rintro frame fits rfl
          have elapses := (Elapses.schedule waits).viewElapses
          have refines' := refines.setFrame inv waits.schedule fits
          rw [Function.update_eq_self] at refines'
          rw [← seen] at elapses
          exact ⟨_, .elapse elapses, refines'⟩
        generalize during : state.phase thread = phase at fits same
        cases fits with
        | @taking mutex time _ _ waiting =>
            rcases waiting with rfl | rfl
            · obtain ⟨rfl, rfl⟩ := Prod.mk.inj (Option.some_inj.mp step)
              exact same _ (.taking (Or.inr rfl)) rfl
            · obtain ⟨rfl, rfl⟩ := Prod.mk.inj (Option.some_inj.mp step)
              have finished := refines.setFrame inv waits .idle
              rw [← seen] at finished
              have shows : ([Notice.returned (.thread thread) (.mutexTake mutex time)
                  (system.kernel.threads thread).error].filterMap Notice.onMutex) =
                    if state.view.error thread = .eok then [.took thread mutex] else [] := by
                rw [seen]
                exact returned_take thread mutex time _
              refine ⟨_, ?_, finished⟩
              rw [shows]
              exact .finishTake (isReady (by simp)) during
        | @releasing mutex _ _ passed =>
            rcases passed with rfl | rfl
            · obtain ⟨rfl, rfl⟩ := Prod.mk.inj (Option.some_inj.mp step)
              exact same _ (.releasing (Or.inr rfl)) rfl
            · obtain ⟨rfl, rfl⟩ := Prod.mk.inj (Option.some_inj.mp step)
              have finished := refines.setFrame inv waits .idle
              rw [← seen] at finished
              exact ⟨_, .finishRelease during, finished⟩
        | @sleeping tick _ _ waiting =>
            rcases waiting with rfl | rfl
            · obtain ⟨rfl, rfl⟩ := Prod.mk.inj (Option.some_inj.mp step)
              exact same _ (.sleeping (Or.inr rfl)) rfl
            · obtain ⟨rfl, rfl⟩ := Prod.mk.inj (Option.some_inj.mp step)
              obtain ⟨result, returned, waits'⟩ : ∃ result,
                  view (rtThreadSleepReturn system.kernel thread) home =
                    state.view.setError thread result ∧
                  WaitInv (rtThreadSleepReturn system.kernel thread) home := by
                unfold rtThreadSleepReturn
                split
                · exact ⟨.eok, by rw [view_setError, seen], waits.setError thread .eok⟩
                · exact ⟨state.view.error thread, by simp [MutexView.setError, seen], waits⟩
              have finished := refines.setFrame inv waits' .idle
              rw [returned] at finished
              exact ⟨_, .finishSleep result during, finished⟩
  · cases step

/-- A step outside every call. -/
theorem withKernel {kernel : Kernel} {home : ThreadId → Option ThreadNode}
    (refines : Refines system state) (inv : SystemInv { system with kernel := kernel })
    (waits : WaitInv kernel home) :
    Refines { system with kernel := kernel } ⟨view kernel home, state.phase⟩ :=
  ⟨inv, ⟨home, waits, rfl⟩, refines.frames, refines.handlers⟩

theorem threadStartup {thread : ThreadId} {kernel : Kernel} (refines : Refines system state)
    (inv : SystemInv { system with kernel := kernel })
    (step : rtThreadStartup system.kernel thread = some kernel) :
    ∃ state', MutexStep state .other [] state' ∧
      Refines { system with kernel := kernel } state' := by
  obtain ⟨home, waits, seen⟩ := refines.seen
  obtain ⟨isInit, started, rest, waits', threads, final⟩ := waits.threadStartup step
  have unlisted : suspendList (home thread) = none := by
    rw [Option.eq_none_iff_forall_ne_some]
    intro list there
    exact nomatch isInit.symm.trans (waits.waiting thread list (suspendList_eq_some.mp there))
  have own : suspendList (Function.update home thread
      (some (.ready (system.kernel.threads thread).initPriority)) thread) =
        suspendList (home thread) := by
    rw [Function.update_self, suspendList_ready, unlisted]
  have begun : view started (Function.update home thread
      (some (.ready (system.kernel.threads thread).initPriority))) =
        (state.view.setStat thread .ready).setPriority thread (state.view.initPriority thread) := by
    rw [view_update threads rest.mutexes own
      fun other apart => by rw [Function.update_of_ne apart]]
    rw [seen]
    simp [MutexView.setStat, MutexView.setPriority, view]
  have isInit' : state.view.stat thread = .init := by
    rw [seen]
    exact isInit
  rcases final with rfl | rfl
  · have refines' := refines.withKernel inv waits'
    rw [begun] at refines'
    exact ⟨_, .start isInit', refines'⟩
  · have refines' := refines.withKernel inv waits'.schedule
    rw [view_congr (rtSchedule_threads started) (Elapses.schedule waits').mutexes, begun]
      at refines'
    exact ⟨_, .start isInit', refines'⟩

/-- Every step of the kernel is a step of the system of threads and mutexes. -/
theorem step {action : Action} (refines : Refines system state) (mutexCalls : MutexCalls action)
    (step : systemMachine.step system action = some (next, emitted)) :
    ∃ state', MutexStep state (action.onMutex system.kernel)
        (emitted.filterMap Notice.onMutex) state' ∧
      Refines next state' := by
  have inv := (refines.inv.step (refines.resumesLoose action) step).1
  cases action with
  | schedulerStart =>
      obtain ⟨-, started⟩ := Option.ite_none_right_eq_some.mp step
      obtain ⟨rfl, rfl⟩ := Prod.mk.inj (Option.some_inj.mp started)
      obtain ⟨home, waits, seen⟩ := refines.seen
      have elapses : Elapses system.kernel (rtSystemSchedulerStart system.kernel) home home :=
        ⟨fun _ => rfl, fun _ => rfl, fun _ => Or.inl ⟨rfl, rfl, rfl, rfl, fun _ => Iff.rfl⟩,
          Or.inr fun thread selected => waits.selected_ready selected, rfl, rfl⟩
      have moved := elapses.viewElapses
      rw [← seen] at moved
      exact ⟨_, .elapse moved, refines.withKernel inv (waits.congr rfl rfl rfl fun _ => rfl)⟩
  | threadStartup thread =>
      obtain ⟨kernel, startup, pair⟩ := Option.map_eq_some_iff.mp step
      obtain ⟨rfl, rfl⟩ := Prod.mk.inj pair
      exact refines.threadStartup inv startup
  | tickIncrease =>
      obtain ⟨⟨kernel, fired⟩, tick, pair⟩ := Option.map_eq_some_iff.mp step
      obtain ⟨rfl, rfl⟩ := Prod.mk.inj pair
      obtain ⟨home, waits, seen⟩ := refines.seen
      obtain ⟨home', waits', elapses⟩ := waits.tickIncrease tick
      have moved := elapses.viewElapses
      rw [← seen] at moved
      exact ⟨_, .elapse moved, refines.withKernel inv waits'⟩
  | enter context call => exact refines.enter mutexCalls inv step
  | advance context => exact refines.advance inv step

end Refines

/-- What holds at the start and in every step of the system of threads and
mutexes holds in every run of the kernel. -/
theorem Refines.of_run {config : Config} {allowed : System → Action → Prop}
    {Inv : List MutexNotice → MutexState → Prop} {actions : List Action}
    {notices : List Notice} {system : System}
    (run : systemMachine.Run allowed (System.boot config) actions notices system)
    (mutexCalls : ∀ system action, allowed system action → MutexCalls action)
    (initial : Inv [] ⟨view config.kernel fun _ => none, fun _ => .idle⟩)
    (preserved : ∀ shown state label emitted next system action, Inv shown state →
      Refines system state → allowed system action → action.onMutex system.kernel = label →
      MutexStep state label emitted next → Inv (shown ++ emitted) next) :
    ∃ state, Refines system state ∧ Inv (notices.filterMap Notice.onMutex) state := by
  induction run with
  | nil => exact ⟨_, .initial config, initial⟩
  | @snoc actions events state action emitted next _ admitted transition ih =>
      obtain ⟨abstract, refines, holds⟩ := ih
      obtain ⟨abstract', moved, refines'⟩ :=
        refines.step (mutexCalls _ _ admitted) transition
      refine ⟨abstract', refines', ?_⟩
      rw [List.filterMap_append]
      exact preserved _ _ _ _ _ _ _ holds refines admitted rfl moved

end RtThread
