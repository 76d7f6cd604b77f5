import RtThread.Kernel.MutexMoves
import RtThread.Kernel.SemRuns

/-!
# The scheduler lock

Threads may nest `rt_enter_critical` and `rt_exit_critical`. While the lock is
held `rt_schedule` does nothing, so a call that has to wait goes on at once and
finds no error. What holds of the takes holds as long as no call waits then.
-/

namespace RtThread

open RtThread.Std

/-- The section of `rt_exit_critical`, and whether `rt_schedule` follows. -/
def rtExitCriticalSection (kernel : Kernel) : Kernel × Bool :=
  let nest := (kernel.rtSchedulerLockNest - 1).bmod 65536
  if nest ≤ 0 then ({ kernel with rtSchedulerLockNest := 0 }, true)
  else ({ kernel with rtSchedulerLockNest := nest }, false)

theorem rtExitCritical_eq (kernel : Kernel) :
    rtExitCritical kernel =
      if (rtExitCriticalSection kernel).2 then rtSchedule (rtExitCriticalSection kernel).1
      else (rtExitCriticalSection kernel).1 := by
  unfold rtExitCritical rtExitCriticalSection
  dsimp only
  split <;> rfl

theorem rtExitCriticalSection_kernel (kernel : Kernel) :
    ∃ nest, (rtExitCriticalSection kernel).1 = { kernel with rtSchedulerLockNest := nest } := by
  unfold rtExitCriticalSection
  dsimp only
  split
  · exact ⟨0, rfl⟩
  · exact ⟨_, rfl⟩

structure CriticalSystem where
  system : System
  /-- The threads that are in `rt_exit_critical`, before its `rt_schedule`. -/
  exiting : ThreadId → Bool

inductive CriticalAction where
  | call (action : Action)
  | enterCritical (thread : ThreadId)
  /-- `rt_exit_critical` up to the end of its section. -/
  | exitCritical (thread : ThreadId)
  /-- The `rt_schedule` of `rt_exit_critical`. -/
  | exitSchedule (thread : ThreadId)
deriving DecidableEq, Repr

namespace CriticalSystem

def boot (config : Config) : CriticalSystem where
  system := System.boot config
  exiting _ := false

/-- The thread executes its own code. -/
def Free (state : CriticalSystem) (thread : ThreadId) : Prop :=
  state.system.kernel.rtCurrentThread = .thread thread ∧
    state.system.frames (.thread thread) = none ∧ state.exiting thread = false

instance (state : CriticalSystem) (thread : ThreadId) : Decidable (state.Free thread) :=
  inferInstanceAs (Decidable (_ ∧ _ ∧ _))

def withKernel (state : CriticalSystem) (kernel : Kernel) : CriticalSystem :=
  { state with system := { state.system with kernel := kernel } }

/-- Whether the action is one of a thread that is in `rt_exit_critical`. -/
def exits (state : CriticalSystem) (action : Action) : Bool :=
  match action.context with
  | some (.thread thread) => state.exiting thread
  | _ => false

end CriticalSystem

def CriticalAction.apply (state : CriticalSystem) :
    CriticalAction → Option (CriticalSystem × List Notice)
  | .call action =>
    if state.exits action then none
    else (systemMachine.step state.system action).map fun (system, notices) =>
      ({ state with system := system }, notices)
  | .enterCritical thread =>
    if state.Free thread then some (state.withKernel (rtEnterCritical state.system.kernel), [])
    else none
  | .exitCritical thread =>
    if state.Free thread then
      let done := rtExitCriticalSection state.system.kernel
      some ({ state.withKernel done.1 with
        exiting := Function.update state.exiting thread done.2 }, [])
    else none
  | .exitSchedule thread =>
    if state.system.kernel.rtCurrentThread = .thread thread ∧ state.exiting thread then
      some ({ state.withKernel (rtSchedule state.system.kernel) with
        exiting := Function.update state.exiting thread false }, [])
    else none

/-- The system together with the scheduler lock. -/
def criticalMachine : Machine CriticalSystem CriticalAction Notice where
  step := CriticalAction.apply

/-! ## Calls that wait -/

/-- The section of the call has to wait. -/
def Call.waitsAt (kernel : Kernel) (self : ThreadId) : Call → Bool
  | .semTake sem time => (kernel.sems sem).value = 0#16 ∧ time ≠ 0#32
  | .mutexTake mutex time => (kernel.mutexes mutex).owner ≠ some self ∧
      (kernel.mutexes mutex).value = 0#16 ∧ time ≠ 0#32
  | .eventRecv event set option timeout => set ≠ 0#32 ∧
      eventSatisfies option set (kernel.events event).set = false ∧ timeout ≠ 0#32
  | .mbSendWait mailbox _ timeout =>
      (kernel.mailboxes mailbox).entry = (kernel.mailboxes mailbox).size ∧ timeout ≠ 0#32
  | .mbRecv mailbox timeout => (kernel.mailboxes mailbox).entry = 0#16 ∧ timeout ≠ 0#32
  | .threadSleep _ => true
  | _ => false

/-- A call begins to wait, or to wait again, although the scheduler is locked. -/
def Action.waitsLocked (system : System) : Action → Bool
  | .enter (.thread self) call =>
    system.kernel.rtSchedulerLockNest ≠ 0 && call.waitsAt system.kernel self
  | .advance (.thread self) =>
    match system.frames (.thread self) with
    | some ⟨call, tickDelta, .again⟩ => system.kernel.rtSchedulerLockNest ≠ 0 &&
        (call.reduce tickDelta system.kernel.rtTick).waitsAt system.kernel self
    | _ => false
  | _ => false

instance : DecidablePred NoResume
  | .enter _ (.threadResume _) => isFalse id
  | .enter _ (.semTake _ _) | .enter _ (.semRelease _) | .enter _ (.mutexTake _ _)
  | .enter _ (.mutexRelease _) | .enter _ (.eventSend _ _) | .enter _ (.eventRecv _ _ _ _)
  | .enter _ (.mbSendWait _ _ _) | .enter _ (.mbRecv _ _) | .enter _ (.semControl _ _ _)
  | .enter _ (.eventControl _ _) | .enter _ (.mbControl _ _) | .enter _ (.threadSleep _)
  | .schedulerStart | .threadStartup _ | .tickIncrease | .advance _ => isTrue trivial

/-- No call waits while the scheduler is locked. -/
def WaitsOutside (state : CriticalSystem) : CriticalAction → Prop
  | .call action => NoResume action ∧ action.waitsLocked state.system = false
  | _ => True

instance (state : CriticalSystem) : (action : CriticalAction) →
    Decidable (WaitsOutside state action)
  | .call action =>
    inferInstanceAs (Decidable (NoResume action ∧ action.waitsLocked state.system = false))
  | .enterCritical _ | .exitCritical _ | .exitSchedule _ => isTrue trivial

section

variable {kernel next : Kernel} {self : ThreadId} {call : Call} {outcome : Outcome}
  {runner : Option ThreadId}

theorem rtMbSendRound_goes_on {mailbox : Nat} {value timeout : BitVec 32}
    (free : (kernel.mailboxes mailbox).entry = (kernel.mailboxes mailbox).size →
      timeout = 0#32) (round : rtMbSendRound kernel mailbox value timeout = some (next, outcome))
    (timer : Option Err) : outcome ≠ .suspends timer := by
  simp only [rtMbSendRound] at round
  split at round
  · rename_i full
    split at round
    · rw [if_pos (free full)] at round
      cases round
      exact nofun
    · cases round
  · exact resumeFirst_outcome round timer

theorem rtMbRecvRound_goes_on {mailbox : Nat} {timeout : BitVec 32}
    (free : (kernel.mailboxes mailbox).entry = 0#16 → timeout = 0#32)
    (round : rtMbRecvRound kernel mailbox timeout = some (next, outcome))
    (timer : Option Err) : outcome ≠ .suspends timer := by
  simp only [rtMbRecvRound] at round
  split at round
  · rename_i empty
    split at round
    · rw [if_pos (free empty)] at round
      cases round
      exact nofun
    · cases round
  · exact resumeFirst_outcome round timer

/-- A section that does not have to wait does not suspend its thread. -/
theorem Call.enter_goes_on (current : kernel.rtCurrentThread = .thread self)
    (effect : SectionEffect call runner kernel next outcome)
    (free : call.waitsAt kernel self = false) (enters : call.enter kernel = some (next, outcome))
    (timer : Option Err) : outcome ≠ .suspends timer := by
  rintro rfl
  have blocks := (effect.suspends timer rfl).1
  cases call with
  | semTake sem time =>
      simp only [Call.waitsAt, decide_eq_false_iff_not, not_and, Classical.not_not] at free
      simp only [Call.enter, rtSemTake] at enters
      split at enters
      · cases enters
      · rename_i empty
        rw [if_pos (free (Classical.not_not.mp empty))] at enters
        cases enters
  | mutexTake mutex time =>
      simp only [Call.waitsAt, decide_eq_false_iff_not, not_and, Classical.not_not] at free
      simp only [Call.enter, rtMutexTake, current] at enters
      split at enters
      · cases enters
      rename_i foreign
      split at enters
      · cases enters
      · rename_i taken
        rw [if_pos (free foreign (Classical.not_not.mp taken))] at enters
        cases enters
  | eventRecv event set option timeout =>
      simp only [Call.waitsAt, decide_eq_false_iff_not, not_and, Classical.not_not] at free
      simp only [Call.enter, rtEventRecv, current] at enters
      split at enters
      · cases enters
      rename_i wanted
      split at enters
      · cases enters
      · rename_i unsatisfied
        rw [if_pos (free wanted (Bool.eq_false_iff.mpr unsatisfied))] at enters
        cases enters
  | mbSendWait mailbox value timeout =>
      simp only [Call.waitsAt, decide_eq_false_iff_not, not_and, Classical.not_not] at free
      simp only [Call.enter, rtMbSendWait] at enters
      split at enters
      · cases enters
      · exact rtMbSendRound_goes_on free enters timer rfl
  | mbRecv mailbox timeout =>
      simp only [Call.waitsAt, decide_eq_false_iff_not, not_and, Classical.not_not] at free
      simp only [Call.enter, rtMbRecv] at enters
      split at enters
      · cases enters
      · exact rtMbRecvRound_goes_on free enters timer rfl
  | threadSleep tick => cases free
  | semRelease sem => exact absurd rfl blocks
  | mutexRelease mutex => exact absurd rfl blocks
  | eventSend event set => exact absurd rfl blocks
  | semControl sem cmd arg => exact absurd rfl blocks
  | eventControl event cmd => exact absurd rfl blocks
  | mbControl mailbox cmd => exact absurd rfl blocks
  | threadResume thread => exact absurd rfl blocks

/-- A section behind the test of `thread->error` that does not have to wait does
not suspend its thread. -/
theorem Call.again_goes_on {tickDelta : BitVec 32}
    (free : (call.reduce tickDelta kernel.rtTick).waitsAt kernel self = false)
    (goes : call.again kernel self tickDelta = some (next, outcome)) (timer : Option Err) :
    outcome ≠ .suspends timer := by
  cases call with
  | mbSendWait mailbox value timeout =>
      simp only [Call.reduce, Call.waitsAt, decide_eq_false_iff_not, not_and,
        Classical.not_not] at free
      exact rtMbSendRound_goes_on free goes timer
  | mbRecv mailbox timeout =>
      simp only [Call.reduce, Call.waitsAt, decide_eq_false_iff_not, not_and,
        Classical.not_not] at free
      exact rtMbRecvRound_goes_on free goes timer
  | eventRecv event set option timeout =>
      obtain ⟨-, rfl⟩ := Prod.mk.inj (Option.some_inj.mp goes)
      exact nofun
  | semTake sem time => cases goes
  | mutexTake mutex time => cases goes
  | threadSleep tick => cases goes
  | semRelease sem => cases goes
  | mutexRelease mutex => cases goes
  | eventSend event set => cases goes
  | semControl sem cmd arg => cases goes
  | eventControl event cmd => cases goes
  | mbControl mailbox cmd => cases goes
  | threadResume thread => cases goes

/-- A step in which no call waits under the lock suspends nobody under the lock. -/
theorem Move.waitsUnlocked {system after : System} {action : Action} {emitted : List Notice}
    (inv : CallsInv system) (move : Move system action after emitted)
    (outside : action.waitsLocked system = false) : WaitsUnlocked system action := by
  by_cases unlocked : system.kernel.rtSchedulerLockNest = 0
  · exact Or.inl unlocked
  refine Or.inr fun timer ends => ?_
  obtain ⟨home, homes⟩ := inv.threads.homes
  cases move with
  | elapse nobody passes => cases action <;> first | cases ends | cases nobody
  | @enter context call kernel outcome idle running runs allowed enters effect keeps =>
      obtain rfl : outcome = .suspends timer := by
        simpa [Action.outcome, enters] using ends
      cases context with
      | thread self =>
          have free : call.waitsAt system.kernel self = false := by
            simpa [Action.waitsLocked, unlocked] using outside
          exact Call.enter_goes_on running effect free enters timer rfl
      | handler index => exact (Call.enter_handler homes allowed enters).2 timer rfl
  | @again thread call tickDelta kernel outcome there runs goes effect keeps =>
      obtain rfl : outcome = .suspends timer := by
        simpa [Action.outcome, there, goes] using ends
      have free : (call.reduce tickDelta system.kernel.rtTick).waitsAt system.kernel thread =
          false := by
        simpa [Action.waitsLocked, there, unlocked] using outside
      exact Call.again_goes_on free goes timer rfl
  | @schedule context frame point there onward =>
      obtain ⟨call, tickDelta, old⟩ := frame
      cases context with
      | thread self =>
          rcases onward with ⟨rfl, -⟩ | ⟨rfl, -⟩ <;> simp [Action.outcome, there] at ends
      | handler index => cases ends
  | @finish context frame there passed =>
      obtain ⟨call, tickDelta, old⟩ := frame
      obtain rfl : old = .returning := passed
      cases context with
      | thread self => simp [Action.outcome, there] at ends
      | handler index => cases ends
  | @sleepReturn thread frame tick there woken sleeps runs =>
      obtain ⟨call, tickDelta, old⟩ := frame
      obtain rfl : old = .woken := woken
      simp [Action.outcome, there] at ends
  | @wakeReturn thread frame there woken waited runs returns =>
      obtain ⟨call, tickDelta, old⟩ := frame
      obtain rfl : old = .woken := woken
      simp [Action.outcome, there] at ends
  | @wakeAgain thread frame there woken loops runs succeeds =>
      obtain ⟨call, tickDelta, old⟩ := frame
      obtain rfl : old = .woken := woken
      simp [Action.outcome, there] at ends

end

/-! ## The invariant -/

/-- What holds between the steps, whether or not the scheduler is locked. -/
structure LockInv (state : CriticalSystem) : Prop where
  calls : CallsInv state.system
  mutexes : ∀ mutex, MutexKept mutex state.system

section

variable {state : CriticalSystem} {kernel : Kernel}

theorem LockInv.initial (config : Config) : LockInv (CriticalSystem.boot config) :=
  ⟨.initial config, fun mutex => .initial config mutex⟩

/-- A step outside every call that resumes nobody. -/
theorem LockInv.withKernel (inv : LockInv state)
    (threads : ThreadsInv { state.system with kernel := kernel })
    (objects : kernel.objects = state.system.kernel.objects)
    (rests : ∀ thread, Rests state.system.kernel kernel thread) :
    LockInv (state.withKernel kernel) := by
  refine ⟨⟨threads, inv.calls.frames, ?_, ?_⟩, fun mutex => ?_⟩
  · intro thread busy
    exact (rests thread).stat ▸ inv.calls.begun thread busy
  · intro thread list waits
    exact (inv.calls.waiting thread list (((rests thread).waits list).mp waits)).of_rests rfl
      (rests thread)
  · refine (inv.mutexes mutex).of_effect (congrFun (congrArg Objects.mutexes objects) mutex)
      (.of_same ?_ ?_) id
    · exact fun thread waits => Or.inl (((rests thread).waits _).mp waits)
    · exact fun thread => awake_congr rfl (rests thread)

/-- A thread that executes its own code changes the nest counter. -/
theorem LockInv.setNest {thread : ThreadId} (inv : LockInv state) (free : state.Free thread)
    (nest : Int) :
    LockInv (state.withKernel { state.system.kernel with rtSchedulerLockNest := nest }) := by
  obtain ⟨current, idle, -⟩ := free
  obtain ⟨home, homes⟩ := inv.calls.threads.homes
  have ready : CurrentReady state.system.kernel :=
    inv.calls.threads.currentReady current (by simp [idle])
  refine inv.withKernel ⟨⟨home, homes.congr rfl rfl rfl fun _ => rfl⟩, fun _ => ready, ?_⟩ rfl
    fun other => .of_same rfl rfl
  exact fun other isCurrent => Or.inl (ready other isCurrent)

theorem LockInv.schedule (inv : LockInv state) :
    LockInv (state.withKernel (rtSchedule state.system.kernel)) := by
  obtain ⟨home, homes⟩ := inv.calls.threads.homes
  exact inv.withKernel (inv.calls.threads.elapse homes.schedule (.schedule homes))
    (rtSchedule_objects _) fun thread => .schedule _ thread

/-- What a step of the critical machine is. -/
theorem CriticalAction.apply_cases {action : CriticalAction} {next : CriticalSystem}
    {emitted : List Notice} (step : criticalMachine.step state action = some (next, emitted)) :
    (∃ base system, action = .call base ∧
        systemMachine.step state.system base = some (system, emitted) ∧
        next = { state with system := system }) ∨
      emitted = [] ∧ next.system.frames = state.system.frames ∧
        (∀ base, action ≠ .call base) ∧ ((∃ thread nest, state.Free thread ∧
          next.system.kernel = { state.system.kernel with rtSchedulerLockNest := nest }) ∨
            next.system.kernel = rtSchedule state.system.kernel) := by
  cases action with
  | call base =>
      have step' : (if state.exits base then none
          else (systemMachine.step state.system base).map fun (system, notices) =>
            ({ state with system := system }, notices)) = some (next, emitted) := step
      split at step'
      · cases step'
      · obtain ⟨⟨system, notices⟩, moves, pair⟩ := Option.map_eq_some_iff.mp step'
        obtain ⟨rfl, rfl⟩ := Prod.mk.inj pair
        exact Or.inl ⟨base, system, rfl, moves, rfl⟩
  | enterCritical thread =>
      obtain ⟨free, step⟩ := Option.ite_none_right_eq_some.mp step
      obtain ⟨rfl, rfl⟩ := Prod.mk.inj (Option.some_inj.mp step)
      exact Or.inr ⟨rfl, rfl, nofun, Or.inl ⟨thread, _, free, rfl⟩⟩
  | exitCritical thread =>
      obtain ⟨free, step⟩ := Option.ite_none_right_eq_some.mp step
      obtain ⟨rfl, rfl⟩ := Prod.mk.inj (Option.some_inj.mp step)
      obtain ⟨nest, same⟩ := rtExitCriticalSection_kernel state.system.kernel
      exact Or.inr ⟨rfl, rfl, nofun, Or.inl ⟨thread, nest, free, same⟩⟩
  | exitSchedule thread =>
      obtain ⟨-, step⟩ := Option.ite_none_right_eq_some.mp step
      obtain ⟨rfl, rfl⟩ := Prod.mk.inj (Option.some_inj.mp step)
      exact Or.inr ⟨rfl, rfl, nofun, Or.inr rfl⟩

theorem LockInv.step {action : CriticalAction} {next : CriticalSystem} {emitted : List Notice}
    (inv : LockInv state) (outside : WaitsOutside state action)
    (step : criticalMachine.step state action = some (next, emitted)) : LockInv next := by
  rcases CriticalAction.apply_cases step with
    ⟨base, system, rfl, moves, rfl⟩ | ⟨-, frames, -, kernel⟩
  · have move := inv.calls.move outside.1 moves
    exact ⟨inv.calls.step outside.1 (move.waitsUnlocked inv.calls outside.2) moves,
      fun mutex => (inv.mutexes mutex).step inv.calls move⟩
  · obtain ⟨⟨kernel', frames'⟩, exiting⟩ := next
    obtain rfl : frames' = state.system.frames := frames
    rcases kernel with ⟨thread, nest, free, rfl⟩ | rfl
    · have kept := inv.setNest free nest
      exact ⟨kept.calls, kept.mutexes⟩
    · have kept := inv.schedule
      exact ⟨kept.calls, kept.mutexes⟩

end

end RtThread
