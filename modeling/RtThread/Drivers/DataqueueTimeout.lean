import RtThread.Drivers.DataqueueSteps

/-!
# Time on the data queue

The data queue with the tick and the timers of the threads. A thread that waits starts
its timer with the timeout of its call; each round of the loop starts it again. The
timer runs out in the tick that takes it to zero.
-/

namespace RtThread

open RtThread.Std

/-- The timeout of a call, and where its thread is. -/
def DataqueuePhase.call : DataqueuePhase → Option (Int × Wakeup)
  | .idle => none
  | .pushing _ timeout wakeup => some (timeout, wakeup)
  | .popping timeout wakeup => some (timeout, wakeup)

/-- The phase of a thread whose timer has run out. -/
def DataqueuePhase.expired : DataqueuePhase → DataqueuePhase
  | .idle => .idle
  | .pushing item timeout _ => .pushing item timeout .timedOut
  | .popping timeout _ => .popping timeout .timedOut

/-- The data queue in time. `timer` is what is left of `thread_timer`; `budget` is the
timeout of the last call of a thread, and `spent` the ticks that it was suspended for. -/
structure TimedDataqueue where
  system : DataqueueSystem
  timer : ThreadId → Nat
  budget : ThreadId → Int
  spent : ThreadId → Nat

inductive TimedAction where
  /-- A call, or a thread that has been resumed runs. -/
  | act (action : DataqueueAction)
  /-- `rt_tick_increase`. -/
  | tick

def DataqueueAction.caller : DataqueueAction → Option ThreadId
  | .push context _ _ => context
  | .pop context _ => context
  | .wake thread => some thread
  | .expire _ => none

namespace TimedDataqueue

/-- The thread is suspended. -/
def isSuspended (state : TimedDataqueue) (thread : ThreadId) : Bool :=
  match (state.system.phase thread).call with
  | some (_, .suspended) => true
  | _ => false

/-- The timer of the thread runs out in the next tick. -/
def fires (state : TimedDataqueue) (thread : ThreadId) : Bool :=
  match (state.system.phase thread).call with
  | some (timeout, .suspended) => 0 < timeout ∧ state.timer thread ≤ 1
  | _ => false

/-- A tick: the timers that run out resume their threads. -/
def tick (state : TimedDataqueue) : TimedDataqueue :=
  { state with
    system :=
      ⟨{ state.system.queue with
          suspendedPushList := state.system.queue.suspendedPushList.filter (!state.fires ·)
          suspendedPopList := state.system.queue.suspendedPopList.filter (!state.fires ·) },
        fun thread => if state.fires thread then (state.system.phase thread).expired
          else state.system.phase thread⟩
    timer := fun thread =>
      if state.isSuspended thread then state.timer thread - 1 else state.timer thread
    spent := fun thread =>
      if state.isSuspended thread then state.spent thread + 1 else state.spent thread }

/-- A call with this timeout begins. -/
def begin (state : TimedDataqueue) (thread : ThreadId) (timeout : Int) : TimedDataqueue :=
  { state with
    budget := Function.update state.budget thread timeout
    spent := Function.update state.spent thread 0 }

def beginCall (state : TimedDataqueue) : DataqueueAction → TimedDataqueue
  | .push (some thread) _ timeout => state.begin thread timeout
  | .pop (some thread) timeout => state.begin thread timeout
  | _ => state

/-- "reset the timeout of thread timer and start it": a thread that has just been
suspended does so with `timeout` as it was passed to the call. -/
def startTimer (state : TimedDataqueue) (system : DataqueueSystem) : Option ThreadId →
    TimedDataqueue
  | none => { state with system := system }
  | some thread =>
      { state with
        system := system
        timer := Function.update state.timer thread (match (system.phase thread).call with
          | some (timeout, .suspended) => timeout.toNat
          | _ => state.timer thread) }

/-- Nothing has happened yet. -/
def start (queue : Dataqueue) : TimedDataqueue := ⟨.start queue, fun _ => 0, fun _ => 0, fun _ => 0⟩

end TimedDataqueue

def timedMachine : Machine TimedDataqueue TimedAction DataqueueEvent where
  step state
    | .tick => some (state.tick, [])
    | .act (.expire _) => none
    | .act action => (dataqueueMachine.step state.system action).map fun (system, emitted) =>
        ((state.beginCall action).startTimer system action.caller, emitted)

namespace TimedDataqueue

/-- A thread which has been resumed finds the queue full again, or empty. -/
def FindsAgain (state : TimedDataqueue) (thread : ThreadId) : Prop :=
  (∃ item timeout, state.system.phase thread = .pushing item timeout .resumed ∧
      state.system.queue.isFull = true) ∨
    ∃ timeout, state.system.phase thread = .popping timeout .resumed ∧
      state.system.queue.isEmpty = true

/-- A thread finds the queue full again, or empty, only before it has been suspended for
a tick. -/
def WaitsOnce (state : TimedDataqueue) (action : TimedAction) : Prop :=
  ∀ thread, action = .act (.wake thread) → state.FindsAgain thread →
    0 < state.budget thread → state.spent thread = 0

/-- No call has been suspended for longer than its timeout. -/
def InTime (state : TimedDataqueue) : Prop :=
  ∀ thread, 0 < state.budget thread → state.spent thread ≤ state.budget thread

end TimedDataqueue

/-! ## What a step does to the callers -/

namespace DataqueueSystem

variable {system next : DataqueueSystem} {context : Option ThreadId} {item : DataItem}
  {timeout : Int} {emitted : List DataqueueEvent} {thread other : ThreadId}
  {action : DataqueueAction}

/-- The call of a thread is where it was, or its thread has been resumed. -/
def Stays (system next : DataqueueSystem) (thread : ThreadId) : Prop :=
  (next.phase thread).call = (system.phase thread).call ∨
    ∃ timeout wakeup, (system.phase thread).call = some (timeout, wakeup) ∧
      (next.phase thread).call = some (timeout, .resumed)

theorem stays_of_resume (queue : Dataqueue) (first thread : ThreadId) :
    system.Stays (resume ⟨queue, system.phase⟩ first .resumed) thread := by
  by_cases same : thread = first
  · subst same
    cases phase : system.phase thread with
    | idle =>
        left
        simp [resume, phase]
    | pushing item timeout wakeup =>
        right
        exact ⟨timeout, wakeup, by rw [phase]; rfl, by simp [resume, phase, DataqueuePhase.call]⟩
    | popping timeout wakeup =>
        right
        exact ⟨timeout, wakeup, by rw [phase]; rfl, by simp [resume, phase, DataqueuePhase.call]⟩
  · left
    simp [resume, same]

theorem Stays.done (stays : system.Stays next thread) (apart : context ≠ some thread) :
    system.Stays (next.done context) thread := by
  cases context with
  | none => exact stays
  | some caller =>
      have apart' : thread ≠ caller := fun same => apart (congrArg some same.symm)
      unfold Stays
      rw [DataqueueSystem.done]
      dsimp only
      rwa [Function.update_of_ne apart']

theorem done_phase (system : DataqueueSystem) (thread : ThreadId) :
    ((system.done (some thread)).phase thread).call = none := by
  simp [DataqueueSystem.done, DataqueuePhase.call]

/-- The caller of a push has returned, or waits with the timeout of the call. -/
theorem Pushes.call (pushes : system.Pushes context item timeout next emitted) :
    (∀ thread, context ≠ some thread → system.Stays next thread) ∧
      ∀ thread, context = some thread → (next.phase thread).call = none ∨
        (next.phase thread).call = some (timeout, .suspended) ∧ system.queue.isFull = true := by
  cases pushes with
  | refused full zero =>
      refine ⟨fun thread apart => Stays.done (.inl rfl) apart, ?_⟩
      rintro thread rfl
      exact .inl (done_phase ..)
  | @blocked caller full same =>
      subst same
      constructor
      · intro thread apart
        have apart' : thread ≠ caller := fun same => apart (congrArg some same.symm)
        left
        dsimp only
        rw [Function.update_of_ne apart']
      · rintro thread same
        obtain rfl := Option.some_inj.mp same
        right
        dsimp only
        rw [Function.update_self]
        exact ⟨rfl, full⟩
  | woke room waiting =>
      refine ⟨fun thread apart => Stays.done (stays_of_resume ..) apart, ?_⟩
      rintro thread rfl
      exact .inl (done_phase ..)
  | stored room nobody =>
      refine ⟨fun thread apart => Stays.done (.inl rfl) apart, ?_⟩
      rintro thread rfl
      exact .inl (done_phase ..)

/-- The caller of a pop has returned, or waits with the timeout of the call. -/
theorem Pops.call (pops : system.Pops context timeout next emitted) :
    (∀ thread, context ≠ some thread → system.Stays next thread) ∧
      ∀ thread, context = some thread → (next.phase thread).call = none ∨
        (next.phase thread).call = some (timeout, .suspended) ∧ system.queue.isEmpty = true := by
  cases pops with
  | refused empty zero =>
      refine ⟨fun thread apart => Stays.done (.inl rfl) apart, ?_⟩
      rintro thread rfl
      exact .inl (done_phase ..)
  | @blocked caller empty same =>
      subst same
      constructor
      · intro thread apart
        have apart' : thread ≠ caller := fun same => apart (congrArg some same.symm)
        left
        dsimp only
        rw [Function.update_of_ne apart']
      · rintro thread same
        obtain rfl := Option.some_inj.mp same
        right
        dsimp only
        rw [Function.update_self]
        exact ⟨rfl, empty⟩
  | woke holds low waiting =>
      refine ⟨fun thread apart => Stays.done (stays_of_resume ..) apart, ?_⟩
      rintro thread rfl
      exact .inl (done_phase ..)
  | ended holds low nobody =>
      refine ⟨fun thread apart => Stays.done (.inl rfl) apart, ?_⟩
      rintro thread rfl
      exact .inl (done_phase ..)
  | took holds high =>
      refine ⟨fun thread apart => Stays.done (.inl rfl) apart, ?_⟩
      rintro thread rfl
      exact .inl (done_phase ..)

/-- The caller of a step has returned, or waits: in its first round, or in another one. -/
theorem Moves.call (moves : system.Moves action next emitted)
    (running : ∀ thread, action ≠ .expire thread) :
    (∀ thread, action.caller ≠ some thread → system.Stays next thread) ∧
      ∀ thread, action.caller = some thread → (next.phase thread).call = none ∨
        ∃ timeout, (next.phase thread).call = some (timeout, .suspended) ∧
          ((∃ item, action = .push (some thread) item timeout) ∨
            action = .pop (some thread) timeout ∨
            action = .wake thread ∧
              ((∃ item, system.phase thread = .pushing item timeout .resumed ∧
                  system.queue.isFull = true) ∨
                system.phase thread = .popping timeout .resumed ∧
                  system.queue.isEmpty = true)) := by
  cases moves with
  | @push _ context item timeout _ _ calls attempt pushes =>
      obtain ⟨others, mine⟩ := pushes.call
      have caller : action.caller = context := by
        rcases attempt with rfl | ⟨thread, rfl, rfl, -⟩
        · rfl
        · rfl
      rw [caller]
      refine ⟨others, fun thread same => (mine thread same).imp_right ?_⟩
      rintro ⟨waits, full⟩
      refine ⟨timeout, waits, ?_⟩
      rcases attempt with rfl | ⟨thread', rfl, rfl, resumed⟩
      · exact .inl ⟨item, by rw [same]⟩
      · obtain rfl := Option.some_inj.mp same
        exact .inr (.inr ⟨rfl, .inl ⟨item, resumed, full⟩⟩)
  | @pop _ context timeout _ _ calls attempt pops =>
      obtain ⟨others, mine⟩ := pops.call
      have caller : action.caller = context := by
        rcases attempt with rfl | ⟨thread, rfl, rfl, -⟩
        · rfl
        · rfl
      rw [caller]
      refine ⟨others, fun thread same => (mine thread same).imp_right ?_⟩
      rintro ⟨waits, empty⟩
      refine ⟨timeout, waits, ?_⟩
      rcases attempt with rfl | ⟨thread', rfl, rfl, resumed⟩
      · exact .inr (.inl (by rw [same]))
      · obtain rfl := Option.some_inj.mp same
        exact .inr (.inr ⟨rfl, .inr ⟨resumed, empty⟩⟩)
  | expirePush blocked => exact absurd rfl (running _)
  | expirePop blocked => exact absurd rfl (running _)
  | @giveUp caller expired =>
      refine ⟨fun thread apart => Stays.done (.inl rfl) apart, ?_⟩
      intro thread same
      obtain rfl := Option.some_inj.mp same
      exact .inl (done_phase ..)

end DataqueueSystem

namespace TimedDataqueue

variable {state next : TimedDataqueue} {system : DataqueueSystem} {thread : ThreadId}
  {action : DataqueueAction} {emitted : List DataqueueEvent}

/-- What holds of a thread: while it is suspended, what it has spent and what is left of
its timer make up its timeout. -/
structure Charged (state : TimedDataqueue) (thread : ThreadId) : Prop where
  bounded : 0 < state.budget thread → state.spent thread ≤ state.budget thread
  called : ∀ timeout wakeup, (state.system.phase thread).call = some (timeout, wakeup) →
    state.budget thread = timeout
  counted : ∀ timeout, (state.system.phase thread).call = some (timeout, .suspended) →
    0 < timeout → 0 < state.timer thread ∧ (state.spent thread : Int) + state.timer thread = timeout

theorem charged_start (queue : Dataqueue) (thread : ThreadId) : (start queue).Charged thread where
  bounded := fun positive => absurd positive (by simp [start])
  called := by rintro timeout wakeup ⟨⟩
  counted := by rintro timeout ⟨⟩

theorem expired_call {phase : DataqueuePhase} {timeout : Int} {wakeup : Wakeup}
    (call : phase.call = some (timeout, wakeup)) : phase.expired.call = some (timeout, .timedOut) := by
  cases phase with
  | idle => cases call
  | pushing item timeout wakeup =>
      obtain ⟨rfl, rfl⟩ := Prod.mk.inj (Option.some_inj.mp call)
      rfl
  | popping timeout wakeup =>
      obtain ⟨rfl, rfl⟩ := Prod.mk.inj (Option.some_inj.mp call)
      rfl

/-- A tick does nothing to a thread that is not suspended. -/
theorem tick_awake (awake : state.isSuspended thread = false) :
    state.tick.spent thread = state.spent thread ∧
      state.tick.system.phase thread = state.system.phase thread := by
  have still : state.fires thread = false := by
    unfold isSuspended at awake
    unfold fires
    split
    · rename_i timeout call
      rw [call] at awake
      cases awake
    · rfl
  constructor
  · rw [tick]
    dsimp only
    rw [awake, if_neg (by decide)]
  · rw [tick]
    dsimp only
    rw [still, if_neg (by decide)]

/-- A tick is taken from the timer and added to what has been spent. -/
theorem Charged.tick (charged : state.Charged thread) : state.tick.Charged thread := by
  cases awake : state.isSuspended thread with
  | false =>
      obtain ⟨spent, phase⟩ := tick_awake awake
      constructor
      · rw [spent]
        exact charged.bounded
      · rw [phase]
        exact charged.called
      · rw [phase]
        intro timeout call
        rw [isSuspended, call] at awake
        cases awake
  | true =>
      obtain ⟨timeout, call⟩ : ∃ timeout,
          (state.system.phase thread).call = some (timeout, .suspended) := by
        unfold isSuspended at awake
        split at awake
        · rename_i timeout call
          exact ⟨timeout, call⟩
        · cases awake
      have spent : state.tick.spent thread = state.spent thread + 1 := by
        rw [TimedDataqueue.tick]
        dsimp only
        rw [awake, if_pos rfl]
      have timer : state.tick.timer thread = state.timer thread - 1 := by
        rw [TimedDataqueue.tick]
        dsimp only
        rw [awake, if_pos rfl]
      have phase : state.tick.system.phase thread = if state.fires thread
          then (state.system.phase thread).expired else state.system.phase thread := rfl
      have budget : state.tick.budget thread = timeout := charged.called timeout _ call
      have fires : state.fires thread = decide (0 < timeout ∧ state.timer thread ≤ 1) := by
        rw [TimedDataqueue.fires, call]
      have counted := charged.counted timeout call
      by_cases out : 0 < timeout ∧ state.timer thread ≤ 1
      · rw [fires, decide_eq_true out, if_pos rfl] at phase
        have call' := expired_call call
        rw [← phase] at call'
        constructor
        · rw [spent, budget]
          omega
        · intro timeout' wakeup same
          obtain ⟨rfl, -⟩ := Prod.mk.inj (Option.some_inj.mp (call'.symm.trans same))
          exact budget
        · intro timeout' same
          cases Option.some_inj.mp (call'.symm.trans same)
      · rw [fires, decide_eq_false out, if_neg (by decide)] at phase
        constructor
        · rw [spent, budget]
          omega
        · rw [phase]
          exact charged.called
        · rw [phase, timer, spent]
          intro timeout' same positive
          obtain ⟨rfl, -⟩ := Prod.mk.inj (Option.some_inj.mp (call.symm.trans same))
          omega

/-- A call that begins changes nothing but what is noted of its caller. -/
theorem beginCall_of_ne (apart : action.caller ≠ some thread) :
    (state.beginCall action).budget thread = state.budget thread ∧
      (state.beginCall action).spent thread = state.spent thread := by
  have other : ∀ {caller : ThreadId} {timeout : Int}, some caller ≠ some thread →
      (state.begin caller timeout).budget thread = state.budget thread ∧
        (state.begin caller timeout).spent thread = state.spent thread := by
    intro caller timeout apart
    have apart' : thread ≠ caller := fun same => apart (congrArg some same.symm)
    exact ⟨Function.update_of_ne apart' .., Function.update_of_ne apart' ..⟩
  cases action with
  | push context item timeout =>
      cases context with
      | none => exact ⟨rfl, rfl⟩
      | some caller => exact other apart
  | pop context timeout =>
      cases context with
      | none => exact ⟨rfl, rfl⟩
      | some caller => exact other apart
  | expire thread => exact ⟨rfl, rfl⟩
  | wake thread => exact ⟨rfl, rfl⟩

theorem beginCall_timer : (state.beginCall action).timer = state.timer := by
  cases action with
  | push context item timeout => cases context <;> rfl
  | pop context timeout => cases context <;> rfl
  | expire thread => rfl
  | wake thread => rfl

theorem startTimer_kept (caller : Option ThreadId) :
    (state.startTimer system caller).system = system ∧
      (state.startTimer system caller).budget = state.budget ∧
      (state.startTimer system caller).spent = state.spent := by
  cases caller with
  | none => exact ⟨rfl, rfl, rfl⟩
  | some caller => exact ⟨rfl, rfl, rfl⟩

theorem startTimer_of_ne {caller : Option ThreadId} (apart : caller ≠ some thread) :
    (state.startTimer system caller).timer thread = state.timer thread := by
  cases caller with
  | none => rfl
  | some caller =>
      have apart' : thread ≠ caller := fun same => apart (congrArg some same.symm)
      exact Function.update_of_ne apart' ..

/-- The timer is started with the whole timeout. -/
theorem startTimer_caller {timeout : Int}
    (waits : (system.phase thread).call = some (timeout, .suspended)) :
    (state.startTimer system (some thread)).timer thread = timeout.toNat := by
  rw [startTimer]
  dsimp only
  rw [Function.update_self, waits]

/-- A call of which the thread does not run. -/
theorem Charged.stays (charged : state.Charged thread) (stays : state.system.Stays next.system thread)
    (budget : next.budget thread = state.budget thread)
    (spent : next.spent thread = state.spent thread)
    (timer : next.timer thread = state.timer thread) : next.Charged thread := by
  constructor
  · rw [budget, spent]
    exact charged.bounded
  · intro timeout wakeup call
    rw [budget]
    rcases stays with same | ⟨timeout', wakeup', before, after⟩
    · exact charged.called timeout wakeup (same.symm.trans call)
    · obtain ⟨rfl, -⟩ := Prod.mk.inj (Option.some_inj.mp (after.symm.trans call))
      exact charged.called timeout' wakeup' before
  · intro timeout call
    rw [timer, spent]
    rcases stays with same | ⟨timeout', wakeup', before, after⟩
    · exact charged.counted timeout (same.symm.trans call)
    · cases Option.some_inj.mp (after.symm.trans call)

/-- A call that has returned. -/
theorem charged_of_returned (returned : (state.system.phase thread).call = none)
    (bounded : 0 < state.budget thread → state.spent thread ≤ state.budget thread) :
    state.Charged thread := by
  refine ⟨bounded, fun timeout wakeup call => ?_, fun timeout call => ?_⟩
  · cases returned.symm.trans call
  · cases returned.symm.trans call

/-- A call that has just been suspended, and had not been suspended for a tick. -/
theorem charged_of_waits {timeout : Int}
    (waits : (state.system.phase thread).call = some (timeout, .suspended))
    (budget : state.budget thread = timeout) (spent : 0 < timeout → state.spent thread = 0)
    (timer : state.timer thread = timeout.toNat) : state.Charged thread := by
  constructor
  · rw [budget]
    intro positive
    rw [spent positive]
    omega
  · intro timeout' wakeup call
    obtain ⟨rfl, -⟩ := Prod.mk.inj (Option.some_inj.mp (waits.symm.trans call))
    exact budget
  · intro timeout' call positive
    obtain ⟨rfl, -⟩ := Prod.mk.inj (Option.some_inj.mp (waits.symm.trans call))
    rw [timer, spent positive]
    omega

theorem act_charged (charged : ∀ thread, state.Charged thread)
    (once : state.WaitsOnce (.act action)) (running : ∀ thread, action ≠ .expire thread)
    (step : dataqueueMachine.step state.system action = some (system, emitted)) :
    ∀ thread, ((state.beginCall action).startTimer system action.caller).Charged thread := by
  intro thread
  obtain ⟨others, mine⟩ := (DataqueueSystem.moves_of_step step).call running
  obtain ⟨whole, budgets, spents⟩ :=
    @startTimer_kept (state.beginCall action) system action.caller
  by_cases caller : action.caller = some thread
  · have within : ∀ timeout : Int,
        (∃ item, action = .push (some thread) item timeout) ∨ action = .pop (some thread) timeout →
        (state.beginCall action).budget thread = timeout ∧
          (state.beginCall action).spent thread = 0 := by
      rintro timeout (⟨item, rfl⟩ | rfl)
      · exact ⟨Function.update_self .., Function.update_self ..⟩
      · exact ⟨Function.update_self .., Function.update_self ..⟩
    rcases mine thread caller with returned | ⟨timeout, waits, attempt⟩
    · refine charged_of_returned (by rwa [whole]) ?_
      rw [budgets, spents]
      cases action with
      | push context item timeout =>
          obtain ⟨budget, spent⟩ := within timeout (.inl ⟨item, by rw [← caller]; rfl⟩)
          rw [budget, spent]
          omega
      | pop context timeout =>
          obtain ⟨budget, spent⟩ := within timeout (.inr (by rw [← caller]; rfl))
          rw [budget, spent]
          omega
      | expire thread => exact absurd rfl (running thread)
      | wake thread => exact (charged _).bounded
    · refine @charged_of_waits _ _ timeout (by rwa [whole]) ?_ ?_ ?_
      · rw [budgets]
        rcases attempt with first | first | ⟨rfl, again⟩
        · exact (within timeout (.inl first)).1
        · exact (within timeout (.inr first)).1
        · rcases again with ⟨item, resumed, -⟩ | ⟨resumed, -⟩
          · exact (charged thread).called timeout .resumed (by rw [resumed]; rfl)
          · exact (charged thread).called timeout .resumed (by rw [resumed]; rfl)
      · rw [spents]
        intro positive
        rcases attempt with first | first | ⟨rfl, again⟩
        · exact (within timeout (.inl first)).2
        · exact (within timeout (.inr first)).2
        · have call : (state.system.phase thread).call = some (timeout, .resumed) := by
            rcases again with ⟨item, resumed, -⟩ | ⟨resumed, -⟩
            · rw [resumed]
              rfl
            · rw [resumed]
              rfl
          refine once thread rfl ?_ ?_
          · rcases again with ⟨item, resumed, full⟩ | ⟨resumed, empty⟩
            · exact .inl ⟨item, timeout, resumed, full⟩
            · exact .inr ⟨timeout, resumed, empty⟩
          · rwa [(charged thread).called timeout .resumed call]
      · rw [caller]
        exact startTimer_caller waits
  · obtain ⟨budget, spent⟩ := @beginCall_of_ne state thread action caller
    refine (charged thread).stays ?_ ?_ ?_ ?_
    · rw [whole]
      exact others thread caller
    · rw [budgets, budget]
    · rw [spents, spent]
    · rw [startTimer_of_ne caller, beginCall_timer]

theorem step_charged {action : TimedAction} (charged : ∀ thread, state.Charged thread)
    (once : state.WaitsOnce action) (step : timedMachine.step state action = some (next, emitted)) :
    ∀ thread, next.Charged thread := by
  cases action with
  | tick =>
      obtain ⟨rfl, -⟩ := Prod.mk.inj (Option.some_inj.mp step)
      exact fun thread => (charged thread).tick
  | act action =>
      cases action with
      | expire thread => cases step
      | push context item timeout =>
          obtain ⟨⟨system, emitted'⟩, made, same⟩ := Option.map_eq_some_iff.mp step
          obtain ⟨rfl, -⟩ := Prod.mk.inj same
          exact act_charged charged once (by simp) made
      | pop context timeout =>
          obtain ⟨⟨system, emitted'⟩, made, same⟩ := Option.map_eq_some_iff.mp step
          obtain ⟨rfl, -⟩ := Prod.mk.inj same
          exact act_charged charged once (by simp) made
      | wake thread =>
          obtain ⟨⟨system, emitted'⟩, made, same⟩ := Option.map_eq_some_iff.mp step
          obtain ⟨rfl, -⟩ := Prod.mk.inj same
          exact act_charged charged once (by simp) made

end TimedDataqueue

/-- While no call finds the queue full again, or empty, after it has been suspended for a
tick, no call is suspended for longer than its timeout. -/
theorem dataqueue_in_time {queue : Dataqueue} {actions : List TimedAction}
    {events : List DataqueueEvent} {state : TimedDataqueue}
    (run : timedMachine.Run TimedDataqueue.WaitsOnce (.start queue) actions events state) :
    state.InTime := by
  have charged := run.invariant (fun thread => TimedDataqueue.charged_start queue thread)
    fun state action next emitted charged once step =>
      TimedDataqueue.step_charged charged once step
  exact fun thread => (charged thread).bounded

/-- A push that waits gives up after two ticks. -/
theorem dataqueue_in_time_expired : ∃ events state,
    timedMachine.Run TimedDataqueue.WaitsOnce
      (.start (rtDataQueueInit 1 0 (fun _ => ⟨0, 0⟩) false))
      [.act (.push (some 0) ⟨5, 1⟩ 0), .act (.push (some 1) ⟨6, 1⟩ 2), .tick, .tick,
        .act (.wake 1)] events state ∧
      state.InTime ∧ state.spent 1 = 2 ∧ events = [.pushed ⟨5, 1⟩, .etimeout] := by
  have quiet : ∀ {state action}, (∀ thread, action ≠ .act (.wake thread)) →
      TimedDataqueue.WaitsOnce state action :=
    fun other thread same => absurd same (other thread)
  have run : timedMachine.Run TimedDataqueue.WaitsOnce
      (.start (rtDataQueueInit 1 0 (fun _ => ⟨0, 0⟩) false)) _ _ _ :=
    ((((Machine.Run.nil.snoc (quiet (by simp))
      (show timedMachine.step _ (.act (.push (some 0) ⟨5, 1⟩ 0)) = some (_, _) from rfl)).snoc
      (quiet (by simp))
      (show timedMachine.step _ (.act (.push (some 1) ⟨6, 1⟩ 2)) = some (_, _) from rfl)).snoc
      (quiet (by simp)) (show timedMachine.step _ .tick = some (_, _) from rfl)).snoc
      (quiet (by simp)) (show timedMachine.step _ .tick = some (_, _) from rfl))
  have woken := run.snoc (by
      rintro thread same (⟨item, timeout, phase, -⟩ | ⟨timeout, phase, -⟩)
      · cases same
        cases phase
      · cases same
        cases phase) (show timedMachine.step _ (.act (.wake 1)) = some (_, _) from rfl)
  exact ⟨_, _, woken, dataqueue_in_time woken, rfl, rfl⟩

/-- The push of the second thread waits for a tick, finds the queue full again and waits
for two more ticks, although its timeout is two. -/
theorem dataqueue_waits_longer : ∃ events state,
    timedMachine.Run (fun _ _ => True) (.start (rtDataQueueInit 1 0 (fun _ => ⟨0, 0⟩) false))
      [.act (.push (some 0) ⟨5, 1⟩ 0), .act (.push (some 1) ⟨6, 1⟩ 2), .tick,
        .act (.pop (some 0) 0), .act (.push (some 0) ⟨7, 1⟩ 0), .act (.wake 1), .tick, .tick]
      events state ∧ state.budget 1 = 2 ∧ state.spent 1 = 3 ∧ ¬ state.InTime := by
  obtain ⟨events, state, executed, budget, spent⟩ : ∃ events state,
      timedMachine.execute (.start (rtDataQueueInit 1 0 (fun _ => ⟨0, 0⟩) false))
        [.act (.push (some 0) ⟨5, 1⟩ 0), .act (.push (some 1) ⟨6, 1⟩ 2), .tick,
          .act (.pop (some 0) 0), .act (.push (some 0) ⟨7, 1⟩ 0), .act (.wake 1), .tick, .tick] =
        some (state, events) ∧ state.budget 1 = 2 ∧ state.spent 1 = 3 := ⟨_, _, rfl, rfl, rfl⟩
  refine ⟨events, state, Machine.run_of_execute (fun _ _ _ => trivial) executed, budget, spent, ?_⟩
  intro inTime
  have bound := inTime 1 (by omega)
  omega

end RtThread
