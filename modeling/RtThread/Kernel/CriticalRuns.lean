import RtThread.Kernel.Critical

/-!
# Takes under the scheduler lock

In a run in which no call waits while the scheduler is locked a take returns
`RT_EOK` with the resource only: with a token that it has taken or that a release
has handed to it, or as the owner of the mutex.
-/

namespace RtThread

open RtThread.Std

section

variable {system next : System} {action : Action} {emitted : List Notice} {thread : ThreadId}
  {sem : Nat}

/-- A call that has returned is over. -/
theorem Move.idle_of_returned {context : Context} {call : Call} {result : Err}
    (move : Move system action next emitted) (returned : .returned context call result ∈ emitted) :
    next.frames context = none := by
  have settled : ∀ (other : Context) (call' : Call) (kernel : Kernel) (outcome : Outcome),
      .returned context call result ∈ (system.settle other call' kernel outcome).2 →
        (system.settle other call' kernel outcome).1.frames context = none := by
    intro other call' kernel outcome shown
    obtain rfl : context = other := System.settle_notices _ _ _ _ _ _ shown
    cases outcome with
    | returns result output => exact System.setFrame_frames_self ..
    | suspends timer => simp [System.settle] at shown
    | reschedules output => simp [System.settle] at shown
  cases move with
  | elapse nobody passes => cases returned
  | schedule there onward => cases returned
  | wakeAgain there woken loops runs succeeds => cases returned
  | finish there passed =>
      obtain ⟨rfl, -⟩ := Notice.returned.inj (List.mem_singleton.mp returned)
      exact System.setFrame_frames_self ..
  | sleepReturn there woken sleeps runs =>
      obtain ⟨rfl, -⟩ := Notice.returned.inj (List.mem_singleton.mp returned)
      exact System.setFrame_frames_self ..
  | wakeReturn there woken waited runs ends =>
      obtain ⟨rfl, -⟩ := Notice.returned.inj (List.mem_singleton.mp returned)
      exact System.setFrame_frames_self ..
  | enter idle running runs allowed enters effect keeps => exact settled _ _ _ _ returned
  | again there runs goes effect keeps => exact settled _ _ _ _ returned

/-- A thread that a release hands its token to is the first to wait. -/
theorem hands_of_granted {context : Context} {kernel : Kernel} {outcome : Outcome}
    (inv : CallsInv system)
    (runs : ∀ self, context = .thread self → Runs (some self) system.kernel)
    (enters : rtSemRelease system.kernel sem = some (kernel, outcome))
    (effect : SectionEffect (.semRelease sem) context.self system.kernel kernel outcome)
    (granted : Granted (system.settle context (.semRelease sem) kernel outcome).1 sem thread)
    (before : ¬ Granted system sem thread) :
    threadEntry (system.kernel.threadLinks.next (.wait (.sem sem))) = .thread thread ∧
      system.kernel.Waits (.sem sem) thread ∧ ¬ kernel.Waits (.sem sem) thread := by
  obtain ⟨home, homes⟩ := inv.threads.homes
  have own : context ≠ .thread thread := by
    rintro rfl
    exact not_granted_settle effect granted
  have unmoved : ¬ Rests system.kernel kernel thread := by
    intro rests
    refine before ((granted_congr (system.settle_frames_other _ _ _ (Ne.symm own)) ?_).mp granted)
    rwa [System.settle_kernel]
  rcases rtSemRelease_cases homes enters with ⟨-, -, rfl⟩ | ⟨first, entry, waits, -, rfl⟩
  · exact absurd (.of_same rfl rfl) unmoved
  · obtain ⟨resumes, rests⟩ := resume_one homes waits
    by_cases same : thread = first
    · subst same
      exact ⟨entry, waits, resumes.loose _⟩
    · exact absurd (rests thread same) unmoved

/-- Only a release hands out a token. -/
theorem Move.hands_of_granted (inv : CallsInv system) (move : Move system action next emitted)
    (granted : Granted next sem thread) (before : ¬ Granted system sem thread) :
    ∃ context, action = .enter context (.semRelease sem) ∧
      threadEntry (system.kernel.threadLinks.next (.wait (.sem sem))) = .thread thread ∧
      system.kernel.Waits (.sem sem) thread ∧ ¬ next.kernel.Waits (.sem sem) thread := by
  have gained : ∀ {gains loses : Option ThreadId} {begins ends : Option Context}
      {taken released : Nat},
      SemEffect sem system next emitted gains loses begins ends taken released →
        gains = some thread := by
    intro gains loses begins ends taken released effect
    rcases (effect.granted thread).mp granted with ⟨old, -⟩ | gains
    · exact absurd old before
    · exact gains
  cases move.semMove inv sem with
  | rests record effect => exact nomatch gained effect
  | takes shown available record effect => exact nomatch gained effect
  | collects shown record effect => exact nomatch gained effect
  | stores begins empty nobody record effect => exact nomatch gained effect
  | finishes record effect => exact nomatch gained effect
  | resets begins empty effect => exact nomatch gained effect
  | @hands context other begins record effect =>
      subst begins
      refine ⟨context, rfl, ?_⟩
      cases move with
      | elapse nobody passes => cases nobody
      | enter idle running runs allowed enters effect' keeps =>
          rw [System.settle_kernel]
          exact RtThread.hands_of_granted inv runs enters effect' granted before

end

/-! ## Runs -/

/-- A release that began in the run has handed a token to the thread, which was
the first to wait, and no call of the thread has returned since. -/
def HandedToken (config : Config) (sem : Nat) (thread : ThreadId) (actions : List CriticalAction)
    (final : CriticalSystem) : Prop :=
  ∃ earlier later shown emitted notices context before after,
    actions = earlier ++ .call (.enter context (.semRelease sem)) :: later ∧
    criticalMachine.Run (fun _ _ => True) (.boot config) earlier shown before ∧
    criticalMachine.step before (.call (.enter context (.semRelease sem))) =
      some (after, emitted) ∧
    criticalMachine.Run (fun _ _ => True) after later notices final ∧
    threadEntry (before.system.kernel.threadLinks.next (.wait (.sem sem))) = .thread thread ∧
    before.system.kernel.Waits (.sem sem) thread ∧ ¬ after.system.kernel.Waits (.sem sem) thread ∧
    notices.find? (Notice.returnsIn (.thread thread)) = none

/-- Whoever will return from a take with success has been handed a token. -/
def TokensHanded (config : Config) (actions : List CriticalAction) (state : CriticalSystem) : Prop :=
  ∀ sem thread, Granted state.system sem thread → HandedToken config sem thread actions state

section

variable {config : Config} {state next : CriticalSystem} {actions : List CriticalAction}
  {action : CriticalAction} {notices emitted : List Notice}

/-- Nothing that happens to others takes the token away again. -/
theorem HandedToken.snoc {sem : Nat} {thread : ThreadId}
    (handed : HandedToken config sem thread actions state)
    (step : criticalMachine.step state action = some (next, emitted))
    (silent : emitted.find? (Notice.returnsIn (.thread thread)) = none) :
    HandedToken config sem thread (actions ++ [action]) next := by
  obtain ⟨earlier, later, shown, emitted', notices, context, before, after, rfl, prior, release,
    since, first, waited, resumed, quiet⟩ := handed
  refine ⟨earlier, later ++ [action], shown, emitted', notices ++ emitted, context, before, after,
    ?_, prior, release, .snoc since trivial step, first, waited, resumed, ?_⟩
  · simp
  · rw [List.find?_append, quiet, silent]
    rfl

theorem TokensHanded.step (inv : LockInv state) (handed : TokensHanded config actions state)
    (run : criticalMachine.Run (fun _ _ => True) (.boot config) actions notices state)
    (outside : WaitsOutside state action)
    (step : criticalMachine.step state action = some (next, emitted)) :
    TokensHanded config (actions ++ [action]) next := by
  intro sem thread granted
  rcases CriticalAction.apply_cases step with
    ⟨base, system, rfl, moves, rfl⟩ | ⟨rfl, frames, -, kernel⟩
  · have move := inv.calls.move outside.1 moves
    by_cases before : Granted state.system sem thread
    · refine (handed sem thread before).snoc step ?_
      obtain ⟨time, owes⟩ := before
      rcases owes.step nofun id move with ⟨silent, -⟩ | returned
      · exact silent
      · have shown := List.mem_of_find?_eq_some returned
        exact absurd granted (not_granted_idle (move.idle_of_returned shown))
    · obtain ⟨context, rfl, first, waited, resumed⟩ :=
        move.hands_of_granted inv.calls granted before
      exact ⟨actions, [], notices, emitted, [], context, state, _, rfl, run, step, .nil, first,
        waited, resumed, rfl⟩
  · refine (handed sem thread ?_).snoc step rfl
    have rests : Rests state.system.kernel next.system.kernel thread := by
      rcases kernel with ⟨other, nest, -, same⟩ | same
      · rw [same]
        exact .of_same rfl rfl
      · rw [same]
        exact .schedule _ thread
    exact (granted_congr (congrFun frames _) rests).mp granted

/-- What holds in every run in which no call waits under the lock. -/
theorem criticalRun (run : criticalMachine.Run WaitsOutside (.boot config) actions notices state) :
    criticalMachine.Run (fun _ _ => True) (.boot config) actions notices state ∧ LockInv state ∧
      TokensHanded config actions state := by
  induction run with
  | nil =>
      refine ⟨.nil, .initial config, ?_⟩
      exact fun sem thread granted => absurd granted (not_granted_idle rfl)
  | snoc _ outside step ih =>
      obtain ⟨run, inv, handed⟩ := ih
      exact ⟨.snoc run trivial step, inv.step outside step, handed.step inv run outside step⟩

/-- A take returns `RT_EOK` with the resource only, and no thread is on two
suspend lists. -/
structure TakesSound (config : Config) (actions : List CriticalAction) (state : CriticalSystem) :
    Prop where
  semTake : ∀ action next emitted context sem time, WaitsOutside state action →
    criticalMachine.step state action = some (next, emitted) →
    .returned context (.semTake sem time) .eok ∈ emitted →
      ((state.system.kernel.sems sem).value ≠ 0#16 ∧ (next.system.kernel.sems sem).value =
        (state.system.kernel.sems sem).value - 1#16) ∨
      ∃ thread, context = .thread thread ∧ HandedToken config sem thread actions state
  mutexTake : ∀ action next emitted context mutex time, WaitsOutside state action →
    criticalMachine.step state action = some (next, emitted) →
    .returned context (.mutexTake mutex time) .eok ∈ emitted →
      ∃ thread, context = .thread thread ∧
        (next.system.kernel.mutexes mutex).owner = some thread
  lists : ∀ thread list list', state.system.kernel.Waits list thread →
    state.system.kernel.Waits list' thread → list = list'

theorem takes_sound
    (run : criticalMachine.Run WaitsOutside (.boot config) actions notices state) :
    TakesSound config actions state := by
  obtain ⟨-, inv, handed⟩ := criticalRun run
  obtain ⟨home, homes⟩ := inv.calls.threads.homes
  refine ⟨?_, ?_, fun thread list list' here there => homes.waits_unique here there⟩
  · intro action next emitted context sem time outside step returned
    rcases CriticalAction.apply_cases step with
      ⟨base, system, rfl, moves, rfl⟩ | ⟨rfl, -⟩
    · have move := inv.calls.move outside.1 moves
      have counts : ∀ {gains loses : Option ThreadId} {begins ends : Option Context}
          {released : Nat},
          ¬ SemEffect sem state.system system emitted gains loses begins ends 0 released := by
        intro gains loses begins ends released effect
        have none := List.countP_eq_zero.mp effect.taken _ returned
        simp [Notice.isTaken] at none
      cases move.semMove inv.calls sem with
      | takes shown available record effect =>
          exact Or.inl ⟨available, congrArg Semaphore.value record⟩
      | collects shown record effect =>
          subst shown
          obtain ⟨rfl, -⟩ := Notice.returned.inj (List.mem_singleton.mp returned)
          exact Or.inr ⟨_, rfl, handed sem _ (effect.lost _ rfl)⟩
      | rests record effect => exact absurd effect counts
      | stores begins empty nobody record effect => exact absurd effect counts
      | hands begins record effect => exact absurd effect counts
      | finishes record effect => exact absurd effect counts
      | resets begins empty effect => exact absurd effect counts
    · cases returned
  · intro action next emitted context mutex time outside step returned
    rcases CriticalAction.apply_cases step with
      ⟨base, system, rfl, moves, rfl⟩ | ⟨rfl, -⟩
    · exact (inv.mutexes mutex).returned inv.calls (inv.calls.move outside.1 moves) returned
    · cases returned

end

/-- Thread 0 waits for a token outside the lock, thread 1 releases one under it. -/
theorem takes_sound_two_threads :
    ∃ state notices, criticalMachine.execute (.boot twoThreads)
        [.call (.threadStartup 0), .call (.threadStartup 1), .call .schedulerStart,
          .call (.enter (.thread 0) (.semTake 0 0xffffffff)), .call (.advance (.thread 0)),
          .enterCritical 1, .call (.enter (.thread 1) (.semTake 1 0)),
          .call (.enter (.thread 1) (.semRelease 0)), .call (.advance (.thread 1)),
          .call (.advance (.thread 1)), .exitCritical 1, .exitSchedule 1] = some (state, notices) ∧
      TakesSound twoThreads
        [.call (.threadStartup 0), .call (.threadStartup 1), .call .schedulerStart,
          .call (.enter (.thread 0) (.semTake 0 0xffffffff)), .call (.advance (.thread 0)),
          .enterCritical 1, .call (.enter (.thread 1) (.semTake 1 0)),
          .call (.enter (.thread 1) (.semRelease 0)), .call (.advance (.thread 1)),
          .call (.advance (.thread 1)), .exitCritical 1, .exitSchedule 1] state := by
  have final : ((criticalMachine.restrict WaitsOutside).execute (.boot twoThreads)
      [.call (.threadStartup 0), .call (.threadStartup 1), .call .schedulerStart,
        .call (.enter (.thread 0) (.semTake 0 0xffffffff)), .call (.advance (.thread 0)),
        .enterCritical 1, .call (.enter (.thread 1) (.semTake 1 0)),
        .call (.enter (.thread 1) (.semRelease 0)), .call (.advance (.thread 1)),
        .call (.advance (.thread 1)), .exitCritical 1, .exitSchedule 1]).isSome := by
    decide +kernel
  obtain ⟨⟨state, notices⟩, success⟩ := Option.isSome_iff_exists.mp final
  exact ⟨state, notices, Machine.execute_of_restrict success,
    takes_sound (Machine.run_of_execute_restrict success)⟩

/-- Thread 0 takes the lock and then a mutex that thread 1 owns, and after that a
semaphore without tokens. -/
def lockedTakes : List CriticalAction :=
  [.call (.threadStartup 1), .call .schedulerStart, .call (.enter (.thread 1) (.mutexTake 0 0)),
    .call (.threadStartup 0), .enterCritical 0,
    .call (.enter (.thread 0) (.mutexTake 0 0xffffffff)), .call (.advance (.thread 0)),
    .call (.advance (.thread 0)), .call (.enter (.thread 0) (.semTake 0 0xffffffff)),
    .call (.advance (.thread 0))]

theorem lockedTakes_release : ∀ action ∈ lockedTakes,
    ∀ context, action ≠ .call (.enter context (.semRelease 0)) := by
  intro action member context
  simp only [lockedTakes, List.mem_cons, List.not_mem_nil, or_false] at member
  rcases member with rfl | rfl | rfl | rfl | rfl | rfl | rfl | rfl | rfl | rfl <;> exact nofun

/-- Both takes return `RT_EOK`. The mutex has its old owner, nobody has released
a token, and the thread is on both suspend lists. -/
theorem takes_unsound :
    ∃ state notices, criticalMachine.execute (.boot twoThreads) lockedTakes =
        some (state, notices) ∧
      .returned (.thread 0) (.mutexTake 0 0xffffffff) .eok ∈ notices ∧
      (state.system.kernel.mutexes 0).owner = some 1 ∧
      (state.system.kernel.Waits (.mutex 0) 0 ∧ state.system.kernel.Waits (.sem 0) 0) ∧
      ¬ TakesSound twoThreads lockedTakes state ∧
      ∃ next, criticalMachine.step state (.call (.advance (.thread 0))) =
          some (next, [.returned (.thread 0) (.semTake 0 0xffffffff) .eok]) ∧
        (state.system.kernel.sems 0).value = 0 ∧
        ¬ HandedToken twoThreads 0 0 lockedTakes state := by
  have final : (criticalMachine.execute (.boot twoThreads) lockedTakes).map
      (fun (state, notices) => (decide (.returned (.thread 0) (.mutexTake 0 0xffffffff) .eok ∈
          notices), (state.system.kernel.mutexes 0).owner, (state.system.kernel.sems 0).value,
        state.system.kernel.threadLinks.next (.wait (.mutex 0)),
        state.system.kernel.threadLinks.next (.wait (.sem 0)))) =
      some (true, some 1, 0, .tlist 0, .tlist 0) := by
    decide +kernel
  have final' : (criticalMachine.execute (.boot twoThreads) lockedTakes).map
      (fun (state, _) => (criticalMachine.step state (.call (.advance (.thread 0)))).map Prod.snd) =
      some (some [.returned (.thread 0) (.semTake 0 0xffffffff) .eok]) := by
    decide +kernel
  obtain ⟨⟨state, notices⟩, success, values⟩ := Option.map_eq_some_iff.mp final
  simp only [Prod.mk.injEq, decide_eq_true_eq] at values
  obtain ⟨returned, owner, value, onMutex, onSem⟩ := values
  rw [success] at final'
  obtain ⟨⟨next, emitted⟩, step, rfl⟩ := Option.map_eq_some_iff.mp (Option.some_inj.mp final')
  have first : ∀ list, state.system.kernel.threadLinks.next (.wait list) = .tlist 0 →
      state.system.kernel.Waits list 0 := by
    intro list points
    refine ⟨1, by decide, points, ?_⟩
    intro before positive bounded same
    obtain rfl : before = 1 := by omega
    exact nomatch points.symm.trans same
  have unreleased : ¬ HandedToken twoThreads 0 0 lockedTakes state := by
    rintro ⟨earlier, later, -, -, -, context, -, -, same, -⟩
    exact lockedTakes_release _ (by rw [same]; simp) context rfl
  refine ⟨state, notices, success, returned, owner, ⟨first _ onMutex, first _ onSem⟩, ?_, next, step,
    value, unreleased⟩
  intro sound
  exact nomatch sound.lists 0 _ _ (first _ onMutex) (first _ onSem)

end RtThread
