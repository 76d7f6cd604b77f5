import RtThread.Kernel.MutexSound

/-!
# Mutual exclusion

The `hold` of a mutex counts the takes of its owner which it has not released.
A take counts from the moment at which its `RT_EOK` is settled, which for a
waiter is the hand-off, and a release from the moment at which it hands on.
-/

namespace RtThread

open RtThread.Std

namespace MutexState

/-- The take of a waiter that has been handed the mutex and has not returned yet. -/
def entering (state : MutexState) (thread : ThreadId) (mutex : Nat) : Nat :=
  if state.phase thread = .taking mutex ∧ state.view.stat thread = .ready ∧
    state.view.error thread = .eok then 1 else 0

/-- The release that has handed the mutex on and has not returned yet. -/
def leaving (state : MutexState) (thread : ThreadId) (mutex : Nat) : Nat :=
  if state.phase thread = .releasing mutex then 1 else 0

/-- How often the thread is inside. -/
def holds (state : MutexState) (thread : ThreadId) (mutex : Nat) : Nat :=
  if (state.view.mutexes mutex).owner = some thread then
    (state.view.mutexes mutex).hold.toNat else 0

end MutexState

/-- Takes are balanced by releases and what is held. -/
def Balanced (shown : List MutexNotice) (state : MutexState) (thread : ThreadId)
    (mutex : Nat) : Prop :=
  shown.count (.took thread mutex) + state.entering thread mutex =
    shown.count (.released thread mutex) + state.leaving thread mutex + state.holds thread mutex

/-- No owner nests its takes more than 255 deep. -/
def MutexLabel.Nests (state : MutexState) : MutexLabel → Prop
  | .take thread mutex _ => (state.view.mutexes mutex).owner = some thread →
      (state.view.mutexes mutex).hold.toNat < 255
  | _ => True

/-- What a step counts for one thread and one mutex. -/
theorem Balanced.move {shown emitted : List MutexNotice} {before after : MutexState}
    {thread : ThreadId} {mutex : Nat} (balanced : Balanced shown before thread mutex)
    (moves : emitted.count (.took thread mutex) + before.leaving thread mutex +
        before.holds thread mutex + after.entering thread mutex =
      emitted.count (.released thread mutex) + after.leaving thread mutex +
        after.holds thread mutex + before.entering thread mutex) :
    Balanced (shown ++ emitted) after thread mutex := by
  unfold Balanced at balanced ⊢
  rw [List.count_append, List.count_append]
  omega

structure MutexCounted (shown : List MutexNotice) (state : MutexState) : Prop where
  sound : MutexSound state
  held : ∀ mutex thread, (state.view.mutexes mutex).owner = some thread →
    (state.view.mutexes mutex).hold ≠ 0#8
  balanced : ∀ thread mutex, Balanced shown state thread mutex

namespace MutexCounted

attribute [local simp] Outcome.phase Outcome.shows MutexState.entering MutexState.leaving
  MutexState.holds List.count_singleton

variable {shown : List MutexNotice} {state : MutexState} {thread : ThreadId} {mutex : Nat}

theorem take {time : BitVec 32} {after : MutexView} {outcome : Outcome}
    (counted : MutexCounted shown state) (isReady : state.view.stat thread = .ready)
    (isIdle : state.phase thread = .idle)
    (nests : (MutexLabel.take thread mutex time).Nests state)
    (move : TakeMove thread mutex time state.view after outcome) :
    MutexCounted (shown ++ outcome.shows (.took thread mutex)) ⟨after,
      Function.update state.phase thread (outcome.phase (.taking mutex))⟩ := by
  refine ⟨counted.sound.take isReady move, ?_, ?_⟩
  · cases move with
    | nested owned =>
        intro other owner owned'
        by_cases same : other = mutex
        · subst same
          have := nests owned
          simp
          bv_omega
        · simpa [same] using counted.held other owner (by simpa [same] using owned')
    | free foreign available =>
        obtain ⟨-, -, unheld, -⟩ := counted.sound.free_of_available available
        intro other owner owned'
        by_cases same : other = mutex
        · simp [same, unheld]
        · simpa [same] using counted.held other owner (by simpa [same] using owned')
    | refused foreign taken unwilling => exact counted.held
    | waits owner owned foreign taken willing timer => exact counted.held
  · intro other other'
    refine (counted.balanced other other').move ?_
    cases move with
    | nested owned =>
        have deeper := nests owned
        by_cases same : other = thread <;> by_cases same' : other' = mutex
        · subst same same'
          simp [isIdle, owned]
          omega
        · simp [*, Ne.symm same']
        · simp [*, Ne.symm same]
        · simp [*, Ne.symm same]
    | free foreign available =>
        obtain ⟨-, unowned, unheld, -⟩ := counted.sound.free_of_available available
        by_cases same : other = thread <;> by_cases same' : other' = mutex
        · simp [*]
        · simp [*, Ne.symm same']
        · simp [*, Ne.symm same]
        · simp [*, Ne.symm same]
    | refused foreign taken unwilling =>
        by_cases same : other = thread <;> simp [*]
    | waits owner owned foreign taken willing timer =>
        by_cases same : other = thread <;> simp [*]

theorem release {front : Option ThreadId} {after : MutexView} {outcome : Outcome}
    (counted : MutexCounted shown state)
    (isReady : state.view.stat thread = .ready) (isIdle : state.phase thread = .idle)
    (move : ReleaseMove thread mutex front state.view after outcome) :
    MutexCounted (shown ++ outcome.shows (.released thread mutex)) ⟨after,
      Function.update state.phase thread (outcome.phase (.releasing mutex))⟩ := by
  refine ⟨counted.sound.release isReady move, ?_, ?_⟩
  · cases move with
    | refused foreign => exact counted.held
    | nested owned held =>
        intro other owner owned'
        by_cases same : other = mutex
        · simpa [same] using held
        · simpa [same] using counted.held other owner (by simpa [same] using owned')
    | last owned unheld pass =>
        intro other owner owned'
        cases pass with
        | frees nobody =>
            have apart : other ≠ mutex := by
              rintro rfl
              simp at owned'
            simpa [apart] using counted.held other owner (by simpa [apart] using owned')
        | hands waiter first waiting =>
            by_cases same : other = mutex
            · simp [same, unheld]
            · simpa [same] using counted.held other owner (by simpa [same] using owned')
  · intro other other'
    refine (counted.balanced other other').move ?_
    cases move with
    | refused foreign =>
        by_cases same : other = thread <;> simp [*]
    | nested owned held =>
        have positive := counted.held mutex thread owned
        by_cases same : other = thread <;> by_cases same' : other' = mutex
        · simp [*]
          bv_omega
        · simp [*, Ne.symm same']
        · simp [*, Ne.symm same]
        · simp [*, Ne.symm same]
    | last owned unheld pass =>
        have single : (state.view.mutexes mutex).hold.toNat = 1 := by bv_omega
        cases pass with
        | frees nobody =>
            by_cases same : other = thread <;> by_cases same' : other' = mutex
            · simp [*]
            · simp [*, Ne.symm same']
            · simp [*, Ne.symm same]
            · simp [*, Ne.symm same]
        | hands waiter first waiting =>
            have waiting' : state.view.waits waiter = some (.mutex mutex) := waiting
            have apart : waiter ≠ thread := by
              rintro rfl
              exact counted.sound.not_waiting (by simp [isReady]) _ waiting'
            obtain ⟨taking, eok⟩ := counted.sound.pending waiter mutex waiting'
            have suspended := counted.sound.waiting waiter _ waiting'
            by_cases same' : other' = mutex
            · subst same'
              by_cases same : other = thread
              · simp [same, isIdle, owned, single, apart, Ne.symm apart]
              · by_cases resumed : other = waiter
                · subst resumed
                  simp [same, taking, eok, suspended, owned, unheld, Ne.symm same]
                · simp [same, resumed, owned, Ne.symm same, Ne.symm resumed]
            · by_cases same : other = thread
              · simp [same, same', isIdle, Ne.symm same', Ne.symm apart]
              · by_cases resumed : other = waiter
                · subst resumed
                  simp [same, same', taking, Ne.symm same']
                · simp [same, same', resumed]

/-- A step that settles neither a take nor a release. -/
theorem quiet {after : MutexState} (counted : MutexCounted shown state) (sound : MutexSound after)
    (mutexes : after.view.mutexes = state.view.mutexes)
    (phases : ∀ thread mutex, after.entering thread mutex = state.entering thread mutex ∧
      after.leaving thread mutex = state.leaving thread mutex) :
    MutexCounted (shown ++ []) after := by
  refine ⟨sound, by simpa [mutexes] using counted.held, ?_⟩
  intro other other'
  refine (counted.balanced other other').move ?_
  obtain ⟨entering, leaving⟩ := phases other other'
  rw [entering, leaving, MutexState.holds, MutexState.holds, mutexes, List.count_nil,
    List.count_nil]

theorem finishTake (counted : MutexCounted shown state)
    (isReady : state.view.stat thread = .ready) (during : state.phase thread = .taking mutex)
    (sound : MutexSound ⟨state.view, Function.update state.phase thread .idle⟩) :
    MutexCounted (shown ++ if state.view.error thread = .eok then [.took thread mutex] else [])
      ⟨state.view, Function.update state.phase thread .idle⟩ := by
  refine ⟨sound, counted.held, ?_⟩
  intro other other'
  refine (counted.balanced other other').move ?_
  by_cases same : other = thread
  · subst same
    by_cases eok : state.view.error other = .eok
    · by_cases same' : mutex = other' <;> simp [isReady, during, eok, same']
      omega
    · simp [during, eok]
  · split <;> simp [same, Ne.symm same]

theorem finishRelease (counted : MutexCounted shown state)
    (during : state.phase thread = .releasing mutex)
    (sound : MutexSound ⟨state.view, Function.update state.phase thread .idle⟩) :
    MutexCounted (shown ++ [.released thread mutex])
      ⟨state.view, Function.update state.phase thread .idle⟩ := by
  refine ⟨sound, counted.held, ?_⟩
  intro other other'
  refine (counted.balanced other other').move ?_
  by_cases same : other = thread
  · subst same
    by_cases same' : mutex = other' <;> simp [during, same']
  · simp [same, Ne.symm same]

theorem step {label : MutexLabel} {emitted : List MutexNotice} {next : MutexState}
    (counted : MutexCounted shown state) (nests : label.Nests state)
    (step : MutexStep state label emitted next) : MutexCounted (shown ++ emitted) next := by
  have sound := counted.sound.step step
  cases step with
  | take isReady isIdle move => exact counted.take isReady isIdle nests move
  | release isReady isIdle move => exact counted.release isReady isIdle move
  | @sleep thread isReady isIdle =>
      refine counted.quiet sound rfl ?_
      intro other mutex
      by_cases same : other = thread <;> simp [same, isIdle]
  | finishTake isReady during => exact counted.finishTake isReady during sound
  | finishRelease during => exact counted.finishRelease during sound
  | @finishSleep thread result during =>
      refine counted.quiet sound rfl ?_
      intro other mutex
      by_cases same : other = thread <;> simp [same, during]
  | @start thread isInit =>
      have isIdle : state.phase thread = .idle := by
        by_contra busy
        exact counted.sound.begun thread busy isInit
      refine counted.quiet sound rfl ?_
      intro other mutex
      by_cases same : other = thread <;> simp [same, isIdle]
  | elapse elapses =>
      refine counted.quiet sound elapses.mutexes ?_
      intro other mutex
      rcases elapses.thread other with ⟨stat, error, -⟩ | ⟨suspended, -, timeout, -⟩
      · simp [stat, error]
      · simp [suspended, timeout]

theorem initial (config : Config) :
    MutexCounted [] ⟨view config.kernel fun _ => none, fun _ => .idle⟩ := by
  refine ⟨.initial config, ?_, ?_⟩
  · intro mutex thread owned
    cases owned
  · intro thread mutex
    simp [Balanced, view, Config.kernel, Config.initMutex]

end MutexCounted

/-! ## Every run -/

namespace System

/-- The take of `mutex` in which the thread is about to return `RT_EOK`. -/
def entering (system : System) (thread : ThreadId) (mutex : Nat) : Nat :=
  match system.frames (.thread thread) with
  | some ⟨.mutexTake taken _, _, _⟩ =>
    if taken = mutex ∧ (system.kernel.threads thread).stat = .ready ∧
      (system.kernel.threads thread).error = .eok then 1 else 0
  | _ => 0

/-- The release of `mutex` in which the thread is about to return `RT_EOK`. -/
def leaving (system : System) (thread : ThreadId) (mutex : Nat) : Nat :=
  match system.frames (.thread thread) with
  | some ⟨.mutexRelease released, _, _⟩ => if released = mutex then 1 else 0
  | _ => 0

/-- The takes of `mutex` that have returned `RT_EOK` to the thread, or are about to. -/
def taken (notices : List Notice) (system : System) (thread : ThreadId) (mutex : Nat) : Nat :=
  (notices.filterMap Notice.onMutex).count (.took thread mutex) + system.entering thread mutex

/-- The releases of `mutex` that have succeeded for the thread. -/
def released (notices : List Notice) (system : System) (thread : ThreadId) (mutex : Nat) : Nat :=
  (notices.filterMap Notice.onMutex).count (.released thread mutex) + system.leaving thread mutex

end System

namespace Refines

variable {system : System} {state : MutexState} {thread : ThreadId} {mutex : Nat}

theorem entering (refines : Refines system state) :
    system.entering thread mutex = state.entering thread mutex := by
  obtain ⟨home, -, seen⟩ := refines.seen
  have fits := refines.frames thread
  unfold System.entering MutexState.entering
  rw [seen]
  generalize system.frames (.thread thread) = frame at fits
  generalize state.phase thread = phase at fits
  cases fits <;> simp [view]

theorem leaving (refines : Refines system state) :
    system.leaving thread mutex = state.leaving thread mutex := by
  have fits := refines.frames thread
  unfold System.leaving MutexState.leaving
  generalize system.frames (.thread thread) = frame at fits
  generalize state.phase thread = phase at fits
  cases fits <;> simp

/-- The balance of a run, in terms of what the system shows. -/
theorem taken_eq {notices : List Notice} (refines : Refines system state)
    (counted : MutexCounted (notices.filterMap Notice.onMutex) state) :
    System.taken notices system thread mutex = System.released notices system thread mutex +
      if (system.kernel.mutexes mutex).owner = some thread then
        (system.kernel.mutexes mutex).hold.toNat else 0 := by
  obtain ⟨home, -, seen⟩ := refines.seen
  have balanced := counted.balanced thread mutex
  simp only [Balanced, ← refines.entering, ← refines.leaving, MutexState.holds] at balanced
  rw [seen] at balanced
  exact balanced

end Refines

/-- No take nests deeper than 255. -/
def NestsMutex (system : System) : Action → Prop
  | .enter (.thread thread) (.mutexTake mutex _) =>
    (system.kernel.mutexes mutex).owner = some thread →
      (system.kernel.mutexes mutex).hold.toNat < 255
  | _ => True

instance (system : System) : (action : Action) → Decidable (NestsMutex system action)
  | .enter (.thread thread) (.mutexTake mutex _) =>
    inferInstanceAs (Decidable ((system.kernel.mutexes mutex).owner = some thread →
      (system.kernel.mutexes mutex).hold.toNat < 255))
  | .enter (.handler _) _ | .enter (.thread _) (.semTake _ _)
  | .enter (.thread _) (.semRelease _) | .enter (.thread _) (.mutexRelease _)
  | .enter (.thread _) (.eventSend _ _) | .enter (.thread _) (.eventRecv _ _ _ _)
  | .enter (.thread _) (.mbSendWait _ _ _) | .enter (.thread _) (.mbRecv _ _)
  | .enter (.thread _) (.semControl _ _ _) | .enter (.thread _) (.eventControl _ _)
  | .enter (.thread _) (.mbControl _ _)
  | .enter (.thread _) (.threadSleep _) | .enter (.thread _) (.threadResume _)
  | .schedulerStart | .threadStartup _ | .tickIncrease | .advance _ => isTrue trivial

theorem NestsMutex.nests {system : System} {state : MutexState} {action : Action}
    (nests : NestsMutex system action) (refines : Refines system state) :
    (action.onMutex system.kernel).Nests state := by
  obtain ⟨home, -, seen⟩ := refines.seen
  unfold Action.onMutex
  split
  · simp only [MutexLabel.Nests, seen]
    exact nests
  · trivial
  · trivial

/-- The record of a mutex, its waiters and the threads inside it. -/
structure MutexExclusive (notices : List Notice) (system : System) (mutex : Nat) : Prop where
  value : (system.kernel.mutexes mutex).value = 0#16 ∨ (system.kernel.mutexes mutex).value = 1#16
  unowned : (system.kernel.mutexes mutex).value = 1#16 ↔
    (system.kernel.mutexes mutex).owner = none
  unheld : (system.kernel.mutexes mutex).owner = none ↔
    (system.kernel.mutexes mutex).hold = 0#8
  unwanted : (system.kernel.mutexes mutex).value = 1#16 →
    system.kernel.threadLinks.isEmpty (.wait (.mutex mutex)) = true
  inside : ∀ thread, (system.kernel.mutexes mutex).owner = some thread ↔
    System.released notices system thread mutex < System.taken notices system thread mutex
  depth : ∀ thread, (system.kernel.mutexes mutex).owner = some thread →
    System.taken notices system thread mutex =
      System.released notices system thread mutex + (system.kernel.mutexes mutex).hold.toNat
  alone : ∀ thread other,
    System.released notices system thread mutex < System.taken notices system thread mutex →
    System.released notices system other mutex < System.taken notices system other mutex →
    thread = other

/-- A release by a thread that is not the owner returns `-RT_ERROR` and leaves
the mutexes, the lists and the priorities alone. -/
def RefusesStrangers (system : System) (mutex : Nat) : Prop :=
  ∀ thread, (Context.thread thread).Running system.kernel →
    system.frames (.thread thread) = none →
    (system.kernel.mutexes mutex).owner ≠ some thread →
    ∃ next, systemMachine.step system (.enter (.thread thread) (.mutexRelease mutex)) =
        some (next, [.returned (.thread thread) (.mutexRelease mutex) .error]) ∧
      next.kernel.mutexes = system.kernel.mutexes ∧
      next.kernel.threadLinks = system.kernel.threadLinks ∧
      ∀ other, (next.kernel.threads other).currentPriority =
          (system.kernel.threads other).currentPriority ∧
        (next.kernel.threads other).initPriority = (system.kernel.threads other).initPriority

theorem refuses_strangers (system : System) (mutex : Nat) : RefusesStrangers system mutex := by
  intro thread running isIdle foreign
  have refused : rtMutexRelease system.kernel mutex =
      some (system.kernel.setError thread .error, .returns .error none) := by
    have current : system.kernel.rtCurrentThread = .thread thread := running
    simp [rtMutexRelease, current, foreign]
  refine ⟨system.setFrame (.thread thread) (system.kernel.setError thread .error) none, ?_,
    rfl, rfl, ?_⟩
  · simp [systemMachine, Action.apply, System.enter, running, isIdle, Call.allowedIn, Call.enter,
      refused, System.settle]
  · intro other
    by_cases same : other = thread <;>
      simp [System.setFrame, Kernel.setError, Kernel.setThread, same]

/-- What the counts say about the record of a mutex. -/
theorem MutexCounted.exclusive {notices : List Notice} {system : System} {state : MutexState}
    (counted : MutexCounted (notices.filterMap Notice.onMutex) state)
    (refines : Refines system state) (mutex : Nat) : MutexExclusive notices system mutex := by
  obtain ⟨home, waits, seen⟩ := refines.seen
  have mutexes : state.view.mutexes = system.kernel.mutexes := by rw [seen]; rfl
  have settled := counted.sound.settled mutex
  have held := counted.held mutex
  have balance : ∀ thread, System.taken notices system thread mutex =
      System.released notices system thread mutex +
        if (system.kernel.mutexes mutex).owner = some thread then
          (system.kernel.mutexes mutex).hold.toNat else 0 := fun _ => refines.taken_eq counted
  simp only [MutexView.Settled, mutexes] at settled held
  have inside : ∀ thread, (system.kernel.mutexes mutex).owner = some thread ↔
      System.released notices system thread mutex < System.taken notices system thread mutex := by
    intro thread
    have balance := balance thread
    split at balance
    · rename_i owned
      have positive := held thread owned
      simp only [owned, true_iff]
      bv_omega
    · rename_i foreign
      simp only [foreign, false_iff]
      omega
  refine ⟨?_, ?_, ?_, ?_, inside, ?_, ?_⟩
  · rcases settled with ⟨value, -⟩ | ⟨value, -⟩
    · exact Or.inr value
    · exact Or.inl value
  · rcases settled with ⟨value, unowned, -⟩ | ⟨value, owner, owned⟩
    · simp [value, unowned]
    · simp [value, owned]
  · rcases settled with ⟨-, unowned, unheld, -⟩ | ⟨-, owner, owned⟩
    · simp [unowned, unheld]
    · simp [owned, held owner owned]
  · intro available
    rcases settled with ⟨-, -, -, nobody⟩ | ⟨taken, -⟩
    · rw [waits.isEmpty_iff]
      intro thread there
      refine nobody thread ?_
      rw [seen]
      exact suspendList_eq_some.mpr there
    · simp [taken] at available
  · intro thread owned
    simpa [owned] using balance thread
  · intro thread other first second
    have owned := (inside thread).mpr first
    have owned' := (inside other).mpr second
    exact Option.some_inj.mp (owned.symm.trans owned')

/-- In every run in which threads only take and release mutexes and sleep, each
mutex has at most one thread inside, its owner, as often as `hold` says. -/
theorem mutex_exclusive {config : Config} {actions : List Action} {notices : List Notice}
    {system : System}
    (run : systemMachine.Run (fun system action => MutexCalls action ∧ NestsMutex system action)
      (System.boot config) actions notices system) (mutex : Nat) :
    MutexExclusive notices system mutex ∧ RefusesStrangers system mutex := by
  obtain ⟨state, refines, counted⟩ := Refines.of_run run (fun _ _ admitted => admitted.1)
    (MutexCounted.initial config)
    fun _ _ _ _ _ _ _ counted refines admitted label step => counted.step
      (label ▸ admitted.2.nests refines) step
  exact ⟨counted.exclusive refines mutex, refuses_strangers system mutex⟩

/-- Thread 1 takes a mutex twice; thread 0 waits for it and is handed it. -/
theorem mutex_exclusive_two_threads :
    ∃ system notices, systemMachine.execute (System.boot twoThreads)
        [.threadStartup 1, .schedulerStart, .enter (.thread 1) (.mutexTake 0 0xffffffff),
          .enter (.thread 1) (.mutexTake 0 0xffffffff), .threadStartup 0,
          .enter (.thread 0) (.mutexTake 0 0xffffffff), .advance (.thread 0),
          .enter (.thread 1) (.mutexRelease 0), .enter (.thread 1) (.mutexRelease 0),
          .advance (.thread 1)] = some (system, notices) ∧
      (system.kernel.mutexes 0).owner = some 0 ∧ MutexExclusive notices system 0 ∧
        RefusesStrangers system 0 := by
  obtain ⟨system, notices, success, restricted, owned⟩ :
      ∃ system notices, systemMachine.execute (System.boot twoThreads)
          [.threadStartup 1, .schedulerStart, .enter (.thread 1) (.mutexTake 0 0xffffffff),
            .enter (.thread 1) (.mutexTake 0 0xffffffff), .threadStartup 0,
            .enter (.thread 0) (.mutexTake 0 0xffffffff), .advance (.thread 0),
            .enter (.thread 1) (.mutexRelease 0), .enter (.thread 1) (.mutexRelease 0),
            .advance (.thread 1)] = some (system, notices) ∧
        (systemMachine.restrict fun system action =>
            MutexCalls action ∧ NestsMutex system action).execute (System.boot twoThreads)
          [.threadStartup 1, .schedulerStart, .enter (.thread 1) (.mutexTake 0 0xffffffff),
            .enter (.thread 1) (.mutexTake 0 0xffffffff), .threadStartup 0,
            .enter (.thread 0) (.mutexTake 0 0xffffffff), .advance (.thread 0),
            .enter (.thread 1) (.mutexRelease 0), .enter (.thread 1) (.mutexRelease 0),
            .advance (.thread 1)] = some (system, notices) ∧
        (system.kernel.mutexes 0).owner = some 0 := ⟨_, _, rfl, rfl, rfl⟩
  exact ⟨system, notices, success, owned,
    mutex_exclusive (Machine.run_of_execute_restrict restricted) 0⟩

end RtThread
