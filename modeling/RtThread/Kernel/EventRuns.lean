import RtThread.Kernel.EventDelivery

/-!
# Runs of events

Nobody waits for events that are there. A thread that a send has resumed returns
what the send has kept for it, whatever happens before it runs.
-/

namespace RtThread

open RtThread.Std

/-- The thread wants what its call asks for, and the event does not have it. -/
structure EventWaiting (event : Nat) (system : System) (thread : ThreadId) : Prop where
  call : ∃ timeout tickDelta point, system.frames (.thread thread) =
    some ⟨.eventRecv event (system.kernel.threads thread).eventSet
      (system.kernel.threads thread).eventInfo timeout, tickDelta, point⟩
  wanted : (system.kernel.threads thread).eventSet ≠ 0#32
  unsatisfied : eventSatisfies (system.kernel.threads thread).eventInfo
    (system.kernel.threads thread).eventSet (system.kernel.events event).set = false

/-- Every waiter of the event waits for something that is not there. -/
def EventInv (event : Nat) (system : System) : Prop :=
  ∀ thread, system.kernel.Waits (.event event) thread → EventWaiting event system thread

section

variable {kernel next : Kernel} {home : ThreadId → Option ThreadNode} {outcome : Outcome}
  {event : Nat}

/-- A call of `rt_event_recv` only clears events, and waits for those that are
not there. -/
theorem rtEventRecv_left {set timeout : BitVec 32} {option : BitVec 8} {thread : ThreadId}
    (inv : WaitInv kernel home) (runs : Runs (some thread) kernel)
    (step : rtEventRecv kernel event set option timeout = some (next, outcome)) :
    (∃ mask, (next.events event).set = (kernel.events event).set &&& mask) ∧
      ((∃ timer, outcome = .suspends timer) → (next.threads thread).eventSet = set ∧
        (next.threads thread).eventInfo = option ∧ set ≠ 0#32 ∧
        eventSatisfies option set (next.events event).set = false) := by
  obtain ⟨self, same, current, isReady⟩ := runs
  obtain rfl := Option.some_inj.mp same
  have kept : ∃ mask, (kernel.events event).set = (kernel.events event).set &&& mask :=
    ⟨_, (BitVec.and_self ..).symm⟩
  simp only [rtEventRecv, current] at step
  split at step
  · obtain ⟨rfl, rfl⟩ := Prod.mk.inj (Option.some_inj.mp step)
    exact ⟨kept, by rintro ⟨_, ⟨⟩⟩⟩
  rename_i nonzero
  split at step
  · obtain ⟨rfl, rfl⟩ := Prod.mk.inj (Option.some_inj.mp step)
    refine ⟨?_, by rintro ⟨_, ⟨⟩⟩⟩
    rw [clearEvent_set]
    split
    · exact ⟨_, rfl⟩
    · exact kept
  rename_i unsatisfied
  split at step
  · obtain ⟨rfl, rfl⟩ := Prod.mk.inj (Option.some_inj.mp step)
    exact ⟨kept, by rintro ⟨_, ⟨⟩⟩⟩
  · let record := { (kernel.setError thread .eok).threads thread with
      eventSet := set, eventInfo := option }
    have filled : WaitInv ((kernel.setError thread .eok).setThread thread record) home :=
      (inv.setError thread .eok).setThread_same record rfl
    have ready : (((kernel.setError thread .eok).setThread thread record).threads thread).stat =
        .ready := by
      simpa [record, Kernel.setError, Kernel.setThread] using isReady
    obtain ⟨-, rest, threads, -⟩ := filled.suspendOn ready step
    have events : next.events = kernel.events := congrArg Objects.events rest.objects
    rw [events]
    refine ⟨kept, fun _ => ⟨?_, ?_, nonzero, Bool.eq_false_iff.mpr unsatisfied⟩⟩
    · rw [threads]
      simp [record, Kernel.setThread]
    · rw [threads]
      simp [record, Kernel.setThread]

/-- Resetting an event resumes every waiter. -/
theorem rtEventControl_cases {cmd : BitVec 8} (inv : WaitInv kernel home)
    (step : rtEventControl kernel event cmd = some (next, outcome)) :
    next = kernel ∨ ∀ thread, ¬ next.Waits (.event event) thread := by
  unfold rtEventControl at step
  split at step
  · obtain ⟨resumed, resume, done⟩ := Option.bind_eq_some_iff.mp step
    obtain ⟨rfl, rfl⟩ := Prod.mk.inj (Option.some_inj.mp done)
    have gone := listResumeAll_empties ⟨home, inv⟩ resume
    exact Or.inr gone
  · exact Or.inl (Prod.mk.inj (Option.some_inj.mp step)).1.symm

end

/-! ## Nobody waits for events that are there -/

section

variable {system next : System} {event : Nat} {action : Action} {emitted : List Notice}
  {thread : ThreadId}

theorem EventWaiting.of_rests (waiting : EventWaiting event system thread)
    (frames : next.frames (.thread thread) = system.frames (.thread thread))
    (rests : Rests system.kernel next.kernel thread)
    (unsatisfied : eventSatisfies (system.kernel.threads thread).eventInfo
      (system.kernel.threads thread).eventSet (next.kernel.events event).set = false) :
    EventWaiting event next thread := by
  obtain ⟨call, wanted, -⟩ := waiting
  exact ⟨by rw [frames, rests.eventSet, rests.eventInfo]; exact call,
    by rwa [rests.eventSet], by rwa [rests.eventSet, rests.eventInfo]⟩

/-- A section that satisfies none of the waiters it leaves behind. -/
theorem EventInv.of_section {context : Context} {call : Call} {kernel : Kernel}
    {outcome : Outcome} (inv : CallsInv system) (holds : EventInv event system)
    (runs : ∀ self, context = .thread self → Runs (some self) system.kernel)
    (effect : SectionEffect call context.self system.kernel kernel outcome)
    (keeps : SectionKeeps system.kernel kernel outcome)
    (left : ∀ thread, kernel.Waits (.event event) thread →
      system.kernel.Waits (.event event) thread → Rests system.kernel kernel thread →
      eventSatisfies (system.kernel.threads thread).eventInfo
        (system.kernel.threads thread).eventSet (kernel.events event).set = false)
    (joined : ∀ thread, context = .thread thread → call.waitsOn = some (.event event) →
      (∃ timer, outcome = .suspends timer) → ∃ timeout,
        call = .eventRecv event (kernel.threads thread).eventSet
          (kernel.threads thread).eventInfo timeout ∧
        (kernel.threads thread).eventSet ≠ 0#32 ∧
        eventSatisfies (kernel.threads thread).eventInfo (kernel.threads thread).eventSet
          (kernel.events event).set = false) :
    EventInv event (system.settle context call kernel outcome).1 := by
  intro thread waits
  rw [System.settle_kernel] at waits
  obtain ⟨home, homes⟩ := inv.threads.homes
  by_cases own : context = .thread thread
  · subst own
    rcases CallsInv.section_waits runs effect keeps waits with old | ⟨waitsOn, suspends⟩
    · obtain ⟨self, same, -, isReady⟩ := runs thread rfl
      obtain rfl := Option.some_inj.mp same
      exact nomatch isReady.symm.trans (homes.suspended_of_waits old)
    · obtain ⟨timeout, same, wanted, unsatisfied⟩ := joined thread rfl waitsOn suspends
      obtain ⟨timer, rfl⟩ := suspends
      refine ⟨⟨timeout, kernel.rtTick, .suspended, ?_⟩, wanted, unsatisfied⟩
      simpa [System.settle, System.setFrame] using same
  · rcases effect.others thread (Context.self_ne own) with rests | ⟨-, -, -, resumes⟩
    · have old := (rests.waits _).mp waits
      have unsatisfied := left thread waits old rests
      have rests' : Rests system.kernel (system.settle context call kernel outcome).1.kernel
        thread := by rwa [System.settle_kernel]
      exact (holds thread old).of_rests (system.settle_frames_other _ _ _ (Ne.symm own)) rests'
        (by rwa [System.settle_kernel])
    · exact absurd waits (resumes.loose _)

/-- The waiters that a send leaves behind are not satisfied. -/
theorem EventInv.of_send {set : BitVec 32} {kernel : Kernel}
    {outcome : Outcome} (inv : CallsInv system) (holds : EventInv event system)
    (enters : rtEventSend system.kernel event set = some (kernel, outcome))
    (waits : kernel.Waits (.event event) thread)
    (old : system.kernel.Waits (.event event) thread) :
    eventSatisfies (system.kernel.threads thread).eventInfo
      (system.kernel.threads thread).eventSet (kernel.events event).set = false := by
  obtain ⟨home, homes⟩ := inv.threads.homes
  obtain ⟨queue, queued⟩ := homes.queued (.event event)
  have waiting : ∀ other ∈ queue, EventWaiting event system other :=
    fun other member => holds other ((queued.waits_iff other).mpr member)
  obtain ⟨next, words, final, outcome', sends, -, -, delivered, -⟩ := rtEventSend_in_turn homes
    queued (fun other member => (waiting other member).wanted)
    (Or.inr fun other member => (waiting other member).unsatisfied)
  obtain ⟨rfl, -⟩ := Prod.mk.inj (Option.some_inj.mp (sends.symm.trans enters))
  rcases delivered.waiter ((queued.waits_iff thread).mp old) with ⟨word, paired⟩ | ⟨-, unsatisfied⟩
  · exact absurd waits ((delivered.receiver paired).1.loose _)
  · exact unsatisfied

theorem EventInv.enter {context : Context} {call : Call} {kernel : Kernel} {outcome : Outcome}
    (inv : CallsInv system) (holds : EventInv event system)
    (runs : ∀ self, context = .thread self → Runs (some self) system.kernel)
    (allowed : call.allowedIn context = true)
    (enters : call.enter system.kernel = some (kernel, outcome))
    (effect : SectionEffect call context.self system.kernel kernel outcome)
    (keeps : SectionKeeps system.kernel kernel outcome) :
    EventInv event (system.settle context call kernel outcome).1 := by
  obtain ⟨home, homes⟩ := inv.threads.homes
  by_cases here : call.object = some (.event event)
  · cases call <;> simp only [Call.object, Option.some.injEq, IpcObject.event.injEq,
      reduceCtorEq] at here
    case eventSend index set =>
      subst here
      exact .of_section inv holds runs effect keeps
        (fun thread waits old _ => EventInv.of_send inv holds enters waits old) nofun
    case eventRecv index set option timeout =>
      subst here
      cases context with
      | handler number => cases allowed
      | thread self =>
          obtain ⟨⟨mask, cleared⟩, joins⟩ := rtEventRecv_left homes (runs self rfl) enters
          refine .of_section inv holds runs effect keeps ?_ ?_
          · intro thread waits old rests
            rw [cleared, Bool.eq_false_iff]
            intro satisfied
            exact nomatch (holds thread old).unsatisfied.symm.trans (eventSatisfies_mono satisfied)
          · rintro thread ⟨⟩ - suspends
            obtain ⟨eventSet, eventInfo, nonzero, unsatisfied⟩ := joins suspends
            rw [eventSet, eventInfo]
            exact ⟨timeout, rfl, nonzero, unsatisfied⟩
    case eventControl index cmd =>
      subst here
      refine .of_section inv holds runs effect keeps ?_ nofun
      intro thread waits old rests
      rcases rtEventControl_cases homes enters with rfl | gone
      · exact (holds thread old).unsatisfied
      · exact absurd waits (gone thread)
  · refine .of_section inv holds runs effect keeps ?_ ?_
    · intro thread waits old rests
      rw [effect.objects.events event here]
      exact (holds thread old).unsatisfied
    · exact fun thread _ waitsOn => absurd (Call.object_of_waitsOn waitsOn) here

/-- Where a step leaves the waiters alone nobody becomes satisfied. -/
theorem EventInv.of_rests (holds : EventInv event system)
    (objects : next.kernel.objects = system.kernel.objects)
    (waits : ∀ thread, next.kernel.Waits (.event event) thread →
      system.kernel.Waits (.event event) thread)
    (rests : ∀ thread, system.kernel.Waits (.event event) thread →
      next.kernel.Waits (.event event) thread → Rests system.kernel next.kernel thread ∧
        (next.frames (.thread thread)).map Frame.call =
          (system.frames (.thread thread)).map Frame.call) : EventInv event next := by
  intro thread there
  have old := waits thread there
  obtain ⟨same, frames⟩ := rests thread old there
  obtain ⟨⟨timeout, tickDelta, point, frame⟩, wanted, unsatisfied⟩ := holds thread old
  have events : next.kernel.events = system.kernel.events := congrArg Objects.events objects
  refine ⟨?_, by rwa [same.eventSet], by rwa [same.eventSet, same.eventInfo, events]⟩
  rw [frame] at frames
  obtain ⟨⟨call, tickDelta', point'⟩, there', rfl⟩ := Option.map_eq_some_iff.mp frames
  exact ⟨timeout, tickDelta', point', by rw [there', same.eventSet, same.eventInfo]⟩

theorem EventInv.step (inv : CallsInv system) (holds : EventInv event system)
    (move : Move system action next emitted) : EventInv event next := by
  obtain ⟨home, homes⟩ := inv.threads.homes
  -- A thread that executes is not waiting.
  have awake : ∀ {thread}, Runs (some thread) system.kernel →
      ¬ system.kernel.Waits (.event event) thread := by
    rintro thread ⟨self, same, -, isReady⟩ waits
    obtain rfl := Option.some_inj.mp same
    cases isReady.symm.trans (homes.suspended_of_waits waits)
  cases move with
  | elapse nobody passes =>
      refine holds.of_rests passes.objects ?_ ?_
      · intro thread waits
        rcases passes.thread thread with rests | resumes | starts
        · exact (rests.waits _).mp waits
        · exact absurd waits (resumes.loose _)
        · exact absurd waits (starts.loose _)
      · intro thread old waits
        rcases passes.thread thread with rests | resumes | starts
        · exact ⟨rests, rfl⟩
        · exact absurd waits (resumes.loose _)
        · exact absurd waits (starts.loose _)
  | @schedule context frame point there onward =>
      refine holds.of_rests (rtSchedule_objects _)
        (fun thread waits => ((Rests.schedule system.kernel thread).waits _).mp waits) ?_
      intro thread _ _
      refine ⟨.schedule _ thread, ?_⟩
      by_cases own : Context.thread thread = context
      · subst own
        simp [there]
      · rw [System.setFrame_frames_other _ _ _ own]
  | @finish context frame there passed =>
      refine holds.of_rests rfl (fun _ waits => waits) ?_
      intro thread old _
      refine ⟨.refl _ thread, ?_⟩
      have own : Context.thread thread ≠ context := by
        rintro rfl
        obtain ⟨call, tickDelta, point, there', halted, -⟩ := inv.waiting thread _ old
        obtain rfl := Option.some_inj.mp (there.symm.trans there')
        rcases halted with rfl | rfl <;> cases passed
      rw [System.setFrame_frames_other _ _ _ own]
  | @sleepReturn self frame tick there woken sleeps runs =>
      refine holds.of_rests (rtThreadSleepReturn_objects _ _) ?_ ?_
      · intro thread waits
        rwa [Kernel.Waits, System.setFrame, rtThreadSleepReturn_links] at waits
      · intro thread old _
        have own : thread ≠ self := fun same => awake runs (same ▸ old)
        exact ⟨.sleepReturn own, by
          rw [System.setFrame_frames_other _ _ _ fun same => own (Context.thread.inj same)]⟩
  | @wakeReturn self frame there woken waited runs ends =>
      refine holds.of_rests rfl (fun _ waits => waits) ?_
      intro thread old _
      have own : thread ≠ self := fun same => awake runs (same ▸ old)
      exact ⟨.refl _ thread, by
        rw [System.setFrame_frames_other _ _ _ fun same => own (Context.thread.inj same)]⟩
  | @wakeAgain self frame there woken loops runs succeeds =>
      refine holds.of_rests rfl (fun _ waits => waits) ?_
      intro thread old _
      have own : thread ≠ self := fun same => awake runs (same ▸ old)
      exact ⟨.refl _ thread, by
        rw [System.setFrame_frames_other _ _ _ fun same => own (Context.thread.inj same)]⟩
  | enter idle running runs allowed enters effect keeps =>
      exact .enter inv holds runs allowed enters effect keeps
  | @again self call tickDelta kernel outcome there runs goes effect keeps =>
      have runs' : ∀ other, Context.thread self = .thread other →
          Runs (some other) system.kernel := by
        rintro other ⟨⟩
        exact runs
      by_cases here : call.object = some (.event event)
      · cases call <;> simp only [Call.object, Option.some.injEq, IpcObject.event.injEq,
          reduceCtorEq] at here
        case eventRecv index set option timeout =>
          obtain ⟨rfl, rfl⟩ := Prod.mk.inj (Option.some_inj.mp goes)
          refine @EventInv.of_section system event (.thread self) _ _ _ inv holds runs' effect
            keeps (fun thread _ old _ => (holds thread old).unsatisfied) ?_
          rintro _ _ _ ⟨_, ⟨⟩⟩
        case eventSend => cases goes
        case eventControl => cases goes
      · refine @EventInv.of_section system event (.thread self) _ _ _ inv holds runs' effect keeps
          ?_ ?_
        · intro thread waits old rests
          rw [effect.objects.events event (by rwa [Call.reduce_object])]
          exact (holds thread old).unsatisfied
        · intro thread _ waitsOn
          rw [Call.reduce_waitsOn] at waitsOn
          exact absurd (Call.object_of_waitsOn waitsOn) here

end

/-! ## What a waiter returns -/

/-- The thread will return from its call with this word when it runs. -/
structure OwesWord (system : System) (thread : ThreadId) (call : Call) (word : BitVec 32) :
    Prop where
  frame : ∃ tickDelta point, system.frames (.thread thread) = some ⟨call, tickDelta, point⟩ ∧
    (point = .suspended ∨ point = .woken ∨ point = .again)
  ready : (system.kernel.threads thread).stat = .ready
  error : (system.kernel.threads thread).error = .eok
  eventSet : (system.kernel.threads thread).eventSet = word

/-- The notices about one context. -/
def noticesOf (context : Context) (notices : List Notice) : List Notice :=
  notices.filter fun notice => notice.context = context

/-- The next thing that happens in the thread is that the call stores this word
and returns `RT_EOK`. -/
def ReturnsWord (system : System) (notices : List Notice) (thread : ThreadId) (call : Call)
    (word : BitVec 32) : Prop :=
  (noticesOf (.thread thread) notices = [] ∧ OwesWord system thread call word) ∨
    ∃ later, noticesOf (.thread thread) notices =
      .stored (.thread thread) word :: .returned (.thread thread) call .eok :: later

section

variable {system next : System} {event : Nat} {action : Action} {emitted : List Notice}
  {thread : ThreadId} {set timeout word : BitVec 32} {option : BitVec 8}

theorem OwesWord.of_rests (owes : OwesWord system thread (.eventRecv event set option timeout) word)
    {tickDelta : BitVec 32} {point : Point} (frame : next.frames (.thread thread) =
      some ⟨.eventRecv event set option timeout, tickDelta, point⟩)
    (halted : point = .suspended ∨ point = .woken ∨ point = .again)
    (rests : Rests system.kernel next.kernel thread) :
    OwesWord next thread (.eventRecv event set option timeout) word :=
  ⟨⟨tickDelta, point, frame, halted⟩, rests.stat.trans owes.ready, rests.error.trans owes.error,
    rests.eventSet.trans owes.eventSet⟩

theorem OwesWord.step (owes : OwesWord system thread (.eventRecv event set option timeout) word)
    (move : Move system action next emitted) :
    ReturnsWord next emitted thread (.eventRecv event set option timeout) word := by
  obtain ⟨tickDelta, point, there, halted⟩ := owes.frame
  by_cases apart : action.context = some (.thread thread)
  · cases move with
    | elapse nobody passes => exact nomatch nobody.symm.trans apart
    | @schedule context frame point' there' onward =>
        obtain rfl := Option.some_inj.mp apart
        obtain rfl := Option.some_inj.mp (there.symm.trans there')
        refine Or.inl ⟨rfl, @OwesWord.of_rests system _ event thread set timeout word option owes
          tickDelta point' (System.setFrame_frames_self ..) ?_ (.schedule _ thread)⟩
        rcases onward with ⟨-, rfl⟩ | ⟨resched, -⟩
        · exact Or.inr (Or.inl rfl)
        · rcases halted with rfl | rfl | rfl <;> cases resched
    | @finish context frame there' passed =>
        obtain rfl := Option.some_inj.mp apart
        obtain rfl := Option.some_inj.mp (there.symm.trans there')
        rcases halted with rfl | rfl | rfl <;> cases passed
    | @sleepReturn self frame tick there' woken sleeps runs =>
        obtain rfl := Context.thread.inj (Option.some_inj.mp apart)
        obtain rfl := Option.some_inj.mp (there.symm.trans there')
        cases sleeps
    | @wakeReturn self frame there' woken waited runs ends =>
        obtain rfl := Context.thread.inj (Option.some_inj.mp apart)
        obtain rfl := Option.some_inj.mp (there.symm.trans there')
        exact absurd owes.error (ends trivial)
    | @wakeAgain self frame there' woken loops runs succeeds =>
        obtain rfl := Context.thread.inj (Option.some_inj.mp apart)
        obtain rfl := Option.some_inj.mp (there.symm.trans there')
        exact Or.inl ⟨rfl, @OwesWord.of_rests system _ event self set timeout word option owes
          tickDelta .again
          (System.setFrame_frames_self ..) (Or.inr (Or.inr rfl)) (.refl _ _)⟩
    | enter idle running runs allowed enters effect keeps =>
        obtain rfl := Option.some_inj.mp apart
        exact nomatch idle.symm.trans there
    | @again self call tickDelta' kernel outcome there' runs goes effect keeps =>
        obtain rfl := Context.thread.inj (Option.some_inj.mp apart)
        obtain same := Option.some_inj.mp (there.symm.trans there')
        simp only [Frame.mk.injEq] at same
        obtain ⟨rfl, -, -⟩ := same
        obtain ⟨rfl, rfl⟩ := Prod.mk.inj (Option.some_inj.mp goes)
        refine Or.inr ⟨[], ?_⟩
        simp [System.settle, rtEventRecvReturn, owes.error, owes.eventSet, Call.reduce, noticesOf,
          Notice.context]
  · obtain ⟨frames, rests⟩ := move.rests_of_ready apart owes.ready
    refine Or.inl ⟨?_, owes.of_rests (frames.trans there) halted rests⟩
    refine List.filter_eq_nil_iff.mpr fun notice shown same => apart ?_
    rw [move.notices_context notice shown, of_decide_eq_true same]

/-- What a resumed waiter returns is settled, whatever the others do before it
runs. -/
theorem OwesWord.run {allowed : System → Action → Prop} {start : System}
    {actions : List Action} {notices : List Notice}
    (owes : OwesWord start thread (.eventRecv event set option timeout) word)
    (unlocked : Unlocked start) (run : systemMachine.Run allowed start actions notices system)
    (without : ∀ system action, allowed system action → NoResume action) :
    ReturnsWord system notices thread (.eventRecv event set option timeout) word := by
  have kept : ∀ shown system action next emitted, Unlocked system → Unlocked next →
      ReturnsWord system shown thread (.eventRecv event set option timeout) word →
      allowed system action → Move system action next emitted →
      ReturnsWord next (shown ++ emitted) thread (.eventRecv event set option timeout) word := ?_
  · exact (@Unlocked.run allowed (fun shown system =>
      ReturnsWord system shown thread (.eventRecv event set option timeout) word)
      _ _ _ _ run without unlocked (Or.inl ⟨rfl, owes⟩) kept).2
  intro shown system action next emitted _ _ returns _ move
  rcases returns with ⟨silent, owes⟩ | ⟨later, returned⟩
  · rcases owes.step move with ⟨silent', owes'⟩ | ⟨later, returned⟩
    · exact Or.inl ⟨by rw [noticesOf, List.filter_append]; simp_all [noticesOf], owes'⟩
    · exact Or.inr ⟨later, by rw [noticesOf, List.filter_append]; simp_all [noticesOf]⟩
  · exact Or.inr ⟨later ++ noticesOf (.thread thread) emitted, by
      rw [noticesOf, List.filter_append]
      simp_all [noticesOf]⟩

end

/-! ## Runs -/

/-- What is true of an event whenever it is looked at. -/
structure EventDelivery (event : Nat) (system : System) : Prop where
  /-- Every waiter wants what its call asks for, and the event does not have it. -/
  waiters : EventInv event system
  /-- Sending resumes the waiters that would have received something in turn, and
  what they would have received is what their calls return. -/
  sends : ∀ context set queue, context.Running system.kernel → system.frames context = none →
    Queued system.kernel (.event event) queue →
    ∃ next emitted words,
      systemMachine.step system (.enter context (.eventSend event set)) = some (next, emitted) ∧
      SendsInTurn event system.kernel set queue next.kernel words ∧
      ∀ thread word, (thread, some word) ∈ queue.zip words → ∃ timeout,
        ∀ actions notices final,
          systemMachine.Run (fun _ => NoResume) next actions notices final →
            ReturnsWord final notices thread (.eventRecv event
              (system.kernel.threads thread).eventSet (system.kernel.threads thread).eventInfo
              timeout) word

theorem events_run {config : Config} {actions : List Action} {notices : List Notice}
    {system : System} (event : Nat)
    (run : systemMachine.Run (fun _ => NoResume) (System.boot config) actions notices system) :
    Unlocked system ∧ EventInv event system :=
  @Unlocked.run (fun _ => NoResume) (fun _ system => EventInv event system) _ _ _ _ run
    (fun _ _ without => without) (.initial config)
    (fun thread waits => absurd waits (not_waits_boot config (.event event) thread))
    fun _ _ _ _ _ before _ holds _ move => holds.step before.calls move

theorem EventDelivery.of_run {config : Config} {actions : List Action} {notices : List Notice}
    {system : System} (event : Nat)
    (run : systemMachine.Run (fun _ => NoResume) (System.boot config) actions notices system) :
    EventDelivery event system := by
  obtain ⟨unlocked, waiters⟩ := events_run event run
  refine ⟨waiters, ?_⟩
  intro context set queue running idle queued
  obtain ⟨home, homes⟩ := unlocked.calls.threads.homes
  have waiting : ∀ thread ∈ queue, EventWaiting event system thread :=
    fun thread member => waiters thread ((queued.waits_iff thread).mpr member)
  obtain ⟨kernel, words, final, outcome, sends, inTurn⟩ := @rtEventSend_in_turn system.kernel home
    event queue set homes queued (fun thread member => (waiting thread member).wanted)
    (Or.inr fun thread member => (waiting thread member).unsatisfied)
  have begins := @System.enter_of_section system context (.eventSend event set) kernel outcome
    trivial running (by cases context <;> rfl) idle sends
  refine ⟨(system.settle context (.eventSend event set) kernel outcome).1, _, words, begins, ?_, ?_⟩
  · rw [System.settle_kernel]
    exact ⟨final, outcome, sends, inTurn⟩
  intro thread word paired
  have member := (List.of_mem_zip paired).1
  have waits := (queued.waits_iff thread).mpr member
  obtain ⟨resumes, received⟩ := inTurn.2.2.1.receiver paired
  obtain ⟨timeout, tickDelta, point, there⟩ := (waiting thread member).call
  obtain ⟨call, tickDelta', point', there', halted, -, error⟩ := unlocked.calls.waiting _ _ waits
  obtain ⟨rfl, rfl, rfl⟩ := Frame.mk.inj (Option.some_inj.mp (there.symm.trans there'))
  refine ⟨timeout, fun actions notices final run => ?_⟩
  have apart : context ≠ .thread thread := by
    rintro rfl
    exact nomatch idle.symm.trans there
  have settled := System.settle_kernel system context (.eventSend event set) kernel outcome
  have owes : OwesWord (system.settle context (.eventSend event set) kernel outcome).1 thread
      (.eventRecv event (system.kernel.threads thread).eventSet
        (system.kernel.threads thread).eventInfo timeout) word := by
    refine ⟨⟨tickDelta, point, ?_, halted.imp id Or.inl⟩, ?_, ?_, ?_⟩
    · exact (system.settle_frames_other _ _ _ (Ne.symm apart)).trans there
    · rw [settled]
      exact resumes.ready
    · rw [settled, resumes.error]
      exact error
    · rw [settled]
      exact received
  have after := @Unlocked.step system _ (.enter context (.eventSend event set)) _ unlocked trivial
    begins
  exact owes.run after run fun _ _ without => without

/-- Sending gives the waiters what they would have received in turn, and nobody
waits for events that are there. -/
theorem event_delivery (event : Nat) :
    (∀ kernel home queue set, WaitInv kernel home → Queued kernel (.event event) queue →
      (∀ thread ∈ queue, (kernel.threads thread).eventSet ≠ 0#32) →
      (set ≠ 0#32 ∨ ∀ thread ∈ queue, eventSatisfies (kernel.threads thread).eventInfo
        (kernel.threads thread).eventSet (kernel.events event).set = false) →
      ∃ next words, SendsInTurn event kernel set queue next words) ∧
    ∀ config actions notices system,
      systemMachine.Run (fun _ => NoResume) (System.boot config) actions notices system →
        EventDelivery event system := by
  constructor
  · intro kernel home queue set inv queued wanted useful
    exact rtEventSend_in_turn inv queued wanted useful
  · intro config actions notices system run
    exact .of_run event run

/-- One thread waits for any of two events, which it will clear, and another for
all of two. -/
theorem event_delivery_two_threads :
    ∃ system notices queue next words, systemMachine.execute (System.boot twoThreads)
        [.threadStartup 0, .threadStartup 1, .schedulerStart,
          .enter (.thread 0) (.eventRecv 0 5 6 0xffffffff), .advance (.thread 0),
          .enter (.thread 1) (.eventRecv 0 3 1 0xffffffff)] = some (system, notices) ∧
      0 ∈ queue ∧ Queued system.kernel (.event 0) queue ∧
      SendsInTurn 0 system.kernel 7 queue next words ∧ EventDelivery 0 system := by
  have final : (systemMachine.execute (System.boot twoThreads)
      [.threadStartup 0, .threadStartup 1, .schedulerStart,
        .enter (.thread 0) (.eventRecv 0 5 6 0xffffffff), .advance (.thread 0),
        .enter (.thread 1) (.eventRecv 0 3 1 0xffffffff)]).map
      (fun (system, _) => system.kernel.threadLinks.next (.wait (.event 0))) =
        some (.tlist 0) := by
    decide +kernel
  obtain ⟨⟨system, notices⟩, success, first⟩ := Option.map_eq_some_iff.mp final
  have run := @Machine.run_of_execute _ _ _ systemMachine (fun _ => NoResume) _ _ _ _
    (by simp [NoResume]) success
  have delivery := (event_delivery 0).2 twoThreads _ _ _ run
  obtain ⟨home, homes⟩ := (Unlocked.of_run run fun _ _ without => without).calls.threads.homes
  obtain ⟨queue, queued⟩ := homes.queued (.event 0)
  have waits : system.kernel.Waits (.event 0) 0 := by
    refine ⟨1, by decide, first, ?_⟩
    intro before positive bounded same
    obtain rfl : before = 1 := by omega
    exact nomatch first.symm.trans same
  obtain ⟨next, words, sends⟩ := (event_delivery 0).1 _ _ queue 7 homes queued
    (fun thread member => (delivery.waiters thread ((queued.waits_iff thread).mpr member)).wanted)
    (Or.inl (by decide))
  exact ⟨system, notices, queue, next, words, success, (queued.waits_iff 0).mp waits, queued, sends,
    delivery⟩

end RtThread
