import RtThread.Kernel.MailMoves
import RtThread.Kernel.MutexView

/-!
# One step of a mutex

A mutex has an owner or is free, and then nobody waits for it. A thread that a
release has resumed owns the mutex before it runs. Every move keeps this, also
while the scheduler is locked.
-/

namespace RtThread

open RtThread.Std

/-- The record of a mutex that is free or has an owner. -/
inductive Mutex.Settled (record : Mutex) (waited : Prop) : Prop where
  | free (value : record.value = 1#16) (unowned : record.owner = none) (nobody : ¬ waited)
  | owned {owner : ThreadId} (value : record.value = 0#16) (owned : record.owner = some owner)

structure MutexKept (mutex : Nat) (system : System) : Prop where
  settled : (system.kernel.mutexes mutex).Settled
    (∃ thread, system.kernel.Waits (.mutex mutex) thread)
  awake : ∀ thread, Awake system (.mutex mutex) thread →
    (system.kernel.mutexes mutex).owner = some thread

theorem MutexKept.initial (config : Config) (mutex : Nat) :
    MutexKept mutex (System.boot config) := by
  refine ⟨.free rfl rfl ?_, fun thread => ?_⟩
  · rintro ⟨thread, waits⟩
    exact not_waits_boot config _ thread waits
  · exact fun awake => absurd awake (not_awake_idle rfl)

section

variable {system next : System} {mutex : Nat} {action : Action} {emitted : List Notice}
  {context : Context} {call : Call} {kernel : Kernel} {outcome : Outcome}

/-- A step that leaves the mutex alone. -/
theorem MutexKept.of_effect {joins : Prop} {loses : Option ThreadId} (kept : MutexKept mutex system)
    (record : next.kernel.mutexes mutex = system.kernel.mutexes mutex)
    (effect : ListEffect (.mutex mutex) system next joins loses none) (never : ¬ joins) :
    MutexKept mutex next := by
  refine ⟨?_, fun thread awake => ?_⟩
  · rw [record]
    cases kept.settled with
    | free value unowned nobody =>
        refine .free value unowned ?_
        rintro ⟨thread, waits⟩
        exact nobody ⟨thread, (effect.waits thread waits).resolve_right never⟩
    | owned value owned => exact .owned value owned
  · rw [record]
    rcases (effect.awake thread).mp awake with ⟨before, -⟩ | absurd
    · exact kept.awake thread before
    · cases absurd

/-- A section that wakes nobody who waits for the mutex. -/
theorem ListEffect.of_foreign (inv : CallsInv system)
    (runs : ∀ self, context = .thread self → Runs (some self) system.kernel)
    (before : ∀ thread, context = .thread thread → ¬ Awake system (.mutex mutex) thread)
    (effect : SectionEffect call context.self system.kernel kernel outcome)
    (keeps : SectionKeeps system.kernel kernel outcome) (foreign : ¬ call.wakes (.mutex mutex)) :
    ListEffect (.mutex mutex) system (system.settle context call kernel outcome).1
      (call.waitsOn = some (.mutex mutex) ∧ ∃ timer, outcome = .suspends timer) none none :=
  .of_section inv runs effect keeps nofun (fun thread own _ => before thread own)
    (unwoken_of_rests runs (effect.rests_of_foreign inv foreign))

theorem MutexKept.of_foreign (inv : CallsInv system) (kept : MutexKept mutex system)
    (runs : ∀ self, context = .thread self → Runs (some self) system.kernel)
    (before : ∀ thread, context = .thread thread → ¬ Awake system (.mutex mutex) thread)
    (effect : SectionEffect call context.self system.kernel kernel outcome)
    (keeps : SectionKeeps system.kernel kernel outcome)
    (foreign : call.object ≠ some (.mutex mutex)) :
    MutexKept mutex (system.settle context call kernel outcome).1 := by
  refine kept.of_effect ?_ (.of_foreign inv runs before effect keeps ?_) ?_
  · rw [System.settle_kernel]
    exact effect.objects.mutexes mutex foreign
  · exact fun wakes => foreign (Call.object_of_wakes wakes)
  · exact fun ⟨waitsOn, _⟩ => foreign (Call.object_of_waitsOn waitsOn)

/-- Whatever a section that wakes nobody does with the record of the mutex. -/
theorem MutexKept.of_record {joins : Prop}
    (effect : ListEffect (.mutex mutex) system next joins none none)
    (settled : (next.kernel.mutexes mutex).Settled
      (∃ thread, next.kernel.Waits (.mutex mutex) thread))
    (awake : ∀ thread, Awake system (.mutex mutex) thread →
      (next.kernel.mutexes mutex).owner = some thread) : MutexKept mutex next := by
  refine ⟨settled, fun thread awake' => ?_⟩
  rcases (effect.awake thread).mp awake' with ⟨before, -⟩ | absurd
  · exact awake thread before
  · cases absurd

/-- What a take by a running thread does to the mutex. -/
theorem MutexKept.take {thread : ThreadId} {time : BitVec 32} (inv : CallsInv system)
    (kept : MutexKept mutex system) (runs : Runs (some thread) system.kernel)
    (idle : system.frames (.thread thread) = none)
    (enters : rtMutexTake system.kernel mutex time = some (kernel, outcome))
    (effect : SectionEffect (.mutexTake mutex time) (some thread) system.kernel kernel outcome)
    (keeps : SectionKeeps system.kernel kernel outcome) :
    MutexKept mutex (system.settle (.thread thread) (.mutexTake mutex time) kernel outcome).1 ∧
      ∀ output, outcome = .returns .eok output → (kernel.mutexes mutex).owner = some thread := by
  obtain ⟨home, homes⟩ := inv.threads.homes
  have changes := @ListEffect.of_foreign system mutex (.thread thread) (.mutexTake mutex time)
    kernel outcome inv (by rintro other ⟨⟩; exact runs)
    (by rintro other ⟨⟩; exact not_awake_idle idle) effect keeps id
  obtain ⟨self, same, current, isReady⟩ := runs
  obtain rfl := Option.some_inj.mp same
  obtain ⟨home', -, move⟩ := rtMutexTake_refines homes current isReady enters
  generalize seen : view kernel home' = after at move
  have records : kernel.mutexes = after.mutexes := congrArg MutexView.mutexes seen
  cases move with
  | nested owned =>
      have owned' : (system.kernel.mutexes mutex).owner = some thread := owned
      have record : kernel.mutexes mutex = { system.kernel.mutexes mutex with
          hold := (system.kernel.mutexes mutex).hold + 1#8 } := by
        simp [records, view]
      refine ⟨.of_record changes ?_ ?_, fun _ _ => by rw [record]; exact owned'⟩
      · rw [System.settle_kernel, record]
        cases kept.settled with
        | free value unowned nobody => cases unowned.symm.trans owned'
        | owned value owner => exact .owned value owner
      · intro other awake
        rw [System.settle_kernel, record]
        exact kept.awake other awake
  | free foreign available =>
      have record : kernel.mutexes mutex = { system.kernel.mutexes mutex with
          value := (system.kernel.mutexes mutex).value - 1#16
          owner := some thread
          originalPriority := (system.kernel.threads thread).currentPriority
          hold := (system.kernel.mutexes mutex).hold + 1#8 } := by
        simp [records, view]
      refine ⟨.of_record changes ?_ ?_, fun _ _ => by rw [record]⟩
      · rw [System.settle_kernel, record]
        cases kept.settled with
        | free value unowned nobody => exact .owned (by simp [value]) rfl
        | owned value owner => exact absurd value available
      · intro other awake
        cases kept.settled with
        | free value unowned nobody => cases unowned.symm.trans (kept.awake other awake)
        | owned value owner => exact absurd value available
  | refused foreign taken unwilling =>
      refine ⟨kept.of_effect ?_ changes (by rintro ⟨_, _, ⟨⟩⟩),
        by rintro _ ⟨⟩⟩
      simp [records, view]
  | waits owner owned foreign taken willing timer =>
      have record : kernel.mutexes mutex = system.kernel.mutexes mutex := by
        simp [records, view]
      refine ⟨.of_record changes ?_ ?_, by rintro _ ⟨⟩⟩
      · rw [System.settle_kernel, record]
        exact .owned taken owned
      · intro other awake
        rw [System.settle_kernel, record]
        exact kept.awake other awake

/-- What a release by a running thread does to the mutex. -/
theorem MutexKept.release {thread : ThreadId} (inv : CallsInv system)
    (kept : MutexKept mutex system) (runs : Runs (some thread) system.kernel)
    (idle : system.frames (.thread thread) = none)
    (enters : rtMutexRelease system.kernel mutex = some (kernel, outcome))
    (effect : SectionEffect (.mutexRelease mutex) (some thread) system.kernel kernel outcome)
    (keeps : SectionKeeps system.kernel kernel outcome) :
    MutexKept mutex (system.settle (.thread thread) (.mutexRelease mutex) kernel outcome).1 := by
  obtain ⟨home, homes⟩ := inv.threads.homes
  have runs' : ∀ self, Context.thread thread = .thread self → Runs (some self) system.kernel := by
    rintro other ⟨⟩
    exact runs
  obtain ⟨self, same, current, isReady⟩ := runs
  obtain rfl := Option.some_inj.mp same
  obtain ⟨home', homes', move⟩ := rtMutexRelease_refines homes current enters
  generalize seen : view kernel home' = after at move
  have records : kernel.mutexes = after.mutexes := congrArg MutexView.mutexes seen
  -- The owner is running, so nobody is on the way back from the list.
  have nobodyAwake : (system.kernel.mutexes mutex).owner = some thread →
      ∀ other, ¬ Awake system (.mutex mutex) other := by
    intro owned other awake
    obtain rfl := Option.some_inj.mp (owned.symm.trans (kept.awake other awake))
    exact not_awake_idle idle awake
  have stays : ∀ other, kernel.Waits (.mutex mutex) other →
      system.kernel.Waits (.mutex mutex) other := by
    intro other waits
    exact (CallsInv.section_waits runs' effect keeps waits).resolve_right
      (by rintro ⟨⟨⟩, -⟩)
  have before : ∀ other, Awake (system.settle (.thread thread) (.mutexRelease mutex) kernel
      outcome).1 (.mutex mutex) other → Awake system (.mutex mutex) other ∨
        (view system.kernel home).stat other = .suspend ∧ after.stat other = .ready := by
    intro other awake
    by_cases own : other = thread
    · subst own
      exact absurd awake (not_awake_settle effect)
    · have apart : some thread ≠ some other := fun same => own (Option.some_inj.mp same).symm
      have frames := system.settle_frames_other (.mutexRelease mutex) kernel outcome
        (fun same => own (Context.thread.inj same) : Context.thread other ≠ .thread thread)
      rcases effect.others other apart with rests | ⟨-, -, -, resumes⟩
      · exact Or.inl ((awake_congr frames (by rwa [System.settle_kernel])).mp awake)
      · refine Or.inr ⟨resumes.suspended, ?_⟩
        rw [← seen]
        exact resumes.ready
  cases move with
  | refused foreign =>
      have record : kernel.mutexes mutex = system.kernel.mutexes mutex := by
        simp [records, view]
      refine ⟨?_, fun other awake => ?_⟩
      · rw [System.settle_kernel, record]
        cases kept.settled with
        | free value unowned nobody =>
            refine .free value unowned ?_
            rintro ⟨other, waits⟩
            exact nobody ⟨other, stays other waits⟩
        | owned value owned => exact .owned value owned
      · rw [System.settle_kernel, record]
        rcases before other awake with awake | ⟨suspended, ready⟩
        · exact kept.awake other awake
        · cases suspended.symm.trans ready
  | nested owned held =>
      have record : kernel.mutexes mutex = { system.kernel.mutexes mutex with
          hold := (system.kernel.mutexes mutex).hold - 1#8 } := by
        simp [records, view]
      refine ⟨?_, fun other awake => ?_⟩
      · rw [System.settle_kernel, record]
        cases kept.settled with
        | free value unowned nobody => cases unowned.symm.trans owned
        | owned value owner => exact .owned value owner
      · rcases before other awake with awake | ⟨suspended, ready⟩
        · exact absurd awake (nobodyAwake owned other)
        · cases suspended.symm.trans ready
  | last owned unheld pass =>
      have taken : (system.kernel.mutexes mutex).value = 0#16 := by
        cases kept.settled with
        | free value unowned nobody => cases unowned.symm.trans owned
        | owned value owner => exact value
      cases pass with
      | frees nobody =>
          have record : (kernel.mutexes mutex).value = 1#16 ∧
              (kernel.mutexes mutex).owner = none := by
            simp [records, view, taken]
          refine ⟨?_, fun other awake => ?_⟩
          · rw [System.settle_kernel]
            refine .free record.1 record.2 ?_
            rintro ⟨other, waits⟩
            refine nobody other (suspendList_eq_some.mpr ?_)
            exact (homes.linked_iff (ThreadNode.isHead_wait _) other).mp (stays other waits)
          · rcases before other awake with awake | ⟨suspended, ready⟩
            · exact absurd awake (nobodyAwake owned other)
            · cases suspended.symm.trans ready
      | hands waiter first waiting =>
          have record : (kernel.mutexes mutex).value = 0#16 ∧
              (kernel.mutexes mutex).owner = some waiter := by
            simp [records, view, taken]
          refine ⟨?_, fun other awake => ?_⟩
          · rw [System.settle_kernel]
            exact .owned record.1 record.2
          · rw [System.settle_kernel, record.2]
            rcases before other awake with awake | ⟨suspended, ready⟩
            · exact absurd awake (nobodyAwake owned other)
            · by_contra apart
              have different : other ≠ waiter := fun same => apart (congrArg some same.symm)
              simp [different, suspended] at ready

theorem MutexKept.enter (inv : CallsInv system) (kept : MutexKept mutex system)
    (idle : system.frames context = none)
    (runs : ∀ thread, context = .thread thread → Runs (some thread) system.kernel)
    (allowed : call.allowedIn context = true)
    (enters : call.enter system.kernel = some (kernel, outcome))
    (effect : SectionEffect call context.self system.kernel kernel outcome)
    (keeps : SectionKeeps system.kernel kernel outcome) :
    MutexKept mutex (system.settle context call kernel outcome).1 := by
  have before : ∀ thread, context = .thread thread → ¬ Awake system (.mutex mutex) thread := by
    rintro thread rfl
    exact not_awake_idle idle
  by_cases here : call.object = some (.mutex mutex)
  · cases call <;> simp only [Call.object, Option.some.injEq, IpcObject.mutex.injEq,
      reduceCtorEq] at here
    case mutexTake index time =>
      subst here
      cases context with
      | handler number => cases allowed
      | thread self => exact (kept.take inv (runs self rfl) idle enters effect keeps).1
    case mutexRelease index =>
      subst here
      cases context with
      | handler number => cases allowed
      | thread self => exact kept.release inv (runs self rfl) idle enters effect keeps
  · exact kept.of_foreign inv runs before effect keeps here

/-- No call on a mutex has a section behind its test of `thread->error`. -/
theorem Call.again_foreign {thread : ThreadId} {tickDelta : BitVec 32} {before : Kernel}
    (goes : call.again before thread tickDelta = some (kernel, outcome)) :
    call.object ≠ some (.mutex mutex) := by
  cases call <;> first | (cases goes; done) | simp [Call.object]

/-- Every move keeps the mutex. -/
theorem MutexKept.step (inv : CallsInv system) (kept : MutexKept mutex system)
    (move : Move system action next emitted) : MutexKept mutex next := by
  by_cases silent : action.section system = none
  · obtain ⟨loses, effect, -⟩ := move.listEffect_of_silent inv silent
    refine kept.of_effect ?_ effect id
    exact congrFun (congrArg Objects.mutexes (move.objects_of_silent silent)) mutex
  cases move with
  | enter idle running runs allowed enters effect keeps =>
      exact kept.enter inv idle runs allowed enters effect keeps
  | @again thread call tickDelta kernel outcome there runs goes effect keeps =>
      have foreign := @Call.again_foreign mutex call kernel outcome thread tickDelta _ goes
      refine @MutexKept.of_foreign system mutex (.thread thread) _ kernel outcome inv kept
        ?_ ?_ effect keeps (by rwa [Call.reduce_object])
      · rintro other ⟨⟩
        exact runs
      · rintro other ⟨⟩
        exact not_awake_of_call there fun waitsOn => foreign (Call.object_of_waitsOn waitsOn)
  | elapse nobody passes => exact absurd (Action.section_of_nobody nobody) silent
  | @schedule context frame point there onward =>
      rcases onward with ⟨point, -⟩ | ⟨point, -⟩ <;> simp [Action.section, there, point] at silent
  | finish there passed => simp [Action.section, there, passed] at silent
  | sleepReturn there woken sleeps runs => simp [Action.section, there, woken] at silent
  | wakeReturn there woken waited runs ends => simp [Action.section, there, woken] at silent
  | wakeAgain there woken loops runs succeeds => simp [Action.section, there, woken] at silent

/-- A take of the mutex that returns `RT_EOK` leaves its caller as the owner. -/
theorem MutexKept.returned {other : Context} {time : BitVec 32} (inv : CallsInv system)
    (kept : MutexKept mutex system) (move : Move system action next emitted)
    (returned : .returned other (.mutexTake mutex time) .eok ∈ emitted) :
    ∃ thread, other = .thread thread ∧ (next.kernel.mutexes mutex).owner = some thread := by
  cases move with
  | elapse nobody passes => cases returned
  | schedule there onward => cases returned
  | wakeAgain there woken loops runs succeeds => cases returned
  | @finish context frame there passed =>
      obtain ⟨rfl, same⟩ : other = context ∧ .mutexTake mutex time = frame.call := by
        simpa using returned
      obtain ⟨call, tickDelta, point⟩ := frame
      obtain rfl : point = .returning := passed
      obtain rfl : .mutexTake mutex time = call := same
      cases inv.frames _ _ there with
      | waits blocks halted => rcases halted with absurd | absurd <;> cases absurd
      | passes wakes passed => exact wakes.choose_spec.elim
  | @sleepReturn thread frame tick there woken sleeps runs =>
      simp [sleeps] at returned
  | @wakeReturn thread frame there woken waited runs ends =>
      obtain ⟨rfl, same, succeeds⟩ : other = .thread thread ∧ .mutexTake mutex time = frame.call ∧
          .eok = (system.kernel.threads thread).error := by
        simpa using returned
      obtain ⟨self, isSelf, -, isReady⟩ := runs
      obtain rfl := Option.some_inj.mp isSelf
      refine ⟨thread, rfl, kept.awake thread ⟨_, _, _, there, ?_, ?_⟩⟩
      · rw [← same]
        rfl
      · exact Or.inr ⟨Or.inr woken, isReady, succeeds.symm⟩
  | @enter context call kernel outcome idle running runs allowed enters effect keeps =>
      cases outcome with
      | returns result output =>
          obtain ⟨rfl, rfl, rfl⟩ : other = context ∧ .mutexTake mutex time = call ∧
              .eok = result := by
            simpa [System.settle] using returned
          cases other with
          | handler number => cases allowed
          | thread self =>
              have taken := kept.take inv (runs self rfl) idle enters effect keeps
              exact ⟨self, rfl, taken.2 output rfl⟩
      | suspends timer => simp [System.settle] at returned
      | reschedules output => simp [System.settle] at returned
  | @again thread call tickDelta kernel outcome there runs goes effect keeps =>
      cases outcome with
      | returns result output =>
          have same : .mutexTake mutex time = call.reduce tickDelta system.kernel.rtTick := by
            simp only [System.settle, List.mem_append, List.mem_map, List.mem_singleton,
              Notice.returned.injEq, reduceCtorEq, and_false, exists_false, false_or] at returned
            exact returned.2.1
          refine absurd ?_ (@Call.again_foreign mutex call kernel _ thread tickDelta _ goes)
          rw [← Call.reduce_object call tickDelta system.kernel.rtTick, ← same]
          rfl
      | suspends timer => simp [System.settle] at returned
      | reschedules output => simp [System.settle] at returned

end

end RtThread
