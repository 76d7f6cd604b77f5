import RtThread.Kernel.Moves

/-!
# One step of a semaphore

A token is in the counter of the semaphore or, from the release that hands it
over until the take returns, with a thread that has been resumed. `SemMove` says
how each step moves the tokens of one semaphore.
-/

namespace RtThread

open RtThread.Std

/-! ## The sections -/

section

variable {kernel next : Kernel} {home : ThreadId → Option ThreadNode} {outcome : Outcome}
  {sem : Nat}

/-- A take finds a token, or does not want to wait, or waits. -/
theorem rtSemTake_cases {time : BitVec 32} {self : Option ThreadId} (inv : WaitInv kernel home)
    (runs : time = 0#32 ∨ Runs self kernel)
    (step : rtSemTake kernel sem time = some (next, outcome)) :
    (kernel.sems sem).value ≠ 0#16 ∧ outcome = .returns .eok none ∧
        next = kernel.setSem sem
          { kernel.sems sem with value := (kernel.sems sem).value - 1#16 } ∨
      (kernel.sems sem).value = 0#16 ∧ outcome = .returns .etimeout none ∧ next = kernel ∨
      (kernel.sems sem).value = 0#16 ∧ (∃ timer, outcome = .suspends timer) ∧
        next.sems = kernel.sems := by
  simp only [rtSemTake] at step
  split at step
  · rename_i available
    obtain ⟨rfl, rfl⟩ := Prod.mk.inj (Option.some_inj.mp step)
    exact Or.inl ⟨available, rfl, rfl⟩
  rename_i empty
  have empty' := Classical.not_not.mp empty
  split at step
  · obtain ⟨rfl, rfl⟩ := Prod.mk.inj (Option.some_inj.mp step)
    exact Or.inr (Or.inl ⟨empty', rfl, rfl⟩)
  · rename_i willing
    obtain ⟨thread, -, current, isReady⟩ := runs.resolve_left willing
    rw [current] at step
    obtain ⟨objects, suspends, -⟩ := suspendOn_rests (inv.setError thread .eok)
      (by simpa [Kernel.setError, Kernel.setThread] using isReady) step
    exact Or.inr (Or.inr ⟨empty', suspends, congrArg Objects.sems objects⟩)

/-- A release hands its token to the first waiter, or stores it. -/
theorem rtSemRelease_cases (inv : WaitInv kernel home)
    (step : rtSemRelease kernel sem = some (next, outcome)) :
    kernel.threadLinks.isEmpty (.wait (.sem sem)) = true ∧ outcome = .returns .eok none ∧
        next = kernel.setSem sem
          { kernel.sems sem with value := (kernel.sems sem).value + 1#16 } ∨
      ∃ thread, threadEntry (kernel.threadLinks.next (.wait (.sem sem))) = .thread thread ∧
        kernel.Waits (.sem sem) thread ∧ outcome = .reschedules none ∧
        next = (rtThreadResume kernel thread).2 := by
  simp only [rtSemRelease] at step
  split at step
  · rename_i empty
    obtain ⟨rfl, rfl⟩ := Prod.mk.inj (Option.some_inj.mp step)
    exact Or.inl ⟨empty, rfl, rfl⟩
  · rename_i occupied
    obtain ⟨resumed, resume, done⟩ := Option.bind_eq_some_iff.mp step
    obtain ⟨rfl, rfl⟩ := Prod.mk.inj (Option.some_inj.mp done)
    obtain ⟨thread, entry, there⟩ :=
      inv.first_waiting (Bool.eq_false_of_not_eq_true occupied)
    rw [rtIpcListResume, entry] at resume
    exact Or.inr ⟨thread, entry,
      (inv.linked_iff (ThreadNode.isHead_wait (.sem sem)) thread).mpr there, rfl,
      (Option.some_inj.mp resume).symm⟩

/-- Resetting a semaphore resumes every waiter with `-RT_ERROR`. -/
theorem rtSemControl_cases {cmd : BitVec 8} {arg : BitVec 32} (inv : WaitInv kernel home)
    (step : rtSemControl kernel sem cmd arg = some (next, outcome)) :
    cmd ≠ ipcCmdReset ∧ outcome = .returns .error none ∧ next = kernel ∨
      cmd = ipcCmdReset ∧ outcome = .reschedules none ∧
        next.sems sem = { kernel.sems sem with value := arg.setWidth 16 } ∧
        ∀ thread, ¬ next.Waits (.sem sem) thread ∧
          (kernel.Waits (.sem sem) thread → Resumes kernel next thread .error) := by
  unfold rtSemControl at step
  split at step
  · rename_i resets
    obtain ⟨resumed, resume, done⟩ := Option.bind_eq_some_iff.mp step
    obtain ⟨rfl, rfl⟩ := Prod.mk.inj (Option.some_inj.mp done)
    have sems : resumed.sems = kernel.sems :=
      congrArg Objects.sems (rtIpcListResumeAll_objects ⟨home, inv⟩ resume)
    refine Or.inr ⟨resets, rfl, ?_, ?_⟩
    · simp [Kernel.setSem, sems]
    · intro thread
      have gone := listResumeAll_empties ⟨home, inv⟩ resume thread
      refine ⟨gone, ?_⟩
      intro waits
      have others : Affects none (· = WaitList.sem sem) (some .error) kernel resumed :=
        .listResumeAll ⟨home, inv⟩ rfl resume
      rcases others thread (by simp) with rests | ⟨-, -, -, resumes⟩
      · exact absurd ((rests.waits _).mpr waits) gone
      · exact ⟨resumes.suspended, resumes.ready, resumes.error, resumes.loose⟩
  · rename_i other
    obtain ⟨rfl, rfl⟩ := Prod.mk.inj (Option.some_inj.mp step)
    exact Or.inl ⟨other, rfl, rfl⟩

end

/-! ## Tokens that have been handed over -/

/-- A release has handed the thread a token; its take has not returned yet. -/
def Granted (system : System) (sem : Nat) (thread : ThreadId) : Prop :=
  ∃ time, Owes system thread (.semTake sem time) .eok

/-- A release that has handed its token over has not returned yet. -/
def Releasing (system : System) (sem : Nat) (context : Context) : Prop :=
  ∃ tickDelta point, system.frames context = some ⟨.semRelease sem, tickDelta, point⟩

/-- A take of the semaphore has returned `RT_EOK`. -/
def Notice.isTaken (sem : Nat) : Notice → Bool
  | .returned _ (.semTake taken _) .eok => taken = sem
  | _ => false

/-- A release of the semaphore has returned `RT_EOK`. -/
def Notice.isReleased (sem : Nat) : Notice → Bool
  | .returned _ (.semRelease released) .eok => released = sem
  | _ => false

section

variable {system next : System} {sem : Nat} {thread : ThreadId}

theorem Granted.frame (granted : Granted system sem thread) : ∃ time tickDelta point,
    system.frames (.thread thread) = some ⟨.semTake sem time, tickDelta, point⟩ ∧
      (point = .suspended ∨ point = .woken) := by
  obtain ⟨time, ⟨tickDelta, point, there, halted⟩, -, -⟩ := granted
  exact ⟨time, tickDelta, point, there, halted⟩

theorem not_granted_idle (idle : system.frames (.thread thread) = none) :
    ¬ Granted system sem thread := by
  intro granted
  obtain ⟨time, tickDelta, point, there, -⟩ := granted.frame
  exact nomatch idle.symm.trans there

theorem not_granted_of_call {frame : Frame} (there : system.frames (.thread thread) = some frame)
    (foreign : frame.call.waitsOn ≠ some (.sem sem)) : ¬ Granted system sem thread := by
  intro granted
  obtain ⟨time, tickDelta, point, there', -⟩ := granted.frame
  obtain rfl := Option.some_inj.mp (there.symm.trans there')
  exact foreign rfl

theorem not_granted_of_stat (stat : (system.kernel.threads thread).stat ≠ .ready) :
    ¬ Granted system sem thread :=
  fun granted => stat granted.choose_spec.ready

theorem not_granted_of_error (error : (system.kernel.threads thread).error ≠ .eok) :
    ¬ Granted system sem thread :=
  fun granted => error granted.choose_spec.error

theorem granted_congr (frames : next.frames (.thread thread) = system.frames (.thread thread))
    (rests : Rests system.kernel next.kernel thread) :
    Granted next sem thread ↔ Granted system sem thread := by
  constructor
  · rintro ⟨time, frame, ready, error⟩
    rw [frames] at frame
    exact ⟨time, frame, rests.stat ▸ ready, rests.error ▸ error⟩
  · rintro ⟨time, frame, ready, error⟩
    rw [← frames] at frame
    exact ⟨time, frame, rests.stat.trans ready, rests.error.trans error⟩

/-- A thread that has been suspended is handed no token unless it was waiting
for one and its error says so. -/
theorem granted_resumes {result : Err} (resumes : Resumes system.kernel next.kernel thread result)
    (denied : ¬ Granted next sem thread) : Granted next sem thread ↔ Granted system sem thread :=
  iff_of_false denied (not_granted_of_stat (by simp [resumes.suspended]))

theorem granted_timesOut (resumes : Resumes system.kernel next.kernel thread .etimeout) :
    Granted next sem thread ↔ Granted system sem thread :=
  granted_resumes resumes (not_granted_of_error (by simp [resumes.error]))

theorem granted_starts (inv : CallsInv system)
    (frames : next.frames (.thread thread) = system.frames (.thread thread))
    (starts : Starts system.kernel next.kernel thread) :
    Granted next sem thread ↔ Granted system sem thread := by
  have idle : system.frames (.thread thread) = none := by
    by_contra busy
    exact inv.begun thread busy starts.init
  exact iff_of_false (not_granted_idle (frames.trans idle)) (not_granted_idle idle)

theorem granted_passes (inv : CallsInv system) {kernel : Kernel}
    (passes : Passes system.kernel kernel) :
    Granted { system with kernel := kernel } sem thread ↔ Granted system sem thread := by
  rcases passes.thread thread with rests | resumes | starts
  · exact granted_congr rfl rests
  · exact granted_timesOut resumes
  · exact granted_starts inv rfl starts

/-- A thread that is resumed from another list is handed no token. -/
theorem granted_elsewhere {list : WaitList} {result : Err} (inv : CallsInv system)
    (frames : next.frames (.thread thread) = system.frames (.thread thread))
    (waited : system.kernel.Waits list thread) (apart : list ≠ .sem sem)
    (resumes : Resumes system.kernel next.kernel thread result) :
    Granted next sem thread ↔ Granted system sem thread := by
  obtain ⟨call, tickDelta, point, there, -, waitsOn, -⟩ := inv.waiting thread list waited
  refine granted_resumes resumes (not_granted_of_call (frames.trans there) ?_)
  intro same
  exact apart (Option.some_inj.mp (waitsOn.symm.trans same))

/-- The thread whose section has ended holds no token that it still has to
return with. -/
theorem not_granted_settle {call : Call} {kernel : Kernel} {outcome : Outcome}
    (effect : SectionEffect call (some thread) system.kernel kernel outcome) :
    ¬ Granted (system.settle (.thread thread) call kernel outcome).1 sem thread := by
  cases outcome with
  | returns result output => exact not_granted_idle (by simp [System.settle])
  | suspends timer =>
      obtain ⟨-, self, same, halted⟩ := effect.suspends timer rfl
      obtain rfl := Option.some_inj.mp same
      refine not_granted_of_stat ?_
      rw [System.settle_kernel]
      simp [halted.stat]
  | reschedules output =>
      intro granted
      obtain ⟨time, tickDelta, point, there, halted⟩ := granted.frame
      simp only [System.settle, System.setFrame_frames_self, Option.some.injEq,
        Frame.mk.injEq] at there
      rcases halted with rfl | rfl <;> cases there.2.2

/-- A section that hands no token to a waiter. -/
theorem granted_section {context : Context} {call : Call} {kernel : Kernel} {outcome : Outcome}
    (inv : CallsInv system) (effect : SectionEffect call context.self system.kernel kernel outcome)
    (denied : system.kernel.Waits (.sem sem) thread → call.wakes (.sem sem) →
      call.verdict = some .error)
    (before : context = .thread thread → ¬ Granted system sem thread) :
    Granted (system.settle context call kernel outcome).1 sem thread ↔
      Granted system sem thread := by
  by_cases own : context = .thread thread
  · subst own
    exact iff_of_false (not_granted_settle effect) (before rfl)
  · have frames := system.settle_frames_other call kernel outcome (Ne.symm own)
    rcases effect.others thread (Context.self_ne own) with rests | ⟨list, wakes, waited, resumes⟩
    · exact granted_congr frames (by rw [System.settle_kernel]; exact rests)
    · have resumes' : Resumes system.kernel (system.settle context call kernel outcome).1.kernel
          thread (call.verdict.getD (system.kernel.threads thread).error) := by
        rw [System.settle_kernel]
        exact resumes
      by_cases here : list = .sem sem
      · subst here
        refine granted_resumes resumes' (not_granted_of_error ?_)
        rw [resumes'.error, denied waited wakes]
        simp
      · exact granted_elsewhere inv frames waited here resumes'

end

/-! ## How a step moves the tokens -/

/-- What a step changes besides the counter: who is handed a token and who takes
it home, which release is under way, and how many calls return `RT_EOK`. -/
structure SemEffect (sem : Nat) (system next : System) (emitted : List Notice)
    (gains loses : Option ThreadId) (begins ends : Option Context) (taken released : Nat) :
    Prop where
  waits : ∀ thread, next.kernel.Waits (.sem sem) thread →
    system.kernel.Waits (.sem sem) thread ∨ (system.kernel.sems sem).value = 0#16
  granted : ∀ thread, Granted next sem thread ↔
    Granted system sem thread ∧ loses ≠ some thread ∨ gains = some thread
  gained : ∀ thread, gains = some thread → ¬ Granted system sem thread
  lost : ∀ thread, loses = some thread → Granted system sem thread
  releasing : ∀ context, Releasing next sem context ↔
    Releasing system sem context ∧ ends ≠ some context ∨ begins = some context
  begun : ∀ context, begins = some context → ¬ Releasing system sem context
  ended : ∀ context, ends = some context → Releasing system sem context
  taken : emitted.countP (Notice.isTaken sem) = taken
  released : emitted.countP (Notice.isReleased sem) = released

inductive SemMove (sem : Nat) (system : System) (action : Action) (next : System)
    (emitted : List Notice) : Prop where
  /-- Nothing happens to the tokens. -/
  | rests (record : next.kernel.sems sem = system.kernel.sems sem)
      (effect : SemEffect sem system next emitted none none none none 0 0)
  /-- A take finds a token. -/
  | takes {context : Context} {time : BitVec 32}
      (shown : emitted = [.returned context (.semTake sem time) .eok])
      (available : (system.kernel.sems sem).value ≠ 0#16)
      (record : next.kernel.sems sem = { system.kernel.sems sem with
        value := (system.kernel.sems sem).value - 1#16 })
      (effect : SemEffect sem system next emitted none none none none 1 0)
  /-- A take that has been handed a token returns. -/
  | collects {thread : ThreadId} {time : BitVec 32}
      (shown : emitted = [.returned (.thread thread) (.semTake sem time) .eok])
      (record : next.kernel.sems sem = system.kernel.sems sem)
      (effect : SemEffect sem system next emitted none (some thread) none none 1 0)
  /-- A release stores its token. -/
  | stores {context : Context} (begins : action = .enter context (.semRelease sem))
      (empty : system.kernel.threadLinks.isEmpty (.wait (.sem sem)) = true)
      (nobody : ∀ thread, ¬ next.kernel.Waits (.sem sem) thread)
      (record : next.kernel.sems sem = { system.kernel.sems sem with
        value := (system.kernel.sems sem).value + 1#16 })
      (effect : SemEffect sem system next emitted none none none none 0 1)
  /-- A release hands its token to the first waiter. -/
  | hands {context : Context} {thread : ThreadId}
      (begins : action = .enter context (.semRelease sem))
      (record : next.kernel.sems sem = system.kernel.sems sem)
      (effect : SemEffect sem system next emitted (some thread) none (some context) none 0 0)
  /-- A release that has handed its token over returns. -/
  | finishes {context : Context} (record : next.kernel.sems sem = system.kernel.sems sem)
      (effect : SemEffect sem system next emitted none none none (some context) 0 1)
  /-- The semaphore is reset. -/
  | resets {context : Context} {arg : BitVec 32}
      (begins : action = .enter context (.semControl sem ipcCmdReset arg))
      (empty : ∀ thread, ¬ next.kernel.Waits (.sem sem) thread)
      (effect : SemEffect sem system next emitted none none none none 0 0)

section

variable {system next : System} {sem : Nat} {action : Action} {emitted : List Notice}

theorem releasing_congr {context : Context} (frames : next.frames context = system.frames context) :
    Releasing next sem context ↔ Releasing system sem context := by
  simp [Releasing, frames]

theorem not_releasing_idle {context : Context} (idle : system.frames context = none) :
    ¬ Releasing system sem context := by
  rintro ⟨tickDelta, point, there⟩
  exact nomatch idle.symm.trans there

theorem not_releasing_of_call {context : Context} {frame : Frame}
    (there : system.frames context = some frame) (foreign : frame.call ≠ .semRelease sem) :
    ¬ Releasing system sem context := by
  rintro ⟨tickDelta, point, there'⟩
  obtain rfl := Option.some_inj.mp (there.symm.trans there')
  exact foreign rfl

/-- A step that hands nothing over and returns no call on the semaphore. -/
theorem SemEffect.of_same
    (waits : ∀ thread, next.kernel.Waits (.sem sem) thread →
      system.kernel.Waits (.sem sem) thread ∨ (system.kernel.sems sem).value = 0#16)
    (granted : ∀ thread, Granted next sem thread ↔ Granted system sem thread)
    (releasing : ∀ context, Releasing next sem context ↔ Releasing system sem context)
    {taken released : Nat} (countTaken : emitted.countP (Notice.isTaken sem) = taken)
    (countReleased : emitted.countP (Notice.isReleased sem) = released) :
    SemEffect sem system next emitted none none none none taken released :=
  ⟨waits, by simp [granted], nofun, nofun, by simp [releasing], nofun, nofun, countTaken,
    countReleased⟩

/-- A call on another object shows nothing of the semaphore. -/
theorem not_isTaken {context : Context} {call : Call} (result : Err)
    (foreign : call.object ≠ some (.sem sem)) :
    Notice.isTaken sem (.returned context call result) = false := by
  cases call <;> try rfl
  rename_i other time
  have apart : other ≠ sem := fun same => foreign (same ▸ rfl)
  cases result <;> simp [Notice.isTaken, apart]

theorem not_isReleased {context : Context} {call : Call} (result : Err)
    (foreign : call.object ≠ some (.sem sem)) :
    Notice.isReleased sem (.returned context call result) = false := by
  cases call <;> try rfl
  rename_i other
  have apart : other ≠ sem := fun same => foreign (same ▸ rfl)
  cases result <;> simp [Notice.isReleased, apart]

theorem releasing_section {context other : Context} {call : Call} {kernel : Kernel}
    {outcome : Outcome} (before : ¬ Releasing system sem context)
    (quiet : call = .semRelease sem → ∃ result output, outcome = .returns result output) :
    Releasing (system.settle context call kernel outcome).1 sem other ↔
      Releasing system sem other := by
  by_cases own : other = context
  · subst own
    refine iff_of_false ?_ before
    rintro ⟨tickDelta, point, there⟩
    cases outcome with
    | returns result output => simp [System.settle] at there
    | suspends timer =>
        simp only [System.settle, System.setFrame_frames_self, Option.some.injEq,
          Frame.mk.injEq] at there
        obtain ⟨result, output, returns⟩ := quiet there.1
        cases returns
    | reschedules output =>
        simp only [System.settle, System.setFrame_frames_self, Option.some.injEq,
          Frame.mk.injEq] at there
        obtain ⟨result, output, returns⟩ := quiet there.1
        cases returns
  · exact releasing_congr (system.settle_frames_other call kernel outcome own)

/-- A section after which nobody new waits for a token that is there. -/
theorem SemEffect.of_section {context : Context} {call : Call} {kernel : Kernel}
    {outcome : Outcome} (inv : CallsInv system)
    (runs : ∀ self, context = .thread self → Runs (some self) system.kernel)
    (effect : SectionEffect call context.self system.kernel kernel outcome)
    (keeps : SectionKeeps system.kernel kernel outcome)
    (before : ∀ thread, context = .thread thread → ¬ Granted system sem thread)
    (before' : ¬ Releasing system sem context)
    (waits : call.waitsOn = some (.sem sem) → (∃ timer, outcome = .suspends timer) →
      (system.kernel.sems sem).value = 0#16)
    (denied : ∀ thread, system.kernel.Waits (.sem sem) thread → call.wakes (.sem sem) →
      call.verdict = some .error)
    (quiet : call = .semRelease sem → ∃ result output, outcome = .returns result output)
    {taken released : Nat}
    (countTaken : (system.settle context call kernel outcome).2.countP (Notice.isTaken sem) = taken)
    (countReleased :
      (system.settle context call kernel outcome).2.countP (Notice.isReleased sem) = released) :
    SemEffect sem system (system.settle context call kernel outcome).1
      (system.settle context call kernel outcome).2 none none none none taken released := by
  refine .of_same ?_ (fun thread => granted_section inv effect (denied thread) (before thread))
    (fun other => releasing_section before' quiet) countTaken countReleased
  intro thread there
  rw [System.settle_kernel] at there
  rcases CallsInv.section_waits runs effect keeps there with old | ⟨waitsOn, suspends⟩
  · exact Or.inl old
  · exact Or.inr (waits waitsOn suspends)

/-- A section of a call on another object. -/
theorem sem_section {context : Context} {call : Call} {kernel : Kernel} {outcome : Outcome}
    (inv : CallsInv system) (runs : ∀ self, context = .thread self → Runs (some self) system.kernel)
    (effect : SectionEffect call context.self system.kernel kernel outcome)
    (keeps : SectionKeeps system.kernel kernel outcome)
    (foreign : call.object ≠ some (.sem sem))
    (before : ∀ thread, context = .thread thread → ¬ Granted system sem thread)
    (before' : ¬ Releasing system sem context) (action : Action) :
    SemMove sem system action (system.settle context call kernel outcome).1
      (system.settle context call kernel outcome).2 := by
  refine .rests (by rw [System.settle_kernel]; exact effect.objects.sems sem foreign)
    (.of_section inv runs effect keeps before before' ?_ ?_ ?_ ?_ ?_)
  · exact fun waitsOn => absurd (Call.object_of_waitsOn waitsOn) foreign
  · exact fun _ _ wakes => absurd (Call.object_of_wakes wakes) foreign
  · rintro rfl
    exact absurd rfl foreign
  · exact system.settle_silent context call kernel outcome (fun _ => rfl) (fun _ => rfl)
      fun result => not_isTaken result foreign
  · exact system.settle_silent context call kernel outcome (fun _ => rfl) (fun _ => rfl)
      fun result => not_isReleased result foreign

/-- The first section of `rt_sem_take`. -/
theorem sem_take {context : Context} {time : BitVec 32} {kernel : Kernel} {outcome : Outcome}
    (inv : CallsInv system) (idle : system.frames context = none)
    (runs : ∀ self, context = .thread self → Runs (some self) system.kernel)
    (allowed : (Call.semTake sem time).allowedIn context = true)
    (enters : (Call.semTake sem time).enter system.kernel = some (kernel, outcome))
    (effect : SectionEffect (.semTake sem time) context.self system.kernel kernel outcome)
    (keeps : SectionKeeps system.kernel kernel outcome) (action : Action) :
    SemMove sem system action (system.settle context (.semTake sem time) kernel outcome).1
      (system.settle context (.semTake sem time) kernel outcome).2 := by
  obtain ⟨home, homes⟩ := inv.threads.homes
  have eligible : time = 0#32 ∨ Runs context.self system.kernel := by
    cases context with
    | thread self => exact Or.inr (runs self rfl)
    | handler index => exact Or.inl (by simpa [Call.allowedIn] using allowed)
  have before : ∀ thread, context = .thread thread → ¬ Granted system sem thread := by
    rintro thread rfl
    exact not_granted_idle idle
  have effects := fun waits taken released countTaken countReleased =>
    @SemEffect.of_section system sem context (.semTake sem time) kernel outcome inv runs effect
      keeps before (not_releasing_idle idle) waits (fun _ _ wakes => wakes.elim)
      (by simp) taken released countTaken countReleased
  rcases rtSemTake_cases homes eligible enters with
    ⟨available, rfl, rfl⟩ | ⟨empty, rfl, rfl⟩ | ⟨empty, ⟨timer, rfl⟩, sems⟩
  · exact .takes rfl available (by simp [System.settle, System.setFrame, Kernel.setSem])
      (effects (by rintro _ ⟨_, ⟨⟩⟩) 1 0 (by simp [System.settle, Notice.isTaken])
        (by simp [System.settle, Notice.isReleased]))
  · exact .rests rfl (effects (fun _ _ => empty) 0 0 (by simp [System.settle, Notice.isTaken])
      (by simp [System.settle, Notice.isReleased]))
  · refine .rests ?_ (effects (fun _ _ => empty) 0 0 ?_ ?_)
    · rw [System.settle_kernel, sems]
    · cases timer <;> rfl
    · cases timer <;> rfl

theorem Call.eq_semTake {call : Call} (waitsOn : call.waitsOn = some (.sem sem)) :
    ∃ time, call = .semTake sem time := by
  cases call with
  | semTake other time =>
      obtain rfl := WaitList.sem.inj (Option.some_inj.mp waitsOn)
      exact ⟨time, rfl⟩
  | _ => cases waitsOn

/-- The first section of `rt_sem_release`. -/
theorem sem_release {context : Context} {kernel : Kernel} {outcome : Outcome}
    (inv : CallsInv system) (idle : system.frames context = none)
    (runs : ∀ self, context = .thread self → Runs (some self) system.kernel)
    (enters : (Call.semRelease sem).enter system.kernel = some (kernel, outcome))
    (effect : SectionEffect (.semRelease sem) context.self system.kernel kernel outcome)
    (keeps : SectionKeeps system.kernel kernel outcome) :
    SemMove sem system (.enter context (.semRelease sem))
      (system.settle context (.semRelease sem) kernel outcome).1
      (system.settle context (.semRelease sem) kernel outcome).2 := by
  obtain ⟨home, homes⟩ := inv.threads.homes
  have before : ∀ thread, context = .thread thread → ¬ Granted system sem thread := by
    rintro thread rfl
    exact not_granted_idle idle
  rcases rtSemRelease_cases homes enters with
    ⟨empty, rfl, rfl⟩ | ⟨thread, first, waits, rfl, rfl⟩
  · have nobody : ∀ other, ¬ system.kernel.Waits (.sem sem) other := by
      intro other there
      exact absurd ((homes.linked_iff (ThreadNode.isHead_wait (.sem sem)) other).mp there)
        ((homes.isEmpty_iff (.sem sem)).mp empty other)
    exact .stores rfl empty nobody (by simp [System.settle, System.setFrame, Kernel.setSem])
      (.of_section inv runs effect keeps before (not_releasing_idle idle) (by simp)
        (fun other there => absurd there (nobody other))
        (fun _ => ⟨_, _, rfl⟩) (by simp [System.settle, Notice.isTaken])
        (by simp [System.settle, Notice.isReleased]))
  · obtain ⟨resumes, rests⟩ := resume_one homes waits
    obtain ⟨call, tickDelta, point, there, halted, waitsOn, error⟩ := inv.waiting thread _ waits
    obtain ⟨time, rfl⟩ := Call.eq_semTake waitsOn
    have apart : Context.thread thread ≠ context := by
      rintro rfl
      cases idle.symm.trans there
    have handed : Granted (system.settle context (.semRelease sem)
        (rtThreadResume system.kernel thread).2 (.reschedules none)).1 sem thread := by
      refine ⟨time, ⟨tickDelta, point, ?_, halted⟩, resumes.ready, resumes.error.trans error⟩
      exact (system.settle_frames_other _ _ _ apart).trans there
    refine @SemMove.hands sem system _ _ _ context thread rfl ?_
      ⟨?_, ?_, ?_, (by simp), ?_, ?_, (by simp), rfl, rfl⟩
    · exact congrFun (congrArg Objects.sems (rtThreadResume_sameRest _ thread).objects) sem
    · intro other there
      by_cases same : other = thread
      · subst same
        exact absurd there (resumes.loose _)
      · exact Or.inl (((rests other same).waits _).mp there)
    · intro other
      by_cases same : other = thread
      · subst same
        simp [handed]
      · have unmoved : Granted (system.settle context (.semRelease sem)
            (rtThreadResume system.kernel thread).2 (.reschedules none)).1 sem other ↔
              Granted system sem other := by
          by_cases own : context = .thread other
          · subst own
            exact iff_of_false (not_granted_settle effect) (before other rfl)
          · exact granted_congr (system.settle_frames_other _ _ _ (Ne.symm own)) (rests other same)
        simp [unmoved, Ne.symm same]
    · rintro other ⟨⟩
      exact not_granted_of_stat (by simp [resumes.suspended])
    · intro other
      by_cases own : other = context
      · subst own
        simp [Releasing, System.settle]
      · rw [releasing_congr (system.settle_frames_other _ _ _ own)]
        simp [Ne.symm own]
    · rintro other ⟨⟩
      exact not_releasing_idle idle

/-- The first section of `rt_sem_control`. -/
theorem sem_control {context : Context} {cmd : BitVec 8} {arg : BitVec 32} {kernel : Kernel}
    {outcome : Outcome} (inv : CallsInv system) (idle : system.frames context = none)
    (runs : ∀ self, context = .thread self → Runs (some self) system.kernel)
    (enters : (Call.semControl sem cmd arg).enter system.kernel = some (kernel, outcome))
    (effect : SectionEffect (.semControl sem cmd arg) context.self system.kernel kernel outcome)
    (keeps : SectionKeeps system.kernel kernel outcome) :
    SemMove sem system (.enter context (.semControl sem cmd arg))
      (system.settle context (.semControl sem cmd arg) kernel outcome).1
      (system.settle context (.semControl sem cmd arg) kernel outcome).2 := by
  obtain ⟨home, homes⟩ := inv.threads.homes
  have before : ∀ thread, context = .thread thread → ¬ Granted system sem thread := by
    rintro thread rfl
    exact not_granted_idle idle
  have effects := @SemEffect.of_section system sem context (.semControl sem cmd arg) kernel
    outcome inv runs effect keeps before (not_releasing_idle idle) nofun (fun _ _ _ => rfl)
    (fun same => nomatch same) 0 0
    (system.settle_silent context _ kernel outcome (fun _ => rfl) (fun _ => rfl)
      fun result => by cases result <;> rfl)
    (system.settle_silent context _ kernel outcome (fun _ => rfl) (fun _ => rfl)
      fun result => by cases result <;> rfl)
  rcases rtSemControl_cases homes enters with ⟨other, rfl, rfl⟩ | ⟨rfl, rfl, record, emptied⟩
  · exact .rests rfl effects
  · exact .resets rfl (fun thread => (emptied thread).1) effects

/-- A step that leaves the kernel's threads and semaphores as they are. -/
theorem SemEffect.of_frame {context : Context} {kernel : Kernel} {frame : Option Frame}
    (waits : ∀ thread, kernel.Waits (.sem sem) thread → system.kernel.Waits (.sem sem) thread)
    (rests : ∀ thread, context ≠ .thread thread → Rests system.kernel kernel thread)
    (granted : ∀ thread, context = .thread thread →
      (Granted (system.setFrame context kernel frame) sem thread ↔ Granted system sem thread))
    (releasing : Releasing (system.setFrame context kernel frame) sem context ↔
      Releasing system sem context) {emitted : List Notice} {taken released : Nat}
    (countTaken : emitted.countP (Notice.isTaken sem) = taken)
    (countReleased : emitted.countP (Notice.isReleased sem) = released) :
    SemEffect sem system (system.setFrame context kernel frame) emitted none none none none
      taken released := by
  refine .of_same (fun thread there => Or.inl (waits thread there)) ?_ ?_ countTaken countReleased
  · intro thread
    by_cases own : context = .thread thread
    · exact granted thread own
    · exact granted_congr (system.setFrame_frames_other kernel frame (Ne.symm own))
        (rests thread own)
  · intro other
    by_cases own : other = context
    · subst own
      exact releasing
    · exact releasing_congr (system.setFrame_frames_other kernel frame own)

theorem isTaken_iff {context : Context} {call : Call} {result : Err} :
    Notice.isTaken sem (.returned context call result) = true ↔
      (∃ time, call = .semTake sem time) ∧ result = .eok := by
  cases call <;> cases result <;> simp [Notice.isTaken, eq_comm]

theorem isReleased_iff {context : Context} {call : Call} {result : Err} :
    Notice.isReleased sem (.returned context call result) = true ↔
      call = .semRelease sem ∧ result = .eok := by
  cases call <;> cases result <;> simp [Notice.isReleased, eq_comm]

theorem countP_returned {shows : Notice → Bool} {notice : Notice} (hidden : ¬ shows notice = true) :
    [notice].countP shows = 0 := by
  simpa [List.countP_cons] using hidden

/-- A call that is going to `rt_schedule` keeps its token. -/
theorem granted_schedule {thread : ThreadId} {frame : Frame} {point : Point}
    (there : system.frames (.thread thread) = some frame)
    (onward : frame.point = .suspended ∧ point = .woken ∨
      frame.point = .reschedule ∧ point = .returning) :
    Granted (system.setFrame (.thread thread) (rtSchedule system.kernel)
        (some { frame with point := point })) sem thread ↔ Granted system sem thread := by
  obtain ⟨call, tickDelta, old⟩ := frame
  have rests := Rests.schedule system.kernel thread
  constructor
  · rintro ⟨time, ⟨started, new, there', halted⟩, ready, error⟩
    simp only [System.setFrame_frames_self, Option.some.injEq, Frame.mk.injEq] at there'
    obtain ⟨rfl, rfl, rfl⟩ := there'
    refine ⟨time, ⟨tickDelta, old, there, ?_⟩, rests.stat ▸ ready, rests.error ▸ error⟩
    rcases onward with ⟨rfl, -⟩ | ⟨-, rfl⟩
    · exact Or.inl rfl
    · rcases halted with absurd | absurd <;> cases absurd
  · rintro ⟨time, ⟨started, new, there', halted⟩, ready, error⟩
    obtain same := Option.some_inj.mp (there.symm.trans there')
    simp only [Frame.mk.injEq] at same
    obtain ⟨rfl, rfl, rfl⟩ := same
    refine ⟨time, ⟨tickDelta, point, by simp, ?_⟩, rests.stat.trans ready,
      rests.error.trans error⟩
    rcases onward with ⟨-, rfl⟩ | ⟨rfl, -⟩
    · exact Or.inr rfl
    · rcases halted with absurd | absurd <;> cases absurd

theorem releasing_setFrame {context : Context} {kernel : Kernel} {frame : Frame} {point : Point}
    (there : system.frames context = some frame) :
    Releasing (system.setFrame context kernel (some { frame with point := point })) sem context ↔
      Releasing system sem context := by
  obtain ⟨call, tickDelta, old⟩ := frame
  simp [Releasing, there]

/-- A call that returns leaves nothing behind. -/
theorem sem_return {context : Context} {kernel : Kernel} {frame : Frame} {result : Err}
    (there : system.frames context = some frame) (objects : kernel.objects = system.kernel.objects)
    (links : kernel.threadLinks = system.kernel.threadLinks)
    (rests : ∀ thread, context ≠ .thread thread → Rests system.kernel kernel thread)
    (granted : ∀ thread, context = .thread thread → ¬ Granted system sem thread)
    (foreign : frame.call ≠ .semRelease sem)
    (denied : ∀ time, frame.call = .semTake sem time → result ≠ .eok) (action : Action) :
    SemMove sem system action (system.setFrame context kernel none)
      [.returned context frame.call result] := by
  refine .rests (congrFun (congrArg Objects.sems objects) sem) (.of_frame ?_ rests ?_ ?_ ?_ ?_)
  · intro thread waits
    rwa [Kernel.Waits, links] at waits
  · rintro thread rfl
    exact iff_of_false (not_granted_idle (by simp)) (granted thread rfl)
  · exact iff_of_false (not_releasing_idle (by simp)) (not_releasing_of_call there foreign)
  · refine countP_returned ?_
    rw [isTaken_iff]
    rintro ⟨⟨time, taken⟩, eok⟩
    exact denied time taken eok
  · refine countP_returned ?_
    rw [isReleased_iff]
    exact fun released => foreign released.1

theorem Call.Loops.object_ne {call : Call} (loops : call.Loops) : call.object ≠ some (.sem sem) := by
  cases call <;> first | exact loops.elim | simp [Call.object]

/-- Every step is one of these. -/
theorem Move.semMove (inv : CallsInv system) (move : Move system action next emitted) (sem : Nat) :
    SemMove sem system action next emitted := by
  cases move with
  | elapse nobody passes =>
      refine .rests (congrFun (congrArg Objects.sems passes.objects) sem)
        (.of_same ?_ (fun thread => granted_passes inv passes) (fun _ => Iff.rfl) rfl rfl)
      intro thread waits
      rcases passes.thread thread with rests | resumes | starts
      · exact Or.inl ((rests.waits _).mp waits)
      · exact absurd waits (resumes.loose _)
      · exact absurd waits (starts.loose _)
  | schedule there onward =>
      refine .rests (congrFun (congrArg Objects.sems (rtSchedule_objects _)) sem)
        (.of_frame ?_ (fun thread _ => .schedule _ thread) ?_ (releasing_setFrame there) rfl rfl)
      · exact fun thread waits => ((Rests.schedule system.kernel thread).waits _).mp waits
      · rintro thread rfl
        exact granted_schedule there onward
  | @finish context frame there passed =>
      have ended : ∀ thread, context = .thread thread → ¬ Granted system sem thread := by
        rintro thread rfl granted
        obtain ⟨time, tickDelta, point, there', halted⟩ := granted.frame
        obtain rfl := Option.some_inj.mp (there.symm.trans there')
        rcases halted with rfl | rfl <;> cases passed
      by_cases releases : frame.call = .semRelease sem
      · have released : Releasing system sem context :=
          ⟨frame.tickDelta, frame.point, by rw [there, ← releases]⟩
        refine @SemMove.finishes sem system _ _ _ context rfl
          ⟨fun thread => Or.inl, ?_, (by simp), (by simp), ?_, (by simp), ?_, ?_, ?_⟩
        · intro thread
          have unmoved : Granted (system.setFrame context system.kernel none) sem thread ↔
              Granted system sem thread := by
            by_cases own : context = .thread thread
            · subst own
              exact iff_of_false (not_granted_idle (by simp)) (ended thread rfl)
            · exact granted_congr (system.setFrame_frames_other _ _ (Ne.symm own)) (.refl _ thread)
          simp [unmoved]
        · intro other
          by_cases own : other = context
          · subst own
            simp [Releasing]
          · rw [releasing_congr (system.setFrame_frames_other _ _ own)]
            simp [Ne.symm own]
        · rintro other ⟨⟩
          exact released
        · simp [releases, Notice.isTaken]
        · simp [releases, Notice.isReleased]
      · refine sem_return there rfl rfl (fun thread _ => .refl _ thread) ended releases ?_ _
        intro time takes
        cases inv.frames context frame there with
        | waits blocks halted => rcases halted with rfl | rfl <;> cases passed
        | again loops => cases passed
        | passes wakes passed' =>
            obtain rfl := takes
            exact wakes.choose_spec.elim
  | @sleepReturn thread frame tick there woken sleeps runs =>
      refine sem_return there (rtThreadSleepReturn_objects _ thread)
        (rtThreadSleepReturn_links _ thread) ?_ ?_ (by simp [sleeps]) (by simp [sleeps]) _
      · intro other apart
        exact .sleepReturn fun same => apart (same ▸ rfl)
      · rintro other ⟨⟩
        exact not_granted_of_call there (by simp [sleeps, Call.waitsOn])
  | @wakeReturn thread frame there woken waited runs ends =>
      by_cases takes : (∃ time, frame.call = .semTake sem time) ∧
          (system.kernel.threads thread).error = .eok
      · obtain ⟨⟨time, take⟩, succeeds⟩ := takes
        obtain ⟨self, same, -, isReady⟩ := runs
        obtain rfl := Option.some_inj.mp same
        have granted : Granted system sem thread :=
          ⟨time, ⟨frame.tickDelta, frame.point, by rw [there, ← take], Or.inr woken⟩, isReady,
            succeeds⟩
        refine @SemMove.collects sem system _ _ _ thread time (by rw [take, succeeds]) rfl
          ⟨fun thread => Or.inl, ?_, (by simp), ?_, ?_, (by simp), (by simp), ?_, ?_⟩
        · intro other
          by_cases own : other = thread
          · subst own
            simp [not_granted_idle]
          · have apart : Context.thread other ≠ .thread thread :=
              fun same => own (Context.thread.inj same)
            rw [granted_congr (system.setFrame_frames_other _ _ apart) (.refl _ other)]
            simp [Ne.symm own]
        · rintro other ⟨⟩
          exact granted
        · intro other
          by_cases own : other = .thread thread
          · subst own
            have absent : ¬ Releasing system sem (.thread thread) :=
              not_releasing_of_call there (by simp [take])
            simp [not_releasing_idle, absent]
          · rw [releasing_congr (system.setFrame_frames_other _ _ own)]
            simp
        · simp [take, succeeds, Notice.isTaken]
        · simp [take, Notice.isReleased]
      · refine sem_return there rfl rfl (fun other _ => .refl _ other) ?_ ?_ ?_ _
        · rintro other ⟨⟩ granted
          obtain ⟨time, tickDelta, point, there', -⟩ := granted.frame
          obtain rfl := Option.some_inj.mp (there.symm.trans there')
          exact takes ⟨⟨time, rfl⟩, granted.choose_spec.error⟩
        · intro releases
          rw [releases] at waited
          exact waited rfl
        · exact fun time take succeeds => takes ⟨⟨time, take⟩, succeeds⟩
  | @wakeAgain thread frame there woken loops runs succeeds =>
      have foreign : frame.call.waitsOn ≠ some (.sem sem) :=
        fun waitsOn => loops.object_ne (Call.object_of_waitsOn waitsOn)
      refine .rests rfl (.of_frame (fun _ waits => waits) (fun other _ => .refl _ other) ?_
        (releasing_setFrame there) rfl rfl)
      rintro other ⟨⟩
      have there' : (system.setFrame (.thread thread) system.kernel
        (some { frame with point := .again })).frames (.thread thread) =
          some { frame with point := .again } := by simp
      exact iff_of_false (not_granted_of_call there' foreign) (not_granted_of_call there foreign)
  | @enter context call kernel outcome idle running runs allowed enters effect keeps =>
      by_cases here : call.object = some (.sem sem)
      · cases call <;> try cases here
        · exact sem_take inv idle runs allowed enters effect keeps _
        · exact sem_release inv idle runs enters effect keeps
        · exact sem_control inv idle runs enters effect keeps
      · refine sem_section inv runs effect keeps here ?_ (not_releasing_idle idle) _
        rintro thread rfl
        exact not_granted_idle idle
  | @again thread call tickDelta kernel outcome there runs goes effect keeps =>
      have loops : call.Loops := by
        cases inv.frames _ _ there with
        | waits blocks halted => rcases halted with absurd | absurd <;> cases absurd
        | again loops => exact loops
        | passes wakes passed => rcases passed with absurd | absurd <;> cases absurd
      have foreign : call.object ≠ some (.sem sem) := loops.object_ne
      have runs' : ∀ self, Context.thread thread = .thread self →
          Runs (some self) system.kernel := by
        rintro self ⟨⟩
        exact runs
      refine @sem_section system sem (.thread thread) _ kernel outcome inv runs' effect keeps
        (by rwa [Call.reduce_object]) ?_ ?_ _
      · rintro other ⟨⟩
        exact not_granted_of_call there fun waitsOn => foreign (Call.object_of_waitsOn waitsOn)
      · refine not_releasing_of_call there ?_
        rintro rfl
        exact loops.elim

end

end RtThread
