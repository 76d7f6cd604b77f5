import RtThread.Kernel.SemMoves

/-!
# Runs of semaphores

A release with waiters hands its token to the first of them, who keeps it
whatever happens before it runs. Tokens are conserved as long as the 16-bit
counter does not wrap around.
-/

namespace RtThread

open RtThread.Std

/-! ## Hand-off -/

/-- What is true of a semaphore whenever it is looked at. -/
structure SemHandsOff (system : System) (sem : Nat) : Prop where
  /-- Nobody waits for a token that is there. -/
  empty : (system.kernel.sems sem).value ≠ 0#16 →
    system.kernel.threadLinks.isEmpty (.wait (.sem sem)) = true
  /-- A release resumes the first waiter and nobody else, and leaves the counter
  alone; the take of that waiter returns `RT_EOK`, whoever runs before it. -/
  hands : ∀ context, context.Running system.kernel → system.frames context = none →
    system.kernel.threadLinks.isEmpty (.wait (.sem sem)) = false →
    ∃ next emitted thread time,
      systemMachine.step system (.enter context (.semRelease sem)) = some (next, emitted) ∧
      threadEntry (system.kernel.threadLinks.next (.wait (.sem sem))) = .thread thread ∧
      next.kernel.sems sem = system.kernel.sems sem ∧
      Resumes system.kernel next.kernel thread .eok ∧
      (∀ other, other ≠ thread → Rests system.kernel next.kernel other) ∧
      ∀ actions notices final,
        systemMachine.Run (fun _ => NoResume) next actions notices final →
          Returns final notices thread (.semTake sem time) .eok
  /-- The counter changes only in a take that returns `RT_EOK` at once, in a
  release and in a reset. -/
  spends : ∀ action next emitted, NoResume action →
    systemMachine.step system action = some (next, emitted) →
    next.kernel.sems sem = system.kernel.sems sem ∨
      (∃ context time, emitted = [.returned context (.semTake sem time) .eok]) ∨
      (∃ context, action = .enter context (.semRelease sem)) ∨
      ∃ context arg, action = .enter context (.semControl sem ipcCmdReset arg)
  /-- A take that returns an error takes no token, neither from the counter nor
  from a thread that has been handed one. -/
  fails : ∀ action next emitted context time result, NoResume action →
    systemMachine.step system action = some (next, emitted) →
    .returned context (.semTake sem time) result ∈ emitted → result ≠ .eok →
    next.kernel.sems sem = system.kernel.sems sem ∧
      ∀ thread, Granted next sem thread ↔ Granted system sem thread
  /-- A reset makes the take of every waiter return `-RT_ERROR`. -/
  resets : ∀ context arg, context.Running system.kernel → system.frames context = none →
    ∃ next emitted,
      systemMachine.step system (.enter context (.semControl sem ipcCmdReset arg)) =
        some (next, emitted) ∧
      ∀ thread, system.kernel.Waits (.sem sem) thread → ∃ time,
        Resumes system.kernel next.kernel thread .error ∧
        ∀ actions notices final,
          systemMachine.Run (fun _ => NoResume) next actions notices final →
            Returns final notices thread (.semTake sem time) .error
  /-- A thread whose take is settled returns once it has run. -/
  returns : ∀ thread time result, Owes system thread (.semTake sem time) result →
    (Context.thread thread).Running system.kernel →
    ∃ next emitted, systemMachine.step system (.advance (.thread thread)) = some (next, emitted) ∧
      (emitted = [.returned (.thread thread) (.semTake sem time) result] ∨
        (∃ tickDelta, next.frames (.thread thread) =
          some ⟨.semTake sem time, tickDelta, .woken⟩) ∧
          Owes next thread (.semTake sem time) result)

/-- Nobody waits for a token that is there. -/
def NobodyWaits (system : System) (sem : Nat) : Prop :=
  (system.kernel.sems sem).value ≠ 0#16 → ∀ thread, ¬ system.kernel.Waits (.sem sem) thread

theorem SemMove.nobodyWaits {system next : System} {sem : Nat} {action : Action}
    {emitted : List Notice} (nobody : NobodyWaits system sem)
    (move : SemMove sem system action next emitted) : NobodyWaits next sem := by
  have kept : ∀ {gains loses begins ends taken released},
      SemEffect sem system next emitted gains loses begins ends taken released →
        next.kernel.sems sem = system.kernel.sems sem → NobodyWaits next sem := by
    intro gains loses begins ends taken released effect record available thread waits
    rw [record] at available
    rcases effect.waits thread waits with old | empty
    · exact nobody available thread old
    · exact available empty
  cases move with
  | rests record effect => exact kept effect record
  | takes shown available record effect =>
      intro _ thread waits
      rcases effect.waits thread waits with old | empty
      · exact nobody available thread old
      · exact available empty
  | collects shown record effect => exact kept effect record
  | stores begins empty nobody record effect => exact fun _ => nobody
  | hands begins record effect => exact kept effect record
  | finishes record effect => exact kept effect record
  | resets begins empty effect => exact fun _ => empty

theorem nobodyWaits_run {config : Config} {actions : List Action} {notices : List Notice}
    {system : System}
    (run : systemMachine.Run (fun _ => NoResume) (System.boot config) actions notices system)
    (sem : Nat) : NobodyWaits system sem := by
  exact (@Unlocked.run (fun _ => NoResume) (fun _ system => NobodyWaits system sem)
    _ _ _ _ run (fun _ _ without => without) (.initial config)
    (fun _ thread => not_waits_boot config (.sem sem) thread)
    fun _ _ _ _ _ before _ nobody _ move => (move.semMove before.calls sem).nobodyWaits nobody).2

/-- A waiter that a call has resumed returns `thread->error` from its take. -/
theorem CallsInv.owes_resumed {system : System} {sem : Nat} {thread : ThreadId}
    {context : Context} {call : Call} {kernel : Kernel} {outcome : Outcome} {result : Err}
    (inv : CallsInv system) (waits : system.kernel.Waits (.sem sem) thread)
    (idle : system.frames context = none)
    (resumes : Resumes system.kernel kernel thread result) :
    ∃ time, Owes (system.settle context call kernel outcome).1 thread (.semTake sem time)
      result := by
  obtain ⟨call, tickDelta, point, there, halted, waitsOn, -⟩ := inv.waiting thread _ waits
  obtain ⟨time, rfl⟩ := Call.eq_semTake waitsOn
  have apart : Context.thread thread ≠ context := by
    rintro rfl
    exact nomatch idle.symm.trans there
  refine ⟨time, ⟨tickDelta, point, ?_, halted⟩, ?_, ?_⟩
  · exact (system.settle_frames_other _ _ _ apart).trans there
  · rw [System.settle_kernel]
    exact resumes.ready
  · rw [System.settle_kernel]
    exact resumes.error

/-- An error is returned by a take that does not touch a token. -/
theorem SemMove.fails {system next : System} {sem : Nat} {action : Action}
    {emitted : List Notice} (move : SemMove sem system action next emitted) {context : Context}
    {time : BitVec 32} {result : Err}
    (returned : .returned context (.semTake sem time) result ∈ emitted) (failed : result ≠ .eok)
    (within : ∀ other, action ≠ .enter other (.semRelease sem))
    (within' : ∀ other arg, action ≠ .enter other (.semControl sem ipcCmdReset arg)) :
    next.kernel.sems sem = system.kernel.sems sem ∧
      ∀ thread, Granted next sem thread ↔ Granted system sem thread := by
  cases move with
  | rests record effect => exact ⟨record, fun thread => by simp [effect.granted]⟩
  | takes shown available record effect =>
      rw [shown] at returned
      simp only [List.mem_singleton, Notice.returned.injEq] at returned
      exact absurd returned.2.2 failed
  | collects shown record effect =>
      rw [shown] at returned
      simp only [List.mem_singleton, Notice.returned.injEq] at returned
      exact absurd returned.2.2 failed
  | stores begins empty nobody record effect => exact absurd begins (within _)
  | hands begins record effect => exact absurd begins (within _)
  | finishes record effect => exact ⟨record, fun thread => by simp [effect.granted]⟩
  | resets begins empty effect => exact absurd begins (within' _ _)

theorem sem_hands_off {config : Config} {actions : List Action} {notices : List Notice}
    {system : System}
    (run : systemMachine.Run (fun _ => NoResume) (System.boot config) actions notices system)
    (sem : Nat) : SemHandsOff system sem := by
  have unlocked := Unlocked.of_run run fun _ _ without => without
  obtain ⟨home, homes⟩ := unlocked.calls.threads.homes
  refine ⟨?_, ?_, ?_, ?_, ?_, fun _ _ _ owes running => owes.advances (by rintro ⟨⟩) id running⟩
  · intro available
    rw [homes.isEmpty_iff]
    intro thread there
    exact nobodyWaits_run run sem available thread
      ((homes.linked_iff (ThreadNode.isHead_wait (.sem sem)) thread).mpr there)
  · intro context running idle occupied
    have without : NoResume (.enter context (.semRelease sem)) := trivial
    have allowed : (Call.semRelease sem).allowedIn context = true := by cases context <;> rfl
    obtain ⟨kernel, outcome, enters⟩ :
        ∃ kernel outcome, rtSemRelease system.kernel sem = some (kernel, outcome) := by
      obtain ⟨thread, entry, -⟩ := homes.first_waiting occupied
      simp [rtSemRelease, occupied, rtIpcListResume, entry]
    have step := System.enter_of_section without running allowed idle enters
    rcases rtSemRelease_cases homes enters with
      ⟨empty, -, -⟩ | ⟨thread, first, waits, rfl, rfl⟩
    · cases occupied.symm.trans empty
    obtain ⟨resumes, rests⟩ := resume_one homes waits
    have settled : (system.kernel.threads thread).error = .eok :=
      (unlocked.calls.waiting thread _ waits).choose_spec.choose_spec.choose_spec.2.2.2
    rw [settled] at resumes
    obtain ⟨time, owes⟩ := @CallsInv.owes_resumed system sem thread context (.semRelease sem) _
      (.reschedules none) .eok unlocked.calls waits idle resumes
    refine ⟨_, _, thread, time, step, first, ?_, resumes, rests, ?_⟩
    · exact congrFun (congrArg Objects.sems (rtThreadResume_sameRest _ thread).objects) sem
    · intro actions notices final onward
      exact owes.run (by rintro ⟨⟩) id (unlocked.step without step) onward fun _ _ without => without
  · intro action next emitted without step
    cases (unlocked.calls.move without step).semMove unlocked.calls sem with
    | rests record effect => exact Or.inl record
    | takes shown available record effect => exact Or.inr (Or.inl ⟨_, _, shown⟩)
    | collects shown record effect => exact Or.inl record
    | stores begins empty nobody record effect => exact Or.inr (Or.inr (Or.inl ⟨_, begins⟩))
    | hands begins record effect => exact Or.inl record
    | finishes record effect => exact Or.inl record
    | resets begins empty effect => exact Or.inr (Or.inr (Or.inr ⟨_, _, begins⟩))
  · intro action next emitted context time result without step returned failed
    refine ((unlocked.calls.move without step).semMove unlocked.calls sem).fails returned failed
      ?_ ?_
    · rintro other rfl
      cases System.enter_returned without step returned
    · rintro other arg rfl
      cases System.enter_returned without step returned
  · intro context arg running idle
    have without : NoResume (.enter context (.semControl sem ipcCmdReset arg)) := trivial
    have allowed : (Call.semControl sem ipcCmdReset arg).allowedIn context = true := by
      cases context <;> rfl
    obtain ⟨kernel, outcome, enters⟩ : ∃ kernel outcome,
        rtSemControl system.kernel sem ipcCmdReset arg = some (kernel, outcome) := by
      obtain ⟨queue, queued⟩ := homes.queued (.sem sem)
      simp [rtSemControl, rtIpcListResumeAll_eq ⟨home, homes⟩ queued]
    have step := System.enter_of_section without running allowed idle enters
    rcases rtSemControl_cases homes enters with ⟨other, -, -⟩ | ⟨-, rfl, record, emptied⟩
    · exact absurd rfl other
    refine ⟨_, _, step, ?_⟩
    intro thread waits
    have resumes := (emptied thread).2 waits
    obtain ⟨time, owes⟩ := @CallsInv.owes_resumed system sem thread context
      (.semControl sem ipcCmdReset arg) _ (.reschedules none) .error unlocked.calls waits idle
      resumes
    refine ⟨time, resumes, ?_⟩
    intro actions notices final onward
    exact owes.run (by rintro ⟨⟩) id (unlocked.step without step) onward fun _ _ without => without

/-- Thread 0 waits for a token that thread 1 hands over. -/
theorem sem_hands_off_two_threads :
    ∃ system notices, systemMachine.execute (System.boot twoThreads)
        [.threadStartup 0, .threadStartup 1, .schedulerStart,
          .enter (.thread 0) (.semTake 0 0xffffffff), .advance (.thread 0)] =
          some (system, notices) ∧
      (system.kernel.threadLinks.isEmpty (.wait (.sem 0)) = false ∧
        system.kernel.rtCurrentThread = .thread 1 ∧ system.frames (.thread 1) = none) ∧
      SemHandsOff system 0 := by
  have final : (systemMachine.execute (System.boot twoThreads)
      [.threadStartup 0, .threadStartup 1, .schedulerStart,
        .enter (.thread 0) (.semTake 0 0xffffffff), .advance (.thread 0)]).map
      (fun (system, _) => (system.kernel.threadLinks.isEmpty (.wait (.sem 0)),
        system.kernel.rtCurrentThread, system.frames (.thread 1))) =
        some (false, .thread 1, none) := by
    decide +kernel
  obtain ⟨⟨system, notices⟩, success, values⟩ := Option.map_eq_some_iff.mp final
  simp only [Prod.mk.injEq] at values
  exact ⟨system, notices, success, values, sem_hands_off
    (Machine.run_of_execute (by simp [NoResume]) success) 0⟩

/-! ## Conservation -/

/-- Every token that was there at first or has been released has been taken or
is in the counter. A release and a take count from the moment at which the token
is handed over, so those that have not returned yet count too. -/
def TokensConserved (initial : Nat) (notices : List Notice) (system : System) (sem : Nat) : Prop :=
  ∃ (granted : Finset ThreadId) (releasing : Finset Context),
    (∀ thread, thread ∈ granted ↔ Granted system sem thread) ∧
    (∀ context, context ∈ releasing ↔ Releasing system sem context) ∧
    initial + (notices.countP (Notice.isReleased sem) + releasing.card) =
      notices.countP (Notice.isTaken sem) + granted.card + (system.kernel.sems sem).value.toNat

/-- A step whose effects are known keeps the balance if the counter moves with
them. -/
theorem TokensConserved.of_effect {initial : Nat} {notices emitted : List Notice}
    {system next : System} {sem : Nat} {gains loses : Option ThreadId}
    {begins ends : Option Context} {taken released : Nat}
    (conserved : TokensConserved initial notices system sem)
    (effect : SemEffect sem system next emitted gains loses begins ends taken released)
    (apart : gains = none ∨ loses = none) (apart' : begins = none ∨ ends = none)
    (balance : released + begins.toList.length + loses.toList.length +
        (system.kernel.sems sem).value.toNat =
      taken + gains.toList.length + ends.toList.length + (next.kernel.sems sem).value.toNat) :
    TokensConserved initial (notices ++ emitted) next sem := by
  obtain ⟨granted, releasing, isGranted, isReleasing, total⟩ := conserved
  obtain ⟨granted', isGranted', cardGranted⟩ := @card_exchange _ _ granted gains loses
    (fun thread gained => (isGranted thread).not.mpr (effect.gained thread gained))
    (fun thread lost => (isGranted thread).mpr (effect.lost thread lost)) apart
  obtain ⟨releasing', isReleasing', cardReleasing⟩ := @card_exchange _ _ releasing begins ends
    (fun context begun => (isReleasing context).not.mpr (effect.begun context begun))
    (fun context ended => (isReleasing context).mpr (effect.ended context ended)) apart'
  refine ⟨granted', releasing', ?_, ?_, ?_⟩
  · intro thread
    rw [isGranted', isGranted, effect.granted]
  · intro context
    rw [isReleasing', isReleasing, effect.releasing]
  · rw [List.countP_append, List.countP_append, effect.taken, effect.released]
    omega

/-- Nobody resets the semaphore, and no release finds a full counter and nobody
who waits. -/
def KeepsCount (sem : Nat) (system : System) : Action → Prop
  | .enter _ (.semRelease released) => released = sem →
      (system.kernel.sems sem).value.toNat < 65535 ∨
        system.kernel.threadLinks.isEmpty (.wait (.sem sem)) = false
  | .enter _ (.semControl controlled cmd _) => controlled = sem → cmd ≠ ipcCmdReset
  | .enter _ (.threadResume _) => False
  | _ => True

instance (sem : Nat) (system : System) : (action : Action) → Decidable (KeepsCount sem system action)
  | .enter _ (.semRelease released) => inferInstanceAs (Decidable (released = sem →
      (system.kernel.sems sem).value.toNat < 65535 ∨
        system.kernel.threadLinks.isEmpty (.wait (.sem sem)) = false))
  | .enter _ (.semControl controlled cmd _) =>
    inferInstanceAs (Decidable (controlled = sem → cmd ≠ ipcCmdReset))
  | .enter _ (.threadResume _) => inferInstanceAs (Decidable False)
  | .enter _ (.semTake _ _) | .enter _ (.mutexTake _ _) | .enter _ (.mutexRelease _)
  | .enter _ (.eventSend _ _) | .enter _ (.eventRecv _ _ _ _) | .enter _ (.eventControl _ _)
  | .enter _ (.mbSendWait _ _ _) | .enter _ (.mbRecv _ _) | .enter _ (.mbControl _ _)
  | .enter _ (.threadSleep _) | .schedulerStart | .threadStartup _ | .tickIncrease
  | .advance _ => inferInstanceAs (Decidable True)

theorem KeepsCount.noResume {sem : Nat} {system : System} {action : Action}
    (keeps : KeepsCount sem system action) : NoResume action := by
  cases action with
  | enter context call => cases call <;> trivial
  | _ => trivial

theorem TokensConserved.step {initial sem : Nat} {notices emitted : List Notice}
    {system next : System} {action : Action}
    (conserved : TokensConserved initial notices system sem)
    (keeps : KeepsCount sem system action) (move : SemMove sem system action next emitted) :
    TokensConserved initial (notices ++ emitted) next sem := by
  cases move with
  | rests record effect =>
      exact conserved.of_effect effect (Or.inl rfl) (Or.inl rfl) (by simp [record])
  | takes shown available record effect =>
      refine conserved.of_effect effect (Or.inl rfl) (Or.inl rfl) ?_
      simp only [record, Option.toList_none, List.length_nil]
      bv_omega
  | collects shown record effect =>
      exact conserved.of_effect effect (Or.inl rfl) (Or.inl rfl) (by simp [record])
  | stores begins empty nobody record effect =>
      subst begins
      refine conserved.of_effect effect (Or.inl rfl) (Or.inl rfl) ?_
      have room := (keeps rfl).resolve_right (by simp [empty])
      simp only [record, Option.toList_none, List.length_nil]
      bv_omega
  | hands begins record effect =>
      refine conserved.of_effect effect (Or.inr rfl) (Or.inr rfl) ?_
      simp [record]
  | finishes record effect =>
      refine conserved.of_effect effect (Or.inl rfl) (Or.inl rfl) ?_
      simp [record]
  | resets begins empty effect =>
      subst begins
      exact absurd rfl (keeps rfl)

/-- Outside every call the tokens are those that have been returned with. -/
theorem TokensConserved.of_idle {initial sem : Nat} {notices : List Notice} {system : System}
    (conserved : TokensConserved initial notices system sem)
    (idle : ∀ context, system.frames context = none) :
    initial + notices.countP (Notice.isReleased sem) =
      notices.countP (Notice.isTaken sem) + (system.kernel.sems sem).value.toNat := by
  obtain ⟨granted, releasing, isGranted, isReleasing, total⟩ := conserved
  have noneGranted : granted = ∅ := Finset.eq_empty_of_forall_notMem fun thread member =>
    not_granted_idle (idle _) ((isGranted thread).mp member)
  have noneReleasing : releasing = ∅ := Finset.eq_empty_of_forall_notMem fun context member =>
    not_releasing_idle (idle context) ((isReleasing context).mp member)
  simpa [noneGranted, noneReleasing] using total

/-- Before the first call all tokens are in the counter, which keeps 16 bits of
the initial value. -/
theorem tokensConserved_boot_iff (config : Config) (sem : Nat) :
    TokensConserved (config.semValue sem).toNat [] (System.boot config) sem ↔
      (config.semValue sem).toNat < 65536 := by
  have value : ((System.boot config).kernel.sems sem).value.toNat =
      (config.semValue sem).toNat % 65536 := BitVec.toNat_setWidth ..
  constructor
  · intro conserved
    have total := conserved.of_idle fun _ => rfl
    rw [value] at total
    simp at total
    omega
  · intro fits
    refine ⟨∅, ∅, ?_, ?_, ?_⟩
    · exact fun thread => iff_of_false (by simp) (not_granted_idle rfl)
    · exact fun context => iff_of_false (by simp) (not_releasing_idle rfl)
    · rw [value]
      simp
      omega

/-- Tokens are conserved in every run in which the initial value fits into the
counter and no release finds it full. -/
theorem tokens_conserved {config : Config} {actions : List Action} {notices : List Notice}
    {system : System} {sem : Nat} (fits : (config.semValue sem).toNat < 65536)
    (run : systemMachine.Run (KeepsCount sem) (System.boot config) actions notices system) :
    TokensConserved (config.semValue sem).toNat notices system sem :=
  (@Unlocked.run (KeepsCount sem)
    (fun shown system => TokensConserved (config.semValue sem).toNat shown system sem)
    _ _ _ _ run (fun _ _ keeps => keeps.noResume) (.initial config)
    ((tokensConserved_boot_iff config sem).mpr fits)
    fun _ _ _ _ _ before _ conserved keeps move =>
      conserved.step keeps (move.semMove before.calls sem)).2

/-- A configuration in which every semaphore is initialised with the value. -/
def startingWith (value : BitVec 32) : Config :=
  { twoThreads with semValue := fun _ => value }

/-- Thread 0 takes the only token, waits for another and is handed one. -/
theorem tokens_conserved_hand_off :
    ∃ system notices, systemMachine.execute (System.boot (startingWith 1))
        [.threadStartup 0, .threadStartup 1, .schedulerStart, .enter (.thread 0) (.semTake 0 0),
          .enter (.thread 0) (.semTake 0 0xffffffff), .advance (.thread 0),
          .enter (.handler 0) (.semRelease 0)] = some (system, notices) ∧
      TokensConserved 1 notices system 0 := by
  have final : ((systemMachine.restrict (KeepsCount 0)).execute (System.boot (startingWith 1))
      [.threadStartup 0, .threadStartup 1, .schedulerStart, .enter (.thread 0) (.semTake 0 0),
        .enter (.thread 0) (.semTake 0 0xffffffff), .advance (.thread 0),
        .enter (.handler 0) (.semRelease 0)]).isSome := by
    decide +kernel
  obtain ⟨⟨system, notices⟩, success⟩ := Option.isSome_iff_exists.mp final
  exact ⟨system, notices, Machine.execute_of_restrict success,
    @tokens_conserved (startingWith 1) _ _ _ 0 (by decide) (Machine.run_of_execute_restrict success)⟩

/-- A release that finds a full counter returns `RT_EOK` and leaves no token
behind, and a semaphore that is initialised with 65536 tokens has none. -/
theorem tokens_lost :
    (∃ system, systemMachine.execute (System.boot (startingWith 65535))
        [.enter (.handler 0) (.semRelease 0)] =
          some (system, [.returned (.handler 0) (.semRelease 0) .eok]) ∧
      (system.kernel.sems 0).value = 0 ∧
      ¬ TokensConserved 65535 [.returned (.handler 0) (.semRelease 0) .eok] system 0) ∧
    ((System.boot (startingWith 65536)).kernel.sems 0).value = 0 ∧
      ¬ TokensConserved 65536 [] (System.boot (startingWith 65536)) 0 := by
  refine ⟨?_, rfl, ?_⟩
  · let after : System := (System.boot (startingWith 65535)).setFrame (.handler 0)
      ((startingWith 65535).kernel.setSem 0 ⟨.fifo, 0⟩) none
    refine ⟨after, rfl, rfl, ?_⟩
    intro conserved
    have idle : ∀ context, after.frames context = none := by
      intro context
      by_cases own : context = .handler 0
      · subst own
        exact System.setFrame_frames_self ..
      · exact System.setFrame_frames_other _ _ _ own
    exact absurd (conserved.of_idle idle) (by decide)
  · exact (tokensConserved_boot_iff (startingWith 65536) 0).not.mpr (by decide)

end RtThread
