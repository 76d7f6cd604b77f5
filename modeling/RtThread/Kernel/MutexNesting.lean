import RtThread.Kernel.MutexMoves

/-!
# Nested takes

A thread takes a free mutex several times and then releases it, while other threads take
and release it too. `hold` counts in 8 bits, so it comes to zero whenever as many takes
are left as a multiple of 256, and then the mutex is handed on.
-/

namespace RtThread

open RtThread.Std

/-! ## One step of one mutex -/

/-- What a step does to the record of a mutex. -/
inductive MutexMove (mutex : Nat) (system : System) (action : Action) (next : System) : Prop where
  | rests
      (foreign : ∀ thread,
        (∀ time, action ≠ .enter (.thread thread) (.mutexTake mutex time)) ∧
          action ≠ .enter (.thread thread) (.mutexRelease mutex))
      (record : next.kernel.mutexes mutex = system.kernel.mutexes mutex)
  | take {thread : ThreadId} {time : BitVec 32} {home home' : ThreadId → Option ThreadNode}
      {kernel : Kernel} {outcome : Outcome}
      (begins : action = .enter (.thread thread) (.mutexTake mutex time))
      (move : TakeMove thread mutex time (view system.kernel home) (view kernel home') outcome)
      (settles : next = (system.settle (.thread thread) (.mutexTake mutex time) kernel outcome).1)
  | release {thread : ThreadId} {home home' : ThreadId → Option ThreadNode} {kernel : Kernel}
      {outcome : Outcome} (begins : action = .enter (.thread thread) (.mutexRelease mutex))
      (homes : WaitInv system.kernel home)
      (move : ReleaseMove thread mutex (frontWaiter system.kernel mutex) (view system.kernel home)
        (view kernel home') outcome)
      (settles : next = (system.settle (.thread thread) (.mutexRelease mutex) kernel outcome).1)

section

variable {system next : System} {mutex : Nat} {action : Action} {emitted : List Notice}

theorem Move.mutexMove (inv : CallsInv system) (move : Move system action next emitted)
    (mutex : Nat) : MutexMove mutex system action next := by
  by_cases silent : action.section system = none
  · refine .rests (fun thread => ⟨?_, ?_⟩)
      (congrFun (congrArg Objects.mutexes (move.objects_of_silent silent)) mutex)
    · rintro time rfl
      cases silent
    · rintro rfl
      cases silent
  cases move with
  | @enter context call kernel outcome idle running runs allowed enters effect keeps =>
      obtain ⟨home, homes⟩ := inv.threads.homes
      by_cases here : call.object = some (.mutex mutex)
      · cases call <;> simp only [Call.object, Option.some.injEq, IpcObject.mutex.injEq,
          reduceCtorEq] at here
        case mutexTake index time =>
          subst here
          cases context with
          | handler number => cases allowed
          | thread self =>
              obtain ⟨other, same, current, isReady⟩ := runs self rfl
              obtain rfl := Option.some_inj.mp same
              obtain ⟨home', -, move⟩ := rtMutexTake_refines homes current isReady enters
              exact .take rfl move rfl
        case mutexRelease index =>
          subst here
          cases context with
          | handler number => cases allowed
          | thread self =>
              obtain ⟨other, same, current, isReady⟩ := runs self rfl
              obtain rfl := Option.some_inj.mp same
              obtain ⟨home', -, move⟩ := rtMutexRelease_refines homes current enters
              exact .release rfl homes move rfl
      · refine .rests (fun thread => ⟨?_, ?_⟩) ?_
        · rintro time ⟨⟩
          exact here rfl
        · rintro ⟨⟩
          exact here rfl
        · rw [System.settle_kernel]
          exact effect.objects.mutexes mutex here
  | @again thread call tickDelta kernel outcome there runs goes effect keeps =>
      have foreign := @Call.again_foreign mutex call kernel outcome thread tickDelta _ goes
      refine .rests (fun other => ⟨by rintro time ⟨⟩, by rintro ⟨⟩⟩) ?_
      rw [System.settle_kernel]
      exact effect.objects.mutexes mutex (by rwa [Call.reduce_object])
  | elapse nobody passes => exact absurd (Action.section_of_nobody nobody) silent
  | @schedule context frame point there onward =>
      rcases onward with ⟨point, -⟩ | ⟨point, -⟩ <;> simp [Action.section, there, point] at silent
  | finish there passed => simp [Action.section, there, passed] at silent
  | sleepReturn there woken sleeps runs => simp [Action.section, there, woken] at silent
  | wakeReturn there woken waited runs ends => simp [Action.section, there, woken] at silent
  | wakeAgain there woken loops runs succeeds => simp [Action.section, there, woken] at silent

/-- A thread that does not wait for a mutex waits for it after it has begun a take. -/
theorem Move.not_waits {thread : ThreadId} (inv : CallsInv system)
    (move : Move system action next emitted)
    (before : ¬ system.kernel.Waits (.mutex mutex) thread)
    (returns : ∀ time kernel outcome timer,
      action = .enter (.thread thread) (.mutexTake mutex time) →
        system.kernel.rtCurrentThread = .thread thread →
        rtMutexTake system.kernel mutex time = some (kernel, outcome) → outcome ≠ .suspends timer) :
    ¬ next.kernel.Waits (.mutex mutex) thread := by
  intro waits
  by_cases own : action.context = some (.thread thread)
  · by_cases silent : action.section system = none
    · obtain ⟨loses, effect, -⟩ := move.listEffect_of_silent inv silent
      exact (effect.waits thread waits).elim before id
    cases move with
    | @enter context call kernel outcome idle running runs allowed enters effect keeps =>
        obtain rfl : context = .thread thread := Option.some_inj.mp own
        rw [System.settle_kernel] at waits
        rcases CallsInv.section_waits runs effect keeps waits with old | ⟨waitsOn, timer, suspends⟩
        · exact before old
        · cases call <;> simp only [Call.waitsOn, Option.some.injEq, WaitList.mutex.injEq,
            reduceCtorEq] at waitsOn
          case mutexTake index time =>
            subst waitsOn
            exact returns time kernel outcome timer rfl running enters suspends
    | @again self call tickDelta kernel outcome there runs goes effect keeps =>
        have foreign := @Call.again_foreign mutex call kernel outcome self tickDelta _ goes
        rw [System.settle_kernel] at waits
        have runs' : ∀ other, Context.thread self = .thread other →
            Runs (some other) system.kernel := by
          rintro other ⟨⟩
          exact runs
        rcases @CallsInv.section_waits system (.thread self) _ kernel outcome (.mutex mutex) thread
          runs' effect keeps waits with old | ⟨waitsOn, -⟩
        · exact before old
        · rw [Call.reduce_waitsOn] at waitsOn
          exact foreign (Call.object_of_waitsOn waitsOn)
    | elapse nobody passes => exact absurd (Action.section_of_nobody nobody) silent
    | @schedule context frame point there onward =>
        rcases onward with ⟨point, -⟩ | ⟨point, -⟩ <;> simp [Action.section, there, point] at silent
    | finish there passed => simp [Action.section, there, passed] at silent
    | sleepReturn there woken sleeps runs => simp [Action.section, there, woken] at silent
    | wakeReturn there woken waited runs ends => simp [Action.section, there, woken] at silent
    | wakeAgain there woken loops runs succeeds => simp [Action.section, there, woken] at silent
  · obtain ⟨-, bystands⟩ := move.bystander own
    cases bystands with
    | rests rests => exact before ((rests.waits _).mp waits)
    | timesOut resumes => exact resumes.loose _ waits
    | starts starts => exact starts.loose _ waits
    | woken waited resumes => exact resumes.loose _ waits

end

/-! ## The calls of one thread -/

inductive NestOp where
  | take
  | release
deriving DecidableEq, Repr

/-- The call on the mutex that the thread begins. -/
def Action.nests (thread : ThreadId) (mutex : Nat) : Action → Option NestOp
  | .enter (.thread self) (.mutexTake index _) =>
    if self = thread ∧ index = mutex then some .take else none
  | .enter (.thread self) (.mutexRelease index) =>
    if self = thread ∧ index = mutex then some .release else none
  | _ => none

theorem nests_take {thread : ThreadId} {mutex : Nat} {action : Action}
    (takes : action.nests thread mutex = some .take) :
    ∃ time, action = .enter (.thread thread) (.mutexTake mutex time) := by
  unfold Action.nests at takes
  split at takes
  · rename_i self index time
    obtain ⟨⟨rfl, rfl⟩, -⟩ := Option.ite_none_right_eq_some.mp takes
    exact ⟨time, rfl⟩
  · cases (Option.ite_none_right_eq_some.mp takes).2
  · cases takes

theorem nests_release {thread : ThreadId} {mutex : Nat} {action : Action}
    (releases : action.nests thread mutex = some .release) :
    action = .enter (.thread thread) (.mutexRelease mutex) := by
  unfold Action.nests at releases
  split at releases
  · cases (Option.ite_none_right_eq_some.mp releases).2
  · obtain ⟨⟨rfl, rfl⟩, -⟩ := Option.ite_none_right_eq_some.mp releases
    rfl
  · cases releases

/-- A thread has taken a free mutex `taken` times and then released it `released` times. As
long as the releases stay below the first point where a multiple of 256 takes is left, the
thread is the owner and nobody else has taken the mutex. -/
inductive Nested (thread : ThreadId) (mutex taken released : Nat) (notices : List Notice)
    (system : System) : Prop where
  | held (owned : (system.kernel.mutexes mutex).owner = some thread)
      (within : released ≤ (taken - 1) % 256)
      (count : (system.kernel.mutexes mutex).hold.toNat = (taken - released) % 256)
      (alone : ∀ other ≠ thread, ∀ time,
        .returned (.thread other) (.mutexTake mutex time) .eok ∉ notices)
  | passed (foreign : (system.kernel.mutexes mutex).owner ≠ some thread)
      (beyond : (taken - 1) % 256 < released)

/-- The thread holds or has lost the mutex, and is not waiting for it. -/
structure NestInv (thread : ThreadId) (mutex taken released : Nat) (notices : List Notice)
    (system : System) : Prop where
  unlocked : Unlocked system
  kept : MutexKept mutex system
  nested : Nested thread mutex taken released notices system
  loose : ¬ system.kernel.Waits (.mutex mutex) thread

section

variable {system next : System} {mutex taken released : Nat} {action : Action}
  {emitted notices : List Notice} {thread : ThreadId}

/-- The thread stays the owner, so nobody else comes back with the mutex. -/
theorem Nested.of_owned (inv : CallsInv system) (kept : MutexKept mutex system)
    (move : Move system action next emitted)
    (owned : (next.kernel.mutexes mutex).owner = some thread)
    (within : released ≤ (taken - 1) % 256)
    (count : (next.kernel.mutexes mutex).hold.toNat = (taken - released) % 256)
    (alone : ∀ other ≠ thread, ∀ time,
      .returned (.thread other) (.mutexTake mutex time) .eok ∉ notices) :
    Nested thread mutex taken released (notices ++ emitted) next := by
  refine .held owned within count fun other apart time shown => ?_
  rcases List.mem_append.mp shown with old | returned
  · exact alone other apart time old
  · obtain ⟨self, same, owner⟩ := kept.returned inv move returned
    obtain rfl := Context.thread.inj same
    exact apart (Option.some_inj.mp (owner.symm.trans owned))

/-- A call by somebody else, or none on the mutex. -/
theorem Nested.elsewhere (inv : CallsInv system) (kept : MutexKept mutex system)
    (nested : Nested thread mutex taken released notices system)
    (loose : ¬ system.kernel.Waits (.mutex mutex) thread)
    (move : Move system action next emitted) (quiet : action.nests thread mutex = none) :
    Nested thread mutex taken released (notices ++ emitted) next := by
  cases nested with
  | held owned within count alone =>
      suffices same : next.kernel.mutexes mutex = system.kernel.mutexes mutex from
        .of_owned inv kept move (same ▸ owned) within (same ▸ count) alone
      have value : (system.kernel.mutexes mutex).value = 0#16 := by
        cases kept.settled with
        | free value unowned nobody => cases unowned.symm.trans owned
        | owned value owner => exact value
      cases move.mutexMove inv mutex with
      | rests foreign record => exact record
      | @take self time home home' kernel outcome begins change settles =>
          subst begins settles
          have apart : self ≠ thread := fun same => by simp [Action.nests, same] at quiet
          generalize seen : view kernel home' = after at change
          have records : kernel.mutexes = after.mutexes := congrArg MutexView.mutexes seen
          rw [System.settle_kernel, records]
          cases change with
          | nested owned' => exact absurd (Option.some_inj.mp (owned'.symm.trans owned)) apart
          | free foreign available => exact absurd value available
          | refused foreign taken unwilling => rfl
          | waits owner owned' foreign taken willing timer => rfl
      | @release self home home' kernel outcome begins homes change settles =>
          subst begins settles
          have apart : self ≠ thread := fun same => by simp [Action.nests, same] at quiet
          generalize seen : view kernel home' = after at change
          have records : kernel.mutexes = after.mutexes := congrArg MutexView.mutexes seen
          rw [System.settle_kernel, records]
          have foreign : (system.kernel.mutexes mutex).owner ≠ some self :=
            fun owned' => apart (Option.some_inj.mp (owned'.symm.trans owned))
          cases change with
          | refused foreign => rfl
          | nested owned' held => exact absurd owned' foreign
          | last owned' unheld pass => exact absurd owned' foreign
  | passed foreign beyond =>
      refine .passed ?_ beyond
      cases move.mutexMove inv mutex with
      | rests foreign' record => rwa [record]
      | @take self time home home' kernel outcome begins change settles =>
          subst begins settles
          have apart : self ≠ thread := fun same => by simp [Action.nests, same] at quiet
          generalize seen : view kernel home' = after at change
          have records : kernel.mutexes = after.mutexes := congrArg MutexView.mutexes seen
          rw [System.settle_kernel, records]
          cases change with
          | nested owned' => simpa [view] using foreign
          | free foreign' available => simpa using apart
          | refused foreign' taken unwilling => exact foreign
          | waits owner owned' foreign' taken willing timer => exact foreign
      | @release self home home' kernel outcome begins homes change settles =>
          subst begins settles
          generalize seen : view kernel home' = after at change
          have records : kernel.mutexes = after.mutexes := congrArg MutexView.mutexes seen
          rw [System.settle_kernel, records]
          cases change with
          | refused foreign' => exact foreign
          | nested owned' held => simpa [view] using foreign
          | last owned' unheld pass =>
              cases pass with
              | frees nobody => simp
              | hands waiter first waiting =>
                  have there := (homes.linked_iff (ThreadNode.isHead_wait _) waiter).mpr
                    (suspendList_eq_some.mp waiting)
                  have apart : waiter ≠ thread := fun same => loose (same ▸ there)
                  simpa using apart

/-- The owner takes the mutex once more. -/
theorem Nested.take {time : BitVec 32} (inv : CallsInv system) (kept : MutexKept mutex system)
    (nested : Nested thread mutex taken 0 notices system) (some_ : 0 < taken)
    (move : Move system (.enter (.thread thread) (.mutexTake mutex time)) next emitted) :
    Nested thread mutex (taken + 1) 0 (notices ++ emitted) next := by
  cases nested with
  | passed foreign beyond => omega
  | held owned within count alone =>
      cases move.mutexMove inv mutex with
      | rests foreign record => exact absurd rfl ((foreign thread).1 time)
      | release begins homes change settles => cases begins
      | @take self time' home home' kernel outcome begins change settles =>
          cases begins
          subst settles
          generalize seen : view kernel home' = after at change
          have records : kernel.mutexes = after.mutexes := congrArg MutexView.mutexes seen
          cases change with
          | nested owned' =>
              refine .of_owned inv kept move ?_ (by omega) ?_ alone
              · rw [System.settle_kernel, records]
                simpa [view] using owned
              · rw [System.settle_kernel, records]
                simp only [MutexView.setMutex_mutexes, Function.update_self, BitVec.toNat_add]
                change ((system.kernel.mutexes mutex).hold.toNat + 1) % 256 = _
                omega
          | free foreign available => exact absurd owned foreign
          | refused foreign taken unwilling => exact absurd owned foreign
          | waits owner owned' foreign taken willing timer =>
              exact absurd (Option.some_inj.mp (owned'.symm.trans owned)) foreign

/-- Who has the mutex after a release of its owner. -/
theorem release_owner (inv : CallsInv system)
    (nested : Nested thread mutex taken released notices system) (some_ : 0 < taken)
    (within : released ≤ (taken - 1) % 256)
    (move : Move system (.enter (.thread thread) (.mutexRelease mutex)) next emitted) :
    if released = (taken - 1) % 256 then
      (next.kernel.mutexes mutex).owner = frontWaiter system.kernel mutex ∧
        ∀ waiter, (next.kernel.mutexes mutex).owner = some waiter →
          system.kernel.Waits (.mutex mutex) waiter
    else (next.kernel.mutexes mutex).owner = some thread ∧
      (next.kernel.mutexes mutex).hold.toNat = (taken - (released + 1)) % 256 := by
  cases nested with
  | passed foreign beyond => omega
  | held owned _ count alone =>
      cases move.mutexMove inv mutex with
      | rests foreign record => exact absurd rfl (foreign thread).2
      | take begins change settles => cases begins
      | @release self home home' kernel outcome begins homes change settles =>
          cases begins
          subst settles
          generalize seen : view kernel home' = after at change
          have records : kernel.mutexes = after.mutexes := congrArg MutexView.mutexes seen
          have less : ((system.kernel.mutexes mutex).hold - 1#8 = 0#8) ↔
              released = (taken - 1) % 256 := by
            rw [← BitVec.toNat_inj, BitVec.toNat_sub, count]
            simp only [BitVec.toNat_ofNat]
            omega
          rw [System.settle_kernel, records]
          cases change with
          | refused foreign => exact absurd owned foreign
          | nested owned' held =>
              rw [if_neg fun last => held (less.mpr last)]
              refine ⟨by simpa [view] using owned, ?_⟩
              have positive : released ≠ (taken - 1) % 256 := fun last => held (less.mpr last)
              simp only [MutexView.setMutex_mutexes, Function.update_self, BitVec.toNat_sub]
              change (2 ^ 8 - 1 + (system.kernel.mutexes mutex).hold.toNat) % 2 ^ 8 = _
              omega
          | last owned' unheld pass =>
              rw [if_pos (less.mp unheld)]
              cases pass with
              | frees nobody =>
                  have empty := (homes.isEmpty_iff (.mutex mutex)).mpr fun waiter there =>
                    nobody waiter (suspendList_eq_some.mpr there)
                  have front : frontWaiter system.kernel mutex = none := by
                    have head : system.kernel.threadLinks.next (.wait (.mutex mutex)) =
                        .wait (.mutex mutex) := by simpa [Links.isEmpty] using empty
                    simp [frontWaiter, head, threadEntry]
                  rw [front]
                  simp
              | hands waiter first waiting =>
                  rw [first]
                  have there := (homes.linked_iff (ThreadNode.isHead_wait _) waiter).mpr
                    (suspendList_eq_some.mp waiting)
                  refine ⟨by simp, fun other handed => ?_⟩
                  obtain rfl : waiter = other := by simpa using handed
                  exact there

/-- The thread releases the mutex once more. -/
theorem Nested.release (inv : CallsInv system) (kept : MutexKept mutex system)
    (nested : Nested thread mutex taken released notices system) (some_ : 0 < taken)
    (loose : ¬ system.kernel.Waits (.mutex mutex) thread)
    (move : Move system (.enter (.thread thread) (.mutexRelease mutex)) next emitted) :
    Nested thread mutex taken (released + 1) (notices ++ emitted) next := by
  cases nested with
  | held owned within count alone =>
      have after := release_owner inv (.held owned within count alone) some_ within move
      split at after
      · rename_i last
        exact .passed (fun owned' => loose (after.2 thread owned')) (by omega)
      · rename_i more
        exact .of_owned inv kept move after.1 (by omega) after.2 alone
  | passed foreign beyond =>
      refine .passed ?_ (by omega)
      cases move.mutexMove inv mutex with
      | rests foreign record => exact absurd rfl (foreign thread).2
      | take begins change settles => cases begins
      | @release self home home' kernel outcome begins homes change settles =>
          cases begins
          subst settles
          generalize seen : view kernel home' = after at change
          have records : kernel.mutexes = after.mutexes := congrArg MutexView.mutexes seen
          rw [System.settle_kernel, records]
          cases change with
          | refused foreign' => exact foreign
          | nested owned' held => exact absurd owned' foreign
          | last owned' unheld pass => exact absurd owned' foreign

/-- A thread that owns the mutex, or finds it free, does not wait for it. -/
theorem not_suspends {time : BitVec 32} {kernel : Kernel} {outcome : Outcome}
    (running : system.kernel.rtCurrentThread = .thread thread)
    (available : (system.kernel.mutexes mutex).owner = some thread ∨
      (system.kernel.mutexes mutex).value ≠ 0#16)
    (enters : rtMutexTake system.kernel mutex time = some (kernel, outcome)) (timer : Option Err) :
    outcome ≠ .suspends timer := by
  have same : (system.kernel.setError thread .eok).mutexes = system.kernel.mutexes := rfl
  unfold rtMutexTake at enters
  rw [running] at enters
  dsimp only at enters
  rw [same] at enters
  rintro rfl
  split at enters
  · cases enters
  · rename_i foreign
    rw [if_pos (available.resolve_left foreign)] at enters
    cases enters

/-- A mutex that nobody owns is not held. -/
def MutexUnheld (mutex : Nat) (system : System) : Prop :=
  (system.kernel.mutexes mutex).owner = none → (system.kernel.mutexes mutex).hold = 0#8

theorem MutexUnheld.step (inv : CallsInv system) (unheld : MutexUnheld mutex system)
    (move : Move system action next emitted) : MutexUnheld mutex next := by
  intro free
  cases move.mutexMove inv mutex with
  | rests foreign record =>
      rw [record] at free ⊢
      exact unheld free
  | @take self time home home' kernel outcome begins change settles =>
      subst begins settles
      generalize seen : view kernel home' = after at change
      have records : kernel.mutexes = after.mutexes := congrArg MutexView.mutexes seen
      rw [System.settle_kernel, records] at free ⊢
      cases change with
      | nested owned =>
          cases owned.symm.trans (show (system.kernel.mutexes mutex).owner = none by
            simpa [view] using free)
      | free foreign available => simp at free
      | refused foreign taken unwilling => exact unheld free
      | waits owner owned foreign taken willing timer => exact unheld free
  | @release self home home' kernel outcome begins homes change settles =>
      subst begins settles
      generalize seen : view kernel home' = after at change
      have records : kernel.mutexes = after.mutexes := congrArg MutexView.mutexes seen
      rw [System.settle_kernel, records] at free ⊢
      cases change with
      | refused foreign => exact unheld free
      | nested owned held =>
          cases owned.symm.trans (show (system.kernel.mutexes mutex).owner = none by
            simpa [view] using free)
      | last owned last pass =>
          cases pass with
          | frees nobody => simpa using last
          | hands waiter first waiting => simp at free

namespace NestInv

/-- The first take, of a free mutex. -/
theorem begin {time : BitVec 32} (unlocked : Unlocked system) (kept : MutexKept mutex system)
    (unheld : MutexUnheld mutex system) (free : (system.kernel.mutexes mutex).owner = none)
    (step : systemMachine.step system (.enter (.thread thread) (.mutexTake mutex time)) =
      some (next, emitted)) : NestInv thread mutex 1 0 emitted next := by
  have without : NoResume (.enter (.thread thread) (.mutexTake mutex time)) := trivial
  have move := unlocked.calls.move without step
  have value : (system.kernel.mutexes mutex).value ≠ 0#16 := by
    cases kept.settled with
    | free value unowned nobody => simp [value]
    | owned value owned => cases free.symm.trans owned
  have nobody : ∀ other, ¬ system.kernel.Waits (.mutex mutex) other := by
    cases kept.settled with
    | free value unowned nobody => exact fun other waits => nobody ⟨other, waits⟩
    | owned value owned => cases free.symm.trans owned
  refine ⟨unlocked.step without step, kept.step unlocked.calls move, ?_, ?_⟩
  · cases move.mutexMove unlocked.calls mutex with
    | rests foreign record => exact absurd rfl ((foreign thread).1 time)
    | release begins homes change settles => cases begins
    | @take self time' home home' kernel outcome begins change settles =>
        cases begins
        subst settles
        generalize seen : view kernel home' = after at change
        have records : kernel.mutexes = after.mutexes := congrArg MutexView.mutexes seen
        cases change with
        | nested owned => cases free.symm.trans owned
        | refused foreign taken unwilling => exact absurd taken value
        | waits owner owned foreign taken willing timer => exact absurd taken value
        | free foreign available =>
            have owner : (kernel.mutexes mutex).owner = some thread := by
              rw [records]
              simp
            have count : (kernel.mutexes mutex).hold = 1#8 := by
              rw [records]
              simp [view, unheld free]
            rw [← List.nil_append emitted]
            refine .of_owned unlocked.calls kept move ?_ (by omega) ?_ (by simp)
            · rwa [System.settle_kernel]
            · rw [System.settle_kernel, count]
              rfl
  · refine move.not_waits unlocked.calls (nobody thread) ?_
    rintro time' kernel outcome timer ⟨⟩ running enters
    exact not_suspends running (Or.inr value) enters timer

/-- A step of a run in which the thread takes the mutex before it releases it. -/
theorem step (inv : NestInv thread mutex taken released notices system) (some_ : 0 < taken)
    (without : NoResume action)
    (step : systemMachine.step system action = some (next, emitted)) :
    (action.nests thread mutex = none →
      NestInv thread mutex taken released (notices ++ emitted) next) ∧
    (action.nests thread mutex = some .take → released = 0 →
      NestInv thread mutex (taken + 1) released (notices ++ emitted) next) ∧
    (action.nests thread mutex = some .release →
      NestInv thread mutex taken (released + 1) (notices ++ emitted) next) := by
  have move := inv.unlocked.calls.move without step
  have kept := inv.kept.step inv.unlocked.calls move
  have unlocked := inv.unlocked.step without step
  refine ⟨fun quiet => ?_, fun takes first => ?_, fun releases => ?_⟩
  · refine ⟨unlocked, kept, inv.nested.elsewhere inv.unlocked.calls inv.kept inv.loose move quiet,
      move.not_waits inv.unlocked.calls inv.loose ?_⟩
    rintro time kernel outcome timer rfl
    simp [Action.nests] at quiet
  · subst first
    obtain ⟨time, rfl⟩ := nests_take takes
    refine ⟨unlocked, kept, inv.nested.take inv.unlocked.calls inv.kept some_ move,
      move.not_waits inv.unlocked.calls inv.loose ?_⟩
    rintro time' kernel outcome timer ⟨⟩ running enters
    cases inv.nested with
    | passed foreign beyond => omega
    | held owned within count alone => exact not_suspends running (Or.inl owned) enters timer
  · obtain rfl := nests_release releases
    refine ⟨unlocked, kept, inv.nested.release inv.unlocked.calls inv.kept some_ inv.loose move,
      move.not_waits inv.unlocked.calls inv.loose ?_⟩
    rintro time kernel outcome timer ⟨⟩

end NestInv

end

/-! ## Runs -/

/-- The calls of a run that has made one more. -/
theorem nest_calls {ops : List NestOp} {op : NestOp} {takes releases : Nat}
    (calls : ops ++ [op] = List.replicate takes .take ++ List.replicate releases .release) :
    (op = .take ∧ releases = 0 ∧ ∃ fewer, takes = fewer + 1 ∧ ops = List.replicate fewer .take) ∨
    (op = .release ∧ ∃ fewer, releases = fewer + 1 ∧
      ops = List.replicate takes .take ++ List.replicate fewer .release) := by
  cases releases with
  | zero =>
      rw [List.replicate_zero, List.append_nil] at calls
      cases takes with
      | zero => simp at calls
      | succ fewer =>
          rw [List.replicate_succ'] at calls
          obtain ⟨earlier, last⟩ := List.append_inj' calls rfl
          exact Or.inl ⟨List.singleton_inj.mp last, rfl, fewer, rfl, earlier⟩
  | succ fewer =>
      rw [List.replicate_succ', ← List.append_assoc] at calls
      obtain ⟨earlier, last⟩ := List.append_inj' calls rfl
      exact Or.inr ⟨List.singleton_inj.mp last, fewer, rfl, earlier⟩

theorem NestInv.of_run {thread : ThreadId} {mutex : Nat} {start system : System}
    {actions : List Action} {shown notices : List Notice}
    (begun : NestInv thread mutex 1 0 shown start)
    (run : systemMachine.Run (fun _ action => NoResume action) start actions notices system)
    {takes releases : Nat} (calls : actions.filterMap (Action.nests thread mutex) =
      List.replicate takes .take ++ List.replicate releases .release) :
    NestInv thread mutex (takes + 1) releases (shown ++ notices) system := by
  induction run generalizing takes releases with
  | nil =>
      have none : takes = 0 ∧ releases = 0 := by
        have empty := congrArg List.length calls
        simp only [List.filterMap_nil, List.length_nil, List.length_append,
          List.length_replicate] at empty
        omega
      obtain ⟨rfl, rfl⟩ := none
      rwa [List.append_nil]
  | @snoc earlier events before action emitted after prior without transition ih =>
      rw [← List.append_assoc]
      rw [List.filterMap_append] at calls
      cases nests : action.nests thread mutex with
      | none =>
          rw [List.filterMap_cons_none nests, List.filterMap_nil, List.append_nil] at calls
          exact ((ih calls).step (Nat.succ_pos _) without transition).1 nests
      | some op =>
          rw [List.filterMap_cons_some nests, List.filterMap_nil] at calls
          rcases nest_calls calls with ⟨rfl, rfl, fewer, rfl, takes⟩ | ⟨rfl, fewer, rfl, both⟩
          · have inv := @ih fewer 0 (by rw [takes]; simp)
            exact (inv.step (Nat.succ_pos _) without transition).2.1 nests rfl
          · exact ((ih both).step (Nat.succ_pos _) without transition).2.2 nests

/-- Mutexes in a run of IPC calls. -/
theorem mutexes_of_run {config : Config} {actions : List Action} {notices : List Notice}
    {system : System}
    (run : systemMachine.Run (fun _ action => NoResume action) (System.boot config) actions notices
      system) (mutex : Nat) :
    Unlocked system ∧ MutexKept mutex system ∧ MutexUnheld mutex system :=
  @Unlocked.run _ (fun _ system => MutexKept mutex system ∧ MutexUnheld mutex system) _ _ _ _ run
    (fun _ _ => id) (.initial config) ⟨.initial config mutex, fun _ => rfl⟩
    fun _ _ _ _ _ unlocked _ inv _ move =>
      ⟨inv.1.step unlocked.calls move, inv.2.step unlocked.calls move⟩

section

variable {system : System} {thread : ThreadId} {mutex : Nat} {time : BitVec 32}

/-- The thread is in no call and owns the mutex, for which nobody waits. -/
structure OwnsIdle (thread : ThreadId) (mutex : Nat) (system : System) : Prop where
  running : system.kernel.rtCurrentThread = .thread thread
  idle : system.frames (.thread thread) = none
  owned : (system.kernel.mutexes mutex).owner = some thread
  unraised : (system.kernel.mutexes mutex).originalPriority =
    (system.kernel.threads thread).currentPriority
  nobody : system.kernel.threadLinks.isEmpty (.wait (.mutex mutex)) = true

theorem OwnsIdle.take (owns : OwnsIdle thread mutex system) (time : BitVec 32) :
    ∃ next, systemMachine.step system (.enter (.thread thread) (.mutexTake mutex time)) =
      some (next, [.returned (.thread thread) (.mutexTake mutex time) .eok]) ∧
        OwnsIdle thread mutex next := by
  obtain ⟨running, idle, owned, unraised, nobody⟩ := owns
  let kernel := (system.kernel.setError thread .eok).setMutex mutex
    { system.kernel.mutexes mutex with hold := (system.kernel.mutexes mutex).hold + 1#8 }
  have takes : rtMutexTake system.kernel mutex time = some (kernel, .returns .eok none) := by
    have same : (system.kernel.setError thread .eok).mutexes = system.kernel.mutexes := rfl
    simp only [rtMutexTake, running, same, if_pos owned]
    rfl
  refine ⟨system.setFrame (.thread thread) kernel none, ?_, ?_⟩
  · change System.enter system (.thread thread) (.mutexTake mutex time) = _
    unfold System.enter
    rw [if_pos ⟨running, rfl, idle⟩]
    simp [Call.enter, takes, System.settle]
  · refine ⟨running, Function.update_self .., ?_, ?_, nobody⟩
    · simpa [System.setFrame, kernel, Kernel.setMutex] using owned
    · simpa [System.setFrame, kernel, Kernel.setMutex, Kernel.setError, Kernel.setThread]
        using unraised

/-- The owner can take the mutex any number of times. -/
theorem OwnsIdle.takes (owns : OwnsIdle thread mutex system) (time : BitVec 32) (count : Nat) :
    ∃ next, systemMachine.Run (fun _ action => NoResume action) system
      (List.replicate count (.enter (.thread thread) (.mutexTake mutex time)))
      (List.replicate count (.returned (.thread thread) (.mutexTake mutex time) .eok)) next ∧
        OwnsIdle thread mutex next := by
  induction count with
  | zero => exact ⟨system, .nil, owns⟩
  | succ count ih =>
      obtain ⟨before, run, owns⟩ := ih
      obtain ⟨next, step, owns⟩ := owns.take time
      rw [List.replicate_succ', List.replicate_succ']
      exact ⟨next, .snoc run trivial step, owns⟩

theorem OwnsIdle.release (owns : OwnsIdle thread mutex system) :
    ∃ next emitted, systemMachine.step system (.enter (.thread thread) (.mutexRelease mutex)) =
      some (next, emitted) := by
  obtain ⟨running, idle, owned, unraised, nobody⟩ := owns
  have releases : ∃ kernel, rtMutexRelease system.kernel mutex =
      some (kernel, .returns .eok none) := by
    simp only [rtMutexRelease, running, ne_eq, owned, not_true, if_false]
    split
    · rw [restorePriority, if_neg (by simpa [Kernel.setMutex] using unraised), passMutex]
      exact ⟨_, if_pos nobody⟩
    · exact ⟨_, rfl⟩
  obtain ⟨kernel, releases⟩ := releases
  refine ⟨system.setFrame (.thread thread) kernel none,
    [.returned (.thread thread) (.mutexRelease mutex) .eok], ?_⟩
  change System.enter system (.thread thread) (.mutexRelease mutex) = _
  unfold System.enter
  rw [if_pos ⟨running, rfl, idle⟩]
  simp [Call.enter, releases, System.settle]

end

theorem nests_takes_release (thread : ThreadId) (mutex : Nat) (time : BitVec 32) (count : Nat) :
    (List.replicate count (Action.enter (.thread thread) (.mutexTake mutex time)) ++
      [Action.enter (.thread thread) (.mutexRelease mutex)]).filterMap
        (Action.nests thread mutex) =
        List.replicate count .take ++ List.replicate 1 .release := by
  simp [Action.nests]

/-- A thread that has taken a free mutex `takes` times and released it `releases` times is
still the owner, and nobody else has taken it, if and only if the releases are at most
`(takes - 1) % 256`. The release after that many hands the mutex on or frees it. -/
theorem nesting_counted {config : Config} {earlier actions : List Action}
    {past shown notices : List Notice} {before start system : System} {thread : ThreadId}
    {mutex : Nat} {time : BitVec 32} {takes releases : Nat}
    (reached : systemMachine.Run (fun _ action => NoResume action) (System.boot config) earlier past
      before)
    (free : (before.kernel.mutexes mutex).owner = none)
    (first : systemMachine.step before (.enter (.thread thread) (.mutexTake mutex time)) =
      some (start, shown))
    (run : systemMachine.Run (fun _ action => NoResume action) start actions notices system)
    (some_ : 0 < takes)
    (calls : actions.filterMap (Action.nests thread mutex) =
      List.replicate (takes - 1) .take ++ List.replicate releases .release) :
    (((system.kernel.mutexes mutex).owner = some thread ∧
      ∀ other ≠ thread, ∀ time,
        .returned (.thread other) (.mutexTake mutex time) .eok ∉ shown ++ notices) ↔
      releases ≤ (takes - 1) % 256) ∧
    (releases ≤ (takes - 1) % 256 → ∀ next emitted,
      systemMachine.step system (.enter (.thread thread) (.mutexRelease mutex)) =
        some (next, emitted) →
      (next.kernel.mutexes mutex).owner =
        if releases = (takes - 1) % 256 then frontWaiter system.kernel mutex else some thread) := by
  obtain ⟨unlocked, kept, unheld⟩ := mutexes_of_run reached mutex
  have inv := NestInv.of_run (.begin unlocked kept unheld free first) run calls
  rw [Nat.sub_add_cancel some_] at inv
  refine ⟨⟨fun still => ?_, fun within => ?_⟩, fun within next emitted step => ?_⟩
  · cases inv.nested with
    | held owned within count alone => exact within
    | passed foreign beyond => exact absurd still.1 foreign
  · cases inv.nested with
    | held owned within count alone => exact ⟨owned, alone⟩
    | passed foreign beyond => omega
  · have without : NoResume (.enter (.thread thread) (.mutexRelease mutex)) := trivial
    have after := release_owner inv.unlocked.calls inv.nested some_ within
      (inv.unlocked.calls.move without step)
    split at after
    · rename_i last
      rw [if_pos last]
      exact after.1
    · rename_i more
      rw [if_neg more]
      exact after.1

/-- Two takes and one release. -/
theorem nesting_counted_twice :
    ∃ before start system past shown notices,
      systemMachine.execute (System.boot twoThreads) [.threadStartup 1, .schedulerStart] =
        some (before, past) ∧
      systemMachine.step before (.enter (.thread 1) (.mutexTake 0 0xffffffff)) =
        some (start, shown) ∧
      systemMachine.execute start
        [.enter (.thread 1) (.mutexTake 0 0xffffffff), .enter (.thread 1) (.mutexRelease 0)] =
          some (system, notices) ∧
      (system.kernel.mutexes 0).owner = some 1 ∧
      ∀ other ≠ 1, ∀ time,
        .returned (.thread other) (.mutexTake 0 time) .eok ∉ shown ++ notices := by
  obtain ⟨before, start, system, past, shown, notices, reached, free, first, run⟩ :
      ∃ before start system past shown notices,
        systemMachine.execute (System.boot twoThreads) [.threadStartup 1, .schedulerStart] =
          some (before, past) ∧
        (before.kernel.mutexes 0).owner = none ∧
        systemMachine.step before (.enter (.thread 1) (.mutexTake 0 0xffffffff)) =
          some (start, shown) ∧
        systemMachine.execute start
          [.enter (.thread 1) (.mutexTake 0 0xffffffff), .enter (.thread 1) (.mutexRelease 0)] =
            some (system, notices) := ⟨_, _, _, _, _, _, rfl, rfl, rfl, rfl⟩
  have reached' : systemMachine.Run (fun _ action => NoResume action) _ _ _ _ :=
    Machine.run_of_execute (by simp [NoResume]) reached
  have run' : systemMachine.Run (fun _ action => NoResume action) _ _ _ _ :=
    Machine.run_of_execute (by simp [NoResume]) run
  have counted := @nesting_counted _ _ _ _ _ _ _ _ _ 1 0 0xffffffff 2 1 reached' free first run'
    (by decide) rfl
  exact ⟨before, start, system, past, shown, notices, reached, first, run,
    counted.1.mpr (by decide)⟩

/-- The thread takes the mutex 257 times with `RT_EOK`; its first release frees it. -/
theorem first_release_frees :
    ∃ before start system past shown notices actions emitted,
      systemMachine.Run (fun _ action => NoResume action) (System.boot twoThreads)
        [.threadStartup 1, .schedulerStart] past before ∧
      (before.kernel.mutexes 0).owner = none ∧
      systemMachine.step before (.enter (.thread 1) (.mutexTake 0 0xffffffff)) =
        some (start, shown) ∧
      systemMachine.Run (fun _ action => NoResume action) start actions notices system ∧
      actions.filterMap (Action.nests 1 0) =
        List.replicate (257 - 1) .take ++ List.replicate 1 .release ∧
      notices = List.replicate (257 - 1) (.returned (.thread 1) (.mutexTake 0 0xffffffff) .eok) ++
        emitted ∧
      shown = [.returned (.thread 1) (.mutexTake 0 0xffffffff) .eok] ∧
      (system.kernel.mutexes 0).owner ≠ some 1 := by
  obtain ⟨before, start, past, reached, free, first, owns⟩ :
      ∃ before start past,
        systemMachine.execute (System.boot twoThreads) [.threadStartup 1, .schedulerStart] =
          some (before, past) ∧
        (before.kernel.mutexes 0).owner = none ∧
        systemMachine.step before (.enter (.thread 1) (.mutexTake 0 0xffffffff)) =
          some (start, [.returned (.thread 1) (.mutexTake 0 0xffffffff) .eok]) ∧
        OwnsIdle 1 0 start := ⟨_, _, _, rfl, rfl, rfl, rfl, rfl, rfl, rfl, rfl⟩
  have reached : systemMachine.Run (fun _ action => NoResume action) _ _ _ _ :=
    Machine.run_of_execute (by simp [NoResume]) reached
  obtain ⟨taken, takes, owns⟩ := owns.takes 0xffffffff 256
  obtain ⟨system, emitted, release⟩ := owns.release
  have run := Machine.Run.snoc takes (show NoResume (.enter (.thread 1) (.mutexRelease 0)) from
    trivial) release
  have calls := nests_takes_release 1 0 0xffffffff 256
  refine ⟨before, start, system, past, _, _, _, emitted, reached, free, first, run, calls, rfl, rfl,
    ?_⟩
  obtain ⟨unlocked, kept, unheld⟩ := mutexes_of_run reached 0
  cases (NestInv.of_run (.begin unlocked kept unheld free first) run calls).nested with
  | held owned within count alone => omega
  | passed foreign beyond => exact foreign

end RtThread
