import RtThread.Std.Waiters
import RtThread.Drivers.DataqueueSteps

/-!
# Wake-ups on the data queue

A thread waits to pop only while those resumed before it will empty the queue, and
one waits to push only while the pop that reaches the low-water mark will resume it.
-/

namespace RtThread

open RtThread.Std

namespace DataqueuePhase

def waitsToPush : DataqueuePhase → Bool
  | .pushing _ _ .suspended => true
  | _ => false

def waitsToPop : DataqueuePhase → Bool
  | .popping _ .suspended => true
  | _ => false

/-- The thread has been resumed by a push and has not run yet. -/
def willPop : DataqueuePhase → Bool
  | .popping _ .resumed => true
  | _ => false

/-- The thread has been resumed and has not run yet. -/
def isWoken : DataqueuePhase → Bool
  | .pushing _ _ wakeup | .popping _ wakeup => wakeup ≠ .suspended
  | .idle => false

end DataqueuePhase

/-- The number of items in the queue. -/
def Dataqueue.stored (queue : Dataqueue) : Nat := (queue.putIndex - queue.getIndex).toNat

/-- What a queue promises to those who wait for it. -/
structure DataqueueSystem.Promises (system : DataqueueSystem) (spare : Nat) : Prop where
  pushers : Waiters system.phase DataqueuePhase.waitsToPush system.queue.suspendedPushList
  poppers : Waiters system.phase DataqueuePhase.waitsToPop system.queue.suspendedPopList
  mark : system.queue.suspendedPushList ≠ [] → system.queue.waitingLwm = true
  /-- Enough threads have been resumed to empty the queue, with `spare` more. -/
  served : ∃ woken, Roll system.phase DataqueuePhase.willPop woken ∧
    (system.queue.suspendedPopList ≠ [] → system.queue.stored + spare ≤ woken.length)

/-- The action looks at the queue in `rt_data_queue_pop`. -/
def DataqueueSystem.triesPop (system : DataqueueSystem) : DataqueueAction → Bool
  | .pop _ _ => true
  | .wake thread =>
      match system.phase thread with
      | .popping _ .resumed => true
      | _ => false
  | _ => false

/-- A pop that ends the wait for the low-water mark leaves nobody to wait for it. -/
def DataqueueSystem.WakesAll (system : DataqueueSystem) (action : DataqueueAction) : Prop :=
  system.triesPop action = true → system.queue.isEmpty = false → system.EndsWait →
    system.queue.suspendedPushList.length ≤ 1

section

variable {system next : DataqueueSystem} {context : Option ThreadId} {item : DataItem}
  {timeout : Int} {action : DataqueueAction} {emitted : List DataqueueEvent} {thread : ThreadId}
  {queue : Dataqueue} {phase : ThreadId → DataqueuePhase}

theorem Dataqueue.stored_eq_zero (empty : queue.isEmpty = true) : queue.stored = 0 := by
  have same : queue.getIndex = queue.putIndex := by simpa [Dataqueue.isEmpty] using empty
  simp [Dataqueue.stored, same]

theorem Dataqueue.stored_store (queue : Dataqueue) (item : DataItem) :
    (queue.store item).stored ≤ queue.stored + 1 := by
  unfold Dataqueue.stored Dataqueue.store
  bv_omega

namespace DataqueueSystem

theorem stored_taken (holds : system.queue.isEmpty = false) :
    system.taken.stored + 1 = system.queue.stored := by
  have apart : system.queue.getIndex ≠ system.queue.putIndex := by
    simpa [Dataqueue.isEmpty] using holds
  unfold Dataqueue.stored taken
  bv_omega

/-- A thread on no list goes on. -/
theorem Promises.done {spare : Nat} (promises : Promises ⟨queue, phase⟩ spare)
    (runs : ∀ thread, context = some thread →
      (phase thread).waitsToPush = false ∧ (phase thread).waitsToPop = false)
    (enough : queue.stored = 0 ∨ spare = 1 ∨
      ∀ thread, context = some thread → (phase thread).willPop = false) :
    (DataqueueSystem.done ⟨queue, phase⟩ context).Promises 0 := by
  obtain ⟨woken, roll, served⟩ := promises.served
  cases context with
  | none =>
      refine ⟨promises.pushers, promises.poppers, promises.mark, woken, roll, fun some_ => ?_⟩
      exact Nat.le_trans (Nat.le_add_right ..) (served some_)
  | some thread =>
      obtain ⟨noPush, noPop⟩ := runs thread rfl
      have pushers := promises.pushers.update (promises.pushers.notMem noPush) .idle
      have poppers := promises.poppers.update (promises.poppers.notMem noPop) .idle
      rcases enough with none_ | one | other
      · refine ⟨pushers, poppers, promises.mark, _, roll.erase thread rfl, fun _ => ?_⟩
        change queue.stored + 0 ≤ _
        omega
      · refine ⟨pushers, poppers, promises.mark, _, roll.erase thread rfl, fun some_ => ?_⟩
        have before := served some_
        have after := List.le_length_erase (a := thread) (l := woken)
        change queue.stored + 0 ≤ _
        change queue.stored + spare ≤ _ at before
        omega
      · refine ⟨pushers, poppers, promises.mark, _, roll.update (other thread rfl) rfl,
          fun some_ => ?_⟩
        exact Nat.le_trans (Nat.le_add_right ..) (served some_)

/-- The phase in which a blocked thread is resumed. -/
theorem resume_phase_pushing {wakeup before : Wakeup}
    (blocked : system.phase thread = .pushing item timeout before) :
    (system.resume thread wakeup).phase =
      Function.update system.phase thread (.pushing item timeout wakeup) := by
  rw [resume, blocked]

theorem resume_phase_popping {wakeup before : Wakeup}
    (blocked : system.phase thread = .popping timeout before) :
    (system.resume thread wakeup).phase =
      Function.update system.phase thread (.popping timeout wakeup) := by
  rw [resume, blocked]

theorem exists_of_waitsToPush {phase : DataqueuePhase} (waits : phase.waitsToPush = true) :
    ∃ item timeout, phase = .pushing item timeout .suspended := by
  unfold DataqueuePhase.waitsToPush at waits
  split at waits
  · exact ⟨_, _, rfl⟩
  · cases waits

theorem exists_of_waitsToPop {phase : DataqueuePhase} (waits : phase.waitsToPop = true) :
    ∃ timeout, phase = .popping timeout .suspended := by
  unfold DataqueuePhase.waitsToPop at waits
  split at waits
  · exact ⟨_, rfl⟩
  · cases waits

/-- A push resumes the first thread that waits to pop. -/
theorem Promises.resumePop {spare : Nat} {rest : List ThreadId}
    (promises : Promises ⟨{ queue with suspendedPopList := thread :: rest }, phase⟩ spare) :
    (resume ⟨{ queue with suspendedPopList := rest }, phase⟩ thread .resumed).Promises
      (spare + 1) := by
  obtain ⟨timeout, blocked⟩ := exists_of_waitsToPop
    (promises.poppers.all thread List.mem_cons_self)
  change phase thread = _ at blocked
  obtain ⟨woken, roll, served⟩ := promises.served
  have phase' : (resume ⟨{ queue with suspendedPopList := rest }, phase⟩ thread .resumed).phase =
      Function.update phase thread (.popping timeout .resumed) := resume_phase_popping blocked
  refine ⟨?_, ?_, promises.mark, thread :: woken, ?_, fun _ => ?_⟩
  · rw [phase']
    exact promises.pushers.update (promises.pushers.notMem (by simp only [blocked]; rfl)) _
  · rw [phase']
    exact promises.poppers.tail _
  · rw [phase']
    exact roll.cons (by simp only [blocked]; rfl) rfl
  · have before := served (List.cons_ne_nil thread rest)
    exact Nat.succ_le_succ before

/-- A pop resumes the first thread that waits to push. -/
theorem Promises.resumePush {spare : Nat} {rest : List ThreadId}
    (promises : Promises ⟨{ queue with suspendedPushList := thread :: rest }, phase⟩ spare) :
    (resume ⟨{ queue with suspendedPushList := rest }, phase⟩ thread .resumed).Promises spare := by
  obtain ⟨item, timeout, blocked⟩ := exists_of_waitsToPush
    (promises.pushers.all thread List.mem_cons_self)
  change phase thread = _ at blocked
  obtain ⟨woken, roll, served⟩ := promises.served
  have phase' : (resume ⟨{ queue with suspendedPushList := rest }, phase⟩ thread .resumed).phase =
      Function.update phase thread (.pushing item timeout .resumed) :=
    resume_phase_pushing blocked
  refine ⟨?_, ?_, fun _ => promises.mark (List.cons_ne_nil thread rest), woken, ?_, served⟩
  · rw [phase']
    exact promises.pushers.tail _
  · rw [phase']
    exact promises.poppers.update (promises.poppers.notMem (by simp only [blocked]; rfl)) _
  · rw [phase']
    exact roll.update (by simp only [blocked]; rfl) rfl

theorem Promises.store (promises : Promises ⟨queue, phase⟩ 1) (item : DataItem) :
    Promises ⟨queue.store item, phase⟩ 0 := by
  obtain ⟨woken, roll, served⟩ := promises.served
  refine ⟨promises.pushers, promises.poppers, promises.mark, woken, roll, fun some_ => ?_⟩
  exact Nat.le_trans (queue.stored_store item) (served some_)

theorem Promises.take (promises : system.Promises 0) (holds : system.queue.isEmpty = false) :
    Promises ⟨system.taken, system.phase⟩ 1 := by
  obtain ⟨woken, roll, served⟩ := promises.served
  refine ⟨promises.pushers, promises.poppers, promises.mark, woken, roll, fun some_ => ?_⟩
  exact Nat.le_trans (stored_taken holds).le (served some_)

/-- Where nobody waits to pop, there is nothing to promise. -/
theorem Promises.spare {before : Nat} (promises : system.Promises before)
    (nobody : system.queue.suspendedPopList = []) (after : Nat) : system.Promises after := by
  obtain ⟨woken, roll, -⟩ := promises.served
  exact ⟨promises.pushers, promises.poppers, promises.mark, woken, roll, (absurd nobody ·)⟩

/-- Where nobody waits to push, the mark may be cleared. -/
theorem Promises.unmark {spare : Nat} (promises : Promises ⟨queue, phase⟩ spare)
    (nobody : queue.suspendedPushList = []) :
    Promises ⟨{ queue with waitingLwm := false }, phase⟩ spare :=
  ⟨promises.pushers, promises.poppers, (absurd nobody ·), promises.served⟩

theorem Calls.pushes (calls : system.Calls context (.pushing item timeout .resumed))
    (thread : ThreadId) (same : context = some thread) :
    ((system.phase thread).waitsToPush = false ∧ (system.phase thread).waitsToPop = false) ∧
      (system.phase thread).willPop = false := by
  rcases calls thread same with idle | resumed
  · rw [idle]
    decide
  · rw [resumed]
    exact ⟨⟨rfl, rfl⟩, rfl⟩

theorem Calls.pops (calls : system.Calls context (.popping timeout .resumed))
    (thread : ThreadId) (same : context = some thread) :
    (system.phase thread).waitsToPush = false ∧ (system.phase thread).waitsToPop = false := by
  rcases calls thread same with idle | resumed
  · rw [idle]
    decide
  · rw [resumed]
    exact ⟨rfl, rfl⟩

theorem Pushes.promises (promises : system.Promises 0)
    (calls : system.Calls context (.pushing item timeout .resumed))
    (pushes : system.Pushes context item timeout next emitted) : next.Promises 0 := by
  have runs := fun thread same => (calls.pushes thread same).1
  have quiet := fun thread same => (calls.pushes thread same).2
  cases pushes with
  | refused full zero =>
      have marked : Promises ⟨{ system.queue with waitingLwm := true }, system.phase⟩ 0 :=
        ⟨promises.pushers, promises.poppers, fun _ => rfl, promises.served⟩
      exact marked.done runs (.inr (.inr quiet))
  | @blocked thread full same =>
      obtain ⟨noPush, noPop⟩ := runs thread same
      obtain ⟨woken, roll, served⟩ := promises.served
      refine ⟨?_, ?_, fun _ => rfl, woken, ?_, served⟩
      · exact promises.pushers.append (promises.pushers.notMem noPush) rfl
      · exact promises.poppers.update (promises.poppers.notMem noPop) _
      · exact roll.update (quiet thread same) rfl
  | @woke thread rest room waiting =>
      have first : Promises ⟨{ system.queue with suspendedPopList := thread :: rest },
          system.phase⟩ 0 := by rwa [← waiting]
      have apart : ∀ other, context = some other → other ≠ thread := by
        rintro other same rfl
        have waits := first.poppers.all other List.mem_cons_self
        rw [(runs other same).2] at waits
        cases waits
      refine (first.resumePop.store item).done ?_ (.inr (.inr ?_))
      · intro other same
        rw [Function.update_of_ne (apart other same)]
        exact runs other same
      · intro other same
        rw [Function.update_of_ne (apart other same)]
        exact quiet other same
  | stored room nobody =>
      exact ((promises.spare nobody 1).store item).done runs (.inr (.inr quiet))

theorem Pops.promises (promises : system.Promises 0)
    (calls : system.Calls context (.popping timeout .resumed))
    (alone : system.queue.isEmpty = false → system.EndsWait →
      system.queue.suspendedPushList.length ≤ 1)
    (pops : system.Pops context timeout next emitted) : next.Promises 0 := by
  have runs := calls.pops
  cases pops with
  | refused empty zero => exact promises.done runs (.inl (Dataqueue.stored_eq_zero empty))
  | @blocked thread empty same =>
      obtain ⟨noPush, noPop⟩ := runs thread same
      obtain ⟨woken, roll, served⟩ := promises.served
      refine ⟨?_, ?_, promises.mark, _, roll.erase thread rfl, fun _ => ?_⟩
      · exact promises.pushers.update (promises.pushers.notMem noPush) _
      · exact promises.poppers.append (promises.poppers.notMem noPop) rfl
      · have none_ := Dataqueue.stored_eq_zero empty
        change system.queue.stored + 0 ≤ _
        omega
  | @woke thread rest holds low waiting =>
      have first : Promises ⟨{ system.taken with suspendedPushList := thread :: rest },
          system.phase⟩ 1 := by
        have taken := promises.take holds
        rwa [← waiting]
      have one := alone holds low
      rw [waiting] at one
      obtain rfl : rest = [] := by simpa using one
      refine (first.resumePush.unmark rfl).done ?_ (.inr (.inl rfl))
      intro other same
      have apart : other ≠ thread := by
        rintro rfl
        have waits := first.pushers.all other List.mem_cons_self
        rw [(runs other same).1] at waits
        cases waits
      rw [Function.update_of_ne apart]
      exact runs other same
  | ended holds low nobody =>
      exact ((promises.take holds).unmark nobody).done runs (.inr (.inl rfl))
  | took holds high => exact (promises.take holds).done runs (.inr (.inl rfl))

theorem Moves.promises (promises : system.Promises 0) (wakes : system.WakesAll action)
    (moves : system.Moves action next emitted) : next.Promises 0 := by
  cases moves with
  | push calls attempt pushes => exact pushes.promises promises calls
  | pop calls attempt pops =>
      refine pops.promises promises calls (wakes ?_)
      rcases attempt with rfl | ⟨thread, rfl, -, resumed⟩
      · rfl
      · simp [triesPop, resumed]
  | @expirePush thread item timeout blocked =>
      obtain ⟨woken, roll, served⟩ := promises.served
      have some_ : system.queue.suspendedPushList.erase thread ≠ [] →
          system.queue.suspendedPushList ≠ [] := by
        intro some_ none_
        simp [none_] at some_
      refine ⟨?_, ?_, fun rest => promises.mark (some_ rest), woken, ?_, served⟩
      · exact promises.pushers.erase thread _
      · exact promises.poppers.update (promises.poppers.notMem (by rw [blocked]; rfl)) _
      · refine roll.update (by rw [blocked]; rfl) ?_
        simp only [blocked]
        rfl
  | @expirePop thread timeout blocked =>
      obtain ⟨woken, roll, served⟩ := promises.served
      have some_ : system.queue.suspendedPopList.erase thread ≠ [] →
          system.queue.suspendedPopList ≠ [] := by
        intro some_ none_
        simp [none_] at some_
      refine ⟨?_, ?_, promises.mark, woken, ?_, fun rest => served (some_ rest)⟩
      · exact promises.pushers.update (promises.pushers.notMem (by rw [blocked]; rfl)) _
      · exact promises.poppers.erase thread _
      · refine roll.update (by rw [blocked]; rfl) ?_
        simp only [blocked]
        rfl
  | @giveUp thread expired =>
      have runs : ((system.phase thread).waitsToPush = false ∧
          (system.phase thread).waitsToPop = false) ∧ (system.phase thread).willPop = false := by
        rcases expired with ⟨item, timeout, expired⟩ | ⟨timeout, expired⟩ <;> rw [expired] <;>
          exact ⟨⟨rfl, rfl⟩, rfl⟩
      refine promises.done ?_ (.inr (.inr ?_))
      · rintro other same
        exact Option.some_inj.mp same ▸ runs.1
      · rintro other same
        exact Option.some_inj.mp same ▸ runs.2

end DataqueueSystem

end

/-! ## Runs -/

/-- Every thread that has been resumed has run. -/
def DataqueueSystem.Settled (system : DataqueueSystem) : Prop :=
  ∀ thread, (system.phase thread).isWoken = false

/-- Nobody has missed a wake-up. -/
structure DataqueueSystem.NoLostWakeup (system : DataqueueSystem) : Prop where
  poppers : ∀ thread, thread ∈ system.queue.suspendedPopList → system.queue.isEmpty = true
  pushers : ∀ thread, thread ∈ system.queue.suspendedPushList →
    system.queue.lwm.toNat < system.queue.stored ∨ system.queue.waitingLwm = true

/-- A pop down to the low-water mark leaves nobody on the list of those who push. -/
def DataqueueSystem.Drains (system : DataqueueSystem) (action : DataqueueAction) : Prop :=
  ∀ next emitted item, dataqueueMachine.step system action = some (next, emitted) →
    .popped item ∈ emitted → next.queue.stored ≤ next.queue.lwm.toNat →
      next.queue.suspendedPushList = []

theorem DataqueueSystem.Promises.noLostWakeup {system : DataqueueSystem}
    (promises : system.Promises 0) (settled : system.Settled) : system.NoLostWakeup := by
  constructor
  · intro thread member
    obtain ⟨woken, roll, served⟩ := promises.served
    obtain rfl : woken = [] := by
      refine List.eq_nil_iff_forall_not_mem.mpr fun other woken => ?_
      have will := (roll.mem_iff other).mp woken
      have still := settled other
      unfold DataqueuePhase.willPop at will
      split at will
      · rename_i phase
        rw [phase] at still
        cases still
      · cases will
    have none_ := served (List.ne_nil_of_mem member)
    rw [Dataqueue.isEmpty, decide_eq_true_eq]
    have stored : (system.queue.putIndex - system.queue.getIndex).toNat = 0 := by
      simpa [Dataqueue.stored] using none_
    bv_omega
  · intro thread member
    exact .inr (promises.mark (List.ne_nil_of_mem member))

theorem DataqueueSystem.Promises.drains {system : DataqueueSystem} {action : DataqueueAction}
    (promises : system.Promises 0) (wakes : system.WakesAll action) : system.Drains action := by
  intro next emitted item step popped low
  have noted : ∀ (queue : Dataqueue) (notice : DataqueueNotice),
      .popped item ∉ queue.notify notice := by
    intro queue notice
    unfold Dataqueue.notify
    split <;> simp
  cases moves_of_step step with
  | push calls attempt pushes => cases pushes <;> simp [noted] at popped
  | pop calls attempt pops =>
      have tries : system.triesPop action = true := by
        rcases attempt with rfl | ⟨thread, rfl, -, resumed⟩
        · rfl
        · simp [triesPop, resumed]
      cases pops with
      | refused empty zero => simp at popped
      | blocked empty same => simp at popped
      | @woke thread rest holds ends waiting =>
          have one := wakes tries holds ends
          rw [waiting] at one
          rw [done_queue]
          simpa using one
      | ended holds ends nobody =>
          rw [done_queue]
          exact nobody
      | took holds high =>
          rw [done_queue] at low ⊢
          refine by_contra fun some_ => high ⟨promises.mark some_, ?_⟩
          change system.taken.difference ≤ (system.taken.lwm.toNat : Int)
          unfold Dataqueue.stored at low
          unfold Dataqueue.difference
          bv_omega
  | expirePush blocked => cases popped
  | expirePop blocked => cases popped
  | giveUp expired => simp at popped

/-- In a run in which no pop ends the wait for the low-water mark while several threads
are blocked in a push, no wake-up is lost, and a pop down to the mark leaves nobody
blocked in a push. -/
theorem dataqueue_wakes {size lwm : BitVec 16} {memory : Nat → DataItem} {evtNotify : Bool}
    {actions : List DataqueueAction} {events : List DataqueueEvent} {system : DataqueueSystem}
    (run : dataqueueMachine.Run DataqueueSystem.WakesAll
      (.start (rtDataQueueInit size lwm memory evtNotify)) actions events system) :
    (system.Settled → system.NoLostWakeup) ∧
      ∀ action, system.WakesAll action → system.Drains action := by
  have promises : system.Promises 0 := by
    refine @Machine.Run.invariant _ _ _ _ _ _ _ _ _ (fun system => system.Promises 0) run ?_ ?_
    · exact ⟨.nil, .nil, (absurd rfl ·), [], .nil fun thread => rfl, (absurd rfl ·)⟩
    · intro state action next emitted promises wakes step
      exact (DataqueueSystem.moves_of_step step).promises promises wakes
  exact ⟨promises.noLostWakeup, fun action wakes => promises.drains wakes⟩

instance (system : DataqueueSystem) : Decidable system.EndsWait :=
  inferInstanceAs (Decidable (_ ∧ _))

instance (system : DataqueueSystem) (action : DataqueueAction) :
    Decidable (system.WakesAll action) := inferInstanceAs (Decidable (_ → _))

/-- A thread that is blocked in a push is resumed at the mark. -/
theorem dataqueue_wakes_pusher : ∃ system events,
    dataqueueMachine.Run DataqueueSystem.WakesAll
      (.start (rtDataQueueInit 2 1 (fun _ => ⟨0, 0⟩) true))
      [.push none ⟨1, 1⟩ 0, .push none ⟨2, 1⟩ 0, .push (some 0) ⟨3, 1⟩ (-1), .pop none 0, .wake 0]
      events system ∧
    (system.Settled → system.NoLostWakeup) ∧
      ∀ action, system.WakesAll action → system.Drains action := by
  have executed : ((dataqueueMachine.restrict DataqueueSystem.WakesAll).execute
      (.start (rtDataQueueInit 2 1 (fun _ => ⟨0, 0⟩) true))
      [.push none ⟨1, 1⟩ 0, .push none ⟨2, 1⟩ 0, .push (some 0) ⟨3, 1⟩ (-1), .pop none 0,
        .wake 0]).isSome = true := by decide +kernel
  obtain ⟨⟨system, events⟩, result⟩ := Option.isSome_iff_exists.mp executed
  have run := Machine.run_of_execute_restrict result
  exact ⟨system, events, run, dataqueue_wakes run⟩

/-- Two threads are blocked in a push, one is resumed at the mark, and the queue is
drained while the other stays blocked. -/
theorem dataqueue_loses_wakeup : ∃ actions events system,
    dataqueueMachine.Run (fun _ _ => True)
      (.start (rtDataQueueInit 4 1 (fun _ => ⟨0, 0⟩) false)) actions events system ∧
    system.Settled ∧ system.queue.isEmpty = true ∧ ¬ system.NoLostWakeup := by
  obtain ⟨actions, isActions⟩ : ∃ actions : List DataqueueAction, actions =
      [.push none ⟨1, 1⟩ 0, .push none ⟨2, 1⟩ 0, .push none ⟨3, 1⟩ 0, .push none ⟨4, 1⟩ 0,
        .push (some 0) ⟨5, 1⟩ (-1), .push (some 1) ⟨6, 1⟩ (-1), .pop none 0, .pop none 0,
        .pop none 0, .wake 0, .pop none 0, .pop none 0] := ⟨_, rfl⟩
  obtain ⟨start, isStart⟩ : ∃ start, start =
      DataqueueSystem.start (rtDataQueueInit 4 1 (fun _ => ⟨0, 0⟩) false) := ⟨_, rfl⟩
  have executed : (dataqueueMachine.execute start actions).map (fun result =>
      (result.1.queue.isEmpty, result.1.queue.suspendedPushList, result.1.queue.stored,
        result.1.queue.waitingLwm)) = some (true, [1], 0, false) := by
    rw [isActions, isStart]
    decide +kernel
  have phases : ∀ thread, (dataqueueMachine.execute start actions).map (fun result =>
      (result.1.phase thread).isWoken) = some false := by
    rintro (_ | _ | thread) <;> rw [isActions, isStart] <;> rfl
  obtain ⟨⟨system, events⟩, result, queue⟩ := Option.map_eq_some_iff.mp executed
  obtain ⟨empty, pushers, stored, mark⟩ : system.queue.isEmpty = true ∧
      system.queue.suspendedPushList = [1] ∧ system.queue.stored = 0 ∧
        system.queue.waitingLwm = false := by simpa using queue
  have run := @Machine.run_of_execute _ _ _ _ (fun _ _ => True) _ _ _ _
    (fun _ _ _ => trivial) result
  rw [← isStart]
  refine ⟨_, _, _, run, fun thread => ?_, empty, fun kept => ?_⟩
  · have phase := phases thread
    rw [result] at phase
    simpa using phase
  · have high := kept.pushers 1 (by rw [pushers]; simp)
    simp [stored, mark] at high

end RtThread
