import RtThread.Drivers.Dataqueue

/-!
# Steps of the data queue

What a push or a pop can do, and which steps make one.
-/

namespace RtThread

open RtThread.Std

namespace DataqueueSystem

/-- What `rt_data_queue_push` does, from where it looks at the queue. -/
inductive Pushes (system : DataqueueSystem) (context : Option ThreadId) (item : DataItem)
    (timeout : Int) : DataqueueSystem → List DataqueueEvent → Prop where
  | refused (full : system.queue.isFull = true) (zero : timeout = 0) :
      Pushes system context item timeout
        (done ⟨{ system.queue with waitingLwm := true }, system.phase⟩ context) [.etimeout]
  | blocked {thread} (full : system.queue.isFull = true) (same : context = some thread) :
      Pushes system context item timeout
        ⟨{ system.queue with
            waitingLwm := true
            suspendedPushList := system.queue.suspendedPushList ++ [thread] },
          Function.update system.phase thread (.pushing item timeout .suspended)⟩ []
  | woke {thread rest} (room : system.queue.isFull = false)
      (waiting : system.queue.suspendedPopList = thread :: rest) :
      Pushes system context item timeout
        ((resume ⟨{ system.queue.store item with suspendedPopList := rest }, system.phase⟩
          thread .resumed).done context) [.pushed item]
  | stored (room : system.queue.isFull = false) (nobody : system.queue.suspendedPopList = []) :
      Pushes system context item timeout
        (done ⟨system.queue.store item, system.phase⟩ context)
        (.pushed item :: system.queue.notify .push)

/-- The queue without its first item. -/
def taken (system : DataqueueSystem) : Dataqueue :=
  { system.queue with getIndex := system.queue.getIndex + 1 }

/-- A pop ends the wait for the low-water mark. -/
def EndsWait (system : DataqueueSystem) : Prop :=
  system.queue.waitingLwm = true ∧ system.taken.difference ≤ system.queue.lwm.toNat

/-- What `rt_data_queue_pop` does, from where it looks at the queue. -/
inductive Pops (system : DataqueueSystem) (context : Option ThreadId) (timeout : Int) :
    DataqueueSystem → List DataqueueEvent → Prop where
  | refused (empty : system.queue.isEmpty = true) (zero : timeout = 0) :
      Pops system context timeout (system.done context) [.etimeout]
  | blocked {thread} (empty : system.queue.isEmpty = true) (same : context = some thread) :
      Pops system context timeout
        ⟨{ system.queue with
            suspendedPopList := system.queue.suspendedPopList ++ [thread] },
          Function.update system.phase thread (.popping timeout .suspended)⟩ []
  | woke {thread rest} (holds : system.queue.isEmpty = false) (low : system.EndsWait)
      (waiting : system.queue.suspendedPushList = thread :: rest) :
      Pops system context timeout
        ((resume ⟨{ system.taken with waitingLwm := false, suspendedPushList := rest },
          system.phase⟩ thread .resumed).done context)
        (.popped system.queue.front :: system.queue.notify .lwm)
  | ended (holds : system.queue.isEmpty = false) (low : system.EndsWait)
      (nobody : system.queue.suspendedPushList = []) :
      Pops system context timeout
        (done ⟨{ system.taken with waitingLwm := false }, system.phase⟩ context)
        (.popped system.queue.front :: system.queue.notify .lwm)
  | took (holds : system.queue.isEmpty = false) (high : ¬ system.EndsWait) :
      Pops system context timeout (done ⟨system.taken, system.phase⟩ context)
        (.popped system.queue.front :: system.queue.notify .pop)

variable {system next : DataqueueSystem} {context : Option ThreadId} {item : DataItem}
  {timeout : Int} {emitted : List DataqueueEvent}

theorem pushes_of_push (step : system.push context item timeout = some (next, emitted)) :
    system.Pushes context item timeout next emitted := by
  unfold push at step
  dsimp only at step
  split at step
  · rename_i full
    split at step
    · rename_i zero
      obtain ⟨rfl, rfl⟩ := Prod.mk.inj (Option.some_inj.mp step)
      exact .refused full zero
    · obtain ⟨thread, rfl, made⟩ := Option.map_eq_some_iff.mp step
      obtain ⟨rfl, rfl⟩ := Prod.mk.inj made
      exact .blocked full rfl
  · rename_i room
    simp only [Bool.not_eq_true] at room
    split at step
    · rename_i thread rest waiting
      obtain ⟨rfl, rfl⟩ := Prod.mk.inj (Option.some_inj.mp step)
      exact .woke room waiting
    · rename_i nobody
      obtain ⟨rfl, rfl⟩ := Prod.mk.inj (Option.some_inj.mp step)
      exact .stored room nobody

theorem pops_of_pop (step : system.pop context timeout = some (next, emitted)) :
    system.Pops context timeout next emitted := by
  unfold pop at step
  dsimp only at step
  split at step
  · rename_i empty
    split at step
    · rename_i zero
      obtain ⟨rfl, rfl⟩ := Prod.mk.inj (Option.some_inj.mp step)
      exact .refused empty zero
    · obtain ⟨thread, rfl, made⟩ := Option.map_eq_some_iff.mp step
      obtain ⟨rfl, rfl⟩ := Prod.mk.inj made
      exact .blocked empty rfl
  · rename_i holds
    simp only [Bool.not_eq_true] at holds
    split at step
    · rename_i low
      split at step
      · rename_i thread rest waiting
        obtain ⟨rfl, rfl⟩ := Prod.mk.inj (Option.some_inj.mp step)
        exact .woke holds low waiting
      · rename_i nobody
        obtain ⟨rfl, rfl⟩ := Prod.mk.inj (Option.some_inj.mp step)
        exact .ended holds low nobody
    · rename_i high
      obtain ⟨rfl, rfl⟩ := Prod.mk.inj (Option.some_inj.mp step)
      exact .took holds high

/-- A thread that looks at the queue has just called or been resumed in this phase. -/
def Calls (system : DataqueueSystem) (context : Option ThreadId) (resumed : DataqueuePhase) :
    Prop :=
  ∀ thread, context = some thread →
    system.phase thread = .idle ∨ system.phase thread = resumed

/-- What a step does. -/
inductive Moves (system : DataqueueSystem) :
    DataqueueAction → DataqueueSystem → List DataqueueEvent → Prop where
  | push {action context item timeout next emitted}
      (calls : system.Calls context (.pushing item timeout .resumed))
      (attempt : action = .push context item timeout ∨ ∃ thread, action = .wake thread ∧
        context = some thread ∧ system.phase thread = .pushing item timeout .resumed)
      (pushes : system.Pushes context item timeout next emitted) :
      Moves system action next emitted
  | pop {action context timeout next emitted}
      (calls : system.Calls context (.popping timeout .resumed))
      (attempt : action = .pop context timeout ∨ ∃ thread, action = .wake thread ∧
        context = some thread ∧ system.phase thread = .popping timeout .resumed)
      (pops : system.Pops context timeout next emitted) :
      Moves system action next emitted
  | expirePush {thread item timeout}
      (blocked : system.phase thread = .pushing item timeout .suspended) :
      Moves system (.expire thread)
        (resume ⟨{ system.queue with
          suspendedPushList := system.queue.suspendedPushList.erase thread }, system.phase⟩
          thread .timedOut) []
  | expirePop {thread timeout}
      (blocked : system.phase thread = .popping timeout .suspended) :
      Moves system (.expire thread)
        (resume ⟨{ system.queue with
          suspendedPopList := system.queue.suspendedPopList.erase thread }, system.phase⟩
          thread .timedOut) []
  | giveUp {thread} (expired : (∃ item timeout, system.phase thread =
        .pushing item timeout .timedOut) ∨ ∃ timeout, system.phase thread =
        .popping timeout .timedOut) :
      Moves system (.wake thread) (system.done (some thread)) [.etimeout]

theorem calls_of_isFree (free : system.isFree context = true) (resumed : DataqueuePhase) :
    system.Calls context resumed := by
  rintro thread rfl
  exact .inl (by simpa [isFree] using free)

theorem moves_of_step {action : DataqueueAction}
    (step : dataqueueMachine.step system action = some (next, emitted)) :
    system.Moves action next emitted := by
  cases action with
  | push context item timeout =>
      obtain ⟨free, step⟩ := Option.ite_none_right_eq_some.mp step
      exact .push (calls_of_isFree free _) (.inl rfl) (pushes_of_push step)
  | pop context timeout =>
      obtain ⟨free, step⟩ := Option.ite_none_right_eq_some.mp step
      exact .pop (calls_of_isFree free _) (.inl rfl) (pops_of_pop step)
  | expire thread =>
      simp only [dataqueueMachine] at step
      split at step
      · rename_i item timeout blocked
        obtain ⟨-, made⟩ := Option.ite_none_right_eq_some.mp step
        obtain ⟨rfl, rfl⟩ := Prod.mk.inj (Option.some_inj.mp made)
        exact .expirePush blocked
      · rename_i timeout blocked
        obtain ⟨-, made⟩ := Option.ite_none_right_eq_some.mp step
        obtain ⟨rfl, rfl⟩ := Prod.mk.inj (Option.some_inj.mp made)
        exact .expirePop blocked
      · cases step
  | wake thread =>
      simp only [dataqueueMachine] at step
      split at step
      · rename_i item timeout resumed
        refine .push ?_ (.inr ⟨thread, rfl, rfl, resumed⟩) (pushes_of_push step)
        rintro other same
        exact .inr (Option.some_inj.mp same ▸ resumed)
      · rename_i timeout resumed
        refine .pop ?_ (.inr ⟨thread, rfl, rfl, resumed⟩) (pops_of_pop step)
        rintro other same
        exact .inr (Option.some_inj.mp same ▸ resumed)
      · rename_i item timeout expired
        obtain ⟨rfl, rfl⟩ := Prod.mk.inj (Option.some_inj.mp step)
        exact .giveUp (.inl ⟨item, timeout, expired⟩)
      · rename_i timeout expired
        obtain ⟨rfl, rfl⟩ := Prod.mk.inj (Option.some_inj.mp step)
        exact .giveUp (.inr ⟨timeout, expired⟩)
      · cases step

@[simp] theorem done_queue : (system.done context).queue = system.queue := by
  cases context <;> rfl

@[simp] theorem resume_queue {thread : ThreadId} {wakeup : Wakeup} :
    (system.resume thread wakeup).queue = system.queue := rfl

end DataqueueSystem

end RtThread
