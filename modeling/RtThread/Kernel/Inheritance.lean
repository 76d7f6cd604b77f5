import RtThread.Kernel.MutexSound

/-!
# Priority inheritance

A mutex raises its owner when a thread begins to wait for it, and gives the
owner its saved priority back when it is released. Here is what each of these
steps must find for two things to stay true: no owner is less urgent than a
thread that waits for it, and a thread without mutexes has its own priority.
-/

namespace RtThread

open RtThread.Std

namespace MutexView

/-- No owner is less urgent than a thread that waits for its mutex. -/
def Inherits (seen : MutexView) : Prop :=
  ∀ mutex owner thread, (seen.mutexes mutex).owner = some owner →
    seen.waits thread = some (.mutex mutex) →
    seen.currentPriority owner ≤ seen.currentPriority thread

def OwnsNothing (seen : MutexView) (thread : ThreadId) : Prop :=
  ∀ mutex, (seen.mutexes mutex).owner ≠ some thread

/-- A thread without mutexes has its own priority. -/
def Restored (seen : MutexView) : Prop :=
  ∀ thread, seen.OwnsNothing thread →
    seen.currentPriority thread = seen.initPriority thread

variable {before after : MutexView}

theorem Inherits.mono (holds : before.Inherits)
    (owner : ∀ mutex, (after.mutexes mutex).owner = (before.mutexes mutex).owner)
    (priority : after.currentPriority = before.currentPriority)
    (waits : ∀ thread mutex, after.waits thread = some (.mutex mutex) →
      before.waits thread = some (.mutex mutex)) : after.Inherits := by
  intro mutex other thread owned waiting
  rw [owner] at owned
  rw [priority]
  exact holds mutex other thread owned (waits thread mutex waiting)

theorem Restored.mono (holds : before.Restored)
    (owner : ∀ mutex thread, (before.mutexes mutex).owner = some thread →
      (after.mutexes mutex).owner = some thread)
    (priority : after.currentPriority = before.currentPriority)
    (base : after.initPriority = before.initPriority) : after.Restored := by
  intro thread nothing
  rw [priority, base]
  exact holds thread fun mutex owned => nothing mutex (owner mutex thread owned)

end MutexView

namespace MutexLabel

/-- The last release of the only mutex of a thread gives it its own priority. -/
def RestoresBase (seen : MutexView) : MutexLabel → Prop
  | .release thread mutex _ => (seen.mutexes mutex).owner = some thread →
      (seen.mutexes mutex).hold - 1#8 = 0#8 →
      (∀ other, other ≠ mutex → (seen.mutexes other).owner ≠ some thread) →
      (seen.mutexes mutex).originalPriority = seen.initPriority thread
  | _ => True

/-- The owner that a take raises does not wait for a less urgent owner. The last
release of a mutex leaves its thread as urgent as the waiters for its other
mutexes, and passes the mutex to a waiter as urgent as the others. -/
def KeepsInheritance (seen : MutexView) : MutexLabel → Prop
  | .take thread mutex time => time ≠ 0#32 → ∀ owner,
      (seen.mutexes mutex).owner = some owner →
      seen.currentPriority thread < seen.currentPriority owner →
      ∀ other upper, seen.waits owner = some (.mutex other) →
        (seen.mutexes other).owner = some upper → upper ≠ owner →
        seen.currentPriority upper ≤ seen.currentPriority thread
  | .release thread mutex front => (seen.mutexes mutex).owner = some thread →
      (seen.mutexes mutex).hold - 1#8 = 0#8 →
      (∀ other waiter, other ≠ mutex → (seen.mutexes other).owner = some thread →
        seen.waits waiter = some (.mutex other) →
        (seen.mutexes mutex).originalPriority ≤ seen.currentPriority waiter) ∧
      ∀ first waiter, front = some first → seen.waits waiter = some (.mutex mutex) →
        seen.currentPriority first ≤ seen.currentPriority waiter
  | .other => True

end MutexLabel

/-- The mutex that a step names. -/
def MutexLabel.mutex : MutexLabel → Option Nat
  | .take _ mutex _ => some mutex
  | .release _ mutex _ => some mutex
  | .other => none

/-! ## One step -/

section

variable {before after : MutexState} {label : MutexLabel} {shown : List MutexNotice}
  {seen : MutexView} {thread : ThreadId} {mutex : Nat} {outcome : Outcome}

/-- A step changes no mutex that it does not name. -/
theorem MutexStep.untouched {other : Nat} (step : MutexStep before label shown after)
    (apart : label.mutex ≠ some other) :
    after.view.mutexes other = before.view.mutexes other := by
  cases step with
  | @take thread mutex _ _ _ isReady isIdle move =>
      have apart' : other ≠ mutex := by simpa [MutexLabel.mutex, eq_comm] using apart
      cases move <;> simp [apart']
  | @release thread mutex _ _ _ isReady isIdle move =>
      have apart' : other ≠ mutex := by simpa [MutexLabel.mutex, eq_comm] using apart
      cases move with
      | refused foreign => rfl
      | nested owned held => simp [apart']
      | last owned unheld pass => cases pass <;> simp [apart']
  | elapse elapses => rw [elapses.mutexes]
  | _ => rfl

theorem TakeMove.inherits {time : BitVec 32} (sound : MutexSound before)
    (holds : before.view.Inherits)
    (keeps : (MutexLabel.take thread mutex time).KeepsInheritance before.view)
    (move : TakeMove thread mutex time before.view seen outcome) : seen.Inherits := by
  cases move with
  | nested owned =>
      refine holds.mono ?_ rfl fun _ _ => id
      intro other
      by_cases same : other = mutex <;> simp [same]
  | free foreign available =>
      obtain ⟨-, -, -, nobody⟩ := sound.free_of_available available
      intro other owner waiter owned waiting
      have apart : other ≠ mutex := by
        rintro rfl
        exact nobody waiter waiting
      exact holds other owner waiter (by simpa [apart] using owned) waiting
  | refused foreign taken unwilling => exact holds.mono (fun _ => rfl) rfl fun _ _ => id
  | waits owner owned foreign taken willing timer =>
      intro other upper waiter owned' waiting
      by_cases self : waiter = thread
      · obtain rfl : mutex = other := by simpa [self] using waiting
        obtain rfl : owner = upper := Option.some_inj.mp (owned.symm.trans owned')
        simp [self, Ne.symm foreign]
      · have waiting' : before.view.waits waiter = some (.mutex other) := by
          simpa [self] using waiting
        have below := holds other upper waiter owned' waiting'
        by_cases raised : upper = owner
        · subst raised
          by_cases same : waiter = upper
          · rw [same]
          · simp only [MutexView.setWaits_currentPriority, MutexView.setStat_currentPriority,
              MutexView.raise_currentPriority, MutexView.setError_currentPriority,
              Function.update_self, Function.update_of_ne same]
            omega
        · by_cases same : waiter = owner
          · subst same
            have chain : before.view.currentPriority upper ≤
                min (before.view.currentPriority waiter) (before.view.currentPriority thread) := by
              rw [Nat.le_min]
              refine ⟨below, ?_⟩
              by_cases higher : before.view.currentPriority thread <
                  before.view.currentPriority waiter
              · exact keeps willing waiter owned higher other upper waiting' owned' raised
              · omega
            simpa [raised] using chain
          · simpa [raised, same] using below

theorem PassMove.inherits {front : Option ThreadId} (holds : ∀ other owner waiter,
      other ≠ mutex → (seen.mutexes other).owner = some owner →
      seen.waits waiter = some (.mutex other) →
      seen.currentPriority owner ≤ seen.currentPriority waiter)
    (first : ∀ first waiter, front = some first → seen.waits first = some (.mutex mutex) →
      seen.waits waiter = some (.mutex mutex) →
      seen.currentPriority first ≤ seen.currentPriority waiter)
    {after : MutexView} (move : PassMove mutex front seen after outcome) : after.Inherits := by
  intro other owner waiter owned waiting
  cases move with
  | frees nobody =>
      have apart : other ≠ mutex := by
        rintro rfl
        exact nobody waiter waiting
      exact holds other owner waiter apart (by simpa [apart] using owned) waiting
  | hands next isFirst waited =>
      have still : waiter ≠ next := by
        rintro rfl
        simp at waiting
      have waiting' : seen.waits waiter = some (.mutex other) := by
        simpa [still] using waiting
      by_cases same : other = mutex
      · subst same
        obtain rfl : next = owner := by simpa using owned
        exact first next waiter isFirst waited waiting'
      · exact holds other owner waiter same (by simpa [same] using owned) waiting'

theorem ReleaseMove.inherits {front : Option ThreadId} (sound : MutexSound before)
    (isReady : before.view.stat thread = .ready) (holds : before.view.Inherits)
    (keeps : (MutexLabel.release thread mutex front).KeepsInheritance before.view)
    (move : ReleaseMove thread mutex front before.view seen outcome) : seen.Inherits := by
  cases move with
  | refused foreign => exact holds.mono (fun _ => rfl) rfl fun _ _ => id
  | nested owned held =>
      refine holds.mono ?_ rfl fun _ _ => id
      intro other
      by_cases same : other = mutex <;> simp [same]
  | last owned unheld pass =>
      obtain ⟨others, first⟩ := keeps owned unheld
      have awake : ∀ waiter other, before.view.waits waiter = some (.mutex other) →
          waiter ≠ thread := by
        rintro waiter other waiting rfl
        exact sound.not_waiting (by simp [isReady]) _ waiting
      refine pass.inherits ?_ ?_
      · intro other owner waiter apart owned' waiting
        have owner' : (before.view.mutexes other).owner = some owner := by
          simpa [apart] using owned'
        by_cases same : owner = thread
        · subst same
          simpa [awake waiter other waiting] using others other waiter apart owner' waiting
        · simpa [awake waiter other waiting, same] using holds other owner waiter owner' waiting
      · intro next waiter isFirst waited waiting
        simpa [awake next mutex waited, awake waiter mutex waiting]
          using first next waiter isFirst waiting

/-- No step that meets its condition brings a priority inversion. -/
theorem MutexStep.inherits (step : MutexStep before label shown after)
    (sound : MutexSound before) (holds : before.view.Inherits)
    (keeps : label.KeepsInheritance before.view) : after.view.Inherits := by
  cases step with
  | take isReady isIdle move => exact move.inherits sound holds keeps
  | release isReady isIdle move => exact move.inherits sound isReady holds keeps
  | sleep isReady isIdle => exact holds.mono (fun _ => rfl) rfl fun _ _ => id
  | finishTake isReady during => exact holds
  | finishRelease during => exact holds
  | finishSleep result during => exact holds.mono (fun _ => rfl) rfl fun _ _ => id
  | @start thread isInit =>
      intro mutex owner waiter owned waiting
      have started : owner ≠ thread := by
        rintro rfl
        exact sound.owners mutex owner owned isInit
      have awake : waiter ≠ thread := by
        rintro rfl
        exact nomatch isInit.symm.trans (sound.waiting waiter _ waiting)
      simpa [started, awake] using holds mutex owner waiter owned waiting
  | elapse elapses =>
      refine holds.mono (fun mutex => by rw [elapses.mutexes]) elapses.currentPriority ?_
      intro thread mutex waiting
      rcases elapses.thread thread with ⟨-, -, same⟩ | ⟨-, -, -, nowhere⟩
      · exact same.symm.trans waiting
      · exact nomatch nowhere.symm.trans waiting

/-- A take that begins to wait keeps inheritance only if it meets its condition. -/
theorem TakeMove.keeps {time : BitVec 32} (sound : MutexSound before)
    (move : TakeMove thread mutex time before.view seen outcome) (holds : seen.Inherits) :
    (MutexLabel.take thread mutex time).KeepsInheritance before.view := by
  intro willing owner owned higher other upper waiting owned' apart
  have foreign : owner ≠ thread := by
    rintro rfl
    exact absurd higher (Nat.lt_irrefl _)
  cases move with
  | nested own => exact absurd (Option.some_inj.mp (owned.symm.trans own)) foreign
  | free foreign available => exact absurd (sound.value_of_owned owned) available
  | refused foreign taken unwilling => exact absurd unwilling willing
  | waits owner' own foreign' taken willing timer =>
      obtain rfl : owner = owner' := Option.some_inj.mp (owned.symm.trans own)
      have below := holds other upper owner owned' (by simpa [foreign] using waiting)
      have least : min (before.view.currentPriority owner) (before.view.currentPriority thread) =
          before.view.currentPriority thread := Nat.min_eq_right (Nat.le_of_lt higher)
      simpa [apart, least] using below

/-- So does a last release. -/
theorem ReleaseMove.keeps {front : Option ThreadId} (sound : MutexSound before)
    (isReady : before.view.stat thread = .ready)
    (move : ReleaseMove thread mutex front before.view seen outcome) (holds : seen.Inherits) :
    (MutexLabel.release thread mutex front).KeepsInheritance before.view := by
  intro owned unheld
  have awake : ∀ waiter other, before.view.waits waiter = some (.mutex other) →
      waiter ≠ thread := by
    rintro waiter other waiting rfl
    exact sound.not_waiting (by simp [isReady]) _ waiting
  cases move with
  | refused foreign => exact absurd owned foreign
  | nested own held => exact absurd unheld held
  | last own unheld pass =>
      cases pass with
      | frees nobody =>
          refine ⟨?_, fun _ waiter _ waiting => absurd waiting (nobody waiter)⟩
          intro other waiter apart owned' waiting
          simpa [awake waiter other waiting] using
            holds other thread waiter (by simpa [apart] using owned') waiting
      | hands next isFirst waited =>
          have waited' : before.view.waits next = some (.mutex mutex) := waited
          constructor
          · intro other waiter apart owned' waiting
            have still : waiter ≠ next := by
              rintro rfl
              simp [waiting, apart] at waited'
            simpa [awake waiter other waiting, still] using
              holds other thread waiter (by simpa [apart] using owned')
                (by simpa [still] using waiting)
          · intro first waiter isFirst' waiting
            obtain rfl : next = first := Option.some_inj.mp (isFirst.symm.trans isFirst')
            by_cases same : waiter = next
            · rw [same]
            · simpa [awake waiter mutex waiting, awake next mutex waited'] using
                holds mutex next waiter (by simp) (by simpa [same] using waiting)

theorem MutexStep.inherits_iff (step : MutexStep before label shown after)
    (sound : MutexSound before) (holds : before.view.Inherits) :
    after.view.Inherits ↔ label.KeepsInheritance before.view := by
  refine ⟨?_, step.inherits sound holds⟩
  intro holds'
  cases step with
  | take isReady isIdle move => exact move.keeps sound holds'
  | release isReady isIdle move => exact move.keeps sound isReady holds'
  | _ => trivial

theorem TakeMove.restored {time : BitVec 32} (sound : MutexSound before)
    (holds : before.view.Restored)
    (move : TakeMove thread mutex time before.view seen outcome) : seen.Restored := by
  cases move with
  | nested owned =>
      refine holds.mono ?_ rfl rfl
      intro other owner owned'
      by_cases same : other = mutex
      · subst same
        simpa using owned'
      · simpa [same] using owned'
  | free foreign available =>
      obtain ⟨-, unowned, -, -⟩ := sound.free_of_available available
      refine holds.mono ?_ rfl rfl
      intro other owner owned
      have apart : other ≠ mutex := by
        rintro rfl
        exact nomatch unowned.symm.trans owned
      simpa [apart] using owned
  | refused foreign taken unwilling => exact holds.mono (fun _ _ => id) rfl rfl
  | waits owner owned foreign taken willing timer =>
      intro other nothing
      have apart : other ≠ owner := by
        rintro rfl
        exact nothing mutex owned
      simpa [apart] using holds other nothing

theorem ReleaseMove.restored {front : Option ThreadId} {after : MutexView} (holds : seen.Restored)
    (restores : (MutexLabel.release thread mutex front).RestoresBase seen)
    (move : ReleaseMove thread mutex front seen after outcome) : after.Restored := by
  cases move with
  | refused foreign => exact holds.mono (fun _ _ => id) rfl rfl
  | nested owned held =>
      refine holds.mono ?_ rfl rfl
      intro other owner owned'
      by_cases same : other = mutex
      · subst same
        simpa using owned'
      · simpa [same] using owned'
  | last owned unheld pass =>
      intro other nothing
      have elsewhere : ∀ another, another ≠ mutex →
          (seen.mutexes another).owner ≠ some other := by
        intro another apart owned'
        refine nothing another ?_
        cases pass with
        | frees nobody => simpa [apart] using owned'
        | hands waiter first waiting => simpa [apart] using owned'
      have priority : after.currentPriority other =
          if other = thread then (seen.mutexes mutex).originalPriority
          else seen.currentPriority other := by
        cases pass <;> by_cases same : other = thread <;> simp [same]
      have base : after.initPriority = seen.initPriority := by
        cases pass <;> rfl
      rw [priority, base]
      by_cases same : other = thread
      · subst same
        simpa using restores owned unheld elsewhere
      · have foreign : (seen.mutexes mutex).owner ≠ some other := by
          rw [owned]
          simpa using Ne.symm same
        rw [if_neg same]
        refine holds other fun another owned' => ?_
        by_cases there : another = mutex
        · exact foreign (there ▸ owned')
        · exact elsewhere another there owned'

/-- No step that meets its condition leaves a thread without mutexes raised. -/
theorem MutexStep.restored (step : MutexStep before label shown after)
    (sound : MutexSound before) (holds : before.view.Restored)
    (restores : label.RestoresBase before.view) : after.view.Restored := by
  cases step with
  | take isReady isIdle move => exact move.restored sound holds
  | release isReady isIdle move => exact move.restored holds restores
  | sleep isReady isIdle => exact holds.mono (fun _ _ => id) rfl rfl
  | finishTake isReady during => exact holds
  | finishRelease during => exact holds
  | finishSleep result during => exact holds.mono (fun _ _ => id) rfl rfl
  | @start thread isInit =>
      intro other nothing
      by_cases same : other = thread
      · simp [same]
      · simpa [same] using holds other nothing
  | elapse elapses =>
      exact holds.mono (fun mutex thread => by rw [elapses.mutexes]; exact id)
        elapses.currentPriority elapses.initPriority

/-- The last release of the only mutex of a thread restores it only if it meets
its condition. -/
theorem ReleaseMove.restores {front : Option ThreadId} (sound : MutexSound before)
    (isReady : before.view.stat thread = .ready)
    (move : ReleaseMove thread mutex front before.view seen outcome) (holds : seen.Restored) :
    (MutexLabel.release thread mutex front).RestoresBase before.view := by
  intro owned unheld elsewhere
  cases move with
  | refused foreign => exact absurd owned foreign
  | nested own held => exact absurd unheld held
  | last own unheld pass =>
      cases pass with
      | frees nobody =>
          refine (Function.update_self ..).symm.trans (holds thread fun other owned' => ?_)
          by_cases same : other = mutex
          · simp [same] at owned'
          · exact elsewhere other same (by simpa [same] using owned')
      | hands next isFirst waited =>
          have apart : next ≠ thread := by
            rintro rfl
            exact sound.not_waiting (by simp [isReady]) _ waited
          refine (Function.update_self ..).symm.trans (holds thread fun other owned' => ?_)
          by_cases same : other = mutex
          · simp [same, apart] at owned'
          · exact elsewhere other same (by simpa [same] using owned')

theorem MutexStep.restored_iff (step : MutexStep before label shown after)
    (sound : MutexSound before) (holds : before.view.Restored) :
    after.view.Restored ↔ label.RestoresBase before.view := by
  refine ⟨?_, step.restored sound holds⟩
  intro holds'
  cases step with
  | release isReady isIdle move => exact move.restores sound isReady holds'
  | _ => trivial

end

/-! ## Every run -/

/-- The thread is suspended on the list. -/
def Kernel.WaitsOn (kernel : Kernel) (thread : ThreadId) (list : WaitList) : Prop :=
  (kernel.threads thread).stat = .suspend ∧ kernel.threadLinks.Linked (.wait list) (.tlist thread)

theorem WaitInv.waitsOn_iff {kernel : Kernel} {home : ThreadId → Option ThreadNode}
    (inv : WaitInv kernel home) {thread : ThreadId} {list : WaitList} :
    kernel.WaitsOn thread list ↔ (view kernel home).waits thread = some list := by
  unfold Kernel.WaitsOn view
  rw [inv.linked_iff (ThreadNode.isHead_wait list), suspendList_eq_some]
  constructor
  · exact And.right
  · exact fun there => ⟨inv.waiting thread list there, there⟩

/-- No owner is less urgent than a thread that is suspended on its mutex. -/
def InheritsPriority (kernel : Kernel) : Prop :=
  ∀ mutex owner thread, (kernel.mutexes mutex).owner = some owner →
    kernel.WaitsOn thread (.mutex mutex) →
    (kernel.threads owner).currentPriority ≤ (kernel.threads thread).currentPriority

/-- Every thread that owns no mutex has the priority it was started with. -/
def RestoresPriority (kernel : Kernel) : Prop :=
  ∀ thread, (∀ mutex, (kernel.mutexes mutex).owner ≠ some thread) →
    (kernel.threads thread).currentPriority = (kernel.threads thread).initPriority

/-- When a thread that is about to wait raises the owner, the owner does not wait
for a mutex whose owner is less urgent than the thread. The last release of a
mutex finds a saved priority as urgent as the waiters for the other mutexes of
the thread, and the first waiter as urgent as the others. -/
def KeepsInheritance (system : System) : Action → Prop
  | .enter (.thread thread) (.mutexTake mutex time) => time ≠ 0#32 → ∀ owner,
      (system.kernel.mutexes mutex).owner = some owner →
      (system.kernel.threads thread).currentPriority <
        (system.kernel.threads owner).currentPriority →
      ∀ other upper, system.kernel.WaitsOn owner (.mutex other) →
        (system.kernel.mutexes other).owner = some upper → upper ≠ owner →
        (system.kernel.threads upper).currentPriority ≤
          (system.kernel.threads thread).currentPriority
  | .enter (.thread thread) (.mutexRelease mutex) =>
      (system.kernel.mutexes mutex).owner = some thread →
      (system.kernel.mutexes mutex).hold - 1#8 = 0#8 →
      (∀ other waiter, other ≠ mutex → (system.kernel.mutexes other).owner = some thread →
        system.kernel.WaitsOn waiter (.mutex other) →
        (system.kernel.mutexes mutex).originalPriority ≤
          (system.kernel.threads waiter).currentPriority) ∧
      ∀ first waiter, frontWaiter system.kernel mutex = some first →
        system.kernel.WaitsOn waiter (.mutex mutex) →
        (system.kernel.threads first).currentPriority ≤
          (system.kernel.threads waiter).currentPriority
  | _ => True

/-- The last release of the only mutex of a thread finds the priority of the
thread saved in it. -/
def RestoresBase (system : System) : Action → Prop
  | .enter (.thread thread) (.mutexRelease mutex) =>
      (system.kernel.mutexes mutex).owner = some thread →
      (system.kernel.mutexes mutex).hold - 1#8 = 0#8 →
      (∀ other, other ≠ mutex → (system.kernel.mutexes other).owner ≠ some thread) →
      (system.kernel.mutexes mutex).originalPriority =
        (system.kernel.threads thread).initPriority
  | _ => True

namespace Refines

variable {system : System} {state : MutexState} {action : Action}

theorem inheritsPriority_iff (refines : Refines system state) :
    InheritsPriority system.kernel ↔ state.view.Inherits := by
  obtain ⟨home, waits, seen⟩ := refines.seen
  simp only [InheritsPriority, waits.waitsOn_iff]
  rw [seen]
  exact Iff.rfl

theorem restoresPriority_iff (refines : Refines system state) :
    RestoresPriority system.kernel ↔ state.view.Restored := by
  obtain ⟨home, waits, seen⟩ := refines.seen
  rw [seen]
  exact Iff.rfl

theorem keepsInheritance_iff (refines : Refines system state) :
    KeepsInheritance system action ↔
      (action.onMutex system.kernel).KeepsInheritance state.view := by
  obtain ⟨home, waits, seen⟩ := refines.seen
  rw [seen]
  unfold KeepsInheritance
  split
  · simp only [waits.waitsOn_iff]
    exact Iff.rfl
  · simp only [waits.waitsOn_iff]
    exact Iff.rfl
  · rename_i notTake notRelease
    rw [Action.onMutex_other notTake notRelease]
    exact Iff.rfl

theorem restoresBase_iff (refines : Refines system state) :
    RestoresBase system action ↔ (action.onMutex system.kernel).RestoresBase state.view := by
  obtain ⟨home, waits, seen⟩ := refines.seen
  rw [seen]
  unfold RestoresBase Action.onMutex
  split
  · exact Iff.rfl
  · rename_i notRelease
    split
    · exact Iff.rfl
    · exact absurd rfl (notRelease _ _)
    · exact Iff.rfl

end Refines

/-- A mutex that no step of a run names stays as it was. -/
theorem untouched_mutex {config : Config} {actions : List Action} {notices : List Notice}
    {system : System} {mutex : Nat}
    (success : systemMachine.execute (System.boot config) actions = some (system, notices))
    (others : ∀ action ∈ actions,
      MutexCalls action ∧ ∀ kernel, (action.onMutex kernel).mutex ≠ some mutex) :
    system.kernel.mutexes mutex = config.initMutex mutex := by
  have run : systemMachine.Run (fun _ action =>
      MutexCalls action ∧ ∀ kernel, (action.onMutex kernel).mutex ≠ some mutex)
      (System.boot config) actions notices system :=
    Machine.run_of_execute (fun action member _ => others action member) success
  obtain ⟨state, refines, same⟩ := @Refines.of_run config _
    (fun _ state => state.view.mutexes mutex = config.initMutex mutex) actions notices system run
    (fun _ _ admitted => admitted.1) rfl
    fun _ _ _ _ _ _ _ same refines admitted label step =>
      (step.untouched (label ▸ admitted.2 _)).trans same
  obtain ⟨home, waits, seen⟩ := refines.seen
  rw [seen] at same
  exact same

/-- In every run whose steps keep inheritance, no thread waits for a mutex whose
owner is less urgent than itself, and the next step keeps it so exactly when it
meets the condition. -/
theorem inherits_priority {config : Config} {actions : List Action} {notices : List Notice}
    {system : System}
    (run : systemMachine.Run
      (fun system action => MutexCalls action ∧ KeepsInheritance system action)
      (System.boot config) actions notices system) :
    InheritsPriority system.kernel ∧ ∀ action next emitted, MutexCalls action →
      systemMachine.step system action = some (next, emitted) →
      (InheritsPriority next.kernel ↔ KeepsInheritance system action) := by
  obtain ⟨state, refines, sound, holds⟩ := @Refines.of_run config _
    (fun _ state => MutexSound state ∧ state.view.Inherits) actions notices system run
    (fun _ _ admitted => admitted.1) ⟨.initial config, fun _ _ _ owned => nomatch owned⟩
    fun _ _ _ _ _ _ _ kept refines admitted label step =>
      ⟨kept.1.step step,
        step.inherits kept.1 kept.2 (label ▸ refines.keepsInheritance_iff.mp admitted.2)⟩
  refine ⟨refines.inheritsPriority_iff.mpr holds, ?_⟩
  intro action next emitted mutexCalls step
  obtain ⟨state', moved, refines'⟩ := refines.step mutexCalls step
  rw [refines'.inheritsPriority_iff, refines.keepsInheritance_iff]
  exact moved.inherits_iff sound holds

/-- In every run whose last releases find the base priority saved, each thread
without mutexes has the priority it was started with, and the next step keeps it
so exactly when it meets the condition. -/
theorem restores_priority {config : Config} {actions : List Action} {notices : List Notice}
    {system : System}
    (run : systemMachine.Run (fun system action => MutexCalls action ∧ RestoresBase system action)
      (System.boot config) actions notices system) :
    RestoresPriority system.kernel ∧ ∀ action next emitted, MutexCalls action →
      systemMachine.step system action = some (next, emitted) →
      (RestoresPriority next.kernel ↔ RestoresBase system action) := by
  obtain ⟨state, refines, sound, holds⟩ := @Refines.of_run config _
    (fun _ state => MutexSound state ∧ state.view.Restored) actions notices system run
    (fun _ _ admitted => admitted.1) ⟨.initial config, fun _ _ => rfl⟩
    fun _ _ _ _ _ _ _ kept refines admitted label step =>
      ⟨kept.1.step step,
        step.restored kept.1 kept.2 (label ▸ refines.restoresBase_iff.mp admitted.2)⟩
  refine ⟨refines.restoresPriority_iff.mpr holds, ?_⟩
  intro action next emitted mutexCalls step
  obtain ⟨state', moved, refines'⟩ := refines.step mutexCalls step
  rw [refines'.restoresPriority_iff, refines.restoresBase_iff]
  exact moved.restored_iff sound holds

/-- Three threads of different priorities above the others. -/
def threePriorities : Config :=
  { Config.plain with
    priority := fun thread =>
      if thread = 0 then 25 else if thread = 1 then 20 else if thread = 2 then 5 else 31
    priority_lt := by
      intro thread
      repeat' split
      all_goals decide }

/-- Thread 0 holds mutex 0; thread 2 waits for it. -/
def contendedTake : List Action :=
  [.threadStartup 0, .threadStartup 3, .schedulerStart,
    .enter (.thread 0) (.mutexTake 0 0xffffffff), .threadStartup 2,
    .enter (.thread 2) (.mutexTake 0 0xffffffff), .advance (.thread 2)]

/-- No thread releases a mutex, and no take raises a suspended owner. -/
def raisesAwake (system : System) : Action → Bool
  | .enter (.thread _) (.mutexTake mutex _) =>
    (system.kernel.mutexes mutex).owner.all fun owner =>
      (system.kernel.threads owner).stat ≠ .suspend
  | .enter (.thread _) (.mutexRelease _) => false
  | _ => true

theorem keepsInheritance_of_raisesAwake {system : System} {action : Action}
    (raises : raisesAwake system action = true) : KeepsInheritance system action := by
  unfold KeepsInheritance
  split
  · rename_i thread mutex time
    intro willing owner owned higher other upper waiting
    have awake : (system.kernel.threads owner).stat ≠ .suspend := by
      simpa [raisesAwake, owned] using raises
    exact absurd waiting.1 awake
  · cases raises
  · trivial

theorem inherits_priority_contended :
    ∃ system notices, systemMachine.execute (System.boot threePriorities) contendedTake =
        some (system, notices) ∧ (system.kernel.threads 0).currentPriority = 5 ∧
      InheritsPriority system.kernel := by
  have final : ((systemMachine.restrict fun system action =>
      MutexCalls action ∧ raisesAwake system action = true).execute
        (System.boot threePriorities) contendedTake).map
          (fun (system, _) => (system.kernel.threads 0).currentPriority) = some 5 := by
    decide +kernel
  obtain ⟨⟨system, notices⟩, restricted, raised⟩ := Option.map_eq_some_iff.mp final
  have run := (Machine.run_of_execute_restrict restricted).mono fun _ _ admitted =>
    And.intro admitted.1 (keepsInheritance_of_raisesAwake admitted.2)
  exact ⟨system, notices, Machine.execute_of_restrict restricted, raised,
    (inherits_priority run).1⟩

/-- Thread 2 waits for mutex 0 behind thread 1, to which thread 0 passes it. -/
def passedOver : List Action :=
  [.threadStartup 0, .threadStartup 3, .schedulerStart,
    .enter (.thread 0) (.mutexTake 0 0xffffffff), .threadStartup 1,
    .enter (.thread 1) (.mutexTake 0 0xffffffff), .advance (.thread 1), .threadStartup 2,
    .enter (.thread 2) (.mutexTake 0 0xffffffff), .advance (.thread 2),
    .enter (.thread 0) (.mutexRelease 0)]

/-- The new owner keeps its priority although a more urgent thread waits for it. -/
theorem inverted_after_release :
    ∃ system notices, systemMachine.execute (System.boot threePriorities) passedOver =
        some (system, notices) ∧ ¬ InheritsPriority system.kernel := by
  have final : (systemMachine.execute (System.boot threePriorities) passedOver).map
      (fun (system, _) => ((system.kernel.mutexes 0).owner,
        (system.kernel.threads 1).currentPriority, (system.kernel.threads 2).currentPriority,
        (system.kernel.threads 2).stat,
        system.kernel.threadLinks.next (.wait (.mutex 0)))) =
      some (some 1, 20, 5, .suspend, .tlist 2) := by decide +kernel
  obtain ⟨⟨system, notices⟩, success, values⟩ := Option.map_eq_some_iff.mp final
  simp only [Prod.mk.injEq] at values
  obtain ⟨owned, low, high, suspended, front⟩ := values
  refine ⟨system, notices, success, ?_⟩
  intro inherits
  have waiting : system.kernel.WaitsOn 2 (.mutex 0) := by
    refine ⟨suspended, 1, by decide, by simp [front], ?_⟩
    intro before positive small
    obtain rfl : before = 1 := by omega
    simp [front]
  have below := inherits 0 1 2 owned waiting
  omega

/-- Every release finds the priority of its thread saved. -/
def releasesUnraised (system : System) : Action → Bool
  | .enter (.thread thread) (.mutexRelease mutex) =>
    (system.kernel.mutexes mutex).originalPriority =
      (system.kernel.threads thread).initPriority
  | _ => true

theorem restoresBase_of_releasesUnraised {system : System} {action : Action}
    (releases : releasesUnraised system action = true) : RestoresBase system action := by
  unfold RestoresBase
  split
  · intro owned unheld only
    simpa [releasesUnraised] using releases
  · trivial

theorem restores_priority_contended :
    ∃ system notices, systemMachine.execute (System.boot threePriorities)
        (contendedTake ++ [.enter (.thread 0) (.mutexRelease 0)]) = some (system, notices) ∧
      (system.kernel.threads 0).currentPriority = 25 ∧ RestoresPriority system.kernel := by
  have final : ((systemMachine.restrict fun system action =>
      MutexCalls action ∧ releasesUnraised system action = true).execute
        (System.boot threePriorities)
        (contendedTake ++ [.enter (.thread 0) (.mutexRelease 0)])).map
          (fun (system, _) => (system.kernel.threads 0).currentPriority) = some 25 := by
    decide +kernel
  obtain ⟨⟨system, notices⟩, restricted, restored⟩ := Option.map_eq_some_iff.mp final
  have run := (Machine.run_of_execute_restrict restricted).mono fun _ _ admitted =>
    And.intro admitted.1 (restoresBase_of_releasesUnraised admitted.2)
  exact ⟨system, notices, Machine.execute_of_restrict restricted, restored,
    (restores_priority run).1⟩

/-- Thread 0 releases mutex 0 between its take and its release of mutex 1. -/
def overlappingTakes : List Action :=
  contendedTake ++
    [.enter (.thread 0) (.mutexTake 1 0xffffffff), .enter (.thread 0) (.mutexRelease 0),
      .advance (.thread 0), .advance (.thread 2), .enter (.thread 2) (.mutexTake 1 0xffffffff),
      .advance (.thread 2), .advance (.thread 0), .enter (.thread 0) (.mutexRelease 1)]

/-- It took mutex 1 with the priority of thread 2, which it still has after both
releases. -/
theorem raised_without_mutex :
    ∃ system notices, systemMachine.execute (System.boot threePriorities) overlappingTakes =
        some (system, notices) ∧ ¬ RestoresPriority system.kernel := by
  have final : (systemMachine.execute (System.boot threePriorities) overlappingTakes).map
      (fun (system, _) => ((system.kernel.threads 0).currentPriority,
        (system.kernel.threads 0).initPriority, (system.kernel.mutexes 0).owner,
        (system.kernel.mutexes 1).owner)) = some (5, 25, some 2, some 2) := by decide +kernel
  obtain ⟨⟨system, notices⟩, success, values⟩ := Option.map_eq_some_iff.mp final
  simp only [Prod.mk.injEq] at values
  obtain ⟨raised, base, first, second⟩ := values
  refine ⟨system, notices, success, ?_⟩
  intro restored
  have nothing : ∀ mutex, (system.kernel.mutexes mutex).owner ≠ some 0 := by
    intro mutex
    by_cases isFirst : mutex = 0
    · simp [isFirst, first]
    by_cases isSecond : mutex = 1
    · simp [isSecond, second]
    rw [untouched_mutex success (by
      simp [overlappingTakes, contendedTake, MutexCalls, Action.onMutex, MutexLabel.mutex,
        Ne.symm isFirst, Ne.symm isSecond])]
    nofun
  have same := restored 0 nothing
  omega

end RtThread
