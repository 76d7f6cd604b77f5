import RtThread.Kernel.WaitTicks

/-!
# What mutexes are about

`MutexView` is all that ownership, inheritance and hand-off depend on: the
state, error and priorities of each thread, the suspend list it is on, and the
mutex records. The sections of `rt_mutex_take` and `rt_mutex_release` are simple
moves on it, whatever the lists and timers underneath look like.
-/

namespace RtThread

open RtThread.Std

structure MutexView where
  stat : ThreadId → ThreadStat
  error : ThreadId → Err
  currentPriority : ThreadId → Nat
  initPriority : ThreadId → Nat
  waits : ThreadId → Option WaitList
  mutexes : Nat → Mutex

/-- The suspend list that a home is, if it is one. -/
def suspendList : Option ThreadNode → Option WaitList
  | some (.wait list) => some list
  | _ => none

@[simp] theorem suspendList_wait (list : WaitList) :
    suspendList (some (.wait list)) = some list := rfl

@[simp] theorem suspendList_ready (priority : Nat) :
    suspendList (some (.ready priority)) = none := rfl

theorem suspendList_eq_some {place : Option ThreadNode} {list : WaitList} :
    suspendList place = some list ↔ place = some (.wait list) := by
  cases place with
  | none => simp [suspendList]
  | some node => cases node <;> simp [suspendList]

/-- The thread that is first in line for a mutex. -/
def frontWaiter (kernel : Kernel) (mutex : Nat) : Option ThreadId :=
  match threadEntry (kernel.threadLinks.next (.wait (.mutex mutex))) with
  | .thread thread => some thread
  | _ => none

/-- The view of a kernel whose threads are at `home`. -/
def view (kernel : Kernel) (home : ThreadId → Option ThreadNode) : MutexView where
  stat thread := (kernel.threads thread).stat
  error thread := (kernel.threads thread).error
  currentPriority thread := (kernel.threads thread).currentPriority
  initPriority thread := (kernel.threads thread).initPriority
  waits thread := suspendList (home thread)
  mutexes := kernel.mutexes

namespace MutexView

@[simps] def setStat (before : MutexView) (thread : ThreadId) (stat : ThreadStat) : MutexView :=
  { before with stat := Function.update before.stat thread stat }

@[simps] def setError (before : MutexView) (thread : ThreadId) (result : Err) : MutexView :=
  { before with error := Function.update before.error thread result }

@[simps] def setPriority (before : MutexView) (thread : ThreadId) (priority : Nat) : MutexView :=
  { before with currentPriority := Function.update before.currentPriority thread priority }

@[simps] def setWaits (before : MutexView) (thread : ThreadId) (list : Option WaitList) :
    MutexView :=
  { before with waits := Function.update before.waits thread list }

@[simps] def setMutex (before : MutexView) (mutex : Nat) (record : Mutex) : MutexView :=
  { before with mutexes := Function.update before.mutexes mutex record }

/-- Raise `owner` to the priority of `thread` if that is higher. -/
@[simps!] def raise (before : MutexView) (owner thread : ThreadId) : MutexView :=
  before.setPriority owner
    (min (before.currentPriority owner) (before.currentPriority thread))

end MutexView

/-! ## The moves -/

/-- What the first section of `rt_mutex_take` by `thread` does. -/
inductive TakeMove (thread : ThreadId) (mutex : Nat) (time : BitVec 32) (before : MutexView) :
    MutexView → Outcome → Prop where
  /-- The thread already owns the mutex. -/
  | nested (owned : (before.mutexes mutex).owner = some thread) :
      TakeMove thread mutex time before
        ((before.setError thread .eok).setMutex mutex
          { before.mutexes mutex with hold := (before.mutexes mutex).hold + 1#8 })
        (.returns .eok none)
  /-- The mutex is free. -/
  | free (foreign : (before.mutexes mutex).owner ≠ some thread)
      (available : (before.mutexes mutex).value ≠ 0#16) :
      TakeMove thread mutex time before
        ((before.setError thread .eok).setMutex mutex
          { before.mutexes mutex with
            value := (before.mutexes mutex).value - 1#16
            owner := some thread
            originalPriority := before.currentPriority thread
            hold := (before.mutexes mutex).hold + 1#8 })
        (.returns .eok none)
  /-- The mutex is taken and the caller does not want to wait. -/
  | refused (foreign : (before.mutexes mutex).owner ≠ some thread)
      (taken : (before.mutexes mutex).value = 0#16) (unwilling : time = 0#32) :
      TakeMove thread mutex time before (before.setError thread .etimeout)
        (.returns .etimeout none)
  /-- The mutex is taken; its owner is raised and the caller waits. -/
  | waits (owner : ThreadId) (owned : (before.mutexes mutex).owner = some owner)
      (foreign : owner ≠ thread) (taken : (before.mutexes mutex).value = 0#16)
      (willing : time ≠ 0#32) (timer : Option Err) :
      TakeMove thread mutex time before
        ((((before.setError thread .eok).raise owner thread).setStat thread .suspend).setWaits
          thread (some (.mutex mutex)))
        (.suspends timer)

/-- What the last release of a mutex does with it when `front` is first in line. -/
inductive PassMove (mutex : Nat) (front : Option ThreadId) (before : MutexView) :
    MutexView → Outcome → Prop where
  /-- Nobody waits for the mutex. -/
  | frees (nobody : ∀ thread, before.waits thread ≠ some (.mutex mutex)) :
      PassMove mutex front before
        (before.setMutex mutex
          { before.mutexes mutex with
            value := (before.mutexes mutex).value + 1#16
            owner := none
            originalPriority := 0xff })
        (.returns .eok none)
  /-- The first waiter becomes the owner. -/
  | hands (waiter : ThreadId) (first : front = some waiter)
      (waiting : before.waits waiter = some (.mutex mutex)) :
      PassMove mutex front before
        (((before.setMutex mutex
          { before.mutexes mutex with
            owner := some waiter
            originalPriority := before.currentPriority waiter
            hold := (before.mutexes mutex).hold + 1#8 }).setStat waiter .ready).setWaits
              waiter none)
        (.reschedules none)

/-- What the section of `rt_mutex_release` by `thread` does. -/
inductive ReleaseMove (thread : ThreadId) (mutex : Nat) (front : Option ThreadId)
    (before : MutexView) : MutexView → Outcome → Prop where
  | refused (foreign : (before.mutexes mutex).owner ≠ some thread) :
      ReleaseMove thread mutex front before (before.setError thread .error) (.returns .error none)
  | nested (owned : (before.mutexes mutex).owner = some thread)
      (held : (before.mutexes mutex).hold - 1#8 ≠ 0#8) :
      ReleaseMove thread mutex front before
        (before.setMutex mutex
          { before.mutexes mutex with hold := (before.mutexes mutex).hold - 1#8 })
        (.returns .eok none)
  /-- The last release also restores the priority of the owner. -/
  | last (owned : (before.mutexes mutex).owner = some thread)
      (unheld : (before.mutexes mutex).hold - 1#8 = 0#8) {after : MutexView} {outcome : Outcome}
      (pass : PassMove mutex front
        ((before.setMutex mutex
          { before.mutexes mutex with hold := (before.mutexes mutex).hold - 1#8 }).setPriority
            thread (before.mutexes mutex).originalPriority) after outcome) :
      ReleaseMove thread mutex front before after outcome

theorem TakeMove.not_reschedules {thread : ThreadId} {mutex : Nat} {time : BitVec 32}
    {before after : MutexView} {outcome : Outcome}
    (move : TakeMove thread mutex time before after outcome) (output : Option (BitVec 32)) :
    outcome ≠ .reschedules output := by
  cases move <;> simp

theorem ReleaseMove.not_suspends {thread : ThreadId} {mutex : Nat} {front : Option ThreadId}
    {before after : MutexView} {outcome : Outcome}
    (move : ReleaseMove thread mutex front before after outcome) (timer : Option Err) :
    outcome ≠ .suspends timer := by
  cases move with
  | refused foreign => simp
  | nested owned held => simp
  | last owned unheld pass => cases pass <;> simp

/-! ## The view of each primitive -/

section

variable {kernel next : Kernel} {home home' : ThreadId → Option ThreadNode} {thread : ThreadId}

/-- Any change of one thread's record and home. -/
theorem view_update {record : Thread} {list : Option WaitList}
    (threads : next.threads = Function.update kernel.threads thread record)
    (mutexes : next.mutexes = kernel.mutexes)
    (own : suspendList (home' thread) = list)
    (others : ∀ other, other ≠ thread → suspendList (home' other) = suspendList (home other)) :
    view next home' =
      { stat := Function.update (view kernel home).stat thread record.stat
        error := Function.update (view kernel home).error thread record.error
        currentPriority :=
          Function.update (view kernel home).currentPriority thread record.currentPriority
        initPriority := Function.update (view kernel home).initPriority thread record.initPriority
        waits := Function.update (view kernel home).waits thread list
        mutexes := (view kernel home).mutexes } := by
  simp only [view, threads, mutexes, MutexView.mk.injEq, and_true]
  refine ⟨?_, ?_, ?_, ?_, ?_⟩ <;> funext other <;> by_cases same : other = thread
  · simp [same]
  · simp [same]
  · simp [same]
  · simp [same]
  · simp [same]
  · simp [same]
  · simp [same]
  · simp [same]
  · simp [same, own]
  · simp [same, others other same]

theorem view_congr (threads : next.threads = kernel.threads)
    (mutexes : next.mutexes = kernel.mutexes) : view next home = view kernel home := by
  simp [view, threads, mutexes]

theorem view_setError (kernel : Kernel) (home : ThreadId → Option ThreadNode)
    (thread : ThreadId) (result : Err) :
    view (kernel.setError thread result) home = (view kernel home).setError thread result := by
  have unmoved : ∀ other, other ≠ thread → suspendList (home other) = suspendList (home other) :=
    fun _ _ => rfl
  have updated : view (kernel.setError thread result) home = _ :=
    view_update rfl rfl rfl unmoved
  rw [updated]
  simp [MutexView.setError, view]

theorem view_setMutex (kernel : Kernel) (home : ThreadId → Option ThreadNode) (mutex : Nat)
    (record : Mutex) :
    view (kernel.setMutex mutex record) home = (view kernel home).setMutex mutex record := rfl

theorem view_changePriority (inv : WaitInv kernel home) (thread : ThreadId) (priority : Nat) :
    view (rtThreadChangePriority kernel thread priority)
        (if (kernel.threads thread).stat = .ready then
          Function.update home thread (some (.ready priority)) else home) =
      (view kernel home).setPriority thread priority := by
  have own : suspendList ((if (kernel.threads thread).stat = .ready then
      Function.update home thread (some (.ready priority)) else home) thread) =
        suspendList (home thread) := by
    split
    · rename_i isReady
      rw [Function.update_self, suspendList_ready]
      cases place : suspendList (home thread) with
      | none => rfl
      | some list =>
          exact absurd (suspendList_eq_some.mp place) (inv.not_waiting_of_ready isReady list)
    · rfl
  have others : ∀ other, other ≠ thread →
      suspendList ((if (kernel.threads thread).stat = .ready then
        Function.update home thread (some (.ready priority)) else home) other) =
          suspendList (home other) := by
    intro other apart
    split
    · rw [Function.update_of_ne apart]
    · rfl
  rw [view_update (rtThreadChangePriority_threads kernel thread priority)
    (rtThreadChangePriority_sameRest kernel thread priority).mutexes own others]
  simp [MutexView.setPriority, view]

theorem view_suspendOn (inv : WaitInv kernel home)
    (isReady : (kernel.threads thread).stat = .ready) {list : WaitList} {flag : IpcFlag}
    {time : BitVec 32} {outcome : Outcome}
    (step : suspendOn kernel list thread flag time = some (next, outcome)) :
    ∃ home' timer, WaitInv next home' ∧ outcome = .suspends timer ∧
      view next home' =
        ((view kernel home).setStat thread .suspend).setWaits thread (some list) := by
  obtain ⟨waits, rest, threads, ends⟩ := inv.suspendOn isReady step
  have seen : view next (Function.update home thread (some (.wait list))) =
      ((view kernel home).setStat thread .suspend).setWaits thread (some list) := by
    rw [view_update threads rest.mutexes (by rw [Function.update_self, suspendList_wait])
      fun other apart => by rw [Function.update_of_ne apart]]
    simp [MutexView.setStat, MutexView.setWaits, view]
  rcases ends with untimed | ⟨timed, -⟩
  · exact ⟨_, _, waits, untimed, seen⟩
  · exact ⟨_, _, waits, timed, seen⟩

theorem view_resume (inv : WaitInv kernel home)
    (suspended : (kernel.threads thread).stat = .suspend) :
    ∃ home', WaitInv (rtThreadResume kernel thread).2 home' ∧
      view (rtThreadResume kernel thread).2 home' =
        ((view kernel home).setStat thread .ready).setWaits thread none := by
  refine ⟨_, inv.resumeThread suspended, ?_⟩
  rw [view_update (rtThreadResume_threads suspended) (rtThreadResume_sameRest kernel thread).mutexes
    (by rw [Function.update_self, suspendList_ready])
    fun other apart => by rw [Function.update_of_ne apart]]
  simp [MutexView.setStat, MutexView.setWaits, view]

theorem view_raiseOwner (inv : WaitInv kernel home) (owner thread : ThreadId) :
    ∃ home', WaitInv (raiseOwner kernel owner thread) home' ∧
      view (raiseOwner kernel owner thread) home' = (view kernel home).raise owner thread := by
  unfold raiseOwner MutexView.raise
  dsimp only
  split
  · rename_i higher
    rw [show min ((view kernel home).currentPriority owner)
      ((view kernel home).currentPriority thread) = (kernel.threads thread).currentPriority from
        Nat.min_eq_right (Nat.le_of_lt higher)]
    exact ⟨_, inv.changePriority owner _, view_changePriority inv owner _⟩
  · rename_i lower
    rw [show min ((view kernel home).currentPriority owner)
      ((view kernel home).currentPriority thread) = (view kernel home).currentPriority owner from
        Nat.min_eq_left (Nat.le_of_not_lt lower)]
    exact ⟨home, inv, by simp [MutexView.setPriority]⟩

theorem view_restorePriority (inv : WaitInv kernel home) (owner : ThreadId)
    (originalPriority : Nat) :
    ∃ home', WaitInv (restorePriority kernel owner originalPriority) home' ∧
      view (restorePriority kernel owner originalPriority) home' =
        (view kernel home).setPriority owner originalPriority := by
  unfold restorePriority
  split
  · exact ⟨_, inv.changePriority owner _, view_changePriority inv owner _⟩
  · rename_i same
    have restored : originalPriority = (view kernel home).currentPriority owner :=
      Classical.not_not.mp same
    exact ⟨home, inv, by simp [MutexView.setPriority, restored]⟩

theorem frontWaiter_restorePriority (inv : WaitInv kernel home) (owner : ThreadId)
    (originalPriority mutex : Nat) :
    frontWaiter (restorePriority kernel owner originalPriority) mutex =
      frontWaiter kernel mutex := by
  unfold restorePriority
  split
  · rw [frontWaiter, inv.next_changePriority, frontWaiter]
  · rfl

/-! ## The sections refine the moves -/

/-- Taking a mutex, by a running thread that is ready. -/
theorem rtMutexTake_refines (inv : WaitInv kernel home)
    (current : kernel.rtCurrentThread = .thread thread)
    (isReady : (kernel.threads thread).stat = .ready) {mutex : Nat} {time : BitVec 32}
    {outcome : Outcome} (step : rtMutexTake kernel mutex time = some (next, outcome)) :
    ∃ home', WaitInv next home' ∧
      TakeMove thread mutex time (view kernel home) (view next home') outcome := by
  simp only [rtMutexTake, current] at step
  have reset := inv.setError thread .eok
  have seen := view_setError kernel home thread .eok
  split at step
  · rename_i owned
    obtain ⟨rfl, rfl⟩ := Prod.mk.inj (Option.some_inj.mp step)
    refine ⟨home, reset.setMutex mutex _, ?_⟩
    rw [view_setMutex, seen]
    exact .nested owned
  rename_i foreign
  split at step
  · rename_i available
    obtain ⟨rfl, rfl⟩ := Prod.mk.inj (Option.some_inj.mp step)
    refine ⟨home, reset.setMutex mutex _, ?_⟩
    have level : ((kernel.setError thread .eok).threads thread).currentPriority =
        (view kernel home).currentPriority thread := by
      simp [Kernel.setError, Kernel.setThread, view]
    rw [view_setMutex, seen, level]
    exact .free foreign available
  rename_i taken
  have unavailable : (kernel.mutexes mutex).value = 0#16 := Classical.not_not.mp taken
  split at step
  · rename_i unwilling
    obtain ⟨rfl, rfl⟩ := Prod.mk.inj (Option.some_inj.mp step)
    refine ⟨home, reset.setError thread .etimeout, ?_⟩
    have refused : TakeMove thread mutex time (view kernel home) _ _ :=
      .refused foreign unavailable unwilling
    rw [view_setError, seen]
    simpa [MutexView.setError] using refused
  rename_i willing
  split at step
  · rename_i owner owned
    have apart : owner ≠ thread := by
      rintro rfl
      exact foreign owned
    obtain ⟨raisedHome, raised, raisedView⟩ := view_raiseOwner reset owner thread
    have stillReady : ((raiseOwner (kernel.setError thread .eok) owner thread).threads
        thread).stat = .ready := by
      have stat := congrArg (fun seen => seen.stat thread) raisedView
      rw [seen] at stat
      exact stat.trans isReady
    obtain ⟨home', timer, waits, rfl, waitsView⟩ := view_suspendOn raised stillReady step
    refine ⟨home', waits, ?_⟩
    rw [waitsView, raisedView, seen]
    exact .waits owner owned apart unavailable willing timer
  · cases step

/-- Handing a mutex on or freeing it. -/
theorem passMutex_refines (inv : WaitInv kernel home) {mutex : Nat} {outcome : Outcome}
    (step : passMutex kernel mutex = some (next, outcome)) :
    ∃ home', WaitInv next home' ∧
      PassMove mutex (frontWaiter kernel mutex) (view kernel home) (view next home') outcome := by
  simp only [passMutex] at step
  split at step
  · rename_i empty
    obtain ⟨rfl, rfl⟩ := Prod.mk.inj (Option.some_inj.mp step)
    refine ⟨home, inv.setMutex mutex _, .frees ?_⟩
    intro thread waits
    exact (inv.isEmpty_iff (.mutex mutex)).mp empty thread (suspendList_eq_some.mp waits)
  · rename_i occupied
    obtain ⟨waiter, entry, there⟩ := inv.first_waiting (Bool.eq_false_iff.mpr occupied)
    rw [entry] at step
    obtain ⟨resumed, resume, done⟩ := Option.bind_eq_some_iff.mp step
    obtain ⟨rfl, rfl⟩ := Prod.mk.inj (Option.some_inj.mp done)
    have owned := inv.setMutex mutex
      { kernel.mutexes mutex with
        owner := some waiter
        originalPriority := (kernel.threads waiter).currentPriority
        hold := (kernel.mutexes mutex).hold + 1#8 }
    have entry' : threadEntry ((kernel.setMutex mutex
      { kernel.mutexes mutex with
        owner := some waiter
        originalPriority := (kernel.threads waiter).currentPriority
        hold := (kernel.mutexes mutex).hold + 1#8 }).threadLinks.next (.wait (.mutex mutex))) =
          .thread waiter := entry
    rw [rtIpcListResume, entry', Option.some_inj] at resume
    obtain ⟨home', ready, readyView⟩ := view_resume owned (inv.waiting waiter _ there)
    rw [← resume]
    refine ⟨home', ready, ?_⟩
    rw [readyView]
    have first : frontWaiter kernel mutex = some waiter := by rw [frontWaiter, entry]
    exact .hands waiter first (suspendList_eq_some.mpr there)

/-- Releasing a mutex, by a running thread. -/
theorem rtMutexRelease_refines (inv : WaitInv kernel home)
    (current : kernel.rtCurrentThread = .thread thread) {mutex : Nat} {outcome : Outcome}
    (step : rtMutexRelease kernel mutex = some (next, outcome)) :
    ∃ home', WaitInv next home' ∧
      ReleaseMove thread mutex (frontWaiter kernel mutex) (view kernel home) (view next home')
        outcome := by
  simp only [rtMutexRelease, current] at step
  split at step
  · rename_i foreign
    obtain ⟨rfl, rfl⟩ := Prod.mk.inj (Option.some_inj.mp step)
    refine ⟨home, inv.setError thread .error, ?_⟩
    rw [view_setError]
    exact .refused foreign
  rename_i owned
  have own : (kernel.mutexes mutex).owner = some thread := Classical.not_not.mp owned
  let lowered := kernel.setMutex mutex
    { kernel.mutexes mutex with hold := (kernel.mutexes mutex).hold - 1#8 }
  have loweredInv : WaitInv lowered home := inv.setMutex mutex _
  have hold : (lowered.mutexes mutex).hold = (kernel.mutexes mutex).hold - 1#8 := by
    simp [lowered, Kernel.setMutex]
  split at step
  · rename_i unheld
    obtain ⟨restoredHome, restored, restoredView⟩ :=
      view_restorePriority loweredInv thread (kernel.mutexes mutex).originalPriority
    obtain ⟨home', passed, move⟩ := passMutex_refines restored step
    refine ⟨home', passed, .last own (hold.symm.trans unheld) ?_⟩
    rwa [frontWaiter_restorePriority loweredInv, restoredView] at move
  · rename_i held
    obtain ⟨rfl, rfl⟩ := Prod.mk.inj (Option.some_inj.mp step)
    exact ⟨home, loweredInv, .nested own fun zero => held (hold.trans zero)⟩

end

end RtThread
