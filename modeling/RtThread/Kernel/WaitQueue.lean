import RtThread.Std.Placement
import RtThread.Kernel.Ipc
import RtThread.Kernel.ReadyQueue
import RtThread.Kernel.TimerQueue

/-!
# Where threads wait

A thread is linked in at most one list, its `home`, and its state says what kind
of list that is. `WaitInv` ties the homes to the states and to the thread
timers. It is proved here for the primitives that every call is made of.
-/

namespace RtThread

open RtThread.Std

/-- The home of a thread as that of its list node. -/
def atNode (home : ThreadId → Option ThreadNode) : ThreadNode → Option ThreadNode
  | .tlist thread => home thread
  | _ => none

@[simp] theorem atNode_tlist (home : ThreadId → Option ThreadNode) (thread : ThreadId) :
    atNode home (.tlist thread) = home thread := rfl

theorem atNode_update (home : ThreadId → Option ThreadNode) (thread : ThreadId)
    (place : Option ThreadNode) :
    atNode (Function.update home thread place) =
      Function.update (atNode home) (.tlist thread) place := by
  funext node
  cases node <;> simp [atNode, Function.update_apply]

/-- A ready list carries only ready threads, a suspend list only suspended ones,
and only suspended threads have their timer running. -/
structure WaitInv (kernel : Kernel) (home : ThreadId → Option ThreadNode) : Prop where
  placed : Placed ThreadNode.IsHead kernel.threadLinks (atNode home)
  listed : ∃ queue, TimerListed kernel queue
  ready : ∀ thread priority, home thread = some (.ready priority) →
    (kernel.threads thread).stat = .ready
  waiting : ∀ thread list, home thread = some (.wait list) →
    (kernel.threads thread).stat = .suspend
  armed : ∀ thread, (kernel.timers (.thread thread)).activated = true →
    (kernel.threads thread).stat = .suspend
  /-- Thread timers are one-shot. -/
  oneShot : ∀ thread, (kernel.timers (.thread thread)).periodic = false
  /-- No other timer is in use. -/
  unused : ∀ index, (kernel.timers (.object index)).activated = false

/-- The homes as the pointers and the records show them. -/
structure WaitConsistent (kernel : Kernel) : Prop where
  ready : ∀ thread, (kernel.threads thread).stat = .ready →
    (∀ list, ¬ kernel.threadLinks.Linked (.wait list) (.tlist thread)) ∧
      ¬ kernel.timerLinks.Linked .timerList (.timer (.thread thread)) ∧
      (kernel.timers (.thread thread)).activated = false
  suspended : ∀ thread, (kernel.threads thread).stat = .suspend →
    (∀ priority, ¬ kernel.threadLinks.Linked (.ready priority) (.tlist thread)) ∧
      (∀ list list', kernel.threadLinks.Linked (.wait list) (.tlist thread) →
        kernel.threadLinks.Linked (.wait list') (.tlist thread) → list = list') ∧
      (kernel.timerLinks.Linked .timerList (.timer (.thread thread)) ↔
        (kernel.timers (.thread thread)).activated = true)

namespace WaitInv

variable {kernel next : Kernel} {home : ThreadId → Option ThreadNode} {thread : ThreadId}

theorem linked_iff (inv : WaitInv kernel home) {head : ThreadNode} (isHead : head.IsHead)
    (thread : ThreadId) : kernel.threadLinks.Linked head (.tlist thread) ↔
      home thread = some head :=
  inv.placed.linked_iff isHead _

theorem timer_linked_iff (inv : WaitInv kernel home) (timer : TimerId) :
    kernel.timerLinks.Linked .timerList (.timer timer) ↔
      (kernel.timers timer).activated = true := by
  obtain ⟨queue, listed⟩ := inv.listed
  rw [listed.rings.linked_iff TimerNode.isHead_timerList, mem_timerLists, listed.active]
  simp

/-- A ready thread waits nowhere and its timer is stopped. -/
theorem stopped_of_ready (inv : WaitInv kernel home)
    (isReady : (kernel.threads thread).stat = .ready) :
    (kernel.timers (.thread thread)).activated = false := by
  cases active : (kernel.timers (.thread thread)).activated with
  | false => rfl
  | true => exact nomatch isReady.symm.trans (inv.armed thread active)

theorem not_waiting_of_ready (inv : WaitInv kernel home)
    (isReady : (kernel.threads thread).stat = .ready) (list : WaitList) :
    home thread ≠ some (.wait list) :=
  fun there => nomatch isReady.symm.trans (inv.waiting thread list there)

theorem consistent (inv : WaitInv kernel home) : WaitConsistent kernel where
  ready thread isReady := by
    have stopped := inv.stopped_of_ready isReady
    refine ⟨?_, ?_, stopped⟩
    · intro list linked
      exact inv.not_waiting_of_ready isReady list
        ((inv.linked_iff (ThreadNode.isHead_wait list) thread).mp linked)
    · rw [inv.timer_linked_iff, stopped]
      simp
  suspended thread isSuspended := by
    refine ⟨?_, ?_, inv.timer_linked_iff _⟩
    · intro priority linked
      have there := (inv.linked_iff (ThreadNode.isHead_ready priority) thread).mp linked
      exact nomatch isSuspended.symm.trans (inv.ready thread priority there)
    · intro list list' linked linked'
      have there := (inv.linked_iff (ThreadNode.isHead_wait list) thread).mp linked
      have there' := (inv.linked_iff (ThreadNode.isHead_wait list') thread).mp linked'
      simpa using there.symm.trans there'

theorem listed_congr (inv : WaitInv kernel home) (links : next.timerLinks = kernel.timerLinks)
    (timers : next.timers = kernel.timers) : ∃ queue, TimerListed next queue := by
  obtain ⟨queue, listed⟩ := inv.listed
  exact ⟨queue, listed.congr links (by simp [timers])⟩

/-- Only the lists, the timers and the states matter. -/
theorem congr (inv : WaitInv kernel home) (links : next.threadLinks = kernel.threadLinks)
    (timerLinks : next.timerLinks = kernel.timerLinks) (timers : next.timers = kernel.timers)
    (stat : ∀ thread, (next.threads thread).stat = (kernel.threads thread).stat) :
    WaitInv next home := by
  constructor
  · rw [links]
    exact inv.placed
  · exact inv.listed_congr timerLinks timers
  · intro thread
    rw [stat]
    exact inv.ready thread
  · intro thread
    rw [stat]
    exact inv.waiting thread
  · intro thread
    rw [stat, timers]
    exact inv.armed thread
  · rw [timers]
    exact inv.oneShot
  · rw [timers]
    exact inv.unused

/-- Change the state of one thread to one that fits its home and its timer. -/
theorem setThread (inv : WaitInv kernel home) (record : Thread)
    (ready : ∀ priority, home thread = some (.ready priority) → record.stat = .ready)
    (waiting : ∀ list, home thread = some (.wait list) → record.stat = .suspend)
    (armed : (kernel.timers (.thread thread)).activated = true → record.stat = .suspend) :
    WaitInv (kernel.setThread thread record) home := by
  refine { inv with
    listed := inv.listed_congr rfl rfl, ready := ?_, waiting := ?_, armed := ?_ } <;> intro other
  · by_cases same : other = thread
    · subst same
      simpa [Kernel.setThread] using ready
    · simpa [Kernel.setThread, same] using inv.ready other
  · by_cases same : other = thread
    · subst same
      simpa [Kernel.setThread] using waiting
    · simpa [Kernel.setThread, same] using inv.waiting other
  · by_cases same : other = thread
    · subst same
      simpa [Kernel.setThread] using armed
    · simpa [Kernel.setThread, same] using inv.armed other

/-- Change the record of a thread but not its state. -/
theorem setThread_same (inv : WaitInv kernel home) (record : Thread)
    (stat : record.stat = (kernel.threads thread).stat) :
    WaitInv (kernel.setThread thread record) home := by
  apply inv.setThread
  · rw [stat]
    exact inv.ready thread
  · rw [stat]
    exact inv.waiting thread
  · rw [stat]
    exact inv.armed thread

theorem setError (inv : WaitInv kernel home) (thread : ThreadId) (result : Err) :
    WaitInv (kernel.setError thread result) home :=
  inv.setThread_same _ rfl

theorem unlinkThread (inv : WaitInv kernel home) (thread : ThreadId) :
    WaitInv (kernel.unlinkThread thread) (Function.update home thread none) := by
  refine { inv with
    placed := ?_, listed := inv.listed_congr rfl rfl, ready := ?_, waiting := ?_ }
  · rw [atNode_update]
    exact inv.placed.unlink (ThreadNode.not_isHead_tlist thread)
  · intro other priority there
    by_cases same : other = thread
    · simp [same] at there
    · exact inv.ready other priority (by simpa [same] using there)
  · intro other list there
    by_cases same : other = thread
    · simp [same] at there
    · exact inv.waiting other list (by simpa [same] using there)

/-- Link a loose thread behind a head that fits its state. -/
theorem link (inv : WaitInv kernel home) {links : Links ThreadNode} {head : ThreadNode}
    (placed : Placed ThreadNode.IsHead links
      (Function.update (atNode home) (.tlist thread) (some head)))
    (ready : ∀ priority, head = .ready priority → (kernel.threads thread).stat = .ready)
    (waiting : ∀ list, head = .wait list → (kernel.threads thread).stat = .suspend) :
    WaitInv { kernel with threadLinks := links } (Function.update home thread (some head)) := by
  refine { inv with
    placed := ?_, listed := inv.listed_congr rfl rfl, ready := ?_, waiting := ?_ }
  · rw [atNode_update]
    exact placed
  · intro other priority there
    by_cases same : other = thread
    · subst same
      exact ready priority (by simpa using there)
    · exact inv.ready other priority (by simpa [same] using there)
  · intro other list there
    by_cases same : other = thread
    · subst same
      exact waiting list (by simpa using there)
    · exact inv.waiting other list (by simpa [same] using there)

/-- Unlink a timer and clear its flag. -/
theorem stopTimer (inv : WaitInv kernel home) (timer : TimerId) :
    WaitInv ((kernel.unlinkTimer timer).deactivate timer) home := by
  obtain ⟨queue, listed⟩ := inv.listed
  have still : ∀ other, (((kernel.unlinkTimer timer).deactivate timer).timers other).activated =
      true → (kernel.timers other).activated = true := by
    intro other active
    by_cases same : other = timer
    · subst same
      simp [Kernel.deactivate, Kernel.setTimer] at active
    · simpa [Kernel.deactivate, Kernel.setTimer, Kernel.unlinkTimer, same] using active
  have kind : ∀ other, (((kernel.unlinkTimer timer).deactivate timer).timers other).periodic =
      (kernel.timers other).periodic := by
    intro other
    by_cases same : other = timer
    · subst same
      simp [Kernel.deactivate, Kernel.setTimer, Kernel.unlinkTimer]
    · simp [Kernel.deactivate, Kernel.setTimer, Kernel.unlinkTimer, same]
  refine ⟨inv.placed, ⟨_, listed.stop timer⟩, inv.ready, inv.waiting, ?_, ?_, ?_⟩
  · intro thread active
    exact inv.armed thread (still _ active)
  · intro thread
    rw [kind]
    exact inv.oneShot thread
  · intro index
    cases active : (((kernel.unlinkTimer timer).deactivate timer).timers (.object index)).activated
      with
    | false => rfl
    | true => cases (inv.unused index).symm.trans (still _ active)

/-! ### The scheduler -/

theorem schedule (inv : WaitInv kernel home) : WaitInv (rtSchedule kernel) home := by
  have same := rtSchedule_sameTimers kernel
  exact inv.congr (rtSchedule_threadLinks kernel) same.links same.timers (by simp)

/-- The scheduler selects a ready thread, if it selects one. -/
theorem selected_ready (inv : WaitInv kernel home)
    (selected : highestReadyThread kernel = .thread thread) :
    (kernel.threads thread).stat = .ready := by
  have entry := threadEntry_eq_thread.mp selected
  have there := inv.placed.next_home (ThreadNode.isHead_ready _)
    (by rw [entry]; exact ThreadNode.not_isHead_tlist thread)
  rw [entry] at there
  exact inv.ready thread _ there

theorem removeThread (inv : WaitInv kernel home) (thread : ThreadId) :
    WaitInv (rtScheduleRemoveThread kernel thread) (Function.update home thread none) := by
  have unlinked := inv.unlinkThread thread
  unfold rtScheduleRemoveThread
  dsimp only
  split
  · exact unlinked.congr rfl rfl rfl fun _ => rfl
  · exact unlinked

/-- Insert a loose thread whose timer is stopped. -/
theorem insertThread (inv : WaitInv kernel home) (loose : home thread = none)
    (stopped : (kernel.timers (.thread thread)).activated = false) :
    WaitInv (rtScheduleInsertThread kernel thread)
      (Function.update home thread
        (some (.ready (kernel.threads thread).currentPriority))) := by
  have staged : WaitInv (kernel.setStat thread .ready) home :=
    inv.setThread _ (by simp) (by simp [loose]) (by simp [stopped])
  have level : ((kernel.setStat thread .ready).threads thread).currentPriority =
      (kernel.threads thread).currentPriority := by
    simp [Kernel.setStat, Kernel.setThread]
  have placed := inv.placed.insertBefore_head
    (ThreadNode.isHead_ready (kernel.threads thread).currentPriority)
    (ThreadNode.not_isHead_tlist thread) (by simpa using loose)
  have linked := staged.link placed (by simp [Kernel.setStat, Kernel.setThread]) (by simp)
  refine linked.congr ?_ rfl rfl fun _ => rfl
  simp only [rtScheduleInsertThread, Kernel.linkThreadBefore, level]
  rfl

/-- Suspend a ready thread. -/
theorem suspendThread (inv : WaitInv kernel home)
    (isReady : (kernel.threads thread).stat = .ready) :
    WaitInv (rtThreadSuspend kernel thread).2 (Function.update home thread none) := by
  have staged : WaitInv ((kernel.unlinkThread thread).setStat thread .suspend)
      (Function.update home thread none) :=
    (inv.unlinkThread thread).setThread _ (by simp) (by simp) (by simp)
  rw [rtThreadSuspend, if_neg (by simp [isReady])]
  unfold rtScheduleRemoveThread
  dsimp only
  split <;> exact staged.congr rfl rfl rfl fun _ => rfl

theorem resumeUnlink (inv : WaitInv kernel home) (thread : ThreadId) :
    WaitInv (rtThreadResumeUnlink kernel thread) (Function.update home thread none) :=
  (inv.unlinkThread thread).stopTimer (.thread thread)

theorem resumeUnlink_stopped (kernel : Kernel) (thread : ThreadId) :
    ((rtThreadResumeUnlink kernel thread).timers (.thread thread)).activated = false := by
  simp [rtThreadResumeUnlink, Kernel.deactivate, Kernel.setTimer]

/-- Resume a suspended thread in one section. -/
theorem resumeThread (inv : WaitInv kernel home)
    (suspended : (kernel.threads thread).stat = .suspend) :
    WaitInv (rtThreadResume kernel thread).2
      (Function.update home thread (some (.ready (kernel.threads thread).currentPriority))) := by
  have unlinked := inv.resumeUnlink thread
  have inserted := unlinked.insertThread (Function.update_self ..)
    (resumeUnlink_stopped kernel thread)
  rw [Function.update_idem] at inserted
  rw [rtThreadResume, if_neg (by simp [suspended])]
  exact inserted

/-- Change the priority of a thread: only a ready thread changes its list. -/
theorem changePriority (inv : WaitInv kernel home) (thread : ThreadId) (priority : Nat) :
    WaitInv (rtThreadChangePriority kernel thread priority)
      (if (kernel.threads thread).stat = .ready then
        Function.update home thread (some (.ready priority)) else home) := by
  unfold rtThreadChangePriority
  split
  · rename_i isReady
    have removed := (inv.removeThread thread).setThread_same
      { (rtScheduleRemoveThread kernel thread).threads thread with
        currentPriority := priority, numberMask := priorityMask priority } rfl
    have inserted := removed.insertThread (Function.update_self ..)
      (by simpa [Kernel.setThread] using inv.stopped_of_ready isReady)
    rw [Function.update_idem] at inserted
    simpa [setPriority, Kernel.setThread] using inserted
  · exact inv.setThread_same _ rfl

/-- A change of priority keeps the thread at the front of every suspend list. -/
theorem next_changePriority (inv : WaitInv kernel home) (thread : ThreadId) (priority : Nat)
    (list : WaitList) : (rtThreadChangePriority kernel thread priority).threadLinks.next
      (.wait list) = kernel.threadLinks.next (.wait list) := by
  unfold rtThreadChangePriority
  split
  · rename_i isReady
    have elsewhere : atNode home (.tlist thread) ≠ some (.wait list) :=
      inv.not_waiting_of_ready isReady list
    have removed := inv.removeThread thread
    have unlinked : (rtScheduleRemoveThread kernel thread).threadLinks =
        kernel.threadLinks.unlink (.tlist thread) := by
      simp only [rtScheduleRemoveThread]
      split <;> rfl
    have free : atNode (Function.update home thread none) (.tlist thread) = none := by simp
    have inserted := removed.placed.next_insertBefore_head (ThreadNode.isHead_wait list)
      (ThreadNode.isHead_ready priority) (ThreadNode.not_isHead_tlist thread) free (by simp)
    rw [unlinked, inv.placed.next_unlink (ThreadNode.isHead_wait list)
      (ThreadNode.not_isHead_tlist thread) elsewhere] at inserted
    rw [← inserted, ← unlinked]
    simp [rtScheduleInsertThread, setPriority, Kernel.setStat, Kernel.setThread,
      Kernel.linkThreadBefore]
  · rfl

/-! ### Timed waits -/

/-- The timer of a suspended thread that is not running starts, if it returns. -/
theorem startTimer (inv : WaitInv kernel home)
    (suspended : (kernel.threads thread).stat = .suspend)
    (stopped : (kernel.timers (.thread thread)).activated = false) {time : BitVec 32}
    {result : Err} (step : startThreadTimer kernel thread time = some (result, next)) :
    result = .eok ∧ (next.timers (.thread thread)).activated = true ∧ WaitInv next home ∧
      next = { kernel with timers := next.timers, timerLinks := next.timerLinks } := by
  obtain ⟨queue, listed⟩ := inv.listed
  let timed := rtTimerControl kernel (.thread thread) (.setTime time)
  have start : rtTimerStart timed (.thread thread) = some (result, next) := step
  have startFrame := rtTimerStart_frame start
  have frame : next = { kernel with timers := next.timers, timerLinks := next.timerLinks } :=
    startFrame
  have flags : ∀ timer, (timed.timers timer).activated = (kernel.timers timer).activated ∧
      (timed.timers timer).periodic = (kernel.timers timer).periodic := by
    intro timer
    by_cases same : timer = .thread thread
    · subst same
      simp [timed, rtTimerControl, Kernel.setTimer]
    · simp [timed, rtTimerControl, Kernel.setTimer, same]
  have idle : (timed.timers (.thread thread)).activated = false :=
    (flags _).1.trans stopped
  have listed' : TimerListed timed queue := listed.congr rfl fun timer => (flags timer).1
  by_cases small : (timed.timers (.thread thread)).initTick < halfTickMax
  · obtain ⟨_, started, queued, timers⟩ := listed'.start idle small
    obtain ⟨rfl, rfl⟩ := Prod.mk.inj (Option.some_inj.mp (started.symm.trans start))
    refine ⟨rfl, by simp [timers], ⟨?_, ⟨_, queued⟩, ?_, ?_, ?_, ?_, ?_⟩, frame⟩
    · rw [frame]
      exact inv.placed
    · rw [frame]
      exact inv.ready
    · rw [frame]
      exact inv.waiting
    · intro other active
      rw [frame]
      by_cases same : other = thread
      · exact same ▸ suspended
      · simp only [timers, Function.update_apply, TimerId.thread.injEq, same, if_false,
          (flags _).1] at active
        exact inv.armed other active
    · intro other
      rw [timers]
      by_cases same : other = thread
      · subst same
        simpa using (flags _).2.trans (inv.oneShot other)
      · simpa [same] using (flags _).2.trans (inv.oneShot other)
    · intro index
      rw [timers]
      simpa using (flags _).1.trans (inv.unused index)
  · exfalso
    rw [rtTimerStart, if_neg (by simp [idle]), if_neg small] at start
    cases start

end WaitInv

/-! ## What the primitives leave alone -/

/-- The kernels agree on the running thread, the scheduler lock and the IPC objects. -/
structure SameRest (kernel next : Kernel) : Prop where
  current : next.rtCurrentThread = kernel.rtCurrentThread
  nest : next.rtSchedulerLockNest = kernel.rtSchedulerLockNest
  objects : next.objects = kernel.objects

theorem SameRest.mutexes {kernel next : Kernel} (rest : SameRest kernel next) :
    next.mutexes = kernel.mutexes :=
  congrArg Objects.mutexes rest.objects

theorem SameRest.refl (kernel : Kernel) : SameRest kernel kernel := ⟨rfl, rfl, rfl⟩

theorem SameRest.trans {kernel kernel' kernel'' : Kernel} (first : SameRest kernel kernel')
    (second : SameRest kernel' kernel'') : SameRest kernel kernel'' :=
  ⟨second.current.trans first.current, second.nest.trans first.nest,
    second.objects.trans first.objects⟩

theorem rtScheduleRemoveThread_sameRest (kernel : Kernel) (thread : ThreadId) :
    SameRest kernel (rtScheduleRemoveThread kernel thread) := by
  unfold rtScheduleRemoveThread
  dsimp only
  split <;> exact ⟨rfl, rfl, rfl⟩

theorem rtThreadSuspend_sameRest (kernel : Kernel) (thread : ThreadId) :
    SameRest kernel (rtThreadSuspend kernel thread).2 := by
  unfold rtThreadSuspend
  split
  · exact .refl kernel
  · have staged : SameRest kernel (kernel.setStat thread .suspend) := ⟨rfl, rfl, rfl⟩
    exact staged.trans (rtScheduleRemoveThread_sameRest _ thread)

theorem rtThreadResume_sameRest (kernel : Kernel) (thread : ThreadId) :
    SameRest kernel (rtThreadResume kernel thread).2 := by
  unfold rtThreadResume
  split <;> exact ⟨rfl, rfl, rfl⟩

theorem rtThreadChangePriority_sameRest (kernel : Kernel) (thread : ThreadId) (priority : Nat) :
    SameRest kernel (rtThreadChangePriority kernel thread priority) := by
  unfold rtThreadChangePriority
  split
  · exact (rtScheduleRemoveThread_sameRest kernel thread).trans ⟨rfl, rfl, rfl⟩
  · exact ⟨rfl, rfl, rfl⟩

theorem rtThreadSuspend_threads {kernel : Kernel} {thread : ThreadId}
    (isReady : (kernel.threads thread).stat = .ready) :
    (rtThreadSuspend kernel thread).2.threads = Function.update kernel.threads thread
      { kernel.threads thread with stat := .suspend } := by
  simp [rtThreadSuspend, isReady, Kernel.setStat, Kernel.setThread]

theorem rtThreadResume_threads {kernel : Kernel} {thread : ThreadId}
    (suspended : (kernel.threads thread).stat = .suspend) :
    (rtThreadResume kernel thread).2.threads = Function.update kernel.threads thread
      { kernel.threads thread with stat := .ready } := by
  simp [rtThreadResume, suspended]

@[simp] theorem rtThreadChangePriority_threads (kernel : Kernel) (thread : ThreadId)
    (priority : Nat) :
    (rtThreadChangePriority kernel thread priority).threads =
      Function.update kernel.threads thread
        { kernel.threads thread with
          currentPriority := priority, numberMask := priorityMask priority } := by
  unfold rtThreadChangePriority
  split
  · rename_i isReady
    simp [setPriority, Kernel.setThread, isReady]
  · rfl

/-! ## Waiting on a suspend list -/

namespace WaitInv

variable {kernel next : Kernel} {home : ThreadId → Option ThreadNode} {thread : ThreadId}

theorem listSuspend (inv : WaitInv kernel home)
    (isReady : (kernel.threads thread).stat = .ready) {list : WaitList} {flag : IpcFlag}
    (step : rtIpcListSuspend kernel list thread flag = some next) :
    WaitInv next (Function.update home thread (some (.wait list))) ∧ SameRest kernel next ∧
      next.threads = (rtThreadSuspend kernel thread).2.threads ∧
      next.timers = kernel.timers := by
  have suspended := inv.suspendThread isReady
  have rest := rtThreadSuspend_sameRest kernel thread
  have stat : ((rtThreadSuspend kernel thread).2.threads thread).stat = .suspend := by
    simp [rtThreadSuspend_threads isReady]
  have timers : (rtThreadSuspend kernel thread).2.timers = kernel.timers := by
    simp [rtThreadSuspend, isReady, Kernel.setStat, Kernel.setThread]
  have plain := ThreadNode.not_isHead_tlist thread
  have isHead := ThreadNode.isHead_wait list
  have loose : atNode (Function.update home thread none) (.tlist thread) = none := by simp
  have linked : ∀ links, Placed ThreadNode.IsHead links
        (Function.update (atNode (Function.update home thread none)) (.tlist thread)
          (some (.wait list))) →
      WaitInv { (rtThreadSuspend kernel thread).2 with threadLinks := links }
        (Function.update home thread (some (.wait list))) := by
    intro links placed
    have done := suspended.link placed (by simp) fun _ _ => stat
    rwa [Function.update_idem] at done
  simp only [rtIpcListSuspend] at step
  cases flag with
  | fifo =>
      obtain rfl := Option.some_inj.mp step
      exact ⟨linked _ (suspended.placed.insertBefore_head isHead plain loose),
        rest.trans ⟨rfl, rfl, rfl⟩, rfl, timers⟩
  | prio =>
      obtain ⟨position, scan, done⟩ := Option.bind_eq_some_iff.mp step
      obtain rfl := Option.some_inj.mp done
      exact ⟨linked _ (suspended.placed.insertBefore_scan isHead plain loose scan),
        rest.trans ⟨rfl, rfl, rfl⟩, rfl, timers⟩

/-- A ready thread that starts to wait is on the list, and if it has a waiting
time then its timer is running. -/
theorem suspendOn (inv : WaitInv kernel home)
    (isReady : (kernel.threads thread).stat = .ready) {list : WaitList} {flag : IpcFlag}
    {time : BitVec 32} {outcome : Outcome}
    (step : suspendOn kernel list thread flag time = some (next, outcome)) :
    WaitInv next (Function.update home thread (some (.wait list))) ∧ SameRest kernel next ∧
      next.threads = Function.update kernel.threads thread
        { kernel.threads thread with stat := .suspend } ∧
      (outcome = .suspends none ∨ outcome = .suspends (some .eok) ∧
        (next.timers (.thread thread)).activated = true) := by
  obtain ⟨waiting, suspend, step⟩ := Option.bind_eq_some_iff.mp step
  obtain ⟨waits, rest, threads, timers⟩ := inv.listSuspend isReady suspend
  rw [rtThreadSuspend_threads isReady] at threads
  dsimp only at step
  split at step
  · obtain ⟨⟨result, armed⟩, start, done⟩ := Option.bind_eq_some_iff.mp step
    obtain ⟨rfl, rfl⟩ := Prod.mk.inj (Option.some_inj.mp done)
    obtain ⟨rfl, active, armedInv, frame⟩ := waits.startTimer (by simp [threads])
      (by rw [timers]; exact inv.stopped_of_ready isReady) start
    refine ⟨armedInv, ?_, ?_, Or.inr ⟨rfl, active⟩⟩
    · rw [frame]
      exact rest.trans ⟨rfl, rfl, rfl⟩
    · rw [frame]
      exact threads
  · obtain ⟨rfl, rfl⟩ := Prod.mk.inj (Option.some_inj.mp step)
    exact ⟨waits, rest, threads, Or.inl rfl⟩

/-- The first thread of a suspend list that is not empty waits there. -/
theorem first_waiting (inv : WaitInv kernel home) {list : WaitList}
    (occupied : kernel.threadLinks.isEmpty (.wait list) = false) :
    ∃ waiter, threadEntry (kernel.threadLinks.next (.wait list)) = .thread waiter ∧
      home waiter = some (.wait list) := by
  have there := inv.placed.first (ThreadNode.isHead_wait list) occupied
  cases entry : kernel.threadLinks.next (.wait list) with
  | tlist waiter =>
      rw [entry] at there
      exact ⟨waiter, rfl, there⟩
  | ready _ => simp [entry, atNode] at there
  | defunct => simp [entry, atNode] at there
  | wait _ => simp [entry, atNode] at there

theorem isEmpty_iff (inv : WaitInv kernel home) (list : WaitList) :
    kernel.threadLinks.isEmpty (.wait list) = true ↔
      ∀ thread, home thread ≠ some (.wait list) := by
  rw [inv.placed.isEmpty_iff (ThreadNode.isHead_wait list)]
  constructor
  · intro empty thread
    exact empty (.tlist thread)
  · intro empty node
    cases node with
    | tlist thread => exact empty thread
    | ready _ => simp [atNode]
    | defunct => simp [atNode]
    | wait _ => simp [atNode]

end WaitInv

end RtThread
