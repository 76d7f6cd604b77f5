import RtThread.Kernel.Lives
import RtThread.Kernel.WaitQueue

/-!
# Where the nodes of every thread are linked

A thread has four list nodes: its own, that of its timer and the object nodes of
both. `Located` says behind which head each of them is. It says nothing about the
states of threads, so it also holds between two sections of a call that ends one.
`Routine` is what every operation does that ends no thread.
-/

namespace RtThread

open RtThread.Std

/-- The heads that the four nodes of each thread are linked behind. -/
structure Whereabouts where
  home : ThreadId → Option ThreadNode
  timer : ThreadId → Option TimerNode
  object : ThreadId → Option ObjectNode
  timerObject : ThreadId → Option ObjectNode

def atTimer (timer : ThreadId → Option TimerNode) : TimerNode → Option TimerNode
  | .timer (.thread thread) => timer thread
  | _ => none

def atObject (object timerObject : ThreadId → Option ObjectNode) :
    ObjectNode → Option ObjectNode
  | .thread thread => object thread
  | .timer (.thread thread) => timerObject thread
  | _ => none

@[simp] theorem atTimer_thread (timer : ThreadId → Option TimerNode) (thread : ThreadId) :
    atTimer timer (.timer (.thread thread)) = timer thread := rfl

theorem atTimer_update (timer : ThreadId → Option TimerNode) (thread : ThreadId)
    (place : Option TimerNode) :
    atTimer (Function.update timer thread place) =
      Function.update (atTimer timer) (.timer (.thread thread)) place := by
  funext node
  cases node with
  | timerList => simp [atTimer]
  | timer timer => cases timer <;> simp [atTimer, Function.update_apply]

section

variable (object timerObject : ThreadId → Option ObjectNode) (thread : ThreadId)
  (place : Option ObjectNode)

@[simp] theorem atObject_thread : atObject object timerObject (.thread thread) = object thread :=
  rfl

@[simp] theorem atObject_timer :
    atObject object timerObject (.timer (.thread thread)) = timerObject thread := rfl

theorem atObject_update_thread :
    atObject (Function.update object thread place) timerObject =
      Function.update (atObject object timerObject) (.thread thread) place := by
  funext node
  cases node with
  | timer timer => cases timer <;> simp [atObject]
  | _ => simp [atObject, Function.update_apply]

theorem atObject_update_timer :
    atObject object (Function.update timerObject thread place) =
      Function.update (atObject object timerObject) (.timer (.thread thread)) place := by
  funext node
  cases node with
  | timer timer => cases timer <;> simp [atObject, Function.update_apply]
  | _ => simp [atObject]

end

/-- The pointers carry the nodes of every thread where `places` says. A linked
timer is flagged, though a flagged one need not be linked. -/
structure Located (kernel : Kernel) (places : Whereabouts) : Prop where
  threads : Placed ThreadNode.IsHead kernel.threadLinks (atNode places.home)
  timers : Placed TimerNode.IsHead kernel.timerLinks (atTimer places.timer)
  objects : Placed ObjectNode.IsHead kernel.objectLinks
    (atObject places.object places.timerObject)
  flagged : ∀ thread, places.timer thread ≠ none →
    (kernel.timers (.thread thread)).activated = true
  oneShot : ∀ thread, (kernel.timers (.thread thread)).periodic = false

namespace Located

variable {kernel next : Kernel} {places : Whereabouts} {thread : ThreadId}

/-- Only the lists and the timers matter. -/
theorem congr (located : Located kernel places) (threads : next.threadLinks = kernel.threadLinks)
    (timerLinks : next.timerLinks = kernel.timerLinks)
    (objects : next.objectLinks = kernel.objectLinks) (timers : next.timers = kernel.timers) :
    Located next places := by
  constructor
  · rw [threads]
    exact located.threads
  · rw [timerLinks]
    exact located.timers
  · rw [objects]
    exact located.objects
  · rw [timers]
    exact located.flagged
  · rw [timers]
    exact located.oneShot

/-! ### Pointer edits -/

/-- Put a loose thread where `links` has it. -/
theorem link (located : Located kernel places) {links : Links ThreadNode} {head : ThreadNode}
    (placed : Placed ThreadNode.IsHead links
      (Function.update (atNode places.home) (.tlist thread) (some head))) :
    Located { kernel with threadLinks := links }
      { places with home := Function.update places.home thread (some head) } := by
  refine { located with threads := ?_ }
  rw [atNode_update]
  exact placed

theorem linkThreadAfter (located : Located kernel places) {head : ThreadNode}
    (isHead : head.IsHead) (loose : places.home thread = none) :
    Located (kernel.linkThreadAfter head thread)
      { places with home := Function.update places.home thread (some head) } :=
  located.link (located.threads.insertAfter_head isHead (ThreadNode.not_isHead_tlist thread)
    loose)

theorem linkThreadBefore (located : Located kernel places) {head : ThreadNode}
    (isHead : head.IsHead) (loose : places.home thread = none) :
    Located (kernel.linkThreadBefore head thread)
      { places with home := Function.update places.home thread (some head) } :=
  located.link (located.threads.insertBefore_head isHead (ThreadNode.not_isHead_tlist thread)
    loose)

theorem unlinkThread (located : Located kernel places) (thread : ThreadId) :
    Located (kernel.unlinkThread thread)
      { places with home := Function.update places.home thread none } := by
  refine { located with threads := ?_ }
  rw [atNode_update]
  exact located.threads.unlink (ThreadNode.not_isHead_tlist thread)

theorem unlinkTimer (located : Located kernel places) (thread : ThreadId) :
    Located (kernel.unlinkTimer (.thread thread))
      { places with timer := Function.update places.timer thread none } := by
  refine { located with timers := ?_, flagged := ?_ }
  · rw [atTimer_update]
    exact located.timers.unlink (TimerNode.not_isHead_timer _)
  · intro other linked
    by_cases same : other = thread
    · simp [same] at linked
    · exact located.flagged other (by simpa [same] using linked)

/-- Clear the flag of a timer that is not linked. -/
theorem deactivate (located : Located kernel places) (loose : places.timer thread = none) :
    Located (kernel.deactivate (.thread thread)) places := by
  refine { located with flagged := ?_, oneShot := ?_ }
  · intro other linked
    have apart : other ≠ thread := by
      rintro rfl
      exact linked loose
    simpa [Kernel.deactivate, Kernel.setTimer, apart] using located.flagged other linked
  · intro other
    by_cases same : other = thread
    · subst same
      simpa [Kernel.deactivate, Kernel.setTimer] using located.oneShot other
    · simpa [Kernel.deactivate, Kernel.setTimer, same] using located.oneShot other

theorem detachThread (located : Located kernel places) (thread : ThreadId) :
    Located (kernel.rtObjectDetach (.thread thread))
      { places with object := Function.update places.object thread none } := by
  refine { located with objects := ?_ }
  rw [atObject_update_thread]
  exact located.objects.unlink (ObjectNode.not_isHead_thread thread)

theorem detachTimer (located : Located kernel places) (thread : ThreadId) :
    Located (kernel.rtObjectDetach (.timer (.thread thread)))
      { places with timerObject := Function.update places.timerObject thread none } := by
  refine { located with objects := ?_ }
  rw [atObject_update_timer]
  exact located.objects.unlink (ObjectNode.not_isHead_timer _)

/-- Register a thread and its timer. -/
theorem threadInit (located : Located kernel places) (loose : places.object thread = none)
    (timerLoose : places.timerObject thread = none) :
    Located (rtThreadInit kernel thread)
      { places with
        object := Function.update places.object thread (some .threadContainer)
        timerObject := Function.update places.timerObject thread (some .timerContainer) } := by
  refine { located with objects := ?_ }
  rw [atObject_update_timer, atObject_update_thread]
  have first := located.objects.insertAfter_head ObjectNode.isHead_threadContainer
    (ObjectNode.not_isHead_thread thread) loose
  exact first.insertAfter_head ObjectNode.isHead_timerContainer (ObjectNode.not_isHead_timer _)
    (by simpa using timerLoose)

/-! ### Operations -/

theorem removeThread (located : Located kernel places) (thread : ThreadId) :
    Located (rtScheduleRemoveThread kernel thread)
      { places with home := Function.update places.home thread none } := by
  have unlinked := located.unlinkThread thread
  unfold rtScheduleRemoveThread
  dsimp only
  split
  · exact unlinked.congr rfl rfl rfl rfl
  · exact unlinked

theorem setStat (located : Located kernel places) (thread : ThreadId) (stat : ThreadStat) :
    Located (kernel.setStat thread stat) places := located.congr rfl rfl rfl rfl

/-- A thread that exits is nowhere, or on `rt_thread_defunct` with its object
still registered. -/
theorem exitSection (located : Located kernel places) (thread : ThreadId) :
    Located (rtThreadExitSection kernel thread)
      { home := Function.update places.home thread
          (if (kernel.threads thread).isSystemObject && !(kernel.threads thread).cleanup then none
          else some .defunct)
        timer := Function.update places.timer thread none
        object :=
          if (kernel.threads thread).isSystemObject && !(kernel.threads thread).cleanup then
            Function.update places.object thread none
          else places.object
        timerObject := Function.update places.timerObject thread none } := by
  have closed := (((located.removeThread thread).setStat thread .close).unlinkTimer
    thread).detachTimer thread
  have record : ((rtTimerDetach ((rtScheduleRemoveThread kernel thread).setStat thread .close)
      (.thread thread)).threads thread) = { kernel.threads thread with stat := .close } := by
    simp [rtTimerDetach, Kernel.rtObjectDetach, Kernel.unlinkTimer, Kernel.setStat,
      Kernel.setThread]
  unfold rtThreadExitSection
  simp only [record]
  split
  · exact closed.detachThread thread
  · have linked := closed.linkThreadAfter ThreadNode.isHead_defunct (Function.update_self ..)
    dsimp only at linked
    rwa [Function.update_idem] at linked

theorem insertThread (located : Located kernel places) (loose : places.home thread = none) :
    ∃ priority, Located (rtScheduleInsertThread kernel thread)
      { places with home := Function.update places.home thread (some (.ready priority)) } := by
  have staged := located.setStat thread .ready
  exact ⟨_, (staged.linkThreadBefore (ThreadNode.isHead_ready _) loose).congr rfl rfl rfl rfl⟩

theorem resumeUnlink (located : Located kernel places) (thread : ThreadId) :
    Located (rtThreadResumeUnlink kernel thread)
      { places with
        home := Function.update places.home thread none
        timer := Function.update places.timer thread none } :=
  ((located.unlinkThread thread).unlinkTimer thread).deactivate (Function.update_self ..)

/-- Starting the timer links it, unless it is flagged. -/
theorem startThreadTimer (located : Located kernel places) {time : BitVec 32} {result : Err}
    (step : startThreadTimer kernel thread time = some (result, next)) :
    ∃ place, Located next { places with timer := Function.update places.timer thread place } ∧
      next.threads = kernel.threads := by
  have frame := rtTimerStart_frame step
  have threads : next.threads = kernel.threads := by
    rw [frame]
    rfl
  suffices ∃ place, Located next
      { places with timer := Function.update places.timer thread place } from
    this.imp fun _ there => ⟨there, threads⟩
  let timed := rtTimerControl kernel (.thread thread) (.setTime time)
  have kept : ∀ other, (timed.timers other).activated = (kernel.timers other).activated ∧
      (timed.timers other).periodic = (kernel.timers other).periodic := by
    intro other
    by_cases same : other = .thread thread
    · subst same
      simp [timed, rtTimerControl, Kernel.setTimer]
    · simp [timed, rtTimerControl, Kernel.setTimer, same]
  have ready : Located timed places := by
    refine { located with flagged := ?_, oneShot := ?_ }
    · intro other linked
      exact (kept _).1.trans (located.flagged other linked)
    · intro other
      exact (kept _).2.trans (located.oneShot other)
  have start : rtTimerStart timed (.thread thread) = some (result, next) := step
  unfold rtTimerStart at start
  split at start
  · obtain ⟨-, rfl⟩ := Prod.mk.inj (Option.some_inj.mp start)
    refine ⟨places.timer thread, ?_⟩
    rw [Function.update_eq_self]
    exact ready
  · rename_i idle
    split at start
    · obtain ⟨position, scan, done⟩ := Option.bind_eq_some_iff.mp start
      obtain ⟨-, rfl⟩ := Prod.mk.inj (Option.some_inj.mp done)
      have loose : places.timer thread = none := by
        by_contra linked
        exact idle (ready.flagged thread linked)
      refine ⟨some .timerList, { ready with timers := ?_, flagged := ?_, oneShot := ?_ }⟩
      · rw [atTimer_update]
        exact ready.timers.insertBefore_scan TimerNode.isHead_timerList
          (TimerNode.not_isHead_timer (.thread thread)) loose scan
      · intro other linked
        by_cases same : other = thread
        · subst same
          simp [linkTimer, Kernel.setTimer]
        · simpa [linkTimer, setDeadline, Kernel.setTimer, same] using
            ready.flagged other (by simpa [same] using linked)
      · intro other
        by_cases same : other = thread
        · subst same
          simpa [linkTimer, setDeadline, Kernel.setTimer] using ready.oneShot other
        · simpa [linkTimer, setDeadline, Kernel.setTimer, same] using ready.oneShot other
    · cases start

/-- Move a ready thread to a suspend list. -/
theorem listSuspend (located : Located kernel places)
    (isReady : (kernel.threads thread).stat = .ready) {list : WaitList} {flag : IpcFlag}
    (step : rtIpcListSuspend kernel list thread flag = some next) :
    Located next
        { places with home := Function.update places.home thread (some (.wait list)) } ∧
      next.threads = Function.update kernel.threads thread
        { kernel.threads thread with stat := .suspend } := by
  have threads := rtThreadSuspend_threads isReady
  have removed : Located (rtThreadSuspend kernel thread).2
      { places with home := Function.update places.home thread none } := by
    rw [rtThreadSuspend, if_neg (by simp [isReady])]
    exact (located.setStat thread .suspend).removeThread thread
  have plain := ThreadNode.not_isHead_tlist thread
  have isHead := ThreadNode.isHead_wait list
  have loose : atNode (Function.update places.home thread none) (.tlist thread) = none := by simp
  simp only [rtIpcListSuspend] at step
  cases flag with
  | fifo =>
      obtain rfl := Option.some_inj.mp step
      have linked := removed.link (removed.threads.insertBefore_head isHead plain loose)
      dsimp only at linked
      rw [Function.update_idem] at linked
      exact ⟨linked, threads⟩
  | prio =>
      obtain ⟨position, scan, done⟩ := Option.bind_eq_some_iff.mp step
      obtain rfl := Option.some_inj.mp done
      have linked := removed.link (removed.threads.insertBefore_scan isHead plain loose scan)
      dsimp only at linked
      rw [Function.update_idem] at linked
      exact ⟨linked, threads⟩

end Located

/-! ## Operations that end no thread -/

/-- The thread has not ended before or after, and is not put on `rt_thread_defunct`. -/
structure Alive (kernel next : Kernel) (places : Whereabouts) (thread : ThreadId) : Prop where
  before : (kernel.threads thread).stat ≠ .close
  after : (next.threads thread).stat ≠ .close
  started : (next.threads thread).stat = .init → (kernel.threads thread).stat = .init
  home : places.home thread ≠ some .defunct

/-- The thread is where it was. -/
structure Still (kernel next : Kernel) (places places' : Whereabouts) (thread : ThreadId) :
    Prop where
  stat : (next.threads thread).stat = (kernel.threads thread).stat
  home : places'.home thread = places.home thread
  timer : places'.timer thread = places.timer thread

/-- Nothing happens but to threads that have not ended, and these have not ended
afterwards. -/
structure Routine (kernel next : Kernel) (places places' : Whereabouts) : Prop where
  located : Located next places'
  object : places'.object = places.object
  timerObject : places'.timerObject = places.timerObject
  isSystemObject : ∀ thread,
    (next.threads thread).isSystemObject = (kernel.threads thread).isSystemObject
  cleanup : ∀ thread, (next.threads thread).cleanup = (kernel.threads thread).cleanup
  thread : ∀ thread, Still kernel next places places' thread ∨ Alive kernel next places' thread

namespace Routine

variable {kernel middle next : Kernel} {places places' places'' : Whereabouts} {thread : ThreadId}

/-- Only the lists, the timers and three fields of every thread matter. -/
theorem of_same (located : Located kernel places) (links : next.threadLinks = kernel.threadLinks)
    (timerLinks : next.timerLinks = kernel.timerLinks)
    (objects : next.objectLinks = kernel.objectLinks) (timers : next.timers = kernel.timers)
    (threads : ∀ thread, (next.threads thread).stat = (kernel.threads thread).stat ∧
      (next.threads thread).isSystemObject = (kernel.threads thread).isSystemObject ∧
      (next.threads thread).cleanup = (kernel.threads thread).cleanup) :
    Routine kernel next places places where
  located := located.congr links timerLinks objects timers
  object := rfl
  timerObject := rfl
  isSystemObject thread := (threads thread).2.1
  cleanup thread := (threads thread).2.2
  thread thread := Or.inl ⟨(threads thread).1, rfl, rfl⟩

theorem refl (located : Located kernel places) : Routine kernel kernel places places :=
  .of_same located rfl rfl rfl rfl fun _ => ⟨rfl, rfl, rfl⟩

theorem trans (first : Routine kernel middle places places')
    (second : Routine middle next places' places'') : Routine kernel next places places'' where
  located := second.located
  object := second.object.trans first.object
  timerObject := second.timerObject.trans first.timerObject
  isSystemObject thread := (second.isSystemObject thread).trans (first.isSystemObject thread)
  cleanup thread := (second.cleanup thread).trans (first.cleanup thread)
  thread thread := by
    rcases first.thread thread with still | alive
    · rcases second.thread thread with still' | alive'
      · exact Or.inl ⟨still'.stat.trans still.stat, still'.home.trans still.home,
          still'.timer.trans still.timer⟩
      · exact Or.inr ⟨still.stat ▸ alive'.before, alive'.after,
          fun isInit => still.stat ▸ alive'.started isInit, alive'.home⟩
    · rcases second.thread thread with still' | alive'
      · exact Or.inr ⟨alive.before, still'.stat ▸ alive.after,
          fun isInit => alive.started (still'.stat ▸ isInit), still'.home ▸ alive.home⟩
      · exact Or.inr ⟨alive.before, alive'.after,
          fun isInit => alive.started (alive'.started isInit), alive'.home⟩

/-- A step that changes the record and the places of one thread. -/
theorem of_update {record : Thread} {home : Option ThreadNode} {timer : Option TimerNode}
    (located : Located next
      { places with
        home := Function.update places.home thread home
        timer := Function.update places.timer thread timer })
    (threads : next.threads = Function.update kernel.threads thread record)
    (fixed : record.isSystemObject = (kernel.threads thread).isSystemObject ∧
      record.cleanup = (kernel.threads thread).cleanup)
    (before : (kernel.threads thread).stat ≠ .close) (after : record.stat ≠ .close)
    (started : record.stat = .init → (kernel.threads thread).stat = .init)
    (elsewhere : home ≠ some .defunct) :
    Routine kernel next places
      { places with
        home := Function.update places.home thread home
        timer := Function.update places.timer thread timer } := by
  refine ⟨located, rfl, rfl, ?_, ?_, ?_⟩ <;> intro other <;> by_cases same : other = thread
  · subst same
    simpa [threads] using fixed.1
  · simp [threads, same]
  · subst same
    simpa [threads] using fixed.2
  · simp [threads, same]
  · subst same
    exact Or.inr ⟨before, by simpa [threads] using after, by simpa [threads] using started,
      by simpa using elsewhere⟩
  · exact Or.inl ⟨by simp [threads, same], by simp [same], by simp [same]⟩

/-- A step that changes the record and the home of one thread. -/
theorem of_home {record : Thread} {home : Option ThreadNode}
    (located : Located next { places with home := Function.update places.home thread home })
    (threads : next.threads = Function.update kernel.threads thread record)
    (fixed : record.isSystemObject = (kernel.threads thread).isSystemObject ∧
      record.cleanup = (kernel.threads thread).cleanup)
    (before : (kernel.threads thread).stat ≠ .close) (after : record.stat ≠ .close)
    (started : record.stat = .init → (kernel.threads thread).stat = .init)
    (elsewhere : home ≠ some .defunct) :
    Routine kernel next places
      { places with home := Function.update places.home thread home } := by
  have whole : Routine kernel next places
      { places with
        home := Function.update places.home thread home
        timer := Function.update places.timer thread (places.timer thread) } := by
    refine .of_update ?_ threads fixed before after started elsewhere
    rw [Function.update_eq_self]
    exact located
  rwa [Function.update_eq_self] at whole

/-! ### The scheduler -/

theorem schedule (located : Located kernel places) :
    Routine kernel (rtSchedule kernel) places places := by
  have same := rtSchedule_sameTimers kernel
  have objects : (rtSchedule kernel).objectLinks = kernel.objectLinks := by
    unfold rtSchedule
    dsimp only
    split
    · split <;> rfl
    · rfl
  exact .of_same located (rtSchedule_threadLinks kernel) same.links objects same.timers
    fun _ => by simp

theorem schedulerStart (located : Located kernel places) :
    Routine kernel (rtSystemSchedulerStart kernel) places places :=
  .of_same located rfl rfl rfl rfl fun _ => ⟨rfl, rfl, rfl⟩

theorem enterCritical (located : Located kernel places) :
    Routine kernel (rtEnterCritical kernel) places places :=
  .of_same located rfl rfl rfl rfl fun _ => ⟨rfl, rfl, rfl⟩

theorem exitCritical (located : Located kernel places) :
    Routine kernel (rtExitCritical kernel) places places := by
  have nested : ∀ nest, Routine kernel { kernel with rtSchedulerLockNest := nest } places places :=
    fun _ => .of_same located rfl rfl rfl rfl fun _ => ⟨rfl, rfl, rfl⟩
  unfold rtExitCritical
  dsimp only
  split
  · exact (nested 0).trans (.schedule (nested 0).located)
  · exact nested _

theorem insertThread (located : Located kernel places) (loose : places.home thread = none)
    (unended : (kernel.threads thread).stat ≠ .close) :
    ∃ places', Routine kernel (rtScheduleInsertThread kernel thread) places places' := by
  obtain ⟨priority, inserted⟩ := located.insertThread loose
  exact ⟨_, .of_home inserted (rtScheduleInsertThread_threads kernel thread) ⟨rfl, rfl⟩ unended
    (by simp) (by simp) (by simp)⟩

theorem suspendSection (located : Located kernel places)
    (unended : (kernel.threads thread).stat ≠ .close) :
    Routine kernel (rtThreadSuspendSection kernel thread) places
      { places with home := Function.update places.home thread none } := by
  have threads : (rtThreadSuspendSection kernel thread).threads =
      Function.update kernel.threads thread { kernel.threads thread with stat := .suspend } := by
    simp [rtThreadSuspendSection, Kernel.setStat, Kernel.setThread]
  exact .of_home ((located.setStat thread .suspend).removeThread thread) threads ⟨rfl, rfl⟩ unended
    (by simp) (by simp) (by simp)

theorem suspendReady (located : Located kernel places)
    (isReady : (kernel.threads thread).stat = .ready) :
    Routine kernel (rtThreadSuspend kernel thread).2 places
      { places with home := Function.update places.home thread none } := by
  rw [rtThreadSuspend_eq isReady]
  exact .suspendSection located (by simp [isReady])

/-! ### Resuming -/

theorem resumeUnlink (located : Located kernel places)
    (unended : (kernel.threads thread).stat ≠ .close) :
    Routine kernel (rtThreadResumeUnlink kernel thread) places
      { places with
        home := Function.update places.home thread none
        timer := Function.update places.timer thread none } :=
  .of_update (located.resumeUnlink thread) (Function.update_eq_self ..).symm ⟨rfl, rfl⟩ unended
    unended id (by simp)

theorem resume (located : Located kernel places) (thread : ThreadId) :
    ∃ places', Routine kernel (rtThreadResume kernel thread).2 places places' := by
  by_cases suspended : (kernel.threads thread).stat = .suspend
  · have unended : (kernel.threads thread).stat ≠ .close := by simp [suspended]
    have unlinked := Routine.resumeUnlink located unended
    obtain ⟨places', inserted⟩ := Routine.insertThread unlinked.located
      (Function.update_self ..) unended
    rw [rtThreadResume, if_neg (by simp [suspended])]
    exact ⟨places', unlinked.trans inserted⟩
  · rw [rtThreadResume, if_pos suspended]
    exact ⟨places, .refl located⟩

/-- Change fields of a record that do not matter here. -/
theorem setThread (located : Located kernel places) (record : Thread)
    (stat : record.stat = (kernel.threads thread).stat)
    (fixed : record.isSystemObject = (kernel.threads thread).isSystemObject ∧
      record.cleanup = (kernel.threads thread).cleanup) :
    Routine kernel (kernel.setThread thread record) places places := by
  refine .of_same located rfl rfl rfl rfl fun other => ?_
  by_cases same : other = thread
  · subst same
    simpa [Kernel.setThread] using ⟨stat, fixed⟩
  · simp [Kernel.setThread, same]

theorem changePriority (located : Located kernel places) (thread : ThreadId) (priority : Nat) :
    ∃ places', Routine kernel (rtThreadChangePriority kernel thread priority) places places' := by
  have threads := rtThreadChangePriority_threads kernel thread priority
  unfold rtThreadChangePriority at threads ⊢
  split at threads
  · rename_i isReady
    rw [if_pos isReady]
    have removed : Located (setPriority (rtScheduleRemoveThread kernel thread) thread priority)
        { places with home := Function.update places.home thread none } :=
      (located.removeThread thread).congr rfl rfl rfl rfl
    obtain ⟨level, inserted⟩ := removed.insertThread (Function.update_self ..)
    dsimp only at inserted
    rw [Function.update_idem] at inserted
    exact ⟨_, .of_home inserted threads ⟨rfl, rfl⟩ (by simp [isReady]) (by simp [isReady])
      (by simp) (by simp)⟩
  · rename_i notReady
    rw [if_neg notReady]
    exact ⟨places, .setThread located _ rfl ⟨rfl, rfl⟩⟩

theorem startup (located : Located kernel places)
    (step : rtThreadStartup kernel thread = some next) :
    ∃ places', Routine kernel next places places' := by
  unfold rtThreadStartup at step
  split at step
  · rename_i isInit
    let prepared := (setPriority kernel thread (kernel.threads thread).initPriority).setStat
      thread .suspend
    have suspended : (prepared.threads thread).stat = .suspend := by
      simp [prepared, Kernel.setStat, Kernel.setThread]
    have record : prepared.threads = Function.update kernel.threads thread
        { kernel.threads thread with
          stat := .suspend
          currentPriority := (kernel.threads thread).initPriority
          numberMask := priorityMask (kernel.threads thread).initPriority } := by
      simp [prepared, Kernel.setStat, setPriority, Kernel.setThread]
    have unlinked := (located.congr rfl rfl rfl rfl : Located prepared places).resumeUnlink thread
    obtain ⟨level, inserted⟩ := unlinked.insertThread (Function.update_self ..)
    dsimp only at inserted
    rw [Function.update_idem] at inserted
    have threads := rtThreadResume_threads suspended
    rw [record, Function.update_idem, Function.update_self] at threads
    have resumed : (rtThreadResume prepared thread).2 =
        rtScheduleInsertThread (rtThreadResumeUnlink prepared thread) thread := by
      rw [rtThreadResume, if_neg (by simp [suspended])]
    rw [← resumed] at inserted
    have started := Routine.of_update inserted threads ⟨rfl, rfl⟩ (by simp [isInit]) (by simp)
      (by simp) (by simp)
    rw [Option.some_inj] at step
    subst step
    split
    · exact ⟨_, started.trans (.schedule started.located)⟩
    · exact ⟨_, started⟩
  · cases step

/-! ### Waiting -/

theorem yieldSection (located : Located kernel places) (thread : ThreadId) :
    ∃ places', Routine kernel (rtThreadYieldSection kernel thread).1 places places' := by
  unfold rtThreadYieldSection
  split
  · rename_i eligible
    have linked := (located.unlinkThread thread).linkThreadBefore
      (ThreadNode.isHead_ready (kernel.threads thread).currentPriority) (Function.update_self ..)
    dsimp only at linked
    rw [Function.update_idem] at linked
    have unended : (kernel.threads thread).stat ≠ .close := by simp [eligible.1]
    exact ⟨_, .of_home linked (Function.update_eq_self ..).symm ⟨rfl, rfl⟩ unended unended id
      (by simp)⟩
  · exact ⟨places, .refl located⟩

theorem startThreadTimer (located : Located kernel places) {time : BitVec 32} {result : Err}
    (unended : (kernel.threads thread).stat ≠ .close)
    (elsewhere : places.home thread ≠ some .defunct)
    (step : startThreadTimer kernel thread time = some (result, next)) :
    ∃ places', Routine kernel next places places' := by
  obtain ⟨place, started, threads⟩ := located.startThreadTimer step
  have record : next.threads = Function.update kernel.threads thread (kernel.threads thread) := by
    rw [threads, Function.update_eq_self]
  refine ⟨{ places with
    home := Function.update places.home thread (places.home thread)
    timer := Function.update places.timer thread place }, ?_⟩
  refine .of_update ?_ record ⟨rfl, rfl⟩ unended unended id elsewhere
  rw [Function.update_eq_self]
  exact started

theorem sleepSection (located : Located kernel places)
    (isReady : (kernel.threads thread).stat = .ready) {tick : BitVec 32} {result : Err}
    (step : rtThreadSleepSection kernel thread tick = some (result, next)) :
    ∃ places', Routine kernel next places places' := by
  have suspended := Routine.suspendReady located isReady
  obtain ⟨places', started⟩ := startThreadTimer suspended.located
    (by simp [rtThreadSuspend_threads isReady]) (by simp) step
  exact ⟨places', suspended.trans started⟩

theorem waits (located : Located kernel places) (isReady : (kernel.threads thread).stat = .ready)
    {list : WaitList} {flag : IpcFlag} {time : BitVec 32} {outcome : Outcome}
    (step : suspendOn kernel list thread flag time = some (next, outcome)) :
    ∃ places', Routine kernel next places places' := by
  obtain ⟨waiting, suspend, step⟩ := Option.bind_eq_some_iff.mp step
  obtain ⟨linked, threads⟩ := located.listSuspend isReady suspend
  have queued := Routine.of_home linked threads ⟨rfl, rfl⟩ (by simp [isReady]) (by simp) (by simp)
    (by simp)
  dsimp only at step
  split at step
  · obtain ⟨⟨result, armed⟩, start, done⟩ := Option.bind_eq_some_iff.mp step
    obtain ⟨rfl, -⟩ := Prod.mk.inj (Option.some_inj.mp done)
    obtain ⟨places', started⟩ := startThreadTimer queued.located (by simp [threads]) (by simp) start
    exact ⟨places', queued.trans started⟩
  · obtain ⟨rfl, -⟩ := Prod.mk.inj (Option.some_inj.mp step)
    exact ⟨_, queued⟩

theorem sleepReturn (located : Located kernel places) (thread : ThreadId) :
    Routine kernel (rtThreadSleepReturn kernel thread) places places := by
  unfold rtThreadSleepReturn
  split
  · exact .setThread located _ rfl ⟨rfl, rfl⟩
  · exact .refl located

/-! ### One tick -/

theorem checkTimeSlice (located : Located kernel places)
    (step : checkTimeSlice kernel = some next) :
    ∃ places', Routine kernel next places places' := by
  unfold RtThread.checkTimeSlice at step
  split at step
  · rename_i thread _
    have charged : Routine kernel (chargeTick kernel thread).1 places places := by
      unfold chargeTick
      dsimp only
      split <;> exact .setThread located _ rfl ⟨rfl, rfl⟩
    dsimp only at step
    split at step
    · unfold rtThreadYield at step
      split at step
      · rename_i current _
        obtain ⟨places', rotated⟩ := Routine.yieldSection charged.located current
        have passed := charged.trans rotated
        obtain rfl := Option.some_inj.mp step
        refine ⟨places', ?_⟩
        dsimp only
        split
        · exact passed.trans (.schedule passed.located)
        · exact passed
      · cases step
    · obtain rfl := Option.some_inj.mp step
      exact ⟨places, charged⟩
  · cases step

/-- Time out a thread and clear the flag of its timer. -/
theorem timeout (located : Located kernel places) {called : Kernel}
    (call : rtThreadTimeout (kernel.unlinkTimer (.thread thread)) thread = some called) :
    called.timers = kernel.timers ∧
      ∃ places', Routine kernel (called.deactivate (.thread thread)) places places' := by
  unfold rtThreadTimeout at call
  split at call
  · rename_i suspended
    let marked := (kernel.unlinkTimer (.thread thread)).setError thread .etimeout
    have staged : Located marked
        { places with timer := Function.update places.timer thread none } :=
      (located.unlinkTimer thread).congr rfl rfl rfl rfl
    obtain ⟨level, inserted⟩ := (staged.unlinkThread thread).insertThread (Function.update_self ..)
    dsimp only at inserted
    rw [Function.update_idem] at inserted
    have threads : (rtScheduleInsertThread (marked.unlinkThread thread) thread).threads =
        Function.update kernel.threads thread
          { kernel.threads thread with error := .etimeout, stat := .ready } := by
      simp [marked, Kernel.setError, Kernel.setThread, Kernel.unlinkThread, Kernel.unlinkTimer]
    have scheduled := rtSchedule_threads
      (rtScheduleInsertThread (marked.unlinkThread thread) thread)
    have done := (Routine.schedule inserted).located.deactivate (Function.update_self ..)
    have unended : (kernel.threads thread).stat ≠ .close := by
      rw [show (kernel.threads thread).stat = .suspend from suspended]
      simp
    obtain rfl := Option.some_inj.mp call
    exact ⟨(rtSchedule_sameTimers _).timers, _, .of_update done (scheduled.trans threads)
      ⟨rfl, rfl⟩ unended (by simp) (by simp) (by simp)⟩
  · cases call

/-- The loop of `rt_timer_check` times out one thread after the other. -/
theorem checkLoop {currentTick : BitVec 32} {fired : List TimerId}
    (located : Located kernel places)
    (step : rtTimerCheckLoop threadTimeoutFunc currentTick kernel = some (next, fired)) :
    ∃ places', Routine kernel next places places' := by
  revert places
  refine Kernel.rtTimerCheckLoop.partial_correctness threadTimeoutFunc
    (fun _ kernel result => ∀ {places}, Located kernel places →
      ∃ places', Routine kernel result.1 places places') ?_ currentTick kernel (next, fired) step
  intro loop ih currentTick kernel result step places located
  split at step
  · obtain rfl := Option.some_inj.mp step
    exact ⟨places, .refl located⟩
  · rename_i timer entry
    split at step
    · obtain ⟨called, call, step⟩ := Option.bind_eq_some_iff.mp step
      obtain ⟨finished, finish, step⟩ := Option.bind_eq_some_iff.mp step
      obtain ⟨⟨last, later⟩, rest, done⟩ := Option.bind_eq_some_iff.mp step
      obtain rfl := Option.some_inj.mp done
      cases timer with
      | object index =>
          have there := located.timers.next_home TimerNode.isHead_timerList
            (by rw [entry]; exact TimerNode.not_isHead_timer _)
          rw [entry] at there
          cases there
      | thread thread =>
          obtain ⟨timers, places', timed⟩ := Routine.timeout located call
          rw [rtTimerFinish, timers, located.oneShot] at finish
          obtain rfl := Option.some_inj.mp finish
          obtain ⟨places'', checked⟩ := ih _ _ _ rest timed.located
          exact ⟨places'', timed.trans checked⟩
    · obtain rfl := Option.some_inj.mp step
      exact ⟨places, .refl located⟩

theorem tickIncrease {fired : List TimerId} (located : Located kernel places)
    (step : rtTickIncrease threadTimeoutFunc kernel = some (next, fired)) :
    ∃ places', Routine kernel next places places' := by
  obtain ⟨charged, slice, check⟩ := Option.bind_eq_some_iff.mp step
  have counted : Routine kernel { kernel with rtTick := kernel.rtTick + 1#32 } places places :=
    .of_same located rfl rfl rfl rfl fun _ => ⟨rfl, rfl, rfl⟩
  obtain ⟨places', sliced⟩ := Routine.checkTimeSlice counted.located slice
  obtain ⟨places'', checked⟩ := Routine.checkLoop sliced.located check
  exact ⟨places'', counted.trans (sliced.trans checked)⟩

end Routine

end RtThread
