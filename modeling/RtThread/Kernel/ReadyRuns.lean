import RtThread.Std.Machine
import RtThread.Kernel.Boot
import RtThread.Kernel.ReadyQueue

/-!
# Runs of thread operations

Any sequence of thread operations on started threads keeps the ready structure
consistent, so `rt_schedule` always finds the first thread of the highest ready
priority.
-/

namespace RtThread

open RtThread.Std

/-- A kernel operation, executed as one step. -/
inductive ThreadOp where
  | schedulerStart
  | startup (thread : ThreadId)
  | suspend (thread : ThreadId)
  | resume (thread : ThreadId)
  | yield
  | sleep (tick : BitVec 32)
  | sleepReturn (thread : ThreadId)
  | timeout (thread : ThreadId)
  | changePriority (thread : ThreadId) (priority : Nat)
  | exit
  | delete (thread : ThreadId)
  | detach (thread : ThreadId)
  | enterCritical
  | exitCritical
  | schedule
deriving DecidableEq, Repr

def ThreadOp.apply (kernel : Kernel) : ThreadOp → Option Kernel
  | .schedulerStart => some (rtSystemSchedulerStart kernel)
  | .startup thread => rtThreadStartup kernel thread
  | .suspend thread => some (rtThreadSuspend kernel thread).2
  | .resume thread => some (rtThreadResume kernel thread).2
  | .yield => rtThreadYield kernel
  | .sleep tick => rtThreadSleep kernel tick
  | .sleepReturn thread => some (rtThreadSleepReturn kernel thread)
  | .timeout thread => rtThreadTimeout kernel thread
  | .changePriority thread priority => some (rtThreadChangePriority kernel thread priority)
  | .exit => rtThreadExit kernel
  | .delete thread => some (rtThreadDelete kernel thread)
  | .detach thread => some (rtThreadDetach kernel thread)
  | .enterCritical => some (rtEnterCritical kernel)
  | .exitCritical => some (rtExitCritical kernel)
  | .schedule => some (rtSchedule kernel)

/-- The operation is on a started thread, and a new priority is in range. -/
def ThreadOp.OnStarted (kernel : Kernel) : ThreadOp → Prop
  | .changePriority thread priority => (kernel.threads thread).stat ≠ .init ∧ priority < 32
  | .delete thread => (kernel.threads thread).stat ≠ .init
  | .detach thread => (kernel.threads thread).stat ≠ .init
  | _ => True

/-- The machine whose steps are thread operations. -/
def threadMachine : Machine Kernel ThreadOp Empty where
  step kernel op := (op.apply kernel).map fun next => (next, [])

/-- The ready structure as the pointers and the records show it. -/
structure ReadyConsistent (kernel : Kernel) : Prop where
  /-- A bit of the group is set iff the list of its priority is not empty. -/
  bitmap : ∀ priority < 32, kernel.rtThreadReadyPriorityGroup.getLsbD priority = true ↔
    ¬ kernel.threadLinks.isEmpty (.ready priority)
  /-- A thread is in a priority list iff it is ready. -/
  linked : ∀ thread, (kernel.threads thread).stat = .ready ↔
    ∃ priority < 32, kernel.threadLinks.Linked (.ready priority) (.tlist thread)
  /-- The only priority list that carries a thread is that of its priority. -/
  home : ∀ thread priority, priority < 32 →
    kernel.threadLinks.Linked (.ready priority) (.tlist thread) →
      priority = (kernel.threads thread).currentPriority
  /-- The cached mask of a started thread is that of its priority. -/
  mask : ∀ thread, (kernel.threads thread).stat ≠ .init →
    (kernel.threads thread).numberMask = 1#32 <<< (kernel.threads thread).currentPriority

/-- The first thread of the non-empty list with the lowest number is current. -/
def RunsHighest (kernel : Kernel) : Prop :=
  ∃ thread priority, priority < 32 ∧ kernel.rtCurrentThread = .thread thread ∧
    kernel.threadLinks.next (.ready priority) = .tlist thread ∧
    ∀ higher < priority, kernel.threadLinks.isEmpty (.ready higher)

/-- The invariant of all runs of thread operations. -/
structure ThreadInv (kernel : Kernel) : Prop where
  lists : ∃ lists, ReadyInv.All kernel lists
  current : ∀ thread, kernel.rtCurrentThread = .thread thread →
    (kernel.threads thread).stat ≠ .init

namespace ReadyInv

variable {kernel : Kernel} {lists : ThreadNode → List ThreadNode} {thread : ThreadId}

theorem consistent (inv : ReadyInv.All kernel lists) : ReadyConsistent kernel where
  bitmap priority small := by
    rw [inv.group priority small, inv.rings.isEmpty_iff (ThreadNode.isHead_ready priority)]
  linked thread := by
    rw [inv.ready thread id]
    constructor
    · intro member
      exact ⟨_, (inv.priority thread).1,
        (inv.rings.linked_iff (ThreadNode.isHead_ready _) _).mpr member⟩
    · rintro ⟨priority, small, linked⟩
      have member := (inv.rings.linked_iff (ThreadNode.isHead_ready priority) _).mp linked
      rwa [inv.home thread priority member] at member
  home thread priority _ linked :=
    inv.home thread priority ((inv.rings.linked_iff (ThreadNode.isHead_ready priority) _).mp linked)
  mask thread started := inv.mask thread started

/-- The entry behind a ready list head is one of its threads, or the head itself. -/
theorem next_ready (inv : ReadyInv.All kernel lists) {priority : Nat}
    (entry : kernel.threadLinks.next (.ready priority) = .tlist thread) :
    .tlist thread ∈ lists (.ready priority) := by
  rw [inv.rings.next_head (ThreadNode.isHead_ready priority)] at entry
  cases shape : lists (.ready priority) with
  | nil => simp [shape] at entry
  | cons first rest =>
      rw [shape] at entry
      simp [← entry]

theorem selected_ready (inv : ReadyInv.All kernel lists)
    (selected : highestReadyThread kernel = .thread thread) :
    (kernel.threads thread).stat = .ready := by
  have member := inv.next_ready (threadEntry_eq_thread.mp selected)
  have home := inv.home thread _ member
  rw [inv.ready thread id, ← home]
  exact member

/-- With a ready thread the selected list is not empty, and none before it is. -/
theorem selected_highest (inv : ReadyInv.All kernel lists)
    (some_ready : (kernel.threads thread).stat = .ready) :
    ∃ first priority, priority < 32 ∧ highestReadyThread kernel = .thread first ∧
      kernel.threadLinks.next (.ready priority) = .tlist first ∧
      ∀ higher < priority, kernel.threadLinks.isEmpty (.ready higher) := by
  have member := (inv.ready thread id).mp some_ready
  have small := (inv.priority thread).1
  have nonzero : kernel.rtThreadReadyPriorityGroup ≠ 0#32 := by
    intro zero
    have set := (inv.group _ small).mpr (List.ne_nil_of_mem member)
    simp [zero] at set
  obtain ⟨bound, set, lowest⟩ := highestReadyPriority_lowest _ nonzero
  have head := ThreadNode.isHead_ready (highestReadyPriority kernel.rtThreadReadyPriorityGroup)
  cases shape : lists (.ready (highestReadyPriority kernel.rtThreadReadyPriorityGroup)) with
  | nil => exact absurd shape ((inv.group _ bound).mp set)
  | cons node rest =>
      have plain := inv.rings.plain _ node head (by simp [shape])
      have entry := inv.rings.next_head head
      rw [shape, List.headD_cons] at entry
      cases node with
      | tlist first =>
          refine ⟨first, _, bound, threadEntry_eq_thread.mpr entry, entry, ?_⟩
          intro higher below
          have clear := lowest higher below
          rw [inv.rings.isEmpty_iff (ThreadNode.isHead_ready higher)]
          by_contra nonempty
          rw [(inv.group higher (by omega)).mpr nonempty] at clear
          exact Bool.noConfusion clear
      | ready _ => exact absurd trivial plain
      | defunct => exact absurd trivial plain
      | wait _ => exact absurd trivial plain

theorem schedule (inv : ReadyInv.All kernel lists) : ReadyInv.All (rtSchedule kernel) lists :=
  inv.congr (rtSchedule_threadLinks kernel) (rtSchedule_threads kernel) (rtSchedule_group kernel)

/-- Unlinking a suspended thread and inserting it makes it ready. -/
theorem resume (inv : ReadyInv.All kernel lists)
    (stat : (kernel.threads thread).stat = .suspend) :
    ∃ lists', ReadyInv.All (rtScheduleInsertThread (rtThreadResumeUnlink kernel thread) thread)
      lists' := by
  have absent := inv.absent_of_not_ready thread (by simp [stat])
  have unlinked := (inv.except thread).unlink absent
  have ready : ReadyInv (· = thread) (rtThreadResumeUnlink kernel thread)
      (fun head => (lists head).erase (.tlist thread)) := unlinked.congr rfl rfl rfl
  exact ⟨_, ready.insert inv.remove_loose (inv.mask thread (by simp [stat]))⟩

theorem rtThreadResume (inv : ReadyInv.All kernel lists) (thread : ThreadId) :
    ∃ lists', ReadyInv.All (rtThreadResume kernel thread).2 lists' := by
  unfold RtThread.rtThreadResume
  split
  · exact ⟨lists, inv⟩
  · rename_i suspended
    exact inv.resume (Classical.not_not.mp suspended)

/-- Take a thread out of the ready structure and give it a state other than ready. -/
theorem retire (inv : ReadyInv.All kernel lists) (stat : ThreadStat) (isReady : stat ≠ .ready)
    (mask : (kernel.threads thread).numberMask =
      priorityMask (kernel.threads thread).currentPriority) :
    ReadyInv.All ((rtScheduleRemoveThread kernel thread).setStat thread stat)
      (fun head => (lists head).erase (.tlist thread)) := by
  have removed := (inv.except thread).remove mask
  refine (removed.setStat stat (by simpa using mask)).settle ?_ ?_
  · simpa [Kernel.setStat, Kernel.setThread] using isReady
  · intro priority
    exact inv.remove_loose _ (ThreadNode.isHead_ready priority)

theorem rtThreadSuspend (inv : ReadyInv.All kernel lists) (thread : ThreadId) :
    ∃ lists', ReadyInv.All (rtThreadSuspend kernel thread).2 lists' := by
  unfold RtThread.rtThreadSuspend
  split
  · exact ⟨lists, inv⟩
  · rename_i isReady
    have mask := inv.mask thread (by simp [Classical.not_not.mp isReady])
    have staged := (inv.except thread).setStat .suspend mask
    have removed := staged.remove (by simpa [Kernel.setStat, Kernel.setThread] using mask)
    refine ⟨_, removed.settle ?_ ?_⟩
    · simp [Kernel.setStat, Kernel.setThread]
    · intro priority
      exact inv.remove_loose _ (ThreadNode.isHead_ready priority)

theorem rtThreadStartup (inv : ReadyInv.All kernel lists) {next : Kernel}
    (step : rtThreadStartup kernel thread = some next) : ∃ lists', ReadyInv.All next lists' := by
  unfold RtThread.rtThreadStartup at step
  split at step
  · rename_i isInit
    have absent := inv.absent_of_not_ready thread (by simp [isInit])
    have prepared := ((inv.except thread).setThread
      { kernel.threads thread with
        currentPriority := (kernel.threads thread).initPriority
        numberMask := priorityMask (kernel.threads thread).initPriority }
      ⟨(inv.priority thread).2, (inv.priority thread).2⟩ (fun _ => rfl) (Or.inr absent)).setStat
        .suspend (by simp [Kernel.setThread])
    have settled := prepared.settle (by simp [Kernel.setStat, Kernel.setThread]) absent
    obtain ⟨lists', resumed⟩ := settled.rtThreadResume thread
    simp only [Option.some.injEq] at step
    subst step
    refine ⟨lists', ?_⟩
    split
    · exact resumed.schedule
    · exact resumed
  · simp at step

theorem rtThreadChangePriority (inv : ReadyInv.All kernel lists) {priority : Nat}
    (small : priority < 32) :
    ∃ lists', ReadyInv.All (rtThreadChangePriority kernel thread priority) lists' := by
  unfold RtThread.rtThreadChangePriority
  split
  · rename_i isReady
    have mask := inv.mask thread (by simp [isReady])
    have removed := (inv.except thread).remove mask
    have changed := removed.setThread
      { (rtScheduleRemoveThread kernel thread).threads thread with
        currentPriority := priority, numberMask := priorityMask priority }
      ⟨small, (by simpa using (inv.priority thread).2)⟩ (fun _ => rfl)
      (Or.inr fun level => inv.remove_loose _ (ThreadNode.isHead_ready level))
    exact ⟨_, changed.insert inv.remove_loose (by simp [Kernel.setThread])⟩
  · rename_i notReady
    have absent := inv.absent_of_not_ready thread notReady
    have changed := (inv.except thread).setThread
      { kernel.threads thread with
        currentPriority := priority, numberMask := priorityMask priority }
      ⟨small, (inv.priority thread).2⟩ (fun _ => rfl) (Or.inr absent)
    exact ⟨lists, changed.settle (by simpa [Kernel.setThread] using notReady) absent⟩

theorem rtThreadDelete (inv : ReadyInv.All kernel lists)
    (mask : (kernel.threads thread).numberMask =
      priorityMask (kernel.threads thread).currentPriority) :
    ∃ lists', ReadyInv.All (rtThreadDelete kernel thread) lists' := by
  have retired : ReadyInv.All ((rtTimerDetach (rtScheduleRemoveThread kernel thread)
      (.thread thread)).setStat thread .close) (fun head => (lists head).erase (.tlist thread)) :=
    (inv.retire .close (by simp) mask).congr rfl rfl rfl
  exact ⟨_, retired.linkDefunct inv.remove_loose⟩

theorem rtThreadDetach (inv : ReadyInv.All kernel lists)
    (mask : (kernel.threads thread).numberMask =
      priorityMask (kernel.threads thread).currentPriority) :
    ∃ lists', ReadyInv.All (rtThreadDetach kernel thread) lists' := by
  have retired : ReadyInv.All (((rtTimerDetach (rtScheduleRemoveThread kernel thread)
      (.thread thread)).setStat thread .close).rtObjectDetach (.thread thread))
      (fun head => (lists head).erase (.tlist thread)) :=
    (inv.retire .close (by simp) mask).congr rfl rfl rfl
  unfold RtThread.rtThreadDetach
  dsimp only
  split
  · exact ⟨_, retired.linkDefunct inv.remove_loose⟩
  · exact ⟨_, retired⟩

theorem rtThreadTimeout (inv : ReadyInv.All kernel lists) {next : Kernel}
    (step : rtThreadTimeout kernel thread = some next) : ∃ lists', ReadyInv.All next lists' := by
  unfold RtThread.rtThreadTimeout at step
  split at step
  · rename_i suspended
    have absent := inv.absent_of_not_ready thread (by simp [suspended])
    have mask := inv.mask thread (by simp [suspended])
    have marked := (inv.except thread).setThread
      { kernel.threads thread with error := .etimeout } (inv.priority thread) (fun _ => mask)
      (Or.inl rfl)
    have unlinked := marked.unlink absent
    have inserted := unlinked.insert inv.remove_loose
      (by simpa [Kernel.unlinkThread, Kernel.setThread] using mask)
    simp only [Option.some.injEq] at step
    subst step
    exact ⟨_, inserted.schedule⟩
  · simp at step

theorem rtThreadExit (inv : ReadyInv.All kernel lists) {next : Kernel}
    (started : ∀ thread, kernel.rtCurrentThread = .thread thread →
      (kernel.threads thread).stat ≠ .init)
    (step : rtThreadExit kernel = some next) : ∃ lists', ReadyInv.All next lists' := by
  unfold RtThread.rtThreadExit at step
  split at step
  · rename_i thread current
    have retired : ReadyInv.All (rtTimerDetach
        ((rtScheduleRemoveThread kernel thread).setStat thread .close) (.thread thread))
        (fun head => (lists head).erase (.tlist thread)) :=
      (inv.retire .close (by simp) (inv.mask thread (started thread current))).congr rfl rfl rfl
    simp only [Option.some.injEq] at step
    subst step
    split
    · exact ⟨_, schedule (retired.congr rfl rfl rfl)⟩
    · exact ⟨_, schedule (retired.linkDefunct inv.remove_loose)⟩
  · simp at step

theorem rtThreadYieldSection (inv : ReadyInv.All kernel lists) (thread : ThreadId) :
    ∃ lists', ReadyInv.All (rtThreadYieldSection kernel thread).1 lists' := by
  unfold RtThread.rtThreadYieldSection
  split
  · rename_i eligible
    exact ⟨_, inv.rotate eligible.1⟩
  · exact ⟨lists, inv⟩

theorem rtThreadYield (inv : ReadyInv.All kernel lists) {next : Kernel}
    (step : rtThreadYield kernel = some next) : ∃ lists', ReadyInv.All next lists' := by
  unfold RtThread.rtThreadYield at step
  split at step
  · rename_i thread current
    obtain ⟨lists', rotated⟩ := inv.rtThreadYieldSection thread
    simp only [Option.some.injEq] at step
    subst step
    refine ⟨lists', ?_⟩
    split
    · exact rotated.schedule
    · exact rotated
  · simp at step

theorem rtThreadSleepSection (inv : ReadyInv.All kernel lists) {tick : BitVec 32} {result : Err}
    {next : Kernel} (step : rtThreadSleepSection kernel thread tick = some (result, next)) :
    ∃ lists', ReadyInv.All next lists' := by
  obtain ⟨lists', suspended⟩ := inv.rtThreadSuspend thread
  have frame := rtTimerStart_frame step
  exact ⟨lists', suspended.congr (by rw [frame]; rfl) (by rw [frame]; rfl) (by rw [frame]; rfl)⟩

theorem rtThreadSleep (inv : ReadyInv.All kernel lists) {tick : BitVec 32} {next : Kernel}
    (step : rtThreadSleep kernel tick = some next) : ∃ lists', ReadyInv.All next lists' := by
  unfold RtThread.rtThreadSleep at step
  split at step
  · simp only [Option.bind_eq_bind, Option.bind_eq_some_iff, Option.pure_def,
      Option.some.injEq] at step
    obtain ⟨⟨result, asleep⟩, section_, rfl⟩ := step
    obtain ⟨lists', kept⟩ := inv.rtThreadSleepSection section_
    exact ⟨lists', kept.schedule⟩
  · simp at step

theorem rtThreadSleepReturn (inv : ReadyInv.All kernel lists) (thread : ThreadId) :
    ReadyInv.All (rtThreadSleepReturn kernel thread) lists := by
  unfold RtThread.rtThreadSleepReturn
  split
  · exact inv.congr_rank rfl (setError_sameRank kernel thread .eok) rfl
  · exact inv

end ReadyInv

/-! ## One step -/

@[simp] theorem highestReadyThread_schedule (kernel : Kernel) :
    highestReadyThread (rtSchedule kernel) = highestReadyThread kernel := by
  simp [highestReadyThread]

/-- What an operation does to the current thread and to unstarted threads. -/
structure Advances (kernel next : Kernel) : Prop where
  current : next.rtCurrentThread = kernel.rtCurrentThread ∨
    next.rtCurrentThread = highestReadyThread next
  started : ∀ thread, (kernel.threads thread).stat ≠ .init → (next.threads thread).stat ≠ .init

theorem Advances.schedule {kernel next : Kernel} (advances : Advances kernel next) :
    Advances kernel (rtSchedule next) where
  current := by
    rw [rtSchedule_current, highestReadyThread_schedule]
    split
    · exact Or.inr rfl
    · rcases advances.current with same | selected
      · exact Or.inl same
      · exact Or.inr selected
  started thread := by simpa using advances.started thread

/-- A step that leaves the current thread alone. -/
theorem Advances.of_same {kernel next : Kernel}
    (current : next.rtCurrentThread = kernel.rtCurrentThread)
    (started : ∀ thread, (kernel.threads thread).stat ≠ .init →
      (next.threads thread).stat ≠ .init) : Advances kernel next :=
  ⟨Or.inl current, started⟩

theorem Advances.rtThreadResume (kernel : Kernel) (thread : ThreadId) :
    Advances kernel (rtThreadResume kernel thread).2 := by
  unfold RtThread.rtThreadResume
  split
  · exact .of_same rfl fun _ => id
  · refine .of_same rfl fun other started => ?_
    by_cases same : other = thread
    · subst same
      simp
    · simpa [Function.update_of_ne same] using started

theorem Advances.rtThreadSuspend (kernel : Kernel) (thread : ThreadId) :
    Advances kernel (rtThreadSuspend kernel thread).2 := by
  unfold RtThread.rtThreadSuspend
  split
  · exact .of_same rfl fun _ => id
  · refine .of_same (by simp [Kernel.setStat, Kernel.setThread]) fun other started => ?_
    by_cases same : other = thread
    · subst same
      simp [Kernel.setStat, Kernel.setThread]
    · simpa [Kernel.setStat, Kernel.setThread, Function.update_of_ne same] using started

theorem Advances.rtThreadChangePriority (kernel : Kernel) (thread : ThreadId) (priority : Nat) :
    Advances kernel (rtThreadChangePriority kernel thread priority) := by
  unfold RtThread.rtThreadChangePriority
  split
  · refine .of_same (by simp [setPriority, Kernel.setThread]) fun other started => ?_
    by_cases same : other = thread
    · subst same
      simp
    · simpa [setPriority, Kernel.setThread, Function.update_of_ne same] using started
  · refine .of_same rfl fun other started => ?_
    by_cases same : other = thread
    · subst same
      simpa [setPriority, Kernel.setThread] using started
    · simpa [setPriority, Kernel.setThread, Function.update_of_ne same] using started

theorem Advances.rtThreadStartup {kernel next : Kernel} {thread : ThreadId}
    (step : rtThreadStartup kernel thread = some next) : Advances kernel next := by
  unfold RtThread.rtThreadStartup at step
  split at step
  · simp only [Option.some.injEq] at step
    subst step
    have resumed := Advances.rtThreadResume ((setPriority kernel thread
      (kernel.threads thread).initPriority).setStat thread .suspend) thread
    have advances : Advances kernel (RtThread.rtThreadResume ((setPriority kernel thread
        (kernel.threads thread).initPriority).setStat thread .suspend) thread).2 := by
      refine ⟨resumed.current, fun other started => resumed.started other ?_⟩
      by_cases same : other = thread
      · subst same
        simp [Kernel.setStat, Kernel.setThread]
      · simpa [Kernel.setStat, setPriority, Kernel.setThread, Function.update_of_ne same]
          using started
    split
    · exact advances.schedule
    · exact advances
  · simp at step

/-- Closing a thread that has left the ready structure. -/
theorem Advances.close {kernel next : Kernel} (thread : ThreadId)
    (threads : next.threads = Function.update kernel.threads thread
      { kernel.threads thread with stat := .close })
    (current : next.rtCurrentThread = kernel.rtCurrentThread) : Advances kernel next := by
  refine .of_same current fun other started => ?_
  rw [threads]
  by_cases same : other = thread
  · subst same
    simp
  · simpa [Function.update_of_ne same] using started

theorem Advances.rtThreadDelete (kernel : Kernel) (thread : ThreadId) :
    Advances kernel (rtThreadDelete kernel thread) := by
  apply Advances.close thread <;>
    simp [RtThread.rtThreadDelete, Kernel.linkThreadAfter, Kernel.setStat, Kernel.setThread,
      rtTimerDetach, Kernel.rtObjectDetach, Kernel.unlinkTimer]

theorem Advances.rtThreadDetach (kernel : Kernel) (thread : ThreadId) :
    Advances kernel (rtThreadDetach kernel thread) := by
  unfold RtThread.rtThreadDetach
  dsimp only
  split <;> apply Advances.close thread <;>
    simp [Kernel.linkThreadAfter, Kernel.setStat, Kernel.setThread, rtTimerDetach,
      Kernel.rtObjectDetach, Kernel.unlinkTimer]

theorem Advances.rtThreadExit {kernel next : Kernel} (step : rtThreadExit kernel = some next) :
    Advances kernel next := by
  unfold RtThread.rtThreadExit at step
  split at step
  · rename_i thread current
    simp only [Option.some.injEq] at step
    subst step
    apply Advances.schedule
    split <;> apply Advances.close thread <;>
      simp [Kernel.linkThreadAfter, Kernel.setStat, Kernel.setThread, rtTimerDetach,
        Kernel.rtObjectDetach, Kernel.unlinkTimer]
  · simp at step

theorem Advances.rtThreadYield {kernel next : Kernel} (step : rtThreadYield kernel = some next) :
    Advances kernel next := by
  unfold RtThread.rtThreadYield at step
  split at step
  · rename_i thread current
    simp only [Option.some.injEq] at step
    subst step
    have rotated : Advances kernel (rtThreadYieldSection kernel thread).1 := by
      unfold rtThreadYieldSection
      split <;> exact .of_same rfl fun _ => id
    split
    · exact rotated.schedule
    · exact rotated
  · simp at step

theorem Advances.rtThreadSleep {kernel next : Kernel} {tick : BitVec 32}
    (step : rtThreadSleep kernel tick = some next) : Advances kernel next := by
  unfold RtThread.rtThreadSleep at step
  split at step
  · rename_i thread current
    simp only [Option.bind_eq_bind, Option.bind_eq_some_iff, Option.pure_def,
      Option.some.injEq] at step
    obtain ⟨⟨result, asleep⟩, start, rfl⟩ := step
    have suspended := Advances.rtThreadSuspend kernel thread
    have frame := rtTimerStart_frame start
    apply Advances.schedule
    constructor
    · rw [frame]
      exact suspended.current
    · rw [frame]
      exact suspended.started
  · simp at step

theorem Advances.rtThreadTimeout {kernel next : Kernel} {thread : ThreadId}
    (step : rtThreadTimeout kernel thread = some next) : Advances kernel next := by
  unfold RtThread.rtThreadTimeout at step
  split at step
  · simp only [Option.some.injEq] at step
    subst step
    apply Advances.schedule
    refine .of_same rfl fun other started => ?_
    by_cases same : other = thread
    · subst same
      simp
    · simpa [Kernel.unlinkThread, Kernel.setError, Kernel.setThread,
        Function.update_of_ne same] using started
  · simp at step

theorem Advances.rtThreadSleepReturn (kernel : Kernel) (thread : ThreadId) :
    Advances kernel (rtThreadSleepReturn kernel thread) := by
  unfold RtThread.rtThreadSleepReturn
  split
  · refine .of_same rfl fun other started => ?_
    rw [(setError_sameRank kernel thread .eok other).1]
    exact started
  · exact .of_same rfl fun _ => id

/-- Every operation moves the current thread only through the scheduler and
never makes a thread unstarted. -/
theorem ThreadOp.advances {kernel next : Kernel} {op : ThreadOp}
    (step : op.apply kernel = some next) : Advances kernel next := by
  cases op <;> simp only [ThreadOp.apply, Option.some.injEq] at step
  case schedulerStart => subst step; exact ⟨Or.inr rfl, fun _ => id⟩
  case startup => exact .rtThreadStartup step
  case suspend => subst step; exact .rtThreadSuspend _ _
  case resume => subst step; exact .rtThreadResume _ _
  case yield => exact .rtThreadYield step
  case sleep => exact .rtThreadSleep step
  case sleepReturn => subst step; exact .rtThreadSleepReturn _ _
  case timeout => exact .rtThreadTimeout step
  case changePriority => subst step; exact .rtThreadChangePriority _ _ _
  case exit => exact .rtThreadExit step
  case delete => subst step; exact .rtThreadDelete _ _
  case detach => subst step; exact .rtThreadDetach _ _
  case enterCritical => subst step; exact .of_same rfl fun _ => id
  case exitCritical =>
    subst step
    unfold rtExitCritical
    dsimp only
    split
    · have unlocked : Advances kernel { kernel with rtSchedulerLockNest := 0 } :=
        .of_same rfl fun _ => id
      exact unlocked.schedule
    · exact .of_same rfl fun _ => id
  case schedule => subst step; exact Advances.schedule (.of_same rfl fun _ => id)

/-- Every operation on a started thread keeps the ready structure. -/
theorem ThreadOp.lists {kernel next : Kernel} {op : ThreadOp} (inv : ThreadInv kernel)
    (admitted : op.OnStarted kernel) (step : op.apply kernel = some next) :
    ∃ lists, ReadyInv.All next lists := by
  obtain ⟨lists, ready⟩ := inv.lists
  cases op <;> simp only [ThreadOp.apply, Option.some.injEq] at step
  case schedulerStart => subst step; exact ⟨lists, ready.congr rfl rfl rfl⟩
  case startup => exact ready.rtThreadStartup step
  case suspend => subst step; exact ready.rtThreadSuspend _
  case resume => subst step; exact ready.rtThreadResume _
  case yield => exact ready.rtThreadYield step
  case sleep => exact ready.rtThreadSleep step
  case sleepReturn => subst step; exact ⟨lists, ready.rtThreadSleepReturn _⟩
  case timeout => exact ready.rtThreadTimeout step
  case changePriority => subst step; exact ready.rtThreadChangePriority admitted.2
  case exit => exact ready.rtThreadExit inv.current step
  case delete => subst step; exact ready.rtThreadDelete (ready.mask _ admitted)
  case detach => subst step; exact ready.rtThreadDetach (ready.mask _ admitted)
  case enterCritical => subst step; exact ⟨lists, ready.congr rfl rfl rfl⟩
  case exitCritical =>
    subst step
    unfold rtExitCritical
    dsimp only
    split
    · exact ⟨lists, ReadyInv.schedule (ready.congr rfl rfl rfl)⟩
    · exact ⟨lists, ready.congr rfl rfl rfl⟩
  case schedule => subst step; exact ⟨lists, ready.schedule⟩

theorem ThreadInv.step {kernel next : Kernel} {op : ThreadOp} (inv : ThreadInv kernel)
    (admitted : op.OnStarted kernel) (step : op.apply kernel = some next) : ThreadInv next := by
  obtain ⟨lists, ready⟩ := op.lists inv admitted step
  have advances := op.advances step
  refine ⟨⟨lists, ready⟩, fun thread current => ?_⟩
  rcases advances.current with same | selected
  · exact advances.started thread (inv.current thread (same.symm.trans current))
  · rw [ready.selected_ready (selected.symm.trans current)]
    simp

/-! ## Every run -/

theorem ThreadInv.initial (config : Config) : ThreadInv config.kernel := by
  refine ⟨⟨fun _ => [], Rings.nil _, ?_, ?_, ?_, ?_, ?_⟩, ?_⟩
  · simp [Config.kernel]
  · simp [Config.kernel, Config.initThread]
  · simp
  · exact fun thread => ⟨config.priority_lt thread, config.priority_lt thread⟩
  · exact fun thread started => absurd rfl started
  · simp [Config.kernel]

theorem ThreadInv.of_run {config : Config} {ops : List ThreadOp} {events : List Empty}
    {kernel : Kernel}
    (run : threadMachine.Run (fun kernel op => op.OnStarted kernel) config.kernel ops events
      kernel) : ThreadInv kernel := by
  refine run.invariant (ThreadInv.initial config) ?_
  intro kernel op next emitted inv admitted transition
  simp only [threadMachine, Option.map_eq_some_iff, Prod.mk.injEq] at transition
  obtain ⟨_, step, rfl, -⟩ := transition
  exact inv.step admitted step

/-- Along every run of operations on started threads the ready structure is
consistent, and an unlocked `rt_schedule` with a ready thread runs the first
thread of the highest ready priority. -/
theorem ready_structure_consistent {config : Config} {ops : List ThreadOp} {events : List Empty}
    {kernel : Kernel}
    (run : threadMachine.Run (fun kernel op => op.OnStarted kernel) config.kernel ops events
      kernel) :
    ReadyConsistent kernel ∧
      (kernel.rtSchedulerLockNest = 0 → (∃ thread, (kernel.threads thread).stat = .ready) →
        RunsHighest (rtSchedule kernel)) := by
  obtain ⟨lists, ready⟩ := (ThreadInv.of_run run).lists
  refine ⟨ready.consistent, ?_⟩
  rintro unlocked ⟨thread, isReady⟩
  obtain ⟨first, priority, small, selected, entry, lower⟩ := ready.selected_highest isReady
  refine ⟨first, priority, small, ?_, ?_, ?_⟩
  · rw [rtSchedule_current, if_pos unlocked, selected]
  · rw [rtSchedule_threadLinks, entry]
  · rw [rtSchedule_threadLinks]
    exact lower

/-- Two threads of one priority, the second of which has been suspended. -/
theorem ready_structure_consistent_two_threads :
    ∃ kernel, threadMachine.execute Config.plain.kernel
        [.startup 0, .startup 1, .schedulerStart, .yield, .yield, .suspend 1, .resume 1] =
          some (kernel, []) ∧
      ReadyConsistent kernel ∧ RunsHighest (rtSchedule kernel) := by
  obtain ⟨kernel, success, unlocked, isReady⟩ :
      ∃ kernel, threadMachine.execute Config.plain.kernel
          [.startup 0, .startup 1, .schedulerStart, .yield, .yield, .suspend 1, .resume 1] =
            some (kernel, []) ∧
        kernel.rtSchedulerLockNest = 0 ∧ (kernel.threads 0).stat = .ready :=
    ⟨_, rfl, rfl, rfl⟩
  have consistent := ready_structure_consistent
    (threadMachine.run_of_execute (by simp [ThreadOp.OnStarted]) success)
  exact ⟨kernel, success, consistent.1, consistent.2 unlocked ⟨0, isReady⟩⟩

end RtThread
