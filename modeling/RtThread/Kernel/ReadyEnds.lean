import RtThread.Kernel.Remask
import RtThread.Kernel.WaitQueue

/-!
# Ending threads that were never started

`rt_schedule_remove_thread` looks at `current_priority` and clears `number_mask`. In a
thread that has been started the two agree. In one that has not, the mask is what the
memory contained, and clearing it can hide other threads from the scheduler. The runs
here end threads in any state.
-/

namespace RtThread

open RtThread.Std

/-- An operation on threads, a wait for an IPC object up to the switch to another
thread, or the section of `rt_thread_idle_excute`. -/
inductive ReadyOp where
  | operate (op : ThreadOp)
  | wait (list : WaitList) (flag : IpcFlag) (time : BitVec 32)
  | idle
deriving DecidableEq, Repr

def ReadyOp.apply (kernel : Kernel) : ReadyOp → Option Kernel
  | .operate op => op.apply kernel
  | .wait list flag time =>
    match kernel.rtCurrentThread with
    | .thread thread => do
      let (kernel, _) ← suspendOn kernel list thread flag time
      pure (rtSchedule kernel)
    | _ => none
  | .idle => (rtThreadIdleTake kernel).map Prod.snd

def readyMachine : Machine Kernel ReadyOp Empty where
  step kernel op := (op.apply kernel).map fun next => (next, [])

/-- Another thread stays in the priority list, or the mask of the thread has the bit of
its own priority and of no other list that is not empty. -/
def MaskFits (kernel : Kernel) (thread : ThreadId) : Prop :=
  (∃ other ≠ thread, kernel.threadLinks.Linked
    (.ready (kernel.threads thread).currentPriority) (.tlist other)) ∨
  ∀ priority < 32, ¬ kernel.threadLinks.isEmpty (.ready priority) →
    ((kernel.threads thread).numberMask.getLsbD priority = true ↔
      priority = (kernel.threads thread).currentPriority)

/-- A thread is ended only if its mask fits. A new priority is in range, and a thread
that waits has been running. -/
def ReadyOp.Fits (kernel : Kernel) : ReadyOp → Prop
  | .operate (.changePriority _ priority) => priority < 32
  | .operate (.delete thread) | .operate (.detach thread) => MaskFits kernel thread
  | .wait _ _ _ => ∀ thread, kernel.rtCurrentThread = .thread thread →
      (kernel.threads thread).stat = .ready
  | _ => True

/-- A bit of the group is set iff the list of its priority is not empty. -/
def Kernel.Mapped (kernel : Kernel) : Prop :=
  ∀ priority < 32, kernel.rtThreadReadyPriorityGroup.getLsbD priority = true ↔
    ¬ kernel.threadLinks.isEmpty (.ready priority)

/-! ## The mask of the thread that is removed -/

theorem rtScheduleRemoveThread_threadLinks (kernel : Kernel) (thread : ThreadId) :
    (rtScheduleRemoveThread kernel thread).threadLinks =
      kernel.threadLinks.unlink (.tlist thread) := by
  unfold rtScheduleRemoveThread
  dsimp only
  split <;> rfl

theorem rtScheduleRemoveThread_eq (kernel : Kernel) (thread : ThreadId) :
    rtScheduleRemoveThread kernel thread = { kernel.unlinkThread thread with
      rtThreadReadyPriorityGroup :=
        (rtScheduleRemoveThread kernel thread).rtThreadReadyPriorityGroup } := by
  unfold rtScheduleRemoveThread
  dsimp only
  split <;> rfl

section

variable {kernel : Kernel} {lists : ThreadNode → List ThreadNode} {thread : ThreadId}

/-- The removal keeps the bitmap right if and only if the mask fits. -/
theorem ReadyInv.removed_mapped (inv : ReadyInv.All kernel.remask lists) (thread : ThreadId) :
    (rtScheduleRemoveThread kernel thread).Mapped ↔ MaskFits kernel thread := by
  obtain ⟨cp, priority⟩ : ∃ cp, (kernel.threads thread).currentPriority = cp := ⟨_, rfl⟩
  have rings : Rings ThreadNode.IsHead kernel.threadLinks lists := inv.rings
  have unlinked := rings.unlink (ThreadNode.not_isHead_tlist thread)
  have group : ∀ p < 32, kernel.rtThreadReadyPriorityGroup.getLsbD p = true ↔
    lists (.ready p) ≠ [] := inv.group
  have home : ∀ p, .tlist thread ∈ lists (.ready p) → p = cp := by
    rw [← priority]
    exact inv.home thread
  have elsewhere : ∀ p, p ≠ cp → (lists (.ready p)).erase (.tlist thread) = lists (.ready p) :=
    fun p apart => List.erase_of_not_mem fun member => apart (home p member)
  have small : cp < 32 := priority ▸ (inv.priority thread).1
  have before : ∀ p, kernel.threadLinks.isEmpty (.ready p) = true ↔ lists (.ready p) = [] :=
    fun p => rings.isEmpty_iff (ThreadNode.isHead_ready p)
  have after : ∀ p, (kernel.threadLinks.unlink (.tlist thread)).isEmpty (.ready p) = true ↔
      (lists (.ready p)).erase (.tlist thread) = [] :=
    fun p => unlinked.isEmpty_iff (ThreadNode.isHead_ready p)
  have linked : ∀ other, kernel.threadLinks.Linked (.ready cp) (.tlist other) ↔
      .tlist other ∈ lists (.ready cp) :=
    fun other => rings.linked_iff (ThreadNode.isHead_ready cp) _
  unfold Kernel.Mapped MaskFits
  rw [rtScheduleRemoveThread_threadLinks, priority]
  simp only [after, before, linked]
  by_cases empty : (lists (.ready cp)).erase (.tlist thread) = []
  · -- nobody else has the priority, so the mask is cleared
    have group' : (rtScheduleRemoveThread kernel thread).rtThreadReadyPriorityGroup =
        kernel.rtThreadReadyPriorityGroup &&& ~~~(kernel.threads thread).numberMask := by
      unfold rtScheduleRemoveThread
      dsimp only
      rw [if_pos]
      · rfl
      · exact (after _).mpr (priority ▸ empty)
    have bits : ∀ p < 32, (kernel.rtThreadReadyPriorityGroup &&&
        ~~~(kernel.threads thread).numberMask).getLsbD p =
          (kernel.rtThreadReadyPriorityGroup.getLsbD p &&
            !(kernel.threads thread).numberMask.getLsbD p) := by
      intro p bound
      rw [BitVec.getLsbD_and, BitVec.getLsbD_not]
      simp [bound]
    rw [group']
    constructor
    · intro mapped
      refine Or.inr fun p bound nonempty => ?_
      have bit := mapped p bound
      rw [bits p bound, (group p bound).mpr nonempty] at bit
      by_cases same : p = cp
      · rw [same] at bit ⊢
        simpa [empty] using bit
      · rw [elsewhere p same] at bit
        simpa [same, nonempty] using bit
    · rintro (⟨other, apart, member⟩ | fits) p bound
      · have stays : .tlist other ∈ (lists (.ready cp)).erase (.tlist thread) :=
          (List.mem_erase_of_ne (by simpa using apart)).mpr member
        rw [empty] at stays
        cases stays
      · rw [bits p bound]
        by_cases vacant : lists (.ready p) = []
        · have clear : kernel.rtThreadReadyPriorityGroup.getLsbD p = false := by
            simpa [vacant] using group p bound
          simp [clear, vacant]
        · rw [(group p bound).mpr vacant]
          have fit := fits p bound vacant
          by_cases same : p = cp
          · rw [same] at fit ⊢
            simpa [empty] using fit
          · rw [elsewhere p same]
            simpa [same, vacant] using fit
  · -- another thread has the priority, so the bitmap stays
    have group' : (rtScheduleRemoveThread kernel thread).rtThreadReadyPriorityGroup =
        kernel.rtThreadReadyPriorityGroup := by
      unfold rtScheduleRemoveThread
      dsimp only
      rw [if_neg]
      · rfl
      · exact fun gone => empty ((after _).mp (priority ▸ gone))
    obtain ⟨first, member⟩ := List.exists_mem_of_ne_nil _ empty
    have inside := List.mem_of_mem_erase member
    refine iff_of_true (fun p bound => ?_) (Or.inl ?_)
    · rw [group', group p bound]
      by_cases same : p = cp
      · rw [same]
        exact iff_of_true (List.ne_nil_of_mem inside) empty
      · rw [elsewhere p same]
    · have plain := rings.plain _ first (ThreadNode.isHead_ready cp) inside
      cases first with
      | tlist other =>
          refine ⟨other, ?_, inside⟩
          rintro rfl
          exact (rings.distinct _ (ThreadNode.isHead_ready cp)).not_mem_erase member
      | ready _ => exact absurd trivial plain
      | defunct => exact absurd trivial plain
      | wait _ => exact absurd trivial plain

/-- A thread whose mask is that of its priority can be removed. -/
theorem Kernel.Masked.fits (masked : kernel.Masked thread) : MaskFits kernel thread := by
  right
  intro priority small _
  rw [masked, priorityMask_getLsbD small]
  simp

/-- The removal does the same with every mask corrected. -/
theorem ReadyInv.removes (inv : ReadyInv.All kernel.remask lists) (fits : MaskFits kernel thread) :
    rtScheduleRemoveThread kernel.remask thread =
      (rtScheduleRemoveThread kernel thread).remask := by
  have mapped := (inv.removed_mapped thread).mpr fits
  have mapped' := (@ReadyInv.removed_mapped kernel.remask lists inv thread).mpr
    (Kernel.Masked.fits rfl)
  have group : (rtScheduleRemoveThread kernel.remask thread).rtThreadReadyPriorityGroup =
      (rtScheduleRemoveThread kernel thread).rtThreadReadyPriorityGroup := by
    refine BitVec.eq_of_getLsbD_eq fun priority small => ?_
    rw [Bool.eq_iff_iff, mapped' priority small, mapped priority small,
      rtScheduleRemoveThread_threadLinks, rtScheduleRemoveThread_threadLinks]
    rfl
  refine (rtScheduleRemoveThread_eq kernel.remask thread).trans ?_
  rw [group]
  exact congrArg Kernel.remask (rtScheduleRemoveThread_eq kernel thread).symm

end

/-! ## What the operations do to the masks -/

/-- Links and timers are all that changes after the thread has been suspended. -/
theorem suspendOn_threads {kernel next : Kernel} {thread : ThreadId} {list : WaitList}
    {flag : IpcFlag} {time : BitVec 32} {outcome : Outcome}
    (step : suspendOn kernel list thread flag time = some (next, outcome)) :
    next.threads = (rtThreadSuspend kernel thread).2.threads ∧
      next.rtCurrentThread = (rtThreadSuspend kernel thread).2.rtCurrentThread := by
  obtain ⟨waiting, suspends, rest⟩ := Option.bind_eq_some_iff.mp step
  have listed : waiting.threads = (rtThreadSuspend kernel thread).2.threads ∧
      waiting.rtCurrentThread = (rtThreadSuspend kernel thread).2.rtCurrentThread := by
    unfold rtIpcListSuspend at suspends
    cases flag with
    | fifo =>
        obtain rfl := Option.some_inj.mp suspends
        exact ⟨rfl, rfl⟩
    | prio =>
        obtain ⟨position, -, done⟩ := Option.bind_eq_some_iff.mp suspends
        obtain rfl := Option.some_inj.mp done
        exact ⟨rfl, rfl⟩
  split at rest
  · obtain ⟨⟨result, armed⟩, start, done⟩ := Option.bind_eq_some_iff.mp rest
    obtain ⟨rfl, -⟩ := Prod.mk.inj (Option.some_inj.mp done)
    rw [rtTimerStart_frame start]
    exact listed
  · obtain ⟨rfl, -⟩ := Prod.mk.inj (Option.some_inj.mp rest)
    exact listed

/-- A mask that is right stays right, and a thread with another one does not become
ready or suspended. -/
structure Marks (kernel next : Kernel) : Prop where
  kept : ∀ thread, kernel.Masked thread → next.Masked thread
  stat : ∀ thread, ¬ next.Masked thread →
    (next.threads thread).stat = (kernel.threads thread).stat ∨
      (next.threads thread).stat = .close

namespace Marks

variable {kernel middle next : Kernel} {thread : ThreadId}

theorem of_threads (threads : next.threads = kernel.threads) : Marks kernel next := by
  refine ⟨fun thread masked => ?_, fun thread _ => Or.inl (by rw [threads])⟩
  rwa [Kernel.Masked, threads]

theorem trans (first : Marks kernel middle) (second : Marks middle next) : Marks kernel next := by
  refine ⟨fun thread masked => second.kept thread (first.kept thread masked), fun thread wrong => ?_⟩
  have before : ¬ middle.Masked thread := fun masked => wrong (second.kept thread masked)
  rcases second.stat thread wrong with same | closed
  · rw [same]
    exact first.stat thread before
  · exact Or.inr closed

theorem of_update {record : Thread}
    (threads : next.threads = Function.update kernel.threads thread record)
    (either : record.Masked ∨ (kernel.Masked thread → record.Masked) ∧
      (record.stat = (kernel.threads thread).stat ∨ record.stat = .close)) :
    Marks kernel next := by
  constructor
  · intro other masked
    rw [Kernel.Masked, threads]
    by_cases same : other = thread
    · subst same
      rw [Function.update_self]
      exact either.elim id fun kept => kept.1 masked
    · rwa [Function.update_of_ne same]
  · intro other wrong
    rw [Kernel.Masked, threads] at wrong
    rw [threads]
    by_cases same : other = thread
    · subst same
      rw [Function.update_self] at wrong ⊢
      exact (either.resolve_left wrong).2
    · exact Or.inl (by rw [Function.update_of_ne same])

theorem schedule (marks : Marks kernel next) : Marks kernel (rtSchedule next) :=
  marks.trans (.of_threads (rtSchedule_threads next))

theorem rtThreadSuspend (masked : (kernel.threads thread).stat = .ready → kernel.Masked thread) :
    Marks kernel (rtThreadSuspend kernel thread).2 := by
  by_cases isReady : (kernel.threads thread).stat = .ready
  · exact .of_update (rtThreadSuspend_threads isReady) (Or.inl (masked isReady))
  · have same : (RtThread.rtThreadSuspend kernel thread).2 = kernel := by
      rw [RtThread.rtThreadSuspend, if_pos isReady]
    exact .of_threads (by rw [same])

theorem rtThreadResume (masked : (kernel.threads thread).stat = .suspend → kernel.Masked thread) :
    Marks kernel (rtThreadResume kernel thread).2 := by
  by_cases suspended : (kernel.threads thread).stat = .suspend
  · exact .of_update (rtThreadResume_threads suspended) (Or.inl (masked suspended))
  · have same : (RtThread.rtThreadResume kernel thread).2 = kernel := by
      rw [RtThread.rtThreadResume, if_pos suspended]
    exact .of_threads (by rw [same])

theorem rtThreadStartup (step : rtThreadStartup kernel thread = some next) :
    Marks kernel next := by
  obtain ⟨-, done⟩ := Option.ite_none_right_eq_some.mp step
  have prioritized : Marks kernel (setPriority kernel thread (kernel.threads thread).initPriority) :=
    .of_update rfl (Or.inl rfl)
  have suspended := (setPriority_masked kernel thread (kernel.threads thread).initPriority).setStat
    .suspend
  have staged : Marks kernel ((setPriority kernel thread
      (kernel.threads thread).initPriority).setStat thread .suspend) := by
    refine prioritized.trans (.of_update rfl (Or.inl ?_))
    simp [Thread.Masked, setPriority, Kernel.setThread]
  have resumed := staged.trans (rtThreadResume fun _ => suspended)
  rw [← Option.some_inj.mp done]
  split
  · exact resumed.schedule
  · exact resumed

theorem rtThreadChangePriority (kernel : Kernel) (thread : ThreadId) (priority : Nat) :
    Marks kernel (rtThreadChangePriority kernel thread priority) :=
  .of_update (rtThreadChangePriority_threads kernel thread priority) (Or.inl rfl)

/-- The thread is closed. -/
theorem close (thread : ThreadId) (threads : next.threads = Function.update kernel.threads thread
    { kernel.threads thread with stat := .close }) : Marks kernel next :=
  .of_update threads (Or.inr ⟨id, Or.inr rfl⟩)

theorem rtThreadDelete (kernel : Kernel) (thread : ThreadId) :
    Marks kernel (rtThreadDelete kernel thread) := by
  refine close thread ?_
  simp [RtThread.rtThreadDelete, Kernel.linkThreadAfter, Kernel.setStat, Kernel.setThread,
    rtTimerDetach, Kernel.rtObjectDetach, Kernel.unlinkTimer]

theorem rtThreadDetach (kernel : Kernel) (thread : ThreadId) :
    Marks kernel (rtThreadDetach kernel thread) := by
  unfold RtThread.rtThreadDetach
  dsimp only
  split <;> refine close thread ?_ <;>
    simp [Kernel.linkThreadAfter, Kernel.setStat, Kernel.setThread, rtTimerDetach,
      Kernel.rtObjectDetach, Kernel.unlinkTimer]

theorem rtThreadExit (step : rtThreadExit kernel = some next) : Marks kernel next := by
  cases current : kernel.rtCurrentThread with
  | thread thread =>
      rw [rtThreadExit_eq current] at step
      rw [← Option.some_inj.mp step]
      exact (close thread (rtThreadExitSection_threads kernel thread)).schedule
  | null => simp [RtThread.rtThreadExit, current] at step
  | wild node => simp [RtThread.rtThreadExit, current] at step

theorem startThreadTimer {time : BitVec 32} {result : Err}
    (step : startThreadTimer kernel thread time = some (result, next)) : Marks kernel next := by
  have frame := rtTimerStart_frame step
  exact .of_threads (by rw [frame]; rfl)

theorem rtThreadSleepReturn (kernel : Kernel) (thread : ThreadId) :
    Marks kernel (rtThreadSleepReturn kernel thread) := by
  unfold RtThread.rtThreadSleepReturn
  split
  · exact .of_update rfl (Or.inr ⟨id, Or.inl rfl⟩)
  · exact .of_threads rfl

theorem rtThreadTimeout
    (masked : (kernel.threads thread).stat = .suspend → kernel.Masked thread)
    (step : rtThreadTimeout kernel thread = some next) : Marks kernel next := by
  obtain ⟨suspended, done⟩ := Option.ite_none_right_eq_some.mp step
  have stays : ((kernel.setError thread .etimeout).unlinkThread thread).Masked thread := by
    simpa [Kernel.Masked, Thread.Masked, Kernel.unlinkThread, Kernel.setError, Kernel.setThread]
      using masked suspended
  have marked : Marks kernel ((kernel.setError thread .etimeout).unlinkThread thread) :=
    .of_update rfl (Or.inr ⟨id, Or.inl rfl⟩)
  have inserted : Marks kernel (rtScheduleInsertThread
      ((kernel.setError thread .etimeout).unlinkThread thread) thread) :=
    marked.trans (.of_update (rtScheduleInsertThread_threads _ thread) (Or.inl stays))
  rw [← Option.some_inj.mp done]
  exact inserted.schedule

theorem suspendOn {list : WaitList} {flag : IpcFlag} {time : BitVec 32} {outcome : Outcome}
    (masked : (kernel.threads thread).stat = .ready → kernel.Masked thread)
    (step : suspendOn kernel list thread flag time = some (next, outcome)) : Marks kernel next :=
  (rtThreadSuspend masked).trans (.of_threads (suspendOn_threads step).1)

end Marks

/-! ## One step -/

/-- The masks of ready and suspended threads and of the running one are right, and with
every mask corrected the ready structure is in order. -/
structure FitInv (kernel : Kernel) : Prop where
  threads : ThreadInv kernel.remask
  marked : ∀ thread, (kernel.threads thread).stat = .ready ∨
    (kernel.threads thread).stat = .suspend → kernel.Masked thread
  running : ∀ thread, kernel.rtCurrentThread = .thread thread → kernel.Masked thread

theorem ThreadOp.marks {kernel next : Kernel} {op : ThreadOp} (inv : FitInv kernel)
    (step : op.apply kernel = some next) : Marks kernel next := by
  cases op <;> simp only [ThreadOp.apply, Option.some.injEq] at step
  case schedulerStart => subst step; exact .of_threads rfl
  case startup => exact .rtThreadStartup step
  case suspend => subst step; exact .rtThreadSuspend fun isReady => inv.marked _ (Or.inl isReady)
  case resume => subst step; exact .rtThreadResume fun asleep => inv.marked _ (Or.inr asleep)
  case yield =>
    cases current : kernel.rtCurrentThread with
    | thread thread =>
        have rotated : Marks kernel (rtThreadYieldSection kernel thread).1 := by
          unfold rtThreadYieldSection
          split <;> exact .of_threads rfl
        rw [rtThreadYield, current] at step
        rw [← Option.some_inj.mp step]
        split
        · exact rotated.schedule
        · exact rotated
    | null => simp [rtThreadYield, current] at step
    | wild node => simp [rtThreadYield, current] at step
  case sleep tick =>
    cases current : kernel.rtCurrentThread with
    | thread thread =>
        rw [rtThreadSleep, current] at step
        obtain ⟨⟨result, asleep⟩, section_, done⟩ := Option.bind_eq_some_iff.mp step
        obtain rfl := Option.some_inj.mp done
        have suspended := Marks.rtThreadSuspend fun isReady => inv.marked thread (Or.inl isReady)
        exact (suspended.trans (.startThreadTimer section_)).schedule
    | null => simp [rtThreadSleep, current] at step
    | wild node => simp [rtThreadSleep, current] at step
  case sleepReturn => subst step; exact .rtThreadSleepReturn _ _
  case timeout => exact .rtThreadTimeout (fun asleep => inv.marked _ (Or.inr asleep)) step
  case changePriority => subst step; exact .rtThreadChangePriority _ _ _
  case exit => exact .rtThreadExit step
  case delete => subst step; exact .rtThreadDelete _ _
  case detach => subst step; exact .rtThreadDetach _ _
  case enterCritical => subst step; exact .of_threads rfl
  case exitCritical =>
    subst step
    unfold rtExitCritical
    dsimp only
    split
    · exact .of_threads (rtSchedule_threads _)
    · exact .of_threads rfl
  case schedule => subst step; exact .of_threads (rtSchedule_threads kernel)

/-- The operation does the same with every mask corrected. -/
theorem ThreadOp.apply_remask {kernel : Kernel} {op : ThreadOp} (inv : FitInv kernel)
    (fits : (ReadyOp.operate op).Fits kernel) :
    op.apply kernel.remask = (op.apply kernel).map Kernel.remask := by
  obtain ⟨lists, ready⟩ := inv.threads.lists
  have isReady : ∀ thread, (kernel.threads thread).stat = .ready → kernel.Masked thread :=
    fun thread stat => inv.marked thread (Or.inl stat)
  have asleep : ∀ thread, (kernel.threads thread).stat = .suspend → kernel.Masked thread :=
    fun thread stat => inv.marked thread (Or.inr stat)
  have same : kernel.remask.rtCurrentThread = kernel.rtCurrentThread := rfl
  cases op <;> simp only [ThreadOp.apply, Option.map_some, Option.some.injEq]
  case schedulerStart => rfl
  case startup => exact rtThreadStartup_remask ..
  case suspend thread => rw [rtThreadSuspend_remask (isReady thread)]
  case resume thread => rw [rtThreadResume_remask (asleep thread)]
  case yield =>
    unfold rtThreadYield
    rw [same]
    cases kernel.rtCurrentThread with
    | thread thread =>
        dsimp only
        rw [rtThreadYieldSection_remask, Option.map_some, rtSchedule_remask, ← apply_ite]
    | null => rfl
    | wild node => rfl
  case sleep tick =>
    unfold rtThreadSleep
    rw [same]
    cases kernel.rtCurrentThread with
    | thread thread =>
        dsimp only
        rw [rtThreadSleepSection_remask tick (isReady thread)]
        cases rtThreadSleepSection kernel thread tick with
        | none => rfl
        | some asleep => exact congrArg some (rtSchedule_remask _)
    | null => rfl
    | wild node => rfl
  case sleepReturn => exact rtThreadSleepReturn_remask ..
  case timeout thread => exact rtThreadTimeout_remask (asleep thread)
  case changePriority thread priority => exact rtThreadChangePriority_remask priority (isReady thread)
  case exit =>
    unfold rtThreadExit
    rw [same]
    cases current : kernel.rtCurrentThread with
    | thread thread =>
        refine congrArg some ?_
        exact (congrArg rtSchedule (rtThreadExitSection_remask (inv.running thread current))).trans
          (rtSchedule_remask _)
    | null => rfl
    | wild node => rfl
  case delete thread => exact rtThreadDelete_remask (ready.removes fits)
  case detach thread => exact rtThreadDetach_remask (ready.removes fits)
  case enterCritical => rfl
  case exitCritical =>
    unfold rtExitCritical
    dsimp only
    rw [apply_ite Kernel.remask, ← rtSchedule_remask]
    rfl
  case schedule => exact rtSchedule_remask kernel

theorem ReadyOp.apply_remask {kernel : Kernel} {op : ReadyOp} (inv : FitInv kernel)
    (fits : op.Fits kernel) :
    op.apply kernel.remask = (op.apply kernel).map Kernel.remask := by
  cases op with
  | operate op => exact op.apply_remask inv fits
  | wait list flag time =>
      have same : kernel.remask.rtCurrentThread = kernel.rtCurrentThread := rfl
      unfold ReadyOp.apply
      dsimp only
      rw [same]
      cases kernel.rtCurrentThread with
      | thread thread =>
          dsimp only
          rw [suspendOn_remask list flag time fun stat => inv.marked thread (Or.inl stat)]
          cases suspendOn kernel list thread flag time with
          | none => rfl
          | some suspended => exact congrArg some (rtSchedule_remask _)
      | null => rfl
      | wild node => rfl
  | idle =>
      unfold ReadyOp.apply
      rw [rtThreadIdleTake_remask, Option.map_map, Option.map_map]
      rfl

namespace ReadyInv

variable {kernel next : Kernel} {lists : ThreadNode → List ThreadNode} {thread : ThreadId}

/-- A suspended thread is in no list. -/
theorem suspend_loose (inv : ReadyInv.All kernel lists)
    (isReady : (kernel.threads thread).stat = .ready) :
    ∃ lists', ReadyInv.All (RtThread.rtThreadSuspend kernel thread).2 lists' ∧
      LooseIn lists' thread := by
  have mask := inv.mask thread (by simp [isReady])
  have removed := ((inv.except thread).setStat .suspend mask).remove
    (by simpa [Kernel.setStat, Kernel.setThread] using mask)
  rw [RtThread.rtThreadSuspend, if_neg (by simp [isReady])]
  refine ⟨_, removed.settle ?_ fun priority => ?_, inv.remove_loose⟩
  · simp [Kernel.setStat, Kernel.setThread]
  · exact inv.remove_loose _ (ThreadNode.isHead_ready priority)

/-- Suspend lists are no part of the ready structure. -/
theorem linkWait (inv : ReadyInv.All kernel lists) {list : WaitList} {nodes : List ThreadNode}
    {links : Links ThreadNode}
    (rings : Rings ThreadNode.IsHead links (Function.update lists (.wait list) nodes)) :
    ReadyInv.All { kernel with threadLinks := links } (Function.update lists (.wait list) nodes) :=
  ⟨rings, inv.group, inv.ready, inv.home, inv.priority, inv.mask⟩

theorem rtIpcListSuspend (inv : ReadyInv.All kernel lists)
    (isReady : (kernel.threads thread).stat = .ready) {list : WaitList} {flag : IpcFlag}
    (step : rtIpcListSuspend kernel list thread flag = some next) :
    ∃ lists', ReadyInv.All next lists' := by
  obtain ⟨lists', suspended, loose⟩ := inv.suspend_loose isReady
  have isHead := ThreadNode.isHead_wait list
  have plain := ThreadNode.not_isHead_tlist thread
  unfold RtThread.rtIpcListSuspend at step
  cases flag with
  | fifo =>
      obtain rfl := Option.some_inj.mp step
      exact ⟨_, suspended.linkWait (suspended.rings.insertBefore_head isHead plain loose)⟩
  | prio =>
      obtain ⟨position, scan, done⟩ := Option.bind_eq_some_iff.mp step
      obtain rfl := Option.some_inj.mp done
      rw [suspended.rings.scan_eq isHead] at scan
      obtain rfl := Option.some_inj.mp scan
      exact ⟨_, suspended.linkWait (suspended.rings.insertBefore_scan isHead plain loose _)⟩

theorem suspendOn (inv : ReadyInv.All kernel lists)
    (isReady : (kernel.threads thread).stat = .ready) {list : WaitList} {flag : IpcFlag}
    {time : BitVec 32} {outcome : Outcome}
    (step : suspendOn kernel list thread flag time = some (next, outcome)) :
    ∃ lists', ReadyInv.All next lists' := by
  obtain ⟨waiting, suspend, rest⟩ := Option.bind_eq_some_iff.mp step
  obtain ⟨lists', waits⟩ := inv.rtIpcListSuspend isReady suspend
  split at rest
  · obtain ⟨⟨result, armed⟩, start, done⟩ := Option.bind_eq_some_iff.mp rest
    obtain ⟨rfl, -⟩ := Prod.mk.inj (Option.some_inj.mp done)
    have frame := rtTimerStart_frame start
    exact ⟨lists', waits.congr (by rw [frame]; rfl) (by rw [frame]; rfl) (by rw [frame]; rfl)⟩
  · obtain ⟨rfl, -⟩ := Prod.mk.inj (Option.some_inj.mp rest)
    exact ⟨lists', waits⟩

/-- A defunct thread is in no priority list. -/
theorem idleTake (inv : ReadyInv.All kernel lists)
    (take : rtThreadIdleTake kernel = some (thread, next)) : ∃ lists', ReadyInv.All next lists' := by
  obtain ⟨front, rfl⟩ := rtThreadIdleTake_front take
  have isHead := ThreadNode.isHead_defunct
  have member : .tlist thread ∈ lists .defunct := by
    rw [inv.rings.next_head isHead] at front
    cases shape : lists .defunct with
    | nil => simp [shape] at front
    | cons first rest =>
        rw [shape] at front
        simp [← front]
  have absent : ∀ priority, .tlist thread ∉ lists (.ready priority) := by
    intro priority there
    have same := inv.rings.single _ _ _ isHead (ThreadNode.isHead_ready priority) member there
    cases same
  have unlinked := (inv.except thread).unlink absent
  have ready : (kernel.threads thread).stat ≠ .ready :=
    fun isReady => absent _ ((inv.ready thread id).mp isReady)
  exact ⟨_, unlinked.settle ready fun priority =>
    inv.remove_loose _ (ThreadNode.isHead_ready priority)⟩

end ReadyInv

theorem ReadyOp.wait_current {kernel next : Kernel} {list : WaitList} {flag : IpcFlag}
    {time : BitVec 32} (step : (ReadyOp.wait list flag time).apply kernel = some next) :
    ∃ thread suspended outcome, kernel.rtCurrentThread = .thread thread ∧
      suspendOn kernel list thread flag time = some (suspended, outcome) ∧
      next = rtSchedule suspended := by
  unfold ReadyOp.apply at step
  cases current : kernel.rtCurrentThread with
  | thread thread =>
      rw [current] at step
      obtain ⟨⟨suspended, outcome⟩, suspends, done⟩ := Option.bind_eq_some_iff.mp step
      exact ⟨thread, suspended, outcome, rfl, suspends, (Option.some_inj.mp done).symm⟩
  | null => simp [current] at step
  | wild node => simp [current] at step

theorem ReadyOp.marks {kernel next : Kernel} {op : ReadyOp} (inv : FitInv kernel)
    (step : op.apply kernel = some next) : Marks kernel next := by
  cases op with
  | operate op => exact op.marks inv step
  | wait list flag time =>
      obtain ⟨thread, suspended, outcome, -, suspends, rfl⟩ := ReadyOp.wait_current step
      exact (Marks.suspendOn (fun stat => inv.marked thread (Or.inl stat)) suspends).schedule
  | idle =>
      obtain ⟨⟨thread, taken⟩, take, rfl⟩ := Option.map_eq_some_iff.mp step
      rw [(rtThreadIdleTake_front take).2]
      exact .of_threads rfl

theorem ReadyOp.advances {kernel next : Kernel} {op : ReadyOp}
    (step : op.apply kernel = some next) : Advances kernel next := by
  cases op with
  | operate op => exact op.advances step
  | wait list flag time =>
      obtain ⟨thread, suspended, outcome, -, suspends, rfl⟩ := ReadyOp.wait_current step
      obtain ⟨threads, current⟩ := suspendOn_threads suspends
      have advances := Advances.rtThreadSuspend kernel thread
      refine Advances.schedule ⟨?_, ?_⟩
      · rw [current]
        exact Or.inl (by simp [rtThreadSuspend, Kernel.setStat, Kernel.setThread]; split <;> simp)
      · rw [threads]
        exact advances.started
  | idle =>
      obtain ⟨⟨thread, taken⟩, take, rfl⟩ := Option.map_eq_some_iff.mp step
      rw [(rtThreadIdleTake_front take).2]
      exact .of_same rfl fun _ => id

/-- Where every mask is right, the operations keep the ready structure. -/
theorem ReadyOp.lists {kernel next : Kernel} {op : ReadyOp} (inv : ThreadInv kernel)
    (masked : ∀ thread, kernel.Masked thread) (fits : op.Fits kernel)
    (step : op.apply kernel = some next) : ∃ lists, ReadyInv.All next lists := by
  obtain ⟨lists, ready⟩ := inv.lists
  cases op with
  | operate op =>
      by_cases admitted : op.OnStarted kernel
      · exact op.lists inv admitted step
      · cases op <;> simp only [ThreadOp.OnStarted, not_true_eq_false] at admitted
        case changePriority thread priority =>
          obtain rfl := Option.some_inj.mp step
          exact ready.rtThreadChangePriority fits
        case delete thread =>
          obtain rfl := Option.some_inj.mp step
          exact ready.rtThreadDelete (masked thread)
        case detach thread =>
          obtain rfl := Option.some_inj.mp step
          exact ready.rtThreadDetach (masked thread)
  | wait list flag time =>
      obtain ⟨thread, suspended, outcome, current, suspends, rfl⟩ := ReadyOp.wait_current step
      obtain ⟨lists', waits⟩ := ready.suspendOn (fits thread current) suspends
      exact ⟨lists', waits.schedule⟩
  | idle =>
      obtain ⟨⟨thread, taken⟩, take, rfl⟩ := Option.map_eq_some_iff.mp step
      exact ready.idleTake take

namespace FitInv

variable {kernel next : Kernel} {op : ReadyOp}

theorem step (inv : FitInv kernel) (fits : op.Fits kernel) (step : op.apply kernel = some next) :
    FitInv next := by
  have marks := op.marks inv step
  have advances := op.advances step
  have corrected : op.apply kernel.remask = some next.remask := by
    rw [ReadyOp.apply_remask inv fits, step, Option.map_some]
  have fits' : op.Fits kernel.remask := by
    cases op with
    | operate op => cases op <;> first | exact fits | exact Kernel.Masked.fits rfl
    | wait list flag time => exact fits
    | idle => exact fits
  obtain ⟨lists, ready⟩ := op.lists inv.threads (fun _ => rfl) fits' corrected
  have marked : ∀ thread, (next.threads thread).stat = .ready ∨
      (next.threads thread).stat = .suspend → next.Masked thread := by
    intro thread lives
    by_contra wrong
    have before : ¬ kernel.Masked thread := fun masked => wrong (marks.kept thread masked)
    rcases marks.stat thread wrong with same | closed
    · rw [same] at lives
      exact before (inv.marked thread lives)
    · simp [closed] at lives
  refine ⟨⟨⟨lists, ready⟩, fun thread current => ?_⟩, marked, fun thread current => ?_⟩
  · rcases advances.current with same | selected
    · exact advances.started thread (inv.threads.current thread (same.symm.trans current))
    · have isReady : (next.threads thread).stat = .ready :=
        ready.selected_ready (selected.symm.trans current)
      change (next.threads thread).stat ≠ .init
      simp [isReady]
  · rcases advances.current with same | selected
    · exact marks.kept thread (inv.running thread (same.symm.trans current))
    · exact marked thread (Or.inl (ready.selected_ready (selected.symm.trans current)))

theorem initial (config : Config) : FitInv config.kernel := by
  refine ⟨?_, by simp [Config.kernel, Config.initThread], by simp [Config.kernel]⟩
  exact ThreadInv.initial
    { config with numberMask := fun thread => priorityMask (config.priority thread) }

theorem of_run {config : Config} {ops : List ReadyOp} {events : List Empty}
    (run : readyMachine.Run ReadyOp.Fits config.kernel ops events kernel) : FitInv kernel := by
  refine run.invariant (initial config) ?_
  intro kernel op next emitted inv fits transition
  simp only [readyMachine, Option.map_eq_some_iff, Prod.mk.injEq] at transition
  obtain ⟨_, step, rfl, -⟩ := transition
  exact inv.step fits step

end FitInv

/-! ## Ending a thread -/

theorem rtThreadDetach_threadLinks (kernel : Kernel) (thread : ThreadId) :
    (rtThreadDetach kernel thread).threadLinks =
        (kernel.threadLinks.unlink (.tlist thread)).insertAfter .defunct (.tlist thread) ∨
      (rtThreadDetach kernel thread).threadLinks = kernel.threadLinks.unlink (.tlist thread) := by
  rw [← rtScheduleRemoveThread_threadLinks]
  unfold rtThreadDetach
  dsimp only
  split
  · exact Or.inl rfl
  · exact Or.inr rfl

theorem rtThreadDetach_group (kernel : Kernel) (thread : ThreadId) :
    (rtThreadDetach kernel thread).rtThreadReadyPriorityGroup =
      (rtScheduleRemoveThread kernel thread).rtThreadReadyPriorityGroup := by
  unfold rtThreadDetach
  dsimp only
  split <;> rfl

/-- Every other thread is in the priority lists it was in, and the bitmap is right. -/
def KeepsReady (kernel next : Kernel) (thread : ThreadId) : Prop :=
  (∀ other ≠ thread, ∀ priority, next.threadLinks.Linked (.ready priority) (.tlist other) ↔
    kernel.threadLinks.Linked (.ready priority) (.tlist other)) ∧ next.Mapped

/-- The lists of the threads that remain depend on the removal alone, and so does the
bitmap, wherever the thread is linked afterwards. -/
theorem ReadyInv.keepsReady_iff {kernel next : Kernel} {lists lists' : ThreadNode → List ThreadNode}
    {thread : ThreadId} (inv : ReadyInv.All kernel.remask lists)
    (rings : Rings ThreadNode.IsHead next.threadLinks lists')
    (erased : ∀ priority, lists' (.ready priority) = (lists (.ready priority)).erase (.tlist thread))
    (group : next.rtThreadReadyPriorityGroup =
      (rtScheduleRemoveThread kernel thread).rtThreadReadyPriorityGroup) :
    KeepsReady kernel next thread ↔ MaskFits kernel thread := by
  have before : Rings ThreadNode.IsHead kernel.threadLinks lists := inv.rings
  have removed : Rings ThreadNode.IsHead (rtScheduleRemoveThread kernel thread).threadLinks
      fun head => (lists head).erase (.tlist thread) := by
    rw [rtScheduleRemoveThread_threadLinks]
    exact before.unlink (ThreadNode.not_isHead_tlist thread)
  have mapped : next.Mapped ↔ (rtScheduleRemoveThread kernel thread).Mapped := by
    unfold Kernel.Mapped
    simp only [group, rings.isEmpty_iff (ThreadNode.isHead_ready _), erased,
      removed.isEmpty_iff (ThreadNode.isHead_ready _)]
  have others : ∀ other ≠ thread, ∀ priority,
      next.threadLinks.Linked (.ready priority) (.tlist other) ↔
        kernel.threadLinks.Linked (.ready priority) (.tlist other) := by
    intro other apart priority
    have isHead := ThreadNode.isHead_ready priority
    rw [rings.linked_iff isHead, before.linked_iff isHead, erased]
    exact List.mem_erase_of_ne (by simpa using apart)
  rw [KeepsReady, mapped, inv.removed_mapped thread]
  exact and_iff_right others

namespace FitInv

variable {kernel : Kernel}

theorem mapped (inv : FitInv kernel) : kernel.Mapped := by
  obtain ⟨lists, ready⟩ := inv.threads.lists
  exact ready.consistent.bitmap

theorem delete (inv : FitInv kernel) (thread : ThreadId) :
    KeepsReady kernel (rtThreadDelete kernel thread) thread ↔ MaskFits kernel thread := by
  obtain ⟨lists, ready⟩ := inv.threads.lists
  have plain := ThreadNode.not_isHead_tlist thread
  have rings := (ready.rings.unlink plain).insertAfter_head ThreadNode.isHead_defunct plain
    ready.remove_loose
  have links : (rtThreadDelete kernel thread).threadLinks =
      (kernel.threadLinks.unlink (.tlist thread)).insertAfter .defunct (.tlist thread) := by
    rw [← rtScheduleRemoveThread_threadLinks]
    rfl
  exact ready.keepsReady_iff (links ▸ rings) (fun _ => rfl) rfl

theorem detach (inv : FitInv kernel) (thread : ThreadId) :
    KeepsReady kernel (rtThreadDetach kernel thread) thread ↔ MaskFits kernel thread := by
  obtain ⟨lists, ready⟩ := inv.threads.lists
  have plain := ThreadNode.not_isHead_tlist thread
  have removed := ready.rings.unlink plain
  rcases rtThreadDetach_threadLinks kernel thread with links | links
  · have rings := removed.insertAfter_head ThreadNode.isHead_defunct plain ready.remove_loose
    exact ready.keepsReady_iff (links ▸ rings) (fun _ => rfl) (rtThreadDetach_group kernel thread)
  · exact ready.keepsReady_iff (links ▸ removed) (fun _ => rfl)
      (rtThreadDetach_group kernel thread)

end FitInv

/-- In every run that ends threads only if their mask fits, the bitmap is right, and ending
one more thread keeps the ready structure if and only if its mask fits. -/
theorem ending_keeps_ready {config : Config} {ops : List ReadyOp} {events : List Empty}
    {kernel : Kernel}
    (run : readyMachine.Run ReadyOp.Fits config.kernel ops events kernel) (thread : ThreadId) :
    kernel.Mapped ∧
      (KeepsReady kernel (rtThreadDelete kernel thread) thread ↔ MaskFits kernel thread) ∧
      (KeepsReady kernel (rtThreadDetach kernel thread) thread ↔ MaskFits kernel thread) := by
  have inv := FitInv.of_run run
  exact ⟨inv.mapped, inv.delete thread, inv.detach thread⟩

/-- A thread is deleted while it waits for a semaphore. -/
theorem ending_keeps_ready_two_threads :
    ∃ kernel, readyMachine.execute Config.plain.kernel
        [.operate (.startup 0), .operate (.startup 1), .operate .schedulerStart,
          .wait (.sem 0) .fifo 0xffffffff#32] = some (kernel, []) ∧
      kernel.rtCurrentThread = .thread 1 ∧ (kernel.threads 0).stat = .suspend ∧
      KeepsReady kernel (rtThreadDelete kernel 0) 0 := by
  obtain ⟨first, kernel, started, front, isReady, waits, success, current, asleep, masked⟩ :
      ∃ first kernel, readyMachine.execute Config.plain.kernel
          [.operate (.startup 0), .operate (.startup 1), .operate .schedulerStart] =
            some (first, []) ∧
        first.rtCurrentThread = .thread 0 ∧ (first.threads 0).stat = .ready ∧
        readyMachine.step first (.wait (.sem 0) .fifo 0xffffffff#32) = some (kernel, []) ∧
        readyMachine.execute Config.plain.kernel
          [.operate (.startup 0), .operate (.startup 1), .operate .schedulerStart,
            .wait (.sem 0) .fifo 0xffffffff#32] = some (kernel, []) ∧
        kernel.rtCurrentThread = .thread 1 ∧ (kernel.threads 0).stat = .suspend ∧
        kernel.Masked 0 := ⟨_, _, rfl, rfl, rfl, rfl, rfl, rfl, rfl, rfl⟩
  have begun : readyMachine.Run ReadyOp.Fits Config.plain.kernel _ _ first :=
    readyMachine.run_of_execute (by simp [ReadyOp.Fits]) started
  have fits : ReadyOp.Fits first (.wait (.sem 0) .fifo 0xffffffff#32) := by
    intro thread there
    rw [front] at there
    obtain rfl := ThreadPtr.thread.inj there
    exact isReady
  have run := Machine.Run.snoc begun fits waits
  exact ⟨kernel, success, current, asleep, ((ending_keeps_ready run 0).2.1).mpr masked.fits⟩

/-- A thread of priority 0 runs, and the memory of another one, of priority 31, contains
the mask 1. -/
def Config.stale : Config :=
  { Config.plain with
    priority := fun thread => if thread = 0 then 0 else 31
    priority_lt := fun thread => by split <;> decide
    numberMask := fun _ => 1 }

/-- Deleting the thread that was never started hides the one that is ready. -/
theorem unstarted_hides_ready :
    ∃ kernel, readyMachine.execute Config.stale.kernel
        [.operate (.startup 0), .operate .schedulerStart] = some (kernel, []) ∧
      kernel.rtCurrentThread = .thread 0 ∧ (kernel.threads 1).stat = .init ∧
      ¬ KeepsReady kernel (rtThreadDelete kernel 1) 1 ∧
      ¬ KeepsReady kernel (rtThreadDetach kernel 1) 1 := by
  refine ⟨_, rfl, rfl, rfl, ?_, ?_⟩
  · rintro ⟨-, mapped⟩
    exact absurd ((mapped 0 (by decide)).mpr (by decide)) (by decide)
  · rintro ⟨-, mapped⟩
    exact absurd ((mapped 0 (by decide)).mpr (by decide)) (by decide)

end RtThread
