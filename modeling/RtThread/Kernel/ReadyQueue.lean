import RtThread.Kernel.Thread

/-!
# The ready structure

The priority lists, the bitmap over them, the state byte of each thread and its
cached mask describe one thing four times. `ReadyInv` ties them together over
the lists that the pointers spell out. Every thread operation is a sequence of
insertions, removals and record changes, so the invariant is proved for those;
`but` names the thread whose state and list are out of step in between.
-/

namespace RtThread

open RtThread.Std

theorem priorityMask_getLsbD {priority bit : Nat} (small : bit < 32) :
    (priorityMask priority).getLsbD bit = decide (bit = priority) := by
  by_cases below : bit < priority
  · simp [priorityMask, below, Nat.ne_of_lt below]
  · by_cases equal : bit = priority
    · simp [priorityMask, ← equal, small]
    · simp [priorityMask, below, equal, show bit - priority ≠ 0 by omega]

/-- Setting the mask of a priority sets its bit and no other. -/
theorem getLsbD_set (group : BitVec 32) (priority : Nat) {bit : Nat} (small : bit < 32) :
    (group ||| priorityMask priority).getLsbD bit =
      (group.getLsbD bit || decide (bit = priority)) := by
  rw [BitVec.getLsbD_or, priorityMask_getLsbD small]

/-- Clearing the mask of a priority clears its bit and no other. -/
theorem getLsbD_clear (group : BitVec 32) (priority : Nat) {bit : Nat} (small : bit < 32) :
    (group &&& ~~~priorityMask priority).getLsbD bit =
      (group.getLsbD bit && !decide (bit = priority)) := by
  rw [BitVec.getLsbD_and, BitVec.getLsbD_not, priorityMask_getLsbD small]
  simp [small]

/-- The two records agree on everything the ready structure is made of. -/
def Thread.SameRank (record record' : Thread) : Prop :=
  record.stat = record'.stat ∧ record.currentPriority = record'.currentPriority ∧
    record.initPriority = record'.initPriority ∧ record.numberMask = record'.numberMask

theorem setThread_sameRank {kernel : Kernel} {thread : ThreadId} {record : Thread}
    (same : record.SameRank (kernel.threads thread)) (other : ThreadId) :
    ((kernel.setThread thread record).threads other).SameRank (kernel.threads other) := by
  by_cases equal : other = thread
  · subst equal
    simpa [Kernel.setThread] using same
  · simp [Kernel.setThread, Function.update_of_ne equal, Thread.SameRank]

theorem setError_sameRank (kernel : Kernel) (thread : ThreadId) (result : Err)
    (other : ThreadId) :
    ((kernel.setError thread result).threads other).SameRank (kernel.threads other) := by
  apply setThread_sameRank
  exact ⟨rfl, rfl, rfl, rfl⟩

/-- The ready structure over the lists `lists`, up to the state of the threads
in `but`. -/
structure ReadyInv (but : ThreadId → Prop) (kernel : Kernel)
    (lists : ThreadNode → List ThreadNode) : Prop where
  rings : Rings ThreadNode.IsHead kernel.threadLinks lists
  group : ∀ priority < 32, kernel.rtThreadReadyPriorityGroup.getLsbD priority = true ↔
    lists (.ready priority) ≠ []
  ready : ∀ thread, ¬ but thread → ((kernel.threads thread).stat = .ready ↔
    .tlist thread ∈ lists (.ready (kernel.threads thread).currentPriority))
  home : ∀ thread priority, .tlist thread ∈ lists (.ready priority) →
    priority = (kernel.threads thread).currentPriority
  priority : ∀ thread, (kernel.threads thread).currentPriority < 32 ∧
    (kernel.threads thread).initPriority < 32
  mask : ∀ thread, (kernel.threads thread).stat ≠ .init →
    (kernel.threads thread).numberMask = priorityMask (kernel.threads thread).currentPriority

/-- No thread is out of step. -/
abbrev ReadyInv.All : Kernel → (ThreadNode → List ThreadNode) → Prop :=
  ReadyInv fun _ => False

/-- `thread->tlist` is behind no list head. -/
def LooseIn (lists : ThreadNode → List ThreadNode) (thread : ThreadId) : Prop :=
  ∀ head, head.IsHead → .tlist thread ∉ lists head

namespace ReadyInv

variable {but : ThreadId → Prop} {kernel kernel' : Kernel}
  {lists : ThreadNode → List ThreadNode} {thread : ThreadId}

/-- Only the thread links, the ranks and the bitmap matter. -/
theorem congr_rank (inv : ReadyInv but kernel lists)
    (links : kernel'.threadLinks = kernel.threadLinks)
    (rank : ∀ thread, (kernel'.threads thread).SameRank (kernel.threads thread))
    (group : kernel'.rtThreadReadyPriorityGroup = kernel.rtThreadReadyPriorityGroup) :
    ReadyInv but kernel' lists := by
  refine ⟨links ▸ inv.rings, group ▸ inv.group, ?_, ?_, ?_, ?_⟩ <;> intro other <;>
    obtain ⟨stat, current, init, mask⟩ := rank other
  · rw [stat, current]
    exact inv.ready other
  · rw [current]
    exact inv.home other
  · rw [current, init]
    exact inv.priority other
  · rw [stat, current, mask]
    exact inv.mask other

theorem congr (inv : ReadyInv but kernel lists) (links : kernel'.threadLinks = kernel.threadLinks)
    (threads : kernel'.threads = kernel.threads)
    (group : kernel'.rtThreadReadyPriorityGroup = kernel.rtThreadReadyPriorityGroup) :
    ReadyInv but kernel' lists :=
  inv.congr_rank links (fun other => by rw [threads]; exact ⟨rfl, rfl, rfl, rfl⟩) group

theorem except (inv : ReadyInv.All kernel lists) (thread : ThreadId) :
    ReadyInv (· = thread) kernel lists :=
  { inv with ready := fun other _ => inv.ready other id }

/-- A thread which is in no ready list is back in step when its state says so. -/
theorem settle (inv : ReadyInv (· = thread) kernel lists)
    (stat : (kernel.threads thread).stat ≠ .ready)
    (absent : ∀ priority, .tlist thread ∉ lists (.ready priority)) :
    ReadyInv.All kernel lists := by
  refine { inv with ready := fun other _ => ?_ }
  by_cases same : other = thread
  · subst same
    exact ⟨fun isReady => absurd isReady stat, fun member => absurd member (absent _)⟩
  · exact inv.ready other same

/-- Change the record of the thread that is out of step. -/
theorem setThread (inv : ReadyInv (· = thread) kernel lists) (record : Thread)
    (priority : record.currentPriority < 32 ∧ record.initPriority < 32)
    (mask : record.stat ≠ .init → record.numberMask = priorityMask record.currentPriority)
    (home : record.currentPriority = (kernel.threads thread).currentPriority ∨
      ∀ level, .tlist thread ∉ lists (.ready level)) :
    ReadyInv (· = thread) (kernel.setThread thread record) lists := by
  refine ⟨inv.rings, inv.group, ?_, ?_, ?_, ?_⟩
  · intro other apart
    simpa [Kernel.setThread, Function.update_of_ne apart] using inv.ready other apart
  · intro other level member
    by_cases same : other = thread
    · subst same
      rcases home with kept | absent
      · simpa [Kernel.setThread, kept] using inv.home other level member
      · exact absurd member (absent level)
    · simpa [Kernel.setThread, Function.update_of_ne same] using inv.home other level member
  · intro other
    by_cases same : other = thread
    · subst same
      simpa [Kernel.setThread] using priority
    · simpa [Kernel.setThread, Function.update_of_ne same] using inv.priority other
  · intro other
    by_cases same : other = thread
    · subst same
      simpa [Kernel.setThread] using mask
    · simpa [Kernel.setThread, Function.update_of_ne same] using inv.mask other

theorem setStat (inv : ReadyInv (· = thread) kernel lists) (stat : ThreadStat)
    (mask : (kernel.threads thread).numberMask =
      priorityMask (kernel.threads thread).currentPriority) :
    ReadyInv (· = thread) (kernel.setStat thread stat) lists :=
  inv.setThread _ (inv.priority thread) (fun _ => mask) (Or.inl rfl)

/-- Put a loose thread in step by inserting it. -/
theorem insert (inv : ReadyInv (· = thread) kernel lists) (loose : LooseIn lists thread)
    (mask : (kernel.threads thread).numberMask =
      priorityMask (kernel.threads thread).currentPriority) :
    ReadyInv.All (rtScheduleInsertThread kernel thread)
      (Function.update lists (.ready (kernel.threads thread).currentPriority)
        (lists (.ready (kernel.threads thread).currentPriority) ++ [.tlist thread])) := by
  have staged := inv.setStat .ready mask
  have level := (inv.priority thread).1
  have record : (kernel.setStat thread .ready).threads thread =
      { kernel.threads thread with stat := .ready } := by
    simp [Kernel.setStat, Kernel.setThread]
  have rings := inv.rings.insertBefore_head
    (ThreadNode.isHead_ready (kernel.threads thread).currentPriority)
    (ThreadNode.not_isHead_tlist thread) loose
  have membership : ∀ other priority,
      .tlist other ∈ Function.update lists (.ready (kernel.threads thread).currentPriority)
        (lists (.ready (kernel.threads thread).currentPriority) ++ [.tlist thread])
          (.ready priority) ↔
        .tlist other ∈ lists (.ready priority) ∨
          (other = thread ∧ priority = (kernel.threads thread).currentPriority) := by
    intro other priority
    by_cases same : priority = (kernel.threads thread).currentPriority
    · subst same
      simp
    · simp [Function.update_of_ne, same]
  simp only [rtScheduleInsertThread, Kernel.linkThreadBefore, record]
  refine ⟨rings, ?_, ?_, ?_, staged.priority, staged.mask⟩
  · intro priority small
    have old := staged.group priority small
    rw [mask, getLsbD_set _ _ small]
    by_cases same : priority = (kernel.threads thread).currentPriority
    · subst same
      simp
    · rw [Function.update_of_ne (by simpa using same)]
      simpa only [same, decide_false, Bool.or_false] using old
  · intro other _
    rw [membership]
    by_cases same : other = thread
    · subst same
      simp [record]
    · have old := staged.ready other same
      simp [same, old]
  · intro other priority member
    rw [membership] at member
    rcases member with old | ⟨rfl, rfl⟩
    · exact staged.home other priority old
    · rw [record]

/-- Removing a thread leaves it loose and keeps everything else in step. -/
theorem remove (inv : ReadyInv (· = thread) kernel lists)
    (mask : (kernel.threads thread).numberMask =
      priorityMask (kernel.threads thread).currentPriority) :
    ReadyInv (· = thread) (rtScheduleRemoveThread kernel thread)
      (fun head => (lists head).erase (.tlist thread)) := by
  have rings := inv.rings.unlink (ThreadNode.not_isHead_tlist thread)
  have empty := rings.isEmpty_iff
    (ThreadNode.isHead_ready (kernel.threads thread).currentPriority)
  have kept : ∀ priority, priority ≠ (kernel.threads thread).currentPriority →
      (lists (.ready priority)).erase (.tlist thread) = lists (.ready priority) := by
    intro priority apart
    refine List.erase_of_not_mem fun member => apart (inv.home thread priority member)
  have others : ∀ other head, other ≠ thread →
      (.tlist other ∈ (lists head).erase (.tlist thread) ↔ .tlist other ∈ lists head) := by
    intro other head apart
    exact List.mem_erase_of_ne (by simpa using apart)
  have structural : ∀ group : BitVec 32,
      (∀ priority < 32, group.getLsbD priority = true ↔
        (lists (.ready priority)).erase (.tlist thread) ≠ []) →
      ReadyInv (· = thread)
        { kernel.unlinkThread thread with rtThreadReadyPriorityGroup := group }
        (fun head => (lists head).erase (.tlist thread)) := by
    intro group bits
    refine ⟨rings, bits, ?_, ?_, inv.priority, inv.mask⟩
    · intro other apart
      rw [others other _ apart]
      exact inv.ready other apart
    · intro other priority member
      exact inv.home other priority (List.mem_of_mem_erase member)
  unfold rtScheduleRemoveThread
  dsimp only
  split
  · rename_i isEmpty
    have gone := empty.mp isEmpty
    apply structural
    intro priority small
    rw [show ((kernel.unlinkThread thread).threads thread).numberMask = _ from mask,
      getLsbD_clear _ _ small]
    by_cases same : priority = (kernel.threads thread).currentPriority
    · subst same
      simp [gone]
    · rw [kept priority same]
      simp only [same, decide_false, Bool.not_false, Bool.and_true]
      exact inv.group priority small
  · rename_i isEmpty
    have nonempty := fun gone => isEmpty (empty.mpr gone)
    apply structural
    intro priority small
    by_cases same : priority = (kernel.threads thread).currentPriority
    · subst same
      have old := (inv.group _ small).mpr
        (fun gone => nonempty (by rw [gone]; rfl))
      exact ⟨fun _ => nonempty, fun _ => old⟩
    · rw [kept priority same]
      exact inv.group priority small

theorem remove_loose (inv : ReadyInv but kernel lists) :
    LooseIn (fun head => (lists head).erase (.tlist thread)) thread := by
  intro head isHead member
  exact (inv.rings.distinct head isHead).not_mem_erase member

theorem absent_of_not_ready (inv : ReadyInv.All kernel lists) (thread : ThreadId)
    (stat : (kernel.threads thread).stat ≠ .ready) (priority : Nat) :
    .tlist thread ∉ lists (.ready priority) := by
  intro member
  apply stat
  rw [inv.ready thread id, ← inv.home thread priority member]
  exact member

/-- Unlinking a thread that is in no priority list leaves the bitmap right. -/
theorem unlink (inv : ReadyInv (· = thread) kernel lists)
    (absent : ∀ priority, .tlist thread ∉ lists (.ready priority)) :
    ReadyInv (· = thread) (kernel.unlinkThread thread)
      (fun head => (lists head).erase (.tlist thread)) := by
  have kept : ∀ priority, (lists (.ready priority)).erase (.tlist thread) =
      lists (.ready priority) := fun priority => List.erase_of_not_mem (absent priority)
  refine ⟨inv.rings.unlink (ThreadNode.not_isHead_tlist thread), ?_, ?_, ?_, inv.priority,
    inv.mask⟩
  · intro priority small
    rw [kept]
    exact inv.group priority small
  · intro other apart
    rw [kept]
    exact inv.ready other apart
  · intro other priority member
    rw [kept] at member
    exact inv.home other priority member

/-- Move a ready thread to the end of its own list. -/
theorem rotate (inv : ReadyInv.All kernel lists) (isReady : (kernel.threads thread).stat = .ready) :
    ReadyInv.All ((kernel.unlinkThread thread).linkThreadBefore
        (.ready (kernel.threads thread).currentPriority) thread)
      (Function.update (fun head => (lists head).erase (.tlist thread))
        (.ready (kernel.threads thread).currentPriority)
        ((lists (.ready (kernel.threads thread).currentPriority)).erase (.tlist thread) ++
          [.tlist thread])) := by
  have linked := (inv.ready thread id).mp isReady
  have rings := (inv.rings.unlink (ThreadNode.not_isHead_tlist thread)).insertBefore_head
    (ThreadNode.isHead_ready (kernel.threads thread).currentPriority)
    (ThreadNode.not_isHead_tlist thread) inv.remove_loose
  have membership : ∀ other priority,
      .tlist other ∈ Function.update (fun head => (lists head).erase (.tlist thread))
        (.ready (kernel.threads thread).currentPriority)
        ((lists (.ready (kernel.threads thread).currentPriority)).erase (.tlist thread) ++
          [.tlist thread]) (.ready priority) ↔ .tlist other ∈ lists (.ready priority) := by
    intro other priority
    by_cases same : other = thread
    · subst same
      have home := inv.home other priority
      have gone : .tlist other ∉ (lists (.ready priority)).erase (.tlist other) :=
        (inv.rings.distinct _ (ThreadNode.isHead_ready priority)).not_mem_erase
      by_cases level : priority = (kernel.threads other).currentPriority
      · subst level
        simpa using linked
      · rw [Function.update_of_ne (by simpa using level)]
        exact ⟨fun member => absurd member gone, fun member => absurd (home member) level⟩
    · have kept : ∀ head, .tlist other ∈ (lists head).erase (.tlist thread) ↔
          .tlist other ∈ lists head := fun head => List.mem_erase_of_ne (by simpa using same)
      by_cases level : priority = (kernel.threads thread).currentPriority
      · subst level
        simp [kept, same]
      · rw [Function.update_of_ne (by simpa using level)]
        exact kept _
  refine ⟨rings, ?_, ?_, ?_, inv.priority, inv.mask⟩
  · intro priority small
    have old := inv.group priority small
    by_cases level : priority = (kernel.threads thread).currentPriority
    · subst level
      rw [Function.update_self]
      exact ⟨fun _ => by simp, fun _ => old.mpr (List.ne_nil_of_mem linked)⟩
    · rw [Function.update_of_ne (by simpa using level), List.erase_of_not_mem]
      · exact old
      · exact fun member => level (inv.home thread priority member)
  · intro other _
    rw [membership]
    exact inv.ready other id
  · intro other priority member
    rw [membership] at member
    exact inv.home other priority member

/-- Link a thread that is not ready behind `rt_thread_defunct`. -/
theorem linkDefunct (inv : ReadyInv.All kernel lists) (loose : LooseIn lists thread) :
    ReadyInv.All (kernel.linkThreadAfter .defunct thread)
      (Function.update lists .defunct (.tlist thread :: lists .defunct)) := by
  have rings := inv.rings.insertAfter_head ThreadNode.isHead_defunct
    (ThreadNode.not_isHead_tlist thread) loose
  exact ⟨rings, inv.group, inv.ready, inv.home, inv.priority, inv.mask⟩

end ReadyInv

/-! ## Effects of the scheduler primitives on the records -/

@[simp] theorem rtScheduleRemoveThread_threads (kernel : Kernel) (thread : ThreadId) :
    (rtScheduleRemoveThread kernel thread).threads = kernel.threads := by
  unfold rtScheduleRemoveThread
  dsimp only
  split <;> rfl

@[simp] theorem rtScheduleRemoveThread_timers (kernel : Kernel) (thread : ThreadId) :
    (rtScheduleRemoveThread kernel thread).timers = kernel.timers := by
  unfold rtScheduleRemoveThread
  dsimp only
  split <;> rfl

@[simp] theorem rtScheduleRemoveThread_current (kernel : Kernel) (thread : ThreadId) :
    (rtScheduleRemoveThread kernel thread).rtCurrentThread = kernel.rtCurrentThread := by
  unfold rtScheduleRemoveThread
  dsimp only
  split <;> rfl

@[simp] theorem rtScheduleInsertThread_threads (kernel : Kernel) (thread : ThreadId) :
    (rtScheduleInsertThread kernel thread).threads = Function.update kernel.threads thread
      { kernel.threads thread with stat := .ready } := rfl

@[simp] theorem rtScheduleInsertThread_current (kernel : Kernel) (thread : ThreadId) :
    (rtScheduleInsertThread kernel thread).rtCurrentThread = kernel.rtCurrentThread := rfl

@[simp] theorem rtThreadResumeUnlink_threads (kernel : Kernel) (thread : ThreadId) :
    (rtThreadResumeUnlink kernel thread).threads = kernel.threads := rfl

@[simp] theorem rtSchedule_threads (kernel : Kernel) :
    (rtSchedule kernel).threads = kernel.threads := by
  unfold rtSchedule
  dsimp only
  split
  · split <;> rfl
  · rfl

@[simp] theorem rtSchedule_threadLinks (kernel : Kernel) :
    (rtSchedule kernel).threadLinks = kernel.threadLinks := by
  unfold rtSchedule
  dsimp only
  split
  · split <;> rfl
  · rfl

@[simp] theorem rtSchedule_group (kernel : Kernel) :
    (rtSchedule kernel).rtThreadReadyPriorityGroup = kernel.rtThreadReadyPriorityGroup := by
  unfold rtSchedule
  dsimp only
  split
  · split <;> rfl
  · rfl

/-- After `rt_schedule` the current thread is the selected one, unless the
scheduler is locked. -/
theorem rtSchedule_current (kernel : Kernel) :
    (rtSchedule kernel).rtCurrentThread =
      if kernel.rtSchedulerLockNest = 0 then highestReadyThread kernel
      else kernel.rtCurrentThread := by
  unfold rtSchedule
  dsimp only
  split
  · split
    · rfl
    · rename_i same
      exact (Classical.not_not.mp same).symm
  · rfl

end RtThread
