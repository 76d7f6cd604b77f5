import RtThread.Kernel.WaitOrder

/-!
# Threads that leave a suspend list

Whatever a section does to threads that wait, but for suspending a thread and for changing
a priority, it only takes some of them out of their lists. The others stay in the order in
which they were.
-/

namespace RtThread

open RtThread.Std

/-- The flag with which the object of a list has been created. -/
def Kernel.ipcFlag (kernel : Kernel) : WaitList → IpcFlag
  | .sem index => (kernel.sems index).flag
  | .mutex index => (kernel.mutexes index).flag
  | .event index => (kernel.events index).flag
  | .mailbox index | .mailboxSender index => (kernel.mailboxes index).flag
  | .messageQueue _ | .mempool _ => .fifo

theorem Kernel.ipcFlag_congr {kernel next : Kernel} (objects : next.objects = kernel.objects) :
    next.ipcFlag = kernel.ipcFlag := by
  funext list
  cases list with
  | sem index => exact congrArg (fun objects : Objects => (objects.sems index).flag) objects
  | mutex index => exact congrArg (fun objects : Objects => (objects.mutexes index).flag) objects
  | event index => exact congrArg (fun objects : Objects => (objects.events index).flag) objects
  | mailbox index | mailboxSender index =>
      exact congrArg (fun objects : Objects => (objects.mailboxes index).flag) objects
  | messageQueue index | mempool index => rfl

/-- Threads have left their suspend lists. Those that are left keep their order and their
priority. -/
structure Thins (kernel next : Kernel) : Prop where
  queues : ∀ list queue, Queued kernel list queue →
    ∃ rest, Queued next list rest ∧ rest.Sublist queue ∧
      ∀ thread ∈ rest,
        (next.threads thread).currentPriority = (kernel.threads thread).currentPriority
  flags : next.ipcFlag = kernel.ipcFlag

namespace Thins

variable {kernel middle next : Kernel} {thread : ThreadId} {list : WaitList}

theorem trans (first : Thins kernel middle) (second : Thins middle next) : Thins kernel next where
  queues list queue queued := by
    obtain ⟨rest, left, sublist, same⟩ := first.queues list queue queued
    obtain ⟨rest', left', sublist', same'⟩ := second.queues list rest left
    exact ⟨rest', left', sublist'.trans sublist, fun thread member =>
      (same' thread member).trans (same thread (sublist'.subset member))⟩
  flags := second.flags.trans first.flags

/-- A step that leaves the lists and the priorities alone. -/
theorem of_same (links : next.threadLinks = kernel.threadLinks)
    (priority : ∀ thread,
      (next.threads thread).currentPriority = (kernel.threads thread).currentPriority)
    (flags : next.ipcFlag = kernel.ipcFlag) : Thins kernel next where
  queues _ queue queued :=
    ⟨queue, queued.congr links, .refl queue, fun thread _ => priority thread⟩
  flags := flags

theorem refl (kernel : Kernel) : Thins kernel kernel := .of_same rfl (fun _ => rfl) rfl

/-- A step that unlinks one thread. -/
theorem of_unlink (links : next.threadLinks = kernel.threadLinks.unlink (.tlist thread))
    (priority : ∀ other, other ≠ thread →
      (next.threads other).currentPriority = (kernel.threads other).currentPriority)
    (flags : next.ipcFlag = kernel.ipcFlag) : Thins kernel next where
  queues list queue queued := by
    have distinct := queued.nodup
    obtain ⟨lists, rings, shape⟩ := queued
    refine ⟨queue.erase thread, ⟨_, links ▸ rings.unlink (ThreadNode.not_isHead_tlist thread), ?_⟩,
      List.erase_sublist, ?_⟩
    · rw [shape, ← List.map_erase tlist_injective]
    · intro other member
      refine priority other ?_
      rintro rfl
      exact distinct.not_mem_erase member
  flags := flags

/-- A step that moves one thread to the end of a ready list. -/
theorem of_relink {level : Nat}
    (links : next.threadLinks =
      (kernel.threadLinks.unlink (.tlist thread)).insertBefore (.ready level) (.tlist thread))
    (priority : ∀ other, other ≠ thread →
      (next.threads other).currentPriority = (kernel.threads other).currentPriority)
    (flags : next.ipcFlag = kernel.ipcFlag) : Thins kernel next where
  queues list queue queued := by
    have distinct := queued.nodup
    obtain ⟨lists, rings, shape⟩ := queued
    have plain := ThreadNode.not_isHead_tlist thread
    have linked := (rings.unlink plain).insertBefore_head (ThreadNode.isHead_ready level) plain
      fun head isHead => (rings.distinct head isHead).not_mem_erase
    refine ⟨queue.erase thread, ⟨_, links ▸ linked, ?_⟩, List.erase_sublist, ?_⟩
    · rw [Function.update_of_ne (by simp), shape, ← List.map_erase tlist_injective]
    · intro other member
      refine priority other ?_
      rintro rfl
      exact distinct.not_mem_erase member
  flags := flags

/-- A step that puts a thread which is on no list on a ready list. -/
theorem of_link {level : Nat} (loose : ∀ head : ThreadNode, head.IsHead →
      ¬ kernel.threadLinks.Linked head (.tlist thread))
    (links : next.threadLinks = kernel.threadLinks.insertBefore (.ready level) (.tlist thread))
    (priority : ∀ thread,
      (next.threads thread).currentPriority = (kernel.threads thread).currentPriority)
    (flags : next.ipcFlag = kernel.ipcFlag) : Thins kernel next where
  queues list queue queued := by
    obtain ⟨lists, rings, shape⟩ := queued
    have linked := rings.insertBefore_head (ThreadNode.isHead_ready level)
      (ThreadNode.not_isHead_tlist thread) fun head isHead member =>
        loose head isHead ((rings.linked_iff isHead _).mpr member)
    refine ⟨queue, ⟨_, links ▸ linked, ?_⟩, .refl queue, fun thread _ => priority thread⟩
    rw [Function.update_of_ne (by simp), shape]
  flags := flags

/-! ### Records -/

theorem setThread (kernel : Kernel) {record : Thread}
    (priority : record.currentPriority = (kernel.threads thread).currentPriority) :
    Thins kernel (kernel.setThread thread record) := by
  refine .of_same rfl (fun other => ?_) rfl
  by_cases same : other = thread
  · rw [same, Kernel.setThread]
    dsimp only
    rw [Function.update_self, priority]
  · rw [Kernel.setThread]
    dsimp only
    rw [Function.update_of_ne same]

theorem setError (kernel : Kernel) (thread : ThreadId) (result : Err) :
    Thins kernel (kernel.setError thread result) := .setThread kernel rfl

theorem setSem (kernel : Kernel) (index : Nat) {record : Semaphore}
    (flag : record.flag = (kernel.sems index).flag) :
    Thins kernel (kernel.setSem index record) := by
  refine .of_same rfl (fun _ => rfl) (funext fun list => ?_)
  cases list with
  | sem other =>
      by_cases same : other = index
      · simp [Kernel.ipcFlag, Kernel.setSem, same, flag]
      · simp [Kernel.ipcFlag, Kernel.setSem, same]
  | _ => rfl

theorem setMutex (kernel : Kernel) (index : Nat) {record : Mutex}
    (flag : record.flag = (kernel.mutexes index).flag) :
    Thins kernel (kernel.setMutex index record) := by
  refine .of_same rfl (fun _ => rfl) (funext fun list => ?_)
  cases list with
  | mutex other =>
      by_cases same : other = index
      · simp [Kernel.ipcFlag, Kernel.setMutex, same, flag]
      · simp [Kernel.ipcFlag, Kernel.setMutex, same]
  | _ => rfl

theorem setEvent (kernel : Kernel) (index : Nat) {record : Event}
    (flag : record.flag = (kernel.events index).flag) :
    Thins kernel (kernel.setEvent index record) := by
  refine .of_same rfl (fun _ => rfl) (funext fun list => ?_)
  cases list with
  | event other =>
      by_cases same : other = index
      · simp [Kernel.ipcFlag, Kernel.setEvent, same, flag]
      · simp [Kernel.ipcFlag, Kernel.setEvent, same]
  | _ => rfl

theorem setMailbox (kernel : Kernel) (index : Nat) {record : Mailbox}
    (flag : record.flag = (kernel.mailboxes index).flag) :
    Thins kernel (kernel.setMailbox index record) := by
  refine .of_same rfl (fun _ => rfl) (funext fun list => ?_)
  cases list with
  | mailbox other =>
      by_cases same : other = index
      · simp [Kernel.ipcFlag, Kernel.setMailbox, same, flag]
      · simp [Kernel.ipcFlag, Kernel.setMailbox, same]
  | mailboxSender other =>
      by_cases same : other = index
      · simp [Kernel.ipcFlag, Kernel.setMailbox, same, flag]
      · simp [Kernel.ipcFlag, Kernel.setMailbox, same]
  | _ => rfl

/-! ### Threads -/

theorem schedule (kernel : Kernel) : Thins kernel (rtSchedule kernel) := by
  unfold rtSchedule
  dsimp only
  split
  · split
    · exact .of_same rfl (fun _ => rfl) rfl
    · exact .refl kernel
  · exact .refl kernel

theorem removeThread (kernel : Kernel) (thread : ThreadId) :
    Thins kernel (rtScheduleRemoveThread kernel thread) := by
  unfold rtScheduleRemoveThread
  dsimp only
  split <;> exact .of_unlink rfl (fun _ _ => rfl) rfl

theorem suspendThread (kernel : Kernel) (thread : ThreadId) :
    Thins kernel (rtThreadSuspend kernel thread).2 := by
  unfold rtThreadSuspend
  split
  · exact .refl kernel
  · have marked : Thins kernel (kernel.setStat thread .suspend) := .setThread kernel rfl
    exact marked.trans (.removeThread _ thread)

/-- A thread that goes to a ready list after it has been unlinked. -/
theorem insertThread (links : middle.threadLinks = kernel.threadLinks.unlink (.tlist thread))
    (priority : ∀ other, other ≠ thread →
      (middle.threads other).currentPriority = (kernel.threads other).currentPriority)
    (flags : middle.ipcFlag = kernel.ipcFlag) :
    Thins kernel (rtScheduleInsertThread middle thread) := by
  refine @of_relink _ _ thread ((middle.setStat thread .ready).threads thread).currentPriority
    ?_ ?_ flags
  · rw [← links]
    rfl
  · intro other apart
    rw [← priority other apart]
    simp [apart]

theorem resume (kernel : Kernel) (thread : ThreadId) :
    Thins kernel (rtThreadResume kernel thread).2 := by
  unfold rtThreadResume
  split
  · exact .refl kernel
  · exact .insertThread rfl (fun _ _ => rfl) rfl

/-- A change of the priority of a thread that is ready. -/
theorem changePriority (priority : Nat) (isReady : (kernel.threads thread).stat = .ready) :
    Thins kernel (rtThreadChangePriority kernel thread priority) := by
  rw [rtThreadChangePriority, if_pos isReady]
  have links : (rtScheduleRemoveThread kernel thread).threadLinks =
      kernel.threadLinks.unlink (.tlist thread) := by
    unfold rtScheduleRemoveThread
    dsimp only
    split <;> rfl
  have flags : (rtScheduleRemoveThread kernel thread).ipcFlag = kernel.ipcFlag := by
    unfold rtScheduleRemoveThread
    dsimp only
    split <;> rfl
  refine .insertThread links (fun other apart => ?_) flags
  rw [setPriority, Kernel.setThread]
  dsimp only
  rw [Function.update_of_ne apart]
  simp

theorem listResume (step : rtIpcListResume kernel list = some next) : Thins kernel next := by
  unfold rtIpcListResume at step
  split at step
  · obtain rfl := Option.some_inj.mp step
    exact .resume kernel _
  · cases step

theorem resumeFirst {output : Option (BitVec 32)} {outcome : Outcome}
    (step : resumeFirst kernel list output = some (next, outcome)) : Thins kernel next := by
  unfold RtThread.resumeFirst at step
  split at step
  · obtain ⟨rfl, rfl⟩ := Prod.mk.inj (Option.some_inj.mp step)
    exact .refl kernel
  · obtain ⟨resumed, resume, done⟩ := Option.bind_eq_some_iff.mp step
    obtain ⟨rfl, rfl⟩ := Prod.mk.inj (Option.some_inj.mp done)
    exact .listResume resume

theorem listResumeAll (step : rtIpcListResumeAll list kernel = some next) : Thins kernel next := by
  refine Kernel.rtIpcListResumeAll.partial_correctness list
    (fun kernel result => Thins kernel result) ?_ kernel next step
  intro loop ih kernel next step
  split at step
  · obtain rfl := Option.some_inj.mp step
    exact .refl kernel
  split at step
  · rename_i thread _
    have failed : Thins kernel (rtThreadResume (kernel.setError thread .error) thread).2 :=
      (Thins.setError kernel thread .error).trans (.resume _ thread)
    exact failed.trans (ih _ _ step)
  · cases step

theorem clearEvent (kernel : Kernel) (event : Nat) (option : BitVec 8) (set : BitVec 32) :
    Thins kernel (clearEvent kernel event option set) := by
  unfold RtThread.clearEvent
  dsimp only
  split
  · exact .setEvent kernel event rfl
  · exact .refl kernel

theorem resumeSatisfied (kernel : Kernel) (event : Nat) (thread : ThreadId) :
    Thins kernel (resumeSatisfied kernel event thread) := by
  have saved : Thins kernel (saveReceived kernel event thread) := by
    unfold saveReceived
    dsimp only
    split
    · exact .refl kernel
    · exact .setThread kernel rfl
  exact saved.trans ((Thins.clearEvent ..).trans (.resume ..))

theorem eventSendLoop {event : Nat} {node : ThreadNode} {need need' : Bool}
    (step : eventSendLoop event kernel node need = some (next, need')) : Thins kernel next := by
  refine Kernel.eventSendLoop.partial_correctness event
    (fun kernel _ _ result => Thins kernel result.1) ?_ kernel node need (next, need') step
  intro loop ih kernel node need result step
  split at step
  · obtain rfl := Option.some_inj.mp step
    exact .refl kernel
  split at step
  · rename_i thread _
    dsimp only at step
    split at step
    · exact (Thins.resumeSatisfied kernel event thread).trans (ih _ _ _ _ step)
    · exact ih _ _ _ _ step
  · cases step

/-! ### Time -/

theorem timerStart {timer : TimerId} {result : Err}
    (step : rtTimerStart kernel timer = some (result, next)) : Thins kernel next := by
  have frame := rtTimerStart_frame step
  refine .of_same ?_ (fun thread => ?_) ?_
  · rw [frame]
  · rw [frame]
  · rw [frame]
    rfl

theorem threadTimer {time : BitVec 32} {result : Err}
    (step : startThreadTimer kernel thread time = some (result, next)) : Thins kernel next := by
  have timed : Thins kernel (rtTimerControl kernel (.thread thread) (.setTime time)) :=
    .of_same rfl (fun _ => rfl) rfl
  exact timed.trans (.timerStart step)

theorem yieldSection (kernel : Kernel) (thread : ThreadId) :
    Thins kernel (rtThreadYieldSection kernel thread).1 := by
  unfold rtThreadYieldSection
  split
  · exact .of_relink rfl (fun _ _ => rfl) rfl
  · exact .refl kernel

theorem checkTimeSlice (step : checkTimeSlice kernel = some next) : Thins kernel next := by
  unfold RtThread.checkTimeSlice at step
  split at step
  · rename_i thread _
    have charged : Thins kernel (chargeTick kernel thread).1 := by
      unfold chargeTick
      dsimp only
      split <;> exact .setThread kernel rfl
    dsimp only at step
    split at step
    · unfold rtThreadYield at step
      split at step
      · rename_i current _
        obtain rfl := Option.some_inj.mp step
        have rotated := charged.trans (.yieldSection _ current)
        dsimp only
        split
        · exact rotated.trans (.schedule _)
        · exact rotated
      · cases step
    · obtain rfl := Option.some_inj.mp step
      exact charged
  · cases step

theorem threadTimeout (step : rtThreadTimeout kernel thread = some next) : Thins kernel next := by
  obtain ⟨-, made⟩ := Option.ite_none_right_eq_some.mp step
  obtain rfl := Option.some_inj.mp made
  have marked : Thins kernel (kernel.setError thread .etimeout) := .setError kernel thread .etimeout
  have inserted : Thins (kernel.setError thread .etimeout)
      (rtScheduleInsertThread ((kernel.setError thread .etimeout).unlinkThread thread) thread) :=
    .insertThread rfl (fun _ _ => rfl) rfl
  exact marked.trans (inserted.trans (.schedule _))

theorem timerFinish {timer : TimerId} (step : rtTimerFinish kernel timer = some next) :
    Thins kernel next := by
  have stopped : Thins kernel (kernel.deactivate timer) := .of_same rfl (fun _ => rfl) rfl
  unfold rtTimerFinish at step
  split at step
  · obtain ⟨⟨result, started⟩, start, made⟩ := Option.bind_eq_some_iff.mp step
    obtain rfl := Option.some_inj.mp made
    exact stopped.trans (.timerStart start)
  · obtain rfl := Option.some_inj.mp step
    exact stopped

theorem timerCheckLoop {currentTick : BitVec 32} {fired : List TimerId}
    (step : rtTimerCheckLoop threadTimeoutFunc currentTick kernel = some (next, fired)) :
    Thins kernel next := by
  refine Kernel.rtTimerCheckLoop.partial_correctness threadTimeoutFunc
    (fun _ kernel result => Thins kernel result.1) ?_ currentTick kernel (next, fired) step
  intro loop ih currentTick kernel result step
  split at step
  · obtain rfl := Option.some_inj.mp step
    exact .refl kernel
  · rename_i timer entry
    split at step
    · obtain ⟨called, call, step⟩ := Option.bind_eq_some_iff.mp step
      obtain ⟨finished, finish, step⟩ := Option.bind_eq_some_iff.mp step
      obtain ⟨⟨last, later⟩, rest, done⟩ := Option.bind_eq_some_iff.mp step
      obtain rfl := Option.some_inj.mp done
      have unlinked : Thins kernel (kernel.unlinkTimer timer) := .of_same rfl (fun _ => rfl) rfl
      have timed : Thins (kernel.unlinkTimer timer) called := by
        cases timer with
        | thread thread => exact .threadTimeout call
        | object index =>
            obtain rfl := Option.some_inj.mp call
            exact .refl _
      have others : Thins finished last := ih _ _ _ rest
      exact unlinked.trans (timed.trans ((Thins.timerFinish finish).trans others))
    · obtain rfl := Option.some_inj.mp step
      exact .refl kernel

theorem tickIncrease {fired : List TimerId}
    (step : rtTickIncrease threadTimeoutFunc kernel = some (next, fired)) : Thins kernel next := by
  obtain ⟨charged, slice, check⟩ := Option.bind_eq_some_iff.mp step
  have counted : Thins kernel { kernel with rtTick := kernel.rtTick + 1#32 } :=
    .of_same rfl (fun _ => rfl) rfl
  exact counted.trans ((Thins.checkTimeSlice slice).trans (.timerCheckLoop check))

theorem threadStartup (step : rtThreadStartup kernel thread = some next) : Thins kernel next := by
  obtain ⟨-, made⟩ := Option.ite_none_right_eq_some.mp step
  obtain rfl := Option.some_inj.mp made
  let prepared := (setPriority kernel thread (kernel.threads thread).initPriority).setStat
    thread .suspend
  have suspended : (prepared.threads thread).stat = .suspend := by
    simp [prepared, Kernel.setStat, Kernel.setThread]
  have others : ∀ other, other ≠ thread → prepared.threads other = kernel.threads other := by
    intro other apart
    simp [prepared, Kernel.setStat, setPriority, Kernel.setThread, apart]
  have resumed : Thins kernel (rtThreadResume prepared thread).2 := by
    rw [rtThreadResume, if_neg (by simp [suspended])]
    refine .insertThread rfl (fun other apart => ?_) rfl
    change (prepared.threads other).currentPriority = _
    rw [others other apart]
  split
  · exact resumed.trans (.schedule _)
  · exact resumed

end Thins

/-! ## The sections of the calls -/

/-- The kernels differ in nothing that concerns the suspend lists. -/
structure Alike (kernel next : Kernel) : Prop where
  links : next.threadLinks = kernel.threadLinks
  timerLinks : next.timerLinks = kernel.timerLinks
  timers : next.timers = kernel.timers
  stat : ∀ thread, (next.threads thread).stat = (kernel.threads thread).stat
  priority : ∀ thread,
    (next.threads thread).currentPriority = (kernel.threads thread).currentPriority
  flags : next.ipcFlag = kernel.ipcFlag

/-- Some threads leave their lists, or the running thread is suspended. -/
inductive QueueEffect (kernel next : Kernel) (outcome : Outcome) : Prop where
  | thins (thins : Thins kernel next)
  | suspends {middle : Kernel} {list : WaitList} {thread : ThreadId} {time : BitVec 32}
      (kind : ∀ index, list ≠ .messageQueue index) (alike : Alike kernel middle)
      (current : kernel.rtCurrentThread = .thread thread)
      (step : suspendOn middle list thread (kernel.ipcFlag list) time = some (next, outcome))

section

variable {kernel next : Kernel} {thread : ThreadId} {outcome : Outcome}

theorem Alike.thins (alike : Alike kernel next) : Thins kernel next :=
  .of_same alike.links alike.priority alike.flags

theorem Alike.trans {middle : Kernel} (first : Alike kernel middle) (second : Alike middle next) :
    Alike kernel next where
  links := second.links.trans first.links
  timerLinks := second.timerLinks.trans first.timerLinks
  timers := second.timers.trans first.timers
  stat thread := (second.stat thread).trans (first.stat thread)
  priority thread := (second.priority thread).trans (first.priority thread)
  flags := second.flags.trans first.flags

theorem Alike.setThread {record : Thread} (stat : record.stat = (kernel.threads thread).stat)
    (priority : record.currentPriority = (kernel.threads thread).currentPriority) :
    Alike kernel (kernel.setThread thread record) := by
  refine ⟨rfl, rfl, rfl, fun other => ?_, fun other => ?_, rfl⟩
  · by_cases same : other = thread
    · simp [Kernel.setThread, same, stat]
    · simp [Kernel.setThread, same]
  · by_cases same : other = thread
    · simp [Kernel.setThread, same, priority]
    · simp [Kernel.setThread, same]

theorem Alike.setError (kernel : Kernel) (thread : ThreadId) (result : Err) :
    Alike kernel (kernel.setError thread result) := .setThread rfl rfl

theorem rtSemTake_queues {sem : Nat} {time : BitVec 32}
    (step : rtSemTake kernel sem time = some (next, outcome)) :
    QueueEffect kernel next outcome := by
  simp only [rtSemTake] at step
  split at step
  · obtain ⟨rfl, rfl⟩ := Prod.mk.inj (Option.some_inj.mp step)
    exact .thins (.setSem kernel sem rfl)
  split at step
  · obtain ⟨rfl, rfl⟩ := Prod.mk.inj (Option.some_inj.mp step)
    exact .thins (.refl kernel)
  split at step
  · rename_i thread current
    exact .suspends (by simp) (.setError kernel thread .eok) current step
  · cases step

theorem rtSemRelease_queues {sem : Nat} (step : rtSemRelease kernel sem = some (next, outcome)) :
    QueueEffect kernel next outcome := by
  simp only [rtSemRelease] at step
  split at step
  · obtain ⟨rfl, rfl⟩ := Prod.mk.inj (Option.some_inj.mp step)
    exact .thins (.setSem kernel sem rfl)
  · obtain ⟨resumed, resume, done⟩ := Option.bind_eq_some_iff.mp step
    obtain ⟨rfl, rfl⟩ := Prod.mk.inj (Option.some_inj.mp done)
    exact .thins (.listResume resume)

theorem rtSemControl_queues {sem : Nat} {cmd : BitVec 8} {arg : BitVec 32}
    (step : rtSemControl kernel sem cmd arg = some (next, outcome)) :
    QueueEffect kernel next outcome := by
  unfold rtSemControl at step
  split at step
  · obtain ⟨resumed, resume, done⟩ := Option.bind_eq_some_iff.mp step
    obtain ⟨rfl, rfl⟩ := Prod.mk.inj (Option.some_inj.mp done)
    exact .thins ((Thins.listResumeAll resume).trans (.setSem resumed sem rfl))
  · obtain ⟨rfl, rfl⟩ := Prod.mk.inj (Option.some_inj.mp step)
    exact .thins (.refl kernel)

/-- A thread that waits for a mutex may have raised its owner before. -/
theorem rtMutexTake_queues {mutex : Nat} {time : BitVec 32}
    (step : rtMutexTake kernel mutex time = some (next, outcome)) :
    Thins kernel next ∨ ∃ thread owner, kernel.rtCurrentThread = .thread thread ∧
      (kernel.mutexes mutex).owner = some owner ∧ (kernel.mutexes mutex).value = 0#16 ∧
      time ≠ 0#32 ∧
      suspendOn (raiseOwner (kernel.setError thread .eok) owner thread) (.mutex mutex) thread
        (kernel.mutexes mutex).flag time = some (next, outcome) := by
  unfold rtMutexTake at step
  split at step
  · rename_i thread current
    have reset : Thins kernel (kernel.setError thread .eok) := .setError kernel thread .eok
    dsimp only at step
    split at step
    · obtain ⟨rfl, rfl⟩ := Prod.mk.inj (Option.some_inj.mp step)
      exact .inl (reset.trans (.setMutex _ mutex rfl))
    split at step
    · obtain ⟨rfl, rfl⟩ := Prod.mk.inj (Option.some_inj.mp step)
      exact .inl (reset.trans (.setMutex _ mutex rfl))
    rename_i taken
    split at step
    · obtain ⟨rfl, rfl⟩ := Prod.mk.inj (Option.some_inj.mp step)
      exact .inl (reset.trans (.setError _ thread .etimeout))
    rename_i waits
    split at step
    · rename_i owner owned
      exact .inr ⟨thread, owner, current, owned, Classical.not_not.mp taken, waits, step⟩
    · cases step
  · cases step

theorem passMutex_queues {mutex : Nat} (step : passMutex kernel mutex = some (next, outcome)) :
    Thins kernel next := by
  simp only [passMutex] at step
  split at step
  · obtain ⟨rfl, rfl⟩ := Prod.mk.inj (Option.some_inj.mp step)
    exact .setMutex kernel mutex rfl
  split at step
  · obtain ⟨resumed, resume, done⟩ := Option.bind_eq_some_iff.mp step
    obtain ⟨rfl, rfl⟩ := Prod.mk.inj (Option.some_inj.mp done)
    refine Thins.trans ?_ (.listResume resume)
    exact .setMutex kernel mutex rfl
  · cases step

/-- The thread that releases a mutex runs, so its priority may be changed. -/
theorem rtMutexRelease_queues {mutex : Nat} (ready : CurrentReady kernel)
    (step : rtMutexRelease kernel mutex = some (next, outcome)) :
    QueueEffect kernel next outcome := by
  unfold rtMutexRelease at step
  split at step
  · rename_i thread current
    dsimp only at step
    split at step
    · obtain ⟨rfl, rfl⟩ := Prod.mk.inj (Option.some_inj.mp step)
      exact .thins (.setError kernel thread .error)
    have lowered : Thins kernel (kernel.setMutex mutex
        { kernel.mutexes mutex with hold := (kernel.mutexes mutex).hold - 1#8 }) :=
      .setMutex kernel mutex rfl
    split at step
    · refine .thins (lowered.trans (Thins.trans ?_ (passMutex_queues step)))
      unfold restorePriority
      split
      · exact .changePriority _ (ready thread current)
      · exact .refl _
    · obtain ⟨rfl, rfl⟩ := Prod.mk.inj (Option.some_inj.mp step)
      exact .thins lowered
  · cases step

theorem rtEventSend_queues {event : Nat} {set : BitVec 32}
    (step : rtEventSend kernel event set = some (next, outcome)) :
    QueueEffect kernel next outcome := by
  unfold rtEventSend at step
  split at step
  · obtain ⟨rfl, rfl⟩ := Prod.mk.inj (Option.some_inj.mp step)
    exact .thins (.refl kernel)
  · obtain ⟨⟨walked, need⟩, walk, done⟩ := Option.bind_eq_some_iff.mp step
    obtain ⟨rfl, rfl⟩ := Prod.mk.inj (Option.some_inj.mp done)
    refine .thins (Thins.trans ?_ (.eventSendLoop walk))
    exact .setEvent kernel event rfl

theorem rtEventRecv_queues {event : Nat} {set : BitVec 32} {option : BitVec 8}
    {timeout : BitVec 32}
    (step : rtEventRecv kernel event set option timeout = some (next, outcome)) :
    QueueEffect kernel next outcome := by
  unfold rtEventRecv at step
  split at step
  · obtain ⟨rfl, rfl⟩ := Prod.mk.inj (Option.some_inj.mp step)
    exact .thins (.refl kernel)
  split at step
  · rename_i thread current
    have reset : Thins kernel (kernel.setError thread .eok) := .setError kernel thread .eok
    dsimp only at step
    split at step
    · obtain ⟨rfl, rfl⟩ := Prod.mk.inj (Option.some_inj.mp step)
      exact .thins (reset.trans (.clearEvent ..))
    split at step
    · obtain ⟨rfl, rfl⟩ := Prod.mk.inj (Option.some_inj.mp step)
      exact .thins (reset.trans (.setError _ thread .etimeout))
    · refine .suspends (fun _ => by simp) ?_ current step
      exact (Alike.setError kernel thread .eok).trans (.setThread rfl rfl)
  · cases step

theorem rtEventControl_queues {event : Nat} {cmd : BitVec 8}
    (step : rtEventControl kernel event cmd = some (next, outcome)) :
    QueueEffect kernel next outcome := by
  unfold rtEventControl at step
  split at step
  · obtain ⟨resumed, resume, done⟩ := Option.bind_eq_some_iff.mp step
    obtain ⟨rfl, rfl⟩ := Prod.mk.inj (Option.some_inj.mp done)
    exact .thins ((Thins.listResumeAll resume).trans (.setEvent resumed event rfl))
  · obtain ⟨rfl, rfl⟩ := Prod.mk.inj (Option.some_inj.mp step)
    exact .thins (.refl kernel)

theorem rtMbSendRound_queues {mailbox : Nat} {value timeout : BitVec 32}
    (step : rtMbSendRound kernel mailbox value timeout = some (next, outcome)) :
    QueueEffect kernel next outcome := by
  unfold rtMbSendRound at step
  dsimp only at step
  split at step
  · split at step
    · rename_i thread current
      split at step
      · obtain ⟨rfl, rfl⟩ := Prod.mk.inj (Option.some_inj.mp step)
        exact .thins (.setError kernel thread .eok)
      · exact .suspends (by simp) (.setError kernel thread .eok) current step
    · cases step
  · refine .thins (Thins.trans ?_ (.resumeFirst step))
    exact .setMailbox kernel mailbox rfl

theorem rtMbRecvRound_queues {mailbox : Nat} {timeout : BitVec 32}
    (step : rtMbRecvRound kernel mailbox timeout = some (next, outcome)) :
    QueueEffect kernel next outcome := by
  unfold rtMbRecvRound at step
  dsimp only at step
  split at step
  · split at step
    · rename_i thread current
      have reset : Thins kernel (kernel.setError thread .eok) := .setError kernel thread .eok
      split at step
      · obtain ⟨rfl, rfl⟩ := Prod.mk.inj (Option.some_inj.mp step)
        exact .thins (reset.trans (.setError _ thread .etimeout))
      · exact .suspends (by simp) (.setError kernel thread .eok) current step
    · cases step
  · refine .thins (Thins.trans ?_ (.resumeFirst step))
    exact .setMailbox kernel mailbox rfl

theorem rtMbControl_queues {mailbox : Nat} {cmd : BitVec 8}
    (step : rtMbControl kernel mailbox cmd = some (next, outcome)) :
    QueueEffect kernel next outcome := by
  unfold rtMbControl at step
  split at step
  · obtain ⟨resumed, resume, step⟩ := Option.bind_eq_some_iff.mp step
    obtain ⟨cleared, clear, done⟩ := Option.bind_eq_some_iff.mp step
    obtain ⟨rfl, rfl⟩ := Prod.mk.inj (Option.some_inj.mp done)
    exact .thins ((Thins.listResumeAll resume).trans
      ((Thins.listResumeAll clear).trans (.setMailbox cleared mailbox rfl)))
  · obtain ⟨rfl, rfl⟩ := Prod.mk.inj (Option.some_inj.mp step)
    exact .thins (.refl kernel)

theorem threadSleepEnter_queues {tick : BitVec 32}
    (step : threadSleepEnter kernel tick = some (next, outcome)) :
    QueueEffect kernel next outcome := by
  unfold threadSleepEnter at step
  split at step
  · rename_i thread current
    obtain ⟨⟨result, asleep⟩, start, done⟩ := Option.bind_eq_some_iff.mp step
    obtain ⟨rfl, rfl⟩ := Prod.mk.inj (Option.some_inj.mp done)
    exact .thins ((Thins.suspendThread kernel thread).trans (.threadTimer start))
  · cases step

/-- The first section of every call but `rt_mutex_take`. -/
theorem Call.enter_queues {call : Call} (others : ∀ mutex time, call ≠ .mutexTake mutex time)
    (ready : ∀ mutex, call = .mutexRelease mutex → CurrentReady kernel)
    (step : call.enter kernel = some (next, outcome)) : QueueEffect kernel next outcome := by
  cases call with
  | semTake sem time => exact rtSemTake_queues step
  | semRelease sem => exact rtSemRelease_queues step
  | mutexTake mutex time => exact absurd rfl (others mutex time)
  | mutexRelease mutex => exact rtMutexRelease_queues (ready mutex rfl) step
  | eventSend event set => exact rtEventSend_queues step
  | eventRecv event set option timeout => exact rtEventRecv_queues step
  | mbSendWait mailbox value timeout =>
      simp only [Call.enter, rtMbSendWait] at step
      split at step
      · obtain ⟨rfl, rfl⟩ := Prod.mk.inj (Option.some_inj.mp step)
        exact .thins (.refl kernel)
      · exact rtMbSendRound_queues step
  | mbRecv mailbox timeout =>
      simp only [Call.enter, rtMbRecv] at step
      split at step
      · obtain ⟨rfl, rfl⟩ := Prod.mk.inj (Option.some_inj.mp step)
        exact .thins (.refl kernel)
      · exact rtMbRecvRound_queues step
  | semControl sem cmd arg => exact rtSemControl_queues step
  | eventControl event cmd => exact rtEventControl_queues step
  | mbControl mailbox cmd => exact rtMbControl_queues step
  | threadSleep tick => exact threadSleepEnter_queues step
  | threadResume thread => cases step

theorem Call.again_queues {call : Call} {thread : ThreadId} {tickDelta : BitVec 32}
    (step : call.again kernel thread tickDelta = some (next, outcome)) :
    QueueEffect kernel next outcome := by
  cases call <;> simp only [Call.again, reduceCtorEq] at step
  case eventRecv =>
    obtain ⟨rfl, rfl⟩ := Prod.mk.inj (Option.some_inj.mp step)
    exact .thins (.refl kernel)
  case mbSendWait => exact rtMbSendRound_queues step
  case mbRecv => exact rtMbRecvRound_queues step

end

end RtThread
