import RtThread.Kernel.WaitSteps

/-!
# The order of a suspend list

`Queued` reads a suspend list as the list of the threads on it, first to last.
The two loops that walk along a suspend list, that of `rt_ipc_list_resume_all`
and that of `rt_event_send`, are folds over that list, so they end.
-/

namespace RtThread

open RtThread.Std

/-- The thread is on the suspend list. -/
def Kernel.Waits (kernel : Kernel) (list : WaitList) (thread : ThreadId) : Prop :=
  kernel.threadLinks.Linked (.wait list) (.tlist thread)

/-- The threads on the suspend list, in order. -/
def Queued (kernel : Kernel) (list : WaitList) (queue : List ThreadId) : Prop :=
  ∃ lists, Rings ThreadNode.IsHead kernel.threadLinks lists ∧
    lists (.wait list) = queue.map ThreadNode.tlist

theorem tlist_injective : Function.Injective ThreadNode.tlist :=
  fun _ _ same => ThreadNode.tlist.inj same

namespace Queued

variable {kernel next : Kernel} {list : WaitList} {queue left right : List ThreadId}
  {thread : ThreadId}

theorem congr (queued : Queued kernel list queue)
    (links : next.threadLinks = kernel.threadLinks) : Queued next list queue := by
  unfold Queued
  rw [links]
  exact queued

theorem waits_iff (queued : Queued kernel list queue) (thread : ThreadId) :
    kernel.Waits list thread ↔ thread ∈ queue := by
  obtain ⟨lists, rings, shape⟩ := queued
  rw [Kernel.Waits, rings.linked_iff (ThreadNode.isHead_wait list), shape,
    List.mem_map_of_injective tlist_injective]

theorem nodup (queued : Queued kernel list queue) : queue.Nodup := by
  obtain ⟨lists, rings, shape⟩ := queued
  have distinct := rings.distinct _ (ThreadNode.isHead_wait list)
  rw [shape] at distinct
  exact distinct.of_map _

/-- The node behind the head of the list. -/
theorem front (queued : Queued kernel list queue) :
    kernel.threadLinks.next (.wait list) = (queue.map ThreadNode.tlist).headD (.wait list) := by
  obtain ⟨lists, rings, shape⟩ := queued
  rw [rings.next_head (ThreadNode.isHead_wait list), shape]

theorem isEmpty_iff (queued : Queued kernel list queue) :
    kernel.threadLinks.isEmpty (.wait list) = true ↔ queue = [] := by
  obtain ⟨lists, rings, shape⟩ := queued
  rw [rings.isEmpty_iff (ThreadNode.isHead_wait list), shape, List.map_eq_nil_iff]

/-- The node behind a thread on the list. -/
theorem following (queued : Queued kernel list (left ++ thread :: right)) :
    kernel.threadLinks.next (.tlist thread) =
      (right.map ThreadNode.tlist).headD (.wait list) := by
  obtain ⟨lists, rings, shape⟩ := queued
  rw [List.map_append, List.map_cons] at shape
  have behind := (rings.split (ThreadNode.isHead_wait list) shape).2.1
  cases right with
  | nil => exact behind.1
  | cons other rest => exact behind.1

/-- Resuming a suspended thread takes it out of the list. -/
theorem resume (queued : Queued kernel list (left ++ thread :: right))
    (suspended : (kernel.threads thread).stat = .suspend) :
    Queued (rtThreadResume kernel thread).2 list (left ++ right) := by
  have distinct := queued.nodup
  obtain ⟨lists, rings, shape⟩ := queued
  have plain := ThreadNode.not_isHead_tlist thread
  have unlinked := rings.unlink plain
  have free : ∀ head, ThreadNode.IsHead head →
      ThreadNode.tlist thread ∉ (lists head).erase (.tlist thread) :=
    fun head isHead => (rings.distinct head isHead).not_mem_erase
  have inserted := unlinked.insertBefore_head
    (ThreadNode.isHead_ready (kernel.threads thread).currentPriority) plain free
  have links : (rtThreadResume kernel thread).2.threadLinks =
      (kernel.threadLinks.unlink (.tlist thread)).insertBefore
        (.ready (kernel.threads thread).currentPriority) (.tlist thread) := by
    simp [rtThreadResume, suspended, rtScheduleInsertThread, rtThreadResumeUnlink, Kernel.setStat,
      Kernel.setThread, Kernel.linkThreadBefore, Kernel.unlinkThread, Kernel.unlinkTimer,
      Kernel.deactivate, Kernel.setTimer]
  rw [← links] at inserted
  refine ⟨_, inserted, ?_⟩
  · rw [Function.update_of_ne (by simp), shape, ← List.map_erase tlist_injective]
    have absent : thread ∉ left := by
      intro member
      exact (List.nodup_append.mp distinct).2.2 thread member thread (by simp) rfl
    rw [List.erase_append_right _ absent, List.erase_cons_head]

end Queued

/-- Nodes that are no heads belong to threads. -/
theorem exists_threads {nodes : List ThreadNode} (plain : ∀ node ∈ nodes, ¬ node.IsHead) :
    ∃ queue : List ThreadId, nodes = queue.map ThreadNode.tlist := by
  induction nodes with
  | nil => exact ⟨[], rfl⟩
  | cons node nodes ih =>
      obtain ⟨queue, shape⟩ := ih fun other member => plain other (by simp [member])
      have first := plain node (by simp)
      cases node with
      | tlist thread => exact ⟨thread :: queue, by rw [shape, List.map_cons]⟩
      | ready priority => exact absurd trivial first
      | defunct => exact absurd trivial first
      | wait list => exact absurd trivial first

theorem WaitInv.queued {kernel : Kernel} {home : ThreadId → Option ThreadNode}
    (inv : WaitInv kernel home) (list : WaitList) : ∃ queue, Queued kernel list queue := by
  obtain ⟨lists, rings, homes⟩ := inv.placed
  obtain ⟨queue, shape⟩ := exists_threads fun node member =>
    rings.plain _ node (ThreadNode.isHead_wait list) member
  exact ⟨queue, lists, rings, shape⟩

/-- A thread on a suspend list is suspended. -/
theorem WaitInv.suspended_of_queued {kernel : Kernel} {home : ThreadId → Option ThreadNode}
    {list : WaitList} {queue : List ThreadId} (inv : WaitInv kernel home)
    (queued : Queued kernel list queue) (thread : ThreadId) (member : thread ∈ queue) :
    (kernel.threads thread).stat = .suspend := by
  have linked := (queued.waits_iff thread).mpr member
  exact inv.waiting thread list ((inv.linked_iff (ThreadNode.isHead_wait list) thread).mp linked)

/-! ## Resuming every thread -/

/-- Resume a thread with `-RT_ERROR`. -/
def failWaiter (kernel : Kernel) (thread : ThreadId) : Kernel :=
  (rtThreadResume (kernel.setError thread .error) thread).2

theorem Queued.failWaiter {kernel : Kernel} {list : WaitList} {queue : List ThreadId}
    {thread : ThreadId} (queued : Queued kernel list (thread :: queue))
    (suspended : (kernel.threads thread).stat = .suspend) :
    Queued (failWaiter kernel thread) list queue := by
  have marked : Queued (kernel.setError thread .error) list ([] ++ thread :: queue) :=
    queued.congr rfl
  exact marked.resume (by simpa [Kernel.setError, Kernel.setThread] using suspended)

theorem rtIpcListResumeAll_eq {kernel : Kernel} {list : WaitList} {queue : List ThreadId}
    (inv : ∃ home, WaitInv kernel home) (queued : Queued kernel list queue) :
    rtIpcListResumeAll list kernel = some (queue.foldl failWaiter kernel) := by
  induction queue generalizing kernel with
  | nil => rw [rtIpcListResumeAll, if_pos (queued.isEmpty_iff.mpr rfl), List.foldl_nil]
  | cons thread queue ih =>
      obtain ⟨home, waits⟩ := inv
      have occupied : ¬ kernel.threadLinks.isEmpty (.wait list) = true := by
        rw [queued.isEmpty_iff]
        simp
      have first : threadEntry (kernel.threadLinks.next (.wait list)) = .thread thread := by
        rw [queued.front]
        rfl
      rw [rtIpcListResumeAll, if_neg occupied, first, List.foldl_cons]
      exact ih ((waits.setError thread .error).rtThreadResume thread)
        (queued.failWaiter (waits.suspended_of_queued queued thread (by simp)))

/-! ## Sending an event -/

/-- What a thread that waits has received when the event satisfies it. -/
def receivedEvents (record : Thread) (set : BitVec 32) : BitVec 32 :=
  if record.eventInfo &&& eventFlagAnd ≠ 0#8 then record.eventSet else record.eventSet &&& set

theorem saveReceived_threads (kernel : Kernel) (event : Nat) (thread : ThreadId) :
    (saveReceived kernel event thread).threads = Function.update kernel.threads thread
      { kernel.threads thread with
        eventSet := receivedEvents (kernel.threads thread) (kernel.events event).set } := by
  unfold saveReceived receivedEvents
  dsimp only
  split
  · simp
  · rfl

theorem saveReceived_links (kernel : Kernel) (event : Nat) (thread : ThreadId) :
    (saveReceived kernel event thread).threadLinks = kernel.threadLinks := by
  unfold saveReceived
  dsimp only
  split <;> rfl

theorem saveReceived_objects (kernel : Kernel) (event : Nat) (thread : ThreadId) :
    (saveReceived kernel event thread).objects = kernel.objects := by
  unfold saveReceived
  dsimp only
  split <;> rfl

@[simp] theorem clearEvent_threads (kernel : Kernel) (event : Nat) (option : BitVec 8)
    (set : BitVec 32) : (clearEvent kernel event option set).threads = kernel.threads := by
  unfold clearEvent
  dsimp only
  split <;> rfl

@[simp] theorem clearEvent_links (kernel : Kernel) (event : Nat) (option : BitVec 8)
    (set : BitVec 32) :
    (clearEvent kernel event option set).threadLinks = kernel.threadLinks := by
  unfold clearEvent
  dsimp only
  split <;> rfl

theorem resumeSatisfied_suspended {kernel : Kernel} {event : Nat} {thread : ThreadId}
    (suspended : (kernel.threads thread).stat = .suspend) (option : BitVec 8) (set : BitVec 32) :
    ((clearEvent (saveReceived kernel event thread) event option set).threads thread).stat =
      .suspend := by
  rw [clearEvent_threads, saveReceived_threads, Function.update_self]
  exact suspended

theorem Queued.resumeSatisfied {kernel : Kernel} {list : WaitList} {event : Nat}
    {left right : List ThreadId} {thread : ThreadId}
    (queued : Queued kernel list (left ++ thread :: right))
    (suspended : (kernel.threads thread).stat = .suspend) :
    Queued (resumeSatisfied kernel event thread) list (left ++ right) := by
  apply Queued.resume
  · exact queued.congr (by rw [clearEvent_links, saveReceived_links])
  · exact resumeSatisfied_suspended suspended _ _

/-- One waiter in the loop of `rt_event_send`. -/
def deliverTo (event : Nat) (state : Kernel × Bool) (thread : ThreadId) : Kernel × Bool :=
  let record := state.1.threads thread
  if eventSatisfies record.eventInfo record.eventSet (state.1.events event).set then
    (resumeSatisfied state.1 event thread, true)
  else state

theorem eventSendLoop_eq {kernel : Kernel} {event : Nat} (left : List ThreadId)
    {queue : List ThreadId} (inv : ∃ home, WaitInv kernel home)
    (queued : Queued kernel (.event event) (left ++ queue)) (needSchedule : Bool) :
    eventSendLoop event kernel ((queue.map ThreadNode.tlist).headD (.wait (.event event)))
      needSchedule = some (queue.foldl (deliverTo event) (kernel, needSchedule)) := by
  induction queue generalizing kernel left needSchedule with
  | nil => rw [eventSendLoop, List.map_nil, List.headD_nil, if_pos rfl, List.foldl_nil]
  | cons thread queue ih =>
      obtain ⟨home, waits⟩ := inv
      have suspended := waits.suspended_of_queued queued thread (by simp)
      have entry : threadEntry (.tlist thread) = .thread thread := rfl
      rw [eventSendLoop, List.map_cons, List.headD_cons, if_neg (by simp), entry, List.foldl_cons]
      dsimp only
      rw [queued.following]
      unfold deliverTo
      dsimp only
      split
      · exact ih left (resumeSatisfied_keeps waits event thread).1
          (queued.resumeSatisfied suspended) true
      · exact ih (left ++ [thread]) ⟨home, waits⟩ (by simpa using queued) needSchedule

/-- `event->set |= set`, the first thing `rt_event_send` does. -/
def postEvent (kernel : Kernel) (event : Nat) (set : BitVec 32) : Kernel :=
  kernel.setEvent event { kernel.events event with set := (kernel.events event).set ||| set }

/-- `rt_event_send` returns. -/
theorem rtEventSend_eq {kernel : Kernel} {event : Nat} {queue : List ThreadId} {set : BitVec 32}
    (inv : ∃ home, WaitInv kernel home) (queued : Queued kernel (.event event) queue)
    (nonzero : set ≠ 0#32) {next : Kernel} {needSchedule : Bool}
    (delivered : queue.foldl (deliverTo event) (postEvent kernel event set, false) =
      (next, needSchedule)) :
    rtEventSend kernel event set =
      some (next, if needSchedule then .reschedules none else .returns .eok none) := by
  obtain ⟨home, waits⟩ := inv
  have queued' : Queued (postEvent kernel event set) (.event event) queue := queued.congr rfl
  have waits' : WaitInv (postEvent kernel event set) home := waits.setEvent _ _
  have walk := eventSendLoop_eq [] ⟨home, waits'⟩ queued' false
  rw [delivered, ← queued'.front] at walk
  rw [rtEventSend, if_neg nonzero]
  dsimp only
  rw [show kernel.setEvent event
    { kernel.events event with set := (kernel.events event).set ||| set } =
      postEvent kernel event set from rfl, walk]
  rfl

end RtThread
