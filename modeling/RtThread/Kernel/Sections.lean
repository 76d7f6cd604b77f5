import RtThread.Kernel.WaitOrder
import RtThread.Kernel.WaitRuns

/-!
# What a section does to the other threads

A section may suspend the thread that executes it and may resume threads that
wait on the lists of its object. Every other thread keeps its state, its error
and its place, and every other object its record.
-/

namespace RtThread

open RtThread.Std

/-- The thread waits as before, or does not. -/
structure Rests (kernel next : Kernel) (thread : ThreadId) : Prop where
  stat : (next.threads thread).stat = (kernel.threads thread).stat
  error : (next.threads thread).error = (kernel.threads thread).error
  eventSet : (next.threads thread).eventSet = (kernel.threads thread).eventSet
  eventInfo : (next.threads thread).eventInfo = (kernel.threads thread).eventInfo
  waits : ∀ list, next.Waits list thread ↔ kernel.Waits list thread

/-- The thread was suspended and has become ready. -/
structure Resumes (kernel next : Kernel) (thread : ThreadId) (result : Err) : Prop where
  suspended : (kernel.threads thread).stat = .suspend
  ready : (next.threads thread).stat = .ready
  error : (next.threads thread).error = result
  loose : ∀ list, ¬ next.Waits list thread

namespace Rests

variable {kernel middle next : Kernel} {thread : ThreadId} {result : Err}

theorem refl (kernel : Kernel) (thread : ThreadId) : Rests kernel kernel thread :=
  ⟨rfl, rfl, rfl, rfl, fun _ => Iff.rfl⟩

theorem trans (first : Rests kernel middle thread) (second : Rests middle next thread) :
    Rests kernel next thread :=
  ⟨second.stat.trans first.stat, second.error.trans first.error,
    second.eventSet.trans first.eventSet, second.eventInfo.trans first.eventInfo,
    fun list => (second.waits list).trans (first.waits list)⟩

/-- A step that changes neither the record nor the links. -/
theorem of_same (record : next.threads thread = kernel.threads thread)
    (links : next.threadLinks = kernel.threadLinks) : Rests kernel next thread := by
  refine ⟨by rw [record], by rw [record], by rw [record], by rw [record], ?_⟩
  intro list
  rw [Kernel.Waits, links, Kernel.Waits]

theorem setError {self : ThreadId} (kernel : Kernel) (result : Err) (apart : thread ≠ self) :
    Rests kernel (kernel.setError self result) thread :=
  .of_same (by simp [Kernel.setError, Kernel.setThread, apart]) rfl

theorem then_resumes (first : Rests kernel middle thread)
    (second : Resumes middle next thread result) : Resumes kernel next thread result :=
  ⟨first.stat.symm.trans second.suspended, second.ready, second.error, second.loose⟩

/-- The homes before and after show where the thread is. -/
theorem of_homes {home home' : ThreadId → Option ThreadNode} (inv : WaitInv kernel home)
    (inv' : WaitInv next home') (record : next.threads thread = kernel.threads thread)
    (same : home' thread = home thread) : Rests kernel next thread := by
  refine ⟨by rw [record], by rw [record], by rw [record], by rw [record], ?_⟩
  intro list
  rw [Kernel.Waits, inv'.linked_iff (ThreadNode.isHead_wait list), same,
    ← inv.linked_iff (ThreadNode.isHead_wait list), Kernel.Waits]

end Rests

theorem Resumes.then_rests {kernel middle next : Kernel} {thread : ThreadId} {result : Err}
    (first : Resumes kernel middle thread result) (second : Rests middle next thread) :
    Resumes kernel next thread result :=
  ⟨first.suspended, second.stat.trans first.ready, second.error.trans first.error,
    fun list waits => first.loose list ((second.waits list).mp waits)⟩

theorem WaitInv.suspended_of_waits {kernel : Kernel} {home : ThreadId → Option ThreadNode}
    {list : WaitList} {thread : ThreadId} (inv : WaitInv kernel home)
    (waits : kernel.Waits list thread) : (kernel.threads thread).stat = .suspend :=
  inv.waiting thread list ((inv.linked_iff (ThreadNode.isHead_wait list) thread).mp waits)

/-- A thread waits on one list only. -/
theorem WaitInv.waits_unique {kernel : Kernel} {home : ThreadId → Option ThreadNode}
    {list list' : WaitList} {thread : ThreadId} (inv : WaitInv kernel home)
    (waits : kernel.Waits list thread) (waits' : kernel.Waits list' thread) : list = list' :=
  (inv.consistent.suspended thread (inv.suspended_of_waits waits)).2.1 list list' waits waits'

/-- Threads that wait on a list that `wakes` holds of may be resumed; `verdict`
is the error they are given, if they are given one. -/
def Affects (self : Option ThreadId) (wakes : WaitList → Prop) (verdict : Option Err)
    (kernel next : Kernel) : Prop :=
  ∀ thread, self ≠ some thread → Rests kernel next thread ∨
    ∃ list, wakes list ∧ kernel.Waits list thread ∧
      Resumes kernel next thread (verdict.getD (kernel.threads thread).error)

namespace Affects

variable {self : Option ThreadId} {wakes : WaitList → Prop} {verdict : Option Err}
  {kernel middle next : Kernel} {home : ThreadId → Option ThreadNode} {thread : ThreadId}
  {list : WaitList}

/-- Only the record of the thread itself has changed. -/
theorem of_same (threads : ∀ thread, self ≠ some thread →
      next.threads thread = kernel.threads thread)
    (links : next.threadLinks = kernel.threadLinks) :
    Affects self wakes verdict kernel next :=
  fun thread apart => Or.inl (.of_same (threads thread apart) links)

theorem refl (self : Option ThreadId) (wakes : WaitList → Prop) (verdict : Option Err)
    (kernel : Kernel) : Affects self wakes verdict kernel kernel :=
  .of_same (fun _ _ => rfl) rfl

theorem trans (first : Affects self wakes verdict kernel middle)
    (second : Affects self wakes verdict middle next) :
    Affects self wakes verdict kernel next := by
  intro thread apart
  rcases first thread apart with rests | ⟨list, woken, waits, resumes⟩
  · rcases second thread apart with rests' | ⟨list, woken, waits, resumes⟩
    · exact Or.inl (rests.trans rests')
    · rw [rests.error] at resumes
      exact Or.inr ⟨list, woken, (rests.waits list).mp waits, rests.then_resumes resumes⟩
  · rcases second thread apart with rests' | ⟨list', -, waits', -⟩
    · exact Or.inr ⟨list, woken, waits, resumes.then_rests rests'⟩
    · exact absurd waits' (resumes.loose list')

theorem setError (kernel : Kernel) (thread : ThreadId) (result : Err) :
    Affects (some thread) wakes verdict kernel (kernel.setError thread result) := by
  refine .of_same ?_ rfl
  intro other apart
  have apart' : other ≠ thread := fun same => apart (same ▸ rfl)
  simp [Kernel.setError, Kernel.setThread, apart']

theorem setSem (kernel : Kernel) (index : Nat) (record : Semaphore) :
    Affects self wakes verdict kernel (kernel.setSem index record) := .of_same (fun _ _ => rfl) rfl

theorem setMutex (kernel : Kernel) (index : Nat) (record : Mutex) :
    Affects self wakes verdict kernel (kernel.setMutex index record) :=
  .of_same (fun _ _ => rfl) rfl

theorem setEvent (kernel : Kernel) (index : Nat) (record : Event) :
    Affects self wakes verdict kernel (kernel.setEvent index record) :=
  .of_same (fun _ _ => rfl) rfl

theorem setMailbox (kernel : Kernel) (index : Nat) (record : Mailbox) :
    Affects self wakes verdict kernel (kernel.setMailbox index record) :=
  .of_same (fun _ _ => rfl) rfl

/-- Change the record of a waiter and resume it. -/
theorem resume {record : Thread} (inv : WaitInv middle home) (waits : kernel.Waits list thread)
    (threads : middle.threads = Function.update kernel.threads thread record)
    (links : middle.threadLinks = kernel.threadLinks) (suspended : record.stat = .suspend)
    (error : record.error = verdict.getD (kernel.threads thread).error)
    (isSuspended : (kernel.threads thread).stat = .suspend) (woken : wakes list) :
    Affects self wakes verdict kernel (rtThreadResume middle thread).2 := by
  have stat : (middle.threads thread).stat = .suspend := by
    rw [threads, Function.update_self]
    exact suspended
  have resumed := inv.resumeThread stat
  have records := rtThreadResume_threads stat
  intro other apart
  by_cases same : other = thread
  · subst same
    refine Or.inr ⟨list, woken, waits, isSuspended, ?_, ?_, ?_⟩
    · rw [records, Function.update_self]
    · rw [records, Function.update_self, threads, Function.update_self]
      exact error
    · intro list' there
      have home := (resumed.linked_iff (ThreadNode.isHead_wait list') other).mp there
      simp at home
  · left
    have staged : Rests kernel middle other :=
      .of_same (by rw [threads, Function.update_of_ne same]) links
    exact staged.trans (.of_homes inv resumed (by rw [records, Function.update_of_ne same])
      (Function.update_of_ne same ..))

/-- Nobody but the thread itself notices a change of priority. -/
theorem changePriority (inv : WaitInv kernel home) (thread : ThreadId) (priority : Nat) :
    Affects self wakes verdict kernel (rtThreadChangePriority kernel thread priority) := by
  have changed := inv.changePriority thread priority
  have records := rtThreadChangePriority_threads kernel thread priority
  intro other apart
  left
  by_cases same : other = thread
  · subst same
    refine ⟨?_, ?_, ?_, ?_, ?_⟩
    · rw [records, Function.update_self]
    · rw [records, Function.update_self]
    · rw [records, Function.update_self]
    · rw [records, Function.update_self]
    · intro list
      rw [Kernel.Waits, changed.linked_iff (ThreadNode.isHead_wait list), Kernel.Waits,
        inv.linked_iff (ThreadNode.isHead_wait list)]
      split
      · rename_i isReady
        simpa using inv.not_waiting_of_ready isReady list
      · rfl
  · refine .of_homes inv changed (by rw [records, Function.update_of_ne same]) ?_
    split
    · rw [Function.update_of_ne same]
    · rfl

theorem listResume (inv : WaitInv kernel home) (woken : wakes list)
    (occupied : kernel.threadLinks.isEmpty (.wait list) = false)
    (step : rtIpcListResume kernel list = some next) :
    Affects self wakes none kernel next := by
  obtain ⟨waiter, entry, there⟩ := inv.first_waiting occupied
  have waits := (inv.linked_iff (ThreadNode.isHead_wait list) waiter).mpr there
  have suspended := inv.waiting waiter list there
  rw [rtIpcListResume, entry] at step
  obtain rfl := Option.some_inj.mp step
  exact .resume inv waits (Function.update_eq_self ..).symm rfl suspended rfl suspended woken

theorem resumeFirst {output : Option (BitVec 32)} {outcome : Outcome} (inv : WaitInv kernel home)
    (woken : wakes list) (step : resumeFirst kernel list output = some (next, outcome)) :
    Affects self wakes none kernel next := by
  unfold RtThread.resumeFirst at step
  split at step
  · obtain ⟨rfl, rfl⟩ := Prod.mk.inj (Option.some_inj.mp step)
    exact .refl self wakes none kernel
  · rename_i occupied
    obtain ⟨resumed, resume, done⟩ := Option.bind_eq_some_iff.mp step
    obtain ⟨rfl, rfl⟩ := Prod.mk.inj (Option.some_inj.mp done)
    exact .listResume inv woken (by simpa using occupied) resume

theorem listResumeAll (inv : ∃ home, WaitInv kernel home) (woken : wakes list)
    (step : rtIpcListResumeAll list kernel = some next) :
    Affects self wakes (some .error) kernel next := by
  obtain ⟨home, waits⟩ := inv
  obtain ⟨queue, queued⟩ := waits.queued list
  rw [rtIpcListResumeAll_eq ⟨home, waits⟩ queued, Option.some_inj] at step
  induction queue generalizing kernel home with
  | nil =>
      obtain rfl := step
      exact .refl self wakes (some .error) kernel
  | cons thread queue ih =>
      have suspended := waits.suspended_of_queued queued thread (by simp)
      have marked := waits.setError thread .error
      have failed : Affects self wakes (some .error) kernel (failWaiter kernel thread) :=
        .resume marked ((queued.waits_iff thread).mpr (by simp)) rfl rfl suspended rfl suspended
          woken
      have stat : ((kernel.setError thread .error).threads thread).stat = .suspend := by
        simpa [Kernel.setError, Kernel.setThread] using suspended
      exact failed.trans
        (ih _ (marked.resumeThread stat) step (queued.failWaiter suspended))

/-- The walk of `rt_event_send`. -/
theorem deliver {event : Nat} (left : List ThreadId) {queue : List ThreadId} {need : Bool}
    (inv : WaitInv kernel home) (queued : Queued kernel (.event event) (left ++ queue))
    (woken : wakes (.event event)) :
    Affects self wakes none kernel (queue.foldl (deliverTo event) (kernel, need)).1 := by
  induction queue generalizing kernel home left need with
  | nil => exact .refl self wakes none kernel
  | cons thread queue ih =>
      have suspended := inv.suspended_of_queued queued thread (by simp)
      rw [List.foldl_cons, deliverTo]
      dsimp only
      split
      · obtain ⟨⟨home', kept⟩, -⟩ := resumeSatisfied_keeps inv event thread
        have saved := (saveReceived_keeps inv event thread).1
        have resumed : Affects self wakes none kernel (resumeSatisfied kernel event thread) := by
          have records := saveReceived_threads kernel event thread
          have links := saveReceived_links kernel event thread
          rw [← clearEvent_threads _ event] at records
          rw [← clearEvent_links _ event] at links
          exact .resume (clearEvent_keeps saved event _ _).1
            ((queued.waits_iff thread).mpr (by simp)) records links suspended rfl suspended woken
        exact resumed.trans (ih left kept (queued.resumeSatisfied suspended))
      · exact ih (left ++ [thread]) inv (by simpa using queued)

end Affects

/-! ## Calls and their objects -/

inductive IpcObject where
  | sem (index : Nat)
  | mutex (index : Nat)
  | event (index : Nat)
  | mailbox (index : Nat)
  | messageQueue (index : Nat)
  | mempool (index : Nat)
deriving DecidableEq, Repr

/-- The only object whose record the call may change. -/
def Call.object : Call → Option IpcObject
  | .semTake sem _ | .semRelease sem | .semControl sem _ _ => some (.sem sem)
  | .mutexTake mutex _ | .mutexRelease mutex => some (.mutex mutex)
  | .eventSend event _ | .eventRecv event _ _ _ | .eventControl event _ => some (.event event)
  | .mbSendWait mailbox _ _ | .mbRecv mailbox _ | .mbControl mailbox _ =>
    some (.mailbox mailbox)
  | .threadSleep _ | .threadResume _ => none

/-- The suspend list on which the call may wait. -/
def Call.waitsOn : Call → Option WaitList
  | .semTake sem _ => some (.sem sem)
  | .mutexTake mutex _ => some (.mutex mutex)
  | .eventRecv event _ _ _ => some (.event event)
  | .mbSendWait mailbox _ _ => some (.mailboxSender mailbox)
  | .mbRecv mailbox _ => some (.mailbox mailbox)
  | _ => none

/-- The suspend lists from which the call may resume threads. -/
def Call.wakes : Call → WaitList → Prop
  | .semRelease sem, list | .semControl sem _ _, list => list = .sem sem
  | .mutexRelease mutex, list => list = .mutex mutex
  | .eventSend event _, list | .eventControl event _, list => list = .event event
  | .mbSendWait mailbox _ _, list => list = .mailbox mailbox
  | .mbRecv mailbox _, list => list = .mailboxSender mailbox
  | .mbControl mailbox _, list => list = .mailbox mailbox ∨ list = .mailboxSender mailbox
  | _, _ => False

/-- The error that the call gives to the threads it resumes. -/
def Call.verdict : Call → Option Err
  | .semControl _ _ _ | .eventControl _ _ | .mbControl _ _ => some .error
  | _ => none

/-- Whether the call can suspend its thread. -/
def Call.Blocks : Call → Prop
  | .threadSleep _ => True
  | call => call.waitsOn ≠ none

/-- Only the record of `object` may have changed. -/
structure SameBut (object : Option IpcObject) (kernel next : Kernel) : Prop where
  sems : ∀ index, object ≠ some (.sem index) → next.sems index = kernel.sems index
  mutexes : ∀ index, object ≠ some (.mutex index) → next.mutexes index = kernel.mutexes index
  events : ∀ index, object ≠ some (.event index) → next.events index = kernel.events index
  mailboxes : ∀ index, object ≠ some (.mailbox index) →
    next.mailboxes index = kernel.mailboxes index

namespace SameBut

variable {object : Option IpcObject} {kernel middle next : Kernel}

theorem of_same (objects : next.objects = kernel.objects) : SameBut object kernel next := by
  simp only [Kernel.objects, Objects.mk.injEq] at objects
  obtain ⟨sems, mutexes, events, mailboxes⟩ := objects
  exact ⟨fun index _ => congrFun sems index, fun index _ => congrFun mutexes index,
    fun index _ => congrFun events index, fun index _ => congrFun mailboxes index⟩

theorem trans (first : SameBut object kernel middle) (second : SameBut object middle next) :
    SameBut object kernel next :=
  ⟨fun index apart => (second.sems index apart).trans (first.sems index apart),
    fun index apart => (second.mutexes index apart).trans (first.mutexes index apart),
    fun index apart => (second.events index apart).trans (first.events index apart),
    fun index apart => (second.mailboxes index apart).trans (first.mailboxes index apart)⟩

theorem setSem (kernel : Kernel) (index : Nat) (record : Semaphore) :
    SameBut (some (.sem index)) kernel (kernel.setSem index record) := by
  refine ⟨?_, fun _ _ => rfl, fun _ _ => rfl, fun _ _ => rfl⟩
  intro other apart
  have apart' : other ≠ index := fun same => apart (same ▸ rfl)
  simp [Kernel.setSem, apart']

theorem setMutex (kernel : Kernel) (index : Nat) (record : Mutex) :
    SameBut (some (.mutex index)) kernel (kernel.setMutex index record) := by
  refine ⟨fun _ _ => rfl, ?_, fun _ _ => rfl, fun _ _ => rfl⟩
  intro other apart
  have apart' : other ≠ index := fun same => apart (same ▸ rfl)
  simp [Kernel.setMutex, apart']

theorem setEvent (kernel : Kernel) (index : Nat) (record : Event) :
    SameBut (some (.event index)) kernel (kernel.setEvent index record) := by
  refine ⟨fun _ _ => rfl, fun _ _ => rfl, ?_, fun _ _ => rfl⟩
  intro other apart
  have apart' : other ≠ index := fun same => apart (same ▸ rfl)
  simp [Kernel.setEvent, apart']

theorem setMailbox (kernel : Kernel) (index : Nat) (record : Mailbox) :
    SameBut (some (.mailbox index)) kernel (kernel.setMailbox index record) := by
  refine ⟨fun _ _ => rfl, fun _ _ => rfl, fun _ _ => rfl, ?_⟩
  intro other apart
  have apart' : other ≠ index := fun same => apart (same ▸ rfl)
  simp [Kernel.setMailbox, apart']

theorem clearEvent (kernel : Kernel) (event : Nat) (option : BitVec 8) (set : BitVec 32) :
    SameBut (some (.event event)) kernel (clearEvent kernel event option set) := by
  unfold RtThread.clearEvent
  dsimp only
  split
  · exact .setEvent kernel event _
  · exact .of_same rfl

end SameBut

theorem rtIpcListResume_objects {kernel next : Kernel} {list : WaitList}
    (step : rtIpcListResume kernel list = some next) : next.objects = kernel.objects := by
  unfold rtIpcListResume at step
  split at step
  · obtain rfl := Option.some_inj.mp step
    exact (rtThreadResume_sameRest kernel _).objects
  · cases step

theorem failWaiter_objects (kernel : Kernel) (thread : ThreadId) :
    (failWaiter kernel thread).objects = kernel.objects :=
  (rtThreadResume_sameRest (kernel.setError thread .error) thread).objects

theorem rtIpcListResumeAll_objects {kernel next : Kernel} {list : WaitList}
    (inv : ∃ home, WaitInv kernel home) (step : rtIpcListResumeAll list kernel = some next) :
    next.objects = kernel.objects := by
  obtain ⟨home, waits⟩ := inv
  obtain ⟨queue, queued⟩ := waits.queued list
  rw [rtIpcListResumeAll_eq ⟨home, waits⟩ queued, Option.some_inj] at step
  rw [← step]
  have same : ∀ (queue : List ThreadId) (kernel : Kernel),
      (queue.foldl failWaiter kernel).objects = kernel.objects := by
    intro queue
    induction queue with
    | nil => exact fun _ => rfl
    | cons thread queue ih =>
        intro kernel
        rw [List.foldl_cons, ih, failWaiter_objects]
  exact same queue kernel

/-! ## What a section has done -/

/-- The thread that executes a call; a handler is no thread. -/
def Context.self : Context → Option ThreadId
  | .thread self => some self
  | .handler _ => none

/-- A thread that executes a call is current and ready. -/
def Runs (self : Option ThreadId) (kernel : Kernel) : Prop :=
  ∃ thread, self = some thread ∧ kernel.rtCurrentThread = .thread thread ∧
    (kernel.threads thread).stat = .ready

/-- The thread is suspended in the call. -/
structure Suspended (call : Call) (next : Kernel) (thread : ThreadId) : Prop where
  stat : (next.threads thread).stat = .suspend
  waits : ∀ list, next.Waits list thread ↔ call.waitsOn = some list
  error : call.waitsOn ≠ none → (next.threads thread).error = .eok

structure SectionEffect (call : Call) (runner : Option ThreadId) (kernel next : Kernel)
    (outcome : Outcome) : Prop where
  objects : SameBut call.object kernel next
  others : Affects runner call.wakes call.verdict kernel next
  suspends : ∀ timer, outcome = .suspends timer → call.Blocks ∧
    ∃ thread, runner = some thread ∧ Suspended call next thread
  reschedules : ∀ output, outcome = .reschedules output → ∃ list, call.wakes list

namespace SectionEffect

variable {call : Call} {self : Option ThreadId} {kernel middle next : Kernel} {outcome : Outcome}
  {home : ThreadId → Option ThreadNode} {thread : ThreadId}

theorem of_returns {result : Err} {output : Option (BitVec 32)}
    (objects : SameBut call.object kernel next)
    (others : Affects self call.wakes call.verdict kernel next) :
    SectionEffect call self kernel next (.returns result output) :=
  ⟨objects, others, fun _ suspends => (nomatch suspends),
    fun _ reschedules => (nomatch reschedules)⟩

theorem of_reschedules {output : Option (BitVec 32)} {list : WaitList}
    (objects : SameBut call.object kernel next)
    (others : Affects self call.wakes call.verdict kernel next) (wakes : call.wakes list) :
    SectionEffect call self kernel next (.reschedules output) :=
  ⟨objects, others, fun _ suspends => (nomatch suspends), fun _ _ => ⟨list, wakes⟩⟩

/-- The section ends by putting its thread on a suspend list. -/
theorem of_suspendOn {list : WaitList} {flag : IpcFlag} {time : BitVec 32}
    (objects : SameBut call.object kernel middle)
    (others : Affects (some thread) call.wakes call.verdict kernel middle)
    (inv : WaitInv middle home) (isReady : (middle.threads thread).stat = .ready)
    (error : (middle.threads thread).error = .eok) (waitsOn : call.waitsOn = some list)
    (step : suspendOn middle list thread flag time = some (next, outcome)) :
    SectionEffect call (some thread) kernel next outcome := by
  obtain ⟨waits, rest, threads, ends⟩ := inv.suspendOn isReady step
  have suspended : Suspended call next thread := by
    refine ⟨?_, ?_, ?_⟩
    · rw [threads, Function.update_self]
    · intro list'
      rw [Kernel.Waits, waits.linked_iff (ThreadNode.isHead_wait list'), waitsOn]
      simp
    · intro _
      rw [threads, Function.update_self]
      exact error
  have blocks : call.Blocks := by
    cases call <;> first | trivial | simp [Call.Blocks, Call.waitsOn]
  refine ⟨objects.trans (.of_same rest.objects), others.trans ?_,
    fun _ _ => ⟨blocks, thread, rfl, suspended⟩, ?_⟩
  · intro other apart
    have apart' : other ≠ thread := fun same => apart (same ▸ rfl)
    exact Or.inl (.of_homes inv waits (by rw [threads, Function.update_of_ne apart'])
      (Function.update_of_ne apart' ..))
  · intro output reschedules
    rcases ends with ends | ⟨ends, -⟩ <;> cases ends.symm.trans reschedules

/-- The section ends by resuming the first thread of a list. -/
theorem of_listResume {list : WaitList} {output : Option (BitVec 32)}
    (objects : SameBut call.object kernel middle)
    (others : Affects self call.wakes call.verdict kernel middle) (lenient : call.verdict = none)
    (inv : WaitInv middle home) (woken : call.wakes list)
    (occupied : middle.threadLinks.isEmpty (.wait list) = false)
    (step : rtIpcListResume middle list = some next) :
    SectionEffect call self kernel next (.reschedules output) := by
  have resumed : Affects self call.wakes none middle next := .listResume inv woken occupied step
  rw [← lenient] at resumed
  exact .of_reschedules (objects.trans (.of_same (rtIpcListResume_objects step)))
    (others.trans resumed) woken

theorem of_resumeFirst {list : WaitList} {output : Option (BitVec 32)}
    (objects : SameBut call.object kernel middle)
    (others : Affects self call.wakes call.verdict kernel middle) (lenient : call.verdict = none)
    (inv : WaitInv middle home) (woken : call.wakes list)
    (step : resumeFirst middle list output = some (next, outcome)) :
    SectionEffect call self kernel next outcome := by
  unfold resumeFirst at step
  split at step
  · obtain ⟨rfl, rfl⟩ := Prod.mk.inj (Option.some_inj.mp step)
    exact .of_returns objects others
  · rename_i occupied
    obtain ⟨resumed, resume, done⟩ := Option.bind_eq_some_iff.mp step
    obtain ⟨rfl, rfl⟩ := Prod.mk.inj (Option.some_inj.mp done)
    exact .of_listResume objects others lenient inv woken (by simpa using occupied) resume

/-- The section ends by resuming all threads of a list and setting its object. -/
theorem of_listResumeAll {list : WaitList} (strict : call.verdict = some .error)
    (inv : ∃ home, WaitInv kernel home) (woken : call.wakes list)
    (step : rtIpcListResumeAll list kernel = some next) :
    SameBut call.object kernel next ∧ Affects self call.wakes call.verdict kernel next := by
  rw [strict]
  exact ⟨.of_same (rtIpcListResumeAll_objects inv step), .listResumeAll inv woken step⟩

end SectionEffect

/-! ## The calls -/

section

variable {kernel next : Kernel} {home : ThreadId → Option ThreadNode} {outcome : Outcome}
  {self : Option ThreadId}

theorem rtSemTake_effect (inv : WaitInv kernel home) {sem : Nat} {time : BitVec 32}
    (runs : time = 0#32 ∨ Runs self kernel)
    (step : rtSemTake kernel sem time = some (next, outcome)) :
    SectionEffect (.semTake sem time) self kernel next outcome := by
  simp only [rtSemTake] at step
  split at step
  · obtain ⟨rfl, rfl⟩ := Prod.mk.inj (Option.some_inj.mp step)
    exact .of_returns (.setSem kernel sem _) (.setSem kernel sem _)
  split at step
  · obtain ⟨rfl, rfl⟩ := Prod.mk.inj (Option.some_inj.mp step)
    exact .of_returns (.of_same rfl) (.refl self _ _ kernel)
  rename_i willing
  obtain ⟨thread, rfl, current, isReady⟩ := runs.resolve_left willing
  rw [current] at step
  have same : SameBut (some (.sem sem)) kernel (kernel.setError thread .eok) := .of_same rfl
  exact .of_suspendOn same (.setError kernel thread .eok) (inv.setError thread .eok)
    (by simpa [Kernel.setError, Kernel.setThread] using isReady)
    (by simp [Kernel.setError, Kernel.setThread]) rfl step

theorem rtSemRelease_effect (inv : WaitInv kernel home) {sem : Nat}
    (step : rtSemRelease kernel sem = some (next, outcome)) :
    SectionEffect (.semRelease sem) self kernel next outcome := by
  simp only [rtSemRelease] at step
  split at step
  · obtain ⟨rfl, rfl⟩ := Prod.mk.inj (Option.some_inj.mp step)
    exact .of_returns (.setSem kernel sem _) (.setSem kernel sem _)
  · rename_i occupied
    obtain ⟨resumed, resume, done⟩ := Option.bind_eq_some_iff.mp step
    obtain ⟨rfl, rfl⟩ := Prod.mk.inj (Option.some_inj.mp done)
    exact .of_listResume (.of_same rfl) (.refl self _ _ kernel) rfl inv rfl
      (by simpa using occupied) resume

theorem rtSemControl_effect (inv : WaitInv kernel home) {sem : Nat} {cmd : BitVec 8}
    {arg : BitVec 32} (step : rtSemControl kernel sem cmd arg = some (next, outcome)) :
    SectionEffect (.semControl sem cmd arg) self kernel next outcome := by
  unfold rtSemControl at step
  split at step
  · obtain ⟨resumed, resume, done⟩ := Option.bind_eq_some_iff.mp step
    obtain ⟨rfl, rfl⟩ := Prod.mk.inj (Option.some_inj.mp done)
    have woken : (Call.semControl sem cmd arg).wakes (.sem sem) := rfl
    obtain ⟨objects, others⟩ := SectionEffect.of_listResumeAll rfl ⟨home, inv⟩ woken resume
    exact .of_reschedules (objects.trans (.setSem resumed sem _))
      (others.trans (.setSem resumed sem _)) woken
  · obtain ⟨rfl, rfl⟩ := Prod.mk.inj (Option.some_inj.mp step)
    exact .of_returns (.of_same rfl) (.refl self _ _ kernel)

theorem raiseOwner_effect (inv : WaitInv kernel home) (owner thread : ThreadId)
    (self : Option ThreadId) (wakes : WaitList → Prop) (verdict : Option Err) :
    Affects self wakes verdict kernel (raiseOwner kernel owner thread) ∧
      SameRest kernel (raiseOwner kernel owner thread) := by
  unfold raiseOwner
  dsimp only
  split
  · exact ⟨.changePriority inv owner _, rtThreadChangePriority_sameRest kernel owner _⟩
  · exact ⟨.refl self wakes verdict kernel, .refl kernel⟩

theorem raiseOwner_error (kernel : Kernel) (owner thread other : ThreadId) :
    ((raiseOwner kernel owner thread).threads other).error = (kernel.threads other).error := by
  unfold raiseOwner
  dsimp only
  split
  · rw [rtThreadChangePriority_threads]
    by_cases same : other = owner <;> simp [same]
  · rfl

theorem rtMutexTake_effect (inv : WaitInv kernel home) {mutex : Nat} {time : BitVec 32}
    (runs : Runs self kernel) (step : rtMutexTake kernel mutex time = some (next, outcome)) :
    SectionEffect (.mutexTake mutex time) self kernel next outcome := by
  obtain ⟨thread, rfl, current, isReady⟩ := runs
  simp only [rtMutexTake, current] at step
  have reset : Affects (some thread) (Call.mutexTake mutex time).wakes none kernel
    (kernel.setError thread .eok) := .setError kernel thread .eok
  have same : SameBut (some (.mutex mutex)) kernel (kernel.setError thread .eok) := .of_same rfl
  split at step
  · obtain ⟨rfl, rfl⟩ := Prod.mk.inj (Option.some_inj.mp step)
    exact .of_returns (same.trans (.setMutex _ mutex _)) (reset.trans (.setMutex _ mutex _))
  split at step
  · obtain ⟨rfl, rfl⟩ := Prod.mk.inj (Option.some_inj.mp step)
    exact .of_returns (same.trans (.setMutex _ mutex _)) (reset.trans (.setMutex _ mutex _))
  split at step
  · obtain ⟨rfl, rfl⟩ := Prod.mk.inj (Option.some_inj.mp step)
    exact .of_returns (.of_same rfl) (reset.trans (.setError _ thread _))
  split at step
  · rename_i owner _
    have clean := inv.setError thread .eok
    obtain ⟨⟨home', raised⟩, wakes⟩ := raiseOwner_keeps clean owner thread
    obtain ⟨others, rest⟩ := raiseOwner_effect clean owner thread (some thread)
      (Call.mutexTake mutex time).wakes none
    exact .of_suspendOn (same.trans (.of_same rest.objects)) (reset.trans others) raised
      (wakes.ready thread (by simpa [Kernel.setError, Kernel.setThread] using isReady))
      (by rw [raiseOwner_error]; simp [Kernel.setError, Kernel.setThread]) rfl step
  · cases step

theorem restorePriority_effect (inv : WaitInv kernel home) (owner : ThreadId)
    (originalPriority : Nat) (self : Option ThreadId) (wakes : WaitList → Prop)
    (verdict : Option Err) :
    Affects self wakes verdict kernel (restorePriority kernel owner originalPriority) ∧
      SameRest kernel (restorePriority kernel owner originalPriority) := by
  unfold restorePriority
  split
  · exact ⟨.changePriority inv owner _, rtThreadChangePriority_sameRest kernel owner _⟩
  · exact ⟨.refl self wakes verdict kernel, .refl kernel⟩

theorem rtMutexRelease_effect (inv : WaitInv kernel home) {mutex : Nat} (runs : Runs self kernel)
    (step : rtMutexRelease kernel mutex = some (next, outcome)) :
    SectionEffect (.mutexRelease mutex) self kernel next outcome := by
  obtain ⟨thread, rfl, current, -⟩ := runs
  simp only [rtMutexRelease, current] at step
  split at step
  · obtain ⟨rfl, rfl⟩ := Prod.mk.inj (Option.some_inj.mp step)
    exact .of_returns (.of_same rfl) (.setError kernel thread _)
  split at step
  · have lowered := inv.setMutex mutex
      { kernel.mutexes mutex with hold := (kernel.mutexes mutex).hold - 1#8 }
    obtain ⟨⟨home', restored⟩, -⟩ :=
      restorePriority_keeps lowered thread (kernel.mutexes mutex).originalPriority
    obtain ⟨others, rest⟩ := restorePriority_effect lowered thread
      (kernel.mutexes mutex).originalPriority (some thread) (Call.mutexRelease mutex).wakes none
    have objects := (SameBut.setMutex kernel mutex
      { kernel.mutexes mutex with hold := (kernel.mutexes mutex).hold - 1#8 }).trans
        (.of_same rest.objects)
    have others' := (Affects.setMutex kernel mutex
      { kernel.mutexes mutex with hold := (kernel.mutexes mutex).hold - 1#8 }).trans others
    simp only [passMutex] at step
    split at step
    · obtain ⟨rfl, rfl⟩ := Prod.mk.inj (Option.some_inj.mp step)
      exact .of_returns (objects.trans (.setMutex _ mutex _)) (others'.trans (.setMutex _ mutex _))
    · rename_i occupied
      split at step
      · obtain ⟨resumed, resume, done⟩ := Option.bind_eq_some_iff.mp step
        obtain ⟨rfl, rfl⟩ := Prod.mk.inj (Option.some_inj.mp done)
        exact .of_listResume (objects.trans (.setMutex _ mutex _))
          (others'.trans (.setMutex _ mutex _)) rfl (restored.setMutex mutex _) rfl
          (Bool.eq_false_of_not_eq_true occupied) resume
      · cases step
  · obtain ⟨rfl, rfl⟩ := Prod.mk.inj (Option.some_inj.mp step)
    exact .of_returns (.setMutex kernel mutex _) (.setMutex kernel mutex _)

theorem resumeSatisfied_objects (kernel : Kernel) (event : Nat) (thread : ThreadId) :
    SameBut (some (.event event)) kernel (resumeSatisfied kernel event thread) := by
  have saved : SameBut (some (.event event)) kernel (saveReceived kernel event thread) :=
    .of_same (saveReceived_objects kernel event thread)
  exact saved.trans ((SameBut.clearEvent _ event _ _).trans
    (.of_same (rtThreadResume_sameRest _ thread).objects))

theorem deliver_objects (event : Nat) (queue : List ThreadId) (kernel : Kernel) (need : Bool) :
    SameBut (some (.event event)) kernel (queue.foldl (deliverTo event) (kernel, need)).1 := by
  induction queue generalizing kernel need with
  | nil => exact .of_same rfl
  | cons thread queue ih =>
      rw [List.foldl_cons, deliverTo]
      dsimp only
      split
      · exact (resumeSatisfied_objects kernel event thread).trans (ih _ true)
      · exact ih kernel need

theorem rtEventSend_effect (inv : WaitInv kernel home) {event : Nat} {set : BitVec 32}
    (step : rtEventSend kernel event set = some (next, outcome)) :
    SectionEffect (.eventSend event set) self kernel next outcome := by
  by_cases nonzero : set = 0#32
  · rw [rtEventSend, if_pos nonzero] at step
    obtain ⟨rfl, rfl⟩ := Prod.mk.inj (Option.some_inj.mp step)
    exact .of_returns (.of_same rfl) (.refl self _ _ kernel)
  · obtain ⟨queue, queued⟩ := inv.queued (.event event)
    have posted : Queued (postEvent kernel event set) (.event event) ([] ++ queue) :=
      queued.congr rfl
    have inv' : WaitInv (postEvent kernel event set) home := inv.setEvent _ _
    have woken : (Call.eventSend event set).wakes (.event event) := rfl
    have others : Affects self (Call.eventSend event set).wakes none kernel
        (queue.foldl (deliverTo event) (postEvent kernel event set, false)).1 :=
      (Affects.setEvent kernel event _).trans (.deliver [] inv' posted woken)
    have objects := (SameBut.setEvent kernel event _).trans
      (deliver_objects event queue (postEvent kernel event set) false)
    generalize delivered : queue.foldl (deliverTo event) (postEvent kernel event set, false) =
      state at others objects
    obtain ⟨after, need⟩ := state
    rw [rtEventSend_eq ⟨home, inv⟩ queued nonzero delivered, Option.some_inj] at step
    obtain ⟨rfl, rfl⟩ := Prod.mk.inj step
    cases need with
    | false => exact .of_returns objects others
    | true => exact .of_reschedules objects others woken

theorem rtEventRecv_effect (inv : WaitInv kernel home) {event : Nat} {set : BitVec 32}
    {option : BitVec 8} {timeout : BitVec 32} (runs : Runs self kernel)
    (step : rtEventRecv kernel event set option timeout = some (next, outcome)) :
    SectionEffect (.eventRecv event set option timeout) self kernel next outcome := by
  obtain ⟨thread, rfl, current, isReady⟩ := runs
  simp only [rtEventRecv, current] at step
  have reset : Affects (some thread) (Call.eventRecv event set option timeout).wakes none kernel
    (kernel.setError thread .eok) := .setError kernel thread .eok
  have same : SameBut (some (.event event)) kernel (kernel.setError thread .eok) := .of_same rfl
  split at step
  · obtain ⟨rfl, rfl⟩ := Prod.mk.inj (Option.some_inj.mp step)
    exact .of_returns (.of_same rfl) (.refl _ _ _ kernel)
  split at step
  · obtain ⟨rfl, rfl⟩ := Prod.mk.inj (Option.some_inj.mp step)
    exact .of_returns (same.trans (.clearEvent _ event option set))
      (reset.trans (.of_same (fun _ _ => by rw [clearEvent_threads]) (clearEvent_links _ event _ _)))
  split at step
  · obtain ⟨rfl, rfl⟩ := Prod.mk.inj (Option.some_inj.mp step)
    exact .of_returns (.of_same rfl) (reset.trans (.setError _ thread _))
  · let record := { (kernel.setError thread .eok).threads thread with
      eventSet := set, eventInfo := option }
    have filled : WaitInv ((kernel.setError thread .eok).setThread thread record) home :=
      (inv.setError thread .eok).setThread_same record rfl
    have same' : SameBut (some (.event event)) kernel
      ((kernel.setError thread .eok).setThread thread record) := .of_same rfl
    refine .of_suspendOn same' (reset.trans (.of_same ?_ rfl)) filled ?_ ?_ rfl step
    · intro other apart
      have apart' : other ≠ thread := fun equal => apart (equal ▸ rfl)
      simp [Kernel.setThread, apart']
    · simpa [record, Kernel.setError, Kernel.setThread] using isReady
    · simp [record, Kernel.setError, Kernel.setThread]

theorem rtEventControl_effect (inv : WaitInv kernel home) {event : Nat} {cmd : BitVec 8}
    (step : rtEventControl kernel event cmd = some (next, outcome)) :
    SectionEffect (.eventControl event cmd) self kernel next outcome := by
  unfold rtEventControl at step
  split at step
  · obtain ⟨resumed, resume, done⟩ := Option.bind_eq_some_iff.mp step
    obtain ⟨rfl, rfl⟩ := Prod.mk.inj (Option.some_inj.mp done)
    have woken : (Call.eventControl event cmd).wakes (.event event) := rfl
    obtain ⟨objects, others⟩ := SectionEffect.of_listResumeAll rfl ⟨home, inv⟩ woken resume
    exact .of_reschedules (objects.trans (.setEvent resumed event _))
      (others.trans (.setEvent resumed event _)) woken
  · obtain ⟨rfl, rfl⟩ := Prod.mk.inj (Option.some_inj.mp step)
    exact .of_returns (.of_same rfl) (.refl self _ _ kernel)

/-- A round of a mailbox call; its timeout may be less than that of the call. -/
theorem rtMbSendRound_effect (inv : WaitInv kernel home) {mailbox : Nat}
    {value timeout timeout' : BitVec 32}
    (runs : (kernel.mailboxes mailbox).entry ≠ (kernel.mailboxes mailbox).size ∨ Runs self kernel)
    (step : rtMbSendRound kernel mailbox value timeout = some (next, outcome)) :
    SectionEffect (.mbSendWait mailbox value timeout') self kernel next outcome := by
  unfold rtMbSendRound at step
  dsimp only at step
  split at step
  · rename_i full
    obtain ⟨thread, rfl, current, isReady⟩ := runs.resolve_left (fun room => room full)
    rw [current] at step
    dsimp only at step
    have reset : Affects (some thread) (Call.mbSendWait mailbox value timeout').wakes none kernel
      (kernel.setError thread .eok) := .setError kernel thread .eok
    split at step
    · obtain ⟨rfl, rfl⟩ := Prod.mk.inj (Option.some_inj.mp step)
      exact .of_returns (.of_same rfl) reset
    · have same : SameBut (some (.mailbox mailbox)) kernel (kernel.setError thread .eok) :=
        .of_same rfl
      exact .of_suspendOn same reset (inv.setError thread .eok)
        (by simpa [Kernel.setError, Kernel.setThread] using isReady)
        (by simp [Kernel.setError, Kernel.setThread]) rfl step
  · exact .of_resumeFirst (.setMailbox kernel mailbox _) (.setMailbox kernel mailbox _) rfl
      (inv.setMailbox mailbox _) rfl step

theorem rtMbSendWait_effect (inv : WaitInv kernel home) {mailbox : Nat}
    {value timeout : BitVec 32} (runs : timeout = 0#32 ∨ Runs self kernel)
    (step : rtMbSendWait kernel mailbox value timeout = some (next, outcome)) :
    SectionEffect (.mbSendWait mailbox value timeout) self kernel next outcome := by
  unfold rtMbSendWait at step
  split at step
  · obtain ⟨rfl, rfl⟩ := Prod.mk.inj (Option.some_inj.mp step)
    exact .of_returns (.of_same rfl) (.refl self _ _ kernel)
  · rename_i hopeful
    refine rtMbSendRound_effect inv ?_ step
    rcases runs with untimed | runs
    · exact Or.inl fun full => hopeful ⟨full, untimed⟩
    · exact Or.inr runs

theorem rtMbRecvRound_effect (inv : WaitInv kernel home) {mailbox : Nat}
    {timeout timeout' : BitVec 32}
    (runs : (kernel.mailboxes mailbox).entry ≠ 0#16 ∨ Runs self kernel)
    (step : rtMbRecvRound kernel mailbox timeout = some (next, outcome)) :
    SectionEffect (.mbRecv mailbox timeout') self kernel next outcome := by
  unfold rtMbRecvRound at step
  dsimp only at step
  split at step
  · rename_i empty
    obtain ⟨thread, rfl, current, isReady⟩ := runs.resolve_left (fun mail => mail empty)
    rw [current] at step
    dsimp only at step
    have reset : Affects (some thread) (Call.mbRecv mailbox timeout').wakes none kernel
      (kernel.setError thread .eok) := .setError kernel thread .eok
    split at step
    · obtain ⟨rfl, rfl⟩ := Prod.mk.inj (Option.some_inj.mp step)
      exact .of_returns (.of_same rfl) (reset.trans (.setError _ thread _))
    · have same : SameBut (some (.mailbox mailbox)) kernel (kernel.setError thread .eok) :=
        .of_same rfl
      exact .of_suspendOn same reset (inv.setError thread .eok)
        (by simpa [Kernel.setError, Kernel.setThread] using isReady)
        (by simp [Kernel.setError, Kernel.setThread]) rfl step
  · exact .of_resumeFirst (.setMailbox kernel mailbox _) (.setMailbox kernel mailbox _) rfl
      (inv.setMailbox mailbox _) rfl step

theorem rtMbRecv_effect (inv : WaitInv kernel home) {mailbox : Nat} {timeout : BitVec 32}
    (runs : timeout = 0#32 ∨ Runs self kernel)
    (step : rtMbRecv kernel mailbox timeout = some (next, outcome)) :
    SectionEffect (.mbRecv mailbox timeout) self kernel next outcome := by
  unfold rtMbRecv at step
  split at step
  · obtain ⟨rfl, rfl⟩ := Prod.mk.inj (Option.some_inj.mp step)
    exact .of_returns (.of_same rfl) (.refl self _ _ kernel)
  · rename_i hopeful
    refine rtMbRecvRound_effect inv ?_ step
    rcases runs with untimed | runs
    · exact Or.inl fun empty => hopeful ⟨empty, untimed⟩
    · exact Or.inr runs

theorem rtMbControl_effect (inv : WaitInv kernel home) {mailbox : Nat} {cmd : BitVec 8}
    (step : rtMbControl kernel mailbox cmd = some (next, outcome)) :
    SectionEffect (.mbControl mailbox cmd) self kernel next outcome := by
  unfold rtMbControl at step
  split at step
  · obtain ⟨resumed, resume, step⟩ := Option.bind_eq_some_iff.mp step
    obtain ⟨cleared, clear, done⟩ := Option.bind_eq_some_iff.mp step
    obtain ⟨rfl, rfl⟩ := Prod.mk.inj (Option.some_inj.mp done)
    have woken : (Call.mbControl mailbox cmd).wakes (.mailbox mailbox) := Or.inl rfl
    have woken' : (Call.mbControl mailbox cmd).wakes (.mailboxSender mailbox) := Or.inr rfl
    obtain ⟨objects, others⟩ := SectionEffect.of_listResumeAll rfl ⟨home, inv⟩ woken resume
    obtain ⟨objects', others'⟩ := SectionEffect.of_listResumeAll rfl
      (WaitInv.rtIpcListResumeAll ⟨home, inv⟩ resume).1 woken' clear
    exact .of_reschedules (objects.trans (objects'.trans (.setMailbox cleared mailbox _)))
      (others.trans (others'.trans (.setMailbox cleared mailbox _))) woken
  · obtain ⟨rfl, rfl⟩ := Prod.mk.inj (Option.some_inj.mp step)
    exact .of_returns (.of_same rfl) (.refl self _ _ kernel)

theorem threadSleepEnter_effect (inv : WaitInv kernel home) {tick : BitVec 32}
    (runs : Runs self kernel) (step : threadSleepEnter kernel tick = some (next, outcome)) :
    SectionEffect (.threadSleep tick) self kernel next outcome := by
  obtain ⟨thread, rfl, current, isReady⟩ := runs
  simp only [threadSleepEnter, current] at step
  obtain ⟨⟨result, asleep⟩, start, done⟩ := Option.bind_eq_some_iff.mp step
  obtain ⟨rfl, rfl⟩ := Prod.mk.inj (Option.some_inj.mp done)
  have rest := rtThreadSuspend_sameRest kernel thread
  have threads := rtThreadSuspend_threads isReady
  have timers : (rtThreadSuspend kernel thread).2.timers = kernel.timers := by
    simp [rtThreadSuspend, isReady, Kernel.setStat, Kernel.setThread]
  obtain ⟨-, -, asleepInv, frame⟩ := (inv.suspendThread isReady).startTimer
    (by simp [threads]) (by rw [timers]; exact inv.stopped_of_ready isReady) start
  have records : asleep.threads = Function.update kernel.threads thread
      { kernel.threads thread with stat := .suspend } := by
    rw [frame]
    exact threads
  have objects : asleep.objects = kernel.objects := by
    rw [frame]
    exact rest.objects
  refine ⟨.of_same objects, ?_, fun _ _ => ⟨trivial, thread, rfl, ?_, ?_, by simp [Call.waitsOn]⟩,
    by rintro _ ⟨⟩⟩
  · intro other apart
    have apart' : other ≠ thread := fun equal => apart (equal ▸ rfl)
    exact Or.inl (.of_homes inv asleepInv (by rw [records, Function.update_of_ne apart'])
      (Function.update_of_ne apart' ..))
  · rw [records, Function.update_self]
  · intro list
    rw [Kernel.Waits, asleepInv.linked_iff (ThreadNode.isHead_wait list)]
    simp [Call.waitsOn]

/-- The first section of a call by a thread. -/
theorem Call.enter_effect {call : Call} (inv : WaitInv kernel home) (runs : Runs self kernel)
    (step : call.enter kernel = some (next, outcome)) :
    SectionEffect call self kernel next outcome := by
  cases call with
  | semTake sem time => exact rtSemTake_effect inv (Or.inr runs) step
  | semRelease sem => exact rtSemRelease_effect inv step
  | semControl sem cmd arg => exact rtSemControl_effect inv step
  | mutexTake mutex time => exact rtMutexTake_effect inv runs step
  | mutexRelease mutex => exact rtMutexRelease_effect inv runs step
  | eventSend event set => exact rtEventSend_effect inv step
  | eventRecv event set option timeout => exact rtEventRecv_effect inv runs step
  | eventControl event cmd => exact rtEventControl_effect inv step
  | mbSendWait mailbox value timeout => exact rtMbSendWait_effect inv (Or.inr runs) step
  | mbRecv mailbox timeout => exact rtMbRecv_effect inv (Or.inr runs) step
  | mbControl mailbox cmd => exact rtMbControl_effect inv step
  | threadSleep tick => exact threadSleepEnter_effect inv runs step
  | threadResume thread => cases step

/-- The first section of a call by a handler. -/
theorem Call.enter_handler_effect {call : Call} {index : Nat} (inv : WaitInv kernel home)
    (allowed : call.allowedIn (.handler index) = true)
    (step : call.enter kernel = some (next, outcome)) :
    SectionEffect call none kernel next outcome := by
  cases call with
  | semTake sem time =>
      exact rtSemTake_effect inv (Or.inl (by simpa [Call.allowedIn] using allowed)) step
  | semRelease sem => exact rtSemRelease_effect inv step
  | semControl sem cmd arg => exact rtSemControl_effect inv step
  | mutexTake mutex time => cases allowed
  | mutexRelease mutex => cases allowed
  | eventSend event set => exact rtEventSend_effect inv step
  | eventRecv event set option timeout => cases allowed
  | eventControl event cmd => exact rtEventControl_effect inv step
  | mbSendWait mailbox value timeout =>
      exact rtMbSendWait_effect inv (Or.inl (by simpa [Call.allowedIn] using allowed)) step
  | mbRecv mailbox timeout =>
      exact rtMbRecv_effect inv (Or.inl (by simpa [Call.allowedIn] using allowed)) step
  | mbControl mailbox cmd => exact rtMbControl_effect inv step
  | threadSleep tick => cases allowed
  | threadResume thread => cases step

/-- The section behind the test of `thread->error`. -/
theorem Call.again_effect {call : Call} {thread : ThreadId} {tickDelta : BitVec 32}
    (inv : WaitInv kernel home) (runs : Runs (some thread) kernel)
    (step : call.again kernel thread tickDelta = some (next, outcome)) :
    SectionEffect (call.reduce tickDelta kernel.rtTick) (some thread) kernel next outcome := by
  cases call <;> simp only [Call.again, reduceCtorEq] at step
  case eventRecv event set option timeout =>
    obtain ⟨rfl, rfl⟩ := Prod.mk.inj (Option.some_inj.mp step)
    exact .of_returns (.of_same rfl) (.refl _ _ _ kernel)
  case mbSendWait mailbox value timeout => exact rtMbSendRound_effect inv (Or.inr runs) step
  case mbRecv mailbox timeout => exact rtMbRecvRound_effect inv (Or.inr runs) step

end

/-! ## Lists and their objects -/

/-- The suspend list belongs to the object. -/
def WaitList.object : WaitList → IpcObject
  | .sem index => .sem index
  | .mutex index => .mutex index
  | .event index => .event index
  | .mailbox index | .mailboxSender index => .mailbox index
  | .messageQueue index => .messageQueue index
  | .mempool index => .mempool index

theorem Call.object_of_wakes {call : Call} {list : WaitList} (wakes : call.wakes list) :
    call.object = some list.object := by
  cases call <;> first
    | exact wakes.elim
    | (obtain rfl := wakes; rfl)
    | (rcases wakes with rfl | rfl <;> rfl)

theorem Call.object_of_waitsOn {call : Call} {list : WaitList} (waitsOn : call.waitsOn = some list) :
    call.object = some list.object := by
  cases call <;> first
    | (obtain rfl := Option.some_inj.mp waitsOn; rfl)
    | cases waitsOn

theorem Context.self_ne {context : Context} {thread : ThreadId} (apart : context ≠ .thread thread) :
    context.self ≠ some thread := by
  cases context with
  | thread self =>
      intro same
      exact apart (by rw [Option.some_inj.mp same])
  | handler index => exact nofun

section

variable {kernel next : Kernel} {home : ThreadId → Option ThreadNode} {outcome : Outcome}

/-- A thread that suspends itself leaves the objects and the other threads alone. -/
theorem suspendOn_rests {list : WaitList} {thread : ThreadId} {flag : IpcFlag}
    {time : BitVec 32} (inv : WaitInv kernel home)
    (isReady : (kernel.threads thread).stat = .ready)
    (step : suspendOn kernel list thread flag time = some (next, outcome)) :
    next.objects = kernel.objects ∧ (∃ timer, outcome = .suspends timer) ∧
      ∀ other, other ≠ thread → Rests kernel next other := by
  obtain ⟨waits, rest, threads, ends⟩ := inv.suspendOn isReady step
  refine ⟨rest.objects, ?_, ?_⟩
  · rcases ends with ends | ⟨ends, -⟩
    · exact ⟨_, ends⟩
    · exact ⟨_, ends⟩
  · intro other apart
    exact .of_homes inv waits (by rw [threads, Function.update_of_ne apart])
      (Function.update_of_ne apart ..)

/-- Resuming a waiter leaves the other threads alone. -/
theorem resume_one {list : WaitList} {thread : ThreadId} (inv : WaitInv kernel home)
    (waits : kernel.Waits list thread) :
    Resumes kernel (rtThreadResume kernel thread).2 thread (kernel.threads thread).error ∧
      ∀ other, other ≠ thread → Rests kernel (rtThreadResume kernel thread).2 other := by
  have suspended := inv.suspended_of_waits waits
  have resumed := inv.resumeThread suspended
  have records := rtThreadResume_threads suspended
  refine ⟨⟨suspended, ?_, ?_, ?_⟩, ?_⟩
  · rw [records, Function.update_self]
  · rw [records, Function.update_self]
  · intro list there
    simpa using (resumed.linked_iff (ThreadNode.isHead_wait list) thread).mp there
  · intro other apart
    exact .of_homes inv resumed (by rw [records, Function.update_of_ne apart])
      (Function.update_of_ne apart ..)

/-- Nobody is left on a list whose threads have all been resumed. -/
theorem listResumeAll_empties {list : WaitList} (inv : ∃ home, WaitInv kernel home)
    (step : rtIpcListResumeAll list kernel = some next) (thread : ThreadId) :
    ¬ next.Waits list thread := by
  obtain ⟨home, waits⟩ := inv
  obtain ⟨queue, queued⟩ := waits.queued list
  rw [rtIpcListResumeAll_eq ⟨home, waits⟩ queued, Option.some_inj] at step
  have emptied : ∀ (queue : List ThreadId) (kernel : Kernel), (∃ home, WaitInv kernel home) →
      Queued kernel list queue → Queued (queue.foldl failWaiter kernel) list [] := by
    intro queue
    induction queue with
    | nil => exact fun _ _ queued => queued
    | cons first queue ih =>
        rintro kernel ⟨home, waits⟩ queued
        exact ih _ ((waits.setError first .error).rtThreadResume first)
          (queued.failWaiter (waits.suspended_of_queued queued first (by simp)))
  rw [← step, (emptied queue kernel ⟨home, waits⟩ queued).waits_iff]
  simp

end

end RtThread
