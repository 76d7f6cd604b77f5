import RtThread.Kernel.System
import RtThread.Kernel.WaitQueue

/-!
# One section of a call

Every section keeps each thread at home in one list that fits its state. It
makes no thread wait but the one that executes it, and that one only when the
section ends by suspending it.
-/

namespace RtThread

open RtThread.Std

/-- The running thread and the scheduler lock are as before, and no ready thread
has stopped being ready. -/
structure Wakes (kernel next : Kernel) : Prop where
  current : next.rtCurrentThread = kernel.rtCurrentThread
  nest : next.rtSchedulerLockNest = kernel.rtSchedulerLockNest
  ready : ∀ thread, (kernel.threads thread).stat = .ready → (next.threads thread).stat = .ready

theorem Wakes.refl (kernel : Kernel) : Wakes kernel kernel := ⟨rfl, rfl, fun _ => id⟩

theorem Wakes.trans {kernel kernel' kernel'' : Kernel} (first : Wakes kernel kernel')
    (second : Wakes kernel' kernel'') : Wakes kernel kernel'' :=
  ⟨second.current.trans first.current, second.nest.trans first.nest,
    fun thread isReady => second.ready thread (first.ready thread isReady)⟩

/-- A step that changes the record of one thread and leaves it ready if it was. -/
theorem Wakes.of_update {kernel next : Kernel} {thread : ThreadId} {record : Thread}
    (rest : SameRest kernel next)
    (threads : next.threads = Function.update kernel.threads thread record)
    (ready : (kernel.threads thread).stat = .ready → record.stat = .ready) : Wakes kernel next := by
  refine ⟨rest.current, rest.nest, ?_⟩
  intro other isReady
  rw [threads]
  by_cases same : other = thread
  · subst same
    simpa using ready isReady
  · simpa [same] using isReady

theorem Wakes.setThread {kernel : Kernel} {thread : ThreadId} {record : Thread}
    (stat : record.stat = (kernel.threads thread).stat) :
    Wakes kernel (kernel.setThread thread record) :=
  .of_update ⟨rfl, rfl, rfl⟩ rfl fun isReady => stat.trans isReady

/-! ### Records of IPC objects -/

section

variable {kernel : Kernel} {home : ThreadId → Option ThreadNode}

theorem WaitInv.setSem (inv : WaitInv kernel home) (index : Nat) (record : Semaphore) :
    WaitInv (kernel.setSem index record) home := inv.congr rfl rfl rfl fun _ => rfl

theorem WaitInv.setMutex (inv : WaitInv kernel home) (index : Nat) (record : Mutex) :
    WaitInv (kernel.setMutex index record) home := inv.congr rfl rfl rfl fun _ => rfl

theorem WaitInv.setEvent (inv : WaitInv kernel home) (index : Nat) (record : Event) :
    WaitInv (kernel.setEvent index record) home := inv.congr rfl rfl rfl fun _ => rfl

theorem WaitInv.setMailbox (inv : WaitInv kernel home) (index : Nat) (record : Mailbox) :
    WaitInv (kernel.setMailbox index record) home := inv.congr rfl rfl rfl fun _ => rfl

theorem Wakes.setSem (kernel : Kernel) (index : Nat) (record : Semaphore) :
    Wakes kernel (kernel.setSem index record) := ⟨rfl, rfl, fun _ => id⟩

theorem Wakes.setMutex (kernel : Kernel) (index : Nat) (record : Mutex) :
    Wakes kernel (kernel.setMutex index record) := ⟨rfl, rfl, fun _ => id⟩

theorem Wakes.setEvent (kernel : Kernel) (index : Nat) (record : Event) :
    Wakes kernel (kernel.setEvent index record) := ⟨rfl, rfl, fun _ => id⟩

theorem Wakes.setMailbox (kernel : Kernel) (index : Nat) (record : Mailbox) :
    Wakes kernel (kernel.setMailbox index record) := ⟨rfl, rfl, fun _ => id⟩

end

theorem Wakes.rtThreadResume (kernel : Kernel) (thread : ThreadId) :
    Wakes kernel (rtThreadResume kernel thread).2 := by
  by_cases suspended : (kernel.threads thread).stat = .suspend
  · exact .of_update (rtThreadResume_sameRest kernel thread) (rtThreadResume_threads suspended)
      fun _ => rfl
  · simp [RtThread.rtThreadResume, suspended, Wakes.refl]

theorem Wakes.rtThreadChangePriority (kernel : Kernel) (thread : ThreadId) (priority : Nat) :
    Wakes kernel (rtThreadChangePriority kernel thread priority) :=
  .of_update (rtThreadChangePriority_sameRest kernel thread priority)
    (rtThreadChangePriority_threads kernel thread priority) id

/-- What a section of a call has done when it ends with `outcome`. -/
structure SectionKeeps (kernel next : Kernel) (outcome : Outcome) : Prop where
  homes : ∃ home, WaitInv next home
  current : next.rtCurrentThread = kernel.rtCurrentThread
  nest : next.rtSchedulerLockNest = kernel.rtSchedulerLockNest
  ready : ∀ thread, (kernel.threads thread).stat = .ready → (next.threads thread).stat = .ready ∨
    kernel.rtCurrentThread = .thread thread ∧ ∃ timer, outcome = .suspends timer
  armed : ∀ thread result, kernel.rtCurrentThread = .thread thread →
    outcome = .suspends (some result) →
      result = .eok ∧ (next.timers (.thread thread)).activated = true

namespace SectionKeeps

variable {kernel middle next : Kernel} {home : ThreadId → Option ThreadNode} {outcome : Outcome}
  {thread : ThreadId}

/-- A section that suspends no thread. -/
theorem of_wakes (inv : WaitInv next home) (wakes : Wakes kernel next)
    (returns : ∀ timer, outcome ≠ .suspends timer) : SectionKeeps kernel next outcome where
  homes := ⟨home, inv⟩
  current := wakes.current
  nest := wakes.nest
  ready thread isReady := Or.inl (wakes.ready thread isReady)
  armed _ _ _ suspends := absurd suspends (returns _)

/-- A section that ends by suspending the running thread. -/
theorem of_suspendOn (inv : WaitInv middle home) (wakes : Wakes kernel middle)
    (current : kernel.rtCurrentThread = .thread thread)
    (isReady : (kernel.threads thread).stat = .ready) {list : WaitList} {flag : IpcFlag}
    {time : BitVec 32} (step : suspendOn middle list thread flag time = some (next, outcome)) :
    SectionKeeps kernel next outcome := by
  obtain ⟨waits, rest, threads, ends⟩ := inv.suspendOn (wakes.ready thread isReady) step
  refine ⟨⟨_, waits⟩, rest.current.trans wakes.current, rest.nest.trans wakes.nest, ?_, ?_⟩
  · intro other otherReady
    by_cases same : other = thread
    · subst same
      right
      refine ⟨current, ?_⟩
      rcases ends with suspends | ⟨suspends, -⟩ <;> exact ⟨_, suspends⟩
    · left
      rw [threads]
      simpa [same] using wakes.ready other otherReady
  · intro other result isCurrent suspends
    obtain rfl := ThreadPtr.thread.inj (current.symm.trans isCurrent)
    rcases ends with untimed | ⟨timed, active⟩
    · simp [untimed] at suspends
    · rw [timed] at suspends
      simp only [Outcome.suspends.injEq, Option.some.injEq] at suspends
      exact ⟨suspends.symm, active⟩

end SectionKeeps

/-! ## Resuming threads -/

theorem WaitInv.rtThreadResume {kernel : Kernel} {home : ThreadId → Option ThreadNode}
    (inv : WaitInv kernel home) (thread : ThreadId) :
    ∃ home', WaitInv (rtThreadResume kernel thread).2 home' := by
  by_cases suspended : (kernel.threads thread).stat = .suspend
  · exact ⟨_, inv.resumeThread suspended⟩
  · refine ⟨home, ?_⟩
    simpa [RtThread.rtThreadResume, suspended] using inv

theorem WaitInv.rtIpcListResume {kernel next : Kernel} {home : ThreadId → Option ThreadNode}
    (inv : WaitInv kernel home) {list : WaitList} (step : rtIpcListResume kernel list = some next) :
    (∃ home', WaitInv next home') ∧ Wakes kernel next := by
  unfold RtThread.rtIpcListResume at step
  split at step
  · obtain rfl := Option.some_inj.mp step
    exact ⟨inv.rtThreadResume _, .rtThreadResume kernel _⟩
  · cases step

/-- A step after the records of IPC objects have been changed. -/
theorem SectionKeeps.of_listResume {kernel middle next : Kernel}
    {home : ThreadId → Option ThreadNode} (inv : WaitInv middle home)
    (wakes : Wakes kernel middle) {list : WaitList} {output : Option (BitVec 32)}
    (step : rtIpcListResume middle list = some next) :
    SectionKeeps kernel next (.reschedules output) := by
  obtain ⟨⟨home', resumed⟩, wakes'⟩ := inv.rtIpcListResume step
  exact .of_wakes resumed (wakes.trans wakes') (by simp)

theorem SectionKeeps.of_resumeFirst {kernel middle next : Kernel}
    {home : ThreadId → Option ThreadNode} (inv : WaitInv middle home)
    (wakes : Wakes kernel middle) {list : WaitList} {output : Option (BitVec 32)}
    {outcome : Outcome} (step : resumeFirst middle list output = some (next, outcome)) :
    SectionKeeps kernel next outcome := by
  unfold resumeFirst at step
  split at step
  · obtain ⟨rfl, rfl⟩ := Prod.mk.inj (Option.some_inj.mp step)
    exact .of_wakes inv wakes (by simp)
  · obtain ⟨resumed, resume, done⟩ := Option.bind_eq_some_iff.mp step
    obtain ⟨rfl, rfl⟩ := Prod.mk.inj (Option.some_inj.mp done)
    exact .of_listResume inv wakes resume

/-- The walk that resumes every thread of a list, if it ends. -/
theorem WaitInv.rtIpcListResumeAll {kernel next : Kernel} {list : WaitList}
    (inv : ∃ home, WaitInv kernel home) (step : rtIpcListResumeAll list kernel = some next) :
    (∃ home', WaitInv next home') ∧ Wakes kernel next := by
  revert inv
  refine Kernel.rtIpcListResumeAll.partial_correctness list
    (fun kernel result => (∃ home, WaitInv kernel home) →
      (∃ home', WaitInv result home') ∧ Wakes kernel result) ?_ kernel next step
  intro loop ih kernel next step inv
  split at step
  · obtain rfl := Option.some_inj.mp step
    exact ⟨inv, .refl kernel⟩
  split at step
  · rename_i thread _
    obtain ⟨home, waits⟩ := inv
    have failed := (waits.setError thread .error).rtThreadResume thread
    have marked : Wakes kernel (kernel.setError thread .error) := .setThread rfl
    obtain ⟨rest, wakes⟩ := ih _ _ step failed
    exact ⟨rest, marked.trans ((Wakes.rtThreadResume _ thread).trans wakes)⟩
  · cases step

/-! ## The calls -/

section

variable {kernel next : Kernel} {home : ThreadId → Option ThreadNode} {outcome : Outcome}

/-- The section may suspend the running thread, if there is one. -/
def CurrentReady (kernel : Kernel) : Prop :=
  ∀ thread, kernel.rtCurrentThread = .thread thread → (kernel.threads thread).stat = .ready

theorem rtSemTake_keeps (inv : WaitInv kernel home) {sem : Nat} {time : BitVec 32}
    (eligible : time = 0#32 ∨ CurrentReady kernel)
    (step : rtSemTake kernel sem time = some (next, outcome)) :
    SectionKeeps kernel next outcome := by
  simp only [rtSemTake] at step
  split at step
  · obtain ⟨rfl, rfl⟩ := Prod.mk.inj (Option.some_inj.mp step)
    exact .of_wakes (inv.setSem _ _) (.setSem _ _ _) (by simp)
  · split at step
    · obtain ⟨rfl, rfl⟩ := Prod.mk.inj (Option.some_inj.mp step)
      exact .of_wakes inv (.refl kernel) (by simp)
    · rename_i waits
      split at step
      · rename_i thread current
        have isReady := eligible.resolve_left waits thread current
        exact .of_suspendOn (inv.setError thread .eok) (.setThread rfl) current isReady step
      · cases step

theorem rtSemRelease_keeps (inv : WaitInv kernel home) {sem : Nat}
    (step : rtSemRelease kernel sem = some (next, outcome)) :
    SectionKeeps kernel next outcome := by
  simp only [rtSemRelease] at step
  split at step
  · obtain ⟨rfl, rfl⟩ := Prod.mk.inj (Option.some_inj.mp step)
    exact .of_wakes (inv.setSem _ _) (.setSem _ _ _) (by simp)
  · obtain ⟨resumed, resume, done⟩ := Option.bind_eq_some_iff.mp step
    obtain ⟨rfl, rfl⟩ := Prod.mk.inj (Option.some_inj.mp done)
    exact .of_listResume inv (.refl kernel) resume

theorem rtSemControl_keeps (inv : WaitInv kernel home) {sem : Nat} {cmd : BitVec 8}
    {arg : BitVec 32} (step : rtSemControl kernel sem cmd arg = some (next, outcome)) :
    SectionKeeps kernel next outcome ∧ ∀ timer, outcome ≠ .suspends timer := by
  unfold rtSemControl at step
  split at step
  · obtain ⟨resumed, resume, done⟩ := Option.bind_eq_some_iff.mp step
    obtain ⟨rfl, rfl⟩ := Prod.mk.inj (Option.some_inj.mp done)
    obtain ⟨⟨home', kept⟩, wakes⟩ := WaitInv.rtIpcListResumeAll ⟨home, inv⟩ resume
    exact ⟨.of_wakes (kept.setSem _ _) (wakes.trans (.setSem _ _ _)) (by simp), by simp⟩
  · obtain ⟨rfl, rfl⟩ := Prod.mk.inj (Option.some_inj.mp step)
    exact ⟨.of_wakes inv (.refl kernel) (by simp), by simp⟩

theorem raiseOwner_keeps (inv : WaitInv kernel home) (owner thread : ThreadId) :
    (∃ home', WaitInv (raiseOwner kernel owner thread) home') ∧
      Wakes kernel (raiseOwner kernel owner thread) := by
  unfold raiseOwner
  dsimp only
  split
  · exact ⟨⟨_, inv.changePriority owner _⟩, .rtThreadChangePriority kernel owner _⟩
  · exact ⟨⟨home, inv⟩, .refl kernel⟩

theorem rtMutexTake_keeps (inv : WaitInv kernel home) {mutex : Nat} {time : BitVec 32}
    (eligible : CurrentReady kernel)
    (step : rtMutexTake kernel mutex time = some (next, outcome)) :
    SectionKeeps kernel next outcome := by
  unfold rtMutexTake at step
  split at step
  · rename_i thread current
    have reset := inv.setError thread .eok
    have wakes : Wakes kernel (kernel.setError thread .eok) := .setThread rfl
    dsimp only at step
    split at step
    · obtain ⟨rfl, rfl⟩ := Prod.mk.inj (Option.some_inj.mp step)
      exact .of_wakes (reset.setMutex _ _) (wakes.trans (.setMutex _ _ _)) (by simp)
    split at step
    · obtain ⟨rfl, rfl⟩ := Prod.mk.inj (Option.some_inj.mp step)
      exact .of_wakes (reset.setMutex _ _) (wakes.trans (.setMutex _ _ _)) (by simp)
    split at step
    · obtain ⟨rfl, rfl⟩ := Prod.mk.inj (Option.some_inj.mp step)
      exact .of_wakes (reset.setError thread .etimeout) (wakes.trans (.setThread rfl)) (by simp)
    split at step
    · rename_i owner _
      obtain ⟨⟨home', raised⟩, wakes'⟩ := raiseOwner_keeps reset owner thread
      exact .of_suspendOn raised (wakes.trans wakes') current (eligible thread current) step
    · cases step
  · cases step

theorem restorePriority_keeps (inv : WaitInv kernel home) (owner : ThreadId)
    (originalPriority : Nat) :
    (∃ home', WaitInv (restorePriority kernel owner originalPriority) home') ∧
      Wakes kernel (restorePriority kernel owner originalPriority) := by
  unfold restorePriority
  split
  · exact ⟨⟨_, inv.changePriority owner _⟩, .rtThreadChangePriority kernel owner _⟩
  · exact ⟨⟨home, inv⟩, .refl kernel⟩

theorem passMutex_keeps {middle : Kernel} (inv : WaitInv middle home) (wakes : Wakes kernel middle)
    {mutex : Nat} (step : passMutex middle mutex = some (next, outcome)) :
    SectionKeeps kernel next outcome := by
  simp only [passMutex] at step
  split at step
  · obtain ⟨rfl, rfl⟩ := Prod.mk.inj (Option.some_inj.mp step)
    exact .of_wakes (inv.setMutex _ _) (wakes.trans (.setMutex _ _ _)) (by simp)
  · split at step
    · obtain ⟨resumed, resume, done⟩ := Option.bind_eq_some_iff.mp step
      obtain ⟨rfl, rfl⟩ := Prod.mk.inj (Option.some_inj.mp done)
      exact .of_listResume (inv.setMutex _ _) (wakes.trans (.setMutex _ _ _)) resume
    · cases step

theorem rtMutexRelease_keeps (inv : WaitInv kernel home) {mutex : Nat}
    (step : rtMutexRelease kernel mutex = some (next, outcome)) :
    SectionKeeps kernel next outcome := by
  unfold rtMutexRelease at step
  split at step
  · rename_i thread current
    dsimp only at step
    split at step
    · obtain ⟨rfl, rfl⟩ := Prod.mk.inj (Option.some_inj.mp step)
      exact .of_wakes (inv.setError thread .error) (.setThread rfl) (by simp)
    have lowered := inv.setMutex mutex
      { kernel.mutexes mutex with hold := (kernel.mutexes mutex).hold - 1#8 }
    have wakes := Wakes.setMutex kernel mutex
      { kernel.mutexes mutex with hold := (kernel.mutexes mutex).hold - 1#8 }
    split at step
    · obtain ⟨⟨home', restored⟩, wakes'⟩ :=
        restorePriority_keeps lowered thread (kernel.mutexes mutex).originalPriority
      exact passMutex_keeps restored (wakes.trans wakes') step
    · obtain ⟨rfl, rfl⟩ := Prod.mk.inj (Option.some_inj.mp step)
      exact .of_wakes lowered wakes (by simp)
  · cases step

theorem clearEvent_keeps (inv : WaitInv kernel home) (event : Nat) (option : BitVec 8)
    (set : BitVec 32) :
    WaitInv (clearEvent kernel event option set) home ∧
      Wakes kernel (clearEvent kernel event option set) := by
  unfold clearEvent
  dsimp only
  split
  · exact ⟨inv.setEvent _ _, .setEvent _ _ _⟩
  · exact ⟨inv, .refl kernel⟩

theorem saveReceived_keeps (inv : WaitInv kernel home) (event : Nat) (thread : ThreadId) :
    WaitInv (saveReceived kernel event thread) home ∧
      Wakes kernel (saveReceived kernel event thread) := by
  unfold saveReceived
  dsimp only
  split
  · exact ⟨inv, .refl kernel⟩
  · exact ⟨inv.setThread_same _ rfl, .setThread rfl⟩

theorem resumeSatisfied_keeps (inv : WaitInv kernel home) (event : Nat) (thread : ThreadId) :
    (∃ home', WaitInv (resumeSatisfied kernel event thread) home') ∧
      Wakes kernel (resumeSatisfied kernel event thread) := by
  have saved := saveReceived_keeps inv event thread
  have cleared := clearEvent_keeps saved.1 event
  exact ⟨(cleared _ _).1.rtThreadResume thread,
    saved.2.trans ((cleared _ _).2.trans (.rtThreadResume _ thread))⟩

/-- The walk along the suspend list of an event, however it goes. -/
theorem eventSendLoop_keeps {event : Nat} {node : ThreadNode} {need need' : Bool}
    (inv : ∃ home, WaitInv kernel home)
    (step : eventSendLoop event kernel node need = some (next, need')) :
    (∃ home', WaitInv next home') ∧ Wakes kernel next := by
  revert inv
  refine Kernel.eventSendLoop.partial_correctness event
    (fun kernel _ _ result => (∃ home, WaitInv kernel home) →
      (∃ home', WaitInv result.1 home') ∧ Wakes kernel result.1) ?_ kernel node need
    (next, need') step
  intro loop ih kernel node need result step inv
  split at step
  · obtain rfl := Option.some_inj.mp step
    exact ⟨inv, .refl kernel⟩
  split at step
  · rename_i thread _
    dsimp only at step
    split at step
    · obtain ⟨home, waits⟩ := inv
      obtain ⟨resumed, wakes⟩ := resumeSatisfied_keeps waits event thread
      obtain ⟨rest, wakes'⟩ := ih _ _ _ _ step resumed
      exact ⟨rest, wakes.trans wakes'⟩
    · exact ih _ _ _ _ step inv
  · cases step

theorem rtEventSend_keeps (inv : WaitInv kernel home) {event : Nat} {set : BitVec 32}
    (step : rtEventSend kernel event set = some (next, outcome)) :
    SectionKeeps kernel next outcome := by
  unfold rtEventSend at step
  split at step
  · obtain ⟨rfl, rfl⟩ := Prod.mk.inj (Option.some_inj.mp step)
    exact .of_wakes inv (.refl kernel) (by simp)
  · obtain ⟨⟨walked, need⟩, walk, done⟩ := Option.bind_eq_some_iff.mp step
    obtain ⟨rfl, rfl⟩ := Prod.mk.inj (Option.some_inj.mp done)
    obtain ⟨⟨home', kept⟩, wakes⟩ := eventSendLoop_keeps ⟨home, inv.setEvent _ _⟩ walk
    refine .of_wakes kept ((Wakes.setEvent kernel _ _).trans wakes) ?_
    intro timer
    cases need <;> simp

theorem rtEventRecv_keeps (inv : WaitInv kernel home) {event : Nat} {set : BitVec 32}
    {option : BitVec 8} {timeout : BitVec 32} (eligible : CurrentReady kernel)
    (step : rtEventRecv kernel event set option timeout = some (next, outcome)) :
    SectionKeeps kernel next outcome := by
  unfold rtEventRecv at step
  split at step
  · obtain ⟨rfl, rfl⟩ := Prod.mk.inj (Option.some_inj.mp step)
    exact .of_wakes inv (.refl kernel) (by simp)
  split at step
  · rename_i thread current
    have reset := inv.setError thread .eok
    have wakes : Wakes kernel (kernel.setError thread .eok) := .setThread rfl
    dsimp only at step
    split at step
    · obtain ⟨rfl, rfl⟩ := Prod.mk.inj (Option.some_inj.mp step)
      have cleared := clearEvent_keeps reset event option set
      exact .of_wakes cleared.1 (wakes.trans cleared.2) (by simp)
    split at step
    · obtain ⟨rfl, rfl⟩ := Prod.mk.inj (Option.some_inj.mp step)
      exact .of_wakes (reset.setError thread .etimeout) (wakes.trans (.setThread rfl)) (by simp)
    · let record := { (kernel.setError thread .eok).threads thread with
        eventSet := set, eventInfo := option }
      have filled : WaitInv ((kernel.setError thread .eok).setThread thread record) home :=
        reset.setThread_same record rfl
      have wakes' : Wakes (kernel.setError thread .eok)
          ((kernel.setError thread .eok).setThread thread record) := .setThread rfl
      exact .of_suspendOn filled (wakes.trans wakes') current (eligible thread current) step
  · cases step

theorem rtEventControl_keeps (inv : WaitInv kernel home) {event : Nat} {cmd : BitVec 8}
    (step : rtEventControl kernel event cmd = some (next, outcome)) :
    SectionKeeps kernel next outcome ∧ ∀ timer, outcome ≠ .suspends timer := by
  unfold rtEventControl at step
  split at step
  · obtain ⟨resumed, resume, done⟩ := Option.bind_eq_some_iff.mp step
    obtain ⟨rfl, rfl⟩ := Prod.mk.inj (Option.some_inj.mp done)
    obtain ⟨⟨home', kept⟩, wakes⟩ := WaitInv.rtIpcListResumeAll ⟨home, inv⟩ resume
    exact ⟨.of_wakes (kept.setEvent _ _) (wakes.trans (.setEvent _ _ _)) (by simp), by simp⟩
  · obtain ⟨rfl, rfl⟩ := Prod.mk.inj (Option.some_inj.mp step)
    exact ⟨.of_wakes inv (.refl kernel) (by simp), by simp⟩

theorem rtMbSendRound_keeps (inv : WaitInv kernel home) {mailbox : Nat}
    {value timeout : BitVec 32} (eligible : CurrentReady kernel)
    (step : rtMbSendRound kernel mailbox value timeout = some (next, outcome)) :
    SectionKeeps kernel next outcome := by
  unfold rtMbSendRound at step
  dsimp only at step
  split at step
  · split at step
    · rename_i thread current
      have reset := inv.setError thread .eok
      have wakes : Wakes kernel (kernel.setError thread .eok) := .setThread rfl
      split at step
      · obtain ⟨rfl, rfl⟩ := Prod.mk.inj (Option.some_inj.mp step)
        exact .of_wakes reset wakes (by simp)
      · exact .of_suspendOn reset wakes current (eligible thread current) step
    · cases step
  · exact .of_resumeFirst (inv.setMailbox _ _) (.setMailbox _ _ _) step

theorem rtMbRecvRound_keeps (inv : WaitInv kernel home) {mailbox : Nat} {timeout : BitVec 32}
    (eligible : CurrentReady kernel)
    (step : rtMbRecvRound kernel mailbox timeout = some (next, outcome)) :
    SectionKeeps kernel next outcome := by
  unfold rtMbRecvRound at step
  dsimp only at step
  split at step
  · split at step
    · rename_i thread current
      have reset := inv.setError thread .eok
      have wakes : Wakes kernel (kernel.setError thread .eok) := .setThread rfl
      split at step
      · obtain ⟨rfl, rfl⟩ := Prod.mk.inj (Option.some_inj.mp step)
        exact .of_wakes (reset.setError thread .etimeout) (wakes.trans (.setThread rfl)) (by simp)
      · exact .of_suspendOn reset wakes current (eligible thread current) step
    · cases step
  · exact .of_resumeFirst (inv.setMailbox _ _) (.setMailbox _ _ _) step

theorem rtMbControl_keeps (inv : WaitInv kernel home) {mailbox : Nat} {cmd : BitVec 8}
    (step : rtMbControl kernel mailbox cmd = some (next, outcome)) :
    SectionKeeps kernel next outcome ∧ ∀ timer, outcome ≠ .suspends timer := by
  unfold rtMbControl at step
  split at step
  · obtain ⟨resumed, resume, step⟩ := Option.bind_eq_some_iff.mp step
    obtain ⟨cleared, clear, done⟩ := Option.bind_eq_some_iff.mp step
    obtain ⟨rfl, rfl⟩ := Prod.mk.inj (Option.some_inj.mp done)
    obtain ⟨kept, wakes⟩ := WaitInv.rtIpcListResumeAll ⟨home, inv⟩ resume
    obtain ⟨⟨home', kept'⟩, wakes'⟩ := WaitInv.rtIpcListResumeAll kept clear
    exact ⟨.of_wakes (kept'.setMailbox _ _) (wakes.trans (wakes'.trans (.setMailbox _ _ _)))
      (by simp), by simp⟩
  · obtain ⟨rfl, rfl⟩ := Prod.mk.inj (Option.some_inj.mp step)
    exact ⟨.of_wakes inv (.refl kernel) (by simp), by simp⟩

theorem threadSleepEnter_keeps (inv : WaitInv kernel home) {tick : BitVec 32}
    (eligible : CurrentReady kernel)
    (step : threadSleepEnter kernel tick = some (next, outcome)) :
    SectionKeeps kernel next outcome := by
  unfold threadSleepEnter at step
  split at step
  · rename_i thread current
    obtain ⟨⟨result, asleep⟩, start, done⟩ := Option.bind_eq_some_iff.mp step
    obtain ⟨rfl, rfl⟩ := Prod.mk.inj (Option.some_inj.mp done)
    have isReady := eligible thread current
    have rest := rtThreadSuspend_sameRest kernel thread
    have threads := rtThreadSuspend_threads isReady
    have timers : (rtThreadSuspend kernel thread).2.timers = kernel.timers := by
      simp [rtThreadSuspend, isReady, Kernel.setStat, Kernel.setThread]
    obtain ⟨rfl, active, armed, frame⟩ := (inv.suspendThread isReady).startTimer
      (by simp [threads]) (by rw [timers]; exact inv.stopped_of_ready isReady) start
    refine ⟨⟨_, armed⟩, ?_, ?_, ?_, ?_⟩
    · rw [frame]
      exact rest.current
    · rw [frame]
      exact rest.nest
    · intro other otherReady
      by_cases same : other = thread
      · subst same
        exact Or.inr ⟨current, _, rfl⟩
      · left
        rw [frame]
        simpa [threads, same] using otherReady
    · intro other result isCurrent suspends
      obtain rfl := ThreadPtr.thread.inj (current.symm.trans isCurrent)
      simp only [Outcome.suspends.injEq, Option.some.injEq] at suspends
      exact ⟨suspends.symm, active⟩
  · cases step

end

end RtThread
