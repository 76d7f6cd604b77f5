import RtThread.Std.Waiters
import RtThread.Kernel.WaitRuns
import RtThread.Kernel.WaitThins

/-!
# The order of the threads that wait

`rt_ipc_list_suspend` puts a thread into a list of flag `RT_IPC_FLAG_PRIO` behind those of
its priority. A step is one section, of any call and in any order, with the change of a
priority by `rt_thread_control` as one of them. Each thread is noted with the number of
the section that has suspended it.
-/

namespace RtThread

open RtThread.Std

/-- The kernel and the flags of the message queues; `arrival` is when each thread was
suspended last, and `clock` counts the sections that have suspended one. -/
structure SuspendLists where
  kernel : Kernel
  mqFlag : Nat → IpcFlag
  arrival : ThreadId → Nat
  clock : Nat

inductive SuspendAction where
  | schedulerStart
  | threadStartup (thread : ThreadId)
  | tickIncrease
  | schedule
  /-- The running thread executes the first section of a call. -/
  | enter (call : Call)
  /-- The running thread executes a later section of a call. -/
  | again (call : Call) (tickDelta : BitVec 32)
  /-- An interrupt handler executes a call. -/
  | handle (call : Call)
  /-- The running thread finds no message in a queue. -/
  | mqRecv (queue : Nat) (timeout : BitVec 32)
  /-- A message has been put into a queue. -/
  | mqSend (queue : Nat)
  /-- An object is reset, detached or deleted. -/
  | resumeAll (list : WaitList)
  /-- The two sections of `rt_thread_resume`. -/
  | resumeUnlink (thread : ThreadId)
  | resumeInsert (thread : ThreadId)
  | changePriority (thread : ThreadId) (priority : Nat)
deriving DecidableEq, Repr

namespace SuspendLists

/-- The flag of the object of a list. -/
def flag (state : SuspendLists) : WaitList → IpcFlag
  | .messageQueue index => state.mqFlag index
  | list => state.kernel.ipcFlag list

/-- The running thread, which is ready while it executes a call. -/
def runner (state : SuspendLists) : Option ThreadId :=
  match state.kernel.rtCurrentThread with
  | .thread thread => if (state.kernel.threads thread).stat = .ready then some thread else none
  | _ => none

/-- A section has suspended the thread. -/
def suspended (state : SuspendLists) (thread : ThreadId) (kernel : Kernel) : SuspendLists :=
  { state with
    kernel := kernel
    arrival := Function.update state.arrival thread state.clock
    clock := state.clock + 1 }

/-- What is left by a section of a call of this thread. -/
def settle (state : SuspendLists) (thread : ThreadId) (kernel : Kernel) :
    Outcome → SuspendLists × List Outcome
  | .suspends timer => (state.suspended thread kernel, [.suspends timer])
  | outcome => ({ state with kernel := kernel }, [outcome])

/-- What is left by a step of nobody. -/
def elapse (state : SuspendLists) (kernel : Kernel) : SuspendLists × List Outcome :=
  ({ state with kernel := kernel }, [])

/-- Nobody waits. -/
def boot (config : Config) (mqFlag : Nat → IpcFlag) : SuspendLists :=
  ⟨config.kernel, mqFlag, fun _ => 0, 0⟩

end SuspendLists

def suspendMachine : Machine SuspendLists SuspendAction Outcome where
  step state
    | .schedulerStart => some (state.elapse (rtSystemSchedulerStart state.kernel))
    | .threadStartup thread => (rtThreadStartup state.kernel thread).map state.elapse
    | .tickIncrease =>
        (rtTickIncrease threadTimeoutFunc state.kernel).map fun (kernel, _) => state.elapse kernel
    | .schedule => some (state.elapse (rtSchedule state.kernel))
    | .enter call => do
        let thread ← state.runner
        let (kernel, outcome) ← call.enter state.kernel
        pure (state.settle thread kernel outcome)
    | .again call tickDelta => do
        let thread ← state.runner
        let (kernel, outcome) ← call.again state.kernel thread tickDelta
        pure (state.settle thread kernel outcome)
    | .handle call =>
        if call.allowedIn (.handler 0) then do
          let (kernel, _) ← call.enter state.kernel
          pure (state.elapse kernel)
        else none
    | .mqRecv queue timeout => do
        let thread ← state.runner
        let (kernel, outcome) ← suspendOn (state.kernel.setError thread .eok) (.messageQueue queue)
          thread (state.mqFlag queue) timeout
        pure (state.settle thread kernel outcome)
    | .mqSend queue => do
        let (kernel, _) ← resumeFirst state.kernel (.messageQueue queue) none
        pure (state.elapse kernel)
    | .resumeAll list => (rtIpcListResumeAll list state.kernel).map state.elapse
    | .resumeUnlink thread => some (state.elapse (rtThreadResumeUnlink state.kernel thread))
    | .resumeInsert thread => some (state.elapse (rtScheduleInsertThread state.kernel thread))
    | .changePriority thread priority =>
        some (state.elapse (rtThreadChangePriority state.kernel thread priority))

namespace SuspendLists

/-- What a list of flag `RT_IPC_FLAG_PRIO` is sorted by. -/
def key (state : SuspendLists) (thread : ThreadId) : Lex (Nat × Nat) :=
  toLex ((state.kernel.threads thread).currentPriority, state.arrival thread)

/-- With this priority, a thread that waits on a list of flag `RT_IPC_FLAG_PRIO` stays
behind the threads in front of it and in front of those behind it. -/
def KeepsPlace (state : SuspendLists) (thread : ThreadId) (priority : Nat) : Prop :=
  ∀ list other, state.flag list = .prio → state.kernel.Waits list thread →
    state.kernel.Waits list other →
    (state.key thread < state.key other → toLex (priority, state.arrival thread) < state.key other) ∧
      (state.key other < state.key thread →
        state.key other < toLex (priority, state.arrival thread))

/-- A change of a priority keeps the place of the thread. So does `rt_mutex_take` with the
owner whose priority it raises, and `rt_thread_resume` inserts only a thread that has not
been linked again since its first section. -/
def KeepsPlaces (state : SuspendLists) : SuspendAction → Prop
  | .changePriority thread priority => state.KeepsPlace thread priority
  | .enter (.mutexTake mutex time) => ∀ thread owner, state.runner = some thread →
      (state.kernel.mutexes mutex).owner = some owner → (state.kernel.mutexes mutex).value = 0#16 →
      time ≠ 0#32 →
      (state.kernel.threads thread).currentPriority < (state.kernel.threads owner).currentPriority →
      state.KeepsPlace owner (state.kernel.threads thread).currentPriority
  | .resumeInsert thread =>
      (∀ head : ThreadNode, head.IsHead → ¬ state.kernel.threadLinks.Linked head (.tlist thread)) ∧
        (state.kernel.timers (.thread thread)).activated = false
  | _ => True

/-- The list is sorted by priority, and the threads of one priority by their arrival. -/
def Sorted (state : SuspendLists) (list : WaitList) : Prop :=
  ∃ queue, Queued state.kernel list queue ∧
    queue.Pairwise fun first second => state.key first < state.key second

/-- A release or a send, which resumes the first thread on the list, wakes the one of the
highest priority which has waited longest. -/
def WakesHighest (state : SuspendLists) (list : WaitList) : Prop :=
  state.kernel.threadLinks.isEmpty (.wait list) = false →
    ∃ thread, rtIpcListResume state.kernel list = some (rtThreadResume state.kernel thread).2 ∧
      state.kernel.Waits list thread ∧
      ∀ other, state.kernel.Waits list other → state.key thread ≤ state.key other

end SuspendLists

/-! ## Suspending a thread -/

/-- The list after `thread` has been suspended on it. -/
def insertWaiter (kernel : Kernel) (thread : ThreadId) (queue : List ThreadId) :
    IpcFlag → List ThreadId
  | .fifo => queue ++ [thread]
  | .prio =>
      let goesOn := fun sthread => !stopsSuspension kernel.threads thread (.tlist sthread)
      queue.takeWhile goesOn ++ thread :: queue.dropWhile goesOn

/-- A thread that is ready comes into the list where the search for its place ends. -/
theorem rtIpcListSuspend_queued {kernel next : Kernel} {home : ThreadId → Option ThreadNode}
    {list : WaitList} {thread : ThreadId} {flag : IpcFlag} (inv : WaitInv kernel home)
    (isReady : (kernel.threads thread).stat = .ready)
    (step : rtIpcListSuspend kernel list thread flag = some next) :
    (∀ other queue, other ≠ list → Queued kernel other queue → Queued next other queue) ∧
      ∀ queue, Queued kernel list queue →
        Queued next list (insertWaiter kernel thread queue flag) := by
  have links : (rtThreadSuspend kernel thread).2.threadLinks =
      kernel.threadLinks.unlink (.tlist thread) := by
    rw [rtThreadSuspend, if_neg (by simp [isReady])]
    unfold rtScheduleRemoveThread
    dsimp only
    split <;> rfl
  have plain := ThreadNode.not_isHead_tlist thread
  have unlinked : ∀ {lists}, Rings ThreadNode.IsHead kernel.threadLinks lists →
      Rings ThreadNode.IsHead (rtThreadSuspend kernel thread).2.threadLinks
        (fun head => (lists head).erase (.tlist thread)) := by
    intro lists rings
    rw [links]
    exact rings.unlink plain
  have free : ∀ {lists}, Rings ThreadNode.IsHead kernel.threadLinks lists →
      ∀ head : ThreadNode, head.IsHead → .tlist thread ∉ (lists head).erase (.tlist thread) :=
    fun rings head isHead => (rings.distinct head isHead).not_mem_erase
  -- A thread that is ready waits nowhere.
  have kept : ∀ {lists}, Rings ThreadNode.IsHead kernel.threadLinks lists →
      ∀ other, (lists (.wait other)).erase (.tlist thread) = lists (.wait other) := by
    intro lists rings other
    refine List.erase_of_not_mem fun member => ?_
    have linked := (rings.linked_iff (ThreadNode.isHead_wait other) _).mpr member
    exact inv.not_waiting_of_ready isReady other
      ((inv.linked_iff (ThreadNode.isHead_wait other) thread).mp linked)
  simp only [rtIpcListSuspend] at step
  cases flag with
  | fifo =>
      obtain rfl := Option.some_inj.mp step
      have linked : ∀ {lists}, Rings ThreadNode.IsHead kernel.threadLinks lists →
          Rings ThreadNode.IsHead
            ((rtThreadSuspend kernel thread).2.linkThreadBefore (.wait list) thread).threadLinks
            (Function.update (fun head => (lists head).erase (.tlist thread)) (.wait list)
              ((lists (.wait list)).erase (.tlist thread) ++ [.tlist thread])) :=
        fun rings => (unlinked rings).insertBefore_head (ThreadNode.isHead_wait list) plain
          (free rings)
      refine ⟨?_, ?_⟩
      · rintro other queue apart ⟨lists, rings, shape⟩
        refine ⟨_, linked rings, ?_⟩
        rw [Function.update_of_ne (by simpa using apart), kept rings, shape]
      · rintro queue ⟨lists, rings, shape⟩
        refine ⟨_, linked rings, ?_⟩
        rw [Function.update_self, kept rings, shape, insertWaiter, List.map_append]
        rfl
  | prio =>
      obtain ⟨position, scan, done⟩ := Option.bind_eq_some_iff.mp step
      obtain rfl := Option.some_inj.mp done
      have stops : stopsSuspension (rtThreadSuspend kernel thread).2.threads thread =
          stopsSuspension kernel.threads thread := by
        have same : ∀ other, ((rtThreadSuspend kernel thread).2.threads other).currentPriority =
            (kernel.threads other).currentPriority := by
          intro other
          rw [rtThreadSuspend_threads isReady]
          by_cases self : other = thread
          · rw [self, Function.update_self]
          · rw [Function.update_of_ne self]
        funext node
        cases node with
        | tlist sthread =>
            rw [stopsSuspension, stopsSuspension, same, same]
        | ready priority => rfl
        | defunct => rfl
        | wait list => rfl
      rw [stops] at scan
      have linked : ∀ {lists}, Rings ThreadNode.IsHead kernel.threadLinks lists →
          Rings ThreadNode.IsHead
            ((rtThreadSuspend kernel thread).2.linkThreadBefore position thread).threadLinks
            (Function.update (fun head => (lists head).erase (.tlist thread)) (.wait list)
              (((lists (.wait list)).erase (.tlist thread)).takeWhile
                (fun other => !stopsSuspension kernel.threads thread other) ++ .tlist thread ::
                ((lists (.wait list)).erase (.tlist thread)).dropWhile
                  (fun other => !stopsSuspension kernel.threads thread other))) := by
        intro lists rings
        have ends := (unlinked rings).scan_eq (ThreadNode.isHead_wait list)
          (stopsSuspension kernel.threads thread)
        obtain rfl := Option.some_inj.mp (scan.symm.trans ends)
        exact (unlinked rings).insertBefore_scan (ThreadNode.isHead_wait list) plain (free rings)
          (stopsSuspension kernel.threads thread)
      refine ⟨?_, ?_⟩
      · rintro other queue apart ⟨lists, rings, shape⟩
        refine ⟨_, linked rings, ?_⟩
        rw [Function.update_of_ne (by simpa using apart), kept rings, shape]
      · rintro queue ⟨lists, rings, shape⟩
        refine ⟨_, linked rings, ?_⟩
        rw [Function.update_self, kept rings, shape, insertWaiter,
          List.map_append, List.map_cons, List.takeWhile_map, List.dropWhile_map]
        rfl

theorem mem_insertWaiter {kernel : Kernel} {thread other : ThreadId} {queue : List ThreadId}
    {flag : IpcFlag} : other ∈ insertWaiter kernel thread queue flag ↔
      other = thread ∨ other ∈ queue := by
  cases flag with
  | fifo => simp [insertWaiter, or_comm]
  | prio =>
      rw [insertWaiter]
      conv_rhs => rw [← @List.takeWhile_append_dropWhile _
        (fun sthread => !stopsSuspension kernel.threads thread (.tlist sthread)) queue]
      simp only [List.mem_append, List.mem_cons]
      exact or_left_comm

namespace SuspendLists

variable {state : SuspendLists} {kernel middle : Kernel} {thread : ThreadId} {list : WaitList}

/-- What holds between the sections. -/
structure OrderInv (state : SuspendLists) : Prop where
  homes : ∃ home, WaitInv state.kernel home
  sorted : ∀ list, state.flag list = .prio → state.Sorted list
  arrived : ∀ list thread, state.kernel.Waits list thread → state.arrival thread < state.clock

theorem flag_congr {mqFlag : Nat → IpcFlag} {arrival arrival' : ThreadId → Nat} {clock clock' : Nat}
    (flags : middle.ipcFlag = kernel.ipcFlag) (list : WaitList) :
    flag ⟨middle, mqFlag, arrival, clock⟩ list = flag ⟨kernel, mqFlag, arrival', clock'⟩ list := by
  cases list with
  | messageQueue index => rfl
  | _ => simp only [flag, flags]

/-- Threads that leave their lists do not disturb the others. -/
theorem OrderInv.thins (inv : OrderInv state) (thins : Thins state.kernel kernel)
    (homes : ∃ home, WaitInv kernel home) : OrderInv { state with kernel := kernel } where
  homes := homes
  sorted list prio := by
    obtain ⟨queue, queued, sorted⟩ := inv.sorted list (by rwa [← flag_congr thins.flags])
    obtain ⟨rest, left, sublist, same⟩ := thins.queues list queue queued
    refine ⟨rest, left, (sorted.sublist sublist).imp_of_mem ?_⟩
    intro first second member member' before
    have keys : ∀ thread ∈ rest, key { state with kernel := kernel } thread = state.key thread := by
      intro thread member
      rw [key, key, same thread member]
    rwa [keys first member, keys second member']
  arrived list thread waits := by
    obtain ⟨home, placed⟩ := inv.homes
    obtain ⟨queue, queued⟩ := placed.queued list
    obtain ⟨rest, left, sublist, -⟩ := thins.queues list queue queued
    have member := sublist.subset ((left.waits_iff thread).mp waits)
    exact inv.arrived list thread ((queued.waits_iff thread).mpr member)

theorem suspendOn_suspends {next : Kernel} {flag : IpcFlag} {time : BitVec 32} {outcome : Outcome}
    (step : suspendOn kernel list thread flag time = some (next, outcome)) :
    ∃ timer, outcome = .suspends timer := by
  obtain ⟨suspended, -, step⟩ := Option.bind_eq_some_iff.mp step
  dsimp only at step
  split at step
  · obtain ⟨⟨result, started⟩, -, made⟩ := Option.bind_eq_some_iff.mp step
    exact ⟨_, (Prod.mk.inj (Option.some_inj.mp made)).2.symm⟩
  · exact ⟨_, (Prod.mk.inj (Option.some_inj.mp step)).2.symm⟩

/-- Where a thread that is ready comes in. -/
theorem suspendOn_queued {next : Kernel} {home : ThreadId → Option ThreadNode} {flag : IpcFlag}
    (inv : WaitInv kernel home) (isReady : (kernel.threads thread).stat = .ready)
    {time : BitVec 32} {outcome : Outcome}
    (step : suspendOn kernel list thread flag time = some (next, outcome)) :
    (∀ other queue, other ≠ list → Queued kernel other queue → Queued next other queue) ∧
      (∀ queue, Queued kernel list queue →
        Queued next list (insertWaiter kernel thread queue flag)) ∧
      (∀ other, (next.threads other).currentPriority = (kernel.threads other).currentPriority) ∧
      next.ipcFlag = kernel.ipcFlag := by
  have threads := (inv.suspendOn isReady step).2.2.1
  have rest := (inv.suspendOn isReady step).2.1
  obtain ⟨suspended, suspends, step⟩ := Option.bind_eq_some_iff.mp step
  obtain ⟨others, mine⟩ := rtIpcListSuspend_queued inv isReady suspends
  have links : next.threadLinks = suspended.threadLinks := by
    dsimp only at step
    split at step
    · obtain ⟨⟨result, started⟩, start, made⟩ := Option.bind_eq_some_iff.mp step
      obtain ⟨rfl, -⟩ := Prod.mk.inj (Option.some_inj.mp made)
      have frame := rtTimerStart_frame start
      dsimp only
      rw [frame]
      rfl
    · obtain ⟨rfl, -⟩ := Prod.mk.inj (Option.some_inj.mp step)
      rfl
  refine ⟨fun other queue apart queued => (others other queue apart queued).congr links,
    fun queue queued => (mine queue queued).congr links, fun other => ?_, ?_⟩
  · rw [threads]
    by_cases self : other = thread
    · rw [self, Function.update_self]
    · rw [Function.update_of_ne self]
  · exact Kernel.ipcFlag_congr rest.objects

theorem suspended_key_of_ne {other : ThreadId} (apart : other ≠ thread)
    (priority : (kernel.threads other).currentPriority =
      (state.kernel.threads other).currentPriority) :
    (state.suspended thread kernel).key other = state.key other := by
  rw [key, key, suspended]
  dsimp only
  rw [priority, Function.update_of_ne apart]

theorem suspended_key (priority : (kernel.threads thread).currentPriority =
      (state.kernel.threads thread).currentPriority) :
    (state.suspended thread kernel).key thread =
      toLex ((state.kernel.threads thread).currentPriority, state.clock) := by
  rw [key, suspended]
  dsimp only
  rw [priority, Function.update_self]

/-- A thread that is suspended comes in behind the threads of its priority. -/
theorem OrderInv.suspendOn (inv : OrderInv state)
    (isReady : (state.kernel.threads thread).stat = .ready) {time : BitVec 32} {outcome : Outcome}
    (step : suspendOn state.kernel list thread (state.flag list) time = some (kernel, outcome)) :
    OrderInv (state.suspended thread kernel) := by
  obtain ⟨home, waits⟩ := inv.homes
  obtain ⟨others, mine, priority, flags⟩ := suspendOn_queued waits isReady step
  have absent : ∀ {other queue}, Queued state.kernel other queue → thread ∉ queue := by
    intro other queue queued member
    cases isReady.symm.trans (waits.suspended_of_queued queued thread member)
  have keys : ∀ {other queue}, Queued state.kernel other queue →
      ∀ thread' ∈ queue, (state.suspended thread kernel).key thread' = state.key thread' :=
    fun queued thread' member =>
      suspended_key_of_ne (ne_of_mem_of_not_mem member (absent queued)) (priority thread')
  have stay : ∀ {other queue}, Queued state.kernel other queue →
      (queue.Pairwise fun first second => state.key first < state.key second) →
      queue.Pairwise fun first second => (state.suspended thread kernel).key first <
        (state.suspended thread kernel).key second := by
    intro other queue queued sorted
    refine sorted.imp_of_mem fun {first second} member member' before => ?_
    rwa [keys queued first member, keys queued second member']
  refine ⟨⟨_, (waits.suspendOn isReady step).1⟩, fun other prio => ?_,
    fun other thread' waits' => ?_⟩
  · replace prio : state.flag other = .prio := (flag_congr flags other).symm.trans prio
    obtain ⟨queue, queued, sorted⟩ := inv.sorted other prio
    by_cases same : other = list
    · subst same
      refine ⟨_, mine queue queued, ?_⟩
      rw [prio, insertWaiter]
      refine pairwise_insert lt_trans (stay queued sorted) ?_ ?_
      · intro sthread member passes
        rw [keys queued sthread member, suspended_key (priority thread), key,
          Prod.Lex.toLex_lt_toLex]
        have early := inv.arrived other sthread ((queued.waits_iff sthread).mpr member)
        have above := of_decide_eq_false passes
        dsimp only
        omega
      · intro sthread member stops
        rw [keys queued sthread member, suspended_key (priority thread), key,
          Prod.Lex.toLex_lt_toLex]
        exact .inl (of_decide_eq_true stops)
    · exact ⟨queue, others other queue same queued, stay queued sorted⟩
  · rw [suspended]
    dsimp only
    by_cases self : thread' = thread
    · rw [self, Function.update_self]
      exact Nat.lt_succ_self _
    · rw [Function.update_of_ne self]
      refine Nat.lt_succ_of_lt (inv.arrived other thread' ?_)
      obtain ⟨queue, queued⟩ := waits.queued other
      by_cases same : other = list
      · subst same
        have member := ((mine queue queued).waits_iff thread').mp waits'
        exact (queued.waits_iff thread').mpr ((mem_insertWaiter.mp member).resolve_left self)
      · have member := ((others other queue same queued).waits_iff thread').mp waits'
        exact (queued.waits_iff thread').mpr member

/-- A change of priority that keeps the place of the thread keeps the order. -/
theorem OrderInv.changePriority (inv : OrderInv state) {priority : Nat}
    (keeps : state.KeepsPlace thread priority) :
    OrderInv { state with kernel := rtThreadChangePriority state.kernel thread priority } := by
  obtain ⟨home, waits⟩ := inv.homes
  by_cases isReady : (state.kernel.threads thread).stat = .ready
  · exact inv.thins (.changePriority priority isReady) ⟨_, waits.changePriority thread priority⟩
  · have changed : rtThreadChangePriority state.kernel thread priority =
        setPriority state.kernel thread priority := if_neg isReady
    have homes := waits.changePriority thread priority
    rw [changed] at homes ⊢
    let next : SuspendLists := { state with kernel := setPriority state.kernel thread priority }
    have own : next.key thread = toLex (priority, state.arrival thread) := by
      simp [next, key, setPriority, Kernel.setThread]
    have keys : ∀ other, other ≠ thread → next.key other = state.key other := by
      intro other apart
      simp [next, key, setPriority, Kernel.setThread, apart]
    refine ⟨⟨_, homes⟩, fun list prio => ?_, inv.arrived⟩
    obtain ⟨queue, queued, sorted⟩ := inv.sorted list prio
    have waiting : ∀ other ∈ queue, state.kernel.Waits list other :=
      fun other member => (queued.waits_iff other).mpr member
    refine ⟨queue, queued.congr rfl, sorted.imp_of_mem ?_⟩
    intro first second member member' before
    change next.key first < next.key second
    by_cases same : first = thread
    · subst same
      have apart : second ≠ first := by
        rintro rfl
        exact lt_irrefl _ before
      rw [own, keys second apart]
      exact (keeps list second prio (waiting first member) (waiting second member')).1 before
    · rw [keys first same]
      by_cases same' : second = thread
      · subst same'
        rw [own]
        exact (keeps list first prio (waiting second member') (waiting first member)).2 before
      · rw [keys second same']
        exact before

/-- When a thread that does not wait was suspended last does not matter. -/
theorem OrderInv.stamp (inv : OrderInv state) (loose : ∀ list, ¬ state.kernel.Waits list thread) :
    OrderInv (state.suspended thread state.kernel) where
  homes := inv.homes
  sorted list prio := by
    obtain ⟨queue, queued, sorted⟩ := inv.sorted list prio
    have keys : ∀ other ∈ queue,
        (state.suspended thread state.kernel).key other = state.key other := by
      intro other member
      refine suspended_key_of_ne ?_ rfl
      rintro rfl
      exact loose list ((queued.waits_iff other).mpr member)
    refine ⟨queue, queued, sorted.imp_of_mem fun {first second} member member' before => ?_⟩
    rwa [keys first member, keys second member']
  arrived list other waits := by
    rw [suspended]
    dsimp only
    rw [Function.update_of_ne (by rintro rfl; exact loose list waits)]
    exact Nat.lt_succ_of_lt (inv.arrived list other waits)

/-- A call of the running thread that has suspended nobody, or the running thread. -/
theorem OrderInv.settle {outcome : Outcome} (inv : OrderInv state)
    (isReady : (state.kernel.threads thread).stat = .ready)
    (current : state.kernel.rtCurrentThread = .thread thread)
    (effect : QueueEffect state.kernel kernel outcome)
    (homes : ∃ home, WaitInv kernel home) : OrderInv (state.settle thread kernel outcome).1 := by
  cases effect with
  | thins thins =>
      have kept : OrderInv { state with kernel := kernel } := inv.thins thins homes
      obtain ⟨home, waits⟩ := inv.homes
      cases outcome with
      | suspends timer =>
          refine kept.stamp fun list waits' => ?_
          obtain ⟨queue, queued⟩ := waits.queued list
          obtain ⟨rest, left, sublist, -⟩ := thins.queues list queue queued
          have member := sublist.subset ((left.waits_iff thread).mp waits')
          cases isReady.symm.trans (waits.suspended_of_queued queued thread member)
      | returns result output => exact kept
      | reschedules output => exact kept
  | @suspends middle list thread' time kind alike current' step =>
      obtain rfl := ThreadPtr.thread.inj (current.symm.trans current')
      obtain ⟨home, waits⟩ := inv.homes
      have reached : OrderInv { state with kernel := middle } := inv.thins alike.thins
        ⟨home, waits.congr alike.links alike.timerLinks alike.timers alike.stat⟩
      have flag : flag { state with kernel := middle } list = state.kernel.ipcFlag list := by
        rw [flag_congr alike.flags]
        cases list with
        | messageQueue index => exact absurd rfl (kind index)
        | _ => rfl
      rw [← flag] at step
      obtain ⟨timer, rfl⟩ := suspendOn_suspends step
      exact reached.suspendOn ((alike.stat thread).trans isReady) step

/-- `rt_mutex_take`, which may raise the owner before it suspends its thread. -/
theorem OrderInv.mutexTake {outcome : Outcome} {mutex : Nat} {time : BitVec 32}
    (inv : OrderInv state) (runs : state.runner = some thread)
    (isReady : (state.kernel.threads thread).stat = .ready)
    (current : state.kernel.rtCurrentThread = .thread thread)
    (keeps : state.KeepsPlaces (.enter (.mutexTake mutex time)))
    (enter : rtMutexTake state.kernel mutex time = some (kernel, outcome))
    (homes : ∃ home, WaitInv kernel home) : OrderInv (state.settle thread kernel outcome).1 := by
  rcases rtMutexTake_queues enter with thins | ⟨thread', owner, current', owned, taken, waits, step⟩
  · exact inv.settle isReady current (.thins thins) homes
  · obtain rfl := ThreadPtr.thread.inj (current.symm.trans current')
    let reset : SuspendLists := { state with kernel := state.kernel.setError thread .eok }
    have priority : ∀ other, (reset.kernel.threads other).currentPriority =
        (state.kernel.threads other).currentPriority :=
      (Alike.setError state.kernel thread .eok).priority
    have keys : ∀ other, reset.key other = state.key other := by
      intro other
      rw [key, key, priority]
    have marked : OrderInv reset := by
      obtain ⟨home, placed⟩ := inv.homes
      exact inv.thins (.setError state.kernel thread .eok) ⟨home, placed.setError thread .eok⟩
    have raised : OrderInv { state with kernel := raiseOwner reset.kernel owner thread } ∧
        ((raiseOwner reset.kernel owner thread).threads thread).stat = .ready ∧
          (raiseOwner reset.kernel owner thread).ipcFlag = state.kernel.ipcFlag := by
      have ready : (reset.kernel.threads thread).stat = .ready :=
        ((Alike.setError state.kernel thread .eok).stat thread).trans isReady
      unfold raiseOwner
      dsimp only
      split
      · rename_i higher
        rw [priority, priority] at higher
        have place : reset.KeepsPlace owner (reset.kernel.threads thread).currentPriority := by
          intro list other prio waits' waits''
          rw [keys, keys, priority]
          exact keeps thread owner runs owned taken waits higher list other prio waits' waits''
        refine ⟨marked.changePriority place, ?_, ?_⟩
        · rw [rtThreadChangePriority_threads, Function.update_of_ne ?_]
          · exact ready
          · rintro rfl
            exact absurd higher (lt_irrefl _)
        · exact Kernel.ipcFlag_congr (rtThreadChangePriority_sameRest ..).objects
      · exact ⟨marked, ready, rfl⟩
    obtain ⟨placed, ready, flags⟩ := raised
    have flag : flag { state with kernel := raiseOwner reset.kernel owner thread } (.mutex mutex) =
        (state.kernel.mutexes mutex).flag := congrFun flags (.mutex mutex)
    rw [← flag] at step
    obtain ⟨timer, rfl⟩ := suspendOn_suspends step
    exact placed.suspendOn ready step

theorem runner_eq_some (runs : state.runner = some thread) :
    state.kernel.rtCurrentThread = .thread thread ∧
      (state.kernel.threads thread).stat = .ready := by
  unfold runner at runs
  split at runs
  · rename_i current same
    obtain ⟨isReady, made⟩ := Option.ite_none_right_eq_some.mp runs
    obtain rfl := Option.some_inj.mp made
    exact ⟨same, isReady⟩
  · cases runs

theorem currentReady (runs : state.runner = some thread) : CurrentReady state.kernel := by
  obtain ⟨current, isReady⟩ := runner_eq_some runs
  intro other same
  obtain rfl := ThreadPtr.thread.inj (current.symm.trans same)
  exact isReady

/-- Each section keeps the order. -/
theorem OrderInv.step {next : SuspendLists} {action : SuspendAction} {shown : List Outcome}
    (inv : OrderInv state) (keeps : state.KeepsPlaces action)
    (step : suspendMachine.step state action = some (next, shown)) : OrderInv next := by
  obtain ⟨home, waits⟩ := inv.homes
  cases action with
  | schedulerStart =>
      obtain ⟨rfl, -⟩ := Prod.mk.inj (Option.some_inj.mp step)
      exact inv.thins (.of_same rfl (fun _ => rfl) rfl)
        ⟨home, waits.congr rfl rfl rfl fun _ => rfl⟩
  | threadStartup thread =>
      obtain ⟨kernel, startup, made⟩ := Option.map_eq_some_iff.mp step
      obtain ⟨rfl, -⟩ := Prod.mk.inj made
      refine inv.thins (.threadStartup startup) ?_
      obtain ⟨-, started, -, waits', -, rfl | rfl⟩ := waits.threadStartup startup
      · exact ⟨_, waits'⟩
      · exact ⟨_, waits'.schedule⟩
  | tickIncrease =>
      obtain ⟨⟨kernel, fired⟩, tick, made⟩ := Option.map_eq_some_iff.mp step
      obtain ⟨rfl, -⟩ := Prod.mk.inj made
      obtain ⟨home', waits', -⟩ := waits.tickIncrease tick
      exact inv.thins (.tickIncrease tick) ⟨home', waits'⟩
  | schedule =>
      obtain ⟨rfl, -⟩ := Prod.mk.inj (Option.some_inj.mp step)
      exact inv.thins (.schedule state.kernel) ⟨home, waits.schedule⟩
  | enter call =>
      obtain ⟨thread, runs, step⟩ := Option.bind_eq_some_iff.mp step
      obtain ⟨⟨kernel, outcome⟩, enter, made⟩ := Option.bind_eq_some_iff.mp step
      obtain rfl := (congrArg Prod.fst (Option.some_inj.mp made) : _ = next)
      obtain ⟨current, isReady⟩ := runner_eq_some runs
      have homes := (Call.enter_keeps waits (currentReady runs) enter).homes
      by_cases takes : ∃ mutex time, call = .mutexTake mutex time
      · obtain ⟨mutex, time, rfl⟩ := takes
        exact inv.mutexTake runs isReady current keeps enter homes
      · refine inv.settle isReady current (Call.enter_queues ?_ ?_ enter) homes
        · exact fun mutex time same => takes ⟨mutex, time, same⟩
        · exact fun _ _ => currentReady runs
  | again call tickDelta =>
      obtain ⟨thread, runs, step⟩ := Option.bind_eq_some_iff.mp step
      obtain ⟨⟨kernel, outcome⟩, again, made⟩ := Option.bind_eq_some_iff.mp step
      obtain rfl := (congrArg Prod.fst (Option.some_inj.mp made) : _ = next)
      obtain ⟨current, isReady⟩ := runner_eq_some runs
      exact inv.settle isReady current (Call.again_queues again)
        (Call.again_keeps waits (currentReady runs) again).homes
  | handle call =>
      obtain ⟨allowed, step⟩ := Option.ite_none_right_eq_some.mp step
      obtain ⟨⟨kernel, outcome⟩, enter, made⟩ := Option.bind_eq_some_iff.mp step
      obtain ⟨rfl, -⟩ := Prod.mk.inj (Option.some_inj.mp made)
      obtain ⟨keeps', returns⟩ := Call.enter_handler waits allowed enter
      have effect : QueueEffect state.kernel kernel outcome := by
        refine Call.enter_queues ?_ ?_ enter
        · rintro mutex time rfl
          cases allowed
        · rintro mutex rfl
          cases allowed
      cases effect with
      | thins thins => exact inv.thins thins keeps'.homes
      | suspends kind alike current suspends =>
          obtain ⟨timer, rfl⟩ := suspendOn_suspends suspends
          exact absurd rfl (returns timer)
  | mqRecv queue timeout =>
      obtain ⟨thread, runs, step⟩ := Option.bind_eq_some_iff.mp step
      obtain ⟨⟨kernel, outcome⟩, suspends, made⟩ := Option.bind_eq_some_iff.mp step
      obtain rfl := (congrArg Prod.fst (Option.some_inj.mp made) : _ = next)
      obtain ⟨current, isReady⟩ := runner_eq_some runs
      have alike := Alike.setError state.kernel thread .eok
      have marked := inv.thins alike.thins ⟨home, waits.setError thread .eok⟩
      obtain ⟨timer, rfl⟩ := suspendOn_suspends suspends
      exact marked.suspendOn ((alike.stat thread).trans isReady) suspends
  | mqSend queue =>
      obtain ⟨⟨kernel, outcome⟩, resumes, made⟩ := Option.bind_eq_some_iff.mp step
      obtain ⟨rfl, -⟩ := Prod.mk.inj (Option.some_inj.mp made)
      exact inv.thins (.resumeFirst resumes)
        (SectionKeeps.of_resumeFirst waits (.refl state.kernel) resumes).homes
  | resumeAll list =>
      obtain ⟨kernel, resumes, made⟩ := Option.map_eq_some_iff.mp step
      obtain ⟨rfl, -⟩ := Prod.mk.inj made
      exact inv.thins (.listResumeAll resumes) (WaitInv.rtIpcListResumeAll ⟨home, waits⟩ resumes).1
  | resumeUnlink thread =>
      obtain ⟨rfl, -⟩ := Prod.mk.inj (Option.some_inj.mp step)
      refine inv.thins ?_ ⟨_, waits.resumeUnlink thread⟩
      exact @Thins.of_unlink _ _ thread rfl (fun _ _ => rfl) rfl
  | resumeInsert thread =>
      obtain ⟨rfl, -⟩ := Prod.mk.inj (Option.some_inj.mp step)
      obtain ⟨loose, stopped⟩ := keeps
      have homeless : home thread = none := by
        cases place : home thread with
        | none => rfl
        | some head =>
            have isHead : head.IsHead := by
              obtain ⟨lists, -, homes⟩ := waits.placed
              exact ((homes (.tlist thread) head).mp place).1
            exact absurd ((waits.linked_iff isHead thread).mpr place) (loose head isHead)
      refine inv.thins ?_ ⟨_, waits.insertThread homeless stopped⟩
      refine Thins.of_link loose rfl (fun other => ?_) rfl
      by_cases same : other = thread
      · simp [same]
      · simp [same]
  | changePriority thread priority =>
      obtain ⟨rfl, -⟩ := Prod.mk.inj (Option.some_inj.mp step)
      exact inv.changePriority keeps

theorem orderInv_boot (config : Config) (mqFlag : Nat → IpcFlag) :
    OrderInv (boot config mqFlag) where
  homes := ⟨_, WaitInv.initial config⟩
  sorted list _ := ⟨[], ⟨fun _ => [], Rings.nil _, rfl⟩, .nil⟩
  arrived list thread waits := by
    have inv := WaitInv.initial config
    cases (inv.linked_iff (ThreadNode.isHead_wait list) thread).mp waits

/-- The first thread of a list that is sorted is the one to be woken. -/
theorem Sorted.wakesHighest (sorted : state.Sorted list) : state.WakesHighest list := by
  intro occupied
  obtain ⟨queue, queued, sorted⟩ := sorted
  cases queue with
  | nil =>
      rw [queued.isEmpty_iff.mpr rfl] at occupied
      cases occupied
  | cons thread queue =>
      refine ⟨thread, ?_, (queued.waits_iff thread).mpr List.mem_cons_self, fun other waits => ?_⟩
      · rw [rtIpcListResume, queued.front]
        rfl
      · rcases List.mem_cons.mp ((queued.waits_iff other).mp waits) with rfl | member
        · exact le_refl _
        · exact ((List.pairwise_cons.mp sorted).1 other member).le

end SuspendLists

open SuspendLists in
/-- In every run in which the priority of a thread that waits is only changed so that it
keeps its place, each list of flag `RT_IPC_FLAG_PRIO` is sorted by priority, the threads of
one priority by their arrival, and the first thread on it is the one to be woken. -/
theorem prio_lists_sorted {config : Config} {mqFlag : Nat → IpcFlag}
    {actions : List SuspendAction} {events : List Outcome} {state : SuspendLists}
    (run : suspendMachine.Run KeepsPlaces (.boot config mqFlag) actions events state) :
    ∀ list, state.flag list = .prio → state.Sorted list ∧ state.WakesHighest list := by
  have inv := run.invariant (orderInv_boot config mqFlag)
    fun state action next emitted inv keeps step => OrderInv.step inv keeps step
  exact fun list prio => ⟨inv.sorted list prio, (inv.sorted list prio).wakesHighest⟩

/-! ## Two threads at a semaphore -/

theorem rtSemTake_waits_last {kernel : Kernel} {thread : ThreadId} {sem : Nat}
    (current : kernel.rtCurrentThread = .thread thread) (taken : (kernel.sems sem).value = 0#16)
    (flag : (kernel.sems sem).flag = .prio)
    (ends : (rtThreadSuspend (kernel.setError thread .eok) thread).2.threadLinks.scan
      (.wait (.sem sem))
      (stopsSuspension (rtThreadSuspend (kernel.setError thread .eok) thread).2.threads thread)
      ((rtThreadSuspend (kernel.setError thread .eok) thread).2.threadLinks.next
        (.wait (.sem sem))) = some (.wait (.sem sem))) :
    rtSemTake kernel sem 0xffffffff =
      some ((rtThreadSuspend (kernel.setError thread .eok) thread).2.linkThreadBefore
        (.wait (.sem sem)) thread, .suspends none) := by
  have suspends : rtIpcListSuspend (kernel.setError thread .eok) (.sem sem) thread .prio =
      some ((rtThreadSuspend (kernel.setError thread .eok) thread).2.linkThreadBefore
        (.wait (.sem sem)) thread) := by
    rw [rtIpcListSuspend, ends]
    rfl
  rw [rtSemTake, if_neg (by simp [taken]), if_neg (by decide), current]
  change suspendOn (kernel.setError thread .eok) (.sem sem) thread (kernel.sems sem).flag _ = _
  rw [flag, suspendOn, suspends]
  rfl

/-- The semaphores are of flag `RT_IPC_FLAG_PRIO`. -/
def prioSemaphores : Config := { twoThreads with semFlag := fun _ => .prio }

/-- Two threads have been started, and the first one runs. -/
def bothReady : Kernel :=
  { ((rtThreadStartup prioSemaphores.kernel 0).bind
      fun kernel => rtThreadStartup kernel 1).getD prioSemaphores.kernel with
    rtCurrentThread := .thread 0 }

/-- The first one waits, and the second one runs. -/
def firstWaits : Kernel :=
  { (rtThreadSuspend (bothReady.setError 0 .eok) 0).2.linkThreadBefore (.wait (.sem 0)) 0 with
    rtCurrentPriority := 10
    rtCurrentThread := .thread 1 }

/-- Both wait. -/
def bothWait : Kernel :=
  (rtThreadSuspend (firstWaits.setError 1 .eok) 1).2.linkThreadBefore (.wait (.sem 0)) 1

/-- What has happened then. -/
def bothWaitState : SuspendLists :=
  ⟨bothWait, fun _ => .fifo, Function.update (Function.update (fun _ => 0) 0 0) 1 1, 2⟩

def bothWaitActions : List SuspendAction :=
  [.threadStartup 0, .threadStartup 1, .schedulerStart, .enter (.semTake 0 0xffffffff), .schedule,
    .enter (.semTake 0 0xffffffff)]

theorem enter_step {state : SuspendLists} {thread : ThreadId} {call : Call} {kernel : Kernel}
    {outcome : Outcome} (runs : state.runner = some thread)
    (enter : call.enter state.kernel = some (kernel, outcome)) :
    suspendMachine.step state (.enter call) = some (state.settle thread kernel outcome) := by
  rw [suspendMachine]
  dsimp only
  rw [runs, enter]
  rfl

theorem bothWait_execute :
    suspendMachine.execute (.boot prioSemaphores fun _ => .fifo) bothWaitActions =
      some (bothWaitState, [.suspends none, .suspends none]) := by
  have started : suspendMachine.execute (.boot prioSemaphores fun _ => .fifo)
      [.threadStartup 0, .threadStartup 1, .schedulerStart] =
        some (⟨bothReady, fun _ => .fifo, fun _ => 0, 0⟩, []) := rfl
  have first : rtSemTake bothReady 0 0xffffffff = some
      ((rtThreadSuspend (bothReady.setError 0 .eok) 0).2.linkThreadBefore (.wait (.sem 0)) 0,
        .suspends none) := by
    refine rtSemTake_waits_last rfl rfl rfl ?_
    rw [Links.scan]
    rfl
  have second : rtSemTake firstWaits 0 0xffffffff = some (bothWait, .suspends none) := by
    refine rtSemTake_waits_last rfl rfl rfl ?_
    -- The search passes the first thread, which has the higher priority.
    rw [Links.scan, if_neg (by decide), if_neg (by decide), Links.scan]
    rfl
  refine Machine.execute_append started (Machine.execute_cons
    (@enter_step ⟨bothReady, fun _ => .fifo, fun _ => 0, 0⟩ 0 (.semTake 0 0xffffffff) _ _ rfl first)
    ?_)
  refine Machine.execute_cons (show suspendMachine.step _ .schedule = some (_, []) from rfl) ?_
  exact Machine.execute_cons (@enter_step ⟨firstWaits, fun _ => .fifo,
    Function.update (fun _ => 0) 0 0, 1⟩ 1 (.semTake 0 0xffffffff) _ _ rfl second) rfl

/-- The list of the semaphore, from the pointers. -/
theorem bothWait_queued {kernel : Kernel} {queue : List ThreadId}
    (links : kernel.threadLinks = bothWait.threadLinks)
    (queued : Queued kernel (.sem 0) queue) : queue = [0, 1] := by
  replace queued : Queued bothWait (.sem 0) queue := queued.congr links.symm
  have front := queued.front
  cases queue with
  | nil => cases front
  | cons thread rest =>
      obtain rfl : (0 : ThreadId) = thread := ThreadNode.tlist.inj front
      have behind := @Queued.following bothWait (.sem 0) [] rest 0 queued
      cases rest with
      | nil => cases behind
      | cons other rest =>
          obtain rfl : (1 : ThreadId) = other := ThreadNode.tlist.inj behind
          have last := @Queued.following bothWait (.sem 0) [0] rest 1 queued
          cases rest with
          | nil => rfl
          | cons third rest => cases last

/-- The priority of the second thread, which waits behind the first one, is changed from 10
to 8. -/
theorem prio_lists_sorted_two : ∃ state,
    suspendMachine.Run SuspendLists.KeepsPlaces (.boot prioSemaphores fun _ => .fifo)
        (bothWaitActions ++ [.changePriority 1 8]) [.suspends none, .suspends none] state ∧
      state.Sorted (.sem 0) ∧ state.WakesHighest (.sem 0) := by
  have waiting : suspendMachine.Run SuspendLists.KeepsPlaces
      (.boot prioSemaphores fun _ => .fifo) bothWaitActions [.suspends none, .suspends none]
      bothWaitState :=
    Machine.run_of_execute (by simp [bothWaitActions, SuspendLists.KeepsPlaces]) bothWait_execute
  obtain ⟨home, placed⟩ := (waiting.invariant
    (SuspendLists.orderInv_boot prioSemaphores fun _ => .fifo) fun state action next emitted inv
      keeps step => SuspendLists.OrderInv.step inv keeps step).homes
  obtain ⟨queue, queued⟩ := placed.queued (.sem 0)
  obtain rfl := bothWait_queued rfl queued
  have keeps : bothWaitState.KeepsPlaces (.changePriority 1 8) := by
    intro list other prio waits waits'
    have isHead := ThreadNode.isHead_wait list
    have there := (placed.linked_iff isHead 1).mp waits
    have here := (placed.linked_iff (ThreadNode.isHead_wait (.sem 0)) 1).mp
      ((queued.waits_iff 1).mpr (by simp))
    obtain rfl : list = .sem 0 := by simpa using there.symm.trans here
    have member := (queued.waits_iff other).mp waits'
    obtain rfl | rfl : other = 0 ∨ other = 1 := by simpa using member
    · refine ⟨fun behind => ?_, fun _ => ?_⟩
      · have before : 10 < 5 ∨ 10 = 5 ∧ 1 < 0 := Prod.Lex.toLex_lt_toLex.mp behind
        omega
      · exact Prod.Lex.toLex_lt_toLex.mpr (Or.inl (by decide))
    · exact ⟨fun behind => absurd behind (lt_irrefl _), fun behind => absurd behind (lt_irrefl _)⟩
  have run := waiting.snoc keeps (show suspendMachine.step _ (.changePriority 1 8) =
    some ({ bothWaitState with kernel := rtThreadChangePriority bothWait 1 8 }, []) from rfl)
  exact ⟨_, run, prio_lists_sorted run (.sem 0) rfl⟩

/-- The priority of the first thread has been changed to 20. -/
def outOfOrder : SuspendLists :=
  { bothWaitState with kernel := rtThreadChangePriority bothWait 0 20 }

theorem outOfOrder_key : ¬ outOfOrder.key 0 ≤ outOfOrder.key 1 := by
  intro early
  have before : 20 < 10 ∨ 20 = 10 ∧ 0 ≤ 1 := Prod.Lex.toLex_le_toLex.mp early
  omega

/-- The first thread stays in front of the second one, which has priority 10, and a release
wakes it. -/
theorem prio_list_unsorted :
    suspendMachine.Run (fun _ _ => True) (.boot prioSemaphores fun _ => .fifo)
        (bothWaitActions ++ [.changePriority 0 20]) [.suspends none, .suspends none] outOfOrder ∧
      outOfOrder.flag (.sem 0) = .prio ∧ ¬ outOfOrder.Sorted (.sem 0) ∧
      ¬ outOfOrder.WakesHighest (.sem 0) := by
  have waiting := Machine.run_of_execute (fun _ _ _ => trivial) bothWait_execute
  refine ⟨waiting.snoc trivial (show suspendMachine.step _ (.changePriority 0 20) =
    some (outOfOrder, []) from rfl), rfl, ?_, ?_⟩
  · rintro ⟨queue, queued, sorted⟩
    obtain rfl := bothWait_queued rfl queued
    exact outOfOrder_key ((List.pairwise_cons.mp sorted).1 1 List.mem_cons_self).le
  · intro wakes
    obtain ⟨thread, resumes, -, least⟩ := wakes rfl
    have linked : outOfOrder.kernel.Waits (.sem 0) 1 := by
      refine ⟨2, by decide, rfl, fun before positive small => ?_⟩
      obtain rfl | rfl : before = 1 ∨ before = 2 := by omega
      · decide
      · decide
    have apart : (0 : ThreadId) ≠ thread := by
      rintro rfl
      exact outOfOrder_key (least 1 linked)
    -- The first thread is made ready, and `thread` is another one.
    have ready : ((rtThreadResume outOfOrder.kernel thread).2.threads 0).stat = .ready :=
      (congrArg (fun next => (next.threads 0).stat) (Option.some_inj.mp resumes)).symm
    by_cases suspended : (outOfOrder.kernel.threads thread).stat = .suspend
    · rw [rtThreadResume_threads suspended, Function.update_of_ne apart] at ready
      cases ready
    · rw [rtThreadResume, if_pos suspended] at ready
      cases ready

end RtThread
