import RtThread.Kernel.MemPool
import RtThread.Kernel.WaitRuns

/-!
# The waiters of a memory pool

`suspend_thread_count` is kept beside the suspend list. `rt_mp_alloc`, `rt_mp_free` and
the loop of `rt_mp_detach` and `rt_mp_delete` change the two together. A timeout takes a
thread from the list and knows nothing of the pool.
-/

namespace RtThread

open RtThread.Std

/-! ## Ending a pool -/

inductive MpEndCall where
  | detach
  | delete
deriving DecidableEq, Repr

/-- Where such a call stands in its loop. -/
inductive MpEndPoint where
  /-- The test whether the suspend list is empty is next. -/
  | test
  /-- The section that wakes up the first thread is next. -/
  | wake
deriving DecidableEq, Repr

/-- The section in the loops of `rt_mp_detach` and `rt_mp_delete`. No thread is at the
head of the suspend list when the list is empty. -/
def rtMpWake (kernel : Kernel) (mp : MemPool) : Option (Kernel × MemPool) :=
  match threadEntry (kernel.threadLinks.next (.wait (.mempool 0))) with
  | .thread thread =>
    some ((rtThreadResume (kernel.setError thread .error) thread).2,
      { mp with suspendThreadCount := mp.suspendThreadCount - 1#32 })
  | _ => none

structure MpEndSystem where
  pool : MpSystem
  /-- The contexts that are ending the pool. -/
  ending : Context → Option (MpEndCall × MpEndPoint)
  /-- `rt_mp_delete` has released the pool. -/
  deleted : Bool

inductive MpEndAction where
  | use (action : MpAction)
  | begin (context : Context) (call : MpEndCall)
  /-- Execute the next step of the call that ends the pool. -/
  | advance (context : Context)
deriving DecidableEq, Repr

namespace MpEndSystem

def setEnding (system : MpEndSystem) (context : Context)
    (point : Option (MpEndCall × MpEndPoint)) : MpEndSystem :=
  { system with ending := Function.update system.ending context point }

/-- The pool is there, and the context is not ending it. -/
def admits (system : MpEndSystem) : MpAction → Bool
  | .enter context _ => !system.deleted && (system.ending context).isNone
  | _ => true

/-- `RT_DEBUG_NOT_IN_INTERRUPT`: no handler deletes a pool. -/
def mayBegin (context : Context) : MpEndCall → Bool
  | .detach => true
  | .delete =>
    match context with
    | .thread _ => true
    | .handler _ => false

def begin (system : MpEndSystem) (context : Context) (call : MpEndCall) : Option MpEndSystem :=
  if context.Running system.pool.kernel ∧ system.pool.frames context = none ∧
      system.ending context = none ∧ system.deleted = false ∧ mayBegin context call = true then
    some (system.setEnding context (some (call, .test)))
  else none

def advancePoint (system : MpEndSystem) (context : Context) (call : MpEndCall) :
    MpEndPoint → Option MpEndSystem
  | .test =>
    if system.pool.kernel.threadLinks.isEmpty (.wait (.mempool 0)) then
      some { system.setEnding context none with
        deleted := system.deleted || decide (call = .delete) }
    else some (system.setEnding context (some (call, .wake)))
  | .wake => do
    let (kernel, mp) ← rtMpWake system.pool.kernel system.pool.mp
    let pool := { system.pool with kernel := kernel, mp := mp }
    pure { system.setEnding context (some (call, .test)) with pool := pool }

def advance (system : MpEndSystem) (context : Context) : Option MpEndSystem :=
  if context.Running system.pool.kernel then do
    let (call, point) ← system.ending context
    system.advancePoint context call point
  else none

/-- A pool that has just been set up, and no call under way. -/
def boot (config : Config) (mp : MemPool) : MpEndSystem where
  pool := .boot config mp
  ending _ := none
  deleted := false

end MpEndSystem

def MpEndAction.apply (system : MpEndSystem) :
    MpEndAction → Option (MpEndSystem × List MpEvent)
  | .use action =>
    if system.admits action then
      (mpMachine.step system.pool action).map fun (pool, emitted) =>
        ({ system with pool := pool }, emitted)
    else none
  | .begin context call => (system.begin context call).map fun next => (next, [])
  | .advance context => (system.advance context).map fun next => (next, [])

def mpEndMachine : Machine MpEndSystem MpEndAction MpEvent where
  step := MpEndAction.apply

/-! ## Who is timed out -/

/-- The timer of the thread is running and has reached its timeout at this tick. -/
def Kernel.Due (kernel : Kernel) (tick : BitVec 32) (thread : ThreadId) : Prop :=
  (kernel.timers (.thread thread)).activated = true ∧
    tick - (kernel.timers (.thread thread)).timeoutTick < halfTickMax

instance (kernel : Kernel) (tick : BitVec 32) (thread : ThreadId) :
    Decidable (kernel.Due tick thread) :=
  inferInstanceAs (Decidable (_ ∧ _))

theorem rtThreadYield_threads {kernel next : Kernel} (step : rtThreadYield kernel = some next) :
    next.threads = kernel.threads := by
  unfold rtThreadYield at step
  split at step
  · rename_i thread _
    have moved : (rtThreadYieldSection kernel thread).1.threads = kernel.threads := by
      unfold rtThreadYieldSection
      split <;> rfl
    obtain rfl := Option.some_inj.mp step
    dsimp only
    split
    · exact (rtSchedule_threads _).trans moved
    · exact moved
  · cases step

/-- A timeout changes one thread and not the tick. -/
theorem rtThreadTimeout_other {kernel next : Kernel} {thread other : ThreadId}
    (apart : other ≠ thread) (step : rtThreadTimeout kernel thread = some next) :
    (next.threads other).stat = (kernel.threads other).stat ∧ next.rtTick = kernel.rtTick := by
  obtain ⟨-, done⟩ := Option.ite_none_right_eq_some.mp step
  rw [← Option.some_inj.mp done]
  refine ⟨?_, (rtSchedule_sameTimers _).tick⟩
  rw [rtSchedule_threads, rtScheduleInsertThread_threads, Function.update_of_ne apart]
  exact (setError_sameRank kernel thread .etimeout other).1

theorem checkTimeSlice_stat {kernel next : Kernel} (step : checkTimeSlice kernel = some next)
    (thread : ThreadId) : (next.threads thread).stat = (kernel.threads thread).stat := by
  have charged : ∀ current, ((chargeTick kernel current).1.threads thread).stat =
      (kernel.threads thread).stat := by
    intro current
    unfold chargeTick
    by_cases same : thread = current
    · subst same
      dsimp only
      split <;> simp [Kernel.setThread]
    · dsimp only
      split <;> simp [Kernel.setThread, Function.update_of_ne same]
  unfold checkTimeSlice at step
  split at step
  · rename_i current _
    dsimp only at step
    split at step
    · rw [rtThreadYield_threads step]
      exact charged current
    · obtain rfl := Option.some_inj.mp step
      exact charged current
  · cases step

namespace WaitInv

variable {kernel next : Kernel} {home : ThreadId → Option ThreadNode} {thread : ThreadId}

theorem first_active (inv : WaitInv kernel home) {timer : TimerId}
    (entry : kernel.timerLinks.next .timerList = .timer timer) :
    (kernel.timers timer).activated = true := by
  obtain ⟨queue, listed⟩ := inv.listed
  rw [← listed.active]
  have head := listed.rings.next_head TimerNode.isHead_timerList
  rw [entry] at head
  cases queue with
  | nil => simp [timerLists] at head
  | cons first others =>
      simp only [timerLists, List.map_cons, List.headD_cons, TimerNode.timer.injEq] at head
      simp [head]

/-- The loop leaves a thread alone whose timer has not reached its timeout. -/
theorem checkLoop_undue {currentTick : BitVec 32} {fired : List TimerId}
    (inv : WaitInv kernel home) (now : currentTick = kernel.rtTick)
    (undue : ¬ kernel.Due kernel.rtTick thread)
    (step : rtTimerCheckLoop threadTimeoutFunc currentTick kernel = some (next, fired)) :
    (next.threads thread).stat = (kernel.threads thread).stat := by
  revert home
  revert now undue
  refine Kernel.rtTimerCheckLoop.partial_correctness threadTimeoutFunc
    (fun currentTick kernel result => currentTick = kernel.rtTick →
      ¬ kernel.Due kernel.rtTick thread → ∀ {home}, WaitInv kernel home →
      (result.1.threads thread).stat = (kernel.threads thread).stat) ?_ currentTick kernel
    (next, fired) step
  intro loop ih currentTick kernel result step now undue home inv
  split at step
  · obtain rfl := Option.some_inj.mp step
    rfl
  · rename_i timer entry
    split at step
    · rename_i reached
      obtain ⟨called, call, step⟩ := Option.bind_eq_some_iff.mp step
      obtain ⟨finished, finish, step⟩ := Option.bind_eq_some_iff.mp step
      obtain ⟨⟨last, later⟩, rest, done⟩ := Option.bind_eq_some_iff.mp step
      obtain rfl := Option.some_inj.mp done
      have active := inv.first_active entry
      cases timer with
      | object index => cases (inv.unused index).symm.trans active
      | thread other =>
          have apart : thread ≠ other := by
            rintro rfl
            exact undue ⟨active, now ▸ reached⟩
          obtain ⟨timers, -, home', timed, -⟩ := inv.timeout active call
          have oneShot := inv.oneShot other
          rw [rtTimerFinish, timers, oneShot] at finish
          obtain rfl := Option.some_inj.mp finish
          obtain ⟨stat, tick⟩ := rtThreadTimeout_other apart call
          have later : ¬ (called.deactivate (.thread other)).Due called.rtTick thread := by
            rw [show called.rtTick = kernel.rtTick from tick]
            simpa [Kernel.Due, Kernel.deactivate, Kernel.setTimer, timers, apart] using undue
          exact (ih _ _ _ rest rfl later timed).trans stat
    · obtain rfl := Option.some_inj.mp step
      rfl

/-- A tick leaves a suspended thread alone whose timer does not reach its timeout. -/
theorem tickIncrease_undue {fired : List TimerId} (inv : WaitInv kernel home)
    (undue : ¬ kernel.Due (kernel.rtTick + 1#32) thread)
    (step : rtTickIncrease threadTimeoutFunc kernel = some (next, fired)) :
    (next.threads thread).stat = (kernel.threads thread).stat := by
  obtain ⟨charged, slice, check⟩ := Option.bind_eq_some_iff.mp step
  have counted : WaitInv { kernel with rtTick := kernel.rtTick + 1#32 } home :=
    inv.congr rfl rfl rfl fun _ => rfl
  obtain ⟨home', sliced, -⟩ := counted.checkTimeSlice slice
  have same := checkTimeSlice_sameTimers slice
  have later : ¬ charged.Due charged.rtTick thread := by
    rw [Kernel.Due, same.timers, same.tick]
    exact undue
  exact (sliced.checkLoop_undue rfl later check).trans (checkTimeSlice_stat slice thread)

end WaitInv

/-! ## The conditions of a run -/

/-- The control blocks of threads have addresses of their own, and none is `RT_NULL`. -/
def threadLimit : Nat := 2 ^ 32 - 1

def MpEndAction.Addressed : MpEndAction → Prop
  | .use (.around (.threadStartup thread)) => thread < threadLimit
  | _ => True

/-- No waiter of the pool is timed out by a tick, and a call that ends the pool still
finds a waiter after its test. -/
def MpEndSystem.Lasting (system : MpEndSystem) : MpEndAction → Prop
  | .use (.around .tickIncrease) => ∀ thread,
      system.pool.kernel.threadLinks.Linked (.wait (.mempool 0)) (.tlist thread) →
        ¬ system.pool.kernel.Due (system.pool.kernel.rtTick + 1#32) thread
  | .advance context => ∀ call, system.ending context = some (call, .wake) →
      system.pool.kernel.threadLinks.isEmpty (.wait (.mempool 0)) = false
  | _ => True

/-- `suspend_thread_count` is the number of the threads in `suspend_thread`. -/
def MpSystem.Counted (system : MpSystem) : Prop :=
  ∃ waiting : Finset ThreadId,
    (∀ thread, thread ∈ waiting ↔
      system.kernel.threadLinks.Linked (.wait (.mempool 0)) (.tlist thread)) ∧
    system.mp.suspendThreadCount.toNat = waiting.card

/-! ## One step -/

/-- The homes of the threads, and which of them wait for the pool. -/
structure PoolWaiters (kernel : Kernel) (home : ThreadId → Option ThreadNode)
    (waiting : Finset ThreadId) : Prop where
  homes : WaitInv kernel home
  listed : ∀ thread, thread ∈ waiting ↔ home thread = some (.wait (.mempool 0))
  started : ∀ thread, (kernel.threads thread).stat ≠ .init → thread < threadLimit
  unlocked : kernel.rtSchedulerLockNest = 0

/-- A thread that runs is ready, unless it is about to be switched out. -/
def RunsReady (kernel : Kernel) (frames : Context → Option (MpCall × MpPoint)) : Prop :=
  ∀ thread, kernel.rtCurrentThread = .thread thread → (kernel.threads thread).stat = .ready ∨
    ∃ call, frames (.thread thread) = some (call, .suspended)

structure WaitersInv (system : MpSystem) : Prop where
  waiters : ∃ home waiting, PoolWaiters system.kernel home waiting ∧
    system.mp.suspendThreadCount.toNat = waiting.card
  runs : RunsReady system.kernel system.frames

namespace PoolWaiters

variable {kernel next : Kernel} {home home' : ThreadId → Option ThreadNode}
  {waiting : Finset ThreadId} {thread : ThreadId}

theorem suspended (inv : PoolWaiters kernel home waiting) (member : thread ∈ waiting) :
    (kernel.threads thread).stat = .suspend :=
  inv.homes.waiting thread _ ((inv.listed thread).mp member)

theorem card_le (inv : PoolWaiters kernel home waiting) : waiting.card ≤ threadLimit := by
  have bounded : waiting ⊆ Finset.range threadLimit := by
    intro thread member
    refine Finset.mem_range.mpr (inv.started thread ?_)
    simp [inv.suspended member]
  simpa using Finset.card_le_card bounded

/-- Time passes, and no waiter is timed out. -/
theorem elapse (inv : PoolWaiters kernel home waiting) (homes : WaitInv next home')
    (elapses : Elapses kernel next home home')
    (stays : ∀ thread ∈ waiting, (next.threads thread).stat = (kernel.threads thread).stat) :
    PoolWaiters next home' waiting := by
  refine ⟨homes, fun thread => ?_, fun thread started => ?_, elapses.nest.trans inv.unlocked⟩
  · rcases elapses.thread thread with same | timesOut
    · rw [same.waits]
      exact inv.listed thread
    · refine iff_of_false (fun member => ?_) (timesOut.leaves _)
      have conflict := (stays thread member).symm.trans timesOut.ready
      simp [inv.suspended member] at conflict
  · refine inv.started thread ?_
    rcases elapses.thread thread with same | timesOut
    · rwa [← same.stat]
    · simp [timesOut.suspended]

theorem schedule (inv : PoolWaiters kernel home waiting) : PoolWaiters (rtSchedule kernel) home waiting :=
  inv.elapse inv.homes.schedule (.schedule inv.homes) fun _ _ => by rw [rtSchedule_threads]

/-- After `rt_schedule` a ready thread runs. -/
theorem schedule_runs (inv : PoolWaiters kernel home waiting)
    (frames : Context → Option (MpCall × MpPoint)) :
    RunsReady (rtSchedule kernel) frames := by
  intro thread current
  rw [rtSchedule_current, if_pos inv.unlocked] at current
  rw [rtSchedule_threads]
  exact Or.inl (inv.homes.selected_ready current)

/-- A thread is put into `suspend_thread`. -/
theorem enlist (inv : PoolWaiters kernel home waiting)
    (homes : WaitInv next (Function.update home thread (some (.wait (.mempool 0)))))
    (threads : next.threads = Function.update kernel.threads thread
      { kernel.threads thread with stat := .suspend })
    (isReady : (kernel.threads thread).stat = .ready)
    (nest : next.rtSchedulerLockNest = kernel.rtSchedulerLockNest) :
    PoolWaiters next (Function.update home thread (some (.wait (.mempool 0)))) (insert thread waiting) ∧
      thread ∉ waiting := by
  have absent : thread ∉ waiting := by
    intro member
    simp [inv.suspended member] at isReady
  refine ⟨⟨homes, fun other => ?_, fun other started => ?_, nest.trans inv.unlocked⟩, absent⟩
  · by_cases same : other = thread
    · simp [same]
    · simp [same, inv.listed other]
  · by_cases same : other = thread
    · exact same ▸ inv.started thread (by simp [isReady])
    · rw [threads, Function.update_of_ne same] at started
      exact inv.started other started

/-- A waiter becomes ready. -/
theorem resume (inv : PoolWaiters kernel home waiting) (member : thread ∈ waiting) (result : Err) :
    ∃ home', PoolWaiters (rtThreadResume (kernel.setError thread result) thread).2 home'
      (waiting.erase thread) := by
  have marked := inv.homes.setError thread result
  have suspended : ((kernel.setError thread result).threads thread).stat = .suspend :=
    ((setError_sameRank kernel thread result thread).1).trans (inv.suspended member)
  have rest := rtThreadResume_sameRest (kernel.setError thread result) thread
  refine ⟨_, marked.resumeThread suspended, fun other => ?_, fun other started => ?_,
    rest.nest.trans inv.unlocked⟩
  · by_cases same : other = thread
    · simp [same]
    · simp [same, inv.listed other]
  · rw [rtThreadResume_threads suspended] at started
    by_cases same : other = thread
    · exact same ▸ inv.started thread (by simp [inv.suspended member])
    · rw [Function.update_of_ne same, (setError_sameRank kernel thread result other).1] at started
      exact inv.started other started

end PoolWaiters

namespace RunsReady

variable {kernel next : Kernel} {frames : Context → Option (MpCall × MpPoint)} {context : Context}
  {thread : ThreadId}

/-- A thread that is in no call, or in one that goes on, is ready while it runs. -/
theorem ready (runs : RunsReady kernel frames) (current : kernel.rtCurrentThread = .thread thread)
    (awake : ∀ call, frames (.thread thread) ≠ some (call, .suspended)) :
    (kernel.threads thread).stat = .ready := by
  rcases runs thread current with isReady | ⟨call, there⟩
  · exact isReady
  · exact absurd there (awake call)

theorem setFrame (runs : RunsReady kernel frames)
    (awake : ∀ call, frames context ≠ some (call, .suspended))
    (frame : Option (MpCall × MpPoint)) :
    RunsReady kernel (Function.update frames context frame) := by
  intro thread current
  by_cases same : .thread thread = context
  · subst same
    exact Or.inl (runs.ready current awake)
  · rw [Function.update_of_ne same]
    exact runs thread current

/-- Ready threads stay ready. -/
theorem of_ready (runs : RunsReady kernel frames)
    (current : next.rtCurrentThread = kernel.rtCurrentThread)
    (stays : ∀ thread, (kernel.threads thread).stat = .ready →
      (next.threads thread).stat = .ready) : RunsReady next frames :=
  fun thread running => (runs thread (current ▸ running)).imp_left (stays thread)

theorem resume (runs : RunsReady kernel frames) (thread : ThreadId) (result : Err)
    (suspended : (kernel.threads thread).stat = .suspend) :
    RunsReady (rtThreadResume (kernel.setError thread result) thread).2 frames := by
  have marked : ((kernel.setError thread result).threads thread).stat = .suspend :=
    ((setError_sameRank kernel thread result thread).1).trans suspended
  refine runs.of_ready (rtThreadResume_sameRest _ thread).current fun other isReady => ?_
  rw [rtThreadResume_threads marked]
  by_cases same : other = thread
  · simp [same]
  · rw [Function.update_of_ne same, (setError_sameRank kernel thread result other).1]
    exact isReady

end RunsReady

namespace PoolWaiters

variable {kernel next : Kernel} {home : ThreadId → Option ThreadNode}
  {waiting : Finset ThreadId} {thread : ThreadId}

/-- The thread of `rt_mp_alloc` is suspended and linked. -/
theorem suspend (inv : PoolWaiters kernel home waiting)
    (isReady : (kernel.threads thread).stat = .ready) :
    PoolWaiters ((rtThreadSuspend kernel thread).2.linkThreadAfter (.wait (.mempool 0)) thread)
      (Function.update home thread (some (.wait (.mempool 0)))) (insert thread waiting) ∧
      thread ∉ waiting := by
  have suspended := inv.homes.suspendThread isReady
  have stat : ((rtThreadSuspend kernel thread).2.threads thread).stat = .suspend := by
    simp [rtThreadSuspend_threads isReady]
  have loose : atNode (Function.update home thread none) (.tlist thread) = none := by simp
  have placed := suspended.placed.insertAfter_head (ThreadNode.isHead_wait (.mempool 0))
    (ThreadNode.not_isHead_tlist thread) loose
  have linked := suspended.link placed (by simp) fun _ _ => stat
  rw [Function.update_idem] at linked
  exact inv.enlist linked (rtThreadSuspend_threads isReady) isReady
    (rtThreadSuspend_sameRest kernel thread).nest

/-- Starting its timer leaves a suspended thread where it is. -/
theorem startTimer (inv : PoolWaiters kernel home waiting) (member : thread ∈ waiting)
    (stopped : (kernel.timers (.thread thread)).activated = false) {time : BitVec 32}
    {result : Err} (step : startThreadTimer kernel thread time = some (result, next)) :
    PoolWaiters next home waiting ∧ next.threads = kernel.threads ∧
      next.rtCurrentThread = kernel.rtCurrentThread := by
  obtain ⟨-, -, homes, frame⟩ := inv.homes.startTimer (inv.suspended member) stopped step
  refine ⟨⟨homes, inv.listed, ?_, ?_⟩, ?_, ?_⟩
  · rw [frame]
    exact inv.started
  · rw [frame]
    exact inv.unlocked
  · rw [frame]
  · rw [frame]

end PoolWaiters

/-! ## The sections -/

theorem PoolWaiters.count_enlist {kernel : Kernel} {home : ThreadId → Option ThreadNode}
    {waiting : Finset ThreadId} {thread : ThreadId} {count : BitVec 32}
    (inv : PoolWaiters kernel home (insert thread waiting)) (absent : thread ∉ waiting)
    (counted : count.toNat = waiting.card) :
    (count + 1#32).toNat = (insert thread waiting).card := by
  have bounded := inv.card_le
  rw [Finset.card_insert_of_notMem absent] at bounded ⊢
  rw [BitVec.toNat_add, counted]
  simp only [threadLimit] at bounded
  exact Nat.mod_eq_of_lt (by simp; omega)

theorem count_erase {waiting : Finset ThreadId} {thread : ThreadId} {count : BitVec 32}
    (member : thread ∈ waiting) (counted : count.toNat = waiting.card) :
    (count - 1#32).toNat = (waiting.erase thread).card := by
  have positive := Finset.card_pos.mpr ⟨thread, member⟩
  rw [Finset.card_erase_of_mem member]
  bv_omega

namespace WaitersInv

variable {system : MpSystem} {context : Context}

/-- The pool keeps its waiters, and the call goes on somewhere else. -/
theorem setFrame (inv : WaitersInv system) {mp : MemPool}
    (count : mp.suspendThreadCount = system.mp.suspendThreadCount)
    (awake : ∀ call, system.frames context ≠ some (call, .suspended))
    (frame : Option (MpCall × MpPoint)) :
    WaitersInv (system.setFrame context system.kernel mp frame) := by
  obtain ⟨home, waiting, waits, counted⟩ := inv.waiters
  exact ⟨⟨home, waiting, waits, (congrArg BitVec.toNat count).trans counted⟩,
    inv.runs.setFrame awake frame⟩

theorem schedule (inv : WaitersInv system) (frame : Option (MpCall × MpPoint)) :
    WaitersInv (system.setFrame context (rtSchedule system.kernel) system.mp frame) := by
  obtain ⟨home, waiting, waits, counted⟩ := inv.waiters
  exact ⟨⟨home, waiting, waits.schedule, counted⟩, waits.schedule_runs _⟩

theorem rtMpAlloc {time : BitVec 32} {result : Kernel × MemPool × MpOutcome}
    (inv : WaitersInv system) (running : context.Running system.kernel)
    (idle : system.frames context = none)
    (step : rtMpAlloc system.kernel system.mp context time = some result) :
    WaitersInv (system.settle context (.alloc time) result).1 := by
  have awake : ∀ call, system.frames context ≠ some (call, .suspended) := by simp [idle]
  unfold RtThread.rtMpAlloc at step
  split at step
  · obtain rfl := Option.some_inj.mp step
    have taken : system.mp.take.suspendThreadCount = system.mp.suspendThreadCount := rfl
    exact inv.setFrame taken awake none
  split at step
  · obtain rfl := Option.some_inj.mp step
    exact inv.setFrame rfl awake none
  cases context with
  | handler index => cases step
  | thread thread =>
      obtain ⟨home, waiting, waits, counted⟩ := inv.waiters
      have isReady := inv.runs.ready running awake
      obtain ⟨listed, absent⟩ := waits.suspend isReady
      have count := listed.count_enlist absent counted
      have current := (rtThreadSuspend_sameRest system.kernel thread).current.trans running
      -- nobody else runs, and the thread is about to be switched out
      have runs : ∀ next : Kernel, next.rtCurrentThread = .thread thread →
          RunsReady next (Function.update system.frames (.thread thread)
            (some (.alloc time, .suspended))) := by
        intro next there other isCurrent
        obtain rfl := ThreadPtr.thread.inj (isCurrent.symm.trans there)
        exact Or.inr ⟨_, Function.update_self ..⟩
      dsimp only at step
      split at step
      · obtain ⟨⟨timer, armed⟩, start, done⟩ := Option.bind_eq_some_iff.mp step
        obtain rfl := Option.some_inj.mp done
        have stopped : ((rtThreadSuspend system.kernel thread).2.timers
            (.thread thread)).activated = false := by
          simpa [rtThreadSuspend, isReady, Kernel.setStat, Kernel.setThread]
            using waits.homes.stopped_of_ready isReady
        obtain ⟨waits', -, kept⟩ := listed.startTimer (Finset.mem_insert_self ..) stopped start
        exact ⟨⟨_, _, waits', count⟩, runs armed (kept.trans current)⟩
      · obtain rfl := Option.some_inj.mp step
        exact ⟨⟨_, _, listed, count⟩, runs _ current⟩

/-- The first waiter leaves `suspend_thread`, and the count follows. -/
theorem wakeFirst (inv : WaitersInv system) {thread : ThreadId} (result : Err)
    (first : threadEntry (system.kernel.threadLinks.next (.wait (.mempool 0))) = .thread thread) :
    (∃ home waiting,
      PoolWaiters (rtThreadResume (system.kernel.setError thread result) thread).2 home waiting ∧
        (system.mp.suspendThreadCount - 1#32).toNat = waiting.card) ∧
      RunsReady (rtThreadResume (system.kernel.setError thread result) thread).2 system.frames := by
  obtain ⟨home, waiting, waits, counted⟩ := inv.waiters
  have entry := threadEntry_eq_thread.mp first
  have occupied : system.kernel.threadLinks.isEmpty (.wait (.mempool 0)) = false := by
    simp [Links.isEmpty, entry]
  obtain ⟨waiter, front, there⟩ := waits.homes.first_waiting occupied
  obtain rfl := ThreadPtr.thread.inj (front.symm.trans first)
  have member := (waits.listed _).mpr there
  obtain ⟨home', waits'⟩ := waits.resume member result
  exact ⟨⟨home', _, waits', count_erase member counted⟩,
    inv.runs.resume _ result (waits.suspended member)⟩

theorem rtMpFree {block : Nat} {result : Kernel × MemPool × MpOutcome} (inv : WaitersInv system)
    (idle : system.frames context = none)
    (step : rtMpFree system.kernel system.mp block = some result) :
    WaitersInv (system.settle context (.free block) result).1 := by
  have awake : ∀ call, system.frames context ≠ some (call, .suspended) := by simp [idle]
  unfold RtThread.rtMpFree at step
  dsimp only at step
  split at step
  case isFalse => cases step
  split at step
  · split at step
    · rename_i thread first
      obtain rfl := Option.some_inj.mp step
      obtain ⟨waiters, runs⟩ := inv.wakeFirst .eok first
      exact ⟨waiters, runs.setFrame awake _⟩
    · cases step
  · obtain rfl := Option.some_inj.mp step
    have put : (system.mp.put (block - 4)).suspendThreadCount = system.mp.suspendThreadCount := rfl
    exact inv.setFrame put awake none

/-- A later step of a call. -/
theorem advanceFrame {call : MpCall} {point : MpPoint} {next : MpSystem} {emitted : List MpEvent}
    (inv : WaitersInv system) (there : system.frames context = some (call, point))
    (step : system.advanceFrame context call point = some (next, emitted)) : WaitersInv next := by
  cases point with
  | suspended =>
      obtain ⟨rfl, -⟩ := Prod.mk.inj (Option.some_inj.mp step)
      exact inv.schedule _
  | reschedule =>
      obtain ⟨rfl, -⟩ := Prod.mk.inj (Option.some_inj.mp step)
      exact inv.schedule none
  | resumed =>
      obtain ⟨rfl, -⟩ := Prod.mk.inj (Option.some_inj.mp step)
      have taken : system.mp.take.suspendThreadCount = system.mp.suspendThreadCount := rfl
      exact inv.setFrame taken (by simp [there]) none
  | woken =>
      have awake : ∀ call, system.frames context ≠ some (call, .suspended) := by simp [there]
      cases context with
      | handler index => cases step
      | thread thread =>
          simp only [MpSystem.advanceFrame] at step
          split at step
          · obtain ⟨rfl, -⟩ := Prod.mk.inj (Option.some_inj.mp step)
            exact inv.setFrame rfl awake none
          · obtain ⟨rfl, -⟩ := Prod.mk.inj (Option.some_inj.mp step)
            exact inv.setFrame rfl awake _

/-- Time passes, and no waiter of the pool is timed out. -/
theorem around {change : Surroundings} {kernel : Kernel} (inv : WaitersInv system)
    (small : ∀ thread, change = .threadStartup thread → thread < threadLimit)
    (undue : change = .tickIncrease → ∀ thread,
      system.kernel.threadLinks.Linked (.wait (.mempool 0)) (.tlist thread) →
        ¬ system.kernel.Due (system.kernel.rtTick + 1#32) thread)
    (step : change.apply system.kernel = some kernel) :
    WaitersInv { system with kernel := kernel } := by
  obtain ⟨home, waiting, waits, counted⟩ := inv.waiters
  cases change with
  | schedulerStart =>
      obtain ⟨-, done⟩ := Option.ite_none_right_eq_some.mp step
      obtain rfl := Option.some_inj.mp done
      refine ⟨⟨home, waiting, ⟨waits.homes.congr rfl rfl rfl fun _ => rfl, waits.listed,
        waits.started, waits.unlocked⟩, counted⟩, ?_⟩
      exact fun thread selected => Or.inl (waits.homes.selected_ready selected)
  | threadStartup thread =>
      obtain ⟨isInit, started, rest, homes, threads, final⟩ := waits.homes.threadStartup step
      have elsewhere : home thread ≠ some (.wait (.mempool 0)) := by
        intro there
        simp [waits.homes.waiting thread _ there] at isInit
      have begun : PoolWaiters started (Function.update home thread
          (some (.ready (system.kernel.threads thread).initPriority))) waiting := by
        refine ⟨homes, fun other => ?_, fun other known => ?_, rest.nest.trans waits.unlocked⟩
        · by_cases same : other = thread
          · subst same
            simp [waits.listed other, elsewhere]
          · simp [same, waits.listed other]
        · by_cases same : other = thread
          · exact same ▸ small thread rfl
          · rw [threads, Function.update_of_ne same] at known
            exact waits.started other known
      have runs : RunsReady started system.frames := by
        refine inv.runs.of_ready rest.current fun other isReady => ?_
        rw [threads]
        by_cases same : other = thread
        · simp [same]
        · rwa [Function.update_of_ne same]
      rcases final with rfl | rfl
      · exact ⟨⟨_, waiting, begun, counted⟩, runs⟩
      · exact ⟨⟨_, waiting, begun.schedule, counted⟩, begun.schedule_runs _⟩
  | tickIncrease =>
      obtain ⟨⟨next, fired⟩, tick, rfl⟩ := Option.map_eq_some_iff.mp step
      obtain ⟨home', homes, elapses⟩ := waits.homes.tickIncrease tick
      have stays : ∀ thread ∈ waiting,
          (next.threads thread).stat = (system.kernel.threads thread).stat := by
        intro thread member
        have linked := (waits.homes.linked_iff (ThreadNode.isHead_wait (.mempool 0)) thread).mpr
          ((waits.listed thread).mp member)
        exact waits.homes.tickIncrease_undue (undue rfl thread linked) tick
      refine ⟨⟨home', waiting, waits.elapse homes elapses stays, counted⟩, ?_⟩
      intro thread current
      rcases elapses.current with same | isReady
      · exact (inv.runs thread (same.symm.trans current)).imp_left elapses.ready
      · exact Or.inl (isReady thread current)
  | switchTo thread =>
      obtain ⟨isReady, done⟩ := Option.ite_none_right_eq_some.mp step
      obtain rfl := Option.some_inj.mp done
      refine ⟨⟨home, waiting, ⟨waits.homes.congr rfl rfl rfl fun _ => rfl, waits.listed,
        waits.started, waits.unlocked⟩, counted⟩, ?_⟩
      intro other current
      obtain rfl := ThreadPtr.thread.inj current
      exact Or.inl isReady

/-- A step of the callers and of what goes on around them. -/
theorem use {action : MpAction} {next : MpSystem} {emitted : List MpEvent}
    (inv : WaitersInv system)
    (small : ∀ thread, action = .around (.threadStartup thread) → thread < threadLimit)
    (undue : action = .around .tickIncrease → ∀ thread,
      system.kernel.threadLinks.Linked (.wait (.mempool 0)) (.tlist thread) →
        ¬ system.kernel.Due (system.kernel.rtTick + 1#32) thread)
    (step : mpMachine.step system action = some (next, emitted)) : WaitersInv next := by
  obtain ⟨⟨middle, events⟩, applied, done⟩ := Option.map_eq_some_iff.mp step
  obtain ⟨rfl, -⟩ := Prod.mk.inj done
  suffices kept : WaitersInv middle from ⟨kept.waiters, kept.runs⟩
  cases action with
  | around change =>
      obtain ⟨kernel, changes, done⟩ := Option.map_eq_some_iff.mp applied
      obtain ⟨rfl, -⟩ := Prod.mk.inj done
      exact inv.around (fun thread same => small thread (congrArg _ same))
        (fun same => undue (congrArg _ same)) changes
  | enter context call =>
      obtain ⟨⟨running, idle⟩, begins⟩ := Option.ite_none_right_eq_some.mp applied
      obtain ⟨result, first, done⟩ := Option.bind_eq_some_iff.mp begins
      obtain ⟨rfl, -⟩ := Prod.mk.inj (Option.some_inj.mp done)
      cases call with
      | alloc time => exact inv.rtMpAlloc running idle first
      | free block => exact inv.rtMpFree idle first
  | advance context =>
      obtain ⟨-, goes⟩ := Option.ite_none_right_eq_some.mp applied
      obtain ⟨⟨call, point⟩, there, goes⟩ := Option.bind_eq_some_iff.mp goes
      exact inv.advanceFrame there goes

theorem step {system next : MpEndSystem} {action : MpEndAction} {emitted : List MpEvent}
    (inv : WaitersInv system.pool) (addressed : action.Addressed) (lasting : system.Lasting action)
    (step : mpEndMachine.step system action = some (next, emitted)) : WaitersInv next.pool := by
  cases action with
  | use action =>
      obtain ⟨-, admitted⟩ := Option.ite_none_right_eq_some.mp step
      obtain ⟨⟨pool, events⟩, used, done⟩ := Option.map_eq_some_iff.mp admitted
      obtain ⟨rfl, -⟩ := Prod.mk.inj done
      refine inv.use ?_ ?_ used
      · rintro thread rfl
        exact addressed
      · rintro rfl
        exact lasting
  | begin context call =>
      obtain ⟨begun, begins, done⟩ := Option.map_eq_some_iff.mp step
      obtain ⟨rfl, -⟩ := Prod.mk.inj done
      obtain ⟨-, same⟩ := Option.ite_none_right_eq_some.mp begins
      rw [← Option.some_inj.mp same]
      exact inv
  | advance context =>
      obtain ⟨advanced, advances, done⟩ := Option.map_eq_some_iff.mp step
      obtain ⟨rfl, -⟩ := Prod.mk.inj done
      obtain ⟨-, goes⟩ := Option.ite_none_right_eq_some.mp advances
      obtain ⟨⟨call, point⟩, there, goes⟩ := Option.bind_eq_some_iff.mp goes
      cases point with
      | test =>
          simp only [MpEndSystem.advancePoint] at goes
          split at goes
          · obtain rfl := Option.some_inj.mp goes
            exact inv
          · obtain rfl := Option.some_inj.mp goes
            exact inv
      | wake =>
          obtain ⟨⟨kernel, mp⟩, wakes, goes⟩ := Option.bind_eq_some_iff.mp goes
          obtain rfl := Option.some_inj.mp goes
          unfold rtMpWake at wakes
          split at wakes
          · rename_i thread first
            obtain ⟨rfl, rfl⟩ := Prod.mk.inj (Option.some_inj.mp wakes)
            obtain ⟨waiters, runs⟩ := inv.wakeFirst .error first
            exact ⟨waiters, runs⟩
          · cases wakes

theorem initial (config : Config) {mp : MemPool} (built : mp.suspendThreadCount = 0#32) :
    WaitersInv (MpSystem.boot config mp) := by
  refine ⟨⟨fun _ => none, ∅, ⟨WaitInv.initial config, by simp, ?_, rfl⟩, ?_⟩, ?_⟩
  · exact fun thread started => absurd rfl started
  · simp [MpSystem.boot, built]
  · simp [RunsReady, MpSystem.boot, Config.kernel]

theorem counted (inv : WaitersInv system) : system.Counted := by
  obtain ⟨home, waiting, waits, count⟩ := inv.waiters
  refine ⟨waiting, fun thread => ?_, count⟩
  rw [waits.listed, waits.homes.linked_iff (ThreadNode.isHead_wait (.mempool 0))]

/-- A count above zero means that there is an entry to take. -/
theorem occupied (inv : WaitersInv system) (positive : system.mp.suspendThreadCount ≠ 0#32) :
    ∃ thread, system.kernel.threadLinks.next (.wait (.mempool 0)) = .tlist thread ∧
      system.kernel.threadLinks.Linked (.wait (.mempool 0)) (.tlist thread) := by
  obtain ⟨home, waiting, waits, count⟩ := inv.waiters
  have nonempty : waiting.card ≠ 0 := fun zero =>
    positive (BitVec.eq_of_toNat_eq (count.trans zero))
  obtain ⟨waiter, member⟩ := Finset.card_pos.mp (Nat.pos_of_ne_zero nonempty)
  have occupied : system.kernel.threadLinks.isEmpty (.wait (.mempool 0)) = false := by
    refine Bool.eq_false_iff.mpr fun empty => ?_
    exact (waits.homes.isEmpty_iff _).mp empty waiter ((waits.listed waiter).mp member)
  obtain ⟨first, front, there⟩ := waits.homes.first_waiting occupied
  exact ⟨first, threadEntry_eq_thread.mp front,
    (waits.homes.linked_iff (ThreadNode.isHead_wait (.mempool 0)) first).mpr there⟩

end WaitersInv

/-! ## Every run -/

/-- In every run in which no waiter of the pool is timed out, the count is the number of
the waiters, and `rt_mp_free` finds one whenever the count is above zero. -/
theorem waiters_counted {config : Config} {mp : MemPool} {actions : List MpEndAction}
    {events : List MpEvent} {system : MpEndSystem} (built : mp.suspendThreadCount = 0#32)
    (run : mpEndMachine.Run (fun system action => action.Addressed ∧ system.Lasting action)
      (MpEndSystem.boot config mp) actions events system) :
    system.pool.Counted ∧ (system.pool.mp.suspendThreadCount ≠ 0#32 → ∃ thread,
      system.pool.kernel.threadLinks.next (.wait (.mempool 0)) = .tlist thread ∧
        system.pool.kernel.threadLinks.Linked (.wait (.mempool 0)) (.tlist thread)) := by
  have start : WaitersInv (MpEndSystem.boot config mp).pool := WaitersInv.initial config built
  have inv := @Machine.Run.invariant _ _ _ _ _ _ _ _ _
    (fun system : MpEndSystem => WaitersInv system.pool) run start
  have kept := inv fun system action next emitted inv allowed step =>
    inv.step allowed.1 allowed.2 step
  exact ⟨kept.counted, kept.occupied⟩

/-- A pool with one block. -/
def MpEndSystem.oneBlock : MpEndSystem :=
  .boot Config.plain (rtMpInit (fun _ => 0) 0x100 0x1000 8 4)

/-- Thread 1 takes the block, and then thread 0 runs. -/
def taken : List MpEndAction :=
  [.use (.around (.threadStartup 0)), .use (.around (.threadStartup 1)),
    .use (.around .schedulerStart), .use (.around (.switchTo 1)),
    .use (.enter (.thread 1) (.alloc 0)), .use (.around (.switchTo 0))]

/-- Thread 0 waits for the block. -/
def waitsFor (time : BitVec 32) : List MpEndAction :=
  taken ++ [.use (.enter (.thread 0) (.alloc time)), .use (.advance (.thread 0))]

theorem waiters_counted_one :
    ∃ system events, mpEndMachine.execute .oneBlock (waitsFor 0xffffffff) =
        some (system, events) ∧
      system.pool.mp.suspendThreadCount = 1#32 ∧ system.pool.Counted ∧
      ∃ thread, system.pool.kernel.threadLinks.next (.wait (.mempool 0)) = .tlist thread := by
  have final : (mpEndMachine.execute .oneBlock (waitsFor 0xffffffff)).map
      (fun final => final.1.pool.mp.suspendThreadCount) = some 1#32 := by
    decide +kernel
  obtain ⟨⟨system, events⟩, success, count⟩ := Option.map_eq_some_iff.mp final
  have allowed : ∀ action ∈ waitsFor 0xffffffff, ∀ system : MpEndSystem,
      action.Addressed ∧ system.Lasting action := by
    simp [waitsFor, taken, MpEndAction.Addressed, MpEndSystem.Lasting, threadLimit]
  obtain ⟨counted, occupied⟩ := waiters_counted rfl (Machine.run_of_execute allowed success)
  refine ⟨system, events, success, count, counted, ?_⟩
  obtain ⟨thread, first, -⟩ := occupied (by rw [count]; decide)
  exact ⟨thread, first⟩

/-! ## A timeout -/

/-- The only timer that runs is started. -/
theorem startThreadTimer_alone {kernel : Kernel} {thread : ThreadId} {time : BitVec 32}
    (stopped : (kernel.timers (.thread thread)).activated = false)
    (alone : kernel.timerLinks.next .timerList = .timerList) (small : time < halfTickMax) :
    startThreadTimer kernel thread time = some (.eok,
      linkTimer (setDeadline (rtTimerControl kernel (.thread thread) (.setTime time))
        (.thread thread)) .timerList (.thread thread)) := by
  have idle : ((rtTimerControl kernel (.thread thread) (.setTime time)).timers
      (.thread thread)).activated = false := by
    simpa [rtTimerControl, Kernel.setTimer] using stopped
  have timed : ((rtTimerControl kernel (.thread thread) (.setTime time)).timers
      (.thread thread)).initTick = time := by
    simp [rtTimerControl, Kernel.setTimer]
  have vacant : (setDeadline (rtTimerControl kernel (.thread thread) (.setTime time))
      (.thread thread)).timerLinks.next .timerList = .timerList := alone
  unfold startThreadTimer rtTimerStart
  rw [if_neg (by simp [idle]), timed, if_pos small]
  dsimp only
  rw [vacant, Links.scan, if_pos rfl]
  rfl

/-- The only timer that runs times its thread out. -/
theorem rtTimerCheck_alone {kernel called : Kernel} {thread : ThreadId}
    (front : kernel.timerLinks.next .timerList = .timer (.thread thread))
    (due : kernel.rtTick - (kernel.timers (.thread thread)).timeoutTick < halfTickMax)
    (call : rtThreadTimeout (kernel.unlinkTimer (.thread thread)) thread = some called)
    (oneShot : (called.timers (.thread thread)).periodic = false)
    (last : called.timerLinks.next .timerList = .timerList) :
    rtTimerCheck threadTimeoutFunc kernel =
      some (called.deactivate (.thread thread), [.thread thread]) := by
  have finish : rtTimerFinish called (.thread thread) =
      some (called.deactivate (.thread thread)) := by
    simp [rtTimerFinish, oneShot]
  have vacant : (called.deactivate (.thread thread)).timerLinks.next .timerList = .timerList :=
    last
  have rest : rtTimerCheckLoop threadTimeoutFunc called.rtTick (called.deactivate (.thread thread)) =
      some (called.deactivate (.thread thread), []) := by
    rw [rtTimerCheckLoop, vacant]
  rw [rtTimerCheck, rtTimerCheckLoop, front]
  dsimp only
  rw [if_pos due]
  have fires : threadTimeoutFunc (.thread thread) (kernel.unlinkTimer (.thread thread)) =
      some called := call
  simp [fires, finish, rest]

section

variable {system : MpEndSystem} {kernel : Kernel}

/-- The first section of a call that goes on. -/
theorem MpEndSystem.enter_step {context : Context} {call : MpCall} {mp : MemPool} {point : MpPoint}
    (running : context.Running system.pool.kernel) (idle : system.pool.frames context = none)
    (admitted : system.admits (.enter context call) = true)
    (quiet : MpSystem.marks context call = [])
    (first : call.enter system.pool.kernel system.pool.mp context =
      some (kernel, mp, .goesOn point)) :
    mpEndMachine.step system (.use (.enter context call)) =
      some ({ system with
        pool := system.pool.setFrame context kernel mp (some (call, point)) }, []) := by
  simp only [mpEndMachine, MpEndAction.apply, admitted, mpMachine, MpAction.apply, MpSystem.enter,
    running, idle, first, MpSystem.settle, quiet]
  rfl

theorem MpEndSystem.tick_step {fired : List TimerId}
    (tick : rtTickIncrease threadTimeoutFunc system.pool.kernel = some (kernel, fired)) :
    mpEndMachine.step system (.use (.around .tickIncrease)) =
      some ({ system with pool := { system.pool with kernel := kernel } }, []) := by
  simp [mpEndMachine, MpEndAction.apply, MpEndSystem.admits, mpMachine, MpAction.apply,
    Surroundings.apply, tick]

end

def takenPool : MpEndSystem :=
  ((mpEndMachine.execute .oneBlock taken).map Prod.fst).getD .oneBlock

/-- Thread 0 is on the suspend list, with its timer running. -/
def waitingKernel : Kernel :=
  let kernel := (rtThreadSuspend takenPool.pool.kernel 0).2.linkThreadAfter (.wait (.mempool 0)) 0
  linkTimer (setDeadline (rtTimerControl kernel (.thread 0) (.setTime 1)) (.thread 0))
    .timerList (.thread 0)

/-- Thread 0 waits for one tick, and thread 1 runs. -/
def waitingPool : MpEndSystem :=
  let mp := { takenPool.pool.mp with suspendThreadCount := 1#32 }
  let pool := takenPool.pool.setFrame (.thread 0) waitingKernel mp (some (.alloc 1, .suspended))
  { takenPool with
    pool := pool.setFrame (.thread 0) (rtSchedule waitingKernel) mp (some (.alloc 1, .woken)) }

theorem waitsFor_one : mpEndMachine.execute .oneBlock (waitsFor 1) =
    some (waitingPool, [.allocated (.thread 1) 0x1004]) := by
  have alloc : MpCall.enter takenPool.pool.kernel takenPool.pool.mp (.thread 0) (.alloc 1#32) =
      some (waitingKernel, { takenPool.pool.mp with suspendThreadCount := 1#32 },
        .goesOn .suspended) := by
    change (startThreadTimer ((rtThreadSuspend takenPool.pool.kernel 0).2.linkThreadAfter
      (.wait (.mempool 0)) 0) 0 1#32).bind _ = _
    rw [startThreadTimer_alone rfl rfl (by decide)]
    rfl
  have running : (Context.thread 0).Running takenPool.pool.kernel := by decide
  have entered := MpEndSystem.enter_step running rfl rfl rfl alloc
  have begun : mpEndMachine.execute .oneBlock taken =
      some (takenPool, [.allocated (.thread 1) 0x1004]) := rfl
  exact Machine.execute_append begun (Machine.execute_cons entered rfl)

/-- One tick times thread 0 out. The count stays, and `rt_mp_free` would take the list head
for a thread. -/
theorem timeout_not_counted :
    ∃ system, mpEndMachine.Run (fun _ action => action.Addressed) .oneBlock
        (waitsFor 1 ++ [.use (.around .tickIncrease)]) [.allocated (.thread 1) 0x1004] system ∧
      system.pool.mp.suspendThreadCount = 1#32 ∧ ¬ system.pool.Counted ∧
      system.pool.live = [0x1004] ∧
      system.pool.kernel.threadLinks.next (.wait (.mempool 0)) = .wait (.mempool 0) := by
  obtain ⟨kernel, tick, empty⟩ : ∃ kernel,
      rtTickIncrease threadTimeoutFunc waitingPool.pool.kernel = some (kernel, [.thread 0]) ∧
        kernel.threadLinks.next (.wait (.mempool 0)) = .wait (.mempool 0) :=
    ⟨_, Option.bind_eq_some_iff.mpr ⟨(chargeTick { waitingPool.pool.kernel with rtTick := 1 } 1).1,
      rfl, rtTimerCheck_alone rfl (by decide) rfl rfl rfl⟩, rfl⟩
  have allowed : ∀ action ∈ waitsFor 1, ∀ _ : MpEndSystem, action.Addressed := by
    simp [waitsFor, taken, MpEndAction.Addressed, threadLimit]
  have waits : mpEndMachine.Run (fun _ action => action.Addressed) .oneBlock (waitsFor 1)
      [.allocated (.thread 1) 0x1004] waitingPool :=
    Machine.run_of_execute allowed waitsFor_one
  have addressed : MpEndAction.Addressed (.use (.around .tickIncrease)) := trivial
  have run := Machine.Run.snoc waits addressed (MpEndSystem.tick_step tick)
  refine ⟨_, run, rfl, ?_, rfl, empty⟩
  rintro ⟨waiting, listed, counted⟩
  have one : waiting.card = 1 := counted.symm
  obtain ⟨waiter, member⟩ := Finset.card_pos.mp (by omega : 0 < waiting.card)
  obtain ⟨count, positive, there, apart⟩ := (listed waiter).mp member
  exact apart 1 (by decide) positive empty

end RtThread
