import RtThread.Kernel.WaitSteps

/-!
# One tick

`rt_tick_increase` may rotate the running thread and times out waiting threads.
Everything else about the threads stays as it is.
-/

namespace RtThread

open RtThread.Std

/-- The thread waits as before, or does not. -/
structure Stays (kernel next : Kernel) (home home' : ThreadId → Option ThreadNode)
    (thread : ThreadId) : Prop where
  stat : (next.threads thread).stat = (kernel.threads thread).stat
  error : (next.threads thread).error = (kernel.threads thread).error
  eventSet : (next.threads thread).eventSet = (kernel.threads thread).eventSet
  eventInfo : (next.threads thread).eventInfo = (kernel.threads thread).eventInfo
  waits : ∀ list, home' thread = some (.wait list) ↔ home thread = some (.wait list)

/-- The thread has been suspended and its timer has made it ready. -/
structure TimesOut (kernel next : Kernel) (home' : ThreadId → Option ThreadNode)
    (thread : ThreadId) : Prop where
  suspended : (kernel.threads thread).stat = .suspend
  ready : (next.threads thread).stat = .ready
  error : (next.threads thread).error = .etimeout
  leaves : ∀ list, home' thread ≠ some (.wait list)

/-- What the passage of time does. -/
structure Elapses (kernel next : Kernel) (home home' : ThreadId → Option ThreadNode) : Prop where
  currentPriority : ∀ thread,
    (next.threads thread).currentPriority = (kernel.threads thread).currentPriority
  initPriority : ∀ thread,
    (next.threads thread).initPriority = (kernel.threads thread).initPriority
  thread : ∀ thread, Stays kernel next home home' thread ∨ TimesOut kernel next home' thread
  current : next.rtCurrentThread = kernel.rtCurrentThread ∨
    ∀ thread, next.rtCurrentThread = .thread thread → (next.threads thread).stat = .ready
  nest : next.rtSchedulerLockNest = kernel.rtSchedulerLockNest
  objects : next.objects = kernel.objects

namespace Elapses

variable {kernel middle next : Kernel} {home home' home'' : ThreadId → Option ThreadNode}

theorem mutexes (elapses : Elapses kernel next home home') : next.mutexes = kernel.mutexes :=
  congrArg Objects.mutexes elapses.objects

theorem ready (elapses : Elapses kernel next home home') {thread : ThreadId}
    (isReady : (kernel.threads thread).stat = .ready) : (next.threads thread).stat = .ready := by
  rcases elapses.thread thread with stays | timesOut
  · exact stays.stat.trans isReady
  · exact timesOut.ready

theorem trans (first : Elapses kernel middle home home')
    (second : Elapses middle next home' home'') : Elapses kernel next home home'' where
  currentPriority thread := (second.currentPriority thread).trans (first.currentPriority thread)
  initPriority thread := (second.initPriority thread).trans (first.initPriority thread)
  thread thread := by
    rcases first.thread thread with stays | timesOut
    · rcases second.thread thread with stays' | timesOut'
      · exact Or.inl ⟨stays'.stat.trans stays.stat, stays'.error.trans stays.error,
          stays'.eventSet.trans stays.eventSet, stays'.eventInfo.trans stays.eventInfo,
          fun list => (stays'.waits list).trans (stays.waits list)⟩
      · exact Or.inr ⟨stays.stat.symm.trans timesOut'.suspended, timesOut'.ready,
          timesOut'.error, timesOut'.leaves⟩
    · rcases second.thread thread with stays' | timesOut'
      · exact Or.inr ⟨timesOut.suspended, stays'.stat.trans timesOut.ready,
          stays'.error.trans timesOut.error,
          fun list there => timesOut.leaves list ((stays'.waits list).mp there)⟩
      · exact nomatch timesOut.ready.symm.trans timesOut'.suspended
  current := by
    rcases second.current with same | isReady
    · rcases first.current with same' | isReady
      · exact Or.inl (same.trans same')
      · right
        intro thread selected
        exact second.ready (isReady thread (same.symm.trans selected))
    · exact Or.inr isReady
  nest := second.nest.trans first.nest
  objects := second.objects.trans first.objects

theorem suspended (elapses : Elapses kernel next home home') {thread : ThreadId}
    (asleep : (next.threads thread).stat = .suspend) :
    (kernel.threads thread).stat = .suspend := by
  rcases elapses.thread thread with stays | timesOut
  · exact stays.stat.symm.trans asleep
  · exact timesOut.suspended

/-- A suspended thread that has become ready has been timed out. -/
theorem timesOut (elapses : Elapses kernel next home home') {thread : ThreadId}
    (asleep : (kernel.threads thread).stat = .suspend)
    (isReady : (next.threads thread).stat = .ready) : TimesOut kernel next home' thread := by
  refine (elapses.thread thread).resolve_left fun stays => ?_
  exact nomatch isReady.symm.trans (stays.stat.trans asleep)

/-- Records, homes and objects are as before, but for the time slices. -/
theorem of_same
    (threads : ∀ thread, ∃ ticks,
      next.threads thread = { kernel.threads thread with remainingTick := ticks })
    (waits : ∀ thread list, home' thread = some (.wait list) ↔ home thread = some (.wait list))
    (rest : SameRest kernel next) : Elapses kernel next home home' := by
  refine ⟨?_, ?_, fun thread => Or.inl ⟨?_, ?_, ?_, ?_, waits thread⟩,
    Or.inl rest.current, rest.nest, rest.objects⟩
  · intro thread
    obtain ⟨ticks, record⟩ := threads thread
    rw [record]
  · intro thread
    obtain ⟨ticks, record⟩ := threads thread
    rw [record]
  all_goals
    obtain ⟨ticks, record⟩ := threads thread
    rw [record]

theorem refl (kernel : Kernel) (home : ThreadId → Option ThreadNode) :
    Elapses kernel kernel home home :=
  .of_same (fun _ => ⟨_, rfl⟩) (fun _ _ => Iff.rfl) (.refl kernel)

theorem schedule (inv : WaitInv kernel home) : Elapses kernel (rtSchedule kernel) home home := by
  have same : (rtSchedule kernel).rtSchedulerLockNest = kernel.rtSchedulerLockNest ∧
      (rtSchedule kernel).objects = kernel.objects := by
    unfold rtSchedule
    dsimp only
    split
    · split <;> exact ⟨rfl, rfl⟩
    · exact ⟨rfl, rfl⟩
  refine ⟨by simp, by simp,
    fun thread => Or.inl ⟨by simp, by simp, by simp, by simp, fun _ => Iff.rfl⟩, ?_,
    same.1, same.2⟩
  rw [rtSchedule_current]
  split
  · right
    intro thread selected
    rw [rtSchedule_threads]
    exact inv.selected_ready selected
  · exact Or.inl rfl

end Elapses

namespace WaitInv

variable {kernel next : Kernel} {home : ThreadId → Option ThreadNode} {thread : ThreadId}

/-! ### The time slice -/

/-- Move a ready thread to the end of its list. -/
theorem yieldSection (inv : WaitInv kernel home) (thread : ThreadId) :
    ∃ home', WaitInv (rtThreadYieldSection kernel thread).1 home' ∧
      Elapses kernel (rtThreadYieldSection kernel thread).1 home home' := by
  unfold rtThreadYieldSection
  split
  · rename_i eligible
    have unlinked := inv.unlinkThread thread
    have placed := unlinked.placed.insertBefore_head
      (ThreadNode.isHead_ready (kernel.threads thread).currentPriority)
      (ThreadNode.not_isHead_tlist thread) (by simp)
    have linked := unlinked.link placed (fun _ _ => eligible.1) (by simp)
    rw [Function.update_idem] at linked
    refine ⟨_, linked, .of_same (fun _ => ⟨_, rfl⟩) ?_ ⟨rfl, rfl, rfl⟩⟩
    intro other list
    by_cases same : other = thread
    · subst same
      simpa using inv.not_waiting_of_ready eligible.1 list
    · simp [same]
  · exact ⟨home, inv, .refl kernel home⟩

theorem chargeTick (inv : WaitInv kernel home) (thread : ThreadId) :
    WaitInv (chargeTick kernel thread).1 home ∧
      Elapses kernel (RtThread.chargeTick kernel thread).1 home home := by
  have charged : ∀ ticks : BitVec 32,
      WaitInv (kernel.setThread thread { kernel.threads thread with remainingTick := ticks }) home ∧
        Elapses kernel
          (kernel.setThread thread { kernel.threads thread with remainingTick := ticks })
          home home := by
    intro ticks
    refine ⟨inv.setThread_same _ rfl, .of_same ?_ (fun _ _ => Iff.rfl) ⟨rfl, rfl, rfl⟩⟩
    intro other
    by_cases same : other = thread
    · subst same
      exact ⟨ticks, by simp [Kernel.setThread]⟩
    · exact ⟨_, by simp only [Kernel.setThread, Function.update_of_ne same]; rfl⟩
  unfold RtThread.chargeTick
  dsimp only
  split <;> exact charged _

theorem checkTimeSlice (inv : WaitInv kernel home) (step : checkTimeSlice kernel = some next) :
    ∃ home', WaitInv next home' ∧ Elapses kernel next home home' := by
  unfold RtThread.checkTimeSlice at step
  split at step
  · rename_i thread _
    obtain ⟨charged, elapses⟩ := inv.chargeTick thread
    dsimp only at step
    split at step
    · unfold rtThreadYield at step
      split at step
      · rename_i current _
        obtain ⟨home', rotated, elapses'⟩ := charged.yieldSection current
        obtain rfl := Option.some_inj.mp step
        dsimp only
        refine ⟨home', ?_⟩
        split
        · exact ⟨rotated.schedule, elapses.trans (elapses'.trans (.schedule rotated))⟩
        · exact ⟨rotated, elapses.trans elapses'⟩
      · cases step
    · obtain rfl := Option.some_inj.mp step
      exact ⟨home, charged, elapses⟩
  · cases step

/-! ### Timeouts -/

theorem deactivate_schedule (kernel : Kernel) (timer : TimerId) :
    (rtSchedule kernel).deactivate timer = rtSchedule (kernel.deactivate timer) := by
  have selected : highestReadyThread (kernel.deactivate timer) = highestReadyThread kernel := rfl
  unfold rtSchedule
  rw [selected]
  dsimp only
  by_cases unlocked : kernel.rtSchedulerLockNest = 0
  · rw [if_pos unlocked,
      if_pos (show (kernel.deactivate timer).rtSchedulerLockNest = 0 from unlocked)]
    by_cases other : highestReadyThread kernel ≠ kernel.rtCurrentThread
    · rw [if_pos other, if_pos (show highestReadyThread kernel ≠
        (kernel.deactivate timer).rtCurrentThread from other)]
      rfl
    · rw [if_neg other, if_neg (show ¬ highestReadyThread kernel ≠
        (kernel.deactivate timer).rtCurrentThread from other)]
  · rw [if_neg unlocked,
      if_neg (show ¬ (kernel.deactivate timer).rtSchedulerLockNest = 0 from unlocked)]

/-- Time out one thread whose timer has been taken from the list, and clear the
flag of that timer. -/
theorem timeout (inv : WaitInv kernel home)
    (active : (kernel.timers (.thread thread)).activated = true) {called : Kernel}
    (call : rtThreadTimeout (kernel.unlinkTimer (.thread thread)) thread = some called) :
    called.timers = kernel.timers ∧ ((called.deactivate (.thread thread)).threads thread).stat =
      .ready ∧ ∃ home', WaitInv (called.deactivate (.thread thread)) home' ∧
        Elapses kernel (called.deactivate (.thread thread)) home home' := by
  have suspended := inv.armed thread active
  -- The flag may as well be cleared before the thread is inserted.
  let stopped := ((kernel.unlinkTimer (.thread thread)).deactivate (.thread thread)).setError
    thread .etimeout
  have loose : WaitInv (stopped.unlinkThread thread) (Function.update home thread none) :=
    ((inv.stopTimer (.thread thread)).setError thread .etimeout).unlinkThread thread
  have ready := loose.insertThread (Function.update_self ..)
    (by simp [stopped, Kernel.setError, Kernel.setThread, Kernel.unlinkThread, Kernel.deactivate,
      Kernel.setTimer])
  rw [Function.update_idem] at ready
  have threads : (rtScheduleInsertThread (stopped.unlinkThread thread) thread).threads =
      Function.update kernel.threads thread
        { kernel.threads thread with error := .etimeout, stat := .ready } := by
    simp [stopped, Kernel.setError, Kernel.setThread, Kernel.unlinkThread, Kernel.unlinkTimer,
      Kernel.deactivate, Kernel.setTimer]
  have inserted : Elapses kernel (rtScheduleInsertThread (stopped.unlinkThread thread) thread)
      home (Function.update home thread
        (some (.ready ((stopped.unlinkThread thread).threads thread).currentPriority))) := by
    refine ⟨?_, ?_, ?_, Or.inl rfl, rfl, rfl⟩ <;> intro other
    · rw [threads]
      by_cases self : other = thread <;> simp [self]
    · rw [threads]
      by_cases self : other = thread <;> simp [self]
    · by_cases self : other = thread
      · subst self
        exact Or.inr ⟨suspended, by rw [threads]; simp, by rw [threads]; simp, by simp⟩
      · have same : (rtScheduleInsertThread (stopped.unlinkThread thread) thread).threads other =
            kernel.threads other := by rw [threads, Function.update_of_ne self]
        exact Or.inl ⟨by rw [same], by rw [same], by rw [same], by rw [same], by simp [self]⟩
  rw [rtThreadTimeout, if_pos (show ((kernel.unlinkTimer _).threads thread).stat = .suspend
    from suspended), Option.some_inj] at call
  have isReady : ((rtSchedule (rtScheduleInsertThread (stopped.unlinkThread thread) thread)).threads
      thread).stat = .ready := by
    rw [rtSchedule_threads, threads, Function.update_self]
  rw [← call, deactivate_schedule]
  exact ⟨(rtSchedule_sameTimers _).timers, isReady, _, ready.schedule,
    inserted.trans (.schedule ready)⟩

/-- The loop of `rt_timer_check` times out one thread after the other. -/
theorem checkLoop {currentTick : BitVec 32} {fired : List TimerId}
    (inv : WaitInv kernel home)
    (step : rtTimerCheckLoop threadTimeoutFunc currentTick kernel = some (next, fired)) :
    ∃ home', WaitInv next home' ∧ Elapses kernel next home home' ∧
      ∀ thread, .thread thread ∈ fired → TimesOut kernel next home' thread := by
  revert home
  refine Kernel.rtTimerCheckLoop.partial_correctness threadTimeoutFunc
    (fun _ kernel result => ∀ {home}, WaitInv kernel home →
      ∃ home', WaitInv result.1 home' ∧ Elapses kernel result.1 home home' ∧
        ∀ thread, .thread thread ∈ result.2 → TimesOut kernel result.1 home' thread) ?_
    currentTick kernel (next, fired) step
  intro loop ih currentTick kernel result step home inv
  split at step
  · obtain rfl := Option.some_inj.mp step
    exact ⟨home, inv, .refl kernel home, by simp⟩
  · rename_i timer entry
    split at step
    · obtain ⟨called, call, step⟩ := Option.bind_eq_some_iff.mp step
      obtain ⟨finished, finish, step⟩ := Option.bind_eq_some_iff.mp step
      obtain ⟨⟨last, later⟩, rest, done⟩ := Option.bind_eq_some_iff.mp step
      obtain rfl := Option.some_inj.mp done
      have active : (kernel.timers timer).activated = true := by
        obtain ⟨queue, listed⟩ := inv.listed
        rw [← listed.active]
        have head := listed.rings.next_head TimerNode.isHead_timerList
        rw [entry] at head
        cases queue with
        | nil => simp [timerLists] at head
        | cons first others =>
            simp only [timerLists, List.map_cons, List.headD_cons, TimerNode.timer.injEq] at head
            simp [head]
      cases timer with
      | object index => cases (inv.unused index).symm.trans active
      | thread thread =>
          obtain ⟨timers, isReady, home', timed, elapses⟩ := inv.timeout active call
          have oneShot := inv.oneShot thread
          rw [rtTimerFinish, timers, oneShot] at finish
          obtain rfl := Option.some_inj.mp finish
          obtain ⟨home'', kept, elapses', timesOut⟩ := ih _ _ _ rest timed
          refine ⟨home'', kept, elapses.trans elapses', fun other member => ?_⟩
          rcases List.mem_cons.mp member with first | member
          · obtain rfl := TimerId.thread.inj first
            exact (elapses.trans elapses').timesOut (inv.armed other active)
              (elapses'.ready isReady)
          · have after := timesOut other member
            exact (elapses.trans elapses').timesOut (elapses.suspended after.suspended) after.ready
    · obtain rfl := Option.some_inj.mp step
      exact ⟨home, inv, .refl kernel home, by simp⟩

/-- A tick times out the threads whose timers it fires. -/
theorem tickIncrease_timesOut {fired : List TimerId} (inv : WaitInv kernel home)
    (step : rtTickIncrease threadTimeoutFunc kernel = some (next, fired)) :
    ∃ home', WaitInv next home' ∧ Elapses kernel next home home' ∧
      ∀ thread, .thread thread ∈ fired → TimesOut kernel next home' thread := by
  obtain ⟨charged, slice, check⟩ := Option.bind_eq_some_iff.mp step
  have counted : WaitInv { kernel with rtTick := kernel.rtTick + 1#32 } home :=
    inv.congr rfl rfl rfl fun _ => rfl
  have elapses : Elapses kernel { kernel with rtTick := kernel.rtTick + 1#32 } home home :=
    .of_same (fun _ => ⟨_, rfl⟩) (fun _ _ => Iff.rfl) ⟨rfl, rfl, rfl⟩
  obtain ⟨middle, sliced, elapses'⟩ := counted.checkTimeSlice slice
  obtain ⟨home', checked, elapses'', timesOut⟩ := sliced.checkLoop check
  have before := elapses.trans elapses'
  refine ⟨home', checked, before.trans elapses'', fun thread member => ?_⟩
  have after := timesOut thread member
  exact (before.trans elapses'').timesOut (before.suspended after.suspended) after.ready

theorem tickIncrease {fired : List TimerId} (inv : WaitInv kernel home)
    (step : rtTickIncrease threadTimeoutFunc kernel = some (next, fired)) :
    ∃ home', WaitInv next home' ∧ Elapses kernel next home home' := by
  obtain ⟨home', kept, elapses, -⟩ := inv.tickIncrease_timesOut step
  exact ⟨home', kept, elapses⟩

end WaitInv

end RtThread
