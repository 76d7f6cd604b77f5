import RtThread.Kernel.TimerCallbacks

/-!
# The end of a timer check

`rt_timer_check` starts a periodic timer again while it drains the list, and tests the front of
the list against the same tick. The check ends unless what it starts is due at once.
-/

namespace RtThread

open RtThread.Std

/-- The expiry test. -/
def Due (kernel : Kernel) (timer : TimerId) : Prop :=
  kernel.rtTick - (kernel.timers timer).timeoutTick < halfTickMax

/-- The list is any one whose timers pass the assertion of `rt_timer_start`. -/
structure TimersStarted (kernel : Kernel) (queue : List TimerId) : Prop
    extends TimerListed kernel queue where
  small : ∀ timer ∈ queue, (kernel.timers timer).initTick < halfTickMax

/-- The deadline of `timer` is less than `RT_TICK_MAX/2` away, in the future or in the past. -/
def Near (kernel : Kernel) (timer : TimerId) : Prop :=
  Due kernel timer ∨ remaining kernel timer < halfTickMax.toNat

/-- `timer`, started now, comes into the list in front of `other`. -/
def goesBefore (kernel : Kernel) (timer other : TimerId) : Bool :=
  (kernel.timers other).timeoutTick - (kernel.rtTick + (kernel.timers timer).initTick) <
    halfTickMax

/-- The timers that are due are in front, none of them has a period of 0, and none that starts
again goes in front of one that has not been fired yet. -/
structure Drains (kernel : Kernel) (due rest : List TimerId) : Prop where
  expired : ∀ timer ∈ due, Due kernel timer
  pending : ∀ timer ∈ rest, ¬ Due kernel timer
  periods : ∀ timer ∈ due, (kernel.timers timer).periodic = true →
    (kernel.timers timer).initTick ≠ 0
  passes : due.Pairwise fun timer other =>
    (kernel.timers timer).periodic = true → goesBefore kernel timer other = false

/-- The list after `timer`, which was in front of it, has been fired. -/
def relinked (kernel : Kernel) (timer : TimerId) (queue : List TimerId) : List TimerId :=
  if (kernel.timers timer).periodic then queued (goesBefore kernel timer) timer queue else queue

/-- Firing `timer` changes its record only. -/
structure Fired (kernel : Kernel) (timer : TimerId) (next : Kernel) : Prop where
  tick : next.rtTick = kernel.rtTick
  timers : next.timers = Function.update kernel.timers timer
    ((kernel.timers timer).expire kernel.rtTick)

section

variable {timeoutFunc : TimerId → Kernel → Option Kernel} {kernel called next : Kernel}
  {timer other : TimerId} {queue due rest fired : List TimerId}

theorem queued_congr_stop {stop stop' : TimerId → Bool}
    (agree : ∀ other ∈ queue, stop other = stop' other) :
    queued stop timer queue = queued stop' timer queue := by
  induction queue with
  | nil => rfl
  | cons head tail ih =>
      have here := agree head List.mem_cons_self
      have later := ih fun other member => agree other (List.mem_cons_of_mem _ member)
      cases decision : stop' head with
      | true => simp [queued, here, decision]
      | false =>
          have first : queued stop timer (head :: tail) = head :: queued stop timer tail := by
            simp [queued, here, decision]
          have second : queued stop' timer (head :: tail) = head :: queued stop' timer tail := by
            simp [queued, decision]
          rw [first, second, later]

/-- Only what the callback does not touch decides where the timer goes. -/
theorem TimersStarted.finish (started : TimersStarted kernel (timer :: queue))
    (same : SameTimers (kernel.unlinkTimer timer) called) :
    ∃ next, rtTimerFinish called timer = some next ∧
      TimerListed next (relinked kernel timer queue) ∧ Fired kernel timer next := by
  have timers : called.timers = kernel.timers := same.timers
  have tick : called.rtTick = kernel.rtTick := same.tick
  have fresh := (List.nodup_cons.mp started.nodup).1
  have stopped : TimerListed (called.deactivate timer) queue := by
    have cut := started.toTimerListed.stop timer
    rw [List.erase_cons_head] at cut
    refine cut.congr same.links fun other => ?_
    simp [Kernel.deactivate, Kernel.setTimer, Kernel.unlinkTimer, timers]
  cases periodic : (kernel.timers timer).periodic with
  | false =>
      refine ⟨called.deactivate timer, ?_, ?_, tick, ?_⟩
      · simp [rtTimerFinish, timers, periodic]
      · rwa [relinked, if_neg (by simp [periodic])]
      · simp [Kernel.deactivate, Kernel.setTimer, Timer.expire, periodic, timers]
  | true =>
      have idle : ((called.deactivate timer).timers timer).activated = false := by
        simp [Kernel.deactivate, Kernel.setTimer]
      have small : ((called.deactivate timer).timers timer).initTick < halfTickMax := by
        simpa [Kernel.deactivate, Kernel.setTimer, timers] using
          started.small timer List.mem_cons_self
      have active : (called.timers timer).activated = true := by
        rw [timers, ← started.active]
        exact List.mem_cons_self
      obtain ⟨next, step, listed, records⟩ := stopped.start idle small
      refine ⟨next, ?_, ?_, ?_, ?_⟩
      · simp [rtTimerFinish, timers ▸ periodic, active, step]
      · rw [relinked, if_pos periodic]
        have agree : ∀ other ∈ queue,
            stopsAt (called.deactivate timer) timer other = goesBefore kernel timer other := by
          intro other member
          have apart : other ≠ timer := fun equal => fresh (equal ▸ member)
          simp [stopsAt, stopsInsertion, setDeadline, goesBefore, Kernel.deactivate,
            Kernel.setTimer, apart, timers, tick]
        rwa [queued_congr_stop agree] at listed
      · rw [rtTimerStart_frame step]
        exact tick
      · rw [records]
        simp [Kernel.deactivate, Kernel.setTimer, Timer.expire, periodic, timers, tick]

/-! ## The comparisons of ticks -/

/-- A deadline in the past. -/
def Late (kernel : Kernel) (timer : TimerId) : Prop :=
  Due kernel timer ∧ (kernel.timers timer).timeoutTick ≠ kernel.rtTick

theorem halfTickMax_toNat : halfTickMax.toNat = 2 ^ 31 - 1 := rfl

/-- A period that is not 0 leads to a deadline in the future. -/
theorem not_due_restarted {tick period : BitVec 32} (small : period < halfTickMax)
    (some_ : period ≠ 0) : ¬ tick - (tick + period) < halfTickMax := by
  have positive : 0 < period.toNat := by
    have nonzero : period.toNat ≠ 0 := fun none_ => some_ (BitVec.eq_of_toNat_eq none_)
    omega
  rw [sub_add_cancel_left, BitVec.lt_def, BitVec.toNat_neg, halfTickMax_toNat]
  rw [BitVec.lt_def, halfTickMax_toNat] at small
  omega

/-- A timer that is due now does not stop the scan for a deadline in the future. -/
theorem goesBefore_now (small : (kernel.timers timer).initTick < halfTickMax)
    (some_ : (kernel.timers timer).initTick ≠ 0)
    (now : (kernel.timers other).timeoutTick = kernel.rtTick) :
    goesBefore kernel timer other = false := by
  rw [goesBefore, now]
  exact decide_eq_false (not_due_restarted small some_)

/-- What does not stop the scan for the current tick is a deadline in the past. -/
theorem late_of_passes (near : Near kernel other)
    (none_ : (kernel.timers timer).initTick = 0) (passes : goesBefore kernel timer other = false) :
    Late kernel other := by
  have far : ¬ (kernel.timers other).timeoutTick - kernel.rtTick < halfTickMax := by
    have decided := of_decide_eq_false passes
    rwa [none_, show kernel.rtTick + (0 : BitVec 32) = kernel.rtTick from BitVec.add_zero _]
      at decided
  refine ⟨near.resolve_right fun ahead => far ?_, fun now => far ?_⟩
  · exact BitVec.lt_def.mpr ahead
  · rw [now, BitVec.sub_self]
    decide

theorem Fired.initTick (step : Fired kernel timer next) (other : TimerId) :
    (next.timers other).initTick = (kernel.timers other).initTick := by
  rw [step.timers]
  by_cases same : other = timer
  · subst same
    rw [Function.update_self, Timer.expire]
    split <;> rfl
  · rw [Function.update_of_ne same]

theorem Fired.record (step : Fired kernel timer next) (apart : other ≠ timer) :
    next.timers other = kernel.timers other := by
  rw [step.timers, Function.update_of_ne apart]

theorem Fired.due_iff (step : Fired kernel timer next) (apart : other ≠ timer) :
    Due next other ↔ Due kernel other := by
  rw [Due, Due, step.tick, step.record apart]

theorem Fired.goesBefore (step : Fired kernel timer next) {first second : TimerId}
    (apart : first ≠ timer) (apart' : second ≠ timer) :
    goesBefore next first second = RtThread.goesBefore kernel first second := by
  rw [RtThread.goesBefore, RtThread.goesBefore, step.tick, step.record apart,
    step.record apart']

/-- A timer that starts again is due at once if and only if its period is 0. -/
theorem Fired.due_self_iff (step : Fired kernel timer next)
    (periodic : (kernel.timers timer).periodic = true)
    (small : (kernel.timers timer).initTick < halfTickMax) :
    Due next timer ↔ (kernel.timers timer).initTick = 0 := by
  have record : (next.timers timer).timeoutTick =
      kernel.rtTick + (kernel.timers timer).initTick := by
    simp [step.timers, Timer.expire, periodic]
  rw [Due, step.tick, record]
  constructor
  · intro due
    by_contra some_
    exact not_due_restarted small some_ due
  · intro none_
    rw [none_, sub_add_cancel_left]
    decide

theorem Fired.near_iff (step : Fired kernel timer next) (apart : other ≠ timer) :
    Near next other ↔ Near kernel other := by
  rw [Near, Near, step.due_iff apart, remaining, remaining, step.record apart, step.tick]

theorem Fired.near_self (step : Fired kernel timer next)
    (periodic : (kernel.timers timer).periodic = true)
    (small : (kernel.timers timer).initTick < halfTickMax) : Near next timer := by
  refine Or.inr ?_
  simpa [remaining, step.timers, step.tick, Timer.expire, periodic, BitVec.lt_def] using small

theorem Fired.late_iff (step : Fired kernel timer next) (apart : other ≠ timer) :
    Late next other ↔ Late kernel other := by
  rw [Late, Late, step.due_iff apart, step.record apart, step.tick]

/-- A timer that has just been started again is not late. -/
theorem Fired.not_late_self (step : Fired kernel timer next)
    (periodic : (kernel.timers timer).periodic = true)
    (small : (kernel.timers timer).initTick < halfTickMax) : ¬ Late next timer := by
  rintro ⟨due, past⟩
  refine past ?_
  have none_ := (step.due_self_iff periodic small).mp due
  simp [step.timers, step.tick, Timer.expire, periodic, none_]

/-! ## One round of the loop -/

theorem mem_relinked : other ∈ relinked kernel timer queue ↔
    (other = timer ∧ (kernel.timers timer).periodic = true) ∨ other ∈ queue := by
  cases periodic : (kernel.timers timer).periodic with
  | false => simp [relinked, periodic]
  | true => simp [relinked, periodic]

/-- Firing the timer in front leaves the others as they are. -/
theorem TimersStarted.round (quiet : LeavesTimers timeoutFunc)
    (started : TimersStarted kernel (timer :: queue))
    (call : timeoutFunc timer (kernel.unlinkTimer timer) = some called) :
    called.rtTick = kernel.rtTick ∧ ∃ next, rtTimerFinish called timer = some next ∧
      TimersStarted next (relinked kernel timer queue) ∧ Fired kernel timer next := by
  have same := quiet timer _ called call
  obtain ⟨next, finish, listed, step⟩ := started.finish same
  refine ⟨same.tick, next, finish, ⟨listed, fun other member => ?_⟩, step⟩
  rw [step.initTick]
  rcases mem_relinked.mp member with ⟨rfl, -⟩ | member
  · exact started.small other List.mem_cons_self
  · exact started.small other (List.mem_cons_of_mem _ member)

/-- The loop ends at a timer that is not due. -/
theorem rtTimerCheckLoop_ends (listed : TimerListed kernel queue)
    (ends : ∀ timer ∈ queue.head?, ¬ Due kernel timer) :
    rtTimerCheckLoop timeoutFunc kernel.rtTick kernel = some (kernel, []) := by
  cases queue with
  | nil =>
      have head := listed.rings.next_head TimerNode.isHead_timerList
      rw [rtTimerCheckLoop]
      simp [head, timerLists]
  | cons timer queue => exact checkLoop_late listed.front (ends timer rfl)

/-- Without a timer to fire there is none in front that is due. -/
theorem TimersStarted.ends {final : Kernel} (started : TimersStarted kernel queue)
    (loop : rtTimerCheckLoop timeoutFunc kernel.rtTick kernel = some (final, [])) :
    ∀ timer ∈ queue.head?, ¬ Due kernel timer := by
  intro timer member due
  cases queue with
  | nil => cases member
  | cons head queue =>
      obtain rfl := Option.some_inj.mp member
      rw [checkLoop_due started.front due] at loop
      obtain ⟨called, call, loop⟩ := Option.bind_eq_some_iff.mp loop
      obtain ⟨finished, finish, loop⟩ := Option.bind_eq_some_iff.mp loop
      obtain ⟨result, later, pair⟩ := Option.map_eq_some_iff.mp loop
      cases (Prod.mk.inj pair).2

/-- What is fired first is the timer in front, and the loop goes on with the list after it. -/
theorem TimersStarted.fires {final : Kernel} (quiet : LeavesTimers timeoutFunc)
    (started : TimersStarted kernel queue)
    (loop : rtTimerCheckLoop timeoutFunc kernel.rtTick kernel = some (final, timer :: fired)) :
    ∃ tail next, queue = timer :: tail ∧ Due kernel timer ∧
      TimersStarted next (relinked kernel timer tail) ∧ Fired kernel timer next ∧
      rtTimerCheckLoop timeoutFunc next.rtTick next = some (final, fired) := by
  have due : ∃ head ∈ queue.head?, Due kernel head := by
    by_contra none_
    push Not at none_
    rw [rtTimerCheckLoop_ends started.toTimerListed none_, Option.some_inj, Prod.mk.injEq] at loop
    cases loop.2
  obtain ⟨head, first, due⟩ := due
  obtain ⟨tail, rfl⟩ := List.head?_eq_some_iff.mp first
  rw [checkLoop_due started.front due] at loop
  obtain ⟨called, call, loop⟩ := Option.bind_eq_some_iff.mp loop
  obtain ⟨finished, finish, loop⟩ := Option.bind_eq_some_iff.mp loop
  obtain ⟨⟨_, fired'⟩, later, pair⟩ := Option.map_eq_some_iff.mp loop
  obtain ⟨rfl, same⟩ := Prod.mk.inj pair
  obtain ⟨rfl, rfl⟩ := List.cons.inj same
  obtain ⟨calledTick, next, finish', started', step⟩ := started.round quiet call
  obtain rfl := Option.some_inj.mp (finish'.symm.trans finish)
  rw [calledTick, ← step.tick] at later
  exact ⟨tail, next, rfl, due, started', step, later⟩

/-! ## The whole check -/

/-- The timers that are due and those that are not, after `timer` has been fired. -/
theorem Drains.tail (drains : Drains kernel (timer :: due) rest) (step : Fired kernel timer next)
    (started : TimersStarted kernel (timer :: (due ++ rest))) :
    ∃ rest', relinked kernel timer (due ++ rest) = due ++ rest' ∧ Drains next due rest' := by
  have fresh := (List.nodup_cons.mp started.nodup).1
  have apart : ∀ other ∈ due ++ rest, other ≠ timer :=
    fun other member equal => fresh (equal ▸ member)
  obtain ⟨goes, passes⟩ := List.pairwise_cons.mp drains.passes
  have front : ∀ other ∈ due, other ≠ timer :=
    fun other member => apart other (List.mem_append_left _ member)
  have behind : ∀ other ∈ rest, ¬ Due next other := by
    intro other member
    rw [step.due_iff (apart other (List.mem_append_right _ member))]
    exact drains.pending other member
  have later (rest' : List TimerId) (pending : ∀ other ∈ rest', ¬ Due next other) :
      Drains next due rest' := by
    refine ⟨fun other member => ?_, pending, fun other member => ?_, ?_⟩
    · rw [step.due_iff (front other member)]
      exact drains.expired other (List.mem_cons_of_mem _ member)
    · rw [step.record (front other member)]
      exact drains.periods other (List.mem_cons_of_mem _ member)
    · refine passes.imp_of_mem fun first second pass => ?_
      rw [step.record (front _ first), step.goesBefore (front _ first) (front _ second)]
      exact pass
  cases periodic : (kernel.timers timer).periodic with
  | false => exact ⟨rest, by simp [relinked, periodic], later rest behind⟩
  | true =>
      refine ⟨queued (goesBefore kernel timer) timer rest, ?_, later _ fun other member => ?_⟩
      · rw [relinked, if_pos periodic, queued_append fun other member => goes other member periodic]
      · rcases mem_queued.mp member with rfl | member
        · rw [step.due_self_iff periodic (started.small other List.mem_cons_self)]
          exact drains.periods other List.mem_cons_self periodic
        · exact behind other member

/-- The timers that are due are fired, from front to back. -/
theorem Drains.fires (quiet : LeavesTimers timeoutFunc)
    (returns : ∀ timer kernel, (timeoutFunc timer kernel).isSome)
    (started : TimersStarted kernel (due ++ rest)) (drains : Drains kernel due rest) :
    ∃ final, rtTimerCheckLoop timeoutFunc kernel.rtTick kernel = some (final, due) := by
  induction due generalizing kernel rest with
  | nil =>
      refine ⟨kernel, rtTimerCheckLoop_ends started.toTimerListed fun timer member => ?_⟩
      exact drains.pending timer (List.mem_of_mem_head? member)
  | cons timer due ih =>
      obtain ⟨called, call⟩ :=
        Option.isSome_iff_exists.mp (returns timer (kernel.unlinkTimer timer))
      obtain ⟨calledTick, next, finish, started', step⟩ := started.round quiet call
      obtain ⟨rest', whole, later⟩ := drains.tail step started
      rw [List.append_eq, whole] at started'
      obtain ⟨final, loop⟩ := ih started' later
      refine ⟨final, ?_⟩
      rw [step.tick, ← calledTick] at loop
      rw [List.cons_append] at started
      rw [checkLoop_due started.front (drains.expired timer List.mem_cons_self), call,
        Option.bind_some, finish, Option.bind_some, loop]
      rfl

/-- Behind each timer that is not due there is one whose deadline has passed. -/
def Guarded (kernel : Kernel) : List TimerId → Prop
  | [] => True
  | timer :: queue => (¬ Due kernel timer → ∃ other ∈ queue, Late kernel other) ∧
      Guarded kernel queue

theorem guarded_of_late (late : ∀ timer ∈ queue, Late kernel timer) : Guarded kernel queue := by
  induction queue with
  | nil => trivial
  | cons head queue ih =>
      have due := (late head List.mem_cons_self).1
      exact ⟨fun pending => absurd due pending,
        ih fun timer member => late timer (List.mem_cons_of_mem _ member)⟩

theorem Guarded.congr (guarded : Guarded kernel queue) (step : Fired kernel timer next)
    (absent : timer ∉ queue) : Guarded next queue := by
  induction queue with
  | nil => trivial
  | cons head queue ih =>
      obtain ⟨apart, absent⟩ := List.ne_and_not_mem_of_not_mem_cons absent
      refine ⟨fun pending => ?_, ih guarded.2 absent⟩
      rw [step.due_iff (Ne.symm apart)] at pending
      obtain ⟨other, member, late⟩ := guarded.1 pending
      have apart' : other ≠ timer := fun equal => absent (equal ▸ member)
      exact ⟨other, member, (step.late_iff apart').mpr late⟩

/-- A timer comes in between, in front of some others. -/
theorem Guarded.insert {front : List TimerId} (guarded : Guarded kernel (front ++ queue))
    (here : Guarded kernel queue → Guarded kernel (timer :: queue)) :
    Guarded kernel (front ++ timer :: queue) := by
  induction front with
  | nil => exact here guarded
  | cons head front ih =>
      refine ⟨fun pending => ?_, ih guarded.2⟩
      obtain ⟨other, member, late⟩ := guarded.1 pending
      refine ⟨other, ?_, late⟩
      rcases List.mem_append.mp member with member | member
      · exact List.mem_append_left _ member
      · exact List.mem_append_right _ (List.mem_cons_of_mem _ member)

theorem queued_cons_of_stop {stop : TimerId → Bool} (stops : stop other = true) :
    queued stop timer (other :: queue) = timer :: other :: queue := by
  simp [queued, stops]

/-- The scan for `timer` goes past the list or ends at one of it. -/
theorem queued_cases (stop : TimerId → Bool) (front : List TimerId) :
    (∀ other ∈ front, stop other = false) ∨
      ∃ before other behind, front = before ++ other :: behind ∧
        (∀ earlier ∈ before, stop earlier = false) ∧ stop other = true := by
  cases found : front.find? stop with
  | none => exact Or.inl (by simpa using found)
  | some other =>
      obtain ⟨stops, before, behind, rfl, earlier⟩ := List.find?_eq_some_iff_append.mp found
      exact Or.inr ⟨before, other, behind, rfl, by simpa using earlier, stops⟩

/-- The timers in front of one that is due now, after the first of them has been fired. -/
theorem Guarded.relinked {first : TimerId} {front : List TimerId}
    (guarded : Guarded kernel front) (step : Fired kernel first next)
    (started : TimersStarted kernel (first :: (front ++ timer :: queue)))
    (now : (kernel.timers timer).timeoutTick = kernel.rtTick) :
    ∃ front' queue', relinked kernel first (front ++ timer :: queue) = front' ++ timer :: queue' ∧
      Guarded next front' := by
  have fresh := (List.nodup_cons.mp started.nodup).1
  have absent : first ∉ front := fun member => fresh (List.mem_append_left _ member)
  have guarded' := guarded.congr step absent
  have small := started.small first List.mem_cons_self
  cases periodic : (kernel.timers first).periodic with
  | false => exact ⟨front, queue, by simp [RtThread.relinked, periodic], guarded'⟩
  | true =>
      rw [RtThread.relinked, if_pos periodic]
      rcases queued_cases (goesBefore kernel first) front with
        passes | ⟨before, other, behind, rfl, passes, stops⟩
      · rw [queued_append passes]
        cases stops : goesBefore kernel first timer with
        | true =>
            -- Only a timer of period 0 goes in front of one that is due now.
            have none_ : (kernel.timers first).initTick = 0 := by
              by_contra some_
              rw [goesBefore_now small some_ now] at stops
              cases stops
            have dueAgain := (step.due_self_iff periodic small).mpr none_
            refine ⟨front ++ [first], queue, ?_, Guarded.insert ?_ fun _ => ⟨?_, trivial⟩⟩
            · rw [queued_cons_of_stop stops, List.append_assoc]
              rfl
            · rwa [List.append_nil]
            · exact fun pending => absurd dueAgain pending
        | false =>
            refine ⟨front, queued (goesBefore kernel first) first queue, ?_, guarded'⟩
            have whole := @queued_append (goesBefore kernel first) first [timer] queue
              (by simpa using stops)
            exact congrArg (front ++ ·) whole
      · refine ⟨before ++ first :: other :: behind, queue, ?_, guarded'.insert fun guarded => ?_⟩
        · rw [List.append_assoc, queued_append passes, List.cons_append,
            queued_cons_of_stop stops, List.append_assoc]
          rfl
        · refine ⟨fun pending => ?_, guarded⟩
          have member : other ∈ before ++ other :: behind := by simp
          have apart : other ≠ first := fun equal => absent (equal ▸ member)
          rw [step.due_self_iff periodic small] at pending
          by_cases due : Due next other
          · refine ⟨other, List.mem_cons_self, due, fun past => ?_⟩
            rw [step.record apart, step.tick] at past
            rw [goesBefore_now small pending past] at stops
            cases stops
          · obtain ⟨late, there, isLate⟩ := guarded.1 due
            exact ⟨late, List.mem_cons_of_mem _ there, isLate⟩

/-- If a timer that is due now is not fired, one whose deadline has passed is not fired. -/
theorem late_unfired {final : Kernel} {front : List TimerId} (quiet : LeavesTimers timeoutFunc)
    (started : TimersStarted kernel (front ++ timer :: queue))
    (now : (kernel.timers timer).timeoutTick = kernel.rtTick) (guarded : Guarded kernel front)
    (loop : rtTimerCheckLoop timeoutFunc kernel.rtTick kernel = some (final, fired))
    (unfired : timer ∉ fired) :
    ∃ other ∈ front ++ timer :: queue, Late kernel other ∧ other ∉ fired := by
  induction fired generalizing kernel front queue with
  | nil =>
      have ends := started.ends loop
      cases front with
      | nil =>
          have late := ends timer rfl
          rw [Due, now, BitVec.sub_self] at late
          exact absurd (by decide) late
      | cons head front =>
          obtain ⟨other, member, late⟩ := guarded.1 (ends head rfl)
          refine ⟨other, ?_, late, List.not_mem_nil⟩
          exact List.mem_cons_of_mem _ (List.mem_append_left _ member)
  | cons first fired ih =>
      obtain ⟨apart, absent⟩ := List.ne_and_not_mem_of_not_mem_cons unfired
      obtain ⟨tail, next, whole, due, started', step, later⟩ := started.fires quiet loop
      cases front with
      | nil => exact absurd (List.cons.inj whole).1 apart
      | cons head front =>
          obtain ⟨rfl, rfl⟩ := List.cons.inj whole
          obtain ⟨front', queue', shape, guarded'⟩ := guarded.2.relinked step started now
          rw [List.append_eq, shape] at started'
          rw [← step.record apart, ← step.tick] at now
          obtain ⟨other, member, late, passed⟩ := ih started' now guarded' later absent
          rw [← shape] at member
          have apart' : other ≠ head := by
            rintro rfl
            rcases mem_relinked.mp member with ⟨-, periodic⟩ | member
            · exact step.not_late_self periodic (started.small other List.mem_cons_self) late
            · exact (List.nodup_cons.mp started.nodup).1 member
          have there := (mem_relinked.mp member).resolve_left fun same => apart' same.1
          refine ⟨other, List.mem_cons_of_mem _ there, (step.late_iff apart').mp late, ?_⟩
          exact List.not_mem_cons_of_ne_of_not_mem apart' passed

/-- How `due` lies in the list before `timer` has come into it. -/
theorem exists_rest_of_queued {stop : TimerId → Bool} (absent : timer ∉ due)
    (whole : queued stop timer queue = due ++ rest) :
    (∃ rest', queue = due ++ rest' ∧ ∀ other ∈ rest', other ∈ rest) ∧
      ∀ other ∈ due, stop other = false := by
  have front : ∃ behind, queue.takeWhile (fun other => !stop other) = due ++ behind ∧
      rest = behind ++ timer :: queue.dropWhile (fun other => !stop other) := by
    rcases List.append_eq_append_iff.mp whole with ⟨more, rfl, late⟩ | ⟨more, early, rfl⟩
    · cases more with
      | nil => exact ⟨[], by simp, by simpa using late.symm⟩
      | cons head more =>
          obtain ⟨rfl, -⟩ := List.cons.inj late
          exact absurd (List.mem_append_right _ List.mem_cons_self) absent
    · exact ⟨more, early, rfl⟩
  obtain ⟨behind, early, rfl⟩ := front
  refine ⟨⟨behind ++ queue.dropWhile (fun other => !stop other), ?_, fun other member => ?_⟩, ?_⟩
  · rw [← List.append_assoc, ← early, List.takeWhile_append_dropWhile]
  · rcases List.mem_append.mp member with member | member
    · exact List.mem_append_left _ member
    · exact List.mem_append_right _ (List.mem_cons_of_mem _ member)
  · intro other member
    have passes := List.mem_takeWhile_imp (early ▸ List.mem_append_left behind member)
    simpa using passes

theorem Drains.cons (drains : Drains next due rest) (step : Fired kernel timer next)
    (apart : ∀ other ∈ due ++ rest, other ≠ timer) (expired : Due kernel timer)
    (period : (kernel.timers timer).periodic = true → (kernel.timers timer).initTick ≠ 0)
    (passes : (kernel.timers timer).periodic = true →
      ∀ other ∈ due, goesBefore kernel timer other = false) :
    Drains kernel (timer :: due) rest := by
  have front : ∀ other ∈ due, other ≠ timer :=
    fun other member => apart other (List.mem_append_left _ member)
  refine ⟨fun other member => ?_, fun other member => ?_, fun other member => ?_, ?_⟩
  · rcases List.mem_cons.mp member with rfl | member
    · exact expired
    · exact (step.due_iff (front other member)).mp (drains.expired other member)
  · rw [← step.due_iff (apart other (List.mem_append_right _ member))]
    exact drains.pending other member
  · rcases List.mem_cons.mp member with rfl | member
    · exact period
    · rw [← step.record (front other member)]
      exact drains.periods other member
  · refine List.pairwise_cons.mpr ⟨fun other member periodic => passes periodic other member, ?_⟩
    refine drains.passes.imp_of_mem fun {earlier later} first second pass => ?_
    rw [← step.record (front _ first), ← step.goesBefore (front _ first) (front _ second)]
    exact pass

/-- If each timer that is due is fired once, the list is as the loop needs it. -/
theorem drains_of_fires {final : Kernel} (quiet : LeavesTimers timeoutFunc)
    (started : TimersStarted kernel queue) (near : ∀ timer ∈ queue, Near kernel timer)
    (loop : rtTimerCheckLoop timeoutFunc kernel.rtTick kernel = some (final, fired))
    (once : ∀ timer ∈ queue, Due kernel timer → fired.count timer = 1) :
    ∃ due rest, queue = due ++ rest ∧ Drains kernel due rest := by
  induction fired generalizing kernel queue with
  | nil =>
      refine ⟨[], queue, rfl, ⟨by simp, fun timer member due => ?_, by simp, List.Pairwise.nil⟩⟩
      cases (List.count_nil (a := timer)).symm.trans (once timer member due)
  | cons first fired ih =>
      obtain ⟨tail, next, rfl, due, started', step, later⟩ := started.fires quiet loop
      have absent := (List.nodup_cons.mp started.nodup).1
      have apart : ∀ other ∈ tail, other ≠ first :=
        fun other member equal => absent (equal ▸ member)
      have once' : ∀ other ∈ tail, Due next other → fired.count other = 1 := by
        intro other member due
        have count := once other (List.mem_cons_of_mem _ member)
          ((step.due_iff (apart other member)).mp due)
        rwa [List.count_cons_of_ne (apart other member).symm] at count
      have near' : ∀ other ∈ relinked kernel first tail, Near next other := by
        intro other member
        rcases mem_relinked.mp member with ⟨rfl, periodic⟩ | member
        · exact step.near_self periodic (started.small other List.mem_cons_self)
        · exact (step.near_iff (apart other member)).mpr
            (near other (List.mem_cons_of_mem _ member))
      cases periodic : (kernel.timers first).periodic with
      | false =>
          rw [relinked, if_neg (by simp [periodic])] at started' near'
          obtain ⟨due', rest, rfl, drains⟩ := ih started' near' later once'
          refine ⟨first :: due', rest, rfl, drains.cons step apart due ?_ ?_⟩
          · exact fun periodic' => absurd periodic' (by simp [periodic])
          · exact fun periodic' => absurd periodic' (by simp [periodic])
      | true =>
          have small := started.small first List.mem_cons_self
          rw [relinked, if_pos periodic] at started' near'
          by_cases none_ : (kernel.timers first).initTick = 0
          · -- It is due again, behind timers that are due, and is not fired again.
            have again : first ∉ fired := by
              have count := once first List.mem_cons_self due
              rw [List.count_cons_self] at count
              exact List.count_eq_zero.mp (by omega)
            have now : (next.timers first).timeoutTick = next.rtTick := by
              simp [step.timers, step.tick, Timer.expire, periodic, none_]
            have guarded : Guarded next
                (tail.takeWhile fun other => !goesBefore kernel first other) := by
              refine guarded_of_late fun other member => ?_
              have inTail := (List.takeWhile_prefix _).mem member
              refine (step.late_iff (apart other inTail)).mpr ?_
              refine late_of_passes (near other (List.mem_cons_of_mem _ inTail)) none_ ?_
              simpa using List.mem_takeWhile_imp member
            obtain ⟨other, member, late, unfired⟩ :=
              late_unfired quiet started' now guarded later again
            rcases mem_queued.mp member with rfl | member
            · exact absurd late (step.not_late_self periodic small)
            · have count := once' other member late.1
              rw [List.count_eq_zero_of_not_mem unfired] at count
              cases count
          · have pending : ¬ Due next first :=
              fun due => none_ ((step.due_self_iff periodic small).mp due)
            obtain ⟨due', rest, whole, drains⟩ := ih started' near' later fun other member due =>
              once' other ((mem_queued.mp member).resolve_left fun same => pending (same ▸ due)) due
            obtain ⟨⟨rest', rfl, behind⟩, passes⟩ := exists_rest_of_queued
              (fun member => pending (drains.expired first member)) whole
            have drains' : Drains next due' rest' :=
              { drains with pending := fun other member => drains.pending other (behind _ member) }
            exact ⟨first :: due', rest', rfl,
              drains'.cons step apart due (fun _ => none_) fun _ => passes⟩

/-- `rt_timer_check` returns, and has called each timer that was due once. -/
def FiresOnce (timeoutFunc : TimerId → Kernel → Option Kernel) (kernel : Kernel)
    (queue : List TimerId) : Prop :=
  ∃ final fired, rtTimerCheck timeoutFunc kernel = some (final, fired) ∧
    ∀ timer ∈ queue, Due kernel timer → fired.count timer = 1

/-- The check fires each timer that is due once if the list is as its loop needs it, and only
then as long as no deadline is half the tick range away. -/
theorem timer_check_fires_once (quiet : LeavesTimers timeoutFunc)
    (returns : ∀ timer kernel, (timeoutFunc timer kernel).isSome)
    (started : TimersStarted kernel queue) :
    ((∃ due rest, queue = due ++ rest ∧ Drains kernel due rest) →
        FiresOnce timeoutFunc kernel queue) ∧
      ((∀ timer ∈ queue, Near kernel timer) → FiresOnce timeoutFunc kernel queue →
        ∃ due rest, queue = due ++ rest ∧ Drains kernel due rest) := by
  constructor
  · rintro ⟨due, rest, rfl, drains⟩
    obtain ⟨final, loop⟩ := drains.fires quiet returns started
    refine ⟨final, due, loop, fun timer member expired => ?_⟩
    have front : timer ∈ due := (List.mem_append.mp member).resolve_right fun behind =>
      drains.pending timer behind expired
    exact List.count_eq_one_of_mem started.nodup.of_append_left front
  · rintro near ⟨final, fired, loop, once⟩
    exact drains_of_fires quiet started near loop once

end

/-- Callbacks that do nothing. -/
def callNothing (_ : TimerId) (kernel : Kernel) : Option Kernel := some kernel

theorem leavesTimers_callNothing : LeavesTimers callNothing := by
  intro timer kernel next step
  obtain rfl := Option.some_inj.mp step
  exact ⟨rfl, rfl, rfl⟩

/-- A one-shot timer and a periodic one, both set but not started. -/
def twoTimers (initTick : BitVec 32) : Kernel :=
  (Config.plain.kernel.setTimer (.object 0)
      { activated := false, periodic := true, initTick, timeoutTick := 0 }).setTimer (.object 1)
    { activated := false, periodic := false, initTick := 3, timeoutTick := 0 }

theorem twoTimers_listed (initTick : BitVec 32) : TimerListed (twoTimers initTick) [] := by
  obtain ⟨queue, inv, -⟩ := TimersSettled.initial TimersReset.plain
  have stopped : ∀ timer, ((twoTimers initTick).timers timer).activated = false := by
    intro timer
    simp only [twoTimers, Kernel.setTimer]
    by_cases second : timer = .object 1
    · simp [second]
    · by_cases first : timer = .object 0
      · simp [first]
      · simp [first, second, TimersReset.plain.stopped timer]
  obtain rfl : queue = [] := by
    rw [List.eq_nil_iff_forall_not_mem]
    intro timer member
    rw [inv.active, TimersReset.plain.stopped timer] at member
    cases member
  refine inv.toTimerListed.congr rfl fun timer => ?_
  rw [stopped, TimersReset.plain.stopped]

/-- The two timers started at tick 0, the one-shot one in front. -/
theorem twoTimers_started :
    ∃ first second, rtTimerStart (twoTimers 5) (.object 1) = some (.eok, first) ∧
      rtTimerStart first (.object 0) = some (.eok, second) ∧
      TimerListed second [.object 1, .object 0] ∧
      second.timers (.object 0) =
        { activated := true, periodic := true, initTick := 5, timeoutTick := 5 } ∧
      second.timers (.object 1) =
        { activated := true, periodic := false, initTick := 3, timeoutTick := 3 } := by
  obtain ⟨first, start, listed, timers⟩ :=
    @TimerListed.start _ _ (.object 1) (twoTimers_listed 5) rfl (by decide)
  have tick : first.rtTick = 0 := by
    rw [rtTimerStart_frame start]
    rfl
  have record : first.timers (.object 0) =
      { activated := false, periodic := true, initTick := 5, timeoutTick := 0 } := by
    rw [timers]
    rfl
  have record' : first.timers (.object 1) =
      { activated := true, periodic := false, initTick := 3, timeoutTick := 3 } := by
    rw [timers]
    rfl
  obtain ⟨second, start', listed', timers'⟩ :=
    @TimerListed.start _ _ (.object 0) listed (by rw [record]) (by rw [record]; decide)
  have passes : stopsAt first (.object 0) (.object 1) = false := by
    simp only [stopsAt, stopsInsertion, setDeadline, Kernel.setTimer, Function.update_self,
      record, tick, ne_eq, TimerId.object.injEq, not_false_eq_true,
      Function.update_of_ne, one_ne_zero, record']
    decide
  have order : queued (stopsAt first (.object 0)) (.object 0)
      (queued (stopsAt (twoTimers 5) (.object 1)) (.object 1) []) = [.object 1, .object 0] := by
    simp [queued, passes]
  rw [order] at listed'
  refine ⟨first, second, start, start', listed', ?_, ?_⟩
  · rw [timers', record, tick]
    rfl
  · rw [timers', Function.update_of_ne (by decide), record']

theorem timer_check_fires_once_two :
    ∃ first second, rtTimerStart (twoTimers 5) (.object 1) = some (.eok, first) ∧
      rtTimerStart first (.object 0) = some (.eok, second) ∧
      FiresOnce callNothing { second with rtTick := 5 } [.object 1, .object 0] := by
  obtain ⟨first, second, start, start', listed, periodic, oneShot⟩ := twoTimers_started
  have started : TimersStarted { second with rtTick := 5 } [.object 1, .object 0] := by
    refine ⟨listed.congr rfl fun _ => rfl, fun timer member => ?_⟩
    rcases List.mem_pair.mp member with rfl | rfl
    · simp only [oneShot]
      decide
    · simp only [periodic]
      decide
  have drains : Drains { second with rtTick := 5 } [.object 1, .object 0] [] := by
    refine ⟨fun timer member => ?_, by simp, fun timer member => ?_, ?_⟩
    · rcases List.mem_pair.mp member with rfl | rfl
      · simp only [Due, oneShot]
        decide
      · simp only [Due, periodic]
        decide
    · rcases List.mem_pair.mp member with rfl | rfl
      · simp [oneShot]
      · simp [periodic]
    · simp [oneShot]
  have returns : ∀ timer kernel, (callNothing timer kernel).isSome := fun _ _ => rfl
  exact ⟨first, second, start, start',
    (timer_check_fires_once leavesTimers_callNothing returns started).1 ⟨_, [], rfl, drains⟩⟩

/-- A periodic timer with time 0 is due again whenever it has been fired. -/
theorem timer_check_never_ends :
    ∃ started, rtTimerStart (twoTimers 0) (.object 0) = some (.eok, started) ∧
      TimersStarted started [.object 0] ∧ ¬ FiresOnce callNothing started [.object 0] := by
  obtain ⟨started, start, listed, timers⟩ :=
    @TimerListed.start _ _ (.object 0) (twoTimers_listed 0) rfl (by decide)
  have tick : started.rtTick = 0 := by
    rw [rtTimerStart_frame start]
    rfl
  have record : started.timers (.object 0) =
      { activated := true, periodic := true, initTick := 0, timeoutTick := 0 } := by
    rw [timers]
    rfl
  have due : Due started (.object 0) := by
    rw [Due, tick, record]
    decide
  have whole : TimersStarted started [.object 0] := by
    refine ⟨listed, fun timer member => ?_⟩
    rw [List.mem_singleton.mp member, record]
    decide
  refine ⟨started, start, whole, ?_⟩
  rintro ⟨final, fired, loop, once⟩
  have near : ∀ timer ∈ [TimerId.object 0], Near started timer :=
    fun timer member => Or.inl (List.mem_singleton.mp member ▸ due)
  obtain ⟨expired, rest, split, drains⟩ :=
    drains_of_fires leavesTimers_callNothing whole near loop once
  have member : TimerId.object 0 ∈ expired ++ rest := split ▸ List.mem_singleton_self _
  rcases List.mem_append.mp member with member | member
  · exact drains.periods _ member (by rw [record]) (by rw [record])
  · exact drains.pending _ member due

end RtThread
