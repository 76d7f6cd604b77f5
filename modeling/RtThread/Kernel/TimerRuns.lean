import RtThread.Std.Machine
import RtThread.Kernel.Boot
import RtThread.Kernel.Clock
import RtThread.Kernel.TimerQueue

/-!
# Runs of hard timers

Each timer counts down by one at every `rt_tick_increase`, whatever the tick
wraps round to: `countdown` is what a timer stands for, and every operation on
the kernel acts on it as it should. So a timer fires exactly at the checks that
its start names.
-/

namespace RtThread

open RtThread.Std

/-- The operations of a program on hard timers. -/
inductive TimerOp where
  | start (timer : TimerId)
  | stop (timer : TimerId)
  | setTime (timer : TimerId) (tick : BitVec 32)
  | tickIncrease
deriving DecidableEq, Repr

/-- What an operation shows: a timer was started, stopped or given another
time, or one `rt_timer_check` has fired these timers in turn. -/
inductive TimerEvent where
  | started (timer : TimerId)
  | stopped (timer : TimerId)
  | timeSet (timer : TimerId)
  | checked (fired : List TimerId)
deriving DecidableEq, Repr

def TimerOp.apply (timeoutFunc : TimerId → Kernel → Option Kernel) (kernel : Kernel) :
    TimerOp → Option (Kernel × List TimerEvent)
  | .start timer => do
      let (result, next) ← rtTimerStart kernel timer
      pure (next, if result = .eok then [.started timer] else [])
  | .stop timer =>
      let (result, next) := rtTimerStop kernel timer
      some (next, if result = .eok then [.stopped timer] else [])
  | .setTime timer tick => some (rtTimerControl kernel timer (.setTime tick), [.timeSet timer])
  | .tickIncrease => do
      let (next, fired) ← rtTickIncrease timeoutFunc kernel
      pure (next, [.checked fired])

/-- Every `init_tick` that is started or set is in `1 .. RT_TICK_MAX/2 - 1`. -/
def TimerOp.InRange (kernel : Kernel) : TimerOp → Prop
  | .start timer => (kernel.timers timer).InRange
  | .setTime _ tick => 0 < tick.toNat ∧ tick < halfTickMax
  | _ => True

def timerMachine (timeoutFunc : TimerId → Kernel → Option Kernel) :
    Machine Kernel TimerOp TimerEvent where
  step kernel op := op.apply timeoutFunc kernel

/-- The timers as `rt_system_timer_init` and `rt_timer_init` leave them. -/
structure TimersReset (kernel : Kernel) : Prop where
  links : kernel.timerLinks = ⟨id, id⟩
  stopped : ∀ timer, (kernel.timers timer).activated = false

/-- The checks of a run, in order. -/
def checks (events : List TimerEvent) : List (List TimerId) :=
  events.filterMap fun
    | .checked fired => some fired
    | _ => none

/-- Counting the checks of a run from 1, `timer` fires once in those which are
`due` and not in the others. -/
def FiresAt (events : List TimerEvent) (timer : TimerId) (due : Nat → Prop) : Prop :=
  ∀ index fired, (checks events)[index]? = some fired →
    (due (index + 1) → fired.count timer = 1) ∧ (¬ due (index + 1) → timer ∉ fired)

/-- `rt_timer_list` carries the activated timers by increasing time left. -/
def OrderedByRemaining (kernel : Kernel) : Prop :=
  ∃ queue : List TimerId,
    kernel.timerLinks.Segment .timerList (queue.map .timer) .timerList ∧
      (∀ timer, timer ∈ queue ↔ (kernel.timers timer).activated = true) ∧
      queue.Pairwise fun left right => remaining kernel left ≤ remaining kernel right

/-- The queue between two operations: no timer in it is due. -/
def TimersSettled (kernel : Kernel) : Prop :=
  ∃ queue, TimerInv kernel queue ∧ ∀ timer ∈ queue, 0 < remaining kernel timer

/-! ## The countdown of a timer -/

/-- The number of checks after which a timer fires, if it is active. -/
def countdown (kernel : Kernel) (timer : TimerId) : Option Nat :=
  if (kernel.timers timer).activated then some (remaining kernel timer) else none

/-- What the countdown of a timer starts from when it has fired. -/
def reload (kernel : Kernel) (timer : TimerId) : Option Nat :=
  if (kernel.timers timer).periodic then some (kernel.timers timer).initTick.toNat else none

/-! ## Refinement of the countdowns -/

theorem TimersSettled.initial {kernel : Kernel} (reset : TimersReset kernel) :
    TimersSettled kernel := by
  have rings : Rings TimerNode.IsHead kernel.timerLinks (timerLists []) := by
    rw [reset.links]
    exact Rings.congr_timerLists (Rings.nil _) rfl
  refine ⟨[], ⟨⟨rings, ?_⟩, ?_, ?_, ?_⟩, ?_⟩ <;> simp [reset.stopped]

theorem TimersSettled.ordered {kernel : Kernel} (settled : TimersSettled kernel) :
    OrderedByRemaining kernel := by
  obtain ⟨queue, inv, -⟩ := settled
  exact ⟨queue, inv.rings.ring .timerList trivial, inv.active, inv.sorted⟩

/-- Before a tick is counted every deadline is at least one tick away. -/
theorem TimerInv.tick {kernel charged : Kernel} {queue : List TimerId} (inv : TimerInv kernel queue)
    (pending : ∀ timer ∈ queue, 0 < remaining kernel timer)
    (same : SameTimers { kernel with rtTick := kernel.rtTick + 1#32 } charged) :
    TimerInv charged queue ∧
      ∀ timer ∈ queue, remaining charged timer = remaining kernel timer - 1 := by
  have left : ∀ timer ∈ queue, remaining charged timer = remaining kernel timer - 1 := by
    intro timer member
    rw [remaining, same.timers, same.tick]
    exact ahead_tick (pending timer member)
  refine ⟨⟨inv.toTimerListed.congr same.links (by simp [same.timers]), ?_, ?_, ?_⟩, left⟩
  · rw [same.timers]
    exact inv.range
  · intro timer member
    have near := inv.near timer member
    rw [left timer member]
    omega
  · exact inv.sorted.imp_of_mem fun first second order => by
      rw [left _ first, left _ second]
      omega

/-- What one `rt_tick_increase` does to every countdown. -/
structure CountsDown (kernel next : Kernel) (fired : List TimerId) : Prop where
  settled : TimersSettled next
  order : fired.Pairwise fun left right => remaining kernel left ≤ remaining kernel right
  reloads : ∀ timer, reload next timer = reload kernel timer
  counts : ∀ timer, countdown next timer = countDown (reload kernel timer) (countdown kernel timer)
  fires : ∀ timer, countdown kernel timer = some 1 → fired.count timer = 1
  waits : ∀ timer, countdown kernel timer ≠ some 1 → timer ∉ fired

theorem countdown_of_mem {kernel : Kernel} {queue : List TimerId} {timer : TimerId}
    (inv : TimerInv kernel queue) (member : timer ∈ queue) :
    countdown kernel timer = some (remaining kernel timer) := by
  rw [countdown, if_pos ((inv.active timer).mp member)]

theorem reload_expire {kernel next : Kernel} {timer : TimerId} {tick : BitVec 32}
    (record : next.timers timer = (kernel.timers timer).expire tick) :
    reload next timer = reload kernel timer := by
  cases periodic : (kernel.timers timer).periodic <;>
    simp [reload, record, Timer.expire, periodic]

/-- A timer that has fired starts again from its reload value. -/
theorem countdown_expire {kernel next : Kernel} {timer : TimerId}
    (record : next.timers timer = (kernel.timers timer).expire next.rtTick) :
    countdown next timer = reload kernel timer := by
  cases periodic : (kernel.timers timer).periodic <;>
    simp [countdown, remaining, reload, record, Timer.expire, periodic]

theorem rtTickIncrease_countsDown {timeoutFunc : TimerId → Kernel → Option Kernel}
    {kernel next : Kernel} {fired : List TimerId} (quiet : LeavesTimers timeoutFunc)
    (settled : TimersSettled kernel)
    (step : rtTickIncrease timeoutFunc kernel = some (next, fired)) :
    CountsDown kernel next fired := by
  obtain ⟨charged, slice, check⟩ := Option.bind_eq_some_iff.mp step
  obtain ⟨queue, inv, pending⟩ := settled
  have same := checkTimeSlice_sameTimers slice
  obtain ⟨inv', left⟩ := inv.tick pending same
  obtain ⟨due, rest, rfl, expired, later⟩ := exists_due_append inv'.sorted
  obtain ⟨rfl, tick, queue', records⟩ := inv'.checkLoop quiet expired later check
  have timers : charged.timers = kernel.timers := same.timers
  have last : ∀ timer ∈ fired, remaining kernel timer = 1 := by
    intro timer member
    have now := left timer (List.mem_append_left _ member)
    have before := pending timer (List.mem_append_left _ member)
    rw [expired timer member] at now
    omega
  have early : ∀ timer ∈ rest, remaining kernel timer ≠ 1 := by
    intro timer member
    have now := left timer (List.mem_append_right _ member)
    have after := later timer member
    omega
  have others : ∀ timer, timer ∉ fired → next.timers timer = kernel.timers timer ∧
      remaining next timer = remaining charged timer := by
    intro timer absent
    have record := records timer
    rw [if_neg absent] at record
    exact ⟨record.trans (congrFun timers timer), by simp only [remaining, record, tick]⟩
  have fireOnce : ∀ timer, countdown kernel timer = some 1 ↔ timer ∈ fired := by
    intro timer
    by_cases member : timer ∈ fired ++ rest
    · rw [countdown_of_mem inv member, Option.some_inj]
      rcases List.mem_append.mp member with front | back
      · simp [last timer front, front]
      · have absent : timer ∉ fired := fun front => early timer back (last timer front)
        simp [early timer back, absent]
    · have stopped := (not_congr (inv.active timer)).mp member
      simp only [countdown, stopped, Bool.false_eq_true, if_false, reduceCtorEq, false_iff]
      exact fun front => member (List.mem_append_left _ front)
  refine ⟨queue', ?_, ?_, ?_, ?_, ?_⟩
  · exact List.Pairwise.imp_of_mem (fun first second _ => by rw [last _ first, last _ second])
      (inv.sorted.sublist (List.sublist_append_left fired rest))
  · intro timer
    by_cases member : timer ∈ fired
    · have record := records timer
      rw [if_pos member, timers] at record
      exact reload_expire record
    · simp [reload, (others timer member).1]
  · intro timer
    by_cases member : timer ∈ fired
    · have record := records timer
      rw [if_pos member, timers, ← tick] at record
      rw [countdown_expire record, (fireOnce timer).mpr member]
      rfl
    · obtain ⟨record, kept⟩ := others timer member
      by_cases queued : timer ∈ fired ++ rest
      · have notLast : remaining kernel timer ≠ 1 := by
          rcases List.mem_append.mp queued with front | back
          · exact absurd front member
          · exact early timer back
        rw [countdown_of_mem inv queued, countDown, if_neg notLast, ← left timer queued,
          ← kept, countdown, record, if_pos ((inv.active timer).mp queued)]
      · have stopped := (not_congr (inv.active timer)).mp queued
        simp [countdown, record, stopped]
  · intro timer once
    exact List.count_eq_one_of_mem (List.nodup_append.mp inv.nodup).1 ((fireOnce timer).mp once)
  · intro timer other front
    exact other ((fireOnce timer).mpr front)

/-- A tick is counted once. -/
theorem rtTickIncrease_rtTick {timeoutFunc : TimerId → Kernel → Option Kernel}
    {kernel next : Kernel} {fired : List TimerId} (quiet : LeavesTimers timeoutFunc)
    (settled : TimersSettled kernel)
    (step : rtTickIncrease timeoutFunc kernel = some (next, fired)) :
    next.rtTick = kernel.rtTick + 1#32 := by
  obtain ⟨charged, slice, check⟩ := Option.bind_eq_some_iff.mp step
  obtain ⟨queue, inv, pending⟩ := settled
  have same := checkTimeSlice_sameTimers slice
  obtain ⟨inv', -⟩ := inv.tick pending same
  obtain ⟨due, rest, rfl, expired, later⟩ := exists_due_append inv'.sorted
  obtain ⟨-, tick, -⟩ := inv'.checkLoop quiet expired later check
  exact tick.trans same.tick

/-- Between two operations a timer has at least one tick left. -/
theorem TimersSettled.countdown_pos {kernel : Kernel} {timer : TimerId} {left : Nat}
    (settled : TimersSettled kernel) (counts : countdown kernel timer = some left) : 0 < left := by
  obtain ⟨queue, inv, pending⟩ := settled
  obtain ⟨active, made⟩ := Option.ite_none_right_eq_some.mp counts
  rw [← Option.some_inj.mp made]
  exact pending timer ((inv.active timer).mpr active)

theorem countdown_congr {kernel next : Kernel} {timer : TimerId}
    (active : (next.timers timer).activated = (kernel.timers timer).activated)
    (deadline : (next.timers timer).timeoutTick = (kernel.timers timer).timeoutTick)
    (tick : next.rtTick = kernel.rtTick) : countdown next timer = countdown kernel timer := by
  simp only [countdown, remaining, active, deadline, tick]

theorem reload_congr {kernel next : Kernel} {timer : TimerId}
    (same : next.timers timer = kernel.timers timer) : reload next timer = reload kernel timer := by
  simp only [reload, same]

/-- One operation, seen from one timer: unless it starts or stops that timer, it
leaves the countdown alone or counts one tick. -/
structure Spares (timer : TimerId) (kernel next : Kernel) (emitted : List TimerEvent) : Prop where
  reloads : .timeSet timer ∉ emitted ∨ reload kernel timer = none →
    reload next timer = reload kernel timer
  counts : (checks emitted = [] ∧ countdown next timer = countdown kernel timer) ∨
    ∃ fired, checks emitted = [fired] ∧ CountsDown kernel next fired

theorem Spares.of_same {timer : TimerId} {kernel next : Kernel} {emitted : List TimerEvent}
    (record : next.timers timer = kernel.timers timer) (tick : next.rtTick = kernel.rtTick)
    (silent : checks emitted = []) : Spares timer kernel next emitted where
  reloads _ := reload_congr record
  counts := Or.inl ⟨silent, countdown_congr (by rw [record]) (by rw [record]) tick⟩

theorem rtTimerStart_active {kernel : Kernel} {timer : TimerId}
    (active : (kernel.timers timer).activated = true) :
    rtTimerStart kernel timer = some (.error, kernel) := by
  rw [rtTimerStart, if_pos active]

theorem TimersSettled.start {kernel : Kernel} {timer : TimerId} (settled : TimersSettled kernel)
    (idle : (kernel.timers timer).activated = false) (range : (kernel.timers timer).InRange) :
    ∃ next, rtTimerStart kernel timer = some (.eok, next) ∧ TimersSettled next ∧
      next.rtTick = kernel.rtTick ∧
      next.timers = Function.update kernel.timers timer
        { kernel.timers timer with
          activated := true
          timeoutTick := kernel.rtTick + (kernel.timers timer).initTick } := by
  obtain ⟨queue, inv, pending⟩ := settled
  obtain ⟨next, step, inv', tick, timers⟩ := inv.start idle range
  have own : remaining next timer = (kernel.timers timer).initTick.toNat := by
    simp [remaining, tick, timers]
  refine ⟨next, step, ⟨_, inv', ?_⟩, tick, timers⟩
  intro other member
  by_cases same : other = timer
  · rw [same, own]
    exact range.1
  · have kept : remaining next other = remaining kernel other := by
      simp [remaining, tick, timers, same]
    rw [kept]
    exact pending other ((mem_queued.mp member).resolve_left same)

theorem TimersSettled.stop {kernel : Kernel} (settled : TimersSettled kernel) (timer : TimerId) :
    TimersSettled (rtTimerStop kernel timer).2 := by
  obtain ⟨queue, inv, pending⟩ := settled
  unfold rtTimerStop
  split
  · refine ⟨queue.erase timer, inv.stop timer, ?_⟩
    intro other member
    have apart : other ≠ timer := (inv.nodup.mem_erase_iff.mp member).1
    simpa [remaining, Kernel.deactivate, Kernel.setTimer, Kernel.unlinkTimer, apart] using
      pending other (List.mem_of_mem_erase member)
  · exact ⟨queue, inv, pending⟩

theorem TimersSettled.setTime {kernel : Kernel} {timer : TimerId} {tick : BitVec 32}
    (settled : TimersSettled kernel) (range : 0 < tick.toNat ∧ tick < halfTickMax) :
    TimersSettled (rtTimerControl kernel timer (.setTime tick)) := by
  obtain ⟨queue, inv, pending⟩ := settled
  have record : ∀ other, ((rtTimerControl kernel timer (.setTime tick)).timers other).activated =
        (kernel.timers other).activated ∧
      remaining (rtTimerControl kernel timer (.setTime tick)) other = remaining kernel other := by
    intro other
    by_cases same : other = timer
    · subst same
      simp [rtTimerControl, Kernel.setTimer, remaining]
    · simp [rtTimerControl, Kernel.setTimer, remaining, same]
  have left := fun other => (record other).2
  refine ⟨queue, ⟨inv.toTimerListed.congr rfl fun other => (record other).1, ?_, ?_, ?_⟩, ?_⟩
  · intro other member
    by_cases same : other = timer
    · subst same
      simpa [rtTimerControl, Kernel.setTimer, Timer.InRange] using range
    · simpa [rtTimerControl, Kernel.setTimer, same] using inv.range other member
  · simpa only [left] using inv.near
  · simpa only [left] using inv.sorted
  · simpa only [left] using pending

@[simp] theorem checks_append (events events' : List TimerEvent) :
    checks (events ++ events') = checks events ++ checks events' := by
  simp [checks]

theorem TimerOp.step {timeoutFunc : TimerId → Kernel → Option Kernel} {kernel next : Kernel}
    {op : TimerOp} {emitted : List TimerEvent} (quiet : LeavesTimers timeoutFunc)
    (settled : TimersSettled kernel) (range : op.InRange kernel)
    (step : op.apply timeoutFunc kernel = some (next, emitted)) :
    TimersSettled next ∧ ∀ timer, .started timer ∉ emitted → .stopped timer ∉ emitted →
      Spares timer kernel next emitted := by
  cases op with
  | start target =>
      cases idle : (kernel.timers target).activated with
      | true =>
          simp [TimerOp.apply, rtTimerStart_active idle] at step
          obtain ⟨rfl, rfl⟩ := step
          exact ⟨settled, fun timer _ _ => .of_same rfl rfl rfl⟩
      | false =>
          obtain ⟨started, start, settled', tick, timers⟩ := settled.start idle range
          simp [TimerOp.apply, start] at step
          obtain ⟨rfl, rfl⟩ := step
          refine ⟨settled', fun timer notStarted _ => .of_same ?_ tick rfl⟩
          have apart : timer ≠ target := by simpa using notStarted
          simp [timers, apart]
  | stop target =>
      simp only [TimerOp.apply, Option.some_inj, Prod.mk.injEq] at step
      obtain ⟨rfl, rfl⟩ := step
      refine ⟨settled.stop target, fun timer _ notStopped => ?_⟩
      cases active : (kernel.timers target).activated with
      | true =>
          simp only [rtTimerStop, active, if_true] at notStopped ⊢
          have apart : timer ≠ target := by simpa using notStopped
          refine .of_same ?_ rfl rfl
          simp [Kernel.deactivate, Kernel.setTimer, Kernel.unlinkTimer, apart]
      | false =>
          simp only [rtTimerStop, active]
          exact .of_same rfl rfl rfl
  | setTime target tick =>
      simp only [TimerOp.apply, Option.some_inj, Prod.mk.injEq] at step
      obtain ⟨rfl, rfl⟩ := step
      refine ⟨settled.setTime range, fun timer _ _ => ?_⟩
      by_cases same : timer = target
      · subst same
        refine ⟨?_, Or.inl ⟨rfl, countdown_congr ?_ ?_ rfl⟩⟩ <;>
          cases (kernel.timers timer).periodic <;>
          simp_all [rtTimerControl, Kernel.setTimer, reload]
      · refine .of_same ?_ rfl rfl
        simp [rtTimerControl, Kernel.setTimer, same]
  | tickIncrease =>
      obtain ⟨⟨_, fired⟩, tick, pair⟩ := Option.bind_eq_some_iff.mp step
      simp only [Option.pure_def, Option.some_inj, Prod.mk.injEq] at pair
      obtain ⟨rfl, rfl⟩ := pair
      have counted := rtTickIncrease_countsDown quiet settled tick
      exact ⟨counted.settled, fun timer _ _ =>
        ⟨fun _ => counted.reloads timer, Or.inr ⟨fired, rfl, counted⟩⟩⟩

/-- Stopping a timer that is not active is an error and shows nothing. -/
theorem TimerOp.not_stopped_of_idle {timeoutFunc : TimerId → Kernel → Option Kernel}
    {kernel next : Kernel} {op : TimerOp} {emitted : List TimerEvent} {timer : TimerId}
    (idle : countdown kernel timer = none)
    (step : op.apply timeoutFunc kernel = some (next, emitted)) :
    .stopped timer ∉ emitted := by
  have stopped : (kernel.timers timer).activated = false := by
    simpa [countdown] using idle
  cases op with
  | start target =>
      obtain ⟨⟨result, _⟩, -, pair⟩ := Option.bind_eq_some_iff.mp step
      simp only [Option.pure_def, Option.some_inj, Prod.mk.injEq] at pair
      rw [← pair.2]
      split <;> simp
  | stop target =>
      simp only [TimerOp.apply, Option.some_inj, Prod.mk.injEq] at step
      rw [← step.2, rtTimerStop]
      split
      · rename_i active
        have apart : timer ≠ target := by
          rintro rfl
          rw [stopped] at active
          cases active
        simpa using apart
      · simp
  | setTime target tick =>
      simp only [TimerOp.apply, Option.some_inj, Prod.mk.injEq] at step
      rw [← step.2]
      simp
  | tickIncrease =>
      obtain ⟨⟨_, fired⟩, -, pair⟩ := Option.bind_eq_some_iff.mp step
      simp only [Option.pure_def, Option.some_inj, Prod.mk.injEq] at pair
      rw [← pair.2]
      simp

theorem countdown_stop (kernel : Kernel) (timer : TimerId) :
    countdown (rtTimerStop kernel timer).2 timer = none := by
  unfold rtTimerStop
  split
  · simp [countdown, Kernel.deactivate, Kernel.setTimer]
  · rename_i idle
    simp [countdown, idle]

/-- A timer that has just been started has its whole time left. -/
theorem TimersSettled.started {kernel started : Kernel} {timer : TimerId}
    (settled : TimersSettled kernel) (range : (kernel.timers timer).InRange)
    (start : rtTimerStart kernel timer = some (.eok, started)) :
    TimersSettled started ∧
      countdown started timer = some (kernel.timers timer).initTick.toNat ∧
      reload started timer = reload kernel timer := by
  cases idle : (kernel.timers timer).activated with
  | true =>
      rw [rtTimerStart_active idle] at start
      simp at start
  | false =>
      obtain ⟨_, step, settled', tick, timers⟩ := settled.start idle range
      rw [step, Option.some_inj, Prod.mk.injEq] at start
      obtain ⟨-, rfl⟩ := start
      refine ⟨settled', ?_, ?_⟩
      · simp [countdown, remaining, tick, timers]
      · simp [reload, timers]

/-- A tick ends when every callback returns. -/
theorem TimersSettled.tick_returns {timeoutFunc : TimerId → Kernel → Option Kernel}
    {kernel : Kernel} {thread : ThreadId} (settled : TimersSettled kernel)
    (quiet : LeavesTimers timeoutFunc) (current : kernel.rtCurrentThread = .thread thread)
    (returns : ∀ timer kernel, (timeoutFunc timer kernel).isSome) :
    (rtTickIncrease timeoutFunc kernel).isSome := by
  obtain ⟨queue, inv, pending⟩ := settled
  have runs : ({ kernel with rtTick := kernel.rtTick + 1#32 } : Kernel).rtCurrentThread =
      .thread thread := current
  obtain ⟨charged, slice⟩ := Option.isSome_iff_exists.mp (checkTimeSlice_isSome runs)
  obtain ⟨inv', -⟩ := inv.tick pending (checkTimeSlice_sameTimers slice)
  obtain ⟨due, rest, rfl, expired, later⟩ := exists_due_append inv'.sorted
  rw [rtTickIncrease, slice]
  exact inv'.checkLoop_returns quiet returns expired later

/-! ## Every run -/

section Runs

variable {timeoutFunc : TimerId → Kernel → Option Kernel} {boot kernel final : Kernel}
  {ops : List TimerOp} {events : List TimerEvent}

theorem TimersSettled.of_run (quiet : LeavesTimers timeoutFunc) (settled : TimersSettled boot)
    (run : (timerMachine timeoutFunc).Run (fun kernel op => op.InRange kernel) boot ops events
      kernel) : TimersSettled kernel := by
  refine run.invariant settled ?_
  intro kernel op next emitted settled range step
  exact (op.step quiet settled range step).1

/-- One more check extends the record of a timer's firings. -/
theorem FiresAt.check {timer : TimerId} {due : Nat → Prop} {emitted : List TimerEvent}
    {fired : List TimerId} (fires : FiresAt events timer due) (check : checks emitted = [fired])
    (once : due ((checks events).length + 1) → fired.count timer = 1)
    (never : ¬ due ((checks events).length + 1) → timer ∉ fired) :
    FiresAt (events ++ emitted) timer due := by
  intro index found entry
  rw [checks_append, check] at entry
  by_cases early : index < (checks events).length
  · rw [List.getElem?_append_left early] at entry
    exact fires index found entry
  · have bound := (List.getElem?_eq_some_iff.mp entry).1
    obtain rfl : index = (checks events).length := by
      simp only [List.length_append, List.length_singleton] at bound
      omega
    rw [List.getElem?_append_right (Nat.le_refl _), Nat.sub_self, List.getElem?_cons_zero,
      Option.some_inj] at entry
    subst entry
    exact ⟨once, never⟩

theorem FiresAt.congr {timer : TimerId} {due due' : Nat → Prop}
    (fires : FiresAt events timer due) (same : ∀ index, due (index + 1) ↔ due' (index + 1)) :
    FiresAt events timer due' := by
  intro index fired entry
  rw [← same]
  exact fires index fired entry

/-- While a timer is neither started nor stopped, its countdown goes by the
checks alone and it fires at those which find one tick left. -/
theorem countdown_of_run (quiet : LeavesTimers timeoutFunc) (settled : TimersSettled kernel)
    (run : (timerMachine timeoutFunc).Run (fun kernel op => op.InRange kernel) kernel ops events
      final) (timer : TimerId) :
    TimersSettled final ∧ (.started timer ∉ events → .stopped timer ∉ events →
      (.timeSet timer ∉ events ∨ reload kernel timer = none) →
      reload final timer = reload kernel timer ∧
      countdown final timer =
        (countDown (reload kernel timer))^[(checks events).length] (countdown kernel timer) ∧
      FiresAt events timer fun check =>
        (countDown (reload kernel timer))^[check - 1] (countdown kernel timer) = some 1) := by
  induction run with
  | nil => exact ⟨settled, fun _ _ _ => ⟨rfl, rfl, by simp [FiresAt, checks]⟩⟩
  | snoc _ range step ih =>
      obtain ⟨settled, ih⟩ := ih
      obtain ⟨settled', spares⟩ := TimerOp.step quiet settled range step
      refine ⟨settled', fun notStarted notStopped reloads => ?_⟩
      simp only [List.mem_append, not_or] at notStarted notStopped reloads
      obtain ⟨reloaded, count, fires⟩ := ih notStarted.1 notStopped.1 (reloads.imp And.left id)
      have spared := spares timer notStarted.2 notStopped.2
      have reloaded' := spared.reloads (reloads.imp And.right (reloaded.trans ·))
      refine ⟨reloaded'.trans reloaded, ?_⟩
      rcases spared.counts with ⟨silent, same⟩ | ⟨fired, check, counts⟩
      · rw [FiresAt, checks_append, silent, List.append_nil, same]
        exact ⟨count, fires⟩
      · rw [checks_append, check, List.length_append, List.length_singleton,
          Function.iterate_succ_apply', ← count, counts.counts timer, reloaded]
        refine ⟨rfl, fires.check check ?_ ?_⟩ <;> rw [Nat.add_sub_cancel, ← count]
        · exact counts.fires timer
        · exact counts.waits timer

/-- A timer that is not active stays so, and silent, until it is started. -/
theorem silent_of_run (quiet : LeavesTimers timeoutFunc) (settled : TimersSettled kernel)
    (run : (timerMachine timeoutFunc).Run (fun kernel op => op.InRange kernel) kernel ops events
      final) {timer : TimerId} (idle : countdown kernel timer = none) :
    TimersSettled final ∧ (.started timer ∉ events →
      countdown final timer = none ∧ ∀ fired ∈ checks events, timer ∉ fired) := by
  induction run with
  | nil => exact ⟨settled, fun _ => ⟨idle, by simp [checks]⟩⟩
  | snoc _ range step ih =>
      obtain ⟨settled, ih⟩ := ih
      obtain ⟨settled', spares⟩ := TimerOp.step quiet settled range step
      refine ⟨settled', fun notStarted => ?_⟩
      simp only [List.mem_append, not_or] at notStarted
      obtain ⟨idle, silent⟩ := ih notStarted.1
      have spared := spares timer notStarted.2 (TimerOp.not_stopped_of_idle idle step)
      rcases spared.counts with ⟨quietly, same⟩ | ⟨fired, check, counts⟩
      · rw [checks_append, quietly, List.append_nil, same]
        exact ⟨idle, silent⟩
      · rw [checks_append, check, counts.counts timer, idle]
        refine ⟨rfl, fun other member => ?_⟩
        rcases List.mem_append.mp member with earlier | last
        · exact silent other earlier
        · rw [List.mem_singleton.mp last]
          exact counts.waits timer (by simp [idle])

/-- Hard timers fire exactly on time, whatever the tick starts from. In every
state of every run the timer list is ordered by the time left; a check ends and
fires in order of the deadlines. From there on, a started one-shot timer fires
at the check which its time names and at no other, a started periodic timer at
every multiple of it, and a stopped timer never. -/
theorem hard_timers_fire_on_time (quiet : LeavesTimers timeoutFunc) (reset : TimersReset boot)
    (run : (timerMachine timeoutFunc).Run (fun kernel op => op.InRange kernel) boot ops events
      kernel) :
    OrderedByRemaining kernel ∧
    (∀ thread, kernel.rtCurrentThread = .thread thread →
      (∀ timer kernel, (timeoutFunc timer kernel).isSome) →
      (rtTickIncrease timeoutFunc kernel).isSome) ∧
    (∀ next fired, rtTickIncrease timeoutFunc kernel = some (next, fired) →
      fired.Pairwise fun left right => remaining kernel left ≤ remaining kernel right) ∧
    (∀ timer started laterOps laterEvents final,
      (kernel.timers timer).InRange → rtTimerStart kernel timer = some (.eok, started) →
      (timerMachine timeoutFunc).Run (fun kernel op => op.InRange kernel) started laterOps
        laterEvents final →
      .started timer ∉ laterEvents → .stopped timer ∉ laterEvents →
      ((kernel.timers timer).periodic = false →
        FiresAt laterEvents timer fun check =>
          check = (kernel.timers timer).initTick.toNat) ∧
      ((kernel.timers timer).periodic = true → .timeSet timer ∉ laterEvents →
        FiresAt laterEvents timer fun check =>
          (kernel.timers timer).initTick.toNat ∣ check)) ∧
    (∀ timer laterOps laterEvents final,
      (timerMachine timeoutFunc).Run (fun kernel op => op.InRange kernel)
        (rtTimerStop kernel timer).2 laterOps laterEvents final →
      .started timer ∉ laterEvents → ∀ fired ∈ checks laterEvents, timer ∉ fired) := by
  have settled := (TimersSettled.initial reset).of_run quiet run
  refine ⟨settled.ordered, ?_, ?_, ?_, ?_⟩
  · intro thread current returns
    exact settled.tick_returns quiet current returns
  · intro next fired step
    exact (rtTickIncrease_countsDown quiet settled step).order
  · intro timer started laterOps laterEvents final range start later notStarted notStopped
    obtain ⟨settled', count, reloads⟩ := settled.started range start
    have fires := (countdown_of_run quiet settled' later timer).2 notStarted notStopped
    rw [count, reloads] at fires
    constructor
    · intro oneShot
      have none : reload kernel timer = none := by simp [reload, oneShot]
      rw [none] at fires
      refine (fires (Or.inr rfl)).2.2.congr fun index => ?_
      rw [Nat.add_sub_cancel]
      exact countDown_once_fires range.1 index
    · intro periodic timeKept
      have again : reload kernel timer = some (kernel.timers timer).initTick.toNat := by
        simp [reload, periodic]
      rw [again] at fires
      refine (fires (Or.inl timeKept)).2.2.congr fun index => ?_
      rw [Nat.add_sub_cancel]
      exact countDown_periodic_fires range.1 index
  · intro timer laterOps laterEvents final later notStarted
    exact ((silent_of_run quiet (settled.stop timer) later (countdown_stop kernel timer)).2
      notStarted).2

/-! ## A timer that is due after the wraparound -/

/-- Callbacks that touch nothing. -/
def untouched : TimerId → Kernel → Option Kernel := fun _ kernel => some kernel

theorem LeavesTimers.untouched : LeavesTimers untouched := by
  intro timer kernel next call
  obtain rfl := Option.some_inj.mp call
  exact .refl kernel

/-- No timer is at the front of the list, or the one there is not due. -/
def Kernel.nothingDue (kernel : Kernel) : Bool :=
  match kernel.timerLinks.next .timerList with
  | .timerList => true
  | .timer timer => ¬ kernel.rtTick - (kernel.timers timer).timeoutTick < halfTickMax

section

variable {charged : Kernel} {timer : TimerId}

theorem check_nothing (quiet : kernel.nothingDue = true) :
    rtTimerCheck timeoutFunc kernel = some (kernel, []) := by
  rw [rtTimerCheck, rtTimerCheckLoop]
  unfold Kernel.nothingDue at quiet
  split at quiet <;> simp_all

theorem tick_nothing
    (slice : checkTimeSlice { kernel with rtTick := kernel.rtTick + 1#32 } = some charged)
    (quiet : charged.nothingDue = true) :
    (timerMachine timeoutFunc).step kernel .tickIncrease = some (charged, [.checked []]) := by
  simp [timerMachine, TimerOp.apply, rtTickIncrease, slice, check_nothing quiet]

/-- A one-shot timer fires, and no other one. -/
theorem tick_oneShot
    (slice : checkTimeSlice { kernel with rtTick := kernel.rtTick + 1#32 } = some charged)
    (front : charged.timerLinks.next .timerList = .timer timer)
    (due : charged.rtTick - (charged.timers timer).timeoutTick < halfTickMax)
    (oneShot : (charged.timers timer).periodic = false)
    (quiet : ((charged.unlinkTimer timer).deactivate timer).nothingDue = true) :
    (timerMachine untouched).step kernel .tickIncrease =
      some ((charged.unlinkTimer timer).deactivate timer, [.checked [timer]]) := by
  have finish : rtTimerFinish (charged.unlinkTimer timer) timer =
      some ((charged.unlinkTimer timer).deactivate timer) := by
    rw [rtTimerFinish, show ((charged.unlinkTimer timer).timers timer).periodic = false from oneShot]
    rfl
  have rest : rtTimerCheckLoop untouched (charged.unlinkTimer timer).rtTick
      ((charged.unlinkTimer timer).deactivate timer) = _ := check_nothing quiet
  have check : rtTimerCheck untouched charged =
      some ((charged.unlinkTimer timer).deactivate timer, [timer]) := by
    rw [rtTimerCheck, rtTimerCheckLoop]
    simp [front, due, untouched, finish, rest]
  simp [timerMachine, TimerOp.apply, rtTickIncrease, slice, check]

/-- The first timer is linked to the empty list. -/
theorem start_first (idle : (kernel.timers timer).activated = false)
    (near : (kernel.timers timer).initTick < halfTickMax)
    (empty : kernel.timerLinks.next .timerList = .timerList) :
    rtTimerStart kernel timer =
      some (.eok, linkTimer (setDeadline kernel timer) .timerList timer) := by
  have scan (stop : TimerNode → Bool) :
      (setDeadline kernel timer).timerLinks.scan .timerList stop .timerList = some .timerList := by
    rw [Links.scan, if_pos rfl]
  simp [rtTimerStart, idle, near, scan,
    show (setDeadline kernel timer).timerLinks.next .timerList = _ from empty]

end

/-- A node that is in no list stays so when it is unlinked. -/
theorem unlink_unlinked (node : TimerNode) :
    (⟨id, id⟩ : Links TimerNode).unlink node = ⟨id, id⟩ := by
  rw [Links.mk.injEq]
  constructor <;> funext other
  · exact (Links.unlink_next ⟨id, id⟩ node other).trans (by grind)
  · exact (Links.unlink_prev ⟨id, id⟩ node other).trans (by grind)

/-- Thread 0 runs, and after three ticks `rt_tick` is 0; a timer takes three ticks. -/
def startNearWraparound : Option Kernel := do
  let config := { Config.plain with rtTick := 0xfffffffd, timerTime := fun _ => 3 }
  let kernel ← rtThreadStartup config.kernel 0
  pure (rtSystemSchedulerStart kernel)

/-- A timer that is started when `rt_tick` is 0xfffffffe fires when it is 1. -/
theorem hard_timers_fire_on_time_at_wraparound : ∃ kernel waiting started final,
    startNearWraparound = some kernel ∧
    (timerMachine untouched).Run (fun kernel op => op.InRange kernel) kernel
      [.tickIncrease] [.checked []] waiting ∧
    rtTimerStart waiting (.object 0) = some (.eok, started) ∧
    (timerMachine untouched).Run (fun kernel op => op.InRange kernel) started
      (List.replicate 4 .tickIncrease)
      [.checked [], .checked [], .checked [.object 0], .checked []] final ∧
    final.rtTick = 2 ∧
    FiresAt [.checked [], .checked [], .checked [.object 0], .checked []] (.object 0)
      fun check => check = 3 := by
  obtain ⟨kernel, waiting, started, final, boot, reset, tick, timer, start, run, late⟩ :
      ∃ kernel waiting started final, startNearWraparound = some kernel ∧
        TimersReset kernel ∧
        (timerMachine untouched).execute kernel [.tickIncrease] = some (waiting, [.checked []]) ∧
        waiting.timers (.object 0) =
          { activated := false, periodic := false, initTick := 3, timeoutTick := 0 } ∧
        rtTimerStart waiting (.object 0) = some (.eok, started) ∧
        (timerMachine untouched).execute started (List.replicate 4 .tickIncrease) = some (final,
          [.checked [], .checked [], .checked [.object 0], .checked []]) ∧
        final.rtTick = 2 := by
    exact ⟨_, _, _, _, rfl,
      ⟨unlink_unlinked _, fun timer => match timer with | .object _ | .thread 0 | .thread (_ + 1) => rfl⟩,
      Machine.execute_cons (tick_nothing rfl rfl) rfl, rfl,
      start_first rfl (by decide) rfl,
      Machine.execute_cons (tick_nothing rfl rfl) <|
        Machine.execute_cons (tick_nothing rfl rfl) <|
        Machine.execute_cons (tick_oneShot rfl rfl (by decide) rfl rfl) <|
        Machine.execute_cons (tick_nothing rfl rfl) rfl,
      rfl⟩
  have first : (timerMachine untouched).Run (fun kernel op => op.InRange kernel) kernel
      [.tickIncrease] [.checked []] waiting :=
    Machine.run_of_execute (by simp [TimerOp.InRange]) tick
  have later : (timerMachine untouched).Run (fun kernel op => op.InRange kernel) started
      (List.replicate 4 .tickIncrease) _ final :=
    Machine.run_of_execute (by simp [TimerOp.InRange]) run
  have range : (waiting.timers (.object 0)).InRange := by
    rw [timer]
    exact ⟨by decide, by decide⟩
  have fires := ((hard_timers_fire_on_time .untouched reset first).2.2.2.1 (.object 0) started _ _
    final range start later (by simp) (by simp)).1 (by rw [timer])
  rw [timer] at fires
  exact ⟨kernel, waiting, started, final, boot, first, start, later, late, fires⟩

end Runs

end RtThread
