import RtThread.Kernel.TimerSoft
import RtThread.Kernel.WaitQueue

/-!
# The timer thread

`rt_thread_timer_entry` sleeps until the first soft timer is due. `rt_thread_delay` takes a
number of ticks, and what it gets is the tick at which the timer is due.
-/

namespace RtThread

open RtThread.Std

/-- `RT_TICK_MAX`. -/
def tickMax : BitVec 32 := 0xffffffff

def rtTimerListNextTimeout (timerLinks : Links TimerNode) (timers : TimerId → Timer) :
    BitVec 32 :=
  match timerLinks.next .timerList with
  | .timerList => tickMax
  | .timer timer => (timers timer).timeoutTick

/-- A round of `rt_thread_timer_entry` up to the point where the thread has been switched out;
`softTimerLinks` are the links of `rt_soft_timer_list`. -/
def rtThreadTimerEntrySleep (softTimerLinks : Links TimerNode) (kernel : Kernel) :
    Option Kernel :=
  let nextTimeout := rtTimerListNextTimeout softTimerLinks kernel.timers
  if nextTimeout = tickMax then
    match kernel.rtCurrentThread with
    | .thread thread => some (rtSchedule (rtThreadSuspend kernel thread).2)
    | _ => none
  else rtThreadSleep kernel nextTimeout

/-- `rt_soft_timer_list` carries `queue`, whose front has the earliest deadline. -/
structure SoftListed (softTimerLinks : Links TimerNode) (kernel : Kernel)
    (queue : List TimerId) : Prop where
  rings : Rings TimerNode.IsHead softTimerLinks (timerLists queue)
  first : ∀ head ∈ queue.head?, remaining kernel head < halfTickMax.toNat ∧
    ∀ other ∈ queue, remaining kernel head ≤ remaining kernel other

/-- The timer thread runs, and its own timer is in no list. -/
structure TimerThreadRuns (kernel : Kernel) (thread : ThreadId) : Prop where
  current : kernel.rtCurrentThread = .thread thread
  ready : (kernel.threads thread).stat = .ready
  idle : (kernel.timers (.thread thread)).activated = false
  hard : ∃ queue, Rings TimerNode.IsHead kernel.timerLinks (timerLists queue) ∧
    .thread thread ∉ queue

/-- The timer thread goes to sleep until the earliest deadline, and without a timer only if there
is no deadline. -/
def WakesInTime (softTimerLinks : Links TimerNode) (kernel : Kernel) (thread : ThreadId)
    (queue : List TimerId) : Prop :=
  ∃ next, rtThreadTimerEntrySleep softTimerLinks kernel = some next ∧
    (next.threads thread).stat = .suspend ∧
    ((next.timers (.thread thread)).activated = false → queue = []) ∧
    ∀ timer ∈ queue, (∀ other ∈ queue, remaining kernel timer ≤ remaining kernel other) →
      (next.timers (.thread thread)).timeoutTick = (kernel.timers timer).timeoutTick

section

variable {softTimerLinks : Links TimerNode} {kernel next : Kernel} {thread : ThreadId}
  {timer : TimerId} {queue : List TimerId} {tick : BitVec 32}

theorem rtThreadSuspend_sameTimers (kernel : Kernel) (thread : ThreadId) :
    SameTimers kernel (rtThreadSuspend kernel thread).2 := by
  unfold rtThreadSuspend rtScheduleRemoveThread
  dsimp only
  split
  · exact .refl kernel
  · split <;> exact ⟨rfl, rfl, rfl⟩

/-- `rt_thread_sleep` starts the thread timer of the suspended thread. -/
theorem TimerThreadRuns.sleep_eq (runs : TimerThreadRuns kernel thread) (tick : BitVec 32) :
    rtThreadSleep kernel tick =
      (rtTimerStart (rtTimerControl (rtThreadSuspend kernel thread).2 (.thread thread)
        (.setTime tick)) (.thread thread)).map fun (_, started) => rtSchedule started := by
  simp [rtThreadSleep, runs.current, rtThreadSleepSection, startThreadTimer, Option.map_eq_bind]

/-- A thread that sleeps is suspended, with its timer set `tick` ticks ahead. -/
theorem TimerThreadRuns.sleep (runs : TimerThreadRuns kernel thread) (small : tick < halfTickMax) :
    ∃ next, rtThreadSleep kernel tick = some next ∧ (next.threads thread).stat = .suspend ∧
      next.timers (.thread thread) =
        { kernel.timers (.thread thread) with
          activated := true
          initTick := tick
          timeoutTick := kernel.rtTick + tick } := by
  obtain ⟨hardQueue, rings, absent⟩ := runs.hard
  have same := rtThreadSuspend_sameTimers kernel thread
  let timed := rtTimerControl (rtThreadSuspend kernel thread).2 (.thread thread) (.setTime tick)
  have record : timed.timers (.thread thread) =
      { kernel.timers (.thread thread) with initTick := tick } := by
    simp [timed, rtTimerControl, Kernel.setTimer, same.timers]
  have links : timed.timerLinks = kernel.timerLinks := same.links
  obtain ⟨started, start, -, timers⟩ := @timerLists_start timed hardQueue (.thread thread)
    (links ▸ rings) absent (by rw [record]; exact runs.idle) (by rw [record]; exact small)
  refine ⟨rtSchedule started, ?_, ?_, ?_⟩
  · rw [runs.sleep_eq, show rtTimerStart (rtTimerControl _ _ _) _ = _ from start]
    rfl
  · rw [rtSchedule_threads, rtTimerStart_frame start]
    have suspended := rtThreadSuspend_threads runs.ready
    simp [timed, rtTimerControl, Kernel.setTimer, suspended]
  · rw [(rtSchedule_sameTimers started).timers, timers, Function.update_self, record]
    have tick' : timed.rtTick = kernel.rtTick := same.tick
    rw [tick']

/-- `rt_timer_start` does not return for a time that it does not take. -/
theorem TimerThreadRuns.sleep_long (runs : TimerThreadRuns kernel thread)
    (large : ¬ tick < halfTickMax) : rtThreadSleep kernel tick = none := by
  have same := rtThreadSuspend_sameTimers kernel thread
  have record : (rtTimerControl (rtThreadSuspend kernel thread).2 (.thread thread)
      (.setTime tick)).timers (.thread thread) =
        { kernel.timers (.thread thread) with initTick := tick } := by
    simp [rtTimerControl, Kernel.setTimer, same.timers]
  rw [runs.sleep_eq, rtTimerStart, record, if_neg (by simp [runs.idle]), if_neg large]
  rfl

theorem nextTimeout_eq (soft : SoftListed softTimerLinks kernel queue) :
    rtTimerListNextTimeout softTimerLinks kernel.timers =
      (queue.head?.map fun timer => (kernel.timers timer).timeoutTick).getD tickMax := by
  have head := soft.rings.next_head TimerNode.isHead_timerList
  cases queue with
  | nil => simp [rtTimerListNextTimeout, head, timerLists]
  | cons timer queue => simp [rtTimerListNextTimeout, head, timerLists]

/-- Equal times left mean equal deadlines. -/
theorem timeoutTick_of_remaining {other : TimerId}
    (equal : remaining kernel timer = remaining kernel other) :
    (kernel.timers timer).timeoutTick = (kernel.timers other).timeoutTick := by
  have same := BitVec.eq_of_toNat_eq equal
  exact (BitVec.sub_left_inj _).mp same

/-- The deadline of the first timer, taken as a time, leads to itself at tick 0 only. -/
theorem tick_of_wakes (runs : TimerThreadRuns kernel thread)
    (soft : SoftListed softTimerLinks kernel (timer :: queue))
    (wakes : WakesInTime softTimerLinks kernel thread (timer :: queue)) : kernel.rtTick = 0 := by
  obtain ⟨-, earliest⟩ := soft.first timer rfl
  have timeout : rtTimerListNextTimeout softTimerLinks kernel.timers =
      (kernel.timers timer).timeoutTick := nextTimeout_eq soft
  obtain ⟨next, step, suspended, inactive, expires⟩ := wakes
  rw [rtThreadTimerEntrySleep, timeout] at step
  by_cases max : (kernel.timers timer).timeoutTick = tickMax
  · -- The thread is suspended as if there were no timer.
    simp only [max, if_true, runs.current, Option.some.injEq] at step
    have same := (rtThreadSuspend_sameTimers kernel thread).trans (rtSchedule_sameTimers _)
    rw [← step, same.timers] at inactive
    cases inactive runs.idle
  · rw [if_neg max] at step
    by_cases small : (kernel.timers timer).timeoutTick < halfTickMax
    · obtain ⟨slept, step', -, record⟩ := runs.sleep small
      obtain rfl := Option.some_inj.mp (step'.symm.trans step)
      have deadline := expires timer List.mem_cons_self earliest
      rw [record] at deadline
      exact add_eq_right.mp deadline
    · cases (runs.sleep_long small).symm.trans step

theorem wakes_of_tick (runs : TimerThreadRuns kernel thread)
    (soft : SoftListed softTimerLinks kernel (timer :: queue)) (zero : kernel.rtTick = 0) :
    WakesInTime softTimerLinks kernel thread (timer :: queue) := by
  obtain ⟨near, earliest⟩ := soft.first timer rfl
  have timeout : rtTimerListNextTimeout softTimerLinks kernel.timers =
      (kernel.timers timer).timeoutTick := nextTimeout_eq soft
  have small : (kernel.timers timer).timeoutTick < halfTickMax := by
    rw [remaining, ahead, zero, show (kernel.timers timer).timeoutTick - 0 =
      (kernel.timers timer).timeoutTick from BitVec.sub_zero _] at near
    exact BitVec.lt_def.mpr near
  have max : (kernel.timers timer).timeoutTick ≠ tickMax := by
    rintro max
    rw [max] at small
    exact absurd small (by decide)
  obtain ⟨next, step, suspended, record⟩ := runs.sleep small
  refine ⟨next, ?_, suspended, ?_, fun other member least => ?_⟩
  · rw [rtThreadTimerEntrySleep, timeout, if_neg max, step]
  · rw [record]
    rintro inactive
    cases inactive
  · have equal := Nat.le_antisymm (earliest other member) (least timer List.mem_cons_self)
    rw [record, ← timeoutTick_of_remaining equal]
    simp [zero]

/-- The timer thread wakes in time if there is no soft timer or the tick is 0, and only then. -/
theorem timer_thread_wakes (runs : TimerThreadRuns kernel thread)
    (soft : SoftListed softTimerLinks kernel queue) :
    WakesInTime softTimerLinks kernel thread queue ↔ queue = [] ∨ kernel.rtTick = 0 := by
  cases queue with
  | nil =>
      have timeout := nextTimeout_eq soft
      refine iff_of_true ⟨rtSchedule (rtThreadSuspend kernel thread).2, ?_, ?_, ?_, ?_⟩ (Or.inl rfl)
      · simp [rtThreadTimerEntrySleep, timeout, runs.current]
      · simp [rtThreadSuspend_threads runs.ready]
      · simp
      · simp
  | cons timer queue =>
      refine ⟨fun wakes => Or.inr (tick_of_wakes runs soft wakes), ?_⟩
      rintro (none_ | zero)
      · cases none_
      · exact wakes_of_tick runs soft zero

end

/-- The timer thread runs at `tick`, with the timers of `kernel` as soft timers. -/
def timerThreadKernel (kernel : Kernel) (tick : BitVec 32) : Kernel :=
  { kernel.setStat 0 .ready with
    timerLinks := ⟨id, id⟩, rtTick := tick, rtCurrentThread := .thread 0 }

theorem timerThreadKernel_runs {kernel : Kernel}
    (listed : TimerListed kernel [.object 1, .object 0]) (tick : BitVec 32) :
    TimerThreadRuns (timerThreadKernel kernel tick) 0 := by
  have idle : (kernel.timers (.thread 0)).activated = false := by
    have active := listed.active (.thread 0)
    simpa using active
  refine ⟨rfl, ?_, idle, [], Rings.congr_timerLists (Rings.nil _) rfl, by simp⟩
  simp [timerThreadKernel, Kernel.setStat, Kernel.setThread]

theorem timerThreadKernel_soft {kernel : Kernel} {tick : BitVec 32}
    (listed : TimerListed kernel [.object 1, .object 0])
    (periodic : (kernel.timers (.object 0)).timeoutTick = 5)
    (oneShot : (kernel.timers (.object 1)).timeoutTick = 3) (early : tick ≤ 3) :
    SoftListed kernel.timerLinks (timerThreadKernel kernel tick) [.object 1, .object 0] := by
  have first : remaining (timerThreadKernel kernel tick) (.object 1) = 3 - tick.toNat := by
    have left : remaining (timerThreadKernel kernel tick) (.object 1) =
        ((kernel.timers (.object 1)).timeoutTick - tick).toNat := rfl
    rw [left, oneShot]
    exact BitVec.toNat_sub_of_le early
  have second : remaining (timerThreadKernel kernel tick) (.object 0) = 5 - tick.toNat := by
    have left : remaining (timerThreadKernel kernel tick) (.object 0) =
        ((kernel.timers (.object 0)).timeoutTick - tick).toNat := rfl
    rw [left, periodic]
    exact BitVec.toNat_sub_of_le (BitVec.le_trans early (by decide))
  refine ⟨listed.rings, fun head member => ?_⟩
  obtain rfl := Option.some_inj.mp member
  rw [first]
  refine ⟨Nat.lt_of_le_of_lt (Nat.sub_le _ _) (by decide), fun other member => ?_⟩
  rcases List.mem_pair.mp member with rfl | rfl
  · rw [first]
  · rw [second]
    omega

theorem timer_thread_wakes_at_zero :
    ∃ first second, rtTimerStart (twoTimers 5) (.object 1) = some (.eok, first) ∧
      rtTimerStart first (.object 0) = some (.eok, second) ∧
      WakesInTime second.timerLinks (timerThreadKernel second 0) 0 [.object 1, .object 0] := by
  obtain ⟨first, second, start, start', listed, periodic, oneShot⟩ := twoTimers_started
  have soft := timerThreadKernel_soft listed (by rw [periodic]) (by rw [oneShot])
    (show (0 : BitVec 32) ≤ 3 by decide)
  exact ⟨first, second, start, start',
    (timer_thread_wakes (timerThreadKernel_runs listed 0) soft).2 (Or.inr rfl)⟩

/-- At tick 1 the thread sleeps until tick 4, with a timer that is due at tick 3. -/
theorem timer_thread_sleeps_too_long :
    ∃ first second, rtTimerStart (twoTimers 5) (.object 1) = some (.eok, first) ∧
      rtTimerStart first (.object 0) = some (.eok, second) ∧
      TimerThreadRuns (timerThreadKernel second 1) 0 ∧
      SoftListed second.timerLinks (timerThreadKernel second 1) [.object 1, .object 0] ∧
      ¬ WakesInTime second.timerLinks (timerThreadKernel second 1) 0
        [.object 1, .object 0] := by
  obtain ⟨first, second, start, start', listed, periodic, oneShot⟩ := twoTimers_started
  have runs := timerThreadKernel_runs listed 1
  have soft := timerThreadKernel_soft listed (by rw [periodic]) (by rw [oneShot])
    (show (1 : BitVec 32) ≤ 3 by decide)
  refine ⟨first, second, start, start', runs, soft, fun wakes => ?_⟩
  exact absurd (tick_of_wakes runs soft wakes) (by simp [timerThreadKernel])

end RtThread
