import RtThread.Std.Machine
import RtThread.Kernel.TimerRuns

/-!
# Timers that callbacks start and stop

A timeout callback may call `rt_timer_start`, `rt_timer_stop` and
`rt_timer_control` on any timer, also on the one that fires. That timer is
unlinked while it is still flagged `ACTIVATED`, and `rt_timer_check` clears the
flag afterwards without looking at the list; a callback that has started its own
timer again leaves the flag and the list at odds.
-/

namespace RtThread

open RtThread.Std

inductive TimerCall where
  | start (timer : TimerId)
  | stop (timer : TimerId)
  | control (timer : TimerId) (command : TimerCommand)
deriving DecidableEq, Repr

def TimerCall.apply (kernel : Kernel) : TimerCall → Option Kernel
  | .start timer => (rtTimerStart kernel timer).map Prod.snd
  | .stop timer => some (rtTimerStop kernel timer).2
  | .control timer command => some (rtTimerControl kernel timer command)

/-- The calls that the callback of a timer makes in a state. -/
abbrev Callbacks := TimerId → Kernel → List TimerCall

def Callbacks.timeoutFunc (callbacks : Callbacks) (timer : TimerId) (kernel : Kernel) :
    Option Kernel :=
  (callbacks timer kernel).foldlM TimerCall.apply kernel

/-- A call from outside the callbacks, or a check with the callbacks as they are then. -/
inductive CallbackOp where
  | timerCall (call : TimerCall)
  | timerCheck (callbacks : Callbacks)
  | tickIncrease (callbacks : Callbacks)

def CallbackOp.apply (kernel : Kernel) : CallbackOp → Option (Kernel × List TimerId)
  | .timerCall call => (call.apply kernel).map fun next => (next, [])
  | .timerCheck callbacks => rtTimerCheck callbacks.timeoutFunc kernel
  | .tickIncrease callbacks => rtTickIncrease callbacks.timeoutFunc kernel

/-- The machine shows the timers that fire. -/
def callbackMachine : Machine Kernel CallbackOp TimerId where
  step := CallbackOp.apply

/-! ## Callbacks that restart their timer -/

/-- How the timer that fires stands while its callback runs. -/
inductive Standing where
  /-- The callback has not stopped it. -/
  | firing
  | stopped
  /-- The callback has stopped it and started it again. -/
  | restarted
deriving DecidableEq, Repr

def TimerCall.standing (timer : TimerId) (standing : Standing) : TimerCall → Standing
  | .start other => if other = timer ∧ standing = .stopped then .restarted else standing
  | .stop other => if other = timer then .stopped else standing
  | .control _ _ => standing

/-- The calls of the callback of `timer` leave it started again. -/
def Restarts (timer : TimerId) (calls : List TimerCall) : Prop :=
  calls.foldl (TimerCall.standing timer) .firing = .restarted

/-- No callback leaves its own timer started again. -/
def CallbackOp.RestartsNone : CallbackOp → Prop
  | .timerCall _ => True
  | .timerCheck callbacks => ∀ timer kernel, ¬ Restarts timer (callbacks timer kernel)
  | .tickIncrease callbacks => ∀ timer kernel, ¬ Restarts timer (callbacks timer kernel)

/-- `rt_timer_list` carries each timer at most once, and exactly the activated ones. -/
def TimersLinked (kernel : Kernel) : Prop :=
  ∃ queue : List TimerId,
    kernel.timerLinks.Segment .timerList (queue.map .timer) .timerList ∧ queue.Nodup ∧
      ∀ timer, (kernel.timerLinks.Linked .timerList (.timer timer) ↔ timer ∈ queue) ∧
        (timer ∈ queue ↔ (kernel.timers timer).activated = true)

theorem TimerListed.linked {kernel : Kernel} {queue : List TimerId}
    (listed : TimerListed kernel queue) : TimersLinked kernel := by
  refine ⟨queue, listed.rings.ring .timerList trivial, listed.nodup, ?_⟩
  intro timer
  rw [listed.rings.linked_iff TimerNode.isHead_timerList, mem_timerLists]
  exact ⟨by simp, listed.active timer⟩

/-! ## One call -/

section

variable {kernel next : Kernel} {queue : List TimerId} {timer : TimerId}

theorem rtTimerControl_activated (kernel : Kernel) (timer : TimerId) (command : TimerCommand)
    (other : TimerId) : ((rtTimerControl kernel timer command).timers other).activated =
      (kernel.timers other).activated := by
  by_cases same : other = timer
  · subst same
    cases command <;> simp [rtTimerControl, Kernel.setTimer]
  · cases command <;> simp [rtTimerControl, Kernel.setTimer, same]

theorem rtTimerControl_timerLinks (kernel : Kernel) (timer : TimerId) (command : TimerCommand) :
    (rtTimerControl kernel timer command).timerLinks = kernel.timerLinks := by
  cases command <;> rfl

theorem TimerListed.control (listed : TimerListed kernel queue) (timer : TimerId)
    (command : TimerCommand) : TimerListed (rtTimerControl kernel timer command) queue :=
  listed.congr (rtTimerControl_timerLinks kernel timer command)
    (rtTimerControl_activated kernel timer command)

/-- What `rt_timer_start` does to an orderly list, if it returns. -/
theorem TimerListed.rtTimerStart {result : Err} (listed : TimerListed kernel queue)
    (step : rtTimerStart kernel timer = some (result, next)) :
    ∃ queue', TimerListed next queue' ∧ ∀ other, (next.timers other).activated =
      if other = timer then true else (kernel.timers other).activated := by
  cases active : (kernel.timers timer).activated with
  | true =>
      rw [RtThread.rtTimerStart, if_pos active] at step
      obtain ⟨-, rfl⟩ := Prod.mk.inj (Option.some_inj.mp step)
      refine ⟨queue, listed, fun other => ?_⟩
      split
      · rename_i same
        exact same ▸ active
      · rfl
  | false =>
      have small : (kernel.timers timer).initTick < halfTickMax := by
        by_contra large
        simp [RtThread.rtTimerStart, active, large] at step
      obtain ⟨started, start, listed', timers⟩ := listed.start active small
      obtain ⟨-, rfl⟩ := Prod.mk.inj (Option.some_inj.mp (start.symm.trans step))
      refine ⟨_, listed', fun other => ?_⟩
      rw [timers]
      by_cases same : other = timer <;> simp [same]

theorem TimerListed.rtTimerStop (listed : TimerListed kernel queue) (timer : TimerId) :
    ∃ queue', TimerListed (rtTimerStop kernel timer).2 queue' ∧ ∀ other,
      ((rtTimerStop kernel timer).2.timers other).activated =
        if other = timer then false else (kernel.timers other).activated := by
  cases active : (kernel.timers timer).activated with
  | true =>
      refine ⟨queue.erase timer, by simpa [RtThread.rtTimerStop, active] using listed.stop timer,
        fun other => ?_⟩
      by_cases same : other = timer <;>
        simp [RtThread.rtTimerStop, active, Kernel.deactivate, Kernel.setTimer, Kernel.unlinkTimer,
          same]
  | false =>
      refine ⟨queue, by simpa [RtThread.rtTimerStop, active] using listed, fun other => ?_⟩
      by_cases same : other = timer
      · simp [RtThread.rtTimerStop, active, same]
      · simp [RtThread.rtTimerStop, active, same]

/-- The flag of `timer` after a call on an orderly list. -/
def TimerCall.flag (timer : TimerId) (before : Bool) : TimerCall → Bool
  | .start other => if timer = other then true else before
  | .stop other => if timer = other then false else before
  | .control _ _ => before

theorem TimerListed.timerCall {call : TimerCall} (listed : TimerListed kernel queue)
    (step : call.apply kernel = some next) :
    ∃ queue', TimerListed next queue' ∧ ∀ timer,
      (next.timers timer).activated = call.flag timer (kernel.timers timer).activated := by
  cases call with
  | start timer =>
      obtain ⟨⟨result, _⟩, start, rfl⟩ := Option.map_eq_some_iff.mp step
      exact listed.rtTimerStart start
  | stop timer =>
      obtain rfl := Option.some_inj.mp step
      exact listed.rtTimerStop timer
  | control timer command =>
      obtain rfl := Option.some_inj.mp step
      exact ⟨queue, listed.control timer command, rtTimerControl_activated kernel timer command⟩

/-- The timer that fires is in no list; the others are listed as they should. -/
structure TimerFires (kernel : Kernel) (timer : TimerId) (queue : List TimerId) : Prop where
  rings : Rings TimerNode.IsHead kernel.timerLinks (timerLists queue)
  active : ∀ other, other ≠ timer →
    (other ∈ queue ↔ (kernel.timers other).activated = true)
  absent : timer ∉ queue
  flagged : (kernel.timers timer).activated = true

/-- The kernel while the callback of a timer runs. -/
def Stands (kernel : Kernel) (timer : TimerId) : Standing → Prop
  | .firing => ∃ queue, TimerFires kernel timer queue
  | .stopped => (∃ queue, TimerListed kernel queue) ∧ (kernel.timers timer).activated = false
  | .restarted => (∃ queue, TimerListed kernel queue) ∧ (kernel.timers timer).activated = true

theorem TimerListed.fires (listed : TimerListed kernel (timer :: queue)) :
    TimerFires (kernel.unlinkTimer timer) timer queue := by
  have absent := (List.nodup_cons.mp listed.nodup).1
  refine ⟨?_, ?_, absent, (listed.active timer).mp (by simp)⟩
  · refine Rings.congr_timerLists (listed.rings.unlink (TimerNode.not_isHead_timer timer)) ?_
    simp [timerLists]
  · intro other apart
    have active := listed.active other
    rw [List.mem_cons] at active
    simpa [apart, Kernel.unlinkTimer] using active

namespace TimerFires

/-- Once its flag is cleared, the timer is like any stopped one. -/
theorem deactivate (fires : TimerFires kernel timer queue) :
    TimerListed (kernel.deactivate timer) queue := by
  refine ⟨fires.rings, fun other => ?_⟩
  by_cases same : other = timer
  · subst same
    simp [Kernel.deactivate, Kernel.setTimer, fires.absent]
  · simpa [Kernel.deactivate, Kernel.setTimer, same] using fires.active other same

/-- It is in no list, so unlinking it changes none. -/
theorem unlinkTimer (fires : TimerFires kernel timer queue) :
    TimerFires (kernel.unlinkTimer timer) timer queue := by
  have rings := timerLists_unlink fires.rings timer
  rw [List.erase_of_not_mem fires.absent] at rings
  exact ⟨rings, fires.active, fires.absent, fires.flagged⟩

theorem stop (fires : TimerFires kernel timer queue) :
    Stands (rtTimerStop kernel timer).2 timer .stopped := by
  rw [rtTimerStop, if_pos fires.flagged]
  exact ⟨⟨queue, fires.unlinkTimer.deactivate⟩, by simp [Kernel.deactivate, Kernel.setTimer]⟩

theorem startOther {other : TimerId} {result : Err} (fires : TimerFires kernel timer queue)
    (apart : other ≠ timer) (step : rtTimerStart kernel other = some (result, next)) :
    ∃ queue', TimerFires next timer queue' := by
  cases active : (kernel.timers other).activated with
  | true =>
      rw [rtTimerStart, if_pos active] at step
      obtain ⟨-, rfl⟩ := Prod.mk.inj (Option.some_inj.mp step)
      exact ⟨queue, fires⟩
  | false =>
      have small : (kernel.timers other).initTick < halfTickMax := by
        by_contra large
        simp [rtTimerStart, active, large] at step
      have absent : other ∉ queue := by
        rw [fires.active other apart, active]
        simp
      obtain ⟨started, start, rings, timers⟩ := timerLists_start fires.rings absent active small
      obtain ⟨-, rfl⟩ := Prod.mk.inj (Option.some_inj.mp (start.symm.trans step))
      refine ⟨_, rings, ?_, ?_, ?_⟩
      · intro another foreign
        rw [mem_queued, fires.active another foreign, timers]
        by_cases same : another = other <;> simp [same]
      · simp [Ne.symm apart, fires.absent]
      · simpa [timers, Ne.symm apart] using fires.flagged

theorem stopOther {other : TimerId} (fires : TimerFires kernel timer queue)
    (apart : other ≠ timer) : ∃ queue', TimerFires (rtTimerStop kernel other).2 timer queue' := by
  cases active : (kernel.timers other).activated with
  | true =>
      have distinct : queue.Nodup := (fires.rings.distinct .timerList trivial).of_map _
      refine ⟨queue.erase other, ?_⟩
      simp only [rtTimerStop, active, if_true]
      refine ⟨timerLists_unlink fires.rings other, ?_, ?_, ?_⟩
      · intro another foreign
        rw [distinct.mem_erase_iff, fires.active another foreign]
        by_cases same : another = other <;>
          simp [Kernel.deactivate, Kernel.setTimer, Kernel.unlinkTimer, same]
      · exact fun member => fires.absent (List.mem_of_mem_erase member)
      · simpa [Kernel.deactivate, Kernel.setTimer, Kernel.unlinkTimer, Ne.symm apart]
          using fires.flagged
  | false => exact ⟨queue, by simpa [rtTimerStop, active] using fires⟩

theorem control (fires : TimerFires kernel timer queue) (other : TimerId)
    (command : TimerCommand) : TimerFires (rtTimerControl kernel other command) timer queue := by
  refine ⟨?_, ?_, fires.absent, (rtTimerControl_activated ..).trans fires.flagged⟩
  · rw [rtTimerControl_timerLinks]
    exact fires.rings
  · intro another foreign
    rw [rtTimerControl_activated, fires.active another foreign]

end TimerFires

/-- A timer that is not firing stands as its flag says. -/
theorem Stands.of_listed {flag : Bool} (listed : ∃ queue, TimerListed kernel queue)
    (flagged : (kernel.timers timer).activated = flag) :
    Stands kernel timer (if flag then .restarted else .stopped) := by
  cases flag with
  | true => exact ⟨listed, flagged⟩
  | false => exact ⟨listed, flagged⟩

/-- A call on an orderly list moves the standing of a timer with its flag. -/
theorem TimerCall.standing_of_flag (call : TimerCall) (timer : TimerId) (flag : Bool) :
    call.standing timer (if flag then .restarted else .stopped) =
      if call.flag timer flag then .restarted else .stopped := by
  cases call with
  | start other =>
      by_cases same : timer = other
      · cases flag <;> simp [standing, TimerCall.flag, same]
      · cases flag <;> simp [standing, TimerCall.flag, same, Ne.symm same]
  | stop other =>
      by_cases same : timer = other
      · cases flag <;> simp [standing, TimerCall.flag, same]
      · cases flag <;> simp [standing, TimerCall.flag, same, Ne.symm same]
  | control other command => rfl

theorem TimerCall.stands_of_listed {call : TimerCall} {flag : Bool}
    (listed : TimerListed kernel queue) (flagged : (kernel.timers timer).activated = flag)
    (step : call.apply kernel = some next) :
    Stands next timer (call.standing timer (if flag then .restarted else .stopped)) := by
  obtain ⟨queue', listed', flags⟩ := listed.timerCall step
  rw [call.standing_of_flag]
  refine .of_listed ⟨queue', listed'⟩ ?_
  rw [flags, flagged]

theorem TimerCall.stands_of_fires {call : TimerCall} (fires : TimerFires kernel timer queue)
    (step : call.apply kernel = some next) : Stands next timer (call.standing timer .firing) := by
  cases call with
  | start other =>
      obtain ⟨⟨result, _⟩, start, rfl⟩ := Option.map_eq_some_iff.mp step
      have standing : (TimerCall.start other).standing timer .firing = .firing := by
        simp [TimerCall.standing]
      rw [standing]
      by_cases same : other = timer
      · subst same
        rw [rtTimerStart, if_pos fires.flagged] at start
        obtain ⟨-, rfl⟩ := Prod.mk.inj (Option.some_inj.mp start)
        exact ⟨queue, fires⟩
      · exact fires.startOther same start
  | stop other =>
      obtain rfl := Option.some_inj.mp step
      by_cases same : other = timer
      · subst same
        simpa only [TimerCall.standing, if_true] using fires.stop
      · simp only [TimerCall.standing, if_neg same]
        exact fires.stopOther same
  | control other command =>
      obtain rfl := Option.some_inj.mp step
      exact ⟨queue, fires.control other command⟩

theorem TimerCall.stands {call : TimerCall} {standing : Standing}
    (stands : Stands kernel timer standing) (step : call.apply kernel = some next) :
    Stands next timer (call.standing timer standing) := by
  cases standing with
  | firing =>
      obtain ⟨queue, fires⟩ := stands
      exact call.stands_of_fires fires step
  | stopped =>
      obtain ⟨⟨queue, listed⟩, idle⟩ := stands
      exact call.stands_of_listed listed idle step
  | restarted =>
      obtain ⟨⟨queue, listed⟩, active⟩ := stands
      exact call.stands_of_listed listed active step

/-- A whole callback. -/
theorem Stands.calls {calls : List TimerCall} {standing : Standing}
    (stands : Stands kernel timer standing)
    (step : calls.foldlM TimerCall.apply kernel = some next) :
    Stands next timer (calls.foldl (TimerCall.standing timer) standing) := by
  induction calls generalizing kernel standing with
  | nil =>
      obtain rfl := Option.some_inj.mp step
      exact stands
  | cons call calls ih =>
      rw [List.foldlM_cons] at step
      obtain ⟨called, first, rest⟩ := Option.bind_eq_some_iff.mp step
      exact ih (call.stands stands first) rest

/-- `rt_timer_check` puts a timer back in order unless its callback has
restarted it. -/
theorem Stands.finish {standing : Standing} (stands : Stands kernel timer standing)
    (settled : standing ≠ .restarted) (step : rtTimerFinish kernel timer = some next) :
    ∃ queue, TimerListed next queue := by
  have deactivated : ∃ queue, TimerListed (kernel.deactivate timer) queue := by
    cases standing with
    | firing =>
        obtain ⟨queue, fires⟩ := stands
        exact ⟨queue, fires.deactivate⟩
    | stopped =>
        obtain ⟨⟨queue, listed⟩, idle⟩ := stands
        refine ⟨queue, listed.congr rfl fun other => ?_⟩
        by_cases same : other = timer <;> simp [Kernel.deactivate, Kernel.setTimer, same, idle]
    | restarted => exact absurd rfl settled
  obtain ⟨queue, listed⟩ := deactivated
  unfold rtTimerFinish at step
  split at step
  · obtain ⟨⟨result, _⟩, start, done⟩ := Option.bind_eq_some_iff.mp step
    obtain rfl := Option.some_inj.mp done
    obtain ⟨queue', listed', -⟩ := listed.rtTimerStart start
    exact ⟨queue', listed'⟩
  · obtain rfl := Option.some_inj.mp step
    exact ⟨queue, listed⟩

end

/-! ## Every check and every run -/

theorem TimerListed.checkLoop {callbacks : Callbacks} {kernel next : Kernel}
    {queue : List TimerId} {tick : BitVec 32} {fired : List TimerId}
    (orderly : ∀ timer kernel, ¬ Restarts timer (callbacks timer kernel))
    (listed : TimerListed kernel queue)
    (step : rtTimerCheckLoop callbacks.timeoutFunc tick kernel = some (next, fired)) :
    ∃ queue', TimerListed next queue' := by
  suffices walk : ∀ queue, TimerListed kernel queue → ∃ queue', TimerListed next queue' from
    walk queue listed
  refine Kernel.rtTimerCheckLoop.partial_correctness callbacks.timeoutFunc
    (fun _ kernel result => ∀ queue, TimerListed kernel queue →
      ∃ queue', TimerListed result.1 queue') ?_ tick kernel (next, fired) step
  intro loop ih tick kernel result step queue listed
  split at step
  · obtain rfl := Option.some_inj.mp step
    exact ⟨queue, listed⟩
  · rename_i timer front
    split at step
    · obtain ⟨called, callback, step⟩ := Option.bind_eq_some_iff.mp step
      obtain ⟨finished, finish, step⟩ := Option.bind_eq_some_iff.mp step
      obtain ⟨⟨final, later⟩, rest, done⟩ := Option.bind_eq_some_iff.mp step
      obtain rfl := Option.some_inj.mp done
      obtain ⟨queue', rfl⟩ : ∃ queue', queue = timer :: queue' := by
        have head := listed.rings.next_head TimerNode.isHead_timerList
        rw [front] at head
        cases queue with
        | nil => simp [timerLists] at head
        | cons first rest =>
            refine ⟨rest, ?_⟩
            simpa [timerLists, eq_comm] using head
      have stands : Stands (kernel.unlinkTimer timer) timer .firing := ⟨queue', listed.fires⟩
      obtain ⟨queue'', listed'⟩ :=
        (stands.calls callback).finish (orderly timer (kernel.unlinkTimer timer)) finish
      exact ih _ _ (final, later) rest _ listed'
    · obtain rfl := Option.some_inj.mp step
      exact ⟨queue, listed⟩

theorem CallbackOp.listed {op : CallbackOp} {kernel next : Kernel} {queue : List TimerId}
    {fired : List TimerId} (orderly : op.RestartsNone) (listed : TimerListed kernel queue)
    (step : op.apply kernel = some (next, fired)) : ∃ queue', TimerListed next queue' := by
  cases op with
  | timerCall call =>
      obtain ⟨_, made, pair⟩ := Option.map_eq_some_iff.mp step
      obtain ⟨rfl, rfl⟩ := Prod.mk.inj pair
      obtain ⟨queue', listed', -⟩ := listed.timerCall made
      exact ⟨queue', listed'⟩
  | timerCheck callbacks => exact listed.checkLoop orderly step
  | tickIncrease callbacks =>
      obtain ⟨charged, slice, check⟩ := Option.bind_eq_some_iff.mp step
      have same := checkTimeSlice_sameTimers slice
      refine TimerListed.checkLoop orderly (listed.congr same.links fun timer => ?_) check
      rw [same.timers]

/-- In every run whose callbacks leave no timer of their own started again,
`rt_timer_list` carries each activated timer once and no other. -/
theorem timers_linked {kernel next : Kernel} {ops : List CallbackOp} {fired : List TimerId}
    (reset : TimersReset kernel)
    (run : callbackMachine.Run (fun _ op => op.RestartsNone) kernel ops fired next) :
    TimersLinked next := by
  obtain ⟨queue, listed⟩ : ∃ queue, TimerListed next queue := by
    induction run with
    | nil =>
        obtain ⟨queue, inv, -⟩ := TimersSettled.initial reset
        exact ⟨queue, inv.toTimerListed⟩
    | snoc prior orderly step ih =>
        obtain ⟨queue, listed⟩ := ih
        exact CallbackOp.listed orderly listed step
  exact listed.linked

/-! ## A timer that restarts itself -/

section

variable {kernel : Kernel} {queue : List TimerId} {timer : TimerId} {tick : BitVec 32}
  {timeoutFunc : TimerId → Kernel → Option Kernel}

theorem TimerListed.checkLoop_empty (listed : TimerListed kernel []) :
    rtTimerCheckLoop timeoutFunc tick kernel = some (kernel, []) := by
  have head := listed.rings.next_head TimerNode.isHead_timerList
  rw [rtTimerCheckLoop]
  simp [head, timerLists]

theorem checkLoop_late (front : kernel.timerLinks.next .timerList = .timer timer)
    (late : ¬ tick - (kernel.timers timer).timeoutTick < halfTickMax) :
    rtTimerCheckLoop timeoutFunc tick kernel = some (kernel, []) := by
  rw [rtTimerCheckLoop]
  simp [front, late]

theorem checkLoop_due (front : kernel.timerLinks.next .timerList = .timer timer)
    (due : tick - (kernel.timers timer).timeoutTick < halfTickMax) :
    rtTimerCheckLoop timeoutFunc tick kernel =
      (timeoutFunc timer (kernel.unlinkTimer timer)).bind fun called =>
        (rtTimerFinish called timer).bind fun finished =>
          (rtTimerCheckLoop timeoutFunc called.rtTick finished).map fun (next, fired) =>
            (next, timer :: fired) := by
  rw [rtTimerCheckLoop]
  simp [front, due, Option.map_eq_bind]

end

theorem TimersReset.plain : TimersReset Config.plain.kernel where
  links := rfl
  stopped timer := by cases timer <;> rfl

/-- Start timer 0, which is one-shot, with time 0. -/
def startNow : List CallbackOp :=
  [.timerCall (.control (.object 0) (.setTime 0)), .timerCall (.start (.object 0))]

theorem startNow_executes : ∃ started,
    callbackMachine.execute Config.plain.kernel startNow = some (started, []) ∧
      TimerListed started [.object 0] ∧ started.rtTick = 0 ∧
      started.timers (.object 0) =
        { activated := true, periodic := false, initTick := 0, timeoutTick := 0 } := by
  obtain ⟨queue, inv, -⟩ := TimersSettled.initial TimersReset.plain
  obtain rfl : queue = [] := by
    rw [List.eq_nil_iff_forall_not_mem]
    intro timer member
    rw [inv.active, TimersReset.plain.stopped timer] at member
    cases member
  let timed := rtTimerControl Config.plain.kernel (.object 0) (.setTime 0)
  have listed : TimerListed timed [] := inv.toTimerListed.control (.object 0) (.setTime 0)
  have record : timed.timers (.object 0) =
      { activated := false, periodic := false, initTick := 0, timeoutTick := 0 } := by
    simp [timed, rtTimerControl, Kernel.setTimer, Config.kernel, Config.initTimer, Config.plain]
  have idle : (timed.timers (.object 0)).activated = false := by rw [record]
  have small : (timed.timers (.object 0)).initTick < halfTickMax := by
    rw [record]
    decide
  obtain ⟨started, start, listed', timers⟩ := listed.start idle small
  have tick : started.rtTick = 0 := by
    rw [rtTimerStart_frame start]
    rfl
  refine ⟨started, ?_, listed', tick, ?_⟩
  · have start' : rtTimerStart (rtTimerControl Config.plain.kernel (.object 0) (.setTime 0#32))
        (.object 0) = some (.eok, started) := start
    simp [startNow, Machine.execute, callbackMachine, CallbackOp.apply, TimerCall.apply, start']
  · rw [timers, Function.update_self, record]
    rfl

section

variable {kernel : Kernel} {timer : TimerId}

/-- What the callback of a one-shot timer finds when it has stopped its timer. -/
theorem TimerListed.stop_firing (listed : TimerListed kernel [timer]) :
    ∃ stopped, (RtThread.rtTimerStop (kernel.unlinkTimer timer) timer).2 = stopped ∧
      TimerListed stopped [] ∧ stopped.rtTick = kernel.rtTick ∧
      stopped.timers timer = { kernel.timers timer with activated := false } := by
  have fires := listed.fires
  refine ⟨_, rfl, ?_⟩
  rw [RtThread.rtTimerStop, if_pos fires.flagged]
  exact ⟨fires.unlinkTimer.deactivate, rfl, by
    simp [Kernel.deactivate, Kernel.setTimer, Kernel.unlinkTimer]⟩

theorem TimerListed.front {queue : List TimerId} (listed : TimerListed kernel (timer :: queue)) :
    kernel.timerLinks.next .timerList = .timer timer := by
  rw [listed.rings.next_head TimerNode.isHead_timerList]
  rfl

end

/-- Then check it with callbacks that stop their timer. -/
def stopWhenFired : List CallbackOp :=
  startNow ++ [.timerCheck fun timer _ => [.stop timer]]

theorem timers_linked_stopping :
    ∃ next, callbackMachine.execute Config.plain.kernel stopWhenFired = some (next, [.object 0]) ∧
      TimersLinked next := by
  obtain ⟨started, success, listed, tick, record⟩ := startNow_executes
  obtain ⟨stopped, stop, listed', -, record'⟩ := listed.stop_firing
  let callbacks : Callbacks := fun timer _ => [.stop timer]
  have due : started.rtTick - (started.timers (.object 0)).timeoutTick < halfTickMax := by
    rw [tick, record]
    decide
  have called : callbacks.timeoutFunc (.object 0) (started.unlinkTimer (.object 0)) =
      some stopped := by
    simp [callbacks, Callbacks.timeoutFunc, TimerCall.apply, stop]
  have finish : rtTimerFinish stopped (.object 0) = some (stopped.deactivate (.object 0)) := by
    simp [rtTimerFinish, record', record]
  have quiet : TimerListed (stopped.deactivate (.object 0)) [] := by
    refine listed'.congr rfl fun other => ?_
    by_cases same : other = .object 0 <;> simp [Kernel.deactivate, Kernel.setTimer, same, record']
  have check : rtTimerCheck callbacks.timeoutFunc started =
      some (stopped.deactivate (.object 0), [.object 0]) := by
    rw [rtTimerCheck, checkLoop_due listed.front due, called, Option.bind_some, finish,
      Option.bind_some, quiet.checkLoop_empty]
    rfl
  have whole : callbackMachine.execute Config.plain.kernel stopWhenFired =
      some (stopped.deactivate (.object 0), [] ++ [.object 0]) := by
    refine Machine.execute_append success ?_
    simp [Machine.execute, callbackMachine, CallbackOp.apply, show rtTimerCheck
      (Callbacks.timeoutFunc fun timer _ => [.stop timer]) started = _ from check]
  refine ⟨_, whole, timers_linked TimersReset.plain (Machine.run_of_execute ?_ whole)⟩
  simp [stopWhenFired, startNow, CallbackOp.RestartsNone, Restarts, TimerCall.standing]

/-- Check it with callbacks that stop their timer and start it again. -/
def restartWhenFired : List CallbackOp :=
  startNow ++ [.timerCheck fun timer _ =>
    [.stop timer, .control timer (.setTime 1), .start timer]]

/-- The timer stays in the list without being flagged. -/
theorem restarted_timer_unflagged :
    ∃ next, callbackMachine.execute Config.plain.kernel restartWhenFired =
        some (next, [.object 0]) ∧ ¬ TimersLinked next := by
  obtain ⟨started, success, listed, tick, record⟩ := startNow_executes
  obtain ⟨stopped, stop, listed', tick', record'⟩ := listed.stop_firing
  let callbacks : Callbacks := fun timer _ =>
    [.stop timer, .control timer (.setTime 1), .start timer]
  let timed := rtTimerControl stopped (.object 0) (.setTime 1)
  have timedRecord : timed.timers (.object 0) =
      { activated := false, periodic := false, initTick := 1, timeoutTick := 0 } := by
    simp [timed, rtTimerControl, Kernel.setTimer, record', record]
  have idle : (timed.timers (.object 0)).activated = false := by rw [timedRecord]
  have small : (timed.timers (.object 0)).initTick < halfTickMax := by
    rw [timedRecord]
    decide
  obtain ⟨restarted, start, relisted, timers⟩ :=
    (listed'.control (.object 0) (.setTime 1)).start idle small
  have timedTick : timed.rtTick = 0 := by
    rw [← tick, ← tick']
    rfl
  have restartedTick : restarted.rtTick = 0 := by
    rw [rtTimerStart_frame start]
    exact timedTick
  have restartedRecord : restarted.timers (.object 0) =
      { activated := true, periodic := false, initTick := 1, timeoutTick := 1 } := by
    rw [timers, Function.update_self, timedRecord, timedTick]
    rfl
  have due : started.rtTick - (started.timers (.object 0)).timeoutTick < halfTickMax := by
    rw [tick, record]
    decide
  have called : callbacks.timeoutFunc (.object 0) (started.unlinkTimer (.object 0)) =
      some restarted := by
    have start' : rtTimerStart (rtTimerControl stopped (.object 0) (.setTime 1#32)) (.object 0) =
        some (.eok, restarted) := start
    simp [callbacks, Callbacks.timeoutFunc, TimerCall.apply, stop, start']
  have finish : rtTimerFinish restarted (.object 0) = some (restarted.deactivate (.object 0)) := by
    simp [rtTimerFinish, restartedRecord]
  have late : ¬ restarted.rtTick -
      ((restarted.deactivate (.object 0)).timers (.object 0)).timeoutTick < halfTickMax := by
    simp [Kernel.deactivate, Kernel.setTimer, restartedRecord, restartedTick]
    decide
  have front : (restarted.deactivate (.object 0)).timerLinks.next .timerList =
      .timer (.object 0) := relisted.front
  have check : rtTimerCheck callbacks.timeoutFunc started =
      some (restarted.deactivate (.object 0), [.object 0]) := by
    rw [rtTimerCheck, checkLoop_due listed.front due, called, Option.bind_some, finish,
      Option.bind_some, checkLoop_late front late]
    rfl
  have whole : callbackMachine.execute Config.plain.kernel restartWhenFired =
      some (restarted.deactivate (.object 0), [] ++ [.object 0]) := by
    refine Machine.execute_append success ?_
    simp [Machine.execute, callbackMachine, CallbackOp.apply, show rtTimerCheck
      (Callbacks.timeoutFunc fun timer _ =>
        [.stop timer, .control timer (.setTime 1#32), .start timer]) started = _ from check]
  refine ⟨restarted.deactivate (.object 0), whole, ?_⟩
  · rintro ⟨queue, -, -, linked⟩
    have flagged := (linked (.object 0)).1.trans (linked (.object 0)).2
    have there : (restarted.deactivate (.object 0)).timerLinks.Linked .timerList
        (.timer (.object 0)) := by
      refine (relisted.rings.linked_iff TimerNode.isHead_timerList _).mpr ?_
      simp
    have active := flagged.mp there
    simp [Kernel.deactivate, Kernel.setTimer] at active

end RtThread
