import RtThread.Kernel.MessageQueue
import RtThread.Kernel.TimerRuns
import RtThread.Kernel.WaitTicks

/-!
# The timeout of the calls that wait in a loop

`rt_mb_send_wait`, `rt_mb_recv` and `rt_mq_recv` wait in the same loop: while the object
is full or empty they suspend their thread with `timeout`, and when they have been woken
they take from `timeout` the ticks that have passed. Here one such call is seen in time.
Everything else is its surroundings: who wakes the thread, when it runs again, and what
the object is like then. The rounds of the call and its timer are those of the kernel
(`LoopRound.round`, `TimedLoop.Mirrors.tick`).
-/

namespace RtThread

open RtThread.Std

/-- The calls with this loop. -/
inductive LoopCall where
  | mbSendWait | mbRecv | mqRecv
deriving DecidableEq, Repr

/-- What the call returns when it may not wait. -/
def LoopCall.refusal : LoopCall → Err
  | .mbSendWait => .efull
  | .mbRecv | .mqRecv => .etimeout

/-- Where the call is. A thread that has been resumed has `thread->error`. -/
inductive LoopPoint where
  | entered
  | suspended
  | resumed (result : Err)
  | returned (result : Err)
deriving DecidableEq, Repr

/-- A call in time: its variables `timeout` and `tick_delta`, and the ticks left of the
thread timer. `since` counts the ticks since it was suspended last, and `spent` all ticks
for which it was suspended. -/
structure TimedLoop where
  rtTick : BitVec 32
  timeout : BitVec 32
  tickDelta : BitVec 32
  timer : Nat
  point : LoopPoint
  since : Nat
  spent : Nat
deriving DecidableEq, Repr

inductive LoopAction where
  | tick
  /-- Somebody resumes the thread. -/
  | resume (result : Err)
  /-- The thread runs, and finds the object full or empty, or not. -/
  | run (blocked : Bool)
deriving DecidableEq, Repr

inductive LoopEvent where
  /-- The thread has been suspended with this timeout. -/
  | waits (timeout : BitVec 32)
  | returns (result : Err)
deriving DecidableEq, Repr

namespace TimedLoop

/-- The call is entered with a waiting time at some tick. -/
def enter (rtTick timeout : BitVec 32) : TimedLoop :=
  ⟨rtTick, timeout, 0, 0, .entered, 0, 0⟩

def return_ (state : TimedLoop) (result : Err) : TimedLoop × List LoopEvent :=
  ({ state with point := .returned result }, [.returns result])

/-- Suspend the thread, and start its timer if there is a waiting time. `rt_timer_start`
does not return for half the range of ticks. -/
def suspend (state : TimedLoop) : Option (TimedLoop × List LoopEvent) :=
  let state := { state with point := .suspended, since := 0 }
  if hasWaitingTime state.timeout then
    if state.timeout < halfTickMax then
      some ({ state with tickDelta := state.rtTick, timer := state.timeout.toNat },
        [.waits state.timeout])
    else none
  else some (state, [.waits state.timeout])

/-- A round of the loop. -/
def round (call : LoopCall) (blocked : Bool) (state : TimedLoop) :
    Option (TimedLoop × List LoopEvent) :=
  if blocked then
    if state.timeout = 0#32 then some (state.return_ call.refusal) else state.suspend
  else some (state.return_ .eok)

/-- A tick. The timer that it takes to zero resumes the thread with `-RT_ETIMEOUT`. -/
def tick (state : TimedLoop) : TimedLoop :=
  let state := { state with rtTick := state.rtTick + 1#32, since := state.since + 1 }
  if state.point = .suspended then
    let state := { state with spent := state.spent + 1 }
    if hasWaitingTime state.timeout then
      { state with
        timer := state.timer - 1
        point := if state.timer ≤ 1 then .resumed .etimeout else .suspended }
    else state
  else state

/-- "if it's not waiting forever and then re-calculate timeout tick" -/
def recalculate (state : TimedLoop) : TimedLoop :=
  { state with timeout := reduceTimeout state.timeout state.tickDelta state.rtTick }

end TimedLoop

def loopMachine (call : LoopCall) : Machine TimedLoop LoopAction LoopEvent where
  step state
    | .tick => some (state.tick, [])
    | .resume result =>
        if state.point = .suspended then some ({ state with point := .resumed result }, [])
        else none
    | .run blocked =>
        match state.point with
        | .entered => state.round call blocked
        | .resumed .eok => state.recalculate.round call blocked
        | .resumed result => some (state.return_ result)
        | .suspended | .returned _ => none

/-- A thread that has been woken runs before the time left has been over for half the
range of ticks. -/
def TimedLoop.Prompt (state : TimedLoop) : LoopAction → Prop
  | .run true => state.point = .resumed .eok → state.since ≤ state.timeout.toNat + 2 ^ 31
  | _ => True

/-- The call has been suspended for no longer than its timeout, and it has never waited
forever. -/
structure LoopInTime (timeout : BitVec 32) (events : List LoopEvent) (state : TimedLoop) :
    Prop where
  spent : state.spent ≤ timeout.toNat
  finite : ∀ time, .waits time ∈ events → hasWaitingTime time = true

/-! ## The rounds of the kernel -/

/-- What a round of the loop does to the call, as the kernel reports it. -/
inductive LoopRound (call : LoopCall) (blocked : Bool) (timeout : BitVec 32) : Outcome → Prop where
  | refused {output} (full : blocked = true) (zero : timeout = 0#32) :
      LoopRound call blocked timeout (.returns call.refusal output)
  | suspended {timer} (full : blocked = true) (waits : timeout ≠ 0#32)
      (started : timer.isSome = hasWaitingTime timeout) :
      LoopRound call blocked timeout (.suspends timer)
  | done {output} (free : blocked = false) : LoopRound call blocked timeout (.returns .eok output)
  | woke {output} (free : blocked = false) : LoopRound call blocked timeout (.reschedules output)

section

variable {kernel next : Kernel} {list : WaitList} {thread : ThreadId} {flag : IpcFlag}
  {timeout value : BitVec 32} {outcome : Outcome} {call : LoopCall} {mailbox : Nat}
  {output : Option (BitVec 32)}

theorem suspendOn_loopRound (waits : timeout ≠ 0#32)
    (step : suspendOn kernel list thread flag timeout = some (next, outcome)) :
    LoopRound call true timeout outcome := by
  simp only [suspendOn, Option.bind_eq_bind, Option.bind_eq_some_iff] at step
  obtain ⟨suspended, -, step⟩ := step
  split at step
  · rename_i positive
    obtain ⟨⟨result, started⟩, -, made⟩ := Option.bind_eq_some_iff.mp step
    obtain ⟨rfl, rfl⟩ := Prod.mk.inj (Option.some_inj.mp made)
    exact .suspended rfl waits positive.symm
  · rename_i forever
    obtain ⟨rfl, rfl⟩ := Prod.mk.inj (Option.some_inj.mp step)
    exact .suspended rfl waits (by simpa using forever)

theorem resumeFirst_loopRound (step : resumeFirst kernel list output = some (next, outcome)) :
    LoopRound call false timeout outcome := by
  unfold resumeFirst at step
  split at step
  · obtain ⟨rfl, rfl⟩ := Prod.mk.inj (Option.some_inj.mp step)
    exact .done rfl
  · obtain ⟨resumed, -, made⟩ := Option.bind_eq_some_iff.mp step
    obtain ⟨rfl, rfl⟩ := Prod.mk.inj (Option.some_inj.mp made)
    exact .woke rfl

theorem rtMbSendRound_loopRound
    (step : rtMbSendRound kernel mailbox value timeout = some (next, outcome)) :
    LoopRound .mbSendWait
      (decide ((kernel.mailboxes mailbox).entry = (kernel.mailboxes mailbox).size)) timeout
      outcome := by
  unfold rtMbSendRound at step
  dsimp only at step
  split at step
  · rename_i full
    rw [decide_eq_true full]
    split at step
    · split at step
      · rename_i zero
        obtain ⟨rfl, rfl⟩ := Prod.mk.inj (Option.some_inj.mp step)
        exact .refused rfl zero
      · rename_i waits
        exact suspendOn_loopRound waits step
    · cases step
  · rename_i room
    rw [decide_eq_false room]
    exact resumeFirst_loopRound step

theorem rtMbRecvRound_loopRound
    (step : rtMbRecvRound kernel mailbox timeout = some (next, outcome)) :
    LoopRound .mbRecv (decide ((kernel.mailboxes mailbox).entry = 0#16)) timeout outcome := by
  unfold rtMbRecvRound at step
  dsimp only at step
  split at step
  · rename_i empty
    rw [decide_eq_true empty]
    split at step
    · split at step
      · rename_i zero
        obtain ⟨rfl, rfl⟩ := Prod.mk.inj (Option.some_inj.mp step)
        exact .refused rfl zero
      · rename_i waits
        exact suspendOn_loopRound waits step
    · cases step
  · rename_i some_
    rw [decide_eq_false some_]
    exact resumeFirst_loopRound step

/-- A round of `rt_mq_recv` that finds no message goes on like the others. One that finds a
message goes on to copy it. -/
theorem rtMqRecvRound_loopRound {mq mq' : MessageQueue} {context : Context} {after : MqOutcome}
    (step : rtMqRecvRound kernel mq context timeout = some (next, mq', after)) :
    if mq.entry = 0#16 then
      ∃ outcome, after = outcome.onMq ∧ LoopRound .mqRecv true timeout outcome
    else after = .goesOn (.drain mq.msgQueueHead []) := by
  unfold rtMqRecvRound at step
  by_cases empty : mq.entry = 0#16
  · rw [if_pos empty] at step ⊢
    cases context with
    | handler source => cases step
    | thread thread =>
        dsimp only at step
        by_cases zero : timeout = 0#32
        · rw [if_pos zero] at step
          obtain ⟨-, same⟩ := Prod.mk.inj (Option.some_inj.mp step)
          obtain ⟨-, rfl⟩ := Prod.mk.inj same
          exact ⟨.returns .etimeout none, rfl, .refused rfl zero⟩
        · rw [if_neg zero] at step
          obtain ⟨⟨next', outcome⟩, suspended, made⟩ := Option.bind_eq_some_iff.mp step
          obtain ⟨-, same⟩ := Prod.mk.inj (Option.some_inj.mp made)
          obtain ⟨-, rfl⟩ := Prod.mk.inj same
          exact ⟨outcome, rfl, suspendOn_loopRound zero suspended⟩
  · rw [if_neg empty] at step ⊢
    obtain ⟨-, same⟩ := Prod.mk.inj (Option.some_inj.mp step)
    exact (Prod.mk.inj same).2.symm

/-- Where a call is after a section: one that has resumed a thread has only to schedule. -/
def Outcome.loopPoint : Outcome → LoopPoint
  | .returns result _ => .returned result
  | .suspends _ => .suspended
  | .reschedules _ => .returned .eok

/-- A round of the timed call goes as the kernel's does. -/
theorem LoopRound.round {blocked : Bool} {state after : TimedLoop} {emitted : List LoopEvent}
    (kernelRound : LoopRound call blocked state.timeout outcome)
    (step : state.round call blocked = some (after, emitted)) :
    after.point = outcome.loopPoint := by
  unfold TimedLoop.round at step
  cases kernelRound with
  | refused full zero =>
      rw [full, if_pos rfl, if_pos zero] at step
      obtain ⟨rfl, -⟩ := Prod.mk.inj (Option.some_inj.mp step)
      rfl
  | suspended full waits started =>
      rw [full, if_pos rfl, if_neg waits, TimedLoop.suspend] at step
      dsimp only at step
      split at step
      · split at step
        · obtain ⟨rfl, -⟩ := Prod.mk.inj (Option.some_inj.mp step)
          rfl
        · cases step
      · obtain ⟨rfl, -⟩ := Prod.mk.inj (Option.some_inj.mp step)
        rfl
  | done free =>
      rw [free, if_neg Bool.false_ne_true] at step
      obtain ⟨rfl, -⟩ := Prod.mk.inj (Option.some_inj.mp step)
      rfl
  | woke free =>
      rw [free, if_neg Bool.false_ne_true] at step
      obtain ⟨rfl, -⟩ := Prod.mk.inj (Option.some_inj.mp step)
      rfl

end

/-! ## Waiting times -/

theorem hasWaitingTime_iff {time : BitVec 32} :
    hasWaitingTime time = true ↔ 0 < time.toNat ∧ time.toNat < 2 ^ 31 := by
  have range := time.isLt
  have zero : (0 : BitVec 32).toInt = 0 := rfl
  rw [hasWaitingTime, BitVec.slt_iff_toInt_lt, zero, BitVec.toInt_eq_toNat_cond]
  split <;> omega

theorem slt_zero_iff {time : BitVec 32} : time.slt 0 = true ↔ 2 ^ 31 ≤ time.toNat := by
  have range := time.isLt
  have zero : (0 : BitVec 32).toInt = 0 := rfl
  rw [BitVec.slt_iff_toInt_lt, zero, BitVec.toInt_eq_toNat_cond]
  split <;> omega

/-- The time left is what the ticks have not used up, while they are not over for half the
range of ticks. -/
theorem reduceTimeout_toNat {timeout tickDelta : BitVec 32} {since : Nat}
    (waits : hasWaitingTime timeout = true) (near : since ≤ timeout.toNat + 2 ^ 31) :
    (reduceTimeout timeout tickDelta (tickDelta + BitVec.ofNat 32 since)).toNat =
      timeout.toNat - since := by
  obtain ⟨positive, small⟩ := hasWaitingTime_iff.mp waits
  have difference : tickDelta + BitVec.ofNat 32 since - tickDelta = BitVec.ofNat 32 since := by
    rw [BitVec.add_comm, BitVec.add_sub_cancel]
  have inside : since % 2 ^ 32 = since := Nat.mod_eq_of_lt (by omega)
  have left : (timeout - BitVec.ofNat 32 since).toNat =
      (2 ^ 32 - since + timeout.toNat) % 2 ^ 32 := by
    rw [BitVec.toNat_sub, BitVec.toNat_ofNat, inside]
  rw [reduceTimeout, if_pos waits, difference]
  dsimp only
  by_cases late : timeout.toNat < since
  · rw [if_pos (slt_zero_iff.mpr (by omega)), Nat.sub_eq_zero_of_le late.le]
    rfl
  · rw [if_neg (mt slt_zero_iff.mp (by omega)), left]
    omega

/-! ## The thread timer -/

/-- The callbacks of the thread timers leave the timers alone. -/
theorem leavesTimers_threadTimeoutFunc : LeavesTimers threadTimeoutFunc := by
  intro timer kernel next call
  cases timer with
  | object index =>
      obtain rfl := Option.some_inj.mp call
      exact .refl kernel
  | thread thread =>
      obtain ⟨-, made⟩ := Option.ite_none_right_eq_some.mp call
      obtain rfl := Option.some_inj.mp made
      have inserted : SameTimers kernel
          (rtScheduleInsertThread ((kernel.setError thread .etimeout).unlinkThread thread) thread) :=
        ⟨rfl, rfl, rfl⟩
      exact inserted.trans (rtSchedule_sameTimers _)

/-- The kernel and the timed call agree: the thread timer has as many ticks left as the call's,
and a call that has timed out is one whose thread is ready with `-RT_ETIMEOUT`. -/
structure TimedLoop.Mirrors (thread : ThreadId) (kernel : Kernel) (state : TimedLoop) : Prop where
  now : kernel.rtTick = state.rtTick
  timer : state.point = .suspended → hasWaitingTime state.timeout = true →
    countdown kernel (.thread thread) = some state.timer
  timedOut : state.point = .resumed .etimeout →
    (kernel.threads thread).stat = .ready ∧ (kernel.threads thread).error = .etimeout

section

variable {kernel next : Kernel} {home : ThreadId → Option ThreadNode} {thread : ThreadId}
  {list : WaitList} {flag : IpcFlag} {outcome : Outcome} {time : BitVec 32} {state : TimedLoop}
  {fired : List TimerId}

theorem rtIpcListSuspend_sameTimers (step : rtIpcListSuspend kernel list thread flag = some next) :
    SameTimers kernel next := by
  have suspended : SameTimers kernel (rtThreadSuspend kernel thread).2 := by
    unfold rtThreadSuspend
    split
    · exact .refl kernel
    · unfold rtScheduleRemoveThread
      dsimp only
      split <;> exact ⟨rfl, rfl, rfl⟩
  simp only [rtIpcListSuspend] at step
  cases flag with
  | fifo =>
      obtain rfl := Option.some_inj.mp step
      exact suspended.trans ⟨rfl, rfl, rfl⟩
  | prio =>
      obtain ⟨position, -, done⟩ := Option.bind_eq_some_iff.mp step
      obtain rfl := Option.some_inj.mp done
      exact suspended.trans ⟨rfl, rfl, rfl⟩

/-- A thread timer that is started fires after the waiting time. -/
theorem startThreadTimer_countdown {result : Err} (settled : TimersSettled kernel)
    (stopped : (kernel.timers (.thread thread)).activated = false)
    (finite : hasWaitingTime time = true)
    (step : startThreadTimer kernel thread time = some (result, next)) :
    time < halfTickMax ∧ TimersSettled next ∧
      countdown next (.thread thread) = some time.toNat := by
  let timed := rtTimerControl kernel (.thread thread) (.setTime time)
  have start : rtTimerStart timed (.thread thread) = some (result, next) := step
  have record : (timed.timers (.thread thread)).activated = false ∧
      (timed.timers (.thread thread)).initTick = time := by
    simp [timed, rtTimerControl, Kernel.setTimer, stopped]
  by_cases small : time < halfTickMax
  · have inside : 0 < time.toNat ∧ time < halfTickMax := ⟨(hasWaitingTime_iff.mp finite).1, small⟩
    have range : (timed.timers (.thread thread)).InRange := by
      rw [Timer.InRange, record.2]
      exact inside
    have settled' : TimersSettled timed := settled.setTime inside
    obtain ⟨_, started, -⟩ := settled'.start record.1 range
    obtain ⟨rfl, rfl⟩ := Prod.mk.inj (Option.some_inj.mp (started.symm.trans start))
    obtain ⟨kept, left, -⟩ := settled'.started range started
    rw [record.2] at left
    exact ⟨small, kept, left⟩
  · rw [rtTimerStart, if_neg (by simp [record.1]), record.2, if_neg small] at start
    cases start

/-- The section that suspends a thread does so as the timed call does. -/
theorem TimedLoop.mirrors_suspend (waits : WaitInv kernel home) (settled : TimersSettled kernel)
    (isReady : (kernel.threads thread).stat = .ready) (now : kernel.rtTick = state.rtTick)
    (step : suspendOn kernel list thread flag state.timeout = some (next, outcome)) :
    ∃ after emitted, state.suspend = some (after, emitted) ∧ after.Mirrors thread next ∧
      TimersSettled next := by
  obtain ⟨waiting, suspend, step⟩ := Option.bind_eq_some_iff.mp step
  have same := rtIpcListSuspend_sameTimers suspend
  have settled' : TimersSettled waiting := by
    obtain ⟨queue, inv, pending⟩ := settled
    refine ⟨queue, inv.congr same, fun timer member => ?_⟩
    rw [remaining, same.tick, same.timers]
    exact pending timer member
  rw [TimedLoop.suspend]
  dsimp only at step ⊢
  cases finite : hasWaitingTime state.timeout with
  | true =>
      rw [if_pos finite] at step
      obtain ⟨⟨result, armed⟩, start, done⟩ := Option.bind_eq_some_iff.mp step
      obtain ⟨rfl, rfl⟩ := Prod.mk.inj (Option.some_inj.mp done)
      have stopped : (waiting.timers (.thread thread)).activated = false := by
        rw [same.timers]
        exact waits.stopped_of_ready isReady
      obtain ⟨small, kept, left⟩ := startThreadTimer_countdown settled' stopped finite start
      have tick : armed.rtTick = waiting.rtTick := by rw [rtTimerStart_frame start]; rfl
      rw [if_pos rfl, if_pos small]
      refine ⟨_, _, rfl, ⟨(tick.trans same.tick).trans now, fun _ _ => left, ?_⟩, kept⟩
      exact fun resumed => absurd resumed (by simp)
  | false =>
      rw [if_neg (by simp [finite])] at step
      obtain ⟨rfl, rfl⟩ := Prod.mk.inj (Option.some_inj.mp step)
      rw [if_neg Bool.false_ne_true]
      refine ⟨_, _, rfl, ⟨same.tick.trans now, fun _ waits => ?_, ?_⟩, settled'⟩
      · exact absurd (finite.symm.trans waits) Bool.false_ne_true
      · exact fun resumed => absurd resumed (by simp)

theorem TimedLoop.suspend_timed {after : TimedLoop} {emitted : List LoopEvent}
    (finite : hasWaitingTime state.timeout = true)
    (step : state.suspend = some (after, emitted)) :
    after.point = .suspended ∧ after.timeout = state.timeout ∧
      after.timer = state.timeout.toNat := by
  rw [TimedLoop.suspend] at step
  dsimp only at step
  rw [if_pos finite] at step
  obtain ⟨-, made⟩ := Option.ite_none_right_eq_some.mp step
  obtain ⟨rfl, -⟩ := Prod.mk.inj (Option.some_inj.mp made)
  exact ⟨rfl, rfl, rfl⟩

theorem TimedLoop.tick_running (running : state.point ≠ .suspended) :
    state.tick = { state with rtTick := state.rtTick + 1#32, since := state.since + 1 } := by
  rw [TimedLoop.tick]
  dsimp only
  rw [if_neg running]

/-- A tick of the timed call is what `rt_tick_increase` does to its thread. -/
theorem TimedLoop.Mirrors.tick (mirrors : state.Mirrors thread kernel)
    (waits : WaitInv kernel home) (settled : TimersSettled kernel)
    (step : rtTickIncrease threadTimeoutFunc kernel = some (next, fired)) :
    state.tick.Mirrors thread next := by
  have counts := rtTickIncrease_countsDown leavesTimers_threadTimeoutFunc settled step
  have now : next.rtTick = state.rtTick + 1#32 := by
    rw [rtTickIncrease_rtTick leavesTimers_threadTimeoutFunc settled step, mirrors.now]
  obtain ⟨home', -, elapses, timesOut⟩ := waits.tickIncrease_timesOut step
  by_cases point : state.point = .suspended
  · rw [TimedLoop.tick]
    dsimp only
    rw [if_pos point]
    by_cases finite : hasWaitingTime state.timeout = true
    · have left := mirrors.timer point finite
      have positive := settled.countdown_pos left
      rw [if_pos finite]
      by_cases last : state.timer ≤ 1
      · rw [show state.timer = 1 by omega] at left
        have once := counts.fires _ left
        have member : .thread thread ∈ fired := List.count_pos_iff.mp (by omega)
        have after := timesOut thread member
        rw [if_pos last]
        exact ⟨now, fun waits => absurd waits (by simp), fun _ => ⟨after.ready, after.error⟩⟩
      · have oneShot : reload kernel (.thread thread) = none := by
          rw [reload, waits.oneShot thread]
          rfl
        have later := counts.counts (.thread thread)
        rw [left, oneShot, countDown, if_neg (by omega)] at later
        rw [if_neg last]
        exact ⟨now, fun _ _ => later, fun resumed => absurd resumed (by simp)⟩
    · rw [if_neg finite]
      exact ⟨now, fun _ waits => absurd waits finite,
        fun resumed => absurd (point.symm.trans resumed) (by simp)⟩
  · rw [TimedLoop.tick_running point]
    refine ⟨now, fun suspended => absurd suspended point, fun resumed => ?_⟩
    obtain ⟨isReady, error⟩ := mirrors.timedOut resumed
    rcases elapses.thread thread with stays | after
    · exact ⟨elapses.ready isReady, stays.error.trans error⟩
    · exact absurd (isReady.symm.trans after.suspended) (by simp)

/-- So many ticks later the call has so many less left, or has timed out. -/
theorem TimedLoop.tick_iterate (point : state.point = .suspended)
    (finite : hasWaitingTime state.timeout = true) (positive : 0 < state.timer) (ticks : Nat) :
    if ticks < state.timer then
      (tick^[ticks] state).point = .suspended ∧ (tick^[ticks] state).timeout = state.timeout ∧
        (tick^[ticks] state).timer = state.timer - ticks
    else (tick^[ticks] state).point = .resumed .etimeout := by
  induction ticks with
  | zero =>
      rw [if_pos positive]
      exact ⟨point, rfl, rfl⟩
  | succ ticks ih =>
      rw [Function.iterate_succ_apply']
      by_cases before : ticks < state.timer
      · rw [if_pos before] at ih
        obtain ⟨waits, same, left⟩ := ih
        rw [TimedLoop.tick]
        dsimp only
        rw [if_pos waits, same, if_pos finite, left]
        by_cases last : state.timer - ticks ≤ 1
        · rw [if_neg (by omega)]
          exact if_pos last
        · rw [if_pos (by omega)]
          exact ⟨if_neg last, rfl, Nat.sub_sub ..⟩
      · rw [if_neg before] at ih
        rw [if_neg (by omega), TimedLoop.tick_running (by simp [ih])]
        exact ih

/-- The ticks of the kernel are the ticks of the timed call. -/
theorem TimedLoop.Mirrors.ticks {allowed : Kernel → TimerOp → Prop} {ticks : Nat}
    {events : List TimerEvent} (mirrors : state.Mirrors thread kernel)
    (waits : WaitInv kernel home) (settled : TimersSettled kernel)
    (run : (timerMachine threadTimeoutFunc).Run allowed kernel
      (List.replicate ticks .tickIncrease) events next) :
    (TimedLoop.tick^[ticks] state).Mirrors thread next ∧ TimersSettled next ∧
      ∃ home', WaitInv next home' := by
  induction ticks generalizing events next with
  | zero =>
      obtain ⟨-, rfl⟩ := run.none
      exact ⟨mirrors, settled, home, waits⟩
  | succ ticks ih =>
      rw [List.replicate_succ'] at run
      obtain ⟨prior, before, emitted, run, -, transition, -⟩ := run.last
      obtain ⟨mirrors', settled', home', waits'⟩ := ih run
      obtain ⟨⟨after, fired⟩, step, made⟩ := Option.bind_eq_some_iff.mp transition
      obtain ⟨rfl, -⟩ := Prod.mk.inj (Option.some_inj.mp made)
      have counts := rtTickIncrease_countsDown leavesTimers_threadTimeoutFunc settled' step
      obtain ⟨home'', waits'', -⟩ := waits'.tickIncrease step
      rw [Function.iterate_succ_apply']
      exact ⟨mirrors'.tick waits' settled' step, counts.settled, home'', waits''⟩

/-- A thread that nobody resumes waits for the ticks of its waiting time, and is then ready with
`-RT_ETIMEOUT`. -/
theorem suspendOn_times_out {suspended : Kernel} {ticks : Nat} {events : List TimerEvent}
    {allowed : Kernel → TimerOp → Prop} (waits : WaitInv kernel home)
    (settled : TimersSettled kernel) (isReady : (kernel.threads thread).stat = .ready)
    (finite : hasWaitingTime time = true)
    (step : suspendOn kernel list thread flag time = some (suspended, outcome))
    (run : (timerMachine threadTimeoutFunc).Run allowed suspended
      (List.replicate ticks .tickIncrease) events next) :
    if ticks < time.toNat then countdown next (.thread thread) = some (time.toNat - ticks)
    else (next.threads thread).stat = .ready ∧ (next.threads thread).error = .etimeout := by
  obtain ⟨after, emitted, loop, mirrors, settled'⟩ :=
    @TimedLoop.mirrors_suspend _ _ _ _ _ _ _ (.enter kernel.rtTick time) waits settled isReady rfl
      step
  obtain ⟨waits', -⟩ := waits.suspendOn isReady step
  obtain ⟨mirrors', settled'', -⟩ := mirrors.ticks waits' settled' run
  obtain ⟨point, timeout, timer⟩ : after.point = .suspended ∧ after.timeout = time ∧
      after.timer = time.toNat := TimedLoop.suspend_timed finite loop
  have positive : 0 < after.timer := by
    rw [timer]
    exact (hasWaitingTime_iff.mp finite).1
  have later := TimedLoop.tick_iterate point (by rwa [timeout]) positive ticks
  rw [timer, timeout] at later
  by_cases before : ticks < time.toNat
  · rw [if_pos before] at later ⊢
    obtain ⟨waiting, same, left⟩ := later
    rw [← left]
    exact mirrors'.timer waiting (by rwa [same])
  · rw [if_neg before] at later ⊢
    exact mirrors'.timedOut later

end

/-! ## What a call has spent -/

namespace TimedLoop

variable {bound : BitVec 32} {state next : TimedLoop} {call : LoopCall} {blocked : Bool}
  {emitted : List LoopEvent} {action : LoopAction}

/-- A call that waits: the ticks it was suspended for and those left are within the bound,
and the timer takes the time left. -/
structure Waits (bound : BitVec 32) (state : TimedLoop) : Prop where
  now : state.rtTick = state.tickDelta + BitVec.ofNat 32 state.since
  finite : hasWaitingTime state.timeout = true
  small : state.timeout.toNat ≤ 0x7ffffffe
  budget : state.spent + (state.timeout.toNat - state.since) ≤ bound.toNat

/-- What holds of a call at each of its points. -/
def Kept (bound : BitVec 32) (state : TimedLoop) : Prop :=
  match state.point with
  | .entered => state.spent = 0 ∧ state.timeout = bound
  | .suspended => state.Waits bound ∧ 0 < state.timer ∧
      state.since + state.timer = state.timeout.toNat
  | .resumed .eok => state.Waits bound
  | .resumed _ | .returned _ => state.spent ≤ bound.toNat

theorem Waits.spent (waits : state.Waits bound) : state.spent ≤ bound.toNat :=
  (Nat.le_add_right ..).trans waits.budget

theorem Kept.spent (kept : state.Kept bound) : state.spent ≤ bound.toNat := by
  unfold Kept at kept
  split at kept
  · omega
  · exact kept.1.spent
  · exact kept.spent
  · exact kept
  · exact kept

theorem kept_of_failed {result : Err} (point : state.point = .resumed result)
    (failed : result ≠ .eok) : state.Kept bound ↔ state.spent ≤ bound.toNat := by
  rw [Kept, point]
  cases result with
  | eok => exact absurd rfl failed
  | error | etimeout | efull => rfl

/-- A thread that is resumed, with whatever error, has not spent more. -/
theorem Waits.resumed (waits : state.Waits bound) (result : Err) :
    Kept bound { state with point := .resumed result } := by
  by_cases fine : result = .eok
  · subst fine
    exact ⟨waits.now, waits.finite, waits.small, waits.budget⟩
  · exact (kept_of_failed rfl fine).mpr waits.spent

theorem Waits.tick (waits : state.Waits bound) (point : state.point = .suspended)
    (timer : 0 < state.timer) (left : state.since + state.timer = state.timeout.toNat) :
    state.tick.Kept bound := by
  have now : state.rtTick + 1#32 = state.tickDelta + BitVec.ofNat 32 (state.since + 1) := by
    rw [waits.now, BitVec.add_assoc, BitVec.ofNat_add]
  have budget := waits.budget
  rw [TimedLoop.tick]
  dsimp only
  rw [if_pos point, if_pos waits.finite]
  by_cases last : state.timer ≤ 1
  · rw [if_pos last]
    have spent : state.spent + 1 ≤ bound.toNat := by omega
    exact spent
  · rw [if_neg last]
    refine ⟨⟨now, waits.finite, waits.small, ?_⟩, ?_, ?_⟩
    · dsimp only
      omega
    · dsimp only
      omega
    · dsimp only
      omega

/-- A tick is taken from the time left. -/
theorem Kept.tick (kept : state.Kept bound) : state.tick.Kept bound := by
  have spent := kept.spent
  cases point : state.point with
  | suspended =>
      rw [Kept, point] at kept
      exact kept.1.tick point kept.2.1 kept.2.2
  | entered =>
      rw [Kept, point] at kept
      rw [tick_running (by simp [point]), Kept, point]
      exact kept
  | returned result =>
      rw [tick_running (by simp [point]), Kept, point]
      exact spent
  | resumed result =>
      rw [tick_running (by simp [point])]
      by_cases fine : result = .eok
      · subst fine
        rw [Kept, point] at kept
        rw [Kept, point]
        refine ⟨?_, kept.finite, kept.small, ?_⟩
        · dsimp only
          rw [kept.now, BitVec.add_assoc, BitVec.ofNat_add]
        · have budget := kept.budget
          dsimp only
          omega
      · exact (kept_of_failed (by exact point) fine).mpr spent

/-- A round that starts within the bound waits for the time left, or returns. -/
theorem round_kept (small : state.timeout.toNat ≤ 0x7ffffffe)
    (budget : state.spent + state.timeout.toNat ≤ bound.toNat)
    (step : state.round call blocked = some (next, emitted)) :
    next.Kept bound ∧ ∀ time, .waits time ∈ emitted → hasWaitingTime time = true := by
  have returns : ∀ result, (state.return_ result).1.Kept bound ∧
      ∀ time, .waits time ∈ (state.return_ result).2 → hasWaitingTime time = true := by
    intro result
    refine ⟨?_, by simp [return_]⟩
    have spent : state.spent ≤ bound.toNat := by omega
    exact spent
  unfold round at step
  split at step
  · split at step
    · obtain ⟨rfl, rfl⟩ := Prod.mk.inj (Option.some_inj.mp step)
      exact returns call.refusal
    · rename_i nonzero
      have positive : 0 < state.timeout.toNat :=
        Nat.pos_of_ne_zero fun zero => nonzero (BitVec.eq_of_toNat_eq zero)
      have finite : hasWaitingTime state.timeout = true :=
        hasWaitingTime_iff.mpr ⟨positive, by omega⟩
      have startable : state.timeout < halfTickMax := by
        rw [BitVec.lt_def]
        exact Nat.lt_of_le_of_lt small (by decide)
      rw [suspend] at step
      dsimp only at step
      rw [if_pos finite, if_pos startable] at step
      obtain ⟨rfl, rfl⟩ := Prod.mk.inj (Option.some_inj.mp step)
      refine ⟨⟨⟨?_, finite, small, budget⟩, positive, Nat.zero_add _⟩, ?_⟩
      · simp
      · intro time member
        obtain rfl := LoopEvent.waits.inj (List.mem_singleton.mp member)
        exact finite
  · obtain ⟨rfl, rfl⟩ := Prod.mk.inj (Option.some_inj.mp step)
    exact returns .eok

/-- A woken call that goes on in time has its time left. -/
theorem Waits.round (waits : state.Waits bound) (point : state.point = .resumed .eok)
    (prompt : state.Prompt (.run blocked))
    (step : state.recalculate.round call blocked = some (next, emitted)) :
    next.Kept bound ∧ ∀ time, .waits time ∈ emitted → hasWaitingTime time = true := by
  have spent := waits.spent
  cases blocked with
  | false =>
      obtain ⟨rfl, rfl⟩ := Prod.mk.inj (Option.some_inj.mp step)
      exact ⟨spent, by simp⟩
  | true =>
      have left : state.recalculate.timeout.toNat = state.timeout.toNat - state.since := by
        rw [recalculate]
        dsimp only
        rw [waits.now, reduceTimeout_toNat waits.finite (prompt point)]
      refine round_kept ?_ ?_ step
      · rw [left]
        exact (Nat.sub_le ..).trans waits.small
      · rw [left]
        exact waits.budget

/-- Each step keeps within the bound, and waits for a finite time. -/
theorem step_kept (kept : state.Kept bound) (small : bound.toNat ≤ 0x7ffffffe)
    (prompt : state.Prompt action)
    (step : (loopMachine call).step state action = some (next, emitted)) :
    next.Kept bound ∧ ∀ time, .waits time ∈ emitted → hasWaitingTime time = true := by
  have spent := kept.spent
  cases action with
  | tick =>
      obtain ⟨rfl, rfl⟩ := Prod.mk.inj (Option.some_inj.mp step)
      exact ⟨kept.tick, by simp⟩
  | resume result =>
      obtain ⟨point, made⟩ := Option.ite_none_right_eq_some.mp step
      obtain ⟨rfl, rfl⟩ := Prod.mk.inj (Option.some_inj.mp made)
      rw [Kept, point] at kept
      exact ⟨kept.1.resumed result, by simp⟩
  | run blocked =>
      cases point : state.point with
      | suspended =>
          rw [loopMachine] at step
          dsimp only at step
          rw [point] at step
          cases step
      | returned result =>
          rw [loopMachine] at step
          dsimp only at step
          rw [point] at step
          cases step
      | entered =>
          rw [loopMachine] at step
          dsimp only at step
          rw [point] at step
          rw [Kept, point] at kept
          obtain ⟨fresh, same⟩ := kept
          refine round_kept ?_ ?_ step
          · rwa [same]
          · rw [fresh, same, Nat.zero_add]
      | resumed result =>
          rw [loopMachine] at step
          dsimp only at step
          rw [point] at step
          cases result with
          | eok =>
              rw [Kept, point] at kept
              exact kept.round point prompt step
          | error | etimeout | efull =>
              obtain ⟨rfl, rfl⟩ := Prod.mk.inj (Option.some_inj.mp step)
              exact ⟨spent, by simp⟩

end TimedLoop

open TimedLoop in
/-- While a woken call that finds the object full or empty again does so in time, a call
with a finite timeout is suspended for at most as many ticks, from any tick on, and never
waits forever. -/
theorem loop_in_time {call : LoopCall} {rtTick timeout : BitVec 32} {actions : List LoopAction}
    {events : List LoopEvent} {state : TimedLoop} (small : timeout.toNat ≤ 0x7ffffffe)
    (run : (loopMachine call).Run Prompt (.enter rtTick timeout) actions events state) :
    LoopInTime timeout events state := by
  have kept : state.Kept timeout ∧ ∀ time, .waits time ∈ events → hasWaitingTime time = true := by
    refine @Machine.Run.history _ _ _ _ _ _ _ _ _
      (fun events state => state.Kept timeout ∧
        ∀ time, .waits time ∈ events → hasWaitingTime time = true) run ⟨⟨rfl, rfl⟩, by simp⟩ ?_
    rintro events state action next emitted ⟨kept, finite⟩ prompt step
    obtain ⟨kept', finite'⟩ := step_kept kept small prompt step
    refine ⟨kept', fun time member => ?_⟩
    rcases List.mem_append.mp member with member | member
    · exact finite time member
    · exact finite' time member
  exact ⟨kept.1.spent, kept.2⟩

instance (state : TimedLoop) : DecidablePred state.Prompt
  | .run true =>
      inferInstanceAs (Decidable (state.point = .resumed .eok →
        state.since ≤ state.timeout.toNat + 2 ^ 31))
  | .run false | .tick | .resume _ => isTrue trivial

/-- A call with a timeout of four, over the wraparound of the tick: it is suspended for a
tick, runs again a tick later, and waits for the two ticks left. -/
theorem loop_in_time_expired : ∃ events state,
    (loopMachine .mbRecv).Run TimedLoop.Prompt (.enter 0xfffffffe 4)
      [.run true, .tick, .resume .eok, .tick, .run true, .tick, .tick, .run true] events state ∧
      LoopInTime 4 events state ∧ state.spent = 3 ∧
      events = [.waits 4, .waits 2, .returns .etimeout] := by
  obtain ⟨events, state, success, shown⟩ : ∃ events state,
      ((loopMachine .mbRecv).restrict fun state action => state.Prompt action).execute
        (.enter 0xfffffffe 4)
        [.run true, .tick, .resume .eok, .tick, .run true, .tick, .tick, .run true] =
          some (state, events) ∧
        state.spent = 3 ∧ events = [.waits 4, .waits 2, .returns .etimeout] :=
    ⟨_, _, rfl, by decide⟩
  have run := Machine.run_of_execute_restrict success
  exact ⟨events, state, run, loop_in_time (by decide) run, shown⟩

/-! ## A thread that runs too late -/

/-- The call after so many ticks, in which it is not suspended. -/
theorem resumed_ticks {allowed : TimedLoop → LoopAction → Prop} {call : LoopCall}
    {state : TimedLoop} (point : state.point ≠ .suspended)
    (admitted : ∀ state, allowed state .tick) (ticks : Nat) :
    (loopMachine call).Run allowed state (List.replicate ticks .tick) []
      { state with
        rtTick := state.rtTick + BitVec.ofNat 32 ticks
        since := state.since + ticks } := by
  induction ticks with
  | zero => simpa using Machine.Run.nil
  | succ ticks ih =>
      rw [List.replicate_succ']
      refine .snoc ih (admitted _) ?_
      rw [loopMachine]
      dsimp only
      rw [TimedLoop.tick]
      dsimp only
      rw [if_neg point, BitVec.ofNat_add, ← BitVec.add_assoc, Nat.add_assoc]

/-- The receiver has been resumed, and does not run for this many ticks. -/
def lateActions (ticks : Nat) : List LoopAction :=
  [.run true, .resume .eok] ++ List.replicate ticks .tick ++ .run true :: List.replicate 11 .tick

/-- A receiver with a timeout of ten that runs again 2³¹ + 12 ticks after it was suspended
and finds no mail has nearly 2³¹ ticks left. -/
theorem loop_waits_longer : ∃ state,
    (loopMachine .mbRecv).Run (fun _ _ => True) (.enter 0 10) (lateActions (2 ^ 31 + 12))
      [.waits 10, .waits 0x7ffffffe] state ∧
      state.spent = 11 ∧ ¬ LoopInTime 10 [.waits 10, .waits 0x7ffffffe] state := by
  have resumed : (loopMachine .mbRecv).Run (fun _ _ => True) (.enter 0 10)
      [.run true, .resume .eok] [.waits 10] ⟨0, 10, 0, 10, .resumed .eok, 0, 0⟩ :=
    Machine.run_of_execute (fun _ _ _ => trivial) rfl
  have late := resumed.append
    (@resumed_ticks _ .mbRecv _ (by simp) (fun _ => trivial) (2 ^ 31 + 12))
  have again : (loopMachine .mbRecv).execute
      ⟨0 + BitVec.ofNat 32 (2 ^ 31 + 12), 10, 0, 10, .resumed .eok, 0 + (2 ^ 31 + 12), 0⟩
      (.run true :: List.replicate 11 .tick) =
        some (⟨0x80000017, 0x7ffffffe, 0x8000000c, 0x7ffffff3, .suspended, 11, 11⟩,
          [.waits 0x7ffffffe]) := by decide
  have run := late.append (Machine.run_of_execute (fun _ _ _ => trivial) again)
  exact ⟨_, run, rfl, fun inTime => absurd inTime.spent (by decide)⟩

end RtThread
