import RtThread.Kernel.TimerDrain

/-!
# The check of the soft timers

With `RT_USING_TIMER_SOFT` the soft timers have a list of their own, which the timer thread
checks; the list of the kernel stands for either. `rt_soft_timer_check` saves the node behind the
timer it fires before it calls it, where `rt_timer_check` looks at the front of the list
afterwards.
-/

namespace RtThread

open RtThread.Std

/-- The loop of `rt_soft_timer_check` from `node` on, which also reports the timers it fires. -/
def Kernel.rtSoftTimerCheckLoop (timeoutFunc : TimerId → Kernel → Option Kernel)
    (currentTick : BitVec 32) (node : TimerNode) (kernel : Kernel) :
    Option (Kernel × List TimerId) :=
  match node with
  | .timerList => some (kernel, [])
  | .timer timer =>
    if currentTick - (kernel.timers timer).timeoutTick < halfTickMax then do
      let node := kernel.timerLinks.next (.timer timer)
      let kernel ← timeoutFunc timer (kernel.unlinkTimer timer)
      let currentTick := kernel.rtTick
      let kernel ← rtTimerFinish kernel timer
      let (kernel, fired) ← kernel |>.rtSoftTimerCheckLoop timeoutFunc currentTick node
      pure (kernel, timer :: fired)
    else some (kernel, [])
partial_fixpoint

export Kernel (rtSoftTimerCheckLoop)

def rtSoftTimerCheck (timeoutFunc : TimerId → Kernel → Option Kernel) (kernel : Kernel) :
    Option (Kernel × List TimerId) :=
  rtSoftTimerCheckLoop timeoutFunc kernel.rtTick (kernel.timerLinks.next .timerList) kernel

/-- A node at which neither loop ends. -/
def DueNode (kernel : Kernel) : TimerNode → Prop
  | .timerList => False
  | .timer timer => Due kernel timer

/-- `timer` is called, and started again if it is periodic. -/
def Calls (timeoutFunc : TimerId → Kernel → Option Kernel) (kernel : Kernel) (timer : TimerId)
    (next : Kernel) : Prop :=
  ∃ called, timeoutFunc timer (kernel.unlinkTimer timer) = some called ∧
    rtTimerFinish called timer = some next

/-- In each round the node behind the timer that fires is in front of the list when the timer has
been called, or neither that node nor the one in front is due; and the rounds end. -/
inductive InStep (timeoutFunc : TimerId → Kernel → Option Kernel) : Kernel → Prop where
  | ends {kernel : Kernel} (late : ¬ DueNode kernel (kernel.timerLinks.next .timerList)) :
      InStep timeoutFunc kernel
  | round {kernel next : Kernel} {timer : TimerId}
      (front : kernel.timerLinks.next .timerList = .timer timer) (due : Due kernel timer)
      (calls : Calls timeoutFunc kernel timer next)
      (saved : next.timerLinks.next .timerList = kernel.timerLinks.next (.timer timer) ∨
        ¬ DueNode next (next.timerLinks.next .timerList) ∧
          ¬ DueNode next (kernel.timerLinks.next (.timer timer)))
      (rest : InStep timeoutFunc next) : InStep timeoutFunc kernel

section

variable {timeoutFunc : TimerId → Kernel → Option Kernel} {kernel called next final : Kernel}
  {timer : TimerId} {node : TimerNode} {fired : List TimerId}

theorem rtTimerFinish_tick (finish : rtTimerFinish called timer = some next) :
    next.rtTick = called.rtTick := by
  unfold rtTimerFinish at finish
  split at finish
  · simp only [Option.bind_eq_bind, Option.bind_eq_some_iff, Option.pure_def, Option.some.injEq]
      at finish
    obtain ⟨⟨result, started⟩, start, rfl⟩ := finish
    rw [rtTimerStart_frame start]
    rfl
  · obtain rfl := Option.some_inj.mp finish
    rfl

/-! ## One round of either loop -/

theorem softLoop_ends (late : ¬ DueNode kernel node) :
    rtSoftTimerCheckLoop timeoutFunc kernel.rtTick node kernel = some (kernel, []) := by
  cases node with
  | timerList => rw [rtSoftTimerCheckLoop]
  | timer timer =>
      rw [rtSoftTimerCheckLoop]
      exact if_neg late

theorem hardLoop_ends (late : ¬ DueNode kernel (kernel.timerLinks.next .timerList)) :
    rtTimerCheckLoop timeoutFunc kernel.rtTick kernel = some (kernel, []) := by
  cases front : kernel.timerLinks.next .timerList with
  | timerList =>
      rw [rtTimerCheckLoop]
      simp [front]
  | timer timer =>
      rw [front] at late
      exact checkLoop_late front late

theorem softLoop_calls (due : Due kernel timer) (calls : Calls timeoutFunc kernel timer next) :
    rtSoftTimerCheckLoop timeoutFunc kernel.rtTick (.timer timer) kernel =
      (rtSoftTimerCheckLoop timeoutFunc next.rtTick (kernel.timerLinks.next (.timer timer))
        next).map fun (final, fired) => (final, timer :: fired) := by
  obtain ⟨called, call, finish⟩ := calls
  rw [rtSoftTimerCheckLoop]
  rw [Due] at due
  simp [due, call, finish, rtTimerFinish_tick finish, Option.map_eq_bind]

theorem hardLoop_calls (front : kernel.timerLinks.next .timerList = .timer timer)
    (due : Due kernel timer) (calls : Calls timeoutFunc kernel timer next) :
    rtTimerCheckLoop timeoutFunc kernel.rtTick kernel =
      (rtTimerCheckLoop timeoutFunc next.rtTick next).map fun (final, fired) =>
        (final, timer :: fired) := by
  obtain ⟨called, call, finish⟩ := calls
  rw [checkLoop_due front due, call, Option.bind_some, finish, Option.bind_some,
    rtTimerFinish_tick finish]

/-- What a loop that returns has done first. -/
theorem hardLoop_cases
    (loop : rtTimerCheckLoop timeoutFunc kernel.rtTick kernel = some (final, fired)) :
    (¬ DueNode kernel (kernel.timerLinks.next .timerList) ∧ final = kernel ∧ fired = []) ∨
      ∃ timer next fired', kernel.timerLinks.next .timerList = .timer timer ∧ Due kernel timer ∧
        Calls timeoutFunc kernel timer next ∧ fired = timer :: fired' ∧
        rtTimerCheckLoop timeoutFunc next.rtTick next = some (final, fired') := by
  by_cases due : DueNode kernel (kernel.timerLinks.next .timerList)
  · right
    cases front : kernel.timerLinks.next .timerList with
    | timerList =>
        rw [front] at due
        exact due.elim
    | timer timer =>
        rw [front] at due
        have whole := loop
        rw [checkLoop_due front due] at loop
        obtain ⟨called, call, loop⟩ := Option.bind_eq_some_iff.mp loop
        obtain ⟨next, finish, -⟩ := Option.bind_eq_some_iff.mp loop
        have calls : Calls timeoutFunc kernel timer next := ⟨called, call, finish⟩
        rw [hardLoop_calls front due calls] at whole
        obtain ⟨⟨_, fired'⟩, rest, pair⟩ := Option.map_eq_some_iff.mp whole
        obtain ⟨rfl, rfl⟩ := Prod.mk.inj pair
        exact ⟨timer, next, fired', rfl, due, calls, rfl, rest⟩
  · rw [hardLoop_ends due, Option.some_inj, Prod.mk.injEq] at loop
    exact Or.inl ⟨due, loop.1.symm, loop.2.symm⟩

theorem softLoop_cases
    (loop : rtSoftTimerCheckLoop timeoutFunc kernel.rtTick node kernel = some (final, fired)) :
    (¬ DueNode kernel node ∧ final = kernel ∧ fired = []) ∨
      ∃ timer next fired', node = .timer timer ∧ Due kernel timer ∧
        Calls timeoutFunc kernel timer next ∧ fired = timer :: fired' ∧
        rtSoftTimerCheckLoop timeoutFunc next.rtTick (kernel.timerLinks.next (.timer timer)) next =
          some (final, fired') := by
  by_cases due : DueNode kernel node
  · right
    cases node with
    | timerList => exact due.elim
    | timer timer =>
        have whole := loop
        rw [DueNode, Due] at due
        rw [rtSoftTimerCheckLoop, if_pos due] at loop
        obtain ⟨called, call, loop⟩ := Option.bind_eq_some_iff.mp loop
        obtain ⟨next, finish, -⟩ := Option.bind_eq_some_iff.mp loop
        have calls : Calls timeoutFunc kernel timer next := ⟨called, call, finish⟩
        rw [softLoop_calls due calls] at whole
        obtain ⟨⟨_, fired'⟩, rest, pair⟩ := Option.map_eq_some_iff.mp whole
        obtain ⟨rfl, rfl⟩ := Prod.mk.inj pair
        exact ⟨timer, next, fired', rfl, due, calls, rfl, rest⟩
  · rw [softLoop_ends due, Option.some_inj, Prod.mk.injEq] at loop
    exact Or.inl ⟨due, loop.1.symm, loop.2.symm⟩

/-! ## The whole check -/

theorem InStep.agree (inStep : InStep timeoutFunc kernel) :
    ∃ result, rtSoftTimerCheck timeoutFunc kernel = some result ∧
      rtTimerCheck timeoutFunc kernel = some result := by
  induction inStep with
  | ends late => exact ⟨_, softLoop_ends late, hardLoop_ends late⟩
  | @round kernel next timer front due calls saved rest ih =>
      obtain ⟨⟨final, fired⟩, soft, hard⟩ := ih
      have later : rtSoftTimerCheckLoop timeoutFunc next.rtTick
          (kernel.timerLinks.next (.timer timer)) next = some (final, fired) := by
        rcases saved with same | ⟨late, late'⟩
        · rw [← same]
          exact soft
        · rw [softLoop_ends late', ← softLoop_ends late]
          exact soft
      refine ⟨(final, timer :: fired), ?_, ?_⟩
      · rw [rtSoftTimerCheck, front, softLoop_calls due calls, later]
        rfl
      · rw [rtTimerCheck, hardLoop_calls front due calls, show
          rtTimerCheckLoop timeoutFunc next.rtTick next = some (final, fired) from hard]
        rfl

/-- Two loops that end alike from the node behind the fired timer and from the front. -/
theorem saved_of_agree
    (soft : rtSoftTimerCheckLoop timeoutFunc kernel.rtTick node kernel = some (final, fired))
    (hard : rtTimerCheckLoop timeoutFunc kernel.rtTick kernel = some (final, fired)) :
    kernel.timerLinks.next .timerList = node ∨
      ¬ DueNode kernel (kernel.timerLinks.next .timerList) ∧ ¬ DueNode kernel node := by
  rcases softLoop_cases soft with ⟨late, -, none_⟩ | ⟨saved, next, fired', rfl, -, -, rfl, -⟩
  · rcases hardLoop_cases hard with ⟨late', -⟩ | ⟨front, next, fired', -, -, -, some_, -⟩
    · exact Or.inr ⟨late', late⟩
    · cases none_.symm.trans some_
  · rcases hardLoop_cases hard with ⟨-, -, none_⟩ | ⟨front, next, fired', first, -, -, same, -⟩
    · cases none_
    · rw [(List.cons.inj same).1]
      exact Or.inl first

theorem inStep_of_agree
    (soft : rtSoftTimerCheck timeoutFunc kernel = some (final, fired))
    (hard : rtTimerCheck timeoutFunc kernel = some (final, fired)) :
    InStep timeoutFunc kernel := by
  induction fired generalizing kernel with
  | nil =>
      rcases hardLoop_cases hard with ⟨late, -⟩ | ⟨front, next, fired', -, -, -, some_, -⟩
      · exact .ends late
      · cases some_
  | cons timer fired ih =>
      rcases hardLoop_cases hard with
        ⟨-, -, none_⟩ | ⟨first, next, fired', front, due, calls, same, hard'⟩
      · cases none_
      obtain ⟨rfl, rfl⟩ := List.cons.inj same
      rw [rtSoftTimerCheck, front, softLoop_calls due calls] at soft
      obtain ⟨⟨_, _⟩, soft', pair⟩ := Option.map_eq_some_iff.mp soft
      obtain ⟨rfl, same⟩ := Prod.mk.inj pair
      obtain ⟨-, rfl⟩ := List.cons.inj same
      have saved := saved_of_agree soft' hard'
      refine .round front due calls saved (ih ?_ hard')
      -- The soft check goes on from the saved node, not from the front.
      rcases saved with same | ⟨late, late'⟩
      · rw [rtSoftTimerCheck, same]
        exact soft'
      · rw [rtSoftTimerCheck, softLoop_ends late, ← softLoop_ends late']
        exact soft'

/-- The two checks fire the same timers in the same order and leave the same kernel if and only if
they are in step. -/
theorem soft_check_agrees (timeoutFunc : TimerId → Kernel → Option Kernel) (kernel : Kernel) :
    (∃ result, rtSoftTimerCheck timeoutFunc kernel = some result ∧
        rtTimerCheck timeoutFunc kernel = some result) ↔ InStep timeoutFunc kernel :=
  ⟨fun ⟨_, soft, hard⟩ => inStep_of_agree soft hard, InStep.agree⟩

/-! ## Lists the checks agree on -/

theorem front_of_listed {queue : List TimerId} (listed : TimerListed kernel queue) :
    kernel.timerLinks.next .timerList = (queue.map .timer).headD .timerList :=
  listed.rings.next_head TimerNode.isHead_timerList

theorem behind_of_listed {queue : List TimerId} (listed : TimerListed kernel (timer :: queue)) :
    kernel.timerLinks.next (.timer timer) = (queue.map .timer).headD .timerList := by
  obtain ⟨-, -, segment⟩ := listed.rings.ring .timerList trivial
  cases queue with
  | nil => exact segment.1
  | cons other queue => exact segment.1

theorem late_of_headD {queue : List TimerId} (late : ∀ timer ∈ queue, ¬ Due kernel timer) :
    ¬ DueNode kernel ((queue.map .timer).headD .timerList) := by
  cases queue with
  | nil => exact id
  | cons timer queue => exact late timer List.mem_cons_self

/-- With callbacks that leave the timers alone, the checks are in step on each list that the loop
of `rt_timer_check` drains. -/
theorem Drains.inStep {due rest : List TimerId} (quiet : LeavesTimers timeoutFunc)
    (returns : ∀ timer kernel, (timeoutFunc timer kernel).isSome)
    (started : TimersStarted kernel (due ++ rest)) (drains : Drains kernel due rest) :
    InStep timeoutFunc kernel := by
  induction due generalizing kernel rest with
  | nil =>
      refine .ends ?_
      rw [front_of_listed started.toTimerListed]
      exact late_of_headD drains.pending
  | cons timer due ih =>
      obtain ⟨called, call⟩ :=
        Option.isSome_iff_exists.mp (returns timer (kernel.unlinkTimer timer))
      obtain ⟨-, next, finish, started', step⟩ := started.round quiet call
      obtain ⟨rest', whole, later⟩ := drains.tail step started
      have behind := behind_of_listed started.toTimerListed
      have absent := (List.nodup_cons.mp started.nodup).1
      rw [List.append_eq, whole] at started'
      refine .round started.front (drains.expired timer List.mem_cons_self) ⟨called, call, finish⟩
        ?_ (ih started' later)
      rw [front_of_listed started'.toTimerListed, behind]
      cases due with
      | cons other due => exact Or.inl rfl
      | nil =>
          refine Or.inr ⟨late_of_headD later.pending, late_of_headD fun other member => ?_⟩
          have apart : other ≠ timer := fun equal => absent (equal ▸ member)
          rw [step.due_iff apart]
          exact drains.pending other member

end

/-- The callback of the one-shot timer stops the periodic one. -/
def stopOther : Callbacks := fun timer _ =>
  if timer = .object 1 then [.stop (.object 0)] else []

/-- The hard check leaves out a timer that the callback before it has stopped; the soft check is at
that timer, which is linked to itself. -/
theorem soft_check_disagrees :
    ∃ first second, rtTimerStart (twoTimers 5) (.object 1) = some (.eok, first) ∧
      rtTimerStart first (.object 0) = some (.eok, second) ∧
      (∃ final, rtTimerCheck stopOther.timeoutFunc { second with rtTick := 5 } =
        some (final, [.object 1])) ∧
      ¬ ∃ result, rtSoftTimerCheck stopOther.timeoutFunc { second with rtTick := 5 } =
          some result ∧
        rtTimerCheck stopOther.timeoutFunc { second with rtTick := 5 } = some result := by
  obtain ⟨first, second, start, start', listed, periodic, oneShot⟩ := twoTimers_started
  let kernel : Kernel := { second with rtTick := 5 }
  have listed' : TimerListed kernel [.object 1, .object 0] := listed.congr rfl fun _ => rfl
  have fires := listed'.fires
  let stopped := ((kernel.unlinkTimer (.object 1)).unlinkTimer (.object 0)).deactivate (.object 0)
  have called : stopOther.timeoutFunc (.object 1) (kernel.unlinkTimer (.object 1)) =
      some stopped := by
    have active : (second.timers (.object 0)).activated = true := by rw [periodic]
    simp [stopOther, Callbacks.timeoutFunc, TimerCall.apply, RtThread.rtTimerStop, kernel,
      Kernel.unlinkTimer, active, stopped]
  have finish : rtTimerFinish stopped (.object 1) = some (stopped.deactivate (.object 1)) := by
    have record : (stopped.timers (.object 1)).periodic = false := by
      simp [stopped, Kernel.deactivate, Kernel.setTimer, Kernel.unlinkTimer, kernel, oneShot]
    simp [rtTimerFinish, record]
  have calls : Calls stopOther.timeoutFunc kernel (.object 1) (stopped.deactivate (.object 1)) :=
    ⟨stopped, called, finish⟩
  have due : Due kernel (.object 1) := by
    simp only [Due, kernel, oneShot]
    decide
  have empty : (stopped.deactivate (.object 1)).timerLinks.next .timerList = .timerList := by
    have rings := timerLists_unlink fires.rings (.object 0)
    rw [List.erase_cons_head] at rings
    exact rings.next_head TimerNode.isHead_timerList
  have late : ¬ DueNode (stopped.deactivate (.object 1))
      ((stopped.deactivate (.object 1)).timerLinks.next .timerList) := by
    rw [empty]
    exact id
  have behind := behind_of_listed listed'
  have savedDue : DueNode (stopped.deactivate (.object 1)) (.timer (.object 0)) := by
    have record : ((stopped.deactivate (.object 1)).timers (.object 0)).timeoutTick = 5 := by
      simp [stopped, Kernel.deactivate, Kernel.setTimer, Kernel.unlinkTimer, kernel, periodic]
    have tick : (stopped.deactivate (.object 1)).rtTick = 5 := rfl
    rw [DueNode, Due, record, tick]
    decide
  have hard : rtTimerCheck stopOther.timeoutFunc kernel =
      some (stopped.deactivate (.object 1), [.object 1]) := by
    rw [rtTimerCheck, hardLoop_calls listed'.front due calls, hardLoop_ends late]
    rfl
  refine ⟨first, second, start, start', ⟨_, hard⟩, ?_⟩
  rintro ⟨⟨final, fired⟩, soft, same⟩
  obtain ⟨rfl, rfl⟩ := Prod.mk.inj (Option.some_inj.mp (hard.symm.trans same))
  have soft' : rtSoftTimerCheckLoop stopOther.timeoutFunc kernel.rtTick
      (kernel.timerLinks.next .timerList) kernel =
        some (stopped.deactivate (.object 1), [.object 1]) := soft
  rw [listed'.front, softLoop_calls due calls, behind] at soft'
  obtain ⟨⟨_, rest⟩, loop, pair⟩ := Option.map_eq_some_iff.mp soft'
  obtain rfl : rest = [] := (List.cons.inj (Prod.mk.inj pair).2).2
  rcases softLoop_cases loop with ⟨pending, -⟩ | ⟨timer, next, fired, -, -, -, some_, -⟩
  · exact pending savedDue
  · cases some_

end RtThread
