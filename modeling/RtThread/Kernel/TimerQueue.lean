import RtThread.Kernel.Clock
import RtThread.Std.Deadline

/-!
# The timer queue

`rt_timer_list` carries the timers that are flagged `ACTIVATED` and no others.
The queue lemmas say how each timer call changes that list; `TimerInv` adds
that the list is ordered by the time left, which the modular comparisons of
the insertion scan and of the expiry test decide correctly as long as no
deadline is half the tick range away.
-/

namespace RtThread

open RtThread.Std

/-- The family of lists in which `rt_timer_list` carries `queue`. -/
def timerLists (queue : List TimerId) : TimerNode → List TimerNode
  | .timerList => queue.map .timer
  | .timer _ => []

/-- `rt_timer_list` carries exactly the activated timers. -/
structure TimerListed (kernel : Kernel) (queue : List TimerId) : Prop where
  rings : Rings TimerNode.IsHead kernel.timerLinks (timerLists queue)
  active : ∀ timer, timer ∈ queue ↔ (kernel.timers timer).activated = true

@[simp] theorem mem_timerLists {queue : List TimerId} {timer : TimerId} {head : TimerNode} :
    .timer timer ∈ timerLists queue head ↔ head = .timerList ∧ timer ∈ queue := by
  cases head <;> simp [timerLists]

theorem Rings.congr_timerLists {links : Links TimerNode} {lists : TimerNode → List TimerNode}
    {queue : List TimerId} (rings : Rings TimerNode.IsHead links lists)
    (same : lists .timerList = queue.map .timer) :
    Rings TimerNode.IsHead links (timerLists queue) := by
  have agree : ∀ head, TimerNode.IsHead head → lists head = timerLists queue head := by
    intro head isHead
    cases head with
    | timerList => exact same
    | timer timer => exact isHead.elim
  refine ⟨?_, ?_, ?_, ?_, ?_⟩
  · intro head isHead
    exact agree head isHead ▸ rings.ring head isHead
  · intro head isHead
    exact agree head isHead ▸ rings.distinct head isHead
  · intro head node isHead member
    exact rings.plain head node isHead (agree head isHead ▸ member)
  · intro head head' node isHead isHead' member member'
    exact rings.single head head' node isHead isHead' (agree head isHead ▸ member)
      (agree head' isHead' ▸ member')
  · intro node plain free
    refine rings.loose node plain fun head isHead => ?_
    rw [agree head isHead]
    exact free head isHead

/-- Link `timer` where the insertion scan ends. -/
def queued (stop : TimerId → Bool) (timer : TimerId) (queue : List TimerId) : List TimerId :=
  queue.takeWhile (fun other => !stop other) ++ timer :: queue.dropWhile (fun other => !stop other)

@[simp] theorem mem_queued {stop : TimerId → Bool} {timer other : TimerId}
    {queue : List TimerId} : other ∈ queued stop timer queue ↔ other = timer ∨ other ∈ queue := by
  have whole : queue.takeWhile (fun other => !stop other) ++
      queue.dropWhile (fun other => !stop other) = queue :=
    List.takeWhile_append_dropWhile
  rw [queued, List.mem_append, List.mem_cons]
  conv_rhs => rw [← whole, List.mem_append]
  tauto

theorem timerLists_unlink {links : Links TimerNode} {queue : List TimerId}
    (rings : Rings TimerNode.IsHead links (timerLists queue)) (timer : TimerId) :
    Rings TimerNode.IsHead (links.unlink (.timer timer)) (timerLists (queue.erase timer)) := by
  refine Rings.congr_timerLists (rings.unlink (TimerNode.not_isHead_timer timer)) ?_
  exact (List.map_erase (fun left right => TimerNode.timer.inj) queue).symm

namespace TimerListed

variable {kernel kernel' : Kernel} {queue : List TimerId} {timer : TimerId}

theorem congr (listed : TimerListed kernel queue) (links : kernel'.timerLinks = kernel.timerLinks)
    (active : ∀ timer, (kernel'.timers timer).activated = (kernel.timers timer).activated) :
    TimerListed kernel' queue := by
  constructor
  · rw [links]
    exact listed.rings
  · intro timer
    rw [active]
    exact listed.active timer

theorem nodup (listed : TimerListed kernel queue) : queue.Nodup :=
  (listed.rings.distinct .timerList trivial).of_map _

/-- Unlink a timer and clear its flag, in either order. -/
theorem stop (listed : TimerListed kernel queue) (timer : TimerId) :
    TimerListed ((kernel.unlinkTimer timer).deactivate timer) (queue.erase timer) := by
  constructor
  · exact timerLists_unlink listed.rings timer
  · intro other
    rw [listed.nodup.mem_erase_iff, listed.active]
    by_cases same : other = timer
    · subst same
      simp [Kernel.deactivate, Kernel.setTimer]
    · simp [Kernel.deactivate, Kernel.setTimer, Kernel.unlinkTimer, same]

end TimerListed

/-- Whether the insertion scan for the new deadline of `timer` stops at `other`. -/
def stopsAt (kernel : Kernel) (timer other : TimerId) : Bool :=
  stopsInsertion (setDeadline kernel timer).timers
    ((setDeadline kernel timer).timers timer).timeoutTick (.timer other)

/-- `rt_timer_start` links a timer that is not in the list where its scan ends. -/
theorem timerLists_start {kernel : Kernel} {queue : List TimerId} {timer : TimerId}
    (rings : Rings TimerNode.IsHead kernel.timerLinks (timerLists queue)) (absent : timer ∉ queue)
    (idle : (kernel.timers timer).activated = false)
    (small : (kernel.timers timer).initTick < halfTickMax) :
    ∃ next, rtTimerStart kernel timer = some (.eok, next) ∧
      Rings TimerNode.IsHead next.timerLinks
        (timerLists (queued (stopsAt kernel timer) timer queue)) ∧
      next.timers = Function.update kernel.timers timer
        { kernel.timers timer with
          activated := true
          timeoutTick := kernel.rtTick + (kernel.timers timer).initTick } := by
  let stop := stopsInsertion (setDeadline kernel timer).timers
    ((setDeadline kernel timer).timers timer).timeoutTick
  let position := ((timerLists queue .timerList).find? stop).getD .timerList
  have scanned : (setDeadline kernel timer).timerLinks.scan .timerList stop
      ((setDeadline kernel timer).timerLinks.next .timerList) = some position :=
    rings.scan_eq TimerNode.isHead_timerList stop
  have free : ∀ head, TimerNode.IsHead head → .timer timer ∉ timerLists queue head := by
    intro head _ member
    exact absent (mem_timerLists.mp member).2
  have linked := rings.insertBefore_scan TimerNode.isHead_timerList
    (TimerNode.not_isHead_timer timer) free stop
  refine ⟨linkTimer (setDeadline kernel timer) position timer, ?_, ?_, ?_⟩
  · rw [rtTimerStart, if_neg (by simp [idle]), if_pos small]
    simp only [Option.bind_eq_bind, Option.pure_def]
    exact Option.bind_eq_some_iff.mpr ⟨position, scanned, rfl⟩
  · refine Rings.congr_timerLists linked ?_
    rw [Function.update_self, queued, List.map_append, List.map_cons, timerLists,
      List.takeWhile_map, List.dropWhile_map]
    rfl
  · simp [linkTimer, setDeadline, Kernel.setTimer]

/-- `rt_timer_start` succeeds on a stopped timer and links it into the queue. -/
theorem TimerListed.start {kernel : Kernel} {queue : List TimerId} {timer : TimerId}
    (listed : TimerListed kernel queue) (idle : (kernel.timers timer).activated = false)
    (small : (kernel.timers timer).initTick < halfTickMax) :
    ∃ next, rtTimerStart kernel timer = some (.eok, next) ∧
      TimerListed next (queued (stopsAt kernel timer) timer queue) ∧
      next.timers = Function.update kernel.timers timer
        { kernel.timers timer with
          activated := true
          timeoutTick := kernel.rtTick + (kernel.timers timer).initTick } := by
  have absent : timer ∉ queue := by
    rw [listed.active, idle]
    simp
  obtain ⟨next, step, rings, timers⟩ := timerLists_start listed.rings absent idle small
  refine ⟨next, step, ⟨rings, ?_⟩, timers⟩
  intro other
  rw [mem_queued, listed.active, timers]
  by_cases same : other = timer <;> simp [same]

/-! ## The order of the queue -/

/-- How many ticks are left until the deadline of `timer`. -/
def remaining (kernel : Kernel) (timer : TimerId) : Nat :=
  ahead kernel.rtTick (kernel.timers timer).timeoutTick

/-- `init_tick` is in `1 .. RT_TICK_MAX/2 - 1`. -/
def Timer.InRange (timer : Timer) : Prop :=
  0 < timer.initTick.toNat ∧ timer.initTick < halfTickMax

/-- The queue is ordered by the time left, all of it short of the horizon. -/
structure TimerInv (kernel : Kernel) (queue : List TimerId) : Prop
    extends TimerListed kernel queue where
  range : ∀ timer ∈ queue, (kernel.timers timer).InRange
  near : ∀ timer ∈ queue, remaining kernel timer < halfTickMax.toNat
  sorted : queue.Pairwise fun left right => remaining kernel left ≤ remaining kernel right

/-- The kernels agree on everything the timer service is made of. -/
structure SameTimers (kernel kernel' : Kernel) : Prop where
  timers : kernel'.timers = kernel.timers
  links : kernel'.timerLinks = kernel.timerLinks
  tick : kernel'.rtTick = kernel.rtTick

theorem halfTickMax_half : 2 * halfTickMax.toNat ≤ 2 ^ 32 := by decide

theorem queued_sorted {key : TimerId → Nat} {stop : TimerId → Bool} {timer : TimerId}
    {queue : List TimerId} (sorted : queue.Pairwise fun left right => key left ≤ key right)
    (stops : ∀ other ∈ queue, stop other = true ↔ key timer ≤ key other) :
    (queued stop timer queue).Pairwise fun left right => key left ≤ key right := by
  induction queue with
  | nil => simp [queued]
  | cons head tail ih =>
      obtain ⟨first, rest⟩ := List.pairwise_cons.mp sorted
      cases decision : stop head with
      | true =>
          have small := (stops head (by simp)).mp decision
          have shape : queued stop timer (head :: tail) = timer :: head :: tail := by
            simp [queued, decision]
          rw [shape, List.pairwise_cons]
          refine ⟨?_, sorted⟩
          intro other member
          rcases List.mem_cons.mp member with rfl | member
          · exact small
          · exact Nat.le_trans small (first other member)
      | false =>
          have shape : queued stop timer (head :: tail) = head :: queued stop timer tail := by
            simp [queued, decision]
          have large : ¬ key timer ≤ key head := by
            rw [← stops head (by simp), decision]
            simp
          rw [shape, List.pairwise_cons]
          refine ⟨?_, ih rest fun other member => stops other (by simp [member])⟩
          intro other member
          rcases mem_queued.mp member with rfl | member
          · omega
          · exact first other member

/-- The scan passes the timers in front that do not stop it. -/
theorem queued_append {stop : TimerId → Bool} {timer : TimerId} {front rest : List TimerId}
    (passes : ∀ other ∈ front, stop other = false) :
    queued stop timer (front ++ rest) = front ++ queued stop timer rest := by
  have pass : ∀ other ∈ front, (!stop other) = true := by
    intro other member
    simp [passes other member]
  rw [queued, List.takeWhile_append_of_pos pass, List.dropWhile_append_of_pos pass, queued,
    List.append_assoc]

/-- A queue ordered by the time left starts with the timers which have none. -/
theorem exists_due_append {key : TimerId → Nat} {queue : List TimerId}
    (sorted : queue.Pairwise fun left right => key left ≤ key right) :
    ∃ due rest, queue = due ++ rest ∧ (∀ timer ∈ due, key timer = 0) ∧
      ∀ timer ∈ rest, 0 < key timer := by
  induction queue with
  | nil => exact ⟨[], [], rfl, by simp, by simp⟩
  | cons head tail ih =>
      obtain ⟨first, rest⟩ := List.pairwise_cons.mp sorted
      rcases Nat.eq_zero_or_pos (key head) with zero | positive
      · obtain ⟨due, later, rfl, expired, pending⟩ := ih rest
        refine ⟨head :: due, later, rfl, ?_, pending⟩
        simpa [zero] using expired
      · refine ⟨[], head :: tail, rfl, by simp, ?_⟩
        intro timer member
        rcases List.mem_cons.mp member with rfl | member
        · exact positive
        · exact Nat.lt_of_lt_of_le positive (first timer member)

namespace TimerInv

variable {kernel kernel' : Kernel} {queue : List TimerId} {timer : TimerId}

theorem congr (inv : TimerInv kernel queue) (same : SameTimers kernel kernel') :
    TimerInv kernel' queue := by
  obtain ⟨timers, links, tick⟩ := same
  have left : ∀ timer, remaining kernel' timer = remaining kernel timer := by
    intro timer
    simp only [remaining, timers, tick]
  refine ⟨inv.toTimerListed.congr links (by simp [timers]), ?_, ?_, ?_⟩
  · rw [timers]
    exact inv.range
  · simpa only [left] using inv.near
  · simpa only [left] using inv.sorted

/-- The scan for a new deadline stops at the timers which are not before it. -/
theorem stopsAt_iff (inv : TimerInv kernel queue) (range : (kernel.timers timer).InRange)
    (absent : timer ∉ queue) {other : TimerId} (member : other ∈ queue) :
    stopsAt kernel timer other = true ↔
      (kernel.timers timer).initTick.toNat ≤ remaining kernel other := by
  have apart : other ≠ timer := fun equal => absent (equal ▸ member)
  have near : ahead kernel.rtTick (kernel.rtTick + (kernel.timers timer).initTick) <
      halfTickMax.toNat := by
    rw [ahead_add]
    exact range.2
  have decided := sub_lt_horizon_iff halfTickMax_half near (inv.near other member)
  rw [ahead_add] at decided
  simpa [remaining, stopsAt, stopsInsertion, setDeadline, Kernel.setTimer, apart] using decided

theorem start (inv : TimerInv kernel queue) (idle : (kernel.timers timer).activated = false)
    (range : (kernel.timers timer).InRange) :
    ∃ next, rtTimerStart kernel timer = some (.eok, next) ∧
      TimerInv next (queued (stopsAt kernel timer) timer queue) ∧
      next.rtTick = kernel.rtTick ∧
      next.timers = Function.update kernel.timers timer
        { kernel.timers timer with
          activated := true
          timeoutTick := kernel.rtTick + (kernel.timers timer).initTick } := by
  obtain ⟨next, step, listed, timers⟩ := inv.toTimerListed.start idle range.2
  have tick : next.rtTick = kernel.rtTick := by
    rw [rtTimerStart_frame step]
  have absent : timer ∉ queue := by
    rw [inv.active, idle]
    simp
  have own : remaining next timer = (kernel.timers timer).initTick.toNat := by
    simp [remaining, tick, timers]
  have others : ∀ other ∈ queue, next.timers other = kernel.timers other ∧
      remaining next other = remaining kernel other := by
    intro other member
    have apart : other ≠ timer := fun equal => absent (equal ▸ member)
    simp [remaining, tick, timers, apart]
  refine ⟨next, step, ⟨listed, ?_, ?_, ?_⟩, tick, timers⟩
  · intro other member
    rcases mem_queued.mp member with rfl | member
    · simpa [timers, Timer.InRange] using range
    · rw [(others other member).1]
      exact inv.range other member
  · intro other member
    rcases mem_queued.mp member with rfl | member
    · rw [own]
      exact range.2
    · rw [(others other member).2]
      exact inv.near other member
  · refine queued_sorted ?_ ?_
    · exact inv.sorted.imp_of_mem fun left right order => by
        rwa [(others _ left).2, (others _ right).2]
    · intro other member
      rw [own, (others other member).2]
      exact inv.stopsAt_iff range absent member

/-- Stopping a timer keeps the order of the others. -/
theorem stop (inv : TimerInv kernel queue) (timer : TimerId) :
    TimerInv ((kernel.unlinkTimer timer).deactivate timer) (queue.erase timer) := by
  have others : ∀ other ∈ queue.erase timer,
      ((kernel.unlinkTimer timer).deactivate timer).timers other = kernel.timers other ∧
        remaining ((kernel.unlinkTimer timer).deactivate timer) other = remaining kernel other := by
    intro other member
    have apart : other ≠ timer := ((inv.nodup.mem_erase_iff).mp member).1
    simp [remaining, Kernel.deactivate, Kernel.setTimer, Kernel.unlinkTimer, apart]
  have subset : ∀ other ∈ queue.erase timer, other ∈ queue := fun other => List.mem_of_mem_erase
  refine ⟨inv.toTimerListed.stop timer, ?_, ?_, ?_⟩
  · intro other member
    rw [(others other member).1]
    exact inv.range other (subset other member)
  · intro other member
    rw [(others other member).2]
    exact inv.near other (subset other member)
  · exact (inv.sorted.sublist List.erase_sublist).imp_of_mem fun left right order => by
      rwa [(others _ left).2, (others _ right).2]

end TimerInv

/-! ## What leaves the timers alone -/

theorem SameTimers.refl (kernel : Kernel) : SameTimers kernel kernel := ⟨rfl, rfl, rfl⟩

theorem SameTimers.trans {kernel kernel' kernel'' : Kernel} (first : SameTimers kernel kernel')
    (second : SameTimers kernel' kernel'') : SameTimers kernel kernel'' :=
  ⟨second.timers.trans first.timers, second.links.trans first.links,
    second.tick.trans first.tick⟩

theorem rtSchedule_sameTimers (kernel : Kernel) : SameTimers kernel (rtSchedule kernel) := by
  unfold rtSchedule
  dsimp only
  split
  · split <;> exact ⟨rfl, rfl, rfl⟩
  · exact .refl kernel

theorem rtThreadYield_sameTimers {kernel next : Kernel} (step : rtThreadYield kernel = some next) :
    SameTimers kernel next := by
  unfold rtThreadYield at step
  split at step
  · rename_i thread _
    have moved : SameTimers kernel (rtThreadYieldSection kernel thread).1 := by
      unfold rtThreadYieldSection
      split <;> exact ⟨rfl, rfl, rfl⟩
    obtain rfl := Option.some_inj.mp step
    dsimp only
    split
    · exact moved.trans (rtSchedule_sameTimers _)
    · exact moved
  · cases step

theorem chargeTick_sameTimers (kernel : Kernel) (thread : ThreadId) :
    SameTimers kernel (chargeTick kernel thread).1 := by
  unfold chargeTick
  dsimp only
  split <;> exact ⟨rfl, rfl, rfl⟩

theorem checkTimeSlice_sameTimers {kernel next : Kernel}
    (step : checkTimeSlice kernel = some next) : SameTimers kernel next := by
  unfold checkTimeSlice at step
  split at step
  · rename_i thread _
    dsimp only at step
    split at step
    · exact (chargeTick_sameTimers kernel thread).trans (rtThreadYield_sameTimers step)
    · obtain rfl := Option.some_inj.mp step
      exact chargeTick_sameTimers kernel thread
  · cases step

/-- The time slice of a running thread can always be checked. -/
theorem checkTimeSlice_isSome {kernel : Kernel} {thread : ThreadId}
    (current : kernel.rtCurrentThread = .thread thread) : (checkTimeSlice kernel).isSome := by
  have kept : (chargeTick kernel thread).1.rtCurrentThread = .thread thread := by
    rw [← current]
    unfold chargeTick
    dsimp only
    split <;> rfl
  simp only [checkTimeSlice, current]
  split
  · simp [rtThreadYield, kept]
  · rfl

/-! ## One `rt_timer_check` -/

/-- Callbacks that touch neither the timers nor the tick. -/
def LeavesTimers (timeoutFunc : TimerId → Kernel → Option Kernel) : Prop :=
  ∀ timer kernel next, timeoutFunc timer kernel = some next → SameTimers kernel next

/-- The record of a timer which expires at `tick`. -/
def Timer.expire (timer : Timer) (tick : BitVec 32) : Timer :=
  if timer.periodic then { timer with activated := true, timeoutTick := tick + timer.initTick }
  else { timer with activated := false }

/-- Firing one timer takes it from the queue and, if it is periodic, links it
again behind every timer that is due. -/
theorem TimerInv.finish {kernel : Kernel} {timer : TimerId} {due rest : List TimerId}
    (inv : TimerInv (kernel.deactivate timer) (due ++ rest))
    (active : (kernel.timers timer).activated = true) (range : (kernel.timers timer).InRange)
    (expired : ∀ other ∈ due, remaining (kernel.deactivate timer) other = 0)
    (pending : ∀ other ∈ rest, 0 < remaining (kernel.deactivate timer) other) :
    ∃ next rest', rtTimerFinish kernel timer = some next ∧ TimerInv next (due ++ rest') ∧
      (∀ other ∈ due, remaining next other = 0) ∧ (∀ other ∈ rest', 0 < remaining next other) ∧
      next.rtTick = kernel.rtTick ∧
      next.timers = Function.update kernel.timers timer
        ((kernel.timers timer).expire kernel.rtTick) := by
  cases periodic : (kernel.timers timer).periodic with
  | false =>
      refine ⟨kernel.deactivate timer, rest, ?_, inv, expired, pending, rfl, ?_⟩
      · simp [rtTimerFinish, periodic]
      · simp [Kernel.deactivate, Kernel.setTimer, Timer.expire, periodic]
  | true =>
      have idle : ((kernel.deactivate timer).timers timer).activated = false := by
        simp [Kernel.deactivate, Kernel.setTimer]
      have range' : ((kernel.deactivate timer).timers timer).InRange := by
        simpa [Kernel.deactivate, Kernel.setTimer, Timer.InRange] using range
      have absent : timer ∉ due ++ rest := by
        rw [inv.active, idle]
        simp
      obtain ⟨next, step, inv', tick, timers⟩ := inv.start idle range'
      have passes : ∀ other ∈ due, stopsAt (kernel.deactivate timer) timer other = false := by
        intro other member
        rw [← Bool.not_eq_true, inv.stopsAt_iff range' absent (List.mem_append_left _ member),
          expired other member]
        have positive := range'.1
        omega
      rw [queued_append passes] at inv'
      have own : remaining next timer = ((kernel.deactivate timer).timers timer).initTick.toNat := by
        simp [remaining, tick, timers]
      have others : ∀ other ∈ due ++ rest,
          remaining next other = remaining (kernel.deactivate timer) other := by
        intro other member
        have apart : other ≠ timer := fun equal => absent (equal ▸ member)
        simp [remaining, tick, timers, apart]
      refine ⟨next, _, ?_, inv', ?_, ?_, tick, ?_⟩
      · simp [rtTimerFinish, periodic, active, step]
      · intro other member
        rw [others other (List.mem_append_left _ member)]
        exact expired other member
      · intro other member
        rcases mem_queued.mp member with rfl | member
        · rw [own]
          exact range'.1
        · rw [others other (List.mem_append_right _ member)]
          exact pending other member
      · rw [timers]
        simp [Kernel.deactivate, Kernel.setTimer, Timer.expire, periodic]

/-- The expiry test of `rt_timer_check` finds the timers with no time left. -/
theorem TimerInv.due_iff {kernel : Kernel} {queue : List TimerId} {timer : TimerId}
    (inv : TimerInv kernel queue) (member : timer ∈ queue) :
    kernel.rtTick - (kernel.timers timer).timeoutTick < halfTickMax ↔
      remaining kernel timer = 0 :=
  reached_iff halfTickMax_half (inv.near timer member)

theorem rtTimerCheckLoop_pending {timeoutFunc : TimerId → Kernel → Option Kernel}
    {kernel : Kernel} {queue : List TimerId} (inv : TimerInv kernel queue)
    (pending : ∀ timer ∈ queue, 0 < remaining kernel timer) :
    rtTimerCheckLoop timeoutFunc kernel.rtTick kernel = some (kernel, []) := by
  have head := inv.rings.next_head TimerNode.isHead_timerList
  rw [rtTimerCheckLoop]
  cases queue with
  | nil =>
      simp [head, timerLists]
  | cons timer queue =>
      have late := pending timer (by simp)
      have notDue := (not_congr (inv.due_iff (by simp : timer ∈ timer :: queue))).mpr (by omega)
      simp [head, timerLists, notDue]

theorem rtTimerCheckLoop_due {timeoutFunc : TimerId → Kernel → Option Kernel}
    {kernel : Kernel} {timer : TimerId} {queue : List TimerId}
    (inv : TimerInv kernel (timer :: queue)) (expired : remaining kernel timer = 0) :
    rtTimerCheckLoop timeoutFunc kernel.rtTick kernel =
      (timeoutFunc timer (kernel.unlinkTimer timer)).bind fun called =>
        (rtTimerFinish called timer).bind fun finished =>
          (rtTimerCheckLoop timeoutFunc called.rtTick finished).map fun (next, fired) =>
            (next, timer :: fired) := by
  have head := inv.rings.next_head TimerNode.isHead_timerList
  have isDue := (inv.due_iff (by simp : timer ∈ timer :: queue)).mpr expired
  rw [rtTimerCheckLoop]
  simp [head, timerLists, isDue, Option.map_eq_bind]

/-- One round of the loop, from the expired timer in front to the next one. -/
theorem TimerInv.round {timeoutFunc : TimerId → Kernel → Option Kernel} {kernel called : Kernel}
    {timer : TimerId} {due rest : List TimerId} (quiet : LeavesTimers timeoutFunc)
    (inv : TimerInv kernel (timer :: (due ++ rest)))
    (expired : ∀ other ∈ timer :: due, remaining kernel other = 0)
    (pending : ∀ other ∈ rest, 0 < remaining kernel other)
    (call : timeoutFunc timer (kernel.unlinkTimer timer) = some called) :
    called.rtTick = kernel.rtTick ∧
      ∃ next rest', rtTimerFinish called timer = some next ∧ TimerInv next (due ++ rest') ∧
        (∀ other ∈ due, remaining next other = 0) ∧ (∀ other ∈ rest', 0 < remaining next other) ∧
        next.rtTick = kernel.rtTick ∧
        next.timers = Function.update kernel.timers timer
          ((kernel.timers timer).expire kernel.rtTick) := by
  have same := quiet timer _ called call
  have timers : called.timers = kernel.timers := same.timers
  have tick : called.rtTick = kernel.rtTick := same.tick
  have stopped : TimerInv (called.deactivate timer) (due ++ rest) := by
    have cut := inv.stop timer
    rw [List.erase_cons_head] at cut
    refine cut.congr ⟨?_, same.links, same.tick⟩
    simp [Kernel.deactivate, Kernel.setTimer, same.timers]
  have left : ∀ other ∈ due ++ rest,
      remaining (called.deactivate timer) other = remaining kernel other := by
    intro other member
    have apart : other ≠ timer := by
      rintro rfl
      exact (List.nodup_cons.mp inv.nodup).1 member
    simp [remaining, Kernel.deactivate, Kernel.setTimer, apart, timers, tick]
  have active : (called.timers timer).activated = true := by
    rw [timers, ← inv.active]
    simp
  have range : (called.timers timer).InRange := by
    rw [timers]
    exact inv.range timer (by simp)
  have expired' : ∀ other ∈ due, remaining (called.deactivate timer) other = 0 := by
    intro other member
    rw [left other (List.mem_append_left _ member)]
    exact expired other (List.mem_cons_of_mem _ member)
  have pending' : ∀ other ∈ rest, 0 < remaining (called.deactivate timer) other := by
    intro other member
    rw [left other (List.mem_append_right _ member)]
    exact pending other member
  have finish := stopped.finish active range expired' pending'
  rw [tick, timers] at finish
  exact ⟨tick, finish⟩

/-- The loop of `rt_timer_check` fires the timers that are due, front to back,
and leaves a queue without any. -/
theorem TimerInv.checkLoop {timeoutFunc : TimerId → Kernel → Option Kernel} {kernel next : Kernel}
    {due rest fired : List TimerId} (quiet : LeavesTimers timeoutFunc)
    (inv : TimerInv kernel (due ++ rest)) (expired : ∀ timer ∈ due, remaining kernel timer = 0)
    (pending : ∀ timer ∈ rest, 0 < remaining kernel timer)
    (step : rtTimerCheckLoop timeoutFunc kernel.rtTick kernel = some (next, fired)) :
    fired = due ∧ next.rtTick = kernel.rtTick ∧
      (∃ queue, TimerInv next queue ∧ ∀ timer ∈ queue, 0 < remaining next timer) ∧
      ∀ timer, next.timers timer =
        if timer ∈ due then (kernel.timers timer).expire kernel.rtTick
        else kernel.timers timer := by
  induction due generalizing kernel rest fired with
  | nil =>
      rw [rtTimerCheckLoop_pending inv pending, Option.some_inj, Prod.mk.injEq] at step
      obtain ⟨rfl, rfl⟩ := step
      exact ⟨rfl, rfl, ⟨rest, inv, pending⟩, by simp⟩
  | cons timer due ih =>
      rw [rtTimerCheckLoop_due inv (expired timer (by simp))] at step
      obtain ⟨called, call, step⟩ := Option.bind_eq_some_iff.mp step
      obtain ⟨finished, finish, step⟩ := Option.bind_eq_some_iff.mp step
      obtain ⟨⟨_, later⟩, loop, pair⟩ := Option.map_eq_some_iff.mp step
      obtain ⟨rfl, rfl⟩ := Prod.mk.inj pair
      obtain ⟨calledTick, _, rest', finish', inv', expired', pending', tick, timers⟩ :=
        inv.round quiet expired pending call
      obtain rfl := Option.some_inj.mp (finish'.symm.trans finish)
      rw [calledTick, ← tick] at loop
      obtain ⟨rfl, tick', queue, records⟩ := ih inv' expired' pending' loop
      refine ⟨rfl, tick'.trans tick, queue, ?_⟩
      intro other
      rw [records, timers, tick]
      by_cases apart : other = timer
      · subst apart
        have absent : other ∉ later := fun member =>
          (List.nodup_cons.mp inv.nodup).1 (List.mem_append_left _ member)
        simp [absent]
      · simp [apart]

/-- The loop ends when every callback returns. -/
theorem TimerInv.checkLoop_returns {timeoutFunc : TimerId → Kernel → Option Kernel}
    {kernel : Kernel} {due rest : List TimerId} (quiet : LeavesTimers timeoutFunc)
    (returns : ∀ timer kernel, (timeoutFunc timer kernel).isSome)
    (inv : TimerInv kernel (due ++ rest)) (expired : ∀ timer ∈ due, remaining kernel timer = 0)
    (pending : ∀ timer ∈ rest, 0 < remaining kernel timer) :
    (rtTimerCheckLoop timeoutFunc kernel.rtTick kernel).isSome := by
  induction due generalizing kernel rest with
  | nil =>
      rw [rtTimerCheckLoop_pending inv pending]
      rfl
  | cons timer due ih =>
      obtain ⟨called, call⟩ := Option.isSome_iff_exists.mp (returns timer (kernel.unlinkTimer timer))
      obtain ⟨calledTick, next, rest', finish, inv', expired', pending', tick, -⟩ :=
        inv.round quiet expired pending call
      have loop := ih inv' expired' pending'
      rw [tick, ← calledTick] at loop
      rw [rtTimerCheckLoop_due inv (expired timer (by simp)), call, Option.bind_some, finish,
        Option.bind_some, Option.isSome_map]
      exact loop

end RtThread
