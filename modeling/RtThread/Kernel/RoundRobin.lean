import RtThread.Kernel.Boot
import RtThread.Kernel.Clock
import RtThread.Std.Circle
import RtThread.Std.Turns

/-!
# Round robin

The ready threads of the highest priority take turns. A tick is charged to the thread
at the head of their list; with its last tick it moves to the end of the list and the
scheduler switches to the new head.
-/

namespace RtThread

open RtThread.Std

/-- Nothing but ticks, one after another. -/
def ticks (timeoutFunc : TimerId → Kernel → Option Kernel) : Nat → Kernel → Option Kernel
  | 0, kernel => some kernel
  | count + 1, kernel => do
    let kernel ← ticks timeoutFunc count kernel
    let (kernel, _) ← rtTickIncrease timeoutFunc kernel
    pure kernel

namespace Kernel

/-- The first timer does not run out at this tick. -/
def NoTimerDue (kernel : Kernel) (tick : BitVec 32) : Prop :=
  ∀ timer, kernel.timerLinks.next .timerList = .timer timer →
    ¬ tick - (kernel.timers timer).timeoutTick < halfTickMax

/-- `ring` is the list of the highest priority that is ready; the scheduler is not locked,
and the first thread of the list runs. -/
structure Runs (kernel : Kernel) (priority : Nat) (current : ThreadId) (ring : List ThreadId) :
    Prop where
  circle : kernel.threadLinks.Circle (.ready priority) (ring.map .tlist)
  highest : highestReadyPriority kernel.rtThreadReadyPriorityGroup = priority
  unlocked : kernel.rtSchedulerLockNest = 0
  first : ring.head? = some current
  running : kernel.rtCurrentThread = .thread current
  ready : ∀ thread ∈ ring, (kernel.threads thread).stat = .ready
  level : ∀ thread ∈ ring, (kernel.threads thread).currentPriority = priority

/-- Every thread has a slice, and all of it is left. -/
def FullSlices (kernel : Kernel) (ring : List ThreadId) : Prop :=
  ∀ thread ∈ ring, 1 ≤ (kernel.threads thread).initTick.toNat ∧
    (kernel.threads thread).remainingTick = (kernel.threads thread).initTick

/-- The slices of the threads, one after another in the order of the list. -/
def schedule (kernel : Kernel) (ring : List ThreadId) : List ThreadId :=
  period (fun thread => (kernel.threads thread).initTick.toNat) ring

/-- The thread that the schedule, which repeats itself, names for a tick. -/
def scheduled (kernel : Kernel) (ring : List ThreadId) (tick : Nat) : Option ThreadId :=
  (kernel.schedule ring)[tick % (kernel.schedule ring).length]?

/-- The kernel does what the turns say. -/
structure Serves (kernel : Kernel) (priority : Nat) (slice : ThreadId → Nat)
    (turns : Turns ThreadId) : Prop where
  runs : kernel.Runs priority turns.current turns.ring
  slices : ∀ thread ∈ turns.ring, (kernel.threads thread).initTick.toNat = slice thread
  left : (kernel.threads turns.current).remainingTick.toNat = turns.left
  whole : ∀ thread ∈ turns.waiting, (kernel.threads thread).remainingTick.toNat = slice thread

end Kernel

open Kernel

variable {kernel : Kernel} {priority : Nat} {slice : ThreadId → Nat} {turns : Turns ThreadId}
  {current : ThreadId} {waiting ring : List ThreadId}
  {timeoutFunc : TimerId → Kernel → Option Kernel}

namespace Kernel

theorem Runs.distinct (runs : kernel.Runs priority current ring) : ring.Nodup :=
  (List.nodup_cons.mp runs.circle.distinct).2.of_map _

/-- The record of a thread is written, but for what the list rests on. -/
theorem Runs.setThread (runs : kernel.Runs priority current ring) {thread : ThreadId}
    {record : Thread} (stat : record.stat = (kernel.threads thread).stat)
    (level : record.currentPriority = (kernel.threads thread).currentPriority) :
    (kernel.setThread thread record).Runs priority current ring := by
  have kept : ∀ other, ((kernel.setThread thread record).threads other).stat =
        (kernel.threads other).stat ∧
      ((kernel.setThread thread record).threads other).currentPriority =
        (kernel.threads other).currentPriority := by
    intro other
    rw [Kernel.setThread]
    dsimp only
    by_cases same : other = thread
    · rw [same, Function.update_self]
      exact ⟨stat, level⟩
    · rw [Function.update_of_ne same]
      exact ⟨rfl, rfl⟩
  refine ⟨runs.circle, runs.highest, runs.unlocked, runs.first, runs.running, ?_, ?_⟩
  · intro other member
    rw [(kept other).1]
    exact runs.ready other member
  · intro other member
    rw [(kept other).2]
    exact runs.level other member

/-- A thread that is alone on its list does not yield. -/
theorem Runs.yield_alone (runs : kernel.Runs priority current [current]) :
    rtThreadYield kernel = some kernel := by
  obtain ⟨-, back, onward, -⟩ := runs.circle.segment
  have alone : ¬ ((kernel.threads current).stat = .ready ∧
      kernel.threadLinks.next (.tlist current) ≠ kernel.threadLinks.prev (.tlist current)) :=
    fun yields => yields.2 (onward.trans back.symm)
  rw [rtThreadYield, runs.running]
  dsimp only
  rw [rtThreadYieldSection, if_neg alone]
  rfl

/-- The thread at the head moves to the end of its list, and the next one runs. -/
theorem Runs.yield_next {next : ThreadId}
    (runs : kernel.Runs priority current (current :: next :: waiting)) :
    ∃ yielded, rtThreadYield kernel = some yielded ∧
      yielded.Runs priority next (next :: waiting ++ [current]) ∧
      yielded.threads = kernel.threads ∧ yielded.timers = kernel.timers ∧
      yielded.timerLinks = kernel.timerLinks ∧ yielded.rtTick = kernel.rtTick := by
  obtain ⟨-, back, onward, -⟩ := runs.circle.segment
  have yields : (kernel.threads current).stat = .ready ∧
      kernel.threadLinks.next (.tlist current) ≠ kernel.threadLinks.prev (.tlist current) := by
    refine ⟨runs.ready current List.mem_cons_self, ?_⟩
    rw [onward, back]
    simp
  have level := runs.level current List.mem_cons_self
  obtain ⟨moved, isMoved⟩ : ∃ moved, (kernel.unlinkThread current).linkThreadBefore
      (.ready priority) current = moved := ⟨_, rfl⟩
  have circle : moved.threadLinks.Circle (.ready priority)
      ((next :: waiting ++ [current]).map .tlist) := by
    rw [← isMoved, List.map_append]
    exact runs.circle.rotate
  have threads : moved.threads = kernel.threads := by rw [← isMoved]; rfl
  have group : moved.rtThreadReadyPriorityGroup = kernel.rtThreadReadyPriorityGroup := by
    rw [← isMoved]
    rfl
  have unlocked : moved.rtSchedulerLockNest = 0 := by
    rw [← isMoved]
    exact runs.unlocked
  have apart : next ≠ current := by
    rintro rfl
    exact (List.nodup_cons.mp runs.distinct).1 List.mem_cons_self
  have highest : highestReadyThread moved = .thread next := by
    rw [highestReadyThread, group, runs.highest, circle.segment.1]
    rfl
  have running : moved.rtCurrentThread = .thread current := by
    rw [← isMoved]
    exact runs.running
  have switches : highestReadyThread moved ≠ moved.rtCurrentThread := by
    rw [highest, running]
    simpa using apart
  refine ⟨{ moved with
      rtCurrentPriority := highestReadyPriority moved.rtThreadReadyPriorityGroup
      rtCurrentThread := highestReadyThread moved }, ?_, ?_, threads, ?_, ?_, ?_⟩
  · rw [rtThreadYield, runs.running]
    dsimp only
    rw [rtThreadYieldSection, if_pos yields, level, isMoved]
    dsimp only
    rw [if_pos rfl, rtSchedule, if_pos unlocked]
    dsimp only
    rw [if_pos switches]
  · have same : ∀ thread, thread ∈ next :: waiting ++ [current] →
        thread ∈ current :: next :: waiting := by
      intro thread member
      rcases List.mem_append.mp member with here | last
      · exact List.mem_cons_of_mem _ here
      · exact List.mem_singleton.mp last ▸ List.mem_cons_self
    refine ⟨circle, ?_, unlocked, rfl, highest, ?_, ?_⟩
    · dsimp only
      rw [group, runs.highest]
    · intro thread member
      dsimp only
      rw [threads]
      exact runs.ready thread (same thread member)
    · intro thread member
      dsimp only
      rw [threads]
      exact runs.level thread (same thread member)
  · rw [← isMoved]
    rfl
  · rw [← isMoved]
    rfl
  · rw [← isMoved]
    rfl

/-- What a tick does to the time slices. -/
theorem Serves.checkTimeSlice (serves : kernel.Serves priority slice turns)
    (valid : turns.Valid slice) : ∃ next, checkTimeSlice kernel = some next ∧
      next.Serves priority slice (turns.next slice) ∧ next.timers = kernel.timers ∧
      next.timerLinks = kernel.timerLinks ∧ next.rtTick = kernel.rtTick := by
  obtain ⟨current, waiting, left⟩ := turns
  obtain ⟨runs, slices, remaining, whole⟩ := serves
  have some_ : 0 < left := valid.some_
  dsimp only at runs slices remaining whole
  have outside : ∀ thread ∈ waiting, thread ≠ current := fun thread member same =>
    (List.nodup_cons.mp runs.distinct).1 (same ▸ member)
  have others : ∀ record, ∀ thread ∈ waiting,
      (kernel.setThread current record).threads thread = kernel.threads thread :=
    fun record thread member => Function.update_of_ne (outside thread member) ..
  have mine : ∀ record, (kernel.setThread current record).threads current = record :=
    fun record => Function.update_self ..
  have inits : ∀ record : Thread, record.initTick = (kernel.threads current).initTick →
      ∀ thread ∈ current :: waiting,
        ((kernel.setThread current record).threads thread).initTick.toNat = slice thread := by
    intro record same thread member
    rcases List.mem_cons.mp member with rfl | member'
    · rw [mine, same]
      exact slices thread member
    · rw [others record thread member']
      exact slices thread member
  rw [RtThread.checkTimeSlice, runs.running]
  dsimp only
  by_cases last : left = 1
  · have used : (kernel.threads current).remainingTick - 1#32 = 0#32 := by
      subst last
      bv_omega
    obtain ⟨charged, isCharged⟩ : ∃ charged, kernel.setThread current { kernel.threads current with
        remainingTick := (kernel.threads current).initTick } = charged := ⟨_, rfl⟩
    have runs' : charged.Runs priority current (current :: waiting) := by
      rw [← isCharged]
      exact runs.setThread rfl rfl
    have inits' : ∀ thread ∈ current :: waiting,
        (charged.threads thread).initTick.toNat = slice thread := by
      rw [← isCharged]
      exact inits _ rfl
    have full : ∀ thread ∈ current :: waiting,
        (charged.threads thread).remainingTick.toNat = slice thread := by
      intro thread member
      rcases List.mem_cons.mp member with rfl | member'
      · rw [← isCharged, mine]
        exact slices thread member
      · rw [← isCharged, others _ thread member']
        exact whole thread member'
    have kept : charged.timers = kernel.timers ∧ charged.timerLinks = kernel.timerLinks ∧
        charged.rtTick = kernel.rtTick := by
      rw [← isCharged]
      exact ⟨rfl, rfl, rfl⟩
    rw [chargeTick, if_pos used, isCharged, Turns.next, if_pos last, if_pos rfl]
    cases waiting with
    | nil => exact ⟨charged, runs'.yield_alone, ⟨runs', inits', full current List.mem_cons_self,
        by rintro thread ⟨⟩⟩, kept⟩
    | cons next waiting =>
        obtain ⟨yielded, yield, runs'', threads, timers, links, tick⟩ := runs'.yield_next
        have same : ∀ thread, thread ∈ next :: waiting ++ [current] →
            thread ∈ current :: next :: waiting := by
          intro thread member
          rcases List.mem_append.mp member with here | last
          · exact List.mem_cons_of_mem _ here
          · exact List.mem_singleton.mp last ▸ List.mem_cons_self
        refine ⟨yielded, yield, ⟨runs'', ?_, ?_, ?_⟩, timers.trans kept.1, links.trans kept.2.1,
          tick.trans kept.2.2⟩
        · intro thread member
          rw [threads]
          exact inits' thread (same thread member)
        · rw [threads]
          exact full next (by simp)
        · intro thread member
          rw [threads]
          exact full thread (same thread (List.mem_cons_of_mem _ member))
  · have more : (kernel.threads current).remainingTick - 1#32 ≠ 0#32 := by bv_omega
    rw [chargeTick, if_neg more, Turns.next, if_neg last]
    dsimp only
    rw [if_neg Bool.false_ne_true]
    refine ⟨_, rfl, ⟨runs.setThread rfl rfl, inits _ rfl, ?_, ?_⟩, rfl, rfl, rfl⟩
    · rw [mine]
      dsimp only
      bv_omega
    · intro thread member
      rw [others _ thread member]
      exact whole thread member

end Kernel

/-! ## Any number of ticks -/

/-- A tick at which no timer is due. -/
theorem Kernel.Serves.tick (serves : kernel.Serves priority slice turns)
    (valid : turns.Valid slice) (late : kernel.NoTimerDue (kernel.rtTick + 1#32)) :
    ∃ next, rtTickIncrease timeoutFunc kernel = some (next, []) ∧
      next.Serves priority slice (turns.next slice) ∧ next.timers = kernel.timers ∧
      next.timerLinks = kernel.timerLinks ∧ next.rtTick = kernel.rtTick + 1#32 := by
  obtain ⟨counted, isCounted⟩ : ∃ counted, { kernel with rtTick := kernel.rtTick + 1#32 } = counted :=
    ⟨_, rfl⟩
  have serves' : counted.Serves priority slice turns := by
    obtain ⟨⟨circle, highest, unlocked, first, running, ready, level⟩, slices, left, whole⟩ := serves
    rw [← isCounted]
    exact ⟨⟨circle, highest, unlocked, first, running, ready, level⟩, slices, left, whole⟩
  obtain ⟨next, charged, served, timers, links, tick⟩ := serves'.checkTimeSlice valid
  have kept : next.timers = kernel.timers ∧ next.timerLinks = kernel.timerLinks ∧
      next.rtTick = kernel.rtTick + 1#32 := by
    rw [timers, links, tick, ← isCounted]
    exact ⟨rfl, rfl, rfl⟩
  refine ⟨next, ?_, served, kept⟩
  have nothing : rtTimerCheck timeoutFunc next = some (next, []) := by
    rw [rtTimerCheck, rtTimerCheckLoop]
    cases first : next.timerLinks.next .timerList with
    | timerList => rfl
    | timer timer =>
        have notDue := late timer (by rw [← kept.2.1]; exact first)
        rw [← kept.1, ← kept.2.2] at notDue
        dsimp only
        rw [if_neg notDue]
  rw [rtTickIncrease, isCounted, charged]
  exact nothing

/-- After any number of ticks at which no timer is due, the kernel is where the turns are. -/
theorem Kernel.Serves.ticks (serves : kernel.Serves priority slice turns)
    (valid : turns.Valid slice) (count : Nat)
    (late : ∀ tick, 1 ≤ tick → tick ≤ count →
      kernel.NoTimerDue (kernel.rtTick + BitVec.ofNat 32 tick)) :
    ∃ next, ticks timeoutFunc count kernel = some next ∧
      next.Serves priority slice ((Turns.next slice)^[count] turns) ∧
      next.timers = kernel.timers ∧ next.timerLinks = kernel.timerLinks ∧
      next.rtTick = kernel.rtTick + BitVec.ofNat 32 count := by
  induction count with
  | zero => exact ⟨kernel, rfl, serves, rfl, rfl, by simp⟩
  | succ count ih =>
      obtain ⟨before, run, serves', timers, links, tick⟩ :=
        ih fun tick lower upper => late tick lower (Nat.le_succ_of_le upper)
      have late' : before.NoTimerDue (before.rtTick + 1#32) := by
        intro timer first
        rw [timers, tick, BitVec.add_assoc, ← BitVec.ofNat_add]
        exact late (count + 1) (Nat.succ_pos count) (Nat.le_refl _) timer (by rw [← links]; exact first)
      obtain ⟨next, ticked, served, timers', links', tick'⟩ :=
        @Serves.tick before priority slice _ timeoutFunc serves' (Turns.valid_iterate valid count) late'
      refine ⟨next, ?_, ?_, timers'.trans timers, links'.trans links, ?_⟩
      · rw [RtThread.ticks, run]
        simp only [Option.bind_eq_bind, Option.bind_some, ticked, Option.pure_def]
      · rw [Function.iterate_succ_apply']
        exact served
      · rw [tick', tick, BitVec.add_assoc, ← BitVec.ofNat_add]

/-- Threads which share the highest ready priority run in the order of their list, each for
as many ticks in a row as its slice says. -/
theorem round_robin (timeoutFunc : TimerId → Kernel → Option Kernel) {kernel : Kernel}
    {priority : Nat} {current : ThreadId} {waiting : List ThreadId}
    (runs : kernel.Runs priority current (current :: waiting))
    (full : kernel.FullSlices (current :: waiting)) (count : Nat)
    (late : ∀ tick, 1 ≤ tick → tick ≤ count →
      kernel.NoTimerDue (kernel.rtTick + BitVec.ofNat 32 tick)) :
    ∃ next turn turned, ticks timeoutFunc count kernel = some next ∧
      kernel.scheduled (current :: waiting) count = some turn ∧
      next.Runs priority turn ((current :: waiting).rotate turned) := by
  obtain ⟨slice, isSlice⟩ : ∃ slice : ThreadId → Nat,
      (fun thread => (kernel.threads thread).initTick.toNat) = slice := ⟨_, rfl⟩
  have positive : ∀ thread ∈ current :: waiting, 0 < slice thread := by
    rw [← isSlice]
    exact fun thread member => (full thread member).1
  have serves : kernel.Serves priority slice (Turns.begin slice current waiting) := by
    rw [← isSlice]
    refine ⟨runs, fun thread member => rfl, ?_, ?_⟩
    · exact congrArg BitVec.toNat (full current List.mem_cons_self).2
    · intro thread member
      exact congrArg BitVec.toNat (full thread (List.mem_cons_of_mem _ member)).2
  obtain ⟨next, run, served, -⟩ :=
    @Serves.ticks kernel priority slice _ timeoutFunc serves (Turns.begin_valid positive) count late
  obtain ⟨turned, same⟩ :=
    @Turns.ring_iterate _ slice (Turns.begin slice current waiting) count
  refine ⟨next, ((Turns.next slice)^[count] (Turns.begin slice current waiting)).current, turned,
    run, ?_, ?_⟩
  · rw [scheduled, schedule, isSlice]
    exact Turns.current_iterate positive count
  · have runs' := served.runs
    rwa [same] at runs'

/-- Thread 0 with a slice of two ticks and thread 1 with a slice of one are started. -/
def startTwo : Option Kernel := do
  let config := { Config.plain with tick := fun thread => if thread = 0 then 2 else 1 }
  let kernel ← rtThreadStartup config.kernel 0
  let kernel ← rtThreadStartup kernel 1
  pure (rtSystemSchedulerStart kernel)

/-- After three ticks it is the turn of thread 0 again. -/
theorem round_robin_two : ∃ kernel next turn turned, startTwo = some kernel ∧
    ticks (fun _ _ => none) 3 kernel = some next ∧ kernel.scheduled [0, 1] 3 = some turn ∧
    next.Runs 31 turn ([0, 1].rotate turned) ∧ turn = 0 := by
  obtain ⟨kernel, started, runs, full, timers⟩ : ∃ kernel, startTwo = some kernel ∧
      kernel.Runs 31 0 [0, 1] ∧ kernel.FullSlices [0, 1] ∧
      kernel.timerLinks.next .timerList = .timerList := by
    refine ⟨_, rfl, ⟨⟨⟨rfl, rfl, rfl, rfl, rfl, rfl⟩, ?_⟩, rfl, rfl, rfl, rfl, ?_, ?_⟩, ?_, rfl⟩
    · decide
    · decide
    · decide
    · rw [FullSlices, List.forall_mem_cons, List.forall_mem_singleton]
      exact ⟨⟨by decide, rfl⟩, by decide, rfl⟩
  have late : ∀ tick, 1 ≤ tick → tick ≤ 3 →
      kernel.NoTimerDue (kernel.rtTick + BitVec.ofNat 32 tick) := by
    intro tick lower upper timer first
    rw [timers] at first
    cases first
  obtain ⟨next, turn, turned, run, same, runs'⟩ := round_robin (fun _ _ => none) runs full 3 late
  refine ⟨kernel, next, turn, turned, started, run, same, runs', ?_⟩
  obtain rfl := Option.some_inj.mp started
  exact (Option.some_inj.mp same).symm

end RtThread
