import RtThread.Std.History
import RtThread.Drivers.Completion

/-!
# Runs of completions

Every wait that succeeds has a done of its own, and a done that finds no waiter is
there for the next wait, as long as no wait finds a flag that another wait has found
already and no flag is set under a waiter that has yet to clean it.
-/

namespace RtThread

open RtThread.Std

/-! ## Events -/

namespace CompletionEvent

/-- A wait has returned `RT_EOK`. -/
def isOk : CompletionEvent → Bool
  | .returned .eok _ => true
  | _ => false

def isSet : CompletionEvent → Bool
  | .set _ => true
  | _ => false

/-- A wait has looked at the flag. -/
def isWait : CompletionEvent → Bool
  | .blocked | .returned _ false => true
  | _ => false

end CompletionEvent

/-- The flag has been set since a wait last found it set. -/
def fresh (past : List CompletionEvent) : Bool :=
  past.foldl (fun fresh event =>
    match event with
    | .set _ => true
    | .returned .eok false => false
    | _ => fresh) false

/-- The waits that have returned `RT_EOK` have a done each that has set the flag before:
the first has the first, and so on. -/
def Matched (events : List CompletionEvent) : Prop :=
  ∀ prior, prior <+: events →
    prior.countP CompletionEvent.isOk ≤ prior.countP CompletionEvent.isSet

/-- The wait that follows a done without a waiter returns `RT_EOK` at once. -/
def Answered (events : List CompletionEvent) : Prop :=
  ∀ before after, events = before ++ .set false :: after →
    ∀ event, after.find? CompletionEvent.isWait = some event → event = .returned .eok false

/-- No wait has followed the last done without a waiter. -/
def Owed (events : List CompletionEvent) : Prop :=
  ∃ before after, events = before ++ .set false :: after ∧
    after.find? CompletionEvent.isWait = none

section

variable {past : List CompletionEvent} {event : CompletionEvent}

theorem Matched.snoc (matched : Matched past)
    (more : (past ++ [event]).countP CompletionEvent.isOk ≤
      (past ++ [event]).countP CompletionEvent.isSet) : Matched (past ++ [event]) := by
  intro prior shorter
  rcases List.prefix_concat_iff.mp shorter with rfl | shorter
  · exact more
  · exact matched prior shorter

theorem Answered.snoc (answered : Answered past)
    (answers : Owed past → event.isWait = true → event = .returned .eok false) :
    Answered (past ++ [event]) := by
  intro before after split found isFound
  rcases List.eq_nil_or_concat' after with rfl | ⟨rest, last, rfl⟩
  · cases isFound
  · rw [← List.cons_append, ← List.append_assoc] at split
    obtain ⟨rfl, same⟩ := List.append_inj' split rfl
    obtain rfl := List.singleton_inj.mp same
    rw [List.find?_append] at isFound
    cases earlier : rest.find? CompletionEvent.isWait with
    | none =>
        rw [earlier, Option.none_or, List.find?_singleton] at isFound
        split at isFound
        · rename_i waits
          obtain rfl := Option.some_inj.mp isFound
          exact answers ⟨before, rest, rfl, earlier⟩ waits
        · cases isFound
    | some other =>
        rw [earlier, Option.some_or] at isFound
        exact answered before rest rfl found (earlier.trans isFound)

theorem Owed.of_snoc (owed : Owed (past ++ [event])) :
    event.isWait = false ∧ (event = .set false ∨ Owed past) := by
  obtain ⟨before, after, split, none_⟩ := owed
  rcases List.eq_nil_or_concat' after with rfl | ⟨rest, last, rfl⟩
  · obtain ⟨-, same⟩ := List.append_inj' split rfl
    obtain rfl := List.singleton_inj.mp same
    exact ⟨rfl, .inl rfl⟩
  · rw [← List.cons_append, ← List.append_assoc] at split
    obtain ⟨rfl, same⟩ := List.append_inj' split rfl
    obtain rfl := List.singleton_inj.mp same
    have others := List.find?_eq_none.mp none_
    refine ⟨by simpa using others event (by simp), .inr ⟨before, rest, rfl, ?_⟩⟩
    exact List.find?_eq_none.mpr fun other member => others other (by simp [member])

theorem fresh_snoc (past : List CompletionEvent) (event : CompletionEvent) :
    fresh (past ++ [event]) = match event with
      | .set _ => true
      | .returned .eok false => false
      | _ => fresh past := by
  unfold fresh
  rw [List.foldl_append]
  rfl

end

/-! ## The one waiter -/

def CompletionPhase.isWaiting : CompletionPhase → Bool
  | .waiting _ _ => true
  | _ => false

/-- The list that a waiter is on. -/
def listed : Option (ThreadId × Wakeup) → List ThreadId
  | some (thread, .suspended) => [thread]
  | _ => []

/-- The done that belongs to a waiter that has been resumed. -/
def granted : Option (ThreadId × Wakeup) → Nat
  | some (_, .resumed) => 1
  | _ => 0

/-- What a waiter has to do with the completion. -/
structure CompletionSystem.Waits (system : CompletionSystem)
    (waiter : Option (ThreadId × Wakeup)) : Prop where
  outside : ∀ context timeout wakeup, system.phase context = .waiting timeout wakeup →
    ∃ thread, context = .thread thread ∧ waiter = some (thread, wakeup)
  inside : ∀ thread wakeup, waiter = some (thread, wakeup) →
    ∃ timeout, system.phase (.thread thread) = .waiting timeout wakeup
  list : system.completion.suspendedList = listed waiter
  flag : ∀ thread wakeup, waiter = some (thread, wakeup) →
    system.completion.flag = decide (wakeup = .resumed)

/-- What the events have to do with the waiter and the flag. -/
structure Accounts (flag : Bool) (waiter : Option (ThreadId × Wakeup))
    (past : List CompletionEvent) : Prop where
  matched : Matched past
  answered : Answered past
  spare : past.countP CompletionEvent.isOk + granted waiter ≤
    past.countP CompletionEvent.isSet
  /-- A wait that will find the flag has a done of its own. -/
  unused : waiter = none → flag = true → fresh past = true →
    past.countP CompletionEvent.isOk < past.countP CompletionEvent.isSet
  owes : Owed past → waiter = none ∧ flag = true

namespace Accounts

variable {flag : Bool} {past : List CompletionEvent} {thread : ThreadId}
  {waiter next : Option (ThreadId × Wakeup)} {event : CompletionEvent}

theorem nil : Accounts false none [] where
  matched prior shorter := by
    obtain rfl := List.prefix_nil.mp shorter
    exact le_rfl
  answered before after split := by simp at split
  spare := le_rfl
  unused _ set := by cases set
  owes owed := by
    obtain ⟨before, after, split, -⟩ := owed
    simp at split

/-- A wait finds the flag set. -/
theorem found (accounts : Accounts true none past) (unused : fresh past = true) :
    Accounts true none (past ++ [.returned .eok false]) := by
  have more := accounts.unused rfl rfl unused
  have spare : (past ++ [CompletionEvent.returned .eok false]).countP CompletionEvent.isOk ≤
      (past ++ [CompletionEvent.returned .eok false]).countP CompletionEvent.isSet := by
    simp [CompletionEvent.isOk, CompletionEvent.isSet]
    omega
  constructor
  · exact accounts.matched.snoc spare
  · exact accounts.answered.snoc fun _ _ => rfl
  · exact spare
  · intro _ _ again
    rw [fresh_snoc] at again
    cases again
  · intro owed
    cases owed.of_snoc.1

/-- A done sets the flag, and nobody waits. -/
theorem keeps (accounts : Accounts flag none past) :
    Accounts true none (past ++ [.set false]) := by
  have before := accounts.spare
  have more : (past ++ [CompletionEvent.set false]).countP CompletionEvent.isOk <
      (past ++ [CompletionEvent.set false]).countP CompletionEvent.isSet := by
    simp [CompletionEvent.isOk, CompletionEvent.isSet]
    omega
  constructor
  · exact accounts.matched.snoc more.le
  · refine accounts.answered.snoc fun _ waits => ?_
    cases waits
  · exact more.le
  · exact fun _ _ _ => more
  · exact fun _ => ⟨rfl, rfl⟩

/-- A done sets the flag and resumes the waiter. -/
theorem resumes (accounts : Accounts flag (some (thread, .suspended)) past) :
    Accounts true (some (thread, .resumed)) (past ++ [.set true]) := by
  have before := accounts.spare
  have more : (past ++ [CompletionEvent.set true]).countP CompletionEvent.isOk + 1 ≤
      (past ++ [CompletionEvent.set true]).countP CompletionEvent.isSet := by
    simp [CompletionEvent.isOk, CompletionEvent.isSet]
    omega
  constructor
  · exact accounts.matched.snoc (Nat.le_of_succ_le more)
  · refine accounts.answered.snoc fun _ waits => ?_
    cases waits
  · exact more
  · intro none_
    cases none_
  · intro owed
    rcases owed.of_snoc.2 with other | owed
    · cases other
    · cases (accounts.owes owed).1

/-- Another event, with a flag that is not set. -/
theorem other (accounts : Accounts flag waiter past) (noSet : event.isSet = false)
    (spare : past.countP CompletionEvent.isOk + granted next + (if event.isOk then 1 else 0) ≤
      past.countP CompletionEvent.isSet)
    (answers : Owed past → False) : Accounts false next (past ++ [event]) := by
  have counted : (past ++ [event]).countP CompletionEvent.isOk + granted next ≤
      (past ++ [event]).countP CompletionEvent.isSet := by
    simp only [List.countP_append, List.countP_singleton, noSet]
    simp only [Bool.false_eq_true, if_false]
    omega
  constructor
  · exact accounts.matched.snoc (Nat.le_of_add_right_le counted)
  · exact accounts.answered.snoc fun owed => (answers owed).elim
  · exact counted
  · intro _ set
    cases set
  · intro owed
    rcases owed.of_snoc.2 with rfl | owed
    · cases noSet
    · exact (answers owed).elim

end Accounts

/-! ## Steps -/

namespace CompletionSystem

/-- Nobody is in `rt_completion_wait`. -/
def Unwaited (system : CompletionSystem) : Prop :=
  ∀ context, (system.phase context).isWaiting = false

/-- One waiter at a time. -/
def OneWaiter (system : CompletionSystem) : CompletionAction → Prop
  | .wait _ _ => system.Unwaited
  | _ => True

/-- One waiter at a time, no wait that finds a flag which an earlier wait has found, and
no done that finds nobody on the list while a waiter has yet to clean the flag. -/
def Allows (state : CompletionSystem × List CompletionEvent) : CompletionAction → Prop
  | .wait _ _ => state.1.Unwaited ∧ (state.1.completion.flag = true → fresh state.2 = true)
  | .set _ => state.1.completion.suspendedList = [] → state.1.Unwaited
  | _ => True

/-- There is a waiter at most, and everything adds up. -/
def Sound (system : CompletionSystem) (past : List CompletionEvent) : Prop :=
  ∃ waiter, system.Waits waiter ∧ Accounts system.completion.flag waiter past

section

variable {system next : CompletionSystem} {past emitted : List CompletionEvent}
  {waiter : Option (ThreadId × Wakeup)} {context : Context} {timeout : Int} {thread : ThreadId}
  {phase : CompletionPhase} {wakeup : Wakeup} {completion : Completion}

@[simp] theorem phase_setPhase_self : (system.setPhase context phase).phase context = phase :=
  Function.update_self ..

theorem phase_setPhase_of_ne {other : Context} (apart : other ≠ context) :
    (system.setPhase context phase).phase other = system.phase other :=
  Function.update_of_ne apart ..

theorem Waits.nobody (waits : system.Waits waiter)
    (idle : system.Unwaited) : waiter = none := by
  cases waiter with
  | none => rfl
  | some pair =>
      obtain ⟨thread, wakeup⟩ := pair
      obtain ⟨timeout, phase⟩ := waits.inside thread wakeup rfl
      have still := idle (.thread thread)
      rw [phase] at still
      cases still

/-- A context that does not wait changes its phase to another one that does not. -/
theorem Waits.setPhase (waits : system.Waits waiter)
    (before : (system.phase context).isWaiting = false) (after : phase.isWaiting = false) :
    (system.setPhase context phase).Waits waiter := by
  refine ⟨?_, ?_, waits.list, waits.flag⟩
  · intro other timeout wakeup there
    rcases eq_or_ne other context with rfl | apart
    · rw [phase_setPhase_self] at there
      rw [there] at after
      cases after
    · rw [phase_setPhase_of_ne apart] at there
      exact waits.outside other timeout wakeup there
  · intro thread wakeup same
    obtain ⟨timeout, there⟩ := waits.inside thread wakeup same
    have apart : Context.thread thread ≠ context := by
      rintro rfl
      rw [there] at before
      cases before
    exact ⟨timeout, by rwa [phase_setPhase_of_ne apart]⟩

/-- The waiter, or a thread where there is none, gets to wait in this way. -/
theorem Waits.become (waits : system.Waits waiter)
    (only : ∀ other wakeup, waiter = some (other, wakeup) → other = thread)
    (list : completion.suspendedList = listed (some (thread, wakeup)))
    (flag : completion.flag = decide (wakeup = .resumed)) (timeout : Int) :
    (CompletionSystem.setPhase ⟨completion, system.phase⟩ (.thread thread)
      (.waiting timeout wakeup)).Waits (some (thread, wakeup)) := by
  refine ⟨?_, ?_, list, ?_⟩
  · intro other timeout' wakeup' there
    rcases eq_or_ne other (.thread thread) with rfl | apart
    · rw [phase_setPhase_self] at there
      cases there
      exact ⟨thread, rfl, rfl⟩
    · rw [phase_setPhase_of_ne apart] at there
      obtain ⟨other, rfl, same⟩ := waits.outside other timeout' wakeup' there
      exact absurd (congrArg Context.thread (only other wakeup' same)) apart
  · rintro other wakeup' same
    obtain ⟨rfl, rfl⟩ := Prod.mk.inj (Option.some_inj.mp same)
    exact ⟨timeout, Function.update_self ..⟩
  · rintro other wakeup' same
    obtain ⟨rfl, rfl⟩ := Prod.mk.inj (Option.some_inj.mp same)
    exact flag

/-- The waiter goes on. -/
theorem Waits.leave (waits : system.Waits (some (thread, wakeup)))
    (list : completion.suspendedList = []) :
    (CompletionSystem.setPhase ⟨completion, system.phase⟩ (.thread thread) .idle).Waits none := by
  refine ⟨?_, ?_, list, ?_⟩
  · intro other timeout' wakeup' there
    rcases eq_or_ne other (.thread thread) with rfl | apart
    · rw [phase_setPhase_self] at there
      cases there
    · rw [phase_setPhase_of_ne apart] at there
      obtain ⟨other, rfl, same⟩ := waits.outside other timeout' wakeup' there
      exact absurd (congrArg Context.thread (Prod.mk.inj (Option.some_inj.mp same)).1.symm) apart
  · rintro other wakeup' ⟨⟩
  · rintro other wakeup' ⟨⟩

theorem Sound.wait (sound : system.Sound past)
    (idle : system.Unwaited)
    (unused : system.completion.flag = true → fresh past = true)
    (step : system.wait context timeout = some (next, emitted)) :
    next.Sound (past ++ emitted) := by
  obtain ⟨waiter, waits, accounts⟩ := sound
  obtain rfl := waits.nobody idle
  have spare := accounts.spare
  unfold CompletionSystem.wait at step
  dsimp only at step
  split at step
  · rename_i flag
    obtain ⟨rfl, rfl⟩ := Prod.mk.inj (Option.some_inj.mp step)
    rw [flag] at accounts
    refine ⟨none, waits, ?_⟩
    rw [flag]
    exact accounts.found (unused flag)
  rename_i flag
  rw [Bool.not_eq_true] at flag
  have notOwed : Owed past → False := by
    intro owed
    rw [(accounts.owes owed).2] at flag
    cases flag
  split at step
  · cases step
  split at step
  · obtain ⟨rfl, rfl⟩ := Prod.mk.inj (Option.some_inj.mp step)
    refine ⟨none, waits, ?_⟩
    rw [flag]
    exact accounts.other rfl spare notOwed
  · cases context with
    | handler index => cases step
    | thread thread =>
        obtain ⟨rfl, rfl⟩ := Prod.mk.inj (Option.some_inj.mp step)
        refine ⟨some (thread, .suspended), ?_, ?_⟩
        · refine waits.become (by rintro _ _ ⟨⟩) ?_ flag timeout
          change system.completion.suspendedList ++ [thread] = [thread]
          rw [waits.list]
          rfl
        · change Accounts system.completion.flag _ _
          rw [flag]
          exact accounts.other rfl spare notOwed

theorem Sound.set (sound : system.Sound past) (here : system.phase context = .setting)
    (alone : system.completion.suspendedList = [] → system.Unwaited) :
    (system.set context).1.Sound (past ++ (system.set context).2) := by
  obtain ⟨waiter, waits, accounts⟩ := sound
  have mine : (system.phase context).isWaiting = false := by
    rw [here]
    rfl
  unfold CompletionSystem.set
  cases list : system.completion.suspendedList with
  | nil =>
      obtain rfl := waits.nobody (alone list)
      have kept : CompletionSystem.Waits ⟨⟨true, []⟩, system.phase⟩ none :=
        ⟨waits.outside, waits.inside, rfl, by rintro _ _ ⟨⟩⟩
      exact ⟨none, kept.setPhase mine rfl, accounts.keeps⟩
  | cons thread rest =>
      have shown := waits.list
      rw [list] at shown
      unfold listed at shown
      split at shown
      · rename_i other
        obtain ⟨rfl, rfl⟩ := List.cons.inj shown
        obtain ⟨timeout, phase⟩ := waits.inside thread .suspended rfl
        have resumed : (CompletionSystem.resume ⟨⟨true, []⟩, system.phase⟩ thread .resumed).Waits
            (some (thread, .resumed)) := by
          rw [CompletionSystem.resume, phase]
          exact waits.become (fun _ _ same => (Prod.mk.inj (Option.some_inj.mp same)).1.symm) rfl
            rfl timeout
        refine ⟨some (thread, .resumed), resumed.setPhase ?_ rfl, accounts.resumes⟩
        have apart : context ≠ .thread thread := by
          rintro rfl
          rw [here] at phase
          cases phase
        rwa [CompletionSystem.resume, phase_setPhase_of_ne apart]
      · cases shown

/-- A waiter that has been resumed, or whose time has run out, goes on. -/
theorem Sound.wake (sound : system.Sound past)
    (there : system.phase (.thread thread) = .waiting timeout wakeup) (awake : wakeup ≠ .suspended)
    {result : Err} (means : result = .eok → wakeup = .resumed) :
    (system.wake thread result).1.Sound (past ++ (system.wake thread result).2) := by
  obtain ⟨waiter, waits, accounts⟩ := sound
  obtain ⟨other, same, rfl⟩ := waits.outside _ _ _ there
  obtain rfl := Context.thread.inj same
  have spare := accounts.spare
  refine ⟨none, waits.leave ?_, ?_⟩
  · change system.completion.suspendedList = []
    rw [waits.list]
    cases wakeup with
    | suspended => exact absurd rfl awake
    | resumed | timedOut => rfl
  · refine accounts.other rfl ?_ fun owed => by cases (accounts.owes owed).1
    cases result with
    | eok =>
        obtain rfl := means rfl
        exact spare
    | error | etimeout | efull => exact Nat.le_trans (Nat.le_add_right ..) spare

theorem Sound.expire (sound : system.Sound past)
    (there : system.phase (.thread thread) = .waiting timeout .suspended) :
    (CompletionSystem.resume ⟨{ system.completion with
      suspendedList := system.completion.suspendedList.erase thread }, system.phase⟩
      thread .timedOut).Sound past := by
  obtain ⟨waiter, waits, accounts⟩ := sound
  obtain ⟨other, same, rfl⟩ := waits.outside _ _ _ there
  obtain rfl := Context.thread.inj same
  have flag : system.completion.flag = decide (Wakeup.timedOut = .resumed) :=
    waits.flag thread .suspended rfl
  have list : Completion.suspendedList { system.completion with
      suspendedList := system.completion.suspendedList.erase thread } =
        listed (some (thread, .timedOut)) := by
    change system.completion.suspendedList.erase thread = []
    rw [waits.list]
    simp [listed]
  refine ⟨some (thread, .timedOut), ?_, ?_⟩
  · rw [CompletionSystem.resume, there]
    exact waits.become (fun _ _ same => (Prod.mk.inj (Option.some_inj.mp same)).1.symm) list flag
      timeout
  · have spare := accounts.spare
    refine ⟨accounts.matched, accounts.answered, spare, (by rintro ⟨⟩), ?_⟩
    intro owed
    cases (accounts.owes owed).1

/-- An admitted step. -/
theorem Sound.step {action : CompletionAction} (sound : system.Sound past)
    (allows : Allows (system, past) action)
    (step : completionMachine.step system action = some (next, emitted)) :
    next.Sound (past ++ emitted) := by
  cases action with
  | wait context timeout =>
      obtain ⟨-, step⟩ := Option.ite_none_right_eq_some.mp step
      exact sound.wait allows.1 allows.2 step
  | done context =>
      obtain ⟨idle, step⟩ := Option.ite_none_right_eq_some.mp step
      split at step
      · obtain ⟨rfl, rfl⟩ := Prod.mk.inj (Option.some_inj.mp step)
        rwa [List.append_nil]
      · obtain ⟨rfl, rfl⟩ := Prod.mk.inj (Option.some_inj.mp step)
        obtain ⟨waiter, waits, accounts⟩ := sound
        rw [List.append_nil]
        exact ⟨waiter, waits.setPhase (by rw [idle]; rfl) rfl, accounts⟩
  | set context =>
      obtain ⟨here, made⟩ := Option.ite_none_right_eq_some.mp step
      have done := sound.set here allows
      rwa [Option.some_inj.mp made] at done
  | expire thread =>
      simp only [completionMachine] at step
      split at step
      · rename_i timeout there
        obtain ⟨-, made⟩ := Option.ite_none_right_eq_some.mp step
        obtain ⟨rfl, rfl⟩ := Prod.mk.inj (Option.some_inj.mp made)
        rw [List.append_nil]
        exact sound.expire there
      · cases step
  | wake thread =>
      simp only [completionMachine] at step
      split at step
      · rename_i timeout there
        have done := @Sound.wake _ _ _ _ _ sound there (by decide) .eok fun _ => rfl
        rwa [Option.some_inj.mp step] at done
      · rename_i timeout there
        have done := @Sound.wake _ _ _ _ _ sound there (by decide) .etimeout (by decide)
        rwa [Option.some_inj.mp step] at done
      · cases step

end

end CompletionSystem

/-! ## Runs -/

/-- In a run whose steps are all allowed, no two waits that succeed share a done, and a
done that finds no waiter makes the next wait return `RT_EOK`. -/
theorem completion_matches {actions : List CompletionAction} {events past : List CompletionEvent}
    {system : CompletionSystem}
    (run : completionMachine.remember.Run CompletionSystem.Allows (.start, []) actions events
      (system, past)) : Matched events ∧ Answered events := by
  obtain ⟨-, remembered⟩ := run.of_remember
  obtain rfl : past = events := remembered
  have sound : system.Sound past := by
    refine @Machine.Run.invariant _ _ _ _ _ _ _ _ _
      (fun (state : CompletionSystem × List CompletionEvent) => state.1.Sound state.2) run ?_ ?_
    · refine ⟨none, ⟨?_, ?_, rfl, ?_⟩, .nil⟩
      · intro context timeout wakeup there
        cases there
      · intro thread wakeup same
        cases same
      · intro thread wakeup same
        cases same
    · rintro state action next emitted sound allows step
      obtain ⟨transition, more⟩ := Machine.remember_step step
      rw [more]
      exact sound.step allows transition
  obtain ⟨waiter, -, accounts⟩ := sound
  exact ⟨accounts.matched, accounts.answered⟩

/-- A wait before a done, and a wait after one. -/
theorem completion_matches_two :
    Matched [.blocked, .set true, .returned .eok true, .set false, .returned .eok false] ∧
      Answered [.blocked, .set true, .returned .eok true, .set false, .returned .eok false] := by
  have blocked : completionMachine.remember.Run CompletionSystem.Allows (.start, []) _ _ _ :=
    .snoc .nil (by exact ⟨by rintro (thread | index) <;> rfl, fun set => nomatch set⟩)
      (show completionMachine.remember.step _ (.wait (.thread 0) 5) = some (_, _) from rfl)
  have looks := blocked.snoc (by trivial)
    (show completionMachine.remember.step _ (.done (.handler 0)) = some (_, _) from rfl)
  have resumes := looks.snoc (by rintro ⟨⟩)
    (show completionMachine.remember.step _ (.set (.handler 0)) = some (_, _) from rfl)
  have wakes := resumes.snoc (by trivial)
    (show completionMachine.remember.step _ (.wake 0) = some (_, _) from rfl)
  have looks' := wakes.snoc (by trivial)
    (show completionMachine.remember.step _ (.done (.handler 0)) = some (_, _) from rfl)
  have keeps := looks'.snoc (by rintro - ((_ | thread) | _ | index) <;> rfl)
    (show completionMachine.remember.step _ (.set (.handler 0)) = some (_, _) from rfl)
  have finds := keeps.snoc
    (by exact ⟨by rintro ((_ | thread) | _ | index) <;> rfl, fun _ => rfl⟩)
    (show completionMachine.remember.step _ (.wait (.thread 0) 5) = some (_, _) from rfl)
  exact completion_matches finds

/-- The flag stays set where a wait finds it set, and a waiter whose time has run out
cleans a flag that has been set since. -/
theorem completion_mismatches :
    (∃ actions events system, completionMachine.Run CompletionSystem.OneWaiter .start actions events
      system ∧ ¬ Matched events) ∧
    ∃ actions events system, completionMachine.Run CompletionSystem.OneWaiter .start actions events
      system ∧ ¬ Answered events := by
  have looked : completionMachine.Run CompletionSystem.OneWaiter .start _ _ _ :=
    .snoc .nil (by trivial)
      (show completionMachine.step _ (.done (.handler 0)) = some (_, _) from rfl)
  have kept := looked.snoc (by trivial)
    (show completionMachine.step _ (.set (.handler 0)) = some (_, _) from rfl)
  have first := kept.snoc (by rintro (thread | _ | index) <;> rfl)
    (show completionMachine.step _ (.wait (.thread 0) 5) = some (_, _) from rfl)
  have second := first.snoc (by rintro (thread | _ | index) <;> rfl)
    (show completionMachine.step _ (.wait (.thread 0) 5) = some (_, _) from rfl)
  have blocked : completionMachine.Run CompletionSystem.OneWaiter .start _ _ _ :=
    .snoc .nil (by rintro (thread | index) <;> rfl)
      (show completionMachine.step _ (.wait (.thread 0) 5) = some (_, _) from rfl)
  have expired := blocked.snoc (by trivial)
    (show completionMachine.step _ (.expire 0) = some (_, _) from rfl)
  have looks := expired.snoc (by trivial)
    (show completionMachine.step _ (.done (.handler 0)) = some (_, _) from rfl)
  have sets := looks.snoc (by trivial)
    (show completionMachine.step _ (.set (.handler 0)) = some (_, _) from rfl)
  have wakes := sets.snoc (by trivial)
    (show completionMachine.step _ (.wake 0) = some (_, _) from rfl)
  have waits := wakes.snoc (by rintro ((_ | thread) | _ | index) <;> rfl)
    (show completionMachine.step _ (.wait (.thread 0) 0) = some (_, _) from rfl)
  constructor
  · refine ⟨_, _, _, second, fun matched => ?_⟩
    exact absurd (matched _ List.prefix_rfl) (by decide)
  · refine ⟨_, _, _, waits, fun answered => ?_⟩
    have next := answered [.blocked] [.returned .etimeout true, .returned .etimeout false] rfl
      (.returned .etimeout false) rfl
    cases next

end RtThread
