import RtThread.Kernel.Moves

/-!
# Delivery of events to waiters

`rt_event_send` tests the waiters itself and clears events while it walks along
the list. The outcome is the same as if each waiter in turn had called
`rt_event_recv` without waiting: both take from the event what `takeEvents` says.
-/

namespace RtThread

open RtThread.Std

/-! ## Taking events -/

/-- What an event with the given set gives to a thread that wants some of it, and
what it is left with. -/
def takeEvents (option : BitVec 8) (wanted set : BitVec 32) : Option (BitVec 32 × BitVec 32) :=
  if eventSatisfies option wanted set then
    some (set &&& wanted, if option &&& eventFlagClear ≠ 0#8 then set &&& ~~~wanted else set)
  else none

/-- Events that have been cleared satisfy nobody. -/
theorem eventSatisfies_mono {option : BitVec 8} {wanted set mask : BitVec 32}
    (satisfied : eventSatisfies option wanted (set &&& mask) = true) :
    eventSatisfies option wanted set = true := by
  unfold eventSatisfies at satisfied ⊢
  split at satisfied
  · rename_i all
    rw [if_pos all]
    have whole : set &&& mask &&& wanted = wanted := by simpa using satisfied
    have inside : set &&& wanted = wanted := by
      calc set &&& wanted = set &&& (set &&& mask &&& wanted) := by rw [whole]
        _ = set &&& mask &&& wanted := by
            rw [BitVec.and_assoc, ← BitVec.and_assoc set set, BitVec.and_self]
        _ = wanted := whole
    simpa using inside
  · rename_i all
    rw [if_neg all]
    split at satisfied
    · rename_i any
      rw [if_pos any]
      have some : set &&& mask &&& wanted ≠ 0#32 := by simpa using satisfied
      have reaches : set &&& wanted ≠ 0#32 := by
        intro none
        refine some ?_
        rw [BitVec.and_assoc, BitVec.and_comm mask, ← BitVec.and_assoc, none, BitVec.zero_and]
      simpa using reaches
    · cases satisfied

theorem takeEvents_left {option : BitVec 8} {wanted set word left : BitVec 32}
    (takes : takeEvents option wanted set = some (word, left)) : ∃ mask, left = set &&& mask := by
  obtain ⟨-, pair⟩ := Option.ite_none_right_eq_some.mp takes
  obtain ⟨-, rfl⟩ := Prod.mk.inj (Option.some_inj.mp pair)
  split
  · exact ⟨_, rfl⟩
  · exact ⟨set, (BitVec.and_self ..).symm⟩

/-- What `rt_event_send` keeps for a waiter, and what it clears. -/
theorem takeEvents_received {record : Thread} {set : BitVec 32}
    (satisfied : eventSatisfies record.eventInfo record.eventSet set = true) :
    takeEvents record.eventInfo record.eventSet set =
      some (receivedEvents record set, if record.eventInfo &&& eventFlagClear ≠ 0#8 then
        set &&& ~~~receivedEvents record set else set) := by
  have received : set &&& record.eventSet = receivedEvents record set := by
    unfold receivedEvents
    split
    · rename_i all
      rw [eventSatisfies, if_pos all] at satisfied
      simpa using satisfied
    · exact BitVec.and_comm ..
  have cleared : set &&& ~~~record.eventSet = set &&& ~~~receivedEvents record set := by
    rw [← received]
    ext index bound
    simp only [BitVec.getElem_and, BitVec.getElem_not]
    cases set[index] <;> rfl
  rw [takeEvents, if_pos satisfied, received, cleared]

/-! ## Receiving in turn -/

/-- The word that a call which has returned `RT_EOK` has stored. -/
def Outcome.word : Outcome → Option (BitVec 32)
  | .returns .eok output => output
  | _ => none

/-- Each waiter calls `rt_event_recv` with its own set and option and does not
wait; the words are what they store. -/
def recvInTurn (event : Nat) (kernel : Kernel) :
    List ThreadId → Option (Kernel × List (Option (BitVec 32)))
  | [] => some (kernel, [])
  | thread :: queue => do
    let record := kernel.threads thread
    let (next, outcome) ← rtEventRecv { kernel with rtCurrentThread := .thread thread } event
      record.eventSet record.eventInfo 0
    let (final, words) ← recvInTurn event next queue
    pure (final, outcome.word :: words)

/-- The threads that have stored no word, in order. -/
def stillQueued (queue : List ThreadId) (words : List (Option (BitVec 32))) : List ThreadId :=
  (queue.zip words).filterMap fun (thread, word) => if word.isNone then some thread else none

/-- The kernels agree on what the event holds and what the threads want. -/
structure SameEvents (event : Nat) (kernel shadow : Kernel) (queue : List ThreadId) : Prop where
  set : (shadow.events event).set = (kernel.events event).set
  wanted : ∀ thread ∈ queue, (shadow.threads thread).eventSet = (kernel.threads thread).eventSet
  option : ∀ thread ∈ queue, (shadow.threads thread).eventInfo = (kernel.threads thread).eventInfo

theorem clearEvent_set (kernel : Kernel) (event : Nat) (option : BitVec 8) (set : BitVec 32) :
    ((clearEvent kernel event option set).events event).set =
      if option &&& eventFlagClear ≠ 0#8 then (kernel.events event).set &&& ~~~set
      else (kernel.events event).set := by
  unfold clearEvent
  dsimp only
  split <;> simp [Kernel.setEvent]

/-- A thread's error says nothing about what it wants. -/
theorem setError_wants (kernel : Kernel) (thread other : ThreadId) (result : Err) :
    ((kernel.setError thread result).threads other).eventSet = (kernel.threads other).eventSet ∧
      ((kernel.setError thread result).threads other).eventInfo =
        (kernel.threads other).eventInfo := by
  by_cases same : other = thread
  · subst same
    simp [Kernel.setError, Kernel.setThread]
  · simp [Kernel.setError, Kernel.setThread, same]

/-- A call of `rt_event_recv` that does not wait. -/
theorem rtEventRecv_take {kernel : Kernel} {event : Nat} {thread : ThreadId}
    {option : BitVec 8} {wanted : BitVec 32} (nonzero : wanted ≠ 0#32) :
    ∃ next outcome, rtEventRecv { kernel with rtCurrentThread := .thread thread } event wanted
        option 0 = some (next, outcome) ∧
      outcome.word = (takeEvents option wanted (kernel.events event).set).map Prod.fst ∧
      (next.events event).set =
        ((takeEvents option wanted (kernel.events event).set).map Prod.snd).getD
          (kernel.events event).set ∧
      ∀ other, (next.threads other).eventSet = (kernel.threads other).eventSet ∧
        (next.threads other).eventInfo = (kernel.threads other).eventInfo := by
  let current : Kernel := { kernel with rtCurrentThread := .thread thread }
  by_cases satisfied : eventSatisfies option wanted (kernel.events event).set = true
  · refine ⟨clearEvent (current.setError thread .eok) event option wanted,
      .returns .eok (some ((kernel.events event).set &&& wanted)), ?_, ?_, ?_, ?_⟩
    · rw [rtEventRecv, if_neg nonzero]
      exact if_pos satisfied
    · rw [takeEvents, if_pos satisfied]
      rfl
    · rw [takeEvents, if_pos satisfied]
      exact clearEvent_set _ event option wanted
    · intro other
      rw [clearEvent_threads]
      exact setError_wants current thread other .eok
  · refine ⟨(current.setError thread .eok).setError thread .etimeout, .returns .etimeout none,
      ?_, ?_, ?_, ?_⟩
    · rw [rtEventRecv, if_neg nonzero]
      exact (if_neg satisfied).trans (if_pos rfl)
    · rw [takeEvents, if_neg satisfied]
      rfl
    · rw [takeEvents, if_neg satisfied]
      rfl
    · intro other
      have first := setError_wants current thread other .eok
      have second := setError_wants (current.setError thread .eok) thread other .etimeout
      exact ⟨second.1.trans first.1, second.2.trans first.2⟩

/-! ## Sending -/

section

variable {kernel : Kernel} {home : ThreadId → Option ThreadNode} {event : Nat} {thread : ThreadId}

/-- A satisfied waiter in the loop of `rt_event_send`. -/
theorem resumeSatisfied_take (inv : WaitInv kernel home)
    (waits : kernel.Waits (.event event) thread)
    (satisfied : eventSatisfies (kernel.threads thread).eventInfo (kernel.threads thread).eventSet
      (kernel.events event).set = true) :
    ∃ word left, takeEvents (kernel.threads thread).eventInfo (kernel.threads thread).eventSet
        (kernel.events event).set = some (word, left) ∧
      ((resumeSatisfied kernel event thread).events event).set = left ∧
      Resumes kernel (resumeSatisfied kernel event thread) thread (kernel.threads thread).error ∧
      ((resumeSatisfied kernel event thread).threads thread).eventSet = word ∧
      ∀ other, other ≠ thread → Rests kernel (resumeSatisfied kernel event thread) other := by
  have suspended := inv.suspended_of_waits waits
  let saved := saveReceived kernel event thread
  have savedThreads : saved.threads = _ := saveReceived_threads kernel event thread
  have savedEvents : (saved.events event).set = (kernel.events event).set :=
    congrArg (fun objects => (Objects.events objects event).set)
      (saveReceived_objects kernel event thread)
  let record := saved.threads thread
  have received : record.eventSet =
      receivedEvents (kernel.threads thread) (kernel.events event).set := by
    rw [show record.eventSet = (saved.threads thread).eventSet from rfl, savedThreads,
      Function.update_self]
  have info : record.eventInfo = (kernel.threads thread).eventInfo := by
    rw [show record.eventInfo = (saved.threads thread).eventInfo from rfl, savedThreads,
      Function.update_self]
  let cleared := clearEvent saved event record.eventInfo record.eventSet
  have clearedInv : WaitInv cleared home :=
    (clearEvent_keeps (saveReceived_keeps inv event thread).1 event _ _).1
  have clearedThreads : cleared.threads = _ :=
    (clearEvent_threads saved event _ _).trans savedThreads
  have clearedLinks : cleared.threadLinks = kernel.threadLinks :=
    (clearEvent_links saved event _ _).trans (saveReceived_links kernel event thread)
  have clearedWaits : cleared.Waits (.event event) thread := by
    rw [Kernel.Waits, clearedLinks]
    exact waits
  have clearedRests : ∀ other, other ≠ thread → Rests kernel cleared other :=
    fun other apart => .of_same (by rw [clearedThreads, Function.update_of_ne apart]) clearedLinks
  obtain ⟨resumes, rests⟩ := resume_one clearedInv clearedWaits
  have records := rtThreadResume_threads (clearedInv.suspended_of_waits clearedWaits)
  refine ⟨_, _, takeEvents_received satisfied, ?_, ⟨suspended, resumes.ready, ?_, resumes.loose⟩,
    ?_, fun other apart => (clearedRests other apart).trans (rests other apart)⟩
  · have events : (resumeSatisfied kernel event thread).events = cleared.events :=
      congrArg Objects.events (rtThreadResume_sameRest cleared thread).objects
    rw [events, clearEvent_set, received, info, savedEvents]
  · refine resumes.error.trans ?_
    rw [clearedThreads, Function.update_self]
  · change ((rtThreadResume cleared thread).2.threads thread).eventSet = _
    rw [records, Function.update_self, clearedThreads, Function.update_self]

/-- What has become of the waiters of an event. -/
structure Delivered (event : Nat) (kernel next : Kernel) (queue : List ThreadId)
    (words : List (Option (BitVec 32))) : Prop where
  /-- Exactly the threads that receive something are resumed, and that is what
  they find in their own record. -/
  waiters : List.Forall₂ (fun thread word => match word with
    | some word => Resumes kernel next thread (kernel.threads thread).error ∧
        (next.threads thread).eventSet = word
    | none => Rests kernel next thread ∧
        eventSatisfies (kernel.threads thread).eventInfo (kernel.threads thread).eventSet
          (next.events event).set = false) queue words
  others : ∀ thread, thread ∉ queue → Rests kernel next thread
  /-- Events have only been cleared. -/
  cleared : ∃ mask, (next.events event).set = (kernel.events event).set &&& mask

/-- The walk of `rt_event_send` does what the waiters would do in turn. -/
theorem deliver_in_turn (left : List ThreadId) {queue : List ThreadId} {shadow : Kernel}
    (need : Bool) (inv : WaitInv kernel home)
    (queued : Queued kernel (.event event) (left ++ queue))
    (wanted : ∀ thread ∈ queue, (kernel.threads thread).eventSet ≠ 0#32)
    (same : SameEvents event kernel shadow queue) :
    ∃ final words, recvInTurn event shadow queue = some (final, words) ∧
      (final.events event).set =
        ((queue.foldl (deliverTo event) (kernel, need)).1.events event).set ∧
      Delivered event kernel (queue.foldl (deliverTo event) (kernel, need)).1 queue words ∧
      Queued (queue.foldl (deliverTo event) (kernel, need)).1 (.event event)
        (left ++ stillQueued queue words) ∧
      (queue.foldl (deliverTo event) (kernel, need)).2 =
        (need || words.any Option.isSome) := by
  induction queue generalizing kernel home shadow left need with
  | nil =>
      exact ⟨shadow, [], rfl, same.set, ⟨.nil, fun _ _ => .refl kernel _, (kernel.events event).set,
        (BitVec.and_self ..).symm⟩, queued, by simp⟩
  | cons thread queue ih =>
      have nonzero : (shadow.threads thread).eventSet ≠ 0#32 := by
        rw [same.wanted thread (by simp)]
        exact wanted thread (by simp)
      obtain ⟨next, outcome, recv, word, set, kept⟩ := @rtEventRecv_take shadow event thread
        (shadow.threads thread).eventInfo _ nonzero
      rw [same.set, same.wanted thread (by simp), same.option thread (by simp)] at word set
      have fresh : ∀ other ∈ queue, other ≠ thread := by
        rintro other member rfl
        have nodup := (List.nodup_append.mp queued.nodup).2.1
        exact (List.nodup_cons.mp nodup).1 member
      have waits : kernel.Waits (.event event) thread := (queued.waits_iff thread).mpr (by simp)
      have continues : ∀ final words, recvInTurn event next queue = some (final, words) →
          recvInTurn event shadow (thread :: queue) = some (final, outcome.word :: words) := by
        intro final words rest
        simp only [recvInTurn, recv, Option.bind_eq_bind, Option.bind_some, rest, Option.pure_def]
      rw [List.foldl_cons, deliverTo]
      dsimp only
      split
      · rename_i satisfied
        obtain ⟨received, rest, takes, set', resumes, eventSet, rests⟩ :=
          resumeSatisfied_take inv waits satisfied
        rw [takes] at word set
        obtain ⟨⟨home', inv'⟩, -⟩ := resumeSatisfied_keeps inv event thread
        have same' : SameEvents event (resumeSatisfied kernel event thread) next queue := by
          refine ⟨set.trans set'.symm, ?_, ?_⟩
          · intro other member
            rw [(kept other).1, same.wanted other (by simp [member]),
              (rests other (fresh other member)).eventSet]
          · intro other member
            rw [(kept other).2, same.option other (by simp [member]),
              (rests other (fresh other member)).eventInfo]
        obtain ⟨final, words, turns, sets, delivered, queued', scheduled⟩ := ih left true inv'
          (queued.resumeSatisfied resumes.suspended)
          (fun other member => by
            rw [(rests other (fresh other member)).eventSet]
            exact wanted other (by simp [member])) same'
        have stays := delivered.others thread fun member => fresh thread member rfl
        refine ⟨final, some received :: words, ?_, sets, ⟨?_, ?_, ?_⟩, ?_, ?_⟩
        · rw [continues final words turns, word]
          rfl
        · refine .cons ⟨resumes.then_rests stays, stays.eventSet.trans eventSet⟩ ?_
          refine List.Forall₂.imp ?_ ((List.forall₂_and_left _ _).mpr ⟨fresh, delivered.waiters⟩)
          rintro other word ⟨apart, deal⟩
          have before := rests other apart
          cases word with
          | some word =>
              refine ⟨before.then_resumes ?_, deal.2⟩
              rw [← before.error]
              exact deal.1
          | none =>
              refine ⟨before.trans deal.1, ?_⟩
              rw [← before.eventSet, ← before.eventInfo]
              exact deal.2
        · intro other absent
          simp only [List.mem_cons, not_or] at absent
          exact (rests other absent.1).trans (delivered.others other absent.2)
        · obtain ⟨mask, first⟩ := takeEvents_left takes
          obtain ⟨mask', second⟩ := delivered.cleared
          exact ⟨mask &&& mask', by rw [second, set', first, BitVec.and_assoc]⟩
        · simpa [stillQueued] using queued'
        · simpa using scheduled
      · rename_i unsatisfied
        rw [takeEvents, if_neg unsatisfied] at word set
        have same' : SameEvents event kernel next queue := by
          refine ⟨set, ?_, ?_⟩
          · intro other member
            rw [(kept other).1, same.wanted other (by simp [member])]
          · intro other member
            rw [(kept other).2, same.option other (by simp [member])]
        obtain ⟨final, words, turns, sets, delivered, queued', scheduled⟩ := ih (left ++ [thread])
          need inv (by simpa using queued) (fun other member => wanted other (by simp [member]))
          same'
        have stays := delivered.others thread fun member => fresh thread member rfl
        refine ⟨final, none :: words, ?_, sets, ⟨.cons ⟨stays, ?_⟩ delivered.waiters, ?_,
          delivered.cleared⟩, ?_, ?_⟩
        · rw [continues final words turns, word]
          rfl
        · obtain ⟨mask, cleared⟩ := delivered.cleared
          rw [cleared]
          refine Bool.eq_false_iff.mpr fun satisfied => unsatisfied (eventSatisfies_mono satisfied)
        · intro other absent
          simp only [List.mem_cons, not_or] at absent
          exact delivered.others other absent.2
        · simpa [stillQueued] using queued'
        · simpa using scheduled

/-- `rt_event_send` gives the waiters what they would have received in turn. -/
def SendsInTurn (event : Nat) (kernel : Kernel) (set : BitVec 32) (queue : List ThreadId)
    (next : Kernel) (words : List (Option (BitVec 32))) : Prop :=
  ∃ final outcome, rtEventSend kernel event set = some (next, outcome) ∧
    recvInTurn event (postEvent kernel event set) queue = some (final, words) ∧
    (next.events event).set = (final.events event).set ∧
    Delivered event (postEvent kernel event set) next queue words ∧
    Queued next (.event event) (stillQueued queue words)

theorem postEvent_zero (kernel : Kernel) (event : Nat) : postEvent kernel event 0#32 = kernel := by
  simp [postEvent, Kernel.setEvent]

/-- The walk passes over threads that are not satisfied. -/
theorem deliver_unsatisfied {queue : List ThreadId} (need : Bool)
    (unsatisfied : ∀ thread ∈ queue, eventSatisfies (kernel.threads thread).eventInfo
      (kernel.threads thread).eventSet (kernel.events event).set = false) :
    queue.foldl (deliverTo event) (kernel, need) = (kernel, need) := by
  induction queue with
  | nil => rfl
  | cons thread queue ih =>
      have skips : deliverTo event (kernel, need) thread = (kernel, need) := by
        rw [deliverTo]
        exact if_neg (by simp [unsatisfied thread (by simp)])
      rw [List.foldl_cons, skips]
      exact ih fun other member => unsatisfied other (by simp [member])

/-- Sending nothing is refused, which makes no difference when nobody is
satisfied. -/
theorem rtEventSend_in_turn {queue : List ThreadId} {set : BitVec 32} (inv : WaitInv kernel home)
    (queued : Queued kernel (.event event) queue)
    (wanted : ∀ thread ∈ queue, (kernel.threads thread).eventSet ≠ 0#32)
    (useful : set ≠ 0#32 ∨ ∀ thread ∈ queue, eventSatisfies (kernel.threads thread).eventInfo
      (kernel.threads thread).eventSet (kernel.events event).set = false) :
    ∃ next words, SendsInTurn event kernel set queue next words := by
  have posted : WaitInv (postEvent kernel event set) home := inv.setEvent event _
  have queued₀ : Queued (postEvent kernel event set) (.event event) ([] ++ queue) :=
    queued.congr rfl
  have same : SameEvents event (postEvent kernel event set) (postEvent kernel event set) queue :=
    ⟨rfl, fun _ _ => rfl, fun _ _ => rfl⟩
  obtain ⟨final, words, turns, sets, delivered, queued', -⟩ :=
    deliver_in_turn [] false posted queued₀ wanted same
  by_cases nonzero : set = 0#32
  · subst nonzero
    have unsatisfied := useful.resolve_left (by simp)
    rw [postEvent_zero, deliver_unsatisfied false unsatisfied] at sets delivered queued'
    refine ⟨kernel, words, final, .returns .error none, if_pos rfl, turns, sets.symm, ?_, queued'⟩
    rwa [postEvent_zero]
  · exact ⟨_, words, final, _, rtEventSend_eq ⟨home, inv⟩ queued nonzero rfl, turns, sets.symm,
      delivered, queued'⟩

/-- What becomes of one waiter. -/
theorem Delivered.waiter {next : Kernel} {queue : List ThreadId}
    {words : List (Option (BitVec 32))} (delivered : Delivered event kernel next queue words)
    (member : thread ∈ queue) :
    (∃ word, (thread, some word) ∈ queue.zip words) ∨
      Rests kernel next thread ∧ eventSatisfies (kernel.threads thread).eventInfo
        (kernel.threads thread).eventSet (next.events event).set = false := by
  have waiters := delivered.waiters
  clear delivered
  induction waiters with
  | nil => cases member
  | @cons first word queue words deal rest ih =>
      rcases List.mem_cons.mp member with rfl | member
      · cases word with
        | some word => exact Or.inl ⟨word, by simp⟩
        | none => exact Or.inr deal
      · rcases ih member with ⟨word, paired⟩ | rests
        · exact Or.inl ⟨word, by simp [paired]⟩
        · exact Or.inr rests

/-- A thread that receives a word is resumed and finds it in its own record. -/
theorem Delivered.receiver {next : Kernel} {queue : List ThreadId} {word : BitVec 32}
    {words : List (Option (BitVec 32))} (delivered : Delivered event kernel next queue words)
    (member : (thread, some word) ∈ queue.zip words) :
    Resumes kernel next thread (kernel.threads thread).error ∧
      (next.threads thread).eventSet = word := by
  have waiters := delivered.waiters
  clear delivered
  induction waiters with
  | nil => simp at member
  | @cons first other queue words deal rest ih =>
      rcases List.mem_cons.mp member with same | member
      · obtain ⟨rfl, rfl⟩ := Prod.mk.inj same
        exact deal
      · exact ih member

end

end RtThread
