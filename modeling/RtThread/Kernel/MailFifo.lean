import RtThread.Kernel.MailRuns

/-!
# The order of mails

A mail is accepted and handed out in the section that changes the ring. The call
returns `RT_EOK` later, perhaps after other calls; until then its context is
about to return. What each context has been told agrees with the order in which
the sections have taken place.
-/

namespace RtThread

open RtThread.Std

/-! ## What a context has been told -/

/-- The value that the call sends to the mailbox. -/
def Call.sentTo (mailbox : Nat) : Call → Option (BitVec 32)
  | .mbSendWait index value _ => if index = mailbox then some value else none
  | _ => none

def Call.receivesFrom (mailbox : Nat) : Call → Bool
  | .mbRecv index _ => index = mailbox
  | _ => false

/-- The call that is about to return `RT_EOK`. -/
def Frame.passing (frame : Option Frame) : Option Call :=
  frame.bind fun frame =>
    if frame.point = .reschedule ∨ frame.point = .returning then some frame.call else none

/-- The value of a send that is about to return `RT_EOK`. -/
def pendingSend (mailbox : Nat) (frame : Option Frame) : List (BitVec 32) :=
  ((Frame.passing frame).bind (Call.sentTo mailbox)).toList

/-- The value of a send that has returned `RT_EOK` in the context. -/
def Notice.sent (mailbox : Nat) (context : Context) : Notice → Option (BitVec 32)
  | .returned other call .eok => if other = context then call.sentTo mailbox else none
  | _ => none

/-- What receiving from a mailbox has returned in a context, and the word that has
been stored for it by the call that has not returned yet. -/
structure Inbox where
  returned : List (BitVec 32)
  stored : Option (BitVec 32)

def Inbox.record (mailbox : Nat) (context : Context) (inbox : Inbox) : Notice → Inbox
  | .stored other word => if other = context then { inbox with stored := some word } else inbox
  | .returned other call result =>
    if other = context then
      { returned := if call.receivesFrom mailbox ∧ result = .eok then
          inbox.returned ++ inbox.stored.toList else inbox.returned
        stored := none }
    else inbox
  | .timerStarted _ _ => inbox

/-- The inbox after some notices. -/
def inboxAfter (mailbox : Nat) (context : Context) (notices : List Notice) : Inbox :=
  notices.foldl (Inbox.record mailbox context) ⟨[], none⟩

/-- The word that a receive which is about to return `RT_EOK` will return. -/
def pendingReceive (mailbox : Nat) (frame : Option Frame) (inbox : Inbox) : List (BitVec 32) :=
  if (Frame.passing frame).any (Call.receivesFrom mailbox) then inbox.stored.toList else []

namespace MailNote

def acceptedValue : MailNote → Option (BitVec 32)
  | accepted _ value => some value
  | received _ _ => none

def receivedValue : MailNote → Option (BitVec 32)
  | accepted _ _ => none
  | received _ value => some value

def context : MailNote → Context
  | accepted context _ | received context _ => context

/-- The values that have been accepted from the context. -/
def acceptedFrom (notes : List MailNote) (context : Context) : List (BitVec 32) :=
  (notes.filter fun note => note.context = context).filterMap acceptedValue

/-- The values that have been handed out to the context. -/
def receivedBy (notes : List MailNote) (context : Context) : List (BitVec 32) :=
  (notes.filter fun note => note.context = context).filterMap receivedValue

end MailNote

/-! ## One step -/

/-- The section has done what the call is for. -/
def Outcome.passes : Outcome → Bool
  | .returns .eok _ | .reschedules _ => true
  | _ => false

def Outcome.output : Outcome → Option (BitVec 32)
  | .returns _ output | .reschedules output => output
  | .suspends _ => none

section

variable {system next : System} {action : Action} {emitted : List Notice} {mailbox : Nat}

theorem settle_sent (system : System) (mailbox : Nat) (context : Context) (call : Call)
    (kernel : Kernel) (outcome : Outcome) :
    (system.settle context call kernel outcome).2.filterMap (Notice.sent mailbox context) ++
        pendingSend mailbox ((system.settle context call kernel outcome).1.frames context) =
      if outcome.passes then (call.sentTo mailbox).toList else [] := by
  cases outcome with
  | returns result output =>
      cases output <;> cases result <;> cases sent : call.sentTo mailbox <;>
        simp [System.settle, List.filterMap_cons, Notice.sent, pendingSend, Frame.passing,
          Outcome.passes, sent]
  | suspends timer =>
      cases timer <;>
        simp [System.settle, Notice.sent, pendingSend, Frame.passing, Outcome.passes]
  | reschedules output =>
      cases output <;>
        simp [System.settle, Notice.sent, pendingSend, Frame.passing, Outcome.passes]

theorem settle_inbox (system : System) (mailbox : Nat) (context : Context) (call : Call)
    (kernel : Kernel) (outcome : Outcome) (inbox : Inbox) :
    ((system.settle context call kernel outcome).2.foldl (Inbox.record mailbox context)
        inbox).returned ++
      pendingReceive mailbox ((system.settle context call kernel outcome).1.frames context)
        ((system.settle context call kernel outcome).2.foldl (Inbox.record mailbox context) inbox) =
    inbox.returned ++ if outcome.passes ∧ call.receivesFrom mailbox then
      (outcome.output.or inbox.stored).toList else [] := by
  cases outcome with
  | returns result output =>
      cases output <;> cases result <;> cases receives : call.receivesFrom mailbox <;>
        simp [System.settle, Inbox.record, pendingReceive, Frame.passing, Outcome.passes,
          Outcome.output, receives]
  | suspends timer =>
      cases timer <;> simp [System.settle, Inbox.record, pendingReceive, Frame.passing,
        Outcome.passes]
  | reschedules output =>
      cases output <;> cases receives : call.receivesFrom mailbox <;>
        simp [System.settle, Inbox.record, pendingReceive, Frame.passing, Outcome.passes,
          Outcome.output, receives]

theorem Call.sentTo_eq {call : Call} {side : MailSide} (sided : call.mailSide mailbox = some side) :
    call.sentTo mailbox = (match side with
      | .sends value => some value
      | .receives => none) ∧ call.receivesFrom mailbox = (match side with
      | .sends _ => false
      | .receives => true) := by
  cases call <;> simp only [Call.mailSide, reduceCtorEq, Option.ite_none_right_eq_some,
    Option.some.injEq] at sided
  · obtain ⟨rfl, rfl⟩ := sided
    simp [Call.sentTo, Call.receivesFrom]
  · obtain ⟨rfl, rfl⟩ := sided
    simp [Call.sentTo, Call.receivesFrom]

/-- A call that neither sends to the mailbox nor receives from it. -/
theorem Call.sentTo_none {call : Call} (foreign : call.mailSide mailbox = none) :
    call.sentTo mailbox = none ∧ call.receivesFrom mailbox = false := by
  cases call <;> simp_all [Call.mailSide, Call.sentTo, Call.receivesFrom]

theorem Call.Loops.of_mailSide {call : Call} (straight : ¬ call.Loops) :
    call.mailSide mailbox = none := by
  cases call <;> first | rfl | exact absurd trivial straight

/-- What a section notes is what it has done. -/
theorem MailRound.notes {call : Call} {side : MailSide} {context : Context} {kernel : Kernel}
    {outcome : Outcome} {self : Option ThreadId} (sided : call.mailSide mailbox = some side)
    (round : MailRound self system.kernel mailbox side kernel outcome)
    (here : ∃ before, action.section system = some (context, before) ∧
      before.mailSide mailbox = some side) (stored : Option (BitVec 32)) :
    MailNote.acceptedFrom (mailNotes mailbox system action) context =
        (if outcome.passes then (call.sentTo mailbox).toList else []) ∧
      MailNote.receivedBy (mailNotes mailbox system action) context =
        if outcome.passes ∧ call.receivesFrom mailbox then (outcome.output.or stored).toList
        else [] := by
  obtain ⟨earlier, section', sided'⟩ := here
  obtain ⟨sends, receives⟩ := Call.sentTo_eq sided
  rw [mailNotes_of_section section' sided', sends, receives]
  cases round with
  | expires blocked record others =>
      cases side <;> simp [blocked, MailNote.acceptedFrom, MailNote.receivedBy, Outcome.passes,
        MailSide.expires]
  | waits blocked record others =>
      cases side <;> simp [blocked, MailNote.acceptedFrom, MailNote.receivedBy, Outcome.passes]
  | serves free record nobody =>
      cases side <;> simp [free, MailNote.acceptedFrom, MailNote.receivedBy, Outcome.passes,
        Outcome.output, MailSide.note, MailSide.output, MailNote.context, MailNote.acceptedValue,
        MailNote.receivedValue]
  | resumes free record waited resumes others =>
      cases side <;> simp [free, MailNote.acceptedFrom, MailNote.receivedBy, Outcome.passes,
        Outcome.output, MailSide.note, MailSide.output, MailNote.context, MailNote.acceptedValue,
        MailNote.receivedValue]

/-- What the contexts have been told is what has happened to the ring. -/
structure MailAccount (mailbox : Nat) (notes : List MailNote) (notices : List Notice)
    (system : System) : Prop where
  sends : ∀ context, MailNote.acceptedFrom notes context =
    notices.filterMap (Notice.sent mailbox context) ++ pendingSend mailbox (system.frames context)
  receives : ∀ context, MailNote.receivedBy notes context =
    (inboxAfter mailbox context notices).returned ++
      pendingReceive mailbox (system.frames context) (inboxAfter mailbox context notices)

/-- One step tells its own context no more and no less than it does. -/
structure MailEntry (mailbox : Nat) (context : Context) (system : System) (noted : List MailNote)
    (next : System) (emitted : List Notice) : Prop where
  sends : pendingSend mailbox (system.frames context) ++ MailNote.acceptedFrom noted context =
    emitted.filterMap (Notice.sent mailbox context) ++ pendingSend mailbox (next.frames context)
  receives : ∀ inbox : Inbox,
    inbox.returned ++ pendingReceive mailbox (system.frames context) inbox ++
      MailNote.receivedBy noted context =
    (emitted.foldl (Inbox.record mailbox context) inbox).returned ++
      pendingReceive mailbox (next.frames context)
        (emitted.foldl (Inbox.record mailbox context) inbox)

theorem MailAccount.step {notes : List MailNote} {notices : List Notice}
    (account : MailAccount mailbox notes notices system) {noted : List MailNote}
    (entries : ∀ context, MailEntry mailbox context system noted next emitted) :
    MailAccount mailbox (notes ++ noted) (notices ++ emitted) next := by
  constructor
  · intro context
    have before := account.sends context
    have entry := (entries context).sends
    simp only [MailNote.acceptedFrom, List.filter_append, List.filterMap_append] at before entry ⊢
    rw [before, List.append_assoc, entry, List.append_assoc]
  · intro context
    have before := account.receives context
    have entry := (entries context).receives (inboxAfter mailbox context notices)
    simp only [MailNote.receivedBy, List.filter_append, List.filterMap_append] at before entry ⊢
    rw [before, entry, inboxAfter, inboxAfter, List.foldl_append]

theorem Action.context_of_section {context : Context} {call : Call}
    (here : action.section system = some (context, call)) : action.context = some context := by
  cases action with
  | enter other entered =>
      obtain ⟨rfl, rfl⟩ := Prod.mk.inj (Option.some_inj.mp here)
      rfl
  | advance other =>
      obtain ⟨frame, there, here⟩ := Option.bind_eq_some_iff.mp here
      obtain ⟨-, same⟩ := Option.ite_none_right_eq_some.mp here
      obtain ⟨rfl, rfl⟩ := Prod.mk.inj (Option.some_inj.mp same)
      rfl
  | _ => cases here

/-- A section notes what it does for its own context. -/
theorem mailNotes_context {note : MailNote} (noted : note ∈ mailNotes mailbox system action) :
    action.context = some note.context := by
  obtain ⟨⟨context, call⟩, here, step⟩ := Option.bind_eq_some_iff.mp (Option.mem_toList.mp noted)
  obtain ⟨side, sided, step⟩ := Option.bind_eq_some_iff.mp step
  split at step
  · cases step
  · obtain rfl := Option.some_inj.mp step
    rw [Action.context_of_section here]
    cases side <;> rfl

/-- A context that takes no step is told nothing. -/
theorem MailEntry.of_other {context : Context} (move : Move system action next emitted)
    (apart : action.context ≠ some context) :
    MailEntry mailbox context system (mailNotes mailbox system action) next emitted := by
  have silent : ∀ notice ∈ emitted, notice.context ≠ context := by
    intro notice shown same
    exact apart ((move.notices_context notice shown).trans (congrArg some same))
  have unnoted : (mailNotes mailbox system action).filter
      (fun note => note.context = context) = [] := by
    rw [List.filter_eq_nil_iff]
    intro note noted same
    exact apart ((mailNotes_context noted).trans (congrArg some (of_decide_eq_true same)))
  have sent : emitted.filterMap (Notice.sent mailbox context) = [] := by
    rw [List.filterMap_eq_nil_iff]
    intro notice shown
    have different := silent notice shown
    cases notice with
    | returned other call result => cases result <;> simp_all [Notice.sent, Notice.context]
    | stored other word => rfl
    | timerStarted other result => rfl
  have kept : ∀ inbox : Inbox, emitted.foldl (Inbox.record mailbox context) inbox = inbox := by
    intro inbox
    rw [List.foldl_ext _ (fun inbox _ => inbox) inbox ?_, List.foldl_fixed]
    intro inbox notice shown
    have different := silent notice shown
    cases notice <;> simp_all [Inbox.record, Notice.context]
  refine ⟨?_, ?_⟩
  · simp [MailNote.acceptedFrom, unnoted, sent, move.frames_other apart]
  · intro inbox
    simp [MailNote.receivedBy, unnoted, kept, move.frames_other apart]

theorem MailEntry.of_section {context : Context} {call : Call} {kernel : Kernel}
    {outcome : Outcome} {noted : List MailNote}
    (before : Frame.passing (system.frames context) = none)
    (sends : MailNote.acceptedFrom noted context =
      if outcome.passes then (call.sentTo mailbox).toList else [])
    (receives : ∀ stored, MailNote.receivedBy noted context =
      if outcome.passes ∧ call.receivesFrom mailbox then (outcome.output.or stored).toList else []) :
    MailEntry mailbox context system noted (system.settle context call kernel outcome).1
      (system.settle context call kernel outcome).2 := by
  constructor
  · rw [settle_sent, sends, pendingSend, before]
    rfl
  · intro inbox
    rw [settle_inbox, receives inbox.stored, pendingReceive, before]
    simp

/-- A step outside the sections notes nothing. -/
theorem MailEntry.of_silent {context : Context} (silent : action.section system = none)
    (sends : pendingSend mailbox (system.frames context) =
      emitted.filterMap (Notice.sent mailbox context) ++ pendingSend mailbox (next.frames context))
    (receives : ∀ inbox : Inbox,
      inbox.returned ++ pendingReceive mailbox (system.frames context) inbox =
      (emitted.foldl (Inbox.record mailbox context) inbox).returned ++
        pendingReceive mailbox (next.frames context)
          (emitted.foldl (Inbox.record mailbox context) inbox)) :
    MailEntry mailbox context system (mailNotes mailbox system action) next emitted := by
  have unnoted : mailNotes mailbox system action = [] := by simp [mailNotes, silent]
  rw [unnoted]
  exact ⟨by rw [← sends]; simp [MailNote.acceptedFrom],
    fun inbox => by rw [← receives]; simp [MailNote.receivedBy]⟩

/-- A call that is about to fail, or is none of the mailbox's, returns nothing. -/
theorem MailEntry.of_return {context : Context} {kernel : Kernel} {frame : Frame} {result : Err}
    (silent : action.section system = none) (there : system.frames context = some frame)
    (waited : frame.point = .woken)
    (ends : result = .eok → frame.call.mailSide mailbox = none) :
    MailEntry mailbox context system (mailNotes mailbox system action)
      (system.setFrame context kernel none) [.returned context frame.call result] := by
  refine .of_silent silent ?_ fun inbox => ?_
  · by_cases succeeds : result = .eok
    · subst succeeds
      simp [pendingSend, there, waited, Frame.passing, Notice.sent,
        (Call.sentTo_none (ends rfl)).1]
    · have unsent : Notice.sent mailbox context (.returned context frame.call result) = none := by
        cases result <;> first | rfl | exact absurd rfl succeeds
      simp [pendingSend, there, waited, Frame.passing, unsent]
  · by_cases succeeds : result = .eok
    · simp [pendingReceive, there, waited, Frame.passing, Inbox.record,
        (Call.sentTo_none (ends succeeds)).2]
    · simp [pendingReceive, there, waited, Frame.passing, Inbox.record, succeeds]

theorem Move.mailEntry (inv : CallsInv system) (move : Move system action next emitted)
    (mailbox : Nat) (context : Context) :
    MailEntry mailbox context system (mailNotes mailbox system action) next emitted := by
  by_cases apart : action.context = some context
  · obtain ⟨home, homes⟩ := inv.threads.homes
    cases move with
    | elapse nobody passes => exact nomatch nobody.symm.trans apart
    | @schedule other frame point there onward =>
        obtain rfl := Option.some_inj.mp apart
        obtain ⟨call, tickDelta, old⟩ := frame
        rcases onward with ⟨rfl, rfl⟩ | ⟨rfl, rfl⟩ <;>
          exact .of_silent (by simp [Action.section, there])
            (by simp [pendingSend, Frame.passing, there])
            fun inbox => by simp [pendingReceive, Frame.passing, there]
    | @finish other frame there passed =>
        obtain rfl := Option.some_inj.mp apart
        refine .of_silent (by simp [Action.section, there, passed]) ?_ fun inbox => ?_
        · cases sent : frame.call.sentTo mailbox <;>
            simp [pendingSend, Frame.passing, there, passed, Notice.sent, sent]
        · cases receives : frame.call.receivesFrom mailbox <;>
            simp [pendingReceive, Frame.passing, there, passed, Inbox.record, receives]
    | @sleepReturn thread frame tick there woken sleeps runs =>
        obtain rfl := Option.some_inj.mp apart
        exact .of_return (by simp [Action.section, there, woken]) there woken
          fun _ => by rw [sleeps]; rfl
    | @wakeReturn thread frame there woken waited runs ends =>
        obtain rfl := Option.some_inj.mp apart
        exact .of_return (by simp [Action.section, there, woken]) there woken
          fun succeeds => Call.Loops.of_mailSide fun loops => ends loops succeeds
    | @wakeAgain thread frame there woken loops runs succeeds =>
        obtain rfl := Option.some_inj.mp apart
        exact .of_silent (by simp [Action.section, there, woken])
          (by simp [pendingSend, Frame.passing, there, woken])
          fun inbox => by simp [pendingReceive, Frame.passing, there, woken]
    | @enter other call kernel outcome idle running runs allowed enters effect keeps =>
        obtain rfl := Option.some_inj.mp apart
        have before : Frame.passing (system.frames other) = none := by
          simp [Frame.passing, idle]
        cases sided : call.mailSide mailbox with
        | some side =>
            have round := Call.enter_round homes runs allowed sided enters
            have notes := @MailRound.notes system (.enter other call) mailbox call side other
              kernel outcome other.self sided round ⟨call, rfl, sided⟩
            exact .of_section before (notes none).1 fun stored => (notes stored).2
        | none =>
            have unnoted : mailNotes mailbox system (.enter other call) = [] := by
              simp [mailNotes, Action.section, sided]
            obtain ⟨sends, receives⟩ := Call.sentTo_none sided
            refine .of_section before ?_ fun stored => ?_
            · simp [unnoted, sends, MailNote.acceptedFrom]
            · simp [unnoted, receives, MailNote.receivedBy]
    | @again thread call tickDelta kernel outcome there runs goes effect keeps =>
        obtain rfl := Option.some_inj.mp apart
        have before : Frame.passing (system.frames (.thread thread)) = none := by
          simp [Frame.passing, there]
        have here : (Action.advance (.thread thread)).section system =
            some (.thread thread, call) := by
          simp [Action.section, there]
        have sided_reduce : (call.reduce tickDelta system.kernel.rtTick).mailSide mailbox =
            call.mailSide mailbox := call.mailSide_reduce tickDelta system.kernel.rtTick
        cases sided : call.mailSide mailbox with
        | some side =>
            have round := Call.again_round homes runs sided goes
            have notes := round.notes (sided_reduce.trans sided) ⟨call, here, sided⟩
            exact .of_section before (notes none).1 fun stored => (notes stored).2
        | none =>
            have unnoted : mailNotes mailbox system (.advance (.thread thread)) = [] := by
              simp [mailNotes, here, sided]
            obtain ⟨sends, receives⟩ := Call.sentTo_none (sided_reduce.trans sided)
            refine .of_section before ?_ fun stored => ?_
            · simp [unnoted, sends, MailNote.acceptedFrom]
            · simp [unnoted, receives, MailNote.receivedBy]
  · exact .of_other move apart

end

/-! ## The ring -/

/-- The mails that have been accepted and not handed out are in the ring, in order. -/
structure MailRing (size : BitVec 16) (accepted received : List (BitVec 32))
    (record : Mailbox) : Prop where
  size_eq : record.size = size
  filled : ∃ contents, accepted = received ++ contents ∧
    contents.length = record.entry.toNat ∧
    Fills record.size.toNat record.msgPool record.outOffset.toNat record.inOffset.toNat contents

theorem nextOffset_toNat {record : Mailbox} {offset : BitVec 16}
    (inside : offset.toNat < record.size.toNat) :
    (nextOffset record offset).toNat = (offset.toNat + 1) % record.size.toNat := by
  unfold nextOffset
  have small := record.size.isLt
  split
  · have last : offset.toNat + 1 = record.size.toNat := by bv_omega
    rw [last, Nat.mod_self]
    rfl
  · have more : offset.toNat + 1 < record.size.toNat := by bv_omega
    rw [Nat.mod_eq_of_lt more]
    bv_omega

theorem MailRing.put {size : BitVec 16} {accepted received : List (BitVec 32)}
    {record : Mailbox} (ring : MailRing size accepted received record)
    (room : record.entry.toNat < record.size.toNat) (value : BitVec 32) :
    MailRing size (accepted ++ [value]) received (record.put value) := by
  obtain ⟨sized, contents, order, count, fills⟩ := ring
  refine ⟨sized, contents ++ [value], ?_, ?_, ?_⟩
  · rw [order, List.append_assoc]
  · simp only [Mailbox.put, List.length_append, List.length_singleton, count]
    bv_omega
  · have pushed := fills.push (by omega) value
    have inside : record.inOffset.toNat < record.size.toNat := by
      rw [fills.back_eq]
      exact Nat.mod_lt _ (by omega)
    rw [← nextOffset_toNat inside] at pushed
    exact pushed

theorem MailRing.get {size : BitVec 16} {accepted received : List (BitVec 32)}
    {record : Mailbox} (ring : MailRing size accepted received record)
    (mail : 0 < record.entry.toNat) :
    MailRing size accepted (received ++ [record.msgPool record.outOffset.toNat]) record.get := by
  obtain ⟨sized, contents, order, count, fills⟩ := ring
  cases contents with
  | nil =>
      rw [List.length_nil] at count
      omega
  | cons value contents =>
      obtain ⟨first, popped⟩ := fills.pop
      rw [← nextOffset_toNat fills.inside] at popped
      refine ⟨sized, contents, ?_, ?_, popped⟩
      · rw [order, first, List.append_assoc, List.singleton_append]
      · simp only [Mailbox.get]
        rw [List.length_cons] at count
        bv_omega

/-- The mailbox is a bounded queue. -/
structure MailQueue (mailbox : Nat) (size : BitVec 16) (notes : List MailNote)
    (system : System) : Prop where
  fits : (system.kernel.mailboxes mailbox).entry.toNat ≤
    (system.kernel.mailboxes mailbox).size.toNat
  ring : MailRing size (notes.filterMap MailNote.acceptedValue)
    (notes.filterMap MailNote.receivedValue) (system.kernel.mailboxes mailbox)

theorem MailQueue.change {mailbox : Nat} {size : BitVec 16} {notes : List MailNote}
    {system next : System} (queue : MailQueue mailbox size notes system) {context : Context}
    {side : MailSide} (free : ¬ side.Blocked (system.kernel.mailboxes mailbox))
    (record : next.kernel.mailboxes mailbox = side.change (system.kernel.mailboxes mailbox)) :
    MailQueue mailbox size (notes ++ [side.note context (system.kernel.mailboxes mailbox)])
      next := by
  obtain ⟨fits, ring⟩ := queue
  have moved := MailSide.change_entry fits free
  refine ⟨by rw [record]; exact MailSide.change_fits fits free, ?_⟩
  rw [record, List.filterMap_append, List.filterMap_append]
  cases side with
  | sends value =>
      simpa [List.filterMap_cons, MailSide.note, MailNote.acceptedValue, MailNote.receivedValue,
        MailSide.change] using ring.put moved.1 value
  | receives =>
      simpa [List.filterMap_cons, MailSide.note, MailNote.acceptedValue, MailNote.receivedValue,
        MailSide.change] using ring.get moved.1

theorem MailQueue.step {mailbox : Nat} {size : BitVec 16} {notes : List MailNote}
    {system next : System} {action : Action} {emitted : List Notice}
    (queue : MailQueue mailbox size notes system) (calls : MailCalls mailbox action)
    (move : MailMove mailbox system action next emitted) :
    MailQueue mailbox size (notes ++ mailNotes mailbox system action) next := by
  have kept : next.kernel.mailboxes mailbox = system.kernel.mailboxes mailbox →
      mailNotes mailbox system action = [] →
      MailQueue mailbox size (notes ++ mailNotes mailbox system action) next := by
    intro record quiet
    rw [quiet, List.append_nil]
    exact ⟨by rw [record]; exact queue.fits, by rw [record]; exact queue.ring⟩
  cases move with
  | rests record quiet lists => exact kept record quiet
  | blocks blocked record quiet joined others => exact kept record quiet
  | serves free record noted succeeds left nobody others =>
      rw [noted]
      exact queue.change free record
  | resumes free record noted succeeds left others =>
      rw [noted]
      exact queue.change free record
  | resets begins => exact absurd begins calls.keeps

/-! ## Runs -/

/-- What is true of a mailbox whenever it is looked at; the notes are the mails
that have been accepted and handed out so far. -/
structure MailboxFifo (mailbox : Nat) (notes : List MailNote) (notices : List Notice)
    (system : System) : Prop where
  entry_le : (system.kernel.mailboxes mailbox).entry.toNat ≤
    (system.kernel.mailboxes mailbox).size.toNat
  offsets : (system.kernel.mailboxes mailbox).inOffset.toNat =
    ((system.kernel.mailboxes mailbox).outOffset.toNat +
      (system.kernel.mailboxes mailbox).entry.toNat) % (system.kernel.mailboxes mailbox).size.toNat
  /-- Mails are handed out in the order in which they have been accepted. -/
  order : notes.filterMap MailNote.receivedValue <+: notes.filterMap MailNote.acceptedValue
  /-- The mails that have not been handed out are in the pool. -/
  contents : ∃ contents, notes.filterMap MailNote.acceptedValue =
      notes.filterMap MailNote.receivedValue ++ contents ∧
    contents.length = (system.kernel.mailboxes mailbox).entry.toNat ∧
    ∀ (offset : Nat) (bound : offset < contents.length),
      (system.kernel.mailboxes mailbox).msgPool
        (((system.kernel.mailboxes mailbox).outOffset.toNat + offset) %
          (system.kernel.mailboxes mailbox).size.toNat) = contents[offset]
  /-- The mails accepted from a context are those whose sends have returned, or are
  about to return, `RT_EOK`. -/
  sends : ∀ context, MailNote.acceptedFrom notes context =
    notices.filterMap (Notice.sent mailbox context) ++ pendingSend mailbox (system.frames context)
  /-- The mails handed out to a context are those that its receives have returned,
  or are about to return. -/
  receives : ∀ context, MailNote.receivedBy notes context =
    (inboxAfter mailbox context notices).returned ++
      pendingReceive mailbox (system.frames context) (inboxAfter mailbox context notices)
  /-- The mailbox changes only when it accepts a mail or hands one out. -/
  quiet : ∀ action next emitted, MailCalls mailbox action →
    systemMachine.step system action = some (next, emitted) →
    mailNotes mailbox system action = [] →
    next.kernel.mailboxes mailbox = system.kernel.mailboxes mailbox
  /-- A call that returns an error does neither. -/
  fails : ∀ action next emitted context call result, MailCalls mailbox action →
    systemMachine.step system action = some (next, emitted) →
    .returned context call result ∈ emitted → result ≠ .eok →
    mailNotes mailbox system action = [] ∧
      next.kernel.mailboxes mailbox = system.kernel.mailboxes mailbox

theorem MailMove.quiet {mailbox : Nat} {system next : System} {action : Action}
    {emitted : List Notice} (move : MailMove mailbox system action next emitted)
    (calls : MailCalls mailbox action) (unnoted : mailNotes mailbox system action = []) :
    next.kernel.mailboxes mailbox = system.kernel.mailboxes mailbox := by
  cases move with
  | rests record quiet lists => exact record
  | blocks blocked record quiet joined others => exact record
  | serves free record noted succeeds left nobody others => exact nomatch noted.symm.trans unnoted
  | resumes free record noted succeeds left others => exact nomatch noted.symm.trans unnoted
  | resets begins => exact absurd begins calls.keeps

theorem MailMove.unnoted {mailbox : Nat} {system next : System} {action : Action}
    {emitted : List Notice} (move : MailMove mailbox system action next emitted)
    (calls : MailCalls mailbox action) {context : Context} {call : Call} {result : Err}
    (returned : .returned context call result ∈ emitted) (failed : result ≠ .eok) :
    mailNotes mailbox system action = [] := by
  cases move with
  | rests record quiet lists => exact quiet
  | blocks blocked record quiet joined others => exact quiet
  | serves free record noted succeeds left nobody others =>
      exact absurd (succeeds _ _ _ returned) failed
  | resumes free record noted succeeds left others =>
      exact absurd (succeeds _ _ _ returned) failed
  | resets begins => exact absurd begins calls.keeps

theorem MailboxFifo.of_run {config : Config} {actions : List Action}
    {annotated : List (MailNote ⊕ Notice)} {system : System} {mailbox : Nat}
    (capacity : config.mailboxSize mailbox ≠ 0)
    (run : (systemMachine.annotate (mailNotes mailbox)).Run (fun _ => MailCalls mailbox)
      (System.boot config) actions annotated system) :
    MailboxFifo mailbox (annotated.filterMap Sum.getLeft?) (annotated.filterMap Sum.getRight?)
      system := by
  have positive : 0 < (config.mailboxSize mailbox).toNat := by bv_omega
  have start : MailQueue mailbox (config.mailboxSize mailbox) [] (System.boot config) :=
    ⟨Nat.zero_le _, rfl, [], rfl, rfl, .nil positive⟩
  have account : MailAccount mailbox [] [] (System.boot config) :=
    ⟨fun _ => rfl, fun _ => rfl⟩
  obtain ⟨unlocked, queue, account⟩ := @Unlocked.run_annotate _ _ _
    (fun notes notices system => MailQueue mailbox (config.mailboxSize mailbox) notes system ∧
      MailAccount mailbox notes notices system) _ _ _ _ run (fun _ _ calls => calls.noResume)
    (.initial config) ⟨start, account⟩ fun _ _ _ _ _ _ before _ holds calls move =>
      ⟨holds.1.step calls (move.mailMove before.calls mailbox),
        holds.2.step (move.mailEntry before.calls mailbox)⟩
  obtain ⟨fits, sized, contents, order, count, fills⟩ := queue
  refine ⟨fits, ?_, ?_, ⟨contents, order, count, fills.slot⟩, account.sends, account.receives,
    ?_, ?_⟩
  · rw [fills.back_eq, count]
  · rw [order]
    exact List.prefix_append ..
  · intro action next emitted calls step unnoted
    exact ((unlocked.calls.move calls.noResume step).mailMove unlocked.calls mailbox).quiet calls
      unnoted
  · intro action next emitted context call result calls step returned failed
    have move := (unlocked.calls.move calls.noResume step).mailMove unlocked.calls mailbox
    have unnoted := move.unnoted calls returned failed
    exact ⟨unnoted, move.quiet calls unnoted⟩

/-- Every mailbox that can hold a mail is a queue, in every run without a reset. -/
theorem mailbox_fifo {config : Config} {actions : List Action} {notices : List Notice}
    {system : System} {mailbox : Nat} (capacity : config.mailboxSize mailbox ≠ 0)
    (run : systemMachine.Run (fun _ => MailCalls mailbox) (System.boot config) actions notices
      system) :
    ∃ annotated, (systemMachine.annotate (mailNotes mailbox)).Run (fun _ => MailCalls mailbox)
        (System.boot config) actions annotated system ∧
      annotated.filterMap Sum.getRight? = notices ∧
      MailboxFifo mailbox (annotated.filterMap Sum.getLeft?) notices system := by
  obtain ⟨annotated, noted, rfl⟩ := run.annotate (mailNotes mailbox)
  exact ⟨annotated, noted, rfl, .of_run capacity noted⟩

/-- Thread 0 waits for a mail, then receives the second of three. -/
theorem mailbox_fifo_three_mails :
    ∃ system notices, systemMachine.execute (System.boot twoMails)
        [.threadStartup 0, .threadStartup 1, .schedulerStart,
          .enter (.thread 0) (.mbRecv 0 0xffffffff), .advance (.thread 0),
          .enter (.thread 1) (.mbSendWait 0 7 0xffffffff), .advance (.thread 1),
          .advance (.thread 0), .advance (.thread 0), .enter (.handler 0) (.mbSendWait 0 8 0),
          .enter (.handler 0) (.mbSendWait 0 9 0), .enter (.handler 0) (.mbSendWait 0 10 0),
          .enter (.thread 0) (.mbRecv 0 0)] = some (system, notices) ∧
      ((system.kernel.mailboxes 0).entry = 1 ∧
        (inboxAfter 0 (.thread 0) notices).returned = [7, 8]) ∧
      ∃ annotated, (systemMachine.annotate (mailNotes 0)).Run (fun _ => MailCalls 0)
          (System.boot twoMails)
          [.threadStartup 0, .threadStartup 1, .schedulerStart,
            .enter (.thread 0) (.mbRecv 0 0xffffffff), .advance (.thread 0),
            .enter (.thread 1) (.mbSendWait 0 7 0xffffffff), .advance (.thread 1),
            .advance (.thread 0), .advance (.thread 0), .enter (.handler 0) (.mbSendWait 0 8 0),
            .enter (.handler 0) (.mbSendWait 0 9 0), .enter (.handler 0) (.mbSendWait 0 10 0),
            .enter (.thread 0) (.mbRecv 0 0)] annotated system ∧
        annotated.filterMap Sum.getRight? = notices ∧
        MailboxFifo 0 (annotated.filterMap Sum.getLeft?) notices system := by
  have final : (systemMachine.execute (System.boot twoMails)
      [.threadStartup 0, .threadStartup 1, .schedulerStart,
        .enter (.thread 0) (.mbRecv 0 0xffffffff), .advance (.thread 0),
        .enter (.thread 1) (.mbSendWait 0 7 0xffffffff), .advance (.thread 1),
        .advance (.thread 0), .advance (.thread 0), .enter (.handler 0) (.mbSendWait 0 8 0),
        .enter (.handler 0) (.mbSendWait 0 9 0), .enter (.handler 0) (.mbSendWait 0 10 0),
        .enter (.thread 0) (.mbRecv 0 0)]).map
      (fun final => ((final.1.kernel.mailboxes 0).entry,
        (inboxAfter 0 (.thread 0) final.2).returned)) = some (1, [7, 8]) := by
    decide +kernel
  obtain ⟨⟨system, notices⟩, success, values⟩ := Option.map_eq_some_iff.mp final
  simp only [Prod.mk.injEq] at values
  exact ⟨system, notices, success, values, @mailbox_fifo twoMails _ _ _ 0 (by decide)
    (Machine.run_of_execute (by simp [MailCalls]) success)⟩

end RtThread
