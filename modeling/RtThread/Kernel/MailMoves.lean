import RtThread.Kernel.Moves

/-!
# One step of a mailbox

Sending and receiving are two sides of one protocol: a call whose side is blocked
waits on the list of its side, and one that is not changes the ring and resumes
the first thread of the other side. A resumed thread looks at the mailbox again
before it is served. `MailMove` says what each step does to one mailbox, and
`mailNotes` which mails it accepts and hands out.
-/

namespace RtThread

open RtThread.Std

/-! ## The two sides -/

inductive MailSide where
  | sends (value : BitVec 32)
  | receives

/-- A mail enters or leaves a mailbox. -/
inductive MailNote where
  | accepted (context : Context) (value : BitVec 32)
  | received (context : Context) (value : BitVec 32)

namespace MailSide

/-- The mailbox is full, or empty. -/
def Blocked (record : Mailbox) : MailSide → Prop
  | sends _ => record.entry = record.size
  | receives => record.entry = 0#16

instance (record : Mailbox) : (side : MailSide) → Decidable (side.Blocked record)
  | sends _ => inferInstanceAs (Decidable (record.entry = record.size))
  | receives => inferInstanceAs (Decidable (record.entry = 0#16))

/-- What a call that is not blocked does to the ring. -/
def change (record : Mailbox) : MailSide → Mailbox
  | sends value => record.put value
  | receives => record.get

def note (context : Context) (record : Mailbox) : MailSide → MailNote
  | sends value => .accepted context value
  | receives => .received context (record.msgPool record.outOffset.toNat)

/-- The word that is stored for the caller. -/
def output (record : Mailbox) : MailSide → Option (BitVec 32)
  | sends _ => none
  | receives => some (record.msgPool record.outOffset.toNat)

/-- The error of a call that does not want to wait any longer. -/
def expires : MailSide → Err
  | sends _ => .efull
  | receives => .etimeout

/-- The list on which the callers wait. -/
def joins (mailbox : Nat) : MailSide → WaitList
  | sends _ => .mailboxSender mailbox
  | receives => .mailbox mailbox

/-- The list from which the callers resume. -/
def wakes (mailbox : Nat) : MailSide → WaitList
  | sends _ => .mailbox mailbox
  | receives => .mailboxSender mailbox

end MailSide

/-- The side of a call that sends to or receives from the mailbox. -/
def Call.mailSide (mailbox : Nat) : Call → Option MailSide
  | .mbSendWait index value _ => if index = mailbox then some (.sends value) else none
  | .mbRecv index _ => if index = mailbox then some .receives else none
  | _ => none

/-- The call whose section the action executes. -/
def Action.section (system : System) : Action → Option (Context × Call)
  | .enter context call => some (context, call)
  | .advance context => do
    let frame ← system.frames context
    if frame.point = .again then pure (context, frame.call) else none
  | _ => none

/-- The mails that the step accepts or hands out: those of a section that is not
blocked. -/
def mailNotes (mailbox : Nat) (system : System) (action : Action) : List MailNote :=
  (do
    let (context, call) ← action.section system
    let side ← call.mailSide mailbox
    if side.Blocked (system.kernel.mailboxes mailbox) then none
    else pure (side.note context (system.kernel.mailboxes mailbox))).toList

/-- What the section of a call does to its mailbox. -/
inductive MailRound (self : Option ThreadId) (kernel : Kernel) (mailbox : Nat)
    (side : MailSide) : Kernel → Outcome → Prop where
  | expires {next : Kernel} (blocked : side.Blocked (kernel.mailboxes mailbox))
      (record : next.mailboxes mailbox = kernel.mailboxes mailbox)
      (others : ∀ other, self ≠ some other → Rests kernel next other) :
      MailRound self kernel mailbox side next (.returns side.expires none)
  | waits {next : Kernel} {timer : Option Err} (blocked : side.Blocked (kernel.mailboxes mailbox))
      (record : next.mailboxes mailbox = kernel.mailboxes mailbox)
      (others : ∀ other, self ≠ some other → Rests kernel next other) :
      MailRound self kernel mailbox side next (.suspends timer)
  | serves {next : Kernel} (free : ¬ side.Blocked (kernel.mailboxes mailbox))
      (record : next.mailboxes mailbox = side.change (kernel.mailboxes mailbox))
      (nobody : ∀ thread, ¬ kernel.Waits (side.wakes mailbox) thread) :
      MailRound self kernel mailbox side next
        (.returns .eok (side.output (kernel.mailboxes mailbox)))
  | resumes {next : Kernel} {thread : ThreadId} (free : ¬ side.Blocked (kernel.mailboxes mailbox))
      (record : next.mailboxes mailbox = side.change (kernel.mailboxes mailbox))
      (waited : kernel.Waits (side.wakes mailbox) thread)
      (resumes : Resumes kernel next thread (kernel.threads thread).error)
      (others : ∀ other, other ≠ thread → Rests kernel next other) :
      MailRound self kernel mailbox side next
        (.reschedules (side.output (kernel.mailboxes mailbox)))

section

variable {kernel next : Kernel} {home : ThreadId → Option ThreadNode} {outcome : Outcome}
  {mailbox : Nat}

theorem MailRound.of_resumeFirst {self : Option ThreadId} {side : MailSide}
    (inv : WaitInv kernel home)
    (free : ¬ side.Blocked (kernel.mailboxes mailbox))
    (step : resumeFirst (kernel.setMailbox mailbox (side.change (kernel.mailboxes mailbox)))
      (side.wakes mailbox) (side.output (kernel.mailboxes mailbox)) = some (next, outcome)) :
    MailRound self kernel mailbox side next outcome := by
  have inv' := inv.setMailbox mailbox (side.change (kernel.mailboxes mailbox))
  have record : (kernel.setMailbox mailbox
      (side.change (kernel.mailboxes mailbox))).mailboxes mailbox =
        side.change (kernel.mailboxes mailbox) := Function.update_self ..
  unfold resumeFirst at step
  split at step
  · rename_i empty
    obtain ⟨rfl, rfl⟩ := Prod.mk.inj (Option.some_inj.mp step)
    refine .serves free record ?_
    intro thread waits
    exact absurd ((inv'.linked_iff (ThreadNode.isHead_wait _) thread).mp waits)
      ((inv'.isEmpty_iff _).mp empty thread)
  · rename_i occupied
    obtain ⟨resumed, resume, done⟩ := Option.bind_eq_some_iff.mp step
    obtain ⟨rfl, rfl⟩ := Prod.mk.inj (Option.some_inj.mp done)
    obtain ⟨thread, entry, there⟩ := inv'.first_waiting (Bool.eq_false_of_not_eq_true occupied)
    rw [rtIpcListResume, entry] at resume
    obtain rfl := Option.some_inj.mp resume
    have waits := (inv'.linked_iff (ThreadNode.isHead_wait _) thread).mpr there
    obtain ⟨resumes, rests⟩ := resume_one inv' waits
    refine .resumes free ?_ waits ⟨resumes.suspended, resumes.ready, resumes.error, resumes.loose⟩ ?_
    · exact (congrFun (congrArg Objects.mailboxes (rtThreadResume_sameRest _ thread).objects)
        mailbox).trans record
    · intro other apart
      have same : Rests kernel (kernel.setMailbox mailbox
        (side.change (kernel.mailboxes mailbox))) other := .of_same rfl rfl
      exact same.trans (rests other apart)

theorem rtMbSendRound_round {value timeout : BitVec 32} {self : Option ThreadId}
    (inv : WaitInv kernel home)
    (runs : (kernel.mailboxes mailbox).entry ≠ (kernel.mailboxes mailbox).size ∨ Runs self kernel)
    (step : rtMbSendRound kernel mailbox value timeout = some (next, outcome)) :
    MailRound self kernel mailbox (.sends value) next outcome := by
  simp only [rtMbSendRound] at step
  split at step
  · rename_i full
    obtain ⟨thread, rfl, current, isReady⟩ := runs.resolve_left fun room => room full
    rw [current] at step
    dsimp only at step
    have others : ∀ other, some thread ≠ some other →
        Rests kernel (kernel.setError thread .eok) other :=
      fun other apart => .setError kernel .eok fun same => apart (same ▸ rfl)
    split at step
    · obtain ⟨rfl, rfl⟩ := Prod.mk.inj (Option.some_inj.mp step)
      exact .expires full rfl others
    · obtain ⟨objects, ⟨timer, rfl⟩, rests⟩ := suspendOn_rests (inv.setError thread .eok)
        (by simpa [Kernel.setError, Kernel.setThread] using isReady) step
      exact .waits full (congrFun (congrArg Objects.mailboxes objects) mailbox)
        fun other apart => (others other apart).trans (rests other fun same => apart (same ▸ rfl))
  · rename_i room
    exact .of_resumeFirst inv room step

theorem rtMbSendWait_round {value timeout : BitVec 32} {self : Option ThreadId}
    (inv : WaitInv kernel home) (runs : timeout = 0#32 ∨ Runs self kernel)
    (step : rtMbSendWait kernel mailbox value timeout = some (next, outcome)) :
    MailRound self kernel mailbox (.sends value) next outcome := by
  unfold rtMbSendWait at step
  split at step
  · rename_i hopeless
    obtain ⟨rfl, rfl⟩ := Prod.mk.inj (Option.some_inj.mp step)
    exact .expires hopeless.1 rfl fun other _ => .refl kernel other
  · rename_i hopeful
    have able : (kernel.mailboxes mailbox).entry ≠ (kernel.mailboxes mailbox).size ∨
        Runs self kernel := runs.imp_left fun untimed full => hopeful ⟨full, untimed⟩
    exact rtMbSendRound_round inv able step

theorem rtMbRecvRound_round {timeout : BitVec 32} {self : Option ThreadId}
    (inv : WaitInv kernel home)
    (runs : (kernel.mailboxes mailbox).entry ≠ 0#16 ∨ Runs self kernel)
    (step : rtMbRecvRound kernel mailbox timeout = some (next, outcome)) :
    MailRound self kernel mailbox .receives next outcome := by
  simp only [rtMbRecvRound] at step
  split at step
  · rename_i empty
    obtain ⟨thread, rfl, current, isReady⟩ := runs.resolve_left fun mail => mail empty
    rw [current] at step
    dsimp only at step
    have others : ∀ other, some thread ≠ some other →
        Rests kernel (kernel.setError thread .eok) other :=
      fun other apart => .setError kernel .eok fun same => apart (same ▸ rfl)
    split at step
    · obtain ⟨rfl, rfl⟩ := Prod.mk.inj (Option.some_inj.mp step)
      exact .expires empty rfl fun other apart =>
        (others other apart).trans (.setError _ _ fun same => apart (same ▸ rfl))
    · obtain ⟨objects, ⟨timer, rfl⟩, rests⟩ := suspendOn_rests (inv.setError thread .eok)
        (by simpa [Kernel.setError, Kernel.setThread] using isReady) step
      exact .waits empty (congrFun (congrArg Objects.mailboxes objects) mailbox)
        fun other apart => (others other apart).trans (rests other fun same => apart (same ▸ rfl))
  · rename_i mail
    exact .of_resumeFirst inv mail step

theorem rtMbRecv_round {timeout : BitVec 32} {self : Option ThreadId}
    (inv : WaitInv kernel home) (runs : timeout = 0#32 ∨ Runs self kernel)
    (step : rtMbRecv kernel mailbox timeout = some (next, outcome)) :
    MailRound self kernel mailbox .receives next outcome := by
  unfold rtMbRecv at step
  split at step
  · rename_i hopeless
    obtain ⟨rfl, rfl⟩ := Prod.mk.inj (Option.some_inj.mp step)
    exact .expires hopeless.1 rfl fun other _ => .refl kernel other
  · rename_i hopeful
    have able : (kernel.mailboxes mailbox).entry ≠ 0#16 ∨ Runs self kernel :=
      runs.imp_left fun untimed empty => hopeful ⟨empty, untimed⟩
    exact rtMbRecvRound_round inv able step

theorem Call.mailSide_eq {call : Call} {side : MailSide}
    (sided : call.mailSide mailbox = some side) :
    call.object = some (.mailbox mailbox) ∧ call.waitsOn = some (side.joins mailbox) ∧
      (∀ list, call.wakes list ↔ list = side.wakes mailbox) ∧ call.verdict = none := by
  cases call <;> simp only [Call.mailSide, reduceCtorEq, Option.ite_none_right_eq_some,
    Option.some.injEq] at sided
  · obtain ⟨rfl, rfl⟩ := sided
    exact ⟨rfl, rfl, fun _ => Iff.rfl, rfl⟩
  · obtain ⟨rfl, rfl⟩ := sided
    exact ⟨rfl, rfl, fun _ => Iff.rfl, rfl⟩

theorem Call.enter_round {call : Call} {side : MailSide} {context : Context}
    (inv : WaitInv kernel home) (runs : ∀ thread, context = .thread thread →
      Runs (some thread) kernel) (allowed : call.allowedIn context = true)
    (sided : call.mailSide mailbox = some side)
    (enters : call.enter kernel = some (next, outcome)) :
    MailRound context.self kernel mailbox side next outcome := by
  cases call <;> simp only [Call.mailSide, reduceCtorEq, Option.ite_none_right_eq_some,
    Option.some.injEq] at sided
  case mbSendWait index value timeout =>
    obtain ⟨rfl, rfl⟩ := sided
    have able : timeout = 0#32 ∨ Runs context.self kernel := by
      cases context with
      | thread self => exact Or.inr (runs self rfl)
      | handler index => exact Or.inl (by simpa [Call.allowedIn] using allowed)
    exact rtMbSendWait_round inv able enters
  case mbRecv index timeout =>
    obtain ⟨rfl, rfl⟩ := sided
    have able : timeout = 0#32 ∨ Runs context.self kernel := by
      cases context with
      | thread self => exact Or.inr (runs self rfl)
      | handler index => exact Or.inl (by simpa [Call.allowedIn] using allowed)
    exact rtMbRecv_round inv able enters

theorem Call.again_round {call : Call} {side : MailSide} {thread : ThreadId}
    {tickDelta : BitVec 32} (inv : WaitInv kernel home) (runs : Runs (some thread) kernel)
    (sided : call.mailSide mailbox = some side)
    (goes : call.again kernel thread tickDelta = some (next, outcome)) :
    MailRound (some thread) kernel mailbox side next outcome := by
  cases call <;> simp only [Call.mailSide, reduceCtorEq, Option.ite_none_right_eq_some,
    Option.some.injEq] at sided
  case mbSendWait index value timeout =>
    obtain ⟨rfl, rfl⟩ := sided
    exact rtMbSendRound_round inv (Or.inr runs) goes
  case mbRecv index timeout =>
    obtain ⟨rfl, rfl⟩ := sided
    exact rtMbRecvRound_round inv (Or.inr runs) goes

end

/-! ## Threads on their way back -/

/-- A call has resumed the thread from the list, and its next section is still to
come. -/
def Awake (system : System) (list : WaitList) (thread : ThreadId) : Prop :=
  ∃ call tickDelta point, system.frames (.thread thread) = some ⟨call, tickDelta, point⟩ ∧
    call.waitsOn = some list ∧ (point = .again ∨ (point = .suspended ∨ point = .woken) ∧
      (system.kernel.threads thread).stat = .ready ∧ (system.kernel.threads thread).error = .eok)

/-- How a step changes who waits on a list and who is on the way back from it. -/
structure ListEffect (list : WaitList) (system next : System) (joins : Prop)
    (loses gains : Option ThreadId) : Prop where
  waits : ∀ thread, next.kernel.Waits list thread → system.kernel.Waits list thread ∨ joins
  awake : ∀ thread, Awake next list thread ↔
    Awake system list thread ∧ loses ≠ some thread ∨ gains = some thread
  lost : ∀ thread, loses = some thread → Awake system list thread
  gained : ∀ thread, gains = some thread → ¬ Awake system list thread

section

variable {system next : System} {list : WaitList} {thread : ThreadId} {action : Action}
  {emitted : List Notice}

theorem not_awake_idle (idle : system.frames (.thread thread) = none) :
    ¬ Awake system list thread := by
  rintro ⟨call, tickDelta, point, there, -⟩
  exact nomatch idle.symm.trans there

theorem not_awake_of_call {frame : Frame} (there : system.frames (.thread thread) = some frame)
    (foreign : frame.call.waitsOn ≠ some list) : ¬ Awake system list thread := by
  rintro ⟨call, tickDelta, point, there', waitsOn, -⟩
  obtain rfl := Option.some_inj.mp (there.symm.trans there')
  exact foreign waitsOn

theorem awake_congr (frames : next.frames (.thread thread) = system.frames (.thread thread))
    (rests : Rests system.kernel next.kernel thread) :
    Awake next list thread ↔ Awake system list thread := by
  simp only [Awake, frames, rests.stat, rests.error]

/-- A thread that is resumed with an error does not count. -/
theorem awake_resumes {result : Err}
    (frames : next.frames (.thread thread) = system.frames (.thread thread))
    (resumes : Resumes system.kernel next.kernel thread result) (failed : result ≠ .eok) :
    Awake next list thread ↔ Awake system list thread := by
  simp only [Awake, frames, resumes.suspended, resumes.error, failed, reduceCtorEq, false_and,
    and_false]

/-- A step leaves the threads alone that it neither takes nor resumes from the
list. -/
theorem Bystands.awake (inv : CallsInv system)
    (frames : next.frames (.thread thread) = system.frames (.thread thread))
    (bystands : Bystands system.kernel next.kernel thread)
    (unwoken : ∀ result, system.kernel.Waits list thread →
      Resumes system.kernel next.kernel thread result → result ≠ .eok) :
    Awake next list thread ↔ Awake system list thread := by
  cases bystands with
  | rests rests => exact awake_congr frames rests
  | timesOut resumes => exact awake_resumes frames resumes nofun
  | starts starts =>
      have idle : system.frames (.thread thread) = none := by
        by_contra busy
        exact inv.begun thread busy starts.init
      exact iff_of_false (not_awake_idle (frames.trans idle)) (not_awake_idle idle)
  | @woken list' result waited resumes =>
      by_cases here : list' = list
      · subst here
        exact awake_resumes frames resumes (unwoken result waited resumes)
      · obtain ⟨call, tickDelta, point, there, -, waitsOn, -⟩ := inv.waiting thread list' waited
        have foreign : call.waitsOn ≠ some list :=
          fun same => here (Option.some_inj.mp (waitsOn.symm.trans same))
        exact iff_of_false (not_awake_of_call (frames.trans there) foreign)
          (not_awake_of_call there foreign)

/-- The thread whose section has ended is not on its way back. -/
theorem not_awake_settle {call : Call} {kernel : Kernel} {outcome : Outcome}
    (effect : SectionEffect call (some thread) system.kernel kernel outcome) :
    ¬ Awake (system.settle (.thread thread) call kernel outcome).1 list thread := by
  rintro ⟨call', tickDelta, point, there, -, halted⟩
  cases outcome with
  | returns result output => simp [System.settle] at there
  | suspends timer =>
      obtain ⟨-, self, same, suspended⟩ := effect.suspends timer rfl
      obtain rfl := Option.some_inj.mp same
      simp only [System.settle, System.setFrame_frames_self, Option.some.injEq,
        Frame.mk.injEq] at there
      obtain ⟨-, -, rfl⟩ := there
      simp [System.settle_kernel, suspended.stat] at halted
  | reschedules output =>
      simp only [System.settle, System.setFrame_frames_self, Option.some.injEq,
        Frame.mk.injEq] at there
      obtain ⟨-, -, rfl⟩ := there
      simp at halted

theorem ListEffect.mono {joins joins' : Prop} {loses gains : Option ThreadId}
    (effect : ListEffect list system next joins loses gains) (weaker : joins → joins') :
    ListEffect list system next joins' loses gains :=
  ⟨fun thread there => (effect.waits thread there).imp_right weaker, effect.awake, effect.lost,
    effect.gained⟩

theorem ListEffect.of_same {joins : Prop}
    (waits : ∀ thread, next.kernel.Waits list thread → system.kernel.Waits list thread ∨ joins)
    (awake : ∀ thread, Awake next list thread ↔ Awake system list thread) :
    ListEffect list system next joins none none :=
  ⟨waits, by simp [awake], nofun, nofun⟩

/-- A step that leaves the lists as they are. -/
theorem ListEffect.of_frame {context : Context} {kernel : Kernel} {frame : Option Frame}
    (waits : ∀ thread, kernel.Waits list thread → system.kernel.Waits list thread)
    (rests : ∀ thread, context ≠ .thread thread → Rests system.kernel kernel thread)
    (own : ∀ thread, context = .thread thread →
      (Awake (system.setFrame context kernel frame) list thread ↔ Awake system list thread)) :
    ListEffect list system (system.setFrame context kernel frame) False none none := by
  refine .of_same (fun thread there => Or.inl (waits thread there)) ?_
  intro thread
  by_cases same : context = .thread thread
  · exact own thread same
  · exact awake_congr (system.setFrame_frames_other kernel frame (Ne.symm same))
      (rests thread same)

/-- A step outside the sections resumes nobody with success. Only the return of a
call that does not loop takes a thread off its way back. -/
theorem Move.listEffect_of_silent (inv : CallsInv system)
    (move : Move system action next emitted) (silent : action.section system = none) :
    ∃ loses, ListEffect list system next False loses none ∧
      ((∀ call : Call, call.waitsOn = some list → call.Loops) → loses = none) := by
  cases move with
  | elapse nobody passes =>
      refine ⟨none, .of_same ?_ ?_, fun _ => rfl⟩
      · intro thread waits
        rcases passes.thread thread with rests | resumes | starts
        · exact Or.inl ((rests.waits list).mp waits)
        · exact absurd waits (resumes.loose list)
        · exact absurd waits (starts.loose list)
      · intro thread
        rcases passes.thread thread with rests | resumes | starts
        · exact awake_congr rfl rests
        · exact awake_resumes rfl resumes (by simp)
        · exact (Bystands.starts starts).awake inv rfl
            fun result waited resumes => by cases starts.init.symm.trans resumes.suspended
  | @schedule context frame point there onward =>
      refine ⟨none, .of_frame (fun thread waits => ((Rests.schedule system.kernel thread).waits
        list).mp waits) (fun thread _ => .schedule _ thread) ?_, fun _ => rfl⟩
      rintro thread rfl
      have rests := Rests.schedule system.kernel thread
      obtain ⟨call, tickDelta, old⟩ := frame
      rcases onward with ⟨rfl, rfl⟩ | ⟨rfl, rfl⟩
      · simp [Awake, there, System.setFrame]
      · simp [Awake, there, System.setFrame]
  | @finish context frame there passed =>
      refine ⟨none, .of_frame (fun _ waits => waits) (fun thread _ => .refl _ thread) ?_,
        fun _ => rfl⟩
      rintro thread rfl
      refine iff_of_false (not_awake_idle (by simp)) ?_
      rintro ⟨call, tickDelta, point, there', -, halted⟩
      obtain rfl := Option.some_inj.mp (there.symm.trans there')
      obtain rfl : point = .returning := passed
      simp at halted
  | @sleepReturn thread frame tick there woken sleeps runs =>
      refine ⟨none, .of_frame ?_ ?_ ?_, fun _ => rfl⟩
      · intro other waits
        rwa [Kernel.Waits, rtThreadSleepReturn_links] at waits
      · exact fun other apart => .sleepReturn fun same => apart (same ▸ rfl)
      · rintro other ⟨⟩
        exact iff_of_false (not_awake_idle (by simp))
          (not_awake_of_call there (by simp [sleeps, Call.waitsOn]))
  | @wakeReturn thread frame there woken waited runs ends =>
      have gone : ¬ Awake (system.setFrame (.thread thread) system.kernel none) list thread :=
        not_awake_idle (by simp)
      by_cases awake : Awake system list thread
      · refine ⟨some thread, ⟨fun _ waits => Or.inl waits, ?_, ?_, (by simp)⟩, ?_⟩
        · intro other
          by_cases same : other = thread
          · subst same
            simp [gone]
          · have unmoved := @awake_congr system _ list other
              (system.setFrame_frames_other system.kernel none
                (fun equal => same (Context.thread.inj equal) : Context.thread other ≠
                  .thread thread)) (.refl _ other)
            simp [unmoved, Ne.symm same]
        · rintro other ⟨⟩
          exact awake
        · intro loops
          obtain ⟨call, tickDelta, point, there', waitsOn, halted⟩ := awake
          obtain rfl := Option.some_inj.mp (there.symm.trans there')
          rcases halted with rfl | ⟨-, -, succeeds⟩
          · cases woken
          · exact absurd succeeds (ends (loops call waitsOn))
      · refine ⟨none, .of_frame (fun _ waits => waits) (fun other _ => .refl _ other) ?_,
          fun _ => rfl⟩
        rintro other ⟨⟩
        exact iff_of_false gone awake
  | @wakeAgain thread frame there woken repeats runs succeeds =>
      refine ⟨none, .of_frame (fun _ waits => waits) (fun other _ => .refl _ other) ?_,
        fun _ => rfl⟩
      rintro other ⟨⟩
      obtain ⟨self, same, -, isReady⟩ := runs
      obtain rfl := Option.some_inj.mp same
      obtain ⟨call, tickDelta, point⟩ := frame
      obtain rfl : point = .woken := woken
      simp [Awake, there, System.setFrame, isReady, succeeds]
  | enter idle running runs allowed enters effect keeps => cases silent
  | again there runs goes effect keeps => simp [Action.section, there] at silent

theorem Move.listEffect (inv : CallsInv system) (move : Move system action next emitted)
    (silent : action.section system = none)
    (loops : ∀ call : Call, call.waitsOn = some list → call.Loops) :
    ListEffect list system next False none none := by
  obtain ⟨loses, effect, same⟩ := move.listEffect_of_silent inv silent
  rwa [same loops] at effect

/-- A section after which nobody is on the way back from the list who was not
before. -/
theorem ListEffect.of_section {context : Context} {call : Call} {kernel : Kernel}
    {outcome : Outcome} {loses : Option ThreadId} (inv : CallsInv system)
    (runs : ∀ self, context = .thread self → Runs (some self) system.kernel)
    (effect : SectionEffect call context.self system.kernel kernel outcome)
    (keeps : SectionKeeps system.kernel kernel outcome)
    (own : ∀ thread, loses = some thread → context = .thread thread ∧ Awake system list thread)
    (before : ∀ thread, context = .thread thread → loses = none → ¬ Awake system list thread)
    (unwoken : ∀ thread result, system.kernel.Waits list thread →
      Resumes system.kernel kernel thread result → result ≠ .eok) :
    ListEffect list system (system.settle context call kernel outcome).1
      (call.waitsOn = some list ∧ ∃ timer, outcome = .suspends timer) loses none := by
  refine ⟨?_, ?_, fun thread lost => (own thread lost).2, nofun⟩
  · intro thread there
    rw [System.settle_kernel] at there
    exact CallsInv.section_waits runs effect keeps there
  · intro thread
    by_cases same : context = .thread thread
    · subst same
      refine iff_of_false (not_awake_settle effect) ?_
      rintro (⟨awake, kept⟩ | absurd)
      · cases loses with
        | none => exact before thread rfl rfl awake
        | some loser => exact kept (congrArg some (Context.thread.inj (own loser rfl).1).symm)
      · cases absurd
    · have kept : loses ≠ some thread := fun lost => same (own thread lost).1
      have bystands := effect.bystands same
      rw [← System.settle_kernel system context call kernel outcome] at bystands
      simp [kept, bystands.awake inv (system.settle_frames_other _ _ _ (Ne.symm same))
        fun result waited resumes => unwoken thread result waited
          (by rwa [System.settle_kernel] at resumes)]

/-- A section that resumes one thread from the list. -/
theorem ListEffect.of_wakes {context : Context} {call : Call} {kernel : Kernel}
    {outcome : Outcome} (inv : CallsInv system)
    (runs : ∀ self, context = .thread self → Runs (some self) system.kernel)
    (effect : SectionEffect call context.self system.kernel kernel outcome)
    (keeps : SectionKeeps system.kernel kernel outcome)
    (before : ∀ thread, context = .thread thread → ¬ Awake system list thread)
    (waited : system.kernel.Waits list thread)
    (resumes : Resumes system.kernel kernel thread (system.kernel.threads thread).error)
    (others : ∀ other, other ≠ thread → Rests system.kernel kernel other) :
    ListEffect list system (system.settle context call kernel outcome).1
      (call.waitsOn = some list ∧ ∃ timer, outcome = .suspends timer) none (some thread) := by
  obtain ⟨waiting, tickDelta, point, there, halted, waitsOn, error⟩ := inv.waiting thread _ waited
  have apart : context ≠ .thread thread := by
    rintro rfl
    obtain ⟨self, same, -, isReady⟩ := runs thread rfl
    obtain rfl := Option.some_inj.mp same
    exact nomatch isReady.symm.trans resumes.suspended
  refine ⟨?_, ?_, nofun, ?_⟩
  · intro other there
    rw [System.settle_kernel] at there
    exact CallsInv.section_waits runs effect keeps there
  · intro other
    by_cases same : other = thread
    · subst same
      simp only [or_true, iff_true]
      refine ⟨waiting, tickDelta, point, ?_, waitsOn, Or.inr ⟨halted, ?_, ?_⟩⟩
      · exact (system.settle_frames_other _ _ _ (Ne.symm apart)).trans there
      · rw [System.settle_kernel]
        exact resumes.ready
      · rw [System.settle_kernel]
        exact resumes.error.trans error
    · have unmoved : Awake (system.settle context call kernel outcome).1 list other ↔
          Awake system list other := by
        by_cases own : context = .thread other
        · subst own
          exact iff_of_false (not_awake_settle effect) (before other rfl)
        · exact awake_congr (system.settle_frames_other _ _ _ (Ne.symm own))
            (by rw [System.settle_kernel]; exact others other same)
      simp [unmoved, Ne.symm same]
  · rintro other ⟨⟩ ⟨call', tickDelta', point', there', -, again | ⟨-, ready, -⟩⟩
    · obtain same := Option.some_inj.mp (there.symm.trans there')
      simp only [Frame.mk.injEq] at same
      rcases halted with rfl | rfl <;> exact nomatch same.2.2.trans again
    · exact nomatch ready.symm.trans resumes.suspended

end

/-! ## How a step moves the mails -/

inductive MailMove (mailbox : Nat) (system : System) (action : Action) (next : System)
    (emitted : List Notice) : Prop where
  /-- Nothing happens to the mailbox. -/
  | rests (record : next.kernel.mailboxes mailbox = system.kernel.mailboxes mailbox)
      (quiet : mailNotes mailbox system action = [])
      (lists : ∀ list, list.object = .mailbox mailbox →
        ListEffect list system next False none none)
  /-- A call that is blocked gives up or waits. -/
  | blocks {side : MailSide} {loses : Option ThreadId}
      (blocked : side.Blocked (system.kernel.mailboxes mailbox))
      (record : next.kernel.mailboxes mailbox = system.kernel.mailboxes mailbox)
      (quiet : mailNotes mailbox system action = [])
      (joined : ListEffect (side.joins mailbox) system next True loses none)
      (others : ListEffect (side.wakes mailbox) system next False none none)
  /-- A call is served and nobody waits on the other side. -/
  | serves {context : Context} {side : MailSide} {loses : Option ThreadId}
      (free : ¬ side.Blocked (system.kernel.mailboxes mailbox))
      (record : next.kernel.mailboxes mailbox = side.change (system.kernel.mailboxes mailbox))
      (noted : mailNotes mailbox system action =
        [side.note context (system.kernel.mailboxes mailbox)])
      (succeeds : ∀ other call result, .returned other call result ∈ emitted → result = .eok)
      (left : ListEffect (side.joins mailbox) system next False loses none)
      (nobody : ∀ thread, ¬ system.kernel.Waits (side.wakes mailbox) thread)
      (others : ListEffect (side.wakes mailbox) system next False none none)
  /-- A call is served and resumes a thread on the other side. -/
  | resumes {context : Context} {side : MailSide} {loses : Option ThreadId} {thread : ThreadId}
      (free : ¬ side.Blocked (system.kernel.mailboxes mailbox))
      (record : next.kernel.mailboxes mailbox = side.change (system.kernel.mailboxes mailbox))
      (noted : mailNotes mailbox system action =
        [side.note context (system.kernel.mailboxes mailbox)])
      (succeeds : ∀ other call result, .returned other call result ∈ emitted → result = .eok)
      (left : ListEffect (side.joins mailbox) system next False loses none)
      (others : ListEffect (side.wakes mailbox) system next False none (some thread))
  /-- The mailbox is reset. -/
  | resets {context : Context} (begins : action = .enter context (.mbControl mailbox ipcCmdReset))

section

variable {system next : System} {action : Action} {emitted : List Notice} {mailbox : Nat}

/-- Nobody is resumed from a list that the section does not wake. -/
theorem unwoken_of_rests {list : WaitList} {context : Context} {kernel : Kernel}
    (runs : ∀ self, context = .thread self → Runs (some self) system.kernel)
    (others : ∀ thread, context.self ≠ some thread → system.kernel.Waits list thread →
      Rests system.kernel kernel thread) (thread : ThreadId) (result : Err)
    (waited : system.kernel.Waits list thread)
    (resumes : Resumes system.kernel kernel thread result) : result ≠ .eok := by
  by_cases own : context.self = some thread
  · cases context with
    | handler index => cases own
    | thread self =>
        obtain rfl := Option.some_inj.mp own
        obtain ⟨other, same, -, isReady⟩ := runs self rfl
        obtain rfl := Option.some_inj.mp same
        exact nomatch isReady.symm.trans resumes.suspended
  · exact nomatch resumes.ready.symm.trans
      ((others thread own waited).stat.trans resumes.suspended)

theorem SectionEffect.rests_of_foreign {list : WaitList} {call : Call} {context : Context}
    {kernel : Kernel} {outcome : Outcome} (inv : CallsInv system)
    (effect : SectionEffect call context.self system.kernel kernel outcome)
    (foreign : ¬ call.wakes list) (thread : ThreadId) (apart : context.self ≠ some thread)
    (waited : system.kernel.Waits list thread) : Rests system.kernel kernel thread := by
  obtain ⟨home, homes⟩ := inv.threads.homes
  rcases effect.others thread apart with rests | ⟨list', wakes, waited', -⟩
  · exact rests
  · obtain rfl := homes.waits_unique waited waited'
    exact absurd wakes foreign

theorem mailNotes_of_section {context : Context} {call : Call} {side : MailSide}
    (here : action.section system = some (context, call))
    (sided : call.mailSide mailbox = some side) :
    mailNotes mailbox system action =
      if side.Blocked (system.kernel.mailboxes mailbox) then []
      else [side.note context (system.kernel.mailboxes mailbox)] := by
  by_cases blocked : side.Blocked (system.kernel.mailboxes mailbox) <;>
    simp [mailNotes, here, sided, blocked]

theorem MailSide.joins_ne_wakes (side : MailSide) : side.joins mailbox ≠ side.wakes mailbox := by
  cases side <;> exact nofun

theorem Call.Loops.of_list {call : Call} {list : WaitList} (object : list.object = .mailbox mailbox)
    (waitsOn : call.waitsOn = some list) : call.Loops := by
  cases call <;> simp only [Call.waitsOn, Option.some.injEq, reduceCtorEq] at waitsOn <;>
    first
      | trivial
      | (subst waitsOn; cases object)

/-- The section of a call that sends or receives. -/
theorem MailRound.move {context : Context} {call : Call} {kernel : Kernel} {outcome : Outcome}
    {side : MailSide} {loses : Option ThreadId} (inv : CallsInv system)
    (runs : ∀ self, context = .thread self → Runs (some self) system.kernel)
    (effect : SectionEffect call context.self system.kernel kernel outcome)
    (keeps : SectionKeeps system.kernel kernel outcome)
    (here : ∃ before, action.section system = some (context, before) ∧
      before.mailSide mailbox = some side) (sided : call.mailSide mailbox = some side)
    (own : ∀ thread, loses = some thread → context = .thread thread ∧
      Awake system (side.joins mailbox) thread)
    (before : ∀ thread, context = .thread thread → loses = none →
      ¬ Awake system (side.joins mailbox) thread)
    (before' : ∀ thread, context = .thread thread → ¬ Awake system (side.wakes mailbox) thread)
    (round : MailRound context.self system.kernel mailbox side kernel outcome) :
    MailMove mailbox system action (system.settle context call kernel outcome).1
      (system.settle context call kernel outcome).2 := by
  obtain ⟨object, waitsOn, wakes, -⟩ := Call.mailSide_eq sided
  obtain ⟨earlier, section', sided'⟩ := here
  have notes := mailNotes_of_section section' sided'
  have joined := @ListEffect.of_section system (side.joins mailbox) context call kernel outcome
    loses inv runs effect keeps own before (unwoken_of_rests runs
      (effect.rests_of_foreign inv fun same => side.joins_ne_wakes ((wakes _).mp same)))
  have unwoken : (∀ thread, context.self ≠ some thread →
      system.kernel.Waits (side.wakes mailbox) thread → Rests system.kernel kernel thread) →
      ListEffect (side.wakes mailbox) system (system.settle context call kernel outcome).1
        False none none := by
    intro others
    have effects := @ListEffect.of_section system (side.wakes mailbox) context call kernel outcome
      none inv runs effect keeps (by simp) (fun thread own _ => before' thread own)
      (unwoken_of_rests runs others)
    refine effects.mono ?_
    rintro ⟨same, -⟩
    exact side.joins_ne_wakes (Option.some_inj.mp (waitsOn.symm.trans same))
  cases round with
  | expires blocked record others =>
      exact .blocks blocked record (by rw [notes, if_pos blocked])
        (joined.mono fun _ => trivial) (unwoken fun thread apart _ => others thread apart)
  | waits blocked record others =>
      refine .blocks blocked ?_ (by rw [notes, if_pos blocked])
        (joined.mono fun _ => trivial) (unwoken fun thread apart _ => others thread apart)
      rw [System.settle_kernel]
      exact record
  | serves free record nobody =>
      exact .serves free record (by rw [notes, if_neg free])
        (by simp +contextual [System.settle]) (joined.mono (by rintro ⟨_, _, ⟨⟩⟩))
        nobody (unwoken fun thread _ waited => absurd waited (nobody thread))
  | resumes free record waited resumes others =>
      have gains := @ListEffect.of_wakes system (side.wakes mailbox) _ context call kernel _ inv
        runs effect keeps before' waited resumes others
      exact .resumes free record (by rw [notes, if_neg free])
        (by simp [System.settle]) (joined.mono (by rintro ⟨_, _, ⟨⟩⟩))
        (gains.mono (by
          rintro ⟨same, -⟩
          exact side.joins_ne_wakes (Option.some_inj.mp (waitsOn.symm.trans same))))

theorem Move.objects_of_silent (move : Move system action next emitted)
    (silent : action.section system = none) : next.kernel.objects = system.kernel.objects := by
  cases move with
  | elapse nobody passes => exact passes.objects
  | schedule there onward => exact rtSchedule_objects system.kernel
  | finish there passed => rfl
  | sleepReturn there woken sleeps runs => exact rtThreadSleepReturn_objects system.kernel _
  | wakeReturn there woken waited runs ends => rfl
  | wakeAgain there woken loops runs succeeds => rfl
  | enter idle running runs allowed enters effect keeps => cases silent
  | again there runs goes effect keeps => simp [Action.section, there] at silent

/-- The first section of `rt_mb_control`. -/
theorem rtMbControl_cases {kernel after : Kernel} {outcome : Outcome} {cmd : BitVec 8}
    (step : rtMbControl kernel mailbox cmd = some (after, outcome)) :
    cmd = ipcCmdReset ∨ after = kernel := by
  unfold rtMbControl at step
  split at step
  · rename_i resets
    exact Or.inl resets
  · exact Or.inr (Prod.mk.inj (Option.some_inj.mp step)).1.symm

/-- A section that is no round of the mailbox. -/
theorem mail_section {context : Context} {call : Call} {kernel : Kernel} {outcome : Outcome}
    (inv : CallsInv system) (runs : ∀ self, context = .thread self → Runs (some self) system.kernel)
    (effect : SectionEffect call context.self system.kernel kernel outcome)
    (keeps : SectionKeeps system.kernel kernel outcome)
    (quiet : mailNotes mailbox system action = [])
    (record : kernel.mailboxes mailbox = system.kernel.mailboxes mailbox)
    (elsewhere : ∀ list : WaitList, list.object = .mailbox mailbox → call.waitsOn ≠ some list ∧
      ∀ thread, context.self ≠ some thread → system.kernel.Waits list thread →
        Rests system.kernel kernel thread)
    (before : ∀ list : WaitList, list.object = .mailbox mailbox → ∀ thread,
      context = .thread thread → ¬ Awake system list thread) :
    MailMove mailbox system action (system.settle context call kernel outcome).1
      (system.settle context call kernel outcome).2 := by
  refine .rests (by rw [System.settle_kernel]; exact record) quiet ?_
  intro list object
  obtain ⟨foreign, others⟩ := elsewhere list object
  have effects := @ListEffect.of_section system list context call kernel outcome none inv runs
    effect keeps nofun (fun thread own _ => before list object thread own)
    (unwoken_of_rests runs others)
  exact effects.mono fun ⟨same, _⟩ => foreign same

theorem Call.mailSide_reduce (call : Call) (tickDelta rtTick : BitVec 32) :
    (call.reduce tickDelta rtTick).mailSide mailbox = call.mailSide mailbox := by
  cases call <;> rfl

theorem Action.section_of_nobody (nobody : action.context = none) :
    action.section system = none := by
  cases action <;> first | rfl | cases nobody

/-- The list of a mailbox belongs to no call on another object. -/
theorem Call.elsewhere {call : Call} {context : Context} {kernel : Kernel} {outcome : Outcome}
    (inv : CallsInv system) (effect : SectionEffect call context.self system.kernel kernel outcome)
    (foreign : call.object ≠ some (.mailbox mailbox)) (list : WaitList)
    (object : list.object = .mailbox mailbox) : call.waitsOn ≠ some list ∧
      ∀ thread, context.self ≠ some thread → system.kernel.Waits list thread →
        Rests system.kernel kernel thread := by
  rw [← object] at foreign
  exact ⟨fun waitsOn => foreign (Call.object_of_waitsOn waitsOn),
    effect.rests_of_foreign inv fun wakes => foreign (Call.object_of_wakes wakes)⟩

/-- Every step is one of these. -/
theorem Move.mailMove (inv : CallsInv system) (move : Move system action next emitted)
    (mailbox : Nat) : MailMove mailbox system action next emitted := by
  obtain ⟨home, homes⟩ := inv.threads.homes
  have quiet : action.section system = none → MailMove mailbox system action next emitted := by
    intro silent
    exact .rests (congrFun (congrArg Objects.mailboxes (move.objects_of_silent silent)) mailbox)
      (by simp [mailNotes, silent])
      fun list object => move.listEffect inv silent fun call => Call.Loops.of_list object
  cases move with
  | elapse nobody passes => exact quiet (Action.section_of_nobody nobody)
  | schedule there onward =>
      rcases onward with ⟨point, -⟩ | ⟨point, -⟩ <;>
        exact quiet (by simp [Action.section, there, point])
  | finish there passed => exact quiet (by simp [Action.section, there, passed])
  | sleepReturn there woken sleeps runs => exact quiet (by simp [Action.section, there, woken])
  | wakeReturn there woken waited runs ends =>
      exact quiet (by simp [Action.section, there, woken])
  | wakeAgain there woken loops runs succeeds =>
      exact quiet (by simp [Action.section, there, woken])
  | @enter context call kernel outcome idle running runs allowed enters effect keeps =>
      have before : ∀ list thread, context = .thread thread → ¬ Awake system list thread := by
        rintro list thread rfl
        exact not_awake_idle idle
      cases sided : call.mailSide mailbox with
      | some side =>
          exact @MailRound.move system _ mailbox context call kernel outcome side none inv runs
            effect keeps ⟨call, rfl, sided⟩ sided nofun (fun thread own _ => before _ thread own)
            (before _) (Call.enter_round homes runs allowed sided enters)
      | none =>
          have noted : mailNotes mailbox system (.enter context call) = [] := by
            simp [mailNotes, Action.section, sided]
          by_cases foreign : call.object = some (.mailbox mailbox)
          · cases call <;> simp only [Call.object, Option.some.injEq, reduceCtorEq,
              IpcObject.mailbox.injEq] at foreign
            · simp [Call.mailSide, foreign] at sided
            · simp [Call.mailSide, foreign] at sided
            · obtain rfl := foreign
              rcases rtMbControl_cases enters with rfl | rfl
              · exact .resets rfl
              · exact mail_section inv runs effect keeps noted rfl
                  (fun list _ => ⟨nofun, fun thread _ _ => .refl _ thread⟩)
                  fun list _ => before list
          · exact mail_section inv runs effect keeps noted (effect.objects.mailboxes _ foreign)
              (Call.elsewhere inv effect foreign) fun list _ => before list
  | @again thread call tickDelta kernel outcome there runs goes effect keeps =>
      have runs' : ∀ self, Context.thread thread = .thread self →
          Runs (some self) system.kernel := by
        rintro self ⟨⟩
        exact runs
      have here : (Action.advance (.thread thread)).section system =
          some (.thread thread, call) := by
        simp [Action.section, there]
      have awake : ∀ list, call.waitsOn = some list → Awake system list thread :=
        fun list waitsOn => ⟨call, tickDelta, .again, there, waitsOn, Or.inl rfl⟩
      have sided_reduce : (call.reduce tickDelta system.kernel.rtTick).mailSide mailbox =
          call.mailSide mailbox := call.mailSide_reduce ..
      cases sided : call.mailSide mailbox with
      | some side =>
          have waitsOn := (Call.mailSide_eq sided).2.1
          refine @MailRound.move system _ mailbox (.thread thread) _ kernel outcome side
            (some thread) inv runs' effect keeps ⟨call, here, sided⟩ (sided_reduce.trans sided)
            ?_ nofun ?_ (Call.again_round homes runs sided goes)
          · rintro other ⟨⟩
            exact ⟨rfl, awake _ waitsOn⟩
          · rintro other ⟨⟩
            exact not_awake_of_call there fun same =>
              side.joins_ne_wakes (Option.some_inj.mp (waitsOn.symm.trans same))
      | none =>
          have noted : mailNotes mailbox system (.advance (.thread thread)) = [] := by
            simp [mailNotes, here, sided]
          have foreign : call.object ≠ some (.mailbox mailbox) := by
            intro object
            cases call <;> simp_all [Call.object, Call.mailSide, Call.again]
          refine @mail_section system _ mailbox (.thread thread) _ kernel outcome inv runs' effect
            keeps noted (effect.objects.mailboxes _ (by rwa [Call.reduce_object]))
            (@Call.elsewhere system mailbox _ (.thread thread) kernel outcome inv effect
              (by rwa [Call.reduce_object])) ?_
          rintro list object other ⟨⟩
          refine not_awake_of_call there fun waitsOn => foreign ?_
          rw [← object]
          exact Call.object_of_waitsOn waitsOn

end

end RtThread
