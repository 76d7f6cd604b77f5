import RtThread.Kernel.MailMoves
import RtThread.Std.RingBuffer

/-!
# Runs of mailboxes

A mailbox is a bounded queue, and no wake-up is lost: as long as somebody waits
on one side, the other side has resumed a thread for every mail, or free place,
that is left.
-/

namespace RtThread

open RtThread.Std

/-- Nobody resets the mailbox, and nobody calls `rt_thread_resume`. -/
def MailCalls (mailbox : Nat) : Action → Prop
  | .enter _ (.mbControl index cmd) => index = mailbox → cmd ≠ ipcCmdReset
  | .enter _ (.threadResume _) => False
  | _ => True

theorem MailCalls.noResume {mailbox : Nat} {action : Action}
    (calls : MailCalls mailbox action) : NoResume action := by
  cases action with
  | enter context call => cases call <;> trivial
  | _ => trivial

theorem MailCalls.keeps {mailbox : Nat} {action : Action} {context : Context}
    (calls : MailCalls mailbox action) :
    action ≠ .enter context (.mbControl mailbox ipcCmdReset) := by
  rintro rfl
  exact calls rfl rfl

/-! ## The counter -/

namespace MailSide

variable {record : Mailbox} {side : MailSide}

@[simp] theorem change_size (record : Mailbox) (side : MailSide) :
    (side.change record).size = record.size := by
  cases side <;> rfl

/-- A call that is not blocked moves the counter by one. -/
theorem change_entry (fits : record.entry.toNat ≤ record.size.toNat)
    (free : ¬ side.Blocked record) : match side with
      | sends _ => record.entry.toNat < record.size.toNat ∧
          (side.change record).entry.toNat = record.entry.toNat + 1
      | receives => 0 < record.entry.toNat ∧
          (side.change record).entry.toNat = record.entry.toNat - 1 := by
  cases side with
  | sends value =>
      have room : record.entry ≠ record.size := free
      simp only [change, Mailbox.put]
      bv_omega
  | receives =>
      have mail : record.entry ≠ 0#16 := free
      simp only [change, Mailbox.get]
      bv_omega

theorem change_fits (fits : record.entry.toNat ≤ record.size.toNat)
    (free : ¬ side.Blocked record) :
    (side.change record).entry.toNat ≤ (side.change record).size.toNat := by
  have moved := change_entry fits free
  rw [change_size]
  cases side <;> simp only at moved <;> omega

end MailSide

/-! ## Wake-ups -/

/-- Somebody waits on the list only if a thread on its way back has been resumed
for each of the items available. -/
def Attended (system : System) (list : WaitList) (available : Nat) : Prop :=
  ∃ awake : Finset ThreadId, (∀ thread, thread ∈ awake ↔ Awake system list thread) ∧
    ((∃ thread, system.kernel.Waits list thread) → available ≤ awake.card)

theorem Attended.of_effect {system next : System} {list : WaitList} {joins : Prop}
    {loses gains : Option ThreadId} {available available' : Nat}
    (attended : Attended system list available)
    (effect : ListEffect list system next joins loses gains)
    (apart : gains = none ∨ loses = none) (fresh : joins → available' = 0)
    (balance : (∃ thread, system.kernel.Waits list thread) →
      available' ≤ available + gains.toList.length - loses.toList.length) :
    Attended next list available' := by
  obtain ⟨awake, isAwake, enough⟩ := attended
  obtain ⟨awake', isAwake', card⟩ := @card_exchange _ _ awake gains loses
    (fun thread gained => (isAwake thread).not.mpr (effect.gained thread gained))
    (fun thread lost => (isAwake thread).mpr (effect.lost thread lost)) apart
  refine ⟨awake', ?_, ?_⟩
  · intro thread
    rw [isAwake', isAwake, effect.awake]
  · rintro ⟨thread, waits⟩
    rcases effect.waits thread waits with old | joined
    · have before := enough ⟨thread, old⟩
      have after := balance ⟨thread, old⟩
      omega
    · rw [fresh joined]
      exact Nat.zero_le _

theorem Attended.not_waits {system : System} {list : WaitList} {available : Nat}
    (attended : Attended system list available) (nobody : ∀ thread, ¬ Awake system list thread)
    (waits : ∃ thread, system.kernel.Waits list thread) : available = 0 := by
  obtain ⟨awake, isAwake, enough⟩ := attended
  have empty : awake = ∅ := Finset.eq_empty_of_forall_notMem fun thread member =>
    nobody thread ((isAwake thread).mp member)
  simpa [empty] using enough waits

/-- The two lists of a mailbox, the items of each side being mails and free places. -/
structure MailAttended (mailbox : Nat) (system : System) : Prop where
  fits : (system.kernel.mailboxes mailbox).entry.toNat ≤
    (system.kernel.mailboxes mailbox).size.toNat
  receivers : Attended system (.mailbox mailbox) (system.kernel.mailboxes mailbox).entry.toNat
  senders : Attended system (.mailboxSender mailbox)
    ((system.kernel.mailboxes mailbox).size.toNat - (system.kernel.mailboxes mailbox).entry.toNat)

theorem MailAttended.initial (config : Config) (mailbox : Nat) :
    MailAttended mailbox (System.boot config) := by
  have attended : ∀ list available, Attended (System.boot config) list available :=
    fun list available => ⟨∅, fun thread => iff_of_false (by simp) (not_awake_idle rfl),
      fun ⟨thread, waits⟩ => absurd waits (not_waits_boot config list thread)⟩
  exact ⟨Nat.zero_le _, attended _ _, attended _ _⟩

theorem MailAttended.step {mailbox : Nat} {system next : System} {action : Action}
    {emitted : List Notice} (attended : MailAttended mailbox system)
    (calls : MailCalls mailbox action)
    (move : MailMove mailbox system action next emitted) : MailAttended mailbox next := by
  obtain ⟨fits, receivers, senders⟩ := attended
  cases move with
  | rests record quiet lists =>
      refine ⟨by rwa [record], ?_, ?_⟩
      · rw [record]
        exact receivers.of_effect (lists _ rfl) (Or.inl rfl) False.elim (by simp)
      · rw [record]
        exact senders.of_effect (lists _ rfl) (Or.inl rfl) False.elim (by simp)
  | @blocks side loses blocked record quiet joined others =>
      rw [← record] at fits
      cases side with
      | sends value =>
          have full : (system.kernel.mailboxes mailbox).entry =
            (system.kernel.mailboxes mailbox).size := blocked
          refine ⟨fits, ?_, ?_⟩
          · rw [record]
            exact receivers.of_effect others (Or.inl rfl) False.elim (by simp)
          · rw [record]
            exact senders.of_effect joined (Or.inl rfl) (by simp [full]) (by simp [full])
      | receives =>
          have empty : (system.kernel.mailboxes mailbox).entry = 0#16 := blocked
          refine ⟨fits, ?_, ?_⟩
          · rw [record]
            exact receivers.of_effect joined (Or.inl rfl) (by simp [empty]) (by simp [empty])
          · rw [record]
            exact senders.of_effect others (Or.inl rfl) False.elim (by simp)
  | @serves context side loses free record noted succeeds left nobody others =>
      have moved := MailSide.change_entry fits free
      have fits' := MailSide.change_fits fits free
      have size := congrArg Mailbox.size record
      rw [MailSide.change_size] at size
      rw [← record] at moved fits'
      have few : loses.toList.length ≤ 1 := by cases loses <;> simp
      refine ⟨fits', ?_, ?_⟩ <;> rw [size] at * <;> cases side
      · exact receivers.of_effect others (Or.inl rfl) False.elim
          fun ⟨thread, waits⟩ => absurd waits (nobody thread)
      · refine receivers.of_effect left (Or.inl rfl) False.elim fun _ => ?_
        simp only [Option.toList_none, List.length_nil]
        omega
      · refine senders.of_effect left (Or.inl rfl) False.elim fun _ => ?_
        simp only [Option.toList_none, List.length_nil]
        omega
      · exact senders.of_effect others (Or.inl rfl) False.elim
          fun ⟨thread, waits⟩ => absurd waits (nobody thread)
  | @resumes context side loses thread free record noted succeeds left others =>
      have moved := MailSide.change_entry fits free
      have fits' := MailSide.change_fits fits free
      have size := congrArg Mailbox.size record
      rw [MailSide.change_size] at size
      rw [← record] at moved fits'
      have few : loses.toList.length ≤ 1 := by cases loses <;> simp
      refine ⟨fits', ?_, ?_⟩ <;> rw [size] at * <;> cases side
      · refine receivers.of_effect others (Or.inr rfl) False.elim fun _ => ?_
        simp only [Option.toList_none, Option.toList_some, List.length_nil, List.length_singleton]
        omega
      · refine receivers.of_effect left (Or.inl rfl) False.elim fun _ => ?_
        simp only [Option.toList_none, List.length_nil]
        omega
      · refine senders.of_effect left (Or.inl rfl) False.elim fun _ => ?_
        simp only [Option.toList_none, List.length_nil]
        omega
      · refine senders.of_effect others (Or.inr rfl) False.elim fun _ => ?_
        simp only [Option.toList_none, Option.toList_some, List.length_nil, List.length_singleton]
        omega
  | resets begins => exact absurd begins calls.keeps

/-- What is true of the two lists of a mailbox whenever it is looked at. -/
structure NoLostWakeups (mailbox : Nat) (system : System) : Prop where
  receivers : Attended system (.mailbox mailbox) (system.kernel.mailboxes mailbox).entry.toNat
  senders : Attended system (.mailboxSender mailbox)
    ((system.kernel.mailboxes mailbox).size.toNat - (system.kernel.mailboxes mailbox).entry.toNat)
  /-- Once every resumed receiver has run, a waiting one means an empty mailbox. -/
  emptied : (∀ thread, ¬ Awake system (.mailbox mailbox) thread) →
    (∃ thread, system.kernel.Waits (.mailbox mailbox) thread) →
    (system.kernel.mailboxes mailbox).entry = 0
  /-- Once every resumed sender has run, a waiting one means a full mailbox. -/
  filled : (∀ thread, ¬ Awake system (.mailboxSender mailbox) thread) →
    (∃ thread, system.kernel.Waits (.mailboxSender mailbox) thread) →
    (system.kernel.mailboxes mailbox).entry = (system.kernel.mailboxes mailbox).size

theorem no_lost_wakeups {config : Config} {actions : List Action} {notices : List Notice}
    {system : System} {mailbox : Nat}
    (run : systemMachine.Run (fun _ => MailCalls mailbox) (System.boot config) actions notices
      system) : NoLostWakeups mailbox system := by
  have attended := (@Unlocked.run (fun _ => MailCalls mailbox)
    (fun _ system => MailAttended mailbox system) _ _ _ _ run (fun _ _ calls => calls.noResume)
    (.initial config) (.initial config mailbox)
    fun _ _ _ _ _ before _ attended calls move =>
      attended.step calls (move.mailMove before.calls mailbox)).2
  refine ⟨attended.receivers, attended.senders, ?_, ?_⟩
  · intro nobody waits
    have empty := attended.receivers.not_waits nobody waits
    exact BitVec.eq_of_toNat_eq empty
  · intro nobody waits
    have full := attended.senders.not_waits nobody waits
    have fits := attended.fits
    exact BitVec.eq_of_toNat_eq (by omega)

/-- Two threads and mailboxes for two mails. -/
def twoMails : Config :=
  { twoThreads with mailboxSize := fun _ => 2 }

/-- Both threads wait for mail and one of them has been sent some. -/
theorem no_lost_wakeups_two_threads :
    ∃ system notices, systemMachine.execute (System.boot twoMails)
        [.threadStartup 0, .threadStartup 1, .schedulerStart,
          .enter (.thread 0) (.mbRecv 0 0xffffffff), .advance (.thread 0),
          .enter (.thread 1) (.mbRecv 0 0xffffffff),
          .enter (.handler 0) (.mbSendWait 0 7 0)] = some (system, notices) ∧
      ((system.kernel.mailboxes 0).entry = 1 ∧ (system.kernel.threads 0).stat = .ready ∧
        (system.kernel.threads 1).stat = .suspend) ∧ NoLostWakeups 0 system := by
  have final : (systemMachine.execute (System.boot twoMails)
      [.threadStartup 0, .threadStartup 1, .schedulerStart,
        .enter (.thread 0) (.mbRecv 0 0xffffffff), .advance (.thread 0),
        .enter (.thread 1) (.mbRecv 0 0xffffffff),
        .enter (.handler 0) (.mbSendWait 0 7 0)]).map
      (fun final => ((final.1.kernel.mailboxes 0).entry, (final.1.kernel.threads 0).stat,
        (final.1.kernel.threads 1).stat)) = some (1, .ready, .suspend) := by
    decide +kernel
  obtain ⟨⟨system, notices⟩, success, values⟩ := Option.map_eq_some_iff.mp final
  simp only [Prod.mk.injEq] at values
  exact ⟨system, notices, success, values,
    no_lost_wakeups (Machine.run_of_execute (by simp [MailCalls]) success)⟩

end RtThread
