import RtThread.Lwip.TcpRuns
import RtThread.Lwip.TcpSendRuns

/-!
# From one application to the other

A sender and a receiver, with a network between them that loses segments and acknowledgements,
repeats them and delivers them in any order. What is on its way stays there.
-/

namespace RtThread.Lwip

open RtThread.Std

variable {stream : List (BitVec 8)} {base : BitVec 32} {pcb : TcpSendPcb} {rcv : TcpPcb}
  {place : Nat} {seg inseg : TcpSeg}

/-- What arrives of a segment. Its bytes may be in other pbufs. -/
structure TcpSeg.Arrives (seg inseg : TcpSeg) : Prop where
  seqno : inseg.seqno = seg.seqno
  len : inseg.len = seg.len
  syn : inseg.syn = seg.syn
  fin : inseg.fin = seg.fin
  bytes : inseg.p.bytes = seg.p.bytes
  sound : inseg.p.Sound
  chain : inseg.p ≠ []

theorem TcpSeg.Arrives.carries (arrives : seg.Arrives inseg)
    (carries : seg.Carries stream base place) : inseg.Carries stream base place := by
  obtain ⟨seqno, len, syn, fin, bytes, sound, chain⟩ := arrives
  refine ⟨seqno.trans carries.seqno, ?_, ?_, ?_, ?_, syn.trans carries.syn, sound, chain⟩
  · rw [bytes, len]
    exact carries.len
  · rw [bytes, len]
    exact carries.bytes
  · rw [len]
    exact carries.within
  · rw [fin, len]
    exact carries.fin

/-- A segment of what has been written is one of the whole stream. -/
theorem TcpSeg.Carries.extends {written : List (BitVec 8)}
    (carries : seg.Carries written base place) (begins : written <+: stream)
    (ends : seg.fin = true → written = stream) : seg.Carries stream base place := by
  obtain ⟨rest, rfl⟩ := begins
  have within := carries.within
  refine ⟨carries.seqno, carries.len, ?_, ?_, fun fin => ?_, carries.syn, carries.sound,
    carries.chain⟩
  · rw [carries.bytes, slice, slice, List.drop_append_of_le_length (by omega),
      List.take_append_of_le_length (by rw [List.length_drop]; omega)]
  · rw [List.length_append]
    omega
  · rw [← ends fin]
    exact carries.fin fin

/-- The place that the receiver has come to, where the FIN has one as well. -/
def TcpSystem.reached (base : BitVec 32) (system : TcpSystem) : Nat :=
  if system.pcb.rcvNxt = serial base system.inHand.length then system.inHand.length
  else system.inHand.length + 1

theorem TcpSystem.Follows.reached {received : Nat} {finished : Bool} {system : TcpSystem}
    (follows : system.Follows stream base received finished) :
    system.reached base = received + finished.toNat := by
  rw [TcpSystem.reached, follows.length, follows.receives.rcvNxt]
  cases finished with
  | false => rw [Bool.toNat_false, Nat.add_zero, if_pos rfl]
  | true =>
      have apart : serial base (received + 1) ≠ serial base received := by
        rw [ne_eq, serial_inj ⟨by omega, by omega⟩]
        omega
      rw [Bool.toNat_true, if_neg apart]

/-! ## The connection -/

/-- The two ends of a connection, the segments that have been sent and the places that have been
acknowledged. -/
structure TcpTransfer where
  sender : TcpSender
  receiver : TcpSystem
  sent : List TcpSeg
  acks : List Nat
deriving DecidableEq, Repr

inductive TcpTransferAction where
  /-- The sender writes, closes, sends or is called by its timer. -/
  | send (action : TcpSendAction)
  /-- A segment arrives. -/
  | deliver (seg inseg : TcpSeg) (answers : TcpAnswers)
  /-- The receiving application takes data, or the timer is called. -/
  | receive (action : TcpAction)
  /-- An acknowledgement arrives. -/
  | acknowledge (place : Nat) (seqno : BitVec 32) (wnd tcplen : BitVec 16)
deriving DecidableEq, Repr

namespace TcpTransfer

variable {transfer transfer' : TcpTransfer} {events : List TcpEvent} {action : TcpTransferAction}

def sends (transfer : TcpTransfer) : TcpSender × List TcpSeg → TcpTransfer × List TcpEvent
  | (sender, segs) => ({ transfer with sender, sent := transfer.sent ++ segs }, [])

/-- The receiver may acknowledge what it has come to. -/
def receives (base : BitVec 32) (transfer : TcpTransfer) :
    TcpSystem × List TcpEvent → TcpTransfer × List TcpEvent
  | (receiver, events) =>
      ({ transfer with receiver, acks := transfer.acks ++ [receiver.reached base] }, events)

/-- Neither a segment nor an acknowledgement is so old that its number is taken for another one, the
sender is called as it is to be and probes with the first byte of a segment, and a segment that
overtakes others ends where its number says. -/
def Admits (base : BitVec 32) (transfer : TcpTransfer) : TcpTransferAction → Prop
  | .send (.ack _ _ _ _) => False
  | .send action => transfer.sender.Admits action ∧ transfer.sender.ProbesData action
  | .deliver seg inseg _ =>
      seg ∈ transfer.sent ∧ seg.Arrives inseg ∧
        (∃ place, seg.Carries transfer.sender.written base place ∧
          Recent transfer.receiver.inHand.length place) ∧
        transfer.receiver.pcb.EdgeAgrees inseg
  | .receive (.input _ _) => False
  | .receive _ => True
  | .acknowledge place _ _ _ =>
      place ∈ transfer.acks ∧ transfer.receiver.reached base < place + 2 ^ 30

end TcpTransfer

def tcpTransferMachine (base : BitVec 32) : Machine TcpTransfer TcpTransferAction TcpEvent where
  step transfer
    | .send action => (tcpSendMachine.step transfer.sender action).map transfer.sends
    | .deliver _ inseg answers =>
        (tcpMachine.step transfer.receiver (.input inseg answers)).map (transfer.receives base)
    | .receive action => (tcpMachine.step transfer.receiver action).map (transfer.receives base)
    | .acknowledge place seqno wnd tcplen =>
        (tcpSendMachine.step transfer.sender (.ack seqno (serial base place) wnd tcplen)).map
          transfer.sends

namespace TcpTransfer

variable {transfer transfer' : TcpTransfer} {events : List TcpEvent} {action : TcpTransferAction}

/-- Both ends are in step with the stream, and the sender keeps what the receiver lacks. -/
structure InStep (stream : List (BitVec 8)) (base : BitVec 32) (transfer : TcpTransfer) : Prop where
  sender : ∃ acked, transfer.sender.InOrder stream base acked ∧
    acked ≤ transfer.receiver.reached base
  parts : ∀ seg ∈ transfer.sent, seg.PartOf stream base
  receiver : transfer.receiver.InStep stream base

/-- Whatever is written next, the ends are in step. -/
structure Linked (base : BitVec 32) (transfer : TcpTransfer) : Prop where
  inStep : ∀ stream, transfer.sender.Begins stream → transfer.InStep stream base
  acks : ∀ place ∈ transfer.acks, place ≤ transfer.receiver.reached base

namespace Linked

theorem keeps (linked : transfer.Linked base) : transfer.sender.Keeps base := by
  intro stream begins
  obtain ⟨acked, inOrder, -⟩ := (linked.inStep stream begins).sender
  exact ⟨acked, inOrder⟩

theorem own (linked : transfer.Linked base) : transfer.InStep transfer.sender.written base :=
  linked.inStep _ ⟨List.prefix_rfl, fun _ => rfl⟩

/-- Two streams differ behind what has been written, until the end of the stream is known. -/
theorem open_ (linked : transfer.Linked base) (shut : transfer.sender.shut = false) :
    transfer.InStep (transfer.sender.written ++ [0]) base :=
  linked.inStep _ ⟨List.prefix_append _ _, fun ended => by rw [shut] at ended; cases ended⟩

/-- A FIN is only on its way once the stream has ended. -/
theorem shut_of_fin (linked : transfer.Linked base) (prior : seg ∈ transfer.sent)
    (fin : seg.fin = true) : transfer.sender.shut = true := by
  cases shut : transfer.sender.shut with
  | true => rfl
  | false =>
      obtain ⟨⟨place, carries⟩, -⟩ := linked.own.parts seg prior
      obtain ⟨⟨place', carries'⟩, -⟩ := (linked.open_ shut).parts seg prior
      have stop := carries.fin fin
      have stop' := carries'.fin fin
      rw [List.length_append, List.length_singleton] at stop'
      have same : serial base place' = serial base place :=
        carries'.seqno.symm.trans carries.seqno
      rw [serial_inj ⟨by omega, by omega⟩] at same
      omega

/-- Nothing arrives that has not been written. -/
theorem reached_le (linked : transfer.Linked base) :
    transfer.receiver.reached base ≤ transfer.sender.given := by
  obtain ⟨received, finished, follows⟩ := linked.own.receiver
  have within := follows.receives.within
  rw [follows.reached, TcpSender.given]
  cases shut : transfer.sender.shut with
  | true =>
      have one := Bool.toNat_le finished
      rw [Bool.toNat_true]
      omega
  | false =>
      obtain ⟨received', finished', follows'⟩ := (linked.open_ shut).receiver
      have length := follows.length.symm.trans follows'.length
      have reached := follows.reached.symm.trans follows'.reached
      cases finish : finished with
      | false => exact Nat.add_le_add_right within 0
      | true =>
          have finish' : finished' = true := by
            cases finished' with
            | true => rfl
            | false =>
                rw [finish, Bool.toNat_true, Bool.toNat_false] at reached
                omega
          have ends := follows.receives.ends finish
          have ends' := follows'.receives.ends finish'
          rw [List.length_append, List.length_singleton] at ends'
          omega

/-- What is acknowledged is not far in front of the sender. -/
theorem recent (linked : transfer.Linked base)
    (known : place ≤ transfer.receiver.reached base)
    (late : transfer.receiver.reached base < place + 2 ^ 30) :
    transfer.sender.pcb.Recent (serial base place) := by
  obtain ⟨acked, inOrder, behind⟩ := linked.own.sender
  obtain ⟨next, held, waiting, sends⟩ := inOrder.sends
  have close := sends.close
  have given := linked.reached_le
  have buf : tcpSndBuf.toNat = 2048 := rfl
  have least : (0xc0000000 : BitVec 32).toInt = -2 ^ 30 := by decide
  rw [TcpSendPcb.Recent, sends.lastack, BitVec.slt_iff_toInt_lt,
    serial_sub_toInt ⟨by omega, by omega⟩, least]
  omega

/-- A step of the sender. An acknowledgement is one that the receiver has sent. -/
theorem sends {action : TcpSendAction} {sender : TcpSender} {segs : List TcpSeg}
    (linked : transfer.Linked base)
    (transition : tcpSendMachine.step transfer.sender action = some (sender, segs))
    (admitted : transfer.sender.Admits action) (probes : transfer.sender.ProbesData action)
    (known : ∀ seqno ackno wnd tcplen, action = .ack seqno ackno wnd tcplen →
      ∃ place, ackno = serial base place ∧ place ≤ transfer.receiver.reached base ∧
        transfer.receiver.reached base < place + 2 ^ 30) :
    (transfer.sends (sender, segs)).1.Linked base := by
  have given := linked.reached_le
  have buf : tcpSndBuf.toNat = 2048 := rfl
  refine ⟨fun stream begins => ?_, linked.acks⟩
  have inStep := linked.inStep stream (begins.earlier linked.keeps.ended admitted transition)
  obtain ⟨acked, inOrder, behind⟩ := inStep.sender
  obtain ⟨next, held, waiting, sends⟩ := inOrder.sends
  have close := sends.close
  obtain ⟨⟨acked', further, either, inOrder'⟩, parts⟩ := inOrder.step begins admitted transition
  refine ⟨⟨acked', inOrder', ?_⟩, fun seg member => ?_, inStep.receiver⟩
  · rcases either with rfl | ⟨later, within, seqno, ackno, wnd, tcplen, acks, number⟩
    · exact behind
    · obtain ⟨place, number', before, late⟩ := known seqno ackno wnd tcplen acks
      rw [number', serial_inj ⟨by omega, by omega⟩] at number
      rw [← number]
      exact before
  · rcases List.mem_append.mp member with member | member
    · exact inStep.parts seg member
    · exact parts probes seg member

/-- A step of the receiver. -/
theorem receives {action : TcpAction} {receiver : TcpSystem} (linked : transfer.Linked base)
    (transition : tcpMachine.step transfer.receiver action = some (receiver, events))
    (admitted : ∀ stream, transfer.sender.Begins stream →
      transfer.receiver.Admits stream base action) :
    (transfer.receives base (receiver, events)).1.Linked base := by
  have steps (stream : List (BitVec 8)) (begins : transfer.sender.Begins stream) :
      receiver.InStep stream base ∧
        transfer.receiver.reached base ≤ receiver.reached base := by
    obtain ⟨received, finished, follows⟩ := (linked.inStep stream begins).receiver
    obtain ⟨received', finished', further, stays, follows'⟩ :=
      follows.step (admitted stream begins) transition
    refine ⟨⟨received', finished', follows'⟩, ?_⟩
    rw [follows.reached, follows'.reached]
    cases finished with
    | false => exact further.trans (Nat.le_add_right _ _)
    | true =>
        rw [stays rfl]
        exact Nat.add_le_add_right further 1
  obtain ⟨-, further⟩ := steps _ ⟨List.prefix_rfl, fun _ => rfl⟩
  refine ⟨fun stream begins => ?_, fun place member => ?_⟩
  · have inStep := linked.inStep stream ⟨begins.written, begins.whole⟩
    obtain ⟨acked, inOrder, behind⟩ := inStep.sender
    exact ⟨⟨acked, inOrder, behind.trans further⟩, inStep.parts,
      (steps stream ⟨begins.written, begins.whole⟩).1⟩
  · rcases List.mem_append.mp member with member | single
    · exact (linked.acks place member).trans further
    · rw [List.mem_singleton.mp single]
      rfl

/-- Every step keeps the ends in step. -/
theorem step (linked : transfer.Linked base) (admitted : transfer.Admits base action)
    (transition : (tcpTransferMachine base).step transfer action = some (transfer', events)) :
    transfer'.Linked base := by
  cases action with
  | send action =>
      obtain ⟨⟨sender, segs⟩, stepped, same⟩ := Option.map_eq_some_iff.mp transition
      obtain ⟨rfl, rfl⟩ := Prod.mk.inj same
      cases action with
      | ack seqno ackno wnd tcplen => exact admitted.elim
      | write arg flags room => exact linked.sends stepped admitted.1 trivial nofun
      | close room ackNow => exact linked.sends stepped admitted.1 trivial nofun
      | output ackNow => exact linked.sends stepped admitted.1 trivial nofun
      | slowtmr rto room ackNow header => exact linked.sends stepped admitted.1 admitted.2 nofun
  | deliver seg inseg answers =>
      obtain ⟨⟨receiver, told⟩, stepped, same⟩ := Option.map_eq_some_iff.mp transition
      obtain ⟨rfl, rfl⟩ := Prod.mk.inj same
      obtain ⟨prior, arrives, ⟨place, carries, recent⟩, agrees⟩ := admitted
      obtain ⟨-, small⟩ := linked.own.parts seg prior
      have mss : tcpMss = 1460 := rfl
      refine linked.receives stepped fun stream begins => .inr ⟨place, ?_, ?_, recent, agrees⟩
      · exact arrives.carries (carries.extends begins.written fun fin =>
          begins.whole (linked.shut_of_fin prior fin))
      · rw [arrives.len]
        omega
  | receive action =>
      obtain ⟨⟨receiver, told⟩, stepped, same⟩ := Option.map_eq_some_iff.mp transition
      obtain ⟨rfl, rfl⟩ := Prod.mk.inj same
      cases action with
      | input inseg answers => exact admitted.elim
      | recved len => exact linked.receives stepped fun _ _ => trivial
      | fasttmr takes => exact linked.receives stepped fun _ _ => trivial
      | dropOoseq => exact linked.receives stepped fun _ _ => trivial
      | sent => exact linked.receives stepped fun _ _ => trivial
  | acknowledge place seqno wnd tcplen =>
      obtain ⟨⟨sender, segs⟩, stepped, same⟩ := Option.map_eq_some_iff.mp transition
      obtain ⟨rfl, rfl⟩ := Prod.mk.inj same
      obtain ⟨prior, late⟩ := admitted
      have known := linked.acks place prior
      refine linked.sends stepped (linked.recent known late) trivial fun _ _ _ _ same => ?_
      obtain ⟨-, rfl, -, -⟩ : seqno = _ ∧ serial base place = _ ∧ wnd = _ ∧ tcplen = _ := by
        simpa using same
      exact ⟨place, rfl, known, late⟩

end Linked

/-- What the two applications may rely on. -/
structure Delivers (base : BitVec 32) (transfer : TcpTransfer) : Prop where
  inOrder : transfer.receiver.inHand <+: transfer.sender.written
  closes : transfer.receiver.closed = true →
    transfer.sender.shut = true ∧ transfer.receiver.inHand = transfer.sender.written
  /-- What has not arrived is still with the sender. -/
  kept : ∀ place, transfer.receiver.reached base ≤ place → place < transfer.sender.given →
    ∃ seg ∈ transfer.sender.pcb.unacked ++ transfer.sender.pcb.unsent, ∃ start,
      seg.Carries transfer.sender.written base start ∧ start ≤ place ∧ place < start + seg.tcplen

theorem Linked.delivers (linked : transfer.Linked base) : transfer.Delivers base := by
  obtain ⟨received, finished, follows⟩ := linked.own.receiver
  have delivers := follows.delivers
  refine ⟨delivers.inOrder, fun closed => ⟨?_, delivers.closes closed⟩, fun place later within => ?_⟩
  · have finish := follows.closed closed
    have given := linked.reached_le
    rw [follows.reached, finish, follows.receives.ends finish, TcpSender.given] at given
    cases shut : transfer.sender.shut with
    | true => rfl
    | false =>
        rw [shut, Bool.toNat_true, Bool.toNat_false] at given
        omega
  · obtain ⟨acked, inOrder, behind⟩ := linked.own.sender
    obtain ⟨next, held, waiting, sends⟩ := inOrder.sends
    obtain ⟨p, member, first, last⟩ := sends.queues.covers place (behind.trans later) within
    have outgoing := sends.outgoing p member
    refine ⟨p.value, ?_, p.place, outgoing.carries, first, ?_⟩
    · rw [sends.unacked, sends.unsent, ← List.map_append]
      exact List.mem_map_of_mem member
    · rwa [← outgoing.count]

/-! Whether a step is admitted can be decided, so that a run can be checked. -/

instance decidableSound : (chain : PbufChain) → Decidable chain.Sound
  | [] => inferInstanceAs (Decidable True)
  | _ :: rest => @instDecidableAnd _ _ inferInstance (decidableSound rest)

instance : Decidable (seg.Carries stream base place) :=
  decidable_of_iff (seg.seqno = serial base place ∧ seg.p.bytes.length = seg.len.toNat ∧
      seg.p.bytes = slice stream place seg.len.toNat ∧ place + seg.len.toNat ≤ stream.length ∧
      (seg.fin = true → place + seg.len.toNat = stream.length) ∧ seg.syn = false ∧ seg.p.Sound ∧
      seg.p ≠ [])
    ⟨fun ⟨seqno, len, bytes, within, fin, syn, sound, chain⟩ =>
      ⟨seqno, len, bytes, within, fin, syn, sound, chain⟩,
    fun ⟨seqno, len, bytes, within, fin, syn, sound, chain⟩ =>
      ⟨seqno, len, bytes, within, fin, syn, sound, chain⟩⟩

instance : Decidable (seg.Arrives inseg) :=
  decidable_of_iff (inseg.seqno = seg.seqno ∧ inseg.len = seg.len ∧ inseg.syn = seg.syn ∧
      inseg.fin = seg.fin ∧ inseg.p.bytes = seg.p.bytes ∧ inseg.p.Sound ∧ inseg.p ≠ [])
    ⟨fun ⟨seqno, len, syn, fin, bytes, sound, chain⟩ =>
      ⟨seqno, len, syn, fin, bytes, sound, chain⟩,
    fun ⟨seqno, len, syn, fin, bytes, sound, chain⟩ =>
      ⟨seqno, len, syn, fin, bytes, sound, chain⟩⟩

instance {received : Nat} : Decidable (Recent received place) :=
  decidable_of_iff (place < received + 2 ^ 30 ∧ received < place + 2 ^ 30)
    ⟨fun ⟨left, right⟩ => ⟨left, right⟩, fun ⟨left, right⟩ => ⟨left, right⟩⟩

instance {received : Nat} :
    Decidable (∃ place, seg.Carries stream base place ∧ Recent received place) :=
  decidable_of_iff (∃ place < stream.length + 1, seg.Carries stream base place ∧
      Recent received place)
    ⟨fun ⟨place, _, part⟩ => ⟨place, part⟩, fun ⟨place, carries, recent⟩ =>
      ⟨place, Nat.lt_succ_of_le (Nat.le_of_add_right_le carries.within), carries, recent⟩⟩

instance : Decidable (transfer.Admits base action) :=
  match action with
  | .send (.ack _ _ _ _) => inferInstanceAs (Decidable False)
  | .send (.write arg flags room) => inferInstanceAs (Decidable
      (transfer.sender.Admits (.write arg flags room) ∧ True))
  | .send (.close room ackNow) => inferInstanceAs (Decidable
      (transfer.sender.Admits (.close room ackNow) ∧ True))
  | .send (.output _) => inferInstanceAs (Decidable (True ∧ True))
  | .send (.slowtmr rto room ackNow header) => inferInstanceAs (Decidable
      (transfer.sender.Admits (.slowtmr rto room ackNow header) ∧
        transfer.sender.ProbesData (.slowtmr rto room ackNow header)))
  | .deliver _ _ _ => inferInstanceAs (Decidable (_ ∧ _ ∧ _ ∧ _))
  | .receive (.input _ _) => inferInstanceAs (Decidable False)
  | .receive (.recved _) => inferInstanceAs (Decidable True)
  | .receive (.fasttmr _) => inferInstanceAs (Decidable True)
  | .receive .dropOoseq => inferInstanceAs (Decidable True)
  | .receive .sent => inferInstanceAs (Decidable True)
  | .acknowledge _ _ _ _ => inferInstanceAs (Decidable (_ ∧ _))

end TcpTransfer

/-- In every run the one application is handed what the other one has written, in order and each
byte once, and what has not arrived is still with the sender, whatever the network loses, repeats
and reorders. -/
theorem tcp_transfers {actions : List TcpTransferAction} {events : List TcpEvent}
    {transfer : TcpTransfer} (opens : pcb.Opens base) (opens' : rcv.Opens base)
    (run : (tcpTransferMachine base).Run (TcpTransfer.Admits base)
      ⟨⟨pcb, [], false⟩, ⟨rcv, [], false⟩, [], [0]⟩ actions events transfer) :
    transfer.Delivers base := by
  have initial : TcpTransfer.Linked base ⟨⟨pcb, [], false⟩, ⟨rcv, [], false⟩, [], [0]⟩ :=
    ⟨fun stream _ => ⟨⟨0, opens.inOrder, Nat.zero_le _⟩, by simp, ⟨0, false, opens'.follows⟩⟩,
      by simp⟩
  have linked : transfer.Linked base := run.invariant initial
    fun _ _ _ _ linked admitted transition => linked.step admitted transition
  exact linked.delivers

/-! A segment arrives in two pieces of a pbuf chain after a retransmission, and the FIN overtakes
the data in front of it. -/

def hastyPcb : TcpSendPcb := { freshPcb with nodelay := true }

def talking : TcpTransfer := ⟨⟨hastyPcb, [], false⟩, ⟨wrappingPcb, [], false⟩, [], [0]⟩

def firstSent : TcpSeg := ⟨0xfffffffe, 4, false, false, [⟨[1, 2, 3, 4], 4⟩]⟩

def firstArrived : TcpSeg := { firstSent with p := [⟨[1], 4⟩, ⟨[2, 3, 4], 3⟩] }

def lastSent : TcpSeg := ⟨2, 2, false, true, [⟨[5, 6], 2⟩]⟩

def overtaken : List TcpTransferAction :=
  [.send (.write [1, 2, 3, 4, 5, 6] copied roomy), .send (.close true false),
    .deliver lastSent lastSent eager, .acknowledge 0 0 8 0, .send (.slowtmr 1 true false []),
    .deliver firstSent firstArrived eager, .deliver firstSent firstSent eager,
    .acknowledge 7 0 8 0]

theorem tcp_transfers_overtaken : ∃ events transfer,
    (tcpTransferMachine 0xfffffffe).Run (TcpTransfer.Admits 0xfffffffe) talking overtaken events
      transfer ∧ transfer.receiver.inHand = [1, 2, 3, 4, 5, 6] ∧
      transfer.sender.pcb.unacked = [] ∧ transfer.Delivers 0xfffffffe := by
  have outcome : (((tcpTransferMachine 0xfffffffe).restrict (TcpTransfer.Admits 0xfffffffe)).execute
      talking overtaken).any (fun outcome =>
        decide (outcome.1.receiver.inHand = [1, 2, 3, 4, 5, 6] ∧
          outcome.1.sender.pcb.unacked = [])) = true := by
    decide +kernel
  obtain ⟨⟨transfer, events⟩, done, arrived⟩ := (Option.any_eq_true _ _).mp outcome
  have run := Machine.run_of_execute_restrict done
  obtain ⟨inHand, unacked⟩ := of_decide_eq_true arrived
  have opens : hastyPcb.Opens 0xfffffffe :=
    ⟨.inl rfl, rfl, rfl, rfl, rfl, rfl, rfl, rfl, rfl, by decide, by decide⟩
  exact ⟨events, transfer, run, inHand, unacked, tcp_transfers opens ⟨rfl, rfl, rfl⟩ run⟩

/-! A probe of a segment that has not been sent carries its first byte. When the segment has been
sent over Ethernet and is lost, the probe carries a byte of the link header in its place, which the
receiver takes for data. -/

def tcpHeader : List (BitVec 8) :=
  [0, 23, 0, 80, 0, 0, 0, 2, 0, 0, 0, 0, 0x50, 0x18, 8, 0, 0, 0, 0, 0]

def etherHeader : List (BitVec 8) :=
  [0x02, 0, 0, 0, 0, 1, 0x02, 0, 0, 0, 0, 2, 0x08, 0] ++
    [0x45, 0, 0, 44, 0, 7, 0, 0, 64, 6, 0, 0, 10, 0, 0, 2, 10, 0, 0, 1] ++ tcpHeader

def probedWith (header : List (BitVec 8)) (probe : TcpSeg) : List TcpTransferAction :=
  List.replicate 3 (.send (.slowtmr 9 true false header)) ++ [.deliver probe probe eager]

def closedWindow : List TcpTransferAction :=
  [.send (.write [1, 2, 3, 4] copied roomy), .send (.output false),
    .deliver firstSent firstSent eager, .acknowledge 4 0 0 0,
    .send (.write [5, 6] copied roomy), .send (.output false)]

example : ((tcpTransferMachine 0xfffffffe).restrict (TcpTransfer.Admits 0xfffffffe)).execute
    talking (closedWindow ++ probedWith tcpHeader ⟨2, 1, false, false, [⟨[5], 1⟩]⟩) |>.any
      (fun outcome => outcome.1.receiver.inHand = [1, 2, 3, 4, 5]) := by
  decide +kernel

def lostBehind : List TcpTransferAction :=
  [.send (.write [1, 2, 3, 4, 5, 6, 7, 8] copied roomy), .send (.output false)]

example : (tcpTransferMachine 0xfffffffe).execute talking
    (lostBehind ++ probedWith etherHeader ⟨0xfffffffe, 1, false, false, [⟨[2], 1⟩]⟩) |>.any
      (fun outcome => ⟨0xfffffffe, 1, false, false, [⟨[2], 1⟩]⟩ ∈ outcome.1.sent ∧
        outcome.1.receiver.inHand = [2]) := by
  decide +kernel

end RtThread.Lwip
