import RtThread.Lwip.TcpWrites

/-!
# Runs of the sender

Whatever the application writes, the peer acknowledges and the timer does, the sender has what it
has been given in its queues until it is acknowledged, and it sends nothing else.
-/

namespace RtThread.Lwip

open RtThread.Std

variable {stream : List (BitVec 8)} {base : BitVec 32} {acked next total : Nat} {opened : Bool}
  {held waiting : List (Portion TcpSeg)} {pcb pcb' : TcpSendPcb} {p : Portion TcpSeg}

/-! ## Closing -/

theorem tcpSendFin_cases {room : Bool} {result : Except SendError Unit}
    (sent : pcb.tcpSendFin room = some (pcb', result)) : result = .ok () ∨
      (∃ error, result = .error error) ∧ pcb.SameData pcb' ∧ pcb'.state = pcb.state := by
  have enqueue (enqueued : pcb.tcpEnqueueFin room = some (pcb', result)) : result = .ok () ∨
      (∃ error, result = .error error) ∧ pcb.SameData pcb' ∧ pcb'.state = pcb.state := by
    rw [TcpSendPcb.tcpEnqueueFin] at enqueued
    split at enqueued
    · cases enqueued
      exact .inr ⟨⟨_, rfl⟩, ⟨rfl, rfl, rfl, rfl, rfl, rfl, rfl, rfl, rfl⟩, rfl⟩
    split at enqueued
    · cases enqueued
      exact .inr ⟨⟨_, rfl⟩, ⟨rfl, rfl, rfl, rfl, rfl, rfl, rfl, rfl, rfl⟩, rfl⟩
    split at enqueued
    · cases enqueued
      exact .inr ⟨⟨_, rfl⟩, ⟨rfl, rfl, rfl, rfl, rfl, rfl, rfl, rfl, rfl⟩, rfl⟩
    · cases enqueued
      exact .inl rfl
  rw [TcpSendPcb.tcpSendFin] at sent
  split at sent
  · split at sent
    · cases sent
      exact .inl rfl
    · exact enqueue sent
  · exact enqueue sent

/-- The FIN goes behind all of the data. -/
theorem tcpSendFin_spec (room : Bool)
    (sends : Sends stream base acked next total true held waiting pcb) (ordered : pcb.Ordered)
    (whole : total = stream.length) :
    ∃ pcb' result, pcb.tcpSendFin room = some (pcb', result) ∧
      (result = .ok () → (∃ waiting',
        Sends stream base acked next (total + 1) false held waiting' pcb') ∧
        pcb'.state = pcb.state) := by
  obtain ⟨lbb, buf, -, -⟩ := sends.writes rfl
  have most : tcpSndQueuelen.toNat = 5 := rfl
  have sent := sends.sent
  have bound := pcb.sndBuf.isLt
  rw [TcpSendPcb.tcpSendFin]
  rcases List.eq_nil_or_concat waiting with rfl | ⟨front, p, rfl⟩
  · have none_ : pcb.unsent = [] := sends.unsent
    have count := sends.queuelen
    rw [none_, List.getLast?_nil]
    dsimp only
    rw [TcpSendPcb.tcpEnqueueFin]
    split
    · exact ⟨_, _, rfl, nofun⟩
    rename_i few
    split
    · exact ⟨_, _, rfl, nofun⟩
    split
    · exact ⟨_, _, rfl, nofun⟩
    refine ⟨_, _, rfl, fun _ =>
      ⟨⟨[⟨total, 1, ⟨pcb.sndLbb, 0, false, true, [⟨[], 0⟩]⟩⟩], ?_⟩, rfl⟩⟩
    have less := BitVec.not_le.mp (not_or.mp few).1
    rw [BitVec.lt_def, most] at less
    have one : (pcb.sndQueuelen + 1).toNat = pcb.sndQueuelen.toNat + 1 := by
      rw [BitVec.toNat_add]
      exact Nat.mod_eq_of_lt (by simp; omega)
    refine ⟨sends.unacked, by rw [none_]; rfl, fun q member => ?_,
      sends.queues.append rfl Nat.one_pos, sends.lastack, sends.sndNxt, sends.started, by omega,
      sends.heldSent, by omega, sends.mss, sends.mssMost, ?_, ?_, nofun⟩
    · rcases List.mem_append.mp member with member | single
      · exact sends.outgoing q (List.mem_append_left _ member)
      · obtain rfl := List.mem_singleton.mp single
        exact ⟨⟨lbb, rfl, rfl, whole.le, fun _ => whole, rfl, ⟨rfl, trivial⟩, nofun⟩, rfl,
          BitVec.le_def.mpr (Nat.zero_le _)⟩
    · change (pcb.sndQueuelen + 1).toNat = clens (pcb.unacked ++ (pcb.unsent ++ _))
      rw [one, count, none_, List.append_nil, List.nil_append, clens_append]
      rfl
    · change pcb.sndQueuelen + 1 ≤ _
      rw [BitVec.le_def, one, most]
      omega
  · rw [List.concat_eq_append] at *
    have own : p ∈ held ++ (front ++ [p]) := by simp
    have outgoing := sends.outgoing p own
    have carries := outgoing.carries
    have finish := sends.open_ own
    have ends := sends.queues.last_stop (sends.ordered ordered)
    have span : p.stop = p.place + p.value.len.toNat := by
      rw [Portion.stop, outgoing.count, carries.tcplen, finish]
      rfl
    have parts : pcb.unsent = front.map Portion.value ++ [p.value] := by
      rw [sends.unsent, List.map_append]
      rfl
    have count := sends.queuelen
    rw [parts, List.getLast?_concat]
    dsimp only
    rw [if_pos (by rw [carries.syn, finish]; exact ⟨nofun, nofun⟩), List.dropLast_concat]
    refine ⟨_, _, rfl, fun _ => ⟨⟨front ++ [⟨p.place, p.count + 1, { p.value with fin := true }⟩],
      ?_⟩, rfl⟩⟩
    have queues := sends.queues.extend ends
      ⟨p.place, p.count + 1, { p.value with fin := true }⟩ rfl (Nat.le_succ _) (by
        rw [← ends]
        rfl)
    refine ⟨sends.unacked, by simp, fun q member => ?_, queues, sends.lastack, sends.sndNxt,
      sends.started, by omega, sends.heldSent, by omega, sends.mss, sends.mssMost, ?_, sends.few,
      nofun⟩
    · rw [← List.append_assoc] at member
      rcases List.mem_append.mp member with member | single
      · exact sends.outgoing q (by
          rw [← List.append_assoc]
          exact List.mem_append_left _ member)
      · obtain rfl := List.mem_singleton.mp single
        refine ⟨⟨carries.seqno, carries.len, carries.bytes, carries.within, fun _ => ?_, carries.syn,
          carries.sound, carries.chain⟩, ?_, outgoing.small⟩
        · change p.place + p.value.len.toNat = _
          omega
        · rw [outgoing.count, carries.tcplen, finish]
          change _ = p.value.len.toNat + if true || p.value.syn then 1 else 0
          rw [Bool.true_or]
          rfl
    · change pcb.sndQueuelen.toNat = clens (pcb.unacked ++ (_ ++ [{ p.value with fin := true }]))
      rw [count, parts, clens_append, clens_append, clens_append, clens_append]
      rfl

theorem sendFinIn_spec (state : TcpState) (room ackNow : Bool)
    (sends : Sends stream base acked next total true held waiting pcb) (ordered : pcb.Ordered)
    (whole : total = stream.length) :
    ∃ pcb' segs result, pcb.sendFinIn state room ackNow = some (pcb', segs, result) ∧
      (result = .ok () → pcb'.state = state ∧
        (∃ next' held' waiting', Sends stream base acked next' (total + 1) false held' waiting' pcb') ∧
        ∀ seg ∈ segs, seg.PartOf stream base) := by
  obtain ⟨pcb', result, sent, done⟩ := tcpSendFin_spec room sends ordered whole
  rw [TcpSendPcb.sendFinIn, sent]
  cases result with
  | error error => exact ⟨_, _, _, rfl, nofun⟩
  | ok _ =>
      obtain ⟨⟨waiting', sends'⟩, -⟩ := done rfl
      have sends'' : Sends stream base acked next (total + 1) false held waiting'
          { pcb' with state } :=
        sends'.congr ⟨rfl, rfl, rfl, rfl, rfl, rfl, rfl, rfl, rfl⟩
      obtain ⟨⟨⟨next', held', waiting'', -, sends''⟩, parts, state'⟩, -⟩ :=
        tcpOutput_spec ackNow sends'' nofun
      exact ⟨_, _, _, rfl, fun _ => ⟨state', ⟨next', held', waiting'', sends''⟩, parts⟩⟩

/-- Closing changes nothing when there is no room for the FIN. -/
theorem sendFinIn_cases {state : TcpState} {room ackNow : Bool} {segs : List TcpSeg}
    {result : Except SendError Unit}
    (sent : pcb.sendFinIn state room ackNow = some (pcb', segs, result)) : result = .ok () ∨
      (∃ error, result = .error error) ∧ segs = [] ∧ pcb.SameData pcb' ∧
        pcb'.state = pcb.state := by
  obtain ⟨⟨pcb₁, result₁⟩, fin, sent⟩ := Option.bind_eq_some_iff.mp sent
  rcases tcpSendFin_cases fin with rfl | ⟨⟨error, rfl⟩, same, kept⟩
  · cases sent
    exact .inl rfl
  · cases sent
    exact .inr ⟨⟨error, rfl⟩, rfl, same, kept⟩

/-! ## Runs -/

namespace TcpSender

variable {sender sender' : TcpSender} {action : TcpSendAction} {segs : List TcpSeg}

/-- The number of places that the sender has been given, of which the last one is the FIN's. -/
def given (sender : TcpSender) : Nat := sender.written.length + sender.shut.toNat

/-- What has been written is the beginning of the stream, and all of it in the end. -/
structure Begins (stream : List (BitVec 8)) (sender : TcpSender) : Prop where
  written : sender.written <+: stream
  whole : sender.shut = true → sender.written = stream

/-- The sender has what is not acknowledged. -/
structure InOrder (stream : List (BitVec 8)) (base : BitVec 32) (acked : Nat)
    (sender : TcpSender) : Prop where
  sends : ∃ next held waiting,
    Sends stream base acked next sender.given (! sender.shut) held waiting sender.pcb
  settled : sender.pcb.Settled (! sender.shut)
  opened : sender.shut = false → sender.pcb.state = .established ∨ sender.pcb.state = .closeWait
  ended : sender.shut = true → sender.pcb.state = .finWait1 ∨ sender.pcb.state = .lastAck

/-- A fast retransmission that is held up is sent before anything else is queued or sent again, and
no acknowledgement is so old that it is taken for a later one. -/
def Admits (sender : TcpSender) : TcpSendAction → Prop
  | .write arg _ _ => arg.length < 2 ^ 16 ∧ sender.pcb.Ordered
  | .close _ _ => sender.pcb.Ordered
  | .slowtmr _ _ _ _ => sender.pcb.Ordered
  | .ack _ ackno _ _ => sender.pcb.Recent ackno
  | .output _ => True

/-- More of the stream is written. -/
theorem Begins.more {arg : List (BitVec 8)} (begins : (sender.written ++ arg) <+: stream) :
    Continues stream sender.written.length arg := by
  obtain ⟨rest, rfl⟩ := begins
  refine ⟨?_, by simp⟩
  rw [slice, List.append_assoc, List.drop_left, List.take_left]

theorem InOrder.same (inOrder : sender.InOrder stream base acked)
    (same : sender.pcb.SameData pcb) (state : pcb.state = sender.pcb.state) :
    InOrder stream base acked { sender with pcb } := by
  obtain ⟨next, held, waiting, sends⟩ := inOrder.sends
  exact ⟨⟨next, held, waiting, sends.congr same⟩, Settled.congr same inOrder.settled,
    fun open_ => by rw [state]; exact inOrder.opened open_,
    fun shut => by rw [state]; exact inOrder.ended shut⟩

/-- Data goes on its way. -/
theorem InOrder.sent (inOrder : sender.InOrder stream base acked)
    (settled : pcb.Settled (! sender.shut)) (state : pcb.state = sender.pcb.state) {acked' : Nat}
    (sends : ∃ next held waiting,
      Sends stream base acked' next sender.given (! sender.shut) held waiting pcb) :
    InOrder stream base acked' { sender with pcb } :=
  ⟨sends, settled, fun open_ => by rw [state]; exact inOrder.opened open_,
    fun shut => by rw [state]; exact inOrder.ended shut⟩

theorem InOrder.write {arg : List (BitVec 8)} {flags : WriteFlags} {room : WriteRoom}
    {result : Except SendError Unit} (inOrder : sender.InOrder stream base acked)
    (begins : (sender.wrote arg (pcb, result)).Begins stream) (short : arg.length < 2 ^ 16)
    (ordered : sender.pcb.Ordered)
    (wrote : sender.pcb.tcpWrite arg flags room = some (pcb, result)) :
    (sender.wrote arg (pcb, result)).InOrder stream base acked := by
  rcases tcpWrite_cases wrote with ⟨rfl, checks, -⟩ | ⟨⟨error, rfl⟩, same, state⟩
  · have open_ : sender.shut = false := by
      rw [Bool.eq_false_iff]
      intro shut
      have writable := (tcpWriteChecks_room short checks).1
      rcases inOrder.ended shut with state | state
      · rw [TcpSendPcb.writable, state] at writable
        cases writable
      · rw [TcpSendPcb.writable, state] at writable
        cases writable
    obtain ⟨next, held, waiting, sends⟩ := inOrder.sends
    have settled := inOrder.settled
    have opened := inOrder.opened open_
    have given : sender.given = sender.written.length := by
      rw [TcpSender.given, open_]
      rfl
    rw [open_, given] at sends
    rw [open_] at settled
    obtain ⟨pcb', result', wrote', done⟩ :=
      tcpWrite_spec flags room sends settled ordered (Begins.more begins.written) short
    obtain ⟨rfl, rfl⟩ := Prod.mk.inj (Option.some_inj.mp (wrote.symm.trans wrote'))
    obtain ⟨waiting', sends', settled', state⟩ := done rfl
    refine ⟨⟨next, held, waiting', ?_⟩, ?_, fun _ => by rwa [← state] at opened, fun shut => ?_⟩
    · change Sends stream base acked next ((sender.written ++ arg).length + sender.shut.toNat)
        (! sender.shut) held waiting' pcb
      rw [open_, List.length_append]
      exact sends'
    · change pcb.Settled (! sender.shut)
      rw [open_]
      exact settled'
    · change sender.shut = true at shut
      rw [open_] at shut
      cases shut
  · exact inOrder.same same state

theorem InOrder.close {room ackNow : Bool} {result : Except SendError Unit}
    (inOrder : sender.InOrder stream base acked)
    (begins : (sender.closed (pcb, segs, result)).1.Begins stream)
    (ordered : sender.pcb.Ordered)
    (closing : sender.pcb.tcpCloseShutdown room ackNow = some (pcb, segs, result)) :
    (sender.closed (pcb, segs, result)).1.InOrder stream base acked ∧
      ∀ seg ∈ segs, seg.PartOf stream base := by
  rw [TcpSendPcb.tcpCloseShutdown] at closing
  have finish (state : TcpState) (ends : state = .finWait1 ∨ state = .lastAck)
      (open_ : sender.shut = false)
      (sent : sender.pcb.sendFinIn state room ackNow = some (pcb, segs, result)) :
      (sender.closed (pcb, segs, result)).1.InOrder stream base acked ∧
        ∀ seg ∈ segs, seg.PartOf stream base := by
    rcases sendFinIn_cases sent with rfl | ⟨⟨error, rfl⟩, rfl, same, state⟩
    · obtain ⟨next, held, waiting, sends⟩ := inOrder.sends
      have whole : sender.written = stream := begins.whole rfl
      rw [open_] at sends
      obtain ⟨pcb', segs', result', sent', done⟩ := sendFinIn_spec state room ackNow sends ordered (by
        rw [TcpSender.given, open_, whole]
        rfl)
      obtain ⟨rfl, rfl, rfl⟩ : pcb = pcb' ∧ segs = segs' ∧ .ok () = result' := by
        simpa using sent.symm.trans sent'
      obtain ⟨state', ⟨next', held', waiting', sends'⟩, parts⟩ := done rfl
      refine ⟨⟨⟨next', held', waiting', ?_⟩, nofun, nofun, fun _ => by rwa [← state'] at ends⟩,
        parts⟩
      change Sends stream base acked next' (sender.written.length + 1) false held' waiting' pcb
      rw [TcpSender.given, open_] at sends'
      exact sends'
    · exact ⟨inOrder.same same state, by simp⟩
  cases shut : sender.shut with
  | false =>
      rcases inOrder.opened shut with state | state
      · rw [state] at closing
        exact finish .finWait1 (.inl rfl) shut closing
      · rw [state] at closing
        exact finish .lastAck (.inr rfl) shut closing
  | true =>
      have still : sender.pcb = pcb ∧ [] = segs ∧ .ok () = result := by
        rcases inOrder.ended shut with state | state
        · simpa [state] using closing
        · simpa [state] using closing
      obtain ⟨rfl, rfl, rfl⟩ := still
      have same : (sender.closed (sender.pcb, [], .ok ())).1 = sender := by
        rw [closed, ← shut]
      rw [same]
      exact ⟨inOrder, by simp⟩

theorem writable_ended (ended : pcb.state = .finWait1 ∨ pcb.state = .lastAck) :
    pcb.writable = false := by
  rcases ended with state | state
  · rw [TcpSendPcb.writable, state]
  · rw [TcpSendPcb.writable, state]

/-- What has been written stays written. -/
theorem Begins.earlier (begins : sender'.Begins stream)
    (ended : sender.shut = true → sender.pcb.state = .finWait1 ∨ sender.pcb.state = .lastAck)
    (admitted : sender.Admits action)
    (transition : tcpSendMachine.step sender action = some (sender', segs)) :
    sender.Begins stream := by
  have keeps {pcb : TcpSendPcb} (begins : Begins stream { sender with pcb }) :
      sender.Begins stream := ⟨begins.written, begins.whole⟩
  cases action with
  | write arg flags room =>
      obtain ⟨⟨pcb, result⟩, wrote, same⟩ := Option.map_eq_some_iff.mp transition
      obtain ⟨rfl, -⟩ := Prod.mk.inj same
      rcases tcpWrite_cases wrote with ⟨rfl, checks, -⟩ | ⟨⟨error, rfl⟩, -, -⟩
      · refine ⟨(List.prefix_append _ _).trans begins.written, fun shut => ?_⟩
        have writable := (tcpWriteChecks_room admitted.1 checks).1
        rw [writable_ended (ended shut)] at writable
        cases writable
      · exact keeps begins
  | close room ackNow =>
      obtain ⟨⟨pcb, sent, result⟩, -, same⟩ := Option.map_eq_some_iff.mp transition
      cases result with
      | error error =>
          obtain ⟨rfl, -⟩ := Prod.mk.inj same
          exact keeps begins
      | ok _ =>
          obtain ⟨rfl, -⟩ := Prod.mk.inj same
          exact ⟨begins.written, fun _ => begins.whole rfl⟩
  | output ackNow =>
      obtain ⟨rfl, -⟩ := Prod.mk.inj (Option.some_inj.mp transition)
      exact keeps begins
  | ack seqno ackno wnd tcplen =>
      obtain ⟨pcb, -, same⟩ := Option.map_eq_some_iff.mp transition
      obtain ⟨rfl, -⟩ := Prod.mk.inj same
      exact keeps begins
  | slowtmr rto room ackNow header =>
      obtain ⟨⟨pcb, sent⟩, -, same⟩ := Option.map_eq_some_iff.mp transition
      obtain ⟨rfl, -⟩ := Prod.mk.inj same
      exact keeps begins

/-- A step of the timer does not send a wrong byte in a probe. -/
def ProbesData (sender : TcpSender) : TcpSendAction → Prop
  | .slowtmr _ _ _ header => sender.pcb.ProbesData header
  | _ => True

/-- What one step of the sender leaves behind, and sends. -/
structure Steps (stream : List (BitVec 8)) (base : BitVec 32) (acked : Nat) (sender : TcpSender)
    (action : TcpSendAction) (sender' : TcpSender) (segs : List TcpSeg) : Prop where
  inOrder : ∃ acked', acked ≤ acked' ∧ (acked' = acked ∨ acked < acked' ∧ acked' ≤ sender.given ∧
    ∃ seqno ackno wnd tcplen, action = .ack seqno ackno wnd tcplen ∧
      ackno = serial base acked') ∧ sender'.InOrder stream base acked'
  parts : sender.ProbesData action → ∀ seg ∈ segs, seg.PartOf stream base

theorem InOrder.step (inOrder : sender.InOrder stream base acked) (begins : sender'.Begins stream)
    (admitted : sender.Admits action)
    (transition : tcpSendMachine.step sender action = some (sender', segs)) :
    Steps stream base acked sender action sender' segs := by
  obtain ⟨next, held, waiting, sends⟩ := inOrder.sends
  cases action with
  | write arg flags room =>
      obtain ⟨⟨pcb, result⟩, wrote, same⟩ := Option.map_eq_some_iff.mp transition
      obtain ⟨rfl, rfl⟩ := Prod.mk.inj same
      have inOrder' := inOrder.write begins admitted.1 admitted.2 wrote
      exact ⟨⟨acked, le_rfl, .inl rfl, inOrder'⟩, by simp⟩
  | close room ackNow =>
      obtain ⟨⟨pcb, sent, result⟩, closing, same⟩ := Option.map_eq_some_iff.mp transition
      have same' : (sender.closed (pcb, sent, result)).1 = sender' ∧ sent = segs := by
        cases result with
        | error error => exact Prod.mk.inj same
        | ok _ => exact Prod.mk.inj same
      obtain ⟨rfl, rfl⟩ := same'
      obtain ⟨inOrder', parts⟩ := inOrder.close begins admitted closing
      exact ⟨⟨acked, le_rfl, .inl rfl, inOrder'⟩, fun _ => parts⟩
  | output ackNow =>
      obtain ⟨rfl, rfl⟩ := Prod.mk.inj (Option.some_inj.mp transition)
      obtain ⟨⟨⟨next', held', waiting', -, sends'⟩, parts, state⟩, settled⟩ :=
        tcpOutput_spec ackNow sends inOrder.settled
      exact ⟨⟨acked, le_rfl, .inl rfl,
        inOrder.sent settled state ⟨next', held', waiting', sends'⟩⟩, fun _ => parts⟩
  | ack seqno ackno wnd tcplen =>
      obtain ⟨pcb, received, same⟩ := Option.map_eq_some_iff.mp transition
      obtain ⟨rfl, rfl⟩ := Prod.mk.inj same
      obtain ⟨pcb', acked', held', waiting', received', further, either, sends', settled, state⟩ :=
        receiveAck_spec seqno wnd tcplen sends inOrder.settled admitted
      obtain rfl := Option.some_inj.mp (received.symm.trans received')
      refine ⟨⟨acked', further, ?_, inOrder.sent settled state ⟨next, held', waiting', sends'⟩⟩,
        by simp⟩
      exact either.imp_right fun ⟨number, later⟩ =>
        ⟨later, sends'.started.trans sends'.sent, seqno, ackno, wnd, tcplen, rfl, number⟩
  | slowtmr rto room ackNow header =>
      obtain ⟨⟨pcb, sent⟩, ticked, same⟩ := Option.map_eq_some_iff.mp transition
      obtain ⟨rfl, rfl⟩ := Prod.mk.inj same
      obtain ⟨⟨⟨next', held', waiting', -, sends'⟩, state, settled⟩, parts⟩ :=
        tcpSlowtmr_spec sends inOrder.settled admitted ticked
      exact ⟨⟨acked, le_rfl, .inl rfl,
        inOrder.sent settled state ⟨next', held', waiting', sends'⟩⟩, parts⟩

/-- No assertion of the sender fails. It stops only when it gives the connection up. -/
theorem InOrder.returns
    (inOrder : ∀ stream, sender.Begins stream → ∃ acked, sender.InOrder stream base acked)
    (admitted : sender.Admits action) :
    (∃ next, tcpSendMachine.step sender action = some next) ∨
      (∃ rto room ackNow header, action = .slowtmr rto room ackNow header) ∧
        sender.pcb.nrtx = tcpMaxrtx := by
  obtain ⟨acked, own⟩ := inOrder sender.written ⟨List.prefix_rfl, fun _ => rfl⟩
  obtain ⟨next, held, waiting, sends⟩ := own.sends
  cases action with
  | write arg flags room =>
      left
      obtain ⟨short, ordered⟩ := admitted
      cases shut : sender.shut with
      | true =>
          have refuses : sender.pcb.tcpWrite arg flags room = some (sender.pcb, .error .conn) := by
            rw [TcpSendPcb.tcpWrite, TcpSendPcb.tcpWriteChecks, writable_ended (own.ended shut)]
            rfl
          exact ⟨_, Option.map_eq_some_iff.mpr ⟨_, refuses, rfl⟩⟩
      | false =>
          have begins : sender.Begins (sender.written ++ arg) :=
            ⟨List.prefix_append _ _, fun ended => by rw [shut] at ended; cases ended⟩
          obtain ⟨acked, more⟩ := inOrder _ begins
          obtain ⟨next, held, waiting, sends⟩ := more.sends
          have settled := more.settled
          have given : sender.given = sender.written.length := by
            rw [TcpSender.given, shut]
            rfl
          rw [shut, given] at sends
          rw [shut] at settled
          obtain ⟨pcb, result, wrote, -⟩ :=
            tcpWrite_spec flags room sends settled ordered (Begins.more List.prefix_rfl) short
          exact ⟨_, Option.map_eq_some_iff.mpr ⟨_, wrote, rfl⟩⟩
  | close room ackNow =>
      left
      obtain ⟨closing, done⟩ : ∃ result, sender.pcb.tcpCloseShutdown room ackNow = some result := by
        rw [TcpSendPcb.tcpCloseShutdown]
        cases shut : sender.shut with
        | true =>
            rcases own.ended shut with state | state
            · rw [state]
              exact ⟨_, rfl⟩
            · rw [state]
              exact ⟨_, rfl⟩
        | false =>
            have whole : sender.given = sender.written.length := by
              rw [given, shut]
              rfl
            rw [shut] at sends
            rcases own.opened shut with state | state
            · rw [state]
              obtain ⟨pcb, segs, result, sent, -⟩ :=
                sendFinIn_spec .finWait1 room ackNow sends admitted whole
              exact ⟨_, sent⟩
            · rw [state]
              obtain ⟨pcb, segs, result, sent, -⟩ :=
                sendFinIn_spec .lastAck room ackNow sends admitted whole
              exact ⟨_, sent⟩
      exact ⟨_, Option.map_eq_some_iff.mpr ⟨_, done, rfl⟩⟩
  | output ackNow => exact .inl ⟨_, rfl⟩
  | ack seqno ackno wnd tcplen =>
      left
      obtain ⟨pcb, acked', held', waiting', received, -⟩ :=
        receiveAck_spec seqno wnd tcplen sends own.settled admitted
      exact ⟨_, Option.map_eq_some_iff.mpr ⟨_, received, rfl⟩⟩
  | slowtmr rto room ackNow header =>
      by_cases given_up : sender.pcb.nrtx = tcpMaxrtx
      · exact .inr ⟨⟨rto, room, ackNow, header, rfl⟩, given_up⟩
      · left
        obtain ⟨result, ticked⟩ :
            ∃ result, sender.pcb.tcpSlowtmr rto room ackNow header = some result := by
          simp only [TcpSendPcb.tcpSlowtmr]
          split_ifs
          all_goals exact ⟨_, rfl⟩
        exact ⟨_, Option.map_eq_some_iff.mpr ⟨_, ticked, rfl⟩⟩

instance (sender : TcpSender) (action : TcpSendAction) : Decidable (sender.ProbesData action) :=
  match action with
  | .slowtmr _ _ _ header => inferInstanceAs (Decidable (sender.pcb.ProbesData header))
  | .write _ _ _ | .close _ _ | .output _ | .ack _ _ _ _ => inferInstanceAs (Decidable True)

instance (sender : TcpSender) (action : TcpSendAction) : Decidable (sender.Admits action) :=
  match action with
  | .write _ _ _ => inferInstanceAs (Decidable (_ ∧ _))
  | .close _ _ => inferInstanceAs (Decidable sender.pcb.Ordered)
  | .slowtmr _ _ _ _ => inferInstanceAs (Decidable sender.pcb.Ordered)
  | .ack _ ackno _ _ => inferInstanceAs (Decidable (sender.pcb.Recent ackno))
  | .output _ => inferInstanceAs (Decidable True)

/-- Whatever is written next, the sender is in order. -/
def Keeps (base : BitVec 32) (sender : TcpSender) : Prop :=
  ∀ stream, sender.Begins stream → ∃ acked, sender.InOrder stream base acked

theorem Keeps.ended (keeps : sender.Keeps base) (shut : sender.shut = true) :
    sender.pcb.state = .finWait1 ∨ sender.pcb.state = .lastAck := by
  obtain ⟨acked, inOrder⟩ := keeps sender.written ⟨List.prefix_rfl, fun _ => rfl⟩
  exact inOrder.ended shut

theorem Keeps.step (keeps : sender.Keeps base) (admitted : sender.Admits action)
    (transition : tcpSendMachine.step sender action = some (sender', segs)) :
    sender'.Keeps base := by
  intro stream begins
  obtain ⟨acked, inOrder⟩ := keeps stream (begins.earlier keeps.ended admitted transition)
  obtain ⟨acked', -, -, inOrder'⟩ := (inOrder.step begins admitted transition).inOrder
  exact ⟨acked', inOrder'⟩

end TcpSender

/-- A connection that nothing has been sent on. -/
structure TcpSendPcb.Opens (base : BitVec 32) (pcb : TcpSendPcb) : Prop where
  state : pcb.state = .established ∨ pcb.state = .closeWait
  lastack : pcb.lastack = base
  sndNxt : pcb.sndNxt = base
  sndLbb : pcb.sndLbb = base
  sndBuf : pcb.sndBuf = tcpSndBuf
  sndQueuelen : pcb.sndQueuelen = 0
  unacked : pcb.unacked = []
  unsent : pcb.unsent = []
  unsentOversize : pcb.unsentOversize = 0
  mss : 0 < pcb.mss.toNat
  mssMost : pcb.mss.toNat ≤ tcpMss

theorem TcpSendPcb.Opens.inOrder (opens : pcb.Opens base) :
    TcpSender.InOrder stream base 0 ⟨pcb, [], false⟩ := by
  have zero : base = serial base 0 := (serial_zero base).symm
  have sends : Sends stream base 0 0 0 true [] [] pcb := by
    refine ⟨opens.unacked, opens.unsent, by simp, .empty 0, opens.lastack.trans zero,
      opens.sndNxt.trans zero, le_rfl, le_rfl, by simp, Nat.zero_le _, opens.mss, opens.mssMost,
      ?_, ?_, fun _ => ⟨opens.sndLbb.trans zero, ?_, Nat.zero_le _, by simp⟩⟩
    · rw [opens.sndQueuelen, opens.unacked, opens.unsent]
      rfl
    · rw [opens.sndQueuelen]
      exact BitVec.le_def.mpr (Nat.zero_le _)
    · rw [opens.sndBuf, Nat.add_comm]
  exact ⟨⟨0, [], [], sends⟩, fun _ _ => opens.unsentOversize, fun _ => opens.state, nofun⟩

theorem TcpSendPcb.Opens.keeps (opens : pcb.Opens base) :
    TcpSender.Keeps base ⟨pcb, [], false⟩ := fun _ _ => ⟨0, opens.inOrder⟩

/-- In every run no assertion of the sender fails, whatever the peer acknowledges. It stops only
when it gives the connection up. -/
theorem tcp_send_asserts {actions : List TcpSendAction} {action : TcpSendAction}
    {segs : List TcpSeg} {sender : TcpSender} (opens : pcb.Opens base)
    (run : tcpSendMachine.Run TcpSender.Admits ⟨pcb, [], false⟩ actions segs sender)
    (admitted : sender.Admits action) :
    (∃ next, tcpSendMachine.step sender action = some next) ∨
      (∃ rto room ackNow header, action = .slowtmr rto room ackNow header) ∧
        sender.pcb.nrtx = tcpMaxrtx := by
  have keeps : sender.Keeps base := run.invariant opens.keeps
    fun _ _ _ _ keeps admitted transition => keeps.step admitted transition
  exact TcpSender.InOrder.returns keeps admitted

/-! Half of a segment is acknowledged, and the rest is sent again behind a full window. -/

def freshPcb : TcpSendPcb where
  state := .established
  mss := 4
  nodelay := false
  inFr := false
  nagleMemErr := false
  finQueued := false
  rtime := -1
  nrtx := 0
  lastack := 0xfffffffe
  dupacks := 0
  cwnd := 8
  ssthresh := 65535
  sndNxt := 0xfffffffe
  sndWnd := 6
  sndWl1 := 0
  sndWl2 := 0xfffffffe
  sndLbb := 0xfffffffe
  acked := 0
  sndBuf := 2048
  sndQueuelen := 0
  unsentOversize := 0
  unsent := []
  unacked := []
  persistCnt := 0
  persistBackoff := 0

def roomy : WriteRoom := ⟨true, 5⟩

def copied : WriteFlags := ⟨true, false⟩

def halfAcked : List TcpSendAction :=
  [.write [1, 2, 3, 4, 5, 6] copied roomy, .output false, .ack 0 0 6 0,
    .slowtmr 1 true false [], .slowtmr 1 true false [], .write [7, 8, 9] copied roomy,
    .close true false]

theorem tcp_send_asserts_halfAcked : ∃ segs sender,
    tcpSendMachine.Run TcpSender.Admits ⟨freshPcb, [], false⟩ halfAcked segs sender ∧
      ∃ next, tcpSendMachine.step sender (.ack 0 2 6 0) = some next := by
  have admitted : ((tcpSendMachine.restrict TcpSender.Admits).execute ⟨freshPcb, [], false⟩
      halfAcked).any (fun outcome => decide (outcome.1.Admits (.ack 0 2 6 0))) = true := by
    decide +kernel
  obtain ⟨⟨sender, segs⟩, done, recent⟩ := (Option.any_eq_true _ _).mp admitted
  have run := Machine.run_of_execute_restrict done
  have opens : freshPcb.Opens 0xfffffffe :=
    ⟨.inl rfl, rfl, rfl, rfl, rfl, rfl, rfl, rfl, rfl, by decide, by decide⟩
  refine ⟨segs, sender, run, ?_⟩
  exact (tcp_send_asserts opens run (of_decide_eq_true recent)).resolve_right (by simp)

/-! While the window holds up a fast retransmission, what is written next goes into the segment that
waits, under the numbers of bytes that have been sent behind it. -/

def heldUp : List TcpSendAction :=
  [.write [0, 1] copied roomy, .output false, .write [2, 3, 4, 5] copied roomy, .output false,
    .ack 1 0xfffffffe 1 0, .ack 1 0xfffffffe 1 0, .ack 1 0xfffffffe 1 0, .ack 1 0xfffffffe 1 0,
    .write [6, 7] copied roomy, .ack 1 0xfffffffe 9 0, .output false]

example : (tcpSendMachine.execute ⟨freshPcb, [], false⟩ heldUp).map (fun outcome =>
    (outcome.1.written, outcome.2.map fun seg => (seg.seqno, seg.p.bytes))) =
      some ([0, 1, 2, 3, 4, 5, 6, 7],
        [(0xfffffffe, [0, 1]), (0, [2, 3, 4, 5]), (0xfffffffe, [0, 1, 6, 7])]) := by
  decide +kernel

end RtThread.Lwip
