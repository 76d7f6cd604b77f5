import RtThread.Lwip.TcpSendQueue

/-!
# What an acknowledgement removes

An acknowledgement removes the segments that it is about and no others, wherever they are.
-/

namespace RtThread.Lwip

open RtThread.Std

variable {stream : List (BitVec 8)} {base : BitVec 32} {acked next total : Nat} {opened : Bool}
  {held waiting : List (Portion TcpSeg)} {pcb pcb' : TcpSendPcb} {p : Portion TcpSeg}

/-! ## Removal -/

theorem dropWhile_value {covered : TcpSeg → Bool} {gone : Portion TcpSeg → Bool}
    {pieces : List (Portion TcpSeg)} (agrees : ∀ p ∈ pieces, covered p.value = gone p) :
    (pieces.map Portion.value).dropWhile covered = (pieces.dropWhile gone).map Portion.value := by
  induction pieces with
  | nil => rfl
  | cons p rest ih =>
      rw [List.map_cons, List.dropWhile_cons, List.dropWhile_cons, agrees p List.mem_cons_self]
      split
      · exact ih fun q member => agrees q (List.mem_cons_of_mem _ member)
      · rfl

/-- The loop removes what is covered, and counts the pbufs of the rest. -/
theorem freeAcked_spec (covered : TcpSeg → Bool) {others segs : List TcpSeg}
    (acked : BitVec 16) {queuelen : BitVec 16} (count : queuelen.toNat = clens segs + clens others)
    (few : queuelen ≤ tcpSndQueuelen) :
    ∃ acked' queuelen', TcpSendPcb.freeAcked covered others acked queuelen segs =
        some (segs.dropWhile covered, acked', queuelen') ∧
      queuelen'.toNat = clens (segs.dropWhile covered) + clens others ∧
      queuelen' ≤ tcpSndQueuelen := by
  have most : tcpSndQueuelen.toNat = 5 := rfl
  induction segs generalizing acked queuelen with
  | nil => exact ⟨acked, queuelen, rfl, count, few⟩
  | cons seg rest ih =>
      rw [TcpSendPcb.freeAcked, List.dropWhile_cons]
      split
      · rw [clens_cons] at count
        rw [BitVec.le_def, most] at few
        have clen : ((pbufClen seg.p).setWidth 16).toNat = seg.p.length := by
          rw [pbufClen, BitVec.toNat_setWidth, BitVec.toNat_ofNat]
          omega
        have enough : ¬ queuelen < (pbufClen seg.p).setWidth 16 := by
          rw [BitVec.lt_def, clen]
          omega
        have left : (queuelen - (pbufClen seg.p).setWidth 16).toNat = clens rest + clens others := by
          rw [BitVec.toNat_sub_of_le (BitVec.not_lt.mp enough), clen]
          omega
        have valid : ¬ (queuelen - (pbufClen seg.p).setWidth 16 ≠ 0 ∧ rest = [] ∧ others = []) := by
          rintro ⟨some_, rfl, rfl⟩
          exact some_ (BitVec.eq_of_toNat_eq left)
        dsimp only
        rw [if_neg enough, if_neg valid]
        exact ih _ left (by rw [BitVec.le_def, left, most]; omega)
      · exact ⟨acked, queuelen, rfl, count, few⟩

/-! ## Which acknowledgements there are -/

/-- An acknowledgement is not so old that it is taken for a later one. -/
def TcpSendPcb.Recent (pcb : TcpSendPcb) (ackno : BitVec 32) : Prop :=
  BitVec.slt 0xc0000000 (ackno - pcb.lastack) = true

instance (pcb : TcpSendPcb) (ackno : BitVec 32) : Decidable (pcb.Recent ackno) :=
  inferInstanceAs (Decidable (_ = true))

namespace Sends

variable {ackno : BitVec 32}

/-- How far an acknowledgement is ahead of the last one. -/
theorem ahead (sends : Sends stream base acked next total opened held waiting pcb)
    (recent : pcb.Recent ackno) : -(2 ^ 30 : Int) < (ackno - serial base acked).toInt := by
  rw [TcpSendPcb.Recent, BitVec.slt_iff_toInt_lt, sends.lastack] at recent
  exact recent

/-- How far an acknowledgement is ahead of a place in the queues. -/
theorem ahead_of (sends : Sends stream base acked next total opened held waiting pcb)
    (recent : pcb.Recent ackno) {place : Nat} (lower : acked ≤ place) (upper : place ≤ total) :
    (ackno - serial base place).toInt = (ackno - serial base acked).toInt + acked - place := by
  have close := sends.close
  have buf : tcpSndBuf.toNat = 2048 := rfl
  have ahead := sends.ahead recent
  have bound := BitVec.toInt_lt (x := ackno - serial base acked)
  apply sub_serial_toInt
  · exact ⟨by omega, by omega⟩
  · omega
  · omega

/-- An acknowledgement of nothing new removes nothing. -/
theorem uncovered (sends : Sends stream base acked next total opened held waiting pcb)
    (recent : pcb.Recent ackno)
    (old : seqLeq ackno (serial base acked) = true ∨ seqLeq ackno (serial base next) = false)
    (member : p ∈ held ++ waiting) :
    seqBetween ackno p.value.seqEnd (serial base next) = false := by
  obtain ⟨lower, upper⟩ := sends.queues.within p member
  rw [(sends.outgoing p member).seqEnd, seqBetween, Bool.and_eq_false_iff]
  rcases old with old | later
  · left
    rw [seqLeq, BitVec.sle_iff_toInt_le, BitVec.toInt_zero] at old
    rw [seqGeq, ← Bool.not_eq_true, BitVec.sle_iff_toInt_le, BitVec.toInt_zero,
      sends.ahead_of recent lower.le upper]
    omega
  · exact .inr later

/-- An acknowledgement of something new is for a place. -/
theorem covered (sends : Sends stream base acked next total opened held waiting pcb)
    (recent : pcb.Recent ackno) (new : seqLeq ackno (serial base acked) = false)
    (sent : seqLeq ackno (serial base next) = true) :
    ∃ place, ackno = serial base place ∧ acked < place ∧ place ≤ next ∧
      ∀ p ∈ held ++ waiting, seqLeq p.value.seqEnd ackno = decide (p.stop ≤ place) ∧
        seqBetween ackno p.value.seqEnd (serial base next) = decide (p.stop ≤ place) := by
  have started := sends.started
  have last := sends.sent
  have close := sends.close
  have buf : tcpSndBuf.toNat = 2048 := rfl
  rw [seqLeq, ← Bool.not_eq_true, BitVec.sle_iff_toInt_le, BitVec.toInt_zero] at new
  rw [seqLeq, BitVec.sle_iff_toInt_le, BitVec.toInt_zero,
    sends.ahead_of recent started last] at sent
  have place : ackno = serial base (acked + (ackno - serial base acked).toInt.toNat) :=
    eq_serial (by omega)
  obtain ⟨count, counted⟩ : ∃ count : Nat, (ackno - serial base acked).toInt = count :=
    ⟨(ackno - serial base acked).toInt.toNat, by omega⟩
  rw [counted, Int.toNat_natCast] at place
  rw [counted] at new sent
  refine ⟨acked + count, place, by omega, by omega, fun p member => ?_⟩
  obtain ⟨lower, upper⟩ := sends.queues.within p member
  have covers : seqLeq p.value.seqEnd ackno = decide (p.stop ≤ acked + count) := by
    rw [Bool.eq_iff_iff, decide_eq_true_iff, (sends.outgoing p member).seqEnd, place,
      seqLeq_iff ⟨by omega, by omega⟩]
  refine ⟨covers, ?_⟩
  have within : seqLeq ackno (serial base next) = true := by
    rw [place, seqLeq_iff ⟨by omega, by omega⟩]
    omega
  rw [seqBetween, within, Bool.and_true, Bool.eq_iff_iff, decide_eq_true_iff,
    (sends.outgoing p member).seqEnd, place, seqGeq_iff ⟨by omega, by omega⟩]

end Sends

/-! ## Receiving an acknowledgement -/

section

variable {ackno : BitVec 32}

theorem updateWindow_same (pcb : TcpSendPcb) (seqno ackno : BitVec 32) (wnd : BitVec 16) :
    pcb.SameData (pcb.updateWindow seqno ackno wnd) ∧
      (pcb.updateWindow seqno ackno wnd).state = pcb.state := by
  rw [TcpSendPcb.updateWindow]
  split
  · exact ⟨⟨rfl, rfl, rfl, rfl, rfl, rfl, rfl, rfl, rfl⟩, rfl⟩
  · exact ⟨⟨rfl, rfl, rfl, rfl, rfl, rfl, rfl, rfl, rfl⟩, rfl⟩

theorem Settled.congr (same : pcb.SameData pcb') (settled : pcb.Settled opened) :
    pcb'.Settled opened := by
  rw [TcpSendPcb.Settled, same.unsent, same.unsentOversize]
  exact settled

theorem countDupack_spec (ackno rightWndEdge : BitVec 32) (tcplen : BitVec 16)
    (sends : Sends stream base acked next total opened held waiting pcb)
    (settled : pcb.Settled opened) :
    (∃ held' waiting', Sends stream base acked next total opened held' waiting'
      (pcb.countDupack ackno rightWndEdge tcplen)) ∧
      (pcb.countDupack ackno rightWndEdge tcplen).Settled opened ∧
      (pcb.countDupack ackno rightWndEdge tcplen).state = pcb.state := by
  have idle {pcb' : TcpSendPcb} (same : pcb.SameData pcb') (state : pcb'.state = pcb.state) :
      (∃ held' waiting', Sends stream base acked next total opened held' waiting' pcb') ∧
        pcb'.Settled opened ∧ pcb'.state = pcb.state :=
    ⟨⟨held, waiting, sends.congr same⟩, Settled.congr same settled, state⟩
  rw [TcpSendPcb.countDupack]
  dsimp only
  split
  · split
    · split
      · exact idle ⟨rfl, rfl, rfl, rfl, rfl, rfl, rfl, rfl, rfl⟩ rfl
      · exact idle ⟨rfl, rfl, rfl, rfl, rfl, rfl, rfl, rfl, rfl⟩ rfl
    · split
      · have same : pcb.SameData { pcb with acked := 0, dupacks := pcb.dupacks + 1 } :=
          ⟨rfl, rfl, rfl, rfl, rfl, rfl, rfl, rfl, rfl⟩
        exact tcpRexmitFast_spec (sends.congr same) (Settled.congr same settled)
      · exact idle ⟨rfl, rfl, rfl, rfl, rfl, rfl, rfl, rfl, rfl⟩ rfl
  · exact idle ⟨rfl, rfl, rfl, rfl, rfl, rfl, rfl, rfl, rfl⟩ rfl

/-- When no segment that waits is covered, all of them stay. -/
theorem freeUnsent_none (ackno : BitVec 32)
    (sends : Sends stream base acked next total opened held waiting pcb)
    (settled : pcb.Settled opened)
    (none_ : ∀ p ∈ waiting, seqBetween ackno p.value.seqEnd pcb.sndNxt = false) :
    ∃ pcb', pcb.freeUnsent ackno = some pcb' ∧
      Sends stream base acked next total opened held waiting pcb' ∧ pcb'.Settled opened ∧
      pcb'.state = pcb.state := by
  have count := sends.queuelen
  rw [clens_append, Nat.add_comm] at count
  obtain ⟨acked', queuelen', freed, count', few⟩ := freeAcked_spec
    (fun seg => seqBetween ackno seg.seqEnd pcb.sndNxt) pcb.acked count
    sends.few
  have stays : pcb.unsent.dropWhile (fun seg => seqBetween ackno seg.seqEnd pcb.sndNxt) =
      pcb.unsent := by
    rw [sends.unsent]
    cases waiting with
    | nil => rfl
    | cons p rest =>
        rw [List.map_cons, List.dropWhile_cons, none_ p List.mem_cons_self]
        rfl
  rw [stays] at freed count'
  have same : queuelen' = pcb.sndQueuelen := BitVec.eq_of_toNat_eq (count'.trans count.symm)
  have kept : pcb.SameData { pcb with acked := acked', sndQueuelen := queuelen' } :=
    ⟨rfl, rfl, rfl, rfl, rfl, same, rfl, rfl, rfl⟩
  refine ⟨_, ?_, sends.congr kept, Settled.congr kept settled, rfl⟩
  rw [TcpSendPcb.freeUnsent, freed]
  rfl

/-- An acknowledgement of something new removes what it is about from both queues. -/
theorem acceptAck_spec {place : Nat}
    (sends : Sends stream base acked next total opened held waiting pcb)
    (settled : pcb.Settled opened) (number : ackno = serial base place) (later : acked < place)
    (within : place ≤ next)
    (covers : ∀ p ∈ held ++ waiting, seqLeq p.value.seqEnd ackno = decide (p.stop ≤ place) ∧
      seqBetween ackno p.value.seqEnd (serial base next) = decide (p.stop ≤ place)) :
    ∃ pcb' pcb'', pcb.acceptAck ackno = some pcb' ∧ pcb'.freeUnsent ackno = some pcb'' ∧
      Sends stream base place next total opened (held.dropWhile fun p => p.stop ≤ place)
        (waiting.dropWhile fun p => p.stop ≤ place) pcb'' ∧ pcb''.Settled opened ∧
      pcb''.state = pcb.state := by
  have close := sends.close
  have last := sends.sent
  have buf : tcpSndBuf.toNat = 2048 := rfl
  have count := sends.queuelen
  rw [clens_append] at count
  -- what has been sent
  obtain ⟨ackedU, queuelenU, freedU, countU, fewU⟩ := freeAcked_spec
    (fun seg => seqLeq seg.seqEnd ackno) ((ackno - pcb.lastack).setWidth 16)
    count sends.few
  have keptU : pcb.unacked.dropWhile (fun seg => seqLeq seg.seqEnd ackno) =
      (held.dropWhile fun p => p.stop ≤ place).map Portion.value := by
    rw [sends.unacked]
    exact dropWhile_value fun p member => (covers p (List.mem_append_left _ member)).1
  rw [keptU] at freedU countU
  -- what waits
  obtain ⟨ackedS, queuelenS, freedS, countS, fewS⟩ := freeAcked_spec
    (fun seg => seqBetween ackno seg.seqEnd pcb.sndNxt) ackedU
    (countU.trans (Nat.add_comm _ _)) fewU
  have keptS : pcb.unsent.dropWhile (fun seg => seqBetween ackno seg.seqEnd pcb.sndNxt) =
      (waiting.dropWhile fun p => p.stop ≤ place).map Portion.value := by
    rw [sends.unsent, sends.sndNxt]
    exact dropWhile_value fun p member => (covers p (List.mem_append_right _ member)).2
  rw [keptS] at freedS countS
  obtain ⟨pcb', accepted, unacked, unsent, lastack, sndBuf, same⟩ : ∃ pcb',
      pcb.acceptAck ackno = some pcb' ∧
      pcb'.unacked = (held.dropWhile fun p => p.stop ≤ place).map Portion.value ∧
      pcb'.unsent = pcb.unsent ∧ pcb'.lastack = ackno ∧
      pcb'.sndBuf = pcb.sndBuf + (ackno - pcb.lastack).setWidth 16 ∧
      pcb'.acked = ackedU ∧ pcb'.sndQueuelen = queuelenU ∧ pcb'.mss = pcb.mss ∧
      pcb'.sndNxt = pcb.sndNxt ∧ pcb'.sndLbb = pcb.sndLbb ∧
      pcb'.unsentOversize = pcb.unsentOversize ∧ pcb'.state = pcb.state := by
    rw [TcpSendPcb.acceptAck]
    split
    all_goals
      dsimp only
      rw [TcpSendPcb.freeUnacked, freedU]
      exact ⟨_, rfl, rfl, rfl, rfl, rfl, rfl, rfl, rfl, rfl, rfl, rfl, rfl⟩
  obtain ⟨ackedEq, sndQueuelen, mss, sndNxt, sndLbb, unsentOversize, state⟩ := same
  refine ⟨pcb', { pcb' with
    unsent := (waiting.dropWhile fun p => p.stop ≤ place).map Portion.value, acked := ackedS,
    sndQueuelen := queuelenS }, accepted, ?_, ?_, ?_, state⟩
  · rw [TcpSendPcb.freeUnsent, ackedEq, sndQueuelen, unsent, unacked, sndNxt, freedS]
    rfl
  · have fewer (p : Portion TcpSeg) (member : p ∈ held.dropWhile (fun p => p.stop ≤ place) ++
        waiting.dropWhile (fun p => p.stop ≤ place)) : p ∈ held ++ waiting := by
      rw [List.mem_append] at member ⊢
      exact member.imp (fun inside => (List.dropWhile_sublist _).subset inside)
        fun inside => (List.dropWhile_sublist _).subset inside
    refine ⟨unacked, rfl, fun p member => ?_, sends.queues.advance later.le (within.trans last),
      lastack.trans number, sndNxt.trans sends.sndNxt, within, last, fun p member => ?_, by omega,
      ?_, ?_, ?_, fewS, fun open_ => ?_⟩
    · change Outgoing stream base pcb'.mss p
      rw [mss]
      exact sends.outgoing p (fewer p member)
    · exact sends.heldSent p ((List.dropWhile_sublist _).subset member)
    · change 0 < pcb'.mss.toNat
      rw [mss]
      exact sends.mss
    · change pcb'.mss.toNat ≤ tcpMss
      rw [mss]
      exact sends.mssMost
    · change queuelenS.toNat = clens (pcb'.unacked ++ _)
      rw [countS, unacked, clens_append, Nat.add_comm]
    · obtain ⟨lbb, room, inside, oversize⟩ := sends.writes open_
      refine ⟨sndLbb.trans lbb, ?_, inside, ?_⟩
      · have more : ((ackno - pcb.lastack).setWidth 16).toNat = place - acked := by
          rw [number, sends.lastack, serial_sub_toNat later.le (by omega) (by decide)]
        change pcb'.sndBuf.toNat + total = _
        rw [sndBuf, BitVec.toNat_add, more, Nat.mod_eq_of_lt (by omega)]
        omega
      · intro some_ p last
        change pcb'.unsentOversize ≠ 0 at some_
        rw [unsentOversize] at some_
        change next < p.stop ∧ pcb'.unsentOversize.toNat + _ ≤ pcb'.mss.toNat
        rw [unsentOversize, mss]
        refine oversize some_ p ?_
        have whole := List.takeWhile_append_dropWhile (p := fun p => p.stop ≤ place) (l := waiting)
        rw [← whole, List.getLast?_append, Option.mem_def.mp last]
        rfl
  · intro open_ none_
    change pcb'.unsentOversize = 0
    rw [unsentOversize]
    by_contra some_
    rcases List.eq_nil_or_concat waiting with rfl | ⟨front, p, rfl⟩
    · exact some_ (settled open_ sends.unsent)
    · have room := (sends.writes open_).oversize some_ p (by simp)
      have stays : p ∈ (front.concat p).dropWhile fun p => p.stop ≤ place := by
        rw [Queues.mem_dropWhile sends.queues.waitingOrder fun q member =>
          sends.queues.filled q (List.mem_append_right _ member)]
        exact ⟨by simp, by omega⟩
      rw [List.map_eq_nil_iff.mp none_] at stays
      cases stays

/-- What `tcp_receive` does with an acknowledgement: it removes what it is about, if that has been
sent, and nothing else. -/
theorem receiveAck_spec (seqno : BitVec 32) (wnd tcplen : BitVec 16)
    (sends : Sends stream base acked next total opened held waiting pcb)
    (settled : pcb.Settled opened) (recent : pcb.Recent ackno) :
    ∃ pcb' acked' held' waiting', pcb.receiveAck seqno ackno wnd tcplen = some pcb' ∧
      acked ≤ acked' ∧ (acked' = acked ∨ ackno = serial base acked' ∧ acked < acked') ∧
      Sends stream base acked' next total opened held' waiting' pcb' ∧ pcb'.Settled opened ∧
      pcb'.state = pcb.state := by
  obtain ⟨same, state⟩ := updateWindow_same pcb seqno ackno wnd
  obtain ⟨updated, update⟩ : ∃ updated, pcb.updateWindow seqno ackno wnd = updated := ⟨_, rfl⟩
  rw [update] at same state
  replace sends := sends.congr same
  replace settled := Settled.congr same settled
  replace recent : updated.Recent ackno := by
    rw [TcpSendPcb.Recent, same.lastack]
    exact recent
  -- without anything new, no segment is removed
  have nothing {pcb' : TcpSendPcb} {held' waiting' : List (Portion TcpSeg)}
      (sends' : Sends stream base acked next total opened held' waiting' pcb')
      (settled' : pcb'.Settled opened) (state' : pcb'.state = updated.state)
      (old : seqLeq ackno (serial base acked) = true ∨ seqLeq ackno (serial base next) = false) :
      ∃ pcb'' acked' held'' waiting'', pcb'.freeUnsent ackno = some pcb'' ∧ acked ≤ acked' ∧
        (acked' = acked ∨ ackno = serial base acked' ∧ acked < acked') ∧
        Sends stream base acked' next total opened held'' waiting'' pcb'' ∧ pcb''.Settled opened ∧
        pcb''.state = pcb.state := by
    have recent' : pcb'.Recent ackno := by
      rw [TcpSendPcb.Recent, sends'.lastack, ← sends.lastack]
      exact recent
    obtain ⟨pcb'', freed, sends'', settled'', state''⟩ := freeUnsent_none ackno sends'
      settled' fun p member => by
        rw [sends'.sndNxt]
        exact sends'.uncovered recent' old (List.mem_append_right _ member)
    exact ⟨pcb'', acked, held', waiting', freed, le_rfl, .inl rfl, sends'', settled'',
      state''.trans (state'.trans state)⟩
  rw [TcpSendPcb.receiveAck]
  simp only [update]
  split
  · rename_i old
    rw [sends.lastack] at old
    obtain ⟨⟨held', waiting', sends'⟩, settled', state'⟩ := countDupack_spec ackno
      (pcb.sndWnd.setWidth 32 + pcb.sndWl2) tcplen sends settled
    exact nothing sends' settled' state' (.inl old)
  · rename_i new
    rw [sends.lastack, Bool.not_eq_true] at new
    have close := sends.close
    have buf : tcpSndBuf.toNat = 2048 := rfl
    have behind : seqGeq ackno (updated.lastack + 1) = true := by
      have one : serial base acked + 1 = serial base (acked + 1) := by
        rw [serial_add, BitVec.ofNat_eq_ofNat]
      rw [seqLeq, ← Bool.not_eq_true, BitVec.sle_iff_toInt_le, BitVec.toInt_zero] at new
      have bound := BitVec.toInt_lt (x := ackno - serial base acked)
      rw [sends.lastack, one, seqGeq, BitVec.sle_iff_toInt_le, BitVec.toInt_zero,
        sub_serial_toInt (a := acked) ⟨by omega, by omega⟩ (by omega) (by omega)]
      omega
    split
    · rename_i within
      rw [seqBetween, behind, Bool.true_and, sends.sndNxt] at within
      obtain ⟨place, number, later, sent, covers⟩ := sends.covered recent new within
      obtain ⟨pcb', pcb'', accepted, freed, sends', settled', state'⟩ :=
        acceptAck_spec sends settled number later sent covers
      exact ⟨pcb'', place, _, _, by rw [accepted]; exact freed, later.le, .inr ⟨number, later⟩,
        sends', settled', state'.trans state⟩
    · rename_i beyond
      rw [seqBetween, behind, Bool.true_and, Bool.not_eq_true, sends.sndNxt] at beyond
      have kept : updated.SameData { updated with acked := 0 } :=
        ⟨rfl, rfl, rfl, rfl, rfl, rfl, rfl, rfl, rfl⟩
      exact nothing (sends.congr kept) (Settled.congr kept settled) rfl (.inr beyond)

end

end RtThread.Lwip
