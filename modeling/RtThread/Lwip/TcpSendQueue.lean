import RtThread.Lwip.TcpQueue
import RtThread.Lwip.TcpSend
import RtThread.Std.Pieces

/-!
# The queues of the sender

What the application has written and the peer has not acknowledged is in the two queues of the
sender, and each segment has the bytes of the stream at its place.
-/

namespace RtThread.Lwip

open RtThread.Std

variable {stream : List (BitVec 8)} {base : BitVec 32} {acked next total : Nat} {opened : Bool}
  {held waiting : List (Portion TcpSeg)} {pcb pcb' : TcpSendPcb} {p : Portion TcpSeg}

/-- The number of pbufs of some segments. -/
def clens (segs : List TcpSeg) : Nat := (segs.map fun seg => seg.p.length).sum

@[simp] theorem clens_nil : clens [] = 0 := rfl

@[simp] theorem clens_cons (seg : TcpSeg) (segs : List TcpSeg) :
    clens (seg :: segs) = seg.p.length + clens segs := rfl

@[simp] theorem clens_append (segs segs' : List TcpSeg) :
    clens (segs ++ segs') = clens segs + clens segs' := by
  rw [clens, clens, clens, List.map_append, List.sum_append]

theorem clens_perm {segs segs' : List TcpSeg} (same : segs.Perm segs') :
    clens segs = clens segs' := (same.map _).sum_eq

/-- The piece of the stream that a segment of the sender has. -/
structure Outgoing (stream : List (BitVec 8)) (base : BitVec 32) (mss : BitVec 16)
    (p : Portion TcpSeg) : Prop where
  carries : p.value.Carries stream base p.place
  count : p.count = p.value.tcplen
  small : p.value.len ≤ mss

/-- What writing relies on while the connection is open. -/
structure Writes (stream : List (BitVec 8)) (base : BitVec 32) (acked next total : Nat)
    (waiting : List (Portion TcpSeg)) (pcb : TcpSendPcb) : Prop where
  sndLbb : pcb.sndLbb = serial base total
  sndBuf : pcb.sndBuf.toNat + total = acked + tcpSndBuf.toNat
  within : total ≤ stream.length
  /-- The last segment, at the end of which there is room, has not been sent as it is. -/
  oversize : pcb.unsentOversize ≠ 0 → ∀ p ∈ waiting.getLast?, next < p.stop ∧
    pcb.unsentOversize.toNat + p.value.len.toNat ≤ pcb.mss.toNat

/-- The sender has the numbers of the stream from `acked` to `total` in its queues, and the first
`next` numbers have been sent. -/
structure Sends (stream : List (BitVec 8)) (base : BitVec 32) (acked next total : Nat)
    (opened : Bool) (held waiting : List (Portion TcpSeg)) (pcb : TcpSendPcb) : Prop where
  unacked : pcb.unacked = held.map Portion.value
  unsent : pcb.unsent = waiting.map Portion.value
  outgoing : ∀ p ∈ held ++ waiting, Outgoing stream base pcb.mss p
  queues : Queues held waiting acked total
  lastack : pcb.lastack = serial base acked
  sndNxt : pcb.sndNxt = serial base next
  started : acked ≤ next
  sent : next ≤ total
  heldSent : ∀ p ∈ held, p.stop ≤ next
  close : total ≤ acked + tcpSndBuf.toNat + 1
  mss : 0 < pcb.mss.toNat
  mssMost : pcb.mss.toNat ≤ tcpMss
  queuelen : pcb.sndQueuelen.toNat = clens (pcb.unacked ++ pcb.unsent)
  few : pcb.sndQueuelen ≤ tcpSndQueuelen
  writes : opened = true → Writes stream base acked next total waiting pcb

/-- What two states of a connection agree in, so that one is in order when the other is. -/
structure TcpSendPcb.SameData (pcb pcb' : TcpSendPcb) : Prop where
  unacked : pcb'.unacked = pcb.unacked
  unsent : pcb'.unsent = pcb.unsent
  mss : pcb'.mss = pcb.mss
  lastack : pcb'.lastack = pcb.lastack
  sndNxt : pcb'.sndNxt = pcb.sndNxt
  sndQueuelen : pcb'.sndQueuelen = pcb.sndQueuelen
  sndLbb : pcb'.sndLbb = pcb.sndLbb
  sndBuf : pcb'.sndBuf = pcb.sndBuf
  unsentOversize : pcb'.unsentOversize = pcb.unsentOversize

/-- Nothing that has been sent stands behind something that waits, as it does while a fast
retransmission is held up. -/
def TcpSendPcb.Ordered (pcb : TcpSendPcb) : Prop :=
  ∀ seg ∈ pcb.unacked, ∀ seg' ∈ pcb.unsent, seqLt seg.seqno seg'.seqno = true

instance (pcb : TcpSendPcb) : Decidable pcb.Ordered :=
  inferInstanceAs (Decidable (∀ seg ∈ pcb.unacked, ∀ seg' ∈ pcb.unsent, _))

/-- The header length that a probe of data reads leads to the data, as it does until the segment has
been sent. -/
def TcpSendPcb.ProbesData (pcb : TcpSendPcb) (header : List (BitVec 8)) : Prop :=
  0 < pcb.persistBackoff → ∀ seg ∈ (pcb.unacked ++ pcb.unsent).head?,
    ¬ (seg.fin = true ∧ seg.len = 0) → tcphHdrlen header = header.length

instance (pcb : TcpSendPcb) (header : List (BitVec 8)) : Decidable (pcb.ProbesData header) :=
  inferInstanceAs (Decidable (_ → ∀ seg ∈ (pcb.unacked ++ pcb.unsent).head?, _ → _))

namespace Outgoing

variable {mss : BitVec 16}

theorem small_toNat (outgoing : Outgoing stream base mss p) (most : mss.toNat ≤ tcpMss) :
    p.value.len.toNat ≤ tcpMss := (BitVec.le_def.mp outgoing.small).trans most

theorem count_le (outgoing : Outgoing stream base mss p) (most : mss.toNat ≤ tcpMss) :
    p.count ≤ tcpMss + 1 := by
  have small := outgoing.small_toNat most
  rw [outgoing.count, outgoing.carries.tcplen]
  split <;> omega

theorem seqEnd (outgoing : Outgoing stream base mss p) : p.value.seqEnd = serial base p.stop := by
  rw [TcpSeg.seqEnd, outgoing.carries.seqno, Portion.stop, outgoing.count, serial_add]

end Outgoing

namespace Sends

variable {q : Portion TcpSeg}

theorem congr (sends : Sends stream base acked next total opened held waiting pcb)
    (same : pcb.SameData pcb') : Sends stream base acked next total opened held waiting pcb' := by
  obtain ⟨unacked, unsent, mss, lastack, sndNxt, sndQueuelen, sndLbb, sndBuf, unsentOversize⟩ :=
    same
  refine ⟨unacked.trans sends.unacked, unsent.trans sends.unsent, ?_, sends.queues,
    lastack.trans sends.lastack, sndNxt.trans sends.sndNxt, sends.started, sends.sent, sends.heldSent,
    sends.close, ?_, ?_, ?_, ?_, fun open_ => ?_⟩
  · rw [mss]
    exact sends.outgoing
  · rw [mss]
    exact sends.mss
  · rw [mss]
    exact sends.mssMost
  · rw [sndQueuelen, unacked, unsent]
    exact sends.queuelen
  · rw [sndQueuelen]
    exact sends.few
  · obtain ⟨lbb, buf, within, oversize⟩ := sends.writes open_
    refine ⟨sndLbb.trans lbb, ?_, within, ?_⟩
    · rw [sndBuf]
      exact buf
    · rw [unsentOversize, mss]
      exact oversize

/-- The pieces are where serial numbers can tell them from each other. -/
theorem near (sends : Sends stream base acked next total opened held waiting pcb)
    (member : p ∈ held ++ waiting) :
    acked < p.place + tcpMss + 1 ∧ p.place + p.value.len.toNat ≤ total ∧ p.place < total := by
  have outgoing := sends.outgoing p member
  have count := outgoing.count_le sends.mssMost
  obtain ⟨lower, upper⟩ := sends.queues.within p member
  have filled := sends.queues.filled p member
  have length := outgoing.count
  rw [outgoing.carries.tcplen] at length
  rw [Portion.stop] at lower upper
  exact ⟨by omega, by omega, by omega⟩

theorem comparable (sends : Sends stream base acked next total opened held waiting pcb)
    (member : p ∈ held ++ waiting) (member' : q ∈ held ++ waiting) :
    Comparable 32 p.place q.place := by
  obtain ⟨lower, -, upper⟩ := sends.near member
  obtain ⟨lower', -, upper'⟩ := sends.near member'
  have close := sends.close
  have mss : tcpMss = 1460 := rfl
  have buf : tcpSndBuf.toNat = 2048 := rfl
  exact ⟨by omega, by omega⟩

/-- The numbers of two segments tell which one comes first. -/
theorem seqLt_iff (sends : Sends stream base acked next total opened held waiting pcb)
    (member : p ∈ held ++ waiting) (member' : q ∈ held ++ waiting) (apart : p.Apart q) :
    seqLt p.value.seqno q.value.seqno = true ↔ p.Before q := by
  rw [(sends.outgoing p member).carries.seqno, (sends.outgoing q member').carries.seqno,
    Lwip.seqLt_iff (sends.comparable member member'), apart.before_iff
      (sends.queues.filled p member) (sends.queues.filled q member')]

end Sends

/-! ## Output -/

theorem insertSeg_eq (seg : TcpSeg) (segs : List TcpSeg) :
    TcpSendPcb.insertSeg seg segs = segs.takeWhile (fun cur => seqLt cur.seqno seg.seqno) ++
      seg :: segs.dropWhile (fun cur => seqLt cur.seqno seg.seqno) := by
  induction segs with
  | nil => rfl
  | cons cur rest ih =>
      rw [TcpSendPcb.insertSeg, List.takeWhile_cons, List.dropWhile_cons]
      split
      · rw [ih]
        rfl
      · rfl

/-- A segment goes to its place among some pieces. -/
theorem Sends.insert (sends : Sends stream base acked next total opened held waiting pcb)
    {pieces : List (Portion TcpSeg)} (member : p ∈ held ++ waiting)
    (inside : ∀ q ∈ pieces, q ∈ held ++ waiting) (order : pieces.Pairwise Portion.Before)
    (apart : ∀ q ∈ pieces, q.Apart p) :
    ∃ pieces' : List (Portion TcpSeg), TcpSendPcb.insertSeg p.value (pieces.map Portion.value) = pieces'.map Portion.value ∧
      pieces'.Perm (p :: pieces) ∧ pieces'.Pairwise Portion.Before := by
  let behind (q : Portion TcpSeg) : Bool := seqLt q.value.seqno p.value.seqno
  have agrees (q : Portion TcpSeg) (member' : q ∈ pieces) : behind q = true ↔ q.Before p :=
    sends.seqLt_iff (inside q member') member (apart q member')
  have front : (pieces.map Portion.value).takeWhile (fun cur => seqLt cur.seqno p.value.seqno) =
      (pieces.takeWhile behind).map Portion.value := List.takeWhile_map
  have rest : (pieces.map Portion.value).dropWhile (fun cur => seqLt cur.seqno p.value.seqno) =
      (pieces.dropWhile behind).map Portion.value := List.dropWhile_map
  refine ⟨pieces.takeWhile behind ++ p :: pieces.dropWhile behind, ?_, Portion.insert_perm behind,
    Portion.insert_pairwise order apart agrees⟩
  rw [insertSeg_eq, front, rest, List.map_append, List.map_cons]

/-- A segment that is sent goes to its place among those that are not acknowledged. -/
theorem Sends.addUnacked (sends : Sends stream base acked next total opened held waiting pcb)
    (member : p ∈ waiting) :
    ∃ held' : List (Portion TcpSeg), TcpSendPcb.addUnacked (held.map Portion.value) p.value = held'.map Portion.value ∧
      held'.Perm (p :: held) ∧ held'.Pairwise Portion.Before := by
  have apart (q : Portion TcpSeg) (member' : q ∈ held) := sends.queues.apart q member' p member
  have own : p ∈ held ++ waiting := List.mem_append_right _ member
  have inside (q : Portion TcpSeg) (member' : q ∈ held) : q ∈ held ++ waiting :=
    List.mem_append_left _ member'
  rw [TcpSendPcb.addUnacked]
  rcases List.eq_nil_or_concat held with rfl | ⟨front, last, rfl⟩
  · exact ⟨[p], rfl, .refl _, List.pairwise_singleton _ _⟩
  · have order := sends.queues.heldOrder
    simp only [List.concat_eq_append] at *
    have ends : last ∈ front ++ [last] := by simp
    simp only [List.map_append, List.map_cons, List.map_nil, List.getLast?_concat]
    split
    · have inserted := sends.insert own inside order apart
      rwa [List.map_append] at inserted
    · rename_i later
      have before : last.Before p := by
        refine (apart last ends).resolve_right fun before => later ?_
        exact (sends.seqLt_iff own (inside last ends) (.inl before)).mpr before
      refine ⟨front ++ [last] ++ [p], by simp, (List.perm_append_singleton _ _), ?_⟩
      refine List.pairwise_append.mpr ⟨order, List.pairwise_singleton _ _,
        fun q member' r single => ?_⟩
      obtain rfl := List.mem_singleton.mp single
      rcases List.mem_append.mp member' with member' | single
      · have first := (List.pairwise_append.mp order).2.2 q member' last (by simp)
        have filled := sends.queues.filled last (inside last ends)
        simp only [Portion.Before, Portion.stop] at first before ⊢
        omega
      · obtain rfl := List.mem_singleton.mp single
        exact before

theorem Sends.sendSegment
    (sends : Sends stream base acked next total opened held (p :: waiting) pcb) :
    ∃ next' held', next ≤ next' ∧ Sends stream base acked next' total opened held' waiting
      (pcb.sendSegment p.value (waiting.map Portion.value)) := by
  have own : p ∈ held ++ p :: waiting := by simp
  have outgoing := sends.outgoing p own
  obtain ⟨lower, upper⟩ := sends.queues.within p own
  have filled := sends.queues.filled p own
  have close := sends.close
  have started := sends.started
  have sent := sends.sent
  have buf : tcpSndBuf.toNat = 2048 := rfl
  obtain ⟨held', added, same, order⟩ := sends.addUnacked (List.mem_cons_self (a := p))
  have members (q : Portion TcpSeg) : q ∈ held' ++ waiting ↔ q ∈ held ++ p :: waiting := by
    rw [List.mem_append, same.mem_iff, List.mem_append, List.mem_cons, List.mem_cons]
    tauto
  have unacked : (pcb.sendSegment p.value (waiting.map Portion.value)).unacked =
      held'.map Portion.value := by
    have some_ : p.value.tcplen > 0 := by
      rw [← outgoing.count]
      exact filled
    change (if p.value.tcplen > 0 then _ else _) = _
    rw [if_pos some_, sends.unacked, added]
  refine ⟨max next p.stop, held', le_max_left _ _, unacked, rfl, fun q member => ?_,
    sends.queues.send same order, sends.lastack, ?_, started.trans (le_max_left _ _),
    max_le sent upper, fun q member => ?_, close, sends.mss, sends.mssMost, ?_, sends.few,
    fun open_ => ?_⟩
  · exact sends.outgoing q ((members q).mp member)
  · change (if seqLt pcb.sndNxt p.value.seqEnd then p.value.seqEnd else pcb.sndNxt) = _
    rw [sends.sndNxt, outgoing.seqEnd]
    split
    · rename_i later
      rw [Lwip.seqLt_iff ⟨by omega, by omega⟩] at later
      rw [max_eq_right later.le]
    · rename_i earlier
      rw [Lwip.seqLt_iff ⟨by omega, by omega⟩] at earlier
      rw [max_eq_left (by omega)]
  · rcases List.mem_cons.mp (same.mem_iff.mp member) with rfl | member
    · exact le_max_right _ _
    · exact (sends.heldSent q member).trans (le_max_left _ _)
  · have before := sends.queuelen
    rw [sends.unacked, sends.unsent] at before
    rw [unacked]
    change pcb.sndQueuelen.toNat = clens (held'.map Portion.value ++ waiting.map Portion.value)
    rw [before, clens_append, clens_append, clens_perm (same.map Portion.value), List.map_cons,
      List.map_cons, clens_cons, clens_cons]
    omega
  · obtain ⟨lbb, room, within, oversize⟩ := sends.writes open_
    refine ⟨lbb, room, within, fun some_ q last => ?_⟩
    have last' : q ∈ (p :: waiting).getLast? := by
      cases waiting with
      | nil => cases last
      | cons r rest => rwa [List.getLast?_cons_cons]
    obtain ⟨later, fits⟩ := oversize some_ q last'
    refine ⟨max_lt later ?_, fits⟩
    have inside : q ∈ waiting := List.mem_of_mem_getLast? last
    have before := (List.pairwise_cons.mp sends.queues.waitingOrder).1 q inside
    have filled' := sends.queues.filled q (by simp [inside])
    rw [Portion.Before] at before
    rw [Portion.stop.eq_def q]
    omega

/-- A segment that has a part of the stream, and is not longer than segments are. -/
def TcpSeg.PartOf (stream : List (BitVec 8)) (base : BitVec 32) (seg : TcpSeg) : Prop :=
  (∃ place, seg.Carries stream base place) ∧ seg.len.toNat ≤ tcpMss

theorem Outgoing.partOf {mss : BitVec 16} (outgoing : Outgoing stream base mss p)
    (most : mss.toNat ≤ tcpMss) : p.value.PartOf stream base :=
  ⟨⟨p.place, outgoing.carries⟩, outgoing.small_toNat most⟩

/-- What a call of the sender leaves behind, and sends. -/
structure Sent (stream : List (BitVec 8)) (base : BitVec 32) (next total : Nat) (opened : Bool)
    (acked : Nat) (pcb pcb' : TcpSendPcb) (segs : List TcpSeg) : Prop where
  sends : ∃ next' held waiting, next ≤ next' ∧
    Sends stream base acked next' total opened held waiting pcb'
  parts : ∀ seg ∈ segs, seg.PartOf stream base
  state : pcb'.state = pcb.state

theorem outputLoop_spec (wnd : BitVec 16)
    (sends : Sends stream base acked next total opened held waiting pcb) :
    ∀ pcb' sent, TcpSendPcb.outputLoop wnd pcb (waiting.map Portion.value) = (pcb', sent) →
      Sent stream base next total opened acked pcb pcb' sent := by
  induction waiting generalizing held next pcb with
  | nil =>
      rintro pcb' sent ⟨⟩
      have same : { pcb with unsent := [] } = pcb := by
        rw [show ([] : List TcpSeg) = pcb.unsent from sends.unsent.symm]
      rw [same]
      exact ⟨⟨next, held, [], le_rfl, sends⟩, by simp, rfl⟩
  | cons p waiting ih =>
      intro pcb' sent looped
      have same : { pcb with unsent := p.value :: waiting.map Portion.value } = pcb := by
        rw [← List.map_cons, ← sends.unsent]
      rw [List.map_cons, TcpSendPcb.outputLoop] at looped
      simp only [same] at looped
      split at looped
      · obtain ⟨next', held', further, sends'⟩ := sends.sendSegment
        obtain ⟨⟨pcb'', sent'⟩, rest⟩ : ∃ result, TcpSendPcb.outputLoop wnd
            (pcb.sendSegment p.value (waiting.map Portion.value)) (waiting.map Portion.value) =
              result := ⟨_, rfl⟩
        rw [rest] at looped
        cases looped
        obtain ⟨⟨next'', held'', waiting'', further', sends''⟩, parts, state⟩ :=
          ih sends' pcb'' sent' rest
        refine ⟨⟨next'', held'', waiting'', further.trans further', sends''⟩, ?_, state⟩
        intro seg member
        rcases List.mem_cons.mp member with rfl | member
        · exact (sends.outgoing p (by simp)).partOf sends.mssMost
        · exact parts seg member
      · cases looped
        exact ⟨⟨next, held, p :: waiting, le_rfl, sends⟩, by simp, rfl⟩

/-- While the connection is open, there is no room at the end of the last segment when there is
none. -/
def TcpSendPcb.Settled (opened : Bool) (pcb : TcpSendPcb) : Prop :=
  opened = true → pcb.unsent = [] → pcb.unsentOversize = 0

theorem Sends.clearOversize (sends : Sends stream base acked next total opened held waiting pcb) :
    Sends stream base acked next total opened held waiting { pcb with unsentOversize := 0 } :=
  { sends with
    writes := fun open_ =>
      { sends.writes open_ with oversize := fun some_ => absurd rfl some_ } }

theorem finishOutput_spec (sends : Sends stream base acked next total opened held waiting pcb) :
    Sends stream base acked next total opened held waiting pcb.finishOutput ∧
      pcb.finishOutput.Settled opened ∧ pcb.finishOutput.state = pcb.state := by
  rw [TcpSendPcb.finishOutput]
  split
  · rename_i none_
    exact ⟨sends.clearOversize.congr ⟨rfl, rfl, rfl, rfl, rfl, rfl, rfl, rfl, rfl⟩,
      fun _ _ => rfl, rfl⟩
  · rename_i seg rest some_
    have settled {pcb' : TcpSendPcb} (same : pcb'.unsent = pcb.unsent) : pcb'.Settled opened := by
      intro _ none_
      rw [same, some_] at none_
      cases none_
    split
    · exact ⟨sends.congr ⟨rfl, rfl, rfl, rfl, rfl, rfl, rfl, rfl, rfl⟩, settled rfl, rfl⟩
    · exact ⟨sends.congr ⟨rfl, rfl, rfl, rfl, rfl, rfl, rfl, rfl, rfl⟩, settled rfl, rfl⟩

theorem tcpOutput_eq (pcb : TcpSendPcb) (ackNow : Bool) :
    pcb.tcpOutput ackNow = (pcb, []) ∨ ∃ wnd, pcb.tcpOutput ackNow =
      ((TcpSendPcb.outputLoop wnd pcb pcb.unsent).1.finishOutput,
        (TcpSendPcb.outputLoop wnd pcb pcb.unsent).2) := by
  rw [TcpSendPcb.tcpOutput]
  dsimp only
  split_ifs
  all_goals first | exact .inl rfl | exact .inr ⟨_, rfl⟩

/-- `tcp_output` sends pieces of the stream. -/
theorem tcpOutput_spec (ackNow : Bool)
    (sends : Sends stream base acked next total opened held waiting pcb) (settled : pcb.Settled opened) :
    Sent stream base next total opened acked pcb (pcb.tcpOutput ackNow).1
      (pcb.tcpOutput ackNow).2 ∧ (pcb.tcpOutput ackNow).1.Settled opened := by
  rcases tcpOutput_eq pcb ackNow with same | ⟨wnd, same⟩
  · rw [same]
    exact ⟨⟨⟨next, held, waiting, le_rfl, sends⟩, by simp, rfl⟩, settled⟩
  · rw [same, sends.unsent]
    obtain ⟨⟨next', held', waiting', further, sends'⟩, parts, state⟩ :=
      outputLoop_spec wnd sends _ _ rfl
    obtain ⟨sends'', settled', state'⟩ := finishOutput_spec sends'
    exact ⟨⟨⟨next', held', waiting', further, sends''⟩, parts, state'.trans state⟩, settled'⟩

/-! ## Retransmission -/

theorem Sends.ordered (sends : Sends stream base acked next total opened held waiting pcb)
    (ordered : pcb.Ordered) : ∀ p ∈ held, ∀ q ∈ waiting, p.Before q := by
  intro p member q member'
  rw [TcpSendPcb.Ordered, sends.unacked, sends.unsent] at ordered
  have first := ordered p.value (List.mem_map_of_mem member) q.value (List.mem_map_of_mem member')
  exact (sends.seqLt_iff (List.mem_append_left _ member) (List.mem_append_right _ member')
    (sends.queues.apart p member q member')).mp first

/-- Segments go from the one queue to the other and wait again. -/
theorem Sends.rearrange {held' waiting' : List (Portion TcpSeg)}
    (sends : Sends stream base acked next total opened held waiting pcb) (settled : pcb.Settled opened)
    (queues : Queues held' waiting' acked total)
    (same : (held' ++ waiting').Perm (held ++ waiting)) (fewer : ∀ p ∈ held', p ∈ held)
    (last : ∀ p ∈ waiting.getLast?, next < p.stop → waiting'.getLast? = some p) (nrtx : BitVec 8) :
    Sends stream base acked next total opened held' waiting'
      { pcb with
        unacked := held'.map Portion.value, unsent := waiting'.map Portion.value, nrtx } := by
  refine ⟨rfl, rfl, fun p member => sends.outgoing p (same.mem_iff.mp member), queues, sends.lastack,
    sends.sndNxt, sends.started, sends.sent, fun p member => sends.heldSent p (fewer p member),
    sends.close, sends.mss, sends.mssMost, ?_, sends.few,
    fun open_ => { sends.writes open_ with oversize := fun some_ p member => ?_ }⟩
  · have before := sends.queuelen
    rw [sends.unacked, sends.unsent, ← List.map_append] at before
    change pcb.sndQueuelen.toNat = _
    rw [before, ← List.map_append]
    exact (clens_perm (same.map _)).symm
  · rcases List.eq_nil_or_concat waiting with rfl | ⟨front, q, rfl⟩
    · exact absurd (settled open_ sends.unsent) some_
    · have ends : q ∈ (front.concat q).getLast? := by simp
      have room := (sends.writes open_).oversize some_ q ends
      rw [last q ends room.1] at member
      obtain rfl : q = p := Option.some_inj.mp member
      exact room

theorem tcpRexmit_spec (sends : Sends stream base acked next total opened held waiting pcb)
    (settled : pcb.Settled opened) :
    (∃ held' waiting', Sends stream base acked next total opened held' waiting' pcb.tcpRexmit) ∧
      pcb.tcpRexmit.Settled opened ∧ pcb.tcpRexmit.state = pcb.state := by
  cases held with
  | nil =>
      have same : pcb.tcpRexmit = pcb := by
        rw [TcpSendPcb.tcpRexmit, sends.unacked]
        rfl
      rw [same]
      exact ⟨⟨_, _, sends⟩, settled, rfl⟩
  | cons p held =>
      have order := sends.queues.waitingOrder
      have apart (q : Portion TcpSeg) (member : q ∈ waiting) :=
        sends.queues.apart p List.mem_cons_self q member
      have filled := sends.queues.filled
      obtain ⟨waiting', inserted, same, order'⟩ := sends.insert (p := p)
        (by simp) (fun q member => by simp [member]) order fun q member => (apart q member).symm
      have moved : pcb.tcpRexmit = { pcb with
          unacked := held.map Portion.value, unsent := waiting'.map Portion.value,
          nrtx := pcb.nrtx + 1 } := by
        rw [TcpSendPcb.tcpRexmit, sends.unacked, List.map_cons, sends.unsent]
        simp only [inserted]
      have perm : (held ++ waiting').Perm (p :: held ++ waiting) :=
        (same.append_left held).trans List.perm_middle
      rw [moved]
      refine ⟨⟨held, waiting', sends.rearrange settled (sends.queues.takeBack same order') perm
        (fun q member => List.mem_cons_of_mem _ member) (fun q last later => ?_) _⟩, ?_, rfl⟩
      · have member := List.mem_of_mem_getLast? last
        have some_ := filled q (by simp [member])
        have earlier := sends.heldSent p List.mem_cons_self
        refine Portion.getLast?_eq order' (same.mem_iff.mpr (List.mem_cons_of_mem _ member))
          (fun r member' => ?_) some_
        rcases List.mem_cons.mp (same.mem_iff.mp member') with rfl | member'
        · refine .inr ((apart q member).resolve_right fun before => ?_)
          have some' := filled r (by simp)
          simp only [Portion.Before, Portion.stop] at before earlier later
          omega
        · exact Portion.before_last order last member'
      · intro _ none_
        have empty := same.length_eq
        rw [List.map_eq_nil_iff.mp none_] at empty
        simp at empty

theorem tcpRexmitFast_spec (sends : Sends stream base acked next total opened held waiting pcb)
    (settled : pcb.Settled opened) :
    (∃ held' waiting', Sends stream base acked next total opened held' waiting'
      pcb.tcpRexmitFast) ∧ pcb.tcpRexmitFast.Settled opened ∧ pcb.tcpRexmitFast.state = pcb.state := by
  rw [TcpSendPcb.tcpRexmitFast]
  split
  · obtain ⟨⟨held', waiting', sends'⟩, settled', state⟩ := tcpRexmit_spec sends settled
    exact ⟨⟨held', waiting', sends'.congr ⟨rfl, rfl, rfl, rfl, rfl, rfl, rfl, rfl, rfl⟩⟩, settled',
      state⟩
  · exact ⟨⟨held, waiting, sends⟩, settled, rfl⟩

theorem tcpRexmitRto_spec (ackNow : Bool)
    (sends : Sends stream base acked next total opened held waiting pcb) (settled : pcb.Settled opened)
    (ordered : pcb.Ordered) :
    Sent stream base next total opened acked pcb (pcb.tcpRexmitRto ackNow).1
      (pcb.tcpRexmitRto ackNow).2 ∧ (pcb.tcpRexmitRto ackNow).1.Settled opened := by
  rw [TcpSendPcb.tcpRexmitRto]
  split
  · exact ⟨⟨⟨next, held, waiting, le_rfl, sends⟩, by simp, rfl⟩, settled⟩
  · rename_i some_
    have queues := sends.queues.takeBackAll (sends.ordered ordered)
    have sends' := sends.rearrange settled queues (.refl _) (by simp) (fun p last later => by
      rw [List.getLast?_append, last]
      rfl) (pcb.nrtx + 1)
    rw [List.map_append, ← sends.unacked, ← sends.unsent] at sends'
    have settled' : TcpSendPcb.Settled opened { pcb with
        unsent := pcb.unacked ++ pcb.unsent, unacked := [], nrtx := pcb.nrtx + 1 } :=
      fun _ none_ => absurd (List.append_eq_nil_iff.mp none_).1 some_
    obtain ⟨⟨more, parts, state⟩, settled''⟩ := tcpOutput_spec ackNow sends' settled'
    exact ⟨⟨more, parts, state⟩, settled''⟩

/-- A probe has the first number of the first segment, when the header length leads to its data. -/
theorem tcpZeroWindowProbe_spec (room : Bool) {header : List (BitVec 8)}
    (sends : Sends stream base acked next total opened held waiting pcb)
    (leads : ∀ seg ∈ (pcb.unacked ++ pcb.unsent).head?, ¬ (seg.fin = true ∧ seg.len = 0) →
      TcpSendPcb.tcphHdrlen header = header.length) :
    ∀ seg ∈ pcb.tcpZeroWindowProbe room header, seg.PartOf stream base := by
  have pieces : pcb.unacked ++ pcb.unsent = (held ++ waiting).map Portion.value := by
    rw [sends.unacked, sends.unsent, List.map_append]
  rw [pieces] at leads
  rw [TcpSendPcb.tcpZeroWindowProbe, pieces]
  cases shape : held ++ waiting with
  | nil => simp
  | cons p rest =>
      have own : p ∈ held ++ waiting := shape ▸ List.mem_cons_self
      have carries := (sends.outgoing p own).carries
      have within := carries.within
      rw [shape] at leads
      rw [List.map_cons]
      dsimp only
      split_ifs with only data
      · intro seg single
        rw [List.mem_singleton.mp single]
        have ends := carries.fin data.1
        rw [data.2] at ends within
        exact ⟨⟨p.place, carries.seqno, rfl, rfl, within, fun _ => ends, rfl, ⟨rfl, trivial⟩, nofun⟩,
          Nat.zero_le _⟩
      · intro seg single
        rw [leads p.value rfl data, List.drop_left] at single
        rw [List.mem_singleton.mp single]
        have filled := sends.queues.filled p own
        rw [(sends.outgoing p own).count, carries.tcplen] at filled
        have some_ : 1 ≤ p.value.len.toNat := by
          by_contra none_
          have zero : p.value.len = 0 := BitVec.eq_of_toNat_eq (by simp; omega)
          cases finish : p.value.fin with
          | false =>
              rw [finish] at filled
              simp at filled
              omega
          | true => exact data ⟨finish, zero⟩
        have first : (PbufChain.bytes p.value.p).take 1 = slice stream p.place 1 := by
          rw [carries.bytes, take_slice some_]
        have one : ((PbufChain.bytes p.value.p).take 1).length = 1 := by
          rw [List.length_take, carries.len]
          omega
        refine ⟨⟨p.place, carries.seqno, ?_, ?_, ?_, nofun, rfl, ⟨?_, trivial⟩, nofun⟩, ?_⟩
        · simpa [PbufChain.bytes] using one
        · simpa [PbufChain.bytes] using first
        · change p.place + 1 ≤ stream.length
          omega
        · rw [PbufChain.bytes_cons, PbufChain.bytes_nil, List.append_nil, one]
          rfl
        · change 1 ≤ 1460
          omega
      · simp

/-- The timer keeps the data, and what it sends are pieces of the stream. -/
theorem tcpSlowtmr_spec {rto : BitVec 16} {room ackNow : Bool} {header : List (BitVec 8)}
    {segs : List TcpSeg}
    (sends : Sends stream base acked next total opened held waiting pcb) (settled : pcb.Settled opened)
    (ordered : pcb.Ordered) (ticked : pcb.tcpSlowtmr rto room ackNow header = some (pcb', segs)) :
    ((∃ next' held waiting, next ≤ next' ∧
        Sends stream base acked next' total opened held waiting pcb') ∧
      pcb'.state = pcb.state ∧ pcb'.Settled opened) ∧
      (pcb.ProbesData header → ∀ seg ∈ segs, seg.PartOf stream base) := by
  have idle {pcb' : TcpSendPcb} (same : pcb.SameData pcb') (state : pcb'.state = pcb.state) :
      (∃ next' held waiting, next ≤ next' ∧
        Sends stream base acked next' total opened held waiting pcb') ∧
      pcb'.state = pcb.state ∧ pcb'.Settled opened := by
    refine ⟨⟨next, held, waiting, le_rfl, sends.congr same⟩, state, ?_⟩
    rw [TcpSendPcb.Settled, same.unsent, same.unsentOversize]
    exact settled
  have retransmit {pcb' : TcpSendPcb} (same : pcb.SameData pcb') (state : pcb'.state = pcb.state) :
      ((∃ next' held waiting, next ≤ next' ∧
        Sends stream base acked next' total opened held waiting (pcb'.tcpRexmitRto ackNow).1) ∧
        (pcb'.tcpRexmitRto ackNow).1.state = pcb.state ∧
        (pcb'.tcpRexmitRto ackNow).1.Settled opened) ∧
      (pcb.ProbesData header → ∀ seg ∈ (pcb'.tcpRexmitRto ackNow).2, seg.PartOf stream base) := by
    have settled' : pcb'.Settled opened := (idle same state).2.2
    have ordered' : pcb'.Ordered := by
      rw [TcpSendPcb.Ordered, same.unacked, same.unsent]
      exact ordered
    obtain ⟨⟨more, parts, state'⟩, settled''⟩ :=
      tcpRexmitRto_spec ackNow (sends.congr same) settled' ordered'
    exact ⟨⟨more, state'.trans state, settled''⟩, fun _ => parts⟩
  simp only [TcpSendPcb.tcpSlowtmr] at ticked
  split at ticked
  · cases ticked
  split at ticked
  · rename_i probing
    split at ticked
    · obtain ⟨rfl, rfl⟩ := Prod.mk.inj (Option.some_inj.mp ticked)
      have same (persistCnt : BitVec 32) (persistBackoff : BitVec 8) :
          pcb.SameData { pcb with persistCnt, persistBackoff } :=
        ⟨rfl, rfl, rfl, rfl, rfl, rfl, rfl, rfl, rfl⟩
      refine ⟨idle (same 0 _) rfl, fun probes => ?_⟩
      have sends' := sends.congr (same (pcb.persistCnt + 1) pcb.persistBackoff)
      exact tcpZeroWindowProbe_spec room sends' (probes probing)
    · obtain ⟨rfl, rfl⟩ := Prod.mk.inj (Option.some_inj.mp ticked)
      exact ⟨idle ⟨rfl, rfl, rfl, rfl, rfl, rfl, rfl, rfl, rfl⟩ rfl, by simp⟩
  · obtain ⟨ticking, same, state, due⟩ : ∃ ticking : TcpSendPcb, pcb.SameData ticking ∧
        ticking.state = pcb.state ∧
        (if BitVec.sle 0 pcb.rtime then { pcb with rtime := pcb.rtime + 1 } else pcb) = ticking := by
      refine ⟨_, ?_, ?_, rfl⟩
      · split
        · exact ⟨rfl, rfl, rfl, rfl, rfl, rfl, rfl, rfl, rfl⟩
        · exact ⟨rfl, rfl, rfl, rfl, rfl, rfl, rfl, rfl, rfl⟩
      · split
        · rfl
        · rfl
    rw [due] at ticked
    split at ticked
    · have whole := Option.some_inj.mp ticked
      rw [Prod.ext_iff] at whole
      obtain ⟨rfl, rfl⟩ := whole
      exact retransmit ⟨same.unacked, same.unsent, same.mss, same.lastack, same.sndNxt,
        same.sndQueuelen, same.sndLbb, same.sndBuf, same.unsentOversize⟩ state
    · obtain ⟨rfl, rfl⟩ := Prod.mk.inj (Option.some_inj.mp ticked)
      exact ⟨idle same state, by simp⟩

end RtThread.Lwip
