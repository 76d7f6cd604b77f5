import RtThread.Lwip.TcpReceive

/-!
# Sending a TCP stream

The sending half of a connection: what `tcp_write` and `tcp_close` queue, `tcp_output` sends and an
acknowledgement removes again. The chain of a segment has the data only, without the header that
stands in front of it in its first pbuf. How long a retransmission waits is left to the timer, whose
action brings `rto`.
-/

namespace RtThread.Lwip

open RtThread.Std

/-- `TCP_MSS`. -/
def tcpMss : Nat := 1460

/-- `TCP_SND_BUF`. -/
def tcpSndBuf : BitVec 16 := 2048

/-- `TCP_SND_QUEUELEN`. -/
def tcpSndQueuelen : BitVec 16 := 5

/-- `TCP_SNDQUEUELEN_OVERFLOW`. -/
def tcpSndqueuelenOverflow : BitVec 16 := 0xffff - 3

/-- `TCP_MAXRTX`. -/
def tcpMaxrtx : BitVec 8 := 12

/-- `seqno + TCP_TCPLEN`. -/
def TcpSeg.seqEnd (seg : TcpSeg) : BitVec 32 := seg.seqno + BitVec.ofNat 32 seg.tcplen

/-- The fields of `struct tcp_pcb` that sending is about. -/
structure TcpSendPcb where
  state : TcpState
  mss : BitVec 16
  nodelay : Bool
  inFr : Bool
  nagleMemErr : Bool
  finQueued : Bool
  rtime : BitVec 16
  nrtx : BitVec 8
  lastack : BitVec 32
  dupacks : BitVec 8
  cwnd : BitVec 16
  ssthresh : BitVec 16
  sndNxt : BitVec 32
  sndWnd : BitVec 16
  sndWl1 : BitVec 32
  sndWl2 : BitVec 32
  sndLbb : BitVec 32
  acked : BitVec 16
  sndBuf : BitVec 16
  sndQueuelen : BitVec 16
  unsentOversize : BitVec 16
  unsent : List TcpSeg
  unacked : List TcpSeg
  persistCnt : BitVec 32
  persistBackoff : BitVec 8
deriving DecidableEq, Repr

/-- Why nothing has been queued. -/
inductive SendError where
  /-- `ERR_CONN`. -/
  | conn
  /-- `ERR_MEM`. -/
  | mem
  /-- `LWIP_ASSERT` does not return. -/
  | assertion
deriving DecidableEq, Repr

/-- `apiflags` of `tcp_write`. -/
structure WriteFlags where
  copy : Bool
  more : Bool
deriving DecidableEq, Repr

/-- What the memory pools have left during one call of `tcp_write`: the pbuf that goes behind the
last segment, and what new segments need. -/
structure WriteRoom where
  concat : Bool
  segments : Nat
deriving DecidableEq, Repr

/-! ## Writing -/

/-- The bytes go to the end of the last pbuf, which has room for them. -/
def growTail (bytes : List (BitVec 8)) : PbufChain → PbufChain
  | [] => []
  | [p] => [⟨p.payload ++ bytes, p.totLen + BitVec.ofNat 16 bytes.length⟩]
  | p :: rest => ⟨p.payload, p.totLen + BitVec.ofNat 16 bytes.length⟩ :: growTail bytes rest

/-- How `tcp_write` extends the last segment that is not sent: `oversize_used` bytes are in its last
pbuf, and `concat` bytes in one that is chained to it. -/
structure TailWrite where
  oversizeUsed : BitVec 16
  concat : BitVec 16
  oversize : BitVec 16
deriving DecidableEq, Repr

namespace TcpSendPcb

/-- `*oversize` of `tcp_pbuf_prealloc`. -/
def tcpPbufPrealloc (pcb : TcpSendPcb) (length maxLength : BitVec 16) (more firstSeg : Bool) :
    BitVec 16 :=
  if length < maxLength ∧ (more ∨ (¬ pcb.nodelay ∧
      (¬ firstSeg ∨ pcb.unsent ≠ [] ∨ pcb.unacked ≠ []))) then
    let aligned := (length.toNat + tcpMss + 3) / 4 * 4
    BitVec.ofNat 16 (min maxLength.toNat aligned) - length
  else 0

/-- Whether the connection takes data of the application. -/
def writable (pcb : TcpSendPcb) : Bool :=
  match pcb.state with
  | .established | .closeWait | .synSent | .synRcvd => true
  | _ => false

def tcpWriteChecks (pcb : TcpSendPcb) (len : BitVec 16) : Except SendError Unit :=
  if ¬ pcb.writable then .error .conn
  else if len = 0 then .ok ()
  else if len > pcb.sndBuf then .error .mem
  else if pcb.sndQueuelen ≥ tcpSndQueuelen ∨ pcb.sndQueuelen > tcpSndqueuelenOverflow then
    .error .mem
  else if pcb.sndQueuelen ≠ 0 then
    if pcb.unacked ≠ [] ∨ pcb.unsent ≠ [] then .ok () else .error .assertion
  else if pcb.unacked = [] ∧ pcb.unsent = [] then .ok ()
  else .error .assertion

/-- The first two phases of `tcp_write`, when there is a last segment. -/
def writeTail (pcb : TcpSendPcb) (last : TcpSeg) (len : BitVec 16) (flags : WriteFlags)
    (room : WriteRoom) : Except SendError TailWrite :=
  let space := pcb.mss - last.len
  let oversizeUsed := if pcb.unsentOversize < len then pcb.unsentOversize else len
  let oversize := pcb.unsentOversize - oversizeUsed
  let space := space - oversizeUsed
  if ¬ (oversize = 0 ∨ oversizeUsed = len) then .error .assertion
  else if oversizeUsed < len ∧ space > 0 ∧ last.len > 0 then
    let seglen := if space < len - oversizeUsed then space else len - oversizeUsed
    if room.concat then
      .ok ⟨oversizeUsed, seglen,
        if flags.copy then pcb.tcpPbufPrealloc seglen space flags.more true else oversize⟩
    else .error .mem
  else .ok ⟨oversizeUsed, 0, oversize⟩

/-- The third phase: new segments for the bytes that are left. -/
def writeSegments (pcb : TcpSendPcb) (flags : WriteFlags) :
    Nat → Bool → BitVec 32 → BitVec 16 → BitVec 16 → List (BitVec 8) →
      Except SendError (List TcpSeg × BitVec 16 × BitVec 16)
  | _, _, _, queuelen, oversize, [] => .ok ([], queuelen, oversize)
  | 0, _, _, _, _, _ :: _ => .error .mem
  | room + 1, firstSeg, seqno, queuelen, oversize, byte :: rest =>
      let data := (byte :: rest).take pcb.mss.toNat
      let left := (byte :: rest).drop pcb.mss.toNat
      let seglen := BitVec.ofNat 16 data.length
      if ¬ flags.copy ∧ oversize ≠ 0 then .error .assertion
      else
        let p := if flags.copy then [⟨data, seglen⟩] else [⟨[], seglen⟩, ⟨data, seglen⟩]
        let oversize :=
          if flags.copy then pcb.tcpPbufPrealloc seglen pcb.mss flags.more firstSeg else oversize
        let queuelen := queuelen + (pbufClen p).setWidth 16
        if queuelen > tcpSndQueuelen ∨ queuelen > tcpSndqueuelenOverflow then .error .mem
        else do
          let (queue, queuelen, oversize) ←
            pcb.writeSegments flags room false (seqno + seglen.setWidth 32) queuelen oversize left
          .ok (⟨seqno, PbufChain.totLen p, false, false, p⟩ :: queue, queuelen, oversize)

/-- The last segment is extended, which `pbuf_cat` may refuse. -/
def commitTail (last : TcpSeg) (tail : TailWrite) (arg : List (BitVec 8)) :
    Except SendError TcpSeg :=
  let used := arg.take tail.oversizeUsed.toNat
  let last :=
    if tail.oversizeUsed > 0 then
      { last with p := growTail used last.p, len := last.len + tail.oversizeUsed }
    else last
  if tail.concat ≠ 0 then
    match pbufCat last.p
        [⟨(arg.drop tail.oversizeUsed.toNat).take tail.concat.toNat, tail.concat⟩] with
    | some p => .ok { last with p, len := last.len + tail.concat }
    | none => .error .assertion
  else .ok last

/-- `tcp_write` once its checks have passed, but for its last assertion. -/
def queueData (pcb : TcpSendPcb) (arg : List (BitVec 8)) (flags : WriteFlags) (room : WriteRoom) :
    Except SendError TcpSendPcb := do
  let len := BitVec.ofNat 16 arg.length
  match pcb.unsent.getLast? with
  | none =>
      if pcb.unsentOversize = 0 then
        let (queue, queuelen, oversize) ←
          pcb.writeSegments flags room.segments true pcb.sndLbb pcb.sndQueuelen 0 arg
        .ok { pcb with
          unsent := queue, unsentOversize := oversize, sndLbb := pcb.sndLbb + len.setWidth 32,
          sndBuf := pcb.sndBuf - len, sndQueuelen := queuelen }
      else .error .assertion
  | some last =>
      let tail ← pcb.writeTail last len flags room
      let pos := tail.oversizeUsed + tail.concat
      let queuelen := pcb.sndQueuelen + if tail.concat ≠ 0 then 1 else 0
      let (queue, queuelen, oversize) ←
        pcb.writeSegments flags room.segments true (pcb.sndLbb + pos.setWidth 32) queuelen
          tail.oversize (arg.drop pos.toNat)
      let last ← commitTail last tail arg
      .ok { pcb with
        unsent := pcb.unsent.dropLast ++ last :: queue, unsentOversize := oversize,
        sndLbb := pcb.sndLbb + len.setWidth 32, sndBuf := pcb.sndBuf - len, sndQueuelen := queuelen }

/-- `LWIP_ASSERT("tcp_write: valid queue length", ...)`. -/
def validQueuelen (pcb : TcpSendPcb) : Bool :=
  pcb.sndQueuelen = 0 ∨ pcb.unacked ≠ [] ∨ pcb.unsent ≠ []

/-- `tcp_write` from its checks to the assertion that each of its two ends makes. -/
def writeData (pcb : TcpSendPcb) (arg : List (BitVec 8)) (flags : WriteFlags) (room : WriteRoom) :
    Except SendError TcpSendPcb :=
  match pcb.queueData arg flags room with
  | .ok pcb => if pcb.validQueuelen then .ok pcb else .error .assertion
  | .error .mem => if pcb.validQueuelen then .error .mem else .error .assertion
  | .error error => .error error

/-- `tcp_write`. The result says what it returns. -/
def tcpWrite (pcb : TcpSendPcb) (arg : List (BitVec 8)) (flags : WriteFlags) (room : WriteRoom) :
    Option (TcpSendPcb × Except SendError Unit) :=
  let result := do
    pcb.tcpWriteChecks (BitVec.ofNat 16 arg.length)
    pcb.writeData arg flags room
  match result with
  | .ok pcb => some (pcb, .ok ())
  | .error .conn => some (pcb, .error .conn)
  | .error .mem => some ({ pcb with nagleMemErr := true }, .error .mem)
  | .error .assertion => none

/-! ## Closing -/

/-- `tcp_enqueue_flags` for a FIN. -/
def tcpEnqueueFin (pcb : TcpSendPcb) (room : Bool) :
    Option (TcpSendPcb × Except SendError Unit) :=
  if pcb.sndQueuelen ≥ tcpSndQueuelen ∨ pcb.sndQueuelen > tcpSndqueuelenOverflow then
    some ({ pcb with nagleMemErr := true }, .error .mem)
  else if pcb.sndBuf = 0 then some (pcb, .error .mem)
  else if ¬ room then some ({ pcb with nagleMemErr := true }, .error .mem)
  else
    some ({ pcb with
      unsent := pcb.unsent ++ [⟨pcb.sndLbb, 0, false, true, [⟨[], 0⟩]⟩], unsentOversize := 0,
      sndLbb := pcb.sndLbb + 1, sndBuf := pcb.sndBuf - 1, finQueued := true,
      sndQueuelen := pcb.sndQueuelen + 1 }, .ok ())

def tcpSendFin (pcb : TcpSendPcb) (room : Bool) : Option (TcpSendPcb × Except SendError Unit) :=
  match pcb.unsent.getLast? with
  | some last =>
      if ¬ last.syn ∧ ¬ last.fin then
        some ({ pcb with unsent := pcb.unsent.dropLast ++ [{ last with fin := true }] }, .ok ())
      else pcb.tcpEnqueueFin room
  | none => pcb.tcpEnqueueFin room

/-! ## Output -/

/-- The loop that finds the place of a segment in a queue that is in order. -/
def insertSeg (seg : TcpSeg) : List TcpSeg → List TcpSeg
  | [] => [seg]
  | cur :: rest =>
      if seqLt cur.seqno seg.seqno then cur :: insertSeg seg rest else seg :: cur :: rest

/-- A segment that has been sent goes to the list of those that are not acknowledged. -/
def addUnacked (unacked : List TcpSeg) (seg : TcpSeg) : List TcpSeg :=
  match unacked.getLast? with
  | none => [seg]
  | some useg => if seqLt seg.seqno useg.seqno then insertSeg seg unacked else unacked ++ [seg]

/-- `tcp_do_output_nagle`. -/
def tcpDoOutputNagle (pcb : TcpSendPcb) : Bool :=
  pcb.unacked = [] || pcb.nodelay || pcb.inFr ||
    match pcb.unsent with
    | [] => false
    | [seg] => pcb.mss ≤ seg.len
    | _ :: _ :: _ => true

/-- Whether the data of a segment ends within `wnd` numbers. -/
def fits (pcb : TcpSendPcb) (wnd : BitVec 16) (seg : TcpSeg) : Bool :=
  seg.seqno - pcb.lastack + seg.len.setWidth 32 ≤ wnd.setWidth 32

/-- `tcp_output_segment` and what `tcp_output` notes about the segment. -/
def sendSegment (pcb : TcpSendPcb) (seg : TcpSeg) (rest : List TcpSeg) : TcpSendPcb :=
  { pcb with
    unsent := rest
    rtime := if pcb.rtime = -1 then 0 else pcb.rtime
    sndNxt := if seqLt pcb.sndNxt seg.seqEnd then seg.seqEnd else pcb.sndNxt
    unacked := if seg.tcplen > 0 then addUnacked pcb.unacked seg else pcb.unacked }

/-- The loop of `tcp_output` over the segments that are not sent. -/
def outputLoop (wnd : BitVec 16) (pcb : TcpSendPcb) : List TcpSeg → TcpSendPcb × List TcpSeg
  | [] => ({ pcb with unsent := [] }, [])
  | seg :: rest =>
      let pcb := { pcb with unsent := seg :: rest }
      if pcb.fits wnd seg ∧ (pcb.tcpDoOutputNagle ∨ pcb.nagleMemErr ∨ pcb.finQueued) then
        let (pcb, sent) := outputLoop wnd (pcb.sendSegment seg rest) rest
        (pcb, seg :: sent)
      else (pcb, [])

/-- What follows the loop of `tcp_output`. -/
def finishOutput (pcb : TcpSendPcb) : TcpSendPcb :=
  match pcb.unsent with
  | [] => { pcb with unsentOversize := 0, nagleMemErr := false }
  | seg :: _ =>
      if pcb.persistBackoff = 0 ∧ ¬ pcb.fits pcb.sndWnd seg then
        { pcb with persistCnt := 0, persistBackoff := 1, nagleMemErr := false }
      else { pcb with nagleMemErr := false }

/-- `tcp_output`, with the segments that it sends. With `ackNow` it sends an acknowledgement when
there is no data that it could go with. -/
def tcpOutput (pcb : TcpSendPcb) (ackNow : Bool) : TcpSendPcb × List TcpSeg :=
  let wnd := if pcb.sndWnd < pcb.cwnd then pcb.sndWnd else pcb.cwnd
  let held : Bool :=
    match pcb.unsent with
    | [] => true
    | seg :: _ => ! pcb.fits wnd seg
  if ackNow ∧ held then (pcb, [])
  else
    let (pcb, sent) := outputLoop wnd pcb pcb.unsent
    (pcb.finishOutput, sent)

/-- The FIN is queued and sent, in the state that follows. -/
def sendFinIn (pcb : TcpSendPcb) (state : TcpState) (room ackNow : Bool) :
    Option (TcpSendPcb × List TcpSeg × Except SendError Unit) := do
  let (pcb, result) ← pcb.tcpSendFin room
  match result with
  | .ok () =>
      let (pcb, sent) := tcpOutput { pcb with state } ackNow
      some (pcb, sent, .ok ())
  | .error error => some (pcb, [], .error error)

/-- `tcp_close_shutdown`, when it does not reset the connection. -/
def tcpCloseShutdown (pcb : TcpSendPcb) (room ackNow : Bool) :
    Option (TcpSendPcb × List TcpSeg × Except SendError Unit) :=
  match pcb.state with
  | .established => pcb.sendFinIn .finWait1 room ackNow
  | .closeWait => pcb.sendFinIn .lastAck room ackNow
  | _ => some (pcb, [], .ok ())

/-! ## Retransmission -/

def tcpRexmitRto (pcb : TcpSendPcb) (ackNow : Bool) : TcpSendPcb × List TcpSeg :=
  if pcb.unacked = [] then (pcb, [])
  else
    tcpOutput { pcb with
      unsent := pcb.unacked ++ pcb.unsent, unacked := [], nrtx := pcb.nrtx + 1 } ackNow

def tcpRexmit (pcb : TcpSendPcb) : TcpSendPcb :=
  match pcb.unacked with
  | [] => pcb
  | seg :: rest =>
      { pcb with unacked := rest, unsent := insertSeg seg pcb.unsent, nrtx := pcb.nrtx + 1 }

def tcpRexmitFast (pcb : TcpSendPcb) : TcpSendPcb :=
  if pcb.unacked ≠ [] ∧ ¬ pcb.inFr then
    let pcb := pcb.tcpRexmit
    let half := if pcb.cwnd > pcb.sndWnd then pcb.sndWnd / 2 else pcb.cwnd / 2
    let ssthresh := if half.toNat < 2 * pcb.mss.toNat then 2 * pcb.mss else half
    { pcb with ssthresh, cwnd := ssthresh + 3 * pcb.mss, inFr := true }
  else pcb

/-- `TCPH_HDRLEN`, in bytes, of a header that starts with `bytes`. -/
def tcphHdrlen (bytes : List (BitVec 8)) : Nat := (bytes.getD 12 0).toNat / 16 * 4

/-- `tcp_zero_window_probe`, which sends one number of the first segment. `header` is what stands in
front of the data of that segment, from `seg->p->payload` on. Until the segment is sent this is its
TCP header. Then it begins with the headers of the layers below, which are not taken away again. -/
def tcpZeroWindowProbe (pcb : TcpSendPcb) (room : Bool) (header : List (BitVec 8)) :
    List TcpSeg :=
  match pcb.unacked ++ pcb.unsent with
  | [] => []
  | seg :: _ =>
      if ¬ room then []
      else if seg.fin ∧ seg.len = 0 then [⟨seg.seqno, 0, false, true, [⟨[], 0⟩]⟩]
      else
        let copied := ((header ++ PbufChain.bytes seg.p).drop (tcphHdrlen header)).take 1
        [⟨seg.seqno, 1, false, false, [⟨copied, 1⟩]⟩]

def tcpPersistBackoff : List Nat := [3, 6, 12, 24, 48, 96, 120]

/-- What `tcp_slowtmr` does about the data of a connection, unless it gives the connection up. -/
def tcpSlowtmr (pcb : TcpSendPcb) (rto : BitVec 16) (room ackNow : Bool)
    (header : List (BitVec 8)) : Option (TcpSendPcb × List TcpSeg) :=
  if pcb.nrtx = tcpMaxrtx then none
  else if pcb.persistBackoff > 0 then
    let pcb := { pcb with persistCnt := pcb.persistCnt + 1 }
    if tcpPersistBackoff.getD (pcb.persistBackoff.toNat - 1) 0 ≤ pcb.persistCnt.toNat then
      let persistBackoff :=
        if pcb.persistBackoff < 7 then pcb.persistBackoff + 1 else pcb.persistBackoff
      some ({ pcb with persistCnt := 0, persistBackoff }, pcb.tcpZeroWindowProbe room header)
    else some (pcb, [])
  else
    let pcb := if BitVec.sle 0 pcb.rtime then { pcb with rtime := pcb.rtime + 1 } else pcb
    if pcb.unacked ≠ [] ∧ BitVec.sle rto pcb.rtime then
      let effWnd := if pcb.cwnd < pcb.sndWnd then pcb.cwnd else pcb.sndWnd
      let half := effWnd >>> 1
      let ssthresh := if half.toNat < pcb.mss.toNat * 2 then pcb.mss <<< 1 else half
      some (tcpRexmitRto { pcb with rtime := 0, ssthresh, cwnd := pcb.mss } ackNow)
    else some (pcb, [])

/-! ## Acknowledgements -/

/-- The window that the peer announces. -/
def updateWindow (pcb : TcpSendPcb) (seqno ackno : BitVec 32) (wnd : BitVec 16) : TcpSendPcb :=
  if seqLt pcb.sndWl1 seqno ∨ (pcb.sndWl1 = seqno ∧ seqLt pcb.sndWl2 ackno) ∨
      (pcb.sndWl2 = ackno ∧ wnd > pcb.sndWnd) then
    { pcb with
      sndWnd := wnd, sndWl1 := seqno, sndWl2 := ackno,
      persistBackoff := if wnd > 0 ∧ pcb.persistBackoff > 0 then 0 else pcb.persistBackoff }
  else pcb

/-- The acknowledgement says nothing new. -/
def countDupack (pcb : TcpSendPcb) (ackno rightWndEdge : BitVec 32) (tcplen : BitVec 16) :
    TcpSendPcb :=
  let pcb := { pcb with acked := 0 }
  if tcplen = 0 ∧ pcb.sndWl2 + pcb.sndWnd.setWidth 32 = rightWndEdge ∧ BitVec.sle 0 pcb.rtime ∧
      pcb.lastack = ackno then
    let pcb := { pcb with dupacks := pcb.dupacks + 1 }
    if pcb.dupacks > 3 then
      if pcb.cwnd + pcb.mss > pcb.cwnd then { pcb with cwnd := pcb.cwnd + pcb.mss } else pcb
    else if pcb.dupacks = 3 then pcb.tcpRexmitFast
    else pcb
  else { pcb with dupacks := 0 }

/-- Segments that are acknowledged are removed from the front of a queue. The result is the rest of
it, `acked` and `snd_queuelen`. -/
def freeAcked (covered : TcpSeg → Bool) (others : List TcpSeg) :
    BitVec 16 → BitVec 16 → List TcpSeg → Option (List TcpSeg × BitVec 16 × BitVec 16)
  | acked, queuelen, [] => some ([], acked, queuelen)
  | acked, queuelen, next :: rest =>
      if covered next then
        let clen := (pbufClen next.p).setWidth 16
        if queuelen < clen then none
        else
          let acked := if acked ≠ 0 ∧ next.fin then acked - 1 else acked
          let queuelen := queuelen - clen
          if queuelen ≠ 0 ∧ rest = [] ∧ others = [] then none
          else freeAcked covered others acked queuelen rest
      else some (next :: rest, acked, queuelen)

/-- The congestion window after new data has been acknowledged. -/
def growCwnd (pcb : TcpSendPcb) : BitVec 16 :=
  match pcb.state with
  | .closed | .listen | .synSent | .synRcvd => pcb.cwnd
  | _ =>
      let cwnd :=
        if pcb.cwnd < pcb.ssthresh then pcb.cwnd + pcb.mss
        else BitVec.ofNat 16 (pcb.cwnd.toNat + pcb.mss.toNat * pcb.mss.toNat / pcb.cwnd.toNat)
      if cwnd > pcb.cwnd then cwnd else pcb.cwnd

/-- Segments that have been sent are removed, and the timer stops or starts again. -/
def freeUnacked (pcb : TcpSendPcb) (ackno : BitVec 32) : Option TcpSendPcb :=
  (freeAcked (fun seg => seqLeq seg.seqEnd ackno) pcb.unsent pcb.acked pcb.sndQueuelen
    pcb.unacked).map fun (unacked, acked, sndQueuelen) =>
      { pcb with unacked, acked, sndQueuelen, rtime := if unacked = [] then -1 else 0 }

/-- Segments that wait to be sent once more are removed. -/
def freeUnsent (pcb : TcpSendPcb) (ackno : BitVec 32) : Option TcpSendPcb :=
  (freeAcked (fun seg => seqBetween ackno seg.seqEnd pcb.sndNxt) pcb.unacked pcb.acked
    pcb.sndQueuelen pcb.unsent).map fun (unsent, acked, sndQueuelen) =>
      { pcb with unsent, acked, sndQueuelen }

/-- The acknowledgement is for new data. -/
def acceptAck (pcb : TcpSendPcb) (ackno : BitVec 32) : Option TcpSendPcb :=
  let pcb := if pcb.inFr then { pcb with inFr := false, cwnd := pcb.ssthresh } else pcb
  let acked := (ackno - pcb.lastack).setWidth 16
  let pcb := { pcb with
    nrtx := 0, acked, sndBuf := pcb.sndBuf + acked, dupacks := 0, lastack := ackno }
  { pcb with cwnd := pcb.growCwnd }.freeUnacked ackno

/-- What `tcp_receive` does with an acknowledgement. -/
def receiveAck (pcb : TcpSendPcb) (seqno ackno : BitVec 32) (wnd tcplen : BitVec 16) :
    Option TcpSendPcb := do
  let rightWndEdge := pcb.sndWnd.setWidth 32 + pcb.sndWl2
  let pcb := pcb.updateWindow seqno ackno wnd
  let pcb ←
    if seqLeq ackno pcb.lastack then some (pcb.countDupack ackno rightWndEdge tcplen)
    else if seqBetween ackno (pcb.lastack + 1) pcb.sndNxt then pcb.acceptAck ackno
    else some { pcb with acked := 0 }
  pcb.freeUnsent ackno

end TcpSendPcb

/-! ## Connections -/

inductive TcpSendAction where
  | write (arg : List (BitVec 8)) (flags : WriteFlags) (room : WriteRoom)
  | close (room ackNow : Bool)
  | output (ackNow : Bool)
  | ack (seqno ackno : BitVec 32) (wnd tcplen : BitVec 16)
  | slowtmr (rto : BitVec 16) (room ackNow : Bool) (header : List (BitVec 8))
deriving DecidableEq, Repr

/-- A connection, and what its application has written successfully. -/
structure TcpSender where
  pcb : TcpSendPcb
  written : List (BitVec 8)
  shut : Bool
deriving DecidableEq, Repr

namespace TcpSender

def wrote (sender : TcpSender) (arg : List (BitVec 8)) :
    TcpSendPcb × Except SendError Unit → TcpSender
  | (pcb, .ok ()) => { sender with pcb, written := sender.written ++ arg }
  | (pcb, .error _) => { sender with pcb }

def closed (sender : TcpSender) :
    TcpSendPcb × List TcpSeg × Except SendError Unit → TcpSender × List TcpSeg
  | (pcb, sent, .ok ()) => ({ sender with pcb, shut := true }, sent)
  | (pcb, sent, .error _) => ({ sender with pcb }, sent)

end TcpSender

def tcpSendMachine : Machine TcpSender TcpSendAction TcpSeg where
  step sender
    | .write arg flags room => (sender.pcb.tcpWrite arg flags room).map fun result =>
        (sender.wrote arg result, [])
    | .close room ackNow => (sender.pcb.tcpCloseShutdown room ackNow).map sender.closed
    | .output ackNow =>
        let (pcb, sent) := sender.pcb.tcpOutput ackNow
        some ({ sender with pcb }, sent)
    | .ack seqno ackno wnd tcplen => (sender.pcb.receiveAck seqno ackno wnd tcplen).map fun pcb =>
        ({ sender with pcb }, [])
    | .slowtmr rto room ackNow header =>
        (sender.pcb.tcpSlowtmr rto room ackNow header).map fun (pcb, sent) =>
          ({ sender with pcb }, sent)

end RtThread.Lwip
