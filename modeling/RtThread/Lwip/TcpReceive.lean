import RtThread.Lwip.Pbuf
import RtThread.Std.Machine

/-!
# Receiving a TCP stream

The receiving half of `tcp_in.c` for a connection whose state is ESTABLISHED or CLOSE_WAIT: a
segment in sequence goes to the application, with those of the queue `ooseq` that follow it, and one
out of sequence is queued. What a segment acknowledges concerns the sending half only, which is left
out. The answers of the application and of the memory pools come with an action.
-/

namespace RtThread.Lwip

open RtThread.Std

/-! ## Sequence numbers -/

/-- `TCP_SEQ_LT`. -/
def seqLt (a b : BitVec 32) : Bool := (a - b).slt 0#32

/-- `TCP_SEQ_LEQ`. -/
def seqLeq (a b : BitVec 32) : Bool := (a - b).sle 0#32

/-- `TCP_SEQ_GT`. -/
def seqGt (a b : BitVec 32) : Bool := BitVec.slt 0#32 (a - b)

/-- `TCP_SEQ_GEQ`. -/
def seqGeq (a b : BitVec 32) : Bool := BitVec.sle 0#32 (a - b)

/-- `TCP_SEQ_BETWEEN`. -/
def seqBetween (a b c : BitVec 32) : Bool := seqGeq a b && seqLeq a c

/-! ## Segments -/

/-- `struct tcp_seg`, with the two flags of its header that count in sequence space. -/
structure TcpSeg where
  seqno : BitVec 32
  len : BitVec 16
  syn : Bool
  fin : Bool
  p : PbufChain
deriving DecidableEq, Repr

namespace TcpSeg

/-- `TCP_TCPLEN`. -/
def tcplen (seg : TcpSeg) : Nat := seg.len.toNat + if seg.fin || seg.syn then 1 else 0

/-- The global variable `tcplen`. -/
def tcplen16 (seg : TcpSeg) : BitVec 16 := BitVec.ofNat 16 seg.tcplen

/-- `seqno + len`, the number behind the data. -/
def dataEnd (seg : TcpSeg) : BitVec 32 := seg.seqno + seg.len.setWidth 32

/-- `seqno + tcplen`. -/
def tcpEnd (seg : TcpSeg) : BitVec 32 := seg.seqno + seg.tcplen16.setWidth 32

end TcpSeg

/-- The loop over the pbufs whose bytes have all been received before. -/
def hideFront (newTotLen off : BitVec 16) : PbufChain → Option PbufChain
  | [] => none
  | p :: rest =>
      if p.len < off then (hideFront newTotLen (off - p.len) rest).map (⟨[], newTotLen⟩ :: ·)
      else pbufHeaderHide off (p :: rest)

namespace TcpSeg

/-- What has been received before is cut off the front of the segment. -/
def trimFront (inseg : TcpSeg) (rcvNxt : BitVec 32) : Option TcpSeg :=
  let off := rcvNxt - inseg.seqno
  let off16 := off.setWidth 16
  match inseg.p with
  | [] => none
  | p :: rest =>
      if ¬ off.slt 0x7fff ∨ (p.len < off16 ∧ p.totLen < off16) then none
      else
        (hideFront (p.totLen - off16) off16 (p :: rest)).map fun p =>
          { inseg with seqno := rcvNxt, len := inseg.len - off16, p }

/-- `len` and the chain are cut, and the place of the SYN is taken off. -/
def shorten (inseg : TcpSeg) (len : BitVec 16) : Option TcpSeg :=
  let len := if inseg.syn then len - 1 else len
  (pbufRealloc inseg.p len).map fun p => { inseg with len, p }

/-- The segment is cut to the receive window. -/
def fitWindow (inseg : TcpSeg) (rcvNxt : BitVec 32) (rcvWnd : BitVec 16) : Option TcpSeg := do
  if inseg.tcplen16 > rcvWnd then
    let inseg ← { inseg with fin := false }.shorten rcvWnd
    if inseg.tcpEnd = rcvNxt + rcvWnd.setWidth 32 then some inseg else none
  else some inseg

/-- Segments of the queue that end within `inseg` are dropped; a FIN among them goes to `inseg`. -/
def cover : TcpSeg → List TcpSeg → TcpSeg × List TcpSeg
  | inseg, [] => (inseg, [])
  | inseg, next :: rest =>
      if seqGeq inseg.tcpEnd next.dataEnd then
        cover { inseg with fin := inseg.fin || (next.fin && !inseg.syn) } rest
      else (inseg, next :: rest)

/-- `inseg` is cut where the queue begins. -/
def trimToQueue (inseg : TcpSeg) : List TcpSeg → Option TcpSeg
  | [] => some inseg
  | next :: _ =>
      if seqGt inseg.tcpEnd next.seqno then do
        let inseg ← inseg.shorten ((next.seqno - inseg.seqno).setWidth 16)
        if inseg.tcpEnd = next.seqno then some inseg else none
      else some inseg

/-- `inseg` is in sequence, and the queue gives way to it. -/
def adjustOoseq (inseg : TcpSeg) (ooseq : List TcpSeg) : Option (TcpSeg × List TcpSeg) :=
  if inseg.fin then some (inseg, [])
  else
    let (inseg, ooseq) := inseg.cover ooseq
    (inseg.trimToQueue ooseq).map (·, ooseq)

/-- The loop of `tcp_oos_insert_segment`. -/
def coverOoseq : TcpSeg → List TcpSeg → TcpSeg × List TcpSeg
  | cseg, [] => (cseg, [])
  | cseg, next :: rest =>
      if seqGeq cseg.dataEnd next.dataEnd then
        coverOoseq { cseg with fin := cseg.fin || next.fin } rest
      else (cseg, next :: rest)

/-- The data of `seg` is cut where `next` begins. -/
def cutAt (seg : TcpSeg) (next : BitVec 32) : Option TcpSeg :=
  if seqGt seg.dataEnd next then
    let len := (next - seg.seqno).setWidth 16
    (pbufRealloc seg.p len).map fun p => { seg with len, p }
  else some seg

end TcpSeg

def tcpOosInsertSegment (cseg : TcpSeg) (next : List TcpSeg) : Option (List TcpSeg) :=
  if cseg.fin then some [cseg]
  else
    match cseg.coverOoseq next with
    | (cseg, []) => some [cseg]
    | (cseg, next :: rest) => (cseg.cutAt next.seqno).map (· :: next :: rest)

/-! ## Connections -/

inductive TcpState where
  | closed | listen | synSent | synRcvd | established | finWait1 | finWait2 | closeWait | closing
  | lastAck | timeWait
deriving DecidableEq, Repr

/-- The fields of `struct tcp_pcb` that receiving is about. -/
structure TcpPcb where
  state : TcpState
  rcvNxt : BitVec 32
  rcvWnd : BitVec 16
  rcvAnnWnd : BitVec 16
  rcvAnnRightEdge : BitVec 32
  mss : BitVec 16
  ackDelay : Bool
  ackNow : Bool
  ooseq : List TcpSeg
  refusedData : Option PbufChain
deriving DecidableEq, Repr

/-- `TCP_WND`. -/
def tcpWnd : BitVec 16 := 2048

/-- What the application and the memory pools answer during one call. -/
structure TcpAnswers where
  /-- The application takes the data that it has refused before. -/
  takesRefused : Bool
  /-- The application takes the data that is new. -/
  takesNew : Bool
  /-- `tcp_seg_copy` finds a segment. -/
  copies : Bool
  /-- `tcp_send_empty_ack` finds a pbuf. -/
  acks : Bool
deriving DecidableEq, Repr

/-- What `tcp_receive` leaves behind: the connection, `recv_data` and `TF_GOT_FIN`. -/
structure Received where
  pcb : TcpPcb
  recvData : Option PbufChain
  gotFin : Bool
deriving DecidableEq, Repr

namespace TcpPcb

/-- The number behind the receive window. -/
def rightEdge (pcb : TcpPcb) : BitVec 32 := pcb.rcvNxt + pcb.rcvWnd.setWidth 32

/-- `tcp_update_rcv_ann_wnd`, whose result is the growth of the window that is announced. -/
def tcpUpdateRcvAnnWnd (pcb : TcpPcb) : Option (TcpPcb × BitVec 32) :=
  let step := (if tcpWnd / 2 < pcb.mss then tcpWnd / 2 else pcb.mss).setWidth 32
  if seqGeq pcb.rightEdge (pcb.rcvAnnRightEdge + step) then
    some ({ pcb with rcvAnnWnd := pcb.rcvWnd }, pcb.rightEdge - pcb.rcvAnnRightEdge)
  else if seqGt pcb.rcvNxt pcb.rcvAnnRightEdge then some ({ pcb with rcvAnnWnd := 0 }, 0)
  else
    let newRcvAnnWnd := pcb.rcvAnnRightEdge - pcb.rcvNxt
    if newRcvAnnWnd ≤ 0xffff then
      some ({ pcb with rcvAnnWnd := newRcvAnnWnd.setWidth 16 }, 0)
    else none

/-- `tcp_ack`. -/
def tcpAck (pcb : TcpPcb) : TcpPcb :=
  if pcb.ackDelay then { pcb with ackDelay := false, ackNow := true }
  else { pcb with ackDelay := true }

/-- `tcp_ack_now`. -/
def tcpAckNow (pcb : TcpPcb) : TcpPcb := { pcb with ackNow := true }

/-- A segment is sent, whose header `tcp_output_alloc_header` has built. -/
def announce (pcb : TcpPcb) : TcpPcb :=
  { pcb with
    rcvAnnRightEdge := pcb.rcvNxt + pcb.rcvAnnWnd.setWidth 32, ackDelay := false, ackNow := false }

def tcpSendEmptyAck (pcb : TcpPcb) (answers : TcpAnswers) : TcpPcb :=
  if answers.acks then pcb.announce else pcb

/-- `rcv_nxt` and the window move over `count` numbers. -/
def take (pcb : TcpPcb) (seqno : BitVec 32) (count : Nat) : Option TcpPcb :=
  if count ≤ pcb.rcvWnd.toNat then
    let rcvNxt := seqno + BitVec.ofNat 32 count
    let rcvWnd := pcb.rcvWnd - BitVec.ofNat 16 count
    (tcpUpdateRcvAnnWnd { pcb with rcvNxt, rcvWnd }).map Prod.fst
  else none

end TcpPcb

/-- The data of a segment goes behind what is there for the application. -/
def addData (recvData : Option PbufChain) (p : PbufChain) : Option (Option PbufChain) :=
  if p.totLen > 0 then
    match recvData with
    | none => some (some p)
    | some data => (pbufCat data p).map some
  else some recvData

namespace Received

/-- The loop over the segments of the queue that are now in sequence. -/
def drain (received : Received) : List TcpSeg → Option Received
  | [] => some { received with pcb := { received.pcb with ooseq := [] } }
  | cseg :: rest =>
      if cseg.seqno = received.pcb.rcvNxt then do
        let pcb ← received.pcb.take cseg.seqno cseg.tcplen
        let recvData ← addData received.recvData cseg.p
        let state := if cseg.fin ∧ pcb.state = .established then .closeWait else pcb.state
        drain ⟨{ pcb with state }, recvData, received.gotFin || cseg.fin⟩ rest
      else some { received with pcb := { received.pcb with ooseq := cseg :: rest } }

end Received

namespace TcpPcb

/-- The segment is the next one in sequence. -/
def receiveNext (pcb : TcpPcb) (inseg : TcpSeg) : Option Received := do
  let inseg ← inseg.fitWindow pcb.rcvNxt pcb.rcvWnd
  let (inseg, ooseq) ← inseg.adjustOoseq pcb.ooseq
  let pcb ← pcb.take inseg.seqno inseg.tcplen16.toNat
  let recvData ← addData none inseg.p
  let received ← Received.drain ⟨pcb, recvData, inseg.fin⟩ ooseq
  some { received with pcb := received.pcb.tcpAck }

/-- `next` is the last segment of the queue, and `inseg` goes behind it. -/
def appendOoseq (pcb : TcpPcb) (inseg next : TcpSeg) : Option (List TcpSeg) := do
  let next ← next.cutAt inseg.seqno
  if inseg.tcpEnd > pcb.rightEdge then
    let len := (pcb.rightEdge - inseg.seqno).setWidth 16
    let p ← pbufRealloc inseg.p len
    let last : TcpSeg := { inseg with len, fin := false, p }
    if last.tcpEnd = pcb.rightEdge then some [next, last] else none
  else some [next, inseg]

/-- Whether `inseg` belongs between `prev` and `next`. -/
def goesBefore (inseg : TcpSeg) (prev : Option TcpSeg) (next : TcpSeg) : Bool :=
  match prev with
  | none => seqLt inseg.seqno next.seqno
  | some before => seqBetween inseg.seqno (before.seqno + 1) (next.seqno - 1)

/-- `inseg` goes in front of a part of the queue, and cuts the segment in front of it. -/
def insertBetween (inseg : TcpSeg) (queue : List TcpSeg) : Option TcpSeg → Option (List TcpSeg)
  | none => tcpOosInsertSegment inseg queue
  | some before => do
      let before ← before.cutAt inseg.seqno
      (tcpOosInsertSegment inseg queue).map (before :: ·)

/-- The loop that finds the place of `inseg` in the queue. The result begins with `prev`. -/
def placeOoseq (pcb : TcpPcb) (inseg : TcpSeg) (copies : Bool) :
    Option TcpSeg → List TcpSeg → Option (List TcpSeg)
  | prev, [] => some prev.toList
  | prev, next :: rest =>
      if inseg.seqno = next.seqno then
        if inseg.len > next.len ∧ copies then
          (tcpOosInsertSegment inseg (next :: rest)).map (prev.toList ++ ·)
        else some (prev.toList ++ next :: rest)
      else if goesBefore inseg prev next then
        if copies then insertBetween inseg (next :: rest) prev
        else some (prev.toList ++ next :: rest)
      else if rest = [] ∧ seqGt inseg.seqno next.seqno then
        if next.fin ∨ ¬ copies then some (prev.toList ++ next :: rest)
        else (pcb.appendOoseq inseg next).map (prev.toList ++ ·)
      else (pcb.placeOoseq inseg copies (some next) rest).map (prev.toList ++ ·)

/-- The segment is out of sequence. -/
def receiveLater (pcb : TcpPcb) (inseg : TcpSeg) (answers : TcpAnswers) : Option Received := do
  let pcb := pcb.tcpSendEmptyAck answers
  let ooseq ←
    if pcb.ooseq = [] then some (if answers.copies then [inseg] else [])
    else pcb.placeOoseq inseg answers.copies none pcb.ooseq
  some ⟨{ pcb with ooseq }, none, false⟩

/-- What `tcp_receive` does with the data of a segment. -/
def tcpReceive (pcb : TcpPcb) (inseg : TcpSeg) (answers : TcpAnswers) : Option Received := do
  let inWindow (pcb : TcpPcb) (seqno : BitVec 32) : Bool :=
    seqBetween seqno pcb.rcvNxt (pcb.rightEdge - 1)
  if inseg.tcplen16 = 0 then
    some ⟨if inWindow pcb inseg.seqno then pcb else pcb.tcpAckNow, none, false⟩
  else
    let (pcb, inseg) ←
      if seqBetween pcb.rcvNxt (inseg.seqno + 1) (inseg.tcpEnd - 1) then
        (inseg.trimFront pcb.rcvNxt).map (pcb, ·)
      else some (if seqLt inseg.seqno pcb.rcvNxt then pcb.tcpAckNow else pcb, inseg)
    if inWindow pcb inseg.seqno then
      if pcb.rcvNxt = inseg.seqno then pcb.receiveNext inseg
      else pcb.receiveLater inseg answers
    else some ⟨pcb.tcpSendEmptyAck answers, none, false⟩

/-- `tcp_process` in the states ESTABLISHED and CLOSE_WAIT, for a segment without RST. -/
def tcpProcess (pcb : TcpPcb) (inseg : TcpSeg) (answers : TcpAnswers) : Option Received := do
  if inseg.syn then some ⟨pcb.tcpAckNow, none, false⟩
  else
    let received ← pcb.tcpReceive inseg answers
    some (if received.gotFin then
      { received with pcb := { received.pcb.tcpAckNow with state := .closeWait } }
    else received)

end TcpPcb

/-! ## Segments from the network -/

inductive TcpEvent where
  /-- The application has taken some data. -/
  | recv (data : List (BitVec 8))
  /-- `TCP_EVENT_CLOSED`. -/
  | closed
deriving DecidableEq, Repr

namespace TcpPcb

/-- The data that the application has refused is offered once more. -/
def offerRefused (pcb : TcpPcb) (takes : Bool) : TcpPcb × List TcpEvent :=
  match pcb.refusedData with
  | some data =>
      if takes then ({ pcb with refusedData := none }, [.recv data.bytes]) else (pcb, [])
  | none => (pcb, [])

/-- What `tcp_receive` has left goes to the application. -/
def deliver (received : Received) (answers : TcpAnswers) : Option (TcpPcb × List TcpEvent) :=
  let finish (pcb : TcpPcb) : TcpPcb × List TcpEvent :=
    if received.gotFin then
      ({ pcb with rcvWnd := if pcb.rcvWnd ≠ tcpWnd then pcb.rcvWnd + 1 else pcb.rcvWnd },
        [.closed])
    else (pcb, [])
  match received.recvData with
  | none => some (finish received.pcb)
  | some data =>
      if received.pcb.refusedData ≠ none then none
      else if answers.takesNew then
        some ((finish received.pcb).map id ([.recv data.bytes] ++ ·))
      else some (finish { received.pcb with refusedData := some data })

/-- `tcp_input`, from where the connection of the segment is known. -/
def tcpInput (pcb : TcpPcb) (inseg : TcpSeg) (answers : TcpAnswers) :
    Option (TcpPcb × List TcpEvent) := do
  let (pcb, offered) := pcb.offerRefused answers.takesRefused
  if pcb.refusedData ≠ none ∧ inseg.tcplen16 > 0 then some (pcb, offered)
  else
    let received ← pcb.tcpProcess inseg answers
    let (pcb, delivered) ← deliver received answers
    some (pcb, offered ++ delivered)

def tcpRecved (pcb : TcpPcb) (len : BitVec 16) : Option TcpPcb :=
  if len ≤ 0xffff - pcb.rcvWnd then do
    let rcvWnd := pcb.rcvWnd + len
    let rcvWnd := if rcvWnd > tcpWnd then tcpWnd else rcvWnd
    let (pcb, wndInflation) ← tcpUpdateRcvAnnWnd { pcb with rcvWnd }
    some (if BitVec.sle ((tcpWnd / 4).setWidth 32) wndInflation then pcb.tcpAckNow else pcb)
  else none

/-- `tcp_fasttmr`, apart from what `tcp_output` sends. -/
def tcpFasttmr (pcb : TcpPcb) (takes : Bool) : TcpPcb × List TcpEvent :=
  let (pcb, offered) := pcb.offerRefused takes
  (if pcb.ackDelay then { pcb with ackDelay := false, ackNow := false } else pcb, offered)

/-- What `tcp_slowtmr` does about the segments that have overtaken others, once nothing has arrived
for long. -/
def dropOoseq (pcb : TcpPcb) : TcpPcb := { pcb with ooseq := [] }

end TcpPcb

inductive TcpAction where
  | input (inseg : TcpSeg) (answers : TcpAnswers)
  | recved (len : BitVec 16)
  | fasttmr (takes : Bool)
  | dropOoseq
  /-- `tcp_output` sends a segment. -/
  | sent
deriving DecidableEq, Repr

/-- A connection, and what its application has been told. -/
structure TcpSystem where
  pcb : TcpPcb
  taken : List (BitVec 8)
  closed : Bool
deriving DecidableEq, Repr

namespace TcpSystem

def tell (system : TcpSystem) : TcpEvent → TcpSystem
  | .recv data => { system with taken := system.taken ++ data }
  | .closed => { system with closed := true }

def after (system : TcpSystem) (pcb : TcpPcb) (events : List TcpEvent) :
    TcpSystem × List TcpEvent :=
  (events.foldl tell { system with pcb }, events)

end TcpSystem

def tcpMachine : Machine TcpSystem TcpAction TcpEvent where
  step system
    | .input inseg answers => (system.pcb.tcpInput inseg answers).map fun (pcb, events) =>
        system.after pcb events
    | .recved len => (system.pcb.tcpRecved len).map fun pcb => system.after pcb []
    | .fasttmr takes =>
        let (pcb, events) := system.pcb.tcpFasttmr takes
        some (system.after pcb events)
    | .dropOoseq => some (system.after system.pcb.dropOoseq [])
    | .sent => some (system.after system.pcb.announce [])

end RtThread.Lwip
