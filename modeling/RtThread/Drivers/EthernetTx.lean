import RtThread.Std.Machine

/-!
# The transmit ring of the Ethernet MAC

`lpc_low_level_output` queues the segments of a pbuf in the descriptors from
`TxProduceIndex` on. The EMAC sends them and moves `TxConsumeIndex` behind it, and
`lpc_tx_reclaim` follows with `lpc_last_tx_idx` and frees the pbufs that are sent. The
number of descriptors, `LPC_NUM_BUFF_TXDESCS`, is the parameter `count`.

A call of `lpc_low_level_output` is taken apart where it can be interrupted: at its
wait loop, where it reads `TxProduceIndex`, and where it has the mutex. A call of
`lpc_tx_reclaim` reads `TxConsumeIndex` before it has the mutex.
-/

namespace RtThread

open RtThread.Std

def EMAC_TCTRL_LAST : BitVec 32 := 0x40000000#32

def EMAC_TCTRL_INT : BitVec 32 := 0x80000000#32

/-- One element of a chain of pbufs. -/
structure Segment where
  payload : BitVec 32
  len : Nat
deriving DecidableEq, Repr

/-- A pbuf to send, with the elements behind it. -/
structure TxPbuf where
  address : Nat
  head : Segment
  next : List Segment
deriving DecidableEq, Repr

namespace TxPbuf

def chain (p : TxPbuf) : List Segment := p.head :: p.next

/-- `pbuf_clen`, which counts in eight bits. -/
def clen (p : TxPbuf) : BitVec 8 := BitVec.ofNat 8 p.chain.length

end TxPbuf

/-- Whether an address is out of the reach of the EMAC. -/
def lpcPacketAddrNotsafe (addr : BitVec 32) : Bool :=
  !((0x20000000#32 ≤ addr && addr < 0x20008000#32) ||
    (0x80000000#32 ≤ addr && addr < 0xF0000000#32))

/-- How many elements of a chain are out of the reach of the EMAC. -/
def TxPbuf.notdmasafe (p : TxPbuf) : Nat :=
  p.chain.countP fun q => lpcPacketAddrNotsafe q.payload

/-- A transmit descriptor. -/
structure TxDescriptor where
  packet : BitVec 32
  control : BitVec 32
deriving DecidableEq, Repr

/-- The transmit registers of the EMAC and the transmit fields of `lpc_enetdata`. -/
structure TxRing where
  txProduceIndex : Nat
  txConsumeIndex : Nat
  ptxd : Nat → TxDescriptor
  txb : Nat → Option TxPbuf
  lpcLastTxIdx : Nat
  /-- The value of the semaphore. -/
  xTxdCountSem : Nat

/-- What happens to the descriptors and to the pbufs. -/
inductive TxEvent where
  /-- `pbuf_ref`. -/
  | referenced (p : TxPbuf)
  | wrote (slot : Nat) (entry : Option TxPbuf)
  /-- The EMAC has sent what is in a slot. -/
  | consumed (slot : Nat)
  /-- `pbuf_free`. -/
  | freed (p : TxPbuf)
  | reclaimed (slot : Nat) (entry : Option TxPbuf)
deriving DecidableEq, Repr

namespace TxRing

/-- The driver data before it is set up, with the EMAC just reset. -/
def zeroed (semaphore : Nat) : TxRing where
  txProduceIndex := 0
  txConsumeIndex := 0
  ptxd _ := ⟨0, 0⟩
  txb _ := none
  lpcLastTxIdx := 0
  xTxdCountSem := semaphore

def lpcTxSetup (count : Nat) (ring : TxRing) : TxRing :=
  { ring with
    ptxd := fun idx => if idx < count then { ring.ptxd idx with control := 0 } else ring.ptxd idx
    lpcLastTxIdx := 0 }

/-- `lpc_tx_ready`: how many descriptors are free, in words of 32 bits. -/
def lpcTxReady (count : Nat) (ring : TxRing) : BitVec 32 :=
  let cidx := BitVec.ofNat 32 ring.txConsumeIndex
  let idx := BitVec.ofNat 32 ring.txProduceIndex
  let descs := BitVec.ofNat 32 count
  if idx = cidx then descs
  else if cidx > idx then (descs - 1) - ((idx + descs) - cidx)
  else (descs - 1) - (cidx - idx)

/-- Set up the descriptor of one element of the chain. Only the last one has the pbuf
to free. -/
def setupTransfer (ring : TxRing) (p : TxPbuf) (q : Segment) (last : Bool) (idx : Nat) : TxRing :=
  let size := BitVec.ofNat 32 q.len - 1
  let control :=
    if last then size ||| EMAC_TCTRL_INT ||| EMAC_TCTRL_LAST else size ||| EMAC_TCTRL_INT
  { ring with
    ptxd := Function.update ring.ptxd idx ⟨q.payload, control⟩
    txb := Function.update ring.txb idx (if last then some p else none) }

/-- The loop of `lpc_low_level_output` over the elements of the chain that are counted. -/
def setupTransfers (count : Nat) (p : TxPbuf) :
    List Segment → TxRing → Nat → TxRing × Nat × List TxEvent
  | [], ring, idx => (ring, idx, [])
  | q :: rest, ring, idx =>
      let last := rest.isEmpty
      let next := if idx + 1 ≥ count then 0 else idx + 1
      let (final, stop, events) :=
        setupTransfers count p rest (ring.setupTransfer p q last idx) next
      (final, stop, .wrote idx (if last then some p else none) :: events)

/-- `lpc_low_level_output` once it has the mutex. -/
def transmit (count : Nat) (ring : TxRing) (p : TxPbuf) (idx : Nat) : TxRing × List TxEvent :=
  let (final, stop, events) := setupTransfers count p (p.chain.take p.clen.toNat) ring idx
  let referenced := if p.notdmasafe = 0 then [TxEvent.referenced p] else []
  ({ final with txProduceIndex := stop }, referenced ++ events)

/-- One turn of the loop of `lpc_tx_reclaim_st`. -/
def reclaimSlot (count : Nat) (ring : TxRing) : TxRing × List TxEvent :=
  let idx := ring.lpcLastTxIdx
  let entry := ring.txb idx
  ({ ring with
      txb := Function.update ring.txb idx none
      xTxdCountSem := ring.xTxdCountSem + 1
      lpcLastTxIdx := if idx + 1 ≥ count then 0 else idx + 1 },
    (entry.toList.map TxEvent.freed) ++ [.reclaimed idx entry])

/-- `lpc_tx_reclaim_st`, with a bound on the turns of its loop. -/
def lpcTxReclaimSt (count : Nat) (cidx : Nat) : Nat → TxRing → Option (TxRing × List TxEvent)
  | 0, _ => none
  | fuel + 1, ring =>
      if cidx = ring.lpcLastTxIdx then some (ring, [])
      else
        let (next, freed) := ring.reclaimSlot count
        (lpcTxReclaimSt count cidx fuel next).map fun (final, events) => (final, freed ++ events)

/-- The EMAC has sent what is in a descriptor. -/
def progress (count : Nat) (ring : TxRing) : Option (TxRing × List TxEvent) :=
  if ring.txProduceIndex = ring.txConsumeIndex then none
  else some ({ ring with txConsumeIndex := (ring.txConsumeIndex + 1) % count },
    [.consumed ring.txConsumeIndex])

end TxRing

/-- Where a call of `lpc_low_level_output` is. -/
inductive OutputPhase where
  | idle
  /-- In the wait loop. -/
  | waiting (p : TxPbuf)
  /-- Behind the wait loop. -/
  | passed (p : TxPbuf)
  /-- With an index read from `TxProduceIndex`, before the mutex. -/
  | indexed (p : TxPbuf) (idx : Nat)
deriving DecidableEq, Repr

structure TxSystem where
  ring : TxRing
  outputs : Nat → OutputPhase
  /-- The index that a call of `lpc_tx_reclaim` has read. -/
  reclaims : Nat → Option Nat

inductive TxAction where
  | output (thread : Nat) (p : TxPbuf)
  | check (thread : Nat)
  | index (thread : Nat)
  | transmit (thread : Nat)
  | progress
  | consumeIndex (thread : Nat)
  | reclaim (thread : Nat)
deriving DecidableEq, Repr

namespace TxSystem

def start (count semaphore : Nat) : TxSystem where
  ring := (TxRing.zeroed semaphore).lpcTxSetup count
  outputs _ := .idle
  reclaims _ := none

def setOutput (system : TxSystem) (thread : Nat) (phase : OutputPhase) : TxSystem :=
  { system with outputs := Function.update system.outputs thread phase }

/-- One turn of the wait loop. A thread that finds too few descriptors takes the
semaphore, once it is signalled, and looks again. -/
def check (count : Nat) (system : TxSystem) (thread : Nat) : Option TxSystem :=
  match system.outputs thread with
  | .waiting p =>
      if p.clen.setWidth 32 > system.ring.lpcTxReady count then
        if system.ring.xTxdCountSem = 0 then none
        else some { system with
          ring := { system.ring with xTxdCountSem := system.ring.xTxdCountSem - 1 } }
      else some (system.setOutput thread (.passed p))
  | _ => none

def step (count : Nat) (system : TxSystem) : TxAction → Option (TxSystem × List TxEvent)
  | .output thread p =>
      -- The assertion stops a call with an element that is not safe.
      if system.outputs thread = .idle ∧ p.notdmasafe = 0 then
        some (system.setOutput thread (.waiting p), [])
      else none
  | .check thread => (system.check count thread).map (·, [])
  | .index thread =>
      match system.outputs thread with
      | .passed p => some (system.setOutput thread (.indexed p system.ring.txProduceIndex), [])
      | _ => none
  | .transmit thread =>
      match system.outputs thread with
      | .indexed p idx =>
          let (ring, events) := system.ring.transmit count p idx
          some ({ system.setOutput thread .idle with ring := ring }, events)
      | _ => none
  | .progress =>
      (system.ring.progress count).map fun (ring, events) => ({ system with ring := ring }, events)
  | .consumeIndex thread =>
      match system.reclaims thread with
      | none => some ({ system with
          reclaims := Function.update system.reclaims thread (some system.ring.txConsumeIndex) },
          [])
      | some _ => none
  | .reclaim thread =>
      match system.reclaims thread with
      | some cidx =>
          (system.ring.lpcTxReclaimSt count cidx count).map fun (ring, events) =>
            ({ system with
                ring := ring
                reclaims := Function.update system.reclaims thread none }, events)
      | none => none

end TxSystem

/-- The driver's transmit side with any number of callers, and the EMAC. -/
def txMachine (count : Nat) : Machine TxSystem TxAction TxEvent where
  step := TxSystem.step count

end RtThread
