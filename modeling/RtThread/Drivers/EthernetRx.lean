import RtThread.Std.Machine

/-!
# The receive ring of the Ethernet MAC

`lpc_rx_setup` and `lpc_rx_queue` put fresh pbufs into the descriptors up to
`RxConsumeIndex`, the EMAC receives into those from `RxProduceIndex` on, and
`lpc_low_level_input` takes a frame out and queues a pbuf in its place. The number of
descriptors, `LPC_NUM_BUFF_RXDESCS`, is the parameter `count`. The answers of
`pbuf_alloc` come with an action: the pbufs that it has before it fails.
-/

namespace RtThread

open RtThread.Std

def EMAC_RCTRL_INT : BitVec 32 := 0x80000000#32

def EMAC_RINFO_CRC_ERR : BitVec 32 := 0x00800000#32

def EMAC_RINFO_SYM_ERR : BitVec 32 := 0x01000000#32

def EMAC_RINFO_LEN_ERR : BitVec 32 := 0x02000000#32

def EMAC_RINFO_ALIGN_ERR : BitVec 32 := 0x08000000#32

def EMAC_ETH_MAX_FLEN : BitVec 16 := 1536#16

/-- A pbuf to receive into, which has no other behind it. -/
structure RxPbuf where
  address : Nat
  payload : BitVec 32
  len : BitVec 16
  totLen : BitVec 16
deriving DecidableEq, Repr

/-- Where `pbuf_alloc` has found room, for the pbuf and for its payload. -/
structure RxAnswer where
  address : Nat
  payload : BitVec 32
deriving DecidableEq, Repr

/-- `pbuf_alloc(PBUF_RAW, EMAC_ETH_MAX_FLEN, PBUF_RAM)`, where it does not fail. -/
def pbufAlloc (answer : RxAnswer) : RxPbuf where
  address := answer.address
  payload := answer.payload
  len := EMAC_ETH_MAX_FLEN
  totLen := EMAC_ETH_MAX_FLEN

structure RxDescriptor where
  packet : BitVec 32
  control : BitVec 32
deriving DecidableEq, Repr

structure RxStatus where
  statusinfo : BitVec 32
  statushashcrc : BitVec 32
deriving DecidableEq, Repr

/-- The receive registers of the EMAC and the receive fields of `lpc_enetdata`. -/
structure RxRing where
  rxProduceIndex : Nat
  rxConsumeIndex : Nat
  /-- `EMAC_INT_RX_OVERRUN` is set in `IntStatus`. -/
  overrun : Bool
  prxs : Nat → RxStatus
  prxd : Nat → RxDescriptor
  rxb : Nat → Option RxPbuf
  rxFillDescIndex : Nat
  rxFreeDescs : Nat

/-- What the driver does not decide about the EMAC. -/
structure Emac (count : Nat) where
  /-- With these two indices, there is a descriptor to receive into. -/
  available (produce consume : Nat) : Bool
  /-- What a reset makes of `RxProduceIndex` and of `RxConsumeIndex`. -/
  resetProduce : Nat → Nat
  resetConsume : Nat → Nat
  resetConsume_lt : ∀ index < count, resetConsume index < count

namespace RxRing

/-- The driver data before it is set up, with the EMAC just reset. -/
def zeroed : RxRing where
  rxProduceIndex := 0
  rxConsumeIndex := 0
  overrun := false
  prxs _ := ⟨0, 0⟩
  prxd _ := ⟨0, 0⟩
  rxb _ := none
  rxFillDescIndex := 0
  rxFreeDescs := 0

/-- `lpc_rxqueue_pbuf`. -/
def lpcRxqueuePbuf (count : Nat) (ring : RxRing) (p : RxPbuf) : RxRing :=
  let idx := ring.rxFillDescIndex
  let next := if idx + 1 ≥ count then 0 else idx + 1
  { ring with
    prxd := Function.update ring.prxd idx
      ⟨p.payload, EMAC_RCTRL_INT ||| (p.len.setWidth 32 - 1)⟩
    prxs := Function.update ring.prxs idx ⟨0xFFFFFFFF#32, 0xFFFFFFFF#32⟩
    rxb := Function.update ring.rxb idx (some p)
    rxFreeDescs := ring.rxFreeDescs - 1
    rxFillDescIndex := next
    rxConsumeIndex := next }

/-- `lpc_rx_queue`, and how many it has queued. -/
def lpcRxQueue (count : Nat) : List RxAnswer → RxRing → RxRing × Nat
  | [], ring => (ring, 0)
  | answer :: answers, ring =>
      if ring.rxFreeDescs > 0 then
        let (final, queued) :=
          lpcRxQueue count answers (ring.lpcRxqueuePbuf count (pbufAlloc answer))
        (final, queued + 1)
      else (ring, 0)

/-- `lpc_rx_setup`. -/
def lpcRxSetup (count : Nat) (answers : List RxAnswer) (ring : RxRing) : RxRing :=
  (lpcRxQueue count answers { ring with rxFreeDescs := count, rxFillDescIndex := 0 }).1

/-- The reset of the receive side, with all its pbufs freed. -/
def resetRx {count : Nat} (emac : Emac count) (ring : RxRing) : RxRing :=
  { ring with
    rxProduceIndex := emac.resetProduce ring.rxProduceIndex
    rxConsumeIndex := emac.resetConsume ring.rxConsumeIndex
    overrun := false
    rxb := fun idx => if idx < count then none else ring.rxb idx }

/-- `lpc_low_level_input`, and the pbuf it returns. It has no result where it would
dereference `NULL`: in `p->len`, or in `lpc_rxqueue_pbuf`. -/
def lpcLowLevelInput {count : Nat} (emac : Emac count) (answers : List RxAnswer)
    (ring : RxRing) : Option (RxRing × Option RxPbuf) :=
  if ring.overrun then some ((ring.resetRx emac).lpcRxSetup count answers, none)
  else
    let idx := ring.rxConsumeIndex
    if ring.rxProduceIndex = idx then some (ring, none)
    else
      let statusinfo := (ring.prxs idx).statusinfo
      let taken :=
        { ring with
          rxb := Function.update ring.rxb idx none
          rxFreeDescs := ring.rxFreeDescs + 1 }
      match ring.rxb idx with
      | none => none
      | some p =>
          if statusinfo &&& (EMAC_RINFO_CRC_ERR ||| EMAC_RINFO_SYM_ERR ||| EMAC_RINFO_ALIGN_ERR
              ||| EMAC_RINFO_LEN_ERR) ≠ 0 then
            some (taken.lpcRxqueuePbuf count p, none)
          else
            let length := ((statusinfo &&& 0x7FF#32) + 1).setWidth 16
            some ((taken.lpcRxQueue count answers).1,
              some { p with len := length, totLen := length })

/-- The EMAC has received a frame, with this status. -/
def arrive {count : Nat} (emac : Emac count) (status : RxStatus) (ring : RxRing) :
    Option RxRing :=
  if emac.available ring.rxProduceIndex ring.rxConsumeIndex then
    some { ring with
      prxs := Function.update ring.prxs ring.rxProduceIndex status
      rxProduceIndex := (ring.rxProduceIndex + 1) % count }
  else none

/-- The addresses of the pbufs in the ring. -/
def addresses (count : Nat) (ring : RxRing) : List Nat :=
  (List.range count).filterMap fun slot => (ring.rxb slot).map RxPbuf.address

end RxRing

structure RxSystem where
  ring : RxRing
  /-- The pbufs that `lpc_low_level_input` has returned and that are not freed yet. -/
  held : List Nat
  /-- `NULL` has been dereferenced. -/
  faulted : Bool

inductive RxAction where
  | arrive (status : RxStatus)
  | overrun
  /-- A call of `lpc_low_level_input`. -/
  | input (answers : List RxAnswer)
  /-- The network stack frees a pbuf. -/
  | free (address : Nat)
deriving DecidableEq, Repr

/-- `pbuf_alloc` answers with pbufs that are not allocated. -/
def FreshAnswers (answers : List RxAnswer) (allocated : List Nat) : Prop :=
  (answers.map RxAnswer.address).Nodup ∧ ∀ answer ∈ answers, answer.address ∉ allocated

instance (answers : List RxAnswer) (allocated : List Nat) :
    Decidable (FreshAnswers answers allocated) := by
  unfold FreshAnswers
  infer_instance

namespace RxSystem

/-- The system behind the first `lpc_rx_setup`. -/
def start (count : Nat) (answers : List RxAnswer) : RxSystem where
  ring := RxRing.zeroed.lpcRxSetup count answers
  held := []
  faulted := false

/-- The pbufs that are allocated when `lpc_low_level_input` calls `pbuf_alloc`. -/
def allocated (count : Nat) (system : RxSystem) : List Nat :=
  if system.ring.overrun then system.held else system.ring.addresses count ++ system.held

def input {count : Nat} (emac : Emac count) (answers : List RxAnswer) (system : RxSystem) :
    Option RxSystem :=
  if FreshAnswers answers (system.allocated count) then
    match system.ring.lpcLowLevelInput emac answers with
    | some (ring, returned) =>
        some { system with
          ring := ring
          held := (returned.map RxPbuf.address).toList ++ system.held }
    | none => some { system with faulted := true }
  else none

def step {count : Nat} (emac : Emac count) (system : RxSystem) : RxAction → Option RxSystem
  | .arrive status => (system.ring.arrive emac status).map ({ system with ring := · })
  | .overrun => some { system with ring := { system.ring with overrun := true } }
  | .input answers => system.input emac answers
  | .free address =>
      if address ∈ system.held then some { system with held := system.held.erase address }
      else none

end RxSystem

/-- The driver's receive side and the EMAC, up to a dereference of `NULL`. -/
def rxMachine {count : Nat} (emac : Emac count) : Machine RxSystem RxAction Empty where
  step system action :=
    if system.faulted then none else (system.step emac action).map (·, [])

end RtThread
