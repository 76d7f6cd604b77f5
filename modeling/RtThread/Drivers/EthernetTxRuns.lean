import RtThread.Std.History
import RtThread.Std.StagedRing
import RtThread.Drivers.EthernetTx

/-!
# Runs of the transmit ring

As long as every chain fits into the descriptors that `lpc_tx_reclaim` has passed,
each slot that is written has been sent and reclaimed, and every pbuf is freed once,
in its turn, behind the EMAC. `lpc_tx_ready` does not see to it: it does not look at
`lpc_last_tx_idx`, and it subtracts its indices the wrong way round where
`TxConsumeIndex` is the smaller.
-/

namespace RtThread

open RtThread.Std

/-! ## Events -/

namespace TxEvent

@[simp]
def write? : TxEvent → Option (Nat × Option TxPbuf)
  | .wrote slot entry => some (slot, entry)
  | _ => none

@[simp]
def consume? : TxEvent → Option Nat
  | .consumed slot => some slot
  | _ => none

@[simp]
def reclaim? : TxEvent → Option (Nat × Option TxPbuf)
  | .reclaimed slot entry => some (slot, entry)
  | _ => none

@[simp]
def reference? : TxEvent → Option TxPbuf
  | .referenced p => some p
  | _ => none

@[simp]
def free? : TxEvent → Option TxPbuf
  | .freed p => some p
  | _ => none

end TxEvent

/-- What has been written into the slots. -/
def writes (events : List TxEvent) : List (Nat × Option TxPbuf) := events.filterMap TxEvent.write?

/-- The slots that the EMAC has sent. -/
def consumes (events : List TxEvent) : List Nat := events.filterMap TxEvent.consume?

/-- What has been reclaimed from the slots. -/
def reclaims (events : List TxEvent) : List (Nat × Option TxPbuf) :=
  events.filterMap TxEvent.reclaim?

/-- The pbufs that have been queued. -/
def references (events : List TxEvent) : List TxPbuf := events.filterMap TxEvent.reference?

/-- The pbufs that have been freed. -/
def frees (events : List TxEvent) : List TxPbuf := events.filterMap TxEvent.free?

section

variable (events more : List TxEvent) (event : TxEvent)

theorem filterMap_single {α : Type} (project : TxEvent → Option α) :
    [event].filterMap project = (project event).toList := by
  cases nothing : project event <;> simp [nothing]

@[simp]
theorem writes_single : writes [event] = event.write?.toList := filterMap_single ..

@[simp]
theorem consumes_single : consumes [event] = event.consume?.toList := filterMap_single ..

@[simp]
theorem reclaims_single : reclaims [event] = event.reclaim?.toList := filterMap_single ..

@[simp]
theorem references_single : references [event] = event.reference?.toList := filterMap_single ..

@[simp]
theorem frees_single : frees [event] = event.free?.toList := filterMap_single ..

@[simp]
theorem writes_append : writes (events ++ more) = writes events ++ writes more :=
  List.filterMap_append

@[simp]
theorem consumes_append : consumes (events ++ more) = consumes events ++ consumes more :=
  List.filterMap_append

@[simp]
theorem reclaims_append : reclaims (events ++ more) = reclaims events ++ reclaims more :=
  List.filterMap_append

@[simp]
theorem references_append : references (events ++ more) = references events ++ references more :=
  List.filterMap_append

@[simp]
theorem frees_append : frees (events ++ more) = frees events ++ frees more :=
  List.filterMap_append

end

/-- A slot that is written has been sent and reclaimed as often as it has been written. A
pbuf that is freed is the one of the next slot to reclaim, and the EMAC is past it. -/
def InTurn (before : List TxEvent) : TxEvent → Prop
  | .wrote slot _ =>
      (consumes before).count slot = ((writes before).map Prod.fst).count slot ∧
        ((reclaims before).map Prod.fst).count slot = ((writes before).map Prod.fst).count slot
  | .freed p =>
      (∃ slot, (writes before)[(reclaims before).length]? = some (slot, some p)) ∧
        (reclaims before).length < (consumes before).length
  | _ => True

/-- Every event is in its turn, equal indices mean that nothing is pending, and the
pbufs are those of the slots: all that are queued, and of them those that are reclaimed
are freed. -/
structure TxSafe (events : List TxEvent) (ring : TxRing) : Prop where
  inTurn : AtEach InTurn events
  pending : ring.txProduceIndex = ring.txConsumeIndex ↔
    (consumes events).length = (writes events).length
  consumed : consumes events <+: (writes events).map Prod.fst
  reclaimed : reclaims events <+: writes events
  queued : references events = (writes events).filterMap Prod.snd
  freed : frees events = (reclaims events).filterMap Prod.snd
  caughtUp : ring.lpcLastTxIdx = ring.txConsumeIndex ↔
    (reclaims events).length = (consumes events).length

/-! ## The ledger of the slots -/

section

variable {count : Nat} {events : List TxEvent} {ring : TxRing} {back : Nat}

/-- The events account for the slots, up to `back`. -/
structure TxLedger (count : Nat) (events : List TxEvent) (ring : TxRing) (back : Nat) :
    Prop where
  staged : StagedRing count ring.txb ring.lpcLastTxIdx ring.txConsumeIndex back
    ((writes events).map Prod.snd) (consumes events).length (reclaims events).length
  slots : (writes events).map Prod.fst = turns count (writes events).length
  consumed : consumes events = turns count (consumes events).length
  reclaimed : reclaims events = (writes events).take (reclaims events).length
  freed : frees events = (reclaims events).filterMap Prod.snd
  inTurn : AtEach InTurn events

namespace TxLedger

theorem start (positive : 0 < count) (semaphore : Nat) :
    TxLedger count [] (TxSystem.start count semaphore).ring 0 where
  staged := StagedRing.start positive _
  slots := rfl
  consumed := rfl
  reclaimed := rfl
  freed := rfl
  inTurn := .nil

/-- The number of turns written. -/
theorem room (ledger : TxLedger count events ring back) :
    (writes events).length < (reclaims events).length + count := by
  simpa using ledger.staged.room

theorem known (ledger : TxLedger count events ring back) :
    (consumes events).length ≤ (writes events).length := by
  simpa using ledger.staged.known

/-- The slots that have been reclaimed. -/
theorem reclaimed_slots (ledger : TxLedger count events ring back) :
    (reclaims events).map Prod.fst = turns count (reclaims events).length := by
  have behind := ledger.staged.behind
  have known := ledger.known
  have slots := congrArg (List.take (reclaims events).length) ledger.slots
  rwa [take_turns count (by omega), ← List.map_take, ← ledger.reclaimed] at slots

/-- The ledger is not about the index that the EMAC sends up to, nor about the semaphore. -/
theorem congr (ledger : TxLedger count events ring back) (produce semaphore : Nat) :
    TxLedger count events
      { ring with txProduceIndex := produce, xTxdCountSem := semaphore } back where
  staged := ledger.staged
  slots := ledger.slots
  consumed := ledger.consumed
  reclaimed := ledger.reclaimed
  freed := ledger.freed
  inTurn := ledger.inTurn

/-- An event that is not about the slots. -/
theorem referenced (ledger : TxLedger count events ring back) (p : TxPbuf) :
    TxLedger count (events ++ [.referenced p]) ring back := by
  constructor
  · simpa using ledger.staged
  · simpa using ledger.slots
  · simpa using ledger.consumed
  · simpa using ledger.reclaimed
  · simpa using ledger.freed
  · exact ledger.inTurn.snoc trivial

/-- A descriptor is set up. -/
theorem wrote (ledger : TxLedger count events ring back)
    (room : (writes events).length + 1 < (reclaims events).length + count) (p : TxPbuf)
    (q : Segment) (last : Bool) :
    TxLedger count (events ++ [.wrote back (if last then some p else none)])
      (ring.setupTransfer p q last back) ((back + 1) % count) := by
  have known := ledger.known
  have behind := ledger.staged.behind
  have back_eq : back = (writes events).length % count := by
    simpa using ledger.staged.back_eq
  constructor
  · simpa [TxRing.setupTransfer] using
      ledger.staged.write (by simpa using room) (if last then some p else none)
  · simp [ledger.slots, turns_succ, ← back_eq]
  · simpa using ledger.consumed
  · have reclaimed := ledger.reclaimed
    simpa [List.take_append_of_le_length (behind.trans known)] using reclaimed
  · simpa using ledger.freed
  · refine ledger.inTurn.snoc ?_
    have late := ledger.staged.back_clean behind (by simpa using known)
    have all := ledger.staged.back_clean (behind.trans known) (by simp)
    rw [InTurn, ledger.slots, ledger.consumed, ledger.reclaimed_slots]
    exact ⟨late.trans all.symm, all.symm⟩

/-- The EMAC sends what is in a slot. -/
theorem progress {next : TxRing} {emitted : List TxEvent}
    (ledger : TxLedger count events ring ring.txProduceIndex)
    (step : ring.progress count = some (next, emitted)) :
    TxLedger count (events ++ emitted) next next.txProduceIndex := by
  obtain ⟨pending, made⟩ := Option.ite_none_left_eq_some.mp step
  obtain ⟨rfl, rfl⟩ := Prod.mk.inj (Option.some_inj.mp made)
  have middle := ledger.staged.middle_eq
  have finish := ledger.staged.finish pending
  constructor
  · simpa using finish
  · simpa using ledger.slots
  · simp [turns_succ, ← middle, ← ledger.consumed]
  · simpa using ledger.reclaimed
  · simpa using ledger.freed
  · exact ledger.inTurn.snoc trivial

theorem reclaimSlot_events (count : Nat) (ring : TxRing) :
    writes (ring.reclaimSlot count).2 = [] ∧ consumes (ring.reclaimSlot count).2 = [] ∧
      reclaims (ring.reclaimSlot count).2 = [(ring.lpcLastTxIdx, ring.txb ring.lpcLastTxIdx)] ∧
      frees (ring.reclaimSlot count).2 = (ring.txb ring.lpcLastTxIdx).toList := by
  simp only [TxRing.reclaimSlot]
  cases ring.txb ring.lpcLastTxIdx <;> exact ⟨rfl, rfl, rfl, rfl⟩

/-- A slot is reclaimed. -/
theorem reclaimSlot (ledger : TxLedger count events ring back)
    (pending : ring.txConsumeIndex ≠ ring.lpcLastTxIdx) :
    TxLedger count (events ++ (ring.reclaimSlot count).2) (ring.reclaimSlot count).1 back := by
  have front := ledger.staged.front_eq
  have positive := ledger.staged.positive
  have inside : ring.lpcLastTxIdx < count := by
    rw [front]
    exact Nat.mod_lt _ positive
  obtain ⟨entry, staged⟩ := ledger.staged.takeBack pending none
  have behind : (reclaims events).length < (consumes events).length := staged.behind
  have known := ledger.known
  -- The entry that is reclaimed is what was written in this turn.
  have slots := ledger.slots
  have bound : (reclaims events).length < (writes events).length := by omega
  have written : (writes events)[(reclaims events).length]? =
      some (ring.lpcLastTxIdx, ring.txb ring.lpcLastTxIdx) := by
    rw [List.getElem?_map, List.getElem?_eq_getElem bound, Option.map_some,
      Option.some_inj] at entry
    have slot := congrArg (fun list => list[(reclaims events).length]?) slots
    simp only [turns, List.getElem?_map, List.getElem?_range bound,
      List.getElem?_eq_getElem bound, Option.map_some, Option.some_inj] at slot
    rw [List.getElem?_eq_getElem bound, Option.some_inj, front]
    exact Prod.ext slot (by rw [entry, front])
  have reclaimed : reclaims events ++ [(ring.lpcLastTxIdx, ring.txb ring.lpcLastTxIdx)] =
      (writes events).take ((reclaims events).length + 1) := by
    rw [List.take_add_one, written, ← ledger.reclaimed]
    rfl
  obtain ⟨noWrite, noConsume, oneReclaim, free⟩ := reclaimSlot_events count ring
  constructor
  · rw [← next_index inside] at staged
    rw [writes_append, consumes_append, reclaims_append, noWrite, noConsume, oneReclaim]
    simpa [TxRing.reclaimSlot] using staged
  · simpa [noWrite] using slots
  · simpa [noConsume] using ledger.consumed
  · simpa [noWrite, oneReclaim] using reclaimed
  · rw [frees_append, reclaims_append, free, oneReclaim, List.filterMap_append, ledger.freed]
    cases ring.txb ring.lpcLastTxIdx <;> rfl
  · simp only [TxRing.reclaimSlot]
    cases held : ring.txb ring.lpcLastTxIdx with
    | none =>
        have last : AtEach InTurn (events ++ [.reclaimed ring.lpcLastTxIdx none]) :=
          ledger.inTurn.snoc trivial
        exact last
    | some p =>
        rw [held] at written
        have freed : AtEach InTurn (events ++ [.freed p]) :=
          ledger.inTurn.snoc ⟨⟨_, written⟩, behind⟩
        have last : AtEach InTurn
            (events ++ [.freed p] ++ [.reclaimed ring.lpcLastTxIdx (some p)]) :=
          freed.snoc trivial
        simpa using last

/-- The elements of a chain go into the next descriptors. -/
theorem setupTransfers (p : TxPbuf) (segments : List Segment)
    (ledger : TxLedger count events ring back)
    (room : (writes events).length + segments.length < (reclaims events).length + count) :
    TxLedger count (events ++ (ring.setupTransfers count p segments back).2.2)
      (ring.setupTransfers count p segments back).1
      (ring.setupTransfers count p segments back).2.1 := by
  induction segments generalizing events ring back with
  | nil => simpa [TxRing.setupTransfers] using ledger
  | cons q rest ih =>
      rw [List.length_cons] at room
      have positive := ledger.staged.positive
      have inside : back < count := by
        rw [ledger.staged.back_eq]
        exact Nat.mod_lt _ positive
      have first := ledger.wrote (by omega) p q rest.isEmpty
      rw [← next_index inside] at first
      have others := ih first (by
        simp only [writes_append, writes_single, TxEvent.write?, Option.toList_some,
          List.length_append, List.length_singleton, reclaims_append, reclaims_single,
          TxEvent.reclaim?, Option.toList_none, List.append_nil]
        omega)
      rwa [List.append_assoc] at others

/-- Before the loop of `lpc_tx_reclaim_st` is where it stops, there is a slot to reclaim. -/
theorem more {target : Nat} (ledger : TxLedger count events ring back)
    (late : (reclaims events).length ≤ target) (passed : target ≤ (consumes events).length)
    (differ : target % count ≠ ring.lpcLastTxIdx) :
    (reclaims events).length < target ∧ ring.txConsumeIndex ≠ ring.lpcLastTxIdx := by
  have front := ledger.staged.front_eq
  have ahead : (reclaims events).length ≠ target := by
    rintro rfl
    exact differ front.symm
  refine ⟨by omega, ?_⟩
  intro same
  have caught := ledger.staged.returned_iff.mp same
  omega

/-- The slots up to an index that the EMAC has passed are reclaimed. -/
theorem lpcTxReclaimSt {fuel target : Nat} {next : TxRing} {emitted : List TxEvent}
    (ledger : TxLedger count events ring back) (late : (reclaims events).length ≤ target)
    (passed : target ≤ (consumes events).length)
    (step : ring.lpcTxReclaimSt count (target % count) fuel = some (next, emitted)) :
    TxLedger count (events ++ emitted) next back ∧ writes emitted = [] ∧
      references emitted = [] ∧ next.txProduceIndex = ring.txProduceIndex := by
  induction fuel generalizing events ring emitted with
  | zero => cases step
  | succ fuel ih =>
      rw [TxRing.lpcTxReclaimSt] at step
      split at step
      · obtain ⟨rfl, rfl⟩ := Prod.mk.inj (Option.some_inj.mp step)
        exact ⟨by simpa using ledger, rfl, rfl, rfl⟩
      · rename_i more
        obtain ⟨⟨final, others⟩, rest, made⟩ := Option.map_eq_some_iff.mp step
        obtain ⟨rfl, rfl⟩ := Prod.mk.inj made
        obtain ⟨ahead, pending⟩ := ledger.more late passed more
        obtain ⟨noWrite, noConsume, oneReclaim, -⟩ := reclaimSlot_events count ring
        obtain ⟨ledger', noWrites, noReferences, produce⟩ :=
          ih (ledger.reclaimSlot pending)
            (by rw [reclaims_append, oneReclaim, List.length_append, List.length_singleton]; omega)
            (by rw [consumes_append, noConsume, List.append_nil]; exact passed) rest
        have noReference : references (ring.reclaimSlot count).2 = [] := by
          simp only [TxRing.reclaimSlot]
          cases ring.txb ring.lpcLastTxIdx <;> rfl
        refine ⟨by rwa [List.append_assoc] at ledger', ?_, ?_, produce⟩
        · show writes ((ring.reclaimSlot count).2 ++ others) = []
          rw [writes_append, noWrite, noWrites, List.nil_append]
        · show references ((ring.reclaimSlot count).2 ++ others) = []
          rw [references_append, noReference, noReferences, List.nil_append]

/-- The loop of `lpc_tx_reclaim_st` ends. -/
theorem lpcTxReclaimSt_returns {fuel target : Nat} (ledger : TxLedger count events ring back)
    (late : (reclaims events).length ≤ target) (passed : target ≤ (consumes events).length)
    (enough : target < (reclaims events).length + fuel) :
    (ring.lpcTxReclaimSt count (target % count) fuel).isSome := by
  induction fuel generalizing events ring with
  | zero => omega
  | succ fuel ih =>
      rw [TxRing.lpcTxReclaimSt]
      split
      · rfl
      · rename_i more
        obtain ⟨ahead, pending⟩ := ledger.more late passed more
        obtain ⟨-, noConsume, oneReclaim, -⟩ := reclaimSlot_events count ring
        rw [Option.isSome_map]
        refine ih (ledger.reclaimSlot pending) ?_ ?_ ?_
        · rw [reclaims_append, oneReclaim, List.length_append, List.length_singleton]
          omega
        · rwa [consumes_append, noConsume, List.append_nil]
        · rw [reclaims_append, oneReclaim, List.length_append, List.length_singleton]
          omega

/-- What the ledger says of the events and the indices. -/
theorem safe (ledger : TxLedger count events ring ring.txProduceIndex)
    (queued : references events = (writes events).filterMap Prod.snd) : TxSafe events ring where
  inTurn := ledger.inTurn
  pending := by simpa using ledger.staged.finished_iff
  consumed := by
    rw [ledger.slots, ledger.consumed, ← take_turns count ledger.known]
    exact List.take_prefix _ _
  reclaimed := by
    rw [ledger.reclaimed]
    exact List.take_prefix _ _
  queued := queued
  freed := ledger.freed
  caughtUp := by rw [← ledger.staged.returned_iff, eq_comm]

end TxLedger

end

/-- The entries of a chain are those of its elements, and only the last has the pbuf. -/
theorem setupTransfers_events (count : Nat) (p : TxPbuf) (segments : List Segment)
    (ring : TxRing) (idx : Nat) :
    references (ring.setupTransfers count p segments idx).2.2 = [] ∧
      (writes (ring.setupTransfers count p segments idx).2.2).filterMap Prod.snd =
        if segments = [] then [] else [p] := by
  induction segments generalizing ring idx with
  | nil => exact ⟨rfl, rfl⟩
  | cons q rest ih =>
      obtain ⟨noReference, entries⟩ :=
        ih (ring.setupTransfer p q rest.isEmpty idx) (if idx + 1 ≥ count then 0 else idx + 1)
      refine ⟨noReference, ?_⟩
      cases rest with
      | nil => rfl
      | cons next rest => exact entries

/-! ## Runs -/

/-- A call that gets the mutex finds `TxProduceIndex` where it has read it, and its chain
fits into the slots that are reclaimed; a call of `lpc_tx_reclaim` finds that no other
has passed the index it has read. -/
def TxSystem.Fits (count : Nat) (system : TxSystem) : TxAction → Prop
  | .transmit thread =>
      match system.outputs thread with
      | .indexed p idx =>
          idx = system.ring.txProduceIndex ∧ p.chain.length < 256 ∧
            distance count system.ring.lpcLastTxIdx idx + p.chain.length < count
      | _ => True
  | .reclaim thread =>
      match system.reclaims thread with
      | some cidx =>
          distance count system.ring.lpcLastTxIdx cidx ≤
            distance count system.ring.lpcLastTxIdx system.ring.txConsumeIndex
      | none => True
  | _ => True

section

variable {count : Nat} {ring : TxRing}

/-- `lpc_tx_ready` is right where `TxConsumeIndex` is ahead, and adds the pending
descriptors to the free ones where it is behind. -/
theorem lpcTxReady_toNat (small : count < 2 ^ 31) (produce : ring.txProduceIndex < count)
    (consume : ring.txConsumeIndex < count) :
    (ring.lpcTxReady count).toNat =
      if ring.txProduceIndex = ring.txConsumeIndex then count
      else if ring.txProduceIndex < ring.txConsumeIndex then
        (count - 1) - (ring.txProduceIndex + count - ring.txConsumeIndex)
      else (count - 1) + (ring.txProduceIndex - ring.txConsumeIndex) := by
  have word : ∀ {index : Nat}, index ≤ count → (BitVec.ofNat 32 index).toNat = index := by
    intro index inside
    rw [BitVec.toNat_ofNat, Nat.mod_eq_of_lt (by omega)]
  have descs := word le_rfl
  have idx := word produce.le
  have cidx := word consume.le
  have one : (1 : BitVec 32).toNat = 1 := rfl
  simp only [TxRing.lpcTxReady, ← BitVec.toNat_inj, gt_iff_lt, BitVec.lt_def, idx, cidx]
  split
  · exact descs
  · split
    · simp only [BitVec.toNat_sub, BitVec.toNat_add, descs, idx, cidx, one]
      omega
    · simp only [BitVec.toNat_sub, descs, idx, cidx, one]
      omega

/-- Where `TxConsumeIndex` is not behind and all that is sent is reclaimed, a chain that
`lpc_tx_ready` lets pass fits. -/
theorem fits_of_ready {segments : Nat} (small : count < 2 ^ 31)
    (consume : ring.txConsumeIndex < count) (ahead : ring.txProduceIndex ≤ ring.txConsumeIndex)
    (reclaimed : ring.lpcLastTxIdx = ring.txConsumeIndex) (short : segments ≤ count - 1)
    (free : segments ≤ (ring.lpcTxReady count).toNat) :
    distance count ring.lpcLastTxIdx ring.txProduceIndex + segments < count := by
  rw [lpcTxReady_toNat small (by omega) consume] at free
  rw [reclaimed, distance]
  rcases ahead.lt_or_eq with less | same
  · rw [if_neg less.ne, if_pos less] at free
    rw [Nat.mod_eq_of_lt (by omega)]
    omega
  · rw [same, Nat.add_sub_cancel_left, Nat.mod_self]
    omega

end

/-- The chain of a call. -/
def OutputPhase.pbuf : OutputPhase → Option TxPbuf
  | .idle => none
  | .waiting p | .passed p | .indexed p _ => some p

/-- The ledger and the queued pbufs are right, and the callers have safe chains and indices
of the ring. -/
structure TxInv (count : Nat) (events : List TxEvent) (system : TxSystem) : Prop where
  ledger : TxLedger count events system.ring system.ring.txProduceIndex
  queued : references events = (writes events).filterMap Prod.snd
  dmasafe : ∀ thread p, (system.outputs thread).pbuf = some p → p.notdmasafe = 0
  inside : ∀ thread cidx, system.reclaims thread = some cidx → cidx < count

namespace TxInv

variable {count : Nat} {events emitted : List TxEvent} {system next : TxSystem}

theorem start (positive : 0 < count) (semaphore : Nat) :
    TxInv count [] (TxSystem.start count semaphore) where
  ledger := .start positive semaphore
  queued := rfl
  dmasafe _ _ held := nomatch held
  inside _ _ held := nomatch held

/-- A caller goes on with the chain it has, or with none. -/
theorem setOutput (inv : TxInv count events system) (thread : Nat) {phase : OutputPhase}
    (safe : ∀ p, phase.pbuf = some p → p.notdmasafe = 0) :
    TxInv count events (system.setOutput thread phase) where
  ledger := inv.ledger
  queued := inv.queued
  dmasafe other p held := by
    simp only [TxSystem.setOutput] at held
    rcases eq_or_ne other thread with rfl | apart
    · rw [Function.update_self] at held
      exact safe p held
    · rw [Function.update_of_ne apart] at held
      exact inv.dmasafe other p held
  inside := inv.inside

theorem check (inv : TxInv count events system) {thread : Nat}
    (step : system.check count thread = some next) : TxInv count events next := by
  unfold TxSystem.check at step
  split at step
  · rename_i p phase
    split at step
    · obtain ⟨-, signalled⟩ := Option.ite_none_left_eq_some.mp step
      obtain rfl := Option.some_inj.mp signalled
      exact ⟨inv.ledger.congr _ _, inv.queued, inv.dmasafe, inv.inside⟩
    · obtain rfl := Option.some_inj.mp step
      refine inv.setOutput thread ?_
      intro q held
      obtain rfl := Option.some_inj.mp held
      exact inv.dmasafe thread p (by rw [phase]; rfl)
  · cases step

/-- A chain that fits is queued. -/
theorem transmit (inv : TxInv count events system) {thread : Nat} {p : TxPbuf} {idx : Nat}
    (phase : system.outputs thread = .indexed p idx)
    (fits : system.Fits count (.transmit thread)) :
    TxInv count (events ++ (system.ring.transmit count p idx).2)
      { system.setOutput thread .idle with ring := (system.ring.transmit count p idx).1 } := by
  simp only [TxSystem.Fits, phase] at fits
  obtain ⟨rfl, short, room⟩ := fits
  have known := inv.ledger.staged.behind.trans inv.ledger.known
  rw [inv.ledger.staged.distance_back, List.length_map] at room
  have whole : p.chain.take p.clen.toNat = p.chain := by
    rw [TxPbuf.clen, BitVec.toNat_ofNat, Nat.mod_eq_of_lt short, List.take_length]
  have safe := inv.dmasafe thread p (by rw [phase]; rfl)
  have emits : (system.ring.transmit count p system.ring.txProduceIndex).2 = .referenced p ::
      (system.ring.setupTransfers count p p.chain system.ring.txProduceIndex).2.2 := by
    simp [TxRing.transmit, whole, safe]
  have result : (system.ring.transmit count p system.ring.txProduceIndex).1 =
      { (system.ring.setupTransfers count p p.chain system.ring.txProduceIndex).1 with
        txProduceIndex :=
          (system.ring.setupTransfers count p p.chain system.ring.txProduceIndex).2.1 } := by
    simp [TxRing.transmit, whole]
  have ledger := (inv.ledger.referenced p).setupTransfers p p.chain (by simpa using by omega)
  obtain ⟨noReference, entries⟩ :=
    setupTransfers_events count p p.chain system.ring system.ring.txProduceIndex
  have nothing : ∀ q, OutputPhase.idle.pbuf = some q → q.notdmasafe = 0 :=
    fun _ held => nomatch held
  have idle := inv.setOutput thread nothing
  rw [emits, result]
  refine ⟨?_, ?_, idle.dmasafe, idle.inside⟩
  · rw [List.append_cons]
    exact ledger.congr _ _
  · rw [List.append_cons, references_append, references_append, references_single, noReference,
      writes_append, writes_append, writes_single, List.filterMap_append, List.filterMap_append,
      entries, inv.queued]
    simp [TxPbuf.chain]

/-- A call of `lpc_tx_reclaim` reads the index of the EMAC. -/
theorem consumeIndex (inv : TxInv count events system) (thread : Nat) :
    TxInv count events { system with
      reclaims := Function.update system.reclaims thread (some system.ring.txConsumeIndex) } where
  ledger := inv.ledger
  queued := inv.queued
  dmasafe := inv.dmasafe
  inside other cidx read := by
    rcases eq_or_ne other thread with rfl | apart
    · simp only [Function.update_self, Option.some.injEq] at read
      rw [← read, inv.ledger.staged.middle_eq]
      exact Nat.mod_lt _ inv.ledger.staged.positive
    · simp only [Function.update_of_ne apart] at read
      exact inv.inside other cidx read

/-- The turn that an index which is not passed stands for. -/
theorem target (inv : TxInv count events system) {thread cidx : Nat}
    (read : system.reclaims thread = some cidx) (fits : system.Fits count (.reclaim thread)) :
    ∃ target, cidx = target % count ∧ (reclaims events).length ≤ target ∧
      target ≤ (consumes events).length ∧ target < (reclaims events).length + count := by
  simp only [TxSystem.Fits, read] at fits
  have staged := inv.ledger.staged
  have behind := staged.behind
  rw [staged.distance_middle] at fits
  have inside := inv.inside thread cidx read
  have front : system.ring.lpcLastTxIdx < count := by
    rw [staged.front_eq]
    exact Nat.mod_lt _ staged.positive
  refine ⟨(reclaims events).length + distance count system.ring.lpcLastTxIdx cidx, ?_, by omega,
    by omega, ?_⟩
  · rw [← Nat.mod_add_mod, ← staged.front_eq, add_distance front inside]
  · have short : distance count system.ring.lpcLastTxIdx cidx < count :=
      Nat.mod_lt _ staged.positive
    omega

theorem reclaim (inv : TxInv count events system) {thread cidx : Nat} {ring : TxRing}
    (read : system.reclaims thread = some cidx) (fits : system.Fits count (.reclaim thread))
    (step : system.ring.lpcTxReclaimSt count cidx count = some (ring, emitted)) :
    TxInv count (events ++ emitted) { system with
      ring := ring
      reclaims := Function.update system.reclaims thread none } := by
  obtain ⟨target, rfl, late, passed, -⟩ := inv.target read fits
  obtain ⟨ledger, noWrites, noReferences, produce⟩ :=
    inv.ledger.lpcTxReclaimSt late passed step
  refine ⟨?_, ?_, inv.dmasafe, ?_⟩
  · rwa [← produce] at ledger
  · rw [references_append, noReferences, writes_append, noWrites, List.append_nil,
      List.append_nil, inv.queued]
  · intro other cidx read
    rcases eq_or_ne other thread with rfl | apart
    · simp at read
    · simp only [Function.update_of_ne apart] at read
      exact inv.inside other cidx read

/-- A call of `lpc_tx_reclaim` ends. -/
theorem reclaim_returns (inv : TxInv count events system) {thread cidx : Nat}
    (read : system.reclaims thread = some cidx) (fits : system.Fits count (.reclaim thread)) :
    ((txMachine count).step system (.reclaim thread)).isSome := by
  obtain ⟨target, rfl, late, passed, near⟩ := inv.target read fits
  have returns := inv.ledger.lpcTxReclaimSt_returns late passed near
  simp only [txMachine, TxSystem.step, read, Option.isSome_map, returns]

theorem progress (inv : TxInv count events system) {ring : TxRing}
    (step : system.ring.progress count = some (ring, emitted)) :
    TxInv count (events ++ emitted) { system with ring := ring } := by
  refine ⟨inv.ledger.progress step, ?_, inv.dmasafe, inv.inside⟩
  obtain ⟨-, made⟩ := Option.ite_none_left_eq_some.mp step
  obtain ⟨-, rfl⟩ := Prod.mk.inj (Option.some_inj.mp made)
  simpa using inv.queued

/-- Every step whose chain fits keeps the invariant. -/
theorem step (inv : TxInv count events system) {action : TxAction}
    (fits : system.Fits count action)
    (step : (txMachine count).step system action = some (next, emitted)) :
    TxInv count (events ++ emitted) next := by
  cases action with
  | output thread p =>
      obtain ⟨⟨-, safe⟩, made⟩ := Option.ite_none_right_eq_some.mp step
      obtain ⟨rfl, rfl⟩ := Prod.mk.inj (Option.some_inj.mp made)
      rw [List.append_nil]
      refine inv.setOutput thread ?_
      intro q held
      obtain rfl := Option.some_inj.mp held
      exact safe
  | check thread =>
      obtain ⟨final, checked, made⟩ := Option.map_eq_some_iff.mp step
      obtain ⟨rfl, rfl⟩ := Prod.mk.inj made
      rw [List.append_nil]
      exact inv.check checked
  | index thread =>
      simp only [txMachine, TxSystem.step] at step
      split at step
      · rename_i p phase
        obtain ⟨rfl, rfl⟩ := Prod.mk.inj (Option.some_inj.mp step)
        rw [List.append_nil]
        refine inv.setOutput thread ?_
        intro q held
        obtain rfl := Option.some_inj.mp held
        exact inv.dmasafe thread p (by rw [phase]; rfl)
      · cases step
  | transmit thread =>
      simp only [txMachine, TxSystem.step] at step
      split at step
      · rename_i p idx phase
        obtain ⟨rfl, rfl⟩ := Prod.mk.inj (Option.some_inj.mp step)
        exact inv.transmit phase fits
      · cases step
  | progress =>
      obtain ⟨⟨ring, shown⟩, progressed, made⟩ := Option.map_eq_some_iff.mp step
      obtain ⟨rfl, rfl⟩ := Prod.mk.inj made
      exact inv.progress progressed
  | consumeIndex thread =>
      simp only [txMachine, TxSystem.step] at step
      split at step
      · obtain ⟨rfl, rfl⟩ := Prod.mk.inj (Option.some_inj.mp step)
        rw [List.append_nil]
        exact inv.consumeIndex thread
      · cases step
  | reclaim thread =>
      simp only [txMachine, TxSystem.step] at step
      split at step
      · rename_i cidx read
        obtain ⟨⟨ring, shown⟩, reclaimed, made⟩ := Option.map_eq_some_iff.mp step
        obtain ⟨rfl, rfl⟩ := Prod.mk.inj made
        exact inv.reclaim read fits reclaimed
      · cases step

end TxInv

/-- In every run whose chains fit, the transmit ring is safe. -/
theorem transmit_safe {count : Nat} (positive : 0 < count) (semaphore : Nat)
    {actions : List TxAction} {events : List TxEvent} {system : TxSystem}
    (run : (txMachine count).Run (TxSystem.Fits count) (TxSystem.start count semaphore) actions
      events system) : TxSafe events system.ring := by
  have inv : TxInv count events system :=
    run.history (.start positive semaphore) fun _ _ _ _ _ inv fits step => inv.step fits step
  exact inv.ledger.safe inv.queued

/-- A chain of elements that the EMAC reaches. -/
def txPbuf (address : Nat) (next : List Segment) : TxPbuf :=
  ⟨address, ⟨0x20000000#32, 60⟩, next⟩

/-- A call of `lpc_low_level_output` that is not interrupted. -/
def outputCall (p : TxPbuf) : List TxAction := [.output 0 p, .check 0, .index 0, .transmit 0]

instance (count : Nat) (system : TxSystem) (action : TxAction) :
    Decidable (system.Fits count action) := by
  unfold TxSystem.Fits
  split
  · split <;> infer_instance
  · split <;> infer_instance
  · infer_instance

/-- Two frames go out and are reclaimed, and a third one takes their slots. -/
theorem transmit_safe_reused :
    ∃ events system,
      (txMachine 3).Run (TxSystem.Fits 3) (TxSystem.start 3 0)
        (outputCall (txPbuf 1 []) ++ outputCall (txPbuf 2 []) ++
          [.progress, .progress, .consumeIndex 1, .reclaim 1] ++
          outputCall (txPbuf 3 [⟨0x20000040#32, 60⟩])) events system ∧
        frees events = [txPbuf 1 [], txPbuf 2 []] ∧ TxSafe events system.ring := by
  have result : ∃ events system, ((txMachine 3).restrict (TxSystem.Fits 3)).execute
      (TxSystem.start 3 0) (outputCall (txPbuf 1 []) ++ outputCall (txPbuf 2 []) ++
        [.progress, .progress, .consumeIndex 1, .reclaim 1] ++
        outputCall (txPbuf 3 [⟨0x20000040#32, 60⟩])) = some (system, events) ∧
      frees events = [txPbuf 1 [], txPbuf 2 []] := by
    refine ⟨_, _, rfl, ?_⟩
    decide
  obtain ⟨events, system, executed, freed⟩ := result
  have run := Machine.run_of_execute_restrict executed
  exact ⟨events, system, run, freed, transmit_safe (by decide) 0 run⟩

/-- A chain leaves one descriptor free. -/
def TxAction.Short (count : Nat) : TxAction → Prop
  | .output _ p => p.chain.length ≤ count - 1
  | _ => True

/-- A chain of two elements goes into a ring of three slots behind one that is not sent. -/
theorem transmit_overwrites :
    ¬ ∀ (actions : List TxAction) (events : List TxEvent) (system : TxSystem),
      (txMachine 3).Run (fun _ action => action.Short 3) (TxSystem.start 3 0) actions events
        system → TxSafe events system.ring := by
  intro claim
  have result : ∃ events system, (txMachine 3).execute (TxSystem.start 3 0)
      (outputCall (txPbuf 1 []) ++ outputCall (txPbuf 2 [⟨0x20000040#32, 60⟩])) =
        some (system, events) ∧ system.ring.txProduceIndex = system.ring.txConsumeIndex ∧
      (consumes events).length ≠ (writes events).length := by
    refine ⟨_, _, rfl, ?_⟩
    decide
  obtain ⟨events, system, executed, same, pending⟩ := result
  have run : (txMachine 3).Run (fun _ action => action.Short 3) (TxSystem.start 3 0) _ events
      system := Machine.run_of_execute (by simp [outputCall, TxAction.Short, TxPbuf.chain, txPbuf])
    executed
  exact pending ((claim _ events system run).pending.mp same)

end RtThread
