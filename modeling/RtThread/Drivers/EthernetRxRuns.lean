import RtThread.Std.RingBuffer
import RtThread.Drivers.EthernetRx

/-!
# Runs of the receive ring

A failed `pbuf_alloc` leaves `RxConsumeIndex` at the slot it has emptied, and the next
`lpc_low_level_input` takes the difference of the indices for another frame in that
slot. Exactly the runs in which no such call is made never dereference `NULL`.
-/

namespace RtThread

open RtThread.Std

/-- Nothing has been dereferenced that is `NULL`, `rx_free_descs` counts the empty slots,
and no pbuf is returned that the network stack has already. -/
structure RxSafe (count : Nat) (system : RxSystem) : Prop where
  noFault : system.faulted = false
  free : system.ring.rxFreeDescs =
    (List.range count).countP fun slot => (system.ring.rxb slot).isNone
  once : system.held.Nodup
  apart : ∀ slot < count, ∀ p, system.ring.rxb slot = some p → p.address ∉ system.held

/-- `lpc_low_level_input` is not called with a frame to take and a slot to fill, unless it
resets the ring. -/
def RxSystem.Refilled (system : RxSystem) : RxAction → Prop
  | .input _ => system.ring.overrun = true ∨
      system.ring.rxProduceIndex = system.ring.rxConsumeIndex ∨ system.ring.rxFreeDescs = 0
  | _ => True

instance (system : RxSystem) (action : RxAction) : Decidable (system.Refilled action) := by
  unfold RxSystem.Refilled
  split <;> infer_instance

/-! ## The ring -/

section

variable {count front : Nat} {ring : RxRing} {queue : List RxPbuf}

/-- The slots from `front` on hold `queue` and the others are empty. The driver goes on
where the queue ends. -/
structure RxHolds (count : Nat) (ring : RxRing) (front : Nat) (queue : List RxPbuf) : Prop where
  sparse : Sparse count ring.rxb front ring.rxFillDescIndex queue
  free : ring.rxFreeDescs + queue.length = count
  consume : ring.rxConsumeIndex = ring.rxFillDescIndex ∨ queue = []
  inside : ring.rxConsumeIndex < count

namespace RxHolds

/-- The rest of the ring does not matter. -/
theorem congr {ring' : RxRing} (holds : RxHolds count ring front queue)
    (slots : ring'.rxb = ring.rxb) (fill : ring'.rxFillDescIndex = ring.rxFillDescIndex)
    (free : ring'.rxFreeDescs = ring.rxFreeDescs)
    (consume : ring'.rxConsumeIndex = ring.rxConsumeIndex) : RxHolds count ring' front queue := by
  constructor
  · rw [slots, fill]
    exact holds.sparse
  · rw [free]
    exact holds.free
  · rw [consume, fill]
    exact holds.consume
  · rw [consume]
    exact holds.inside

theorem lpcRxqueuePbuf (holds : RxHolds count ring front queue) (room : 0 < ring.rxFreeDescs)
    (p : RxPbuf) : RxHolds count (ring.lpcRxqueuePbuf count p) front (queue ++ [p]) := by
  have free := holds.free
  have fill := holds.sparse.back_lt
  have next := next_index fill
  have pushed := holds.sparse.push (by omega) p
  rw [← next] at pushed
  refine ⟨pushed, ?_, .inl rfl, ?_⟩
  · simp only [RxRing.lpcRxqueuePbuf, List.length_append, List.length_singleton]
    omega
  · simp only [RxRing.lpcRxqueuePbuf]
    rw [next]
    exact Nat.mod_lt _ (by omega)

/-- The answers of `pbuf_alloc` go behind the queue, as far as there is room. -/
theorem lpcRxQueue (holds : RxHolds count ring front queue) (answers : List RxAnswer) :
    ∃ queued, queued <+: answers ∧
      RxHolds count (ring.lpcRxQueue count answers).1 front (queue ++ queued.map pbufAlloc) := by
  induction answers generalizing ring queue with
  | nil => exact ⟨[], List.prefix_rfl, by simpa [RxRing.lpcRxQueue] using holds⟩
  | cons answer answers ih =>
      rw [RxRing.lpcRxQueue]
      split
      · rename_i room
        obtain ⟨queued, before, rest⟩ := ih (holds.lpcRxqueuePbuf room (pbufAlloc answer))
        refine ⟨answer :: queued, List.cons_prefix_cons.mpr ⟨rfl, before⟩, ?_⟩
        simpa using rest
      · exact ⟨[], List.nil_prefix, by simpa using holds⟩

/-- An empty ring is set up. -/
theorem lpcRxSetup (positive : 0 < count) (inside : ring.rxConsumeIndex < count)
    (empty : ∀ slot < count, ring.rxb slot = none) (answers : List RxAnswer) :
    ∃ queued, queued <+: answers ∧
      RxHolds count (ring.lpcRxSetup count answers) 0 (queued.map pbufAlloc) := by
  have fresh : RxHolds count { ring with rxFreeDescs := count, rxFillDescIndex := 0 } 0 [] :=
    ⟨Sparse.nil positive empty, rfl, .inr rfl, inside⟩
  exact fresh.lpcRxQueue answers

theorem mem_addresses (holds : RxHolds count ring front queue) {p : RxPbuf}
    (member : p ∈ queue) : p.address ∈ ring.addresses count := by
  obtain ⟨offset, bound, rfl⟩ := List.getElem_of_mem member
  have room := holds.sparse.room
  have slot := holds.sparse.slot offset (by omega)
  rw [List.getElem?_eq_getElem bound] at slot
  have there : (front + offset) % count ∈ List.range count :=
    List.mem_range.mpr (Nat.mod_lt _ (by omega))
  exact List.mem_filterMap.mpr ⟨_, there, by rw [slot]; rfl⟩

theorem mem_queue (holds : RxHolds count ring front queue) {slot : Nat} {p : RxPbuf}
    (inside : slot < count) (held : ring.rxb slot = some p) : p ∈ queue := by
  obtain ⟨offset, bound, rfl⟩ := holds.sparse.offset_of inside
  rw [holds.sparse.slot offset bound] at held
  exact List.mem_of_getElem? held

/-- The slot to take a frame from is empty exactly if there are slots to fill. -/
theorem consume_empty (holds : RxHolds count ring front queue) :
    ring.rxb ring.rxConsumeIndex = none ↔ ring.rxFreeDescs ≠ 0 := by
  have free := holds.free
  have inside := holds.inside
  constructor
  · intro nothing zero
    have full : queue.length = count := by omega
    obtain ⟨offset, bound, at_⟩ := holds.sparse.offset_of inside
    rw [at_, holds.sparse.slot offset bound, List.getElem?_eq_getElem (by omega)] at nothing
    cases nothing
  · intro some_
    rcases holds.consume with same | rfl
    · rw [same]
      exact holds.sparse.back_empty (by omega)
    · exact holds.sparse.empty inside

/-- The first pbuf is taken out of a full ring. -/
theorem take (holds : RxHolds count ring front queue) {p : RxPbuf}
    (held : ring.rxb ring.rxConsumeIndex = some p) :
    ∃ rest, queue = p :: rest ∧
      RxHolds count { ring with
        rxb := Function.update ring.rxb ring.rxConsumeIndex none
        rxFreeDescs := ring.rxFreeDescs + 1 } ((front + 1) % count) rest := by
  have free := holds.free
  have filled : ring.rxFreeDescs = 0 := by
    by_contra some_
    rw [holds.consume_empty.mpr some_] at held
    cases held
  cases queue with
  | nil =>
      rw [holds.sparse.empty holds.inside] at held
      cases held
  | cons first rest =>
      rw [List.length_cons] at free
      have around := holds.sparse.full (by rw [List.length_cons]; omega)
      have same : ring.rxConsumeIndex = front := by
        rcases holds.consume with same | nothing
        · rw [same, around]
        · cases nothing
      obtain ⟨at_, popped⟩ := holds.sparse.pop
      rw [same, at_, Option.some_inj] at held
      rw [held]
      refine ⟨rest, rfl, ?_, ?_, .inl ?_, holds.inside⟩
      · rw [same]
        exact popped
      · show ring.rxFreeDescs + 1 + rest.length = count
        omega
      · rw [same, around]

end RxHolds

end

/-! ## Runs -/

/-- The ring holds a queue, and no pbuf is in it or with the network stack twice. -/
def RxInv (count : Nat) (system : RxSystem) : Prop :=
  ∃ front queue, RxHolds count system.ring front queue ∧
    (queue.map RxPbuf.address ++ system.held).Nodup

section

variable {count front : Nat} {emac : Emac count} {answers : List RxAnswer}
  {system next : RxSystem}

/-- Fresh answers go behind the queue, and stay distinct. -/
theorem nodup_queued {queue : List RxPbuf} {held : List Nat} {queued : List RxAnswer}
    (distinct : (queue.map RxPbuf.address ++ held).Nodup)
    (fresh : FreshAnswers answers (queue.map RxPbuf.address ++ held))
    (before : queued <+: answers) :
    ((queue ++ queued.map pbufAlloc).map RxPbuf.address ++ held).Nodup := by
  obtain ⟨alone, outside⟩ := fresh
  have same : (queued.map pbufAlloc).map RxPbuf.address = queued.map RxAnswer.address := by
    rw [List.map_map]
    rfl
  have alone' : (queued.map RxAnswer.address).Nodup :=
    alone.sublist (before.sublist.map RxAnswer.address)
  have apart : ∀ address ∈ queued.map RxAnswer.address,
      address ∉ queue.map RxPbuf.address ++ held := by
    intro address member
    obtain ⟨answer, there, rfl⟩ := List.mem_map.mp member
    exact outside answer (before.subset there)
  rw [List.map_append, same]
  refine (List.perm_append_comm.append_right held).nodup_iff.mpr ?_
  rw [List.append_assoc]
  refine List.nodup_append.mpr ⟨alone', distinct, ?_⟩
  rintro address member _ there rfl
  exact apart address member there

theorem RxInv.start (positive : 0 < count) (distinct : (answers.map RxAnswer.address).Nodup) :
    RxInv count (RxSystem.start count answers) := by
  have empty : ∀ slot < count, RxRing.zeroed.rxb slot = none := fun _ _ => rfl
  obtain ⟨queued, before, holds⟩ := RxHolds.lpcRxSetup positive positive empty answers
  refine ⟨0, _, holds, ?_⟩
  have fresh : FreshAnswers answers (([] : List RxPbuf).map RxPbuf.address ++ []) :=
    ⟨distinct, by simp⟩
  exact nodup_queued List.nodup_nil fresh before

theorem RxInv.safe (inv : RxInv count system) (noFault : system.faulted = false) :
    RxSafe count system := by
  obtain ⟨front, queue, holds, distinct⟩ := inv
  refine ⟨noFault, ?_, (List.nodup_append.mp distinct).2.1, ?_⟩
  · have empty := holds.sparse.countP_empty
    have free := holds.free
    omega
  · intro slot inside p held member
    have there := List.mem_map_of_mem (f := RxPbuf.address) (holds.mem_queue inside held)
    exact (List.nodup_append.mp distinct).2.2 _ there _ member rfl

/-- A call without a result finds no frame slot filled. -/
theorem lpcLowLevelInput_none (inv : RxInv count system) :
    system.ring.lpcLowLevelInput emac answers = none ↔ ¬ system.Refilled (.input answers) := by
  obtain ⟨front, queue, holds, -⟩ := inv
  have empty := holds.consume_empty
  simp only [RxRing.lpcLowLevelInput, RxSystem.Refilled, not_or]
  split
  · rename_i overrun
    simp [overrun]
  · rename_i overrun
    split
    · rename_i same
      simp [same]
    · rename_i differ
      cases held : system.ring.rxb system.ring.rxConsumeIndex with
      | none => simp [overrun, differ, empty.mp held]
      | some p =>
          have filled : system.ring.rxFreeDescs = 0 := by
            by_contra some_
            rw [empty.mpr some_] at held
            cases held
          simp only [filled, not_true, and_false, iff_false]
          split <;> simp

/-- A call with a result keeps the queue and the pbufs apart. -/
theorem RxInv.input {ring : RxRing} {returned : Option RxPbuf} (positive : 0 < count)
    (inv : RxInv count system) (fresh : FreshAnswers answers (system.allocated count))
    (result : system.ring.lpcLowLevelInput emac answers = some (ring, returned)) :
    RxInv count { system with
      ring := ring
      held := (returned.map RxPbuf.address).toList ++ system.held } := by
  obtain ⟨front, queue, holds, distinct⟩ := inv
  simp only [RxRing.lpcLowLevelInput] at result
  split at result
  · -- The ring is reset, and only what the network stack has is allocated.
    rename_i overrun
    obtain ⟨rfl, rfl⟩ := Prod.mk.inj (Option.some_inj.mp result)
    have empty : ∀ slot < count, (system.ring.resetRx emac).rxb slot = none := fun slot inside =>
      if_pos inside
    obtain ⟨queued, before, again⟩ := RxHolds.lpcRxSetup positive
      (emac.resetConsume_lt _ holds.inside) empty answers
    rw [RxSystem.allocated, if_pos overrun] at fresh
    refine ⟨0, _, again, ?_⟩
    have alone : (([] : List RxPbuf).map RxPbuf.address ++ system.held).Nodup :=
      (List.nodup_append.mp distinct).2.1
    exact nodup_queued alone fresh before
  · rename_i running
    rw [RxSystem.allocated, if_neg running] at fresh
    have fresh' : FreshAnswers answers (queue.map RxPbuf.address ++ system.held) := by
      refine ⟨fresh.1, fun answer member there => fresh.2 answer member ?_⟩
      rcases List.mem_append.mp there with inRing | held
      · obtain ⟨p, queued, same⟩ := List.mem_map.mp inRing
        exact List.mem_append_left _ (same ▸ holds.mem_addresses queued)
      · exact List.mem_append_right _ held
    split at result
    · obtain ⟨rfl, rfl⟩ := Prod.mk.inj (Option.some_inj.mp result)
      exact ⟨front, queue, holds, distinct⟩
    · split at result
      · cases result
      · rename_i p held
        obtain ⟨rest, rfl, taken⟩ := holds.take held
        split at result
        · -- The pbuf of a frame with errors goes back to the end of the queue.
          obtain ⟨rfl, rfl⟩ := Prod.mk.inj (Option.some_inj.mp result)
          refine ⟨_, rest ++ [p], taken.lpcRxqueuePbuf (Nat.succ_pos _) p, ?_⟩
          have moved : (p :: rest).Perm (rest ++ [p]) := (List.perm_append_singleton p rest).symm
          exact ((moved.map RxPbuf.address).append_right system.held).nodup_iff.mp distinct
        · -- The pbuf goes to the network stack, and others into the ring.
          obtain ⟨rfl, rfl⟩ := Prod.mk.inj (Option.some_inj.mp result)
          obtain ⟨queued, before, filled⟩ := taken.lpcRxQueue answers
          refine ⟨_, _, filled, ?_⟩
          have moved : ((p :: rest).map RxPbuf.address ++ system.held).Perm
              (rest.map RxPbuf.address ++ (p.address :: system.held)) :=
            List.perm_middle.symm
          have alone := moved.nodup_iff.mp distinct
          refine nodup_queued alone ⟨fresh'.1, fun answer member there => ?_⟩ before
          exact fresh'.2 answer member (moved.mem_iff.mpr there)

/-- A step either keeps the invariant or dereferences `NULL`, as the condition has it. -/
theorem RxInv.step (positive : 0 < count) (inv : RxInv count system) {action : RxAction}
    {emitted : List Empty}
    (step : (rxMachine emac).step system action = some (next, emitted)) :
    system.faulted = false ∧
      (system.Refilled action → next.faulted = false ∧ RxInv count next) ∧
      (¬ system.Refilled action → next.faulted = true) := by
  obtain ⟨running, possible⟩ := Option.ite_none_left_eq_some.mp step
  obtain ⟨final, taken, made⟩ := Option.map_eq_some_iff.mp possible
  obtain ⟨rfl, -⟩ := Prod.mk.inj made
  have noFault : system.faulted = false := by simpa using running
  refine ⟨noFault, ?_⟩
  cases action with
  | arrive status =>
      obtain ⟨ring, arrived, rfl⟩ := Option.map_eq_some_iff.mp taken
      obtain ⟨-, arrived⟩ := Option.ite_none_right_eq_some.mp arrived
      obtain rfl := Option.some_inj.mp arrived
      obtain ⟨front, queue, holds, distinct⟩ := inv
      exact ⟨fun _ => ⟨noFault, front, queue, holds.congr rfl rfl rfl rfl, distinct⟩,
        fun other => absurd trivial other⟩
  | overrun =>
      obtain rfl := Option.some_inj.mp taken
      obtain ⟨front, queue, holds, distinct⟩ := inv
      exact ⟨fun _ => ⟨noFault, front, queue, holds.congr rfl rfl rfl rfl, distinct⟩,
        fun other => absurd trivial other⟩
  | input answers =>
      obtain ⟨fresh, result⟩ := Option.ite_none_right_eq_some.mp taken
      split at result
      · rename_i ring returned called
        obtain rfl := Option.some_inj.mp result
        have refilled : system.Refilled (.input answers) := by
          by_contra other
          rw [(lpcLowLevelInput_none inv).mpr other] at called
          cases called
        exact ⟨fun _ => ⟨noFault, inv.input positive fresh called⟩,
          fun other => absurd refilled other⟩
      · rename_i nothing
        obtain rfl := Option.some_inj.mp result
        have other := (lpcLowLevelInput_none inv).mp nothing
        exact ⟨fun refilled => absurd refilled other, fun _ => rfl⟩
  | free address =>
      obtain ⟨-, freed⟩ := Option.ite_none_right_eq_some.mp taken
      obtain rfl := Option.some_inj.mp freed
      obtain ⟨front, queue, holds, distinct⟩ := inv
      have fewer : (queue.map RxPbuf.address ++ system.held.erase address).Nodup :=
        distinct.sublist (List.erase_sublist.append_left _)
      exact ⟨fun _ => ⟨noFault, front, queue, holds, fewer⟩, fun other => absurd trivial other⟩

end

/-- The runs that are safe at the end, and so all along, are those whose calls of
`lpc_low_level_input` find the ring refilled. -/
theorem receive_safe_iff {count : Nat} (positive : 0 < count) (emac : Emac count)
    {answers : List RxAnswer} (distinct : (answers.map RxAnswer.address).Nodup)
    {actions : List RxAction} {events : List Empty} {system : RxSystem}
    (run : (rxMachine emac).Run (fun _ _ => True) (RxSystem.start count answers) actions events
      system) :
    RxSafe count system ↔
      (rxMachine emac).Run RxSystem.Refilled (RxSystem.start count answers) actions events
        system := by
  constructor
  · -- A step that finds the ring not refilled is the last one, and is not safe.
    intro safe
    have kept : system.faulted = false →
        (rxMachine emac).Run RxSystem.Refilled (RxSystem.start count answers) actions events
          system ∧ RxInv count system := by
      clear safe
      induction run with
      | nil => exact fun _ => ⟨.nil, .start positive distinct⟩
      | @snoc actions events state action emitted next _ _ transition ih =>
          intro noFault
          have before : state.faulted = false := by
            by_contra faulted
            simp [rxMachine, faulted] at transition
          obtain ⟨run, inv⟩ := ih before
          obtain ⟨-, good, bad⟩ := inv.step positive transition
          have refilled : state.Refilled action := by
            by_contra other
            rw [bad other] at noFault
            cases noFault
          exact ⟨.snoc run refilled transition, (good refilled).2⟩
    exact (kept safe.noFault).1
  · intro refilled
    have kept : system.faulted = false ∧ RxInv count system := by
      refine @Machine.Run.invariant _ _ _ _ _ _ _ _ _
        (fun system => system.faulted = false ∧ RxInv count system) refilled ?_ ?_
      · exact ⟨rfl, .start positive distinct⟩
      · intro _ _ _ _ kept admitted step
        exact (kept.2.step positive step).2.1 admitted
    exact kept.2.safe kept.1

/-- The EMAC leaves one descriptor free, and a reset clears its indices. -/
def lpcEmac (count : Nat) : Emac count where
  available produce consume := (produce + 1) % count ≠ consume
  resetProduce _ := 0
  resetConsume _ := 0
  resetConsume_lt _ inside := Nat.zero_lt_of_lt inside

/-- Three pbufs, and a status without errors. -/
def threeAnswers : List RxAnswer := [⟨1, 0x20000000#32⟩, ⟨2, 0x20000600#32⟩, ⟨3, 0x20000C00#32⟩]

def goodStatus : RxStatus := ⟨59#32, 0#32⟩

/-- A frame comes in and is taken, and its pbuf comes back for the next one. -/
theorem receive_safe_iff_refilled :
    ∃ system,
      (rxMachine (lpcEmac 3)).Run RxSystem.Refilled (RxSystem.start 3 threeAnswers)
        [.arrive goodStatus, .input [⟨4, 0x20001200#32⟩], .free 1, .input [], .overrun,
          .input threeAnswers] [] system ∧ RxSafe 3 system := by
  have result : ∃ system, ((rxMachine (lpcEmac 3)).restrict RxSystem.Refilled).execute
      (RxSystem.start 3 threeAnswers)
      [.arrive goodStatus, .input [⟨4, 0x20001200#32⟩], .free 1, .input [], .overrun,
        .input threeAnswers] = some (system, []) := ⟨_, rfl⟩
  obtain ⟨system, executed⟩ := result
  have run := Machine.run_of_execute_restrict executed
  exact ⟨system, run, (receive_safe_iff (by decide) (lpcEmac 3) (by decide)
    (run.mono fun _ _ _ => trivial)).mpr run⟩

/-- A frame is taken while `pbuf_alloc` fails, and the next call dereferences `NULL`. -/
theorem receive_dereferences_null :
    ¬ ∀ (actions : List RxAction) (system : RxSystem),
      (rxMachine (lpcEmac 3)).Run (fun _ _ => True) (RxSystem.start 3 threeAnswers) actions []
        system → RxSafe 3 system := by
  intro claim
  have result : ∃ system, (rxMachine (lpcEmac 3)).execute (RxSystem.start 3 threeAnswers)
      [.arrive goodStatus, .input [], .input []] = some (system, []) ∧
      system.faulted = true := ⟨_, rfl, rfl⟩
  obtain ⟨system, executed, faulted⟩ := result
  have safe := claim _ system (Machine.run_of_execute (fun _ _ _ => trivial) executed)
  exact nomatch faulted.symm.trans safe.noFault

end RtThread
