import RtThread.Std.Waiters
import RtThread.Drivers.RingbufferRuns
import RtThread.Drivers.Pipe

/-!
# Wake-ups on the pipe

A pass takes what there is for its side and resumes one thread of the other side.
A thread waits only while there is nothing for it, as long as what a pass leaves
will be taken by somebody who runs.
-/

namespace RtThread

open RtThread.Std

@[simp] theorem PipeSide.other_other (side : PipeSide) : side.other.other = side := by
  cases side <;> rfl

theorem PipeSide.eq_or_other (side other : PipeSide) : side = other ∨ side = other.other := by
  cases side <;> cases other <;> simp [PipeSide.other]

def Pipe.suspended (pipe : Pipe) : PipeSide → List ThreadId
  | .reader => pipe.suspendedReadList
  | .writer => pipe.suspendedWriteList

/-- The bytes in the buffer, for a reader, and the room in it, for a writer. -/
def Ringbuffer.available (rb : Ringbuffer) : PipeSide → Nat
  | .reader => (rb.writeIndex - rb.readIndex).toNat
  | .writer => rb.bufferSize.toNat - (rb.writeIndex - rb.readIndex).toNat

def PipeSystem.available (system : PipeSystem) : PipeSide → Nat :=
  system.pipe.ringbuffer.available

namespace PipePhase

def waits (side : PipeSide) : PipePhase → Bool
  | .blocked other _ _ => other = side
  | _ => false

def isResumed : PipePhase → Bool
  | .resumed _ _ _ => true
  | _ => false

/-- The thread has been resumed to look at the pipe again. -/
def returns (side : PipeSide) : PipePhase → Bool
  | .resumed other _ _ => other = side
  | _ => false

end PipePhase

/-- The phases of the threads once the first one of a list has been resumed. -/
def PipeSystem.resumeFirst (system : PipeSystem) : List ThreadId → ThreadId → PipePhase
  | other :: _ => (system.resume other).phase
  | [] => system.phase

/-- What a pass of either loop does: it waits, or takes what there is and resumes the
first thread that waits on the other side. -/
inductive PipeSystem.Passes (system : PipeSystem) (side : PipeSide) (thread : ThreadId)
    (length : BitVec 16) (next : PipeSystem) : Prop where
  | blocks (buffer : Nat → Byte) (size : BitVec 32)
      (nothing : min length.toNat (system.available side) = 0)
      (available : next.available = system.available)
      (mine : next.pipe.suspended side = system.pipe.suspended side ++ [thread])
      (others : next.pipe.suspended side.other = system.pipe.suspended side.other)
      (phase : next.phase = Function.update system.phase thread (.blocked side buffer size))
  | moves (some_ : min length.toNat (system.available side) ≠ 0)
      (taken : next.available side =
        system.available side - min length.toNat (system.available side))
      (given : next.available side.other =
        system.available side.other + min length.toNat (system.available side))
      (mine : next.pipe.suspended side = system.pipe.suspended side)
      (others : next.pipe.suspended side.other = (system.pipe.suspended side.other).tail)
      (phase : next.phase = Function.update
        (system.resumeFirst (system.pipe.suspended side.other)) thread .idle)

section

variable {size : Nat} {system next : PipeSystem} {queue queue' : List Byte} {side : PipeSide}
  {thread other : ThreadId} {length : BitVec 16} {rb rb' : Ringbuffer}

namespace Ringbuffer.Stores

theorem available_reader (stores : rb.Stores size queue) (valid : RingbufferSize size) :
    rb.available .reader = queue.length := stores.holds.count valid.mask

theorem available_writer (stores : rb.Stores size queue) (valid : RingbufferSize size) :
    rb.available .writer = size - queue.length := by
  rw [Ringbuffer.available, stores.holds.count valid.mask, stores.bufferSize]

/-- What there is for both sides depends on the number of bytes only. -/
theorem available_eq (stores : rb.Stores size queue) (stores' : rb'.Stores size queue')
    (valid : RingbufferSize size) (same : queue'.length = queue.length) :
    rb'.available = rb.available := by
  ext side
  cases side with
  | reader => rw [stores.available_reader valid, stores'.available_reader valid, same]
  | writer => rw [stores.available_writer valid, stores'.available_writer valid, same]

end Ringbuffer.Stores

namespace PipeSystem

/-- A pass of `rt_pipe_read`. -/
theorem read_passes (valid : RingbufferSize size)
    (stores : system.pipe.ringbuffer.Stores size queue)
    (straight : system.pipe.ringbuffer.readIndex ≤ system.pipe.ringbuffer.writeIndex)
    (thread : ThreadId) (buffer : Nat → Byte) (request : BitVec 32) :
    system.Passes .reader thread (request.setWidth 16) (system.read thread buffer request).1 ∧
      ∃ queue, (system.read thread buffer request).1.pipe.ringbuffer.Stores size queue := by
  obtain ⟨rb, buffer', result, -, stores'⟩ :=
    stores.get valid buffer (request.setWidth 16) (.inl straight)
  have bound := stores.length_le
  have stored := stores.available_reader valid
  have room := stores.available_writer valid
  have stored' := stores'.available_reader valid
  have room' := stores'.available_writer valid
  rw [List.length_drop] at stored' room'
  unfold PipeSystem.read
  rw [result]
  dsimp only
  split
  · rename_i nothing
    refine ⟨.blocks buffer' request ?_ ?_ rfl rfl rfl, _, stores'⟩
    · rwa [available, stored]
    · exact stores.available_eq stores' valid (by rw [List.length_drop]; omega)
  · rename_i some_
    have taken : rb.available .reader = system.available .reader -
        min (request.setWidth 16).toNat (system.available .reader) := by
      rw [available, stored', stored]
      omega
    have given : rb.available .writer = system.available .writer +
        min (request.setWidth 16).toNat (system.available .reader) := by
      rw [available, stored, room, room']
      omega
    rw [← stored] at some_
    cases waiting : system.pipe.suspendedWriteList with
    | nil =>
        refine ⟨.moves some_ taken given rfl ?_ ?_, _, stores'⟩
        · exact (congrArg List.tail waiting).symm
        · exact congrArg (fun list => Function.update (system.resumeFirst list) thread .idle)
            waiting.symm
    | cons other rest =>
        refine ⟨.moves some_ taken given rfl ?_ ?_, _, stores'⟩
        · exact (congrArg List.tail waiting).symm
        · exact congrArg (fun list => Function.update (system.resumeFirst list) thread .idle)
            waiting.symm

/-- A pass of `rt_pipe_write`. -/
theorem write_passes (valid : RingbufferSize size)
    (stores : system.pipe.ringbuffer.Stores size queue)
    (thread : ThreadId) (buffer : Nat → Byte) (request : BitVec 32) :
    system.Passes .writer thread (request.setWidth 16) (system.write thread buffer request).1 ∧
      ∃ queue, (system.write thread buffer request).1.pipe.ringbuffer.Stores size queue := by
  obtain ⟨rb, result, stores'⟩ := stores.put valid buffer (request.setWidth 16)
  have bound := stores.length_le
  have stored := stores.available_reader valid
  have room := stores.available_writer valid
  have stored' := stores'.available_reader valid
  have room' := stores'.available_writer valid
  have count : (bytesOf buffer (min (request.setWidth 16).toNat (size - queue.length))).length =
      min (request.setWidth 16).toNat (size - queue.length) := by simp [bytesOf]
  rw [List.length_append, count] at stored' room'
  unfold PipeSystem.write
  rw [result]
  dsimp only
  split
  · rename_i nothing
    refine ⟨.blocks buffer request ?_ ?_ rfl rfl rfl, _, stores'⟩
    · rwa [available, room]
    · exact stores.available_eq stores' valid (by rw [List.length_append, count]; omega)
  · rename_i some_
    have taken : rb.available .writer = system.available .writer -
        min (request.setWidth 16).toNat (system.available .writer) := by
      rw [available, room', room]
      omega
    have given : rb.available .reader = system.available .reader +
        min (request.setWidth 16).toNat (system.available .writer) := by
      rw [available, room, stored, stored']
    rw [← room] at some_
    cases waiting : system.pipe.suspendedReadList with
    | nil =>
        refine ⟨.moves some_ taken given rfl ?_ ?_, _, stores'⟩
        · exact (congrArg List.tail waiting).symm
        · exact congrArg (fun list => Function.update (system.resumeFirst list) thread .idle)
            waiting.symm
    | cons other rest =>
        refine ⟨.moves some_ taken given rfl ?_ ?_, _, stores'⟩
        · exact (congrArg List.tail waiting).symm
        · exact congrArg (fun list => Function.update (system.resumeFirst list) thread .idle)
            waiting.symm

end PipeSystem

/-! ## Promises -/

/-- Somebody who has been resumed will take what there is for those who wait. -/
structure PipeSystem.Promises (system : PipeSystem) : Prop where
  waiters : ∀ side, Waiters system.phase (PipePhase.waits side) (system.pipe.suspended side)
  served : ∀ side, system.pipe.suspended side ≠ [] → system.available side = 0 ∨
    (∃ thread, (system.phase thread).returns side = true) ∨
      (∃ thread, (system.phase thread).returns side.other = true) ∧
        0 < system.available side.other

/-- A pass asks for something, and what it leaves to others of its side will be taken:
nobody waits, or it resumes a thread, or another thread has been resumed. -/
structure PipeSystem.Serves (system : PipeSystem) (side : PipeSide) (thread : ThreadId)
    (length : BitVec 16) : Prop where
  asks : length = 0 → system.available side = 0
  leaves : length.toNat < system.available side → system.pipe.suspended side = [] ∨
    system.pipe.suspended side.other ≠ [] ∨
      ∃ other, other ≠ thread ∧ (system.phase other).isResumed = true

namespace PipeSystem

theorem exists_of_waits {phase : PipePhase} (waits : phase.waits side = true) :
    ∃ buffer size, phase = .blocked side buffer size := by
  unfold PipePhase.waits at waits
  split at waits
  · obtain rfl := of_decide_eq_true waits
    exact ⟨_, _, rfl⟩
  · cases waits

theorem returns_of_isResumed {phase : PipePhase} (resumed : phase.isResumed = true)
    (side : PipeSide) : phase.returns side = true ∨ phase.returns side.other = true := by
  unfold PipePhase.isResumed at resumed
  split at resumed
  · rename_i other _ _
    cases side <;> cases other <;> simp [PipePhase.returns, PipeSide.other]
  · cases resumed

/-- A thread that runs has just called or has been resumed on its side. -/
def Runs (system : PipeSystem) (side : PipeSide) (thread : ThreadId) : Prop :=
  system.phase thread = .idle ∨ ∃ buffer size, system.phase thread = .resumed side buffer size

theorem Runs.waits (runs : system.Runs side thread) (other : PipeSide) :
    (system.phase thread).waits other = false := by
  rcases runs with idle | ⟨buffer, size, resumed⟩
  · rw [idle]
    rfl
  · rw [resumed]
    rfl

theorem Runs.returns (runs : system.Runs side thread) :
    (system.phase thread).returns side.other = false := by
  rcases runs with idle | ⟨buffer, size, resumed⟩
  · rw [idle]
    rfl
  · rw [resumed]
    cases side <;> rfl

/-- The first thread of a list is resumed on its side. -/
theorem resumeFirst_cons {rest : List ThreadId}
    (waiters : Waiters system.phase (PipePhase.waits side) (other :: rest)) :
    ∃ buffer size, system.resumeFirst (other :: rest) =
      Function.update system.phase other (.resumed side buffer size) := by
  obtain ⟨buffer, size, blocked⟩ := exists_of_waits (waiters.all other List.mem_cons_self)
  exact ⟨buffer, size, by rw [resumeFirst, resume, blocked]⟩

/-- A thread that has been resumed is still resumed after another thread has waited or
gone on. -/
theorem returns_update {phase : ThreadId → PipePhase} {new : PipePhase}
    (returns : ∃ other, (phase other).returns side = true)
    (still : (phase thread).returns side = false) :
    ∃ other, (Function.update phase thread new other).returns side = true := by
  obtain ⟨other, returns⟩ := returns
  have apart : other ≠ thread := by
    rintro rfl
    rw [still] at returns
    cases returns
  exact ⟨other, by rwa [Function.update_of_ne apart]⟩

theorem Passes.promises (promises : system.Promises) (runs : system.Runs side thread)
    (serves : system.Serves side thread length)
    (passes : system.Passes side thread length next) : next.Promises := by
  have outside : ∀ other, thread ∉ system.pipe.suspended other :=
    fun other => (promises.waiters other).notMem (runs.waits other)
  cases passes with
  | blocks buffer size nothing available mine others phase =>
      have none_ : system.available side = 0 := by
        rcases Nat.min_eq_zero_iff.mp nothing with zero | none_
        · exact serves.asks (BitVec.eq_of_toNat_eq (by simpa using zero))
        · exact none_
      constructor
      · intro which
        rcases which.eq_or_other side with rfl | rfl
        · rw [mine, phase]
          exact (promises.waiters _).append (outside _) (by simp [PipePhase.waits])
        · rw [others, phase]
          exact (promises.waiters _).update (outside _) _
      · intro which waiting
        rw [available]
        rcases which.eq_or_other side with rfl | rfl
        · exact .inl none_
        · rw [others] at waiting
          rcases promises.served _ waiting with empty | returns | ⟨-, more⟩
          · exact .inl empty
          · rw [phase]
            exact .inr (.inl (returns_update returns runs.returns))
          · rw [PipeSide.other_other, none_] at more
            cases more
  | moves moved taken given mine others phase =>
      cases waiting : system.pipe.suspended side.other with
      | nil =>
          rw [waiting] at others phase
          change next.phase = Function.update system.phase thread .idle at phase
          constructor
          · intro which
            rcases which.eq_or_other side with rfl | rfl
            · rw [mine, phase]
              exact (promises.waiters _).update (outside _) _
            · rw [others]
              exact .nil
          · intro which wait
            rcases which.eq_or_other side with rfl | rfl
            · rw [mine] at wait
              by_cases less : length.toNat < system.available which
              · rcases serves.leaves less with nobody | resumes | ⟨other, apart, resumed⟩
                · exact absurd nobody wait
                · exact absurd waiting resumes
                · right
                  have kept : next.phase other = system.phase other := by
                    rw [phase, Function.update_of_ne apart]
                  rcases returns_of_isResumed resumed which with mine' | others'
                  · exact .inl ⟨other, by rwa [kept]⟩
                  · exact .inr ⟨⟨other, by rwa [kept]⟩, by omega⟩
              · left
                omega
            · rw [others] at wait
              exact absurd rfl wait
      | cons first rest =>
          have waiters := promises.waiters side.other
          have beyond := outside side.other
          rw [waiting] at others phase waiters beyond
          obtain ⟨buffer, size, resumed⟩ := resumeFirst_cons waiters
          rw [resumed] at phase
          have apart : first ≠ thread := by
            rintro rfl
            exact beyond List.mem_cons_self
          have returns : (next.phase first).returns side.other = true := by
            rw [phase, Function.update_of_ne apart, Function.update_self]
            simp [PipePhase.returns]
          constructor
          · intro which
            rcases which.eq_or_other side with rfl | rfl
            · have still : first ∉ system.pipe.suspended which := by
                refine (promises.waiters which).notMem ?_
                obtain ⟨buffer, size, blocked⟩ :=
                  exists_of_waits (waiters.all first List.mem_cons_self)
                rw [blocked]
                cases which <;> rfl
              rw [mine, phase]
              exact ((promises.waiters _).update still _).update (outside _) _
            · rw [others, phase]
              exact (waiters.tail _).update
                (fun member => beyond (List.mem_cons_of_mem first member)) _
          · intro which wait
            rcases which.eq_or_other side with rfl | rfl
            · exact .inr (.inr ⟨⟨first, returns⟩, by omega⟩)
            · exact .inr (.inl ⟨first, returns⟩)

end PipeSystem

end

/-! ## Runs -/

namespace PipeSystem

/-- The side, the thread and the 16-bit length of the pass that an action makes. -/
def attempt (system : PipeSystem) : PipeAction → Option (PipeSide × ThreadId × BitVec 16)
  | .call side thread _ size => some (side, thread, size.setWidth 16)
  | .wake thread =>
      match system.phase thread with
      | .resumed side _ size => some (side, thread, size.setWidth 16)
      | _ => none

/-- The write index has not wrapped around ahead of the read index. -/
def Straight (system : PipeSystem) : Prop :=
  system.pipe.ringbuffer.readIndex ≤ system.pipe.ringbuffer.writeIndex

/-- The pass of an action leaves nothing behind for which somebody waits. -/
def Allows (system : PipeSystem) (action : PipeAction) : Prop :=
  system.Straight ∧ ∀ side thread length,
    system.attempt action = some (side, thread, length) → system.Serves side thread length

variable {size : Nat} {system next : PipeSystem} {queue : List Byte} {action : PipeAction}
  {emitted : List PipeEvent}

theorem pass_passes (valid : RingbufferSize size)
    (stores : system.pipe.ringbuffer.Stores size queue) (straight : system.Straight)
    (side : PipeSide) (thread : ThreadId) (buffer : Nat → Byte) (request : BitVec 32) :
    system.Passes side thread (request.setWidth 16) (system.pass side thread buffer request).1 ∧
      ∃ queue, (system.pass side thread buffer request).1.pipe.ringbuffer.Stores size queue := by
  cases side with
  | reader => exact read_passes valid stores straight thread buffer request
  | writer => exact write_passes valid stores thread buffer request

theorem step_promises (valid : RingbufferSize size) (promises : system.Promises)
    (stores : system.pipe.ringbuffer.Stores size queue) (allows : system.Allows action)
    (step : pipeMachine.step system action = some (next, emitted)) :
    next.Promises ∧ ∃ queue, next.pipe.ringbuffer.Stores size queue := by
  obtain ⟨straight, serves⟩ := allows
  cases action with
  | call side thread buffer request =>
      simp only [pipeMachine] at step
      split at step
      · rename_i idle
        obtain ⟨passes, stores'⟩ := pass_passes valid stores straight side thread buffer request
        rw [Option.some_inj.mp step] at passes stores'
        exact ⟨passes.promises promises (.inl idle) (serves _ _ _ rfl), stores'⟩
      · cases step
  | wake thread =>
      simp only [pipeMachine] at step
      split at step
      · rename_i side buffer request resumed
        obtain ⟨passes, stores'⟩ := pass_passes valid stores straight side thread buffer request
        rw [Option.some_inj.mp step] at passes stores'
        have tries : system.attempt (.wake thread) =
            some (side, thread, request.setWidth 16) := by rw [attempt, resumed]
        exact ⟨passes.promises promises (.inr ⟨buffer, request, resumed⟩) (serves _ _ _ tries),
          stores'⟩
      · cases step

/-- Every thread that has been resumed has run. -/
def Settled (system : PipeSystem) : Prop := ∀ thread, (system.phase thread).isResumed = false

/-- Readers wait for an empty pipe only, and writers for a full one. -/
structure NoLostWakeup (system : PipeSystem) : Prop where
  readers : ∀ thread, thread ∈ system.pipe.suspendedReadList →
    system.pipe.ringbuffer.readIndex = system.pipe.ringbuffer.writeIndex
  writers : ∀ thread, thread ∈ system.pipe.suspendedWriteList →
    system.pipe.ringbuffer.writeIndex - system.pipe.ringbuffer.readIndex =
      system.pipe.ringbuffer.bufferSize

theorem Promises.noLostWakeup (promises : system.Promises)
    (stores : system.pipe.ringbuffer.Stores size queue) (valid : RingbufferSize size)
    (settled : system.Settled) : system.NoLostWakeup := by
  have nobody : ∀ side, ¬ ∃ thread, (system.phase thread).returns side = true := by
    rintro side ⟨thread, returns⟩
    have still := settled thread
    unfold PipePhase.returns at returns
    split at returns
    · rename_i phase
      rw [phase] at still
      cases still
    · cases returns
  have none_ : ∀ side thread, thread ∈ system.pipe.suspended side →
      system.available side = 0 := by
    intro side thread member
    rcases promises.served side (List.ne_nil_of_mem member) with none_ | returns | ⟨returns, -⟩
    · exact none_
    · exact absurd returns (nobody side)
    · exact absurd returns (nobody side.other)
  constructor
  · intro thread member
    have empty := none_ .reader thread member
    rw [available, stores.available_reader valid] at empty
    exact (stores.holds.empty_iff valid.mask).mpr (List.eq_nil_of_length_eq_zero empty)
  · intro thread member
    have full := none_ .writer thread member
    rw [available, stores.available_writer valid] at full
    have bound := stores.length_le
    apply BitVec.eq_of_toNat_eq
    rw [stores.holds.count valid.mask, stores.bufferSize]
    omega

end PipeSystem

/-- In a run whose passes leave nothing behind for which somebody waits, no wake-up is
lost. -/
theorem pipe_wakes {memory : Nat → Byte} {size : BitVec 32} {actions : List PipeAction}
    {events : List PipeEvent} {system : PipeSystem} (valid : RingbufferSize (rtAlign size).toNat)
    (run : pipeMachine.Run PipeSystem.Allows (.start (rtPipeCreate memory size)) actions events
      system) (settled : system.Settled) : system.NoLostWakeup := by
  obtain ⟨promises, queue, stores⟩ : system.Promises ∧
      ∃ queue, system.pipe.ringbuffer.Stores (rtAlign size).toNat queue := by
    refine @Machine.Run.invariant _ _ _ _ _ _ _ _ _ (fun system => system.Promises ∧
      ∃ queue, system.pipe.ringbuffer.Stores (rtAlign size).toNat queue) run ⟨?_, [], ?_⟩ ?_
    · constructor
      · rintro (_ | _) <;> exact .nil
      · rintro (_ | _) waiting <;> exact absurd rfl waiting
    · have narrow : ((rtAlign size).setWidth 16).toNat = (rtAlign size).toNat := by
        have bounds := valid.bounds
        rw [BitVec.toNat_setWidth]
        omega
      rw [← narrow] at valid ⊢
      exact .init valid
    · rintro state action next emitted ⟨promises, queue, stores⟩ allows step
      exact PipeSystem.step_promises valid promises stores allows step
  exact promises.noLostWakeup stores valid settled

instance (system : PipeSystem) : Decidable system.Straight := inferInstanceAs (Decidable (_ ≤ _))

/-- A pass may leave something where nobody waits on its side. -/
theorem PipeSystem.allows_of_nobody {system : PipeSystem} {action : PipeAction} {side : PipeSide}
    {thread : ThreadId} {length : BitVec 16} (straight : system.Straight)
    (tries : system.attempt action = some (side, thread, length)) (asks : length ≠ 0)
    (nobody : system.pipe.suspended side = []) : system.Allows action := by
  refine ⟨straight, fun other thread' length' tries' => ?_⟩
  rw [tries] at tries'
  cases tries'
  exact ⟨fun zero => absurd zero asks, fun _ => .inl nobody⟩

/-- A reader waits, and one byte of the two that are written is left. -/
theorem pipe_wakes_reader : ∃ actions events system,
    pipeMachine.Run PipeSystem.Allows (.start (rtPipeCreate (fun _ => 0) 4)) actions events system ∧
      system.NoLostWakeup ∧ events = [.written 1 2, .read 0 [7]] := by
  have blocked : pipeMachine.Run PipeSystem.Allows (.start (rtPipeCreate (fun _ => 0) 4)) _ _ _ :=
    .snoc .nil (PipeSystem.allows_of_nobody (by decide) rfl (by decide) rfl)
      (show pipeMachine.step _ (.call .reader 0 (fun _ => 0) 1) = some (_, _) from rfl)
  have written := blocked.snoc
    (PipeSystem.allows_of_nobody (by decide +kernel) rfl (by decide) rfl)
    (show pipeMachine.step _ (.call .writer 1 (fun _ => 7) 2) = some (_, _) from rfl)
  have read := written.snoc
    (PipeSystem.allows_of_nobody (by decide +kernel) rfl (by decide) rfl)
    (show pipeMachine.step _ (.wake 0) = some (_, _) from rfl)
  refine ⟨_, _, _, read, pipe_wakes ⟨2, by decide⟩ read ?_, rfl⟩
  rintro (_ | _ | thread) <;> rfl

/-- Two readers wait for a byte each, and two bytes are written: one of the readers is
resumed, and the other waits for the byte that is left. -/
theorem pipe_loses_wakeup : ∃ events system,
    pipeMachine.Run (fun system _ => system.Straight) (.start (rtPipeCreate (fun _ => 0) 4))
      [.call .reader 0 (fun _ => 0) 1, .call .reader 1 (fun _ => 0) 1,
        .call .writer 2 (fun _ => 7) 2, .wake 0] events system ∧
      system.Settled ∧ ¬ system.NoLostWakeup := by
  have first : pipeMachine.Run (fun system _ => system.Straight)
      (.start (rtPipeCreate (fun _ => 0) 4)) _ _ _ :=
    .snoc .nil (by decide)
      (show pipeMachine.step _ (.call .reader 0 (fun _ => 0) 1) = some (_, _) from rfl)
  have second := first.snoc (by decide +kernel)
    (show pipeMachine.step _ (.call .reader 1 (fun _ => 0) 1) = some (_, _) from rfl)
  have written := second.snoc (by decide +kernel)
    (show pipeMachine.step _ (.call .writer 2 (fun _ => 7) 2) = some (_, _) from rfl)
  have read := written.snoc (by decide +kernel)
    (show pipeMachine.step _ (.wake 0) = some (_, _) from rfl)
  refine ⟨_, _, read, ?_, fun kept => ?_⟩
  · rintro (_ | _ | _ | thread) <;> rfl
  · have empty := kept.readers 1 (by decide +kernel)
    exact absurd empty (by decide +kernel)

end RtThread
