import RtThread.Memory.MemheapSound

/-!
# Threads that share a memory heap

A step is what a thread does between two places at which another one may run: up to
`rt_mutex_take`, under the lock up to `rt_mutex_release`, and what remains after it.
The mutex goes from thread to thread in the order in which they wait. An allocation
sets the used mark after the release, so that it makes a difference whether the
thread is switched out there.
-/

namespace RtThread

open RtThread.Std

/-- Where a thread is between two steps. -/
inductive MemheapPhase where
  | idle
  /-- In `rt_memheap_alloc`, for a size, with the lock or waiting for it. -/
  | allocating (size : BitVec 32)
  /-- Past `rt_mutex_release`, before the used mark is set. -/
  | marking (header : Nat) (size : BitVec 32)
  /-- In `rt_memheap_free`, with the lock or waiting for it. -/
  | freeing (header : Nat)
deriving DecidableEq, Repr

structure MemheapThreads where
  heap : Memheap
  /-- `heap->lock.owner`. -/
  owner : Option ThreadId
  /-- The threads suspended on `heap->lock`. -/
  waiting : List ThreadId
  phase : ThreadId → MemheapPhase
  /-- The pointers that have been returned and are not given back yet. -/
  live : List (Nat × BitVec 32)

namespace MemheapThreads

def setPhase (threads : MemheapThreads) (thread : ThreadId) (phase : MemheapPhase) :
    MemheapThreads :=
  { threads with phase := Function.update threads.phase thread phase }

/-- `rt_mutex_take(&(heap->lock), RT_WAITING_FOREVER)`. -/
def take (threads : MemheapThreads) (thread : ThreadId) : MemheapThreads :=
  if threads.owner = none then { threads with owner := some thread }
  else { threads with waiting := threads.waiting ++ [thread] }

/-- `rt_mutex_release(&(heap->lock))`. -/
def release (threads : MemheapThreads) : MemheapThreads :=
  match threads.waiting with
  | [] => { threads with owner := none }
  | thread :: waiting => { threads with owner := some thread, waiting := waiting }

/-- The used mark is set, and the pointer is returned. -/
def handOut (threads : MemheapThreads) (thread : ThreadId) (header : Nat) (size : BitVec 32) :
    MemheapThreads :=
  { threads.setPhase thread .idle with
    heap := threads.heap.markUsed header
    live := (header + 24, size) :: threads.live }

end MemheapThreads

inductive MemheapAction where
  | enter (thread : ThreadId) (call : MemheapCall)
  /-- The thread has the lock, and is `switched` out when it releases it. -/
  | run (thread : ThreadId) (switched : Bool)
  | mark (thread : ThreadId)
deriving DecidableEq, Repr

/-- The events are the pointers that allocations return. -/
def memheapThreads : Machine MemheapThreads MemheapAction Nat where
  step threads
    | .enter thread (.alloc size) =>
        if threads.phase thread = .idle then
          if Memheap.requestSize size < threads.heap.availableSize then
            some ((threads.setPhase thread (.allocating size)).take thread, [])
          else some (threads, [0])
        else none
    | .enter thread (.free ptr) =>
        if threads.phase thread = .idle ∧ threads.heap.Owns (ptr - 24) then
          some ((threads.setPhase thread (.freeing (ptr - 24))).take thread, [])
        else none
    | .run thread switched =>
        if threads.owner = some thread then
          match threads.phase thread with
          | .allocating size =>
              (threads.heap.takeBlock (Memheap.requestSize size)).map fun (heap, found) =>
                let threads := { threads with heap := heap }.release
                match found with
                | none => (threads.setPhase thread .idle, [0])
                | some header =>
                    if switched then (threads.setPhase thread (.marking header size), [])
                    else (threads.handOut thread header size, [header + 24])
          | .freeing header =>
              let threads := { threads with
                heap := threads.heap.giveBlock header
                live := threads.live.filter fun entry => entry.1 ≠ header + 24 }.release
              some (threads.setPhase thread .idle, [])
          | _ => none
        else none
    | .mark thread =>
        match threads.phase thread with
        | .marking header size => some (threads.handOut thread header size, [header + 24])
        | _ => none

/-- `block` is reached from `block_list`. -/
def Memheap.IsBlock (heap : Memheap) (block : Nat) : Prop :=
  ∃ count, heap.blocks.next^[count] heap.blockList = block

namespace MemheapThreads

/-- When nobody has the lock, the blocks that are not on the free list are marked. -/
def Marked (threads : MemheapThreads) : Prop :=
  threads.owner = none → ∀ block, threads.heap.IsBlock block →
    ¬ threads.heap.frees.Linked threads.heap.freeList block → threads.heap.isUsed block = true

/-- The threads that have the lock or wait for it. -/
def atLock (threads : MemheapThreads) : List ThreadId := threads.owner.toList ++ threads.waiting

/-- `rt_memheap_free` gets a pointer in use that no thread is giving back. -/
def OwnsArgument (threads : MemheapThreads) : MemheapAction → Prop
  | .enter _ (.free ptr) => ptr ∈ threads.live.map Prod.fst ∧
      ∀ thread ∈ threads.atLock, threads.phase thread ≠ .freeing (ptr - 24)
  | _ => True

/-- An allocation that releases the lock is not switched out before it has set the
used mark. -/
def RunsOn (threads : MemheapThreads) : MemheapAction → Prop
  | .run thread switched => switched = true → ∀ size, threads.phase thread ≠ .allocating size
  | _ => True

end MemheapThreads

/-! ## Blocks and the pointers that lead to them -/

section

variable {heap : Memheap} {blocks frees : List Nat} {live : List (Nat × BitVec 32)}

theorem MemheapInv.mem_of_isBlock (inv : MemheapInv heap blocks frees live) {block : Nat}
    (reached : heap.IsBlock block) : block ∈ blocks ++ [heap.tail] := by
  have onward : ∀ x ∈ blocks ++ [heap.tail], heap.blocks.next x ∈ blocks ++ [heap.tail] := by
    intro x member
    rcases List.mem_append.mp member with member | last
    · obtain ⟨left, right, rfl⟩ := List.append_of_mem member
      obtain ⟨b, rest, behind⟩ := MemheapBlocks.follows right heap.tail
      rw [(inv.neighbour behind).next, List.append_assoc, List.cons_append, behind]
      simp
    · rw [List.mem_singleton.mp last, inv.onward]
      exact List.mem_append_left _ (List.mem_of_mem_head? inv.start)
  obtain ⟨count, rfl⟩ := reached
  induction count with
  | zero =>
      rw [Function.iterate_zero_apply, inv.listed]
      exact List.mem_append_left _ (List.mem_of_mem_head? inv.start)
  | succ count ih =>
      rw [Function.iterate_succ_apply']
      exact onward _ ih

/-- In order, what is not on the free list is marked. -/
theorem MemheapInv.marked (inv : MemheapInv heap blocks frees live) {block : Nat}
    (reached : heap.IsBlock block) (loose : ¬ heap.frees.Linked heap.freeList block) :
    heap.isUsed block = true := by
  rcases List.mem_append.mp (inv.mem_of_isBlock reached) with member | last
  · by_contra unmarked
    refine loose ?_
    rw [inv.ring.segment.linked_iff (List.nodup_cons.mp inv.ring.distinct).1]
    exact inv.spare.mem_iff.mpr (List.mem_filter.mpr ⟨member, by simpa using unmarked⟩)
  · rw [List.mem_singleton.mp last]
    exact inv.sentinel

end

/-! ## Runs in which the mark is set at once -/

namespace MemheapThreads

variable {threads : MemheapThreads} {thread : ThreadId}

@[simp] theorem take_heap : (threads.take thread).heap = threads.heap := by
  unfold take
  split <;> rfl

@[simp] theorem take_live : (threads.take thread).live = threads.live := by
  unfold take
  split <;> rfl

@[simp] theorem take_phase : (threads.take thread).phase = threads.phase := by
  unfold take
  split <;> rfl

@[simp] theorem release_heap : threads.release.heap = threads.heap := by
  unfold release
  split <;> rfl

@[simp] theorem release_live : threads.release.live = threads.live := by
  unfold release
  split <;> rfl

@[simp] theorem release_phase : threads.release.phase = threads.phase := by
  unfold release
  split <;> rfl

theorem atLock_take : (threads.take thread).atLock.Perm (thread :: threads.atLock) := by
  unfold take
  split
  · rename_i free
    simp [atLock, free]
  · simp only [atLock, ← List.append_assoc]
    exact List.perm_append_singleton ..

theorem atLock_release (owner : threads.owner = some thread) :
    threads.atLock = thread :: threads.release.atLock := by
  unfold release
  split <;> simp [atLock, *]

/-- Every thread that gives a block back has the lock or waits for it. -/
def Queued (threads : MemheapThreads) : Prop :=
  ∀ thread header, threads.phase thread = .freeing header → thread ∈ threads.atLock

/-- The heap is in order, and every block that a thread is giving back is its own. -/
structure InOrder (threads : MemheapThreads) (blocks frees : List Nat) : Prop where
  heap : MemheapInv threads.heap blocks frees threads.live
  freeing : ∀ thread header, threads.phase thread = .freeing header →
    header + 24 ∈ threads.live.map Prod.fst
  apart : ∀ thread thread' header, threads.phase thread = .freeing header →
    threads.phase thread' = .freeing header → thread = thread'
  marked : ∀ thread header size, threads.phase thread ≠ .marking header size

namespace InOrder

variable {blocks frees : List Nat}

/-- A thread goes on without a block to give back. -/
theorem setPhase {phase : MemheapPhase} (inOrder : threads.InOrder blocks frees)
    (keeps : ∀ header, phase ≠ .freeing header)
    (marks : ∀ header size, phase ≠ .marking header size) :
    (threads.setPhase thread phase).InOrder blocks frees := by
  have old : ∀ other header, Function.update threads.phase thread phase other = .freeing header →
      threads.phase other = .freeing header := by
    intro other header here
    by_cases same : other = thread
    · rw [same, Function.update_self] at here
      exact absurd here (keeps header)
    · rwa [Function.update_of_ne same] at here
  refine ⟨inOrder.heap, ?_, ?_, ?_⟩
  · intro other header here
    exact inOrder.freeing other header (old other header here)
  · intro other other' header here there
    exact inOrder.apart other other' header (old other header here) (old other' header there)
  · intro other header size
    change Function.update threads.phase thread phase other ≠ _
    by_cases same : other = thread
    · rw [same, Function.update_self]
      exact marks header size
    · rw [Function.update_of_ne same]
      exact inOrder.marked other header size

/-- A thread begins to give back a pointer in use. -/
theorem setFreeing {header : Nat} (inOrder : threads.InOrder blocks frees)
    (member : header + 24 ∈ threads.live.map Prod.fst)
    (others : ∀ other, threads.phase other ≠ .freeing header) :
    (threads.setPhase thread (.freeing header)).InOrder blocks frees := by
  have either : ∀ other header', Function.update threads.phase thread (.freeing header) other =
      .freeing header' → other = thread ∧ header' = header ∨
        other ≠ thread ∧ threads.phase other = .freeing header' := by
    intro other header' here
    by_cases same : other = thread
    · rw [same, Function.update_self] at here
      exact Or.inl ⟨same, (MemheapPhase.freeing.inj here).symm⟩
    · rw [Function.update_of_ne same] at here
      exact Or.inr ⟨same, here⟩
  refine ⟨inOrder.heap, ?_, ?_, ?_⟩
  · intro other header' here
    rcases either other header' here with ⟨-, rfl⟩ | ⟨-, here⟩
    · exact member
    · exact inOrder.freeing other header' here
  · intro other other' header' here there
    rcases either other header' here with ⟨same, which⟩ | ⟨-, held⟩ <;>
      rcases either other' header' there with ⟨same', which'⟩ | ⟨-, held'⟩
    · exact same.trans same'.symm
    · exact absurd (which ▸ held') (others other')
    · exact absurd (which' ▸ held) (others other)
    · exact inOrder.apart other other' header' held held'
  · intro other header' size
    change Function.update threads.phase thread _ other ≠ _
    by_cases same : other = thread
    · rw [same, Function.update_self]
      simp
    · rw [Function.update_of_ne same]
      exact inOrder.marked other header' size

/-- The lock does not matter. -/
theorem congr {threads' : MemheapThreads} (inOrder : threads.InOrder blocks frees)
    (heap : threads'.heap = threads.heap) (live : threads'.live = threads.live)
    (phase : threads'.phase = threads.phase) : threads'.InOrder blocks frees := by
  constructor
  case heap => simpa only [heap, live] using inOrder.heap
  case freeing => simpa only [phase, live] using inOrder.freeing
  case apart => simpa only [phase] using inOrder.apart
  case marked => simpa only [phase] using inOrder.marked

/-- A thread is done, and the heap is in order again. -/
theorem finish {threads' : MemheapThreads} {blocks' frees' : List Nat}
    (inOrder : threads.InOrder blocks frees)
    (inv : MemheapInv threads'.heap blocks' frees' threads'.live)
    (phase : threads'.phase = Function.update threads.phase thread .idle)
    (keeps : ∀ other header, other ≠ thread → threads.phase other = .freeing header →
      header + 24 ∈ threads.live.map Prod.fst → header + 24 ∈ threads'.live.map Prod.fst) :
    threads'.InOrder blocks' frees' := by
  have old : ∀ other header, threads'.phase other = .freeing header →
      other ≠ thread ∧ threads.phase other = .freeing header := by
    intro other header here
    rw [phase] at here
    by_cases same : other = thread
    · rw [same, Function.update_self] at here
      cases here
    · rw [Function.update_of_ne same] at here
      exact ⟨same, here⟩
  refine ⟨inv, ?_, ?_, ?_⟩
  · intro other header here
    obtain ⟨differs, here⟩ := old other header here
    exact keeps other header differs here (inOrder.freeing other header here)
  · intro other other' header here there
    exact inOrder.apart other other' header (old other header here).2 (old other' header there).2
  · intro other header size
    rw [phase]
    by_cases same : other = thread
    · rw [same, Function.update_self]
      simp
    · rw [Function.update_of_ne same]
      exact inOrder.marked other header size

/-- One step of one thread. -/
theorem step {action : MemheapAction} {next : MemheapThreads} {returned : List Nat}
    (inOrder : threads.InOrder blocks frees) (queued : threads.Queued)
    (owns : threads.OwnsArgument action) (runsOn : threads.RunsOn action)
    (transition : memheapThreads.step threads action = some (next, returned)) :
    ∃ blocks' frees', next.InOrder blocks' frees' := by
  cases action with
  | enter thread call =>
      cases call with
      | alloc size =>
          obtain ⟨-, transition⟩ := Option.ite_none_right_eq_some.mp transition
          split at transition
          · obtain ⟨rfl, -⟩ := Prod.mk.inj (Option.some_inj.mp transition)
            have moved := @setPhase threads thread blocks frees (.allocating size) inOrder
              (by simp) (by simp)
            exact ⟨blocks, frees, moved.congr take_heap take_live take_phase⟩
          · obtain ⟨rfl, -⟩ := Prod.mk.inj (Option.some_inj.mp transition)
            exact ⟨blocks, frees, inOrder⟩
      | free ptr =>
          obtain ⟨-, transition⟩ := Option.ite_none_right_eq_some.mp transition
          obtain ⟨rfl, -⟩ := Prod.mk.inj (Option.some_inj.mp transition)
          obtain ⟨member, others⟩ := owns
          obtain ⟨block, here, used, rfl⟩ := inOrder.heap.exists_block member
          rw [Nat.add_sub_cancel] at others ⊢
          refine ⟨blocks, frees, InOrder.congr ?_ take_heap take_live take_phase⟩
          refine inOrder.setFreeing member fun other busy => ?_
          exact others other (queued other block busy) busy
  | run thread switched =>
      obtain ⟨-, transition⟩ := Option.ite_none_right_eq_some.mp transition
      cases phase : threads.phase thread with
      | idle => simp [phase] at transition
      | marking header size => simp [phase] at transition
      | allocating size =>
          have stays : switched = false := by
            by_contra switches
            exact runsOn (by simpa using switches) size phase
          obtain ⟨heap, found, taken, either⟩ := inOrder.heap.takeBlock size
          simp only [phase, taken, Option.map_some, Option.some.injEq] at transition
          rcases either with ⟨rfl, rfl⟩ | ⟨header, rfl, blocks', frees', inv⟩
          · obtain ⟨rfl, -⟩ := Prod.mk.inj transition
            have moved := @setPhase threads thread blocks frees .idle inOrder (by simp) (by simp)
            exact ⟨blocks, frees, moved.congr release_heap release_live
              (by simp [MemheapThreads.setPhase])⟩
          · rw [stays] at transition
            obtain ⟨rfl, -⟩ := Prod.mk.inj transition
            refine ⟨blocks', frees', @finish threads thread _ _ _ _ _ inOrder ?_ ?_ ?_⟩
            · simpa [handOut, MemheapThreads.setPhase] using inv
            · simp [handOut, MemheapThreads.setPhase]
            · intro other header' _ _ member
              simpa [handOut, MemheapThreads.setPhase] using Or.inr (List.mem_map.mp member)
      | freeing header =>
          simp only [phase, Option.some.injEq] at transition
          obtain ⟨rfl, -⟩ := Prod.mk.inj transition
          obtain ⟨block, here, used, same⟩ :=
            inOrder.heap.exists_block (inOrder.freeing thread header phase)
          obtain rfl : header = block := by omega
          obtain ⟨left, right, rfl⟩ := List.append_of_mem here
          obtain ⟨blocks', frees', inv⟩ := inOrder.heap.giveBlock used
          refine ⟨blocks', frees', @finish threads thread _ _ _ _ _ inOrder ?_ ?_ ?_⟩
          · simpa [MemheapThreads.setPhase] using inv
          · simp [MemheapThreads.setPhase]
          · intro other header' differs there member
            obtain ⟨entry, held, place⟩ := List.mem_map.mp member
            have apart : header' ≠ header := by
              rintro rfl
              exact differs (inOrder.apart other thread header' there phase)
            refine List.mem_map.mpr ⟨entry, ?_, place⟩
            rw [MemheapThreads.setPhase, release_live]
            exact List.mem_filter.mpr ⟨held, by simp; omega⟩
  | mark thread =>
      have idle := inOrder.marked thread
      simp only [memheapThreads] at transition
      cases transition

end InOrder

/-- A thread which is not at the lock any more gives nothing back. -/
theorem Queued.setPhase {threads' : MemheapThreads} {phase : MemheapPhase}
    (queued : threads.Queued) (phases : threads'.phase = Function.update threads.phase thread phase)
    (here : ∀ header, phase = .freeing header → thread ∈ threads'.atLock)
    (others : ∀ other ∈ threads.atLock, other ≠ thread → other ∈ threads'.atLock) :
    threads'.Queued := by
  intro other header busy
  rw [phases] at busy
  by_cases same : other = thread
  · rw [same, Function.update_self] at busy
    exact same ▸ here header busy
  · rw [Function.update_of_ne same] at busy
    exact others other (queued other header busy) same

theorem Queued.step {action : MemheapAction} {next : MemheapThreads} {returned : List Nat}
    (queued : threads.Queued)
    (transition : memheapThreads.step threads action = some (next, returned)) : next.Queued := by
  have enters : ∀ thread phase, ((threads.setPhase thread phase).take thread).Queued := by
    intro thread phase
    refine queued.setPhase take_phase (fun _ _ => ?_) fun other member _ => ?_
    · exact atLock_take.mem_iff.mpr List.mem_cons_self
    · exact atLock_take.mem_iff.mpr (List.mem_cons_of_mem _ member)
  cases action with
  | enter thread call =>
      cases call with
      | alloc size =>
          obtain ⟨-, transition⟩ := Option.ite_none_right_eq_some.mp transition
          split at transition <;> obtain ⟨rfl, -⟩ := Prod.mk.inj (Option.some_inj.mp transition)
          · exact enters thread _
          · exact queued
      | free ptr =>
          obtain ⟨-, transition⟩ := Option.ite_none_right_eq_some.mp transition
          obtain ⟨rfl, -⟩ := Prod.mk.inj (Option.some_inj.mp transition)
          exact enters thread _
  | run thread switched =>
      obtain ⟨owner, transition⟩ := Option.ite_none_right_eq_some.mp transition
      -- the lock goes to the next thread, and this one is done with it
      have leaves : ∀ (threads' : MemheapThreads) heap live phase,
          threads'.atLock = { threads with heap := heap, live := live }.release.atLock →
          threads'.phase = Function.update threads.phase thread phase →
          (∀ header, phase ≠ .freeing header) → threads'.Queued := by
        intro threads' heap live phase lock phases done
        refine queued.setPhase phases (fun header busy => absurd busy (done header)) ?_
        intro other member differs
        rw [lock]
        have queue := @atLock_release { threads with heap := heap, live := live } thread owner
        change threads.atLock = _ at queue
        rw [queue] at member
        exact (List.mem_cons.mp member).resolve_left differs
      cases phase : threads.phase thread with
      | idle => simp [phase] at transition
      | marking header size => simp [phase] at transition
      | allocating size =>
          simp only [phase, Option.map_eq_some_iff] at transition
          obtain ⟨⟨heap, found⟩, -, transition⟩ := transition
          cases found with
          | none =>
              obtain ⟨rfl, -⟩ := Prod.mk.inj transition
              exact leaves _ heap threads.live .idle rfl (by simp [MemheapThreads.setPhase]) nofun
          | some header =>
              dsimp only at transition
              split at transition <;> obtain ⟨rfl, -⟩ := Prod.mk.inj transition
              · exact leaves _ heap threads.live (.marking header size) rfl
                  (by simp [MemheapThreads.setPhase]) nofun
              · exact leaves _ heap threads.live .idle rfl
                  (by simp [handOut, MemheapThreads.setPhase]) nofun
      | freeing header =>
          simp only [phase, Option.some.injEq] at transition
          obtain ⟨rfl, -⟩ := Prod.mk.inj transition
          exact leaves _ (threads.heap.giveBlock header)
            (threads.live.filter fun entry => entry.1 ≠ header + 24) .idle rfl
            (by simp [MemheapThreads.setPhase]) nofun
  | mark thread =>
      cases phase : threads.phase thread with
      | marking header size =>
          simp only [memheapThreads, phase, Option.some.injEq] at transition
          obtain ⟨rfl, -⟩ := Prod.mk.inj transition
          exact @setPhase threads thread _ .idle queued rfl nofun fun _ member _ => member
      | _ => simp [memheapThreads, phase] at transition

end MemheapThreads

/-- No thread has called yet. -/
def MemheapThreads.start (heap : Memheap) : MemheapThreads :=
  ⟨heap, none, [], fun _ => .idle, []⟩

/-- As long as no allocation is switched out between the release of the lock and the
used mark, all blocks that are not on the free list are marked whenever nobody has the
lock, and blocks in use are marked all the time, so that none of them is merged. -/
theorem lock_protects_marks {self header startAddr : Nat} {magic : Nat → BitVec 32}
    {poolPtr : Nat → Nat} {blocks frees : Links Nat} {size : BitVec 32}
    {actions : List MemheapAction} {pointers : List Nat} {threads : MemheapThreads}
    (enough : 48 ≤ size.toNat) (outside : header < startAddr ∨ startAddr + size.toNat ≤ header)
    (run : memheapThreads.Run
      (fun threads action => threads.OwnsArgument action ∧ threads.RunsOn action)
      (.start (rtMemheapInit self header magic poolPtr blocks frees startAddr size)) actions pointers
      threads) :
    threads.Marked ∧ ∀ entry ∈ threads.live, threads.heap.isUsed (entry.1 - 24) = true := by
  obtain ⟨-, blocks', frees', inOrder⟩ := @Machine.Run.invariant _ _ _ _ _ _ _ _ _
    (fun threads => threads.Queued ∧ ∃ blocks' frees', threads.InOrder blocks' frees') run
    ⟨nofun, _, _, rtMemheapInit_inv enough outside, nofun, nofun, nofun⟩ (by
      rintro state action next returned ⟨queued, blocks', frees', inOrder⟩ ⟨owns, runsOn⟩ transition
      exact ⟨queued.step transition, inOrder.step queued owns runsOn transition⟩)
  constructor
  · intro _ block reached loose
    exact inOrder.heap.marked reached loose
  · intro entry member
    obtain ⟨block, -, used, same⟩ := inOrder.heap.exists_block (List.mem_map_of_mem member)
    rwa [same, Nat.add_sub_cancel]

instance (threads : MemheapThreads) (action : MemheapAction) :
    Decidable (threads.OwnsArgument action) :=
  match action with
  | .enter _ (.free _) => inferInstanceAs (Decidable (_ ∧ ∀ thread ∈ _, _ ≠ _))
  | .enter _ (.alloc _) | .run _ _ | .mark _ => inferInstanceAs (Decidable True)

instance (threads : MemheapThreads) (action : MemheapAction) :
    Decidable (threads.RunsOn action) :=
  match action with
  | .enter _ _ | .mark _ => inferInstanceAs (Decidable True)
  | .run thread switched =>
      if switches : switched = true then
        match phase : threads.phase thread with
        | .allocating size => isFalse fun runsOn => runsOn switches size phase
        | .idle | .marking _ _ | .freeing _ => isTrue (by simp [MemheapThreads.RunsOn, phase])
      else isTrue fun here => absurd here switches

/-- A thread takes two blocks and gives the first one back, while another one waits. -/
theorem lock_protects_marks_two_threads : ∃ threads pointers,
    memheapThreads.Run (fun threads action => threads.OwnsArgument action ∧ threads.RunsOn action)
      (.start kilobyte) [.enter 1 (.alloc 40#32), .run 1 false, .enter 1 (.alloc 40#32),
        .run 1 false, .enter 1 (.free 4120), .enter 2 (.alloc 40#32), .run 1 false, .run 2 false]
      pointers threads ∧
    threads.live = [(4120, 40#32), (4184, 40#32)] ∧ threads.Marked := by
  have executed : ((memheapThreads.restrict fun threads action =>
      threads.OwnsArgument action ∧ threads.RunsOn action).execute (.start kilobyte)
      [.enter 1 (.alloc 40#32), .run 1 false, .enter 1 (.alloc 40#32), .run 1 false,
        .enter 1 (.free 4120), .enter 2 (.alloc 40#32), .run 1 false, .run 2 false]).map
        (fun (threads, _) => threads.live) = some [(4120, 40#32), (4184, 40#32)] := by
    decide +kernel
  obtain ⟨⟨threads, pointers⟩, result, live⟩ := Option.map_eq_some_iff.mp executed
  have run := Machine.run_of_execute_restrict result
  exact ⟨threads, pointers, run, live, (lock_protects_marks (by decide) (by decide) run).1⟩

/-- The block at `0x1000` is taken and not marked yet when the block behind it is given
back: the two are merged, and nothing is left on the free list. -/
theorem lock_released_too_early : ∃ threads pointers,
    memheapThreads.Run MemheapThreads.OwnsArgument (.start kilobyte)
      [.enter 1 (.alloc 40#32), .run 1 false, .enter 1 (.alloc 40#32), .run 1 false,
        .enter 1 (.free 4120), .run 1 false, .enter 1 (.alloc 40#32), .enter 2 (.free 4184),
        .run 1 true, .run 2 false] pointers threads ∧ ¬ threads.Marked := by
  have executed : ((memheapThreads.restrict MemheapThreads.OwnsArgument).execute (.start kilobyte)
      [.enter 1 (.alloc 40#32), .run 1 false, .enter 1 (.alloc 40#32), .run 1 false,
        .enter 1 (.free 4120), .run 1 false, .enter 1 (.alloc 40#32), .enter 2 (.free 4184),
        .run 1 true, .run 2 false]).map (fun (threads, _) =>
          (threads.owner, threads.heap.blockList, threads.heap.isUsed 0x1000,
            threads.heap.freeList, threads.heap.frees.next 16, threads.heap.frees.prev 16)) =
        some (none, 0x1000, false, 16, 16, 16) := by decide +kernel
  obtain ⟨⟨threads, pointers⟩, result, values⟩ := Option.map_eq_some_iff.mp executed
  simp only [Prod.mk.injEq] at values
  obtain ⟨owner, blockList, unmarked, freeList, nobody⟩ := values
  refine ⟨threads, pointers, Machine.run_of_execute_restrict result, fun marked => ?_⟩
  have used := marked owner 0x1000 ⟨0, blockList⟩ ?_
  · rw [unmarked] at used
    cases used
  · rw [freeList, @Links.Segment.linked_iff _ threads.heap.frees 16 [] nobody (by simp)]
    simp

end RtThread
