import RtThread.Std.Custody
import RtThread.Kernel.MessageQueue

/-!
# The nodes of a message queue

Every node of the pool is on the free list, in the queue or in the hands of one
call, and `entry` and `msg_queue_tail` fit the queue. Each section keeps this.
-/

namespace RtThread

open RtThread.Std

/-- The addresses of the messages of the pool. -/
def MessageQueue.messages (mq : MessageQueue) : List Nat :=
  (List.range mq.maxMsgs.toNat).map mq.message

/-- What `rt_mq_init` has fixed: where the pool is, and the size and the number of
its messages. -/
def MessageQueue.pool (mq : MessageQueue) : Nat × BitVec 16 × BitVec 16 :=
  (mq.msgPool, mq.msgSize, mq.maxMsgs)

theorem MessageQueue.msgSize_congr {mq mq' : MessageQueue} (same : mq'.pool = mq.pool) :
    mq'.msgSize = mq.msgSize :=
  congrArg (fun pool => pool.2.1) same

theorem MessageQueue.messages_congr {mq mq' : MessageQueue} (same : mq'.pool = mq.pool) :
    mq'.messages = mq.messages := by
  obtain ⟨samePool, same⟩ := Prod.mk.inj same
  obtain ⟨sameSize, sameCount⟩ := Prod.mk.inj same
  simp only [MessageQueue.messages, sameCount]
  congr 1
  funext temp
  rw [MessageQueue.message, samePool, sameSize, MessageQueue.message]

theorem MessageQueue.message_injective (mq : MessageQueue) : Function.Injective mq.message := by
  intro temp temp' same
  have equal : temp * (mq.msgSize.toNat + 4) = temp' * (mq.msgSize.toNat + 4) :=
    Nat.add_left_cancel same
  exact Nat.eq_of_mul_eq_mul_right (by omega) equal

theorem MessageQueue.messages_nodup (mq : MessageQueue) : mq.messages.Nodup :=
  List.nodup_range.map mq.message_injective

/-- The lists are where the pointers lead; everything else is in somebody's hands. -/
structure MqLists (mq : MessageQueue) (hands : Context → Option Nat) (free queue : List Nat) :
    Prop where
  freeChain : Chain mq.next 0 mq.msgQueueFree free
  queueChain : Chain mq.next 0 mq.msgQueueHead queue
  tail : mq.msgQueueTail = queue.getLast?.getD 0
  entry : mq.entry.toNat = queue.length
  custody : Custody hands (free ++ queue) mq.messages
  pool : 0 < mq.msgPool

namespace MqLists

variable {mq : MessageQueue} {hands : Context → Option Nat} {free queue rest : List Nat}
  {context : Context} {msg : Nat}

theorem nonnull (lists : MqLists mq hands free queue) (member : msg ∈ mq.messages) : msg ≠ 0 := by
  obtain ⟨temp, -, rfl⟩ := List.mem_map.mp member
  have pool := lists.pool
  rw [MessageQueue.message]
  omega

theorem apart (lists : MqLists mq hands free queue) (held : hands context = some msg) :
    msg ∉ free ∧ msg ∉ queue := by
  have outside := lists.custody.notMem_listed mq.messages_nodup held
  rwa [List.mem_append, not_or] at outside

theorem held_ne_zero (lists : MqLists mq hands free queue) (held : hands context = some msg) :
    msg ≠ 0 :=
  lists.nonnull (lists.custody.held_mem_all held)

theorem nodup (lists : MqLists mq hands free queue) : (free ++ queue).Nodup :=
  lists.custody.nodup_listed mq.messages_nodup

/-- The counter has room for a node that is in somebody's hands. -/
theorem room (lists : MqLists mq hands free queue) (held : hands context = some msg) :
    (mq.entry + 1#16).toNat = queue.length + 1 := by
  have fewer := lists.custody.length_lt held
  rw [List.length_append, MessageQueue.messages, List.length_map, List.length_range] at fewer
  have bound := mq.maxMsgs.isLt
  have entry := lists.entry
  rw [BitVec.toNat_add]
  simp only [BitVec.toNat_ofNat]
  omega

/-- Writing the pointer of a node in somebody's hands moves no list. -/
theorem setNext (lists : MqLists mq hands free queue) (held : hands context = some msg)
    (target : Nat) :
    MqLists { mq with next := Function.update mq.next msg target } hands free queue := by
  obtain ⟨notFree, notQueue⟩ := lists.apart held
  exact ⟨lists.freeChain.update notFree target, lists.queueChain.update notQueue target,
    lists.tail, lists.entry, lists.custody, lists.pool⟩

/-- A call takes the first free node. -/
theorem takeFree (lists : MqLists mq hands free queue) (idle : hands context = none)
    (some_ : mq.msgQueueFree ≠ 0) :
    ∃ rest, free = mq.msgQueueFree :: rest ∧
      MqLists mq.takeFree (Function.update hands context (some mq.msgQueueFree)) rest queue := by
  obtain ⟨rest, rfl, tail⟩ := lists.freeChain.exists_cons some_
  exact ⟨rest, rfl, tail, lists.queueChain, lists.tail, lists.entry,
    lists.custody.take (List.Perm.refl _) idle, lists.pool⟩

/-- A call puts its node on the free list. -/
theorem putFree (lists : MqLists mq hands free queue) (held : hands context = some msg) :
    MqLists (mq.putFree msg) (Function.update hands context none) (msg :: free) queue := by
  obtain ⟨notFree, notQueue⟩ := lists.apart held
  exact ⟨lists.freeChain.push notFree (lists.held_ne_zero held),
    lists.queueChain.update notQueue _, lists.tail, lists.entry,
    lists.custody.give held (List.Perm.refl _), lists.pool⟩

theorem tail_ne_zero_iff (lists : MqLists mq hands free queue) :
    mq.msgQueueTail ≠ 0 ↔ queue ≠ [] := by
  rw [lists.tail]
  cases last : queue.getLast? with
  | none => simp [List.getLast?_eq_none_iff.mp last]
  | some node =>
      have member := List.mem_of_getLast? last
      have nonnull := lists.nonnull (lists.custody.mem_all (List.mem_append_right _ member))
      exact iff_of_true nonnull (List.ne_nil_of_mem member)

/-- A call hangs its node behind the queue. -/
theorem linkTail (lists : MqLists mq hands free queue) (held : hands context = some msg)
    (cleared : mq.next msg = 0) :
    MqLists (mq.linkTail msg) (Function.update hands context none) free (queue ++ [msg]) := by
  obtain ⟨notFree, notQueue⟩ := lists.apart held
  have nonnull := lists.held_ne_zero held
  have custody : Custody (Function.update hands context none) (free ++ (queue ++ [msg]))
      mq.messages := by
    refine lists.custody.give held ?_
    rw [← List.append_assoc]
    exact List.perm_append_singleton msg _
  by_cases occupied : queue = []
  · subst occupied
    have noTail : mq.msgQueueTail = 0 := lists.tail
    have noHead : mq.msgQueueHead = 0 := lists.queueChain
    refine ⟨?_, ?_, ?_, ?_, ?_, ?_⟩ <;> simp only [MessageQueue.linkTail, noTail, noHead,
      ne_eq, not_true_eq_false, if_false, if_true]
    · exact lists.freeChain
    · exact ⟨rfl, nonnull, cleared⟩
    · rfl
    · exact lists.room held
    · exact custody
    · exact lists.pool
  · have hasTail := lists.tail_ne_zero_iff.mpr occupied
    have hasHead := lists.queueChain.head_eq_null_iff.not.mpr occupied
    obtain ⟨before, last, rfl⟩ := (List.eq_nil_or_concat' queue).resolve_left occupied
    have tail : mq.msgQueueTail = last := by
      rw [lists.tail]
      simp
    have distinct := (List.nodup_append.mp lists.nodup).2.1
    refine ⟨?_, ?_, ?_, ?_, ?_, ?_⟩ <;> simp only [MessageQueue.linkTail, hasTail, hasHead,
      ne_eq, not_false_eq_true, if_true, if_false]
    · refine lists.freeChain.update ?_ _
      rw [tail]
      intro member
      exact (List.nodup_append.mp lists.nodup).2.2 _ member _ (by simp) rfl
    · rw [tail, List.append_assoc]
      refine lists.queueChain.append distinct ⟨rfl, nonnull, cleared⟩ ?_
      rintro member
      obtain rfl : last = msg := List.mem_singleton.mp member
      simp at notQueue
    · simp
    · rw [List.length_append]
      exact lists.room held
    · exact custody
    · exact lists.pool

/-- A call puts its node in front of the queue. -/
theorem linkHead (lists : MqLists mq hands free queue) (held : hands context = some msg) :
    MqLists (mq.linkHead msg) (Function.update hands context none) free (msg :: queue) := by
  obtain ⟨notFree, notQueue⟩ := lists.apart held
  have nonnull := lists.held_ne_zero held
  have custody : Custody (Function.update hands context none) (free ++ msg :: queue) mq.messages :=
    lists.custody.give held List.perm_middle
  have tail : (if mq.msgQueueTail = 0 then msg else mq.msgQueueTail) =
      (msg :: queue).getLast?.getD 0 := by
    by_cases occupied : queue = []
    · subst occupied
      have noTail : mq.msgQueueTail = 0 := lists.tail
      rw [if_pos noTail]
      rfl
    · rw [if_neg (lists.tail_ne_zero_iff.mpr occupied), lists.tail,
        List.getLast?_cons_of_ne_nil occupied]
  have fields : mq.linkHead msg = { mq with
      next := Function.update mq.next msg mq.msgQueueHead
      msgQueueHead := msg
      msgQueueTail := if mq.msgQueueTail = 0 then msg else mq.msgQueueTail
      entry := mq.entry + 1#16 } := by
    unfold MessageQueue.linkHead
    dsimp only
    split <;> rfl
  rw [fields]
  exact ⟨lists.freeChain.update notFree _, lists.queueChain.push notQueue nonnull, tail,
    lists.room held, custody, lists.pool⟩

/-- The head moves to the next node. -/
theorem advanceHead (lists : MqLists mq hands free (msg :: queue)) :
    mq.msgQueueHead = msg ∧ Chain mq.next 0 mq.advanceHead.msgQueueHead queue ∧
      mq.advanceHead.msgQueueTail = queue.getLast?.getD 0 := by
  obtain ⟨head, -, chain⟩ := lists.queueChain
  have same : mq.advanceHead.msgQueueHead = mq.next msg := congrArg mq.next head
  refine ⟨head, by rwa [same], ?_⟩
  have distinct := (List.nodup_append.mp lists.nodup).2.1
  change (if mq.msgQueueTail = mq.msgQueueHead then 0 else mq.msgQueueTail) = _
  rw [lists.tail, head]
  cases last : queue.getLast? with
  | none =>
      obtain rfl := List.getLast?_eq_none_iff.mp last
      simp
  | some node =>
      have member := List.mem_of_getLast? last
      have apart : node ≠ msg := fun equal =>
        (List.nodup_cons.mp distinct).1 (equal ▸ member)
      rw [List.getLast?_cons_of_ne_nil (List.ne_nil_of_mem member), last]
      simp [apart]

/-- A call takes the first queued node. -/
theorem unlinkHead (lists : MqLists mq hands free queue) (idle : hands context = none)
    (nonempty : mq.entry ≠ 0#16) :
    ∃ rest, queue = mq.msgQueueHead :: rest ∧
      MqLists mq.unlinkHead (Function.update hands context (some mq.msgQueueHead)) free rest := by
  have entry := lists.entry
  cases queue with
  | nil => exact absurd (BitVec.eq_of_toNat_eq entry) nonempty
  | cons msg rest =>
      obtain ⟨head, chain, tail⟩ := lists.advanceHead
      refine ⟨rest, by rw [head], lists.freeChain, chain, tail, ?_, ?_, lists.pool⟩
      · change (mq.entry - 1#16).toNat = rest.length
        rw [List.length_cons] at entry
        bv_omega
      · rw [head]
        exact lists.custody.take List.perm_middle idle

/-- One round of the loop of `RT_IPC_CMD_RESET`, which does not count. -/
theorem release (lists : MqLists mq hands free (msg :: rest)) :
    MqLists { mq.advanceHead.putFree msg with entry := mq.entry - 1#16 } hands (msg :: free)
      rest := by
  obtain ⟨-, chain, tail⟩ := lists.advanceHead
  have entry := lists.entry
  obtain ⟨-, distinct, apart⟩ := List.nodup_append.mp lists.nodup
  have notRest := (List.nodup_cons.mp distinct).1
  have notFree : msg ∉ free := fun member => apart msg member msg (by simp) rfl
  have member : msg ∈ free ++ msg :: rest := by simp
  have nonnull := lists.nonnull (lists.custody.mem_all member)
  refine ⟨lists.freeChain.push notFree nonnull, chain.update notRest _, tail, ?_,
    lists.custody.perm List.perm_middle.symm, lists.pool⟩
  change (mq.entry - 1#16).toNat = rest.length
  rw [List.length_cons] at entry
  bv_omega

/-- The loop of `RT_IPC_CMD_RESET` puts every queued node on the free list. -/
theorem releaseMessages {count : BitVec 16}
    (lists : MqLists { mq with entry := count } hands free queue) :
    ∃ released, mq.releaseMessages = some released ∧
      MqLists { released with entry := 0 } hands (queue.reverse ++ free) [] ∧
      released.data = mq.data ∧ released.pool = mq.pool ∧
      ∀ context msg, hands context = some msg → released.next msg = mq.next msg := by
  induction queue generalizing mq free count with
  | nil =>
      have noHead : mq.msgQueueHead = 0 := lists.queueChain
      rw [MessageQueue.releaseMessages, if_pos noHead]
      have empty : count = 0#16 := BitVec.eq_of_toNat_eq lists.entry
      subst empty
      exact ⟨mq, rfl, lists, rfl, rfl, fun _ _ _ => rfl⟩
  | cons msg queue ih =>
      obtain ⟨head, -⟩ := lists.queueChain
      have nonnull : mq.msgQueueHead ≠ 0 :=
        lists.queueChain.head_eq_null_iff.not.mpr (by simp)
      have head' : mq.msgQueueHead = msg := head
      rw [MessageQueue.releaseMessages, if_neg nonnull, head']
      obtain ⟨released, loop, lists', data, size, next⟩ :=
        @ih (mq.advanceHead.putFree msg) (msg :: free) (count - 1#16) lists.release
      refine ⟨released, loop, ?_, data, size, ?_⟩
      · rw [List.reverse_cons, List.append_assoc]
        exact lists'
      · intro context other held
        refine (next context other held).trans (Function.update_of_ne ?_ ..)
        rintro rfl
        exact (lists.apart held).2 (by simp)

end MqLists

/-! ## Setting up a queue -/

theorem MessageQueue.initFree_fields (mq : MessageQueue) (count : Nat) :
    (mq.initFree count).pool = mq.pool ∧ (mq.initFree count).entry = mq.entry ∧
      (mq.initFree count).msgQueueHead = mq.msgQueueHead ∧
      (mq.initFree count).msgQueueTail = mq.msgQueueTail := by
  induction count with
  | zero => exact ⟨rfl, rfl, rfl, rfl⟩
  | succ count ih => exact ih

/-- The loop of `rt_mq_init` links all messages, the last one first. -/
theorem MessageQueue.initFree_chain (mq : MessageQueue) (pool : 0 < mq.msgPool) (count : Nat) :
    Chain (mq.initFree count).next 0 (mq.initFree count).msgQueueFree
      ((List.range count).map mq.message).reverse := by
  induction count with
  | zero => rfl
  | succ count ih =>
      obtain ⟨same, -⟩ := mq.initFree_fields count
      obtain ⟨samePool, same⟩ := Prod.mk.inj same
      obtain ⟨sameSize, -⟩ := Prod.mk.inj same
      have same : (mq.initFree count).message count = mq.message count := by
        rw [MessageQueue.message, samePool, sameSize, MessageQueue.message]
      rw [List.range_succ, List.map_append, List.reverse_append, MessageQueue.initFree]
      dsimp only
      rw [same]
      refine ih.push ?_ ?_
      · rw [List.mem_reverse, List.mem_map]
        rintro ⟨temp, member, equal⟩
        have less := List.mem_range.mp member
        exact absurd (mq.message_injective equal) (by omega)
      · rw [MessageQueue.message]
        omega

/-- A queue that has been set up has all its nodes on the free list. -/
theorem MqLists.initial (mq : MessageQueue) (pool : 0 < mq.msgPool) (empty : mq.entry = 0)
    (noHead : mq.msgQueueHead = 0) (noTail : mq.msgQueueTail = 0) :
    MqLists (mq.initFree mq.maxMsgs.toNat) (fun _ => none)
      (mq.initFree mq.maxMsgs.toNat).messages.reverse [] := by
  obtain ⟨samePool, sameEntry, sameHead, sameTail⟩ := mq.initFree_fields mq.maxMsgs.toNat
  rw [MessageQueue.messages_congr samePool]
  refine ⟨mq.initFree_chain pool _, sameHead.trans noHead, sameTail.trans noTail, ?_, ?_, ?_⟩
  · rw [sameEntry, empty]
    rfl
  · rw [MessageQueue.messages_congr samePool]
    refine ⟨[], List.nodup_nil, by simp, ?_⟩
    simp
  · rwa [show (mq.initFree mq.maxMsgs.toNat).msgPool = mq.msgPool from congrArg Prod.fst samePool]

end RtThread
