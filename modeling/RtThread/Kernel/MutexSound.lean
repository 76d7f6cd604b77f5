import RtThread.Kernel.MutexSystem

/-!
# Owners and waiters

What every run of mutex calls keeps: a mutex is free or has an owner, nobody
waits for a free mutex, and whoever waits is suspended inside `rt_mutex_take`.
-/

namespace RtThread

open RtThread.Std

/-- A mutex is free, and then nobody waits for it, or it has an owner. -/
def MutexView.Settled (seen : MutexView) (mutex : Nat) : Prop :=
  ((seen.mutexes mutex).value = 1#16 ∧ (seen.mutexes mutex).owner = none ∧
      (seen.mutexes mutex).hold = 0#8 ∧ ∀ thread, seen.waits thread ≠ some (.mutex mutex)) ∨
    ((seen.mutexes mutex).value = 0#16 ∧ ∃ owner, (seen.mutexes mutex).owner = some owner)

structure MutexSound (state : MutexState) : Prop where
  waiting : ∀ thread list, state.view.waits thread = some list →
    state.view.stat thread = .suspend
  pending : ∀ thread mutex, state.view.waits thread = some (.mutex mutex) →
    state.phase thread = .taking mutex ∧ state.view.error thread = .eok
  begun : ∀ thread, state.phase thread ≠ .idle → state.view.stat thread ≠ .init
  owners : ∀ mutex thread, (state.view.mutexes mutex).owner = some thread →
    state.view.stat thread ≠ .init
  settled : ∀ mutex, state.view.Settled mutex

theorem MutexSound.initial (config : Config) :
    MutexSound ⟨view config.kernel fun _ => none, fun _ => .idle⟩ := by
  constructor
  · intro thread list there
    cases there
  · intro thread mutex there
    cases there
  · intro thread busy
    exact absurd rfl busy
  · intro mutex thread owned
    cases owned
  · intro mutex
    exact Or.inl ⟨rfl, rfl, rfl, fun _ there => nomatch there⟩

namespace MutexSound

variable {state : MutexState} {thread : ThreadId} {mutex : Nat}

theorem not_waiting (sound : MutexSound state) (stat : state.view.stat thread ≠ .suspend)
    (list : WaitList) : state.view.waits thread ≠ some list :=
  fun there => stat (sound.waiting thread list there)

/-- A mutex that is available has no owner and no waiters. -/
theorem free_of_available (sound : MutexSound state)
    (available : (state.view.mutexes mutex).value ≠ 0#16) :
    (state.view.mutexes mutex).value = 1#16 ∧ (state.view.mutexes mutex).owner = none ∧
      (state.view.mutexes mutex).hold = 0#8 ∧
      ∀ thread, state.view.waits thread ≠ some (.mutex mutex) := by
  rcases sound.settled mutex with free | ⟨taken, -⟩
  · exact free
  · exact absurd taken available

theorem value_of_owned (sound : MutexSound state)
    (owned : (state.view.mutexes mutex).owner = some thread) :
    (state.view.mutexes mutex).value = 0#16 := by
  rcases sound.settled mutex with ⟨-, unowned, -⟩ | ⟨taken, -⟩
  · exact nomatch unowned.symm.trans owned
  · exact taken

/-! ## One step -/

/-- A thread that waits for no mutex changes its own record and phase. -/
theorem own {after : MutexView} (phase : Phase) (sound : MutexSound state)
    (awake : ∀ mutex, state.view.waits thread ≠ some (.mutex mutex))
    (started : state.view.stat thread ≠ .init)
    (stat : ∀ other, after.stat other = state.view.stat other ∨
      other = thread ∧ after.stat other = .suspend)
    (error : ∀ other, other ≠ thread → after.error other = state.view.error other)
    (waits : after.waits = state.view.waits) (mutexes : after.mutexes = state.view.mutexes) :
    MutexSound ⟨after, Function.update state.phase thread phase⟩ := by
  have stays : ∀ other, state.view.stat other ≠ .init → after.stat other ≠ .init := by
    intro other old
    rcases stat other with same | ⟨-, suspended⟩
    · rwa [same]
    · simp [suspended]
  constructor
  · intro other list there
    have there' : state.view.waits other = some list := by rwa [← waits]
    rcases stat other with same | ⟨-, suspended⟩
    · exact same.trans (sound.waiting other list there')
    · exact suspended
  · intro other mutex there
    have there' : state.view.waits other = some (.mutex mutex) := by rwa [← waits]
    have apart : other ≠ thread := by
      rintro rfl
      exact awake mutex there'
    simpa [apart, error other apart] using sound.pending other mutex there'
  · intro other busy
    by_cases same : other = thread
    · subst same
      exact stays other started
    · exact stays other (sound.begun other (by simpa [same] using busy))
  · intro mutex other owned
    exact stays other (sound.owners mutex other (by rwa [← mutexes]))
  · intro mutex
    simpa [MutexView.Settled, waits, mutexes] using sound.settled mutex

/-- Change the record of a mutex to one that is settled and whose owner has been
started. -/
theorem setMutex (sound : MutexSound state) (mutex : Nat) (record : Mutex)
    (owner : ∀ thread, record.owner = some thread → state.view.stat thread ≠ .init)
    (settled : (state.view.setMutex mutex record).Settled mutex) :
    MutexSound ⟨state.view.setMutex mutex record, state.phase⟩ := by
  refine ⟨sound.waiting, sound.pending, sound.begun, ?_, ?_⟩
  · intro other thread owned
    by_cases same : other = mutex
    · subst same
      exact owner thread (by simpa using owned)
    · exact sound.owners other thread (by simpa [same] using owned)
  · intro other
    by_cases same : other = mutex
    · subst same
      exact settled
    · simpa [MutexView.Settled, same] using sound.settled other

/-- A suspended thread inside `rt_mutex_take` is put on the suspend list. -/
theorem setWaits (sound : MutexSound state) (suspended : state.view.stat thread = .suspend)
    (taking : state.phase thread = .taking mutex) (error : state.view.error thread = .eok)
    (taken : (state.view.mutexes mutex).value = 0#16) :
    MutexSound ⟨state.view.setWaits thread (some (.mutex mutex)), state.phase⟩ := by
  refine ⟨?_, ?_, sound.begun, sound.owners, ?_⟩
  · intro other list there
    by_cases same : other = thread
    · exact same ▸ suspended
    · exact sound.waiting other list (by simpa [same] using there)
  · intro other mutex' there
    by_cases same : other = thread
    · subst same
      obtain rfl : mutex = mutex' := by simpa using there
      exact ⟨taking, error⟩
    · exact sound.pending other mutex' (by simpa [same] using there)
  · intro mutex'
    rcases sound.settled mutex' with ⟨available, unowned, unheld, nobody⟩ | owned
    · have apart : mutex ≠ mutex' := by
        rintro rfl
        simp [taken] at available
      refine Or.inl ⟨available, unowned, unheld, ?_⟩
      intro other there
      by_cases same : other = thread
      · exact apart (by simpa [same] using there)
      · exact nobody other (by simpa [same] using there)
    · exact Or.inr owned

/-- A thread that does not wait, or no longer waits, becomes ready. -/
theorem setReady (sound : MutexSound state) (thread : ThreadId) :
    MutexSound ⟨(state.view.setStat thread .ready).setWaits thread none, state.phase⟩ := by
  have others : ∀ other list, ((state.view.setStat thread .ready).setWaits thread none).waits
      other = some list → other ≠ thread ∧ state.view.waits other = some list := by
    intro other list there
    by_cases same : other = thread
    · simp [same] at there
    · exact ⟨same, by simpa [same] using there⟩
  have stays : ∀ other, state.view.stat other ≠ .init →
      ((state.view.setStat thread .ready).setWaits thread none).stat other ≠ .init := by
    intro other started
    by_cases same : other = thread <;> simp [same, started]
  refine ⟨?_, ?_, ?_, ?_, ?_⟩
  · intro other list there
    obtain ⟨apart, there'⟩ := others other list there
    simpa [apart] using sound.waiting other list there'
  · intro other mutex there
    exact sound.pending other mutex (others other _ there).2
  · exact fun other busy => stays other (sound.begun other busy)
  · exact fun mutex other owned => stays other (sound.owners mutex other owned)
  · intro mutex
    rcases sound.settled mutex with ⟨available, unowned, unheld, nobody⟩ | owned
    · exact Or.inl ⟨available, unowned, unheld, fun other there =>
        nobody other (others other _ there).2⟩
    · exact Or.inr owned

theorem setPriority (sound : MutexSound state) (thread : ThreadId) (priority : Nat) :
    MutexSound ⟨state.view.setPriority thread priority, state.phase⟩ :=
  ⟨sound.waiting, sound.pending, sound.begun, sound.owners, sound.settled⟩

theorem take {time : BitVec 32} {after : MutexView} {outcome : Outcome}
    (sound : MutexSound state) (isReady : state.view.stat thread = .ready)
    (move : TakeMove thread mutex time state.view after outcome) :
    MutexSound ⟨after,
      Function.update state.phase thread (outcome.phase (.taking mutex))⟩ := by
  have awake : ∀ mutex, state.view.waits thread ≠ some (.mutex mutex) :=
    fun mutex => sound.not_waiting (by simp [isReady]) (.mutex mutex)
  have started : state.view.stat thread ≠ .init := by simp [isReady]
  have reset : MutexSound ⟨state.view.setError thread .eok,
      Function.update state.phase thread .idle⟩ :=
    sound.own .idle awake started (fun _ => Or.inl rfl) (fun _ apart => by simp [apart]) rfl rfl
  cases move with
  | nested owned =>
      refine reset.setMutex mutex _ ?_ ?_
      · intro owner owned'
        exact sound.owners mutex owner owned'
      · exact Or.inr ⟨by simpa using sound.value_of_owned owned, thread, by simpa using owned⟩
  | free foreign available =>
      obtain ⟨value, -, -, -⟩ := sound.free_of_available available
      refine reset.setMutex mutex _ ?_ ?_
      · rintro owner ⟨⟩
        exact started
      · exact Or.inr ⟨by simp [value], thread, by simp⟩
  | refused foreign taken unwilling =>
      exact sound.own _ awake started (fun _ => Or.inl rfl) (fun _ apart => by simp [apart]) rfl rfl
  | waits owner owned foreign taken willing timer =>
      have suspended : MutexSound
          ⟨((state.view.setError thread .eok).raise owner thread).setStat thread .suspend,
            Function.update state.phase thread (.taking mutex)⟩ := by
        refine sound.own (.taking mutex) awake started ?_ (fun _ apart => by simp [apart]) rfl rfl
        intro other
        by_cases same : other = thread <;> simp [same]
      exact suspended.setWaits (by simp) (by simp) (by simp) taken

theorem pass {front : Option ThreadId} {after : MutexView} {outcome : Outcome}
    (sound : MutexSound state)
    (taken : (state.view.mutexes mutex).value = 0#16)
    (unheld : (state.view.mutexes mutex).hold = 0#8)
    (move : PassMove mutex front state.view after outcome) : MutexSound ⟨after, state.phase⟩ := by
  cases move with
  | frees nobody =>
      refine sound.setMutex mutex _ ?_ (Or.inl ⟨by simp [taken], by simp, by simp [unheld], nobody⟩)
      intro owner owned
      cases owned
  | hands waiter first waiting =>
      have suspended := sound.waiting waiter _ waiting
      refine (sound.setMutex mutex _ ?_ (Or.inr ⟨by simp [taken], waiter, by simp⟩)).setReady waiter
      rintro owner ⟨⟩
      simp [suspended]

theorem release {front : Option ThreadId} {after : MutexView} {outcome : Outcome}
    (sound : MutexSound state) (isReady : state.view.stat thread = .ready)
    (move : ReleaseMove thread mutex front state.view after outcome) :
    MutexSound ⟨after,
      Function.update state.phase thread (outcome.phase (.releasing mutex))⟩ := by
  have awake : ∀ mutex, state.view.waits thread ≠ some (.mutex mutex) :=
    fun mutex => sound.not_waiting (by simp [isReady]) (.mutex mutex)
  have started : state.view.stat thread ≠ .init := by simp [isReady]
  have begins : MutexSound ⟨state.view,
      Function.update state.phase thread (outcome.phase (.releasing mutex))⟩ :=
    sound.own _ awake started (fun _ => Or.inl rfl) (fun _ _ => rfl) rfl rfl
  cases move with
  | refused foreign =>
      exact sound.own _ awake started (fun _ => Or.inl rfl) (fun _ apart => by simp [apart]) rfl rfl
  | nested owned held =>
      refine begins.setMutex mutex _ (fun owner owned' => sound.owners mutex owner owned') ?_
      exact Or.inr ⟨by simpa using sound.value_of_owned owned, thread, by simpa using owned⟩
  | last owned unheld pass =>
      have taken := sound.value_of_owned owned
      have lowered := begins.setMutex mutex
        { state.view.mutexes mutex with hold := (state.view.mutexes mutex).hold - 1#8 }
        (fun owner owned' => sound.owners mutex owner owned')
        (Or.inr ⟨by simpa using taken, thread, by simpa using owned⟩)
      exact (lowered.setPriority thread _).pass (by simpa using taken) (by simpa using unheld) pass

/-- Time passes and threads time out. -/
theorem elapse {after : MutexView} (sound : MutexSound state)
    (elapses : ViewElapses state.view after) : MutexSound ⟨after, state.phase⟩ := by
  have stays : ∀ other, state.view.stat other ≠ .init → after.stat other ≠ .init := by
    intro other started
    rcases elapses.thread other with ⟨stat, -, -⟩ | ⟨-, isReady, -, -⟩
    · rwa [stat]
    · simp [isReady]
  have waited : ∀ other list, after.waits other = some list →
      state.view.waits other = some list ∧ after.stat other = state.view.stat other ∧
        after.error other = state.view.error other := by
    intro other list there
    rcases elapses.thread other with ⟨stat, error, waits⟩ | ⟨-, -, -, nowhere⟩
    · exact ⟨waits.symm.trans there, stat, error⟩
    · exact nomatch nowhere.symm.trans there
  constructor
  · intro other list there
    obtain ⟨there', stat, -⟩ := waited other list there
    exact stat.trans (sound.waiting other list there')
  · intro other mutex there
    obtain ⟨there', -, error⟩ := waited other _ there
    obtain ⟨taking, eok⟩ := sound.pending other mutex there'
    exact ⟨taking, error.trans eok⟩
  · exact fun other busy => stays other (sound.begun other busy)
  · intro mutex other owned
    rw [elapses.mutexes] at owned
    exact stays other (sound.owners mutex other owned)
  · intro mutex
    simp only [MutexView.Settled, elapses.mutexes]
    rcases sound.settled mutex with ⟨available, unowned, unheld, nobody⟩ | owned
    · exact Or.inl ⟨available, unowned, unheld, fun other there =>
        nobody other (waited other _ there).1⟩
    · exact Or.inr owned

/-- A thread that is started was waiting nowhere. -/
theorem start (sound : MutexSound state) (isInit : state.view.stat thread = .init)
    (priority : Nat) :
    MutexSound ⟨(state.view.setStat thread .ready).setPriority thread priority, state.phase⟩ := by
  have unlisted : state.view.waits thread = none := by
    rw [Option.eq_none_iff_forall_ne_some]
    exact fun list => sound.not_waiting (by simp [isInit]) list
  have nowhere : Function.update state.view.waits thread none = state.view.waits := by
    rw [← unlisted, Function.update_eq_self]
  have ready := (sound.setReady thread).setPriority thread priority
  simpa [MutexView.setStat, MutexView.setWaits, MutexView.setPriority, nowhere] using ready

theorem step {before after : MutexState} {label : MutexLabel} {shown : List MutexNotice}
    (sound : MutexSound before) (step : MutexStep before label shown after) :
    MutexSound after := by
  cases step with
  | take isReady isIdle move => exact sound.take isReady move
  | release isReady isIdle move => exact sound.release isReady move
  | @sleep thread isReady isIdle =>
      refine sound.own .sleeping (sound.not_waiting (by simp [isReady]) <| .mutex ·)
        (by simp [isReady]) ?_ (fun _ _ => rfl) rfl rfl
      intro other
      by_cases same : other = thread <;> simp [same]
  | finishTake isReady during =>
      exact sound.own .idle (sound.not_waiting (by simp [isReady]) <| .mutex ·)
        (by simp [isReady]) (fun _ => Or.inl rfl) (fun _ _ => rfl) rfl rfl
  | finishRelease during =>
      refine sound.own .idle ?_ (sound.begun _ (by simp [during])) (fun _ => Or.inl rfl)
        (fun _ _ => rfl) rfl rfl
      intro mutex there
      exact nomatch during.symm.trans (sound.pending _ mutex there).1
  | finishSleep result during =>
      refine sound.own .idle ?_ (sound.begun _ (by simp [during])) (fun _ => Or.inl rfl)
        (fun _ apart => by simp [apart]) rfl rfl
      intro mutex there
      exact nomatch during.symm.trans (sound.pending _ mutex there).1
  | start isInit => exact sound.start isInit _
  | elapse elapses => exact sound.elapse elapses

end MutexSound

end RtThread
