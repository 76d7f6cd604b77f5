import RtThread.Kernel.LifeSteps

/-!
# What ended threads leave behind

A thread that has ended passes through a fixed series of stages, each with its
own places and its own count of what has been called and freed. In every run
whose threads end in due form, a thread that has reached the last stage is in no
list, has been cleaned up once and, if it is dynamic, has been freed once.

`rt_thread_exit` leaves a static thread that has a cleanup to the idle thread,
which does not detach its object.
-/

namespace RtThread

open RtThread.Std

/-! ## The conditions of a run -/

def Started (kernel : Kernel) (thread : ThreadId) : Prop :=
  (kernel.threads thread).stat = .ready ∨ (kernel.threads thread).stat = .suspend

instance (kernel : Kernel) (thread : ThreadId) : Decidable (Started kernel thread) :=
  inferInstanceAs (Decidable (_ ∨ _))

/-- The store of `RT_THREAD_CLOSE` is next. -/
def EndPoint.closes : EndPoint → Bool
  | .timerDetached _ => true
  | _ => false

/-- A thread is registered once. It is ended once, after it has been started, and
by a call that is meant for its kind. -/
def Proper (system : LifeSystem) : LifeAction → Prop
  | .threadInit thread => (system.kernel.threads thread).stat = .init ∧
      system.kernel.objectLinks.next (.thread thread) = .thread thread ∧
      system.kernel.objectLinks.next (.timer (.thread thread)) = .timer (.thread thread)
  | .exit => ∀ thread ∈ system.current,
      Started system.kernel thread ∧ system.ending thread = none
  | .endThread call thread => Started system.kernel thread ∧ system.ending thread = none ∧
      ((system.kernel.threads thread).isSystemObject = true ↔ call = .detach)
  | _ => True

/-- No static thread with a cleanup exits, a thread that is to be closed has not
been linked again since its end began, neither a wait nor the rest of a
`rt_thread_resume` links a thread that has ended, and the rest of a
`rt_thread_suspend` unlinks none. -/
def Undisturbed (system : LifeSystem) : LifeAction → Prop
  | .exit => ∀ thread ∈ system.current, (system.kernel.threads thread).isSystemObject = true →
      (system.kernel.threads thread).cleanup = false
  | .sleep _ | .wait _ _ _ => ∀ thread ∈ system.current,
      (system.kernel.threads thread).stat = .ready
  | .suspendAdvance context => ∀ thread ∈ system.suspending context,
      (system.kernel.threads thread).stat ≠ .close
  | .resumeAdvance context => ∀ there ∈ system.resuming context,
      (system.kernel.threads there.1).stat ≠ .close ∧
      (there.2 = .insert →
        system.kernel.threadLinks.next (.tlist there.1) = .tlist there.1)
  | .advance thread => ∀ point ∈ system.ending thread, point.closes = true →
      system.kernel.threadLinks.next (.tlist thread) = .tlist thread ∧
      system.kernel.timerLinks.next (.timer (.thread thread)) = .timer (.thread thread)
  | _ => True

/-- `rt_thread_idle_excute` has returned and has left no defunct thread. -/
structure Emptied (system : LifeSystem) : Prop where
  defunct : system.kernel.threadLinks.isEmpty .defunct = true
  returned : ∀ thread, system.ending thread ≠ some .reaped ∧
    system.ending thread ≠ some .stackFreed ∧ system.ending thread ≠ some .objectDeleted

/-- The thread and its timer are in no list, and what it had has been released
exactly once. -/
structure Traceless (kernel : Kernel) (notices : List LifeNotice) (thread : ThreadId) : Prop where
  lists : ∀ head : ThreadNode, head.IsHead → ¬ kernel.threadLinks.Linked head (.tlist thread)
  timer : ¬ kernel.timerLinks.Linked .timerList (.timer (.thread thread))
  object : ∀ head : ObjectNode, head.IsHead →
    ¬ kernel.objectLinks.Linked head (.thread thread)
  timerObject : ∀ head : ObjectNode, head.IsHead →
    ¬ kernel.objectLinks.Linked head (.timer (.thread thread))
  cleanup : notices.count (.cleanedUp thread) = if (kernel.threads thread).cleanup then 1 else 0
  stack : notices.count (.stackFreed thread) =
    if (kernel.threads thread).isSystemObject then 0 else 1
  record : notices.count (.objectFreed thread) =
    if (kernel.threads thread).isSystemObject then 0 else 1

/-! ## The stages of a thread -/

/-- How often a thread has ended, been cleaned up and been freed. -/
structure Tally where
  ended : Nat
  cleanups : Nat
  stackFrees : Nat
  objectFrees : Nat

def tally (notices : List LifeNotice) (thread : ThreadId) : Tally where
  ended := notices.count (.ended thread)
  cleanups := notices.count (.cleanedUp thread)
  stackFrees := notices.count (.stackFreed thread)
  objectFrees := notices.count (.objectFreed thread)

/-- Notices about others do not count. -/
theorem tally_append_other {notices emitted : List LifeNotice} {thread : ThreadId}
    (others : ∀ notice ∈ emitted, notice.thread ≠ thread) :
    tally (notices ++ emitted) thread = tally notices thread := by
  have none : ∀ notice : LifeNotice, notice.thread = thread → emitted.count notice = 0 := by
    intro notice about
    rw [List.count_eq_zero]
    exact fun member => others notice member about
  simp [tally, List.count_append, none (.ended thread) rfl, none (.cleanedUp thread) rfl,
    none (.stackFreed thread) rfl, none (.objectFreed thread) rfl]

theorem tally_snoc {notices : List LifeNotice} {thread : ThreadId} {count : Tally}
    (before : tally notices thread = count) (notice : LifeNotice) :
    tally (notices ++ [notice]) thread =
      ⟨count.ended + if notice = .ended thread then 1 else 0,
        count.cleanups + if notice = .cleanedUp thread then 1 else 0,
        count.stackFrees + if notice = .stackFreed thread then 1 else 0,
        count.objectFrees + if notice = .objectFreed thread then 1 else 0⟩ := by
  subst before
  simp [tally, List.count_append, List.count_singleton]

/-- All that the stage of one thread depends on. -/
structure Snapshot where
  stat : ThreadStat
  isSystemObject : Bool
  cleanup : Bool
  home : Option ThreadNode
  timer : Option TimerNode
  object : Option ObjectNode
  timerObject : Option ObjectNode
  point : Option EndPoint
  tally : Tally

def LifeSystem.snapshot (system : LifeSystem) (places : Whereabouts) (notices : List LifeNotice)
    (thread : ThreadId) : Snapshot where
  stat := (system.kernel.threads thread).stat
  isSystemObject := (system.kernel.threads thread).isSystemObject
  cleanup := (system.kernel.threads thread).cleanup
  home := places.home thread
  timer := places.timer thread
  object := places.object thread
  timerObject := places.timerObject thread
  point := system.ending thread
  tally := tally notices thread

namespace Snapshot

/-- The cleanups that are due. -/
def cleanups (snapshot : Snapshot) : Nat := if snapshot.cleanup then 1 else 0

/-- The calls of `rt_free` that are due for the stack, and for the object. -/
def frees (snapshot : Snapshot) : Nat := if snapshot.isSystemObject then 0 else 1

def Suits (snapshot : Snapshot) (call : EndCall) : Prop :=
  snapshot.isSystemObject = true ↔ call = .detach

structure Unended (snapshot : Snapshot) : Prop where
  stat : snapshot.stat ≠ .close
  home : snapshot.home ≠ some .defunct
  tally : snapshot.tally = ⟨0, 0, 0, 0⟩

structure Ended (snapshot : Snapshot) (home : Option ThreadNode) (tally : Tally) : Prop where
  stat : snapshot.stat = .close
  home : snapshot.home = home
  timer : snapshot.timer = none
  timerObject : snapshot.timerObject = none
  tally : snapshot.tally = tally

/-- Nobody is at work on the end of the thread: it is alive, defunct or gone. -/
def Rests (snapshot : Snapshot) : Prop :=
  snapshot.Unended ∨
    snapshot.Ended (some .defunct) ⟨1, 0, 0, 0⟩ ∧
      (snapshot.isSystemObject = true → snapshot.object = none) ∨
    snapshot.Ended none ⟨1, snapshot.cleanups, snapshot.frees, snapshot.frees⟩ ∧
      snapshot.object = none

/-- The end of the thread has come to this point. -/
def Reaches (snapshot : Snapshot) : EndPoint → Prop
  | .removed call | .timerUnlinked call =>
      snapshot.Unended ∧ snapshot.stat ≠ .init ∧ snapshot.Suits call
  | .timerDetached call =>
      snapshot.Unended ∧ snapshot.stat ≠ .init ∧ snapshot.Suits call ∧ snapshot.timerObject = none
  | .closed call => snapshot.Ended none ⟨0, 0, 0, 0⟩ ∧ snapshot.Suits call
  | .objectDetached => snapshot.Ended none ⟨0, 0, 0, 0⟩ ∧ snapshot.isSystemObject = true ∧
      snapshot.object = none
  | .reaped => snapshot.Ended none ⟨1, snapshot.cleanups, 0, 0⟩ ∧
      snapshot.isSystemObject = false
  | .stackFreed => snapshot.Ended none ⟨1, snapshot.cleanups, 1, 0⟩ ∧
      snapshot.isSystemObject = false
  | .objectDeleted => snapshot.Ended none ⟨1, snapshot.cleanups, 1, 0⟩ ∧
      snapshot.isSystemObject = false ∧ snapshot.object = none

def Fits (snapshot : Snapshot) : Prop :=
  match snapshot.point with
  | none => snapshot.Rests
  | some point => snapshot.Reaches point

variable {snapshot next : Snapshot}

theorem Fits.rests (fits : snapshot.Fits) (there : snapshot.point = none) : snapshot.Rests := by
  rwa [Fits, there] at fits

theorem Fits.reaches (fits : snapshot.Fits) {point : EndPoint}
    (there : snapshot.point = some point) : snapshot.Reaches point := by
  rwa [Fits, there] at fits

theorem Fits.of_rests (there : snapshot.point = none) (rests : snapshot.Rests) :
    snapshot.Fits := by
  rwa [Fits, there]

theorem Fits.of_reaches {point : EndPoint} (there : snapshot.point = some point)
    (reaches : snapshot.Reaches point) : snapshot.Fits := by
  rwa [Fits, there]

/-- The last stage, with the counts in figures. -/
theorem Rests.gone {cleanups frees : Nat} (object : snapshot.object = none)
    (cleaned : snapshot.cleanups = cleanups) (freed : snapshot.frees = frees)
    (ended : snapshot.Ended none ⟨1, cleanups, frees, frees⟩) : snapshot.Rests := by
  subst cleaned freed
  exact Or.inr (Or.inr ⟨ended, object⟩)

/-- At every point the thread has not ended yet or is in no list of threads. -/
theorem Reaches.either {point : EndPoint} (reaches : snapshot.Reaches point) :
    snapshot.Unended ∧ snapshot.stat ≠ .init ∨ ∃ tally, snapshot.Ended none tally := by
  cases point with
  | removed call => exact Or.inl ⟨reaches.1, reaches.2.1⟩
  | timerUnlinked call => exact Or.inl ⟨reaches.1, reaches.2.1⟩
  | timerDetached call => exact Or.inl ⟨reaches.1, reaches.2.1⟩
  | closed call => exact Or.inr ⟨_, reaches.1⟩
  | objectDetached => exact Or.inr ⟨_, reaches.1⟩
  | reaped => exact Or.inr ⟨_, reaches.1⟩
  | stackFreed => exact Or.inr ⟨_, reaches.1⟩
  | objectDeleted => exact Or.inr ⟨_, reaches.1⟩

/-- A thread that is not closed has not ended. -/
theorem Fits.unended (fits : snapshot.Fits) (stat : snapshot.stat ≠ .close) :
    snapshot.Unended := by
  cases there : snapshot.point with
  | none =>
      rcases fits.rests there with unended | ⟨ended, -⟩ | ⟨ended, -⟩
      · exact unended
      · exact absurd ended.stat stat
      · exact absurd ended.stat stat
  | some point =>
      rcases (fits.reaches there).either with ⟨unended, -⟩ | ⟨tally, ended⟩
      · exact unended
      · exact absurd ended.stat stat

/-- Only a thread that rests is on `rt_thread_defunct`. -/
theorem Fits.defunct (fits : snapshot.Fits) (home : snapshot.home = some .defunct) :
    snapshot.Ended (some .defunct) ⟨1, 0, 0, 0⟩ ∧
      (snapshot.isSystemObject = true → snapshot.object = none) := by
  cases there : snapshot.point with
  | none =>
      rcases fits.rests there with unended | defunct | ⟨ended, -⟩
      · exact absurd home unended.home
      · exact defunct
      · exact nomatch home.symm.trans ended.home
  | some point =>
      rcases (fits.reaches there).either with ⟨unended, -⟩ | ⟨tally, ended⟩
      · exact absurd home unended.home
      · exact nomatch home.symm.trans ended.home

/-- Nothing has begun to end a thread that has not been started. -/
theorem Fits.unstarted (fits : snapshot.Fits) (stat : snapshot.stat = .init) :
    snapshot.point = none := by
  cases there : snapshot.point with
  | none => rfl
  | some point =>
      rcases (fits.reaches there).either with ⟨-, started⟩ | ⟨tally, ended⟩
      · exact absurd stat started
      · exact nomatch stat.symm.trans ended.stat

/-- A thread that has not ended stays at its stage, whatever list it is put in. -/
theorem Fits.alive (fits : snapshot.Fits) (before : snapshot.stat ≠ .close)
    (after : next.stat ≠ .close) (started : next.stat = .init → snapshot.stat = .init)
    (home : next.home ≠ some .defunct)
    (same : next = { snapshot with stat := next.stat, home := next.home, timer := next.timer }) :
    next.Fits := by
  have tally : next.tally = snapshot.tally := by rw [same]
  have unended : next.Unended := ⟨after, home, tally.trans (fits.unended before).tally⟩
  have point : next.point = snapshot.point := by rw [same]
  have timerObject : next.timerObject = snapshot.timerObject := by rw [same]
  have suits : ∀ call, snapshot.Suits call → next.Suits call := by
    intro call kind
    rw [Suits, same]
    exact kind
  cases there : snapshot.point with
  | none => exact .of_rests (point.trans there) (Or.inl unended)
  | some reached =>
      have reaches := fits.reaches there
      refine .of_reaches (point.trans there) ?_
      cases reached with
      | removed call => exact ⟨unended, mt started reaches.2.1, suits call reaches.2.2⟩
      | timerUnlinked call => exact ⟨unended, mt started reaches.2.1, suits call reaches.2.2⟩
      | timerDetached call =>
          exact ⟨unended, mt started reaches.2.1, suits call reaches.2.2.1,
            timerObject.trans reaches.2.2.2⟩
      | closed call => exact absurd reaches.1.stat before
      | objectDetached => exact absurd reaches.1.stat before
      | reaped => exact absurd reaches.1.stat before
      | stackFreed => exact absurd reaches.1.stat before
      | objectDeleted => exact absurd reaches.1.stat before

end Snapshot

/-! ## One step -/

/-- The nodes of every thread are where its stage has them. -/
structure Lived (notices : List LifeNotice) (system : LifeSystem) (places : Whereabouts) :
    Prop where
  located : Located system.kernel places
  fits : ∀ thread, (system.snapshot places notices thread).Fits

namespace Lived

variable {notices emitted : List LifeNotice} {system next : LifeSystem}
  {places places' : Whereabouts} {thread : ThreadId}

theorem initial (config : Config) :
    Lived [] (LifeSystem.boot config)
      ⟨fun _ => none, fun _ => none, fun _ => none, fun _ => none⟩ := by
  have home : atNode (fun _ => none) = fun _ => none := by
    funext node
    cases node <;> rfl
  have timer : atTimer (fun _ => none) = fun _ => none := by
    funext node
    cases node with
    | timerList => rfl
    | timer timer => cases timer <;> rfl
  have object : atObject (fun _ => none) (fun _ => none) = fun _ => none := by
    funext node
    cases node with
    | timer timer => cases timer <;> rfl
    | _ => rfl
  refine ⟨⟨?_, ?_, ?_, by simp, fun _ => rfl⟩, ?_⟩
  · rw [home]
    exact Placed.nil _
  · rw [timer]
    exact Placed.nil _
  · rw [object]
    exact Placed.nil _
  · intro thread
    refine .of_rests rfl (Or.inl ⟨?_, ?_, rfl⟩)
    · simp [LifeSystem.snapshot, LifeSystem.boot, Config.kernel, Config.initThread]
    · simp [LifeSystem.snapshot]

/-- A step that ends no thread. -/
theorem routine (lived : Lived notices system places)
    (routine : Routine system.kernel next.kernel places places')
    (ending : next.ending = system.ending) : Lived notices next places' := by
  refine ⟨routine.located, ?_⟩
  intro thread
  have fits := lived.fits thread
  rcases routine.thread thread with still | alive
  · have same : next.snapshot places' notices thread = system.snapshot places notices thread := by
      simp only [LifeSystem.snapshot, still.stat, still.home, still.timer, routine.isSystemObject,
        routine.cleanup, routine.object, routine.timerObject, ending]
    rwa [same]
  · refine fits.alive alive.before alive.after alive.started alive.home ?_
    simp only [LifeSystem.snapshot, routine.isSystemObject, routine.cleanup, routine.object,
      routine.timerObject, ending]

/-- A step that concerns the end of one thread. -/
theorem touch (lived : Lived notices system places) (thread : ThreadId)
    (located : Located next.kernel places')
    (about : ∀ notice ∈ emitted, notice.thread = thread)
    (others : ∀ other ≠ thread,
      next.snapshot places' notices other = system.snapshot places notices other)
    (fits : (next.snapshot places' (notices ++ emitted) thread).Fits) :
    Lived (notices ++ emitted) next places' := by
  refine ⟨located, ?_⟩
  intro other
  by_cases same : other = thread
  · exact same ▸ fits
  · have count : tally (notices ++ emitted) other = tally notices other :=
      tally_append_other fun notice member => (about notice member).symm ▸ Ne.symm same
    have shot : next.snapshot places' (notices ++ emitted) other =
        next.snapshot places' notices other := by
      simp only [LifeSystem.snapshot, count]
    rw [shot, others other same]
    exact lived.fits other

/-! ### Ending another thread -/

theorem threadInit (lived : Lived notices system places)
    (isInit : (system.kernel.threads thread).stat = .init)
    (loose : system.kernel.objectLinks.next (.thread thread) = .thread thread)
    (timerLoose : system.kernel.objectLinks.next (.timer (.thread thread)) =
      .timer (.thread thread)) :
    ∃ places', Lived (notices ++ [])
      { system with kernel := rtThreadInit system.kernel thread } places' := by
  have objects := lived.located.objects
  have located := lived.located.threadInit
    (objects.home_eq_none (ObjectNode.not_isHead_thread thread) loose)
    (objects.home_eq_none (ObjectNode.not_isHead_timer _) timerLoose)
  have fits := lived.fits thread
  refine ⟨_, lived.touch thread located (by simp) ?_ ?_⟩
  · intro other apart
    simp [LifeSystem.snapshot, apart, rtThreadInit, Kernel.rtObjectInit]
  · rw [List.append_nil]
    have unended := fits.unended (by simp [LifeSystem.snapshot, isInit])
    exact .of_rests (fits.unstarted isInit) (Or.inl ⟨unended.stat, unended.home, unended.tally⟩)

theorem endThread (lived : Lived notices system places) {call : EndCall}
    (started : Started system.kernel thread)
    (suits : (system.kernel.threads thread).isSystemObject = true ↔ call = .detach) :
    ∃ places', Lived (notices ++ [])
      (system.setEnding thread (rtScheduleRemoveThread system.kernel thread)
        (some (.removed call))) places' := by
  have unclosed : (system.kernel.threads thread).stat ≠ .close := by
    rcases started with isReady | suspended <;> simp [*]
  have begun : (system.kernel.threads thread).stat ≠ .init := by
    rcases started with isReady | suspended <;> simp [*]
  have unended := (lived.fits thread).unended unclosed
  refine ⟨_, lived.touch thread (lived.located.removeThread thread) (by simp) ?_ ?_⟩
  · intro other apart
    simp [LifeSystem.snapshot, LifeSystem.setEnding, apart]
  · rw [List.append_nil]
    refine .of_reaches (Function.update_self ..) ⟨⟨?_, ?_, unended.tally⟩, ?_, ?_⟩
    · simpa [LifeSystem.snapshot, LifeSystem.setEnding] using unclosed
    · simp [LifeSystem.snapshot]
    · simpa [LifeSystem.snapshot, LifeSystem.setEnding] using begun
    · simpa [LifeSystem.snapshot, LifeSystem.setEnding, Snapshot.Suits] using suits

/-- The section of `rt_object_detach` in `rt_thread_detach`. -/
theorem advanceDetach (lived : Lived notices system places)
    (there : system.ending thread = some (.closed .detach)) :
    ∃ places', Lived (notices ++ (system.advance thread (.closed .detach)).2)
      (system.advance thread (.closed .detach)).1 places' := by
  obtain ⟨ended, suits⟩ := (lived.fits thread).reaches there
  have isStatic := suits.mpr rfl
  have detached := lived.located.detachThread thread
  have others : ∀ point, ∀ other ≠ thread,
      (system.setEnding thread (system.kernel.rtObjectDetach (.thread thread)) point).snapshot
        { places with object := Function.update places.object thread none } notices other =
        system.snapshot places notices other := by
    intro point other apart
    simp [LifeSystem.snapshot, LifeSystem.setEnding, Kernel.rtObjectDetach, apart]
  unfold LifeSystem.advance
  dsimp only
  split
  · refine ⟨_, lived.touch thread detached (by simp) (others _) ?_⟩
    refine .of_reaches (Function.update_self ..) ?_
    rw [List.append_nil]
    exact ⟨⟨ended.stat, ended.home, ended.timer, ended.timerObject, ended.tally⟩, isStatic,
      Function.update_self ..⟩
  · rename_i plain
    refine ⟨_, lived.touch thread detached (by simp [LifeNotice.thread]) (others _) ?_⟩
    refine .of_rests (Function.update_self ..)
      (.gone (Function.update_self ..) (if_neg plain) (if_pos isStatic) ?_)
    exact ⟨ended.stat, ended.home, ended.timer, ended.timerObject,
      (tally_snoc ended.tally (.ended thread)).trans (by simp)⟩

/-- The last section of a call that leaves the thread to the idle thread. -/
theorem advanceDefunct (lived : Lived notices system places) {point : EndPoint}
    (ended : (system.snapshot places notices thread).Ended none ⟨0, 0, 0, 0⟩)
    (object : (system.snapshot places notices thread).isSystemObject = true →
      places.object thread = none)
    (last : system.advance thread point =
      (system.setEnding thread (system.kernel.linkThreadAfter .defunct thread) none,
        [.ended thread])) :
    ∃ places', Lived (notices ++ (system.advance thread point).2)
      (system.advance thread point).1 places' := by
  rw [last]
  refine ⟨_, lived.touch thread
    (lived.located.linkThreadAfter ThreadNode.isHead_defunct ended.home)
    (by simp [LifeNotice.thread]) ?_ ?_⟩
  · intro other apart
    simp [LifeSystem.snapshot, LifeSystem.setEnding, Kernel.linkThreadAfter, apart]
  · refine .of_rests (Function.update_self ..) (Or.inr (Or.inl ⟨?_, object⟩))
    exact ⟨ended.stat, Function.update_self .., ended.timer, ended.timerObject,
      (tally_snoc ended.tally (.ended thread)).trans (by simp)⟩

/-- A step of a call that ends a thread, or of the idle thread's work on it. -/
theorem advance (lived : Lived notices system places) {point : EndPoint}
    (there : system.ending thread = some point)
    (loose : point.closes = true →
      system.kernel.threadLinks.next (.tlist thread) = .tlist thread ∧
        system.kernel.timerLinks.next (.timer (.thread thread)) = .timer (.thread thread)) :
    ∃ places', Lived (notices ++ (system.advance thread point).2)
      (system.advance thread point).1 places' := by
  have reaches := (lived.fits thread).reaches there
  cases point with
  | removed call =>
      obtain ⟨unended, started, suits⟩ := reaches
      refine ⟨_, lived.touch thread (lived.located.unlinkTimer thread)
        (by simp [LifeSystem.advance]) ?_ ?_⟩
      · intro other apart
        simp [LifeSystem.advance, LifeSystem.snapshot, LifeSystem.setEnding, Kernel.unlinkTimer,
          apart]
      · refine .of_reaches (Function.update_self ..) ?_
        rw [LifeSystem.advance, List.append_nil]
        exact ⟨⟨unended.stat, unended.home, unended.tally⟩, started, suits⟩
  | timerUnlinked call =>
      obtain ⟨unended, started, suits⟩ := reaches
      refine ⟨_, lived.touch thread (lived.located.detachTimer thread)
        (by simp [LifeSystem.advance]) ?_ ?_⟩
      · intro other apart
        simp [LifeSystem.advance, LifeSystem.snapshot, LifeSystem.setEnding,
          Kernel.rtObjectDetach, apart]
      · refine .of_reaches (Function.update_self ..) ?_
        rw [LifeSystem.advance, List.append_nil]
        exact ⟨⟨unended.stat, unended.home, unended.tally⟩, started, suits,
          Function.update_self ..⟩
  | timerDetached call =>
      obtain ⟨unended, -, suits, timerObject⟩ := reaches
      obtain ⟨alone, timerAlone⟩ := loose rfl
      have home := lived.located.threads.home_eq_none (ThreadNode.not_isHead_tlist thread) alone
      have timer := lived.located.timers.home_eq_none (TimerNode.not_isHead_timer _) timerAlone
      refine ⟨places, lived.touch thread (lived.located.congr rfl rfl rfl rfl)
        (by simp [LifeSystem.advance]) ?_ ?_⟩
      · intro other apart
        simp [LifeSystem.advance, LifeSystem.snapshot, LifeSystem.setEnding, Kernel.setStat,
          Kernel.setThread, apart]
      · refine .of_reaches (Function.update_self ..) ?_
        rw [LifeSystem.advance, List.append_nil]
        refine ⟨⟨?_, home, timer, timerObject, unended.tally⟩, ?_⟩
        · simp [LifeSystem.snapshot, LifeSystem.setEnding, Kernel.setStat, Kernel.setThread]
        · simpa [LifeSystem.snapshot, LifeSystem.setEnding, Kernel.setStat, Kernel.setThread,
            Snapshot.Suits] using suits
  | closed call =>
      cases call with
      | delete =>
          refine lived.advanceDefunct reaches.1 ?_ rfl
          intro isStatic
          cases reaches.2.mp isStatic
      | detach => exact lived.advanceDetach there
  | objectDetached => exact lived.advanceDefunct reaches.1 (fun _ => reaches.2.2) rfl
  | reaped =>
      obtain ⟨ended, isDynamic⟩ := reaches
      refine ⟨places, lived.touch thread lived.located
        (by simp [LifeSystem.advance, LifeNotice.thread]) ?_ ?_⟩
      · intro other apart
        simp [LifeSystem.advance, LifeSystem.snapshot, LifeSystem.setEnding, apart]
      · refine .of_reaches (Function.update_self ..) ⟨?_, isDynamic⟩
        refine ⟨ended.stat, ended.home, ended.timer, ended.timerObject, ?_⟩
        refine (tally_snoc ended.tally (.stackFreed thread)).trans ?_
        simp only [reduceCtorEq, if_false, if_true, Nat.add_zero, Nat.zero_add]
        rfl
  | stackFreed =>
      obtain ⟨ended, isDynamic⟩ := reaches
      refine ⟨_, lived.touch thread (lived.located.detachThread thread)
        (by simp [LifeSystem.advance]) ?_ ?_⟩
      · intro other apart
        simp [LifeSystem.advance, LifeSystem.snapshot, LifeSystem.setEnding,
          Kernel.rtObjectDetach, apart]
      · refine .of_reaches (Function.update_self ..) ?_
        rw [LifeSystem.advance, List.append_nil]
        exact ⟨⟨ended.stat, ended.home, ended.timer, ended.timerObject, ended.tally⟩, isDynamic,
          Function.update_self ..⟩
  | objectDeleted =>
      obtain ⟨ended, isDynamic, object⟩ := reaches
      refine ⟨places, lived.touch thread lived.located
        (by simp [LifeSystem.advance, LifeNotice.thread]) ?_ ?_⟩
      · intro other apart
        simp [LifeSystem.advance, LifeSystem.snapshot, LifeSystem.setEnding, apart]
      · have frees : (system.snapshot places notices thread).frees = 1 := by
          simp [Snapshot.frees, isDynamic]
        refine .of_rests (Function.update_self ..) (.gone object rfl frees ?_)
        refine ⟨ended.stat, ended.home, ended.timer, ended.timerObject, ?_⟩
        refine (tally_snoc ended.tally (.objectFreed thread)).trans ?_
        simp only [reduceCtorEq, if_false, if_true, Nat.add_zero, Nat.zero_add]
        rfl

/-! ### The thread itself and the idle thread -/

theorem exit (lived : Lived notices system places) (started : Started system.kernel thread)
    (idle : system.ending thread = none)
    (plain : (system.kernel.threads thread).isSystemObject = true →
      (system.kernel.threads thread).cleanup = false) :
    ∃ places', Lived (notices ++ [.ended thread])
      { system with kernel := rtThreadExitSection system.kernel thread } places' := by
  have unclosed : (system.kernel.threads thread).stat ≠ .close := by
    rcases started with isReady | suspended <;> simp [*]
  have unended := (lived.fits thread).unended unclosed
  have count := (tally_snoc unended.tally (.ended thread)).trans
    (show _ = Tally.mk 1 0 0 0 by simp)
  have located := lived.located.exitSection thread
  have others : ∀ places', (∀ other ≠ thread, places'.home other = places.home other ∧
      places'.timer other = places.timer other ∧ places'.object other = places.object other ∧
      places'.timerObject other = places.timerObject other) → ∀ other ≠ thread,
      LifeSystem.snapshot { system with kernel := rtThreadExitSection system.kernel thread }
        places' notices other = system.snapshot places notices other := by
    intro places' same other apart
    simp [LifeSystem.snapshot, apart, same other apart]
  have ended : ∀ home places', places'.home thread = home → places'.timer thread = none →
      places'.timerObject thread = none →
      (LifeSystem.snapshot { system with kernel := rtThreadExitSection system.kernel thread }
        places' (notices ++ [.ended thread]) thread).Ended home ⟨1, 0, 0, 0⟩ :=
    fun _ _ there timer timerObject =>
      ⟨by simp [LifeSystem.snapshot], there, timer, timerObject, count⟩
  by_cases isStatic : (system.kernel.threads thread).isSystemObject = true
  · simp only [isStatic, plain isStatic, Bool.not_false, Bool.and_self, if_true] at located
    refine ⟨_, lived.touch thread located (by simp [LifeNotice.thread]) (others _ ?_) ?_⟩
    · intro other apart
      simp [apart]
    · refine .of_rests idle (.gone (Function.update_self ..) ?_ ?_ (ended none _
        (Function.update_self ..) (Function.update_self ..) (Function.update_self ..)))
      · simp [Snapshot.cleanups, LifeSystem.snapshot, plain isStatic]
      · simp [Snapshot.frees, LifeSystem.snapshot, isStatic]
  · simp only [isStatic, Bool.false_and, Bool.false_eq_true, if_false] at located
    refine ⟨_, lived.touch thread located (by simp [LifeNotice.thread]) (others _ ?_) ?_⟩
    · intro other apart
      simp [apart]
    · refine .of_rests idle (Or.inr (Or.inl ⟨ended _ _ (Function.update_self ..)
        (Function.update_self ..) (Function.update_self ..), ?_⟩))
      intro static
      exact absurd (by simpa [LifeSystem.snapshot] using static) isStatic

/-- The idle thread takes a thread off `rt_thread_defunct`. -/
theorem idle (lived : Lived notices system places) (step : system.idle = some (next, emitted)) :
    ∃ places', Lived (notices ++ emitted) next places' := by
  obtain ⟨⟨thread, kernel⟩, take, done⟩ := Option.bind_eq_some_iff.mp step
  obtain ⟨front, rfl⟩ := rtThreadIdleTake_front take
  have home := lived.located.threads.next_home ThreadNode.isHead_defunct
    (by rw [front]; exact ThreadNode.not_isHead_tlist thread)
  rw [front] at home
  obtain ⟨ended, object⟩ := (lived.fits thread).defunct home
  obtain ⟨rfl, rfl⟩ := Prod.mk.inj (Option.some_inj.mp done)
  have about : ∀ notice ∈ (if (system.kernel.threads thread).cleanup then
      [LifeNotice.cleanedUp thread] else []), notice.thread = thread := by
    intro notice member
    split at member
    · rw [List.mem_singleton.mp member]
      rfl
    · cases member
  refine ⟨_, lived.touch thread (lived.located.unlinkThread thread) about ?_ ?_⟩
  · intro other apart
    simp [LifeSystem.snapshot, LifeSystem.setEnding, Kernel.unlinkThread, apart]
  · have count : tally (notices ++ if (system.kernel.threads thread).cleanup then
        [.cleanedUp thread] else []) thread =
        ⟨1, if (system.kernel.threads thread).cleanup then 1 else 0, 0, 0⟩ := by
      split
      · exact (tally_snoc ended.tally (.cleanedUp thread)).trans (by simp)
      · rw [List.append_nil]
        exact ended.tally
    have released : ((LifeSystem.setEnding system thread (system.kernel.unlinkThread thread)
        (if (system.kernel.threads thread).isSystemObject then none else some .reaped)).snapshot
          { places with home := Function.update places.home thread none }
          (notices ++ if (system.kernel.threads thread).cleanup then [.cleanedUp thread] else [])
          thread).Ended none
        ⟨1, if (system.kernel.threads thread).cleanup then 1 else 0, 0, 0⟩ :=
      ⟨ended.stat, Function.update_self .., ended.timer, ended.timerObject, count⟩
    by_cases isStatic : (system.kernel.threads thread).isSystemObject = true
    · refine .of_rests ?_ (.gone (object isStatic) rfl ?_ released)
      · exact (Function.update_self ..).trans (if_pos isStatic)
      · exact if_pos isStatic
    · refine .of_reaches ((Function.update_self ..).trans (if_neg isStatic)) ⟨released, ?_⟩
      exact Bool.eq_false_iff.mpr isStatic

/-! ### Every step -/

theorem step {action : LifeAction} (lived : Lived notices system places)
    (proper : Proper system action) (undisturbed : Undisturbed system action)
    (step : lifeMachine.step system action = some (next, emitted)) :
    ∃ places', Lived (notices ++ emitted) next places' := by
  have located := lived.located
  have plain : ∀ {kernel : Kernel} {places' : Whereabouts},
      Routine system.kernel kernel places places' →
      some (system.withKernel kernel) = some (next, emitted) →
      ∃ places', Lived (notices ++ emitted) next places' := by
    intro kernel places' routine same
    obtain ⟨rfl, rfl⟩ := Prod.mk.inj (Option.some_inj.mp same)
    rw [List.append_nil]
    exact ⟨places', lived.routine routine rfl⟩
  cases action with
  | threadInit thread =>
      obtain ⟨rfl, rfl⟩ := Prod.mk.inj (Option.some_inj.mp step)
      exact lived.threadInit proper.1 proper.2.1 proper.2.2
  | schedulerStart =>
      obtain ⟨-, started⟩ := Option.ite_none_right_eq_some.mp step
      exact plain (.schedulerStart located) started
  | threadStartup thread =>
      obtain ⟨kernel, startup, done⟩ := Option.map_eq_some_iff.mp step
      obtain ⟨places', routine⟩ := Routine.startup located startup
      exact plain routine (congrArg some done)
  | tickIncrease =>
      obtain ⟨⟨kernel, fired⟩, tick, done⟩ := Option.map_eq_some_iff.mp step
      obtain ⟨places', routine⟩ := Routine.tickIncrease located tick
      exact plain routine (congrArg some done)
  | schedule => exact plain (.schedule located) step
  | enterCritical => exact plain (.enterCritical located) step
  | exitCritical => exact plain (.exitCritical located) step
  | suspendBegin context thread =>
      obtain ⟨-, begun⟩ := Option.ite_none_right_eq_some.mp step
      obtain ⟨rfl, rfl⟩ := Prod.mk.inj (Option.some_inj.mp begun)
      rw [List.append_nil]
      exact ⟨places, lived.routine (.refl located) rfl⟩
  | suspendAdvance context =>
      obtain ⟨thread, there, done⟩ := Option.map_eq_some_iff.mp step
      obtain ⟨rfl, rfl⟩ := Prod.mk.inj done
      rw [List.append_nil]
      exact ⟨_, lived.routine (Routine.suspendSection located (undisturbed thread there)) rfl⟩
  | resume thread =>
      obtain ⟨places', routine⟩ := Routine.resume located thread
      exact plain routine step
  | changePriority thread priority =>
      obtain ⟨places', routine⟩ := Routine.changePriority located thread priority
      exact plain routine step
  | yield =>
      obtain ⟨thread, running, done⟩ := Option.map_eq_some_iff.mp step
      obtain ⟨places', routine⟩ := Routine.yieldSection located thread
      exact plain routine (congrArg some done)
  | sleep tick =>
      obtain ⟨thread, running, step⟩ := Option.bind_eq_some_iff.mp step
      obtain ⟨⟨result, kernel⟩, asleep, done⟩ := Option.bind_eq_some_iff.mp step
      obtain ⟨places', routine⟩ := Routine.sleepSection located (undisturbed thread running) asleep
      exact plain routine done
  | sleepReturn =>
      obtain ⟨thread, running, done⟩ := Option.map_eq_some_iff.mp step
      exact plain (.sleepReturn located thread) (congrArg some done)
  | wait list flag time =>
      obtain ⟨thread, running, step⟩ := Option.bind_eq_some_iff.mp step
      obtain ⟨⟨kernel, outcome⟩, suspended, done⟩ := Option.bind_eq_some_iff.mp step
      obtain ⟨places', routine⟩ := Routine.waits located (undisturbed thread running) suspended
      exact plain routine done
  | resumeBegin context thread =>
      obtain ⟨-, begun⟩ := Option.ite_none_right_eq_some.mp step
      obtain ⟨rfl, rfl⟩ := Prod.mk.inj (Option.some_inj.mp begun)
      rw [List.append_nil]
      exact ⟨places, lived.routine (.refl located) rfl⟩
  | resumeAdvance context =>
      obtain ⟨⟨thread, point⟩, there, done⟩ := Option.map_eq_some_iff.mp step
      obtain ⟨rfl, rfl⟩ := Prod.mk.inj done
      rw [List.append_nil]
      obtain ⟨unended, loose⟩ := undisturbed _ there
      cases point with
      | unlink => exact ⟨_, lived.routine (Routine.resumeUnlink located unended) rfl⟩
      | insert =>
          have home := located.threads.home_eq_none (ThreadNode.not_isHead_tlist thread) (loose rfl)
          obtain ⟨places', routine⟩ := Routine.insertThread located home unended
          exact ⟨places', lived.routine routine rfl⟩
  | exit =>
      obtain ⟨thread, running, done⟩ := Option.map_eq_some_iff.mp step
      obtain ⟨rfl, rfl⟩ := Prod.mk.inj done
      obtain ⟨started, idle⟩ := proper thread running
      exact lived.exit started idle (undisturbed thread running)
  | endThread call thread =>
      obtain ⟨rfl, rfl⟩ := Prod.mk.inj (Option.some_inj.mp step)
      exact lived.endThread proper.1 proper.2.2
  | advance thread =>
      obtain ⟨point, there, done⟩ := Option.map_eq_some_iff.mp step
      obtain ⟨rfl, rfl⟩ := Prod.ext_iff.mp done
      exact lived.advance there (undisturbed point there)
  | idle => exact lived.idle step

end Lived

/-! ## Every run -/

/-- A thread at the last stage has left no trace. -/
theorem Snapshot.Ended.traceless {notices : List LifeNotice} {system : LifeSystem}
    {places : Whereabouts} {thread : ThreadId} (located : Located system.kernel places)
    (ended : (system.snapshot places notices thread).Ended none
      ⟨1, (system.snapshot places notices thread).cleanups,
        (system.snapshot places notices thread).frees,
        (system.snapshot places notices thread).frees⟩)
    (object : places.object thread = none) : Traceless system.kernel notices thread where
  lists head isHead linked := by
    have there := (located.threads.linked_iff isHead (.tlist thread)).mp linked
    exact nomatch ended.home.symm.trans there
  timer linked := by
    have there := (located.timers.linked_iff TimerNode.isHead_timerList _).mp linked
    exact nomatch ended.timer.symm.trans there
  object head isHead linked := by
    have there := (located.objects.linked_iff isHead (.thread thread)).mp linked
    exact nomatch object.symm.trans there
  timerObject head isHead linked := by
    have there := (located.objects.linked_iff isHead (.timer (.thread thread))).mp linked
    exact nomatch ended.timerObject.symm.trans there
  cleanup := congrArg Tally.cleanups ended.tally
  stack := congrArg Tally.stackFrees ended.tally
  record := congrArg Tally.objectFrees ended.tally

theorem Lived.traceless {notices : List LifeNotice} {system : LifeSystem} {places : Whereabouts}
    {thread : ThreadId} (lived : Lived notices system places) (emptied : Emptied system)
    (finished : .ended thread ∈ notices) : Traceless system.kernel notices thread := by
  have counted : (tally notices thread).ended ≠ 0 := by
    intro zero
    exact List.count_eq_zero.mp zero finished
  have begun : ∀ {count : Tally}, tally notices thread = count → count.ended ≠ 0 := by
    rintro count rfl
    exact counted
  have fits := lived.fits thread
  cases there : system.ending thread with
  | none =>
      rcases fits.rests there with unended | ⟨defunct, -⟩ | ⟨gone, object⟩
      · exact absurd rfl (begun unended.tally)
      · have empty := (lived.located.threads.isEmpty_iff ThreadNode.isHead_defunct).mp
          emptied.defunct
        exact absurd defunct.home (empty (.tlist thread))
      · exact gone.traceless lived.located object
  | some point =>
      have reaches := fits.reaches there
      obtain ⟨unreaped, stackKept, objectKept⟩ := emptied.returned thread
      cases point with
      | removed call => exact absurd rfl (begun reaches.1.tally)
      | timerUnlinked call => exact absurd rfl (begun reaches.1.tally)
      | timerDetached call => exact absurd rfl (begun reaches.1.tally)
      | closed call => exact absurd rfl (begun reaches.1.tally)
      | objectDetached => exact absurd rfl (begun reaches.1.tally)
      | reaped => exact absurd there unreaped
      | stackFreed => exact absurd there stackKept
      | objectDeleted => exact absurd there objectKept

/-- In every run that nothing disturbs, the threads that have ended have left no
trace once the idle thread has emptied `rt_thread_defunct`. -/
theorem ended_traceless {config : Config} {actions : List LifeAction}
    {notices : List LifeNotice} {system : LifeSystem} {thread : ThreadId}
    (run : lifeMachine.Run (fun system action => Proper system action ∧ Undisturbed system action)
      (LifeSystem.boot config) actions notices system)
    (emptied : Emptied system) (finished : .ended thread ∈ notices) :
    Traceless system.kernel notices thread := by
  have start : ∃ places, Lived [] (LifeSystem.boot config) places := ⟨_, Lived.initial config⟩
  have preserved : ∀ notices system action next emitted,
      (∃ places, Lived notices system places) →
      (Proper system action ∧ Undisturbed system action) →
      lifeMachine.step system action = some (next, emitted) →
      ∃ places, Lived (notices ++ emitted) next places := by
    rintro notices system action next emitted ⟨places, lived⟩ ⟨proper, undisturbed⟩ step
    exact lived.step proper undisturbed step
  obtain ⟨places, lived⟩ := run.history start preserved
  exact lived.traceless emptied finished

/-- Thread 0 is dynamic, thread 1 static and thread 2 the idle thread. The first
two have a cleanup. -/
def threeThreads : Config :=
  { Config.plain with
    priority := fun thread => if thread = 2 then 31 else 10
    priority_lt := by
      intro thread
      split <;> decide
    isSystemObject := fun thread => thread ≠ 0
    cleanup := fun thread => thread ≠ 2 }

/-- Nobody is at work on the end of any thread. -/
theorem Emptied.of_idle {system : LifeSystem} {thread : ThreadId}
    (defunct : system.kernel.threadLinks.isEmpty .defunct = true)
    (idle : system.ending thread = none)
    (others : ∀ other ≠ thread, system.ending other = none) : Emptied system := by
  refine ⟨defunct, ?_⟩
  intro other
  by_cases same : other = thread
  · simp [same, idle]
  · simp [others other same]

instance (system : LifeSystem) : (action : LifeAction) → Decidable (Proper system action)
  | .threadInit _ => inferInstanceAs (Decidable (_ ∧ _))
  | .exit => inferInstanceAs (Decidable (∀ thread ∈ system.current,
      Started system.kernel thread ∧ system.ending thread = none))
  | .endThread call thread => inferInstanceAs (Decidable (Started system.kernel thread ∧
      system.ending thread = none ∧
        ((system.kernel.threads thread).isSystemObject = true ↔ call = .detach)))
  | .schedulerStart | .threadStartup _ | .tickIncrease | .schedule | .enterCritical
  | .exitCritical | .suspendBegin _ _ | .suspendAdvance _ | .resume _ | .changePriority _ _ | .yield
  | .sleep _ | .sleepReturn | .wait _ _ _ | .resumeBegin _ _ | .resumeAdvance _ | .advance _ | .idle =>
    inferInstanceAs (Decidable True)

instance (system : LifeSystem) : (action : LifeAction) → Decidable (Undisturbed system action)
  | .exit => inferInstanceAs (Decidable (∀ thread ∈ system.current,
      (system.kernel.threads thread).isSystemObject = true →
        (system.kernel.threads thread).cleanup = false))
  | .sleep _ | .wait _ _ _ => inferInstanceAs (Decidable (∀ thread ∈ system.current,
      (system.kernel.threads thread).stat = .ready))
  | .resumeAdvance context => inferInstanceAs (Decidable (∀ there ∈ system.resuming context,
      (system.kernel.threads there.1).stat ≠ .close ∧ (there.2 = .insert →
        system.kernel.threadLinks.next (.tlist there.1) = .tlist there.1)))
  | .suspendAdvance context => inferInstanceAs (Decidable (∀ thread ∈ system.suspending context,
      (system.kernel.threads thread).stat ≠ .close))
  | .advance thread => inferInstanceAs (Decidable (∀ point ∈ system.ending thread,
      point.closes = true → system.kernel.threadLinks.next (.tlist thread) = .tlist thread ∧
        system.kernel.timerLinks.next (.timer (.thread thread)) = .timer (.thread thread)))
  | .threadInit _ | .schedulerStart | .threadStartup _ | .tickIncrease | .schedule
  | .enterCritical | .exitCritical | .suspendBegin _ _ | .resume _ | .changePriority _ _ | .yield
  | .sleepReturn | .resumeBegin _ _ | .endThread _ _ | .idle => inferInstanceAs (Decidable True)

/-- Thread 1 deletes thread 0, which waits, and the idle thread releases it. -/
def deletion : List LifeAction :=
  [.threadInit 0, .threadInit 1, .threadInit 2, .threadStartup 0, .threadStartup 1,
    .threadStartup 2, .schedulerStart, .wait (.sem 0) .fifo 0xffffffff, .schedule,
    .endThread .delete 0, .advance 0, .advance 0, .advance 0, .advance 0,
    .wait (.sem 1) .fifo 0xffffffff, .schedule, .idle, .advance 0, .advance 0, .advance 0]

theorem ended_traceless_deleted :
    ∃ system notices, lifeMachine.execute (LifeSystem.boot threeThreads) deletion =
        some (system, notices) ∧ Traceless system.kernel notices 0 := by
  obtain ⟨system, notices, success, defunct, finished, others, point⟩ :
      ∃ system notices,
        (lifeMachine.restrict fun system action =>
          Proper system action ∧ Undisturbed system action).execute
            (LifeSystem.boot threeThreads) deletion = some (system, notices) ∧
        system.kernel.threadLinks.isEmpty .defunct = true ∧
        notices = [.ended 0, .cleanedUp 0, .stackFreed 0, .objectFreed 0] ∧
        (∀ thread ≠ 0, system.ending thread = none) ∧ system.ending 0 = none := by
    refine ⟨_, _, rfl, rfl, rfl, ?_, rfl⟩
    -- Each of the nine steps towards the end of thread 0 is an update at 0.
    intro thread apart
    iterate 9 refine (Function.update_of_ne apart ..).trans ?_
    rfl
  exact ⟨system, notices, Machine.execute_of_restrict success,
    ended_traceless (Machine.run_of_execute_restrict success) (.of_idle defunct point others)
      (by simp [finished])⟩

/-- Thread 1 exits, and the idle thread takes it off `rt_thread_defunct`. -/
def staticExit : List LifeAction :=
  [.threadInit 2, .threadInit 1, .threadStartup 2, .threadStartup 1, .schedulerStart, .exit,
    .schedule, .idle]

/-- `rt_thread_exit` leaves the object of a static thread with a cleanup to the
idle thread, and that leaves it registered. -/
theorem exit_leaves_object : ¬ ∀ (config : Config) (actions : List LifeAction)
    (notices : List LifeNotice) (system : LifeSystem) (thread : ThreadId),
      lifeMachine.Run Proper (LifeSystem.boot config) actions notices system →
        Emptied system → .ended thread ∈ notices → Traceless system.kernel notices thread := by
  intro claim
  obtain ⟨system, notices, success, defunct, finished, others, point, registered⟩ :
      ∃ system notices,
        (lifeMachine.restrict Proper).execute (LifeSystem.boot threeThreads) staticExit =
          some (system, notices) ∧
        system.kernel.threadLinks.isEmpty .defunct = true ∧
        notices = [.ended 1, .cleanedUp 1] ∧
        (∀ thread ≠ 1, system.ending thread = none) ∧ system.ending 1 = none ∧
        system.kernel.objectLinks.next .threadContainer = .thread 1 := by
    refine ⟨_, _, rfl, rfl, rfl, ?_, rfl, rfl⟩
    intro thread apart
    exact Function.update_of_ne apart ..
  have traceless := claim _ _ _ _ 1 (Machine.run_of_execute_restrict success)
    (.of_idle defunct point others) (by simp [finished])
  refine traceless.object .threadContainer trivial ⟨1, by decide, registered, ?_⟩
  intro before positive small
  obtain rfl : before = 1 := by omega
  simp [registered]

end RtThread
