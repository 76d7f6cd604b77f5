import RtThread.Drivers.DataqueueMask

/-!
# Runs of the data queue with the interrupt mask

Every exit restores the mask but one: a pop that ends the wait for the low-water mark
while nobody waits to push.
-/

namespace RtThread.DataqueueMask

open RtThread.Std

namespace Frame

variable {frame : Frame}

/-- Between `rt_hw_interrupt_disable` and `rt_hw_interrupt_enable`. -/
structure Held (frame : Frame) : Prop where
  level : frame.level = frame.entry
  mask : frame.mask = true

theorem Restored.disable (restored : frame.Restored) : frame.rtHwInterruptDisable.Held :=
  ⟨restored, rfl⟩

theorem Held.enable (held : frame.Held) : frame.rtHwInterruptEnable.Restored := held.level

theorem enter_restored (mask : Mask) : (Frame.enter mask).Restored := rfl

/-- A mask that has not been restored is right where interrupts were disabled before. -/
theorem Held.restored_iff (held : frame.Held) : frame.Restored ↔ ¬ frame.entry = false := by
  rw [Restored, held.mask, Bool.not_eq_false, eq_comm]

end Frame

/-- The frame of a call that has not returned. -/
def Phase.frame : Phase → Option Frame
  | .idle => none
  | .pushing _ _ frame _ => some frame
  | .popping _ frame _ => some frame
  | .resetting _ frame => some frame

namespace System

/-- Every call that waits or lets interrupts in has restored the mask. -/
def Keeps (system : System) : Prop :=
  ∀ context frame, (system.phase context).frame = some frame → frame.Restored

variable {system next : System} {context : Context} {phase : Phase} {frame : Frame}
  {emitted : List Event} {queue : Dataqueue} {thread : ThreadId} {result : Result}
  {notice : DataqueueNotice} {item : Option DataItem} {timeout : Int} {data : DataItem}

theorem Keeps.setPhase (keeps : system.Keeps)
    (restored : ∀ frame, phase.frame = some frame → frame.Restored) :
    (system.setPhase context phase).Keeps := by
  intro other frame same
  rw [System.setPhase] at same
  dsimp only at same
  by_cases here : other = context
  · rw [here, Function.update_self] at same
    exact restored frame same
  · rw [Function.update_of_ne here] at same
    exact keeps other frame same

theorem Keeps.idle (keeps : system.Keeps) : (system.setPhase context .idle).Keeps :=
  keeps.setPhase (by rintro frame ⟨⟩)

/-- A thread that is resumed keeps its frame. -/
theorem Keeps.resume (keeps : system.Keeps) : (system.resume thread result).Keeps := by
  refine keeps.setPhase fun frame same => keeps (.thread thread) frame ?_
  cases phase : system.phase (.thread thread) with
  | idle => rwa [phase] at same
  | pushing item timeout frame error => rwa [phase] at same
  | popping timeout frame error => rwa [phase] at same
  | resetting loop frame => rwa [phase] at same

/-- The queue is not looked at. -/
theorem Keeps.setQueue (keeps : system.Keeps) (queue : Dataqueue) :
    ({ system with queue := queue } : System).Keeps := keeps

theorem notify_restored (restored : frame.Restored) :
    ∀ event ∈ system.notify notice frame, event.Restored := by
  intro event member
  rw [notify] at member
  split at member
  · rw [List.mem_singleton.mp member]
    exact restored
  · cases member

/-- `__exit` restores the mask. -/
theorem exit_restored (keeps : system.Keeps) (held : frame.Held)
    (step : some (system.exit context notice result item frame) = some (next, emitted)) :
    next.Keeps ∧ ∀ event ∈ emitted, event.Restored := by
  obtain ⟨rfl, rfl⟩ := Prod.mk.inj (Option.some_inj.mp step)
  refine ⟨keeps.idle, fun event member => ?_⟩
  rcases List.mem_append.mp member with notified | returned
  · split at notified
    · exact notify_restored held.enable event notified
    · cases notified
  · rw [List.mem_singleton.mp returned]
    exact held.enable

/-- A pass of `rt_data_queue_push` restores the mask. -/
theorem push_restored (keeps : system.Keeps) (held : frame.Held)
    (step : system.push context data timeout frame = some (next, emitted)) :
    next.Keeps ∧ ∀ event ∈ emitted, event.Restored := by
  unfold push at step
  dsimp only at step
  split at step
  · split at step
    · exact exit_restored (keeps.setQueue _) held step
    · split at step
      · obtain ⟨rfl, rfl⟩ := Prod.mk.inj (Option.some_inj.mp step)
        refine ⟨(keeps.setQueue _).setPhase ?_, by simp⟩
        rintro frame ⟨⟩
        exact held.enable
      · cases step
  · split at step
    · obtain ⟨rfl, rfl⟩ := Prod.mk.inj (Option.some_inj.mp step)
      refine ⟨((keeps.setQueue _).resume).idle, ?_⟩
      rintro event member
      rw [List.mem_singleton.mp member]
      exact held.enable
    · exact exit_restored (keeps.setQueue _) held step

/-- Where nothing goes wrong, and the condition does not hold. -/
theorem good_iff_of_not {condition : Prop} (good : ∀ event ∈ emitted, event.Restored)
    (fails : ¬ condition) : (∀ event ∈ emitted, event.Restored) ↔ ¬ condition :=
  ⟨fun _ => fails, fun _ => good⟩

/-- A pass of `rt_data_queue_pop` restores the mask, or nobody waits to push when it ends
the wait for the low-water mark. -/
theorem pop_restored (keeps : system.Keeps) (held : frame.Held)
    (step : system.pop context timeout frame = some (next, emitted)) :
    next.Keeps ∧ ((∀ event ∈ emitted, event.Restored) ↔
      ¬ (frame.entry = false ∧ system.EndsUnheeded)) := by
  unfold pop at step
  dsimp only at step
  split at step
  · rename_i empty
    have heeded : ¬ (frame.entry = false ∧ system.EndsUnheeded) := by
      rintro ⟨-, holds, -⟩
      rw [empty] at holds
      cases holds
    split at step
    · obtain ⟨keeps', good⟩ := exit_restored keeps held step
      exact ⟨keeps', good_iff_of_not good heeded⟩
    · split at step
      · obtain ⟨rfl, rfl⟩ := Prod.mk.inj (Option.some_inj.mp step)
        refine ⟨(keeps.setQueue _).setPhase ?_, good_iff_of_not (by simp) heeded⟩
        rintro frame ⟨⟩
        exact held.enable
      · cases step
  · rename_i holds
    rw [Bool.not_eq_true] at holds
    split at step
    · rename_i low
      split at step
      · rename_i first rest waiting
        obtain ⟨rfl, rfl⟩ := Prod.mk.inj (Option.some_inj.mp step)
        refine ⟨((keeps.setQueue _).resume).idle, good_iff_of_not ?_ ?_⟩
        · rintro event member
          rcases List.mem_append.mp member with notified | returned
          · exact notify_restored held.enable event notified
          · rw [List.mem_singleton.mp returned]
            exact held.enable
        · rintro ⟨-, -, -, -, nobody⟩
          exact absurd (waiting.symm.trans nobody) (by simp)
      · rename_i nobody
        obtain ⟨rfl, rfl⟩ := Prod.mk.inj (Option.some_inj.mp step)
        refine ⟨(keeps.setQueue _).idle, ?_⟩
        have unheeded : system.EndsUnheeded := ⟨holds, low.1, low.2, nobody⟩
        rw [and_iff_left unheeded, ← held.restored_iff]
        constructor
        · intro good
          exact good (.returned .eok _ frame) (List.mem_append_right _ List.mem_cons_self)
        · rintro restored event member
          rcases List.mem_append.mp member with notified | returned
          · exact notify_restored restored event notified
          · rw [List.mem_singleton.mp returned]
            exact restored
    · rename_i high
      obtain ⟨keeps', good⟩ := exit_restored (keeps.setQueue _) held step
      refine ⟨keeps', good_iff_of_not good ?_⟩
      rintro ⟨-, -, waits, low, -⟩
      exact high ⟨waits, low⟩

theorem peak_restored (restored : frame.Restored) :
    (system.peak frame).1 = system ∧ ∀ event ∈ (system.peak frame).2, event.Restored := by
  unfold peak
  dsimp only
  split
  · exact ⟨rfl, by simpa [Event.Restored] using restored.disable.enable⟩
  · exact ⟨rfl, by simpa [Event.Restored] using restored.disable.enable⟩

/-- A turn of `rt_data_queue_reset` restores the mask. -/
theorem reset_restored {loop : ResetLoop} (keeps : system.Keeps) (restored : frame.Restored) :
    (system.reset context loop frame).1.Keeps ∧
      ∀ event ∈ (system.reset context loop frame).2, event.Restored := by
  have again : ∀ loop kept, (Phase.resetting loop frame.rtHwInterruptDisable.rtHwInterruptEnable).frame
      = some kept → kept.Restored := by
    rintro loop kept ⟨⟩
    exact restored.disable.enable
  unfold reset
  cases loop with
  | popList =>
      dsimp only
      split
      · exact ⟨((keeps.setQueue _).resume).setPhase (again _), by simp⟩
      · refine ⟨keeps.setPhase ?_, by simp⟩
        rintro kept ⟨⟩
        exact restored
  | pushList =>
      dsimp only
      split
      · exact ⟨((keeps.setQueue _).resume).setPhase (again _), by simp⟩
      · exact ⟨keeps.idle, by simpa [Event.Restored] using restored⟩

theorem expire_restored (keeps : system.Keeps)
    (step : system.expire thread = some (next, emitted)) : next.Keeps ∧ emitted = [] := by
  unfold expire at step
  dsimp only at step
  split at step
  · obtain ⟨-, made⟩ := Option.ite_none_right_eq_some.mp step
    obtain ⟨rfl, rfl⟩ := Prod.mk.inj (Option.some_inj.mp made)
    exact ⟨(keeps.setQueue _).resume, rfl⟩
  · obtain ⟨-, made⟩ := Option.ite_none_right_eq_some.mp step
    obtain ⟨rfl, rfl⟩ := Prod.mk.inj (Option.some_inj.mp made)
    exact ⟨(keeps.setQueue _).resume, rfl⟩
  · cases step

/-- An action that makes no pass of a pop restores the mask. -/
theorem restored_iff_of_none {action : Action} (noPop : system.popEntry action = none)
    (good : ∀ event ∈ emitted, event.Restored) :
    (∀ event ∈ emitted, event.Restored) ↔ ¬ system.LeavesDisabled action := by
  refine good_iff_of_not good ?_
  rintro ⟨entry, -⟩
  rw [noPop] at entry
  cases entry

/-- A pass of a pop that was entered with the mask of the frame. -/
theorem restored_iff_of_pop {action : Action} (entry : system.popEntry action = some frame.entry)
    (good : (∀ event ∈ emitted, event.Restored) ↔
      ¬ (frame.entry = false ∧ system.EndsUnheeded)) :
    (∀ event ∈ emitted, event.Restored) ↔ ¬ system.LeavesDisabled action := by
  rw [good, LeavesDisabled, entry, Option.some_inj]

theorem wake_restored (keeps : system.Keeps)
    (step : system.wake context = some (next, emitted)) :
    next.Keeps ∧
      ((∀ event ∈ emitted, event.Restored) ↔ ¬ system.LeavesDisabled (.wake context)) := by
  have held : ∀ frame, (system.phase context).frame = some frame →
      frame.rtHwInterruptDisable.Held := fun frame same => (keeps context frame same).disable
  unfold wake at step
  split at step
  · rename_i item timeout frame result pushing
    have noPop : system.popEntry (.wake context) = none := by
      rw [popEntry]
      simp only [pushing]
    have held := held frame (by rw [pushing]; rfl)
    dsimp only at step
    split at step
    · obtain ⟨keeps', good⟩ := exit_restored keeps held step
      exact ⟨keeps', restored_iff_of_none noPop good⟩
    · obtain ⟨keeps', good⟩ := push_restored keeps held step
      exact ⟨keeps', restored_iff_of_none noPop good⟩
  · rename_i timeout frame result popping
    have held := held frame (by rw [popping]; rfl)
    dsimp only at step
    split at step
    · rename_i failed
      have noPop : system.popEntry (.wake context) = none := by
        rw [popEntry]
        cases result with
        | eok => exact absurd rfl failed
        | error => simp only [popping]
        | etimeout => simp only [popping]
        | eempty => simp only [popping]
      obtain ⟨keeps', good⟩ := exit_restored keeps held step
      exact ⟨keeps', restored_iff_of_none noPop good⟩
    · rename_i woken
      obtain rfl := not_not.mp woken
      obtain ⟨keeps', good⟩ := pop_restored keeps held step
      refine ⟨keeps', restored_iff_of_pop ?_ good⟩
      rw [popEntry]
      simp only [popping]
      rfl
  · rename_i loop frame resetting
    have noPop : system.popEntry (.wake context) = none := by
      rw [popEntry]
      simp only [resetting]
    have restored := keeps context frame (by rw [resetting]; rfl)
    obtain ⟨keeps', good⟩ := @reset_restored system context frame loop keeps restored
    rw [Option.some_inj.mp step] at keeps' good
    exact ⟨keeps', restored_iff_of_none noPop good⟩
  · cases step

theorem step_restored {action : Action} (keeps : system.Keeps)
    (step : maskMachine.step system action = some (next, emitted)) :
    next.Keeps ∧
      ((∀ event ∈ emitted, event.Restored) ↔ ¬ system.LeavesDisabled action) := by
  cases action with
  | push context item timeout mask =>
      obtain ⟨-, step⟩ := Option.ite_none_right_eq_some.mp step
      obtain ⟨keeps', good⟩ := push_restored keeps (Frame.enter_restored mask).disable step
      exact ⟨keeps', restored_iff_of_none rfl good⟩
  | pop context timeout mask =>
      obtain ⟨-, step⟩ := Option.ite_none_right_eq_some.mp step
      obtain ⟨keeps', good⟩ := pop_restored keeps (Frame.enter_restored mask).disable step
      exact ⟨keeps', restored_iff_of_pop rfl good⟩
  | peak context mask =>
      obtain ⟨-, step⟩ := Option.ite_none_right_eq_some.mp step
      obtain ⟨same, good⟩ := @peak_restored system _ (Frame.enter_restored mask)
      rw [Option.some_inj.mp step] at same good
      subst same
      exact ⟨keeps, restored_iff_of_none rfl good⟩
  | reset context mask =>
      obtain ⟨-, step⟩ := Option.ite_none_right_eq_some.mp step
      obtain ⟨rfl, rfl⟩ := Prod.mk.inj (Option.some_inj.mp step)
      refine ⟨keeps.setPhase ?_, restored_iff_of_none rfl (by simp)⟩
      rintro frame ⟨⟩
      exact Frame.enter_restored mask
  | expire thread =>
      obtain ⟨keeps', rfl⟩ := expire_restored keeps step
      exact ⟨keeps', restored_iff_of_none rfl (by simp)⟩
  | wake context => exact wake_restored keeps step

end System

/-- In the runs in which no pop ends the wait for the low-water mark with interrupts
enabled and nobody waiting to push, and in no other runs, every call returns with the
mask that it was entered with, and `evt_notify` is called with it. -/
theorem mask_restored {size lwm : BitVec 16} {items : Nat → DataItem} {evtNotify : Bool}
    {actions : List Action} {events : List Event} {system : System}
    (run : maskMachine.Run (fun _ _ => True) (.start (rtDataQueueInit size lwm items evtNotify))
      actions events system) :
    (∀ event ∈ events, event.Restored) ↔
      maskMachine.Run (fun system action => ¬ system.LeavesDisabled action)
        (.start (rtDataQueueInit size lwm items evtNotify)) actions events system := by
  have initial : (System.start (rtDataQueueInit size lwm items evtNotify)).Keeps := by
    rintro context frame ⟨⟩
  refine run.good_iff initial ?_
  rintro system action next emitted keeps - step
  exact System.step_restored keeps step

instance : (event : Event) → Decidable event.Restored
  | .notified _ frame => inferInstanceAs (Decidable (frame.mask = frame.entry))
  | .returned _ _ frame => inferInstanceAs (Decidable (frame.mask = frame.entry))

/-- A thread that waits to push is resumed by the pop that ends the wait. -/
theorem mask_restored_resumed : ∃ events system,
    maskMachine.Run (fun system action => ¬ system.LeavesDisabled action)
      (.start (rtDataQueueInit 1 0 (fun _ => ⟨0, 0⟩) true))
      [.push (.thread 0) ⟨5, 1⟩ 0 false, .push (.thread 1) ⟨6, 1⟩ (-1) false,
        .pop (.thread 0) 0 false, .wake (.thread 1)] events system := by
  obtain ⟨events, system, executed, restored⟩ : ∃ events system,
      maskMachine.execute (.start (rtDataQueueInit 1 0 (fun _ => ⟨0, 0⟩) true))
        [.push (.thread 0) ⟨5, 1⟩ 0 false, .push (.thread 1) ⟨6, 1⟩ (-1) false,
          .pop (.thread 0) 0 false, .wake (.thread 1)] = some (system, events) ∧
        ∀ event ∈ events, event.Restored := ⟨_, _, rfl, by decide⟩
  exact ⟨events, system,
    (mask_restored (Machine.run_of_execute (fun _ _ _ => trivial) executed)).mp restored⟩

/-- A push that fails waits for the low-water mark. The pop that goes down to it calls
`evt_notify` and returns with interrupts disabled. -/
theorem pop_leaves_disabled : ∃ events system,
    maskMachine.Run (fun _ _ => True) (.start (rtDataQueueInit 1 0 (fun _ => ⟨0, 0⟩) true))
      [.push (.thread 0) ⟨5, 1⟩ 0 false, .push (.thread 0) ⟨6, 1⟩ 0 false,
        .pop (.thread 0) 0 false] events system ∧
      .notified .lwm ⟨false, false, true⟩ ∈ events ∧
      .returned .eok (some ⟨5, 1⟩) ⟨false, false, true⟩ ∈ events ∧
      ¬ ∀ event ∈ events, event.Restored := by
  obtain ⟨events, system, executed, same⟩ : ∃ events system,
      maskMachine.execute (.start (rtDataQueueInit 1 0 (fun _ => ⟨0, 0⟩) true))
        [.push (.thread 0) ⟨5, 1⟩ 0 false, .push (.thread 0) ⟨6, 1⟩ 0 false,
          .pop (.thread 0) 0 false] = some (system, events) ∧
        events = [.notified .push ⟨false, false, false⟩,
          .returned .eok none ⟨false, false, false⟩, .returned .etimeout none ⟨false, false, false⟩,
          .notified .lwm ⟨false, false, true⟩,
          .returned .eok (some ⟨5, 1⟩) ⟨false, false, true⟩] := ⟨_, _, rfl, by decide⟩
  refine ⟨events, system, Machine.run_of_execute (fun _ _ _ => trivial) executed, ?_⟩
  rw [same]
  decide

end RtThread.DataqueueMask
