import RtThread.Std.Machine
import RtThread.Drivers.AlarmChoice

/-!
# Alarms in use

Whatever is called in whatever order, an alarm that has been set up has a time of day.
-/

namespace RtThread

open RtThread.Std

variable {δ : Type}

/-- The calls, with what they read from the clock. -/
inductive AlarmCall where
  | create (memory : Option AlarmId) (callback : BitVec 32) (setup : Option AlarmSetup)
  | control (alarm : AlarmId) (cmd : BitVec 8) (setup : AlarmSetup) (first now setupNow : Tm)
  | start (alarm : Option AlarmId) (setupNow now : Tm)
  | stop (alarm : Option AlarmId) (first now : Tm)
  | delete (alarm : Option AlarmId) (first now : Tm)
  /-- The service thread. -/
  | update (first now : Tm)

/-- The times that are read are times of day. -/
def AlarmCall.Timed : AlarmCall → Prop
  | create .. => True
  | control _ _ _ first now setupNow =>
      first.IsTimeOfDay ∧ now.IsTimeOfDay ∧ setupNow.IsTimeOfDay
  | start _ setupNow now => setupNow.IsTimeOfDay ∧ now.IsTimeOfDay
  | stop _ first now | delete _ first now | update first now =>
      first.IsTimeOfDay ∧ now.IsTimeOfDay

def alarmMachine (env : AlarmEnv δ) : Machine (AlarmContainer δ) AlarmCall Int where
  step c
    | .create memory callback setup => some ((rtAlarmCreate c memory callback setup).2, [])
    | .control alarm cmd setup first now setupNow =>
        let (ret, c) := rtAlarmControl env c alarm cmd setup first now setupNow
        some (c, [ret])
    | .start alarm setupNow now =>
        let (ret, c) := rtAlarmStart env c alarm setupNow now
        some (c, [ret])
    | .stop alarm first now =>
        let (ret, c) := rtAlarmStop env c alarm first now
        some (c, [ret])
    | .delete alarm first now =>
        let (ret, c) := rtAlarmDelete env c alarm first now
        some (c, [ret])
    | .update first now => some (alarmUpdate env c first now, [])

/-- Set up or started. -/
def InUse (flag : BitVec 32) : Prop := flag &&& (rtAlarmStateInited ||| rtAlarmStateStart) ≠ 0

/-- Every alarm in use has a time of day. -/
def AlarmsTimed (c : AlarmContainer δ) : Prop :=
  ∀ alarm, InUse (c.alarms alarm).flag → (c.alarms alarm).wktime.IsTimeOfDay

/-- A time of day for the device. -/
structure RtcWkalarm.IsTimeOfDay (wkalarm : RtcWkalarm) : Prop where
  sec : 0 ≤ wkalarm.tmSec ∧ wkalarm.tmSec < 60
  min : 0 ≤ wkalarm.tmMin ∧ wkalarm.tmMin < 60
  hour : 0 ≤ wkalarm.tmHour ∧ wkalarm.tmHour < 24

/-- The device, `mktime` and the callbacks do their part. -/
structure EnvTimed (env : AlarmEnv δ) : Prop where
  get : ∀ device wkalarm, wkalarm.IsTimeOfDay → (env.getAlarm device wkalarm).2.1.IsTimeOfDay
  mktime : KeepsTimes env
  call : ∀ callback alarm c, AlarmsTimed c → AlarmsTimed (env.call callback alarm c)

/-! ## Flags -/

section

variable {flag : BitVec 32}

theorem inUse_of_started (started : flag &&& rtAlarmStateStart ≠ 0) : InUse flag := by
  intro idle
  refine started ?_
  have part : (rtAlarmStateInited ||| rtAlarmStateStart) &&& rtAlarmStateStart =
    rtAlarmStateStart := by decide
  rw [← part, ← BitVec.and_assoc, idle]
  exact BitVec.zero_and

theorem inUse_of_inited (inited : flag &&& rtAlarmStateInited ≠ 0) : InUse flag := by
  intro idle
  refine inited ?_
  have part : (rtAlarmStateInited ||| rtAlarmStateStart) &&& rtAlarmStateInited =
    rtAlarmStateInited := by decide
  rw [← part, ← BitVec.and_assoc, idle]
  exact BitVec.zero_and

theorem inUse_of_stopped (used : InUse (flag &&& ~~~rtAlarmStateStart)) : InUse flag := by
  intro idle
  refine used ?_
  rw [BitVec.and_assoc, BitVec.and_comm (~~~rtAlarmStateStart), ← BitVec.and_assoc, idle]
  exact BitVec.zero_and

theorem not_inUse_of_mode : ¬ InUse (flag &&& 0xff00) := by
  intro used
  refine used ?_
  have apart : (0xff00 : BitVec 32) &&& (rtAlarmStateInited ||| rtAlarmStateStart) = 0 := by decide
  rw [BitVec.and_assoc, apart]
  exact BitVec.and_zero

end

/-! ## What keeps the times -/

namespace AlarmsTimed

variable {env : AlarmEnv δ} {c : AlarmContainer δ} {alarm : AlarmId} {now first : Tm}

theorem setFlag {flag : BitVec 32} (timed : AlarmsTimed c) (alarm : AlarmId)
    (new : InUse flag → (c.alarms alarm).wktime.IsTimeOfDay) :
    AlarmsTimed (c.setFlag alarm flag) := by
  intro x used
  rw [AlarmContainer.setFlag_wktime]
  by_cases here : x = alarm
  · subst here
    rw [AlarmContainer.setFlag_self] at used
    exact new used
  · rw [AlarmContainer.setFlag_of_ne here] at used
    exact timed x used

theorem setWktime {wktime : Tm} (timed : AlarmsTimed c) (alarm : AlarmId)
    (new : InUse (c.alarms alarm).flag → wktime.IsTimeOfDay) :
    AlarmsTimed (c.setWktime alarm wktime) := by
  intro x used
  rw [AlarmContainer.setWktime_flag] at used
  by_cases here : x = alarm
  · subst here
    rw [AlarmContainer.setWktime_self]
    exact new used
  · rw [AlarmContainer.setWktime_of_ne here]
    exact timed x used

theorem alarmSet (timed : AlarmsTimed c) (env_ : EnvTimed env) (alarm : AlarmId) :
    AlarmsTimed (alarmSet env c alarm).2 := by
  rw [RtThread.alarmSet]
  split
  · exact timed
  · dsimp only
    split
    · rename_i enabled
      split
      · refine @setWktime _ { c with rtc := some _ } _ timed alarm fun used => ?_
        obtain ⟨sec, min, hour⟩ := timed alarm used
        have told : RtcWkalarm.IsTimeOfDay
            ⟨decide ((c.alarms alarm).flag &&& rtAlarmStateStart ≠ 0),
              (c.alarms alarm).wktime.tmSec, (c.alarms alarm).wktime.tmMin,
              (c.alarms alarm).wktime.tmHour⟩ := ⟨sec, min, hour⟩
        exact ⟨(env_.get _ _ told).sec, (env_.get _ _ told).min, (env_.get _ _ told).hour⟩
      · exact timed
    · exact timed

theorem wakeupMode (timed : AlarmsTimed c) (env_ : EnvTimed env)
    (started : (c.alarms alarm).flag &&& rtAlarmStateStart ≠ 0) (now : Tm) :
    AlarmsTimed (wakeupMode env c alarm now).1 := by
  rw [RtThread.wakeupMode]
  split
  · have set := timed.setWktime alarm fun used =>
      (env_.mktime _ (timed alarm used)).isTimeOfDay (timed alarm used)
    dsimp only
    split
    · refine (set.setFlag alarm fun used => ?_).alarmSet env_ alarm
      exact set alarm (by rw [AlarmContainer.setWktime_flag]; exact inUse_of_started started)
    · exact set
  · split_ifs
    all_goals exact timed

theorem alarmWakeup (timed : AlarmsTimed c) (env_ : EnvTimed env) :
    AlarmsTimed (alarmWakeup env c alarm now).1 := by
  rw [RtThread.alarmWakeup]
  split
  · exact timed
  · rename_i started
    have woken := timed.wakeupMode env_ started now
    dsimp only
    split
    · exact env_.call _ _ _ woken
    · exact woken

theorem wakeupAlarms (timed : AlarmsTimed c) (env_ : EnvTimed env) (l : List AlarmId) :
    AlarmsTimed (wakeupAlarms env l c now).1 := by
  induction l generalizing c now with
  | nil => exact timed
  | cons alarm next ih => exact ih (timed.alarmWakeup env_)

theorem program (timed : AlarmsTimed c) (env_ : EnvTimed env) :
    AlarmsTimed (c.program env alarm) := by
  have set := timed.alarmSet env_ alarm
  rw [AlarmContainer.program]
  dsimp only
  split
  · exact set
  · exact set

theorem alarmChoose (timed : AlarmsTimed c) (env_ : EnvTimed env) :
    AlarmsTimed (alarmChoose env c now) := by
  rw [RtThread.alarmChoose]
  generalize c.head.foldl (c.scan now) _ = s
  have chosen (found : Option AlarmId) :
      AlarmsTimed (found.elim c fun alarm => c.program env alarm) := by
    cases found with
    | none => exact timed
    | some alarm => exact timed.program env_
  split_ifs
  · exact chosen _
  · exact chosen _
  · exact timed

theorem alarmUpdate (timed : AlarmsTimed c) (env_ : EnvTimed env) :
    AlarmsTimed (alarmUpdate env c first now) := by
  rw [RtThread.alarmUpdate]
  split
  · exact timed
  · exact (timed.wakeupAlarms env_ _).alarmChoose env_

/-! ## The interface keeps them -/

theorem setupTimeOfDay_valid (wktime : Tm) (valid : now.IsTimeOfDay) :
    (setupTimeOfDay wktime now).IsTimeOfDay := by
  obtain ⟨sec, min, hour⟩ := valid
  rw [setupTimeOfDay]
  refine ⟨?_, ?_, ?_⟩
  all_goals
    split_ifs
    all_goals
      try dsimp only at *
      omega

theorem sameTime_ite {time a b : Tm} (p : Prop) [Decidable p] (same : time.SameTime a)
    (same' : time.SameTime b) : time.SameTime (if p then a else b) := by
  split
  · exact same
  · exact same'

theorem setupDate_time (flag : BitVec 32) (setup now : Tm) :
    setup.SameTime (setupDate flag setup now).1 := by
  have year (time : Tm) (same : setup.SameTime time) (p : Prop) [Decidable p] :
      setup.SameTime (if p then { time with tmYear := now.tmYear } else time) :=
    sameTime_ite p same same
  have mon (time : Tm) (same : setup.SameTime time) (p : Prop) [Decidable p] :
      setup.SameTime (if p then { time with tmMon := now.tmMon } else time) :=
    sameTime_ite p same same
  have mday (time : Tm) (same : setup.SameTime time) (p : Prop) [Decidable p] :
      setup.SameTime (if p then { time with tmMday := now.tmMday } else time) :=
    sameTime_ite p same same
  rw [setupDate]
  split
  · exact .refl
  split
  · exact mday _ (mon _ (year _ .refl _) _) _
  split
  · exact sameTime_ite _ .refl .refl
  split
  · exact mday _ .refl _
  split
  · exact mday _ (mon _ .refl _) _
  · exact .refl

theorem setupInsurance_valid {setup : Tm} (valid : setup.IsTimeOfDay) :
    (setupInsurance setup).IsTimeOfDay := by
  have early : 0 ≤ 60 - rtAlarmDelay.toInt ∧ 60 - rtAlarmDelay.toInt < 60 := by decide
  rw [setupInsurance]
  split
  · exact ⟨early, valid.min, valid.hour⟩
  · exact valid

theorem inUse_of_alarmSetup {wktime : Tm} (done : (alarmSetup c alarm wktime now).1 = rtEok) :
    InUse ((alarmSetup c alarm wktime now).2.alarms alarm).flag := by
  rw [RtThread.alarmSetup] at done ⊢
  dsimp only at done ⊢
  split at done
  · rename_i valid
    rw [if_pos valid, AlarmContainer.setFlag_self]
    refine inUse_of_inited fun idle => ?_
    have bit := congrArg (·.getLsbD 1) idle
    simp [rtAlarmStateInited] at bit
  · cases done

theorem alarmSetup (timed : AlarmsTimed c) (wktime : Tm) (valid : now.IsTimeOfDay) :
    AlarmsTimed (alarmSetup c alarm wktime now).2 := by
  have day := (setupDate_time (c.alarms alarm).flag (setupTimeOfDay wktime now) now).isTimeOfDay
    (setupTimeOfDay_valid wktime valid)
  rw [RtThread.alarmSetup]
  dsimp only
  split
  · have set := timed.setWktime alarm fun _ => setupInsurance_valid day
    refine set.setFlag alarm fun _ => ?_
    rw [AlarmContainer.setWktime_self]
    exact setupInsurance_valid day
  · exact timed.setWktime alarm fun _ => day

theorem rtAlarmStop (timed : AlarmsTimed c) (env_ : EnvTimed env) (alarm : Option AlarmId) :
    AlarmsTimed (rtAlarmStop env c alarm first now).2 := by
  cases alarm with
  | none => exact timed
  | some alarm =>
      have stopped := timed.setFlag alarm fun used => timed alarm (inUse_of_stopped used)
      rw [RtThread.rtAlarmStop]
      dsimp only
      split
      · exact timed
      · split
        · dsimp only
          split
          · have set := stopped.alarmSet env_ alarm
            exact @alarmUpdate _ _ { (RtThread.alarmSet env _ alarm).2 with current := none } _ _
              set env_
          · exact stopped.alarmSet env_ alarm
        · dsimp only
          split
          · exact stopped.alarmUpdate env_
          · exact stopped

theorem rtAlarmControl (timed : AlarmsTimed c) (env_ : EnvTimed env) (cmd : BitVec 8)
    (setup : AlarmSetup) {setupNow : Tm} (valid : setupNow.IsTimeOfDay) :
    AlarmsTimed (rtAlarmControl env c alarm cmd setup first now setupNow).2 := by
  rw [RtThread.rtAlarmControl]
  split
  · have stopped : AlarmsTimed (RtThread.rtAlarmStop env c (some alarm) first now).2 :=
      timed.rtAlarmStop env_ (some alarm)
    have cleared : AlarmsTimed (AlarmContainer.setFlag _ alarm (setup.flag &&& 0xff00)) :=
      stopped.setFlag alarm fun used => absurd used not_inUse_of_mode
    refine (cleared.setWktime alarm fun used => absurd used ?_).alarmSetup setup.wktime valid
    rw [AlarmContainer.setFlag_self]
    exact not_inUse_of_mode
  · exact timed

theorem rtAlarmStart (timed : AlarmsTimed c) (env_ : EnvTimed env) (alarm : Option AlarmId)
    {setupNow : Tm} (valid : setupNow.IsTimeOfDay) :
    AlarmsTimed (rtAlarmStart env c alarm setupNow now).2 := by
  cases alarm with
  | none => exact timed
  | some alarm =>
      rw [RtThread.rtAlarmStart]
      dsimp only
      generalize prepared : (if (c.alarms alarm).flag &&& rtAlarmStateInited = 0 then
        RtThread.alarmSetup c alarm (c.alarms alarm).wktime setupNow else (rtEok, c)) = result
      have ready : AlarmsTimed result.2 ∧
          (result.1 = rtEok → InUse (result.2.alarms alarm).flag) := by
        rw [← prepared]
        split
        · exact ⟨timed.alarmSetup _ valid, inUse_of_alarmSetup⟩
        · rename_i inited
          exact ⟨timed, fun _ => inUse_of_inited inited⟩
      obtain ⟨code, c'⟩ := result
      obtain ⟨timed', used⟩ := ready
      dsimp only at timed' used ⊢
      split
      · exact timed'
      · rename_i success
        have started : AlarmsTimed
            (c'.setFlag alarm ((c'.alarms alarm).flag ||| rtAlarmStateStart)) :=
          timed'.setFlag alarm fun _ => timed' alarm (used (not_not.mp success))
        have set := started.alarmSet env_ alarm
        split
        · split
          · split
            · exact set
            · exact set
          · split
            · split
              · exact set
              · exact set
            · exact started
        · exact timed'

theorem rtAlarmDelete (timed : AlarmsTimed c) (env_ : EnvTimed env) (alarm : Option AlarmId) :
    AlarmsTimed (rtAlarmDelete env c alarm first now).2 := by
  cases alarm with
  | none => exact timed
  | some alarm =>
      have stopped := timed.setFlag alarm fun used => timed alarm (inUse_of_stopped used)
      rw [RtThread.rtAlarmDelete]
      dsimp only
      split
      · have set := stopped.alarmSet env_ alarm
        exact @alarmUpdate _ _ { (RtThread.alarmSet env _ alarm).2 with current := none } _ _
          set env_
      · exact stopped

theorem rtAlarmCreate (timed : AlarmsTimed c) (memory : Option AlarmId) (callback : BitVec 32)
    (setup : Option AlarmSetup) : AlarmsTimed (rtAlarmCreate c memory callback setup).2 := by
  cases setup with
  | none => exact timed
  | some setup =>
      cases memory with
      | none => exact timed
      | some alarm =>
          intro x used
          rw [RtThread.rtAlarmCreate] at used ⊢
          dsimp only at used ⊢
          by_cases here : x = alarm
          · subst here
            rw [Function.update_self] at used
            exact absurd used not_inUse_of_mode
          · rw [Function.update_of_ne here] at used ⊢
            exact timed x used

end AlarmsTimed

/-- Nothing has been created. -/
def AlarmContainer.Fresh (c : AlarmContainer δ) : Prop :=
  c.head = [] ∧ c.current = none ∧ ∀ alarm, ¬ InUse (c.alarms alarm).flag

/-- In every run, an alarm in use has a time of day; so `alarm_update` finds a time of day in every
alarm that is started. -/
theorem alarms_timed {env : AlarmEnv δ} (env_ : EnvTimed env) {start c : AlarmContainer δ}
    (fresh : start.Fresh) {calls : List AlarmCall} {results : List Int}
    (run : (alarmMachine env).Run (fun _ call => call.Timed) start calls results c) :
    AlarmsTimed c ∧ StartedValid c := by
  have timed : AlarmsTimed c := by
    refine run.invariant (fun alarm used => absurd used (fresh.2.2 alarm)) ?_
    intro c call next emitted timed admitted transition
    cases call <;> simp only [alarmMachine, Option.some.injEq, Prod.mk.injEq] at transition <;>
      obtain ⟨rfl, -⟩ := transition
    case create memory callback setup => exact timed.rtAlarmCreate memory callback setup
    case control => exact timed.rtAlarmControl env_ _ _ admitted.2.2
    case start => exact timed.rtAlarmStart env_ _ admitted.1
    case stop => exact timed.rtAlarmStop env_ _
    case delete => exact timed.rtAlarmDelete env_ _
    case update => exact timed.alarmUpdate env_
  exact ⟨timed, fun alarm _ started => timed alarm (inUse_of_started started)⟩

end RtThread
