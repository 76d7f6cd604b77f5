import RtThread.Std.Soonest
import RtThread.Drivers.Alarm

/-!
# The choice of the current alarm

Which alarm `rt_alarm_start` and `alarm_update` program into the device, compared with the one that
comes round next.
-/

namespace RtThread

open RtThread.Std

variable {δ : Type}

/-! ## Times of day -/

namespace Tm

/-- A time of day. -/
structure IsTimeOfDay (time : Tm) : Prop where
  sec : 0 ≤ time.tmSec ∧ time.tmSec < 60
  min : 0 ≤ time.tmMin ∧ time.tmMin < 60
  hour : 0 ≤ time.tmHour ∧ time.tmHour < 24

/-- Seconds since midnight. -/
def daySec (time : Tm) : Int := time.tmSec + time.tmMin * 60 + time.tmHour * 3600

/-- The same time of day. -/
def SameTime (time time' : Tm) : Prop :=
  time.tmSec = time'.tmSec ∧ time.tmMin = time'.tmMin ∧ time.tmHour = time'.tmHour

variable {time time' : Tm}

theorem IsTimeOfDay.daySec (valid : time.IsTimeOfDay) :
    0 ≤ time.daySec ∧ time.daySec < 24 * 3600 := by
  obtain ⟨⟨_, _⟩, ⟨_, _⟩, ⟨_, _⟩⟩ := valid
  rw [Tm.daySec]
  omega

theorem SameTime.daySec (same : time.SameTime time') : time.daySec = time'.daySec := by
  obtain ⟨sec, min, hour⟩ := same
  rw [Tm.daySec, Tm.daySec, sec, min, hour]

theorem SameTime.isTimeOfDay (same : time.SameTime time') (valid : time.IsTimeOfDay) :
    time'.IsTimeOfDay := by
  obtain ⟨sec, min, hour⟩ := same
  exact ⟨sec ▸ valid.sec, min ▸ valid.min, hour ▸ valid.hour⟩

theorem SameTime.refl : time.SameTime time := ⟨rfl, rfl, rfl⟩

theorem SameTime.trans {time'' : Tm} (same : time.SameTime time') (same' : time'.SameTime time'') :
    time.SameTime time'' :=
  ⟨same.1.trans same'.1, same.2.1.trans same'.2.1, same.2.2.trans same'.2.2⟩

end Tm

theorem alarmMkdaysec_eq (time : Tm) : alarmMkdaysec time = BitVec.ofInt 32 time.daySec := by
  rw [alarmMkdaysec, ← BitVec.ofInt_add, ← BitVec.ofInt_add, Tm.daySec]

theorem alarmMkdaysec_toInt {time : Tm} (valid : time.IsTimeOfDay) :
    (alarmMkdaysec time).toInt = time.daySec := by
  obtain ⟨above, below⟩ := valid.daySec
  rw [alarmMkdaysec_eq, BitVec.toInt_ofInt]
  exact Int.bmod_eq_of_le (by omega) (by omega)

/-- `sec_alarm - sec_now` does not overflow. -/
theorem alarmMkdaysec_sub {time now : Tm} (valid : time.IsTimeOfDay) (valid' : now.IsTimeOfDay) :
    (alarmMkdaysec time - alarmMkdaysec now).toInt = time.daySec - now.daySec := by
  obtain ⟨above, below⟩ := valid.daySec
  obtain ⟨above', below'⟩ := valid'.daySec
  rw [BitVec.toInt_sub, alarmMkdaysec_toInt valid, alarmMkdaysec_toInt valid']
  exact Int.bmod_eq_of_le (by omega) (by omega)

/-! ## The device -/

/-- The device is there and carries out both commands. -/
structure Works (env : AlarmEnv δ) (c : AlarmContainer δ) : Prop where
  found : c.rtc ≠ none
  set : ∀ device wkalarm, (env.setAlarm device wkalarm).1 = rtEok
  get : ∀ device wkalarm, (env.getAlarm device wkalarm).1 = rtEok

theorem Works.alarmSet {env : AlarmEnv δ} {c : AlarmContainer δ} (works : Works env c)
    (alarm : AlarmId) : (alarmSet env c alarm).1 = rtEok := by
  obtain ⟨device, found⟩ := Option.ne_none_iff_exists'.mp works.found
  have set := works.set device
  have get := works.get
  simp only [RtThread.alarmSet, found]
  split
  · rename_i enabled
    rw [if_pos (get _ _), get]
  · rename_i other
    exact set _

/-! ## What an operation leaves alone -/

namespace AlarmContainer

variable {c : AlarmContainer δ} {alarm x : AlarmId} {flag : BitVec 32} {wktime : Tm}

theorem setFlag_of_ne (other : x ≠ alarm) : (c.setFlag alarm flag).alarms x = c.alarms x :=
  Function.update_of_ne other ..

theorem setWktime_of_ne (other : x ≠ alarm) : (c.setWktime alarm wktime).alarms x = c.alarms x :=
  Function.update_of_ne other ..

theorem setFlag_self : (c.setFlag alarm flag).alarms alarm = { c.alarms alarm with flag } :=
  Function.update_self ..

theorem setWktime_self : (c.setWktime alarm wktime).alarms alarm = { c.alarms alarm with wktime } :=
  Function.update_self ..

@[simp] theorem setFlag_wktime :
    ((c.setFlag alarm flag).alarms x).wktime = (c.alarms x).wktime := by
  by_cases same : x = alarm
  · rw [same, setFlag_self]
  · rw [setFlag_of_ne same]

@[simp] theorem setWktime_flag :
    ((c.setWktime alarm wktime).alarms x).flag = (c.alarms x).flag := by
  by_cases same : x = alarm
  · rw [same, setWktime_self]
  · rw [setWktime_of_ne same]

end AlarmContainer

/-! ## Starting an alarm -/

/-- The test of `rt_alarm_start`, on the seconds of the day. -/
def GoesFirst (now old new : Int) : Prop :=
  new < old ∧ new > now ∨ new > now ∧ old < now ∨ new < old ∧ old < now

instance (now old new : Int) : Decidable (GoesFirst now old new) := by
  unfold GoesFirst
  infer_instance

section

variable {env : AlarmEnv δ} {c : AlarmContainer δ} {alarm old : AlarmId} {setupNow now : Tm}

theorem rtAlarmStart_current (works : Works env c)
    (inited : (c.alarms alarm).flag &&& rtAlarmStateInited ≠ 0)
    (stopped : (c.alarms alarm).flag &&& rtAlarmStateStart = 0) (current : c.current = some old)
    (other : alarm ≠ old) :
    (rtAlarmStart env c (some alarm) setupNow now).2.current = some alarm ↔
      GoesFirst (alarmMkdaysec now).toInt (alarmMkdaysec (c.alarms old).wktime).toInt
        (alarmMkdaysec (c.alarms alarm).wktime).toInt := by
  have set := Works.alarmSet (c := c.setFlag alarm ((c.alarms alarm).flag ||| rtAlarmStateStart))
    ⟨works.found, works.set, works.get⟩ alarm
  have kept : (c.setFlag alarm ((c.alarms alarm).flag ||| rtAlarmStateStart)).current = some old :=
    current
  simp only [rtAlarmStart, if_neg inited, ne_eq, not_true_eq_false, if_false, if_pos stopped, kept,
    AlarmContainer.setFlag_wktime, if_pos set]
  rw [GoesFirst]
  split
  · rename_i first
    exact iff_of_true rfl first
  · rename_i later
    refine iff_of_false (fun taken => other ?_) later
    exact (Option.some.inj (kept.symm.trans taken)).symm

/-- The test misses what the cyclic order says only when the old alarm is at this very second. -/
theorem goesFirst_iff {now old new : Int} (valid : 0 ≤ now ∧ now < 24 * 3600)
    (valid' : 0 ≤ old ∧ old < 24 * 3600) (valid'' : 0 ≤ new ∧ new < 24 * 3600) (apart : new ≠ old) :
    (GoesFirst now old new ↔ untilNext (24 * 3600) now new < untilNext (24 * 3600) now old) ↔
      old ≠ now := by
  rw [untilNext_lt_iff valid'' valid', GoesFirst]
  constructor
  · rintro agrees rfl
    rcases lt_or_gt_of_ne apart with before | behind
    · have first := agrees.mpr (.inr (.inr ⟨before, le_rfl⟩))
      omega
    · have first := agrees.mpr (.inr (.inl ⟨behind, le_rfl⟩))
      omega
  · intro other
    omega

end

/-- Starting an alarm makes it the current one when it comes round before the current one, unless
the current one is at this very second. -/
theorem alarm_start_keeps_soonest {env : AlarmEnv δ} {c : AlarmContainer δ} {alarm old : AlarmId}
    (setupNow : Tm) {now : Tm} (works : Works env c)
    (inited : (c.alarms alarm).flag &&& rtAlarmStateInited ≠ 0)
    (stopped : (c.alarms alarm).flag &&& rtAlarmStateStart = 0) (current : c.current = some old)
    (valid : now.IsTimeOfDay) (valid_old : (c.alarms old).wktime.IsTimeOfDay)
    (valid_new : (c.alarms alarm).wktime.IsTimeOfDay)
    (apart : (c.alarms alarm).wktime.daySec ≠ (c.alarms old).wktime.daySec) :
    ((rtAlarmStart env c (some alarm) setupNow now).2.current = some alarm ↔
      untilNext (24 * 3600) now.daySec (c.alarms alarm).wktime.daySec <
        untilNext (24 * 3600) now.daySec (c.alarms old).wktime.daySec) ↔
      (c.alarms old).wktime.daySec ≠ now.daySec := by
  have other : alarm ≠ old := by
    rintro rfl
    exact apart rfl
  rw [rtAlarmStart_current works inited stopped current other, alarmMkdaysec_toInt valid,
    alarmMkdaysec_toInt valid_old, alarmMkdaysec_toInt valid_new]
  exact goesFirst_iff valid.daySec valid_old.daySec valid_new.daySec apart

/-- A device that does what it is told, and a clock of one day. -/
def plainRtc : AlarmEnv Unit where
  setAlarm device _ := (rtEok, device)
  getAlarm device wkalarm := (rtEok, wkalarm, device)
  mktime time := (alarmMkdaysec time, time)
  call _ _ c := c

/-- A full hour on a day of the week. -/
def hourOf (wday hour : Int) : Tm := ⟨0, 0, hour, 1, 0, 113, wday⟩

/-- Alarm 0 is a daily alarm at eight, and the current one. Alarm 1, at nine, is stopped. -/
def eightAndNine : AlarmContainer Unit where
  head := [1, 0]
  alarms alarm := if alarm = 0 then ⟨0x103, 0, hourOf 0 8⟩ else ⟨0x102, 0, hourOf 0 9⟩
  current := some 0
  rtc := some ()

theorem alarm_start_keeps_soonest_at_seven :
    (((rtAlarmStart plainRtc eightAndNine (some 1) (hourOf 0 7) (hourOf 0 7)).2.current = some 1 ↔
      untilNext (24 * 3600) (hourOf 0 7).daySec (hourOf 0 9).daySec <
        untilNext (24 * 3600) (hourOf 0 7).daySec (hourOf 0 8).daySec) ↔
      (hourOf 0 8).daySec ≠ (hourOf 0 7).daySec) ∧ (hourOf 0 8).daySec ≠ (hourOf 0 7).daySec :=
  ⟨@alarm_start_keeps_soonest _ plainRtc eightAndNine 1 _ (hourOf 0 7) (hourOf 0 7)
    ⟨by decide, fun _ _ => rfl, fun _ _ => rfl⟩ (by decide) (by decide) rfl
    ⟨by decide, by decide, by decide⟩ ⟨by decide, by decide, by decide⟩
    ⟨by decide, by decide, by decide⟩ (by decide), by decide⟩

/-- At eight o'clock, the alarm at nine does not become the current one. -/
theorem alarm_start_delays :
    ¬ ((rtAlarmStart plainRtc eightAndNine (some 1) (hourOf 0 8) (hourOf 0 8)).2.current = some 1 ↔
      untilNext (24 * 3600) (hourOf 0 8).daySec (hourOf 0 9).daySec <
        untilNext (24 * 3600) (hourOf 0 8).daySec (hourOf 0 8).daySec) := by
  decide

/-! ## A call in which no alarm fires -/

/-- `mktime` does not change a time of day. -/
def KeepsTimes (env : AlarmEnv δ) : Prop :=
  ∀ time : Tm, time.IsTimeOfDay → time.SameTime (env.mktime time).2

/-- Every started alarm has a time of day. -/
def StartedValid (c : AlarmContainer δ) : Prop :=
  ∀ alarm ∈ c.head, (c.alarms alarm).flag &&& rtAlarmStateStart ≠ 0 →
    (c.alarms alarm).wktime.IsTimeOfDay

/-- But for dates, the container is the same. -/
structure Keeps (c c' : AlarmContainer δ) : Prop where
  head : c'.head = c.head
  current : c'.current = c.current
  rtc : c'.rtc = c.rtc
  flag : ∀ x, (c'.alarms x).flag = (c.alarms x).flag
  time : ∀ x, (c.alarms x).wktime.SameTime (c'.alarms x).wktime

namespace Keeps

variable {c c' c'' : AlarmContainer δ}

theorem refl : Keeps c c := ⟨rfl, rfl, rfl, fun _ => rfl, fun _ => .refl⟩

theorem trans (keeps : Keeps c c') (keeps' : Keeps c' c'') : Keeps c c'' where
  head := keeps'.head.trans keeps.head
  current := keeps'.current.trans keeps.current
  rtc := keeps'.rtc.trans keeps.rtc
  flag x := (keeps'.flag x).trans (keeps.flag x)
  time x := (keeps.time x).trans (keeps'.time x)

theorem setWktime {alarm : AlarmId} {wktime : Tm}
    (same : (c.alarms alarm).wktime.SameTime wktime) : Keeps c (c.setWktime alarm wktime) where
  head := rfl
  current := rfl
  rtc := rfl
  flag x := AlarmContainer.setWktime_flag
  time x := by
    by_cases here : x = alarm
    · rw [here, AlarmContainer.setWktime_self]
      exact same
    · rw [AlarmContainer.setWktime_of_ne here]
      exact .refl

theorem startedValid (keeps : Keeps c c') (valid : StartedValid c) : StartedValid c' := by
  intro alarm member started
  rw [keeps.head] at member
  rw [keeps.flag] at started
  exact (keeps.time alarm).isTimeOfDay (valid alarm member started)

theorem waits (keeps : Keeps c c') (alarm : AlarmId) : c'.Waits alarm ↔ c.Waits alarm := by
  rw [AlarmContainer.Waits, AlarmContainer.Waits, keeps.flag, keeps.current]

end Keeps

section

variable {env : AlarmEnv δ} {c : AlarmContainer δ} {alarm : AlarmId} {now : Tm}

theorem wakeupMode_keeps (keeps : KeepsTimes env) (valid : (c.alarms alarm).wktime.IsTimeOfDay)
    (quiet : (wakeupMode env c alarm now).2.2 = false) :
    Keeps c (wakeupMode env c alarm now).1 := by
  rw [wakeupMode] at quiet ⊢
  split at quiet
  · rename_i oneshot
    rw [if_pos oneshot]
    dsimp only at quiet ⊢
    split at quiet
    · cases quiet
    · rename_i early
      rw [if_neg early]
      exact .setWktime (keeps _ valid)
  · rename_i oneshot
    rw [if_neg oneshot]
    split_ifs
    all_goals exact .refl

theorem alarmWakeup_keeps (keeps : KeepsTimes env)
    (valid : (c.alarms alarm).flag &&& rtAlarmStateStart ≠ 0 →
      (c.alarms alarm).wktime.IsTimeOfDay)
    (quiet : (alarmWakeup env c alarm now).2.2 = false) :
    Keeps c (alarmWakeup env c alarm now).1 := by
  rw [alarmWakeup] at quiet ⊢
  by_cases stopped : (c.alarms alarm).flag &&& rtAlarmStateStart = 0
  · rw [if_pos stopped]
    exact .refl
  · rw [if_neg stopped] at quiet ⊢
    dsimp only at quiet ⊢
    have silent : (wakeupMode env c alarm now).2.2 = false := by
      split at quiet <;> exact quiet
    rw [if_neg fun calls => Bool.false_ne_true (silent.symm.trans calls.1)]
    exact wakeupMode_keeps keeps (valid stopped) silent

/-- A pass in which no alarm fires. -/
theorem wakeupAlarms_keeps (keeps : KeepsTimes env) {l : List AlarmId} (part : ∀ x ∈ l, x ∈ c.head)
    (valid : StartedValid c) (quiet : (wakeupAlarms env l c now).2 = []) :
    Keeps c (wakeupAlarms env l c now).1 := by
  induction l generalizing c now with
  | nil => exact .refl
  | cons alarm next ih =>
      rw [wakeupAlarms] at quiet ⊢
      dsimp only at quiet ⊢
      have silent : (alarmWakeup env c alarm now).2.2 = false := by
        by_contra loud
        rw [if_pos (Bool.eq_true_of_not_eq_false loud)] at quiet
        cases quiet
      rw [if_neg (by rw [silent]; exact Bool.false_ne_true)] at quiet
      have first := alarmWakeup_keeps keeps (valid alarm (part alarm List.mem_cons_self)) silent
      refine first.trans (ih (fun x member => ?_) (first.startedValid valid) quiet)
      rw [first.head]
      exact part x (List.mem_cons_of_mem alarm member)

end

/-! ## The search for the next alarm -/

namespace AlarmContainer

variable (c : AlarmContainer δ) (now : Tm)

/-- Waits for a time later today. -/
def Later (alarm : AlarmId) : Prop := c.Waits alarm ∧ 0 < c.secTmp now alarm

/-- Waits for a time that is over today, or that it is now. -/
def Earlier (alarm : AlarmId) : Prop := c.Waits alarm ∧ c.secTmp now alarm ≤ 0

instance : DecidablePred (c.Later now) := fun _ => instDecidableAnd

instance : DecidablePred (c.Earlier now) := fun _ => instDecidableAnd

/-- The search for the next alarm later today, and for the first one of the day. -/
def next (l : List AlarmId) : Least AlarmId Int :=
  l.foldl (Least.visit (c.Later now) (c.secTmp now)) ⟨24 * 3600, none⟩

def prev (l : List AlarmId) : Least AlarmId Int :=
  l.foldl (Least.visit (c.Earlier now) (c.secTmp now)) ⟨0, none⟩

variable {c now}

theorem scan_eq (s : AlarmScan) (alarm : AlarmId) : c.scan now s alarm =
    let next := Least.visit (c.Later now) (c.secTmp now) ⟨s.secNext, s.almNext⟩ alarm
    let prev := Least.visit (c.Earlier now) (c.secTmp now) ⟨s.secPrev, s.almPrev⟩ alarm
    ⟨next.key, next.holder, prev.key, prev.holder⟩ := by
  rw [scan, Least.visit, Least.visit]
  by_cases waits : c.Waits alarm
  · by_cases later : 0 < c.secTmp now alarm
    · have today : ¬ c.secTmp now alarm ≤ 0 := later.not_ge
      simp only [Later, Earlier, waits, later, today, if_true, true_and, false_and, and_false,
        if_false]
      split <;> rfl
    · have today : c.secTmp now alarm ≤ 0 := le_of_not_gt later
      simp only [Later, Earlier, waits, later, today, if_true, true_and, false_and, and_false,
        if_false]
      split <;> rfl
  · simp only [Later, Earlier, waits, false_and, if_false]

/-- The loop makes both searches at once. -/
theorem foldl_scan_eq (l : List AlarmId) (s : AlarmScan) : l.foldl (c.scan now) s =
    let next := l.foldl (Least.visit (c.Later now) (c.secTmp now)) ⟨s.secNext, s.almNext⟩
    let prev := l.foldl (Least.visit (c.Earlier now) (c.secTmp now)) ⟨s.secPrev, s.almPrev⟩
    ⟨next.key, next.holder, prev.key, prev.holder⟩ := by
  induction l generalizing s with
  | nil => rfl
  | cons alarm rest ih =>
      rw [List.foldl_cons, List.foldl_cons, List.foldl_cons, ih, scan_eq]

end AlarmContainer

/-- What the choice should be: of the waiting alarms one that comes round first, and if there is
none the alarm from before. -/
def PicksNext (c : AlarmContainer δ) (now : Tm) (after : Option AlarmId) : Prop :=
  ((∃ x ∈ c.head, c.Waits x) →
    ∃ x ∈ c.head, c.Waits x ∧ after = some x ∧ ∀ y ∈ c.head, c.Waits y →
      untilNext (24 * 3600) now.daySec (c.alarms x).wktime.daySec ≤
        untilNext (24 * 3600) now.daySec (c.alarms y).wktime.daySec) ∧
  ((¬ ∃ x ∈ c.head, c.Waits x) → after = c.current)

/-- If any alarm waits, one waits for another time than now. -/
def SomeOtherTime (c : AlarmContainer δ) (now : Tm) : Prop :=
  (∃ x ∈ c.head, c.Waits x) →
    ∃ x ∈ c.head, c.Waits x ∧ (c.alarms x).wktime.daySec ≠ now.daySec

theorem Keeps.picksNext {c c' : AlarmContainer δ} (keeps : Keeps c c') (now : Tm)
    (after : Option AlarmId) : PicksNext c' now after ↔ PicksNext c now after := by
  have time (x : AlarmId) : (c'.alarms x).wktime.daySec = (c.alarms x).wktime.daySec :=
    (keeps.time x).daySec.symm
  simp only [PicksNext, keeps.head, keeps.waits, keeps.current, time]

theorem Keeps.someOtherTime {c c' : AlarmContainer δ} (keeps : Keeps c c') (now : Tm) :
    SomeOtherTime c' now ↔ SomeOtherTime c now := by
  have time (x : AlarmId) : (c'.alarms x).wktime.daySec = (c.alarms x).wktime.daySec :=
    (keeps.time x).daySec.symm
  simp only [SomeOtherTime, keeps.head, keeps.waits, time]

section

variable {env : AlarmEnv δ} {c : AlarmContainer δ} {now : Tm}

theorem program_current (works : Works env c) (alarm : AlarmId) :
    (c.program env alarm).current = some alarm := by
  rw [AlarmContainer.program]
  dsimp only
  rw [if_pos (works.alarmSet alarm)]

theorem alarmChoose_picksNext_iff (works : Works env c) (started : StartedValid c)
    (valid : now.IsTimeOfDay) :
    PicksNext c now (alarmChoose env c now).current ↔ SomeOtherTime c now := by
  have day (x : AlarmId) (member : x ∈ c.head) (waits : c.Waits x) :
      c.secTmp now x = (c.alarms x).wktime.daySec - now.daySec ∧
        0 ≤ (c.alarms x).wktime.daySec ∧ (c.alarms x).wktime.daySec < 24 * 3600 :=
    have timed := started x member waits.1
    ⟨alarmMkdaysec_sub timed valid, timed.daySec⟩
  have today := valid.daySec
  have later := Least.tells_foldl (c.Later now) (c.secTmp now) (24 * 3600) c.head
  have earlier := Least.tells_foldl (c.Earlier now) (c.secTmp now) 0 c.head
  rw [alarmChoose, AlarmContainer.foldl_scan_eq]
  dsimp only
  generalize c.head.foldl (Least.visit (c.Later now) (c.secTmp now)) ⟨24 * 3600, none⟩ = next
    at later ⊢
  generalize c.head.foldl (Least.visit (c.Earlier now) (c.secTmp now)) ⟨0, none⟩ = prev
    at earlier ⊢
  cases later with
  | somebody x member admits below least =>
      have place := day x member admits.1
      have ahead := admits.2
      have picked := program_current works x
      refine iff_of_true ⟨fun _ => ⟨x, member, admits.1, ?_, fun y member' waits => ?_⟩,
        fun none_ => absurd ⟨x, member, admits.1⟩ none_⟩ fun _ => ⟨x, member, admits.1, by omega⟩
      · rw [if_pos below]
        exact picked
      · have place' := day y member' waits
        have first : 0 < c.secTmp now y → c.secTmp now x ≤ c.secTmp now y := fun ahead' =>
          least y member' ⟨waits, ahead'⟩
        rw [← not_lt, untilNext_lt_iff place'.2 place.2]
        omega
  | nobody none_later =>
      -- nothing is left today
      have past (y : AlarmId) (member : y ∈ c.head) (waits : c.Waits y) :
          c.secTmp now y ≤ 0 := by
        have place := day y member waits
        have beyond := none_later y member
        by_contra ahead
        have far := beyond ⟨waits, lt_of_not_ge ahead⟩
        omega
      rw [if_neg (lt_irrefl _)]
      cases earlier with
      | somebody x member admits below least =>
          have place := day x member admits.1
          have picked := program_current works x
          refine iff_of_true ⟨fun _ => ⟨x, member, admits.1, ?_, fun y member' waits => ?_⟩,
            fun none_ => absurd ⟨x, member, admits.1⟩ none_⟩
            fun _ => ⟨x, member, admits.1, by omega⟩
          · rw [if_pos below]
            exact picked
          · have place' := day y member' waits
            have gone := past y member' waits
            have first := least y member' ⟨waits, gone⟩
            rw [← not_lt, untilNext_lt_iff place'.2 place.2]
            omega
      | nobody none_earlier =>
          -- every alarm that waits is at this very second
          have here (y : AlarmId) (member : y ∈ c.head) (waits : c.Waits y) :
              (c.alarms y).wktime.daySec = now.daySec := by
            have place := day y member waits
            have gone := past y member waits
            have least := none_earlier y member ⟨waits, gone⟩
            omega
          rw [if_neg (lt_irrefl _)]
          constructor
          · rintro ⟨picks, -⟩ some_
            obtain ⟨x, member, waits, same, -⟩ := picks some_
            exact absurd same waits.2
          · intro other
            refine ⟨fun some_ => ?_, fun _ => rfl⟩
            obtain ⟨x, member, waits, apart⟩ := other some_
            exact absurd (here x member waits) apart

end

section

variable {env : AlarmEnv δ} {c : AlarmContainer δ} {first now : Tm}

theorem alarmUpdate_eq (now : Tm) (keeps : KeepsTimes env) (started : StartedValid c)
    (quiet : (wakeupAlarms env c.head c first).2 = []) :
    ∃ c', Keeps c c' ∧
      (alarmUpdate env c first now).current = (alarmChoose env c' now).current := by
  rw [alarmUpdate]
  split
  · rename_i empty
    refine ⟨c, .refl, ?_⟩
    rw [alarmChoose, empty]
    rfl
  · exact ⟨_, wakeupAlarms_keeps keeps (fun _ member => member) started quiet, rfl⟩

end

/-- When no alarm fires, `alarm_update` makes the alarm that comes round next the current one,
unless all that wait are at this very second. -/
theorem alarm_update_picks_next {env : AlarmEnv δ} {c : AlarmContainer δ} (first : Tm) {now : Tm}
    (works : Works env c) (keeps : KeepsTimes env) (started : StartedValid c)
    (valid : now.IsTimeOfDay) (quiet : (wakeupAlarms env c.head c first).2 = []) :
    PicksNext c now (alarmUpdate env c first now).current ↔ SomeOtherTime c now := by
  obtain ⟨c', same, current⟩ := alarmUpdate_eq now keeps started quiet
  have works' : Works env c' := ⟨same.rtc ▸ works.found, works.set, works.get⟩
  rw [current, ← same.picksNext, ← same.someOtherTime]
  exact alarmChoose_picksNext_iff works' (same.startedValid started) valid

/-- Alarm 0 is a weekly alarm at eight on Mondays, alarm 1 a daily one. None is the current one. -/
def mondays (flag : BitVec 32) : AlarmContainer Unit where
  head := [1, 0]
  alarms alarm := if alarm = 0 then ⟨0x203, 0, hourOf 1 8⟩ else ⟨flag, 0, hourOf 0 9⟩
  current := none
  rtc := some ()

/-- On Sunday at eight, when both are started. -/
theorem alarm_update_picks_next_daily :
    (wakeupAlarms plainRtc [1, 0] (mondays 0x103) (hourOf 0 8)).2 = [] ∧
      (PicksNext (mondays 0x103) (hourOf 0 8)
        (alarmUpdate plainRtc (mondays 0x103) (hourOf 0 8) (hourOf 0 8)).current ↔
        SomeOtherTime (mondays 0x103) (hourOf 0 8)) := by
  refine ⟨by decide, alarm_update_picks_next (c := mondays 0x103) (hourOf 0 8)
    ⟨by decide, fun _ _ => rfl, fun _ _ => rfl⟩ (fun _ _ => .refl) ?_
    ⟨by decide, by decide, by decide⟩ (by decide)⟩
  intro alarm _ _
  by_cases first : alarm = 0
  · subst first
    exact ⟨by decide, by decide, by decide⟩
  · have nine : (mondays 0x103).alarms alarm = ⟨0x103, 0, hourOf 0 9⟩ := if_neg first
    rw [nine]
    exact ⟨by decide, by decide, by decide⟩

/-- When only the weekly one is started, it is never programmed. -/
theorem alarm_update_leaves_none :
    (wakeupAlarms plainRtc [1, 0] (mondays 0x102) (hourOf 0 8)).2 = [] ∧
      ¬ PicksNext (mondays 0x102) (hourOf 0 8)
        (alarmUpdate plainRtc (mondays 0x102) (hourOf 0 8) (hourOf 0 8)).current := by
  refine ⟨by decide, fun picks => ?_⟩
  obtain ⟨x, -, -, same, -⟩ := picks.1 ⟨0, by decide, by decide, by decide⟩
  have none_ : (alarmUpdate plainRtc (mondays 0x102) (hourOf 0 8) (hourOf 0 8)).current = none := by
    decide
  rw [none_] at same
  cases same

end RtThread
