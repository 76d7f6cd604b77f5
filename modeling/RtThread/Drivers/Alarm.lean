import Mathlib

/-!
# The alarm service

`alarm.c` of the RTC driver. The alarms are in a list, and one of them, `current`, is programmed
into the RTC device. All functions run with the mutex of the container.
-/

namespace RtThread

/-! ## Data -/

def rtEok : Int := 0
def rtError : Int := 1

def rtRtcYearsMax : Int := 137
def rtAlarmDelay : BitVec 32 := 2
def rtAlarmStateInited : BitVec 32 := 0x02
def rtAlarmStateStart : BitVec 32 := 0x01

def rtAlarmTmNow : Int := -1

def rtAlarmOneshot : BitVec 32 := 0x000
def rtAlarmDaily : BitVec 32 := 0x100
def rtAlarmWeekly : BitVec 32 := 0x200
def rtAlarmMonthly : BitVec 32 := 0x400
def rtAlarmYaerly : BitVec 32 := 0x800

def rtAlarmCtrlModify : BitVec 8 := 1

/-- `struct tm`. -/
structure Tm where
  tmSec : Int
  tmMin : Int
  tmHour : Int
  tmMday : Int
  tmMon : Int
  tmYear : Int
  tmWday : Int
deriving DecidableEq, Repr

/-- `struct rt_rtc_wkalarm`. -/
structure RtcWkalarm where
  enable : Bool
  tmSec : Int
  tmMin : Int
  tmHour : Int
deriving DecidableEq, Repr

/-- `struct rt_alarm` without its list node. A `callback` of 0 is `RT_NULL`. -/
structure Alarm where
  flag : BitVec 32
  callback : BitVec 32
  wktime : Tm
deriving DecidableEq, Repr

/-- `struct rt_alarm_setup`. -/
structure AlarmSetup where
  flag : BitVec 32
  wktime : Tm
deriving DecidableEq, Repr

abbrev AlarmId := Nat

/-- `_container`, the alarms that are pointed to, and the state of the RTC device, if there is
one. -/
structure AlarmContainer (δ : Type) where
  head : List AlarmId
  alarms : AlarmId → Alarm
  current : Option AlarmId
  rtc : Option δ

/-- What `alarm.c` calls: the control commands of the RTC driver, `mktime`, which may also change
the time it is given, and the callbacks, which are given their alarm and neither create nor delete
alarms. -/
structure AlarmEnv (δ : Type) where
  setAlarm : δ → RtcWkalarm → Int × δ
  getAlarm : δ → RtcWkalarm → Int × RtcWkalarm × δ
  mktime : Tm → BitVec 32 × Tm
  call : BitVec 32 → AlarmId → AlarmContainer δ → AlarmContainer δ

variable {δ : Type}

namespace AlarmContainer

def setWktime (c : AlarmContainer δ) (alarm : AlarmId) (wktime : Tm) : AlarmContainer δ :=
  { c with alarms := Function.update c.alarms alarm { c.alarms alarm with wktime } }

def setFlag (c : AlarmContainer δ) (alarm : AlarmId) (flag : BitVec 32) : AlarmContainer δ :=
  { c with alarms := Function.update c.alarms alarm { c.alarms alarm with flag } }

end AlarmContainer

/-! ## Programming the device -/

/-- `alarm_mkdaysec`. -/
def alarmMkdaysec (time : Tm) : BitVec 32 :=
  BitVec.ofInt 32 time.tmSec + BitVec.ofInt 32 (time.tmMin * 60) +
    BitVec.ofInt 32 (time.tmHour * 3600)

/-- `alarm_set`. -/
def alarmSet (env : AlarmEnv δ) (c : AlarmContainer δ) (alarm : AlarmId) :
    Int × AlarmContainer δ :=
  match c.rtc with
  | none => (rtError, c)
  | some device =>
      let wktime := (c.alarms alarm).wktime
      let wkalarm : RtcWkalarm :=
        ⟨decide ((c.alarms alarm).flag &&& rtAlarmStateStart ≠ 0), wktime.tmSec, wktime.tmMin,
          wktime.tmHour⟩
      let (ret, device) := env.setAlarm device wkalarm
      let c := { c with rtc := some device }
      if ret = rtEok ∧ wkalarm.enable then
        let (ret, wkalarm, device) := env.getAlarm device wkalarm
        let c := { c with rtc := some device }
        if ret = rtEok then
          -- a device that is less precise has its own time put into the alarm
          (ret, c.setWktime alarm { wktime with
            tmSec := wkalarm.tmSec, tmMin := wkalarm.tmMin, tmHour := wkalarm.tmHour })
        else (ret, c)
      else (ret, c)

/-! ## Waking up -/

/-- The alarm is over, but not for longer than the delay. -/
def Overtime (secNow secAlarm : BitVec 32) : Prop :=
  secNow - secAlarm ≤ rtAlarmDelay ∧ secAlarm ≤ secNow

instance (secNow secAlarm : BitVec 32) : Decidable (Overtime secNow secAlarm) := by
  unfold Overtime
  infer_instance

/-- The `switch` of `alarm_wakeup`: the container, `now`, which `mktime` may have changed, and
`wakeup`. -/
def wakeupMode (env : AlarmEnv δ) (c : AlarmContainer δ) (alarm : AlarmId) (now : Tm) :
    AlarmContainer δ × Tm × Bool :=
  let flag := (c.alarms alarm).flag
  let wktime := (c.alarms alarm).wktime
  let secAlarm := alarmMkdaysec wktime
  let secNow := alarmMkdaysec now
  if flag &&& 0xff00 = rtAlarmOneshot then
    let (secAlarm, wktime) := env.mktime wktime
    let c := c.setWktime alarm wktime
    let (secNow, now) := env.mktime now
    if Overtime secNow secAlarm then
      let c := c.setFlag alarm (flag &&& ~~~rtAlarmStateStart)
      ((alarmSet env c alarm).2, now, true)
    else (c, now, false)
  else if flag &&& 0xff00 = rtAlarmDaily then (c, now, decide (Overtime secNow secAlarm))
  else if flag &&& 0xff00 = rtAlarmWeekly then
    let secAlarm := secAlarm + BitVec.ofInt 32 (wktime.tmWday * 24 * 3600)
    let secNow := secNow + BitVec.ofInt 32 (now.tmWday * 24 * 3600)
    (c, now, decide (Overtime secNow secAlarm))
  else if flag &&& 0xff00 = rtAlarmMonthly then
    (c, now, decide (wktime.tmMday = now.tmMday ∧ secNow - secAlarm ≤ rtAlarmDelay))
  else if flag &&& 0xff00 = rtAlarmYaerly then
    (c, now, decide ((wktime.tmMday = now.tmMday ∧ wktime.tmMon = now.tmMon) ∧
      secNow - secAlarm ≤ rtAlarmDelay))
  else (c, now, false)

/-- `alarm_wakeup`. -/
def alarmWakeup (env : AlarmEnv δ) (c : AlarmContainer δ) (alarm : AlarmId) (now : Tm) :
    AlarmContainer δ × Tm × Bool :=
  if (c.alarms alarm).flag &&& rtAlarmStateStart = 0 then (c, now, false)
  else
    let (c, now, wakeup) := wakeupMode env c alarm now
    if wakeup ∧ (c.alarms alarm).callback ≠ 0 then
      (env.call (c.alarms alarm).callback alarm c, now, wakeup)
    else (c, now, wakeup)

/-- The first loop of `alarm_update`, and the alarms that have fired. -/
def wakeupAlarms (env : AlarmEnv δ) :
    List AlarmId → AlarmContainer δ → Tm → AlarmContainer δ × List AlarmId
  | [], c, _ => (c, [])
  | alarm :: next, c, now =>
      let (c, now, wakeup) := alarmWakeup env c alarm now
      let (c, fired) := wakeupAlarms env next c now
      (c, if wakeup then alarm :: fired else fired)

/-! ## The next alarm -/

/-- The variables of the second loop of `alarm_update`. -/
structure AlarmScan where
  secNext : Int
  almNext : Option AlarmId
  secPrev : Int
  almPrev : Option AlarmId
deriving DecidableEq, Repr

namespace AlarmContainer

/-- Started, and not the current one. -/
def Waits (c : AlarmContainer δ) (alarm : AlarmId) : Prop :=
  (c.alarms alarm).flag &&& rtAlarmStateStart ≠ 0 ∧ c.current ≠ some alarm

instance (c : AlarmContainer δ) : DecidablePred c.Waits := fun alarm => by
  unfold Waits
  infer_instance

/-- `sec_tmp`. -/
def secTmp (c : AlarmContainer δ) (now : Tm) (alarm : AlarmId) : Int :=
  (alarmMkdaysec (c.alarms alarm).wktime - alarmMkdaysec now).toInt

/-- A round of the second loop. -/
def scan (c : AlarmContainer δ) (now : Tm) (s : AlarmScan) (alarm : AlarmId) : AlarmScan :=
  if c.Waits alarm then
    let secTmp := c.secTmp now alarm
    if 0 < secTmp then
      if secTmp < s.secNext then { s with secNext := secTmp, almNext := some alarm } else s
    else
      if secTmp < s.secPrev then { s with secPrev := secTmp, almPrev := some alarm } else s
  else s

/-- `if (alarm_set(alarm) == RT_EOK) _container.current = alarm`. -/
def program (c : AlarmContainer δ) (env : AlarmEnv δ) (alarm : AlarmId) : AlarmContainer δ :=
  let (ret, c) := alarmSet env c alarm
  if ret = rtEok then { c with current := some alarm } else c

end AlarmContainer

/-- The second loop of `alarm_update`, and what follows it. -/
def alarmChoose (env : AlarmEnv δ) (c : AlarmContainer δ) (now : Tm) : AlarmContainer δ :=
  let s := c.head.foldl (c.scan now) ⟨24 * 3600, none, 0, none⟩
  if s.secNext < 24 * 3600 then
    s.almNext.elim c fun alarm => c.program env alarm
  else if s.secPrev < 0 then
    s.almPrev.elim c fun alarm => c.program env alarm
  else c

/-- `alarm_update`, which reads the time twice. -/
def alarmUpdate (env : AlarmEnv δ) (c : AlarmContainer δ) (first now : Tm) : AlarmContainer δ :=
  if c.head = [] then c
  else alarmChoose env (wakeupAlarms env c.head c first).1 now

/-! ## Setting up -/

/-- `days_of_year_month`. -/
def daysOfYearMonth (tmYear tmMon : Int) : Int :=
  let year := tmYear + 1900
  if tmMon = 1 then
    28 + (if year % 4 = 0 ∧ year % 100 ≠ 0 ∨ year % 400 = 0 then 1 else 0)
  else if tmMon ≤ 6 ∧ tmMon.tmod 2 = 0 ∨ tmMon > 6 ∧ tmMon.tmod 2 = 1 then 31
  else 30

/-- `is_valid_date`. -/
def isValidDate (date : Tm) : Bool :=
  if date.tmYear < 0 ∨ date.tmYear > rtRtcYearsMax then false
  else if date.tmMon < 0 ∨ date.tmMon > 11 then false
  else if date.tmMday < 1 ∨ date.tmMday > daysOfYearMonth date.tmYear date.tmMon then false
  else true

/-- The part of `alarm_setup` about the time of day. -/
def setupTimeOfDay (setup now : Tm) : Tm :=
  let setup := if setup.tmSec > 59 ∨ setup.tmSec < 0 then { setup with tmSec := now.tmSec }
    else setup
  let setup := if setup.tmMin > 59 ∨ setup.tmMin < 0 then { setup with tmMin := now.tmMin }
    else setup
  if setup.tmHour > 23 ∨ setup.tmHour < 0 then { setup with tmHour := now.tmHour } else setup

/-- The part about the date, with whether it has come to its end. -/
def setupDate (flag : BitVec 32) (setup now : Tm) : Tm × Bool :=
  if flag &&& 0xff00 = rtAlarmDaily then (setup, true)
  else if flag &&& 0xff00 = rtAlarmOneshot then
    let setup := if setup.tmYear = rtAlarmTmNow then { setup with tmYear := now.tmYear } else setup
    let setup := if setup.tmMon = rtAlarmTmNow then { setup with tmMon := now.tmMon } else setup
    let setup := if setup.tmMday = rtAlarmTmNow then { setup with tmMday := now.tmMday } else setup
    (setup, isValidDate setup)
  else if flag &&& 0xff00 = rtAlarmWeekly then
    (if setup.tmWday < 0 ∨ setup.tmWday > 6 then { setup with tmWday := now.tmWday } else setup,
      true)
  else if flag &&& 0xff00 = rtAlarmMonthly then
    (if setup.tmMday < 1 ∨ setup.tmMday > 31 then { setup with tmMday := now.tmMday } else setup,
      true)
  else if flag &&& 0xff00 = rtAlarmYaerly then
    let setup := if setup.tmMon < 0 ∨ setup.tmMon > 11 then { setup with tmMon := now.tmMon }
      else setup
    let last := if setup.tmMon = 1 then 29
      else if setup.tmMon ≤ 6 ∧ setup.tmMon.tmod 2 = 0 ∨ setup.tmMon > 6 ∧ setup.tmMon.tmod 2 = 1
        then 31
      else 30
    (if setup.tmMday < 1 ∨ setup.tmMday > last then { setup with tmMday := now.tmMday } else setup,
      true)
  else (setup, false)

/-- The last second of the day is too late for the device. -/
def setupInsurance (setup : Tm) : Tm :=
  if setup.tmHour = 23 ∧ setup.tmMin = 59 ∧ setup.tmSec = 59 then
    { setup with tmSec := 60 - rtAlarmDelay.toInt }
  else setup

/-- `alarm_setup`. -/
def alarmSetup (c : AlarmContainer δ) (alarm : AlarmId) (wktime now : Tm) :
    Int × AlarmContainer δ :=
  let flag := (c.alarms alarm).flag
  let (setup, valid) := setupDate flag (setupTimeOfDay wktime now) now
  if valid then
    (rtEok, (c.setWktime alarm (setupInsurance setup)).setFlag alarm (flag ||| rtAlarmStateInited))
  else (rtError, c.setWktime alarm setup)

/-! ## The interface -/

/-- `rt_alarm_stop`. -/
def rtAlarmStop (env : AlarmEnv δ) (c : AlarmContainer δ) (alarm : Option AlarmId)
    (first now : Tm) : Int × AlarmContainer δ :=
  match alarm with
  | none => (rtError, c)
  | some alarm =>
      let flag := (c.alarms alarm).flag
      if flag &&& rtAlarmStateStart = 0 then (rtError, c)
      else
        let c := c.setFlag alarm (flag &&& ~~~rtAlarmStateStart)
        let (ret, c) :=
          if c.current = some alarm then
            let (ret, c) := alarmSet env c alarm
            (ret, { c with current := none })
          else (rtError, c)
        if ret = rtEok then (ret, alarmUpdate env c first now) else (ret, c)

/-- `rt_alarm_control`. -/
def rtAlarmControl (env : AlarmEnv δ) (c : AlarmContainer δ) (alarm : AlarmId) (cmd : BitVec 8)
    (setup : AlarmSetup) (first now setupNow : Tm) : Int × AlarmContainer δ :=
  if cmd = rtAlarmCtrlModify then
    let c := (rtAlarmStop env c (some alarm) first now).2
    let c := (c.setFlag alarm (setup.flag &&& 0xff00)).setWktime alarm setup.wktime
    alarmSetup c alarm setup.wktime setupNow
  else (rtError, c)

/-- `rt_alarm_start`. -/
def rtAlarmStart (env : AlarmEnv δ) (c : AlarmContainer δ) (alarm : Option AlarmId)
    (setupNow now : Tm) : Int × AlarmContainer δ :=
  match alarm with
  | none => (rtError, c)
  | some alarm =>
      let (ready, c) :=
        if (c.alarms alarm).flag &&& rtAlarmStateInited = 0 then
          alarmSetup c alarm (c.alarms alarm).wktime setupNow
        else (rtEok, c)
      if ready ≠ rtEok then (rtError, c)
      else if (c.alarms alarm).flag &&& rtAlarmStateStart = 0 then
        let c := c.setFlag alarm ((c.alarms alarm).flag ||| rtAlarmStateStart)
        match c.current with
        | none =>
            let (ret, c) := alarmSet env c alarm
            if ret = rtEok then (ret, { c with current := some alarm }) else (ret, c)
        | some current =>
            let secNow := (alarmMkdaysec now).toInt
            let secOld := (alarmMkdaysec (c.alarms current).wktime).toInt
            let secNew := (alarmMkdaysec (c.alarms alarm).wktime).toInt
            if secNew < secOld ∧ secNew > secNow ∨ secNew > secNow ∧ secOld < secNow ∨
                secNew < secOld ∧ secOld < secNow then
              let (ret, c) := alarmSet env c alarm
              if ret = rtEok then (ret, { c with current := some alarm }) else (ret, c)
            else (rtEok, c)
      else (rtError, c)

/-- `rt_alarm_delete`. -/
def rtAlarmDelete (env : AlarmEnv δ) (c : AlarmContainer δ) (alarm : Option AlarmId)
    (first now : Tm) : Int × AlarmContainer δ :=
  match alarm with
  | none => (rtError, c)
  | some alarm =>
      let c := c.setFlag alarm ((c.alarms alarm).flag &&& ~~~rtAlarmStateStart)
      let (ret, c) :=
        if c.current = some alarm then
          let (ret, c) := alarmSet env c alarm
          (ret, alarmUpdate env { c with current := none } first now)
        else (rtError, c)
      (ret, { c with head := c.head.erase alarm })

/-- `rt_alarm_create` with what `rt_malloc` returns. -/
def rtAlarmCreate (c : AlarmContainer δ) (memory : Option AlarmId) (callback : BitVec 32)
    (setup : Option AlarmSetup) : Option AlarmId × AlarmContainer δ :=
  match setup, memory with
  | some setup, some alarm =>
      (some alarm, { c with
        head := alarm :: c.head
        alarms := Function.update c.alarms alarm ⟨setup.flag &&& 0xff00, callback, setup.wktime⟩ })
  | _, _ => (none, c)

end RtThread
