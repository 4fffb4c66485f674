import Zvbi.PilTime

/-!
# Validity of program identification labels

The days on which a network can be expected to broadcast a PIL, by seconds east of UTC and by a
time zone of the C library. A result is the begin and the end of the time window, or `none`
where the source returns `FALSE`; without a result here the source has computed a value an `int`
cannot hold.
-/

namespace PilValidity

open PilTime

/-- `*begin` and `*end`. -/
abbrev Window := Int × Int

def indefinite : Window := (timeMin, timeMax)

def ptyUtcValidityWindow (time : Int) : Option Window :=
  match gmtimeR time with
  | none => none
  | some tm =>
    let secondsSinceMidnight := tm.tmHour * 3600 + tm.tmMin * 60 + tm.tmSec
    let duration := 4 * 7 * 24 * 60 * 60 + (24 + 4) * 60 * 60 - secondsSinceMidnight
    if timeMax - duration < time then none else some (time, time + duration)

def validPilLtoValidityWindow (now : Int) (pil : Pil) (start secondsEast : Int) :
    Option (Option Window) := do
  let (t, errno) ← validPilLtoToTime now (pil &&& 0xFF800) start secondsEast
  if t = -1 then return if errno = .invalidPil then some indefinite else none
  else if timeMax - 28 * 60 * 60 < t then return none
  else if pilHour pil < 4 then
    if t < 4 * 60 * 60 then return none
    else return some (t - 4 * 60 * 60, t + 28 * 60 * 60)
  else return some (t, t + 28 * 60 * 60)

/-- The service codes without a restriction to the time of validity: `VBI_PIL_TIMER_CONTROL`,
`VBI_PIL_INHIBIT_TERMINATE`, `VBI_PIL_INTERRUPTION` and `VBI_PIL_CONTINUE`. -/
def serviceCodes : List Pil := [0x7FFF, 0x7FBF, 0x7F7F, 0x7F3F]

/-- `VBI_PIL_NSPV`. -/
def pilNspv : Pil := 0x7FFFF

/-- What `vbi_pil_lto_validity_window` and `vbi_pil_validity_window` have in common: the window
of a valid day and of `VBI_PIL_NSPV` is left to them. -/
def byMonth (pil : Pil) (day : Option (Option Window)) (nspv : Option Window) :
    Option (Option Window) :=
  let month := pilMonth pil
  if month = 0 then some none
  else if month ≤ 12 then
    if pilDay pil = 0 ∨ (monthDays[month - 1]?).getD 0 < pilDay pil then some (some indefinite)
    else day
  else if month ≤ 14 then some (some indefinite)
  else if pil ∈ serviceCodes then some (some indefinite)
  else if pil = pilNspv then some nspv
  else some none

/-- `vbi_pil_lto_validity_window`. -/
def vbiPilLtoValidityWindow (now : Int) (pil : Pil) (start secondsEast : Int) :
    Option (Option Window) :=
  byMonth pil (validPilLtoValidityWindow now pil start secondsEast) (ptyUtcValidityWindow start)

/-- What the C library does in a time zone. -/
structure Zone where
  /-- The name of the time zone is "UTC". -/
  isUtc : Bool
  /-- `change_tz` and `localtime_r`. -/
  localtimeR : Int → Option Tm
  mktime : Tm → Int
  /-- `restore_tz`. -/
  restoreTz : Bool

def localtimeTz (now : Int) (zone : Zone) (t : Int) : Option Tm :=
  if t = -1 then if now = -1 then none else zone.localtimeR now
  else zone.localtimeR t

def vbiPtyValidityWindow (now : Int) (zone : Zone) (lastTransm : Int) : Option Window :=
  if zone.isUtc then ptyUtcValidityWindow lastTransm
  else
    match localtimeTz now zone lastTransm with
    | none => none
    | some tm =>
      let stop := checkedTime (zone.mktime { tm with
        tmMday := tm.tmMday + (4 * 7 + 1), tmHour := 4, tmMin := 0, tmSec := 0 })
      if stop = -1 then none
      else if zone.restoreTz then some (lastTransm, stop) else none

/-- The part of `valid_pil_validity_window` after `tm_leap_day_check`. -/
def zoneWindow (zone : Zone) (pil : Pil) (tm : Tm) : Option Window :=
  let tm := { tm with tmHour := 0, tmMin := 0, tmSec := 0 }
  let tm2 := tm
  let tm := if pilHour pil < 4 then { tm with tmMday := tm.tmMday - 1, tmHour := 20 } else tm
  let start := checkedTime (zone.mktime tm)
  if start = -1 then none
  else
    let stop := checkedTime (zone.mktime { tm2 with tmMday := tm2.tmMday + 1, tmHour := 4 })
    if stop = -1 then none
    else if zone.restoreTz then some (start, stop) else none

def validPilValidityWindow (now : Int) (pil : Pil) (start : Int) (zone : Zone) :
    Option (Option Window) :=
  if zone.isUtc then validPilLtoValidityWindow now pil start 0
  else
    match localtimeTz now zone start with
    | none => some none
    | some tm =>
      match tmMonMdayFromPil tm pil with
      | none => some none
      | some tm => do
        if ← tmLeapDayCheck tm then return zoneWindow zone pil tm
        else return if zone.restoreTz then some indefinite else none

/-- `vbi_pil_validity_window`. -/
def vbiPilValidityWindow (now : Int) (pil : Pil) (start : Int) (zone : Zone) :
    Option (Option Window) :=
  byMonth pil (validPilValidityWindow now pil start zone) (vbiPtyValidityWindow now zone start)

end PilValidity
