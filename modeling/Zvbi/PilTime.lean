import Zvbi.Gregorian

/-!
# Times of program identification labels

A PIL has no year: it is taken from the year that brings the month of the PIL within half a
year of a start time. The C library converts times by the proleptic Gregorian calendar; its
`int` fields do not hold every year. A function without a result here has computed a value an
`int` cannot hold.
-/

namespace PilTime

open Gregorian

def intMin : Int := -0x80000000

def intMax : Int := 0x7FFFFFFF

/-- `TIME_MIN` for a `time_t` of 64 bits. -/
def timeMin : Int := -0x8000000000000000

def timeMax : Int := 0x7FFFFFFFFFFFFFFF

/-- `vbi_pil`. -/
abbrev Pil := BitVec 32

/-- `VBI_PIL_MONTH`. -/
def pilMonth (pil : Pil) : Nat := ((pil >>> 11) &&& 15).toNat

/-- `VBI_PIL_DAY`. -/
def pilDay (pil : Pil) : Nat := ((pil >>> 15) &&& 31).toNat

/-- `VBI_PIL_HOUR`. -/
def pilHour (pil : Pil) : Nat := ((pil >>> 6) &&& 31).toNat

/-- `VBI_PIL_MINUTE`. -/
def pilMinute (pil : Pil) : Nat := (pil &&& 63).toNat

def monthDays : List Nat := [31, 29, 31, 30, 31, 30, 31, 31, 30, 31, 30, 31]

/-- `vbi_pil_is_valid_date`. -/
def vbiPilIsValidDate (pil : Pil) : Bool :=
  decide (0 < pilMonth pil ∧ pilMonth pil ≤ 12 ∧ 0 < pilDay pil ∧
    pilDay pil ≤ (monthDays[pilMonth pil - 1]?).getD 0 ∧ pilHour pil < 24 ∧ pilMinute pil < 60)

/-- The fields of `struct tm` used here. -/
structure Tm where
  tmYear : Int
  tmMon : Nat
  tmMday : Int
  tmHour : Int
  tmMin : Int
  tmSec : Int
  deriving DecidableEq, Repr

/-- `errno`, as far as the functions here set it. -/
inductive Errno where
  | zero
  | noTime
  | eoverflow
  | invalidPil
  deriving DecidableEq, Repr

/-- A year `tm_year` can hold. -/
def Fits (year : Int) : Prop := intMin ≤ year - 1900 ∧ year - 1900 ≤ intMax

instance (year : Int) : Decidable (Fits year) := inferInstanceAs (Decidable (_ ∧ _))

def gmtimeR (t : Int) : Option Tm :=
  let date := Date.ofNumber (t / 86400)
  if Fits date.year then
    some {
      tmYear := date.year - 1900
      tmMon := date.month
      tmMday := date.day
      tmHour := t % 86400 / 3600
      tmMin := t % 3600 / 60
      tmSec := t % 60 }
  else none

/-- `timegm` of the C library, which accepts days outside of the month. -/
def timegm (tm : Tm) : Int :=
  (yearStart (tm.tmYear + 1900) + monthStart (tm.tmYear + 1900) tm.tmMon + (tm.tmMday - 1)) *
      86400 + tm.tmHour * 3600 + tm.tmMin * 60 + tm.tmSec

/-- The check of `_vbi_timegm` and `_vbi_mktime`: the result, or -1. -/
def checkedTime (result : Int) : Int :=
  if result ≤ timeMin ∨ timeMax ≤ result then -1 else result

def tmMonMdayFromPil (tm : Tm) (pil : Pil) : Option Tm :=
  let month0 := pilMonth pil - 1
  if tm.tmMon + 6 ≤ month0 then
    if tm.tmYear ≤ intMin then none
    else some { tm with tmYear := tm.tmYear - 1, tmMon := month0, tmMday := pilDay pil }
  else if month0 + 6 < tm.tmMon then
    if intMax ≤ tm.tmYear then none
    else some { tm with tmYear := tm.tmYear + 1, tmMon := month0, tmMday := pilDay pil }
  else some { tm with tmMon := month0, tmMday := pilDay pil }

/-- `is_leap_year`, whose parameter is unsigned. -/
def isLeapYear (year : Int) : Bool :=
  let year := (year % 0x100000000).toNat
  if year % 4 ≠ 0 then false
  else if year % 400 = 0 then true
  else year % 100 ≠ 0

def tmLeapDayCheck (tm : Tm) : Option Bool :=
  if tm.tmMon ≠ 1 ∨ tm.tmMday ≤ 28 then some true
  else if intMax < tm.tmYear + 1900 then none
  else some (isLeapYear (tm.tmYear + 1900))

/-- The last part of `valid_pil_lto_to_time`: from the local time back to UTC. -/
def withoutOffset (start secondsEast : Int) : Int × Errno :=
  if start = -1 then (-1, .eoverflow)
  else if 0 < secondsEast then
    if start < secondsEast then (-1, .eoverflow) else (start - secondsEast, .zero)
  else if timeMax + secondsEast < start then (-1, .eoverflow)
  else (start - secondsEast, .zero)

/-- The part of `valid_pil_lto_to_time` after `gmtime_r`. -/
def pilToTime (tm : Tm) (pil : Pil) (secondsEast : Int) : Option (Int × Errno) :=
  match tmMonMdayFromPil tm pil with
  | none => some (-1, .eoverflow)
  | some tm => do
      if ← tmLeapDayCheck tm then
        let tm := { tm with tmHour := pilHour pil, tmMin := pilMinute pil, tmSec := 0 }
        return withoutOffset (checkedTime (timegm tm)) secondsEast
      else return (-1, .invalidPil)

/-- `valid_pil_lto_to_time`, its result and `errno`. Where the source asks for the current
time, `time()` returns `now`, or -1 if it fails. -/
def validPilLtoToTime (now : Int) (pil : Pil) (start secondsEast : Int) :
    Option (Int × Errno) :=
  if start = -1 ∧ now = -1 then some (-1, .noTime)
  else
    let start := if start = -1 then now else start
    -- The negation of `INT_MIN` overflows.
    if secondsEast = intMin then none
    else if secondsEast < 0 ∧ start < -secondsEast then some (-1, .eoverflow)
    else if 0 ≤ secondsEast ∧ timeMax - secondsEast < start then some (-1, .eoverflow)
    else
      match gmtimeR (start + secondsEast) with
      | none => some (-1, .eoverflow)
      | some tm => pilToTime tm pil secondsEast

/-- `vbi_pil_lto_to_time`. -/
def vbiPilLtoToTime (now : Int) (pil : Pil) (start secondsEast : Int) : Option Int :=
  if vbiPilIsValidDate pil then (validPilLtoToTime now pil start secondsEast).map Prod.fst
  else some (-1)

end PilTime
