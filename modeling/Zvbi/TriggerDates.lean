import Zvbi.PilTime

/-!
# Dates of triggers

A trigger has dates of the form `yyyymmdd`, `yyyymmddThhmm` or `yyyymmddThhmmss` in local time.
The C library counts months from zero and accepts fields which are out of range, so that a
wrong month is not an error.
-/

namespace TriggerDates
open Gregorian PilTime

/-- A string in memory, without the NUL at its end. -/
structure CString where
  bytes : List UInt8
  nonzero : ∀ c ∈ bytes, c ≠ 0

/-- `s[i]`, where the NUL is the last one. -/
def CString.char (s : CString) (i : Nat) : UInt8 := (s.bytes[i]?).getD 0

def CString.length (s : CString) : Nat := s.bytes.length

def isdigit (c : UInt8) : Bool := 0x30 ≤ c && c ≤ 0x39

/-- `parse_dec (s + i, digits)` with the number so far. -/
def parseDec (s : CString) : Nat → Nat → Nat → Option Nat
  | _, 0, n => some n
  | i, digits + 1, n =>
    if isdigit (s.char i) then
      parseDec s (i + 1) digits (n * 10 + (s.char i).toNat - 0x30)
    else
      none

/-- The time in `parse_date`, which may be missing. -/
def parseClock (s : CString) : Option (Nat × Nat × Nat) :=
  if s.char 8 = 0 then
    some (0, 0, 0)
  else if s.char 8 = 0x54 then do
    let hour ← parseDec s 9 2 0
    let min ← parseDec s 11 2 0
    if s.char 13 = 0 then
      return (hour, min, 0)
    else
      let sec ← parseDec s 13 2 0
      return (hour, min, sec)
  else
    none

/-- What `parse_date` passes to `mktime`. -/
def parseTm (s : CString) : Option Tm := do
  let year ← parseDec s 0 4 0
  let mon ← parseDec s 4 2 0
  let mday ← parseDec s 6 2 0
  let (hour, min, sec) ← parseClock s
  return ⟨(year : Int) - 1900, mon, mday, hour, min, sec⟩

def civilSeconds (tm : Tm) : Int :=
  let year := tm.tmYear + 1900 + (tm.tmMon / 12 : Nat)
  (yearStart year + monthStart year (tm.tmMon % 12) + (tm.tmMday - 1)) * 86400 +
    tm.tmHour * 3600 + tm.tmMin * 60 + tm.tmSec

/-- The local time of the C library. It is never a day ahead of or behind UTC. -/
structure Zone where
  /-- `mktime`, which is given the civil seconds of its argument. -/
  mktime : Int → Int
  /-- The civil seconds a clock shows. -/
  clock : Int → Int
  mktime_near : ∀ x, x - 86400 < mktime x ∧ mktime x < x + 86400
  clock_near : ∀ t, t - 86400 < clock t ∧ clock t < t + 86400

/-- `parse_date`. -/
def parseDate (zone : Zone) (s : CString) : Int :=
  match parseTm s with
  | none => -1
  | some tm => zone.mktime (civilSeconds tm)

/-- There are digits from `i` to `i + n - 1`. -/
def DigitsAt (s : CString) (i n : Nat) : Prop := ∀ j < n, isdigit (s.char (i + j)) = true

instance (s : CString) (i n : Nat) : Decidable (DigitsAt s i n) :=
  inferInstanceAs (Decidable (∀ j < n, _))

def Form (s : CString) : Prop :=
  DigitsAt s 0 8 ∧ (s.length = 8 ∨ s.char 8 = 0x54 ∧ DigitsAt s 9 4 ∧
    (s.length = 13 ∨ DigitsAt s 13 2 ∧ s.length = 15))

/-- The string goes on after `yyyymmddThhmmss`. -/
def Continues (s : CString) : Prop :=
  DigitsAt s 0 8 ∧ s.char 8 = 0x54 ∧ DigitsAt s 9 4 ∧ DigitsAt s 13 2 ∧ 15 < s.length

instance (s : CString) : Decidable (Form s) := inferInstanceAs (Decidable (_ ∧ (_ ∨ _)))

instance (s : CString) : Decidable (Continues s) := inferInstanceAs (Decidable (_ ∧ _))

def field (s : CString) (i n : Nat) : Nat :=
  (List.range' i n).foldl (fun n i => n * 10 + (s.char i).toNat - 0x30) 0

def hour (s : CString) : Nat := if s.length = 8 then 0 else field s 9 2
def minute (s : CString) : Nat := if s.length = 8 then 0 else field s 11 2
def second (s : CString) : Nat := if s.length ≤ 13 then 0 else field s 13 2

structure Denotes (s : CString) (date : Date) : Prop where
  form : Form s
  year : (field s 0 4 : Int) = date.year
  month : field s 4 2 = date.month + 1
  day : field s 6 2 = date.day
  hour_lt : hour s < 24
  minute_lt : minute s < 60
  second_lt : second s < 60

def denoted (s : CString) (date : Date) : Int :=
  date.number * 86400 + hour s * 3600 + minute s * 60 + second s

/-- A date is returned as a time at which the clock shows it, and a string of another form is
rejected. -/
def Meets (zone : Zone) (s : CString) : Prop :=
  (∀ date, Denotes s date →
    zone.clock (parseDate zone s) = denoted s date) ∧
  (¬ Form s → parseDate zone s = -1)

/-- The fields as they are passed to `mktime`: the month counts from one. -/
def tmOf (s : CString) : Tm where
  tmYear := (field s 0 4 : Int) - 1900
  tmMon := field s 4 2
  tmMday := field s 6 2
  tmHour := hour s
  tmMin := minute s
  tmSec := second s

section
variable (s : CString)

theorem char_eq_zero (i : Nat) : s.char i = 0 ↔ s.length ≤ i := by
  rw [CString.char, CString.length]
  constructor
  · intro h
    by_contra hlt
    have hget := List.getElem?_eq_getElem (Nat.not_le.mp hlt)
    rw [hget, Option.getD_some] at h
    exact s.nonzero _ (List.getElem_mem _) h
  · intro h
    rw [List.getElem?_eq_none h]
    rfl

theorem digitsAt_length {s : CString} {i n : Nat} (h : DigitsAt s i n) (hn : 0 < n) :
    i + n ≤ s.length := by
  by_contra hlt
  have hlast := h (n - 1) (by omega)
  rw [(char_eq_zero s _).mpr (by omega)] at hlast
  exact absurd hlast (by decide)

theorem digitsAt_succ (i n : Nat) :
    DigitsAt s i (n + 1) ↔ isdigit (s.char i) = true ∧ DigitsAt s (i + 1) n := by
  constructor
  · intro h
    refine ⟨h 0 (Nat.succ_pos n), fun j hj => ?_⟩
    rw [Nat.add_assoc, Nat.add_comm 1]
    exact h (j + 1) (Nat.succ_lt_succ hj)
  · rintro ⟨hfirst, hrest⟩ j hj
    cases j with
    | zero => exact hfirst
    | succ j =>
      have hdigit := hrest j (Nat.lt_of_succ_lt_succ hj)
      rwa [Nat.add_assoc, Nat.add_comm 1] at hdigit

theorem digitsAt_add (i m n : Nat) :
    DigitsAt s i (m + n) ↔ DigitsAt s i m ∧ DigitsAt s (i + m) n := by
  induction m generalizing i with
  | zero =>
    rw [Nat.zero_add, Nat.add_zero]
    exact ⟨fun h => ⟨nofun, h⟩, And.right⟩
  | succ m ih =>
    have hsplit : m + 1 + n = (m + n) + 1 := by omega
    have hplace : i + (m + 1) = i + 1 + m := by omega
    rw [hsplit, digitsAt_succ, digitsAt_succ, ih, hplace, and_assoc]

theorem parseDec_eq (i digits n : Nat) : parseDec s i digits n =
    if DigitsAt s i digits then
      some ((List.range' i digits).foldl (fun n i => n * 10 + (s.char i).toNat - 0x30) n)
    else none := by
  induction digits generalizing i n with
  | zero => simp [parseDec, DigitsAt]
  | succ digits ih =>
    rw [parseDec, ih]
    by_cases hfirst : isdigit (s.char i) = true
    · simp [hfirst, digitsAt_succ, List.range'_succ]
    · simp [hfirst, digitsAt_succ]

theorem parseDec_zero (i digits : Nat) : parseDec s i digits 0 =
    if DigitsAt s i digits then some (field s i digits) else none :=
  parseDec_eq s i digits 0

variable {s}

theorem parseClock_eq (hlength : 8 ≤ s.length) : parseClock s =
    if s.length = 8 ∨ s.char 8 = 0x54 ∧ DigitsAt s 9 4 ∧ (s.length = 13 ∨ DigitsAt s 13 2) then
      some (hour s, minute s, second s)
    else none := by
  rw [hour, minute, second]
  have hsplit := digitsAt_add s 9 2 2
  by_cases hshort : s.length = 8
  · have hend := (char_eq_zero s 8).mpr hshort.le
    simp [parseClock, hend, hshort]
  have hnext : s.char 8 ≠ 0 := fun h => hshort (Nat.le_antisymm ((char_eq_zero s 8).mp h) hlength)
  by_cases hletter : s.char 8 = 0x54
  swap
  · simp [parseClock, hnext, hletter, hshort]
  rw [parseClock, if_neg hnext, if_pos hletter]
  by_cases hhour : DigitsAt s 9 2
  swap
  · simp [parseDec_zero, hhour, hsplit, hshort]
  by_cases hmin : DigitsAt s 11 2
  swap
  · simp [parseDec_zero, hhour, hmin, hsplit, hshort]
  have hthirteen : 13 ≤ s.length := digitsAt_length hmin (by decide)
  by_cases hminutes : s.length = 13
  · have hend := (char_eq_zero s 13).mpr hminutes.le
    simp [parseDec_zero, hhour, hmin, hsplit, hletter, hend, hminutes]
  · have hmore : s.char 13 ≠ 0 := fun h =>
      hminutes (Nat.le_antisymm ((char_eq_zero s 13).mp h) hthirteen)
    have hlong : ¬ s.length ≤ 13 := by omega
    by_cases hsec : DigitsAt s 13 2
    · simp [parseDec_zero, hhour, hmin, hsec, hsplit, hletter, hmore, hlong, hshort]
    · simp [parseDec_zero, hhour, hmin, hsec, hsplit, hmore, hminutes, hshort]

theorem form_or_continues (hdate : DigitsAt s 0 8) :
    (s.length = 8 ∨ s.char 8 = 0x54 ∧ DigitsAt s 9 4 ∧ (s.length = 13 ∨ DigitsAt s 13 2)) ↔
      Form s ∨ Continues s := by
  constructor
  · rintro (hshort | ⟨hletter, hclock, hminutes | hsec⟩)
    · exact Or.inl ⟨hdate, Or.inl hshort⟩
    · exact Or.inl ⟨hdate, Or.inr ⟨hletter, hclock, Or.inl hminutes⟩⟩
    · rcases (digitsAt_length hsec (by decide)).eq_or_lt with hlast | hmore
      · exact Or.inl ⟨hdate, Or.inr ⟨hletter, hclock, Or.inr ⟨hsec, hlast.symm⟩⟩⟩
      · exact Or.inr ⟨hdate, hletter, hclock, hsec, hmore⟩
  · rintro (⟨-, hshort | ⟨hletter, hclock, hminutes | ⟨hsec, -⟩⟩⟩ | ⟨-, hletter, hclock, hsec, -⟩)
    · exact Or.inl hshort
    · exact Or.inr ⟨hletter, hclock, Or.inl hminutes⟩
    · exact Or.inr ⟨hletter, hclock, Or.inr hsec⟩
    · exact Or.inr ⟨hletter, hclock, Or.inr hsec⟩

theorem parseTm_eq (s : CString) :
    parseTm s = if Form s ∨ Continues s then some (tmOf s) else none := by
  have hfour := digitsAt_add s 0 4 4
  have htwo := digitsAt_add s 4 2 2
  by_cases hdate : DigitsAt s 0 8
  · have hlength : 8 ≤ s.length := digitsAt_length hdate (by decide)
    obtain ⟨hyear, hrest⟩ := hfour.mp hdate
    obtain ⟨hmon, hmday⟩ := htwo.mp hrest
    have hsame : (s.length = 8 ∨ s.char 8 = 0x54 ∧ DigitsAt s 9 4 ∧
        (s.length = 13 ∨ DigitsAt s 13 2)) ↔ Form s ∨ Continues s :=
      form_or_continues hdate
    simp only [parseTm, parseDec_zero, if_pos hyear, if_pos hmon, if_pos hmday,
      parseClock_eq hlength, hsame, Option.bind_eq_bind, Option.bind_some]
    by_cases hgood : Form s ∨ Continues s
    · rw [if_pos hgood, if_pos hgood]
      rfl
    · rw [if_neg hgood, if_neg hgood]
      rfl
  · have hnone : ¬ (Form s ∨ Continues s) := fun h => hdate (h.elim And.left And.left)
    rw [if_neg hnone]
    have hparts : ¬ (DigitsAt s 0 4 ∧ DigitsAt s 4 2 ∧ DigitsAt s 6 2) := fun ⟨h0, h4, h6⟩ =>
      hdate (hfour.mpr ⟨h0, htwo.mpr ⟨h4, h6⟩⟩)
    simp only [parseTm, parseDec_zero]
    by_cases hyear : DigitsAt s 0 4
    · by_cases hmon : DigitsAt s 4 2
      · by_cases hmday : DigitsAt s 6 2
        · exact absurd ⟨hyear, hmon, hmday⟩ hparts
        · simp [hyear, hmon, hmday]
      · simp [hyear, hmon]
    · simp [hyear]

end

/-- The next month starts at least 28 days later. -/
theorem monthStart_next (y : Int) {m : Nat} (hm : m < 12) :
    yearStart y + monthStart y m + 28 ≤ yearStart (y + ((m + 1) / 12 : Nat)) +
      monthStart (y + ((m + 1) / 12 : Nat)) ((m + 1) % 12) := by
  have hlength : 28 ≤ monthLength y m := by
    have hcommon : ∀ m < 12, 28 ≤ commonLength m := by decide
    rw [monthLength]
    split_ifs
    · decide
    · exact hcommon m hm
  have hnext : monthStart y (m + 1) = monthStart y m + monthLength y m := rfl
  rcases (Nat.succ_le_of_lt hm).eq_or_lt with hlast | hearlier
  · have hm' : m = 11 := by omega
    subst hm'
    have hyear : (monthStart y (11 + 1) : Int) = yearLength y := monthStart_year y
    have hsucc := yearStart_succ y
    change yearStart y + monthStart y 11 + 28 ≤ yearStart (y + 1) + 0
    omega
  · have hsame : y + ((m + 1) / 12 : Nat) = y := by omega
    have hmod : (m + 1) % 12 = m + 1 := Nat.mod_eq_of_lt hearlier
    rw [hsame, hmod]
    omega

/-- The month is one too large, so that a date becomes one of the next month or later. -/
theorem civilSeconds_tmOf {s : CString} {date : Date} (h : Denotes s date) :
    denoted s date + 28 * 86400 ≤ civilSeconds (tmOf s) := by
  have hnext := monthStart_next date.year date.month_lt
  have hpos := date.day_pos
  have hyear : (field s 0 4 : Int) - 1900 + 1900 = date.year := by
    rw [Int.sub_add_cancel, h.year]
  simp only [civilSeconds, tmOf, hyear, h.month, h.day, denoted, Date.number]
  omega

theorem clock_ne (zone : Zone) {s : CString} {date : Date} (h : Denotes s date) :
    zone.clock (parseDate zone s) ≠ denoted s date := by
  have hlate := civilSeconds_tmOf h
  have hparse : parseDate zone s = zone.mktime (civilSeconds (tmOf s)) := by
    rw [parseDate, parseTm_eq, if_pos (Or.inl h.form)]
  have hmktime := zone.mktime_near (civilSeconds (tmOf s))
  have hclock := zone.clock_near (parseDate zone s)
  rw [hparse] at hclock ⊢
  omega

/-- The string is no date, and if it goes on behind a date the fields are those of the second
before 1970, whose time is the value for an error. -/
def NoDate (zone : Zone) (s : CString) : Prop :=
  (∀ date, ¬ Denotes s date) ∧ (Continues s → zone.mktime (civilSeconds (tmOf s)) = -1)

theorem parseDate_meets_iff (zone : Zone) (s : CString) : Meets zone s ↔ NoDate zone s := by
  have hexclusive : Continues s → ¬ Form s := by
    rintro ⟨-, -, -, -, hlong⟩ ⟨-, hshort | ⟨-, -, hminutes | ⟨-, hseconds⟩⟩⟩
    all_goals omega
  constructor
  · rintro ⟨hdates, hother⟩
    refine ⟨fun date h => clock_ne zone h (hdates date h), fun hcontinues => ?_⟩
    have hrejected := hother (hexclusive hcontinues)
    rwa [parseDate, parseTm_eq, if_pos (Or.inr hcontinues)] at hrejected
  · rintro ⟨hnone, hcontinues⟩
    refine ⟨fun date h => absurd h (hnone date), fun hform => ?_⟩
    rw [parseDate, parseTm_eq]
    by_cases h : Continues s
    · rw [if_pos (Or.inr h)]
      exact hcontinues h
    · rw [if_neg (fun hboth => hboth.elim hform h)]

def utc : Zone where
  mktime x := x
  clock t := t
  mktime_near _ := by omega
  clock_near _ := by omega

/-- `20000131`, and `20000201`. -/
def lastOfJanuary : CString := ⟨[0x32, 0x30, 0x30, 0x30, 0x30, 0x31, 0x33, 0x31], by simp⟩
def firstOfFebruary : CString := ⟨[0x32, 0x30, 0x30, 0x30, 0x30, 0x32, 0x30, 0x31], by simp⟩

/-- The last of January is parsed as 2 March and the first of February as 1 March. -/
theorem months_wrong :
    (Denotes lastOfJanuary (Date.ofNumber 10987) ∧
      Denotes firstOfFebruary (Date.ofNumber 10988)) ∧
    ¬ Meets utc lastOfJanuary ∧
    (Date.ofNumber (parseDate utc lastOfJanuary / 86400)).month = 2 ∧
    (Date.ofNumber (parseDate utc lastOfJanuary / 86400)).day = 2 ∧
    (Date.ofNumber (parseDate utc firstOfFebruary / 86400)).month = 2 ∧
    (Date.ofNumber (parseDate utc firstOfFebruary / 86400)).day = 1 ∧
    parseDate utc firstOfFebruary < parseDate utc lastOfJanuary := by
  have hjanuary : Denotes lastOfJanuary (Date.ofNumber 10987) := by
    constructor
    all_goals decide +kernel
  refine ⟨⟨hjanuary, ?_⟩, fun h => clock_ne utc hjanuary (h.1 _ hjanuary), ?_⟩
  · constructor
    all_goals decide +kernel
  · refine ⟨?_, ?_, ?_, ?_, ?_⟩
    all_goals decide +kernel

end TriggerDates
