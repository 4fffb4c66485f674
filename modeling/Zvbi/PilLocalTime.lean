import Zvbi.PilTime

/-!
# The local time of a PIL

A clock that runs some seconds ahead of UTC shows the date and time of a PIL once in the twelve
months around a start time. Guards against an overflow, the sign of a year and the value which
reports an error decide when the source finds that time.
-/

namespace PilLocalTime

open Gregorian PilTime

/-- The date on a clock `east` seconds ahead of UTC. -/
def localDate (t east : Int) : Date := Date.ofNumber ((t + east) / 86400)

structure Shows (pil : Pil) (east t : Int) : Prop where
  month : (localDate t east).month + 1 = pilMonth pil
  day : (localDate t east).day = pilDay pil
  hour : (t + east) % 86400 / 3600 = pilHour pil
  minute : (t + east) % 3600 / 60 = pilMinute pil
  second : (t + east) % 60 = 0

/-- From six months before to five months after the month of `around`. -/
def InWindow (around date : Date) : Prop :=
  -6 ≤ 12 * (date.year - around.year) + ((date.month : Int) - around.month) ∧
    12 * (date.year - around.year) + ((date.month : Int) - around.month) ≤ 5

def IsPilTime (pil : Pil) (start east t : Int) : Prop :=
  Shows pil east t ∧ InWindow (localDate start east) (localDate t east)

/-- The values of a `time_t`. -/
def Representable (t : Int) : Prop := timeMin ≤ t ∧ t ≤ timeMax

instance (t : Int) : Decidable (Representable t) := inferInstanceAs (Decidable (_ ∧ _))

/-- The only time of the PIL is returned, and -1 if no `time_t` is one. -/
def Correct (pil : Pil) (start east : Int) (result : Option Int) : Prop :=
  ∃ r, result = some r ∧
    ((r ≠ -1 ∧ Representable r ∧ ∀ t, IsPilTime pil start east t ↔ t = r) ∨
      (r = -1 ∧ ∀ t, IsPilTime pil start east t → ¬ Representable t))

def pilYear (around : Date) (pil : Pil) : Int :=
  if around.month + 6 ≤ pilMonth pil - 1 then around.year - 1
  else if pilMonth pil - 1 + 6 < around.month then around.year + 1
  else around.year

def DateExists (pil : Pil) (year : Int) : Prop := pilDay pil ≤ monthLength year (pilMonth pil - 1)

instance (pil : Pil) (year : Int) : Decidable (DateExists pil year) :=
  inferInstanceAs (Decidable (_ ≤ _))

/-- The local time of the PIL, counted like a `time_t`. -/
def localSeconds (pil : Pil) (year : Int) : Int :=
  (yearStart year + monthStart year (pilMonth pil - 1) + ((pilDay pil : Int) - 1)) * 86400 +
    pilHour pil * 3600 + pilMinute pil * 60

def instant (pil : Pil) (year east : Int) : Int := localSeconds pil year - east

structure Fields (pil : Pil) : Prop where
  month_pos : 0 < pilMonth pil
  month_le : pilMonth pil ≤ 12
  day_pos : 0 < pilDay pil
  day_le : pilDay pil ≤ if pilMonth pil - 1 = 1 then 29 else commonLength (pilMonth pil - 1)
  hour_lt : pilHour pil < 24
  minute_lt : pilMinute pil < 60

theorem monthDays_eq : ∀ m < 12,
    (monthDays[m]?).getD 0 = if m = 1 then 29 else commonLength m := by
  decide

theorem fields_of_valid {pil : Pil} (hvalid : vbiPilIsValidDate pil = true) : Fields pil := by
  obtain ⟨hmonth, hmonth', hday, hday', hhour, hminute⟩ := of_decide_eq_true hvalid
  rw [monthDays_eq _ (by omega)] at hday'
  exact ⟨hmonth, hmonth', hday, hday', hhour, hminute⟩

theorem inWindow_iff {pil : Pil} (around date : Date)
    (hmonth : date.month = pilMonth pil - 1) :
    InWindow around date ↔ date.year = pilYear around pil := by
  have haround := around.month_lt
  have hlt := date.month_lt
  rw [InWindow, pilYear, ← hmonth]
  split_ifs <;> omega

variable {year t now : Int}

section

variable {pil : Pil} (fields : Fields pil)

include fields

def pilDate (year : Int) (hexists : DateExists pil year) : Date where
  year := year
  month := pilMonth pil - 1
  day := pilDay pil
  month_lt := by
    have hpos := fields.month_pos
    have hle := fields.month_le
    omega
  day_pos := fields.day_pos
  day_le := hexists

theorem localSeconds_eq (hexists : DateExists pil year) :
    localSeconds pil year = (pilDate fields year hexists).number * 86400 +
      pilHour pil * 3600 + pilMinute pil * 60 := by
  have hpos := fields.day_pos
  have hday : ((pilDay pil - 1 : Nat) : Int) = pilDay pil - 1 := by omega
  rw [localSeconds, Date.number, ← hday]
  rfl

theorem localDate_instant {year east : Int} (hexists : DateExists pil year) :
    localDate (instant pil year east) east = pilDate fields year hexists := by
  have hhour := fields.hour_lt
  have hminute := fields.minute_lt
  have hnumber : (instant pil year east + east) / 86400 =
      (pilDate fields year hexists).number := by
    rw [instant, localSeconds_eq fields hexists]
    omega
  rw [localDate, hnumber, Date.ofNumber_number]

theorem shows_instant {east : Int} (hexists : DateExists pil year) :
    Shows pil east (instant pil year east) := by
  have hhour := fields.hour_lt
  have hminute := fields.minute_lt
  have hdate := @localDate_instant pil fields year east hexists
  have hlocal := localSeconds_eq fields hexists
  have hinstant : instant pil year east + east = localSeconds pil year := Int.sub_add_cancel _ _
  constructor
  · rw [hdate]
    exact Nat.sub_add_cancel fields.month_pos
  · rw [hdate]
    rfl
  · omega
  · omega
  · omega

theorem isPilTime_iff (start east t : Int) :
    IsPilTime pil start east t ↔ DateExists pil (pilYear (localDate start east) pil) ∧
      t = instant pil (pilYear (localDate start east) pil) east := by
  constructor
  · rintro ⟨hshows, hwindow⟩
    have hmonth : (localDate t east).month = pilMonth pil - 1 := by
      have h := hshows.month
      omega
    have hyear := (inWindow_iff _ _ hmonth).mp hwindow
    have hexists : DateExists pil (pilYear (localDate start east) pil) := by
      have hle := (localDate t east).day_le
      rwa [hshows.day, hmonth, hyear] at hle
    have hsame : localDate t east = pilDate fields _ hexists := by
      have hday := hshows.day
      generalize localDate t east = date at hday hmonth hyear
      obtain ⟨y, m, d, _, _, _⟩ := date
      simp only at hday hmonth hyear
      subst hday hmonth hyear
      rfl
    have hnumber : (t + east) / 86400 = (pilDate fields _ hexists).number := by
      rw [← hsame]
      exact (Date.number_ofNumber _).symm
    have hlocal := localSeconds_eq fields hexists
    have hhour := hshows.hour
    have hminute := hshows.minute
    have hsecond := hshows.second
    refine ⟨hexists, ?_⟩
    rw [instant, hlocal]
    omega
  · rintro ⟨hexists, rfl⟩
    refine ⟨shows_instant fields hexists, ?_⟩
    rw [localDate_instant fields hexists]
    exact (inWindow_iff _ _ rfl).mpr rfl

end

def startTime (now start : Int) : Int := if start = -1 then now else start

theorem startTime_eq (now start : Int) :
    (if start = -1 then now else start) = startTime now start := rfl

theorem gmtimeR_none {east : Int} (hfits : ¬ Fits (localDate t east).year) :
    gmtimeR (t + east) = none :=
  if_neg hfits

theorem gmtimeR_some {east : Int} (hfits : Fits (localDate t east).year) :
    ∃ tm, gmtimeR (t + east) = some tm ∧ tm.tmYear = (localDate t east).year - 1900 ∧
      tm.tmMon = (localDate t east).month :=
  ⟨_, if_pos hfits, rfl, rfl⟩

/-- Year, month and day come from the PIL, or the year does not fit. -/
theorem tmMonMdayFromPil_eq (pil : Pil) (tm : Tm) (date : Date) (hfits : Fits date.year)
    (hyear : tm.tmYear = date.year - 1900) (hmon : tm.tmMon = date.month) :
    tmMonMdayFromPil tm pil =
      if Fits (pilYear date pil) then
        some { tm with
          tmYear := pilYear date pil - 1900
          tmMon := pilMonth pil - 1
          tmMday := pilDay pil }
      else none := by
  have hmin := hfits.1
  have hmax := hfits.2
  unfold tmMonMdayFromPil pilYear Fits
  rw [hyear, hmon]
  simp only
  split_ifs with hbefore hlow hfit hlow hafter hhigh hfit hhigh hfit
  · omega
  · rfl
  · rw [show date.year - 1900 - 1 = date.year - 1 - 1900 by omega]
  · omega
  · omega
  · rfl
  · rw [show date.year - 1900 + 1 = date.year + 1 - 1900 by omega]
  · omega
  · rw [← hyear]
  · omega

/-- The time lies in the year, or in the days after it. -/
theorem localSeconds_year {pil : Pil} (fields : Fields pil) (year : Int) :
    yearStart year * 86400 ≤ localSeconds pil year ∧
      localSeconds pil year < (yearStart year + 400) * 86400 := by
  have hmonth : monthStart year (pilMonth pil - 1) ≤ monthStart year 12 := by
    have hle := fields.month_le
    exact monthStart_mono year (by omega)
  have hlength := monthStart_year year
  have hyear : yearLength year ≤ 366 := by
    unfold yearLength
    split_ifs <;> omega
  have hhour := fields.hour_lt
  have hminute := fields.minute_lt
  have hpos := fields.day_pos
  have hday : pilDay pil ≤ 31 := by
    unfold pilDay
    have h := @Nat.and_le_right (pil >>> 15).toNat 31
    rw [BitVec.toNat_and]
    exact h
  unfold localSeconds
  omega

/-- All years that fit are far from the bounds of a `time_t`. -/
theorem localSeconds_bounds {pil : Pil} (fields : Fields pil) (hfits : Fits year) :
    timeMin + 0x100000000 < localSeconds pil year ∧
      localSeconds pil year < timeMax - 0x100000000 := by
  obtain ⟨hfirst, hlast⟩ := localSeconds_year fields year
  obtain ⟨hmin, hmax⟩ := hfits
  unfold intMin at hmin
  unfold intMax at hmax
  unfold yearStart at hfirst hlast
  unfold timeMin timeMax
  omega

theorem checkedTime_localSeconds {pil : Pil} (fields : Fields pil) (hfits : Fits year) :
    checkedTime (localSeconds pil year) = localSeconds pil year := by
  obtain ⟨hlow, hhigh⟩ := localSeconds_bounds fields hfits
  unfold checkedTime
  exact if_neg (by omega)

theorem withoutOffset_localSeconds {pil : Pil} (fields : Fields pil) {east : Int}
    (hfits : Fits year) (heast : intMin ≤ east) :
    withoutOffset (localSeconds pil year) east =
      if 0 < east ∧ instant pil year east < 0 then (-1, .eoverflow)
      else (instant pil year east, .zero) := by
  obtain ⟨hlow, hhigh⟩ := localSeconds_bounds fields hfits
  have hminute : localSeconds pil year ≠ -1 := by
    unfold localSeconds
    omega
  unfold intMin at heast
  unfold withoutOffset instant
  rw [if_neg hminute]
  split_ifs with hpos hearly hneg hneg hlate hneg
  · rfl
  · omega
  · omega
  · rfl
  · omega
  · omega
  · omega
  · rfl

def IsLeapDay (pil : Pil) : Prop := pilMonth pil = 2 ∧ 28 < pilDay pil

instance (pil : Pil) : Decidable (IsLeapDay pil) := inferInstanceAs (Decidable (_ ∧ _))

theorem tmLeapDayCheck_eq {pil : Pil} (fields : Fields pil) {tm : Tm} {year : Int}
    (hyear : tm.tmYear = year - 1900) (hmon : tm.tmMon = pilMonth pil - 1)
    (hmday : tm.tmMday = pilDay pil) :
    tmLeapDayCheck tm =
      if IsLeapDay pil then if intMax < year then none else some (isLeapYear year)
      else some true := by
  have hpos := fields.month_pos
  have hcheck : tm.tmMon ≠ 1 ∨ tm.tmMday ≤ 28 ↔ ¬ IsLeapDay pil := by
    unfold IsLeapDay
    omega
  unfold tmLeapDayCheck
  rw [hyear, Int.sub_add_cancel]
  simp only [hcheck, ite_not]

theorem pilToTime_eq {pil : Pil} (fields : Fields pil) (tm : Tm) (date : Date) (east : Int)
    (hfits : Fits date.year) (hyear : tm.tmYear = date.year - 1900) (hmon : tm.tmMon = date.month)
    (heast : intMin ≤ east) :
    pilToTime tm pil east =
      if ¬ Fits (pilYear date pil) then some (-1, .eoverflow)
      else if IsLeapDay pil ∧ intMax < pilYear date pil then none
      else if IsLeapDay pil ∧ ¬ isLeapYear (pilYear date pil) then some (-1, .invalidPil)
      else if 0 < east ∧ instant pil (pilYear date pil) east < 0 then some (-1, .eoverflow)
      else some (instant pil (pilYear date pil) east, .zero) := by
  unfold pilToTime
  rw [tmMonMdayFromPil_eq pil tm date hfits hyear hmon]
  by_cases hfit : Fits (pilYear date pil)
  · rw [if_pos hfit, if_neg (not_not_intro hfit)]
    have hcheck := @tmLeapDayCheck_eq pil fields { tm with
      tmYear := pilYear date pil - 1900
      tmMon := pilMonth pil - 1
      tmMday := pilDay pil } (pilYear date pil) rfl rfl rfl
    have hconverted : checkedTime (timegm {
        tmYear := pilYear date pil - 1900
        tmMon := pilMonth pil - 1
        tmMday := pilDay pil
        tmHour := pilHour pil
        tmMin := pilMinute pil
        tmSec := 0 }) = localSeconds pil (pilYear date pil) := by
      rw [timegm, Int.sub_add_cancel, Int.add_zero]
      exact checkedTime_localSeconds fields hfit
    have hoffset := withoutOffset_localSeconds fields hfit heast
    by_cases hleap : IsLeapDay pil
    · by_cases hlarge : intMax < pilYear date pil
      · simp [hcheck, hleap, hlarge]
      · cases hyears : isLeapYear (pilYear date pil)
        · simp [hcheck, hleap, hlarge, hyears]
        · simp [hcheck, hleap, hlarge, hyears, hconverted, hoffset, apply_ite some]
    · simp [hcheck, hleap, hconverted, hoffset, apply_ite some]
  · rw [if_neg hfit, if_pos hfit]

/-- The source gives up before it looks at the day: no start time, a start time too close to
the epoch for a negative offset, or a year `tm_year` cannot hold. -/
def Refuses (now : Int) (pil : Pil) (start east : Int) : Prop :=
  (start = -1 ∧ now = -1) ∨ (east < 0 ∧ startTime now start < -east) ∨
    ¬ Fits (localDate (startTime now start) east).year ∨
    ¬ Fits (pilYear (localDate (startTime now start) east) pil)

instance (now : Int) (pil : Pil) (start east : Int) : Decidable (Refuses now pil start east) :=
  inferInstanceAs (Decidable (_ ∨ _))

/-- A start time the addition of the offset would overflow is in no year that fits. -/
theorem not_fits_of_late {east : Int} (hlate : timeMax - east < t) :
    ¬ Fits (localDate t east).year := by
  intro hfits
  have hmax := hfits.2
  have hlast := (yearOf_spec ((t + east) / 86400)).2
  change yearOf _ - 1900 ≤ intMax at hmax
  unfold timeMax at hlate
  unfold intMax at hmax
  have hmono : yearStart (yearOf ((t + east) / 86400) + 1) ≤ yearStart 0x100000000 :=
    yearStart_mono (by omega)
  have hbound : yearStart 0x100000000 < 0x20000000000 := by decide
  omega

/-- The source gives up, but not because of the PIL. -/
theorem validPilLtoToTime_refuses {pil : Pil} {start east : Int} (fields : Fields pil)
    (hlow : intMin ≤ east) (hnegate : east = intMin → start = -1 ∧ now = -1)
    (hrefuses : Refuses now pil start east) :
    ∃ errno, validPilLtoToTime now pil start east = some (-1, errno) ∧ errno ≠ .invalidPil := by
  unfold validPilLtoToTime
  by_cases hunknown : start = -1 ∧ now = -1
  · exact ⟨.noTime, if_pos hunknown, fun h => by cases h⟩
  refine ⟨.eoverflow, ?_, fun h => by cases h⟩
  rw [if_neg hunknown]
  simp only [if_neg fun h => hunknown (hnegate h)]
  rw [startTime_eq]
  by_cases hearly : east < 0 ∧ startTime now start < -east
  · exact if_pos hearly
  rw [if_neg hearly]
  by_cases hlate : 0 ≤ east ∧ timeMax - east < startTime now start
  · exact if_pos hlate
  rw [if_neg hlate]
  by_cases hfits : Fits (localDate (startTime now start) east).year
  · obtain ⟨tm, hlocal, hyear, hmon⟩ := gmtimeR_some hfits
    rw [hlocal]
    refine (pilToTime_eq fields tm _ east hfits hyear hmon hlow).trans (if_pos ?_)
    rcases hrefuses with h | h | h | h
    · exact absurd h hunknown
    · exact absurd h hearly
    · exact absurd hfits h
    · exact h
  · rw [gmtimeR_none hfits]

theorem validPilLtoToTime_eq {pil : Pil} {start east : Int} (fields : Fields pil)
    (hlow : intMin ≤ east) (hnegate : east = intMin → start = -1 ∧ now = -1)
    (hrefuses : ¬ Refuses now pil start east) :
    validPilLtoToTime now pil start east =
      let year := pilYear (localDate (startTime now start) east) pil
      if IsLeapDay pil ∧ intMax < year then none
      else if IsLeapDay pil ∧ ¬ isLeapYear year then some (-1, .invalidPil)
      else if 0 < east ∧ instant pil year east < 0 then some (-1, .eoverflow)
      else some (instant pil year east, .zero) := by
  have hunknown : ¬ (start = -1 ∧ now = -1) := fun h => hrefuses (Or.inl h)
  have hearly : ¬ (east < 0 ∧ startTime now start < -east) :=
    fun h => hrefuses (Or.inr (Or.inl h))
  have hfits : Fits (localDate (startTime now start) east).year := by
    by_contra h
    exact hrefuses (Or.inr (Or.inr (Or.inl h)))
  have hfit : Fits (pilYear (localDate (startTime now start) east) pil) := by
    by_contra h
    exact hrefuses (Or.inr (Or.inr (Or.inr h)))
  have hlate : ¬ (0 ≤ east ∧ timeMax - east < startTime now start) :=
    fun h => not_fits_of_late h.2 hfits
  obtain ⟨tm, hlocal, hyear, hmon⟩ := gmtimeR_some hfits
  unfold validPilLtoToTime
  rw [if_neg hunknown]
  simp only [if_neg fun h => hunknown (hnegate h)]
  rw [startTime_eq]
  rw [if_neg hearly, if_neg hlate, hlocal]
  exact (pilToTime_eq fields tm _ east hfits hyear hmon hlow).trans (if_neg (not_not_intro hfit))

theorem vbiPilLtoToTime_eq {pil : Pil} {start east : Int} (hvalid : vbiPilIsValidDate pil = true)
    (hlow : intMin ≤ east) (hnegate : east = intMin → start = -1 ∧ now = -1) :
    vbiPilLtoToTime now pil start east =
      let year := pilYear (localDate (startTime now start) east) pil
      if Refuses now pil start east then some (-1)
      else if IsLeapDay pil ∧ intMax < year then none
      else if IsLeapDay pil ∧ ¬ isLeapYear year then some (-1)
      else if 0 < east ∧ instant pil year east < 0 then some (-1)
      else some (instant pil year east) := by
  have fields := fields_of_valid hvalid
  unfold vbiPilLtoToTime
  rw [if_pos hvalid]
  by_cases hrefuses : Refuses now pil start east
  · obtain ⟨errno, hcode, -⟩ := validPilLtoToTime_refuses fields hlow hnegate hrefuses
    simp only [hcode, if_pos hrefuses, Option.map_some]
  · rw [validPilLtoToTime_eq fields hlow hnegate hrefuses]
    simp only [if_neg hrefuses, apply_ite (Option.map Prod.fst), Option.map_some, Option.map_none]

/-- The result is right: the source does not give up where there is a time to return, February
29th is found in the leap years, and the time is not one of those the source or its caller takes
for an error. -/
def HoldsWhen (now : Int) (pil : Pil) (start east : Int) : Prop :=
  let year := pilYear (localDate (startTime now start) east) pil
  (east = intMin → start = -1 ∧ now = -1) ∧
    if Refuses now pil start east then
      DateExists pil year → ¬ Representable (instant pil year east)
    else if DateExists pil year then
      (IsLeapDay pil → year ≤ intMax ∧ isLeapYear year) ∧
        (0 < east → 0 ≤ instant pil year east) ∧ instant pil year east ≠ -1
    else year ≤ intMax ∧ (isLeapYear year → 0 < east)

theorem not_correct_none (pil : Pil) (start east : Int) : ¬ Correct pil start east none := by
  rintro ⟨r, hr, -⟩
  cases hr

section

variable {pil : Pil} (fields : Fields pil) {start east : Int}

include fields

theorem correct_time (hexists : DateExists pil (pilYear (localDate start east) pil))
    (hrange : Representable (instant pil (pilYear (localDate start east) pil) east)) (r : Int) :
    Correct pil start east (some r) ↔
      r = instant pil (pilYear (localDate start east) pil) east ∧ r ≠ -1 := by
  constructor
  · rintro ⟨r', hr, ⟨hne, -, honly⟩ | ⟨-, hnone⟩⟩
    · cases hr
      have htime := (isPilTime_iff fields start east r).mp ((honly r).mpr rfl)
      exact ⟨htime.2, hne⟩
    · exact absurd hrange (hnone _ ((isPilTime_iff fields start east _).mpr ⟨hexists, rfl⟩))
  · rintro ⟨rfl, hne⟩
    refine ⟨_, rfl, Or.inl ⟨hne, hrange, fun t => ?_⟩⟩
    rw [isPilTime_iff fields]
    exact and_iff_right hexists

theorem correct_error (hnone : DateExists pil (pilYear (localDate start east) pil) →
      ¬ Representable (instant pil (pilYear (localDate start east) pil) east)) (r : Int) :
    Correct pil start east (some r) ↔ r = -1 := by
  constructor
  · rintro ⟨r', hr, ⟨-, hrange, honly⟩ | ⟨herror, -⟩⟩
    · cases hr
      obtain ⟨hexists, htime⟩ := (isPilTime_iff fields start east r).mp ((honly r).mpr rfl)
      rw [htime] at hrange
      exact absurd hrange (hnone hexists)
    · cases hr
      exact herror
  · rintro rfl
    refine ⟨_, rfl, Or.inr ⟨rfl, fun t htime => ?_⟩⟩
    obtain ⟨hexists, rfl⟩ := (isPilTime_iff fields start east t).mp htime
    exact hnone hexists

/-- -1 is right where there is no time to return. -/
theorem correct_error_iff : Correct pil start east (some (-1)) ↔
    (DateExists pil (pilYear (localDate start east) pil) →
      ¬ Representable (instant pil (pilYear (localDate start east) pil) east)) := by
  constructor
  · intro hcorrect hexists hrange
    exact ((correct_time fields hexists hrange _).mp hcorrect).2 rfl
  · intro hnone
    exact (correct_error fields hnone _).mpr rfl

theorem instant_representable (hfits : Fits year) (hlow : intMin ≤ east) (hhigh : east ≤ intMax) :
    Representable (instant pil year east) := by
  obtain ⟨hmin, hmax⟩ := localSeconds_bounds fields hfits
  unfold intMin at hlow
  unfold intMax at hhigh
  unfold Representable instant
  omega

end

/-- Only February 29th is missing in some years. -/
theorem dateExists_iff {pil : Pil} (fields : Fields pil) (year : Int) :
    DateExists pil year ↔ (IsLeapDay pil → IsLeap year) := by
  have hpos := fields.month_pos
  have hday := fields.day_le
  unfold DateExists IsLeapDay monthLength
  by_cases hmonth : pilMonth pil = 2
  · rw [hmonth] at hday ⊢
    by_cases hleap : IsLeap year
    · simpa [hleap] using hday
    · simp [hleap, commonLength]
  · have hfeb : pilMonth pil - 1 ≠ 1 := by omega
    rw [if_neg hfeb] at hday
    simpa [hmonth, hfeb] using hday

theorem isLeapYear_of_nonneg (hpos : 0 ≤ year) (hmax : year ≤ intMax) :
    isLeapYear year = true ↔ IsLeap year := by
  unfold intMax at hmax
  have hsame : (year % 0x100000000).toNat = year.toNat := by omega
  unfold isLeapYear IsLeap
  rw [hsame]
  simp only
  split_ifs with hfourth hcentury
  · simp
    omega
  · simp
    omega
  · simp
    omega

/-- The times of the years the test takes for leap years are early. -/
theorem instant_neg {pil : Pil} (fields : Fields pil) {year east : Int} (hlow : intMin ≤ east)
    (hmax : year ≤ intMax) (hyear : isLeapYear year = true) (hleap : ¬ IsLeap year) :
    instant pil year east < -1 := by
  obtain ⟨-, hlast⟩ := localSeconds_year fields year
  have hneg : year < 0 := by
    by_contra h
    exact hleap ((isLeapYear_of_nonneg (Int.not_lt.mp h) hmax).mp hyear)
  unfold yearStart at hlast
  unfold intMin at hlow
  unfold instant
  omega

section

variable {pil : Pil} (fields : Fields pil) {start east : Int}

include fields

/-- The date exists: the time is found unless a guard or the leap year test stops the source. -/
theorem correct_of_exists (hexists : DateExists pil (pilYear (localDate start east) pil))
    (hrange : Representable (instant pil (pilYear (localDate start east) pil) east)) :
    let year := pilYear (localDate start east) pil
    Correct pil start east
        (if IsLeapDay pil ∧ intMax < year then none
        else if IsLeapDay pil ∧ ¬ isLeapYear year then some (-1)
        else if 0 < east ∧ instant pil year east < 0 then some (-1)
        else some (instant pil year east)) ↔
      (IsLeapDay pil → year ≤ intMax ∧ isLeapYear year) ∧
        (0 < east → 0 ≤ instant pil year east) ∧ instant pil year east ≠ -1 := by
  have htime := correct_time fields hexists hrange
  intro year
  split_ifs with hlarge hcommon hguard
  · refine iff_of_false (not_correct_none _ _ _) fun hwhen => ?_
    have hle := (hwhen.1 hlarge.1).1
    omega
  · refine iff_of_false (fun hcorrect => ((htime _).mp hcorrect).2 rfl) fun hwhen => ?_
    exact hcommon.2 (hwhen.1 hcommon.1).2
  · refine iff_of_false (fun hcorrect => ((htime _).mp hcorrect).2 rfl) fun hwhen => ?_
    have hle := hwhen.2.1 hguard.1
    omega
  · rw [htime]
    constructor
    · rintro ⟨-, hne⟩
      refine ⟨fun hleap => ⟨?_, ?_⟩, fun hpos => ?_, hne⟩
      · exact Int.not_lt.mp fun h => hlarge ⟨hleap, h⟩
      · exact Classical.not_not.mp fun h => hcommon ⟨hleap, h⟩
      · exact Int.not_lt.mp fun h => hguard ⟨hpos, h⟩
    · rintro ⟨-, -, hne⟩
      exact ⟨rfl, hne⟩

/-- The date does not exist: a year the test takes for a leap year gives March 1st, if the guard
does not stop the source. -/
theorem correct_of_missing (hmissing : ¬ DateExists pil (pilYear (localDate start east) pil))
    (hlow : intMin ≤ east) :
    let year := pilYear (localDate start east) pil
    Correct pil start east
        (if IsLeapDay pil ∧ intMax < year then none
        else if IsLeapDay pil ∧ ¬ isLeapYear year then some (-1)
        else if 0 < east ∧ instant pil year east < 0 then some (-1)
        else some (instant pil year east)) ↔
      year ≤ intMax ∧ (isLeapYear year → 0 < east) := by
  have herror := @correct_error pil fields start east fun h => absurd h hmissing
  rw [dateExists_iff fields, Classical.not_imp] at hmissing
  obtain ⟨hleap, hyear⟩ := hmissing
  intro year
  split_ifs with hlarge hcommon hguard
  · refine iff_of_false (not_correct_none _ _ _) fun hwhen => ?_
    have hle := hwhen.1
    omega
  · refine iff_of_true ((herror _).mpr rfl) ⟨?_, fun h => absurd h hcommon.2⟩
    exact Int.not_lt.mp fun h => hlarge ⟨hleap, h⟩
  · refine iff_of_true ((herror _).mpr rfl) ⟨?_, fun _ => hguard.1⟩
    exact Int.not_lt.mp fun h => hlarge ⟨hleap, h⟩
  · have hmax : year ≤ intMax := Int.not_lt.mp fun h => hlarge ⟨hleap, h⟩
    have htest : isLeapYear year = true := Classical.not_not.mp fun h => hcommon ⟨hleap, h⟩
    have hneg := @instant_neg pil fields year east hlow hmax htest hyear
    refine iff_of_false (fun hcorrect => ?_) fun hwhen => ?_
    · have hminus := (herror _).mp hcorrect
      omega
    · exact hguard ⟨hwhen.2 htest, by omega⟩

end

theorem correct_iff {pil : Pil} {start east : Int} (hvalid : vbiPilIsValidDate pil = true)
    (hlow : intMin ≤ east) (hhigh : east ≤ intMax) :
    Correct pil (startTime now start) east (vbiPilLtoToTime now pil start east) ↔
      HoldsWhen now pil start east := by
  have fields := fields_of_valid hvalid
  by_cases hnegate : east = intMin → start = -1 ∧ now = -1
  swap
  · rw [Classical.not_imp] at hnegate
    have hnone : vbiPilLtoToTime now pil start east = none := by
      unfold vbiPilLtoToTime validPilLtoToTime
      rw [if_pos hvalid, if_neg hnegate.2]
      simp only [if_pos hnegate.1, Option.map_none]
    rw [hnone]
    exact iff_of_false (not_correct_none _ _ _) fun hwhen => hnegate.2 (hwhen.1 hnegate.1)
  have hcode := vbiPilLtoToTime_eq hvalid hlow hnegate
  unfold HoldsWhen
  rw [hcode]
  simp only
  refine Iff.trans ?_ (and_iff_right hnegate).symm
  by_cases hrefuses : Refuses now pil start east
  · rw [if_pos hrefuses, if_pos hrefuses, correct_error_iff fields]
  have hfits : Fits (pilYear (localDate (startTime now start) east) pil) := by
    by_contra hfits
    exact hrefuses (Or.inr (Or.inr (Or.inr hfits)))
  rw [if_neg hrefuses, if_neg hrefuses]
  by_cases hexists : DateExists pil (pilYear (localDate (startTime now start) east) pil)
  · rw [if_pos hexists]
    exact correct_of_exists fields hexists (instant_representable fields hfits hlow hhigh)
  · rw [if_neg hexists]
    exact correct_of_missing fields hexists hlow

/-- `vbi_pil_lto_to_time` returns the one time of the PIL in the window, and -1 only if there is
none, exactly under `HoldsWhen`. -/
theorem local_time_iff (now start : BitVec 64) (east : BitVec 32) (pil : Pil)
    (hvalid : vbiPilIsValidDate pil = true) :
    Correct pil (startTime now.toInt start.toInt) east.toInt
        (vbiPilLtoToTime now.toInt pil start.toInt east.toInt) ↔
      HoldsWhen now.toInt pil start.toInt east.toInt := by
  have hlow := @BitVec.le_toInt 32 east
  have hhigh := @BitVec.toInt_lt 32 east
  have hmin : intMin ≤ east.toInt := by
    unfold intMin
    omega
  have hmax : east.toInt ≤ intMax := by
    unfold intMax
    omega
  exact correct_iff hvalid hmin hmax

/-- December 31st 20:15, looked for on January 1st 2024 at 00:00 UTC. -/
theorem local_time_iff_new_year :
    Correct 0xFE50F#32 (startTime 0 1704067200) 3600
        (vbiPilLtoToTime 0 0xFE50F#32 1704067200 3600) ∧
      vbiPilLtoToTime 0 0xFE50F#32 1704067200 3600 = some 1704050100 := by
  refine ⟨(local_time_iff 0 1704067200 3600 0xFE50F#32 (by decide)).mpr ?_, by decide +kernel⟩
  unfold HoldsWhen
  decide +kernel

/-- An hour west of Greenwich, 1000 seconds after the epoch, January 1st 12:00 lies ahead. -/
theorem early_start_refused :
    vbiPilIsValidDate 0x8B00#32 = true ∧
      vbiPilLtoToTime 0 0x8B00#32 1000 (-3600) = some (-1) ∧
      IsPilTime 0x8B00#32 1000 (-3600) 46800 ∧ Representable 46800 ∧
      ¬ Correct 0x8B00#32 1000 (-3600) (vbiPilLtoToTime 0 0x8B00#32 1000 (-3600)) := by
  have hcode : vbiPilLtoToTime 0 0x8B00#32 1000 (-3600) = some (-1) := by decide +kernel
  have htime : IsPilTime 0x8B00#32 1000 (-3600) 46800 := by
    refine ⟨⟨?_, ?_, ?_, ?_, ?_⟩, ?_⟩
    · decide +kernel
    · decide +kernel
    · decide +kernel
    · decide +kernel
    · decide +kernel
    · unfold InWindow
      decide +kernel
  have hrange : Representable 46800 := by decide
  refine ⟨by decide, hcode, htime, hrange, ?_⟩
  rw [hcode]
  rintro ⟨r, hr, ⟨hne, -⟩ | ⟨-, hnone⟩⟩
  · cases hr
    exact hne rfl
  · exact hnone _ htime hrange

end PilLocalTime
