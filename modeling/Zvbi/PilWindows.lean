import Zvbi.PilLocalTime
import Zvbi.PilValidity

/-!
# The time window of a PIL

A PIL is valid from midnight, or the evening before, until 04:00 on the next day. The window
found with seconds east of UTC is the one found in a time zone which always has that offset.
-/

namespace PilWindows

open Gregorian PilTime PilLocalTime PilValidity

def lead (pil : Pil) : Int := if pilHour pil < 4 then 4 * 60 * 60 else 0

/-- From midnight of the date of the PIL, or 20:00 on the day before, until 04:00 on the day
after. -/
def IsDayWindow (pil : Pil) (start east : Int) (window : Window) : Prop :=
  ∃ date : Date, date.month + 1 = pilMonth pil ∧ date.day = pilDay pil ∧
    InWindow (localDate start east) date ∧
    window.1 + east = date.number * 86400 - lead pil ∧
    window.2 + east = (date.number + 1) * 86400 + 4 * 60 * 60

/-- A time zone which is always `east` seconds ahead of UTC, and no failure to set it. -/
structure ConstantOffset (zone : Zone) (east : Int) : Prop where
  isUtc : zone.isUtc = true → east = 0
  localtimeR : ∀ t, zone.localtimeR t = gmtimeR (t + east)
  mktime : ∀ tm, Representable (timegm tm - east) → zone.mktime tm = timegm tm - east
  restoreTz : zone.restoreTz = true

def atMidnight (pil : Pil) : Pil := pil &&& 0xFF800

theorem pilMonth_atMidnight (pil : Pil) : pilMonth (atMidnight pil) = pilMonth pil := by
  unfold pilMonth atMidnight
  rw [BitVec.ushiftRight_and_distrib, BitVec.and_assoc]
  rfl

theorem pilDay_atMidnight (pil : Pil) : pilDay (atMidnight pil) = pilDay pil := by
  unfold pilDay atMidnight
  rw [BitVec.ushiftRight_and_distrib, BitVec.and_assoc]
  rfl

theorem pilHour_atMidnight (pil : Pil) : pilHour (atMidnight pil) = 0 := by
  unfold pilHour atMidnight
  rw [BitVec.ushiftRight_and_distrib, BitVec.and_assoc]
  change (pil >>> 6 &&& 0#32).toNat = 0
  rw [BitVec.and_zero]
  rfl

theorem pilMinute_atMidnight (pil : Pil) : pilMinute (atMidnight pil) = 0 := by
  unfold pilMinute atMidnight
  rw [BitVec.and_assoc]
  change (pil &&& 0#32).toNat = 0
  rw [BitVec.and_zero]
  rfl

variable {pil : Pil} {east now start : Int} {window : Window}

theorem fields_atMidnight (fields : Fields pil) : Fields (atMidnight pil) := by
  constructor
  · rw [pilMonth_atMidnight]
    exact fields.month_pos
  · rw [pilMonth_atMidnight]
    exact fields.month_le
  · rw [pilDay_atMidnight]
    exact fields.day_pos
  · rw [pilDay_atMidnight, pilMonth_atMidnight]
    exact fields.day_le
  · rw [pilHour_atMidnight]
    omega
  · rw [pilMinute_atMidnight]
    omega

theorem pilYear_atMidnight (around : Date) (pil : Pil) :
    pilYear around (atMidnight pil) = pilYear around pil := by
  unfold pilYear
  rw [pilMonth_atMidnight]

theorem isLeapDay_atMidnight (pil : Pil) : IsLeapDay (atMidnight pil) ↔ IsLeapDay pil := by
  unfold IsLeapDay
  rw [pilMonth_atMidnight, pilDay_atMidnight]

theorem refuses_atMidnight (now : Int) (pil : Pil) (start east : Int) :
    Refuses now (atMidnight pil) start east ↔ Refuses now pil start east := by
  unfold Refuses
  rw [pilYear_atMidnight]

/-- Midnight on the date of the PIL, counted like a `time_t`. -/
def dayStart (pil : Pil) (year : Int) : Int :=
  (yearStart year + monthStart year (pilMonth pil - 1) + ((pilDay pil : Int) - 1)) * 86400

theorem localSeconds_dayStart (pil : Pil) (year : Int) :
    localSeconds pil year = dayStart pil year + pilHour pil * 3600 + pilMinute pil * 60 := rfl

theorem localSeconds_atMidnight (pil : Pil) (year : Int) :
    localSeconds (atMidnight pil) year = dayStart pil year := by
  unfold localSeconds dayStart
  rw [pilMonth_atMidnight, pilDay_atMidnight, pilHour_atMidnight, pilMinute_atMidnight]
  omega

variable {year : Int} {zone : Zone}

theorem dayStart_eq (fields : Fields pil) (hexists : DateExists pil year) :
    dayStart pil year = (pilDate fields year hexists).number * 86400 := by
  have hlocal := localSeconds_eq fields hexists
  rw [localSeconds_dayStart] at hlocal
  omega

theorem byMonth_of_fields (fields : Fields pil) (day : Option (Option Window))
    (nspv : Option Window) : byMonth pil day nspv = day := by
  have hpos := fields.month_pos
  have hdays := monthDays_eq (pilMonth pil - 1) (by have h := fields.month_le; omega)
  have hday : ¬ (pilDay pil = 0 ∨ (monthDays[pilMonth pil - 1]?).getD 0 < pilDay pil) := by
    rw [hdays]
    rintro (h | h)
    · exact Nat.ne_of_gt fields.day_pos h
    · exact Nat.not_lt.mpr fields.day_le h
  unfold byMonth
  simp only
  rw [if_neg (Nat.ne_of_gt hpos), if_pos fields.month_le, if_neg hday]

inductive Outcome (pil : Pil) (year east : Int) : Window → Prop where
  /-- The day is not in the year, as far as the source can tell. -/
  | invalid (hleap : IsLeapDay pil) (hlarge : year ≤ intMax) (htest : ¬ isLeapYear year) :
      Outcome pil year east indefinite
  | day (hlarge : IsLeapDay pil → year ≤ intMax) (htest : IsLeapDay pil → isLeapYear year)
      (hguard : 0 < east → 0 ≤ dayStart pil year - east) (herror : dayStart pil year - east ≠ -1)
      (hlead : pilHour pil < 4 → 4 * 60 * 60 ≤ dayStart pil year - east) :
      Outcome pil year east
        (dayStart pil year - east - lead pil, dayStart pil year - east + 28 * 60 * 60)

theorem instant_atMidnight (pil : Pil) (year east : Int) :
    instant (atMidnight pil) year east = dayStart pil year - east := by
  rw [instant, localSeconds_atMidnight]

theorem window_cases {t : Int} {errno : Errno}
    (htime : validPilLtoToTime now (atMidnight pil) start east = some (t, errno))
    (hwindow : validPilLtoValidityWindow now pil start east = some (some window)) :
    (t = -1 ∧ errno = .invalidPil ∧ window = indefinite) ∨
      (t ≠ -1 ∧ (pilHour pil < 4 → 4 * 60 * 60 ≤ t) ∧
        window = (t - lead pil, t + 28 * 60 * 60)) := by
  unfold validPilLtoValidityWindow at hwindow
  change (validPilLtoToTime now (atMidnight pil) start east).bind _ = _ at hwindow
  rw [htime, Option.bind_some] at hwindow
  change (if t = -1 then some (if errno = .invalidPil then some indefinite else none)
    else if timeMax - 28 * 60 * 60 < t then some none
    else if pilHour pil < 4 then
      if t < 4 * 60 * 60 then some none
      else some (some (t - 4 * 60 * 60, t + 28 * 60 * 60))
    else some (some (t, t + 28 * 60 * 60))) = some (some window) at hwindow
  split_ifs at hwindow with herror hinvalid hlate hhour hearly
  · exact Or.inl ⟨herror, hinvalid, (Option.some.inj (Option.some.inj hwindow)).symm⟩
  · cases hwindow
  · cases hwindow
  · cases hwindow
  · refine Or.inr ⟨herror, fun _ => Int.not_lt.mp hearly, ?_⟩
    rw [lead, if_pos hhour]
    exact (Option.some.inj (Option.some.inj hwindow)).symm
  · refine Or.inr ⟨herror, fun h => absurd h hhour, ?_⟩
    rw [lead, if_neg hhour, Int.sub_zero]
    exact (Option.some.inj (Option.some.inj hwindow)).symm

/-- A window is only returned if the source does not give up. -/
theorem outcome_of_window (fields : Fields pil) (hlow : intMin ≤ east)
    (hwindow : validPilLtoValidityWindow now pil start east = some (some window)) :
    (east = intMin → start = -1 ∧ now = -1) ∧ ¬ Refuses now pil start east ∧
      Outcome pil (pilYear (localDate (startTime now start) east) pil) east window := by
  have hmidnight := fields_atMidnight fields
  obtain ⟨⟨t, errno⟩, htime, -⟩ := Option.bind_eq_some_iff.mp hwindow
  change validPilLtoToTime now (atMidnight pil) start east = some (t, errno) at htime
  have hcases := window_cases htime hwindow
  have hnegate : east = intMin → start = -1 ∧ now = -1 := by
    intro hmin
    by_contra hknown
    have hnone : validPilLtoToTime now (atMidnight pil) start east = none := by
      unfold validPilLtoToTime
      rw [if_neg hknown]
      exact if_pos hmin
    rw [hnone] at htime
    cases htime
  have hrefuses : ¬ Refuses now (atMidnight pil) start east := by
    intro hrefuses
    obtain ⟨errno', hcode, herrno⟩ := validPilLtoToTime_refuses hmidnight hlow hnegate hrefuses
    rw [hcode] at htime
    cases htime
    rcases hcases with ⟨-, hinvalid, -⟩ | ⟨hne, -⟩
    · exact herrno hinvalid
    · exact hne rfl
  refine ⟨hnegate, mt (refuses_atMidnight now pil start east).mpr hrefuses, ?_⟩
  rw [validPilLtoToTime_eq hmidnight hlow hnegate hrefuses] at htime
  simp only [pilYear_atMidnight, isLeapDay_atMidnight, instant_atMidnight] at htime
  generalize pilYear (localDate (startTime now start) east) pil = year at htime ⊢
  split_ifs at htime with hlarge htest hguard
  · cases htime
    rcases hcases with ⟨-, -, rfl⟩ | ⟨hne, -⟩
    · exact .invalid htest.1 (Int.not_lt.mp fun h => hlarge ⟨htest.1, h⟩) htest.2
    · exact absurd rfl hne
  · cases htime
    rcases hcases with ⟨-, hinvalid, -⟩ | ⟨hne, -⟩
    · cases hinvalid
    · exact absurd rfl hne
  · cases htime
    rcases hcases with ⟨-, hinvalid, -⟩ | ⟨hne, hlead, rfl⟩
    · cases hinvalid
    · refine .day (fun hleap => ?_) (fun hleap => ?_) (fun hpos => ?_) hne hlead
      · exact Int.not_lt.mp fun h => hlarge ⟨hleap, h⟩
      · exact Classical.not_not.mp fun h => htest ⟨hleap, h⟩
      · exact Int.not_lt.mp fun h => hguard ⟨hpos, h⟩

theorem checkedTime_mktime (hzone : ConstantOffset zone east) (tm : Tm)
    (hlow : timeMin < timegm tm - east) (hhigh : timegm tm - east < timeMax) :
    checkedTime (zone.mktime tm) = timegm tm - east := by
  rw [hzone.mktime tm ⟨Int.le_of_lt hlow, Int.le_of_lt hhigh⟩]
  exact if_neg (by omega)

theorem dayStart_bounds (fields : Fields pil) (hfits : Fits year) :
    timeMin + 0x100000000 < dayStart pil year ∧ dayStart pil year < timeMax - 0x100000000 := by
  rw [← localSeconds_atMidnight]
  exact localSeconds_bounds (fields_atMidnight fields) hfits

/-- The same times, but -1 is an error of `mktime`. -/
theorem zoneWindow_eq {zone : Zone} {east : Int} (hzone : ConstantOffset zone east) {pil : Pil}
    (fields : Fields pil) {year : Int} (hfits : Fits year) (hlow : intMin ≤ east)
    (hhigh : east ≤ intMax) {tm : Tm} (hyear : tm.tmYear = year - 1900)
    (hmon : tm.tmMon = pilMonth pil - 1) (hmday : tm.tmMday = pilDay pil) :
    zoneWindow zone pil tm =
      if dayStart pil year - east - lead pil = -1 then none
      else if dayStart pil year - east + 28 * 60 * 60 = -1 then none
      else some
        (dayStart pil year - east - lead pil, dayStart pil year - east + 28 * 60 * 60) := by
  obtain ⟨hmin, hmax⟩ := dayStart_bounds fields hfits
  unfold intMin at hlow
  unfold intMax at hhigh
  have hlead : 0 ≤ lead pil ∧ lead pil ≤ 4 * 60 * 60 := by
    unfold lead
    split_ifs <;> omega
  have hbegin : timegm (if pilHour pil < 4 then
      { tm with tmHour := 20, tmMin := 0, tmSec := 0, tmMday := tm.tmMday - 1 }
      else { tm with tmHour := 0, tmMin := 0, tmSec := 0 }) - east =
        dayStart pil year - east - lead pil := by
    unfold lead dayStart timegm
    split_ifs
    · simp only [hyear, hmon, hmday, Int.sub_add_cancel]
      omega
    · simp only [hyear, hmon, hmday, Int.sub_add_cancel]
      omega
  have hend : timegm { tm with tmHour := 4, tmMin := 0, tmSec := 0, tmMday := tm.tmMday + 1 } -
      east = dayStart pil year - east + 28 * 60 * 60 := by
    unfold dayStart timegm
    simp only [hyear, hmon, hmday, Int.sub_add_cancel]
    omega
  have hstart := checkedTime_mktime hzone _ (by rw [hbegin]; omega) (by rw [hbegin]; omega)
  have hstop := checkedTime_mktime hzone _ (by rw [hend]; omega) (by rw [hend]; omega)
  rw [hbegin] at hstart
  rw [hend] at hstop
  unfold zoneWindow
  simp only [hstart, hstop, hzone.restoreTz, if_true]

theorem localtimeTz_eq (hzone : ConstantOffset zone east) (hknown : ¬ (start = -1 ∧ now = -1)) :
    localtimeTz now zone start = gmtimeR (startTime now start + east) := by
  unfold localtimeTz startTime
  rw [← hzone.localtimeR]
  split_ifs with hstart hnow
  · exact absurd ⟨hstart, hnow⟩ hknown
  · rfl
  · rfl

/-- In a zone of constant offset the two windows are the same, unless the end is what `mktime`
returns for an error. -/
theorem validPilValidityWindow_eq (hzone : ConstantOffset zone east) (fields : Fields pil)
    (hlow : intMin ≤ east) (hhigh : east ≤ intMax)
    (hwindow : validPilLtoValidityWindow now pil start east = some (some window)) :
    validPilValidityWindow now pil start zone =
      some (if window.2 = -1 then none else some window) := by
  obtain ⟨-, hrefuses, houtcome⟩ := outcome_of_window fields hlow hwindow
  unfold validPilValidityWindow
  by_cases hutc : zone.isUtc = true
  · rw [if_pos hutc]
    have heast := hzone.isUtc hutc
    subst heast
    have hend : window.2 ≠ -1 := by
      cases houtcome with
      | invalid => decide
      | day =>
        unfold dayStart
        simp only
        omega
    rw [hwindow, if_neg hend]
  have hunknown : ¬ (start = -1 ∧ now = -1) := fun h => hrefuses (Or.inl h)
  have hfits : Fits (localDate (startTime now start) east).year := by
    by_contra h
    exact hrefuses (Or.inr (Or.inr (Or.inl h)))
  have hfit : Fits (pilYear (localDate (startTime now start) east) pil) := by
    by_contra h
    exact hrefuses (Or.inr (Or.inr (Or.inr h)))
  obtain ⟨tm, hlocal, hyear, hmon⟩ := gmtimeR_some hfits
  have hpil := tmMonMdayFromPil_eq pil tm _ hfits hyear hmon
  rw [if_pos hfit] at hpil
  rw [if_neg hutc, localtimeTz_eq hzone hunknown, hlocal]
  simp only [hpil]
  have hcheck := @tmLeapDayCheck_eq pil fields { tm with
    tmYear := pilYear (localDate (startTime now start) east) pil - 1900
    tmMon := pilMonth pil - 1
    tmMday := pilDay pil } _ rfl rfl rfl
  have hzoned := @zoneWindow_eq zone east hzone pil fields _ hfit hlow hhigh { tm with
    tmYear := pilYear (localDate (startTime now start) east) pil - 1900
    tmMon := pilMonth pil - 1
    tmMday := pilDay pil } rfl rfl rfl
  generalize pilYear (localDate (startTime now start) east) pil = year at hcheck hzoned houtcome ⊢
  cases houtcome with
  | invalid hleap hlarge htest =>
    have hnot : ¬ intMax < year := Int.not_lt.mpr hlarge
    rw [if_pos hleap, if_neg hnot] at hcheck
    rw [Bool.not_eq_true] at htest
    rw [htest] at hcheck
    have hend : indefinite.2 ≠ -1 := by decide
    rw [if_neg hend]
    simp [hcheck, hzone.restoreTz]
  | day hlarge htest hguard herror hlead =>
    have hpassed : tmLeapDayCheck { tm with
        tmYear := year - 1900
        tmMon := pilMonth pil - 1
        tmMday := pilDay pil } = some true := by
      rw [hcheck]
      split_ifs with hleap hlate
      · exact absurd hlate (Int.not_lt.mpr (hlarge hleap))
      · rw [htest hleap]
      · rfl
    have hbegin : dayStart pil year - east - lead pil ≠ -1 := by
      unfold lead
      split_ifs with hhour
      · have hle := hlead hhour
        omega
      · rwa [Int.sub_zero]
    rw [if_neg hbegin] at hzoned
    simp [hpassed, hzoned]

theorem inWindow_pilDate (fields : Fields pil)
    (hexists : DateExists pil (pilYear (localDate start east) pil)) :
    InWindow (localDate start east) (pilDate fields _ hexists) :=
  (inWindow_iff _ _ rfl).mpr rfl

/-- The leap year test decides whether there is a day. -/
theorem day_of_outcome (fields : Fields pil)
    (houtcome : Outcome pil (pilYear (localDate start east) pil) east window)
    (htest : IsLeapDay pil → (isLeapYear (pilYear (localDate start east) pil) = true ↔
      IsLeap (pilYear (localDate start east) pil))) :
    if DateExists pil (pilYear (localDate start east) pil) then IsDayWindow pil start east window
    else window = indefinite := by
  have hdate := dateExists_iff fields (pilYear (localDate start east) pil)
  cases houtcome with
  | invalid hleap hlarge hyear =>
    have hmissing : ¬ DateExists pil (pilYear (localDate start east) pil) := by
      rw [hdate]
      exact fun h => hyear ((htest hleap).mpr (h hleap))
    rw [if_neg hmissing]
  | day hlarge hyear hguard herror hlead =>
    have hexists : DateExists pil (pilYear (localDate start east) pil) :=
      hdate.mpr fun hleap => (htest hleap).mp (hyear hleap)
    have hstart := dayStart_eq fields hexists
    rw [if_pos hexists]
    refine ⟨pilDate fields _ hexists, ?_, rfl, inWindow_pilDate fields hexists, ?_, ?_⟩
    · exact Nat.sub_add_cancel fields.month_pos
    · simp only
      omega
    · simp only
      omega

theorem time_mem_window (hvalid : vbiPilIsValidDate pil = true) (hlow : intMin ≤ east)
    (hnegate : east = intMin → start = -1 ∧ now = -1) (hrefuses : ¬ Refuses now pil start east)
    (houtcome : Outcome pil (pilYear (localDate (startTime now start) east) pil) east window) :
    ∃ t, vbiPilLtoToTime now pil start east = some t ∧ window.1 ≤ t ∧ t < window.2 := by
  have fields := fields_of_valid hvalid
  have hcode := vbiPilLtoToTime_eq hvalid hlow hnegate
  simp only [if_neg hrefuses] at hcode
  rw [hcode]
  generalize pilYear (localDate (startTime now start) east) pil = year at houtcome ⊢
  cases houtcome with
  | invalid hleap hlarge hyear =>
    refine ⟨-1, ?_, by decide, by decide⟩
    rw [if_neg fun h => absurd h.2 (Int.not_lt.mpr hlarge), if_pos ⟨hleap, hyear⟩]
  | day hlarge hyear hguard herror hlead =>
    have hhour := fields.hour_lt
    have hminute := fields.minute_lt
    have hinstant : instant pil year east =
        dayStart pil year - east + pilHour pil * 3600 + pilMinute pil * 60 := by
      rw [instant, localSeconds_dayStart]
      omega
    have hlead' : 0 ≤ lead pil := by
      unfold lead
      split_ifs <;> omega
    have hpassed : ¬ (0 < east ∧ instant pil year east < 0) := by
      rintro ⟨hpos, hneg⟩
      have hle := hguard hpos
      omega
    refine ⟨instant pil year east, ?_, ?_, ?_⟩
    · rw [if_neg fun h => absurd h.2 (Int.not_lt.mpr (hlarge h.1)),
        if_neg fun h => h.2 (hyear h.1), if_neg hpassed]
    · simp only
      omega
    · simp only
      omega

/-- The window of a valid PIL: the day of the PIL, or no limit if February 29th is not in the
year. It has the time of the PIL, and a time zone of that offset gives the same one, unless
`mktime` cannot tell the end from an error. Before the year 0 the leap year test is not that of
the calendar. -/
theorem validity_windows (now start : BitVec 64) (east : BitVec 32) (pil : Pil) (zone : Zone)
    (window : Window) (hvalid : vbiPilIsValidDate pil = true)
    (hzone : ConstantOffset zone east.toInt)
    (hwindow : vbiPilLtoValidityWindow now.toInt pil start.toInt east.toInt =
      some (some window)) :
    let around := startTime now.toInt start.toInt
    let year := pilYear (localDate around east.toInt) pil
    ((IsLeapDay pil → (isLeapYear year = true ↔ IsLeap year)) →
      if DateExists pil year then IsDayWindow pil around east.toInt window
      else window = indefinite) ∧
    (∃ t, vbiPilLtoToTime now.toInt pil start.toInt east.toInt = some t ∧
      window.1 ≤ t ∧ t < window.2) ∧
    vbiPilValidityWindow now.toInt pil start.toInt zone =
      some (if window.2 = -1 then none else some window) := by
  have fields := fields_of_valid hvalid
  have hlow : intMin ≤ east.toInt := by
    have h := @BitVec.le_toInt 32 east
    unfold intMin
    omega
  have hhigh : east.toInt ≤ intMax := by
    have h := @BitVec.toInt_lt 32 east
    unfold intMax
    omega
  unfold vbiPilLtoValidityWindow at hwindow
  rw [byMonth_of_fields fields] at hwindow
  obtain ⟨hnegate, hrefuses, houtcome⟩ := outcome_of_window fields hlow hwindow
  intro around year
  refine ⟨day_of_outcome fields houtcome, ?_, ?_⟩
  · exact time_mem_window hvalid hlow hnegate hrefuses houtcome
  · unfold vbiPilValidityWindow
    rw [byMonth_of_fields fields]
    exact validPilValidityWindow_eq hzone fields hlow hhigh hwindow

/-- A time zone without daylight-saving time. -/
def constantZone (east : Int) : Zone where
  isUtc := false
  localtimeR := fun t => gmtimeR (t + east)
  mktime := fun tm => timegm tm - east
  restoreTz := true

theorem constantZone_offset (east : Int) : ConstantOffset (constantZone east) east := by
  constructor
  · intro h
    cases h
  · exact fun _ => rfl
  · exact fun _ _ => rfl
  · rfl

/-- December 31st 20:15 in Paris, looked for on January 1st 2024. -/
theorem validity_windows_new_year :
    IsDayWindow 0xFE50F#32 1704067200 3600 (1703977200, 1704078000) ∧
      (∃ t, vbiPilLtoToTime 0 0xFE50F#32 1704067200 3600 = some t ∧
        1703977200 ≤ t ∧ t < 1704078000) ∧
      vbiPilValidityWindow 0 0xFE50F#32 1704067200 (constantZone 3600) =
        some (some (1703977200, 1704078000)) := by
  obtain ⟨hday, htime, hzone⟩ := validity_windows 0 1704067200 3600 0xFE50F#32
    (constantZone 3600) (1703977200, 1704078000) (by decide) (constantZone_offset 3600)
    (by decide +kernel)
  refine ⟨?_, htime, hzone⟩
  have hleap : ¬ IsLeapDay 0xFE50F#32 := by decide
  have hthen := hday fun h => absurd h hleap
  exact (if_pos (by decide +kernel)).mp hthen

/-- In 2023 there is no February 29th, so its window does not begin at midnight. The window of
a December 30th ends a second before the epoch, 19:59:59 west of Greenwich, and the time zone
has none. -/
theorem windows_differ :
    vbiPilIsValidDate 0xE9300#32 = true ∧
      vbiPilLtoValidityWindow 0 0xE9300#32 1673784000 0 = some (some indefinite) ∧
      ¬ IsDayWindow 0xE9300#32 1673784000 0 indefinite ∧
      vbiPilIsValidDate 0xF6300#32 = true ∧
      vbiPilLtoValidityWindow 0 0xF6300#32 100000 (-71999) = some (some (-100801, -1)) ∧
      vbiPilValidityWindow 0 0xF6300#32 100000 (constantZone (-71999)) = some none := by
  refine ⟨by decide, by decide +kernel, ?_, by decide, by decide +kernel, by decide +kernel⟩
  rintro ⟨date, -, -, -, hbegin, -⟩
  have hlead : lead 0xE9300#32 = 0 := by decide
  rw [hlead] at hbegin
  change timeMin + 0 = _ at hbegin
  unfold timeMin at hbegin
  omega

end PilWindows
