import Mathlib.Data.List.Basic
import Mathlib.Order.Basic
import Mathlib.Order.Monotone.Basic
import Mathlib.Tactic.SplitIfs

/-!
# The proleptic Gregorian calendar

Every day has one date and every date is one day. Days are counted from 1970-01-01, years
have an astronomical number and months count from zero.
-/

namespace Gregorian

def IsLeap (y : Int) : Prop := y % 4 = 0 ∧ (y % 100 ≠ 0 ∨ y % 400 = 0)

instance (y : Int) : Decidable (IsLeap y) := inferInstanceAs (Decidable (_ ∧ _))

def yearLength (y : Int) : Int := if IsLeap y then 366 else 365

def yearStart (y : Int) : Int :=
  365 * (y - 1970) + ((y - 1) / 4 - (y - 1) / 100 + (y - 1) / 400) - 477

theorem yearStart_succ (y : Int) : yearStart (y + 1) = yearStart y + yearLength y := by
  unfold yearStart yearLength IsLeap
  split_ifs <;> omega

variable {y y' : Int} {n : Nat}

theorem yearStart_mono (hle : y ≤ y') : yearStart y ≤ yearStart y' := by
  unfold yearStart
  omega

def yearOf (n : Int) : Int :=
  let y := 400 * n / 146097 + 1970
  if n < yearStart y then y - 1 else if yearStart (y + 1) ≤ n then y + 1 else y

theorem estimate_bounds (n : Int) : yearStart (400 * n / 146097 + 1970 - 1) ≤ n ∧
    n < yearStart (400 * n / 146097 + 1970 + 1 + 1) := by
  unfold yearStart
  omega

theorem yearOf_spec (n : Int) : yearStart (yearOf n) ≤ n ∧ n < yearStart (yearOf n + 1) := by
  obtain ⟨hfirst, hlast⟩ := estimate_bounds n
  unfold yearOf
  simp only
  split_ifs with hearly hlate
  · rw [Int.sub_add_cancel]
    exact ⟨hfirst, hearly⟩
  · exact ⟨hlate, hlast⟩
  · exact ⟨Int.not_lt.mp hearly, Int.not_le.mp hlate⟩

theorem year_unique {n : Int} (hy : yearStart y ≤ n ∧ n < yearStart (y + 1))
    (hy' : yearStart y' ≤ n ∧ n < yearStart (y' + 1)) : y = y' := by
  rcases Int.lt_trichotomy y y' with hlt | heq | hgt
  · have hle := yearStart_mono (Int.add_one_le_of_lt hlt)
    omega
  · exact heq
  · have hle := yearStart_mono (Int.add_one_le_of_lt hgt)
    omega

def commonLength : Nat → Nat
  | 1 => 28
  | 3 | 5 | 8 | 10 => 30
  | _ => 31

def monthLength (y : Int) (m : Nat) : Nat :=
  if m = 1 ∧ IsLeap y then 29 else commonLength m

def monthStart (y : Int) : Nat → Nat
  | 0 => 0
  | m + 1 => monthStart y m + monthLength y m

theorem monthStart_mono (y : Int) : Monotone (monthStart y) :=
  monotone_nat_of_le_succ fun _ => Nat.le_add_right _ _

theorem monthStart_year (y : Int) : (monthStart y 12 : Int) = yearLength y := by
  unfold yearLength
  by_cases hleap : IsLeap y
  · simp [monthStart, monthLength, commonLength, hleap]
  · simp [monthStart, monthLength, commonLength, hleap]

theorem month_unique {m m' : Nat} (hm : monthStart y m ≤ n ∧ n < monthStart y (m + 1))
    (hm' : monthStart y m' ≤ n ∧ n < monthStart y (m' + 1)) : m = m' := by
  rcases Nat.lt_trichotomy m m' with hlt | heq | hgt
  · have hle : monthStart y (m + 1) ≤ monthStart y m' := monthStart_mono y hlt
    omega
  · exact heq
  · have hle : monthStart y (m' + 1) ≤ monthStart y m := monthStart_mono y hgt
    omega

/-- The month of a day of the year: from month `m` on, the first that does not end before the
day, `left` of them at most being skipped. -/
def monthFrom (y : Int) (n : Nat) : Nat → Nat → Nat
  | 0, m => m
  | left + 1, m => if n < monthStart y (m + 1) then m else monthFrom y n left (m + 1)

theorem monthFrom_spec (left m : Nat) (hfirst : monthStart y m ≤ n)
    (hlast : n < monthStart y (m + left + 1)) :
    monthStart y (monthFrom y n left m) ≤ n ∧ n < monthStart y (monthFrom y n left m + 1) ∧
      monthFrom y n left m ≤ m + left := by
  induction left generalizing m with
  | zero => exact ⟨hfirst, hlast, Nat.le_refl _⟩
  | succ left ih =>
    rw [monthFrom]
    by_cases hfound : n < monthStart y (m + 1)
    · rw [if_pos hfound]
      exact ⟨hfirst, hfound, Nat.le_add_right _ _⟩
    · rw [if_neg hfound]
      have hsum : m + (left + 1) = m + 1 + left := by omega
      rw [hsum] at hlast ⊢
      exact ih (m + 1) (Nat.not_lt.mp hfound) hlast

structure Date where
  year : Int
  month : Nat
  day : Nat
  month_lt : month < 12
  day_pos : 0 < day
  day_le : day ≤ monthLength year month
  deriving DecidableEq

namespace Date

def number (date : Date) : Int :=
  yearStart date.year + monthStart date.year date.month + (date.day - 1 : Nat)

def dayOfYear (date : Date) : Nat := monthStart date.year date.month + (date.day - 1)

theorem dayOfYear_month (date : Date) : monthStart date.year date.month ≤ date.dayOfYear ∧
    date.dayOfYear < monthStart date.year (date.month + 1) := by
  have hpos := date.day_pos
  have hle := date.day_le
  rw [dayOfYear, monthStart]
  omega

theorem number_eq (date : Date) : date.number = yearStart date.year + date.dayOfYear := by
  rw [number, dayOfYear]
  omega

theorem number_year (date : Date) :
    yearStart date.year ≤ date.number ∧ date.number < yearStart (date.year + 1) := by
  have hmonth := date.dayOfYear_month.2
  have hyear : monthStart date.year (date.month + 1) ≤ monthStart date.year 12 :=
    monthStart_mono date.year date.month_lt
  have hlength := monthStart_year date.year
  rw [number_eq, yearStart_succ]
  omega

theorem number_injective : Function.Injective number := by
  intro date date' hnumber
  have hyear : date.year = date'.year :=
    year_unique date.number_year (hnumber ▸ date'.number_year)
  have hday : date.dayOfYear = date'.dayOfYear := by
    have heq := number_eq date
    have heq' := number_eq date'
    rw [hyear] at heq
    omega
  have hmonth : date.month = date'.month := by
    have hspec := date.dayOfYear_month
    rw [hyear, hday] at hspec
    exact month_unique hspec date'.dayOfYear_month
  have hpos := date.day_pos
  have hpos' := date'.day_pos
  obtain ⟨y, m, d, _, _, _⟩ := date
  obtain ⟨y', m', d', _, _, _⟩ := date'
  subst hyear hmonth
  have hsame : d = d' := by
    rw [dayOfYear, dayOfYear] at hday
    simp only at hday hpos hpos'
    omega
  subst hsame
  rfl

def offset (n : Int) : Nat := (n - yearStart (yearOf n)).toNat

theorem offset_spec (n : Int) : n = yearStart (yearOf n) + offset n ∧
    offset n < monthStart (yearOf n) 12 := by
  obtain ⟨hfirst, hlast⟩ := yearOf_spec n
  rw [yearStart_succ] at hlast
  have hlength := monthStart_year (yearOf n)
  unfold offset
  omega

theorem month_spec (n : Int) :
    monthStart (yearOf n) (monthFrom (yearOf n) (offset n) 11 0) ≤ offset n ∧
      offset n < monthStart (yearOf n) (monthFrom (yearOf n) (offset n) 11 0 + 1) ∧
      monthFrom (yearOf n) (offset n) 11 0 ≤ 11 :=
  monthFrom_spec 11 0 (Nat.zero_le _) (offset_spec n).2

def ofNumber (n : Int) : Date where
  year := yearOf n
  month := monthFrom (yearOf n) (offset n) 11 0
  day := offset n - monthStart (yearOf n) (monthFrom (yearOf n) (offset n) 11 0) + 1
  month_lt := Nat.lt_succ_of_le (month_spec n).2.2
  day_pos := Nat.succ_pos _
  day_le := by
    obtain ⟨hfirst, hlast, -⟩ := month_spec n
    rw [monthStart] at hlast
    omega

theorem number_ofNumber (n : Int) : (ofNumber n).number = n := by
  obtain ⟨hfirst, -, -⟩ := month_spec n
  have hoffset := (offset_spec n).1
  rw [number_eq, dayOfYear]
  simp only [ofNumber]
  omega

theorem ofNumber_number (date : Date) : ofNumber date.number = date :=
  number_injective (number_ofNumber date.number)

end Date

end Gregorian
