import Mathlib.Data.Int.ConditionallyCompleteOrder
import Mathlib.Data.Set.Function
import Mathlib.Order.Monotone.Basic
import Mathlib.Tactic.Linarith

/-!
# The proleptic Gregorian calendar

Days are counted from 1 January 1970. `makeDay` numbers a calendar date and
`calendarDate` is its inverse; on valid dates the numbering is the order of
the triples (year, month, day).
-/

namespace Ecma.Calendar

def InLeapYear (year : ℤ) : Prop :=
  year % 4 = 0 ∧ (year % 100 ≠ 0 ∨ year % 400 = 0)

instance (year : ℤ) : Decidable (InLeapYear year) :=
  inferInstanceAs (Decidable (_ ∧ _))

def daysInYear (year : ℤ) : ℤ :=
  if InLeapYear year then 366 else 365

def dayFromYear (year : ℤ) : ℤ :=
  365 * (year - 1970) + (year - 1969) / 4 - (year - 1901) / 100 + (year - 1601) / 400

def yearFromDay (day : ℤ) : ℤ :=
  let estimate := 1970 + day * 400 / 146097
  if day < dayFromYear estimate then
    estimate - 1
  else if dayFromYear (estimate + 1) ≤ day then
    estimate + 1
  else
    estimate

theorem dayFromYear_succ (year : ℤ) :
    dayFromYear (year + 1) = dayFromYear year + daysInYear year := by
  by_cases leap : InLeapYear year
  · simp only [daysInYear, if_pos leap, dayFromYear]
    simp only [InLeapYear] at leap
    omega
  · simp only [daysInYear, if_neg leap, dayFromYear]
    simp only [InLeapYear] at leap
    omega

theorem dayFromYear_strictMono : StrictMono dayFromYear := by
  apply strictMono_int_of_lt_succ
  intro year
  rw [dayFromYear_succ, daysInYear]
  split <;> omega

theorem yearFromDay_bounds (day : ℤ) :
    dayFromYear (yearFromDay day) ≤ day ∧ day < dayFromYear (yearFromDay day + 1) := by
  simp only [yearFromDay]
  split_ifs with early late
  · refine ⟨?_, ?_⟩
    · simp only [dayFromYear]
      omega
    · rw [sub_add_cancel]
      exact early
  · refine ⟨late, ?_⟩
    simp only [dayFromYear]
    omega
  · exact ⟨not_lt.mp early, not_le.mp late⟩

theorem yearFromDay_eq {day year : ℤ}
    (starts : dayFromYear year ≤ day) (ends : day < dayFromYear (year + 1)) :
    yearFromDay day = year := by
  rcases yearFromDay_bounds day with ⟨lower, upper⟩
  have notBefore : year < yearFromDay day + 1 :=
    dayFromYear_strictMono.lt_iff_lt.mp (starts.trans_lt upper)
  have notAfter : yearFromDay day < year + 1 :=
    dayFromYear_strictMono.lt_iff_lt.mp (lower.trans_lt ends)
  omega

def daysInMonth (year : ℤ) : ℕ → ℤ
  | 2 => if InLeapYear year then 29 else 28
  | 4 | 6 | 9 | 11 => 30
  | _ => 31

def daysBeforeMonth (year : ℤ) : ℕ → ℤ
  | 0 | 1 => 0
  | month + 2 => daysBeforeMonth year (month + 1) + daysInMonth year (month + 1)

theorem daysInMonth_bounds (year : ℤ) (month : ℕ) :
    28 ≤ daysInMonth year month ∧ daysInMonth year month ≤ 31 := by
  unfold daysInMonth
  split
  · split <;> omega
  · omega
  · omega
  · omega
  · omega
  · omega

theorem daysBeforeMonth_succ (year : ℤ) {month : ℕ} (positive : 1 ≤ month) :
    daysBeforeMonth year (month + 1) = daysBeforeMonth year month + daysInMonth year month := by
  rcases Nat.exists_eq_add_of_le' positive with ⟨before, rfl⟩
  rfl

theorem daysBeforeMonth_mono (year : ℤ) : Monotone (daysBeforeMonth year) := by
  apply monotone_nat_of_le_succ
  intro month
  cases month with
  | zero => rfl
  | succ before =>
    rw [daysBeforeMonth_succ year (Nat.le_add_left 1 before)]
    have bounds := daysInMonth_bounds year (before + 1)
    omega

theorem daysBeforeMonth_thirteen (year : ℤ) : daysBeforeMonth year 13 = daysInYear year := by
  by_cases leap : InLeapYear year <;>
    simp [daysBeforeMonth, daysInMonth, daysInYear, leap]

def monthFromDay (year dayInYear : ℤ) : ℕ :=
  Nat.findGreatest (fun month => daysBeforeMonth year month ≤ dayInYear) 12

theorem monthFromDay_bounds {year dayInYear : ℤ}
    (starts : 0 ≤ dayInYear) (ends : dayInYear < daysInYear year) :
    1 ≤ monthFromDay year dayInYear ∧ monthFromDay year dayInYear ≤ 12 ∧
      daysBeforeMonth year (monthFromDay year dayInYear) ≤ dayInYear ∧
      dayInYear < daysBeforeMonth year (monthFromDay year dayInYear + 1) := by
  have january : daysBeforeMonth year 1 ≤ dayInYear := starts
  have upper : monthFromDay year dayInYear ≤ 12 := Nat.findGreatest_le 12
  refine ⟨Nat.le_findGreatest (by decide) january, upper, ?_, ?_⟩
  · exact @Nat.findGreatest_spec 1 (fun month => daysBeforeMonth year month ≤ dayInYear) _ 12
      (by decide) january
  · rcases upper.lt_or_eq with inside | last
    · exact not_le.mp (Nat.findGreatest_is_greatest (Nat.lt_succ_self _) inside)
    · rw [last, daysBeforeMonth_thirteen]
      exact ends

theorem monthFromDay_eq {year dayInYear : ℤ} {month : ℕ} (positive : 1 ≤ month)
    (starts : daysBeforeMonth year month ≤ dayInYear)
    (ends : dayInYear < daysBeforeMonth year (month + 1)) (last : month ≤ 12) :
    monthFromDay year dayInYear = month := by
  have mono := daysBeforeMonth_mono year
  have zeroLe : 0 ≤ dayInYear := (mono positive).trans starts
  have inYear : dayInYear < daysInYear year := by
    rw [← daysBeforeMonth_thirteen]
    exact ends.trans_le (mono (Nat.succ_le_succ last))
  rcases monthFromDay_bounds zeroLe inYear with ⟨-, -, lower, upper⟩
  have notBefore : month < monthFromDay year dayInYear + 1 :=
    mono.reflect_lt (starts.trans_lt upper)
  have notAfter : monthFromDay year dayInYear < month + 1 :=
    mono.reflect_lt (lower.trans_lt ends)
  omega

end Ecma.Calendar

namespace Ecma

structure CalendarDate where
  year : ℤ
  month : ℕ
  date : ℕ
  deriving DecidableEq

namespace CalendarDate

open Calendar

def Exists (day : CalendarDate) : Prop :=
  1 ≤ day.month ∧ day.month ≤ 12 ∧ 1 ≤ day.date ∧ day.date ≤ daysInMonth day.year day.month

instance (day : CalendarDate) : Decidable day.Exists :=
  inferInstanceAs (Decidable (_ ∧ _ ∧ _ ∧ _))

def Before (left right : CalendarDate) : Prop :=
  left.year < right.year ∨ left.year = right.year ∧
    (left.month < right.month ∨ left.month = right.month ∧ left.date < right.date)

theorem before_trichotomy (left right : CalendarDate) :
    left.Before right ∨ left = right ∨ right.Before left := by
  rcases left with ⟨leftYear, leftMonth, leftDate⟩
  rcases right with ⟨rightYear, rightMonth, rightDate⟩
  simp only [Before, CalendarDate.mk.injEq]
  omega

def makeDay (day : CalendarDate) : ℤ :=
  dayFromYear day.year + daysBeforeMonth day.year day.month + day.date - 1

def ofDay (number : ℤ) : CalendarDate :=
  let year := yearFromDay number
  let dayInYear := number - dayFromYear year
  let month := monthFromDay year dayInYear
  ⟨year, month, (dayInYear - daysBeforeMonth year month + 1).toNat⟩

theorem Exists.inMonth {day : CalendarDate} (exist : day.Exists) :
    daysBeforeMonth day.year day.month ≤ daysBeforeMonth day.year day.month + day.date - 1 ∧
      daysBeforeMonth day.year day.month + day.date - 1 <
        daysBeforeMonth day.year (day.month + 1) := by
  rcases exist with ⟨january, -, first, last⟩
  rw [daysBeforeMonth_succ day.year january]
  omega

theorem Exists.inYear {day : CalendarDate} (exist : day.Exists) :
    0 ≤ daysBeforeMonth day.year day.month + day.date - 1 ∧
      daysBeforeMonth day.year day.month + day.date - 1 < daysInYear day.year := by
  rcases exist.inMonth with ⟨starts, ends⟩
  have mono := daysBeforeMonth_mono day.year
  refine ⟨(mono exist.1).trans starts, ?_⟩
  rw [← daysBeforeMonth_thirteen]
  exact ends.trans_le (mono (Nat.succ_le_succ exist.2.1))

theorem ofDay_exists (number : ℤ) : (ofDay number).Exists := by
  rcases yearFromDay_bounds number with ⟨yearStarts, yearEnds⟩
  rw [dayFromYear_succ] at yearEnds
  rcases monthFromDay_bounds (sub_nonneg.mpr yearStarts) (sub_left_lt_of_lt_add yearEnds) with
    ⟨january, december, monthStarts, monthEnds⟩
  rw [daysBeforeMonth_succ _ january] at monthEnds
  refine ⟨january, december, ?_, ?_⟩
  · simp only [ofDay]
    omega
  · simp only [ofDay]
    omega

@[simp]
theorem makeDay_ofDay (number : ℤ) : (ofDay number).makeDay = number := by
  have first := (ofDay_exists number).2.2.1
  simp only [makeDay, ofDay] at first ⊢
  omega

theorem ofDay_makeDay {day : CalendarDate} (exist : day.Exists) : ofDay day.makeDay = day := by
  rcases exist.inYear with ⟨yearStarts, yearEnds⟩
  rcases exist.inMonth with ⟨monthStarts, monthEnds⟩
  have year : yearFromDay day.makeDay = day.year := by
    apply yearFromDay_eq
    · simp only [makeDay]
      omega
    · rw [dayFromYear_succ]
      simp only [makeDay]
      omega
  have dayInYear : day.makeDay - dayFromYear day.year =
      daysBeforeMonth day.year day.month + day.date - 1 := by
    simp only [makeDay]
    omega
  have month : monthFromDay day.year (daysBeforeMonth day.year day.month + day.date - 1) =
      day.month :=
    monthFromDay_eq exist.1 monthStarts monthEnds exist.2.1
  have date : (daysBeforeMonth day.year day.month + day.date - 1 -
      daysBeforeMonth day.year day.month + 1).toNat = day.date := by
    omega
  simp only [ofDay, year, month, dayInYear, date]

theorem makeDay_lt {left right : CalendarDate} (leftExists : left.Exists)
    (rightExists : right.Exists) (before : left.Before right) :
    left.makeDay < right.makeDay := by
  rcases leftExists.inYear with ⟨-, leftYearEnds⟩
  rcases leftExists.inMonth with ⟨-, leftMonthEnds⟩
  rcases rightExists.inYear with ⟨rightYearStarts, -⟩
  rcases rightExists.inMonth with ⟨rightMonthStarts, -⟩
  rcases before with earlierYear | ⟨sameYear, earlierMonth | ⟨sameMonth, earlierDate⟩⟩
  · have years : dayFromYear (left.year + 1) ≤ dayFromYear right.year :=
      dayFromYear_strictMono.monotone earlierYear
    rw [dayFromYear_succ] at years
    simp only [makeDay]
    omega
  · have months : daysBeforeMonth left.year (left.month + 1) ≤
        daysBeforeMonth left.year right.month :=
      daysBeforeMonth_mono left.year earlierMonth
    simp only [makeDay, ← sameYear] at rightMonthStarts ⊢
    omega
  · simp only [makeDay, ← sameYear, ← sameMonth]
    omega

end CalendarDate

end Ecma
