import StudentHub.Ecma.Date

/-!
# The order of ISO texts

Texts of `toISOString` compare as their instants while the year has one form. A year with six
digits begins with its sign, and both signs come before every digit, the plus first.
-/

/-!
## The same day of another year

`Date.UTC` makes a time value from numbers that may run over their year or month, and
`setUTCFullYear` moves a date to another year. A twenty-ninth of February that the other year
does not have becomes the first of March, so days stay in order when all go back some years.
-/

namespace Ecma

open Calendar

/-- `Date.UTC(year, month - 1, date)`: the years 0 to 99 are those of the twentieth century. -/
def Date.utc (year month date : ℕ) : Date :=
  let year : ℤ := if year ≤ 99 then 1900 + year else year
  let months : ℤ := month - 1
  timeClip (CalendarDate.makeDay ⟨year + months / 12, (months % 12).toNat + 1, date⟩ * msPerDay)

namespace CalendarDate

def yearsBefore (years : ℤ) (day : CalendarDate) : CalendarDate :=
  { day with year := day.year - years }

theorem daysInMonth_le_succ (year other : ℤ) (month : ℕ) :
    daysInMonth year month ≤ daysInMonth other month + 1 := by
  unfold daysInMonth
  split
  · split <;> split <;> omega
  · omega
  · omega
  · omega
  · omega
  · omega

theorem Exists.date_le {day : CalendarDate} (exist : day.Exists) (other : ℤ) :
    daysBeforeMonth other day.month + day.date - 1 ≤ daysBeforeMonth other (day.month + 1) := by
  rcases exist with ⟨january, -, -, last⟩
  have months := daysInMonth_le_succ day.year other day.month
  rw [daysBeforeMonth_succ other january]
  omega

theorem makeDay_yearsBefore_le {left right : CalendarDate} (years : ℤ) (leftExists : left.Exists)
    (rightExists : right.Exists) (notAfter : left.makeDay ≤ right.makeDay) :
    (left.yearsBefore years).makeDay ≤ (right.yearsBefore years).makeDay := by
  have leftEnds := leftExists.date_le (left.year - years)
  have first := rightExists.2.2.1
  rcases before_trichotomy left right with
    (earlierYear | ⟨sameYear, earlierMonth | ⟨sameMonth, earlierDate⟩⟩) | rfl | after
  · have december : daysBeforeMonth (left.year - years) (left.month + 1) ≤
        daysBeforeMonth (left.year - years) 13 :=
      daysBeforeMonth_mono _ (Nat.succ_le_succ leftExists.2.1)
    have starts : 0 ≤ daysBeforeMonth (right.year - years) right.month :=
      daysBeforeMonth_mono _ (Nat.zero_le right.month)
    have inOrder : dayFromYear (left.year - years + 1) ≤ dayFromYear (right.year - years) :=
      dayFromYear_strictMono.monotone (by omega)
    rw [dayFromYear_succ, ← daysBeforeMonth_thirteen] at inOrder
    simp only [makeDay, yearsBefore]
    omega
  · have months : daysBeforeMonth (right.year - years) (left.month + 1) ≤
        daysBeforeMonth (right.year - years) right.month := daysBeforeMonth_mono _ earlierMonth
    rw [sameYear] at leftEnds
    simp only [makeDay, yearsBefore, sameYear]
    omega
  · simp only [makeDay, yearsBefore, sameYear, sameMonth]
    omega
  · rfl
  · have less := makeDay_lt rightExists leftExists after
    omega

theorem exists_timeClip_makeDay {day : CalendarDate} (lower : -10000 ≤ day.year)
    (upper : day.year ≤ 10000) (december : day.month ≤ 12) (last : day.date ≤ 31) :
    ∃ instant : Instant, timeClip (day.makeDay * msPerDay) = some instant ∧
      instant.time = day.makeDay * msPerDay := by
  have early : dayFromYear (-10000) ≤ dayFromYear day.year := dayFromYear_strictMono.monotone lower
  have late : dayFromYear day.year ≤ dayFromYear 10000 := dayFromYear_strictMono.monotone upper
  have first : dayFromYear (-10000) = -4371953 := by decide
  have final : dayFromYear 10000 = 2932897 := by decide
  have starts : daysBeforeMonth day.year 0 ≤ daysBeforeMonth day.year day.month :=
    daysBeforeMonth_mono day.year (Nat.zero_le _)
  have ends : daysBeforeMonth day.year day.month ≤ daysBeforeMonth day.year 13 :=
    daysBeforeMonth_mono day.year (by omega)
  have length : daysInYear day.year ≤ 366 := by
    rw [daysInYear]
    split <;> omega
  rw [daysBeforeMonth_thirteen] at ends
  have inRange : -maxTime ≤ day.makeDay * msPerDay ∧ day.makeDay * msPerDay ≤ maxTime := by
    simp only [daysBeforeMonth] at starts
    simp only [maxTime, msPerDay, makeDay]
    omega
  exact ⟨⟨day.makeDay * msPerDay, inRange⟩, by rw [timeClip, dif_pos inRange], rfl⟩

end CalendarDate

namespace Instant

/-- `setUTCFullYear`, the year being counted from that of the date -/
def setYearsBefore (instant : Instant) (years : ℤ) : Date :=
  timeClip (((CalendarDate.ofDay (instant.time / msPerDay)).yearsBefore years).makeDay * msPerDay +
    instant.time % msPerDay)

theorem setYearsBefore_midnight {instant : Instant} {day : CalendarDate} (exist : day.Exists)
    (midnight : instant.time = day.makeDay * msPerDay) (years : ℤ) :
    instant.setYearsBefore years = timeClip ((day.yearsBefore years).makeDay * msPerDay) := by
  rw [setYearsBefore, midnight, Int.mul_ediv_cancel _ (by decide), CalendarDate.ofDay_makeDay exist,
    Int.mul_emod_left, add_zero]

end Instant

end Ecma

namespace Ecma

open Calendar JsString

/-- The year of a time value in UTC. -/
def Instant.year (instant : Instant) : ℤ := (CalendarDate.ofDay (instant.time / msPerDay)).year

namespace Calendar

theorem le_yearFromDay_iff {year day : ℤ} : year ≤ yearFromDay day ↔ dayFromYear year ≤ day := by
  rcases yearFromDay_bounds day with ⟨starts, ends⟩
  refine ⟨?_, ?_⟩
  · intro notAfter
    exact (dayFromYear_strictMono.monotone notAfter).trans starts
  · intro started
    have before := dayFromYear_strictMono.lt_iff_lt.mp (started.trans_lt ends)
    omega

end Calendar

theorem timeText_lt {left right : ℕ} (less : left < right) (inDay : right < 86400000) :
    timeText left < timeText right := by
  simp only [timeText, List.append_assoc]
  by_cases hours : left / 3600000 < right / 3600000
  · exact append_lt_append (by simp) (digits_lt_digits hours (by omega)) _ _
  have sameHours : left / 3600000 = right / 3600000 := by omega
  rw [sameHours]
  apply append_lt_append_left
  apply append_lt_append_left
  by_cases minutes : left / 60000 % 60 < right / 60000 % 60
  · exact append_lt_append (by simp) (digits_lt_digits minutes (by omega)) _ _
  have sameMinutes : left / 60000 % 60 = right / 60000 % 60 := by omega
  rw [sameMinutes]
  apply append_lt_append_left
  apply append_lt_append_left
  by_cases seconds : left / 1000 % 60 < right / 1000 % 60
  · exact append_lt_append (by simp) (digits_lt_digits seconds (by omega)) _ _
  have sameSeconds : left / 1000 % 60 = right / 1000 % 60 := by omega
  rw [sameSeconds]
  apply append_lt_append_left
  apply append_lt_append_left
  exact append_lt_append (by simp) (digits_lt_digits (by omega) (by omega)) _ _

namespace CalendarDate

def SameForm (left right : ℤ) : Prop := left = right ∨ (0 ≤ left ∧ 0 ≤ right ∧ right ≤ 9999)

theorem length_yearText_of_sameForm {left right : ℤ} (form : SameForm left right)
    (notAfter : left ≤ right) : (yearText left).length = (yearText right).length := by
  rcases form with rfl | ⟨leftLower, rightLower, upper⟩
  · rfl
  · rw [yearText, yearText, if_pos ⟨leftLower, by omega⟩, if_pos ⟨rightLower, upper⟩]
    simp

theorem text_lt_of_before {left right : CalendarDate} (form : SameForm left.year right.year)
    (rightMonth : right.month < 10 ^ 2) (rightDate : right.date < 10 ^ 2)
    (before : left.Before right) : left.text < right.text := by
  simp only [text, List.append_assoc]
  rcases before with earlierYear | ⟨sameYear, earlierMonth | ⟨sameMonth, earlierDate⟩⟩
  · rcases form with same | ⟨leftLower, rightLower, upper⟩
    · omega
    · rw [yearText, yearText, if_pos ⟨leftLower, by omega⟩, if_pos ⟨rightLower, upper⟩]
      exact append_lt_append (by simp) (digits_lt_digits (by omega) (by omega)) _ _
  · rw [sameYear]
    apply append_lt_append_left
    apply append_lt_append_left
    exact append_lt_append (by simp) (digits_lt_digits earlierMonth rightMonth) _ _
  · rw [sameYear, sameMonth]
    apply append_lt_append_left
    apply append_lt_append_left
    apply append_lt_append_left
    apply append_lt_append_left
    exact digits_lt_digits earlierDate rightDate

end CalendarDate

namespace Instant

variable {left right : Instant}

theorem toISOString_lt_of_sameForm (form : CalendarDate.SameForm left.year right.year)
    (less : left.time < right.time) : left.toISOString < right.toISOString := by
  have leftExists := CalendarDate.ofDay_exists (left.time / msPerDay)
  have rightExists := CalendarDate.ofDay_exists (right.time / msPerDay)
  have rightInDay : (right.time % msPerDay).toNat < 86400000 := by
    simp only [msPerDay]
    omega
  simp only [toISOString, List.append_assoc]
  by_cases sameDay : left.time / msPerDay = right.time / msPerDay
  · rw [sameDay]
    apply append_lt_append_left
    apply append_lt_append_left
    apply timeText_lt _ rightInDay
    simp only [msPerDay] at *
    omega
  · have days : left.time / msPerDay < right.time / msPerDay := by
      simp only [msPerDay] at *
      omega
    have before : (CalendarDate.ofDay (left.time / msPerDay)).Before
        (CalendarDate.ofDay (right.time / msPerDay)) := by
      have numbers : (CalendarDate.ofDay (left.time / msPerDay)).makeDay <
          (CalendarDate.ofDay (right.time / msPerDay)).makeDay := by
        rwa [CalendarDate.makeDay_ofDay, CalendarDate.makeDay_ofDay]
      rcases CalendarDate.before_trichotomy (CalendarDate.ofDay (left.time / msPerDay))
        (CalendarDate.ofDay (right.time / msPerDay)) with before | same | after
      · exact before
      · rw [same] at numbers
        exact absurd numbers (lt_irrefl _)
      · exact absurd (CalendarDate.makeDay_lt rightExists leftExists after) numbers.not_gt
    have lastOfMonth := (daysInMonth_bounds (CalendarDate.ofDay (right.time / msPerDay)).year
      (CalendarDate.ofDay (right.time / msPerDay)).month).2
    rcases rightExists with ⟨-, december, -, last⟩
    have years : (CalendarDate.ofDay (left.time / msPerDay)).year ≤
        (CalendarDate.ofDay (right.time / msPerDay)).year := by
      rcases before with earlier | ⟨same, -⟩
      · exact earlier.le
      · exact same.le
    apply append_lt_append
    · have widths := CalendarDate.length_yearText_of_sameForm form years
      simp only [year] at widths
      simp [CalendarDate.text, widths]
    · exact CalendarDate.text_lt_of_before form (by omega) (by omega) before

theorem exists_cons_toISOString (instant : Instant) :
    ∃ first rest, instant.toISOString = first :: rest ∧
      (9999 < instant.year → first = 43) ∧ (instant.year < 0 → first = 45) ∧
      (0 ≤ instant.year → instant.year ≤ 9999 → isDigit first = true) := by
  have text : instant.toISOString = CalendarDate.yearText instant.year ++
      (instant.toISOString.drop (CalendarDate.yearText instant.year).length) := by
    rw [toISOString, CalendarDate.text]
    simp only [List.append_assoc, year, List.drop_left]
  rw [text, CalendarDate.yearText]
  split
  · rename_i four
    cases written : digits 4 instant.year.toNat with
    | nil => exact absurd (congrArg List.length written) (by simp)
    | cons first rest =>
        refine ⟨first, _, List.cons_append, by omega, by omega, fun _ _ => ?_⟩
        exact isDigit_of_mem_digits (by rw [written]; exact List.mem_cons_self)
  · rename_i long
    refine ⟨_, _, List.cons_append, ?_, ?_, by omega⟩
    · intro after
      rw [if_neg (by omega)]
    · intro before
      rw [if_pos before]

theorem toISOString_lt_of_long (long : 9999 < left.year) (short : right.year ≤ 9999) :
    left.toISOString < right.toISOString := by
  rcases exists_cons_toISOString left with ⟨first, rest, text, plus, -⟩
  rcases exists_cons_toISOString right with ⟨other, others, otherText, -, minus, decimal⟩
  rw [text, otherText, plus long]
  apply List.Lex.rel
  by_cases negative : right.year < 0
  · rw [minus negative]
    decide
  · have isDecimal := isDigit_iff.mp (decimal (by omega) short)
    have value : (43 : UInt16).toNat = 43 := rfl
    rw [UInt16.lt_iff_toNat_lt]
    omega

theorem toISOString_lt_of_negative (negative : left.year < 0) (lower : 0 ≤ right.year)
    (upper : right.year ≤ 9999) : left.toISOString < right.toISOString := by
  rcases exists_cons_toISOString left with ⟨first, rest, text, -, minus, -⟩
  rcases exists_cons_toISOString right with ⟨other, others, otherText, -, -, decimal⟩
  rw [text, otherText, minus negative]
  apply List.Lex.rel
  have isDecimal := isDigit_iff.mp (decimal lower upper)
  have value : (45 : UInt16).toNat = 45 := rfl
  rw [UInt16.lt_iff_toNat_lt]
  omega

def NearFourDigits (instant : Instant) : Prop := -1 ≤ instant.year ∧ instant.year ≤ 10000

theorem year_le_of_time_le (notAfter : left.time ≤ right.time) : left.year ≤ right.year := by
  apply le_yearFromDay_iff.mpr
  apply le_trans (yearFromDay_bounds (left.time / msPerDay)).1
  apply Int.ediv_le_ediv (by decide) notAfter

theorem toISOString_lt_iff (leftNear : left.NearFourDigits) (rightNear : right.NearFourDigits)
    (long : 9999 < left.year ↔ 9999 < right.year) :
    left.toISOString < right.toISOString ↔ left.time < right.time := by
  have forward : ∀ {first second : Instant}, first.NearFourDigits → second.NearFourDigits →
      (9999 < first.year ↔ 9999 < second.year) → first.time < second.time →
        first.toISOString < second.toISOString := by
    intro first second firstNear secondNear long less
    have years := year_le_of_time_le less.le
    rcases firstNear with ⟨firstLower, firstUpper⟩
    rcases secondNear with ⟨secondLower, secondUpper⟩
    by_cases sameYear : first.year = second.year
    · exact toISOString_lt_of_sameForm (.inl sameYear) less
    · by_cases negative : first.year < 0
      · exact toISOString_lt_of_negative negative (by omega) (by omega)
      · exact toISOString_lt_of_sameForm (.inr ⟨by omega, by omega, by omega⟩) less
  refine ⟨?_, forward leftNear rightNear long⟩
  intro texts
  by_contra notBefore
  rcases (not_lt.mp notBefore).lt_or_eq with later | same
  · exact List.lt_asymm texts (forward rightNear leftNear long.symm later)
  · rw [show left = right by cases left; cases right; cases same; rfl] at texts
    exact List.lt_irrefl _ texts

end Instant

end Ecma
