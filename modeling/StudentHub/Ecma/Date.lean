import StudentHub.Ecma.Calendar
import StudentHub.Ecma.Digits
import Mathlib.Data.Option.Basic

/-!
# `Date`

A date holds a time value in milliseconds. `toISOString` writes it in the
interchange format and `Date.parse` reads that format; strings outside the format
go to an unspecified parser and are not read here.
-/

namespace Ecma

open Calendar JsString

def maxTime : ℤ := 8640000000000000

def msPerDay : ℤ := 86400000

/-- The time value of a valid date. -/
structure Instant where
  time : ℤ
  inRange : -maxTime ≤ time ∧ time ≤ maxTime
  deriving DecidableEq

def Instant.sample : Instant := ⟨1788868800000, by decide⟩

/-- A date object, `none` being the invalid one, whose time value is `NaN`. -/
abbrev Date := Option Instant

def timeClip (time : ℤ) : Date :=
  if inRange : -maxTime ≤ time ∧ time ≤ maxTime then some ⟨time, inRange⟩ else none

/-- Comparison `left >= right` of time values, false when one of them is `NaN`. -/
def Date.reaches (left right : Date) : Bool :=
  match left, right with
  | some left, some right => right.time ≤ left.time
  | _, _ => false

theorem Date.reaches_of_le {now later : Instant} {deadline : Date} (le : now.time ≤ later.time)
    (reached : Date.reaches (some now) deadline = true) :
    Date.reaches (some later) deadline = true := by
  cases deadline with
  | none => exact reached
  | some deadline =>
    simp only [Date.reaches, decide_eq_true_eq] at reached ⊢
    omega

namespace CalendarDate

def yearText (year : ℤ) : JsString :=
  if 0 ≤ year ∧ year ≤ 9999 then
    digits 4 year.toNat
  else
    (if year < 0 then 45 else 43) :: digits 6 year.natAbs

def text (day : CalendarDate) : JsString :=
  yearText day.year ++ [45] ++ digits 2 day.month ++ [45] ++ digits 2 day.date

end CalendarDate

/-- The time of day, `HH:mm:ss.sssZ`. -/
def timeText (time : ℕ) : JsString :=
  digits 2 (time / 3600000) ++ [58] ++ digits 2 (time / 60000 % 60) ++ [58] ++
    digits 2 (time / 1000 % 60) ++ [46] ++ digits 3 (time % 1000) ++ [90]

/-- `Date.prototype.toISOString` of a valid date. -/
def Instant.toISOString (instant : Instant) : JsString :=
  (CalendarDate.ofDay (instant.time / msPerDay)).text ++ [84] ++
    timeText (instant.time % msPerDay).toNat

namespace Date

def takeDigits (width : ℕ) (text : JsString) : Option (ℕ × JsString) :=
  if (text.take width).length = width ∧ (text.take width).all isDigit then
    some (numeral (text.take width), text.drop width)
  else
    none

def takeUnit (unit : UInt16) : JsString → Option JsString
  | first :: rest => if first = unit then some rest else none
  | [] => none

/-- Four digits, or a sign and six; `-000000` is not a year. -/
def takeYear : JsString → Option (ℤ × JsString)
  | 43 :: rest => (takeDigits 6 rest).map fun (year, rest) => (year, rest)
  | 45 :: rest => do
      let (year, rest) ← takeDigits 6 rest
      if year = 0 then none else some (-year, rest)
  | text => (takeDigits 4 text).map fun (year, rest) => (year, rest)

def takeDay (text : JsString) : Option (CalendarDate × JsString) := do
  let (year, text) ← takeYear text
  let text ← takeUnit 45 text
  let (month, text) ← takeDigits 2 text
  let text ← takeUnit 45 text
  let (date, text) ← takeDigits 2 text
  some (⟨year, month, date⟩, text)

def timeOfDay (text : JsString) : Option ℕ := do
  let (hour, text) ← takeDigits 2 text
  let text ← takeUnit 58 text
  let (minute, text) ← takeDigits 2 text
  let text ← takeUnit 58 text
  let (second, text) ← takeDigits 2 text
  let text ← takeUnit 46 text
  let (millisecond, text) ← takeDigits 3 text
  if text = [90] ∧ minute ≤ 59 ∧ second ≤ 59 ∧
      (hour ≤ 23 ∨ hour = 24 ∧ minute = 0 ∧ second = 0 ∧ millisecond = 0) then
    some (hour * 3600000 + minute * 60000 + second * 1000 + millisecond)
  else
    none

/-- `Date.parse` of the interchange format. A date past the end of its month, such as
the thirtieth of February, is accepted and runs into the next month. -/
def parse (text : JsString) : Date := do
  let (day, text) ← takeDay text
  let text ← takeUnit 84 text
  let time ← timeOfDay text
  if 1 ≤ day.month ∧ day.month ≤ 12 ∧ 1 ≤ day.date ∧ day.date ≤ 31 then
    timeClip (day.makeDay * msPerDay + time)
  else
    none

@[simp]
theorem takeUnit_cons (unit : UInt16) (rest : JsString) :
    takeUnit unit (unit :: rest) = some rest := by
  simp [takeUnit]

theorem takeDigits_digits {width number : ℕ} (fits : number < 10 ^ width) (rest : JsString) :
    takeDigits width (digits width number ++ rest) = some (number, rest) := by
  have front : (digits width number ++ rest).take width = digits width number := by
    rw [List.take_append_of_le_length (by simp), List.take_of_length_le (by simp)]
  have back : (digits width number ++ rest).drop width = rest := by
    rw [List.drop_append_of_le_length (by simp), List.drop_of_length_le (by simp), List.nil_append]
  have decimal : (digits width number).all isDigit = true :=
    List.all_eq_true.mpr fun _ unitMem => isDigit_of_mem_digits unitMem
  simp only [takeDigits, front, back, length_digits, decimal, and_self, if_true,
    numeral_digits fits]

theorem digits_append_ne_cons {width number : ℕ} {rest text : JsString} {unit : UInt16}
    (sign : isDigit unit = false) : digits (width + 1) number ++ rest ≠ unit :: text := by
  intro same
  cases written : digits (width + 1) number with
  | nil => simpa [written] using length_digits (width + 1) number
  | cons first others =>
    have decimal : isDigit first = true :=
      isDigit_of_mem_digits (by rw [written]; exact List.mem_cons_self)
    rw [written, List.cons_append, List.cons.injEq] at same
    rw [same.1, sign] at decimal
    contradiction

theorem takeYear_yearText {year : ℤ} (fits : year.natAbs < 10 ^ 6) (rest : JsString) :
    takeYear (CalendarDate.yearText year ++ rest) = some (year, rest) := by
  by_cases short : 0 ≤ year ∧ year ≤ 9999
  · have four : year.toNat < 10 ^ 4 := by omega
    rw [CalendarDate.yearText, if_pos short, takeYear.eq_3, takeDigits_digits four]
    · simp [Int.toNat_of_nonneg short.1]
    · intro text
      exact digits_append_ne_cons (by decide)
    · intro text
      exact digits_append_ne_cons (by decide)
  · rw [CalendarDate.yearText, if_neg short]
    by_cases negative : year < 0
    · have nonzero : year.natAbs ≠ 0 := by omega
      simp only [if_pos negative, List.cons_append, takeYear, takeDigits_digits fits,
        Option.bind_eq_bind, Option.bind_some, if_neg nonzero]
      congr
      omega
    · simp only [if_neg negative, List.cons_append, takeYear, takeDigits_digits fits,
        Option.map_some]
      congr
      omega

theorem yearFromDay_fits {day : ℤ} (lower : -100000000 ≤ day) (upper : day ≤ 100000000) :
    (yearFromDay day).natAbs < 10 ^ 6 := by
  have bounds := yearFromDay_bounds day
  simp only [dayFromYear] at bounds
  omega

theorem takeDay_text {day : CalendarDate} (yearFits : day.year.natAbs < 10 ^ 6)
    (monthFits : day.month < 10 ^ 2) (dateFits : day.date < 10 ^ 2) (rest : JsString) :
    takeDay (day.text ++ rest) = some (day, rest) := by
  simp only [takeDay, CalendarDate.text, List.append_assoc, List.cons_append, List.nil_append,
    takeYear_yearText yearFits, Option.bind_eq_bind, Option.bind_some, takeUnit_cons,
    takeDigits_digits monthFits, takeDigits_digits dateFits]

theorem timeOfDay_timeText {time : ℕ} (inDay : time < 86400000) :
    timeOfDay (timeText time) = some time := by
  have hourRead := fun rest => @takeDigits_digits 2 (time / 3600000) (by omega) rest
  have minuteRead := fun rest => @takeDigits_digits 2 (time / 60000 % 60) (by omega) rest
  have secondRead := fun rest => @takeDigits_digits 2 (time / 1000 % 60) (by omega) rest
  have millisecondRead := fun rest => @takeDigits_digits 3 (time % 1000) (by omega) rest
  simp only [timeOfDay, timeText, List.append_assoc, List.cons_append, List.nil_append, hourRead,
    minuteRead, secondRead, millisecondRead, Option.bind_eq_bind, Option.bind_some, takeUnit_cons]
  rw [if_pos ⟨trivial, by omega, by omega, Or.inl (by omega)⟩]
  congr
  omega

theorem parse_text {day : CalendarDate} {time : ℕ} (yearFits : day.year.natAbs < 10 ^ 6)
    (monthFits : day.month < 10 ^ 2) (dateFits : day.date < 10 ^ 2) (inDay : time < 86400000) :
    parse (day.text ++ [84] ++ timeText time) =
      if 1 ≤ day.month ∧ day.month ≤ 12 ∧ 1 ≤ day.date ∧ day.date ≤ 31 then
        timeClip (day.makeDay * msPerDay + time)
      else
        none := by
  simp only [parse, List.append_assoc, takeDay_text yearFits monthFits dateFits,
    List.cons_append, List.nil_append, Option.bind_eq_bind, Option.bind_some, takeUnit_cons,
    timeOfDay_timeText inDay]

theorem parse_toISOString (instant : Instant) : parse instant.toISOString = some instant := by
  rcases instant with ⟨time, lower, upper⟩
  have days : -100000000 ≤ time / msPerDay ∧ time / msPerDay ≤ 100000000 := by
    simp only [maxTime, msPerDay] at *
    omega
  have yearFits : (CalendarDate.ofDay (time / msPerDay)).year.natAbs < 10 ^ 6 :=
    yearFromDay_fits days.1 days.2
  rcases CalendarDate.ofDay_exists (time / msPerDay) with ⟨january, december, first, last⟩
  have lastOfMonth := (daysInMonth_bounds (CalendarDate.ofDay (time / msPerDay)).year
    (CalendarDate.ofDay (time / msPerDay)).month).2
  have inDay : (time % msPerDay).toNat < 86400000 := by
    simp only [msPerDay]
    omega
  have sum : time / msPerDay * msPerDay + ((time % msPerDay).toNat : ℤ) = time := by
    simp only [msPerDay]
    omega
  simp only [Instant.toISOString]
  rw [parse_text yearFits (by omega) (by omega) inDay,
    if_pos ⟨january, december, first, by omega⟩, CalendarDate.makeDay_ofDay, sum, timeClip,
    dif_pos ⟨lower, upper⟩]

end Date

namespace CalendarDate

def FourDigits (day : CalendarDate) : Prop :=
  0 ≤ day.year ∧ day.year ≤ 9999 ∧ day.month < 10 ^ 2 ∧ day.date < 10 ^ 2

theorem FourDigits.text_eq {day : CalendarDate} (four : day.FourDigits) :
    day.text = digits 4 day.year.toNat ++ [45] ++ digits 2 day.month ++ [45] ++
      digits 2 day.date := by
  rw [text, yearText, if_pos ⟨four.1, four.2.1⟩]

theorem FourDigits.length_text {day : CalendarDate} (four : day.FourDigits) :
    day.text.length = 10 := by
  simp [four.text_eq]

theorem FourDigits.text_injective {left right : CalendarDate} (leftFour : left.FourDigits)
    (rightFour : right.FourDigits) (same : left.text = right.text) : left = right := by
  rcases leftFour with ⟨leftLower, leftUpper, leftMonth, leftDate⟩
  rcases rightFour with ⟨rightLower, rightUpper, rightMonth, rightDate⟩
  have leftRead := @Date.takeDay_text left (by omega) leftMonth leftDate []
  have rightRead := @Date.takeDay_text right (by omega) rightMonth rightDate []
  rw [same, rightRead] at leftRead
  simpa using leftRead.symm

theorem FourDigits.text_lt {left right : CalendarDate} (leftFour : left.FourDigits)
    (rightFour : right.FourDigits) (before : left.Before right) : left.text < right.text := by
  rw [leftFour.text_eq, rightFour.text_eq]
  rcases leftFour with ⟨leftLower, -, -, -⟩
  rcases rightFour with ⟨rightLower, rightUpper, rightMonth, rightDate⟩
  simp only [List.append_assoc]
  rcases before with earlierYear | ⟨sameYear, earlierMonth | ⟨sameMonth, earlierDate⟩⟩
  · apply append_lt_append (by simp)
    exact digits_lt_digits (by omega) (by omega)
  · rw [sameYear]
    apply append_lt_append_left
    apply append_lt_append_left
    apply append_lt_append (by simp)
    exact digits_lt_digits earlierMonth rightMonth
  · rw [sameYear, sameMonth]
    apply append_lt_append_left
    apply append_lt_append_left
    apply append_lt_append_left
    apply append_lt_append_left
    exact digits_lt_digits earlierDate rightDate

theorem Exists.fourDigits {day : CalendarDate} (exist : day.Exists) (lower : 0 ≤ day.year)
    (upper : day.year ≤ 9999) : day.FourDigits := by
  rcases exist with ⟨-, december, -, last⟩
  have lastOfMonth := (daysInMonth_bounds day.year day.month).2
  refine ⟨lower, upper, ?_, ?_⟩ <;> omega

theorem text_lt_text_iff {left right : CalendarDate} (leftExists : left.Exists)
    (rightExists : right.Exists) (leftFour : left.FourDigits) (rightFour : right.FourDigits) :
    left.text < right.text ↔ left.makeDay < right.makeDay := by
  rcases before_trichotomy left right with before | rfl | after
  · have texts := leftFour.text_lt rightFour before
    have days := makeDay_lt leftExists rightExists before
    exact iff_of_true texts days
  · exact iff_of_false (List.lt_irrefl _) (lt_irrefl _)
  · have texts := rightFour.text_lt leftFour after
    have days := makeDay_lt rightExists leftExists after
    exact iff_of_false (List.lt_asymm texts) days.not_gt

end CalendarDate

theorem Instant.take_toISOString {instant : Instant} {day : CalendarDate}
    (onDay : CalendarDate.ofDay (instant.time / msPerDay) = day) (four : day.FourDigits) :
    instant.toISOString.take 10 = day.text := by
  rw [toISOString, onDay, List.append_assoc, List.take_append_of_le_length]
  · rw [List.take_of_length_le four.length_text.le]
  · exact four.length_text.ge

end Ecma
