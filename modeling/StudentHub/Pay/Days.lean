import StudentHub.Ecma.Arrays
import StudentHub.Pay.Contract
import Mathlib.Order.CompletePartialOrder
import Mathlib.Order.Interval.Set.Basic

/-!
# The days of a contract

The texts that `date` accepts are the days of the years 1 to 9999, and they compare
as those days. A contract with such dates lasts for a period of days, and `overlaps`
holds of two contracts when their periods meet.
-/

/-!
## Periods

A period of a linear order has a first element and may have a last one; it is never
empty. Two periods meet exactly when neither ends before the other starts, and a
family of periods is apart when no two of its members meet.
-/

/-- The elements from `first` on, up to `last` when there is one. -/
@[ext]
structure Period (Day : Type*) [LinearOrder Day] where
  first : Day
  last : Option Day
  ordered : ∀ final ∈ last, first ≤ final

namespace Period

variable {Day : Type*} [LinearOrder Day]

def days (period : Period Day) : Set Day :=
  {day | period.first ≤ day ∧ ∀ final ∈ period.last, day ≤ final}

theorem first_mem_days (period : Period Day) : period.first ∈ period.days :=
  ⟨le_rfl, period.ordered⟩

theorem not_disjoint_iff {left right : Period Day} :
    ¬Disjoint left.days right.days ↔
      (∀ final ∈ left.last, right.first ≤ final) ∧ ∀ final ∈ right.last, left.first ≤ final := by
  rw [Set.not_disjoint_iff]
  refine ⟨?_, ?_⟩
  · rintro ⟨day, ⟨leftStarts, leftEnds⟩, rightStarts, rightEnds⟩
    refine ⟨?_, ?_⟩
    · intro final finalMem
      exact rightStarts.trans (leftEnds final finalMem)
    · intro final finalMem
      exact leftStarts.trans (rightEnds final finalMem)
  · rintro ⟨rightInside, leftInside⟩
    -- The later of the two starts lies in both.
    rcases le_total left.first right.first with leftEarlier | rightEarlier
    · exact ⟨right.first, ⟨leftEarlier, rightInside⟩, right.first_mem_days⟩
    · exact ⟨left.first, left.first_mem_days, rightEarlier, leftInside⟩

end Period

namespace StudentHub.Pay

open Ecma Calendar JsString

/-- The number of the day a text `YYYY-MM-DD` writes, when the calendar has that day. -/
def dayNumber? (text : JsString) : Option ℤ :=
  match Date.takeDay text with
  | some (day, _) =>
      if day.Exists ∧ 1 ≤ day.year ∧ day.year ≤ 9999 ∧ day.text = text then
        some day.makeDay
      else
        none
  | none => none

theorem dayNumber?_eq_some_iff {text : JsString} {number : ℤ} :
    dayNumber? text = some number ↔ ∃ day : CalendarDate, day.Exists ∧ 1 ≤ day.year ∧
      day.year ≤ 9999 ∧ day.text = text ∧ day.makeDay = number := by
  refine ⟨?_, ?_⟩
  · intro found
    simp only [dayNumber?] at found
    split at found
    · rename_i day _ _
      split_ifs at found with isDay
      rcases isDay with ⟨exist, lower, upper, written⟩
      exact ⟨day, exist, lower, upper, written, Option.some.inj found⟩
    · contradiction
  · rintro ⟨day, exist, lower, upper, rfl, rfl⟩
    have four := exist.fourDigits (by omega) upper
    have read := @Date.takeDay_text day (by omega) four.2.2.1 four.2.2.2 []
    rw [List.append_nil] at read
    simp only [dayNumber?, read]
    rw [if_pos ⟨exist, lower, upper, trivial⟩]

theorem lt_iff_dayNumber?_lt {left right : JsString} {leftNumber rightNumber : ℤ}
    (leftDay : dayNumber? left = some leftNumber) (rightDay : dayNumber? right = some rightNumber) :
    left < right ↔ leftNumber < rightNumber := by
  rcases dayNumber?_eq_some_iff.mp leftDay with
    ⟨leftDate, leftExists, leftLower, leftUpper, rfl, rfl⟩
  rcases dayNumber?_eq_some_iff.mp rightDay with
    ⟨rightDate, rightExists, rightLower, rightUpper, rfl, rfl⟩
  exact CalendarDate.text_lt_text_iff leftExists rightExists
    (leftExists.fourDigits (by omega) leftUpper) (rightExists.fourDigits (by omega) rightUpper)

theorem matches_dash {text : JsString} :
    matchesClasses [fun unit : UInt16 => decide (unit = 45)] text = true ↔ text = [45] := by
  cases text with
  | nil => simp [matchesClasses]
  | cons unit rest => cases rest <;> simp [matchesClasses]

theorem isDatePattern_iff {text : JsString} :
    isDatePattern text = true ↔ ∃ day : CalendarDate, day.FourDigits ∧ day.text = text := by
  refine ⟨?_, ?_⟩
  · intro fits
    have classes : isDatePattern text = matchesClasses (List.replicate 4 isDigit ++
        [fun unit : UInt16 => decide (unit = 45)] ++ List.replicate 2 isDigit ++
        [fun unit : UInt16 => decide (unit = 45)] ++ List.replicate 2 isDigit) text := rfl
    simp only [classes, matchesClasses_append, matchesClasses_replicate, matches_dash] at fits
    rcases fits with ⟨_, date, rfl, ⟨_, _, rfl, ⟨_, month, rfl, ⟨year, _, rfl,
      ⟨yearLength, yearDigits⟩, rfl⟩, monthLength, monthDigits⟩, rfl⟩, dateLength, dateDigits⟩
    have yearFits := numeral_lt yearDigits
    have monthFits := numeral_lt monthDigits
    have dateFits := numeral_lt dateDigits
    rw [yearLength] at yearFits
    rw [monthLength] at monthFits
    rw [dateLength] at dateFits
    have four : (CalendarDate.mk (numeral year) (numeral month) (numeral date)).FourDigits :=
      ⟨Int.natCast_nonneg _, by change (numeral year : ℤ) ≤ 9999; omega, monthFits, dateFits⟩
    refine ⟨⟨numeral year, numeral month, numeral date⟩, four, ?_⟩
    rw [four.text_eq]
    simp only [Int.toNat_natCast]
    rw [← yearLength, digits_numeral yearDigits]
    nth_rewrite 1 [← monthLength]
    rw [digits_numeral monthDigits, ← dateLength, digits_numeral dateDigits]
  · rintro ⟨day, four, rfl⟩
    have classes : isDatePattern day.text = matchesClasses (List.replicate 4 isDigit ++
        [fun unit : UInt16 => decide (unit = 45)] ++ List.replicate 2 isDigit ++
        [fun unit : UInt16 => decide (unit = 45)] ++ List.replicate 2 isDigit) day.text := rfl
    have written : ∀ width number, matchesClasses (List.replicate width isDigit)
        (digits width number) = true := by
      intro width number
      rw [matchesClasses_replicate]
      exact ⟨length_digits width number, fun _ unitMem => isDigit_of_mem_digits unitMem⟩
    rw [classes, four.text_eq]
    simp only [matchesClasses_append, matches_dash]
    exact ⟨_, _, rfl, ⟨_, _, rfl, ⟨_, _, rfl, ⟨_, _, rfl, written _ _, rfl⟩, written _ _⟩, rfl⟩,
      written _ _⟩

theorem parse_midnight {day : CalendarDate} (four : day.FourDigits) :
    Date.parse (day.text ++ js "T00:00:00.000Z") =
      if 1 ≤ day.month ∧ day.month ≤ 12 ∧ 1 ≤ day.date ∧ day.date ≤ 31 then
        timeClip (day.makeDay * msPerDay)
      else
        none := by
  rcases four with ⟨lower, upper, monthFits, dateFits⟩
  have midnight : js "T00:00:00.000Z" = [84] ++ timeText 0 := by decide
  rw [midnight, ← List.append_assoc,
    Date.parse_text (by omega) monthFits dateFits (by decide)]
  simp

theorem fourDigits_of_take_text {number : ℤ} {day : CalendarDate} {rest : JsString}
    (four : day.FourDigits) (same : ((CalendarDate.ofDay number).text ++ rest).take 10 = day.text) :
    (CalendarDate.ofDay number).FourDigits := by
  by_cases short : 0 ≤ (CalendarDate.ofDay number).year ∧ (CalendarDate.ofDay number).year ≤ 9999
  · exact (CalendarDate.ofDay_exists number).fourDigits short.1 short.2
  · rw [four.text_eq, CalendarDate.text, CalendarDate.yearText, if_neg short] at same
    simp only [List.append_assoc, List.cons_append, List.take_succ_cons] at same
    split at same
    · exact absurd same.symm (Date.digits_append_ne_cons (by decide))
    · exact absurd same.symm (Date.digits_append_ne_cons (by decide))

theorem timeClip_makeDay {day : CalendarDate} (exist : day.Exists) (lower : 1 ≤ day.year)
    (upper : day.year ≤ 9999) :
    ∃ instant : Instant, timeClip (day.makeDay * msPerDay) = some instant ∧
      CalendarDate.ofDay (instant.time / msPerDay) = day := by
  rcases exist.inYear with ⟨starts, ends⟩
  have early : dayFromYear 1 ≤ dayFromYear day.year := dayFromYear_strictMono.monotone lower
  have late : dayFromYear day.year ≤ dayFromYear 9999 := dayFromYear_strictMono.monotone upper
  have first : dayFromYear 1 = -719162 := by decide
  have last : dayFromYear 9999 = 2932532 := by decide
  have length : daysInYear day.year ≤ 366 := by
    rw [daysInYear]
    split <;> omega
  have inRange : -maxTime ≤ day.makeDay * msPerDay ∧ day.makeDay * msPerDay ≤ maxTime := by
    simp only [maxTime, msPerDay, CalendarDate.makeDay]
    omega
  refine ⟨⟨day.makeDay * msPerDay, inRange⟩, by rw [timeClip, dif_pos inRange], ?_⟩
  rw [Int.mul_ediv_cancel _ (by decide), CalendarDate.ofDay_makeDay exist]

theorem time_of_timeClip {time : ℤ} {instant : Instant} (clipped : timeClip time = some instant) :
    instant.time = time := by
  rw [timeClip] at clipped
  split_ifs at clipped
  rw [← Option.some.inj clipped]

theorem zeroYear_isPrefixOf_iff {day : CalendarDate} (four : day.FourDigits) :
    (js "0000").isPrefixOf day.text = true ↔ day.year = 0 := by
  have zero : js "0000" = digits 4 0 := by decide
  rw [four.text_eq, zero, List.isPrefixOf_iff_prefix]
  simp only [List.append_assoc]
  refine ⟨?_, ?_⟩
  · rintro ⟨rest, same⟩
    have years := List.append_inj_left same (by simp)
    have value := congrArg numeral years
    rw [numeral_digits (by decide), numeral_digits (by have := four.2.1; omega)] at value
    have := four.1
    omega
  · intro zeroYear
    rw [zeroYear]
    exact List.prefix_append _ _

theorem isDate_iff {text : JsString} :
    isDate text = true ↔ ∃ number, dayNumber? text = some number := by
  simp only [isDate, Bool.and_eq_true, isDatePattern_iff, dayNumber?_eq_some_iff]
  refine ⟨?_, ?_⟩
  · rintro ⟨⟨day, four, rfl⟩, parsed⟩
    rw [parse_midnight four] at parsed
    split_ifs at parsed with inRange
    cases clipped : timeClip (day.makeDay * msPerDay) with
    | none => simp [clipped] at parsed
    | some instant =>
      simp only [clipped, Bool.and_eq_true, decide_eq_true_eq, Bool.not_eq_true'] at parsed
      rcases parsed with ⟨same, notZero⟩
      have onDay : instant.time / msPerDay = day.makeDay := by
        rw [time_of_timeClip clipped, Int.mul_ediv_cancel _ (by decide)]
      have parsedFour : (CalendarDate.ofDay day.makeDay).FourDigits := by
        apply fourDigits_of_take_text four
        rwa [Instant.toISOString, onDay, List.append_assoc] at same
      have sameDay : CalendarDate.ofDay day.makeDay = day := by
        apply parsedFour.text_injective four
        rw [← Instant.take_toISOString (by rw [onDay]) parsedFour, same]
      have exist : day.Exists := sameDay ▸ CalendarDate.ofDay_exists day.makeDay
      have nonzero : day.year ≠ 0 := by
        intro zeroYear
        rw [(zeroYear_isPrefixOf_iff four).mpr zeroYear] at notZero
        contradiction
      have lower := four.1
      exact ⟨day.makeDay, day, exist, by omega, four.2.1, rfl, rfl⟩
  · rintro ⟨_, day, exist, lower, upper, rfl, -⟩
    have four := exist.fourDigits (by omega) upper
    rcases timeClip_makeDay exist lower upper with ⟨instant, clipped, onDay⟩
    have lastOfMonth := (daysInMonth_bounds day.year day.month).2
    rcases exist with ⟨january, december, first, last⟩
    have notZero : (js "0000").isPrefixOf day.text = false := by
      rw [Bool.eq_false_iff, Ne, zeroYear_isPrefixOf_iff four]
      omega
    refine ⟨⟨day, four, rfl⟩, ?_⟩
    rw [parse_midnight four, if_pos ⟨january, december, first, by omega⟩, clipped]
    simp only [Instant.take_toISOString onDay four, notZero, decide_true, Bool.not_false,
      Bool.and_self]

def Dates.period? (dates : Dates) : Option (Period ℤ) := do
  let first ← dayNumber? dates.startDate
  match dates.endDate with
  | none => return ⟨first, none, by simp⟩
  | some endDate =>
      let last ← dayNumber? endDate
      if ordered : first ≤ last then
        return ⟨first, some last, by simpa using ordered⟩
      else
        none

theorem Dates.period?_eq_some {dates : Dates} {period : Period ℤ}
    (found : dates.period? = some period) :
    dayNumber? dates.startDate = some period.first ∧
      dates.endDate.map dayNumber? = period.last.map some := by
  rcases dates with ⟨startDate, endDate⟩
  cases startDay : dayNumber? startDate with
  | none => simp [Dates.period?, startDay] at found
  | some first =>
    cases endDate with
    | none =>
      simp only [Dates.period?, startDay, Option.bind_eq_bind, Option.bind_some,
        Option.pure_def, Option.some.injEq] at found
      rw [← found]
      exact ⟨rfl, rfl⟩
    | some endDate =>
      cases endDay : dayNumber? endDate with
      | none => simp [Dates.period?, startDay, endDay] at found
      | some last =>
        simp only [Dates.period?, startDay, endDay, Option.bind_eq_bind, Option.bind_some,
          Option.pure_def] at found
        split_ifs at found with ordered
        rw [← Option.some.inj found]
        exact ⟨rfl, congrArg some endDay⟩

theorem Dates.period?_of_valid {dates : Dates} (startValid : isDate dates.startDate = true)
    (endValid : ∀ endDate ∈ dates.endDate, isDate endDate = true ∧ ¬endDate < dates.startDate) :
    ∃ period, dates.period? = some period := by
  rcases dates with ⟨startDate, endDate⟩
  rcases isDate_iff.mp startValid with ⟨first, startDay⟩
  cases endDate with
  | none =>
    refine ⟨⟨first, none, by simp⟩, ?_⟩
    simp only [Dates.period?, startDay, Option.bind_eq_bind, Option.bind_some, Option.pure_def]
  | some endDate =>
    rcases endValid endDate rfl with ⟨valid, inOrder⟩
    rcases isDate_iff.mp valid with ⟨last, endDay⟩
    have ordered : first ≤ last := not_lt.mp ((lt_iff_dayNumber?_lt endDay startDay).not.mp inOrder)
    refine ⟨⟨first, some last, by simpa using ordered⟩, ?_⟩
    simp only [Dates.period?, startDay, endDay, Option.bind_eq_bind, Option.bind_some,
      dif_pos ordered, Option.pure_def]

theorem notBefore_iff {endDate : Option JsString} {startDate : JsString} {last : Option ℤ}
    {first : ℤ} (endDay : endDate.map dayNumber? = last.map some)
    (startDay : dayNumber? startDate = some first) :
    notBefore endDate startDate = true ↔ ∀ final ∈ last, first ≤ final := by
  cases endDate with
  | none =>
    cases last with
    | none => simp [notBefore]
    | some last => simp at endDay
  | some endDate =>
    cases last with
    | none => simp at endDay
    | some last =>
      have inOrder := (lt_iff_dayNumber?_lt (Option.some.inj endDay) startDay).not
      rw [not_lt, List.not_lt] at inOrder
      simpa [notBefore] using inOrder

theorem overlaps_iff {a b : Dates} {aPeriod bPeriod : Period ℤ} (aLasts : a.period? = some aPeriod)
    (bLasts : b.period? = some bPeriod) :
    overlaps a b = true ↔ ¬Disjoint aPeriod.days bPeriod.days := by
  rcases Dates.period?_eq_some aLasts with ⟨aStart, aEnd⟩
  rcases Dates.period?_eq_some bLasts with ⟨bStart, bEnd⟩
  rw [overlaps, Bool.and_eq_true, notBefore_iff aEnd bStart, notBefore_iff bEnd aStart,
    Period.not_disjoint_iff]

theorem overlaps_comm (a b : Dates) : overlaps a b = overlaps b a :=
  Bool.and_comm _ _

theorem date_eq_ok {value : JsValue} {code text : JsString} (accepted : date value code = .ok text) :
    isDate text = true := by
  simp only [date] at accepted
  split at accepted
  · split_ifs at accepted with valid
    · rwa [← Except.ok.inj accepted]
    · contradiction
  · contradiction

theorem normalizeEndDate_eq_ok {value : JsValue} {startDate : JsString}
    {endDate : Option JsString} (accepted : normalizeEndDate value startDate = .ok endDate) :
    ∀ final ∈ endDate, isDate final = true ∧ ¬final < startDate := by
  simp only [normalizeEndDate] at accepted
  split at accepted
  · simp [← Except.ok.inj accepted]
  · simp [← Except.ok.inj accepted]
  · simp [← Except.ok.inj accepted]
  · rcases bind_eq_ok_iff.mp accepted with ⟨text, dated, checked⟩
    split_ifs at checked with early
    · contradiction
    · rw [← Except.ok.inj checked]
      simpa using ⟨date_eq_ok dated, early⟩

theorem normalizeEditable_period {raw : JsValue} {fields : NormalizedPayContractUpdate}
    (accepted : normalizeEditable raw = .ok fields) :
    ∃ period, fields.dates.period? = some period := by
  simp only [normalizeEditable, bind_eq_ok_iff] at accepted
  rcases accepted with ⟨startDate, startAccepted, endDate, endAccepted, currencyId, -,
    transferCost, -, terms, -, autoGenerate, -, status, -, built⟩
  rw [← Except.ok.inj built]
  exact Dates.period?_of_valid (date_eq_ok startAccepted) (normalizeEndDate_eq_ok endAccepted)

theorem normalizePayContractUpdate_period {input : JsValue} {fields : NormalizedPayContractUpdate}
    (accepted : normalizePayContractUpdate input = .ok fields) :
    ∃ period, fields.dates.period? = some period := by
  rcases bind_eq_ok_iff.mp accepted with ⟨raw, -, editable⟩
  exact normalizeEditable_period editable

theorem normalizePayContractCreate_period {input : JsValue} {fields : NormalizedPayContractCreate}
    (accepted : normalizePayContractCreate input = .ok fields) :
    ∃ period, fields.dates.period? = some period := by
  simp only [normalizePayContractCreate, bind_eq_ok_iff] at accepted
  rcases accepted with ⟨raw, -, candidateId, -, companyId, -, storeId, -, editable, edited, built⟩
  rw [← Except.ok.inj built]
  exact normalizeEditable_period edited

end StudentHub.Pay
