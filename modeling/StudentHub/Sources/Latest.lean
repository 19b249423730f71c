import StudentHub.Ecma.IsoOrder
import StudentHub.Sources.Normalize

/-!
# The latest observation

Of the valid records of one triple the one whose text of the instant is greatest is kept. Texts
and instants order them alike unless an offset takes some of them, and not all, into the year
10000, whose texts begin with a plus and come before all others.
-/

namespace StudentHub.Sources

open Ecma JsString Json

/-- The groups of `INSTANT_PATTERN` and what comes after the seconds. -/
def instantParts (value : JsString) : Option (InstantGroups × JsString) := do
  let (year, rest) ← Date.takeDigits 4 value
  let rest ← Date.takeUnit 45 rest
  let (month, rest) ← Date.takeDigits 2 rest
  let rest ← Date.takeUnit 45 rest
  let (day, rest) ← Date.takeDigits 2 rest
  let rest ← Date.takeUnit 84 rest
  let (hour, rest) ← Date.takeDigits 2 rest
  let rest ← Date.takeUnit 58 rest
  let (minute, rest) ← Date.takeDigits 2 rest
  let rest ← Date.takeUnit 58 rest
  let (second, rest) ← Date.takeDigits 2 rest
  some (⟨year, month, day, hour, minute, second⟩, rest)

def fractionMs : JsString → ℕ × JsString
  | 46 :: rest =>
      (numeral (rest.takeWhile isDigit) * 10 ^ (3 - (rest.takeWhile isDigit).length),
        rest.dropWhile isDigit)
  | rest => (0, rest)

def offsetMs (offset : JsString) : ℤ :=
  let minutes (rest : JsString) : ℤ := numeral (rest.take 2) * 60 + numeral (rest.drop 3)
  match offset with
  | 43 :: rest => minutes rest * 60000
  | 45 :: rest => -minutes rest * 60000
  | _ => 0

def InstantGroups.localMs (groups : InstantGroups) : ℤ :=
  (⟨groups.year, groups.month, groups.day⟩ : CalendarDate).makeDay * msPerDay +
    (groups.hour * 3600000 + groups.minute * 60000 + groups.second * 1000 : ℕ)

def denoted (value : JsString) : Option ℤ :=
  (instantParts value).map fun (groups, rest) =>
    groups.localMs + (fractionMs rest).1 - offsetMs (fractionMs rest).2

/-- `Date.parse` reads the texts that it is given as the instants they denote. -/
def ReadsIso (host : SourceHost) : Prop :=
  ∀ value written instant, toUtcInstant host value = some written →
    host.dates.parse value = some instant → denoted value = some instant.time

theorem instantPattern_eq (value : JsString) : instantPattern value =
    (instantParts value).bind fun parts => if isFractionAndOffset parts.2 then some parts.1 else none := by
  simp [instantPattern, instantParts, Option.bind_assoc]

theorem lt_of_takeDigits {width number : ℕ} {value rest : JsString}
    (taken : Date.takeDigits width value = some (number, rest)) : number < 10 ^ width := by
  rw [Date.takeDigits] at taken
  split at taken
  · rename_i digits
    cases taken
    have bound := numeral_lt (List.all_eq_true.mp digits.2)
    rwa [digits.1] at bound
  · cases taken

theorem year_of_instantParts {value rest : JsString} {groups : InstantGroups}
    (parts : instantParts value = some (groups, rest)) : groups.year < 10 ^ 4 := by
  rw [instantParts] at parts
  rcases Option.bind_eq_some_iff.mp parts with ⟨⟨year, rest⟩, taken, parts⟩
  have bound := lt_of_takeDigits taken
  simp only [Option.bind_eq_bind, Option.bind_eq_some_iff, Option.some.injEq, Prod.mk.injEq] at parts
  rcases parts with ⟨_, -, _, -, _, -, _, -, _, -, _, -, _, -, _, -, _, -, _, -, rfl, -⟩
  exact bound

theorem minutes_lt {hour tens colon minute last : UInt16}
    (decimals : ∀ digit ∈ [hour, tens, minute, last], isDigit digit = true) :
    numeral ([hour, tens, colon, minute, last].take 2) < 100 ∧
      numeral ([hour, tens, colon, minute, last].drop 3) < 100 := by
  simp only [List.forall_mem_cons] at decimals
  refine ⟨?_, ?_⟩
  · exact @numeral_lt [hour, tens] (by simp [decimals])
  · exact @numeral_lt [minute, last] (by simp [decimals])

theorem offsetMs_bounds {offset : JsString} (isOffset : isOffset offset = true) :
    -362340000 ≤ offsetMs offset ∧ offsetMs offset ≤ 362340000 := by
  rw [Sources.isOffset, Bool.or_eq_true] at isOffset
  rcases isOffset with utc | zoned
  · rw [of_decide_eq_true utc]
    decide
  · have width := length_of_matchesClasses zoned
    rcases offset with _ | ⟨sign, _ | ⟨hour, _ | ⟨tens, _ | ⟨colon, _ | ⟨minute, _ | ⟨last, _ | _⟩⟩⟩⟩⟩⟩
    case cons.cons.cons.cons.cons.cons.nil =>
      simp only [matchesClasses, Bool.and_eq_true, Bool.or_eq_true, decide_eq_true_eq,
        Bool.and_true] at zoned
      rcases zoned with ⟨isSign, isHour, isTens, -, isMinute, isLast⟩
      have bounds := @minutes_lt hour tens colon minute last
        (by simp [isHour, isTens, isMinute, isLast])
      rcases isSign with rfl | rfl
      · simp only [offsetMs]
        omega
      · simp only [offsetMs]
        omega
    all_goals simp at width

theorem fractionMs_lt {rest : JsString} (accepted : isFractionAndOffset rest = true) :
    (fractionMs rest).1 < 1000 ∧ isOffset (fractionMs rest).2 = true := by
  unfold isFractionAndOffset at accepted
  split at accepted
  · rename_i after
    simp only [Bool.and_eq_true, decide_eq_true_eq] at accepted
    rcases accepted with ⟨⟨nonempty, short⟩, isOffset⟩
    refine ⟨?_, isOffset⟩
    have bound := @numeral_lt (after.takeWhile isDigit) fun unit unitMem =>
      List.mem_takeWhile_imp unitMem
    calc numeral (after.takeWhile isDigit) * 10 ^ (3 - (after.takeWhile isDigit).length)
        < 10 ^ (after.takeWhile isDigit).length * 10 ^ (3 - (after.takeWhile isDigit).length) :=
          Nat.mul_lt_mul_of_pos_right bound (by positivity)
      _ = 1000 := by
          rw [← pow_add, Nat.add_sub_cancel' short]
          rfl
  · rename_i noFraction
    rw [fractionMs.eq_2 rest noFraction]
    exact ⟨Nat.zero_lt_succ _, accepted⟩

theorem daysBeforeMonth_bounds (year : ℤ) {month : ℕ} (december : month ≤ 12) :
    0 ≤ Calendar.daysBeforeMonth year month ∧ Calendar.daysBeforeMonth year month ≤ 366 := by
  have mono := Calendar.daysBeforeMonth_mono year
  have lower : Calendar.daysBeforeMonth year 0 ≤ Calendar.daysBeforeMonth year month :=
    mono (Nat.zero_le _)
  have upper : Calendar.daysBeforeMonth year month ≤ Calendar.daysBeforeMonth year 13 :=
    mono (by omega)
  have days : Calendar.daysInYear year ≤ 366 := by
    rw [Calendar.daysInYear]
    split <;> omega
  rw [Calendar.daysBeforeMonth_thirteen] at upper
  exact ⟨lower, upper.trans days⟩

structure Checked (groups : InstantGroups) : Prop where
  year : groups.year < 10 ^ 4
  month : 1 ≤ groups.month ∧ groups.month ≤ 12
  day : 1 ≤ groups.day ∧ groups.day ≤ 31
  time : groups.hour ≤ 23 ∧ groups.minute ≤ 59 ∧ groups.second ≤ 59

theorem Checked.localMs_bounds {groups : InstantGroups} (checked : Checked groups) :
    Calendar.dayFromYear 0 * msPerDay ≤ groups.localMs ∧
      groups.localMs < (Calendar.dayFromYear 10000 + 32) * msPerDay := by
  have months := daysBeforeMonth_bounds groups.year checked.month.2
  have years : Calendar.dayFromYear 0 ≤ Calendar.dayFromYear groups.year ∧
      Calendar.dayFromYear groups.year ≤ Calendar.dayFromYear 9999 := by
    have year := checked.year
    exact ⟨Calendar.dayFromYear_strictMono.monotone (by omega),
      Calendar.dayFromYear_strictMono.monotone (by omega)⟩
  have first : Calendar.dayFromYear 9999 = 2932532 := by decide
  have second : Calendar.dayFromYear 10000 = 2932897 := by decide
  have day := checked.day
  have time := checked.time
  simp only [InstantGroups.localMs, CalendarDate.makeDay, msPerDay]
  omega

theorem parts_of_toUtcInstant {host : SourceHost} {value written : JsString}
    (accepted : toUtcInstant host value = some written) :
    ∃ groups rest instant, instantParts value = some (groups, rest) ∧ Checked groups ∧
      isFractionAndOffset rest = true ∧ host.dates.parse value = some instant ∧
        written = instant.toISOString := by
  rw [toUtcInstant, instantPattern_eq] at accepted
  cases parts : instantParts value with
  | none =>
      rw [parts] at accepted
      cases accepted
  | some found =>
      rcases found with ⟨groups, rest⟩
      rw [parts, Option.bind_some] at accepted
      by_cases fits : isFractionAndOffset rest = true
      · simp only [if_pos fits] at accepted
        split at accepted
        · cases accepted
        · rename_i month
          split at accepted
          · cases accepted
          · rename_i day
            split at accepted
            · cases accepted
            · rename_i time
              rcases Option.map_eq_some_iff.mp accepted with ⟨instant, parsed, rfl⟩
              refine ⟨groups, rest, instant, rfl, ⟨year_of_instantParts parts, by omega, ?_, by omega⟩,
                fits, parsed, rfl⟩
              have lastOfMonth := (Calendar.daysInMonth_bounds
                (if groups.year ≤ 99 then 1900 + groups.year else groups.year) groups.month).2
              rw [daysInMonth] at day
              omega
      · simp only [if_neg fits] at accepted
        cases accepted

def year10000 : ℤ := 253402300800000

theorem year10000_le_iff {instant : Instant} : year10000 ≤ instant.time ↔ 9999 < instant.year := by
  have days : Calendar.dayFromYear 10000 = 2932897 := by decide
  have started := @Calendar.le_yearFromDay_iff 10000 (instant.time / msPerDay)
  rw [days] at started
  show _ ↔ 10000 ≤ Calendar.yearFromDay (instant.time / msPerDay)
  rw [started, year10000, msPerDay]
  omega

section Observations

variable {host : SourceHost} {raw : RawSourceRecord} {value : NormalizedSourceConnection}

theorem toUtcInstant_of_normalizeOne (normalized : normalizeOne host raw = .ok value) :
    toUtcInstant host (text raw.observedAt) = some value.observedAt := by
  simp only [normalizeOne] at normalized
  split at normalized
  · cases normalized
  · split at normalized <;> first | cases normalized | skip
    split at normalized <;> first | cases normalized | skip
    split at normalized <;> first | cases normalized | skip
    split at normalized <;> first | cases normalized | skip
    split at normalized <;> first | cases normalized | skip
    split at normalized <;> first | cases normalized | skip
    split at normalized
    · cases normalized
    · cases normalized
      assumption

theorem exists_instant (reads : ReadsIso host) (normalized : normalizeOne host raw = .ok value) :
    ∃ instant : Instant, denoted (text raw.observedAt) = some instant.time ∧
      value.observedAt = instant.toISOString ∧ instant.NearFourDigits := by
  have accepted := toUtcInstant_of_normalizeOne normalized
  rcases parts_of_toUtcInstant accepted with ⟨groups, rest, instant, parts, checked, fits, parsed,
    written⟩
  have denotes := reads _ _ _ accepted parsed
  refine ⟨instant, denotes, written, ?_⟩
  rw [denoted, parts, Option.map_some, Option.some.injEq] at denotes
  have bounds := checked.localMs_bounds
  have fraction := fractionMs_lt fits
  have offset := offsetMs_bounds fraction.2
  have first : Calendar.dayFromYear (-1) = -719893 := by decide
  have zero : Calendar.dayFromYear 0 = -719528 := by decide
  have long : Calendar.dayFromYear 10000 = 2932897 := by decide
  have longer : Calendar.dayFromYear 10001 = 2933263 := by decide
  have lower := @Calendar.le_yearFromDay_iff (-1) (instant.time / msPerDay)
  have upper := @Calendar.le_yearFromDay_iff 10001 (instant.time / msPerDay)
  simp only [Instant.NearFourDigits, Instant.year, CalendarDate.ofDay]
  simp only [msPerDay, zero, long] at *
  omega

end Observations

/-- No valid record of the triple of the candidate denotes a later instant. -/
def Latest (host : SourceHost) (records : List RawSourceRecord)
    (candidate : NormalizedSourceConnection) : Prop :=
  ∀ raw ∈ records, ∀ value, normalizeOne host raw = .ok value →
    tripleKey value = tripleKey candidate →
      ∃ time kept, denoted (text raw.observedAt) = some time ∧
        Date.parse candidate.observedAt = some kept ∧ time ≤ kept.time

def InYear10000 (raw : RawSourceRecord) : Prop :=
  ∃ time, denoted (text raw.observedAt) = some time ∧ year10000 ≤ time

theorem supersedes_of_lt {value existing : NormalizedSourceConnection}
    (less : existing.observedAt < value.observedAt) : supersedes value existing = true := by
  have different : value.observedAt ≠ existing.observedAt := by
    intro same
    rw [same] at less
    exact List.lt_irrefl _ less
  rw [supersedes, if_pos different]
  exact decide_eq_true less

section Kept

variable {host : SourceHost} {records : List RawSourceRecord}

theorem inYear10000_iff {raw : RawSourceRecord} {instant : Instant}
    (denotes : denoted (text raw.observedAt) = some instant.time) :
    InYear10000 raw ↔ 9999 < instant.year := by
  rw [← year10000_le_iff, InYear10000, denotes]
  refine ⟨?_, fun late => ⟨_, rfl, late⟩⟩
  rintro ⟨time, same, late⟩
  cases same
  exact late

theorem inYear10000_of_latest (reads : ReadsIso host)
    (latest : ∀ candidate ∈ (normalizeSourceConnections host records).accepted,
      Latest host records candidate)
    {left right : RawSourceRecord} (leftMem : left ∈ records) (rightMem : right ∈ records)
    {leftValue rightValue : NormalizedSourceConnection}
    (leftValid : normalizeOne host left = .ok leftValue)
    (rightValid : normalizeOne host right = .ok rightValue)
    (sameTriple : tripleKey leftValue = tripleKey rightValue)
    (unchallenged : Unchallenged (valid host records) leftValue) (late : InYear10000 left) :
    InYear10000 right := by
  rcases exists_candidate (mem_valid.mpr ⟨left, leftMem, leftValid⟩) with
    ⟨candidate, candidateMem, candidateTriple⟩
  have free : Unchallenged (valid host records) candidate := by
    intro kind challenged
    exact unchallenged kind ((challenged_congr candidateTriple).mp challenged)
  have kept := latest candidate (mem_accepted.mpr ⟨candidateMem, free⟩) left leftMem leftValue
    leftValid candidateTriple.symm
  rcases mem_candidatesOf.mp candidateMem with ⟨inValid, top⟩
  rcases mem_valid.mp inValid with ⟨raw, -, rawValid⟩
  rcases exists_instant reads rawValid with ⟨instant, -, candidateText, -⟩
  rcases exists_instant reads leftValid with ⟨leftInstant, leftDenotes, -, -⟩
  rcases exists_instant reads rightValid with ⟨rightInstant, rightDenotes, rightText, -⟩
  rcases kept with ⟨time, keptInstant, denotes, parsed, notAfter⟩
  rw [candidateText, Date.parse_toISOString, Option.some.injEq] at parsed
  subst parsed
  rw [leftDenotes, Option.some.injEq] at denotes
  subst denotes
  rw [inYear10000_iff leftDenotes, ← year10000_le_iff] at late
  rw [inYear10000_iff rightDenotes]
  by_contra early
  have less := Instant.toISOString_lt_of_long (year10000_le_iff.mp (late.trans notAfter))
    (not_lt.mp early)
  rw [← candidateText, ← rightText] at less
  have never := top rightValue (mem_valid.mpr ⟨right, rightMem, rightValid⟩)
    (sameTriple.symm.trans candidateTriple.symm)
  rw [supersedes_of_lt less] at never
  cases never

/-- The latest observation of every triple is kept exactly when the records of a triple that is
not challenged are all of the year 10000 or none of them is. -/
theorem latest_iff (reads : ReadsIso host) (records : List RawSourceRecord) :
    (∀ candidate ∈ (normalizeSourceConnections host records).accepted,
      Latest host records candidate) ↔
    ∀ left ∈ records, ∀ right ∈ records, ∀ leftValue rightValue,
      normalizeOne host left = .ok leftValue → normalizeOne host right = .ok rightValue →
        tripleKey leftValue = tripleKey rightValue → Unchallenged (valid host records) leftValue →
          (InYear10000 left ↔ InYear10000 right) := by
  refine ⟨?_, ?_⟩
  · intro latest left leftMem right rightMem leftValue rightValue leftValid rightValid sameTriple
      unchallenged
    have rightFree : Unchallenged (valid host records) rightValue := by
      intro kind challenged
      exact unchallenged kind ((challenged_congr sameTriple).mpr challenged)
    exact ⟨inYear10000_of_latest reads latest leftMem rightMem leftValid rightValid sameTriple
        unchallenged,
      inYear10000_of_latest reads latest rightMem leftMem rightValid leftValid sameTriple.symm
        rightFree⟩
  · intro oneSide candidate accepted raw rawMem value rawValid sameTriple
    rcases mem_accepted.mp accepted with ⟨candidateMem, unchallenged⟩
    rcases mem_candidatesOf.mp candidateMem with ⟨inValid, top⟩
    rcases mem_valid.mp inValid with ⟨source, sourceMem, sourceValid⟩
    rcases exists_instant reads sourceValid with ⟨kept, keptDenotes, keptText, keptNear⟩
    rcases exists_instant reads rawValid with ⟨instant, denotes, text, near⟩
    refine ⟨_, kept, denotes, by rw [keptText, Date.parse_toISOString], ?_⟩
    have side := oneSide source sourceMem raw rawMem candidate value sourceValid rawValid
      sameTriple.symm unchallenged
    rw [inYear10000_iff keptDenotes, inYear10000_iff denotes] at side
    by_contra later
    have less := (Instant.toISOString_lt_iff keptNear near side).mpr (not_le.mp later)
    rw [← keptText, ← text] at less
    have never := top value (mem_valid.mpr ⟨raw, rawMem, rawValid⟩) sameTriple
    rw [supersedes_of_lt less] at never
    cases never

end Kept

theorem instantParts_text {day : CalendarDate} (four : day.FourDigits) {time : ℕ}
    (inDay : time < 86400000) : instantParts (day.text ++ [84] ++ timeText time) =
      some (⟨day.year.toNat, day.month, day.date, time / 3600000, time / 60000 % 60,
        time / 1000 % 60⟩, 46 :: (digits 3 (time % 1000) ++ [90])) := by
  have yearRead := fun rest => @Date.takeDigits_digits 4 day.year.toNat (by
    have bounds := four
    simp only [CalendarDate.FourDigits] at bounds
    omega) rest
  have monthRead := fun rest => @Date.takeDigits_digits 2 day.month four.2.2.1 rest
  have dateRead := fun rest => @Date.takeDigits_digits 2 day.date four.2.2.2 rest
  have hourRead := fun rest => @Date.takeDigits_digits 2 (time / 3600000) (by omega) rest
  have minuteRead := fun rest => @Date.takeDigits_digits 2 (time / 60000 % 60) (by omega) rest
  have secondRead := fun rest => @Date.takeDigits_digits 2 (time / 1000 % 60) (by omega) rest
  rw [four.text_eq]
  simp only [instantParts, timeText, List.append_assoc, List.cons_append, List.nil_append, yearRead,
    monthRead, dateRead, hourRead, minuteRead, secondRead, Option.bind_eq_bind, Option.bind_some,
    Date.takeUnit_cons]

theorem fractionMs_digits {milliseconds : ℕ} (small : milliseconds < 1000) :
    fractionMs (46 :: (digits 3 milliseconds ++ [90])) = (milliseconds, [90]) ∧
      isFractionAndOffset (46 :: (digits 3 milliseconds ++ [90])) = true := by
  have decimals : ∀ unit ∈ digits 3 milliseconds, isDigit unit = true :=
    fun _ => isDigit_of_mem_digits
  have front : (digits 3 milliseconds ++ [90]).takeWhile isDigit = digits 3 milliseconds := by
    rw [List.takeWhile_append_of_pos decimals]
    simp [isDigit]
  have back : (digits 3 milliseconds ++ [90]).dropWhile isDigit = [90] := by
    rw [List.dropWhile_append_of_pos decimals]
    rfl
  refine ⟨?_, ?_⟩
  · rw [fractionMs, front, back, numeral_digits small, length_digits]
    simp
  · simp only [isFractionAndOffset, front, back, length_digits]
    rfl

theorem denoted_toISOString {instant : Instant} (lower : 0 ≤ instant.year)
    (upper : instant.year ≤ 9999) : (instantPattern instant.toISOString).isSome = true ∧
      denoted instant.toISOString = some instant.time := by
  have inDay : (instant.time % msPerDay).toNat < 86400000 := by
    simp only [msPerDay]
    omega
  have number := CalendarDate.makeDay_ofDay (instant.time / msPerDay)
  have parts := instantParts_text
    ((CalendarDate.ofDay_exists (instant.time / msPerDay)).fourDigits lower upper) inDay
  have fraction := @fractionMs_digits ((instant.time % msPerDay).toNat % 1000) (by omega)
  have year : (((CalendarDate.ofDay (instant.time / msPerDay)).year.toNat : ℕ) : ℤ) =
      (CalendarDate.ofDay (instant.time / msPerDay)).year := Int.toNat_of_nonneg lower
  refine ⟨?_, ?_⟩
  · rw [instantPattern_eq, Instant.toISOString, parts, Option.bind_some, if_pos fraction.2]
    rfl
  · have utc : offsetMs [90] = 0 := rfl
    rw [denoted, Instant.toISOString, parts, Option.map_some, Option.some.injEq]
    simp only [fraction.1, utc, InstantGroups.localMs, year, number]
    simp only [msPerDay] at *
    omega

theorem instantPattern_of_long {instant : Instant} (long : instant.year < 0 ∨ 9999 < instant.year) :
    instantPattern instant.toISOString = none := by
  rcases Instant.exists_cons_toISOString instant with ⟨first, rest, text, plus, minus, -⟩
  have sign : isDigit first = false := by
    rcases long with negative | late
    · rw [minus negative]
      rfl
    · rw [plus late]
      rfl
  have noYear : Date.takeDigits 4 instant.toISOString = none := by
    rw [Date.takeDigits, text, if_neg]
    rintro ⟨-, decimals⟩
    simp [sign] at decimals
  simp [instantPattern, noYear]

/-- A parser that reads the pattern of the contract with its offset, and the ISO format. -/
def parseOffset (value : JsString) : Date :=
  if (instantPattern value).isSome then (denoted value).bind timeClip else Date.parse value

theorem parseOffset_toISOString (instant : Instant) :
    parseOffset instant.toISOString = some instant := by
  rw [parseOffset]
  by_cases four : 0 ≤ instant.year ∧ instant.year ≤ 9999
  · rcases denoted_toISOString four.1 four.2 with ⟨isInstant, denotes⟩
    rw [if_pos isInstant, denotes, Option.bind_some, timeClip, dif_pos instant.inRange]
  · rw [instantPattern_of_long (by omega)]
    exact Date.parse_toISOString instant

def offsetDates : DateParser := ⟨parseOffset, parseOffset_toISOString⟩

def offsetHost : SourceHost := ⟨codeUnitOrder, tabulated [], offsetDates⟩

theorem readsIso_offsetHost : ReadsIso offsetHost := by
  intro value written instant accepted parsed
  rcases parts_of_toUtcInstant accepted with ⟨groups, rest, _, parts, -, fits, -, -⟩
  have isInstant : (instantPattern value).isSome = true := by
    rw [instantPattern_eq, parts, Option.bind_some, if_pos fits]
    rfl
  have clipped : (denoted value).bind timeClip = some instant := by
    simpa only [offsetHost, offsetDates, parseOffset, if_pos isInstant] using parsed
  rcases Option.bind_eq_some_iff.mp clipped with ⟨time, denotes, inTime⟩
  rw [denotes]
  rw [timeClip] at inTime
  split at inTime
  · cases inTime
    rfl
  · cases inTime

def observedRecord (observedAt : String) : RawSourceRecord where
  source := .string (js "google")
  externalId := .string (js "account")
  personId := .string (js "person")
  provenance := .string (js "export")
  observedAt := .string (js observedAt)

theorem latest_iff_offset :
    (∀ candidate ∈ (normalizeSourceConnections offsetHost
        [observedRecord "2026-01-02T01:00:00+02:00", observedRecord "2026-01-02T00:00:00Z"]).accepted,
      Latest offsetHost
        [observedRecord "2026-01-02T01:00:00+02:00", observedRecord "2026-01-02T00:00:00Z"]
        candidate) ↔
    ∀ left ∈ [observedRecord "2026-01-02T01:00:00+02:00", observedRecord "2026-01-02T00:00:00Z"],
      ∀ right ∈ [observedRecord "2026-01-02T01:00:00+02:00", observedRecord "2026-01-02T00:00:00Z"],
        ∀ leftValue rightValue, normalizeOne offsetHost left = .ok leftValue →
          normalizeOne offsetHost right = .ok rightValue → tripleKey leftValue = tripleKey rightValue →
            Unchallenged (valid offsetHost [observedRecord "2026-01-02T01:00:00+02:00",
              observedRecord "2026-01-02T00:00:00Z"]) leftValue →
              (InYear10000 left ↔ InYear10000 right) :=
  latest_iff readsIso_offsetHost _

/-- Two hours behind UTC the last hour of the year 9999 is in the year 10000, and a record of
midsummer is kept instead. -/
theorem not_latest_new_year : ¬∀ host, ReadsIso host → ∀ records : List RawSourceRecord,
    ∀ candidate ∈ (normalizeSourceConnections host records).accepted,
      Latest host records candidate := by
  intro latest
  let records := [observedRecord "9999-12-31T23:00:00-02:00", observedRecord "9999-06-21T00:00:00Z"]
  let link (observedAt : String) : NormalizedSourceConnection :=
    ⟨.v1_0_0, .google, js "account", js "person", js "export", js observedAt⟩
  have accepted : link "9999-06-21T00:00:00.000Z" ∈
      (normalizeSourceConnections offsetHost records).accepted := by decide +kernel
  have isValid : normalizeOne offsetHost (observedRecord "9999-12-31T23:00:00-02:00") =
      .ok (link "+010000-01-01T01:00:00.000Z") := by decide +kernel
  rcases latest offsetHost readsIso_offsetHost records _ accepted _ List.mem_cons_self _ isValid
    (by decide +kernel) with ⟨time, kept, denotes, parsed, notAfter⟩
  have newYear : denoted (text (observedRecord "9999-12-31T23:00:00-02:00").observedAt) =
      some 253402304400000 := by decide +kernel
  have midsummer : Date.parse (js "9999-06-21T00:00:00.000Z") =
      some ⟨253385539200000, by decide⟩ := by decide +kernel
  rw [newYear, Option.some.injEq] at denotes
  rw [midsummer, Option.some.injEq] at parsed
  subst denotes parsed
  exact absurd notAfter (by decide)

end StudentHub.Sources
