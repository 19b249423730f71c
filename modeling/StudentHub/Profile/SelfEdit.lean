import StudentHub.Ecma.Numerals
import StudentHub.Ecma.IsoOrder
import StudentHub.Pay.Days
import StudentHub.Pay.Plain
import StudentHub.Profile.Store

/-!
# Self-edits of a profile

A person's change is normalized and checked before the safe-write contract sees it, at the preview
and again at the confirm, each time against the day of its clock.
-/

namespace StudentHub.Profile

open Ecma JsString SafeWrite

open Pay (isDatePattern isDatePattern_iff parse_midnight isPlain_of_isDigit)

open Json (isPlain isPlain_iff codePointCount_of_isPlain)

/-- What comes with the language: `normalize("NFC")`, `toLowerCase`, and the letters and marks
among the code points. -/
structure SelfEditHost where
  nfc : JsString → JsString
  lower : JsString → JsString
  letter : ℕ → Bool

inductive PersonSelfEditInvalidReason
  | required
  | length
  | name
  | arabicName
  | spacing
  | characters
  | date
  | future
  | minimumAge
  | choice
  | contactUnavailable
  deriving DecidableEq

def PERSON_PROFILE_MINIMUM_AGE : ℤ := 16

/-- `UUID_PATTERN` -/
def isUuid (text : JsString) : Bool :=
  let hex := List.replicate 4 isHex
  let version (unit : UInt16) : Bool := 49 ≤ unit && unit ≤ 53
  let variant (unit : UInt16) : Bool := unit ∈ js "89abAB"
  let dash := [fun unit : UInt16 => decide (unit = 45)]
  text.matchesClasses (hex ++ hex ++ dash ++ hex ++ dash ++ version :: hex.take 3 ++ dash ++
    variant :: hex.take 3 ++ dash ++ hex ++ hex ++ hex)

namespace PersonProfileField

/-- `SHU372_RULES[field].maxLength` -/
def maxLength : PersonProfileField → ℕ
  | displayName | arabicName => 255
  | objective | preferredTime => 100
  | intro => 5000
  | gender => 6
  | birthDate => 10
  | drivingLicence | kuwaitiMother => 5
  | jobSearchStatus => 14
  | phone => 32
  | handle => 30
  | nationality | university => 36

/-- `SHU372_RULES[field].allowClear` -/
def allowClear : PersonProfileField → Bool
  | displayName | gender | birthDate | drivingLicence | jobSearchStatus | nationality => false
  | _ => true

end PersonProfileField

def isForbidden (unit : UInt16) : Bool :=
  [(0x0000, 0x001F), (0x007F, 0x009F), (0x00AD, 0x00AD), (0x061C, 0x061C), (0x200B, 0x200F),
    (0x2028, 0x202E), (0x2060, 0x206F), (0xFEFF, 0xFEFF)].any fun (range : UInt16 × UInt16) =>
      range.1 ≤ unit && unit ≤ range.2

/-- `NAME`: two or more words of letters, which may be joined by an apostrophe, a dot or a dash. -/
def isName (host : SelfEditHost) (text : JsString) : Bool :=
  let isPart (part : List ℕ) : Bool :=
    (part.splitOnP fun code => code ∈ [39, 46, 45]).all fun run => !run.isEmpty && run.all host.letter
  let parts := text.codePoints.splitOn 32
  2 ≤ parts.length && parts.all isPart

def isArabicLetter (unit : UInt16) : Bool :=
  [(0x0621, 0x063A), (0x0641, 0x064A), (0x066E, 0x066F), (0x0671, 0x06D3),
    (0x06FA, 0x06FC)].any fun (range : UInt16 × UInt16) => range.1 ≤ unit && unit ≤ range.2

def asciiDigit (unit : UInt16) : UInt16 :=
  if (0x0660 ≤ unit && unit ≤ 0x0669) || (0x06F0 ≤ unit && unit ≤ 0x06F9) then
    digit (unit.toNat % 16)
  else
    unit

/-- `/^\+[0-9]{8,15}$/` -/
def isPhone : JsString → Bool
  | 43 :: digits => 8 ≤ digits.length && digits.length ≤ 15 && digits.all isDigit
  | _ => false

def isHandleUnit (unit : UInt16) : Bool :=
  (97 ≤ unit && unit ≤ 122) || isDigit unit || unit ∈ js "._-"

/-- `/^[a-z][a-z0-9._-]{2,29}$/` -/
def isHandle : JsString → Bool
  | first :: rest =>
      97 ≤ first && first ≤ 122 && 2 ≤ rest.length && rest.length ≤ 29 && rest.all isHandleUnit
  | [] => false

/-- `/\s{2}/` -/
def hasDoubleSpace : JsString → Bool
  | first :: second :: rest =>
      (isWhiteSpace first && isWhiteSpace second) || hasDoubleSpace (second :: rest)
  | _ => false

/-- `value.split("-").map(Number)` of a text that has the pattern of a date -/
def dateNumbers (value : JsString) : ℕ × ℕ × ℕ :=
  (numeral (value.take 4), numeral ((value.drop 5).take 2), numeral (value.drop 8))

def birthDate (value : JsString) : Date :=
  let (year, month, date) := dateNumbers value
  Date.utc year month date

def validPersonBirthDate (value : JsString) : Bool :=
  isDatePattern value && (birthDate value).any fun instant =>
    let (year, month, date) := dateNumbers value
    CalendarDate.ofDay (instant.time / msPerDay) = ⟨year, month, date⟩

def minimumBirthDate (today : JsString) : Date :=
  (Date.parse (today ++ js "T00:00:00.000Z")).bind fun instant =>
    instant.setYearsBefore PERSON_PROFILE_MINIMUM_AGE

def kuwaitDate (day : CalendarDate) : JsString :=
  decimal (if 1 ≤ day.year then day.year else 1 - day.year).toNat ++ js "-" ++ digits 2 day.month ++
    js "-" ++ digits 2 day.date

def validBirthDate (value today : JsString) : Bool :=
  isDatePattern value && isDatePattern today && validPersonBirthDate value &&
    Date.reaches (minimumBirthDate today) (birthDate value)

def refuseIf (refused : Bool) (reason : PersonSelfEditInvalidReason) :
    Except PersonSelfEditInvalidReason Unit :=
  if refused then .error reason else .ok ()

def internationalPhone (compact : JsString) : JsString :=
  let plus := (js "+").isPrefixOf compact
  let zeros := (js "00").isPrefixOf compact
  let digits := if plus then compact.drop 1 else if zeros then compact.drop 2 else compact
  if digits.length = 8 ∧ ¬(plus || zeros) then
    js "+965" ++ digits
  else if plus || zeros || (js "965").isPrefixOf digits then
    js "+" ++ digits
  else
    compact

def normalizePhone (text : JsString) : Except PersonSelfEditInvalidReason JsString := do
  let normalized := text.map asciiDigit
  refuseIf (normalized = [] || !normalized.all fun unit => isDigit unit || unit ∈ js "+ ()-")
    .characters
  refuseIf (trim normalized ≠ normalized) .spacing
  return internationalPhone (normalized.filter fun unit => unit ∉ js " ()-")

def normalizeIfPhone (field : PersonProfileField) (text : JsString) :
    Except PersonSelfEditInvalidReason JsString :=
  if field = .phone then normalizePhone text else .ok text

def lowerIfHandle (host : SelfEditHost) (field : PersonProfileField) (text : JsString) : JsString :=
  if field = .handle then host.lower text else text

def validateNormalized (host : SelfEditHost) (field : PersonProfileField) (normalized : JsString)
    (today : JsString) (contactAvailable : Option Bool) :
    Except PersonSelfEditInvalidReason JsString :=
  if normalized.codePointCount > field.maxLength then
    .error .length
  else if normalized.any isForbidden then
    .error .characters
  else if normalized = [] then
    if field.allowClear then .ok [] else .error .required
  else do
    let normalized ← normalizeIfPhone field normalized
    refuseIf (field = .gender && normalized ∉ [js "male", js "female", js "other"]) .choice
    refuseIf (field = .birthDate && (!validPersonBirthDate normalized || !isDatePattern today)) .date
    refuseIf (field = .birthDate && today < normalized) .future
    refuseIf (field = .birthDate && !validBirthDate normalized today) .minimumAge
    refuseIf (field = .drivingLicence && normalized ∉ [js "true", js "false"]) .choice
    refuseIf (field = .jobSearchStatus &&
      normalized ∉ [js "not_looking", js "active", js "open_to_offers"]) .choice
    refuseIf (field = .phone && !isPhone normalized) .characters
    let normalized := lowerIfHandle host field normalized
    refuseIf (field = .handle && !isHandle normalized) .characters
    refuseIf (decide (field = .nationality ∨ field = .university ∧ normalized ≠ []) &&
      !isUuid normalized) .choice
    refuseIf (field = .kuwaitiMother && normalized ∉ [js "true", js "false"]) .choice
    refuseIf (normalized ≠ trim normalized || hasDoubleSpace normalized) .spacing
    refuseIf (decide (field = .displayName ∨ field = .arabicName) && !isName host normalized) .name
    refuseIf (field = .arabicName && !normalized.any isArabicLetter) .arabicName
    refuseIf (decide (field = .phone ∨ field = .handle) && contactAvailable = some false)
      .contactUnavailable
    return normalized

def validatePersonSelfEditValue (host : SelfEditHost) (field : PersonProfileField) (value : JsValue)
    (today : JsString) (contactAvailable : Option Bool) :
    Except PersonSelfEditInvalidReason JsString :=
  match value with
  | .string raw => validateNormalized host field (host.nfc raw) today contactAvailable
  | _ => .error .characters

def normalizePersonSelfEditValue (host : SelfEditHost) (field : PersonProfileField) (value : JsValue)
    (today : JsString) : Option JsString :=
  (validatePersonSelfEditValue host field value today none).toOption

/-- The policy of `createPersonSelfEdit` -/
def selfEditPolicy : FieldPolicy := ⟨PersonProfileField.all.map PersonProfileField.name, 5000, true⟩

/-- `normalize`, which the preview and the confirm of `createPersonSelfEdit` begin with -/
def normalizeChange (host : SelfEditHost) (today : JsString) (change : ChangeRequest) :
    Option ChangeRequest :=
  match PersonProfileField.all.find? fun field => field.name = change.field with
  | none => some change
  | some field => (normalizePersonSelfEditValue host field change.value today).map fun value =>
      { change with value := .string value }

section Accepted

variable {host : SelfEditHost} {field : PersonProfileField} {text value today : JsString}
variable {contactAvailable : Option Bool} {reason : PersonSelfEditInvalidReason}

theorem refuseIf_eq_ok_iff {refused : Bool} {done : Unit} :
    refuseIf refused reason = .ok done ↔ refused = false := by
  cases refused <;> simp [refuseIf]

structure Accepts (host : SelfEditHost) (field : PersonProfileField) (text today : JsString)
    (contactAvailable : Option Bool) (value : JsString) : Prop where
  length : text.codePointCount ≤ field.maxLength
  allowed : text.any isForbidden = false
  present : text ≠ []
  phone : field = .phone → normalizePhone text = .ok value ∧ isPhone value = true
  handle : field = .handle → host.lower text = value ∧ isHandle value = true
  same : field ≠ .phone → field ≠ .handle → text = value
  gender : field = .gender → value ∈ [js "male", js "female", js "other"]
  birthDate : field = .birthDate → isDatePattern today = true ∧ ¬today < value ∧
    validBirthDate value today = true
  drivingLicence : field = .drivingLicence → value ∈ [js "true", js "false"]
  jobSearchStatus : field = .jobSearchStatus →
    value ∈ [js "not_looking", js "active", js "open_to_offers"]
  origin : field = .nationality ∨ field = .university → isUuid value = true
  kuwaitiMother : field = .kuwaitiMother → value ∈ [js "true", js "false"]
  trimmed : trim value = value
  spacing : hasDoubleSpace value = false
  name : field = .displayName ∨ field = .arabicName → isName host value = true
  arabicName : field = .arabicName → value.any isArabicLetter = true
  contact : field = .phone ∨ field = .handle → contactAvailable ≠ some false

theorem validPersonBirthDate_of_validBirthDate (valid : validBirthDate value today = true) :
    validPersonBirthDate value = true := by
  simp only [validBirthDate, Bool.and_eq_true] at valid
  exact valid.1.2

theorem guarded_eq_false_iff {guard : Prop} [Decidable guard] {refused : Bool} :
    (decide guard && refused) = false ↔ (guard → refused = false) := by
  by_cases holds : guard <;> simp [holds]

theorem normalizeIfPhone_eq_ok_iff : normalizeIfPhone field text = .ok value ↔
    (field = .phone → normalizePhone text = .ok value) ∧ (field ≠ .phone → text = value) := by
  by_cases isPhone : field = .phone <;> simp [normalizeIfPhone, isPhone]

theorem validateNormalized_eq_ok_iff (present : text ≠ []) :
    validateNormalized host field text today contactAvailable = .ok value ↔
      Accepts host field text today contactAvailable value := by
  rw [validateNormalized, if_neg present]
  constructor
  · intro accepted
    split_ifs at accepted with long forbidden
    simp only [bind_eq_ok_iff, refuseIf_eq_ok_iff, guarded_eq_false_iff, exists_const,
      normalizeIfPhone_eq_ok_iff] at accepted
    rcases accepted with ⟨normalized, ⟨phone, noPhone⟩, gender, birthDate, past, oldEnough,
      drivingLicence, jobSearchStatus, isPhone, handle, origin, kuwaitiMother, spacing, name,
      arabicName, contact, same⟩
    cases same
    have same : field ≠ .handle → lowerIfHandle host field normalized = normalized :=
      fun noHandle => if_neg noHandle
    simp only [decide_eq_false_iff_not, not_not, Bool.not_eq_false', Bool.or_eq_false_iff] at *
    refine ⟨Nat.le_of_not_lt long, by simpa using forbidden, present, ?_, ?_, ?_, ?_, ?_, ?_, ?_, ?_,
      kuwaitiMother, spacing.1.symm, spacing.2, name, arabicName, contact⟩
    · intro isField
      rw [same (by simp [isField])]
      exact ⟨phone isField, isPhone isField⟩
    · intro isField
      refine ⟨?_, handle isField⟩
      rw [lowerIfHandle, if_pos isField, noPhone (by simp [isField])]
    · intro notPhone notHandle
      rw [same notHandle, noPhone notPhone]
    · intro isField
      rw [same (by simp [isField])]
      exact gender isField
    · intro isField
      rw [same (by simp [isField])]
      exact ⟨(birthDate isField).2, past isField, oldEnough isField⟩
    · intro isField
      rw [same (by simp [isField])]
      exact drivingLicence isField
    · intro isField
      rw [same (by simp [isField])]
      exact jobSearchStatus isField
    · intro isField
      have notPhone : field ≠ .phone := by rcases isField with rfl | rfl <;> decide
      have notHandle : field ≠ .handle := by rcases isField with rfl | rfl <;> decide
      apply origin
      rw [same notHandle, ← noPhone notPhone]
      exact isField.imp_right fun isUniversity => ⟨isUniversity, present⟩
  · intro accepts
    rw [if_neg (Nat.not_lt.mpr accepts.length), if_neg (by simp [accepts.allowed])]
    simp only [bind_eq_ok_iff, refuseIf_eq_ok_iff, guarded_eq_false_iff, exists_const,
      normalizeIfPhone_eq_ok_iff, decide_eq_false_iff_not, not_not, Bool.not_eq_false',
      Bool.or_eq_false_iff]
    by_cases isHandle : field = .handle
    · subst isHandle
      rcases accepts.handle rfl with ⟨rfl, isHandle⟩
      refine ⟨text, ⟨nofun, fun _ => rfl⟩, nofun, nofun, nofun, nofun, nofun, nofun, nofun, ?_⟩
      rw [lowerIfHandle, if_pos rfl]
      exact ⟨fun _ => isHandle, by simp, nofun, ⟨accepts.trimmed.symm, accepts.spacing⟩, by simp,
        nofun, fun _ => accepts.contact (.inr rfl), rfl⟩
    · refine ⟨value, ⟨fun isField => (accepts.phone isField).1, fun notPhone =>
        accepts.same notPhone isHandle⟩, accepts.gender, fun isField => ?_, fun isField =>
        (accepts.birthDate isField).2.1, fun isField => (accepts.birthDate isField).2.2,
        accepts.drivingLicence, accepts.jobSearchStatus, fun isField => (accepts.phone isField).2, ?_⟩
      · exact ⟨validPersonBirthDate_of_validBirthDate (accepts.birthDate isField).2.2,
          (accepts.birthDate isField).1⟩
      · rw [lowerIfHandle, if_neg isHandle]
        exact ⟨fun isField => absurd isField isHandle, fun isField =>
          accepts.origin (isField.imp_right And.left), accepts.kuwaitiMother,
          ⟨accepts.trimmed.symm, accepts.spacing⟩, accepts.name, accepts.arabicName, accepts.contact, rfl⟩

theorem validateNormalized_nil : validateNormalized host field [] today contactAvailable = .ok value ↔
    field.allowClear = true ∧ value = [] := by
  have short : ¬JsString.codePointCount [] > field.maxLength := Nat.not_lt_zero _
  rw [validateNormalized, if_neg short, if_neg (by simp), if_pos rfl]
  cases field.allowClear <;> simp [eq_comm]

theorem validatePersonSelfEditValue_eq_ok_iff {change : JsValue} :
    validatePersonSelfEditValue host field change today contactAvailable = .ok value ↔
      ∃ raw, change = .string raw ∧ (host.nfc raw = [] ∧ field.allowClear = true ∧ value = [] ∨
        Accepts host field (host.nfc raw) today contactAvailable value) := by
  cases change with
  | string raw =>
      simp only [validatePersonSelfEditValue, JsValue.string.injEq, exists_eq_left']
      by_cases empty : host.nfc raw = []
      · rw [empty, validateNormalized_nil]
        refine ⟨fun cleared => .inl ⟨rfl, cleared⟩, ?_⟩
        rintro (cleared | accepts)
        · exact cleared.2
        · exact absurd rfl accepts.present
      · rw [validateNormalized_eq_ok_iff empty]
        refine ⟨.inr, ?_⟩
        rintro (cleared | accepts)
        · exact absurd cleared.1 empty
        · exact accepts
  | _ => simp [validatePersonSelfEditValue]

end Accepted

/-- What is known of the language: `normalize` and `toLowerCase` on ASCII, and that normalizing
again changes nothing. -/
structure StandardText (host : SelfEditHost) : Prop where
  again : ∀ text, host.nfc (host.nfc text) = host.nfc text
  ascii : ∀ text, (∀ unit ∈ text, isPlain unit = true) → host.nfc text = text
  lower : ∀ text, (∀ unit ∈ text, isPlain unit = true) → host.lower text = toLowerCase text

section NormalForms

variable {host : SelfEditHost} {field : PersonProfileField} {text value today : JsString}
variable {contactAvailable : Option Bool}

theorem isPlain_of_isHandleUnit {unit : UInt16} (isUnit : isHandleUnit unit = true) :
    isPlain unit = true := by
  have marks : ∀ unit ∈ js "._-", isPlain unit = true := List.all_eq_true.mp (by decide +kernel)
  simp only [isHandleUnit, Bool.or_eq_true, Bool.and_eq_true, decide_eq_true_eq,
    UInt16.le_iff_toNat_le, UInt16.reduceToNat] at isUnit
  rcases isUnit with (isLower | isNumber) | isMark
  · rw [isPlain_iff]
    omega
  · exact isPlain_of_isDigit isNumber
  · exact marks unit isMark

theorem isForbidden_of_isPlain {unit : UInt16} (plain : isPlain unit = true) :
    isForbidden unit = false := by
  have all : ∀ number : ℕ, number < 127 → 32 ≤ number → isForbidden number.toUInt16 = false := by
    decide +kernel
  rw [isPlain_iff] at plain
  have known := all unit.toNat (by omega) (by omega)
  rwa [Nat.toUInt16, UInt16.ofNat_toNat] at known

theorem isPhone_iff : isPhone value = true ↔ ∃ digits : JsString, value = 43 :: digits ∧
    8 ≤ digits.length ∧ digits.length ≤ 15 ∧ ∀ unit ∈ digits, isDigit unit = true := by
  rw [isPhone.eq_def]
  split
  · simp [and_assoc]
  · rename_i noPlus
    simp only [Bool.false_eq_true, false_iff, not_exists, not_and]
    intro digits same
    exact absurd same (noPlus digits)

theorem isPlain_of_isPhone (phone : isPhone value = true) : ∀ unit ∈ value, isPlain unit = true := by
  rcases isPhone_iff.mp phone with ⟨digits, rfl, -, -, all⟩
  rw [List.forall_mem_cons]
  exact ⟨by decide, fun unit isUnit => isPlain_of_isDigit (all unit isUnit)⟩

theorem isHandleUnit_of_isHandle (handle : isHandle value = true) :
    ∀ unit ∈ value, isHandleUnit unit = true := by
  cases value with
  | nil => cases handle
  | cons first rest =>
      simp only [isHandle, Bool.and_eq_true, List.all_eq_true] at handle
      rw [List.forall_mem_cons]
      exact ⟨by simp [isHandleUnit, handle.1.1.1.1, handle.1.1.1.2], handle.2⟩

theorem isPlain_of_isHandle (handle : isHandle value = true) : ∀ unit ∈ value, isPlain unit = true :=
  fun unit isUnit => isPlain_of_isHandleUnit (isHandleUnit_of_isHandle handle unit isUnit)

theorem lowerUnit_of_isHandleUnit {unit : UInt16} (isUnit : isHandleUnit unit = true) :
    lowerUnit unit = unit := by
  have marks : ∀ unit ∈ js "._-", lowerUnit unit = unit := by
    simp [js, codeUnits, lowerUnit]
  simp only [isHandleUnit, Bool.or_eq_true, Bool.and_eq_true, decide_eq_true_eq] at isUnit
  rcases isUnit with (isLower | isNumber) | isMark
  · simp only [UInt16.le_iff_toNat_le, UInt16.reduceToNat] at isLower
    apply if_neg
    simp only [Bool.and_eq_true, decide_eq_true_eq, UInt16.le_iff_toNat_le, UInt16.reduceToNat]
    omega
  · exact lowerUnit_of_isDigit isNumber
  · exact marks unit isMark

theorem map_eq_self {change : UInt16 → UInt16} (same : ∀ unit ∈ value, change unit = unit) :
    value.map change = value := by
  rw [List.map_congr_left same, List.map_id']

theorem toLowerCase_of_isHandle (handle : isHandle value = true) : toLowerCase value = value :=
  map_eq_self fun unit isUnit => lowerUnit_of_isHandleUnit (isHandleUnit_of_isHandle handle unit isUnit)

theorem asciiDigit_of_isPlain {unit : UInt16} (plain : isPlain unit = true) : asciiDigit unit = unit := by
  rw [isPlain_iff] at plain
  apply if_neg
  simp only [Bool.or_eq_true, Bool.and_eq_true, decide_eq_true_eq, UInt16.le_iff_toNat_le,
    UInt16.reduceToNat]
  omega

theorem normalizePhone_of_isPhone (phone : isPhone value = true) (trimmed : trim value = value) :
    normalizePhone value = .ok value := by
  have plain := isPlain_of_isPhone phone
  rcases isPhone_iff.mp phone with ⟨digits, rfl, -, -, all⟩
  have allowed : ((43 :: digits).all fun unit => isDigit unit || unit ∈ js "+ ()-") = true := by
    rw [List.all_eq_true, List.forall_mem_cons]
    exact ⟨by decide +kernel, fun unit isUnit => by simp [all unit isUnit]⟩
  have compact : ((43 :: digits).filter fun unit => unit ∉ js " ()-") = 43 :: digits := by
    have notMark : ∀ unit, isDigit unit = true → unit ∉ js " ()-" := by
      intro unit isNumber isMark
      have marks : ∀ unit ∈ js " ()-", isDigit unit = false := by
        simp [js, codeUnits, isDigit]
      rw [marks unit isMark] at isNumber
      cases isNumber
    rw [List.filter_eq_self, List.forall_mem_cons]
    exact ⟨by decide +kernel, fun unit isUnit => by simp [notMark unit (all unit isUnit)]⟩
  rw [normalizePhone, map_eq_self fun unit isUnit => asciiDigit_of_isPlain (plain unit isUnit)]
  simp only [bind_eq_ok_iff, refuseIf_eq_ok_iff, exists_const]
  refine ⟨by rw [allowed]; rfl, by simp [trimmed], ?_⟩
  rw [compact]
  have plus : (js "+").isPrefixOf (43 :: digits) = true := rfl
  simp only [internationalPhone, plus, Bool.true_or, not_true_eq_false, and_false, if_false, if_true,
    List.drop_succ_cons, List.drop_zero]
  rfl

theorem Accepts.nfc_eq (standard : StandardText host) {raw : JsString}
    (accepts : Accepts host field (host.nfc raw) today contactAvailable value) :
    host.nfc value = value := by
  by_cases isPhone : field = .phone
  · exact standard.ascii value (isPlain_of_isPhone (accepts.phone isPhone).2)
  · by_cases isHandle : field = .handle
    · exact standard.ascii value (isPlain_of_isHandle (accepts.handle isHandle).2)
    · rw [← accepts.same isPhone isHandle, standard.again]

theorem Accepts.codePointCount_le (accepts : Accepts host field text today contactAvailable value) :
    value.codePointCount ≤ field.maxLength := by
  by_cases isPhone : field = .phone
  · have phone := (accepts.phone isPhone).2
    rw [codePointCount_of_isPlain (isPlain_of_isPhone phone), isPhone]
    rcases isPhone_iff.mp phone with ⟨digits, rfl, -, short, -⟩
    rw [List.length_cons, PersonProfileField.maxLength]
    omega
  · by_cases isHandle : field = .handle
    · have handle := (accepts.handle isHandle).2
      rw [codePointCount_of_isPlain (isPlain_of_isHandle handle), isHandle]
      cases value with
      | nil => cases handle
      | cons first rest =>
          simp only [Profile.isHandle, Bool.and_eq_true, decide_eq_true_eq] at handle
          rw [List.length_cons, PersonProfileField.maxLength]
          omega
    · rw [← accepts.same isPhone isHandle]
      exact accepts.length

theorem Accepts.any_isForbidden (accepts : Accepts host field text today contactAvailable value) :
    value.any isForbidden = false := by
  have plain : (∀ unit ∈ value, isPlain unit = true) → value.any isForbidden = false := by
    intro plain
    rw [List.any_eq_false]
    intro unit isUnit
    simp [isForbidden_of_isPlain (plain unit isUnit)]
  by_cases isPhone : field = .phone
  · exact plain (isPlain_of_isPhone (accepts.phone isPhone).2)
  · by_cases isHandle : field = .handle
    · exact plain (isPlain_of_isHandle (accepts.handle isHandle).2)
    · rw [← accepts.same isPhone isHandle]
      exact accepts.allowed

theorem Accepts.ne_nil (accepts : Accepts host field text today contactAvailable value) :
    value ≠ [] := by
  by_cases isPhone : field = .phone
  · rcases isPhone_iff.mp (accepts.phone isPhone).2 with ⟨digits, rfl, -⟩
    exact List.cons_ne_nil _ _
  · by_cases isHandle : field = .handle
    · rintro rfl
      cases (accepts.handle isHandle).2
    · rw [← accepts.same isPhone isHandle]
      exact accepts.present

theorem Accepts.again (standard : StandardText host) {later : JsString} {stillAvailable : Option Bool}
    (accepts : Accepts host field text today contactAvailable value)
    (stillBorn : field = .birthDate → isDatePattern later = true ∧ ¬later < value ∧
      validBirthDate value later = true)
    (contact : field = .phone ∨ field = .handle → stillAvailable ≠ some false) :
    Accepts host field value later stillAvailable value where
  length := accepts.codePointCount_le
  allowed := accepts.any_isForbidden
  present := accepts.ne_nil
  phone isField :=
    ⟨normalizePhone_of_isPhone (accepts.phone isField).2 accepts.trimmed, (accepts.phone isField).2⟩
  handle isField := by
    have handle := (accepts.handle isField).2
    rw [standard.lower value (isPlain_of_isHandle handle)]
    exact ⟨toLowerCase_of_isHandle handle, handle⟩
  same _ _ := rfl
  gender := accepts.gender
  birthDate := stillBorn
  drivingLicence := accepts.drivingLicence
  jobSearchStatus := accepts.jobSearchStatus
  origin := accepts.origin
  kuwaitiMother := accepts.kuwaitiMother
  trimmed := accepts.trimmed
  spacing := accepts.spacing
  name := accepts.name
  arabicName := accepts.arabicName
  contact := contact

end NormalForms

section LaterDays

variable {day later : CalendarDate} {value : JsString}

theorem fourDigits_of_isDatePattern (exist : day.Exists) (pattern : isDatePattern day.text = true) :
    day.FourDigits := by
  rcases isDatePattern_iff.mp pattern with ⟨found, four, same⟩
  rw [← CalendarDate.ofDay_makeDay exist]
  apply @Pay.fourDigits_of_take_text _ found [] four
  rw [CalendarDate.ofDay_makeDay exist, List.append_nil, ← same,
    List.take_of_length_le four.length_text.le]

theorem kuwaitDate_eq_text (lower : 1000 ≤ day.year) (upper : day.year ≤ 9999) :
    kuwaitDate day = day.text := by
  have isYear : decimal day.year.toNat = digits 4 day.year.toNat := by
    have decimals : ∀ unit ∈ decimal day.year.toNat, isDigit unit = true :=
      fun unit => Json.isDigit_of_mem_decimal
    have short := (@length_decimal_le_iff day.year.toNat 4 (by decide)).mpr (by omega)
    have long := (@length_decimal_le_iff day.year.toNat 3 (by decide)).not.mpr (by omega)
    have four : (decimal day.year.toNat).length = 4 := by omega
    have same := digits_numeral decimals
    rw [four, numeral_decimal] at same
    exact same.symm
  have dash : js "-" = [45] := rfl
  rw [kuwaitDate, if_pos (by omega), isYear, dash, CalendarDate.text, CalendarDate.yearText,
    if_pos ⟨by omega, upper⟩]

theorem minimumBirthDate_text (exist : day.Exists) (four : day.FourDigits) :
    ∃ instant : Instant, minimumBirthDate day.text = some instant ∧
      instant.time = (day.yearsBefore PERSON_PROFILE_MINIMUM_AGE).makeDay * msPerDay := by
  rcases exist with ⟨january, december, first, last⟩
  have lastOfMonth := (Calendar.daysInMonth_bounds day.year day.month).2
  have inMonth : day.date ≤ 31 := by omega
  have lower := four.1
  have upper := four.2.1
  rcases CalendarDate.exists_timeClip_makeDay (by omega) (by omega) december inMonth with
    ⟨midnight, isMidnight, isTime⟩
  have moved := @CalendarDate.exists_timeClip_makeDay (day.yearsBefore PERSON_PROFILE_MINIMUM_AGE)
    (by simp only [CalendarDate.yearsBefore, PERSON_PROFILE_MINIMUM_AGE]; omega)
    (by simp only [CalendarDate.yearsBefore, PERSON_PROFILE_MINIMUM_AGE]; omega) december inMonth
  rw [minimumBirthDate, parse_midnight four, if_pos ⟨january, december, first, inMonth⟩, isMidnight,
    Option.bind_some, Instant.setYearsBefore_midnight ⟨january, december, first, last⟩ isTime]
  exact moved

theorem validBirthDate_later (exist : day.Exists) (four : day.FourDigits) (laterExists : later.Exists)
    (laterFour : later.FourDigits) (notBefore : day.makeDay ≤ later.makeDay)
    (valid : validBirthDate value day.text = true) : validBirthDate value later.text = true := by
  rcases minimumBirthDate_text exist four with ⟨minimum, isMinimum, isTime⟩
  rcases minimumBirthDate_text laterExists laterFour with ⟨next, isNext, isNextTime⟩
  have inOrder := CalendarDate.makeDay_yearsBefore_le PERSON_PROFILE_MINIMUM_AGE exist laterExists notBefore
  have times : minimum.time ≤ next.time := by
    rw [isTime, isNextTime]
    exact Int.mul_le_mul_of_nonneg_right inOrder (by decide)
  simp only [validBirthDate, Bool.and_eq_true, isMinimum, isNext] at valid ⊢
  exact ⟨⟨⟨valid.1.1.1, isDatePattern_iff.mpr ⟨later, laterFour, rfl⟩⟩, valid.1.2⟩,
    Date.reaches_of_le times valid.2⟩

theorem year_le_of_makeDay_le (exist : day.Exists) (laterExists : later.Exists)
    (notBefore : day.makeDay ≤ later.makeDay) : day.year ≤ later.year := by
  by_contra before
  have less := CalendarDate.makeDay_lt laterExists exist (.inl (by omega))
  omega

theorem not_text_lt_later (exist : day.Exists) (four : day.FourDigits) (laterExists : later.Exists)
    (laterFour : later.FourDigits) (notBefore : day.makeDay ≤ later.makeDay)
    (past : ¬day.text < value) : ¬later.text < value := by
  rcases notBefore.lt_or_eq with before | same
  · have texts := (CalendarDate.text_lt_text_iff exist laterExists four laterFour).mpr before
    exact fun future => past (List.lt_trans texts future)
  · have sameDay : day = later := by
      rw [← CalendarDate.ofDay_makeDay exist, same, CalendarDate.ofDay_makeDay laterExists]
    exact sameDay ▸ past

end LaterDays

/-- The texts of a day and of that day or a later one, of years of four digits at most. -/
def Follows (today later : JsString) : Prop :=
  ∃ day next : CalendarDate, day.Exists ∧ next.Exists ∧ day.makeDay ≤ next.makeDay ∧
    next.year ≤ 9999 ∧ day.text = today ∧ next.text = later

theorem follows_kuwaitDate {day next : CalendarDate} (exist : day.Exists) (nextExists : next.Exists)
    (notBefore : day.makeDay ≤ next.makeDay) (lower : 1000 ≤ day.year) (upper : next.year ≤ 9999) :
    Follows (kuwaitDate day) (kuwaitDate next) := by
  have years := year_le_of_makeDay_le exist nextExists notBefore
  rw [kuwaitDate_eq_text lower (years.trans upper), kuwaitDate_eq_text (lower.trans years) upper]
  exact ⟨day, next, exist, nextExists, notBefore, upper, rfl, rfl⟩

/-- A value that was accepted is accepted as it is on a later day, by the validation, by the policy
of the safe-write contract, and by what a confirm begins with. -/
structure AcceptedStill (host : SelfEditHost) (field : PersonProfileField) (value : JsString)
    (contactAvailable : Option Bool) (later : JsString) : Prop where
  again : validatePersonSelfEditValue host field (.string value) later contactAvailable = .ok value
  policy : ∀ personRef, isReference personRef = true →
    validateChange ⟨personRef, field.name, .string value⟩ selfEditPolicy = none
  confirm : ∀ personRef, normalizeChange host later ⟨personRef, field.name, .string value⟩ =
    some ⟨personRef, field.name, .string value⟩

section Kept

variable {host : SelfEditHost} {field : PersonProfileField} {change : JsValue} {value : JsString}
variable {contactAvailable : Option Bool} {today later : JsString}

theorem maxLength_le (field : PersonProfileField) : field.maxLength ≤ selfEditPolicy.maxValueLength := by
  cases field <;> decide

theorem name_mem_allowed (field : PersonProfileField) : field.name ∈ selfEditPolicy.allowed := by
  apply List.mem_map_of_mem
  cases field <;> decide

theorem find?_name (field : PersonProfileField) :
    (PersonProfileField.all.find? fun other => other.name = field.name) = some field := by
  cases field <;> decide +kernel

theorem validateChange_eq_none {personRef : JsString} (isRef : isReference personRef = true)
    (short : value.codePointCount ≤ field.maxLength) (trimmed : trim value = value) :
    validateChange ⟨personRef, field.name, .string value⟩ selfEditPolicy = none := by
  have clears : selfEditPolicy.allowClear = true := rfl
  have fits := short.trans (maxLength_le field)
  simp only [validateChange, isRef, not_true_eq_false, if_false, name_mem_allowed, clears,
    Bool.true_eq_false, false_and, false_or, Nat.not_lt.mpr fits, trimmed, ne_eq]

theorem normalizeChange_eq (personRef : JsString)
    (again : validatePersonSelfEditValue host field (.string value) today none = .ok value) :
    normalizeChange host today ⟨personRef, field.name, .string value⟩ =
      some ⟨personRef, field.name, .string value⟩ := by
  simp only [normalizeChange, find?_name, normalizePersonSelfEditValue, again]
  rfl

/-- The day matters for birth dates alone, and these stay past and old enough. -/
theorem acceptedStill_of_accepted (standard : StandardText host)
    (follows : field = .birthDate → Follows today later)
    (accepted : validatePersonSelfEditValue host field change today contactAvailable = .ok value) :
    AcceptedStill host field value contactAvailable later := by
  rcases validatePersonSelfEditValue_eq_ok_iff.mp accepted with ⟨raw, rfl, cleared | accepts⟩
  · rcases cleared with ⟨-, clears, rfl⟩
    have empty := standard.ascii [] (by simp)
    have again : ∀ contact, validatePersonSelfEditValue host field (.string []) later contact =
        .ok [] :=
      fun contact => validatePersonSelfEditValue_eq_ok_iff.mpr ⟨[], rfl, .inl ⟨empty, clears, rfl⟩⟩
    exact ⟨again contactAvailable,
      fun personRef isRef => validateChange_eq_none isRef (Nat.zero_le _) rfl,
      fun personRef => normalizeChange_eq personRef (again none)⟩
  · have stillBorn : field = .birthDate → isDatePattern later = true ∧ ¬later < value ∧
        validBirthDate value later = true := by
      intro isBirthDate
      rcases accepts.birthDate isBirthDate with ⟨pattern, past, oldEnough⟩
      rcases follows isBirthDate with ⟨day, next, exist, nextExists, notBefore, inYears, rfl, rfl⟩
      have four := fourDigits_of_isDatePattern exist pattern
      have years := year_le_of_makeDay_le exist nextExists notBefore
      have nextFour := nextExists.fourDigits (four.1.trans years) inYears
      exact ⟨isDatePattern_iff.mpr ⟨next, nextFour, rfl⟩,
        not_text_lt_later exist four nextExists nextFour notBefore past,
        validBirthDate_later exist four nextExists nextFour notBefore oldEnough⟩
    have again : ∀ contact, (field = .phone ∨ field = .handle → contact ≠ some false) →
        validatePersonSelfEditValue host field (.string value) later contact = .ok value := by
      intro contact available
      refine validatePersonSelfEditValue_eq_ok_iff.mpr ⟨value, rfl, .inr ?_⟩
      rw [accepts.nfc_eq standard]
      exact accepts.again standard stillBorn available
    exact ⟨again contactAvailable accepts.contact,
      fun personRef isRef => validateChange_eq_none isRef accepts.codePointCount_le accepts.trimmed,
      fun personRef => normalizeChange_eq personRef (again none fun _ => nofun)⟩

end Kept

def asciiHost : SelfEditHost where
  nfc text := text
  lower := toLowerCase
  letter code := (65 ≤ code && code ≤ 90) || (97 ≤ code && code ≤ 122)

theorem standardText_asciiHost : StandardText asciiHost :=
  ⟨fun _ => rfl, fun _ _ => rfl, fun _ _ => rfl⟩

theorem acceptedStill_leapDay :
    AcceptedStill asciiHost .birthDate (js "2000-02-29") none (kuwaitDate ⟨2016, 3, 1⟩) :=
  @acceptedStill_of_accepted asciiHost .birthDate (.string (js "2000-02-29")) (js "2000-02-29") none
    (kuwaitDate ⟨2016, 2, 29⟩) (kuwaitDate ⟨2016, 3, 1⟩) standardText_asciiHost
    (fun _ => follows_kuwaitDate (by decide) (by decide) (by decide) (by decide) (by decide))
    (by decide +kernel)

/-- After the last day of the year 9999 no birth date is accepted, however the year is written. -/
theorem not_acceptedStill_year10000 :
    validatePersonSelfEditValue asciiHost .birthDate (.string (js "2000-02-29"))
      (kuwaitDate ⟨9999, 12, 31⟩) none = .ok (js "2000-02-29") ∧
    CalendarDate.makeDay ⟨9999, 12, 31⟩ < CalendarDate.makeDay ⟨10000, 1, 1⟩ ∧
    validatePersonSelfEditValue asciiHost .birthDate (.string (js "2000-02-29"))
      (kuwaitDate ⟨10000, 1, 1⟩) none = .error .date ∧
    validatePersonSelfEditValue asciiHost .birthDate (.string (js "2000-02-29"))
      (CalendarDate.text ⟨10000, 1, 1⟩) none = .error .date := by
  decide +kernel

end StudentHub.Profile
