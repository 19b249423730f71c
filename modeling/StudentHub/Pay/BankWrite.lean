import StudentHub.Ecma.KeyOrder
import StudentHub.Pay.Bank
import StudentHub.SafeWrite.Contract

/-!
# Bank details through the safe write

Bank, IBAN and name change together: one field whose value is the JSON text of the three.
The text is read back and found to be that of normalized details, but the policy of the field
bounds its length, and a name of lone surrogates is written with six characters for each.
-/

namespace StudentHub.Pay

open Ecma JsString Json SafeWrite

def BANK_DETAILS_FIELD : JsString := js "bank_details"

def BANK_DETAILS_POLICY : FieldPolicy where
  allowed := [BANK_DETAILS_FIELD]
  maxValueLength := 512
  allowClear := false

def BankDetails.members (details : BankDetails) : List (JsString × JsString) :=
  [(js "bankId", details.bankId), (js "beneficiaryName", details.beneficiaryName),
    (js "iban", details.iban)]

def bankDetailsValue (details : BankDetails) : JsString :=
  (stringify (.object (textMembers details.members))).getD []

section

variable (round : FiniteNumber → JsNumber)

/-- The stored value back as details, `none` for a text that `bankDetailsValue` does not make. -/
def parseBankDetailsValue (value : JsString) : Option BankDetails :=
  match parse round value with
  | some (.object properties) =>
      let raw := JsValue.object properties
      match raw.get (js "bankId"), raw.get (js "iban"), raw.get (js "beneficiaryName") with
      | .string bankId, .string iban, .string beneficiaryName =>
          let details : BankDetails := { bankId, iban, beneficiaryName }
          if bankDetailsValue details = value then some details else none
      | _, _, _ => none
  | _ => none

/-- An unreachable catalogue fails the request; an error of the caller makes the value bad. -/
def catalogueBankDetailsCheck (language : BankText) (resolve : JsString → ReferenceAnswer)
    (value : JsString) : Except BankDetailError Bool :=
  match parseBankDetailsValue round value with
  | none => .ok false
  | some details =>
      match validateBankDetails language details.input resolve with
      | .ok validated => .ok (bankDetailsValue validated = value)
      | .error error => if error.status = 400 then .ok false else .error error

end

theorem bankDetailsValue_eq (details : BankDetails) :
    bankDetailsValue details = 123 :: (quote (js "bankId") ++ [58]) ++ (quote details.bankId ++
      (44 :: (quote (js "beneficiaryName") ++ [58]) ++ (quote details.beneficiaryName ++
        (44 :: (quote (js "iban") ++ [58]) ++ (quote details.iban ++ [125]))))) := by
  simp only [bankDetailsValue, stringify, stringifyProperties_textMembers, BankDetails.members,
    List.map_cons, List.map_nil, commaSeparated, Option.getD_some, List.append_assoc,
    List.cons_append, List.nil_append]

theorem parse_bankDetailsValue (round : FiniteNumber → JsNumber) (details : BankDetails) :
    parse round (bankDetailsValue details) = some (.object (textMembers details.members)) := by
  have kept : Kept round (.object (textMembers details.members)) := by
    apply Kept.object
    · show [js "bankId", js "beneficiaryName", js "iban"].Nodup
      decide
    · show ∀ name ∈ [js "bankId", js "beneficiaryName", js "iban"], ¬IsArrayIndex name
      decide
    · intro property propertyMem
      rcases List.mem_map.mp propertyMem with ⟨member, -, rfl⟩
      exact Kept.string member.2
  exact kept.parse

theorem parseBankDetailsValue_bankDetailsValue (round : FiniteNumber → JsNumber)
    (details : BankDetails) :
    parseBankDetailsValue round (bankDetailsValue details) = some details := by
  have bankId : (JsValue.object (textMembers details.members)).get (js "bankId") =
      .string details.bankId := rfl
  have iban : (JsValue.object (textMembers details.members)).get (js "iban") =
      .string details.iban := rfl
  have name : (JsValue.object (textMembers details.members)).get (js "beneficiaryName") =
      .string details.beneficiaryName := rfl
  simp only [parseBankDetailsValue, parse_bankDetailsValue, bankId, iban, name, if_true]

variable {language : BankText} {details : BankDetails}

theorem plain_of_all_isIbanUnit {iban : JsString} (ibanUnits : iban.all isIbanUnit = true) :
    Plain iban := by
  intro unit unitMem
  have ibanUnit := List.all_eq_true.mp ibanUnits unit unitMem
  simp only [isIbanUnit, Bool.or_eq_true] at ibanUnit
  rcases ibanUnit with upper | decimal
  · apply isPlain_of_isLetter
    simp only [isUpper] at upper
    simp [isLetter, upper]
  · exact isPlain_of_isDigit decimal

theorem codePointCount_quote_of_plain {text : JsString} (plain : Plain text) :
    (quote text).codePointCount = text.length + 2 := by
  rw [codePointCount_quote, escapeText_of_isPlain plain, codePointCount_of_isPlain plain]

theorem BankDetails.Normalized.codePointCount_bankDetailsValue
    (normalized : details.Normalized language) :
    (bankDetailsValue details).codePointCount =
      80 + details.iban.length + (details.beneficiaryName.codePoints.map escapedLength).sum := by
  have uuid := codePointCount_quote_of_plain (plain_of_isUuid normalized.isUuid)
  have iban := codePointCount_quote_of_plain (plain_of_all_isIbanUnit normalized.ibanUnits)
  have name := codePointCount_quote details.beneficiaryName
  rw [codePointCount_escapeText normalized.visible] at name
  rw [length_of_isUuid normalized.isUuid] at uuid
  have literals : (123 :: (quote (js "bankId") ++ [58])).length +
      (44 :: (quote (js "beneficiaryName") ++ [58])).length +
        (44 :: (quote (js "iban") ++ [58])).length = 10 + 19 + 8 := by decide
  have brace : codePointCount [125] = 1 := rfl
  -- No surrogate pair lies across a text and the comma or the brace after it.
  rw [bankDetailsValue_eq,
    codePointCount_append_of_forall (forall_not_isHighSurrogate (by decide)),
    codePointCount_append (quote details.bankId) (by rintro _ ⟨⟩; decide),
    codePointCount_append_of_forall (forall_not_isHighSurrogate (by decide)),
    codePointCount_append (quote details.beneficiaryName) (by rintro _ ⟨⟩; decide),
    codePointCount_append_of_forall (forall_not_isHighSurrogate (by decide)),
    codePointCount_append (quote details.iban) (by rintro _ ⟨⟩; decide)]
  omega

theorem trim_bankDetailsValue (details : BankDetails) :
    (bankDetailsValue details).trim = bankDetailsValue details := trim_stringify_object _

structure WritePathAccepts (language : BankText) (round : FiniteNumber → JsNumber)
    (details : BankDetails) : Prop where
  parsed : parseBankDetailsValue round (bankDetailsValue details) = some details
  renormalized : normalizeBankDetails language details.input = .ok details
  checked : ∀ resolve, resolve details.bankId = .resolved (some .active) →
    catalogueBankDetailsCheck round language resolve (bankDetailsValue details) = .ok true
  valid : ∀ personRef, isReference personRef = true →
    validateChange ⟨personRef, BANK_DETAILS_FIELD, .string (bankDetailsValue details)⟩
      BANK_DETAILS_POLICY = none

theorem BankDetails.Normalized.checked (normalized : details.Normalized language)
    (round : FiniteNumber → JsNumber) {resolve : JsString → ReferenceAnswer}
    (active : resolve details.bankId = .resolved (some .active)) :
    catalogueBankDetailsCheck round language resolve (bankDetailsValue details) = .ok true := by
  simp only [catalogueBankDetailsCheck, parseBankDetailsValue_bankDetailsValue, validateBankDetails,
    normalized.normalizeBankDetails_input, active, decide_true]

theorem validateChange_bankDetailsValue {personRef : JsString}
    (reference : isReference personRef = true) (details : BankDetails) :
    validateChange ⟨personRef, BANK_DETAILS_FIELD, .string (bankDetailsValue details)⟩
        BANK_DETAILS_POLICY = none ↔ (bankDetailsValue details).codePointCount ≤ 512 := by
  have nonempty : (bankDetailsValue details).length ≠ 0 := by
    rw [bankDetailsValue_eq]
    simp
  have allowed : BANK_DETAILS_FIELD ∈ BANK_DETAILS_POLICY.allowed := List.mem_singleton_self _
  simp only [validateChange, reference, allowed, trim_bankDetailsValue, nonempty]
  simp [BANK_DETAILS_POLICY]

/-- A value that was normalized is accepted exactly when the IBAN, the name and five more
characters for each lone surrogate of it, with one more for each quotation mark or backslash,
come to 432 at most. -/
theorem writePathAccepts_iff (language : BankText) (round : FiniteNumber → JsNumber)
    {input : JsValue} {details : BankDetails}
    (accepted : normalizeBankDetails language input = .ok details) :
    WritePathAccepts language round details ↔
      details.iban.length + details.beneficiaryName.codePointCount +
        5 * details.beneficiaryName.codePoints.countP (fun code => IsSurrogateCode code) +
        details.beneficiaryName.codePoints.countP (fun code => IsQuotedCode code) ≤ 432 := by
  have normalized := normalized_of_normalizeBankDetails accepted
  have length := normalized.codePointCount_bankDetailsValue
  rw [sum_escapedLength, length_codePoints] at length
  refine ⟨?_, ?_⟩
  · intro accepts
    have reference : isReference (List.replicate 64 48) = true := by decide
    have short := (validateChange_bankDetailsValue reference details).mp
      (accepts.valid _ reference)
    omega
  · intro short
    exact {
      parsed := parseBankDetailsValue_bankDetailsValue round details
      renormalized := normalized.normalizeBankDetails_input
      checked := fun _ => normalized.checked round
      valid := by
        intro personRef reference
        rw [validateChange_bankDetailsValue reference]
        omega }

section Values

/-- A language in which every string is its own normalization and letters outside ASCII have no
upper case. -/
def plainLanguage : BankText where
  nfkc text := text
  toUpperCase := JsString.toUpperCase
  toUpperCase_eq text ibanUnits := by
    refine (List.map_congr_left ?_).trans (List.map_id _)
    intro unit unitMem
    have ibanUnit := List.all_eq_true.mp ibanUnits unit unitMem
    have bounds : (65 : UInt16).toNat = 65 ∧ (90 : UInt16).toNat = 90 ∧ (97 : UInt16).toNat = 97 := by
      decide
    simp only [isIbanUnit, isUpper, Bool.or_eq_true, isDigit_iff, Bool.and_eq_true,
      decide_eq_true_eq, UInt16.le_iff_toNat_le] at ibanUnit
    rw [upperUnit, if_neg]
    · rfl
    · simp only [Bool.and_eq_true, decide_eq_true_eq, UInt16.le_iff_toNat_le]
      omega

def norwegianDetails (beneficiaryName : JsString) : BankDetails where
  bankId := js "3f0c1b52-9a4e-4c1d-8f7a-2b6d5e4c3a21"
  iban := js "NO9386011117947"
  beneficiaryName := beneficiaryName

def quotedName : JsString := js "Nora \"Nori\" Holm"

theorem writePathAccepts_quotedName :
    WritePathAccepts plainLanguage .finite (norwegianDetails quotedName) := by
  have accepted : normalizeBankDetails plainLanguage (norwegianDetails quotedName).input =
      .ok (norwegianDetails quotedName) := by decide +kernel
  exact (writePathAccepts_iff plainLanguage .finite accepted).mpr (by decide +kernel)

def surrogateName : JsString := List.replicate 70 0xD800

/-- Seventy lone surrogates are a name that is accepted and cannot be written. -/
theorem not_forall_writePathAccepts :
    ¬∀ (language : BankText) (round : FiniteNumber → JsNumber) (input : JsValue)
      (details : BankDetails), (∀ text, language.nfkc (language.nfkc text) = language.nfkc text) →
        (∀ text, (∀ unit ∈ text, isHighSurrogate unit = true) → language.nfkc text = text) →
          normalizeBankDetails language input = .ok details →
            WritePathAccepts language round details := by
  intro all
  have accepted : normalizeBankDetails plainLanguage (norwegianDetails surrogateName).input =
      .ok (norwegianDetails surrogateName) := by decide +kernel
  have refused : validateChange ⟨List.replicate 64 48, BANK_DETAILS_FIELD,
      .string (bankDetailsValue (norwegianDetails surrogateName))⟩
        BANK_DETAILS_POLICY = some .invalidValue := by decide +kernel
  have accepts := all plainLanguage .finite _ _ (fun _ => rfl) (fun _ _ => rfl) accepted
  have valid := accepts.valid (List.replicate 64 48) (by decide)
  exact Option.some_ne_none _ (refused.symm.trans valid)

end Values

end StudentHub.Pay
