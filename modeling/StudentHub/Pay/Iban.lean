import StudentHub.Ecma.Numerals
import StudentHub.Pay.Bank
import Mathlib.Data.Nat.ModEq

/-!
# Which texts are an IBAN

A text is cleaned of white space and hyphens and turned into upper case before its form, its
length and its residue are checked. The upper case of a few characters outside ASCII is a text of
capitals, so a text with such characters passes for the IBAN that it turns into.
-/

namespace StudentHub.Pay

open Ecma JsString

/-- The characters outside ASCII whose upper case is a text of capitals and digits. -/
def CAPITALIZED : List (ℕ × JsString) :=
  [(0xDF, js "SS"), (0x131, js "I"), (0x17F, js "S"), (0xFB00, js "FF"), (0xFB01, js "FI"),
    (0xFB02, js "FL"), (0xFB03, js "FFI"), (0xFB04, js "FFL"), (0xFB05, js "ST"), (0xFB06, js "ST")]

/-- The upper case of the other characters outside ASCII, in which something is no capital and no
digit. -/
structure UpperCase where
  foreign : ℕ → JsString
  exists_foreign : ∀ code, 128 ≤ code → CAPITALIZED.lookup code = none →
    ∃ unit ∈ foreign code, isIbanUnit unit = false

namespace UpperCase

variable (language : UpperCase)

def upper (code : ℕ) : JsString :=
  if code < 128 then [upperUnit code.toUInt16]
  else (CAPITALIZED.lookup code).getD (language.foreign code)

/-- `text.toUpperCase()`, which turns each code point into upper case. -/
def toUpperCase (text : JsString) : JsString := text.codePoints.flatMap language.upper

end UpperCase

def cleaned (text : JsString) : JsString :=
  text.filter fun unit => !(isWhiteSpace unit || unit = 45)

/-- The digits that a character is written with: a letter is a number from 10 to 35. -/
def letterDigits (char : UInt16) : JsString :=
  if isUpper char then decimal (char.toNat - 55) else [char]

/-- The first four characters are moved to the end, and the letters are written as numbers. -/
def ibanNumber (iban : JsString) : ℕ := numeral ((iban.drop 4 ++ iban.take 4).flatMap letterDigits)

/-- A country, check digits and an account of the country's length, with the residue 1. -/
structure ValidIban (iban : JsString) : Prop where
  form : ∃ country check account, iban = country ++ check ++ account ∧ country.length = 2 ∧
    check.length = 2 ∧ 11 ≤ account.length ∧ account.length ≤ 30 ∧
    country.all isUpper = true ∧ check.all isDigit = true ∧ account.all isIbanUnit = true
  registered : IBAN_LENGTHS.lookup (iban.take 2) = some iban.length
  residue : ibanNumber iban ≡ 1 [MOD 97]

section Valid

variable {iban text : JsString}

theorem isIbanPattern_iff : isIbanPattern iban = true ↔ ∃ country check account,
    iban = country ++ check ++ account ∧ country.length = 2 ∧ check.length = 2 ∧
      11 ≤ account.length ∧ account.length ≤ 30 ∧ country.all isUpper = true ∧
      check.all isDigit = true ∧ account.all isIbanUnit = true := by
  simp only [isIbanPattern, Bool.and_eq_true, decide_eq_true_eq]
  constructor
  · rintro ⟨⟨⟨⟨country, check⟩, account⟩, long⟩, short⟩
    refine ⟨iban.take 2, (iban.drop 2).take 2, iban.drop 4, ?_, ?_, ?_, ?_, ?_, country, check,
      account⟩
    · have later : iban.drop 4 = (iban.drop 2).drop 2 := by rw [List.drop_drop]
      rw [later, List.append_assoc, List.take_append_drop, List.take_append_drop]
    · rw [List.length_take]
      omega
    · rw [List.length_take, List.length_drop]
      omega
    · rw [List.length_drop]
      omega
    · rw [List.length_drop]
      omega
  · rintro ⟨country, check, account, rfl, two, twoMore, long, short, isCountry, isCheck, isAccount⟩
    have first : (country ++ check ++ account).take 2 = country := by
      rw [List.append_assoc, List.take_left' two]
    have rest : (country ++ check ++ account).drop 2 = check ++ account := by
      rw [List.append_assoc, List.drop_left' two]
    have four : (country ++ check ++ account).drop 4 = account := by
      rw [List.drop_left']
      rw [List.length_append]
      omega
    rw [first, rest, four, List.take_left' twoMore, List.length_append, List.length_append]
    exact ⟨⟨⟨⟨isCountry, isCheck⟩, isAccount⟩, by omega⟩, by omega⟩

theorem foldl_remainder (digits : JsString) :
    digits.foldl (fun remainder digit => (remainder * 10 + digitValue digit) % 97) 0 =
      numeral digits % 97 := by
  induction digits using List.reverseRecOn with
  | nil => rfl
  | append_singleton digits digit ih =>
      rw [List.foldl_append, ih, numeral_append_singleton, List.foldl_cons, List.foldl_nil]
      omega

theorem ibanChecksumValid_iff : ibanChecksumValid iban = true ↔ ibanNumber iban ≡ 1 [MOD 97] := by
  have loop := foldl_remainder ((iban.drop 4 ++ iban.take 4).flatMap letterDigits)
  rw [List.foldl_flatMap] at loop
  rw [ibanChecksumValid, decide_eq_true_eq]
  exact (Eq.congr_left loop).trans Iff.rfl

theorem ValidIban.units (valid : ValidIban iban) : ∀ unit ∈ iban, isIbanUnit unit = true :=
  List.all_eq_true.mp (all_isIbanUnit_of_isIbanPattern (isIbanPattern_iff.mpr valid.form))

theorem normalizeIban_eq_some_iff {language : BankText} :
    normalizeIban language (.string text) = some iban ↔
      iban = language.toUpperCase (cleaned text) ∧ ValidIban iban := by
  have isClean : text.filter (fun unit => !(isWhiteSpace unit || unit = 45)) = cleaned text := rfl
  simp only [normalizeIban, isClean]
  constructor
  · intro normalized
    split_ifs at normalized with mismatch unregistered isChecked
    rw [Bool.not_eq_true', Bool.not_eq_false] at mismatch
    rw [ne_eq, not_not] at unregistered
    cases normalized
    exact ⟨rfl, isIbanPattern_iff.mp mismatch, unregistered, ibanChecksumValid_iff.mp isChecked⟩
  · rintro ⟨rfl, valid⟩
    rw [isIbanPattern_iff.mpr valid.form, if_neg (by decide), if_neg (not_not.mpr valid.registered),
      if_pos (ibanChecksumValid_iff.mpr valid.residue)]

end Valid

section Foreign

variable {language : UpperCase} {text : JsString}

theorem codePoints_small_iff : (∀ code ∈ text.codePoints, code < 128) ↔
    ∀ unit ∈ text, unit.toNat < 128 := by
  have pairSize : ∀ {unit : UInt16}, (isHighSurrogate unit = true ∨ isLowSurrogate unit = true) →
      ¬unit.toNat < 128 := by
    intro unit half small
    simp only [isHighSurrogate, isLowSurrogate, Bool.and_eq_true, decide_eq_true_eq,
      UInt16.le_iff_toNat_le, UInt16.reduceToNat] at half
    omega
  induction text using codePoints.induct with
  | case1 => simp [codePoints]
  | case2 unit => simp [codePoints]
  | case3 first second rest pair ih =>
      rw [Bool.and_eq_true] at pair
      have notSmall := pairSize (.inl pair.1)
      simp only [codePoints, pair.1, pair.2, Bool.and_self, if_true, List.forall_mem_cons]
      refine ⟨fun small => ?_, fun small => absurd small.1 notSmall⟩
      have tooSmall := small.1
      omega
  | case4 first second rest single ih =>
      rw [codePoints, if_neg single, List.forall_mem_cons, List.forall_mem_cons]
      exact and_congr_right fun _ => ih

theorem codePoints_of_small (small : ∀ unit ∈ text, unit.toNat < 128) :
    text.codePoints = text.map UInt16.toNat := by
  have notHigh : ∀ unit ∈ text, isHighSurrogate unit = false := by
    intro unit isUnit
    have below := small unit isUnit
    rw [Bool.eq_false_iff]
    intro isHigh
    simp only [isHighSurrogate, Bool.and_eq_true, decide_eq_true_eq, UInt16.le_iff_toNat_le,
      UInt16.reduceToNat] at isHigh
    omega
  have joined := codePoints_append_of_forall notHigh []
  rw [List.append_nil] at joined
  rw [joined, codePoints, List.append_nil]

theorem UpperCase.toUpperCase_of_small (small : ∀ unit ∈ text, unit.toNat < 128) :
    language.toUpperCase text = JsString.toUpperCase text := by
  rw [UpperCase.toUpperCase, codePoints_of_small small, JsString.toUpperCase, List.flatMap_map,
    List.map_eq_flatMap]
  apply List.flatMap_congr
  intro unit isUnit
  rw [UpperCase.upper, if_pos (small unit isUnit), Nat.toUInt16, UInt16.ofNat_toNat]

theorem isIbanUnit_iff {unit : UInt16} : isIbanUnit unit = true ↔
    (65 ≤ unit.toNat ∧ unit.toNat ≤ 90) ∨ (48 ≤ unit.toNat ∧ unit.toNat ≤ 57) := by
  simp only [isIbanUnit, isUpper, Bool.or_eq_true, Bool.and_eq_true, decide_eq_true_eq,
    UInt16.le_iff_toNat_le, isDigit_iff, UInt16.reduceToNat]

theorem isLetter_or_isDigit_of_upperUnit {unit : UInt16} (isUpper : isIbanUnit (upperUnit unit) = true) :
    isLetter unit = true ∨ isDigit unit = true := by
  simp only [isLetter, Bool.or_eq_true, Bool.and_eq_true, decide_eq_true_eq,
    UInt16.le_iff_toNat_le, isDigit_iff, UInt16.reduceToNat]
  by_cases lower : 97 ≤ unit.toNat ∧ unit.toNat ≤ 122
  · exact .inl (.inr lower)
  · have same : upperUnit unit = unit := by
      rw [upperUnit, if_neg]
      simpa [UInt16.le_iff_toNat_le] using lower
    rw [same, isIbanUnit_iff] at isUpper
    rcases isUpper with capital | digit
    · exact .inl (.inl capital)
    · exact .inr digit

def capitalized (text : JsString) : JsString :=
  text.codePoints.flatMap fun code =>
    if code < 128 then [upperUnit code.toUInt16] else (CAPITALIZED.lookup code).getD []

/-- The text has characters outside ASCII, all of which become capitals, and an IBAN comes out. -/
structure Disguised (text : JsString) : Prop where
  foreign : ∃ code ∈ text.codePoints, 128 ≤ code
  known : ∀ code ∈ text.codePoints, 128 ≤ code → (CAPITALIZED.lookup code).isSome = true
  valid : ValidIban (capitalized text)

theorem UpperCase.toUpperCase_of_known
    (known : ∀ code ∈ text.codePoints, 128 ≤ code → (CAPITALIZED.lookup code).isSome = true) :
    language.toUpperCase text = capitalized text := by
  apply List.flatMap_congr
  intro code isCode
  rw [UpperCase.upper]
  by_cases small : code < 128
  · rw [if_pos small, if_pos small]
  · rcases Option.isSome_iff_exists.mp (known code isCode (Nat.le_of_not_lt small)) with
      ⟨upper, isUpper⟩
    rw [if_neg small, if_neg small, isUpper]
    rfl

theorem UpperCase.not_valid_of_unknown {code : ℕ} (isCode : code ∈ text.codePoints)
    (large : 128 ≤ code) (unknown : CAPITALIZED.lookup code = none) :
    ¬ValidIban (language.toUpperCase text) := by
  intro valid
  rcases language.exists_foreign code large unknown with ⟨unit, isUnit, isOther⟩
  have isUpper : unit ∈ language.toUpperCase text := by
    refine List.mem_flatMap.mpr ⟨code, isCode, ?_⟩
    rw [UpperCase.upper, if_neg (Nat.not_lt.mpr large), unknown]
    exact isUnit
  rw [valid.units unit isUpper] at isOther
  cases isOther

theorem not_valid_of_foreign (foreign : ¬∀ unit ∈ text, unit.toNat < 128) :
    ¬ValidIban (JsString.toUpperCase text) := by
  intro valid
  apply foreign
  intro unit isUnit
  have isIban := valid.units (upperUnit unit) (List.mem_map_of_mem isUnit)
  have known := isLetter_or_isDigit_of_upperUnit isIban
  simp only [isLetter, Bool.or_eq_true, Bool.and_eq_true, decide_eq_true_eq,
    UInt16.le_iff_toNat_le, isDigit_iff, UInt16.reduceToNat] at known
  omega

theorem UpperCase.toUpperCase_eq_self (allIban : text.all isIbanUnit = true) :
    language.toUpperCase text = text := by
  rw [List.all_eq_true] at allIban
  rw [UpperCase.toUpperCase_of_small]
  · refine (List.map_congr_left fun unit isUnit => ?_).trans (List.map_id text)
    have bounds := isIbanUnit_iff.mp (allIban unit isUnit)
    rw [upperUnit, if_neg]
    · rfl
    · simp only [Bool.and_eq_true, decide_eq_true_eq, UInt16.le_iff_toNat_le, UInt16.reduceToNat]
      omega
  · intro unit isUnit
    have bounds := isIbanUnit_iff.mp (allIban unit isUnit)
    omega

end Foreign

def UpperCase.bankText (language : UpperCase) (nfkc : JsString → JsString) : BankText where
  nfkc := nfkc
  toUpperCase := language.toUpperCase
  toUpperCase_eq _ := language.toUpperCase_eq_self

/-- The text is an IBAN when and only when its ASCII capitals are a valid one, and then it is of
letters, digits, white space and hyphens. -/
structure NormalizesIban (language : BankText) (text : JsString) : Prop where
  accepted : ∀ iban, normalizeIban language (.string text) = some iban ↔
    iban = JsString.toUpperCase (cleaned text) ∧ ValidIban iban
  ascii : ∀ iban, normalizeIban language (.string text) = some iban → ∀ unit ∈ text,
    isLetter unit = true ∨ isDigit unit = true ∨ isWhiteSpace unit = true ∨ unit = 45

/-- A text is treated as it should be unless it is one that turns into an IBAN. -/
theorem normalizesIban_iff (language : UpperCase) (nfkc : JsString → JsString) (text : JsString) :
    NormalizesIban (language.bankText nfkc) text ↔ ¬Disguised (cleaned text) := by
  have isSome : ∀ iban, normalizeIban (language.bankText nfkc) (.string text) = some iban ↔
      iban = language.toUpperCase (cleaned text) ∧ ValidIban iban :=
    fun iban => normalizeIban_eq_some_iff
  by_cases small : ∀ unit ∈ cleaned text, unit.toNat < 128
  · have sameUpper := @UpperCase.toUpperCase_of_small language (cleaned text) small
    refine ⟨fun _ disguised => ?_, fun _ => ⟨?_, ?_⟩⟩
    · rcases disguised.foreign with ⟨code, isCode, large⟩
      exact absurd (codePoints_small_iff.mpr small code isCode) (Nat.not_lt.mpr large)
    · intro iban
      rw [isSome, sameUpper]
    · intro iban normalized unit isUnit
      rcases (isSome iban).mp normalized with ⟨same, valid⟩
      rw [sameUpper] at same
      by_cases separates : (isWhiteSpace unit || unit = 45) = true
      · rw [Bool.or_eq_true, decide_eq_true_eq] at separates
        exact .inr (.inr separates)
      · have isKept : unit ∈ cleaned text := List.mem_filter.mpr ⟨isUnit, by simpa using separates⟩
        have isIban := valid.units (upperUnit unit) (same ▸ List.mem_map_of_mem isKept)
        rcases isLetter_or_isDigit_of_upperUnit isIban with letter | digit
        · exact .inl letter
        · exact .inr (.inl digit)
  · have notCapitals := not_valid_of_foreign small
    -- Here the text should be refused.
    have refused : NormalizesIban (language.bankText nfkc) text ↔
        ¬ValidIban (language.toUpperCase (cleaned text)) := by
      refine ⟨fun normalizes valid => ?_, fun invalid => ⟨fun iban => ?_, fun iban normalized => ?_⟩⟩
      · have isValid := (normalizes.accepted _).mp ((isSome _).mpr ⟨rfl, valid⟩)
        exact notCapitals (isValid.1 ▸ isValid.2)
      · rw [isSome]
        constructor
        · rintro ⟨rfl, valid⟩
          exact absurd valid invalid
        · rintro ⟨rfl, valid⟩
          exact absurd valid notCapitals
      · rcases (isSome iban).mp normalized with ⟨rfl, valid⟩
        exact absurd valid invalid
    rw [refused]
    by_cases known : ∀ code ∈ (cleaned text).codePoints, 128 ≤ code →
        (CAPITALIZED.lookup code).isSome = true
    · rw [UpperCase.toUpperCase_of_known known]
      rw [← codePoints_small_iff] at small
      simp only [not_forall, Nat.not_lt] at small
      rcases small with ⟨code, isCode, large⟩
      exact ⟨fun invalid disguised => invalid disguised.valid,
        fun plain valid => plain ⟨⟨code, isCode, large⟩, known, valid⟩⟩
    · refine ⟨fun _ disguised => known disguised.known, fun _ => ?_⟩
      simp only [not_forall] at known
      rcases known with ⟨code, isCode, large, unknown⟩
      rw [Bool.not_eq_true, Option.isSome_eq_false_iff, Option.isNone_iff_eq_none] at unknown
      exact UpperCase.not_valid_of_unknown isCode large unknown

def plainUpperCase : UpperCase where
  foreign _ := [0xFFFD]
  exists_foreign _ _ _ := ⟨0xFFFD, List.mem_singleton_self _, by decide⟩

/-- A long s passes for the capital S. -/
theorem not_normalizesIban_longS :
    normalizeIban (plainUpperCase.bankText id) (.string (js "GB82 WEſT 1234 5698 7654 32")) =
        some (js "GB82WEST12345698765432") ∧
      ¬NormalizesIban (plainUpperCase.bankText id) (js "GB82 WEſT 1234 5698 7654 32") := by
  have accepted : normalizeIban (plainUpperCase.bankText id)
      (.string (js "GB82 WEſT 1234 5698 7654 32")) = some (js "GB82WEST12345698765432") := by
    decide +kernel
  refine ⟨accepted, fun normalizes => ?_⟩
  have isLongS : (0x17F : UInt16) ∈ js "GB82 WEſT 1234 5698 7654 32" := by decide +kernel
  have known := normalizes.ascii _ accepted 0x17F isLongS
  revert known
  decide

end StudentHub.Pay
