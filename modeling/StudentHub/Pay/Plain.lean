import StudentHub.Ecma.CodePoints
import StudentHub.Pay.Contract

/-!
# Texts that are written as they are

Identifiers, days and amounts hold printing ASCII characters alone and no quotation mark, so
that `JSON.stringify` writes each of them as it is between two quotation marks.
-/

namespace StudentHub.Pay

open Ecma JsString Json

def Plain (text : JsString) : Prop := ∀ unit ∈ text, isPlain unit = true

theorem Plain.append {front back : JsString} (frontPlain : Plain front) (backPlain : Plain back) :
    Plain (front ++ back) := by
  intro unit unitMem
  rcases List.mem_append.mp unitMem with inFront | inBack
  · exact frontPlain unit inFront
  · exact backPlain unit inBack

theorem isPlain_of_isDigit {unit : UInt16} (decimal : isDigit unit = true) :
    isPlain unit = true := by
  rw [isDigit_iff] at decimal
  rw [isPlain_iff]
  omega

theorem isPlain_of_isLetter {unit : UInt16} (letter : isLetter unit = true) :
    isPlain unit = true := by
  have bounds : (65 : UInt16).toNat = 65 ∧ (90 : UInt16).toNat = 90 ∧ (97 : UInt16).toNat = 97 ∧
      (122 : UInt16).toNat = 122 := by decide
  simp only [isLetter, Bool.or_eq_true, Bool.and_eq_true, decide_eq_true_eq,
    UInt16.le_iff_toNat_le] at letter
  rw [isPlain_iff]
  omega

theorem isPlain_of_isHex {unit : UInt16} (hex : isHex unit = true) : isPlain unit = true := by
  have bounds : (65 : UInt16).toNat = 65 ∧ (70 : UInt16).toNat = 70 ∧ (97 : UInt16).toNat = 97 ∧
      (102 : UInt16).toNat = 102 := by decide
  simp only [isHex, isDigit_iff, Bool.or_eq_true, Bool.and_eq_true, decide_eq_true_eq,
    UInt16.le_iff_toNat_le] at hex
  rw [isPlain_iff]
  omega

def uuidClasses : List (UInt16 → Bool) :=
  let hex := List.replicate 4 isHex
  let version (unit : UInt16) : Bool := 49 ≤ unit && unit ≤ 53
  let variant (unit : UInt16) : Bool := unit ∈ js "89abAB"
  let dash := [fun unit : UInt16 => decide (unit = 45)]
  hex ++ hex ++ dash ++ hex ++ dash ++ version :: hex.take 3 ++ dash ++
    variant :: hex.take 3 ++ dash ++ hex ++ hex ++ hex

theorem isUuid_eq (text : JsString) : isUuid text = text.matchesClasses uuidClasses := rfl

theorem isUuid_toLowerCase (text : JsString) : isUuid text.toLowerCase = isUuid text := by
  have letters : (uuidClasses.all fun fits => (List.range 26).all fun offset =>
      fits ((65 + offset).toUInt16 + 32) == fits (65 + offset).toUInt16) = true := by
    decide +kernel
  apply matchesClasses_map
  intro fits fitsMem
  exact fits_lowerUnit_of_letters (List.all_eq_true.mp letters fits fitsMem)

theorem length_of_isUuid {text : JsString} (uuid : isUuid text = true) : text.length = 36 := by
  rw [isUuid_eq] at uuid
  exact length_of_matchesClasses uuid

theorem plain_of_matchesClasses {classes : List (UInt16 → Bool)} {text : JsString}
    (plain : ∀ fits ∈ classes, ∀ unit, fits unit = true → isPlain unit = true)
    (matched : text.matchesClasses classes = true) : Plain text := by
  induction classes generalizing text with
  | nil =>
      cases text with
      | nil => simp [Plain]
      | cons unit rest => simp [matchesClasses] at matched
  | cons fits classes ih =>
      cases text with
      | nil => simp [matchesClasses] at matched
      | cons unit rest =>
          rw [matchesClasses, Bool.and_eq_true] at matched
          rw [List.forall_mem_cons] at plain
          rw [Plain, List.forall_mem_cons]
          exact ⟨plain.1 unit matched.1, ih plain.2 matched.2⟩

theorem plain_of_isUuid {text : JsString} (uuid : isUuid text = true) : Plain text := by
  apply @plain_of_matchesClasses uuidClasses
  · have version : ∀ unit : UInt16, (49 ≤ unit && unit ≤ 53) = true → isPlain unit = true := by
      intro unit inRange
      have bounds : (49 : UInt16).toNat = 49 ∧ (53 : UInt16).toNat = 53 := by decide
      simp only [Bool.and_eq_true, decide_eq_true_eq, UInt16.le_iff_toNat_le] at inRange
      rw [isPlain_iff]
      omega
    have variant : ∀ unit : UInt16, decide (unit ∈ js "89abAB") = true → isPlain unit = true := by
      have listed : ((js "89abAB").all isPlain) = true := by decide
      intro unit unitMem
      exact List.all_eq_true.mp listed unit (of_decide_eq_true unitMem)
    have dash : ∀ unit : UInt16, decide (unit = 45) = true → isPlain unit = true := by
      intro unit isDash
      rw [of_decide_eq_true isDash]
      decide
    have hex : ∀ unit : UInt16, isHex unit = true → isPlain unit = true :=
      fun _ => isPlain_of_isHex
    have quartet : ∀ fits ∈ List.replicate 4 isHex, ∀ unit, fits unit = true →
        isPlain unit = true := by
      intro fits fitsMem
      rw [List.eq_of_mem_replicate fitsMem]
      exact hex
    have triple : ∀ fits ∈ (List.replicate 4 isHex).take 3, ∀ unit, fits unit = true →
        isPlain unit = true := fun fits fitsMem => quartet fits (List.mem_of_mem_take fitsMem)
    simp only [uuidClasses, List.forall_mem_append, List.forall_mem_cons, List.not_mem_nil,
      IsEmpty.forall_iff, implies_true, and_true, and_assoc]
    exact ⟨quartet, quartet, dash, quartet, dash, version, triple, dash, variant, triple, dash,
      quartet, quartet, quartet⟩
  · rw [← isUuid_eq]
    exact uuid

theorem plain_of_isPartyId {text : JsString} (party : isPartyId text = true) :
    Plain text ∧ text.length ≤ 128 := by
  have others : ((js "._:@-").all isPlain) = true := by decide
  have first : ∀ unit : UInt16, (isLetter unit || isDigit unit) = true → isPlain unit = true := by
    intro unit either
    rcases (Bool.or_eq_true _ _).mp either with letter | decimal
    · exact isPlain_of_isLetter letter
    · exact isPlain_of_isDigit decimal
  cases text with
  | nil => simp [isPartyId] at party
  | cons unit rest =>
      simp only [isPartyId, Bool.and_eq_true, decide_eq_true_eq, List.all_eq_true] at party
      rcases party with ⟨⟨opens, short⟩, later⟩
      refine ⟨?_, by simp only [List.length_cons]; omega⟩
      rw [Plain, List.forall_mem_cons]
      refine ⟨first unit opens, ?_⟩
      intro next nextMem
      rcases (Bool.or_eq_true _ _).mp (later next nextMem) with either | listed
      · exact first next either
      · exact List.all_eq_true.mp others next (of_decide_eq_true listed)

theorem plain_of_isDate {text : JsString} (dated : isDate text = true) :
    Plain text ∧ text.length = 10 := by
  have digit : ∀ unit : UInt16, isDigit unit = true → isPlain unit = true :=
    fun _ => isPlain_of_isDigit
  have dash : ∀ unit : UInt16, decide (unit = 45) = true → isPlain unit = true := by
    intro unit isDash
    rw [of_decide_eq_true isDash]
    decide
  have pair : ∀ fits ∈ List.replicate 2 isDigit, ∀ unit, fits unit = true →
      isPlain unit = true := by
    intro fits fitsMem
    rw [List.eq_of_mem_replicate fitsMem]
    exact digit
  simp only [isDate, Bool.and_eq_true] at dated
  have pattern := dated.1
  simp only [isDatePattern] at pattern
  refine ⟨plain_of_matchesClasses ?_ pattern, length_of_matchesClasses pattern⟩
  simp only [List.forall_mem_append, List.forall_mem_singleton, and_assoc]
  exact ⟨pair, pair, dash, pair, dash, pair⟩

theorem isWholePart_digits {whole : JsString} (isWhole : isWholePart whole = true) :
    (∀ unit ∈ whole, isDigit unit = true) ∧ whole ≠ [] ∧ whole.length ≤ 9 := by
  match whole with
  | [] => simp [isWholePart] at isWhole
  | [unit] =>
      simp only [isWholePart] at isWhole
      simpa using isWhole
  | first :: second :: rest =>
      simp only [isWholePart, Bool.and_eq_true, decide_eq_true_eq, List.all_eq_true,
        List.length_cons] at isWhole
      rcases isWhole with ⟨⟨⟨opens, -⟩, short⟩, later⟩
      refine ⟨?_, by simp, by simp only [List.length_cons]; omega⟩
      rw [List.forall_mem_cons]
      exact ⟨opens, later⟩

/-- What `canonicalDecimal` makes of an accepted amount. -/
structure CanonicalAmount (text : JsString) : Prop where
  plain : Plain text
  short : text.length ≤ 13
  canonical : canonicalDecimal (.string text) = some text

theorem matchDecimal_eq_some {text whole fraction : JsString}
    (matched : matchDecimal text = some (whole, fraction)) :
    isWholePart whole = true ∧ fraction.length ≤ 3 ∧ ∀ unit ∈ fraction, isDigit unit = true := by
  simp only [matchDecimal] at matched
  split_ifs at matched with notWhole
  simp only [Bool.not_eq_true', Bool.not_eq_false] at notWhole
  split at matched
  · rw [Option.some.injEq, Prod.mk.injEq] at matched
    rw [← matched.1, ← matched.2]
    exact ⟨notWhole, by simp, by simp⟩
  · split_ifs at matched with isFraction
    rw [Option.some.injEq, Prod.mk.injEq] at matched
    rw [← matched.1, ← matched.2]
    simp only [Bool.and_eq_true, decide_eq_true_eq, List.all_eq_true] at isFraction
    exact ⟨notWhole, isFraction.1.2, isFraction.2⟩

theorem isWhiteSpace_of_isDigit {unit : UInt16} (decimal : isDigit unit = true) :
    isWhiteSpace unit = false := by
  have listed : ((List.range 10).all fun value => !isWhiteSpace (digit value)) = true := by decide
  rw [isDigit_iff] at decimal
  have inRange : unit.toNat - 48 ∈ List.range 10 := List.mem_range.mpr (by omega)
  have known := List.all_eq_true.mp listed _ inRange
  rw [digit, Nat.add_sub_cancel' decimal.1] at known
  simpa using known

theorem canonicalDecimal_three {whole places : JsString} (isWhole : isWholePart whole = true)
    (width : places.length = 3) (decimals : ∀ unit ∈ places, isDigit unit = true) :
    CanonicalAmount (whole ++ 46 :: places) := by
  rcases isWholePart_digits isWhole with ⟨wholeDigits, nonempty, short⟩
  have noPoint : ∀ unit ∈ whole, decide (unit ≠ 46) = true := by
    intro unit unitMem
    have decimal := wholeDigits unit unitMem
    rw [decide_eq_true_eq]
    rintro rfl
    exact absurd decimal (by decide)
  have taken : (whole ++ 46 :: places).takeWhile (fun unit => decide (unit ≠ 46)) = whole := by
    rw [List.takeWhile_append_of_pos noPoint]
    simp
  have dropped : (whole ++ 46 :: places).dropWhile (fun unit => decide (unit ≠ 46)) =
      46 :: places := by
    rw [List.dropWhile_append_of_pos noPoint]
    simp
  have trimmed : (whole ++ 46 :: places).trim = whole ++ 46 :: places := by
    rcases whole with _ | ⟨first, rest⟩
    · contradiction
    · rcases List.eq_nil_or_concat places with none | ⟨front, last, rfl⟩
      · simp [none] at width
      · have edges := trim_eq_self (rest ++ 46 :: front)
          (isWhiteSpace_of_isDigit (wholeDigits first List.mem_cons_self))
          (isWhiteSpace_of_isDigit (decimals last (by simp)))
        simpa using edges
  refine ⟨?_, by simp only [List.length_append, List.length_cons]; omega, ?_⟩
  · apply Plain.append (fun unit unitMem => isPlain_of_isDigit (wholeDigits unit unitMem))
    rw [Plain, List.forall_mem_cons]
    exact ⟨by decide, fun unit unitMem => isPlain_of_isDigit (decimals unit unitMem)⟩
  · have isFraction : (1 ≤ places.length && places.length ≤ 3 && places.all isDigit) = true := by
      simpa [width] using decimals
    have matched : matchDecimal (whole ++ 46 :: places) = some (whole, places) := by
      simp only [matchDecimal, taken, dropped, isWhole, isFraction]
      simp
    simp only [canonicalDecimal, Option.pure_def, Option.bind_eq_bind, Option.bind_some, trimmed,
      matched, width]
    simp

theorem canonicalAmount_of_canonicalDecimal {value : JsValue} {text : JsString}
    (canonical : canonicalDecimal value = some text) : CanonicalAmount text := by
  have read : ∃ raw parts, matchDecimal (trim raw) = some parts ∧
      parts.1 ++ [46] ++ parts.2 ++ List.replicate (3 - parts.2.length) 48 = text := by
    simp only [canonicalDecimal, Option.bind_eq_bind, Option.pure_def] at canonical
    split at canonical
    · rcases Option.bind_eq_some_iff.mp canonical with ⟨raw, -, canonical⟩
      rcases Option.bind_eq_some_iff.mp canonical with ⟨parts, matched, written⟩
      exact ⟨raw, parts, matched, Option.some.inj written⟩
    · rcases Option.bind_eq_some_iff.mp canonical with ⟨raw, -, canonical⟩
      rcases Option.bind_eq_some_iff.mp canonical with ⟨parts, matched, written⟩
      exact ⟨raw, parts, matched, Option.some.inj written⟩
    · simp at canonical
  rcases read with ⟨raw, ⟨whole, fraction⟩, matched, written⟩
  rcases matchDecimal_eq_some matched with ⟨isWhole, short, decimals⟩
  have padded : text = whole ++ 46 :: (fraction ++ List.replicate (3 - fraction.length) 48) := by
    simpa using written.symm
  rw [padded]
  apply canonicalDecimal_three isWhole
  · simp only [List.length_append, List.length_replicate]
    omega
  · intro unit unitMem
    rcases List.mem_append.mp unitMem with inFraction | isZero
    · exact decimals unit inFraction
    · rw [List.eq_of_mem_replicate isZero]
      decide

end StudentHub.Pay
