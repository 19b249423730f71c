import StudentHub.Ecma.Text
import Mathlib.Tactic.Ring

/-!
# Digits and character classes

Fixed-width decimal numerals, read and written, and the code-unit classes the
regular expressions of the source are made of. Numerals of one width compare as
the numbers they write.
-/

namespace Ecma

namespace JsString

/-- `\d` -/
def isDigit (unit : UInt16) : Bool := 48 ≤ unit && unit ≤ 57

/-- `[A-Za-z]` -/
def isLetter (unit : UInt16) : Bool :=
  (65 ≤ unit && unit ≤ 90) || (97 ≤ unit && unit ≤ 122)

/-- `[0-9a-f]` under the flag `i` -/
def isHex (unit : UInt16) : Bool :=
  isDigit unit || (65 ≤ unit && unit ≤ 70) || (97 ≤ unit && unit ≤ 102)

/-- `[0-9a-f]` -/
def isLowerHex (unit : UInt16) : Bool := isDigit unit || (97 ≤ unit && unit ≤ 102)

def lowerUnit (unit : UInt16) : UInt16 := if 65 ≤ unit && unit ≤ 90 then unit + 32 else unit

/-- `toLowerCase` of the strings it is applied to, which hold no letter outside ASCII. -/
def toLowerCase (text : JsString) : JsString := text.map lowerUnit

/-- `[A-Z]` -/
def isUpper (unit : UInt16) : Bool := 65 ≤ unit && unit ≤ 90

def upperUnit (unit : UInt16) : UInt16 := if 97 ≤ unit && unit ≤ 122 then unit - 32 else unit

/-- `toUpperCase` of the strings it is applied to, which hold ASCII letters alone. -/
def toUpperCase (text : JsString) : JsString := text.map upperUnit

def matchesClasses : List (UInt16 → Bool) → JsString → Bool
  | [], [] => true
  | fits :: classes, unit :: rest => fits unit && matchesClasses classes rest
  | _, _ => false

theorem mem_of_matchesClasses {classes : List (UInt16 → Bool)} {text : JsString}
    (matched : matchesClasses classes text = true) {unit : UInt16} (unitMem : unit ∈ text) :
    ∃ fits ∈ classes, fits unit = true := by
  induction classes generalizing text with
  | nil => cases text <;> simp_all [matchesClasses]
  | cons fits classes ih =>
      cases text with
      | nil => cases unitMem
      | cons first text =>
          rw [matchesClasses, Bool.and_eq_true] at matched
          rcases List.mem_cons.mp unitMem with rfl | later
          · exact ⟨fits, List.mem_cons_self, matched.1⟩
          · rcases ih matched.2 later with ⟨other, otherMem, holds⟩
            exact ⟨other, List.mem_cons_of_mem _ otherMem, holds⟩

def digitValue (unit : UInt16) : ℕ := unit.toNat - 48

def digit (value : ℕ) : UInt16 := (48 + value).toUInt16

def numeral (text : JsString) : ℕ :=
  text.foldl (fun number unit => 10 * number + digitValue unit) 0

/-- The last `width` decimal digits of a number. -/
def digits : ℕ → ℕ → JsString
  | 0, _ => []
  | width + 1, number => digits width (number / 10) ++ [digit (number % 10)]

end JsString

open JsString

theorem toNat_digit {value : ℕ} (small : value < 10) : (digit value).toNat = 48 + value := by
  rw [digit]
  apply UInt16.toNat_ofNat_of_lt'
  change 48 + value < 65536
  omega

theorem digitValue_digit {value : ℕ} (small : value < 10) : digitValue (digit value) = value := by
  rw [digitValue, toNat_digit small]
  omega

theorem isDigit_iff {unit : UInt16} :
    isDigit unit = true ↔ 48 ≤ unit.toNat ∧ unit.toNat ≤ 57 := by
  simp only [isDigit, Bool.and_eq_true, decide_eq_true_eq, UInt16.le_iff_toNat_le]
  rfl

theorem isDigit_digit {value : ℕ} (small : value < 10) : isDigit (digit value) = true := by
  rw [isDigit_iff, toNat_digit small]
  omega

theorem digit_digitValue {unit : UInt16} (decimal : isDigit unit = true) :
    digit (digitValue unit) = unit := by
  rw [isDigit_iff] at decimal
  apply UInt16.toNat_inj.mp
  rw [toNat_digit (by simp only [digitValue]; omega), digitValue]
  omega

@[simp]
theorem length_digits (width number : ℕ) : (digits width number).length = width := by
  induction width generalizing number with
  | zero => rfl
  | succ width shorter => simp [digits, shorter]

theorem isDigit_of_mem_digits {width number : ℕ} {unit : UInt16}
    (unitMem : unit ∈ digits width number) : isDigit unit = true := by
  induction width generalizing number with
  | zero => simp [digits] at unitMem
  | succ width shorter =>
    simp only [digits, List.mem_append, List.mem_singleton] at unitMem
    rcases unitMem with inFront | rfl
    · exact shorter inFront
    · exact isDigit_digit (Nat.mod_lt _ (by decide))

@[simp]
theorem numeral_append_singleton (text : JsString) (unit : UInt16) :
    numeral (text ++ [unit]) = 10 * numeral text + digitValue unit := by
  simp [numeral]

theorem numeral_digits {width number : ℕ} (fits : number < 10 ^ width) :
    numeral (digits width number) = number := by
  induction width generalizing number with
  | zero =>
    have none : number = 0 := by simpa using fits
    rw [none]
    rfl
  | succ width shorter =>
    have front : number / 10 < 10 ^ width := by
      rw [pow_succ] at fits
      omega
    rw [digits, numeral_append_singleton, shorter front,
      digitValue_digit (Nat.mod_lt _ (by decide))]
    omega

theorem digits_numeral {text : JsString} (decimal : ∀ unit ∈ text, isDigit unit = true) :
    digits text.length (numeral text) = text := by
  induction text using List.reverseRecOn with
  | nil => rfl
  | append_singleton front last shorter =>
    have lastDigit : isDigit last = true := decimal last (by simp)
    have value : digitValue last < 10 := by
      rw [isDigit_iff] at lastDigit
      simp only [digitValue]
      omega
    have frontDigits := shorter fun unit unitMem => decimal unit (List.mem_append_left _ unitMem)
    have quotient : (10 * numeral front + digitValue last) / 10 = numeral front := by omega
    have remainder : (10 * numeral front + digitValue last) % 10 = digitValue last := by omega
    rw [List.length_append, List.length_singleton, digits, numeral_append_singleton, quotient,
      remainder, frontDigits, digit_digitValue lastDigit]

theorem numeral_lt {text : JsString} (decimal : ∀ unit ∈ text, isDigit unit = true) :
    numeral text < 10 ^ text.length := by
  induction text using List.reverseRecOn with
  | nil => decide
  | append_singleton front last shorter =>
    have frontSmall := shorter fun unit unitMem => decimal unit (List.mem_append_left _ unitMem)
    have lastDigit := isDigit_iff.mp (decimal last (by simp))
    rw [numeral_append_singleton, List.length_append, List.length_singleton, pow_succ, digitValue]
    omega

theorem length_of_matchesClasses {classes : List (UInt16 → Bool)} {text : JsString}
    (matched : matchesClasses classes text = true) : text.length = classes.length := by
  induction classes generalizing text with
  | nil => cases text <;> simp_all [matchesClasses]
  | cons fits classes shorter =>
    cases text with
    | nil => simp [matchesClasses] at matched
    | cons unit rest =>
      rw [matchesClasses, Bool.and_eq_true] at matched
      rw [List.length_cons, List.length_cons, shorter matched.2]

theorem matchesClasses_append {front back : List (UInt16 → Bool)} {text : JsString} :
    matchesClasses (front ++ back) text = true ↔
      ∃ head tail, text = head ++ tail ∧ matchesClasses front head = true ∧
        matchesClasses back tail = true := by
  induction front generalizing text with
  | nil =>
    refine ⟨fun fits => ⟨[], text, rfl, rfl, fits⟩, ?_⟩
    rintro ⟨head, tail, rfl, headFits, tailFits⟩
    cases head with
    | nil => exact tailFits
    | cons unit rest => simp [matchesClasses] at headFits
  | cons fits front shorter =>
    cases text with
    | nil =>
      refine ⟨fun impossible => by simp [matchesClasses] at impossible, ?_⟩
      rintro ⟨head, tail, split, headFits, -⟩
      rw [List.nil_eq_append_iff] at split
      simp [split.1, matchesClasses] at headFits
    | cons unit rest =>
      simp only [List.cons_append, matchesClasses, Bool.and_eq_true, shorter]
      refine ⟨?_, ?_⟩
      · rintro ⟨unitFits, head, tail, rfl, headFits, tailFits⟩
        exact ⟨unit :: head, tail, rfl, by simp [matchesClasses, unitFits, headFits], tailFits⟩
      · rintro ⟨head, tail, split, headFits, tailFits⟩
        cases head with
        | nil => simp [matchesClasses] at headFits
        | cons first others =>
          simp only [List.cons_append, List.cons.injEq] at split
          simp only [matchesClasses, Bool.and_eq_true] at headFits
          rw [split.1]
          exact ⟨headFits.1, others, tail, split.2, headFits.2, tailFits⟩

theorem matchesClasses_replicate {count : ℕ} {fits : UInt16 → Bool} {text : JsString} :
    matchesClasses (List.replicate count fits) text = true ↔
      text.length = count ∧ ∀ unit ∈ text, fits unit = true := by
  induction count generalizing text with
  | zero => cases text <;> simp [matchesClasses]
  | succ count shorter =>
    cases text with
    | nil => simp [List.replicate_succ, matchesClasses]
    | cons unit rest =>
      simp only [List.replicate_succ, matchesClasses, Bool.and_eq_true, shorter, List.length_cons,
        Nat.add_right_cancel_iff, List.forall_mem_cons]
      exact and_left_comm

theorem matchesClasses_map {change : UInt16 → UInt16} {classes : List (UInt16 → Bool)}
    (same : ∀ fits ∈ classes, ∀ unit, fits (change unit) = fits unit) (text : JsString) :
    matchesClasses classes (text.map change) = matchesClasses classes text := by
  induction classes generalizing text with
  | nil => cases text <;> rfl
  | cons fits classes shorter =>
    rw [List.forall_mem_cons] at same
    cases text with
    | nil => rfl
    | cons unit rest => simp only [List.map_cons, matchesClasses, same.1, shorter same.2]

theorem lowerUnit_of_isDigit {unit : UInt16} (decimal : isDigit unit = true) :
    lowerUnit unit = unit := by
  rw [isDigit_iff] at decimal
  rw [lowerUnit, if_neg]
  simp only [Bool.and_eq_true, decide_eq_true_eq, UInt16.le_iff_toNat_le, not_and]
  intro letter
  have lower : (65 : UInt16).toNat = 65 := rfl
  omega

theorem fits_lowerUnit_of_letters {fits : UInt16 → Bool}
    (letters : ((List.range 26).all fun offset =>
      fits ((65 + offset).toUInt16 + 32) == fits (65 + offset).toUInt16) = true) (unit : UInt16) :
    fits (lowerUnit unit) = fits unit := by
  rw [lowerUnit]
  split
  · rename_i upper
    simp only [Bool.and_eq_true, decide_eq_true_eq, UInt16.le_iff_toNat_le] at upper
    have lowest : (65 : UInt16).toNat = 65 := rfl
    have highest : (90 : UInt16).toNat = 90 := rfl
    have inRange : unit.toNat - 65 ∈ List.range 26 := List.mem_range.mpr (by omega)
    have letter := List.all_eq_true.mp letters _ inRange
    rw [Nat.add_sub_cancel' (by omega), beq_iff_eq] at letter
    simpa using letter
  · rfl

theorem lowerUnit_lowerUnit (unit : UInt16) : lowerUnit (lowerUnit unit) = lowerUnit unit := by
  have notUpper : ¬((65 ≤ lowerUnit unit && lowerUnit unit ≤ 90) = true) := by
    have small := unit.toNat_lt
    have values : (65 : UInt16).toNat = 65 ∧ (90 : UInt16).toNat = 90 ∧ (32 : UInt16).toNat = 32 := by
      decide
    simp only [lowerUnit, Bool.and_eq_true, decide_eq_true_eq, UInt16.le_iff_toNat_le]
    split
    · rw [UInt16.toNat_add]
      omega
    · omega
  rw [lowerUnit, if_neg notUpper]

theorem toLowerCase_toLowerCase (text : JsString) :
    text.toLowerCase.toLowerCase = text.toLowerCase := by
  simp [toLowerCase, lowerUnit_lowerUnit]

theorem all_isDigit_of_matchesClasses {front back : List (UInt16 → Bool)} {count : ℕ}
    {text : JsString}
    (matched : matchesClasses (front ++ (List.replicate count isDigit ++ back)) text = true) :
    ∀ unit ∈ (text.drop front.length).take count, isDigit unit = true := by
  rcases matchesClasses_append.mp matched with ⟨head, rest, rfl, headFits, restFits⟩
  rcases matchesClasses_append.mp restFits with ⟨middle, tail, rfl, middleFits, -⟩
  rcases matchesClasses_replicate.mp middleFits with ⟨width, decimal⟩
  rw [← length_of_matchesClasses headFits, List.drop_left, ← width, List.take_left]
  exact decimal

theorem append_lt_append {left right : JsString} (sameLength : left.length = right.length)
    (less : left < right) (leftRest rightRest : JsString) :
    left ++ leftRest < right ++ rightRest := by
  induction less with
  | nil => simp at sameLength
  | cons _ shorter =>
    simp only [List.length_cons, Nat.succ.injEq] at sameLength
    exact List.Lex.cons (shorter sameLength)
  | rel smaller => exact List.Lex.rel smaller

theorem append_lt_append_left (front : JsString) {left right : JsString} (less : left < right) :
    front ++ left < front ++ right :=
  List.append_left_lt less

theorem digits_lt_digits {width left right : ℕ} (less : left < right)
    (fits : right < 10 ^ width) : digits width left < digits width right := by
  induction width generalizing left right with
  | zero =>
    simp only [pow_zero] at fits
    omega
  | succ width shorter =>
    have front : right / 10 < 10 ^ width := by
      rw [pow_succ] at fits
      omega
    rcases Nat.lt_or_ge (left / 10) (right / 10) with frontLess | frontGe
    · apply append_lt_append
      · simp
      · exact shorter frontLess front
    · have sameFront : left / 10 = right / 10 := by omega
      simp only [digits, sameFront]
      apply append_lt_append_left
      apply List.Lex.rel
      rw [UInt16.lt_iff_toNat_lt, toNat_digit (Nat.mod_lt _ (by decide)),
        toNat_digit (Nat.mod_lt _ (by decide))]
      omega

end Ecma
