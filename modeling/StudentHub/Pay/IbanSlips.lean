import StudentHub.Pay.Iban

/-!
# Slips in an IBAN

The residue finds the slips of someone who copies the number: a character that becomes another one
of its kind, and two neighbours that change places. Only the neighbours B and 1, M and 2, X and 3
may change places in the account.
-/

namespace StudentHub.Pay

open Ecma JsString

def spelled (text : JsString) : ℕ := numeral (text.flatMap letterDigits)

def width (text : JsString) : ℕ := (text.flatMap letterDigits).length

section Residues

variable {front middle other back : JsString}

theorem spelled_append (front back : JsString) :
    spelled (front ++ back) = spelled front * 10 ^ width back + spelled back := by
  rw [spelled, List.flatMap_append, numeral_append]
  rfl

theorem width_append (front back : JsString) : width (front ++ back) = width front + width back := by
  rw [width, List.flatMap_append, List.length_append]
  rfl

/-- Between the same texts, the residues agree when those of the middles do. -/
theorem modEq_spelled_iff (sameWidth : width middle = width other) :
    spelled (front ++ middle ++ back) ≡ spelled (front ++ other ++ back) [MOD 97] ↔
      spelled middle ≡ spelled other [MOD 97] := by
  have coprime : Nat.gcd 97 (10 ^ width back) = 1 := Nat.Coprime.pow_right _ (by decide)
  simp only [spelled_append, sameWidth]
  constructor
  · intro same
    apply Nat.ModEq.add_left_cancel'
    exact Nat.ModEq.cancel_right_of_coprime coprime (Nat.ModEq.add_right_cancel' _ same)
  · intro same
    exact ((same.add_left _).mul_right _).add_right _

/-- A part that lies within the first four characters or after them stays in one piece. -/
theorem exists_around (inside : 4 ≤ front.length ∨ front.length + middle.length ≤ 4) :
    ∃ before after, ∀ other, other.length = middle.length →
      ibanNumber (front ++ other ++ back) = spelled (before ++ other ++ after) := by
  rcases inside with later | early
  · refine ⟨front.drop 4, back ++ front.take 4, fun other _ => ?_⟩
    rw [ibanNumber, List.append_assoc, List.drop_append_of_le_length later,
      List.take_append_of_le_length later]
    simp [spelled]
  · let rest := 4 - (front.length + middle.length)
    refine ⟨back.drop rest ++ front, back.take rest, fun other sameLength => ?_⟩
    have short : (front ++ other).length = front.length + middle.length := by simp [sameLength]
    have all : (front ++ other).length ≤ 4 := by omega
    rw [ibanNumber, List.drop_append, List.take_append, List.drop_eq_nil_of_le all,
      List.take_of_length_le all, short]
    simp [spelled, rest]

end Residues

section Characters

variable {char other : UInt16}

/-- Letters are written as the numbers from 10 to 35. -/
theorem spelled_char (isUnit : isIbanUnit char = true) :
    spelled [char] < 36 ∧ width [char] = (if spelled [char] < 10 then 1 else 2) ∧
      (isUpper char = true ↔ 10 ≤ spelled [char]) ∧
      char.toNat = spelled [char] + if spelled [char] < 10 then 48 else 55 := by
  have alone : [char].flatMap letterDigits = letterDigits char := List.flatMap_singleton _ _
  simp only [spelled, width, alone, letterDigits]
  cases kind : isUpper char with
  | true =>
      have bounds : 65 ≤ char.toNat ∧ char.toNat ≤ 90 := by
        simpa only [isUpper, Bool.and_eq_true, decide_eq_true_eq, UInt16.le_iff_toNat_le,
          UInt16.reduceToNat] using kind
      have most : (decimal (char.toNat - 55)).length ≤ 2 :=
        (length_decimal_le_iff (by omega)).mpr (by omega)
      have least : ¬(decimal (char.toNat - 55)).length ≤ 1 := by
        rw [length_decimal_le_iff (by omega)]
        omega
      simp only [if_true, numeral_decimal, true_iff]
      rw [if_neg (by omega), if_neg (by omega)]
      omega
  | false =>
      rw [isIbanUnit, kind, Bool.false_or, isDigit_iff] at isUnit
      have value : numeral [char] = char.toNat - 48 := by simp [numeral, digitValue]
      simp only [Bool.false_eq_true, if_false, value, List.length_singleton, false_iff]
      rw [if_pos (by omega), if_pos (by omega)]
      omega

/-- Characters of one kind with one residue are the same. -/
theorem eq_of_modEq (isUnit : isIbanUnit char = true) (otherUnit : isIbanUnit other = true)
    (same : spelled [other] ≡ spelled [char] [MOD 97]) : other = char := by
  rcases spelled_char isUnit with ⟨small, -, -, code⟩
  rcases spelled_char otherUnit with ⟨otherSmall, -, -, otherCode⟩
  have equal : spelled [other] = spelled [char] :=
    same.eq_of_lt_of_lt (by omega) (by omega)
  rw [← UInt16.toNat_inj, code, otherCode, equal]

theorem width_eq_of_sameKind (isUnit : isIbanUnit char = true) (otherUnit : isIbanUnit other = true)
    (sameKind : isUpper other = isUpper char) : width [char] = width [other] := by
  rcases spelled_char isUnit with ⟨-, wide, kind, -⟩
  rcases spelled_char otherUnit with ⟨-, otherWide, otherKind, -⟩
  rw [sameKind, kind] at otherKind
  rw [wide, otherWide]
  split_ifs <;> omega

/-- The codes of B and 1, of M and 2, of X and 3: the letter's number is eleven times the digit. -/
def TWINS : List (ℕ × ℕ) := [(66, 49), (77, 50), (88, 51)]

def Twins (letter digit : UInt16) : Prop := (letter.toNat, digit.toNat) ∈ TWINS

def codeOf (number : ℕ) : ℕ := number + if number < 10 then 48 else 55

theorem swapped_residues : ∀ left < 36, ∀ right < 36,
    (left * 10 ^ (if right < 10 then 1 else 2) + right) % 97 =
        (right * 10 ^ (if left < 10 then 1 else 2) + left) % 97 ↔
      codeOf left = codeOf right ∨ (codeOf left, codeOf right) ∈ TWINS ∨
        (codeOf right, codeOf left) ∈ TWINS := by
  decide +kernel

/-- When neighbours may change places for the residue. -/
theorem modEq_swap_iff (isUnit : isIbanUnit char = true) (otherUnit : isIbanUnit other = true) :
    spelled [char, other] ≡ spelled [other, char] [MOD 97] ↔
      char = other ∨ Twins char other ∨ Twins other char := by
  rcases spelled_char isUnit with ⟨small, wide, -, code⟩
  rcases spelled_char otherUnit with ⟨otherSmall, otherWide, -, otherCode⟩
  have first : spelled [char, other] = _ := spelled_append [char] [other]
  have second : spelled [other, char] = _ := spelled_append [other] [char]
  have residues := swapped_residues _ small _ otherSmall
  rw [← wide, ← otherWide, ← first, ← second, codeOf, codeOf, ← code, ← otherCode,
    UInt16.toNat_inj] at residues
  exact residues

end Characters

section Texts

variable {language : BankText} {text iban front back : JsString} {char other : UInt16}

theorem isSome_normalizeIban_iff (units : ∀ unit ∈ text, isIbanUnit unit = true) :
    (normalizeIban language (.string text)).isSome = true ↔ ValidIban text := by
  have clean : cleaned text = text := by
    rw [cleaned, List.filter_eq_self]
    intro unit unitMem
    rw [not_separator_of_isIbanUnit (units unit unitMem)]
    rfl
  have upper := language.toUpperCase_eq text (List.all_eq_true.mpr units)
  rw [Option.isSome_iff_exists]
  simp only [normalizeIban_eq_some_iff, clean, upper, exists_eq_left]

theorem ValidIban.swap (valid : ValidIban (front ++ char :: other :: back)) (later : 4 ≤ front.length)
    (same : ibanNumber (front ++ other :: char :: back) ≡ 1 [MOD 97]) :
    ValidIban (front ++ other :: char :: back) := by
  have pattern := isIbanPattern_iff.mpr valid.form
  have registered := valid.registered
  refine ⟨isIbanPattern_iff.mp ?_, ?_, same⟩
  · simp only [isIbanPattern, List.take_append_of_le_length (show 2 ≤ front.length by omega),
      List.drop_append_of_le_length (show 2 ≤ front.length by omega),
      List.drop_append_of_le_length later, List.take_append_of_le_length
        (show 2 ≤ (front.drop 2).length by rw [List.length_drop]; omega),
      List.all_append, List.all_cons, List.length_append, List.length_cons] at pattern ⊢
    rw [← pattern]
    ac_rfl
  · simp only [List.take_append_of_le_length (show 2 ≤ front.length by omega), List.length_append,
      List.length_cons] at registered ⊢
    exact registered

/-- An IBAN is spoiled when a character becomes another one of its kind, and when neighbours in the
account change places, unless they are a letter and the digit it is eleven times of. -/
theorem normalizeIban_slips (accepted : normalizeIban language (.string text) = some iban) :
    (∀ front char back other, iban = front ++ char :: back → isIbanUnit other = true →
      isUpper other = isUpper char →
        ((normalizeIban language (.string (front ++ other :: back))).isSome = true ↔ other = char)) ∧
    ∀ front char other back, iban = front ++ char :: other :: back → 4 ≤ front.length →
      ((normalizeIban language (.string (front ++ other :: char :: back))).isSome = true ↔
        char = other ∨ Twins char other ∨ Twins other char) := by
  have valid := (normalizeIban_eq_some_iff.mp accepted).2
  have units := valid.units
  refine ⟨?_, ?_⟩
  · rintro front char back other rfl otherUnit sameKind
    simp only [List.mem_append, List.mem_cons] at units
    have isUnit := units char (by simp)
    have here : ∀ unit, front ++ unit :: back = front ++ [unit] ++ back := by simp
    rw [isSome_normalizeIban_iff]
    · constructor
      · intro stillValid
        rcases @exists_around front [char] back (by simp; omega) with ⟨before, after, isNumber⟩
        have same := stillValid.residue.trans valid.residue.symm
        rw [here, here, isNumber [other] rfl, isNumber [char] rfl, modEq_spelled_iff
          (width_eq_of_sameKind otherUnit isUnit sameKind.symm)] at same
        exact eq_of_modEq isUnit otherUnit same
      · rintro rfl
        exact valid
    · intro unit unitMem
      simp only [List.mem_append, List.mem_cons] at unitMem
      rcases unitMem with inFront | rfl | inBack
      · exact units unit (.inl inFront)
      · exact otherUnit
      · exact units unit (.inr (.inr inBack))
  · rintro front char other back rfl later
    have isUnit := units char (by simp)
    have otherUnit := units other (by simp)
    have here : ∀ first second, front ++ first :: second :: back = front ++ [first, second] ++ back := by
      simp
    rcases @exists_around front [char, other] back (.inl later) with ⟨before, after, isNumber⟩
    have sameWidth : width [char, other] = width [other, char] :=
      (width_append [char] [other]).trans ((add_comm _ _).trans (width_append [other] [char]).symm)
    have residues := @modEq_spelled_iff before [char, other] [other, char] after sameWidth
    rw [modEq_swap_iff isUnit otherUnit, ← isNumber [char, other] rfl, ← isNumber [other, char] rfl,
      ← here, ← here] at residues
    rw [isSome_normalizeIban_iff, ← residues]
    · constructor
      · exact fun swapped => valid.residue.trans swapped.residue.symm
      · exact fun same => valid.swap later (same.symm.trans valid.residue)
    · intro unit unitMem
      apply units
      simp only [List.mem_append, List.mem_cons] at unitMem ⊢
      tauto

theorem normalizeIban_slips_greatBritain :
    normalizeIban (plainUpperCase.bankText id) (.string (js "GB82WEST12345689765432")) = none := by
  have slips := (@normalizeIban_slips (plainUpperCase.bankText id) (js "GB82 WEST 1234 5698 7654 32")
    (js "GB82WEST12345698765432") (by decide +kernel)).2 (js "GB82WEST123456") 57 56
      (js "765432") (by decide +kernel)
  have refused : ¬(normalizeIban (plainUpperCase.bankText id)
      (.string (js "GB82WEST123456" ++ 56 :: 57 :: js "765432"))).isSome = true := by
    rw [slips (by decide)]
    simp [Twins, TWINS]
  rw [Bool.not_eq_true, Option.isSome_eq_false_iff, Option.isNone_iff_eq_none] at refused
  exact refused

end Texts

end StudentHub.Pay
