import StudentHub.Ecma.Canonical
import StudentHub.Ecma.Number

/-!
# Numerals of JSON

A numeral is read as its sign, its digits and its exponent. The text of a number is read back
as that number, except that negative zero is written as zero.
-/

namespace Ecma

open JsString

theorem numeral_append (front back : JsString) :
    numeral (front ++ back) = numeral front * 10 ^ back.length + numeral back := by
  induction back using List.reverseRecOn with
  | nil => simp [numeral]
  | append_singleton back unit ih =>
      rw [← List.append_assoc, numeral_append_singleton, ih, numeral_append_singleton,
        List.length_append, List.length_singleton, pow_succ]
      ring

theorem numeral_replicate_zero (count : ℕ) : numeral (List.replicate count 48) = 0 := by
  induction count with
  | zero => rfl
  | succ count ih =>
      rw [List.replicate_succ', numeral_append_singleton, ih]
      rfl

theorem digitValue_digitChar {value : ℕ} (small : value < 10) :
    digitValue (Nat.digitChar value).toNat.toUInt16 = value := by
  revert value
  decide

theorem numeral_decimal (number : ℕ) : numeral (decimal number) = number := by
  induction number using Nat.strong_induction_on with
  | _ number ih =>
      rcases Nat.lt_or_ge number 10 with small | large
      · rw [decimal, Nat.toDigits_of_lt_base small]
        simp [numeral, digitValue_digitChar small]
      · have front := ih (number / 10) (by omega)
        rw [decimal] at front ⊢
        rw [Nat.toDigits_of_base_le (by decide) large, List.map_append, List.map_singleton,
          numeral_append_singleton, front, digitValue_digitChar (Nat.mod_lt _ (by decide))]
        omega

theorem length_decimal_le_iff {number width : ℕ} (positive : 0 < width) :
    (decimal number).length ≤ width ↔ number < 10 ^ width := by
  rw [decimal, List.length_map, Nat.length_toDigits_le_iff (by decide) positive]

theorem head_decimal_ne_zero {number : ℕ} (positive : number ≠ 0) {first : UInt16}
    {rest : JsString} (written : decimal number = first :: rest) : first ≠ 48 := by
  rintro rfl
  have shorter : number < 10 ^ rest.length := by
    have value := numeral_decimal number
    have zero : numeral [48] = 0 := rfl
    rw [written, show (48 : UInt16) :: rest = [48] ++ rest from rfl, numeral_append, zero, zero_mul,
      zero_add] at value
    have decimals : ∀ unit ∈ rest, isDigit unit = true := by
      intro unit unitMem
      exact @Json.isDigit_of_mem_decimal number unit
        (by rw [written]; exact List.mem_cons_of_mem _ unitMem)
    have bound := numeral_lt decimals
    omega
  rcases Nat.eq_zero_or_pos rest.length with none | some
  · rw [none] at shorter
    omega
  · have bound := (length_decimal_le_iff some).mpr shorter
    rw [written, List.length_cons] at bound
    omega

theorem eq_of_mul_pow_eq {left right leftZeros rightZeros : ℕ} (leftShortest : left % 10 ≠ 0)
    (rightShortest : right % 10 ≠ 0) (same : left * 10 ^ leftZeros = right * 10 ^ rightZeros) :
    left = right ∧ leftZeros = rightZeros := by
  induction leftZeros generalizing rightZeros with
  | zero =>
      cases rightZeros with
      | zero => simpa using same
      | succ rightZeros =>
          rw [pow_zero, mul_one, pow_succ, ← mul_assoc] at same
          omega
  | succ leftZeros ih =>
      cases rightZeros with
      | zero =>
          rw [pow_zero, mul_one, pow_succ, ← mul_assoc] at same
          omega
      | succ rightZeros =>
          rw [pow_succ, pow_succ, ← mul_assoc, ← mul_assoc] at same
          rcases ih (Nat.eq_of_mul_eq_mul_right (by decide) same) with ⟨equal, zeros⟩
          exact ⟨equal, by rw [zeros]⟩

namespace FiniteNumber

def ofDecimal (negative : Bool) (significand : ℕ) (exponent : ℤ) : FiniteNumber :=
  if nonzero : significand = 0 then
    ⟨negative, 0, 0, FiniteNumber.shortest_zero⟩
  else
    ⟨negative, (shorten significand significand 0).1,
      exponent + (shorten significand significand 0).2, .inl (shorten_shortest le_rfl nonzero 0)⟩

def unsigned (number : FiniteNumber) : FiniteNumber :=
  if number.significand = 0 then ⟨false, 0, 0, FiniteNumber.shortest_zero⟩ else number

theorem unsigned_of_significand_ne_zero {number : FiniteNumber} (nonzero : number.significand ≠ 0) :
    number.unsigned = number := if_neg nonzero

theorem ofDecimal_mul_pow {number : FiniteNumber} (nonzero : number.significand ≠ 0) (zeros : ℕ) :
    ofDecimal number.negative (number.significand * 10 ^ zeros) (number.exponent - zeros) =
      number := by
  have power : number.significand * 10 ^ zeros ≠ 0 := by positivity
  have shortest : number.significand % 10 ≠ 0 := by
    rcases number.shortest with shortest | ⟨zero, -⟩
    · exact shortest
    · exact absurd zero nonzero
  have value := shorten_value (number.significand * 10 ^ zeros) (number.significand * 10 ^ zeros) 0
  rw [pow_zero, mul_one] at value
  obtain ⟨digits, exponents⟩ :=
    eq_of_mul_pow_eq (shorten_shortest le_rfl power 0) shortest value
  rcases number with ⟨negative, significand, exponent, _⟩
  simp only [ofDecimal, dif_neg power, digits, exponents, FiniteNumber.mk.injEq, true_and]
  omega

end FiniteNumber

namespace Json

def takeSign : JsString → Bool × JsString
  | 45 :: rest => (true, rest)
  | text => (false, text)

/-- `\d+` -/
def takeRun (text : JsString) : Option (JsString × JsString) :=
  if text.takeWhile isDigit = [] then none
  else some (text.takeWhile isDigit, text.dropWhile isDigit)

/-- `0|[1-9]\d*` -/
def takeWhole : JsString → Option (JsString × JsString)
  | 48 :: rest => some ([48], rest)
  | text => takeRun text

/-- `(\.\d+)?`, without the point. -/
def takeFraction : JsString → Option (JsString × JsString)
  | 46 :: rest => takeRun rest
  | text => some ([], text)

/-- `[+-]?\d+` -/
def takeSigned : JsString → Option (ℤ × JsString)
  | 43 :: rest => (takeRun rest).map fun (run, rest) => ((numeral run : ℤ), rest)
  | 45 :: rest => (takeRun rest).map fun (run, rest) => (-(numeral run : ℤ), rest)
  | rest => (takeRun rest).map fun (run, rest) => ((numeral run : ℤ), rest)

/-- `([eE][+-]?\d+)?` -/
def takeExponent : JsString → Option (ℤ × JsString)
  | 101 :: rest => takeSigned rest
  | 69 :: rest => takeSigned rest
  | text => some (0, text)

def takeNumber (text : JsString) : Option (FiniteNumber × JsString) := do
  let (negative, rest) := takeSign text
  let (whole, rest) ← takeWhole rest
  let (fraction, rest) ← takeFraction rest
  let (exponent, rest) ← takeExponent rest
  return (.ofDecimal negative (numeral (whole ++ fraction)) (exponent - fraction.length), rest)

/-- What can come after a value: nothing, a comma, a closing bracket or a line break. -/
def Ends (more : JsString) : Prop :=
  ∀ unit ∈ more.head?, unit = 44 ∨ unit = 93 ∨ unit = 125 ∨ unit = 10

def NoDigit (more : JsString) : Prop := ∀ unit ∈ more.head?, isDigit unit = false

theorem Ends.noDigit {more : JsString} (ends : Ends more) : NoDigit more := by
  intro unit isHead
  rcases ends unit isHead with rfl | rfl | rfl | rfl <;> decide

theorem noDigit_cons {unit : UInt16} (noDigit : isDigit unit = false) (rest : JsString) :
    NoDigit (unit :: rest) := by
  rintro first isHead
  cases isHead
  exact noDigit

theorem takeRun_append {run more : JsString} (decimals : ∀ unit ∈ run, isDigit unit = true)
    (nonempty : run ≠ []) (noDigit : NoDigit more) : takeRun (run ++ more) = some (run, more) := by
  have front : more.takeWhile isDigit = [] := by
    cases more with
    | nil => rfl
    | cons unit rest => simp [noDigit unit rfl]
  have back : more.dropWhile isDigit = more := by
    cases more with
    | nil => rfl
    | cons unit rest => simp [noDigit unit rfl]
  rw [takeRun, List.takeWhile_append_of_pos decimals, List.dropWhile_append_of_pos decimals, front,
    back, List.append_nil, if_neg nonempty]

theorem takeExponent_ends {more : JsString} (ends : Ends more) : takeExponent more = some (0, more) := by
  rw [takeExponent.eq_3]
  · rintro rest rfl
    simpa using ends 101 rfl
  · rintro rest rfl
    simpa using ends 69 rfl

theorem takeWhole_append {run more : JsString} (decimals : ∀ unit ∈ run, isDigit unit = true)
    (nonempty : run ≠ []) (noZero : run.head? ≠ some 48) (noDigit : NoDigit more) :
    takeWhole (run ++ more) = some (run, more) := by
  rw [takeWhole.eq_2, takeRun_append decimals nonempty noDigit]
  intro rest same
  cases run with
  | nil => exact nonempty rfl
  | cons first run =>
      rw [List.cons_append, List.cons.injEq] at same
      exact noZero (by rw [List.head?_cons, same.1])

def fractionText (fraction : JsString) : JsString := if fraction = [] then [] else 46 :: fraction

theorem fractionText_of_ne_nil {fraction : JsString} (nonempty : fraction ≠ []) :
    fractionText fraction = 46 :: fraction := if_neg nonempty

def NoNumeral (more : JsString) : Prop := NoDigit more ∧ more.head? ≠ some 46

theorem takeFraction_append {fraction more : JsString}
    (decimals : ∀ unit ∈ fraction, isDigit unit = true) (noNumeral : NoNumeral more) :
    takeFraction (fractionText fraction ++ more) = some (fraction, more) := by
  rw [fractionText]
  split
  · rename_i empty
    subst empty
    rw [List.nil_append, takeFraction.eq_2]
    rintro rest rfl
    exact noNumeral.2 rfl
  · rename_i nonempty
    exact takeRun_append decimals nonempty noNumeral.1

theorem noDigit_fractionText {fraction more : JsString} (noNumeral : NoNumeral more) :
    NoDigit (fractionText fraction ++ more) := by
  rw [fractionText]
  split
  · exact noNumeral.1
  · exact noDigit_cons (by decide) _

def IsWhole (whole : JsString) : Prop :=
  whole = [48] ∨ (∀ unit ∈ whole, isDigit unit = true) ∧ whole ≠ [] ∧ whole.head? ≠ some 48

theorem IsWhole.takeWhole_append {whole more : JsString} (isWhole : IsWhole whole)
    (noDigit : NoDigit more) : takeWhole (whole ++ more) = some (whole, more) := by
  rcases isWhole with rfl | ⟨decimals, nonempty, noZero⟩
  · rfl
  · exact Json.takeWhole_append decimals nonempty noZero noDigit

theorem IsWhole.takeSign_append {whole : JsString} (isWhole : IsWhole whole) (negative : Bool)
    (more : JsString) :
    takeSign ((if negative then [45] else []) ++ whole ++ more) = (negative, whole ++ more) := by
  cases negative with
  | true => rfl
  | false =>
      rcases isWhole with rfl | ⟨decimals, nonempty, -⟩
      · rfl
      · cases whole with
        | nil => exact absurd rfl nonempty
        | cons first rest =>
            show takeSign (first :: (rest ++ more)) = _
            rw [takeSign.eq_2]
            · rfl
            · rintro _ same
              have isDigit := decimals first List.mem_cons_self
              rw [(List.cons.inj same).1] at isDigit
              cases isDigit

theorem takeNumber_append (negative : Bool) {whole more : JsString} {exponent : ℤ}
    (isWhole : IsWhole whole) (fraction : JsString) (decimals : ∀ unit ∈ fraction, isDigit unit = true)
    (written : JsString) (noNumeral : NoNumeral (written ++ more))
    (taken : takeExponent (written ++ more) = some (exponent, more)) :
    takeNumber ((if negative then [45] else []) ++ whole ++
      (fractionText fraction ++ (written ++ more))) =
      some (.ofDecimal negative (numeral (whole ++ fraction)) (exponent - fraction.length), more) := by
  simp only [takeNumber, isWhole.takeSign_append, Option.bind_eq_bind,
    isWhole.takeWhole_append (noDigit_fractionText noNumeral), Option.bind_some,
    takeFraction_append decimals noNumeral, taken, Option.pure_def]

theorem noNumeral_of_ends {more : JsString} (ends : Ends more) : NoNumeral more := by
  refine ⟨ends.noDigit, ?_⟩
  intro isPoint
  simpa using ends 46 isPoint

theorem isWhole_decimal {number : ℕ} (nonzero : number ≠ 0) {front back : JsString}
    (split : decimal number = front ++ back) (nonempty : front ≠ []) (zeros : ℕ) :
    IsWhole (front ++ List.replicate zeros 48) := by
  refine .inr ⟨?_, by simp [nonempty], ?_⟩
  · intro unit unitMem
    rcases List.mem_append.mp unitMem with inFront | inZeros
    · exact @isDigit_of_mem_decimal number unit
        (by rw [split]; exact List.mem_append_left _ inFront)
    · rw [List.eq_of_mem_replicate inZeros]
      rfl
  · cases front with
    | nil => exact absurd rfl nonempty
    | cons first front =>
        rw [List.cons_append, List.head?_cons, Ne, Option.some.injEq]
        exact head_decimal_ne_zero nonzero split

def exponentText (point : ℤ) : JsString :=
  js "e" ++ (if 0 < point then js "+" else js "-") ++ decimal (point - 1).natAbs

theorem noNumeral_exponentText (point : ℤ) {more : JsString} :
    NoNumeral (exponentText point ++ more) :=
  ⟨noDigit_cons (by decide) _, by simp [exponentText, js, codeUnits]⟩

theorem takeExponent_exponentText (point : ℤ) {more : JsString} (ends : Ends more) :
    takeExponent (exponentText point ++ more) = some (point - 1, more) := by
  have run : takeRun (decimal (point - 1).natAbs ++ more) =
      some (decimal (point - 1).natAbs, more) :=
    takeRun_append (fun _ => isDigit_of_mem_decimal) (decimal_ne_nil _) ends.noDigit
  by_cases positive : 0 < point
  · have value : ((point - 1).natAbs : ℤ) = point - 1 := by omega
    simp only [exponentText, if_pos positive]
    show (takeRun (decimal (point - 1).natAbs ++ more)).map _ = _
    simp only [run, Option.map_some, numeral_decimal, value]
  · have value : -((point - 1).natAbs : ℤ) = point - 1 := by omega
    simp only [exponentText, if_neg positive]
    show (takeRun (decimal (point - 1).natAbs ++ more)).map _ = _
    simp only [run, Option.map_some, numeral_decimal, value]

theorem text_of_zero {number : FiniteNumber} (zero : number.significand = 0) :
    number.text = [48] := by
  rcases number with ⟨negative, significand, exponent, shortest⟩
  simp only at zero
  subst zero
  rcases shortest with shortest | ⟨-, rfl⟩
  · exact absurd rfl shortest
  · simp [FiniteNumber.text, FiniteNumber.plainText, FiniteNumber.IsNegative, decimal]

section Texts

variable {number : FiniteNumber} {more : JsString}

theorem ofDecimal_of_eq (nonzero : number.significand ≠ 0) {exponent : ℤ}
    (same : exponent = number.exponent) :
    FiniteNumber.ofDecimal number.negative number.significand exponent = number := by
  subst same
  simpa using FiniteNumber.ofDecimal_mul_pow nonzero 0

theorem isDigit_of_mem_zeros {count : ℕ} {unit : UInt16} (unitMem : unit ∈ List.replicate count 48) :
    isDigit unit = true := by
  rw [List.eq_of_mem_replicate unitMem]
  rfl

theorem takeNumber_plainText (nonzero : number.significand ≠ 0) (ends : Ends more) :
    takeNumber ((if number.negative then [45] else []) ++ number.plainText ++ more) =
      some (number, more) := by
  have plainEnd : takeExponent ([] ++ more) = some (0, more) := takeExponent_ends ends
  have noMore : NoNumeral ([] ++ more) := noNumeral_of_ends ends
  have decimals : ∀ unit ∈ decimal number.significand, isDigit unit = true :=
    fun _ => isDigit_of_mem_decimal
  rw [FiniteNumber.plainText]
  by_cases integral : 0 ≤ number.exponent
  · have read := takeNumber_append number.negative
      (isWhole_decimal nonzero (List.append_nil _).symm (decimal_ne_nil _) number.exponent.toNat)
      [] (fun _ => List.not_mem_nil.elim) [] noMore plainEnd
    have value : numeral (decimal number.significand ++ List.replicate number.exponent.toNat 48 ++ []) =
        number.significand * 10 ^ number.exponent.toNat := by
      rw [List.append_nil, numeral_append, numeral_decimal, numeral_replicate_zero,
        List.length_replicate, add_zero]
    have scaled := FiniteNumber.ofDecimal_mul_pow nonzero number.exponent.toNat
    rw [show number.exponent - number.exponent.toNat = 0 - ([] : JsString).length by
      rw [Int.toNat_of_nonneg integral, List.length_nil]; omega] at scaled
    rw [value, scaled] at read
    rw [if_pos integral]
    simpa [fractionText] using read
  · rw [if_neg integral]
    by_cases inside : 0 < ((decimal number.significand).length : ℤ) + number.exponent
    · obtain ⟨point, isPoint⟩ : ∃ point : ℕ,
          ((decimal number.significand).length : ℤ) + number.exponent = point :=
        ⟨_, (Int.toNat_of_nonneg inside.le).symm⟩
      rw [if_pos inside, isPoint, Int.toNat_natCast]
      have front : (decimal number.significand).take point ≠ [] := by
        rw [Ne, List.take_eq_nil_iff, not_or]
        exact ⟨by omega, decimal_ne_nil _⟩
      have back : (decimal number.significand).drop point ≠ [] := by
        rw [Ne, List.drop_eq_nil_iff]
        omega
      have read := takeNumber_append number.negative
        (isWhole_decimal nonzero (List.take_append_drop point _).symm front 0)
        ((decimal number.significand).drop point)
        (fun unit unitMem => decimals unit (List.mem_of_mem_drop unitMem)) [] noMore plainEnd
      rw [List.replicate_zero, List.append_nil, List.take_append_drop, numeral_decimal,
        ofDecimal_of_eq nonzero (by rw [List.length_drop]; omega),
        fractionText_of_ne_nil back] at read
      simpa using read
    · rw [if_neg inside]
      have read := takeNumber_append number.negative (.inl rfl)
        (List.replicate (-((decimal number.significand).length + number.exponent)).toNat 48 ++
          decimal number.significand)
        (fun unit unitMem => (List.mem_append.mp unitMem).elim isDigit_of_mem_zeros (decimals unit))
        [] noMore plainEnd
      have value : numeral ([48] ++ (List.replicate
          (-((decimal number.significand).length + number.exponent)).toNat 48 ++
            decimal number.significand)) = number.significand := by
        rw [numeral_append, numeral_append, numeral_replicate_zero, numeral_decimal]
        simp [numeral, digitValue]
      rw [value, ofDecimal_of_eq nonzero
        (by rw [List.length_append, List.length_replicate]; omega),
        fractionText_of_ne_nil (by simp [decimal_ne_nil])] at read
      simpa [js, codeUnits] using read

theorem takeNumber_text_of_ne_zero (nonzero : number.significand ≠ 0) (ends : Ends more) :
    takeNumber (number.text ++ more) = some (number, more) := by
  have sign : (if number.IsNegative then js "-" else []) =
      if number.negative then ([45] : JsString) else [] := by
    simp [FiniteNumber.IsNegative, nonzero, js, codeUnits]
  have point : 0 < (decimal number.significand).length :=
    List.length_pos_iff.mpr (decimal_ne_nil _)
  simp only [FiniteNumber.text, sign]
  by_cases plain : -6 < ((decimal number.significand).length : ℤ) + number.exponent ∧
      ((decimal number.significand).length : ℤ) + number.exponent ≤ 21
  · rw [if_pos plain]
    exact takeNumber_plainText nonzero ends
  · rw [if_neg plain]
    have front : (decimal number.significand).take 1 ≠ [] := by
      rw [Ne, List.take_eq_nil_iff, not_or]
      exact ⟨by omega, decimal_ne_nil _⟩
    have fraction : (if (decimal number.significand).length = 1 then []
        else js "." ++ (decimal number.significand).drop 1) =
          fractionText ((decimal number.significand).drop 1) := by
      have same : (decimal number.significand).drop 1 = [] ↔
          (decimal number.significand).length = 1 := by
        rw [List.drop_eq_nil_iff]
        omega
      simp only [fractionText, same]
      rfl
    have read := takeNumber_append number.negative
      (isWhole_decimal nonzero (List.take_append_drop 1 _).symm front 0)
      ((decimal number.significand).drop 1)
      (fun unit unitMem => isDigit_of_mem_decimal (List.mem_of_mem_drop unitMem)) _
      (noNumeral_exponentText _)
      (takeExponent_exponentText ((decimal number.significand).length + number.exponent) ends)
    rw [List.replicate_zero, List.append_nil, List.take_append_drop, numeral_decimal,
      ofDecimal_of_eq nonzero (by rw [List.length_drop]; omega)] at read
    rw [fraction]
    simpa [exponentText] using read

theorem takeNumber_text (number : FiniteNumber) (ends : Ends more) :
    takeNumber (number.text ++ more) = some (number.unsigned, more) := by
  by_cases zero : number.significand = 0
  · have plainEnd : takeExponent ([] ++ more) = some (0, more) := takeExponent_ends ends
    have noMore : NoNumeral ([] ++ more) := noNumeral_of_ends ends
    rw [text_of_zero zero, FiniteNumber.unsigned, if_pos zero]
    exact takeNumber_append false (.inl rfl) [] (fun _ => List.not_mem_nil.elim) [] noMore plainEnd
  · rw [FiniteNumber.unsigned_of_significand_ne_zero zero]
    exact takeNumber_text_of_ne_zero zero ends

end Texts

end Json

end Ecma
