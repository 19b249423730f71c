import StudentHub.Ecma.Date
import StudentHub.Ecma.Value

/-!
# Whole numbers as doubles

Safe integers are the whole numbers a double holds together with both neighbours. A
sum of whole numbers is rounded to 53 binary digits, to the even of two candidates
in a tie. A clock is read as its whole milliseconds and whether a part is left over.
-/

namespace Ecma

def MAX_SAFE_INTEGER : ℕ := 2 ^ 53 - 1

structure SafeNat where
  value : ℕ
  safe : value ≤ MAX_SAFE_INTEGER
  deriving DecidableEq

/-- Whole number of a value, when `Number.isSafeInteger` holds of it. -/
def JsValue.safeInteger? (value : JsValue) : Option ℤ :=
  match value with
  | .number (.finite finite) =>
      finite.integer?.filter fun integer => integer.natAbs ≤ MAX_SAFE_INTEGER
  | _ => none

def nonNegativeInteger (value : JsValue) : Option SafeNat :=
  match value.safeInteger? with
  | some (.ofNat number) => if safe : number ≤ MAX_SAFE_INTEGER then some ⟨number, safe⟩ else none
  | _ => none

def positiveInteger (value : JsValue) : Option SafeNat :=
  (nonNegativeInteger value).filter fun number => 0 < number.value

def FiniteNumber.compare (left right : FiniteNumber) : ℤ :=
  let lowest := min left.exponent right.exponent
  let scaled (number : FiniteNumber) : ℤ :=
    let magnitude : ℤ := number.significand * 10 ^ (number.exponent - lowest).toNat
    if number.negative then -magnitude else magnitude
  (scaled left - scaled right).sign

def FiniteNumber.atMost (number : FiniteNumber) (bound : ℤ) : Bool :=
  let magnitude : ℤ := if number.negative then -number.significand else number.significand
  magnitude * 10 ^ number.exponent.toNat ≤ bound * 10 ^ (-number.exponent).toNat

def FiniteNumber.below (number : FiniteNumber) (bound : ℤ) : Bool :=
  let magnitude : ℤ := if number.negative then -number.significand else number.significand
  magnitude * 10 ^ number.exponent.toNat < bound * 10 ^ (-number.exponent).toNat

def roundToDouble (number : ℕ) : ℕ :=
  if number < 2 ^ 53 then
    number
  else
    let unit := 2 ^ (number.log2 - 52)
    let kept := number / unit
    let rest := number % unit
    if 2 * rest < unit ∨ 2 * rest = unit ∧ kept % 2 = 0 then kept * unit else (kept + 1) * unit

def numberSum (left right : ℕ) : ℕ := roundToDouble (left + right)

theorem roundToDouble_of_lt {number : ℕ} (small : number < 2 ^ 53) :
    roundToDouble number = number := if_pos small

theorem le_roundToDouble {number : ℕ} (large : 2 ^ 53 ≤ number) :
    2 ^ 53 ≤ roundToDouble number := by
  have nonzero : number ≠ 0 := by omega
  have digits : 53 ≤ number.log2 := (Nat.le_log2 nonzero).mpr large
  have split : 2 ^ 52 * 2 ^ (number.log2 - 52) = 2 ^ number.log2 := by
    rw [← pow_add]
    congr 1
    omega
  have top : 2 ^ 53 ≤ 2 ^ number.log2 := Nat.pow_le_pow_right (by decide) digits
  have kept : 2 ^ 52 ≤ number / 2 ^ (number.log2 - 52) := by
    rw [Nat.le_div_iff_mul_le (Nat.two_pow_pos _), split]
    exact Nat.log2_self_le nonzero
  have enough := Nat.mul_le_mul_right (2 ^ (number.log2 - 52)) kept
  rw [roundToDouble, if_neg (by omega)]
  dsimp only
  split_ifs
  · omega
  · rw [Nat.succ_mul]
    omega

theorem numberSum_le {left right bound : ℕ} (safe : bound ≤ MAX_SAFE_INTEGER)
    (below : numberSum left right ≤ bound) :
    left + right ≤ bound ∧ numberSum left right = left + right := by
  simp only [MAX_SAFE_INTEGER] at safe
  rcases Nat.lt_or_ge (left + right) (2 ^ 53) with small | large
  · rw [numberSum, roundToDouble_of_lt small] at *
    exact ⟨below, rfl⟩
  · have beyond := le_roundToDouble large
    rw [numberSum] at below
    omega

theorem foldl_numberSum_le {bound : ℕ} (safe : bound ≤ MAX_SAFE_INTEGER) (numbers : List ℕ)
    (start : ℕ) (below : numbers.foldl numberSum start ≤ bound) :
    start + numbers.sum ≤ bound ∧ numbers.foldl numberSum start = start + numbers.sum := by
  induction numbers generalizing start with
  | nil => exact ⟨below, rfl⟩
  | cons number rest ih =>
    rw [List.foldl_cons] at *
    rcases ih _ below with ⟨restBelow, restExact⟩
    rcases numberSum_le safe (Nat.le_of_add_right_le restBelow) with ⟨-, exact⟩
    rw [exact] at restBelow restExact
    rw [exact, restExact, List.sum_cons]
    omega

def shorten : ℕ → ℕ → ℕ → ℕ × ℕ
  | 0, significand, exponent => (significand, exponent)
  | fuel + 1, significand, exponent =>
      if significand ≠ 0 ∧ significand % 10 = 0 then
        shorten fuel (significand / 10) (exponent + 1)
      else
        (significand, exponent)

theorem shorten_value (fuel significand exponent : ℕ) :
    (shorten fuel significand exponent).1 * 10 ^ (shorten fuel significand exponent).2 =
      significand * 10 ^ exponent := by
  induction fuel generalizing significand exponent with
  | zero => rfl
  | succ fuel ih =>
    rw [shorten]
    split_ifs with zeros
    · rw [ih, pow_succ', ← mul_assoc, Nat.div_mul_cancel (Nat.dvd_of_mod_eq_zero zeros.2)]
    · rfl

theorem shorten_shortest {fuel significand : ℕ} (enough : significand ≤ fuel)
    (nonzero : significand ≠ 0) (exponent : ℕ) :
    (shorten fuel significand exponent).1 % 10 ≠ 0 := by
  induction fuel generalizing significand exponent with
  | zero => omega
  | succ fuel ih =>
    rw [shorten]
    split_ifs with zeros
    · apply ih
      · omega
      · omega
    · simpa [nonzero] using zeros

def JsNumber.ofNat (number : ℕ) : JsNumber :=
  if nonzero : number = 0 then
    .finite ⟨false, 0, 0, FiniteNumber.shortest_zero⟩
  else
    .finite ⟨false, (shorten number number 0).1, (shorten number number 0).2,
      .inl (shorten_shortest le_rfl nonzero 0)⟩

theorem safeInteger?_ofNat_eq (number : ℕ) : (JsValue.number (.ofNat number)).safeInteger? =
    if number ≤ MAX_SAFE_INTEGER then some (.ofNat number) else none := by
  rw [JsNumber.ofNat]
  by_cases zero : number = 0
  · subst zero
    rfl
  · have value := shorten_value number number 0
    simp only [pow_zero, mul_one] at value
    simp only [dif_neg zero, JsValue.safeInteger?, FiniteNumber.integer?, Int.natCast_nonneg,
      if_true, Int.toNat_natCast, Bool.false_eq_true, if_false]
    have cast : ((shorten number number 0).1 : ℤ) * 10 ^ (shorten number number 0).2 = number := by
      exact_mod_cast value
    rw [cast]
    simp [Option.filter]

theorem safeInteger?_ofNat {number : ℕ} (safe : number ≤ MAX_SAFE_INTEGER) :
    (JsValue.number (.ofNat number)).safeInteger? = some (.ofNat number) := by
  rw [safeInteger?_ofNat_eq, if_pos safe]

@[simp]
theorem nonNegativeInteger_ofNat (number : SafeNat) :
    nonNegativeInteger (.number (.ofNat number.value)) = some number := by
  simp only [nonNegativeInteger, safeInteger?_ofNat number.safe, dif_pos number.safe]

theorem positiveInteger_ofNat {number : ℕ} {checked : SafeNat}
    (passes : positiveInteger (.number (.ofNat number)) = some checked) :
    checked.value = number ∧ 0 < number := by
  rw [positiveInteger, Option.filter_eq_some_iff, nonNegativeInteger, safeInteger?_ofNat_eq] at passes
  rcases passes with ⟨isChecked, positive⟩
  by_cases safe : number ≤ MAX_SAFE_INTEGER
  · simp only [if_pos safe, dif_pos safe, Option.some.injEq] at isChecked
    subst isChecked
    exact ⟨rfl, of_decide_eq_true positive⟩
  · simp [if_neg safe] at isChecked

/-- A number that a clock gives; a finite one is its floor and whether a part is left over. -/
inductive ClockReading
  | nan
  | infinite (negative : Bool)
  | finite (floor : ℤ) (fraction : Bool)
  deriving DecidableEq

namespace ClockReading

/-- The date of the reading, `new Date(reading)`: towards zero to whole milliseconds. -/
def toDate : ClockReading → Date
  | nan | infinite _ => none
  | finite floor fraction =>
      if fraction ∧ (floor < -maxTime ∨ maxTime ≤ floor) then
        none
      else
        timeClip (if fraction ∧ floor < 0 then floor + 1 else floor)

def plus : ClockReading → ℕ → ClockReading
  | nan, _ => nan
  | infinite negative, _ => infinite negative
  | finite floor fraction, ms => finite (floor + ms) fraction

/-- The comparison `date <= reading` of a time value with a reading. -/
def reached (date : Date) (reading : ClockReading) : Bool :=
  match date, reading with
  | none, _ => false
  | some _, nan => false
  | some _, infinite negative => !negative
  | some instant, finite floor _ => instant.time ≤ floor

end ClockReading

/-- The function `Date.parse`, which an engine may extend beyond the ISO format. -/
structure DateParser where
  parse : JsString → Date
  parse_toISOString : ∀ instant, parse instant.toISOString = some instant

def DateParser.iso : DateParser := ⟨Date.parse, Date.parse_toISOString⟩

end Ecma
