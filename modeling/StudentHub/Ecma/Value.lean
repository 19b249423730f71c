import StudentHub.Ecma.Digits

/-!
# Values

The values an `unknown` argument can have. An object is its own enumerable
properties; a function, a symbol and a bigint are only told apart from the rest. A
finite number is given by the digits `String(value)` writes, which determine it.
-/

namespace Ecma

/-- A finite number as `significand × 10 ^ exponent`, without trailing zeros. -/
structure FiniteNumber where
  negative : Bool
  significand : ℕ
  exponent : ℤ
  shortest : significand % 10 ≠ 0 ∨ significand = 0 ∧ exponent = 0
  deriving DecidableEq

theorem FiniteNumber.shortest_zero : (0 : ℕ) % 10 ≠ 0 ∨ (0 : ℕ) = 0 ∧ (0 : ℤ) = 0 := .inr ⟨rfl, rfl⟩

inductive JsNumber
  | nan
  | infinity (negative : Bool)
  | finite (number : FiniteNumber)
  deriving DecidableEq

inductive JsValue
  | undefined
  | null
  | boolean (value : Bool)
  | number (value : JsNumber)
  | string (value : JsString)
  | array (items : List JsValue)
  | object (properties : List (JsString × JsValue))
  | other

namespace FiniteNumber

def IsNegative (number : FiniteNumber) : Prop := number.negative = true ∧ number.significand ≠ 0

instance (number : FiniteNumber) : Decidable number.IsNegative :=
  inferInstanceAs (Decidable (_ ∧ _))

def plainText (number : FiniteNumber) : JsString :=
  let written := decimal number.significand
  let point := written.length + number.exponent
  if 0 ≤ number.exponent then
    written ++ List.replicate number.exponent.toNat 48
  else if 0 < point then
    written.take point.toNat ++ [46] ++ written.drop point.toNat
  else
    js "0." ++ List.replicate (-point).toNat 48 ++ written

/-- `String(value)`: an exponent is written from `1e21` on and below `1e-6`. -/
def text (number : FiniteNumber) : JsString :=
  let written := decimal number.significand
  let point := written.length + number.exponent
  let sign := if number.IsNegative then js "-" else []
  if -6 < point ∧ point ≤ 21 then
    sign ++ number.plainText
  else
    let fraction := if written.length = 1 then [] else js "." ++ written.drop 1
    let exponentSign := if 0 < point then js "+" else js "-"
    sign ++ written.take 1 ++ fraction ++ js "e" ++ exponentSign ++ decimal (point - 1).natAbs

def integer? (number : FiniteNumber) : Option ℤ :=
  if 0 ≤ number.exponent then
    let magnitude : ℤ := number.significand * 10 ^ number.exponent.toNat
    some (if number.negative then -magnitude else magnitude)
  else
    none

end FiniteNumber

namespace JsValue

/-- Read a property; a value that is no object has none of its own. -/
def get (value : JsValue) (name : JsString) : JsValue :=
  match value with
  | object properties =>
      match properties.find? fun property => property.1 = name with
      | some property => property.2
      | none => undefined
  | _ => undefined

/-- The operator `??` with a string on its right. -/
def orString (value : JsValue) (default : JsString) : JsValue :=
  match value with
  | undefined => string default
  | null => string default
  | present => present

end JsValue

end Ecma
