import Mathlib.Algebra.GroupWithZero.Nat
import Mathlib.Data.List.DropRight
import Mathlib.Data.List.Basic
import Mathlib.Data.List.Nodup
import Std.Data.String.ToNat

/-!
# ECMAScript strings

A string is a sequence of UTF-16 code units. Nothing requires the sequence to be
well formed: a lone surrogate is an ordinary element, and it is lost only where a
string leaves the program as UTF-8 bytes. Comparison with `<` is the
lexicographic order of code units, which is the order of the list type.

`Utf8` holds the bytes of a UTF-8 text. Well-formed strings and UTF-8 texts
determine one another, so the bytes are represented by the string they encode.
-/

namespace Ecma

/-- A string: its UTF-16 code units, lone surrogates included. -/
abbrev JsString := List UInt16

instance : LawfulBEq JsString := inferInstance

instance : LawfulBEq (Option JsString) := inferInstance

instance : LawfulBEq (JsString × JsString) := inferInstance

def codeUnits (scalar : Char) : JsString :=
  if scalar.toNat < 0x10000 then
    [scalar.toNat.toUInt16]
  else
    [(0xD800 + (scalar.toNat - 0x10000) / 0x400).toUInt16,
      (0xDC00 + (scalar.toNat - 0x10000) % 0x400).toUInt16]

def js (literal : String) : JsString :=
  literal.toList.flatMap codeUnits

def decimal (number : ℕ) : JsString :=
  (Nat.toDigits 10 number).map fun digit => digit.toNat.toUInt16

theorem ofNat_toUInt16_of_isDigit {digit : Char} (isDigit : digit.isDigit = true) :
    Char.ofNat digit.toNat.toUInt16.toNat = digit := by
  have small : digit.toNat < 2 ^ 16 := by
    simp only [Char.isDigit, Bool.and_eq_true, decide_eq_true_eq] at isDigit
    have bound : digit.val.toNat ≤ 57 := UInt32.le_iff_toNat_le.mp isDigit.2
    show digit.val.toNat < 2 ^ 16
    omega
  rw [UInt16.toNat_ofNat_of_lt' small, Char.ofNat_toNat]

theorem decimal_injective : Function.Injective decimal := by
  have decode : ∀ number,
      (decimal number).map (fun unit => Char.ofNat unit.toNat) = Nat.toDigits 10 number := by
    intro number
    simp only [decimal, List.map_map]
    refine (List.map_congr_left ?_).trans (List.map_id _)
    intro digit digitMem
    exact ofNat_toUInt16_of_isDigit
      (Nat.isDigit_of_mem_toDigits (by decide) (by decide) digitMem)
  intro left right same
  apply Nat.repr_injective
  rw [Nat.repr_eq_ofList_toDigits, Nat.repr_eq_ofList_toDigits, ← decode, ← decode, same]

namespace JsString

/-- The `WhiteSpace` and `LineTerminator` code units, which `trim` strips. -/
def isWhiteSpace (unit : UInt16) : Bool :=
  unit ∈ ([0x09, 0x0A, 0x0B, 0x0C, 0x0D, 0x20, 0xA0, 0x1680, 0x2028, 0x2029, 0x202F, 0x205F,
    0x3000, 0xFEFF] : List UInt16) || (0x2000 ≤ unit && unit ≤ 0x200A)

/-- Strip white space at both ends, `String.prototype.trim`. -/
def trim (text : JsString) : JsString :=
  (text.dropWhile isWhiteSpace).rdropWhile isWhiteSpace

@[simp]
theorem trim_trim (text : JsString) : text.trim.trim = text.trim := by
  have headStays : text.trim.dropWhile isWhiteSpace = text.trim := by
    rw [List.dropWhile_eq_self_iff]
    intro nonempty
    have kept : text.trim <+: text.dropWhile isWhiteSpace := List.rdropWhile_prefix _ _
    have outerNonempty : 0 < (text.dropWhile isWhiteSpace).length :=
      nonempty.trans_le kept.length_le
    rw [kept.getElem nonempty]
    have headNot := List.dropWhile_get_zero_not isWhiteSpace text outerNonempty
    simpa using headNot
  show (text.trim.dropWhile isWhiteSpace).rdropWhile isWhiteSpace = text.trim
  rw [headStays]
  exact List.rdropWhile_idempotent _ _

theorem trim_eq_self {first last : UInt16} (middle : JsString)
    (opens : isWhiteSpace first = false) (closes : isWhiteSpace last = false) :
    trim (first :: middle ++ [last]) = first :: middle ++ [last] := by
  rw [trim, List.cons_append, List.dropWhile_cons_of_neg (by simp [opens]), ← List.cons_append,
    List.rdropWhile_concat_neg _ _ _ (by simp [closes])]

def isHighSurrogate (unit : UInt16) : Bool := 0xD800 ≤ unit && unit ≤ 0xDBFF

def isLowSurrogate (unit : UInt16) : Bool := 0xDC00 ≤ unit && unit ≤ 0xDFFF

def characters : JsString → List JsString
  | first :: second :: rest =>
      if isHighSurrogate first && isLowSurrogate second then
        [first, second] :: characters rest
      else
        [first] :: characters (second :: rest)
  | [unit] => [[unit]]
  | [] => []

/-- Every lone surrogate becomes U+FFFD, as in `String.prototype.toWellFormed`. -/
def toWellFormed : JsString → JsString
  | [] => []
  | [unit] => [if isHighSurrogate unit || isLowSurrogate unit then 0xFFFD else unit]
  | first :: second :: rest =>
      if isHighSurrogate first && isLowSurrogate second then
        first :: second :: toWellFormed rest
      else
        (if isHighSurrogate first || isLowSurrogate first then 0xFFFD else first) ::
          toWellFormed (second :: rest)

/-- The string has no lone surrogate, as in `String.prototype.isWellFormed`. -/
def WellFormed (text : JsString) : Prop := text.toWellFormed = text

instance (text : JsString) : Decidable text.WellFormed :=
  inferInstanceAs (Decidable (text.toWellFormed = text))

def isSurrogate (unit : UInt16) : Bool := isHighSurrogate unit || isLowSurrogate unit

theorem toWellFormed_cons {unit : UInt16} (scalar : isSurrogate unit = false) (rest : JsString) :
    toWellFormed (unit :: rest) = unit :: toWellFormed rest := by
  have neither := Bool.or_eq_false_iff.mp scalar
  cases rest with
  | nil => simp [toWellFormed, neither.1, neither.2]
  | cons second rest => simp [toWellFormed, neither.1, neither.2]

theorem isSurrogate_replaced (unit : UInt16) :
    isSurrogate (if isHighSurrogate unit || isLowSurrogate unit then 0xFFFD else unit) = false := by
  split
  · decide
  · rename_i neither
    simpa [isSurrogate] using neither

theorem WellFormed.toWellFormed_append {front : JsString} (wellFormed : front.WellFormed)
    (back : JsString) : (front ++ back).toWellFormed = front ++ back.toWellFormed := by
  induction front using toWellFormed.induct with
  | case1 => rfl
  | case2 unit =>
    have replaced := isSurrogate_replaced unit
    simp only [WellFormed, toWellFormed, List.cons.injEq, and_true] at wellFormed
    rw [wellFormed] at replaced
    exact toWellFormed_cons replaced back
  | case3 first second rest pair shorter =>
    simp only [WellFormed, toWellFormed, if_pos pair, List.cons.injEq, true_and] at wellFormed
    simp only [List.cons_append, toWellFormed, if_pos pair, shorter wellFormed]
  | case4 first second rest single shorter =>
    have replaced := isSurrogate_replaced first
    simp only [WellFormed, toWellFormed, if_neg single, List.cons.injEq] at wellFormed
    rw [wellFormed.1] at replaced
    rw [List.cons_append, toWellFormed_cons replaced, shorter wellFormed.2]
    rfl

theorem WellFormed.append {front back : JsString} (frontWellFormed : front.WellFormed)
    (backWellFormed : back.WellFormed) : (front ++ back).WellFormed := by
  rw [WellFormed, frontWellFormed.toWellFormed_append, backWellFormed]

theorem wellFormed_cons {unit : UInt16} {rest : JsString} (scalar : isSurrogate unit = false)
    (wellFormed : rest.WellFormed) : WellFormed (unit :: rest) := by
  rw [WellFormed, toWellFormed_cons scalar, wellFormed]

theorem wellFormed_of_forall {text : JsString} (scalars : ∀ unit ∈ text, isSurrogate unit = false) :
    text.WellFormed := by
  induction text with
  | nil => rfl
  | cons unit rest shorter =>
    rw [List.forall_mem_cons] at scalars
    exact wellFormed_cons scalars.1 (shorter scalars.2)

theorem wellFormed_toWellFormed (text : JsString) : text.toWellFormed.WellFormed := by
  induction text using toWellFormed.induct with
  | case1 => rfl
  | case2 unit =>
    rw [toWellFormed]
    exact wellFormed_cons (isSurrogate_replaced unit) rfl
  | case3 first second rest pair shorter =>
    simp only [WellFormed, toWellFormed, if_pos pair] at shorter ⊢
    rw [shorter]
  | case4 first second rest single shorter =>
    simp only [toWellFormed, if_neg single]
    exact wellFormed_cons (isSurrogate_replaced first) shorter

/-- Number of code points, `[...text].length`: a surrogate pair counts once. -/
def codePointCount : JsString → ℕ
  | [] => 0
  | [_] => 1
  | first :: second :: rest =>
      if isHighSurrogate first && isLowSurrogate second then
        codePointCount rest + 1
      else
        codePointCount (second :: rest) + 1

end JsString

@[ext]
structure Utf8 where
  text : JsString
  wellFormed : text.WellFormed
  deriving DecidableEq

def Utf8.byteLength (bytes : Utf8) : ℕ :=
  (bytes.text.map fun unit =>
    if unit < 0x80 then 1 else if unit < 0x800 || JsString.isSurrogate unit then 2 else 3).sum

def JsString.toUtf8 (text : JsString) : Utf8 := ⟨text.toWellFormed, text.wellFormed_toWellFormed⟩

theorem JsString.WellFormed.text_toUtf8 {text : JsString} (wellFormed : text.WellFormed) :
    text.toUtf8.text = text :=
  wellFormed

theorem JsString.WellFormed.eq_of_toUtf8_eq {left right : JsString} (leftWellFormed : left.WellFormed)
    (rightWellFormed : right.WellFormed) (same : left.toUtf8 = right.toUtf8) : left = right := by
  rw [← leftWellFormed.text_toUtf8, ← rightWellFormed.text_toUtf8, same]

/-- A digest function with known values; the other messages are their own digests, marked
by a code unit that no digest begins with. -/
def tabulated (known : List (JsString × JsString)) (message : Utf8) : JsString :=
  match known.find? fun entry => entry.1 = message.text with
  | some entry => entry.2
  | none => 35 :: message.text

theorem injective_tabulated {known : List (JsString × JsString)}
    (distinct : (known.map Prod.snd).Nodup) (unmarked : ∀ entry ∈ known, entry.2.head? ≠ some 35) :
    Function.Injective (tabulated known) := by
  intro left right same
  apply Utf8.ext
  simp only [tabulated] at same
  split at same
  · rename_i leftEntry leftFound
    have leftText : leftEntry.1 = left.text := by simpa using List.find?_some leftFound
    have leftMem := List.mem_of_find?_eq_some leftFound
    split at same
    · rename_i rightEntry rightFound
      have rightText : rightEntry.1 = right.text := by simpa using List.find?_some rightFound
      have rightMem := List.mem_of_find?_eq_some rightFound
      rw [← leftText, ← rightText, List.inj_on_of_nodup_map distinct leftMem rightMem same]
    · have marked := unmarked leftEntry leftMem
      simp [same] at marked
  · split at same
    · rename_i rightEntry rightFound
      have marked := unmarked rightEntry (List.mem_of_find?_eq_some rightFound)
      simp [← same] at marked
    · exact (List.cons.inj same).2

end Ecma
