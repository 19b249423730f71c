import StudentHub.Ecma.Canonical

/-!
# Code points

A string is read as code points by an iteration: a surrogate pair is one of them and a lone
surrogate is one by itself. The text that `JSON.stringify` writes for a string has as many
code points as those of the string are escaped to, and a lone surrogate is escaped to six.
-/

namespace Ecma

namespace JsString

/-- `[...text].map((char) => char.codePointAt(0))` -/
def codePoints : JsString → List ℕ
  | [] => []
  | [unit] => [unit.toNat]
  | first :: second :: rest =>
      if isHighSurrogate first && isLowSurrogate second then
        (0x10000 + (first.toNat - 0xD800) * 0x400 + (second.toNat - 0xDC00)) :: codePoints rest
      else
        first.toNat :: codePoints (second :: rest)

theorem length_codePoints (text : JsString) : text.codePoints.length = text.codePointCount := by
  induction text using codePoints.induct with
  | case1 => rfl
  | case2 unit => rfl
  | case3 first second rest pair ih => simp [codePoints, codePointCount, pair, ih]
  | case4 first second rest single ih => simp [codePoints, codePointCount, single, ih]

theorem codePoints_cons {unit : UInt16} (notHigh : isHighSurrogate unit = false) (rest : JsString) :
    codePoints (unit :: rest) = unit.toNat :: codePoints rest := by
  cases rest with
  | nil => rfl
  | cons second rest => simp [codePoints, notHigh]

theorem codePoints_append (front : JsString) {back : JsString}
    (opens : ∀ unit, back.head? = some unit → isLowSurrogate unit = false) :
    codePoints (front ++ back) = codePoints front ++ codePoints back := by
  induction front using codePoints.induct with
  | case1 => rfl
  | case2 unit =>
      cases back with
      | nil => rfl
      | cons first rest =>
          have notLow := opens first rfl
          simp [codePoints, notLow]
  | case3 first second rest pair ih => simp [codePoints, pair, ih]
  | case4 first second rest single ih =>
      have next : codePoints ((second :: rest) ++ back) = _ := ih
      rw [List.cons_append] at next
      simp [codePoints, single, next]

theorem codePoints_append_of_forall {front : JsString}
    (notHigh : ∀ unit ∈ front, isHighSurrogate unit = false) (back : JsString) :
    codePoints (front ++ back) = front.map UInt16.toNat ++ codePoints back := by
  induction front with
  | nil => rfl
  | cons unit rest ih =>
      rw [List.forall_mem_cons] at notHigh
      rw [List.cons_append, codePoints_cons notHigh.1, ih notHigh.2]
      rfl

theorem forall_not_isHighSurrogate {text : JsString}
    (notHigh : (text.all fun unit => !isHighSurrogate unit) = true) :
    ∀ unit ∈ text, isHighSurrogate unit = false := by
  simpa using notHigh

theorem codePointCount_append_of_forall {front : JsString}
    (notHigh : ∀ unit ∈ front, isHighSurrogate unit = false) (back : JsString) :
    (front ++ back).codePointCount = front.length + back.codePointCount := by
  simp [← length_codePoints, codePoints_append_of_forall notHigh]

theorem codePointCount_append (front : JsString) {back : JsString}
    (opens : ∀ unit, back.head? = some unit → isLowSurrogate unit = false) :
    (front ++ back).codePointCount = front.codePointCount + back.codePointCount := by
  simp [← length_codePoints, codePoints_append front opens]

theorem codePointCount_eq_length {text : JsString}
    (notHigh : ∀ unit ∈ text, isHighSurrogate unit = false) :
    text.codePointCount = text.length := by
  simpa [codePointCount] using codePointCount_append_of_forall notHigh []

theorem codePointCount_le_length (text : JsString) : text.codePointCount ≤ text.length := by
  induction text using codePointCount.induct with
  | case1 => simp [codePointCount]
  | case2 unit => simp [codePointCount]
  | case3 first second rest pair ih => simp [codePointCount, pair]; omega
  | case4 first second rest single ih => simp [codePointCount, single] at ih ⊢; omega

end JsString

namespace Json

open JsString

/-- A half of a surrogate pair as a code point: it stands by itself. -/
def IsSurrogateCode (code : ℕ) : Prop := 0xD800 ≤ code ∧ code ≤ 0xDFFF

instance (code : ℕ) : Decidable (IsSurrogateCode code) := inferInstanceAs (Decidable (_ ∧ _))

/-- A quotation mark or a backslash. -/
def IsQuotedCode (code : ℕ) : Prop := code = 34 ∨ code = 92

instance (code : ℕ) : Decidable (IsQuotedCode code) := inferInstanceAs (Decidable (_ ∨ _))

/-- The number of characters that a code point from the space on is written with. -/
def escapedLength (code : ℕ) : ℕ :=
  if IsSurrogateCode code then 6 else if IsQuotedCode code then 2 else 1

theorem escapedLength_of_le {code : ℕ} (large : 0x10000 ≤ code) : escapedLength code = 1 := by
  have notSurrogate : ¬IsSurrogateCode code := by
    simp only [IsSurrogateCode]
    omega
  have notQuoted : ¬IsQuotedCode code := by
    simp only [IsQuotedCode]
    omega
  rw [escapedLength, if_neg notSurrogate, if_neg notQuoted]

theorem not_isHighSurrogate_hexDigit {value : ℕ} (small : value < 16) :
    isHighSurrogate (hexDigit value) = false :=
  (Bool.or_eq_false_iff.mp (isSurrogate_hexDigit small)).1

theorem not_isHighSurrogate_of_mem_escapeAlone {unit written : UInt16}
    (writtenMem : written ∈ escapeAlone unit) : isHighSurrogate written = false := by
  have bound := unit.toNat_lt
  have escaped : ∀ given ∈ unicodeEscape unit, isHighSurrogate given = false := by
    simp only [unicodeEscape, List.forall_mem_cons]
    refine ⟨by decide, by decide, not_isHighSurrogate_hexDigit ?_, not_isHighSurrogate_hexDigit ?_,
      not_isHighSurrogate_hexDigit ?_, not_isHighSurrogate_hexDigit ?_, by simp⟩ <;> omega
  simp only [escapeAlone] at writtenMem
  split at writtenMem
  · exact escaped written writtenMem
  · rename_i notSurrogate
    simp only [Bool.or_eq_true, not_or, Bool.not_eq_true] at notSurrogate
    unfold escapeUnit at writtenMem
    split at writtenMem
    case h_8 =>
      split at writtenMem
      · exact escaped written writtenMem
      · rw [List.mem_singleton.mp writtenMem]
        exact notSurrogate.1
    all_goals
      simp only [List.mem_cons, List.not_mem_nil, or_false] at writtenMem
      rcases writtenMem with rfl | rfl <;> decide

theorem isSurrogateCode_iff {unit : UInt16} :
    IsSurrogateCode unit.toNat ↔ (isHighSurrogate unit || isLowSurrogate unit) = true := by
  have bounds : (0xD800 : UInt16).toNat = 0xD800 ∧ (0xDBFF : UInt16).toNat = 0xDBFF ∧
      (0xDC00 : UInt16).toNat = 0xDC00 ∧ (0xDFFF : UInt16).toNat = 0xDFFF := by decide
  simp only [IsSurrogateCode, isHighSurrogate, isLowSurrogate, Bool.or_eq_true, Bool.and_eq_true,
    decide_eq_true_eq, UInt16.le_iff_toNat_le]
  omega

theorem length_escapeAlone {unit : UInt16} (visible : 32 ≤ unit.toNat) :
    (escapeAlone unit).length = escapedLength unit.toNat := by
  simp only [escapeAlone, escapedLength, isSurrogateCode_iff]
  split
  · rfl
  · unfold escapeUnit
    split
    case h_8 notQuote notBackslash =>
      have above : ¬unit < 0x20 := by
        simp only [UInt16.lt_iff_toNat_lt, UInt16.reduceToNat]
        omega
      have notQuoted : ¬IsQuotedCode unit.toNat := by
        rintro (quote | backslash)
        · exact notQuote (UInt16.toNat_inj.mp quote)
        · exact notBackslash (UInt16.toNat_inj.mp backslash)
      rw [if_neg above, if_neg notQuoted]
      rfl
    all_goals first | rfl | exact absurd visible (by decide)

/-- The text of a string without control characters has the escaped length of each of its
code points. -/
theorem codePointCount_escapeText {text : JsString} (visible : ∀ code ∈ text.codePoints, 32 ≤ code) :
    (escapeText text).codePointCount = (text.codePoints.map escapedLength).sum := by
  induction text using codePoints.induct with
  | case1 => rfl
  | case2 unit =>
      have escaped := @codePointCount_append_of_forall (escapeAlone unit)
        (fun written => not_isHighSurrogate_of_mem_escapeAlone) []
      simp only [List.append_nil, codePointCount, Nat.add_zero] at escaped
      simp only [codePoints, List.forall_mem_singleton] at visible
      simp [escapeText, codePoints, escaped, length_escapeAlone visible]
  | case3 first second rest pair ih =>
      simp only [codePoints, if_pos pair, List.forall_mem_cons] at visible ⊢
      have whole : escapedLength (0x10000 + (first.toNat - 0xD800) * 0x400 +
          (second.toNat - 0xDC00)) = 1 := escapedLength_of_le (by omega)
      rw [escapeText, if_pos pair, codePointCount, if_pos pair, ih visible.2, List.map_cons,
        List.sum_cons, whole, Nat.add_comm]
  | case4 first second rest single ih =>
      simp only [codePoints, if_neg single, List.forall_mem_cons] at visible ⊢
      rw [escapeText, if_neg single, codePointCount_append_of_forall
        fun written => not_isHighSurrogate_of_mem_escapeAlone, ih visible.2,
        length_escapeAlone visible.1, List.map_cons, List.sum_cons]

theorem sum_escapedLength (codes : List ℕ) :
    (codes.map escapedLength).sum = codes.length +
      5 * codes.countP (fun code => IsSurrogateCode code) +
      codes.countP (fun code => IsQuotedCode code) := by
  induction codes with
  | nil => rfl
  | cons code rest ih =>
      have apart : IsSurrogateCode code → ¬IsQuotedCode code := by
        simp only [IsSurrogateCode, IsQuotedCode]
        omega
      by_cases surrogate : IsSurrogateCode code
      · simp [escapedLength, surrogate, apart surrogate, ih]
        omega
      · by_cases quoted : IsQuotedCode code
        · simp [escapedLength, surrogate, quoted, ih]
          omega
        · simp [escapedLength, surrogate, quoted, ih]
          omega

theorem codePointCount_quote (text : JsString) :
    (quote text).codePointCount = (escapeText text).codePointCount + 2 := by
  have closes : ∀ unit, ([34] : JsString).head? = some unit → isLowSurrogate unit = false := by
    simp only [List.head?_cons, Option.some.injEq, forall_eq']
    decide
  have opened := @codePointCount_append_of_forall [34]
    (forall_not_isHighSurrogate (by decide)) (escapeText text ++ [34])
  rw [List.singleton_append] at opened
  rw [quote, List.cons_append, opened, codePointCount_append _ closes, List.length_singleton]
  simp only [codePointCount]
  omega

def isPlain (unit : UInt16) : Bool := 32 ≤ unit && unit ≤ 126 && unit ≠ 34 && unit ≠ 92

theorem isPlain_iff {unit : UInt16} : isPlain unit = true ↔
    32 ≤ unit.toNat ∧ unit.toNat ≤ 126 ∧ unit.toNat ≠ 34 ∧ unit.toNat ≠ 92 := by
  have bounds : (32 : UInt16).toNat = 32 ∧ (126 : UInt16).toNat = 126 ∧ (34 : UInt16).toNat = 34 ∧
      (92 : UInt16).toNat = 92 := by decide
  simp only [isPlain, ne_eq, decide_not, Bool.and_eq_true, Bool.not_eq_true', decide_eq_true_eq,
    decide_eq_false_iff_not, UInt16.le_iff_toNat_le, ← UInt16.toNat_inj]
  omega

theorem escapeAlone_of_isPlain {unit : UInt16} (plain : isPlain unit = true) :
    escapeAlone unit = [unit] ∧ isHighSurrogate unit = false := by
  have values := isPlain_iff.mp plain
  have notSurrogate : ¬(isHighSurrogate unit || isLowSurrogate unit) = true := by
    rw [← isSurrogateCode_iff, IsSurrogateCode]
    omega
  refine ⟨?_, ?_⟩
  · rw [escapeAlone, if_neg notSurrogate]
    unfold escapeUnit
    split
    case h_8 =>
      rw [if_neg]
      simp only [UInt16.lt_iff_toNat_lt, UInt16.reduceToNat]
      omega
    all_goals exact absurd plain (by decide)
  · simp only [Bool.or_eq_true, not_or, Bool.not_eq_true] at notSurrogate
    exact notSurrogate.1

theorem escapeText_of_isPlain {text : JsString} (plain : ∀ unit ∈ text, isPlain unit = true) :
    escapeText text = text := by
  induction text using escapeText.induct with
  | case1 => rfl
  | case2 unit => exact (escapeAlone_of_isPlain (plain unit List.mem_cons_self)).1
  | case3 first second rest pair ih =>
      have notHigh := (escapeAlone_of_isPlain (plain first List.mem_cons_self)).2
      simp [notHigh] at pair
  | case4 first second rest single ih =>
      rw [List.forall_mem_cons] at plain
      rw [escapeText, if_neg single, (escapeAlone_of_isPlain plain.1).1, ih plain.2]
      rfl

theorem length_quote_of_isPlain {text : JsString} (plain : ∀ unit ∈ text, isPlain unit = true) :
    (quote text).length = text.length + 2 := by
  simp [quote, escapeText_of_isPlain plain]

theorem codePointCount_of_isPlain {text : JsString} (plain : ∀ unit ∈ text, isPlain unit = true) :
    text.codePointCount = text.length :=
  codePointCount_eq_length fun unit unitMem => (escapeAlone_of_isPlain (plain unit unitMem)).2

end Json

end Ecma
