import StudentHub.Ecma.Value

/-!
# `JSON.stringify`

A string is quoted with escapes for quotes, backslashes, control characters and lone
surrogates, so that the text is well formed whatever the string holds, and the string
is read back from it. A value that has no text is left out of an object and is `null`
in an array.
-/

namespace Ecma.Json

open JsString

def hexDigit (value : ℕ) : UInt16 :=
  if value < 10 then (48 + value).toUInt16 else (87 + value).toUInt16

/-- The escape `\uXXXX` of a code unit. -/
def unicodeEscape (unit : UInt16) : JsString :=
  [92, 117, hexDigit (unit.toNat / 4096), hexDigit (unit.toNat / 256 % 16),
    hexDigit (unit.toNat / 16 % 16), hexDigit (unit.toNat % 16)]

def escapeUnit (unit : UInt16) : JsString :=
  match unit with
  | 0x08 => [92, 98]
  | 0x09 => [92, 116]
  | 0x0A => [92, 110]
  | 0x0C => [92, 102]
  | 0x0D => [92, 114]
  | 0x22 => [92, 34]
  | 0x5C => [92, 92]
  | unit => if unit < 0x20 then unicodeEscape unit else [unit]

def escapeAlone (unit : UInt16) : JsString :=
  if isHighSurrogate unit || isLowSurrogate unit then unicodeEscape unit else escapeUnit unit

def escapeText : JsString → JsString
  | [] => []
  | [unit] => escapeAlone unit
  | first :: second :: rest =>
      if isHighSurrogate first && isLowSurrogate second then
        first :: second :: escapeText rest
      else
        escapeAlone first ++ escapeText (second :: rest)

/-- `QuoteJSONString` -/
def quote (text : JsString) : JsString := 34 :: escapeText text ++ [34]

def commaSeparated : List JsString → JsString
  | [] => []
  | [text] => text
  | first :: second :: rest => first ++ [44] ++ commaSeparated (second :: rest)

mutual

/-- `JSON.stringify`, which answers `undefined` where there is no text. -/
def stringify : JsValue → Option JsString
  | .undefined | .other => none
  | .null => some (js "null")
  | .boolean value => some (if value then js "true" else js "false")
  | .number (.finite number) => some number.text
  | .number _ => some (js "null")
  | .string text => some (quote text)
  | .array items => some ([91] ++ commaSeparated (stringifyItems items) ++ [93])
  | .object properties => some ([123] ++ commaSeparated (stringifyProperties properties) ++ [125])

def stringifyItems : List JsValue → List JsString
  | [] => []
  | item :: rest => (stringify item).getD (js "null") :: stringifyItems rest

def stringifyProperties : List (JsString × JsValue) → List JsString
  | [] => []
  | (name, value) :: rest =>
      match stringify value with
      | none => stringifyProperties rest
      | some text => (quote name ++ [58] ++ text) :: stringifyProperties rest

end

def hexValue (unit : UInt16) : ℕ := if unit < 58 then unit.toNat - 48 else unit.toNat - 87

def unescapeUnit : JsString → Option (UInt16 × JsString)
  | 92 :: 117 :: first :: second :: third :: fourth :: rest =>
      some ((((hexValue first * 16 + hexValue second) * 16 + hexValue third) * 16 +
        hexValue fourth).toUInt16, rest)
  | 92 :: 98 :: rest => some (0x08, rest)
  | 92 :: 116 :: rest => some (0x09, rest)
  | 92 :: 110 :: rest => some (0x0A, rest)
  | 92 :: 102 :: rest => some (0x0C, rest)
  | 92 :: 114 :: rest => some (0x0D, rest)
  | 92 :: unit :: rest => some (unit, rest)
  | unit :: rest => some (unit, rest)
  | [] => none

theorem hexValue_hexDigit {value : ℕ} (small : value < 16) : hexValue (hexDigit value) = value := by
  revert value
  decide

theorem unescapeUnit_unicodeEscape (unit : UInt16) (rest : JsString) :
    unescapeUnit (unicodeEscape unit ++ rest) = some (unit, rest) := by
  have bound := unit.toNat_lt
  have value : ((unit.toNat / 4096 * 16 + unit.toNat / 256 % 16) * 16 + unit.toNat / 16 % 16) * 16 +
      unit.toNat % 16 = unit.toNat := by omega
  simp only [unicodeEscape, List.cons_append, List.nil_append, unescapeUnit]
  rw [hexValue_hexDigit (by omega), hexValue_hexDigit (by omega), hexValue_hexDigit (by omega),
    hexValue_hexDigit (by omega), value]
  simp

theorem unescapeUnit_cons {unit : UInt16} (plain : unit ≠ 92) (rest : JsString) :
    unescapeUnit (unit :: rest) = some (unit, rest) := by
  apply unescapeUnit.eq_8
  all_goals
    intros
    contradiction

theorem unescapeUnit_escapeAlone (unit : UInt16) (rest : JsString) :
    unescapeUnit (escapeAlone unit ++ rest) = some (unit, rest) := by
  simp only [escapeAlone]
  split
  · exact unescapeUnit_unicodeEscape unit rest
  · unfold escapeUnit
    split
    case h_8 notBackslash =>
      split
      · exact unescapeUnit_unicodeEscape unit rest
      · exact unescapeUnit_cons notBackslash rest
    all_goals rfl

theorem head_escapeAlone (unit : UInt16) :
    ∃ first rest, escapeAlone unit = first :: rest ∧ isHighSurrogate first = false ∧ first ≠ 34 := by
  simp only [escapeAlone]
  split
  · exact ⟨92, _, rfl, by decide, by decide⟩
  · rename_i notSurrogate
    simp only [Bool.or_eq_true, not_or, Bool.not_eq_true] at notSurrogate
    unfold escapeUnit
    split
    case h_8 notQuote _ =>
      split
      · exact ⟨92, _, rfl, by decide, by decide⟩
      · exact ⟨unit, [], rfl, notSurrogate.1, notQuote⟩
    all_goals exact ⟨92, _, rfl, by decide, by decide⟩

inductive Opens : JsString → JsString → JsString → Prop
  | alone (unit : UInt16) (rest : JsString) : Opens (unit :: rest) (escapeAlone unit) rest
  | pair {first second : UInt16} (high : isHighSurrogate first = true) (rest : JsString) :
      Opens (first :: second :: rest) [first, second] rest

theorem opens_of_cons (unit : UInt16) (text : JsString) :
    ∃ written rest, Opens (unit :: text) written rest ∧
      escapeText (unit :: text) = written ++ escapeText rest := by
  cases text with
  | nil => exact ⟨_, _, Opens.alone unit [], by simp [escapeText]⟩
  | cons second rest =>
    rw [escapeText]
    split
    · rename_i both
      rw [Bool.and_eq_true] at both
      exact ⟨_, _, Opens.pair both.1 rest, rfl⟩
    · exact ⟨_, _, Opens.alone unit (second :: rest), rfl⟩

theorem Opens.length_lt {text written rest : JsString} (opens : Opens text written rest) :
    rest.length < text.length := by
  cases opens <;> simp only [List.length_cons] <;> omega

theorem Opens.eq_of_append_eq {left right leftWritten rightWritten leftRest rightRest : JsString}
    (leftOpens : Opens left leftWritten leftRest) (rightOpens : Opens right rightWritten rightRest)
    {leftMore rightMore : JsString} (same : leftWritten ++ leftMore = rightWritten ++ rightMore) :
    (leftRest = rightRest → left = right) ∧ leftMore = rightMore := by
  have notPair : ∀ unit first second : UInt16, ∀ more more' : JsString,
      isHighSurrogate first = true → escapeAlone unit ++ more ≠ first :: second :: more' := by
    intro unit first second more more' high equal
    rcases head_escapeAlone unit with ⟨head, tail, written, notHigh, -⟩
    rw [written, List.cons_append, List.cons.injEq] at equal
    rw [equal.1, high] at notHigh
    contradiction
  cases leftOpens with
  | alone leftUnit =>
    cases rightOpens with
    | alone rightUnit =>
      have decoded := congrArg unescapeUnit same
      rw [unescapeUnit_escapeAlone, unescapeUnit_escapeAlone, Option.some.injEq,
        Prod.mk.injEq] at decoded
      exact ⟨fun rests => by rw [decoded.1, rests], decoded.2⟩
    | pair high => exact absurd same (notPair _ _ _ _ _ high)
  | pair leftHigh =>
    cases rightOpens with
    | alone rightUnit => exact absurd same.symm (notPair _ _ _ _ _ leftHigh)
    | pair rightHigh =>
      simp only [List.cons_append, List.nil_append, List.cons.injEq] at same
      exact ⟨fun rests => by rw [same.1, same.2.1, rests], same.2.2⟩

theorem Opens.ne_quote {text written rest more more' : JsString} (opens : Opens text written rest) :
    written ++ more ≠ 34 :: more' := by
  cases opens with
  | alone unit =>
    rcases head_escapeAlone unit with ⟨head, tail, written, -, notQuote⟩
    simp [written, notQuote]
  | pair high =>
    intro same
    simp only [List.cons_append, List.cons.injEq] at same
    rw [same.1] at high
    contradiction

theorem eq_of_escapeText_eq {left right leftMore rightMore : JsString}
    (same : escapeText left ++ 34 :: leftMore = escapeText right ++ 34 :: rightMore) :
    left = right ∧ leftMore = rightMore := by
  induction sized : left.length using Nat.strong_induction_on generalizing left right with
  | _ size shorter =>
    cases left with
    | nil =>
      cases right with
      | nil => simpa [escapeText] using same
      | cons unit text =>
        rcases opens_of_cons unit text with ⟨written, rest, opens, escaped⟩
        rw [escaped, List.append_assoc] at same
        exact absurd same.symm opens.ne_quote
    | cons leftUnit leftText =>
      rcases opens_of_cons leftUnit leftText with ⟨leftWritten, leftRest, leftOpens, leftEscaped⟩
      rw [leftEscaped, List.append_assoc] at same
      cases right with
      | nil => exact absurd same leftOpens.ne_quote
      | cons rightUnit rightText =>
        rcases opens_of_cons rightUnit rightText with
          ⟨rightWritten, rightRest, rightOpens, rightEscaped⟩
        rw [rightEscaped, List.append_assoc] at same
        rcases leftOpens.eq_of_append_eq rightOpens same with ⟨equal, more⟩
        rcases shorter _ (sized ▸ leftOpens.length_lt) more rfl with ⟨rests, ends⟩
        exact ⟨equal rests, ends⟩

theorem eq_of_quote_append_eq {left right leftMore rightMore : JsString}
    (same : quote left ++ leftMore = quote right ++ rightMore) :
    left = right ∧ leftMore = rightMore := by
  simp only [quote, List.cons_append, List.append_assoc, List.nil_append, List.cons.injEq,
    true_and] at same
  exact eq_of_escapeText_eq same

end Ecma.Json
