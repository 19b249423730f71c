import StudentHub.Ecma.Numerals
import StudentHub.Ecma.Objects

/-!
# `JSON.parse`

A text is read with as much fuel as it is long. A numeral is rounded to a number by a function of
the engine. The text of a value is read back as that value, when its objects have each name once
and in the order in which they are enumerated.
-/

namespace Ecma.Json

open JsString

/-- The value of `[0-9A-Fa-f]`. -/
def hexDigit? (unit : UInt16) : Option ℕ :=
  if isDigit unit then
    some (unit.toNat - 48)
  else if 97 ≤ unit ∧ unit ≤ 102 then
    some (unit.toNat - 87)
  else if 65 ≤ unit ∧ unit ≤ 70 then
    some (unit.toNat - 55)
  else
    none

def escaped? (unit : UInt16) : Option UInt16 :=
  match unit with
  | 34 | 92 | 47 => some unit
  | 98 => some 0x08
  | 102 => some 0x0C
  | 110 => some 0x0A
  | 114 => some 0x0D
  | 116 => some 0x09
  | _ => none

def takeStringUnit : JsString → Option (UInt16 × JsString)
  | 92 :: 117 :: first :: second :: third :: fourth :: rest => do
      let value := (((← hexDigit? first) * 16 + (← hexDigit? second)) * 16 + (← hexDigit? third)) * 16 +
        (← hexDigit? fourth)
      return (value.toUInt16, rest)
  | 92 :: unit :: rest => (escaped? unit).map fun unit => (unit, rest)
  | unit :: rest => if unit < 0x20 ∨ unit = 92 then none else some (unit, rest)
  | [] => none

def takeString : ℕ → JsString → Option (JsString × JsString)
  | 0, _ => none
  | _ + 1, 34 :: rest => some ([], rest)
  | fuel + 1, text => do
      let (unit, rest) ← takeStringUnit text
      let (units, rest) ← takeString fuel rest
      return (unit :: units, rest)

def isBlank (unit : UInt16) : Bool := unit = 9 || unit = 10 || unit = 13 || unit = 32

def skip (text : JsString) : JsString := text.dropWhile isBlank

/-- The object of the members that are read in turn; a name that is there again is set again. -/
def objectOf (members : List (JsString × JsValue)) : JsValue :=
  fromEntries (members.foldl (fun properties member =>
    JsValue.setProperty properties member.1 member.2) [])

/-- `null`, `true`, `false` and numbers. -/
def takeScalar (round : FiniteNumber → JsNumber) (text : JsString) : Option (JsValue × JsString) :=
  if (js "null").isPrefixOf text then
    some (.null, text.drop 4)
  else if (js "true").isPrefixOf text then
    some (.boolean true, text.drop 4)
  else if (js "false").isPrefixOf text then
    some (.boolean false, text.drop 5)
  else
    (takeNumber text).map fun (number, rest) => (.number (round number), rest)

mutual

def takeValue (round : FiniteNumber → JsNumber) : ℕ → JsString → Option (JsValue × JsString)
  | 0, _ => none
  | fuel + 1, text =>
      match skip text with
      | 34 :: rest => (takeString fuel rest).map fun (text, rest) => (.string text, rest)
      | 91 :: rest =>
          match skip rest with
          | 93 :: rest => some (.array [], rest)
          | rest => (takeItems round fuel rest).map fun (items, rest) => (.array items, rest)
      | 123 :: rest =>
          match skip rest with
          | 125 :: rest => some (.object [], rest)
          | rest => (takeMembers round fuel rest).map fun (members, rest) => (objectOf members, rest)
      | text => takeScalar round text

def takeItems (round : FiniteNumber → JsNumber) :
    ℕ → JsString → Option (List JsValue × JsString)
  | 0, _ => none
  | fuel + 1, text => do
      let (item, rest) ← takeValue round fuel text
      match skip rest with
      | 44 :: rest => (takeItems round fuel rest).map fun (items, rest) => (item :: items, rest)
      | 93 :: rest => some ([item], rest)
      | _ => none

def takeMembers (round : FiniteNumber → JsNumber) :
    ℕ → JsString → Option (List (JsString × JsValue) × JsString)
  | 0, _ => none
  | fuel + 1, text =>
      match skip text with
      | 34 :: rest => do
          let (name, rest) ← takeString fuel rest
          match skip rest with
          | 58 :: rest => do
              let (value, rest) ← takeValue round fuel rest
              match skip rest with
              | 44 :: rest =>
                  (takeMembers round fuel rest).map fun (members, rest) => ((name, value) :: members, rest)
              | 125 :: rest => some ([(name, value)], rest)
              | _ => none
          | _ => none
      | _ => none

end

/-- `JSON.parse`, which answers nothing where it throws a `SyntaxError`. -/
def parse (round : FiniteNumber → JsNumber) (text : JsString) : Option JsValue := do
  let (value, rest) ← takeValue round (text.length + 1) text
  if skip rest = [] then some value else none

section Reread

variable (round : FiniteNumber → JsNumber)

mutual

/-- `JSON.parse(JSON.stringify(value))` -/
def reread : JsValue → JsValue
  | .undefined | .other => .undefined
  | .number (.finite number) => .number (round number.unsigned)
  | .number _ => .null
  | .array items => .array (rereadItems items)
  | .object properties => objectOf (rereadProperties properties)
  | value => value

def rereadItems : List JsValue → List JsValue
  | [] => []
  | item :: rest =>
      (match stringify item with
      | none => .null
      | some _ => reread item) :: rereadItems rest

def rereadProperties : List (JsString × JsValue) → List (JsString × JsValue)
  | [] => []
  | (name, value) :: rest =>
      match stringify value with
      | none => rereadProperties rest
      | some _ => (name, reread value) :: rereadProperties rest

end

end Reread

theorem hexDigit?_hexDigit {value : ℕ} (small : value < 16) : hexDigit? (hexDigit value) = some value := by
  revert value
  decide

theorem takeStringUnit_unicodeEscape (unit : UInt16) (rest : JsString) :
    takeStringUnit (unicodeEscape unit ++ rest) = some (unit, rest) := by
  have bound := unit.toNat_lt
  have value : ((unit.toNat / 4096 * 16 + unit.toNat / 256 % 16) * 16 + unit.toNat / 16 % 16) * 16 +
      unit.toNat % 16 = unit.toNat := by omega
  simp only [unicodeEscape, List.cons_append, List.nil_append, takeStringUnit, Option.bind_eq_bind]
  rw [hexDigit?_hexDigit (by omega), hexDigit?_hexDigit (by omega), hexDigit?_hexDigit (by omega),
    hexDigit?_hexDigit (by omega)]
  simp only [Option.bind_some, Option.pure_def, value, Nat.toUInt16_eq, UInt16.ofNat_toNat]

theorem takeStringUnit_cons {unit : UInt16} (plain : unit ≠ 92) (visible : ¬unit < 0x20)
    (rest : JsString) : takeStringUnit (unit :: rest) = some (unit, rest) := by
  rw [takeStringUnit.eq_3]
  · rw [if_neg (by simp [visible, plain])]
  all_goals
    intros
    simp_all

theorem takeStringUnit_escapeAlone (unit : UInt16) (rest : JsString) :
    takeStringUnit (escapeAlone unit ++ rest) = some (unit, rest) := by
  simp only [escapeAlone]
  split
  · exact takeStringUnit_unicodeEscape unit rest
  · unfold escapeUnit
    split
    case h_8 notBackslash =>
      split
      · exact takeStringUnit_unicodeEscape unit rest
      · rename_i visible
        exact takeStringUnit_cons notBackslash visible rest
    all_goals rfl

theorem takeString_cons {fuel : ℕ} {text rest units more : JsString} {unit : UInt16}
    (noQuote : ∀ rest, text ≠ 34 :: rest) (taken : takeStringUnit text = some (unit, rest))
    (after : takeString fuel rest = some (units, more)) :
    takeString (fuel + 1) text = some (unit :: units, more) := by
  rw [takeString.eq_3 text fuel noQuote]
  simp [taken, after]

theorem takeStringUnit_surrogate {unit : UInt16} (surrogate : 0xD800 ≤ unit) (rest : JsString) :
    takeStringUnit (unit :: rest) = some (unit, rest) := by
  apply takeStringUnit_cons
  · rintro rfl
    exact absurd surrogate (by decide)
  · intro hidden
    have low : (0xD800 : UInt16).toNat = 0xD800 := rfl
    have blank : (0x20 : UInt16).toNat = 0x20 := rfl
    rw [UInt16.le_iff_toNat_le] at surrogate
    rw [UInt16.lt_iff_toNat_lt] at hidden
    omega

theorem takeString_surrogate {fuel : ℕ} {unit : UInt16} (surrogate : 0xD800 ≤ unit)
    {rest units more : JsString} (after : takeString fuel rest = some (units, more)) :
    takeString (fuel + 1) (unit :: rest) = some (unit :: units, more) := by
  refine takeString_cons ?_ (takeStringUnit_surrogate surrogate rest) after
  rintro _ same
  rw [(List.cons.inj same).1] at surrogate
  exact absurd surrogate (by decide)

theorem takeString_escapeAlone {fuel : ℕ} (unit : UInt16) {rest units more : JsString}
    (after : takeString fuel rest = some (units, more)) :
    takeString (fuel + 1) (escapeAlone unit ++ rest) = some (unit :: units, more) := by
  refine takeString_cons ?_ (takeStringUnit_escapeAlone unit rest) after
  intro tail same
  rcases head_escapeAlone unit with ⟨head, _, written, -, notQuote⟩
  rw [written, List.cons_append] at same
  exact notQuote (List.cons.inj same).1

theorem takeString_escapeText {text : JsString} {fuel : ℕ} (enough : text.length < fuel)
    (more : JsString) : takeString fuel (escapeText text ++ 34 :: more) = some (text, more) := by
  induction text using escapeText.induct generalizing fuel with
  | case1 =>
      cases fuel with
      | zero => cases enough
      | succ fuel => rfl
  | case2 unit =>
      obtain ⟨fuel, rfl⟩ : ∃ less, fuel = less + 2 := ⟨fuel - 2, by simp at enough; omega⟩
      exact takeString_escapeAlone unit rfl
  | case3 first second rest pair ih =>
      obtain ⟨fuel, rfl⟩ : ∃ less, fuel = less + 2 := ⟨fuel - 2, by simp at enough; omega⟩
      rw [escapeText, if_pos pair, List.cons_append, List.cons_append]
      simp only [isHighSurrogate, isLowSurrogate, Bool.and_eq_true, decide_eq_true_eq] at pair
      refine takeString_surrogate pair.1.1 (takeString_surrogate ?_ (ih ?_))
      · exact UInt16.le_trans (by decide) pair.2.1
      · simp only [List.length_cons] at enough
        omega
  | case4 first second rest single ih =>
      obtain ⟨fuel, rfl⟩ : ∃ less, fuel = less + 1 := ⟨fuel - 1, by simp at enough; omega⟩
      rw [escapeText, if_neg single, List.append_assoc]
      refine takeString_escapeAlone first (ih ?_)
      simp only [List.length_cons] at enough ⊢
      omega

theorem length_le_escapeText (text : JsString) : text.length ≤ (escapeText text).length := by
  induction text using escapeText.induct with
  | case1 => exact Nat.zero_le _
  | case2 unit =>
      rcases head_escapeAlone unit with ⟨_, _, written, -⟩
      simp [escapeText, written]
  | case3 first second rest pair ih =>
      rw [escapeText, if_pos pair]
      simpa using ih
  | case4 first second rest single ih =>
      rcases head_escapeAlone first with ⟨_, _, written, -⟩
      rw [escapeText, if_neg single, List.length_append, written]
      simp only [List.length_cons] at ih ⊢
      omega

theorem takeString_quote {text : JsString} {fuel : ℕ} (enough : (quote text).length ≤ fuel + 1)
    (more : JsString) : takeString fuel ((escapeText text ++ [34]) ++ more) = some (text, more) := by
  have longer := length_le_escapeText text
  simp only [quote, List.cons_append, List.length_cons, List.length_append, List.length_nil]
    at enough
  rw [List.append_assoc]
  exact takeString_escapeText (by omega) more

section Values

variable {round : FiniteNumber → JsNumber} {fuel : ℕ} {more : JsString}

def OpensScalar (unit : UInt16) : Prop :=
  isBlank unit = false ∧ unit ≠ 34 ∧ unit ≠ 91 ∧ unit ≠ 123

instance (unit : UInt16) : Decidable (OpensScalar unit) := inferInstanceAs (Decidable (_ ∧ _))

theorem skip_cons {unit : UInt16} (visible : isBlank unit = false) (rest : JsString) :
    skip (unit :: rest) = unit :: rest := by
  rw [skip, List.dropWhile_cons_of_neg (by simp [visible])]

theorem takeValue_scalar {unit : UInt16} (opens : OpensScalar unit) (rest : JsString) :
    takeValue round (fuel + 1) (unit :: rest) = takeScalar round (unit :: rest) := by
  rcases opens with ⟨visible, noQuote, noBracket, noBrace⟩
  rw [takeValue, skip_cons visible]
  split <;> rename_i same <;> simp_all

theorem takeValue_null : takeValue round (fuel + 1) (js "null" ++ more) = some (.null, more) := by
  exact (takeValue_scalar (by decide) _).trans rfl

theorem takeValue_boolean (value : Bool) :
    takeValue round (fuel + 1) ((if value then js "true" else js "false") ++ more) =
      some (.boolean value, more) := by
  cases value <;> exact (takeValue_scalar (by decide) _).trans rfl

theorem opensScalar_of_isNumeric {unit : UInt16} (numeric : isNumeric unit = true) :
    OpensScalar unit ∧ unit ≠ 110 ∧ unit ≠ 116 ∧ unit ≠ 102 := by
  refine ⟨⟨?_, ?_, ?_, ?_⟩, ?_, ?_, ?_⟩
  · by_contra blank
    simp only [isBlank, Bool.or_eq_true, decide_eq_true_eq, Bool.not_eq_false] at blank
    rcases blank with ((rfl | rfl) | rfl) | rfl <;> exact absurd numeric (by decide)
  all_goals
    rintro rfl
    exact absurd numeric (by decide)

theorem not_isPrefixOf_cons {word : JsString} {unit first : UInt16} (opens : word.head? = some unit)
    (different : first ≠ unit) (rest : JsString) : ¬word.isPrefixOf (first :: rest) = true := by
  cases word with
  | nil => cases opens
  | cons unit' word =>
      cases opens
      simp [List.isPrefixOf, Ne.symm different]

theorem takeValue_number (number : FiniteNumber) (ends : Ends more) :
    takeValue round (fuel + 1) (number.text ++ more) =
      some (.number (round number.unsigned), more) := by
  have read := takeNumber_text number ends
  have numeric := all_isNumeric_text number
  cases written : number.text with
  | nil => exact absurd written (text_ne_nil number)
  | cons first rest =>
      rw [written, List.all_cons, Bool.and_eq_true] at numeric
      rw [written] at read
      rcases opensScalar_of_isNumeric numeric.1 with ⟨opens, noNull, noTrue, noFalse⟩
      rw [List.cons_append] at read ⊢
      rw [takeValue_scalar opens, takeScalar, if_neg (not_isPrefixOf_cons rfl noNull _),
        if_neg (not_isPrefixOf_cons rfl noTrue _), if_neg (not_isPrefixOf_cons rfl noFalse _), read,
        Option.map_some]

theorem exists_cons_of_stringify {value : JsValue} {text : JsString}
    (written : stringify value = some text) :
    ∃ first rest, text = first :: rest ∧ isBlank first = false ∧ first ≠ 93 := by
  cases value with
  | undefined => cases written
  | other => cases written
  | null =>
      cases written
      exact ⟨110, _, rfl, by decide⟩
  | boolean value =>
      cases written
      cases value
      · exact ⟨102, _, rfl, by decide⟩
      · exact ⟨116, _, rfl, by decide⟩
  | number value =>
      cases value with
      | nan =>
          cases written
          exact ⟨110, _, rfl, by decide⟩
      | infinity negative =>
          cases written
          exact ⟨110, _, rfl, by decide⟩
      | finite number =>
          cases written
          have numeric := all_isNumeric_text number
          cases opened : number.text with
          | nil => exact absurd opened (text_ne_nil number)
          | cons first rest =>
              rw [opened, List.all_cons, Bool.and_eq_true] at numeric
              refine ⟨first, rest, rfl, (opensScalar_of_isNumeric numeric.1).1.1, ?_⟩
              rintro rfl
              exact absurd numeric.1 (by decide)
  | string text =>
      rw [stringify] at written
      cases written
      exact ⟨34, _, rfl, by decide⟩
  | array items =>
      rw [stringify] at written
      cases written
      exact ⟨91, _, rfl, by decide⟩
  | object properties =>
      rw [stringify] at written
      cases written
      exact ⟨123, _, rfl, by decide⟩

theorem exists_cons_of_stringifyItems (item : JsValue) (rest : List JsValue) :
    ∃ first others, commaSeparated (stringifyItems (item :: rest)) = first :: others ∧
      isBlank first = false ∧ first ≠ 93 := by
  have opens : ∃ first others, (stringify item).getD (js "null") = first :: others ∧
      isBlank first = false ∧ first ≠ 93 := by
    cases written : stringify item with
    | none => exact ⟨110, _, rfl, by decide⟩
    | some text => exact exists_cons_of_stringify written
  rcases opens with ⟨first, others, opens, visible⟩
  rw [stringifyItems, commaSeparated_cons, opens]
  exact ⟨first, _, List.cons_append, visible⟩

theorem exists_cons_of_stringifyProperties {properties : List (JsString × JsValue)}
    (nonempty : stringifyProperties properties ≠ []) :
    ∃ others, commaSeparated (stringifyProperties properties) = 34 :: others := by
  induction properties with
  | nil => exact absurd rfl nonempty
  | cons property rest ih =>
      rcases property with ⟨name, value⟩
      cases written : stringify value with
      | none =>
          simp only [stringifyProperties, written] at nonempty ⊢
          exact ih nonempty
      | some text =>
          simp only [stringifyProperties, written]
          rw [commaSeparated_cons]
          exact ⟨_, rfl⟩

theorem rereadProperties_eq_nil {properties : List (JsString × JsValue)}
    (none : stringifyProperties properties = []) : rereadProperties round properties = [] := by
  induction properties with
  | nil => rfl
  | cons property rest ih =>
      rcases property with ⟨name, value⟩
      cases written : stringify value with
      | none =>
          simp only [stringifyProperties, rereadProperties, written] at none ⊢
          exact ih none
      | some text => simp [stringifyProperties, written] at none

theorem ends_comma (rest : JsString) : Ends (44 :: rest) := by
  rintro _ isHead
  cases isHead
  exact .inl rfl

theorem ends_bracket (rest : JsString) : Ends (93 :: rest) := by
  rintro _ isHead
  cases isHead
  exact .inr (.inl rfl)

theorem ends_brace (rest : JsString) : Ends (125 :: rest) := by
  rintro _ isHead
  cases isHead
  exact .inr (.inr (.inl rfl))

theorem ends_line (rest : JsString) : Ends (10 :: rest) := by
  rintro _ isHead
  cases isHead
  exact .inr (.inr (.inr rfl))

theorem takeItems_cons {text rest : JsString} {item : JsValue} {items : List JsValue}
    (taken : takeValue round fuel text = some (item, 44 :: rest))
    (after : takeItems round fuel rest = some (items, more)) :
    takeItems round (fuel + 1) text = some (item :: items, more) := by
  simp only [takeItems, taken, Option.bind_eq_bind, Option.bind_some]
  show (takeItems round fuel rest).map _ = _
  rw [after, Option.map_some]

theorem takeItems_last {text rest : JsString} {item : JsValue}
    (taken : takeValue round fuel text = some (item, rest)) (closes : skip rest = 93 :: more) :
    takeItems round (fuel + 1) text = some ([item], more) := by
  simp only [takeItems, taken, closes, Option.bind_eq_bind, Option.bind_some]

theorem takeMembers_cons {given name text rest : JsString} {value : JsValue}
    {members : List (JsString × JsValue)} (opens : skip given = quote name ++ 58 :: text)
    (enough : (quote name).length ≤ fuel + 1)
    (taken : takeValue round fuel text = some (value, 44 :: rest))
    (after : takeMembers round fuel rest = some (members, more)) :
    takeMembers round (fuel + 1) given = some ((name, value) :: members, more) := by
  have opened : skip given = 34 :: ((escapeText name ++ [34]) ++ 58 :: text) := opens
  have colon : skip (58 :: text) = 58 :: text := rfl
  have comma : skip (44 :: rest) = 44 :: rest := rfl
  simp only [takeMembers, opened, takeString_quote enough, colon, taken, comma, after,
    Option.bind_eq_bind, Option.bind_some, Option.map_some]

theorem takeMembers_last {given name text rest : JsString} {value : JsValue}
    (opens : skip given = quote name ++ 58 :: text) (enough : (quote name).length ≤ fuel + 1)
    (taken : takeValue round fuel text = some (value, rest)) (closes : skip rest = 125 :: more) :
    takeMembers round (fuel + 1) given = some ([(name, value)], more) := by
  have opened : skip given = 34 :: ((escapeText name ++ [34]) ++ 58 :: text) := opens
  have colon : skip (58 :: text) = 58 :: text := rfl
  simp only [takeMembers, opened, takeString_quote enough, colon, taken, closes,
    Option.bind_eq_bind, Option.bind_some]

theorem length_commaSeparated_cons (text : JsString) (texts : List JsString) :
    text.length ≤ (commaSeparated (text :: texts)).length := by
  rw [commaSeparated_cons, List.length_append]
  exact Nat.le_add_right _ _

theorem commaSeparated_cons_of_ne_nil {text : JsString} {texts : List JsString}
    (others : texts ≠ []) :
    commaSeparated (text :: texts) = text ++ 44 :: commaSeparated texts := by
  cases texts with
  | nil => exact absurd rfl others
  | cons => simp [commaSeparated]

theorem takeValue_array {text : JsString} {items : List JsValue} {first : UInt16} {rest : JsString}
    (opens : skip text = first :: rest) (noBracket : first ≠ 93)
    (taken : takeItems round fuel (first :: rest) = some (items, more)) :
    takeValue round (fuel + 1) (91 :: text) = some (.array items, more) := by
  have bracket : skip (91 :: text) = 91 :: text := rfl
  rw [takeValue, bracket]
  simp only [opens]
  split
  · rename_i same
    exact absurd (List.cons.inj same).1 noBracket
  · rw [taken, Option.map_some]

theorem takeValue_object {text rest : JsString} {members : List (JsString × JsValue)}
    (opens : skip text = 34 :: rest)
    (taken : takeMembers round fuel (34 :: rest) = some (members, more)) :
    takeValue round (fuel + 1) (123 :: text) = some (objectOf members, more) := by
  have brace : skip (123 :: text) = 123 :: text := rfl
  rw [takeValue, brace]
  simp only [opens]
  split
  · rename_i same
    exact absurd (List.cons.inj same).1 (by decide)
  · rw [taken, Option.map_some]

def Reads (round : FiniteNumber → JsNumber) (text : JsString) (value : JsValue) : Prop :=
  ∀ ⦃fuel : ℕ⦄ ⦃more : JsString⦄, text.length < fuel → Ends more →
    takeValue round fuel (text ++ more) = some (value, more)

def ReadsMember (round : FiniteNumber → JsNumber) (text : JsString) (member : JsString × JsValue) :
    Prop :=
  ∃ front back, text = front ++ (quote member.1 ++ 58 :: back) ∧
    (∀ unit ∈ front, isBlank unit = true) ∧ Reads round back member.2

theorem skip_append {front : JsString} (blank : ∀ unit ∈ front, isBlank unit = true)
    (text : JsString) : skip (front ++ text) = skip text := by
  rw [skip, List.dropWhile_append_of_pos blank]
  rfl

theorem takeItems_of_reads {texts : List JsString} {values : List JsValue} {closing : JsString}
    (reads : List.Forall₂ (Reads round) texts values) (nonempty : texts ≠ [])
    (enough : (commaSeparated texts).length + 1 < fuel) (ends : Ends closing)
    (closes : skip closing = 93 :: more) :
    takeItems round fuel (commaSeparated texts ++ closing) = some (values, more) := by
  induction reads generalizing fuel with
  | nil => exact absurd rfl nonempty
  | @cons text value texts values first rest ih =>
      have longer := length_commaSeparated_cons text texts
      obtain ⟨fuel, rfl⟩ : ∃ less, fuel = less + 1 := ⟨fuel - 1, by omega⟩
      by_cases last : texts = []
      · subst last
        cases rest
        exact takeItems_last (first (by omega) ends) closes
      · rw [commaSeparated_cons_of_ne_nil last] at enough ⊢
        rw [List.length_append, List.length_cons] at enough
        rw [List.append_assoc]
        exact takeItems_cons (first (by omega) (ends_comma _)) (ih last (by omega))

theorem takeMembers_of_reads {texts : List JsString} {members : List (JsString × JsValue)}
    {closing : JsString} (reads : List.Forall₂ (ReadsMember round) texts members)
    (nonempty : texts ≠ []) (enough : (commaSeparated texts).length + 1 < fuel)
    (ends : Ends closing) (closes : skip closing = 125 :: more) :
    takeMembers round fuel (commaSeparated texts ++ closing) = some (members, more) := by
  induction reads generalizing fuel with
  | nil => exact absurd rfl nonempty
  | @cons text member texts members first rest ih =>
      have longer := length_commaSeparated_cons text texts
      obtain ⟨fuel, rfl⟩ : ∃ less, fuel = less + 1 := ⟨fuel - 1, by omega⟩
      rcases first with ⟨front, back, rfl, blank, first⟩
      simp only [List.length_append, List.length_cons] at longer
      have opens : ∀ after, skip (front ++ (quote member.1 ++ 58 :: back) ++ after) =
          quote member.1 ++ 58 :: (back ++ after) := by
        intro after
        rw [List.append_assoc, skip_append blank, List.append_assoc]
        exact skip_cons (by decide) _
      by_cases last : texts = []
      · subst last
        cases rest
        exact takeMembers_last (opens closing) (by omega) (first (by omega) ends) closes
      · rw [commaSeparated_cons_of_ne_nil last] at enough ⊢
        simp only [List.length_append, List.length_cons] at enough
        rw [List.append_assoc]
        exact takeMembers_cons (opens _) (by omega) (first (by omega) (ends_comma _))
          (ih last (by omega))

theorem reads_null : Reads round (js "null") .null := by
  intro fuel more enough ends
  obtain ⟨fuel, rfl⟩ : ∃ less, fuel = less + 1 := ⟨fuel - 1, by omega⟩
  exact takeValue_null

mutual

theorem reads_stringify : ∀ (value : JsValue) {text : JsString},
    stringify value = some text → Reads round text (reread round value)
  | .undefined, _, written, _, _, _, _ => by cases written
  | .other, _, written, _, _, _, _ => by cases written
  | .null, _, written, fuel + 1, _, _, _ => by
      cases written
      exact takeValue_null
  | .boolean value, _, written, fuel + 1, _, _, _ => by
      cases written
      exact takeValue_boolean value
  | .number .nan, _, written, fuel + 1, _, _, _ => by
      cases written
      exact takeValue_null
  | .number (.infinity _), _, written, fuel + 1, _, _, _ => by
      cases written
      exact takeValue_null
  | .number (.finite number), _, written, fuel + 1, _, _, ends => by
      cases written
      exact takeValue_number number ends
  | .string given, _, written, fuel + 1, more, enough, _ => by
      rw [stringify] at written
      cases written
      have read := takeString_quote (Nat.le_of_lt enough) more
      show (takeString fuel ((escapeText given ++ [34]) ++ more)).map _ = _
      rw [read]
      rfl
  | .array [], _, written, fuel + 1, _, _, _ => by
      rw [stringify] at written
      cases written
      rfl
  | .array (item :: rest), _, written, fuel + 1, more, enough, _ => by
      rw [stringify] at written
      cases written
      rcases exists_cons_of_stringifyItems item rest with ⟨first, others, opens, visible, noBracket⟩
      simp only [List.length_append, List.length_cons, List.length_nil] at enough
      have read := takeItems_of_reads (reads_stringifyItems (item :: rest)) (by simp [stringifyItems])
        (show _ < fuel by omega) (ends_bracket more) rfl
      rw [opens, List.cons_append] at read
      rw [opens, List.append_assoc, List.append_assoc]
      exact takeValue_array (skip_cons visible _) noBracket read
  | .object properties, _, written, fuel + 1, more, enough, _ => by
      rw [stringify] at written
      cases written
      by_cases none : stringifyProperties properties = []
      · rw [none, reread, rereadProperties_eq_nil none]
        rfl
      · rcases exists_cons_of_stringifyProperties none with ⟨others, opens⟩
        simp only [List.length_append, List.length_cons, List.length_nil] at enough
        have read := takeMembers_of_reads (reads_stringifyProperties properties) none
          (show _ < fuel by omega) (ends_brace more) rfl
        rw [opens, List.cons_append] at read
        rw [opens, List.append_assoc, List.append_assoc]
        exact takeValue_object rfl read
  termination_by value => sizeOf value

theorem reads_stringifyItems : ∀ items : List JsValue,
    List.Forall₂ (Reads round) (stringifyItems items) (rereadItems round items)
  | [] => .nil
  | item :: rest => by
      rw [stringifyItems, rereadItems]
      refine .cons ?_ (reads_stringifyItems rest)
      cases written : stringify item with
      | none => exact reads_null
      | some text => exact reads_stringify item written
  termination_by items => sizeOf items

theorem reads_stringifyProperties : ∀ properties : List (JsString × JsValue),
    List.Forall₂ (ReadsMember round) (stringifyProperties properties)
      (rereadProperties round properties)
  | [] => .nil
  | (name, value) :: rest => by
      rw [stringifyProperties, rereadProperties]
      cases written : stringify value with
      | none => exact reads_stringifyProperties rest
      | some text =>
          refine .cons ⟨[], text, ?_, by simp, reads_stringify value written⟩
            (reads_stringifyProperties rest)
          simp
  termination_by properties => sizeOf properties

end

theorem parse_stringify {value : JsValue} {text : JsString} (written : stringify value = some text) :
    parse round text = some (reread round value) := by
  have read : takeValue round (text.length + 1) (text ++ []) = _ :=
    reads_stringify value written (Nat.lt_succ_self _) fun _ isHead => by cases isHead
  rw [List.append_nil] at read
  rw [parse, read]
  rfl

theorem parse_stringify_line {value : JsValue} {text : JsString}
    (written : stringify value = some text) :
    parse round (text ++ [10]) = some (reread round value) := by
  have fuel : text.length < (text ++ [10]).length + 1 := by
    rw [List.length_append]
    omega
  rw [parse, reads_stringify value written fuel (ends_line [])]
  rfl

end Values

end Ecma.Json
