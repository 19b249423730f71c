import StudentHub.Ecma.Arrays
import StudentHub.Ecma.Json

/-!
# Canonical texts

The text of a value whose objects have their keys in order. Every text is well
formed, and a value with the canonical text of an object of strings has each of its
members.
-/

namespace Ecma.Json

open JsString

def IsArrayIndex (name : JsString) : Prop :=
  decimal (numeral name) = name ∧ numeral name < 2 ^ 32 - 1

instance (name : JsString) : Decidable (IsArrayIndex name) := inferInstanceAs (Decidable (_ ∧ _))

/-- `Object.fromEntries` of entries with distinct names. -/
def fromEntries (entries : List (JsString × JsValue)) : JsValue :=
  .object (sortBy (fun entry => (numeral entry.1 : ℤ))
      (entries.filter fun entry => IsArrayIndex entry.1) ++
    entries.filter fun entry => ¬IsArrayIndex entry.1)

mutual

def sorted : JsValue → JsValue
  | .array items => .array (sortedItems items)
  | .object properties =>
      fromEntries ((sortedProperties properties).insertionSort fun left right => ¬right.1 < left.1)
  | value => value

def sortedItems : List JsValue → List JsValue
  | [] => []
  | item :: rest => sorted item :: sortedItems rest

def sortedProperties : List (JsString × JsValue) → List (JsString × JsValue)
  | [] => []
  | (name, value) :: rest => (name, sorted value) :: sortedProperties rest

end

/-- The canonical text in a template, where no text is written `undefined`. -/
def canonicalText (value : JsValue) : JsString :=
  (stringify (sorted value)).getD (js "undefined")

def textMembers (members : List (JsString × JsString)) : List (JsString × JsValue) :=
  members.map fun member => (member.1, .string member.2)

theorem mem_sortedProperties {properties : List (JsString × JsValue)} {name : JsString}
    {value : JsValue} :
    (name, value) ∈ sortedProperties properties ↔
      ∃ given, (name, given) ∈ properties ∧ sorted given = value := by
  induction properties with
  | nil => simp [sortedProperties]
  | cons property rest shorter =>
    simp only [sortedProperties, List.mem_cons, shorter, Prod.mk.injEq]
    refine ⟨?_, ?_⟩
    · rintro (⟨rfl, rfl⟩ | ⟨given, givenMem, rfl⟩)
      · exact ⟨property.2, Or.inl rfl, rfl⟩
      · exact ⟨given, Or.inr givenMem, rfl⟩
    · rintro ⟨given, rfl | givenMem, rfl⟩
      · exact Or.inl ⟨rfl, rfl⟩
      · exact Or.inr ⟨given, givenMem, rfl⟩

theorem exists_sorted_object (properties : List (JsString × JsValue)) :
    ∃ ordered, sorted (.object properties) = .object ordered ∧
      ∀ name value, (name, value) ∈ ordered ↔
        ∃ given, (name, given) ∈ properties ∧ sorted given = value := by
  refine ⟨_, by rw [sorted, fromEntries], ?_⟩
  intro name value
  rw [← mem_sortedProperties]
  simp only [List.mem_append, mem_sortBy, List.mem_filter, List.mem_insertionSort,
    decide_eq_true_eq, ← and_or_left]
  exact and_iff_left (em _)

theorem eq_string_of_sorted {value : JsValue} {text : JsString}
    (same : sorted value = .string text) : value = .string text := by
  cases value with
  | string given => exact same
  | array items => simp [sorted] at same
  | object properties => simp [sorted, fromEntries] at same
  | undefined => simp [sorted] at same
  | null => simp [sorted] at same
  | boolean given => simp [sorted] at same
  | number given => simp [sorted] at same
  | other => simp [sorted] at same

def isNumeric (unit : UInt16) : Bool := isDigit unit || unit ∈ ([43, 45, 46, 101] : List UInt16)

theorem isDigit_of_mem_decimal {number : ℕ} {unit : UInt16} (unitMem : unit ∈ decimal number) :
    isDigit unit = true := by
  simp only [decimal, List.mem_map] at unitMem
  rcases unitMem with ⟨digit, digitMem, rfl⟩
  have isDigit := Nat.isDigit_of_mem_toDigits (by decide) (by decide) digitMem
  simp only [Char.isDigit, Bool.and_eq_true, decide_eq_true_eq, UInt32.le_iff_toNat_le] at isDigit
  have lower : 48 ≤ digit.toNat := isDigit.1
  have upper : digit.toNat ≤ 57 := isDigit.2
  rw [isDigit_iff, UInt16.toNat_ofNat_of_lt' (show digit.toNat < 2 ^ 16 by omega)]
  exact ⟨lower, upper⟩

theorem isNumeric_of_mem_decimal {number : ℕ} {unit : UInt16} (unitMem : unit ∈ decimal number) :
    isNumeric unit = true := by
  rw [isNumeric, isDigit_of_mem_decimal unitMem, Bool.true_or]

theorem all_isNumeric_text (number : FiniteNumber) : number.text.all isNumeric = true := by
  have written : (decimal number.significand).all isNumeric = true :=
    List.all_eq_true.mpr fun _ unitMem => isNumeric_of_mem_decimal unitMem
  have exponent : ∀ value, (decimal value).all isNumeric = true :=
    fun _ => List.all_eq_true.mpr fun _ unitMem => isNumeric_of_mem_decimal unitMem
  have front : ∀ count, ((decimal number.significand).take count).all isNumeric = true :=
    fun count => List.all_eq_true.mpr fun unit unitMem =>
      isNumeric_of_mem_decimal (List.mem_of_mem_take unitMem)
  have back : ∀ count, ((decimal number.significand).drop count).all isNumeric = true :=
    fun count => List.all_eq_true.mpr fun unit unitMem =>
      isNumeric_of_mem_decimal (List.mem_of_mem_drop unitMem)
  have zeros : ∀ count, (List.replicate count (48 : UInt16)).all isNumeric = true := by
    intro count
    simp [isNumeric, isDigit]
  have plain : number.plainText.all isNumeric = true := by
    simp only [FiniteNumber.plainText]
    split_ifs
    · simp only [List.all_append, written, zeros, Bool.and_self]
    · simp only [List.all_append, front, back, Bool.true_and, Bool.and_true]
      decide
    · simp only [List.all_append, written, zeros, Bool.and_true]
      decide
  simp only [FiniteNumber.text]
  split_ifs <;> simp only [List.all_append, plain, front, back, exponent, Bool.and_true] <;> decide

theorem decimal_ne_nil (number : ℕ) : decimal number ≠ [] := by
  simp [decimal, Nat.toDigits_ne_nil]

theorem text_ne_nil (number : FiniteNumber) : number.text ≠ [] := by
  have plain : number.plainText ≠ [] := by
    simp only [FiniteNumber.plainText]
    split_ifs <;> simp [decimal_ne_nil, js]
  simp only [FiniteNumber.text]
  split_ifs <;> simp [plain, js, codeUnits]

theorem isSurrogate_hexDigit {value : ℕ} (small : value < 16) :
    isSurrogate (hexDigit value) = false := by
  revert value
  decide

theorem wellFormed_unicodeEscape (unit : UInt16) : (unicodeEscape unit).WellFormed := by
  have bound := unit.toNat_lt
  apply wellFormed_of_forall
  simp only [unicodeEscape, List.forall_mem_cons]
  refine ⟨by decide, by decide, isSurrogate_hexDigit ?_, isSurrogate_hexDigit ?_,
    isSurrogate_hexDigit ?_, isSurrogate_hexDigit ?_, by simp⟩ <;> omega

theorem wellFormed_escapeAlone (unit : UInt16) : (escapeAlone unit).WellFormed := by
  simp only [escapeAlone]
  split
  · exact wellFormed_unicodeEscape unit
  · rename_i notSurrogate
    unfold escapeUnit
    split
    case h_8 =>
      split
      · exact wellFormed_unicodeEscape unit
      · exact wellFormed_cons (Bool.not_eq_true _ ▸ notSurrogate) rfl
    all_goals decide

theorem wellFormed_escapeText (text : JsString) : (escapeText text).WellFormed := by
  induction text using escapeText.induct with
  | case1 => rfl
  | case2 unit => exact wellFormed_escapeAlone unit
  | case3 first second rest pair shorter =>
    simp only [escapeText, if_pos pair, WellFormed, toWellFormed] at shorter ⊢
    rw [shorter]
  | case4 first second rest single shorter =>
    simp only [escapeText, if_neg single]
    exact (wellFormed_escapeAlone first).append shorter

theorem wellFormed_quote (text : JsString) : (quote text).WellFormed :=
  WellFormed.append (wellFormed_cons (by decide) (wellFormed_escapeText text)) (by decide)

theorem wellFormed_commaSeparated {texts : List JsString}
    (wellFormed : ∀ text ∈ texts, text.WellFormed) : (commaSeparated texts).WellFormed := by
  induction texts using commaSeparated.induct with
  | case1 => rfl
  | case2 text => exact wellFormed text List.mem_cons_self
  | case3 first second rest shorter =>
    rw [List.forall_mem_cons] at wellFormed
    exact (wellFormed.1.append (by decide)).append (shorter wellFormed.2)

theorem wellFormed_text (number : FiniteNumber) : number.text.WellFormed := by
  apply wellFormed_of_forall
  intro unit unitMem
  have numeric := List.all_eq_true.mp (all_isNumeric_text number) unit unitMem
  simp only [isNumeric, Bool.or_eq_true, isDigit_iff, List.mem_cons, List.not_mem_nil, or_false,
    decide_eq_true_eq] at numeric
  rcases numeric with ⟨-, upper⟩ | rfl | rfl | rfl | rfl
  · simp only [isSurrogate, isHighSurrogate, isLowSurrogate, Bool.or_eq_false_iff,
      Bool.and_eq_false_iff, decide_eq_false_iff_not, UInt16.le_iff_toNat_le]
    have high : (0xD800 : UInt16).toNat = 0xD800 := rfl
    have low : (0xDC00 : UInt16).toNat = 0xDC00 := rfl
    omega
  all_goals decide

mutual

theorem wellFormed_of_stringify {value : JsValue} {text : JsString}
    (written : stringify value = some text) : text.WellFormed := by
  cases value with
  | undefined => simp [stringify] at written
  | other => simp [stringify] at written
  | null =>
    simp only [stringify, Option.some.injEq] at written
    subst written
    decide
  | boolean given =>
    simp only [stringify, Option.some.injEq] at written
    subst written
    cases given <;> decide
  | number given =>
    cases given with
    | finite number =>
      simp only [stringify, Option.some.injEq] at written
      subst written
      exact wellFormed_text number
    | nan =>
      simp only [stringify, Option.some.injEq] at written
      subst written
      decide
    | infinity =>
      simp only [stringify, Option.some.injEq] at written
      subst written
      decide
  | string given =>
    simp only [stringify, Option.some.injEq] at written
    subst written
    exact wellFormed_quote given
  | array items =>
    simp only [stringify, Option.some.injEq] at written
    subst written
    have wellFormed := wellFormed_commaSeparated (wellFormed_of_mem_stringifyItems items)
    exact WellFormed.append (WellFormed.append (by decide) wellFormed) (by decide)
  | object properties =>
    simp only [stringify, Option.some.injEq] at written
    subst written
    have wellFormed := wellFormed_commaSeparated (wellFormed_of_mem_stringifyProperties properties)
    exact WellFormed.append (WellFormed.append (by decide) wellFormed) (by decide)

theorem wellFormed_of_mem_stringifyItems (items : List JsValue) :
    ∀ text ∈ stringifyItems items, text.WellFormed := by
  cases items with
  | nil => simp [stringifyItems]
  | cons item rest =>
    simp only [stringifyItems, List.forall_mem_cons]
    refine ⟨?_, wellFormed_of_mem_stringifyItems rest⟩
    cases written : stringify item with
    | none => decide
    | some text => exact wellFormed_of_stringify written

theorem wellFormed_of_mem_stringifyProperties (properties : List (JsString × JsValue)) :
    ∀ text ∈ stringifyProperties properties, text.WellFormed := by
  cases properties with
  | nil => simp [stringifyProperties]
  | cons property rest =>
    rcases property with ⟨name, value⟩
    simp only [stringifyProperties]
    split
    · exact wellFormed_of_mem_stringifyProperties rest
    · rename_i text written
      simp only [List.forall_mem_cons]
      refine ⟨?_, wellFormed_of_mem_stringifyProperties rest⟩
      exact ((wellFormed_quote name).append (by decide)).append (wellFormed_of_stringify written)

end

theorem wellFormed_canonicalText (value : JsValue) : (canonicalText value).WellFormed := by
  rw [canonicalText]
  cases written : stringify (sorted value) with
  | none => decide
  | some text => exact wellFormed_of_stringify written

theorem eq_string_of_stringify {value : JsValue} {written text more more' : JsString}
    (valueText : stringify value = some written) (same : written ++ more = quote text ++ more') :
    value = .string text ∧ more = more' := by
  have noQuote : ∀ {first : UInt16} {rest : JsString},
      written = first :: rest → first ≠ 34 → False := by
    intro first rest split notQuote
    rw [split, quote, List.cons_append, List.cons_append, List.cons_append, List.cons.injEq] at same
    exact notQuote same.1
  cases value with
  | undefined => simp [stringify] at valueText
  | other => simp [stringify] at valueText
  | null =>
    simp only [stringify, Option.some.injEq] at valueText
    exact (noQuote valueText.symm (by decide)).elim
  | boolean given =>
    simp only [stringify, Option.some.injEq] at valueText
    cases given <;> exact (noQuote valueText.symm (by decide)).elim
  | number given =>
    cases given with
    | nan =>
      simp only [stringify, Option.some.injEq] at valueText
      exact (noQuote valueText.symm (by decide)).elim
    | infinity =>
      simp only [stringify, Option.some.injEq] at valueText
      exact (noQuote valueText.symm (by decide)).elim
    | finite number =>
      simp only [stringify, Option.some.injEq] at valueText
      cases digits : number.text with
      | nil => exact absurd digits (text_ne_nil number)
      | cons first rest =>
        have numeric := all_isNumeric_text number
        rw [digits, List.all_cons, Bool.and_eq_true] at numeric
        refine (noQuote (valueText.symm.trans digits) ?_).elim
        rintro rfl
        simpa [isNumeric, isDigit] using numeric.1
  | string given =>
    simp only [stringify, Option.some.injEq] at valueText
    subst valueText
    rcases eq_of_quote_append_eq same with ⟨rfl, ends⟩
    exact ⟨rfl, ends⟩
  | array items =>
    simp only [stringify, Option.some.injEq, List.cons_append, List.nil_append] at valueText
    exact (noQuote valueText.symm (by decide)).elim
  | object properties =>
    simp only [stringify, Option.some.injEq, List.cons_append, List.nil_append] at valueText
    exact (noQuote valueText.symm (by decide)).elim

def commaTail : List JsString → JsString
  | [] => []
  | text :: rest => 44 :: commaSeparated (text :: rest)

theorem commaSeparated_cons (text : JsString) (rest : List JsString) :
    commaSeparated (text :: rest) = text ++ commaTail rest := by
  cases rest <;> simp [commaSeparated, commaTail]

theorem eq_of_commaTail_eq {left right : List JsString} {leftMore rightMore : JsString}
    (same : commaTail left ++ 125 :: leftMore = commaTail right ++ 125 :: rightMore) :
    commaSeparated left ++ 125 :: leftMore = commaSeparated right ++ 125 :: rightMore := by
  cases left with
  | nil =>
    cases right with
    | nil => exact same
    | cons => simp [commaTail] at same
  | cons =>
    cases right with
    | nil => simp [commaTail] at same
    | cons => simpa [commaTail] using same

theorem stringifyProperties_textMembers (members : List (JsString × JsString)) :
    stringifyProperties (textMembers members) =
      members.map fun member => quote member.1 ++ 58 :: quote member.2 := by
  induction members with
  | nil => rfl
  | cons member rest shorter =>
    simp only [textMembers, List.map_cons, stringifyProperties, stringify, List.append_assoc,
      List.cons_append, List.nil_append] at shorter ⊢
    rw [shorter]

theorem mem_of_commaSeparated_eq {properties : List (JsString × JsValue)}
    {members : List (JsString × JsString)} {more more' : JsString}
    (same : commaSeparated (stringifyProperties properties) ++ 125 :: more =
      commaSeparated (stringifyProperties (textMembers members)) ++ 125 :: more')
    {name text : JsString} (memberMem : (name, text) ∈ members) :
    (name, JsValue.string text) ∈ properties := by
  rw [stringifyProperties_textMembers] at same
  induction properties generalizing members with
  | nil =>
    cases members with
    | nil => simp at memberMem
    | cons member rest =>
      simp [stringifyProperties, commaSeparated_cons, commaSeparated, quote] at same
  | cons property others shorter =>
    rcases property with ⟨otherName, value⟩
    simp only [stringifyProperties] at same
    split at same
    · exact List.mem_cons_of_mem _ (shorter same memberMem)
    · rename_i written valueText
      cases members with
      | nil => simp at memberMem
      | cons member rest =>
        rw [List.map_cons, commaSeparated_cons, commaSeparated_cons] at same
        simp only [List.append_assoc, List.cons_append, List.nil_append] at same
        rcases eq_of_quote_append_eq same with ⟨sameName, values⟩
        rw [List.cons.injEq] at values
        rcases eq_string_of_stringify valueText values.2 with ⟨sameValue, tails⟩
        rcases List.mem_cons.mp memberMem with rfl | inRest
        · rw [sameName, sameValue]
          exact List.mem_cons_self
        · exact List.mem_cons_of_mem _ (shorter (eq_of_commaTail_eq tails) inRest)

theorem exists_textMembers {properties : List (JsString × JsValue)}
    (strings : ∀ name value, (name, value) ∈ properties → ∃ text, value = .string text) :
    ∃ members, properties = textMembers members := by
  induction properties with
  | nil => exact ⟨[], rfl⟩
  | cons property rest shorter =>
    rcases property with ⟨name, value⟩
    rcases strings name value List.mem_cons_self with ⟨text, rfl⟩
    rcases shorter fun name value inRest => strings name value (List.mem_cons_of_mem _ inRest) with
      ⟨members, rfl⟩
    exact ⟨(name, text) :: members, rfl⟩

theorem mem_textMembers {members : List (JsString × JsString)} {name : JsString} {value : JsValue} :
    (name, value) ∈ textMembers members ↔ ∃ text, value = .string text ∧ (name, text) ∈ members := by
  simp only [textMembers, List.mem_map, Prod.mk.injEq, Prod.exists]
  refine ⟨?_, ?_⟩
  · rintro ⟨_, text, memberMem, rfl, rfl⟩
    exact ⟨text, rfl, memberMem⟩
  · rintro ⟨text, rfl, memberMem⟩
    exact ⟨name, text, memberMem, rfl, rfl⟩

theorem mem_of_canonicalText_eq {properties : List (JsString × JsValue)}
    {members : List (JsString × JsString)}
    (same : canonicalText (.object properties) = canonicalText (.object (textMembers members)))
    {name text : JsString} (memberMem : (name, text) ∈ members) :
    (name, JsValue.string text) ∈ properties := by
  rcases exists_sorted_object properties with ⟨ordered, sortedProperties, orderedMem⟩
  rcases exists_sorted_object (textMembers members) with
    ⟨orderedMembers, sortedMembers, orderedMembersMem⟩
  have strings : ∀ name value, (name, value) ∈ orderedMembers → ∃ text, value = .string text := by
    intro name value inOrdered
    rcases (orderedMembersMem name value).mp inOrdered with ⟨given, givenMem, rfl⟩
    rcases mem_textMembers.mp givenMem with ⟨text, rfl, -⟩
    exact ⟨text, rfl⟩
  rcases exists_textMembers strings with ⟨texts, rfl⟩
  have inTexts : (name, text) ∈ texts := by
    have inOrdered := (orderedMembersMem name (.string text)).mpr
      ⟨.string text, mem_textMembers.mpr ⟨text, rfl, memberMem⟩, rfl⟩
    rcases mem_textMembers.mp inOrdered with ⟨other, sameText, otherMem⟩
    rwa [JsValue.string.inj sameText]
  simp only [canonicalText, sortedProperties, sortedMembers, stringify, Option.getD_some,
    List.cons_append, List.nil_append, List.cons.injEq, true_and] at same
  have inOrdered := mem_of_commaSeparated_eq same inTexts
  rcases (orderedMem name (.string text)).mp inOrdered with ⟨given, givenMem, sortedGiven⟩
  rwa [← eq_string_of_sorted sortedGiven]

/-- `JSON.stringify` of an array of strings. -/
def textArray (texts : List JsString) : JsString := 91 :: commaSeparated (texts.map quote) ++ [93]

theorem textArray_injective : Function.Injective textArray := by
  have items : ∀ left right : List JsString,
      commaSeparated (left.map quote) ++ [93] = commaSeparated (right.map quote) ++ [93] →
        left = right := by
    intro left
    induction left with
    | nil =>
      intro right same
      cases right with
      | nil => rfl
      | cons => simp [commaSeparated_cons, commaSeparated, quote] at same
    | cons first rest ih =>
      intro right same
      cases right with
      | nil => simp [commaSeparated_cons, commaSeparated, quote] at same
      | cons other others =>
        simp only [List.map_cons, commaSeparated_cons, List.append_assoc] at same
        rcases eq_of_quote_append_eq same with ⟨rfl, tails⟩
        have sameRest : rest = others := by
          apply ih
          cases rest <;> cases others <;> simp_all [commaTail]
        rw [sameRest]
  intro left right same
  apply items left right
  simpa [textArray] using same

end Ecma.Json
