import StudentHub.Ecma.KeyOrder

/-!
# JSON between tags

Where every `<` in the text of a value is written as the escape of a string, no tag can be closed in
it. A `<` is only ever a character of a string there, and the escape is read as that character.
-/

namespace Ecma.Json

open JsString

/-- `replace(/</g, "\\u003c")` -/
def escapeOpenings (text : JsString) : JsString :=
  text.flatMap fun unit => if unit = 60 then js "\\u003c" else [unit]

theorem notMem_escapeOpenings (text : JsString) : 60 ∉ escapeOpenings text := by
  intro isUnit
  rcases List.mem_flatMap.mp isUnit with ⟨unit, -, inside⟩
  split_ifs at inside with opening
  · exact absurd inside (by decide)
  · exact opening (List.mem_singleton.mp inside).symm

theorem escapeOpenings_append (front back : JsString) :
    escapeOpenings (front ++ back) = escapeOpenings front ++ escapeOpenings back :=
  List.flatMap_append

theorem escapeOpenings_of_notMem {text : JsString} (absent : 60 ∉ text) :
    escapeOpenings text = text := by
  induction text with
  | nil => rfl
  | cons unit rest ih =>
      rw [List.mem_cons, not_or] at absent
      have same := ih absent.2
      rw [escapeOpenings] at same ⊢
      rw [List.flatMap_cons, if_neg (Ne.symm absent.1), same]
      rfl

theorem escapeOpenings_commaSeparated (texts : List JsString) :
    escapeOpenings (commaSeparated texts) = commaSeparated (texts.map escapeOpenings) := by
  induction texts with
  | nil => rfl
  | cons text rest ih =>
      cases rest with
      | nil => rfl
      | cons second rest =>
          have comma : escapeOpenings [44] = [44] := rfl
          rw [List.map_cons, List.map_cons, commaSeparated, commaSeparated, escapeOpenings_append,
            escapeOpenings_append, comma, ih, List.map_cons]

theorem hexDigit_ne_opening {value : ℕ} (small : value < 16) : hexDigit value ≠ 60 := by
  revert value
  decide

theorem notMem_unicodeEscape_opening (unit : UInt16) : 60 ∉ unicodeEscape unit := by
  have bound := unit.toNat_lt
  simp only [unicodeEscape, List.mem_cons, List.not_mem_nil, or_false, not_or]
  refine ⟨by decide, by decide, ?_, ?_, ?_, ?_⟩
  all_goals
    apply Ne.symm
    apply hexDigit_ne_opening
    omega

theorem notMem_escapeAlone_opening {unit : UInt16} (other : unit ≠ 60) : 60 ∉ escapeAlone unit := by
  rw [escapeAlone]
  split_ifs
  · exact notMem_unicodeEscape_opening unit
  · unfold escapeUnit
    split
    case h_8 =>
      split_ifs
      · exact notMem_unicodeEscape_opening unit
      · rw [List.mem_singleton]
        exact Ne.symm other
    all_goals decide

theorem takeString_escapeOpenings_escapeAlone {fuel : ℕ} (unit : UInt16)
    {rest units more : JsString} (after : takeString fuel rest = some (units, more)) :
    takeString (fuel + 1) (escapeOpenings (escapeAlone unit) ++ rest) = some (unit :: units, more) := by
  by_cases opening : unit = 60
  · subst opening
    have escape : escapeOpenings (escapeAlone 60) = unicodeEscape 60 := by decide
    rw [escape]
    refine takeString_cons ?_ (takeStringUnit_unicodeEscape 60 rest) after
    intro tail same
    exact absurd (List.cons.inj same).1 (by decide)
  · rw [escapeOpenings_of_notMem (notMem_escapeAlone_opening opening)]
    exact takeString_escapeAlone unit after

theorem takeString_escapeOpenings {text : JsString} {fuel : ℕ} (enough : text.length < fuel)
    (more : JsString) :
    takeString fuel (escapeOpenings (escapeText text) ++ 34 :: more) = some (text, more) := by
  induction text using escapeText.induct generalizing fuel with
  | case1 =>
      cases fuel with
      | zero => cases enough
      | succ fuel => rfl
  | case2 unit =>
      obtain ⟨fuel, rfl⟩ : ∃ less, fuel = less + 2 := ⟨fuel - 2, by simp at enough; omega⟩
      exact takeString_escapeOpenings_escapeAlone unit rfl
  | case3 first second rest pair ih =>
      obtain ⟨fuel, rfl⟩ : ∃ less, fuel = less + 2 := ⟨fuel - 2, by simp at enough; omega⟩
      have parts := pair
      simp only [isHighSurrogate, isLowSurrogate, Bool.and_eq_true, decide_eq_true_eq] at parts
      have high : 0xD800 ≤ second := UInt16.le_trans (by decide) parts.2.1
      have plain : escapeOpenings (first :: second :: escapeText rest) =
          first :: second :: escapeOpenings (escapeText rest) := by
        have notOpening : ∀ unit : UInt16, 0xD800 ≤ unit → unit ≠ 60 := by
          rintro unit surrogate rfl
          exact absurd surrogate (by decide)
        rw [escapeOpenings, List.flatMap_cons, List.flatMap_cons, if_neg (notOpening _ parts.1.1),
          if_neg (notOpening _ high)]
        rfl
      rw [escapeText, if_pos pair, plain, List.cons_append, List.cons_append]
      refine takeString_surrogate parts.1.1 (takeString_surrogate high (ih ?_))
      simp only [List.length_cons] at enough
      omega
  | case4 first second rest single ih =>
      obtain ⟨fuel, rfl⟩ : ∃ less, fuel = less + 1 := ⟨fuel - 1, by simp at enough; omega⟩
      rw [escapeText, if_neg single, escapeOpenings_append, List.append_assoc]
      refine takeString_escapeOpenings_escapeAlone first (ih ?_)
      simp only [List.length_cons] at enough ⊢
      omega

theorem length_le_escapeOpenings (text : JsString) : text.length ≤ (escapeOpenings text).length := by
  induction text with
  | nil => exact Nat.le_refl _
  | cons unit rest ih =>
      rw [escapeOpenings, List.flatMap_cons, List.length_append, List.length_cons]
      rw [escapeOpenings] at ih
      have escape : (js "\\u003c").length = 6 := by decide
      split_ifs
      · omega
      · rw [List.length_singleton]
        omega

theorem escapeOpenings_quote (text : JsString) :
    escapeOpenings (quote text) = 34 :: (escapeOpenings (escapeText text) ++ [34]) := by
  have opens : quote text = [34] ++ (escapeText text ++ [34]) := rfl
  have sign : escapeOpenings [34] = [34] := rfl
  rw [opens, escapeOpenings_append, escapeOpenings_append, sign]
  rfl

theorem stringifyProperties_cons {name text : JsString} {value : JsValue}
    {rest : List (JsString × JsValue)} (isText : stringify value = some text) :
    stringifyProperties ((name, value) :: rest) =
      (quote name ++ [58] ++ text) :: stringifyProperties rest := by
  rw [stringifyProperties, isText]

theorem stringifyItems_strings (texts : List JsString) :
    stringifyItems (texts.map .string) = texts.map quote := by
  induction texts with
  | nil => rfl
  | cons text rest ih =>
      rw [List.map_cons, List.map_cons, stringifyItems, ih, stringify]
      rfl

section Values

variable {round : FiniteNumber → JsNumber}

theorem reads_escapeOpenings_quote (text : JsString) :
    Reads round (escapeOpenings (quote text)) (.string text) := by
  intro fuel more enough _
  obtain ⟨fuel, rfl⟩ : ∃ less, fuel = less + 1 := ⟨fuel - 1, by omega⟩
  have longer := (length_le_escapeText text).trans (length_le_escapeOpenings (escapeText text))
  rw [escapeOpenings_quote] at enough ⊢
  simp only [List.length_cons, List.length_append, List.length_nil] at enough
  have read := takeString_escapeOpenings (show text.length < fuel by omega) more
  show (takeString fuel ((escapeOpenings (escapeText text) ++ [34]) ++ more)).map _ = _
  rw [List.append_assoc]
  show (takeString fuel (escapeOpenings (escapeText text) ++ 34 :: more)).map _ = _
  rw [read]
  rfl

theorem reads_escapeOpenings_strings (texts : List JsString) :
    Reads round ([91] ++ commaSeparated (texts.map fun text => escapeOpenings (quote text)) ++ [93])
      (.array (texts.map .string)) := by
  intro fuel more enough _
  obtain ⟨fuel, rfl⟩ : ∃ less, fuel = less + 1 := ⟨fuel - 1, by omega⟩
  cases texts with
  | nil => rfl
  | cons text rest =>
      have reads : List.Forall₂ (Reads round)
          ((text :: rest).map fun text => escapeOpenings (quote text))
          ((text :: rest).map .string) := by
        rw [List.forall₂_map_left_iff, List.forall₂_map_right_iff, List.forall₂_same]
        exact fun text _ => reads_escapeOpenings_quote text
      simp only [List.length_append, List.length_cons, List.length_nil] at enough
      have read := takeItems_of_reads reads (by simp) (show _ < fuel by omega) (ends_bracket more) rfl
      obtain ⟨others, opens⟩ : ∃ others, commaSeparated ((text :: rest).map fun text =>
          escapeOpenings (quote text)) = 34 :: others := by
        rw [List.map_cons, commaSeparated_cons, escapeOpenings_quote]
        exact ⟨_, rfl⟩
      rw [opens, List.cons_append] at read
      rw [opens, List.append_assoc, List.append_assoc]
      exact takeValue_array (skip_cons (by decide) _) (by decide) read

theorem reads_members {texts : List JsString} {members : List (JsString × JsValue)}
    (reads : List.Forall₂ (ReadsMember round) texts members)
    (opens : ∃ others, commaSeparated texts = 34 :: others) :
    Reads round ([123] ++ commaSeparated texts ++ [125]) (objectOf members) := by
  intro fuel more enough _
  obtain ⟨fuel, rfl⟩ : ∃ less, fuel = less + 1 := ⟨fuel - 1, by omega⟩
  rcases opens with ⟨others, opens⟩
  have nonempty : texts ≠ [] := by
    rintro rfl
    cases opens
  simp only [List.length_append, List.length_cons, List.length_nil] at enough
  have read := takeMembers_of_reads reads nonempty (show _ < fuel by omega) (ends_brace more) rfl
  rw [opens, List.cons_append] at read
  rw [opens, List.append_assoc, List.append_assoc]
  exact takeValue_object rfl read

theorem Reads.parse {text : JsString} {value : JsValue} (reads : Reads round text value) :
    parse round text = some value := by
  have read : takeValue round (text.length + 1) (text ++ []) = _ :=
    reads (Nat.lt_succ_self _) fun _ isHead => by cases isHead
  rw [List.append_nil] at read
  rw [Json.parse, read]
  rfl

end Values

end Ecma.Json
