import StudentHub.Ecma.KeyOrder

/-!
# JSON in a block of code

`JSON.stringify(value, null, 2)` puts each item and each member on a line of its own. The text is
read as the text without line breaks is. Each of its lines begins with a blank or a bracket, so
that the first line of backticks after it is the one that closes the block of code it is in.
-/

namespace Ecma.Json

open JsString

def lineBreak (depth : ℕ) : JsString := 10 :: List.replicate (2 * depth) 32

def bracketed (depth : ℕ) (opening closing : UInt16) : List JsString → JsString
  | [] => [opening, closing]
  | texts => opening :: (commaSeparated texts ++ (lineBreak depth ++ [closing]))

mutual

/-- `JSON.stringify(value, null, 2)` of a value that is this deep in another one. -/
def prettyAt : ℕ → JsValue → Option JsString
  | depth, .array items => some (bracketed depth 91 93 (prettyItems (depth + 1) items))
  | depth, .object properties =>
      some (bracketed depth 123 125 (prettyProperties (depth + 1) properties))
  | _, value => stringify value

def prettyItems : ℕ → List JsValue → List JsString
  | _, [] => []
  | depth, item :: rest =>
      (lineBreak depth ++ (prettyAt depth item).getD (js "null")) :: prettyItems depth rest

def prettyProperties : ℕ → List (JsString × JsValue) → List JsString
  | _, [] => []
  | depth, (name, value) :: rest =>
      match prettyAt depth value with
      | none => prettyProperties depth rest
      | some text =>
          (lineBreak depth ++ (quote name ++ 58 :: 32 :: text)) :: prettyProperties depth rest

end

/-- `JSON.stringify(value, null, 2)` -/
def pretty (value : JsValue) : Option JsString := prettyAt 0 value

theorem prettyAt_eq_none {depth : ℕ} {value : JsValue} :
    prettyAt depth value = none ↔ stringify value = none := by
  cases value with
  | array => simp [prettyAt, stringify]
  | object => simp [prettyAt, stringify]
  | _ => simp only [prettyAt]

section Reading

variable {round : FiniteNumber → JsNumber} {fuel depth : ℕ} {more : JsString}

theorem skip_skip (text : JsString) : skip (skip text) = skip text :=
  List.dropWhile_idempotent _ _

theorem takeValue_skip (text : JsString) :
    takeValue round fuel (skip text) = takeValue round fuel text := by
  cases fuel with
  | zero => rfl
  | succ fuel => rw [takeValue, takeValue, skip_skip]

theorem takeItems_skip (text : JsString) :
    takeItems round fuel (skip text) = takeItems round fuel text := by
  cases fuel with
  | zero => rfl
  | succ fuel => simp only [takeItems, takeValue_skip]

theorem takeMembers_skip (text : JsString) :
    takeMembers round fuel (skip text) = takeMembers round fuel text := by
  cases fuel with
  | zero => rfl
  | succ fuel => rw [takeMembers, takeMembers, skip_skip]

theorem isBlank_of_mem_lineBreak {unit : UInt16} (unitMem : unit ∈ lineBreak depth) :
    isBlank unit = true := by
  rcases List.mem_cons.mp unitMem with rfl | space
  · rfl
  · rw [List.eq_of_mem_replicate space]
    rfl

theorem Reads.append {front text : JsString} {value : JsValue}
    (blank : ∀ unit ∈ front, isBlank unit = true) (reads : Reads round text value) :
    Reads round (front ++ text) value := by
  intro fuel more enough ends
  rw [List.length_append] at enough
  rw [← takeValue_skip, List.append_assoc, skip_append blank, takeValue_skip]
  exact reads (by omega) ends

theorem exists_cons_of_prettyAt {value : JsValue} {text : JsString}
    (written : prettyAt depth value = some text) :
    ∃ first rest, text = first :: rest ∧ isBlank first = false ∧ first ≠ 93 := by
  cases value with
  | array items =>
      rw [prettyAt] at written
      cases written
      cases prettyItems (depth + 1) items <;> exact ⟨91, _, rfl, by decide⟩
  | object properties =>
      rw [prettyAt] at written
      cases written
      cases prettyProperties (depth + 1) properties <;> exact ⟨123, _, rfl, by decide⟩
  | _ => exact exists_cons_of_stringify (by simpa only [prettyAt] using written)

theorem bracketed_of_ne_nil {opening closing : UInt16} {texts : List JsString}
    (nonempty : texts ≠ []) : bracketed depth opening closing texts =
      opening :: (commaSeparated texts ++ (lineBreak depth ++ [closing])) := by
  cases texts with
  | nil => exact absurd rfl nonempty
  | cons => rfl

theorem rereadProperties_eq_nil_of_pretty {properties : List (JsString × JsValue)}
    (none : prettyProperties depth properties = []) : rereadProperties round properties = [] := by
  induction properties with
  | nil => rfl
  | cons property rest ih =>
      rcases property with ⟨name, value⟩
      cases written : prettyAt depth value with
      | none =>
          rw [prettyProperties, written] at none
          rw [rereadProperties, prettyAt_eq_none.mp written]
          exact ih none
      | some text => simp [prettyProperties, written] at none

theorem exists_cons_of_prettyProperties {properties : List (JsString × JsValue)}
    (nonempty : prettyProperties depth properties ≠ []) : ∃ others,
      commaSeparated (prettyProperties depth properties) = lineBreak depth ++ 34 :: others := by
  induction properties with
  | nil => exact absurd rfl nonempty
  | cons property rest ih =>
      rcases property with ⟨name, value⟩
      cases written : prettyAt depth value with
      | none =>
          simp only [prettyProperties, written] at nonempty ⊢
          exact ih nonempty
      | some text =>
          simp only [prettyProperties, written]
          rw [commaSeparated_cons, quote, List.append_assoc, List.cons_append, List.cons_append,
            List.cons_append]
          exact ⟨_, rfl⟩

theorem exists_cons_of_prettyItems (item : JsValue) (rest : List JsValue) :
    ∃ first others, commaSeparated (prettyItems depth (item :: rest)) =
      lineBreak depth ++ first :: others ∧ isBlank first = false ∧ first ≠ 93 := by
  have opens : ∃ first others, (prettyAt depth item).getD (js "null") = first :: others ∧
      isBlank first = false ∧ first ≠ 93 := by
    cases written : prettyAt depth item with
    | none => exact ⟨110, _, rfl, by decide⟩
    | some text => exact exists_cons_of_prettyAt written
  rcases opens with ⟨first, others, opens, visible⟩
  rw [prettyItems, commaSeparated_cons, opens, List.append_assoc, List.cons_append]
  exact ⟨first, _, rfl, visible⟩

mutual

theorem reads_prettyAt : ∀ (value : JsValue) {depth : ℕ} {text : JsString},
    prettyAt depth value = some text → Reads round text (reread round value)
  | .array [], _, _, written, fuel + 1, _, _, _ => by
      rw [prettyAt] at written
      cases written
      rfl
  | .array (item :: rest), depth, _, written, fuel + 1, more, enough, _ => by
      rw [prettyAt, bracketed_of_ne_nil (by simp [prettyItems])] at written
      cases written
      simp only [List.length_append, List.length_cons] at enough
      have bound : (commaSeparated (prettyItems (depth + 1) (item :: rest))).length + 1 < fuel := by
        omega
      have read := takeItems_of_reads (reads_prettyItems (item :: rest)) (by simp [prettyItems]) bound
        (ends_line _) (@skip_append (lineBreak depth) (fun _ => isBlank_of_mem_lineBreak) (93 :: more))
      rcases @exists_cons_of_prettyItems (depth + 1) item rest with
        ⟨first, others, opens, visible, noBracket⟩
      have begins : ∀ closing, skip (commaSeparated (prettyItems (depth + 1) (item :: rest)) ++
          closing) = first :: (others ++ closing) := by
        intro closing
        rw [opens, List.append_assoc, skip_append fun _ => isBlank_of_mem_lineBreak]
        exact skip_cons visible _
      rw [← takeItems_skip, begins] at read
      rw [List.cons_append, List.append_assoc, List.append_assoc]
      exact takeValue_array (begins _) noBracket read
  | .object properties, depth, _, written, fuel + 1, more, enough, _ => by
      rw [prettyAt] at written
      cases written
      by_cases none : prettyProperties (depth + 1) properties = []
      · rw [none, reread, rereadProperties_eq_nil_of_pretty none]
        rfl
      · rw [bracketed_of_ne_nil none] at enough ⊢
        simp only [List.length_append, List.length_cons] at enough
        have bound :
            (commaSeparated (prettyProperties (depth + 1) properties)).length + 1 < fuel := by
          omega
        have read := takeMembers_of_reads (reads_prettyProperties properties) none bound
          (ends_line _)
          (@skip_append (lineBreak depth) (fun _ => isBlank_of_mem_lineBreak) (125 :: more))
        rcases exists_cons_of_prettyProperties none with ⟨others, opens⟩
        have begins : ∀ closing, skip (commaSeparated (prettyProperties (depth + 1) properties) ++
            closing) = 34 :: (others ++ closing) := by
          intro closing
          rw [opens, List.append_assoc, skip_append fun _ => isBlank_of_mem_lineBreak]
          rfl
        rw [← takeMembers_skip, begins] at read
        rw [List.cons_append, List.append_assoc, List.append_assoc]
        exact takeValue_object (begins _) read
  | .undefined, _, _, written, _, _, _, _ => by cases written
  | .other, _, _, written, _, _, _, _ => by cases written
  | .null, _, _, written, _, _, enough, ends => reads_stringify .null written enough ends
  | .boolean value, _, _, written, _, _, enough, ends =>
      reads_stringify (.boolean value) written enough ends
  | .number value, _, _, written, _, _, enough, ends =>
      reads_stringify (.number value) written enough ends
  | .string value, _, _, written, _, _, enough, ends =>
      reads_stringify (.string value) written enough ends
  termination_by value => sizeOf value

theorem reads_prettyItems : ∀ (items : List JsValue) {depth : ℕ},
    List.Forall₂ (Reads round) (prettyItems depth items) (rereadItems round items)
  | [], _ => .nil
  | item :: rest, depth => by
      rw [prettyItems, rereadItems]
      refine .cons (Reads.append (fun _ => isBlank_of_mem_lineBreak) ?_) (reads_prettyItems rest)
      cases written : prettyAt depth item with
      | none =>
          rw [prettyAt_eq_none.mp written]
          exact reads_null
      | some text =>
          have present : stringify item ≠ none := by
            rw [Ne, ← @prettyAt_eq_none depth, written]
            simp
          cases compact : stringify item with
          | none => exact absurd compact present
          | some _ => exact reads_prettyAt item written
  termination_by items => sizeOf items

theorem reads_prettyProperties : ∀ (properties : List (JsString × JsValue)) {depth : ℕ},
    List.Forall₂ (ReadsMember round) (prettyProperties depth properties)
      (rereadProperties round properties)
  | [], _ => .nil
  | (name, value) :: rest, depth => by
      rw [prettyProperties, rereadProperties]
      cases written : prettyAt depth value with
      | none =>
          rw [prettyAt_eq_none.mp written]
          exact reads_prettyProperties rest
      | some text =>
          have present : stringify value ≠ none := by
            rw [Ne, ← @prettyAt_eq_none depth, written]
            simp
          cases compact : stringify value with
          | none => exact absurd compact present
          | some _ =>
              refine .cons ⟨_, 32 :: text, rfl, fun _ => isBlank_of_mem_lineBreak, ?_⟩
                (reads_prettyProperties rest)
              exact @Reads.append round [32] text _ (by simp [isBlank]) (reads_prettyAt value written)
  termination_by properties => sizeOf properties

end

theorem parse_pretty {value : JsValue} {text : JsString} (written : pretty value = some text) :
    parse round text = some (reread round value) := by
  have read : takeValue round (text.length + 1) (text ++ []) = _ :=
    reads_prettyAt value written (Nat.lt_succ_self _) fun _ isHead => by cases isHead
  rw [List.append_nil] at read
  rw [parse, read]
  rfl

end Reading

def PlainLines : JsString → Prop
  | [] => True
  | unit :: rest => (unit = 10 → ∃ next others, rest = next :: others ∧ next ≠ 96) ∧ PlainLines rest

theorem PlainLines.append {front back : JsString} (frontPlain : PlainLines front)
    (backPlain : PlainLines back) : PlainLines (front ++ back) := by
  induction front with
  | nil => exact backPlain
  | cons unit rest ih =>
      refine ⟨fun isBreak => ?_, ih frontPlain.2⟩
      rcases frontPlain.1 isBreak with ⟨next, others, rfl, noBacktick⟩
      exact ⟨next, others ++ back, rfl, noBacktick⟩

theorem plainLines_of_notMem {text : JsString} (noBreak : 10 ∉ text) : PlainLines text := by
  induction text with
  | nil => trivial
  | cons unit rest ih =>
      rw [List.mem_cons, not_or] at noBreak
      exact ⟨fun isBreak => absurd isBreak.symm noBreak.1, ih noBreak.2⟩

theorem plainLines_commaSeparated {texts : List JsString} (plain : ∀ text ∈ texts, PlainLines text) :
    PlainLines (commaSeparated texts) := by
  induction texts using commaSeparated.induct with
  | case1 => trivial
  | case2 text => exact plain text (List.mem_singleton.mpr rfl)
  | case3 first second rest ih =>
      rw [List.forall_mem_cons] at plain
      exact (plain.1.append (plainLines_of_notMem (by decide))).append (ih plain.2)

theorem notMem_unicodeEscape (unit : UInt16) : 10 ∉ unicodeEscape unit := by
  have visible : ∀ value < 16, hexDigit value ≠ 10 := by decide
  have bound := unit.toNat_lt
  intro isBreak
  simp only [unicodeEscape, List.mem_cons, List.not_mem_nil, or_false] at isBreak
  rcases isBreak with backslash | u | first | second | third | fourth
  · exact absurd backslash (by decide)
  · exact absurd u (by decide)
  · exact visible _ (by omega) first.symm
  · exact visible _ (by omega) second.symm
  · exact visible _ (by omega) third.symm
  · exact visible _ (by omega) fourth.symm

theorem notMem_escapeAlone (unit : UInt16) : 10 ∉ escapeAlone unit := by
  simp only [escapeAlone]
  split
  · exact notMem_unicodeEscape unit
  · unfold escapeUnit
    split
    case h_8 noBreak _ _ _ _ =>
      split
      · exact notMem_unicodeEscape unit
      · rename_i visible
        intro isBreak
        rw [← List.mem_singleton.mp isBreak] at visible
        exact visible (by decide)
    all_goals decide

theorem notMem_quote (text : JsString) : 10 ∉ quote text := by
  have escaped : 10 ∉ escapeText text := by
    induction text using escapeText.induct with
    | case1 => exact List.not_mem_nil
    | case2 unit => exact notMem_escapeAlone unit
    | case3 first second rest pair ih =>
        rw [escapeText, if_pos pair]
        simp only [isHighSurrogate, isLowSurrogate, Bool.and_eq_true, decide_eq_true_eq] at pair
        rw [List.mem_cons, List.mem_cons]
        rintro (rfl | rfl | later)
        · exact absurd pair.1.1 (by decide)
        · exact absurd pair.2.1 (by decide)
        · exact ih later
    | case4 first second rest single ih =>
        rw [escapeText, if_neg single, List.mem_append]
        rintro (here | later)
        · exact notMem_escapeAlone first here
        · exact ih later
  rw [quote, List.mem_append, List.mem_cons]
  rintro ((isQuote | inside) | isQuote)
  · exact absurd isQuote (by decide)
  · exact escaped inside
  · exact absurd isQuote (by decide)

theorem notMem_spaces (count : ℕ) : (10 : UInt16) ∉ List.replicate count 32 := by
  intro isBreak
  exact absurd (List.eq_of_mem_replicate isBreak) (by decide)

theorem plainLines_indent {depth : ℕ} {text : JsString} (plain : PlainLines text) :
    PlainLines (lineBreak (depth + 1) ++ text) := by
  refine ⟨fun _ => ⟨32, _, rfl, by decide⟩, ?_⟩
  exact (plainLines_of_notMem (notMem_spaces _)).append plain

theorem plainLines_closing {depth : ℕ} {closing : UInt16} (noBreak : closing ≠ 10)
    (noBacktick : closing ≠ 96) : PlainLines (lineBreak depth ++ [closing]) := by
  have closed : PlainLines [closing] := plainLines_of_notMem (by simpa using Ne.symm noBreak)
  cases depth with
  | zero => exact ⟨fun _ => ⟨closing, [], rfl, noBacktick⟩, closed⟩
  | succ depth => exact plainLines_indent closed

theorem plainLines_bracketed {depth : ℕ} {opening closing : UInt16} {texts : List JsString}
    (opens : opening ≠ 10) (noBreak : closing ≠ 10) (noBacktick : closing ≠ 96)
    (plain : ∀ text ∈ texts, PlainLines text) :
    PlainLines (bracketed depth opening closing texts) := by
  have opened : PlainLines [opening] := plainLines_of_notMem (by simpa using Ne.symm opens)
  cases texts with
  | nil => exact opened.append (plainLines_of_notMem (by simpa using Ne.symm noBreak))
  | cons text texts =>
      exact opened.append ((plainLines_commaSeparated plain).append
        (plainLines_closing noBreak noBacktick))

mutual

theorem plainLines_prettyAt : ∀ (value : JsValue) {depth : ℕ} {text : JsString},
    prettyAt depth value = some text → PlainLines text
  | .array items, _, _, written => by
      rw [prettyAt] at written
      cases written
      exact plainLines_bracketed (by decide) (by decide) (by decide) (plainLines_prettyItems items)
  | .object properties, _, _, written => by
      rw [prettyAt] at written
      cases written
      exact plainLines_bracketed (by decide) (by decide) (by decide)
        (plainLines_prettyProperties properties)
  | .undefined, _, _, written => by cases written
  | .other, _, _, written => by cases written
  | .null, _, _, written => by
      cases written
      exact plainLines_of_notMem (by decide)
  | .boolean true, _, _, written => by
      cases written
      exact plainLines_of_notMem (by decide)
  | .boolean false, _, _, written => by
      cases written
      exact plainLines_of_notMem (by decide)
  | .number .nan, _, _, written => by
      cases written
      exact plainLines_of_notMem (by decide)
  | .number (.infinity _), _, _, written => by
      cases written
      exact plainLines_of_notMem (by decide)
  | .number (.finite number), _, _, written => by
      cases written
      apply plainLines_of_notMem
      intro isBreak
      exact absurd (List.all_eq_true.mp (all_isNumeric_text number) 10 isBreak) (by decide)
  | .string given, _, _, written => by
      simp only [prettyAt, stringify] at written
      cases written
      exact plainLines_of_notMem (notMem_quote given)
  termination_by value => sizeOf value

theorem plainLines_prettyItems : ∀ (items : List JsValue) {depth : ℕ},
    ∀ text ∈ prettyItems (depth + 1) items, PlainLines text
  | [], _ => by simp [prettyItems]
  | item :: rest, depth => by
      rw [prettyItems, List.forall_mem_cons]
      refine ⟨plainLines_indent ?_, plainLines_prettyItems rest⟩
      cases written : prettyAt (depth + 1) item with
      | none => exact plainLines_of_notMem (by decide)
      | some text => exact plainLines_prettyAt item written
  termination_by items => sizeOf items

theorem plainLines_prettyProperties : ∀ (properties : List (JsString × JsValue)) {depth : ℕ},
    ∀ text ∈ prettyProperties (depth + 1) properties, PlainLines text
  | [], _ => by simp [prettyProperties]
  | (name, value) :: rest, depth => by
      rw [prettyProperties]
      cases written : prettyAt (depth + 1) value with
      | none => exact plainLines_prettyProperties rest
      | some text =>
          rw [List.forall_mem_cons]
          refine ⟨plainLines_indent ?_, plainLines_prettyProperties rest⟩
          have colon : PlainLines [58, 32] := plainLines_of_notMem (by decide)
          exact (plainLines_of_notMem (notMem_quote name)).append
            (colon.append (plainLines_prettyAt value written))
  termination_by properties => sizeOf properties

end

def breakOn (pattern : JsString) : JsString → Option (JsString × JsString)
  | [] => if pattern = [] then some ([], []) else none
  | unit :: rest =>
      if pattern.isPrefixOf (unit :: rest) then
        some ([], (unit :: rest).drop pattern.length)
      else
        (breakOn pattern rest).map fun broken => (unit :: broken.1, broken.2)

def openingFence : JsString := js "```json\n"

def closingFence : JsString := js "\n```"

/-- `/```json\n([\s\S]*?)\n```/.exec(text)?.[1]`. Where nothing closes the first block, nothing
closes one that begins later. -/
def fencedJson (text : JsString) : Option JsString :=
  (breakOn openingFence text).bind fun opened => (breakOn closingFence opened.2).map Prod.fst

theorem breakOn_eq_some {pattern text front back : JsString}
    (broken : breakOn pattern text = some (front, back)) : text = front ++ (pattern ++ back) := by
  induction text generalizing front with
  | nil =>
      rw [breakOn] at broken
      split at broken
      case isTrue empty =>
        cases broken
        rw [empty]
        rfl
      case isFalse => cases broken
  | cons unit rest ih =>
      rw [breakOn] at broken
      split at broken
      case isTrue opens =>
        cases broken
        rcases List.isPrefixOf_iff_prefix.mp opens with ⟨back, split⟩
        rw [← split, List.drop_left, List.nil_append]
      case isFalse =>
        rcases Option.map_eq_some_iff.mp broken with ⟨⟨front', back'⟩, later, same⟩
        cases same
        rw [ih later, List.cons_append]

theorem breakOn_of_first {pattern front back : JsString}
    (first : ∀ part rest, front = part ++ rest → rest ≠ [] → ¬pattern <+: rest ++ (pattern ++ back)) :
    breakOn pattern (front ++ (pattern ++ back)) = some (front, back) := by
  induction front with
  | nil =>
      rw [List.nil_append]
      cases joined : pattern ++ back with
      | nil =>
          rcases List.append_eq_nil_iff.mp joined with ⟨rfl, rfl⟩
          rfl
      | cons unit rest =>
          rw [breakOn, ← joined, if_pos (List.isPrefixOf_iff_prefix.mpr (List.prefix_append _ _)),
            List.drop_left]
  | cons unit rest ih =>
      have notHere := first [] (unit :: rest) rfl (List.cons_ne_nil _ _)
      have later : breakOn pattern (rest ++ (pattern ++ back)) = some (rest, back) := by
        apply ih
        intro part rest' split
        exact first (unit :: part) rest' (by rw [split, List.cons_append])
      rw [List.cons_append, breakOn, if_neg (by simpa [List.isPrefixOf_iff_prefix] using notHere), later]
      rfl

theorem exists_breakOn {pattern : JsString} (front back : JsString) :
    ∃ before after, breakOn pattern (front ++ (pattern ++ back)) = some (before, after) ∧
      before.length ≤ front.length := by
  induction front with
  | nil =>
      refine ⟨[], back, ?_, le_rfl⟩
      apply breakOn_of_first
      intro part rest split nonempty
      exact absurd (List.append_eq_nil_iff.mp split.symm).2 nonempty
  | cons unit rest ih =>
      rw [List.cons_append, breakOn]
      split
      · exact ⟨_, _, rfl, Nat.zero_le _⟩
      · rcases ih with ⟨before, after, found, notAfter⟩
        rw [found]
        exact ⟨_, _, rfl, by simpa using notAfter⟩

theorem breakOn_append {first : UInt16} {pattern front : JsString} (absent : first ∉ front)
    (text : JsString) : breakOn (first :: pattern) (front ++ text) =
      (breakOn (first :: pattern) text).map fun broken => (front ++ broken.1, broken.2) := by
  induction front with
  | nil => simp
  | cons unit rest ih =>
      rw [List.mem_cons, not_or] at absent
      rw [List.cons_append, breakOn, if_neg, ih absent.2, Option.map_map]
      · rfl
      · simp [List.isPrefixOf, absent.1]

def BorderFree (pattern : JsString) : Prop :=
  ∀ count < pattern.length, count ≠ 0 → ¬pattern.drop count <+: pattern

instance (pattern : JsString) : Decidable (BorderFree pattern) :=
  inferInstanceAs (Decidable (∀ count < pattern.length, count ≠ 0 → ¬pattern.drop count <+: pattern))

theorem breakOn_of_not_infix {pattern front : JsString} (borderFree : BorderFree pattern)
    (absent : ¬pattern <:+: front) (back : JsString) :
    breakOn pattern (front ++ (pattern ++ back)) = some (front, back) := by
  apply breakOn_of_first
  rintro part rest rfl nonempty isHere
  have reaches : rest <+: rest ++ (pattern ++ back) := List.prefix_append _ _
  rcases Nat.lt_or_ge rest.length pattern.length with longer | shorter
  · have opens : rest <+: pattern := List.prefix_of_prefix_length_le reaches isHere longer.le
    rcases opens with ⟨tail, split⟩
    have after : tail <+: pattern ++ back := by
      rw [← split] at isHere
      exact (List.prefix_append_right_inj rest).mp (by simpa [split] using isHere)
    have isDrop : pattern.drop rest.length = tail := by rw [← split, List.drop_left]
    apply borderFree rest.length longer (by simpa using nonempty)
    rw [isDrop]
    apply List.prefix_of_prefix_length_le after (List.prefix_append _ _)
    rw [← split, List.length_append]
    exact Nat.le_add_left _ _
  · have inside : pattern <+: rest := List.prefix_of_prefix_length_le isHere reaches shorter
    exact absent (inside.isInfix.trans (List.suffix_append part rest).isInfix)

theorem breakOn_closingFence {text : JsString} (plain : PlainLines text) (back : JsString) :
    breakOn closingFence (text ++ (closingFence ++ back)) = some (text, back) := by
  apply breakOn_of_first
  rintro part rest rfl nonempty isHere
  have plainRest : PlainLines rest := by
    induction part with
    | nil => exact plain
    | cons unit part ih => exact ih plain.2
  cases rest with
  | nil => exact nonempty rfl
  | cons unit rest =>
      rw [List.cons_append] at isHere
      rcases List.cons_prefix_cons.mp isHere with ⟨isBreak, backticks⟩
      rcases plainRest.1 isBreak.symm with ⟨next, others, rfl, noBacktick⟩
      rw [List.cons_append] at backticks
      exact noBacktick (List.cons_prefix_cons.mp backticks).1.symm

theorem fencedJson_eq_some {front text : JsString} (absent : ¬openingFence <:+: front)
    (plain : PlainLines text) :
    fencedJson (front ++ (openingFence ++ (text ++ closingFence))) = some text := by
  have closes := breakOn_closingFence plain []
  rw [List.append_nil] at closes
  simp [fencedJson, breakOn_of_not_infix (by decide) absent, closes]

theorem fencedJson_append {front : JsString} (absent : 96 ∉ front) (text : JsString) :
    fencedJson (front ++ text) = fencedJson text := by
  have skipped := @breakOn_append 96 (js "``json\n") front absent text
  rw [fencedJson, fencedJson, show openingFence = 96 :: js "``json\n" from rfl, skipped]
  cases breakOn (96 :: js "``json\n") text <;> rfl

/-- Where a block begins in the lines before, what is read is a part of them or begins with a
backtick. -/
theorem fencedJson_of_infix {lines text inside : JsString} (early : openingFence <:+: lines ++ [10])
    (fenced : fencedJson (lines ++ ([10] ++ (openingFence ++ text))) = some inside) :
    inside.length < lines.length ∨ ∃ rest, inside = 96 :: rest := by
  rcases early with ⟨front, back, split⟩
  rcases exists_breakOn front (back ++ (openingFence ++ text)) with
    ⟨before, after, opens, notAfter⟩
  have joined : lines ++ ([10] ++ (openingFence ++ text)) =
      front ++ (openingFence ++ (back ++ (openingFence ++ text))) := by
    rw [← List.append_assoc, ← split, List.append_assoc, List.append_assoc]
  have whole := breakOn_eq_some opens
  rw [fencedJson, joined, opens, Option.bind_some, Option.map_eq_some_iff] at fenced
  rcases fenced with ⟨⟨inside, closed⟩, closes, rfl⟩
  replace closes : breakOn closingFence after = some (inside, closed) := closes
  have inLines : before ++ openingFence <+: lines ++ [10] := by
    have opening : before ++ openingFence <+: lines ++ ([10] ++ (openingFence ++ text)) := by
      rw [joined, whole, ← List.append_assoc]
      exact List.prefix_append _ _
    have body : lines ++ [10] <+: lines ++ ([10] ++ (openingFence ++ text)) := by
      rw [← List.append_assoc]
      exact List.prefix_append _ _
    apply List.prefix_of_prefix_length_le opening body
    have lengths := congrArg List.length split
    simp only [List.length_append] at lengths ⊢
    omega
  rcases inLines with ⟨rest, splitLines⟩
  have isAfter : after = rest ++ (openingFence ++ text) := by
    rw [← List.append_assoc lines, ← splitLines, List.append_assoc, List.append_assoc] at joined
    rw [← joined] at whole
    exact (List.append_cancel_left (List.append_cancel_left whole)).symm
  rcases List.eq_nil_or_concat rest with rfl | ⟨part, last, rfl⟩
  · right
    rw [breakOn_eq_some closes] at isAfter
    cases inside with
    | nil => exact absurd (List.cons.inj isAfter).1 (by decide)
    | cons unit rest =>
        have isBacktick : unit = 96 := (List.cons.inj isAfter).1
        exact ⟨rest, by rw [isBacktick]⟩
  · left
    rw [List.concat_eq_append, ← List.append_assoc] at splitLines
    rcases List.append_inj' splitLines rfl with ⟨isLines, isBreak⟩
    rcases @exists_breakOn closingFence part (js "json\n" ++ text) with
      ⟨before', after', first, notAfter'⟩
    have again : after = part ++ (closingFence ++ (js "json\n" ++ text)) := by
      rw [isAfter, List.concat_eq_append, isBreak, List.append_assoc]
      rfl
    rw [again, first, Option.some.injEq, Prod.mk.injEq] at closes
    have lengths := congrArg List.length isLines
    have fenceLength : openingFence.length = 8 := by decide
    simp only [List.length_append, fenceLength] at lengths
    show inside.length < lines.length
    rw [← closes.1]
    omega

section Lengths

variable {round : FiniteNumber → JsNumber}

theorem length_takeStringUnit {text rest : JsString} {unit : UInt16}
    (taken : takeStringUnit text = some (unit, rest)) : rest.length < text.length := by
  unfold takeStringUnit at taken
  split at taken
  case h_1 =>
    simp only [Option.bind_eq_bind, Option.bind_eq_some_iff, Option.pure_def, Option.some.injEq,
      Prod.mk.injEq] at taken
    rcases taken with ⟨_, -, _, -, _, -, _, -, -, rfl⟩
    simp only [List.length_cons]
    omega
  case h_2 =>
    rcases Option.map_eq_some_iff.mp taken with ⟨_, -, same⟩
    cases same
    simp only [List.length_cons]
    omega
  case h_3 =>
    split at taken
    · cases taken
    · cases taken
      exact Nat.lt_succ_self _
  case h_4 => cases taken

theorem length_takeString {fuel : ℕ} {text units rest : JsString}
    (taken : takeString fuel text = some (units, rest)) :
    units.length + rest.length < text.length := by
  induction fuel generalizing text units with
  | zero => cases taken
  | succ fuel ih =>
      by_cases closes : ∃ rest, text = 34 :: rest
      · rcases closes with ⟨after, rfl⟩
        cases taken
        simp
      · rw [takeString.eq_3 text fuel fun rest same => closes ⟨rest, same⟩] at taken
        simp only [Option.bind_eq_bind, Option.bind_eq_some_iff, Option.pure_def,
          Option.some.injEq, Prod.mk.injEq, Prod.exists] at taken
        rcases taken with ⟨unit, after, first, others, rest, later, rfl, rfl⟩
        have shorter := length_takeStringUnit first
        have short := ih later
        simp only [List.length_cons]
        omega

theorem length_takeRun {text run rest : JsString} (taken : takeRun text = some (run, rest)) :
    rest.length ≤ text.length := by
  rw [takeRun] at taken
  split at taken
  · cases taken
  · cases taken
    exact (List.dropWhile_sublist _).length_le

theorem length_takeSigned {text rest : JsString} {exponent : ℤ}
    (taken : takeSigned text = some (exponent, rest)) : rest.length ≤ text.length := by
  unfold takeSigned at taken
  split at taken
  case h_3 =>
    rcases Option.map_eq_some_iff.mp taken with ⟨⟨run, _⟩, found, same⟩
    cases same
    exact length_takeRun found
  all_goals
    rcases Option.map_eq_some_iff.mp taken with ⟨⟨run, _⟩, found, same⟩
    cases same
    exact (length_takeRun found).trans (Nat.le_succ _)

theorem length_takeNumber {text rest : JsString} {number : FiniteNumber}
    (taken : takeNumber text = some (number, rest)) : rest.length ≤ text.length := by
  have sign : (takeSign text).2.length ≤ text.length := by
    unfold takeSign
    split
    · exact Nat.le_succ _
    · exact le_rfl
  simp only [takeNumber, Option.bind_eq_bind, Option.bind_eq_some_iff, Option.pure_def,
    Option.some.injEq, Prod.mk.injEq, Prod.exists] at taken
  rcases taken with ⟨whole, rest₁, isWhole, fraction, rest₂, isFraction, exponent, rest₃,
    isExponent, -, rfl⟩
  have first : rest₁.length ≤ (takeSign text).2.length := by
    unfold takeWhole at isWhole
    split at isWhole
    case h_1 given opens =>
      cases isWhole
      rw [opens]
      exact Nat.le_succ _
    case h_2 => exact length_takeRun isWhole
  have second : rest₂.length ≤ rest₁.length := by
    unfold takeFraction at isFraction
    split at isFraction
    · exact (length_takeRun isFraction).trans (Nat.le_succ _)
    · cases isFraction
      exact le_rfl
  have third : rest₃.length ≤ rest₂.length := by
    unfold takeExponent at isExponent
    split at isExponent
    · exact (length_takeSigned isExponent).trans (Nat.le_succ _)
    · exact (length_takeSigned isExponent).trans (Nat.le_succ _)
    · cases isExponent
      exact le_rfl
  omega

theorem length_takeScalar {text rest : JsString} {value : JsValue}
    (taken : takeScalar round text = some (value, rest)) :
    rest.length ≤ text.length ∧ (∀ found, value ≠ .string found) ∧
      ∀ properties, value ≠ .object properties := by
  unfold takeScalar at taken
  split_ifs at taken
  · cases taken
    exact ⟨by simp, by simp, by simp⟩
  · cases taken
    exact ⟨by simp, by simp, by simp⟩
  · cases taken
    exact ⟨by simp, by simp, by simp⟩
  · rcases Option.map_eq_some_iff.mp taken with ⟨⟨number, _⟩, found, same⟩
    cases same
    exact ⟨length_takeNumber found, by simp, by simp⟩

theorem length_skip (text : JsString) : (skip text).length ≤ text.length :=
  (List.dropWhile_sublist _).length_le

/-- Reading with this fuel leaves no more than there is, and no string is longer than its text. -/
structure Shortens (round : FiniteNumber → JsNumber) (fuel : ℕ) : Prop where
  value : ∀ {text value rest}, takeValue round fuel text = some (value, rest) →
    rest.length ≤ text.length ∧ ∀ found, value = .string found → found.length ≤ text.length
  items : ∀ {text items rest}, takeItems round fuel text = some (items, rest) →
    rest.length ≤ text.length
  members : ∀ {text members rest}, takeMembers round fuel text = some (members, rest) →
    rest.length ≤ text.length ∧
      ∀ name found, (name, JsValue.string found) ∈ members → found.length ≤ text.length

variable {fuel : ℕ}

theorem Shortens.value_succ (shortens : Shortens round fuel) {text rest : JsString} {value : JsValue}
    (taken : takeValue round (fuel + 1) text = some (value, rest)) :
    rest.length ≤ text.length ∧ ∀ found, value = .string found → found.length ≤ text.length := by
  have skipped := length_skip text
  rw [takeValue] at taken
  split at taken
  case h_1 after opens =>
    rcases Option.map_eq_some_iff.mp taken with ⟨⟨units, _⟩, read, same⟩
    cases same
    have short := length_takeString read
    rw [opens, List.length_cons] at skipped
    refine ⟨by omega, ?_⟩
    rintro found same
    cases same
    omega
  case h_2 after opens =>
    have again := length_skip after
    rw [opens, List.length_cons] at skipped
    split at taken
    case h_1 closed =>
      cases taken
      rw [closed, List.length_cons] at again
      exact ⟨by omega, by simp⟩
    case h_2 =>
      rcases Option.map_eq_some_iff.mp taken with ⟨⟨items, _⟩, read, same⟩
      cases same
      have short := shortens.items read
      exact ⟨by omega, by simp⟩
  case h_3 after opens =>
    have again := length_skip after
    rw [opens, List.length_cons] at skipped
    split at taken
    case h_1 closed =>
      cases taken
      rw [closed, List.length_cons] at again
      exact ⟨by omega, by simp⟩
    case h_2 =>
      rcases Option.map_eq_some_iff.mp taken with ⟨⟨members, _⟩, read, same⟩
      cases same
      have short := shortens.members read
      exact ⟨by omega, by simp [objectOf, fromEntries]⟩
  case h_4 =>
    rcases length_takeScalar taken with ⟨short, noString, -⟩
    exact ⟨short.trans skipped, fun found same => absurd same (noString found)⟩

theorem Shortens.items_succ (shortens : Shortens round fuel) {text rest : JsString}
    {items : List JsValue} (taken : takeItems round (fuel + 1) text = some (items, rest)) :
    rest.length ≤ text.length := by
  simp only [takeItems, Option.bind_eq_bind, Option.bind_eq_some_iff, Prod.exists] at taken
  rcases taken with ⟨item, after, read, taken⟩
  have short := shortens.value read
  have skipped := length_skip after
  split at taken
  case h_1 opens =>
    simp only [Option.map_eq_some_iff, Prod.exists, Prod.mk.injEq] at taken
    rcases taken with ⟨others, rest, later, rfl, rfl⟩
    have shorter := shortens.items later
    rw [opens, List.length_cons] at skipped
    omega
  case h_2 opens =>
    cases taken
    rw [opens, List.length_cons] at skipped
    omega
  case h_3 => cases taken

theorem Shortens.members_succ (shortens : Shortens round fuel) {text rest : JsString}
    {members : List (JsString × JsValue)}
    (taken : takeMembers round (fuel + 1) text = some (members, rest)) :
    rest.length ≤ text.length ∧
      ∀ name found, (name, JsValue.string found) ∈ members → found.length ≤ text.length := by
  have skipped := length_skip text
  rw [takeMembers] at taken
  split at taken
  case h_2 => cases taken
  case h_1 opened opens =>
    rw [opens, List.length_cons] at skipped
    simp only [Option.bind_eq_bind, Option.bind_eq_some_iff, Prod.exists] at taken
    rcases taken with ⟨name, after, named, taken⟩
    have short := length_takeString named
    have skippedName := length_skip after
    split at taken
    case h_2 => cases taken
    case h_1 colon =>
      rw [colon, List.length_cons] at skippedName
      simp only [Option.bind_eq_some_iff, Prod.exists] at taken
      rcases taken with ⟨value, afterValue, read, taken⟩
      have shortValue := shortens.value read
      have skippedValue := length_skip afterValue
      split at taken
      case h_1 comma =>
        rw [comma, List.length_cons] at skippedValue
        simp only [Option.map_eq_some_iff, Prod.exists, Prod.mk.injEq] at taken
        rcases taken with ⟨others, rest, later, rfl, rfl⟩
        have shorter := shortens.members later
        refine ⟨by omega, fun other found isMember => ?_⟩
        rcases List.mem_cons.mp isMember with here | there
        · have bound := shortValue.2 found (Prod.mk.inj here).2.symm
          omega
        · have bound := shorter.2 other found there
          omega
      case h_2 brace =>
        cases taken
        rw [brace, List.length_cons] at skippedValue
        refine ⟨by omega, fun other found isMember => ?_⟩
        have bound := shortValue.2 found (Prod.mk.inj (List.mem_singleton.mp isMember)).2.symm
        omega
      case h_3 => cases taken

theorem shortens : ∀ fuel, Shortens round fuel
  | 0 => ⟨by simp [takeValue], by simp [takeItems], by simp [takeMembers]⟩
  | fuel + 1 => ⟨(shortens fuel).value_succ, (shortens fuel).items_succ, (shortens fuel).members_succ⟩

theorem mem_of_mem_setProperty {properties : List (JsString × JsValue)} {name : JsString}
    {value : JsValue} {property : JsString × JsValue}
    (isProperty : property ∈ JsValue.setProperty properties name value) :
    property ∈ properties ∨ property = (name, value) := by
  induction properties with
  | nil => exact .inr (List.mem_singleton.mp isProperty)
  | cons first rest ih =>
      rcases first with ⟨first, old⟩
      rw [JsValue.setProperty] at isProperty
      split at isProperty
      case isTrue same =>
        rcases List.mem_cons.mp isProperty with rfl | later
        · exact .inr (by rw [same])
        · exact .inl (List.mem_cons_of_mem _ later)
      case isFalse =>
        rcases List.mem_cons.mp isProperty with rfl | later
        · exact .inl List.mem_cons_self
        · exact (ih later).imp_left (List.mem_cons_of_mem _)

theorem exists_member_of_get {members : List (JsString × JsValue)} {name found : JsString}
    (holds : (objectOf members).get name = .string found) :
    ∃ member, (member, JsValue.string found) ∈ members := by
  have general : ∀ properties : List (JsString × JsValue), ∀ property ∈ members.foldl
      (fun properties member => JsValue.setProperty properties member.1 member.2) properties,
      property ∈ properties ∨ property ∈ members := by
    clear holds
    induction members with
    | nil => exact fun _ _ isProperty => .inl isProperty
    | cons member rest ih =>
        intro properties property isProperty
        rcases ih _ property isProperty with set | later
        · rcases mem_of_mem_setProperty set with old | rfl
          · exact .inl old
          · exact .inr List.mem_cons_self
        · exact .inr (List.mem_cons_of_mem _ later)
  rw [objectOf, fromEntries_eq] at holds
  by_cases present : (JsValue.object (enumerated (members.foldl
      (fun properties member => JsValue.setProperty properties member.1 member.2) []))).hasOwn
        name = true
  · have isEntry := JsValue.exists_entry_get present
    rw [holds] at isEntry
    rcases general [] _ ((enumerated_perm _).mem_iff.mp isEntry) with none | isMember
    · cases none
    · exact ⟨name, isMember⟩
  · rw [JsValue.get_of_not_hasOwn (by simpa using present)] at holds
    cases holds

theorem length_le_of_parse {text name found : JsString} {value : JsValue}
    (read : parse round text = some value) (holds : value.get name = .string found) :
    found.length ≤ text.length := by
  simp only [parse, Option.bind_eq_bind, Option.bind_eq_some_iff, Prod.exists] at read
  rcases read with ⟨value', rest, taken, ended⟩
  split at ended
  case isFalse => cases ended
  case isTrue =>
    cases ended
    have isObject : ∃ properties, value = .object properties := by
      cases value with
      | object properties => exact ⟨properties, rfl⟩
      | _ => cases holds
    rcases isObject with ⟨properties, isObject⟩
    rw [takeValue] at taken
    have skipped := length_skip text
    split at taken
    case h_1 =>
      rcases Option.map_eq_some_iff.mp taken with ⟨⟨units, _⟩, -, same⟩
      rw [isObject] at same
      cases same
    case h_2 =>
      split at taken
      case h_1 =>
        rw [isObject] at taken
        cases taken
      case h_2 =>
        rcases Option.map_eq_some_iff.mp taken with ⟨⟨items, _⟩, -, same⟩
        rw [isObject] at same
        cases same
    case h_3 after opens =>
      have again := length_skip after
      rw [opens, List.length_cons] at skipped
      split at taken
      case h_1 =>
        cases taken
        cases holds
      case h_2 =>
        rcases Option.map_eq_some_iff.mp taken with ⟨⟨members, _⟩, taken, same⟩
        cases same
        rcases exists_member_of_get holds with ⟨member, isMember⟩
        have bound := ((shortens _).members taken).2 member found isMember
        omega
    case h_4 => exact absurd isObject ((length_takeScalar taken).2.2 properties)

theorem parse_backtick (rest : JsString) : parse round (96 :: rest) = none := by
  have opens : OpensScalar 96 := by decide
  have noNumber : takeNumber (96 :: rest) = none := by
    simp [takeNumber, takeSign, takeWhole, takeRun, isDigit]
  have none : takeScalar round (96 :: rest) = none := by
    rw [takeScalar, noNumber, if_neg (not_isPrefixOf_cons rfl (by decide) _),
      if_neg (not_isPrefixOf_cons rfl (by decide) _), if_neg (not_isPrefixOf_cons rfl (by decide) _)]
    rfl
  rw [parse, takeValue_scalar opens, none]
  rfl

end Lengths

end Ecma.Json
