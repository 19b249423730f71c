import StudentHub.Ecma.Json
import StudentHub.Search.Indexer

/-!
# How Typesense reads a filter

A filter is a conjunction of clauses. A clause names a field and the values of which the document
must have one there, each between two backticks and taken as it stands. A filter that cannot be read
selects nothing.
-/

namespace StudentHub.Search

open Ecma JsString

structure Clause where
  field : JsString
  values : List JsString
  deriving DecidableEq

def takeLiteral : JsString → Option (JsString × JsString)
  | [] => none
  | 96 :: rest => some ([], rest)
  | unit :: rest => (takeLiteral rest).map fun (literal, rest) => (unit :: literal, rest)

def takeLiterals : ℕ → JsString → Option (List JsString × JsString)
  | fuel + 1, 96 :: text =>
      match takeLiteral text with
      | some (literal, 44 :: rest) =>
          (takeLiterals fuel rest).map fun (literals, rest) => (literal :: literals, rest)
      | some (literal, 93 :: rest) => some ([literal], rest)
      | _ => none
  | _, _ => none

def takeClause (fuel : ℕ) (text : JsString) : Option (Clause × JsString) :=
  let field := text.takeWhile isLetter
  match text.dropWhile isLetter with
  | 58 :: 61 :: 91 :: rest =>
      (takeLiterals fuel rest).map fun (literals, rest) => (⟨field, literals⟩, rest)
  | 58 :: 61 :: rest => some (⟨field, [rest.takeWhile isLetter]⟩, rest.dropWhile isLetter)
  | _ => none

/-- Clauses with `&&` between them. -/
def takeClauses : ℕ → JsString → Option (List Clause)
  | 0, _ => none
  | fuel + 1, text =>
      match takeClause fuel text with
      | some (clause, []) => some [clause]
      | some (clause, 32 :: 38 :: 38 :: 32 :: rest) => (takeClauses fuel rest).map (clause :: ·)
      | _ => none

def readFilter (text : JsString) : Option (List Clause) := takeClauses (text.length + 1) text

def SearchDocument.fields (document : SearchDocument) : List (JsString × List JsString) :=
  [(js "id", [document.id]), (js "status", [document.status]),
    (js "approved", [if document.approved then js "true" else js "false"]),
    (js "country", [document.country]), (js "university", [document.university]),
    (js "company", document.company.toList), (js "skills", document.skills),
    (js "gender", [document.gender]), (js "profile", [document.profile]),
    (js "assignment", [document.assignment]), (js "documents", document.documents)]

def SearchDocument.fieldValues (document : SearchDocument) (field : JsString) : List JsString :=
  (document.fields.lookup field).getD []

def Clause.admits (clause : Clause) (document : SearchDocument) : Bool :=
  (document.fieldValues clause.field).any fun value => value ∈ clause.values

def selects (filterBy : Option JsString) (document : SearchDocument) : Bool :=
  match filterBy with
  | none => true
  | some text => (readFilter text).any fun clauses => clauses.all fun clause => clause.admits document

/-- The text is read as the clause, whatever comes after it, unless that goes on with a letter. -/
def ReadsClause (text : JsString) (clause : Clause) : Prop :=
  ∀ ⦃fuel : ℕ⦄ ⦃more : JsString⦄, text.length ≤ fuel → (∀ unit ∈ more.head?, isLetter unit = false) →
    takeClause fuel (text ++ more) = some (clause, more)

theorem takeLiteral_append {literal : JsString} (clean : 96 ∉ literal) (rest : JsString) :
    takeLiteral (literal ++ 96 :: rest) = some (literal, rest) := by
  induction literal with
  | nil => rfl
  | cons unit literal ih =>
      rw [List.mem_cons, not_or] at clean
      rw [List.cons_append, takeLiteral, ih clean.2]
      · rfl
      · rintro rfl
        exact clean.1 rfl

def backticked (literal : JsString) : JsString := 96 :: (literal ++ [96])

theorem takeLiterals_append {values : List JsString} (nonempty : values ≠ [])
    (clean : ∀ value ∈ values, 96 ∉ value) {fuel : ℕ} (enough : values.length ≤ fuel)
    (more : JsString) :
    takeLiterals fuel (Json.commaSeparated (values.map backticked) ++ 93 :: more) =
      some (values, more) := by
  induction values generalizing fuel with
  | nil => exact absurd rfl nonempty
  | cons value rest ih =>
      rw [List.forall_mem_cons] at clean
      obtain ⟨fuel, rfl⟩ : ∃ less, fuel = less + 1 := ⟨fuel - 1, by simp at enough; omega⟩
      rw [List.length_cons, Nat.succ_le_succ_iff] at enough
      cases rest with
      | nil =>
          have opens : Json.commaSeparated ([value].map backticked) ++ 93 :: more =
              96 :: (value ++ 96 :: 93 :: more) := by
            simp [Json.commaSeparated, backticked]
          rw [opens, takeLiterals, takeLiteral_append clean.1]
          rfl
      | cons second rest =>
          have opens : Json.commaSeparated ((value :: second :: rest).map backticked) ++ 93 :: more =
              96 :: (value ++ 96 :: 44 ::
                (Json.commaSeparated ((second :: rest).map backticked) ++ 93 :: more)) := by
            simp [Json.commaSeparated, backticked]
          rw [opens, takeLiterals, takeLiteral_append clean.1]
          simp only [ih (List.cons_ne_nil _ _) clean.2 enough, Option.map_some]

theorem length_le_commaSeparated (values : List JsString) :
    values.length ≤ (Json.commaSeparated (values.map backticked)).length := by
  induction values with
  | nil => exact Nat.zero_le _
  | cons value rest ih =>
      cases rest with
      | nil => simp [Json.commaSeparated, backticked]
      | cons second rest =>
          simp only [List.map_cons, Json.commaSeparated, List.length_append, List.length_cons] at ih ⊢
          omega

theorem span_letters {field more : JsString} (letters : ∀ unit ∈ field, isLetter unit = true)
    (ends : ∀ unit ∈ more.head?, isLetter unit = false) :
    (field ++ more).takeWhile isLetter = field ∧ (field ++ more).dropWhile isLetter = more := by
  have stops : more.takeWhile isLetter = [] ∧ more.dropWhile isLetter = more := by
    cases more with
    | nil => exact ⟨rfl, rfl⟩
    | cons unit rest =>
        have notLetter := ends unit rfl
        simp [notLetter]
  rw [List.takeWhile_append_of_pos letters, List.dropWhile_append_of_pos letters, stops.1, stops.2,
    List.append_nil]
  exact ⟨rfl, rfl⟩

theorem readsClause_list {field : JsString} {values : List JsString}
    (letters : ∀ unit ∈ field, isLetter unit = true) (nonempty : values ≠ [])
    (clean : ∀ value ∈ values, 96 ∉ value) :
    ReadsClause (field ++ (js ":=[" ++ (Json.commaSeparated (values.map backticked) ++ js "]")))
      ⟨field, values⟩ := by
  intro fuel more enough _
  have opens : js ":=[" = [58, 61, 91] := rfl
  have closes : js "]" = [93] := rfl
  rw [opens, closes] at enough ⊢
  simp only [List.length_append, List.length_cons, List.length_nil] at enough
  have longer := length_le_commaSeparated values
  have parts : field ++ ([58, 61, 91] ++ (Json.commaSeparated (values.map backticked) ++ [93])) ++ more =
      field ++ (58 :: 61 :: 91 :: (Json.commaSeparated (values.map backticked) ++ 93 :: more)) := by
    simp
  have colon : ∀ unit ∈ (58 :: 61 :: 91 :: (Json.commaSeparated (values.map backticked) ++
      93 :: more) : JsString).head?, isLetter unit = false := by
    rintro _ ⟨⟩
    rfl
  rcases span_letters letters colon with ⟨isField, isRest⟩
  have read := takeLiterals_append nonempty clean (show values.length ≤ fuel by omega) more
  rw [parts, takeClause, isField, isRest]
  simp only [read, Option.map_some]

theorem readsClause_word {field : JsString} {first : UInt16} {word : JsString}
    (letters : ∀ unit ∈ field, isLetter unit = true)
    (wordLetters : ∀ unit ∈ first :: word, isLetter unit = true) :
    ReadsClause (field ++ (js ":=" ++ first :: word)) ⟨field, [first :: word]⟩ := by
  intro fuel more _ ends
  have opens : js ":=" = [58, 61] := rfl
  have parts : field ++ (js ":=" ++ first :: word) ++ more =
      field ++ (58 :: 61 :: (first :: word ++ more)) := by
    rw [opens]
    simp
  have colon : ∀ unit ∈ (58 :: 61 :: (first :: word ++ more) : JsString).head?,
      isLetter unit = false := by
    rintro _ ⟨⟩
    rfl
  rcases span_letters letters colon with ⟨isField, isRest⟩
  rcases span_letters wordLetters ends with ⟨isWord, isMore⟩
  have noBracket : first ≠ 91 := by
    rintro rfl
    exact absurd (wordLetters 91 List.mem_cons_self) (by decide)
  rw [parts, takeClause, isField, isRest]
  split
  · rename_i same
    simp only [List.cons_append, List.cons.injEq, true_and] at same
    exact absurd same.1 noBracket
  · rename_i rest _ same
    simp only [List.cons.injEq, true_and] at same
    rw [← same, isWord, isMore]
  · rename_i _ other
    exact (other _ rfl).elim

theorem takeClauses_append {texts : List JsString} {clauses : List Clause}
    (reads : List.Forall₂ ReadsClause texts clauses) (nonempty : texts ≠ []) {fuel : ℕ}
    (enough : ((js " && ").intercalate texts).length < fuel) :
    takeClauses fuel ((js " && ").intercalate texts) = some clauses := by
  induction reads generalizing fuel with
  | nil => exact absurd rfl nonempty
  | @cons text clause texts clauses first rest ih =>
      obtain ⟨fuel, rfl⟩ : ∃ less, fuel = less + 1 := ⟨fuel - 1, by omega⟩
      cases texts with
      | nil =>
          cases rest
          rw [List.intercalate_singleton] at enough ⊢
          have read : takeClause fuel (text ++ []) = some (clause, []) :=
            first (Nat.le_of_lt_succ enough) nofun
          rw [List.append_nil] at read
          rw [takeClauses, read]
      | cons second texts =>
          have between : js " && " = [32, 38, 38, 32] := rfl
          rw [between] at ih
          rw [List.intercalate_cons_cons, between] at enough ⊢
          simp only [List.length_append, List.length_cons, List.length_nil] at enough
          have read := first (show text.length ≤ fuel by omega)
            (show ∀ unit ∈ ([32, 38, 38, 32] ++ [32, 38, 38, 32].intercalate (second :: texts)
              : JsString).head?, isLetter unit = false by rintro _ ⟨⟩; rfl)
          rw [List.append_assoc, takeClauses, read]
          simp only [List.cons_append, List.nil_append]
          rw [ih (List.cons_ne_nil _ _) (by omega), Option.map_some]

theorem readFilter_intercalate {texts : List JsString} {clauses : List Clause}
    (reads : List.Forall₂ ReadsClause texts clauses) (nonempty : texts ≠ []) :
    readFilter ((js " && ").intercalate texts) = some clauses :=
  takeClauses_append reads nonempty (Nat.lt_succ_self _)

end StudentHub.Search
