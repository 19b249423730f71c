import StudentHub.Ecma.Buffer
import StudentHub.Exports.Rfc4180

/-!
# Exported tables

A cell is written as its text. A text that a spreadsheet would take for a formula gets an
apostrophe in front, and one that holds a mark of the format is quoted.
-/

namespace StudentHub.Exports

open Ecma JsString Rfc4180

def isDangerous (unit : UInt16) : Bool :=
  unit ∈ ([61, 43, 45, 64, 9, 13] : List UInt16)

/-- `dangerous.test(text)` -/
def dangerous (text : JsString) : Bool := text.head?.any isDangerous

/-- `/[",\r\n]/` -/
def isMark (unit : UInt16) : Bool := unit ∈ ([34, 44, 13, 10] : List UInt16)

/-- `String(value)`; the text of an array, an object or a function is given by `print`. -/
def textOf (print : JsValue → JsString) : JsValue → JsString
  | .undefined => js "undefined"
  | .null => js "null"
  | .boolean true => js "true"
  | .boolean false => js "false"
  | .number .nan => js "NaN"
  | .number (.infinity false) => js "Infinity"
  | .number (.infinity true) => js "-Infinity"
  | .number (.finite number) => number.text
  | .string text => text
  | .array items => print (.array items)
  | .object properties => print (.object properties)
  | .other => print .other

def cellText (print : JsValue → JsString) : JsValue → JsString
  | .undefined => []
  | .null => []
  | value => textOf print value

/-- `text.replaceAll('"', '""')` -/
def doubleQuotes (text : JsString) : JsString :=
  text.flatMap fun unit => if unit = 34 then [unit, unit] else [unit]

def guardFormula (text : JsString) : JsString := if dangerous text then 39 :: text else text

def csvCell (print : JsValue → JsString) (value : JsValue) : JsString :=
  let text := guardFormula (cellText print value)
  if text.any isMark then 34 :: doubleQuotes text ++ [34] else text

def csvLines (print : JsValue → JsString) (columns : List JsString) (rows : List (List JsValue)) :
    JsString :=
  (js "\r\n").intercalate ((columns.map JsValue.string :: rows).map fun row =>
    (js ",").intercalate (row.map (csvCell print)))

def writeCsv (print : JsValue → JsString) (columns : List JsString) (rows : List (List JsValue)) :
    List UInt8 :=
  Buffer.ofText (0xFEFF :: csvLines print columns rows ++ js "\r\n")

def csvMarks : Marks UInt16 := ⟨34, 44, 13, 10, by decide⟩

/-- The bytes are UTF-8 with a byte order mark, and the text behind it is a table. -/
def readCsv (bytes : List UInt8) : Option (List (List JsString)) :=
  match Buffer.toText bytes with
  | 0xFEFF :: text => parse csvMarks text
  | _ => none

def IsPlainValue : JsValue → Prop
  | .undefined => True
  | .null => True
  | .boolean _ => True
  | .number _ => True
  | .string text => text.WellFormed
  | .array _ => False
  | .object _ => False
  | .other => False

section Cells

variable {print : JsValue → JsString} {value : JsValue} {text : JsString}

theorem wellFormed_cellText (plain : IsPlainValue value) : (cellText print value).WellFormed := by
  cases value with
  | undefined => rfl
  | null => rfl
  | boolean given => cases given <;> rfl
  | number given =>
      rcases given with _ | negative | number
      · rfl
      · cases negative <;> rfl
      · exact Json.wellFormed_text number
  | string text => exact plain
  | array items => exact plain.elim
  | object properties => exact plain.elim
  | other => exact plain.elim

theorem wellFormed_guardFormula (wellFormed : text.WellFormed) : (guardFormula text).WellFormed := by
  rw [guardFormula]
  split_ifs
  · exact wellFormed_cons (by decide) wellFormed
  · exact wellFormed

theorem dangerous_guardFormula (text : JsString) : dangerous (guardFormula text) = false := by
  rw [guardFormula]
  split_ifs with danger
  · rfl
  · simpa using danger

theorem wellFormed_doubleQuotes (wellFormed : text.WellFormed) : (doubleQuotes text).WellFormed := by
  apply Buffer.wellFormed_flatMap wellFormed
  · intro unit surrogate
    rw [if_neg]
    rintro rfl
    exact absurd surrogate (by decide)
  · intro unit scalar
    split_ifs
    · exact wellFormed_cons scalar (wellFormed_cons scalar rfl)
    · exact wellFormed_cons scalar rfl

theorem wellFormed_csvCell (plain : IsPlainValue value) : (csvCell print value).WellFormed := by
  have guarded := wellFormed_guardFormula (@wellFormed_cellText print _ plain)
  rw [csvCell]
  split_ifs
  · exact (wellFormed_cons (by decide) (wellFormed_doubleQuotes guarded)).append (by decide)
  · exact guarded

theorem field_csvCell (print : JsValue → JsString) (value : JsValue) :
    Field csvMarks (guardFormula (cellText print value)) (csvCell print value) := by
  rw [csvCell]
  split_ifs with marked
  · exact Field.quoted
  · apply Field.bare
    intro unit unitMem
    simp only [List.any_eq_true, not_exists, not_and] at marked
    have unmarked := marked unit unitMem
    simp only [isMark, List.mem_cons, List.not_mem_nil, or_false, decide_eq_true_eq, not_or] at unmarked
    exact unmarked

end Cells

section Tables

variable {print : JsValue → JsString} {columns : List JsString} {rows : List (List JsValue)}
  {row : List JsValue}

theorem wellFormed_intercalate {separator : JsString} (wellFormed : separator.WellFormed)
    {texts : List JsString} (all : ∀ text ∈ texts, text.WellFormed) :
    WellFormed (separator.intercalate texts) := by
  induction texts with
  | nil => rfl
  | cons text texts ih =>
      rw [List.forall_mem_cons] at all
      rcases eq_or_ne texts [] with rfl | more
      · rw [List.intercalate_singleton]
        exact all.1
      · rw [List.intercalate_cons_of_ne_nil more]
        exact (all.1.append wellFormed).append (ih all.2)

theorem record_csvCell (print : JsValue → JsString) (present : row ≠ []) :
    Record csvMarks (row.map fun value => guardFormula (cellText print value))
      ((js ",").intercalate (row.map (csvCell print))) := by
  induction row with
  | nil => exact absurd rfl present
  | cons value row ih =>
      rcases eq_or_ne row [] with rfl | more
      · rw [List.map_singleton, List.map_singleton, List.intercalate_singleton]
        exact Record.last (field_csvCell print value)
      · rw [List.map_cons, List.map_cons, List.intercalate_cons_of_ne_nil (by simpa using more),
          List.append_assoc]
        exact Record.field (field_csvCell print value) (ih more)

theorem table_lines (print : JsValue → JsString) (present : rows ≠ [])
    (rowsPresent : ∀ row ∈ rows, row ≠ []) :
    Table csvMarks (rows.map fun row => row.map fun value => guardFormula (cellText print value))
      ((js "\r\n").intercalate (rows.map fun row =>
        (js ",").intercalate (row.map (csvCell print))) ++ js "\r\n") := by
  induction rows with
  | nil => exact absurd rfl present
  | cons row rows ih =>
      rw [List.forall_mem_cons] at rowsPresent
      rcases eq_or_ne rows [] with rfl | more
      · rw [List.map_singleton, List.map_singleton, List.intercalate_singleton]
        exact Table.record (record_csvCell print rowsPresent.1) Table.empty
      · rw [List.map_cons, List.map_cons, List.intercalate_cons_of_ne_nil (by simpa using more),
          List.append_assoc, List.append_assoc]
        exact Table.record (record_csvCell print rowsPresent.1) (ih more rowsPresent.2)

theorem wellFormed_csvLines (columnsWellFormed : ∀ column ∈ columns, column.WellFormed)
    (rowsPlain : ∀ row ∈ rows, ∀ value ∈ row, IsPlainValue value) :
    (csvLines print columns rows).WellFormed := by
  have cells : ∀ row ∈ columns.map JsValue.string :: rows, ∀ value ∈ row, IsPlainValue value := by
    rw [List.forall_mem_cons]
    refine ⟨?_, rowsPlain⟩
    rw [List.forall_mem_map]
    exact columnsWellFormed
  apply wellFormed_intercalate (by decide)
  rw [List.forall_mem_map]
  intro row rowMem
  apply wellFormed_intercalate (by decide)
  rw [List.forall_mem_map]
  exact fun value valueMem => wellFormed_csvCell (cells row rowMem value valueMem)

/-- The table a spreadsheet reads has the header and the rows with every cell in its place. A
cell is its text, with an apostrophe before a text that would begin a formula. -/
theorem readCsv_writeCsv (print : JsValue → JsString) (columns : List JsString)
    (rows : List (List JsValue)) (hasColumns : columns ≠ []) (rowsPresent : ∀ row ∈ rows, row ≠ [])
    (columnsWellFormed : ∀ column ∈ columns, column.WellFormed)
    (rowsPlain : ∀ row ∈ rows, ∀ value ∈ row, IsPlainValue value) :
    ∃ table, readCsv (writeCsv print columns rows) = some table ∧
      table = columns.map guardFormula ::
        rows.map (fun row => row.map fun value => guardFormula (cellText print value)) ∧
      (∀ record ∈ table, ∀ cell ∈ record, dangerous cell = false) ∧
      table.map List.length = columns.length :: rows.map List.length := by
  refine ⟨_, ?_, rfl, ?_, ?_⟩
  · have wellFormed : WellFormed (0xFEFF :: csvLines print columns rows ++ js "\r\n") :=
      (wellFormed_cons (by decide) (wellFormed_csvLines columnsWellFormed rowsPlain)).append
        (by decide)
    have written := @table_lines (columns.map JsValue.string :: rows) print (by simp)
      (by simpa [hasColumns] using rowsPresent)
    rw [readCsv, writeCsv, Buffer.toText_ofText wellFormed]
    refine (parse_eq_of_table written).trans ?_
    simp only [List.map_cons, List.map_map]
    rfl
  · simp only [List.forall_mem_cons, List.forall_mem_map]
    exact ⟨fun column _ => dangerous_guardFormula column,
      fun row _ value _ => dangerous_guardFormula _⟩
  · simp

theorem readCsv_writeCsv_formula :
    ∃ table, readCsv (writeCsv (fun _ => []) [js "name"] [[.string (js "=1,\"x\"")], [.null]]) =
        some table ∧
      table = [[js "name"], [js "'=1,\"x\""], [[]]] ∧
      (∀ record ∈ table, ∀ cell ∈ record, dangerous cell = false) ∧
      table.map List.length = [1, 1, 1] :=
  readCsv_writeCsv (fun _ => []) [js "name"] [[.string (js "=1,\"x\"")], [.null]] (by simp)
    (by simp) (List.forall_mem_singleton.mpr (by decide))
    (by
      simp only [List.forall_mem_cons, List.not_mem_nil, false_imp_iff, implies_true, and_true]
      refine ⟨?_, trivial⟩
      show WellFormed _
      decide)

end Tables

end StudentHub.Exports
