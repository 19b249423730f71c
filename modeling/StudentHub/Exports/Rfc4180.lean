import Mathlib.Data.List.Basic

/-!
# Comma-separated values

A table is written record by record, each ended by a line break, with a comma between the
fields of a record. A field stands as it is, or between quotes with every quote in it
doubled. The reader takes one symbol at a time. A line break at the end of the text ends
the last record and starts none.
-/

namespace Rfc4180

universe u

structure Marks (Symbol : Type u) where
  quote : Symbol
  comma : Symbol
  carriageReturn : Symbol
  lineFeed : Symbol
  distinct : [quote, comma, carriageReturn, lineFeed].Nodup

inductive Place
  | start
  | bare
  | quoted
  | closed
  | returned
  deriving DecidableEq

structure Reader (Symbol : Type u) where
  place : Place
  field : List Symbol
  record : List (List Symbol)
  table : List (List (List Symbol))

namespace Reader

variable {Symbol : Type u}

def atStart (table : List (List (List Symbol))) : Reader Symbol := ⟨.start, [], [], table⟩

def endField (reader : Reader Symbol) : Reader Symbol :=
  ⟨.start, [], reader.record ++ [reader.field], reader.table⟩

def endRecord (reader : Reader Symbol) : Reader Symbol :=
  atStart (reader.table ++ [reader.record ++ [reader.field]])

variable [DecidableEq Symbol] (marks : Marks Symbol)

def ending (reader : Reader Symbol) (symbol : Symbol) : Option (Reader Symbol) :=
  if symbol = marks.comma then
    some reader.endField
  else if symbol = marks.carriageReturn then
    some { reader with place := .returned }
  else
    none

def outside (reader : Reader Symbol) (symbol : Symbol) : Option (Reader Symbol) :=
  if symbol = marks.comma ∨ symbol = marks.carriageReturn then
    reader.ending marks symbol
  else if symbol = marks.quote ∨ symbol = marks.lineFeed then
    none
  else
    some { reader with place := .bare, field := reader.field ++ [symbol] }

def step (reader : Reader Symbol) (symbol : Symbol) : Option (Reader Symbol) :=
  match reader.place with
  | .start =>
      if symbol = marks.quote then
        some { reader with place := .quoted }
      else
        reader.outside marks symbol
  | .bare => reader.outside marks symbol
  | .quoted =>
      if symbol = marks.quote then
        some { reader with place := .closed }
      else
        some { reader with field := reader.field ++ [symbol] }
  | .closed =>
      if symbol = marks.quote then
        some { reader with place := .quoted, field := reader.field ++ [symbol] }
      else
        reader.ending marks symbol
  | .returned => if symbol = marks.lineFeed then some reader.endRecord else none

def finish (reader : Reader Symbol) : Option (List (List (List Symbol))) :=
  match reader.place with
  | .start => some (if reader.record = [] then reader.table else reader.endRecord.table)
  | .bare => some reader.endRecord.table
  | .quoted => none
  | .closed => some reader.endRecord.table
  | .returned => none

end Reader

section Parse

variable {Symbol : Type u} [DecidableEq Symbol] (marks : Marks Symbol)

def parse (text : List Symbol) : Option (List (List (List Symbol))) :=
  (text.foldlM (Reader.step marks) (.atStart [])).bind Reader.finish

def IsPlain (symbol : Symbol) : Prop :=
  symbol ≠ marks.quote ∧ symbol ≠ marks.comma ∧ symbol ≠ marks.carriageReturn ∧
    symbol ≠ marks.lineFeed

instance (symbol : Symbol) : Decidable (IsPlain marks symbol) := inferInstanceAs (Decidable (_ ∧ _))

def doubled (content : List Symbol) : List Symbol :=
  content.flatMap fun symbol => if symbol = marks.quote then [symbol, symbol] else [symbol]

inductive Field (content : List Symbol) : List Symbol → Prop
  | bare (plain : ∀ symbol ∈ content, IsPlain marks symbol) : Field content content
  | quoted : Field content (marks.quote :: doubled marks content ++ [marks.quote])

inductive Record : List (List Symbol) → List Symbol → Prop
  | last {content text : List Symbol} (written : Field marks content text) : Record [content] text
  | field {content text more : List Symbol} {record : List (List Symbol)}
      (written : Field marks content text) (others : Record record more) :
      Record (content :: record) (text ++ marks.comma :: more)

inductive Table : List (List (List Symbol)) → List Symbol → Prop
  | empty : Table [] []
  | record {contents : List (List Symbol)} {text more : List Symbol}
      {table : List (List (List Symbol))} (written : Record marks contents text)
      (others : Table table more) :
      Table (contents :: table) (text ++ marks.carriageReturn :: marks.lineFeed :: more)

end Parse

section Reading

variable {Symbol : Type u} [DecidableEq Symbol] {marks : Marks Symbol}
  {content text more : List Symbol} {field : List Symbol} {record contents : List (List Symbol)}
  {table before : List (List (List Symbol))}

open Reader

theorem read_plain (plain : ∀ symbol ∈ content, IsPlain marks symbol) (field : List Symbol)
    (record : List (List Symbol)) (table : List (List (List Symbol))) :
    content.foldlM (step marks) ⟨.bare, field, record, table⟩ =
      some ⟨.bare, field ++ content, record, table⟩ := by
  induction content generalizing field with
  | nil => simp
  | cons symbol content ih =>
      rw [List.forall_mem_cons] at plain
      rcases plain with ⟨⟨notQuote, notComma, notReturn, notFeed⟩, others⟩
      rw [List.foldlM_cons]
      simp only [step, outside, notQuote, notComma, notReturn, notFeed, or_self, if_false,
        Option.bind_eq_bind, Option.bind_some]
      rw [ih others, List.append_assoc, List.singleton_append]

theorem read_bare (plain : ∀ symbol ∈ content, IsPlain marks symbol) (present : content ≠ [])
    (record : List (List Symbol)) (table : List (List (List Symbol))) :
    content.foldlM (step marks) ⟨.start, [], record, table⟩ =
      some ⟨.bare, content, record, table⟩ := by
  rw [← List.nil_append content, ← read_plain plain [] record table]
  cases content with
  | nil => exact absurd rfl present
  | cons symbol content =>
      rcases plain symbol List.mem_cons_self with ⟨notQuote, notComma, notReturn, notFeed⟩
      simp only [List.nil_append, List.foldlM_cons, step, outside, notQuote, notComma, notReturn,
        notFeed, or_self, if_false]

theorem read_doubled (content field : List Symbol) (record : List (List Symbol))
    (table : List (List (List Symbol))) :
    (doubled marks content).foldlM (step marks) ⟨.quoted, field, record, table⟩ =
      some ⟨.quoted, field ++ content, record, table⟩ := by
  induction content generalizing field with
  | nil => simp [doubled]
  | cons symbol content ih =>
      rw [doubled, List.flatMap_cons, List.foldlM_append]
      have first : (if symbol = marks.quote then [symbol, symbol] else [symbol]).foldlM (step marks)
          ⟨.quoted, field, record, table⟩ = some ⟨.quoted, field ++ [symbol], record, table⟩ := by
        split_ifs with isQuote
        · simp [step, isQuote]
        · simp [step, isQuote]
      rw [first]
      simp only [Option.bind_eq_bind, Option.bind_some]
      exact (ih _).trans (by rw [List.append_assoc, List.singleton_append])

def Reader.Done (reader : Reader Symbol) (field : List Symbol) (record : List (List Symbol))
    (table : List (List (List Symbol))) : Prop :=
  (reader.place = .start ∨ reader.place = .bare ∨ reader.place = .closed) ∧
    reader.field = field ∧ reader.record = record ∧ reader.table = table

theorem read_field (written : Field marks content text) (record : List (List Symbol))
    (table : List (List (List Symbol))) :
    ∃ reader, text.foldlM (step marks) ⟨.start, [], record, table⟩ = some reader ∧
      reader.Done content record table := by
  cases written with
  | bare plain =>
      rcases eq_or_ne content [] with rfl | present
      · exact ⟨_, rfl, Or.inl rfl, rfl, rfl, rfl⟩
      · exact ⟨_, read_bare plain present record table, Or.inr (Or.inl rfl), rfl, rfl, rfl⟩
  | quoted =>
      refine ⟨⟨.closed, content, record, table⟩, ?_, Or.inr (Or.inr rfl), rfl, rfl, rfl⟩
      rw [List.cons_append, List.foldlM_cons]
      simp only [step, if_true, Option.bind_eq_bind, Option.bind_some]
      rw [List.foldlM_append, read_doubled]
      simp [step]

namespace Reader.Done

variable {reader : Reader Symbol}

theorem step_comma (done : reader.Done field record table) :
    reader.step marks marks.comma = some ⟨.start, [], record ++ [field], table⟩ := by
  rcases done with ⟨place, rfl, rfl, rfl⟩
  have notQuote : marks.comma ≠ marks.quote := by
    have distinct := marks.distinct
    simp only [List.nodup_cons, List.mem_cons, not_or] at distinct
    exact fun same => distinct.1.1 same.symm
  rcases place with place | place | place <;>
    simp [step, place, notQuote, outside, ending, endField]

theorem step_lineBreak (done : reader.Done field record table) (more : List Symbol) :
    (marks.carriageReturn :: marks.lineFeed :: more).foldlM (step marks) reader =
      more.foldlM (step marks) (atStart (table ++ [record ++ [field]])) := by
  rcases done with ⟨place, rfl, rfl, rfl⟩
  have distinct := marks.distinct
  simp only [List.nodup_cons, List.mem_cons, not_or, List.not_mem_nil, not_false_eq_true,
    and_true] at distinct
  have notQuote : marks.carriageReturn ≠ marks.quote := fun same => distinct.1.2.1 same.symm
  have notComma : marks.carriageReturn ≠ marks.comma := fun same => distinct.2.1.1 same.symm
  rcases place with place | place | place <;>
    simp [step, place, notQuote, notComma, outside, ending, endRecord, atStart]

end Reader.Done

theorem read_record (written : Record marks contents text) (record : List (List Symbol))
    (table : List (List (List Symbol))) (more : List Symbol) :
    (text ++ marks.carriageReturn :: marks.lineFeed :: more).foldlM (step marks)
        ⟨.start, [], record, table⟩ =
      more.foldlM (step marks) (atStart (table ++ [record ++ contents])) := by
  induction written generalizing record with
  | last written =>
      rcases read_field written record table with ⟨reader, read, done⟩
      rw [List.foldlM_append, read]
      exact done.step_lineBreak more
  | @field content text others contents written _ ih =>
      rcases read_field written record table with ⟨reader, read, done⟩
      rw [List.append_assoc, List.foldlM_append, read]
      simp only [Option.bind_eq_bind, Option.bind_some, List.cons_append, List.foldlM_cons]
      rw [done.step_comma]
      simp only [Option.bind_some]
      rw [ih, List.append_assoc, List.singleton_append]

theorem read_table (written : Table marks table text) (before : List (List (List Symbol))) :
    text.foldlM (step marks) (atStart before) = some (atStart (before ++ table)) := by
  induction written generalizing before with
  | empty => simp
  | record written _ ih =>
      rw [atStart, read_record written, ih, List.nil_append, List.append_assoc,
        List.singleton_append]

theorem parse_eq_of_table (written : Table marks table text) : parse marks text = some table := by
  rw [parse, read_table written]
  simp [finish, atStart]

end Reading

end Rfc4180
