import StudentHub.Concurrency.Process
import StudentHub.Ecma.OrderedMap

/-!
# Transactions under READ COMMITTED

Sessions run processes of SQL statements against one table and one append-only log.
A statement sees the committed rows with the writes of its own transaction on top.
Row locks and advisory locks are held to the end of the transaction: writing a row,
or reading it for update, takes its lock, and a statement that needs a lock of
another session waits. A transaction may fail at any moment, and only a commit
changes what the others see.
-/

namespace Concurrency

open Ecma

/-- The types of a table with its log, its advisory lock keys and the operations that a
program performs without the database. -/
structure Schema where
  Id : Type
  Row : Type
  Entry : Type
  Key : Type
  Local : Type
  LocalAnswer : Local → Type

inductive Statement (schema : Schema)
  | advisoryLock (key : schema.Key)
  | select (query : List (schema.Id × schema.Row) → List (schema.Id × schema.Row))
  | selectForUpdate (id : schema.Id)
  | insert (id : schema.Id) (row : schema.Row)
  | update (id : schema.Id) (applies : schema.Row → Bool) (change : schema.Row → schema.Row)
  | append (entry : schema.Entry)
  | own (op : schema.Local)

@[reducible]
def Statement.Answer {schema : Schema} : Statement schema → Type
  | advisoryLock _ | insert .. | append _ => Unit
  | select _ => List (schema.Id × schema.Row)
  | selectForUpdate _ => Option schema.Row
  | update .. => Bool
  | own op => schema.LocalAnswer op

structure Session (schema : Schema) (Error Value : Type) where
  process : Process (@Statement.Answer schema) Error Value
  writes : OrderedMap schema.Id schema.Row
  entries : List schema.Entry
  rowLocks : List schema.Id
  advisoryLocks : List schema.Key

structure Database (schema : Schema) (Error Value : Type) where
  table : OrderedMap schema.Id schema.Row
  log : List schema.Entry
  sessions : OrderedMap ℕ (Session schema Error Value)

variable {schema : Schema} [DecidableEq schema.Id] [DecidableEq schema.Key] {Error Value : Type}

def Session.start (process : Process (@Statement.Answer schema) Error Value) :
    Session schema Error Value :=
  ⟨process, .empty, [], [], []⟩

def Session.sees (session : Session schema Error Value)
    (table : OrderedMap schema.Id schema.Row) : OrderedMap schema.Id schema.Row :=
  table.overlay session.writes

/-- What may happen next; `step` runs the next statement of a session or ends it. -/
inductive Event (schema : Schema) (Error Value : Type)
  | start (session : ℕ) (process : Process (@Statement.Answer schema) Error Value)
  | step (session : ℕ) (answers : (op : schema.Local) → schema.LocalAnswer op)
  | fail (session : ℕ)

namespace Database

def rowFree (database : Database schema Error Value) (session : ℕ) (id : schema.Id) : Bool :=
  database.sessions.entries.all fun entry => entry.1 = session || id ∉ entry.2.rowLocks

def keyFree (database : Database schema Error Value) (session : ℕ) (key : schema.Key) : Bool :=
  database.sessions.entries.all fun entry => entry.1 = session || key ∉ entry.2.advisoryLocks

/-- Run the next statement of a session. The session is returned as it is when the statement
has to wait, and there is none when the statement fails. -/
def execute (database : Database schema Error Value) (number : ℕ)
    (answers : (op : schema.Local) → schema.LocalAnswer op) (session : Session schema Error Value)
    (statement : Statement schema)
    (next : statement.Answer → Process (@Statement.Answer schema) Error Value) :
    Option (Session schema Error Value) :=
  let seen := session.sees database.table
  match statement, next with
  | .advisoryLock key, next =>
      if database.keyFree number key then
        some { session with process := next (), advisoryLocks := key :: session.advisoryLocks }
      else
        some session
  | .select query, next => some { session with process := next (query seen.entries) }
  | .selectForUpdate id, next =>
      match seen.get? id with
      | none => some { session with process := next none }
      | some row =>
          if database.rowFree number id then
            some { session with process := next (some row), rowLocks := id :: session.rowLocks }
          else
            some session
  | .insert id row, next =>
      if !database.rowFree number id then
        some session
      else if seen.has id then
        none
      else
        some { session with
          process := next ()
          writes := session.writes.set id row
          rowLocks := id :: session.rowLocks }
  | .update id applies change, next =>
      match (seen.get? id).filter applies with
      | none => some { session with process := next false }
      | some old =>
          if database.rowFree number id then
            some { session with
              process := next true
              writes := session.writes.set id (change old)
              rowLocks := id :: session.rowLocks }
          else
            some session
  | .append entry, next =>
      some { session with process := next (), entries := session.entries ++ [entry] }
  | .own op, next => some { session with process := next (answers op) }

def commit (database : Database schema Error Value) (number : ℕ)
    (session : Session schema Error Value) : Database schema Error Value where
  table := session.sees database.table
  log := database.log ++ session.entries
  sessions := database.sessions.delete number

def rollback (database : Database schema Error Value) (number : ℕ) :
    Database schema Error Value :=
  { database with sessions := database.sessions.delete number }

def next (database : Database schema Error Value) : Event schema Error Value →
    Database schema Error Value
  | .start number process =>
      if database.sessions.has number then
        database
      else
        { database with sessions := database.sessions.set number (.start process) }
  | .step number answers =>
      match database.sessions.get? number with
      | none => database
      | some session =>
          match session.process with
          | .returned _ => database.commit number session
          | .thrown _ => database.rollback number
          | .perform statement next =>
              match database.execute number answers session statement next with
              | some after => { database with sessions := database.sessions.set number after }
              | none => database.rollback number
  | .fail number => database.rollback number

def run (database : Database schema Error Value) (events : List (Event schema Error Value)) :
    Database schema Error Value :=
  events.foldl next database

end Database

structure Database.Exclusive (database : Database schema Error Value) : Prop where
  rowLocks : ∀ number session number' session' id,
    database.sessions.get? number = some session → database.sessions.get? number' = some session' →
    id ∈ session.rowLocks → id ∈ session'.rowLocks → number = number'
  advisoryLocks : ∀ number session number' session' key,
    database.sessions.get? number = some session → database.sessions.get? number' = some session' →
    key ∈ session.advisoryLocks → key ∈ session'.advisoryLocks → number = number'

section Exclusive

variable {database : Database schema Error Value} {number : ℕ}
  {session after : Session schema Error Value}

theorem Database.execute_locks {statement : Statement schema}
    {next : statement.Answer → Process (@Statement.Answer schema) Error Value}
    {answers : (op : schema.Local) → schema.LocalAnswer op}
    (executed : database.execute number answers session statement next = some after) :
    (∀ id ∈ after.rowLocks, id ∈ session.rowLocks ∨ database.rowFree number id = true) ∧
      ∀ key ∈ after.advisoryLocks,
        key ∈ session.advisoryLocks ∨ database.keyFree number key = true := by
  have taken : ∀ {Lock : Type} {free : Lock → Prop} {lock : Lock} {locks : List Lock}, free lock →
      ∀ other ∈ lock :: locks, other ∈ locks ∨ free other := by
    intro Lock free lock locks isFree other isOther
    rcases List.mem_cons.mp isOther with rfl | already
    · exact .inr isFree
    · exact .inl already
  cases statement with
  | advisoryLock key =>
      simp only [execute] at executed
      split_ifs at executed with free
      all_goals cases Option.some.inj executed
      · exact ⟨fun _ => .inl, taken free⟩
      · exact ⟨fun _ => .inl, fun _ => .inl⟩
  | select query =>
      cases Option.some.inj executed
      exact ⟨fun _ => .inl, fun _ => .inl⟩
  | selectForUpdate id =>
      simp only [execute] at executed
      split at executed
      · cases Option.some.inj executed
        exact ⟨fun _ => .inl, fun _ => .inl⟩
      · split_ifs at executed with free
        all_goals cases Option.some.inj executed
        · exact ⟨taken free, fun _ => .inl⟩
        · exact ⟨fun _ => .inl, fun _ => .inl⟩
  | insert id row =>
      simp only [execute] at executed
      split_ifs at executed with held present
      all_goals cases Option.some.inj executed
      · exact ⟨fun _ => .inl, fun _ => .inl⟩
      · exact ⟨taken (by simpa using held), fun _ => .inl⟩
  | update id applies change =>
      simp only [execute] at executed
      split at executed
      · cases Option.some.inj executed
        exact ⟨fun _ => .inl, fun _ => .inl⟩
      · split_ifs at executed with free
        all_goals cases Option.some.inj executed
        · exact ⟨taken free, fun _ => .inl⟩
        · exact ⟨fun _ => .inl, fun _ => .inl⟩
  | append entry =>
      cases Option.some.inj executed
      exact ⟨fun _ => .inl, fun _ => .inl⟩
  | own op =>
      cases Option.some.inj executed
      exact ⟨fun _ => .inl, fun _ => .inl⟩

namespace Database

omit [DecidableEq schema.Key] in
theorem not_mem_of_rowFree {id : schema.Id} (free : database.rowFree number id = true)
    {other : ℕ} {holder : Session schema Error Value}
    (isOpen : database.sessions.get? other = some holder) (distinct : other ≠ number) :
    id ∉ holder.rowLocks := by
  have checked := List.all_eq_true.mp free (other, holder) (OrderedMap.mem_entries_iff.mpr isOpen)
  simpa [distinct] using checked

omit [DecidableEq schema.Id] in
theorem not_mem_of_keyFree {key : schema.Key}
    (free : database.keyFree number key = true) {other : ℕ} {holder : Session schema Error Value}
    (isOpen : database.sessions.get? other = some holder) (distinct : other ≠ number) :
    key ∉ holder.advisoryLocks := by
  have checked := List.all_eq_true.mp free (other, holder) (OrderedMap.mem_entries_iff.mpr isOpen)
  simpa [distinct] using checked

omit [DecidableEq schema.Id] [DecidableEq schema.Key] in
theorem Exclusive.delete (exclusive : database.Exclusive) (number : ℕ) :
    (database.rollback number).Exclusive where
  rowLocks := by
    intro first firstHolder second secondHolder id firstFound secondFound
    simp only [rollback, OrderedMap.get?_delete] at firstFound secondFound
    split_ifs at firstFound
    split_ifs at secondFound
    exact exclusive.rowLocks first firstHolder second secondHolder id firstFound secondFound
  advisoryLocks := by
    intro first firstHolder second secondHolder key firstFound secondFound
    simp only [rollback, OrderedMap.get?_delete] at firstFound secondFound
    split_ifs at firstFound
    split_ifs at secondFound
    exact exclusive.advisoryLocks first firstHolder second secondHolder key firstFound secondFound

omit [DecidableEq schema.Id] [DecidableEq schema.Key] in
theorem Exclusive.set (exclusive : database.Exclusive)
    (rows : ∀ id ∈ session.rowLocks, ∀ other holder, other ≠ number →
      database.sessions.get? other = some holder → id ∉ holder.rowLocks)
    (keys : ∀ key ∈ session.advisoryLocks, ∀ other holder, other ≠ number →
      database.sessions.get? other = some holder → key ∉ holder.advisoryLocks) :
    Exclusive { database with sessions := database.sessions.set number session } where
  rowLocks := by
    intro first firstHolder second secondHolder id firstFound secondFound firstHolds secondHolds
    simp only [OrderedMap.get?_set] at firstFound secondFound
    split_ifs at firstFound with isFirst <;> split_ifs at secondFound with isSecond
    · exact isFirst.trans isSecond.symm
    · cases Option.some.inj firstFound
      exact absurd secondHolds (rows id firstHolds second secondHolder isSecond secondFound)
    · cases Option.some.inj secondFound
      exact absurd firstHolds (rows id secondHolds first firstHolder isFirst firstFound)
    · exact exclusive.rowLocks first firstHolder second secondHolder id firstFound secondFound
        firstHolds secondHolds
  advisoryLocks := by
    intro first firstHolder second secondHolder key firstFound secondFound firstHolds secondHolds
    simp only [OrderedMap.get?_set] at firstFound secondFound
    split_ifs at firstFound with isFirst <;> split_ifs at secondFound with isSecond
    · exact isFirst.trans isSecond.symm
    · cases Option.some.inj firstFound
      exact absurd secondHolds (keys key firstHolds second secondHolder isSecond secondFound)
    · cases Option.some.inj secondFound
      exact absurd firstHolds (keys key secondHolds first firstHolder isFirst firstFound)
    · exact exclusive.advisoryLocks first firstHolder second secondHolder key firstFound secondFound
        firstHolds secondHolds

theorem Exclusive.advance (exclusive : database.Exclusive)
    (found : database.sessions.get? number = some session)
    (rows : ∀ id ∈ after.rowLocks, id ∈ session.rowLocks ∨ database.rowFree number id = true)
    (keys : ∀ key ∈ after.advisoryLocks,
      key ∈ session.advisoryLocks ∨ database.keyFree number key = true) :
    Exclusive { database with sessions := database.sessions.set number after } := by
  apply exclusive.set
  · intro id holds other holder distinct isOther alsoHolds
    rcases rows id holds with already | free
    · exact distinct (exclusive.rowLocks other holder number session id isOther found alsoHolds already)
    · exact not_mem_of_rowFree free isOther distinct alsoHolds
  · intro key holds other holder distinct isOther alsoHolds
    rcases keys key holds with already | free
    · exact distinct
        (exclusive.advisoryLocks other holder number session key isOther found alsoHolds already)
    · exact not_mem_of_keyFree free isOther distinct alsoHolds

end Database

end Exclusive

end Concurrency
