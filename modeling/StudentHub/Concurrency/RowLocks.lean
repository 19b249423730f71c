import StudentHub.Concurrency.Process
import StudentHub.Ecma.OrderedMap

/-!
# Row locks of several strengths

Transactions under READ COMMITTED on any number of tables, with locks that rows are held in
by mode. A statement says which rows it locks, and how, in what it sees; it waits while
another transaction holds one of them in a mode that conflicts, and then reads and changes
what is committed by then with the changes of its own transaction on top. Locks are held to
the end.

What a transaction may count on while it waits is a rely condition that its locks justify.
If every program keeps the tables good, and others from having their rely condition broken by
its commit, then the tables are good in every state that any interleaving commits.
-/

namespace Concurrency

open Ecma

/-- The tables with the changes that statements make, the rows that can be locked and the
modes of their locks. -/
structure LockSchema where
  Tables : Type
  Change : Type
  change : Change → Tables → Tables
  Row : Type
  Mode : Type
  conflicts : Mode → Mode → Bool
  Local : Type
  LocalAnswer : Local → Type

variable {schema : LockSchema} {Error Value : Type}

abbrev LockSchema.Locks (schema : LockSchema) := List (schema.Row × schema.Mode)

/-- A statement: the rows it locks, or that it fails, and the changes it makes. Other steps ask
something from outside. -/
inductive Access (schema : LockSchema)
  | access (demand : schema.Tables → Option schema.Locks)
      (changes : schema.Tables → List schema.Change)
  | own (op : schema.Local)

@[reducible]
def Access.Answer : Access schema → Type
  | access .. => schema.Tables
  | own op => schema.LocalAnswer op

abbrev LockProgram (schema : LockSchema) (Error Value : Type) :=
  Process (@Access.Answer schema) Error Value

structure LockTransaction (schema : LockSchema) (Error Value : Type) where
  program : LockProgram schema Error Value
  changes : List schema.Change
  locks : schema.Locks

def LockSchema.over (schema : LockSchema) (changes : List schema.Change) (tables : schema.Tables) :
    schema.Tables :=
  changes.foldl (fun tables change => schema.change change tables) tables

structure LockDatabase (schema : LockSchema) (Error Value : Type) where
  tables : schema.Tables
  transactions : OrderedMap ℕ (LockTransaction schema Error Value)

inductive LockEvent (schema : LockSchema) (Error Value : Type)
  | start (number : ℕ) (program : LockProgram schema Error Value)
  | step (number : ℕ) (answers : (op : schema.Local) → schema.LocalAnswer op)
  | fail (number : ℕ)

/-- No lock of one list conflicts with one of the other on the same row. -/
def Compatible (left right : schema.Locks) : Prop :=
  ∀ row mode mode', (row, mode) ∈ left → (row, mode') ∈ right →
    schema.conflicts mode mode' = false

namespace LockDatabase

variable [DecidableEq schema.Row]

def compatible (left right : schema.Locks) : Bool :=
  left.all fun lock => right.all fun lock' =>
    lock.1 ≠ lock'.1 || !schema.conflicts lock.2 lock'.2

def grants (database : LockDatabase schema Error Value) (number : ℕ) (locks : schema.Locks) : Bool :=
  database.transactions.entries.all fun entry =>
    entry.1 = number || compatible entry.2.locks locks

def sees (database : LockDatabase schema Error Value)
    (transaction : LockTransaction schema Error Value) : schema.Tables :=
  schema.over transaction.changes database.tables

/-- The transaction after its next step, the same if it waits, or none if the step fails. -/
def execute (database : LockDatabase schema Error Value) (number : ℕ)
    (answers : (op : schema.Local) → schema.LocalAnswer op)
    (transaction : LockTransaction schema Error Value) (access : Access schema)
    (next : access.Answer → LockProgram schema Error Value) :
    Option (LockTransaction schema Error Value) :=
  let seen := database.sees transaction
  match access, next with
  | .access demand changes, next =>
      match demand seen with
      | none => none
      | some locks =>
          if database.grants number locks then
            some ⟨next seen, transaction.changes ++ changes seen, locks ++ transaction.locks⟩
          else
            some transaction
  | .own op, next => some { transaction with program := next (answers op) }

def next (database : LockDatabase schema Error Value) :
    LockEvent schema Error Value → LockDatabase schema Error Value
  | .start number program =>
      if database.transactions.has number then
        database
      else
        { database with transactions := database.transactions.set number ⟨program, [], []⟩ }
  | .step number answers =>
      match database.transactions.get? number with
      | none => database
      | some transaction =>
          match transaction.program with
          | .returned _ =>
              ⟨database.sees transaction, database.transactions.delete number⟩
          | .thrown _ => { database with transactions := database.transactions.delete number }
          | .perform access rest =>
              match database.execute number answers transaction access rest with
              | some after =>
                  { database with transactions := database.transactions.set number after }
              | none => { database with transactions := database.transactions.delete number }
  | .fail number => { database with transactions := database.transactions.delete number }

def run (database : LockDatabase schema Error Value) (events : List (LockEvent schema Error Value)) :
    LockDatabase schema Error Value :=
  events.foldl next database

def writes (database : LockDatabase schema Error Value) :
    LockEvent schema Error Value → List (schema.Change × schema.Tables)
  | .step number _ =>
      match database.transactions.get? number with
      | none => []
      | some transaction =>
          let seen := database.sees transaction
          match transaction.program with
          | .perform (.access demand changes) _ =>
              match demand seen with
              | some locks =>
                  if database.grants number locks then (changes seen).map (·, seen) else []
              | none => []
          | _ => []
  | _ => []

/-- The event makes only changes that are permitted in what its transaction sees. -/
def Permitted (permits : schema.Change → schema.Tables → Prop)
    (database : LockDatabase schema Error Value) (event : LockEvent schema Error Value) : Prop :=
  ∀ write ∈ database.writes event, permits write.1 write.2

instance (permits : schema.Change → schema.Tables → Prop)
    [(change : schema.Change) → (tables : schema.Tables) → Decidable (permits change tables)]
    (database : LockDatabase schema Error Value) (event : LockEvent schema Error Value) :
    Decidable (database.Permitted permits event) :=
  inferInstanceAs (Decidable (∀ write ∈ database.writes event, permits write.1 write.2))

theorem permits_of_permitted {permits : schema.Change → schema.Tables → Prop}
    {database : LockDatabase schema Error Value} {number : ℕ}
    {answers : (op : schema.Local) → schema.LocalAnswer op}
    {transaction : LockTransaction schema Error Value}
    {demand : schema.Tables → Option schema.Locks} {changes : schema.Tables → List schema.Change}
    {rest : schema.Tables → LockProgram schema Error Value} {locks : schema.Locks}
    (permitted : database.Permitted permits (.step number answers))
    (found : database.transactions.get? number = some transaction)
    (performs : transaction.program = .perform (.access demand changes) rest)
    (demanded : demand (database.sees transaction) = some locks)
    (granted : database.grants number locks = true) :
    ∀ change ∈ changes (database.sees transaction), permits change (database.sees transaction) := by
  intro change changeMem
  apply permitted (change, database.sees transaction)
  simp only [writes, found, performs, demanded, granted, if_true]
  exact List.mem_map_of_mem changeMem

def PermittedRun (permits : schema.Change → schema.Tables → Prop) :
    LockDatabase schema Error Value → List (LockEvent schema Error Value) → Prop
  | _, [] => True
  | database, event :: events =>
      database.Permitted permits event ∧ PermittedRun permits (database.next event) events

instance decidablePermittedRun (permits : schema.Change → schema.Tables → Prop)
    [(change : schema.Change) → (tables : schema.Tables) → Decidable (permits change tables)] :
    (database : LockDatabase schema Error Value) → (events : List (LockEvent schema Error Value)) →
      Decidable (PermittedRun permits database events)
  | _, [] => .isTrue trivial
  | database, event :: events =>
      have := decidablePermittedRun permits (database.next event) events
      inferInstanceAs (Decidable (_ ∧ _))

end LockDatabase

/-- What is to hold of the committed tables, and what a transaction can count on of the changes
that others commit while it holds its locks. -/
structure RelyPolicy (schema : LockSchema) where
  Good : schema.Tables → Prop
  Rely : schema.Locks → schema.Tables → schema.Tables → Prop
  refl : ∀ locks tables, Rely locks tables tables
  trans : ∀ locks first second third, Rely locks first second → Rely locks second third →
    Rely locks first third

namespace RelyPolicy

variable (policy : RelyPolicy schema) (permits : schema.Change → schema.Tables → Prop)

/-- The changes can be committed: the tables stay good, and everybody whose locks are compatible
with those of the transaction can still count on what they counted on. -/
def Commits (locks : schema.Locks) (changes : List schema.Change) (tables : schema.Tables) : Prop :=
  policy.Good (schema.over changes tables) ∧
    ∀ others, Compatible others locks → policy.Rely others tables (schema.over changes tables)

/-- A program that keeps to the policy, from the locks it holds, the changes it has made and the
committed tables. -/
def Guarded : LockProgram schema Error Value → schema.Locks → List schema.Change →
    schema.Tables → Prop
  | .returned _, locks, changes, tables =>
      ∀ later, policy.Rely locks tables later → policy.Good later →
        policy.Commits locks changes later
  | .thrown _, _, _, _ => True
  | .perform (.access demand made) next, locks, changes, tables =>
      ∀ later, policy.Rely locks tables later → policy.Good later →
        ∀ wanted, demand (schema.over changes later) = some wanted →
          (∀ change ∈ made (schema.over changes later), permits change (schema.over changes later)) →
          Guarded (next (schema.over changes later)) (wanted ++ locks)
            (changes ++ made (schema.over changes later)) later
  | .perform (.own _) next, locks, changes, tables =>
      ∀ answer, Guarded (next answer) locks changes tables

def Safe (program : LockProgram schema Error Value) : Prop :=
  ∀ tables, policy.Good tables → policy.Guarded permits program [] [] tables

variable {policy permits}

theorem Guarded.of_rely {program : LockProgram schema Error Value} {locks : schema.Locks}
    {changes : List schema.Change} {tables later : schema.Tables}
    (guarded : policy.Guarded permits program locks changes tables)
    (rely : policy.Rely locks tables later) : policy.Guarded permits program locks changes later := by
  induction program with
  | returned value =>
      intro last lastRely good
      exact guarded last (policy.trans _ _ _ _ rely lastRely) good
  | thrown error => trivial
  | perform access next ih =>
      cases access with
      | access demand made =>
          intro last lastRely good
          exact guarded last (policy.trans _ _ _ _ rely lastRely) good
      | own op =>
          intro answer
          exact ih answer (guarded answer)

section Rules

variable {locks : schema.Locks} {changes : List schema.Change} {tables : schema.Tables}

theorem guarded_read {demand : schema.Tables → Option schema.Locks}
    {next : schema.Tables → LockProgram schema Error Value}
    (continues : ∀ later wanted, policy.Rely locks tables later → policy.Good later →
      demand (schema.over changes later) = some wanted →
      policy.Guarded permits (next (schema.over changes later)) (wanted ++ locks) changes later) :
    policy.Guarded permits (.perform (.access demand fun _ => []) next) locks changes tables := by
  intro later rely good wanted demanded _
  rw [List.append_nil]
  exact continues later wanted rely good demanded

theorem guarded_write {demand : schema.Tables → Option schema.Locks}
    {made : schema.Tables → List schema.Change}
    {next : schema.Tables → LockProgram schema Error Value}
    (continues : ∀ later wanted, policy.Rely locks tables later → policy.Good later →
      demand (schema.over changes later) = some wanted →
      (∀ change ∈ made (schema.over changes later), permits change (schema.over changes later)) →
      policy.Guarded permits (next (schema.over changes later)) (wanted ++ locks)
        (changes ++ made (schema.over changes later)) later) :
    policy.Guarded permits (.perform (.access demand made) next) locks changes tables :=
  fun later rely good wanted demanded permitted =>
    continues later wanted rely good demanded permitted

theorem guarded_own {op : schema.Local}
    {next : schema.LocalAnswer op → LockProgram schema Error Value}
    (continues : ∀ answer, policy.Guarded permits (next answer) locks changes tables) :
    policy.Guarded permits (.perform (.own op) next) locks changes tables :=
  continues

/-- A fact that a transaction keeps: neither more locks nor what others do makes it false. -/
structure Stable (policy : RelyPolicy schema) (fact : schema.Locks → schema.Tables → Prop) :
    Prop where
  grow : ∀ wanted locks tables, fact locks tables → fact (wanted ++ locks) tables
  rely : ∀ locks tables later, fact locks tables → policy.Rely locks tables later →
    fact locks later

theorem guarded_keep {fact : schema.Locks → schema.Tables → Prop} (stable : policy.Stable fact)
    (known : fact locks tables) {demand : schema.Tables → Option schema.Locks}
    {next : schema.Tables → LockProgram schema Error Value}
    (continues : ∀ later wanted, policy.Good later →
      demand (schema.over changes later) = some wanted → fact (wanted ++ locks) later →
      policy.Guarded permits (next (schema.over changes later)) (wanted ++ locks) changes later) :
    policy.Guarded permits (.perform (.access demand fun _ => []) next) locks changes tables :=
  guarded_read fun later wanted rely good demanded =>
    continues later wanted good demanded
      (stable.grow wanted locks later (stable.rely locks tables later known rely))

theorem guarded_returned {value : Value}
    (commits : ∀ later, policy.Rely locks tables later → policy.Good later →
      policy.Commits locks changes later) :
    policy.Guarded permits (.returned value : LockProgram schema Error Value) locks changes tables :=
  commits

end Rules

section Runs

structure Consistent (policy : RelyPolicy schema) (permits : schema.Change → schema.Tables → Prop)
    (database : LockDatabase schema Error Value) : Prop where
  good : policy.Good database.tables
  guarded : ∀ number transaction, database.transactions.get? number = some transaction →
    policy.Guarded permits transaction.program transaction.locks transaction.changes database.tables
  apart : ∀ number transaction number' transaction', number ≠ number' →
    database.transactions.get? number = some transaction →
    database.transactions.get? number' = some transaction' →
    Compatible transaction.locks transaction'.locks

variable {database : LockDatabase schema Error Value}

theorem Consistent.set (consistent : Consistent policy permits database) {number : ℕ}
    {transaction : LockTransaction schema Error Value}
    (guarded : policy.Guarded permits transaction.program transaction.locks transaction.changes
      database.tables)
    (apart : ∀ other held, other ≠ number → database.transactions.get? other = some held →
      Compatible held.locks transaction.locks ∧ Compatible transaction.locks held.locks) :
    Consistent policy permits
      { database with transactions := database.transactions.set number transaction } := by
  refine ⟨consistent.good, ?_, ?_⟩
  · intro other held found
    rw [OrderedMap.get?_set] at found
    split_ifs at found
    · rw [← Option.some.inj found]
      exact guarded
    · exact consistent.guarded other held found
  · intro first held second held' distinct found found'
    rw [OrderedMap.get?_set] at found found'
    split_ifs at found found' with isFirst isSecond isSecond
    · exact absurd (isFirst.trans isSecond.symm) distinct
    · rw [← Option.some.inj found]
      exact (apart second held' isSecond found').2
    · rw [← Option.some.inj found']
      exact (apart first held isFirst found).1
    · exact consistent.apart first held second held' distinct found found'

theorem Consistent.delete (consistent : Consistent policy permits database) {number : ℕ}
    {tables : schema.Tables} (good : policy.Good tables)
    (rely : ∀ other held, other ≠ number → database.transactions.get? other = some held →
      policy.Rely held.locks database.tables tables) :
    Consistent policy permits ⟨tables, database.transactions.delete number⟩ := by
  refine ⟨good, ?_, ?_⟩
  · intro other held found
    rw [OrderedMap.get?_delete] at found
    split_ifs at found with isNumber
    exact (consistent.guarded other held found).of_rely (rely other held isNumber found)
  · intro first held second held' distinct found found'
    rw [OrderedMap.get?_delete] at found found'
    split_ifs at found found'
    exact consistent.apart first held second held' distinct found found'

theorem Consistent.abandon (consistent : Consistent policy permits database) (number : ℕ) :
    Consistent policy permits
      { database with transactions := database.transactions.delete number } :=
  consistent.delete consistent.good fun _ _ _ _ => policy.refl _ _

section Steps

variable [DecidableEq schema.Row]

theorem compatible_iff {left right : schema.Locks} :
    LockDatabase.compatible left right = true ↔ Compatible left right := by
  simp only [LockDatabase.compatible, List.all_eq_true, Bool.or_eq_true, decide_eq_true_eq,
    Bool.not_eq_true', Prod.forall]
  constructor
  · intro checked row mode mode' leftMem rightMem
    rcases checked row mode leftMem row mode' rightMem with distinct | free
    · exact absurd rfl distinct
    · exact free
  · intro apart row mode leftMem row' mode' rightMem
    by_cases same : row = row'
    · subst same
      exact .inr (apart row mode mode' leftMem rightMem)
    · exact .inl same

theorem compatible_of_grants {database : LockDatabase schema Error Value} {number other : ℕ}
    {locks : schema.Locks} {transaction : LockTransaction schema Error Value}
    (granted : database.grants number locks = true) (distinct : other ≠ number)
    (isOpen : database.transactions.get? other = some transaction) :
    Compatible transaction.locks locks := by
  have checked := List.all_eq_true.mp granted (other, transaction)
    (OrderedMap.mem_entries_iff.mpr isOpen)
  rw [← compatible_iff]
  simpa [distinct] using checked

theorem Consistent.next (consistent : Consistent policy permits database)
    (symmetric : ∀ mode mode', schema.conflicts mode mode' = schema.conflicts mode' mode)
    {event : LockEvent schema Error Value} (permitted : database.Permitted permits event)
    (safe : ∀ number program, event = .start number program → policy.Safe permits program) :
    Consistent policy permits (database.next event) := by
  cases event with
  | start number program =>
      simp only [LockDatabase.next]
      split
      · exact consistent
      · apply consistent.set
        · exact safe number program rfl database.tables consistent.good
        · intro other held _ _
          exact ⟨fun _ _ _ _ => nofun, fun _ _ _ => nofun⟩
  | fail number => exact consistent.abandon number
  | step number answers =>
      simp only [LockDatabase.next]
      split
      · exact consistent
      · rename_i transaction found
        have guarded := consistent.guarded number transaction found
        split
        · rename_i value returned
          rw [returned] at guarded
          have commits := guarded database.tables (policy.refl _ _) consistent.good
          apply consistent.delete commits.1
          intro other held distinct heldFound
          exact commits.2 held.locks
            (consistent.apart other held number transaction distinct heldFound found)
        · exact consistent.abandon number
        · rename_i access rest performs
          cases access with
          | own op =>
              simp only [LockDatabase.execute]
              rw [performs] at guarded
              apply consistent.set (guarded (answers op))
              intro other held distinct heldFound
              exact ⟨consistent.apart other held number transaction distinct heldFound found,
                consistent.apart number transaction other held (Ne.symm distinct) found heldFound⟩
          | access demand changes =>
              simp only [LockDatabase.execute]
              cases demanded : demand (database.sees transaction) with
              | none => exact consistent.abandon number
              | some locks =>
                  by_cases granted : database.grants number locks = true
                  · simp only [granted, if_true]
                    have made := LockDatabase.permits_of_permitted permitted found performs
                      demanded granted
                    rw [performs] at guarded
                    apply consistent.set
                    · exact guarded database.tables (policy.refl _ _) consistent.good locks
                        demanded made
                    · intro other held distinct heldFound
                      have apart := consistent.apart other held number transaction distinct
                        heldFound found
                      have granted := compatible_of_grants granted distinct heldFound
                      have both : Compatible held.locks (locks ++ transaction.locks) := by
                        intro row mode mode' heldMem newMem
                        rcases List.mem_append.mp newMem with newMem | newMem
                        · exact granted row mode mode' heldMem newMem
                        · exact apart row mode mode' heldMem newMem
                      refine ⟨both, ?_⟩
                      intro row mode mode' newMem heldMem
                      rw [symmetric]
                      exact both row mode' mode heldMem newMem
                  · simp only [granted, if_false, Bool.false_eq_true]
                    apply consistent.set guarded
                    intro other held distinct heldFound
                    exact ⟨consistent.apart other held number transaction distinct heldFound found,
                      consistent.apart number transaction other held (Ne.symm distinct) found
                        heldFound⟩

theorem good_run {tables : schema.Tables} (good : policy.Good tables)
    (symmetric : ∀ mode mode', schema.conflicts mode mode' = schema.conflicts mode' mode)
    {events : List (LockEvent schema Error Value)}
    (permitted : LockDatabase.PermittedRun permits ⟨tables, .empty⟩ events)
    (safe : ∀ number program, .start number program ∈ events → policy.Safe permits program) :
    policy.Good (LockDatabase.run ⟨tables, .empty⟩ events).tables := by
  have start : Consistent policy permits
      (⟨tables, .empty⟩ : LockDatabase schema Error Value) :=
    ⟨good, fun _ _ => nofun, fun _ _ _ _ _ => nofun⟩
  generalize (⟨tables, .empty⟩ : LockDatabase schema Error Value) = database at start permitted ⊢
  have whole : Consistent policy permits (database.run events) := by
    induction events generalizing database with
    | nil => exact start
    | cons event events ih =>
        apply ih
        · intro number program startMem
          exact safe number program (List.mem_cons_of_mem _ startMem)
        · apply start.next symmetric permitted.1
          intro number program isStart
          exact safe number program (by rw [isStart]; exact List.mem_cons_self)
        · exact permitted.2
  exact whole.good

end Steps

end Runs

end RelyPolicy

end Concurrency
