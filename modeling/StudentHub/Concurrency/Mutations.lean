import StudentHub.Concurrency.ReadCommitted
import Mathlib.Data.Set.Basic

/-!
# What commits do

The rows of a table fall into zones, and an advisory lock guards each zone. A history keeps, beside
the database, what each session was started for, the rows as they were when a session locked them,
and the mutations that have been committed. A law says what a commit may do. A program is lawful
when it ends within the law whatever the others commit meanwhile outside the rows and the zones that
it has locked. Every commit is within the law then, in every interleaving of lawful programs. A law
that keeps every zone good keeps them good in each committed state.
-/

namespace Concurrency

open Ecma

/-- Zones, the keys of their locks and what is to hold of the rows of each zone. -/
structure ZonePolicy (schema : Schema) where
  Zone : Type
  zoneOf : schema.Row → Zone
  keyOf : Zone → schema.Key
  Good : Zone → Set (schema.Id × schema.Row) → Prop

namespace ZonePolicy

variable {schema : Schema} [DecidableEq schema.Id]

section Zones

variable (policy : ZonePolicy schema)

def rowsOf (table : OrderedMap schema.Id schema.Row) (zone : policy.Zone) :
    Set (schema.Id × schema.Row) :=
  {entry | table.get? entry.1 = some entry.2 ∧ policy.zoneOf entry.2 = zone}

/-- Every zone is good. -/
def Holds (table : OrderedMap schema.Id schema.Row) : Prop :=
  ∀ zone, policy.Good zone (policy.rowsOf table zone)

def Agree (zones : Set policy.Zone) (before after : OrderedMap schema.Id schema.Row) : Prop :=
  ∀ zone ∈ zones, policy.rowsOf after zone = policy.rowsOf before zone

def lockedBy {Error Value : Type} (session : Session schema Error Value) : Set policy.Zone :=
  {zone | policy.keyOf zone ∈ session.advisoryLocks}

end Zones

variable {policy : ZonePolicy schema} {table : OrderedMap schema.Id schema.Row}

theorem mem_rowsOf {zone : policy.Zone} {id : schema.Id} {row : schema.Row} :
    (id, row) ∈ policy.rowsOf table zone ↔ table.get? id = some row ∧ policy.zoneOf row = zone :=
  Iff.rfl

theorem Agree.refl (zones : Set policy.Zone) (table : OrderedMap schema.Id schema.Row) :
    policy.Agree zones table table :=
  fun _ _ => rfl

theorem Agree.trans {zones : Set policy.Zone} {first second third : OrderedMap schema.Id schema.Row}
    (early : policy.Agree zones first second) (late : policy.Agree zones second third) :
    policy.Agree zones first third :=
  fun zone zoneMem => (late zone zoneMem).trans (early zone zoneMem)

theorem Agree.get? {zones : Set policy.Zone} {later : OrderedMap schema.Id schema.Row}
    (agree : policy.Agree zones table later) {id : schema.Id} {row : schema.Row}
    (found : later.get? id = some row) (inZones : policy.zoneOf row ∈ zones) :
    table.get? id = some row := by
  have before : (id, row) ∈ policy.rowsOf later (policy.zoneOf row) := ⟨found, rfl⟩
  rw [agree _ inZones] at before
  exact before.1

end ZonePolicy

/-- What a session has locked, sees committed and has written. -/
structure Footing (schema : Schema) where
  held : List (schema.Id × Option schema.Row)
  table : OrderedMap schema.Id schema.Row
  writes : OrderedMap schema.Id schema.Row
  entries : List schema.Entry

section Footing

variable {schema : Schema} [DecidableEq schema.Id]

def Footing.seen (footing : Footing schema) : OrderedMap schema.Id schema.Row :=
  footing.table.overlay footing.writes

def Footing.lock (footing : Footing schema) (id : schema.Id) : Footing schema :=
  { footing with held := (id, footing.seen.get? id) :: footing.held }

def Footing.write (footing : Footing schema) (id : schema.Id) (row : schema.Row) : Footing schema :=
  { footing.lock id with writes := footing.writes.set id row }

end Footing

structure Account (schema : Schema) (Origin : Type) where
  origin : Origin
  held : List (schema.Id × Option schema.Row)

structure Mutation (schema : Schema) (Value Origin : Type) where
  origin : Origin
  footing : Footing schema
  value : Value

structure History (schema : Schema) (Error Value Origin : Type) where
  database : Database schema Error Value
  accounts : OrderedMap ℕ (Account schema Origin)
  mutations : List (Mutation schema Value Origin)

inductive Occurrence (schema : Schema) (Origin : Type)
  | start (session : ℕ) (origin : Origin)
  | step (session : ℕ) (answers : (op : schema.Local) → schema.LocalAnswer op)
  | fail (session : ℕ)

variable {schema : Schema} [DecidableEq schema.Id] {Error Value Origin : Type}

def Occurrence.event (programOf : Origin → Process (@Statement.Answer schema) Error Value) :
    Occurrence schema Origin → Event schema Error Value
  | .start number origin => .start number (programOf origin)
  | .step number answers => .step number answers
  | .fail number => .fail number

def footingOf (account : Account schema Origin) (table : OrderedMap schema.Id schema.Row)
    (session : Session schema Error Value) : Footing schema :=
  ⟨account.held, table, session.writes, session.entries⟩

/-- The account behind a statement, which has locked at most one row. -/
def Account.after (account : Account schema Origin) (table : OrderedMap schema.Id schema.Row)
    (session after : Session schema Error Value) : Account schema Origin :=
  match after.rowLocks with
  | [] => account
  | id :: earlier =>
      if earlier = session.rowLocks then
        { account with held := ((footingOf account table session).lock id).held }
      else
        account

section History

variable [DecidableEq schema.Key]

namespace History

def start (table : OrderedMap schema.Id schema.Row) (log : List schema.Entry) :
    History schema Error Value Origin :=
  ⟨⟨table, log, .empty⟩, .empty, []⟩

def keep (history : History schema Error Value Origin) (number : ℕ)
    (database : Database schema Error Value) (session : Session schema Error Value)
    (account : Account schema Origin) : History schema Error Value Origin :=
  match session.process with
  | .returned value =>
      { history with
        database
        mutations := history.mutations ++
          [⟨account.origin, footingOf account history.database.table session, value⟩] }
  | _ =>
      match database.sessions.get? number with
      | none => { history with database }
      | some after =>
          { history with
            database
            accounts := history.accounts.set number
              (account.after history.database.table session after) }

def next (programOf : Origin → Process (@Statement.Answer schema) Error Value)
    (history : History schema Error Value Origin) (occurrence : Occurrence schema Origin) :
    History schema Error Value Origin :=
  let database := history.database.next (occurrence.event programOf)
  match occurrence with
  | .start number origin =>
      if history.database.sessions.has number then history
      else { history with database, accounts := history.accounts.set number ⟨origin, []⟩ }
  | .fail _ => { history with database }
  | .step number _ =>
      match history.database.sessions.get? number, history.accounts.get? number with
      | some session, some account => history.keep number database session account
      | _, _ => { history with database }

def run (programOf : Origin → Process (@Statement.Answer schema) Error Value)
    (history : History schema Error Value Origin) (occurrences : List (Occurrence schema Origin)) :
    History schema Error Value Origin :=
  occurrences.foldl (next programOf) history

variable {programOf : Origin → Process (@Statement.Answer schema) Error Value}
  {history : History schema Error Value Origin}

theorem database_next (occurrence : Occurrence schema Origin) :
    (history.next programOf occurrence).database =
      history.database.next (occurrence.event programOf) := by
  cases occurrence with
  | start number origin =>
      rw [next]
      split_ifs with isOpen
      · simp [Occurrence.event, Database.next, isOpen]
      · rfl
  | fail number => rfl
  | step number answers =>
      rw [next]
      split
      · rw [keep]
        split
        · rfl
        · split <;> rfl
      · rfl

theorem database_run (occurrences : List (Occurrence schema Origin)) :
    (history.run programOf occurrences).database =
      history.database.run (occurrences.map (Occurrence.event programOf)) := by
  induction occurrences generalizing history with
  | nil => rfl
  | cons occurrence rest ih =>
      rw [List.map_cons, Database.run, List.foldl_cons, ← database_next]
      exact ih

theorem mutations_next (occurrence : Occurrence schema Origin) :
    history.mutations <+: (history.next programOf occurrence).mutations := by
  cases occurrence with
  | start number origin =>
      rw [next]
      split_ifs
      · exact List.prefix_rfl
      · exact List.prefix_rfl
  | fail number => exact List.prefix_rfl
  | step number answers =>
      rw [next]
      split
      · rw [keep]
        split
        · exact List.prefix_append _ _
        · split
          · exact List.prefix_rfl
          · exact List.prefix_rfl
      · exact List.prefix_rfl

theorem mutations_run (occurrences : List (Occurrence schema Origin)) :
    history.mutations <+: (history.run programOf occurrences).mutations := by
  induction occurrences generalizing history with
  | nil => exact List.prefix_rfl
  | cons occurrence rest ih => exact (mutations_next occurrence).trans ih

end History

end History

namespace ZonePolicy

variable {policy : ZonePolicy schema} {law : Footing schema → Value → Prop}

def Stands (policy : ZonePolicy schema) (zones : Set policy.Zone) (footing : Footing schema)
    (later : OrderedMap schema.Id schema.Row) : Prop :=
  policy.Agree zones footing.table later ∧
    ∀ id ∈ footing.held.map Prod.fst, later.get? id = footing.table.get? id

def Permits (policy : ZonePolicy schema) (statement : Statement schema) (zones : Set policy.Zone)
    (footing : Footing schema)
    (rest : statement.Answer → Set policy.Zone → Footing schema → Prop) : Prop :=
  match statement, rest with
  | .advisoryLock key, rest => rest () (zones ∪ {zone | policy.keyOf zone = key}) footing
  | .select query, rest => rest (query footing.seen.entries) zones footing
  | .selectForUpdate id, rest =>
      match footing.seen.get? id with
      | none => rest none zones footing
      | some row => rest (some row) zones (footing.lock id)
  | .insert id row, rest => footing.seen.get? id = none →
      policy.zoneOf row ∈ zones ∧ rest () zones (footing.write id row)
  | .update id applies change, rest =>
      match (footing.seen.get? id).filter applies with
      | none => rest false zones footing
      | some old => policy.zoneOf old ∈ zones ∧ policy.zoneOf (change old) ∈ zones ∧
          rest true zones (footing.write id (change old))
  | .append entry, rest => rest () zones { footing with entries := footing.entries ++ [entry] }
  | .own _, rest => ∀ answer, rest answer zones footing

def Lawful (policy : ZonePolicy schema) (law : Footing schema → Value → Prop) :
    Process (@Statement.Answer schema) Error Value → Set policy.Zone → Footing schema → Prop
  | .returned value, zones, footing =>
      ∀ later, policy.Stands zones footing later → law { footing with table := later } value
  | .thrown _, _, _ => True
  | .perform statement next, zones, footing =>
      ∀ later, policy.Stands zones footing later →
        policy.Permits statement zones { footing with table := later } fun answer zones footing =>
          Lawful policy law (next answer) zones footing

section Stands

variable {zones : Set policy.Zone} {footing : Footing schema}
  {later last : OrderedMap schema.Id schema.Row}

theorem Stands.refl (zones : Set policy.Zone) (footing : Footing schema) :
    policy.Stands zones footing footing.table :=
  ⟨Agree.refl _ _, fun _ _ => rfl⟩

theorem Stands.trans (early : policy.Stands zones footing later)
    (late : policy.Stands zones { footing with table := later } last) :
    policy.Stands zones footing last :=
  ⟨early.1.trans late.1, fun id held => (late.2 id held).trans (early.2 id held)⟩

theorem Lawful.of_stands {process : Process (@Statement.Answer schema) Error Value}
    (lawful : policy.Lawful law process zones footing)
    (stands : policy.Stands zones footing later) :
    policy.Lawful law process zones { footing with table := later } := by
  cases process with
  | returned value => exact fun last further => lawful last (stands.trans further)
  | thrown error => trivial
  | perform statement next => exact fun last further => lawful last (stands.trans further)

end Stands

section Rules

variable {zones : Set policy.Zone} {held : List (schema.Id × Option schema.Row)}
  {table : OrderedMap schema.Id schema.Row} {writes : OrderedMap schema.Id schema.Row}
  {entries : List schema.Entry}

theorem lawful_ofExcept_bind {Middle : Type} {computed : Except Error Middle}
    {rest : Middle → Process (@Statement.Answer schema) Error Value} {footing : Footing schema}
    (continues : ∀ value, computed = .ok value → policy.Lawful law (rest value) zones footing) :
    policy.Lawful law ((Process.ofExcept computed).bind rest) zones footing := by
  cases computed with
  | ok value => exact continues value rfl
  | error error => trivial

theorem lawful_advisoryLock {key : schema.Key}
    {next : Unit → Process (@Statement.Answer schema) Error Value}
    (continues : ∀ later, policy.Stands zones ⟨held, table, writes, entries⟩ later →
      policy.Lawful law (next ()) (zones ∪ {zone | policy.keyOf zone = key})
        ⟨held, later, writes, entries⟩) :
    policy.Lawful law (.perform (.advisoryLock key) next) zones ⟨held, table, writes, entries⟩ :=
  continues

theorem lawful_select {query : List (schema.Id × schema.Row) → List (schema.Id × schema.Row)}
    {next : List (schema.Id × schema.Row) → Process (@Statement.Answer schema) Error Value}
    (continues : ∀ later, policy.Stands zones ⟨held, table, writes, entries⟩ later →
      policy.Lawful law (next (query (later.overlay writes).entries)) zones
        ⟨held, later, writes, entries⟩) :
    policy.Lawful law (.perform (.select query) next) zones ⟨held, table, writes, entries⟩ :=
  continues

theorem lawful_selectForUpdate {id : schema.Id}
    {next : Option schema.Row → Process (@Statement.Answer schema) Error Value}
    (absent : ∀ later, policy.Lawful law (next none) zones ⟨held, later, writes, entries⟩)
    (continues : ∀ later row, policy.Stands zones ⟨held, table, writes, entries⟩ later →
      (later.overlay writes).get? id = some row → policy.Lawful law (next (some row)) zones
        ⟨(id, some row) :: held, later, writes, entries⟩) :
    policy.Lawful law (.perform (.selectForUpdate id) next) zones ⟨held, table, writes, entries⟩ := by
  intro later stands
  simp only [Permits, Footing.seen, Footing.lock]
  split
  · exact absent later
  · rename_i row found
    rw [found]
    exact continues later row stands found

theorem lawful_insert {id : schema.Id} {row : schema.Row}
    {next : Unit → Process (@Statement.Answer schema) Error Value}
    (inZones : policy.zoneOf row ∈ zones)
    (continues : ∀ later, policy.Stands zones ⟨held, table, writes, entries⟩ later →
      (later.overlay writes).get? id = none → policy.Lawful law (next ()) zones
        ⟨(id, none) :: held, later, writes.set id row, entries⟩) :
    policy.Lawful law (.perform (.insert id row) next) zones ⟨held, table, writes, entries⟩ := by
  intro later stands
  simp only [Permits, Footing.seen, Footing.write, Footing.lock]
  intro absent
  rw [absent]
  exact ⟨inZones, continues later stands absent⟩

theorem lawful_update {id : schema.Id} {applies : schema.Row → Bool}
    {change : schema.Row → schema.Row}
    {next : Bool → Process (@Statement.Answer schema) Error Value}
    (unmatched : ∀ later, policy.Lawful law (next false) zones ⟨held, later, writes, entries⟩)
    (continues : ∀ later old, policy.Stands zones ⟨held, table, writes, entries⟩ later →
      (later.overlay writes).get? id = some old → applies old = true →
        policy.zoneOf old ∈ zones ∧ policy.zoneOf (change old) ∈ zones ∧
          policy.Lawful law (next true) zones
            ⟨(id, some old) :: held, later, writes.set id (change old), entries⟩) :
    policy.Lawful law (.perform (.update id applies change) next) zones
      ⟨held, table, writes, entries⟩ := by
  intro later stands
  simp only [Permits, Footing.seen, Footing.write, Footing.lock]
  split
  · exact unmatched later
  · rename_i old matched
    rcases Option.filter_eq_some_iff.mp matched with ⟨found, applied⟩
    rw [found]
    exact continues later old stands found applied

theorem lawful_append {entry : schema.Entry}
    {next : Unit → Process (@Statement.Answer schema) Error Value}
    (continues : ∀ later, policy.Stands zones ⟨held, table, writes, entries⟩ later →
      policy.Lawful law (next ()) zones ⟨held, later, writes, entries ++ [entry]⟩) :
    policy.Lawful law (.perform (.append entry) next) zones ⟨held, table, writes, entries⟩ :=
  continues

theorem lawful_own {op : schema.Local}
    {next : schema.LocalAnswer op → Process (@Statement.Answer schema) Error Value}
    (continues : ∀ later answer, policy.Stands zones ⟨held, table, writes, entries⟩ later →
      policy.Lawful law (next answer) zones ⟨held, later, writes, entries⟩) :
    policy.Lawful law (.perform (.own op) next) zones ⟨held, table, writes, entries⟩ :=
  fun later stands answer => continues later answer stands

end Rules

end ZonePolicy

namespace ZonePolicy

variable {policy : ZonePolicy schema} {law : Origin → Footing schema → Value → Prop}

structure Abides (policy : ZonePolicy schema) (law : Origin → Footing schema → Value → Prop)
    (table : OrderedMap schema.Id schema.Row) (session : Session schema Error Value)
    (account : Account schema Origin) : Prop where
  lawful : policy.Lawful (law account.origin) session.process (policy.lockedBy session)
    (footingOf account table session)
  rowLocks : session.rowLocks = account.held.map Prod.fst
  writesLocked : ∀ id row, session.writes.get? id = some row →
    id ∈ session.rowLocks ∧ policy.zoneOf row ∈ policy.lockedBy session ∧
      ∀ old, table.get? id = some old → policy.zoneOf old ∈ policy.lockedBy session

section Statements

variable {database : Database schema Error Value} {number : ℕ}
  {session after : Session schema Error Value} {account : Account schema Origin}
  {table : OrderedMap schema.Id schema.Row}
  {process : Process (@Statement.Answer schema) Error Value}

theorem after_self : account.after table session session = account := by
  rw [Account.after]
  cases locks : session.rowLocks with
  | nil => rfl
  | cons id earlier =>
      have longer : earlier ≠ id :: earlier := fun same => by simpa using congrArg List.length same
      simp only [longer, if_false]

theorem Abides.pass (abides : policy.Abides law table session account) {entries : List schema.Entry}
    {advisoryLocks : List schema.Key}
    (more : ∀ key ∈ session.advisoryLocks, key ∈ advisoryLocks)
    (lawful : policy.Lawful (law account.origin) process {zone | policy.keyOf zone ∈ advisoryLocks}
      { footingOf account table session with entries }) :
    policy.Abides law table { session with process, entries, advisoryLocks }
      (account.after table session { session with process, entries, advisoryLocks }) := by
  have same : account.after table session { session with process, entries, advisoryLocks } = account :=
    after_self
  rw [same]
  refine ⟨lawful, abides.rowLocks, ?_⟩
  intro id row written
  rcases abides.writesLocked id row written with ⟨rowLock, zoneLock, oldLock⟩
  exact ⟨rowLock, more _ zoneLock, fun old committed => more _ (oldLock old committed)⟩

theorem after_lock {writes : OrderedMap schema.Id schema.Row} {id : schema.Id} :
    account.after table session
        { session with process, writes, rowLocks := id :: session.rowLocks } =
      { account with held := ((footingOf account table session).lock id).held } := by
  simp only [Account.after, if_true]

theorem Abides.lock (abides : policy.Abides law table session account) {id : schema.Id}
    (lawful : policy.Lawful (law account.origin) process (policy.lockedBy session)
      ((footingOf account table session).lock id)) :
    policy.Abides law table { session with process, rowLocks := id :: session.rowLocks }
      (account.after table session
        { session with process, rowLocks := id :: session.rowLocks }) := by
  rw [after_lock]
  refine ⟨lawful, ?_, ?_⟩
  · exact congrArg (id :: ·) abides.rowLocks
  · intro written row found
    rcases abides.writesLocked written row found with ⟨rowLock, zoneLock, oldLock⟩
    exact ⟨List.mem_cons_of_mem id rowLock, zoneLock, oldLock⟩

theorem Abides.write (abides : policy.Abides law table session account) {id : schema.Id}
    {row : schema.Row}
    (lawful : policy.Lawful (law account.origin) process (policy.lockedBy session)
      ((footingOf account table session).write id row))
    (rowLocked : policy.zoneOf row ∈ policy.lockedBy session)
    (oldLocked : ∀ old, (session.sees table).get? id = some old →
      policy.zoneOf old ∈ policy.lockedBy session) :
    policy.Abides law table
      { session with
        process
        writes := session.writes.set id row
        rowLocks := id :: session.rowLocks }
      (account.after table session { session with
        process
        writes := session.writes.set id row
        rowLocks := id :: session.rowLocks }) := by
  rw [after_lock]
  refine ⟨lawful, congrArg (id :: ·) abides.rowLocks, ?_⟩
  intro written writtenRow found
  simp only [OrderedMap.get?_set] at found
  split_ifs at found with here
  · subst here
    cases Option.some.inj found
    refine ⟨List.mem_cons_self, rowLocked, ?_⟩
    intro old committed
    cases earlier : session.writes.get? written with
    | some earlierRow => exact (abides.writesLocked written earlierRow earlier).2.2 old committed
    | none =>
        apply oldLocked
        rw [Session.sees, OrderedMap.get?_overlay, earlier, committed]
        rfl
  · rcases abides.writesLocked written writtenRow found with ⟨rowLock, zoneLock, oldLock⟩
    exact ⟨List.mem_cons_of_mem id rowLock, zoneLock, oldLock⟩

theorem Abides.execute [DecidableEq schema.Key]
    (abides : policy.Abides law database.table session account) {statement : Statement schema}
    {next : statement.Answer → Process (@Statement.Answer schema) Error Value}
    {answers : (op : schema.Local) → schema.LocalAnswer op}
    (isNext : session.process = .perform statement next)
    (executed : database.execute number answers session statement next = some after) :
    policy.Abides law database.table after (account.after database.table session after) := by
  have lawful := abides.lawful
  rw [isNext] at lawful
  have permitted := lawful database.table (Stands.refl _ _)
  have waits : policy.Abides law database.table session
      (account.after database.table session session) := by
    rw [after_self]
    exact abides
  cases statement with
  | advisoryLock key =>
      simp only [Database.execute] at executed
      split_ifs at executed
      · cases Option.some.inj executed
        have zones : policy.lockedBy session ∪ {zone | policy.keyOf zone = key} =
            {zone | policy.keyOf zone ∈ key :: session.advisoryLocks} := by
          ext zone
          simp [lockedBy, or_comm]
        simp only [Permits, zones] at permitted
        exact abides.pass (fun _ => List.mem_cons_of_mem _) permitted
      · cases Option.some.inj executed
        exact waits
  | select query =>
      cases Option.some.inj executed
      exact abides.pass (fun _ held => held) permitted
  | selectForUpdate id =>
      simp only [Database.execute] at executed
      simp only [Permits] at permitted
      split at executed
      · rename_i absent
        rw [show Footing.seen _ = session.sees database.table from rfl, absent] at permitted
        cases Option.some.inj executed
        exact abides.pass (fun _ held => held) permitted
      · rename_i row found
        rw [show Footing.seen _ = session.sees database.table from rfl, found] at permitted
        split_ifs at executed
        · cases Option.some.inj executed
          exact abides.lock permitted
        · cases Option.some.inj executed
          exact waits
  | insert id row =>
      simp only [Database.execute] at executed
      split_ifs at executed with held present
      · cases Option.some.inj executed
        exact waits
      · cases Option.some.inj executed
        have absent : (session.sees database.table).get? id = none := by
          simpa [OrderedMap.has] using present
        rcases permitted absent with ⟨rowLocked, rest⟩
        apply abides.write rest rowLocked
        intro old found
        rw [absent] at found
        contradiction
  | update id applies change =>
      simp only [Database.execute] at executed
      simp only [Permits] at permitted
      split at executed
      · rename_i unmatched
        rw [show Footing.seen _ = session.sees database.table from rfl, unmatched] at permitted
        cases Option.some.inj executed
        exact abides.pass (fun _ held => held) permitted
      · rename_i old matched
        rw [show Footing.seen _ = session.sees database.table from rfl, matched] at permitted
        rcases permitted with ⟨oldLocked, rowLocked, rest⟩
        split_ifs at executed
        · cases Option.some.inj executed
          apply abides.write rest rowLocked
          intro seen found
          rw [(Option.filter_eq_some_iff.mp matched).1] at found
          rwa [← Option.some.inj found]
        · cases Option.some.inj executed
          exact waits
  | append entry =>
      cases Option.some.inj executed
      exact abides.pass (fun _ held => held) permitted
  | own op =>
      cases Option.some.inj executed
      exact abides.pass (fun _ held => held) (permitted _)

end Statements

section Commits

variable {table : OrderedMap schema.Id schema.Row} {session holder : Session schema Error Value}
  {account account' : Account schema Origin}

theorem Abides.stands_of_commit (abides : policy.Abides law table holder account)
    (committing : policy.Abides law table session account')
    (rows : ∀ id ∈ holder.rowLocks, id ∉ session.rowLocks)
    (keys : ∀ key ∈ holder.advisoryLocks, key ∉ session.advisoryLocks) :
    policy.Stands (policy.lockedBy holder) (footingOf account table holder) (session.sees table) := by
  refine ⟨?_, ?_⟩
  · intro zone zoneLocked
    ext ⟨id, row⟩
    rw [mem_rowsOf, mem_rowsOf, Session.sees, OrderedMap.get?_overlay]
    cases written : session.writes.get? id with
    | none => rfl
    | some new =>
        -- Both the new row and the one in its place are of zones of the other session.
        rcases committing.writesLocked id new written with ⟨-, newLocked, oldLocked⟩
        rw [Option.some_or]
        constructor
        · rintro ⟨same, rfl⟩
          cases Option.some.inj same
          exact absurd newLocked (keys _ zoneLocked)
        · rintro ⟨old, rfl⟩
          exact absurd (oldLocked row old) (keys _ zoneLocked)
  · intro id held
    rw [show (footingOf account table holder).held = account.held from rfl, ← abides.rowLocks] at held
    rw [Session.sees, OrderedMap.get?_overlay]
    cases written : session.writes.get? id with
    | none => rfl
    | some new => exact absurd (committing.writesLocked id new written).1 (rows id held)

theorem Abides.of_commit (abides : policy.Abides law table holder account)
    (committing : policy.Abides law table session account')
    (rows : ∀ id ∈ holder.rowLocks, id ∉ session.rowLocks)
    (keys : ∀ key ∈ holder.advisoryLocks, key ∉ session.advisoryLocks) :
    policy.Abides law (session.sees table) holder account where
  lawful := abides.lawful.of_stands (abides.stands_of_commit committing rows keys)
  rowLocks := abides.rowLocks
  writesLocked := by
    intro id row own
    rcases abides.writesLocked id row own with ⟨rowLock, zoneLock, oldLock⟩
    refine ⟨rowLock, zoneLock, ?_⟩
    intro old committed
    rw [Session.sees, OrderedMap.get?_overlay] at committed
    cases written : session.writes.get? id with
    | none =>
        rw [written] at committed
        exact oldLock old committed
    | some new => exact absurd (committing.writesLocked id new written).1 (rows id rowLock)

end Commits

section Histories

variable {history : History schema Error Value Origin}
  {programOf : Origin → Process (@Statement.Answer schema) Error Value}
  {table : OrderedMap schema.Id schema.Row} {log : List schema.Entry}

structure Within (policy : ZonePolicy schema) (law : Origin → Footing schema → Value → Prop)
    (history : History schema Error Value Origin) : Prop where
  exclusive : history.database.Exclusive
  sessions : ∀ number session, history.database.sessions.get? number = some session →
    ∃ account, history.accounts.get? number = some account ∧
      policy.Abides law history.database.table session account
  mutations : ∀ mutation ∈ history.mutations, law mutation.origin mutation.footing mutation.value

def StartsLawful (policy : ZonePolicy schema) (law : Origin → Footing schema → Value → Prop)
    (programOf : Origin → Process (@Statement.Answer schema) Error Value) : Prop :=
  ∀ origin table, policy.Lawful (law origin) (programOf origin) ∅ ⟨[], table, .empty, []⟩

theorem within_start :
    policy.Within law (History.start table log : History schema Error Value Origin) where
  exclusive := ⟨by simp [History.start], by simp [History.start]⟩
  sessions := by simp [History.start]
  mutations := by simp [History.start]

theorem Within.without {number : ℕ} (within : policy.Within law history) :
    policy.Within law { history with database := history.database.rollback number } where
  exclusive := within.exclusive.delete number
  sessions := by
    intro other holder found
    simp only [Database.rollback, OrderedMap.get?_delete] at found
    split_ifs at found
    exact within.sessions other holder found
  mutations := within.mutations

theorem Within.set {number : ℕ} {session : Session schema Error Value}
    {account : Account schema Origin} (within : policy.Within law history)
    (exclusive : Database.Exclusive
      { history.database with sessions := history.database.sessions.set number session })
    (abides : policy.Abides law history.database.table session account) :
    policy.Within law
      { history with
        database :=
          { history.database with sessions := history.database.sessions.set number session }
        accounts := history.accounts.set number account } where
  exclusive := exclusive
  sessions := by
    intro other holder found
    simp only [OrderedMap.get?_set] at found ⊢
    split_ifs at found ⊢
    · cases Option.some.inj found
      exact ⟨account, rfl, abides⟩
    · exact within.sessions other holder found
  mutations := within.mutations

theorem Within.commit {number : ℕ} {session : Session schema Error Value}
    {account : Account schema Origin} {value : Value} (within : policy.Within law history)
    (found : history.database.sessions.get? number = some session)
    (abides : policy.Abides law history.database.table session account)
    (returned : session.process = .returned value) :
    policy.Within law
      { history with
        database := history.database.commit number session
        mutations := history.mutations ++
          [⟨account.origin, footingOf account history.database.table session, value⟩] } where
  exclusive :=
    ⟨(within.exclusive.delete number).rowLocks, (within.exclusive.delete number).advisoryLocks⟩
  sessions := by
    intro other holder isOther
    simp only [Database.commit, OrderedMap.get?_delete] at isOther
    split_ifs at isOther with same
    rcases within.sessions other holder isOther with ⟨holderAccount, isAccount, holderAbides⟩
    refine ⟨holderAccount, isAccount, holderAbides.of_commit abides ?_ ?_⟩
    · exact fun id held alsoHeld =>
        same (within.exclusive.rowLocks other holder number session id isOther found held alsoHeld)
    · exact fun key held alsoHeld => same
        (within.exclusive.advisoryLocks other holder number session key isOther found held alsoHeld)
  mutations := by
    rw [List.forall_mem_append, List.forall_mem_singleton]
    refine ⟨within.mutations, ?_⟩
    have lawful := abides.lawful
    rw [returned] at lawful
    exact lawful _ (Stands.refl _ _)

theorem Within.next [DecidableEq schema.Key] (within : policy.Within law history)
    (lawful : policy.StartsLawful law programOf) (occurrence : Occurrence schema Origin) :
    policy.Within law (history.next programOf occurrence) := by
  cases occurrence with
  | start number origin =>
      simp only [History.next, Occurrence.event, Database.next]
      split_ifs
      · exact within
      · apply within.set
        · apply within.exclusive.set
          · simp [Session.start]
          · simp [Session.start]
        · refine ⟨?_, rfl, by simp [Session.start]⟩
          have none : policy.lockedBy (Session.start (programOf origin)) = ∅ := by
            ext zone
            simp [lockedBy, Session.start]
          rw [none]
          exact lawful origin _
  | fail number => exact within.without
  | step number answers =>
      simp only [History.next, Occurrence.event, Database.next]
      cases found : history.database.sessions.get? number with
      | none => exact within
      | some session =>
          rcases within.sessions number session found with ⟨account, isAccount, abides⟩
          simp only [isAccount, History.keep]
          cases isNext : session.process with
          | returned value => exact within.commit found abides isNext
          | thrown error =>
              simp only [Database.rollback, OrderedMap.get?_delete, if_true]
              exact within.without
          | perform statement rest =>
              dsimp only
              cases executed : history.database.execute number answers session statement rest with
              | none =>
                  simp only [Database.rollback, OrderedMap.get?_delete, if_true]
                  exact within.without
              | some after =>
                  have locks := Database.execute_locks executed
                  simp only [OrderedMap.get?_set_self]
                  exact within.set (within.exclusive.advance found locks.1 locks.2)
                    (abides.execute isNext executed)

def Linked : OrderedMap schema.Id schema.Row → List (Mutation schema Value Origin) →
    OrderedMap schema.Id schema.Row → Prop
  | first, [], last => first = last
  | first, mutation :: mutations, last =>
      mutation.footing.table = first ∧ Linked mutation.footing.seen mutations last

theorem linked_append {first middle : OrderedMap schema.Id schema.Row}
    {mutations : List (Mutation schema Value Origin)} {mutation : Mutation schema Value Origin}
    (linked : Linked first mutations middle) (begins : mutation.footing.table = middle) :
    Linked first (mutations ++ [mutation]) mutation.footing.seen := by
  induction mutations generalizing first with
  | nil => exact ⟨begins.trans linked.symm, rfl⟩
  | cons earlier mutations ih => exact ⟨linked.1, ih linked.2⟩

theorem Linked.of_append {first middle last : OrderedMap schema.Id schema.Row}
    {mutations more : List (Mutation schema Value Origin)} (whole : Linked first (mutations ++ more) last)
    (linked : Linked first mutations middle) : Linked middle more last := by
  induction mutations generalizing first with
  | nil =>
      cases linked
      exact whole
  | cons mutation mutations ih => exact ih whole.2 linked.2

structure Recorded (table : OrderedMap schema.Id schema.Row) (log : List schema.Entry)
    (history : History schema Error Value Origin) : Prop where
  log : history.database.log =
    log ++ history.mutations.flatMap fun mutation => mutation.footing.entries
  tables : Linked table history.mutations history.database.table

def KeepsGood (policy : ZonePolicy schema) (footing : Footing schema) : Prop :=
  policy.Holds footing.table → policy.Holds footing.seen

theorem holds_of_linked {first last : OrderedMap schema.Id schema.Row}
    {mutations : List (Mutation schema Value Origin)} (linked : Linked first mutations last)
    (keeps : ∀ mutation ∈ mutations, policy.KeepsGood mutation.footing)
    (holds : policy.Holds first) : policy.Holds last := by
  induction mutations generalizing first with
  | nil =>
      cases linked
      exact holds
  | cons mutation mutations ih =>
      rw [List.forall_mem_cons] at keeps
      rcases linked with ⟨rfl, linked⟩
      exact ih linked keeps.2 (keeps.1 holds)

theorem Recorded.next [DecidableEq schema.Key] (recorded : Recorded table log history)
    (within : policy.Within law history) (occurrence : Occurrence schema Origin) :
    Recorded table log (history.next programOf occurrence) := by
  have same : ∀ {other : History schema Error Value Origin}, other.database.log = history.database.log →
      other.database.table = history.database.table → other.mutations = history.mutations →
      Recorded table log other := by
    intro other sameLog sameTable sameMutations
    refine ⟨?_, ?_⟩
    · rw [sameLog, sameMutations, recorded.log]
    · rw [sameTable, sameMutations]
      exact recorded.tables
  cases occurrence with
  | start number origin =>
      simp only [History.next, Occurrence.event, Database.next]
      split_ifs
      · exact recorded
      · exact same rfl rfl rfl
  | fail number => exact same rfl rfl rfl
  | step number answers =>
      simp only [History.next, Occurrence.event, Database.next]
      cases found : history.database.sessions.get? number with
      | none => exact recorded
      | some session =>
          rcases within.sessions number session found with ⟨account, isAccount, -⟩
          simp only [isAccount, History.keep]
          cases isNext : session.process with
          | returned value =>
              refine ⟨?_, linked_append recorded.tables rfl⟩
              rw [List.flatMap_append, ← List.append_assoc, ← recorded.log]
              simp [Database.commit, footingOf]
          | thrown error =>
              dsimp only
              split
              · exact same rfl rfl rfl
              · exact same rfl rfl rfl
          | perform statement rest =>
              dsimp only
              cases history.database.execute number answers session statement rest with
              | none =>
                  dsimp only
                  split
                  · exact same rfl rfl rfl
                  · exact same rfl rfl rfl
              | some after =>
                  dsimp only
                  split
                  · exact same rfl rfl rfl
                  · exact same rfl rfl rfl

/-- Every commit of every interleaving of lawful programs is within the law, and they are all that
has changed the table and the log. -/
theorem recorded_run [DecidableEq schema.Key] (lawful : policy.StartsLawful law programOf)
    (occurrences : List (Occurrence schema Origin)) :
    let history : History schema Error Value Origin := (History.start table log).run programOf occurrences
    policy.Within law history ∧ Recorded table log history := by
  have general : ∀ history : History schema Error Value Origin, policy.Within law history →
      Recorded table log history → policy.Within law (history.run programOf occurrences) ∧
        Recorded table log (history.run programOf occurrences) := by
    induction occurrences with
    | nil => exact fun _ within recorded => ⟨within, recorded⟩
    | cons occurrence rest ih =>
        intro history within recorded
        exact ih _ (within.next lawful occurrence) (recorded.next within occurrence)
  exact general _ within_start ⟨by simp [History.start], rfl⟩

end Histories

end ZonePolicy

end Concurrency
