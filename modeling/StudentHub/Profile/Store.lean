import StudentHub.Concurrency.Discipline
import StudentHub.SafeWrite.Contract

/-!
# The store of person profiles

A commit of the safe-write port sends its queries over one client: it takes the lock of the
principal, checks what it was promised, writes the field and the audit row, and commits. Any
of the queries may fail, and a `COMMIT` may take effect and still fail.
-/

namespace StudentHub.Profile

open Ecma JsString Concurrency Process SafeWrite

/-- `PERSON_PROFILE_FIELDS`; each has a column of its own. -/
inductive PersonProfileField
  | displayName
  | arabicName
  | objective
  | intro
  | preferredTime
  | gender
  | birthDate
  | drivingLicence
  | jobSearchStatus
  | phone
  | handle
  | nationality
  | university
  | kuwaitiMother
  deriving DecidableEq

namespace PersonProfileField

def name : PersonProfileField → JsString
  | displayName => js "displayName"
  | arabicName => js "arabicName"
  | objective => js "objective"
  | intro => js "intro"
  | preferredTime => js "preferredTime"
  | gender => js "gender"
  | birthDate => js "birthDate"
  | drivingLicence => js "drivingLicence"
  | jobSearchStatus => js "jobSearchStatus"
  | phone => js "phone"
  | handle => js "handle"
  | nationality => js "nationality"
  | university => js "university"
  | kuwaitiMother => js "kuwaitiMother"

def all : List PersonProfileField :=
  [displayName, arabicName, objective, intro, preferredTime, gender, birthDate, drivingLicence,
    jobSearchStatus, phone, handle, nationality, university, kuwaitiMother]

end PersonProfileField

def inheritedMembers : List JsString :=
  [js "constructor", js "__defineGetter__", js "__defineSetter__", js "hasOwnProperty",
    js "__lookupGetter__", js "__lookupSetter__", js "isPrototypeOf", js "propertyIsEnumerable",
    js "toString", js "valueOf", js "__proto__", js "toLocaleString"]

/-- `COLUMNS[field]`; an inherited member is a column that does not exist. -/
def column? (field : JsString) : Option (Option PersonProfileField) :=
  match PersonProfileField.all.find? fun own => own.name = field with
  | some own => some (some own)
  | none => if field ∈ inheritedMembers then some none else none

structure Cell where
  value : Option JsString := none
  writtenAt : Option ℤ := none

abbrev ProfileRow := PersonProfileField → Cell

structure CatalogueItem where
  catalogueType : JsString
  code : Option JsString
  isActive : Bool

/-- A row of the operation `profile.safe_write` of the audit table. -/
structure AuditRow where
  requestRef : JsString
  principalRef : JsString
  valuePresent : Bool
  contractVersion : JsString
  personRef : JsString
  changeSetDigest : JsString
  field : JsString
  committedAt : JsString
  tokenRef : JsString
  deriving DecidableEq

structure Tables where
  principals : List JsString
  catalogue : OrderedMap JsString CatalogueItem
  profiles : OrderedMap JsString ProfileRow
  audit : List AuditRow

namespace Tables

def valueOf (tables : Tables) (id : JsString) (field : PersonProfileField) : Option JsString :=
  (tables.profiles.get? id).bind fun row => (row field).value

def isSpent (tables : Tables) (tokenRef : JsString) : Bool :=
  tables.audit.any fun row => row.tokenRef = tokenRef

def putCell (tables : Tables) (id : JsString) (field : PersonProfileField) (cell : Cell) : Tables :=
  let row := (tables.profiles.get? id).getD fun _ => {}
  { tables with profiles := tables.profiles.set id (Function.update row field cell) }

/-- `UPDATE` of the column, if the row is there. -/
def clearCell (tables : Tables) (id : JsString) (field : PersonProfileField) : Tables :=
  match tables.profiles.get? id with
  | some row => { tables with profiles := tables.profiles.set id (Function.update row field {}) }
  | none => tables

def isKuwaiti (tables : Tables) (id : JsString) : Bool :=
  match (tables.valueOf id .nationality).bind tables.catalogue.get? with
  | some item => item.catalogueType = js "country" && item.code = some (js "KW")
  | none => false

end Tables

structure DatabaseError where
  code : JsString
  constraint : JsString
  deriving DecidableEq

/-- The references of the store, and what the database makes of a value: the column's type, its
checks and its unique index give a stored value or an error. -/
structure ProfileHost where
  tokenRef : JsString → JsString
  principalRef : JsString → JsString
  personRef : JsString → JsString
  stored : PersonProfileField → JsString → Tables → JsString → Except DatabaseError JsString
  /-- A text as the `uuid` of a catalogue item. -/
  uuid : JsString → Except DatabaseError JsString

inductive Query
  | connect
  | begin
  | lock (id : JsString)
  | tokenRow (tokenRef : JsString)
  | principalRow (id : JsString)
  | valueForUpdate (id : JsString) (column : Option PersonProfileField)
  | activeItem (id catalogueType : JsString)
  | clearKuwaitiMother (id : JsString)
  | kuwaitiRow (id : JsString)
  | upsert (id : JsString) (field : PersonProfileField) (value : Option JsString)
  | insertAudit (row : AuditRow)
  | commit
  | rollback
  deriving DecidableEq

@[reducible]
def Query.Result : Query → Type
  | tokenRow _ | principalRow _ | kuwaitiRow _ => Bool
  | valueForUpdate _ _ => Option JsString
  | activeItem _ _ => Option (Option JsString)
  | _ => Unit

abbrev Query.Answer (query : Query) : Type := Except DatabaseError query.Result

def uniqueViolation (constraint : JsString) : DatabaseError := ⟨js "23505", constraint⟩

/-- A statement within a transaction; there is none for a column that does not exist. -/
def Query.statement (host : ProfileHost) (now : ℤ) (tables : Tables) :
    (query : Query) → Except DatabaseError (query.Result × Tables)
  | .tokenRow tokenRef => .ok (tables.isSpent tokenRef, tables)
  | .principalRow id => .ok (decide (id ∈ tables.principals), tables)
  | .valueForUpdate id (some field) => .ok (tables.valueOf id field, tables)
  | .valueForUpdate _ none => .error ⟨js "42601", []⟩
  | .activeItem id catalogueType => do
      let id ← host.uuid id
      let found := (tables.catalogue.get? id).filter fun item =>
        item.catalogueType = catalogueType && item.isActive
      return (found.map CatalogueItem.code, tables)
  | .clearKuwaitiMother id => .ok ((), tables.clearCell id .kuwaitiMother)
  | .kuwaitiRow id => .ok (tables.isKuwaiti id, tables)
  | .upsert id field value => do
      let stored ← value.mapM (host.stored field id tables)
      return ((), tables.putCell id field ⟨stored, some now⟩)
  | .insertAudit row =>
      if tables.isSpent row.tokenRef then
        .error (uniqueViolation (js "authorization_mutation_audit_safe_write_token"))
      else if tables.audit.any fun other => other.requestRef = row.requestRef then
        .error (uniqueViolation (js "authorization_mutation_audit_safe_write_receipt"))
      else
        .ok ((), { tables with audit := tables.audit ++ [row] })
  | .connect | .begin | .lock _ | .commit | .rollback => .ok ((), tables)

inductive Fate
  | done
  | failed (error : DatabaseError)
  | lost (error : DatabaseError)

/-- What befalls each query of a call, and the clock of the database. -/
structure Circumstances where
  fate : Query → Fate
  now : ℤ

structure Connection where
  durable : Tables
  working : Option Tables := none

def Connection.fail (connection : Connection) (error : DatabaseError) {Result : Type} :
    Except DatabaseError Result × Connection :=
  (.error error, { connection with working := none })

def Circumstances.answer (host : ProfileHost) (circumstances : Circumstances) (query : Query)
    (connection : Connection) : query.Answer × Connection :=
  match circumstances.fate query, query with
  | .failed error, _ => connection.fail error
  | .lost error, .commit =>
      (.error error, { durable := connection.working.getD connection.durable })
  | .lost error, _ => connection.fail error
  | .done, .connect => (.ok (), connection)
  | .done, .begin => (.ok (), { connection with working := some connection.durable })
  | .done, .commit => (.ok (), { durable := connection.working.getD connection.durable })
  | .done, .rollback => (.ok (), { connection with working := none })
  | .done, query =>
      match connection.working.map (query.statement host circumstances.now) with
      | some (.ok (result, tables)) => (.ok result, { connection with working := some tables })
      | some (.error error) => connection.fail error
      | none => connection.fail ⟨js "25P01", []⟩

inductive Failure
  | refusal (reason : CommitRefusal)
  | database (error : DatabaseError)

abbrev Client := Process Query.Answer Failure

def send (query : Query) : Client query.Result :=
  perform query fun answer : query.Answer =>
    match answer with
    | .ok result => returned result
    | .error error => thrown (.database error)

def refuse {Value : Type} (reason : CommitRefusal) : Client Value := thrown (.refusal reason)

def catalogueOf : PersonProfileField → Option JsString
  | .nationality => some (js "country")
  | .university => some (js "university")
  | _ => none

/-- The value is an item of the catalogue; who becomes Kuwaiti has no Kuwaiti mother on record. -/
def checkItem (id : JsString) (field : PersonProfileField) (value : JsString) : Client Unit :=
  match catalogueOf field with
  | none => returned ()
  | some catalogueType =>
      if field = .university ∧ value = [] then
        returned ()
      else
        (send (.activeItem value catalogueType)).bind fun selected : Option (Option JsString) =>
          match selected with
          | none => refuse .invalidValue
          | some code =>
              if field = .nationality ∧ code = some (js "KW") then
                send (.clearKuwaitiMother id)
              else
                returned ()

def checkMother (id : JsString) (field : PersonProfileField) : Client Unit :=
  if field = .kuwaitiMother then
    (send (.kuwaitiRow id)).bind fun kuwaiti : Bool =>
      if kuwaiti then refuse .invalidValue else returned ()
  else
    returned ()

/-- `value === "" ? null : value` -/
def columnValue (value : JsString) : Option JsString := if value = [] then none else some value

def writeValue (id : JsString) (field : PersonProfileField) (value : JsString) : Client Unit := do
  checkItem id field value
  checkMother id field
  send (.upsert id field (columnValue value))

def auditRow (input : CommitInput) (current : Option JsString) (spent : JsString) : AuditRow where
  requestRef := input.receipt.receiptRef
  principalRef := input.receipt.principalRef
  valuePresent := current.isSome
  contractVersion := input.receipt.contractVersion
  personRef := input.receipt.personRef
  changeSetDigest := input.receipt.changeSetDigest
  field := input.field
  committedAt := input.receipt.committedAt
  tokenRef := spent

def writeChange (id : JsString) (column : Option PersonProfileField) (input : CommitInput)
    (current : Option JsString) (spent : JsString) : Client Unit :=
  match column with
  | none => returned ()
  | some field => do
      writeValue id field input.value
      send (.insertAudit (auditRow input current spent))

def lockedChange (id : JsString) (column : Option PersonProfileField) (input : CommitInput)
    (spent : JsString) : Client Unit :=
  (send (.lock id)).bind fun _ =>
  (send (.tokenRow spent)).bind fun used : Bool =>
  if used then
    refuse .tokenAlreadyUsed
  else
    (send (.principalRow id)).bind fun there : Bool =>
    if !there then
      refuse .notOwnRecord
    else
      (send (.valueForUpdate id column)).bind fun current : Option JsString =>
      if current ≠ input.expectedBefore then
        refuse .stateChanged
      else
        writeChange id column input current spent

def change (id : JsString) (column : Option PersonProfileField) (input : CommitInput)
    (spent : JsString) : Client Unit :=
  (send .begin).bind fun _ => lockedChange id column input spent

def Failure.answer : Failure → CommitAnswer
  | refusal reason => .refused reason
  | database error =>
      if error = uniqueViolation (js "authorization_mutation_audit_safe_write_token") then
        .refused .tokenAlreadyUsed
      else if error.code = js "23505" ∧ (error.constraint = js "person_profiles_phone_uq" ∨
          error.constraint = js "person_profiles_profile_handle_uq") then
        .refused .invalidValue
      else if error.code = js "23514" then
        .refused .invalidValue
      else
        .threw

def Consistent (input : CommitInput) : Prop :=
  input.receipt.personRef = input.personRef ∧ input.receipt.principalRef = input.principalRef ∧
    input.receipt.changeSetDigest = input.changeSetDigest ∧ input.receipt.fields = [input.field]

instance (input : CommitInput) : Decidable (Consistent input) :=
  inferInstanceAs (Decidable (_ ∧ _ ∧ _ ∧ _))

/-- The end of a transaction; what a `ROLLBACK` answers is of no account. -/
def settle : Except Failure Unit → Client CommitAnswer
  | .ok () => returned .accepted
  | .error failure => perform .rollback fun _ => returned failure.answer

/-- `#commit`; an input that is not consistent, or names no token, throws. -/
def commit (host : ProfileHost) (id : JsString) (input : CommitInput) : Client CommitAnswer :=
  match column? input.field, input.tokenId with
  | some column, some tokenId =>
      if Consistent input then
        perform .connect fun answer : Except DatabaseError Unit =>
          match answer with
          | .ok () =>
              ((change id column input (host.tokenRef tokenId)).bind fun _ =>
                send .commit).attempt.bind settle
          | .error _ => returned .threw
      else
        returned .threw
  | _, _ => returned .threw

/-- The answer to a query never ends the process by itself. -/
def Circumstances.handle (host : ProfileHost) (circumstances : Circumstances) (query : Query)
    (connection : Connection) : Except Failure query.Answer × Connection :=
  (.ok (circumstances.answer host query connection).1,
    (circumstances.answer host query connection).2)

def Circumstances.run (host : ProfileHost) (circumstances : Circumstances) {Value : Type}
    (process : Client Value) (connection : Connection) : Except Failure Value × Connection :=
  process.run (circumstances.handle host) connection

end StudentHub.Profile
