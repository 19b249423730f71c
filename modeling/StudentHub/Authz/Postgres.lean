import StudentHub.Authz.Store
import StudentHub.Sql.Recursive

/-!
# The PostgreSQL authorization store

Each table is a map under the key that its constraint makes unique: organizations and
principals under their id, `principal_pbuuids` under the pbuuid, `grants` under
(principal, organization, role). Every operation is one transaction, so it gives
either the next state or an error that leaves the tables as they were.

What a text column keeps of a string is a parameter. The driver sends strings as
UTF-8 and the server refuses the zero code unit; `utf8Column` is that behaviour,
without the limits on the size of an index entry.
-/

namespace StudentHub.Authz

open Ecma Sql

structure PrincipalRow where
  displayName : Option JsString
  email : Option JsString
  deriving DecidableEq

abbrev GrantKey := JsString × JsString × Role

structure PostgresAuthzStore where
  organizations : OrderedMap JsString Organization
  principals : OrderedMap JsString PrincipalRow
  principalPbuuids : OrderedMap JsString JsString
  grants : OrderedMap GrantKey GrantScope
  deriving DecidableEq

inductive AuditDomain where
  | principal
  | organization
  deriving DecidableEq

inductive PostgresAuthzError where
  | authz (error : AuthzError)
  | registrationConflict (principalId : JsString)
  | auditReference (domain : AuditDomain)
  /-- Code 22021: a parameter that no text column can hold. -/
  | invalidText
  | foreignKey
  /-- Code 23505 on the primary key of `principal_pbuuids`. -/
  | uniquePbuuid
  | uniqueRootAdmin
  | cardinality
  deriving DecidableEq

/-- UTF-8 text without the zero code unit; a lone surrogate is sent as U+FFFD. -/
def utf8Column (text : JsString) : Option JsString :=
  if 0 ∈ text then none else some text.toWellFormed

def auditRef (domain : AuditDomain) (value : JsString) : Except PostgresAuthzError Unit :=
  if value.trim = [] ∨ 4096 < value.length then .error (.auditReference domain) else .ok ()

section Parameters

variable (textColumn : JsString → Option JsString)

/-- A string parameter of a statement. -/
def sent (text : JsString) : Except PostgresAuthzError JsString :=
  match textColumn text with
  | none => .error .invalidText
  | some stored => .ok stored

def sentOrNull : Option JsString → Except PostgresAuthzError (Option JsString)
  | none => .ok none
  | some text => (sent textColumn text).map some

end Parameters

namespace PostgresAuthzStore

def empty : PostgresAuthzStore := ⟨.empty, .empty, .empty, .empty⟩

/-- The recursive term of the parent walk: `SELECT parent_org_id ... WHERE id = w.id`. -/
def parentRows (organizations : OrderedMap JsString Organization) :
    Option JsString → List (Option JsString)
  | none => []
  | some id =>
      match organizations.get? id with
      | none => []
      | some row => [row.parentOrgId]

/-- The walk up from `parent` meets `id`. -/
def walkHits (db : PostgresAuthzStore) (parent id : JsString) : Bool :=
  match recursiveUnion (parentRows db.organizations) (db.organizations.size + 1)
      (parentRows db.organizations (some parent)) with
  | none => false
  | some walk => some id ∈ walk

/-- The pbuuids that `array_agg` collects for a principal. -/
def ownedPbuuids (db : PostgresAuthzStore) (principalId : JsString) : List JsString :=
  (db.principalPbuuids.entries.filter fun link => link.2 = principalId).map Prod.fst

variable (textColumn : JsString → Option JsString)

def upsertOrganization (db : PostgresAuthzStore) (org : Organization) :
    Except PostgresAuthzError PostgresAuthzStore := do
  let id ← sent textColumn org.id
  let parentOrgId ← sentOrNull textColumn org.parentOrgId
  if org.parentOrgId = some org.id then .error (.authz (.ownParent org.id))
  else if parentOrgId.any fun parent => db.walkHits parent id then
    .error (.authz (.organizationCycle org.id))
  else do
    let name ← sent textColumn org.name
    let organizations := db.organizations.set id ⟨id, name, parentOrgId⟩
    if parentOrgId.all organizations.has then .ok { db with organizations }
    else .error .foreignKey

/-- `INSERT INTO principal_pbuuids`. -/
def insertPbuuid (principalId : JsString) (table : OrderedMap JsString JsString)
    (claimed : JsString) : Except PostgresAuthzError (OrderedMap JsString JsString) := do
  let pbuuid ← sent textColumn claimed
  if table.has pbuuid then .error .uniquePbuuid else .ok (table.set pbuuid principalId)

def conflictError (db : PostgresAuthzStore) (principalId : JsString) (claimed : List JsString) :
    PostgresAuthzError :=
  match claimed.mapM textColumn with
  | none => .registrationConflict principalId
  | some pbuuids =>
      match db.principalPbuuids.entries.find? fun link =>
          link.1 ∈ pbuuids ∧ link.2 ≠ principalId with
      | none => .registrationConflict principalId
      | some link => .authz (.pbuuidOwned link.1 link.2 principalId)

def alreadyRegistered (db : PostgresAuthzStore) (id : JsString) (principal : Principal)
    (claimed : List JsString) : Prop :=
  ∃ before ∈ db.principals.get? id, sortTexts (db.ownedPbuuids id) = sortTexts claimed ∧
    before.displayName = principal.displayName ∧ before.email = principal.email

instance (db : PostgresAuthzStore) (id : JsString) (principal : Principal)
    (claimed : List JsString) : Decidable (db.alreadyRegistered id principal claimed) :=
  inferInstanceAs (Decidable (∃ before ∈ db.principals.get? id, _))

def registerPrincipal (db : PostgresAuthzStore) (principal : Principal) :
    Except PostgresAuthzError PostgresAuthzStore := do
  let claimed := distinctBy (fun pbuuid => pbuuid) principal.pbuuids
  let principalId ← sent textColumn principal.id
  if db.alreadyRegistered principalId principal claimed then .ok db
  else do
    let displayName ← sentOrNull textColumn principal.displayName
    let email ← sentOrNull textColumn principal.email
    let kept := db.principalPbuuids.filter fun _ owner => owner ≠ principalId
    match claimed.foldlM (insertPbuuid textColumn principalId) kept with
    | .error .uniquePbuuid => .error (db.conflictError textColumn principal.id claimed)
    | .error error => .error error
    | .ok principalPbuuids => do
        auditRef .principal principal.id
        .ok { db with
          principals := db.principals.set principalId ⟨displayName, email⟩
          principalPbuuids }

def mergeEntries (entries : List NormalizedGrantEntry) :
    OrderedMap JsString NormalizedGrantEntry :=
  entries.foldl (fun byKey entry =>
    let key := rowKey entry.orgId entry.role.text
    match byKey.get? key with
    | none => byKey.set key entry
    | some existing =>
        if entry.scope = .subtree ∧ existing.scope ≠ .subtree then byKey.set key entry
        else byKey) .empty

def hasRootAdmin (db : PostgresAuthzStore) : Bool :=
  db.grants.keys.any fun key => key.2 = (js "root", .admin)

/-- The `CASE` of the conflict action. -/
def conflictScope (held granted : GrantScope) : GrantScope :=
  if held = .subtree ∨ granted = .subtree then .subtree else held

/-- One proposed row of `INSERT ... ON CONFLICT`, with the number of rows changed so far. -/
def upsertGrant (principalId : JsString) (progress : PostgresAuthzStore × ℕ)
    (entry : NormalizedGrantEntry) : Except PostgresAuthzError (PostgresAuthzStore × ℕ) :=
  let db := progress.1
  let key := (principalId, entry.orgId, entry.role)
  match db.grants.get? key with
  | some held =>
      let scope := conflictScope held entry.scope
      if held = scope then .ok progress
      else .ok ({ db with grants := db.grants.set key scope }, progress.2 + 1)
  | none =>
      if ¬(db.principals.has principalId ∧ db.organizations.has entry.orgId) then
        .error .foreignKey
      else if key.2 = (js "root", .admin) ∧ db.hasRootAdmin then .error .uniqueRootAdmin
      else .ok ({ db with grants := db.grants.set key entry.scope }, progress.2 + 1)

def grantTuple (entry : NormalizedGrantEntry) :
    Except PostgresAuthzError NormalizedGrantEntry :=
  (sent textColumn entry.orgId).map fun orgId => { entry with orgId }

def normalized (entry : GrantEntry) : Except PostgresAuthzError NormalizedGrantEntry :=
  (normalizeGrantEntry entry).mapError .authz

def grantMany (db : PostgresAuthzStore) (principalId : JsString) (entries : List GrantEntry) :
    Except PostgresAuthzError PostgresAuthzStore :=
  if entries = [] then .ok db
  else do
    let normalizedEntries ← entries.mapM normalized
    let merged := (mergeEntries normalizedEntries).values
    let id ← sent textColumn principalId
    let tuples ← merged.mapM (grantTuple textColumn)
    if ¬(tuples.map fun entry => (entry.orgId, entry.role)).Nodup then .error .cardinality
    else do
      let result ← tuples.foldlM (upsertGrant id) (db, 0)
      if result.2 = 0 then .ok result.1
      else do
        auditRef .principal principalId
        merged.forM fun entry => auditRef .organization entry.orgId
        .ok result.1

def revokeTuple (entry : RevokeEntry) : Except PostgresAuthzError (JsString × JsString) := do
  let orgId ← sent textColumn entry.orgId
  let role ← sent textColumn entry.role
  .ok (orgId, role)

def revokeMany (db : PostgresAuthzStore) (principalId : JsString) (entries : List RevokeEntry) :
    Except PostgresAuthzError PostgresAuthzStore :=
  if entries = [] then .ok db
  else do
    let id ← sent textColumn principalId
    let tuples ← entries.mapM (revokeTuple textColumn)
    let remaining := db.grants.filter fun key _ =>
      ¬(key.1 = id ∧ (key.2.1, key.2.2.text) ∈ tuples)
    if remaining.size = db.grants.size then .ok db
    else do
      auditRef .principal principalId
      entries.forM fun entry => auditRef .organization entry.orgId
      .ok { db with grants := remaining }

def clearGrantsForPrincipal (db : PostgresAuthzStore) (principalId : JsString) :
    Except PostgresAuthzError PostgresAuthzStore := do
  let id ← sent textColumn principalId
  let remaining := db.grants.filter fun key _ => key.1 ≠ id
  if remaining.size = db.grants.size then .ok db
  else do
    auditRef .principal principalId
    .ok { db with grants := remaining }

/-- The effect of one call; a rejected call is rolled back. -/
def apply (db : PostgresAuthzStore) : AuthzCall → Except PostgresAuthzError PostgresAuthzStore
  | .upsertOrganization org => db.upsertOrganization textColumn org
  | .registerPrincipal principal => db.registerPrincipal textColumn principal
  | .grantMany principalId entries => db.grantMany textColumn principalId entries
  | .revokeMany principalId entries => db.revokeMany textColumn principalId entries
  | .clearGrantsForPrincipal principalId => db.clearGrantsForPrincipal textColumn principalId

end PostgresAuthzStore

end StudentHub.Authz
