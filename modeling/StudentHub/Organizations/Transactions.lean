import StudentHub.Authz.Postgres
import StudentHub.Concurrency.RowLocks
import StudentHub.Pay.Postgres
import StudentHub.SafeWrite.Contract

/-!
# Transactions around the deletion of organizations

The deletion of an organization and the five writers that add what a deletion counts. The
writers of the safe write, of stores and of child organizations look at
`organization_deletions` after they have locked the organization; `grantMany` and
`upsertOrganization` do not look at it.
-/

/-!
## Tables around the deletion of organizations

The tables that an organization's deletion counts, with the row locks of PostgreSQL. An
`INSERT` holds the new row's unique keys, and the rows that its foreign keys reference for
key share; it is carried out when it has them.
-/

namespace StudentHub.Organizations

open Ecma JsString Concurrency

/-- A row of `organization_stores`. -/
structure StoreRow where
  orgId : JsString
  name : JsString
  location : Option JsString
  brandId : Option JsString
  mallId : Option JsString
  active : Bool
  deriving DecidableEq

/-- What a row of `authorization_mutation_audit` is looked up by. -/
structure MutationAudit where
  operation : JsString
  actorPrincipalRef : JsString
  targetOrgRefs : List JsString
  tokenRef : Option JsString
  deriving DecidableEq

structure PlatformTables where
  authz : Authz.PostgresAuthzStore
  /-- `organization_deletions`: the receipt of each deleted organization. -/
  deletions : OrderedMap JsString JsString
  contracts : OrderedMap JsString Pay.ContractRow
  stores : OrderedMap JsString StoreRow
  audit : List MutationAudit

inductive TableChange
  | insertOrganization (row : Authz.Organization)
  | setOrganization (row : Authz.Organization)
  | insertDeletion (orgId receiptRef : JsString)
  | setContract (id : JsString) (row : Pay.ContractRow)
  | setGrant (key : Authz.GrantKey) (scope : Authz.GrantScope)
  | insertStore (id : JsString) (row : StoreRow)
  | appendAudit (entry : MutationAudit)

def TableChange.apply (change : TableChange) (tables : PlatformTables) : PlatformTables :=
  match change with
  | insertOrganization row | setOrganization row =>
      { tables with authz :=
          { tables.authz with organizations := tables.authz.organizations.set row.id row } }
  | insertDeletion orgId receiptRef =>
      { tables with deletions := tables.deletions.set orgId receiptRef }
  | setContract id row => { tables with contracts := tables.contracts.set id row }
  | setGrant key scope =>
      { tables with authz := { tables.authz with grants := tables.authz.grants.set key scope } }
  | insertStore id row => { tables with stores := tables.stores.set id row }
  | appendAudit entry => { tables with audit := tables.audit ++ [entry] }

inductive LockTarget
  | organization (id : JsString)
  | principal (id : JsString)
  | grant (key : Authz.GrantKey)
  | rootAdmin
  | deletion (orgId : JsString)
  | contract (id : JsString)
  | store (id : JsString)
  | token (operation tokenRef : JsString)
  | advisory (key : ℤ)
  deriving DecidableEq

inductive RowLock
  | keyShare
  | share
  | noKeyUpdate
  | update
  deriving DecidableEq

def RowLock.conflicts : RowLock → RowLock → Bool
  | keyShare, update | update, keyShare => true
  | keyShare, _ | _, keyShare => false
  | share, share => false
  | _, _ => true

theorem RowLock.conflicts_comm (left right : RowLock) :
    left.conflicts right = right.conflicts left := by
  cases left <;> cases right <;> rfl

inductive PlatformOp
  | randomUUID
  | now
  /-- `references.resolve`, over a connection of its own. -/
  | resolve (currencyId : JsString)
  | referenceRefused (orgId : JsString) (brandId mallId : Option JsString)

@[reducible]
def PlatformOp.Answer : PlatformOp → Type
  | randomUUID => JsString
  | now => Date
  | resolve _ => Pay.ReferenceAnswer
  | referenceRefused .. => Bool

abbrev platformSchema : LockSchema where
  Tables := PlatformTables
  Change := TableChange
  change := TableChange.apply
  Row := LockTarget
  Mode := RowLock
  conflicts := RowLock.conflicts
  Local := PlatformOp
  LocalAnswer := PlatformOp.Answer

instance : DecidableEq platformSchema.Row := inferInstanceAs (DecidableEq LockTarget)

inductive TransactionError
  | notFound
  | hierarchy
  | nameTaken
  | referenceNotFound
  | refused (reason : SafeWrite.CommitRefusal)
  | authz (error : Authz.AuthzError)
  | pay (error : Pay.Thrown)
  | typeError

inductive TransactionResult
  | storeCreated (id : JsString)
  | organizationCreated (id : JsString)
  | committed
  | granted
  | upserted

abbrev Transaction := Process (@Access.Answer platformSchema) TransactionError

abbrev Locks := platformSchema.Locks

def statement (demand : PlatformTables → Option Locks)
    (changes : PlatformTables → List TableChange) : Transaction PlatformTables :=
  Process.call (Access.access demand changes : Access platformSchema)

def ask (op : PlatformOp) : Transaction op.Answer :=
  Process.call (Access.own op : Access platformSchema)

/-- A plain `SELECT`. -/
def query : Transaction PlatformTables := statement (fun _ => some []) fun _ => []

/-- `pg_advisory_xact_lock` -/
def advisoryLock (key : ℤ) : Transaction PlatformTables :=
  statement (fun _ => some [(.advisory key, .update)]) fun _ => []

namespace PlatformTables

def organization? (tables : PlatformTables) (id : JsString) : Option Authz.Organization :=
  tables.authz.organizations.get? id

def isDeleted (tables : PlatformTables) (orgId : JsString) : Bool := tables.deletions.has orgId

/-- The locks of `SELECT id FROM organizations WHERE id = ANY(..)` with a locking clause. -/
def organizationLocks (tables : PlatformTables) (ids : List JsString) (mode : RowLock) : Locks :=
  (ids.filter tables.authz.organizations.has).map fun id => (.organization id, mode)

def foreignKey (tables : PlatformTables) (orgId : JsString) : Option Locks :=
  if tables.authz.organizations.has orgId then some [(.organization orgId, .keyShare)] else none

end PlatformTables

/-- A row of `SELECT org_id, role, scope FROM grants`. -/
structure GrantRow where
  orgId : JsString
  role : Authz.Role
  scope : Authz.GrantScope

def PlatformTables.grantRows (tables : PlatformTables) (principalId : JsString) : List GrantRow :=
  (tables.authz.grants.entries.filter fun grant => grant.1.1 = principalId).map fun grant =>
    ⟨grant.1.2.1, grant.1.2.2, grant.2⟩

def PlatformTables.grantLocks (tables : PlatformTables) (principalId : JsString) : Locks :=
  (tables.authz.grants.keys.filter fun key => key.1 = principalId).map fun key =>
    (.grant key, .share)

/-- The recursive term of the chain of parents. A chain of more organizations than there are
runs in a circle; there is none in the tree. -/
def PlatformTables.chain (tables : PlatformTables) : ℕ → Option JsString → List JsString
  | 0, _ | _, none => []
  | fuel + 1, some id =>
      match tables.organization? id with
      | none => []
      | some row => id :: tables.chain fuel row.parentOrgId

/-- `SELECT id FROM chain WHERE id <> $1` -/
def PlatformTables.ancestors (tables : PlatformTables) (orgId : JsString) : List JsString :=
  (tables.chain (tables.authz.organizations.size + 1) (some orgId)).filter (· ≠ orgId)

def PlatformTables.liveChildren (tables : PlatformTables) (orgId : JsString) :
    List (JsString × Authz.Organization) :=
  tables.authz.organizations.entries.filter fun child =>
    child.2.parentOrgId = some orgId && !tables.isDeleted child.1

structure DeletionCounts where
  liveSubOrganizations : ℕ
  livePayContracts : ℕ
  memberGrants : ℕ
  liveStores : ℕ

def PlatformTables.counts (tables : PlatformTables) (orgId : JsString) : DeletionCounts where
  liveSubOrganizations := (tables.liveChildren orgId).length
  livePayContracts := (tables.contracts.entries.filter fun contract =>
    contract.2.companyOrgId = orgId && contract.2.status ≠ .deleted).length
  memberGrants := (tables.authz.grants.entries.filter fun grant => grant.1.2.1 = orgId).length
  liveStores := (tables.stores.entries.filter fun store =>
    store.2.orgId = orgId && store.2.active).length

def organizationDeletionBlockers (counts : DeletionCounts) : List JsString :=
  (if counts.liveSubOrganizations > 0 then [js "live_sub_organizations"] else []) ++
  (if counts.livePayContracts > 0 then [js "live_pay_contracts"] else []) ++
  (if counts.memberGrants > 0 then [js "member_grants"] else []) ++
  (if counts.liveStores > 0 then [js "live_stores"] else [])

end StudentHub.Organizations

namespace StudentHub.Organizations

open Ecma JsString Concurrency Process

/-- The decisions and digests that the stores are configured with. -/
structure PlatformHost where
  /-- `hashtextextended` with its seed. -/
  hash : JsString → ℕ → ℤ
  /-- `hashtext` -/
  hashText : JsString → ℤ
  /-- `lower` -/
  lower : JsString → JsString
  tokenRef : Option JsString → JsString
  organizationAuditRef : JsString → Option JsString
  principalAuditRef : JsString → Option JsString
  principalRef : JsString → JsString
  recordRef : JsString → JsString
  deletionDecision : List GrantRow → JsString → List JsString → Bool
  storeDecision : List GrantRow → JsString → List JsString → Bool
  creationDecision : List GrantRow → JsString → List JsString → Bool
  parentAllowed : JsString → Option JsString → Bool
  contractDecision : List GrantRow → JsString → List JsString → Bool
  /-- `parse`: the payload of a safe write, normalized. -/
  parseContract : JsString → Except Pay.Thrown Pay.NormalizedPayContractCreate

variable (host : PlatformHost)

def require (check : Bool) (error : TransactionError) : Transaction Unit :=
  if check then returned () else thrown error

def fromOption {Value : Type} (value : Option Value) (error : TransactionError) : Transaction Value :=
  match value with
  | some value => returned value
  | none => thrown error

/-- `organizationLive` with its lock: the row first, and the deletions in a later statement. -/
def organizationLive (orgId : JsString) : Transaction Bool := do
  let locked ← statement (fun seen => some (seen.organizationLocks [orgId] .share)) fun _ => []
  if locked.authz.organizations.has orgId then do
    let seen ← query
    return !seen.isDeleted orgId
  else
    return false

def grantsAndAncestors (principalId orgId : JsString) :
    Transaction (List GrantRow × List JsString) := do
  let locked ← statement (fun seen => some (seen.grantLocks principalId)) fun _ => []
  let seen ← query
  return (locked.grantRows principalId, seen.ancestors orgId)

def ORGANIZATION_DELETION_OPERATION : JsString := js "organization.deletion.safe_write"
def ORGANIZATION_CREATE_OPERATION : JsString := js "organization.create"
def ORGANIZATION_STORE_CREATE_OPERATION : JsString := js "organization.store.create"
def PAY_CONTRACT_CREATE_SAFE_WRITE_OPERATION : JsString := js "pay_contract.create.safe_write"

def contractOperation : Pay.PayContractAuditOperation → JsString
  | .create => js "pay_contract.create"
  | .update => js "pay_contract.update"
  | .remove => js "pay_contract.remove"

def GRANTS_GRANT_OPERATION : JsString := js "grants.grant"

/-- `INSERT INTO authorization_mutation_audit`; the token of a safe write is a unique key. -/
def insertAudit (entry : MutationAudit) : Transaction PlatformTables :=
  statement
    (fun seen => match entry.tokenRef with
      | none => some []
      | some tokenRef =>
          if seen.audit.any fun other =>
              other.operation = entry.operation ∧ other.tokenRef = some tokenRef then
            none
          else
            some [(.token entry.operation tokenRef, .update)])
    fun _ => [.appendAudit entry]

def commitDeletion (principalId orgId : JsString) (input : SafeWrite.CommitInput) :
    Transaction TransactionResult := do
  let tokenRef := host.tokenRef input.tokenId
  let _ ← require (input.field = js "deletion" ∧ input.value = js "deleted" ∧
    input.receipt.fields = [input.field]) .typeError
  let _ ← advisoryLock (host.hash orgId 326)
  let locked ← statement (fun seen => some (seen.organizationLocks [orgId] .update)) fun _ => []
  let _ ← require (locked.authz.organizations.has orgId) (.refused .notOwnRecord)
  let orgRef ← fromOption (host.organizationAuditRef orgId) .typeError
  let seen ← query
  let _ ← require (!seen.audit.any fun entry => entry.operation = ORGANIZATION_DELETION_OPERATION ∧
    entry.tokenRef = some tokenRef ∧ entry.actorPrincipalRef = input.principalRef ∧
    entry.targetOrgRefs = [orgRef]) (.refused .tokenAlreadyUsed)
  let seen ← query
  let _ ← require (!seen.isDeleted orgId) (.refused .notOwnRecord)
  let (grants, ancestors) ← grantsAndAncestors principalId orgId
  let _ ← require (host.deletionDecision grants orgId ancestors) (.refused .notOwnRecord)
  let seen ← query
  let _ ← require (!seen.audit.any fun entry => entry.operation = ORGANIZATION_DELETION_OPERATION ∧
    entry.tokenRef = some tokenRef) (.refused .tokenAlreadyUsed)
  let _ ← require input.expectedBefore.isNone (.refused .stateChanged)
  let seen ← query
  let _ ← require (organizationDeletionBlockers (seen.counts orgId)).isEmpty (.refused .stateChanged)
  let _ ← statement
    (fun seen => if seen.isDeleted orgId then none else
      (seen.foreignKey orgId).map fun locks => (.deletion orgId, .update) :: locks)
    fun _ => [.insertDeletion orgId input.receipt.receiptRef]
  let _ ← insertAudit ⟨ORGANIZATION_DELETION_OPERATION, input.principalRef, [orgRef], some tokenRef⟩
  return .committed

structure StoreInput where
  name : JsString
  location : Option JsString
  brandId : Option JsString
  mallId : Option JsString

/-- `PostgresOrganizationStoresStore.create` -/
def createStore (principalId orgId : JsString) (input : StoreInput) :
    Transaction TransactionResult := do
  let _ ← advisoryLock (host.hash orgId 165)
  let live ← organizationLive orgId
  let _ ← require live .notFound
  let (grants, ancestors) ← grantsAndAncestors principalId orgId
  let _ ← require (host.storeDecision grants orgId ancestors) .notFound
  let refused ← ask (.referenceRefused orgId input.brandId input.mallId)
  let _ ← require (!refused) .referenceNotFound
  let storeId ← ask .randomUUID
  let actor ← fromOption (host.principalAuditRef principalId) .typeError
  let _ ← statement
    (fun seen => if seen.stores.has storeId then none else
      (seen.foreignKey orgId).map fun locks => (.store storeId, .update) :: locks)
    fun _ => [.insertStore storeId ⟨orgId, input.name, input.location, input.brandId, input.mallId,
      true⟩]
  let orgRef ← fromOption (host.organizationAuditRef orgId) .typeError
  let _ ← insertAudit ⟨ORGANIZATION_STORE_CREATE_OPERATION, actor, [orgRef], none⟩
  return .storeCreated storeId

/-- `PostgresOrganizationCreationStore.create` -/
def createOrganization (principalId parentId name : JsString) : Transaction TransactionResult := do
  let _ ← advisoryLock (host.hash parentId 163)
  let live ← organizationLive parentId
  let _ ← require live .notFound
  let (grants, ancestors) ← grantsAndAncestors principalId parentId
  let _ ← require (host.creationDecision grants parentId ancestors) .notFound
  let seen ← query
  let parent ← fromOption (seen.organization? parentId) .typeError
  let _ ← require (host.parentAllowed parentId parent.parentOrgId) .hierarchy
  let seen ← query
  let _ ← require (!(seen.liveChildren parentId).any fun child =>
    host.lower child.2.name = host.lower name) .nameTaken
  let orgId ← ask .randomUUID
  let _ ← statement
    (fun seen => if seen.authz.organizations.has orgId then none else
      (seen.foreignKey parentId).map fun locks => (.organization orgId, .update) :: locks)
    fun _ => [.insertOrganization ⟨orgId, name, some parentId⟩]
  let actor ← fromOption (host.principalAuditRef principalId) .typeError
  let orgRef ← fromOption (host.organizationAuditRef orgId) .typeError
  let _ ← insertAudit ⟨ORGANIZATION_CREATE_OPERATION, actor, [orgRef], none⟩
  return .organizationCreated orgId

/-- `transactionFor`: the operations of a pay contract's transaction. -/
def contractStatements (op : Pay.TxOp) : Transaction op.Answer :=
  match op with
  | .lockPair candidateId storeId => do
      let _ ← advisoryLock (host.hash (Pay.lockName (candidateId, storeId)) 5959)
      let seen ← query
      match (Pay.pairRows (candidateId, storeId) seen.contracts.entries).mapM Pay.fromRow with
      | .ok contracts => return contracts
      | .error error => thrown (.pay error)
  | .find id => do
      let seen ← statement
        (fun seen => some (if seen.contracts.has id then [(.contract id, .update)] else []))
        fun _ => []
      match seen.contracts.get? id with
      | none => return none
      | some row =>
          match Pay.fromRow (id, row) with
          | .ok contract => return some contract
          | .error error => thrown (.pay error)
  | .insert contract => do
      let _ ← statement
        (fun seen => if seen.contracts.has contract.id then none else
          (seen.foreignKey contract.companyId).map fun locks =>
            (.contract contract.id, .update) :: locks)
        fun _ => [.setContract contract.id (Pay.values contract)]
      return ()
  | .replace contract => do
      let matching (seen : PlatformTables) : Option Pay.ContractRow :=
        (seen.contracts.get? contract.id).filter (Pay.sameParties contract)
      let seen ← statement
        (fun seen => some (if (matching seen).isSome then [(.contract contract.id, .noKeyUpdate)]
          else []))
        fun seen => match matching seen with
          | some row => [.setContract contract.id (Pay.setColumns contract row)]
          | none => []
      require (matching seen).isSome (.pay (.error (js "pay contract not updated")))
  | .audit entry => do
      let actor ← fromOption (host.principalAuditRef entry.actorId) .typeError
      let orgRef ← fromOption (host.organizationAuditRef entry.companyId) .typeError
      let _ ← insertAudit ⟨contractOperation entry.operation, actor, [orgRef], none⟩
      return ()
  | .randomUUID => ask .randomUUID
  | .now => ask .now

def contractWork {Value : Type} : Process Pay.TxOp.Answer Pay.Thrown Value → Transaction Value
  | .returned value => returned value
  | .thrown error => thrown (.pay error)
  | .perform op next => (contractStatements host op).bind fun answer => contractWork (next answer)

/-- `payContractCreator`. The service normalizes the payload once more, which leaves a normalized
payload as it is. -/
def createContract (actorId companyId value : JsString) : Transaction Unit := do
  let fields ← match host.parseContract value with
    | .ok fields => returned fields
    | .error error => thrown (.pay error)
  let _ ← require (fields.companyId = companyId) .typeError
  let _ ← require (actorId ≠ []) (.pay (.payContract (js "unauthorized") 401))
  let resolved ← ask (.resolve fields.currencyId)
  let _ ← require (resolved = .resolved (some .active)) (.pay (.payContract (js "invalid_currency") 400))
  let date ← ask .now
  let now ← match Pay.isoText date with
    | .ok now => returned now
    | .error error => thrown (.pay error)
  let _ ← contractWork host (Pay.PayContracts.createWork actorId fields now)
  return ()

/-- The transaction of `PostgresPayContractSafeWriteStore.#commit`. -/
def commitContract (principalId companyId : JsString) (input : SafeWrite.CommitInput) :
    Transaction TransactionResult := do
  let tokenRef := host.tokenRef input.tokenId
  let _ ← require (input.field = js "pay_contract" ∧ input.receipt.fields = [input.field]) .typeError
  let _ ← advisoryLock (host.hash companyId 317)
  let live ← organizationLive companyId
  let _ ← require live (.refused .notOwnRecord)
  let (grants, ancestors) ← grantsAndAncestors principalId companyId
  let _ ← require (host.contractDecision grants companyId ancestors) (.refused .notOwnRecord)
  let seen ← query
  let _ ← require (!seen.audit.any fun entry =>
    entry.operation = PAY_CONTRACT_CREATE_SAFE_WRITE_OPERATION ∧ entry.tokenRef = some tokenRef)
    (.refused .tokenAlreadyUsed)
  let _ ← require input.expectedBefore.isNone (.refused .stateChanged)
  let _ ← createContract host principalId companyId input.value
  let orgRef ← fromOption (host.organizationAuditRef companyId) .typeError
  let _ ← insertAudit ⟨PAY_CONTRACT_CREATE_SAFE_WRITE_OPERATION, input.principalRef, [orgRef],
    some tokenRef⟩
  return .committed

/-- One row of the `INSERT .. ON CONFLICT` of `grantMany`: a grant that exists is locked and
widened, a new one needs its principal and its organization. -/
def upsertGrant (principalId : JsString) (entry : Authz.NormalizedGrantEntry) :
    Transaction PlatformTables :=
  let key : Authz.GrantKey := (principalId, entry.orgId, entry.role)
  let isRootAdmin : Bool := entry.orgId = js "root" && entry.role = .admin
  statement
    (fun seen => match seen.authz.grants.get? key with
      | some _ => some [(.grant key, .noKeyUpdate)]
      | none =>
          if !seen.authz.principals.has principalId || (isRootAdmin && seen.authz.hasRootAdmin) then
            none
          else
            (seen.foreignKey entry.orgId).map fun locks =>
              (.grant key, .update) :: (.principal principalId, .keyShare) ::
                (if isRootAdmin then [(.rootAdmin, .update)] else []) ++ locks)
    fun seen => match seen.authz.grants.get? key with
      | some held =>
          let scope := Authz.PostgresAuthzStore.conflictScope held entry.scope
          if held = scope then [] else [.setGrant key scope]
      | none => [.setGrant key entry.scope]

/-- The rows of the statement one after another; whether one of them changed anything. -/
def upsertGrants (principalId : JsString) :
    List Authz.NormalizedGrantEntry → Transaction Bool
  | [] => returned false
  | entry :: rest => do
      let seen ← upsertGrant principalId entry
      let key : Authz.GrantKey := (principalId, entry.orgId, entry.role)
      let changed := match seen.authz.grants.get? key with
        | some held => decide (held ≠ Authz.PostgresAuthzStore.conflictScope held entry.scope)
        | none => true
      let more ← upsertGrants principalId rest
      return changed || more

def grantMany (principalId : JsString) (entries : List Authz.GrantEntry) (actor : JsString) :
    Transaction TransactionResult :=
  match entries.mapM Authz.normalizeGrantEntry with
  | .error error => thrown (.authz error)
  | .ok normalized => do
      let merged := (Authz.PostgresAuthzStore.mergeEntries normalized).values
      let _ ← advisoryLock (host.hash principalId 5959)
      let _ ← query
      let changed ← upsertGrants principalId merged
      if changed then do
        let orgRefs ← fromOption (merged.mapM fun entry => host.organizationAuditRef entry.orgId)
          .typeError
        let _ ← query
        let _ ← insertAudit ⟨GRANTS_GRANT_OPERATION, actor, orgRefs, none⟩
        return .granted
      else
        return .granted

def upsertOrganization (org : Authz.Organization) : Transaction TransactionResult := do
  let _ ← advisoryLock (host.hashText (js "studenthub:organizations:tree"))
  let targets := org.id :: org.parentOrgId.toList
  let _ ← statement (fun seen => some (seen.organizationLocks targets .update)) fun _ => []
  let _ ← require (org.parentOrgId ≠ some org.id) (.authz (.ownParent org.id))
  match org.parentOrgId with
  | none => do
      let _ ← statement (fun _ => some [(.organization org.id, .update)])
        fun _ => [.setOrganization org]
      return .upserted
  | some parent => do
      let seen ← query
      let _ ← require (!seen.authz.walkHits parent org.id) (.authz (.organizationCycle org.id))
      -- The foreign key is checked for a new row and for a new parent only.
      let _ ← statement
        (fun seen => match seen.organization? org.id with
          | some old =>
              if old.parentOrgId = some parent then
                some [(.organization org.id, .noKeyUpdate)]
              else
                (seen.foreignKey parent).map fun locks =>
                  (.organization org.id, .noKeyUpdate) :: locks
          | none => (seen.foreignKey parent).map fun locks => (.organization org.id, .update) :: locks)
        fun _ => [.setOrganization org]
      return .upserted

inductive PlatformCall
  | commitDeletion (principalId orgId : JsString) (input : SafeWrite.CommitInput)
  | createStore (principalId orgId : JsString) (input : StoreInput)
  | createOrganization (principalId parentId name : JsString)
  | commitContract (principalId companyId : JsString) (input : SafeWrite.CommitInput)
  | grantMany (principalId : JsString) (entries : List Authz.GrantEntry) (actor : JsString)
  | upsertOrganization (org : Authz.Organization)

def PlatformCall.transaction : PlatformCall → Transaction TransactionResult
  | commitDeletion principalId orgId input => Organizations.commitDeletion host principalId orgId input
  | createStore principalId orgId input => Organizations.createStore host principalId orgId input
  | createOrganization principalId parentId name =>
      Organizations.createOrganization host principalId parentId name
  | commitContract principalId companyId input =>
      Organizations.commitContract host principalId companyId input
  | grantMany principalId entries actor => Organizations.grantMany host principalId entries actor
  | upsertOrganization org => Organizations.upsertOrganization host org

end StudentHub.Organizations
