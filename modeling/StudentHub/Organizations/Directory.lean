import StudentHub.Authz.ContextAgreement
import StudentHub.Organizations.Fields

/-!
# The company directory

Staff and admin list the companies their grants cover below the active organization, a
page at a time. The list holds top-level companies alone; each entry counts the covered
sub-organizations of its company. What a caller filters by is checked first.

`none` stands for a call whose descent in the organization tree does not end.
-/

/-!
## The organization repository

The repository reads organizations for a caller: which of them is decided by the
caller's grants in the authorization store, what is shown of them comes from an adapter
of snapshots and from record sources that may not be configured. A source that reads
for many organizations answers with a map, here a partial function of the organization.
-/

namespace StudentHub.Organizations

open Authz Ecma

structure OrganizationEngine where
  dates : DateParser
  /-- `left.localeCompare(right)` -/
  locale : Comparator JsString
  /-- `text.normalize("NFKC")` -/
  normalize : JsString → JsString
  /-- `text.toLocaleLowerCase("en")` -/
  toLocaleLowerCase : JsString → JsString

abbrev ReadMany (Record : Type) :=
  List JsString → Except OrganizationError (JsString → Option Record)

structure OrganizationStatusRecords where
  read : JsString → Except OrganizationError OrganizationStatusRecord
  readMany : Option (ReadMany OrganizationStatusRecord)

structure OrganizationCommercialTermsRecord where
  currencyCode : Option OrganizationCommercialTermRecord

inductive OrganizationApprovedToHireRecord
  | absent
  | value (value : Bool)
  deriving DecidableEq

structure OrganizationAccountManagerRecord where
  principalId : JsString
  displayName : Option JsString
  deriving DecidableEq

structure OrganizationDeletionRecords where
  deleted : JsString → Bool
  isDeleted : JsString → Except OrganizationError Bool
  deletedAmong : List JsString → Except OrganizationError (List JsString)
  isDeleted_ok : ∀ orgId answer, isDeleted orgId = .ok answer → answer = deleted orgId
  deletedAmong_ok : ∀ orgIds found, deletedAmong orgIds = .ok found →
    ∀ orgId, orgId ∈ found ↔ orgId ∈ orgIds ∧ deleted orgId = true

structure OrganizationRepository where
  engine : OrganizationEngine
  store : InMemoryAuthzStore
  readSnapshots : ReadMany ApprovedOrganizationSnapshot
  operators : List JsString
  statusRecords : Option OrganizationStatusRecords
  commercialTerms : Option (ReadMany OrganizationCommercialTermsRecord)
  approvedToHire : Option (ReadMany OrganizationApprovedToHireRecord)
  storeCounts : Option (ReadMany ℕ)
  accountManagers : Option (ReadMany OrganizationAccountManagerRecord)
  deletions : Option OrganizationDeletionRecords

structure OrganizationReadRequest where
  principalId : JsString
  orgId : JsString
  role : JsString

def companyChain (organizations : List Organization) (orgId : JsString)
    (operators : List JsString) : List JsString :=
  let chain := ancestorOrgIdsIncludingSelf organizations orgId
  if chain.getLast?.any (· ∈ operators) then chain.dropLast else chain

def companyParentOf (organizations : List Organization) (orgId : JsString)
    (operators : List JsString) : Except OrganizationError (Option JsString) :=
  let chain := companyChain organizations orgId operators
  let top := organizations.find? fun org => chain.getLast? = some org.id
  if chain = [] ∨ ∃ id ∈ chain, id ∈ operators then
    .error .notACompany
  else if (top.bind Organization.parentOrgId).any (· ∉ operators) then
    .error .incompleteAncestry
  else if 2 < chain.length then
    .error .deepSubOrganization
  else
    .ok chain[1]?

def coveredOrgIds (contexts : List EffectiveGrant) (role : JsString) (keep : JsString → Bool) :
    List JsString :=
  distinctBy id
    ((contexts.filter fun context => context.role.text = role ∧ keep context.orgId).map
      EffectiveGrant.orgId)

theorem mem_coveredOrgIds {contexts : List EffectiveGrant} {role orgId : JsString}
    {keep : JsString → Bool} : orgId ∈ coveredOrgIds contexts role keep ↔
      (∃ context ∈ contexts, context.orgId = orgId ∧ context.role.text = role) ∧
        keep orgId = true := by
  rw [coveredOrgIds, mem_distinctBy_id]
  simp only [List.mem_map, List.mem_filter, decide_eq_true_eq]
  constructor
  · rintro ⟨context, ⟨member, sameRole, kept⟩, rfl⟩
    exact ⟨⟨context, member, rfl, sameRole⟩, kept⟩
  · rintro ⟨⟨context, member, rfl, sameRole⟩, kept⟩
    exact ⟨context, ⟨member, sameRole, kept⟩, rfl⟩

namespace OrganizationRepository

def deleted (repository : OrganizationRepository) (orgId : JsString) : Bool :=
  repository.deletions.any fun deletions => deletions.deleted orgId

def isDeleted (repository : OrganizationRepository) (orgId : JsString) :
    Except OrganizationError Bool :=
  match repository.deletions with
  | some deletions => deletions.isDeleted orgId
  | none => .ok false

def deletedAmong (repository : OrganizationRepository) (orgIds : List JsString) :
    Except OrganizationError (List JsString) :=
  match repository.deletions with
  | some deletions => if orgIds = [] then .ok [] else deletions.deletedAmong orgIds
  | none => .ok []

theorem isDeleted_ok {repository : OrganizationRepository} {orgId : JsString} {answer : Bool}
    (read : repository.isDeleted orgId = .ok answer) : answer = repository.deleted orgId := by
  rw [isDeleted] at read
  rw [deleted]
  cases source : repository.deletions with
  | none =>
    rw [source] at read
    exact (Except.ok.inj read).symm
  | some deletions =>
    rw [source] at read
    exact deletions.isDeleted_ok orgId answer read

theorem deletedAmong_ok {repository : OrganizationRepository} {orgIds found : List JsString}
    (read : repository.deletedAmong orgIds = .ok found) (orgId : JsString) :
    orgId ∈ found ↔ orgId ∈ orgIds ∧ repository.deleted orgId = true := by
  rw [deletedAmong] at read
  rw [deleted]
  cases source : repository.deletions with
  | none =>
    rw [source] at read
    rw [← Except.ok.inj read]
    simp
  | some deletions =>
    simp only [source] at read
    split at read
    case isTrue empty =>
      rw [← Except.ok.inj read, empty]
      simp
    case isFalse => exact deletions.deletedAmong_ok orgIds found read orgId

def readBatch {Record : Type} (source : Option (ReadMany Record)) (orgIds : List JsString) :
    Except OrganizationError (Option (JsString → Option Record)) :=
  match source with
  | some readMany => if orgIds = [] then .ok none else (readMany orgIds).map some
  | none => .ok none

def snapshotsOf (repository : OrganizationRepository) (orgIds : List JsString) :
    Except OrganizationError (JsString → Option ApprovedOrganizationSnapshot) :=
  if orgIds = [] then .ok fun _ => none else repository.readSnapshots orgIds

def rowOf (repository : OrganizationRepository)
    (snapshots : JsString → Option ApprovedOrganizationSnapshot) (orgId : JsString)
    (parentOrgId : Option JsString) : Except OrganizationError (Option Row) :=
  snapshotRow repository.engine.dates ((snapshots orgId).getD .missing) orgId parentOrgId

def statusRecordOf (repository : OrganizationRepository)
    (records : Option (JsString → Option OrganizationStatusRecord)) (orgId : JsString) :
    Except OrganizationError (Option OrganizationStatusRecord) :=
  match records with
  | some records => .ok (some ((records orgId).getD .absent))
  | none =>
      match repository.statusRecords with
      | some source => (source.read orgId).map some
      | none => .ok none

end OrganizationRepository

def isAuthorizedAt (resolution : ContextResolution) (orgId role : JsString) : Bool :=
  match resolution with
  | .authorized context _ => context.orgId = orgId ∧ context.role.text = role
  | .denied _ => false

end StudentHub.Organizations

namespace StudentHub.Organizations

open Authz Ecma JsString

/-- The keys in `filters` and the value of `page` come from outside and are checked. -/
structure OrganizationDirectoryRequest extends OrganizationReadRequest where
  filters : Option Row
  page : JsValue

def ORGANIZATION_DIRECTORY_PAGE_SIZE : ℕ := 20

def ORGANIZATION_DIRECTORY_ROLES : List JsString := [Role.staff.text, Role.admin.text]

def DIRECTORY_STATUSES : List JsString :=
  [OrganizationStatus.active, .underReview, .inactive].map OrganizationStatus.text

/-- `/^[A-Za-z0-9._:-]{1,128}$/` -/
def isAccountManager (text : JsString) : Bool :=
  1 ≤ text.length && text.length ≤ 128 &&
    text.all fun unit => isLetter unit || isDigit unit || unit ∈ js "._:-"

def validDirectoryFilters (filters : Row) : Bool :=
  (filters.all fun property => property.1 ∈ [js "query", js "status", js "approvedToHire",
    js "currencyCode", js "accountManager"]) &&
  (match filters.get (js "query") with
    | .undefined => true
    | .string query => query.trim = query && query.length ≠ 0 && query.length ≤ 100
    | _ => false) &&
  (match filters.get (js "status") with
    | .undefined => true
    | .string status => status ∈ DIRECTORY_STATUSES
    | _ => false) &&
  (match filters.get (js "approvedToHire") with
    | .undefined | .boolean _ => true
    | _ => false) &&
  (match filters.get (js "accountManager") with
    | .undefined => true
    | .string manager => isAccountManager manager
    | _ => false) &&
  (match filters.get (js "currencyCode") with
    | .undefined => true
    | .string code => code.matchesClasses [isLetter, isLetter, isLetter]
    | _ => false)

def wantedManager (filters : Row) : Option JsString :=
  match filters.get (js "accountManager") with
  | .string manager => some manager
  | _ => none

structure OrganizationDirectoryEntry where
  orgId : JsString
  registryName : JsString
  subOrganizationCount : ℕ
  legalName : OrganizationField JsString
  commonNameEn : OrganizationField JsString
  commonNameAr : OrganizationField JsString
  currencyCode : OrganizationField JsString
  approvedToHire : OrganizationField Bool
  status : OrganizationField OrganizationStatus
  storeCount : Option ℕ
  accountManager : Option (Option OrganizationAccountManagerRecord)
  deriving DecidableEq

structure DirectoryBatches where
  records : Option (JsString → Option OrganizationStatusRecord)
  approved : Option (JsString → Option OrganizationApprovedToHireRecord)
  terms : Option (JsString → Option OrganizationCommercialTermsRecord)
  storeTotals : Option (JsString → Option ℕ)
  snapshots : JsString → Option ApprovedOrganizationSnapshot
  managers : Option (JsString → Option OrganizationAccountManagerRecord)

def snapshotField {Value : Type} (row : Option Row) (name : OrganizationFieldName)
    (parser : JsValue → Except OrganizationError Value) :
    Except OrganizationError (OrganizationField Value) :=
  match row with
  | none => .ok (unavailable name .notImported)
  | some row => plainField name parser row

def approvedField (row : Option Row) (record : OrganizationApprovedToHireRecord) :
    Except OrganizationError (OrganizationField Bool) :=
  match record with
  | .value value => .ok (available .approvedToHire value)
  | .absent => snapshotField row .approvedToHire flag

def directoryEntry (org : Organization) (row : Option Row) (subOrganizationCount : ℕ)
    (record : Option OrganizationStatusRecord)
    (approvedRecord : OrganizationApprovedToHireRecord)
    (terms : Option OrganizationCommercialTermsRecord) (storeCount : Option ℕ)
    (accountManager : Option (Option OrganizationAccountManagerRecord)) :
    Except OrganizationError OrganizationDirectoryEntry := do
  return {
    orgId := org.id
    registryName := org.name
    subOrganizationCount
    legalName := (← snapshotField row .legalName (text 255))
    commonNameEn := (← snapshotField row .commonNameEn (text 255))
    commonNameAr := (← snapshotField row .commonNameAr (text 255))
    currencyCode := (← storedCurrency row (terms.bind
      OrganizationCommercialTermsRecord.currencyCode))
    approvedToHire := (← approvedField row approvedRecord)
    status := (← shownStatus row record)
    storeCount
    accountManager }

def OrganizationEngine.searchable (engine : OrganizationEngine) (value : JsString) : JsString :=
  engine.toLocaleLowerCase (engine.normalize value)

def matchesDirectoryFilters (engine : OrganizationEngine) (entry : OrganizationDirectoryEntry)
    (filters : Row) : Bool :=
  (match filters.get (js "query") with
    | .string query =>
        let names := entry.registryName ::
          [entry.legalName, entry.commonNameEn, entry.commonNameAr].filterMap availableValue
        names.any fun name => engine.searchable query <:+: engine.searchable name
    | _ => true) &&
  (match filters.get (js "status") with
    | .string status => (availableValue entry.status).map OrganizationStatus.text = some status
    | _ => true) &&
  (match filters.get (js "approvedToHire") with
    | .boolean approved => availableValue entry.approvedToHire = some approved
    | _ => true) &&
  (match filters.get (js "currencyCode") with
    | .string code => availableValue entry.currencyCode = some code.toUpperCase
    | _ => true)

def OrganizationEngine.entryOrder (engine : OrganizationEngine) :
    Comparator OrganizationDirectoryEntry :=
  (engine.locale.onKey OrganizationDirectoryEntry.registryName).orElse
    (engine.locale.onKey OrganizationDirectoryEntry.orgId)

def ORGANIZATION_DIRECTORY_VERSION : JsString := js "studenthub.organization-directory.v1"

structure OrganizationDirectoryPage where
  version : JsString
  entries : List OrganizationDirectoryEntry
  page : ℕ
  pageSize : ℕ
  total : ℕ
  deriving DecidableEq

inductive OrganizationDirectoryResult
  | found (directory : OrganizationDirectoryPage)
  | invalid
  | notFound
  | unavailable
  deriving DecidableEq

def directoryPage (entries : List OrganizationDirectoryEntry) (page : ℕ) :
    OrganizationDirectoryPage where
  version := ORGANIZATION_DIRECTORY_VERSION
  entries := pageOf entries ORGANIZATION_DIRECTORY_PAGE_SIZE (page - 1)
  page
  pageSize := ORGANIZATION_DIRECTORY_PAGE_SIZE
  total := entries.length

def countChild (covered : List JsString) (counts : OrderedMap JsString ℕ) (child : Organization) :
    OrderedMap JsString ℕ :=
  match child.parentOrgId with
  | some parent =>
      if child.id ∈ covered then counts.set parent ((counts.get? parent).getD 0 + 1) else counts
  | none => counts

def coveredChildCounts (organizations : List Organization) (covered : List JsString) :
    OrderedMap JsString ℕ :=
  organizations.foldl (countChild covered) .empty

def shownCompanies (organizations : List Organization) (covered operators : List JsString) :
    Except OrganizationError (List Organization) :=
  collectM (fun org =>
    if org.id ∈ covered then do
      return if (← companyParentOf organizations org.id operators) = none then some org else none
    else
      .ok none) organizations

namespace OrganizationRepository

/-- The covered organizations that the active context bounds, without operators and deleted ones. -/
def directoryCovered (repository : OrganizationRepository) (role : JsString)
    (contexts : List EffectiveGrant) (within : List JsString) :
    Except OrganizationError (List JsString) := do
  let covered := coveredOrgIds contexts role fun orgId =>
    orgId ∈ within ∧ orgId ∉ repository.operators
  let deletedIds ← repository.deletedAmong covered
  return covered.filter fun orgId => orgId ∉ deletedIds

/-- The batched reads for the companies shown. Account managers may fail when no filter needs
them. -/
def readBatches (repository : OrganizationRepository) (filters : Row) (orgIds : List JsString) :
    Except OrganizationError DirectoryBatches := do
  let records ← readBatch (repository.statusRecords.bind OrganizationStatusRecords.readMany) orgIds
  let approved ← readBatch repository.approvedToHire orgIds
  let terms ← readBatch repository.commercialTerms orgIds
  let storeTotals ← readBatch repository.storeCounts orgIds
  let snapshots ← repository.snapshotsOf orgIds
  let managers ← match readBatch repository.accountManagers orgIds with
    | .ok managers => pure managers
    | .error error => if (wantedManager filters).isSome then throw error else pure none
  return { records, approved, terms, storeTotals, snapshots, managers }

def directoryPass (repository : OrganizationRepository) (filters : Row)
    (childCounts : OrderedMap JsString ℕ) (batches : DirectoryBatches) (org : Organization) :
    Except OrganizationError (Option OrganizationDirectoryEntry) :=
  let manager := batches.managers.bind fun managers => managers org.id
  if (wantedManager filters).any fun wanted =>
      manager.map OrganizationAccountManagerRecord.principalId ≠ some wanted then
    .ok none
  else do
    let row ← repository.rowOf batches.snapshots org.id none
    let record ← repository.statusRecordOf batches.records org.id
    let entry ← directoryEntry org row ((childCounts.get? org.id).getD 0) record
      ((batches.approved.bind fun approved => approved org.id).getD .absent)
      (batches.terms.bind fun terms => terms org.id)
      (batches.storeTotals.map fun totals => (totals org.id).getD 0)
      (batches.managers.map fun managers => managers org.id)
    return if matchesDirectoryFilters repository.engine entry filters then some entry else none

def directoryEntries (repository : OrganizationRepository) (role : JsString) (filters : Row)
    (contexts : List EffectiveGrant) (within : List JsString) :
    Except OrganizationError (List OrganizationDirectoryEntry) := do
  let organizations := repository.store.listOrganizations
  let covered ← repository.directoryCovered role contexts within
  let shown ← shownCompanies organizations covered repository.operators
  let batches ← repository.readBatches filters (shown.map Organization.id)
  let entries ← collectM
    (repository.directoryPass filters (coveredChildCounts organizations covered) batches) shown
  return repository.engine.entryOrder.sort entries

def listOrganizations (repository : OrganizationRepository)
    (request : OrganizationDirectoryRequest) : Option OrganizationDirectoryResult :=
  let filters := request.filters.getD []
  if request.role ∉ ORGANIZATION_DIRECTORY_ROLES then
    some .notFound
  else
    match positiveInteger (request.page.orElse (.number (.ofNat 1))) with
    | none => some .invalid
    | some page =>
        if !validDirectoryFilters filters then
          some .invalid
        else do
          let resolution ← resolveActiveContext (.principal request.principalId)
            (some ⟨some request.orgId, some request.role⟩) repository.store
          if !isAuthorizedAt resolution request.orgId request.role then
            return .notFound
          let contexts ← listEffectiveContexts (.principal request.principalId) repository.store
          match repository.isDeleted request.orgId with
          | .error _ => return .unavailable
          | .ok true => return .notFound
          | .ok false =>
              if (wantedManager filters).isSome ∧ repository.accountManagers.isNone then
                return .unavailable
              let within ← descendantOrgIdsIncludingSelf repository.store.listOrganizations
                request.orgId
              match repository.directoryEntries request.role filters contexts within with
              | .error _ => return .unavailable
              | .ok entries => return .found (directoryPage entries page.value)

end OrganizationRepository

end StudentHub.Organizations
