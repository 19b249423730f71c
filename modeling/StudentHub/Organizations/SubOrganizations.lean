import StudentHub.Organizations.Pages

/-!
# Sub-organizations of a company

Three reads tell how many sub-organizations a company has: the entry of the directory
counts them in a map, the list shows each with its status, and the counts count ids.
They agree on the number. The list also reads the snapshot of every child and refuses
all of them when one is malformed or disagrees with the registry, where the directory
and the counts do not look.
-/

namespace StudentHub.Organizations

open Authz Ecma Graph Relation

inductive OrganizationAudience
  | employer
  | staff
  | admin
  deriving DecidableEq

def ORGANIZATION_AUDIENCE_BY_ROLE (role : JsString) : Option OrganizationAudience :=
  match isRole role with
  | some .orgOwner | some .recruiter => some .employer
  | some .staff => some .staff
  | some .admin => some .admin
  | _ => none

structure SubOrganizationSummary where
  orgId : JsString
  registryName : JsString
  status : OrganizationField OrganizationStatus
  deriving DecidableEq

inductive SubOrganizationListResult
  | found (subOrganizations : List SubOrganizationSummary)
  | notFound
  | unavailable
  deriving DecidableEq

structure OrganizationCounts where
  stores : Option ℕ
  subOrganizations : ℕ
  deriving DecidableEq

inductive OrganizationCountsResult
  | found (counts : OrganizationCounts)
  | notFound
  | unavailable
  deriving DecidableEq

def OrganizationEngine.summaryOrder (engine : OrganizationEngine) :
    Comparator SubOrganizationSummary :=
  (engine.locale.onKey SubOrganizationSummary.registryName).orElse
    (engine.locale.onKey SubOrganizationSummary.orgId)

namespace OrganizationRepository

def authorize (repository : OrganizationRepository) (request : OrganizationReadRequest) :
    Option (Except OrganizationError (Option OrganizationAudience)) :=
  if request.orgId ∈ repository.operators then
    some (.ok none)
  else
    match ORGANIZATION_AUDIENCE_BY_ROLE request.role with
    | none => some (.ok none)
    | some audience => do
        let resolution ← resolveActiveContext (.principal request.principalId)
          (some ⟨some request.orgId, some request.role⟩) repository.store
        if isAuthorizedAt resolution request.orgId request.role then
          return (repository.isDeleted request.orgId).map fun deleted =>
            if deleted then none else some audience
        else
          return .ok none

def childrenOf (repository : OrganizationRepository) (orgId : JsString) :
    Except OrganizationError (List Organization) := do
  let organizations := repository.store.listOrganizations
  let parentOrgId ← companyParentOf organizations orgId repository.operators
  let children := organizations.filter fun org => org.parentOrgId = some orgId
  if parentOrgId.isSome ∧ children ≠ [] then
    throw .nestedSubOrganizations
  return children

def coveredChildIds (repository : OrganizationRepository) (contexts : List EffectiveGrant)
    (role : JsString) (children : List Organization) : List JsString :=
  let covered := coveredOrgIds contexts role fun _ => true
  (children.filter fun child => child.id ∉ repository.operators ∧ child.id ∈ covered).map
    Organization.id

def subOrganizationSummary (repository : OrganizationRepository) (orgId : JsString)
    (snapshots : JsString → Option ApprovedOrganizationSnapshot)
    (records : Option (JsString → Option OrganizationStatusRecord)) (child : Organization) :
    Except OrganizationError SubOrganizationSummary := do
  let row ← repository.rowOf snapshots child.id (some orgId)
  let record ← repository.statusRecordOf records child.id
  return ⟨child.id, child.name, ← shownStatus row record⟩

def subOrganizationSummaries (repository : OrganizationRepository)
    (request : OrganizationReadRequest) (children : List Organization)
    (contexts : List EffectiveGrant) : Except OrganizationError (List SubOrganizationSummary) := do
  let covered := coveredOrgIds contexts request.role fun _ => true
  let deletedIds ← repository.deletedAmong
    (repository.coveredChildIds contexts request.role children)
  let visibleChildren := children.filter fun child =>
    child.id ∉ repository.operators ∧ child.id ∈ covered ∧ child.id ∉ deletedIds
  let ids := visibleChildren.map Organization.id
  let snapshots ← repository.snapshotsOf ids
  let records ← readBatch (repository.statusRecords.bind OrganizationStatusRecords.readMany) ids
  let summaries ← visibleChildren.mapM
    (repository.subOrganizationSummary request.orgId snapshots records)
  return repository.engine.summaryOrder.sort summaries

def listSubOrganizations (repository : OrganizationRepository)
    (request : OrganizationReadRequest) : Option SubOrganizationListResult := do
  match (← repository.authorize request) with
  | .error _ => return .unavailable
  | .ok none => return .notFound
  | .ok (some _) =>
      match repository.childrenOf request.orgId with
      | .error _ => return .unavailable
      | .ok children =>
          let contexts ← listEffectiveContexts (.principal request.principalId) repository.store
          match repository.subOrganizationSummaries request children contexts with
          | .error _ => return .unavailable
          | .ok summaries => return .found summaries

def storesOf (repository : OrganizationRepository) (orgId : JsString) :
    Except OrganizationError (Option ℕ) :=
  match repository.storeCounts with
  | some countMany => (countMany [orgId]).map fun totals => some ((totals orgId).getD 0)
  | none => .ok none

def organizationCounts (repository : OrganizationRepository)
    (request : OrganizationReadRequest) (children : List Organization)
    (contexts : List EffectiveGrant) : Except OrganizationError OrganizationCounts := do
  let coveredChildIds := repository.coveredChildIds contexts request.role children
  let deletedIds ← repository.deletedAmong coveredChildIds
  let subOrganizations := (coveredChildIds.filter fun orgId => orgId ∉ deletedIds).length
  return ⟨← repository.storesOf request.orgId, subOrganizations⟩

def readCounts (repository : OrganizationRepository) (request : OrganizationReadRequest) :
    Option OrganizationCountsResult := do
  match (← repository.authorize request) with
  | .error _ => return .unavailable
  | .ok audience =>
      if audience ≠ some .admin then
        return .notFound
      else
        match repository.childrenOf request.orgId with
        | .error _ => return .unavailable
        | .ok children =>
            let contexts ← listEffectiveContexts (.principal request.principalId) repository.store
            match repository.organizationCounts request children contexts with
            | .error _ => return .unavailable
            | .ok counts => return .found counts

def coveredChildren (repository : OrganizationRepository) (contexts : List EffectiveGrant)
    (role orgId : JsString) : List Organization :=
  repository.store.listOrganizations.filter fun child => child.parentOrgId = some orgId ∧
    child.id ∉ repository.operators ∧ child.id ∈ coveredOrgIds contexts role fun _ => true

def visibleChildren (repository : OrganizationRepository) (contexts : List EffectiveGrant)
    (role orgId : JsString) : List Organization :=
  (repository.coveredChildren contexts role orgId).filter fun child =>
    repository.deleted child.id = false

structure CountsReadable (repository : OrganizationRepository)
    (request : OrganizationReadRequest) (contexts : List EffectiveGrant) : Prop where
  own : ∃ answer, repository.isDeleted request.orgId = .ok answer
  deletions : ∃ found, repository.deletedAmong
    ((repository.coveredChildren contexts request.role request.orgId).map Organization.id) =
      .ok found
  stores : ∃ total, repository.storesOf request.orgId = .ok total

/-- The deletion records can be read, and of every visible child a well-formed snapshot and
status record. -/
structure SummariesReadable (repository : OrganizationRepository)
    (request : OrganizationReadRequest) (contexts : List EffectiveGrant) : Prop where
  own : ∃ answer, repository.isDeleted request.orgId = .ok answer
  deletions : ∃ found, repository.deletedAmong
    ((repository.coveredChildren contexts request.role request.orgId).map Organization.id) =
      .ok found
  sources : ∃ snapshots records,
    repository.snapshotsOf ((repository.visibleChildren contexts request.role request.orgId).map
      Organization.id) = .ok snapshots ∧
    readBatch (repository.statusRecords.bind OrganizationStatusRecords.readMany)
      ((repository.visibleChildren contexts request.role request.orgId).map Organization.id) =
        .ok records ∧
    ∀ child ∈ repository.visibleChildren contexts request.role request.orgId, ∃ summary,
      repository.subOrganizationSummary request.orgId snapshots records child = .ok summary

variable {repository : OrganizationRepository} {request : OrganizationReadRequest}
variable {contexts : List EffectiveGrant}

/-- What an organization in the directory of an admin is to the other two reads. -/
structure OpenTo (repository : OrganizationRepository) (request : OrganizationReadRequest)
    (contexts : List EffectiveGrant) : Prop where
  admin : request.role = Role.admin.text
  expanded : listEffectiveContexts (.principal request.principalId) repository.store =
    some contexts
  covered : ∃ context ∈ contexts, context.orgId = request.orgId ∧
    context.role.text = request.role
  notOperator : request.orgId ∉ repository.operators
  notDeleted : repository.deleted request.orgId = false
  topLevel : companyParentOf repository.store.listOrganizations request.orgId
    repository.operators = .ok none

theorem OpenTo.authorize (opened : repository.OpenTo request contexts)
    (reachable : repository.store.Reachable) :
    repository.authorize request =
      some ((repository.isDeleted request.orgId).map fun _ => some .admin) := by
  rcases opened.covered with ⟨context, member, atOrg, named⟩
  have isAdmin : context.role = .admin := Role.text_injective (named.trans opened.admin)
  cases known : resolvePrincipalId (.principal request.principalId) repository.store with
  | none =>
    have expanded := opened.expanded
    rw [listEffectiveContexts, known, Option.some.injEq] at expanded
    subst expanded
    cases member
  | some principalId =>
    rcases contexts_agree reachable known request.orgId .admin with
      ⟨others, resolution, expanded, resolved, agree⟩
    rw [opened.expanded, Option.some.injEq] at expanded
    subst expanded
    rcases agree.authorized_iff.mpr ⟨context, member, atOrg, isAdmin⟩ with ⟨active, roles, rfl⟩
    have sameContext := agree.same active roles rfl context member atOrg isAdmin
    have authorized : isAuthorizedAt (.authorized active roles) request.orgId request.role := by
      rw [sameContext, opened.admin]
      simp [isAuthorizedAt]
    have audience : ORGANIZATION_AUDIENCE_BY_ROLE request.role = some .admin := by
      rw [opened.admin]
      rfl
    rw [← opened.admin] at resolved
    rw [OrganizationRepository.authorize, if_neg opened.notOperator, audience]
    simp only [resolved, Option.bind_eq_bind, Option.bind_some, authorized, if_true]
    cases read : repository.isDeleted request.orgId with
    | error error => rfl
    | ok answer =>
      rw [isDeleted_ok read, opened.notDeleted]
      rfl

theorem OpenTo.childrenOf_eq (opened : repository.OpenTo request contexts) :
    repository.childrenOf request.orgId = .ok (repository.store.listOrganizations.filter fun org =>
      org.parentOrgId = some request.orgId) := by
  rw [childrenOf, opened.topLevel]
  rfl

theorem coveredChildIds_eq (contexts : List EffectiveGrant) (role orgId : JsString) :
    repository.coveredChildIds contexts role (repository.store.listOrganizations.filter fun org =>
        org.parentOrgId = some orgId) =
      (repository.coveredChildren contexts role orgId).map Organization.id := by
  rw [coveredChildIds, coveredChildren, List.filter_filter]
  congr 1
  apply List.filter_congr
  intro child _
  rw [Bool.eq_iff_iff]
  simp only [Bool.and_eq_true, decide_eq_true_eq]
  exact and_comm

theorem visible_eq {deletedIds : List JsString}
    (read : repository.deletedAmong ((repository.coveredChildren contexts request.role
      request.orgId).map Organization.id) = .ok deletedIds) :
    ((repository.store.listOrganizations.filter fun org =>
        org.parentOrgId = some request.orgId).filter fun child =>
      child.id ∉ repository.operators ∧
        (child.id ∈ coveredOrgIds contexts request.role fun _ => true) ∧
          child.id ∉ deletedIds) =
      repository.visibleChildren contexts request.role request.orgId := by
  rw [visibleChildren, coveredChildren, List.filter_filter, List.filter_filter]
  apply List.filter_congr
  intro child listed
  rw [Bool.eq_iff_iff]
  simp only [Bool.and_eq_true, decide_eq_true_eq, deletedAmong_ok read, coveredChildren,
    List.mem_map, List.mem_filter, not_and, Bool.not_eq_true]
  constructor
  · rintro ⟨⟨notOperator, isCovered, notDeleted⟩, below⟩
    exact ⟨notDeleted ⟨child, ⟨listed, below, notOperator, isCovered⟩, rfl⟩, below, notOperator,
      isCovered⟩
  · rintro ⟨notDeleted, below, notOperator, isCovered⟩
    exact ⟨⟨notOperator, isCovered, fun _ => notDeleted⟩, below⟩

theorem length_visible_eq {deletedIds : List JsString}
    (read : repository.deletedAmong ((repository.coveredChildren contexts request.role
      request.orgId).map Organization.id) = .ok deletedIds) :
    (((repository.coveredChildren contexts request.role request.orgId).map
        Organization.id).filter fun orgId => orgId ∉ deletedIds).length =
      (repository.visibleChildren contexts request.role request.orgId).length := by
  rw [List.filter_map, List.length_map, visibleChildren]
  congr 1
  apply List.filter_congr
  intro child member
  rw [Function.comp_apply, Bool.eq_iff_iff]
  simp only [decide_eq_true_eq, deletedAmong_ok read, not_and, Bool.not_eq_true]
  constructor
  · intro notDeleted
    exact notDeleted (List.mem_map_of_mem member)
  · intro notDeleted _
    exact notDeleted

def countsOf (repository : OrganizationRepository) (request : OrganizationReadRequest)
    (contexts : List EffectiveGrant) : Except OrganizationError OrganizationCounts := do
  let _ ← repository.isDeleted request.orgId
  let _ ← repository.deletedAmong
    ((repository.coveredChildren contexts request.role request.orgId).map Organization.id)
  return ⟨← repository.storesOf request.orgId,
    (repository.visibleChildren contexts request.role request.orgId).length⟩

def summariesOf (repository : OrganizationRepository) (request : OrganizationReadRequest)
    (contexts : List EffectiveGrant) : Except OrganizationError (List SubOrganizationSummary) := do
  let _ ← repository.isDeleted request.orgId
  let _ ← repository.deletedAmong
    ((repository.coveredChildren contexts request.role request.orgId).map Organization.id)
  let children := repository.visibleChildren contexts request.role request.orgId
  let snapshots ← repository.snapshotsOf (children.map Organization.id)
  let records ← readBatch (repository.statusRecords.bind OrganizationStatusRecords.readMany)
    (children.map Organization.id)
  let summaries ← children.mapM
    (repository.subOrganizationSummary request.orgId snapshots records)
  return repository.engine.summaryOrder.sort summaries

theorem subOrganizationSummaries_eq {answer : Bool}
    (own : repository.isDeleted request.orgId = .ok answer) :
    repository.subOrganizationSummaries request (repository.store.listOrganizations.filter
        fun org => org.parentOrgId = some request.orgId) contexts =
      repository.summariesOf request contexts := by
  rw [subOrganizationSummaries, coveredChildIds_eq, summariesOf, own]
  cases deletions : repository.deletedAmong ((repository.coveredChildren contexts request.role
      request.orgId).map Organization.id) with
  | error error => rfl
  | ok deletedIds =>
    rw [← visible_eq deletions]
    rfl

theorem OpenTo.readCounts_eq (opened : repository.OpenTo request contexts)
    (reachable : repository.store.Reachable) : repository.readCounts request =
      some (match repository.countsOf request contexts with
        | .error _ => .unavailable
        | .ok counts => .found counts) := by
  rw [readCounts, opened.authorize reachable, opened.childrenOf_eq, countsOf]
  cases own : repository.isDeleted request.orgId with
  | error error => rfl
  | ok answer =>
    simp only [Except.map, Option.bind_eq_bind, Option.bind_some, ne_eq, not_true_eq_false,
      if_false, opened.expanded, organizationCounts, coveredChildIds_eq]
    cases deletions : repository.deletedAmong ((repository.coveredChildren contexts request.role
        request.orgId).map Organization.id) with
    | error error => rfl
    | ok deletedIds =>
      cases stores : repository.storesOf request.orgId with
      | error error => rfl
      | ok total =>
        rw [← length_visible_eq deletions]
        rfl

theorem OpenTo.listSubOrganizations_eq (opened : repository.OpenTo request contexts)
    (reachable : repository.store.Reachable) : repository.listSubOrganizations request =
      some (match repository.summariesOf request contexts with
        | .error _ => .unavailable
        | .ok summaries => .found summaries) := by
  rw [listSubOrganizations, opened.authorize reachable, opened.childrenOf_eq]
  cases own : repository.isDeleted request.orgId with
  | error error =>
    rw [summariesOf, own]
    rfl
  | ok answer =>
    simp only [Except.map, Option.bind_eq_bind, Option.bind_some, opened.expanded,
      subOrganizationSummaries_eq own]
    cases repository.summariesOf request contexts <;> rfl

theorem countsOf_ok {counts : OrganizationCounts}
    (read : repository.countsOf request contexts = .ok counts) :
    repository.CountsReadable request contexts ∧
      counts.subOrganizations =
        (repository.visibleChildren contexts request.role request.orgId).length := by
  rcases bind_eq_ok_iff.mp read with ⟨answer, own, read⟩
  rcases bind_eq_ok_iff.mp read with ⟨found, deletions, read⟩
  rcases bind_eq_ok_iff.mp read with ⟨total, stores, read⟩
  rw [← Except.ok.inj read]
  exact ⟨⟨⟨answer, own⟩, ⟨found, deletions⟩, ⟨total, stores⟩⟩, rfl⟩

theorem CountsReadable.countsOf (readable : repository.CountsReadable request contexts) :
    ∃ counts, repository.countsOf request contexts = .ok counts := by
  rcases readable with ⟨⟨answer, own⟩, ⟨found, deletions⟩, ⟨total, stores⟩⟩
  rw [OrganizationRepository.countsOf, own, deletions, stores]
  exact ⟨_, rfl⟩

theorem summariesOf_ok {summaries : List SubOrganizationSummary}
    (read : repository.summariesOf request contexts = .ok summaries) :
    repository.SummariesReadable request contexts ∧
      summaries.length =
        (repository.visibleChildren contexts request.role request.orgId).length := by
  rcases bind_eq_ok_iff.mp read with ⟨answer, own, read⟩
  rcases bind_eq_ok_iff.mp read with ⟨found, deletions, read⟩
  rcases bind_eq_ok_iff.mp read with ⟨snapshots, readSnapshots, read⟩
  rcases bind_eq_ok_iff.mp read with ⟨records, readRecords, read⟩
  rcases bind_eq_ok_iff.mp read with ⟨unsorted, mapped, read⟩
  rw [← Except.ok.inj read, Comparator.length_sort]
  refine ⟨⟨⟨answer, own⟩, ⟨found, deletions⟩, snapshots, records, readSnapshots, readRecords, ?_⟩,
    length_of_mapM_eq_ok mapped⟩
  intro child member
  rcases exists_mem_of_mapM_eq_ok mapped member with ⟨summary, -, made⟩
  exact ⟨summary, made⟩

theorem SummariesReadable.summariesOf (readable : repository.SummariesReadable request contexts) :
    ∃ summaries, repository.summariesOf request contexts = .ok summaries := by
  rcases readable with ⟨⟨answer, own⟩, ⟨found, deletions⟩, snapshots, records, readSnapshots,
    readRecords, made⟩
  rcases mapM_ok_of_forall_exists made with ⟨summaries, mapped⟩
  rw [OrganizationRepository.summariesOf, own, deletions]
  exact ⟨_, bind_eq_ok_iff.mpr ⟨answer, rfl, bind_eq_ok_iff.mpr ⟨found, rfl,
    bind_eq_ok_iff.mpr ⟨snapshots, readSnapshots, bind_eq_ok_iff.mpr ⟨records, readRecords,
      bind_eq_ok_iff.mpr ⟨summaries, mapped, rfl⟩⟩⟩⟩⟩⟩

theorem childrenCount_eq {request : OrganizationDirectoryRequest} {covered : List JsString}
    (covers : ∀ org ∈ repository.store.listOrganizations,
      org.id ∈ covered ↔ repository.IsCovered request contexts org) {company : Organization}
    (isCovered : repository.IsCovered request contexts company) :
    childrenCount repository.store.listOrganizations covered company.id =
      (repository.visibleChildren contexts request.role company.id).length := by
  rw [childrenCount, visibleChildren, coveredChildren, List.filter_filter]
  congr 1
  apply List.filter_congr
  intro child listed
  rw [Bool.eq_iff_iff]
  simp only [Bool.and_eq_true, decide_eq_true_eq, mem_coveredOrgIds, and_true, covers child listed]
  constructor
  · rintro ⟨below, visible⟩
    exact ⟨visible.notDeleted, below, visible.notOperator, visible.covered⟩
  · rintro ⟨notDeleted, below, notOperator, inContexts⟩
    have path := ReflTransGen.head ⟨child, listed, rfl, below⟩ isCovered.below
    exact ⟨below, listed, notOperator, notDeleted, path, inContexts⟩

def readOf (request : OrganizationDirectoryRequest) (orgId : JsString) : OrganizationReadRequest :=
  { request.toOrganizationReadRequest with orgId }

/-- An entry of the directory of an admin is open to the other reads, and counts the visible
children. -/
theorem openTo_of_listed {request : OrganizationDirectoryRequest}
    (reachable : repository.store.Reachable) (admin : request.role = Role.admin.text)
    {directory : OrganizationDirectoryPage}
    (found : repository.listOrganizations request = some (.found directory))
    {entry : OrganizationDirectoryEntry} (listed : entry ∈ directory.entries) :
    ∃ contexts, repository.OpenTo (readOf request entry.orgId) contexts ∧
      entry.subOrganizationCount =
        (repository.visibleChildren contexts request.role entry.orgId).length := by
  rcases listOrganizations_found found with ⟨page, contexts, within, entries, -, lists, rfl⟩
  have valid := reachable.valid
  rcases directoryEntries_spec valid.distinctIds valid.acyclic_parentOf lists.descent lists.read
    with ⟨-, -, covered, companies, batches, shows⟩
  have isEntry : entry ∈ entries := List.mem_of_mem_drop (List.mem_of_mem_take listed)
  rcases (shows.shown_iff entry).mp isEntry with ⟨org, isCompany, -, own, -⟩
  have company := (shows.companies_iff org).mp isCompany
  rw [own.orgId_eq.1, own.orgId_eq.2]
  exact ⟨contexts, ⟨admin, lists.expanded, company.covered, company.notOperator,
    company.notDeleted, company.topLevel⟩, childrenCount_eq shows.covered_iff company.toIsCovered⟩

/-- What the counts and the list answer for a company with an entry in the directory. -/
structure ReadsAgree (repository : OrganizationRepository) (request : OrganizationReadRequest)
    (contexts : List EffectiveGrant) (subOrganizationCount : ℕ) : Prop where
  counts : repository.CountsReadable request contexts → ∃ counts,
    repository.readCounts request = some (.found counts) ∧
      counts.subOrganizations = subOrganizationCount
  noCounts : ¬repository.CountsReadable request contexts →
    repository.readCounts request = some .unavailable
  list : repository.SummariesReadable request contexts → ∃ summaries,
    repository.listSubOrganizations request = some (.found summaries) ∧
      summaries.length = subOrganizationCount
  noList : ¬repository.SummariesReadable request contexts →
    repository.listSubOrganizations request = some .unavailable

/-- For a company in the directory of an admin, the counts and the list are found exactly when
what they read can be read, are unavailable otherwise, and agree with the entry. -/
theorem subOrganizations_agree {request : OrganizationDirectoryRequest}
    (reachable : repository.store.Reachable) (admin : request.role = Role.admin.text)
    {directory : OrganizationDirectoryPage}
    (found : repository.listOrganizations request = some (.found directory))
    {entry : OrganizationDirectoryEntry} (listed : entry ∈ directory.entries) :
    ∃ contexts, listEffectiveContexts (.principal request.principalId) repository.store =
        some contexts ∧
      repository.ReadsAgree (readOf request entry.orgId) contexts entry.subOrganizationCount := by
  rcases openTo_of_listed reachable admin found listed with ⟨contexts, opened, sameCount⟩
  have counts := opened.readCounts_eq reachable
  have list := opened.listSubOrganizations_eq reachable
  rw [sameCount]
  refine ⟨contexts, opened.expanded, ?_, ?_, ?_, ?_⟩
  · intro readable
    rcases readable.countsOf with ⟨found, read⟩
    rw [read] at counts
    exact ⟨found, counts, (countsOf_ok read).2⟩
  · intro unreadable
    rw [counts]
    cases read : repository.countsOf (readOf request entry.orgId) contexts with
    | error error => rfl
    | ok found => exact absurd (countsOf_ok read).1 unreadable
  · intro readable
    rcases readable.summariesOf with ⟨found, read⟩
    rw [read] at list
    exact ⟨found, list, (summariesOf_ok read).2⟩
  · intro unreadable
    rw [list]
    cases read : repository.summariesOf (readOf request entry.orgId) contexts with
    | error error => rfl
    | ok found => exact absurd (summariesOf_ok read).1 unreadable

theorem subOrganizations_agree_synthetic : ∃ contexts,
    listEffectiveContexts (.principal (js "admin")) syntheticStore = some contexts ∧
      (snapshotRepository fun _ => .unconfigured).ReadsAgree
        (readOf syntheticRequest (js "org-a")) contexts 1 := by
  have found : (snapshotRepository fun _ => .unconfigured).listOrganizations syntheticRequest =
      some (.found syntheticPage) := rfl
  have listed : unimportedEntry (js "org-a") (js "Organization A") 1 ∈ syntheticPage.entries :=
    List.mem_cons_self
  exact subOrganizations_agree reachable_syntheticStore rfl found listed

def malformedRepository : OrganizationRepository :=
  snapshotRepository fun orgId =>
    if orgId = js "org-a1" then .found (.object []) else .unconfigured

/-- The directory does not see the malformed snapshot, but the list refuses it. -/
theorem not_listSubOrganizations_found : ¬∀ (repository : OrganizationRepository)
    (request : OrganizationDirectoryRequest) (directory : OrganizationDirectoryPage)
    (entry : OrganizationDirectoryEntry), repository.store.Reachable →
      request.role = Role.admin.text →
      repository.listOrganizations request = some (.found directory) →
      entry ∈ directory.entries → ∃ summaries counts,
        repository.listSubOrganizations (readOf request entry.orgId) = some (.found summaries) ∧
          repository.readCounts (readOf request entry.orgId) = some (.found counts) ∧
            summaries.length = entry.subOrganizationCount ∧
              counts.subOrganizations = entry.subOrganizationCount := by
  intro claimed
  have found : malformedRepository.listOrganizations syntheticRequest =
      some (.found syntheticPage) := rfl
  have refused : malformedRepository.listSubOrganizations
      (readOf syntheticRequest (js "org-a")) = some .unavailable := by decide +kernel
  have listed : unimportedEntry (js "org-a") (js "Organization A") 1 ∈ syntheticPage.entries :=
    List.mem_cons_self
  rcases claimed malformedRepository syntheticRequest syntheticPage _ reachable_syntheticStore rfl
    found listed with ⟨summaries, -, isFound, -⟩
  cases refused.symm.trans isFound

end OrganizationRepository

end StudentHub.Organizations
