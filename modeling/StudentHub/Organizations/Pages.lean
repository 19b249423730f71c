import StudentHub.Organizations.Directory
import Mathlib.Algebra.Order.Floor.Div
import Mathlib.Algebra.Order.Floor.Semiring

/-!
# Pages of the directory

The pages of one request show, one after another, the covered companies that match its
filters: each of them once, in the declared order, and each by its own records. An
answer other than `found` shows nothing.
-/

namespace StudentHub.Organizations

open Authz Ecma Graph Relation

theorem get?_coveredChildCounts (organizations : List Organization) (covered : List JsString)
    (parent : JsString) : ((coveredChildCounts organizations covered).get? parent).getD 0 =
      (organizations.filter fun child =>
        child.parentOrgId = some parent ∧ child.id ∈ covered).length := by
  have general : ∀ counts : OrderedMap JsString ℕ,
      ((organizations.foldl (countChild covered) counts).get? parent).getD 0 =
        (counts.get? parent).getD 0 + (organizations.filter fun child =>
          child.parentOrgId = some parent ∧ child.id ∈ covered).length := by
    induction organizations with
    | nil => intro counts; rfl
    | cons child rest ih =>
      intro counts
      rw [List.foldl_cons, ih, countChild]
      cases named : child.parentOrgId with
      | none => simp [named]
      | some other =>
        by_cases isCovered : child.id ∈ covered
        · by_cases same : parent = other
          · subst same
            simp only [named, isCovered, if_true, OrderedMap.get?_set_self, Option.getD_some,
              List.filter_cons, and_true, decide_true, List.length_cons]
            omega
          · simp [named, isCovered, OrderedMap.get?_set_of_ne _ _ same, Ne.symm same]
        · simp [isCovered]
  rw [coveredChildCounts, general, OrderedMap.get?_empty, Option.getD_none, Nat.zero_add]

namespace OrganizationRepository

variable {repository : OrganizationRepository} {request : OrganizationDirectoryRequest}

/-- A registered organization that the caller's contexts of the role cover below the active
organization. -/
structure IsCovered (repository : OrganizationRepository)
    (request : OrganizationDirectoryRequest) (contexts : List EffectiveGrant)
    (org : Organization) : Prop where
  registered : org ∈ repository.store.listOrganizations
  notOperator : org.id ∉ repository.operators
  notDeleted : repository.deleted org.id = false
  below : ReflTransGen (ParentOf repository.store.listOrganizations) org.id request.orgId
  covered : ∃ context ∈ contexts, context.orgId = org.id ∧ context.role.text = request.role

structure IsCompany (repository : OrganizationRepository)
    (request : OrganizationDirectoryRequest) (contexts : List EffectiveGrant)
    (org : Organization) : Prop extends IsCovered repository request contexts org where
  topLevel : companyParentOf repository.store.listOrganizations org.id repository.operators =
    .ok none

def HasWantedManager (filters : Row) (batches : DirectoryBatches) (org : Organization) : Prop :=
  ∀ wanted, wantedManager filters = some wanted →
    (batches.managers.bind fun managers => managers org.id).map
      OrganizationAccountManagerRecord.principalId = some wanted

/-- The entry is made from the registry's and the sources' records of the organization itself. -/
def IsOwnEntry (repository : OrganizationRepository) (batches : DirectoryBatches)
    (subOrganizationCount : ℕ) (org : Organization) (entry : OrganizationDirectoryEntry) : Prop :=
  ∃ row record, repository.rowOf batches.snapshots org.id none = .ok row ∧
    repository.statusRecordOf batches.records org.id = .ok record ∧
    directoryEntry org row subOrganizationCount record
      ((batches.approved.bind fun approved => approved org.id).getD .absent)
      (batches.terms.bind fun terms => terms org.id)
      (batches.storeTotals.map fun totals => (totals org.id).getD 0)
      (batches.managers.map fun managers => managers org.id) = .ok entry

theorem directoryCovered_spec {contexts : List EffectiveGrant} {within covered : List JsString}
    (read : repository.directoryCovered request.role contexts within = .ok covered)
    (orgId : JsString) : orgId ∈ covered ↔
      (∃ context ∈ contexts, context.orgId = orgId ∧ context.role.text = request.role) ∧
        orgId ∈ within ∧ orgId ∉ repository.operators ∧ repository.deleted orgId = false := by
  rcases bind_eq_ok_iff.mp read with ⟨deletedIds, deletions, kept⟩
  rw [← Except.ok.inj kept]
  simp only [List.mem_filter, mem_coveredOrgIds, decide_eq_true_eq, deletedAmong_ok deletions,
    not_and, Bool.not_eq_true]
  constructor
  · rintro ⟨⟨isCovered, inside, notOperator⟩, notDeleted⟩
    exact ⟨isCovered, inside, notOperator, notDeleted ⟨isCovered, inside, notOperator⟩⟩
  · rintro ⟨isCovered, inside, notOperator, notDeleted⟩
    exact ⟨⟨isCovered, inside, notOperator⟩, fun _ => notDeleted⟩

theorem mem_shownCompanies {organizations : List Organization} {covered operators : List JsString}
    {shown : List Organization}
    (read : shownCompanies organizations covered operators = .ok shown) {org : Organization} :
    org ∈ shown ↔ org ∈ organizations ∧ org.id ∈ covered ∧
      companyParentOf organizations org.id operators = .ok none := by
  rw [(collectM_spec read).2]
  constructor
  · rintro ⟨other, listed, passed⟩
    split_ifs at passed with isCovered
    · rcases bind_eq_ok_iff.mp passed with ⟨parent, above, picked⟩
      split_ifs at picked with isTop
      · cases Except.ok.inj picked
        exact ⟨listed, isCovered, isTop ▸ above⟩
      · cases picked
    · cases passed
  · rintro ⟨listed, isCovered, top⟩
    refine ⟨org, listed, ?_⟩
    rw [if_pos isCovered, top]
    rfl

theorem shownCompanies_sublist {organizations : List Organization}
    {covered operators : List JsString} {shown : List Organization}
    (read : shownCompanies organizations covered operators = .ok shown) :
    (shown.map Organization.id).Sublist (organizations.map Organization.id) := by
  apply map_collectM_sublist _ read
  intro org other passed
  split_ifs at passed
  · rcases bind_eq_ok_iff.mp passed with ⟨parent, above, picked⟩
    split_ifs at picked
    · cases Except.ok.inj picked
      rfl
    · cases picked
  · cases passed

theorem IsOwnEntry.orgId_eq {batches : DirectoryBatches} {count : ℕ} {org : Organization}
    {entry : OrganizationDirectoryEntry} (own : repository.IsOwnEntry batches count org entry) :
    entry.orgId = org.id ∧ entry.subOrganizationCount = count := by
  rcases own with ⟨row, record, -, -, made⟩
  simp only [directoryEntry] at made
  rcases bind_eq_ok_iff.mp made with ⟨legalName, -, made⟩
  rcases bind_eq_ok_iff.mp made with ⟨commonNameEn, -, made⟩
  rcases bind_eq_ok_iff.mp made with ⟨commonNameAr, -, made⟩
  rcases bind_eq_ok_iff.mp made with ⟨currencyCode, -, made⟩
  rcases bind_eq_ok_iff.mp made with ⟨approvedToHire, -, made⟩
  rcases bind_eq_ok_iff.mp made with ⟨status, -, made⟩
  rw [← Except.ok.inj made]
  exact ⟨rfl, rfl⟩

theorem hasWantedManager_iff {filters : Row} {batches : DirectoryBatches} {org : Organization} :
    HasWantedManager filters batches org ↔
      ¬(wantedManager filters).any (fun wanted =>
        (batches.managers.bind fun managers => managers org.id).map
          OrganizationAccountManagerRecord.principalId ≠ some wanted) = true := by
  rw [HasWantedManager, Option.any_eq_true]
  simp only [decide_eq_true_eq, not_exists, not_and, not_not]

theorem directoryPass_eq_some_iff {filters : Row} {counts : OrderedMap JsString ℕ}
    {batches : DirectoryBatches} {org : Organization} {entry : OrganizationDirectoryEntry} :
    repository.directoryPass filters counts batches org = .ok (some entry) ↔
      HasWantedManager filters batches org ∧
        repository.IsOwnEntry batches ((counts.get? org.id).getD 0) org entry ∧
        matchesDirectoryFilters repository.engine entry filters = true := by
  rw [hasWantedManager_iff, directoryPass]
  split
  case isTrue unwanted =>
    constructor
    · intro passed
      cases passed
    · intro fits
      exact absurd unwanted fits.1
  case isFalse wanted =>
    constructor
    · intro passed
      rcases bind_eq_ok_iff.mp passed with ⟨row, readRow, passed⟩
      rcases bind_eq_ok_iff.mp passed with ⟨record, readRecord, passed⟩
      rcases bind_eq_ok_iff.mp passed with ⟨made, isMade, picked⟩
      split_ifs at picked with fits
      · cases Except.ok.inj picked
        exact ⟨wanted, ⟨row, record, readRow, readRecord, isMade⟩, fits⟩
      · cases picked
    · rintro ⟨-, ⟨row, record, readRow, readRecord, isMade⟩, fits⟩
      apply bind_eq_ok_iff.mpr
      refine ⟨row, readRow, bind_eq_ok_iff.mpr ⟨record, readRecord, bind_eq_ok_iff.mpr
        ⟨entry, isMade, ?_⟩⟩⟩
      rw [if_pos fits]
      rfl

theorem exists_isOwnEntry {filters : Row} {counts : OrderedMap JsString ℕ}
    {batches : DirectoryBatches} {org : Organization} {answer : Option OrganizationDirectoryEntry}
    (passed : repository.directoryPass filters counts batches org = .ok answer)
    (wanted : HasWantedManager filters batches org) :
    ∃ entry, repository.IsOwnEntry batches ((counts.get? org.id).getD 0) org entry := by
  rw [directoryPass, if_neg (hasWantedManager_iff.mp wanted)] at passed
  rcases bind_eq_ok_iff.mp passed with ⟨row, readRow, passed⟩
  rcases bind_eq_ok_iff.mp passed with ⟨record, readRecord, passed⟩
  rcases bind_eq_ok_iff.mp passed with ⟨entry, isMade, -⟩
  exact ⟨entry, row, record, readRow, readRecord, isMade⟩

def childrenCount (organizations : List Organization) (covered : List JsString)
    (orgId : JsString) : ℕ :=
  (organizations.filter fun child => child.parentOrgId = some orgId ∧ child.id ∈ covered).length

/-- A list of entries shows exactly the companies that match the filters, by their own records:
a company that is absent has another account manager, or its entry does not match. -/
structure ShowsCompanies (repository : OrganizationRepository)
    (request : OrganizationDirectoryRequest) (contexts : List EffectiveGrant)
    (shown : List OrganizationDirectoryEntry) (covered : List JsString)
    (companies : List Organization) (batches : DirectoryBatches) : Prop where
  covered_iff : ∀ org ∈ repository.store.listOrganizations,
    org.id ∈ covered ↔ repository.IsCovered request contexts org
  companies_iff : ∀ org, org ∈ companies ↔ repository.IsCompany request contexts org
  read : repository.readBatches (request.filters.getD []) (companies.map Organization.id) =
    .ok batches
  shown_iff : ∀ entry, entry ∈ shown ↔ ∃ org ∈ companies,
    HasWantedManager (request.filters.getD []) batches org ∧
      repository.IsOwnEntry batches
        (childrenCount repository.store.listOrganizations covered org.id) org entry ∧
      matchesDirectoryFilters repository.engine entry (request.filters.getD []) = true
  made : ∀ org ∈ companies, HasWantedManager (request.filters.getD []) batches org →
    ∃ entry, repository.IsOwnEntry batches
      (childrenCount repository.store.listOrganizations covered org.id) org entry

section Registry

variable (distinct : (repository.store.listOrganizations.map Organization.id).Nodup)
variable (acyclic : Acyclic (ParentOf repository.store.listOrganizations))

include distinct acyclic

theorem directoryEntries_spec {contexts : List EffectiveGrant} {within : List JsString}
    {entries : List OrganizationDirectoryEntry}
    (descent : descendantOrgIdsIncludingSelf repository.store.listOrganizations request.orgId =
      some within)
    (read : repository.directoryEntries request.role (request.filters.getD []) contexts within =
      .ok entries) :
    (entries.map OrganizationDirectoryEntry.orgId).Nodup ∧
      entries.Pairwise (fun left right => repository.engine.entryOrder.compare left right ≤ 0) ∧
      ∃ covered companies batches,
        repository.ShowsCompanies request contexts entries covered companies batches := by
  rcases descendants_spec distinct acyclic request.orgId with ⟨descendants, result, members⟩
  rw [descent, Option.some.injEq] at result
  subst result
  rcases bind_eq_ok_iff.mp read with ⟨covered, readCovered, read⟩
  rcases bind_eq_ok_iff.mp read with ⟨companies, readCompanies, read⟩
  rcases bind_eq_ok_iff.mp read with ⟨batches, readBatches, read⟩
  rcases bind_eq_ok_iff.mp read with ⟨unsorted, collected, sorted⟩
  cases Except.ok.inj sorted
  have isCovered : ∀ org ∈ repository.store.listOrganizations,
      org.id ∈ covered ↔ repository.IsCovered request contexts org := by
    intro org listed
    rw [directoryCovered_spec readCovered, members]
    constructor
    · rintro ⟨covers, below, notOperator, notDeleted⟩
      exact ⟨listed, notOperator, notDeleted, below, covers⟩
    · intro covers
      exact ⟨covers.covered, covers.below, covers.notOperator, covers.notDeleted⟩
  refine ⟨?_, Comparator.pairwise_sort, covered, companies, batches, isCovered, ?_, readBatches,
    ?_, ?_⟩
  · apply (Comparator.sort_perm.map OrganizationDirectoryEntry.orgId).nodup_iff.mpr
    apply distinct.sublist ((map_collectM_sublist _ collected).trans
      (shownCompanies_sublist readCompanies))
    intro org entry passed
    exact (directoryPass_eq_some_iff.mp passed).2.1.orgId_eq.1
  · intro org
    rw [mem_shownCompanies readCompanies]
    constructor
    · rintro ⟨listed, covers, top⟩
      exact ⟨(isCovered org listed).mp covers, top⟩
    · rintro ⟨covers, top⟩
      exact ⟨covers.registered, (isCovered org covers.registered).mpr covers, top⟩
  · intro entry
    simp only [Comparator.mem_sort, (collectM_spec collected).2, directoryPass_eq_some_iff,
      get?_coveredChildCounts, childrenCount]
  · intro org member wanted
    rcases (collectM_spec collected).1 org member with ⟨answer, passed⟩
    simpa only [get?_coveredChildCounts, childrenCount] using exists_isOwnEntry passed wanted

end Registry

structure Lists (repository : OrganizationRepository) (request : OrganizationDirectoryRequest)
    (contexts : List EffectiveGrant) (within : List JsString)
    (entries : List OrganizationDirectoryEntry) : Prop where
  role : request.role ∈ ORGANIZATION_DIRECTORY_ROLES
  filters : validDirectoryFilters (request.filters.getD []) = true
  authorized : ∃ resolution, resolveActiveContext (.principal request.principalId)
    (some ⟨some request.orgId, some request.role⟩) repository.store = some resolution ∧
      isAuthorizedAt resolution request.orgId request.role = true
  expanded : listEffectiveContexts (.principal request.principalId) repository.store =
    some contexts
  notDeleted : repository.isDeleted request.orgId = .ok false
  managers : ¬((wantedManager (request.filters.getD [])).isSome ∧
    repository.accountManagers.isNone)
  descent : descendantOrgIdsIncludingSelf repository.store.listOrganizations request.orgId =
    some within
  read : repository.directoryEntries request.role (request.filters.getD []) contexts within =
    .ok entries

theorem listOrganizations_found {directory : OrganizationDirectoryPage}
    (found : repository.listOrganizations request = some (.found directory)) :
    ∃ page contexts within entries,
      positiveInteger (request.page.orElse (.number (.ofNat 1))) = some page ∧
        repository.Lists request contexts within entries ∧
          directory = directoryPage entries page.value := by
  simp only [listOrganizations] at found
  split at found
  case isTrue => simp at found
  case isFalse role =>
    split at found
    case h_1 => simp at found
    case h_2 page isPage =>
      split at found
      case isTrue => simp at found
      case isFalse valid =>
        rcases Option.bind_eq_some_iff.mp found with ⟨resolution, resolved, found⟩
        split at found
        case isTrue => simp at found
        case isFalse authorized =>
          rcases Option.bind_eq_some_iff.mp found with ⟨contexts, listed, found⟩
          split at found
          case h_1 => simp at found
          case h_2 => simp at found
          case h_3 notDeleted =>
            split at found
            case isTrue => simp at found
            case isFalse managers =>
              rcases Option.bind_eq_some_iff.mp found with ⟨within, descent, found⟩
              split at found
              case h_1 => simp at found
              case h_2 entries isEntries =>
                simp only [Option.pure_def, Option.some.injEq,
                  OrganizationDirectoryResult.found.injEq] at found
                refine ⟨page, contexts, within, entries, isPage, ?_, found.symm⟩
                exact ⟨not_not.mp role, by simpa using valid, ⟨resolution, resolved,
                  by simpa using authorized⟩, listed, notDeleted, managers, descent, isEntries⟩

end OrganizationRepository

def OrganizationDirectoryRequest.atPage (request : OrganizationDirectoryRequest) (number : ℕ) :
    OrganizationDirectoryRequest :=
  { request with page := .number (.ofNat number) }

def OrganizationDirectoryPage.pageCount (directory : OrganizationDirectoryPage) : ℕ :=
  directory.total ⌈/⌉ ORGANIZATION_DIRECTORY_PAGE_SIZE

namespace OrganizationRepository

variable {repository : OrganizationRepository} {request : OrganizationDirectoryRequest}

theorem Lists.unique {contexts other : List EffectiveGrant} {within below : List JsString}
    {entries others : List OrganizationDirectoryEntry}
    (left : repository.Lists request contexts within entries)
    (right : repository.Lists request other below others) :
    contexts = other ∧ entries = others := by
  have sameContexts := Option.some.inj (left.expanded.symm.trans right.expanded)
  have sameWithin := Option.some.inj (left.descent.symm.trans right.descent)
  subst sameContexts sameWithin
  exact ⟨rfl, Except.ok.inj (left.read.symm.trans right.read)⟩

theorem found_atPage {contexts : List EffectiveGrant} {within : List JsString}
    {entries : List OrganizationDirectoryEntry}
    (lists : repository.Lists request contexts within entries) {number : ℕ}
    {directory : OrganizationDirectoryPage}
    (found : repository.listOrganizations (request.atPage number) = some (.found directory)) :
    0 < number ∧ directory = directoryPage entries number := by
  rcases listOrganizations_found found with ⟨page, contexts', within', entries', isPage, others,
    rfl⟩
  have sameLists : repository.Lists request contexts' within' entries' := ⟨others.role,
    others.filters, others.authorized, others.expanded, others.notDeleted, others.managers,
    others.descent, others.read⟩
  rcases positiveInteger_ofNat isPage with ⟨rfl, positive⟩
  rw [(lists.unique sameLists).2]
  exact ⟨positive, rfl⟩

structure PagesShow (repository : OrganizationRepository) (request : OrganizationDirectoryRequest)
    (pages : ℕ → OrganizationDirectoryPage) (shown : List OrganizationDirectoryEntry) : Prop where
  once : (shown.map OrganizationDirectoryEntry.orgId).Nodup
  ordered : shown.Pairwise fun left right => repository.engine.entryOrder.compare left right ≤ 0
  total : (pages 1).total = shown.length
  concatenated : (List.range (pages 1).pageCount).flatMap (fun index =>
    (pages (index + 1)).entries) = shown
  beyond : ∀ number directory,
    repository.listOrganizations (request.atPage number) = some (.found directory) →
      directory.total = shown.length ∧ directory.page = number ∧
        ((pages 1).pageCount < number → directory.entries = [])

/-- When every page of a directory is found, the pages show the covered companies that match. -/
theorem listOrganizations_pages {pages : ℕ → OrganizationDirectoryPage}
    (distinct : (repository.store.listOrganizations.map Organization.id).Nodup)
    (acyclic : Acyclic (ParentOf repository.store.listOrganizations))
    (found : ∀ number, 1 ≤ number → number ≤ max 1 (pages 1).pageCount →
      repository.listOrganizations (request.atPage number) = some (.found (pages number))) :
    ∃ contexts shown covered companies batches,
      listEffectiveContexts (.principal request.principalId) repository.store = some contexts ∧
      repository.ShowsCompanies request contexts shown covered companies batches ∧
      repository.PagesShow request pages shown := by
  have first := found 1 le_rfl (le_max_left _ _)
  rcases listOrganizations_found first with ⟨page, contexts, within, shown, -, lists, -⟩
  have listed : repository.Lists request contexts within shown := ⟨lists.role, lists.filters,
    lists.authorized, lists.expanded, lists.notDeleted, lists.managers, lists.descent, lists.read⟩
  rcases directoryEntries_spec distinct acyclic listed.descent listed.read with
    ⟨once, ordered, covered, companies, batches, shows⟩
  have sameTotal : (pages 1).total = shown.length := by
    rw [(found_atPage listed first).2]
    rfl
  have enough : shown.length ≤ (pages 1).pageCount * ORGANIZATION_DIRECTORY_PAGE_SIZE := by
    rw [← sameTotal, OrganizationDirectoryPage.pageCount, mul_comm]
    exact le_smul_ceilDiv (show 0 < ORGANIZATION_DIRECTORY_PAGE_SIZE by decide)
  refine ⟨contexts, shown, covered, companies, batches, listed.expanded, shows,
    ⟨once, ordered, sameTotal, ?_, ?_⟩⟩
  · have cut : ∀ index ∈ List.range (pages 1).pageCount,
        (pages (index + 1)).entries = pageOf shown ORGANIZATION_DIRECTORY_PAGE_SIZE index := by
      intro index inRange
      have inPages := List.mem_range.mp inRange
      rw [(found_atPage listed (found (index + 1) (by omega) (by omega))).2]
      rfl
    rw [List.flatMap_congr cut, flatMap_pageOf, List.take_of_length_le enough]
  · intro number directory isFound
    rcases found_atPage listed isFound with ⟨positive, rfl⟩
    refine ⟨rfl, rfl, ?_⟩
    intro beyond
    apply pageOf_eq_nil
    exact enough.trans (Nat.mul_le_mul_right _ (by omega))

def syntheticSeed : InMemoryAuthzSeed where
  organizations := [⟨js "root", js "StudentHub", none⟩,
    ⟨js "org-b", js "Organization B", some (js "root")⟩,
    ⟨js "org-a", js "Organization A", some (js "root")⟩,
    ⟨js "org-a1", js "Organization A1", some (js "org-a")⟩]
  principals := [⟨js "admin", [js "pbuuid-admin"], none, none⟩]

def syntheticStore : InMemoryAuthzStore :=
  ((InMemoryAuthzStore.new syntheticSeed).toOption.getD .empty).run
    [.grantMany (js "admin") [⟨js "root", js "admin", some (js "subtree")⟩]]

theorem reachable_syntheticStore : syntheticStore.Reachable := by
  have accepted : InMemoryAuthzStore.new syntheticSeed = .ok _ := rfl
  exact InMemoryAuthzStore.reachable_run accepted _

def snapshotRepository (snapshots : JsString → ApprovedOrganizationSnapshot) :
    OrganizationRepository where
  engine := ⟨.iso, codeUnitOrder, id, id⟩
  store := syntheticStore
  readSnapshots _ := .ok fun orgId => some (snapshots orgId)
  operators := [js "root"]
  statusRecords := none
  commercialTerms := none
  approvedToHire := none
  storeCounts := none
  accountManagers := none
  deletions := none

def syntheticRequest : OrganizationDirectoryRequest where
  principalId := js "admin"
  orgId := js "root"
  role := js "admin"
  filters := none
  page := .undefined

def unimportedEntry (orgId registryName : JsString) (subOrganizationCount : ℕ) :
    OrganizationDirectoryEntry where
  orgId
  registryName
  subOrganizationCount
  legalName := unavailable .legalName .notImported
  commonNameEn := unavailable .commonNameEn .notImported
  commonNameAr := unavailable .commonNameAr .notImported
  currencyCode := unavailable .currencyCode .notImported
  approvedToHire := unavailable .approvedToHire .notImported
  status := unavailable .status .notImported
  storeCount := none
  accountManager := none

def syntheticPage : OrganizationDirectoryPage where
  version := ORGANIZATION_DIRECTORY_VERSION
  entries := [unimportedEntry (js "org-a") (js "Organization A") 1,
    unimportedEntry (js "org-b") (js "Organization B") 0]
  page := 1
  pageSize := ORGANIZATION_DIRECTORY_PAGE_SIZE
  total := 2

theorem listOrganizations_pages_synthetic : ∃ contexts shown covered companies batches,
    listEffectiveContexts (.principal (js "admin")) syntheticStore = some contexts ∧
      (snapshotRepository fun _ => .unconfigured).ShowsCompanies syntheticRequest contexts shown
        covered companies batches ∧
      (snapshotRepository fun _ => .unconfigured).PagesShow syntheticRequest
        (fun _ => syntheticPage) shown := by
  have valid := reachable_syntheticStore.valid
  have found : ∀ number, 1 ≤ number → number ≤ max 1 syntheticPage.pageCount →
      (snapshotRepository fun _ => .unconfigured).listOrganizations
        (syntheticRequest.atPage number) = some (.found syntheticPage) := by
    intro number positive bounded
    have only : max 1 syntheticPage.pageCount = 1 := by decide
    cases (by omega : number = 1)
    rfl
  exact @listOrganizations_pages (snapshotRepository fun _ => .unconfigured) syntheticRequest
    (fun _ => syntheticPage) valid.distinctIds valid.acyclic_parentOf found

end OrganizationRepository

end StudentHub.Organizations
