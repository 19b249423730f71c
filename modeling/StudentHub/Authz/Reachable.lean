import StudentHub.Authz.Rows

/-!
# Reachable states of the in-memory store

`Valid` is the invariant of the store: organizations and principals sit under their
own ids, the parent relation has no cycle, the reverse index is exactly the
registered pbuuids, and the rows of each principal are valid with ids of their own.
Every accepted seed establishes it and every call keeps it, rejected calls
included.

The parent relation `HasParent` also relates an organization to a parent that the
store does not hold yet, so acyclicity covers parents that are added later.
-/

namespace StudentHub.Authz

open Ecma Graph Relation

namespace InMemoryAuthzStore

/-- The organization `child` is stored and names `parent`, which may be missing. -/
def HasParent (store : InMemoryAuthzStore) (child parent : JsString) : Prop :=
  Points store.organizations.get? Organization.parentOrgId child parent

structure Valid (store : InMemoryAuthzStore) : Prop where
  orgKeyed : ∀ id org, store.organizations.get? id = some org → org.id = id
  orgAcyclic : Acyclic store.HasParent
  principalKeyed : ∀ id principal, store.principals.get? id = some principal → principal.id = id
  pbuuidExact : ∀ pbuuid id, store.pbuuidIndex.get? pbuuid = some id ↔
    ∃ principal, store.principals.get? id = some principal ∧ pbuuid ∈ principal.pbuuids
  rows : ∀ id, RowsValid id store.nextGrantId (store.listGrantsForPrincipal id)
  ownIds : ∀ left right leftRow rightRow, leftRow ∈ store.listGrantsForPrincipal left →
    rightRow ∈ store.listGrantsForPrincipal right → leftRow.id = rightRow.id → leftRow = rightRow

theorem valid_empty : empty.Valid where
  orgKeyed := by simp [empty]
  orgAcyclic := by
    intro id cycle
    rcases TransGen.head'_iff.mp cycle with ⟨parent, ⟨org, found, -⟩, -⟩
    simp [empty] at found
  principalKeyed := by simp [empty]
  pbuuidExact := by simp [empty]
  rows := fun id => RowsValid.nil id 1
  ownIds := by simp [empty, listGrantsForPrincipal]

theorem not_cycle_of_assertNoCycles {startId : JsString} {orgs : List Organization}
    {org : Organization} (accepted : assertNoCycles startId orgs = .ok ())
    (found : (OrderedMap.ofList (orgs.map fun org => (org.id, org))).get? startId = some org) :
    ¬TransGen (Points (OrderedMap.ofList (orgs.map fun org => (org.id, org))).get?
      Organization.parentOrgId) startId startId := by
  have keyed := keyed_byId orgs
  rw [byId_eq_ofList] at keyed
  have stop : (climb Organization.id (OrderedMap.ofList (orgs.map fun org => (org.id, org))).get?
      Organization.parentOrgId (orgs.length + 1) [] (some org)).2 = none := by
    simp only [assertNoCycles, found] at accepted
    split at accepted
    · assumption
    · cases accepted
  exact (climbed_of_stop_none keyed found stop).not_transGen_self ReflTransGen.refl

theorem cycle_of_assertNoCycles {startId : JsString} {orgs : List Organization}
    {org : Organization} {error : AuthzError} (rejected : assertNoCycles startId orgs = .error error)
    (found : (OrderedMap.ofList (orgs.map fun org => (org.id, org))).get? startId = some org) :
    ∃ id, ReflTransGen (Points (OrderedMap.ofList (orgs.map fun org => (org.id, org))).get?
        Organization.parentOrgId) startId id ∧
      TransGen (Points (OrderedMap.ofList (orgs.map fun org => (org.id, org))).get?
        Organization.parentOrgId) id id := by
  have keyed := keyed_byId orgs
  have bounded := bounded_byId orgs
  rw [byId_eq_ofList] at keyed bounded
  simp only [assertNoCycles, found] at rejected
  split at rejected
  · cases rejected
  case h_2 stop stopped =>
    exact ⟨stop.id, exists_cycle_of_stop_some keyed found stopped bounded (by simp)⟩

theorem get?_upserted {store : InMemoryAuthzStore}
    (keyed : ∀ id org, store.organizations.get? id = some org → org.id = id)
    (org : Organization) :
    (OrderedMap.ofList (((store.organizations.values.filter fun other => other.id ≠ org.id) ++
      [org]).map fun other => (other.id, other))).get? =
        (store.organizations.set org.id org).get? := by
  have distinct : ((((store.organizations.values.filter fun other => other.id ≠ org.id) ++
      [org]).map fun other => (other.id, other)).map Prod.fst).Nodup := by
    simp only [List.map_map, List.map_append, List.nodup_append, Function.comp_def]
    refine ⟨(OrderedMap.nodup_map_values keyed).sublist (List.filter_sublist.map _), by simp, ?_⟩
    rintro _ oldMem _ newMem rfl
    rcases List.mem_map.mp oldMem with ⟨other, otherMem, sameId⟩
    simp only [List.map_cons, List.map_nil, List.mem_singleton] at newMem
    have different := List.of_mem_filter otherMem
    simp [sameId, newMem] at different
  funext id
  apply Option.ext
  intro found
  rw [OrderedMap.get?_ofList_iff distinct, OrderedMap.get?_set]
  simp only [List.mem_map, List.mem_append, List.mem_filter, List.mem_singleton, decide_eq_true_eq,
    OrderedMap.mem_values_keyed keyed, Prod.mk.injEq]
  constructor
  · rintro ⟨other, ⟨stored, different⟩ | rfl, rfl, rfl⟩
    · rw [if_neg different]
      exact stored
    · rw [if_pos rfl]
  · intro stored
    split at stored
    case isTrue same =>
      cases stored
      exact ⟨org, Or.inr rfl, same.symm, rfl⟩
    case isFalse different =>
      have ownId := keyed id found stored
      exact ⟨found, Or.inl ⟨ownId.symm ▸ stored, fun same => different (ownId.symm.trans same)⟩,
        ownId, rfl⟩

theorem acyclic_set {store : InMemoryAuthzStore} (valid : store.Valid) {org : Organization}
    (noCycle : ¬TransGen (Points (store.organizations.set org.id org).get?
      Organization.parentOrgId) org.id org.id) :
    Acyclic (Points (store.organizations.set org.id org).get? Organization.parentOrgId) := by
  refine valid.orgAcyclic.update ?_ noCycle
  rintro child parent different ⟨other, stored, names⟩
  rw [OrderedMap.get?_set_of_ne _ _ different] at stored
  exact ⟨other, stored, names⟩

theorem upsertOrganization_cases {store : InMemoryAuthzStore} (valid : store.Valid)
    (org : Organization) :
    (∃ error, store.upsertOrganization org = (store, .error error) ∧
      TransGen (Points (store.organizations.set org.id org).get? Organization.parentOrgId)
        org.id org.id) ∨
    (store.upsertOrganization org =
        ({ store with organizations := store.organizations.set org.id org }, .ok ()) ∧
      ¬TransGen (Points (store.organizations.set org.id org).get? Organization.parentOrgId)
        org.id org.id) := by
  have lookups := get?_upserted valid.orgKeyed org
  have found : (store.organizations.set org.id org).get? org.id = some org :=
    OrderedMap.get?_set_self _ _ _
  rw [← lookups] at found
  simp only [upsertOrganization]
  cases check : assertNoCycles org.id ((store.organizations.values.filter fun other =>
      other.id ≠ org.id) ++ [org]) with
  | error error =>
      refine Or.inl ⟨error, rfl, ?_⟩
      by_contra noCycle
      rcases cycle_of_assertNoCycles check found with ⟨id, -, cycle⟩
      rw [lookups] at cycle
      exact acyclic_set valid noCycle id cycle
  | ok _ =>
      refine Or.inr ⟨rfl, ?_⟩
      rw [← lookups]
      exact not_cycle_of_assertNoCycles check found

theorem Valid.setOrganization {store : InMemoryAuthzStore} (valid : store.Valid)
    {org : Organization} (noCycle : ¬TransGen (Points (store.organizations.set org.id org).get?
      Organization.parentOrgId) org.id org.id) :
    Valid { store with organizations := store.organizations.set org.id org } where
  orgKeyed := by
    intro id other stored
    rw [OrderedMap.get?_set] at stored
    split at stored
    case isTrue same =>
      cases stored
      exact same.symm
    case isFalse => exact valid.orgKeyed id other stored
  orgAcyclic := acyclic_set valid noCycle
  principalKeyed := valid.principalKeyed
  pbuuidExact := valid.pbuuidExact
  rows := valid.rows
  ownIds := valid.ownIds

theorem foreignPbuuid_eq_none_iff {store : InMemoryAuthzStore} {principal : Principal} :
    store.foreignPbuuid principal = none ↔
      ∀ pbuuid ∈ principal.pbuuids, ∀ owner, store.pbuuidIndex.get? pbuuid = some owner →
        owner = principal.id := by
  simp only [foreignPbuuid, List.findSome?_eq_none_iff]
  refine forall₂_congr fun pbuuid _ => ?_
  cases store.pbuuidIndex.get? pbuuid with
  | none => simp
  | some owner => simp

theorem get?_registered {store next : InMemoryAuthzStore} {principal : Principal}
    (accepted : store.registered principal = .ok next) (pbuuid : JsString) :
    next.pbuuidIndex.get? pbuuid =
      if pbuuid ∈ principal.pbuuids then some principal.id
      else (store.pbuuidIndex.get? pbuuid).filter (· ≠ principal.id) := by
  simp only [registered] at accepted
  split at accepted
  · cases accepted
  · cases accepted
    simp only [OrderedMap.get?_foldl_set_const, OrderedMap.get?_filter]

theorem registered_cases (store : InMemoryAuthzStore) (principal : Principal) :
    (∃ error, store.registered principal = .error error ∧
      store.foreignPbuuid principal ≠ none) ∨
    (∃ next, store.registered principal = .ok next ∧ store.foreignPbuuid principal = none ∧
      next.organizations = store.organizations ∧
      next.principals = store.principals.set principal.id principal ∧
      next.grantsByPrincipal = store.grantsByPrincipal ∧
      next.nextGrantId = store.nextGrantId) := by
  cases foreign : store.foreignPbuuid principal with
  | some conflict =>
      left
      exact ⟨.pbuuidOwned conflict.1 conflict.2 principal.id, by simp only [registered, foreign],
        by simp⟩
  | none =>
      right
      simp only [registered, foreign]
      exact ⟨_, rfl, trivial, rfl, rfl, rfl, rfl⟩

theorem Valid.registered {store next : InMemoryAuthzStore} (valid : store.Valid)
    {principal : Principal} (accepted : store.registered principal = .ok next) : next.Valid := by
  rcases registered_cases store principal with ⟨error, refused, -⟩ |
    ⟨_, result, free, organizations, principals, grants, number⟩
  · rw [refused] at accepted
    cases accepted
  rw [accepted] at result
  cases result
  have index := get?_registered accepted
  have listed : next.listGrantsForPrincipal = store.listGrantsForPrincipal := by
    funext id
    simp only [listGrantsForPrincipal, grants]
  rw [foreignPbuuid_eq_none_iff] at free
  refine ⟨?_, ?_, ?_, ?_, ?_, ?_⟩
  · rw [organizations]
    exact valid.orgKeyed
  · have same : next.HasParent = store.HasParent := by
      funext child parent
      simp only [HasParent, organizations]
    rw [same]
    exact valid.orgAcyclic
  · intro id other stored
    rw [principals, OrderedMap.get?_set] at stored
    split at stored
    case isTrue same =>
      cases stored
      exact same.symm
    case isFalse => exact valid.principalKeyed id other stored
  · intro pbuuid id
    rw [index, principals]
    simp only [OrderedMap.get?_set]
    by_cases claimed : pbuuid ∈ principal.pbuuids
    · simp only [claimed, if_true, Option.some.injEq]
      constructor
      · rintro rfl
        exact ⟨principal, by simp, claimed⟩
      · rintro ⟨other, stored, listedIn⟩
        split at stored
        case isTrue same => exact same.symm
        case isFalse =>
          exact (free pbuuid claimed id
            ((valid.pbuuidExact pbuuid id).mpr ⟨other, stored, listedIn⟩)).symm
    · simp only [claimed, if_false, Option.filter_eq_some_iff, decide_eq_true_eq]
      constructor
      · rintro ⟨owned, different⟩
        rcases (valid.pbuuidExact pbuuid id).mp owned with ⟨other, stored, listedIn⟩
        exact ⟨other, by rw [if_neg different]; exact stored, listedIn⟩
      · rintro ⟨other, stored, listedIn⟩
        split at stored
        case isTrue same =>
          cases stored
          exact absurd listedIn claimed
        case isFalse different =>
          exact ⟨(valid.pbuuidExact pbuuid id).mpr ⟨other, stored, listedIn⟩, different⟩
  · rw [listed, number]
    exact valid.rows
  · rw [listed]
    exact valid.ownIds

structure GrantsEvolve (store next : InMemoryAuthzStore) : Prop where
  bound : store.nextGrantId ≤ next.nextGrantId
  evolves : ∀ id, Evolves store.nextGrantId (store.listGrantsForPrincipal id)
    (next.listGrantsForPrincipal id)

theorem GrantsEvolve.refl (store : InMemoryAuthzStore) : GrantsEvolve store store :=
  ⟨le_rfl, fun _ => Evolves.refl _ _⟩

theorem GrantsEvolve.trans {first second third : InMemoryAuthzStore}
    (earlier : GrantsEvolve first second) (later : GrantsEvolve second third) :
    GrantsEvolve first third :=
  ⟨earlier.bound.trans later.bound,
    fun id => (earlier.evolves id).trans earlier.bound (later.evolves id)⟩

theorem Valid.replaceRows {store next : InMemoryAuthzStore} (valid : store.Valid)
    {principalId : JsString} {rows : List RoleGrant}
    (organizations : next.organizations = store.organizations)
    (principals : next.principals = store.principals)
    (index : next.pbuuidIndex = store.pbuuidIndex)
    (bound : store.nextGrantId ≤ next.nextGrantId)
    (listed : ∀ id, next.listGrantsForPrincipal id =
      if id = principalId then rows else store.listGrantsForPrincipal id)
    (rowsValid : RowsValid principalId next.nextGrantId rows)
    (evolves : Evolves store.nextGrantId (store.listGrantsForPrincipal principalId) rows) :
    next.Valid ∧ GrantsEvolve store next := by
  have evolve : GrantsEvolve store next := by
    refine ⟨bound, ?_⟩
    intro id
    rw [listed]
    split
    case isTrue same => exact same ▸ evolves
    case isFalse => exact Evolves.refl _ _
  refine ⟨⟨?_, ?_, ?_, ?_, ?_, ?_⟩, evolve⟩
  · rw [organizations]
    exact valid.orgKeyed
  · have same : next.HasParent = store.HasParent := by
      funext child parent
      simp only [HasParent, organizations]
    rw [same]
    exact valid.orgAcyclic
  · rw [principals]
    exact valid.principalKeyed
  · rw [index, principals]
    exact valid.pbuuidExact
  · intro id
    rw [listed]
    split
    case isTrue same => exact same ▸ rowsValid
    case isFalse => exact (valid.rows id).mono bound
  · -- A row that another principal holds has a number below the bound and another owner.
    have apart : ∀ other, other ≠ principalId → ∀ row ∈ rows,
        ∀ otherRow ∈ store.listGrantsForPrincipal other, row.id ≠ otherRow.id := by
      intro other different row rowMem otherRow otherMem sameId
      rcases evolves row rowMem with ⟨old, oldMem, continues⟩ | ⟨number, above, named⟩
      · have same := valid.ownIds principalId other old otherRow oldMem otherMem
          (continues.id.symm.trans sameId)
        have owner := (valid.rows principalId).owned old oldMem
        rw [same, (valid.rows other).owned otherRow otherMem] at owner
        exact different owner
      · rcases (valid.rows other).issued otherRow otherMem with ⟨older, below, otherNamed⟩
        rw [named, otherNamed] at sameId
        exact absurd (grantId_injective sameId) (by omega)
    intro left right leftRow rightRow leftMem rightMem sameId
    rw [listed] at leftMem rightMem
    split at leftMem <;> split at rightMem
    case isTrue.isTrue =>
      exact List.inj_on_of_nodup_map rowsValid.ids leftMem rightMem sameId
    case isTrue.isFalse different =>
      exact absurd sameId (apart right different leftRow leftMem rightRow rightMem)
    case isFalse.isTrue different _ =>
      exact absurd sameId.symm (apart left different rightRow rightMem leftRow leftMem)
    case isFalse.isFalse =>
      exact valid.ownIds left right leftRow rightRow leftMem rightMem sameId

theorem listGrants_set (store : InMemoryAuthzStore) (principalId : JsString)
    (rows : List RoleGrant) (number : ℕ) (id : JsString) :
    listGrantsForPrincipal { store with
      grantsByPrincipal := store.grantsByPrincipal.set principalId rows
      nextGrantId := number } id =
        if id = principalId then rows else store.listGrantsForPrincipal id := by
  simp only [listGrantsForPrincipal, OrderedMap.get?_set]
  split <;> rfl

theorem listGrants_delete (store : InMemoryAuthzStore) (principalId id : JsString) :
    listGrantsForPrincipal { store with
      grantsByPrincipal := store.grantsByPrincipal.delete principalId } id =
        if id = principalId then [] else store.listGrantsForPrincipal id := by
  simp only [listGrantsForPrincipal, OrderedMap.get?_delete]
  split <;> rfl

theorem listGrants_revokeMany (store : InMemoryAuthzStore) (principalId : JsString)
    (entries : List RevokeEntry) (id : JsString) :
    (store.revokeMany principalId entries).1.listGrantsForPrincipal id =
      if id = principalId then
        (store.listGrantsForPrincipal principalId).filter fun row =>
          rowKey row.orgId row.role.text ∉ entries.map fun entry => rowKey entry.orgId entry.role
      else store.listGrantsForPrincipal id := by
  cases live : store.grantsByPrincipal.get? principalId with
  | none =>
      simp only [revokeMany, live]
      split
      case isTrue same =>
        subst same
        simp [listGrantsForPrincipal, live]
      case isFalse => rfl
  | some rows =>
      have listed : store.listGrantsForPrincipal principalId = rows := by
        simp only [listGrantsForPrincipal, live, Option.getD_some]
      simp only [revokeMany, live, listed]
      by_cases none_left : rows.filter (fun row => rowKey row.orgId row.role.text ∉
          entries.map fun entry => rowKey entry.orgId entry.role) = []
      · simp only [none_left, if_true, listGrants_delete]
      · simp only [none_left, if_false]
        exact listGrants_set store principalId _ store.nextGrantId id

def grantDraft (store : InMemoryAuthzStore) (principalId : JsString) (entries : List GrantEntry) :
    GrantDraft :=
  (grantEntries principalId (.start (store.listGrantsForPrincipal principalId) store.nextGrantId)
    entries).1

theorem grown_grantDraft {store : InMemoryAuthzStore} (valid : store.Valid)
    (principalId : JsString) (entries : List GrantEntry) :
    Grown principalId (.start (store.listGrantsForPrincipal principalId) store.nextGrantId)
      (store.grantDraft principalId entries) :=
  grown_grantEntries (draftValid_start (valid.rows principalId)) entries

theorem grantMany_cases (store : InMemoryAuthzStore) (principalId : JsString)
    (entries : List GrantEntry) :
    let draft := store.grantDraft principalId entries
    ((store.grantMany principalId entries).1 =
        { store with
          grantsByPrincipal := store.grantsByPrincipal.set principalId draft.rows
          nextGrantId := draft.nextGrantId } ∧
      ((store.grantMany principalId entries).2 = .ok () ∨
        (store.grantsByPrincipal.get? principalId).isSome)) ∨
    ((store.grantMany principalId entries).1 = { store with nextGrantId := draft.nextGrantId } ∧
      (∃ error, (store.grantMany principalId entries).2 = .error error) ∧
      store.grantsByPrincipal.get? principalId = none) := by
  simp only [grantMany, grantDraft, listGrantsForPrincipal]
  cases result : (grantEntries principalId (.start
      ((store.grantsByPrincipal.get? principalId).getD []) store.nextGrantId) entries).2 with
  | ok _ => exact Or.inl ⟨rfl, Or.inl rfl⟩
  | error error =>
      cases live : store.grantsByPrincipal.get? principalId with
      | some rows => exact Or.inl ⟨by simp, Or.inr rfl⟩
      | none => exact Or.inr ⟨by simp, ⟨error, rfl⟩, rfl⟩

theorem grantMany_resolves_iff (store : InMemoryAuthzStore) (principalId : JsString)
    (entries : List GrantEntry) :
    (store.grantMany principalId entries).2 = .ok () ↔
      ∀ raw ∈ entries, ∃ entry, normalizeGrantEntry raw = .ok entry := by
  rw [← grantEntries_resolves_iff principalId
    (.start (store.listGrantsForPrincipal principalId) store.nextGrantId) entries]
  simp only [grantMany, listGrantsForPrincipal]
  split
  · next resolved => simp [resolved]
  · next rejected => simp [rejected]

theorem Valid.grantMany {store : InMemoryAuthzStore} (valid : store.Valid)
    (principalId : JsString) (entries : List GrantEntry) :
    (store.grantMany principalId entries).1.Valid ∧
      GrantsEvolve store (store.grantMany principalId entries).1 := by
  have grown := grown_grantDraft valid principalId entries
  rcases grantMany_cases store principalId entries with ⟨next, -⟩ | ⟨next, -, -⟩
  · rw [next]
    exact valid.replaceRows rfl rfl rfl grown.bound (listGrants_set _ _ _ _) grown.valid.rows
      grown.evolves
  · rw [next]
    have listed : ∀ id, listGrantsForPrincipal { store with
        nextGrantId := (store.grantDraft principalId entries).nextGrantId } id =
          if id = principalId then store.listGrantsForPrincipal principalId
          else store.listGrantsForPrincipal id := by
      intro id
      split
      case isTrue same => rw [same]; rfl
      case isFalse => rfl
    exact valid.replaceRows rfl rfl rfl grown.bound listed
      ((valid.rows principalId).mono grown.bound) (Evolves.refl _ _)

theorem evolves_filter (bound : ℕ) (rows : List RoleGrant) (keep : RoleGrant → Bool) :
    Evolves bound rows (rows.filter keep) := fun row rowMem =>
  Or.inl ⟨row, List.mem_of_mem_filter rowMem, RoleGrant.Continues.refl row⟩

theorem revokeMany_frame (store : InMemoryAuthzStore) (principalId : JsString)
    (entries : List RevokeEntry) :
    let next := (store.revokeMany principalId entries).1
    next.organizations = store.organizations ∧ next.principals = store.principals ∧
      next.pbuuidIndex = store.pbuuidIndex ∧ next.nextGrantId = store.nextGrantId := by
  simp only [revokeMany]
  split
  · exact ⟨rfl, rfl, rfl, rfl⟩
  · split <;> exact ⟨rfl, rfl, rfl, rfl⟩

theorem Valid.revokeMany {store : InMemoryAuthzStore} (valid : store.Valid)
    (principalId : JsString) (entries : List RevokeEntry) :
    (store.revokeMany principalId entries).1.Valid ∧
      GrantsEvolve store (store.revokeMany principalId entries).1 := by
  rcases revokeMany_frame store principalId entries with
    ⟨organizations, principals, index, number⟩
  refine valid.replaceRows organizations principals index number.ge
    (listGrants_revokeMany store principalId entries) ?_ (evolves_filter _ _ _)
  rw [number]
  exact (valid.rows principalId).filter _

theorem Valid.clearGrantsForPrincipal {store : InMemoryAuthzStore} (valid : store.Valid)
    (principalId : JsString) :
    (store.clearGrantsForPrincipal principalId).1.Valid ∧
      GrantsEvolve store (store.clearGrantsForPrincipal principalId).1 :=
  valid.replaceRows rfl rfl rfl le_rfl (listGrants_delete store principalId)
    (RowsValid.nil principalId _) (by simp [Evolves])

/-- One call keeps the invariant, and every row it leaves continues one or is new. -/
theorem Valid.apply {store : InMemoryAuthzStore} (valid : store.Valid) (call : AuthzCall) :
    (store.apply call).1.Valid ∧ GrantsEvolve store (store.apply call).1 := by
  cases call with
  | upsertOrganization org =>
      simp only [InMemoryAuthzStore.apply]
      rcases upsertOrganization_cases valid org with ⟨error, refused, -⟩ | ⟨accepted, noCycle⟩
      · rw [refused]
        exact ⟨valid, GrantsEvolve.refl store⟩
      · rw [accepted]
        exact ⟨valid.setOrganization noCycle, le_rfl, fun _ => Evolves.refl _ _⟩
  | registerPrincipal principal =>
      simp only [InMemoryAuthzStore.apply, registerPrincipal]
      rcases registered_cases store principal with ⟨error, refused, -⟩ |
        ⟨next, accepted, -, -, -, grants, number⟩
      · rw [refused]
        exact ⟨valid, GrantsEvolve.refl store⟩
      · rw [accepted]
        refine ⟨valid.registered accepted, number.ge, ?_⟩
        intro id
        simp only [listGrantsForPrincipal, grants]
        exact Evolves.refl _ _
  | grantMany principalId entries => exact valid.grantMany principalId entries
  | revokeMany principalId entries => exact valid.revokeMany principalId entries
  | clearGrantsForPrincipal principalId => exact valid.clearGrantsForPrincipal principalId

theorem Valid.run {store : InMemoryAuthzStore} (valid : store.Valid) (calls : List AuthzCall) :
    (store.run calls).Valid ∧ GrantsEvolve store (store.run calls) := by
  induction calls generalizing store with
  | nil => exact ⟨valid, GrantsEvolve.refl store⟩
  | cons call rest ih =>
      have step := valid.apply call
      have after := ih step.1
      exact ⟨after.1, step.2.trans after.2⟩

theorem seedOrganizations_ok {seed : InMemoryAuthzSeed} {orgs : List Organization}
    {start store : InMemoryAuthzStore}
    (accepted : orgs.foldlM (seedOrganization seed) start = .ok store) :
    (∀ org ∈ orgs, assertNoCycles org.id seed.organizations = .ok ()) ∧
      store = { start with
        organizations := (orgs.map fun org => (org.id, org)).foldl
          (fun map pair => map.set pair.1 pair.2) start.organizations } := by
  induction orgs generalizing start with
  | nil =>
      cases accepted
      exact ⟨by simp, rfl⟩
  | cons org rest ih =>
      rw [List.foldlM_cons, seedOrganization] at accepted
      cases check : assertNoCycles org.id seed.organizations with
      | error error =>
          rw [check] at accepted
          cases accepted
      | ok _ =>
          rw [check] at accepted
          rcases ih accepted with ⟨checked, stored⟩
          refine ⟨?_, stored⟩
          rintro other otherMem
          rcases List.mem_cons.mp otherMem with rfl | later
          · exact check
          · exact checked other later

theorem Valid.seedPrincipals {principals : List Principal} {start store : InMemoryAuthzStore}
    (valid : start.Valid)
    (accepted : principals.foldlM InMemoryAuthzStore.registered start = .ok store) :
    store.Valid := by
  induction principals generalizing start with
  | nil =>
      cases accepted
      exact valid
  | cons principal rest ih =>
      rw [List.foldlM_cons] at accepted
      cases registered : start.registered principal with
      | error error =>
          rw [registered] at accepted
          cases accepted
      | ok next =>
          rw [registered] at accepted
          exact ih (valid.registered registered) accepted

theorem valid_new {seed : InMemoryAuthzSeed} {store : InMemoryAuthzStore}
    (accepted : new seed = .ok store) : store.Valid := by
  simp only [new] at accepted
  cases organizations : seed.organizations.foldlM (seedOrganization seed) empty with
  | error error =>
      rw [organizations] at accepted
      cases accepted
  | ok seeded =>
      rw [organizations] at accepted
      rcases seedOrganizations_ok organizations with ⟨checked, rfl⟩
      refine Valid.seedPrincipals ?_ accepted
      have lookups : (seed.organizations.map fun org => (org.id, org)).foldl
          (fun map pair => map.set pair.1 pair.2) empty.organizations =
            OrderedMap.ofList (seed.organizations.map fun org => (org.id, org)) := rfl
      rw [lookups]
      have keyed := keyed_byId seed.organizations
      rw [byId_eq_ofList] at keyed
      refine ⟨keyed, ?_, valid_empty.principalKeyed, valid_empty.pbuuidExact, valid_empty.rows,
        valid_empty.ownIds⟩
      intro id cycle
      rcases TransGen.head'_iff.mp cycle with ⟨_, ⟨org, found, -⟩, -⟩
      have listed : org ∈ seed.organizations := by
        rcases List.mem_map.mp (OrderedMap.mem_of_get?_ofList found) with ⟨other, otherMem, same⟩
        rw [← (Prod.mk.inj same).2]
        exact otherMem
      have check := checked org listed
      rw [keyed id org found] at check
      exact not_cycle_of_assertNoCycles check found cycle

theorem Reachable.valid {store : InMemoryAuthzStore} (reachable : store.Reachable) :
    store.Valid := by
  rcases reachable with ⟨seed, start, calls, accepted, rfl⟩
  exact ((valid_new accepted).run calls).1

theorem Valid.find_iff {store : InMemoryAuthzStore} (valid : store.Valid) {pbuuid : JsString}
    {principal : Principal} :
    store.findPrincipalByPbuuid pbuuid = some principal ↔
      store.getPrincipal principal.id = some principal ∧ pbuuid ∈ principal.pbuuids := by
  simp only [findPrincipalByPbuuid, getPrincipal, Option.bind_eq_some_iff]
  constructor
  · rintro ⟨id, owned, stored⟩
    rcases (valid.pbuuidExact pbuuid id).mp owned with ⟨other, otherStored, listed⟩
    rw [stored] at otherStored
    cases otherStored
    rw [valid.principalKeyed id principal stored]
    exact ⟨stored, listed⟩
  · rintro ⟨stored, listed⟩
    exact ⟨principal.id, (valid.pbuuidExact pbuuid principal.id).mpr ⟨principal, stored, listed⟩,
      stored⟩

def HoldsRowId (store : InMemoryAuthzStore) (id : JsString) : Prop :=
  ∃ principalId, ∃ row ∈ store.listGrantsForPrincipal principalId, row.id = id

theorem Valid.not_holdsRowId_run {store : InMemoryAuthzStore} (valid : store.Valid)
    {later : InMemoryAuthzStore} (evolve : GrantsEvolve store later) {id : JsString}
    (held : store.HoldsRowId id) (gone : ¬later.HoldsRowId id) {final : InMemoryAuthzStore}
    (laterEvolve : GrantsEvolve later final) : ¬final.HoldsRowId id := by
  rintro ⟨principalId, row, rowMem, named⟩
  rcases laterEvolve.evolves principalId row rowMem with ⟨old, oldMem, continues⟩ |
    ⟨number, above, fresh⟩
  · exact gone ⟨principalId, old, oldMem, continues.id.symm.trans named⟩
  · rcases held with ⟨holder, first, firstMem, firstNamed⟩
    rcases (valid.rows holder).issued first firstMem with ⟨older, below, issued⟩
    have same : grantId number = grantId older := by rw [← fresh, named, ← firstNamed, issued]
    have bound := evolve.bound
    exact absurd (grantId_injective same) (by omega)

theorem Valid.continues_of_sameId {store later : InMemoryAuthzStore} (valid : store.Valid)
    (evolve : GrantsEvolve store later) {holder laterHolder : JsString} {row laterRow : RoleGrant}
    (rowMem : row ∈ store.listGrantsForPrincipal holder)
    (laterMem : laterRow ∈ later.listGrantsForPrincipal laterHolder)
    (sameId : laterRow.id = row.id) : laterHolder = holder ∧ row.Continues laterRow := by
  rcases evolve.evolves laterHolder laterRow laterMem with ⟨old, oldMem, continues⟩ |
    ⟨number, above, fresh⟩
  · have same : old = row :=
      valid.ownIds laterHolder holder old row oldMem rowMem (continues.id.symm.trans sameId)
    subst same
    exact ⟨((valid.rows laterHolder).owned old oldMem).symm.trans
      ((valid.rows holder).owned old rowMem), continues⟩
  · rcases (valid.rows holder).issued row rowMem with ⟨older, below, issued⟩
    rw [fresh, issued] at sameId
    exact absurd (grantId_injective sameId) (by omega)

structure RunInvariants (store : InMemoryAuthzStore) (more : List AuthzCall) : Prop where
  acyclic : Acyclic store.HasParent
  pbuuids : ∀ pbuuid principal, store.findPrincipalByPbuuid pbuuid = some principal ↔
    store.getPrincipal principal.id = some principal ∧ pbuuid ∈ principal.pbuuids
  oneOwner : ∀ pbuuid left right,
    store.getPrincipal left.id = some left → pbuuid ∈ left.pbuuids →
      store.getPrincipal right.id = some right → pbuuid ∈ right.pbuuids → left = right
  detached : ∀ principal pbuuid owner, (store.registerPrincipal principal).2 = .ok () →
    store.findPrincipalByPbuuid pbuuid = some owner → owner.id = principal.id →
      pbuuid ∉ principal.pbuuids →
        (store.registerPrincipal principal).1.findPrincipalByPbuuid pbuuid = none
  notMoved : ∀ principal pbuuid owner, store.findPrincipalByPbuuid pbuuid = some owner →
    owner.id ≠ principal.id →
      (store.registerPrincipal principal).1.findPrincipalByPbuuid pbuuid = some owner
  oneRow : ∀ id, ((store.listGrantsForPrincipal id).map fun row => (row.orgId, row.role)).Nodup
  ownIds : ∀ left right leftRow rightRow, leftRow ∈ store.listGrantsForPrincipal left →
    rightRow ∈ store.listGrantsForPrincipal right → leftRow.id = rightRow.id →
      left = right ∧ leftRow = rightRow
  /-- While a row exists its principal, organization and role stay and its scope only widens. -/
  continues : ∀ holder laterHolder row laterRow, row ∈ store.listGrantsForPrincipal holder →
    laterRow ∈ (store.run more).listGrantsForPrincipal laterHolder → laterRow.id = row.id →
      laterHolder = holder ∧ row.Continues laterRow
  notReused : ∀ id evenMore, store.HoldsRowId id → ¬(store.run more).HoldsRowId id →
    ¬((store.run more).run evenMore).HoldsRowId id

theorem Valid.runInvariants {store : InMemoryAuthzStore} (valid : store.Valid)
    (more : List AuthzCall) : RunInvariants store more where
  acyclic := valid.orgAcyclic
  pbuuids := fun _ _ => valid.find_iff
  oneOwner := by
    intro pbuuid left right leftStored leftListed rightStored rightListed
    have toLeft := valid.find_iff.mpr ⟨leftStored, leftListed⟩
    have toRight := valid.find_iff.mpr ⟨rightStored, rightListed⟩
    exact Option.some.inj (toLeft.symm.trans toRight)
  detached := by
    intro principal pbuuid owner resolved _ _ leftOut
    simp only [registerPrincipal] at resolved ⊢
    rcases registered_cases store principal with ⟨error, refused, -⟩ |
      ⟨next, accepted, -, -, principals, -, -⟩
    · rw [refused] at resolved
      cases resolved
    · rw [accepted]
      apply Option.eq_none_iff_forall_ne_some.mpr
      intro found stillFound
      rcases (valid.registered accepted).find_iff.mp stillFound with ⟨stored, listed⟩
      rw [getPrincipal, principals, OrderedMap.get?_set] at stored
      split at stored
      case isTrue =>
        cases stored
        exact leftOut listed
      case isFalse different =>
        have old := valid.find_iff.mpr ⟨stored, listed⟩
        simp_all
  notMoved := by
    intro principal pbuuid owner found different
    simp only [registerPrincipal]
    rcases registered_cases store principal with ⟨error, refused, -⟩ |
      ⟨next, accepted, -, -, principals, -, -⟩
    · rw [refused]
      exact found
    · rw [accepted]
      rcases valid.find_iff.mp found with ⟨stored, listed⟩
      refine (valid.registered accepted).find_iff.mpr ⟨?_, listed⟩
      rw [getPrincipal, principals, OrderedMap.get?_set_of_ne _ _ different]
      exact stored
  oneRow := fun id => (valid.rows id).keys
  ownIds := by
    intro left right leftRow rightRow leftMem rightMem sameId
    have same := valid.ownIds left right leftRow rightRow leftMem rightMem sameId
    refine ⟨?_, same⟩
    rw [← (valid.rows left).owned leftRow leftMem, same, (valid.rows right).owned rightRow rightMem]
  continues := fun _ _ _ _ rowMem laterMem sameId =>
    valid.continues_of_sameId (valid.run more).2 rowMem laterMem sameId
  notReused := fun _ evenMore held gone =>
    valid.not_holdsRowId_run (valid.run more).2 held gone ((valid.run more).1.run evenMore).2

/-- From every accepted seed, after every sequence of calls, the invariants of the store hold. -/
theorem run_invariants {seed : InMemoryAuthzSeed} {start : InMemoryAuthzStore}
    (accepted : new seed = .ok start) (calls more : List AuthzCall) :
    RunInvariants (start.run calls) more :=
  (((valid_new accepted).run calls).1).runInvariants more

/-- A run that reparents an organization and detaches a pbuuid. -/
theorem run_invariants_acme : ∃ start,
    new ⟨[⟨js "acme", js "Acme", none⟩], [⟨js "alice", [js "a", js "b"], none, none⟩]⟩ =
      .ok start ∧
    RunInvariants (start.run [
        .upsertOrganization ⟨js "blr", js "Bangalore", some (js "india")⟩,
        .grantMany (js "alice") [⟨js "acme", js "staff", none⟩]])
      [.upsertOrganization ⟨js "india", js "India", some (js "acme")⟩,
        .grantMany (js "alice") [⟨js "acme", js "staff", some (js "subtree")⟩],
        .registerPrincipal ⟨js "alice", [js "b"], none, none⟩] :=
  ⟨_, rfl, @run_invariants
    ⟨[⟨js "acme", js "Acme", none⟩], [⟨js "alice", [js "a", js "b"], none, none⟩]⟩ _ rfl _ _⟩

end InMemoryAuthzStore

end StudentHub.Authz
