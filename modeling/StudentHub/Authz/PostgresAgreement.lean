import StudentHub.Authz.PostgresEffects
import StudentHub.Authz.Reachable

/-!
# Agreement of the two authorization stores

`Matches` relates a state of the reference store to tables with the same lookups. It
holds of the empty stores, and a call that resolves on both keeps it, as long as the
text columns store the strings of the call unchanged. On related states the two cycle
checks give the same verdict: one climbs from the changed organization and watches
for a repetition, the other climbs from the new parent and watches for the changed
organization.
-/

namespace StudentHub.Authz

open Ecma Graph Relation InMemoryAuthzStore

def AuthzCall.texts : AuthzCall → List JsString
  | .upsertOrganization org => org.id :: org.name :: org.parentOrgId.toList
  | .registerPrincipal principal => principal.id :: principal.pbuuids ++
      (principal.displayName.toList ++ principal.email.toList)
  | .grantMany principalId entries => principalId :: entries.map fun raw => raw.orgId.trim
  | .revokeMany principalId entries =>
      principalId :: (entries.map RevokeEntry.orgId ++ entries.map RevokeEntry.role)
  | .clearGrantsForPrincipal principalId => [principalId]

def StoredUnchanged (textColumn : JsString → Option JsString) (call : AuthzCall) : Prop :=
  ∀ text ∈ call.texts, textColumn text = some text

instance (textColumn : JsString → Option JsString) (call : AuthzCall) :
    Decidable (StoredUnchanged textColumn call) :=
  inferInstanceAs (Decidable (∀ text ∈ call.texts, textColumn text = some text))

/-- Both stores hold the same organizations, identities and grants. -/
structure Agrees (store : InMemoryAuthzStore) (db : PostgresAuthzStore) : Prop where
  organizations : ∀ id, store.getOrganization id = db.organizations.get? id
  principals : ∀ id, (store.getPrincipal id).map (fun principal =>
    (⟨principal.displayName, principal.email⟩ : PrincipalRow)) = db.principals.get? id
  pbuuids : ∀ pbuuid id,
    (∃ principal, store.findPrincipalByPbuuid pbuuid = some principal ∧ principal.id = id) ↔
      db.principalPbuuids.get? pbuuid = some id
  grants : ∀ principalId orgId role scope,
    (∃ row ∈ store.listGrantsForPrincipal principalId, row.At orgId role ∧ row.scope = scope) ↔
      db.grants.get? (principalId, orgId, role) = some scope

/-- The simulation relation: the indexes of the store are the lookups of the tables. -/
structure Matches (store : InMemoryAuthzStore) (db : PostgresAuthzStore) : Prop where
  organizations : ∀ id, store.organizations.get? id = db.organizations.get? id
  principals : ∀ id, (store.principals.get? id).map (fun principal =>
    (⟨principal.displayName, principal.email⟩ : PrincipalRow)) = db.principals.get? id
  pbuuids : ∀ pbuuid, store.pbuuidIndex.get? pbuuid = db.principalPbuuids.get? pbuuid
  grants : ∀ principalId orgId role, scopeAt (store.listGrantsForPrincipal principalId) orgId role =
    db.grants.get? (principalId, orgId, role)

variable {textColumn : JsString → Option JsString} {store : InMemoryAuthzStore}
variable {db next : PostgresAuthzStore}

theorem matches_empty : Matches InMemoryAuthzStore.empty PostgresAuthzStore.empty :=
  ⟨fun _ => rfl, fun _ => rfl, fun _ => rfl, fun _ _ _ => rfl⟩

theorem Matches.agrees (related : Matches store db) (valid : store.Valid) : Agrees store db where
  organizations := related.organizations
  principals := related.principals
  pbuuids := by
    intro pbuuid id
    rw [← related.pbuuids, valid.pbuuidExact]
    constructor
    · rintro ⟨principal, found, rfl⟩
      exact ⟨principal, valid.find_iff.mp found⟩
    · rintro ⟨principal, stored, listed⟩
      have named := valid.principalKeyed id principal stored
      refine ⟨principal, valid.find_iff.mpr ⟨?_, listed⟩, named⟩
      rw [named]
      exact stored
  grants := by
    intro principalId orgId role scope
    rw [← related.grants, scopeAt_eq_some_iff (valid.rows principalId)]

theorem cycle_after_set_iff {org : Organization} :
    TransGen (Points (store.organizations.set org.id org).get? Organization.parentOrgId)
        org.id org.id ↔
      ∃ parent, org.parentOrgId = some parent ∧
        (parent = org.id ∨ TransGen store.HasParent parent org.id) := by
  have sameElsewhere : ∀ child parent, child ≠ org.id →
      (Points (store.organizations.set org.id org).get? Organization.parentOrgId child parent ↔
        store.HasParent child parent) := by
    intro child parent different
    rw [Points, OrderedMap.get?_set_of_ne _ _ different]
    rfl
  have stepOut : ∀ parent, Points (store.organizations.set org.id org).get?
      Organization.parentOrgId org.id parent ↔ org.parentOrgId = some parent := by
    intro parent
    simp [Points]
  rw [TransGen.head'_iff]
  apply exists_congr
  intro parent
  rw [stepOut, reflTransGen_changed_iff sameElsewhere, reflTransGen_iff_eq_or_transGen,
    @eq_comm _ org.id parent]

theorem upsertOrganization_accepted_iff (related : Matches store db) (valid : store.Valid)
    {org : Organization} (unchanged : StoredUnchanged textColumn (.upsertOrganization org))
    (parentExists : ∀ parent ∈ org.parentOrgId, (store.getOrganization parent).isSome) :
    (store.upsertOrganization org).2 = .ok () ↔
      ∃ next, db.upsertOrganization textColumn org = .ok next := by
  have kept := @PostgresAuthzStore.upsertOrganization_kept textColumn db org
    (unchanged _ (by simp [AuthzCall.texts])) (unchanged _ (by simp [AuthzCall.texts]))
    (fun parent isParent => unchanged _ (by simp_all [AuthzCall.texts]))
  have sameParents : Points db.organizations.get? Organization.parentOrgId = store.HasParent := by
    funext child parent
    simp only [Points, HasParent, related.organizations]
  have verdict : (store.upsertOrganization org).2 = .ok () ↔ ¬∃ parent,
      org.parentOrgId = some parent ∧
        (parent = org.id ∨ TransGen store.HasParent parent org.id) := by
    rw [← cycle_after_set_iff]
    rcases upsertOrganization_cases valid org with ⟨error, refused, cycle⟩ | ⟨accepted, noCycle⟩
    · simp [refused, cycle]
    · simp [accepted, noCycle]
  rw [verdict, kept]
  cases names : org.parentOrgId with
  | none => simp
  | some parent =>
      have present : (db.organizations.set org.id org).has parent = true := by
        have stored := parentExists parent names
        rw [getOrganization, related.organizations] at stored
        rw [OrderedMap.has, OrderedMap.get?_set]
        split
        · rfl
        · exact stored
      by_cases self : parent = org.id
      · simp [self]
      · by_cases hits : db.walkHits parent org.id = true
        · have path := PostgresAuthzStore.walkHits_iff.mp hits
          rw [sameParents] at path
          simp [self, hits, path]
        · have noPath := mt PostgresAuthzStore.walkHits_iff.mpr hits
          rw [sameParents] at noPath
          simp [self, hits, present, noPath]

theorem Matches.upsertOrganization (related : Matches store db) (valid : store.Valid)
    {org : Organization} (unchanged : StoredUnchanged textColumn (.upsertOrganization org))
    (resolved : (store.upsertOrganization org).2 = .ok ())
    (committed : db.upsertOrganization textColumn org = .ok next) :
    Matches (store.upsertOrganization org).1 next := by
  rw [PostgresAuthzStore.upsertOrganization_kept (unchanged _ (by simp [AuthzCall.texts]))
    (unchanged _ (by simp [AuthzCall.texts]))
    (fun parent isParent => unchanged _ (by simp_all [AuthzCall.texts]))] at committed
  rcases upsertOrganization_cases valid org with ⟨error, refused, -⟩ | ⟨accepted, -⟩
  · simp [refused] at resolved
  · split at committed
    · cases committed
    · split at committed
      · cases committed
      · split at committed
        · cases committed
          rw [accepted]
          refine ⟨?_, related.principals, related.pbuuids, related.grants⟩
          intro id
          simp only [OrderedMap.get?_set, related.organizations]
        · cases committed

theorem Matches.registerPrincipal (related : Matches store db) {principal : Principal}
    (unchanged : StoredUnchanged textColumn (.registerPrincipal principal))
    (resolved : (store.registerPrincipal principal).2 = .ok ())
    (committed : db.registerPrincipal textColumn principal = .ok next) :
    Matches (store.registerPrincipal principal).1 next := by
  rcases PostgresAuthzStore.registerPrincipal_effect (unchanged _ (by simp [AuthzCall.texts]))
    (fun _ member => unchanged _ (by simp [AuthzCall.texts, member]))
    (fun _ member => unchanged _ (by simp_all [AuthzCall.texts]))
    (fun _ member => unchanged _ (by simp_all [AuthzCall.texts])) committed with
    ⟨organizations, grants, principals, pbuuids⟩
  rw [InMemoryAuthzStore.registerPrincipal] at resolved ⊢
  rcases registered_cases store principal with ⟨error, refused, -⟩ |
    ⟨after, accepted, -, sameOrganizations, samePrincipals, sameGrants, -⟩
  · simp [refused] at resolved
  · rw [accepted]
    refine ⟨?_, ?_, ?_, ?_⟩
    · intro id
      rw [sameOrganizations, organizations, related.organizations]
    · intro id
      rw [samePrincipals, OrderedMap.get?_set, principals, ← related.principals]
      split <;> rfl
    · intro pbuuid
      rw [get?_registered accepted, pbuuids, related.pbuuids]
    · intro principalId orgId role
      rw [grants, ← related.grants, listGrantsForPrincipal, listGrantsForPrincipal, sameGrants]

theorem Matches.of_grants (related : Matches store db) {after : InMemoryAuthzStore}
    (organizations : after.organizations = store.organizations)
    (principals : after.principals = store.principals)
    (index : after.pbuuidIndex = store.pbuuidIndex)
    (frame : PostgresAuthzStore.SameExceptGrants db next)
    (grants : ∀ principalId orgId role,
      scopeAt (after.listGrantsForPrincipal principalId) orgId role =
        next.grants.get? (principalId, orgId, role)) :
    Matches after next where
  organizations := by
    rw [organizations, frame.organizations]
    exact related.organizations
  principals := by
    rw [principals, frame.principals]
    exact related.principals
  pbuuids := by
    rw [index, frame.principalPbuuids]
    exact related.pbuuids
  grants := grants

theorem Matches.grantMany (related : Matches store db) (valid : store.Valid)
    {principalId : JsString} {entries : List GrantEntry}
    (unchanged : StoredUnchanged textColumn (.grantMany principalId entries))
    (resolved : (store.grantMany principalId entries).2 = .ok ())
    (committed : db.grantMany textColumn principalId entries = .ok next) :
    Matches (store.grantMany principalId entries).1 next := by
  rcases PostgresAuthzStore.grantMany_effect (unchanged _ (by simp [AuthzCall.texts]))
    (fun raw member => unchanged _ (List.mem_cons_of_mem _ (List.mem_map_of_mem member)))
    committed with ⟨frame, -, grants⟩
  rcases grantMany_cases store principalId entries with ⟨after, -⟩ | ⟨-, ⟨error, rejected⟩, -⟩
  · rw [after]
    refine related.of_grants rfl rfl rfl frame ?_
    intro holder orgId role
    rw [listGrants_set, grants, ← related.grants]
    split
    case isTrue same =>
      have start := draftValid_start (valid.rows principalId)
      have trimmed : ∀ entry ∈ acceptedPrefix entries, entry.orgId.trim = entry.orgId :=
        fun _ => trimmed_of_mem_acceptedPrefix
      rw [same, grantDraft, grantEntries_draft, scopeAt_foldl start trimmed]
      rfl
    case isFalse => rfl
  · simp [rejected] at resolved

theorem scopeAt_filter {rows : List RoleGrant} {keep : RoleGrant → Bool} {orgId : JsString}
    {role : Role} {kept : Prop} [Decidable kept]
    (byKey : ∀ row, row.At orgId role → (keep row = true ↔ kept)) :
    scopeAt (rows.filter keep) orgId role = if kept then scopeAt rows orgId role else none := by
  induction rows with
  | nil => simp [scopeAt]
  | cons row rest ih =>
      simp only [scopeAt] at ih
      by_cases at_ : row.At orgId role
      · by_cases isKept : kept
        · have keeps := (byKey row at_).mpr isKept
          simp [scopeAt, keeps, at_, isKept]
        · have drops := mt (byKey row at_).mp isKept
          simpa [scopeAt, drops, isKept] using ih
      · by_cases keeps : keep row = true
        · simpa [scopeAt, keeps, at_] using ih
        · simpa [scopeAt, keeps, at_] using ih

theorem Matches.revokeMany (related : Matches store db)
    (refusesZero : ∀ text, 0 ∈ text → textColumn text = none)
    {principalId : JsString} {entries : List RevokeEntry}
    (unchanged : StoredUnchanged textColumn (.revokeMany principalId entries))
    (committed : db.revokeMany textColumn principalId entries = .ok next) :
    Matches (store.revokeMany principalId entries).1 next := by
  have texts : ∀ entry ∈ entries, textColumn entry.orgId = some entry.orgId ∧
      textColumn entry.role = some entry.role := by
    intro entry member
    constructor
    · apply unchanged
      exact List.mem_cons_of_mem _ (List.mem_append_left _ (List.mem_map_of_mem member))
    · apply unchanged
      exact List.mem_cons_of_mem _ (List.mem_append_right _ (List.mem_map_of_mem member))
  rcases PostgresAuthzStore.revokeMany_effect (unchanged _ (by simp [AuthzCall.texts])) texts
    committed with ⟨frame, grants⟩
  rcases revokeMany_frame store principalId entries with ⟨organizations, principals, index, -⟩
  refine related.of_grants organizations principals index frame ?_
  intro holder orgId role
  rw [listGrants_revokeMany, grants, ← related.grants]
  -- Without a zero in the role, the composite key of an entry is its pair of strings.
  have sameKey : rowKey orgId role.text ∈ entries.map (fun entry =>
      rowKey entry.orgId entry.role) ↔ (⟨orgId, role.text⟩ : RevokeEntry) ∈ entries := by
    simp only [List.mem_map]
    constructor
    · rintro ⟨⟨entryOrg, entryRole⟩, member, same⟩
      have plain : 0 ∉ entryRole := by
        intro zero
        have refused := refusesZero entryRole zero
        rw [(texts _ member).2] at refused
        cases refused
      rcases rowKey_inj plain role.nul_notMem_text same with ⟨rfl, rfl⟩
      exact member
    · intro member
      exact ⟨_, member, rfl⟩
  by_cases isHolder : holder = principalId
  · subst isHolder
    have byKey : ∀ row : RoleGrant, row.At orgId role →
        (decide (rowKey row.orgId row.role.text ∉ entries.map fun entry =>
          rowKey entry.orgId entry.role) = true ↔
            (⟨orgId, role.text⟩ : RevokeEntry) ∉ entries) := by
      rintro row ⟨rfl, rfl⟩
      rw [decide_eq_true_eq, sameKey]
    rw [if_pos rfl, scopeAt_filter byKey]
    by_cases named : (⟨orgId, role.text⟩ : RevokeEntry) ∈ entries <;> simp [named]
  · simp [isHolder]

theorem Matches.clearGrantsForPrincipal (related : Matches store db) {principalId : JsString}
    (unchanged : StoredUnchanged textColumn (.clearGrantsForPrincipal principalId))
    (committed : db.clearGrantsForPrincipal textColumn principalId = .ok next) :
    Matches (store.clearGrantsForPrincipal principalId).1 next := by
  rcases PostgresAuthzStore.clearGrantsForPrincipal_effect
    (unchanged _ (by simp [AuthzCall.texts])) committed with ⟨frame, grants⟩
  refine related.of_grants rfl rfl rfl frame ?_
  intro holder orgId role
  rw [InMemoryAuthzStore.clearGrantsForPrincipal, listGrants_delete, grants, ← related.grants]
  split <;> rfl

def applyBoth (textColumn : JsString → Option JsString)
    (states : InMemoryAuthzStore × PostgresAuthzStore) (call : AuthzCall) :
    Option (InMemoryAuthzStore × PostgresAuthzStore) :=
  match states.1.apply call, states.2.apply textColumn call with
  | (store, .ok _), .ok db => some (store, db)
  | _, _ => none

/-- The states after calls that all resolve on both stores, from empty stores. -/
def runBoth (textColumn : JsString → Option JsString) (calls : List AuthzCall) :
    Option (InMemoryAuthzStore × PostgresAuthzStore) :=
  calls.foldlM (applyBoth textColumn) (InMemoryAuthzStore.empty, PostgresAuthzStore.empty)

theorem Matches.applyBoth (refusesZero : ∀ text, 0 ∈ text → textColumn text = none)
    (related : Matches store db) (valid : store.Valid) {call : AuthzCall}
    (unchanged : StoredUnchanged textColumn call)
    {states : InMemoryAuthzStore × PostgresAuthzStore}
    (applied : applyBoth textColumn (store, db) call = some states) :
    Matches states.1 states.2 ∧ states.1.Valid := by
  simp only [Authz.applyBoth] at applied
  split at applied
  case h_2 => cases applied
  case h_1 after _ next isAfter committed =>
    cases applied
    have resolved : (store.apply call).2 = .ok () := by rw [isAfter]
    have isNext : (store.apply call).1 = after := by rw [isAfter]
    have validAfter := (valid.apply call).1
    rw [isNext] at validAfter
    refine ⟨?_, validAfter⟩
    rw [← isNext]
    cases call with
    | upsertOrganization org => exact related.upsertOrganization valid unchanged resolved committed
    | registerPrincipal principal => exact related.registerPrincipal unchanged resolved committed
    | grantMany principalId entries => exact related.grantMany valid unchanged resolved committed
    | revokeMany principalId entries => exact related.revokeMany refusesZero unchanged committed
    | clearGrantsForPrincipal principalId =>
        exact related.clearGrantsForPrincipal unchanged committed

theorem matches_run (refusesZero : ∀ text, 0 ∈ text → textColumn text = none)
    {calls : List AuthzCall} (unchanged : ∀ call ∈ calls, StoredUnchanged textColumn call)
    (related : Matches store db) (valid : store.Valid)
    {states : InMemoryAuthzStore × PostgresAuthzStore}
    (ran : calls.foldlM (applyBoth textColumn) (store, db) = some states) :
    Matches states.1 states.2 ∧ states.1.Valid := by
  induction calls generalizing store db with
  | nil =>
      cases ran
      exact ⟨related, valid⟩
  | cons call rest ih =>
      rw [List.forall_mem_cons] at unchanged
      rw [List.foldlM_cons, Option.bind_eq_bind, Option.bind_eq_some_iff] at ran
      rcases ran with ⟨⟨after, nextDb⟩, first, later⟩
      have step := related.applyBoth refusesZero valid unchanged.1 first
      exact ih unchanged.2 step.1 step.2 later

/-- After every run the stores agree, and they accept the same updates of organizations. -/
theorem stores_agree (refusesZero : ∀ text, 0 ∈ text → textColumn text = none)
    {calls : List AuthzCall} (unchanged : ∀ call ∈ calls, StoredUnchanged textColumn call)
    (ran : runBoth textColumn calls = some (store, db)) :
    Agrees store db ∧ ∀ org, StoredUnchanged textColumn (.upsertOrganization org) →
      (∀ parent ∈ org.parentOrgId, (store.getOrganization parent).isSome) →
        ((store.upsertOrganization org).2 = .ok () ↔
          ∃ next, db.upsertOrganization textColumn org = .ok next) := by
  rcases matches_run refusesZero unchanged matches_empty valid_empty ran with ⟨related, valid⟩
  refine ⟨related.agrees valid, ?_⟩
  intro org orgUnchanged parentExists
  exact upsertOrganization_accepted_iff related valid orgUnchanged parentExists

theorem utf8Column_refusesZero (text : JsString) (zero : 0 ∈ text) : utf8Column text = none :=
  if_pos zero

/-- A run with a repeated key inside one grant call and a role that stays after a revocation. -/
theorem stores_agree_acme : ∃ store db,
    runBoth utf8Column [.upsertOrganization ⟨js "acme", js "Acme", none⟩,
      .upsertOrganization ⟨js "india", js "India", some (js "acme")⟩,
      .registerPrincipal ⟨js "alice", [js "a", js "a"], none, some (js "alice@acme")⟩,
      .grantMany (js "alice") [⟨js "acme", js "staff", none⟩, ⟨js "india", js "admin", none⟩,
        ⟨js " acme ", js "staff", some (js "subtree")⟩],
      .revokeMany (js "alice") [⟨js "india", js "admin"⟩]] = some (store, db) ∧
    Agrees store db ∧
      ((store.upsertOrganization ⟨js "acme", js "Acme", some (js "india")⟩).2 = .ok () ↔
        ∃ next, db.upsertOrganization utf8Column ⟨js "acme", js "Acme", some (js "india")⟩ =
          .ok next) := by
  refine ⟨_, _, rfl, ?_⟩
  have ran : runBoth utf8Column [.upsertOrganization ⟨js "acme", js "Acme", none⟩,
      .upsertOrganization ⟨js "india", js "India", some (js "acme")⟩,
      .registerPrincipal ⟨js "alice", [js "a", js "a"], none, some (js "alice@acme")⟩,
      .grantMany (js "alice") [⟨js "acme", js "staff", none⟩, ⟨js "india", js "admin", none⟩,
        ⟨js " acme ", js "staff", some (js "subtree")⟩],
      .revokeMany (js "alice") [⟨js "india", js "admin"⟩]] = some (_, _) := rfl
  have agreed := stores_agree utf8Column_refusesZero (by decide) ran
  exact ⟨agreed.1, agreed.2 _ (by decide) (by decide)⟩

/-- A lone surrogate is stored differently, and a zero code unit is accepted by one store only. -/
theorem texts_tell_the_stores_apart :
    (∃ store db, runBoth utf8Column [.upsertOrganization ⟨[0xD800], js "Acme", none⟩] =
        some (store, db) ∧ ¬Agrees store db) ∧
      ∃ store db, runBoth utf8Column [.upsertOrganization ⟨js "acme", js "Acme", none⟩] =
          some (store, db) ∧
        (store.upsertOrganization ⟨js "india", [0], some (js "acme")⟩).2 = .ok () ∧
        db.upsertOrganization utf8Column ⟨js "india", [0], some (js "acme")⟩ =
          .error .invalidText := by
  refine ⟨⟨_, _, rfl, ?_⟩, ⟨_, _, rfl, by decide, by decide⟩⟩
  intro agrees
  exact absurd (agrees.organizations [0xD800]) (by decide)

end StudentHub.Authz
