import StudentHub.Authz.Grants
import StudentHub.Authz.Organization

/-!
# The in-memory authorization store

The reference store keeps organizations, principals, the reverse index from
platform user ids to principals, and the grant rows of each principal. Every
operation runs without an await inside, so it is one step from a state to the next
state and a result. A rejected call has a next state as well: `grantMany` works on
the stored array itself, and what it pushed before the rejection stays there.
-/

namespace StudentHub.Authz

open Ecma Graph

/-- One human (or other acting entity) and the platform user ids that map to it. -/
structure Principal where
  id : JsString
  pbuuids : List JsString
  displayName : Option JsString
  email : Option JsString
  deriving DecidableEq

structure InMemoryAuthzStore where
  organizations : OrderedMap JsString Organization
  principals : OrderedMap JsString Principal
  pbuuidIndex : OrderedMap JsString JsString
  grantsByPrincipal : OrderedMap JsString (List RoleGrant)
  nextGrantId : ℕ
  deriving DecidableEq

structure InMemoryAuthzSeed where
  organizations : List Organization
  principals : List Principal

/-- Walk up from `startId`; meeting an organization twice is an error. -/
def assertNoCycles (startId : JsString) (orgs : List Organization) : Except AuthzError Unit :=
  let byId := OrderedMap.ofList (orgs.map fun org => (org.id, org))
  match (climb Organization.id byId.get? Organization.parentOrgId (orgs.length + 1) []
      (byId.get? startId)).2 with
  | none => .ok ()
  | some current => .error (.organizationCycle current.id)

def grantId (number : ℕ) : JsString := js "grant-" ++ decimal number

theorem grantId_injective : Function.Injective grantId := fun _ _ same =>
  decimal_injective (List.append_cancel_left same)

/-- The local variables of `grantMany` while it goes through the entries. -/
structure GrantDraft where
  rows : List RoleGrant
  byKey : OrderedMap JsString RoleGrant
  nextGrantId : ℕ

/-- One pass of the loop in `grantMany`, on an entry that has been normalized. -/
def grantEntry (principalId : JsString) (draft : GrantDraft) (entry : NormalizedGrantEntry) :
    GrantDraft :=
  let key := rowKey entry.orgId entry.role.text
  match draft.byKey.get? key with
  | some existing =>
      if entry.scope = .subtree ∧ existing.scope ≠ .subtree then
        let upgraded := { existing with scope := .subtree }
        { draft with
          rows := draft.rows.set (draft.rows.idxOf existing) upgraded
          byKey := draft.byKey.set key upgraded }
      else draft
  | none =>
      let row : RoleGrant := ⟨grantId draft.nextGrantId, principalId, entry.orgId, entry.role,
        entry.scope⟩
      { rows := draft.rows ++ [row]
        byKey := draft.byKey.set key row
        nextGrantId := draft.nextGrantId + 1 }

/-- The loop of `grantMany`: it stops at the first entry that does not normalize. -/
def grantEntries (principalId : JsString) :
    GrantDraft → List GrantEntry → GrantDraft × Except AuthzError Unit
  | draft, [] => (draft, .ok ())
  | draft, raw :: rest =>
      match normalizeGrantEntry raw with
      | .error error => (draft, .error error)
      | .ok entry => grantEntries principalId (grantEntry principalId draft entry) rest

def GrantDraft.start (rows : List RoleGrant) (nextGrantId : ℕ) : GrantDraft where
  rows := rows
  byKey := OrderedMap.ofList (rows.map fun row => (rowKey row.orgId row.role.text, row))
  nextGrantId := nextGrantId

namespace InMemoryAuthzStore

def empty : InMemoryAuthzStore := ⟨.empty, .empty, .empty, .empty, 1⟩

def foreignPbuuid (store : InMemoryAuthzStore) (principal : Principal) :
    Option (JsString × JsString) :=
  principal.pbuuids.findSome? fun pbuuid =>
    match store.pbuuidIndex.get? pbuuid with
    | some owner => if owner ≠ principal.id then some (pbuuid, owner) else none
    | none => none

/-- The method `#registerPrincipal`: check every pbuuid, then replace the principal's mappings. -/
def registered (store : InMemoryAuthzStore) (principal : Principal) :
    Except AuthzError InMemoryAuthzStore :=
  match store.foreignPbuuid principal with
  | some (pbuuid, owner) => .error (.pbuuidOwned pbuuid owner principal.id)
  | none =>
      let kept := store.pbuuidIndex.filter fun _ owner => owner ≠ principal.id
      .ok { store with
        principals := store.principals.set principal.id principal
        pbuuidIndex := principal.pbuuids.foldl (fun index pbuuid =>
          index.set pbuuid principal.id) kept }

def seedOrganization (seed : InMemoryAuthzSeed) (store : InMemoryAuthzStore) (org : Organization) :
    Except AuthzError InMemoryAuthzStore :=
  match assertNoCycles org.id seed.organizations with
  | .error error => .error error
  | .ok () => .ok { store with organizations := store.organizations.set org.id org }

def new (seed : InMemoryAuthzSeed) : Except AuthzError InMemoryAuthzStore := do
  let store ← seed.organizations.foldlM (seedOrganization seed) empty
  seed.principals.foldlM registered store

def listOrganizations (store : InMemoryAuthzStore) : List Organization :=
  store.organizations.values

def getOrganization (store : InMemoryAuthzStore) (orgId : JsString) : Option Organization :=
  store.organizations.get? orgId

def listPrincipals (store : InMemoryAuthzStore) : List Principal :=
  store.principals.values

def getPrincipal (store : InMemoryAuthzStore) (principalId : JsString) : Option Principal :=
  store.principals.get? principalId

def findPrincipalByPbuuid (store : InMemoryAuthzStore) (pbuuid : JsString) : Option Principal :=
  (store.pbuuidIndex.get? pbuuid).bind store.principals.get?

def listGrantsForPrincipal (store : InMemoryAuthzStore) (principalId : JsString) :
    List RoleGrant :=
  (store.grantsByPrincipal.get? principalId).getD []

abbrev Outcome := InMemoryAuthzStore × Except AuthzError Unit

def upsertOrganization (store : InMemoryAuthzStore) (org : Organization) : Outcome :=
  let siblings := store.organizations.values.filter fun other => other.id ≠ org.id
  match assertNoCycles org.id (siblings ++ [org]) with
  | .error error => (store, .error error)
  | .ok () => ({ store with organizations := store.organizations.set org.id org }, .ok ())

def registerPrincipal (store : InMemoryAuthzStore) (principal : Principal) : Outcome :=
  match store.registered principal with
  | .error error => (store, .error error)
  | .ok next => (next, .ok ())

def grantMany (store : InMemoryAuthzStore) (principalId : JsString) (entries : List GrantEntry) :
    Outcome :=
  let live := store.grantsByPrincipal.get? principalId
  let result := grantEntries principalId (.start (live.getD []) store.nextGrantId) entries
  let draft := result.1
  let stored := store.grantsByPrincipal.set principalId draft.rows
  match result.2 with
  | .ok () =>
      ({ store with grantsByPrincipal := stored, nextGrantId := draft.nextGrantId }, .ok ())
  | .error error =>
      -- The closing `set` is not reached, but a stored array has been edited in place.
      ({ store with
        grantsByPrincipal := if live.isSome then stored else store.grantsByPrincipal
        nextGrantId := draft.nextGrantId }, .error error)

def revokeMany (store : InMemoryAuthzStore) (principalId : JsString)
    (entries : List RevokeEntry) : Outcome :=
  match store.grantsByPrincipal.get? principalId with
  | none => (store, .ok ())
  | some rows =>
      let targets := entries.map fun entry => rowKey entry.orgId entry.role
      let remaining := rows.filter fun row => rowKey row.orgId row.role.text ∉ targets
      if remaining = [] then
        ({ store with grantsByPrincipal := store.grantsByPrincipal.delete principalId }, .ok ())
      else
        ({ store with
          grantsByPrincipal := store.grantsByPrincipal.set principalId remaining }, .ok ())

def clearGrantsForPrincipal (store : InMemoryAuthzStore) (principalId : JsString) : Outcome :=
  ({ store with grantsByPrincipal := store.grantsByPrincipal.delete principalId }, .ok ())

end InMemoryAuthzStore

/-- A call of a public operation that can change the store. -/
inductive AuthzCall where
  | upsertOrganization (org : Organization)
  | registerPrincipal (principal : Principal)
  | grantMany (principalId : JsString) (entries : List GrantEntry)
  | revokeMany (principalId : JsString) (entries : List RevokeEntry)
  | clearGrantsForPrincipal (principalId : JsString)

namespace InMemoryAuthzStore

def apply (store : InMemoryAuthzStore) : AuthzCall → Outcome
  | .upsertOrganization org => store.upsertOrganization org
  | .registerPrincipal principal => store.registerPrincipal principal
  | .grantMany principalId entries => store.grantMany principalId entries
  | .revokeMany principalId entries => store.revokeMany principalId entries
  | .clearGrantsForPrincipal principalId => store.clearGrantsForPrincipal principalId

/-- The state after a sequence of calls, rejected ones included. -/
def run (store : InMemoryAuthzStore) (calls : List AuthzCall) : InMemoryAuthzStore :=
  calls.foldl (fun current call => (current.apply call).1) store

/-- A state that some accepted seed and some sequence of calls lead to. -/
def Reachable (store : InMemoryAuthzStore) : Prop :=
  ∃ seed start calls, new seed = .ok start ∧ start.run calls = store

@[simp]
theorem run_nil (store : InMemoryAuthzStore) : store.run [] = store := rfl

@[simp]
theorem run_cons (store : InMemoryAuthzStore) (call : AuthzCall) (calls : List AuthzCall) :
    store.run (call :: calls) = (store.apply call).1.run calls := rfl

theorem reachable_run {seed : InMemoryAuthzSeed} {start : InMemoryAuthzStore}
    (accepted : new seed = .ok start) (calls : List AuthzCall) : (start.run calls).Reachable :=
  ⟨seed, start, calls, accepted, rfl⟩

end InMemoryAuthzStore

end StudentHub.Authz
