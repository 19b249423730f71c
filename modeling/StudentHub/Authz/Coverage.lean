import StudentHub.Authz.Reachable

/-!
# Coverage

Which grants make a role effective at an organization, stated on the parent relation
alone: `Covers` is a grant at the organization or a subtree grant above it, and
`Nearest` is the one that counts when several apply. Both resolution functions build
a list of direct entries followed by inherited entries sorted by distance, and take
the first match; `Offers` is what such lists have in common, and from it follows that
the first match belongs to the nearest grant.
-/

/-!
## Active contexts

The organization and role under which a request may act. A selection from the client
is only a preference: `resolveActiveContext` reads the grants again on every call and
authorizes the selection when a grant backs it. `listEffectiveContexts` expands all
grants of a principal into the contexts they make effective.

The first function walks up from the targeted organization, the second one goes down
from each granting organization. `none` stands for a call whose descent does not end.
-/

namespace StudentHub.Authz

open Ecma

/-- What the authentication layer has established about the caller. -/
inductive RequestIdentity where
  | principal (principalId : JsString)
  | pbuuid (pbuuid : JsString)

structure ContextSelection where
  orgId : Option JsString
  role : Option JsString

/-- The part of a verified actor assertion that authorization reads. -/
structure VerifiedActorClaims where
  sub : JsString
  act : Option ContextSelection

def claimsToRequestIdentity (claims : VerifiedActorClaims) : RequestIdentity :=
  .pbuuid claims.sub

/-- An absent or empty `act` claim is no selection at all. -/
def claimsActToContextSelection (claims : VerifiedActorClaims) : Option ContextSelection :=
  claims.act.filter fun act => act.orgId.isSome || act.role.isSome

structure EffectiveGrant where
  orgId : JsString
  role : Role
  scope : GrantScope
  grantedByOrgId : JsString
  direct : Bool
  deriving DecidableEq

structure ActiveContext where
  principalId : JsString
  orgId : JsString
  role : Role
  scope : GrantScope
  grantedByOrgId : JsString
  direct : Bool
  deriving DecidableEq

inductive DenialReason where
  | unknownPrincipal
  | noContextAtOrg
  | roleNotGranted
  | roleRequired
  | ambiguousContext
  deriving DecidableEq

inductive ContextResolution where
  | authorized (context : ActiveContext) (effectiveRoles : List Role)
  | denied (reason : DenialReason)
  deriving DecidableEq

def resolvePrincipalId (identity : RequestIdentity) (store : InMemoryAuthzStore) :
    Option JsString :=
  match identity with
  | .principal principalId => (store.getPrincipal principalId).map Principal.id
  | .pbuuid pbuuid => (store.findPrincipalByPbuuid pbuuid).map Principal.id

def RoleGrant.effectiveAt (grant : RoleGrant) (orgId : JsString) (direct : Bool) :
    EffectiveGrant :=
  ⟨orgId, grant.role, grant.scope, grant.orgId, direct⟩

def directAt (grants : List RoleGrant) (orgId : JsString) : List EffectiveGrant :=
  (grants.filter fun grant => grant.orgId = orgId).map fun grant => grant.effectiveAt orgId true

def inheritedAt (grants : List RoleGrant) (orgId : JsString) (targets : List JsString) :
    List EffectiveGrant :=
  (grants.filter fun grant => grant.orgId ≠ orgId ∧ grant.scope = .subtree ∧
    grant.orgId ∈ orgId :: targets).map fun grant => grant.effectiveAt orgId false

/-- The grants that apply at one organization, direct ones first, then the nearest. -/
def effectiveGrantsForOrg (principalId orgId : JsString) (store : InMemoryAuthzStore) :
    List EffectiveGrant :=
  let grants := store.listGrantsForPrincipal principalId
  let targets := ancestorOrgIdsIncludingSelf store.listOrganizations orgId
  directAt grants orgId ++
    sortBy (fun grant => indexOf targets grant.grantedByOrgId) (inheritedAt grants orgId targets)

/-- The key under which `attach` keeps the first grant. -/
def EffectiveGrant.key (grant : EffectiveGrant) : JsString := rowKey grant.orgId grant.role.text

def attachedContexts (grants : List RoleGrant) (orgIds : List JsString) : List EffectiveGrant :=
  (grants.filter fun grant => grant.orgId ∈ orgIds).map fun grant =>
    grant.effectiveAt grant.orgId true

def fanOut (organizations : List Organization) (grant : RoleGrant) :
    Option (List EffectiveGrant) :=
  (descendantOrgIdsIncludingSelf organizations grant.orgId).map fun orgIds =>
    (orgIds.filter fun orgId => orgId ≠ grant.orgId).map fun orgId =>
      grant.effectiveAt orgId false

def listEffectiveContexts (identity : RequestIdentity) (store : InMemoryAuthzStore) :
    Option (List EffectiveGrant) :=
  match resolvePrincipalId identity store with
  | none => some []
  | some principalId => do
      let grants := store.listGrantsForPrincipal principalId
      let organizations := store.listOrganizations
      let orgIds := organizations.map Organization.id
      let inherited ← (grants.filter fun grant =>
        grant.scope = .subtree ∧ grant.orgId ∈ orgIds).mapM (fanOut organizations)
      let sorted := sortBy (fun grant =>
        indexOf (ancestorOrgIdsIncludingSelf organizations grant.orgId) grant.grantedByOrgId)
        inherited.flatten
      return distinctBy EffectiveGrant.key (attachedContexts grants orgIds ++ sorted)

def pickRole (effective : List EffectiveGrant) (claimed : Option JsString) :
    Except DenialReason (Role × List Role) :=
  let present := effective.map EffectiveGrant.role
  let roles := ROLES.filter fun role => role ∈ present
  match claimed with
  | some text =>
      match isRole text with
      | none => .error .roleNotGranted
      | some role => if role ∈ present then .ok (role, roles) else .error .roleNotGranted
  | none =>
      match roles with
      | [role] => .ok (role, roles)
      | [] => .error .noContextAtOrg
      | _ => .error .roleRequired

/-- The branch of `resolveActiveContext` for a selection that names an organization. -/
def resolveTargeted (principalId orgId : JsString) (claimed : Option JsString)
    (store : InMemoryAuthzStore) : ContextResolution :=
  match store.getOrganization orgId with
  | none => .denied .noContextAtOrg
  | some _ =>
      let effective := effectiveGrantsForOrg principalId orgId store
      if effective = [] then .denied .noContextAtOrg
      else
        match pickRole effective claimed with
        | .error reason => .denied reason
        | .ok (role, roles) =>
            match (effective.find? fun grant => grant.role = role ∧ grant.direct).or
                (effective.find? fun grant => grant.role = role) with
            | none => .denied .roleNotGranted
            | some found =>
                .authorized ⟨principalId, orgId, role, found.scope, found.grantedByOrgId,
                  found.direct⟩ roles

/-- The branch without an organization: the principal must have exactly one context. -/
def resolveUntargeted (principalId : JsString) (contexts : List EffectiveGrant) :
    ContextResolution :=
  match contexts with
  | [] => .denied .unknownPrincipal
  | [only] =>
      .authorized ⟨principalId, only.orgId, only.role, only.scope, only.grantedByOrgId,
        only.direct⟩ [only.role]
  | _ => .denied .ambiguousContext

def resolveActiveContext (identity : RequestIdentity) (selection : Option ContextSelection)
    (store : InMemoryAuthzStore) : Option ContextResolution :=
  match resolvePrincipalId identity store with
  | none => some (.denied .unknownPrincipal)
  | some principalId =>
      match selection.bind ContextSelection.orgId with
      | some orgId =>
          some (resolveTargeted principalId orgId (selection.bind ContextSelection.role) store)
      | none => (listEffectiveContexts identity store).map (resolveUntargeted principalId)

end StudentHub.Authz

namespace StudentHub.Authz

open Ecma Graph Relation

namespace InMemoryAuthzStore

variable {store : InMemoryAuthzStore} {principalId orgId : JsString} {role : Role}
variable {grant other : RoleGrant}

theorem Valid.distinctIds (valid : store.Valid) :
    (store.listOrganizations.map Organization.id).Nodup :=
  OrderedMap.nodup_map_values valid.orgKeyed

theorem Valid.mem_orgIds_iff (valid : store.Valid) {id : JsString} :
    id ∈ store.listOrganizations.map Organization.id ↔ (store.getOrganization id).isSome := by
  rw [listOrganizations, OrderedMap.map_values_eq_keys valid.orgKeyed, OrderedMap.mem_keys_iff]
  rfl

theorem Valid.listed (valid : store.Valid) {id : JsString} {org : Organization}
    (found : store.getOrganization id = some org) :
    org ∈ store.listOrganizations ∧ org.id = id := by
  have named := valid.orgKeyed id org found
  refine ⟨(OrderedMap.mem_values_keyed valid.orgKeyed).mpr ?_, named⟩
  rw [named]
  exact found

theorem Valid.parentOf_eq (valid : store.Valid) :
    ParentOf store.listOrganizations = store.HasParent := by
  funext child parent
  apply propext
  constructor
  · rintro ⟨org, listed, rfl, names⟩
    exact ⟨org, (OrderedMap.mem_values_keyed valid.orgKeyed).mp listed, names⟩
  · rintro ⟨org, found, names⟩
    rcases valid.listed found with ⟨listed, named⟩
    exact ⟨org, listed, named, names⟩

theorem Valid.acyclic_parentOf (valid : store.Valid) :
    Acyclic (ParentOf store.listOrganizations) := by
  rw [valid.parentOf_eq]
  exact valid.orgAcyclic

structure Covers (store : InMemoryAuthzStore) (principalId orgId : JsString) (role : Role)
    (grant : RoleGrant) : Prop where
  held : grant ∈ store.listGrantsForPrincipal principalId
  named : grant.role = role
  target : (store.getOrganization orgId).isSome
  applies : grant.orgId = orgId ∨ grant.scope = .subtree ∧
    (store.getOrganization grant.orgId).isSome ∧ ReflTransGen store.HasParent orgId grant.orgId

theorem Covers.above (covers : store.Covers principalId orgId role grant) :
    ReflTransGen store.HasParent orgId grant.orgId := by
  rcases covers.applies with direct | ⟨-, -, path⟩
  · rw [direct]
  · exact path

theorem Covers.stored (covers : store.Covers principalId orgId role grant) :
    (store.getOrganization grant.orgId).isSome := by
  rcases covers.applies with direct | ⟨-, stored, -⟩
  · rw [direct]
    exact covers.target
  · exact stored

structure Nearest (store : InMemoryAuthzStore) (principalId orgId : JsString) (role : Role)
    (grant : RoleGrant) : Prop extends Covers store principalId orgId role grant where
  nearest : ∀ other, store.Covers principalId orgId role other →
    ReflTransGen store.HasParent grant.orgId other.orgId

theorem nearest_of_direct (covers : store.Covers principalId orgId role grant)
    (direct : grant.orgId = orgId) : store.Nearest principalId orgId role grant where
  toCovers := covers
  nearest := fun _ otherCovers => direct ▸ otherCovers.above

theorem Nearest.unique (valid : store.Valid) (left : store.Nearest principalId orgId role grant)
    (right : store.Nearest principalId orgId role other) : grant = other := by
  have sameOrg : grant.orgId = other.orgId :=
    valid.orgAcyclic.antisymm (left.nearest other right.toCovers)
      (right.nearest grant left.toCovers)
  exact (valid.rows principalId).unique left.held right.held sameOrg
    (left.named.trans right.named.symm)

theorem Valid.climbed (valid : store.Valid) (target : (store.getOrganization orgId).isSome) :
    Climbed (indexOrganizations store.listOrganizations).byId.get? Organization.parentOrgId orgId
      (ancestorOrgIdsIncludingSelf store.listOrganizations orgId) := by
  rcases Option.isSome_iff_exists.mp target with ⟨org, found⟩
  rcases valid.listed found with ⟨listed, named⟩
  exact ancestors_climbed valid.distinctIds listed named valid.acyclic_parentOf

theorem Valid.mem_ancestors (valid : store.Valid) (target : (store.getOrganization orgId).isSome)
    {ancestor : JsString} :
    ancestor ∈ ancestorOrgIdsIncludingSelf store.listOrganizations orgId ↔
      ReflTransGen store.HasParent orgId ancestor ∧ (store.getOrganization ancestor).isSome := by
  rcases Option.isSome_iff_exists.mp target with ⟨org, found⟩
  rcases valid.listed found with ⟨listed, named⟩
  rw [mem_ancestors_iff valid.distinctIds listed named valid.acyclic_parentOf, valid.parentOf_eq,
    valid.mem_orgIds_iff]

theorem Valid.path_of_indexOf_le (valid : store.Valid)
    (near : store.Covers principalId orgId role grant)
    (far : store.Covers principalId orgId role other)
    (order : indexOf (ancestorOrgIdsIncludingSelf store.listOrganizations orgId) grant.orgId ≤
      indexOf (ancestorOrgIdsIncludingSelf store.listOrganizations orgId) other.orgId) :
    ReflTransGen store.HasParent grant.orgId other.orgId := by
  have nearMem := (valid.mem_ancestors near.target).mpr ⟨near.above, near.stored⟩
  have farMem := (valid.mem_ancestors far.target).mpr ⟨far.above, far.stored⟩
  simp only [indexOf, nearMem, farMem, if_true, Int.ofNat_le] at order
  have path := (valid.climbed near.target).reflTransGen_of_idxOf_le nearMem farMem order
  rwa [points_byId valid.distinctIds, valid.parentOf_eq] at path

def entryAt (orgId : JsString) (grant : RoleGrant) : EffectiveGrant :=
  grant.effectiveAt orgId (grant.orgId = orgId)

/-- The matches in the lists that a resolution function builds are the covering grants. -/
structure Offers (store : InMemoryAuthzStore) (principalId orgId : JsString) (role : Role)
    (direct inherited : List EffectiveGrant) (distance : EffectiveGrant → ℤ)
    (select : EffectiveGrant → Bool) : Prop where
  direct : ∀ entry, entry ∈ direct ∧ select entry = true ↔
    ∃ grant, store.Covers principalId orgId role grant ∧ grant.orgId = orgId ∧
      entry = entryAt orgId grant
  inherited : ∀ entry, entry ∈ inherited ∧ select entry = true ↔
    ∃ grant, store.Covers principalId orgId role grant ∧ grant.orgId ≠ orgId ∧
      entry = entryAt orgId grant
  distance : ∀ entry, entry.orgId = orgId → distance entry =
    indexOf (ancestorOrgIdsIncludingSelf store.listOrganizations orgId) entry.grantedByOrgId

section Offers

variable {direct inherited : List EffectiveGrant} {distance : EffectiveGrant → ℤ}
variable {select : EffectiveGrant → Bool}

theorem Offers.nearest (offers : Offers store principalId orgId role direct inherited distance
    select) (valid : store.Valid) {entry : EffectiveGrant}
    (found : (direct ++ sortBy distance inherited).find? select = some entry) :
    ∃ grant, store.Nearest principalId orgId role grant ∧ entry = entryAt orgId grant := by
  rw [List.find?_append, Option.or_eq_some_iff] at found
  rcases found with inDirect | ⟨noDirect, inInherited⟩
  · rcases (offers.direct entry).mp
        ⟨List.mem_of_find?_eq_some inDirect, List.find?_some inDirect⟩ with
      ⟨grant, covers, isDirect, same⟩
    exact ⟨grant, nearest_of_direct covers isDirect, same⟩
  · rcases find?_sortBy inInherited with ⟨entryMem, selected, least⟩
    rcases (offers.inherited entry).mp ⟨entryMem, selected⟩ with ⟨grant, covers, -, rfl⟩
    refine ⟨grant, ⟨covers, ?_⟩, rfl⟩
    intro other otherCovers
    have otherInherited : other.orgId ≠ orgId := by
      intro isDirect
      rcases (offers.direct (entryAt orgId other)).mpr ⟨other, otherCovers, isDirect, rfl⟩ with
        ⟨member, otherSelected⟩
      exact absurd otherSelected (List.find?_eq_none.mp noDirect _ member)
    rcases (offers.inherited (entryAt orgId other)).mpr
        ⟨other, otherCovers, otherInherited, rfl⟩ with ⟨otherMem, otherSelected⟩
    have order := least _ otherMem otherSelected
    rw [offers.distance _ rfl, offers.distance _ rfl] at order
    exact valid.path_of_indexOf_le covers otherCovers order

theorem Offers.not_covers (offers : Offers store principalId orgId role direct inherited distance
    select) (missing : (direct ++ sortBy distance inherited).find? select = none) :
    ¬store.Covers principalId orgId role grant := by
  intro covers
  rw [List.find?_eq_none] at missing
  by_cases isDirect : grant.orgId = orgId
  · rcases (offers.direct _).mpr ⟨grant, covers, isDirect, rfl⟩ with ⟨member, selected⟩
    exact missing _ (List.mem_append_left _ member) selected
  · rcases (offers.inherited _).mpr ⟨grant, covers, isDirect, rfl⟩ with ⟨member, selected⟩
    exact missing _ (List.mem_append_right _ (mem_sortBy.mpr member)) selected

theorem Offers.isSome_iff (offers : Offers store principalId orgId role direct inherited distance
    select) (valid : store.Valid) :
    ((direct ++ sortBy distance inherited).find? select).isSome ↔
      ∃ grant, store.Covers principalId orgId role grant := by
  cases found : (direct ++ sortBy distance inherited).find? select with
  | none => simpa using fun grant => offers.not_covers found
  | some entry =>
      rcases offers.nearest valid found with ⟨grant, nearest, -⟩
      exact iff_of_true rfl ⟨grant, nearest.toCovers⟩

end Offers

end InMemoryAuthzStore

end StudentHub.Authz
