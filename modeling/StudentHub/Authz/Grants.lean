import StudentHub.Ecma.Text

/-!
# Roles and grants

The closed role set and the grant rows of the authorization contract. A grant
attaches a role to one principal and one organization; its scope says whether the
role also applies below that organization. Entries arrive from callers as plain
strings and become rows only through `normalizeGrantEntry`.
-/

namespace StudentHub.Authz

open Ecma

inductive Role where
  | candidate
  | staff
  | admin
  | orgOwner
  | recruiter
  | finance
  deriving DecidableEq, Repr

namespace Role

/-- The text that stands for a role in claims, entries and rows. -/
def text : Role → JsString
  | candidate => js "candidate"
  | staff => js "staff"
  | admin => js "admin"
  | orgOwner => js "org-owner"
  | recruiter => js "recruiter"
  | finance => js "finance"

theorem text_injective : Function.Injective text := by
  intro left right same
  cases left <;> cases right <;> first | rfl | exact absurd same (by decide)

theorem nul_notMem_text (role : Role) : 0 ∉ role.text := by
  cases role <;> decide

end Role

def ROLES : List Role := [.candidate, .staff, .admin, .orgOwner, .recruiter, .finance]

def isRole (value : JsString) : Option Role := ROLES.find? fun role => role.text = value

theorem isRole_eq_some_iff {value : JsString} {role : Role} :
    isRole value = some role ↔ role.text = value := by
  constructor
  · intro found
    simpa using List.find?_some found
  · rintro rfl
    cases role <;> decide

@[simp]
theorem isRole_text (role : Role) : isRole role.text = some role := isRole_eq_some_iff.mpr rfl

inductive GrantScope where
  | self
  | subtree
  deriving DecidableEq, Repr

namespace GrantScope

def text : GrantScope → JsString
  | self => js "self"
  | subtree => js "subtree"

end GrantScope

def isGrantScope (value : JsString) : Option GrantScope :=
  if value = GrantScope.self.text then some .self
  else if value = GrantScope.subtree.text then some .subtree
  else none

structure RoleGrant where
  id : JsString
  principalId : JsString
  orgId : JsString
  role : Role
  scope : GrantScope
  deriving DecidableEq

structure GrantEntry where
  orgId : JsString
  role : JsString
  scope : Option JsString
  deriving DecidableEq

structure RevokeEntry where
  orgId : JsString
  role : JsString
  deriving DecidableEq

/-- The revocation that names the same strings as a grant entry. -/
def GrantEntry.toRevokeEntry (entry : GrantEntry) : RevokeEntry := ⟨entry.orgId, entry.role⟩

/-- The ways in which the authorization stores refuse a call with a `TypeError`. -/
inductive AuthzError where
  | organizationCycle (id : JsString)
  | ownParent (id : JsString)
  | pbuuidOwned (pbuuid owner claimant : JsString)
  | emptyOrgId
  | unknownRole
  | unknownScope
  deriving DecidableEq

structure NormalizedGrantEntry where
  orgId : JsString
  role : Role
  scope : GrantScope
  deriving DecidableEq

/-- Check one entry: the organization id is trimmed, and the scope defaults to `self`. -/
def normalizeGrantEntry (entry : GrantEntry) : Except AuthzError NormalizedGrantEntry :=
  let orgId := entry.orgId.trim
  if orgId = [] then .error .emptyOrgId
  else
    match isRole entry.role with
    | none => .error .unknownRole
    | some role =>
        match entry.scope with
        | none => .ok ⟨orgId, role, .self⟩
        | some text =>
            match isGrantScope text with
            | none => .error .unknownScope
            | some scope => .ok ⟨orgId, role, scope⟩

theorem normalizeGrantEntry_ok {entry : GrantEntry} {normalized : NormalizedGrantEntry}
    (accepted : normalizeGrantEntry entry = .ok normalized) :
    normalized.orgId = entry.orgId.trim ∧ normalized.role.text = entry.role := by
  simp only [normalizeGrantEntry] at accepted
  split at accepted
  · cases accepted
  · split at accepted
    · cases accepted
    · rename_i role named
      have roleText := isRole_eq_some_iff.mp named
      split at accepted
      · cases accepted
        exact ⟨rfl, roleText⟩
      · split at accepted
        · cases accepted
        · cases accepted
          exact ⟨rfl, roleText⟩

/-- The composite key of a row: `${orgId}\u0000${role}`. -/
def rowKey (orgId role : JsString) : JsString := orgId ++ 0 :: role

theorem rowKey_inj {leftOrg rightOrg leftRole rightRole : JsString}
    (leftPlain : 0 ∉ leftRole) (rightPlain : 0 ∉ rightRole)
    (same : rowKey leftOrg leftRole = rowKey rightOrg rightRole) :
    leftOrg = rightOrg ∧ leftRole = rightRole := by
  induction leftOrg generalizing rightOrg with
  | nil =>
      cases rightOrg with
      | nil => exact ⟨rfl, by simpa [rowKey] using same⟩
      | cons unit rest =>
          simp only [rowKey, List.nil_append, List.cons_append, List.cons.injEq] at same
          exact absurd (by rw [same.2]; simp) leftPlain
  | cons leftUnit leftRest ih =>
      cases rightOrg with
      | nil =>
          simp only [rowKey, List.nil_append, List.cons_append, List.cons.injEq] at same
          exact absurd (by rw [← same.2]; simp) rightPlain
      | cons rightUnit rightRest =>
          simp only [rowKey, List.cons_append, List.cons.injEq] at same
          rcases ih same.2 with ⟨sameOrg, sameRole⟩
          exact ⟨by rw [same.1, sameOrg], sameRole⟩

theorem rowKey_role_inj {leftOrg rightOrg : JsString} {leftRole rightRole : Role}
    (same : rowKey leftOrg leftRole.text = rowKey rightOrg rightRole.text) :
    leftOrg = rightOrg ∧ leftRole = rightRole := by
  rcases rowKey_inj leftRole.nul_notMem_text rightRole.nul_notMem_text same with
    ⟨sameOrg, sameRole⟩
  exact ⟨sameOrg, Role.text_injective sameRole⟩

end StudentHub.Authz
