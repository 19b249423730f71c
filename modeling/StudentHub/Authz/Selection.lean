import StudentHub.Authz.ContextAgreement

/-!
# What a selection is honoured for

A selection may name an organization, a role, both or nothing. With an organization
the resolver honours the whole selection. Without one it authorizes the only context
of the principal and never looks at the role that was claimed, so the claim is
ignored exactly when the principal has one context and claims another role.
-/

namespace StudentHub.Authz

open Ecma InMemoryAuthzStore

/-- An authorized answer keeps to the selection and is backed by a grant. -/
structure HonoursSelection (store : InMemoryAuthzStore) (identity : RequestIdentity)
    (selection : Option ContextSelection) : Prop where
  orgId : ∀ context roles,
    resolveActiveContext identity selection store = some (.authorized context roles) →
      ∀ orgId ∈ selection.bind ContextSelection.orgId, context.orgId = orgId
  role : ∀ context roles,
    resolveActiveContext identity selection store = some (.authorized context roles) →
      ∀ text ∈ selection.bind ContextSelection.role, context.role.text = text
  backed : ∀ context roles,
    resolveActiveContext identity selection store = some (.authorized context roles) →
      resolvePrincipalId identity store = some context.principalId ∧
        ∃ grant, store.Covers context.principalId context.orgId context.role grant
  denied : ∀ text ∈ selection.bind ContextSelection.role,
    (∀ principalId orgId role grant, resolvePrincipalId identity store = some principalId →
      (∀ target ∈ selection.bind ContextSelection.orgId, orgId = target) → role.text = text →
        ¬store.Covers principalId orgId role grant) →
      ∃ reason, resolveActiveContext identity selection store = some (.denied reason)

structure OnlyContext (store : InMemoryAuthzStore) (principalId orgId : JsString) (role : Role) :
    Prop where
  covered : ∃ grant, store.Covers principalId orgId role grant
  only : ∀ otherOrg otherRole grant, store.Covers principalId otherOrg otherRole grant →
    otherOrg = orgId ∧ otherRole = role

/-- No organization is named, and the claimed role is not the only effective one. -/
def ClaimsOtherThanOnly (store : InMemoryAuthzStore) (identity : RequestIdentity)
    (selection : Option ContextSelection) : Prop :=
  selection.bind ContextSelection.orgId = none ∧
    ∃ text ∈ selection.bind ContextSelection.role, ∃ principalId orgId role,
      resolvePrincipalId identity store = some principalId ∧
        OnlyContext store principalId orgId role ∧ role.text ≠ text

variable {store : InMemoryAuthzStore} {identity : RequestIdentity}
variable {principalId orgId : JsString} {role : Role}

theorem onlyContext_of_listed (valid : store.Valid)
    (known : resolvePrincipalId identity store = some principalId) {only : EffectiveGrant}
    (listed : listEffectiveContexts identity store = some [only]) :
    OnlyContext store principalId only.orgId only.role := by
  rcases nearest_of_mem_contexts valid known listed (List.mem_singleton_self only) with
    ⟨grant, nearest, -⟩
  refine ⟨⟨grant, nearest.toCovers⟩, ?_⟩
  intro otherOrg otherRole other covers
  rcases mem_contexts_of_covers valid known listed covers with ⟨entry, member, sameOrg, sameRole⟩
  rw [List.mem_singleton.mp member] at sameOrg sameRole
  exact ⟨sameOrg.symm, sameRole.symm⟩

theorem listed_of_onlyContext (valid : store.Valid)
    (known : resolvePrincipalId identity store = some principalId)
    (isOnly : OnlyContext store principalId orgId role) :
    ∃ only, listEffectiveContexts identity store = some [only] ∧ only.orgId = orgId ∧
      only.role = role := by
  rcases listEffectiveContexts_spec valid known with ⟨direct, inherited, distance, listed, -⟩
  rcases isOnly.covered with ⟨grant, covers⟩
  rcases mem_contexts_of_covers valid known listed covers with ⟨only, member, sameOrg, sameRole⟩
  have nodup := nodup_map_distinctBy EffectiveGrant.key (direct ++ sortBy distance inherited)
  generalize distinctBy EffectiveGrant.key (direct ++ sortBy distance inherited) = contexts
    at listed member nodup
  have allSame : ∀ entry ∈ contexts, entry = only := by
    intro entry entryMem
    rcases nearest_of_mem_contexts valid known listed entryMem with ⟨other, nearest, -⟩
    rcases isOnly.only _ _ other nearest.toCovers with ⟨entryOrg, entryRole⟩
    apply List.inj_on_of_nodup_map nodup entryMem member
    rw [EffectiveGrant.key, EffectiveGrant.key, entryOrg, entryRole, sameOrg, sameRole]
  refine ⟨only, ?_, sameOrg, sameRole⟩
  rw [listed, List.eq_replicate_of_mem allSame]
  have short : contexts.length = 1 := by
    apply le_antisymm
    · rw [List.eq_replicate_of_mem allSame] at nodup
      simp only [List.map_replicate, List.nodup_replicate] at nodup
      exact nodup
    · exact List.length_pos_of_mem member
  rw [short]
  rfl

theorem resolve_untargeted {selection : Option ContextSelection}
    (known : resolvePrincipalId identity store = some principalId)
    (untargeted : selection.bind ContextSelection.orgId = none) :
    resolveActiveContext identity selection store =
      (listEffectiveContexts identity store).map (resolveUntargeted principalId) := by
  simp only [resolveActiveContext, known, untargeted]

theorem resolve_targeted {selection : Option ContextSelection}
    (known : resolvePrincipalId identity store = some principalId)
    (targeted : selection.bind ContextSelection.orgId = some orgId) :
    resolveActiveContext identity selection store =
      some (resolveTargeted principalId orgId (selection.bind ContextSelection.role) store) := by
  simp only [resolveActiveContext, known, targeted]

theorem onlyContext_of_untargeted (valid : store.Valid) {selection : Option ContextSelection}
    (known : resolvePrincipalId identity store = some principalId)
    (untargeted : selection.bind ContextSelection.orgId = none) {context : ActiveContext}
    {roles : List Role}
    (authorized : resolveActiveContext identity selection store =
      some (.authorized context roles)) :
    context.principalId = principalId ∧
      OnlyContext store principalId context.orgId context.role := by
  rw [resolve_untargeted known untargeted, Option.map_eq_some_iff] at authorized
  rcases authorized with ⟨contexts, listed, answer⟩
  cases contexts with
  | nil => cases answer
  | cons only rest =>
      cases rest with
      | nil =>
          cases answer
          exact ⟨rfl, onlyContext_of_listed valid known listed⟩
      | cons second more => cases answer

theorem resolve_answers (valid : store.Valid) (identity : RequestIdentity)
    (selection : Option ContextSelection) :
    (∃ context roles, resolveActiveContext identity selection store =
        some (.authorized context roles)) ∨
      ∃ reason, resolveActiveContext identity selection store = some (.denied reason) := by
  have answered : ∃ resolution, resolveActiveContext identity selection store =
      some resolution := by
    cases known : resolvePrincipalId identity store with
    | none => exact ⟨.denied .unknownPrincipal, by simp only [resolveActiveContext, known]⟩
    | some principalId =>
        cases targeted : selection.bind ContextSelection.orgId with
        | some orgId => exact ⟨_, resolve_targeted known targeted⟩
        | none =>
            rcases listEffectiveContexts_spec valid known with ⟨_, _, _, listed, -⟩
            exact ⟨_, by rw [resolve_untargeted known targeted, listed, Option.map_some]⟩
  rcases answered with ⟨context | reason, result⟩
  · exact Or.inl ⟨_, _, result⟩
  · exact Or.inr ⟨_, result⟩

theorem honoursSelection_of (valid : store.Valid) {selection : Option ContextSelection}
    (fits : ∀ context roles,
      resolveActiveContext identity selection store = some (.authorized context roles) →
        (∀ orgId ∈ selection.bind ContextSelection.orgId, context.orgId = orgId) ∧
        (∀ text ∈ selection.bind ContextSelection.role, context.role.text = text) ∧
        resolvePrincipalId identity store = some context.principalId ∧
          ∃ grant, store.Covers context.principalId context.orgId context.role grant) :
    HonoursSelection store identity selection where
  orgId := fun context roles authorized => (fits context roles authorized).1
  role := fun context roles authorized => (fits context roles authorized).2.1
  backed := fun context roles authorized => (fits context roles authorized).2.2
  denied := by
    intro text claimed unbacked
    rcases resolve_answers valid identity selection with ⟨context, roles, authorized⟩ | denied
    · exfalso
      rcases fits context roles authorized with ⟨sameOrg, sameRole, known, grant, covers⟩
      exact unbacked _ _ _ grant known sameOrg (sameRole text claimed) covers
    · exact denied

/-- A selection is honoured exactly unless it claims another role than the only effective one. -/
theorem honours_selection_iff (reachable : store.Reachable) (identity : RequestIdentity)
    (selection : Option ContextSelection) :
    HonoursSelection store identity selection ↔
      ¬ClaimsOtherThanOnly store identity selection := by
  have valid := reachable.valid
  constructor
  · rintro honours ⟨untargeted, text, claimed, principalId, orgId, role, known, isOnly, different⟩
    rcases listed_of_onlyContext valid known isOnly with ⟨only, listed, -, sameRole⟩
    have authorized := resolve_untargeted known untargeted
    rw [listed, Option.map_some] at authorized
    have honoured := honours.role _ _ authorized text claimed
    exact different (sameRole ▸ honoured)
  · intro fits
    apply honoursSelection_of valid
    intro context roles authorized
    cases known : resolvePrincipalId identity store with
    | none => simp [resolveActiveContext, known] at authorized
    | some principalId =>
        cases targeted : selection.bind ContextSelection.orgId with
        | some orgId =>
            rw [resolve_targeted known targeted, Option.some.injEq] at authorized
            rcases resolveTargeted_authorized authorized with
              ⟨target, claimed, found, isFound, same⟩
            rcases (offers_effectiveGrantsForOrg valid target context.role).nearest valid
              isFound with ⟨grant, nearest, -⟩
            rw [same]
            exact ⟨fun other isTarget => Option.some.inj isTarget, claimed, rfl, grant,
              nearest.toCovers⟩
        | none =>
            rcases onlyContext_of_untargeted valid known targeted authorized with
              ⟨samePrincipal, isOnly⟩
            refine ⟨by simp, ?_, congrArg some samePrincipal.symm, ?_⟩
            · intro text claimed
              by_contra different
              exact fits ⟨targeted, text, claimed, principalId, context.orgId, context.role,
                known, isOnly, different⟩
            · rw [samePrincipal]
              exact isOnly.covered

/-- A targeted claim is honoured. -/
theorem honours_selection_targeted : ∃ start,
    new ⟨[⟨js "acme", js "Acme", none⟩], [⟨js "alice", [js "a"], none, none⟩]⟩ = .ok start ∧
    HonoursSelection (start.run [.grantMany (js "alice") [⟨js "acme", js "candidate", none⟩]])
      (.pbuuid (js "a")) (some ⟨some (js "acme"), some (js "admin")⟩) := by
  refine ⟨_, rfl, ?_⟩
  have accepted : new ⟨[⟨js "acme", js "Acme", none⟩],
    [⟨js "alice", [js "a"], none, none⟩]⟩ = .ok _ := rfl
  apply (honours_selection_iff (reachable_run accepted _) _ _).mpr
  rintro ⟨untargeted, -⟩
  cases untargeted

/-- A verified actor who may only act as candidate claims `admin` and is authorized. -/
theorem claimed_admin_is_authorized_as_candidate : ∃ start,
    new ⟨[⟨js "acme", js "Acme", none⟩], [⟨js "alice", [js "a"], none, none⟩]⟩ = .ok start ∧
    let claims : VerifiedActorClaims := ⟨js "a", some ⟨none, some (js "admin")⟩⟩
    ¬HonoursSelection (start.run [.grantMany (js "alice") [⟨js "acme", js "candidate", none⟩]])
      (claimsToRequestIdentity claims) (claimsActToContextSelection claims) := by
  refine ⟨_, rfl, ?_⟩
  intro claims honours
  have honoured := honours.role ⟨js "alice", js "acme", .candidate, .self, js "acme", true⟩
    [.candidate] (by decide) (js "admin") rfl
  exact absurd honoured (by decide)

end StudentHub.Authz
