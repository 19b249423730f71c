import StudentHub.Authz.Coverage

/-!
# Agreement of the two resolution functions

`resolveActiveContext` on a targeted selection and `listEffectiveContexts` find the
same contexts: both take the first match in lists that offer the covering grants, so
both answer with the nearest one.
-/

namespace StudentHub.Authz

open Ecma Graph Relation InMemoryAuthzStore

variable {store : InMemoryAuthzStore} {principalId orgId : JsString} {role : Role}
variable {identity : RequestIdentity}

theorem offers_effectiveGrantsForOrg (valid : store.Valid)
    (target : (store.getOrganization orgId).isSome) (role : Role) :
    Offers store principalId orgId role
      (directAt (store.listGrantsForPrincipal principalId) orgId)
      (inheritedAt (store.listGrantsForPrincipal principalId) orgId
        (ancestorOrgIdsIncludingSelf store.listOrganizations orgId))
      (fun entry => indexOf (ancestorOrgIdsIncludingSelf store.listOrganizations orgId)
        entry.grantedByOrgId)
      (fun entry => entry.role = role) where
  direct := by
    intro entry
    simp only [directAt, List.mem_map, List.mem_filter, decide_eq_true_eq]
    constructor
    · rintro ⟨⟨grant, ⟨held, direct⟩, rfl⟩, named⟩
      exact ⟨grant, ⟨held, named, target, Or.inl direct⟩, direct, by simp [entryAt, direct]⟩
    · rintro ⟨grant, covers, direct, rfl⟩
      exact ⟨⟨grant, ⟨covers.held, direct⟩, by simp [entryAt, direct]⟩, covers.named⟩
  inherited := by
    intro entry
    simp only [inheritedAt, List.mem_map, List.mem_filter, decide_eq_true_eq, List.mem_cons]
    constructor
    · rintro ⟨⟨grant, ⟨held, notDirect, wide, atTarget | above⟩, rfl⟩, named⟩
      · exact absurd atTarget notDirect
      · rcases (valid.mem_ancestors target).mp above with ⟨path, stored⟩
        exact ⟨grant, ⟨held, named, target, Or.inr ⟨wide, stored, path⟩⟩, notDirect,
          by simp [entryAt, notDirect]⟩
    · rintro ⟨grant, covers, notDirect, rfl⟩
      have wide : grant.scope = .subtree := by
        rcases covers.applies with direct | ⟨wide, -⟩
        · exact absurd direct notDirect
        · exact wide
      have above := (valid.mem_ancestors target).mpr ⟨covers.above, covers.stored⟩
      exact ⟨⟨grant, ⟨covers.held, notDirect, wide, Or.inr above⟩,
        by simp [entryAt, notDirect]⟩, covers.named⟩
  distance := fun _ _ => rfl

theorem find?_direct_or {direct inherited : List EffectiveGrant}
    (allDirect : ∀ entry ∈ direct, entry.direct = true)
    (noneDirect : ∀ entry ∈ inherited, entry.direct = false) :
    ((direct ++ inherited).find? fun entry => entry.role = role ∧ entry.direct).or
        ((direct ++ inherited).find? fun entry => entry.role = role) =
      (direct ++ inherited).find? fun entry => entry.role = role := by
  have sameDirect : (direct.find? fun entry => entry.role = role ∧ entry.direct) =
      direct.find? fun entry => entry.role = role := by
    induction direct with
    | nil => rfl
    | cons entry rest ih =>
        rw [List.forall_mem_cons] at allDirect
        simp only [List.find?_cons, allDirect.1, and_true, ih allDirect.2]
  have noInherited : (inherited.find? fun entry => entry.role = role ∧ entry.direct) = none := by
    simp only [List.find?_eq_none, decide_eq_true_eq, not_and]
    intro entry member _
    simp [noneDirect entry member]
  rw [List.find?_append, List.find?_append, sameDirect, noInherited, Option.or_none,
    ← Option.or_assoc, Option.or_self]

theorem find?_effectiveGrantsForOrg (principalId orgId : JsString) (role : Role) :
    ((effectiveGrantsForOrg principalId orgId store).find? fun entry =>
        entry.role = role ∧ entry.direct).or
      ((effectiveGrantsForOrg principalId orgId store).find? fun entry => entry.role = role) =
      (effectiveGrantsForOrg principalId orgId store).find? fun entry => entry.role = role := by
  apply find?_direct_or
  · intro entry member
    rcases List.mem_map.mp member with ⟨grant, -, rfl⟩
    rfl
  · intro entry member
    rcases List.mem_map.mp (mem_sortBy.mp member) with ⟨grant, -, rfl⟩
    rfl

theorem pickRole_ok {effective : List EffectiveGrant} {claimed : Option JsString}
    {roles : List Role} (picked : pickRole effective claimed = .ok (role, roles)) :
    role ∈ effective.map EffectiveGrant.role ∧ ∀ text ∈ claimed, role.text = text := by
  cases claimed with
  | some text =>
      simp only [pickRole] at picked
      cases named : isRole text with
      | none => simp [named] at picked
      | some found =>
          simp only [named] at picked
          split at picked
          case isTrue present =>
            cases picked
            refine ⟨present, ?_⟩
            intro other same
            cases same
            exact isRole_eq_some_iff.mp named
          case isFalse => cases picked
  | none =>
      simp only [pickRole] at picked
      split at picked
      case h_1 only offered =>
        cases picked
        have member : role ∈ ROLES.filter fun role =>
            role ∈ effective.map EffectiveGrant.role := by
          rw [offered]
          exact List.mem_singleton_self role
        exact ⟨of_decide_eq_true (List.mem_filter.mp member).2, by simp⟩
      case h_2 => cases picked
      case h_3 => cases picked

theorem resolveTargeted_authorized {claimed : Option JsString} {context : ActiveContext}
    {roles : List Role}
    (authorized : resolveTargeted principalId orgId claimed store = .authorized context roles) :
    (store.getOrganization orgId).isSome ∧ (∀ text ∈ claimed, context.role.text = text) ∧
      ∃ found, (effectiveGrantsForOrg principalId orgId store).find?
          (fun entry => entry.role = context.role) = some found ∧
        context = ⟨principalId, orgId, context.role, found.scope, found.grantedByOrgId,
          found.direct⟩ := by
  simp only [resolveTargeted] at authorized
  cases org : store.getOrganization orgId with
  | none => simp [org] at authorized
  | some _ =>
      simp only [org] at authorized
      split at authorized
      · cases authorized
      · split at authorized
        · cases authorized
        · next picked =>
            split at authorized
            · cases authorized
            · next found =>
                cases authorized
                rw [find?_effectiveGrantsForOrg] at found
                exact ⟨rfl, (pickRole_ok picked).2, _, found, rfl⟩

theorem resolveTargeted_of_find? (target : (store.getOrganization orgId).isSome)
    {found : EffectiveGrant}
    (isFound : (effectiveGrantsForOrg principalId orgId store).find?
      (fun entry => entry.role = role) = some found) :
    ∃ roles, resolveTargeted principalId orgId (some role.text) store =
      .authorized ⟨principalId, orgId, role, found.scope, found.grantedByOrgId,
        found.direct⟩ roles := by
  rcases Option.isSome_iff_exists.mp target with ⟨org, stored⟩
  have member := List.mem_of_find?_eq_some isFound
  have present : role ∈ (effectiveGrantsForOrg principalId orgId store).map
      EffectiveGrant.role :=
    List.mem_map.mpr ⟨found, member, by simpa using List.find?_some isFound⟩
  have nonempty : effectiveGrantsForOrg principalId orgId store ≠ [] := List.ne_nil_of_mem member
  have picked : pickRole (effectiveGrantsForOrg principalId orgId store) (some role.text) =
      .ok (role, ROLES.filter fun role =>
        role ∈ (effectiveGrantsForOrg principalId orgId store).map EffectiveGrant.role) := by
    simp only [pickRole, isRole_text, present, if_true]
  refine ⟨ROLES.filter fun role =>
    role ∈ (effectiveGrantsForOrg principalId orgId store).map EffectiveGrant.role, ?_⟩
  simp only [resolveTargeted, stored, nonempty, if_false, picked]
  rw [find?_effectiveGrantsForOrg, isFound]

theorem mapM_eq_some_of_forall {Source Target : Type} {transform : Source → Option (List Target)}
    {sources : List Source} (ends : ∀ source ∈ sources, (transform source).isSome) :
    sources.mapM transform = some (sources.map fun source => (transform source).getD []) := by
  induction sources with
  | nil => rfl
  | cons source rest ih =>
      rw [List.forall_mem_cons] at ends
      rcases Option.isSome_iff_exists.mp ends.1 with ⟨result, isResult⟩
      simp [List.mapM_cons, isResult, ih ends.2]

theorem fanOut_spec (valid : store.Valid) (grant : RoleGrant) :
    ∃ entries, fanOut store.listOrganizations grant = some entries ∧ ∀ entry, entry ∈ entries ↔
      ∃ orgId, orgId ≠ grant.orgId ∧ ReflTransGen store.HasParent orgId grant.orgId ∧
        entry = grant.effectiveAt orgId false := by
  rcases descendants_spec valid.distinctIds valid.acyclic_parentOf grant.orgId with
    ⟨descendants, result, members⟩
  refine ⟨_, by rw [fanOut, result, Option.map_some], ?_⟩
  intro entry
  simp only [List.mem_map, List.mem_filter, decide_eq_true_eq, members, valid.parentOf_eq]
  constructor
  · rintro ⟨orgId, ⟨path, different⟩, rfl⟩
    exact ⟨orgId, different, path, rfl⟩
  · rintro ⟨orgId, different, path, rfl⟩
    exact ⟨orgId, ⟨path, different⟩, rfl⟩

theorem key_eq_iff {entry : EffectiveGrant} :
    entry.key = rowKey orgId role.text ↔ entry.orgId = orgId ∧ entry.role = role := by
  constructor
  · exact rowKey_role_inj
  · rintro ⟨rfl, rfl⟩
    rfl

theorem isSome_of_path (path : ReflTransGen store.HasParent orgId principalId)
    (different : orgId ≠ principalId) : (store.getOrganization orgId).isSome := by
  rcases ReflTransGen.cases_head path with same | ⟨parent, ⟨org, stored, -⟩, -⟩
  · exact absurd same different
  · simp [getOrganization, stored]

theorem listEffectiveContexts_spec (valid : store.Valid)
    (known : resolvePrincipalId identity store = some principalId) :
    ∃ direct inherited distance,
      listEffectiveContexts identity store =
          some (distinctBy EffectiveGrant.key (direct ++ sortBy distance inherited)) ∧
        ∀ orgId role, Offers store principalId orgId role direct inherited distance
          fun entry => entry.key = rowKey orgId role.text := by
  let grants := store.listGrantsForPrincipal principalId
  let orgIds := store.listOrganizations.map Organization.id
  let wide := grants.filter fun grant => grant.scope = .subtree ∧ grant.orgId ∈ orgIds
  have ends : ∀ grant ∈ wide, (fanOut store.listOrganizations grant).isSome := by
    intro grant _
    rcases fanOut_spec valid grant with ⟨entries, result, -⟩
    simp [result]
  refine ⟨attachedContexts grants orgIds,
    (wide.map fun grant => (fanOut store.listOrganizations grant).getD []).flatten,
    fun entry => indexOf (ancestorOrgIdsIncludingSelf store.listOrganizations entry.orgId)
      entry.grantedByOrgId, ?_, ?_⟩
  · simp only [listEffectiveContexts, known]
    rw [mapM_eq_some_of_forall ends]
    rfl
  · intro orgId role
    refine ⟨?_, ?_, ?_⟩
    · intro entry
      simp only [attachedContexts, List.mem_map, List.mem_filter, decide_eq_true_eq, key_eq_iff,
        orgIds, valid.mem_orgIds_iff]
      constructor
      · rintro ⟨⟨grant, ⟨held, stored⟩, rfl⟩, rfl, named⟩
        exact ⟨grant, ⟨held, named, stored, Or.inl rfl⟩, rfl,
          by simp [entryAt, RoleGrant.effectiveAt]⟩
      · rintro ⟨grant, covers, rfl, rfl⟩
        exact ⟨⟨grant, ⟨covers.held, covers.target⟩, by simp [entryAt]⟩, rfl, covers.named⟩
    · intro entry
      simp only [List.mem_flatten, List.mem_map, decide_eq_true_eq, key_eq_iff]
      constructor
      · rintro ⟨⟨_, ⟨grant, wideMem, rfl⟩, entryMem⟩, rfl, named⟩
        rcases fanOut_spec valid grant with ⟨entries, result, members⟩
        rw [result, Option.getD_some] at entryMem
        rcases (members entry).mp entryMem with ⟨below, different, path, rfl⟩
        have chosen := List.mem_filter.mp wideMem
        simp only [decide_eq_true_eq, orgIds, valid.mem_orgIds_iff] at chosen
        have target := isSome_of_path path different
        exact ⟨grant, ⟨chosen.1, named, target, Or.inr ⟨chosen.2.1, chosen.2.2, path⟩⟩,
          Ne.symm different, by simp [entryAt, RoleGrant.effectiveAt, Ne.symm different]⟩
      · rintro ⟨grant, covers, notDirect, rfl⟩
        rcases fanOut_spec valid grant with ⟨entries, result, members⟩
        have chosen : grant ∈ wide := by
          rcases covers.applies with direct | ⟨isWide, stored, -⟩
          · exact absurd direct notDirect
          · simp only [wide, List.mem_filter, decide_eq_true_eq, orgIds, valid.mem_orgIds_iff]
            exact ⟨covers.held, isWide, stored⟩
        refine ⟨⟨entries, ⟨grant, chosen, by rw [result, Option.getD_some]⟩, ?_⟩, rfl,
          covers.named⟩
        exact (members _).mpr ⟨orgId, Ne.symm notDirect, covers.above, by
          simp [entryAt, notDirect]⟩
    · rintro entry rfl
      rfl

theorem nearest_of_mem_contexts (valid : store.Valid)
    (known : resolvePrincipalId identity store = some principalId)
    {contexts : List EffectiveGrant} (listed : listEffectiveContexts identity store = some contexts)
    {entry : EffectiveGrant} (member : entry ∈ contexts) :
    ∃ grant, store.Nearest principalId entry.orgId entry.role grant ∧
      entry = entryAt entry.orgId grant := by
  rcases listEffectiveContexts_spec valid known with ⟨direct, inherited, distance, result, offers⟩
  rw [listed, Option.some.injEq] at result
  subst result
  exact (offers entry.orgId entry.role).nearest valid ((mem_distinctBy_iff _).mp member)

theorem mem_contexts_of_covers (valid : store.Valid)
    (known : resolvePrincipalId identity store = some principalId)
    {contexts : List EffectiveGrant} (listed : listEffectiveContexts identity store = some contexts)
    {grant : RoleGrant} (covers : store.Covers principalId orgId role grant) :
    ∃ entry ∈ contexts, entry.orgId = orgId ∧ entry.role = role := by
  rcases listEffectiveContexts_spec valid known with ⟨direct, inherited, distance, result, offers⟩
  rw [listed, Option.some.injEq] at result
  subst result
  have found := ((offers orgId role).isSome_iff valid).mpr ⟨grant, covers⟩
  rcases Option.isSome_iff_exists.mp found with ⟨entry, isFirst⟩
  have sameKey : entry.key = rowKey orgId role.text := by simpa using List.find?_some isFirst
  exact ⟨entry, (mem_distinctBy_iff _).mpr (by rwa [sameKey]), key_eq_iff.mp sameKey⟩

/-- What agreement of the two functions on one organization and role means. -/
structure ContextsAgree (store : InMemoryAuthzStore) (principalId orgId : JsString) (role : Role)
    (contexts : List EffectiveGrant) (resolution : ContextResolution) : Prop where
  authorized_iff : (∃ context roles, resolution = .authorized context roles) ↔
    ∃ entry ∈ contexts, entry.orgId = orgId ∧ entry.role = role
  same : ∀ context roles, resolution = .authorized context roles →
    ∀ entry ∈ contexts, entry.orgId = orgId → entry.role = role →
      context = ⟨principalId, orgId, role, entry.scope, entry.grantedByOrgId, entry.direct⟩
  effective_iff : (∃ entry ∈ contexts, entry.orgId = orgId ∧ entry.role = role) ↔
    ∃ grant, store.Covers principalId orgId role grant
  nearest : ∀ entry ∈ contexts, entry.orgId = orgId → entry.role = role →
    ∃ grant, store.Nearest principalId orgId role grant ∧ entry = entryAt orgId grant

/-- In every reachable store both functions answer, and they agree. -/
theorem contexts_agree (reachable : store.Reachable)
    (known : resolvePrincipalId identity store = some principalId) (orgId : JsString)
    (role : Role) :
    ∃ contexts resolution, listEffectiveContexts identity store = some contexts ∧
      resolveActiveContext identity (some ⟨some orgId, some role.text⟩) store = some resolution ∧
      ContextsAgree store principalId orgId role contexts resolution := by
  have valid := reachable.valid
  rcases listEffectiveContexts_spec valid known with ⟨_, _, _, listed, -⟩
  refine ⟨_, resolveTargeted principalId orgId (some role.text) store, listed,
    by simp [resolveActiveContext, known], ?_⟩
  -- An authorized answer stands for the nearest grant as well.
  have answer : ∀ context roles,
      resolveTargeted principalId orgId (some role.text) store = .authorized context roles →
        ∃ grant, store.Nearest principalId orgId role grant ∧
          context = ⟨principalId, orgId, role, grant.scope, grant.orgId,
            grant.orgId = orgId⟩ := by
    intro context roles authorized
    rcases resolveTargeted_authorized authorized with ⟨target, claimed, found, isFound, same⟩
    have sameRole : context.role = role := Role.text_injective (claimed _ rfl)
    rw [sameRole] at isFound same
    rcases (offers_effectiveGrantsForOrg valid target role).nearest valid isFound with
      ⟨grant, nearest, rfl⟩
    exact ⟨grant, nearest, same⟩
  have covered : ∀ {grant}, store.Covers principalId orgId role grant →
      ∃ context roles, resolveTargeted principalId orgId (some role.text) store =
        .authorized context roles := by
    intro grant covers
    have offers := @offers_effectiveGrantsForOrg store principalId orgId valid covers.target role
    rcases Option.isSome_iff_exists.mp ((offers.isSome_iff valid).mpr ⟨grant, covers⟩) with
      ⟨found, isFound⟩
    exact ⟨_, resolveTargeted_of_find? covers.target isFound⟩
  refine ⟨⟨?_, ?_⟩, ?_, ⟨?_, ?_⟩, ?_⟩
  · rintro ⟨context, roles, authorized⟩
    rcases answer context roles authorized with ⟨grant, nearest, -⟩
    exact mem_contexts_of_covers valid known listed nearest.toCovers
  · rintro ⟨entry, member, rfl, rfl⟩
    rcases nearest_of_mem_contexts valid known listed member with ⟨grant, nearest, -⟩
    exact covered nearest.toCovers
  · rintro context roles authorized entry member rfl rfl
    rcases answer context roles authorized with ⟨grant, nearest, same⟩
    rcases nearest_of_mem_contexts valid known listed member with ⟨other, otherNearest, isEntry⟩
    rw [nearest.unique valid otherNearest] at same
    rw [same, isEntry]
    rfl
  · rintro ⟨entry, member, rfl, rfl⟩
    rcases nearest_of_mem_contexts valid known listed member with ⟨grant, nearest, -⟩
    exact ⟨grant, nearest.toCovers⟩
  · rintro ⟨grant, covers⟩
    exact mem_contexts_of_covers valid known listed covers
  · rintro entry member rfl rfl
    exact nearest_of_mem_contexts valid known listed member

/-- A role inherited from two ancestors: both functions answer with the nearer one. -/
theorem contexts_agree_inherited : ∃ start,
    new ⟨[⟨js "acme", js "Acme", none⟩, ⟨js "india", js "India", some (js "acme")⟩,
        ⟨js "blr", js "Bangalore", some (js "india")⟩],
      [⟨js "alice", [js "a"], none, none⟩]⟩ = .ok start ∧
    let granted := start.run [.grantMany (js "alice") [⟨js "acme", js "staff", some (js "subtree")⟩,
      ⟨js "india", js "staff", some (js "subtree")⟩]]
    ∃ contexts resolution, listEffectiveContexts (.pbuuid (js "a")) granted = some contexts ∧
      resolveActiveContext (.pbuuid (js "a")) (some ⟨some (js "blr"), some Role.staff.text⟩)
        granted = some resolution ∧
      ContextsAgree granted (js "alice") (js "blr") .staff contexts resolution := by
  refine ⟨_, rfl, ?_⟩
  have accepted : new ⟨[⟨js "acme", js "Acme", none⟩, ⟨js "india", js "India", some (js "acme")⟩,
      ⟨js "blr", js "Bangalore", some (js "india")⟩],
    [⟨js "alice", [js "a"], none, none⟩]⟩ = .ok _ := rfl
  exact contexts_agree (reachable_run accepted _) (by decide) (js "blr") .staff

end StudentHub.Authz
