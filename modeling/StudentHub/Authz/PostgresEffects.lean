import StudentHub.Authz.Postgres
import StudentHub.Authz.Rows

/-!
# What accepted SQL operations do

One lemma for each operation, for strings that the text columns store unchanged: if
the operation commits, every table lookup afterwards is known. The recursive parent
walk finds exactly the proper ancestors, the pre-merged upsert of `grantMany` widens
each key by all of its entries, and an early return leaves what the full transaction
would have written.
-/

namespace StudentHub.Authz

open Ecma Graph Relation Sql

section Sent

variable {textColumn : JsString → Option JsString}

theorem sent_kept {text : JsString} (kept : textColumn text = some text) :
    sent textColumn text = .ok text := by
  rw [sent, kept]

theorem sentOrNull_kept {text : Option JsString}
    (kept : ∀ inner ∈ text, textColumn inner = some inner) :
    sentOrNull textColumn text = .ok text := by
  cases text with
  | none => rfl
  | some inner =>
      rw [sentOrNull, sent_kept (kept inner rfl)]
      rfl

end Sent

namespace PostgresAuthzStore

variable {textColumn : JsString → Option JsString} {db next : PostgresAuthzStore}

theorem mem_parentRows_iff {organizations : OrderedMap JsString Organization}
    {source target : Option JsString} :
    target ∈ parentRows organizations source ↔
      ∃ id, source = some id ∧ ∃ row, organizations.get? id = some row ∧
        target = row.parentOrgId := by
  cases source with
  | none => simp [parentRows]
  | some id => cases found : organizations.get? id <;> simp [parentRows, found]

theorem transGen_parentRows_iff {organizations : OrderedMap JsString Organization}
    {start finish : JsString} :
    TransGen (fun source target => target ∈ parentRows organizations source) (some start)
        (some finish) ↔
      TransGen (Points organizations.get? Organization.parentOrgId) start finish := by
  constructor
  · have general : ∀ target, TransGen
        (fun source target => target ∈ parentRows organizations source) (some start) target →
          ∀ id, target = some id →
            TransGen (Points organizations.get? Organization.parentOrgId) start id := by
      intro target path
      induction path with
      | single step =>
          rintro id rfl
          rcases mem_parentRows_iff.mp step with ⟨other, same, row, found, names⟩
          cases same
          exact TransGen.single ⟨row, found, names.symm⟩
      | tail _ step ih =>
          rintro id rfl
          rcases mem_parentRows_iff.mp step with ⟨other, same, row, found, names⟩
          exact (ih other same).tail ⟨row, found, names.symm⟩
    exact fun path => general _ path finish rfl
  · apply TransGen.lift some
    rintro child parent ⟨row, found, names⟩
    exact mem_parentRows_iff.mpr ⟨child, rfl, row, found, names.symm⟩

theorem walkHits_iff {parent id : JsString} :
    db.walkHits parent id = true ↔
      TransGen (Points db.organizations.get? Organization.parentOrgId) parent id := by
  have inside : ∀ source, ∀ target ∈ parentRows db.organizations source,
      target ∈ db.organizations.values.map Organization.parentOrgId := by
    intro source target member
    rcases mem_parentRows_iff.mp member with ⟨other, -, row, found, rfl⟩
    exact List.mem_map_of_mem (OrderedMap.mem_values_iff.mpr ⟨other, found⟩)
  have enough : (db.organizations.values.map Organization.parentOrgId).length <
      db.organizations.size + 1 := by
    simp [OrderedMap.values, OrderedMap.size]
  rcases recursiveUnion_spec (inside (some parent)) inside enough with ⟨walk, ended, members⟩
  rw [walkHits, ended, decide_eq_true_eq, members, ← transGen_parentRows_iff,
    TransGen.head'_iff]

theorem upsertOrganization_kept {org : Organization} (id : textColumn org.id = some org.id)
    (name : textColumn org.name = some org.name)
    (parent : ∀ text ∈ org.parentOrgId, textColumn text = some text) :
    db.upsertOrganization textColumn org =
      if org.parentOrgId = some org.id then .error (.authz (.ownParent org.id))
      else if org.parentOrgId.any fun parent => db.walkHits parent org.id then
        .error (.authz (.organizationCycle org.id))
      else if org.parentOrgId.all (db.organizations.set org.id org).has then
        .ok { db with organizations := db.organizations.set org.id org }
      else .error .foreignKey := by
  simp only [upsertOrganization, sent_kept id, sent_kept name, sentOrNull_kept parent]
  rfl

theorem foldlM_insertPbuuid {principalId : JsString} {claimed : List JsString}
    {table result : OrderedMap JsString JsString}
    (kept : ∀ pbuuid ∈ claimed, textColumn pbuuid = some pbuuid)
    (inserted : claimed.foldlM (insertPbuuid textColumn principalId) table = .ok result)
    (pbuuid : JsString) :
    result.get? pbuuid = if pbuuid ∈ claimed then some principalId else table.get? pbuuid := by
  induction claimed generalizing table with
  | nil =>
      cases inserted
      simp
  | cons first rest ih =>
      rw [List.forall_mem_cons] at kept
      rw [List.foldlM_cons, bind_eq_ok_iff] at inserted
      rcases inserted with ⟨middle, isMiddle, inserted⟩
      rw [insertPbuuid, bind_eq_ok_iff] at isMiddle
      rcases isMiddle with ⟨stored, isStored, isMiddle⟩
      rw [sent_kept kept.1] at isStored
      cases isStored
      split at isMiddle
      · cases isMiddle
      · cases isMiddle
        rw [ih kept.2 inserted, OrderedMap.get?_set]
        by_cases later : pbuuid ∈ rest
        · simp [later]
        · by_cases same : pbuuid = first <;> simp [later, same]

theorem mem_ownedPbuuids_iff {principalId pbuuid : JsString} :
    pbuuid ∈ db.ownedPbuuids principalId ↔ db.principalPbuuids.get? pbuuid = some principalId := by
  simp [ownedPbuuids, OrderedMap.mem_entries_iff]

/-- After a registration commits, early or not, the principal has its data and identities. -/
theorem registerPrincipal_effect {principal : Principal}
    (id : textColumn principal.id = some principal.id)
    (pbuuids : ∀ pbuuid ∈ principal.pbuuids, textColumn pbuuid = some pbuuid)
    (displayName : ∀ text ∈ principal.displayName, textColumn text = some text)
    (email : ∀ text ∈ principal.email, textColumn text = some text)
    (committed : db.registerPrincipal textColumn principal = .ok next) :
    next.organizations = db.organizations ∧ next.grants = db.grants ∧
      (∀ other, next.principals.get? other =
        if other = principal.id then some ⟨principal.displayName, principal.email⟩
        else db.principals.get? other) ∧
      ∀ pbuuid, next.principalPbuuids.get? pbuuid =
        if pbuuid ∈ principal.pbuuids then some principal.id
        else (db.principalPbuuids.get? pbuuid).filter (· ≠ principal.id) := by
  have claimedMem : ∀ pbuuid, pbuuid ∈ distinctBy (fun text => text) principal.pbuuids ↔
      pbuuid ∈ principal.pbuuids := by
    intro pbuuid
    rw [mem_distinctBy_iff]
    constructor
    · exact List.mem_of_find?_eq_some
    · intro member
      cases found : principal.pbuuids.find? fun other => other = pbuuid with
      | none =>
          have absent := List.find?_eq_none.mp found pbuuid member
          simp at absent
      | some other =>
          have same : other = pbuuid := by simpa using List.find?_some found
          rw [same]
  rw [registerPrincipal, bind_eq_ok_iff] at committed
  rcases committed with ⟨stored, isStored, committed⟩
  rw [sent_kept id] at isStored
  cases isStored
  split at committed
  case isTrue already =>
    cases committed
    rcases already with ⟨before, stored, sameIdentities, sameName, sameEmail⟩
    have owned : ∀ pbuuid, db.principalPbuuids.get? pbuuid = some principal.id ↔
        pbuuid ∈ principal.pbuuids := by
      intro pbuuid
      rw [← mem_ownedPbuuids_iff, ← mem_sortTexts, sameIdentities, mem_sortTexts, claimedMem]
    refine ⟨rfl, rfl, ?_, ?_⟩
    · intro other
      split
      case isTrue same => rw [same, stored, ← sameName, ← sameEmail]
      case isFalse => rfl
    · intro pbuuid
      split
      case isTrue member => exact (owned pbuuid).mpr member
      case isFalse absent =>
        have notOwned := mt (owned pbuuid).mp absent
        cases found : db.principalPbuuids.get? pbuuid with
        | none => rfl
        | some owner =>
            have different : owner ≠ principal.id := fun same => notOwned (by rw [found, same])
            simp [Option.filter, different]
  case isFalse =>
    simp only [sentOrNull_kept displayName, sentOrNull_kept email, bind, Except.bind] at committed
    split at committed
    · cases committed
    · cases committed
    next table inserted =>
      have index := foldlM_insertPbuuid
        (fun pbuuid member => pbuuids pbuuid ((claimedMem pbuuid).mp member)) inserted
      split at committed
      · cases committed
      · cases committed
        refine ⟨rfl, rfl, fun other => OrderedMap.get?_set _ _ _ _, ?_⟩
        intro pbuuid
        rw [index, OrderedMap.get?_filter]
        simp only [claimedMem]

/-- The tables other than `grants` are those of `db`. -/
structure SameExceptGrants (db next : PostgresAuthzStore) : Prop where
  organizations : next.organizations = db.organizations
  principals : next.principals = db.principals
  principalPbuuids : next.principalPbuuids = db.principalPbuuids

theorem SameExceptGrants.refl (db : PostgresAuthzStore) : SameExceptGrants db db :=
  ⟨rfl, rfl, rfl⟩

theorem SameExceptGrants.trans {middle : PostgresAuthzStore} (first : SameExceptGrants db middle)
    (second : SameExceptGrants middle next) : SameExceptGrants db next where
  organizations := second.organizations.trans first.organizations
  principals := second.principals.trans first.principals
  principalPbuuids := second.principalPbuuids.trans first.principalPbuuids

theorem mergeEntries_spec (entries : List NormalizedGrantEntry) :
    (∀ key entry, (mergeEntries entries).get? key = some entry →
      rowKey entry.orgId entry.role.text = key ∧ entry ∈ entries) ∧
    ∀ orgId role, ((mergeEntries entries).get? (rowKey orgId role.text)).map
        NormalizedGrantEntry.scope =
      (entries.filter fun entry => entry.orgId = orgId ∧ entry.role = role).foldl
        (fun held entry => some (widen held entry.scope)) none := by
  induction entries using List.reverseRecOn with
  | nil => simp [mergeEntries]
  | append_singleton rest entry ih =>
      rcases ih with ⟨keyed, scopes⟩
      have step : mergeEntries (rest ++ [entry]) =
          ((mergeEntries rest).get? (rowKey entry.orgId entry.role.text)).elim
            ((mergeEntries rest).set (rowKey entry.orgId entry.role.text) entry) fun existing =>
              if entry.scope = .subtree ∧ existing.scope ≠ .subtree then
                (mergeEntries rest).set (rowKey entry.orgId entry.role.text) entry
              else mergeEntries rest := by
        rw [mergeEntries, List.foldl_append, List.foldl_cons, List.foldl_nil, ← mergeEntries]
        dsimp only
        cases (mergeEntries rest).get? (rowKey entry.orgId entry.role.text) <;> rfl
      -- The map either stays or has the entry set under its own key.
      have cases_ : (mergeEntries (rest ++ [entry]) = mergeEntries rest ∧
            ∃ existing, (mergeEntries rest).get? (rowKey entry.orgId entry.role.text) =
              some existing ∧ existing.scope = widen (some existing.scope) entry.scope) ∨
          (mergeEntries (rest ++ [entry]) =
              (mergeEntries rest).set (rowKey entry.orgId entry.role.text) entry ∧
            entry.scope = widen (((mergeEntries rest).get? (rowKey entry.orgId
              entry.role.text)).map NormalizedGrantEntry.scope) entry.scope) := by
        rw [step]
        cases found : (mergeEntries rest).get? (rowKey entry.orgId entry.role.text) with
        | none => exact Or.inr ⟨rfl, by simp [widen]⟩
        | some existing =>
            by_cases widens : entry.scope = .subtree ∧ existing.scope ≠ .subtree
            · right
              exact ⟨if_pos widens, by simp [widen, widens.1]⟩
            · left
              refine ⟨if_neg widens, existing, rfl, ?_⟩
              cases held : existing.scope <;> cases granted : entry.scope <;>
                simp_all [widen]
      constructor
      · intro key other found
        rcases cases_ with ⟨same, -⟩ | ⟨same, -⟩
        · rw [same] at found
          exact ⟨(keyed key other found).1, List.mem_append_left _ (keyed key other found).2⟩
        · rw [same, OrderedMap.get?_set] at found
          split at found
          case isTrue isKey =>
            cases found
            exact ⟨isKey.symm, by simp⟩
          case isFalse =>
            exact ⟨(keyed key other found).1, List.mem_append_left _ (keyed key other found).2⟩
      · intro orgId role
        rw [List.filter_append, List.foldl_append, ← scopes orgId role]
        by_cases at_ : entry.orgId = orgId ∧ entry.role = role
        · rcases at_ with ⟨rfl, rfl⟩
          rcases cases_ with ⟨same, existing, found, wide⟩ | ⟨same, wide⟩
          · simp [same, found, ← wide]
          · simp [same, ← wide]
        · have otherKey : rowKey orgId role.text ≠ rowKey entry.orgId entry.role.text := by
            intro sameKey
            rcases rowKey_role_inj sameKey with ⟨sameOrg, sameRole⟩
            exact at_ ⟨sameOrg.symm, sameRole.symm⟩
          rcases cases_ with ⟨same, -⟩ | ⟨same, -⟩
          · simp [same, at_]
          · simp [same, at_, OrderedMap.get?_set_of_ne _ _ otherKey]

theorem upsertGrant_effect {principalId : JsString} {progress result : PostgresAuthzStore × ℕ}
    {entry : NormalizedGrantEntry}
    (committed : upsertGrant principalId progress entry = .ok result) :
    SameExceptGrants progress.1 result.1 ∧ ∀ key, result.1.grants.get? key =
      if key = (principalId, entry.orgId, entry.role) then
        some (widen (progress.1.grants.get? key) entry.scope)
      else progress.1.grants.get? key := by
  simp only [upsertGrant] at committed
  cases found : progress.1.grants.get? (principalId, entry.orgId, entry.role) with
  | some held =>
      simp only [found] at committed
      have wide : widen (some held) entry.scope = conflictScope held entry.scope := by
        cases held <;> cases granted : entry.scope <;> rfl
      split at committed
      case isTrue same =>
        cases committed
        refine ⟨SameExceptGrants.refl _, ?_⟩
        intro key
        split
        case isTrue isKey => rw [isKey, found, wide, ← same]
        case isFalse => rfl
      case isFalse =>
        cases committed
        refine ⟨⟨rfl, rfl, rfl⟩, ?_⟩
        intro key
        rw [OrderedMap.get?_set]
        split
        case isTrue isKey => rw [isKey, found, wide]
        case isFalse => rfl
  | none =>
      simp only [found] at committed
      split at committed
      · cases committed
      · split at committed
        · cases committed
        · cases committed
          refine ⟨⟨rfl, rfl, rfl⟩, ?_⟩
          intro key
          rw [OrderedMap.get?_set]
          split
          case isTrue isKey => rw [isKey, found, widen, if_neg (by simp)]
          case isFalse => rfl

theorem foldlM_upsertGrant {principalId : JsString} {tuples : List NormalizedGrantEntry}
    {progress result : PostgresAuthzStore × ℕ}
    (committed : tuples.foldlM (upsertGrant principalId) progress = .ok result) :
    SameExceptGrants progress.1 result.1 ∧ ∀ holder orgId role,
      result.1.grants.get? (holder, orgId, role) =
        if holder = principalId then
          (tuples.filter fun entry => entry.orgId = orgId ∧ entry.role = role).foldl
            (fun held entry => some (widen held entry.scope))
            (progress.1.grants.get? (holder, orgId, role))
        else progress.1.grants.get? (holder, orgId, role) := by
  induction tuples generalizing progress with
  | nil =>
      cases committed
      exact ⟨SameExceptGrants.refl _, by simp⟩
  | cons entry rest ih =>
      rw [List.foldlM_cons, bind_eq_ok_iff] at committed
      rcases committed with ⟨middle, first, later⟩
      have step := upsertGrant_effect first
      have remaining := ih later
      refine ⟨step.1.trans remaining.1, ?_⟩
      intro holder orgId role
      rw [remaining.2, step.2, List.filter_cons]
      by_cases isHolder : holder = principalId
      · by_cases at_ : entry.orgId = orgId ∧ entry.role = role
        · rcases at_ with ⟨rfl, rfl⟩
          simp [isHolder]
        · have otherKey : (principalId, orgId, role) ≠
              (principalId, entry.orgId, entry.role) := by
            rintro same
            cases same
            exact at_ ⟨rfl, rfl⟩
          simp [isHolder, at_, otherKey]
      · have otherKey : (holder, orgId, role) ≠ (principalId, entry.orgId, entry.role) := by
          rintro same
          cases same
          exact isHolder rfl
        simp [isHolder, otherKey]

theorem acceptedPrefix_of_mapM {entries : List GrantEntry} {list : List NormalizedGrantEntry}
    (accepted : entries.mapM normalized = .ok list) :
    acceptedPrefix entries = list ∧
      ∀ raw ∈ entries, ∃ entry, normalizeGrantEntry raw = .ok entry := by
  induction entries generalizing list with
  | nil =>
      cases accepted
      exact ⟨rfl, by simp⟩
  | cons raw rest ih =>
      rw [List.mapM_cons, bind_eq_ok_iff] at accepted
      rcases accepted with ⟨entry, first, accepted⟩
      rw [bind_eq_ok_iff] at accepted
      rcases accepted with ⟨others, later, same⟩
      cases same
      have isEntry : normalizeGrantEntry raw = .ok entry := by
        rw [normalized] at first
        cases found : normalizeGrantEntry raw with
        | error error => simp [found, Except.mapError] at first
        | ok other => simpa [found, Except.mapError] using first
      rcases ih later with ⟨rfl, all⟩
      simp only [acceptedPrefix, isEntry, List.forall_mem_cons, true_and]
      exact ⟨⟨entry, rfl⟩, all⟩

theorem grantMany_effect {principalId : JsString} {entries : List GrantEntry}
    (id : textColumn principalId = some principalId)
    (orgIds : ∀ raw ∈ entries, textColumn raw.orgId.trim = some raw.orgId.trim)
    (committed : db.grantMany textColumn principalId entries = .ok next) :
    SameExceptGrants db next ∧ (∀ raw ∈ entries, ∃ entry, normalizeGrantEntry raw = .ok entry) ∧
      ∀ holder orgId role, next.grants.get? (holder, orgId, role) =
        if holder = principalId then
          ((acceptedPrefix entries).filter fun entry =>
            entry.orgId = orgId ∧ entry.role = role).foldl
            (fun held entry => some (widen held entry.scope))
            (db.grants.get? (holder, orgId, role))
        else db.grants.get? (holder, orgId, role) := by
  rw [grantMany] at committed
  split at committed
  case isTrue none_ =>
    cases committed
    subst none_
    exact ⟨SameExceptGrants.refl _, by simp, by simp [acceptedPrefix]⟩
  case isFalse =>
    rw [bind_eq_ok_iff] at committed
    rcases committed with ⟨list, accepted, committed⟩
    rcases acceptedPrefix_of_mapM accepted with ⟨rfl, all⟩
    rcases mergeEntries_spec (acceptedPrefix entries) with ⟨keyed, scopes⟩
    have tuplesKept : ∀ entry ∈ (mergeEntries (acceptedPrefix entries)).values,
        grantTuple textColumn entry = .ok entry := by
      intro entry member
      rcases OrderedMap.mem_values_iff.mp member with ⟨key, found⟩
      rcases mem_acceptedPrefix (keyed key entry found).2 with ⟨raw, rawMem, isEntry⟩
      have kept := orgIds raw rawMem
      rw [← (normalizeGrantEntry_ok isEntry).1] at kept
      rw [grantTuple, sent_kept kept]
      rfl
    have tuples := mapM_ok_of_forall tuplesKept
    rw [List.map_id'] at tuples
    have inserted : ∃ result, (mergeEntries (acceptedPrefix entries)).values.foldlM
        (upsertGrant principalId) (db, 0) = .ok result ∧ next = result.1 := by
      simp only [sent_kept id, tuples, bind, Except.bind] at committed
      split at committed
      · cases committed
      · split at committed
        · cases committed
        next result isResult =>
          refine ⟨result, isResult, ?_⟩
          split at committed
          · cases committed
            rfl
          · split at committed
            · cases committed
            · split at committed
              · cases committed
              · cases committed
                rfl
    rcases inserted with ⟨result, isResult, rfl⟩
    rcases foldlM_upsertGrant isResult with ⟨frame, grants⟩
    refine ⟨frame, all, ?_⟩
    intro holder orgId role
    rw [grants]
    split
    case isTrue =>
      have merged : ((mergeEntries (acceptedPrefix entries)).values.filter fun entry =>
          entry.orgId = orgId ∧ entry.role = role) =
            ((mergeEntries (acceptedPrefix entries)).get? (rowKey orgId role.text)).toList := by
        rw [← OrderedMap.filter_values_keyed fun key entry found => (keyed key entry found).1]
        apply List.filter_congr
        intro entry _
        rw [decide_eq_decide]
        constructor
        · rintro ⟨rfl, rfl⟩
          rfl
        · exact rowKey_role_inj
      have scope := scopes orgId role
      rw [merged, foldl_widen (List.filter _ (acceptedPrefix entries)), ← scope]
      cases (mergeEntries (acceptedPrefix entries)).get? (rowKey orgId role.text) <;> rfl
    case isFalse => rfl

theorem revokeMany_effect {principalId : JsString} {entries : List RevokeEntry}
    (id : textColumn principalId = some principalId)
    (texts : ∀ entry ∈ entries, textColumn entry.orgId = some entry.orgId ∧
      textColumn entry.role = some entry.role)
    (committed : db.revokeMany textColumn principalId entries = .ok next) :
    SameExceptGrants db next ∧ ∀ holder orgId role, next.grants.get? (holder, orgId, role) =
      if holder = principalId ∧ ⟨orgId, role.text⟩ ∈ entries then none
      else db.grants.get? (holder, orgId, role) := by
  rw [revokeMany] at committed
  split at committed
  case isTrue none_ =>
    cases committed
    subst none_
    exact ⟨SameExceptGrants.refl _, by simp⟩
  case isFalse =>
    have tuplesKept : ∀ entry ∈ entries, revokeTuple textColumn entry =
        .ok (entry.orgId, entry.role) := by
      intro entry member
      rw [revokeTuple, sent_kept (texts entry member).1, sent_kept (texts entry member).2]
      rfl
    have deleted : next = { db with grants := db.grants.filter fun key _ =>
        ¬(key.1 = principalId ∧ (key.2.1, key.2.2.text) ∈
          entries.map fun entry => (entry.orgId, entry.role)) } := by
      simp only [sent_kept id, mapM_ok_of_forall tuplesKept, bind, Except.bind] at committed
      split at committed
      case isTrue same =>
        cases committed
        rw [OrderedMap.filter_eq_self_of_size same]
      case isFalse =>
        split at committed
        · cases committed
        · split at committed
          · cases committed
          · cases committed
            rfl
    rw [deleted]
    refine ⟨⟨rfl, rfl, rfl⟩, ?_⟩
    intro holder orgId role
    have named : (orgId, role.text) ∈ entries.map (fun entry => (entry.orgId, entry.role)) ↔
        (⟨orgId, role.text⟩ : RevokeEntry) ∈ entries := by
      simp only [List.mem_map, Prod.mk.injEq]
      constructor
      · rintro ⟨⟨entryOrg, entryRole⟩, member, rfl, rfl⟩
        exact member
      · intro member
        exact ⟨_, member, rfl, rfl⟩
    simp only [OrderedMap.get?_filter, named]
    by_cases gone : holder = principalId ∧ (⟨orgId, role.text⟩ : RevokeEntry) ∈ entries
    · simp [gone, Option.filter]
      cases db.grants.get? (principalId, orgId, role) <;> rfl
    · cases db.grants.get? (holder, orgId, role) <;> simp [gone, Option.filter]

theorem clearGrantsForPrincipal_effect {principalId : JsString}
    (id : textColumn principalId = some principalId)
    (committed : db.clearGrantsForPrincipal textColumn principalId = .ok next) :
    SameExceptGrants db next ∧ ∀ holder orgId role, next.grants.get? (holder, orgId, role) =
      if holder = principalId then none else db.grants.get? (holder, orgId, role) := by
  have deleted : next = { db with grants := db.grants.filter fun key _ =>
      key.1 ≠ principalId } := by
    simp only [clearGrantsForPrincipal, sent_kept id, bind, Except.bind] at committed
    split at committed
    case isTrue same =>
      cases committed
      rw [OrderedMap.filter_eq_self_of_size same]
    case isFalse =>
      split at committed
      · cases committed
      · cases committed
        rfl
  rw [deleted]
  refine ⟨⟨rfl, rfl, rfl⟩, ?_⟩
  intro holder orgId role
  rw [OrderedMap.get?_filter]
  cases db.grants.get? (holder, orgId, role) <;> by_cases same : holder = principalId <;>
    simp [same, Option.filter]

end PostgresAuthzStore

end StudentHub.Authz
