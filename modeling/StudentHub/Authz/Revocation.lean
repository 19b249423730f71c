import StudentHub.Authz.Reachable

/-!
# Revoking what was granted

`revokeMany` is meant to undo `grantMany` on the same entries. It compares the
strings of its entries with the stored rows as they are, while `grantMany` trims the
organization id before it stores it. The two agree unless an entry names a held row
only after trimming and no other entry of the list names that row exactly.
-/

namespace StudentHub.Authz

open Ecma

/-- The keys under which `grantMany` writes its entries. -/
def writtenKeys (entries : List GrantEntry) : List (JsString × Role) :=
  (acceptedPrefix entries).map fun entry => (entry.orgId, entry.role)

theorem mem_writtenKeys_iff {entries : List GrantEntry}
    (accepted : ∀ raw ∈ entries, ∃ entry, normalizeGrantEntry raw = .ok entry)
    {orgId : JsString} {role : Role} :
    (orgId, role) ∈ writtenKeys entries ↔
      ∃ raw ∈ entries, raw.orgId.trim = orgId ∧ raw.role = role.text := by
  induction entries with
  | nil => simp [writtenKeys, acceptedPrefix]
  | cons raw rest ih =>
      rw [List.forall_mem_cons] at accepted
      rcases accepted with ⟨⟨entry, normalized⟩, restAccepted⟩
      rcases normalizeGrantEntry_ok normalized with ⟨trimmed, roleText⟩
      have later := ih restAccepted
      simp only [writtenKeys] at later
      simp only [writtenKeys, acceptedPrefix, normalized, List.map_cons, List.mem_cons,
        Prod.mk.injEq, later, exists_eq_or_imp, trimmed, ← roleText]
      apply or_congr_left
      constructor
      · rintro ⟨sameOrg, rfl⟩
        exact ⟨sameOrg.symm, rfl⟩
      · rintro ⟨sameOrg, sameText⟩
        exact ⟨sameOrg.symm, (Role.text_injective sameText).symm⟩

namespace InMemoryAuthzStore

structure RevokesWritten (store : InMemoryAuthzStore) (principalId : JsString)
    (entries : List GrantEntry) (after : InMemoryAuthzStore) : Prop where
  gone : ∀ orgId role, (orgId, role) ∈ writtenKeys entries →
    ∀ row ∈ after.listGrantsForPrincipal principalId, ¬row.At orgId role
  othersKept : ∀ id, id ≠ principalId →
    after.listGrantsForPrincipal id = store.listGrantsForPrincipal id
  restKept :
    (after.listGrantsForPrincipal principalId).filter
        (fun row => (row.orgId, row.role) ∉ writtenKeys entries) =
      (store.listGrantsForPrincipal principalId).filter
        (fun row => (row.orgId, row.role) ∉ writtenKeys entries)

def NamedExactly (store : InMemoryAuthzStore) (principalId : JsString)
    (entries : List GrantEntry) : Prop :=
  ∀ raw ∈ entries, ∀ row ∈ store.listGrantsForPrincipal principalId,
    row.orgId = raw.orgId.trim → row.role.text = raw.role →
      ∃ exact ∈ entries, exact.orgId = raw.orgId.trim ∧ exact.role = raw.role

theorem mem_revoked_iff {entries : List GrantEntry}
    (accepted : ∀ raw ∈ entries, ∃ entry, normalizeGrantEntry raw = .ok entry) (row : RoleGrant) :
    rowKey row.orgId row.role.text ∈ (entries.map GrantEntry.toRevokeEntry).map
        (fun entry => rowKey entry.orgId entry.role) ↔
      ∃ raw ∈ entries, raw.orgId = row.orgId ∧ raw.role = row.role.text := by
  simp only [List.map_map, List.mem_map, Function.comp_apply, GrantEntry.toRevokeEntry]
  constructor
  · rintro ⟨raw, rawMem, sameKey⟩
    rcases accepted raw rawMem with ⟨entry, normalized⟩
    rw [← (normalizeGrantEntry_ok normalized).2] at sameKey
    rcases rowKey_role_inj sameKey with ⟨sameOrg, sameRole⟩
    refine ⟨raw, rawMem, sameOrg, ?_⟩
    rw [← (normalizeGrantEntry_ok normalized).2, sameRole]
  · rintro ⟨raw, rawMem, sameOrg, sameRole⟩
    exact ⟨raw, rawMem, by rw [sameOrg, sameRole]⟩

/-- A revocation undoes a grant of the same entries exactly when they name held rows exactly. -/
theorem revokes_written_iff {store : InMemoryAuthzStore} (reachable : store.Reachable)
    {principalId : JsString} {entries : List GrantEntry}
    (resolves : (store.grantMany principalId entries).2 = .ok ()) :
    RevokesWritten store principalId entries
        (store.revokeMany principalId (entries.map GrantEntry.toRevokeEntry)).1 ↔
      NamedExactly store principalId entries := by
  have accepted := (grantMany_resolves_iff store principalId entries).mp resolves
  have written := @mem_writtenKeys_iff entries accepted
  have dropped := mem_revoked_iff accepted
  have listed := listGrants_revokeMany store principalId (entries.map GrantEntry.toRevokeEntry)
  have ownList := listed principalId
  rw [if_pos rfl] at ownList
  constructor
  · intro revokes raw rawMem row rowMem sameOrg sameRole
    by_contra unnamed
    have kept : row ∈ (store.revokeMany principalId
        (entries.map GrantEntry.toRevokeEntry)).1.listGrantsForPrincipal principalId := by
      rw [ownList, List.mem_filter, decide_eq_true_eq, dropped]
      refine ⟨rowMem, ?_⟩
      rintro ⟨other, otherMem, otherOrg, otherRole⟩
      exact unnamed ⟨other, otherMem, otherOrg.trans sameOrg, otherRole.trans sameRole⟩
    refine revokes.gone row.orgId row.role ?_ row kept ⟨rfl, rfl⟩
    exact written.mpr ⟨raw, rawMem, sameOrg.symm, sameRole.symm⟩
  · intro named
    refine ⟨?_, ?_, ?_⟩
    · rintro orgId role isWritten row rowMem ⟨rfl, rfl⟩
      rw [ownList, List.mem_filter, decide_eq_true_eq, dropped] at rowMem
      rcases written.mp isWritten with ⟨raw, rawMem, trimmed, roleText⟩
      rcases named raw rawMem row rowMem.1 trimmed.symm roleText.symm with
        ⟨other, otherMem, sameOrg, sameRole⟩
      exact rowMem.2 ⟨other, otherMem, sameOrg.trans trimmed, sameRole.trans roleText⟩
    · intro id different
      rw [listed, if_neg different]
    · rw [ownList, List.filter_filter]
      apply List.filter_congr
      intro row rowMem
      rw [Bool.and_eq_left_iff_imp]
      simp only [decide_eq_true_eq, dropped]
      rintro notWritten ⟨raw, rawMem, sameOrg, sameRole⟩
      -- Stored ids are trimmed, so a row that is spelled out is also a written key.
      refine notWritten (written.mpr ⟨raw, rawMem, ?_, sameRole⟩)
      rw [sameOrg, (reachable.valid.rows principalId).trimmed row rowMem]

/-- Padding does no harm next to an entry that names the row exactly. -/
theorem revokes_written_padded_twin : ∃ start,
    new ⟨[⟨js "acme", js "Acme", none⟩], [⟨js "alice", [], none, none⟩]⟩ = .ok start ∧
    let granted := start.run [.grantMany (js "alice") [⟨js "acme", js "staff", none⟩]]
    let entries : List GrantEntry :=
      [⟨js " acme ", js "staff", none⟩, ⟨js "acme", js "staff", some (js "subtree")⟩]
    RevokesWritten granted (js "alice") entries
      (granted.revokeMany (js "alice") (entries.map GrantEntry.toRevokeEntry)).1 := by
  refine ⟨_, rfl, ?_⟩
  have accepted : new ⟨[⟨js "acme", js "Acme", none⟩], [⟨js "alice", [], none, none⟩]⟩ = .ok _ :=
    rfl
  apply (revokes_written_iff (reachable_run accepted _) (by decide)).mpr
  intro raw rawMem row _ _ _
  rcases List.mem_cons.mp rawMem with rfl | later
  · exact ⟨⟨js "acme", js "staff", some (js "subtree")⟩, by decide, by decide, rfl⟩
  · rw [List.mem_singleton.mp later]
    exact ⟨⟨js "acme", js "staff", some (js "subtree")⟩, by decide, by decide, rfl⟩

/-- A padded organization id is granted and not revoked. -/
theorem padded_entry_is_not_revoked : ∃ start,
    new ⟨[⟨js "acme", js "Acme", none⟩], [⟨js "alice", [], none, none⟩]⟩ = .ok start ∧
    let entries : List GrantEntry := [⟨js " acme ", js "staff", none⟩]
    let granted := start.run [.grantMany (js "alice") entries]
    (granted.grantMany (js "alice") entries).2 = .ok () ∧
    ¬RevokesWritten granted (js "alice") entries
      (granted.revokeMany (js "alice") (entries.map GrantEntry.toRevokeEntry)).1 := by
  refine ⟨_, rfl, by decide, ?_⟩
  intro revokes
  refine revokes.gone (js "acme") .staff (by decide)
    ⟨js "grant-1", js "alice", js "acme", .staff, .self⟩ (by decide) (by decide)

end InMemoryAuthzStore

end StudentHub.Authz

/-!
## Rejected calls

A rejected call should be invisible to every read. Registrations and organization
updates check their argument first, so they are. `grantMany` checks each entry when
it reaches it and works on the stored array of the principal, so the entries before
the first bad one stay in effect when that array exists. The exact condition is that
those entries ask for nothing the rows do not already give.
-/

namespace StudentHub.Authz

open Ecma

namespace InMemoryAuthzStore

structure SameReads (before after : InMemoryAuthzStore) : Prop where
  grants : ∀ id, after.listGrantsForPrincipal id = before.listGrantsForPrincipal id
  principals : after.listPrincipals = before.listPrincipals
  pbuuids : ∀ pbuuid, after.findPrincipalByPbuuid pbuuid = before.findPrincipalByPbuuid pbuuid
  organizations : after.listOrganizations = before.listOrganizations

theorem SameReads.refl (store : InMemoryAuthzStore) : SameReads store store :=
  ⟨fun _ => rfl, rfl, fun _ => rfl, rfl⟩

/-- If the call is rejected, no read notices. -/
def RejectionKeepsReads (store : InMemoryAuthzStore) (call : AuthzCall) : Prop :=
  ∀ error, (store.apply call).2 = .error error → SameReads store (store.apply call).1

/-- What a call may contain so that a rejection of it is not noticed. -/
def RejectsCleanly (store : InMemoryAuthzStore) : AuthzCall → Prop
  | .grantMany principalId entries =>
      (∀ raw ∈ entries, ∃ entry, normalizeGrantEntry raw = .ok entry) ∨
      store.grantsByPrincipal.get? principalId = none ∨
      ∀ entry ∈ acceptedPrefix entries, Covered (store.listGrantsForPrincipal principalId) entry
  | _ => True

theorem rejectionKeepsReads_of_not_grantMany {store : InMemoryAuthzStore} (valid : store.Valid)
    {call : AuthzCall} (other : ∀ principalId entries, call ≠ .grantMany principalId entries) :
    RejectionKeepsReads store call := by
  intro error rejected
  cases call with
  | upsertOrganization org =>
      simp only [apply] at rejected ⊢
      rcases upsertOrganization_cases valid org with ⟨_, refused, -⟩ | ⟨accepted, -⟩
      · rw [refused]
        exact SameReads.refl store
      · rw [accepted] at rejected
        cases rejected
  | registerPrincipal principal =>
      simp only [apply, registerPrincipal] at rejected ⊢
      cases registered : store.registered principal with
      | error _ => exact SameReads.refl store
      | ok next => simp [registered] at rejected
  | grantMany principalId entries => exact absurd rfl (other principalId entries)
  | revokeMany principalId entries =>
      exfalso
      simp only [apply, revokeMany] at rejected
      split at rejected
      · cases rejected
      · split at rejected <;> cases rejected
  | clearGrantsForPrincipal principalId => cases rejected

theorem sameReads_grantMany_iff {store : InMemoryAuthzStore} {principalId : JsString}
    {entries : List GrantEntry} (stored : (store.grantsByPrincipal.get? principalId).isSome) :
    SameReads store (store.grantMany principalId entries).1 ↔
      (store.grantDraft principalId entries).rows = store.listGrantsForPrincipal principalId := by
  rcases grantMany_cases store principalId entries with ⟨next, -⟩ | ⟨-, -, absent⟩
  · rw [next]
    constructor
    · intro same
      have listed := same.grants principalId
      rwa [listGrants_set, if_pos rfl] at listed
    · intro unchanged
      refine ⟨?_, rfl, fun _ => rfl, rfl⟩
      intro id
      rw [listGrants_set]
      split
      case isTrue sameId => rw [unchanged, sameId]
      case isFalse => rfl
  · simp [absent] at stored

/-- A call can be rejected without a trace exactly under the stated condition. -/
theorem rejection_keeps_reads_iff {store : InMemoryAuthzStore} (reachable : store.Reachable)
    (call : AuthzCall) : RejectionKeepsReads store call ↔ RejectsCleanly store call := by
  have valid := reachable.valid
  cases call with
  | grantMany principalId entries =>
      simp only [RejectionKeepsReads, RejectsCleanly, apply]
      have resolves := grantMany_resolves_iff store principalId entries
      cases result : (store.grantMany principalId entries).2 with
      | ok _ =>
          have accepted := resolves.mp result
          exact iff_of_true (by simp) (Or.inl accepted)
      | error error =>
          have notAccepted : ¬∀ raw ∈ entries, ∃ entry, normalizeGrantEntry raw = .ok entry := by
            intro accepted
            simp [resolves.mpr accepted] at result
          simp only [notAccepted, false_or, Except.error.injEq, forall_eq']
          cases live : store.grantsByPrincipal.get? principalId with
          | none =>
              refine iff_of_true ?_ (Or.inl rfl)
              rcases grantMany_cases store principalId entries with ⟨-, resolved | stored⟩ |
                ⟨next, -, -⟩
              · simp [resolved] at result
              · simp [live] at stored
              · rw [next]
                exact ⟨fun _ => rfl, rfl, fun _ => rfl, rfl⟩
          | some rows =>
              rw [sameReads_grantMany_iff (by simp [live]), grantDraft, grantEntries_draft]
              have start := draftValid_start (valid.rows principalId)
              have trimmed : ∀ entry ∈ acceptedPrefix entries, entry.orgId.trim = entry.orgId :=
                fun _ => trimmed_of_mem_acceptedPrefix
              have unchanged := foldl_rows_unchanged_iff start trimmed
              simpa [GrantDraft.start] using unchanged
  | _ =>
      refine iff_of_true ?_ trivial
      apply rejectionKeepsReads_of_not_grantMany valid
      intro principalId entries same
      cases same

/-- The condition at a call whose only accepted entry is one the principal already holds. -/
theorem rejection_keeps_reads_held : ∃ start,
    new ⟨[⟨js "acme", js "Acme", none⟩], [⟨js "alice", [], none, none⟩]⟩ = .ok start ∧
    RejectionKeepsReads (start.run [.grantMany (js "alice") [⟨js "acme", js "staff", none⟩]])
      (.grantMany (js "alice") [⟨js "acme", js "staff", none⟩, ⟨[], js "admin", none⟩]) := by
  refine ⟨_, rfl, ?_⟩
  have accepted : new ⟨[⟨js "acme", js "Acme", none⟩], [⟨js "alice", [], none, none⟩]⟩ = .ok _ :=
    rfl
  apply (rejection_keeps_reads_iff (reachable_run accepted _) _).mpr
  right; right
  intro entry member
  have only : entry = ⟨js "acme", .staff, .self⟩ := List.mem_singleton.mp member
  subst only
  exact ⟨⟨js "grant-1", js "alice", js "acme", .staff, .self⟩, by decide, by decide, by decide⟩

/-- A bad entry behind a good one: the call is rejected, and the good one stays granted. -/
theorem rejected_grantMany_leaves_a_grant : ∃ start,
    new ⟨[⟨js "acme", js "Acme", none⟩], [⟨js "alice", [], none, none⟩]⟩ = .ok start ∧
    ¬RejectionKeepsReads (start.run [.grantMany (js "alice") [⟨js "acme", js "staff", none⟩]])
      (.grantMany (js "alice") [⟨js "acme", js "admin", none⟩, ⟨[], js "staff", none⟩]) := by
  refine ⟨_, rfl, ?_⟩
  intro keeps
  have same := (keeps .emptyOrgId (by decide)).grants (js "alice")
  exact absurd same (by decide)

end InMemoryAuthzStore

end StudentHub.Authz
