import StudentHub.Authz.Reachable

/-!
# Grants in batches

A principal is given some entries by one call of `grantMany` after another. What it holds then is
what it held and what the entries ask for, in whatever order and batches they came.
-/

namespace StudentHub.Authz

open Ecma

/-- A scope that is held covers a scope that is asked for. -/
def GrantScope.Covers (held asked : GrantScope) : Prop := held = asked ∨ held = .subtree

theorem foldl_widen_covers (entries : List NormalizedGrantEntry) (held : Option GrantScope)
    (scope : GrantScope) :
    (∃ found ∈ entries.foldl (fun held entry => some (widen held entry.scope)) held,
        found.Covers scope) ↔
      (∃ found ∈ held, found.Covers scope) ∨ ∃ entry ∈ entries, entry.scope.Covers scope := by
  induction entries generalizing held with
  | nil => simp
  | cons entry rest ih =>
      rw [List.foldl_cons, ih, List.exists_mem_cons_iff, ← or_assoc]
      apply or_congr_left
      rcases held with _ | held
      · simp [widen]
      · cases held <;> cases isScope : entry.scope <;> cases scope <;>
          simp [widen, GrantScope.Covers]

namespace InMemoryAuthzStore

/-- The principal holds the role at the organization, in a scope that covers this one. -/
def Gives (store : InMemoryAuthzStore) (principalId orgId : JsString) (role : Role)
    (scope : GrantScope) : Prop :=
  ∃ held ∈ scopeAt (store.listGrantsForPrincipal principalId) orgId role, held.Covers scope

theorem gives_grantMany {store : InMemoryAuthzStore} (valid : store.Valid) {principalId : JsString}
    {entries : List GrantEntry}
    (accepted : ∀ raw ∈ entries, ∃ entry, normalizeGrantEntry raw = .ok entry) (orgId : JsString)
    (role : Role) (scope : GrantScope) :
    (store.grantMany principalId entries).1.Gives principalId orgId role scope ↔
      store.Gives principalId orgId role scope ∨ ∃ raw ∈ entries, ∃ entry,
        normalizeGrantEntry raw = .ok entry ∧ entry.orgId = orgId ∧ entry.role = role ∧
          entry.scope.Covers scope := by
  have resolves := (grantMany_resolves_iff store principalId entries).mpr accepted
  have start := draftValid_start (valid.rows principalId)
  have listed : (store.grantMany principalId entries).1.listGrantsForPrincipal principalId =
      (store.grantDraft principalId entries).rows := by
    rcases grantMany_cases store principalId entries with ⟨next, -⟩ | ⟨-, ⟨error, rejected⟩, -⟩
    · rw [next, listGrants_set, if_pos rfl]
    · simp [rejected] at resolves
  rw [Gives, listed, grantDraft, grantEntries_draft,
    scopeAt_foldl start fun _ => trimmed_of_mem_acceptedPrefix, foldl_widen_covers]
  apply or_congr_right
  simp only [List.mem_filter, decide_eq_true_eq, and_assoc]
  clear resolves start listed
  induction entries with
  | nil => simp [acceptedPrefix]
  | cons raw rest ih =>
      rw [List.forall_mem_cons] at accepted
      rcases accepted.1 with ⟨entry, normalized⟩
      simp only [acceptedPrefix, normalized, List.exists_mem_cons_iff, ih accepted.2, Except.ok.injEq,
        exists_eq_left']

/-- What a principal holds after any calls of `grantMany` is what it held and what their entries ask
for: neither their order nor the way in which they are batched makes a difference. -/
theorem run_grantMany_gives {store : InMemoryAuthzStore} (reachable : store.Reachable)
    {principalId : JsString} {batches : List (List GrantEntry)}
    (accepted : ∀ raw ∈ batches.flatten, ∃ entry, normalizeGrantEntry raw = .ok entry)
    (orgId : JsString) (role : Role) (scope : GrantScope) :
    (store.run (batches.map (.grantMany principalId))).Gives principalId orgId role scope ↔
      store.Gives principalId orgId role scope ∨ ∃ raw ∈ batches.flatten, ∃ entry,
        normalizeGrantEntry raw = .ok entry ∧ entry.orgId = orgId ∧ entry.role = role ∧
          entry.scope.Covers scope := by
  have valid := reachable.valid
  clear reachable
  induction batches generalizing store with
  | nil => simp
  | cons entries rest ih =>
      simp only [List.flatten_cons, List.mem_append, or_imp, forall_and] at accepted
      rw [List.map_cons, run_cons]
      refine (ih accepted.2 (valid.grantMany principalId entries).1).trans ?_
      rw [gives_grantMany valid accepted.1]
      simp only [List.flatten_cons, List.mem_append, or_and_right, exists_or, or_assoc]

theorem run_grantMany_gives_acme : ∃ start, new ⟨[], [⟨js "alice", [], none, none⟩]⟩ = .ok start ∧
    (start.run ([[⟨js " acme", js "staff", some (js "subtree")⟩], [⟨js "acme", js "staff", none⟩]].map
      (.grantMany (js "alice")))).Gives (js "alice") (js "acme") .staff .subtree := by
  refine ⟨_, rfl, ?_⟩
  have accepted : new ⟨[], [⟨js "alice", [], none, none⟩]⟩ = .ok _ := rfl
  apply (run_grantMany_gives (reachable_run accepted []) ?_ (js "acme") .staff .subtree).mpr
  · exact .inr ⟨_, List.mem_cons_self, _, rfl, by decide, rfl, .inl rfl⟩
  · intro raw rawMem
    rcases List.mem_cons.mp rawMem with rfl | later
    · exact ⟨_, rfl⟩
    · rw [List.mem_singleton.mp later]
      exact ⟨_, rfl⟩

end InMemoryAuthzStore

end StudentHub.Authz
