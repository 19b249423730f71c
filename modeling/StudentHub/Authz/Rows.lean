import StudentHub.Authz.Store
import Mathlib.Data.List.Pairwise

/-!
# Grant rows

The rows of one principal are a map from (organization, role) to a scope, and
`scopeAt` reads it. The loop of `grantMany` is described by what one accepted
entry can do to the rows (`grantEntry_cases`): keep them, widen one row in place,
or add one. From it follow the invariant of the rows, the scope that each entry
leaves, and that rows keep their id, organization and role and only ever widen.

`weight` counts rows, with a subtree row counted twice. It never falls, and it
stays only when the rows stay, so it tells whether a run of the loop changed
anything.
-/

namespace StudentHub.Authz

open Ecma

def widen (held : Option GrantScope) (granted : GrantScope) : GrantScope :=
  if held = some .subtree then .subtree else granted

def RoleGrant.At (row : RoleGrant) (orgId : JsString) (role : Role) : Prop :=
  row.orgId = orgId ∧ row.role = role

instance (row : RoleGrant) (orgId : JsString) (role : Role) : Decidable (row.At orgId role) :=
  inferInstanceAs (Decidable (_ ∧ _))

def scopeAt (rows : List RoleGrant) (orgId : JsString) (role : Role) : Option GrantScope :=
  (rows.find? fun row => row.At orgId role).map RoleGrant.scope

/-- What holds of the stored rows of a principal once `bound` is the next row number. -/
structure RowsValid (principalId : JsString) (bound : ℕ) (rows : List RoleGrant) : Prop where
  keys : (rows.map fun row => (row.orgId, row.role)).Nodup
  ids : (rows.map RoleGrant.id).Nodup
  owned : ∀ row ∈ rows, row.principalId = principalId
  issued : ∀ row ∈ rows, ∃ number < bound, row.id = grantId number
  trimmed : ∀ row ∈ rows, row.orgId.trim = row.orgId

theorem RowsValid.nil (principalId : JsString) (bound : ℕ) : RowsValid principalId bound [] := by
  constructor <;> simp

theorem RowsValid.mono {principalId : JsString} {bound larger : ℕ} {rows : List RoleGrant}
    (valid : RowsValid principalId bound rows) (le : bound ≤ larger) :
    RowsValid principalId larger rows where
  keys := valid.keys
  ids := valid.ids
  owned := valid.owned
  issued := by
    intro row rowMem
    rcases valid.issued row rowMem with ⟨number, below, named⟩
    exact ⟨number, below.trans_le le, named⟩
  trimmed := valid.trimmed

theorem RowsValid.filter {principalId : JsString} {bound : ℕ} {rows : List RoleGrant}
    (valid : RowsValid principalId bound rows) (keep : RoleGrant → Bool) :
    RowsValid principalId bound (rows.filter keep) where
  keys := valid.keys.sublist (List.filter_sublist.map _)
  ids := valid.ids.sublist (List.filter_sublist.map _)
  owned row rowMem := valid.owned row (List.mem_of_mem_filter rowMem)
  issued row rowMem := valid.issued row (List.mem_of_mem_filter rowMem)
  trimmed row rowMem := valid.trimmed row (List.mem_of_mem_filter rowMem)

theorem RowsValid.unique {principalId : JsString} {bound : ℕ} {rows : List RoleGrant}
    (valid : RowsValid principalId bound rows) {left right : RoleGrant} (leftMem : left ∈ rows)
    (rightMem : right ∈ rows) (sameOrg : left.orgId = right.orgId)
    (sameRole : left.role = right.role) : left = right :=
  List.inj_on_of_nodup_map valid.keys leftMem rightMem (by rw [sameOrg, sameRole])

theorem scopeAt_eq_some_iff {principalId : JsString} {bound : ℕ} {rows : List RoleGrant}
    (valid : RowsValid principalId bound rows) {orgId : JsString} {role : Role}
    {scope : GrantScope} :
    scopeAt rows orgId role = some scope ↔
      ∃ row ∈ rows, row.At orgId role ∧ row.scope = scope := by
  simp only [scopeAt, Option.map_eq_some_iff]
  constructor
  · rintro ⟨row, found, rfl⟩
    exact ⟨row, List.mem_of_find?_eq_some found, by simpa using List.find?_some found, rfl⟩
  · rintro ⟨row, rowMem, at_, rfl⟩
    cases found : rows.find? fun row => row.At orgId role with
    | none =>
        have absent := List.find?_eq_none.mp found row rowMem
        simp [at_] at absent
    | some first =>
        have firstAt : first.At orgId role := by simpa using List.find?_some found
        have same : first = row := valid.unique (List.mem_of_find?_eq_some found) rowMem
          (firstAt.1.trans at_.1.symm) (firstAt.2.trans at_.2.symm)
        exact ⟨first, rfl, by rw [same]⟩

theorem scopeAt_eq_none_iff {rows : List RoleGrant} {orgId : JsString} {role : Role} :
    scopeAt rows orgId role = none ↔ ∀ row ∈ rows, ¬row.At orgId role := by
  simp [scopeAt, List.find?_eq_none]

/-- What holds of the local variables of `grantMany` between two entries. -/
structure DraftValid (principalId : JsString) (draft : GrantDraft) : Prop where
  rows : RowsValid principalId draft.nextGrantId draft.rows
  indexed : ∀ key row, draft.byKey.get? key = some row ↔
    row ∈ draft.rows ∧ rowKey row.orgId row.role.text = key

theorem draftValid_start {principalId : JsString} {bound : ℕ} {rows : List RoleGrant}
    (valid : RowsValid principalId bound rows) :
    DraftValid principalId (.start rows bound) where
  rows := valid
  indexed := by
    intro key row
    have distinct : ((rows.map fun row =>
        (rowKey row.orgId row.role.text, row)).map Prod.fst).Nodup := by
      rw [List.map_map]
      refine List.Nodup.map_on ?_ (valid.keys.of_map _)
      intro left leftMem right rightMem sameKey
      rcases rowKey_role_inj sameKey with ⟨sameOrg, sameRole⟩
      exact valid.unique leftMem rightMem sameOrg sameRole
    simp only [GrantDraft.start, OrderedMap.get?_ofList_iff distinct, List.mem_map, Prod.mk.injEq]
    constructor
    · rintro ⟨_, rowMem, sameKey, rfl⟩
      exact ⟨rowMem, sameKey⟩
    · rintro ⟨rowMem, sameKey⟩
      exact ⟨row, rowMem, sameKey, rfl⟩

def newRow (principalId : JsString) (draft : GrantDraft) (entry : NormalizedGrantEntry) :
    RoleGrant :=
  ⟨grantId draft.nextGrantId, principalId, entry.orgId, entry.role, entry.scope⟩

def RoleGrant.widened (row : RoleGrant) : RoleGrant := { row with scope := .subtree }

theorem grantEntry_cases {principalId : JsString} {draft : GrantDraft}
    (valid : DraftValid principalId draft) (entry : NormalizedGrantEntry) :
    (∃ row ∈ draft.rows, row.At entry.orgId entry.role ∧
      (row.scope = .subtree ∨ entry.scope = .self) ∧
      grantEntry principalId draft entry = draft) ∨
    (∃ before row after, draft.rows = before ++ row :: after ∧ row.At entry.orgId entry.role ∧
      row.scope = .self ∧ entry.scope = .subtree ∧
      grantEntry principalId draft entry =
        { rows := before ++ row.widened :: after
          byKey := draft.byKey.set (rowKey entry.orgId entry.role.text) row.widened
          nextGrantId := draft.nextGrantId }) ∨
    ((∀ row ∈ draft.rows, ¬row.At entry.orgId entry.role) ∧
      grantEntry principalId draft entry =
        { rows := draft.rows ++ [newRow principalId draft entry]
          byKey := draft.byKey.set (rowKey entry.orgId entry.role.text)
            (newRow principalId draft entry)
          nextGrantId := draft.nextGrantId + 1 }) := by
  cases found : draft.byKey.get? (rowKey entry.orgId entry.role.text) with
  | none =>
      right; right
      refine ⟨?_, by simp only [grantEntry, found, newRow]⟩
      rintro row rowMem ⟨sameOrg, sameRole⟩
      have indexed := (valid.indexed (rowKey entry.orgId entry.role.text) row).mpr
        ⟨rowMem, by rw [sameOrg, sameRole]⟩
      rw [found] at indexed
      cases indexed
  | some row =>
      rcases (valid.indexed _ _).mp found with ⟨rowMem, sameKey⟩
      have rowAt : row.At entry.orgId entry.role := rowKey_role_inj sameKey
      by_cases widens : entry.scope = .subtree ∧ row.scope ≠ .subtree
      · right; left
        rcases List.append_of_mem rowMem with ⟨before, after, split⟩
        have early : row ∉ before := by
          intro early
          have keys := valid.rows.keys
          rw [split, List.map_append, List.map_cons, List.nodup_append] at keys
          exact keys.2.2 _ (List.mem_map_of_mem early) _ List.mem_cons_self rfl
        have position : draft.rows.idxOf row = before.length := by
          rw [split, List.idxOf_append_of_notMem early, List.idxOf_cons_self, Nat.add_zero]
        refine ⟨before, row, after, split, rowAt, ?_, widens.1, ?_⟩
        · cases scope : row.scope with
          | self => rfl
          | subtree => exact absurd scope widens.2
        · simp only [grantEntry, found, widens, ne_eq, not_false_eq_true, and_self, if_true,
            position, RoleGrant.widened]
          rw [split, List.set_append_right _ _ le_rfl, Nat.sub_self, List.set_cons_zero]
      · left
        refine ⟨row, rowMem, rowAt, ?_, by simp only [grantEntry, found, widens, if_false]⟩
        cases scope : row.scope with
        | subtree => exact Or.inl rfl
        | self =>
            cases granted : entry.scope with
            | self => exact Or.inr rfl
            | subtree => exact absurd ⟨granted, by simp [scope]⟩ widens

theorem mem_replace_iff {Item : Type} {before after : List Item} {old new item : Item}
    (nodup : (before ++ old :: after).Nodup) :
    item ∈ before ++ new :: after ↔ item = new ∨ item ∈ before ++ old :: after ∧ item ≠ old := by
  have nodup' := List.nodup_append.mp nodup
  have notBefore : old ∉ before := fun early => nodup'.2.2 old early old List.mem_cons_self rfl
  have notAfter : old ∉ after := (List.nodup_cons.mp nodup'.2.1).1
  simp only [List.mem_append, List.mem_cons]
  constructor
  · rintro (early | rfl | late)
    · exact Or.inr ⟨Or.inl early, fun same => notBefore (same ▸ early)⟩
    · exact Or.inl rfl
    · exact Or.inr ⟨Or.inr (Or.inr late), fun same => notAfter (same ▸ late)⟩
  · rintro (rfl | ⟨early | rfl | late, different⟩)
    · exact Or.inr (Or.inl rfl)
    · exact Or.inl early
    · exact absurd rfl different
    · exact Or.inr (Or.inr late)

theorem RowsValid.nodup {principalId : JsString} {bound : ℕ} {rows : List RoleGrant}
    (valid : RowsValid principalId bound rows) : rows.Nodup := valid.ids.of_map _

theorem RowsValid.widen {principalId : JsString} {bound : ℕ} {before after : List RoleGrant}
    {row : RoleGrant} (valid : RowsValid principalId bound (before ++ row :: after)) :
    RowsValid principalId bound (before ++ row.widened :: after) where
  keys := by simpa [RoleGrant.widened] using valid.keys
  ids := by simpa [RoleGrant.widened] using valid.ids
  owned := by
    intro other otherMem
    rcases (mem_replace_iff valid.nodup).mp otherMem with rfl | ⟨old, -⟩
    · exact valid.owned row (by simp)
    · exact valid.owned other old
  issued := by
    intro other otherMem
    rcases (mem_replace_iff valid.nodup).mp otherMem with rfl | ⟨old, -⟩
    · exact valid.issued row (by simp)
    · exact valid.issued other old
  trimmed := by
    intro other otherMem
    rcases (mem_replace_iff valid.nodup).mp otherMem with rfl | ⟨old, -⟩
    · exact valid.trimmed row (by simp)
    · exact valid.trimmed other old

theorem RowsValid.add {principalId : JsString} {bound : ℕ} {rows : List RoleGrant}
    (valid : RowsValid principalId bound rows) {row : RoleGrant}
    (named : row.id = grantId bound) (owned : row.principalId = principalId)
    (trimmed : row.orgId.trim = row.orgId)
    (absent : ∀ other ∈ rows, ¬other.At row.orgId row.role) :
    RowsValid principalId (bound + 1) (rows ++ [row]) where
  keys := by
    rw [List.map_append, List.nodup_append]
    refine ⟨valid.keys, by simp, ?_⟩
    rintro _ oldMem _ newMem rfl
    rcases List.mem_map.mp oldMem with ⟨other, otherMem, same⟩
    simp only [List.map_cons, List.map_nil, List.mem_singleton] at newMem same
    rw [newMem] at same
    exact absent other otherMem (Prod.mk.inj same)
  ids := by
    rw [List.map_append, List.nodup_append]
    refine ⟨valid.ids, by simp, ?_⟩
    rintro _ oldMem _ newMem rfl
    rcases List.mem_map.mp oldMem with ⟨other, otherMem, same⟩
    rcases valid.issued other otherMem with ⟨number, below, otherNamed⟩
    simp only [List.map_cons, List.map_nil, List.mem_singleton] at newMem
    rw [newMem, otherNamed, named] at same
    exact absurd (grantId_injective same) (by omega)
  owned := by
    intro other otherMem
    rcases List.mem_append.mp otherMem with old | new
    · exact valid.owned other old
    · rw [List.mem_singleton.mp new, owned]
  issued := by
    intro other otherMem
    rcases List.mem_append.mp otherMem with old | new
    · rcases valid.issued other old with ⟨number, below, otherNamed⟩
      exact ⟨number, by omega, otherNamed⟩
    · exact ⟨bound, by omega, by rw [List.mem_singleton.mp new, named]⟩
  trimmed := by
    intro other otherMem
    rcases List.mem_append.mp otherMem with old | new
    · exact valid.trimmed other old
    · rw [List.mem_singleton.mp new, trimmed]

theorem DraftValid.grantEntry {principalId : JsString} {draft : GrantDraft}
    (valid : DraftValid principalId draft) {entry : NormalizedGrantEntry}
    (trimmed : entry.orgId.trim = entry.orgId) :
    DraftValid principalId (grantEntry principalId draft entry) := by
  rcases grantEntry_cases valid entry with ⟨_, _, _, _, kept⟩ |
    ⟨before, row, after, split, rowAt, _, _, widened⟩ | ⟨absent, added⟩
  · rw [kept]
    exact valid
  · have rows := valid.rows
    have indexed := valid.indexed
    rw [split] at rows indexed
    rw [widened]
    refine ⟨rows.widen, ?_⟩
    intro key other
    rw [OrderedMap.get?_set, mem_replace_iff rows.nodup]
    by_cases same : key = rowKey entry.orgId entry.role.text
    · simp only [same, if_true, Option.some.injEq]
      constructor
      · rintro rfl
        exact ⟨Or.inl rfl, by rw [← rowAt.1, ← rowAt.2]; rfl⟩
      · rintro ⟨rfl | ⟨otherMem, different⟩, sameKey⟩
        · rfl
        · rcases rowKey_role_inj sameKey with ⟨sameOrg, sameRole⟩
          exact absurd (rows.unique otherMem (by simp) (sameOrg.trans rowAt.1.symm)
            (sameRole.trans rowAt.2.symm)) different
    · simp only [same, if_false, indexed]
      constructor
      · rintro ⟨otherMem, sameKey⟩
        refine ⟨Or.inr ⟨otherMem, ?_⟩, sameKey⟩
        rintro rfl
        exact same (by rw [← sameKey, rowAt.1, rowAt.2])
      · rintro ⟨rfl | ⟨otherMem, -⟩, sameKey⟩
        · exact absurd (by rw [← sameKey, ← rowAt.1, ← rowAt.2]; rfl) same
        · exact ⟨otherMem, sameKey⟩
  · rw [added]
    refine ⟨valid.rows.add rfl rfl trimmed absent, ?_⟩
    intro key other
    simp only [OrderedMap.get?_set, List.mem_append, List.mem_singleton]
    by_cases same : key = rowKey entry.orgId entry.role.text
    · simp only [same, if_true, Option.some.injEq]
      constructor
      · rintro rfl
        exact ⟨Or.inr rfl, rfl⟩
      · rintro ⟨old | rfl, sameKey⟩
        · exact absurd (rowKey_role_inj sameKey) (absent other old)
        · rfl
    · simp only [same, if_false, valid.indexed]
      constructor
      · rintro ⟨old, sameKey⟩
        exact ⟨Or.inl old, sameKey⟩
      · rintro ⟨old | rfl, sameKey⟩
        · exact ⟨old, sameKey⟩
        · exact absurd sameKey.symm same

theorem scopeAt_grantEntry {principalId : JsString} {draft : GrantDraft}
    (valid : DraftValid principalId draft) {entry : NormalizedGrantEntry}
    (trimmed : entry.orgId.trim = entry.orgId) (orgId : JsString) (role : Role) :
    scopeAt (grantEntry principalId draft entry).rows orgId role =
      if entry.orgId = orgId ∧ entry.role = role then
        some (widen (scopeAt draft.rows orgId role) entry.scope)
      else scopeAt draft.rows orgId role := by
  have validAfter := (valid.grantEntry trimmed).rows
  rcases grantEntry_cases valid entry with ⟨row, rowMem, rowAt, covered, kept⟩ |
    ⟨before, row, after, split, rowAt, narrow, granted, widened⟩ | ⟨absent, added⟩
  · rw [kept]
    split
    case isTrue same =>
      rcases same with ⟨rfl, rfl⟩
      have held : scopeAt draft.rows entry.orgId entry.role = some row.scope :=
        (scopeAt_eq_some_iff valid.rows).mpr ⟨row, rowMem, rowAt, rfl⟩
      rw [held, widen]
      cases scope : row.scope with
      | subtree => simp
      | self =>
          rcases covered with wide | narrow
          · simp [scope] at wide
          · simp [narrow]
    case isFalse => rfl
  · rw [widened] at validAfter ⊢
    have rows := valid.rows
    rw [split] at rows ⊢
    split
    case isTrue same =>
      rcases same with ⟨rfl, rfl⟩
      rw [granted, widen, ite_self]
      exact (scopeAt_eq_some_iff validAfter).mpr ⟨row.widened, by simp, rowAt, rfl⟩
    case isFalse different =>
      apply Option.ext
      intro scope
      rw [scopeAt_eq_some_iff validAfter, scopeAt_eq_some_iff rows]
      constructor
      · rintro ⟨other, otherMem, otherAt, sameScope⟩
        rcases (mem_replace_iff rows.nodup).mp otherMem with rfl | ⟨old, -⟩
        · exact absurd ⟨rowAt.1.symm.trans otherAt.1, rowAt.2.symm.trans otherAt.2⟩ different
        · exact ⟨other, old, otherAt, sameScope⟩
      · rintro ⟨other, old, otherAt, sameScope⟩
        refine ⟨other, (mem_replace_iff rows.nodup).mpr (Or.inr ⟨old, ?_⟩), otherAt, sameScope⟩
        rintro rfl
        exact different ⟨rowAt.1.symm.trans otherAt.1, rowAt.2.symm.trans otherAt.2⟩
  · rw [added] at validAfter ⊢
    split
    case isTrue same =>
      rcases same with ⟨rfl, rfl⟩
      rw [scopeAt_eq_none_iff.mpr absent]
      exact (scopeAt_eq_some_iff validAfter).mpr
        ⟨newRow principalId draft entry, by simp, ⟨rfl, rfl⟩, rfl⟩
    case isFalse different =>
      have notNew : ¬(newRow principalId draft entry).At orgId role := different
      simp [scopeAt, List.find?_append, notNew]

/-- One row, seen at two moments: its scope can only have widened. -/
structure RoleGrant.Continues (earlier later : RoleGrant) : Prop where
  id : later.id = earlier.id
  principalId : later.principalId = earlier.principalId
  orgId : later.orgId = earlier.orgId
  role : later.role = earlier.role
  scope : earlier.scope = .subtree → later.scope = .subtree

theorem RoleGrant.Continues.refl (row : RoleGrant) : row.Continues row :=
  ⟨rfl, rfl, rfl, rfl, fun wide => wide⟩

theorem RoleGrant.Continues.trans {first second third : RoleGrant}
    (earlier : first.Continues second) (later : second.Continues third) :
    first.Continues third where
  id := later.id.trans earlier.id
  principalId := later.principalId.trans earlier.principalId
  orgId := later.orgId.trans earlier.orgId
  role := later.role.trans earlier.role
  scope := fun wide => later.scope (earlier.scope wide)

/-- Every later row continues an earlier one or has a number from `bound` on. -/
def Evolves (bound : ℕ) (earlier later : List RoleGrant) : Prop :=
  ∀ row ∈ later, (∃ old ∈ earlier, old.Continues row) ∨
    ∃ number, bound ≤ number ∧ row.id = grantId number

theorem Evolves.refl (bound : ℕ) (rows : List RoleGrant) : Evolves bound rows rows :=
  fun row rowMem => Or.inl ⟨row, rowMem, RoleGrant.Continues.refl row⟩

theorem Evolves.trans {bound larger : ℕ} {first second third : List RoleGrant}
    (le : bound ≤ larger) (earlier : Evolves bound first second)
    (later : Evolves larger second third) : Evolves bound first third := by
  intro row rowMem
  rcases later row rowMem with ⟨middle, middleMem, continues⟩ | ⟨number, above, named⟩
  · rcases earlier middle middleMem with ⟨old, oldMem, before⟩ | ⟨number, above, named⟩
    · exact Or.inl ⟨old, oldMem, before.trans continues⟩
    · exact Or.inr ⟨number, above, continues.id.trans named⟩
  · exact Or.inr ⟨number, le.trans above, named⟩

theorem evolves_grantEntry {principalId : JsString} {draft : GrantDraft}
    (valid : DraftValid principalId draft) (entry : NormalizedGrantEntry) :
    draft.nextGrantId ≤ (grantEntry principalId draft entry).nextGrantId ∧
      Evolves draft.nextGrantId draft.rows (grantEntry principalId draft entry).rows := by
  rcases grantEntry_cases valid entry with ⟨_, _, _, _, kept⟩ |
    ⟨before, row, after, split, _, _, _, widened⟩ | ⟨_, added⟩
  · rw [kept]
    exact ⟨le_rfl, Evolves.refl _ _⟩
  · rw [widened]
    refine ⟨le_rfl, ?_⟩
    have rows := valid.rows
    rw [split] at rows ⊢
    intro other otherMem
    left
    rcases (mem_replace_iff rows.nodup).mp otherMem with rfl | ⟨old, -⟩
    · exact ⟨row, by simp, rfl, rfl, rfl, rfl, fun _ => rfl⟩
    · exact ⟨other, old, RoleGrant.Continues.refl other⟩
  · rw [added]
    refine ⟨Nat.le_succ _, ?_⟩
    intro other otherMem
    rcases List.mem_append.mp otherMem with old | new
    · exact Or.inl ⟨other, old, RoleGrant.Continues.refl other⟩
    · exact Or.inr ⟨draft.nextGrantId, le_rfl, by rw [List.mem_singleton.mp new]; rfl⟩

def weight (rows : List RoleGrant) : ℕ :=
  rows.length + rows.countP fun row => row.scope = .subtree

def Covered (rows : List RoleGrant) (entry : NormalizedGrantEntry) : Prop :=
  ∃ row ∈ rows, row.At entry.orgId entry.role ∧ (row.scope = .subtree ∨ entry.scope = .self)

theorem grantEntry_covered_or_heavier {principalId : JsString} {draft : GrantDraft}
    (valid : DraftValid principalId draft) (entry : NormalizedGrantEntry) :
    (Covered draft.rows entry ∧ grantEntry principalId draft entry = draft) ∨
      (¬Covered draft.rows entry ∧
        weight draft.rows < weight (grantEntry principalId draft entry).rows) := by
  rcases grantEntry_cases valid entry with ⟨row, rowMem, rowAt, covered, kept⟩ |
    ⟨before, row, after, split, rowAt, narrow, granted, widened⟩ | ⟨absent, added⟩
  · exact Or.inl ⟨⟨row, rowMem, rowAt, covered⟩, kept⟩
  · right
    constructor
    · rintro ⟨other, otherMem, otherAt, wide | small⟩
      · have same : other = row := valid.rows.unique otherMem (by simp [split])
          (otherAt.1.trans rowAt.1.symm) (otherAt.2.trans rowAt.2.symm)
        rw [same, narrow] at wide
        cases wide
      · rw [granted] at small
        cases small
    · rw [widened, split]
      simp only [weight, List.length_append, List.length_cons, List.countP_append,
        List.countP_cons, RoleGrant.widened, narrow, decide_true, if_true, reduceCtorEq,
        decide_false, Bool.false_eq_true, if_false]
      omega
  · right
    constructor
    · rintro ⟨other, otherMem, otherAt, -⟩
      exact absent other otherMem otherAt
    · rw [added]
      simp only [weight, List.length_append, List.length_singleton, List.countP_append]
      omega

/-- What holds of the draft once some entries have been applied to `start`. -/
structure Grown (principalId : JsString) (start draft : GrantDraft) : Prop where
  valid : DraftValid principalId draft
  bound : start.nextGrantId ≤ draft.nextGrantId
  evolves : Evolves start.nextGrantId start.rows draft.rows
  heavier : weight start.rows ≤ weight draft.rows

theorem Grown.refl {principalId : JsString} {start : GrantDraft}
    (valid : DraftValid principalId start) : Grown principalId start start :=
  ⟨valid, le_rfl, Evolves.refl _ _, le_rfl⟩

theorem Grown.trans {principalId : JsString} {first second third : GrantDraft}
    (earlier : Grown principalId first second) (later : Grown principalId second third) :
    Grown principalId first third where
  valid := later.valid
  bound := earlier.bound.trans later.bound
  evolves := earlier.evolves.trans earlier.bound later.evolves
  heavier := earlier.heavier.trans later.heavier

theorem grown_grantEntry {principalId : JsString} {draft : GrantDraft}
    (valid : DraftValid principalId draft) {entry : NormalizedGrantEntry}
    (trimmed : entry.orgId.trim = entry.orgId) :
    Grown principalId draft (grantEntry principalId draft entry) where
  valid := valid.grantEntry trimmed
  bound := (evolves_grantEntry valid entry).1
  evolves := (evolves_grantEntry valid entry).2
  heavier := by
    rcases grantEntry_covered_or_heavier valid entry with ⟨-, kept⟩ | ⟨-, heavier⟩
    · rw [kept]
    · exact heavier.le

theorem trimmed_of_normalized {raw : GrantEntry} {entry : NormalizedGrantEntry}
    (accepted : normalizeGrantEntry raw = .ok entry) : entry.orgId.trim = entry.orgId := by
  rw [(normalizeGrantEntry_ok accepted).1, JsString.trim_trim]

def acceptedPrefix : List GrantEntry → List NormalizedGrantEntry
  | [] => []
  | raw :: rest =>
      match normalizeGrantEntry raw with
      | .error _ => []
      | .ok entry => entry :: acceptedPrefix rest

theorem grantEntries_draft (principalId : JsString) (draft : GrantDraft)
    (entries : List GrantEntry) :
    (grantEntries principalId draft entries).1 =
      (acceptedPrefix entries).foldl (grantEntry principalId) draft := by
  induction entries generalizing draft with
  | nil => rfl
  | cons raw rest ih =>
      simp only [grantEntries, acceptedPrefix]
      cases normalizeGrantEntry raw with
      | error error => rfl
      | ok entry => exact ih _

theorem grantEntries_resolves_iff (principalId : JsString) (draft : GrantDraft)
    (entries : List GrantEntry) :
    (grantEntries principalId draft entries).2 = .ok () ↔
      ∀ raw ∈ entries, ∃ entry, normalizeGrantEntry raw = .ok entry := by
  induction entries generalizing draft with
  | nil => simp [grantEntries]
  | cons raw rest ih =>
      simp only [grantEntries, List.forall_mem_cons]
      cases normalized : normalizeGrantEntry raw with
      | error error => simp
      | ok entry => simpa using ih _

theorem mem_acceptedPrefix {entries : List GrantEntry} {entry : NormalizedGrantEntry}
    (member : entry ∈ acceptedPrefix entries) :
    ∃ raw ∈ entries, normalizeGrantEntry raw = .ok entry := by
  induction entries with
  | nil => simp [acceptedPrefix] at member
  | cons raw rest ih =>
      simp only [acceptedPrefix] at member
      cases normalized : normalizeGrantEntry raw with
      | error error => simp [normalized] at member
      | ok first =>
          simp only [normalized, List.mem_cons] at member
          rcases member with rfl | later
          · exact ⟨raw, List.mem_cons_self, normalized⟩
          · rcases ih later with ⟨other, otherMem, otherNormalized⟩
            exact ⟨other, List.mem_cons_of_mem _ otherMem, otherNormalized⟩

theorem trimmed_of_mem_acceptedPrefix {entries : List GrantEntry} {entry : NormalizedGrantEntry}
    (member : entry ∈ acceptedPrefix entries) : entry.orgId.trim = entry.orgId := by
  rcases mem_acceptedPrefix member with ⟨raw, -, normalized⟩
  exact trimmed_of_normalized normalized

theorem grown_foldl {principalId : JsString} {draft : GrantDraft}
    (valid : DraftValid principalId draft) {entries : List NormalizedGrantEntry}
    (trimmed : ∀ entry ∈ entries, entry.orgId.trim = entry.orgId) :
    Grown principalId draft (entries.foldl (grantEntry principalId) draft) := by
  induction entries generalizing draft with
  | nil => exact Grown.refl valid
  | cons entry rest ih =>
      rw [List.forall_mem_cons] at trimmed
      have first := grown_grantEntry valid trimmed.1
      exact first.trans (ih first.valid trimmed.2)

theorem foldl_rows_unchanged_iff {principalId : JsString} {draft : GrantDraft}
    (valid : DraftValid principalId draft) {entries : List NormalizedGrantEntry}
    (trimmed : ∀ entry ∈ entries, entry.orgId.trim = entry.orgId) :
    (entries.foldl (grantEntry principalId) draft).rows = draft.rows ↔
      ∀ entry ∈ entries, Covered draft.rows entry := by
  induction entries with
  | nil => simp
  | cons entry rest ih =>
      rw [List.forall_mem_cons] at trimmed ⊢
      rcases grantEntry_covered_or_heavier valid entry with ⟨covered, kept⟩ | ⟨uncovered, heavier⟩
      · rw [List.foldl_cons, kept, ih trimmed.2]
        exact (and_iff_right covered).symm
      · constructor
        · intro unchanged
          -- The weight rose at this entry and never falls again.
          have first := (grown_grantEntry valid trimmed.1).valid
          have later := (grown_foldl first trimmed.2).heavier
          rw [List.foldl_cons] at unchanged
          rw [unchanged] at later
          exact absurd heavier (by omega)
        · rintro ⟨covered, -⟩
          exact absurd covered uncovered

theorem grown_grantEntries {principalId : JsString} {draft : GrantDraft}
    (valid : DraftValid principalId draft) (entries : List GrantEntry) :
    Grown principalId draft (grantEntries principalId draft entries).1 := by
  rw [grantEntries_draft]
  exact grown_foldl valid fun _ => trimmed_of_mem_acceptedPrefix

theorem scopeAt_foldl {principalId : JsString} {draft : GrantDraft}
    (valid : DraftValid principalId draft) {entries : List NormalizedGrantEntry}
    (trimmed : ∀ entry ∈ entries, entry.orgId.trim = entry.orgId) (orgId : JsString)
    (role : Role) :
    scopeAt (entries.foldl (grantEntry principalId) draft).rows orgId role =
      (entries.filter fun entry => entry.orgId = orgId ∧ entry.role = role).foldl
        (fun held entry => some (widen held entry.scope)) (scopeAt draft.rows orgId role) := by
  induction entries generalizing draft with
  | nil => rfl
  | cons entry rest ih =>
      rw [List.forall_mem_cons] at trimmed
      rw [List.foldl_cons, ih (valid.grantEntry trimmed.1) trimmed.2,
        scopeAt_grantEntry valid trimmed.1, List.filter_cons]
      split
      case isTrue same => simp [same]
      case isFalse different => simp [different]

theorem widen_widen (held : Option GrantScope) (first second : GrantScope) :
    widen (some (widen held first)) second = widen held (widen (some first) second) := by
  cases held with
  | none => rfl
  | some scope => cases scope <;> cases first <;> cases second <;> rfl

theorem foldl_widen (entries : List NormalizedGrantEntry) (held : Option GrantScope) :
    entries.foldl (fun held entry => some (widen held entry.scope)) held =
      match entries.foldl (fun held entry => some (widen held entry.scope)) none with
      | none => held
      | some scope => some (widen held scope) := by
  induction entries using List.reverseRecOn generalizing held with
  | nil => rfl
  | append_singleton rest entry ih =>
      simp only [List.foldl_append, List.foldl_cons, List.foldl_nil]
      rw [ih]
      cases rest.foldl (fun held entry => some (widen held entry.scope)) none with
      | none => rfl
      | some scope => simp only [widen_widen]

end StudentHub.Authz
