import StudentHub.Organizations.Transactions

/-!
# Deleted organizations stay unused

A deleted organization has no child that is not deleted, no contract that is not deleted, no
grant and no active store. Whoever adds one of these holds a lock on the organization up to
the commit, and a deletion holds the lock that conflicts with every other; so it is enough
that each writer finds the organization not deleted once it has its lock.
-/

namespace StudentHub.Organizations

open Ecma JsString Concurrency Process RelyPolicy

namespace PlatformTables

def IsUsed (tables : PlatformTables) (orgId : JsString) : Prop :=
  (∃ id row, tables.organization? id = some row ∧ row.parentOrgId = some orgId ∧
    tables.isDeleted id = false) ∨
  (∃ id row, tables.contracts.get? id = some row ∧ row.companyOrgId = orgId ∧
    row.status ≠ .deleted) ∨
  (∃ key scope, tables.authz.grants.get? key = some scope ∧ key.2.1 = orgId) ∨
  (∃ id row, tables.stores.get? id = some row ∧ row.orgId = orgId ∧ row.active = true)

def DeletedUnused (tables : PlatformTables) : Prop :=
  ∀ orgId, tables.isDeleted orgId = true → ¬ tables.IsUsed orgId

theorem not_isUsed_of_blockers {tables : PlatformTables} {orgId : JsString}
    (none : (organizationDeletionBlockers (tables.counts orgId)).isEmpty = true) :
    ¬ tables.IsUsed orgId := by
  simp only [organizationDeletionBlockers, List.isEmpty_iff, List.append_eq_nil_iff,
    ite_eq_right_iff, List.cons_ne_self, imp_false, Nat.not_lt, Nat.le_zero] at none
  obtain ⟨⟨⟨children, contracts⟩, grants⟩, stores⟩ := none
  simp only [PlatformTables.counts, liveChildren, List.length_eq_zero_iff,
    List.filter_eq_nil_iff, Prod.forall] at children contracts grants stores
  rintro (⟨id, row, found, child, live⟩ | ⟨id, row, found, company, live⟩ |
    ⟨key, scope, found, member⟩ | ⟨id, row, found, owner, live⟩)
  · exact children id row (OrderedMap.mem_entries_iff.mpr found) (by simp [child, live])
  · exact contracts id row (OrderedMap.mem_entries_iff.mpr found) (by simp [company, live])
  · obtain ⟨principal, org, role⟩ := key
    exact grants principal org role scope (OrderedMap.mem_entries_iff.mpr found)
      (by simpa using member)
  · exact stores id row (OrderedMap.mem_entries_iff.mpr found) (by simp [owner, live])

end PlatformTables

/-- Some lock on an organization is held. -/
def Holds (locks : Locks) (orgId : JsString) : Prop :=
  ∃ mode, (LockTarget.organization orgId, mode) ∈ locks

def HoldsRow (locks : Locks) (orgId : JsString) : Prop :=
  (LockTarget.organization orgId, RowLock.noKeyUpdate) ∈ locks ∨
    (LockTarget.organization orgId, RowLock.update) ∈ locks

structure OthersMay (locks : Locks) (before after : PlatformTables) : Prop where
  deleted : ∀ orgId, before.isDeleted orgId = true → after.isDeleted orgId = true
  undeleted : ∀ orgId, Holds locks orgId → after.isDeleted orgId = true →
    before.isDeleted orgId = true
  unused : ∀ orgId, (LockTarget.organization orgId, RowLock.update) ∈ locks →
    after.IsUsed orgId → before.IsUsed orgId
  rows : ∀ orgId, HoldsRow locks orgId →
    after.organization? orgId = before.organization? orgId
  grants : ∀ key, before.authz.grants.has key = true → after.authz.grants.has key = true

def deletionPolicy : RelyPolicy platformSchema where
  Good := PlatformTables.DeletedUnused
  Rely := OthersMay
  refl _ _ := ⟨fun _ => id, fun _ _ => id, fun _ _ => id, fun _ _ => rfl, fun _ => id⟩
  trans _ _ _ _ early late :=
    ⟨fun orgId isDeleted => late.deleted orgId (early.deleted orgId isDeleted),
      fun orgId held isDeleted =>
        early.undeleted orgId held (late.undeleted orgId held isDeleted),
      fun orgId held used => early.unused orgId held (late.unused orgId held used),
      fun orgId held => (late.rows orgId held).trans (early.rows orgId held),
      fun key has => late.grants key (early.grants key has)⟩

def HoldsLive (orgId : JsString) (locks : Locks) (tables : PlatformTables) : Prop :=
  Holds locks orgId ∧ tables.isDeleted orgId = false

theorem Holds.grow {locks : Locks} {orgId : JsString} (held : Holds locks orgId) (wanted : Locks) :
    Holds (wanted ++ locks) orgId := by
  obtain ⟨mode, lockMem⟩ := held
  exact ⟨mode, List.mem_append_right _ lockMem⟩

theorem HoldsRow.grow {locks : Locks} {orgId : JsString} (held : HoldsRow locks orgId)
    (wanted : Locks) : HoldsRow (wanted ++ locks) orgId := by
  rcases held with lockMem | lockMem
  · exact .inl (List.mem_append_right _ lockMem)
  · exact .inr (List.mem_append_right _ lockMem)

theorem stable_holdsLive (orgId : JsString) : deletionPolicy.Stable (HoldsLive orgId) where
  grow wanted _ _ known := ⟨known.1.grow wanted, known.2⟩
  rely _ _ later known rely := by
    refine ⟨known.1, ?_⟩
    cases isDeleted : later.isDeleted orgId with
    | false => rfl
    | true =>
        have before := rely.undeleted orgId known.1 isDeleted
        rw [known.2] at before
        exact absurd before (by simp)

/-- A change that adds to no organization but those held and not deleted, or adds nothing. -/
def Joins (locks : Locks) (tables : PlatformTables) : TableChange → Prop
  | .setOrganization row => HoldsRow locks row.id ∧ ∀ parent, row.parentOrgId = some parent →
      HoldsLive parent locks tables ∨ tables.isDeleted row.id = true ∨
        ∃ old, tables.organization? row.id = some old ∧ old.parentOrgId = some parent
  | .insertOrganization row => HoldsRow locks row.id ∧
      ∀ parent, row.parentOrgId = some parent → HoldsLive parent locks tables
  | .insertDeletion .. => False
  | .setContract _ row => HoldsLive row.companyOrgId locks tables
  | .setGrant key _ => HoldsLive key.2.1 locks tables ∨ tables.authz.grants.has key = true
  | .insertStore _ row => HoldsLive row.orgId locks tables
  | .appendAudit _ => True

def AllJoin (changes : List TableChange) (locks : Locks) (tables : PlatformTables) : Prop :=
  ∀ change ∈ changes, Joins locks tables change

theorem Joins.grow {locks : Locks} {tables : PlatformTables} {change : TableChange}
    (joins : Joins locks tables change) (wanted : Locks) :
    Joins (wanted ++ locks) tables change := by
  cases change with
  | setOrganization row =>
      refine ⟨joins.1.grow wanted, ?_⟩
      intro parent isParent
      rcases joins.2 parent isParent with live | rest
      · exact .inl ((stable_holdsLive parent).grow wanted _ _ live)
      · exact .inr rest
  | insertOrganization row =>
      exact ⟨joins.1.grow wanted, fun parent isParent =>
        (stable_holdsLive parent).grow wanted _ _ (joins.2 parent isParent)⟩
  | insertDeletion orgId receiptRef => exact joins
  | setContract id row => exact (stable_holdsLive _).grow wanted _ _ joins
  | setGrant key scope =>
      rcases joins with live | has
      · exact .inl ((stable_holdsLive _).grow wanted _ _ live)
      · exact .inr has
  | insertStore id row => exact (stable_holdsLive _).grow wanted _ _ joins
  | appendAudit entry => trivial

theorem Joins.of_rely {locks : Locks} {tables later : PlatformTables} {change : TableChange}
    (joins : Joins locks tables change) (rely : OthersMay locks tables later) :
    Joins locks later change := by
  cases change with
  | setOrganization row =>
      refine ⟨joins.1, ?_⟩
      intro parent isParent
      rcases joins.2 parent isParent with live | isDeleted | ⟨old, found, child⟩
      · exact .inl ((stable_holdsLive parent).rely _ _ _ live rely)
      · exact .inr (.inl (rely.deleted row.id isDeleted))
      · exact .inr (.inr ⟨old, (rely.rows row.id joins.1).trans found, child⟩)
  | insertOrganization row =>
      exact ⟨joins.1, fun parent isParent =>
        (stable_holdsLive parent).rely _ _ _ (joins.2 parent isParent) rely⟩
  | insertDeletion orgId receiptRef => exact joins
  | setContract id row => exact (stable_holdsLive _).rely _ _ _ joins rely
  | setGrant key scope =>
      rcases joins with live | has
      · exact .inl ((stable_holdsLive _).rely _ _ _ live rely)
      · exact .inr (rely.grants key has)
  | insertStore id row => exact (stable_holdsLive _).rely _ _ _ joins rely
  | appendAudit entry => trivial

theorem stable_allJoin (changes : List TableChange) : deletionPolicy.Stable (AllJoin changes) where
  grow wanted _ _ known := fun change changeMem => (known change changeMem).grow wanted
  rely _ _ _ known rely := fun change changeMem => (known change changeMem).of_rely rely

structure Joined (locks : Locks) (start now : PlatformTables) : Prop where
  deletions : now.deletions = start.deletions
  used : ∀ orgId, now.IsUsed orgId → start.IsUsed orgId ∨ HoldsLive orgId locks start
  rows : ∀ orgId, now.organization? orgId = start.organization? orgId ∨ HoldsRow locks orgId
  grants : ∀ key, start.authz.grants.has key = true → now.authz.grants.has key = true

theorem Joined.isDeleted {locks : Locks} {start now : PlatformTables}
    (joined : Joined locks start now) (orgId : JsString) :
    now.isDeleted orgId = start.isDeleted orgId := by
  unfold PlatformTables.isDeleted
  rw [joined.deletions]

theorem isSome_of_has {Key Value : Type} [DecidableEq Key] {map : OrderedMap Key Value} {key : Key}
    (has : map.has key = true) : ∃ value, map.get? key = some value :=
  Option.isSome_iff_exists.mp has

theorem Joined.setOrganization {locks : Locks} {start now : PlatformTables}
    (joined : Joined locks start now) {row : Authz.Organization} (held : HoldsRow locks row.id)
    (parents : ∀ parent, row.parentOrgId = some parent → start.isDeleted row.id = false →
      start.IsUsed parent ∨ HoldsLive parent locks start) :
    Joined locks start ((TableChange.setOrganization row).apply now) := by
  refine ⟨joined.deletions, ?_, ?_, joined.grants⟩
  · rintro orgId (⟨id, child, found, isChild, live⟩ | rest)
    · simp only [TableChange.apply, PlatformTables.organization?, OrderedMap.get?_set] at found
      split_ifs at found with isRow
      · subst isRow
        obtain rfl := Option.some.inj found
        apply parents orgId isChild
        rw [← joined.isDeleted]
        exact live
      · exact joined.used orgId (.inl ⟨id, child, found, isChild, live⟩)
    · exact joined.used orgId (.inr rest)
  · intro orgId
    simp only [TableChange.apply, PlatformTables.organization?, OrderedMap.get?_set]
    split_ifs with isRow
    · rw [isRow]
      exact .inr held
    · exact joined.rows orgId

theorem Joined.apply {locks : Locks} {start now : PlatformTables} (joined : Joined locks start now)
    {change : TableChange} (joins : Joins locks start change) :
    Joined locks start (change.apply now) := by
  cases change with
  | setOrganization row =>
      apply joined.setOrganization joins.1
      intro parent isParent live
      rcases joins.2 parent isParent with holdsLive | isDeleted | ⟨old, found, wasChild⟩
      · exact .inr holdsLive
      · rw [live] at isDeleted
        exact absurd isDeleted (by simp)
      · exact .inl (.inl ⟨row.id, old, found, wasChild, live⟩)
  | insertOrganization row =>
      apply joined.setOrganization joins.1
      intro parent isParent _
      exact .inr (joins.2 parent isParent)
  | insertDeletion orgId receiptRef => exact joins.elim
  | setContract id row =>
      refine ⟨joined.deletions, ?_, joined.rows, joined.grants⟩
      rintro orgId (child | ⟨other, found, isFound, company, live⟩ | rest)
      · exact joined.used orgId (.inl child)
      · simp only [TableChange.apply, OrderedMap.get?_set] at isFound
        split_ifs at isFound
        · obtain rfl := Option.some.inj isFound
          rw [← company]
          exact .inr joins
        · exact joined.used orgId (.inr (.inl ⟨other, found, isFound, company, live⟩))
      · exact joined.used orgId (.inr (.inr rest))
  | setGrant key scope =>
      refine ⟨joined.deletions, ?_, joined.rows, ?_⟩
      · rintro orgId (child | contract | ⟨other, found, isFound, member⟩ | rest)
        · exact joined.used orgId (.inl child)
        · exact joined.used orgId (.inr (.inl contract))
        · simp only [TableChange.apply, OrderedMap.get?_set] at isFound
          split_ifs at isFound with isKey
          · subst isKey
            rw [← member]
            rcases joins with live | has
            · exact .inr live
            · obtain ⟨held, heldFound⟩ := isSome_of_has has
              exact .inl (.inr (.inr (.inl ⟨other, held, heldFound, rfl⟩)))
          · exact joined.used orgId (.inr (.inr (.inl ⟨other, found, isFound, member⟩)))
        · exact joined.used orgId (.inr (.inr (.inr rest)))
      · intro other has
        simp only [TableChange.apply, OrderedMap.has, OrderedMap.get?_set]
        split_ifs
        · rfl
        · exact joined.grants other has
  | insertStore id row =>
      refine ⟨joined.deletions, ?_, joined.rows, joined.grants⟩
      rintro orgId (child | contract | grant | ⟨other, found, isFound, owner, live⟩)
      · exact joined.used orgId (.inl child)
      · exact joined.used orgId (.inr (.inl contract))
      · exact joined.used orgId (.inr (.inr (.inl grant)))
      · simp only [TableChange.apply, OrderedMap.get?_set] at isFound
        split_ifs at isFound
        · obtain rfl := Option.some.inj isFound
          rw [← owner]
          exact .inr joins
        · exact joined.used orgId (.inr (.inr (.inr ⟨other, found, isFound, owner, live⟩)))
  | appendAudit entry => exact ⟨joined.deletions, joined.used, joined.rows, joined.grants⟩

theorem joined_over {locks : Locks} {changes : List TableChange} {start now : PlatformTables}
    (joined : Joined locks start now) (joins : AllJoin changes locks start) :
    Joined locks start (platformSchema.over changes now) := by
  induction changes generalizing now with
  | nil => exact joined
  | cons change changes ih =>
      apply ih (joined.apply (joins change List.mem_cons_self))
      exact fun later laterMem => joins later (List.mem_cons_of_mem _ laterMem)

theorem conflicts_update {others locks : Locks} (compatible : Compatible others locks)
    {orgId : JsString} (held : (LockTarget.organization orgId, RowLock.update) ∈ others) :
    ¬ Holds locks orgId := by
  rintro ⟨mode, lockMem⟩
  have free := compatible _ _ _ held lockMem
  cases mode <;> exact absurd free (by decide)

theorem not_holdsRow_of_compatible {others locks : Locks} (compatible : Compatible others locks)
    {orgId : JsString} (held : HoldsRow others orgId) : ¬ HoldsRow locks orgId := by
  rintro (mine | mine) <;> rcases held with theirs | theirs <;>
    exact absurd (compatible _ _ _ theirs mine) (by decide)

theorem commits_of_allJoin {locks : Locks} {changes : List TableChange} {tables : PlatformTables}
    (good : tables.DeletedUnused) (joins : AllJoin changes locks tables) :
    deletionPolicy.Commits locks changes tables := by
  have joined : Joined locks tables (platformSchema.over changes tables) :=
    joined_over ⟨rfl, fun _ => .inl, fun _ => .inl rfl, fun _ => id⟩ joins
  refine ⟨?_, ?_⟩
  · intro orgId isDeleted used
    rw [joined.isDeleted] at isDeleted
    rcases joined.used orgId used with before | live
    · exact good orgId isDeleted before
    · rw [live.2] at isDeleted
      exact absurd isDeleted (by simp)
  · intro others compatible
    refine ⟨?_, ?_, ?_, ?_, joined.grants⟩
    · intro orgId isDeleted
      rwa [joined.isDeleted]
    · intro orgId _ isDeleted
      rwa [← joined.isDeleted]
    · intro orgId held used
      rcases joined.used orgId used with before | live
      · exact before
      · exact absurd live.1 (conflicts_update compatible held)
    · intro orgId held
      rcases joined.rows orgId with same | mine
      · exact same
      · exact absurd mine (not_holdsRow_of_compatible compatible held)

def HoldsUnused (orgId : JsString) (locks : Locks) (tables : PlatformTables) : Prop :=
  (LockTarget.organization orgId, RowLock.update) ∈ locks ∧ ¬ tables.IsUsed orgId

theorem stable_holdsUnused (orgId : JsString) : deletionPolicy.Stable (HoldsUnused orgId) where
  grow _ _ _ known := ⟨List.mem_append_right _ known.1, known.2⟩
  rely _ _ _ known rely := ⟨known.1, fun used => known.2 (rely.unused orgId known.1 used)⟩

theorem isUsed_of_insertDeletion {tables : PlatformTables} {deleted receiptRef orgId : JsString}
    (used : ((TableChange.insertDeletion deleted receiptRef).apply tables).IsUsed orgId) :
    tables.IsUsed orgId := by
  rcases used with ⟨id, row, found, child, live⟩ | rest
  · refine .inl ⟨id, row, found, child, ?_⟩
    simp only [PlatformTables.isDeleted, TableChange.apply, OrderedMap.has, OrderedMap.get?_set]
      at live ⊢
    split_ifs at live
    · exact absurd live (by simp)
    · exact live
  · exact .inr rest

theorem isDeleted_insertDeletion {tables : PlatformTables} {deleted receiptRef orgId : JsString} :
    ((TableChange.insertDeletion deleted receiptRef).apply tables).isDeleted orgId = true ↔
      orgId = deleted ∨ tables.isDeleted orgId = true := by
  simp only [PlatformTables.isDeleted, TableChange.apply, OrderedMap.has, OrderedMap.get?_set]
  split_ifs with same <;> simp [same]

theorem commits_of_holdsUnused {locks : Locks} {orgId receiptRef : JsString} {entry : MutationAudit}
    {tables : PlatformTables} (good : tables.DeletedUnused)
    (known : HoldsUnused orgId locks tables) :
    deletionPolicy.Commits locks [.insertDeletion orgId receiptRef, .appendAudit entry] tables := by
  refine ⟨?_, ?_⟩
  · intro other isDeleted used
    rcases isDeleted_insertDeletion.mp isDeleted with rfl | before
    · exact known.2 (isUsed_of_insertDeletion used)
    · exact good other before (isUsed_of_insertDeletion used)
  · intro others compatible
    refine ⟨?_, ?_, ?_, fun _ _ => rfl, fun _ => id⟩
    · intro other isDeleted
      exact isDeleted_insertDeletion.mpr (.inr isDeleted)
    · rintro other ⟨mode, theirs⟩ isDeleted
      rcases isDeleted_insertDeletion.mp isDeleted with rfl | before
      · have free := compatible _ _ _ theirs known.1
        cases mode <;> exact absurd free (by decide)
      · exact before
    · intro other _ used
      exact isUsed_of_insertDeletion used

/-- What `grantMany` and `upsertOrganization` are not to write: a grant of a deleted organization,
and an organization under a deleted one, unless it is deleted itself. -/
def Permits (change : TableChange) (seen : PlatformTables) : Prop :=
  match change with
  | .setOrganization row => ∀ parent, row.parentOrgId = some parent →
      seen.isDeleted parent = false ∨ seen.isDeleted row.id = true
  | .setGrant key _ => seen.isDeleted key.2.1 = false
  | _ => True

instance (change : TableChange) (seen : PlatformTables) : Decidable (Permits change seen) :=
  match change with
  | .setOrganization row => inferInstanceAs (Decidable (∀ parent ∈ row.parentOrgId,
      seen.isDeleted parent = false ∨ seen.isDeleted row.id = true))
  | .setGrant key _ => inferInstanceAs (Decidable (seen.isDeleted key.2.1 = false))
  | .insertOrganization .. | .insertDeletion .. | .setContract .. | .insertStore .. | .appendAudit _ =>
      .isTrue trivial

abbrev GuardedBy {Value : Type} (program : Transaction Value) (locks : Locks)
    (changes : List TableChange) (tables : PlatformTables) : Prop :=
  deletionPolicy.Guarded Permits program locks changes tables

section Rules

variable {Value Value' : Type} {locks : Locks} {changes : List TableChange} {tables : PlatformTables}
  {orgId : JsString}

theorem guarded_require {check : Bool} {error : TransactionError}
    {rest : Unit → Transaction Value}
    (continues : check = true → GuardedBy (rest ()) locks changes tables) :
    GuardedBy ((require check error).bind rest) locks changes tables := by
  unfold require
  split
  · rename_i holds
    exact continues holds
  · trivial

theorem guarded_fromOption {found : Option Value'} {error : TransactionError}
    {rest : Value' → Transaction Value}
    (continues : ∀ value, found = some value → GuardedBy (rest value) locks changes tables) :
    GuardedBy ((fromOption found error).bind rest) locks changes tables := by
  cases found with
  | none => trivial
  | some value => exact continues value rfl

theorem guarded_ask {op : PlatformOp} {rest : op.Answer → Transaction Value}
    (continues : ∀ answer, GuardedBy (rest answer) locks changes tables) :
    GuardedBy ((ask op).bind rest) locks changes tables :=
  guarded_own continues

theorem guarded_select {fact : Locks → PlatformTables → Prop} (stable : deletionPolicy.Stable fact)
    (known : fact locks tables) {demand : PlatformTables → Option Locks}
    {rest : PlatformTables → Transaction Value}
    (continues : ∀ later wanted, later.DeletedUnused →
      demand (platformSchema.over changes later) = some wanted → fact (wanted ++ locks) later →
      GuardedBy (rest (platformSchema.over changes later)) (wanted ++ locks) changes later) :
    GuardedBy ((statement demand fun _ => []).bind rest) locks changes tables :=
  guarded_keep stable known continues

theorem guarded_skip {fact : Locks → PlatformTables → Prop} (stable : deletionPolicy.Stable fact)
    (known : fact locks tables) {demand : PlatformTables → Option Locks}
    {rest : PlatformTables → Transaction Value}
    (continues : ∀ seen more later, fact more later → GuardedBy (rest seen) more changes later) :
    GuardedBy ((statement demand fun _ => []).bind rest) locks changes tables :=
  guarded_select stable known fun later wanted _ _ kept => continues _ (wanted ++ locks) later kept

theorem stable_true : deletionPolicy.Stable fun _ _ => True :=
  ⟨fun _ _ _ _ => trivial, fun _ _ _ _ _ => trivial⟩

theorem guarded_grantsAndAncestors {fact : Locks → PlatformTables → Prop}
    (stable : deletionPolicy.Stable fact) (known : fact locks tables) {principalId : JsString}
    {rest : List GrantRow × List JsString → Transaction Value}
    (continues : ∀ found more later, fact more later → GuardedBy (rest found) more changes later) :
    GuardedBy ((grantsAndAncestors principalId orgId).bind rest) locks changes tables := by
  simp only [grantsAndAncestors, bind_eq_bind, pure_eq_returned, bind_assoc, bind_returned]
  apply guarded_skip stable known
  intro locked more later kept
  apply guarded_skip stable kept
  intro seen more later kept
  exact continues _ more later kept

theorem guarded_organizationLive {error : TransactionError} {rest : Unit → Transaction Value}
    (continues : ∀ more later, HoldsLive orgId more later → GuardedBy (rest ()) more [] later) :
    GuardedBy ((organizationLive orgId).bind fun live => (require live error).bind rest) locks []
      tables := by
  simp only [organizationLive, bind_eq_bind, pure_eq_returned, bind_assoc]
  apply guarded_select stable_true trivial
  intro later wanted _ demanded _
  change GuardedBy (Process.bind (if later.authz.organizations.has orgId = true then _ else _) _)
    (wanted ++ locks) [] later
  split
  · rename_i has
    have held : Holds (wanted ++ locks) orgId := by
      refine ⟨.share, List.mem_append_left _ ?_⟩
      rw [← Option.some.inj demanded]
      exact List.mem_map_of_mem (List.mem_filter.mpr ⟨List.mem_singleton.mpr rfl, has⟩)
    simp only [bind_assoc, bind_returned]
    apply guarded_select
      (⟨fun more _ _ held => held.grow more, fun _ _ _ held _ => held⟩ :
        deletionPolicy.Stable fun locks _ => Holds locks orgId) held
    intro last more _ _ held
    apply guarded_require
    intro live
    exact continues _ last ⟨held, by simpa [LockSchema.over] using live⟩
  · simp only [bind_returned]
    apply guarded_require
    intro absent
    exact absurd absent (by simp)

theorem guarded_end {value : Value} (joins : AllJoin changes locks tables) :
    GuardedBy (returned value) locks changes tables :=
  guarded_returned fun _ rely good =>
    commits_of_allJoin good ((stable_allJoin changes).rely _ _ _ joins rely)

theorem guarded_insertAudit {entry : MutationAudit} {rest : PlatformTables → Transaction Value}
    (joins : AllJoin changes locks tables)
    (continues : ∀ seen more later audited, AllJoin audited more later →
      GuardedBy (rest seen) more audited later) :
    GuardedBy ((insertAudit entry).bind rest) locks changes tables := by
  apply guarded_write
  intro later wanted rely _ _ _
  apply continues
  intro change changeMem
  rcases List.mem_append.mp changeMem with old | new
  · exact (stable_allJoin changes).grow wanted _ _
      ((stable_allJoin changes).rely _ _ _ joins rely) change old
  · rw [List.mem_singleton.mp new]
    trivial

theorem guarded_insert {demand : PlatformTables → Option Locks} {change : TableChange}
    {rest : PlatformTables → Transaction Value} (live : HoldsLive orgId locks tables)
    (joins : ∀ later wanted, demand later = some wanted → HoldsLive orgId (wanted ++ locks) later →
      Joins (wanted ++ locks) later change)
    (continues : ∀ seen more later, AllJoin [change] more later →
      GuardedBy (rest seen) more [change] later) :
    GuardedBy ((statement demand fun _ => [change]).bind rest) locks [] tables := by
  apply guarded_write
  intro later wanted rely _ demanded _
  apply continues
  intro made madeMem
  rw [List.mem_singleton.mp madeMem]
  exact joins later wanted demanded ((stable_holdsLive orgId).grow _ _ _
    ((stable_holdsLive orgId).rely _ _ _ live rely))

end Rules

section Programs

variable (host : PlatformHost)

theorem safe_commitDeletion (principalId orgId : JsString) (input : SafeWrite.CommitInput) :
    deletionPolicy.Safe Permits (commitDeletion host principalId orgId input) := by
  intro tables good
  simp only [commitDeletion, bind_eq_bind, pure_eq_returned]
  apply guarded_require
  intro _
  apply guarded_skip stable_true trivial
  intro _ _ _ _
  -- The row lock; the facts that it is held, if there is the row, and later that nothing is used.
  apply guarded_select stable_true trivial
  intro later wanted _ demanded _
  apply guarded_require
  intro has
  have held : (LockTarget.organization orgId, RowLock.update) ∈ wanted := by
    rw [← Option.some.inj demanded]
    exact List.mem_map_of_mem (List.mem_filter.mpr ⟨List.mem_singleton.mpr rfl, has⟩)
  have stable : deletionPolicy.Stable fun locks _ =>
      (LockTarget.organization orgId, RowLock.update) ∈ locks :=
    ⟨fun more _ _ held => List.mem_append_right more held, fun _ _ _ held _ => held⟩
  apply guarded_fromOption
  intro orgRef _
  apply guarded_skip stable (List.mem_append_left _ held)
  intro _ _ _ held
  apply guarded_require
  intro _
  apply guarded_skip stable held
  intro _ _ _ held
  apply guarded_require
  intro _
  apply guarded_grantsAndAncestors stable held
  intro _ _ _ held
  apply guarded_require
  intro _
  apply guarded_skip stable held
  intro _ _ _ held
  apply guarded_require
  intro _
  apply guarded_require
  intro _
  apply guarded_select stable held
  intro seen more _ _ held
  apply guarded_require
  intro none
  have unused : HoldsUnused orgId _ seen :=
    ⟨held, PlatformTables.not_isUsed_of_blockers none⟩
  apply guarded_write
  intro later more rely _ _ _
  have unused := (stable_holdsUnused orgId).grow more _ _
    ((stable_holdsUnused orgId).rely _ _ _ unused rely)
  apply guarded_write
  intro last more rely _ _ _
  have unused := (stable_holdsUnused orgId).grow more _ _
    ((stable_holdsUnused orgId).rely _ _ _ unused rely)
  apply guarded_returned
  intro final rely good
  exact commits_of_holdsUnused good ((stable_holdsUnused orgId).rely _ _ _ unused rely)

theorem safe_createStore (principalId orgId : JsString) (input : StoreInput) :
    deletionPolicy.Safe Permits (createStore host principalId orgId input) := by
  intro tables good
  simp only [createStore, bind_eq_bind, pure_eq_returned]
  apply guarded_skip stable_true trivial
  intro _ locks later _
  apply guarded_organizationLive
  intro _ _ live
  apply guarded_grantsAndAncestors (stable_holdsLive orgId) live
  intro _ _ _ live
  apply guarded_require
  intro _
  apply guarded_ask
  intro refused
  apply guarded_require
  intro _
  apply guarded_ask
  intro storeId
  apply guarded_fromOption
  intro actor _
  apply guarded_insert live
  · intro _ _ _ live
    exact live
  · intro _ _ _ joins
    apply guarded_fromOption
    intro orgRef _
    apply guarded_insertAudit joins
    intro _ _ _ _ joins
    exact guarded_end joins

theorem safe_createOrganization (principalId parentId name : JsString) :
    deletionPolicy.Safe Permits (createOrganization host principalId parentId name) := by
  intro tables good
  simp only [createOrganization, bind_eq_bind, pure_eq_returned]
  apply guarded_skip stable_true trivial
  intro _ locks later _
  apply guarded_organizationLive
  intro _ _ live
  apply guarded_grantsAndAncestors (stable_holdsLive parentId) live
  intro _ _ _ live
  apply guarded_require
  intro _
  apply guarded_skip (stable_holdsLive parentId) live
  intro _ _ _ live
  apply guarded_fromOption
  intro parent _
  apply guarded_require
  intro _
  apply guarded_skip (stable_holdsLive parentId) live
  intro _ _ _ live
  apply guarded_require
  intro _
  apply guarded_ask
  intro orgId
  apply guarded_insert live
  · intro later wanted demanded live
    split at demanded
    · exact absurd demanded (by simp)
    · obtain ⟨locks, -, rfl⟩ := Option.map_eq_some_iff.mp demanded
      refine ⟨.inr (List.mem_append_left _ List.mem_cons_self), ?_⟩
      intro parent isParent
      rw [← Option.some.inj isParent]
      exact live
  · intro _ _ _ joins
    apply guarded_fromOption
    intro actor _
    apply guarded_fromOption
    intro orgRef _
    apply guarded_insertAudit joins
    intro _ _ _ _ joins
    exact guarded_end joins

theorem guarded_createWork {Value : Type} {companyId actorId now : JsString}
    {fields : Pay.NormalizedPayContractCreate} (ofCompany : fields.companyId = companyId)
    {rest : Pay.PayContract → Transaction Value} {locks : Locks} {tables : PlatformTables}
    (live : HoldsLive companyId locks tables)
    (continues : ∀ contract more later changes, AllJoin changes more later →
      GuardedBy (rest contract) more changes later) :
    GuardedBy ((contractWork host (Pay.PayContracts.createWork actorId fields now)).bind rest) locks
      [] tables := by
  have stable := stable_holdsLive companyId
  simp only [Pay.PayContracts.createWork, bind_eq_bind, bind_call, pure_eq_returned, contractWork,
    contractStatements, bind_assoc]
  apply guarded_skip stable live
  intro _ _ _ live
  apply guarded_skip stable live
  intro seen _ _ live
  split
  · rename_i existing _
    simp only [bind_returned]
    apply guarded_ask
    intro id
    cases Pay.assertNoOverlap existing id fields.dates with
    | error error => trivial
    | ok checked =>
        simp only [ofExcept_ok, bind_returned, contractWork, contractStatements, bind_eq_bind,
          pure_eq_returned, bind_assoc]
        apply guarded_insert live
        · intro _ _ _ live
          change HoldsLive (Pay.values (Pay.PayContracts.created id fields now)).companyOrgId _ _
          have company : (Pay.values (Pay.PayContracts.created id fields now)).companyOrgId =
              companyId := by
            rw [← ofCompany]
            simp only [Pay.values, Pay.withTerms]
            split <;> rfl
          rw [company]
          exact live
        · intro _ _ _ joins
          apply guarded_fromOption
          intro _ _
          apply guarded_fromOption
          intro _ _
          apply guarded_insertAudit joins
          intro _ more later audited joins
          exact continues _ more later audited joins
  · trivial

theorem safe_commitContract (principalId companyId : JsString) (input : SafeWrite.CommitInput) :
    deletionPolicy.Safe Permits (commitContract host principalId companyId input) := by
  intro tables good
  have stable := stable_holdsLive companyId
  simp only [commitContract, bind_eq_bind, pure_eq_returned]
  apply guarded_require
  intro _
  apply guarded_skip stable_true trivial
  intro _ locks later _
  apply guarded_organizationLive
  intro _ _ live
  apply guarded_grantsAndAncestors stable live
  intro _ _ _ live
  apply guarded_require
  intro _
  apply guarded_skip stable live
  intro _ _ _ live
  apply guarded_require
  intro _
  apply guarded_require
  intro _
  simp only [createContract, bind_eq_bind, pure_eq_returned]
  cases host.parseContract input.value with
  | error error => trivial
  | ok fields =>
      simp only [bind_returned, bind_assoc]
      apply guarded_require
      intro ofCompany
      apply guarded_require
      intro _
      apply guarded_ask
      intro resolved
      apply guarded_require
      intro _
      apply guarded_ask
      intro date
      cases Pay.isoText date with
      | error error => trivial
      | ok now =>
          simp only [bind_assoc, bind_returned]
          apply guarded_createWork host (by simpa using ofCompany) live
          intro _ _ _ _ joins
          apply guarded_fromOption
          intro orgRef _
          apply guarded_insertAudit joins
          intro _ _ _ _ joins
          exact guarded_end joins

/-! A grant is new for the committed tables, or the transaction has added it before. -/

theorem has_of_has_over {changes : List TableChange} {tables : PlatformTables}
    {key : Authz.GrantKey}
    (has : (platformSchema.over changes tables).authz.grants.has key = true) :
    tables.authz.grants.has key = true ∨ ∃ scope, TableChange.setGrant key scope ∈ changes := by
  induction changes generalizing tables with
  | nil => exact .inl has
  | cons change changes ih =>
      rcases ih has with before | ⟨scope, changeMem⟩
      · cases change with
        | setGrant other scope =>
            simp only [TableChange.apply, OrderedMap.has, OrderedMap.get?_set] at before
            split_ifs at before with same
            · rw [same]
              exact .inr ⟨scope, List.mem_cons_self⟩
            · exact .inl before
        | insertOrganization row => exact .inl before
        | setOrganization row => exact .inl before
        | insertDeletion orgId receiptRef => exact .inl before
        | setContract id row => exact .inl before
        | insertStore id row => exact .inl before
        | appendAudit entry => exact .inl before
      · exact .inr ⟨scope, List.mem_cons_of_mem _ changeMem⟩

theorem isDeleted_over {changes : List TableChange} {locks : Locks} {tables : PlatformTables}
    (joins : AllJoin changes locks tables) (orgId : JsString) :
    (platformSchema.over changes tables).isDeleted orgId = tables.isDeleted orgId :=
  (joined_over ⟨rfl, fun _ => .inl, fun _ => .inl rfl, fun _ => id⟩ joins).isDeleted orgId

theorem guarded_upsertGrant {Value : Type} {principalId : JsString}
    {entry : Authz.NormalizedGrantEntry} {rest : PlatformTables → Transaction Value} {locks : Locks}
    {changes : List TableChange} {tables : PlatformTables} (joins : AllJoin changes locks tables)
    (continues : ∀ seen more later granted, AllJoin granted more later →
      GuardedBy (rest seen) more granted later) :
    GuardedBy ((upsertGrant principalId entry).bind rest) locks changes tables := by
  apply guarded_write
  intro later wanted rely _ demanded permitted
  have kept := (stable_allJoin changes).rely _ _ _ joins rely
  apply continues
  intro change changeMem
  rcases List.mem_append.mp changeMem with old | new
  · exact ((stable_allJoin changes).grow wanted _ _ kept) change old
  · have live := permitted change new
    split at new
    · rename_i held found
      -- The grant is there: for the others too, or as an earlier change.
      have isGrant : change = .setGrant (principalId, entry.orgId, entry.role)
          (Authz.PostgresAuthzStore.conflictScope held entry.scope) := by
        simp only at new
        split at new
        · exact absurd new (by simp)
        · exact List.mem_singleton.mp new
      rw [isGrant]
      rcases has_of_has_over (Option.isSome_iff_exists.mpr ⟨_, found⟩) with has | ⟨scope, added⟩
      · exact .inr has
      · have earlier := (stable_allJoin changes).grow wanted _ _ kept _ added
        exact earlier
    · rename_i found
      have isGrant := List.mem_singleton.mp new
      rw [isGrant] at live ⊢
      rw [found] at demanded
      simp only at demanded
      split at demanded
      · exact absurd demanded (by simp)
      · obtain ⟨fk, isFk, rfl⟩ := Option.map_eq_some_iff.mp demanded
        refine .inl ⟨⟨.keyShare, ?_⟩, ?_⟩
        · unfold PlatformTables.foreignKey at isFk
          split at isFk
          · rw [← Option.some.inj isFk]
            simp
          · exact absurd isFk (by simp)
        · rw [← isDeleted_over kept]
          exact live

theorem guarded_upsertGrants {Value : Type} {principalId : JsString}
    {entries : List Authz.NormalizedGrantEntry} {rest : Bool → Transaction Value} {locks : Locks}
    {changes : List TableChange} {tables : PlatformTables} (joins : AllJoin changes locks tables)
    (continues : ∀ changed more later granted, AllJoin granted more later →
      GuardedBy (rest changed) more granted later) :
    GuardedBy ((upsertGrants principalId entries).bind rest) locks changes tables := by
  induction entries generalizing rest locks changes tables with
  | nil => exact continues false locks tables changes joins
  | cons entry entries ih =>
      simp only [upsertGrants, bind_eq_bind, pure_eq_returned, bind_assoc]
      apply guarded_upsertGrant joins
      intro _ _ _ _ joins
      apply ih joins
      intro _ _ _ _ joins
      exact continues _ _ _ _ joins

theorem safe_grantMany (principalId : JsString) (entries : List Authz.GrantEntry)
    (actor : JsString) : deletionPolicy.Safe Permits (grantMany host principalId entries actor) := by
  intro tables good
  unfold grantMany
  split
  · trivial
  · simp only [bind_eq_bind, pure_eq_returned]
    have none : AllJoin [] [] tables := fun _ => nofun
    apply guarded_skip (stable_allJoin []) none
    intro _ _ _ none
    apply guarded_skip (stable_allJoin []) none
    intro _ _ _ none
    apply guarded_upsertGrants none
    intro changed _ _ granted joins
    split
    · apply guarded_fromOption
      intro orgRefs _
      apply guarded_skip (stable_allJoin granted) joins
      intro _ _ _ joins
      apply guarded_insertAudit joins
      intro _ _ _ _ joins
      exact guarded_end joins
    · exact guarded_end joins

theorem safe_upsertOrganization (org : Authz.Organization) :
    deletionPolicy.Safe Permits (upsertOrganization host org) := by
  intro tables good
  simp only [upsertOrganization, bind_eq_bind, pure_eq_returned]
  apply guarded_skip stable_true trivial
  intro _ _ _ _
  apply guarded_skip stable_true trivial
  intro _ _ _ _
  apply guarded_require
  intro _
  cases isParent : org.parentOrgId with
  | none =>
      apply guarded_write
      intro later wanted _ _ demanded _
      apply guarded_end
      intro change changeMem
      rw [List.mem_singleton.mp changeMem]
      refine ⟨.inr ?_, ?_⟩
      · rw [← Option.some.inj demanded]
        exact List.mem_append_left _ List.mem_cons_self
      · intro parent isSome
        rw [isParent] at isSome
        exact absurd isSome (by simp)
  | some parent =>
      apply guarded_skip stable_true trivial
      intro _ more _ _
      apply guarded_require
      intro _
      apply guarded_write
      intro later wanted _ _ demanded permitted
      have permitted := permitted _ (List.mem_singleton.mpr rfl) parent isParent
      apply guarded_end
      intro change changeMem
      rw [List.mem_singleton.mp changeMem]
      have onlyParent : ∀ other, org.parentOrgId = some other → other = parent := by
        intro other isOther
        exact Option.some.inj (isOther.symm.trans isParent)
      -- A new row and a new parent are held by the foreign key's lock.
      have byForeignKey : ∀ mode fk, mode = RowLock.noKeyUpdate ∨ mode = RowLock.update →
          later.foreignKey parent = some fk → wanted = (.organization org.id, mode) :: fk →
          Joins (wanted ++ more) later (.setOrganization org) := by
        rintro mode fk isMode isFk rfl
        refine ⟨?_, ?_⟩
        · rcases isMode with rfl | rfl
          · exact .inl (List.mem_append_left _ List.mem_cons_self)
          · exact .inr (List.mem_append_left _ List.mem_cons_self)
        · intro other isOther
          rw [onlyParent other isOther]
          rcases permitted with live | isDeleted
          · refine .inl ⟨⟨.keyShare, List.mem_append_left _ (List.mem_cons_of_mem _ ?_)⟩, live⟩
            unfold PlatformTables.foreignKey at isFk
            split at isFk
            · rw [← Option.some.inj isFk]
              exact List.mem_singleton.mpr rfl
            · exact absurd isFk (by simp)
          · exact .inr (.inl isDeleted)
      beta_reduce at demanded
      split at demanded
      · rename_i old found
        split at demanded
        · rename_i sameParent
          refine ⟨.inl ?_, ?_⟩
          · rw [← Option.some.inj demanded]
            exact List.mem_append_left _ List.mem_cons_self
          · intro other isOther
            rw [onlyParent other isOther]
            exact .inr (.inr ⟨old, found, sameParent⟩)
        · obtain ⟨fk, isFk, isWanted⟩ := Option.map_eq_some_iff.mp demanded
          exact byForeignKey .noKeyUpdate fk (.inl rfl) isFk isWanted.symm
      · obtain ⟨fk, isFk, isWanted⟩ := Option.map_eq_some_iff.mp demanded
        exact byForeignKey .update fk (.inr rfl) isFk isWanted.symm

theorem safe_transaction (call : PlatformCall) :
    deletionPolicy.Safe Permits (call.transaction host) := by
  cases call with
  | commitDeletion principalId orgId input => exact safe_commitDeletion host principalId orgId input
  | createStore principalId orgId input => exact safe_createStore host principalId orgId input
  | createOrganization principalId parentId name =>
      exact safe_createOrganization host principalId parentId name
  | commitContract principalId companyId input =>
      exact safe_commitContract host principalId companyId input
  | grantMany principalId entries actor => exact safe_grantMany host principalId entries actor
  | upsertOrganization org => exact safe_upsertOrganization host org

end Programs

abbrev PlatformEvent := LockEvent platformSchema TransactionError TransactionResult

def PlatformEvent.Starts (host : PlatformHost) : PlatformEvent → Prop
  | .start _ program => ∃ call : PlatformCall, program = call.transaction host
  | .step .. | .fail _ => True

/-- The tables that a run commits, from tables that no transaction is open on. -/
def committedTables (tables : PlatformTables) (events : List PlatformEvent) : PlatformTables :=
  (LockDatabase.run ⟨tables, .empty⟩ events).tables

/-- In every run in which nothing is granted in a deleted organization or moved under one, what
is committed leaves no deleted organization used. -/
theorem deleted_stay_unused (host : PlatformHost) {tables : PlatformTables}
    {events : List PlatformEvent} (unused : tables.DeletedUnused)
    (starts : ∀ event ∈ events, event.Starts host)
    (permitted : LockDatabase.PermittedRun Permits
      (⟨tables, .empty⟩ : LockDatabase platformSchema TransactionError TransactionResult) events) :
    (committedTables tables events).DeletedUnused := by
  apply deletionPolicy.good_run unused RowLock.conflicts_comm permitted
  intro number program startMem
  obtain ⟨call, rfl⟩ := starts _ startMem
  exact safe_transaction host call

/-! An organization `o` under the root, its admin and a member to be. -/

def plainHost : PlatformHost where
  hash text seed := seed + text.length
  hashText text := text.length
  lower := id
  tokenRef token := token.getD []
  organizationAuditRef := some
  principalAuditRef := some
  principalRef := id
  recordRef := id
  deletionDecision grants _ ancestors :=
    grants.any fun grant => grant.role = .admin && ancestors.contains grant.orgId
  storeDecision grants _ ancestors :=
    grants.any fun grant => grant.role = .admin && ancestors.contains grant.orgId
  creationDecision grants _ ancestors :=
    grants.any fun grant => grant.role = .admin && ancestors.contains grant.orgId
  parentAllowed _ _ := true
  contractDecision grants _ ancestors :=
    grants.any fun grant => grant.role = .admin && ancestors.contains grant.orgId
  parseContract _ := .error (.error (js "a"))

def ownedTables : PlatformTables where
  authz :=
    { organizations := .ofList [(js "root", ⟨js "root", js "r", none⟩),
        (js "o", ⟨js "o", js "n", some (js "root")⟩), (js "q", ⟨js "q", js "m", some (js "root")⟩)]
      principals := .ofList [(js "a", ⟨none, none⟩), (js "b", ⟨none, none⟩)]
      principalPbuuids := .empty
      grants := .ofList [((js "a", js "root", .admin), .subtree)] }
  deletions := .empty
  contracts := .empty
  stores := .empty
  audit := []

def deletionInput : SafeWrite.CommitInput where
  personRef := js "o"
  principalRef := js "a"
  tokenId := some (js "t")
  field := js "deletion"
  expectedBefore := none
  value := js "deleted"
  changeSetDigest := js "d"
  receipt := ⟨js "1", js "r", js "o", js "a", js "d", [js "deletion"], js "c"⟩

def platformAnswers : (op : PlatformOp) → op.Answer
  | .randomUUID => js "u"
  | .now => Ecma.timeClip 0
  | .resolve _ => .resolved (some .active)
  | .referenceRefused .. => false

def afterWaiting (first second : PlatformCall) : List PlatformEvent :=
  [.start 1 (first.transaction plainHost), .start 2 (second.transaction plainHost)] ++
    List.replicate 4 (.step 1 platformAnswers) ++ List.replicate 4 (.step 2 platformAnswers) ++
    List.replicate 12 (.step 1 platformAnswers) ++ List.replicate 12 (.step 2 platformAnswers)

def deleteOwned : PlatformCall := .commitDeletion (js "a") (js "o") deletionInput

def grantOwned : PlatformCall :=
  .grantMany (js "b") [⟨js "o", js "staff", some (js "self")⟩] (js "a")

def moveUnderOwned : PlatformCall := .upsertOrganization ⟨js "q", js "m", some (js "o")⟩

def storeOwned : PlatformCall :=
  .createStore (js "a") (js "o") ⟨js "s", none, none, none⟩

theorem starts_afterWaiting (first second : PlatformCall) :
    ∀ event ∈ afterWaiting first second, event.Starts plainHost := by
  intro event eventMem
  simp only [afterWaiting, List.mem_append, List.mem_cons, List.not_mem_nil, or_false,
    List.mem_replicate] at eventMem
  rcases eventMem with (((isStart | isStep) | isStep) | isStep) | isStep
  · rcases isStart with rfl | rfl
    · exact ⟨first, rfl⟩
    · exact ⟨second, rfl⟩
  all_goals
    rw [isStep.2]
    trivial

theorem unused_ownedTables : ownedTables.DeletedUnused := fun _ => nofun

/-- The store is created first, so the deletion finds it and is refused; and the deletion is
committed first, so the store is refused. -/
theorem deleted_stay_unused_race :
    (committedTables ownedTables (afterWaiting storeOwned deleteOwned)).DeletedUnused ∧
      (committedTables ownedTables (afterWaiting storeOwned deleteOwned)).stores.size = 1 ∧
      (committedTables ownedTables (afterWaiting deleteOwned storeOwned)).DeletedUnused ∧
      (committedTables ownedTables (afterWaiting deleteOwned storeOwned)).isDeleted (js "o") =
        true := by
  refine ⟨?_, by decide +kernel, ?_, by decide +kernel⟩
  · exact deleted_stay_unused plainHost unused_ownedTables (starts_afterWaiting _ _)
      (by decide +kernel)
  · exact deleted_stay_unused plainHost unused_ownedTables (starts_afterWaiting _ _)
      (by decide +kernel)

/-- Both wait for the deletion, neither looks whether it was committed: a member is granted in
the deleted organization, and a live organization is moved under it. -/
theorem deleted_organizations_used :
    ¬ (∀ (tables : PlatformTables) (events : List PlatformEvent), tables.DeletedUnused →
      (∀ event ∈ events, event.Starts plainHost) → (committedTables tables events).DeletedUnused) ∧
    ¬ (committedTables ownedTables (afterWaiting deleteOwned grantOwned)).DeletedUnused ∧
    ¬ (committedTables ownedTables (afterWaiting deleteOwned moveUnderOwned)).DeletedUnused := by
  have granted : ¬ (committedTables ownedTables (afterWaiting deleteOwned grantOwned)).DeletedUnused := by
    intro unused
    have isGranted : (committedTables ownedTables
        (afterWaiting deleteOwned grantOwned)).authz.grants.get? (js "b", js "o", .staff) =
          some .self := by decide +kernel
    exact unused (js "o") (by decide +kernel) (.inr (.inr (.inl ⟨_, _, isGranted, rfl⟩)))
  refine ⟨?_, granted, ?_⟩
  · intro always
    exact granted (always ownedTables _ unused_ownedTables (starts_afterWaiting _ _))
  · intro unused
    have isMoved : (committedTables ownedTables
        (afterWaiting deleteOwned moveUnderOwned)).organization? (js "q") =
          some ⟨js "q", js "m", some (js "o")⟩ := by decide +kernel
    exact unused (js "o") (by decide +kernel)
      (.inl ⟨_, _, isMoved, rfl, by decide +kernel⟩)

end StudentHub.Organizations
