import StudentHub.Ecma.Buffer
import StudentHub.Ecma.Date
import StudentHub.Ecma.OrderedMap
import StudentHub.Graph.Links
import StudentHub.Order.Pages
import StudentHub.Sql.Recursive

/-!
# The inbox of a principal

A notification is shown while its organization lives and a grant of the recipient covers it. The
number on the bell is counted by one recursive query; a page is rendered by walking up the parents
that were loaded for it.
-/

namespace StudentHub.Notifications.Inbox

open Ecma JsString Relation

inductive Status
  | active
  | underReview
  | inactive
  | none
  deriving DecidableEq

inductive GrantScope
  | self
  | subtree
  deriving DecidableEq

structure Organization where
  id : JsString
  name : JsString
  parentOrgId : Option JsString
  deriving DecidableEq

structure RoleGrant where
  principalId : JsString
  orgId : JsString
  scope : GrantScope

/-- `micros` are the microseconds of `created_at` below its millisecond. -/
structure Notification where
  id : JsString
  recipientPrincipalId : JsString
  subjectReference : JsString
  status : Status
  createdAt : Instant
  micros : ℕ
  readAt : Option Instant

/-- The tables, with their keys. Every organization is made with a name for its id. -/
structure Tables where
  organizations : List Organization
  deletions : List JsString
  grants : List RoleGrant
  notifications : List Notification
  organizationKeys : (organizations.map Organization.id).Nodup
  notificationKeys : (notifications.map Notification.id).Nodup
  named : ∀ org ∈ organizations, org.parentOrgId ≠ some []

/-- `substring(text from start)` -/
def substringFrom (start : ℕ) (text : JsString) : JsString := text.drop (start - 1)

/-- `ORDER BY created_at DESC,id DESC` -/
def newestFirst : Comparator Notification :=
  (((Comparator.ofOrder ℤ).onKey fun row : Notification =>
      row.createdAt.time * 1000 + row.micros).reverse).orElse
    (codeUnitOrder.onKey Notification.id).reverse

namespace Tables

variable (tables : Tables) (recipient : JsString)

def inbox : List Notification :=
  newestFirst.sort (tables.notifications.filter fun row => row.recipientPrincipalId = recipient)

def listRows (limit offset : ℕ) : List Notification :=
  ((tables.inbox recipient).drop offset).take limit

/-- A row of `candidates`. -/
structure Candidate where
  id : JsString
  orgId : JsString

def candidates : List Candidate :=
  (tables.notifications.filter fun row =>
      row.recipientPrincipalId = recipient ∧ row.readAt = none).flatMap fun row =>
    (tables.organizations.filter fun org =>
        org.id = substringFrom 14 row.subjectReference ∧ org.id ∉ tables.deletions).map fun org =>
      ⟨row.id, org.id⟩

/-- The recursive term of `ancestors`. -/
def ancestorStep (row : JsString × JsString) : List (JsString × JsString) :=
  (tables.organizations.filter fun org => org.id = row.2).filterMap fun org =>
    org.parentOrgId.map fun parent => (row.1, parent)

/-- `none` stands for a query that has not ended in `fuel` rounds. -/
def countVisibleUnread (fuel : ℕ) : Option ℕ := do
  let candidates := tables.candidates recipient
  let ancestors ← Sql.recursiveUnionAll tables.ancestorStep fuel
    (candidates.map fun c => (c.id, c.orgId))
  let joined := candidates.flatMap fun c =>
    (ancestors.filter fun a => a.1 = c.id).flatMap fun a =>
      (tables.grants.filter fun g => g.principalId = recipient ∧
        (g.orgId = c.orgId ∨ g.scope = .subtree ∧ g.orgId = a.2)).map fun _ => c.id
  some joined.dedup.length

def readOrganizations (fuel : ℕ) (ids : List JsString) : Option (List Organization) :=
  if ids = [] then
    some []
  else
    (Sql.recursiveUnion
        (fun child => tables.organizations.filter fun org => child.parentOrgId = some org.id) fuel
        (tables.organizations.filter fun org => org.id ∈ ids)).map fun rows =>
      rows.map fun org =>
        { org with parentOrgId := if org.parentOrgId = some [] then none else org.parentOrgId }

def liveOrganizationIds (ids : List JsString) : List JsString :=
  (tables.organizations.filter fun org => org.id ∈ ids ∧ org.id ∉ tables.deletions).map
    Organization.id

def listGrantsForPrincipal : List RoleGrant :=
  tables.grants.filter fun g => g.principalId = recipient

end Tables

def labels : Status → JsString
  | .active => js "Active"
  | .underReview => js "Under review"
  | .inactive => js "Inactive"
  | .none => js "Not set"

abbrev ById := OrderedMap JsString Organization

/-- The loop of `visible`: some parent on the way up is the wanted one. -/
def climbsTo (byId : ById) (wanted : JsString) : ℕ → Option JsString → Option Bool
  | _, none => some false
  | 0, some _ => none
  | fuel + 1, some here =>
      if here = [] then
        some false
      else if here = wanted then
        some true
      else
        climbsTo byId wanted fuel ((byId.get? here).bind Organization.parentOrgId)

def visible (fuel : ℕ) (org : Organization) (byId : ById) : List RoleGrant → Option Bool
  | [] => some false
  | g :: rest => do
      if g.orgId = org.id then
        some true
      else if ← (if g.scope = .subtree then climbsTo byId g.orgId fuel org.parentOrgId
          else some false) then
        some true
      else
        visible fuel org byId rest

def formUnit (byte : UInt8) : JsString :=
  let unit := byte.toNat.toUInt16
  if isLetter unit || isDigit unit || unit = 42 || unit = 45 || unit = 46 || unit = 95 then [unit]
  else if unit = 32 then [43]
  else [37, upperUnit (Json.hexDigit (byte.toNat / 16)), upperUnit (Json.hexDigit (byte.toNat % 16))]

/-- `URLSearchParams` as text -/
def searchParams (pairs : List (JsString × JsString)) : JsString :=
  (js "&").intercalate (pairs.map fun pair =>
    (Buffer.ofText pair.1).flatMap formUnit ++ [61] ++ (Buffer.ofText pair.2).flatMap formUnit)

structure RenderedNotification where
  id : JsString
  text : JsString
  href : JsString
  createdAt : JsString
  read : Bool

structure NotificationPage where
  items : List RenderedNotification
  unreadCount : ℕ
  page : ℕ

inductive Thrown
  | rangeError (message : JsString)

def renderNotification (row : Notification) (id : JsString) (org : Organization) :
    RenderedNotification where
  id := row.id
  text := org.name ++ js " status changed to " ++ labels row.status ++ js "."
  href := js "/workspace?" ++ searchParams [(js "org_id", id), (js "role", js "org-owner")]
  createdAt := row.createdAt.toISOString
  read := row.readAt.isSome

def subjectId (row : Notification) : JsString := row.subjectReference.drop 13

def renderRow (fuel : ℕ) (byId : ById) (live : List JsString) (grants : List RoleGrant)
    (row : Notification) : Option (List RenderedNotification) :=
  let id := subjectId row
  match byId.get? id with
  | none => some []
  | some org =>
      if id ∉ live then
        some []
      else do
        if ← visible fuel org byId grants then
          some [renderNotification row id org]
        else
          some []

/-- `NotificationsService.list` -/
def list (fuel : ℕ) (tables : Tables) (recipient : JsString) (page : ℕ) :
    Option (Except Thrown NotificationPage) :=
  if page > 2 ^ 53 - 1 ∨ page < 1 then
    some (.error (.rangeError (js "page must be positive")))
  else do
    let rows := tables.listRows recipient 25 ((page - 1) * 25)
    let ids := distinctBy id (rows.map subjectId)
    let organizations ← tables.readOrganizations fuel ids
    let live := tables.liveOrganizationIds ids
    let grants := tables.listGrantsForPrincipal recipient
    let byId := OrderedMap.ofList (organizations.map fun org => (org.id, org))
    let items ← rows.mapM (renderRow fuel byId live grants)
    some (.ok ⟨items.flatten, (items.flatten.filter fun item => !item.read).length, page⟩)

namespace Tables

variable (tables : Tables)

/-- The organization of the first id names the second one as its parent. -/
def Parent (child parent : JsString) : Prop :=
  ∃ org ∈ tables.organizations, org.id = child ∧ org.parentOrgId = some parent

def Reach : JsString → JsString → Prop := ReflTransGen tables.Parent

def Covers (recipient orgId : JsString) : Prop :=
  ∃ g ∈ tables.grants, g.principalId = recipient ∧
    (g.orgId = orgId ∨ g.scope = .subtree ∧ tables.Reach orgId g.orgId)

def Shown (recipient : JsString) (row : Notification) : Prop :=
  (∃ org ∈ tables.organizations, org.id = subjectId row ∧ org.id ∉ tables.deletions) ∧
    tables.Covers recipient (subjectId row)

end Tables

section Above

variable {tables : Tables} {recipient : JsString} {fuel : ℕ}

theorem eq_of_id_eq {org org' : Organization} (orgMem : org ∈ tables.organizations)
    (orgMem' : org' ∈ tables.organizations) (same : org.id = org'.id) : org = org' :=
  List.inj_on_of_nodup_map tables.organizationKeys orgMem orgMem' same

theorem exists_rank (acyclic : Graph.Acyclic tables.Parent) : ∃ rank : JsString → ℕ,
    (∀ child parent, tables.Parent child parent → rank parent < rank child) ∧
      ∀ id, rank id ≤ tables.organizations.length := by
  have sources : ∀ child parent, tables.Parent child parent →
      child ∈ tables.organizations.map Organization.id := by
    rintro child parent ⟨org, orgMem, rfl, _⟩
    exact List.mem_map_of_mem orgMem
  simpa using acyclic.exists_rank sources

theorem mem_ancestorStep {source target : JsString × JsString} :
    target ∈ tables.ancestorStep source ↔
      target.1 = source.1 ∧ tables.Parent source.2 target.2 := by
  simp only [Tables.ancestorStep, List.mem_filterMap, List.mem_filter, decide_eq_true_eq,
    Option.map_eq_some_iff, Tables.Parent]
  constructor
  · rintro ⟨org, ⟨orgMem, isChild⟩, parent, isParent, rfl⟩
    exact ⟨rfl, org, orgMem, isChild, isParent⟩
  · rintro ⟨sameRow, org, orgMem, isChild, isParent⟩
    exact ⟨org, ⟨orgMem, isChild⟩, target.2, isParent, Prod.ext sameRow.symm rfl⟩

theorem reach_ancestorStep {source target : JsString × JsString} :
    ReflTransGen (fun source target => target ∈ tables.ancestorStep source) source target ↔
      target.1 = source.1 ∧ tables.Reach source.2 target.2 := by
  constructor
  · intro path
    induction path with
    | refl => exact ⟨rfl, .refl⟩
    | tail _ step ih =>
        rw [mem_ancestorStep] at step
        exact ⟨step.1.trans ih.1, ih.2.tail step.2⟩
  · rintro ⟨sameRow, path⟩
    rcases source with ⟨row, start⟩
    rcases target with ⟨row', finish⟩
    cases sameRow
    have lifted : ∀ finish, tables.Reach start finish →
        ReflTransGen (fun source target => target ∈ tables.ancestorStep source) (row, start)
          (row, finish) := by
      intro finish path
      induction path with
      | refl => exact .refl
      | tail _ step ih => exact ih.tail (mem_ancestorStep.mpr ⟨rfl, step⟩)
    exact lifted finish path

theorem ancestors_spec (acyclic : Graph.Acyclic tables.Parent)
    (enough : tables.organizations.length < fuel) (seed : List (JsString × JsString)) :
    ∃ all, Sql.recursiveUnionAll tables.ancestorStep fuel seed = some all ∧
      ∀ row, row ∈ all ↔ ∃ start ∈ seed, row.1 = start.1 ∧ tables.Reach start.2 row.2 := by
  rcases exists_rank acyclic with ⟨rank, descends, bounded⟩
  have spec := @Sql.recursiveUnionAll_spec _ tables.ancestorStep (fun row => rank row.2)
    (fun source target step => descends _ _ (mem_ancestorStep.mp step).2) fuel seed
    (fun row _ => Nat.lt_of_le_of_lt (bounded row.2) enough)
  simpa only [reach_ancestorStep] using spec

theorem mem_candidates {c : Tables.Candidate} : c ∈ tables.candidates recipient ↔
    ∃ row ∈ tables.notifications, row.recipientPrincipalId = recipient ∧ row.readAt = none ∧
      row.id = c.id ∧ subjectId row = c.orgId ∧
        ∃ org ∈ tables.organizations, org.id = subjectId row ∧ org.id ∉ tables.deletions := by
  simp only [Tables.candidates, List.mem_flatMap, List.mem_filter, List.mem_map, decide_eq_true_eq]
  constructor
  · rintro ⟨row, ⟨rowMem, isRecipient, unread⟩, org, ⟨orgMem, isSubject, lives⟩, rfl⟩
    exact ⟨row, rowMem, isRecipient, unread, rfl, isSubject.symm, org, orgMem, isSubject, lives⟩
  · rintro ⟨row, rowMem, isRecipient, unread, isRow, isOrg, org, orgMem, isSubject, lives⟩
    refine ⟨row, ⟨rowMem, isRecipient, unread⟩, org, ⟨orgMem, isSubject, lives⟩, ?_⟩
    cases c
    simp only [Tables.Candidate.mk.injEq]
    exact ⟨isRow, isSubject.trans isOrg⟩

theorem countVisibleUnread_spec (acyclic : Graph.Acyclic tables.Parent)
    (enough : tables.organizations.length < fuel) {shown : List Notification}
    (nodup : (shown.map Notification.id).Nodup)
    (isShown : ∀ row, row ∈ shown ↔ row ∈ tables.notifications ∧
      row.recipientPrincipalId = recipient ∧ row.readAt = none ∧ tables.Shown recipient row) :
    tables.countVisibleUnread recipient fuel = some shown.length := by
  rcases ancestors_spec acyclic enough ((tables.candidates recipient).map fun c => (c.id, c.orgId))
    with ⟨ancestors, ended, ancestorMem⟩
  rw [Tables.countVisibleUnread, ended]
  simp only [Option.bind_eq_bind, Option.bind_some, Option.some.injEq]
  rw [← List.length_map Notification.id]
  apply List.Perm.length_eq
  rw [List.perm_ext_iff_of_nodup (List.nodup_dedup _) nodup]
  intro id
  simp only [List.mem_dedup, List.mem_flatMap, List.mem_filter, List.mem_map, decide_eq_true_eq,
    ancestorMem, isShown]
  constructor
  · rintro ⟨c, cMem, a, ⟨⟨_, ⟨c', cMem', rfl⟩, sameRow, path⟩, isRow⟩, g, ⟨gMem, isGranted, covers⟩,
      rfl⟩
    have sameOrg : c'.orgId = c.orgId := by
      rcases mem_candidates.mp cMem with ⟨row, rowMem, -, -, isId, isOrg, -⟩
      rcases mem_candidates.mp cMem' with ⟨row', rowMem', -, -, isId', isOrg', -⟩
      have same := List.inj_on_of_nodup_map tables.notificationKeys rowMem' rowMem
        (isId'.trans (sameRow.symm.trans (isRow.trans isId.symm)))
      rw [← isOrg', same, isOrg]
    rcases mem_candidates.mp cMem with ⟨row, rowMem, isRecipient, unread, isId, isOrg, lives⟩
    refine ⟨row, ⟨rowMem, isRecipient, unread, lives, g, gMem, isGranted, ?_⟩, isId⟩
    rw [isOrg]
    apply covers.imp_right
    rintro ⟨isSubtree, isAncestor⟩
    exact ⟨isSubtree, by rwa [isAncestor, ← sameOrg]⟩
  · rintro ⟨row, ⟨rowMem, isRecipient, unread, lives, g, gMem, isGranted, covers⟩, rfl⟩
    have candidate : (⟨row.id, subjectId row⟩ : Tables.Candidate) ∈ tables.candidates recipient :=
      mem_candidates.mpr ⟨row, rowMem, isRecipient, unread, rfl, rfl, lives⟩
    have ancestor : ∀ above, tables.Reach (subjectId row) above →
        ∃ start, (∃ c ∈ tables.candidates recipient, (c.id, c.orgId) = start) ∧
          (row.id, above).1 = start.1 ∧ tables.Reach start.2 (row.id, above).2 :=
      fun above path => ⟨_, ⟨_, candidate, rfl⟩, rfl, path⟩
    rcases covers with direct | ⟨isSubtree, path⟩
    · exact ⟨_, candidate, _, ⟨ancestor _ .refl, rfl⟩, g, ⟨gMem, isGranted, .inl direct⟩, rfl⟩
    · exact ⟨_, candidate, _, ⟨ancestor _ path, rfl⟩, g, ⟨gMem, isGranted, .inr ⟨isSubtree, rfl⟩⟩, rfl⟩

end Above

section Pages

variable {tables : Tables} {recipient : JsString} {fuel : ℕ} {byId : ById} {row : Notification}

structure Loaded (tables : Tables) (byId : ById) (id : JsString) : Prop where
  stored : ∀ id org, byId.get? id = some org → org ∈ tables.organizations ∧ org.id = id
  known : ∀ above, tables.Reach id above → ∀ org ∈ tables.organizations, org.id = above →
    byId.get? above = some org

theorem Loaded.parent {id parent : JsString} (loaded : Loaded tables byId id)
    (isParent : tables.Parent id parent) : Loaded tables byId parent :=
  ⟨loaded.stored, fun above path => loaded.known above (.head isParent path)⟩

theorem Loaded.parent_iff {id parent : JsString} (loaded : Loaded tables byId id) :
    (byId.get? id).bind Organization.parentOrgId = some parent ↔ tables.Parent id parent := by
  constructor
  · intro found
    rcases Option.bind_eq_some_iff.mp found with ⟨org, isOrg, isParent⟩
    rcases loaded.stored id org isOrg with ⟨orgMem, isId⟩
    exact ⟨org, orgMem, isId, isParent⟩
  · rintro ⟨org, orgMem, isId, isParent⟩
    rw [loaded.known id .refl org orgMem isId]
    exact isParent

theorem climbsTo_spec {rank : JsString → ℕ}
    (descends : ∀ child parent, tables.Parent child parent → rank parent < rank child)
    (wanted : JsString) {here : JsString} (loaded : Loaded tables byId here) (named : here ≠ [])
    (enough : rank here < fuel) :
    ∃ found, climbsTo byId wanted fuel (some here) = some found ∧
      (found = true ↔ tables.Reach here wanted) := by
  induction fuel generalizing here with
  | zero => exact absurd enough (Nat.not_lt_zero _)
  | succ fuel ih =>
      rw [climbsTo, if_neg named]
      by_cases isWanted : here = wanted
      · rw [if_pos isWanted]
        exact ⟨true, rfl, fun _ => isWanted ▸ .refl, fun _ => rfl⟩
      · rw [if_neg isWanted]
        cases next : (byId.get? here).bind Organization.parentOrgId with
        | none =>
            refine ⟨false, by cases fuel <;> rfl, by simp, ?_⟩
            intro path
            rcases ReflTransGen.cases_head path with same | ⟨parent, isParent, _⟩
            · exact absurd same isWanted
            · rw [loaded.parent_iff.mpr isParent] at next
              cases next
        | some parent =>
            have isParent := loaded.parent_iff.mp next
            have down := descends here parent isParent
            have parentNamed : parent ≠ [] := by
              rcases isParent with ⟨org, orgMem, -, isParent⟩
              rintro rfl
              exact tables.named org orgMem isParent
            rcases ih (loaded.parent isParent) parentNamed (by omega) with ⟨found, climbed, isFound⟩
            refine ⟨found, climbed, isFound.trans ⟨.head isParent, ?_⟩⟩
            intro path
            rcases ReflTransGen.cases_head path with same | ⟨parent', isParent', further⟩
            · exact absurd same isWanted
            · rw [loaded.parent_iff.mpr isParent', Option.some.injEq] at next
              exact next ▸ further

theorem visible_spec {rank : JsString → ℕ}
    (descends : ∀ child parent, tables.Parent child parent → rank parent < rank child)
    {org : Organization} (orgMem : org ∈ tables.organizations)
    (loaded : Loaded tables byId org.id) (enough : rank org.id < fuel) (grants : List RoleGrant) :
    ∃ sees, visible fuel org byId grants = some sees ∧ (sees = true ↔
      ∃ g ∈ grants, g.orgId = org.id ∨ g.scope = .subtree ∧ tables.Reach org.id g.orgId) := by
  induction grants with
  | nil => exact ⟨false, rfl, by simp⟩
  | cons g grants ih =>
      rcases ih with ⟨others, isOthers, sees⟩
      rw [visible]
      by_cases direct : g.orgId = org.id
      · rw [if_pos direct]
        exact ⟨true, rfl, fun _ => ⟨g, List.mem_cons_self, .inl direct⟩, fun _ => rfl⟩
      · have climbs : ∃ found, (if g.scope = .subtree then climbsTo byId g.orgId fuel org.parentOrgId
            else some false) = some found ∧
            (found = true ↔ g.scope = .subtree ∧ tables.Reach org.id g.orgId) := by
          by_cases isSubtree : g.scope = .subtree
          · rw [if_pos isSubtree]
            cases isParent : org.parentOrgId with
            | none =>
                refine ⟨false, by cases fuel <;> rfl, by simp, ?_⟩
                rintro ⟨-, path⟩
                rcases ReflTransGen.cases_head path with same | ⟨_, ⟨org', orgMem', sameId, found⟩, _⟩
                · exact absurd same.symm direct
                · rw [eq_of_id_eq orgMem' orgMem sameId, isParent] at found
                  cases found
            | some parent =>
                have step : tables.Parent org.id parent := ⟨org, orgMem, rfl, isParent⟩
                have lower : rank parent < fuel := (descends _ _ step).trans enough
                rcases climbsTo_spec descends g.orgId (loaded.parent step)
                  (fun empty => tables.named org orgMem (empty ▸ isParent)) lower with
                  ⟨found, climbed, isFound⟩
                refine ⟨found, climbed, isFound.trans ?_⟩
                constructor
                · exact fun path => ⟨isSubtree, .head step path⟩
                · rintro ⟨-, path⟩
                  rcases ReflTransGen.cases_head path with same | ⟨parent', step', further⟩
                  · exact absurd same.symm direct
                  · have sameParent := (loaded.parent_iff.mpr step').symm.trans
                      (loaded.parent_iff.mpr step)
                    exact Option.some.inj sameParent ▸ further
          · rw [if_neg isSubtree]
            exact ⟨false, rfl, by simp [isSubtree]⟩
        rcases climbs with ⟨found, climbed, isFound⟩
        rw [if_neg direct, climbed]
        simp only [Option.bind_eq_bind, Option.bind_some]
        cases found with
        | true =>
            exact ⟨true, rfl, fun _ => ⟨g, List.mem_cons_self, .inr (isFound.mp rfl)⟩, fun _ => rfl⟩
        | false =>
            refine ⟨others, isOthers, sees.trans ?_⟩
            constructor
            · rintro ⟨g', gMem', covers⟩
              exact ⟨g', List.mem_cons_of_mem _ gMem', covers⟩
            · rintro ⟨g', gMem', covers⟩
              rcases List.mem_cons.mp gMem' with rfl | inRest
              · rcases covers with same | subtree
                · exact absurd same direct
                · exact absurd (isFound.mpr subtree) (by simp)
              · exact ⟨g', inRest, covers⟩

theorem renderRow_spec {rank : JsString → ℕ}
    (descends : ∀ child parent, tables.Parent child parent → rank parent < rank child)
    (loaded : Loaded tables byId (subjectId row)) (enough : rank (subjectId row) < fuel)
    {ids : List JsString} (idMem : subjectId row ∈ ids) :
    ∃ parts, renderRow fuel byId (tables.liveOrganizationIds ids)
        (tables.listGrantsForPrincipal recipient) row = some parts ∧
      (tables.Shown recipient row → ∃ org, parts = [renderNotification row (subjectId row) org]) ∧
      (¬tables.Shown recipient row → parts = []) := by
  rw [renderRow]
  have live : ∀ org ∈ tables.organizations, org.id = subjectId row →
      (subjectId row ∈ tables.liveOrganizationIds ids ↔ org.id ∉ tables.deletions) := by
    intro org orgMem isSubject
    simp only [Tables.liveOrganizationIds, List.mem_map, List.mem_filter, decide_eq_true_eq]
    constructor
    · rintro ⟨org', ⟨orgMem', _, lives⟩, isSubject'⟩
      rwa [eq_of_id_eq orgMem orgMem' (isSubject.trans isSubject'.symm)]
    · intro lives
      exact ⟨org, ⟨orgMem, isSubject ▸ idMem, lives⟩, isSubject⟩
  cases found : byId.get? (subjectId row) with
  | none =>
      refine ⟨[], rfl, ?_, fun _ => rfl⟩
      rintro ⟨⟨org, orgMem, isSubject, _⟩, _⟩
      rw [loaded.known _ .refl org orgMem isSubject] at found
      cases found
  | some org =>
      rcases loaded.stored _ _ found with ⟨orgMem, isSubject⟩
      dsimp only
      by_cases lives : org.id ∈ tables.deletions
      · have gone : subjectId row ∉ tables.liveOrganizationIds ids :=
          fun isLive => (live org orgMem isSubject).mp isLive lives
        rw [if_pos gone]
        refine ⟨[], rfl, ?_, fun _ => rfl⟩
        rintro ⟨⟨org', orgMem', isSubject', lives'⟩, _⟩
        rw [eq_of_id_eq orgMem' orgMem (isSubject'.trans isSubject.symm)] at lives'
        exact absurd lives lives'
      · rw [if_neg (not_not.mpr ((live org orgMem isSubject).mpr lives))]
        rw [← isSubject] at loaded enough
        rcases visible_spec descends orgMem loaded enough (tables.listGrantsForPrincipal recipient)
          with ⟨sees, isVisible, isSeen⟩
        have shown : sees = true ↔ tables.Shown recipient row := by
          rw [isSeen, Tables.Shown, Tables.Covers, ← isSubject]
          simp only [Tables.listGrantsForPrincipal, List.mem_filter, decide_eq_true_eq, and_assoc]
          rw [and_iff_right ⟨org, orgMem, rfl, lives⟩]
        rw [isVisible]
        simp only [Option.bind_eq_bind, Option.bind_some]
        cases sees with
        | true => exact ⟨_, rfl, fun _ => ⟨org, rfl⟩, fun hidden => absurd (shown.mp rfl) hidden⟩
        | false => exact ⟨[], rfl, fun isShown => absurd (shown.mpr isShown) (by simp), fun _ => rfl⟩

theorem readOrganizations_spec (enough : tables.organizations.length < fuel) (ids : List JsString) :
    ∃ loaded, tables.readOrganizations fuel ids = some loaded ∧ ∀ id ∈ ids,
      Loaded tables (OrderedMap.ofList (loaded.map fun org => (org.id, org))) id := by
  have keyed : ∀ loaded : List Organization, (∀ org ∈ loaded, org ∈ tables.organizations) →
      ∀ id, (∀ above, tables.Reach id above → ∀ org ∈ tables.organizations, org.id = above →
        org ∈ loaded) →
      Loaded tables (OrderedMap.ofList (loaded.map fun org => (org.id, org))) id := by
    intro loaded stored id every
    have storedAt : ∀ id org,
        (OrderedMap.ofList (loaded.map fun org => (org.id, org))).get? id = some org →
          org ∈ tables.organizations ∧ org.id = id := by
      intro id org found
      rcases List.mem_map.mp (OrderedMap.mem_of_get?_ofList found) with ⟨org', orgMem', isPair⟩
      cases isPair
      exact ⟨stored org orgMem', rfl⟩
    refine ⟨storedAt, ?_⟩
    intro above path org orgMem isAbove
    have present : ((OrderedMap.ofList (loaded.map fun org => (org.id, org))).get? above).isSome := by
      rw [OrderedMap.isSome_get?_ofList, List.map_map]
      exact isAbove ▸ List.mem_map_of_mem (every above path org orgMem isAbove)
    rcases Option.isSome_iff_exists.mp present with ⟨org', found⟩
    rcases storedAt above org' found with ⟨orgMem', isId⟩
    rw [found, eq_of_id_eq orgMem' orgMem (isId.trans isAbove.symm)]
  rw [Tables.readOrganizations]
  by_cases noIds : ids = []
  · rw [if_pos noIds, noIds]
    exact ⟨[], rfl, by simp⟩
  · rw [if_neg noIds]
    rcases Sql.recursiveUnion_spec
      (fun org orgMem => List.mem_of_mem_filter orgMem : ∀ org ∈ tables.organizations.filter
        (fun org => org.id ∈ ids), org ∈ tables.organizations)
      (fun child org orgMem => List.mem_of_mem_filter orgMem : ∀ child : Organization,
        ∀ org ∈ tables.organizations.filter (fun org => child.parentOrgId = some org.id),
          org ∈ tables.organizations) enough with ⟨rows, ended, rowMem⟩
    have stored : ∀ org ∈ rows, org ∈ tables.organizations := by
      intro org orgMem
      rcases (rowMem org).mp orgMem with ⟨start, startMem, path⟩
      cases path with
      | refl => exact List.mem_of_mem_filter startMem
      | tail _ step => exact List.mem_of_mem_filter step
    have same : rows.map (fun org =>
        { org with parentOrgId := if org.parentOrgId = some [] then none else org.parentOrgId }) =
        rows := by
      apply (List.map_congr_left _).trans (List.map_id rows)
      intro org orgMem
      simp only [if_neg (tables.named org (stored org orgMem)), id_eq]
    rw [ended, Option.map_some, same]
    refine ⟨rows, rfl, fun id idMem => keyed rows stored id ?_⟩
    intro above path
    induction path with
    | refl =>
        intro org orgMem isId
        refine (rowMem org).mpr ⟨org, ?_, .refl⟩
        rw [List.mem_filter, decide_eq_true_eq]
        exact ⟨orgMem, isId ▸ idMem⟩
    | tail _ step ih =>
        intro org orgMem isAbove
        rcases step with ⟨child, childMem, isChild, isParent⟩
        rcases (rowMem child).mp (ih child childMem isChild) with ⟨start, startMem, further⟩
        refine (rowMem org).mpr ⟨start, startMem, further.tail ?_⟩
        rw [List.mem_filter, decide_eq_true_eq]
        exact ⟨orgMem, isAbove ▸ isParent⟩

open Classical in
theorem mapM_renderRow {rank : JsString → ℕ}
    (descends : ∀ child parent, tables.Parent child parent → rank parent < rank child)
    (enough : ∀ id, rank id < fuel) {ids : List JsString}
    (loaded : ∀ id ∈ ids, Loaded tables byId id) {rows : List Notification}
    (idMem : ∀ row ∈ rows, subjectId row ∈ ids) :
    ∃ parts, rows.mapM (renderRow fuel byId (tables.liveOrganizationIds ids)
        (tables.listGrantsForPrincipal recipient)) = some parts ∧
      parts.flatten.map (fun item => (item.id, item.read)) =
        (rows.filter fun row => tables.Shown recipient row).map fun row =>
          (row.id, row.readAt.isSome) := by
  induction rows with
  | nil => exact ⟨[], rfl, rfl⟩
  | cons row rows ih =>
      rw [List.forall_mem_cons] at idMem
      rcases ih idMem.2 with ⟨parts, isParts, sameParts⟩
      rcases @renderRow_spec tables recipient fuel byId row rank descends (loaded _ idMem.1)
        (enough _) ids idMem.1 with ⟨part, isPart, shown, hidden⟩
      refine ⟨part :: parts, by simp [List.mapM_cons, isPart, isParts], ?_⟩
      rw [List.flatten_cons, List.map_append, sameParts, List.filter_cons]
      by_cases isShown : tables.Shown recipient row
      · rcases shown isShown with ⟨org, rfl⟩
        rw [if_pos (decide_eq_true isShown)]
        rfl
      · rw [hidden isShown, if_neg (by simpa using isShown)]
        rfl

open Classical in
theorem list_spec (acyclic : Graph.Acyclic tables.Parent)
    (enough : tables.organizations.length < fuel) {page : ℕ} (first : 1 ≤ page)
    (safe : page ≤ 2 ^ 53 - 1) :
    ∃ items, list fuel tables recipient page =
        some (.ok ⟨items, (items.filter fun item => !item.read).length, page⟩) ∧
      items.map (fun item => (item.id, item.read)) =
        ((Paging.page 25 (page - 1) (tables.inbox recipient)).filter fun row =>
          tables.Shown recipient row).map fun row => (row.id, row.readAt.isSome) := by
  rcases exists_rank acyclic with ⟨rank, descends, bounded⟩
  have rows : tables.listRows recipient 25 ((page - 1) * 25) =
      Paging.page 25 (page - 1) (tables.inbox recipient) := by
    rw [Tables.listRows, Paging.page, Nat.mul_comm]
  rw [list, if_neg (by omega), rows]
  rcases readOrganizations_spec enough (distinctBy id
    ((Paging.page 25 (page - 1) (tables.inbox recipient)).map subjectId)) with
    ⟨loaded, isLoaded, everyLoaded⟩
  rcases @mapM_renderRow tables recipient fuel _ rank descends
    (fun id => Nat.lt_of_le_of_lt (bounded id) enough) _ everyLoaded
    (Paging.page 25 (page - 1) (tables.inbox recipient))
    (fun row rowMem => mem_distinctBy_id.mpr (List.mem_map_of_mem rowMem)) with
    ⟨parts, isParts, sameParts⟩
  refine ⟨parts.flatten, ?_, sameParts⟩
  simp only [isLoaded, isParts, Option.bind_eq_bind, Option.bind_some]

/-- The number on the bell is the sum over the pages, and no notification is on two of them. -/
theorem countVisibleUnread_eq_sum (tables : Tables) (acyclic : Graph.Acyclic tables.Parent)
    (recipient : JsString) (fuel : ℕ) (enough : tables.organizations.length < fuel) :
    ∃ (pages : ℕ → NotificationPage) (count : ℕ),
      (∀ page, 1 ≤ page → page ≤ 2 ^ 53 - 1 →
        list fuel tables recipient page = some (.ok (pages page))) ∧
      tables.countVisibleUnread recipient fuel = some count ∧
      (∀ last ≤ 2 ^ 53 - 1, (tables.inbox recipient).length ≤ 25 * last →
        ((List.range last).map fun place => (pages (place + 1)).unreadCount).sum = count) ∧
      ∀ page page', 1 ≤ page → page ≤ 2 ^ 53 - 1 → 1 ≤ page' → page' ≤ 2 ^ 53 - 1 →
        ∀ item ∈ (pages page).items, ∀ item' ∈ (pages page').items, item.id = item'.id →
          page = page' := by
  classical
  have spec : ∀ page, ∃ items, 1 ≤ page → page ≤ 2 ^ 53 - 1 →
      list fuel tables recipient page =
        some (.ok ⟨items, (items.filter fun item => !item.read).length, page⟩) ∧
      items.map (fun item => (item.id, item.read)) =
        ((Paging.page 25 (page - 1) (tables.inbox recipient)).filter fun row =>
          tables.Shown recipient row).map fun row => (row.id, row.readAt.isSome) := by
    intro page
    by_cases valid : 1 ≤ page ∧ page ≤ 2 ^ 53 - 1
    · rcases @list_spec tables recipient fuel acyclic enough page valid.1 valid.2 with ⟨items, is⟩
      exact ⟨items, fun _ _ => is⟩
    · exact ⟨[], fun first safe => absurd ⟨first, safe⟩ valid⟩
  choose items isItems using spec
  have inboxMem : ∀ row, row ∈ tables.inbox recipient ↔
      row ∈ tables.notifications ∧ row.recipientPrincipalId = recipient := by
    intro row
    simp [Tables.inbox]
  have keys : ((tables.inbox recipient).map Notification.id).Nodup := by
    have perm : (tables.inbox recipient).Perm _ := Comparator.sort_perm
    apply (perm.map _).nodup_iff.mpr
    exact tables.notificationKeys.sublist (List.filter_sublist.map _)
  let counts : Notification → Bool := fun row => !row.readAt.isSome && tables.Shown recipient row
  have unread : ∀ page, 1 ≤ page → page ≤ 2 ^ 53 - 1 →
      ((items page).filter fun item => !item.read).length =
        (Paging.page 25 (page - 1) (tables.inbox recipient)).countP counts := by
    intro page first safe
    have flags : (items page).countP (fun item => !item.read) =
        ((items page).map fun item => (item.id, item.read)).countP fun entry => !entry.2 := by
      rw [List.countP_map]
      rfl
    rw [← List.countP_eq_length_filter, flags, (isItems page first safe).2, List.countP_map,
      List.countP_filter]
    rfl
  refine ⟨fun page => ⟨items page, ((items page).filter fun item => !item.read).length, page⟩,
    (tables.inbox recipient).countP counts, fun page first safe => (isItems page first safe).1,
    ?_, ?_, ?_⟩
  · rw [List.countP_eq_length_filter]
    apply countVisibleUnread_spec acyclic enough (keys.sublist (List.filter_sublist.map _))
    intro row
    simp only [List.mem_filter, inboxMem, counts, Bool.and_eq_true, Bool.not_eq_true',
      Option.isSome_eq_false_iff, Option.isNone_iff_eq_none, decide_eq_true_eq, and_assoc]
  · intro last safe covered
    rw [← Paging.sum_countP_page counts covered]
    congr 1
    apply List.map_congr_left
    intro place placeMem
    have inside := List.mem_range.mp placeMem
    exact unread (place + 1) (by omega) (by omega)
  · intro page page' first safe first' safe' item itemMem item' itemMem' sameId
    have onPage : ∀ page, 1 ≤ page → page ≤ 2 ^ 53 - 1 → ∀ item ∈ items page,
        ∃ row ∈ Paging.page 25 (page - 1) (tables.inbox recipient), row.id = item.id := by
      intro page first safe item itemMem
      have entry : (item.id, item.read) ∈ (items page).map fun item => (item.id, item.read) :=
        List.mem_map_of_mem itemMem
      rw [(isItems page first safe).2] at entry
      rcases List.mem_map.mp entry with ⟨row, rowMem, isEntry⟩
      exact ⟨row, List.mem_of_mem_filter rowMem, congrArg Prod.fst isEntry⟩
    rcases onPage page first safe item itemMem with ⟨row, rowMem, isRow⟩
    rcases onPage page' first' safe' item' itemMem' with ⟨row', rowMem', isRow'⟩
    have inInbox : ∀ {place row}, row ∈ Paging.page 25 place (tables.inbox recipient) →
        row ∈ tables.inbox recipient :=
      fun rowMem => List.mem_of_mem_drop (List.mem_of_mem_take rowMem)
    have sameRow := List.inj_on_of_nodup_map keys (inInbox rowMem) (inInbox rowMem')
      (isRow.trans (sameId.trans isRow'.symm))
    have samePlace := Paging.eq_of_mem_page (List.Nodup.of_map _ keys) rowMem (sameRow ▸ rowMem')
    omega

/-- A child of an organization whose subtree is granted, with an unread notification. -/
def sampleTables : Tables where
  organizations := [⟨js "o1", js "Parent", none⟩, ⟨js "o12", js "Child", some (js "o1")⟩]
  deletions := []
  grants := [⟨js "p", js "o1", .subtree⟩]
  notifications := [⟨js "n", js "p", js "organization:o12", .active, ⟨0, by decide⟩, 0, none⟩]
  organizationKeys := by decide
  notificationKeys := by decide
  named := by decide

theorem acyclic_sampleTables : Graph.Acyclic sampleTables.Parent := by
  have shorter : ∀ child parent, TransGen sampleTables.Parent child parent →
      parent.length < child.length := by
    intro child parent path
    have step : ∀ child parent, sampleTables.Parent child parent → parent.length < child.length := by
      rintro child parent ⟨org, orgMem, rfl, isParent⟩
      rcases List.mem_cons.mp orgMem with rfl | orgMem
      · cases isParent
      · rcases List.mem_singleton.mp orgMem with rfl
        cases isParent
        decide
    induction path with
    | single isParent => exact step _ _ isParent
    | tail _ isParent ih => exact (step _ _ isParent).trans ih
  exact fun key cycle => Nat.lt_irrefl _ (shorter key key cycle)

theorem countVisibleUnread_eq_sum_sample :
    ∃ (pages : ℕ → NotificationPage) (count : ℕ),
      (∀ page, 1 ≤ page → page ≤ 2 ^ 53 - 1 →
        list 3 sampleTables (js "p") page = some (.ok (pages page))) ∧
      sampleTables.countVisibleUnread (js "p") 3 = some count ∧
      (∀ last ≤ 2 ^ 53 - 1, (sampleTables.inbox (js "p")).length ≤ 25 * last →
        ((List.range last).map fun place => (pages (place + 1)).unreadCount).sum = count) ∧
      ∀ page page', 1 ≤ page → page ≤ 2 ^ 53 - 1 → 1 ≤ page' → page' ≤ 2 ^ 53 - 1 →
        ∀ item ∈ (pages page).items, ∀ item' ∈ (pages page').items, item.id = item'.id →
          page = page' :=
  countVisibleUnread_eq_sum sampleTables acyclic_sampleTables (js "p") 3 (by decide)

end Pages

end StudentHub.Notifications.Inbox
