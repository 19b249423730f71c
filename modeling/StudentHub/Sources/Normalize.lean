import StudentHub.Ecma.Grouping
import StudentHub.Sources.Contract
import Mathlib.Data.List.Perm.Subperm

/-!
# Normalizing a batch

A batch of records becomes accepted candidates, rejections and conflict reports. All
intermediate maps iterate in the order in which the batch first names a key. The two
kinds of conflict are found by the same two loops, one that groups the candidates and
one that reports the groups with several members; what differs is kept by the kind.
-/

namespace StudentHub.Sources

open Ecma JsString Json

variable {host : SourceHost}

def supersedes (candidate existing : NormalizedSourceConnection) : Bool :=
  if candidate.observedAt ≠ existing.observedAt then
    existing.observedAt < candidate.observedAt
  else
    existing.provenance < candidate.provenance

/-- `left.source.localeCompare(right.source) || ...` -/
def compareCandidates (host : SourceHost) : Comparator NormalizedSourceConnection :=
  ((host.localeCompare.onKey fun candidate => candidate.source.text).orElse
    (host.localeCompare.onKey NormalizedSourceConnection.externalId)).orElse
      (host.localeCompare.onKey NormalizedSourceConnection.personId)

/-- The comparator of `conflicts.sort`. -/
def compareConflicts (host : SourceHost) : Comparator ConflictReport :=
  (((host.localeCompare.onKey fun report => report.kind.text).orElse
    (host.localeCompare.onKey fun report => report.source.text)).orElse
      (host.localeCompare.onKey fun report => commaSeparated report.externalIdMasks)).orElse
        (host.localeCompare.onKey fun report => commaSeparated report.personRefs)

def sortedUnique (host : SourceHost) (values : List JsString) : List JsString :=
  host.localeCompare.sort (distinctBy id values)

namespace ConflictKind

/-- What several candidates claim. -/
def key : ConflictKind → NormalizedSourceConnection → JsString
  | externalIdentityClaimedByMultiplePeople => identityKey
  | personClaimedInconsistently => personKey

def member : ConflictKind → NormalizedSourceConnection → JsString
  | externalIdentityClaimedByMultiplePeople => NormalizedSourceConnection.personId
  | personClaimedInconsistently => NormalizedSourceConnection.externalId

def label (host : SourceHost) : ConflictKind → JsString → JsString
  | externalIdentityClaimedByMultiplePeople => personRef host
  | personClaimedInconsistently => maskIdentifier

def report (host : SourceHost) (kind : ConflictKind) (candidate : NormalizedSourceConnection)
    (members : List JsString) : ConflictReport :=
  match kind with
  | externalIdentityClaimedByMultiplePeople =>
      { kind := kind
        source := candidate.source
        externalIdMasks := [maskIdentifier candidate.externalId]
        personRefs := sortedUnique host (members.map (personRef host)) }
  | personClaimedInconsistently =>
      { kind := kind
        source := candidate.source
        externalIdMasks := sortedUnique host (members.map maskIdentifier)
        personRefs := [personRef host candidate.personId] }

end ConflictKind

structure Collected where
  rejected : List RejectedRecord
  byTriple : OrderedMap JsString NormalizedSourceConnection

def collect (host : SourceHost) (collected : Collected) (raw : RawSourceRecord) : Collected :=
  match normalizeOne host raw with
  | .error rejection => { collected with rejected := collected.rejected ++ [rejection] }
  | .ok value => { collected with byTriple := collected.byTriple.keepBest tripleKey supersedes value }

/-- `personsByIdentity` and `identitiesByPerson` -/
def grouped (kind : ConflictKind) (candidates : List NormalizedSourceConnection) :
    OrderedMap JsString (List JsString) :=
  candidates.foldl (OrderedMap.addToGroup kind.key kind.member) .empty

structure Poisoned where
  keys : List JsString
  conflicts : List ConflictReport

def poison (host : SourceHost) (kind : ConflictKind) (groups : OrderedMap JsString (List JsString))
    (poisoned : Poisoned) (candidate : NormalizedSourceConnection) : Poisoned :=
  if kind.key candidate ∈ poisoned.keys then
    poisoned
  else
    match groups.get? (kind.key candidate) with
    | none => poisoned
    | some members =>
        if members.length < 2 then
          poisoned
        else
          { keys := poisoned.keys ++ [kind.key candidate]
            conflicts := poisoned.conflicts ++ [kind.report host candidate members] }

def normalizeSourceConnections (host : SourceHost) (records : List RawSourceRecord) :
    NormalizationResult :=
  let collected := records.foldl (collect host) ⟨[], .empty⟩
  let candidates := collected.byTriple.values
  let personsByIdentity := grouped .externalIdentityClaimedByMultiplePeople candidates
  let identitiesByPerson := grouped .personClaimedInconsistently candidates
  let identities := candidates.foldl
    (poison host .externalIdentityClaimedByMultiplePeople personsByIdentity) ⟨[], []⟩
  let persons := candidates.foldl
    (poison host .personClaimedInconsistently identitiesByPerson) ⟨[], identities.conflicts⟩
  { accepted := (compareCandidates host).sort (candidates.filter fun candidate =>
      identityKey candidate ∉ identities.keys ∧ personKey candidate ∉ persons.keys)
    rejected := collected.rejected
    conflicts := (compareConflicts host).sort persons.conflicts }

def valid (host : SourceHost) (records : List RawSourceRecord) : List NormalizedSourceConnection :=
  records.filterMap fun raw => (normalizeOne host raw).toOption

theorem mem_valid {records : List RawSourceRecord} {value : NormalizedSourceConnection} :
    value ∈ valid host records ↔ ∃ raw ∈ records, normalizeOne host raw = .ok value := by
  simp only [valid, List.mem_filterMap]
  apply exists_congr
  intro raw
  cases normalizeOne host raw <;> simp [Except.toOption]

def rejection? : Except RejectedRecord NormalizedSourceConnection → Option RejectedRecord
  | .error rejection => some rejection
  | .ok _ => none

theorem foldl_collect (records : List RawSourceRecord) (collected : Collected) :
    records.foldl (collect host) collected =
      { rejected := collected.rejected ++
          records.filterMap fun raw => rejection? (normalizeOne host raw)
        byTriple := (valid host records).foldl (OrderedMap.keepBest tripleKey supersedes)
          collected.byTriple } := by
  induction records generalizing collected with
  | nil => simp [valid]
  | cons raw rest ih =>
      rw [List.foldl_cons, ih]
      simp only [collect, valid, List.filterMap_cons]
      cases normalizeOne host raw with
      | error rejection => simp [rejection?, Except.toOption]
      | ok value => simp [rejection?, Except.toOption]

def candidatesOf (values : List NormalizedSourceConnection) : List NormalizedSourceConnection :=
  (values.foldl (OrderedMap.keepBest tripleKey supersedes) .empty).values

theorem supersedes_irrefl (candidate : NormalizedSourceConnection) :
    supersedes candidate candidate = false := by
  simp [supersedes]

theorem supersedes_trans (first second third : NormalizedSourceConnection)
    (early : supersedes first second = true) (late : supersedes second third = true) :
    supersedes first third = true := by
  simp only [supersedes, ne_eq, ite_not] at early late ⊢
  split at early
  · rename_i sameEarly
    rw [sameEarly]
    split at late
    · rename_i sameLate
      rw [if_pos sameLate]
      simp only [decide_eq_true_eq] at early late ⊢
      exact List.lt_trans late early
    · rename_i differLate
      rwa [if_neg differLate]
  · rename_i differEarly
    simp only [decide_eq_true_eq] at early
    split at late
    · rename_i sameLate
      rw [← sameLate, if_neg differEarly]
      simpa using early
    · simp only [decide_eq_true_eq] at late
      have chain := List.lt_trans late early
      rw [if_neg, decide_eq_true_eq]
      · exact chain
      · intro same
        rw [same] at chain
        exact List.lt_irrefl _ chain

theorem eq_of_not_supersedes {left right : NormalizedSourceConnection}
    (sameTriple : tripleKey left = tripleKey right) (notLeft : supersedes left right = false)
    (notRight : supersedes right left = false) : left = right := by
  rw [tripleKey_eq_iff] at sameTriple
  simp only [supersedes, ne_eq, ite_not] at notLeft notRight
  by_cases sameTime : left.observedAt = right.observedAt
  · rw [if_pos sameTime, decide_eq_false_iff_not] at notLeft
    rw [if_pos sameTime.symm, decide_eq_false_iff_not] at notRight
    apply NormalizedSourceConnection.ext
    · rfl
    · exact sameTriple.1
    · exact sameTriple.2.1
    · exact sameTriple.2.2
    · exact List.le_antisymm (List.not_lt.mp notLeft) (List.not_lt.mp notRight)
    · exact sameTime
  · rw [if_neg sameTime, decide_eq_false_iff_not] at notLeft
    rw [if_neg (Ne.symm sameTime), decide_eq_false_iff_not] at notRight
    exact absurd (List.le_antisymm (List.not_lt.mp notLeft) (List.not_lt.mp notRight)) sameTime

theorem best_candidates (values : List NormalizedSourceConnection) :
    OrderedMap.Best tripleKey supersedes values
      (values.foldl (OrderedMap.keepBest tripleKey supersedes) .empty) := by
  induction values using List.reverseRecOn with
  | nil => exact OrderedMap.best_empty
  | append_singleton values value ih =>
      rw [List.foldl_append]
      exact ih.keepBest supersedes_irrefl supersedes_trans value

def Challenged (kind : ConflictKind) (claims : List NormalizedSourceConnection)
    (claim : NormalizedSourceConnection) : Prop :=
  ∃ rival ∈ claims, kind.key rival = kind.key claim ∧ kind.member rival ≠ kind.member claim

def membersOf (kind : ConflictKind) (claims : List NormalizedSourceConnection)
    (claim : NormalizedSourceConnection) : List JsString :=
  distinctBy id ((claims.filter fun rival => kind.key rival = kind.key claim).map kind.member)

section Challenged

variable {kind : ConflictKind} {candidates : List NormalizedSourceConnection}
  {candidate : NormalizedSourceConnection}

theorem mem_membersOf {member : JsString} :
    member ∈ membersOf kind candidates candidate ↔
      ∃ rival ∈ candidates, kind.key rival = kind.key candidate ∧ kind.member rival = member := by
  simp only [membersOf, mem_distinctBy_id, List.mem_map, List.mem_filter, decide_eq_true_eq,
    and_assoc]

theorem membersOf_congr {other : NormalizedSourceConnection}
    (sameKey : kind.key other = kind.key candidate) :
    membersOf kind candidates other = membersOf kind candidates candidate := by
  rw [membersOf, sameKey, ← membersOf]

theorem get?_grouped (member : candidate ∈ candidates) :
    (grouped kind candidates).get? (kind.key candidate) =
      some (membersOf kind candidates candidate) := by
  rw [grouped, OrderedMap.get?_foldl_addToGroup, if_pos (List.mem_map_of_mem member),
    OrderedMap.get?_empty, Option.getD_none, foldl_addMember, membersOf]

theorem two_le_length_membersOf (member : candidate ∈ candidates) :
    2 ≤ (membersOf kind candidates candidate).length ↔ Challenged kind candidates candidate := by
  have own : kind.member candidate ∈ membersOf kind candidates candidate :=
    mem_membersOf.mpr ⟨candidate, member, rfl, rfl⟩
  constructor
  · intro several
    by_contra unchallenged
    have alone : membersOf kind candidates candidate ⊆ [kind.member candidate] := by
      intro found foundMem
      rcases mem_membersOf.mp foundMem with ⟨rival, rivalMem, sameKey, rfl⟩
      rw [List.mem_singleton]
      by_contra different
      exact unchallenged ⟨rival, rivalMem, sameKey, different⟩
    have short := (List.subperm_of_subset (nodup_distinctBy_id _) alone).length_le
    rw [List.length_singleton] at short
    rw [membersOf] at several
    omega
  · rintro ⟨rival, rivalMem, sameKey, different⟩
    have pair : [kind.member rival, kind.member candidate] ⊆
        membersOf kind candidates candidate := by
      intro found foundMem
      rw [List.mem_cons, List.mem_singleton] at foundMem
      rcases foundMem with rfl | rfl
      · exact mem_membersOf.mpr ⟨rival, rivalMem, sameKey, rfl⟩
      · exact own
    have nodup : [kind.member rival, kind.member candidate].Nodup := by simpa using different
    simpa using (List.subperm_of_subset nodup pair).length_le

def contested (kind : ConflictKind) (candidates : List NormalizedSourceConnection) :
    List NormalizedSourceConnection :=
  (distinctBy kind.key candidates).filter fun candidate =>
    2 ≤ (membersOf kind candidates candidate).length

def reportOn (host : SourceHost) (kind : ConflictKind) (claims : List NormalizedSourceConnection)
    (claim : NormalizedSourceConnection) : ConflictReport :=
  kind.report host claim (membersOf kind claims claim)

theorem foldl_poison (reported : List ConflictReport) :
    candidates.foldl (poison host kind (grouped kind candidates)) ⟨[], reported⟩ =
      { keys := (contested kind candidates).map kind.key
        conflicts := reported ++ (contested kind candidates).map (reportOn host kind candidates) } := by
  let enough (candidate : NormalizedSourceConnection) : Bool :=
    2 ≤ (membersOf kind candidates candidate).length
  have visited : ∀ front : List NormalizedSourceConnection, front ⊆ candidates →
      front.foldl (poison host kind (grouped kind candidates)) ⟨[], reported⟩ =
        { keys := ((distinctBy kind.key front).filter enough).map kind.key
          conflicts := reported ++
            ((distinctBy kind.key front).filter enough).map (reportOn host kind candidates) } := by
    intro front
    induction front using List.reverseRecOn with
    | nil => simp [distinctBy]
    | append_singleton front next ih =>
      intro listed
      rw [List.append_subset, List.cons_subset] at listed
      rw [List.foldl_append, ih listed.1, distinctBy_concat]
      simp only [List.foldl_cons, List.foldl_nil, poison, get?_grouped listed.2.1]
      by_cases several : enough next
      · have notFew : ¬(membersOf kind candidates next).length < 2 := by
          exact Nat.not_lt.mpr (of_decide_eq_true several)
        by_cases seen : kind.key next ∈ (distinctBy kind.key front).map kind.key
        · have poisoned : kind.key next ∈
              ((distinctBy kind.key front).filter enough).map kind.key := by
            rcases List.mem_map.mp seen with ⟨earlier, earlierMem, sameKey⟩
            have earlierSeveral : enough earlier = true := by
              simp only [enough, decide_eq_true_eq] at several ⊢
              rwa [membersOf_congr sameKey]
            exact List.mem_map.mpr ⟨earlier, List.mem_filter.mpr ⟨earlierMem, earlierSeveral⟩, sameKey⟩
          rw [if_pos poisoned, if_pos seen]
        · have notPoisoned : kind.key next ∉
              ((distinctBy kind.key front).filter enough).map kind.key := by
            intro poisoned
            exact seen (List.map_subset _ (List.filter_subset_self _) poisoned)
          rw [if_neg notPoisoned, if_neg seen, if_neg notFew, List.filter_append,
            List.filter_cons_of_pos several]
          simp [reportOn]
      · have few : (membersOf kind candidates next).length < 2 := by
          simp only [enough, decide_eq_true_eq, Nat.not_le] at several
          exact several
        rw [if_pos few, ite_self]
        split
        · rfl
        · rw [List.filter_append, List.filter_cons_of_neg several]
          simp
  exact visited candidates (List.Subset.refl _)

theorem mem_contested (member : candidate ∈ candidates) :
    kind.key candidate ∈ (contested kind candidates).map kind.key ↔
      Challenged kind candidates candidate := by
  rw [← two_le_length_membersOf member]
  simp only [contested, List.mem_map, List.mem_filter, decide_eq_true_eq]
  constructor
  · rintro ⟨first, ⟨firstMem, several⟩, sameKey⟩
    rwa [membersOf_congr sameKey] at several
  · intro several
    have seen : ((distinctBy kind.key candidates).find?
        fun first => kind.key first = kind.key candidate).isSome := by
      rw [find?_distinctBy, List.find?_isSome]
      exact ⟨candidate, member, by simp⟩
    rcases Option.isSome_iff_exists.mp seen with ⟨first, found⟩
    have sameKey : kind.key first = kind.key candidate := by simpa using List.find?_some found
    refine ⟨first, ⟨List.mem_of_find?_eq_some found, ?_⟩, sameKey⟩
    rwa [membersOf_congr sameKey]

end Challenged

instance (kind : ConflictKind) (claims : List NormalizedSourceConnection)
    (claim : NormalizedSourceConnection) : Decidable (Challenged kind claims claim) :=
  inferInstanceAs (Decidable (∃ rival ∈ claims, _))

/-- Nobody else claims the identity, and the person claims no other. -/
def Unchallenged (claims : List NormalizedSourceConnection) (claim : NormalizedSourceConnection) :
    Prop :=
  ∀ kind, ¬Challenged kind claims claim

instance (claims : List NormalizedSourceConnection) (claim : NormalizedSourceConnection) :
    Decidable (Unchallenged claims claim) :=
  decidable_of_iff
    (¬Challenged .externalIdentityClaimedByMultiplePeople claims claim ∧
      ¬Challenged .personClaimedInconsistently claims claim)
    ⟨fun neither kind => by cases kind; exacts [neither.1, neither.2],
      fun none => ⟨none _, none _⟩⟩

def reports (host : SourceHost) (kind : ConflictKind) (candidates : List NormalizedSourceConnection) :
    List ConflictReport :=
  (contested kind candidates).map (reportOn host kind candidates)

theorem normalizeSourceConnections_eq (records : List RawSourceRecord) :
    normalizeSourceConnections host records =
      let candidates := candidatesOf (valid host records)
      { accepted := (compareCandidates host).sort
          (candidates.filter fun candidate => Unchallenged candidates candidate)
        rejected := records.filterMap fun raw => rejection? (normalizeOne host raw)
        conflicts := (compareConflicts host).sort
          (reports host .externalIdentityClaimedByMultiplePeople candidates ++
            reports host .personClaimedInconsistently candidates) } := by
  have listed : ((valid host records).foldl (OrderedMap.keepBest tripleKey supersedes)
      .empty).values = candidatesOf (valid host records) := rfl
  simp only [normalizeSourceConnections, foldl_collect, List.nil_append, foldl_poison, listed]
  congr 2
  apply List.filter_congr
  intro candidate member
  have identity : identityKey candidate ∈ (contested .externalIdentityClaimedByMultiplePeople
      (candidatesOf (valid host records))).map (ConflictKind.key _) ↔ _ := mem_contested member
  have person : personKey candidate ∈ (contested .personClaimedInconsistently
      (candidatesOf (valid host records))).map (ConflictKind.key _) ↔ _ := mem_contested member
  rw [decide_eq_decide, identity, person]
  constructor
  · intro neither kind
    cases kind
    · exact neither.1
    · exact neither.2
  · intro none
    exact ⟨none _, none _⟩

section Candidates

variable {values : List NormalizedSourceConnection}

theorem mem_candidatesOf {candidate : NormalizedSourceConnection} :
    candidate ∈ candidatesOf values ↔
      candidate ∈ values ∧
        ∀ rival ∈ values, tripleKey rival = tripleKey candidate → supersedes rival candidate = false := by
  have best := best_candidates values
  rw [candidatesOf, OrderedMap.mem_values_keyed best.keyed]
  constructor
  · intro found
    exact ⟨best.listed _ _ found, best.best _ _ found⟩
  · rintro ⟨member, top⟩
    rcases Option.isSome_iff_exists.mp (best.held candidate member) with ⟨kept, found⟩
    have sameKey := best.keyed _ _ found
    have notAbove := best.best _ _ found candidate member rfl
    have notBelow := top kept (best.listed _ _ found) sameKey
    rw [found, eq_of_not_supersedes sameKey notBelow notAbove]

theorem exists_candidate {value : NormalizedSourceConnection} (member : value ∈ values) :
    ∃ candidate ∈ candidatesOf values, tripleKey candidate = tripleKey value := by
  have best := best_candidates values
  rcases Option.isSome_iff_exists.mp (best.held value member) with ⟨kept, found⟩
  have sameKey := best.keyed _ _ found
  refine ⟨kept, ?_, sameKey⟩
  rw [candidatesOf, OrderedMap.mem_values_keyed best.keyed, sameKey]
  exact found

theorem nodup_tripleKey_candidatesOf (values : List NormalizedSourceConnection) :
    ((candidatesOf values).map tripleKey).Nodup :=
  OrderedMap.nodup_map_values (best_candidates values).keyed

theorem key_eq_of_tripleKey_eq {left right : NormalizedSourceConnection}
    (same : tripleKey left = tripleKey right) (kind : ConflictKind) :
    kind.key left = kind.key right ∧ kind.member left = kind.member right := by
  rw [tripleKey_eq_iff] at same
  cases kind with
  | externalIdentityClaimedByMultiplePeople =>
    exact ⟨identityKey_eq_iff.mpr ⟨same.1, same.2.1⟩, same.2.2⟩
  | personClaimedInconsistently =>
    exact ⟨personKey_eq_iff.mpr ⟨same.1, same.2.2⟩, same.2.1⟩

theorem challenged_candidatesOf {kind : ConflictKind} {claim : NormalizedSourceConnection} :
    Challenged kind (candidatesOf values) claim ↔ Challenged kind values claim := by
  constructor
  · rintro ⟨rival, rivalMem, sameKey, different⟩
    exact ⟨rival, (mem_candidatesOf.mp rivalMem).1, sameKey, different⟩
  · rintro ⟨rival, rivalMem, sameKey, different⟩
    rcases exists_candidate rivalMem with ⟨candidate, member, sameTriple⟩
    have parts := key_eq_of_tripleKey_eq sameTriple kind
    exact ⟨candidate, member, parts.1.trans sameKey, parts.2 ▸ different⟩

theorem unchallenged_candidatesOf {claim : NormalizedSourceConnection} :
    Unchallenged (candidatesOf values) claim ↔ Unchallenged values claim := by
  simp only [Unchallenged, challenged_candidatesOf]

theorem challenged_congr {kind : ConflictKind} {left right : NormalizedSourceConnection}
    (same : tripleKey left = tripleKey right) :
    Challenged kind values left ↔ Challenged kind values right := by
  have parts := key_eq_of_tripleKey_eq same kind
  rw [Challenged, parts.1, parts.2, ← Challenged]

end Candidates

end StudentHub.Sources

/-!
## Links are one to one

An accepted candidate is the only claim on its identity and on its person in the whole
batch. A valid record whose triple is not accepted is shown by a report on what it
claims, so nothing is dropped without a trace.
-/

namespace StudentHub.Sources

open Ecma JsString Json

variable {host : SourceHost} {records : List RawSourceRecord}

/-- The report is about the identity or the person of the value, and shows the other. -/
def ConflictReport.Covers (host : SourceHost) (report : ConflictReport)
    (value : NormalizedSourceConnection) : Prop :=
  report.source = value.source ∧
    match report.kind with
    | .externalIdentityClaimedByMultiplePeople =>
        report.externalIdMasks = [maskIdentifier value.externalId] ∧
          personRef host value.personId ∈ report.personRefs
    | .personClaimedInconsistently =>
        maskIdentifier value.externalId ∈ report.externalIdMasks ∧
          report.personRefs = [personRef host value.personId]

theorem mem_sortedUnique {values : List JsString} {value : JsString} :
    value ∈ sortedUnique host values ↔ value ∈ values := by
  rw [sortedUnique, Comparator.mem_sort, mem_distinctBy_id]

theorem mem_accepted {candidate : NormalizedSourceConnection} :
    candidate ∈ (normalizeSourceConnections host records).accepted ↔
      candidate ∈ candidatesOf (valid host records) ∧
        Unchallenged (valid host records) candidate := by
  rw [normalizeSourceConnections_eq]
  simp only [Comparator.mem_sort, List.mem_filter, decide_eq_true_eq, unchallenged_candidatesOf]

theorem mem_conflicts {report : ConflictReport} :
    report ∈ (normalizeSourceConnections host records).conflicts ↔
      ∃ kind, report ∈ reports host kind (candidatesOf (valid host records)) := by
  rw [normalizeSourceConnections_eq]
  simp only [Comparator.mem_sort, List.mem_append]
  constructor
  · rintro (identity | person)
    · exact ⟨_, identity⟩
    · exact ⟨_, person⟩
  · rintro ⟨kind, listed⟩
    cases kind
    · exact Or.inl listed
    · exact Or.inr listed

theorem Unchallenged.same_iff {values : List NormalizedSourceConnection}
    {claim value : NormalizedSourceConnection} (unchallenged : Unchallenged values claim)
    (member : value ∈ values) (sameSource : value.source = claim.source) :
    value.externalId = claim.externalId ↔ value.personId = claim.personId := by
  constructor
  · intro sameIdentity
    by_contra different
    exact unchallenged .externalIdentityClaimedByMultiplePeople
      ⟨value, member, identityKey_eq_iff.mpr ⟨sameSource, sameIdentity⟩, different⟩
  · intro samePerson
    by_contra different
    exact unchallenged .personClaimedInconsistently
      ⟨value, member, personKey_eq_iff.mpr ⟨sameSource, samePerson⟩, different⟩

theorem covers_reportOn {kind : ConflictKind} {candidates : List NormalizedSourceConnection}
    {first candidate value : NormalizedSourceConnection} (member : candidate ∈ candidates)
    (sameTriple : tripleKey candidate = tripleKey value) (sameKey : kind.key first = kind.key value) :
    (reportOn host kind candidates first).Covers host value := by
  have parts := key_eq_of_tripleKey_eq sameTriple kind
  have listed : kind.member value ∈ membersOf kind candidates first :=
    mem_membersOf.mpr ⟨candidate, member, parts.1.trans sameKey.symm, parts.2⟩
  cases kind with
  | externalIdentityClaimedByMultiplePeople =>
    have identity := identityKey_eq_iff.mp sameKey
    refine ⟨identity.1, ?_, ?_⟩
    · simp only [reportOn, ConflictKind.report, identity.2]
    · apply mem_sortedUnique.mpr
      exact List.mem_map_of_mem listed
  | personClaimedInconsistently =>
    have person := personKey_eq_iff.mp sameKey
    refine ⟨person.1, ?_, ?_⟩
    · apply mem_sortedUnique.mpr
      exact List.mem_map_of_mem listed
    · simp only [reportOn, ConflictKind.report, person.2]

theorem exists_report {kind : ConflictKind} {value : NormalizedSourceConnection}
    (member : value ∈ valid host records) (challenged : Challenged kind (valid host records) value) :
    ∃ report ∈ (normalizeSourceConnections host records).conflicts, report.Covers host value := by
  rcases exists_candidate member with ⟨candidate, candidateMem, sameTriple⟩
  have candidateChallenged : Challenged kind (candidatesOf (valid host records)) candidate := by
    rw [challenged_candidatesOf, challenged_congr sameTriple]
    exact challenged
  have named := (mem_contested candidateMem).mpr candidateChallenged
  rcases List.mem_map.mp named with ⟨first, firstMem, sameKey⟩
  refine ⟨_, mem_conflicts.mpr ⟨kind, List.mem_map_of_mem firstMem⟩, ?_⟩
  exact covers_reportOn candidateMem sameTriple
    (sameKey.trans (key_eq_of_tripleKey_eq sameTriple kind).1)

theorem nodup_tripleKey_accepted (host : SourceHost) (records : List RawSourceRecord) :
    ((normalizeSourceConnections host records).accepted.map tripleKey).Nodup := by
  rw [normalizeSourceConnections_eq, (Comparator.sort_perm.map tripleKey).nodup_iff]
  refine List.Nodup.sublist ?_ (nodup_tripleKey_candidatesOf (valid host records))
  apply List.Sublist.map
  exact List.filter_sublist

/-- What a batch becomes: the accepted candidates link accounts and persons one to one, also
against every valid record; each valid record is accepted or reported; and what is accepted
or rejected comes from a record. -/
theorem links_one_to_one (host : SourceHost) (records : List RawSourceRecord) :
    (normalizeSourceConnections host records).accepted.Pairwise (fun left right =>
      left.source = right.source →
        left.externalId ≠ right.externalId ∧ left.personId ≠ right.personId) ∧
    (∀ accepted ∈ (normalizeSourceConnections host records).accepted,
      ∀ value ∈ valid host records, value.source = accepted.source →
        (value.externalId = accepted.externalId ↔ value.personId = accepted.personId)) ∧
    (∀ value ∈ valid host records,
      (∃ accepted ∈ (normalizeSourceConnections host records).accepted,
        tripleKey accepted = tripleKey value) ∨
      ∃ report ∈ (normalizeSourceConnections host records).conflicts, report.Covers host value) ∧
    (∀ accepted ∈ (normalizeSourceConnections host records).accepted,
      ∃ raw ∈ records, normalizeOne host raw = .ok accepted) ∧
    (normalizeSourceConnections host records).rejected =
      records.filterMap fun raw => rejection? (normalizeOne host raw) := by
  have agree : ∀ accepted ∈ (normalizeSourceConnections host records).accepted,
      ∀ value ∈ valid host records, value.source = accepted.source →
        (value.externalId = accepted.externalId ↔ value.personId = accepted.personId) := by
    intro accepted member value valueMem
    exact (mem_accepted.mp member).2.same_iff valueMem
  have fromValid : ∀ accepted ∈ (normalizeSourceConnections host records).accepted,
      accepted ∈ valid host records := by
    intro accepted member
    exact (mem_candidatesOf.mp (mem_accepted.mp member).1).1
  refine ⟨?_, agree, ?_, ?_, ?_⟩
  · have distinct := List.pairwise_map.mp (nodup_tripleKey_accepted host records)
    apply distinct.imp_of_mem
    intro left right leftMem rightMem different sameSource
    have iff := agree right rightMem left (fromValid left leftMem) sameSource
    constructor
    · intro sameIdentity
      exact different (tripleKey_eq_iff.mpr ⟨sameSource, sameIdentity, iff.mp sameIdentity⟩)
    · intro samePerson
      exact different (tripleKey_eq_iff.mpr ⟨sameSource, iff.mpr samePerson, samePerson⟩)
  · intro value member
    by_cases unchallenged : Unchallenged (valid host records) value
    · left
      rcases exists_candidate member with ⟨candidate, candidateMem, sameTriple⟩
      refine ⟨candidate, mem_accepted.mpr ⟨candidateMem, ?_⟩, sameTriple⟩
      intro kind
      rw [challenged_congr sameTriple]
      exact unchallenged kind
    · right
      rw [Unchallenged, not_forall] at unchallenged
      rcases unchallenged with ⟨kind, challenged⟩
      exact exists_report member (not_not.mp challenged)
  · intro accepted member
    exact mem_valid.mp (fromValid accepted member)
  · rw [normalizeSourceConnections_eq]

end StudentHub.Sources
