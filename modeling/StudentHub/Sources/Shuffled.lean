import StudentHub.Sources.Normalize

/-!
# Shuffled batches

Whether the outcome of a batch depends on the order of its records. The candidates are the
same for every order, only listed in another one, and the sorts restore one order if none
of the things they sort tie. `localeCompare` does tie: canonically equivalent strings are
equal for it, and so are strings that differ in ignorable characters.
-/

namespace StudentHub.Sources

open Ecma JsString Json

variable {host : SourceHost}

/-- No order of the records and no repetition of some changes what is accepted or reported. -/
def OrderIndependent (host : SourceHost) (records : List RawSourceRecord) : Prop :=
  ∀ again : List RawSourceRecord, records.Subperm again → again ⊆ records →
    (normalizeSourceConnections host again).accepted =
        (normalizeSourceConnections host records).accepted ∧
      (normalizeSourceConnections host again).conflicts =
        (normalizeSourceConnections host records).conflicts

def LabelsUntied (host : SourceHost) (claims : List NormalizedSourceConnection) : Prop :=
  ∀ kind : ConflictKind, ∀ left ∈ claims, ∀ right ∈ claims, kind.key left = kind.key right →
    host.localeCompare.compare (kind.label host (kind.member left))
        (kind.label host (kind.member right)) = 0 →
      kind.label host (kind.member left) = kind.label host (kind.member right)

/-- Different things that are sorted do not tie. -/
structure Untied (host : SourceHost) (claims : List NormalizedSourceConnection) : Prop where
  links : ∀ left ∈ claims, ∀ right ∈ claims, Unchallenged claims left → Unchallenged claims right →
    (compareCandidates host).compare left right = 0 → tripleKey left = tripleKey right
  labels : LabelsUntied host claims
  reports : ∀ kind : ConflictKind, ∀ left ∈ claims, ∀ right ∈ claims,
    Challenged kind claims left → Challenged kind claims right →
    (compareConflicts host).compare (reportOn host kind claims left)
        (reportOn host kind claims right) = 0 →
      reportOn host kind claims left = reportOn host kind claims right

def labelsOn (host : SourceHost) (kind : ConflictKind) (claims : List NormalizedSourceConnection)
    (claim : NormalizedSourceConnection) : List JsString :=
  sortedUnique host ((membersOf kind claims claim).map (kind.label host))

theorem reportOn_eq_of_labelsOn {kind : ConflictKind}
    {claims others : List NormalizedSourceConnection} {claim other : NormalizedSourceConnection}
    (sameKey : kind.key claim = kind.key other)
    (sameLabels : labelsOn host kind claims claim = labelsOn host kind others other) :
    reportOn host kind claims claim = reportOn host kind others other := by
  simp only [labelsOn] at sameLabels
  cases kind with
  | externalIdentityClaimedByMultiplePeople =>
    have identity := identityKey_eq_iff.mp sameKey
    simp only [ConflictKind.label] at sameLabels
    simp only [reportOn, ConflictKind.report, identity.1, identity.2, sameLabels]
  | personClaimedInconsistently =>
    have person := personKey_eq_iff.mp sameKey
    simp only [ConflictKind.label] at sameLabels
    simp only [reportOn, ConflictKind.report, person.1, person.2, sameLabels]

theorem sortedUnique_congr {left right : List JsString} (same : ∀ value, value ∈ left ↔ value ∈ right)
    (untied : ∀ one ∈ left, ∀ two ∈ left, host.localeCompare.compare one two = 0 → one = two) :
    sortedUnique host left = sortedUnique host right := by
  apply Comparator.sort_eq_of_perm
  · rw [List.perm_ext_iff_of_nodup (nodup_distinctBy_id left) (nodup_distinctBy_id right)]
    intro value
    rw [mem_distinctBy_id, mem_distinctBy_id]
    exact same value
  · intro one oneMem two twoMem
    exact untied one (mem_distinctBy_id.mp oneMem) two (mem_distinctBy_id.mp twoMem)

theorem reportOn_congr {kind : ConflictKind} {claims others : List NormalizedSourceConnection}
    (untied : LabelsUntied host claims) (covered : ∀ claim ∈ claims, ∃ other ∈ others,
      tripleKey other = tripleKey claim)
    (covers : ∀ other ∈ others, ∃ claim ∈ claims, tripleKey claim = tripleKey other)
    {claim other : NormalizedSourceConnection} (sameKey : kind.key claim = kind.key other) :
    reportOn host kind claims claim = reportOn host kind others other := by
  apply reportOn_eq_of_labelsOn sameKey
  apply sortedUnique_congr
  · intro label
    simp only [List.mem_map, mem_membersOf]
    constructor
    · rintro ⟨_, ⟨rival, rivalMem, rivalKey, rfl⟩, rfl⟩
      rcases covered rival rivalMem with ⟨counterpart, counterpartMem, sameTriple⟩
      have parts := key_eq_of_tripleKey_eq sameTriple kind
      exact ⟨_, ⟨counterpart, counterpartMem, (parts.1.trans rivalKey).trans sameKey, parts.2⟩, rfl⟩
    · rintro ⟨_, ⟨rival, rivalMem, rivalKey, rfl⟩, rfl⟩
      rcases covers rival rivalMem with ⟨counterpart, counterpartMem, sameTriple⟩
      have parts := key_eq_of_tripleKey_eq sameTriple kind
      exact ⟨_, ⟨counterpart, counterpartMem, (parts.1.trans rivalKey).trans sameKey.symm, parts.2⟩,
        rfl⟩
  · simp only [List.mem_map, mem_membersOf]
    rintro _ ⟨_, ⟨one, oneMem, oneKey, rfl⟩, rfl⟩ _ ⟨_, ⟨two, twoMem, twoKey, rfl⟩, rfl⟩ tie
    exact untied kind one oneMem two twoMem (oneKey.trans twoKey.symm) tie

section Untied

variable {records again : List RawSourceRecord}

theorem mem_valid_congr (same : ∀ raw, raw ∈ again ↔ raw ∈ records)
    {value : NormalizedSourceConnection} :
    value ∈ valid host again ↔ value ∈ valid host records := by
  simp only [mem_valid, same]

theorem candidatesOf_perm {values others : List NormalizedSourceConnection}
    (same : ∀ value, value ∈ values ↔ value ∈ others) :
    (candidatesOf values).Perm (candidatesOf others) := by
  rw [List.perm_ext_iff_of_nodup (nodup_tripleKey_candidatesOf values).of_map
    (nodup_tripleKey_candidatesOf others).of_map]
  intro candidate
  simp only [mem_candidatesOf, same]

theorem challenged_of_mem_iff {values others : List NormalizedSourceConnection}
    (same : ∀ value, value ∈ values ↔ value ∈ others) {kind : ConflictKind}
    {claim : NormalizedSourceConnection} :
    Challenged kind values claim ↔ Challenged kind others claim := by
  simp only [Challenged, same]

theorem reportOn_candidatesOf {values others : List NormalizedSourceConnection} {kind : ConflictKind}
    (untied : LabelsUntied host values) (same : ∀ value, value ∈ others ↔ value ∈ values)
    {claim other : NormalizedSourceConnection} (sameKey : kind.key claim = kind.key other) :
    reportOn host kind values claim = reportOn host kind (candidatesOf others) other := by
  apply reportOn_congr untied _ _ sameKey
  · intro value member
    exact exists_candidate ((same value).mpr member)
  · intro candidate member
    exact ⟨candidate, (same candidate).mp (mem_candidatesOf.mp member).1, rfl⟩

theorem exists_claim_of_contested {kind : ConflictKind} {candidates : List NormalizedSourceConnection}
    {candidate : NormalizedSourceConnection} (member : candidate ∈ contested kind candidates) :
    candidate ∈ candidates ∧ Challenged kind candidates candidate := by
  have kept := List.mem_filter.mp member
  have listed := (distinctBy_sublist _ _).subset kept.1
  exact ⟨listed, (two_le_length_membersOf listed).mp (by simpa using kept.2)⟩

theorem nodup_contested (kind : ConflictKind) (candidates : List NormalizedSourceConnection) :
    ((contested kind candidates).map kind.key).Nodup :=
  (nodup_map_distinctBy kind.key candidates).sublist (List.filter_sublist.map _)

theorem mem_keys_contested {values : List NormalizedSourceConnection} {kind : ConflictKind}
    {key : JsString} :
    key ∈ (contested kind (candidatesOf values)).map kind.key ↔
      ∃ value ∈ values, kind.key value = key ∧ Challenged kind values value := by
  constructor
  · intro listed
    rcases List.mem_map.mp listed with ⟨candidate, member, rfl⟩
    rcases exists_claim_of_contested member with ⟨candidateMem, challenged⟩
    exact ⟨candidate, (mem_candidatesOf.mp candidateMem).1, rfl, challenged_candidatesOf.mp challenged⟩
  · rintro ⟨value, member, rfl, challenged⟩
    rcases exists_candidate member with ⟨candidate, candidateMem, sameTriple⟩
    rw [← (key_eq_of_tripleKey_eq sameTriple kind).1, mem_contested candidateMem,
      challenged_candidatesOf, challenged_congr sameTriple]
    exact challenged

theorem reports_perm (untied : Untied host (valid host records))
    (same : ∀ raw, raw ∈ again ↔ raw ∈ records) (kind : ConflictKind) :
    (reports host kind (candidatesOf (valid host records))).Perm
      (reports host kind (candidatesOf (valid host again))) := by
  have sameValid : ∀ value, value ∈ valid host again ↔ value ∈ valid host records := fun value =>
    mem_valid_congr same
  apply perm_map_of_perm_keys (nodup_contested kind _)
  · rw [List.perm_ext_iff_of_nodup (nodup_contested kind _) (nodup_contested kind _)]
    intro key
    simp only [mem_keys_contested, sameValid, challenged_of_mem_iff sameValid]
  · intro candidate _ other _ sameKey
    have here := reportOn_candidatesOf untied.labels (fun _ => Iff.rfl) (rfl : kind.key candidate = _)
    rw [← here]
    exact reportOn_candidatesOf untied.labels sameValid sameKey

theorem kind_of_mem_reports {kind : ConflictKind} {candidates : List NormalizedSourceConnection}
    {report : ConflictReport} (member : report ∈ reports host kind candidates) :
    report.kind = kind := by
  rcases List.mem_map.mp member with ⟨candidate, -, rfl⟩
  cases kind <;> rfl

def passOrder : Comparator ConflictReport :=
  (Comparator.ofOrder ℕ).onKey fun report =>
    match report.kind with
    | .externalIdentityClaimedByMultiplePeople => 0
    | .personClaimedInconsistently => 1

theorem pairwise_passOrder (candidates : List NormalizedSourceConnection) :
    (reports host .externalIdentityClaimedByMultiplePeople candidates ++
      reports host .personClaimedInconsistently candidates).Pairwise
        fun left right => passOrder.compare left right ≤ 0 := by
  apply List.pairwise_append.mpr
  refine ⟨?_, ?_, ?_⟩
  · apply List.pairwise_of_forall_mem_list
    intro left leftMem right rightMem
    simp [passOrder, Comparator.onKey, Comparator.ofOrder, kind_of_mem_reports leftMem,
      kind_of_mem_reports rightMem]
  · apply List.pairwise_of_forall_mem_list
    intro left leftMem right rightMem
    simp [passOrder, Comparator.onKey, Comparator.ofOrder, kind_of_mem_reports leftMem,
      kind_of_mem_reports rightMem]
  · intro left leftMem right rightMem
    simp [passOrder, Comparator.onKey, Comparator.ofOrder, kind_of_mem_reports leftMem,
      kind_of_mem_reports rightMem]

theorem kind_eq_of_passOrder {left right : ConflictReport}
    (tie : passOrder.compare left right = 0) : left.kind = right.kind := by
  have sameRank := Comparator.eq_of_ofOrder_compare_eq_zero tie
  cases leftKind : left.kind <;> cases rightKind : right.kind <;> simp_all

theorem eq_of_tied_reports (untied : Untied host (valid host records)) {kind : ConflictKind}
    {left right : ConflictReport}
    (leftMem : left ∈ reports host kind (candidatesOf (valid host records)))
    (rightMem : right ∈ reports host kind (candidatesOf (valid host records)))
    (tie : (compareConflicts host).compare left right = 0) : left = right := by
  rcases List.mem_map.mp leftMem with ⟨one, oneMem, rfl⟩
  rcases List.mem_map.mp rightMem with ⟨two, twoMem, rfl⟩
  rcases exists_claim_of_contested oneMem with ⟨oneListed, oneChallenged⟩
  rcases exists_claim_of_contested twoMem with ⟨twoListed, twoChallenged⟩
  rw [← reportOn_candidatesOf untied.labels (fun _ => Iff.rfl) (rfl : kind.key one = _),
    ← reportOn_candidatesOf untied.labels (fun _ => Iff.rfl) (rfl : kind.key two = _)] at tie ⊢
  exact untied.reports kind one (mem_candidatesOf.mp oneListed).1 two (mem_candidatesOf.mp twoListed).1
    (challenged_candidatesOf.mp oneChallenged) (challenged_candidatesOf.mp twoChallenged) tie

theorem conflicts_eq (untied : Untied host (valid host records))
    (same : ∀ raw, raw ∈ again ↔ raw ∈ records) :
    (normalizeSourceConnections host again).conflicts =
      (normalizeSourceConnections host records).conflicts := by
  rw [normalizeSourceConnections_eq, normalizeSourceConnections_eq]
  simp only
  rw [← Comparator.sort_orElse_of_pairwise (pairwise_passOrder _),
    ← Comparator.sort_orElse_of_pairwise (pairwise_passOrder (candidatesOf (valid host records)))]
  symm
  apply Comparator.sort_eq_of_perm
  · exact (reports_perm untied same _).append (reports_perm untied same _)
  · intro left leftMem right rightMem tie
    rcases Comparator.orElse_compare_eq_zero tie with ⟨conflictTie, passTie⟩
    have sameKind := kind_eq_of_passOrder passTie
    rw [List.mem_append] at leftMem rightMem
    rcases leftMem with leftIdentity | leftPerson
    · rcases rightMem with rightIdentity | rightPerson
      · exact eq_of_tied_reports untied leftIdentity rightIdentity conflictTie
      · rw [kind_of_mem_reports leftIdentity, kind_of_mem_reports rightPerson] at sameKind
        contradiction
    · rcases rightMem with rightIdentity | rightPerson
      · rw [kind_of_mem_reports leftPerson, kind_of_mem_reports rightIdentity] at sameKind
        contradiction
      · exact eq_of_tied_reports untied leftPerson rightPerson conflictTie

theorem accepted_eq (untied : Untied host (valid host records))
    (same : ∀ raw, raw ∈ again ↔ raw ∈ records) :
    (normalizeSourceConnections host again).accepted =
      (normalizeSourceConnections host records).accepted := by
  have sameValid : ∀ value, value ∈ valid host records ↔ value ∈ valid host again := fun value =>
    (mem_valid_congr same).symm
  rw [normalizeSourceConnections_eq, normalizeSourceConnections_eq]
  simp only
  symm
  apply Comparator.sort_eq_of_perm
  · have sameFilter : (fun candidate => decide (Unchallenged (candidatesOf (valid host again))
        candidate)) = fun candidate => decide (Unchallenged (candidatesOf (valid host records))
          candidate) := by
      funext candidate
      rw [decide_eq_decide, unchallenged_candidatesOf, unchallenged_candidatesOf]
      simp only [Unchallenged, challenged_of_mem_iff sameValid]
    rw [sameFilter]
    exact (candidatesOf_perm sameValid).filter _
  · intro left leftMem right rightMem tie
    simp only [List.mem_filter, decide_eq_true_eq, unchallenged_candidatesOf] at leftMem rightMem
    have sameTriple := untied.links left (mem_candidatesOf.mp leftMem.1).1 right
      (mem_candidatesOf.mp rightMem.1).1 leftMem.2 rightMem.2 tie
    exact List.inj_on_of_nodup_map (nodup_tripleKey_candidatesOf _) leftMem.1 rightMem.1 sameTriple

end Untied

section Moved

variable {records : List RawSourceRecord} {front : NormalizedSourceConnection → Bool}

def isFront (host : SourceHost) (front : NormalizedSourceConnection → Bool) (raw : RawSourceRecord) :
    Bool :=
  match normalizeOne host raw with
  | .ok value => front value
  | .error _ => false

def moved (host : SourceHost) (front : NormalizedSourceConnection → Bool)
    (records : List RawSourceRecord) : List RawSourceRecord :=
  records.filter (isFront host front) ++ records.filter fun raw => !isFront host front raw

theorem moved_perm : (moved host front records).Perm records := List.filter_append_perm _ _

theorem mem_valid_moved {value : NormalizedSourceConnection} :
    value ∈ valid host (moved host front records) ↔ value ∈ valid host records :=
  mem_valid_congr fun _ => moved_perm.mem_iff

def ByTriple (front : NormalizedSourceConnection → Bool) : Prop :=
  ∀ left right, tripleKey left = tripleKey right → front left = front right

theorem inFront_candidatesOf (byTriple : ByTriple front) :
    InFront front (candidatesOf (valid host (moved host front records))) := by
  have inFront : InFront front (valid host (moved host front records)) := by
    rw [valid, moved, List.filterMap_append]
    apply InFront.append
    · intro value member
      rcases mem_valid.mp member with ⟨raw, rawMem, normalized⟩
      have isFirst := (List.mem_filter.mp rawMem).2
      rwa [isFront, normalized] at isFirst
    · intro value member
      rcases mem_valid.mp member with ⟨raw, rawMem, normalized⟩
      have isLater := (List.mem_filter.mp rawMem).2
      rw [isFront, normalized] at isLater
      simpa using isLater
  have best := best_candidates (valid host (moved host front records))
  apply inFront.of_keys _ byTriple
  rw [candidatesOf, OrderedMap.map_values_eq_keys best.keyed]
  exact best.inOrder

theorem OrderIndependent.moved_eq (independent : OrderIndependent host records)
    (front : NormalizedSourceConnection → Bool) :
    (normalizeSourceConnections host (moved host front records)).accepted =
        (normalizeSourceConnections host records).accepted ∧
      (normalizeSourceConnections host (moved host front records)).conflicts =
        (normalizeSourceConnections host records).conflicts :=
  independent _ moved_perm.symm.subperm moved_perm.subset

theorem unchallenged_moved {claim : NormalizedSourceConnection} :
    Unchallenged (candidatesOf (valid host (moved host front records))) claim ↔
      Unchallenged (valid host records) claim := by
  rw [unchallenged_candidatesOf]
  simp only [Unchallenged, challenged_of_mem_iff fun _ => mem_valid_moved]

theorem first_accepted (byTriple : ByTriple front) {wanted value : NormalizedSourceConnection}
    (member : value ∈ valid host records) (unchallenged : Unchallenged (valid host records) value)
    (tie : (compareCandidates host).compare wanted value = 0) (isFirst : front value = true) :
    ∃ first rest, ((normalizeSourceConnections host (moved host front records)).accepted.filter
        fun candidate => (compareCandidates host).compare wanted candidate = 0) = first :: rest ∧
      front first = true := by
  rw [normalizeSourceConnections_eq]
  simp only
  rw [Comparator.filter_sort_of_tied, List.filter_filter]
  · rcases exists_candidate (mem_valid_moved.mpr member : value ∈ valid host (moved host front records))
      with ⟨candidate, candidateMem, sameTriple⟩
    apply (inFront_candidatesOf byTriple).head_filter candidateMem
    · have parts := tripleKey_eq_iff.mp sameTriple
      have candidateUnchallenged : Unchallenged (valid host records) candidate := by
        intro kind
        rw [challenged_congr sameTriple]
        exact unchallenged kind
      have candidateTie : (compareCandidates host).compare wanted candidate = 0 := by
        rw [← tie]
        apply Comparator.orElse_compare_congr
        · apply Comparator.orElse_compare_congr
          · simp only [Comparator.onKey, parts.1]
          · simp only [Comparator.onKey, parts.2.1]
        · simp only [Comparator.onKey, parts.2.2]
      simp only [candidateTie, unchallenged_moved, candidateUnchallenged, decide_true, Bool.and_self]
    · rw [byTriple _ _ sameTriple]
      exact isFirst
  · intro left _ right _ leftTie rightTie
    simp only [decide_eq_true_eq] at leftTie rightTie
    exact (compareCandidates host).tie_trans ((compareCandidates host).tie_symm leftTie) rightTie

theorem untied_links (independent : OrderIndependent host records)
    {left right : NormalizedSourceConnection} (leftMem : left ∈ valid host records)
    (rightMem : right ∈ valid host records) (leftFree : Unchallenged (valid host records) left)
    (rightFree : Unchallenged (valid host records) right)
    (tie : (compareCandidates host).compare left right = 0) : tripleKey left = tripleKey right := by
  have byTriple : ∀ value, ByTriple fun candidate => tripleKey candidate = tripleKey value := by
    intro value one two same
    simp only [same]
  rcases first_accepted (byTriple left) leftMem leftFree ((compareCandidates host).refl left)
    (by simp) with ⟨first, rest, leftFirst, isLeft⟩
  rcases first_accepted (byTriple right) rightMem rightFree tie (by simp) with
    ⟨other, others, rightFirst, isRight⟩
  rw [(independent.moved_eq _).1] at leftFirst rightFirst
  rw [leftFirst, List.cons.injEq] at rightFirst
  rw [rightFirst.1, decide_eq_true_eq] at isLeft
  rw [decide_eq_true_eq] at isRight
  exact isLeft.symm.trans isRight

theorem first_label {kind : ConflictKind} {wanted label : JsString}
    {candidates : List NormalizedSourceConnection} {claim : NormalizedSourceConnection}
    (inFront : InFront (fun candidate => kind.label host (kind.member candidate) = label) candidates)
    (listed : label ∈ labelsOn host kind candidates claim)
    (tie : host.localeCompare.compare wanted label = 0) :
    ∃ rest, ((labelsOn host kind candidates claim).filter
      fun other => host.localeCompare.compare wanted other = 0) = label :: rest := by
  have labelsInFront : InFront (fun other => other = label)
      (distinctBy id ((membersOf kind candidates claim).map (kind.label host))) := by
    apply List.Pairwise.sublist (distinctBy_sublist _ _)
    rw [List.pairwise_map]
    apply List.Pairwise.sublist (distinctBy_sublist _ _)
    rw [List.pairwise_map]
    exact List.Pairwise.sublist List.filter_sublist inFront
  rw [labelsOn, sortedUnique, Comparator.filter_sort_of_tied]
  · rw [labelsOn, mem_sortedUnique] at listed
    let select (other : JsString) : Bool := host.localeCompare.compare wanted other = 0
    have selected : select label = true := decide_eq_true tie
    rcases labelsInFront.head_filter (mem_distinctBy_id.mpr listed) selected (decide_eq_true rfl)
      with ⟨first, rest, split, isLabel⟩
    rw [split, of_decide_eq_true isLabel]
    exact ⟨rest, rfl⟩
  · intro left _ right _ leftTie rightTie
    simp only [decide_eq_true_eq] at leftTie rightTie
    exact host.localeCompare.tie_trans (host.localeCompare.tie_symm leftTie) rightTie

def ConflictReport.labels (report : ConflictReport) : List JsString :=
  match report.kind with
  | .externalIdentityClaimedByMultiplePeople => report.personRefs
  | .personClaimedInconsistently => report.externalIdMasks

theorem labels_reportOn (kind : ConflictKind) (candidates : List NormalizedSourceConnection)
    (claim : NormalizedSourceConnection) :
    (reportOn host kind candidates claim).labels = labelsOn host kind candidates claim := by
  cases kind <;> rfl

theorem byTriple_label (kind : ConflictKind) (label : JsString) :
    ByTriple fun candidate => kind.label host (kind.member candidate) = label := by
  intro left right same
  simp only [(key_eq_of_tripleKey_eq same kind).2]

theorem exists_report_labels {kind : ConflictKind} {value : NormalizedSourceConnection}
    (member : value ∈ valid host records) (challenged : Challenged kind (valid host records) value) :
    ∃ report ∈ (normalizeSourceConnections host records).conflicts, report.kind = kind ∧
      ∀ rival ∈ valid host records, kind.key rival = kind.key value →
        kind.label host (kind.member rival) ∈ report.labels := by
  have named := mem_keys_contested.mpr ⟨value, member, rfl, challenged⟩
  rcases List.mem_map.mp named with ⟨first, firstMem, sameKey⟩
  have listed : reportOn host kind (candidatesOf (valid host records)) first ∈
      reports host kind (candidatesOf (valid host records)) := List.mem_map_of_mem firstMem
  refine ⟨_, mem_conflicts.mpr ⟨kind, listed⟩, kind_of_mem_reports listed, ?_⟩
  intro rival rivalMem rivalKey
  rcases exists_candidate rivalMem with ⟨candidate, candidateMem, sameTriple⟩
  have parts := key_eq_of_tripleKey_eq sameTriple kind
  rw [labels_reportOn, labelsOn, mem_sortedUnique, ← parts.2]
  apply List.mem_map_of_mem
  exact mem_membersOf.mpr ⟨candidate, candidateMem, (parts.1.trans rivalKey).trans sameKey.symm, rfl⟩

theorem first_label_of_mem {kind : ConflictKind} {wanted label : JsString}
    (independent : OrderIndependent host records)
    (tie : host.localeCompare.compare wanted label = 0) {report : ConflictReport}
    (member : report ∈ (normalizeSourceConnections host records).conflicts)
    (sameKind : report.kind = kind) (listed : label ∈ report.labels) :
    ∃ rest, (report.labels.filter
      fun other => host.localeCompare.compare wanted other = 0) = label :: rest := by
  rw [← (independent.moved_eq fun candidate =>
    kind.label host (kind.member candidate) = label).2] at member
  rcases mem_conflicts.mp member with ⟨reportKind, inReports⟩
  have same : reportKind = kind := (kind_of_mem_reports inReports).symm.trans sameKind
  subst same
  rcases List.mem_map.mp inReports with ⟨claim, -, rfl⟩
  rw [labels_reportOn] at listed ⊢
  exact first_label (inFront_candidatesOf (byTriple_label reportKind label)) listed tie

theorem untied_labels (independent : OrderIndependent host records) {kind : ConflictKind}
    {left right : NormalizedSourceConnection} (leftMem : left ∈ valid host records)
    (rightMem : right ∈ valid host records) (sameKey : kind.key left = kind.key right)
    (tie : host.localeCompare.compare (kind.label host (kind.member left))
      (kind.label host (kind.member right)) = 0) :
    kind.label host (kind.member left) = kind.label host (kind.member right) := by
  by_cases sameMember : kind.member right = kind.member left
  · rw [sameMember]
  · have challenged : Challenged kind (valid host records) left :=
      ⟨right, rightMem, sameKey.symm, sameMember⟩
    rcases exists_report_labels leftMem challenged with ⟨report, reportMem, isKind, lists⟩
    rcases first_label_of_mem independent (host.localeCompare.refl _) reportMem isKind
      (lists left leftMem rfl) with ⟨rest, leftFirst⟩
    rcases first_label_of_mem independent tie reportMem isKind
      (lists right rightMem sameKey.symm) with ⟨others, rightFirst⟩
    rw [leftFirst, List.cons.injEq] at rightFirst
    exact rightFirst.1

theorem filter_reports {kind : ConflictKind} {candidates : List NormalizedSourceConnection}
    {select : ConflictReport → Bool} (ofKind : ∀ report, select report = true → report.kind = kind) :
    (reports host .externalIdentityClaimedByMultiplePeople candidates ++
      reports host .personClaimedInconsistently candidates).filter select =
        (reports host kind candidates).filter select := by
  have others : ∀ other, other ≠ kind → (reports host other candidates).filter select = [] := by
    intro other different
    rw [List.filter_eq_nil_iff]
    intro report member selected
    exact different ((kind_of_mem_reports member).symm.trans (ofKind report selected))
  rw [List.filter_append]
  cases kind with
  | externalIdentityClaimedByMultiplePeople => rw [others .personClaimedInconsistently (by simp),
      List.append_nil]
  | personClaimedInconsistently => rw [others .externalIdentityClaimedByMultiplePeople (by simp),
      List.nil_append]

theorem byTriple_key (kind : ConflictKind) (key : JsString) :
    ByTriple fun candidate => kind.key candidate = key := by
  intro left right same
  simp only [(key_eq_of_tripleKey_eq same kind).1]

theorem first_report (untied : LabelsUntied host (valid host records)) {kind : ConflictKind}
    {wanted : ConflictReport} {value : NormalizedSourceConnection}
    (member : value ∈ valid host records) (challenged : Challenged kind (valid host records) value)
    (tie : (compareConflicts host).compare wanted
      (reportOn host kind (valid host records) value) = 0) :
    ∃ rest, ((normalizeSourceConnections host (moved host (fun candidate =>
        kind.key candidate = kind.key value) records)).conflicts.filter fun report =>
      report.kind = kind ∧ (compareConflicts host).compare wanted report = 0) =
        reportOn host kind (valid host records) value :: rest := by
  let front (candidate : NormalizedSourceConnection) : Bool := kind.key candidate = kind.key value
  let candidates := candidatesOf (valid host (moved host front records))
  let select (report : ConflictReport) : Bool :=
    report.kind = kind ∧ (compareConflicts host).compare wanted report = 0
  have reportSame : ∀ claim other, kind.key claim = kind.key other →
      reportOn host kind (valid host records) claim = reportOn host kind candidates other :=
    fun _ _ sameKey => reportOn_candidatesOf untied (fun _ => mem_valid_moved) sameKey
  have allInFront : InFront front candidates := inFront_candidatesOf (byTriple_key kind _)
  have inFront : InFront front (contested kind candidates) :=
    List.Pairwise.sublist (List.filter_sublist.trans (distinctBy_sublist kind.key candidates))
      allInFront
  have named : kind.key value ∈ (contested kind candidates).map kind.key :=
    mem_keys_contested.mpr ⟨value, mem_valid_moved.mpr member, rfl,
      (challenged_of_mem_iff fun _ => mem_valid_moved).mpr challenged⟩
  rcases List.mem_map.mp named with ⟨claim, claimMem, claimKey⟩
  have selected : (select ∘ reportOn host kind candidates) claim = true := by
    simp only [Function.comp_apply, select, ← reportSame value claim claimKey.symm, tie, and_true,
      decide_eq_true_eq]
    cases kind <;> rfl
  rcases inFront.head_filter claimMem selected (decide_eq_true claimKey) with
    ⟨first, rest, split, isFirst⟩
  rw [normalizeSourceConnections_eq]
  refine ⟨rest.map (reportOn host kind candidates), ?_⟩
  rw [Comparator.filter_sort_of_tied, filter_reports, reports, List.filter_map]
  · show ((contested kind candidates).filter (select ∘ reportOn host kind candidates)).map _ = _
    rw [split, List.map_cons, ← reportSame value first (of_decide_eq_true isFirst).symm]
  · intro report isSelected
    exact (of_decide_eq_true isSelected).1
  · intro left _ right _ leftSelected rightSelected
    have leftTie := (of_decide_eq_true leftSelected).2
    have rightTie := (of_decide_eq_true rightSelected).2
    exact (compareConflicts host).tie_trans ((compareConflicts host).tie_symm leftTie) rightTie

theorem untied_reports (independent : OrderIndependent host records)
    (untied : LabelsUntied host (valid host records)) {kind : ConflictKind}
    {left right : NormalizedSourceConnection} (leftMem : left ∈ valid host records)
    (rightMem : right ∈ valid host records) (leftChallenged : Challenged kind (valid host records) left)
    (rightChallenged : Challenged kind (valid host records) right)
    (tie : (compareConflicts host).compare (reportOn host kind (valid host records) left)
      (reportOn host kind (valid host records) right) = 0) :
    reportOn host kind (valid host records) left = reportOn host kind (valid host records) right := by
  rcases first_report untied leftMem leftChallenged ((compareConflicts host).refl _) with
    ⟨rest, leftFirst⟩
  rcases first_report untied rightMem rightChallenged tie with ⟨others, rightFirst⟩
  rw [(independent.moved_eq _).2] at leftFirst rightFirst
  rw [leftFirst, List.cons.injEq] at rightFirst
  exact rightFirst.1

end Moved

/-- The order and the repetition of records go unnoticed exactly if nothing ties that is not
the same: no two accepted links, no two labels of one report, no two reports of one kind. -/
theorem orderIndependent_iff_untied (host : SourceHost) (records : List RawSourceRecord) :
    OrderIndependent host records ↔ Untied host (valid host records) := by
  constructor
  · intro independent
    have labels : LabelsUntied host (valid host records) := by
      intro kind left leftMem right rightMem sameKey tie
      exact untied_labels independent leftMem rightMem sameKey tie
    constructor
    case links =>
      intro left leftMem right rightMem leftFree rightFree tie
      exact untied_links independent leftMem rightMem leftFree rightFree tie
    case labels => exact labels
    case reports =>
      intro kind left leftMem right rightMem leftChallenged rightChallenged tie
      exact untied_reports independent labels leftMem rightMem leftChallenged rightChallenged tie
  · intro untied again more only
    have same : ∀ raw, raw ∈ again ↔ raw ∈ records := fun raw =>
      ⟨fun member => only member, fun member => more.subset member⟩
    exact ⟨accepted_eq untied same, conflicts_eq untied same⟩

def decompose (text : JsString) : JsString :=
  text.flatMap fun unit => if unit = 0xE9 then [0x65, 0x301] else [unit]

def accentHost : SourceHost where
  localeCompare := codeUnitOrder.onKey decompose
  sha256 := tabulated []
  dates := .iso

def accentRecord (name : JsString) : RawSourceRecord where
  source := .string (js "google")
  externalId := .string name
  personId := .string name
  provenance := .string (js "export")
  observedAt := .string (js "2026-01-02T00:00:00.000Z")

/-- Two links whose ids are the two spellings of one letter come out in the order they came in. -/
theorem not_orderIndependent_accented :
    ¬OrderIndependent accentHost [accentRecord [0xE9], accentRecord [0x65, 0x301]] := by
  intro independent
  have swapped : [accentRecord [0xE9], accentRecord [0x65, 0x301]].Perm
      [accentRecord [0x65, 0x301], accentRecord [0xE9]] := List.Perm.swap _ _ _
  have same := (independent _ swapped.subperm swapped.symm.subset).1
  revert same
  decide +kernel

end StudentHub.Sources
