import StudentHub.Coordinator.Routing
import Mathlib.Data.Fintype.EquivFin

/-!
# Independent reviews

Independence is decided twice. Routing takes the first reviewer whose session no author has,
or a lane whose family differs from that of the lane that wrote; the fold of the verdict asks
that the runtime of the review is not one on which an author of the lineage worked. The two
agree exactly if the runtime that routing takes is not one of an author.
-/

namespace StudentHub.Coordinator

open Ecma JsString

/-- The receipt is a build or a revision on the runtime and carries an identity. -/
def Receipt.IsAuthorOn (receipt : Receipt) (runtime : Runtime) : Prop :=
  receipt.identity.isSome ∧
    ∃ role : Role, role.isWriter ∧ resolveReceiptRoleAuthority receipt = .ok ⟨role, runtime⟩

theorem isAuthorOn_iff {receipt : Receipt} {runtime : Runtime} :
    receipt.IsAuthorOn runtime ↔ receipt.identity.isSome ∧
      (resolveReceiptRoleAuthority receipt).toOption.any fun authority =>
        authority.role.isWriter && authority.runtime = runtime := by
  unfold Receipt.IsAuthorOn
  cases resolveReceiptRoleAuthority receipt with
  | error refusal => simp [Except.toOption]
  | ok authority =>
      obtain ⟨role, ran⟩ := authority
      simp only [Except.ok.injEq, Authority.mk.injEq, Except.toOption, Option.any_some,
        Bool.and_eq_true, decide_eq_true_eq]
      constructor
      · rintro ⟨carried, _, wrote, rfl, rfl⟩
        exact ⟨carried, wrote, rfl⟩
      · rintro ⟨carried, wrote, ran⟩
        exact ⟨carried, role, wrote, rfl, ran⟩

instance (receipt : Receipt) (runtime : Runtime) : Decidable (receipt.IsAuthorOn runtime) :=
  decidable_of_iff' _ isAuthorOn_iff

/-- A receipt made from an order in an episode, later updates of the run included. A receipt
whose role authority does not resolve is not made at all. -/
structure Receipt.MadeFrom (receipt : Receipt) (order : WorkOrder) (episode : Option JsString) :
    Prop where
  version : receipt.hasRoleAuthority = true
  lane : receipt.requestedWorker = some order.requestedWorker
  role : receipt.role = some (.string order.role.text)
  runtime : receipt.runtime = some (.string order.runtime.text)
  attempt : receipt.attemptId = some order.attemptId
  target : receipt.targetSha = some order.targetSha
  tagged : receipt.episode = episode
  resolved : ∃ authority, resolveReceiptRoleAuthority receipt = .ok authority

/-- A review order that no author's runtime gets, and whose verdict is folded whoever of the
sessions unknown to the lineage carries it out. -/
structure WorkOrder.Independent (order : WorkOrder) (receipts : List Receipt)
    (episode : Option JsString) : Prop where
  runtime : ∀ receipt ∈ receipts, ¬ receipt.IsAuthorOn order.runtime
  accepted : ∀ (review : Receipt) (session : JsString), review.MadeFrom order episode →
    review.identity = some session →
    (∀ receipt ∈ receipts, receipt.identity ≠ some session) →
    reviewVerdictProvenanceValid review receipts = .ok ()

/-- The runtime that the next review is routed to: that of the earliest review by a session
that is no author's or, if there is no review, that of the lane that the activation names. -/
def reviewerRuntime (state : RoutingState) : Option Runtime :=
  let entries := provenanceEntries state.issueReceipts
  match eligibleReviewers entries Runtime.all with
  | reviewer :: _ => some reviewer.runtime
  | [] =>
      (bootstrapReviewerFor state.terminal.requestedWorker.value entries
        state.bootstrapReviewer).map fun lane => lane.definition.runtime

/-- The receipts of the lineage without the reviews of the attempt that follows next. -/
def reviewedReceipts (state : RoutingState) : List Receipt :=
  let round := reviewRoundOf (provenanceEntries state.issueReceipts)
  match freshAttempt state.terminal.attemptId.value Role.review.text (round + 1) with
  | some attempt => state.issueReceipts.filter fun receipt => !ownReviewCopy (.string attempt) receipt
  | none => state.issueReceipts

/-- Nobody who wrote has worked on the runtime, not as a reviewer either, and it can be read
who worked at all. -/
structure UnauthoredRuntime (state : RoutingState) (runtime : Runtime) : Prop where
  noAuthor : ∀ receipt ∈ state.issueReceipts, ¬ receipt.IsAuthorOn runtime
  noReversal : ∀ entry ∈ provenanceEntries (reviewedReceipts state),
    ∀ author ∈ provenanceEntries (reviewedReceipts state),
      author.role.isWriter → entry.actor = author.actor → entry.runtime ≠ runtime
  readable : reviewedReceipts state = [] ∨ provenanceEntries (reviewedReceipts state) ≠ []

theorem identity_ne_nil {receipt : Receipt} {actor : JsString}
    (carried : receipt.identity = some actor) : actor ≠ [] := by
  unfold Receipt.identity at carried
  split at carried
  · split at carried
    · exact absurd carried (by simp)
    · rename_i text _ nonempty
      rw [← Option.some.inj carried]
      exact nonempty
  · exact absurd carried (by simp)

theorem provenanceFromReceipt_eq_some {receipt : Receipt} {entry : ProvenanceEntry}
    (read : provenanceFromReceipt receipt = some entry) :
    resolveReceiptRoleAuthority receipt = .ok ⟨entry.role, entry.runtime⟩ ∧
      receipt.identity = some entry.actor ∧ entry.edited = false ∧
      entry.attemptId = receipt.attemptId.value := by
  unfold provenanceFromReceipt at read
  split at read
  · exact absurd read (by simp)
  · rename_i authority resolved
    split at read
    · rename_i actor target carried _
      obtain rfl := Option.some.inj read
      exact ⟨resolved, carried, rfl, rfl⟩
    · exact absurd read (by simp)

theorem mem_provenanceEntries {receipts : List Receipt} {entry : ProvenanceEntry} :
    entry ∈ provenanceEntries receipts ↔
      ∃ receipt ∈ receipts, provenanceFromReceipt receipt = some entry := by
  simp only [provenanceEntries, List.mem_filterMap]

theorem mem_authorSet {receipts : List Receipt} {actor : JsString} :
    actor ∈ authorSet (provenanceEntries receipts) ↔
      ∃ entry ∈ provenanceEntries receipts, entry.role.isWriter ∧ entry.actor = actor := by
  simp only [authorSet, List.mem_map, List.mem_filter]
  constructor
  · rintro ⟨entry, ⟨entryMem, touched⟩, rfl⟩
    obtain ⟨receipt, -, read⟩ := mem_provenanceEntries.mp entryMem
    obtain ⟨-, -, unedited, -⟩ := provenanceFromReceipt_eq_some read
    refine ⟨entry, entryMem, ?_, rfl⟩
    simpa [unedited] using And.left (by simpa [unedited] using touched)
  · rintro ⟨entry, entryMem, wrote, rfl⟩
    obtain ⟨receipt, -, read⟩ := mem_provenanceEntries.mp entryMem
    obtain ⟨-, carried, -, -⟩ := provenanceFromReceipt_eq_some read
    exact ⟨entry, ⟨entryMem, by simp [wrote, identity_ne_nil carried]⟩, rfl⟩

theorem isAuthorOn_of_entry {receipt : Receipt} {entry : ProvenanceEntry}
    (read : provenanceFromReceipt receipt = some entry) (wrote : entry.role.isWriter = true) :
    receipt.IsAuthorOn entry.runtime := by
  obtain ⟨resolved, carried, -, -⟩ := provenanceFromReceipt_eq_some read
  exact ⟨by simp [carried], entry.role, wrote, resolved⟩

def SameLaunch (left right : ProvenanceEntry) : Prop :=
  left.actor = right.actor ∧ left.role = right.role ∧ left.runtime = right.runtime ∧
    left.edited = right.edited ∧ left.attemptId = right.attemptId

theorem authorSet_congr {left right : List ProvenanceEntry}
    (same : List.Forall₂ SameLaunch left right) : authorSet left = authorSet right := by
  induction same with
  | nil => rfl
  | cons launch _ rest =>
      obtain ⟨actor, role, -, edited, -⟩ := launch
      simp only [authorSet, List.filter_cons, actor, role, edited] at rest ⊢
      split
      · simp only [List.map_cons, rest, actor]
      · exact rest

theorem eligibleFrom_congr {authors : List JsString} {candidates : List Runtime}
    {seen : List (Runtime × JsString)} {left right : List ProvenanceEntry}
    (same : List.Forall₂ SameLaunch left right) :
    eligibleFrom authors candidates seen left = eligibleFrom authors candidates seen right := by
  induction same generalizing seen with
  | nil => rfl
  | cons launch _ rest =>
      obtain ⟨actor, role, runtime, -, attempt⟩ := launch
      simp only [eligibleFrom, actor, role, runtime, attempt, rest]

theorem eligibleReviewers_congr {candidates : List Runtime} {left right : List ProvenanceEntry}
    (same : List.Forall₂ SameLaunch left right) :
    eligibleReviewers left candidates = eligibleReviewers right candidates := by
  unfold eligibleReviewers
  rw [authorSet_congr same, eligibleFrom_congr same]

theorem any_review_congr {left right : List ProvenanceEntry}
    (same : List.Forall₂ SameLaunch left right) :
    (left.any fun entry => entry.role = .review) = right.any fun entry => entry.role = .review := by
  induction same with
  | nil => rfl
  | cons launch _ rest => simp only [List.any_cons, launch.2.1, rest]

theorem reviewRoundOf_congr {left right : List ProvenanceEntry}
    (same : List.Forall₂ SameLaunch left right) : reviewRoundOf left = reviewRoundOf right := by
  induction same with
  | nil => rfl
  | cons launch _ rest =>
      unfold reviewRoundOf at rest ⊢
      simp only [List.countP_cons, launch.2.1, rest]

theorem sameLaunch_routingEntries (state : RoutingState) :
    List.Forall₂ SameLaunch (routingEntries state) (provenanceEntries state.issueReceipts) := by
  unfold routingEntries provenanceEntries
  induction state.issueReceipts with
  | nil => exact .nil
  | cons receipt rest tail =>
      cases read : provenanceFromReceipt receipt with
      | none => simpa [List.filterMap_cons, stampedEntry, read] using tail
      | some entry =>
          simp only [List.filterMap_cons, stampedEntry, read, Option.map_some]
          refine .cons ?_ tail
          split
          · split <;> exact ⟨rfl, rfl, rfl, rfl, rfl⟩
          · exact ⟨rfl, rfl, rfl, rfl, rfl⟩

/-- A minted order is of the role, runtime and lane that it was minted for, as the attempt that
follows. -/
theorem mintOrder_eq_order {host : CoordinatorHost} {state : ReviewState} {role : Role}
    {runtime : Runtime} {actor : JsString} {lane : Lane} {targetSha : JsValue} {order : WorkOrder}
    (minted : mintOrder host state role runtime actor lane targetSha = .order order) :
    order.role = role ∧ order.runtime = runtime ∧ order.requestedWorker = .string lane.text ∧
      ∃ attempt, freshAttempt state.requested.attemptId role.text (state.reviewRound + 1) =
        some attempt ∧ order.attemptId = .string attempt := by
  unfold mintOrder at minted
  split at minted
  · exact absurd minted (by simp)
  · rename_i attempt derived
    split at minted
    · exact absurd minted (by simp)
    · obtain rfl := Routed.order.inj minted
      exact ⟨rfl, rfl, rfl, attempt, derived, rfl⟩

theorem routeRevision_role {host : CoordinatorHost} {state : ReviewState} {order : WorkOrder}
    (routed : routeRevision host state = .order order) : order.role = .revise := by
  unfold routeRevision at routed
  split at routed
  · exact absurd routed (by simp)
  · split at routed
    · exact absurd routed (by simp)
    · split at routed
      · exact absurd routed (by simp)
      · exact (mintOrder_eq_order routed).1

theorem nextWorkOrder_review {host : CoordinatorHost} {state : ReviewState} {order : WorkOrder}
    (next : nextWorkOrder host state = .order order) (review : order.role = .review) :
    ∃ runtime actor lane targetSha,
      mintOrder host state .review runtime actor lane targetSha = .order order ∧
      ((∃ reviewer rest,
          eligibleReviewers state.entries state.requested.reviewRuntimes = reviewer :: rest ∧
          reviewer.runtime = runtime ∧ laneForRuntimeRole runtime .review = some lane) ∨
        eligibleReviewers state.entries state.requested.reviewRuntimes = [] ∧
          bootstrapReviewerFor state.requested.requestedWorker state.entries
            state.bootstrapReviewer = some lane ∧ lane.definition.runtime = runtime) := by
  have routed : routeReview host state = .order order := by
    unfold nextWorkOrder at next
    split at next
    · exact next
    · exact next
    · split at next
      · rw [routeRevision_role next] at review
        exact absurd review (by simp)
      · rw [routeRevision_role next] at review
        exact absurd review (by simp)
      · exact absurd next (by simp)
      · exact absurd next (by simp)
  unfold routeReview at routed
  simp only at routed
  split at routed
  · rename_i nobody
    split at routed
    · rename_i lane named
      exact ⟨_, _, lane, _, routed, .inr ⟨nobody, named, rfl⟩⟩
    · exact absurd routed (by simp)
  · rename_i reviewer rest eligible
    split at routed
    · exact absurd routed (by simp)
    · rename_i lane found
      exact ⟨_, _, lane, _, routed, .inl ⟨reviewer, rest, eligible, rfl, found⟩⟩

theorem bootstrapReviewerFor_eq_some {requestedWorker : JsValue} {entries : List ProvenanceEntry}
    {bootstrapReviewer : Option JsValue} {lane : Lane}
    (named : bootstrapReviewerFor requestedWorker entries bootstrapReviewer = some lane) :
    (entries.any fun entry => entry.role = .review) = false := by
  unfold bootstrapReviewerFor at named
  obtain ⟨found, -, rest⟩ := Option.bind_eq_some_iff.mp named
  split at rest
  · exact absurd rest (by simp)
  · rename_i nobody
    simpa using nobody

theorem bootstrapReviewerFor_congr {requestedWorker : JsValue} {left right : List ProvenanceEntry}
    {bootstrapReviewer : Option JsValue} (same : List.Forall₂ SameLaunch left right) :
    bootstrapReviewerFor requestedWorker left bootstrapReviewer =
      bootstrapReviewerFor requestedWorker right bootstrapReviewer := by
  unfold bootstrapReviewerFor
  simp only [any_review_congr same]

theorem reviewRuntimes_eq :
    (Runtime.all.filter fun runtime => runtimeSupportsRole runtime .review) = Runtime.all := by
  decide

/-- A review order of the routing: its runtime is the reviewer's, its attempt the one that
follows, and its lane is the review lane of the runtime unless nobody has reviewed yet. -/
structure ReviewOrder (state : RoutingState) (order : WorkOrder) : Prop where
  role : order.role = .review
  runtime : reviewerRuntime state = some order.runtime
  attempt : ∃ attempt, order.attemptId = .string attempt ∧ reviewedReceipts state =
    state.issueReceipts.filter fun receipt => !ownReviewCopy (.string attempt) receipt
  entries : provenanceEntries state.issueReceipts ≠ []
  lane : (∃ lane : Lane, order.requestedWorker = .string lane.text ∧
      laneForRuntimeRole order.runtime .review = some lane) ∨
    ∀ entry ∈ provenanceEntries state.issueReceipts, entry.role ≠ .review

theorem reviewOrder_of_routed {host : CoordinatorHost} {state : RoutingState} {order : WorkOrder}
    (routed : routeSuccessorFromReceipts host state = .order order) (review : order.role = .review) :
    ReviewOrder state order := by
  have same := sameLaunch_routingEntries state
  unfold routeSuccessorFromReceipts at routed
  split at routed
  · exact absurd routed (by simp)
  · rename_i verdict authority checked
    simp only at routed
    split_ifs at routed with empty
    obtain ⟨runtime, actor, lane, targetSha, minted, origin⟩ := nextWorkOrder_review routed review
    obtain ⟨role, ran, onLane, attempt, derived, attemptIs⟩ := mintOrder_eq_order minted
    simp only [completedOrderFromTerminal, reviewRuntimes_eq, eligibleReviewers_congr same,
      bootstrapReviewerFor_congr same, reviewRoundOf_congr same] at origin derived
    refine ⟨role, ?_, ⟨attempt, attemptIs, ?_⟩, ?_, ?_⟩
    · unfold reviewerRuntime
      rcases origin with ⟨reviewer, rest, eligible, chosen, -⟩ | ⟨nobody, named, chosen⟩
      · simp only [eligible, chosen, ran]
      · simp only [nobody, named, Option.map_some, chosen, ran]
    · unfold reviewedReceipts
      simp only [derived]
    · intro none
      rw [none] at same
      exact empty (by rw [List.forall₂_nil_right_iff.mp same]; rfl)
    · rcases origin with ⟨reviewer, rest, -, -, found⟩ | ⟨-, named, -⟩
      · exact .inl ⟨lane, onLane, by rw [ran]; exact found⟩
      · right
        intro entry entryMem isReview
        have nobody := bootstrapReviewerFor_eq_some named
        rw [List.any_eq_false] at nobody
        exact nobody entry entryMem (by simp [isReview])

theorem reviewedLineage_of_tagged {review : Receipt} {receipts : List Receipt}
    {episode : Option JsString} (tagged : ∀ receipt ∈ receipts, receipt.episode = episode)
    (ours : review.episode = episode) :
    reviewedLineage review receipts =
      receipts.filter fun receipt => !ownReviewCopy review.attemptId.value receipt := by
  unfold reviewedLineage
  rw [ours]
  cases episode with
  | none => rfl
  | some episode =>
      have poolTagged : ∀ receipt ∈ receipts.filter fun receipt =>
          !ownReviewCopy review.attemptId.value receipt, receipt.episode = some episode :=
        fun receipt receiptMem => tagged receipt (List.mem_filter.mp receiptMem).1
      simp only
      generalize (receipts.filter fun receipt =>
        !ownReviewCopy review.attemptId.value receipt) = pool at poolTagged ⊢
      have all : (pool.filter fun receipt => receipt.episode = some episode) = pool :=
        List.filter_eq_self.mpr fun receipt receiptMem => by simp [poolTagged receipt receiptMem]
      have none : (pool.filter fun receipt => receipt.episode ≠ some episode) = [] :=
        List.filter_eq_nil_iff.mpr fun receipt receiptMem => by simp [poolTagged receipt receiptMem]
      rw [all, none]
      simp [growLineage]

theorem Receipt.MadeFrom.authority {review : Receipt} {order : WorkOrder}
    {episode : Option JsString} (made : review.MadeFrom order episode)
    (isReview : order.role = .review) :
    resolveReceiptRoleAuthority review = .ok ⟨.review, order.runtime⟩ := by
  obtain ⟨authority, resolved⟩ := made.resolved
  have version : (review.receiptVersion.value.orElse (.string (js "1.0.0"))) =
      .string (js "1.1.0") := by
    rw [JsValue.isText_iff.mp made.version]
    rfl
  rw [resolved]
  unfold resolveReceiptRoleAuthority at resolved
  split at resolved
  · exact absurd resolved (by simp)
  · rename_i lane _
    rw [version] at resolved
    simp only [made.role, made.runtime, Field.value, Option.getD_some, Role.ofValue_text,
      Runtime.ofValue_text] at resolved
    rw [if_neg (by decide), if_neg (by decide)] at resolved
    split_ifs at resolved
    rw [isReview] at resolved
    exact resolved.symm

theorem reviewVerdict_ok_iff {review : Receipt} {receipts : List Receipt} {runtime : Runtime}
    {session : JsString} (authority : resolveReceiptRoleAuthority review = .ok ⟨.review, runtime⟩)
    (version : review.hasRoleAuthority = true) (carried : review.identity = some session)
    (unknown : ∀ receipt ∈ reviewedLineage review receipts, receipt.identity ≠ some session) :
    reviewVerdictProvenanceValid review receipts = .ok () ↔
      (reviewedLineage review receipts = [] ∨
        provenanceEntries (reviewedLineage review receipts) ≠ []) ∧
      ∀ entry ∈ provenanceEntries (reviewedLineage review receipts),
        entry.actor ∈ authorSet (provenanceEntries (reviewedLineage review receipts)) →
        entry.runtime ≠ runtime := by
  have notAuthor : session ∉ authorSet (provenanceEntries (reviewedLineage review receipts)) := by
    intro wrote
    obtain ⟨entry, entryMem, -, rfl⟩ := mem_authorSet.mp wrote
    obtain ⟨receipt, receiptMem, read⟩ := mem_provenanceEntries.mp entryMem
    exact unknown receipt receiptMem (provenanceFromReceipt_eq_some read).2.1
  unfold reviewVerdictProvenanceValid
  simp only [authority, carried, version, notAuthor, if_false, ne_eq, not_true, true_and,
    List.any_eq_true, Bool.and_eq_true, decide_eq_true_eq]
  constructor
  · intro accepted
    split_ifs at accepted with unreadable family
    refine ⟨by tauto, ?_⟩
    intro entry entryMem wrote ran
    exact family ⟨entry, entryMem, wrote, ran⟩
  · rintro ⟨readable, apart⟩
    rw [if_neg (by tauto), if_neg]
    rintro ⟨entry, entryMem, wrote, ran⟩
    exact apart entry entryMem wrote ran

theorem exists_unknown_session (receipts : List Receipt) :
    ∃ session : JsString, session ≠ [] ∧
      ∀ receipt ∈ receipts, receipt.identity ≠ some session := by
  obtain ⟨session, unknown⟩ :=
    Infinite.exists_notMem_finset (([] :: receipts.filterMap Receipt.identity).toFinset)
  simp only [List.mem_toFinset, List.mem_cons, List.mem_filterMap, not_or, not_exists,
    not_and] at unknown
  exact ⟨session, unknown.1, unknown.2⟩

def launchedReview (order : WorkOrder) (episode : Option JsString) (session : JsString) :
    Receipt where
  receiptVersion := some (.string (js "1.1.0"))
  issueId := some order.issueId
  attemptId := some order.attemptId
  authorizationRef := some order.authorizationRef
  stage := some (.string Stage.running.text)
  requestedWorker := some order.requestedWorker
  workerIdentity := some (.string session)
  repo := none
  branch := none
  targetSha := some order.targetSha
  externalRunId := none
  adapterStatus := none
  timestamps := none
  evidenceLinks := none
  lastActivity := none
  notes := none
  role := some (.string order.role.text)
  runtime := some (.string order.runtime.text)
  episodeId := episode.map .string

theorem reviewLane_definition {runtime : Runtime} {lane : Lane}
    (found : laneForRuntimeRole runtime .review = some lane) :
    lane.definition.runtime = runtime ∧ Role.review ∈ lane.definition.roles := by
  cases runtime <;> cases lane <;> revert found <;> decide

theorem launchedReview_madeFrom {order : WorkOrder} {episode : Option JsString}
    {session : JsString} {lane : Lane} (isReview : order.role = .review)
    (onLane : order.requestedWorker = .string lane.text)
    (found : laneForRuntimeRole order.runtime .review = some lane) (nonempty : episode ≠ some []) :
    (launchedReview order episode session).MadeFrom order episode := by
  obtain ⟨runs, reviews⟩ := reviewLane_definition found
  refine ⟨rfl, rfl, rfl, rfl, rfl, rfl, ?_, ⟨⟨.review, order.runtime⟩, ?_⟩⟩
  · cases episode with
    | none => rfl
    | some episode =>
        have nonempty : episode ≠ [] := fun empty => nonempty (by rw [empty])
        simp [Receipt.episode, launchedReview, Field.value, nonempty]
  · unfold resolveReceiptRoleAuthority
    simp only [launchedReview, Field.value, Option.getD_some, onLane, Lane.ofName_text,
      isReview, Role.ofValue_text, Runtime.ofValue_text, runs]
    rw [if_neg (by decide), if_neg (by decide), if_neg (by simp [JsValue.strictEq]),
      if_neg (not_not.mpr reviews), if_neg (not_not.mpr rfl)]

theorem episode_ne_nil (receipt : Receipt) : receipt.episode ≠ some [] := by
  unfold Receipt.episode
  split
  · split
    · simp
    · rename_i nonempty
      simpa using nonempty
  · simp

theorem episode_ne_nil_of_tagged {receipts : List Receipt} {episode : Option JsString}
    (tagged : ∀ receipt ∈ receipts, receipt.episode = episode)
    (entries : provenanceEntries receipts ≠ []) : episode ≠ some [] := by
  obtain ⟨entry, entryMem⟩ := List.exists_mem_of_ne_nil _ entries
  obtain ⟨receipt, receiptMem, -⟩ := mem_provenanceEntries.mp entryMem
  rw [← tagged receipt receiptMem]
  exact episode_ne_nil receipt

/-- For the receipts of one episode, or of none: a review order is independent exactly if the
runtime that the routing takes is nobody's who wrote. -/
theorem independent_iff_unauthored {host : CoordinatorHost} {state : RoutingState}
    {episode : Option JsString} {order : WorkOrder}
    (tagged : ∀ receipt ∈ state.issueReceipts, receipt.episode = episode)
    (routed : routeSuccessorFromReceipts host state = .order order)
    (isReview : order.role = .review) :
    order.Independent state.issueReceipts episode ↔
      ∃ runtime, reviewerRuntime state = some runtime ∧ UnauthoredRuntime state runtime := by
  have ordered := reviewOrder_of_routed routed isReview
  obtain ⟨attempt, attemptIs, reviewed⟩ := ordered.attempt
  have lineage : ∀ review : Receipt, review.MadeFrom order episode →
      reviewedLineage review state.issueReceipts = reviewedReceipts state := by
    intro review made
    rw [reviewedLineage_of_tagged tagged made.tagged, reviewed, made.attempt, attemptIs]
    rfl
  have known : ∀ receipt ∈ reviewedReceipts state, receipt ∈ state.issueReceipts := by
    intro receipt receiptMem
    rw [reviewed] at receiptMem
    exact (List.mem_filter.mp receiptMem).1
  constructor
  · intro independent
    refine ⟨order.runtime, ordered.runtime, ?_⟩
    rcases ordered.lane with ⟨lane, onLane, found⟩ | unreviewed
    · -- A session that nobody knows carries the order out, and its verdict is accepted.
      obtain ⟨session, nonempty, unknown⟩ := exists_unknown_session state.issueReceipts
      have made : (launchedReview order episode session).MadeFrom order episode :=
        launchedReview_madeFrom isReview onLane found (episode_ne_nil_of_tagged tagged ordered.entries)
      have carried : (launchedReview order episode session).identity = some session := if_neg nonempty
      have accepted := independent.accepted _ session made carried unknown
      rw [reviewVerdict_ok_iff (made.authority isReview) made.version carried, lineage _ made]
        at accepted
      · refine ⟨independent.runtime, ?_, accepted.1⟩
        intro entry entryMem author authorMem wrote same
        exact accepted.2 entry entryMem
          (mem_authorSet.mpr ⟨author, authorMem, wrote, same.symm⟩)
      · intro receipt receiptMem
        rw [lineage _ made] at receiptMem
        exact unknown receipt (known receipt receiptMem)
    · -- Nobody has reviewed, so that every entry is that of an author.
      have authored : ∀ entry ∈ provenanceEntries state.issueReceipts,
          entry.role.isWriter = true := by
        intro entry entryMem
        have notReview := unreviewed entry entryMem
        cases role : entry.role with
        | build => rfl
        | revise => rfl
        | review => exact absurd role notReview
      refine ⟨independent.runtime, ?_, .inr ?_⟩
      · intro entry entryMem author _ _ _ ran
        obtain ⟨receipt, receiptMem, read⟩ := mem_provenanceEntries.mp entryMem
        have entryKnown : entry ∈ provenanceEntries state.issueReceipts :=
          mem_provenanceEntries.mpr ⟨receipt, known receipt receiptMem, read⟩
        apply independent.runtime receipt (known receipt receiptMem)
        rw [← ran]
        exact isAuthorOn_of_entry read (authored entry entryKnown)
      · obtain ⟨entry, entryMem⟩ := List.exists_mem_of_ne_nil _ ordered.entries
        obtain ⟨receipt, receiptMem, read⟩ := mem_provenanceEntries.mp entryMem
        have kept : receipt ∈ reviewedReceipts state := by
          rw [reviewed]
          refine List.mem_filter.mpr ⟨receiptMem, ?_⟩
          have role : roleForReceipt receipt = some entry.role := by
            unfold roleForReceipt
            rw [(provenanceFromReceipt_eq_some read).1]
          simp [ownReviewCopy, role, unreviewed entry entryMem]
        exact List.ne_nil_of_mem (mem_provenanceEntries.mpr ⟨receipt, kept, read⟩)
  · rintro ⟨runtime, chosen, unauthored⟩
    have runtimeIs : order.runtime = runtime :=
      Option.some.inj (ordered.runtime.symm.trans chosen)
    refine ⟨by rw [runtimeIs]; exact unauthored.noAuthor, ?_⟩
    intro review session made carried unknown
    rw [reviewVerdict_ok_iff (made.authority isReview) made.version carried, lineage review made]
    · refine ⟨unauthored.readable, ?_⟩
      intro entry entryMem wrote
      obtain ⟨author, authorMem, authored, same⟩ := mem_authorSet.mp wrote
      rw [runtimeIs]
      exact unauthored.noReversal entry entryMem author authorMem authored same.symm
    · intro receipt receiptMem
      rw [lineage review made] at receiptMem
      exact unknown receipt (known receipt receiptMem)

def plainHost : CoordinatorHost where
  localeCompare := codeUnitOrder
  laneContract _ := none
  validReviewFindings _ := false
  reviewFindingsFromCallback _ := none
  reviewPassNote _ := none
  workerSummaryNote _ := none

def sampleSha (digit : UInt16) : JsString := List.replicate 40 digit

def sampleAttempt (digit : UInt16) : JsString :=
  List.replicate 8 digit ++ js "-1111-4111-8111-111111111111"

def completedReceipt (attempt : UInt16) (lane : Lane) (session verdict : JsString)
    (target result : UInt16) : Receipt where
  receiptVersion := some (.string (js "1.0.0"))
  issueId := some (.string (js "SHU-1"))
  attemptId := some (.string (sampleAttempt attempt))
  authorizationRef := some (.string (js "SHU-1"))
  stage := some (.string Stage.completed.text)
  requestedWorker := some (.string lane.text)
  workerIdentity := some (.string session)
  repo := some (.string (js "o/r"))
  branch := some (.string (js "work"))
  targetSha := some (.string (sampleSha target))
  externalRunId := some (.string (js "codexrun_1"))
  adapterStatus := some (.string (js "completed"))
  timestamps := some (.object [(js "reserved", .string (js "t0")), (js "launch", .string (js "t1")),
    (js "heartbeat", .null), (js "terminal", .string (js "t2"))])
  evidenceLinks := some (.array [.string (js "link")])
  lastActivity := some (.string (js "t2"))
  notes := some (.array [])
  verdictStage := some (.string verdict)
  resultSha := some (.string (sampleSha result))

def Receipt.withRole (receipt : Receipt) (role : Role) (runtime : Runtime) : Receipt :=
  { receipt with
    receiptVersion := some (.string (js "1.1.0"))
    role := some (.string role.text)
    runtime := some (.string runtime.text) }

/-- Codex built and Claude reviewed; then Claude built, and its build is to be reviewed. -/
def reversedRouting : RoutingState :=
  let build := (completedReceipt 99 .claudeBuilder (js "claude-2") (js "BUILD_READY") 98 99).withRole
    .build .claudeCode
  { issueReceipts :=
      [completedReceipt 97 .codexBuilder (js "codex-1") (js "BUILD_READY") 97 98,
        completedReceipt 98 .claudeVerifier (js "claude-1") (js "PASS") 98 98, build]
    terminal := build
    evidenceStage := .string (js "BUILD_READY")
    evidenceResultSha := .null
    maxRevise := 3
    authoritativeHead := .null
    bootstrapReviewer := none
    fixtureLane := none }

def Routed.placement : Routed → Option (Role × Runtime)
  | .order found => some (found.role, found.runtime)
  | _ => none

theorem exists_order_of_placement (routed : Routed) (role : Role) (runtime : Runtime)
    (placed : routed.placement = some (role, runtime)) :
    ∃ order, routed = .order order ∧ order.role = role ∧ order.runtime = runtime := by
  cases routed with
  | order order =>
      have placedIs := Prod.mk.inj (Option.some.inj placed)
      exact ⟨order, rfl, placedIs.1, placedIs.2⟩
  | passed => exact absurd placed (by simp [Routed.placement])
  | refused why => exact absurd placed (by simp [Routed.placement])

/-- A review of Claude's build is routed to Claude. -/
theorem review_not_independent :
    (∀ receipt ∈ reversedRouting.issueReceipts, receipt.Valid ∧ receipt.episode = none) ∧
      reversedRouting.terminal ∈ reversedRouting.issueReceipts ∧
      ∃ order, routeSuccessorFromReceipts plainHost reversedRouting = .order order ∧
        order.role = .review ∧ ¬ order.Independent reversedRouting.issueReceipts none := by
  refine ⟨by decide +kernel, by simp [reversedRouting], ?_⟩
  obtain ⟨order, routed, role, runtime⟩ := exists_order_of_placement
    (routeSuccessorFromReceipts plainHost reversedRouting) .review .claudeCode (by decide +kernel)
  refine ⟨order, routed, role, fun independent => ?_⟩
  apply independent.runtime reversedRouting.terminal (by simp [reversedRouting])
  rw [runtime]
  exact ⟨by decide +kernel, .build, rfl, by decide +kernel⟩

/-- Codex built, Claude blocked it, and the revision of Codex is to be reviewed. -/
def straightRouting : RoutingState :=
  let revision := (completedReceipt 99 .codexBuilder (js "codex-2") (js "REVISION_READY") 98 99).withRole
    .revise .codexCli
  { reversedRouting with
    issueReceipts :=
      [completedReceipt 97 .codexBuilder (js "codex-1") (js "BUILD_READY") 97 98,
        completedReceipt 98 .claudeVerifier (js "claude-1") (js "BLOCKED") 98 98, revision]
    terminal := revision
    evidenceStage := .string (js "REVISION_READY") }

theorem independent_iff_unauthored_sample :
    ∃ order, routeSuccessorFromReceipts plainHost straightRouting = .order order ∧
      order.role = .review ∧ order.Independent straightRouting.issueReceipts none := by
  obtain ⟨order, routed, role, -⟩ := exists_order_of_placement
    (routeSuccessorFromReceipts plainHost straightRouting) .review .claudeCode (by decide +kernel)
  refine ⟨order, routed, role, ?_⟩
  apply (independent_iff_unauthored (by decide +kernel) routed role).mpr
  exact ⟨.claudeCode, by decide +kernel, by decide +kernel, by decide +kernel,
    .inr (by decide +kernel)⟩

end StudentHub.Coordinator
