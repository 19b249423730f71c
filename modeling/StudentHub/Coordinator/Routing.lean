import StudentHub.Coordinator.Validation

/-!
# Routing of work orders

When a receipt has ended with a verdict, the next order follows from it: a write is reviewed
by the first eligible reviewer of its lineage or, if nobody has reviewed yet, by the lane that
the activation names; a blocked review goes back to the latest writer, a bounded number of
times; a passed review ends the loop.
-/

/-!
## Provenance

Who worked on a change is read from launch receipts, never from commits. A receipt that ran
is collapsed to an entry; whoever built or revised is an author, and so is a reviewer who
edited. The verdict of a review is folded only if the session and the runtime of the reviewer
are not those of an author of the work that the reviewed head contains.
-/

namespace StudentHub.Coordinator

open Ecma JsString

structure ProvenanceEntry where
  attemptId : JsValue
  actor : JsString
  role : Role
  runtime : Runtime
  requestedWorker : JsValue
  targetSha : JsString
  resultSha : Option JsString
  edited : Bool

def authorSet (entries : List ProvenanceEntry) : List JsString :=
  (entries.filter fun entry =>
    (entry.role.isWriter || (entry.role = .review && entry.edited)) && entry.actor ≠ []).map
      ProvenanceEntry.actor

structure EligibleReviewer where
  actor : JsString
  runtime : Runtime
  attemptId : JsValue

def eligibleFrom (authors : List JsString) (candidateRuntimes : List Runtime)
    (seen : List (Runtime × JsString)) : List ProvenanceEntry → List EligibleReviewer
  | [] => []
  | entry :: rest =>
      if entry.role = .review ∧ entry.actor ≠ [] ∧ entry.actor ∉ authors ∧
          entry.runtime ∈ candidateRuntimes ∧ (entry.runtime, entry.actor) ∉ seen then
        ⟨entry.actor, entry.runtime, entry.attemptId⟩ ::
          eligibleFrom authors candidateRuntimes ((entry.runtime, entry.actor) :: seen) rest
      else
        eligibleFrom authors candidateRuntimes seen rest

/-- Actors who are no authors and whose runtime supports review, the earliest first. -/
def eligibleReviewers (entries : List ProvenanceEntry) (candidateRuntimes : List Runtime) :
    List EligibleReviewer :=
  eligibleFrom (authorSet entries) candidateRuntimes [] entries

def activeWriter (entries : List ProvenanceEntry) : Option ProvenanceEntry :=
  entries.reverse.find? fun entry => entry.role.isWriter && entry.actor ≠ []

def latestResultSha (entries : List ProvenanceEntry) (withinAttempt : JsValue) : Option JsString :=
  entries.reverse.findSome? fun entry =>
    if entry.role.isWriter ∧
        (withinAttempt.truthy → entry.attemptId.strictEq withinAttempt) then
      entry.resultSha
    else
      none

def headOf : JsValue → Option JsString
  | .string sha => if Supervisor.isTargetSha sha then some sha else none
  | _ => none

def Receipt.identity (receipt : Receipt) : Option JsString :=
  match receipt.workerIdentity.value with
  | .string actor => if actor = [] then none else some actor
  | _ => none

def provenanceFromReceipt (receipt : Receipt) : Option ProvenanceEntry :=
  match resolveReceiptRoleAuthority receipt with
  | .error _ => none
  | .ok authority =>
      match receipt.identity, headOf receipt.targetSha.value with
      | some actor, some target =>
          some ⟨receipt.attemptId.value, actor, authority.role, authority.runtime,
            receipt.requestedWorker.value.orElse .null, target, headOf receipt.resultSha.value, false⟩
      | _, _ => none

def ownReviewCopy (own : JsValue) (receipt : Receipt) : Bool :=
  match own with
  | .string attempt =>
      attempt ≠ [] && receipt.attemptId.value.strictEq own && roleForReceipt receipt = some .review
  | _ => false

def Receipt.episode (receipt : Receipt) : Option JsString :=
  match receipt.episodeId.value with
  | .string episode => if episode = [] then none else some episode
  | _ => none

/-- What the growth of a lineage goes through: receipts not taken yet, those taken, and the
heads that the lineage reaches. -/
structure Growth where
  left : List Receipt
  taken : List Receipt
  heads : List JsValue
  grew : Bool

def Growth.reaches (growth : Growth) (sha : JsValue) : Bool := growth.heads.any sha.strictEq

/-- A receipt of another episode belongs to the lineage if what it produced is a head of it,
or, having recorded no result, if it started from one. -/
def Growth.visit (growth : Growth) (receipt : Receipt) : Growth :=
  let wrote := (roleForReceipt receipt).any Role.isWriter
  let belongs := match headOf receipt.resultSha.value with
    | some produced => growth.reaches (.string produced)
    | none => growth.reaches receipt.targetSha.value
  if wrote && belongs then
    let target := receipt.targetSha.value
    if !growth.reaches target && isSha (target.orElse (.string [])) then
      { growth with taken := growth.taken ++ [receipt], heads := target :: growth.heads, grew := true }
    else
      { growth with taken := growth.taken ++ [receipt] }
  else
    { growth with left := growth.left ++ [receipt] }

def growLineage : ℕ → List Receipt → List Receipt → List JsValue → List Receipt
  | 0, _, lineage, _ => lineage
  | passes + 1, others, lineage, heads =>
      let growth := others.foldl Growth.visit ⟨[], lineage, heads, false⟩
      if growth.grew then
        growLineage passes growth.left growth.taken growth.heads
      else
        growth.taken

/-- The receipts whose work the head of a review contains. Every pass that adds a head takes a
receipt, so that one pass more than there are receipts is the last. -/
def reviewedLineage (receipt : Receipt) (lineageReceipts : List Receipt) : List Receipt :=
  let pool := lineageReceipts.filter fun candidate =>
    !ownReviewCopy receipt.attemptId.value candidate
  match receipt.episode with
  | none => pool
  | some episode =>
      let lineage := pool.filter fun candidate => candidate.episode = some episode
      let others := pool.filter fun candidate => candidate.episode ≠ some episode
      let shas := receipt.targetSha.value ::
        lineage.flatMap fun member => [member.targetSha.value, member.resultSha.value]
      growLineage (others.length + 1) others lineage (shas.filter fun sha => (headOf sha).isSome)

inductive VerdictRefusal
  | authority (refusal : AuthorityRefusal)
  | noSession
  | unreadable
  | authorFamily
  | author
  deriving DecidableEq

def provenanceEntries (receipts : List Receipt) : List ProvenanceEntry :=
  receipts.filterMap provenanceFromReceipt

def reviewVerdictProvenanceValid (receipt : Receipt) (lineageReceipts : List Receipt) :
    Except VerdictRefusal Unit :=
  match resolveReceiptRoleAuthority receipt with
  | .error refusal => .error (.authority refusal)
  | .ok authority =>
      if authority.role ≠ .review then
        .ok ()
      else
        match receipt.identity with
        | none => .error .noSession
        | some session =>
            let supplied := reviewedLineage receipt lineageReceipts
            let entries := provenanceEntries supplied
            let authors := authorSet entries
            if supplied ≠ [] ∧ entries = [] then
              .error .unreadable
            else if receipt.hasRoleAuthority ∧ entries.any fun entry =>
                entry.actor ∈ authors && entry.runtime = authority.runtime then
              .error .authorFamily
            else if session ∈ authors then
              .error .author
            else
              .ok ()

end StudentHub.Coordinator

namespace StudentHub.Coordinator

open Ecma JsString

inductive ReviewOutcome
  | pass
  | blocked
  | failed
  deriving DecidableEq

structure Verdict where
  role : Role
  outcome : Option ReviewOutcome
  deriving DecidableEq

def VERDICTS : List (JsString × Verdict) :=
  [(js "BUILD_READY", ⟨.build, none⟩), (js "REVISION_READY", ⟨.revise, none⟩),
    (js "PASS", ⟨.review, some .pass⟩), (js "BLOCKED", ⟨.review, some .blocked⟩),
    (js "FAILED", ⟨.review, some .failed⟩)]

def outcomeForEvidenceStage (stage : JsValue) : Option Verdict :=
  (VERDICTS.find? fun verdict => stage.isText verdict.1).map Prod.snd

def roleForRequestedWorker (requestedWorker : JsValue) : Option Role := roleForLane requestedWorker

/-- A verdict of a review is only taken from a review lane, one of a write from another. -/
def verdictMatchesLane (requestedWorker evidenceStage : JsValue) : Bool :=
  match outcomeForEvidenceStage evidenceStage, roleForRequestedWorker requestedWorker with
  | some verdict, some .review => verdict.role = .review
  | some verdict, some _ => verdict.role.isWriter
  | _, _ => false

def hashUnit (hash : UInt32) (unit : UInt16) : UInt32 := (hash ^^^ unit.toUInt32) * 0x01000193

def hashText (text : JsString) : UInt32 := text.foldl hashUnit 0x811c9dc5

/-- `number.toString(16).padStart(width, "0")` -/
def hexText (number width : ℕ) : JsString :=
  let digits := (Nat.toDigits 16 number).map fun digit => digit.toNat.toUInt16
  List.replicate (width - digits.length) 48 ++ digits

/-- `${value.slice(from, to)}`; only strings and arrays have the method. -/
def sliceText (value : JsValue) (start stop : ℕ) : Option JsString :=
  match value with
  | .string text => some ((text.take stop).drop start)
  | .array items => (JsValue.array ((items.take stop).drop start)).toText
  | _ => none

/-- The attempt that follows from a prior one, a stage and a round; `none` if it throws. -/
def freshAttempt (priorAttemptId : JsValue) (stage : JsString) (round : ℕ) : Option JsString := do
  let prior := priorAttemptId.orElse (.string (js "00000000-0000-4000-8000-000000000000"))
  let priorText ← prior.toText
  let seed := priorText ++ js ":" ++ stage ++ js ":" ++ decimal round
  let hex := hexText (hashText seed).toNat 8
  let stageTag := (hexText (hashText stage).toNat 8).take 4
  let first ← sliceText prior 1 4
  let second ← sliceText prior 4 7
  let front ← sliceText prior 0 8
  return hex ++ js "-" ++ stageTag ++ js "-4" ++ first ++ js "-8" ++ second ++ js "-" ++ front ++
    hexText round 4

structure WorkOrder where
  role : Role
  runtime : Runtime
  actor : Option JsString
  requestedWorker : JsValue
  issueId : JsValue
  attemptId : JsValue
  targetSha : JsValue
  authorizationRef : JsValue
  reviewRuntimes : List Runtime
  outcome : Option ReviewOutcome
  workspace : WorkspaceFields

inductive RouteRefusal
  | laneMismatch
  | authority (refusal : AuthorityRefusal)
  | notIndependent (refusal : VerdictRefusal)
  | terminalScope (refusal : ScopeRefusal)
  | noVerdict
  | verdictMismatch
  | forged
  | noEntries
  | notBlocked
  | unboundBlock
  | noEligibleReviewer
  | noReviewLane
  | exhausted
  | noActiveWriter
  | noWriterLane
  | unexpectedOutcome
  | successorScope (refusal : ScopeRefusal)
  | noAttempt

inductive Routed
  | order (order : WorkOrder)
  | passed
  | refused (why : RouteRefusal)

/-- What `nextWorkOrder` decides from. -/
structure ReviewState where
  requested : WorkOrder
  entries : List ProvenanceEntry
  maxRevise : ℤ
  reviewRound : ℕ
  bootstrapReviewer : Option JsValue
  fixtureLane : Option FixtureLane

/-- The lane of the first review, with its runtime: only while nobody has reviewed, and only a
lane of another family than the one that wrote. -/
def bootstrapReviewerFor (requestedWorker : JsValue) (entries : List ProvenanceEntry)
    (bootstrapReviewer : Option JsValue) : Option Lane := do
  let lane ← REVIEW_LANES.find? fun lane => bootstrapReviewer.any fun named => named.isText lane.text
  if entries.any fun entry => entry.role = .review then
    none
  else
    let writeFamily ← familyForLane requestedWorker
    if writeFamily = lane.definition.family then none else some lane

/-- The successor of a completed order: its result is stripped, and the routing says whose,
where and as what attempt. -/
def mintOrder (host : CoordinatorHost) (state : ReviewState) (role : Role) (runtime : Runtime)
    (actor : JsString) (lane : Lane) (targetSha : JsValue) : Routed :=
  match freshAttempt state.requested.attemptId role.text (state.reviewRound + 1) with
  | none => .refused .noAttempt
  | some attempt =>
      match successorWorkspaceScope host.laneContract role state.fixtureLane with
      | .error refusal => .refused (.successorScope refusal)
      | .ok workspace =>
          .order { state.requested with
            role, runtime, targetSha, workspace
            actor := some actor
            requestedWorker := .string lane.text
            attemptId := .string attempt
            outcome := none }

def routeReview (host : CoordinatorHost) (state : ReviewState) : Routed :=
  let requested := state.requested
  let outputHead := match latestResultSha state.entries requested.attemptId with
    | some sha => .string sha
    | none => requested.targetSha
  match eligibleReviewers state.entries requested.reviewRuntimes with
  | [] =>
      match bootstrapReviewerFor requested.requestedWorker state.entries state.bootstrapReviewer with
      | some lane => mintOrder host state .review lane.definition.runtime lane.text lane outputHead
      | none => .refused .noEligibleReviewer
  | reviewer :: _ =>
      match laneForRuntimeRole reviewer.runtime .review with
      | none => .refused .noReviewLane
      | some lane => mintOrder host state .review reviewer.runtime reviewer.actor lane outputHead

def routeRevision (host : CoordinatorHost) (state : ReviewState) : Routed :=
  if (state.reviewRound : ℤ) > state.maxRevise then
    .refused .exhausted
  else
    match activeWriter state.entries with
    | none => .refused .noActiveWriter
    | some writer =>
        match laneForRuntimeRole writer.runtime .revise with
        | none => .refused .noWriterLane
        | some lane =>
            mintOrder host state .revise writer.runtime writer.actor lane state.requested.targetSha

def nextWorkOrder (host : CoordinatorHost) (state : ReviewState) : Routed :=
  match state.requested.role with
  | .build | .revise => routeReview host state
  | .review =>
      match state.requested.outcome with
      | some .blocked | some .failed => routeRevision host state
      | some .pass => .passed
      | none => .refused .unexpectedOutcome

/-- What `routeSuccessorFromReceipts` is given. -/
structure RoutingState where
  issueReceipts : List Receipt
  terminal : Receipt
  evidenceStage : JsValue
  evidenceResultSha : JsValue
  maxRevise : ℤ
  authoritativeHead : JsValue
  bootstrapReviewer : Option JsValue
  fixtureLane : Option FixtureLane

def completedOrderFromTerminal (terminal : Receipt) (verdict : Verdict) (runtime : Runtime) :
    WorkOrder where
  role := verdict.role
  runtime
  actor := none
  requestedWorker := terminal.requestedWorker.value
  issueId := terminal.issueId.value
  attemptId := terminal.attemptId.value
  targetSha := terminal.targetSha.value
  authorizationRef := terminal.authorizationRef.value.orElse terminal.issueId.value
  reviewRuntimes := Runtime.all.filter fun runtime => runtimeSupportsRole runtime .review
  outcome := verdict.outcome
  workspace :=
    { workspaceScope := terminal.workspaceScope.value.orElse (.string (js "full"))
      scopePhase := terminal.scopePhase.value.orElse
        (.string (if verdict.role = .review then js "review" else js "initial"))
      allowedPaths := .array (terminal.allowedPaths.value.items?.getD [])
      scopedBaseSha := terminal.scopedBaseSha.value.orElse .null }

/-- The latest write of a scoped or repository workspace that ended with its success. -/
def scopedWriterOf (receipts : List Receipt) : Option Receipt :=
  receipts.reverse.find? fun receipt =>
    isOneOf receipt.verdictStage.value [js "BUILD_READY", js "REVISION_READY"] &&
      isOneOf receipt.workspaceScope.value [js "scoped", js "repo"]

def scopedContractWriter (state : RoutingState) : Option Receipt :=
  match state.fixtureLane with
  | some fixture =>
      if fixture.id.strictEq state.terminal.issueId.value ∧ fixtureScopeConfigured fixture then
        scopedWriterOf state.issueReceipts
      else
        none
  | none => none

def outputHeadOf (state : RoutingState) : Option JsString :=
  match headOf state.authoritativeHead, headOf state.terminal.resultSha.value with
  | some head, _ => some head
  | none, some durable => some durable
  | none, none => headOf state.evidenceResultSha

def stampedEntry (state : RoutingState) (receipt : Receipt) : Option ProvenanceEntry :=
  (provenanceFromReceipt receipt).map fun entry =>
    if receipt.attemptId.value.strictEq state.terminal.attemptId.value ∧ entry.role.isWriter then
      match outputHeadOf state with
      | some head => { entry with resultSha := some head }
      | none => entry
    else
      entry

def routingEntries (state : RoutingState) : List ProvenanceEntry :=
  state.issueReceipts.filterMap (stampedEntry state)

/-- The number of reviews in the lineage. -/
def reviewRoundOf (entries : List ProvenanceEntry) : ℕ :=
  entries.countP fun entry => entry.role = .review

/-- A block in a scoped contract has to bind the writer whose head was reviewed. -/
def bindsScopedWriter (terminal writer : Receipt) : Bool :=
  terminal.branch.value.strictEq writer.branch.value &&
  terminal.issueId.value.strictEq writer.issueId.value &&
  writer.resultSha.value.strictEq terminal.targetSha.value &&
  if writer.hasRoleAuthority then
    (roleForReceipt writer).any Role.isWriter
  else
    writer.requestedWorker.value.isText Lane.codexBuilder.text

def checkVerdict (state : RoutingState) : Except RouteRefusal (Verdict × Authority) := do
  let terminal := state.terminal
  if state.fixtureLane.any fun fixture => !fixture.id.strictEq terminal.issueId.value then
    throw .laneMismatch
  let authority ← match resolveReceiptRoleAuthority terminal with
    | .ok authority => pure authority
    | .error refusal => throw (.authority refusal)
  if authority.role = .review then
    match reviewVerdictProvenanceValid terminal state.issueReceipts with
    | .ok () => pure ()
    | .error refusal => throw (.notIndependent refusal)
  if (scopedContractWriter state).isSome then
    match validateWorkspaceScope terminal.workspace false with
    | .ok _ => pure ()
    | .error refusal => throw (.terminalScope refusal)
  match outcomeForEvidenceStage state.evidenceStage with
  | none => throw .noVerdict
  | some verdict =>
      if !verdictMatchesLane terminal.requestedWorker.value state.evidenceStage then
        throw .verdictMismatch
      match headOf state.authoritativeHead, headOf state.evidenceResultSha with
      | some head, some stated => if stated ≠ head then throw .forged
      | _, _ => pure ()
      return (verdict, authority)

def routeSuccessorFromReceipts (host : CoordinatorHost) (state : RoutingState) : Routed :=
  match checkVerdict state with
  | .error refusal => .refused refusal
  | .ok (verdict, authority) =>
      let entries := routingEntries state
      let stageIs (text : JsString) : Bool := state.evidenceStage.isText text
      if entries.isEmpty then
        .refused .noEntries
      else if (scopedContractWriter state).isSome ∧ verdict.role = .review ∧
          !stageIs (js "BLOCKED") ∧ !stageIs (js "PASS") then
        .refused .notBlocked
      else if stageIs (js "BLOCKED") ∧
          (scopedContractWriter state).any fun writer => !bindsScopedWriter state.terminal writer then
        .refused .unboundBlock
      else
        nextWorkOrder host
          { requested := completedOrderFromTerminal state.terminal verdict authority.runtime
            entries
            maxRevise := state.maxRevise
            reviewRound := reviewRoundOf entries
            bootstrapReviewer := state.bootstrapReviewer
            fixtureLane := state.fixtureLane }

end StudentHub.Coordinator
