import StudentHub.Coordinator.Receipts

/-!
# Validation of receipts

`validateReceipt` collects every error of a record whose required properties are all there.
The checks are grouped by the fields they read, which is what tells whether a change of
some fields can make a valid receipt invalid.
-/

namespace StudentHub.Coordinator

open Ecma JsString

inductive ReceiptError
  | missing (field : JsString)
  | wrongType (field : JsString)
  | wrongPattern (field : JsString)
  | notAllowed (field : JsString)
  | invalidActivationDigest
  | authority (refusal : AuthorityRefusal)
  | unapprovedAuthorizationRef
  | partialScope
  | allowedPathsNotStrings
  | scope (refusal : ScopeRefusal)
  | invalidReviewBase
  | reviewBaseWithoutReview
  | foreignSupervisorRun
  | timestampsNotObject
  | missingTimestamp (name : JsString)
  | wrongTimestamp (name : JsString)
  | unsetReservation
  | notStrings (field : JsString)
  | reservedWithRun
  | reservedWithIdentity
  | reservedWithStatus
  | discoveredWithoutIdentity
  | discoveredNotInProgress
  | unknownWithIdentity
  | unknownWithStatus
  | failedRunNotFailed
  | failedWithIdentity
  | failedWithStatus
  | heldWithIdentity
  | heldWithStatus
  | heldRunWithoutStatus
  | acceptedWithoutRun
  | acceptedWithoutStatus
  | identityWithoutRun
  | unsetTerminal
  | reservedWithLaunch
  | completedWithoutEvidence
  | invalidHandoff
  deriving DecidableEq

def expect (check : Bool) (error : ReceiptError) : List ReceiptError := if check then [] else [error]

@[simp]
theorem expect_eq_nil {check : Bool} {error : ReceiptError} :
    expect check error = [] ↔ check = true := by
  cases check <;> simp [expect]

def isString : JsValue → Bool
  | .string _ => true
  | _ => false

/-- `value === null` -/
def isNull : JsValue → Bool
  | .null => true
  | _ => false

/-- `expectPattern`: only a string can fail a pattern. -/
def fitsPattern (fits : JsString → Bool) : JsValue → Bool
  | .string text => fits text
  | _ => true

/-- The own properties that `receipt-schema.json` requires. -/
def requiredFields (receipt : Receipt) : List (JsString × Field) :=
  [(js "receipt_version", receipt.receiptVersion), (js "issue_id", receipt.issueId),
    (js "attempt_id", receipt.attemptId), (js "authorization_ref", receipt.authorizationRef),
    (js "stage", receipt.stage), (js "requested_worker", receipt.requestedWorker),
    (js "worker_identity", receipt.workerIdentity), (js "repo", receipt.repo),
    (js "branch", receipt.branch), (js "target_sha", receipt.targetSha),
    (js "external_run_id", receipt.externalRunId), (js "adapter_status", receipt.adapterStatus),
    (js "timestamps", receipt.timestamps), (js "evidence_links", receipt.evidenceLinks),
    (js "last_activity", receipt.lastActivity), (js "notes", receipt.notes)]

def missingErrors (receipt : Receipt) : List ReceiptError :=
  ((requiredFields receipt).filter fun field => field.2.isNone).map fun field => .missing field.1

def Receipt.workspace (receipt : Receipt) : WorkspaceFields where
  workspaceScope := receipt.workspaceScope.value
  scopePhase := receipt.scopePhase.value
  allowedPaths := receipt.allowedPaths.value
  scopedBaseSha := if receipt.scopedBaseSha.value.isDefined then receipt.scopedBaseSha.value else .null

def scopeErrors (receipt : Receipt) : List ReceiptError :=
  let fields := [receipt.workspaceScope, receipt.scopePhase, receipt.allowedPaths,
    receipt.scopedBaseSha]
  if fields.any Option.isSome then
    if fields.all Option.isSome then
      match receipt.allowedPaths.value with
      | .array paths =>
          if paths.all isString then
            match validateWorkspaceScope receipt.workspace true with
            | .ok _ => []
            | .error refusal => [.scope refusal]
          else
            [.allowedPathsNotStrings]
      | _ => [.allowedPathsNotStrings]
    else
      [.partialScope]
  else
    []

def bindingErrors (receipt : Receipt) : List ReceiptError :=
  expect (isOneOf receipt.receiptVersion.value [js "1.0.0", js "1.1.0"])
    (.notAllowed (js "receipt_version")) ++
  expect (receipt.activationDigest.isNone ||
      ((receipt.activationDigest.value.orElse (.string [])).toText.any fun digest =>
        digest.length = 64 && digest.all isLowerHex)) .invalidActivationDigest ++
  (match resolveReceiptRoleAuthority receipt with
    | .ok _ => []
    | .error refusal => [.authority refusal]) ++
  expect (isString receipt.issueId.value) (.wrongType (js "issue_id")) ++
  expect (fitsPattern isUuid receipt.attemptId.value) (.wrongPattern (js "attempt_id")) ++
  expect (isString receipt.authorizationRef.value) (.wrongType (js "authorization_ref")) ++
  expect (authorizationRefValid receipt.authorizationRef.value) .unapprovedAuthorizationRef ++
  expect (Lane.ofValue receipt.requestedWorker.value).isSome
    (.notAllowed (js "requested_worker")) ++
  expect (isString receipt.repo.value) (.wrongType (js "repo")) ++
  expect (isString receipt.branch.value) (.wrongType (js "branch")) ++
  expect (fitsPattern Supervisor.isTargetSha receipt.targetSha.value)
    (.wrongPattern (js "target_sha")) ++
  scopeErrors receipt ++
  if receipt.reviewBaseSha.isSome then
    expect (isSha (receipt.reviewBaseSha.value.orElse (.string [])) &&
      !receipt.reviewBaseSha.value.strictEq receipt.targetSha.value) .invalidReviewBase ++
    expect (roleForReceipt receipt = some .review) .reviewBaseWithoutReview
  else
    []

def runErrors (receipt : Receipt) : List ReceiptError :=
  let nullable (value : JsValue) : Bool := isNull value || isString value
  expect (nullable receipt.workerIdentity.value) (.wrongType (js "worker_identity")) ++
  expect (nullable receipt.externalRunId.value) (.wrongType (js "external_run_id")) ++
  expect (nullable receipt.adapterStatus.value) (.wrongType (js "adapter_status")) ++
  expect (fitsPattern isRunId receipt.externalRunId.value) (.wrongPattern (js "external_run_id")) ++
  expect (fitsPattern (fun run => !(js "supervisor_").isPrefixOf run ||
      run = js "supervisor_" ++ template receipt.attemptId.value) receipt.externalRunId.value)
    .foreignSupervisorRun ++
  expect (isNull receipt.adapterStatus.value || isOneOf receipt.adapterStatus.value ADAPTER_STATUSES)
    (.notAllowed (js "adapter_status"))

def TIMESTAMPS : List JsString := [js "reserved", js "launch", js "heartbeat", js "terminal"]

def timestampErrors (receipt : Receipt) : List ReceiptError :=
  match receipt.timestamps.value with
  | .object properties =>
      let timestamps := JsValue.object properties
      (TIMESTAMPS.flatMap fun name =>
        if timestamps.hasOwn name then
          expect (isNull (timestamps.get name) || isString (timestamps.get name))
            (.wrongTimestamp name)
        else
          [.missingTimestamp name]) ++
      expect (isString (timestamps.get (js "reserved"))) .unsetReservation
  | _ => [.timestampsNotObject]

def listErrors (field : JsString) (value : JsValue) : List ReceiptError :=
  match value with
  | .array items => expect (items.all isString) (.notStrings field)
  | _ => [.wrongType field]

def stageErrors (receipt : Receipt) : List ReceiptError :=
  let noRun := isNull receipt.externalRunId.value
  let noIdentity := isNull receipt.workerIdentity.value
  let noStatus := isNull receipt.adapterStatus.value
  let granular := isOneOf receipt.adapterStatus.value ADAPTER_STATUSES
  (if receipt.isAt .reserved then
    expect noRun .reservedWithRun ++ expect noIdentity .reservedWithIdentity ++
      expect noStatus .reservedWithStatus
  else if receipt.isAt .launchUnknown then
    if noRun then
      expect noIdentity .unknownWithIdentity ++ expect noStatus .unknownWithStatus
    else
      expect (isString receipt.workerIdentity.value && receipt.workerIdentity.value.truthy)
        .discoveredWithoutIdentity ++
      expect (receipt.adapterStatus.value.isText (js "in_progress")) .discoveredNotInProgress
  else if receipt.isAt .failed then
    if noRun then
      expect noIdentity .failedWithIdentity ++ expect noStatus .failedWithStatus
    else
      expect (receipt.adapterStatus.value.isText (js "failed")) .failedRunNotFailed
  else if receipt.isAt .hold then
    if noRun then
      expect noIdentity .heldWithIdentity ++ expect noStatus .heldWithStatus
    else
      expect granular .heldRunWithoutStatus
  else
    expect (!noRun) .acceptedWithoutRun ++ expect granular .acceptedWithoutStatus) ++
  expect (noIdentity || !noRun) .identityWithoutRun

def endingErrors (receipt : Receipt) : List ReceiptError :=
  (match receipt.timestamps.value with
    | .object properties =>
        expect (!receipt.isTerminal || !isNull ((JsValue.object properties).get (js "terminal")))
          .unsetTerminal ++
        expect (!receipt.isAt .reserved || isNull ((JsValue.object properties).get (js "launch")))
          .reservedWithLaunch
    | _ => []) ++
  expect (!receipt.isAt .completed || receipt.evidenceLinks.value.items?.any fun links =>
      !links.isEmpty) .completedWithoutEvidence ++
  expect (receipt.handoff.isNone || validHandoff receipt) .invalidHandoff

def validateReceipt (receipt : Receipt) : List ReceiptError :=
  if (missingErrors receipt).isEmpty then
    bindingErrors receipt ++
    expect (Stage.ofValue receipt.stage.value).isSome (.notAllowed (js "stage")) ++
    expect (isString receipt.lastActivity.value) (.wrongType (js "last_activity")) ++
    runErrors receipt ++
    timestampErrors receipt ++
    listErrors (js "evidence_links") receipt.evidenceLinks.value ++
    listErrors (js "notes") receipt.notes.value ++
    stageErrors receipt ++
    endingErrors receipt
  else
    missingErrors receipt

def Receipt.Valid (receipt : Receipt) : Prop := validateReceipt receipt = []

instance (receipt : Receipt) : Decidable receipt.Valid :=
  inferInstanceAs (Decidable (validateReceipt receipt = []))

/-- What `createReceipt` is given; what has a default is `none` if it is not given. -/
structure Reservation where
  issueId : JsValue
  authorizationRef : JsValue
  requestedWorker : JsValue
  repo : JsValue
  branch : JsValue
  targetSha : JsValue
  receiptVersion : JsString := js "1.0.0"
  role : JsValue
  runtime : JsValue
  workspace : WorkspaceFields
  episodeId : JsValue := .null
  activationDigest : JsValue := .null
  reviewFindings : JsValue := .null
  reviewBaseSha : JsValue := .null
  attemptId : JsValue
  reservedAt : JsValue

def reservedReceipt (host : CoordinatorHost) (given : Reservation) : Receipt where
  receiptVersion := some (.string given.receiptVersion)
  role := if given.receiptVersion = js "1.1.0" then some given.role else none
  runtime := if given.receiptVersion = js "1.1.0" then some given.runtime else none
  issueId := some given.issueId
  attemptId := some given.attemptId
  authorizationRef := some given.authorizationRef
  episodeId := some given.episodeId
  activationDigest := if given.activationDigest.truthy then some given.activationDigest else none
  reviewFindings :=
    if given.workspace.scopePhase.isText (js "revision") ∧ host.validReviewFindings given.reviewFindings then
      some given.reviewFindings
    else
      none
  reviewBaseSha := if isNull given.reviewBaseSha then none else some given.reviewBaseSha
  stage := some (.string Stage.reserved.text)
  requestedWorker := some given.requestedWorker
  workerIdentity := some .null
  repo := some given.repo
  branch := some given.branch
  targetSha := some given.targetSha
  workspaceScope := some given.workspace.workspaceScope
  scopePhase := some given.workspace.scopePhase
  allowedPaths := some given.workspace.allowedPaths
  scopedBaseSha := some given.workspace.scopedBaseSha
  externalRunId := some .null
  adapterStatus := some .null
  timestamps := some (.object [(js "reserved", given.reservedAt), (js "launch", .null),
    (js "heartbeat", .null), (js "terminal", .null)])
  evidenceLinks := some (.array [])
  lastActivity := some given.reservedAt
  notes := some (.array [.string (js "reserved (attempt " ++ template given.attemptId ++ js ")")])

def createReceipt (host : CoordinatorHost) (given : Reservation) :
    Except (List ReceiptError) Receipt :=
  if (validateReceipt (reservedReceipt host given)).isEmpty then
    .ok (reservedReceipt host given)
  else
    .error (validateReceipt (reservedReceipt host given))

end StudentHub.Coordinator
