import StudentHub.Coordinator.Scope

/-!
# Receipts

The record of one dispatch attempt. A receipt is read back from a comment, so each of its
fields can be any value or be missing; `validateReceipt` says what a receipt has to be, field
by field and for every stage. A field is `none` if the record has no property of that name.
-/

namespace StudentHub.Coordinator

open Ecma JsString

abbrev Field := Option JsValue

def Field.value (field : Field) : JsValue := field.getD .undefined

/-- What the coordinator uses that is text, a table or a locale. -/
structure CoordinatorHost where
  localeCompare : Comparator JsString
  laneContract : JsString → Option LaneContract
  validReviewFindings : JsValue → Bool
  reviewFindingsFromCallback : JsValue → Option JsValue
  reviewPassNote : JsValue → Option JsString
  workerSummaryNote : JsValue → Option JsString

inductive Stage
  | reserved
  | launchUnknown
  | running
  | completed
  | failed
  | hold
  deriving DecidableEq

namespace Stage

def text : Stage → JsString
  | reserved => js "RESERVED"
  | launchUnknown => js "LAUNCH_UNKNOWN"
  | running => js "RUNNING"
  | completed => js "COMPLETED"
  | failed => js "FAILED"
  | hold => js "HOLD"

/-- `STAGES` -/
def all : List Stage := [reserved, launchUnknown, running, completed, failed, hold]

/-- `TERMINAL_STAGES` -/
def terminal : List Stage := [completed, failed, hold]

def ofValue (value : JsValue) : Option Stage := all.find? fun stage => value.isText stage.text

end Stage

def ADAPTER_STATUSES : List JsString :=
  [js "queued", js "in_progress", js "suspended", js "completed", js "failed"]

def isOneOf (value : JsValue) (texts : List JsString) : Bool := texts.any value.isText

/-- The properties of a receipt that the coordinator reads. -/
structure Receipt where
  receiptVersion : Field
  issueId : Field
  attemptId : Field
  authorizationRef : Field
  stage : Field
  requestedWorker : Field
  workerIdentity : Field
  repo : Field
  branch : Field
  targetSha : Field
  externalRunId : Field
  adapterStatus : Field
  timestamps : Field
  evidenceLinks : Field
  lastActivity : Field
  notes : Field
  role : Field := none
  runtime : Field := none
  episodeId : Field := none
  activationDigest : Field := none
  reviewFindings : Field := none
  reviewBaseSha : Field := none
  workspaceScope : Field := none
  scopePhase : Field := none
  allowedPaths : Field := none
  scopedBaseSha : Field := none
  verdictStage : Field := none
  resultSha : Field := none
  errorCode : Field := none
  stopReasonCode : Field := none
  handoff : Field := none

namespace Receipt

/-- `receipt.stage === stage` -/
def isAt (receipt : Receipt) (stage : Stage) : Bool := receipt.stage.value.isText stage.text

/-- `TERMINAL_STAGES.includes(receipt.stage)` -/
def isTerminal (receipt : Receipt) : Bool := Stage.terminal.any receipt.isAt

/-- `receipt.receipt_version === "1.1.0"` -/
def hasRoleAuthority (receipt : Receipt) : Bool := receipt.receiptVersion.value.isText (js "1.1.0")

end Receipt

inductive AuthorityRefusal
  | unknownLane
  | reversalLane
  | declaredAtLegacy
  | unsupportedVersion
  | missingAuthority
  | unknownRole
  | unknownRuntime
  | roleConflict
  | runtimeConflict
  deriving DecidableEq

structure Authority where
  role : Role
  runtime : Runtime
  deriving DecidableEq

def resolveReceiptRoleAuthority (receipt : Receipt) : Except AuthorityRefusal Authority :=
  match Lane.ofName receipt.requestedWorker.value with
  | none => .error .unknownLane
  | some lane =>
      let version := receipt.receiptVersion.value.orElse (.string (js "1.0.0"))
      let isMissing (field : Field) : Bool := field.value.strictEq .undefined || field.value.strictEq .null
      if version.isText (js "1.0.0") then
        if !(LEGACY_LANE_NAMES.any fun legacy => receipt.requestedWorker.value.isText legacy.text) then
          .error .reversalLane
        else if receipt.role.isSome || receipt.runtime.isSome then
          .error .declaredAtLegacy
        else
          .ok ⟨lane.definition.role, lane.definition.runtime⟩
      else if !version.isText (js "1.1.0") then
        .error .unsupportedVersion
      else if isMissing receipt.role || isMissing receipt.runtime then
        .error .missingAuthority
      else
        match Role.ofValue receipt.role.value, Runtime.ofValue receipt.runtime.value with
        | none, _ => .error .unknownRole
        | some _, none => .error .unknownRuntime
        | some role, some runtime =>
            if role ∉ lane.definition.roles then
              .error .roleConflict
            else if runtime ≠ lane.definition.runtime then
              .error .runtimeConflict
            else
              .ok ⟨role, runtime⟩

def roleForReceipt (receipt : Receipt) : Option Role :=
  match resolveReceiptRoleAuthority receipt with
  | .ok authority => some authority.role
  | .error _ => none

/-- `/^(SHU-[0-9]+|FIXTURE-[A-Z0-9-]+)$/` -/
def isAuthorizationRef (text : JsString) : Bool :=
  let rest (front : JsString) (fits : UInt16 → Bool) : Bool :=
    front.isPrefixOf text && text.length > front.length && (text.drop front.length).all fits
  rest (js "SHU-") isDigit || rest (js "FIXTURE-") fun unit => isUpper unit || isDigit unit || unit = 45

def authorizationRefValid : JsValue → Bool
  | .string ref => isAuthorizationRef ref
  | _ => false

/-- `/^[0-9a-f]{8}-[0-9a-f]{4}-[0-9a-f]{4}-[0-9a-f]{4}-[0-9a-f]{12}$/` -/
def isUuid (text : JsString) : Bool :=
  let hex := List.replicate 4 isLowerHex
  let dash := [fun unit : UInt16 => decide (unit = 45)]
  text.matchesClasses (hex ++ hex ++ dash ++ hex ++ dash ++ hex ++ dash ++ hex ++ dash ++ hex ++
    hex ++ hex)

/-- `/^(?:apirun|clauderun|codexrun|supervisor)_[A-Za-z0-9_-]+$/` -/
def isRunId (text : JsString) : Bool :=
  [js "apirun_", js "clauderun_", js "codexrun_", js "supervisor_"].any fun front =>
    front.isPrefixOf text && text.length > front.length &&
      (text.drop front.length).all fun unit => isLetter unit || isDigit unit || unit = 95 || unit = 45

/-- `${value}` -/
def template (value : JsValue) : JsString := value.toText.getD []

def orderWorkspace (order : JsValue) : WorkspaceFields where
  workspaceScope := order.get (js "workspace_scope")
  scopePhase := order.get (js "scope_phase")
  allowedPaths := order.get (js "allowed_paths")
  scopedBaseSha := if (order.get (js "scoped_base_sha")).isDefined then
    order.get (js "scoped_base_sha") else .null

def validWorkOrder (order : JsValue) : Bool :=
  let host : Supervisor.SupervisorHost :=
    { Supervisor.SupervisorHost.ofDigests [] with
      validWorkspaceScope := fun order =>
        (validateWorkspaceScope (orderWorkspace order) false).toOption.isSome }
  Supervisor.validWorkOrder host order

def handoffHead (receipt : Receipt) : JsValue :=
  if isOneOf receipt.verdictStage.value [js "BUILD_READY", js "REVISION_READY"] then
    receipt.resultSha.value
  else
    receipt.targetSha.value

def validHandoff (receipt : Receipt) : Bool :=
  let handoff := receipt.handoff.value
  handoff.truthy &&
  (handoff.get (js "source_attempt_id")).strictEq receipt.attemptId.value &&
  isOneOf (handoff.get (js "hold_code")) Supervisor.HOLD_CODES &&
  isOneOf (handoff.get (js "action")) [js "merge-readiness", js "work-order", js "HOLD"] &&
  isSha ((handoff.get (js "target_sha")).orElse (.string [])) &&
  if (handoff.get (js "action")).isText (js "HOLD") then
    match handoff.get (js "reason") with
    | .string _ => true
    | _ => false
  else
    (handoff.get (js "target_sha")).strictEq (handoffHead receipt) &&
    (handoff.get (js "verdict_stage")).strictEq receipt.verdictStage.value &&
    if (handoff.get (js "action")).isText (js "merge-readiness") then
      receipt.isAt .completed && receipt.verdictStage.value.isText (js "PASS")
    else
      let order := handoff.get (js "order")
      validWorkOrder order &&
      (order.get (js "issue_id")).strictEq receipt.issueId.value &&
      (order.get (js "repo")).strictEq receipt.repo.value &&
      (order.get (js "branch")).strictEq receipt.branch.value &&
      (order.get (js "target_sha")).strictEq (handoff.get (js "target_sha")) &&
      (!(handoff.get (js "claim_attempt_id")).truthy ||
        (handoff.get (js "claim_attempt_id")).strictEq (order.get (js "attempt_id")))

end StudentHub.Coordinator
