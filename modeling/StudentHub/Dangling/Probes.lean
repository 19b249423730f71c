import StudentHub.Coordinator.Receipts
import StudentHub.Concurrency.Process

/-!
# The evidence about a dangling attempt

The operation believes no probe further than its answer goes. What a probe answers may be any
value; each check says which answers it takes, and refuses the others by name. A value that
cannot be read at all makes the call reject.
-/

namespace StudentHub.Dangling

open Ecma JsString JsValue Coordinator

/-- `RECONCILE_REFUSAL_CODES` -/
inductive RefusalCode
  | alreadyTerminal
  | notDangling
  | supervisorClaimPresent
  | workerLive
  | workerStaleRecord
  | workerUnverified
  | worktreeChanged
  | branchMoved
  | pushReceiptPresent
  | evidenceMissing
  | evidenceStale
  | writeUnconfirmed
  deriving DecidableEq

inductive Stop
  | refused (code : RefusalCode)
  | rejected
  deriving DecidableEq

/-- What values are turned into: `String(value)` and `Date.parse(value)`, where they answer, a
date being `none` when there is none in the text. -/
structure ReconcileHost where
  textOf : JsValue → Option JsString
  parseDate : JsValue → Option (Option ℤ)

def refuse {Value : Type} (code : RefusalCode) : Except Stop Value := .error (.refused code)

def require (holds : Bool) (code : RefusalCode) : Except Stop Unit :=
  if holds then .ok () else refuse code

def evaluate {Value : Type} : Option Value → Except Stop Value
  | some value => .ok value
  | none => .error .rejected

/-- `value && typeof value === "object"` -/
def isObject : JsValue → Bool
  | .object _ | .array _ => true
  | _ => false

/-- `value.name`, which throws where the value is missing. -/
def member (value : JsValue) (name : JsString) : Except Stop JsValue :=
  match value with
  | .undefined | .null => .error .rejected
  | _ => .ok (value.get name)

/-- `value === true` -/
def isTrue (value : JsValue) : Bool := value.strictEq (.boolean true)

def arrayOf (value : JsValue) : Except Stop (List JsValue) :=
  match value with
  | .array items => .ok items
  | _ => refuse .evidenceMissing

variable (host : ReconcileHost)

def probeFreshness (probe startedAt : JsValue) : Except Stop Unit := do
  require (isObject probe) .evidenceMissing
  match ← evaluate (host.parseDate ((probe.get (js "observed_at")).orElse (.string []))) with
  | none => refuse .evidenceMissing
  | some observed =>
      match ← evaluate (host.parseDate (startedAt.orElse (.string []))) with
      | none => refuse .evidenceMissing
      | some started => require (started ≤ observed) .evidenceStale

/-- `String(receipt.last_activity ?? "")` -/
def activity (receipt : JsValue) : Option JsString :=
  host.textOf ((receipt.get (js "last_activity")).orElse (.string []))

def chainOf (receipts : List JsValue) (attemptId : JsString) : List JsValue :=
  receipts.filter fun receipt => receipt.truthy && (receipt.get (js "attempt_id")).isText attemptId

def newer (newest receipt : JsValue) : Except Stop JsValue := do
  let text ← evaluate (activity host receipt)
  let newestText ← evaluate (activity host newest)
  return if newestText < text then receipt else newest

/-- The newest record by `last_activity`; of equal ones the first. -/
def resolveChain (receipts : JsValue) (attemptId : JsString) : Except Stop (Option JsValue) :=
  match receipts.orElse (.array []) with
  | .array items =>
      match chainOf items attemptId with
      | [] => .ok none
      | first :: rest => (rest.foldlM (newer host) first).map some
  | _ => .error .rejected

def danglingRecord (read : JsValue) (attemptId : JsString) : Except Stop JsValue := do
  match ← resolveChain host (read.get (js "receipts")) attemptId with
  | none => refuse .evidenceMissing
  | some receipt =>
      if Stage.terminal.any fun stage => (receipt.get (js "stage")).isText stage.text then
        refuse .alreadyTerminal
      else do
        require ((receipt.get (js "stage")).isText Stage.launchUnknown.text) .notDangling
        return receipt

/-- `MISSING_CLAIM` is the one answer by which the supervisor disowns an attempt. -/
def supervisorDisownsAttempt (response : JsValue) : Except Stop Unit := do
  require (isObject response) .evidenceMissing
  require (!isTrue (response.get (js "ok"))) .supervisorClaimPresent
  match response.get (js "hold_code") with
  | .string code => require (code = js "MISSING_CLAIM") .supervisorClaimPresent
  | _ => refuse .evidenceMissing

def sightingsOf (workers : JsValue) : Except Stop (List JsValue) := do
  let _ ← arrayOf (workers.get (js "pids"))
  arrayOf (workers.get (js "sightings"))

/-- `WORKER_DISPOSITIONS` -/
inductive Disposition
  | confirmedLive
  | vanished
  | presenceUnreadable
  | tokenChanged
  | recordTokenMismatch
  | unverified
  | unobserved
  deriving DecidableEq

def classifyWorkerSighting (sighting observation : JsValue) : Disposition :=
  let isThere := isTrue (observation.get (js "exists"))
  let startToken := observation.get (js "start_token")
  let observedToken := sighting.get (js "observed_token")
  if !observation.truthy || !(observation.get (js "pid")).strictEq (sighting.get (js "pid")) then
    .unobserved
  else if !isThere && !isTrue (observation.get (js "exists_known")) then .presenceUnreadable
  else if !isThere then .vanished
  else if (sighting.get (js "record_token_match")).strictEq (.boolean false) &&
      !isTrue (sighting.get (js "independently_bound")) then
    .recordTokenMismatch
  else if !observedToken.truthy || !startToken.truthy then .unverified
  else if !startToken.strictEq observedToken then .tokenChanged
  else .confirmedLive

/-- The same key of a `Map`. -/
def sameValueZero : JsValue → JsValue → Bool
  | .number .nan, .number .nan => true
  | left, right => left.strictEq right

def observationOf (observations : List JsValue) (pid : JsValue) : JsValue :=
  ((observations.reverse.find? fun observation =>
    sameValueZero (observation.get (js "pid")) pid).getD .undefined).orElse .null

def workerVerdict (sightings observations : List JsValue) : Except Stop (List Disposition) :=
  sightings.mapM fun sighting => do
    let pid ← member sighting (js "pid")
    return classifyWorkerSighting sighting (observationOf observations pid)

def checkWorkers (sightings : List JsValue) (liveness : JsValue) : Except Stop Unit := do
  let observations ← arrayOf (liveness.get (js "observations"))
  let verdicts ← workerVerdict sightings observations
  require (.confirmedLive ∉ verdicts) .workerLive
  require (verdicts.all fun disposition =>
    disposition ∉ [.unverified, .unobserved, .presenceUnreadable]) .workerUnverified
  require (verdicts.all fun disposition =>
    disposition ∉ [.vanished, .tokenChanged, .recordTokenMismatch]) .workerStaleRecord

def receiptOf (value : JsValue) : Receipt :=
  let field (name : JsString) : Field := if value.hasOwn name then some (value.get name) else none
  { receiptVersion := field (js "receipt_version")
    issueId := field (js "issue_id")
    attemptId := field (js "attempt_id")
    authorizationRef := field (js "authorization_ref")
    stage := field (js "stage")
    requestedWorker := field (js "requested_worker")
    workerIdentity := field (js "worker_identity")
    repo := field (js "repo")
    branch := field (js "branch")
    targetSha := field (js "target_sha")
    externalRunId := field (js "external_run_id")
    adapterStatus := field (js "adapter_status")
    timestamps := field (js "timestamps")
    evidenceLinks := field (js "evidence_links")
    lastActivity := field (js "last_activity")
    notes := field (js "notes")
    role := field (js "role")
    runtime := field (js "runtime") }

/-- A review on every count: by its role, and by the full checkout without a scoped base. -/
def isReviewAttempt (receipt : JsValue) : Bool :=
  (match resolveReceiptRoleAuthority (receiptOf receipt) with
  | .ok authority => decide (authority.role = .review)
  | .error _ => false) &&
  (receipt.get (js "workspace_scope")).isText (js "full") &&
  (receipt.get (js "scope_phase")).isText (js "review") &&
  (receipt.get (js "scoped_base_sha")).strictEq .null

def worktreeBaseOf (receipt : JsValue) : Option JsString :=
  match receipt.get (if isReviewAttempt receipt then js "target_sha" else js "scoped_base_sha") with
  | .string [] => none
  | .string sha => some sha
  | _ => none

def checkWorktree (receipt worktree : JsValue) : Except Stop Unit :=
  match worktreeBaseOf receipt with
  | none => refuse .evidenceMissing
  | some base => do
      require (isTrue (worktree.get (js "root_configured"))) .evidenceMissing
      if (worktree.get (js "present")).truthy then
        match worktree.get (js "head"), worktree.get (js "porcelain") with
        | .string head, .string porcelain => do
            require (head = base) .worktreeChanged
            require (porcelain = []) .worktreeChanged
        | _, _ => refuse .evidenceMissing
      else
        return ()

def checkBranch (receipt branch : JsValue) : Except Stop Unit := do
  require (isTrue (branch.get (js "ok"))) .evidenceMissing
  require ((branch.get (js "sha")).strictEq (receipt.get (js "target_sha"))) .branchMoved

def checkPush (push : JsValue) : Except Stop Unit := do
  require (isTrue (push.get (js "readable"))) .evidenceMissing
  require (!(push.get (js "record")).truthy) .pushReceiptPresent

/-- `records?.length` counts as true. -/
def hasLength : JsValue → Bool
  | .array items => items ≠ []
  | .string text => text ≠ []
  | value => (value.get (js "length")).truthy

def checkStore (store : JsValue) : Except Stop Unit := do
  require (isTrue (store.get (js "readable"))) .evidenceMissing
  require (!hasLength (store.get (js "records"))) .supervisorClaimPresent

end StudentHub.Dangling
