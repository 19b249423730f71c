import StudentHub.Supervisor.Store

/-!
# The supervisor

The supervisor accepts orders, launches a worker for an accepted one, follows the worker
to its end and recovers after a restart. Its calls are tasks over the state directory, as
are the completions that workers record themselves. What a supervisor keeps in memory only
says which of its tasks come next, so any task may be started at any time here, by any
number of supervisors.
-/

namespace StudentHub.Supervisor

open Ecma Concurrency JsString JsValue

def CHILD_FAILURE_CODES : List JsString :=
  [js "CHILD_AUTH_REFUSED", js "CHILD_RUNTIME_UNSUPPORTED", js "CHILD_COMPLETION_UNRECORDED",
    js "CHILD_ADAPTER_LAUNCH_THREW", js "CHILD_ADAPTER_MONITOR_THREW", js "SHU251_ENV_CUSTODY",
    js "SHU251_ENV_CROSSED", js "SHU71_SUPERVISOR_ENV_REQUIRED", js "SHU251_CHILD_FAILED"]

def CHILD_AUTH_CLAUSES : List JsString :=
  [js "DISPATCH_SCOPE", js "ADAPTER_PAUSED", js "EVIDENCE_UNAVAILABLE", js "DISPATCH_DISABLED",
    js "TARGET_NOT_ALLOWED", js "LANE_REF", js "REVIEW_BINDING", js "ATTEMPT_SCOPE",
    js "CHECK_FAILED", js "ACTIVATION_SPENT", js "ACTIVATION_EXPIRED", js "ACTIVATION_REFUSED",
    js "ACT_ACTIVATION_REPLAY", js "ACT_ENVELOPE_MISMATCH", js "ACT_EVIDENCE_UNAVAILABLE",
    js "ACT_FORGED_ENVELOPE", js "ACT_ID_OR_EXPIRY_INVALID", js "ACT_LANE_CROSS",
    js "ACT_MALFORMED", js "ACT_MANUAL_GATE_BYPASS", js "ACT_PACKAGE_MALFORMED",
    js "ACT_PARTIAL_ARMING", js "ACT_PRIOR_STATE_DRIFT", js "ACT_STALE_SEED",
    js "ACT_STALE_SEED_HEAD", js "ACT_TRUST_ANCHOR_INVALID", js "ACT_TRUST_ANCHOR_MISMATCH",
    js "ACT_WRONG_FIXTURE"]

def childFailureCodeAllowed (code : JsString) : Bool :=
  code ∈ CHILD_FAILURE_CODES ||
    (js "CHILD_AUTH_" <+: code) && code.drop (js "CHILD_AUTH_").length ∈ CHILD_AUTH_CLAUSES

def workerExitCode (stderrTail : JsString) : JsString :=
  let lines := ((stderrTail.splitOn 10).map trim).filter (· ≠ [])
  let last := lines.getLast?.getD []
  if childFailureCodeAllowed last then js "WORKER_EXIT_" ++ last else js "WORKER_EXIT"

/-- How a worker comes to its end, as `finish` is told. -/
inductive Ending
  | held (errorCode reason : JsString)
  | workerError (reason : JsString)
  | exited (code signal : JsValue) (stderrTail : JsString)

namespace Ending

def status : Ending → JsString
  | held _ _ => js "hold"
  | workerError _ => js "failed"
  | exited code _ _ =>
      if code.strictEq (.number (.ofNat 0)) then js "completed" else js "failed"

def details : Ending → List (JsString × JsValue)
  | held errorCode reason =>
      [(js "error_code", .string errorCode), (js "reason", .string reason)]
  | workerError reason =>
      [(js "error_code", .string (js "WORKER_ERROR")), (js "reason", .string reason)]
  | exited code signal stderrTail =>
      [(js "exit_code", code), (js "signal", signal.orElse .null)] ++
        if code.strictEq (.number (.ofNat 0)) then []
        else [(js "error_code", .string (workerExitCode stderrTail))]

end Ending

def awaitsLaunch (attemptId : JsString) : Program Bool := do
  let report ← reportIntent (← readOrder attemptId)
  if report.holdCode.any (·.isText (js "AWAITING_LAUNCH")) then
    return true
  else
    hasLaunch attemptId

def startWorker (attemptId token : JsString) : Program Child := do
  let order ← readOrder attemptId
  let targetSha := (← readOrder attemptId).get (js "target_sha")
  match (← call (.spawnWorker order attemptId targetSha token)) with
  | some child =>
      if hasLaunchReceipt.isPositiveInteger child.pid then
        return child
      else
        .thrown (.failure (js "worker returned no pid"))
  | none => .thrown (.failure (js "worker spawn failed"))

def spawnFailed (attemptId : JsString) (run : JsValue) : Program JsValue := do
  writeRun attemptId (run.assign [(js "status", .string (js "failed")),
    (js "finished_at", .string (← call .now)),
    (js "error_code", .string (js "SPAWN_FAILED")),
    (js "reason", .string (js "worker spawn failed"))])

def startedRun (run : JsValue) (child : Child) (now : JsString) : JsValue :=
  let identityKnown :=
    match child.processToken with
    | .string token => token ≠ [] && token.length ≤ 255
    | _ => false
  run.assign ([(js "status", .string (if identityKnown then js "running" else js "hold")),
    (js "pid", child.pid),
    (js "process_token", if identityKnown then child.processToken else .null),
    (js "started_at", .string now), (js "output_bytes", .number (.ofNat 0))] ++
    if identityKnown then []
    else [(js "error_code", .string (js "PROCESS_IDENTITY_UNKNOWN")),
      (js "reason", .string (js "worker started without durable process-start evidence"))])

def workerStarted (attemptId : JsString) (run : JsValue) (child : Child) : Program JsValue := do
  let running ← writeRun attemptId (startedRun run child (← call .now))
  let launch ← readLaunch attemptId
  markLaunch attemptId (launch.assign [(js "phase", .string (js "launched")),
    (js "issue_id", run.get (js "issue_id")), (js "target_sha", run.get (js "target_sha")),
    (js "pid", child.pid), (js "launched_at", .string (← call .now))])
  return running

def launchClaimed (host : SupervisorHost) (attemptId : JsString) (run : JsValue) :
    Program JsValue := do
  let token ← call .randomBytes
  -- This marker comes before the spawn, so a death in between is never taken for no launch.
  markLaunch attemptId (.object [(js "attempt_id", .string attemptId),
    (js "phase", .string (js "spawn_attempted")),
    (js "spawn_attempted_at", .string (← call .now)),
    (js "completion_token_hash", .string (host.sha256 token))])
  match (← (startWorker attemptId token).attempt) with
  | .error _ => spawnFailed attemptId run
  | .ok child => workerStarted attemptId run child

def reservation (attemptId now : JsString) : JsValue :=
  .object [(js "attempt_id", .string attemptId), (js "phase", .string (js "reserved")),
    (js "reserved_at", .string now)]

def launch (host : SupervisorHost) (attemptId : JsString) : Program JsValue := do
  let run ← readRun attemptId
  if !(run.get (js "status")).isText (js "accepted") then
    return run
  else if !(← awaitsLaunch attemptId) then
    return run
  else if (← claimLaunch attemptId (reservation attemptId (← call .now))) then
    launchClaimed host attemptId run
  else
    readRun attemptId

/-- The completion that the supervisor records for a worker which has not done so itself. -/
def ownCompletion (attemptId token : JsString) (latest : JsValue) (ending : Ending)
    (outputBytes : ℕ) (now : JsString) : JsValue :=
  let detail (name : JsString) := (JsValue.object ending.details).get name
  .object [(js "attempt_id", .string attemptId), (js "completion_token", .string token),
    (js "target_sha", latest.get (js "target_sha")),
    (js "exit_code", if ending.status = js "completed" then .number (.ofNat 0)
      else (detail (js "exit_code")).orElse (.number (.ofNat 1))),
    (js "signal", (detail (js "signal")).orElse .null),
    (js "output_bytes", .number (.ofNat outputBytes)), (js "finished_at", .string now)]

def completionRecorded (host : SupervisorHost) (attemptId : JsString) (ending : Ending)
    (completion : JsValue) : Program Bool := do
  if ending.status = js "hold" then
    return false
  else if (← hasCompletion attemptId) then
    return (← validatedCompletion host attemptId).isOk
  else
    return (← recordCompletion host completion).isOk

def finish (host : SupervisorHost) (attemptId token : JsString) (ending : Ending)
    (outputBytes : ℕ) : Program JsValue := do
  let latest ← readRun attemptId
  let completion := ownCompletion attemptId token latest ending outputBytes (← call .now)
  let recorded ← completionRecorded host attemptId ending completion
  let run ← readRun attemptId
  writeRun attemptId (run.assign ([(js "status", .string ending.status),
    (js "output_bytes", .number (.ofNat outputBytes)),
    (js "finished_at", .string (← call .now))] ++ ending.details ++
    if recorded then [(js "completion_durable", .boolean true)] else []))

def heartbeat (host : SupervisorHost) (attemptId at_ : JsString) : Program JsValue := do
  if (host.dates.parse at_).isSome then
    let run ← readRun attemptId
    writeRun attemptId (run.assign [(js "heartbeat", .string at_)])
  else
    return .undefined

def shutdownChild (attemptId : JsString) : Program JsValue := do
  let run ← readRun attemptId
  writeRun attemptId (run.assign [(js "status", .string (js "hold")),
    (js "error_code", .string (js "SUPERVISOR_SHUTDOWN")),
    (js "reason", .string (js "supervisor explicitly terminated its child during shutdown")),
    (js "shutdown_at", .string (← call .now))])

def holdDetail (run : JsValue) (stage : JsString) : List (JsString × JsValue) :=
  match run.get (js "error_code") with
  | .string code =>
      if stage ∈ [js "HOLD", js "FAILED"] && isErrorCode code then
        [(js "detail_code", .string code)]
      else
        []
  | _ => []
where
  /-- `/^[A-Z][A-Z0-9_]{2,47}$/` -/
  isErrorCode : JsString → Bool
    | [] => false
    | first :: rest => isUpper first && 2 ≤ rest.length && rest.length ≤ 47 &&
        rest.all fun unit => isUpper unit || isDigit unit || unit = 95

/-- The answer `{ ok: false, stage, ...more, reason }`. -/
def refusal (stage : JsString) (more : List (JsString × JsValue)) (reason : JsString) : JsValue :=
  .object ([(js "ok", .boolean false), (js "stage", .string stage)] ++ more ++
    [(js "reason", .string reason)])

def IntentReport.entries (report : IntentReport) : List (JsString × JsValue) :=
  [(js "status", .string report.status)] ++
    report.holdCode.toList.map (js "hold_code", ·) ++
    report.launchReceipt.toList.map (js "launch_receipt", ·) ++
    [(js "next_automatic_action", .null)]

def announce (order : JsValue) : Program IntentReport := do
  let path ← intentPath order
  check (← call (.existsSync .intents path))
    (js "ANNOUNCE_WITHOUT_CLAIM: durable intent required before announcement")
  reportIntent order

def scheduleAccepted (order run : JsValue) : Program Unit := do
  let attemptId := textOf order (js "attempt_id")
  if !(run.get (js "status")).isText (js "accepted") then
    return ()
  else if (← hasLaunch attemptId) then
    return ()
  else if (← reportIntent order).holdCode.any (·.isText (js "AWAITING_LAUNCH")) then
    call (.schedule attemptId)
  else
    return ()

def submit (host : SupervisorHost) (fuel : ℕ) (order : JsValue) : Program JsValue := do
  if !validateBoundOrder host order then
    return refusal (js "HOLD") [] (js "invalid work order")
  else
    match (← accept host fuel order (← call .now)) with
    | .hold reason holdCode =>
        return refusal (js "HOLD") (holdCode.toList.map (js "hold_code", .string ·)) reason
    | .accepted duplicate run =>
        scheduleAccepted order run
        let stage ← upperCase (run.get (js "status"))
        let report ← announce order
        return .assign (.object []) ([(js "version", .string SUPERVISOR_PROTOCOL_VERSION),
          (js "ok", .boolean true), (js "stage", .string stage),
          (js "attempt_id", order.get (js "attempt_id")),
          (js "target_sha", order.get (js "target_sha")), (js "durable", .boolean true),
          (js "duplicate", .boolean duplicate)] ++ report.entries ++ holdDetail run stage)

def PRE_ADMISSION_REFUSALS : List JsString := [js "BRANCH_OCCUPIED", js "MISSING_AUTHORITY"]

def BINDING : List JsString :=
  [js "attempt_id", js "target_sha", js "repo", js "branch", js "role", js "runtime",
    js "issue_id", js "authorization_ref"]

def isBoundTo (stored order : JsValue) : Bool :=
  BINDING.all fun key => (stored.get key).strictEq (order.get key)

def refusedIntent (order : JsValue) : Program Bool := do
  let path ← intentPath order
  let intent ← readJson .intents path
  if !isBoundTo (intent.get (js "order")) order then
    return false
  else
    requireHoldCode (intent.get (js "hold_code"))
    return PRE_ADMISSION_REFUSALS.any (intent.get (js "hold_code")).isText

def refusedWithoutRecord (order : JsValue) : Program Bool := do
  match (← (refusedIntent order).attempt) with
  | .ok true =>
      let path ← ofExcept (paths (textOf order (js "attempt_id")))
      if (← call (.existsSync .orders path)) then return false
      else if (← call (.existsSync .runs path)) then return false
      else if (← call (.existsSync .launches path)) then return false
      else return !(← call (.existsSync .completions path))
  | _ => return false

def RUN_STATES : List JsString :=
  [js "accepted", js "running", js "hold", js "completed", js "failed"]

def STAGES : List JsString :=
  [js "ACCEPTED", js "RUNNING", js "HOLD", js "COMPLETED", js "FAILED"]

def terminalField (terminal : Option JsValue) (name : JsString) : JsValue :=
  match terminal with
  | some completion => completion.get name
  | none => .undefined

def stageOf (run : JsValue) (terminal : Option JsValue) : Program JsString :=
  if (run.get (js "status")).isText (js "hold") then
    return js "HOLD"
  else
    upperCase ((terminalField terminal (js "status")).orElse (run.get (js "status")))

/-- The answer for an order that has been admitted, with its launch receipt or its hold code. -/
def stageAnswer (order run : JsValue) (terminal : Option JsValue) (stage : JsString)
    (shown : JsString × JsValue) : JsValue :=
  .object ([(js "version", .string SUPERVISOR_PROTOCOL_VERSION), (js "ok", .boolean true),
    (js "durable", .boolean true), (js "attempt_id", order.get (js "attempt_id")),
    (js "target_sha", order.get (js "target_sha")), (js "stage", .string stage), shown,
    (js "result", (terminalField terminal (js "result")).orElse .null),
    (js "heartbeat", (run.get (js "heartbeat")).orElse .null)] ++ holdDetail run stage)

/-- An execution is only answered with a launch receipt that its intent reports. -/
def answerStage (order run : JsValue) (terminal : Option JsValue) (stage : JsString) :
    Program JsValue := do
  if stage ∉ STAGES then
    return refusal (js "HOLD") [] (js "unknown durable run state")
  else
    let report ← reportIntent order
    let execution : Bool := stage ∈ [js "RUNNING", js "COMPLETED", js "FAILED"]
    let receipt := report.launchReceipt.getD .undefined
    if execution && !hasLaunchReceipt receipt order then
      return refusal (js "UNLAUNCHED") [] (js "launch receipt missing or invalid")
    else if execution || hasLaunchReceipt receipt order then
      return stageAnswer order run terminal stage (js "launch_receipt", receipt)
    else
      let holdCode := ((run.get (js "hold_code")).orElse
        (report.holdCode.getD .undefined)).orElse (.string (js "AWAITING_LAUNCH"))
      requireHoldCode holdCode
      return stageAnswer order run terminal stage (js "hold_code", holdCode)

def statusOfOrder (host : SupervisorHost) (requested : JsValue) : Program JsValue := do
  let order ← readOrder (textOf requested (js "attempt_id"))
  if !isBoundTo order requested then
    return refusal (js "HOLD") [] (js "status binding mismatch")
  else
    let attemptId := textOf order (js "attempt_id")
    let run ← readRun attemptId
    if !RUN_STATES.any (run.get (js "status")).isText then
      return refusal (js "HOLD") [] (js "unknown durable run state")
    else if (← hasCompletion attemptId) then
      match (← validatedCompletion host attemptId) with
      | .error reason => return refusal (js "HOLD") [] reason
      | .ok completion =>
          answerStage order run (some completion) (← stageOf run (some completion))
    else
      answerStage order run none (← stageOf run none)

def status (host : SupervisorHost) (requested : JsValue) : Program JsValue := do
  if !validateBoundOrder host requested then
    return refusal (js "HOLD") [] (js "invalid work order")
  else if (← refusedWithoutRecord requested) then
    return refusal (js "HOLD") [(js "hold_code", .string (js "MISSING_CLAIM")),
      (js "detail_code", .string (js "NO_RECORDS"))]
      (js "supervisor refused this attempt and holds no record of it")
  else
    match (← (statusOfOrder host requested).attempt) with
    | .ok answer => return answer
    | .error (.assertion message) => .thrown (.assertion message)
    | .error _ =>
        let holdCode := (js "hold_code", .string (js "MISSING_CLAIM"))
        return refusal (js "HOLD") [holdCode] (js "supervisor attempt unavailable")

/-- `Math.max(left ?? 0, right ?? 0)` -/
def larger (left right : JsValue) : JsValue :=
  match left.orElse (.number (.ofNat 0)), right.orElse (.number (.ofNat 0)) with
  | .number (.finite first), .number (.finite second) =>
      .number (.finite (if first.compare second < 0 then second else first))
  | _, _ => .number .nan

def acceptPending (host : SupervisorHost) (fuel : ℕ) : List JsValue → Program Unit
  | [] => return ()
  | intent :: rest => do
      if (intent.get (js "hold_code")).isText (js "AWAITING_LAUNCH") then
        let _ ← accept host fuel (intent.get (js "order")) (← call .now)
      acceptPending host fuel rest

/-- A run with a completion takes over what the completion says, if it is a valid one. -/
def recoverCompleted (host : SupervisorHost) (attemptId : JsString) (run : JsValue) :
    Program JsValue := do
  match (← validatedCompletion host attemptId) with
  | .ok completion =>
      writeRun attemptId (run.assign (completion.entries ++
        [(js "output_bytes", larger (run.get (js "output_bytes"))
          (completion.get (js "output_bytes"))),
        (js "completion_durable", .boolean true), (js "recovered_at", .string (← call .now))]))
  | .error reason =>
      writeRun attemptId (run.assign [(js "status", .string (js "hold")),
        (js "error_code", .string (js "INVALID_COMPLETION")), (js "reason", .string reason),
        (js "recovered_at", .string (← call .now))])

def recoverAccepted (host : SupervisorHost) (attemptId : JsString) (run : JsValue) :
    Program JsValue := do
  if (← hasLaunch attemptId) then
    let order ← readOrder attemptId
    let _ ← intend host order (← call .now) (js "AMBIGUOUS_LAUNCH")
    holdIntent order (js "AMBIGUOUS_LAUNCH")
    writeRun attemptId (run.assign [(js "status", .string (js "hold")),
      (js "recovered_at", .string (← call .now)),
      (js "hold_code", .string (js "AMBIGUOUS_LAUNCH")),
      (js "error_code", .string (js "AMBIGUOUS_LAUNCH")),
      (js "reason", .string
        (js "launch was attempted before restart; refusing duplicate spawn"))])
  else
    let intent ← intend host (← readOrder attemptId) (← call .now) (js "AWAITING_LAUNCH")
    if (intent.get (js "hold_code")).isText (js "AWAITING_LAUNCH") then
      call (.schedule attemptId)
    return run

def recoverRunning (attemptId : JsString) (run : JsValue) : Program JsValue := do
  let alive ← call (.probeProcess run)
  if alive = some true then
    return run
  else
    let ended := alive = some false
    writeRun attemptId (run.assign [(js "status", .string (js "hold")),
      (js "recovered_at", .string (← call .now)),
      (js "error_code", .string (if ended then js "COMPLETION_LOST" else js "LIVENESS_UNKNOWN")),
      (js "reason", .string (if ended
        then js "worker ended while supervisor was unavailable; terminal evidence is unknown"
        else js "worker identity could not be proven after restart"))])

def recoverAttempt (host : SupervisorHost) (attemptId : JsString) : Program JsValue := do
  repairAccepted attemptId (← call .now)
  let run ← readRun attemptId
  let status := run.get (js "status")
  if status.isText (js "hold") then
    return run
  else if (← hasCompletion attemptId) then
    recoverCompleted host attemptId run
  else if status.isText (js "accepted") then
    recoverAccepted host attemptId run
  else if status.isText (js "running") then
    recoverRunning attemptId run
  else
    return run

def recoverAttempts (host : SupervisorHost) : List JsString → Program (List JsValue)
  | [] => return []
  | attemptId :: rest => do
      let run ← recoverAttempt host attemptId
      return run :: (← recoverAttempts host rest)

def recover (host : SupervisorHost) (fuel : ℕ) : Program JsValue := do
  acceptPending host fuel (← pendingIntents)
  return .array (← recoverAttempts host (← attempts))

inductive Task
  | submit (order : JsValue)
  | status (order : JsValue)
  | launch (attemptId : JsString)
  | finish (attemptId token : JsString) (ending : Ending) (outputBytes : ℕ)
  | heartbeat (attemptId at_ : JsString)
  | shutdown (attemptId : JsString)
  | recover
  | complete (completion : JsValue)

/-- The process of a task; walks along chains of claims are bounded by the fuel. -/
def program (host : SupervisorHost) (fuel : ℕ) : Task → Program JsValue
  | .submit order => submit host fuel order
  | .status order => status host order
  | .launch attemptId => launch host attemptId
  | .finish attemptId token ending outputBytes => finish host attemptId token ending outputBytes
  | .heartbeat attemptId at_ => heartbeat host attemptId at_
  | .shutdown attemptId => shutdownChild attemptId
  | .recover => recover host fuel
  | .complete completion => do
      match (← recordCompletion host completion) with
      | .ok recorded => return recorded
      | .error reason => return .string reason

abbrev World := TaskWorld Answer SupervisorError JsValue Machine

abbrev Event := TaskEvent Task Given

end StudentHub.Supervisor
