import StudentHub.Concurrency.Discipline
import StudentHub.Supervisor.Orders

/-!
# The supervisor's store

The store keeps a file for each intent, order, run, launch, completion and branch claim.
Its methods are processes over the state directory: between any two operations on files
another process may work on the same directory, and the process may die. Creating a file
either makes it, whole, or finds that it exists; replacing one exchanges it whole.
-/

namespace StudentHub.Supervisor

open Ecma Concurrency JsString JsValue

inductive Directory
  | intents
  | orders
  | runs
  | launches
  | completions
  | branches
  deriving DecidableEq

structure Child where
  pid : JsValue
  processToken : JsValue

inductive Op
  | existsSync (directory : Directory) (name : JsString)
  | readFile (directory : Directory) (name : JsString)
  | durableCreate (directory : Directory) (name : JsString) (value : JsValue)
  | durableReplace (directory : Directory) (name : JsString) (value : JsValue)
  | readdirSync (directory : Directory)
  | now
  | randomBytes
  | spawnWorker (order : JsValue) (attemptId : JsString) (targetSha : JsValue) (token : JsString)
  | probeProcess (run : JsValue)
  | schedule (attemptId : JsString)

abbrev Answer : Op → Type
  | .existsSync _ _ => Bool
  | .readFile _ _ => Option JsValue
  | .durableCreate _ _ _ => Bool
  | .durableReplace _ _ _ => Unit
  | .readdirSync _ => List JsString
  | .now => JsString
  | .randomBytes => JsString
  | .spawnWorker _ _ _ _ => Option Child
  | .probeProcess _ => Option Bool
  | .schedule _ => Unit

inductive SupervisorError
  /-- An error with the code `ERR_ASSERTION`. -/
  | assertion (message : JsString)
  | failure (message : JsString)
  /-- The walk along a chain of claims has met the bound the model puts on its loop. -/
  | fuelSpent
  deriving DecidableEq

abbrev Program (Value : Type) := Process Answer SupervisorError Value

abbrev call (op : Op) : Program (Answer op) := Process.call op

abbrev ofExcept {Value : Type} (computed : Except SupervisorError Value) : Program Value :=
  Process.ofExcept computed

structure Given where
  now : JsString
  bytes : JsString
  child : Option Child
  alive : Option Bool
  listing : List JsString

inductive Happening
  | created (task : ℕ) (directory : Directory) (name : JsString)
  | spawned (task : ℕ) (attemptId : JsString) (order : JsValue)

structure Machine where
  files : Directory → OrderedMap JsString JsValue
  history : List Happening

namespace Machine

def empty : Machine := ⟨fun _ => .empty, []⟩

def get? (machine : Machine) (directory : Directory) (name : JsString) : Option JsValue :=
  (machine.files directory).get? name

def put (machine : Machine) (directory : Directory) (name : JsString) (value : JsValue) : Machine :=
  { machine with files := fun other =>
      if other = directory then (machine.files other).set name value.jsonCopy
      else machine.files other }

def record (machine : Machine) (happening : Happening) : Machine :=
  { machine with history := happening :: machine.history }

end Machine

def handle (me : ℕ) : (op : Op) → Given → Machine → Answer op × Machine
  | .existsSync directory name, _, machine => ((machine.get? directory name).isSome, machine)
  | .readFile directory name, _, machine => (machine.get? directory name, machine)
  | .durableCreate directory name value, _, machine =>
      match machine.get? directory name with
      | some _ => (false, machine)
      | none => (true, (machine.put directory name value).record (.created me directory name))
  | .durableReplace directory name value, _, machine => ((), machine.put directory name value)
  | .readdirSync directory, given, machine =>
      let names := (machine.files directory).keys
      (if given.listing.isPerm names then given.listing else names, machine)
  | .now, given, machine => (given.now, machine)
  | .randomBytes, given, machine => (given.bytes, machine)
  | .spawnWorker order attemptId _ _, given, machine =>
      (given.child, machine.record (.spawned me attemptId order))
  | .probeProcess _, given, machine => (given.alive, machine)
  | .schedule _, _, machine => ((), machine)

def check (condition : Bool) (message : JsString) : Program Unit :=
  if condition then .returned () else .thrown (.assertion message)

def present : Option JsValue → Program JsValue
  | some value => return value
  | none => .thrown (.failure (js "ENOENT"))

def readJson (directory : Directory) (name : JsString) : Program JsValue := do
  present (← call (.readFile directory name))

/-- `value.toUpperCase()`, which only strings have. -/
def upperCase : JsValue → Program JsString
  | .string text => return text.toUpperCase
  | _ => .thrown (.failure (js "toUpperCase is not a function"))

def fileName (attemptId : JsString) : JsString := attemptId ++ js ".json"

def paths (attemptId : JsString) : Except SupervisorError JsString :=
  if isAttemptId attemptId then .ok (fileName attemptId)
  else .error (.failure (js "invalid attempt id path"))

def readOf (directory : Directory) (attemptId : JsString) : Program JsValue := do
  readJson directory (← ofExcept (paths attemptId))

def hasFile (directory : Directory) (attemptId : JsString) : Program Bool := do
  call (.existsSync directory (← ofExcept (paths attemptId)))

def readRun (attemptId : JsString) : Program JsValue := readOf .runs attemptId

def writeRun (attemptId : JsString) (run : JsValue) : Program JsValue := do
  call (.durableReplace .runs (← ofExcept (paths attemptId)) run)
  return run

def claimLaunch (attemptId : JsString) (value : JsValue) : Program Bool := do
  call (.durableCreate .launches (← ofExcept (paths attemptId)) value)

def markLaunch (attemptId : JsString) (value : JsValue) : Program Unit := do
  call (.durableReplace .launches (← ofExcept (paths attemptId)) value)

def readLaunch (attemptId : JsString) : Program JsValue := readOf .launches attemptId

def hasLaunch (attemptId : JsString) : Program Bool := hasFile .launches attemptId

def hasCompletion (attemptId : JsString) : Program Bool := hasFile .completions attemptId

def readCompletion (attemptId : JsString) : Program JsValue := readOf .completions attemptId

def readOrder (attemptId : JsString) : Program JsValue := do
  let stored ← readOf .orders attemptId
  if (stored.get (js "protocol")).isText SUPERVISOR_PROTOCOL_VERSION then
    return stored.get (js "order")
  else
    .thrown (.failure (js "unknown durable order version"))

def requireHoldCode (code : JsValue) : Program Unit :=
  check (HOLD_CODES.any code.isText)
    (js "HOLD_CODE_REQUIRED: an enumerated HOLD code is required")

def intentPath (order : JsValue) : Program JsString := do
  let _ ← ofExcept (paths (textOf order (js "attempt_id")))
  check (hasText order (js "issue_id") isIssueId)
    (js "ANNOUNCE_WITHOUT_CLAIM: safe issue binding required")
  return textOf order (js "issue_id") ++ js "-" ++ fileName (textOf order (js "attempt_id"))

def intend (host : SupervisorHost) (order : JsValue) (now holdCode : JsString) :
    Program JsValue := do
  requireHoldCode (.string holdCode)
  check (validateBoundOrder host order)
    (js "ANNOUNCE_WITHOUT_CLAIM: a valid bound work order is required")
  let path ← intentPath order
  let _ ← call (.durableCreate .intents path (.object [(js "order", order),
    (js "intended_at", .string now), (js "hold_code", .string holdCode)]))
  let intent ← readJson .intents path
  check (canonical (intent.get (js "order")) = canonical order)
    (js "ANNOUNCE_WITHOUT_CLAIM: intent binding is immutable")
  requireHoldCode (intent.get (js "hold_code"))
  return intent

def holdIntent (order : JsValue) (code : JsString) : Program Unit := do
  requireHoldCode (.string code)
  let path ← intentPath order
  let intent ← readJson .intents path
  call (.durableReplace .intents path
    (intent.assign [(js "hold_code", .string code)]))

def readIntents : List JsString → Program (List JsValue)
  | [] => return []
  | name :: rest => do
      let intent ← readJson .intents name
      requireHoldCode (intent.get (js "hold_code"))
      let path ← intentPath (intent.get (js "order"))
      check (path = name) (js "ANNOUNCE_WITHOUT_CLAIM: intent key mismatch")
      return intent :: (← readIntents rest)

def pendingIntents : Program (List JsValue) := do
  let names ← call (.readdirSync .intents)
  readIntents (names.filter fun name => js ".json" <:+ name)

structure IntentReport where
  status : JsString
  holdCode : Option JsValue
  launchReceipt : Option JsValue

def reportLaunch (order intent : JsValue) : Option JsValue → Program IntentReport
  | none => return ⟨js "UNLAUNCHED", some (intent.get (js "hold_code")), none⟩
  | some receipt =>
      if hasLaunchReceipt receipt order then do
        let run ← readRun (textOf order (js "attempt_id"))
        return ⟨← upperCase (run.get (js "status")), none, some receipt⟩
      else
        return ⟨js "UNLAUNCHED", some (.string (js "AMBIGUOUS_LAUNCH")), none⟩

def reportIntent (order : JsValue) : Program IntentReport := do
  let path ← intentPath order
  if !(← call (.existsSync .intents path)) then
    return ⟨js "UNLAUNCHED", some (.string (js "MISSING_CLAIM")), none⟩
  let intent ← readJson .intents path
  requireHoldCode (intent.get (js "hold_code"))
  check (canonical (intent.get (js "order")) = canonical order)
    (js "ANNOUNCE_WITHOUT_CLAIM: report binding mismatch")
  let attemptId := textOf order (js "attempt_id")
  reportLaunch order intent
    (← if (← hasLaunch attemptId) then some <$> readLaunch attemptId else pure none)

def confirms (host : SupervisorHost) (stored launch order : JsValue) : Bool :=
  let token := stored.get (js "completion_token")
  token.truthy &&
    (launch.get (js "completion_token_hash")).isText
      (host.sha256 ((token.orElse (.string [])).toText.getD [])) &&
    (stored.get (js "target_sha")).strictEq (order.get (js "target_sha"))

/-- The validated completion without its token, or the reason why there is none. -/
def validatedCompletion (host : SupervisorHost) (attemptId : JsString) :
    Program (Except JsString JsValue) := do
  if !(← hasCompletion attemptId) then
    return .error (js "completion evidence is missing")
  if !(← hasLaunch attemptId) then
    return .error (js "completion evidence is missing")
  let stored ← readCompletion attemptId
  if !(stored.get (js "version")).isText SUPERVISOR_PROTOCOL_VERSION then
    return .error (js "unknown durable result version")
  let launch ← readLaunch attemptId
  let order ← readOrder attemptId
  if confirms host stored launch order then
    return .ok (stored.without (js "completion_token"))
  else
    return .error (js "durable completion binding failed")

inductive Acceptance
  | hold (reason : JsString) (holdCode : Option JsString)
  | accepted (duplicate : Bool) (run : JsValue)

def branchKey (host : SupervisorHost) (order : JsValue) : JsString :=
  host.sha256 (textOf order (js "repo") ++ js "\n" ++ textOf order (js "branch"))

def claimName (key predecessor : JsString) : JsString := key ++ js "-" ++ fileName predecessor

def runEnded (owner : JsString) (status : JsValue) : Program Bool := do
  if status.isText (js "completed") || status.isText (js "failed") then
    return true
  else if status.isText (js "running") then
    hasCompletion owner
  else
    return false

def ownerFinished (host : SupervisorHost) (owner : JsString) : Program Bool := do
  let run ← readRun owner
  if (← runEnded owner (run.get (js "status"))) then
    return (← validatedCompletion host owner).isOk
  else
    return false

/-- The block that decides about the owner of a claim: a refusal, or none when it has finished. -/
def examineOwner (host : SupervisorHost) (order : JsValue) (owner : JsString) :
    Program (Option Acceptance) := do
  if (← ownerFinished host owner) then
    return none
  else
    holdIntent order (js "BRANCH_OCCUPIED")
    return some (.hold (js "branch already owned by an unfinished attempt")
      (some (js "BRANCH_OCCUPIED")))

def claimBranch (host : SupervisorHost) (order : JsValue) :
    ℕ → JsString → Program (Option Acceptance)
  | 0, _ => .thrown .fuelSpent
  | fuel + 1, predecessor => do
      let claim := claimName (branchKey host order) predecessor
      let attemptId := order.get (js "attempt_id")
      if (← call (.durableCreate .branches claim
          (.object [(js "attempt_id", attemptId)]))) then
        return none
      let held ← readJson .branches claim
      if (held.get (js "attempt_id")).strictEq attemptId then
        return none
      let owner := textOf held (js "attempt_id")
      match (← (examineOwner host order owner).attempt) with
      | .ok none => claimBranch host order fuel owner
      | .ok (some refusal) => return some refusal
      | .error (.assertion message) => .thrown (.assertion message)
      | .error _ => do
          holdIntent order (js "MISSING_AUTHORITY")
          return some (.hold (js "ambiguous branch ownership") (some (js "MISSING_AUTHORITY")))

def acceptedRun (order : JsValue) (now : JsString) : List (JsString × JsValue) :=
  [(js "attempt_id", order.get (js "attempt_id")), (js "issue_id", order.get (js "issue_id")),
    (js "repo", order.get (js "repo")), (js "branch", order.get (js "branch")),
    (js "target_sha", order.get (js "target_sha")), (js "status", .string (js "accepted")),
    (js "accepted_at", .string now)]

def durableOrder (host : SupervisorHost) (order : JsValue) : JsValue :=
  .object [(js "protocol", .string SUPERVISOR_PROTOCOL_VERSION), (js "order", order),
    (js "digest", .string (host.sha256 (canonical order)))]

/-- Bind the attempt to the order and start its run record, when the branch is its own. -/
def bindOrder (host : SupervisorHost) (order : JsValue) (now path : JsString) :
    Program Acceptance := do
  let created ← call (.durableCreate .orders path (durableOrder host order))
  let existing ← if created then pure (durableOrder host order) else readJson .orders path
  if !(existing.get (js "protocol")).isText SUPERVISOR_PROTOCOL_VERSION then
    return .hold (js "unknown durable order version") none
  else if !created && canonical (existing.get (js "order")) ≠ canonical order then
    return .hold (js "attempt_id is already bound to a different work order") none
  else
    if !(← call (.existsSync .runs path)) then
      let _ ← call (.durableCreate .runs path (.object (acceptedRun order now)))
    return .accepted (!created) (← readRun (textOf order (js "attempt_id")))

def accept (host : SupervisorHost) (fuel : ℕ) (order : JsValue) (now : JsString) :
    Program Acceptance := do
  match (← (intend host order now (js "AWAITING_LAUNCH")).attempt) with
  | .error (.assertion message) =>
      if js "HOLD_CODE_REQUIRED" <+: message then
        .thrown (.assertion message)
      else
        return .hold (js "attempt_id is already bound to a different work order") none
  | .error error => .thrown error
  | .ok _ =>
      let path ← ofExcept (paths (textOf order (js "attempt_id")))
      if (← call (.existsSync .orders path)) then
        bindOrder host order now path
      else
        match (← claimBranch host order fuel (js "initial")) with
        | some refusal => return refusal
        | none => bindOrder host order now path

/-- `Number.isInteger(value)` -/
def isInteger (value : JsValue) : Bool :=
  match value with
  | .number (.finite finite) => finite.integer?.isSome
  | _ => false

def completionFault (host : SupervisorHost) (completion : JsValue) : Option JsString :=
  let version := completion.get (js "version")
  let exitCode := completion.get (js "exit_code")
  if version.isDefined && !version.isText SUPERVISOR_PROTOCOL_VERSION then
    some (js "unknown result version")
  else if (completion.get (js "result")).truthy && !version.isText SUPERVISOR_PROTOCOL_VERSION then
    some (js "unversioned result")
  else if MAX_REQUEST_BYTES / 2 < (canonical completion).toUtf8.byteLength then
    some (js "result too large")
  else if !(exitCode.strictEq .null || isInteger exitCode) then
    some (js "invalid completion exit code")
  else if !((completion.get (js "signal")).strictEq .null ||
      (completion.get (js "signal")).strictEq .undefined ||
      hasText completion (js "signal") (·.length ≤ 32)) then
    some (js "invalid completion signal")
  else if !hasText completion (js "finished_at") (fun text => (host.dates.parse text).isSome) then
    some (js "invalid completion timestamp")
  else
    none

def durableCompletion (completion : JsValue) : JsValue :=
  let exitCode := completion.get (js "exit_code")
  let outputBytes := completion.get (js "output_bytes")
  .object [(js "version", .string SUPERVISOR_PROTOCOL_VERSION),
    (js "result", (completion.get (js "result")).orElse .null),
    (js "attempt_id", completion.get (js "attempt_id")),
    (js "target_sha", completion.get (js "target_sha")),
    (js "status", .string (if exitCode.strictEq (.number (.ofNat 0)) then js "completed"
      else js "failed")),
    (js "exit_code", exitCode),
    (js "signal", (completion.get (js "signal")).orElse .null),
    (js "output_bytes", if (nonNegativeInteger outputBytes).isSome then outputBytes
      else .number (.ofNat 0)),
    (js "finished_at", completion.get (js "finished_at")),
    (js "completion_token", completion.get (js "completion_token"))]

/-- Record the completion that a worker gives, bound to its launch by the token it was given. -/
def recordCompletion (host : SupervisorHost) (completion : JsValue) :
    Program (Except JsString JsValue) := do
  let attemptId := textOf completion (js "attempt_id")
  let path ← ofExcept (paths attemptId)
  if !(← call (.existsSync .orders path)) then
    return .error (js "unknown completion attempt")
  if !(← call (.existsSync .launches path)) then
    return .error (js "unknown completion attempt")
  let order ← readOrder attemptId
  let launch ← readLaunch attemptId
  if !confirms host completion launch order then
    return .error (js "completion binding failed")
  match completionFault host completion with
  | some fault => return .error fault
  | none =>
      let durable := durableCompletion completion
      let created ← call (.durableCreate .completions path durable)
      let stored ← if created then pure durable else readCompletion attemptId
      if canonical stored ≠ canonical durable then
        return .error (js "conflicting terminal completion")
      else
        return .ok ((← validatedCompletion host attemptId).toOption.getD .undefined)

def attempts : Program (List JsString) := do
  let orders ← call (.readdirSync .orders)
  let runs ← call (.readdirSync .runs)
  let completions ← call (.readdirSync .completions)
  let names := (orders ++ runs ++ completions).filter fun name => js ".json" <:+ name
  return sortTexts (distinctBy id (names.map fun name => name.take (name.length - 5)))

def repairAccepted (attemptId now : JsString) : Program Unit := do
  let path ← ofExcept (paths attemptId)
  if !(← call (.existsSync .orders path)) then
    return ()
  if (← call (.existsSync .runs path)) then
    return ()
  let order ← readOrder attemptId
  let _ ← call (.durableCreate .runs path
    (.object (acceptedRun order now ++ [(js "repaired_after_restart", .boolean true)])))
  return ()

end StudentHub.Supervisor
