import StudentHub.Ecma.Objects

/-!
# The capacity ledger

The ledger is one JSON file: what was spent, the reservations by task id and the
pauses by resource. A file is checked field by field when it is read, and an invalid
one is left as it is.
-/

/-!
## Capacity policies

A policy states a limit for all work, for every host and account and for some
runtimes, a budget, and bounds for each task. A policy that lacks a bound is refused.
-/

namespace StudentHub.Capacity

open Ecma JsString

inductive Thrown
  | typeError
  | rangeError
  | error (message : JsString)
  deriving DecidableEq

def CAPACITY_LEDGER_VERSION : JsString := js "1.0.0"

def named {Member : Type} (vocabulary : List Member) (text : Member → JsString)
    (value : JsValue) : Option Member :=
  vocabulary.find? fun member => value.isText (text member)

inductive Role
  | build
  | review
  | revise
  deriving DecidableEq

def Role.text : Role → JsString
  | build => js "build"
  | review => js "review"
  | revise => js "revise"

def ROLES : List Role := [.build, .review, .revise]

def WRITER_ROLES : List Role := [.build, .revise]

inductive CapacityStatus
  | reserved
  | dispatching
  | running
  | launchUnknown
  | hold
  | completed
  | failed
  | expired
  | canceled
  deriving DecidableEq

def CapacityStatus.text : CapacityStatus → JsString
  | reserved => js "reserved"
  | dispatching => js "dispatching"
  | running => js "running"
  | launchUnknown => js "launch_unknown"
  | hold => js "hold"
  | completed => js "completed"
  | failed => js "failed"
  | expired => js "expired"
  | canceled => js "canceled"

def ACTIVE_CAPACITY_STATUSES : List CapacityStatus :=
  [.reserved, .dispatching, .running, .launchUnknown, .hold]

def TERMINAL_CAPACITY_STATUSES : List CapacityStatus := [.completed, .failed, .expired, .canceled]

def CAPACITY_STATUSES : List CapacityStatus :=
  ACTIVE_CAPACITY_STATUSES ++ TERMINAL_CAPACITY_STATUSES

def CapacityStatus.isActive (status : CapacityStatus) : Bool := status ∈ ACTIVE_CAPACITY_STATUSES

def CapacityStatus.isTerminal (status : CapacityStatus) : Bool :=
  status ∈ TERMINAL_CAPACITY_STATUSES

@[simp]
theorem CapacityStatus.isTerminal_eq (status : CapacityStatus) :
    status.isTerminal = !status.isActive := by
  cases status <;> rfl

def isSafeUnit (unit : UInt16) : Bool := isLetter unit || isDigit unit || unit ∈ js "._:/-"

def isSafeId (text : JsString) : Bool :=
  1 ≤ text.length && text.length ≤ 255 && text.all isSafeUnit

structure SafeId where
  text : JsString
  safe : isSafeId text = true
  deriving DecidableEq

def safeId? : JsValue → Option SafeId
  | .string text => if safe : isSafeId text = true then some ⟨text, safe⟩ else none
  | _ => none

def safeIds? (value : JsValue) : Option (List SafeId) := do
  (← value.items?).mapM safeId?

abbrev Limits := OrderedMap JsString SafeNat

structure CapacityPolicy where
  globalLimit : ℕ
  reviewReserve : ℕ
  budgetMicros : SafeNat
  maxDeadlineMs : ℕ
  maxRetries : ℕ
  maxRevisions : ℕ
  reservationTtlMs : ℕ
  hosts : Limits
  accounts : Limits
  runtimes : Limits
  premiumRuntimes : List SafeId
  premiumApprovals : List SafeId
  reserveSmaller : reviewReserve < globalLimit

def fail {Value : Type} (message : JsString) : Except Thrown Value := .error (.error message)

def require {Value : Type} (value : Option Value) (message : JsString) : Except Thrown Value :=
  match value with
  | some value => .ok value
  | none => fail message

def limitsMap (value : JsValue) (name : JsString) : Except Thrown Limits :=
  if !value.isPlainObject then
    fail (name ++ js " limits are required")
  else do
    let limits ← value.entries.mapM fun entry => do
      let message := name ++ js " limit " ++ (if entry.1 = [] then js "<empty>" else entry.1) ++
        js " must use a safe id and positive integer"
      if !isSafeId entry.1 then
        fail message
      else
        let limit ← require (positiveInteger entry.2) message
        return (entry.1, limit)
    return .ofList limits

def explicitBound (policy : JsValue) (field : JsString) : Except Thrown ℕ := do
  let bound ← require (nonNegativeInteger (policy.get field))
    (field ++ js " must be explicitly bounded")
  if (js "_ms").isSuffixOf field && bound.value = 0 then
    fail (field ++ js " must be explicitly bounded")
  else
    return bound.value

def safeIdentifiers (policy : JsValue) (field : JsString) : Except Thrown (List SafeId) :=
  match policy.get field with
  | .undefined => .ok []
  | present => require (safeIds? present) (field ++ js " must be an array of safe identifiers")

def validateCapacityPolicy (policy : JsValue) : Except Thrown CapacityPolicy :=
  if !policy.isPlainObject && policy.items?.isNone then
    fail (js "capacity policy is required")
  else do
    let globalLimit ← require (positiveInteger (policy.get (js "global_limit")))
      (js "global_limit must be a positive integer")
    let reserveMessage := js "review_reserve must be non-negative and smaller than global_limit"
    let reviewReserve ← require
      (nonNegativeInteger ((policy.get (js "review_reserve")).orElse (.number (.ofNat 1))))
      reserveMessage
    if reserveSmaller : reviewReserve.value < globalLimit.value then
      let budgetMicros ← require (positiveInteger (policy.get (js "budget_micros")))
        (js "budget_micros must be explicit and positive")
      let maxDeadlineMs ← explicitBound policy (js "max_deadline_ms")
      let maxRetries ← explicitBound policy (js "max_retries")
      let maxRevisions ← explicitBound policy (js "max_revisions")
      let reservationTtlMs ← explicitBound policy (js "reservation_ttl_ms")
      let premiumRuntimes ← safeIdentifiers policy (js "premium_runtimes")
      let premiumApprovals ← safeIdentifiers policy (js "premium_approvals")
      let hosts ← limitsMap (policy.get (js "hosts")) (js "host")
      let accounts ← limitsMap (policy.get (js "accounts")) (js "account")
      let runtimes ←
        if (policy.get (js "runtimes")).truthy then
          limitsMap (policy.get (js "runtimes")) (js "runtime")
        else
          .ok .empty
      return { globalLimit := globalLimit.value, reviewReserve := reviewReserve.value,
               budgetMicros, maxDeadlineMs, maxRetries, maxRevisions, reservationTtlMs, hosts,
               accounts, runtimes, premiumRuntimes, premiumApprovals, reserveSmaller }
    else
      fail reserveMessage

end StudentHub.Capacity

namespace StudentHub.Capacity

open Ecma JsString

inductive PauseReason
  | quota
  | authentication
  | access
  | maintenance
  | operatorHold
  deriving DecidableEq

def PauseReason.text : PauseReason → JsString
  | quota => js "quota"
  | authentication => js "authentication"
  | access => js "access"
  | maintenance => js "maintenance"
  | operatorHold => js "operator_hold"

def PAUSE_REASONS : List PauseReason :=
  [.quota, .authentication, .access, .maintenance, .operatorHold]

structure Binding where
  role : Role
  runtime : SafeId
  host : SafeId
  account : SafeId
  repo : SafeId
  branch : SafeId
  worktree : SafeId
  deriving DecidableEq

structure Reservation extends Binding where
  taskId : SafeId
  overlapKeys : List SafeId
  status : CapacityStatus
  estimatedCostMicros : SafeNat
  deadlineMs : SafeNat
  retry : SafeNat
  revision : SafeNat
  acceptedAt : Instant
  reservationExpiresAt : Instant
  holdReason : JsValue
  nextAutomaticAction : JsValue
  updatedAt : Option Instant
  actualCostMicros : Option SafeNat
  deadlinePositive : 0 < deadlineMs.value

structure Pause where
  reason : PauseReason
  «until» : JsValue
  createdAt : Instant

structure Ledger where
  spentMicros : ℕ
  reservations : OrderedMap JsString Reservation
  pauses : OrderedMap JsString Pause

def Reservation.parsed (reservation : Reservation) : Reservation :=
  { reservation with
    holdReason := reservation.holdReason.jsonCopy
    nextAutomaticAction := reservation.nextAutomaticAction.jsonCopy }

def Pause.parsed (pause : Pause) : Pause := { pause with «until» := pause.«until».jsonCopy }

def Ledger.parsed (ledger : Ledger) : Ledger where
  spentMicros := ledger.spentMicros
  reservations := ledger.reservations.mapValues Reservation.parsed
  pauses := ledger.pauses.mapValues Pause.parsed

def Ledger.empty : Ledger := ⟨0, .empty, .empty⟩

def count (number : ℕ) : JsValue := .number (.ofNat number)

/-- The properties a JSON text has: those that are not undefined. -/
def record (properties : List (JsString × JsValue)) : JsValue :=
  .object (properties.filter fun property => property.2.isDefined)

def Reservation.properties (reservation : Reservation) : List (JsString × JsValue) :=
  [(js "version", .string CAPACITY_LEDGER_VERSION),
    (js "task_id", .string reservation.taskId.text),
    (js "role", .string reservation.role.text),
    (js "runtime", .string reservation.runtime.text),
    (js "host", .string reservation.host.text),
    (js "account", .string reservation.account.text),
    (js "repo", .string reservation.repo.text),
    (js "branch", .string reservation.branch.text),
    (js "worktree", .string reservation.worktree.text),
    (js "overlap_keys", .array (reservation.overlapKeys.map fun key => .string key.text)),
    (js "status", .string reservation.status.text),
    (js "estimated_cost_micros", count reservation.estimatedCostMicros.value),
    (js "deadline_ms", count reservation.deadlineMs.value),
    (js "retry", count reservation.retry.value),
    (js "revision", count reservation.revision.value),
    (js "accepted_at", .string reservation.acceptedAt.toISOString),
    (js "reservation_expires_at", .string reservation.reservationExpiresAt.toISOString),
    (js "hold_reason", reservation.holdReason),
    (js "next_automatic_action", reservation.nextAutomaticAction),
    (js "updated_at", match reservation.updatedAt with
      | none => .undefined
      | some updatedAt => .string updatedAt.toISOString),
    (js "actual_cost_micros", match reservation.actualCostMicros with
      | none => .undefined
      | some cost => count cost.value)]

def Reservation.toJson (reservation : Reservation) : JsValue := record reservation.properties

def Pause.properties (pause : Pause) : List (JsString × JsValue) :=
  [(js "reason", .string pause.reason.text), (js "until", pause.«until»),
    (js "created_at", .string pause.createdAt.toISOString)]

def Pause.toJson (pause : Pause) : JsValue := record pause.properties

def Ledger.toJson (ledger : Ledger) : JsValue :=
  .object
    [(js "version", .string CAPACITY_LEDGER_VERSION),
      (js "spent_micros", count ledger.spentMicros),
      (js "reservations", .object (ledger.reservations.ownEntries.map fun entry =>
        (entry.1, entry.2.toJson))),
      (js "pauses", .object (ledger.pauses.ownEntries.map fun entry =>
        (entry.1, entry.2.toJson)))]

section Read

variable (dates : DateParser)

def validTimestamp (value : JsValue) : Bool :=
  match value with
  | .string text => (dates.parse text).isSome
  | _ => false

def validActualCost (value : JsValue) : Bool :=
  match value with
  | .undefined => true
  | present => (nonNegativeInteger present).isSome

def validReservation (taskId : JsString) (reservation : JsValue) : Bool :=
  isSafeId taskId &&
    reservation.isPlainObject &&
    (reservation.get (js "version")).isText CAPACITY_LEDGER_VERSION &&
    (reservation.get (js "task_id")).isText taskId &&
    (named CAPACITY_STATUSES CapacityStatus.text (reservation.get (js "status"))).isSome &&
    (named ROLES Role.text (reservation.get (js "role"))).isSome &&
    (nonNegativeInteger (reservation.get (js "estimated_cost_micros"))).isSome &&
    (positiveInteger (reservation.get (js "deadline_ms"))).isSome &&
    (nonNegativeInteger (reservation.get (js "retry"))).isSome &&
    (nonNegativeInteger (reservation.get (js "revision"))).isSome &&
    validTimestamp dates (reservation.get (js "accepted_at")) &&
    (safeIds? (reservation.get (js "overlap_keys"))).isSome &&
    ([js "runtime", js "host", js "account", js "repo", js "branch", js "worktree"].all fun field =>
      (safeId? (reservation.get field)).isSome) &&
    (!(reservation.get (js "status")).isText (js "reserved") ||
      validTimestamp dates (reservation.get (js "reservation_expires_at"))) &&
    validActualCost (reservation.get (js "actual_cost_micros"))

/-- The text `host:`, `account:` or `runtime:` before a safe id, or `global`. -/
def validPauseKey (key : JsString) : Bool :=
  key = js "global" ||
    [js "host:", js "account:", js "runtime:"].any fun scope =>
      scope.isPrefixOf key && isSafeId (key.drop scope.length)

def validUntil (value : JsValue) : Bool :=
  match value with
  | .null => true
  | present => validTimestamp dates present

def validPause (key : JsString) (pause : JsValue) : Bool :=
  validPauseKey key &&
    pause.isPlainObject &&
    (named PAUSE_REASONS PauseReason.text (pause.get (js "reason"))).isSome &&
    validUntil dates (pause.get (js "until")) &&
    validTimestamp dates (pause.get (js "created_at"))

def validateLedger (parsed : JsValue) : Bool :=
  parsed.isPlainObject &&
    (parsed.get (js "version")).isText CAPACITY_LEDGER_VERSION &&
    (nonNegativeInteger (parsed.get (js "spent_micros"))).isSome &&
    (parsed.get (js "reservations")).isPlainObject &&
    (parsed.get (js "pauses")).isPlainObject &&
    ((parsed.get (js "reservations")).entries.all fun entry =>
      validReservation dates entry.1 entry.2) &&
    (parsed.get (js "pauses")).entries.all fun entry => validPause dates entry.1 entry.2

def readLedger (file : Ledger) : Except Thrown Ledger :=
  if validateLedger dates file.toJson then .ok file else fail (js "invalid capacity ledger")

end Read

end StudentHub.Capacity
