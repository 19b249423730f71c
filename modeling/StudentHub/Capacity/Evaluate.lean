import StudentHub.Capacity.Ledger

/-!
# Whether a task may start

A task is checked for its own form and bounds first, then against the reservations
that are active and the pauses in force. The first check that fails names the hold.
-/

namespace StudentHub.Capacity

open Ecma JsString

/-- What a plain object inherits under a name: the members of `Object.prototype`. They belong
to the process, and earlier calls may have assigned to them, so any are possible. A member is
given by an object with the properties that are read from it. -/
structure Heritage where
  member : JsString → Option JsValue
  writable : JsString → Bool
  /-- The answer of `count >= member`. -/
  reached : JsString → ℕ → Bool

/-- The heritage of a fresh process: functions, of which no property that is read exists and
which are no numbers. -/
def Heritage.fresh : Heritage where
  member name :=
    if name ∈ [js "constructor", js "__defineGetter__", js "__defineSetter__",
        js "hasOwnProperty", js "__lookupGetter__", js "__lookupSetter__", js "isPrototypeOf",
        js "propertyIsEnumerable", js "toString", js "valueOf", js "__proto__",
        js "toLocaleString"] then
      some (.object [])
    else
      none
  writable _ := true
  reached _ _ := false

/-- A task that has passed `taskValidation`. -/
structure Task extends Binding where
  taskId : SafeId
  blockedBy : List SafeId
  overlapKeys : List SafeId
  fallbackRuntimes : List SafeId
  estimatedCostMicros : SafeNat
  deadlineMs : SafeNat
  retry : SafeNat
  revision : SafeNat
  deadlinePositive : 0 < deadlineMs.value

abbrev Checked := Except JsString

def requiredText (task : JsValue) (field : JsString) : Checked Unit :=
  match task.get field with
  | .string (_ :: _) => .ok ()
  | _ => .error (field ++ js " is required")

def safeField (task : JsValue) (field : JsString) : Checked SafeId :=
  match safeId? (task.get field) with
  | some id => .ok id
  | none => .error (field ++ js " contains unsafe characters or is too long")

/-- The pattern `^[A-Za-z0-9_.-]+\/[A-Za-z0-9_.-]+$`. -/
def isRepo (text : JsString) : Bool :=
  let isUnit (unit : UInt16) : Bool := isLetter unit || isDigit unit || unit ∈ js "_.-"
  match text.dropWhile (· ≠ 47) with
  | [] => false
  | _ :: name =>
      let owner := text.takeWhile (· ≠ 47)
      owner ≠ [] && owner.all isUnit && name ≠ [] && name.all isUnit

def safeList (task : JsValue) (field : JsString) : Checked (List SafeId) :=
  match safeIds? ((task.get field).orElse (.array [])) with
  | some ids => .ok ids
  | none => .error (field ++ js " must contain safe identifiers")

/-- The operator `in` on the limits of a policy. -/
def statesLimit (heritage : Heritage) (limits : Limits) (name : JsString) : Bool :=
  limits.has name || (heritage.member name).isSome

def present {Found : Type} (found : Option Found) (message : JsString) : Checked Found :=
  match found with
  | some found => .ok found
  | none => .error message

def boundedBy (number : Option SafeNat) (bound : ℕ) (message : JsString) : Checked SafeNat :=
  match number with
  | some number => if number.value ≤ bound then .ok number else .error message
  | none => .error message

def unless_ (refused : Bool) (message : JsString) : Checked Unit :=
  if refused then .error message else .ok ()

def boundedDeadline (policy : CapacityPolicy) (task : JsValue) :
    Checked { deadline : SafeNat // 0 < deadline.value } :=
  match nonNegativeInteger (task.get (js "deadline_ms")) with
  | some deadline =>
      if positive : 0 < deadline.value ∧ deadline.value ≤ policy.maxDeadlineMs then
        .ok ⟨deadline, positive.1⟩
      else
        .error (js "deadline exceeds policy bound")
  | none => .error (js "deadline exceeds policy bound")

def taskValidation (heritage : Heritage) (policy : CapacityPolicy) (task : JsValue) :
    Checked Task := do
  requiredText task (js "task_id")
  let role ← present (named ROLES Role.text (task.get (js "role")))
    (js "role must be build, review, or revise")
  [js "runtime", js "host", js "account", js "repo", js "branch", js "worktree"].forM
    (requiredText task)
  let taskId ← safeField task (js "task_id")
  let runtime ← safeField task (js "runtime")
  let host ← safeField task (js "host")
  let account ← safeField task (js "account")
  let repo ← safeField task (js "repo")
  let branch ← safeField task (js "branch")
  let worktree ← safeField task (js "worktree")
  unless_ (!isRepo repo.text) (js "repo must be owner/name")
  unless_ (!(js "/").isPrefixOf worktree.text || js ".." <:+: worktree.text)
    (js "worktree must be an absolute confined path")
  let blockedBy ← safeList task (js "blocked_by")
  let overlapKeys ← safeList task (js "overlap_keys")
  let fallbackRuntimes ← safeList task (js "fallback_runtimes")
  unless_ (!statesLimit heritage policy.hosts host.text)
    (js "capacity unknown for host " ++ host.text)
  unless_ (!statesLimit heritage policy.accounts account.text)
    (js "capacity unknown for shared account " ++ account.text)
  let estimatedCostMicros ← present (nonNegativeInteger (task.get (js "estimated_cost_micros")))
    (js "estimated cost is unknown")
  let deadlineMs ← boundedDeadline policy task
  let retry ← boundedBy (nonNegativeInteger (task.get (js "retry"))) policy.maxRetries
    (js "retry count exceeds policy bound")
  let revision ← boundedBy (nonNegativeInteger (task.get (js "revision"))) policy.maxRevisions
    (js "revision count exceeds policy bound")
  unless_ (runtime ∈ policy.premiumRuntimes && taskId ∉ policy.premiumApprovals)
    (js "premium runtime " ++ runtime.text ++ js " requires trusted policy approval for " ++
      taskId.text)
  return { role, runtime, host, account, repo, branch, worktree, taskId, blockedBy, overlapKeys,
           fallbackRuntimes, estimatedCostMicros, retry, revision, deadlineMs := deadlineMs.1,
           deadlinePositive := deadlineMs.2 }

inductive DecisionCode
  | dependencyBlocked
  | resourcePaused
  | premiumApprovalRequired
  | capacityUnknown
  | costUnknown
  | unsafeFallback
  | policyBound
  | taskRebind
  | taskIdReused
  | branchWriterActive
  | worktreeActive
  | overlapActive
  | globalCapacity
  | reviewReserve
  | hostCapacity
  | accountCapacity
  | runtimeCapacity
  | budgetCapacity
  | schedulerBusy
  | ledgerInvalid
  | reservationMissing
  | terminalReservation
  deriving DecidableEq

structure Decision where
  code : DecisionCode
  holdReason : JsString
  nextAutomaticAction : JsString
  humanDecision : Option JsString

def decisionUntil (code : DecisionCode) (reason : JsString) (until_ : JsValue) : Decision :=
  let hold (nextAutomaticAction : JsString) : Decision := ⟨code, reason, nextAutomaticAction, none⟩
  let ask (nextAutomaticAction : JsString) : Decision :=
    ⟨code, reason, nextAutomaticAction, some reason⟩
  match code with
  | .dependencyBlocked => hold (js "wait_for_dependencies")
  | .resourcePaused =>
      if until_.truthy then hold (js "retry_after:" ++ until_.toText.getD [])
      else hold (js "wait_for_resource_recovery")
  | .premiumApprovalRequired => ask (js "wait_for_product_approval")
  | .capacityUnknown | .costUnknown => ask (js "wait_for_operator_configuration")
  | .unsafeFallback => ask (js "wait_for_runtime_decision")
  | _ => hold (js "wait_for_capacity")

def decision (code : DecisionCode) (reason : JsString) : Decision :=
  decisionUntil code reason .undefined

/-- The decision on a refused task, by words of the reason. -/
def refusal (validation : JsString) : Decision :=
  if js "premium" <:+: validation then decision .premiumApprovalRequired validation
  else if js "capacity unknown" <:+: validation then decision .capacityUnknown validation
  else if js "cost is unknown" <:+: validation then decision .costUnknown validation
  else decision .policyBound validation

/-- The date of a value that `Date.parse` is given. -/
def parseDate (dates : DateParser) (value : JsValue) : Date :=
  value.toText.bind dates.parse

def Pause.isOver (dates : DateParser) (pause : Pause) (now : ClockReading) : Bool :=
  pause.«until».truthy && ClockReading.reached (parseDate dates pause.«until») now

def firstPause (dates : DateParser) (now : ClockReading) :
    List JsString → OrderedMap JsString Pause →
      Option (JsString × Pause) × OrderedMap JsString Pause
  | [], pauses => (none, pauses)
  | key :: others, pauses =>
      match pauses.get? key with
      | none => firstPause dates now others pauses
      | some pause =>
          if pause.isOver dates now then firstPause dates now others (pauses.delete key)
          else (some (key, pause), pauses)

def pauseFor (dates : DateParser) (task : Task) (pauses : OrderedMap JsString Pause)
    (now : ClockReading) : Option (JsString × Pause) × OrderedMap JsString Pause :=
  firstPause dates now [js "global", js "host:" ++ task.host.text,
    js "account:" ++ task.account.text, js "runtime:" ++ task.runtime.text] pauses

def activeReservations (state : Ledger) : List Reservation :=
  state.reservations.ownValues.filter fun reservation => reservation.status.isActive

def Binding.isWriter (binding : Binding) : Bool := binding.role ∈ WRITER_ROLES

def writersCollide (left right : Binding) : Bool :=
  left.isWriter && right.isWriter && left.repo = right.repo && left.branch = right.branch

/-- A count has come to the limit of a name; without a limit of its own a name has the
inherited one. -/
def limitReached (heritage : Heritage) (limits : Limits) (name : JsString) (number : ℕ) : Bool :=
  match limits.get? name with
  | some limit => limit.value ≤ number
  | none => heritage.reached name number

def holdIf (refused : Bool) (held : Decision) : Option Decision :=
  if refused then some held else none

/-- The first reason, if any, for which a task has to wait among the active reservations. -/
def capacityHold (heritage : Heritage) (policy : CapacityPolicy) (task : Task) (state : Ledger) :
    Option Decision :=
  let active := activeReservations state
  let writers := active.filter fun reservation => reservation.isWriter
  let onHost := active.filter fun reservation => reservation.host = task.host
  let onAccount := active.filter fun reservation => reservation.account = task.account
  let onRuntime := active.filter fun reservation => reservation.runtime = task.runtime
  let committed := (active.map fun reservation =>
    reservation.estimatedCostMicros.value).foldl numberSum 0
  let costs := numberSum (numberSum state.spentMicros committed) task.estimatedCostMicros.value
  let collidingWriter := active.find? fun reservation =>
    writersCollide task.toBinding reservation.toBinding
  let collidingWorktree := active.find? fun reservation => reservation.worktree = task.worktree
  let overlap := active.find? fun reservation =>
    task.overlapKeys.any fun key => key ∈ reservation.overlapKeys
  (collidingWriter.map fun writer => decision .branchWriterActive
    (js "writer " ++ writer.taskId.text ++ js " already owns " ++ task.repo.text ++ js ":" ++
      task.branch.text)).or <|
  (collidingWorktree.map fun owner => decision .worktreeActive
    (js "worktree already owned by " ++ owner.taskId.text)).or <|
  (overlap.map fun other => decision .overlapActive
    (js "overlaps active task " ++ other.taskId.text)).or <|
  (holdIf (policy.globalLimit ≤ active.length) <| decision .globalCapacity
    (js "global capacity reached")).or <|
  (holdIf (task.isWriter && policy.globalLimit - policy.reviewReserve ≤ writers.length) <|
    decision .reviewReserve
      (decimal policy.reviewReserve ++ js " global slot(s) reserved for review progress")).or <|
  (holdIf (limitReached heritage policy.hosts task.host.text onHost.length) <|
    decision .hostCapacity (js "host " ++ task.host.text ++ js " capacity reached")).or <|
  (holdIf (limitReached heritage policy.accounts task.account.text onAccount.length) <|
    decision .accountCapacity
      (js "shared account " ++ task.account.text ++ js " capacity reached")).or <|
  (holdIf (statesLimit heritage policy.runtimes task.runtime.text &&
      limitReached heritage policy.runtimes task.runtime.text onRuntime.length) <|
    decision .runtimeCapacity (js "runtime " ++ task.runtime.text ++ js " capacity reached")).or <|
  holdIf (policy.budgetMicros.value < costs) <|
    decision .budgetCapacity (js "explicit spending budget would be exceeded")

inductive Existing
  | own (reservation : Reservation)
  | inherited (member : JsValue)

/-- The lookup `state.reservations[key]`, where what counts as false is not there. -/
def lookUp (heritage : Heritage) (reservations : OrderedMap JsString Reservation)
    (key : JsString) : Option Existing :=
  match reservations.get? key with
  | some reservation => some (.own reservation)
  | none => ((heritage.member key).filter JsValue.truthy).map .inherited

def Existing.status : Existing → Option CapacityStatus
  | own reservation => some reservation.status
  | inherited member => named CAPACITY_STATUSES CapacityStatus.text (member.get (js "status"))

def Existing.isSame (existing : Existing) (task : Task) : Bool :=
  match existing with
  | own reservation => reservation.toBinding = task.toBinding
  | inherited member =>
      (member.get (js "role")).isText task.role.text &&
        (member.get (js "runtime")).isText task.runtime.text &&
        (member.get (js "host")).isText task.host.text &&
        (member.get (js "account")).isText task.account.text &&
        (member.get (js "repo")).isText task.repo.text &&
        (member.get (js "branch")).isText task.branch.text &&
        (member.get (js "worktree")).isText task.worktree.text

inductive Evaluation
  | held (decision : Decision)
  | duplicate (existing : Existing)
  | clear (task : Task)

def evaluate (dates : DateParser) (heritage : Heritage) (policy : CapacityPolicy)
    (task : JsValue) (state : Ledger) (now : ClockReading) : Evaluation × Ledger :=
  match taskValidation heritage policy task with
  | .error validation => (.held (refusal validation), state)
  | .ok task =>
      if task.blockedBy ≠ [] then
        (.held (decision .dependencyBlocked (js "blocked by " ++
          (js ", ").intercalate (task.blockedBy.map SafeId.text))), state)
      else
        match lookUp heritage state.reservations task.taskId.text with
        | some existing =>
            if existing.status.any CapacityStatus.isActive then
              if existing.isSame task then
                (.duplicate existing, state)
              else
                (.held (decision .taskRebind
                  (js "task_id is already bound to different execution resources")), state)
            else
              (.held (decision .taskIdReused
                (js "terminal task_id cannot be reused; mint a fresh attempt")), state)
        | none =>
            let (pause, pauses) := pauseFor dates task state.pauses now
            let state := { state with pauses }
            match pause with
            | some (key, pause) =>
                if task.fallbackRuntimes ≠ [] then
                  (.held (decision .unsafeFallback (js "runtime fallback from " ++
                    task.runtime.text ++ js " requires an explicit new work order")), state)
                else
                  (.held (decisionUntil .resourcePaused
                    (key ++ js " paused: " ++ pause.reason.text) pause.«until»), state)
            | none =>
                match capacityHold heritage policy task state with
                | some held => (.held held, state)
                | none => (.clear task, state)

end StudentHub.Capacity
