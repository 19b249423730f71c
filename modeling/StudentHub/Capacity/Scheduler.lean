import StudentHub.Capacity.Evaluate

/-!
# The capacity scheduler

Every call but `snapshot` takes the lock, reads the ledger, expires reservations that
were not acknowledged in time, works on what it read and writes the whole ledger. A
call that throws, or that finds the lock taken or the ledger invalid, writes nothing.
-/

namespace StudentHub.Capacity

open Ecma JsString

inductive Disk
  | working
  | busy
  | failing
  deriving DecidableEq

/-- What the surroundings are for one call: `now` gives the answers of the clock in turn. -/
structure Surroundings where
  disk : Disk
  heritage : Heritage
  now : ℕ → ClockReading

def expireReservation (now : ClockReading) (reservation : Reservation) : Reservation :=
  if reservation.status = .reserved ∧
      ClockReading.reached (some reservation.reservationExpiresAt) now then
    { reservation with
      status := .expired
      holdReason := .string (js "reservation acknowledgement deadline expired before launch")
      nextAutomaticAction := .string (js "create_fresh_attempt_if_retry_budget_allows") }
  else
    reservation

def expireReservations (state : Ledger) (now : ClockReading) : Ledger :=
  { state with reservations := state.reservations.mapValues (expireReservation now) }

inductive Outcome
  | held (decision : Decision)
  | duplicate (existing : Existing)
  | reserved (reservation : Reservation)
  | moved (status : CapacityStatus)
  | paused (key : JsString) (pause : Pause)

def withLock {Result : Type} (dates : DateParser) (around : Surroundings) (file : Ledger)
    (operation : Ledger → Except Thrown (Result × Ledger)) :
    Except Thrown (Decision ⊕ Result) × Ledger :=
  if around.disk = .busy then
    (.ok (.inl (decision .schedulerBusy
      (js "another scheduler transaction owns the capacity ledger"))), file)
  else
    match readLedger dates file with
    | .error _ => (.ok (.inl (decision .ledgerInvalid
        (js "capacity ledger is invalid; no reservation was written"))), file)
    | .ok state =>
        match operation (expireReservations state (around.now 0)) with
        | .error thrown => (.error thrown, file)
        | .ok (result, state) =>
            if around.disk = .failing then (fail (js "the ledger could not be written"), file)
            else (.ok (.inr result), state.parsed)

/-- The date of a reading as `toISOString` takes it. -/
def isoDate (reading : ClockReading) : Except Thrown Instant :=
  match reading.toDate with
  | some instant => .ok instant
  | none => .error .rangeError

def readable (task : JsValue) : Except Thrown Unit :=
  match task with
  | .undefined | .null => .error .typeError
  | _ => .ok ()

def priority (task : JsValue) : FiniteNumber :=
  match task.get (js "priority") with
  | .number (.finite number) => number
  | _ => ⟨false, 999, 0, by decide⟩

def taskOrder (localeCompare : Comparator JsString) (a b : JsValue) : Except Thrown ℤ := do
  readable a
  readable b
  let rank (task : JsValue) : ℤ := if (task.get (js "role")).isText (js "review") then 0 else 1
  let byPriority := (priority a).compare (priority b)
  if rank a ≠ rank b then
    return rank a - rank b
  else if byPriority ≠ 0 then
    return byPriority
  else
    match a.get (js "task_id"), (b.get (js "task_id")).toText with
    | .string left, some right => return localeCompare.compare left right
    | _, _ => .error .typeError

def reservationOf (task : Task) (acceptedAt reservationExpiresAt : Instant) : Reservation :=
  { task with
    status := .reserved
    acceptedAt
    reservationExpiresAt
    holdReason := .undefined
    nextAutomaticAction := .undefined
    updatedAt := none
    actualCostMicros := none }

def reserveOne (dates : DateParser) (policy : CapacityPolicy) (heritage : Heritage)
    (now : ℕ → ClockReading) (task : JsValue) (state : Ledger) :
    Except Thrown (Outcome × Ledger) :=
  match evaluate dates heritage policy task state (now 0) with
  | (.held held, state) => do
      readable task
      return (.held held, state)
  | (.duplicate existing, state) => .ok (.duplicate existing, state)
  | (.clear task, state) => do
      let acceptedAt ← isoDate (now 1)
      let reservationExpiresAt ← isoDate ((now 2).plus policy.reservationTtlMs)
      let reservation := reservationOf task acceptedAt reservationExpiresAt
      return (.reserved reservation, { state with
        reservations := state.reservations.set task.taskId.text reservation })

def reserveAll (dates : DateParser) (policy : CapacityPolicy) (heritage : Heritage) :
    (ℕ → ClockReading) → List (JsValue × ℤ) → Ledger → Except Thrown (List (Outcome × ℤ) × Ledger)
  | _, [], state => .ok ([], state)
  | now, (task, inputIndex) :: others, state => do
      let (outcome, state) ← reserveOne dates policy heritage now task state
      let (outcomes, state) ← reserveAll dates policy heritage (fun read => now (read + 3)) others
        state
      return ((outcome, inputIndex) :: outcomes, state)

/-- The batch in the order of `taskOrder`. -/
def reserveBatch (localeCompare : Comparator JsString) (dates : DateParser)
    (policy : CapacityPolicy) (around : Surroundings) (tasks : List JsValue) (state : Ledger) :
    Except Thrown (List (Outcome × ℤ) × Ledger) := do
  let indexed := tasks.zip ((List.range tasks.length).map Int.ofNat)
  let sorted ← sortM (fun a b => taskOrder localeCompare a.1 b.1) indexed
  reserveAll dates policy around.heritage (fun read => around.now (read + 1)) sorted state

def answerBatch (tasks : List JsValue) :
    Decision ⊕ List (Outcome × ℤ) → Except Thrown (List Outcome)
  | .inr outcomes => .ok ((sortBy Prod.snd outcomes).map Prod.fst)
  | .inl held => do
      tasks.forM readable
      return tasks.map fun _ => .held held

def reserveMany (localeCompare : Comparator JsString) (dates : DateParser)
    (policy : CapacityPolicy) (around : Surroundings) (tasks : JsValue) (file : Ledger) :
    Except Thrown (List Outcome) × Ledger :=
  match tasks with
  | .array tasks =>
      let (locked, file) := withLock dates around file
        (reserveBatch localeCompare dates policy around tasks)
      (locked.bind (answerBatch tasks), file)
  | _ => (fail (js "tasks must be an array"), file)

/-- The third argument of `transition`, as its properties are read. -/
structure TransitionOptions where
  actualCostMicros : JsValue
  holdReason : JsValue
  nextAutomaticAction : JsValue

def orDefault (value default : JsValue) : JsValue :=
  match value with
  | .undefined => default
  | present => present

def moved (current : Reservation) (status : CapacityStatus) (actualCost : SafeNat)
    (options : TransitionOptions) (updatedAt : Instant) : Reservation :=
  { current with
    status
    holdReason := orDefault options.holdReason .null
    nextAutomaticAction := orDefault options.nextAutomaticAction .null
    updatedAt := some updatedAt
    actualCostMicros :=
      if !current.status.isTerminal && status.isTerminal then some actualCost
      else current.actualCostMicros }

def charged (spent : ℕ) (before : Option CapacityStatus) (status : CapacityStatus)
    (actualCost : SafeNat) : ℕ :=
  if !before.any CapacityStatus.isTerminal && status.isTerminal then
    numberSum spent actualCost.value
  else
    spent

def isSettled (before : Option CapacityStatus) (status : CapacityStatus) : Bool :=
  before.any CapacityStatus.isTerminal && before ≠ some status

def move (around : Surroundings) (taskId : JsString) (status : CapacityStatus)
    (actualCost : SafeNat) (options : TransitionOptions) (state : Ledger) :
    Except Thrown (Outcome × Ledger) :=
  match lookUp around.heritage state.reservations taskId with
  | none => .ok (.held (decision .reservationMissing (js "no reservation for " ++ taskId)), state)
  | some existing =>
      if isSettled existing.status status then
        .ok (.held (decision .terminalReservation (taskId ++ js " is already terminal")), state)
      else
        let spentMicros := charged state.spentMicros existing.status status actualCost
        match existing with
        | .own current => do
            let updatedAt ← isoDate (around.now 1)
            return (.moved status,
              { state with
                spentMicros
                reservations := state.reservations.set taskId
                  (moved current status actualCost options updatedAt) })
        | .inherited _ =>
            if !around.heritage.writable taskId then
              .error .typeError
            else do
              let _ ← isoDate (around.now 1)
              return (.moved status, { state with spentMicros })

def outcomeOf (called : Except Thrown (Decision ⊕ Outcome) × Ledger) :
    Except Thrown Outcome × Ledger :=
  (called.1.map fun
    | .inl held => .held held
    | .inr outcome => outcome, called.2)

def transition (dates : DateParser) (around : Surroundings) (taskId : JsString) (status : JsValue)
    (options : TransitionOptions) (file : Ledger) : Except Thrown Outcome × Ledger :=
  match named CAPACITY_STATUSES CapacityStatus.text status with
  | none => (fail (js "invalid capacity status " ++ status.toText.getD []), file)
  | some status =>
      match nonNegativeInteger (orDefault options.actualCostMicros (count 0)) with
      | none => (fail (js "actual cost must be non-negative integer micros"), file)
      | some actualCost =>
          outcomeOf (withLock dates around file (move around taskId status actualCost options))

inductive Resource
  | global
  | host
  | account
  | runtime
  deriving DecidableEq

def Resource.text : Resource → JsString
  | global => js "global"
  | host => js "host"
  | account => js "account"
  | runtime => js "runtime"

def RESOURCES : List Resource := [.global, .host, .account, .runtime]

def resourceKey (scope id : JsValue) : Except Thrown JsString :=
  match named RESOURCES Resource.text scope with
  | none => fail (js "unknown pause scope " ++ scope.toText.getD [])
  | some .global => .ok (js "global")
  | some scope => do
      let id ← require (safeId? id) (js "pause resource id must be safe")
      return scope.text ++ js ":" ++ id.text

structure PauseArguments where
  scope : JsValue
  id : JsValue
  reason : JsValue
  «until» : JsValue

/-- The end of a pause is null or something that `Date.parse` takes for a date. -/
def checkUntil (dates : DateParser) (until_ : JsValue) : Except Thrown Unit :=
  match until_ with
  | .null => .ok ()
  | .other => .error .typeError
  | given =>
      if (parseDate dates given).isSome then .ok ()
      else fail (js "pause expiry must be an ISO timestamp or null")

def setPause (around : Surroundings) (key : JsString) (reason : PauseReason) (until_ : JsValue)
    (state : Ledger) : Except Thrown (Outcome × Ledger) := do
  let createdAt ← isoDate (around.now 1)
  let pause : Pause := ⟨reason, until_, createdAt⟩
  return (.paused key pause, { state with pauses := state.pauses.set key pause })

def pauseResource (dates : DateParser) (around : Surroundings) (arguments : PauseArguments)
    (file : Ledger) : Except Thrown Outcome × Ledger :=
  let until_ := orDefault arguments.«until» .null
  let checked : Except Thrown (PauseReason × JsString) := do
    let reason ← require (named PAUSE_REASONS PauseReason.text arguments.reason)
      (js "pause reason must be a non-secret reason code")
    checkUntil dates until_
    let key ← resourceKey arguments.scope (orDefault arguments.id .null)
    return (reason, key)
  match checked with
  | .error thrown => (.error thrown, file)
  | .ok (reason, key) =>
      outcomeOf (withLock dates around file (setPause around key reason until_))

inductive Call
  | reserveMany (tasks : JsValue)
  | transition (taskId : JsString) (status : JsValue) (options : TransitionOptions)
  | pauseResource (arguments : PauseArguments)
  | snapshot

/-- The parts of the engine that the language leaves open. -/
structure Engine where
  localeCompare : Comparator JsString
  dates : DateParser

variable (engine : Engine) (policy : CapacityPolicy)

def Ledger.next (file : Ledger) (event : Call × Surroundings) : Ledger :=
  match event with
  | (.reserveMany tasks, around) =>
      (Capacity.reserveMany engine.localeCompare engine.dates policy around tasks file).2
  | (.transition taskId status options, around) =>
      (Capacity.transition engine.dates around taskId status options file).2
  | (.pauseResource arguments, around) =>
      (Capacity.pauseResource engine.dates around arguments file).2
  | (.snapshot, _) => file

def Ledger.run (file : Ledger) (events : List (Call × Surroundings)) : Ledger :=
  events.foldl (Ledger.next engine policy) file

end StudentHub.Capacity
