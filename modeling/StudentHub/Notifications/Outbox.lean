import StudentHub.Concurrency.Crew
import StudentHub.Ecma.Objects

/-!
# The email outbox

Passes claim due messages under a lease and send them one after another. A claim raises the
number of attempts, and a message is completed by that number only while it is being sent.
The store's `claim` and `complete` are transactions; a call may fail before its commit, or its
answer may be lost after it.
-/

namespace StudentHub.Notifications

open Ecma JsString Concurrency Process

inductive EmailClass
  | accountNotice
  deriving DecidableEq

inductive EmailState
  | pending
  | sending
  | sent
  | failed
  | notSent
  | suppressed
  deriving DecidableEq

/-- What a message ends in. -/
def EmailState.isClosed : EmailState → Bool
  | pending | sending => false
  | sent | failed | notSent | suppressed => true

inductive EmailOutcome
  | sent
  | failed
  | notSent
  | suppressed
  deriving DecidableEq

inductive EmailFailureCode
  | deliveryNotConfigured
  | nonProduction
  | addressUnavailable
  | providerRejected
  | providerTimeout
  | retryLimit
  deriving DecidableEq

structure AccountNotice where
  heading : JsString
  message : JsString

structure RenderedEmail where
  subject : JsString
  body : JsString

structure EmailTemplate where
  required : Bool
  render : AccountNotice → RenderedEmail

def EMAIL_TEMPLATES : EmailClass → EmailTemplate
  | .accountNotice => ⟨false, fun parameters => ⟨parameters.heading, parameters.message⟩⟩

/-- `keys.sort().join("\0")` -/
def joinedKeys (keys : List JsString) : JsString := List.intercalate [0] (sortTexts keys)

def validateTemplateParameters (emailClass : EmailClass) (value : JsValue) : Option AccountNotice :=
  match emailClass, value with
  | .accountNotice, .object properties =>
      if joinedKeys (properties.map Prod.fst) = joinedKeys [js "heading", js "message"] then
        match value.get (js "heading"), value.get (js "message") with
        | .string heading, .string message => some ⟨heading, message⟩
        | _, _ => none
      else
        none
  | _, _ => none

structure ClaimedEmail where
  id : JsString
  emailClass : EmailClass
  recipientPrincipalId : JsString
  parameters : JsValue
  attempt : ℕ
  preferenceEnabled : Bool
  address : Option JsString

structure EmailMessage where
  recipient : JsString
  rendered : RenderedEmail

inductive EmailSendResult
  | ok
  | refused (code : EmailFailureCode) (safeToRetry : Bool)

/-- How a call of `port.send` ends; an `EmailSendError` says whether to try again. -/
inductive SendAnswer
  | resolved (result : EmailSendResult)
  | sendError (code : EmailFailureCode) (safeToRetry : Bool)
  | otherError

/-- A row of `email_outbox`; instants are in microseconds. -/
structure OutboxRow where
  emailClass : EmailClass
  recipientPrincipalId : JsString
  templateParameters : JsValue
  idempotencyKey : JsString
  state : EmailState
  attempts : ℕ
  nextAttemptAt : ℤ
  sentAt : Option ℤ

/-- A row of `email_attempts`. -/
structure AttemptRow where
  messageId : JsString
  emailClass : EmailClass
  attemptNumber : ℕ
  outcome : EmailOutcome
  failureCode : Option EmailFailureCode
  completedAt : ℤ
  deriving DecidableEq

structure Claim where
  pass : ℕ
  id : JsString
  attempt : ℕ
  deriving DecidableEq

/-- A call of `port.send`, with the state and the attempts of the row at that moment. -/
structure Sending where
  pass : ℕ
  id : JsString
  attempt : ℕ
  found : Option (EmailState × ℕ)
  deriving DecidableEq

/-- The tables and the clock, and what has happened: who has claimed what, which claimed rows
are still to be sent, which are being sent, and every call of the port. -/
structure Outbox where
  clock : ℤ
  rows : OrderedMap JsString OutboxRow
  attempts : List AttemptRow
  claims : List Claim
  unsent : List (ℕ × ClaimedEmail)
  inFlight : List (ℕ × ClaimedEmail)
  sends : List Sending

def Outbox.initial : Outbox := ⟨0, .empty, [], [], [], [], []⟩

inductive OutboxOp
  | now
  | enqueue (emailClass : EmailClass) (recipientPrincipalId : JsString) (parameters : JsValue)
      (idempotencyKey : JsString)
  | claim (limit : ℕ) (now : ℤ)
  | complete (id : JsString) (emailClass : EmailClass) (attempt : ℕ) (outcome : EmailOutcome)
      (failureCode : Option EmailFailureCode) (retryAt : Option ℤ) (completedAt : ℤ)
  /-- The call of `port.send`; the row is not handed over, it says what is sent. -/
  | send (row : ClaimedEmail) (message : EmailMessage)
  | settled (row : ClaimedEmail)

@[reducible]
def OutboxOp.Answer : OutboxOp → Type
  | now => ℤ
  | enqueue .. => Option JsString
  | claim .. => Option (List ClaimedEmail)
  | complete .. => Bool
  | send .. => Unit
  | settled _ => SendAnswer

/-- How a transaction goes: it is carried out, or not, or carried out without its answer. -/
inductive Fate
  | done
  | refused
  | lost
  deriving DecidableEq

structure Given where
  clock : ℤ
  fate : Fate
  uuid : JsString
  databaseNow : ℤ
  locked : JsString → Bool
  rank : JsString → ℤ
  preference : JsString → EmailClass → Option Bool
  email : JsString → Option JsString
  answer : SendAnswer

def EMAIL_CLAIM_LEASE_SECONDS : ℤ := 900

namespace Outbox

def due (outbox : Outbox) (limit : ℕ) (now : ℤ) (locked : JsString → Bool) :
    List (JsString × OutboxRow) :=
  let byDate : Comparator (JsString × OutboxRow) :=
    (Comparator.ofOrder ℤ).onKey fun entry => entry.2.nextAttemptAt
  let byId : Comparator (JsString × OutboxRow) := codeUnitOrder.onKey Prod.fst
  ((byDate.orElse byId).sort (outbox.rows.entries.filter fun entry =>
    (entry.2.state = .pending || entry.2.state = .sending) && entry.2.nextAttemptAt ≤ now * 1000 &&
      !locked entry.1)).take limit

def claimedRow (row : OutboxRow) (now : ℤ) : OutboxRow :=
  { row with
    state := .sending
    attempts := row.attempts + 1
    nextAttemptAt := now * 1000 + EMAIL_CLAIM_LEASE_SECONDS * 1000000 }

def claimedEmail (given : Given) (entry : JsString × OutboxRow) : ClaimedEmail where
  id := entry.1
  emailClass := entry.2.emailClass
  recipientPrincipalId := entry.2.recipientPrincipalId
  parameters := entry.2.templateParameters
  attempt := entry.2.attempts + 1
  preferenceEnabled := (given.preference entry.2.recipientPrincipalId entry.2.emailClass).getD true
  address := given.email entry.2.recipientPrincipalId

def returnedRows (outbox : Outbox) (limit : ℕ) (now : ℤ) (given : Given) : List ClaimedEmail :=
  (sortBy (fun entry => given.rank entry.1) (outbox.due limit now given.locked)).map
    (claimedEmail given)

def claim (outbox : Outbox) (pass limit : ℕ) (now : ℤ) (given : Given) : Outbox :=
  let due := outbox.due limit now given.locked
  let taken := due.map fun entry => (entry.1, claimedRow entry.2 now)
  { outbox with
    rows := taken.foldl (fun rows entry => rows.set entry.1 entry.2) outbox.rows
    claims := due.map (fun entry => ⟨pass, entry.1, entry.2.attempts + 1⟩) ++ outbox.claims }

def stateOf (outcome : EmailOutcome) (retryAt : Option ℤ) : EmailState :=
  match outcome with
  | .failed => if retryAt.isSome then .pending else .failed
  | .sent => .sent
  | .notSent => .notSent
  | .suppressed => .suppressed

def completes? (outbox : Outbox) (id : JsString) (emailClass : EmailClass) (attempt : ℕ) :
    Option OutboxRow :=
  (outbox.rows.get? id).filter fun row =>
    row.emailClass = emailClass && row.attempts = attempt && row.state = .sending &&
      !outbox.attempts.any fun other => other.messageId = id && other.attemptNumber = attempt

def completed (outbox : Outbox) (row : OutboxRow) (entry : AttemptRow) (retryAt : Option ℤ) :
    Outbox :=
  let state := stateOf entry.outcome retryAt
  { outbox with
    rows := outbox.rows.set entry.messageId
      { row with
        state
        nextAttemptAt := (retryAt.map (· * 1000)).getD row.nextAttemptAt
        sentAt := if state = .sent then some (entry.completedAt * 1000) else row.sentAt }
    attempts := outbox.attempts ++ [entry] }

def forget (outbox : Outbox) (pass : ℕ) (id : JsString) : Outbox :=
  { outbox with unsent := outbox.unsent.filter fun entry => !(entry.1 = pass && entry.2.id = id) }

/-- `INSERT INTO email_outbox .. ON CONFLICT(idempotency_key)` -/
def enqueue (outbox : Outbox) (emailClass : EmailClass) (recipientPrincipalId : JsString)
    (parameters : JsValue) (idempotencyKey : JsString) (given : Given) :
    Option JsString × Outbox :=
  match outbox.rows.entries.find? fun entry => entry.2.idempotencyKey = idempotencyKey with
  | some entry => (some entry.1, outbox)
  | none =>
      let row : OutboxRow :=
        ⟨emailClass, recipientPrincipalId, parameters, idempotencyKey, .pending, 0,
          given.databaseNow, none⟩
      if outbox.rows.has given.uuid then
        (none, outbox)
      else
        (some given.uuid, { outbox with rows := outbox.rows.set given.uuid row })

end Outbox

/-- One operation of a task. The clock does not go back. -/
def handle : Handler OutboxOp.Answer Given Outbox := fun me op given before =>
  let outbox := { before with clock := max before.clock given.clock }
  match op with
  | .now => (outbox.clock, outbox)
  | .enqueue emailClass recipientPrincipalId parameters idempotencyKey =>
      let (answer, after) :=
        outbox.enqueue emailClass recipientPrincipalId parameters idempotencyKey given
      match given.fate with
      | .done => (answer, after)
      | .refused => (none, outbox)
      | .lost => (none, after)
  | .claim limit now =>
      match given.fate with
      | .done =>
          let rows := outbox.returnedRows limit now given
          let after := outbox.claim me limit now given
          (some rows, { after with unsent := rows.map (me, ·) ++ after.unsent })
      | .refused => (none, outbox)
      | .lost => (none, outbox.claim me limit now given)
  | .complete id emailClass attempt outcome failureCode retryAt completedAt =>
      let left := outbox.forget me id
      match given.fate, outbox.completes? id emailClass attempt with
      | .refused, _ | _, none => (false, left)
      | fate, some row =>
          (fate = .done, left.completed row
            ⟨id, emailClass, attempt, outcome, failureCode, completedAt⟩ retryAt)
  | .send row _ =>
      let found := (outbox.rows.get? row.id).map fun stored => (stored.state, stored.attempts)
      let left := outbox.forget me row.id
      ((), { left with
        inFlight := (me, row) :: left.inFlight
        sends := ⟨me, row.id, row.attempt, found⟩ :: left.sends })
  | .settled row =>
      (given.answer, { outbox with
        inFlight := outbox.inFlight.filter fun entry => !(entry.1 = me && entry.2.id = row.id) })

inductive Failure
  | rejected
  | typeError

abbrev Work := Process OutboxOp.Answer Failure

structure EmailOutboxService where
  production : Bool
  configured : Bool
  maxAttempts : ℕ

/-- `await this.store.complete(..)` for a row of a pass. -/
def completeRow (row : ClaimedEmail) (now : ℤ) (outcome : EmailOutcome)
    (failureCode : Option EmailFailureCode) (retryAt : Option ℤ) : Work Unit := do
  let resolved ← call (OutboxOp.complete row.id row.emailClass row.attempt outcome failureCode
    retryAt now)
  if resolved then returned () else thrown .rejected

namespace EmailOutboxService

variable (service : EmailOutboxService)

def beforeSend (row : ClaimedEmail) (now : ℤ) : Work (Option EmailMessage) :=
  let closed (outcome : EmailOutcome) (failureCode : Option EmailFailureCode) :
      Work (Option EmailMessage) :=
    (completeRow row now outcome failureCode none).bind fun _ => returned none
  let template := EMAIL_TEMPLATES row.emailClass
  if row.attempt > service.maxAttempts then
    closed .failed (some .retryLimit)
  else if !template.required && !row.preferenceEnabled then
    closed .suppressed none
  else if !service.production then
    closed .notSent (some .nonProduction)
  else if !service.configured then
    closed .notSent (some .deliveryNotConfigured)
  else
    match row.address.filter (· ≠ []) with
    | none => closed .failed (some .addressUnavailable)
    | some address =>
        match validateTemplateParameters row.emailClass row.parameters with
        | none => thrown .typeError
        | some parameters => returned (some ⟨address, template.render parameters⟩)

def retryAt (row : ClaimedEmail) (now : ℤ) : ℤ := now + min 3600000 (1000 * 2 ^ (row.attempt - 1))

def afterSend (row : ClaimedEmail) (now : ℤ) (result : EmailSendResult) : Work Bool :=
  match result with
  | .ok => do
      let _ ← completeRow row now .sent none none
      return false
  | .refused code safeToRetry =>
      if code = .deliveryNotConfigured then do
        let _ ← completeRow row now .notSent (some code) none
        return false
      else do
        let retry := safeToRetry && row.attempt < service.maxAttempts
        let failureCode :=
          if retry then code else if row.attempt ≥ service.maxAttempts then .retryLimit else code
        let completed ← (completeRow row now .failed (some failureCode)
          (if retry then some (retryAt row now) else none)).attempt
        match (completed : Except Failure Unit) with
        | .ok _ => return false
        | .error _ => return true

def deliver (row : ClaimedEmail) (message : EmailMessage) (now : ℤ) : Work Bool := do
  let _ ← call (OutboxOp.send row message)
  let answer ← call (OutboxOp.settled row)
  match answer with
  | .otherError => thrown .rejected
  | .sendError code safeToRetry => do
      let _ ← service.afterSend row now (.refused code safeToRetry)
      return true
  | .resolved result => service.afterSend row now result

def processRow (row : ClaimedEmail) (now : ℤ) : Work Bool := do
  match ← (service.beforeSend row now).attempt with
  | .error _ => do
      let _ ← (completeRow row now .failed none none).attempt
      return true
  | .ok none => return false
  | .ok (some message) =>
      match ← (service.deliver row message now).attempt with
      | .error _ => return true
      | .ok failed => return failed

def processRows (now : ℤ) : List ClaimedEmail → Work Bool
  | [] => returned false
  | row :: rest => do
      let failed ← service.processRow row now
      let later ← processRows now rest
      return failed || later

def processDue (limit : ℕ) : Work ℕ := do
  let now ← call OutboxOp.now
  match ← call (OutboxOp.claim limit now) with
  | none => thrown .rejected
  | some rows => do
      let failed ← service.processRows now rows
      if failed then thrown .rejected else return rows.length

end EmailOutboxService

def enqueueTransactionalEmail (emailClass : EmailClass) (recipientPrincipalId : JsString)
    (parameters : JsValue) (idempotencyKey : JsString) : Work JsString :=
  match validateTemplateParameters emailClass parameters with
  | none => thrown .typeError
  | some closed => do
      let stored := JsValue.object [(js "heading", .string closed.heading),
        (js "message", .string closed.message)]
      match ← call (OutboxOp.enqueue emailClass recipientPrincipalId stored idempotencyKey) with
      | some id => return id
      | none => thrown .rejected

inductive OutboxTask
  | enqueue (emailClass : EmailClass) (recipientPrincipalId : JsString) (parameters : JsValue)
      (idempotencyKey : JsString)
  | pass (limit : ℕ)

def OutboxTask.program (service : EmailOutboxService) : OutboxTask → Work Unit
  | enqueue emailClass recipientPrincipalId parameters idempotencyKey => do
      let _ ← enqueueTransactionalEmail emailClass recipientPrincipalId parameters idempotencyKey
      return ()
  | pass limit => do
      let _ ← service.processDue limit
      return ()

end StudentHub.Notifications
