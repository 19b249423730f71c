import StudentHub.Concurrency.Process
import StudentHub.Pay.Days

/-!
# The pay contract service

`create`, `update` and `remove` check their input, ask the reference catalogue and
then hand the store one piece of work to run in a transaction. Both parts are
processes: the first over the service's ports, the second over the operations of
a store transaction. The clock and `randomUUID` answer in either.
-/

namespace StudentHub.Pay

open Ecma JsString Concurrency

inductive PayContractAuditOperation
  | create
  | update
  | remove
  deriving DecidableEq

structure PayContractAudit where
  operation : PayContractAuditOperation
  actorId : JsString
  candidateId : JsString
  companyId : JsString
  payModel : PayModel
  countBefore : ℤ
  countAfter : ℤ
  deriving DecidableEq

/-- What `PayContractTransaction` offers, with the clock and `randomUUID`. -/
inductive TxOp
  | lockPair (candidateId storeId : JsString)
  | find (id : JsString)
  | insert (contract : PayContract)
  | replace (contract : PayContract)
  | audit (entry : PayContractAudit)
  | randomUUID
  | now

@[reducible]
def TxOp.Answer : TxOp → Type
  | lockPair .. => List PayContract
  | find _ => Option PayContract
  | insert _ | replace _ | audit _ => Unit
  | randomUUID => JsString
  | now => Date

abbrev Work := Process TxOp.Answer Thrown PayContract

inductive CatalogueStatus
  | active
  | deleted
  deriving DecidableEq

/-- The answer of `FinanceReferenceResolver.resolve`, which may fail. -/
inductive ReferenceAnswer
  | failed
  | resolved (status : Option CatalogueStatus)
  deriving DecidableEq

inductive CallOp
  | get (id : JsString)
  | resolve (currencyId : JsString)
  | now

@[reducible]
def CallOp.Answer : CallOp → Type
  | get _ => Option PayContract
  | resolve _ => ReferenceAnswer
  | now => Date

abbrev Request := Process CallOp.Answer Thrown Work

def assertNoOverlap (existing : List PayContract) (id : JsString) (dates : Dates) :
    Except Thrown Unit :=
  if existing.any fun c => c.status ≠ .deleted && c.id ≠ id && overlaps c.dates dates then
    .error (.payContract (js "overlapping_contract") 409)
  else
    .ok ()

def requireActor (actorId : JsValue) : Except Thrown JsString :=
  match actorId with
  | .string text => if text = [] then .error (.payContract (js "unauthorized") 401) else .ok text
  | _ => .error (.payContract (js "unauthorized") 401)

def notFound : Thrown := .payContract (js "not_found") 404

def requireId (id : JsValue) : Except Thrown JsString :=
  match id with
  | .string text => if isUuid text then .ok text.toLowerCase else .error notFound
  | _ => .error notFound

def liveCount (contracts : List PayContract) : ℤ :=
  (contracts.filter fun c => c.status ≠ .deleted).length

/-- `toISOString` of the clock's answer, which throws on an invalid date. -/
def isoText (date : Date) : Except Thrown JsString :=
  match date with
  | some instant => .ok instant.toISOString
  | none => .error (.rangeError (js "Invalid time value"))

namespace PayContracts

open Process

def assertCurrency (currencyId : JsString) (previous : Option JsString) :
    Process CallOp.Answer Thrown Unit :=
  if some currencyId = previous then
    returned ()
  else
    perform (.resolve currencyId) fun
      | .failed => thrown (.payContract (js "reference_unavailable") 503)
      | .resolved (some .active) => returned ()
      | .resolved _ => ofExcept (invalid (js "invalid_currency"))

def created (id : JsString) (fields : NormalizedPayContractCreate) (now : JsString) :
    PayContract where
  id := id
  candidateId := fields.candidateId
  companyId := fields.companyId
  storeId := fields.storeId
  startDate := fields.startDate
  endDate := fields.endDate
  currencyId := fields.currencyId
  transferCost := fields.transferCost
  autoGenerate := fields.autoGenerate
  status := fields.status.toStatus
  terms := fields.terms
  createdAt := now
  updatedAt := now
  deletedAt := none

/-- The transaction of `create`. -/
def createWork (actorId : JsString) (fields : NormalizedPayContractCreate) (now : JsString) :
    Work := do
  let existing ← call (TxOp.lockPair fields.candidateId fields.storeId)
  let id ← call .randomUUID
  ofExcept (assertNoOverlap existing id fields.dates)
  let contract := created id fields now
  call (TxOp.insert contract)
  let before := liveCount existing
  call (TxOp.audit ⟨.create, actorId, fields.candidateId, fields.companyId, fields.terms.payModel,
    before, before + 1⟩)
  return contract

def create (actorId input : JsValue) : Request := do
  let actorId ← ofExcept (requireActor actorId)
  let fields ← ofExcept (normalizePayContractCreate input)
  assertCurrency fields.currencyId none
  let date ← call .now
  let now ← ofExcept (isoText date)
  return createWork actorId fields now

/-- The row `current` with the fields of a payload in place of its own. -/
def edited (current : PayContract) (fields : NormalizedPayContractUpdate) (now : JsString) :
    PayContract :=
  { current with
    startDate := fields.startDate
    endDate := fields.endDate
    currencyId := fields.currencyId
    transferCost := fields.transferCost
    autoGenerate := fields.autoGenerate
    status := fields.status.toStatus
    terms := fields.terms
    updatedAt := now }

def findLive (id : JsString) : Process TxOp.Answer Thrown PayContract :=
  perform (.find id) fun
    | none => thrown notFound
    | some current => if current.status = .deleted then thrown notFound else returned current

/-- The transaction of `update`; `previous` is the currency of the row read before it. -/
def updateWork (actorId id : JsString) (fields : NormalizedPayContractUpdate)
    (previous : Option JsString) : Work := do
  let current ← findLive id
  if some current.currencyId ≠ previous ∧ fields.currencyId ≠ current.currencyId then
    thrown (.payContract (js "contract_changed") 409)
  else do
    let existing ← call (TxOp.lockPair current.candidateId current.storeId)
    ofExcept (assertNoOverlap existing id fields.dates)
    let date ← call .now
    let now ← ofExcept (isoText date)
    let next := edited current fields now
    call (TxOp.replace next)
    let count := liveCount existing
    call (TxOp.audit ⟨.update, actorId, current.candidateId, current.companyId,
      fields.terms.payModel, count, count⟩)
    return next

def update (actorId idInput input : JsValue) : Request := do
  let actorId ← ofExcept (requireActor actorId)
  let id ← ofExcept (requireId idInput)
  let fields ← ofExcept (normalizePayContractUpdate input)
  let previous ← call (CallOp.get id)
  let previous := previous.map PayContract.currencyId
  assertCurrency fields.currencyId previous
  return updateWork actorId id fields previous

def removed (current : PayContract) (now : JsString) : PayContract :=
  { current with
    status := .deleted
    deletedAt := some now
    updatedAt := now }

/-- The transaction of `remove`. -/
def removeWork (actorId id : JsString) : Work := do
  let current ← findLive id
  let existing ← call (TxOp.lockPair current.candidateId current.storeId)
  let date ← call .now
  let now ← ofExcept (isoText date)
  let next := removed current now
  call (TxOp.replace next)
  let before := liveCount existing
  call (TxOp.audit ⟨.remove, actorId, current.candidateId, current.companyId,
    current.terms.payModel, before, before - 1⟩)
  return next

def remove (actorId idInput : JsValue) : Request := do
  let actorId ← ofExcept (requireActor actorId)
  let id ← ofExcept (requireId idInput)
  return removeWork actorId id

end PayContracts

end StudentHub.Pay

/-!
## What calls hand to the store

Whatever its ports answer, a call ends with an error or with the work of one of the
three transactions, and the dates it was given have become a period by then.
-/

namespace StudentHub.Pay

open Ecma Concurrency Process

inductive PayContracts.Call
  | create (actorId input : JsValue)
  | update (actorId id input : JsValue)
  | remove (actorId id : JsValue)

def PayContracts.Call.request : PayContracts.Call → Request
  | create actorId input => PayContracts.create actorId input
  | update actorId id input => PayContracts.update actorId id input
  | remove actorId id => PayContracts.remove actorId id

inductive Issued : Work → Prop
  | create {actorId now : JsString} {fields : NormalizedPayContractCreate}
      (dated : ∃ period, fields.dates.period? = some period) :
      Issued (PayContracts.createWork actorId fields now)
  | update {actorId id : JsString} {fields : NormalizedPayContractUpdate}
      {previous : Option JsString} (dated : ∃ period, fields.dates.period? = some period) :
      Issued (PayContracts.updateWork actorId id fields previous)
  | remove {actorId id : JsString} : Issued (PayContracts.removeWork actorId id)

inductive Requested : Work → Prop
  | create {actorId now : JsString} {input : JsValue} {fields : NormalizedPayContractCreate}
      (accepted : normalizePayContractCreate input = .ok fields) :
      Requested (PayContracts.createWork actorId fields now)
  | update {actorId id : JsString} {input : JsValue} {fields : NormalizedPayContractUpdate}
      {previous : Option JsString} (accepted : normalizePayContractUpdate input = .ok fields) :
      Requested (PayContracts.updateWork actorId id fields previous)
  | remove {actorId id : JsString} : Requested (PayContracts.removeWork actorId id)

theorem Requested.issued {work : Work} (requested : Requested work) : Issued work := by
  cases requested with
  | create accepted => exact .create (normalizePayContractCreate_period accepted)
  | update accepted => exact .update (normalizePayContractUpdate_period accepted)
  | remove => exact .remove

section

variable {State : Type} {handle : (op : CallOp) → State → Except Thrown op.Answer × State}
  {state final : State} {work : Work}

theorem run_assertCurrency_bind {currencyId : JsString} {previous : Option JsString}
    {rest : Unit → Request}
    (ran : ((PayContracts.assertCurrency currencyId previous).bind rest).run handle state =
      (.ok work, final)) :
    ∃ after, (rest ()).run handle after = (.ok work, final) := by
  rw [PayContracts.assertCurrency] at ran
  split_ifs at ran
  · exact ⟨state, ran⟩
  · rcases run_perform_ok ran with ⟨answer, after, -, ran⟩
    cases answer with
    | failed => simp [run] at ran
    | resolved status =>
      rcases status with _ | _ | _
      · simp [run, invalid] at ran
      · exact ⟨after, ran⟩
      · simp [run, invalid] at ran

theorem createWork_of_create {actorId input : JsValue}
    (ran : (PayContracts.create actorId input).run handle state = (.ok work, final)) :
    ∃ actor fields now, normalizePayContractCreate input = .ok fields ∧
      work = PayContracts.createWork actor fields now := by
  simp only [PayContracts.create, bind_eq_bind, bind_call, pure_eq_returned] at ran
  rcases run_ofExcept_bind_ok ran with ⟨actor, -, ran⟩
  rcases run_ofExcept_bind_ok ran with ⟨fields, accepted, ran⟩
  rcases run_assertCurrency_bind ran with ⟨asked, ran⟩
  rcases run_perform_ok ran with ⟨date, _, -, ran⟩
  rcases run_ofExcept_bind_ok ran with ⟨now, -, ran⟩
  exact ⟨actor, fields, now, accepted, (run_returned_ok ran).1.symm⟩

theorem updateWork_of_update {actorId id input : JsValue}
    (ran : (PayContracts.update actorId id input).run handle state = (.ok work, final)) :
    ∃ actor contractId fields previous, normalizePayContractUpdate input = .ok fields ∧
      work = PayContracts.updateWork actor contractId fields previous := by
  simp only [PayContracts.update, bind_eq_bind, bind_call, pure_eq_returned] at ran
  rcases run_ofExcept_bind_ok ran with ⟨actor, -, ran⟩
  rcases run_ofExcept_bind_ok ran with ⟨contractId, -, ran⟩
  rcases run_ofExcept_bind_ok ran with ⟨fields, accepted, ran⟩
  rcases run_perform_ok ran with ⟨previous, _, -, ran⟩
  rcases run_assertCurrency_bind ran with ⟨asked, ran⟩
  exact ⟨actor, contractId, fields, _, accepted, (run_returned_ok ran).1.symm⟩

theorem requested_of_request {call : PayContracts.Call}
    (ran : call.request.run handle state = (.ok work, final)) : Requested work := by
  cases call with
  | create actorId input =>
    rcases createWork_of_create ran with ⟨actor, fields, now, accepted, rfl⟩
    exact Requested.create accepted
  | update actorId id input =>
    rcases updateWork_of_update ran with ⟨actor, contractId, fields, previous, accepted, rfl⟩
    exact Requested.update accepted
  | remove actorId id =>
    simp only [PayContracts.Call.request, PayContracts.remove, bind_eq_bind,
      pure_eq_returned] at ran
    rcases run_ofExcept_bind_ok ran with ⟨actor, -, ran⟩
    rcases run_ofExcept_bind_ok ran with ⟨contractId, -, ran⟩
    rw [← (run_returned_ok ran).1]
    exact Requested.remove

theorem issued_of_request {call : PayContracts.Call}
    (ran : call.request.run handle state = (.ok work, final)) : Issued work :=
  (requested_of_request ran).issued

end

end StudentHub.Pay
