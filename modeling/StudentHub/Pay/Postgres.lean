import StudentHub.Concurrency.ReadCommitted
import StudentHub.Ecma.Json
import StudentHub.Pay.Contracts

/-!
# The PostgreSQL pay contract store

`transactionFor` carries out each operation of a store transaction by statements on the
table `pay_contracts`. A column holds what it reads back as: dates and amounts leave the
database as text. The hash of the advisory lock's name is a parameter, so the locks of
two pairs may coincide.
-/

namespace StudentHub.Pay

open Ecma Concurrency Process

structure ContractRow where
  candidatePrincipalId : JsString
  companyOrgId : JsString
  storeId : JsString
  payModel : PayModel
  startDate : JsString
  endDate : Option JsString
  currencyId : JsString
  transferCost : JsString
  autoGenerate : Bool
  status : ContractStatus
  candidateHourlyRate : Option JsString
  companyHourlyRate : Option JsString
  candidateTotal : Option JsString
  companyTotal : Option JsString
  completionPercentage : Option ℕ
  salaryDay : Option ℕ
  createdAt : JsString
  updatedAt : JsString
  deletedAt : Option JsString
  deriving DecidableEq

def ContractRow.dates (row : ContractRow) : Dates := ⟨row.startDate, row.endDate⟩

/-- The candidate and the store of a row. -/
def ContractRow.pair (row : ContractRow) : JsString × JsString :=
  (row.candidatePrincipalId, row.storeId)

def termsFromRow (id : JsString) (row : ContractRow) : Except Thrown ContractTerms :=
  let need {Column : Type} (value : Option Column) : Except Thrown Column :=
    match value with
    | some value => .ok value
    | none => .error (.error (js "pay contract " ++ id ++ js " is missing a " ++
        row.payModel.text ++ js " term"))
  match row.payModel with
  | .hourly => do
      let candidateHourlyRate ← need row.candidateHourlyRate
      let companyHourlyRate ← need row.companyHourlyRate
      return .hourly candidateHourlyRate companyHourlyRate
  | .fixedPrice => do
      let candidateTotal ← need row.candidateTotal
      let companyTotal ← need row.companyTotal
      let completionPercentage ← need row.completionPercentage
      return .fixedPrice candidateTotal companyTotal completionPercentage
  | .monthlySalary => do
      let candidateTotal ← need row.candidateTotal
      let companyTotal ← need row.companyTotal
      let salaryDay ← need row.salaryDay
      return .monthlySalary candidateTotal companyTotal salaryDay

def fromRow (entry : JsString × ContractRow) : Except Thrown PayContract := do
  let (id, row) := entry
  let terms ← termsFromRow id row
  return {
    id
    candidateId := row.candidatePrincipalId
    companyId := row.companyOrgId
    storeId := row.storeId
    startDate := row.startDate
    endDate := row.endDate
    currencyId := row.currencyId
    transferCost := row.transferCost
    autoGenerate := row.autoGenerate
    status := row.status
    terms
    createdAt := row.createdAt
    updatedAt := row.updatedAt
    deletedAt := row.deletedAt }

def withTerms (row : ContractRow) : ContractTerms → ContractRow
  | .hourly candidateHourlyRate companyHourlyRate =>
      { row with
        payModel := .hourly
        candidateHourlyRate := some candidateHourlyRate
        companyHourlyRate := some companyHourlyRate
        candidateTotal := none
        companyTotal := none
        completionPercentage := none
        salaryDay := none }
  | .fixedPrice candidateTotal companyTotal completionPercentage =>
      { row with
        payModel := .fixedPrice
        candidateHourlyRate := none
        companyHourlyRate := none
        candidateTotal := some candidateTotal
        companyTotal := some companyTotal
        completionPercentage := some completionPercentage
        salaryDay := none }
  | .monthlySalary candidateTotal companyTotal salaryDay =>
      { row with
        payModel := .monthlySalary
        candidateHourlyRate := none
        companyHourlyRate := none
        candidateTotal := some candidateTotal
        companyTotal := some companyTotal
        completionPercentage := none
        salaryDay := some salaryDay }

/-- The columns that `UPDATE` sets, and with them a row's parties and its creation time. -/
def setColumns (contract : PayContract) (row : ContractRow) : ContractRow :=
  withTerms
    { row with
      startDate := contract.startDate
      endDate := contract.endDate
      currencyId := contract.currencyId
      transferCost := contract.transferCost
      autoGenerate := contract.autoGenerate
      status := contract.status
      updatedAt := contract.updatedAt
      deletedAt := contract.deletedAt }
    contract.terms

/-- The row that `INSERT` writes. -/
def values (contract : PayContract) : ContractRow :=
  withTerms
    { candidatePrincipalId := contract.candidateId
      companyOrgId := contract.companyId
      storeId := contract.storeId
      payModel := contract.terms.payModel
      startDate := contract.startDate
      endDate := contract.endDate
      currencyId := contract.currencyId
      transferCost := contract.transferCost
      autoGenerate := contract.autoGenerate
      status := contract.status
      candidateHourlyRate := none
      companyHourlyRate := none
      candidateTotal := none
      companyTotal := none
      completionPercentage := none
      salaryDay := none
      createdAt := contract.createdAt
      updatedAt := contract.updatedAt
      deletedAt := contract.deletedAt }
    contract.terms

inductive LocalOp
  | randomUUID
  | now

@[reducible]
def LocalOp.Answer : LocalOp → Type
  | randomUUID => JsString
  | now => Date

/-- The table `pay_contracts` with the audit log. -/
abbrev paySchema : Schema where
  Id := JsString
  Row := ContractRow
  Entry := PayContractAudit
  Key := ℤ
  Local := LocalOp
  LocalAnswer := LocalOp.Answer

abbrev SqlProcess := Process (@Statement.Answer paySchema) Thrown

def lockName (pair : JsString × JsString) : JsString :=
  js "pay-contracts:" ++
    ((Json.stringify (.array [.string pair.1, .string pair.2])).getD [])

/-- `ORDER BY start_date DESC, id` -/
def Listed (left right : JsString × ContractRow) : Prop :=
  right.2.startDate < left.2.startDate ∨
    left.2.startDate = right.2.startDate ∧ left.1 ≤ right.1

instance (left right : JsString × ContractRow) : Decidable (Listed left right) :=
  inferInstanceAs (Decidable (_ ∨ _ ∧ _))

/-- The query of `lockPair`. -/
def pairRows (pair : JsString × JsString) (rows : List (JsString × ContractRow)) :
    List (JsString × ContractRow) :=
  (rows.filter fun entry => entry.2.pair = pair).insertionSort Listed

/-- The condition on the parties in the `WHERE` clause of `replace`. -/
def sameParties (contract : PayContract) (row : ContractRow) : Bool :=
  row.candidatePrincipalId = contract.candidateId && row.companyOrgId = contract.companyId &&
    row.storeId = contract.storeId

/-- Each operation by its statements; `hash` is `hashtextextended` with its seed. -/
def transactionFor (hash : JsString → ℤ) (op : TxOp) : SqlProcess op.Answer :=
  match op with
  | .lockPair candidateId storeId =>
      perform (.advisoryLock (hash (lockName (candidateId, storeId)))) fun _ =>
        perform (.select (pairRows (candidateId, storeId))) fun rows =>
          ofExcept (rows.mapM fromRow)
  | .find id =>
      perform (.selectForUpdate id) fun
        | none => returned none
        | some row => (ofExcept (fromRow (id, row))).bind fun contract => returned (some contract)
  | .insert contract => perform (.insert contract.id (values contract)) returned
  | .replace contract =>
      perform (.update contract.id (sameParties contract) (setColumns contract)) fun updated =>
        if updated then returned () else thrown (.error (js "pay contract not updated"))
  | .audit entry => perform (.append entry) returned
  | .randomUUID => perform (.own .randomUUID) returned
  | .now => perform (.own .now) returned

def Work.statements (hash : JsString → ℤ) (work : Work) : SqlProcess PayContract :=
  work.translate (transactionFor hash)

end StudentHub.Pay
