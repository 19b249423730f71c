import StudentHub.Ecma.Date
import StudentHub.Ecma.Value

/-!
# Pay contracts and their payloads

One contract binds a candidate, a company and a store for a range of calendar
days, with the terms of one of three pay models. A payload is normalized field by
field, and the first field that fails names the error.
-/

/-!
## Exact money values

Money is a string of digits with three places. Values are only ever parsed into
whole thousandths, for comparison.
-/

namespace StudentHub.Pay

open Ecma JsString

inductive Thrown
  | payContract (code : JsString) (status : ℕ)
  | rangeError (message : JsString)
  | error (message : JsString)
  deriving DecidableEq

def numberText : JsNumber → Option JsString
  | .nan | .infinity _ => none
  | .finite value =>
      if value.IsNegative then
        none
      else if value.text.any fun unit => unit = 69 || unit = 101 then
        none
      else
        some value.text

/-- The part `0|[1-9][0-9]{0,8}` of the pattern. -/
def isWholePart : JsString → Bool
  | [] => false
  | [unit] => isDigit unit
  | first :: rest => isDigit first && first ≠ 48 && rest.length ≤ 8 && rest.all isDigit

/-- The groups of `^(0|[1-9][0-9]{0,8})(?:\.([0-9]{1,3}))?$`, an absent fraction being empty. -/
def matchDecimal (text : JsString) : Option (JsString × JsString) :=
  let whole := text.takeWhile (· ≠ 46)
  if !isWholePart whole then
    none
  else
    match text.dropWhile (· ≠ 46) with
    | [] => some (whole, [])
    | _ :: fraction =>
        if 1 ≤ fraction.length && fraction.length ≤ 3 && fraction.all isDigit then
          some (whole, fraction)
        else
          none

/-- Canonical three-place form of an exact decimal within `decimal(12,3)`. -/
def canonicalDecimal (value : JsValue) : Option JsString := do
  let raw ← match value with
    | .number number => numberText number
    | .string text => some text
    | _ => none
  let (whole, fraction) ← matchDecimal raw.trim
  return whole ++ [46] ++ fraction ++ List.replicate (3 - fraction.length) 48

def thousandths (value : JsString) : Except Thrown ℕ :=
  match canonicalDecimal (.string value) with
  | none => .error (.rangeError (js "not an exact decimal"))
  | some canonical => .ok (numeral (canonical.filter (· ≠ 46)))

def compareDecimal (left right : JsString) : Except Thrown Ordering := do
  let left ← thousandths left
  let right ← thousandths right
  return compare left right

def isPositiveDecimal (value : JsString) : Except Thrown Bool := do
  let value ← thousandths value
  return 0 < value

end StudentHub.Pay

namespace StudentHub.Pay

open Ecma JsString

inductive PayModel
  | hourly
  | fixedPrice
  | monthlySalary
  deriving DecidableEq

def PayModel.text : PayModel → JsString
  | hourly => js "hourly"
  | fixedPrice => js "fixed_price"
  | monthlySalary => js "monthly_salary"

inductive ContractTerms
  | hourly (candidateHourlyRate companyHourlyRate : JsString)
  | fixedPrice (candidateTotal companyTotal : JsString) (completionPercentage : ℕ)
  | monthlySalary (candidateTotal companyTotal : JsString) (salaryDay : ℕ)
  deriving DecidableEq

def ContractTerms.payModel : ContractTerms → PayModel
  | hourly .. => .hourly
  | fixedPrice .. => .fixedPrice
  | monthlySalary .. => .monthlySalary

inductive ContractStatus
  | active
  | inactive
  | deleted
  deriving DecidableEq

inductive EditableStatus
  | active
  | inactive
  deriving DecidableEq

def EditableStatus.toStatus : EditableStatus → ContractStatus
  | active => .active
  | inactive => .inactive

/-- One contract aggregate; an absent `endDate` leaves it open-ended. -/
structure PayContract where
  id : JsString
  candidateId : JsString
  companyId : JsString
  storeId : JsString
  startDate : JsString
  endDate : Option JsString
  currencyId : JsString
  transferCost : JsString
  autoGenerate : Bool
  status : ContractStatus
  terms : ContractTerms
  createdAt : JsString
  updatedAt : JsString
  deletedAt : Option JsString
  deriving DecidableEq

/-- The first and the last day, as `overlaps` takes them. -/
structure Dates where
  startDate : JsString
  endDate : Option JsString

def PayContract.dates (contract : PayContract) : Dates :=
  ⟨contract.startDate, contract.endDate⟩

structure NormalizedPayContractUpdate where
  startDate : JsString
  endDate : Option JsString
  currencyId : JsString
  transferCost : JsString
  autoGenerate : Bool
  status : EditableStatus
  terms : ContractTerms

def NormalizedPayContractUpdate.dates (fields : NormalizedPayContractUpdate) : Dates :=
  ⟨fields.startDate, fields.endDate⟩

structure NormalizedPayContractCreate extends NormalizedPayContractUpdate where
  candidateId : JsString
  companyId : JsString
  storeId : JsString

def isUuid (text : JsString) : Bool :=
  let hex := List.replicate 4 isHex
  let version (unit : UInt16) : Bool := 49 ≤ unit && unit ≤ 53
  let variant (unit : UInt16) : Bool := unit ∈ js "89abAB"
  let dash := [fun unit : UInt16 => decide (unit = 45)]
  text.matchesClasses (hex ++ hex ++ dash ++ hex ++ dash ++ version :: hex.take 3 ++ dash ++
    variant :: hex.take 3 ++ dash ++ hex ++ hex ++ hex)

def isPartyId (text : JsString) : Bool :=
  let first (unit : UInt16) : Bool := isLetter unit || isDigit unit
  match text with
  | [] => false
  | unit :: rest =>
      first unit && rest.length ≤ 127 && rest.all fun unit => first unit || unit ∈ js "._:@-"

/-- The pattern `^\d{4}-\d{2}-\d{2}$`. -/
def isDatePattern (text : JsString) : Bool :=
  let dash := [fun unit : UInt16 => decide (unit = 45)]
  let two := List.replicate 2 isDigit
  text.matchesClasses (two ++ two ++ dash ++ two ++ dash ++ two)

def FIELDS : List JsString :=
  [js "candidateId", js "companyId", js "storeId", js "startDate", js "endDate", js "currencyId",
    js "transferCost", js "autoGenerate", js "status", js "terms"]

def UPDATABLE : List JsString :=
  FIELDS.filter fun field =>
    field ≠ js "candidateId" && field ≠ js "companyId" && field ≠ js "storeId"

def invalid {Value : Type} (code : JsString) : Except Thrown Value :=
  .error (.payContract code 400)

def closedObject (value : JsValue) (allowed : List JsString) : Except Thrown JsValue :=
  match value with
  | .object properties =>
      if properties.any fun property => property.1 ∉ allowed then
        invalid (js "invalid_contract")
      else
        .ok value
  | _ => invalid (js "invalid_contract")

def partyId (value : JsValue) (code : JsString) : Except Thrown JsString :=
  match value with
  | .string text => if isPartyId text then .ok text else invalid code
  | _ => invalid code

/-- The tests of `date` on a string. The parser takes 30 February for a day in March,
and the comparison with the text of the parsed day finds it. -/
def isDate (value : JsString) : Bool :=
  isDatePattern value &&
    match Date.parse (value ++ js "T00:00:00.000Z") with
    | none => false
    | some parsed => parsed.toISOString.take 10 = value && !(js "0000").isPrefixOf value

def date (value : JsValue) (code : JsString) : Except Thrown JsString :=
  match value with
  | .string text => if isDate text then .ok text else invalid code
  | _ => invalid code

def money (value : JsValue) (code : JsString) (positive : Bool) : Except Thrown JsString :=
  match canonicalDecimal value with
  | none => invalid code
  | some canonical => do
      let isPositive ← isPositiveDecimal canonical
      if positive && !isPositive then invalid code else .ok canonical

def wholeNumber (value : JsValue) (min max : ℕ) (code : JsString) : Except Thrown ℕ :=
  let parsed : Option ℤ :=
    match value with
    | .string text =>
        if 1 ≤ text.length && text.length ≤ 3 && text.all isDigit then
          some (numeral text)
        else
          none
    | .number (.finite number) => number.integer?
    | _ => none
  match parsed with
  | none => invalid code
  | some number => if number < min ∨ max < number then invalid code else .ok number.toNat

def companyCovers (company candidate : JsString) : Except Thrown Unit := do
  let order ← compareDecimal company candidate
  if order = .lt then invalid (js "company_amount_below_candidate") else .ok ()

def normalizeTerms (value : JsValue) : Except Thrown ContractTerms :=
  match value.get (js "payModel") with
  | .string kind =>
      if kind = js "hourly" then do
        let raw ← closedObject value
          [js "payModel", js "candidateHourlyRate", js "companyHourlyRate"]
        let candidateHourlyRate ←
          money (raw.get (js "candidateHourlyRate")) (js "invalid_candidate_rate") true
        let companyHourlyRate ←
          money (raw.get (js "companyHourlyRate")) (js "invalid_company_rate") true
        companyCovers companyHourlyRate candidateHourlyRate
        return .hourly candidateHourlyRate companyHourlyRate
      else if kind = js "fixed_price" then do
        let raw ← closedObject value
          [js "payModel", js "candidateTotal", js "companyTotal", js "completionPercentage"]
        let candidateTotal ←
          money (raw.get (js "candidateTotal")) (js "invalid_candidate_total") true
        let companyTotal ← money (raw.get (js "companyTotal")) (js "invalid_company_total") true
        companyCovers companyTotal candidateTotal
        let completionPercentage ← wholeNumber (raw.get (js "completionPercentage")) 0 100
          (js "invalid_completion_percentage")
        return .fixedPrice candidateTotal companyTotal completionPercentage
      else if kind = js "monthly_salary" then do
        let raw ← closedObject value
          [js "payModel", js "candidateTotal", js "companyTotal", js "salaryDay"]
        let candidateTotal ←
          money (raw.get (js "candidateTotal")) (js "invalid_candidate_total") true
        let companyTotal ← money (raw.get (js "companyTotal")) (js "invalid_company_total") true
        companyCovers companyTotal candidateTotal
        let salaryDay ← wholeNumber (raw.get (js "salaryDay")) 1 31 (js "invalid_salary_day")
        return .monthlySalary candidateTotal companyTotal salaryDay
      else
        invalid (js "invalid_pay_model")
  | _ => invalid (js "invalid_pay_model")

def normalizeEndDate (value : JsValue) (startDate : JsString) :
    Except Thrown (Option JsString) :=
  match value with
  | .undefined | .null | .string [] => .ok none
  | present => do
      let endDate ← date present (js "invalid_end_date")
      if endDate < startDate then invalid (js "invalid_end_date") else .ok (some endDate)

def normalizeAutoGenerate (value : JsValue) (terms : ContractTerms) : Except Thrown Bool :=
  match value with
  | .undefined => .ok false
  | .boolean autoGenerate =>
      if autoGenerate && terms.payModel ≠ .monthlySalary then
        invalid (js "invalid_auto_generate")
      else
        .ok autoGenerate
  | _ => invalid (js "invalid_auto_generate")

def normalizeStatus (value : JsValue) : Except Thrown EditableStatus :=
  match value.orString (js "active") with
  | .string text =>
      if text = js "active" then .ok .active
      else if text = js "inactive" then .ok .inactive
      else invalid (js "invalid_status")
  | _ => invalid (js "invalid_status")

def normalizeCurrencyId (value : JsValue) : Except Thrown JsString :=
  match value with
  | .string text => if isUuid text then .ok text.toLowerCase else invalid (js "invalid_currency")
  | _ => invalid (js "invalid_currency")

def normalizeEditable (raw : JsValue) : Except Thrown NormalizedPayContractUpdate := do
  let startDate ← date (raw.get (js "startDate")) (js "invalid_start_date")
  let endDate ← normalizeEndDate (raw.get (js "endDate")) startDate
  let currencyId ← normalizeCurrencyId (raw.get (js "currencyId"))
  let transferCost ← money ((raw.get (js "transferCost")).orString (js "0"))
    (js "invalid_transfer_cost") false
  let terms ← normalizeTerms (raw.get (js "terms"))
  let autoGenerate ← normalizeAutoGenerate (raw.get (js "autoGenerate")) terms
  let status ← normalizeStatus (raw.get (js "status"))
  return { startDate, endDate, currencyId, transferCost, autoGenerate, status, terms }

def normalizePayContractCreate (input : JsValue) : Except Thrown NormalizedPayContractCreate := do
  let raw ← closedObject input FIELDS
  let candidateId ← partyId (raw.get (js "candidateId")) (js "invalid_candidate")
  let companyId ← partyId (raw.get (js "companyId")) (js "invalid_company")
  let storeId ← partyId (raw.get (js "storeId")) (js "invalid_store")
  let editable ← normalizeEditable raw
  return { editable with candidateId, companyId, storeId }

def normalizePayContractUpdate (input : JsValue) : Except Thrown NormalizedPayContractUpdate := do
  let raw ← closedObject input UPDATABLE
  normalizeEditable raw

def notBefore (endDate : Option JsString) (startDate : JsString) : Bool :=
  match endDate with
  | none => true
  | some endDate => startDate ≤ endDate

def overlaps (a b : Dates) : Bool :=
  notBefore a.endDate b.startDate && notBefore b.endDate a.startDate

end StudentHub.Pay
