import StudentHub.Ecma.Arrays
import StudentHub.Pay.Contract

/-!
# Effective rates

A transfer line is paid by the one contract that applies to it, or by rates from
elsewhere when none does. Applicable contracts are those of the candidate and store
that are not deleted and meet the period, or that have not ended before today when
there is no period. A filter that leaves nothing is refused, and so is a choice.
-/

namespace StudentHub.Pay

open Ecma JsString

def RATE_RESOLUTION_VERSION : JsString := js "studenthub.pay-rate-resolution.v1"

inductive ResolutionStep
  | contractsMatchedByPeriod
  | contractsMatchedActiveToday
  | explicitContractFilter
  | payModelFilter
  | singleContractSelected
  | noMatchingContract
  | candidateRateFromInput
  | candidateRateFromCandidate
  | companyRateFromInput
  | companyRateFromCompany
  | companyRateFromParent
  deriving DecidableEq

structure TransferPeriod where
  start : JsString
  «end» : JsString
  deriving DecidableEq

structure EnteredRates where
  candidateHourlyRate : Option JsString
  companyHourlyRate : Option JsString
  deriving DecidableEq

structure DefaultRates where
  candidateHourlyRate : Option JsString
  companyHourlyRate : Option JsString
  parentCompanyHourlyRate : Option JsString
  deriving DecidableEq

structure RateResolutionInput where
  candidateId : JsString
  storeId : JsString
  contracts : List PayContract
  period : Option TransferPeriod
  today : JsString
  contractId : Option JsString
  payModel : Option PayModel
  entered : Option EnteredRates
  defaults : Option DefaultRates
  deriving DecidableEq

structure ResolutionBase where
  version : JsString
  steps : List ResolutionStep
  matchedContractIds : List JsString
  deriving DecidableEq

/-- A resolution; the first two have the source `contract`. -/
inductive RateResolution
  | hourlyContract (base : ResolutionBase) (contractId : JsString)
      (candidateHourlyRate companyHourlyRate : JsString)
  | totalContract (base : ResolutionBase) (contractId : JsString) (payModel : PayModel)
      (candidateTotal companyTotal transferCost : JsString)
  | manual (base : ResolutionBase) (candidateHourlyRate companyHourlyRate : JsString)
  deriving DecidableEq

inductive RateResolutionErrorCode
  | ambiguousContract
  | contractNotApplicable
  | candidateRateUnavailable
  | companyRateUnavailable
  | companyRateBelowCandidate
  | invalidPeriod
  deriving DecidableEq

inductive RateResolutionThrown
  | rateResolutionError (code : RateResolutionErrorCode) (status : ℕ)
      (matchedContractIds : List JsString)
  | other (error : Thrown)
  deriving DecidableEq

def isCalendarDate (value : JsString) : Bool := isDate value

def refuse {Value : Type} (code : RateResolutionErrorCode) (status : ℕ)
    (matchedContractIds : List JsString) : Except RateResolutionThrown Value :=
  .error (.rateResolutionError code status matchedContractIds)

def validDates (input : RateResolutionInput) : Bool :=
  isCalendarDate input.today &&
    match input.period with
    | none => true
    | some period =>
        isCalendarDate period.start && isCalendarDate period.end && !(period.end < period.start)

def applicable (input : RateResolutionInput) : List PayContract × ResolutionStep :=
  let held := input.contracts.filter fun c =>
    c.candidateId = input.candidateId && c.storeId = input.storeId && c.status ≠ .deleted
  match input.period with
  | some period =>
      (held.filter fun c => c.startDate ≤ period.end && notBefore c.endDate period.start,
        .contractsMatchedByPeriod)
  | none => (held.filter fun c => notBefore c.endDate input.today, .contractsMatchedActiveToday)

def narrow {Value : Type} (wanted : Option Value) (keeps : Value → PayContract → Bool)
    (step : ResolutionStep) (found : List PayContract × List ResolutionStep) :
    List PayContract × List ResolutionStep :=
  match wanted with
  | none => found
  | some value => (found.1.filter (keeps value), found.2 ++ [step])

def filtered (input : RateResolutionInput) (found : List PayContract × List ResolutionStep) :
    List PayContract × List ResolutionStep :=
  let byId := narrow input.contractId (fun contractId c => c.id = contractId)
    .explicitContractFilter found
  narrow input.payModel (fun payModel c => c.terms.payModel = payModel) .payModelFilter byId

def newestFirst (localeCompare : Comparator JsString) : Comparator PayContract :=
  (localeCompare.onKey PayContract.startDate).reverse.orElse (localeCompare.onKey PayContract.id)

def matchContracts (localeCompare : Comparator JsString) (input : RateResolutionInput) :
    Except RateResolutionThrown (List PayContract × List ResolutionStep) :=
  if !validDates input then
    refuse .invalidPeriod 400 []
  else
    let (applicable, step) := applicable input
    let applicableIds := applicable.map PayContract.id
    let (found, steps) := filtered input (applicable, [step])
    -- Manual pay is hourly and only for a period no contract covers.
    if found = [] ∧ (input.contractId.isSome ∨ applicableIds ≠ [] ∨
        input.payModel.getD .hourly ≠ .hourly) then
      refuse .contractNotApplicable 409 (sortTexts applicableIds)
    else
      .ok ((newestFirst localeCompare).sort found, steps)

def present (value : Option JsString) : Bool :=
  match value with
  | none => false
  | some text => text ≠ []

def canonicalOf (value : Option JsString) : Option JsString :=
  value.bind fun text => canonicalDecimal (.string text)

def positive (value : Option JsString) : Except Thrown Bool :=
  match canonicalOf value with
  | none => .ok false
  | some canonical => isPositiveDecimal canonical

def firstPositive : List (Option JsString × ResolutionStep) →
    Except Thrown (Option JsString × List ResolutionStep)
  | [] => .ok (none, [])
  | (rate, step) :: others => do
      if ← positive rate then return (canonicalOf rate, [step]) else firstPositive others

def chooseRate (entered : Option JsString) (fromInput : ResolutionStep)
    (defaults : List (Option JsString × ResolutionStep)) :
    Except Thrown (Option JsString × List ResolutionStep) :=
  if present entered then .ok (canonicalOf entered, [fromInput]) else firstPositive defaults

def requirePositive (rate : Option JsString) (code : RateResolutionErrorCode) :
    Except RateResolutionThrown JsString :=
  match rate with
  | none => refuse code 400 []
  | some rate =>
      match isPositiveDecimal rate with
      | .error error => .error (.other error)
      | .ok true => .ok rate
      | .ok false => refuse code 400 []

def lift {Value : Type} (result : Except Thrown Value) : Except RateResolutionThrown Value :=
  result.mapError .other

def resolveManual (input : RateResolutionInput) (steps : List ResolutionStep)
    (matchedContractIds : List JsString) : Except RateResolutionThrown RateResolution := do
  let (candidateRate, candidateSteps) ← lift <| chooseRate
    (input.entered.bind EnteredRates.candidateHourlyRate) .candidateRateFromInput
    [(input.defaults.bind DefaultRates.candidateHourlyRate, .candidateRateFromCandidate)]
  let (companyRate, companySteps) ← lift <| chooseRate
    (input.entered.bind EnteredRates.companyHourlyRate) .companyRateFromInput
    [(input.defaults.bind DefaultRates.companyHourlyRate, .companyRateFromCompany),
      (input.defaults.bind DefaultRates.parentCompanyHourlyRate, .companyRateFromParent)]
  let candidateRate ← requirePositive candidateRate .candidateRateUnavailable
  let companyRate ← requirePositive companyRate .companyRateUnavailable
  let order ← lift (compareDecimal companyRate candidateRate)
  if order = .lt then
    refuse .companyRateBelowCandidate 400 []
  else
    let steps := steps ++ [.noMatchingContract] ++ candidateSteps ++ companySteps
    return .manual ⟨RATE_RESOLUTION_VERSION, steps, matchedContractIds⟩ candidateRate companyRate

def resolveContract (contract : PayContract) (base : ResolutionBase) : RateResolution :=
  match contract.terms with
  | .hourly candidateHourlyRate companyHourlyRate =>
      .hourlyContract base contract.id candidateHourlyRate companyHourlyRate
  | .fixedPrice candidateTotal companyTotal _ =>
      .totalContract base contract.id .fixedPrice candidateTotal companyTotal contract.transferCost
  | .monthlySalary candidateTotal companyTotal _ =>
      .totalContract base contract.id .monthlySalary candidateTotal companyTotal
        contract.transferCost

def resolveEffectiveRate (localeCompare : Comparator JsString) (input : RateResolutionInput) :
    Except RateResolutionThrown RateResolution := do
  let (found, steps) ← matchContracts localeCompare input
  let matchedContractIds := found.map PayContract.id
  match found with
  | [] => resolveManual input steps matchedContractIds
  | [contract] =>
      return resolveContract contract
        ⟨RATE_RESOLUTION_VERSION, steps ++ [.singleContractSelected], matchedContractIds⟩
  | _ => refuse .ambiguousContract 409 matchedContractIds

end StudentHub.Pay
