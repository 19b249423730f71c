import StudentHub.Pay.Resolution

/-!
# One contract, or none in force

Which rate applies is a matter of the contracts that apply and pass the filters:
one decides, several are refused, and without any the rates come from elsewhere
only when nothing applies at all. So the order of the contracts does not matter.
-/

namespace StudentHub.Pay

open Ecma JsString

/-- The contract has days in the period, or has not ended before today without one. -/
def InTime (input : RateResolutionInput) (contract : PayContract) : Prop :=
  match input.period with
  | some period =>
      contract.startDate ≤ period.end ∧ ∀ last ∈ contract.endDate, period.start ≤ last
  | none => ∀ last ∈ contract.endDate, input.today ≤ last

/-- The contract is one of the candidate and store, is not deleted and is in time. -/
def Applies (input : RateResolutionInput) (contract : PayContract) : Prop :=
  contract.candidateId = input.candidateId ∧ contract.storeId = input.storeId ∧
    contract.status ≠ .deleted ∧ InTime input contract

def PassesFilters (input : RateResolutionInput) (contract : PayContract) : Prop :=
  (∀ contractId ∈ input.contractId, contract.id = contractId) ∧
    ∀ payModel ∈ input.payModel, contract.terms.payModel = payModel

/-- The contract applies and is one the filters leave. -/
def Selected (input : RateResolutionInput) (contract : PayContract) : Prop :=
  Applies input contract ∧ PassesFilters input contract

instance (input : RateResolutionInput) (contract : PayContract) :
    Decidable (InTime input contract) := by
  unfold InTime
  split <;> infer_instance

instance (input : RateResolutionInput) (contract : PayContract) :
    Decidable (Applies input contract) :=
  inferInstanceAs (Decidable (_ ∧ _ ∧ _ ∧ _))

instance (input : RateResolutionInput) (contract : PayContract) :
    Decidable (PassesFilters input contract) :=
  inferInstanceAs (Decidable (_ ∧ _))

instance (input : RateResolutionInput) (contract : PayContract) :
    Decidable (Selected input contract) :=
  inferInstanceAs (Decidable (_ ∧ _))

def inForce (input : RateResolutionInput) : List PayContract :=
  input.contracts.filter fun c => Applies input c

def selection (input : RateResolutionInput) : List PayContract :=
  input.contracts.filter fun c => Selected input c

theorem notBefore_iff_forall {endDate : Option JsString} {startDate : JsString} :
    notBefore endDate startDate = true ↔ ∀ last ∈ endDate, startDate ≤ last := by
  cases endDate <;> simp [notBefore]

theorem applicable_fst (input : RateResolutionInput) : (applicable input).1 = inForce input := by
  rw [applicable, inForce]
  cases here : input.period with
  | none =>
    simp only [List.filter_filter]
    apply List.filter_congr
    intro c _
    rw [Bool.eq_iff_iff]
    simp [Applies, InTime, here, notBefore_iff_forall, and_comm, and_assoc]
  | some period =>
    simp only [List.filter_filter]
    apply List.filter_congr
    intro c _
    rw [Bool.eq_iff_iff]
    simp [Applies, InTime, here, notBefore_iff_forall, and_comm, and_assoc]

def filterSteps (input : RateResolutionInput) : List ResolutionStep :=
  (input.contractId.toList.map fun _ => .explicitContractFilter) ++
    input.payModel.toList.map fun _ => .payModelFilter

def matchSteps (input : RateResolutionInput) : List ResolutionStep :=
  (applicable input).2 :: filterSteps input

theorem filtered_eq (input : RateResolutionInput) (contracts : List PayContract)
    (steps : List ResolutionStep) :
    filtered input (contracts, steps) =
      (contracts.filter fun c => PassesFilters input c, steps ++ filterSteps input) := by
  simp only [filtered, filterSteps]
  cases byId : input.contractId <;> cases byModel : input.payModel <;>
    simp [narrow, PassesFilters, byId, byModel, List.filter_filter, Bool.and_comm]

theorem filter_inForce (input : RateResolutionInput) :
    (inForce input).filter (fun c => PassesFilters input c) = selection input := by
  rw [inForce, selection, List.filter_filter]
  apply List.filter_congr
  intro c _
  rw [Bool.eq_iff_iff, Bool.and_eq_true, decide_eq_true_iff, decide_eq_true_iff,
    decide_eq_true_iff, and_comm]
  rfl

theorem matchContracts_eq (localeCompare : Comparator JsString) (input : RateResolutionInput) :
    matchContracts localeCompare input =
      if !validDates input then
        refuse .invalidPeriod 400 []
      else if selection input = [] ∧ (input.contractId.isSome ∨ inForce input ≠ [] ∨
          input.payModel.getD .hourly ≠ .hourly) then
        refuse .contractNotApplicable 409 (sortTexts ((inForce input).map PayContract.id))
      else
        .ok ((newestFirst localeCompare).sort (selection input), matchSteps input) := by
  rw [matchContracts]
  simp only [applicable_fst, filtered_eq, filter_inForce, ne_eq, List.map_eq_nil_iff]
  rfl

section Result

variable {localeCompare : Comparator JsString} {input : RateResolutionInput}

theorem resolveEffectiveRate_of_empty (nothing : selection input = []) :
    resolveEffectiveRate localeCompare input =
      if !validDates input then
        refuse .invalidPeriod 400 []
      else if input.contractId.isSome ∨ inForce input ≠ [] ∨
          input.payModel.getD .hourly ≠ .hourly then
        refuse .contractNotApplicable 409 (sortTexts ((inForce input).map PayContract.id))
      else
        resolveManual input (matchSteps input) [] := by
  simp only [resolveEffectiveRate, matchContracts_eq, nothing, true_and]
  split_ifs <;> rfl

theorem resolveEffectiveRate_of_single {contract : PayContract}
    (single : selection input = [contract]) :
    resolveEffectiveRate localeCompare input =
      if !validDates input then
        refuse .invalidPeriod 400 []
      else
        .ok (resolveContract contract
          ⟨RATE_RESOLUTION_VERSION, matchSteps input ++ [.singleContractSelected],
            [contract.id]⟩) := by
  simp only [resolveEffectiveRate, matchContracts_eq, single, List.cons_ne_nil, false_and,
    if_false]
  split_ifs <;> rfl

theorem resolveEffectiveRate_of_several (several : 2 ≤ (selection input).length) :
    resolveEffectiveRate localeCompare input =
      if !validDates input then
        refuse .invalidPeriod 400 []
      else
        refuse .ambiguousContract 409
          (((newestFirst localeCompare).sort (selection input)).map PayContract.id) := by
  have nonempty : selection input ≠ [] := List.ne_nil_of_length_pos (by omega)
  have sameLength : 2 ≤ ((newestFirst localeCompare).sort (selection input)).length := by
    rwa [Comparator.length_sort]
  simp only [resolveEffectiveRate, matchContracts_eq, nonempty, false_and, if_false]
  split_ifs
  · rfl
  · generalize (newestFirst localeCompare).sort (selection input) = sorted at sameLength
    match sorted, sameLength with
    | _ :: _ :: _, _ => rfl

end Result

theorem lift_eq_ok {Value : Type} {result : Except Thrown Value} {value : Value}
    (lifted : lift result = .ok value) : result = .ok value := by
  cases result with
  | error error => simp [lift, Except.mapError] at lifted
  | ok inner => simpa [lift, Except.mapError] using lifted

theorem requirePositive_eq_ok {rate : Option JsString} {code : RateResolutionErrorCode}
    {accepted : JsString} (required : requirePositive rate code = .ok accepted) :
    ∃ amount, thousandths accepted = .ok amount ∧ 0 < amount := by
  cases rate with
  | none => simp [requirePositive, refuse] at required
  | some rate =>
    simp only [requirePositive, isPositiveDecimal] at required
    cases read : thousandths rate with
    | error error => simp [read, bind, Except.bind] at required
    | ok amount =>
      by_cases isPositive : 0 < amount
      · simp [read, bind, Except.bind, isPositive, pure, Except.pure] at required
        exact ⟨amount, required ▸ read, isPositive⟩
      · simp [read, bind, Except.bind, isPositive, refuse, pure, Except.pure] at required

theorem compareDecimal_eq_ok {left right : JsString} {order : Ordering} {leftAmount rightAmount : ℕ}
    (compared : compareDecimal left right = .ok order) (leftRead : thousandths left = .ok leftAmount)
    (rightRead : thousandths right = .ok rightAmount) : order = compare leftAmount rightAmount := by
  simp only [compareDecimal, leftRead, rightRead] at compared
  exact (Except.ok.inj compared).symm

/-- A pair of rates that may be paid: exact, positive, and covered by the company. -/
def Payable (candidate company : JsString) : Prop :=
  ∃ candidateAmount companyAmount, thousandths candidate = .ok candidateAmount ∧
    thousandths company = .ok companyAmount ∧ 0 < candidateAmount ∧ candidateAmount ≤ companyAmount

theorem resolveManual_eq_ok {input : RateResolutionInput} {steps : List ResolutionStep}
    {ids : List JsString} {result : RateResolution}
    (resolved : resolveManual input steps ids = .ok result) :
    ∃ base candidate company, result = .manual base candidate company ∧
      Payable candidate company := by
  rcases bind_eq_ok_iff.mp resolved with ⟨⟨candidateRate, candidateSteps⟩, -, resolved⟩
  rcases bind_eq_ok_iff.mp resolved with ⟨⟨companyRate, companySteps⟩, -, resolved⟩
  rcases bind_eq_ok_iff.mp resolved with ⟨candidate, candidateAccepted, resolved⟩
  rcases bind_eq_ok_iff.mp resolved with ⟨company, companyAccepted, resolved⟩
  rcases bind_eq_ok_iff.mp resolved with ⟨order, compared, resolved⟩
  rcases requirePositive_eq_ok candidateAccepted with ⟨candidateAmount, candidateRead, positive⟩
  rcases requirePositive_eq_ok companyAccepted with ⟨companyAmount, companyRead, -⟩
  split_ifs at resolved with below
  · simp [refuse] at resolved
  · refine ⟨_, candidate, company, (Except.ok.inj resolved).symm, candidateAmount, companyAmount,
      candidateRead, companyRead, positive, ?_⟩
    rw [compareDecimal_eq_ok (lift_eq_ok compared) companyRead candidateRead,
      Nat.compare_eq_lt] at below
    omega

theorem lift_ne_refusal {Value : Type} {result : Except Thrown Value}
    {code : RateResolutionErrorCode} {status : ℕ} {ids : List JsString} :
    lift result ≠ .error (.rateResolutionError code status ids) := by
  cases result <;> simp [lift, Except.mapError]

theorem requirePositive_ne_refusal {rate : Option JsString} {code other : RateResolutionErrorCode}
    {status : ℕ} {ids : List JsString} (different : code ≠ other) :
    requirePositive rate code ≠ .error (.rateResolutionError other status ids) := by
  cases rate with
  | none => simp [requirePositive, refuse, different]
  | some rate =>
    simp only [requirePositive]
    split <;> simp [refuse, different]

theorem resolveManual_ne_ambiguous {input : RateResolutionInput} {steps : List ResolutionStep}
    {matched ids : List JsString} {status : ℕ} :
    resolveManual input steps matched ≠
      .error (.rateResolutionError .ambiguousContract status ids) := by
  apply bind_ne_error lift_ne_refusal
  rintro ⟨candidateRate, candidateSteps⟩
  apply bind_ne_error lift_ne_refusal
  rintro ⟨companyRate, companySteps⟩
  apply bind_ne_error (requirePositive_ne_refusal (by decide))
  intro candidate
  apply bind_ne_error (requirePositive_ne_refusal (by decide))
  intro company
  apply bind_ne_error lift_ne_refusal
  intro order
  split_ifs
  · simp [refuse]
  · simp [pure, Except.pure]

inductive ResolutionSource
  | contract
  | manual
  deriving DecidableEq

def RateResolution.source : RateResolution → ResolutionSource
  | hourlyContract .. | totalContract .. => .contract
  | manual .. => .manual

def Carries (resolution : RateResolution) (contract : PayContract) : Prop :=
  match contract.terms, resolution with
  | .hourly candidateHourlyRate companyHourlyRate, .hourlyContract _ id candidate company =>
      id = contract.id ∧ candidate = candidateHourlyRate ∧ company = companyHourlyRate
  | .fixedPrice candidateTotal companyTotal _, .totalContract _ id .fixedPrice candidate company
      cost =>
      id = contract.id ∧ candidate = candidateTotal ∧ company = companyTotal ∧
        cost = contract.transferCost
  | .monthlySalary candidateTotal companyTotal _, .totalContract _ id .monthlySalary candidate
      company cost =>
      id = contract.id ∧ candidate = candidateTotal ∧ company = companyTotal ∧
        cost = contract.transferCost
  | _, _ => False

def RateResolutionThrown.withoutIds : RateResolutionThrown → RateResolutionThrown
  | rateResolutionError code status _ => rateResolutionError code status []
  | other error => other error

theorem carries_resolveContract (contract : PayContract) (base : ResolutionBase) :
    Carries (resolveContract contract base) contract := by
  cases terms : contract.terms <;> simp [Carries, resolveContract, terms]

theorem source_resolveContract (contract : PayContract) (base : ResolutionBase) :
    (resolveContract contract base).source = .contract := by
  cases terms : contract.terms <;> simp [RateResolution.source, resolveContract, terms]

section Cases

variable {localeCompare : Comparator JsString} {input : RateResolutionInput}
  {resolution : RateResolution}

theorem resolveEffectiveRate_cases (resolved :
      resolveEffectiveRate localeCompare input = .ok resolution) :
    (∃ contract base, selection input = [contract] ∧
        resolution = resolveContract contract base) ∨
      (inForce input = [] ∧
        ∃ base candidate company, resolution = .manual base candidate company ∧
          Payable candidate company) := by
  rcases Nat.lt_trichotomy (selection input).length 1 with none | single | several
  · rw [resolveEffectiveRate_of_empty (List.length_eq_zero_iff.mp (by omega))] at resolved
    split_ifs at resolved with invalid refused
    · simp [refuse] at resolved
    · simp [refuse] at resolved
    · simp only [not_or, not_not] at refused
      right
      exact ⟨refused.2.1, resolveManual_eq_ok resolved⟩
  · rcases List.length_eq_one_iff.mp single with ⟨contract, here⟩
    rw [resolveEffectiveRate_of_single here] at resolved
    split_ifs at resolved with invalid
    · simp [refuse] at resolved
    · left
      exact ⟨contract, _, here, (Except.ok.inj resolved).symm⟩
  · rw [resolveEffectiveRate_of_several several] at resolved
    split_ifs at resolved <;> simp [refuse] at resolved

end Cases

theorem not_applies_of_inForce_eq_nil {input : RateResolutionInput} (none : inForce input = [])
    {contract : PayContract} (held : contract ∈ input.contracts) : ¬Applies input contract := by
  intro applies
  have inForce : contract ∈ inForce input := List.mem_filter.mpr ⟨held, by simpa using applies⟩
  rw [none] at inForce
  contradiction

theorem resolveEffectiveRate_perm {localeCompare : Comparator JsString}
    {input : RateResolutionInput} {contracts : List PayContract}
    (permuted : input.contracts.Perm contracts) :
    (resolveEffectiveRate localeCompare { input with contracts }).mapError
        RateResolutionThrown.withoutIds =
      (resolveEffectiveRate localeCompare input).mapError RateResolutionThrown.withoutIds := by
  have samePermuted : (selection input).Perm (selection { input with contracts }) :=
    permuted.filter _
  have forcePermuted : (inForce input).Perm (inForce { input with contracts }) :=
    permuted.filter _
  have sameEmpty : inForce { input with contracts } = [] ↔ inForce input = [] := by
    constructor
    · intro none
      exact (none ▸ forcePermuted).eq_nil
    · intro none
      exact (none ▸ forcePermuted).nil_eq.symm
  have sameDates : validDates { input with contracts } = validDates input := rfl
  have sameSteps : matchSteps { input with contracts } = matchSteps input := by
    simp only [matchSteps, applicable, filterSteps]
    cases input.period <;> rfl
  rcases Nat.lt_trichotomy (selection input).length 1 with none | single | several
  · have here : selection input = [] := List.length_eq_zero_iff.mp (by omega)
    have there := (here ▸ samePermuted).nil_eq.symm
    rw [resolveEffectiveRate_of_empty here, resolveEffectiveRate_of_empty there]
    simp only [sameDates, sameSteps, ne_eq, sameEmpty]
    split_ifs <;> rfl
  · rcases List.length_eq_one_iff.mp single with ⟨contract, here⟩
    have there := (List.singleton_perm.mp (here ▸ samePermuted)).symm
    rw [resolveEffectiveRate_of_single here, resolveEffectiveRate_of_single there, sameDates,
      sameSteps]
  · have there : 2 ≤ (selection { input with contracts }).length := by
      rw [← samePermuted.length_eq]
      exact several
    rw [resolveEffectiveRate_of_several several, resolveEffectiveRate_of_several there, sameDates]
    split_ifs <;> rfl

/-- Whatever the input, rates from elsewhere are paid only when no contract applies, and then
they are positive and covered; a contract is paid only when it is the one that applies and
passes the filters; several are refused; and the order of the contracts does not matter. -/
theorem resolveEffectiveRate_selects (localeCompare : Comparator JsString)
    (input : RateResolutionInput) :
    (∀ base candidate company,
      resolveEffectiveRate localeCompare input = .ok (.manual base candidate company) →
      (∀ contract ∈ input.contracts, ¬Applies input contract) ∧ Payable candidate company) ∧
    (∀ resolution, resolveEffectiveRate localeCompare input = .ok resolution →
      resolution.source = .contract →
      ∃ before contract after, input.contracts = before ++ contract :: after ∧
        Selected input contract ∧ (∀ other ∈ before ++ after, ¬Selected input other) ∧
        Carries resolution contract) ∧
    (∀ one other, [one, other].Sublist input.contracts → Selected input one →
      Selected input other → ∃ code ∈ [.ambiguousContract, .invalidPeriod], ∃ status ids,
        resolveEffectiveRate localeCompare input =
          .error (.rateResolutionError code status ids)) ∧
    ∀ contracts, input.contracts.Perm contracts →
      (resolveEffectiveRate localeCompare { input with contracts }).mapError
          RateResolutionThrown.withoutIds =
        (resolveEffectiveRate localeCompare input).mapError RateResolutionThrown.withoutIds := by
  refine ⟨?_, ?_, ?_, ?_⟩
  · intro base candidate company resolved
    rcases resolveEffectiveRate_cases resolved with
      ⟨contract, contractBase, -, isContract⟩ | ⟨none, _, _, _, isManual, payable⟩
    · have source := source_resolveContract contract contractBase
      rw [← isContract] at source
      contradiction
    · cases isManual
      exact ⟨fun contract held => not_applies_of_inForce_eq_nil none held, payable⟩
  · intro resolution resolved source
    rcases resolveEffectiveRate_cases resolved with
      ⟨contract, base, single, isContract⟩ | ⟨-, _, _, _, isManual, -⟩
    · rcases List.filter_eq_cons_iff.mp single with
        ⟨before, after, split, noneBefore, selected, noneAfter⟩
      refine ⟨before, contract, after, split, by simpa using selected, ?_, ?_⟩
      · intro other otherMem
        rcases List.mem_append.mp otherMem with early | late
        · simpa using noneBefore other early
        · simpa using List.filter_eq_nil_iff.mp noneAfter other late
      · rw [isContract]
        exact carries_resolveContract contract base
    · rw [isManual] at source
      contradiction
  · intro one other both oneSelected otherSelected
    have chosen : [one, other].Sublist (selection input) := by
      have filtered := both.filter fun c => Selected input c
      rwa [List.filter_eq_self.mpr] at filtered
      intro c member
      rcases List.mem_pair.mp member with rfl | rfl
      · simpa using oneSelected
      · simpa using otherSelected
    rw [resolveEffectiveRate_of_several chosen.length_le]
    split_ifs
    · exact ⟨.invalidPeriod, by simp, 400, [], rfl⟩
    · exact ⟨.ambiguousContract, by simp, 409, _, rfl⟩
  · intro contracts permuted
    exact resolveEffectiveRate_perm permuted

end StudentHub.Pay
