import StudentHub.Ecma.KeyOrder
import StudentHub.Pay.Covered
import StudentHub.Pay.Plain
import StudentHub.SafeWrite.Contract

/-!
# Contracts through the safe write

A new contract, and the terms of one that stands, are one field each whose value is the JSON
text of the normalized payload. The text is read back and normalizes to what it was written
for, so equal texts are those of equal payloads and a check takes no other spelling of one.
-/

namespace StudentHub.Pay

open Ecma JsString Json SafeWrite

def PAY_CONTRACT_CREATE_FIELD : JsString := js "pay_contract"

def PAY_CONTRACT_CREATE_POLICY : FieldPolicy where
  allowed := [PAY_CONTRACT_CREATE_FIELD]
  maxValueLength := 1024
  allowClear := false

def PAY_CONTRACT_TERMS_FIELD : JsString := js "pay_contract_terms"

def PAY_CONTRACT_REMOVAL_FIELD : JsString := js "pay_contract_removal"

def PAY_CONTRACT_CHANGE_POLICY : FieldPolicy where
  allowed := [PAY_CONTRACT_TERMS_FIELD, PAY_CONTRACT_REMOVAL_FIELD]
  maxValueLength := 1024
  allowClear := false

abbrev Members := List (JsString × JsValue)

def textMember (name : String) (text : JsString) : JsString × JsValue := (js name, .string text)

def ContractTerms.members : ContractTerms → Members
  | hourly candidateHourlyRate companyHourlyRate =>
      [textMember "candidateHourlyRate" candidateHourlyRate,
        textMember "companyHourlyRate" companyHourlyRate, textMember "payModel" PayModel.hourly.text]
  | fixedPrice candidateTotal companyTotal completionPercentage =>
      [textMember "candidateTotal" candidateTotal, textMember "companyTotal" companyTotal,
        (js "completionPercentage", .number (.ofNat completionPercentage)),
        textMember "payModel" PayModel.fixedPrice.text]
  | monthlySalary candidateTotal companyTotal salaryDay =>
      [textMember "candidateTotal" candidateTotal, textMember "companyTotal" companyTotal,
        textMember "payModel" PayModel.monthlySalary.text,
        (js "salaryDay", .number (.ofNat salaryDay))]

def EditableStatus.text : EditableStatus → JsString
  | active => js "active"
  | inactive => js "inactive"

def endDateMembers : Option JsString → Members
  | none => []
  | some endDate => [textMember "endDate" endDate]

def NormalizedPayContractCreate.members (value : NormalizedPayContractCreate) : Members :=
  [(js "autoGenerate", .boolean value.autoGenerate), textMember "candidateId" value.candidateId,
    textMember "companyId" value.companyId, textMember "currencyId" value.currencyId] ++
  endDateMembers value.endDate ++
  [textMember "startDate" value.startDate, textMember "status" value.status.text,
    textMember "storeId" value.storeId, (js "terms", .object value.terms.members),
    textMember "transferCost" value.transferCost]

def NormalizedPayContractUpdate.members (value : NormalizedPayContractUpdate) : Members :=
  [(js "autoGenerate", .boolean value.autoGenerate), textMember "currencyId" value.currencyId] ++
  endDateMembers value.endDate ++
  [textMember "startDate" value.startDate, textMember "status" value.status.text,
    (js "terms", .object value.terms.members), textMember "transferCost" value.transferCost]

def payContractCreateValue (value : NormalizedPayContractCreate) : JsString :=
  (stringify (.object value.members)).getD []

def payContractTermsValue (value : NormalizedPayContractUpdate) : JsString :=
  (stringify (.object value.members)).getD []

def ContractStatus.text : ContractStatus → JsString
  | active => js "active"
  | inactive => js "inactive"
  | deleted => js "deleted"

def PayContract.editable (contract : PayContract) : JsValue :=
  .object ([(js "autoGenerate", .boolean contract.autoGenerate),
      textMember "currencyId" contract.currencyId] ++ endDateMembers contract.endDate ++
    [textMember "startDate" contract.startDate, textMember "status" contract.status.text,
      (js "terms", .object contract.terms.members), textMember "transferCost" contract.transferCost])

def payContractEditableValue (contract : PayContract) : Except Thrown JsString := do
  let normalized ← normalizePayContractUpdate contract.editable
  return payContractTermsValue normalized

/-- What a check can fail with: the error of `JSON.parse` or another one. -/
inductive CheckError
  | syntaxError
  | thrown (error : Thrown)

def CheckError.isRefusal : CheckError → Bool
  | syntaxError => true
  | thrown (.payContract _ status) => status = 400
  | thrown _ => false

structure CheckPorts where
  resolve : JsString → Except CheckError (Option CatalogueStatus)
  isCandidate : JsString → Except CheckError Bool
  get : JsString → Except CheckError (Option PayContract)
  listForCandidate : JsString → Except CheckError (List PayContract)

section

variable (reader : JsonReader)

def parseAs {Fields : Type} (normalize : JsValue → Except Thrown Fields) (value : JsString) :
    Except CheckError Fields :=
  match parse reader.round value with
  | none => .error .syntaxError
  | some read => (normalize read).mapError .thrown

/-- Only reading the value is inside the `try`. -/
def payContractCreateCheck (ports : CheckPorts) (companyId value : JsString) :
    Except CheckError Bool :=
  match parseAs reader normalizePayContractCreate value with
  | .error error => if error.isRefusal then .ok false else .error error
  | .ok normalized =>
      if payContractCreateValue normalized ≠ value ∨ normalized.companyId ≠ companyId then
        .ok false
      else do
        let currency ← ports.resolve normalized.currencyId
        if currency ≠ some .active then
          return false
        let isCandidate ← ports.isCandidate normalized.candidateId
        if !isCandidate then
          return false
        let contracts ← ports.listForCandidate normalized.candidateId
        return !contracts.any fun contract => contract.storeId = normalized.storeId &&
          contract.status ≠ .deleted && overlaps contract.dates normalized.dates

/-- The body of the `try` of the check of new terms. -/
def termsCheck (ports : CheckPorts) (contractId value before : JsString) :
    Except CheckError Bool := do
  let normalized ← parseAs reader normalizePayContractUpdate value
  if payContractTermsValue normalized ≠ value then
    return false
  let old ← parseAs reader normalizePayContractUpdate before
  let currency ← if normalized.currencyId ≠ old.currencyId then ports.resolve normalized.currencyId
    else pure (some .active)
  if currency ≠ some .active then
    return false
  let found ← ports.get contractId
  match found with
  | none => return false
  | some contract =>
      if contract.status = .deleted then
        return false
      let contracts ← ports.listForCandidate contract.candidateId
      return !contracts.any fun c => c.storeId = contract.storeId && c.status ≠ .deleted &&
        c.id ≠ contract.id && overlaps c.dates normalized.dates

def payContractChangeCheck (ports : CheckPorts) (contractId field value : JsString)
    (before : Option JsString) : Except CheckError Bool :=
  if field = PAY_CONTRACT_REMOVAL_FIELD then
    .ok (value = js "removed" && before.isSome)
  else
    match before with
    | none => .ok false
    | some before =>
        if field ≠ PAY_CONTRACT_TERMS_FIELD then .ok false
        else
          match termsCheck reader ports contractId value before with
          | .ok accepted => .ok accepted
          | .error error => if error.isRefusal then .ok false else .error error

end

theorem money_again {value : JsValue} {code text : JsString} {positive : Bool}
    (accepted : money value code positive = .ok text) :
    CanonicalAmount text ∧ ∀ code', money (.string text) code' positive = .ok text := by
  simp only [money] at accepted
  split at accepted
  · contradiction
  · rename_i canonical read
    rcases bind_eq_ok_iff.mp accepted with ⟨isPositive, compared, accepted⟩
    split_ifs at accepted with refused
    · contradiction
    · rw [Except.ok.injEq] at accepted
      subst accepted
      have amount := canonicalAmount_of_canonicalDecimal read
      refine ⟨amount, ?_⟩
      intro code'
      simp only [money, amount.canonical, compared]
      exact if_neg refused

theorem wholeNumber_again {value : JsValue} {code : JsString} {min max number : ℕ}
    (safe : max ≤ MAX_SAFE_INTEGER) (accepted : wholeNumber value min max code = .ok number) :
    number ≤ max ∧ ∀ code', wholeNumber (.number (.ofNat number)) min max code' = .ok number := by
  simp only [wholeNumber] at accepted
  split at accepted
  · contradiction
  · rename_i whole _
    split_ifs at accepted with outside
    · contradiction
    · rw [Except.ok.injEq] at accepted
      simp only [not_or, not_lt] at outside
      have bound : number ≤ max := by omega
      refine ⟨bound, ?_⟩
      intro code'
      have read : (JsValue.number (.ofNat number)).safeInteger? = some (number : ℤ) :=
        safeInteger?_ofNat (bound.trans safe)
      rcases exists_finite_ofNat number with ⟨finite, isFinite, -⟩
      rw [isFinite] at read
      have integer : finite.integer? = some (number : ℤ) := (Option.filter_eq_some_iff.mp read).1
      have inside : ¬((number : ℤ) < min ∨ (max : ℤ) < number) := by omega
      simp only [wholeNumber, isFinite, integer]
      rw [if_neg inside, Int.toNat_natCast]

def ContractTerms.Small : ContractTerms → Prop
  | hourly .. => True
  | fixedPrice _ _ completionPercentage => completionPercentage ≤ 100
  | monthlySalary _ _ salaryDay => salaryDay ≤ 100

structure ContractTerms.Normal (terms : ContractTerms) : Prop where
  candidate : CanonicalAmount terms.candidateSide
  company : CanonicalAmount terms.companySide
  small : terms.Small
  again : normalizeTerms (.object terms.members) = .ok terms

theorem closedObject_of_all {properties : Members} {allowed : List JsString}
    (known : (properties.map Prod.fst).all (fun name => decide (name ∈ allowed)) = true) :
    closedObject (.object properties) allowed = .ok (.object properties) := by
  have none : (properties.any fun property => property.1 ∉ allowed) = false := by
    rw [List.any_eq_false]
    intro property propertyMem
    have inAllowed := List.all_eq_true.mp known property.1 (List.mem_map_of_mem propertyMem)
    simpa using inAllowed
  simp only [closedObject, none]
  rfl

theorem normal_of_normalizeTerms {value : JsValue} {terms : ContractTerms}
    (accepted : normalizeTerms value = .ok terms) : terms.Normal := by
  have safe : 100 ≤ MAX_SAFE_INTEGER := by decide
  simp only [normalizeTerms] at accepted
  split at accepted
  · split_ifs at accepted with isHourly isFixed isMonthly
    · rcases bind_eq_ok_iff.mp accepted with ⟨raw, -, accepted⟩
      rcases bind_eq_ok_iff.mp accepted with ⟨candidate, candidateAccepted, accepted⟩
      rcases bind_eq_ok_iff.mp accepted with ⟨company, companyAccepted, accepted⟩
      rcases bind_eq_ok_iff.mp accepted with ⟨_, covers, accepted⟩
      rw [← Except.ok.inj accepted]
      rcases money_again candidateAccepted with ⟨candidateAmount, candidateAgain⟩
      rcases money_again companyAccepted with ⟨companyAmount, companyAgain⟩
      refine ⟨candidateAmount, companyAmount, trivial, ?_⟩
      have kind : (JsValue.object (ContractTerms.hourly candidate company).members).get
          (js "payModel") = .string (js "hourly") := rfl
      simp only [normalizeTerms, kind, if_true, bind_eq_ok_iff]
      exact ⟨_, closedObject_of_all rfl, candidate, candidateAgain _, company, companyAgain _, (),
        covers, rfl⟩
    · rcases bind_eq_ok_iff.mp accepted with ⟨raw, -, accepted⟩
      rcases bind_eq_ok_iff.mp accepted with ⟨candidate, candidateAccepted, accepted⟩
      rcases bind_eq_ok_iff.mp accepted with ⟨company, companyAccepted, accepted⟩
      rcases bind_eq_ok_iff.mp accepted with ⟨_, covers, accepted⟩
      rcases bind_eq_ok_iff.mp accepted with ⟨percentage, percentageAccepted, accepted⟩
      rw [← Except.ok.inj accepted]
      rcases money_again candidateAccepted with ⟨candidateAmount, candidateAgain⟩
      rcases money_again companyAccepted with ⟨companyAmount, companyAgain⟩
      rcases wholeNumber_again safe percentageAccepted with ⟨small, percentageAgain⟩
      refine ⟨candidateAmount, companyAmount, small, ?_⟩
      have kind : (JsValue.object (ContractTerms.fixedPrice candidate company percentage).members).get
          (js "payModel") = .string (js "fixed_price") := rfl
      have notHourly : js "fixed_price" ≠ js "hourly" := by decide
      simp only [normalizeTerms, kind, if_true, if_neg notHourly, bind_eq_ok_iff]
      exact ⟨_, closedObject_of_all rfl, candidate, candidateAgain _, company, companyAgain _, (),
        covers, percentage, percentageAgain _, rfl⟩
    · rcases bind_eq_ok_iff.mp accepted with ⟨raw, -, accepted⟩
      rcases bind_eq_ok_iff.mp accepted with ⟨candidate, candidateAccepted, accepted⟩
      rcases bind_eq_ok_iff.mp accepted with ⟨company, companyAccepted, accepted⟩
      rcases bind_eq_ok_iff.mp accepted with ⟨_, covers, accepted⟩
      rcases bind_eq_ok_iff.mp accepted with ⟨salaryDay, dayAccepted, accepted⟩
      rw [← Except.ok.inj accepted]
      rcases money_again candidateAccepted with ⟨candidateAmount, candidateAgain⟩
      rcases money_again companyAccepted with ⟨companyAmount, companyAgain⟩
      rcases wholeNumber_again (by decide) dayAccepted with ⟨inMonth, dayAgain⟩
      refine ⟨candidateAmount, companyAmount, inMonth.trans (by decide), ?_⟩
      have kind : (JsValue.object (ContractTerms.monthlySalary candidate company salaryDay).members).get
          (js "payModel") = .string (js "monthly_salary") := rfl
      have notHourly : js "monthly_salary" ≠ js "hourly" := by decide
      have notFixed : js "monthly_salary" ≠ js "fixed_price" := by decide
      simp only [normalizeTerms, kind, if_true, if_neg notHourly, if_neg notFixed, bind_eq_ok_iff]
      exact ⟨_, closedObject_of_all rfl, candidate, candidateAgain _, company, companyAgain _, (),
        covers, salaryDay, dayAgain _, rfl⟩
    · contradiction
  · contradiction

structure NormalizedPayContractUpdate.Normal (value : NormalizedPayContractUpdate) : Prop where
  start : isDate value.startDate = true
  ending : ∀ final ∈ value.endDate, isDate final = true ∧ ¬final < value.startDate
  currency : isUuid value.currencyId = true
  lower : value.currencyId.toLowerCase = value.currencyId
  cost : CanonicalAmount value.transferCost
  costAgain : ∀ code, money (.string value.transferCost) code false = .ok value.transferCost
  terms : value.terms.Normal
  generated : normalizeAutoGenerate (.boolean value.autoGenerate) value.terms =
    .ok value.autoGenerate

theorem normalizeAutoGenerate_again {value : JsValue} {terms : ContractTerms} {autoGenerate : Bool}
    (accepted : normalizeAutoGenerate value terms = .ok autoGenerate) :
    normalizeAutoGenerate (.boolean autoGenerate) terms = .ok autoGenerate := by
  simp only [normalizeAutoGenerate] at accepted ⊢
  split at accepted
  · rw [← Except.ok.inj accepted]
    rfl
  · split_ifs at accepted with refused
    · contradiction
    · rw [← Except.ok.inj accepted]
      exact if_neg refused
  · contradiction

theorem normal_of_normalizeEditable {raw : JsValue} {value : NormalizedPayContractUpdate}
    (accepted : normalizeEditable raw = .ok value) : value.Normal := by
  simp only [normalizeEditable, bind_eq_ok_iff] at accepted
  rcases accepted with ⟨startDate, startAccepted, endDate, endAccepted, currencyId,
    currencyAccepted, transferCost, costAccepted, terms, termsAccepted, autoGenerate,
    generateAccepted, status, -, built⟩
  rw [← Except.ok.inj built]
  have currency : isUuid currencyId = true ∧ currencyId.toLowerCase = currencyId := by
    simp only [normalizeCurrencyId] at currencyAccepted
    split at currencyAccepted
    · rename_i text
      split_ifs at currencyAccepted with uuid
      · rw [← Except.ok.inj currencyAccepted, isUuid_toLowerCase, toLowerCase_toLowerCase]
        exact ⟨uuid, rfl⟩
      · contradiction
    · contradiction
  rcases money_again costAccepted with ⟨cost, costAgain⟩
  exact {
    start := date_eq_ok startAccepted
    ending := normalizeEndDate_eq_ok endAccepted
    currency := currency.1
    lower := currency.2
    cost := cost
    costAgain := costAgain
    terms := normal_of_normalizeTerms termsAccepted
    generated := normalizeAutoGenerate_again generateAccepted }

theorem normal_of_normalizePayContractUpdate {input : JsValue} {value : NormalizedPayContractUpdate}
    (accepted : normalizePayContractUpdate input = .ok value) : value.Normal := by
  rcases bind_eq_ok_iff.mp accepted with ⟨raw, -, editable⟩
  exact normal_of_normalizeEditable editable

structure Reads (raw : JsValue) (value : NormalizedPayContractUpdate) : Prop where
  startDate : raw.get (js "startDate") = .string value.startDate
  endDate : raw.get (js "endDate") = value.endDate.elim .undefined .string
  currencyId : raw.get (js "currencyId") = .string value.currencyId
  transferCost : raw.get (js "transferCost") = .string value.transferCost
  terms : raw.get (js "terms") = .object value.terms.members
  autoGenerate : raw.get (js "autoGenerate") = .boolean value.autoGenerate
  status : raw.get (js "status") = .string value.status.text

theorem NormalizedPayContractUpdate.Normal.normalizeEditable_of_reads
    {value : NormalizedPayContractUpdate} (normal : value.Normal) {raw : JsValue}
    (reads : Reads raw value) : normalizeEditable raw = .ok value := by
  have start : ∀ code, date (.string value.startDate) code = .ok value.startDate := by
    intro code
    simp only [date, normal.start, if_true]
  have ending : normalizeEndDate (value.endDate.elim .undefined .string) value.startDate =
      .ok value.endDate := by
    cases final : value.endDate with
    | none => rfl
    | some endDate =>
        rcases normal.ending endDate final with ⟨dated, notBefore⟩
        have nonempty : endDate ≠ [] := by
          rintro rfl
          exact absurd dated (by decide)
        rcases List.exists_cons_of_ne_nil nonempty with ⟨first, rest, written⟩
        rw [written] at dated notBefore ⊢
        simp only [Option.elim_some, normalizeEndDate, date, dated, if_true, bind_eq_ok_iff]
        exact ⟨_, rfl, if_neg notBefore⟩
  have currency : normalizeCurrencyId (.string value.currencyId) = .ok value.currencyId := by
    simp only [normalizeCurrencyId, normal.currency, if_true, normal.lower]
  have status : normalizeStatus (.string value.status.text) = .ok value.status := by
    cases value.status with
    | active => rfl
    | inactive => rfl
  simp only [normalizeEditable, reads.startDate, reads.endDate, reads.currencyId,
    reads.transferCost, reads.terms, reads.autoGenerate, reads.status, bind_eq_ok_iff]
  exact ⟨_, start _, _, ending, _, currency, _, normal.costAgain _, _, normal.terms.again, _,
    normal.generated, _, status, rfl⟩

theorem NormalizedPayContractUpdate.Normal.normalizePayContractUpdate_members
    {value : NormalizedPayContractUpdate} (normal : value.Normal) :
    normalizePayContractUpdate (.object value.members) = .ok value := by
  have closed : closedObject (.object value.members) UPDATABLE = .ok (.object value.members) := by
    apply closedObject_of_all
    cases final : value.endDate with
    | none =>
        simp only [NormalizedPayContractUpdate.members, final]
        rfl
    | some endDate =>
        simp only [NormalizedPayContractUpdate.members, final]
        rfl
  have reads : Reads (.object value.members) value := by
    cases final : value.endDate with
    | none =>
        simp only [NormalizedPayContractUpdate.members, final]
        exact ⟨rfl, by rw [final]; rfl, rfl, rfl, rfl, rfl, rfl⟩
    | some endDate =>
        simp only [NormalizedPayContractUpdate.members, final]
        exact ⟨rfl, by rw [final]; rfl, rfl, rfl, rfl, rfl, rfl⟩
  rw [normalizePayContractUpdate, closed]
  exact normal.normalizeEditable_of_reads reads

structure NormalizedPayContractCreate.Normal (value : NormalizedPayContractCreate) : Prop where
  fields : value.toNormalizedPayContractUpdate.Normal
  candidate : isPartyId value.candidateId = true
  company : isPartyId value.companyId = true
  store : isPartyId value.storeId = true

theorem partyId_eq_ok {value : JsValue} {code text : JsString}
    (accepted : partyId value code = .ok text) : isPartyId text = true := by
  simp only [partyId] at accepted
  split at accepted
  · split_ifs at accepted with party
    · rwa [← Except.ok.inj accepted]
    · contradiction
  · contradiction

theorem normal_of_normalizePayContractCreate {input : JsValue} {value : NormalizedPayContractCreate}
    (accepted : normalizePayContractCreate input = .ok value) : value.Normal := by
  simp only [normalizePayContractCreate, bind_eq_ok_iff] at accepted
  rcases accepted with ⟨raw, -, candidateId, candidateAccepted, companyId, companyAccepted, storeId,
    storeAccepted, editable, edited, built⟩
  rw [← Except.ok.inj built]
  exact {
    fields := normal_of_normalizeEditable edited
    candidate := partyId_eq_ok candidateAccepted
    company := partyId_eq_ok companyAccepted
    store := partyId_eq_ok storeAccepted }

theorem NormalizedPayContractCreate.Normal.normalizePayContractCreate_members
    {value : NormalizedPayContractCreate} (normal : value.Normal) :
    normalizePayContractCreate (.object value.members) = .ok value := by
  have closed : closedObject (.object value.members) FIELDS = .ok (.object value.members) := by
    apply closedObject_of_all
    cases final : value.endDate with
    | none =>
        simp only [NormalizedPayContractCreate.members, final]
        rfl
    | some endDate =>
        simp only [NormalizedPayContractCreate.members, final]
        rfl
  have reads : Reads (.object value.members) value.toNormalizedPayContractUpdate := by
    cases final : value.endDate with
    | none =>
        simp only [NormalizedPayContractCreate.members, final]
        exact ⟨rfl, by rw [final]; rfl, rfl, rfl, rfl, rfl, rfl⟩
    | some endDate =>
        simp only [NormalizedPayContractCreate.members, final]
        exact ⟨rfl, by rw [final]; rfl, rfl, rfl, rfl, rfl, rfl⟩
  have party : ∀ {text : JsString} (code : JsString), isPartyId text = true →
      partyId (.string text) code = .ok text := by
    intro text code isParty
    simp only [partyId, isParty, if_true]
  have candidate : (JsValue.object value.members).get (js "candidateId") =
      .string value.candidateId := rfl
  have company : (JsValue.object value.members).get (js "companyId") = .string value.companyId := rfl
  have store : (JsValue.object value.members).get (js "storeId") = .string value.storeId := by
    cases final : value.endDate with
    | none =>
        simp only [NormalizedPayContractCreate.members, final]
        rfl
    | some endDate =>
        simp only [NormalizedPayContractCreate.members, final]
        rfl
  simp only [normalizePayContractCreate, bind_eq_ok_iff]
  refine ⟨_, closed, value.candidateId, ?_, value.companyId, ?_, value.storeId, ?_, _,
    normal.fields.normalizeEditable_of_reads reads, rfl⟩
  · rw [candidate, party _ normal.candidate]
  · rw [company, party _ normal.company]
  · rw [store, party _ normal.store]

section Read

variable (reader : JsonReader)

theorem kept_terms {terms : ContractTerms} (small : terms.Small) :
    Kept reader.round (.object terms.members) := by
  have safe : ∀ {number : ℕ}, number ≤ 100 → number ≤ MAX_SAFE_INTEGER :=
    fun bound => bound.trans (by decide)
  cases terms with
  | hourly candidateHourlyRate companyHourlyRate =>
      apply Kept.object
      · show [js "candidateHourlyRate", js "companyHourlyRate", js "payModel"].Nodup
        decide
      · show ∀ name ∈ [js "candidateHourlyRate", js "companyHourlyRate", js "payModel"],
          ¬IsArrayIndex name
        decide
      · simp only [ContractTerms.members, List.forall_mem_cons, List.not_mem_nil,
          IsEmpty.forall_iff, implies_true, and_true]
        exact ⟨Kept.string _, Kept.string _, Kept.string _⟩
  | fixedPrice candidateTotal companyTotal completionPercentage =>
      apply Kept.object
      · show [js "candidateTotal", js "companyTotal", js "completionPercentage",
          js "payModel"].Nodup
        decide
      · show ∀ name ∈ [js "candidateTotal", js "companyTotal", js "completionPercentage",
          js "payModel"], ¬IsArrayIndex name
        decide
      · simp only [ContractTerms.members, List.forall_mem_cons, List.not_mem_nil,
          IsEmpty.forall_iff, implies_true, and_true]
        exact ⟨Kept.string _, Kept.string _, reader.kept_ofNat (safe small), Kept.string _⟩
  | monthlySalary candidateTotal companyTotal salaryDay =>
      apply Kept.object
      · show [js "candidateTotal", js "companyTotal", js "payModel", js "salaryDay"].Nodup
        decide
      · show ∀ name ∈ [js "candidateTotal", js "companyTotal", js "payModel", js "salaryDay"],
          ¬IsArrayIndex name
        decide
      · simp only [ContractTerms.members, List.forall_mem_cons, List.not_mem_nil,
          IsEmpty.forall_iff, implies_true, and_true]
        exact ⟨Kept.string _, Kept.string _, Kept.string _, reader.kept_ofNat (safe small)⟩

theorem kept_endDateMembers (endDate : Option JsString) :
    ∀ property ∈ endDateMembers endDate, Kept reader.round property.2 := by
  cases endDate with
  | none => simp [endDateMembers]
  | some final =>
      simp only [endDateMembers, List.forall_mem_singleton]
      exact Kept.string final

theorem kept_update {value : NormalizedPayContractUpdate} (normal : value.Normal) :
    Kept reader.round (.object value.members) := by
  have names : (value.members.map Prod.fst).Nodup ∧
      ∀ name ∈ value.members.map Prod.fst, ¬IsArrayIndex name := by
    cases final : value.endDate with
    | none =>
        have written : value.members.map Prod.fst = [js "autoGenerate", js "currencyId",
            js "startDate", js "status", js "terms", js "transferCost"] := by
          simp only [NormalizedPayContractUpdate.members, final]
          rfl
        rw [written]
        decide
    | some endDate =>
        have written : value.members.map Prod.fst = [js "autoGenerate", js "currencyId",
            js "endDate", js "startDate", js "status", js "terms", js "transferCost"] := by
          simp only [NormalizedPayContractUpdate.members, final]
          rfl
        rw [written]
        decide
  refine Kept.object names.1 names.2 ?_
  simp only [NormalizedPayContractUpdate.members, List.forall_mem_append, List.forall_mem_cons,
    List.not_mem_nil, IsEmpty.forall_iff, implies_true, and_true]
  exact ⟨⟨⟨Kept.boolean _, Kept.string _⟩, kept_endDateMembers reader _⟩, Kept.string _,
    Kept.string _, kept_terms reader normal.terms.small, Kept.string _⟩

theorem kept_create {value : NormalizedPayContractCreate} (normal : value.Normal) :
    Kept reader.round (.object value.members) := by
  have names : (value.members.map Prod.fst).Nodup ∧
      ∀ name ∈ value.members.map Prod.fst, ¬IsArrayIndex name := by
    cases final : value.endDate with
    | none =>
        have written : value.members.map Prod.fst = [js "autoGenerate", js "candidateId",
            js "companyId", js "currencyId", js "startDate", js "status", js "storeId", js "terms",
            js "transferCost"] := by
          simp only [NormalizedPayContractCreate.members, final]
          rfl
        rw [written]
        decide
    | some endDate =>
        have written : value.members.map Prod.fst = [js "autoGenerate", js "candidateId",
            js "companyId", js "currencyId", js "endDate", js "startDate", js "status",
            js "storeId", js "terms", js "transferCost"] := by
          simp only [NormalizedPayContractCreate.members, final]
          rfl
        rw [written]
        decide
  refine Kept.object names.1 names.2 ?_
  simp only [NormalizedPayContractCreate.members, List.forall_mem_append, List.forall_mem_cons,
    List.not_mem_nil, IsEmpty.forall_iff, implies_true, and_true]
  exact ⟨⟨⟨Kept.boolean _, Kept.string _, Kept.string _, Kept.string _⟩,
    kept_endDateMembers reader _⟩, Kept.string _, Kept.string _, Kept.string _,
    kept_terms reader normal.fields.terms.small, Kept.string _⟩

theorem parseAs_update {value : NormalizedPayContractUpdate} (normal : value.Normal) :
    parseAs reader normalizePayContractUpdate (payContractTermsValue value) = .ok value := by
  rw [parseAs, payContractTermsValue, (kept_update reader normal).parse]
  simp only [normal.normalizePayContractUpdate_members]
  rfl

theorem parseAs_create {value : NormalizedPayContractCreate} (normal : value.Normal) :
    parseAs reader normalizePayContractCreate (payContractCreateValue value) = .ok value := by
  rw [parseAs, payContractCreateValue, (kept_create reader normal).parse]
  simp only [normal.normalizePayContractCreate_members]
  rfl

end Read

theorem memberLength_textMember (name : String) {text : JsString} (plain : Plain text) :
    memberLength (textMember name text) = (quote (js name)).length + text.length + 4 := by
  simp only [memberLength, textMember, stringify, Option.getD_some, length_quote_of_isPlain plain]
  omega

theorem memberLength_autoGenerate (autoGenerate : Bool) :
    memberLength (js "autoGenerate", .boolean autoGenerate) ≤ 21 := by
  cases autoGenerate with
  | false => decide
  | true => decide

theorem plain_status (status : EditableStatus) : Plain status.text ∧ status.text.length ≤ 8 := by
  cases status with
  | active => exact ⟨List.all_eq_true.mp (by decide), by decide⟩
  | inactive => exact ⟨List.all_eq_true.mp (by decide), by decide⟩

theorem length_number_le {number : ℕ} (small : number ≤ 100) :
    ((stringify (.number (.ofNat number))).getD []).length ≤ 3 := by
  have listed : ((List.range 101).all fun number =>
      ((stringify (.number (.ofNat number))).getD []).length ≤ 3) = true := by decide +kernel
  have known := List.all_eq_true.mp listed number (List.mem_range.mpr (by omega))
  exact of_decide_eq_true known

theorem memberLength_amount (name : String) {text : JsString} (amount : CanonicalAmount text) :
    memberLength (textMember name text) ≤ (quote (js name)).length + 17 := by
  have short := amount.short
  rw [memberLength_textMember name amount.plain]
  omega

theorem memberLength_number (name : String) {number : ℕ} (small : number ≤ 100) :
    memberLength (js name, .number (.ofNat number)) ≤ (quote (js name)).length + 5 := by
  have short := length_number_le small
  simp only [memberLength]
  omega

theorem ContractTerms.Normal.length_le {terms : ContractTerms} (normal : terms.Normal) :
    ((stringify (.object terms.members)).getD []).length ≤ 140 := by
  have total : (quote (js "candidateTotal")).length = 16 ∧ (quote (js "companyTotal")).length = 14 ∧
      (quote (js "completionPercentage")).length = 22 ∧ (quote (js "salaryDay")).length = 11 := by
    decide
  apply (length_stringify_object_le _).trans
  cases terms with
  | hourly candidateHourlyRate companyHourlyRate =>
      have candidate := memberLength_amount "candidateHourlyRate" normal.candidate
      have company := memberLength_amount "companyHourlyRate" normal.company
      have model : memberLength (textMember "payModel" PayModel.hourly.text) = 20 := by decide
      have rates : (quote (js "candidateHourlyRate")).length = 21 ∧
          (quote (js "companyHourlyRate")).length = 19 := by decide
      simp only [ContractTerms.candidateSide, ContractTerms.companySide] at candidate company
      simp only [ContractTerms.members, List.map_cons, List.map_nil, List.sum_cons, List.sum_nil]
      omega
  | fixedPrice candidateTotal companyTotal completionPercentage =>
      have candidate := memberLength_amount "candidateTotal" normal.candidate
      have company := memberLength_amount "companyTotal" normal.company
      have model : memberLength (textMember "payModel" PayModel.fixedPrice.text) = 25 := by decide
      have number := memberLength_number "completionPercentage" normal.small
      simp only [ContractTerms.candidateSide, ContractTerms.companySide] at candidate company
      simp only [ContractTerms.members, List.map_cons, List.map_nil, List.sum_cons, List.sum_nil]
      omega
  | monthlySalary candidateTotal companyTotal salaryDay =>
      have candidate := memberLength_amount "candidateTotal" normal.candidate
      have company := memberLength_amount "companyTotal" normal.company
      have model : memberLength (textMember "payModel" PayModel.monthlySalary.text) = 28 := by
        decide
      have number := memberLength_number "salaryDay" normal.small
      simp only [ContractTerms.candidateSide, ContractTerms.companySide] at candidate company
      simp only [ContractTerms.members, List.map_cons, List.map_nil, List.sum_cons, List.sum_nil]
      omega

theorem memberLength_party (name : String) {text : JsString} (party : isPartyId text = true) :
    memberLength (textMember name text) ≤ (quote (js name)).length + 132 := by
  rcases plain_of_isPartyId party with ⟨plain, short⟩
  rw [memberLength_textMember name plain]
  omega

structure FieldLengths (value : NormalizedPayContractUpdate) : Prop where
  currencyId : memberLength (textMember "currencyId" value.currencyId) ≤ 52
  startDate : memberLength (textMember "startDate" value.startDate) ≤ 25
  endDate : ((endDateMembers value.endDate).map memberLength).sum ≤ 23
  status : memberLength (textMember "status" value.status.text) ≤ 20
  terms : memberLength (js "terms", .object value.terms.members) ≤ 149
  transferCost : memberLength (textMember "transferCost" value.transferCost) ≤ 31

theorem NormalizedPayContractUpdate.Normal.fieldLengths {value : NormalizedPayContractUpdate}
    (normal : value.Normal) : FieldLengths value where
  currencyId := by
    rw [memberLength_textMember _ (plain_of_isUuid normal.currency), length_of_isUuid normal.currency]
    decide
  startDate := by
    rcases plain_of_isDate normal.start with ⟨plain, width⟩
    rw [memberLength_textMember _ plain, width]
    decide
  endDate := by
    cases final : value.endDate with
    | none => simp [endDateMembers]
    | some endDate =>
        rcases plain_of_isDate (normal.ending endDate final).1 with ⟨plain, width⟩
        simp only [endDateMembers, List.map_cons, List.map_nil, List.sum_cons, List.sum_nil]
        rw [memberLength_textMember _ plain, width]
        decide
  status := by
    rcases plain_status value.status with ⟨plain, short⟩
    have name : (quote (js "status")).length = 8 := by decide
    rw [memberLength_textMember _ plain]
    omega
  terms := by
    have short := normal.terms.length_le
    have name : (quote (js "terms")).length = 7 := by decide
    simp only [memberLength]
    omega
  transferCost := by
    have name : (quote (js "transferCost")).length = 14 := by decide
    have short := memberLength_amount "transferCost" normal.cost
    omega

theorem length_payContractTermsValue_le {value : NormalizedPayContractUpdate}
    (normal : value.Normal) : (payContractTermsValue value).length ≤ 1024 := by
  have lengths := normal.fieldLengths
  have generated := memberLength_autoGenerate value.autoGenerate
  rcases lengths with ⟨currencyId, startDate, endDate, status, terms, transferCost⟩
  apply (length_stringify_object_le _).trans
  simp only [NormalizedPayContractUpdate.members, List.map_append, List.map_cons, List.map_nil,
    List.sum_append, List.sum_cons, List.sum_nil]
  omega

theorem length_payContractCreateValue_le {value : NormalizedPayContractCreate}
    (normal : value.Normal) : (payContractCreateValue value).length ≤ 1024 := by
  have lengths := normal.fields.fieldLengths
  have generated := memberLength_autoGenerate value.autoGenerate
  have candidate := memberLength_party "candidateId" normal.candidate
  have company := memberLength_party "companyId" normal.company
  have store := memberLength_party "storeId" normal.store
  have names : (quote (js "candidateId")).length = 13 ∧ (quote (js "companyId")).length = 11 ∧
      (quote (js "storeId")).length = 9 := by decide
  rcases lengths with ⟨currencyId, startDate, endDate, status, terms, transferCost⟩
  apply (length_stringify_object_le _).trans
  simp only [NormalizedPayContractCreate.members, List.map_append, List.map_cons, List.map_nil,
    List.sum_append, List.sum_cons, List.sum_nil]
  omega

theorem validateChange_object {properties : Members} {field personRef : JsString}
    {policy : FieldPolicy} (allowed : field ∈ policy.allowed)
    (short : ((stringify (.object properties)).getD []).length ≤ policy.maxValueLength)
    (reference : isReference personRef = true) :
    validateChange ⟨personRef, field, .string ((stringify (.object properties)).getD [])⟩ policy =
      none := by
  have nonempty : ((stringify (.object properties)).getD []).length ≠ 0 := by simp [stringify]
  have counted := codePointCount_le_length ((stringify (.object properties)).getD [])
  have fits : ¬policy.maxValueLength < ((stringify (.object properties)).getD []).codePointCount := by
    omega
  simp only [validateChange, reference, allowed, trim_stringify_object, nonempty, fits]
  simp

/-- What `write` makes of the payloads that a normalization accepts: each text is read back and
may be written to its field, and no two payloads share one. -/
structure CanonicalTexts {Fields : Type} (reader : JsonReader)
    (normalize : JsValue → Except Thrown Fields) (write : Fields → JsString) (field : JsString)
    (policy : FieldPolicy) : Prop where
  read : ∀ input fields, normalize input = .ok fields →
    parseAs reader normalize (write fields) = .ok fields
  injective : ∀ input fields input' fields', normalize input = .ok fields →
    normalize input' = .ok fields' → write fields = write fields' → fields = fields'
  valid : ∀ input fields personRef, normalize input = .ok fields → isReference personRef = true →
    validateChange ⟨personRef, field, .string (write fields)⟩ policy = none

section Texts

variable (reader : JsonReader)

theorem canonicalTexts_of_read {Fields : Type} {normalize : JsValue → Except Thrown Fields}
    {write : Fields → JsString} {field : JsString} {policy : FieldPolicy}
    (read : ∀ input fields, normalize input = .ok fields →
      parseAs reader normalize (write fields) = .ok fields)
    (valid : ∀ input fields personRef, normalize input = .ok fields →
      isReference personRef = true →
        validateChange ⟨personRef, field, .string (write fields)⟩ policy = none) :
    CanonicalTexts reader normalize write field policy where
  read := read
  injective := by
    intro input fields input' fields' accepted accepted' same
    have left := read input fields accepted
    rw [same, read input' fields' accepted', Except.ok.injEq] at left
    exact left.symm
  valid := valid

theorem canonicalTexts_create : CanonicalTexts reader normalizePayContractCreate
    payContractCreateValue PAY_CONTRACT_CREATE_FIELD PAY_CONTRACT_CREATE_POLICY := by
  apply canonicalTexts_of_read
  · intro input fields accepted
    exact parseAs_create reader (normal_of_normalizePayContractCreate accepted)
  · intro input fields personRef accepted reference
    exact validateChange_object (List.mem_singleton_self _)
      (length_payContractCreateValue_le (normal_of_normalizePayContractCreate accepted)) reference

theorem canonicalTexts_update : CanonicalTexts reader normalizePayContractUpdate
    payContractTermsValue PAY_CONTRACT_TERMS_FIELD PAY_CONTRACT_CHANGE_POLICY := by
  apply canonicalTexts_of_read
  · intro input fields accepted
    exact parseAs_update reader (normal_of_normalizePayContractUpdate accepted)
  · intro input fields personRef accepted reference
    exact validateChange_object List.mem_cons_self
      (length_payContractTermsValue_le (normal_of_normalizePayContractUpdate accepted)) reference

theorem canonical_of_createCheck {ports : CheckPorts} {companyId value : JsString}
    (accepted : payContractCreateCheck reader ports companyId value = .ok true) :
    ∃ fields, parseAs reader normalizePayContractCreate value = .ok fields ∧
      payContractCreateValue fields = value := by
  simp only [payContractCreateCheck] at accepted
  split at accepted
  · split_ifs at accepted
    simp at accepted
  · rename_i fields read
    split_ifs at accepted with different
    · simp at accepted
    · simp only [not_or, not_not] at different
      exact ⟨fields, read, different.1⟩

theorem canonical_of_termsCheck {ports : CheckPorts} {contractId value before : JsString}
    (accepted : termsCheck reader ports contractId value before = .ok true) :
    ∃ fields, parseAs reader normalizePayContractUpdate value = .ok fields ∧
      payContractTermsValue fields = value := by
  rcases bind_eq_ok_iff.mp accepted with ⟨fields, read, accepted⟩
  split_ifs at accepted with different
  · simp [pure, Except.pure] at accepted
  · exact ⟨fields, read, not_not.mp different⟩

theorem canonical_of_changeCheck {ports : CheckPorts} {contractId field value : JsString}
    {before : Option JsString}
    (accepted : payContractChangeCheck reader ports contractId field value before = .ok true) :
    (field = PAY_CONTRACT_REMOVAL_FIELD ∧ value = js "removed") ∨
      (field = PAY_CONTRACT_TERMS_FIELD ∧
        ∃ fields, parseAs reader normalizePayContractUpdate value = .ok fields ∧
          payContractTermsValue fields = value) := by
  simp only [payContractChangeCheck] at accepted
  by_cases removal : field = PAY_CONTRACT_REMOVAL_FIELD
  · left
    rw [if_pos removal, Except.ok.injEq, Bool.and_eq_true, decide_eq_true_eq] at accepted
    exact ⟨removal, accepted.1⟩
  · right
    rw [if_neg removal] at accepted
    cases before with
    | none => simp at accepted
    | some before =>
        by_cases terms : field = PAY_CONTRACT_TERMS_FIELD
        · simp only [terms, ne_eq, not_true_eq_false, if_false] at accepted
          split at accepted
          · rename_i checked
            rw [Except.ok.injEq] at accepted
            rw [accepted] at checked
            exact ⟨terms, canonical_of_termsCheck reader checked⟩
          · split_ifs at accepted
            simp at accepted
        · simp [terms] at accepted

end Texts

def Editable (contract : PayContract) : Prop :=
  ∃ fields : NormalizedPayContractUpdate, fields.Normal ∧ contract.editable = .object fields.members

theorem text_toStatus (status : EditableStatus) : status.toStatus.text = status.text := by
  cases status with
  | active => rfl
  | inactive => rfl

theorem editable_created {fields : NormalizedPayContractCreate}
    (normal : fields.toNormalizedPayContractUpdate.Normal) (id now : JsString) :
    Editable (PayContracts.created id fields now) := by
  refine ⟨_, normal, ?_⟩
  simp only [PayContract.editable, PayContracts.created, text_toStatus,
    NormalizedPayContractUpdate.members]

theorem editable_edited {fields : NormalizedPayContractUpdate} (normal : fields.Normal)
    (current : PayContract) (now : JsString) : Editable (PayContracts.edited current fields now) := by
  refine ⟨_, normal, ?_⟩
  simp only [PayContract.editable, PayContracts.edited, text_toStatus,
    NormalizedPayContractUpdate.members]

theorem Editable.value {contract : PayContract} (editable : Editable contract) :
    ∃ value, payContractEditableValue contract = .ok value := by
  rcases editable with ⟨fields, normal, same⟩
  refine ⟨payContractTermsValue fields, ?_⟩
  rw [payContractEditableValue, same, normal.normalizePayContractUpdate_members]
  rfl

section Returned

variable {Store : Type} {operate : (op : TxOp) → Store → Except Thrown op.Answer × Store}
  {store after : Store} {contract : PayContract}

open Concurrency Process PayContracts

theorem created_of_createWork {actorId now : JsString} {fields : NormalizedPayContractCreate}
    (ran : (createWork actorId fields now).run operate store = (.ok contract, after)) :
    ∃ id, contract = created id fields now := by
  simp only [createWork, bind_eq_bind, bind_call, pure_eq_returned] at ran
  rcases run_perform_ok ran with ⟨existing, _, -, ran⟩
  rcases run_perform_ok ran with ⟨id, _, -, ran⟩
  rcases run_ofExcept_bind_ok ran with ⟨_, -, ran⟩
  rcases run_perform_ok ran with ⟨_, _, -, ran⟩
  rcases run_perform_ok ran with ⟨_, _, -, ran⟩
  exact ⟨id, (run_returned_ok ran).1.symm⟩

theorem edited_of_updateWork {actorId id : JsString} {fields : NormalizedPayContractUpdate}
    {previous : Option JsString}
    (ran : (updateWork actorId id fields previous).run operate store = (.ok contract, after)) :
    ∃ current now, contract = edited current fields now := by
  rcases run_perform_ok ran with ⟨found, _, -, ran⟩
  cases found with
  | none => simp [run] at ran
  | some current =>
      simp only at ran
      split_ifs at ran
      · simp [run] at ran
      · rw [Process.bind] at ran
        split_ifs at ran
        · simp [run] at ran
        · simp only [bind_eq_bind, bind_call, pure_eq_returned] at ran
          rcases run_perform_ok ran with ⟨existing, _, -, ran⟩
          rcases run_ofExcept_bind_ok ran with ⟨_, -, ran⟩
          rcases run_perform_ok ran with ⟨date, _, -, ran⟩
          rcases run_ofExcept_bind_ok ran with ⟨now, -, ran⟩
          rcases run_perform_ok ran with ⟨_, _, -, ran⟩
          rcases run_perform_ok ran with ⟨_, _, -, ran⟩
          exact ⟨current, now, (run_returned_ok ran).1.symm⟩

end Returned

theorem keptByWrites_editable :
    KeptByWrites fun row => row.status = .deleted ∨ Editable row where
  created id now accepted :=
    .inr (editable_created (normal_of_normalizePayContractCreate accepted).fields id now)
  edited current now accepted :=
    .inr (editable_edited (normal_of_normalizePayContractUpdate accepted) current now)
  removed _ _ := .inl rfl

/-- A call that creates or updates. -/
def PayContracts.Call.Changes : PayContracts.Call → Prop
  | create .. | update .. => True
  | remove .. => False

theorem value_of_returned {Ports Store : Type}
    {ask : (op : CallOp) → Ports → Except Thrown op.Answer × Ports}
    {operate : (op : TxOp) → Store → Except Thrown op.Answer × Store} {ports asked : Ports}
    {store after : Store} {call : PayContracts.Call} {work : Work} {contract : PayContract}
    (changes : call.Changes) (handed : call.request.run ask ports = (.ok work, asked))
    (ran : work.run operate store = (.ok contract, after)) :
    ∃ value, payContractEditableValue contract = .ok value := by
  cases call with
  | create actorId input =>
      rcases createWork_of_create handed with ⟨actor, fields, now, accepted, rfl⟩
      rcases created_of_createWork ran with ⟨id, rfl⟩
      have normal := normal_of_normalizePayContractCreate accepted
      exact (editable_created normal.fields id now).value
  | update actorId id input =>
      rcases updateWork_of_update handed with ⟨actor, contractId, fields, previous, accepted, rfl⟩
      rcases edited_of_updateWork ran with ⟨current, now, rfl⟩
      have normal := normal_of_normalizePayContractUpdate accepted
      exact (editable_edited normal current now).value
  | remove actorId id => exact changes.elim

theorem value_of_live (events : List PaySession.Event) {id : JsString} {contract : PayContract}
    (found : (PaySession.empty.run events).store.rows.get? id = some contract)
    (live : contract.status ≠ .deleted) :
    ∃ value, payContractEditableValue contract = .ok value := by
  rcases (rowsSession_run keptByWrites_editable events).rows id contract found with deleted | editable
  · exact absurd deleted live
  · exact editable.value

/-- The texts of contracts, the checks that take them and the rendering of what is stored. -/
structure ContractTexts (reader : JsonReader) : Prop where
  create : CanonicalTexts reader normalizePayContractCreate payContractCreateValue
    PAY_CONTRACT_CREATE_FIELD PAY_CONTRACT_CREATE_POLICY
  update : CanonicalTexts reader normalizePayContractUpdate payContractTermsValue
    PAY_CONTRACT_TERMS_FIELD PAY_CONTRACT_CHANGE_POLICY
  createCheck : ∀ ports companyId value,
    payContractCreateCheck reader ports companyId value = .ok true →
      ∃ fields, parseAs reader normalizePayContractCreate value = .ok fields ∧
        payContractCreateValue fields = value
  changeCheck : ∀ ports contractId field value before,
    payContractChangeCheck reader ports contractId field value before = .ok true →
      (field = PAY_CONTRACT_REMOVAL_FIELD ∧ value = js "removed") ∨
        (field = PAY_CONTRACT_TERMS_FIELD ∧
          ∃ fields, parseAs reader normalizePayContractUpdate value = .ok fields ∧
            payContractTermsValue fields = value)
  returned : ∀ (Ports Store : Type) (ask : (op : CallOp) → Ports → Except Thrown op.Answer × Ports)
    (operate : (op : TxOp) → Store → Except Thrown op.Answer × Store) (ports asked : Ports)
    (store after : Store) (call : PayContracts.Call) (work : Work) (contract : PayContract),
    call.Changes → call.request.run ask ports = (.ok work, asked) →
      work.run operate store = (.ok contract, after) →
        ∃ value, payContractEditableValue contract = .ok value
  stored : ∀ (events : List PaySession.Event) (id : JsString) (contract : PayContract),
    (PaySession.empty.run events).store.rows.get? id = some contract →
      contract.status ≠ .deleted → ∃ value, payContractEditableValue contract = .ok value

theorem contractTexts (reader : JsonReader) : ContractTexts reader where
  create := canonicalTexts_create reader
  update := canonicalTexts_update reader
  createCheck _ _ _ := canonical_of_createCheck reader
  changeCheck _ _ _ _ _ := canonical_of_changeCheck reader
  returned _ _ _ _ _ _ _ _ _ _ _ := value_of_returned
  stored events _ _ := value_of_live events

def exactReader : JsonReader := .keeping

/-- Absent fields and amounts in another spelling are written in full. -/
theorem contractTexts_openEnded :
    ∃ fields, normalizePayContractCreate openEndedPayload = .ok fields ∧
      parseAs exactReader normalizePayContractCreate (payContractCreateValue fields) = .ok fields := by
  have accepted : (normalizePayContractCreate openEndedPayload).toOption.isSome = true := by
    decide +kernel
  cases normalized : normalizePayContractCreate openEndedPayload with
  | error error => simp [normalized, Except.toOption] at accepted
  | ok fields => exact ⟨fields, rfl, (contractTexts exactReader).create.read _ fields normalized⟩

end StudentHub.Pay
