import StudentHub.Pay.Overlap
import StudentHub.Pay.Selected

/-!
# A day has one contract at most

Contracts that are apart leave a single day to at most one of them, so for one day
the resolver never has a choice, and the contract that covers the day has the terms
a payload was accepted with.
-/

namespace StudentHub.Pay

open Ecma JsString Concurrency Process

def ContractTerms.candidateSide : ContractTerms → JsString
  | hourly candidateHourlyRate _ => candidateHourlyRate
  | fixedPrice candidateTotal _ _ | monthlySalary candidateTotal _ _ => candidateTotal

def ContractTerms.companySide : ContractTerms → JsString
  | hourly _ companyHourlyRate => companyHourlyRate
  | fixedPrice _ companyTotal _ | monthlySalary _ companyTotal _ => companyTotal

def ContractTerms.Covered (terms : ContractTerms) : Prop :=
  Payable terms.candidateSide terms.companySide

theorem money_eq_ok {value : JsValue} {code text : JsString}
    (accepted : money value code true = .ok text) :
    ∃ amount, thousandths text = .ok amount ∧ 0 < amount := by
  simp only [money] at accepted
  cases canonical : canonicalDecimal value with
  | none => simp [canonical, invalid] at accepted
  | some canonicalText =>
    simp only [canonical, isPositiveDecimal] at accepted
    rcases bind_eq_ok_iff.mp accepted with ⟨isPositive, compared, accepted⟩
    rcases bind_eq_ok_iff.mp compared with ⟨amount, read, positive⟩
    cases isPositive with
    | false => simp [invalid] at accepted
    | true =>
      simp only [Bool.not_true, Bool.and_false] at accepted
      rw [← Except.ok.inj accepted]
      exact ⟨amount, read, by simpa using Except.ok.inj positive⟩

theorem payable_of_accepted {candidateValue companyValue : JsValue}
    {candidateCode companyCode candidate company : JsString}
    (candidateAccepted : money candidateValue candidateCode true = .ok candidate)
    (companyAccepted : money companyValue companyCode true = .ok company)
    (covers : companyCovers company candidate = .ok ()) : Payable candidate company := by
  rcases money_eq_ok candidateAccepted with ⟨candidateAmount, candidateRead, positive⟩
  rcases money_eq_ok companyAccepted with ⟨companyAmount, companyRead, -⟩
  refine ⟨candidateAmount, companyAmount, candidateRead, companyRead, positive, ?_⟩
  rcases bind_eq_ok_iff.mp covers with ⟨order, compared, notBelow⟩
  split_ifs at notBelow with below
  · simp [invalid] at notBelow
  · rw [compareDecimal_eq_ok compared companyRead candidateRead, Nat.compare_eq_lt] at below
    omega

theorem normalizeTerms_covered {value : JsValue} {terms : ContractTerms}
    (accepted : normalizeTerms value = .ok terms) : terms.Covered := by
  simp only [normalizeTerms] at accepted
  split at accepted
  · split_ifs at accepted with isHourly isFixed isMonthly
    · rcases bind_eq_ok_iff.mp accepted with ⟨raw, -, accepted⟩
      rcases bind_eq_ok_iff.mp accepted with ⟨candidate, candidateAccepted, accepted⟩
      rcases bind_eq_ok_iff.mp accepted with ⟨company, companyAccepted, accepted⟩
      rcases bind_eq_ok_iff.mp accepted with ⟨_, covers, accepted⟩
      rw [← Except.ok.inj accepted]
      exact payable_of_accepted candidateAccepted companyAccepted covers
    · rcases bind_eq_ok_iff.mp accepted with ⟨raw, -, accepted⟩
      rcases bind_eq_ok_iff.mp accepted with ⟨candidate, candidateAccepted, accepted⟩
      rcases bind_eq_ok_iff.mp accepted with ⟨company, companyAccepted, accepted⟩
      rcases bind_eq_ok_iff.mp accepted with ⟨_, covers, accepted⟩
      rcases bind_eq_ok_iff.mp accepted with ⟨percentage, -, accepted⟩
      rw [← Except.ok.inj accepted]
      exact payable_of_accepted candidateAccepted companyAccepted covers
    · rcases bind_eq_ok_iff.mp accepted with ⟨raw, -, accepted⟩
      rcases bind_eq_ok_iff.mp accepted with ⟨candidate, candidateAccepted, accepted⟩
      rcases bind_eq_ok_iff.mp accepted with ⟨company, companyAccepted, accepted⟩
      rcases bind_eq_ok_iff.mp accepted with ⟨_, covers, accepted⟩
      rcases bind_eq_ok_iff.mp accepted with ⟨salaryDay, -, accepted⟩
      rw [← Except.ok.inj accepted]
      exact payable_of_accepted candidateAccepted companyAccepted covers
    · simp [invalid] at accepted
  · simp [invalid] at accepted

theorem normalizeEditable_covered {raw : JsValue} {fields : NormalizedPayContractUpdate}
    (accepted : normalizeEditable raw = .ok fields) : fields.terms.Covered := by
  simp only [normalizeEditable, bind_eq_ok_iff] at accepted
  rcases accepted with ⟨startDate, -, endDate, -, currencyId, -, transferCost, -, terms,
    termsAccepted, autoGenerate, -, status, -, built⟩
  rw [← Except.ok.inj built]
  exact normalizeTerms_covered termsAccepted

theorem normalizePayContractUpdate_covered {input : JsValue}
    {fields : NormalizedPayContractUpdate}
    (accepted : normalizePayContractUpdate input = .ok fields) : fields.terms.Covered := by
  rcases bind_eq_ok_iff.mp accepted with ⟨raw, -, editable⟩
  exact normalizeEditable_covered editable

theorem normalizePayContractCreate_covered {input : JsValue}
    {fields : NormalizedPayContractCreate}
    (accepted : normalizePayContractCreate input = .ok fields) : fields.terms.Covered := by
  simp only [normalizePayContractCreate, bind_eq_ok_iff] at accepted
  rcases accepted with ⟨raw, -, candidateId, -, companyId, -, storeId, -, editable, edited, built⟩
  rw [← Except.ok.inj built]
  exact normalizeEditable_covered edited

structure CoveredSession (session : PaySession) : Prop where
  rows : ∀ id row, session.store.rows.get? id = some row → row.terms.Covered
  waiting : ∀ work ∈ session.waiting, Requested work

theorem keptByWrites_covered : KeptByWrites fun row => row.terms.Covered where
  created _ _ accepted := normalizePayContractCreate_covered accepted
  edited _ _ accepted := normalizePayContractUpdate_covered accepted
  removed _ covered := covered

theorem coveredSession_run (events : List PaySession.Event) :
    CoveredSession (PaySession.empty.run events) := by
  rcases rowsSession_run keptByWrites_covered events with ⟨rows, waiting⟩
  exact ⟨rows, waiting⟩

/-- The candidate's contracts that are not deleted, newest start first. -/
def PayContracts.listForCandidate (localeCompare : Comparator JsString)
    (store : InMemoryPayContractStore) (candidateId : JsValue) :
    Except Thrown (List PayContract) := do
  let id ← partyId candidateId (js "invalid_candidate")
  return (newestFirst localeCompare).sort ((store.listForCandidate id).filter fun c =>
    c.candidateId = id && c.status ≠ .deleted)

def ListedFor (localeCompare : Comparator JsString) (store : InMemoryPayContractStore)
    (candidateId : JsString) (contracts : List PayContract) : Prop :=
  contracts = store.listForCandidate candidateId ∨
    PayContracts.listForCandidate localeCompare store (.string candidateId) = .ok contracts

section ListedFor

variable {localeCompare : Comparator JsString} {store : InMemoryPayContractStore}
  {candidateId : JsString} {contracts : List PayContract}

theorem mem_listForCandidate {contract : PayContract} :
    contract ∈ store.listForCandidate candidateId ↔
      (∃ id, store.rows.get? id = some contract) ∧ contract.candidateId = candidateId := by
  rw [InMemoryPayContractStore.listForCandidate, List.mem_filter, OrderedMap.mem_values_iff]
  simp

theorem listForCandidate_eq_ok
    (listed : PayContracts.listForCandidate localeCompare store (.string candidateId) =
      .ok contracts) :
    contracts.Perm ((store.listForCandidate candidateId).filter fun c =>
      c.candidateId = candidateId && c.status ≠ .deleted) := by
  rcases bind_eq_ok_iff.mp listed with ⟨id, isParty, listed⟩
  simp only [partyId] at isParty
  split_ifs at isParty
  · cases Except.ok.inj isParty
    rw [← Except.ok.inj listed]
    exact Comparator.sort_perm
  · simp [invalid] at isParty

theorem ListedFor.stored (listed : ListedFor localeCompare store candidateId contracts)
    {contract : PayContract} (member : contract ∈ contracts) :
    ∃ id, store.rows.get? id = some contract := by
  rcases listed with rfl | listed
  · exact (mem_listForCandidate.mp member).1
  · have kept := List.mem_of_mem_filter ((listForCandidate_eq_ok listed).subset member)
    exact (mem_listForCandidate.mp kept).1

theorem ListedFor.mem (listed : ListedFor localeCompare store candidateId contracts) {id : JsString}
    {contract : PayContract} (found : store.rows.get? id = some contract)
    (candidate : contract.candidateId = candidateId) (live : contract.status ≠ .deleted) :
    contract ∈ contracts := by
  have stored : contract ∈ store.listForCandidate candidateId :=
    mem_listForCandidate.mpr ⟨⟨id, found⟩, candidate⟩
  rcases listed with rfl | listed
  · exact stored
  · apply (listForCandidate_eq_ok listed).symm.subset
    simp [stored, candidate, live]

theorem ListedFor.nodup (listed : ListedFor localeCompare store candidateId contracts)
    (keyed : ∀ id row, store.rows.get? id = some row → row.id = id) :
    contracts.Nodup := by
  have values : store.rows.values.Nodup := (OrderedMap.nodup_map_values keyed).of_map
  rcases listed with rfl | listed
  · exact values.filter _
  · exact (listForCandidate_eq_ok listed).nodup_iff.mpr ((values.filter _).filter _)

end ListedFor

def onDay (candidateId storeId day today : JsString) (contracts : List PayContract)
    (entered : Option EnteredRates) (defaults : Option DefaultRates) : RateResolutionInput :=
  { candidateId, storeId, contracts, period := some ⟨day, day⟩, today, contractId := none,
    payModel := none, entered, defaults }

def CoversDay (contract : PayContract) (day : JsString) : Prop :=
  ∃ period number, contract.dates.period? = some period ∧ dayNumber? day = some number ∧
    number ∈ period.days

theorem notBefore_day {endDate : Option JsString} {day : JsString} {last : Option ℤ} {number : ℤ}
    (endDay : endDate.map dayNumber? = last.map some) (dayIs : dayNumber? day = some number) :
    (∀ final ∈ endDate, day ≤ final) ↔ ∀ final ∈ last, number ≤ final := by
  rw [← notBefore_iff_forall]
  exact notBefore_iff endDay dayIs

theorem inTime_onDay_iff {candidateId storeId day today : JsString}
    {contracts : List PayContract} {entered : Option EnteredRates}
    {defaults : Option DefaultRates} {contract : PayContract} {period : Period ℤ} {number : ℤ}
    (lasts : contract.dates.period? = some period) (dayIs : dayNumber? day = some number) :
    InTime (onDay candidateId storeId day today contracts entered defaults) contract ↔
      number ∈ period.days := by
  rcases Dates.period?_eq_some lasts with ⟨startDay, endDay⟩
  have starts := (lt_iff_dayNumber?_lt dayIs startDay).not
  rw [List.not_lt, not_lt] at starts
  exact and_congr starts (notBefore_day endDay dayIs)

theorem selected_onDay_iff {candidateId storeId day today : JsString}
    {contracts : List PayContract} {entered : Option EnteredRates}
    {defaults : Option DefaultRates} {contract : PayContract} :
    Selected (onDay candidateId storeId day today contracts entered defaults) contract ↔
      Applies (onDay candidateId storeId day today contracts entered defaults) contract := by
  simp [Selected, PassesFilters, onDay]

theorem eq_of_applies_onDay {rows : OrderedMap JsString PayContract} (sound : Sound rows)
    {candidateId storeId day today : JsString} {contracts : List PayContract}
    {entered : Option EnteredRates} {defaults : Option DefaultRates} {number : ℤ}
    (dayIs : dayNumber? day = some number) {id otherId : JsString} {one other : PayContract}
    (oneFound : rows.get? id = some one) (otherFound : rows.get? otherId = some other)
    (oneApplies : Applies (onDay candidateId storeId day today contracts entered defaults) one)
    (otherApplies :
      Applies (onDay candidateId storeId day today contracts entered defaults) other) :
    one = other := by
  rcases sound.dated id one oneFound with ⟨period, lasts⟩
  rcases sound.dated otherId other otherFound with ⟨otherPeriod, otherLasts⟩
  by_cases same : id = otherId
  · rw [same] at oneFound
    exact Option.some.inj (oneFound.symm.trans otherFound)
  · rcases oneApplies with ⟨candidate, store, live, inTime⟩
    rcases otherApplies with ⟨otherCandidate, otherStore, otherLive, otherInTime⟩
    have apart := sound.apart id one otherId other oneFound otherFound same live otherLive
      (candidate.trans otherCandidate.symm) (store.trans otherStore.symm)
    rw [← Bool.not_eq_true, overlaps_iff lasts otherLasts, not_not] at apart
    -- The day would belong to both.
    have onDay := (inTime_onDay_iff lasts dayIs).mp inTime
    have otherOnDay := (inTime_onDay_iff otherLasts dayIs).mp otherInTime
    exact absurd otherOnDay (Set.disjoint_left.mp apart onDay)

def RateResolution.candidateSide : RateResolution → JsString
  | hourlyContract _ _ candidate _ | totalContract _ _ _ candidate _ _ | manual _ candidate _ =>
      candidate

def RateResolution.companySide : RateResolution → JsString
  | hourlyContract _ _ _ company | totalContract _ _ _ _ company _ | manual _ _ company => company

theorem payable_of_covered {contract : PayContract} (covered : contract.terms.Covered)
    (base : ResolutionBase) :
    Payable (resolveContract contract base).candidateSide
      (resolveContract contract base).companySide := by
  cases terms : contract.terms <;>
    simpa [resolveContract, terms, RateResolution.candidateSide, RateResolution.companySide,
      ContractTerms.Covered, ContractTerms.candidateSide, ContractTerms.companySide] using covered

theorem length_selection_onDay_le {localeCompare : Comparator JsString}
    {store : InMemoryPayContractStore} (sound : Sound store.rows)
    {candidateId storeId day today : JsString} {contracts : List PayContract}
    {entered : Option EnteredRates} {defaults : Option DefaultRates} {number : ℤ}
    (dayIs : dayNumber? day = some number)
    (listed : ListedFor localeCompare store candidateId contracts) :
    (selection (onDay candidateId storeId day today contracts entered defaults)).length ≤ 1 := by
  have nodup : (selection (onDay candidateId storeId day today contracts entered defaults)).Nodup :=
    (listed.nodup sound.keyed).filter _
  have applies : ∀ one ∈ selection
      (onDay candidateId storeId day today contracts entered defaults),
      (∃ id, store.rows.get? id = some one) ∧
        Applies (onDay candidateId storeId day today contracts entered defaults) one := by
    intro one member
    rcases List.mem_filter.mp member with ⟨held, selected⟩
    exact ⟨listed.stored held, selected_onDay_iff.mp (by simpa using selected)⟩
  match selection (onDay candidateId storeId day today contracts entered defaults), nodup,
    applies with
  | [], _, _ => simp
  | [one], _, _ => simp
  | one :: other :: rest, nodup, applies =>
    rcases applies one (by simp) with ⟨⟨id, oneFound⟩, oneApplies⟩
    rcases applies other (by simp) with ⟨⟨otherId, otherFound⟩, otherApplies⟩
    have same := eq_of_applies_onDay sound dayIs oneFound otherFound oneApplies otherApplies
    simp [same] at nodup

/-- In every state that calls reach from the empty store, the contracts listed for a candidate
never leave a choice for one day, and a contract that covers the day is the one that is paid,
with a positive candidate side that the company side covers. -/
theorem run_resolves_single_day (localeCompare : Comparator JsString)
    (events : List PaySession.Event) (candidateId storeId day today : JsString)
    (contracts : List PayContract) (entered : Option EnteredRates)
    (defaults : Option DefaultRates) (isDay : isCalendarDate day = true)
    (listed : ListedFor localeCompare (PaySession.empty.run events).store candidateId contracts) :
    let result := resolveEffectiveRate localeCompare
      (onDay candidateId storeId day today contracts entered defaults)
    (∀ status ids, result ≠ .error (.rateResolutionError .ambiguousContract status ids)) ∧
    ∀ id row, (PaySession.empty.run events).store.rows.get? id = some row →
      row.candidateId = candidateId → row.storeId = storeId → row.status ≠ .deleted →
      CoversDay row day → isCalendarDate today = true →
      ∃ resolution, result = .ok resolution ∧ Carries resolution row ∧
        Payable resolution.candidateSide resolution.companySide := by
  intro result
  have sound := (sessionInvariant_run sessionInvariant_empty events).1.sound
  rcases isDate_iff.mp isDay with ⟨number, dayIs⟩
  have short : (selection
      (onDay candidateId storeId day today contracts entered defaults)).length ≤ 1 :=
    length_selection_onDay_le sound dayIs listed
  refine ⟨?_, ?_⟩
  · intro status ids
    rcases Nat.le_one_iff_eq_zero_or_eq_one.mp short with none | single
    · simp only [result]
      rw [resolveEffectiveRate_of_empty (List.length_eq_zero_iff.mp none)]
      split_ifs
      · simp [refuse]
      · simp [refuse]
      · exact resolveManual_ne_ambiguous
    · rcases List.length_eq_one_iff.mp single with ⟨contract, here⟩
      simp only [result]
      rw [resolveEffectiveRate_of_single here]
      split_ifs
      · simp [refuse]
      · simp
  · rintro id row found candidate store live ⟨period, covered, lasts, coveredIs, onDay⟩ isToday
    cases Option.some.inj (coveredIs.symm.trans dayIs)
    have selected : Selected (StudentHub.Pay.onDay candidateId storeId day today contracts entered
        defaults) row :=
      selected_onDay_iff.mpr ⟨candidate, store, live, (inTime_onDay_iff lasts dayIs).mpr onDay⟩
    have member : row ∈ selection (StudentHub.Pay.onDay candidateId storeId day today contracts
        entered defaults) :=
      List.mem_filter.mpr ⟨listed.mem found candidate live, by simpa using selected⟩
    rcases List.length_eq_one_iff.mp (Nat.le_antisymm short (List.length_pos_of_mem member)) with
      ⟨contract, single⟩
    rw [single, List.mem_singleton] at member
    subst member
    have valid : validDates (StudentHub.Pay.onDay candidateId storeId day today contracts entered
        defaults) = true := by
      simp [validDates, StudentHub.Pay.onDay, isToday, isDay]
    simp only [result]
    rw [resolveEffectiveRate_of_single single, valid]
    refine ⟨_, rfl, carries_resolveContract row _, ?_⟩
    exact payable_of_covered ((coveredSession_run events).rows id row found) _

def openEndedPayload : JsValue :=
  .object
    [(js "candidateId", .string (js "candidate-a")), (js "companyId", .string (js "company-a")),
      (js "storeId", .string (js "store-a")), (js "startDate", .string (js "2026-07-01")),
      (js "currencyId", .string (js "22222222-2222-4222-8222-222222222222")),
      (js "terms", .object
        [(js "payModel", .string (js "hourly")), (js "candidateHourlyRate", .string (js "1.25")),
          (js "companyHourlyRate", .string (js "2"))])]

def createOpenEnded : List PaySession.Event :=
  let around : Surroundings :=
    ⟨.resolved (some .active), js "11111111-1111-4111-8111-111111111111",
      some .sample⟩
  [.call (.create (.string (js "staff-a")) openEndedPayload) around, .turn 0 around]

theorem run_resolves_single_day_created :
    ∃ resolution, resolveEffectiveRate codeUnitOrder
        (onDay (js "candidate-a") (js "store-a") (js "2026-09-01") (js "2026-10-07")
          ((PaySession.empty.run createOpenEnded).store.listForCandidate (js "candidate-a"))
          none none) = .ok resolution ∧
      Payable resolution.candidateSide resolution.companySide := by
  have created : ∃ row, (PaySession.empty.run createOpenEnded).store.rows.get?
        (js "11111111-1111-4111-8111-111111111111") = some row ∧
      row.candidateId = js "candidate-a" ∧ row.storeId = js "store-a" ∧ row.status ≠ .deleted ∧
      row.startDate = js "2026-07-01" ∧ row.endDate = none :=
    ⟨_, rfl, by decide +kernel⟩
  rcases created with ⟨row, found, candidate, store, live, start, openEnded⟩
  have covers : CoversDay row (js "2026-09-01") := by
    have startDay : dayNumber? (js "2026-07-01") = some 20635 := by decide +kernel
    have day : dayNumber? (js "2026-09-01") = some 20697 := by decide +kernel
    refine ⟨⟨20635, none, by simp⟩, 20697, ?_, day, by decide, by simp⟩
    simp only [PayContract.dates, start, openEnded, Dates.period?, startDay,
      Option.bind_eq_bind, Option.bind_some, Option.pure_def]
  rcases (run_resolves_single_day codeUnitOrder createOpenEnded (js "candidate-a")
    (js "store-a") (js "2026-09-01") (js "2026-10-07") _ none none (by decide +kernel)
    (.inl rfl)).2 _ row found candidate store live covers (by decide +kernel) with
    ⟨resolution, resolved, -, payable⟩
  exact ⟨resolution, resolved, payable⟩

end StudentHub.Pay
