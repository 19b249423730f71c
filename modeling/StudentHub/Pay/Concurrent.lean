import StudentHub.Concurrency.Mutations
import StudentHub.Pay.Postgres

/-!
# The pairs of a candidate and a store

The zones of `pay_contracts` are the pairs of a candidate and a store. Each transaction takes the
lock of its pair before it reads the pair's rows, so the rows it has compared its contract with are
still the pair's rows when it commits.
-/

namespace StudentHub.Pay

open Ecma Concurrency Process ZonePolicy

/-- Rows of one candidate and store that are not deleted do not overlap. -/
def RowsApart (table : OrderedMap JsString ContractRow) : Prop :=
  ∀ id row otherId other, table.get? id = some row → table.get? otherId = some other →
    id ≠ otherId → row.status ≠ .deleted → other.status ≠ .deleted → row.pair = other.pair →
    overlaps row.dates other.dates = false

def RowsDated (table : OrderedMap JsString ContractRow) : Prop :=
  ∀ id row, table.get? id = some row → ∃ period, row.dates.period? = some period

def pairPolicy (hash : JsString → ℤ) (dated : Prop) : ZonePolicy paySchema where
  Zone := JsString × JsString
  zoneOf := ContractRow.pair
  keyOf pair := hash (lockName pair)
  Good _ rows :=
    (∀ id row otherId other, (id, row) ∈ rows → (otherId, other) ∈ rows → id ≠ otherId →
      row.status ≠ .deleted → other.status ≠ .deleted → overlaps row.dates other.dates = false) ∧
    (dated → ∀ id row, (id, row) ∈ rows → ∃ period, row.dates.period? = some period)

section Policy

variable {hash : JsString → ℤ} {dated : Prop} {table : OrderedMap JsString ContractRow}

theorem holds_iff : (pairPolicy hash dated).Holds table ↔
    RowsApart table ∧ (dated → RowsDated table) := by
  refine ⟨?_, ?_⟩
  · intro holds
    refine ⟨?_, ?_⟩
    · intro id row otherId other found otherFound distinct live otherLive samePair
      exact (holds row.pair).1 id row otherId other ⟨found, rfl⟩ ⟨otherFound, samePair.symm⟩
        distinct live otherLive
    · intro isDated id row found
      exact (holds row.pair).2 isDated id row ⟨found, rfl⟩
  · rintro ⟨apart, allDated⟩ pair
    refine ⟨?_, ?_⟩
    · rintro id row otherId other ⟨found, inPair⟩ ⟨otherFound, otherInPair⟩ distinct live otherLive
      exact apart id row otherId other found otherFound distinct live otherLive
        (inPair.trans otherInPair.symm)
    · rintro isDated id row ⟨found, -⟩
      exact allDated isDated id row found

theorem holds_set (holds : (pairPolicy hash dated).Holds table) {id : JsString} {row : ContractRow}
    (lasts : dated → ∃ period, row.dates.period? = some period)
    (clear : row.status ≠ .deleted → ∀ otherId other, table.get? otherId = some other →
      otherId ≠ id → other.status ≠ .deleted → other.pair = row.pair →
      overlaps other.dates row.dates = false) :
    (pairPolicy hash dated).Holds (table.set id row) := by
  rw [holds_iff] at holds ⊢
  rcases holds with ⟨apart, allDated⟩
  refine ⟨?_, ?_⟩
  · intro firstId first secondId second firstFound secondFound distinct firstLive secondLive samePair
    rw [OrderedMap.get?_set] at firstFound secondFound
    split_ifs at firstFound with isFirst <;> split_ifs at secondFound with isSecond
    · exact absurd (isFirst.trans isSecond.symm) distinct
    · cases Option.some.inj firstFound
      rw [overlaps_comm]
      exact clear firstLive secondId second secondFound isSecond secondLive samePair.symm
    · cases Option.some.inj secondFound
      exact clear secondLive firstId first firstFound isFirst firstLive samePair
    · exact apart firstId first secondId second firstFound secondFound distinct firstLive
        secondLive samePair
  · intro isDated otherId other found
    rw [OrderedMap.get?_set] at found
    split_ifs at found
    · rw [← Option.some.inj found]
      exact lasts isDated
    · exact allDated isDated otherId other found

end Policy

def PayContract.pair (contract : PayContract) : JsString × JsString :=
  (contract.candidateId, contract.storeId)

@[simp]
theorem withTerms_pair (row : ContractRow) (terms : ContractTerms) :
    (withTerms row terms).pair = row.pair := by
  cases terms <;> rfl

@[simp]
theorem withTerms_dates (row : ContractRow) (terms : ContractTerms) :
    (withTerms row terms).dates = row.dates := by
  cases terms <;> rfl

@[simp]
theorem withTerms_status (row : ContractRow) (terms : ContractTerms) :
    (withTerms row terms).status = row.status := by
  cases terms <;> rfl

theorem values_pair (contract : PayContract) :
    (values contract).pair = contract.pair := by
  rw [values, withTerms_pair]
  rfl

theorem values_dates (contract : PayContract) : (values contract).dates = contract.dates := by
  rw [values, withTerms_dates]
  rfl

theorem setColumns_pair (contract : PayContract) (row : ContractRow) :
    (setColumns contract row).pair = row.pair := by
  rw [setColumns, withTerms_pair]
  rfl

theorem setColumns_dates (contract : PayContract) (row : ContractRow) :
    (setColumns contract row).dates = contract.dates := by
  rw [setColumns, withTerms_dates]
  rfl

theorem setColumns_status (contract : PayContract) (row : ContractRow) :
    (setColumns contract row).status = contract.status := by
  rw [setColumns, withTerms_status]

theorem pair_of_sameParties {contract : PayContract} {row : ContractRow}
    (same : sameParties contract row = true) :
    row.pair = contract.pair := by
  simp only [sameParties, Bool.and_eq_true, decide_eq_true_eq] at same
  rw [ContractRow.pair, same.1.1, same.2, PayContract.pair]

theorem fromRow_eq_ok {id : JsString} {row : ContractRow} {contract : PayContract}
    (read : fromRow (id, row) = .ok contract) :
    contract.id = id ∧ contract.status = row.status ∧ contract.dates = row.dates ∧
      contract.pair = row.pair := by
  rcases bind_eq_ok_iff.mp read with ⟨terms, -, built⟩
  rw [← Except.ok.inj built]
  exact ⟨rfl, rfl, rfl, rfl⟩

section Locked

variable {hash : JsString → ℤ} {dated : Prop} {table later : OrderedMap JsString ContractRow}
  {pair : JsString × JsString} {id : JsString} {dates : Dates}

theorem clear_of_checked {existing : List PayContract}
    (read : (pairRows pair table.entries).mapM fromRow = .ok existing)
    (checked : assertNoOverlap existing id dates = .ok ()) {otherId : JsString}
    {other : ContractRow} (found : table.get? otherId = some other) (distinct : otherId ≠ id)
    (live : other.status ≠ .deleted) (inPair : other.pair = pair) :
    overlaps other.dates dates = false := by
  have listed : (otherId, other) ∈ pairRows pair table.entries := by
    rw [pairRows, List.mem_insertionSort, List.mem_filter]
    exact ⟨OrderedMap.mem_entries_iff.mpr found, by simpa using inPair⟩
  rcases exists_mem_of_mapM_eq_ok read listed with ⟨contract, contractMem, isContract⟩
  rcases fromRow_eq_ok isContract with ⟨sameId, sameStatus, sameDates, -⟩
  rw [assertNoOverlap] at checked
  split_ifs at checked with clash
  rw [Bool.not_eq_true, List.any_eq_false] at clash
  have apart := clash contract contractMem
  simpa [sameId, sameStatus, sameDates, distinct, live] using apart

def lockedWith (hash : JsString → ℤ) (pair : JsString × JsString) : Set (JsString × JsString) :=
  {other | hash (lockName other) = hash (lockName pair)}

theorem mem_lockedWith (hash : JsString → ℤ) (pair : JsString × JsString) :
    pair ∈ lockedWith hash pair :=
  rfl

theorem clear_of_agree {existing : List PayContract}
    (read : (pairRows pair table.entries).mapM fromRow = .ok existing)
    (checked : assertNoOverlap existing id dates = .ok ())
    (agree : (pairPolicy hash dated).Agree (lockedWith hash pair) table later)
    {otherId : JsString} {other : ContractRow} (found : later.get? otherId = some other)
    (distinct : otherId ≠ id) (live : other.status ≠ .deleted) (inPair : other.pair = pair) :
    overlaps other.dates dates = false := by
  have inLocked : (pairPolicy hash dated).zoneOf other ∈ lockedWith hash pair := by
    rw [← inPair]
    exact mem_lockedWith hash other.pair
  exact clear_of_checked read checked (agree.get? found inLocked) distinct live inPair

end Locked

theorem keepsGood_set {hash : JsString → ℤ} {dated : Prop} {table : OrderedMap JsString ContractRow}
    {held : List (JsString × Option ContractRow)} {entries : List PayContractAudit}
    {contract : PayContract} {row : ContractRow} (samePair : row.pair = contract.pair)
    (sameDates : row.dates = contract.dates) (sameStatus : row.status = contract.status)
    (lasts : (pairPolicy hash dated).Holds table → dated →
      ∃ period, contract.dates.period? = some period)
    (clear : contract.status ≠ .deleted → ∀ otherId other, table.get? otherId = some other →
      otherId ≠ contract.id → other.status ≠ .deleted → other.pair = contract.pair →
      overlaps other.dates contract.dates = false) :
    (pairPolicy hash dated).KeepsGood
      ⟨held, table, OrderedMap.empty.set contract.id row, entries⟩ := by
  intro holds
  apply holds_set holds
  · rw [sameDates]
    exact lasts holds
  · rw [sameStatus, samePair, sameDates]
    exact clear

end StudentHub.Pay
