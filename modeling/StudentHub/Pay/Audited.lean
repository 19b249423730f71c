import StudentHub.Pay.Concurrent

/-!
# What contract mutations commit

Each transaction that commits has one audit row, whose counts are those of the committed table
before and after it, and leaves the contracts of each candidate and store apart. The pair's lock
keeps the rows of the pair as `lockPair` has read them, and the row's lock keeps the row as `find`
has read it, so the row that an update or a removal writes is among the counted ones.
-/

namespace StudentHub.Pay

open Ecma Concurrency Process ZonePolicy

/-- A call, with what its ports answer before its transaction. -/
structure CallOrigin where
  call : PayContracts.Call
  answers : (op : CallOp) → Except Thrown op.Answer

def PayContracts.Call.operation : PayContracts.Call → PayContractAuditOperation
  | create .. => .create
  | update .. => .update
  | remove .. => .remove

namespace CallOrigin

/-- What the call hands over, and what it has asked. -/
def outcome (origin : CallOrigin) : Except Thrown Work × List CallOp :=
  origin.call.request.run (fun op asked => (origin.answers op, asked ++ [op])) []

def statements (hash : JsString → ℤ) (origin : CallOrigin) : SqlProcess PayContract :=
  match origin.outcome.1 with
  | .ok work => work.statements hash
  | .error error => thrown error

/-- The resolver has been asked for the currency and has answered that it is active. -/
def Active (origin : CallOrigin) (currencyId : JsString) : Prop :=
  CallOp.resolve currencyId ∈ origin.outcome.2 ∧
    origin.answers (.resolve currencyId) = .ok (.resolved (some .active))

end CallOrigin

section Requests

variable {answers : (op : CallOp) → Except Thrown op.Answer} {asked final : List CallOp} {work : Work}

theorem subset_of_run {Value : Type} {process : Process CallOp.Answer Thrown Value}
    {result : Except Thrown Value}
    (ran : process.run (fun op asked => (answers op, asked ++ [op])) asked = (result, final)) :
    asked ⊆ final := by
  induction process generalizing asked with
  | returned value =>
      cases ran
      exact List.Subset.refl _
  | thrown error =>
      cases ran
      exact List.Subset.refl _
  | perform op next ih =>
      simp only [run] at ran
      split at ran
      · rename_i answer after answered
        rw [← (Prod.mk.inj answered).2] at ran
        exact List.Subset.trans (List.subset_append_left _ _) (ih _ ran)
      · rename_i error after answered
        rw [← (Prod.mk.inj ran).2, ← (Prod.mk.inj answered).2]
        exact List.subset_append_left _ _

theorem active_of_assertCurrency {currencyId : JsString} {previous : Option JsString}
    {rest : Unit → Request}
    (ran : ((PayContracts.assertCurrency currencyId previous).bind rest).run
      (fun op asked => (answers op, asked ++ [op])) asked = (.ok work, final)) :
    (some currencyId = previous ∨ CallOp.resolve currencyId ∈ final ∧
      answers (.resolve currencyId) = .ok (.resolved (some .active))) ∧
    ∃ after, (rest ()).run (fun op asked => (answers op, asked ++ [op])) after = (.ok work, final) := by
  rw [PayContracts.assertCurrency] at ran
  split_ifs at ran with same
  · exact ⟨.inl same, asked, ran⟩
  · rcases run_perform_ok ran with ⟨answer, after, answered, ran⟩
    rcases Prod.mk.inj answered with ⟨isAnswer, rfl⟩
    cases answer with
    | failed => simp [run] at ran
    | resolved status =>
        rcases status with _ | _ | _
        · simp [run, invalid] at ran
        · refine ⟨.inr ⟨subset_of_run ran (by simp), isAnswer⟩, _, ran⟩
        · simp [run, invalid] at ran

end Requests

inductive Checked (origin : CallOrigin) : Work → Prop
  | create {actorId now : JsString} {fields : NormalizedPayContractCreate}
      (isCreate : origin.call.operation = .create) (active : origin.Active fields.currencyId)
      (lasts : ∃ period, fields.dates.period? = some period) :
      Checked origin (PayContracts.createWork actorId fields now)
  | update {actorId id : JsString} {fields : NormalizedPayContractUpdate}
      {previous : Option JsString} (isUpdate : origin.call.operation = .update)
      (active : some fields.currencyId = previous ∨ origin.Active fields.currencyId)
      (lasts : ∃ period, fields.dates.period? = some period) :
      Checked origin (PayContracts.updateWork actorId id fields previous)
  | remove {actorId id : JsString} (isRemove : origin.call.operation = .remove) :
      Checked origin (PayContracts.removeWork actorId id)

theorem checked_of_outcome {origin : CallOrigin} {work : Work}
    (handed : origin.outcome.1 = .ok work) : Checked origin work := by
  have ran : origin.call.request.run (fun op asked => (origin.answers op, asked ++ [op])) [] =
      (.ok work, origin.outcome.2) := Prod.ext handed rfl
  cases isCall : origin.call with
  | create actorId input =>
      rw [isCall] at ran
      simp only [PayContracts.Call.request, PayContracts.create, bind_eq_bind, bind_call,
        pure_eq_returned] at ran
      rcases run_ofExcept_bind_ok ran with ⟨actor, -, ran⟩
      rcases run_ofExcept_bind_ok ran with ⟨fields, accepted, ran⟩
      rcases active_of_assertCurrency ran with ⟨active, asked, ran⟩
      rcases run_perform_ok ran with ⟨date, _, -, ran⟩
      rcases run_ofExcept_bind_ok ran with ⟨now, -, ran⟩
      rw [← (run_returned_ok ran).1]
      refine .create (by rw [isCall]; rfl) ?_ (normalizePayContractCreate_period accepted)
      rcases active with same | active
      · cases same
      · exact active
  | update actorId id input =>
      rw [isCall] at ran
      simp only [PayContracts.Call.request, PayContracts.update, bind_eq_bind, bind_call,
        pure_eq_returned] at ran
      rcases run_ofExcept_bind_ok ran with ⟨actor, -, ran⟩
      rcases run_ofExcept_bind_ok ran with ⟨contractId, -, ran⟩
      rcases run_ofExcept_bind_ok ran with ⟨fields, accepted, ran⟩
      rcases run_perform_ok ran with ⟨previous, _, -, ran⟩
      rcases active_of_assertCurrency ran with ⟨active, asked, ran⟩
      rw [← (run_returned_ok ran).1]
      exact .update (by rw [isCall]; rfl) active (normalizePayContractUpdate_period accepted)
  | remove actorId id =>
      rw [isCall] at ran
      simp only [PayContracts.Call.request, PayContracts.remove, bind_eq_bind,
        pure_eq_returned] at ran
      rcases run_ofExcept_bind_ok ran with ⟨actor, -, ran⟩
      rcases run_ofExcept_bind_ok ran with ⟨contractId, -, ran⟩
      rw [← (run_returned_ok ran).1]
      exact .remove (by rw [isCall]; rfl)

def liveRows (pair : JsString × JsString) (table : OrderedMap JsString ContractRow) : ℕ :=
  table.entries.countP fun entry => entry.2.pair = pair && entry.2.status ≠ .deleted

def ContractRow.counts (row : ContractRow) (pair : JsString × JsString) : ℕ :=
  if row.pair = pair ∧ row.status ≠ .deleted then 1 else 0

section Counts

variable {table : OrderedMap JsString ContractRow} {pair : JsString × JsString} {id : JsString}
  {old row : ContractRow}

theorem countP_liveRows (entries : List (JsString × ContractRow)) :
    (entries.countP fun entry => entry.2.pair = pair && entry.2.status ≠ .deleted) =
      ((entries.filter fun entry => entry.2.pair = pair).countP fun entry =>
        entry.2.status ≠ .deleted) := by
  rw [List.countP_filter]
  apply List.countP_congr
  simp [and_comm]

theorem liveCount_of_mapM {entries : List (JsString × ContractRow)} {existing : List PayContract}
    (read : entries.mapM fromRow = .ok existing) :
    liveCount existing = entries.countP fun entry => entry.2.status ≠ .deleted := by
  induction entries generalizing existing with
  | nil =>
      cases read
      rfl
  | cons entry rest ih =>
      rw [List.mapM_cons] at read
      rcases bind_eq_ok_iff.mp read with ⟨contract, isContract, read⟩
      rcases bind_eq_ok_iff.mp read with ⟨others, areOthers, read⟩
      cases read
      have sameStatus := (fromRow_eq_ok isContract).2.1
      have later := ih areOthers
      rw [liveCount] at later ⊢
      rw [List.filter_cons, List.countP_cons, sameStatus]
      split_ifs with live
      · rw [List.length_cons]
        push_cast
        rw [later]
      · rw [later]
        rfl

theorem liveCount_of_pairRows {existing : List PayContract}
    (read : (pairRows pair table.entries).mapM fromRow = .ok existing) :
    liveCount existing = liveRows pair table := by
  rw [liveCount_of_mapM read, liveRows, countP_liveRows, pairRows,
    (List.perm_insertionSort Listed _).countP_eq]

theorem liveRows_of_agree {hash : JsString → ℤ} {dated : Prop} {zones : Set (JsString × JsString)}
    {later : OrderedMap JsString ContractRow} (inZones : pair ∈ zones)
    (agree : (pairPolicy hash dated).Agree zones table later) :
    liveRows pair later = liveRows pair table := by
  apply OrderedMap.countP_entries_congr
  intro id row counted
  have inPair : row.pair = pair := by
    rw [Bool.and_eq_true, decide_eq_true_eq] at counted
    exact counted.1
  have same := Set.ext_iff.mp (agree pair inZones) (id, row)
  change (later.get? id = some row ∧ row.pair = pair) ↔ (table.get? id = some row ∧ row.pair = pair) at same
  simpa [inPair] using same

theorem liveRows_insert (absent : table.get? id = none) :
    liveRows pair (table.set id row) = liveRows pair table + row.counts pair := by
  rw [liveRows, OrderedMap.countP_entries_set, ← OrderedMap.countP_entries_of_absent absent, liveRows,
    ContractRow.counts]
  simp

theorem liveRows_replace (found : table.get? id = some old) :
    liveRows pair (table.set id row) + old.counts pair = liveRows pair table + row.counts pair := by
  rw [liveRows, OrderedMap.countP_entries_set, liveRows, OrderedMap.countP_entries found,
    ContractRow.counts, ContractRow.counts]
  simp only [Bool.and_eq_true, decide_eq_true_eq]
  omega

end Counts

/-- One audit row with the counts of the committed table before and after the mutation, no change
in other pairs, and a currency that the resolver has called active or that the row had. -/
structure Audits (origin : CallOrigin) (footing : Footing paySchema) (contract : PayContract) :
    Prop where
  entries : ∃ entry, footing.entries = [entry] ∧ entry.operation = origin.call.operation ∧
    entry.candidateId = contract.candidateId ∧ entry.companyId = contract.companyId ∧
    entry.countBefore = liveRows contract.pair footing.table ∧
    entry.countAfter = liveRows contract.pair footing.seen
  others : ∀ pair, pair ≠ contract.pair → liveRows pair footing.seen = liveRows pair footing.table
  currency : origin.call.operation ≠ .remove → ∃ row, footing.seen.get? contract.id = some row ∧
    (origin.Active row.currencyId ∨ ∃ old : ContractRow,
      footing.held.getLast? = some (contract.id, some old) ∧ old.currencyId = row.currencyId)

section Law

variable {origin : CallOrigin} {table : OrderedMap JsString ContractRow} {contract : PayContract}
  {entry : PayContractAudit} {row : ContractRow}
  {held : List (JsString × Option ContractRow)}

theorem counts_other {pair : JsString × JsString} (inPair : row.pair = contract.pair)
    (other : pair ≠ contract.pair) : row.counts pair = 0 := by
  rw [ContractRow.counts, if_neg]
  rintro ⟨same, -⟩
  exact other (same.symm.trans inPair)

theorem counts_live (inPair : row.pair = contract.pair) (live : row.status ≠ .deleted) :
    row.counts contract.pair = 1 := by
  rw [ContractRow.counts, if_pos ⟨inPair, live⟩]

theorem counts_deleted {pair : JsString × JsString} (deleted : row.status = .deleted) :
    row.counts pair = 0 := by
  rw [ContractRow.counts, if_neg fun counted => counted.2 deleted]

theorem seen_single (table : OrderedMap JsString ContractRow) (id : JsString) (row : ContractRow)
    (held : List (JsString × Option ContractRow)) (entries : List PayContractAudit) :
    Footing.seen (⟨held, table, OrderedMap.empty.set id row, entries⟩ : Footing paySchema) =
      table.set id row := rfl

@[simp]
theorem withTerms_currencyId (row : ContractRow) (terms : ContractTerms) :
    (withTerms row terms).currencyId = row.currencyId := by
  cases terms <;> rfl

theorem values_status (contract : PayContract) : (values contract).status = contract.status := by
  rw [values, withTerms_status]

theorem values_currencyId (contract : PayContract) :
    (values contract).currencyId = contract.currencyId := by
  rw [values, withTerms_currencyId]

theorem currencyId_of_fromRow {id : JsString} (read : fromRow (id, row) = .ok contract) :
    contract.currencyId = row.currencyId := by
  rcases bind_eq_ok_iff.mp read with ⟨terms, -, built⟩
  rw [← Except.ok.inj built]

theorem setColumns_currencyId (contract : PayContract) (row : ContractRow) :
    (setColumns contract row).currencyId = contract.currencyId := by
  rw [setColumns, withTerms_currencyId]

structure Names (origin : CallOrigin) (entry : PayContractAudit) (contract : PayContract) (before : ℤ) :
    Prop where
  operation : entry.operation = origin.call.operation
  candidateId : entry.candidateId = contract.candidateId
  companyId : entry.companyId = contract.companyId
  countBefore : entry.countBefore = before

theorem audits_of_insert (names : Names origin entry contract (liveRows contract.pair table))
    (absent : table.get? contract.id = none) (live : contract.status ≠ .deleted)
    (after : entry.countAfter = entry.countBefore + 1)
    (active : origin.Active contract.currencyId) :
    Audits origin ⟨held, table, OrderedMap.empty.set contract.id (values contract), [entry]⟩
      contract where
  entries := by
    refine ⟨entry, rfl, names.operation, names.candidateId, names.companyId, names.countBefore, ?_⟩
    have isLive : (values contract).status ≠ .deleted := by rwa [values_status]
    rw [seen_single, liveRows_insert absent,
      counts_live (values_pair contract) isLive, after, names.countBefore]
    push_cast
    rfl
  others := by
    intro pair other
    rw [seen_single, liveRows_insert absent,
      counts_other (values_pair contract) other]
    rfl
  currency := by
    intro _
    refine ⟨values contract, ?_, .inl (by rwa [values_currencyId])⟩
    rw [seen_single, OrderedMap.get?_set_self]

theorem audits_of_replace (names : Names origin entry contract (liveRows contract.pair table))
    (found : table.get? contract.id = some row) (inPair : row.pair = contract.pair)
    (live : row.status ≠ .deleted)
    (after : entry.countAfter =
      entry.countBefore + if contract.status = .deleted then -1 else 0)
    (currency : origin.call.operation ≠ .remove → origin.Active contract.currencyId ∨
      ∃ old : ContractRow, held.getLast? = some (contract.id, some old) ∧
        old.currencyId = contract.currencyId) :
    Audits origin
      ⟨held, table, OrderedMap.empty.set contract.id (setColumns contract row), [entry]⟩
      contract where
  entries := by
    refine ⟨entry, rfl, names.operation, names.candidateId, names.companyId, names.countBefore, ?_⟩
    have counted := @liveRows_replace table contract.pair _ row (setColumns contract row) found
    rw [counts_live inPair live] at counted
    rw [seen_single, after, names.countBefore]
    have newPair := (setColumns_pair contract row).trans inPair
    split_ifs with deleted
    · rw [counts_deleted ((setColumns_status contract row).trans deleted)] at counted
      omega
    · rw [counts_live newPair (by rwa [setColumns_status])] at counted
      omega
  others := by
    intro pair other
    have counted := @liveRows_replace table pair _ row (setColumns contract row) found
    rw [counts_other inPair other,
      counts_other ((setColumns_pair contract row).trans inPair) other] at counted
    rw [seen_single]
    omega
  currency := by
    intro notRemove
    refine ⟨setColumns contract row, ?_, by rw [setColumns_currencyId]; exact currency notRemove⟩
    rw [seen_single, OrderedMap.get?_set_self]

end Law

/-- What the commit of a call does: it has its audit row, and keeps the contracts apart. -/
def Mutates (hash : JsString → ℤ) (dated : Prop) (origin : CallOrigin) (footing : Footing paySchema)
    (contract : PayContract) : Prop :=
  Audits origin footing contract ∧ (pairPolicy hash dated).KeepsGood footing

section Transactions

variable {hash : JsString → ℤ} {dated : Prop} {origin : CallOrigin}
  {table : OrderedMap JsString ContractRow} {held : List (JsString × Option ContractRow)}
  {actorId id : JsString}

theorem lawful_lockPair {law : Footing paySchema → PayContract → Prop}
    {candidateId storeId : JsString} {rest : List PayContract → SqlProcess PayContract}
    (continues : ∀ later existing, (∀ id ∈ held.map Prod.fst, later.get? id = table.get? id) →
      (pairRows (candidateId, storeId) later.entries).mapM fromRow = .ok existing →
      (pairPolicy hash dated).Lawful law (rest existing) (lockedWith hash (candidateId, storeId))
        ⟨held, later, .empty, []⟩) :
    (pairPolicy hash dated).Lawful law
      ((transactionFor hash (.lockPair candidateId storeId)).bind rest) ∅
      ⟨held, table, .empty, []⟩ := by
  simp only [transactionFor, bind_perform]
  apply lawful_advisoryLock
  intro locked early
  rw [Set.empty_union]
  apply lawful_select
  intro later late
  apply lawful_ofExcept_bind
  intro existing read
  exact continues later existing
    (fun id isHeld => (late.2 id isHeld).trans (early.2 id isHeld)) read

theorem lawful_findLive {law : Footing paySchema → PayContract → Prop} {rest : PayContract → Work}
    (continues : ∀ later current row, later.get? id = some row → fromRow (id, row) = .ok current →
      row.status ≠ .deleted → (pairPolicy hash dated).Lawful law ((rest current).statements hash) ∅
        ⟨[(id, some row)], later, .empty, []⟩) :
    (pairPolicy hash dated).Lawful law
      (Work.statements hash ((PayContracts.findLive id).bind rest)) ∅ ⟨[], table, .empty, []⟩ := by
  simp only [Work.statements, PayContracts.findLive, bind_perform, Process.translate, transactionFor]
  apply lawful_selectForUpdate
  · intro later
    trivial
  · intro later row _ found
    cases read : fromRow (id, row) with
    | error error =>
        simp only [read, ofExcept_error, bind_thrown]
        trivial
    | ok current =>
        simp only [read, ofExcept_ok, bind_returned]
        split_ifs with deleted
        · trivial
        · refine continues later current row found read ?_
          rwa [← (fromRow_eq_ok read).2.1]

theorem lawful_createWork {now : JsString} {fields : NormalizedPayContractCreate}
    (isCreate : origin.call.operation = .create) (active : origin.Active fields.currencyId)
    (lasts : ∃ period, fields.dates.period? = some period) :
    (pairPolicy hash dated).Lawful (Mutates hash dated origin)
      ((PayContracts.createWork actorId fields now).statements hash) ∅ ⟨[], table, .empty, []⟩ := by
  simp only [Work.statements, PayContracts.createWork, bind_eq_bind, bind_call, pure_eq_returned,
    Process.translate, translate_ofExcept_bind]
  apply lawful_lockPair
  intro base existing _ read
  apply lawful_own
  intro first id stands
  apply lawful_ofExcept_bind
  intro _ checked
  simp only [transactionFor, bind_perform, bind_returned]
  apply lawful_insert
  · rw [show (pairPolicy hash dated).zoneOf _ = _ from values_pair _]
    exact mem_lockedWith hash _
  · intro second inserting absent
    apply lawful_append
    intro third appended last atEnd
    have agree := ((stands.1.trans inserting.1).trans appended.1).trans atEnd.1
    have counted := liveRows_of_agree (mem_lockedWith hash (fields.candidateId, fields.storeId)) agree
    rw [liveCount_of_pairRows read]
    refine ⟨?_, ?_⟩
    · apply audits_of_insert ⟨isCreate.symm, rfl, rfl, ?_⟩ ?_ ?_ rfl active
      · exact congrArg Nat.cast counted.symm
      · exact ((atEnd.2 id List.mem_cons_self).trans (appended.2 id List.mem_cons_self)).trans absent
      · simp only [PayContracts.created]
        cases fields.status <;> simp [EditableStatus.toStatus]
    · apply keepsGood_set (values_pair _) (values_dates _) (values_status _)
      · exact fun _ _ => lasts
      · intro _ otherId other found distinct live inPair
        exact clear_of_agree read checked agree found distinct live inPair

theorem lawful_replaced {law : Footing paySchema → PayContract → Prop} {contract : PayContract}
    {row : ContractRow} {entry : PayContractAudit} (found : table.get? contract.id = some row)
    (atEnd : ∀ last, (pairPolicy hash dated).Agree (lockedWith hash contract.pair) table last →
      last.get? contract.id = some row → row.pair = contract.pair →
      law ⟨[(contract.id, some row), (contract.id, some row)], last,
        OrderedMap.empty.set contract.id (setColumns contract row), [entry]⟩ contract) :
    (pairPolicy hash dated).Lawful law
      ((transactionFor hash (.replace contract)).bind fun _ =>
        (transactionFor hash (.audit entry)).bind fun _ => returned contract)
      (lockedWith hash contract.pair) ⟨[(contract.id, some row)], table, .empty, []⟩ := by
  simp only [transactionFor, bind_perform, bind_returned]
  apply lawful_update
  · intro later
    trivial
  · intro first old writing isOld same
    have isRow : old = row := by
      have kept := (writing.2 contract.id List.mem_cons_self).trans found
      exact Option.some.inj (isOld.symm.trans kept)
    have oldPair : row.pair = contract.pair := by
      rw [← isRow]
      exact pair_of_sameParties same
    rw [isRow]
    refine ⟨?_, ?_, ?_⟩
    · rw [show (pairPolicy hash dated).zoneOf row = _ from oldPair]
      exact mem_lockedWith hash contract.pair
    · rw [show (pairPolicy hash dated).zoneOf _ = _ from setColumns_pair _ _, oldPair]
      exact mem_lockedWith hash contract.pair
    · apply lawful_append
      intro second appending last returning
      refine atEnd last ((writing.1.trans appending.1).trans returning.1) ?_ oldPair
      rw [returning.2 contract.id List.mem_cons_self, appending.2 contract.id List.mem_cons_self,
        writing.2 contract.id List.mem_cons_self]
      exact found

theorem lawful_replace_audit {contract : PayContract} {row : ContractRow} {entry : PayContractAudit}
    (found : table.get? contract.id = some row)
    (atEnd : ∀ last, (pairPolicy hash dated).Agree (lockedWith hash contract.pair) table last →
      last.get? contract.id = some row →
      Audits origin ⟨[(contract.id, some row), (contract.id, some row)], last,
        OrderedMap.empty.set contract.id (setColumns contract row), [entry]⟩ contract)
    (lasts : ∀ last : OrderedMap JsString ContractRow, last.get? contract.id = some row →
      (pairPolicy hash dated).Holds last → dated → ∃ period, contract.dates.period? = some period)
    (clear : contract.status ≠ .deleted → ∀ last,
      (pairPolicy hash dated).Agree (lockedWith hash contract.pair) table last →
      ∀ otherId other, last.get? otherId = some other → otherId ≠ contract.id →
        other.status ≠ .deleted → other.pair = contract.pair →
        overlaps other.dates contract.dates = false) :
    (pairPolicy hash dated).Lawful (Mutates hash dated origin)
      ((transactionFor hash (.replace contract)).bind fun _ =>
        (transactionFor hash (.audit entry)).bind fun _ => returned contract)
      (lockedWith hash contract.pair) ⟨[(contract.id, some row)], table, .empty, []⟩ := by
  apply lawful_replaced found
  intro last agree foundLast oldPair
  refine ⟨atEnd last agree foundLast, ?_⟩
  apply keepsGood_set ((setColumns_pair contract row).trans oldPair)
    (setColumns_dates contract row) (setColumns_status contract row)
  · exact lasts last foundLast
  · intro live
    exact clear live last agree

theorem lawful_updateWork {fields : NormalizedPayContractUpdate} {previous : Option JsString}
    (isUpdate : origin.call.operation = .update)
    (active : some fields.currencyId = previous ∨ origin.Active fields.currencyId)
    (lasts : ∃ period, fields.dates.period? = some period) :
    (pairPolicy hash dated).Lawful (Mutates hash dated origin)
      ((PayContracts.updateWork actorId id fields previous).statements hash) ∅
      ⟨[], table, .empty, []⟩ := by
  apply lawful_findLive
  intro first current row found read live
  rcases fromRow_eq_ok read with ⟨rfl, -, -, samePair⟩
  split_ifs with moved
  · trivial
  simp only [Work.statements, bind_eq_bind, bind_call, pure_eq_returned, Process.translate,
    translate_ofExcept_bind]
  apply lawful_lockPair
  intro base existing kept listed
  apply lawful_ofExcept_bind
  intro _ checked
  apply lawful_own
  intro second date asking
  apply lawful_ofExcept_bind
  intro now _
  have foundThen : second.get? (PayContracts.edited current fields now).id = some row :=
    (asking.2 current.id List.mem_cons_self).trans ((kept current.id List.mem_cons_self).trans found)
  apply lawful_replace_audit foundThen
  · intro last agree foundLast
    have counted := liveRows_of_agree (mem_lockedWith hash current.pair) (asking.1.trans agree)
    rw [liveCount_of_pairRows listed]
    apply audits_of_replace ⟨isUpdate.symm, rfl, rfl, congrArg Nat.cast counted.symm⟩ foundLast
      samePair.symm live
    · have stays : (PayContracts.edited current fields now).status ≠ .deleted := by
        simp only [PayContracts.edited]
        cases fields.status <;> simp [EditableStatus.toStatus]
      simp [stays]
    · intro _
      by_cases same : fields.currencyId = current.currencyId
      · refine .inr ⟨row, rfl, ?_⟩
        rw [← currencyId_of_fromRow read, ← same]
        rfl
      · left
        rcases active with isPrevious | active
        · exact absurd ⟨fun isCurrent => same (Option.some.inj (isPrevious.trans isCurrent.symm)), same⟩
            moved
        · exact active
  · exact fun _ _ _ _ => lasts
  · intro _ last agree otherId other found distinct live inPair
    exact clear_of_agree listed checked (asking.1.trans agree) found distinct live inPair

theorem lawful_removeWork (isRemove : origin.call.operation = .remove) :
    (pairPolicy hash dated).Lawful (Mutates hash dated origin)
      ((PayContracts.removeWork actorId id).statements hash) ∅ ⟨[], table, .empty, []⟩ := by
  apply lawful_findLive
  intro first current row found read live
  rcases fromRow_eq_ok read with ⟨rfl, -, sameDates, samePair⟩
  simp only [Work.statements, bind_eq_bind, bind_call, pure_eq_returned, Process.translate,
    translate_ofExcept_bind]
  apply lawful_lockPair
  intro base existing kept listed
  apply lawful_own
  intro second date asking
  apply lawful_ofExcept_bind
  intro now _
  have foundThen : second.get? (PayContracts.removed current now).id = some row :=
    (asking.2 current.id List.mem_cons_self).trans ((kept current.id List.mem_cons_self).trans found)
  apply lawful_replace_audit foundThen
  · intro last agree foundLast
    have counted := liveRows_of_agree (mem_lockedWith hash current.pair) (asking.1.trans agree)
    rw [liveCount_of_pairRows listed]
    apply audits_of_replace ⟨isRemove.symm, rfl, rfl, congrArg Nat.cast counted.symm⟩ foundLast
      samePair.symm live
    · rfl
    · exact fun notRemove => absurd isRemove notRemove
  · intro last foundLast holds isDated
    rw [show (PayContracts.removed current now).dates = row.dates from sameDates]
    exact (holds_iff.mp holds).2 isDated current.id row foundLast
  · intro live
    exact absurd rfl live

theorem startsLawful (hash : JsString → ℤ) :
    (pairPolicy hash dated).StartsLawful (Mutates hash dated) (CallOrigin.statements hash) := by
  intro origin table
  rw [CallOrigin.statements]
  cases handed : origin.outcome.1 with
  | error error => trivial
  | ok work =>
      cases checked_of_outcome handed with
      | create isCreate active lasts => exact lawful_createWork isCreate active lasts
      | update isUpdate active lasts => exact lawful_updateWork isUpdate active lasts
      | remove isRemove => exact lawful_removeWork isRemove

end Transactions

def Chained : ℤ → List PayContractAudit → ℤ → Prop
  | first, [], last => first = last
  | first, entry :: entries, last => entry.countBefore = first ∧ Chained entry.countAfter entries last

def mutationsOf (pair : JsString × JsString)
    (mutations : List (Mutation paySchema PayContract CallOrigin)) :
    List (Mutation paySchema PayContract CallOrigin) :=
  mutations.filter fun mutation => mutation.value.pair = pair

theorem chained_of_linked {pair : JsString × JsString} {first last : OrderedMap JsString ContractRow}
    {mutations : List (Mutation paySchema PayContract CallOrigin)}
    (linked : Linked first mutations last)
    (audits : ∀ mutation ∈ mutations, Audits mutation.origin mutation.footing mutation.value) :
    Chained (liveRows pair first)
      ((mutationsOf pair mutations).flatMap fun mutation => mutation.footing.entries)
      (liveRows pair last) := by
  induction mutations generalizing first with
  | nil =>
      cases linked
      rfl
  | cons mutation mutations ih =>
      rw [List.forall_mem_cons] at audits
      rcases linked with ⟨rfl, linked⟩
      have later := ih linked audits.2
      rw [mutationsOf, List.filter_cons]
      split_ifs with inPair
      · rw [decide_eq_true_eq] at inPair
        subst inPair
        rcases audits.1.entries with ⟨entry, single, -, -, -, before, after⟩
        rw [List.flatMap_cons, single]
        refine ⟨before, ?_⟩
        rw [after]
        exact later
      · rw [decide_eq_true_eq] at inPair
        rw [← audits.1.others pair (Ne.symm inPair)]
        exact later

/-- In every interleaving of calls, each commit has written one audit row with the counts before
and after it and a currency that it has checked; what has been rolled back has written none, and
the audit rows of a pair are a chain. -/
theorem commits_audited (hash : JsString → ℤ) (table : OrderedMap JsString ContractRow)
    (log : List PayContractAudit) (occurrences : List (Occurrence paySchema CallOrigin)) :
    let history : History paySchema Thrown PayContract CallOrigin :=
      (History.start table log).run (CallOrigin.statements hash) occurrences
    history.database =
        Database.run ⟨table, log, .empty⟩
          (occurrences.map (Occurrence.event (CallOrigin.statements hash))) ∧
      history.database.log =
        log ++ history.mutations.flatMap (fun mutation => mutation.footing.entries) ∧
      Linked table history.mutations history.database.table ∧
      (∀ mutation ∈ history.mutations,
        Audits mutation.origin mutation.footing mutation.value) ∧
      ∀ pair, Chained (liveRows pair table)
        ((mutationsOf pair history.mutations).flatMap fun mutation => mutation.footing.entries)
        (liveRows pair history.database.table) := by
  intro history
  have recorded := @recorded_run paySchema _ Thrown PayContract CallOrigin (pairPolicy hash False)
    (Mutates hash False) _ table log _ (startsLawful hash) occurrences
  have audits : ∀ mutation ∈ history.mutations,
      Audits mutation.origin mutation.footing mutation.value :=
    fun mutation mutationMem => (recorded.1.mutations mutation mutationMem).1
  exact ⟨History.database_run occurrences, recorded.2.log, recorded.2.tables, audits,
    fun pair => chained_of_linked recorded.2.tables audits⟩

/-- The programs an event starts are transactions of calls, whose reads before the transaction
may have been answered in any way. -/
def StartsCall (hash : JsString → ℤ) : Concurrency.Event paySchema Thrown PayContract → Prop
  | .start _ process => ∃ (call : PayContracts.Call)
      (answers : (op : CallOp) → Except Thrown op.Answer) (work : Work),
      call.request.run (fun op (_ : Unit) => (answers op, ())) () = (.ok work, ()) ∧
        process = work.statements hash
  | .step .. | .fail _ => True

theorem run_fst {Value : Type} {answers : (op : CallOp) → Except Thrown op.Answer}
    (process : Process CallOp.Answer Thrown Value) (asked : List CallOp) :
    (process.run (fun op asked => (answers op, asked ++ [op])) asked).1 =
      (process.run (fun op (_ : Unit) => (answers op, ())) ()).1 := by
  induction process generalizing asked with
  | returned value => rfl
  | thrown error => rfl
  | perform op next ih =>
      simp only [run]
      cases answers op with
      | ok answer => exact ih answer _
      | error error => rfl

theorem exists_occurrences {hash : JsString → ℤ}
    {events : List (Concurrency.Event paySchema Thrown PayContract)}
    (calls : ∀ event ∈ events, StartsCall hash event) :
    ∃ occurrences, List.map (Occurrence.event (CallOrigin.statements hash)) occurrences = events := by
  induction events with
  | nil => exact ⟨[], rfl⟩
  | cons event events ih =>
      rw [List.forall_mem_cons] at calls
      rcases ih calls.2 with ⟨occurrences, rfl⟩
      cases event with
      | start number process =>
          rcases calls.1 with ⟨call, answers, work, handed, rfl⟩
          have outcome : (CallOrigin.outcome ⟨call, answers⟩).1 = .ok work := by
            rw [CallOrigin.outcome, run_fst, handed]
          refine ⟨.start number ⟨call, answers⟩ :: occurrences, ?_⟩
          rw [List.map_cons, Occurrence.event, CallOrigin.statements, outcome]
      | step number answers => exact ⟨.step number answers :: occurrences, rfl⟩
      | fail number => exact ⟨.fail number :: occurrences, rfl⟩

/-- In every interleaving of transactions of the service, each committed table keeps the
contracts of a candidate and a store apart when the first one does, and in calendar days
when its dates are days. -/
theorem committed_contracts_apart {hash : JsString → ℤ}
    {table : OrderedMap JsString ContractRow} {log : List PayContractAudit}
    {events : List (Concurrency.Event paySchema Thrown PayContract)}
    (apart : RowsApart table) (calls : ∀ event ∈ events, StartsCall hash event) :
    let database : Database paySchema Thrown PayContract := ⟨table, log, .empty⟩
    RowsApart (database.run events).table ∧
      (RowsDated table → RowsDated (database.run events).table ∧
        ∀ id row otherId other period otherPeriod,
          (database.run events).table.get? id = some row →
          (database.run events).table.get? otherId = some other → id ≠ otherId →
          row.status ≠ .deleted → other.status ≠ .deleted → row.pair = other.pair →
          row.dates.period? = some period → other.dates.period? = some otherPeriod →
          Disjoint period.days otherPeriod.days) := by
  intro database
  rcases exists_occurrences calls with ⟨occurrences, rfl⟩
  have recorded := @recorded_run paySchema _ Thrown PayContract CallOrigin
    (pairPolicy hash (RowsDated table)) (Mutates hash (RowsDated table)) _ table log _
    (startsLawful hash) occurrences
  have holds : (pairPolicy hash (RowsDated table)).Holds table := holds_iff.mpr ⟨apart, id⟩
  have stillHolds := holds_of_linked recorded.2.tables
    (fun mutation mutationMem => (recorded.1.mutations mutation mutationMem).2) holds
  have runs : ((History.start table log).run (CallOrigin.statements hash) occurrences).database =
      database.run (occurrences.map (Occurrence.event (CallOrigin.statements hash))) :=
    History.database_run occurrences
  rw [runs] at stillHolds
  rcases holds_iff.mp stillHolds with ⟨stillApart, stillDated⟩
  refine ⟨stillApart, ?_⟩
  intro dated
  refine ⟨stillDated dated, ?_⟩
  intro id row otherId other period otherPeriod found otherFound distinct live otherLive samePair
    lasts otherLasts
  have noOverlap := stillApart id row otherId other found otherFound distinct live otherLive samePair
  rwa [← Bool.not_eq_true, overlaps_iff lasts otherLasts, not_not] at noOverlap

def leapDayPayload : JsValue :=
  .object [(js "candidateId", .string (js "c")), (js "companyId", .string (js "o")),
    (js "storeId", .string (js "s")), (js "startDate", .string (js "2024-02-29")),
    (js "currencyId", .string (js "123e4567-e89b-12d3-a456-426614174000")),
    (js "terms", .object [(js "payModel", .string (js "hourly")),
      (js "candidateHourlyRate", .string (js "5")), (js "companyHourlyRate", .string (js "6.5"))])]

def leapDayPorts : (op : CallOp) → Except Thrown op.Answer
  | .get _ => .ok none
  | .resolve _ => .ok (.resolved (some .active))
  | .now => .ok (timeClip 0)

def leapDayCreate : SqlProcess PayContract :=
  match ((PayContracts.Call.create (.string (js "a")) leapDayPayload).request.run
      (fun op (_ : Unit) => (leapDayPorts op, ())) ()).1 with
  | .ok work => work.statements fun _ => 0
  | .error error => .thrown error

def localAnswers (uuid : JsString) : (op : LocalOp) → op.Answer
  | .randomUUID => uuid
  | .now => timeClip 0

/-- Two sessions create the contract; the second waits for the lock and then finds the first. -/
def leapDayRace : List (Concurrency.Event paySchema Thrown PayContract) :=
  let first := .step 1 (localAnswers (js "f"))
  let second := .step 2 (localAnswers (js "s"))
  [.start 1 leapDayCreate, .start 2 leapDayCreate, first, second, first, first, second, first,
    first, first, second, second, second, second]

theorem committed_contracts_apart_race :
    let database : Database paySchema Thrown PayContract := ⟨.empty, [], .empty⟩
    RowsApart (database.run leapDayRace).table ∧
      (database.run leapDayRace).table.keys = [js "f"] := by
  have starts : StartsCall (fun _ => 0) (.start 1 leapDayCreate) :=
    ⟨.create (.string (js "a")) leapDayPayload, leapDayPorts, _, rfl, rfl⟩
  have calls : ∀ event ∈ leapDayRace, StartsCall (fun _ => 0) event := by
    simp only [leapDayRace, List.forall_mem_cons]
    exact ⟨starts, starts, trivial, trivial, trivial, trivial, trivial, trivial, trivial, trivial,
      trivial, trivial, trivial, trivial, by simp⟩
  exact ⟨(committed_contracts_apart (by simp [RowsApart]) calls).1, by decide +kernel⟩

end StudentHub.Pay
