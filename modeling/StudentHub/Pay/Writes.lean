import StudentHub.Ecma.OrderedMap
import StudentHub.Pay.Contracts

/-!
# What a transaction writes

A transaction of the in-memory store leaves the rows as they are or writes one row:
a new one, one with the fields of a payload, or one that is deleted.
-/

/-!
## The in-memory pay contract store

A transaction works on copies of the rows and of the audit log, which replace the
originals when the work returns. Transactions run one after another, so one of them
is one step; the calls themselves overlap freely, and a call that has handed over
its work waits for its turn.
-/

namespace StudentHub.Pay

open Ecma Concurrency

structure InMemoryPayContractStore where
  rows : OrderedMap JsString PayContract
  auditLog : List PayContractAudit
  failNextAudit : Bool

/-- The candidate's rows, deleted ones included. -/
def InMemoryPayContractStore.listForCandidate (store : InMemoryPayContractStore)
    (candidateId : JsString) : List PayContract :=
  store.rows.values.filter fun row => row.candidateId = candidateId

/-- What the surroundings answer during one step of a call. -/
structure Surroundings where
  reference : ReferenceAnswer
  uuid : JsString
  now : Date

namespace InMemoryPayContractStore

def empty : InMemoryPayContractStore := ⟨.empty, [], false⟩

def operate (around : Surroundings) (op : TxOp) (draft : InMemoryPayContractStore) :
    Except Thrown op.Answer × InMemoryPayContractStore :=
  match op with
  | .lockPair candidateId storeId =>
      (.ok (draft.rows.values.filter fun row =>
        row.candidateId = candidateId && row.storeId = storeId), draft)
  | .find id => (.ok (draft.rows.get? id), draft)
  | .insert contract =>
      if draft.rows.has contract.id then
        (.error (.error (js "duplicate contract id")), draft)
      else
        (.ok (), { draft with rows := draft.rows.set contract.id contract })
  | .replace contract =>
      match draft.rows.get? contract.id with
      | none => (.error (.error (js "contract parties changed")), draft)
      | some current =>
          if current.candidateId ≠ contract.candidateId ∨ current.storeId ≠ contract.storeId ∨
              current.companyId ≠ contract.companyId then
            (.error (.error (js "contract parties changed")), draft)
          else
            (.ok (), { draft with rows := draft.rows.set contract.id contract })
  | .audit entry =>
      if draft.failNextAudit then
        (.error (.error (js "injected audit failure")), { draft with failNextAudit := false })
      else
        (.ok (), { draft with auditLog := draft.auditLog ++ [entry] })
  | .randomUUID => (.ok around.uuid, draft)
  | .now => (.ok around.now, draft)

/-- `transaction`: work that throws leaves the rows and the log; the flag is not a copy. -/
def transaction (store : InMemoryPayContractStore) (around : Surroundings) (work : Work) :
    Except Thrown PayContract × InMemoryPayContractStore :=
  match work.run (operate around) store with
  | (.ok result, draft) => (.ok result, draft)
  | (.error error, draft) => (.error error, { store with failNextAudit := draft.failNextAudit })

def ask (store : InMemoryPayContractStore) (around : Surroundings) (op : CallOp) :
    Unit → Except Thrown op.Answer × Unit :=
  match op with
  | .get id => fun _ => (.ok (store.rows.get? id), ())
  | .resolve _ => fun _ => (.ok around.reference, ())
  | .now => fun _ => (.ok around.now, ())

/-- A call until it hands over its work or throws. -/
def request (store : InMemoryPayContractStore) (around : Surroundings) (request : Request) :
    Except Thrown Work :=
  (request.run (store.ask around) ()).1

end InMemoryPayContractStore

structure PaySession where
  store : InMemoryPayContractStore
  waiting : List Work

namespace PaySession

def empty : PaySession := ⟨.empty, []⟩

inductive Event
  | call (call : PayContracts.Call) (around : Surroundings)
  | turn (index : ℕ) (around : Surroundings)
  | failNextAudit

def next (session : PaySession) : Event → PaySession
  | .call call around =>
      match session.store.request around call.request with
      | .ok work => { session with waiting := session.waiting ++ [work] }
      | .error _ => session
  | .turn index around =>
      match session.waiting[index]? with
      | some work =>
          { store := (session.store.transaction around work).2
            waiting := session.waiting.eraseIdx index }
      | none => session
  | .failNextAudit => { session with store := { session.store with failNextAudit := true } }

def run (session : PaySession) (events : List Event) : PaySession :=
  events.foldl next session

end PaySession

end StudentHub.Pay

namespace StudentHub.Pay

open Ecma Concurrency Process InMemoryPayContractStore

section Operations

variable {around : Surroundings} {store after : InMemoryPayContractStore}

theorem operate_lockPair {candidateId storeId : JsString} {existing : List PayContract}
    (answered : operate around (.lockPair candidateId storeId) store = (.ok existing, after)) :
    existing = (store.rows.values.filter fun row =>
      row.candidateId = candidateId && row.storeId = storeId) ∧ after = store := by
  simp only [operate, Prod.mk.injEq, Except.ok.injEq] at answered
  exact ⟨answered.1.symm, answered.2.symm⟩

theorem operate_insert {contract : PayContract}
    (answered : operate around (.insert contract) store = (.ok (), after)) :
    store.rows.get? contract.id = none ∧
      after.rows = store.rows.set contract.id contract := by
  simp only [operate] at answered
  split_ifs at answered with present
  · simp at answered
  · rw [OrderedMap.has, Bool.not_eq_true, Option.isSome_eq_false_iff, Option.isNone_iff_eq_none]
      at present
    exact ⟨present, by rw [← (Prod.mk.inj answered).2]⟩

theorem operate_replace {contract : PayContract}
    (answered : operate around (.replace contract) store = (.ok (), after)) :
    (∃ current, store.rows.get? contract.id = some current ∧
      contract.candidateId = current.candidateId ∧ contract.companyId = current.companyId ∧
        contract.storeId = current.storeId) ∧
      after.rows = store.rows.set contract.id contract := by
  simp only [operate] at answered
  split at answered
  · simp at answered
  · rename_i current found
    split_ifs at answered with changed
    · simp at answered
    · simp only [not_or, not_not] at changed
      exact ⟨⟨current, found, changed.1.symm, changed.2.2.symm, changed.2.1.symm⟩,
        by rw [← (Prod.mk.inj answered).2]⟩

theorem operate_audit {entry : PayContractAudit}
    (answered : operate around (.audit entry) store = (.ok (), after)) :
    after.rows = store.rows := by
  simp only [operate] at answered
  split_ifs at answered
  · simp at answered
  · rw [← (Prod.mk.inj answered).2]

theorem run_findLive_bind {id : JsString} {rest : PayContract → Work} {result : PayContract}
    (ran : ((PayContracts.findLive id).bind rest).run (operate around) store =
      (.ok result, after)) :
    ∃ current, store.rows.get? id = some current ∧
      (rest current).run (operate around) store = (.ok result, after) := by
  rcases run_perform_ok ran with ⟨found, _, findAnswer, ran⟩
  simp only [operate, Prod.mk.injEq, Except.ok.injEq] at findAnswer
  rcases findAnswer with ⟨rfl, rfl⟩
  cases found : store.rows.get? id with
  | none => simp [found, run] at ran
  | some current =>
    simp only [found] at ran
    split_ifs at ran
    · simp [run] at ran
    · exact ⟨current, rfl, ran⟩

end Operations

section Transactions

variable {around : Surroundings} {store : InMemoryPayContractStore}

/-- The rows that `lockPair` lists. -/
def lockedPair (rows : OrderedMap JsString PayContract) (contract : PayContract) :
    List PayContract :=
  rows.values.filter fun row =>
    row.candidateId = contract.candidateId && row.storeId = contract.storeId

/-- The transaction leaves the rows or writes one of the possible rows under its id. -/
def Writes (store : InMemoryPayContractStore) (around : Surroundings) (work : Work)
    (possible : PayContract → Prop) : Prop :=
  (store.transaction around work).2.rows = store.rows ∨
    ∃ row, possible row ∧ (store.transaction around work).2.rows = store.rows.set row.id row

theorem writes_of_returns {work : Work} {possible : PayContract → Prop}
    (returns : ∀ result draft, work.run (operate around) store = (.ok result, draft) →
      ∃ row, possible row ∧ draft.rows = store.rows.set row.id row) :
    Writes store around work possible := by
  rw [Writes, transaction]
  split
  · rename_i result draft ran
    exact .inr (returns result draft ran)
  · exact .inl rfl

def Replaces (rows : OrderedMap JsString PayContract) (contract : PayContract) : Prop :=
  ∃ replaced, rows.get? contract.id = some replaced ∧
    contract.candidateId = replaced.candidateId ∧ contract.companyId = replaced.companyId ∧
    contract.storeId = replaced.storeId

theorem createWork_writes {actorId now : JsString} {fields : NormalizedPayContractCreate} :
    Writes store around (PayContracts.createWork actorId fields now) fun row =>
      ∃ id, row = PayContracts.created id fields now ∧ store.rows.get? row.id = none ∧
        assertNoOverlap (lockedPair store.rows row) row.id row.dates = .ok () := by
  apply writes_of_returns
  intro result draft ran
  simp only [PayContracts.createWork, bind_eq_bind, bind_call, pure_eq_returned] at ran
  rcases run_perform_ok ran with ⟨existing, locked, lockAnswer, ran⟩
  rcases operate_lockPair lockAnswer with ⟨rfl, rfl⟩
  rcases run_perform_ok ran with ⟨id, _, uuidAnswer, ran⟩
  rcases Prod.mk.inj uuidAnswer with ⟨-, rfl⟩
  rcases run_ofExcept_bind_ok ran with ⟨_, checked, ran⟩
  rcases run_perform_ok ran with ⟨_, written, insertAnswer, ran⟩
  rcases operate_insert insertAnswer with ⟨absent, writtenRows⟩
  rcases run_perform_ok ran with ⟨_, audited, auditAnswer, ran⟩
  rcases run_returned_ok ran with ⟨-, rfl⟩
  exact ⟨_, ⟨id, rfl, absent, checked⟩, (operate_audit auditAnswer).trans writtenRows⟩

theorem updateWork_writes {actorId id : JsString} {fields : NormalizedPayContractUpdate}
    {previous : Option JsString} :
    Writes store around (PayContracts.updateWork actorId id fields previous) fun row =>
      ∃ current now, row = PayContracts.edited current fields now ∧
        store.rows.get? id = some current ∧ Replaces store.rows row ∧
        assertNoOverlap (lockedPair store.rows row) id row.dates = .ok () := by
  apply writes_of_returns
  intro result draft ran
  rcases run_findLive_bind ran with ⟨current, found, ran⟩
  split_ifs at ran
  · simp [run] at ran
  simp only [bind_eq_bind, bind_call, pure_eq_returned] at ran
  rcases run_perform_ok ran with ⟨existing, _, lockAnswer, ran⟩
  rcases operate_lockPair lockAnswer with ⟨rfl, rfl⟩
  rcases run_ofExcept_bind_ok ran with ⟨_, checked, ran⟩
  rcases run_perform_ok ran with ⟨date, _, nowAnswer, ran⟩
  rcases Prod.mk.inj nowAnswer with ⟨-, rfl⟩
  rcases run_ofExcept_bind_ok ran with ⟨now, -, ran⟩
  rcases run_perform_ok ran with ⟨_, written, replaceAnswer, ran⟩
  rcases operate_replace replaceAnswer with ⟨replaces, writtenRows⟩
  rcases run_perform_ok ran with ⟨_, audited, auditAnswer, ran⟩
  rcases run_returned_ok ran with ⟨-, rfl⟩
  exact ⟨_, ⟨current, now, rfl, found, replaces, checked⟩,
    (operate_audit auditAnswer).trans writtenRows⟩

theorem removeWork_writes {actorId id : JsString} :
    Writes store around (PayContracts.removeWork actorId id) fun row =>
      ∃ current now, row = PayContracts.removed current now ∧
        store.rows.get? id = some current ∧ Replaces store.rows row := by
  apply writes_of_returns
  intro result draft ran
  rcases run_findLive_bind ran with ⟨current, found, ran⟩
  simp only [bind_eq_bind, bind_call, pure_eq_returned] at ran
  rcases run_perform_ok ran with ⟨existing, _, lockAnswer, ran⟩
  rcases operate_lockPair lockAnswer with ⟨-, rfl⟩
  rcases run_perform_ok ran with ⟨date, _, nowAnswer, ran⟩
  rcases Prod.mk.inj nowAnswer with ⟨-, rfl⟩
  rcases run_ofExcept_bind_ok ran with ⟨now, -, ran⟩
  rcases run_perform_ok ran with ⟨_, written, replaceAnswer, ran⟩
  rcases operate_replace replaceAnswer with ⟨replaces, writtenRows⟩
  rcases run_perform_ok ran with ⟨_, audited, auditAnswer, ran⟩
  rcases run_returned_ok ran with ⟨-, rfl⟩
  exact ⟨_, ⟨current, now, rfl, found, replaces⟩, (operate_audit auditAnswer).trans writtenRows⟩

end Transactions

structure KeptByWrites (good : PayContract → Prop) : Prop where
  created : ∀ {input : JsValue} {fields : NormalizedPayContractCreate} (id now : JsString),
    normalizePayContractCreate input = .ok fields → good (PayContracts.created id fields now)
  edited : ∀ {input : JsValue} {fields : NormalizedPayContractUpdate} (current : PayContract)
    (now : JsString), normalizePayContractUpdate input = .ok fields →
      good (PayContracts.edited current fields now)
  removed : ∀ {current : PayContract} (now : JsString), good current →
    good (PayContracts.removed current now)

structure RowsSession (good : PayContract → Prop) (session : PaySession) : Prop where
  rows : ∀ id row, session.store.rows.get? id = some row → good row
  waiting : ∀ work ∈ session.waiting, Requested work

section Runs

variable {good : PayContract → Prop}

theorem rows_set {rows : OrderedMap JsString PayContract}
    (allGood : ∀ id row, rows.get? id = some row → good row) {contract : PayContract}
    (contractGood : good contract) :
    ∀ id row, (rows.set contract.id contract).get? id = some row → good row := by
  intro id row found
  rw [OrderedMap.get?_set] at found
  split_ifs at found with here
  · rwa [← Option.some.inj found]
  · exact allGood id row found

theorem rows_transaction (kept : KeptByWrites good) {work : Work} (requested : Requested work)
    {store : InMemoryPayContractStore} {around : Surroundings}
    (allGood : ∀ id row, store.rows.get? id = some row → good row) :
    ∀ id row, (store.transaction around work).2.rows.get? id = some row → good row := by
  have written : ∀ possible, Writes store around work possible →
      (∀ row, possible row → good row) →
      ∀ id row, (store.transaction around work).2.rows.get? id = some row → good row := by
    intro possible writes possibleGood
    rcases writes with unchanged | ⟨row, isPossible, written⟩
    · rwa [unchanged]
    · rw [written]
      exact rows_set allGood (possibleGood row isPossible)
  cases requested with
  | create accepted =>
    apply written _ createWork_writes
    rintro row ⟨id, rfl, -, -⟩
    exact kept.created _ _ accepted
  | update accepted =>
    apply written _ updateWork_writes
    rintro row ⟨current, now, rfl, -, -, -⟩
    exact kept.edited _ _ accepted
  | remove =>
    apply written _ removeWork_writes
    rintro row ⟨current, now, rfl, found, -⟩
    exact kept.removed _ (allGood _ current found)

theorem rowsSession_next (kept : KeptByWrites good) {session : PaySession}
    (allGood : RowsSession good session) (event : PaySession.Event) :
    RowsSession good (session.next event) := by
  rcases allGood with ⟨rows, waiting⟩
  cases event with
  | call call around =>
    simp only [PaySession.next]
    split
    · rename_i work handed
      refine ⟨rows, ?_⟩
      intro other otherMem
      rcases List.mem_append.mp otherMem with already | new
      · exact waiting other already
      · rw [List.mem_singleton.mp new]
        exact requested_of_request (Prod.ext handed rfl)
    · exact ⟨rows, waiting⟩
  | turn index around =>
    simp only [PaySession.next]
    split
    · rename_i work atIndex
      refine ⟨rows_transaction kept (waiting work (List.mem_of_getElem? atIndex)) rows, ?_⟩
      intro other otherMem
      exact waiting other (List.mem_of_mem_eraseIdx otherMem)
    · exact ⟨rows, waiting⟩
  | failNextAudit => exact ⟨rows, waiting⟩

theorem rowsSession_run (kept : KeptByWrites good) (events : List PaySession.Event) :
    RowsSession good (PaySession.empty.run events) := by
  have general : ∀ session, RowsSession good session → RowsSession good (session.run events) := by
    induction events with
    | nil => exact fun _ allGood => allGood
    | cons event rest later =>
      intro session allGood
      exact later _ (rowsSession_next kept allGood event)
  apply general
  exact ⟨by simp [PaySession.empty, InMemoryPayContractStore.empty], by simp [PaySession.empty]⟩

end Runs

end StudentHub.Pay
