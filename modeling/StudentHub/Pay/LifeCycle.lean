import StudentHub.Pay.Audited

/-!
# The life of a contract

A contract is created, then it is edited, and at last it is removed; its row stays. However the
sessions are interleaved, the committed transactions on one contract are a run of this life cycle,
and its row is at the stage that the run has come to.
-/

namespace StudentHub.Pay

open Ecma Concurrency Process ZonePolicy

inductive Stage
  | absent
  | live
  | removed

/-- Nothing follows a removal. -/
def Stage.after : Stage → PayContractAuditOperation → Option Stage
  | absent, .create => some live
  | live, .update => some live
  | live, .remove => some removed
  | _, _ => none

theorem Stage.after_removed (operation : PayContractAuditOperation) : removed.after operation = none := by
  cases operation <;> rfl

def stageOf : Option ContractRow → Stage
  | none => .absent
  | some row => if row.status = .deleted then .removed else .live

def ContractRow.lasting (row : ContractRow) : (JsString × JsString) × JsString × JsString :=
  (row.pair, row.companyOrgId, row.createdAt)

/-- The commit of a call writes one row, which goes on in its life cycle. -/
def Moves (origin : CallOrigin) (footing : Footing paySchema) (contract : PayContract) : Prop :=
  ∃ row, footing.seen = footing.table.set contract.id row ∧
    (stageOf (footing.table.get? contract.id)).after origin.call.operation =
      some (stageOf (some row)) ∧
    ∀ old, footing.table.get? contract.id = some old → row.lasting = old.lasting

section Transactions

variable {hash : JsString → ℤ} {origin : CallOrigin} {table : OrderedMap JsString ContractRow}
  {contract : PayContract} {entry : PayContractAudit} {row : ContractRow} {actorId id : JsString}

theorem setColumns_lasting (contract : PayContract) (row : ContractRow) :
    (setColumns contract row).lasting = row.lasting := by
  rw [setColumns]
  cases contract.terms <;> rfl

theorem lawful_moves (found : table.get? contract.id = some row) (live : row.status ≠ .deleted)
    (moved : Stage.live.after origin.call.operation =
      some (if contract.status = .deleted then .removed else .live)) :
    (pairPolicy hash False).Lawful (Moves origin)
      ((transactionFor hash (.replace contract)).bind fun _ =>
        (transactionFor hash (.audit entry)).bind fun _ => returned contract)
      (lockedWith hash contract.pair) ⟨[(contract.id, some row)], table, .empty, []⟩ := by
  apply lawful_replaced found
  intro last _ foundLast _
  refine ⟨setColumns contract row, rfl, ?_, ?_⟩
  · rw [foundLast, stageOf, if_neg live, moved, stageOf, setColumns_status]
  · intro old isOld
    cases foundLast.symm.trans isOld
    exact setColumns_lasting contract row

theorem EditableStatus.toStatus_live (status : EditableStatus) : status.toStatus ≠ .deleted := by
  cases status <;> simp [EditableStatus.toStatus]

theorem createWork_moves {now : JsString} {fields : NormalizedPayContractCreate}
    (isCreate : origin.call.operation = .create) :
    (pairPolicy hash False).Lawful (Moves origin)
      ((PayContracts.createWork actorId fields now).statements hash) ∅ ⟨[], table, .empty, []⟩ := by
  simp only [Work.statements, PayContracts.createWork, bind_eq_bind, bind_call, pure_eq_returned,
    Process.translate, translate_ofExcept_bind]
  apply lawful_lockPair
  intro base existing _ _
  apply lawful_own
  intro first id _
  apply lawful_ofExcept_bind
  intro _ _
  simp only [transactionFor, bind_perform, bind_returned]
  apply lawful_insert
  · rw [show (pairPolicy hash False).zoneOf _ = _ from values_pair _]
    exact mem_lockedWith hash _
  · intro second inserting absent
    apply lawful_append
    intro third appended last atEnd
    have stillAbsent : last.get? id = none :=
      ((atEnd.2 id List.mem_cons_self).trans (appended.2 id List.mem_cons_self)).trans absent
    refine ⟨_, rfl, ?_, ?_⟩
    · have live : (PayContracts.created id fields now).status ≠ .deleted :=
        EditableStatus.toStatus_live fields.status
      rw [show last.get? (PayContracts.created id fields now).id = none from stillAbsent, isCreate,
        stageOf, stageOf, values_status, if_neg live]
      rfl
    · intro old isOld
      cases stillAbsent.symm.trans isOld

theorem updateWork_moves {fields : NormalizedPayContractUpdate} {previous : Option JsString}
    (isUpdate : origin.call.operation = .update) :
    (pairPolicy hash False).Lawful (Moves origin)
      ((PayContracts.updateWork actorId id fields previous).statements hash) ∅
      ⟨[], table, .empty, []⟩ := by
  apply lawful_findLive
  intro first current row found read live
  rcases fromRow_eq_ok read with ⟨rfl, -, -, -⟩
  split_ifs
  · trivial
  simp only [Work.statements, bind_eq_bind, bind_call, pure_eq_returned, Process.translate,
    translate_ofExcept_bind]
  apply lawful_lockPair
  intro base existing kept _
  apply lawful_ofExcept_bind
  intro _ _
  apply lawful_own
  intro second date asking
  apply lawful_ofExcept_bind
  intro now _
  apply lawful_moves ?_ live
  · have stillLive : (PayContracts.edited current fields now).status ≠ .deleted :=
      EditableStatus.toStatus_live fields.status
    rw [isUpdate, if_neg stillLive]
    rfl
  · exact (asking.2 current.id List.mem_cons_self).trans
      ((kept current.id List.mem_cons_self).trans found)

theorem removeWork_moves (isRemove : origin.call.operation = .remove) :
    (pairPolicy hash False).Lawful (Moves origin)
      ((PayContracts.removeWork actorId id).statements hash) ∅ ⟨[], table, .empty, []⟩ := by
  apply lawful_findLive
  intro first current row found read live
  rcases fromRow_eq_ok read with ⟨rfl, -, -, -⟩
  simp only [Work.statements, bind_eq_bind, bind_call, pure_eq_returned, Process.translate,
    translate_ofExcept_bind]
  apply lawful_lockPair
  intro base existing kept _
  apply lawful_own
  intro second date asking
  apply lawful_ofExcept_bind
  intro now _
  apply lawful_moves ?_ live
  · rw [isRemove]
    rfl
  · exact (asking.2 current.id List.mem_cons_self).trans
      ((kept current.id List.mem_cons_self).trans found)

theorem startsMoves (hash : JsString → ℤ) :
    (pairPolicy hash False).StartsLawful Moves (CallOrigin.statements hash) := by
  intro origin table
  rw [CallOrigin.statements]
  cases handed : origin.outcome.1 with
  | error error => trivial
  | ok work =>
      cases checked_of_outcome handed with
      | create isCreate => exact createWork_moves isCreate
      | update isUpdate => exact updateWork_moves isUpdate
      | remove isRemove => exact removeWork_moves isRemove

end Transactions

section Lives

variable {before after : OrderedMap JsString ContractRow}
  {mutations : List (Mutation paySchema PayContract CallOrigin)}

def operationsOn (id : JsString) (mutations : List (Mutation paySchema PayContract CallOrigin)) :
    List PayContractAuditOperation :=
  (mutations.filter fun mutation => mutation.value.id = id).map fun mutation =>
    mutation.origin.call.operation

structure LivesOn (before : OrderedMap JsString ContractRow)
    (mutations : List (Mutation paySchema PayContract CallOrigin))
    (after : OrderedMap JsString ContractRow) : Prop where
  stages : ∀ id, (operationsOn id mutations).foldlM Stage.after (stageOf (before.get? id)) =
    some (stageOf (after.get? id))
  rows : ∀ id old, before.get? id = some old → ∃ row, after.get? id = some row ∧
    row.lasting = old.lasting ∧ (old.status = .deleted → row = old)

theorem livesOn_of_linked (linked : Linked before mutations after)
    (moves : ∀ mutation ∈ mutations, Moves mutation.origin mutation.footing mutation.value) :
    LivesOn before mutations after := by
  induction mutations generalizing before with
  | nil =>
      cases linked
      exact ⟨fun _ => rfl, fun _ old found => ⟨old, found, rfl, fun _ => rfl⟩⟩
  | cons mutation mutations ih =>
      rw [List.forall_mem_cons] at moves
      rcases linked with ⟨rfl, linked⟩
      rcases moves.1 with ⟨row, written, moved, lasting⟩
      have later := ih linked moves.2
      rw [written] at later
      refine ⟨?_, ?_⟩
      · intro id
        have stages := later.stages id
        rw [operationsOn, List.filter_cons]
        split_ifs with same
        · rw [decide_eq_true_eq] at same
          subst same
          rw [OrderedMap.get?_set_self] at stages
          rw [List.map_cons, List.foldlM_cons, moved]
          exact stages
        · rw [decide_eq_true_eq] at same
          rwa [OrderedMap.get?_set_of_ne _ _ (Ne.symm same)] at stages
      · intro id old found
        by_cases same : id = mutation.value.id
        · subst same
          rcases later.rows _ row (OrderedMap.get?_set_self ..) with ⟨last, isLast, lasts, -⟩
          refine ⟨last, isLast, lasts.trans (lasting old found), ?_⟩
          intro deleted
          rw [found, stageOf, if_pos deleted, Stage.after_removed] at moved
          cases moved
        · exact later.rows id old ((OrderedMap.get?_set_of_ne _ _ same).trans found)

end Lives

/-- In every interleaving of calls, what is committed on a contract between two moments is a run of
its life cycle from its stage at the first to its stage at the second, its parties and its creation
time stay, and a removed contract is not changed any more. -/
theorem contracts_live_once (hash : JsString → ℤ) (table : OrderedMap JsString ContractRow)
    (log : List PayContractAudit) (occurrences later : List (Occurrence paySchema CallOrigin)) :
    let history (occurrences : List (Occurrence paySchema CallOrigin)) :
        History paySchema Thrown PayContract CallOrigin :=
      (History.start table log).run (CallOrigin.statements hash) occurrences
    ∃ more, (history (occurrences ++ later)).mutations = (history occurrences).mutations ++ more ∧
      LivesOn (history occurrences).database.table more
        (history (occurrences ++ later)).database.table := by
  intro history
  have recorded := fun occurrences => @recorded_run paySchema _ Thrown PayContract CallOrigin
    (pairPolicy hash False) Moves _ table log _ (startsMoves hash) occurrences
  have grows : (history occurrences).mutations <+: (history (occurrences ++ later)).mutations := by
    simp only [history, History.run, List.foldl_append]
    exact History.mutations_run later
  rcases grows with ⟨more, isMore⟩
  have linked := (recorded (occurrences ++ later)).2.tables
  have moves := (recorded (occurrences ++ later)).1.mutations
  change Linked table (history (occurrences ++ later)).mutations _ at linked
  change ∀ mutation ∈ (history (occurrences ++ later)).mutations, _ at moves
  rw [← isMore] at linked moves
  refine ⟨more, isMore.symm, ?_⟩
  apply livesOn_of_linked (linked.of_append (recorded occurrences).2.tables)
  exact fun mutation mutationMem => moves mutation (List.mem_append_right _ mutationMem)

end StudentHub.Pay
