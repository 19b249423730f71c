import StudentHub.PushBroker.PushExactSha

/-!
# What a call may send

The journal is created once, and what it holds since fits the record that it was created for,
except that a mark may have lost the binding. A push is sent by a call that has validated its
result and then looked at the remote, and an ordinary push only by the call that created the
journal.
-/

namespace StudentHub.PushBroker

open Ecma JsString Concurrency Process Discipline

variable {host : BrokerHost} {me : ℕ} {broker : Broker} {options : PushOptions}
  {cwd resultSha : JsString}

/-- The record has the result and the branch of the one that the journal was created for, and
its binding or none. -/
structure Fits (created record : PushRecord) : Prop where
  result : record.resultSha = created.resultSha
  branch : record.branch = created.branch
  binding : record.binding = created.binding ∨ record.binding = none

def BrokerOp.isOrdinaryPush : BrokerOp → Bool
  | push options _ _ => !options.recovering
  | _ => false

def BrokerOp.dropsBinding : BrokerOp → Bool
  | writeJournal _ record => record.binding.isNone
  | durableMark record => record.binding.isNone
  | _ => false

def Broker.ordinaryPushes (broker : Broker) : List Deed :=
  broker.history.filter fun deed => deed.op.isOrdinaryPush

def Broker.isSpoiled (broker : Broker) : Bool := broker.history.any fun deed => deed.op.dropsBinding

def validation (me : ℕ) (options : PushOptions) (resultSha : JsString) : List Deed :=
  [if options.workspaceReady then ⟨me, .snapshot, some resultSha⟩
    else ⟨me, .cleanTree resultSha, true⟩,
   ⟨me, .readHead, some (expectedHead options resultSha)⟩,
   ⟨me, .isAncestor options.targetSha resultSha, true⟩]

def Validated (me : ℕ) (options : PushOptions) (resultSha : JsString) (broker : Broker) : Prop :=
  (validation me options resultSha).Sublist broker.history

/-- The call has validated its result and then read the remote with this answer. -/
def Looked (me : ℕ) (options : PushOptions) (resultSha : JsString) (existing : Option PushRecord)
    (remote : RemoteHead) (broker : Broker) : Prop :=
  (⟨me, .lsRemote options resultSha existing, remote⟩ :: validation me options resultSha).Sublist
    broker.history

/-- The call has validated its result and then read the remote, which showed the result. -/
def Shown (me : ℕ) (options : PushOptions) (resultSha : JsString) (broker : Broker) : Prop :=
  (∃ existing, Looked me options resultSha existing (.head resultSha) broker) ∨
    (⟨me, .confirmHead options, .head resultSha⟩ ::
      validation me options resultSha).Sublist broker.history

structure Sendable (host : BrokerHost) (me : ℕ) (options : PushOptions) (cwd resultSha : JsString)
    (broker : Broker) : Prop where
  journaled : ∃ creator record, broker.created = [(creator, record)] ∧
    binds host options cwd resultSha record ∧ (options.recovering = false → creator = me)
  looked : ∃ existing remote, Looked me options resultSha existing remote broker ∧
    (remote = .head options.targetSha ∨ remote = .absent ∧ options.recovering = false)
  first : options.recovering = false → broker.ordinaryPushes = []

inductive Orderly (broker : Broker) : Prop
  | fresh (journal : broker.journal = none) (created : broker.created = [])
      (pushes : broker.ordinaryPushes = [])
  | journaled {file : JournalFile} {creator : ℕ} {record : PushRecord}
      (journal : broker.journal = some file) (created : broker.created = [(creator, record)])
      (content : ∀ written, file.content = some written →
        Fits record written ∧ (written.binding = none → broker.isSpoiled))
      (single : broker.ordinaryPushes.length ≤ 1)
      (own : ∀ deed ∈ broker.ordinaryPushes, deed.task = creator)

def Writable (record : PushRecord) (broker : Broker) : Prop :=
  ∃ creator original, broker.created = [(creator, original)] ∧ Fits original record

def Allowed (host : BrokerHost) (me : ℕ) : BrokerOp → Broker → Prop
  | .writeJournal _ record, broker => Writable record broker
  | .truncateJournal, broker => broker.created ≠ []
  | .durableMark record, broker => Writable record broker
  | .push options cwd resultSha, broker => Sendable host me options cwd resultSha broker
  | _, _ => True

theorem history_perform (given : Given) (op : BrokerOp) :
    (broker.perform me given op).2.history = broker.history := by
  cases op <;> simp only [Broker.perform] <;> (repeat' split) <;> rfl

theorem history_handle (given : Given) (op : BrokerOp) : (handle me op given broker).2.history =
    ⟨me, op, (handle me op given broker).1⟩ :: broker.history := by
  simp only [handle, history_perform]

inductive Changes (me : ℕ) (op : BrokerOp) (before after : Broker) : Prop
  | same (journal : after.journal = before.journal) (created : after.created = before.created)
  | creates {record : PushRecord} (isCreation : op = .createJournal record)
      (absent : before.journal = none) (journal : after.journal = some ⟨before.inodes, none⟩)
      (created : after.created = (me, record) :: before.created)
  | writes {file : JournalFile} {content : Option PushRecord} (present : before.journal = some file)
      (journal : after.journal = some { file with content })
      (created : after.created = before.created)
      (written : ∀ record, content = some record → ∃ inode, op = .writeJournal inode record)
  | replaces {record : PushRecord} (isMark : op = .durableMark record)
      (journal : after.journal = some ⟨before.inodes, some record⟩)
      (created : after.created = before.created)
  | truncates (isTruncation : op = .truncateJournal) (absent : before.journal = none)
      (journal : after.journal = some ⟨before.inodes, none⟩)
      (created : after.created = before.created)

theorem changes_createJournal (given : Given) (record : PushRecord) :
    Changes me (.createJournal record) broker (broker.perform me given (.createJournal record)).2 := by
  cases absent : broker.journal with
  | some file =>
      refine .same ?_ ?_ <;> simp only [Broker.perform, absent]
  | none =>
      cases lands : given.lands with
      | false => refine .same ?_ ?_ <;> simp [Broker.perform, absent, lands]
      | true => refine .creates rfl absent ?_ ?_ <;> simp [Broker.perform, absent, lands, Broker.replace]

theorem changes_writeJournal (given : Given) (inode : ℕ) (record : PushRecord) :
    Changes me (.writeJournal inode record) broker
      (broker.perform me given (.writeJournal inode record)).2 := by
  simp only [Broker.perform]
  split_ifs
  · cases present : broker.journal with
    | none => refine .same ?_ rfl; simp only [Broker.write, present, Option.map_none]
    | some file =>
        by_cases same : file.inode = inode
        · have written : (broker.write inode (some record)).journal =
              some { file with content := some record } := by
            simp only [Broker.write, present, Option.map_some, if_pos same]
          refine .writes present written rfl ?_
          intro written isWritten
          cases isWritten
          exact ⟨inode, rfl⟩
        · refine .same ?_ rfl
          simp only [Broker.write, present, Option.map_some, if_neg same]
  · exact .same rfl rfl

theorem changes_truncateJournal (given : Given) :
    Changes me .truncateJournal broker (broker.perform me given .truncateJournal).2 := by
  cases present : broker.journal with
  | none =>
      cases lands : given.lands with
      | false => refine .same ?_ ?_ <;> simp [Broker.perform, present, lands]
      | true =>
          refine .truncates rfl present ?_ ?_ <;>
            simp [Broker.perform, present, lands, Broker.replace]
  | some file =>
      cases lands : given.lands with
      | false => refine .same ?_ ?_ <;> simp [Broker.perform, present, lands]
      | true =>
          have truncated : (broker.perform me given .truncateJournal).2.journal =
              some { file with content := none } := by
            simp [Broker.perform, present, lands, Broker.write]
          refine .writes present truncated ?_ nofun
          simp [Broker.perform, present, lands, Broker.write]

theorem changes_handle (me : ℕ) (broker : Broker) (given : Given) (op : BrokerOp) :
    Changes me op broker (handle me op given broker).2 := by
  have performed : Changes me op broker (broker.perform me given op).2 := by
    cases op with
    | createJournal record => exact changes_createJournal given record
    | writeJournal inode record => exact changes_writeJournal given inode record
    | truncateJournal => exact changes_truncateJournal given
    | durableMark record =>
        simp only [Broker.perform]
        split_ifs
        · exact .replaces rfl rfl rfl
        · exact .same rfl rfl
    | push options cwd resultSha =>
        simp only [Broker.perform]
        split_ifs <;> exact .same rfl rfl
    | _ => exact .same rfl rfl
  cases performed with
  | same journal created => exact .same journal created
  | creates isCreation absent journal created =>
      exact .creates isCreation absent journal created
  | writes present journal created written =>
      exact .writes present journal created written
  | replaces isMark journal created => exact .replaces isMark journal created
  | truncates isTruncation absent journal created =>
      exact .truncates isTruncation absent journal created

theorem ordinaryPushes_handle (given : Given) (op : BrokerOp) :
    (handle me op given broker).2.ordinaryPushes = if op.isOrdinaryPush then
      ⟨me, op, (handle me op given broker).1⟩ :: broker.ordinaryPushes
      else broker.ordinaryPushes := by
  simp only [Broker.ordinaryPushes, history_handle, List.filter_cons]

theorem isSpoiled_handle (given : Given) (op : BrokerOp) :
    (handle me op given broker).2.isSpoiled = (op.dropsBinding || broker.isSpoiled) := by
  simp only [Broker.isSpoiled, history_handle, List.any_cons]

theorem ordinaryPushes_keeps {creator : ℕ} {record : PushRecord} (given : Given) {op : BrokerOp}
    (allowed : Allowed host me op broker) (created : broker.created = [(creator, record)])
    (single : broker.ordinaryPushes.length ≤ 1)
    (own : ∀ deed ∈ broker.ordinaryPushes, deed.task = creator) :
    (handle me op given broker).2.ordinaryPushes.length ≤ 1 ∧
      ∀ deed ∈ (handle me op given broker).2.ordinaryPushes, deed.task = creator := by
  rw [ordinaryPushes_handle]
  split_ifs with isPush
  · cases op with
    | push options cwd resultSha =>
        have ordinary : options.recovering = false := by
          simpa only [BrokerOp.isOrdinaryPush, Bool.not_eq_true'] using isPush
        have sendable : Sendable host me options cwd resultSha broker := allowed
        rcases sendable.journaled with ⟨_, _, isCreated, -, isMe⟩
        rw [created, List.cons.injEq, Prod.mk.injEq] at isCreated
        rw [sendable.first ordinary]
        refine ⟨le_refl 1, ?_⟩
        intro deed isMem
        rw [List.mem_singleton.mp isMem]
        exact (isMe ordinary).symm.trans isCreated.1.1.symm
    | _ => cases isPush
  · exact ⟨single, own⟩

theorem orderly_handle (given : Given) (op : BrokerOp) (orderly : Orderly broker)
    (allowed : Allowed host me op broker) : Orderly (handle me op given broker).2 := by
  have spoils : ∀ {written : PushRecord}, (written.binding = none → broker.isSpoiled) →
      written.binding = none → (handle me op given broker).2.isSpoiled := by
    intro written spoiled isLost
    rw [isSpoiled_handle, spoiled isLost, Bool.or_true]
  cases orderly with
  | fresh absent empty none =>
      have noPush : (handle me op given broker).2.ordinaryPushes = [] := by
        rw [ordinaryPushes_handle, none]
        split_ifs with isPush
        · cases op with
          | push options cwd resultSha =>
              rcases (show Sendable host me options cwd resultSha broker from allowed).journaled with
                ⟨_, _, isCreated, -⟩
              rw [empty] at isCreated
              cases isCreated
          | _ => cases isPush
        · rfl
      cases changes_handle me broker given op with
      | same journal created => exact .fresh (journal.trans absent) (created.trans empty) noPush
      | creates _ _ journal created =>
          rw [empty] at created
          refine .journaled journal created nofun ?_ ?_
          · simp only [noPush, List.length_nil, Nat.zero_le]
          · simp only [noPush, List.not_mem_nil, false_imp_iff, implies_true]
      | writes present => cases absent.symm.trans present
      | replaces isMark =>
          subst isMark
          rcases allowed with ⟨_, _, isCreated, -⟩
          rw [empty] at isCreated
          cases isCreated
      | truncates isTruncation =>
          subst isTruncation
          exact absurd empty allowed
  | journaled present isCreated content single own =>
      have pushes := ordinaryPushes_keeps given allowed isCreated single own
      cases changes_handle me broker given op with
      | same journal created =>
          refine .journaled (journal.trans present) (created.trans isCreated) ?_
            pushes.1 pushes.2
          intro written isWritten
          exact ⟨(content written isWritten).1, spoils (content written isWritten).2⟩
      | creates _ absent => cases absent.symm.trans present
      | writes wasPresent journal created written =>
          cases present.symm.trans wasPresent
          refine .journaled journal (created.trans isCreated) ?_ pushes.1 pushes.2
          intro record isRecord
          rcases written record isRecord with ⟨_, rfl⟩
          rcases allowed with ⟨_, _, same, fits⟩
          rw [isCreated, List.cons.injEq, Prod.mk.injEq] at same
          refine ⟨same.1.2 ▸ fits, ?_⟩
          intro isLost
          simp only [isSpoiled_handle, BrokerOp.dropsBinding, isLost, Option.isNone_none, Bool.true_or]
      | replaces isMark journal created =>
          subst isMark
          refine .journaled journal (created.trans isCreated) ?_
            pushes.1 pushes.2
          intro record isRecord
          cases isRecord
          rcases allowed with ⟨_, _, same, fits⟩
          rw [isCreated, List.cons.injEq, Prod.mk.injEq] at same
          refine ⟨same.1.2 ▸ fits, ?_⟩
          intro isLost
          simp only [isSpoiled_handle, BrokerOp.dropsBinding, isLost, Option.isNone_none, Bool.true_or]
      | truncates _ absent => cases absent.symm.trans present

def brokering (host : BrokerHost) : Discipline handle where
  Allowed := Allowed host
  Invariant := Orderly
  keeps _ op given _ orderly allowed := orderly_handle given op orderly allowed

theorem lasting_sublist (deeds : List Deed) :
    (brokering host).Lasting fun broker => deeds.Sublist broker.history := by
  intro other op given broker _ _ _ happened
  rw [history_handle]
  exact happened.cons _

theorem lasting_created (created : List (ℕ × PushRecord)) :
    (brokering host).Lasting fun broker => broker.created = created ∧ created ≠ [] := by
  rintro other op given broker - orderly - ⟨isCreated, isSome⟩
  cases changes_handle other broker given op with
  | creates _ absent =>
      cases orderly with
      | fresh _ empty => exact absurd (isCreated.symm.trans empty) isSome
      | journaled present => cases absent.symm.trans present
  | same _ created => exact ⟨created.trans isCreated, isSome⟩
  | writes _ _ created => exact ⟨created.trans isCreated, isSome⟩
  | replaces _ _ created => exact ⟨created.trans isCreated, isSome⟩
  | truncates _ _ _ created => exact ⟨created.trans isCreated, isSome⟩

def CreatedFor (known : ℕ → PushRecord → Prop) (broker : Broker) : Prop :=
  ∃ creator record, broker.created = [(creator, record)] ∧ known creator record

theorem lasting_createdFor (known : ℕ → PushRecord → Prop) :
    (brokering host).Lasting (CreatedFor known) := by
  rintro other op given broker isTask orderly allowed ⟨creator, record, isCreated, isKnown⟩
  exact ⟨creator, record, (lasting_created _ other op given broker isTask orderly allowed
    ⟨isCreated, nofun⟩).1, isKnown⟩

theorem lasting_looked (existing : Option PushRecord) (remote : RemoteHead) :
    (brokering host).Lasting (Looked me options resultSha existing remote) :=
  lasting_sublist _

theorem lasting_shown : (brokering host).Lasting (Shown me options resultSha) := by
  rintro other op given broker isTask orderly allowed (⟨existing, looked⟩ | confirmed)
  · exact Or.inl ⟨existing, lasting_looked existing _ other op given broker isTask orderly allowed looked⟩
  · exact Or.inr (lasting_sublist _ other op given broker isTask orderly allowed confirmed)

theorem sendable_handle {other : ℕ} {op : BrokerOp} (given : Given) (orderly : Orderly broker)
    (allowed : Allowed host other op broker) (quiet : op.isOrdinaryPush = false)
    (sendable : Sendable host me options cwd resultSha broker) :
    Sendable host me options cwd resultSha (handle other op given broker).2 := by
  rcases sendable with ⟨journaled, ⟨existing, remote, looked, isHead⟩, first⟩
  refine ⟨lasting_createdFor _ other op given broker trivial orderly allowed journaled, ⟨existing, remote,
    lasting_looked _ _ other op given broker trivial orderly allowed looked, isHead⟩, ?_⟩
  intro ordinary
  rw [ordinaryPushes_handle, quiet, first ordinary]
  rfl

theorem stable_sendable : (brokering host).Stable me (Sendable host me options cwd resultSha) := by
  intro other op given broker different orderly allowed sendable
  cases quiet : op.isOrdinaryPush with
  | false => exact sendable_handle given orderly allowed quiet sendable
  | true =>
      cases op with
      | push otherOptions otherCwd otherSha =>
          have otherSendable : Sendable host other otherOptions otherCwd otherSha broker := allowed
          have otherOrdinary : otherOptions.recovering = false := by
            simpa only [BrokerOp.isOrdinaryPush, Bool.not_eq_true'] using quiet
          rcases sendable.journaled with ⟨_, _, created, -, isMine⟩
          rcases otherSendable.journaled with ⟨_, _, again, -, isTheirs⟩
          rw [created, List.cons.injEq, Prod.mk.injEq] at again
          refine ⟨lasting_createdFor _ other _ given broker trivial orderly allowed sendable.journaled,
            ?_, ?_⟩
          · rcases sendable.looked with ⟨existing, remote, looked, isHead⟩
            exact ⟨existing, remote,
              lasting_looked _ _ other _ given broker trivial orderly allowed looked, isHead⟩
          · intro ordinary
            exact absurd ((isTheirs otherOrdinary).symm.trans
              (again.1.1.symm.trans (isMine ordinary))) different
      | _ => cases quiet

end StudentHub.PushBroker
