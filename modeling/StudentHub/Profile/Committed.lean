import StudentHub.Profile.Store

/-!
# What a commit leaves behind

If a commit answers that it is accepted, the value, the spent token and the audit row have
been written together. If it refuses or throws, nothing has been written, unless its `COMMIT`
took effect and the acknowledgement was lost: then it throws all the same.
-/

namespace StudentHub.Profile

open Ecma JsString Concurrency Process SafeWrite

variable {host : ProfileHost} {circumstances : Circumstances} {query : Query}
variable {connection after : Connection} {tables : Tables} {Value : Type}
variable {id spent : JsString} {input : CommitInput} {field : PersonProfileField}

structure Written (host : ProfileHost) (now : ℤ) (id : JsString) (input : CommitInput)
    (before after : Tables) : Prop where
  value : ∃ field seen stored, column? input.field = some (some field) ∧
    (columnValue input.value).mapM (host.stored field id seen) = .ok stored ∧
    (after.profiles.get? id).map (· field) = some ⟨stored, some now⟩
  audit : ∃ tokenId, input.tokenId = some tokenId ∧
    after.audit = before.audit ++ [auditRow input input.expectedBefore (host.tokenRef tokenId)] ∧
    after.isSpent (host.tokenRef tokenId) = true

/-- The port's promise: all of it is written, or nothing. -/
def KeepsContract (host : ProfileHost) (circumstances : Circumstances) (id : JsString)
    (input : CommitInput) (tables : Tables) : Prop :=
  match circumstances.run host (commit host id input) { durable := tables } with
  | (.ok .accepted, after) => Written host circumstances.now id input tables after.durable
  | (_, after) => after.durable = tables

/-- The checks of the call pass and none of its earlier queries fails, so that it sends its
`COMMIT`. -/
def SendsCommit (host : ProfileHost) (circumstances : Circumstances) (id : JsString)
    (input : CommitInput) (tables : Tables) : Prop :=
  ∃ column tokenId, column? input.field = some column ∧ input.tokenId = some tokenId ∧
    Consistent input ∧ circumstances.fate .connect = .done ∧
    (circumstances.run host (change id column input (host.tokenRef tokenId))
      { durable := tables }).1 = .ok ()

/-- The `COMMIT` takes effect and its acknowledgement is lost. -/
def LosesCommit (circumstances : Circumstances) : Prop :=
  ∃ error, circumstances.fate .commit = .lost error

theorem run_send (query : Query) (connection : Connection) :
    circumstances.run host (send query) connection =
      match circumstances.answer host query connection with
      | (.ok result, after) => (.ok result, after)
      | (.error error, after) => (.error (.database error), after) := by
  rw [Circumstances.run, send, Process.run, Circumstances.handle]
  generalize circumstances.answer host query connection = answered
  rcases answered with ⟨error | result, after⟩
  · rfl
  · rfl

theorem run_bind (process : Client Value) {Value' : Type} (rest : Value → Client Value')
    (connection : Connection) :
    circumstances.run host (process.bind rest) connection =
      match circumstances.run host process connection with
      | (.ok value, after) => circumstances.run host (rest value) after
      | (.error failure, after) => (.error failure, after) := by
  rw [Circumstances.run, Process.run_bind, Circumstances.run]
  rcases process.run (circumstances.handle host) connection with ⟨failure | value, after⟩
  · rfl
  · rfl

theorem run_attempt (process : Client Value) (connection : Connection) :
    circumstances.run host process.attempt connection =
      (.ok (circumstances.run host process connection).1,
        (circumstances.run host process connection).2) := by
  induction process generalizing connection with
  | returned value => rfl
  | thrown failure => rfl
  | perform query next ih => exact ih _ _

theorem durable_answer (notCommit : query ≠ .commit) :
    (circumstances.answer host query connection).2.durable = connection.durable := by
  unfold Circumstances.answer
  cases circumstances.fate query with
  | failed error => rfl
  | lost error =>
    cases query with
    | commit => exact absurd rfl notCommit
    | _ => rfl
  | done =>
    cases query with
    | commit => exact absurd rfl notCommit
    | connect | begin | rollback => rfl
    | _ =>
      dsimp only
      split <;> rfl

/-- A client that sends no `COMMIT`. -/
abbrev Quiet (process : Client Value) : Prop :=
  process.Performs (· ≠ .commit) fun _ => True

theorem durable_of_quiet {process : Client Value} (quiet : Quiet process)
    (connection : Connection) :
    (circumstances.run host process connection).2.durable = connection.durable := by
  induction quiet generalizing connection with
  | returned isEnd => rfl
  | thrown isEnd => rfl
  | perform isKind rest ih =>
    exact (ih _ _).trans (durable_answer isKind)

theorem quiet_send (query : Query) (notCommit : query ≠ .commit) : Quiet (send query) := by
  refine .perform notCommit ?_
  rintro (error | result)
  · exact .thrown trivial
  · exact .returned trivial

theorem quiet_refuse (reason : CommitRefusal) : Quiet (refuse reason : Client Value) :=
  .thrown trivial

theorem Quiet.bind {process : Client Value} {Value' : Type} {rest : Value → Client Value'}
    (first : Quiet process) (second : ∀ value, Quiet (rest value)) : Quiet (process.bind rest) :=
  Performs.bind first (fun value _ => second value) fun _ _ => trivial

theorem quiet_checkItem (id : JsString) (field : PersonProfileField) (value : JsString) :
    Quiet (checkItem id field value) := by
  unfold checkItem
  split
  · exact .returned trivial
  case h_2 catalogueType _ =>
    split_ifs
    · exact .returned trivial
    · apply (quiet_send (.activeItem value catalogueType) (by simp)).bind
      intro selected
      cases selected with
      | none => exact quiet_refuse _
      | some code =>
        dsimp only
        split_ifs
        · exact quiet_send (.clearKuwaitiMother id) (by simp)
        · exact .returned trivial

theorem quiet_checkMother (id : JsString) (field : PersonProfileField) :
    Quiet (checkMother id field) := by
  unfold checkMother
  split_ifs
  · apply (quiet_send (.kuwaitiRow id) (by simp)).bind
    intro kuwaiti
    cases kuwaiti with
    | false => exact .returned trivial
    | true => exact quiet_refuse _
  · exact .returned trivial

theorem quiet_writeChange (id : JsString) (column : Option PersonProfileField)
    (input : CommitInput) (current : Option JsString) (spent : JsString) :
    Quiet (writeChange id column input current spent) := by
  cases column with
  | none => exact .returned trivial
  | some field =>
    refine Quiet.bind ?_ fun _ => quiet_send (.insertAudit _) (by simp)
    refine (quiet_checkItem id field input.value).bind fun _ => ?_
    refine (quiet_checkMother id field).bind fun _ => ?_
    exact quiet_send (.upsert id field _) (by simp)

theorem quiet_change (id : JsString) (column : Option PersonProfileField) (input : CommitInput)
    (spent : JsString) : Quiet (change id column input spent) := by
  refine (quiet_send .begin (by simp)).bind fun _ => ?_
  refine (quiet_send (.lock id) (by simp)).bind fun _ => ?_
  refine (quiet_send (.tokenRow spent) (by simp)).bind fun used => ?_
  cases used with
  | true => exact quiet_refuse _
  | false =>
    refine (quiet_send (.principalRow id) (by simp)).bind fun there => ?_
    cases there with
    | false => exact quiet_refuse _
    | true =>
      refine (quiet_send (.valueForUpdate id column) (by simp)).bind fun current => ?_
      split_ifs
      · exact quiet_refuse _
      · exact quiet_writeChange id column input current spent

/-- If a client that starts in a transaction returns, it is still in it, and this is what it has
made of the tables. -/
def Ensures (host : ProfileHost) (circumstances : Circumstances) (before : Tables → Prop)
    (process : Client Value) (result : Value → Tables → Prop) : Prop :=
  ∀ durable tables value after, before tables →
    circumstances.run host process ⟨durable, some tables⟩ = (.ok value, after) →
    ∃ tables', after.working = some tables' ∧ result value tables'

variable {before : Tables → Prop} {Value' : Type}

theorem ensures_returned {result : Value → Tables → Prop} {value : Value}
    (holds : ∀ tables, before tables → result value tables) :
    Ensures host circumstances before (returned value) result := by
  intro durable tables value' after isBefore ran
  rw [Circumstances.run, Process.run, Prod.mk.injEq, Except.ok.injEq] at ran
  rcases ran with ⟨rfl, rfl⟩
  exact ⟨tables, rfl, holds tables isBefore⟩

theorem ensures_refuse {result : Value → Tables → Prop} (reason : CommitRefusal) :
    Ensures host circumstances before (refuse reason) result := by
  intro durable tables value after isBefore ran
  rw [Circumstances.run, refuse, Process.run, Prod.mk.injEq] at ran
  cases ran.1

theorem ensures_bind {process : Client Value} {rest : Value → Client Value'}
    {result : Value' → Tables → Prop} (middle : Value → Tables → Prop)
    (first : Ensures host circumstances before process middle)
    (second : ∀ value, Ensures host circumstances (middle value) (rest value) result) :
    Ensures host circumstances before (process.bind rest) result := by
  intro durable tables value after isBefore ran
  rw [run_bind] at ran
  split at ran
  case h_1 value' between ran' =>
    rcases first durable tables value' between isBefore ran' with ⟨tables', isTables, isMiddle⟩
    apply second value' between.durable tables' value after isMiddle
    rw [← isTables]
    exact ran
  case h_2 =>
    rw [Prod.mk.injEq] at ran
    cases ran.1

def Query.IsStatement (query : Query) : Prop :=
  query ≠ .begin ∧ query ≠ .commit ∧ query ≠ .rollback

theorem ensures_send {query : Query} {result : query.Result → Tables → Prop}
    (isStatement : query.IsStatement)
    (holds : ∀ tables value tables', before tables →
      query.statement host circumstances.now tables = .ok (value, tables') →
        result value tables') :
    Ensures host circumstances before (send query) result := by
  intro durable tables value after isBefore ran
  rw [run_send] at ran
  have answered : circumstances.answer host query ⟨durable, some tables⟩ = (.ok value, after) := by
    generalize circumstances.answer host query ⟨durable, some tables⟩ = answered at ran
    rcases answered with ⟨error | value', after'⟩
    · rw [Prod.mk.injEq] at ran
      cases ran.1
    · rw [Prod.mk.injEq, Except.ok.injEq] at ran
      rw [ran.1, ran.2]
  have ends : ∃ tables', query.statement host circumstances.now tables = .ok (value, tables') ∧
      after.working = some tables' := by
    unfold Circumstances.answer at answered
    cases isFate : circumstances.fate query with
    | failed error =>
      rw [isFate] at answered
      cases (Prod.mk.inj answered).1
    | lost error =>
      rw [isFate] at answered
      cases query with
      | commit => exact absurd rfl isStatement.2.1
      | _ => cases (Prod.mk.inj answered).1
    | done =>
      rw [isFate] at answered
      cases query with
      | begin => exact absurd rfl isStatement.1
      | commit => exact absurd rfl isStatement.2.1
      | rollback => exact absurd rfl isStatement.2.2
      | connect =>
        rcases Prod.mk.inj answered with ⟨isValue, rfl⟩
        exact ⟨tables, rfl, rfl⟩
      | _ =>
        simp only [Option.map_some] at answered
        split at answered
        case h_1 result' tables' isResult =>
          rcases Prod.mk.inj answered with ⟨isValue, rfl⟩
          rw [Except.ok.injEq] at isValue
          rw [← isValue]
          exact ⟨tables', Option.some.inj isResult, rfl⟩
        case h_2 => cases (Prod.mk.inj answered).1
        case h_3 => cases (Prod.mk.inj answered).1
  rcases ends with ⟨tables', isResult, isTables⟩
  exact ⟨tables', isTables, holds tables value tables' isBefore isResult⟩

def HoldsValue (host : ProfileHost) (now : ℤ) (id : JsString) (field : PersonProfileField)
    (value : JsString) (tables : Tables) : Prop :=
  ∃ seen stored, (columnValue value).mapM (host.stored field id seen) = .ok stored ∧
    (tables.profiles.get? id).map (· field) = some ⟨stored, some now⟩

variable {rows : List AuditRow}

theorem audit_clearCell (tables : Tables) (id : JsString) (field : PersonProfileField) :
    (tables.clearCell id field).audit = tables.audit := by
  unfold Tables.clearCell
  split <;> rfl

theorem ensures_checkItem (id : JsString) (field : PersonProfileField) (value : JsString) :
    Ensures host circumstances (·.audit = rows) (checkItem id field value)
      fun _ tables => tables.audit = rows := by
  unfold checkItem
  split
  · exact ensures_returned fun _ same => same
  case h_2 catalogueType _ =>
    split_ifs
    · exact ensures_returned fun _ same => same
    · apply ensures_bind fun _ tables => tables.audit = rows
      · apply ensures_send (by simp [Query.IsStatement])
        intro tables selected tables' same ran
        rw [Query.statement] at ran
        cases isUuid : host.uuid value with
        | error error =>
          rw [isUuid] at ran
          cases ran
        | ok uuid =>
          rw [isUuid] at ran
          rcases Prod.mk.inj (Except.ok.inj ran) with ⟨-, rfl⟩
          exact same
      · rintro (_ | code)
        · exact ensures_refuse _
        · dsimp only
          split_ifs
          · apply ensures_send (by simp [Query.IsStatement])
            rintro tables ⟨⟩ tables' same ran
            rcases Prod.mk.inj (Except.ok.inj ran) with ⟨-, rfl⟩
            rw [audit_clearCell, same]
          · exact ensures_returned fun _ same => same

theorem ensures_checkMother (id : JsString) (field : PersonProfileField) :
    Ensures host circumstances (·.audit = rows) (checkMother id field)
      fun _ tables => tables.audit = rows := by
  unfold checkMother
  split_ifs
  · apply ensures_bind fun _ tables => tables.audit = rows
    · apply ensures_send (by simp [Query.IsStatement])
      intro tables kuwaiti tables' same ran
      rcases Prod.mk.inj (Except.ok.inj ran) with ⟨-, rfl⟩
      exact same
    · rintro (_ | _)
      · exact ensures_returned fun _ same => same
      · exact ensures_refuse _
  · exact ensures_returned fun _ same => same

theorem ensures_writeValue (id : JsString) (field : PersonProfileField) (value : JsString) :
    Ensures host circumstances (·.audit = rows) (writeValue id field value)
      fun _ tables => tables.audit = rows ∧
        HoldsValue host circumstances.now id field value tables := by
  apply ensures_bind _ (ensures_checkItem id field value)
  intro _
  apply ensures_bind _ (ensures_checkMother id field)
  intro _
  apply ensures_send (by simp [Query.IsStatement])
  rintro tables ⟨⟩ tables' same ran
  rw [Query.statement] at ran
  cases isStored : (columnValue value).mapM (host.stored field id tables) with
  | error error =>
    rw [isStored] at ran
    cases ran
  | ok stored =>
    rw [isStored] at ran
    rcases Prod.mk.inj (Except.ok.inj ran) with ⟨-, rfl⟩
    refine ⟨same, tables, stored, isStored, ?_⟩
    simp [Tables.putCell, OrderedMap.get?_set_self]

def Applied (host : ProfileHost) (now : ℤ) (id : JsString) (column : Option PersonProfileField)
    (input : CommitInput) (spent : JsString) (rows : List AuditRow) (tables : Tables) : Prop :=
  (∃ field, column = some field ∧ HoldsValue host now id field input.value tables) ∧
    tables.audit = rows ++ [auditRow input input.expectedBefore spent] ∧
    tables.isSpent spent = true

theorem ensures_writeChange (id : JsString) (field : PersonProfileField) (input : CommitInput)
    (spent : JsString) :
    Ensures host circumstances (·.audit = rows)
      (writeChange id (some field) input input.expectedBefore spent)
      fun _ tables => Applied host circumstances.now id (some field) input spent rows tables := by
  apply ensures_bind _ (ensures_writeValue id field input.value)
  intro _
  apply ensures_send (by simp [Query.IsStatement])
  rintro tables ⟨⟩ tables' ⟨same, holdsValue⟩ ran
  rw [Query.statement] at ran
  split_ifs at ran
  rcases Prod.mk.inj (Except.ok.inj ran) with ⟨-, rfl⟩
  refine ⟨⟨field, rfl, holdsValue⟩, by rw [same], ?_⟩
  rw [Tables.isSpent, List.any_append]
  simp [auditRow]

theorem ensures_read {query : Query} {before : Tables → Prop} (isStatement : query.IsStatement)
    (reads : ∀ tables value tables', query.statement host circumstances.now tables =
      .ok (value, tables') → tables' = tables) :
    Ensures host circumstances before (send query) fun _ tables => before tables := by
  apply ensures_send isStatement
  intro tables value tables' isBefore ran
  rw [reads tables value tables' ran]
  exact isBefore

theorem ensures_lockedChange (id : JsString) (column : Option PersonProfileField)
    (input : CommitInput) (spent : JsString) :
    Ensures host circumstances (·.audit = rows) (lockedChange id column input spent)
      fun _ tables => Applied host circumstances.now id column input spent rows tables := by
  apply ensures_bind _
  · apply ensures_read (by simp [Query.IsStatement])
    rintro tables ⟨⟩ tables' ran
    exact (Prod.mk.inj (Except.ok.inj ran)).2.symm
  intro _
  apply ensures_bind _
  · apply ensures_read (by simp [Query.IsStatement])
    intro tables used tables' ran
    exact (Prod.mk.inj (Except.ok.inj ran)).2.symm
  rintro (_ | _)
  · apply ensures_bind _
    · apply ensures_read (by simp [Query.IsStatement])
      intro tables there tables' ran
      exact (Prod.mk.inj (Except.ok.inj ran)).2.symm
    rintro (_ | _)
    · exact ensures_refuse _
    · cases column with
      | none =>
        apply ensures_bind fun _ _ => False
        · apply ensures_send (by simp [Query.IsStatement])
          intro tables value tables' _ ran
          cases ran
        · intro current durable tables value after never
          exact never.elim
      | some field =>
        apply ensures_bind _
        · apply ensures_read (by simp [Query.IsStatement])
          intro tables value tables' ran
          exact (Prod.mk.inj (Except.ok.inj ran)).2.symm
        intro current
        by_cases same : current = input.expectedBefore
        · rw [if_neg (not_not.mpr same), same]
          exact ensures_writeChange id field input spent
        · rw [if_pos same]
          exact ensures_refuse _
  · exact ensures_refuse _

theorem change_applied {column : Option PersonProfileField}
    (ran : circumstances.run host (change id column input spent) { durable := tables } =
      (.ok (), after)) :
    after.durable = tables ∧ ∃ working, after.working = some working ∧
      Applied host circumstances.now id column input spent tables.audit working := by
  have kept : (circumstances.run host (change id column input spent)
      { durable := tables }).2.durable = tables :=
    durable_of_quiet (quiet_change id column input spent) { durable := tables }
  rw [ran] at kept
  refine ⟨kept, ?_⟩
  rw [change, run_bind, run_send] at ran
  unfold Circumstances.answer at ran
  cases isFate : circumstances.fate .begin with
  | failed error =>
    rw [isFate] at ran
    cases (Prod.mk.inj ran).1
  | lost error =>
    rw [isFate] at ran
    cases (Prod.mk.inj ran).1
  | done =>
    rw [isFate] at ran
    exact ensures_lockedChange id column input spent tables tables () after rfl ran

theorem run_settled (process : Client Unit) (connection : Connection) :
    circumstances.run host (process.attempt.bind settle) connection =
      match circumstances.run host process connection with
      | (.ok (), after) => (.ok .accepted, after)
      | (.error failure, after) =>
          (.ok failure.answer, (circumstances.answer host .rollback after).2) := by
  rw [run_bind, run_attempt]
  generalize circumstances.run host process connection = ran
  rcases ran with ⟨failure | ⟨⟨⟩⟩, after⟩
  · rfl
  · rfl

theorem Applied.written {column : Option PersonProfileField} {tokenId : JsString} {now : ℤ}
    {working : Tables} (isColumn : column? input.field = some column)
    (isToken : input.tokenId = some tokenId)
    (applied : Applied host now id column input (host.tokenRef tokenId) tables.audit working) :
    Written host now id input tables working := by
  rcases applied with ⟨⟨field, rfl, seen, stored, isStored, isCell⟩, isAudit, isSpent⟩
  exact ⟨⟨field, seen, stored, isColumn, isStored, isCell⟩, ⟨tokenId, isToken, isAudit, isSpent⟩⟩

theorem Written.changed {now : ℤ} (written : Written host now id input tables tables) : False := by
  rcases written.audit with ⟨tokenId, -, isAudit, -⟩
  have lengths := congrArg List.length isAudit
  simp at lengths

inductive Outcome (host : ProfileHost) (circumstances : Circumstances) (id : JsString)
    (input : CommitInput) (tables : Tables) : CommitAnswer → Tables → Prop
  | early (answer : CommitAnswer) (notAccepted : answer ≠ .accepted)
      (stays : ¬SendsCommit host circumstances id input tables) :
      Outcome host circumstances id input tables answer tables
  | failed (answer : CommitAnswer) (notAccepted : answer ≠ .accepted)
      (notLost : ¬LosesCommit circumstances) :
      Outcome host circumstances id input tables answer tables
  | done (working : Tables) (notLost : ¬LosesCommit circumstances)
      (written : Written host circumstances.now id input tables working) :
      Outcome host circumstances id input tables .accepted working
  | lost (answer : CommitAnswer) (notAccepted : answer ≠ .accepted) (working : Tables)
      (sends : SendsCommit host circumstances id input tables)
      (isLost : LosesCommit circumstances)
      (written : Written host circumstances.now id input tables working) :
      Outcome host circumstances id input tables answer working

theorem Failure.answer_ne_accepted (failure : Failure) : failure.answer ≠ .accepted := by
  cases failure with
  | refusal reason => simp [Failure.answer]
  | database error =>
    rw [Failure.answer]
    split_ifs <;> simp

theorem answer_commit (connection : Connection) :
    circumstances.answer host .commit connection =
      match circumstances.fate .commit with
      | .done => (.ok (), { durable := connection.working.getD connection.durable })
      | .failed error => (.error error, { connection with working := none })
      | .lost error =>
          (.error error, { durable := connection.working.getD connection.durable }) := by
  unfold Circumstances.answer
  cases circumstances.fate .commit <;> rfl

theorem not_loses {fate : Fate} (isFate : circumstances.fate .commit = fate)
    (notLost : ∀ error, fate ≠ .lost error) : ¬LosesCommit circumstances := by
  rintro ⟨error, isLost⟩
  exact notLost error (isFate.symm.trans isLost)

theorem outcome_of_sends {column : Option PersonProfileField} {tokenId : JsString}
    (isColumn : column? input.field = some column) (isToken : input.tokenId = some tokenId)
    (sends : SendsCommit host circumstances id input tables)
    (ran : circumstances.run host (change id column input (host.tokenRef tokenId))
      { durable := tables } = (.ok (), after)) :
    ∃ answer connection, circumstances.run host
        (((change id column input (host.tokenRef tokenId)).bind fun _ =>
          send .commit).attempt.bind settle) { durable := tables } = (.ok answer, connection) ∧
      Outcome host circumstances id input tables answer connection.durable := by
  rcases change_applied ran with ⟨kept, working, isWorking, applied⟩
  have written := applied.written isColumn isToken
  rw [run_settled, run_bind, ran]
  dsimp only
  rw [run_send, answer_commit]
  cases isFate : circumstances.fate .commit with
  | done =>
    refine ⟨_, _, rfl, ?_⟩
    rw [isWorking]
    exact .done working (not_loses isFate (by simp)) written
  | failed error =>
    refine ⟨_, _, rfl, ?_⟩
    rw [durable_answer (by simp), kept]
    exact .failed _ (Failure.answer_ne_accepted _) (not_loses isFate (by simp))
  | lost error =>
    refine ⟨_, _, rfl, ?_⟩
    rw [durable_answer (by simp), isWorking]
    exact .lost _ (Failure.answer_ne_accepted _) working sends ⟨error, isFate⟩ written

theorem outcome_of_fails {column : Option PersonProfileField} {tokenId : JsString}
    {failure : Failure} (stays : ¬SendsCommit host circumstances id input tables)
    (ran : circumstances.run host (change id column input (host.tokenRef tokenId))
      { durable := tables } = (.error failure, after)) :
    ∃ answer connection, circumstances.run host
        (((change id column input (host.tokenRef tokenId)).bind fun _ =>
          send .commit).attempt.bind settle) { durable := tables } = (.ok answer, connection) ∧
      Outcome host circumstances id input tables answer connection.durable := by
  have kept : (circumstances.run host (change id column input (host.tokenRef tokenId))
      { durable := tables }).2.durable = tables :=
    durable_of_quiet (quiet_change id column input _) { durable := tables }
  rw [ran] at kept
  rw [run_settled, run_bind, ran]
  refine ⟨_, _, rfl, ?_⟩
  rw [durable_answer (by simp), kept]
  exact .early _ (Failure.answer_ne_accepted _) stays

theorem answer_connect (connection : Connection) :
    circumstances.answer host .connect connection =
      match circumstances.fate .connect with
      | .done => (.ok (), connection)
      | .failed error => (.error error, { connection with working := none })
      | .lost error => (.error error, { connection with working := none }) := by
  unfold Circumstances.answer
  cases circumstances.fate .connect <;> rfl

theorem outcome_commit (host : ProfileHost) (circumstances : Circumstances) (id : JsString)
    (input : CommitInput) (tables : Tables) :
    ∃ answer connection, circumstances.run host (commit host id input) { durable := tables } =
        (.ok answer, connection) ∧
      Outcome host circumstances id input tables answer connection.durable := by
  have threw (stays : ¬SendsCommit host circumstances id input tables) :
      Outcome host circumstances id input tables .threw tables := .early _ (by simp) stays
  unfold commit
  split
  case h_1 column tokenId isColumn isToken =>
    split_ifs with consistent
    · rw [Circumstances.run, Process.run, Circumstances.handle, answer_connect]
      cases isFate : circumstances.fate .connect with
      | done =>
        cases isRun : circumstances.run host (change id column input (host.tokenRef tokenId))
            { durable := tables } with
        | mk result after =>
          cases result with
          | ok done =>
            refine outcome_of_sends isColumn isToken ?_ isRun
            exact ⟨column, tokenId, isColumn, isToken, consistent, isFate, by rw [isRun]⟩
          | error failure =>
            apply outcome_of_fails _ isRun
            rintro ⟨column', tokenId', isColumn', isToken', -, -, got⟩
            rw [isColumn, Option.some.injEq] at isColumn'
            rw [isToken, Option.some.injEq] at isToken'
            rw [← isColumn', ← isToken', isRun] at got
            cases got
      | failed error =>
        refine ⟨_, _, rfl, threw ?_⟩
        rintro ⟨_, _, _, _, _, isDone, _⟩
        rw [isFate] at isDone
        cases isDone
      | lost error =>
        refine ⟨_, _, rfl, threw ?_⟩
        rintro ⟨_, _, _, _, _, isDone, _⟩
        rw [isFate] at isDone
        cases isDone
    · refine ⟨_, _, rfl, threw ?_⟩
      rintro ⟨_, _, _, _, isConsistent, _⟩
      exact consistent isConsistent
  case h_2 others =>
    refine ⟨_, _, rfl, threw ?_⟩
    rintro ⟨column, tokenId, isColumn, isToken, _⟩
    exact others column tokenId isColumn isToken

theorem keepsContract_iff (host : ProfileHost) (circumstances : Circumstances) (id : JsString)
    (input : CommitInput) (tables : Tables) :
    KeepsContract host circumstances id input tables ↔
      ¬(SendsCommit host circumstances id input tables ∧ LosesCommit circumstances) := by
  rcases outcome_commit host circumstances id input tables with
    ⟨answer, connection, ran, outcome⟩
  rw [KeepsContract, ran]
  have kept {answer : CommitAnswer} {after : Connection} (notAccepted : answer ≠ .accepted) :
      (match ((.ok answer, after) : Except Failure CommitAnswer × Connection) with
        | (.ok .accepted, after) => Written host circumstances.now id input tables after.durable
        | (_, after) => after.durable = tables) ↔ after.durable = tables := by
    cases answer with
    | accepted => exact absurd rfl notAccepted
    | _ => exact Iff.rfl
  generalize isAfter : connection.durable = durable at outcome
  cases outcome with
  | early _ notAccepted stays =>
    rw [kept notAccepted]
    exact ⟨fun _ sends => stays sends.1, fun _ => isAfter⟩
  | failed _ notAccepted notLost =>
    rw [kept notAccepted]
    exact ⟨fun _ sends => notLost sends.2, fun _ => isAfter⟩
  | done _ notLost written =>
    refine ⟨fun _ sends => notLost sends.2, fun _ => ?_⟩
    simp only [isAfter]
    exact written
  | lost _ notAccepted _ sends isLost written =>
    rw [kept notAccepted, isAfter]
    refine ⟨?_, fun neither => absurd ⟨sends, isLost⟩ neither⟩
    rintro rfl
    exact written.changed.elim

/-- The committed tables and the tokens that an instance of the contract has seen spent. -/
structure Instance where
  tables : Tables
  spent : List (Option JsString)

/-- The ports of an instance for one principal; the store is that of `forPrincipal`. -/
def port (host : ProfileHost) (circumstances : Circumstances) (id : JsString) (clock : Date) :
    (op : PortOp) → Instance → Except RangeError op.Answer × Instance
  | .ownedRecord principalRef, here =>
      (.ok (if principalRef = host.principalRef id ∧ id ∈ here.tables.principals then
        some (host.personRef id) else none), here)
  | .readField personRef field, here =>
      (.ok (if personRef = host.personRef id then
        ((column? field).join).bind (here.tables.valueOf id) else none), here)
  | .now, here => (.ok clock, here)
  | .randomBytes, here => (.ok [], here)
  | .isSpent tokenId, here => (.ok (decide (tokenId ∈ here.spent)), here)
  | .spend tokenId, here => (.ok (), { here with spent := tokenId :: here.spent })
  | .commit input, here =>
      if input.principalRef = host.principalRef id ∧ input.personRef = host.personRef id then
        match circumstances.run host (commit host id input) { durable := here.tables } with
        | (.ok answer, after) => (.ok answer, { here with tables := after.durable })
        | (.error _, after) => (.ok .threw, { here with tables := after.durable })
      else
        (.ok (.refused .notOwnRecord), here)

variable {platform : Platform} {policy : FieldPolicy} {request : ConfirmRequest} {clock : Date}
variable {here there : Instance} {current : Option JsString}

theorem port_commit_threw (acknowledged : ¬LosesCommit circumstances)
    (threw : port host circumstances id clock (.commit input) here = (.ok .threw, there)) :
    there = here := by
  rw [port] at threw
  split at threw
  case isFalse => cases Except.ok.inj (Prod.mk.inj threw).1
  rcases outcome_commit host circumstances id input here.tables with
    ⟨answer, connection, ran, outcome⟩
  rw [ran] at threw
  rcases Prod.mk.inj threw with ⟨isThrew, rfl⟩
  have isThrew : answer = .threw := Except.ok.inj isThrew
  subst isThrew
  generalize isAfter : connection.durable = durable at outcome
  cases outcome with
  | early => rfl
  | failed => rfl
  | lost _ _ _ _ isLost => exact absurd isLost acknowledged

/-- When the process refuses with `receipt_failed` it leaves the instance as it was. -/
def FailsUnchanged (host : ProfileHost) (circumstances : Circumstances) (id : JsString)
    (clock : Date) (process : Work ConfirmResult) : Prop :=
  ∀ here there, process.run (port host circumstances id clock) here =
    (.ok (.refused .receiptFailed), there) → there = here

theorem failsUnchanged_refused {reason : RejectionReason} (different : reason ≠ .receiptFailed) :
    FailsUnchanged host circumstances id clock (.returned (.refused reason)) := by
  intro here there refused
  rw [Process.run, Prod.mk.injEq, Except.ok.injEq, ConfirmResult.refused.injEq] at refused
  exact absurd refused.1 different

theorem failsUnchanged_ask {op : PortOp} {next : op.Answer → Work ConfirmResult}
    (asks : ∀ here, (port host circumstances id clock op here).2 = here)
    (rest : ∀ answer, FailsUnchanged host circumstances id clock (next answer)) :
    FailsUnchanged host circumstances id clock (.perform op next) := by
  intro here there refused
  unfold Process.run at refused
  have same := asks here
  generalize port host circumstances id clock op here = answered at refused same
  rcases answered with ⟨error | answer, after⟩
  · cases (Prod.mk.inj refused).1
  · rw [← show after = here from same]
    exact rest answer after there refused

theorem validateChange_ne_receiptFailed {change : ChangeRequest} {invalid : RejectionReason}
    (isInvalid : validateChange change policy = some invalid) : invalid ≠ .receiptFailed := by
  rintro rfl
  rw [validateChange] at isInvalid
  split at isInvalid
  · cases isInvalid
  · split at isInvalid
    · cases isInvalid
    · split at isInvalid
      · split_ifs at isInvalid <;> cases isInvalid
      · cases isInvalid

theorem failsUnchanged_commitChange (acknowledged : ¬LosesCommit circumstances)
    (request : ConfirmRequest) (current : Option JsString) :
    FailsUnchanged host circumstances id clock (platform.commitChange request current) := by
  apply failsUnchanged_ask fun _ => rfl
  rintro (_ | instant)
  · intro here there refused
    cases (Prod.mk.inj refused).1
  · intro here there refused
    dsimp only at refused
    rw [Process.run] at refused
    split at refused
    case h_1 outcome between answered =>
      cases outcome with
      | threw =>
        rw [Process.run, Prod.mk.injEq] at refused
        rw [← refused.2]
        exact port_commit_threw acknowledged answered
      | refused reason =>
        rw [Process.run, Prod.mk.injEq] at refused
        cases reason <;> cases refused.1
      | accepted => cases (Prod.mk.inj refused).1
    case h_2 => cases (Prod.mk.inj refused).1

theorem failsUnchanged_confirmChange (acknowledged : ¬LosesCommit circumstances)
    (request : ConfirmRequest) :
    FailsUnchanged host circumstances id clock (platform.confirmChange request) := by
  rw [Platform.confirmChange]
  split
  · exact failsUnchanged_refused (by decide)
  · apply failsUnchanged_ask fun _ => rfl
    intro owned
    split
    · exact failsUnchanged_refused (by decide)
    · apply failsUnchanged_ask fun _ => rfl
      intro current
      split
      · exact failsUnchanged_refused (by decide)
      · exact failsUnchanged_commitChange acknowledged request current

/-- A token that is refused with `receipt_failed` is as good as before: neither the instance nor
its store has changed. -/
theorem failsUnchanged_confirm (acknowledged : ¬LosesCommit circumstances) (policy : FieldPolicy)
    (request : ConfirmRequest) :
    FailsUnchanged host circumstances id clock (platform.confirm policy request) := by
  rw [Platform.confirm]
  split
  · exact failsUnchanged_refused (by decide)
  · split
    case h_1 invalid isInvalid =>
      exact failsUnchanged_refused (validateChange_ne_receiptFailed isInvalid)
    case h_2 =>
      split
      · exact failsUnchanged_refused (by decide)
      · split
        · exact failsUnchanged_refused (by decide)
        · apply failsUnchanged_ask fun _ => rfl
          intro spent
          split
          · exact failsUnchanged_refused (by decide)
          · apply failsUnchanged_ask fun _ => rfl
            intro now
            split
            · exact failsUnchanged_refused (by decide)
            · exact failsUnchanged_confirmChange acknowledged request

/-- A commit writes the value, the spent token and the audit row or nothing, and a token that is
refused with `receipt_failed` is as good as before, unless a `COMMIT` loses its acknowledgement. -/
theorem commit_all_or_nothing (host : ProfileHost) (circumstances : Circumstances)
    (id : JsString) :
    (∀ input tables, KeepsContract host circumstances id input tables ↔
      ¬(SendsCommit host circumstances id input tables ∧ LosesCommit circumstances)) ∧
    (¬LosesCommit circumstances → ∀ platform policy request clock here there,
      (Platform.confirm platform policy request).run (port host circumstances id clock) here =
        (.ok (.refused .receiptFailed), there) → there = here) := by
  refine ⟨keepsContract_iff host circumstances id, ?_⟩
  intro acknowledged platform policy request clock here there
  exact failsUnchanged_confirm acknowledged policy request here there

def sampleRef : JsString := List.replicate 64 97

def sampleHost : ProfileHost where
  tokenRef token := token
  principalRef _ := sampleRef
  personRef _ := sampleRef
  stored _ _ _ value := .ok value
  uuid text := .ok text

def connectionReset : DatabaseError := ⟨js "ECONNRESET", []⟩

/-- All is well, but for what befalls the `COMMIT`. -/
def commitFate (fate : Fate) : Circumstances where
  fate query := if query = .commit then fate else .done
  now := 1

def sampleTables : Tables := ⟨[js "p"], .empty, .empty, []⟩

/-- The empty value is written over none. -/
def sampleInput : CommitInput :=
  { personRef := sampleRef, principalRef := sampleRef, tokenId := some (js "t"),
    field := js "intro", expectedBefore := none, value := [], changeSetDigest := js "d",
    receipt := ⟨js "3.0.0", js "r", sampleRef, sampleRef, js "d", [js "intro"], js "now"⟩ }

def afterLoss : Tables :=
  ((commitFate (.lost connectionReset)).run sampleHost (commit sampleHost (js "p") sampleInput)
    { durable := sampleTables }).2.durable

/-- The commit throws, and the next one, of the same token for a value that has not changed, is
refused because the token is spent. -/
theorem throws_though_written :
    ¬KeepsContract sampleHost (commitFate (.lost connectionReset)) (js "p") sampleInput
        sampleTables ∧
      ((commitFate (.lost connectionReset)).run sampleHost
        (commit sampleHost (js "p") sampleInput) { durable := sampleTables }).1 = .ok .threw ∧
      afterLoss.valueOf (js "p") .intro = sampleTables.valueOf (js "p") .intro ∧
      ((commitFate .done).run sampleHost (commit sampleHost (js "p") sampleInput)
        { durable := afterLoss }).1 = .ok (.refused .tokenAlreadyUsed) := by
  refine ⟨?_, rfl, rfl, rfl⟩
  intro keeps
  have same := congrArg (fun tables : Tables => tables.audit.length)
    (show afterLoss = sampleTables from keeps)
  revert same
  decide

def auditFails : Circumstances where
  fate query :=
    match query with
    | .insertAudit _ => .failed connectionReset
    | _ => .done
  now := 1

def samplePlatform : Platform := ⟨fun _ => [], fun _ => [], fun _ => none⟩

def samplePolicy : FieldPolicy := ⟨[js "intro"], 5000, true⟩

def sampleToken : ActionToken where
  entries := Json.textMembers [(js "tokenId", js "t"), (js "changeSetDigest", []),
    (js "expectedBeforeDigest", []), (js "principalRef", sampleRef),
    (js "expiresAt", js "2026-09-08T12:05:00.000Z"), (js "mac", [])]
  nodupKeys := by decide

def sampleRequest : ConfirmRequest :=
  ⟨sampleToken, ⟨sampleRef, js "intro", .string (js "x")⟩, sampleRef⟩

def sampleClock : Date := some .sample

def isReceiptFailed (result : Except RangeError ConfirmResult) : Bool :=
  match result with
  | .ok (.refused .receiptFailed) => true
  | _ => false

/-- A confirm whose audit row cannot be written, with nothing to undo. -/
theorem commit_all_or_nothing_sample :
    KeepsContract sampleHost (commitFate .done) (js "p") sampleInput sampleTables ∧
      ∃ there, (samplePlatform.confirm samplePolicy sampleRequest).run
          (port sampleHost auditFails (js "p") sampleClock) ⟨sampleTables, []⟩ =
            (.ok (.refused .receiptFailed), there) ∧
        there = ⟨sampleTables, []⟩ := by
  refine ⟨((commit_all_or_nothing sampleHost (commitFate .done) (js "p")).1 sampleInput
    sampleTables).mpr ?_, ?_⟩
  · rintro ⟨-, error, ⟨⟩⟩
  · have refuses : isReceiptFailed ((samplePlatform.confirm samplePolicy sampleRequest).run
        (port sampleHost auditFails (js "p") sampleClock) ⟨sampleTables, []⟩).1 = true := by
      decide +kernel
    generalize isRun : (samplePlatform.confirm samplePolicy sampleRequest).run
      (port sampleHost auditFails (js "p") sampleClock) ⟨sampleTables, []⟩ = ran at refuses
    rcases ran with ⟨result, there⟩
    unfold isReceiptFailed at refuses
    split at refuses
    case h_1 isRefused =>
      simp only at isRefused
      rw [isRefused] at isRun
      refine ⟨there, by rw [isRefused], ?_⟩
      apply (commit_all_or_nothing sampleHost auditFails (js "p")).2 _ _ _ _ _ _ _ isRun
      rintro ⟨error, ⟨⟩⟩
    case h_2 => cases refuses

end StudentHub.Profile
