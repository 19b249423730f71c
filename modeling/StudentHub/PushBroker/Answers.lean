import StudentHub.PushBroker.Sends

/-!
# What a call has done when it answers

A call keeps to the discipline, and when it is not held the remote has shown its result to it
after its validation. Then the journal was created for that result, or the call is an ordinary
one that found its result on the remote.
-/

namespace StudentHub.PushBroker

open Ecma JsString Concurrency Process Discipline

variable {host : BrokerHost} {me : ℕ} {options : PushOptions} {cwd resultSha : JsString}

def Known (existing : Option PushRecord) (broker : Broker) : Prop :=
  ∀ record, existing = some record → Writable record broker

/-- An ordinary call found its result on the remote, after it had read this of the journal. -/
def Deed.finding? : Deed → Option (JsString × Option PushRecord)
  | ⟨_, .lsRemote options resultSha existing, .head sha⟩ =>
      if !options.recovering && sha = resultSha then some (resultSha, existing) else none
  | _ => none

def Broker.findings (broker : Broker) : List (JsString × Option PushRecord) :=
  broker.history.filterMap Deed.finding?

def Sourced (resultSha : JsString) (broker : Broker) : Prop :=
  CreatedFor (fun _ record => record.resultSha = resultSha) broker ∨
    ∃ existing, (resultSha, existing) ∈ broker.findings ∧ Known existing broker

structure Answered (me : ℕ) (answer : PushAnswer) (broker : Broker) : Prop where
  shown : ∃ options, Shown me options answer.remoteHead broker
  sourced : Sourced answer.remoteHead broker

def Ends (me : ℕ) : Except HoldReason PushAnswer → Broker → Prop
  | .ok answer, broker => Answered me answer broker
  | .error _, _ => True

theorem lasting_writable (record : PushRecord) : (brokering host).Lasting (Writable record) :=
  lasting_createdFor fun _ original => Fits original record

theorem lasting_known (existing : Option PushRecord) : (brokering host).Lasting (Known existing) := by
  intro other op given broker isTask orderly allowed known record isRecord
  exact lasting_writable record other op given broker isTask orderly allowed (known record isRecord)

theorem lasting_finding (finding : JsString × Option PushRecord) :
    (brokering host).Lasting fun broker => finding ∈ broker.findings := by
  intro other op given broker _ _ _ found
  rw [Broker.findings, history_handle]
  exact ((List.sublist_cons_self _ _).filterMap _).subset found

theorem lasting_sourced : (brokering host).Lasting (Sourced resultSha) := by
  rintro other op given broker isTask orderly allowed (created | ⟨existing, finding, known⟩)
  · exact Or.inl (lasting_createdFor _ other op given broker isTask orderly allowed created)
  · exact Or.inr ⟨existing, lasting_finding _ other op given broker isTask orderly allowed finding,
      lasting_known existing other op given broker isTask orderly allowed known⟩

theorem lasting_answered (answer : PushAnswer) : (brokering host).Lasting (Answered me answer) := by
  rintro other op given broker isTask orderly allowed ⟨⟨options, shown⟩, sourced⟩
  exact ⟨⟨options, lasting_shown other op given broker isTask orderly allowed shown⟩,
    lasting_sourced other op given broker isTask orderly allowed sourced⟩

theorem lasting_ends (result : Except HoldReason PushAnswer) :
    (brokering host).Lasting (Ends me result) := by
  cases result with
  | ok answer => exact lasting_answered answer
  | error reason => exact StableUnder.const True

section Rules

variable {Value Value' : Type} {fact : Broker → Prop} {op : BrokerOp}
  {rest : op.Answer → BrokerProcess Value}
  {post : Except HoldReason Value → Broker → Prop}

theorem follows_kept (lasting : (brokering host).Lasting fact)
    (allowed : ∀ broker, fact broker → Allowed host me op broker)
    (follows : ∀ answer, (brokering host).Follows me fact (rest answer) post) :
    (brokering host).Follows me fact ((ask op).bind rest) post := by
  refine .perform (fun _ => fact) (fun _ _ holds => holds) lasting.stable
    (fun broker _ holds => allowed broker holds) ?_ follows
  intro given broker orderly holds
  exact lasting me op given broker trivial orderly (allowed broker holds) holds

theorem follows_free (lasting : (brokering host).Lasting fact)
    (free : ∀ broker, Allowed host me op broker)
    (follows : ∀ answer, (brokering host).Follows me fact (rest answer) post) :
    (brokering host).Follows me fact ((ask op).bind rest) post :=
  follows_kept lasting (fun broker _ => free broker) follows

theorem follows_noted {deeds : List Deed} (lasting : (brokering host).Lasting fact)
    (free : ∀ broker, Allowed host me op broker)
    (follows : ∀ answer, (brokering host).Follows me
      (fun broker => (⟨me, op, answer⟩ :: deeds).Sublist broker.history ∧ fact broker)
      (rest answer) post) :
    (brokering host).Follows me (fun broker => deeds.Sublist broker.history ∧ fact broker)
      ((ask op).bind rest) post := by
  refine .perform (fun answer broker => (⟨me, op, answer⟩ :: deeds).Sublist broker.history ∧ fact broker)
    (fun _ _ holds => holds) (Lasting.stable (StableUnder.and (lasting_sublist deeds) lasting))
    (fun broker _ _ => free broker) ?_ follows
  rintro given broker orderly ⟨happened, holds⟩
  refine ⟨?_, lasting me op given broker trivial orderly (free broker) holds⟩
  rw [history_handle]
  exact happened.cons_cons _

theorem follows_returned {value : Value} (holds : ∀ broker, fact broker → post (.ok value) broker) :
    (brokering host).Follows me fact (returned value) post :=
  .returned fun broker _ known => holds broker known

theorem follows_thrown {reason : HoldReason} (holds : ∀ broker, post (.error reason) broker) :
    (brokering host).Follows me fact (thrown reason : BrokerProcess Value) post :=
  .thrown fun broker _ _ => holds broker

end Rules

def Yields {Value : Type} (known : Value → Broker → Prop) : Except HoldReason Value → Broker → Prop
  | .ok value, broker => known value broker
  | .error _, _ => True

theorem lasting_true : (brokering host).Lasting fun _ => True := StableUnder.const True

theorem lasting_validated : (brokering host).Lasting (Validated me options resultSha) :=
  lasting_sublist _

theorem follows_openWorktree :
    (brokering host).Follows me (fun _ => True) (openWorktree host options) (Yields fun _ _ => True) := by
  apply follows_free lasting_true
  · exact fun _ => trivial
  intro root
  cases root with
  | none => exact follows_thrown fun _ => trivial
  | some cwd =>
      dsimp only
      split_ifs
      · exact follows_thrown fun _ => trivial
      · apply follows_free lasting_true
        · exact fun _ => trivial
        intro isReady
        split_ifs
        · exact follows_thrown fun _ => trivial
        · exact follows_returned fun _ _ => trivial

theorem follows_authorization {Value : Type} {fact : Broker → Prop}
    {rest : Option Bool → BrokerProcess Value} {post : Except HoldReason Value → Broker → Prop}
    (lasting : (brokering host).Lasting fact)
    (follows : ∀ verdict, (brokering host).Follows me fact (rest verdict) post) :
    (brokering host).Follows me fact ((authorize options).bind rest) post := by
  unfold authorize
  split_ifs
  · apply follows_free lasting
    · exact fun _ => trivial
    · exact follows
  · exact follows (some true)

theorem follows_boundResult :
    (brokering host).Follows me (fun _ => True) (boundResult options) (Yields fun _ _ => True) := by
  simp only [boundResult, bind_eq_bind]
  split
  · exact follows_returned fun _ _ => trivial
  · apply follows_authorization lasting_true
    intro verdict
    rcases verdict with _ | _ | _
    · exact follows_thrown fun _ => trivial
    · exact follows_thrown fun _ => trivial
    · apply follows_free lasting_true
      · exact fun _ => trivial
      intro snapshot
      cases snapshot with
      | none => exact follows_thrown fun _ => trivial
      | some resultSha => exact follows_returned fun _ _ => trivial

theorem follows_unclean {deeds : List Deed} (op : BrokerOp) (clean : op.Answer)
    [DecidableEq op.Answer] (free : ∀ broker, Allowed host me op broker) :
    (brokering host).Follows me (fun broker => deeds.Sublist broker.history ∧ True)
      ((ask op).bind fun answer => if answer ≠ clean then thrown .unclean else returned ())
      (Yields fun _ broker => (⟨me, op, clean⟩ :: deeds).Sublist broker.history) := by
  apply follows_noted lasting_true free
  intro answer
  split
  · exact follows_thrown fun _ => trivial
  · rename_i same
    rw [ne_eq, Decidable.not_not] at same
    subst same
    exact follows_returned fun _ known => known.1

theorem follows_validate : (brokering host).Follows me (fun _ => True) (validate options resultSha)
    (Yields fun _ => Validated me options resultSha) := by
  have start : (brokering host).Follows me
      (fun broker => ([] : List Deed).Sublist broker.history ∧ True) (validate options resultSha)
      (Yields fun _ => Validated me options resultSha) := by
    simp only [validate, bind_eq_bind]
    apply follows_noted lasting_true
    · exact fun _ => trivial
    intro descends
    cases descends with
    | false => exact follows_thrown fun _ => trivial
    | true =>
        apply follows_noted lasting_true
        · exact fun _ => trivial
        intro head
        cases head with
        | none => exact follows_thrown fun _ => trivial
        | some head =>
            dsimp only
            by_cases hasMoved : head = expectedHead options resultSha
            · subst hasMoved
              rw [if_neg (not_not_intro rfl)]
              cases isReady : options.workspaceReady with
              | true =>
                  apply Follows.strengthen (follows_unclean .snapshot (some resultSha) fun _ => trivial)
                  rintro (_ | _) broker - happened
                  · trivial
                  · simpa only [Yields, Validated, validation, isReady, if_true] using happened
              | false =>
                  simp only [Bool.false_eq_true, if_false, Bool.not_eq_true', ← Bool.not_eq_true]
                  apply Follows.strengthen (follows_unclean (.cleanTree resultSha) true fun _ => trivial)
                  rintro (_ | _) broker - happened
                  · trivial
                  · simpa only [Yields, Validated, validation, isReady, Bool.false_eq_true, if_false]
                      using happened
            · rw [if_pos hasMoved]
              exact follows_thrown fun _ => trivial
  apply start.weaken
  intro broker _ _
  exact ⟨List.nil_sublist _, trivial⟩

theorem known_read (given : Given) {broker : Broker} (orderly : Orderly broker) :
    Known (handle me .readPrePushRecord given broker).1
      (handle me .readPrePushRecord given broker).2 := by
  intro record isRecord
  simp only [handle, Broker.perform] at isRecord
  split_ifs at isRecord
  rcases Option.bind_eq_some_iff.mp isRecord with ⟨file, isFile, isContent⟩
  cases orderly with
  | fresh absent => cases absent.symm.trans isFile
  | journaled present created content =>
      cases present.symm.trans isFile
      exact ⟨_, _, created, (content record isContent).1⟩

theorem follows_read {Value : Type} {fact : Broker → Prop}
    {rest : Option PushRecord → BrokerProcess Value} {post : Except HoldReason Value → Broker → Prop}
    (lasting : (brokering host).Lasting fact)
    (follows : ∀ existing, (brokering host).Follows me
      (fun broker => fact broker ∧ Known existing broker) (rest existing) post) :
    (brokering host).Follows me fact ((ask .readPrePushRecord).bind rest) post := by
  refine .perform (fun existing broker => fact broker ∧ Known existing broker)
    (fun _ _ holds => holds) lasting.stable (fun _ _ _ => trivial) ?_ follows
  intro given broker orderly holds
  exact ⟨lasting me .readPrePushRecord given broker trivial orderly trivial holds,
    known_read given orderly⟩

def Read (me : ℕ) (options : PushOptions) (resultSha : JsString) (existing : Option PushRecord)
    (remote : RemoteHead) (broker : Broker) : Prop :=
  Looked me options resultSha existing remote broker ∧ Known existing broker

theorem lasting_read (existing : Option PushRecord) (remote : RemoteHead) :
    (brokering host).Lasting (Read me options resultSha existing remote) :=
  StableUnder.and (lasting_looked existing remote) (lasting_known existing)

structure Cleared (host : BrokerHost) (me : ℕ) (options : PushOptions) (cwd resultSha : JsString)
    (broker : Broker) : Prop where
  looked : ∃ existing remote, Looked me options resultSha existing remote broker ∧
    (remote = .head options.targetSha ∨ remote = .absent ∧ options.recovering = false)
  journaled : options.recovering = true →
    CreatedFor (fun _ record => binds host options cwd resultSha record) broker

def Decided (host : BrokerHost) (me : ℕ) (options : PushOptions) (cwd resultSha : JsString) :
    Option PushAnswer → Broker → Prop
  | some answer, broker => Answered me answer broker
  | none, broker => Cleared host me options cwd resultSha broker

theorem createdFor_of_binds {record : PushRecord} {broker : Broker}
    (known : Writable record broker) (isBound : binds host options cwd resultSha record) :
    CreatedFor (fun _ original => binds host options cwd resultSha original) broker := by
  rcases known with ⟨creator, original, created, fits⟩
  rcases isBound with ⟨isBinding, isResult, isBranch⟩
  refine ⟨creator, original, created, ?_, fits.result.symm.trans isResult,
    fits.branch.symm.trans isBranch⟩
  rcases fits.binding with same | lost
  · exact same.symm.trans isBinding
  · cases lost.symm.trans isBinding

theorem CreatedFor.weaken {known other : ℕ → PushRecord → Prop} {broker : Broker}
    (created : CreatedFor known broker) (implies : ∀ creator record, known creator record →
      other creator record) : CreatedFor other broker := by
  rcases created with ⟨creator, record, isCreated, holds⟩
  exact ⟨creator, record, isCreated, implies creator record holds⟩

theorem follows_recover {existing : Option PushRecord} {remote : RemoteHead} :
    (brokering host).Follows me (Read me options resultSha existing remote)
      (recover host options cwd resultSha existing remote)
      (Yields (Decided host me options cwd resultSha)) := by
  simp only [recover, bind_eq_bind]
  apply follows_free (lasting_read existing remote)
  · exact fun _ => trivial
  intro verdict
  split
  · exact follows_thrown fun _ => trivial
  apply follows_free (lasting_read existing remote)
  · exact fun _ => trivial
  intro isPrivate
  split
  · exact follows_thrown fun _ => trivial
  cases existing with
  | none => exact follows_thrown fun _ => trivial
  | some record =>
      dsimp only
      by_cases isBound : binds host options cwd resultSha record
      · rw [if_neg (not_not_intro isBound)]
        by_cases isThere : remote = .head resultSha
        · rw [if_pos isThere]
          subst isThere
          apply follows_kept (lasting_read _ _)
          · rintro broker ⟨-, known⟩
            rcases known record rfl with ⟨creator, original, created, fits⟩
            exact ⟨creator, original, created, fits.result, fits.branch, fits.binding⟩
          · intro marked
            split
            · exact follows_thrown fun _ => trivial
            · apply follows_returned
              rintro broker ⟨looked, known⟩
              refine ⟨⟨options, Or.inl ⟨some record, looked⟩⟩, Or.inl ?_⟩
              exact (createdFor_of_binds (known record rfl) isBound).weaken fun _ _ binds => binds.2.1
        · rw [if_neg isThere]
          split_ifs with isOver
          · exact follows_thrown fun _ => trivial
          · rw [not_or, not_not, not_not] at isOver
            apply follows_returned
            rintro broker ⟨looked, known⟩
            exact ⟨⟨some record, remote, looked, Or.inl isOver.2⟩,
              fun _ => createdFor_of_binds (known record rfl) isBound⟩
      · rw [if_pos isBound]
        exact follows_thrown fun _ => trivial

theorem follows_settle {existing : Option PushRecord} {remote : RemoteHead}
    (ordinary : options.recovering = false) (succeeds : remote ≠ .failed) :
    (brokering host).Follows me (Read me options resultSha existing remote)
      (ofExcept (settle options resultSha existing remote))
      (Yields (Decided host me options cwd resultSha)) := by
  have finds : ∀ {broker : Broker} {answer : PushAnswer}, answer.remoteHead = resultSha →
      Read me options resultSha existing (.head resultSha) broker → Answered me answer broker := by
    rintro broker answer rfl ⟨looked, known⟩
    refine ⟨⟨options, Or.inl ⟨existing, looked⟩⟩, Or.inr ⟨existing, ?_, known⟩⟩
    refine List.mem_filterMap.mpr ⟨_, looked.subset List.mem_cons_self, ?_⟩
    simp [Deed.finding?, ordinary]
  have goesOn : (remote = .head options.targetSha ∨ remote = .absent) →
      (brokering host).Follows me (Read me options resultSha existing remote)
        (returned none : BrokerProcess (Option PushAnswer))
        (Yields (Decided host me options cwd resultSha)) := by
    intro isHead
    apply follows_returned
    rintro broker ⟨looked, -⟩
    refine ⟨⟨existing, remote, looked, isHead.imp_right fun absent => ⟨absent, ordinary⟩⟩, ?_⟩
    intro recovering
    rw [ordinary] at recovering
    cases recovering
  cases existing with
  | some record =>
      cases remote with
      | head sha =>
          simp only [settle]
          split_ifs with isThere
          · subst isThere
            exact follows_returned fun broker known => finds rfl known
          · exact follows_thrown fun _ => trivial
      | failed => exact follows_thrown fun _ => trivial
      | absent => exact follows_thrown fun _ => trivial
  | none =>
      cases remote with
      | head sha =>
          simp only [settle]
          split_ifs with isThere isOther
          · subst isThere
            exact follows_returned fun broker known => finds rfl known
          · exact follows_thrown fun _ => trivial
          · apply goesOn
            left
            rw [ne_eq, not_not] at isOther
            rw [isOther]
      | failed => exact absurd rfl succeeds
      | absent => exact goesOn (Or.inr rfl)

theorem lasting_cleared : (brokering host).Lasting (Cleared host me options cwd resultSha) := by
  rintro other op given broker isTask orderly allowed ⟨⟨existing, remote, looked, isHead⟩, journaled⟩
  refine ⟨⟨existing, remote, lasting_looked _ _ other op given broker isTask orderly allowed looked, isHead⟩,
    ?_⟩
  intro recovering
  exact lasting_createdFor _ other op given broker isTask orderly allowed (journaled recovering)

theorem sendable_created (given : Given) {broker : Broker} {record : PushRecord} {inode : ℕ}
    (orderly : Orderly broker) (cleared : Cleared host me options cwd resultSha broker)
    (isBound : binds host options cwd resultSha record)
    (opened : (handle me (.createJournal record) given broker).1 = .opened inode) :
    Sendable host me options cwd resultSha (handle me (.createJournal record) given broker).2 := by
  have stillCleared : Cleared host me options cwd resultSha
      (handle me (.createJournal record) given broker).2 :=
    lasting_cleared me (.createJournal record) given broker trivial orderly trivial cleared
  cases orderly with
  | journaled present =>
      simp only [handle, Broker.perform, present] at opened
      split_ifs at opened
  | fresh absent empty none =>
      cases lands : given.lands with
      | false => simp [handle, Broker.perform, absent, lands] at opened
      | true =>
          refine ⟨⟨me, record, ?_, isBound, fun _ => rfl⟩, stillCleared.looked, ?_⟩
          · simp [handle, Broker.perform, absent, lands, empty]
          · intro _
            rw [ordinaryPushes_handle, none]
            rfl

theorem follows_quiet {Value : Type} {op : BrokerOp} {rest : op.Answer → BrokerProcess Value}
    {post : Except HoldReason Value → Broker → Prop} (quiet : op.isOrdinaryPush = false)
    (allowed : ∀ broker, Sendable host me options cwd resultSha broker → Allowed host me op broker)
    (follows : ∀ answer, (brokering host).Follows me (Sendable host me options cwd resultSha)
      (rest answer) post) :
    (brokering host).Follows me (Sendable host me options cwd resultSha) ((ask op).bind rest) post := by
  refine .perform (fun _ => Sendable host me options cwd resultSha) (fun _ _ sendable => sendable)
    stable_sendable (fun broker _ sendable => allowed broker sendable) ?_ follows
  intro given broker orderly sendable
  exact sendable_handle given orderly (allowed broker sendable) quiet sendable

theorem follows_reserve : (brokering host).Follows me (Cleared host me options cwd resultSha)
    (reserve host options cwd resultSha)
    (Yields fun _ => Sendable host me options cwd resultSha) := by
  unfold reserve
  cases recovering : options.recovering with
  | true =>
      apply follows_returned
      intro broker cleared
      rcases cleared.journaled recovering with ⟨creator, record, created, isBound⟩
      refine ⟨⟨creator, record, created, isBound, ?_⟩, cleared.looked, ?_⟩
      · simp only [recovering, Bool.true_eq_false, false_imp_iff]
      · simp only [recovering, Bool.true_eq_false, false_imp_iff]
  | false =>
      simp only [Bool.false_eq_true, if_false, persistPrePush, bind_eq_bind]
      refine .perform (fun answer broker => ∀ inode, answer = .opened inode →
        Sendable host me options cwd resultSha broker) (fun _ _ holds => holds)
        lasting_cleared.stable (fun _ _ _ => trivial) ?_ ?_
      · intro given broker orderly cleared inode opened
        exact sendable_created given orderly cleared ⟨rfl, rfl, rfl⟩ opened
      · intro answer
        cases answer with
        | present => exact follows_thrown fun _ => trivial
        | failed => exact follows_thrown fun _ => trivial
        | opened inode =>
            have writes : (brokering host).Follows me (Sendable host me options cwd resultSha)
                ((ask (.writeJournal inode ⟨some (bindingOf host options cwd), resultSha,
                  options.branch, .pending, none⟩)).bind fun written =>
                    if !written then thrown .recordUnwritten else returned ())
                (Yields fun _ => Sendable host me options cwd resultSha) := by
              apply follows_quiet rfl
              · intro broker sendable
                rcases sendable.journaled with ⟨creator, record, created, isBound, -⟩
                exact ⟨creator, record, created, isBound.2.1.symm, isBound.2.2.symm,
                  Or.inl isBound.1.symm⟩
              · intro written
                split
                · exact follows_thrown fun _ => trivial
                · exact follows_returned fun _ sendable => sendable
            exact writes.weaken fun broker _ sendable => sendable inode rfl

def Confirmed (host : BrokerHost) (me : ℕ) (options : PushOptions) (cwd resultSha : JsString)
    (broker : Broker) : Prop :=
  Shown me options resultSha broker ∧
    CreatedFor (fun _ record => binds host options cwd resultSha record) broker

theorem lasting_confirmed : (brokering host).Lasting (Confirmed host me options cwd resultSha) :=
  StableUnder.and lasting_shown (lasting_createdFor _)

theorem follows_markPushed : (brokering host).Follows me (Confirmed host me options cwd resultSha)
    (markPushed options resultSha)
    (Yields fun _ => Confirmed host me options cwd resultSha) := by
  simp only [markPushed, bind_eq_bind]
  apply follows_read lasting_confirmed
  intro existing
  have kept : (brokering host).Lasting fun broker =>
      Confirmed host me options cwd resultSha broker ∧ Known existing broker :=
    StableUnder.and lasting_confirmed (lasting_known existing)
  have mayMark : ∀ broker, Confirmed host me options cwd resultSha broker ∧ Known existing broker →
      Writable ⟨existing.bind PushRecord.binding, resultSha, options.branch, .pushed,
        some resultSha⟩ broker := by
    rintro broker ⟨⟨-, creator, original, created, isBound⟩, known⟩
    refine ⟨creator, original, created, isBound.2.1.symm, isBound.2.2.symm, ?_⟩
    cases existing with
    | none => exact Or.inr rfl
    | some record =>
        rcases known record rfl with ⟨_, _, again, fits⟩
        cases created.symm.trans again
        exact fits.binding
  split
  · apply follows_kept kept
    · exact mayMark
    intro marked
    split
    · exact follows_thrown fun _ => trivial
    · exact follows_returned fun _ known => known.1
  · apply follows_kept kept
    · rintro broker ⟨⟨-, creator, original, created, -⟩, -⟩ empty
      cases created.symm.trans empty
    intro opened
    cases opened with
    | none => exact follows_returned fun _ known => known.1
    | some inode =>
        apply follows_kept kept
        · exact mayMark
        intro written
        exact follows_returned fun _ known => known.1

theorem follows_publish : (brokering host).Follows me (Cleared host me options cwd resultSha)
    (publish host options cwd resultSha) (Ends me) := by
  simp only [publish, bind_eq_bind]
  apply follows_authorization lasting_cleared
  intro verdict
  split
  · exact follows_thrown fun _ => trivial
  apply follows_reserve.bind
  · intro _
    apply follows_quiet rfl
    · exact fun _ _ => trivial
    intro reachable
    split
    · exact follows_thrown fun _ => trivial
    have sent : (brokering host).Lasting fun broker => CreatedFor
        (fun _ record => binds host options cwd resultSha record) broker := lasting_createdFor _
    refine .perform (fun _ broker => (validation me options resultSha).Sublist broker.history ∧
        CreatedFor (fun _ record => binds host options cwd resultSha record) broker)
      (fun _ _ sendable => sendable) stable_sendable (fun _ _ sendable => sendable) ?_ ?_
    · intro given broker orderly sendable
      rcases sendable.looked with ⟨existing, remote, looked, -⟩
      rcases sendable.journaled with ⟨creator, record, created, isBound, -⟩
      refine ⟨?_, ?_⟩
      · rw [history_handle]
        exact ((List.sublist_cons_self _ _).trans looked).cons _
      · exact sent me _ given broker trivial orderly sendable ⟨creator, record, created, isBound⟩
    intro pushed
    simp only [bind_returned]
    split
    · exact follows_thrown fun _ => trivial
    apply follows_noted sent
    · exact fun _ => trivial
    intro after
    split
    · exact follows_thrown fun _ => trivial
    · rename_i isConfirmed
      rw [ne_eq, not_not] at isConfirmed
      subst isConfirmed
      have marks : (brokering host).Follows me (Confirmed host me options cwd resultSha)
          (markPushed options resultSha)
          (Yields fun _ => Confirmed host me options cwd resultSha) := follows_markPushed
      apply Follows.weaken (marks.bind _ _) fun broker _ known => ⟨Or.inr known.1, known.2⟩
      · intro _
        apply follows_returned
        rintro broker ⟨shown, created⟩
        exact ⟨⟨options, shown⟩, Or.inl (created.weaken fun _ _ isBound => isBound.2.1)⟩
      · exact fun _ _ _ _ => trivial
  · exact fun _ _ _ _ => trivial

theorem follows_settleOrRecover {existing : Option PushRecord} {remote : RemoteHead}
    (succeeds : remote ≠ .failed) :
    (brokering host).Follows me (Read me options resultSha existing remote)
      (settleOrRecover host options cwd resultSha existing remote)
      (Yields (Decided host me options cwd resultSha)) := by
  unfold settleOrRecover
  split
  · exact follows_recover
  · rename_i ordinary
    exact follows_settle (Bool.eq_false_of_not_eq_true ordinary) succeeds

theorem follows_pushExactSha :
    (brokering host).Follows me (fun _ => True) (pushExactSha host options) (Ends me) := by
  simp only [pushExactSha, bind_eq_bind]
  cases checkShape host options with
  | error reason => exact follows_thrown fun _ => trivial
  | ok _ =>
      apply follows_openWorktree.bind
      · intro cwd
        apply follows_boundResult.bind
        · intro resultSha
          apply follows_validate.bind
          · intro _
            apply follows_read lasting_validated
            intro existing
            apply follows_noted (lasting_known existing)
            · exact fun _ => trivial
            intro remote
            by_cases failed : remote = .failed
            · rw [if_pos failed]
              exact follows_thrown fun _ => trivial
            · rw [if_neg failed]
              apply (follows_settleOrRecover failed).bind
              · intro settled
                cases settled with
                | some answer => exact follows_returned fun _ answered => answered
                | none => exact follows_publish
              · exact fun _ _ _ _ => trivial
          · exact fun _ _ _ _ => trivial
        · exact fun _ _ _ _ => trivial
      · exact fun _ _ _ _ => trivial

theorem follows_moveBranches (moves : List (JsString × JsString × Option JsString)) :
    (brokering host).Follows me (fun _ => True) (moveBranches moves) (Ends me) := by
  induction moves with
  | nil => exact follows_thrown fun _ => trivial
  | cons move moves ih =>
      apply follows_free lasting_true
      · exact fun _ => trivial
      · exact fun _ => ih

theorem follows_program (task : BrokerTask) :
    (brokering host).Follows me (fun _ => True) (program host task) (Ends me) := by
  cases task with
  | push options => exact follows_pushExactSha
  | recover options =>
      simp only [program, recoverExactSha]
      split
      · exact follows_thrown fun _ => trivial
      · exact follows_pushExactSha
  | other moves => exact follows_moveBranches moves

end StudentHub.PushBroker
