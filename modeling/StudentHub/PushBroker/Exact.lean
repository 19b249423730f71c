import StudentHub.PushBroker.Answers

/-!
# Runs of the broker

Any number of calls and recoveries of one attempt run at once, each of them may die at any
step, and others move the branches meanwhile. There is at most one ordinary push, every push
has its record and its checks before it, and an answer that is not a hold has been shown by the
remote.
-/

namespace StudentHub.PushBroker

open Ecma JsString Concurrency Process Discipline

abbrev BrokerWorld := TaskWorld BrokerOp.Answer HoldReason PushAnswer Broker

def runFresh (host : BrokerHost) (heads : JsString × JsString → Option JsString)
    (events : List (TaskEvent BrokerTask Given)) : BrokerWorld :=
  (TaskWorld.initial (.initial heads)).run handle (program host) events

def pushOf : BrokerProcess PushAnswer → Option (PushOptions × JsString × JsString)
  | .perform (.push options cwd resultSha) _ => some (options, cwd, resultSha)
  | _ => none

def answerOf : BrokerProcess PushAnswer → Option PushAnswer
  | .returned answer => some answer
  | _ => none

def Pushing (world : BrokerWorld) (id : ℕ) (options : PushOptions) (cwd resultSha : JsString) : Prop :=
  world.tasks[id]?.join.bind pushOf = some (options, cwd, resultSha)

/-- The task has answered `ok`. -/
def Returned (world : BrokerWorld) (id : ℕ) (answer : PushAnswer) : Prop :=
  world.tasks[id]?.join.bind answerOf = some answer

instance (world : BrokerWorld) (id : ℕ) (options : PushOptions) (cwd resultSha : JsString) :
    Decidable (Pushing world id options cwd resultSha) :=
  inferInstanceAs (Decidable (_ = _))

instance (world : BrokerWorld) (id : ℕ) (answer : PushAnswer) :
    Decidable (Returned world id answer) :=
  inferInstanceAs (Decidable (_ = _))

def Broker.record? (broker : Broker) : Option PushRecord := broker.journal.bind JournalFile.content

structure PushesExactly (host : BrokerHost) (world : BrokerWorld) : Prop where
  once : world.state.ordinaryPushes.length ≤ 1
  sendable : ∀ id options cwd resultSha, Pushing world id options cwd resultSha →
    world.state.journal.isSome ∧ Sendable host id options cwd resultSha world.state
  shown : ∀ id answer, Returned world id answer →
    ∃ options, Shown id options answer.remoteHead world.state

/-- While the journal can be read it names exactly the call that is about to push. -/
def NamesPushes (host : BrokerHost) (world : BrokerWorld) : Prop :=
  ∀ id options cwd resultSha, Pushing world id options cwd resultSha →
    ∀ record, world.state.record? = some record → binds host options cwd resultSha record

variable {host : BrokerHost}

theorem orderly_initial (heads : JsString × JsString → Option JsString) :
    Orderly (.initial heads) :=
  .fresh rfl rfl rfl

theorem sound_runFresh (heads : JsString × JsString → Option JsString)
    (events : List (TaskEvent BrokerTask Given)) :
    TaskWorld.SoundEach (brokering host) Ends (runFresh host heads events) :=
  (TaskWorld.SoundEach.initial (orderly_initial heads)).run
    (fun _ result => (lasting_ends result).stable)
    fun _ task _ => follows_program task

theorem sendable_of_pushing {world : BrokerWorld} {id : ℕ} {options : PushOptions}
    {cwd resultSha : JsString} (sound : TaskWorld.SoundEach (brokering host) Ends world)
    (pushing : Pushing world id options cwd resultSha) :
    Sendable host id options cwd resultSha world.state := by
  rcases Option.bind_eq_some_iff.mp pushing with ⟨process, isTask, isPush⟩
  rw [Option.join_eq_some_iff] at isTask
  unfold pushOf at isPush
  split at isPush
  case h_2 => cases isPush
  cases isPush
  exact ((sound.behaves id _ isTask).perform (fun result => (lasting_ends result).stable)
    sound.invariant ⟨true, true, none⟩).1

theorem answered_of_returned {world : BrokerWorld} {id : ℕ} {answer : PushAnswer}
    (sound : TaskWorld.SoundEach (brokering host) Ends world) (isReturned : Returned world id answer) :
    Answered id answer world.state := by
  rcases Option.bind_eq_some_iff.mp isReturned with ⟨process, isTask, isAnswer⟩
  rw [Option.join_eq_some_iff] at isTask
  unfold answerOf at isAnswer
  split at isAnswer
  case h_2 => cases isAnswer
  cases isAnswer
  rcases sound.behaves id _ isTask with ⟨fact, holds, -, follows⟩
  cases follows with
  | returned ends => exact ends world.state sound.invariant holds

theorem Orderly.length_le {broker : Broker} (orderly : Orderly broker) :
    broker.ordinaryPushes.length ≤ 1 := by
  cases orderly with
  | fresh _ _ none => simp only [none, List.length_nil, Nat.zero_le]
  | journaled _ _ _ single => exact single

theorem Orderly.isSome_journal {broker : Broker} {creation : ℕ × PushRecord} (orderly : Orderly broker)
    (created : broker.created = [creation]) : broker.journal.isSome := by
  cases orderly with
  | fresh _ empty => cases created.symm.trans empty
  | journaled present => simp only [present, Option.isSome_some]

theorem Orderly.fits {broker : Broker} {creator : ℕ} {original record : PushRecord}
    (orderly : Orderly broker) (created : broker.created = [(creator, original)])
    (isRecord : broker.record? = some record) :
    Fits original record ∧ (record.binding = none → broker.isSpoiled) := by
  rcases Option.bind_eq_some_iff.mp isRecord with ⟨file, isFile, isContent⟩
  cases orderly with
  | fresh absent => cases absent.symm.trans isFile
  | journaled present isCreated content =>
      cases present.symm.trans isFile
      cases created.symm.trans isCreated
      exact content record isContent

theorem Orderly.exists_created {broker : Broker} {record : PushRecord} (orderly : Orderly broker)
    (isRecord : broker.record? = some record) : ∃ creation, broker.created = [creation] := by
  cases orderly with
  | fresh absent =>
      rw [Broker.record?, absent] at isRecord
      cases isRecord
  | journaled _ created => exact ⟨_, created⟩

def someHost : BrokerHost := ⟨js "attempt", fun _ _ => true⟩

def targetSha : JsString := js "1111111111111111111111111111111111111111"

def resultSha : JsString := js "2222222222222222222222222222222222222222"

def otherSha : JsString := js "3333333333333333333333333333333333333333"

def callOptions (resultSha : JsString) : PushOptions where
  recovering := false
  hasBeforePublish := true
  workspaceReady := false
  resultSha
  targetSha
  branch := js "coordinator/lane"
  branchPrefix := js "coordinator/"
  repo := js "owner/repo"
  remoteUrl := js "https://github.com/owner/repo"
  worktree := js "/work"
  isScoped := false
  scopedBaseSha := []

def laneAt (sha : JsString) : JsString × JsString → Option JsString := fun lane =>
  if lane = (js "https://github.com/owner/repo", js "coordinator/lane") then some sha else none

def succeed (id count : ℕ) : List (TaskEvent BrokerTask Given) :=
  List.replicate count (.step id ⟨true, true, some (js "/work")⟩)

def lookedAt (id : ℕ) (resultSha : JsString) : List (TaskEvent BrokerTask Given) :=
  succeed id 3 ++ [.step id ⟨true, true, some resultSha⟩] ++ succeed id 3

/-- Two recoveries get as far as their pushes before the call whose record they go by has
pushed. The call truncates the journal for its mark, and the first recovery marks what it
cannot read. -/
def markedUnread : List (TaskEvent BrokerTask Given) :=
  [.start (.push (callOptions resultSha)), .start (.recover (callOptions resultSha)),
    .start (.recover (callOptions resultSha))] ++
  lookedAt 0 resultSha ++ succeed 0 3 ++ lookedAt 1 resultSha ++ succeed 1 4 ++
  lookedAt 2 resultSha ++ succeed 2 4 ++ succeed 0 5 ++ succeed 1 4

/-- A call that has created the journal and is about to push. -/
def reserved : List (TaskEvent BrokerTask Given) :=
  [.start (.push (callOptions resultSha))] ++ lookedAt 0 resultSha ++ succeed 0 4

/-- Every ordinary call that finds its result on the remote has read a record of that result, or
has read no record while the journal and every other such call are about that result. -/
def Traceable (broker : Broker) : Prop :=
  (∀ finding ∈ broker.findings, ∀ record ∈ finding.2, record.resultSha = finding.1) ∧
    ∀ finding ∈ broker.findings, finding.2 = none →
      (∀ other ∈ broker.findings, other.2 = none → other.1 = finding.1) ∧
        ∀ creation ∈ broker.created, creation.2.resultSha = finding.1

instance (broker : Broker) : Decidable (Traceable broker) :=
  inferInstanceAs (Decidable (_ ∧ _))

/-- All answers name one result, and the journal binds no other. -/
structure Agrees (world : BrokerWorld) : Prop where
  together : ∀ id answer other otherAnswer, Returned world id answer →
    Returned world other otherAnswer → answer.remoteHead = otherAnswer.remoteHead
  journaled : ∀ id answer record, Returned world id answer →
    world.state.record? = some record → record.resultSha = answer.remoteHead

/-- Where an answer comes from when everything can be traced: the record that the journal was
created for, or a finding without a record. -/
theorem Answered.traced {broker : Broker} {id : ℕ} {answer : PushAnswer} (traceable : Traceable broker)
    (answered : Answered id answer broker) :
    CreatedFor (fun _ record => record.resultSha = answer.remoteHead) broker ∨
      (answer.remoteHead, none) ∈ broker.findings := by
  rcases answered.sourced with created | ⟨_ | record, finding, known⟩
  · exact Or.inl created
  · exact Or.inr finding
  · left
    rcases known record rfl with ⟨creator, original, created, fits⟩
    exact ⟨creator, original, created,
      fits.result.symm.trans (traceable.1 _ finding record rfl)⟩

theorem remoteHead_eq_of_traced {broker : Broker} {id other : ℕ} {answer otherAnswer : PushAnswer}
    (traceable : Traceable broker) (answered : Answered id answer broker)
    (otherAnswered : Answered other otherAnswer broker) :
    answer.remoteHead = otherAnswer.remoteHead := by
  rcases answered.traced traceable with ⟨_, record, created, isResult⟩ | found <;>
    rcases otherAnswered.traced traceable with ⟨_, otherRecord, again, isOther⟩ | otherFound
  · cases created.symm.trans again
    exact isResult.symm.trans isOther
  · have same := (traceable.2 _ otherFound rfl).2 _ (created ▸ List.mem_singleton_self _)
    exact isResult.symm.trans same
  · have same := (traceable.2 _ found rfl).2 _ (again ▸ List.mem_singleton_self _)
    exact same.symm.trans isOther
  · exact (traceable.2 _ otherFound rfl).1 _ found rfl

/-- In a run whose findings can be traced all answers agree. -/
theorem answers_agree (host : BrokerHost) (heads : JsString × JsString → Option JsString)
    (events : List (TaskEvent BrokerTask Given))
    (traceable : Traceable (runFresh host heads events).state) :
    Agrees (runFresh host heads events) := by
  have sound : TaskWorld.SoundEach (brokering host) Ends (runFresh host heads events) :=
    sound_runFresh heads events
  refine ⟨?_, ?_⟩
  · intro id answer other otherAnswer isReturned otherReturned
    exact remoteHead_eq_of_traced traceable (answered_of_returned sound isReturned)
      (answered_of_returned sound otherReturned)
  · intro id answer record isReturned isRecord
    rcases (answered_of_returned sound isReturned).traced traceable with
      ⟨_, original, created, isResult⟩ | found
    · exact (sound.invariant.fits created isRecord).1.result.trans isResult
    · rcases sound.invariant.exists_created isRecord with ⟨creation, created⟩
      rw [(sound.invariant.fits created isRecord).1.result]
      exact (traceable.2 _ found rfl).2 _ (created ▸ List.mem_singleton_self _)

/-- The branch is moved to a second result after the first has been pushed, and a call for the
second one goes by the journal of the first. -/
def pushedTwice : List (TaskEvent BrokerTask Given) :=
  [.start (.push (callOptions resultSha))] ++ lookedAt 0 resultSha ++ succeed 0 9 ++
  [.start (.other [(js "https://github.com/owner/repo", js "coordinator/lane", some otherSha)]),
    .start (.push (callOptions otherSha))] ++ succeed 1 1 ++ lookedAt 2 otherSha

theorem not_agrees_pushedTwice :
    ¬Agrees (runFresh someHost (laneAt targetSha) pushedTwice) := by
  intro agrees
  have first : Returned (runFresh someHost (laneAt targetSha) pushedTwice) 0
      (.pushed resultSha) := by
    decide +kernel
  have second : Returned (runFresh someHost (laneAt targetSha) pushedTwice) 2
      (.alreadyPushed otherSha true) := by
    decide +kernel
  have same : resultSha = otherSha := agrees.together 0 _ 2 _ first second
  revert same
  decide +kernel

/-- A call that pushes, and a call after it that finds the result. -/
theorem agrees_pushedAgain :
    let events := [.start (.push (callOptions resultSha))] ++ lookedAt 0 resultSha ++ succeed 0 9 ++
      [.start (.push (callOptions resultSha))] ++ lookedAt 1 resultSha
    Returned (runFresh someHost (laneAt targetSha) events) 1 (.alreadyPushed resultSha true) ∧
      Agrees (runFresh someHost (laneAt targetSha) events) := by
  intro events
  exact ⟨by decide +kernel, answers_agree someHost (laneAt targetSha) events (by decide +kernel)⟩

end StudentHub.PushBroker
