import StudentHub.Concurrency.Discipline
import StudentHub.Ecma.Digits

/-!
# `pushExactSha` and `recoverExactSha`

A call validates its options, the worktree and the result, reads the journal and then the
remote, and decides: what the remote shows already is not pushed again, an attempt that was
journaled is not pushed again unless it is recovered, and nothing else is pushed before its
record is written. Every refusal is a hold.
-/

/-!
## The push journal

Before it pushes the result of an attempt the broker creates a journal file exclusively, and
writes the record of the push into it; after the push it writes the record again in place. A
recovery replaces the file by a rename. Between the opening and the write a file is empty, and
a crash leaves it so. The branches of the remote are moved by anybody.
-/

namespace StudentHub.PushBroker

open Ecma JsString Concurrency

/-- `SHA_RE` -/
def isSha (text : JsString) : Bool := text.length = 40 && text.all isHex

structure Binding where
  attemptId : JsString
  targetSha : JsString
  repo : JsString
  worktree : JsString
  deriving DecidableEq

inductive PushStage
  | pending
  | pushed
  deriving DecidableEq

/-- A record of the journal. One that is marked after the record could not be read has lost its
version, its update mode and its binding. -/
structure PushRecord where
  binding : Option Binding
  resultSha : JsString
  branch : JsString
  stage : PushStage
  remoteHead : Option JsString
  deriving DecidableEq

/-- The journal file: which opening created it, and its text when that can be read. -/
structure JournalFile where
  inode : ℕ
  content : Option PushRecord
  deriving DecidableEq

/-- The arguments of `pushExactSha`, which `recoverExactSha` passes on. -/
structure PushOptions where
  recovering : Bool
  hasBeforePublish : Bool
  workspaceReady : Bool
  resultSha : JsString
  targetSha : JsString
  branch : JsString
  branchPrefix : JsString
  repo : JsString
  remoteUrl : JsString
  worktree : JsString
  isScoped : Bool
  scopedBaseSha : JsString
  deriving DecidableEq

/-- What `ls-remote` answers for the branch. -/
inductive RemoteHead
  | failed
  | absent
  | head (sha : JsString)
  deriving DecidableEq

inductive CreateAnswer
  | opened (inode : ℕ)
  | present
  | failed
  deriving DecidableEq

/-- The operations of a call, and what other writers do to a branch. The first look at the
remote is named with the record that the call has read before it. -/
inductive BrokerOp
  | resolveRealRoot
  | createBrokerRepo
  | beforePublish
  | snapshot
  | isAncestor (targetSha resultSha : JsString)
  | readHead
  | cleanTree (resultSha : JsString)
  | readPrePushRecord
  | lsRemote (options : PushOptions) (resultSha : JsString) (existing : Option PushRecord)
  | custody
  | createJournal (record : PushRecord)
  | writeJournal (inode : ℕ) (record : PushRecord)
  | hasCommit (sha : JsString)
  | push (options : PushOptions) (cwd resultSha : JsString)
  | confirmHead (options : PushOptions)
  | truncateJournal
  | durableMark (record : PushRecord)
  | moveBranch (remoteUrl branch : JsString) (head : Option JsString)
  deriving DecidableEq

@[reducible]
def BrokerOp.Answer : BrokerOp → Type
  | resolveRealRoot => Option JsString
  | createBrokerRepo => Bool
  | beforePublish => Option Bool
  | snapshot => Option JsString
  | isAncestor _ _ => Bool
  | readHead => Option JsString
  | cleanTree _ => Bool
  | readPrePushRecord => Option PushRecord
  | lsRemote _ _ _ => RemoteHead
  | custody => Bool
  | createJournal _ => CreateAnswer
  | writeJournal _ _ => Bool
  | hasCommit _ => Bool
  | push _ _ _ => Bool
  | confirmHead _ => RemoteHead
  | truncateJournal => Option ℕ
  | durableMark _ => Bool
  | moveBranch _ _ _ => Unit

/-- What the outside gives to an operation: its answer, and whether it takes effect. A file
operation that succeeds takes effect, a push may or may not, whatever is answered. -/
structure Given where
  yes : Bool
  lands : Bool
  text : Option JsString

def Given.takesEffect (given : Given) : Bool := given.yes || given.lands

structure Deed where
  task : ℕ
  op : BrokerOp
  answer : op.Answer

/-- The state directory and the branches of the remote, by their repositories. The state also
keeps every creation of the journal, by whom and for which record, and what has been done,
newest first. -/
structure Broker where
  journal : Option JournalFile
  inodes : ℕ
  heads : JsString × JsString → Option JsString
  created : List (ℕ × PushRecord)
  history : List Deed

def Broker.initial (heads : JsString × JsString → Option JsString) : Broker :=
  ⟨none, 0, heads, [], []⟩

namespace Broker

def headOf (broker : Broker) (options : PushOptions) : RemoteHead :=
  match broker.heads (options.remoteUrl, options.branch) with
  | none => .absent
  | some sha => if isSha sha then .head sha else .failed

def write (broker : Broker) (inode : ℕ) (content : Option PushRecord) : Broker :=
  { broker with
    journal := broker.journal.map fun file =>
      if file.inode = inode then { file with content } else file }

def replace (broker : Broker) (content : Option PushRecord) : Broker :=
  { broker with journal := some ⟨broker.inodes, content⟩, inodes := broker.inodes + 1 }

def move (broker : Broker) (remoteUrl branch : JsString) (head : Option JsString) : Broker :=
  { broker with
    heads := fun lane => if lane = (remoteUrl, branch) then head else broker.heads lane }

def perform (broker : Broker) (me : ℕ) (given : Given) : (op : BrokerOp) → op.Answer × Broker
  | .resolveRealRoot => (given.text, broker)
  | .createBrokerRepo => (given.yes, broker)
  | .beforePublish => (if given.lands then some given.yes else none, broker)
  | .snapshot => (given.text, broker)
  | .isAncestor _ _ => (given.yes, broker)
  | .readHead => (given.text, broker)
  | .cleanTree _ => (given.yes, broker)
  | .readPrePushRecord =>
      (if given.yes then broker.journal.bind JournalFile.content else none, broker)
  | .lsRemote options _ _ => (if given.yes then broker.headOf options else .failed, broker)
  | .custody => (given.yes, broker)
  | .createJournal record =>
      match broker.journal with
      | some _ => (if given.yes then .present else .failed, broker)
      | none =>
          if given.lands then
            (if given.yes then .opened broker.inodes else .failed,
              { broker.replace none with created := (me, record) :: broker.created })
          else
            (.failed, broker)
  | .writeJournal inode record =>
      (given.yes, if given.takesEffect then broker.write inode (some record) else broker)
  | .hasCommit _ => (given.yes, broker)
  | .push options _ resultSha =>
      (given.yes,
        if given.lands then broker.move options.remoteUrl options.branch (some resultSha) else broker)
  | .confirmHead options => (if given.yes then broker.headOf options else .failed, broker)
  | .truncateJournal =>
      match broker.journal with
      | some file =>
          if given.lands then
            (if given.yes then some file.inode else none, broker.write file.inode none)
          else
            (none, broker)
      | none =>
          if given.lands then
            (if given.yes then some broker.inodes else none, broker.replace none)
          else
            (none, broker)
  | .durableMark record =>
      (given.yes, if given.takesEffect then broker.replace (some record) else broker)
  | .moveBranch remoteUrl branch head => ((), broker.move remoteUrl branch head)

end Broker

def handle : Handler BrokerOp.Answer Given Broker := fun me op given broker =>
  let performed := broker.perform me given op
  (performed.1, { performed.2 with history := ⟨me, op, performed.1⟩ :: performed.2.history })

end StudentHub.PushBroker

namespace StudentHub.PushBroker

open Ecma JsString Concurrency Process

inductive HoldReason
  | resultSha
  | targetSha
  | attemptId
  | bareSha
  | branch
  | worktree
  | repoUrl
  | brokerRepo
  | authorization
  | workspaceResult
  | ancestry
  | worktreeHead
  | worktreeMoved
  | unclean
  | remoteCheck
  | recoveryAuthorization
  | recoveryJournal
  | recoveryBinding
  | recoveryDurability
  | recoveryRemote
  | differentHead
  | unconfirmedRecord
  | clobber
  | recordExists
  | recordUnwritten
  | unreachable
  | pushAmbiguous
  | postPush
  deriving DecidableEq

/-- The answer of a call that is not held. -/
inductive PushAnswer
  | pushed (remoteHead : JsString)
  | alreadyPushed (remoteHead : JsString) (recovered : Bool)
  deriving DecidableEq

def PushAnswer.remoteHead : PushAnswer → JsString
  | pushed head => head
  | alreadyPushed head _ => head

abbrev BrokerProcess (Value : Type) := Process BrokerOp.Answer HoldReason Value

def ask (op : BrokerOp) : BrokerProcess op.Answer := call op

/-- What the broker is configured with: the attempt, and which URLs name which repositories. -/
structure BrokerHost where
  attemptId : JsString
  repoUrlFits : JsString → JsString → Bool

variable (host : BrokerHost)

def protectedBranches : List JsString := [js "main", js "master", js "develop"]

def validateBranchPrefix (branch branchPrefix : JsString) : Bool :=
  branch ≠ [] && !(js "refs/").isPrefixOf branch && branch ∉ protectedBranches &&
    (branchPrefix = [] || branchPrefix.isPrefixOf branch)

def checkShape (options : PushOptions) : Except HoldReason Unit :=
  if !options.workspaceReady && !isSha options.resultSha then .error .resultSha
  else if !isSha options.targetSha then .error .targetSha
  else if host.attemptId = [] then .error .attemptId
  else if options.branch = options.resultSha then .error .bareSha
  else if !validateBranchPrefix options.branch options.branchPrefix then .error .branch
  else .ok ()

def openWorktree (options : PushOptions) : BrokerProcess JsString := do
  let some cwd ← ask .resolveRealRoot | thrown .worktree
  if !host.repoUrlFits options.remoteUrl options.repo then thrown .repoUrl
  else
    let isReady ← ask .createBrokerRepo
    if !isReady then thrown .brokerRepo else returned cwd

/-- `beforePublish`, where the caller gives one -/
def authorize (options : PushOptions) : BrokerProcess (Option Bool) :=
  if options.hasBeforePublish then ask .beforePublish else returned (some true)

def boundResult (options : PushOptions) : BrokerProcess JsString :=
  if !options.workspaceReady then returned options.resultSha
  else do
    let verdict ← authorize options
    match verdict with
    | none => thrown .workspaceResult
    | some false => thrown .authorization
    | some true =>
        let some resultSha ← ask .snapshot | thrown .workspaceResult
        returned resultSha

def expectedHead (options : PushOptions) (resultSha : JsString) : JsString :=
  if options.workspaceReady then
    (if options.isScoped then options.scopedBaseSha else options.targetSha)
  else resultSha

def validate (options : PushOptions) (resultSha : JsString) : BrokerProcess Unit := do
  let descends ← ask (.isAncestor options.targetSha resultSha)
  if !descends then thrown .ancestry
  else
    let some head ← ask .readHead | thrown .worktreeHead
    if head ≠ expectedHead options resultSha then thrown .worktreeMoved
    else if options.workspaceReady then
      let again ← ask .snapshot
      if again ≠ some resultSha then thrown .unclean else returned ()
    else
      let isClean ← ask (.cleanTree resultSha)
      if !isClean then thrown .unclean else returned ()

def bindingOf (options : PushOptions) (cwd : JsString) : Binding where
  attemptId := host.attemptId
  targetSha := options.targetSha
  repo := options.repo
  worktree := cwd

/-- The journal binds exactly this call. -/
def binds (options : PushOptions) (cwd resultSha : JsString) (record : PushRecord) : Prop :=
  record.binding = some (bindingOf host options cwd) ∧ record.resultSha = resultSha ∧
    record.branch = options.branch

instance (options : PushOptions) (cwd resultSha : JsString) (record : PushRecord) :
    Decidable (binds host options cwd resultSha record) :=
  inferInstanceAs (Decidable (_ ∧ _ ∧ _))

/-- A recovery goes on to the push only from the pending record of exactly this call and from
the bound parent; where the remote shows the result already it confirms that. -/
def recover (options : PushOptions) (cwd resultSha : JsString) (existing : Option PushRecord)
    (remote : RemoteHead) : BrokerProcess (Option PushAnswer) := do
  let verdict ← ask .beforePublish
  if verdict ≠ some true then thrown .recoveryAuthorization
  else
    let isPrivate ← ask .custody
    if !isPrivate then thrown .recoveryJournal
    else
      match existing with
      | none => thrown .recoveryBinding
      | some record =>
          if ¬binds host options cwd resultSha record then thrown .recoveryBinding
          else if remote = .head resultSha then
            let marked ← ask (.durableMark
              { record with stage := .pushed, remoteHead := some resultSha })
            if !marked then thrown .recoveryDurability
            else returned (some (.alreadyPushed resultSha true))
          else if record.stage ≠ .pending ∨ remote ≠ .head options.targetSha then
            thrown .recoveryRemote
          else returned none

/-- What an ordinary call finds in the journal and on the remote before it may push. -/
def settle (options : PushOptions) (resultSha : JsString) (existing : Option PushRecord)
    (remote : RemoteHead) : Except HoldReason (Option PushAnswer) :=
  match existing, remote with
  | some _, .head sha =>
      if sha = resultSha then .ok (some (.alreadyPushed resultSha true)) else .error .differentHead
  | some _, _ => .error .unconfirmedRecord
  | none, .head sha =>
      if sha = resultSha then .ok (some (.alreadyPushed resultSha false))
      else if sha ≠ options.targetSha then .error .clobber
      else .ok none
  | none, _ => .ok none

def persistPrePush (options : PushOptions) (cwd resultSha : JsString) : BrokerProcess Unit := do
  let record : PushRecord :=
    ⟨some (bindingOf host options cwd), resultSha, options.branch, .pending, none⟩
  match ← ask (.createJournal record) with
  | .present => thrown .recordExists
  | .failed => thrown .recordUnwritten
  | .opened inode =>
      let written ← ask (.writeJournal inode record)
      if !written then thrown .recordUnwritten else returned ()

def reserve (options : PushOptions) (cwd resultSha : JsString) : BrokerProcess Unit :=
  if options.recovering then returned () else persistPrePush host options cwd resultSha

/-- The record after the push, in place, or by a rename when it is a recovery. The mark of an
ordinary push may fail. -/
def markPushed (options : PushOptions) (resultSha : JsString) : BrokerProcess Unit := do
  let record ← ask .readPrePushRecord
  let mark : PushRecord :=
    ⟨record.bind PushRecord.binding, resultSha, options.branch, .pushed, some resultSha⟩
  if options.recovering then
    let marked ← ask (.durableMark mark)
    if !marked then thrown .recoveryDurability else returned ()
  else
    let some inode ← ask .truncateJournal | returned ()
    let _ ← ask (.writeJournal inode mark)
    returned ()

def publish (options : PushOptions) (cwd resultSha : JsString) : BrokerProcess PushAnswer := do
  let verdict ← authorize options
  if verdict ≠ some true then thrown .authorization
  else
    reserve host options cwd resultSha
    let reachable ← ask (.hasCommit resultSha)
    if !reachable then thrown .unreachable
    else
      let pushed ← ask (.push options cwd resultSha)
      if !pushed then thrown .pushAmbiguous
      else
        let after ← ask (.confirmHead options)
        if after ≠ .head resultSha then thrown .postPush
        else
          markPushed options resultSha
          returned (.pushed resultSha)

def settleOrRecover (options : PushOptions) (cwd resultSha : JsString) (existing : Option PushRecord)
    (remote : RemoteHead) : BrokerProcess (Option PushAnswer) :=
  if options.recovering then recover host options cwd resultSha existing remote
  else ofExcept (settle options resultSha existing remote)

def pushExactSha (options : PushOptions) : BrokerProcess PushAnswer := do
  ofExcept (checkShape host options)
  let cwd ← openWorktree host options
  let resultSha ← boundResult options
  validate options resultSha
  let existing ← ask .readPrePushRecord
  let remote ← ask (.lsRemote options resultSha existing)
  if remote = .failed then thrown .remoteCheck
  else
    match ← settleOrRecover host options cwd resultSha existing remote with
    | some answer => returned answer
    | none => publish host options cwd resultSha

def recoverExactSha (options : PushOptions) : BrokerProcess PushAnswer :=
  if !options.hasBeforePublish then thrown .recoveryAuthorization
  else pushExactSha host { options with recovering := true }

/-- What runs against the state directory and the remote: calls, and other writers. -/
inductive BrokerTask
  | push (options : PushOptions)
  | recover (options : PushOptions)
  | other (moves : List (JsString × JsString × Option JsString))

def moveBranches : List (JsString × JsString × Option JsString) → BrokerProcess PushAnswer
  | [] => thrown .remoteCheck
  | (remoteUrl, branch, head) :: moves =>
      perform (.moveBranch remoteUrl branch head) fun _ => moveBranches moves

def program : BrokerTask → BrokerProcess PushAnswer
  | .push options => pushExactSha host { options with recovering := false }
  | .recover options => recoverExactSha host options
  | .other moves => moveBranches moves

end StudentHub.PushBroker
