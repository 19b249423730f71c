import StudentHub.Dangling.Probes

/-!
# What a post says about the attempt

A call posts at most one record, and it posts it if and only if every check has passed. Then
each of its conditions was observed, none of them before the start of the call. What the checks
do not see is a worker probe that lists pids and no sightings, and a record of the attempt that
passes for newer than the one that was posted.
-/

/-!
## `reconcileDanglingAttempt`

A call takes eight probes, one after the other, and checks each of them before the next. When
nothing contradicts that the attempt is dangling it posts the record that the state machine
holds. What the call is given is fixed; what it does is take probes and post.
-/

namespace StudentHub.Dangling

open Ecma JsString JsValue Coordinator Concurrency Process

mutual

/-- `structuredClone` has a copy of the value. -/
def cloneable : JsValue → Bool
  | .other => false
  | .array items => cloneableItems items
  | .object properties => cloneableProperties properties
  | _ => true

def cloneableItems : List JsValue → Bool
  | [] => true
  | item :: rest => cloneable item && cloneableItems rest

def cloneableProperties : List (JsString × JsValue) → Bool
  | [] => true
  | (_, value) :: rest => cloneable value && cloneableProperties rest

end

def codePoints : JsString → List JsString
  | [] => []
  | [unit] => [[unit]]
  | first :: second :: rest =>
      if isHighSurrogate first && isLowSurrogate second then
        [first, second] :: codePoints rest
      else
        [first] :: codePoints (second :: rest)

/-- `[...value]` -/
def spread : JsValue → Except Stop (List JsValue)
  | .array items => .ok items
  | .string text => .ok ((codePoints text).map .string)
  | _ => .error .rejected

/-- `value.name = member`; an array has no named members here. -/
def withMember (value : JsValue) (name : JsString) (member : JsValue) : Except Stop JsValue :=
  match value with
  | .object properties => .ok (.object (setProperty properties name member))
  | .array items => .ok (.array items)
  | _ => .error .rejected

/-- An event of type `hold`, with what the clock answers for each of its two times. -/
structure HoldEvent where
  activityAt : JsValue
  terminalAt : JsValue
  reason : JsString

/-- `nextReceiptState` for an event of type `hold`; `none` when it is not accepted. -/
def nextReceiptState (receipt : JsValue) (event : HoldEvent) : Except Stop (Option JsValue) :=
  if !isObject receipt ||
      Stage.terminal.any (fun stage => (receipt.get (js "stage")).isText stage.text) ||
      !([Stage.running, Stage.launchUnknown].any fun stage =>
        (receipt.get (js "stage")).isText stage.text) then
    .ok none
  else if !cloneable receipt then
    .error .rejected
  else do
    let notes ← spread (receipt.get (js "notes"))
    let links ← spread (receipt.get (js "evidence_links"))
    let timestamps ← withMember (receipt.get (js "timestamps")) (js "terminal") event.terminalAt
    return some (receipt.assign
      [(js "notes", .array (notes ++ [.string (js "held: " ++ event.reason)])),
       (js "last_activity", event.activityAt),
       (js "evidence_links", .array links),
       (js "stage", .string Stage.hold.text),
       (js "timestamps", timestamps)])

def terminalizeReceipt (receipt : JsValue) (event : HoldEvent) : Except Stop JsValue := do
  match ← nextReceiptState receipt event with
  | none => refuse .notDangling
  | some held => return held

inductive Probe
  | readReceipts
  | supervisorStatus
  | workerProcesses
  | workerLiveness
  | worktree
  | branchHead
  | pushReceipt
  | supervisorStore
  deriving DecidableEq

inductive ReconcileOp
  | take (probe : Probe)
  | postReceipt (receipt linearIssueId : JsValue)

/-- What a probe answers, if it does not throw, and whether a post is confirmed. -/
@[reducible]
def ReconcileOp.Answer : ReconcileOp → Type
  | take _ => Option JsValue
  | postReceipt _ _ => Bool

abbrev ReconcileProcess (Value : Type) := Process ReconcileOp.Answer Stop Value

def ask (op : ReconcileOp) : ReconcileProcess op.Answer := call op

/-- What a call is given: its arguments, the readings of the clock, where the first is the start
of the call, what the probes answer and whether the post is confirmed. -/
structure DanglingCall where
  attemptId : JsValue
  configLoads : Bool
  linearIssueId : JsValue
  /-- `read.linearIdByAttempt?.get(attempt_id)`, if it does not throw. -/
  linearIdOf : Option JsValue
  startedAt : JsValue
  /-- The second reading of the clock, and the times of the platform where it has none. -/
  heldAt : JsValue
  activityNow : JsString
  terminalNow : JsString
  answer : Probe → Option JsValue
  confirmed : Bool

/-- `/^[0-9a-f]{8}-…$/.test(attempt_id)` for a string -/
def checkAttemptId : JsValue → Except Stop JsString
  | .string text => if isUuid text then .ok text else refuse .evidenceMissing
  | _ => refuse .evidenceMissing

def DanglingCall.issue (call : DanglingCall) : Except Stop JsValue := do
  let issue ← match call.linearIssueId with
    | .undefined | .null => evaluate call.linearIdOf
    | given => .ok given
  if (issue.orElse .null).truthy then return issue else refuse .evidenceMissing

def DanglingCall.holdEvent (call : DanglingCall) (attemptId : JsString) : HoldEvent where
  activityAt := call.heldAt.orElse (.string call.activityNow)
  terminalAt := call.heldAt.orElse (.string call.terminalNow)
  reason := js "reconciled dangling LAUNCH_UNKNOWN: supervisor reported MISSING_CLAIM and no worker, worktree, branch or push effect exists for attempt " ++
    attemptId

variable (host : ReconcileHost) (call : DanglingCall)

def take (probe : Probe) : ReconcileProcess JsValue := do
  match ← ask (.take probe) with
  | none => thrown (.refused .evidenceMissing)
  | some value =>
      ofExcept (probeFreshness host value call.startedAt)
      returned value

def reconcileDanglingAttempt : ReconcileProcess JsValue := do
  ofExcept (require call.configLoads .evidenceMissing)
  let attemptId ← ofExcept (checkAttemptId call.attemptId)
  let read ← take host call .readReceipts
  let receipt ← ofExcept (danglingRecord host read attemptId)
  let issue ← ofExcept call.issue
  let status ← take host call .supervisorStatus
  ofExcept (supervisorDisownsAttempt (status.get (js "response")))
  let workers ← take host call .workerProcesses
  let sightings ← ofExcept (sightingsOf workers)
  let liveness ← take host call .workerLiveness
  ofExcept (checkWorkers sightings liveness)
  let worktree ← take host call .worktree
  ofExcept (checkWorktree receipt worktree)
  let branch ← take host call .branchHead
  ofExcept (checkBranch receipt branch)
  let push ← take host call .pushReceipt
  ofExcept (checkPush push)
  let store ← take host call .supervisorStore
  ofExcept (checkStore store)
  let held ← ofExcept (terminalizeReceipt receipt (call.holdEvent attemptId))
  let confirmed ← ask (.postReceipt held issue)
  if confirmed then returned held else thrown (.refused .writeUnconfirmed)

def DanglingCall.perform : (op : ReconcileOp) → List JsValue →
    Except Stop op.Answer × List JsValue
  | .take probe, posts => (.ok (call.answer probe), posts)
  | .postReceipt receipt _, posts => (.ok call.confirmed, posts ++ [receipt])

def posts : List JsValue := ((reconcileDanglingAttempt host call).run call.perform []).2

end StudentHub.Dangling

namespace StudentHub.Dangling

open Ecma JsString JsValue Coordinator Concurrency Process

variable {host : ReconcileHost} {call later : DanglingCall}

def taken (host : ReconcileHost) (call : DanglingCall) (probe : Probe) : Except Stop JsValue :=
  match call.answer probe with
  | none => .error (.refused .evidenceMissing)
  | some value => (probeFreshness host value call.startedAt).map fun _ => value

def sends {Value : Type} (call : DanglingCall) (process : ReconcileProcess Value) : List JsValue :=
  (process.run call.perform []).2

section Sends

variable {Value Value' : Type} {rest : Value → ReconcileProcess Value'} {posted : JsValue}

structure Quiet (call : DanglingCall) (process : ReconcileProcess Value)
    (result : Except Stop Value) : Prop where
  run : ∀ posts, process.run call.perform posts = (result, posts)

theorem quiet_ofExcept (computed : Except Stop Value) : Quiet call (ofExcept computed) computed where
  run posts := by cases computed <;> rfl

theorem quiet_take (probe : Probe) : Quiet call (take host call probe) (taken host call probe) where
  run posts := by
    simp only [take, bind_eq_bind, ask, bind_call, Process.run, DanglingCall.perform, taken]
    cases call.answer probe with
    | none => rfl
    | some value =>
        dsimp only
        cases probeFreshness host value call.startedAt <;> rfl

theorem sends_bind {process : ReconcileProcess Value} {result : Except Stop Value}
    (quiet : Quiet call process result) : sends call (process.bind rest) =
      match result with
      | .ok value => sends call (rest value)
      | .error _ => [] := by
  rw [sends, run_bind, quiet.run]
  cases result <;> rfl

theorem mem_sends_bind {process : ReconcileProcess Value} {result : Except Stop Value}
    (quiet : Quiet call process result) : posted ∈ sends call (process.bind rest) ↔
      ∃ value, result = .ok value ∧ posted ∈ sends call (rest value) := by
  rw [sends_bind quiet]
  cases result <;> simp

theorem length_sends_bind {process : ReconcileProcess Value} {result : Except Stop Value}
    {bound : ℕ} (quiet : Quiet call process result)
    (each : ∀ value, result = .ok value → (sends call (rest value)).length ≤ bound) :
    (sends call (process.bind rest)).length ≤ bound := by
  rw [sends_bind quiet]
  cases result with
  | ok value => exact each value rfl
  | error stop => exact Nat.zero_le bound

end Sends

@[simp]
theorem require_eq_ok {holds : Bool} {code : RefusalCode} {checked : Unit} :
    require holds code = .ok checked ↔ holds = true := by
  cases holds <;> simp [require, refuse]

/-- What the checks of a call need, with the record that it is about and the one that it posts. -/
structure Passes (host : ReconcileHost) (call : DanglingCall) (receipt posted : JsValue) : Prop where
  configured : call.configLoads = true
  named : ∃ attemptId read, checkAttemptId call.attemptId = .ok attemptId ∧
    taken host call .readReceipts = .ok read ∧ danglingRecord host read attemptId = .ok receipt ∧
    terminalizeReceipt receipt (call.holdEvent attemptId) = .ok posted
  addressed : ∃ issue, call.issue = .ok issue
  status : ∃ status, taken host call .supervisorStatus = .ok status ∧
    supervisorDisownsAttempt (status.get (js "response")) = .ok ()
  workers : ∃ workers sightings liveness, taken host call .workerProcesses = .ok workers ∧
    sightingsOf workers = .ok sightings ∧ taken host call .workerLiveness = .ok liveness ∧
    checkWorkers sightings liveness = .ok ()
  worktree : ∃ worktree, taken host call .worktree = .ok worktree ∧
    checkWorktree receipt worktree = .ok ()
  branch : ∃ branch, taken host call .branchHead = .ok branch ∧ checkBranch receipt branch = .ok ()
  push : ∃ push, taken host call .pushReceipt = .ok push ∧ checkPush push = .ok ()
  store : ∃ store, taken host call .supervisorStore = .ok store ∧ checkStore store = .ok ()

theorem mem_posts {posted : JsValue} :
    posted ∈ posts host call ↔ ∃ receipt, Passes host call receipt posted := by
  have last : ∀ held issue, posted ∈ sends call ((ask (.postReceipt held issue)).bind fun confirmed =>
      if confirmed then returned held else thrown (.refused .writeUnconfirmed)) ↔ held = posted := by
    intro held issue
    simp only [sends, ask, bind_call, Process.run, DanglingCall.perform, List.nil_append]
    split <;> simp [Process.run, eq_comm]
  change posted ∈ sends call (reconcileDanglingAttempt host call) ↔ _
  simp only [reconcileDanglingAttempt, bind_eq_bind, mem_sends_bind (quiet_ofExcept _),
    mem_sends_bind (quiet_take _), last]
  constructor
  · rintro ⟨_, configured, attemptId, named, read, isRead, receipt, isReceipt, issue, addressed, status,
      isStatus, _, disowned, workers, isWorkers, sightings, sighted, liveness, isLiveness, _, checked,
      worktree, isWorktree, _, unchanged, branch, isBranch, _, unmoved, push, isPush, _, unpushed, store,
      isStore, _, unclaimed, held, isHeld, rfl⟩
    refine ⟨receipt, ?_, ⟨attemptId, read, named, isRead, isReceipt, isHeld⟩, ⟨issue, addressed⟩,
      ⟨status, isStatus, disowned⟩, ⟨workers, sightings, liveness, isWorkers, sighted, isLiveness, checked⟩,
      ⟨worktree, isWorktree, unchanged⟩, ⟨branch, isBranch, unmoved⟩, ⟨push, isPush, unpushed⟩,
      ⟨store, isStore, unclaimed⟩⟩
    exact (require_eq_ok.mp configured)
  · rintro ⟨receipt, configured, ⟨attemptId, read, named, isRead, isReceipt, isHeld⟩, ⟨issue, addressed⟩,
      ⟨status, isStatus, disowned⟩, ⟨workers, sightings, liveness, isWorkers, sighted, isLiveness, checked⟩,
      ⟨worktree, isWorktree, unchanged⟩, ⟨branch, isBranch, unmoved⟩, ⟨push, isPush, unpushed⟩,
      ⟨store, isStore, unclaimed⟩⟩
    exact ⟨(), require_eq_ok.mpr configured, attemptId, named, read, isRead, receipt, isReceipt, issue,
      addressed, status, isStatus, (), disowned, workers, isWorkers, sightings, sighted, liveness,
      isLiveness, (), checked, worktree, isWorktree, (), unchanged, branch, isBranch, (), unmoved, push,
      isPush, (), unpushed, store, isStore, (), unclaimed, posted, isHeld, rfl⟩

theorem length_posts_le : (posts host call).length ≤ 1 := by
  have last : ∀ held issue, (sends call ((ask (.postReceipt held issue)).bind fun confirmed =>
      if confirmed then returned held else thrown (.refused .writeUnconfirmed))).length ≤ 1 := by
    intro held issue
    simp only [sends, ask, bind_call, Process.run, DanglingCall.perform, List.nil_append]
    split <;> simp [Process.run]
  change (sends call (reconcileDanglingAttempt host call)).length ≤ 1
  simp only [reconcileDanglingAttempt, bind_eq_bind]
  repeat' first
    | exact last _ _
    | (refine length_sends_bind (quiet_ofExcept _) ?_; intro _ _)
    | (refine length_sends_bind (quiet_take _) ?_; intro _ _)

def Fresh (host : ReconcileHost) (probe startedAt : JsValue) : Prop :=
  ∃ observed started, host.parseDate ((probe.get (js "observed_at")).orElse (.string [])) =
      some (some observed) ∧
    host.parseDate (startedAt.orElse (.string [])) = some (some started) ∧ started ≤ observed

/-- A record of the attempt, and none of the attempt has a later `last_activity`. -/
def IsNewest (host : ReconcileHost) (attemptId : JsString) (receipts : List JsValue)
    (receipt : JsValue) : Prop :=
  receipt ∈ chainOf receipts attemptId ∧ ∀ record ∈ chainOf receipts attemptId,
    ∀ text recordText, activity host receipt = some text → activity host record = some recordText →
      ¬text < recordText

/-- What has to be so for the attempt to be held: by the answers of the probes, each of which
carried a time not before the start of the call. -/
structure Established (host : ReconcileHost) (call : DanglingCall) (attemptId : JsString)
    (receipt : JsValue) : Prop where
  newest : ∃ read items, call.answer .readReceipts = some read ∧
    read.get (js "receipts") = .array items ∧ IsNewest host attemptId items receipt
  dangling : receipt.get (js "stage") = .string (js "LAUNCH_UNKNOWN")
  disowned : ∃ status, call.answer .supervisorStatus = some status ∧
    (status.get (js "response")).get (js "hold_code") = .string (js "MISSING_CLAIM")
  unsighted : ∃ workers, call.answer .workerProcesses = some workers ∧
    workers.get (js "pids") = .array [] ∧ workers.get (js "sightings") = .array []
  unchanged : ∃ worktree, call.answer .worktree = some worktree ∧
    isTrue (worktree.get (js "root_configured")) ∧ ((worktree.get (js "present")).truthy = false ∨
      ∃ base, worktreeBaseOf receipt = some base ∧ worktree.get (js "head") = .string base ∧
        worktree.get (js "porcelain") = .string [])
  unmoved : ∃ branch, call.answer .branchHead = some branch ∧ isTrue (branch.get (js "ok")) ∧
    (branch.get (js "sha")).strictEq (receipt.get (js "target_sha"))
  unpushed : ∃ push, call.answer .pushReceipt = some push ∧ isTrue (push.get (js "readable")) ∧
    (push.get (js "record")).truthy = false
  unclaimed : ∃ store, call.answer .supervisorStore = some store ∧
    isTrue (store.get (js "readable")) ∧ hasLength (store.get (js "records")) = false
  fresh : ∀ probe, ∃ value, call.answer probe = some value ∧ Fresh host value call.startedAt

def ListsNoPids (call : DanglingCall) : Prop :=
  ∀ workers, call.answer .workerProcesses = some workers → workers.get (js "pids") = .array []

theorem evaluate_eq_ok {Value : Type} {answer : Option Value} {value : Value} :
    evaluate answer = .ok value ↔ answer = some value := by
  cases answer <;> simp [evaluate]

theorem fresh_of_probeFreshness {probe startedAt : JsValue} {checked : Unit}
    (ok : probeFreshness host probe startedAt = .ok checked) : Fresh host probe startedAt := by
  simp only [probeFreshness] at ok
  rcases bind_eq_ok_iff.mp ok with ⟨_, -, ok⟩
  rcases bind_eq_ok_iff.mp ok with ⟨observed, isObserved, ok⟩
  rw [evaluate_eq_ok] at isObserved
  cases observed with
  | none => cases ok
  | some observed =>
      rcases bind_eq_ok_iff.mp ok with ⟨started, isStarted, ok⟩
      rw [evaluate_eq_ok] at isStarted
      cases started with
      | none => cases ok
      | some started =>
          rw [require_eq_ok, decide_eq_true_eq] at ok
          exact ⟨observed, started, isObserved, isStarted, ok⟩

theorem answer_of_taken {probe : Probe} {value : JsValue} (isTaken : taken host call probe = .ok value) :
    call.answer probe = some value ∧ Fresh host value call.startedAt := by
  unfold taken at isTaken
  cases answered : call.answer probe with
  | none => simp [answered] at isTaken
  | some found =>
      cases fresh : probeFreshness host found call.startedAt with
      | error stop => simp [answered, fresh, Except.map] at isTaken
      | ok checked =>
          simp only [answered, fresh, Except.map, Except.ok.injEq] at isTaken
          subst isTaken
          exact ⟨rfl, fresh_of_probeFreshness fresh⟩

theorem newest_of_foldlM {first newest : JsValue} {rest : List JsValue}
    (ok : rest.foldlM (newer host) first = .ok newest) :
    newest ∈ first :: rest ∧ ∀ record ∈ first :: rest, ∀ text recordText,
      activity host newest = some text → activity host record = some recordText →
        ¬text < recordText := by
  induction rest generalizing first with
  | nil =>
      cases ok
      refine ⟨List.mem_singleton_self _, ?_⟩
      intro record isMem text recordText isText isRecord
      rw [List.mem_singleton.mp isMem, isText, Option.some.injEq] at isRecord
      rw [isRecord]
      exact List.lt_irrefl _
  | cons receipt rest ih =>
      rw [List.foldlM_cons] at ok
      rcases bind_eq_ok_iff.mp ok with ⟨middle, isMiddle, ok⟩
      rcases ih ok with ⟨isMem, isLast⟩
      simp only [newer] at isMiddle
      rcases bind_eq_ok_iff.mp isMiddle with ⟨text, isText, isMiddle⟩
      rcases bind_eq_ok_iff.mp isMiddle with ⟨firstText, isFirst, isMiddle⟩
      rw [evaluate_eq_ok] at isText isFirst
      cases isMiddle
      by_cases later : firstText < text
      · rw [if_pos later] at isMem isLast
        refine ⟨List.mem_cons_of_mem _ isMem, ?_⟩
        intro record recordMem newestText recordText isNewestText isRecordText
        rcases List.mem_cons.mp recordMem with rfl | recordMem
        · rw [isFirst, Option.some.injEq] at isRecordText
          subst isRecordText
          have after := isLast receipt List.mem_cons_self newestText text isNewestText isText
          exact List.le_trans (List.le_of_lt later) after
        · exact isLast record recordMem newestText recordText isNewestText isRecordText
      · rw [if_neg later] at isMem isLast
        refine ⟨?_, ?_⟩
        · rcases List.mem_cons.mp isMem with rfl | isMem
          · exact List.mem_cons_self
          · exact List.mem_cons_of_mem _ (List.mem_cons_of_mem _ isMem)
        · intro record recordMem newestText recordText isNewestText isRecordText
          have after := isLast first List.mem_cons_self newestText firstText isNewestText isFirst
          rcases List.mem_cons.mp recordMem with rfl | recordMem
          · exact isLast record List.mem_cons_self newestText recordText isNewestText isRecordText
          · rcases List.mem_cons.mp recordMem with rfl | recordMem
            · rw [isText, Option.some.injEq] at isRecordText
              subst isRecordText
              exact List.le_trans later after
            · exact isLast record (List.mem_cons_of_mem _ recordMem) newestText recordText isNewestText
                isRecordText

theorem newest_of_resolveChain {receipts receipt : JsValue} {attemptId : JsString}
    (ok : resolveChain host receipts attemptId = .ok (some receipt)) :
    ∃ items, receipts = .array items ∧ IsNewest host attemptId items receipt := by
  unfold resolveChain at ok
  split at ok
  case h_2 => cases ok
  case h_1 items isArray =>
    split at ok
    case h_1 => cases ok
    case h_2 first rest isChain =>
      cases folded : rest.foldlM (newer host) first with
      | error stop => simp [folded, Except.map] at ok
      | ok newest =>
          simp only [folded, Except.map, Except.ok.injEq, Option.some.injEq] at ok
          subst ok
          refine ⟨items, ?_, ?_⟩
          · cases receipts with
            | array found => exact isArray
            | undefined =>
                cases isArray
                cases isChain
            | null =>
                cases isArray
                cases isChain
            | _ => cases isArray
          · rw [IsNewest, isChain]
            exact newest_of_foldlM folded

theorem dangling_of_danglingRecord {read receipt : JsValue} {attemptId : JsString}
    (ok : danglingRecord host read attemptId = .ok receipt) :
    (∃ items, read.get (js "receipts") = .array items ∧ IsNewest host attemptId items receipt) ∧
      receipt.get (js "stage") = .string (js "LAUNCH_UNKNOWN") := by
  simp only [danglingRecord] at ok
  rcases bind_eq_ok_iff.mp ok with ⟨resolved, isResolved, ok⟩
  cases resolved with
  | none => cases ok
  | some found =>
      dsimp only at ok
      split at ok
      · cases ok
      · rcases bind_eq_ok_iff.mp ok with ⟨_, isStage, same⟩
        cases same
        rw [require_eq_ok, isText_iff] at isStage
        exact ⟨newest_of_resolveChain isResolved, isStage⟩

theorem disowned_of_ok {response : JsValue} {checked : Unit}
    (ok : supervisorDisownsAttempt response = .ok checked) :
    response.get (js "hold_code") = .string (js "MISSING_CLAIM") := by
  simp only [supervisorDisownsAttempt] at ok
  rcases bind_eq_ok_iff.mp ok with ⟨_, -, ok⟩
  rcases bind_eq_ok_iff.mp ok with ⟨_, -, ok⟩
  split at ok
  case h_1 code isCode =>
    rw [require_eq_ok, decide_eq_true_eq] at ok
    rw [isCode, ok]
  case h_2 => cases ok

theorem arrayOf_eq_ok {value : JsValue} {items : List JsValue} :
    arrayOf value = .ok items ↔ value = .array items := by
  cases value <;> simp [arrayOf, refuse]

theorem unsighted_of_ok {sightings : List JsValue} {liveness : JsValue} {checked : Unit}
    (ok : checkWorkers sightings liveness = .ok checked) : sightings = [] := by
  simp only [checkWorkers] at ok
  rcases bind_eq_ok_iff.mp ok with ⟨observations, -, ok⟩
  rcases bind_eq_ok_iff.mp ok with ⟨verdicts, isVerdict, ok⟩
  rcases bind_eq_ok_iff.mp ok with ⟨_, unconfirmed, ok⟩
  rcases bind_eq_ok_iff.mp ok with ⟨_, verified, disproved⟩
  rw [require_eq_ok] at unconfirmed verified disproved
  have same := length_of_mapM_eq_ok isVerdict
  cases verdicts with
  | nil => exact List.length_eq_zero_iff.mp same.symm
  | cons disposition rest =>
      simp only [List.all_cons, Bool.and_eq_true] at verified disproved
      cases disposition with
      | confirmedLive => simp at unconfirmed
      | vanished => cases disproved.1
      | tokenChanged => cases disproved.1
      | recordTokenMismatch => cases disproved.1
      | presenceUnreadable => cases verified.1
      | unverified => cases verified.1
      | unobserved => cases verified.1

theorem unchanged_of_ok {receipt worktree : JsValue} {checked : Unit}
    (ok : checkWorktree receipt worktree = .ok checked) :
    isTrue (worktree.get (js "root_configured")) ∧ ((worktree.get (js "present")).truthy = false ∨
      ∃ base, worktreeBaseOf receipt = some base ∧ worktree.get (js "head") = .string base ∧
        worktree.get (js "porcelain") = .string []) := by
  unfold checkWorktree at ok
  split at ok
  case h_1 => cases ok
  case h_2 base isBase =>
    rcases bind_eq_ok_iff.mp ok with ⟨_, configured, ok⟩
    rw [require_eq_ok] at configured
    refine ⟨configured, ?_⟩
    split at ok
    case isFalse absent => exact Or.inl (Bool.eq_false_of_not_eq_true absent)
    case isTrue =>
      right
      split at ok
      case h_2 => cases ok
      case h_1 head porcelain isHead isPorcelain =>
        rcases bind_eq_ok_iff.mp ok with ⟨_, same, clean⟩
        rw [require_eq_ok, decide_eq_true_eq] at same clean
        exact ⟨base, isBase, by rw [isHead, same], by rw [isPorcelain, clean]⟩

theorem unmoved_of_ok {receipt branch : JsValue} {checked : Unit}
    (ok : checkBranch receipt branch = .ok checked) : isTrue (branch.get (js "ok")) ∧
      (branch.get (js "sha")).strictEq (receipt.get (js "target_sha")) := by
  rcases bind_eq_ok_iff.mp ok with ⟨_, isOk, same⟩
  exact ⟨require_eq_ok.mp isOk, require_eq_ok.mp same⟩

theorem unpushed_of_ok {push : JsValue} {checked : Unit} (ok : checkPush push = .ok checked) :
    isTrue (push.get (js "readable")) ∧ (push.get (js "record")).truthy = false := by
  rcases bind_eq_ok_iff.mp ok with ⟨_, readable, none⟩
  exact ⟨require_eq_ok.mp readable, by simpa using require_eq_ok.mp none⟩

theorem unclaimed_of_ok {store : JsValue} {checked : Unit} (ok : checkStore store = .ok checked) :
    isTrue (store.get (js "readable")) ∧ hasLength (store.get (js "records")) = false := by
  rcases bind_eq_ok_iff.mp ok with ⟨_, readable, none⟩
  exact ⟨require_eq_ok.mp readable, by simpa using require_eq_ok.mp none⟩

theorem Passes.established {receipt posted : JsValue} (passes : Passes host call receipt posted)
    (noPids : ListsNoPids call) : ∃ attemptId, call.attemptId = .string attemptId ∧
      Established host call attemptId receipt ∧
      nextReceiptState receipt (call.holdEvent attemptId) = .ok (some posted) := by
  rcases passes.named with ⟨attemptId, read, isAttempt, isRead, isReceipt, isHeld⟩
  rcases passes.status with ⟨status, isStatus, disowned⟩
  rcases passes.workers with ⟨workers, sightings, liveness, isWorkers, sighted, isLiveness, checked⟩
  rcases passes.worktree with ⟨worktree, isWorktree, unchanged⟩
  rcases passes.branch with ⟨branch, isBranch, unmoved⟩
  rcases passes.push with ⟨push, isPush, unpushed⟩
  rcases passes.store with ⟨store, isStore, unclaimed⟩
  refine ⟨attemptId, ?_, ⟨?_, (dangling_of_danglingRecord isReceipt).2, ?_, ?_, ?_, ?_, ?_, ?_, ?_⟩, ?_⟩
  · unfold checkAttemptId at isAttempt
    split at isAttempt
    case h_2 => cases isAttempt
    case h_1 text isText =>
      split_ifs at isAttempt
      · cases isAttempt
        exact isText
      · cases isAttempt
  · rcases (dangling_of_danglingRecord isReceipt).1 with ⟨items, isArray, newest⟩
    exact ⟨read, items, (answer_of_taken isRead).1, isArray, newest⟩
  · exact ⟨status, (answer_of_taken isStatus).1, disowned_of_ok disowned⟩
  · have answered := (answer_of_taken isWorkers).1
    rcases bind_eq_ok_iff.mp sighted with ⟨_, -, isSightings⟩
    rw [arrayOf_eq_ok, unsighted_of_ok checked] at isSightings
    exact ⟨workers, answered, noPids workers answered, isSightings⟩
  · exact ⟨worktree, (answer_of_taken isWorktree).1, unchanged_of_ok unchanged⟩
  · exact ⟨branch, (answer_of_taken isBranch).1, unmoved_of_ok unmoved⟩
  · exact ⟨push, (answer_of_taken isPush).1, unpushed_of_ok unpushed⟩
  · exact ⟨store, (answer_of_taken isStore).1, unclaimed_of_ok unclaimed⟩
  · intro probe
    cases probe with
    | readReceipts => exact ⟨read, answer_of_taken isRead⟩
    | supervisorStatus => exact ⟨status, answer_of_taken isStatus⟩
    | workerProcesses => exact ⟨workers, answer_of_taken isWorkers⟩
    | workerLiveness => exact ⟨liveness, answer_of_taken isLiveness⟩
    | worktree => exact ⟨worktree, answer_of_taken isWorktree⟩
    | branchHead => exact ⟨branch, answer_of_taken isBranch⟩
    | pushReceipt => exact ⟨push, answer_of_taken isPush⟩
    | supervisorStore => exact ⟨store, answer_of_taken isStore⟩
  · rcases bind_eq_ok_iff.mp isHeld with ⟨accepted, isAccepted, isPosted⟩
    cases accepted with
    | none => cases isPosted
    | some held =>
        cases isPosted
        exact isAccepted

def Reads (call later : DanglingCall) (posted : JsValue) : Prop :=
  later.attemptId = call.attemptId ∧ ∃ read items, later.answer .readReceipts = some read ∧
    read.get (js "receipts") = .array items ∧ posted ∈ items

/-- The call posts at most once and only what was established, and after a success a later call
that reads the record posts nothing. -/
structure HoldsOnce (host : ReconcileHost) (call later : DanglingCall) : Prop where
  once : (posts host call).length ≤ 1
  established : ∀ posted ∈ posts host call, ∃ attemptId receipt, call.attemptId = .string attemptId ∧
    Established host call attemptId receipt ∧
    nextReceiptState receipt (call.holdEvent attemptId) = .ok (some posted)
  settled : ∀ posted ∈ posts host call, call.confirmed = true → Reads call later posted →
    posts host later = []

/-- When the other checks pass the worker probe lists no pid, and where a later call reads the
record no other record of the attempt passes in that call. -/
def HoldsWhen (host : ReconcileHost) (call later : DanglingCall) : Prop :=
  ∀ receipt posted, Passes host call receipt posted → ListsNoPids call ∧
    (call.confirmed = true → Reads call later posted →
      ∀ another again, ¬Passes host later another again)

section Failing

/-- The conversions of the language, for texts of dates in the format of `toISOString`. -/
def isoHost : ReconcileHost where
  textOf := JsValue.toText
  parseDate value := value.toText.map fun text => (Date.parse text).map Instant.time

def danglingId : JsString := js "7f3a1c20-9b44-4d17-8c02-6e5a1d4b9f83"

def launched (lastActivity : JsString) : JsValue := .object
  [(js "attempt_id", .string danglingId), (js "stage", .string (js "LAUNCH_UNKNOWN")),
   (js "last_activity", .string lastActivity), (js "notes", .array []), (js "evidence_links", .array []),
   (js "timestamps", .object []), (js "target_sha", .string (js "target")),
   (js "scoped_base_sha", .string (js "base"))]

/-- A call at noon to which nothing contradicts that the attempt is dangling. -/
def clearCall (receipts pids : List JsValue) : DanglingCall where
  attemptId := .string danglingId
  configLoads := true
  linearIssueId := .string (js "issue")
  linearIdOf := some .undefined
  startedAt := .string (js "2026-09-25T12:00:00.000Z")
  heldAt := .string (js "2026-09-25T12:00:00.000Z")
  activityNow := []
  terminalNow := []
  answer probe := some (.object ((js "observed_at", .string (js "2026-09-25T12:00:00.000Z")) ::
    match probe with
    | .readReceipts => [(js "receipts", .array receipts)]
    | .supervisorStatus =>
        [(js "response", .object [(js "hold_code", .string (js "MISSING_CLAIM"))])]
    | .workerProcesses => [(js "pids", .array pids), (js "sightings", .array [])]
    | .workerLiveness => [(js "observations", .array [])]
    | .worktree => [(js "root_configured", .boolean true), (js "present", .boolean false)]
    | .branchHead => [(js "ok", .boolean true), (js "sha", .string (js "target"))]
    | .pushReceipt => [(js "readable", .boolean true), (js "record", .null)]
    | .supervisorStore => [(js "readable", .boolean true), (js "records", .array [])]))
  confirmed := true

def earlierRecord : JsValue := launched (js "2026-09-25T11:00:00.000Z")

/-- The record was last written by a host whose clock is an hour ahead. -/
def aheadRecord : JsValue := launched (js "2026-09-25T13:00:00.000Z")

end Failing

end StudentHub.Dangling
