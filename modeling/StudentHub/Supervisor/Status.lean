import StudentHub.Supervisor.Attempts
import StudentHub.Supervisor.Refusal

/-!
# What status answers

A status request is answered from the files as they are; it writes none. That there are no
records is said only of an order that was refused, and it stays unbound until it is
submitted again. A worker is said to be running, or to have come to an end, only when its
launch record confirms that it was spawned for the order.
-/

namespace StudentHub.Supervisor

open Ecma Concurrency Concurrency.Process JsString JsValue

-- Processes of many operations take a longer search.
set_option synthInstance.maxSize 2000

/-- What a process that only reads answers in a state. -/
def answerIn {Value : Type} (machine : Machine) (given : Given) :
    Program Value → Except SupervisorError Value
  | returned value => .ok value
  | thrown error => .error error
  | perform op next => answerIn machine given (next (handle 0 op given machine).1)

section Answers

variable {machine : Machine} {given : Given} {Value Value' : Type} {process : Program Value}
variable {rest : Value → Program Value'} {result : Value'}
variable {directory : Directory} {name attemptId : JsString} {value order run : JsValue}

theorem answerIn_bind : answerIn machine given (process >>= rest) = .ok result ↔
    ∃ value, answerIn machine given process = .ok value ∧
      answerIn machine given (rest value) = .ok result := by
  induction process with
  | returned value =>
    simp only [bind_eq_bind, bind_returned, answerIn, Except.ok.injEq, exists_eq_left']
  | thrown error => simp [answerIn]
  | perform op next ih => exact ih _

theorem answerIn_attempt : answerIn machine given process.attempt =
    .ok (answerIn machine given process) := by
  induction process with
  | returned value => rfl
  | thrown error => rfl
  | perform op next ih => exact ih _

@[simp]
theorem answerIn_pure (value : Value) :
    answerIn machine given (pure value) = .ok value := rfl

@[simp]
theorem answerIn_call (op : Op) :
    answerIn machine given (call op) = .ok (handle 0 op given machine).1 := rfl

theorem answerIn_readJson (answered : answerIn machine given (readJson directory name) =
    .ok value) : machine.get? directory name = some value := by
  rw [readJson, answerIn_bind] at answered
  rcases answered with ⟨stored, read, present⟩
  cases read
  rw [handle] at present
  cases found : machine.get? directory name with
  | none =>
    rw [found] at present
    cases present
  | some value =>
    rw [found] at present
    cases present
    rfl

theorem answerIn_paths {path : JsString} (answered :
    answerIn machine given (ofExcept (paths attemptId)) = .ok path) :
    path = fileName attemptId := by
  rw [paths] at answered
  split at answered
  · exact (Except.ok.inj answered).symm
  · cases answered

theorem answerIn_readOf (answered : answerIn machine given (readOf directory attemptId) =
    .ok value) : machine.get? directory (fileName attemptId) = some value := by
  rw [readOf, answerIn_bind] at answered
  rcases answered with ⟨path, isPath, read⟩
  rw [← answerIn_paths isPath]
  exact answerIn_readJson read

theorem answerIn_readOrder (answered : answerIn machine given (readOrder attemptId) =
    .ok order) : Bound machine attemptId order := by
  rw [readOrder, answerIn_bind] at answered
  rcases answered with ⟨stored, read, isOrder⟩
  split at isOrder
  · cases isOrder
    exact ⟨stored, answerIn_readOf read, rfl⟩
  · cases isOrder

theorem answerIn_intentPath {path : JsString} (answered :
    answerIn machine given (intentPath order) = .ok path) : path = intentNameOf order := by
  rw [intentPath, answerIn_bind] at answered
  rcases answered with ⟨_, -, answered⟩
  rw [answerIn_bind] at answered
  rcases answered with ⟨_, -, isPath⟩
  exact (Except.ok.inj isPath).symm

theorem answerIn_validatedCompletion {host : SupervisorHost} (answered :
    answerIn machine given (validatedCompletion host attemptId) = .ok (.ok value)) :
    ∃ stored, machine.get? .completions (fileName attemptId) = some stored ∧
      value = stored.without (js "completion_token") ∧ Validated host machine attemptId := by
  rw [validatedCompletion, answerIn_bind] at answered
  rcases answered with ⟨completed, -, answered⟩
  split at answered
  · cases answered
  rw [answerIn_bind] at answered
  rcases answered with ⟨launched, -, answered⟩
  split at answered
  · cases answered
  rw [answerIn_bind] at answered
  rcases answered with ⟨stored, isStored, answered⟩
  split at answered
  · cases answered
  case isFalse version =>
    rw [answerIn_bind] at answered
    rcases answered with ⟨launch, isLaunch, answered⟩
    rw [answerIn_bind] at answered
    rcases answered with ⟨order, isOrder, answered⟩
    split at answered
    case isFalse => cases answered
    case isTrue confirmed =>
      rcases answerIn_readOrder isOrder with ⟨bound, isBound, rfl⟩
      have isCompletion := answerIn_readOf isStored
      exact ⟨stored, isCompletion, (Except.ok.inj (Except.ok.inj answered)).symm, stored, launch,
        bound, isCompletion, answerIn_readOf isLaunch, isBound, by simpa using version, confirmed⟩

theorem get_stage_refusal (stage reason : JsString) (more : List (JsString × JsValue)) :
    (refusal stage more reason).get (js "stage") = .string stage := by
  have first : js "ok" ≠ js "stage" := by decide
  simp only [refusal, List.cons_append, get_cons, if_neg first, if_true]

theorem get_stage_stageAnswer (terminal : Option JsValue) (stage : JsString)
    (shown : JsString × JsValue) :
    (stageAnswer order run terminal stage shown).get (js "stage") = .string stage := by
  have names : js "version" ≠ js "stage" ∧ js "ok" ≠ js "stage" ∧ js "durable" ≠ js "stage" ∧
      js "attempt_id" ≠ js "stage" ∧ js "target_sha" ≠ js "stage" := by decide
  simp only [stageAnswer, List.cons_append, get_cons, if_neg names.1, if_neg names.2.1,
    if_neg names.2.2.1, if_neg names.2.2.2.1, if_neg names.2.2.2.2, if_true]

theorem launch_of_reportIntent {report : IntentReport} {receipt : JsValue}
    (answered : answerIn machine given (reportIntent order) = .ok report)
    (reported : report.launchReceipt = some receipt) :
    machine.get? .launches (fileName (textOf order (js "attempt_id"))) = some receipt := by
  rw [reportIntent, answerIn_bind] at answered
  rcases answered with ⟨path, -, answered⟩
  rw [answerIn_bind] at answered
  rcases answered with ⟨present, -, answered⟩
  split at answered
  · cases answered
    cases reported
  rw [answerIn_bind] at answered
  rcases answered with ⟨intent, -, answered⟩
  rw [answerIn_bind] at answered
  rcases answered with ⟨_, -, answered⟩
  rw [answerIn_bind] at answered
  rcases answered with ⟨_, -, answered⟩
  rw [answerIn_bind] at answered
  rcases answered with ⟨launched, -, answered⟩
  have ofLaunch : ∀ launch, answerIn machine given (reportLaunch order intent launch) =
      .ok report → launch = some receipt := by
    intro launch answered
    cases launch with
    | none =>
      cases answered
      cases reported
    | some launch =>
      rw [reportLaunch] at answered
      split at answered
      · rw [answerIn_bind] at answered
        rcases answered with ⟨run, -, answered⟩
        rw [answerIn_bind] at answered
        rcases answered with ⟨status, -, answered⟩
        cases answered
        exact reported
      · cases answered
        cases reported
  split at answered
  · rw [answerIn_bind] at answered
    rcases answered with ⟨launch, isLaunch, answered⟩
    cases ofLaunch _ answered
    change answerIn machine given (readLaunch _ >>= fun launch => pure (some launch)) = _
      at isLaunch
    rw [answerIn_bind] at isLaunch
    rcases isLaunch with ⟨launch, isLaunch, same⟩
    cases same
    exact answerIn_readOf isLaunch
  · rw [answerIn_bind] at answered
    rcases answered with ⟨launch, isLaunch, answered⟩
    cases isLaunch
    cases ofLaunch _ answered

def EXECUTION : List JsString := [js "RUNNING", js "COMPLETED", js "FAILED"]

/-- The answer says no more than why there is none, and that no worker is at work. -/
def IsRefusal (answer : JsValue) : Prop :=
  ∃ refused more reason, answer = refusal refused more reason ∧ refused ∉ EXECUTION ∧
    (more = [] ∨ more = [(js "hold_code", .string (js "MISSING_CLAIM"))])

theorem isRefusal_of_eq {answer : JsValue} {refused reason : JsString}
    (answered : (pure (refusal refused [] reason) : Except SupervisorError JsValue) = .ok answer)
    (notExecution : refused ∉ EXECUTION) : IsRefusal answer := by
  cases answered
  exact ⟨refused, [], reason, rfl, notExecution, .inl rfl⟩

theorem answerIn_answerStage {terminal : Option JsValue} {stage : JsString} {answer : JsValue}
    (answered : answerIn machine given (answerStage order run terminal stage) = .ok answer) :
    IsRefusal answer ∨ ∃ shown, answer = stageAnswer order run terminal stage shown ∧
      (stage ∈ EXECUTION → ∃ receipt, machine.get? .launches
        (fileName (textOf order (js "attempt_id"))) = some receipt ∧
          hasLaunchReceipt receipt order = true) := by
  rw [answerStage] at answered
  split at answered
  · exact .inl (isRefusal_of_eq answered (by decide))
  rw [answerIn_bind] at answered
  rcases answered with ⟨report, reported, answered⟩
  dsimp only at answered
  split at answered
  · exact .inl (isRefusal_of_eq answered (by decide))
  case isFalse confirmed =>
    have launched : stage ∈ EXECUTION → ∃ receipt, machine.get? .launches
        (fileName (textOf order (js "attempt_id"))) = some receipt ∧
          hasLaunchReceipt receipt order = true := by
      intro execution
      have inList : decide (stage ∈ [js "RUNNING", js "COMPLETED", js "FAILED"]) = true :=
        decide_eq_true execution
      rw [inList, Bool.true_and] at confirmed
      cases found : report.launchReceipt with
      | none =>
        rw [found] at confirmed
        exact absurd rfl confirmed
      | some receipt =>
        rw [found] at confirmed
        exact ⟨receipt, launch_of_reportIntent reported found, by simpa using confirmed⟩
    split at answered
    · exact .inr ⟨_, (Except.ok.inj answered).symm, launched⟩
    · rw [answerIn_bind] at answered
      rcases answered with ⟨_, -, answered⟩
      exact .inr ⟨_, (Except.ok.inj answered).symm, launched⟩

theorem answerIn_upperCase {text : JsString}
    (answered : answerIn machine given (upperCase value) = .ok text) :
    ∃ written, value = .string written ∧ written.toUpperCase = text := by
  cases value with
  | string written => exact ⟨written, rfl, Except.ok.inj answered⟩
  | _ => cases answered

theorem stage_of_stageOf {terminal : Option JsValue} {stage : JsString}
    (answered : answerIn machine given (stageOf run terminal) = .ok stage)
    (execution : stage ∈ EXECUTION) :
    run.get (js "status") ≠ .string (js "hold") ∧
      ∃ written, written.toUpperCase = stage ∧ (run.get (js "status") = .string written ∨
        ∃ completion, terminal = some completion ∧
          completion.get (js "status") = .string written) := by
  rw [stageOf] at answered
  split at answered
  · cases answered
    exact absurd execution (by decide)
  case isFalse notHeld =>
    refine ⟨?_, ?_⟩
    · rw [isText_iff] at notHeld
      exact notHeld
    · rcases answerIn_upperCase answered with ⟨written, isWritten, upper⟩
      refine ⟨written, upper, ?_⟩
      cases terminal with
      | none => exact .inl isWritten
      | some completion =>
        rw [terminalField, orElse.eq_def] at isWritten
        split at isWritten
        · exact .inl isWritten
        · exact .inl isWritten
        · exact .inr ⟨completion, rfl, isWritten⟩

end Answers

/-- What the files say of an order whose worker is running or has come to its end. -/
structure Executed (host : SupervisorHost) (machine : Machine) (requested : JsValue)
    (stage : JsString) : Prop where
  /-- The order that the attempt is bound to, and the launch record that confirms its spawn. -/
  launched : ∃ order receipt, Bound machine (textOf requested (js "attempt_id")) order ∧
    isBoundTo order requested = true ∧ machine.get? .launches
      (fileName (textOf requested (js "attempt_id"))) = some receipt ∧
    hasLaunchReceipt receipt requested = true
  staged : ∃ run, machine.get? .runs (fileName (textOf requested (js "attempt_id"))) = some run ∧
    run.get (js "status") ≠ .string (js "hold") ∧
    ∃ written, written.toUpperCase = stage ∧ (run.get (js "status") = .string written ∨
      ∃ completion, machine.get? .completions
          (fileName (textOf requested (js "attempt_id"))) = some completion ∧
        Validated host machine (textOf requested (js "attempt_id")) ∧
        completion.get (js "status") = .string written)

section Requests

variable {host : SupervisorHost} {machine : Machine} {given : Given}
variable {requested order answer receipt : JsValue}

theorem get_of_isBoundTo {name text : JsString} (bound : isBoundTo order requested = true)
    (isField : name ∈ BINDING) (requests : requested.get name = .string text) :
    order.get name = .string text := by
  rw [isBoundTo, List.all_eq_true] at bound
  have same := bound name isField
  rw [requests] at same
  exact eq_string_of_strictEq same

theorem hasLaunchReceipt_of_isBoundTo (valid : validateBoundOrder host requested = true)
    (bound : isBoundTo order requested = true) (launched : hasLaunchReceipt receipt order = true) :
    hasLaunchReceipt receipt requested = true := by
  have attempt := (attemptId_of_valid valid).1
  have issue := issue_of_valid valid
  have target := target_of_valid valid
  rw [hasLaunchReceipt, get_of_isBoundTo bound (by decide) attempt,
    get_of_isBoundTo bound (by decide) issue, get_of_isBoundTo bound (by decide) target] at launched
  rw [hasLaunchReceipt, attempt, issue, target]
  exact launched

theorem answerIn_statusOfOrder (valid : validateBoundOrder host requested = true)
    (answered : answerIn machine given (statusOfOrder host requested) = .ok answer) :
    IsRefusal answer ∨ ∃ order run terminal stage shown,
      answer = stageAnswer order run terminal stage shown ∧
        (stage ∈ EXECUTION → Executed host machine requested stage) := by
  rw [statusOfOrder, answerIn_bind] at answered
  rcases answered with ⟨order, isOrder, answered⟩
  split at answered
  · exact .inl (isRefusal_of_eq answered (by decide))
  case isFalse bound =>
    have isBound : isBoundTo order requested = true := by simpa using bound
    have sameAttempt : textOf order (js "attempt_id") = textOf requested (js "attempt_id") :=
      textOf_of_get (get_of_isBoundTo isBound (by decide) (attemptId_of_valid valid).1)
    rw [answerIn_bind] at answered
    rcases answered with ⟨run, isRun, answered⟩
    split at answered
    · exact .inl (isRefusal_of_eq answered (by decide))
    have ofStage : ∀ {terminal : Option JsValue} {stage : JsString},
        (∀ completion, terminal = some completion → ∃ stored,
          machine.get? .completions (fileName (textOf requested (js "attempt_id"))) =
            some stored ∧ completion.get (js "status") = stored.get (js "status") ∧
          Validated host machine (textOf requested (js "attempt_id"))) →
        answerIn machine given (stageOf run terminal) = .ok stage →
        answerIn machine given (answerStage order run terminal stage) = .ok answer →
        IsRefusal answer ∨ ∃ order run terminal stage shown,
          answer = stageAnswer order run terminal stage shown ∧
            (stage ∈ EXECUTION → Executed host machine requested stage) := by
      intro terminal stage validated isStage answered
      rcases answerIn_answerStage answered with refused | ⟨shown, isAnswer, launched⟩
      · exact .inl refused
      refine .inr ⟨order, run, terminal, stage, shown, isAnswer, ?_⟩
      intro execution
      rcases launched execution with ⟨receipt, stored, confirms⟩
      rw [sameAttempt] at stored isRun
      rcases stage_of_stageOf isStage execution with ⟨notHeld, written, upper, isWritten⟩
      refine ⟨⟨order, receipt, answerIn_readOrder isOrder, isBound, stored,
        hasLaunchReceipt_of_isBoundTo valid isBound confirms⟩,
        ⟨run, answerIn_readOf isRun, notHeld, written, upper, ?_⟩⟩
      rcases isWritten with ofRun | ⟨completion, isTerminal, status⟩
      · exact .inl ofRun
      · rcases validated completion isTerminal with ⟨stored, isStored, same, holds⟩
        exact .inr ⟨stored, isStored, holds, same ▸ status⟩
    rw [answerIn_bind] at answered
    rcases answered with ⟨completed, -, answered⟩
    split at answered
    · rw [answerIn_bind] at answered
      rcases answered with ⟨checked, isChecked, answered⟩
      cases checked with
      | error reason => exact .inl (isRefusal_of_eq answered (by decide))
      | ok completion =>
        rw [answerIn_bind] at answered
        rcases answered with ⟨stage, isStage, answered⟩
        apply ofStage _ isStage answered
        intro terminal isTerminal
        cases isTerminal
        rw [sameAttempt] at isChecked
        rcases answerIn_validatedCompletion isChecked with ⟨stored, isStored, rfl, validated⟩
        exact ⟨stored, isStored, get_without _ (by decide), validated⟩
    · rw [answerIn_bind] at answered
      rcases answered with ⟨stage, isStage, answered⟩
      apply ofStage _ isStage answered
      intro completion absent
      cases absent

/-- The order was refused and is not bound, and nothing else is kept of its attempt. -/
structure Disowned (machine : Machine) (requested : JsValue) : Prop where
  refused : ∃ intent, machine.get? .intents (intentNameOf requested) = some intent ∧
    isBoundTo (intent.get (js "order")) requested = true ∧
    PRE_ADMISSION_REFUSALS.any (intent.get (js "hold_code")).isText = true
  absent : ∀ directory ∈ [Directory.orders, .runs, .launches, .completions],
    machine.get? directory (fileName (textOf requested (js "attempt_id"))) = none

theorem answerIn_refusedIntent (answered : answerIn machine given (refusedIntent requested) =
    .ok true) : ∃ intent, machine.get? .intents (intentNameOf requested) = some intent ∧
      isBoundTo (intent.get (js "order")) requested = true ∧
      PRE_ADMISSION_REFUSALS.any (intent.get (js "hold_code")).isText = true := by
  rw [refusedIntent, answerIn_bind] at answered
  rcases answered with ⟨path, isPath, answered⟩
  rw [answerIn_intentPath isPath, answerIn_bind] at answered
  rcases answered with ⟨intent, isIntent, answered⟩
  split at answered
  · cases answered
  case isFalse bound =>
    rw [answerIn_bind] at answered
    rcases answered with ⟨_, -, isRefusal⟩
    exact ⟨intent, answerIn_readJson isIntent, by simpa using bound, Except.ok.inj isRefusal⟩

theorem answerIn_refusedWithoutRecord (answered :
    answerIn machine given (refusedWithoutRecord requested) = .ok true) :
    Disowned machine requested := by
  have goesOn : ∀ {directory : Directory} {name : JsString} {rest : Program Bool},
      answerIn machine given (call (.existsSync directory name) >>= fun found =>
        if found then pure false else rest) = .ok true →
      machine.get? directory name = none ∧ answerIn machine given rest = .ok true := by
    intro directory name rest answered
    rw [answerIn_bind] at answered
    rcases answered with ⟨found, isFound, answered⟩
    cases isFound
    split at answered
    · cases answered
    case isFalse absent =>
      refine ⟨?_, answered⟩
      simpa [handle] using absent
  rw [refusedWithoutRecord, answerIn_bind] at answered
  rcases answered with ⟨outcome, isOutcome, answered⟩
  rw [answerIn_attempt, Except.ok.injEq] at isOutcome
  subst isOutcome
  split at answered
  case h_1 isRefused =>
    rw [answerIn_bind] at answered
    rcases answered with ⟨path, isPath, answered⟩
    rw [answerIn_paths isPath] at answered
    rcases goesOn answered with ⟨noOrder, answered⟩
    rcases goesOn answered with ⟨noRun, answered⟩
    rcases goesOn answered with ⟨noLaunch, answered⟩
    rw [answerIn_bind] at answered
    rcases answered with ⟨found, isFound, answered⟩
    cases isFound
    have noCompletion := Except.ok.inj answered
    refine ⟨answerIn_refusedIntent isRefused, ?_⟩
    simp only [List.forall_mem_cons, List.not_mem_nil, false_imp_iff, implies_true, and_true]
    refine ⟨noOrder, noRun, noLaunch, ?_⟩
    simpa [handle] using noCompletion
  case h_2 => cases answered

theorem answerIn_status (answered : answerIn machine given (status host requested) = .ok answer) :
    IsRefusal answer ∨ (validateBoundOrder host requested = true ∧ Disowned machine requested ∧
        answer.get (js "stage") = .string (js "HOLD")) ∨
      ∃ order run terminal stage shown, answer = stageAnswer order run terminal stage shown ∧
        (stage ∈ EXECUTION → Executed host machine requested stage) := by
  rw [status] at answered
  split at answered
  · exact .inl (isRefusal_of_eq answered (by decide))
  case isFalse invalid =>
    have valid : validateBoundOrder host requested = true := by simpa using invalid
    rw [answerIn_bind] at answered
    rcases answered with ⟨disowns, isDisowned, answered⟩
    split at answered
    case isTrue isTrue =>
      rw [isTrue] at isDisowned
      cases answered
      exact .inr (.inl ⟨valid, answerIn_refusedWithoutRecord isDisowned, rfl⟩)
    case isFalse =>
      rw [answerIn_bind] at answered
      rcases answered with ⟨outcome, isOutcome, answered⟩
      rw [answerIn_attempt, Except.ok.injEq] at isOutcome
      split at answered
      case h_1 =>
        cases answered
        rcases answerIn_statusOfOrder valid isOutcome with refused | staged
        · exact .inl refused
        · exact .inr (.inr staged)
      case h_2 => cases answered
      case h_3 =>
        cases answered
        exact .inl ⟨_, _, _, rfl, by decide, .inr rfl⟩

theorem disowned_of_answer (answered : answerIn machine given (status host requested) = .ok answer)
    (notOk : answer.get (js "ok") = .boolean false)
    (noRecords : answer.get (js "detail_code") = .string (js "NO_RECORDS")) :
    validateBoundOrder host requested = true ∧ Disowned machine requested := by
  rcases answerIn_status answered with ⟨refused, more, reason, rfl, -, isMore⟩ |
    ⟨valid, disowned, -⟩ | ⟨order, run, terminal, stage, shown, rfl, -⟩
  · have undetailed : (refusal refused more reason).get (js "detail_code") = .undefined := by
      apply get_eq_undefined
      rcases isMore with rfl | rfl
      · simp only [List.map_cons, List.map_append, List.map_nil]
        decide
      · simp only [List.map_cons, List.map_append, List.map_nil]
        decide
    rw [undetailed] at noRecords
    cases noRecords
  · exact ⟨valid, disowned⟩
  · have isOk : (stageAnswer order run terminal stage shown).get (js "ok") = .boolean true := by
      have first : js "version" ≠ js "ok" := by decide
      simp only [stageAnswer, List.cons_append, get_cons, if_neg first, if_true]
    rw [isOk] at notOk
    cases notOk

theorem executed_of_answer {stage : JsString}
    (answered : answerIn machine given (status host requested) = .ok answer)
    (isStage : answer.get (js "stage") = .string stage) (execution : stage ∈ EXECUTION) :
    Executed host machine requested stage := by
  rcases answerIn_status answered with ⟨refused, more, reason, rfl, notExecution, -⟩ |
    ⟨-, -, isHold⟩ | ⟨order, run, terminal, stage', shown, rfl, executed⟩
  · rw [get_stage_refusal] at isStage
    cases isStage
    exact absurd execution notExecution
  · rw [isHold] at isStage
    cases isStage
    exact absurd execution (by decide)
  · rw [get_stage_stageAnswer] at isStage
    cases isStage
    exact executed execution

end Requests

def Op.RecordsCompletion (op : Op) : Prop :=
  op.IsRead ∨ ∃ name value, op = .durableCreate .completions name value

/-- No call of the supervisor is going on, while workers may be recording completions. -/
def Idle (world : World) : Prop :=
  ∀ (id : ℕ) (process : Program JsValue), world.tasks[id]? = some (some process) →
    process.Performs Op.RecordsCompletion fun _ => True

section Runs

variable {host : SupervisorHost} {fuel : ℕ} {events : List Event} {requested : JsValue}

def refusedOf (requested intent : JsValue) (parsed : intent.jsonCopy = intent)
    (isOrder : intent.get (js "order") ≠ .undefined) : Refused where
  issueId := textOf requested (js "issue_id")
  attemptId := textOf requested (js "attempt_id")
  order := intent.get (js "order")
  parsed := parsed ▸ jsonCopy_get_jsonCopy intent (js "order")
  isDefined := isOrder

theorem remains_of_idle {refused : Refused} (idle : Idle (reach host fuel events))
    (remains : refused.Remains (reach host fuel events).state) {more : List Event}
    (another : ∀ order, .start (.submit order) ∈ more → canonical order ≠ canonical refused.order) :
    refused.Remains (reach host fuel (events ++ more)).state := by
  have later : reach host fuel (events ++ more) =
      (reach host fuel events).run handle (program host fuel) more := by
    simp only [reach, TaskWorld.run, List.foldl_append]
  have lasting : ∀ result, refused.leaving.Lasting
      (Ends (fun _ => True) (fun (_ : JsValue) _ => True) result) :=
    lasting_ends Refused.lasting_true fun _ => Refused.lasting_true
  have sound : TaskWorld.Sound refused.leaving (Ends (fun _ => True) fun _ _ => True)
      (reach host fuel events) := by
    refine ⟨remains, ?_⟩
    intro id process isTask
    have follows : refused.leaving.Follows id (fun _ => True) process
        fun _ _ => True ∧ True := by
      apply Discipline.Follows.of_performs_lasting (idle id process isTask) _
        Refused.lasting_true
      rintro op machine (read | ⟨name, value, rfl⟩)
      · exact (inferInstance : Reads refused.leaving.Free).reads op read id machine
      · trivial
    refine ⟨fun _ => True, trivial, .const True, follows.strengthen ?_⟩
    intro result _ _ _
    cases result with
    | ok value => trivial
    | error error => exact fun _ => trivial
  rw [later]
  apply (sound.run lasting _).invariant
  intro me task started
  apply Refused.leaves_program
  rintro order rfl
  exact another order started

/-- What status answers is true of the files, of what has happened and of what is to come. -/
theorem status_truthful (host : SupervisorHost) (fuel : ℕ) (events : List Event) (given : Given)
    (requested answer : JsValue)
    (answered : answerIn (reach host fuel events).state given (status host requested) =
      .ok answer) :
    let machine := (reach host fuel events).state
    let attemptId := textOf requested (js "attempt_id")
    (answer.get (js "ok") = .boolean false →
      answer.get (js "detail_code") = .string (js "NO_RECORDS") →
      (∀ task order, .spawned task attemptId order ∉ machine.history) ∧
      (Idle (reach host fuel events) →
        ∃ intent, machine.get? .intents (intentNameOf requested) = some intent ∧
          isBoundTo (intent.get (js "order")) requested = true ∧
          ∀ more, (∀ order, .start (.submit order) ∈ more →
              canonical order ≠ canonical (intent.get (js "order"))) →
            ∀ order, Bound (reach host fuel (events ++ more)).state attemptId order ∨
                (∃ task, .spawned task attemptId order ∈
                  (reach host fuel (events ++ more)).state.history) →
              order.get (js "issue_id") ≠ requested.get (js "issue_id"))) ∧
    ∀ stage, answer.get (js "stage") = .string stage → stage ∈ EXECUTION →
      Executed host machine requested stage := by
  intro machine attemptId
  refine ⟨?_, fun stage => executed_of_answer answered⟩
  intro notOk noRecords
  rcases disowned_of_answer answered notOk noRecords with ⟨valid, disowned⟩
  have unbound : machine.get? .orders (fileName attemptId) = none :=
    disowned.absent .orders (by decide)
  refine ⟨?_, ?_⟩
  · intro task order spawned
    rcases (orderly_reach host fuel events).spawned task attemptId order spawned with
      ⟨stored, isStored, -⟩
    rw [unbound] at isStored
    cases isStored
  · intro idle
    rcases disowned.refused with ⟨intent, isIntent, bound, isRefusal⟩
    refine ⟨intent, isIntent, bound, ?_⟩
    intro more another order
    have isOrder : intent.get (js "order") ≠ .undefined := by
      intro absent
      have attempt := get_of_isBoundTo bound (by decide) (attemptId_of_valid valid).1
      rw [absent] at attempt
      cases attempt
    have parsed := (orderly_reach host fuel events).parsed _ _ _ isIntent
    have remains : (refusedOf requested intent parsed isOrder).Remains machine := by
      refine ⟨⟨intent, isIntent, rfl, ?_⟩, ?_⟩
      · rw [List.any_eq_true] at isRefusal
        rcases isRefusal with ⟨code, isCode, isText⟩
        rw [isText_iff.mp isText]
        simp only [PRE_ADMISSION_REFUSALS, List.mem_cons, List.not_mem_nil, or_false] at isCode
        rcases isCode with rfl | rfl <;> decide
      · intro stored isStored
        rw [show (refusedOf requested intent parsed isOrder).attemptId = attemptId from rfl,
          unbound] at isStored
        cases isStored
    have elsewhere := (remains_of_idle idle remains another).elsewhere
    have ofBound : Bound (reach host fuel (events ++ more)).state attemptId order →
        order.get (js "issue_id") ≠ requested.get (js "issue_id") := by
      rintro ⟨stored, isStored, rfl⟩
      rw [issue_of_valid valid]
      exact elsewhere stored isStored
    rintro (isBound | ⟨task, spawned⟩)
    · exact ofBound isBound
    · exact ofBound
        ((orderly_reach host fuel (events ++ more)).spawned task attemptId order spawned)

end Runs

def sampleAttempt (digit : UInt16) : JsString :=
  let zeros (length : ℕ) : JsString := List.replicate length 48
  [zeros 8, zeros 4, zeros 4, zeros 4, zeros 11 ++ [digit]].intersperse [45] |>.flatten

def sampleOrder (attemptId issueId branch : JsString) : JsValue :=
  .object [(js "version", .string WORK_ORDER_VERSION), (js "role", .string (js "build")),
    (js "runtime", .string (js "codex-cli")), (js "issue_id", .string issueId),
    (js "attempt_id", .string attemptId), (js "target_sha", .string (List.replicate 40 97)),
    (js "authorization_ref", .string issueId), (js "repo", .string (js "bawes/hub")),
    (js "branch", .string branch)]

def ownerOrder : JsValue := sampleOrder (sampleAttempt 49) (js "SHU-1") (js "main")

def refusedOrder : JsValue := sampleOrder (sampleAttempt 50) (js "SHU-2") (js "main")

/-- An order of the refused attempt for another issue, on a branch that is free. -/
def otherOrder : JsValue := sampleOrder (sampleAttempt 50) (js "SHU-3") (js "next")

def sampleHost : SupervisorHost := .ofDigests
  [(js "bawes/hub\nmain", js "812ac167c60c245aed96c410c5e845dbec0ae6f6a19765cba216f022f71f40de"),
    (js "bawes/hub\nnext", js "eb5c792b61eedf01362b74b8a986f4b729aa21bc7407583f2ffd3c67a098971a"),
    (js "dG9rZW4", js "5f2f7aae6f3eaed632da5906afb8c598f02e7493d25bfdca24b54bf534b945b6"),
    (canonical ownerOrder,
      js "82bcc45686c4d86c1180329ad9da2d25dcc2e45e156dea0815680883469adaee"),
    (canonical refusedOrder,
      js "69aa925ced3847552b273a3f67439580e765d1b5d36bca80128c59dc3c140924"),
    (canonical otherOrder,
      js "0b6d226f4e27863dab6c357c4f06c7e0d985ca33b65da83f774f00cc9187b740")]

def sampleGiven : Given where
  now := js "2026-01-01T00:00:00.000Z"
  bytes := js "dG9rZW4"
  child := some ⟨.number (.ofNat 4711), .string (js "boot:4711")⟩
  alive := some true
  listing := []

def alone (id : ℕ) (task : Task) (operations : ℕ) : List Event :=
  .start task :: List.replicate operations (.step id sampleGiven) ++ [.die id]

def refusedEvents : List Event :=
  alone 0 (.submit ownerOrder) 40 ++ alone 1 (.submit refusedOrder) 40

def launchedEvents : List Event :=
  refusedEvents ++ alone 2 (.launch (sampleAttempt 49)) 40

/-- The refused attempt is given to another order, whose submission dies after its intent. -/
def reusedEvents : List Event := refusedEvents ++ alone 2 (.submit otherOrder) 2

def answerAfter (events : List Event) (requested : JsValue) : Except SupervisorError JsValue :=
  answerIn (reach sampleHost 2 events).state sampleGiven (status sampleHost requested)

def saysNoRecords (answer : JsValue) : Bool :=
  (answer.get (js "ok")).strictEq (.boolean false) &&
    (answer.get (js "detail_code")).isText (js "NO_RECORDS")

theorem of_saysNoRecords {answer : JsValue} (said : saysNoRecords answer = true) :
    answer.get (js "ok") = .boolean false ∧
      answer.get (js "detail_code") = .string (js "NO_RECORDS") := by
  rw [saysNoRecords, Bool.and_eq_true] at said
  refine ⟨?_, isText_iff.mp said.2⟩
  have notOk := said.1
  cases found : answer.get (js "ok") with
  | boolean value => simpa [found, strictEq] using notOk
  | _ => simp [found, strictEq] at notOk

theorem exists_answer (events : List Event) (requested : JsValue) (holds : JsValue → Bool)
    (answers : (answerAfter events requested).toOption.any holds = true) :
    ∃ answer, answerAfter events requested = .ok answer ∧ holds answer = true := by
  cases outcome : answerAfter events requested with
  | ok answer =>
    rw [outcome] at answers
    exact ⟨answer, rfl, answers⟩
  | error error =>
    rw [outcome] at answers
    cases answers

theorem idle_of_dead {world : World} (dead : world.tasks.all Option.isNone = true) :
    Idle world := by
  intro id process isTask
  rw [List.all_eq_true] at dead
  have gone := dead _ (List.mem_of_getElem? isTask)
  cases gone

/-- The refused attempt stays unbound through a recovery, and the owner's worker is running. -/
theorem status_truthful_sample :
    (∃ answer, answerAfter refusedEvents refusedOrder = .ok answer ∧
      saysNoRecords answer = true ∧
      ∀ order, Bound (reach sampleHost 2 (refusedEvents ++ alone 2 .recover 60)).state
        (sampleAttempt 50) order →
          order.get (js "issue_id") ≠ refusedOrder.get (js "issue_id")) ∧
    Executed sampleHost (reach sampleHost 2 launchedEvents).state ownerOrder (js "RUNNING") := by
  refine ⟨?_, ?_⟩
  · rcases exists_answer refusedEvents refusedOrder saysNoRecords (by decide +kernel) with
      ⟨answer, answered, said⟩
    rcases of_saysNoRecords said with ⟨notOk, noRecords⟩
    refine ⟨answer, answered, said, ?_⟩
    have final := ((status_truthful sampleHost 2 refusedEvents sampleGiven refusedOrder answer
      answered).1 notOk noRecords).2 (idle_of_dead (by decide +kernel))
    rcases final with ⟨intent, -, -, unbound⟩
    intro order bound
    apply unbound (alone 2 .recover 60) _ order (.inl bound)
    intro submitted started
    simp [alone] at started
  · rcases exists_answer launchedEvents ownerOrder
      (fun answer => (answer.get (js "stage")).isText (js "RUNNING")) (by decide +kernel) with
      ⟨answer, answered, isStage⟩
    have isRunning : answer.get (js "stage") = .string (js "RUNNING") := isText_iff.mp isStage
    have execution : js "RUNNING" ∈ EXECUTION := List.mem_cons_self
    exact (status_truthful sampleHost 2 launchedEvents sampleGiven ownerOrder answer answered).2 _
      isRunning execution

/-- Another order of the refused attempt is admitted by a recovery, and its worker spawned. -/
theorem reused_attempt_spawned :
    let recovery := alone 3 .recover 40
    let more := recovery ++ alone 4 (.launch (sampleAttempt 50)) 40
    ((answerAfter reusedEvents refusedOrder).toOption.any saysNoRecords = true ∧
      (reach sampleHost 2 reusedEvents).tasks.all Option.isNone = true ∧
      ((reach sampleHost 2 (reusedEvents ++ recovery)).state.get? .orders
        (fileName (sampleAttempt 50))).isSome = true ∧
      (reach sampleHost 2 (reusedEvents ++ more)).state.history.any
        (·.isSpawnOf (sampleAttempt 50)) = true) ∧
    ∀ order, .start (.submit order) ∉ more := by
  refine ⟨by decide +kernel, ?_⟩
  intro order started
  simp [alone] at started

end StudentHub.Supervisor
