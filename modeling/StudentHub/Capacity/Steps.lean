import StudentHub.Capacity.Scheduler

/-!
# What a call does to the ledger

A call leaves the file, or it read a valid ledger, expired reservations, worked on
the result and wrote it. The work is a few reservations, one transition or one pause.
An invariant is checked against these once and then holds in every run.
-/

namespace StudentHub.Capacity

open Ecma JsString

inductive Works (dates : DateParser) (policy : CapacityPolicy) (around : Surroundings)
    (start : Ledger) : Call → Ledger → Prop
  | kept {call : Call} : Works dates policy around start call start
  | pausesLeft {tasks : List JsValue} {before : Ledger}
      (earlier : Works dates policy around start (.reserveMany (.array tasks)) before)
      (pauses : OrderedMap JsString Pause)
      (left : ∀ key pause, pauses.get? key = some pause → before.pauses.get? key = some pause) :
      Works dates policy around start (.reserveMany (.array tasks)) { before with pauses }
  | reserved {tasks : List JsValue} {before : Ledger} {value : JsValue} {task : Task}
      {acceptedAt reservationExpiresAt : Instant}
      (earlier : Works dates policy around start (.reserveMany (.array tasks)) before)
      (given : value ∈ tasks)
      (valid : taskValidation around.heritage policy value = .ok task)
      (new : lookUp around.heritage before.reservations task.taskId.text = none)
      (clear : capacityHold around.heritage policy task before = none) :
      Works dates policy around start (.reserveMany (.array tasks))
        { before with
          reservations := before.reservations.set task.taskId.text
            (reservationOf task acceptedAt reservationExpiresAt) }
  | moved {taskId : JsString} {statusText : JsValue} {options : TransitionOptions}
      {status : CapacityStatus} {actualCost : SafeNat} {current : Reservation}
      {updatedAt : Instant}
      (isCost : nonNegativeInteger (orDefault options.actualCostMicros (count 0)) = some actualCost)
      (isStatus : named CAPACITY_STATUSES CapacityStatus.text statusText = some status)
      (found : start.reservations.get? taskId = some current)
      (unsettled : isSettled (some current.status) status = false) :
      Works dates policy around start (.transition taskId statusText options)
        { start with
          spentMicros := charged start.spentMicros (some current.status) status actualCost
          reservations := start.reservations.set taskId
            (moved current status actualCost options updatedAt) }
  | movedInherited {taskId : JsString} {statusText : JsValue} {options : TransitionOptions}
      {status : CapacityStatus} {actualCost : SafeNat} {member : JsValue}
      (isCost : nonNegativeInteger (orDefault options.actualCostMicros (count 0)) = some actualCost)
      (isStatus : named CAPACITY_STATUSES CapacityStatus.text statusText = some status)
      (found : lookUp around.heritage start.reservations taskId = some (.inherited member)) :
      Works dates policy around start (.transition taskId statusText options)
        { start with
          spentMicros :=
            charged start.spentMicros (Existing.inherited member).status status actualCost }
  | paused {arguments : PauseArguments} {reason : PauseReason} {key : JsString}
      {createdAt : Instant}
      (untilChecked : checkUntil dates (orDefault arguments.«until» .null) = .ok ())
      (isKey : resourceKey arguments.scope (orDefault arguments.id .null) = .ok key) :
      Works dates policy around start (.pauseResource arguments)
        { start with
          pauses := start.pauses.set key ⟨reason, orDefault arguments.«until» .null, createdAt⟩ }

def Charges (file : Ledger) (event : Call × Surroundings) (existing : Existing)
    (actualCost : SafeNat) : Prop :=
  ∃ taskId statusText options status, event.1 = .transition taskId statusText options ∧
    named CAPACITY_STATUSES CapacityStatus.text statusText = some status ∧
    nonNegativeInteger (orDefault options.actualCostMicros (count 0)) = some actualCost ∧
    lookUp event.2.heritage (expireReservations file (event.2.now 0)).reservations taskId =
      some existing ∧
    existing.status.any CapacityStatus.isTerminal = false ∧ status.isTerminal = true

section Batch

variable {dates : DateParser} {policy : CapacityPolicy} {around : Surroundings}
  {start before after : Ledger} {tasks : List JsValue}

theorem firstPause_left {now : ClockReading} {keys : List JsString}
    {pauses : OrderedMap JsString Pause} {key : JsString} {pause : Pause}
    (found : (firstPause dates now keys pauses).2.get? key = some pause) :
    pauses.get? key = some pause := by
  induction keys generalizing pauses with
  | nil => exact found
  | cons first others ih =>
    rw [firstPause] at found
    split at found
    · exact ih found
    · split_ifs at found
      · have kept := ih found
        rw [OrderedMap.get?_delete] at kept
        split_ifs at kept
        exact kept
      · exact found

theorem works_evaluate {value : JsValue} {now : ClockReading} {evaluation : Evaluation}
    (earlier : Works dates policy around start (.reserveMany (.array tasks)) before)
    (evaluated : evaluate dates around.heritage policy value before now = (evaluation, after)) :
    Works dates policy around start (.reserveMany (.array tasks)) after ∧
      ∀ task, evaluation = .clear task →
        taskValidation around.heritage policy value = .ok task ∧
          lookUp around.heritage after.reservations task.taskId.text = none ∧
          capacityHold around.heritage policy task after = none := by
  have withPauses : ∀ task : Task, Works dates policy around start (.reserveMany (.array tasks))
      { before with pauses := (pauseFor dates task before.pauses now).2 } :=
    fun task => .pausesLeft earlier _ fun _ _ found => firstPause_left found
  rw [evaluate] at evaluated
  split at evaluated
  case h_1 =>
    cases evaluated
    exact ⟨earlier, by simp⟩
  case h_2 task valid =>
    split at evaluated
    case isTrue =>
      cases evaluated
      exact ⟨earlier, by simp⟩
    case isFalse =>
      split at evaluated
      case h_1 =>
        split_ifs at evaluated <;> cases evaluated <;> exact ⟨earlier, by simp⟩
      case h_2 new =>
        dsimp only at evaluated
        split at evaluated
        case h_1 =>
          split_ifs at evaluated <;> cases evaluated <;> exact ⟨withPauses task, by simp⟩
        case h_2 =>
          split at evaluated
          case h_1 =>
            cases evaluated
            exact ⟨withPauses task, by simp⟩
          case h_2 clear =>
            cases evaluated
            refine ⟨withPauses task, ?_⟩
            intro other same
            cases same
            exact ⟨valid, new, clear⟩

theorem works_reserveOne {value : JsValue} {now : ℕ → ClockReading} {outcome : Outcome}
    (earlier : Works dates policy around start (.reserveMany (.array tasks)) before)
    (given : value ∈ tasks)
    (done : reserveOne dates policy around.heritage now value before = .ok (outcome, after)) :
    Works dates policy around start (.reserveMany (.array tasks)) after := by
  rw [reserveOne] at done
  split at done
  · rename_i held state evaluated
    rcases bind_eq_ok_iff.mp done with ⟨_, -, answered⟩
    cases Except.ok.inj answered
    exact (works_evaluate earlier evaluated).1
  · rename_i existing state evaluated
    cases Except.ok.inj done
    exact (works_evaluate earlier evaluated).1
  · rename_i task state evaluated
    rcases bind_eq_ok_iff.mp done with ⟨acceptedAt, -, done⟩
    rcases bind_eq_ok_iff.mp done with ⟨reservationExpiresAt, -, answered⟩
    cases Except.ok.inj answered
    rcases works_evaluate earlier evaluated with ⟨works, cleared⟩
    rcases cleared task rfl with ⟨valid, new, clear⟩
    exact .reserved works given valid new clear

theorem works_reserveAll {now : ℕ → ClockReading} {batch : List (JsValue × ℤ)}
    {outcomes : List (Outcome × ℤ)}
    (earlier : Works dates policy around start (.reserveMany (.array tasks)) before)
    (given : ∀ task ∈ batch, task.1 ∈ tasks)
    (done : reserveAll dates policy around.heritage now batch before = .ok (outcomes, after)) :
    Works dates policy around start (.reserveMany (.array tasks)) after := by
  induction batch generalizing now before outcomes with
  | nil =>
    cases Except.ok.inj done
    exact earlier
  | cons task others ih =>
    rw [List.forall_mem_cons] at given
    rcases bind_eq_ok_iff.mp done with ⟨⟨outcome, state⟩, first, done⟩
    rcases bind_eq_ok_iff.mp done with ⟨⟨rest, last⟩, later, answered⟩
    cases Except.ok.inj answered
    exact ih (works_reserveOne earlier given.1 first) given.2 later

end Batch

section Calls

variable {dates : DateParser} {policy : CapacityPolicy} {around : Surroundings} {file : Ledger}

theorem withLock_snd {Result : Type} (dates : DateParser) (around : Surroundings) (file : Ledger)
    (operation : Ledger → Except Thrown (Result × Ledger)) :
    (withLock dates around file operation).2 = file ∨
      (validateLedger dates file.toJson = true ∧ ∃ result state,
        operation (expireReservations file (around.now 0)) = .ok (result, state) ∧
          (withLock dates around file operation).2 = state.parsed) := by
  rw [withLock]
  split
  case isTrue => exact .inl rfl
  case isFalse =>
    rw [readLedger]
    by_cases valid : validateLedger dates file.toJson = true
    · simp only [if_pos valid]
      split
      case h_1 => exact .inl rfl
      case h_2 result state operated =>
        split
        case isTrue => exact .inl rfl
        case isFalse => exact .inr ⟨valid, result, state, operated, rfl⟩
    · simp only [if_neg valid, fail, true_or]

theorem works_move {taskId : JsString} {statusText : JsValue} {options : TransitionOptions}
    {status : CapacityStatus} {actualCost : SafeNat} {start after : Ledger} {outcome : Outcome}
    (isCost : nonNegativeInteger (orDefault options.actualCostMicros (count 0)) = some actualCost)
    (isStatus : named CAPACITY_STATUSES CapacityStatus.text statusText = some status)
    (done : move around taskId status actualCost options start = .ok (outcome, after)) :
    Works dates policy around start (.transition taskId statusText options) after := by
  rw [move] at done
  split at done
  case h_1 =>
    cases Except.ok.inj done
    exact .kept
  case h_2 existing found =>
    split at done
    case isTrue =>
      cases Except.ok.inj done
      exact .kept
    case isFalse unsettled =>
      rw [Bool.not_eq_true] at unsettled
      cases existing with
      | own current =>
        rcases bind_eq_ok_iff.mp done with ⟨updatedAt, -, done⟩
        cases Except.ok.inj done
        have own : start.reservations.get? taskId = some current := by
          rw [lookUp] at found
          split at found
          · rename_i reservation present
            cases Option.some.inj found
            exact present
          · simp at found
        exact .moved isCost isStatus own unsettled
      | inherited member =>
        dsimp only at done
        split at done
        case isTrue => simp at done
        case isFalse =>
          rcases bind_eq_ok_iff.mp done with ⟨updatedAt, -, done⟩
          cases Except.ok.inj done
          exact .movedInherited isCost isStatus found

/-- What a call writes, if it writes, is its work on the ledger it has read, and that was
valid. -/
theorem next_cases (engine : Engine) (policy : CapacityPolicy) (file : Ledger) (call : Call)
    (around : Surroundings) :
    file.next engine policy (call, around) = file ∨
      (validateLedger engine.dates file.toJson = true ∧ ∃ state,
        Works engine.dates policy around (expireReservations file (around.now 0)) call state ∧
          file.next engine policy (call, around) = state.parsed) := by
  cases call with
  | reserveMany tasks =>
    simp only [Ledger.next, reserveMany]
    split
    case h_1 tasks =>
      rcases withLock_snd engine.dates around file
        (reserveBatch engine.localeCompare engine.dates policy around tasks) with
        unchanged | ⟨valid, outcomes, state, operated, written⟩
      · exact .inl unchanged
      · rcases bind_eq_ok_iff.mp operated with ⟨sorted, isSorted, operated⟩
        have given : ∀ task ∈ sorted, task.1 ∈ tasks := by
          intro task member
          exact (List.of_mem_zip (mem_of_sortM isSorted member)).1
        exact .inr ⟨valid, state, works_reserveAll .kept given operated, written⟩
    case h_2 => exact .inl rfl
  | transition taskId statusText options =>
    simp only [Ledger.next, transition]
    split
    case h_1 => exact .inl rfl
    case h_2 status isStatus =>
      split
      case h_1 => exact .inl rfl
      case h_2 actualCost isCost =>
        rcases withLock_snd engine.dates around file
          (move around taskId status actualCost options) with
          unchanged | ⟨valid, outcome, state, operated, written⟩
        · exact .inl unchanged
        · exact .inr ⟨valid, state, works_move isCost isStatus operated, written⟩
  | pauseResource arguments =>
    simp only [Ledger.next, pauseResource]
    split
    case h_1 => exact .inl rfl
    case h_2 reason key checked =>
      rcases bind_eq_ok_iff.mp checked with ⟨_, -, checked⟩
      rcases bind_eq_ok_iff.mp checked with ⟨_, untilChecked, checked⟩
      rcases bind_eq_ok_iff.mp checked with ⟨_, isKey, checked⟩
      cases Except.ok.inj checked
      rcases withLock_snd engine.dates around file
        (setPause around key reason (orDefault arguments.«until» .null)) with
        unchanged | ⟨valid, outcome, state, operated, written⟩
      · exact .inl unchanged
      · rcases bind_eq_ok_iff.mp operated with ⟨createdAt, -, operated⟩
        cases Except.ok.inj operated
        exact .inr ⟨valid, _, .paused untilChecked isKey, written⟩
  | snapshot => exact .inl rfl

end Calls

def Meets (engine : Engine) (policy : CapacityPolicy)
    (condition : Ledger → Call × Surroundings → Prop) : Ledger → List (Call × Surroundings) → Prop
  | _, [] => True
  | file, event :: later =>
      condition file event ∧ Meets engine policy condition (file.next engine policy event) later

theorem Meets.and {engine : Engine} {policy : CapacityPolicy}
    {left right : Ledger → Call × Surroundings → Prop} {file : Ledger}
    {events : List (Call × Surroundings)} (meetsLeft : Meets engine policy left file events)
    (meetsRight : Meets engine policy right file events) :
    Meets engine policy (fun file event => left file event ∧ right file event) file events := by
  induction events generalizing file with
  | nil => trivial
  | cons event later ih =>
    exact ⟨⟨meetsLeft.1, meetsRight.1⟩, ih meetsLeft.2 meetsRight.2⟩

theorem meets_of_forall {engine : Engine} {policy : CapacityPolicy}
    {condition : Ledger → Call × Surroundings → Prop} (always : ∀ file event, condition file event)
    (file : Ledger) (events : List (Call × Surroundings)) :
    Meets engine policy condition file events := by
  induction events generalizing file with
  | nil => trivial
  | cons event later ih => exact ⟨always file event, ih _⟩

/-- What every kind of change keeps holds in all that follows, as long as the events meet the
condition under which the work of a call keeps it. -/
theorem run_invariant {engine : Engine} {policy : CapacityPolicy}
    {condition : Ledger → Call × Surroundings → Prop} {invariant : Ledger → Prop}
    (expires : ∀ state now, invariant state → invariant (expireReservations state now))
    (parses : ∀ state, invariant state → invariant state.parsed)
    (works : ∀ file call around start state, condition file (call, around) →
      start = expireReservations file (around.now 0) → invariant start →
      Works engine.dates policy around start call state → invariant state)
    {file : Ledger} (holds : invariant file) (events : List (Call × Surroundings))
    (meets : Meets engine policy condition file events) :
    invariant (file.run engine policy events) := by
  induction events generalizing file with
  | nil => exact holds
  | cons event later ih =>
    rcases event with ⟨call, around⟩
    refine ih ?_ meets.2
    rcases next_cases engine policy file call around with unchanged | ⟨-, state, worked, written⟩
    · rwa [unchanged]
    · rw [written]
      exact parses _ (works file call around _ state meets.1 rfl (expires file _ holds) worked)

end StudentHub.Capacity
