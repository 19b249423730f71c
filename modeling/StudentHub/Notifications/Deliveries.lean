import StudentHub.Notifications.Outbox

/-!
# What is sent

A pass sends and completes only rows that it has claimed, and claims of one message differ in
their attempt. So the port is called once for an attempt, and a completion of one pass never
meets the claim of another. That a row is still as it was claimed when its turn comes is up to
the passes that claim it again in between.
-/

namespace StudentHub.Notifications

open Ecma JsString Concurrency Process

namespace Outbox

variable {outbox : Outbox} {limit : ℕ} {now : ℤ} {locked : JsString → Bool} {given : Given}

def found (outbox : Outbox) (id : JsString) : Option (EmailState × ℕ) :=
  (outbox.rows.get? id).map fun row => (row.state, row.attempts)

theorem get?_of_mem_due {entry : JsString × OutboxRow}
    (entryMem : entry ∈ outbox.due limit now locked) :
    outbox.rows.get? entry.1 = some entry.2 ∧
      (entry.2.state = .pending ∨ entry.2.state = .sending) := by
  have sorted := List.mem_of_mem_take entryMem
  simp only [Comparator.mem_sort, List.mem_filter, Bool.and_eq_true, Bool.or_eq_true,
    decide_eq_true_eq] at sorted
  exact ⟨OrderedMap.mem_entries_iff.mp sorted.1, sorted.2.1.1⟩

theorem nodup_due : ((outbox.due limit now locked).map Prod.fst).Nodup := by
  apply List.Nodup.sublist ((List.take_sublist _ _).map Prod.fst)
  apply (Comparator.sort_perm.map Prod.fst).nodup_iff.mpr
  exact outbox.rows.nodupKeys.sublist (List.filter_sublist.map Prod.fst)

theorem get?_claim (pass : ℕ) (id : JsString) :
    (outbox.claim pass limit now given).rows.get? id =
      if id ∈ (outbox.due limit now given.locked).map Prod.fst then
        (outbox.rows.get? id).map fun row => claimedRow row now
      else
        outbox.rows.get? id := by
  simp only [claim, OrderedMap.get?_foldl_set]
  split
  · rename_i isDue
    obtain ⟨entry, entryMem, rfl⟩ := List.mem_map.mp isDue
    have taken : ((((outbox.due limit now given.locked).map fun entry =>
        (entry.1, claimedRow entry.2 now)).reverse.find? fun pair => pair.1 = entry.1).map
          Prod.snd) = some (claimedRow entry.2 now) := by
      rw [← OrderedMap.get?_ofList, OrderedMap.get?_ofList_iff]
      · exact List.mem_map.mpr ⟨entry, entryMem, rfl⟩
      · simpa [List.map_map, Function.comp_def] using nodup_due
    rw [taken, (get?_of_mem_due entryMem).1]
    rfl
  · rename_i notDue
    have none : (((outbox.due limit now given.locked).map fun entry =>
        (entry.1, claimedRow entry.2 now)).reverse.find? fun pair => pair.1 = id) = none := by
      simp only [List.find?_eq_none, List.mem_reverse, List.mem_map, decide_eq_true_eq]
      rintro _ ⟨entry, entryMem, rfl⟩ rfl
      exact notDue (List.mem_map.mpr ⟨entry, entryMem, rfl⟩)
    rw [none]
    rfl

theorem found_claim (pass : ℕ) (id : JsString) :
    (outbox.claim pass limit now given).found id =
      if id ∈ (outbox.due limit now given.locked).map Prod.fst then
        (outbox.found id).map fun found => (.sending, found.2 + 1)
      else
        outbox.found id := by
  rw [found, get?_claim]
  split
  · simp only [found, Option.map_map]
    rfl
  · rfl

theorem mem_returnedRows {row : ClaimedEmail} :
    row ∈ outbox.returnedRows limit now given ↔
      ∃ entry ∈ outbox.due limit now given.locked, claimedEmail given entry = row := by
  simp only [returnedRows, List.mem_map, mem_sortBy]

theorem nodup_returnedRows :
    ((outbox.returnedRows limit now given).map ClaimedEmail.id).Nodup := by
  rw [returnedRows, List.map_map]
  have perm : (sortBy (fun entry => given.rank entry.1)
      (outbox.due limit now given.locked)).Perm (outbox.due limit now given.locked) :=
    List.perm_insertionSort _ _
  apply (perm.map _).nodup_iff.mpr
  exact nodup_due

theorem completes?_eq_some {id : JsString} {emailClass : EmailClass} {attempt : ℕ}
    {row : OutboxRow} (completes : outbox.completes? id emailClass attempt = some row) :
    outbox.rows.get? id = some row ∧ row.attempts = attempt ∧ row.state = .sending ∧
      ∀ other ∈ outbox.attempts, other.messageId = id → other.attemptNumber ≠ attempt := by
  simp only [completes?, Option.filter_eq_some_iff, Bool.and_eq_true, decide_eq_true_eq,
    Bool.not_eq_true', List.any_eq_false] at completes
  obtain ⟨found, ⟨⟨-, isAttempt⟩, isSending⟩, fresh⟩ := completes
  exact ⟨found, isAttempt, isSending, fun other otherMem sameId sameNumber =>
    fresh other otherMem ⟨sameId, sameNumber⟩⟩

theorem get?_completed {row : OutboxRow} {entry : AttemptRow} {retryAt : Option ℤ}
    (id : JsString) : (outbox.completed row entry retryAt).found id =
      if id = entry.messageId then some (stateOf entry.outcome retryAt, row.attempts)
      else outbox.found id := by
  simp only [found, completed, OrderedMap.get?_set]
  split <;> rfl

end Outbox

def EmailOutboxService.reaches (service : EmailOutboxService) (row : ClaimedEmail) : Bool :=
  row.attempt ≤ service.maxAttempts &&
    ((EMAIL_TEMPLATES row.emailClass).required || row.preferenceEnabled) && service.production &&
    service.configured && (row.address.filter (· ≠ [])).isSome &&
    (validateTemplateParameters row.emailClass row.parameters).isSome

def without (rows : List ClaimedEmail) (id : JsString) : List ClaimedEmail :=
  rows.filter fun row => row.id ≠ id

/-- A program that completes rows it has claimed only, sends each at most once and not after it
has completed it, and waits for the port when it has sent one. -/
inductive Serves (service : EmailOutboxService) {Value : Type} :
    List ClaimedEmail → List ClaimedEmail → Option ClaimedEmail → Work Value → Prop
  | returned {claimed unsent : List ClaimedEmail} {value : Value} :
      Serves service claimed unsent none (returned value)
  | thrown {claimed unsent : List ClaimedEmail} {error : Failure} :
      Serves service claimed unsent none (thrown error)
  | now {claimed unsent : List ClaimedEmail} {rest : ℤ → Work Value}
      (next : ∀ time, Serves service claimed unsent none (rest time)) :
      Serves service claimed unsent none (perform .now rest)
  | enqueue {claimed unsent : List ClaimedEmail} {emailClass : EmailClass}
      {recipientPrincipalId : JsString} {parameters : JsValue} {idempotencyKey : JsString}
      {rest : Option JsString → Work Value}
      (next : ∀ answer, Serves service claimed unsent none (rest answer)) :
      Serves service claimed unsent none
        (perform (.enqueue emailClass recipientPrincipalId parameters idempotencyKey) rest)
  | claim {limit : ℕ} {now : ℤ} {rest : Option (List ClaimedEmail) → Work Value}
      (rejected : Serves service [] [] none (rest none))
      (next : ∀ rows : List ClaimedEmail, (rows.map ClaimedEmail.id).Nodup →
        Serves service rows rows none (rest (some rows))) :
      Serves service [] [] none (perform (.claim limit now) rest)
  | complete {claimed unsent : List ClaimedEmail} {row : ClaimedEmail} {outcome : EmailOutcome}
      {failureCode : Option EmailFailureCode} {retryAt : Option ℤ} {completedAt : ℤ}
      {rest : Bool → Work Value} (rowMem : row ∈ claimed)
      (next : ∀ answer, Serves service claimed (without unsent row.id) none (rest answer)) :
      Serves service claimed unsent none (perform (.complete row.id row.emailClass row.attempt outcome
        failureCode retryAt completedAt) rest)
  | send {claimed unsent : List ClaimedEmail} {row : ClaimedEmail} {message : EmailMessage}
      {rest : Unit → Work Value} (rowMem : row ∈ unsent) (reaches : service.reaches row = true)
      (next : Serves service claimed (without unsent row.id) (some row) (rest ())) :
      Serves service claimed unsent none (perform (.send row message) rest)
  | settled {claimed unsent : List ClaimedEmail} {row : ClaimedEmail}
      {rest : SendAnswer → Work Value}
      (next : ∀ answer, Serves service claimed unsent none (rest answer)) :
      Serves service claimed unsent (some row) (perform (.settled row) rest)

section Programs

variable {service : EmailOutboxService} {Value : Type} {claimed unsent : List ClaimedEmail}
  {row : ClaimedEmail} {now : ℤ}

theorem without_without : without (without unsent row.id) row.id = without unsent row.id := by
  simp [without, List.filter_filter]

theorem serves_completeRow (rowMem : row ∈ claimed) {outcome : EmailOutcome}
    {failureCode : Option EmailFailureCode} {retryAt : Option ℤ}
    {rest : Except Failure Unit → Work Value}
    (next : ∀ result, Serves service claimed (without unsent row.id) none (rest result)) :
    Serves service claimed unsent none
      ((completeRow row now outcome failureCode retryAt).attempt.bind rest) := by
  apply Serves.complete rowMem
  intro answer
  cases answer with
  | true => exact next (.ok ())
  | false => exact next (.error .rejected)

theorem serves_beforeSend (rowMem : row ∈ claimed)
    {rest : Except Failure (Option EmailMessage) → Work Value}
    (closed : ∀ result, (∀ message, result ≠ .ok (some message)) →
      Serves service claimed (without unsent row.id) none (rest result))
    (failed : Serves service claimed unsent none (rest (.error .typeError)))
    (reached : ∀ message, service.reaches row = true →
      Serves service claimed unsent none (rest (.ok (some message)))) :
    Serves service claimed unsent none ((service.beforeSend row now).attempt.bind rest) := by
  have completed : ∀ outcome failureCode, Serves service claimed unsent none
      (((completeRow row now outcome failureCode none).bind fun _ =>
        (returned none : Work (Option EmailMessage))).attempt.bind rest) := by
    intro outcome failureCode
    rw [attempt_bind, bind_assoc]
    apply serves_completeRow rowMem
    intro result
    cases result with
    | ok completed => exact closed (.ok none) (by simp)
    | error error => exact closed (.error error) (by simp)
  simp only [EmailOutboxService.beforeSend]
  split
  · exact completed _ _
  rename_i fewEnough
  split
  · exact completed _ _
  rename_i wanted
  split
  · exact completed _ _
  rename_i production
  split
  · exact completed _ _
  rename_i configured
  cases addressed : row.address.filter (· ≠ []) with
  | none => exact completed _ _
  | some address =>
      cases valid : validateTemplateParameters row.emailClass row.parameters with
      | none => exact failed
      | some parameters =>
          apply reached
          simp only [Bool.not_eq_true', Bool.not_eq_false] at production configured
          simp only [EmailOutboxService.reaches, addressed, valid, production, configured,
            Bool.and_eq_true, Bool.or_eq_true, decide_eq_true_eq, Option.isSome_some, and_true]
          refine ⟨by omega, ?_⟩
          cases required : (EMAIL_TEMPLATES row.emailClass).required with
          | true => exact .inl rfl
          | false => exact .inr (by simpa [required] using wanted)

theorem serves_afterSend (rowMem : row ∈ claimed) {result : EmailSendResult}
    {rest : Except Failure Bool → Work Value}
    (next : ∀ result, Serves service claimed (without unsent row.id) none (rest result)) :
    Serves service claimed (without unsent row.id) none
      ((service.afterSend row now result).attempt.bind rest) := by
  have next' : ∀ result,
      Serves service claimed (without (without unsent row.id) row.id) none (rest result) := by
    rw [without_without]
    exact next
  cases result with
  | ok =>
      simp only [EmailOutboxService.afterSend, bind_eq_bind, pure_eq_returned, attempt_bind, bind_assoc]
      apply serves_completeRow rowMem
      intro result
      cases result <;> exact next' _
  | refused code safeToRetry =>
      simp only [EmailOutboxService.afterSend]
      split
      · simp only [bind_eq_bind, pure_eq_returned, attempt_bind, bind_assoc]
        apply serves_completeRow rowMem
        intro result
        cases result <;> exact next' _
      · simp only [bind_eq_bind, pure_eq_returned, attempt_bind, attempt_attempt, bind_assoc,
          bind_returned]
        apply serves_completeRow rowMem
        intro result
        cases result <;> exact next' _

theorem serves_processRow (rowMem : row ∈ claimed) (isUnsent : row ∈ unsent)
    {rest : Bool → Work Value}
    (next : ∀ failed, Serves service claimed (without unsent row.id) none (rest failed)) :
    Serves service claimed unsent none ((service.processRow row now).bind rest) := by
  have next' : ∀ failed,
      Serves service claimed (without (without unsent row.id) row.id) none (rest failed) := by
    rw [without_without]
    exact next
  simp only [EmailOutboxService.processRow, bind_eq_bind, pure_eq_returned, bind_assoc]
  apply serves_beforeSend rowMem
  · intro result notMessage
    match result with
    | .error error =>
        simp only [bind_assoc, bind_returned]
        apply serves_completeRow rowMem
        intro _
        exact next' true
    | .ok none => exact next false
    | .ok (some message) => exact absurd rfl (notMessage message)
  · simp only [bind_assoc, bind_returned]
    apply serves_completeRow rowMem
    intro _
    exact next true
  · intro message reaches
    simp only [bind_assoc, EmailOutboxService.deliver, bind_eq_bind, bind_call]
    apply Serves.send isUnsent reaches
    apply Serves.settled
    intro answer
    cases answer with
    | otherError => exact next true
    | sendError code safeToRetry =>
        simp only [attempt_bind, pure_eq_returned, bind_assoc]
        apply serves_afterSend rowMem
        intro result
        cases result <;> exact next true
    | resolved result =>
        apply serves_afterSend rowMem
        intro result
        cases result <;> exact next _

theorem without_cons {rows : List ClaimedEmail}
    (nodup : ((row :: rows).map ClaimedEmail.id).Nodup) : without (row :: rows) row.id = rows := by
  rw [List.map_cons, List.nodup_cons] at nodup
  have others : without rows row.id = rows := by
    rw [without, List.filter_eq_self]
    intro other otherMem
    rw [decide_eq_true_eq]
    intro same
    exact nodup.1 (List.mem_map.mpr ⟨other, otherMem, same⟩)
  simpa [without] using others

theorem serves_processRows {rows : List ClaimedEmail} (claimedAll : rows ⊆ claimed)
    (nodup : (rows.map ClaimedEmail.id).Nodup) {rest : Bool → Work Value}
    (next : ∀ failed, Serves service claimed [] none (rest failed)) :
    Serves service claimed rows none ((service.processRows now rows).bind rest) := by
  induction rows generalizing rest with
  | nil => exact next false
  | cons row rows ih =>
      simp only [EmailOutboxService.processRows, bind_eq_bind, pure_eq_returned, bind_assoc]
      apply serves_processRow (claimedAll List.mem_cons_self) List.mem_cons_self
      intro failed
      rw [without_cons nodup]
      rw [List.map_cons, List.nodup_cons] at nodup
      apply ih (fun other otherMem => claimedAll (List.mem_cons_of_mem _ otherMem)) nodup.2
      intro later
      exact next _

theorem serves_program (service : EmailOutboxService) (task : OutboxTask) :
    Serves service [] [] none (task.program service) := by
  cases task with
  | enqueue emailClass recipientPrincipalId parameters idempotencyKey =>
      simp only [OutboxTask.program, enqueueTransactionalEmail, bind_eq_bind]
      split
      · exact .thrown
      · apply Serves.enqueue
        intro answer
        cases answer with
        | none => exact .thrown
        | some id => exact .returned
  | pass limit =>
      simp only [OutboxTask.program, EmailOutboxService.processDue, bind_eq_bind, bind_assoc]
      apply Serves.now
      intro now
      apply Serves.claim
      · exact .thrown
      · intro rows nodup
        simp only [bind_returned, bind_assoc, pure_eq_returned]
        apply serves_processRows (fun _ => id) nodup
        intro failed
        cases failed with
        | true => exact .thrown
        | false => exact .returned

end Programs

end StudentHub.Notifications
