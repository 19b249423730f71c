import StudentHub.Notifications.Guarantees

/-!
# Messages are kept

A key has one message. Its row is never removed and keeps what is to be sent and to whom; its
attempts only grow, and nothing changes any more once it is closed. An enqueuing under a key that
has a message therefore finds it at any later time.
-/

namespace StudentHub.Notifications

open Ecma JsString Concurrency

structure OutboxRow.Continues (old row : OutboxRow) : Prop where
  emailClass : row.emailClass = old.emailClass
  recipientPrincipalId : row.recipientPrincipalId = old.recipientPrincipalId
  templateParameters : row.templateParameters = old.templateParameters
  idempotencyKey : row.idempotencyKey = old.idempotencyKey
  attempts : old.attempts ≤ row.attempts
  closed : old.state.isClosed = true → row = old

namespace OutboxRow.Continues

variable {first second third : OutboxRow}

theorem refl (row : OutboxRow) : row.Continues row :=
  ⟨rfl, rfl, rfl, rfl, le_rfl, fun _ => rfl⟩

theorem trans (early : first.Continues second) (late : second.Continues third) :
    first.Continues third where
  emailClass := late.emailClass.trans early.emailClass
  recipientPrincipalId := late.recipientPrincipalId.trans early.recipientPrincipalId
  templateParameters := late.templateParameters.trans early.templateParameters
  idempotencyKey := late.idempotencyKey.trans early.idempotencyKey
  attempts := early.attempts.trans late.attempts
  closed := by
    intro isClosed
    cases early.closed isClosed
    exact late.closed isClosed

end OutboxRow.Continues

abbrev OutboxRows := OrderedMap JsString OutboxRow

/-- Rows go on, and a new one has a key of its own. -/
structure Advances (before after : OutboxRows) : Prop where
  rows : ∀ id old, before.get? id = some old → ∃ row, after.get? id = some row ∧ old.Continues row
  fresh : ∀ id row, after.get? id = some row → before.get? id = none →
    ∀ other stored, after.get? other = some stored → stored.idempotencyKey = row.idempotencyKey →
      other = id

def KeysApart (rows : OutboxRows) : Prop :=
  ∀ id row other stored, rows.get? id = some row → rows.get? other = some stored →
    stored.idempotencyKey = row.idempotencyKey → other = id

section Steps

variable {before after : OutboxRows} {outbox : Outbox} {given : Given}

theorem Advances.refl (rows : OutboxRows) : Advances rows rows :=
  ⟨fun _ old found => ⟨old, found, .refl old⟩,
    fun _ _ found absent => by simp [absent] at found⟩

theorem KeysApart.advance (apart : KeysApart before) (advances : Advances before after) :
    KeysApart after := by
  intro id row other stored found otherFound sameKey
  cases isOld : before.get? id with
  | none => exact advances.fresh id row found isOld other stored otherFound sameKey
  | some old =>
      cases otherOld : before.get? other with
      | none => exact (advances.fresh other stored otherFound otherOld id row found sameKey.symm).symm
      | some otherRow =>
          rcases advances.rows id old isOld with ⟨row', found', continues⟩
          rcases advances.rows other otherRow otherOld with ⟨stored', otherFound', otherContinues⟩
          cases found.symm.trans found'
          cases otherFound.symm.trans otherFound'
          apply apart id old other otherRow isOld otherOld
          rw [← continues.idempotencyKey, ← otherContinues.idempotencyKey, sameKey]

/-- One row is replaced by one that it may become. -/
theorem advances_set {id : JsString} {old row : OutboxRow} (found : before.get? id = some old)
    (continues : old.Continues row) : Advances before (before.set id row) := by
  refine ⟨?_, ?_⟩
  · intro other stored otherFound
    rw [OrderedMap.get?_set]
    split_ifs with same
    · rw [same, found] at otherFound
      cases otherFound
      exact ⟨row, rfl, continues⟩
    · exact ⟨stored, otherFound, .refl stored⟩
  · intro other stored otherFound absent
    rw [OrderedMap.get?_set] at otherFound
    split_ifs at otherFound with same
    · rw [same, found] at absent
      cases absent
    · rw [absent] at otherFound
      cases otherFound

theorem advances_claim (pass limit : ℕ) (now : ℤ) :
    Advances outbox.rows (outbox.claim pass limit now given).rows := by
  refine ⟨?_, ?_⟩
  · intro id old found
    rw [Outbox.get?_claim, found]
    split_ifs with isDue
    · refine ⟨Outbox.claimedRow old now, rfl, rfl, rfl, rfl, rfl, Nat.le_succ _, ?_⟩
      intro isClosed
      rcases List.mem_map.mp isDue with ⟨entry, entryMem, rfl⟩
      rcases Outbox.get?_of_mem_due entryMem with ⟨stored, isOpen⟩
      cases found.symm.trans stored
      rcases isOpen with isOpen | isOpen
      · rw [isOpen] at isClosed
        cases isClosed
      · rw [isOpen] at isClosed
        cases isClosed
    · exact ⟨old, rfl, .refl old⟩
  · intro id row found absent
    rw [Outbox.get?_claim, absent] at found
    split_ifs at found
    cases found

theorem advances_enqueue {emailClass : EmailClass} {recipientPrincipalId idempotencyKey : JsString}
    {parameters : JsValue} : Advances outbox.rows
      (outbox.enqueue emailClass recipientPrincipalId parameters idempotencyKey given).2.rows := by
  rw [Outbox.enqueue]
  split
  case h_1 => exact .refl _
  case h_2 unknown =>
    split_ifs with taken
    · exact .refl _
    · have absent : outbox.rows.get? given.uuid = none := by
        simpa [OrderedMap.has] using taken
      have unused : ∀ id row, outbox.rows.get? id = some row → row.idempotencyKey ≠ idempotencyKey := by
        intro id row found
        rw [List.find?_eq_none] at unknown
        simpa using unknown (id, row) (OrderedMap.mem_entries_iff.mpr found)
      have others : ∀ id, id ≠ given.uuid → ∀ row, (outbox.rows.set given.uuid row).get? id =
          outbox.rows.get? id := fun id distinct row => OrderedMap.get?_set_of_ne _ _ distinct
      refine ⟨?_, ?_⟩
      · intro id old found
        have distinct : id ≠ given.uuid := by
          rintro rfl
          rw [absent] at found
          cases found
        exact ⟨old, (others id distinct _).trans found, .refl old⟩
      · intro id row found none other stored otherFound sameKey
        have isNew : id = given.uuid := by
          by_contra distinct
          rw [others id distinct, none] at found
          cases found
        subst isNew
        rw [OrderedMap.get?_set_self] at found
        cases found
        by_contra distinct
        rw [others other distinct] at otherFound
        exact unused other stored otherFound sameKey

theorem advances_completed {id : JsString} {emailClass : EmailClass} {attempt : ℕ} {row : OutboxRow}
    {entry : AttemptRow} {retryAt : Option ℤ} (isEntry : entry.messageId = id)
    (completes : outbox.completes? id emailClass attempt = some row) :
    Advances outbox.rows (outbox.completed row entry retryAt).rows := by
  rcases Outbox.completes?_eq_some completes with ⟨found, -, isSending, -⟩
  rw [← isEntry] at found
  refine advances_set found ⟨rfl, rfl, rfl, rfl, le_rfl, ?_⟩
  intro isClosed
  rw [isSending] at isClosed
  cases isClosed

theorem advances_handle (me : ℕ) (op : OutboxOp) (given : Given) (outbox : Outbox) :
    Advances outbox.rows (handle me op given outbox).2.rows := by
  cases op with
  | now => exact .refl _
  | send row message => exact .refl _
  | settled row => exact .refl _
  | enqueue emailClass recipientPrincipalId parameters idempotencyKey =>
      have enqueued := @advances_enqueue { outbox with clock := max outbox.clock given.clock } given
        emailClass recipientPrincipalId idempotencyKey parameters
      simp only [handle]
      split
      · exact enqueued
      · exact .refl _
      · exact enqueued
  | claim limit now =>
      have claimed := @advances_claim { outbox with clock := max outbox.clock given.clock } given me
        limit now
      simp only [handle]
      split
      · exact claimed
      · exact .refl _
      · exact claimed
  | complete id emailClass attempt outcome failureCode retryAt completedAt =>
      simp only [handle]
      split
      · exact .refl _
      · exact .refl _
      · rename_i row completes _
        exact @advances_completed (Outbox.forget _ me id) id emailClass attempt row _ retryAt rfl completes

end Steps

structure Lasted (first : OutboxRows) (outbox : Outbox) : Prop where
  apart : KeysApart outbox.rows
  rows : ∀ id old, first.get? id = some old →
    ∃ row, outbox.rows.get? id = some row ∧ old.Continues row

theorem keysApart_initial : KeysApart Outbox.initial.rows := by
  intro id row other stored found
  cases found

theorem lasted_run {service : EmailOutboxService}
    {world : TaskWorld OutboxOp.Answer Failure Unit Outbox} (apart : KeysApart world.state.rows)
    (events : List (TaskEvent OutboxTask Given)) :
    Lasted world.state.rows (world.run handle (OutboxTask.program service) events).state := by
  apply TaskWorld.lasts
  · intro me op given outbox lasted
    have advances := advances_handle me op given outbox
    refine ⟨lasted.apart.advance advances, ?_⟩
    intro id old found
    rcases lasted.rows id old found with ⟨row, isRow, early⟩
    rcases advances.rows id row isRow with ⟨later, isLater, late⟩
    exact ⟨later, isLater, early.trans late⟩
  · exact ⟨apart, fun _ old found => ⟨old, found, .refl old⟩⟩

/-- In every interleaving of enqueuings and passes, whatever fails, a stored message stays with what
it is to say and to whom, ends at most once, and is what a later enqueuing under its key answers. -/
theorem messages_kept (service : EmailOutboxService) (events later : List (TaskEvent OutboxTask Given))
    (id : JsString) (old : OutboxRow)
    (found : (outboxRun service events).state.rows.get? id = some old) :
    ∃ row, (outboxRun service (events ++ later)).state.rows.get? id = some row ∧ old.Continues row ∧
      ∀ me emailClass recipientPrincipalId parameters given, given.fate = .done →
        (handle me (.enqueue emailClass recipientPrincipalId parameters old.idempotencyKey) given
          (outboxRun service (events ++ later)).state).1 = some id := by
  have first := @lasted_run service (TaskWorld.initial .initial) keysApart_initial events
  have lasted := @lasted_run service _ first.apart later
  rw [outboxRun, TaskWorld.run, List.foldl_append]
  rcases lasted.rows id old found with ⟨row, isRow, continues⟩
  refine ⟨row, isRow, continues, ?_⟩
  intro me emailClass recipientPrincipalId parameters given done
  simp only [handle, done, Outbox.enqueue]
  split
  case h_1 entry known =>
    have stored := OrderedMap.mem_entries_iff.mp (List.mem_of_find?_eq_some known)
    have sameKey : entry.2.idempotencyKey = row.idempotencyKey := by
      rw [continues.idempotencyKey]
      simpa using List.find?_some known
    exact congrArg some (lasted.apart id row entry.1 entry.2 isRow stored sameKey)
  case h_2 unknown =>
    rw [List.find?_eq_none] at unknown
    refine absurd ?_ (unknown (id, row) (OrderedMap.mem_entries_iff.mpr isRow))
    simp [continues.idempotencyKey]

/-- After another pass has the message in hand, its key still answers its id. -/
theorem messages_kept_secondSend :
    (handle 0 (.enqueue .accountNotice (js "p") .null (js "k")) (plainGiven 900003 (js "c"))
      (outboxRun sendingService secondSend).state).1 = some (js "a") := by
  have isStored : ((outboxRun sendingService firstSend).state.rows.get? (js "a")).map
      OutboxRow.idempotencyKey = some (js "k") := by decide +kernel
  rcases Option.map_eq_some_iff.mp isStored with ⟨old, found, isKey⟩
  rcases messages_kept sendingService firstSend (secondSend.drop firstSend.length) (js "a") old found
    with ⟨_, _, _, answers⟩
  rw [← isKey]
  exact answers 0 .accountNotice (js "p") .null (plainGiven 900003 (js "c")) rfl

end StudentHub.Notifications
