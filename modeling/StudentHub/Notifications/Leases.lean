import StudentHub.Notifications.Deliveries
import StudentHub.Concurrency.Progress
import Mathlib.Data.Finset.Card
import Mathlib.Order.Interval.Finset.Nat

/-!
# Messages are sent under their lease

Claims of one message differ in their attempt, so no attempt is sent or completed twice, and a
message that has come to its end stays there. A pass does not look at a message again before it
sends it: that it is still open, or still claimed by the pass, is up to what the other passes
do in between.
-/

namespace StudentHub.Notifications

open Ecma JsString Concurrency Process TaskWorld

inductive Moved (before : Outbox) (op : OutboxOp) (given : Given) (id : JsString)
    (stored : EmailState × ℕ) : EmailState × ℕ → Prop
  | kept : Moved before op given id stored stored
  | claimed {limit : ℕ} {now : ℤ} (isClaim : op = .claim limit now)
      (carriedOut : given.fate ≠ .refused)
      (isDue : id ∈ (before.due limit now given.locked).map Prod.fst)
      (isOpen : stored.1.isClosed = false) :
      Moved before op given id stored (.sending, stored.2 + 1)
  | completed {emailClass : EmailClass} {outcome : EmailOutcome}
      {failureCode : Option EmailFailureCode} {retryAt : Option ℤ} {completedAt : ℤ}
      (isCompletion :
        op = .complete id emailClass stored.2 outcome failureCode retryAt completedAt)
      (carriedOut : given.fate ≠ .refused)
      (completes : (before.completes? id emailClass stored.2).isSome)
      (isSending : stored.1 = .sending) :
      Moved before op given id stored (Outbox.stateOf outcome retryAt, stored.2)

variable {before : Outbox} {me : ℕ} {op : OutboxOp} {given : Given} {id : JsString}
  {stored : EmailState × ℕ}

namespace Outbox

theorem found_enqueue (before : Outbox) {emailClass : EmailClass}
    {recipientPrincipalId : JsString} {parameters : JsValue} {idempotencyKey : JsString} (isStored : before.found id = some stored) :
    (before.enqueue emailClass recipientPrincipalId parameters idempotencyKey given).2.found id =
      some stored := by
  simp only [enqueue]
  split
  · exact isStored
  · split
    · exact isStored
    · rename_i absent
      have differs : id ≠ given.uuid := by
        rintro rfl
        rw [found, Option.map_eq_some_iff] at isStored
        obtain ⟨row, isRow, -⟩ := isStored
        exact absent (by rw [OrderedMap.has, isRow]; rfl)
      rw [found, OrderedMap.get?_set_of_ne _ _ differs]
      exact isStored

theorem isOpen_of_due {limit : ℕ} {now : ℤ} {locked : JsString → Bool}
    (isStored : before.found id = some stored)
    (isDue : id ∈ (before.due limit now locked).map Prod.fst) : stored.1.isClosed = false := by
  obtain ⟨entry, entryMem, rfl⟩ := List.mem_map.mp isDue
  obtain ⟨isRow, isOpen⟩ := get?_of_mem_due entryMem
  simp only [found, isRow, Option.map_some, Option.some.injEq] at isStored
  rw [← isStored]
  rcases isOpen with pending | sending
  · rw [pending]
    rfl
  · rw [sending]
    rfl

theorem found_of_mem_due {limit : ℕ} {now : ℤ} {locked : JsString → Bool}
    {entry : JsString × OutboxRow} (entryMem : entry ∈ before.due limit now locked) :
    before.found entry.1 = some (entry.2.state, entry.2.attempts) := by
  rw [found, (get?_of_mem_due entryMem).1, Option.map_some]

theorem moved_claim (before : Outbox) (me : ℕ) {limit : ℕ} {now : ℤ} (carriedOut : given.fate ≠ .refused)
    (isStored : before.found id = some stored) :
    ∃ after, (before.claim me limit now given).found id = some after ∧
      Moved before (.claim limit now) given id stored after := by
  rw [found_claim]
  split
  · rename_i isDue
    refine ⟨_, by rw [isStored]; rfl, ?_⟩
    exact .claimed rfl carriedOut isDue (isOpen_of_due isStored isDue)
  · exact ⟨stored, isStored, .kept⟩

end Outbox

theorem moved_handle (me : ℕ) (op : OutboxOp) (given : Given)
    (isStored : before.found id = some stored) :
    ∃ after, (handle me op given before).2.found id = some after ∧
      Moved before op given id stored after := by
  cases op with
  | now => exact ⟨stored, isStored, .kept⟩
  | send row message => exact ⟨stored, isStored, .kept⟩
  | settled row => exact ⟨stored, isStored, .kept⟩
  | enqueue emailClass recipientPrincipalId parameters idempotencyKey =>
      refine ⟨stored, ?_, .kept⟩
      simp only [handle]
      split
      · exact Outbox.found_enqueue { before with clock := _ } isStored
      · exact isStored
      · exact Outbox.found_enqueue { before with clock := _ } isStored
  | claim limit now =>
      simp only [handle]
      split
      · rename_i done
        exact Outbox.moved_claim { before with clock := _ } me (by simp [done]) isStored
      · exact ⟨stored, isStored, .kept⟩
      · rename_i lost
        exact Outbox.moved_claim { before with clock := _ } me (by simp [lost]) isStored
  | complete otherId emailClass attempt outcome failureCode retryAt completedAt =>
      simp only [handle]
      split
      · exact ⟨stored, isStored, .kept⟩
      · exact ⟨stored, isStored, .kept⟩
      · rename_i row completes notRefused
        obtain ⟨isRow, sameAttempt, isSending, -⟩ := Outbox.completes?_eq_some completes
        have completes' : before.completes? otherId emailClass attempt = some row := completes
        rw [Outbox.get?_completed]
        split
        · rename_i same
          have same : id = otherId := same
          subst same
          have isRow' : before.rows.get? id = some row := isRow
          simp only [Outbox.found, isRow', Option.map_some, Option.some.injEq] at isStored
          subst sameAttempt
          refine ⟨_, rfl, ?_⟩
          rw [← isStored]
          exact .completed rfl notRefused (by rw [completes']; rfl) isSending
        · exact ⟨stored, isStored, .kept⟩

theorem closed_handle (me : ℕ) (op : OutboxOp) (given : Given)
    (isClosed : stored.1.isClosed = true) (isStored : before.found id = some stored) :
    (handle me op given before).2.found id = some stored := by
  obtain ⟨after, isAfter, moved⟩ := moved_handle me op given isStored
  cases moved with
  | kept => exact isAfter
  | claimed _ _ _ isOpen => simp [isOpen] at isClosed
  | completed _ _ _ isSending =>
      rw [isSending] at isClosed
      exact absurd isClosed (by decide)

def sentAttempts (outbox : Outbox) (id : JsString) : List AttemptRow :=
  outbox.attempts.filter fun entry => entry.messageId = id && entry.outcome = .sent

structure Orderly (service : EmailOutboxService) (outbox : Outbox) : Prop where
  claimsDiffer : (outbox.claims.map fun claim => (claim.id, claim.attempt)).Nodup
  claimsStored : ∀ claim ∈ outbox.claims, 1 ≤ claim.attempt ∧
    ∃ stored, outbox.found claim.id = some stored ∧ claim.attempt ≤ stored.2
  sendsDiffer : (outbox.sends.map fun sending => (sending.id, sending.attempt)).Nodup
  sendsClaimed : ∀ sending ∈ outbox.sends,
    ⟨sending.pass, sending.id, sending.attempt⟩ ∈ outbox.claims ∧
      sending.attempt ≤ service.maxAttempts
  attemptsDiffer : (outbox.attempts.map fun entry => (entry.messageId, entry.attemptNumber)).Nodup
  sentOnce : ∀ id, (sentAttempts outbox id).length =
    if (outbox.found id).map Prod.fst = some .sent then 1 else 0

variable {service : EmailOutboxService} {outbox : Outbox}

namespace Orderly

theorem sameClaim (orderly : Orderly service outbox) {first second : Claim}
    (firstMem : first ∈ outbox.claims) (secondMem : second ∈ outbox.claims)
    (sameId : first.id = second.id) (sameAttempt : first.attempt = second.attempt) :
    first = second := by
  apply List.inj_on_of_nodup_map orderly.claimsDiffer firstMem secondMem
  rw [sameId, sameAttempt]

theorem enqueue (orderly : Orderly service outbox) {emailClass : EmailClass}
    {recipientPrincipalId : JsString} {parameters : JsValue} {idempotencyKey : JsString} :
    Orderly service
      (outbox.enqueue emailClass recipientPrincipalId parameters idempotencyKey given).2 := by
  simp only [Outbox.enqueue]
  split
  · exact orderly
  split
  · exact orderly
  rename_i absent
  have isAbsent : outbox.found given.uuid = none := by
    rw [Outbox.found, Option.map_eq_none_iff]
    cases row : outbox.rows.get? given.uuid with
    | none => rfl
    | some row' => exact absurd (by rw [OrderedMap.has, row]; rfl) absent
  refine ⟨orderly.claimsDiffer, ?_, orderly.sendsDiffer, orderly.sendsClaimed,
    orderly.attemptsDiffer, ?_⟩
  · intro claim claimMem
    obtain ⟨positive, stored, isStored, bound⟩ := orderly.claimsStored claim claimMem
    refine ⟨positive, stored, ?_, bound⟩
    have differs : claim.id ≠ given.uuid := by
      intro same
      rw [same, isAbsent] at isStored
      exact absurd isStored (by simp)
    rw [Outbox.found, OrderedMap.get?_set_of_ne _ _ differs]
    exact isStored
  · intro id
    rw [Outbox.found, OrderedMap.get?_set]
    have once := orderly.sentOnce id
    split
    · rename_i same
      rw [same, isAbsent] at once
      rw [same]
      exact once
    · exact once

theorem claim (orderly : Orderly service outbox) {pass limit : ℕ} {now : ℤ} :
    Orderly service (outbox.claim pass limit now given) := by
  refine ⟨?_, ?_, orderly.sendsDiffer, ?_, orderly.attemptsDiffer, ?_⟩
  · simp only [Outbox.claim, List.map_append, List.map_map]
    apply List.Nodup.append
    · apply List.Nodup.of_map Prod.fst
      simpa [List.map_map, Function.comp_def] using Outbox.nodup_due
    · exact orderly.claimsDiffer
    · -- a claim that is already there has fewer attempts than the row, the new one has one more
      intro pair isNew isOld
      obtain ⟨entry, entryMem, rfl⟩ := List.mem_map.mp isNew
      obtain ⟨old, oldMem, same⟩ := List.mem_map.mp isOld
      simp only [Function.comp_apply, Prod.mk.injEq] at same
      obtain ⟨-, stored, isStored, bound⟩ := orderly.claimsStored old oldMem
      rw [same.1, Outbox.found_of_mem_due entryMem, Option.some.injEq] at isStored
      simp only [← isStored] at bound
      omega
  · intro claim claimMem
    simp only [Outbox.claim, List.mem_append, List.mem_map] at claimMem
    rw [Outbox.found_claim]
    rcases claimMem with ⟨entry, entryMem, rfl⟩ | isOld
    · refine ⟨Nat.le_add_left _ _, ?_⟩
      rw [if_pos (List.mem_map_of_mem entryMem), Outbox.found_of_mem_due entryMem]
      exact ⟨_, rfl, le_refl _⟩
    · obtain ⟨positive, stored, isStored, bound⟩ := orderly.claimsStored claim isOld
      refine ⟨positive, ?_⟩
      split
      · exact ⟨_, by rw [isStored]; rfl, Nat.le_succ_of_le bound⟩
      · exact ⟨stored, isStored, bound⟩
  · intro sending sendingMem
    obtain ⟨isClaimed, bound⟩ := orderly.sendsClaimed sending sendingMem
    exact ⟨List.mem_append_right _ isClaimed, bound⟩
  · intro id
    rw [Outbox.found_claim]
    have once := orderly.sentOnce id
    split
    · -- a due message was not sent before, and is not sent now
      rename_i isDue
      obtain ⟨entry, entryMem, rfl⟩ := List.mem_map.mp isDue
      have isOpen := Outbox.isOpen_of_due (Outbox.found_of_mem_due entryMem) isDue
      rw [Outbox.found_of_mem_due entryMem] at once ⊢
      have notSent : entry.2.state ≠ .sent := by
        intro isSent
        simp [isSent, EmailState.isClosed] at isOpen
      have noRow : (sentAttempts outbox entry.1).length = 0 := by
        simpa only [Option.map_some, Option.some.injEq, if_neg notSent] using once
      exact noRow
    · exact once

theorem completed (orderly : Orderly service outbox) {row : OutboxRow} {entry : AttemptRow}
    {retryAt : Option ℤ}
    (completes : outbox.completes? entry.messageId entry.emailClass entry.attemptNumber = some row) :
    Orderly service (outbox.completed row entry retryAt) := by
  obtain ⟨isRow, sameAttempt, isSending, fresh⟩ := Outbox.completes?_eq_some completes
  have isStored : outbox.found entry.messageId = some (.sending, row.attempts) := by
    rw [Outbox.found, isRow, Option.map_some, isSending]
  refine ⟨orderly.claimsDiffer, ?_, orderly.sendsDiffer, orderly.sendsClaimed, ?_, ?_⟩
  · intro claim claimMem
    obtain ⟨positive, stored, isStored', bound⟩ := orderly.claimsStored claim claimMem
    refine ⟨positive, ?_⟩
    rw [Outbox.get?_completed]
    split
    · rename_i same
      rw [same, isStored, Option.some.injEq] at isStored'
      rw [← isStored'] at bound
      exact ⟨_, rfl, bound⟩
    · exact ⟨stored, isStored', bound⟩
  · simp only [Outbox.completed, List.map_append, List.map_cons, List.map_nil]
    apply List.Nodup.append orderly.attemptsDiffer (List.nodup_singleton _)
    intro pair isOld isNew
    rw [List.mem_singleton] at isNew
    obtain ⟨other, otherMem, same⟩ := List.mem_map.mp isOld
    rw [isNew, Prod.mk.injEq] at same
    exact fresh other otherMem same.1 same.2
  · intro id
    have once := orderly.sentOnce id
    rw [Outbox.get?_completed]
    simp only [sentAttempts, Outbox.completed, List.filter_append, List.length_append] at once ⊢
    split
    · rename_i same
      subst same
      rw [isStored] at once
      rw [once]
      cases outcome : entry.outcome <;> cases retryAt <;> simp [Outbox.stateOf, outcome]
    · rename_i differs
      have notThis : (entry.messageId = id && entry.outcome = .sent : Bool) = false := by
        simp [Ne.symm differs]
      rw [once, List.filter_singleton, notThis]
      rfl

theorem of_same {other : Outbox} (orderly : Orderly service outbox) (rows : other.rows = outbox.rows)
    (attempts : other.attempts = outbox.attempts) (claims : other.claims = outbox.claims)
    (sends : other.sends = outbox.sends) : Orderly service other := by
  refine ⟨?_, ?_, ?_, ?_, ?_, ?_⟩
  · rw [claims]
    exact orderly.claimsDiffer
  · rw [claims]
    intro claim claimMem
    rw [Outbox.found, rows]
    exact orderly.claimsStored claim claimMem
  · rw [sends]
    exact orderly.sendsDiffer
  · rw [sends, claims]
    exact orderly.sendsClaimed
  · rw [attempts]
    exact orderly.attemptsDiffer
  · intro id
    rw [sentAttempts, attempts, Outbox.found, rows]
    exact orderly.sentOnce id

theorem send (orderly : Orderly service outbox) {row : ClaimedEmail} {message : EmailMessage}
    (isClaimed : ⟨me, row.id, row.attempt⟩ ∈ outbox.claims)
    (fewEnough : row.attempt ≤ service.maxAttempts)
    (fresh : ∀ sending ∈ outbox.sends, sending.id = row.id → sending.attempt ≠ row.attempt) :
    Orderly service (handle me (.send row message) given outbox).2 := by
  refine ⟨orderly.claimsDiffer, orderly.claimsStored, ?_, ?_, orderly.attemptsDiffer,
    orderly.sentOnce⟩
  · simp only [handle, Outbox.forget, List.map_cons, List.nodup_cons]
    refine ⟨?_, orderly.sendsDiffer⟩
    intro isOld
    obtain ⟨sending, sendingMem, same⟩ := List.mem_map.mp isOld
    rw [Prod.mk.injEq] at same
    exact fresh sending sendingMem same.1 same.2
  · intro sending sendingMem
    simp only [handle, Outbox.forget, List.mem_cons] at sendingMem
    rcases sendingMem with rfl | isOld
    · exact ⟨isClaimed, fewEnough⟩
    · exact orderly.sendsClaimed sending isOld

theorem handle (orderly : Orderly service outbox) (me : ℕ) (op : OutboxOp) (given : Given)
    (notSend : ∀ row message, op ≠ .send row message) :
    Orderly service (handle me op given outbox).2 := by
  have ticked : Orderly service { outbox with clock := max outbox.clock given.clock } :=
    orderly.of_same rfl rfl rfl rfl
  cases op with
  | now => exact ticked
  | send row message => exact absurd rfl (notSend row message)
  | settled row => exact ticked.of_same rfl rfl rfl rfl
  | enqueue emailClass recipientPrincipalId parameters idempotencyKey =>
      simp only [Notifications.handle]
      split
      · exact ticked.enqueue
      · exact ticked
      · exact ticked.enqueue
  | claim limit now =>
      simp only [Notifications.handle]
      split
      · exact ticked.claim.of_same rfl rfl rfl rfl
      · exact ticked
      · exact ticked.claim
  | complete id emailClass attempt outcome failureCode retryAt completedAt =>
      simp only [Notifications.handle]
      split
      · exact ticked.of_same rfl rfl rfl rfl
      · exact ticked.of_same rfl rfl rfl rfl
      · rename_i row completes notRefused
        have left : Orderly service
            (({ outbox with clock := max outbox.clock given.clock } : Outbox).forget me id) :=
          ticked.of_same rfl rfl rfl rfl
        apply left.completed
        exact completes

end Orderly

/-- What is asked of the stored message while a living pass has a claim of it still to send, and
while it waits for the port. -/
structure Watch where
  unsent : ℕ → Option (EmailState × ℕ) → Prop
  awaited : ℕ → Option (EmailState × ℕ) → Prop

structure Keeps (service : EmailOutboxService) (watch : Watch) (me : ℕ)
    (claimed unsent : List ClaimedEmail) (awaiting : Option ClaimedEmail) (outbox : Outbox) :
    Prop where
  claims : ∀ row ∈ claimed, ⟨me, row.id, row.attempt⟩ ∈ outbox.claims
  unsentClaimed : unsent ⊆ claimed
  awaitedClaimed : ∀ row, awaiting = some row → row ∈ claimed
  held : ∀ row ∈ unsent, (me, row) ∈ outbox.unsent
  inFlight : ∀ row, awaiting = some row → (me, row) ∈ outbox.inFlight
  fresh : ∀ row ∈ unsent, ∀ sending ∈ outbox.sends, sending.id = row.id →
    sending.attempt ≠ row.attempt
  watched : ∀ row ∈ unsent, service.reaches row = true →
    watch.unsent row.attempt (outbox.found row.id)
  awaited : ∀ row, awaiting = some row → watch.awaited row.attempt (outbox.found row.id)

def passes (service : EmailOutboxService) (watch : Watch) :
    Crew OutboxOp.Answer Failure Unit Outbox where
  Global outbox := Orderly service outbox ∧
    ∀ sending ∈ outbox.sends, watch.unsent sending.attempt sending.found
  Local me process outbox := ∃ claimed unsent awaiting,
    Serves service claimed unsent awaiting process ∧
      Keeps service watch me claimed unsent awaiting outbox

/-- The condition lets no operation of one pass take from another what it watches. -/
structure Watch.Guarded (service : EmailOutboxService) (watch : Watch)
    (condition : Condition OutboxOp.Answer Failure Unit Given Outbox) : Prop where
  starts : ∀ attempt, watch.unsent attempt (some (.sending, attempt))
  hands : ∀ attempt stored, watch.unsent attempt stored → watch.awaited attempt stored
  unsent : ∀ (world : TaskWorld OutboxOp.Answer Failure Unit Outbox) (me : ℕ) (op : OutboxOp)
    (given : Given) (other : ℕ) (row : ClaimedEmail) (stored after : EmailState × ℕ),
    condition world me op given → other ≠ me → (world.left? other).isSome →
    (other, row) ∈ world.state.unsent → service.reaches row = true →
    (∀ emailClass outcome failureCode retryAt completedAt,
      op ≠ .complete row.id emailClass row.attempt outcome failureCode retryAt completedAt) →
    Moved world.state op given row.id stored after → watch.unsent row.attempt (some stored) →
    watch.unsent row.attempt (some after)
  awaited : ∀ (world : TaskWorld OutboxOp.Answer Failure Unit Outbox) (me : ℕ) (op : OutboxOp)
    (given : Given) (other : ℕ) (row : ClaimedEmail) (stored after : EmailState × ℕ),
    condition world me op given → other ≠ me → (world.left? other).isSome →
    (other, row) ∈ world.state.inFlight →
    (∀ emailClass outcome failureCode retryAt completedAt,
      op ≠ .complete row.id emailClass row.attempt outcome failureCode retryAt completedAt) →
    Moved world.state op given row.id stored after → watch.awaited row.attempt (some stored) →
    watch.awaited row.attempt (some after)

structure Beside (me : ℕ) (op : OutboxOp) (before after : Outbox) : Prop where
  claims : before.claims ⊆ after.claims
  unsent : ∀ other row, other ≠ me → (other, row) ∈ before.unsent → (other, row) ∈ after.unsent
  inFlight : ∀ other row, other ≠ me → (other, row) ∈ before.inFlight →
    (other, row) ∈ after.inFlight
  sends : (∀ row message, op ≠ .send row message) → after.sends = before.sends

theorem Beside.of_rows {after : Outbox} (claims : after.claims = before.claims)
    (unsent : after.unsent = before.unsent) (inFlight : after.inFlight = before.inFlight)
    (sends : after.sends = before.sends) : Beside me op before after := by
  refine ⟨?_, ?_, ?_, fun _ => sends⟩
  · rw [claims]
    exact fun _ => id
  · rw [unsent]
    exact fun _ _ _ => id
  · rw [inFlight]
    exact fun _ _ _ => id

theorem Outbox.enqueue_rows (before : Outbox) (emailClass : EmailClass)
    (recipientPrincipalId : JsString) (parameters : JsValue) (idempotencyKey : JsString)
    (given : Given) :
    ∃ rows, (before.enqueue emailClass recipientPrincipalId parameters idempotencyKey given).2 =
      { before with rows } := by
  simp only [Outbox.enqueue]
  split
  · exact ⟨before.rows, rfl⟩
  · split
    · exact ⟨before.rows, rfl⟩
    · exact ⟨_, rfl⟩

theorem mem_forget {other : ℕ} {row : ClaimedEmail} (differs : other ≠ me ∨ row.id ≠ id)
    (rowMem : (other, row) ∈ before.unsent) : (other, row) ∈ (before.forget me id).unsent := by
  simp only [Outbox.forget, List.mem_filter, Bool.not_eq_true', Bool.and_eq_false_iff,
    decide_eq_false_iff_not]
  exact ⟨rowMem, differs⟩

theorem beside_handle (me : ℕ) (op : OutboxOp) (given : Given) (before : Outbox) :
    Beside me op before (handle me op given before).2 := by
  cases op with
  | now => exact .of_rows rfl rfl rfl rfl
  | send row message =>
      refine ⟨fun _ => id, ?_, ?_, fun notSend => absurd rfl (notSend row message)⟩
      · intro other held isOther heldMem
        exact mem_forget (.inl isOther) heldMem
      · intro other held isOther heldMem
        exact List.mem_cons_of_mem _ heldMem
  | settled row =>
      refine ⟨fun _ => id, fun _ _ _ => id, ?_, fun _ => rfl⟩
      intro other held isOther heldMem
      simp [handle, heldMem, isOther]
  | enqueue emailClass recipientPrincipalId parameters idempotencyKey =>
      obtain ⟨rows, isRows⟩ := Outbox.enqueue_rows
        { before with clock := max before.clock given.clock } emailClass recipientPrincipalId
        parameters idempotencyKey given
      simp only [handle, isRows]
      split
      all_goals exact .of_rows rfl rfl rfl rfl
  | claim limit now =>
      simp only [handle]
      split
      · exact ⟨fun _ => List.mem_append_right _, fun _ _ _ => List.mem_append_right _,
          fun _ _ _ => id, fun _ => rfl⟩
      · exact .of_rows rfl rfl rfl rfl
      · exact ⟨fun _ => List.mem_append_right _, fun _ _ _ => id, fun _ _ _ => id, fun _ => rfl⟩
  | complete messageId emailClass attempt outcome failureCode retryAt completedAt =>
      simp only [handle]
      split
      all_goals exact ⟨fun _ => id, fun _ _ isOther => mem_forget (.inl isOther), fun _ _ _ => id,
        fun _ => rfl⟩

section Crew

variable {watch : Watch} {condition : Condition OutboxOp.Answer Failure Unit Given Outbox}
  {claimed unsent : List ClaimedEmail} {awaiting : Option ClaimedEmail}
  {world : TaskWorld OutboxOp.Answer Failure Unit Outbox} {other : ℕ}

theorem Keeps.isStored (keeps : Keeps service watch me claimed unsent awaiting outbox)
    (orderly : Orderly service outbox) {row : ClaimedEmail} (rowMem : row ∈ claimed) :
    ∃ stored, outbox.found row.id = some stored := by
  obtain ⟨-, stored, isStored, -⟩ := orderly.claimsStored _ (keeps.claims row rowMem)
  exact ⟨stored, isStored⟩

theorem Keeps.byOther (guarded : watch.Guarded service condition)
    (orderly : Orderly service world.state) (permitted : condition world me op given)
    (isOther : other ≠ me) (living : (world.left? other).isSome)
    (mine : ∀ id emailClass attempt outcome failureCode retryAt completedAt,
      op = .complete id emailClass attempt outcome failureCode retryAt completedAt →
      ⟨me, id, attempt⟩ ∈ world.state.claims)
    (sends : ∀ row message, op = .send row message → ⟨me, row.id, row.attempt⟩ ∈ world.state.claims)
    (keeps : Keeps service watch other claimed unsent awaiting world.state) :
    Keeps service watch other claimed unsent awaiting (handle me op given world.state).2 := by
  have beside := beside_handle me op given world.state
  -- an attempt that this pass has claimed is not completed by the other
  have apart : ∀ row ∈ claimed, ∀ emailClass outcome failureCode retryAt completedAt,
      op ≠ .complete row.id emailClass row.attempt outcome failureCode retryAt completedAt := by
    intro row rowMem emailClass outcome failureCode retryAt completedAt isCompletion
    have same := orderly.sameClaim (keeps.claims row rowMem)
      (mine _ _ _ _ _ _ _ isCompletion) rfl rfl
    exact isOther (congrArg Claim.pass same)
  refine ⟨fun row rowMem => beside.claims (keeps.claims row rowMem), keeps.unsentClaimed,
    keeps.awaitedClaimed, fun row rowMem => beside.unsent _ _ isOther (keeps.held row rowMem),
    fun row isAwaited => beside.inFlight _ _ isOther (keeps.inFlight row isAwaited), ?_, ?_, ?_⟩
  · intro row rowMem sending sendingMem sameId sameAttempt
    by_cases isSend : ∃ sent message, op = .send sent message
    · obtain ⟨sent, message, rfl⟩ := isSend
      simp only [handle, List.mem_cons] at sendingMem
      rcases sendingMem with rfl | isOld
      · have same := orderly.sameClaim (keeps.claims row (keeps.unsentClaimed rowMem))
          (sends sent message rfl) sameId.symm sameAttempt.symm
        exact isOther (congrArg Claim.pass same)
      · exact keeps.fresh row rowMem sending isOld sameId sameAttempt
    · rw [beside.sends (fun sent message same => isSend ⟨sent, message, same⟩)] at sendingMem
      exact keeps.fresh row rowMem sending sendingMem sameId sameAttempt
  · intro row rowMem reaches
    obtain ⟨stored, isStored⟩ := keeps.isStored orderly (keeps.unsentClaimed rowMem)
    obtain ⟨after, isAfter, moved⟩ := moved_handle me op given isStored
    have watched := keeps.watched row rowMem reaches
    rw [isStored] at watched
    rw [isAfter]
    exact guarded.unsent world me op given other row stored after permitted isOther living
      (keeps.held row rowMem) reaches (apart row (keeps.unsentClaimed rowMem)) moved watched
  · intro row isAwaited
    obtain ⟨stored, isStored⟩ := keeps.isStored orderly (keeps.awaitedClaimed row isAwaited)
    obtain ⟨after, isAfter, moved⟩ := moved_handle me op given isStored
    have awaited := keeps.awaited row isAwaited
    rw [isStored] at awaited
    rw [isAfter]
    exact guarded.awaited world me op given other row stored after permitted isOther living
      (keeps.inFlight row isAwaited) (apart row (keeps.awaitedClaimed row isAwaited)) moved awaited

theorem Keeps.forward {remaining : List ClaimedEmail}
    (keeps : Keeps service watch me claimed unsent awaiting outbox)
    (orderly : Orderly service outbox) (op : OutboxOp) (given : Given)
    (fewer : remaining ⊆ unsent)
    (held : ∀ row ∈ remaining, (me, row) ∈ (handle me op given outbox).2.unsent)
    (notSend : ∀ row message, op ≠ .send row message)
    (notClaim : ∀ limit now, op ≠ .claim limit now)
    (apart : ∀ row ∈ remaining, ∀ emailClass attempt outcome failureCode retryAt completedAt,
      op ≠ .complete row.id emailClass attempt outcome failureCode retryAt completedAt) :
    Keeps service watch me claimed remaining none (handle me op given outbox).2 := by
  have beside := beside_handle me op given outbox
  refine ⟨fun row rowMem => beside.claims (keeps.claims row rowMem),
    fun row rowMem => keeps.unsentClaimed (fewer rowMem), nofun, held, nofun, ?_, ?_, nofun⟩
  · intro row rowMem sending sendingMem
    rw [beside.sends notSend] at sendingMem
    exact keeps.fresh row (fewer rowMem) sending sendingMem
  · intro row rowMem reaches
    obtain ⟨stored, isStored⟩ := keeps.isStored orderly (keeps.unsentClaimed (fewer rowMem))
    obtain ⟨after, isAfter, moved⟩ := moved_handle me op given isStored
    have watched := keeps.watched row (fewer rowMem) reaches
    rw [isStored] at watched
    rw [isAfter]
    cases moved with
    | kept => exact watched
    | claimed isClaim => exact absurd isClaim (notClaim _ _)
    | completed isCompletion => exact absurd isCompletion (apart row rowMem _ _ _ _ _ _)

theorem keeps_claim (guarded : watch.Guarded service condition) {limit : ℕ} {now : ℤ}
    (orderly : Orderly service outbox) (done : given.fate = .done) :
    Keeps service watch me (outbox.returnedRows limit now given)
      (outbox.returnedRows limit now given) none (handle me (.claim limit now) given outbox).2 := by
  have claimedNow : ∀ row ∈ outbox.returnedRows limit now given,
      (outbox.claim me limit now given).found row.id = some (.sending, row.attempt) ∧
        ⟨me, row.id, row.attempt⟩ ∈ (outbox.claim me limit now given).claims ∧
        ∃ stored, outbox.found row.id = some stored ∧ stored.2 < row.attempt := by
    intro row rowMem
    obtain ⟨entry, entryMem, rfl⟩ := Outbox.mem_returnedRows.mp rowMem
    have isStored := Outbox.found_of_mem_due entryMem
    refine ⟨?_, ?_, _, isStored, Nat.lt_succ_self _⟩
    · have isDue : (Outbox.claimedEmail given entry).id ∈
          (outbox.due limit now given.locked).map Prod.fst :=
        List.mem_map.mpr ⟨entry, entryMem, rfl⟩
      rw [Outbox.found_claim, if_pos isDue]
      change (outbox.found entry.1).map _ = _
      rw [isStored]
      rfl
    · exact List.mem_append_left _ (List.mem_map.mpr ⟨entry, entryMem, rfl⟩)
  simp only [handle, done]
  refine ⟨fun row rowMem => (claimedNow row rowMem).2.1, fun _ => id, nofun, ?_, nofun, ?_, ?_, nofun⟩
  · intro row rowMem
    exact List.mem_append_left _ (List.mem_map.mpr ⟨row, rowMem, rfl⟩)
  · -- what has been sent was claimed before, so under a lower attempt
    intro row rowMem sending sendingMem sameId sameAttempt
    obtain ⟨-, -, stored, isStored, lower⟩ := claimedNow row rowMem
    obtain ⟨isClaimed, -⟩ := orderly.sendsClaimed sending sendingMem
    obtain ⟨-, stored', isStored', bound⟩ := orderly.claimsStored _ isClaimed
    simp only [sameId, isStored, Option.some.injEq] at isStored'
    rw [← isStored'] at bound
    have bound : sending.attempt ≤ stored.2 := bound
    omega
  · intro row rowMem _
    have isSending := guarded.starts row.attempt
    rw [← (claimedNow row rowMem).1] at isSending
    exact isSending

theorem mem_without {rows : List ClaimedEmail} {row : ClaimedEmail} :
    row ∈ without rows id ↔ row ∈ rows ∧ row.id ≠ id := by
  simp [without]

theorem keeps_send (guarded : watch.Guarded service condition) {row : ClaimedEmail}
    {message : EmailMessage} (keeps : Keeps service watch me claimed unsent none outbox)
    (rowMem : row ∈ unsent) (reaches : service.reaches row = true) :
    Keeps service watch me claimed (without unsent row.id) (some row)
      (handle me (.send row message) given outbox).2 := by
  refine ⟨keeps.claims, fun other otherMem => keeps.unsentClaimed (mem_without.mp otherMem).1,
    ?_, ?_, ?_, ?_, ?_, ?_⟩
  · rintro _ ⟨⟩
    exact keeps.unsentClaimed rowMem
  · intro other otherMem
    obtain ⟨isUnsent, differs⟩ := mem_without.mp otherMem
    exact mem_forget (.inr differs) (keeps.held other isUnsent)
  · rintro _ ⟨⟩
    exact List.mem_cons_self
  · intro other otherMem sending sendingMem sameId
    obtain ⟨isUnsent, differs⟩ := mem_without.mp otherMem
    simp only [handle, List.mem_cons] at sendingMem
    rcases sendingMem with rfl | isOld
    · exact absurd sameId.symm differs
    · exact keeps.fresh other isUnsent sending isOld sameId
  · intro other otherMem
    exact keeps.watched other (mem_without.mp otherMem).1
  · rintro _ ⟨⟩
    exact guarded.hands _ _ (keeps.watched row rowMem reaches)

theorem Keeps.nothing {me : ℕ} {outbox : Outbox} : Keeps service watch me [] [] none outbox :=
  ⟨by simp, by simp, by simp, by simp, by simp, by simp, by simp, by simp⟩

theorem passes_works (guarded : watch.Guarded service condition) :
    (passes service watch).Works handle (OutboxTask.program service) condition := by
  refine ⟨?_, ?_⟩
  · intro world task holds
    refine ⟨[], [], none, serves_program service task, ?_⟩
    exact Keeps.nothing
  · intro world me op rest given holds left permitted
    obtain ⟨orderly, sends⟩ := holds.shared
    obtain ⟨claimed, unsent, awaiting, serves, keeps⟩ := holds.each me _ left
    -- what the others keep follows from what this operation was claimed for
    have others : (∀ id emailClass attempt outcome failureCode retryAt completedAt,
        op = .complete id emailClass attempt outcome failureCode retryAt completedAt →
          ⟨me, id, attempt⟩ ∈ world.state.claims) →
        (∀ row message, op = .send row message →
          ⟨me, row.id, row.attempt⟩ ∈ world.state.claims) →
        ∀ other process, other ≠ me → world.left? other = some process →
          (passes service watch).Local other process (handle me op given world.state).2 := by
      intro mine sent other process isOther isLeft
      obtain ⟨claimed, unsent, awaiting, serves, keeps⟩ := holds.each other process isLeft
      exact ⟨claimed, unsent, awaiting, serves, keeps.byOther guarded orderly permitted isOther
        (by rw [isLeft]; rfl) mine sent⟩
    have shared : (∀ row message, op ≠ .send row message) →
        (passes service watch).Global (handle me op given world.state).2 := by
      intro notSend
      refine ⟨orderly.handle me op given notSend, ?_⟩
      rw [(beside_handle me op given world.state).sends notSend]
      exact sends
    cases serves with
    | now next =>
        refine ⟨shared (by simp), ?_, others (by simp) (by simp)⟩
        exact ⟨claimed, unsent, none, next _, keeps.forward orderly _ given (fun _ => id)
          (fun row rowMem => keeps.held row rowMem) (by simp) (by simp) (by simp)⟩
    | @enqueue _ _ emailClass recipientPrincipalId parameters idempotencyKey rest next =>
        refine ⟨shared (by simp), ?_, others (by simp) (by simp)⟩
        refine ⟨claimed, unsent, none, next _, keeps.forward orderly _ given (fun _ => id)
          ?_ (by simp) (by simp) (by simp)⟩
        intro row rowMem
        obtain ⟨rows, isRows⟩ := Outbox.enqueue_rows
          { world.state with clock := max world.state.clock given.clock } emailClass
          recipientPrincipalId parameters idempotencyKey given
        simp only [handle, isRows]
        split
        all_goals exact keeps.held row rowMem
    | claim rejected next =>
        refine ⟨shared (by simp), ?_, others (by simp) (by simp)⟩
        cases fate : given.fate with
        | done =>
            refine ⟨_, _, none, ?_, keeps_claim guarded orderly fate⟩
            simp only [handle, fate]
            exact next _ Outbox.nodup_returnedRows
        | refused =>
            refine ⟨[], [], none, ?_, Keeps.nothing⟩
            simp only [handle, fate]
            exact rejected
        | lost =>
            refine ⟨[], [], none, ?_, Keeps.nothing⟩
            simp only [handle, fate]
            exact rejected
    | complete rowMem next =>
        refine ⟨shared (by simp), ?_, others ?_ (by simp)⟩
        · refine ⟨claimed, _, none, next _, keeps.forward orderly _ given ?_ ?_ (by simp) (by simp) ?_⟩
          · intro row isUnsent
            exact (mem_without.mp isUnsent).1
          · intro row isUnsent
            obtain ⟨isUnsent, differs⟩ := mem_without.mp isUnsent
            simp only [handle]
            split
            all_goals exact mem_forget (.inr differs) (keeps.held row isUnsent)
          · intro row isUnsent _ _ _ _ _ _ isCompletion
            injection isCompletion with sameId
            exact (mem_without.mp isUnsent).2 sameId.symm
        · rintro _ _ _ _ _ _ _ ⟨⟩
          exact keeps.claims _ rowMem
    | send rowMem reaches next =>
        have isClaimed := keeps.claims _ (keeps.unsentClaimed rowMem)
        refine ⟨⟨?_, ?_⟩, ⟨claimed, _, _, next, keeps_send guarded keeps rowMem reaches⟩,
          others (by simp) ?_⟩
        · simp only [EmailOutboxService.reaches, Bool.and_eq_true, decide_eq_true_eq] at reaches
          exact orderly.send isClaimed reaches.1.1.1.1.1 (keeps.fresh _ rowMem)
        · intro sending sendingMem
          simp only [handle, List.mem_cons] at sendingMem
          rcases sendingMem with rfl | isOld
          · exact keeps.watched _ rowMem reaches
          · exact sends sending isOld
        · rintro _ _ ⟨⟩
          exact isClaimed
    | settled next =>
        refine ⟨shared (by simp), ?_, others (by simp) (by simp)⟩
        refine ⟨claimed, unsent, none, next _, keeps.forward orderly _ given (fun _ => id)
          (fun row rowMem => keeps.held row rowMem) (by simp) (by simp) (by simp)⟩

end Crew

end StudentHub.Notifications
