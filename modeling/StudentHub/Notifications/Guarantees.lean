import StudentHub.Notifications.Leases

/-!
# What the passes guarantee

However the passes are interleaved, a message is sent at most as often as it may be tried, and
its end is recorded once. A pass that is still at the earlier rows of its batch when the lease
has run out sends the later ones even so: then a message is sent that another pass has in hand,
or has brought to its end.
-/

namespace StudentHub.Notifications

open Ecma JsString Concurrency Process TaskWorld

variable {service : EmailOutboxService} {outbox : Outbox}

abbrev outboxRun (service : EmailOutboxService) (events : List (TaskEvent OutboxTask Given)) :
    TaskWorld OutboxOp.Answer Failure Unit Outbox :=
  (TaskWorld.initial .initial).run handle (OutboxTask.program service) events

def sendsOf (outbox : Outbox) (id : JsString) : List Sending :=
  outbox.sends.filter fun sending => sending.id = id

theorem orderly_initial : Orderly service .initial :=
  ⟨.nil, nofun, .nil, nofun, .nil, fun _ => rfl⟩

def Watch.nothing : Watch := ⟨fun _ _ => True, fun _ _ => True⟩

theorem orderly_run (events : List (TaskEvent OutboxTask Given)) :
    Orderly service (outboxRun service events).state := by
  have guarded : Watch.nothing.Guarded service fun _ _ _ _ => True :=
    ⟨fun _ => trivial, fun _ _ => id, fun _ _ _ _ _ _ _ _ _ _ _ _ _ _ _ => id,
      fun _ _ _ _ _ _ _ _ _ _ _ _ _ _ => id⟩
  have initially : (passes service Watch.nothing).Global .initial := ⟨orderly_initial, nofun⟩
  exact ((Crew.holds_initial initially).run (passes_works guarded)
    (meetsThroughout_true _ events)).shared.1

theorem Orderly.length_sendsOf_le (orderly : Orderly service outbox) (id : JsString) :
    (sendsOf outbox id).length ≤ service.maxAttempts := by
  have differ : ((sendsOf outbox id).map Sending.attempt).Nodup := by
    rw [sendsOf, List.nodup_map_iff_inj_on]
    · intro first firstMem second secondMem sameAttempt
      simp only [List.mem_filter, decide_eq_true_eq] at firstMem secondMem
      apply List.inj_on_of_nodup_map orderly.sendsDiffer firstMem.1 secondMem.1
      rw [firstMem.2, secondMem.2, sameAttempt]
    · exact (List.Nodup.of_map _ orderly.sendsDiffer).filter _
  have bounds : (sendsOf outbox id).map Sending.attempt ⊆ List.range' 1 service.maxAttempts := by
    intro attempt attemptMem
    obtain ⟨sending, sendingMem, rfl⟩ := List.mem_map.mp attemptMem
    obtain ⟨isClaimed, most⟩ := orderly.sendsClaimed sending (List.mem_filter.mp sendingMem).1
    obtain ⟨least, -⟩ := orderly.claimsStored _ isClaimed
    rw [List.mem_range'_1]
    exact ⟨least, by omega⟩
  have fewer := (differ.subperm bounds).length_le
  rwa [List.length_map, List.length_range'] at fewer

theorem Orderly.isSent_iff (orderly : Orderly service outbox) (id : JsString) :
    (outbox.found id).map Prod.fst = some .sent ↔ (sentAttempts outbox id).length = 1 := by
  rw [orderly.sentOnce id]
  split <;> simp_all

theorem closed_run {id : JsString} {stored : EmailState × ℕ}
    {world : TaskWorld OutboxOp.Answer Failure Unit Outbox}
    (later : List (TaskEvent OutboxTask Given)) (isStored : world.state.found id = some stored)
    (isClosed : stored.1.isClosed = true) :
    (world.run handle (OutboxTask.program service) later).state.found id = some stored := by
  let fact (outbox : Outbox) : Prop := outbox.found id = some stored
  have preserved : ∀ me op given before, fact before → fact (handle me op given before).2 := by
    intro me op given before
    exact closed_handle me op given isClosed
  exact TaskWorld.lasts preserved later isStored

/-- No completion brings a message to its end that another living pass still has to send. -/
def ClosesNoUnsent (service : EmailOutboxService) :
    Condition OutboxOp.Answer Failure Unit Given Outbox := fun world me op given =>
  match op with
  | .complete id emailClass attempt outcome _ retryAt _ =>
      given.fate ≠ .refused → (world.state.completes? id emailClass attempt).isSome →
        (Outbox.stateOf outcome retryAt).isClosed →
          ∀ held ∈ world.state.unsent, held.1 ≠ me → (world.left? held.1).isSome →
            service.reaches held.2 → held.2.id ≠ id
  | _ => True

instance (world : TaskWorld OutboxOp.Answer Failure Unit Outbox) (me : ℕ) (given : Given) :
    (op : OutboxOp) → Decidable (ClosesNoUnsent service world me op given)
  | .complete id emailClass attempt outcome _ retryAt _ =>
      inferInstanceAs (Decidable (given.fate ≠ .refused →
        (world.state.completes? id emailClass attempt).isSome →
          (Outbox.stateOf outcome retryAt).isClosed →
            ∀ held ∈ world.state.unsent, held.1 ≠ me → (world.left? held.1).isSome →
              service.reaches held.2 → held.2.id ≠ id))
  | .now | .enqueue .. | .claim .. | .send .. | .settled _ => .isTrue trivial

def Watch.stillOpen : Watch where
  unsent _ found := ∃ stored, found = some stored ∧ stored.1.isClosed = false
  awaited _ _ := True

theorem stillOpen_guarded : Watch.stillOpen.Guarded service (ClosesNoUnsent service) := by
  refine ⟨fun attempt => ⟨_, rfl, rfl⟩, fun _ _ _ => trivial, ?_,
    fun _ _ _ _ _ _ _ _ _ _ _ _ _ _ => id⟩
  intro world me op given other row stored after permitted isOther living held reaches _ moved isOpen
  refine ⟨after, rfl, ?_⟩
  cases moved with
  | kept =>
      obtain ⟨_, ⟨⟩, isOpen⟩ := isOpen
      exact isOpen
  | claimed => rfl
  | completed isCompletion carriedOut completes =>
      subst isCompletion
      by_contra isClosed
      exact permitted carriedOut completes (by simpa using isClosed) _ held isOther living reaches rfl

/-- No claim takes a message that a living pass still has to send, or is sending. -/
def TakesNoUnsent (service : EmailOutboxService) :
    Condition OutboxOp.Answer Failure Unit Given Outbox := fun world me op given =>
  match op with
  | .claim limit now =>
      given.fate ≠ .refused → ∀ entry ∈ world.state.due limit now given.locked,
        (∀ held ∈ world.state.unsent, held.1 ≠ me → (world.left? held.1).isSome →
          service.reaches held.2 → held.2.id ≠ entry.1) ∧
        ∀ held ∈ world.state.inFlight, held.1 ≠ me → (world.left? held.1).isSome →
          held.2.id ≠ entry.1
  | _ => True

instance (world : TaskWorld OutboxOp.Answer Failure Unit Outbox) (me : ℕ) (given : Given) :
    (op : OutboxOp) → Decidable (TakesNoUnsent service world me op given)
  | .claim limit now =>
      inferInstanceAs (Decidable (given.fate ≠ .refused →
        ∀ entry ∈ world.state.due limit now given.locked,
          (∀ held ∈ world.state.unsent, held.1 ≠ me → (world.left? held.1).isSome →
            service.reaches held.2 → held.2.id ≠ entry.1) ∧
          ∀ held ∈ world.state.inFlight, held.1 ≠ me → (world.left? held.1).isSome →
            held.2.id ≠ entry.1))
  | .now | .enqueue .. | .complete .. | .send .. | .settled _ => .isTrue trivial

/-- The stored message is being sent under the attempt of the pass. -/
def Watch.own : Watch where
  unsent attempt found := found = some (.sending, attempt)
  awaited attempt found := found = some (.sending, attempt)

theorem own_guarded : Watch.own.Guarded service (TakesNoUnsent service) := by
  refine ⟨fun attempt => rfl, fun _ _ => id, ?_, ?_⟩
  · intro world me op given other row stored after permitted isOther living held reaches apart moved
      isOwn
    cases moved with
    | kept => exact isOwn
    | claimed isClaim carriedOut isDue =>
        subst isClaim
        obtain ⟨entry, entryMem, same⟩ := List.mem_map.mp isDue
        exact absurd same.symm
          ((permitted carriedOut entry entryMem).1 _ held isOther living reaches)
    | completed isCompletion =>
        rw [Option.some.inj isOwn] at isCompletion
        exact absurd isCompletion (apart _ _ _ _ _)
  · intro world me op given other row stored after permitted isOther living held apart moved isOwn
    cases moved with
    | kept => exact isOwn
    | claimed isClaim carriedOut isDue =>
        subst isClaim
        obtain ⟨entry, entryMem, same⟩ := List.mem_map.mp isDue
        exact absurd same.symm ((permitted carriedOut entry entryMem).2 _ held isOther living)
    | completed isCompletion =>
        rw [Option.some.inj isOwn] at isCompletion
        exact absurd isCompletion (apart _ _ _ _ _)

def Awaits (world : TaskWorld OutboxOp.Answer Failure Unit Outbox) (id : ℕ) (row : ClaimedEmail) :
    Prop :=
  ∃ rest, world.left? id = some (perform (.settled row) rest)

theorem Awaits.isOwn {world : TaskWorld OutboxOp.Answer Failure Unit Outbox} {id : ℕ}
    {row : ClaimedEmail} (awaits : Awaits world id row)
    (holds : (passes service Watch.own).Holds world) :
    world.state.found row.id = some (.sending, row.attempt) ∧
      ⟨id, row.id, row.attempt⟩ ∈ world.state.claims := by
  obtain ⟨rest, left⟩ := awaits
  obtain ⟨claimed, unsent, awaiting, serves, keeps⟩ := holds.each id _ left
  cases serves with
  | settled next =>
      exact ⟨keeps.awaited row rfl, keeps.claims row (keeps.awaitedClaimed row rfl)⟩

/-- However often a message is claimed: it is sent at most `maxAttempts` times, its end is final,
it is sent when one attempt says so, and an attempt has one row; and while no pass brings to an
end what another still has to send, it is not sent after its end. -/
theorem messages_end_once (service : EmailOutboxService) (events : List (TaskEvent OutboxTask Given))
    (meets : MeetsThroughout handle (OutboxTask.program service) (ClosesNoUnsent service)
      (TaskWorld.initial .initial) events) :
    (∀ id, (sendsOf (outboxRun service events).state id).length ≤ service.maxAttempts) ∧
    (∀ id stored, (outboxRun service events).state.found id = some stored →
      stored.1.isClosed = true → ∀ later,
        (outboxRun service (events ++ later)).state.found id = some stored) ∧
    (∀ id, ((outboxRun service events).state.found id).map Prod.fst = some .sent ↔
      (sentAttempts (outboxRun service events).state id).length = 1) ∧
    ((outboxRun service events).state.attempts.map fun entry =>
      (entry.messageId, entry.attemptNumber)).Nodup ∧
    ∀ sending ∈ (outboxRun service events).state.sends,
      ∃ stored, sending.found = some stored ∧ stored.1.isClosed = false := by
  have orderly : Orderly service (outboxRun service events).state := orderly_run events
  refine ⟨orderly.length_sendsOf_le, ?_, orderly.isSent_iff, orderly.attemptsDiffer, ?_⟩
  · intro id stored isStored isClosed later
    rw [outboxRun, TaskWorld.run, List.foldl_append]
    exact closed_run later isStored isClosed
  · have initially : (passes service Watch.stillOpen).Global .initial :=
      ⟨orderly_initial, by simp [Outbox.initial]⟩
    exact ((Crew.holds_initial initially).run (passes_works stillOpen_guarded) meets).shared.2

/-- While no pass claims what another still has to send or is sending: whenever a message is
sent, it is being sent under the attempt of the pass, and no two passes send one message. -/
theorem messages_sent_under_lease (service : EmailOutboxService)
    (events : List (TaskEvent OutboxTask Given))
    (meets : MeetsThroughout handle (OutboxTask.program service) (TakesNoUnsent service)
      (TaskWorld.initial .initial) events) :
    (∀ sending ∈ (outboxRun service events).state.sends,
      sending.found = some (.sending, sending.attempt)) ∧
    ∀ first second row other, Awaits (outboxRun service events) first row →
      Awaits (outboxRun service events) second other → row.id = other.id → first = second := by
  have initially : (passes service Watch.own).Global .initial := ⟨orderly_initial, nofun⟩
  have holds := (Crew.holds_initial initially).run (passes_works own_guarded) meets
  refine ⟨holds.shared.2, ?_⟩
  intro first second row other awaitsRow awaitsOther sameId
  obtain ⟨isRow, rowClaimed⟩ := awaitsRow.isOwn holds
  obtain ⟨isOther, otherClaimed⟩ := awaitsOther.isOwn holds
  rw [sameId, isOther, Option.some.injEq, Prod.mk.injEq] at isRow
  exact congrArg Claim.pass
    (holds.shared.1.sameClaim rowClaimed otherClaimed sameId isRow.2.symm)

/-! Two messages, and a pass whose first send takes longer than the lease. -/

def sendingService : EmailOutboxService := ⟨true, true, 5⟩

def plainGiven (clock : ℤ) (uuid : JsString) : Given where
  clock
  fate := .done
  uuid
  databaseNow := 0
  locked _ := false
  rank _ := 0
  preference _ _ := none
  email _ := some (js "e")
  answer := .resolved .ok

def enqueueNotice (key : JsString) : OutboxTask :=
  .enqueue .accountNotice (js "p")
    (.object [(js "heading", .string (js "h")), (js "message", .string (js "m"))]) key

/-- Two messages are enqueued by the tasks 0 and 1, and claimed by the task 2, which sends the
first. -/
def firstSend : List (TaskEvent OutboxTask Given) :=
  [.start (enqueueNotice (js "k")), .start (enqueueNotice (js "l")), .start (.pass 25),
    .step 0 (plainGiven 0 (js "a")), .step 1 (plainGiven 0 (js "b"))] ++
    List.replicate 3 (.step 2 (plainGiven 1 []))

/-- After the lease the task 3 claims both messages and sends the first. -/
def secondSend : List (TaskEvent OutboxTask Given) :=
  firstSend ++ .start (.pass 25) :: List.replicate 3 (.step 3 (plainGiven 900002 []))

def staleSend : List (TaskEvent OutboxTask Given) :=
  secondSend ++ List.replicate 5 (.step 3 (plainGiven 900002 [])) ++
    List.replicate 3 (.step 2 (plainGiven 900003 []))

/-- The task 2 is through with its batch within the lease; another pass finds nothing. -/
def timelySends : List (TaskEvent OutboxTask Given) :=
  firstSend ++ List.replicate 5 (.step 2 (plainGiven 2 [])) ++
    .start (.pass 25) :: List.replicate 2 (.step 3 (plainGiven 900002 []))

theorem messages_end_once_timely :
    ((outboxRun sendingService timelySends).state.found (js "b")) = some (.sent, 1) ∧
      (sentAttempts (outboxRun sendingService timelySends).state (js "b")).length = 1 ∧
      (sendsOf (outboxRun sendingService timelySends).state (js "b")).length ≤ 5 := by
  have holds := messages_end_once sendingService timelySends (by decide +kernel)
  have isSent : ((outboxRun sendingService timelySends).state.found (js "b")) = some (.sent, 1) := by
    decide +kernel
  exact ⟨isSent, (holds.2.2.1 (js "b")).mp (by rw [isSent]; rfl), holds.1 (js "b")⟩

/-- The second message is sent again after the other pass has sent it. -/
theorem messages_sent_after_end :
    ¬ (∀ (service : EmailOutboxService) (events : List (TaskEvent OutboxTask Given)),
      ∀ sending ∈ (outboxRun service events).state.sends,
        ∃ stored, sending.found = some stored ∧ stored.1.isClosed = false) ∧
    (outboxRun sendingService staleSend).state.sends.map
        (fun sending => (sending.pass, sending.id, sending.found)) =
      [(2, js "b", some (.sent, 2)), (3, js "b", some (.sending, 2)),
        (3, js "a", some (.sending, 2)), (2, js "a", some (.sending, 1))] := by
  refine ⟨?_, by decide +kernel⟩
  intro always
  have isSent : ⟨2, js "b", 1, some (.sent, 2)⟩ ∈
      (outboxRun sendingService staleSend).state.sends := by decide +kernel
  obtain ⟨stored, ⟨⟩, isOpen⟩ := always sendingService staleSend _ isSent
  exact absurd isOpen (by decide)

theorem messages_sent_under_lease_timely :
    (outboxRun sendingService timelySends).state.sends ≠ [] ∧
      ∀ sending ∈ (outboxRun sendingService timelySends).state.sends,
        sending.found = some (.sending, sending.attempt) :=
  ⟨by decide +kernel, (messages_sent_under_lease sendingService timelySends (by decide +kernel)).1⟩

/-- Both passes send the first message at once, and the second one is sent after its end. -/
theorem messages_sent_beside_lease :
    ¬ (∀ (service : EmailOutboxService) (events : List (TaskEvent OutboxTask Given)),
      ∀ sending ∈ (outboxRun service events).state.sends,
        sending.found = some (.sending, sending.attempt)) ∧
    (outboxRun sendingService secondSend).state.inFlight.map
        (fun entry => (entry.1, entry.2.id)) = [(3, js "a"), (2, js "a")] ∧
    ((outboxRun sendingService secondSend).left? 2).isSome = true := by
  refine ⟨?_, by decide +kernel, by decide +kernel⟩
  intro always
  have isSent : ⟨2, js "b", 1, some (.sent, 2)⟩ ∈
      (outboxRun sendingService staleSend).state.sends := by decide +kernel
  exact absurd (always sendingService staleSend _ isSent) (by decide)

end StudentHub.Notifications
