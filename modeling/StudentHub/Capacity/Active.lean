import StudentHub.Capacity.Steps

/-!
# Active reservations

Only an admitted task becomes active. Everything else a call does leaves the active
reservations as they are or takes some out, with their resources unchanged. So an
invariant of the active reservations has to be checked for the loss of some and for
the admission of one.
-/

namespace StudentHub.Capacity

open Ecma JsString

def Shrinks (before after : Ledger) : Prop :=
  ∀ id reservation, after.reservations.get? id = some reservation →
    reservation.status.isActive = true →
    ∃ earlier, before.reservations.get? id = some earlier ∧ earlier.status.isActive = true ∧
      earlier.toBinding = reservation.toBinding ∧
      earlier.overlapKeys = reservation.overlapKeys ∧
      earlier.estimatedCostMicros = reservation.estimatedCostMicros

/-- One reservation with another status, the rest of it that matters being the same. -/
def SameTask (before after : Reservation) : Prop :=
  (after.status.isActive = true → before.status.isActive = true) ∧
    before.toBinding = after.toBinding ∧ before.overlapKeys = after.overlapKeys ∧
    before.estimatedCostMicros = after.estimatedCostMicros

theorem Shrinks.of_same {before after : Ledger}
    (same : after.reservations = before.reservations) : Shrinks before after := by
  intro id reservation found active
  rw [same] at found
  exact ⟨reservation, found, active, rfl, rfl, rfl⟩

theorem Shrinks.mapValues {before after : Ledger} {change : Reservation → Reservation}
    (changed : after.reservations = before.reservations.mapValues change)
    (same : ∀ reservation, SameTask reservation (change reservation)) : Shrinks before after := by
  intro id reservation found active
  rw [changed, OrderedMap.get?_mapValues, Option.map_eq_some_iff] at found
  rcases found with ⟨earlier, found, rfl⟩
  rcases same earlier with ⟨stillActive, binding, overlap, cost⟩
  exact ⟨earlier, found, stillActive active, binding, overlap, cost⟩

theorem sameTask_expireReservation (now : ClockReading) (reservation : Reservation) :
    SameTask reservation (expireReservation now reservation) := by
  rw [expireReservation]
  split_ifs with expired
  · refine ⟨?_, rfl, rfl, rfl⟩
    intro active
    exact absurd (show CapacityStatus.expired.isActive = true from active) (by decide)
  · exact ⟨id, rfl, rfl, rfl⟩

theorem shrinks_expireReservations (state : Ledger) (now : ClockReading) :
    Shrinks state (expireReservations state now) :=
  .mapValues rfl (sameTask_expireReservation now)

theorem shrinks_parsed (state : Ledger) : Shrinks state state.parsed := by
  have parsed : state.parsed.reservations = state.reservations.mapValues Reservation.parsed := rfl
  apply Shrinks.mapValues parsed
  intro reservation
  exact ⟨id, rfl, rfl, rfl⟩

theorem isActive_of_unsettled {before after : CapacityStatus}
    (unsettled : isSettled (some before) after = false) (active : after.isActive = true) :
    before.isActive = true := by
  by_contra inactive
  simp only [isSettled, Option.any_some, CapacityStatus.isTerminal_eq, Bool.and_eq_false_iff,
    Bool.not_eq_false', decide_eq_false_iff_not, ne_eq, not_not, Option.some.injEq] at unsettled
  rcases unsettled with stillActive | same
  · exact inactive stillActive
  · exact inactive (same ▸ active)

theorem sameTask_moved {current : Reservation} {status : CapacityStatus} {actualCost : SafeNat}
    {options : TransitionOptions} {updatedAt : Instant}
    (unsettled : isSettled (some current.status) status = false) :
    SameTask current (moved current status actualCost options updatedAt) :=
  ⟨isActive_of_unsettled unsettled, rfl, rfl, rfl⟩

theorem shrinks_set {state after : Ledger} {taskId : JsString} {current next : Reservation}
    (found : state.reservations.get? taskId = some current)
    (written : after.reservations = state.reservations.set taskId next)
    (same : SameTask current next) : Shrinks state after := by
  intro id reservation reservationFound active
  rw [written, OrderedMap.get?_set] at reservationFound
  split_ifs at reservationFound with here
  · cases Option.some.inj reservationFound
    rcases same with ⟨stillActive, binding, overlap, cost⟩
    exact ⟨current, here ▸ found, stillActive active, binding, overlap, cost⟩
  · exact ⟨reservation, reservationFound, active, rfl, rfl, rfl⟩

structure Admits (policy : CapacityPolicy) (heritage : Heritage) (value : JsValue) (task : Task)
    (before after : Ledger) : Prop where
  valid : taskValidation heritage policy value = .ok task
  new : before.reservations.get? task.taskId.text = none
  clear : capacityHold heritage policy task before = none
  spent : after.spentMicros = before.spentMicros
  written : ∃ acceptedAt reservationExpiresAt, after.reservations =
    before.reservations.set task.taskId.text
      (reservationOf task acceptedAt reservationExpiresAt)

theorem get?_of_lookUp_none {heritage : Heritage}
    {reservations : OrderedMap JsString Reservation} {key : JsString}
    (none : lookUp heritage reservations key = none) : reservations.get? key = .none := by
  rw [lookUp] at none
  split at none
  · contradiction
  · assumption

theorem Works.keeps {dates : DateParser} {policy : CapacityPolicy} {around : Surroundings}
    {start state : Ledger} {call : Call} {invariant : Ledger → Prop}
    (shrinks : ∀ before after, Shrinks before after → invariant before → invariant after)
    (admits : ∀ tasks value task before after, call = .reserveMany (.array tasks) →
      value ∈ tasks → Admits policy around.heritage value task before after → invariant before →
      invariant after)
    (holds : invariant start) (worked : Works dates policy around start call state) :
    invariant state := by
  induction worked with
  | kept => exact holds
  | @pausesLeft _ before earlier pauses left ih =>
    exact shrinks before _ (.of_same rfl) (ih admits)
  | reserved earlier given valid new clear ih =>
    exact admits _ _ _ _ _ rfl given ⟨valid, get?_of_lookUp_none new, clear, rfl, _, _, rfl⟩
      (ih admits)
  | moved isCost isStatus found unsettled =>
    exact shrinks _ _ (shrinks_set found rfl (sameTask_moved unsettled)) holds
  | movedInherited isCost isStatus found => exact shrinks start _ (.of_same rfl) holds
  | paused untilChecked isKey => exact shrinks start _ (.of_same rfl) holds

theorem run_active_invariant {engine : Engine} {policy : CapacityPolicy}
    {condition : Call × Surroundings → Prop} {invariant : Ledger → Prop}
    (shrinks : ∀ before after, Shrinks before after → invariant before → invariant after)
    (admits : ∀ tasks around value task before after,
      condition (.reserveMany (.array tasks), around) → value ∈ tasks →
      Admits policy around.heritage value task before after → invariant before → invariant after)
    (empty : invariant .empty) {events : List (Call × Surroundings)}
    (meets : ∀ event ∈ events, condition event) :
    invariant (Ledger.empty.run engine policy events) := by
  have meetsAll : ∀ file events, (∀ event ∈ events, condition event) →
      Meets engine policy (fun _ event => condition event) file events := by
    intro file events
    induction events generalizing file with
    | nil => exact fun _ => trivial
    | cons event later ih =>
      intro all
      rw [List.forall_mem_cons] at all
      exact ⟨all.1, ih _ all.2⟩
  apply run_invariant (fun state now => shrinks _ _ (shrinks_expireReservations state now))
    (fun state => shrinks _ _ (shrinks_parsed state)) _ empty events (meetsAll _ _ meets)
  intro file call around start state meetsCall isStart holds worked
  apply worked.keeps shrinks _ holds
  intro tasks value task before after isReserve given admitted held
  subst isReserve
  exact admits tasks around value task before after meetsCall given admitted held

def activeWith (state : Ledger) (select : Binding → Bool) : ℕ :=
  state.reservations.tally fun reservation =>
    if reservation.status.isActive && select reservation.toBinding then 1 else 0

theorem length_filter_eq_sum {Item : Type} (items : List Item) (select : Item → Bool) :
    (items.filter select).length = (items.map fun item => if select item then 1 else 0).sum := by
  induction items with
  | nil => rfl
  | cons item rest ih =>
    rw [List.map_cons, List.sum_cons, List.filter_cons, ← ih]
    split_ifs
    · rw [List.length_cons, Nat.add_comm]
    · rw [Nat.zero_add]

theorem activeWith_eq_length (state : Ledger) (select : Binding → Bool) :
    activeWith state select =
      ((activeReservations state).filter fun reservation =>
        select reservation.toBinding).length := by
  rw [activeReservations, List.filter_filter, length_filter_eq_sum, activeWith, OrderedMap.tally]
  apply List.Perm.sum_eq
  simp only [Bool.and_comm]
  exact (state.reservations.ownValues_perm.map _).symm

theorem Shrinks.activeWith_le {before after : Ledger} (shrinks : Shrinks before after)
    (select : Binding → Bool) : activeWith after select ≤ activeWith before select := by
  apply OrderedMap.tally_le_of_get?
  intro id reservation found
  split_ifs with counts
  · rw [Bool.and_eq_true] at counts
    rcases shrinks id reservation found counts.1 with ⟨earlier, earlierFound, active, binding, -⟩
    simp [earlierFound, active, binding, counts.2]
  · exact Nat.zero_le _

theorem Admits.activeWith_eq {policy : CapacityPolicy} {heritage : Heritage} {value : JsValue}
    {task : Task} {before after : Ledger} (admits : Admits policy heritage value task before after)
    (select : Binding → Bool) :
    activeWith after select =
      activeWith before select + if select task.toBinding then 1 else 0 := by
  rcases admits.written with ⟨acceptedAt, reservationExpiresAt, written⟩
  rw [activeWith, written, OrderedMap.tally_set_new admits.new]
  rfl

structure Clear (heritage : Heritage) (policy : CapacityPolicy) (task : Task) (state : Ledger) :
    Prop where
  writers : ∀ reservation ∈ activeReservations state,
    writersCollide task.toBinding reservation.toBinding = false
  worktrees : ∀ reservation ∈ activeReservations state, reservation.worktree ≠ task.worktree
  overlaps : ∀ reservation ∈ activeReservations state, ∀ key ∈ task.overlapKeys,
    key ∉ reservation.overlapKeys
  all : activeWith state (fun _ => true) < policy.globalLimit
  reserve : task.isWriter = true →
    activeWith state Binding.isWriter < policy.globalLimit - policy.reviewReserve
  host : limitReached heritage policy.hosts task.host.text
    (activeWith state fun binding => binding.host = task.host) = false
  account : limitReached heritage policy.accounts task.account.text
    (activeWith state fun binding => binding.account = task.account) = false
  runtime : statesLimit heritage policy.runtimes task.runtime.text = true →
    limitReached heritage policy.runtimes task.runtime.text
      (activeWith state fun binding => binding.runtime = task.runtime) = false
  budget : numberSum (numberSum state.spentMicros
      (((activeReservations state).map fun reservation =>
        reservation.estimatedCostMicros.value).foldl numberSum 0))
      task.estimatedCostMicros.value ≤ policy.budgetMicros.value

theorem holdIf_eq_none {refused : Bool} {held : Decision} :
    holdIf refused held = none ↔ refused = false := by
  cases refused <;> simp [holdIf]

theorem clear_of_capacityHold {heritage : Heritage} {policy : CapacityPolicy} {task : Task}
    {state : Ledger} (none : capacityHold heritage policy task state = none) :
    Clear heritage policy task state := by
  simp only [capacityHold, Option.or_eq_none_iff, Option.map_eq_none_iff, List.find?_eq_none,
    holdIf_eq_none, decide_eq_false_iff_not, Bool.and_eq_false_iff, decide_eq_true_eq,
    List.any_eq_true, not_exists, not_and, not_le, not_lt, Bool.not_eq_true] at none
  rcases none with ⟨writers, worktrees, overlaps, all, reserve, host, account, runtime, budget⟩
  refine ⟨writers, worktrees, overlaps, ?_, ?_, ?_, ?_, ?_, budget⟩
  · rw [activeWith_eq_length, List.filter_true]
    exact all
  · intro isWriter
    rw [activeWith_eq_length]
    rcases reserve with notWriter | room
    · rw [isWriter] at notWriter
      contradiction
    · exact room
  · rwa [activeWith_eq_length]
  · rwa [activeWith_eq_length]
  · intro stated
    rw [activeWith_eq_length]
    rcases runtime with notStated | free
    · rw [stated] at notStated
      contradiction
    · exact free

end StudentHub.Capacity
