import StudentHub.Capacity.Limits

/-!
# Money

What is spent is what the terminal reservations have cost, and together with the
estimates of the active ones it stays within the budget.
-/

/-!
## Exclusive resources

No two active reservations share a worktree or an overlap key, and no two of them
write one branch. A reservation keeps the resources it was made with, and once it is
terminal it keeps its status.
-/

namespace StudentHub.Capacity

open Ecma JsString

structure Apart (left right : Reservation) : Prop where
  worktrees : left.worktree ≠ right.worktree
  overlaps : ∀ key ∈ left.overlapKeys, key ∉ right.overlapKeys
  writers : left.role ∈ WRITER_ROLES → right.role ∈ WRITER_ROLES → left.repo = right.repo →
    left.branch ≠ right.branch

theorem Apart.symm {left right : Reservation} (apart : Apart left right) : Apart right left where
  worktrees same := apart.worktrees same.symm
  overlaps key inRight inLeft := apart.overlaps key inLeft inRight
  writers isRight isLeft sameRepo sameBranch :=
    apart.writers isLeft isRight sameRepo.symm sameBranch.symm

/-- Any two active reservations are apart. -/
def Exclusive (file : Ledger) : Prop :=
  ∀ id other left right, id ≠ other →
    file.reservations.get? id = some left → left.status.isActive = true →
    file.reservations.get? other = some right → right.status.isActive = true → Apart left right

theorem Apart.of_same {left right earlierLeft earlierRight : Reservation}
    (leftBinding : earlierLeft.toBinding = left.toBinding)
    (leftOverlap : earlierLeft.overlapKeys = left.overlapKeys)
    (rightBinding : earlierRight.toBinding = right.toBinding)
    (rightOverlap : earlierRight.overlapKeys = right.overlapKeys)
    (apart : Apart earlierLeft earlierRight) : Apart left right := by
  rcases apart with ⟨worktrees, overlaps, writers⟩
  rw [leftBinding, rightBinding] at worktrees writers
  rw [leftOverlap, rightOverlap] at overlaps
  exact ⟨worktrees, overlaps, writers⟩

theorem Exclusive.shrinks {before after : Ledger} (shrinks : Shrinks before after)
    (exclusive : Exclusive before) : Exclusive after := by
  intro id other left right different leftFound leftActive rightFound rightActive
  rcases shrinks id left leftFound leftActive with
    ⟨earlierLeft, leftBefore, leftWas, leftBinding, leftOverlap, -⟩
  rcases shrinks other right rightFound rightActive with
    ⟨earlierRight, rightBefore, rightWas, rightBinding, rightOverlap, -⟩
  exact .of_same leftBinding leftOverlap rightBinding rightOverlap
    (exclusive id other _ _ different leftBefore leftWas rightBefore rightWas)

theorem Clear.apart {heritage : Heritage} {policy : CapacityPolicy} {task : Task} {state : Ledger}
    (clear : Clear heritage policy task state) {reservation : Reservation}
    (active : reservation ∈ activeReservations state) (acceptedAt expiresAt : Instant) :
    Apart (reservationOf task acceptedAt expiresAt) reservation where
  worktrees same := clear.worktrees reservation active same.symm
  overlaps := clear.overlaps reservation active
  writers isLeft isRight sameRepo sameBranch := by
    have collide : writersCollide task.toBinding reservation.toBinding = true := by
      simp only [writersCollide, Binding.isWriter, Bool.and_eq_true, decide_eq_true_eq]
      exact ⟨⟨⟨isLeft, isRight⟩, sameRepo⟩, sameBranch⟩
    rw [clear.writers reservation active] at collide
    contradiction

theorem mem_activeReservations {state : Ledger} {reservation : Reservation} :
    reservation ∈ activeReservations state ↔
      (∃ id, state.reservations.get? id = some reservation) ∧
        reservation.status.isActive = true := by
  rw [activeReservations, List.mem_filter, OrderedMap.mem_ownValues]

theorem Exclusive.admits {policy : CapacityPolicy} {heritage : Heritage} {value : JsValue}
    {task : Task} {before after : Ledger} (admits : Admits policy heritage value task before after)
    (exclusive : Exclusive before) : Exclusive after := by
  have clear := clear_of_capacityHold admits.clear
  rcases admits.written with ⟨acceptedAt, expiresAt, written⟩
  have newApart : ∀ id reservation, before.reservations.get? id = some reservation →
      reservation.status.isActive = true →
      Apart (reservationOf task acceptedAt expiresAt) reservation := by
    intro id reservation found active
    exact clear.apart (mem_activeReservations.mpr ⟨⟨id, found⟩, active⟩) acceptedAt expiresAt
  intro id other left right different leftFound leftActive rightFound rightActive
  rw [written, OrderedMap.get?_set] at leftFound rightFound
  by_cases leftNew : id = task.taskId.text
  · have rightOld : other ≠ task.taskId.text := fun same => different (leftNew.trans same.symm)
    rw [if_pos leftNew] at leftFound
    rw [if_neg rightOld] at rightFound
    cases Option.some.inj leftFound
    exact newApart other right rightFound rightActive
  · rw [if_neg leftNew] at leftFound
    by_cases rightNew : other = task.taskId.text
    · rw [if_pos rightNew] at rightFound
      cases Option.some.inj rightFound
      exact (newApart id left leftFound leftActive).symm
    · rw [if_neg rightNew] at rightFound
      exact exclusive id other left right different leftFound leftActive rightFound rightActive

/-- A reservation with the resources of an earlier one, and if that was terminal with its
status and its cost. -/
def Keeps (earlier later : Reservation) : Prop :=
  later.toBinding = earlier.toBinding ∧
    (earlier.status.isTerminal = true →
      later.status = earlier.status ∧ later.actualCostMicros = earlier.actualCostMicros)

theorem Keeps.refl (reservation : Reservation) : Keeps reservation reservation :=
  ⟨rfl, fun _ => ⟨rfl, rfl⟩⟩

theorem Keeps.trans {first second third : Reservation} (early : Keeps first second)
    (late : Keeps second third) : Keeps first third := by
  refine ⟨late.1.trans early.1, ?_⟩
  intro terminal
  rcases early.2 terminal with ⟨sameStatus, sameCost⟩
  rcases late.2 (sameStatus ▸ terminal) with ⟨lateStatus, lateCost⟩
  exact ⟨lateStatus.trans sameStatus, lateCost.trans sameCost⟩

def Continues (before after : Ledger) : Prop :=
  ∀ id reservation, before.reservations.get? id = some reservation →
    ∃ later, after.reservations.get? id = some later ∧ Keeps reservation later

theorem Continues.of_same {before after : Ledger}
    (same : after.reservations = before.reservations) : Continues before after := by
  intro id reservation found
  exact ⟨reservation, same ▸ found, .refl _⟩

theorem Continues.trans {first second third : Ledger} (early : Continues first second)
    (late : Continues second third) : Continues first third := by
  intro id reservation found
  rcases early id reservation found with ⟨middle, middleFound, keptEarly⟩
  rcases late id middle middleFound with ⟨last, lastFound, keptLate⟩
  exact ⟨last, lastFound, keptEarly.trans keptLate⟩

theorem Continues.mapValues {before after : Ledger} {change : Reservation → Reservation}
    (changed : after.reservations = before.reservations.mapValues change)
    (keeps : ∀ reservation, Keeps reservation (change reservation)) : Continues before after := by
  intro id reservation found
  refine ⟨change reservation, ?_, keeps reservation⟩
  rw [changed, OrderedMap.get?_mapValues, found]
  rfl

theorem Continues.set {before after : Ledger} {taskId : JsString} {next : Reservation}
    (written : after.reservations = before.reservations.set taskId next)
    (keeps : ∀ current, before.reservations.get? taskId = some current → Keeps current next) :
    Continues before after := by
  intro id reservation found
  by_cases here : id = taskId
  · refine ⟨next, ?_, keeps reservation (here ▸ found)⟩
    rw [written, OrderedMap.get?_set, if_pos here]
  · refine ⟨reservation, ?_, .refl _⟩
    rw [written, OrderedMap.get?_set, if_neg here]
    exact found

theorem continues_expireReservations (state : Ledger) (now : ClockReading) :
    Continues state (expireReservations state now) := by
  have expired : (expireReservations state now).reservations =
      state.reservations.mapValues (expireReservation now) := rfl
  apply Continues.mapValues expired
  intro reservation
  rw [expireReservation]
  split_ifs with isOver
  · refine ⟨rfl, ?_⟩
    intro terminal
    rw [isOver.1] at terminal
    contradiction
  · exact .refl _

theorem continues_parsed (state : Ledger) : Continues state state.parsed := by
  have parsed : state.parsed.reservations = state.reservations.mapValues Reservation.parsed := rfl
  apply Continues.mapValues parsed
  intro reservation
  exact ⟨rfl, fun _ => ⟨rfl, rfl⟩⟩

theorem eq_of_unsettled {before after : CapacityStatus}
    (unsettled : isSettled (some before) after = false) (terminal : before.isTerminal = true) :
    after = before := by
  simp only [isSettled, Option.any_some, terminal, Bool.true_and, decide_eq_false_iff_not,
    ne_eq, not_not, Option.some.injEq] at unsettled
  exact unsettled.symm

theorem Works.continues {dates : DateParser} {policy : CapacityPolicy} {around : Surroundings}
    {start state : Ledger} {call : Call} (worked : Works dates policy around start call state) :
    Continues start state := by
  induction worked with
  | kept => exact .of_same rfl
  | pausesLeft earlier pauses left ih => exact ih.trans (.of_same rfl)
  | reserved earlier given valid new clear ih =>
    apply ih.trans
    apply Continues.set rfl
    intro current found
    rw [get?_of_lookUp_none new] at found
    contradiction
  | moved isCost isStatus found unsettled =>
    apply Continues.set rfl
    intro current currentFound
    cases Option.some.inj (found.symm.trans currentFound)
    refine ⟨rfl, ?_⟩
    intro terminal
    refine ⟨eq_of_unsettled unsettled terminal, ?_⟩
    simp only [Capacity.moved, terminal, Bool.not_true, Bool.false_and, Bool.false_eq_true,
      if_false]
  | movedInherited isCost isStatus found => exact .of_same rfl
  | paused untilChecked isKey => exact .of_same rfl

theorem run_continues (engine : Engine) (policy : CapacityPolicy) (file : Ledger)
    (events : List (Call × Surroundings)) : Continues file (file.run engine policy events) := by
  apply run_invariant (fun state now continues =>
    continues.trans (continues_expireReservations state now))
    (fun state continues => continues.trans (continues_parsed state)) _ (.of_same rfl) events
    (meets_of_forall (fun _ _ => trivial) file events)
  intro file call around start state _ _ continues worked
  exact continues.trans worked.continues

/-- In every run from an empty ledger the active reservations are apart, and whatever follows,
each reservation keeps its resources, and once it is terminal its status. -/
theorem run_exclusive (engine : Engine) (policy : CapacityPolicy)
    (events later : List (Call × Surroundings)) :
    Exclusive (Ledger.empty.run engine policy events) ∧
      Continues (Ledger.empty.run engine policy events)
        (Ledger.empty.run engine policy (events ++ later)) := by
  refine ⟨?_, ?_⟩
  · apply run_active_invariant (fun before after shrinks => Exclusive.shrinks shrinks) _ _
      (fun _ _ => trivial : ∀ event ∈ events, True)
    · intro tasks around value task before after _ _ admits exclusive
      exact exclusive.admits admits
    · intro id other left right _ leftFound
      contradiction
  · rw [Ledger.run, Ledger.run, List.foldl_append]
    exact run_continues engine policy _ later

end StudentHub.Capacity

namespace StudentHub.Capacity

open Ecma JsString

def Reservation.charge (reservation : Reservation) : ℕ :=
  if reservation.status.isTerminal then
    (reservation.actualCostMicros.map SafeNat.value).getD 0
  else
    0

def Reservation.commitment (reservation : Reservation) : ℕ :=
  if reservation.status.isActive then reservation.estimatedCostMicros.value else 0

def Ledger.charges (file : Ledger) : ℕ := file.reservations.tally Reservation.charge

def Ledger.committed (file : Ledger) : ℕ := file.reservations.tally Reservation.commitment

structure Balanced (file : Ledger) : Prop where
  spent : file.spentMicros = file.charges
  unended : ∀ id reservation, file.reservations.get? id = some reservation →
    reservation.status.isActive = true → reservation.actualCostMicros = none

def Solvent (policy : CapacityPolicy) (file : Ledger) : Prop :=
  file.spentMicros + file.committed ≤ policy.budgetMicros.value

theorem numberSum_of_le {left right : ℕ} (safe : left + right ≤ MAX_SAFE_INTEGER) :
    numberSum left right = left + right := by
  apply roundToDouble_of_lt
  simp only [MAX_SAFE_INTEGER] at safe
  omega

section Kept

variable {policy : CapacityPolicy} {before after : Ledger} {change : Reservation → Reservation}

theorem Balanced.mapValues (changed : after.reservations = before.reservations.mapValues change)
    (spent : after.spentMicros = before.spentMicros)
    (same : ∀ reservation, (reservation.status.isActive = true →
        reservation.actualCostMicros = none) →
      (change reservation).charge = reservation.charge ∧
        ((change reservation).status.isActive = true →
          (change reservation).actualCostMicros = none))
    (balanced : Balanced before) : Balanced after where
  spent := by
    rw [spent, balanced.spent, Ledger.charges, Ledger.charges, changed, OrderedMap.tally_mapValues]
    apply OrderedMap.tally_congr
    intro id reservation found
    exact (same reservation (balanced.unended id reservation found)).1.symm
  unended := by
    intro id reservation found
    rw [changed, OrderedMap.get?_mapValues, Option.map_eq_some_iff] at found
    rcases found with ⟨earlier, found, rfl⟩
    exact (same earlier (balanced.unended id earlier found)).2

theorem Balanced.expireReservations (balanced : Balanced before) (now : ClockReading) :
    Balanced (expireReservations before now) := by
  have expired : (Capacity.expireReservations before now).reservations =
      before.reservations.mapValues (expireReservation now) := rfl
  apply balanced.mapValues expired rfl
  intro reservation unended
  rw [expireReservation]
  split_ifs with isOver
  · have uncharged : reservation.actualCostMicros = none := by
      apply unended
      rw [isOver.1]
      rfl
    refine ⟨?_, fun _ => uncharged⟩
    simp only [Reservation.charge, isOver.1, uncharged]
    rfl
  · exact ⟨rfl, unended⟩

theorem Balanced.parsed (balanced : Balanced before) : Balanced before.parsed := by
  have parsed : before.parsed.reservations = before.reservations.mapValues Reservation.parsed := rfl
  apply balanced.mapValues parsed rfl
  intro reservation unended
  exact ⟨rfl, unended⟩

theorem Shrinks.committed_le (shrinks : Shrinks before after) :
    after.committed ≤ before.committed := by
  apply OrderedMap.tally_le_of_get?
  intro id reservation found
  rw [Reservation.commitment]
  split_ifs with active
  · rcases shrinks id reservation found active with ⟨earlier, earlierFound, wasActive, -, -, cost⟩
    simp [earlierFound, Reservation.commitment, wasActive, cost]
  · exact Nat.zero_le _

theorem Solvent.shrinks (shrinks : Shrinks before after)
    (spent : after.spentMicros = before.spentMicros) (solvent : Solvent policy before) :
    Solvent policy after := by
  have less := shrinks.committed_le
  rw [Solvent, spent]
  exact (Nat.add_le_add_left less _).trans solvent

end Kept

theorem sum_commitments (state : Ledger) :
    ((activeReservations state).map fun reservation =>
      reservation.estimatedCostMicros.value).sum = state.committed := by
  have filtered : ∀ items : List Reservation,
      ((items.filter fun reservation => reservation.status.isActive).map fun reservation =>
        reservation.estimatedCostMicros.value).sum = (items.map Reservation.commitment).sum := by
    intro items
    induction items with
    | nil => rfl
    | cons item rest ih =>
      rw [List.filter_cons, List.map_cons, List.sum_cons, Reservation.commitment, ← ih]
      split_ifs
      · rw [List.map_cons, List.sum_cons]
      · rw [Nat.zero_add]
  rw [activeReservations, filtered, Ledger.committed, OrderedMap.tally]
  exact (state.reservations.ownValues_perm.map _).sum_eq

section Reserved

variable {policy : CapacityPolicy} {heritage : Heritage} {value : JsValue} {task : Task}
  {before after : Ledger}

theorem Balanced.admits (admits : Admits policy heritage value task before after)
    (balanced : Balanced before) : Balanced after := by
  rcases admits.written with ⟨acceptedAt, reservationExpiresAt, written⟩
  refine ⟨?_, ?_⟩
  · rw [admits.spent, balanced.spent, Ledger.charges, Ledger.charges, written,
      OrderedMap.tally_set_new admits.new]
    rfl
  · intro id reservation found active
    rw [written, OrderedMap.get?_set] at found
    split_ifs at found with here
    · rw [← Option.some.inj found]
      rfl
    · exact balanced.unended id reservation found active

theorem Solvent.admits (admits : Admits policy heritage value task before after) :
    Solvent policy after := by
  have budget := (clear_of_capacityHold admits.clear).budget
  rcases admits.written with ⟨acceptedAt, reservationExpiresAt, written⟩
  have safe := policy.budgetMicros.safe
  rcases numberSum_le safe budget with ⟨outer, exact⟩
  rcases numberSum_le safe (Nat.le_of_add_right_le outer) with ⟨inner, innerExact⟩
  rcases foldl_numberSum_le safe _ 0 (Nat.le_of_add_left_le inner) with ⟨-, sum⟩
  rw [innerExact, sum, Nat.zero_add, sum_commitments] at outer
  rw [Solvent, admits.spent, Ledger.committed, written, OrderedMap.tally_set_new admits.new]
  have commitment : (reservationOf task acceptedAt reservationExpiresAt).commitment =
      task.estimatedCostMicros.value := rfl
  rw [commitment, ← Nat.add_assoc]
  exact outer

end Reserved

section Moved

variable {policy : CapacityPolicy} {file before : Ledger} {taskId : JsString}
  {current : Reservation} {status : CapacityStatus} (actualCost : SafeNat)
  (options : TransitionOptions) (updatedAt : Instant)

theorem moved_of_ends (unended : current.status.isTerminal = false)
    (ends : status.isTerminal = true) :
    current.charge = 0 ∧ current.commitment = current.estimatedCostMicros.value ∧
      (moved current status actualCost options updatedAt).charge = actualCost.value ∧
      (moved current status actualCost options updatedAt).commitment = 0 := by
  have active : current.status.isActive = true := by simpa using unended
  have inactive : status.isActive = false := by simpa using ends
  simp [Reservation.charge, Reservation.commitment, moved, active, inactive]

theorem moved_of_stays (unsettled : isSettled (some current.status) status = false)
    (stays : (!current.status.isTerminal && status.isTerminal) = false) :
    (moved current status actualCost options updatedAt).charge = current.charge ∧
      (moved current status actualCost options updatedAt).commitment = current.commitment := by
  cases terminal : current.status.isTerminal with
  | true =>
    have same := eq_of_unsettled unsettled terminal
    simp only [Reservation.charge, Reservation.commitment, moved, same, terminal, Bool.not_true,
      Bool.false_and, Bool.false_eq_true, if_false, and_self]
  | false =>
    rw [terminal, Bool.not_false, Bool.true_and] at stays
    have active : current.status.isActive = true := by simpa using terminal
    have stillActive : status.isActive = true := by simpa using stays
    simp [Reservation.charge, Reservation.commitment, moved, active, stillActive]

theorem Balanced.moved (balanced : Balanced before)
    (found : before.reservations.get? taskId = some current)
    (unsettled : isSettled (some current.status) status = false)
    (room : current.status.isTerminal = false → status.isTerminal = true →
      before.spentMicros + actualCost.value ≤ MAX_SAFE_INTEGER) :
    Balanced { before with
      spentMicros := charged before.spentMicros (some current.status) status actualCost
      reservations := before.reservations.set taskId
        (moved current status actualCost options updatedAt) } := by
  have set := OrderedMap.tally_set_present found
    (Capacity.moved current status actualCost options updatedAt) Reservation.charge
  have spent := balanced.spent
  rw [Ledger.charges] at spent
  refine ⟨?_, ?_⟩
  · simp only [Ledger.charges, charged, Option.any_some]
    split_ifs with ends
    · rw [Bool.and_eq_true, Bool.not_eq_true'] at ends
      rcases moved_of_ends actualCost options updatedAt ends.1 ends.2 with
        ⟨uncharged, -, charge, -⟩
      rw [numberSum_of_le (room ends.1 ends.2)]
      omega
    · rw [Bool.not_eq_true] at ends
      have same := (moved_of_stays actualCost options updatedAt unsettled ends).1
      omega
  · intro id reservation isFound active
    rw [OrderedMap.get?_set] at isFound
    split_ifs at isFound with here
    · cases Option.some.inj isFound
      have isActive : status.isActive = true := active
      have notTerminal : status.isTerminal = false := by simp [isActive]
      have wasActive := isActive_of_unsettled unsettled active
      simp only [Capacity.moved, notTerminal, Bool.and_false, Bool.false_eq_true, if_false]
      exact balanced.unended taskId current found wasActive
    · exact balanced.unended id reservation isFound active

theorem Solvent.moved (solvent : Solvent policy before)
    (found : before.reservations.get? taskId = some current)
    (unsettled : isSettled (some current.status) status = false)
    (within : current.status.isTerminal = false → status.isTerminal = true →
      actualCost.value ≤ current.estimatedCostMicros.value) :
    Solvent policy { before with
      spentMicros := charged before.spentMicros (some current.status) status actualCost
      reservations := before.reservations.set taskId
        (moved current status actualCost options updatedAt) } := by
  have set := OrderedMap.tally_set_present found
    (Capacity.moved current status actualCost options updatedAt) Reservation.commitment
  have budget := policy.budgetMicros.safe
  simp only [Solvent, Ledger.committed, charged, Option.any_some] at *
  split_ifs with ends
  · rw [Bool.and_eq_true, Bool.not_eq_true'] at ends
    rcases moved_of_ends actualCost options updatedAt ends.1 ends.2 with
      ⟨-, commitment, -, freed⟩
    have less := within ends.1 ends.2
    rw [numberSum_of_le (by omega)]
    omega
  · rw [Bool.not_eq_true] at ends
    have same := (moved_of_stays actualCost options updatedAt unsettled ends).2
    omega

end Moved

/-- A cost that is charged is that of a reservation, and the spent sum stays a safe integer. -/
def ChargesOwn (file : Ledger) (event : Call × Surroundings) : Prop :=
  ∀ existing actualCost, Charges file event existing actualCost →
    (∃ current, existing = .own current) ∧
      file.spentMicros + actualCost.value ≤ MAX_SAFE_INTEGER

def WithinEstimate (file : Ledger) (event : Call × Surroundings) : Prop :=
  ∀ current actualCost, Charges file event (.own current) actualCost →
    actualCost.value ≤ current.estimatedCostMicros.value

section Run

variable {engine : Engine} {dates : DateParser} {policy : CapacityPolicy}
  {around : Surroundings} {file state : Ledger} {call : Call}

theorem charged_inherited {taskId : JsString} {statusText : JsValue} {options : TransitionOptions}
    {status : CapacityStatus} {actualCost : SafeNat} {member : JsValue}
    (own : ChargesOwn file (.transition taskId statusText options, around))
    (isCost : nonNegativeInteger (orDefault options.actualCostMicros (count 0)) = some actualCost)
    (isStatus : named CAPACITY_STATUSES CapacityStatus.text statusText = some status)
    (found : lookUp around.heritage (expireReservations file (around.now 0)).reservations taskId =
      some (.inherited member)) :
    charged file.spentMicros (Existing.inherited member).status status actualCost =
      file.spentMicros := by
  rw [charged]
  split_ifs with ends
  · rw [Bool.and_eq_true, Bool.not_eq_true'] at ends
    rcases (own _ _ ⟨_, _, _, _, rfl, isStatus, isCost, found, ends.1, ends.2⟩).1 with
      ⟨current, isOwn⟩
    contradiction
  · rfl

theorem Works.balanced (own : ChargesOwn file (call, around))
    (balanced : Balanced (expireReservations file (around.now 0)))
    (worked : Works dates policy around (expireReservations file (around.now 0)) call state) :
    Balanced state := by
  induction worked with
  | kept => exact balanced
  | pausesLeft earlier pauses left ih => exact ⟨(ih own).spent, (ih own).unended⟩
  | reserved earlier given valid new clear ih =>
    exact (ih own).admits ⟨valid, get?_of_lookUp_none new, clear, rfl, _, _, rfl⟩
  | @moved taskId statusText options status actualCost current updatedAt isCost isStatus found
      unsettled =>
    apply balanced.moved _ _ _ found unsettled
    intro unended ends
    refine (own (.own current) actualCost ⟨_, _, _, _, rfl, isStatus, isCost, ?_, ?_, ends⟩).2
    · rw [lookUp, found]
    · exact unended
  | movedInherited isCost isStatus found =>
    have unchanged := charged_inherited own isCost isStatus found
    exact ⟨unchanged.trans balanced.spent, balanced.unended⟩
  | paused untilChecked isKey => exact ⟨balanced.spent, balanced.unended⟩

theorem Works.solvent (own : ChargesOwn file (call, around))
    (within : WithinEstimate file (call, around))
    (solvent : Solvent policy (expireReservations file (around.now 0)))
    (worked : Works dates policy around (expireReservations file (around.now 0)) call state) :
    Solvent policy state := by
  induction worked with
  | kept => exact solvent
  | pausesLeft earlier pauses left ih => exact ih own within
  | reserved earlier given valid new clear ih =>
    exact Solvent.admits ⟨valid, get?_of_lookUp_none new, clear, rfl, _, _, rfl⟩
  | @moved taskId statusText options status actualCost current updatedAt isCost isStatus found
      unsettled =>
    apply solvent.moved _ _ _ found unsettled
    intro unended ends
    apply within current actualCost
    refine ⟨_, _, _, _, rfl, isStatus, isCost, ?_, unended, ends⟩
    rw [lookUp, found]
  | movedInherited isCost isStatus found =>
    have unchanged := charged_inherited own isCost isStatus found
    rw [Solvent]
    exact unchanged.symm ▸ solvent
  | paused untilChecked isKey => exact solvent

theorem next_of_overdue {event : Call × Surroundings} {id : JsString} {current next : Reservation}
    (balanced : Balanced file) (found : file.reservations.get? id = some current)
    (reserved : current.status = .reserved)
    (overdue : ClockReading.reached (some current.reservationExpiresAt) (event.2.now 0) = true)
    (nextFound : (file.next engine policy event).reservations.get? id = some next) :
    next.actualCostMicros = none := by
  have active : current.status.isActive = true := by
    rw [reserved]
    rfl
  have uncharged := balanced.unended id current found active
  rcases event with ⟨call, around⟩
  rcases next_cases engine policy file call around with unchanged | ⟨-, state, worked, written⟩
  · rw [unchanged] at nextFound
    cases Option.some.inj (found.symm.trans nextFound)
    exact uncharged
  · have expired : (expireReservations file (around.now 0)).reservations.get? id =
        some (expireReservation (around.now 0) current) := by
      rw [expireReservations, OrderedMap.get?_mapValues, found]
      rfl
    have isExpired : (expireReservation (around.now 0) current).status = .expired ∧
        (expireReservation (around.now 0) current).actualCostMicros = none := by
      rw [expireReservation, if_pos ⟨reserved, overdue⟩]
      exact ⟨rfl, uncharged⟩
    rcases (worked.continues.trans (continues_parsed state)) id _ expired with
      ⟨later, laterFound, -, kept⟩
    rw [written] at nextFound
    cases Option.some.inj (laterFound.symm.trans nextFound)
    have terminal : (expireReservation (around.now 0) current).status.isTerminal = true := by
      rw [isExpired.1]
      rfl
    exact (kept terminal).2.trans isExpired.2

end Run

/-- In a run that charges reservations alone, and never beyond the safe integers, what is spent
is what the terminal reservations have cost. That cost stays what it is, a reservation that has
expired by its deadline has none, and when no cost is above its estimate the budget holds. -/
theorem run_spends (engine : Engine) (policy : CapacityPolicy)
    (events : List (Call × Surroundings)) (own : Meets engine policy ChargesOwn .empty events) :
    let file := Ledger.empty.run engine policy events
    file.spentMicros = file.charges ∧
      (∀ later, Continues file (file.run engine policy later)) ∧
      (∀ event id current next, file.reservations.get? id = some current →
        current.status = .reserved →
        ClockReading.reached (some current.reservationExpiresAt) (event.2.now 0) = true →
        (file.next engine policy event).reservations.get? id = some next →
        next.actualCostMicros = none) ∧
      (Meets engine policy WithinEstimate .empty events → Solvent policy file) := by
  intro file
  have balanced : Balanced file := by
    apply run_invariant (fun state now balanced => balanced.expireReservations now)
      (fun state balanced => balanced.parsed) _ ⟨rfl, by simp [Ledger.empty]⟩ events own
    intro file call around start state meets isStart balanced worked
    subst isStart
    exact worked.balanced meets balanced
  refine ⟨balanced.spent, run_continues engine policy file, ?_, ?_⟩
  · intro event id current next found reserved overdue nextFound
    exact next_of_overdue balanced found reserved overdue nextFound
  · intro within
    apply run_invariant
      (fun state now solvent => solvent.shrinks (shrinks_expireReservations state now) rfl)
      (fun state solvent => solvent.shrinks (shrinks_parsed state) rfl) _ (Nat.zero_le _) events
      (own.and within)
    intro file call around start state meets isStart solvent worked
    subst isStart
    exact worked.solvent meets.1 meets.2 solvent

/-- The task `a` of `buildTask` on the host of the policy, reserved and then ended. -/
def reserveA : Call × Surroundings :=
  (.reserveMany (.array [buildTask (js "a") (js "brick")]), clockAt 0)

def endA (status : CapacityStatus) : Call × Surroundings :=
  (.transition (js "a") (.string status.text) ⟨count 2, .undefined, .undefined⟩, clockAt 1)

theorem run_spends_completed :
    let file := Ledger.empty.run plainEngine twoTaskPolicy [reserveA, endA .completed]
    file.spentMicros = file.charges ∧ Solvent twoTaskPolicy file := by
  have reserving : ∀ existing actualCost, ¬ Charges .empty reserveA existing actualCost := by
    rintro existing actualCost ⟨taskId, statusText, options, status, isTransition, -⟩
    contradiction
  have ending : ∀ existing actualCost,
      Charges (Ledger.empty.next plainEngine twoTaskPolicy reserveA) (endA .completed) existing
        actualCost →
      (∃ current, existing = .own current ∧ current.estimatedCostMicros.value = 2) ∧
        actualCost.value = 2 := by
    rintro existing actualCost ⟨taskId, statusText, options, status, isTransition, -, isCost,
      found, -⟩
    cases isTransition
    have cost : nonNegativeInteger (count 2) = some ⟨2, by decide⟩ := rfl
    have reservation : ∃ current, lookUp (clockAt 1).heritage
        (expireReservations (Ledger.empty.next plainEngine twoTaskPolicy reserveA)
          ((clockAt 1).now 0)).reservations (js "a") = some (.own current) ∧
        current.estimatedCostMicros.value = 2 := ⟨_, rfl, rfl⟩
    rcases reservation with ⟨current, isOwn, estimate⟩
    refine ⟨⟨current, Option.some.inj (found.symm.trans isOwn), estimate⟩, ?_⟩
    rw [Option.some.inj (isCost.symm.trans cost)]
  have unspent : (Ledger.empty.next plainEngine twoTaskPolicy reserveA).spentMicros = 0 := rfl
  have own : Meets plainEngine twoTaskPolicy ChargesOwn .empty [reserveA, endA .completed] := by
    refine ⟨?_, ?_, trivial⟩
    · intro existing actualCost charges
      exact absurd charges (reserving existing actualCost)
    · intro existing actualCost charges
      rcases ending existing actualCost charges with ⟨⟨current, isOwn, -⟩, cost⟩
      refine ⟨⟨current, isOwn⟩, ?_⟩
      rw [unspent, cost]
      decide
  have spends := run_spends plainEngine twoTaskPolicy [reserveA, endA .completed] own
  refine ⟨spends.1, spends.2.2.2 ⟨?_, ?_, trivial⟩⟩
  · intro current actualCost charges
    exact absurd charges (reserving _ actualCost)
  · intro current actualCost charges
    rcases ending _ actualCost charges with ⟨⟨other, isOwn, estimate⟩, cost⟩
    cases isOwn
    rw [cost, estimate]

/-- A reservation that a transition expires is charged the cost that the call states. -/
theorem run_charges_expired :
    let file := Ledger.empty.run plainEngine twoTaskPolicy [reserveA, endA .expired]
    (file.reservations.get? (js "a")).map (fun reservation =>
      (reservation.status, reservation.charge)) = some (.expired, 2) ∧ file.spentMicros = 2 := by
  decide +kernel

end StudentHub.Capacity
