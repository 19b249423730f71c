import StudentHub.Ecma.Date
import Mathlib.Logic.Function.Basic

/-!
# Runs of jobs

A run acquires the lease, works, and renews the lease on a timer; when its work has settled it
waits for a last renewal, records the outcome and releases the lease. A call of the store is
sent, carried out, and answered, each in its own time; at most one renewal is in flight.
-/

/-!
## Leases and records of jobs

A run of a job holds the lease of the job until it lets go of it or its time has passed. The
clock is in microseconds; the store in memory is given a date of it, the database reads it.
-/

namespace StudentHub.Jobs

open Ecma

inductive JobName
  | heartbeat
  | missedRunCheck
  | emailDelivery
  deriving DecidableEq

inductive JobOutcome
  | succeeded
  | failed
  | refusedOverlap
  deriving DecidableEq

structure JobRun where
  runId : ℕ
  jobName : JobName
  startedAt : Date
  finishedAt : Date
  durationMs : ℤ
  outcome : JobOutcome
  deriving DecidableEq

/-- The lease of a job; the time is a date in memory and microseconds in the database. -/
structure Lease (Time : Type) where
  holder : ℕ
  expiresAt : Time

structure JobLeases (Time : Type) where
  acquire : Option (Lease Time) → (id : ℕ) → (leaseMs clock : ℤ) → Bool × Option (Lease Time)
  renew : Option (Lease Time) → (id : ℕ) → (leaseMs clock : ℤ) → Bool × Option (Lease Time)
  release : Option (Lease Time) → (id : ℕ) → Option (Lease Time)

/-- `new Date()` -/
def dateOf (clock : ℤ) : Date := timeClip (clock / 1000)

/-- `new Date(now.getTime() + leaseMs)` -/
def datePlus (date : Date) (ms : ℤ) : Date := date.bind fun now => timeClip (now.time + ms)

/-- Comparison `left > right` of time values. -/
def dateExceeds (left right : Date) : Bool :=
  match left, right with
  | some left, some right => right.time < left.time
  | _, _ => false

/-- `MemoryJobRunsStore`; a renewal may be made to fail. -/
def memoryJobLeases (failRenewal : Bool) : JobLeases Date where
  acquire lease id leaseMs clock :=
    let now := dateOf clock
    if lease.any fun held => dateExceeds held.expiresAt now then
      (false, lease)
    else
      (true, some ⟨id, datePlus now leaseMs⟩)
  renew lease id leaseMs clock :=
    let now := dateOf clock
    match lease with
    | some held =>
        if failRenewal || held.holder ≠ id || Date.reaches now held.expiresAt then
          (false, lease)
        else
          (true, some ⟨id, datePlus now leaseMs⟩)
    | none => (false, lease)
  release lease id := lease.filter fun held => held.holder ≠ id

/-- The statements of `PostgresJobRunsStore`. -/
def postgresJobLeases : JobLeases ℤ where
  acquire lease id leaseMs clock :=
    match lease with
    | none => (true, some ⟨id, clock + leaseMs * 1000⟩)
    | some held =>
        if held.expiresAt ≤ clock then
          (true, some ⟨id, clock + leaseMs * 1000⟩)
        else
          (false, lease)
  renew lease id leaseMs clock :=
    match lease with
    | some held =>
        if held.holder = id && held.expiresAt > clock then
          (true, some ⟨held.holder, clock + leaseMs * 1000⟩)
        else
          (false, lease)
    | none => (false, lease)
  release lease id := lease.filter fun held => held.holder ≠ id

/-- What a run relies on: the lease is in the name of the last run that acquired it, until this
one releases it. -/
structure JobLeases.Lawful {Time : Type} (store : JobLeases Time) : Prop where
  acquired : ∀ lease id leaseMs clock, (store.acquire lease id leaseMs clock).1 = true →
    (store.acquire lease id leaseMs clock).2.map Lease.holder = some id
  refused : ∀ lease id leaseMs clock, (store.acquire lease id leaseMs clock).1 = false →
    (store.acquire lease id leaseMs clock).2 = lease
  renewed : ∀ lease id leaseMs clock, (store.renew lease id leaseMs clock).1 = true →
    lease.map Lease.holder = some id
  sameHolder : ∀ lease id leaseMs clock,
    (store.renew lease id leaseMs clock).2.map Lease.holder = lease.map Lease.holder
  released : ∀ lease id holder, (store.release lease id).map Lease.holder = some holder →
    lease.map Lease.holder = some holder

theorem released_of_filter {Time : Type} {lease : Option (Lease Time)} {id holder : ℕ}
    (isHeld : (lease.filter fun held => held.holder ≠ id).map Lease.holder = some holder) :
    lease.map Lease.holder = some holder := by
  rw [Option.map_eq_some_iff] at isHeld ⊢
  obtain ⟨held, isLeft, same⟩ := isHeld
  exact ⟨held, (Option.filter_eq_some_iff.mp isLeft).1, same⟩

theorem lawful_memoryJobLeases (failRenewal : Bool) : (memoryJobLeases failRenewal).Lawful := by
  refine ⟨?_, ?_, ?_, ?_, fun lease id holder => released_of_filter⟩
  · intro lease id leaseMs clock
    simp only [memoryJobLeases]
    split
    · simp
    · intro _
      rfl
  · intro lease id leaseMs clock
    simp only [memoryJobLeases]
    split
    · intro _
      rfl
    · simp
  · intro lease id leaseMs clock
    cases lease with
    | none => simp [memoryJobLeases]
    | some held =>
        simp only [memoryJobLeases]
        split
        · simp
        · rename_i granted
          intro _
          simp only [Bool.or_eq_true, decide_eq_true_eq, not_or] at granted
          simpa using granted.1.2
  · intro lease id leaseMs clock
    cases lease with
    | none => rfl
    | some held =>
        simp only [memoryJobLeases]
        split
        · rfl
        · rename_i granted
          simp only [Bool.or_eq_true, decide_eq_true_eq, not_or] at granted
          have same : held.holder = id := by simpa using granted.1.2
          simp only [Option.map_some, same]

theorem lawful_postgresJobLeases : postgresJobLeases.Lawful := by
  refine ⟨?_, ?_, ?_, ?_, fun lease id holder => released_of_filter⟩
  · intro lease id leaseMs clock
    cases lease with
    | none => simp [postgresJobLeases]
    | some held =>
        simp only [postgresJobLeases]
        split
        · intro _
          rfl
        · simp
  · intro lease id leaseMs clock
    cases lease with
    | none => simp [postgresJobLeases]
    | some held =>
        simp only [postgresJobLeases]
        split
        · simp
        · intro _
          rfl
  · intro lease id leaseMs clock
    cases lease with
    | none => simp [postgresJobLeases]
    | some held =>
        simp only [postgresJobLeases]
        split
        · rename_i granted
          intro _
          simp only [Bool.and_eq_true, decide_eq_true_eq] at granted
          simpa using granted.1
        · simp
  · intro lease id leaseMs clock
    cases lease with
    | none => rfl
    | some held =>
        simp only [postgresJobLeases]
        split <;> rfl

inductive JobRunsStore
  | memory
  | postgres

namespace JobRunsStore

@[reducible]
def Time : JobRunsStore → Type
  | memory => Date
  | postgres => ℤ

def leases : (store : JobRunsStore) → (failRenewal : Bool) → JobLeases store.Time
  | memory => memoryJobLeases
  | postgres => fun _ => postgresJobLeases

theorem lawful (store : JobRunsStore) (failRenewal : Bool) : (store.leases failRenewal).Lawful := by
  cases store with
  | memory => exact lawful_memoryJobLeases failRenewal
  | postgres => exact lawful_postgresJobLeases

end JobRunsStore

end StudentHub.Jobs

namespace StudentHub.Jobs

open Ecma

inductive Flight
  | sent
  | carriedOut (answer : Bool)
  deriving DecidableEq

/-- Where `runJob` is. -/
inductive Phase
  | acquiring (flight : Flight)
  | refusing (run : JobRun) (flight : Flight)
  | working
  | settled (outcome : JobOutcome)
  | recording (run : JobRun) (flight : Flight)
  | releasing (outcome : JobOutcome) (flight : Flight)
  | ended
  deriving DecidableEq

structure JobOptions where
  name : JobName
  leaseMs : ℤ

/-- A call of `runJob`; `pending` is the renewal in flight. -/
structure Runner where
  job : JobOptions
  startedAt : Date
  phase : Phase
  pending : Option Flight
  lost : Bool

def Phase.isTimed : Phase → Bool
  | acquiring _ | refusing .. => false
  | working | settled _ | recording .. | releasing .. | ended => true

inductive JobAlertCode
  | jobFailed
  | jobOverlap
  deriving DecidableEq

inductive Mark
  | acquired (id : ℕ) (name : JobName)
  | settled (id : ℕ)
  deriving DecidableEq

structure JobWorld (Time : Type) where
  clock : ℤ
  leases : JobName → Option (Lease Time)
  runs : List JobRun
  alerts : List (JobAlertCode × JobName)
  runners : List Runner
  history : List Mark

def JobWorld.initial {Time : Type} (clock : ℤ) : JobWorld Time :=
  ⟨clock, fun _ => none, [], [], [], []⟩

inductive JobEvent
  | wait (elapsed : ℕ)
  | start (job : JobOptions)
  | carryOut (id : ℕ)
  | answer (id : ℕ)
  | reject (id : ℕ)
  | carryOutRenewal (id : ℕ) (failRenewal : Bool)
  | answerRenewal (id : ℕ)
  | rejectRenewal (id : ℕ)
  | timer (id : ℕ)
  | settle (id : ℕ) (succeeds : Bool)

/-- `Math.max(0, finishedAt.getTime() - startedAt.getTime())`, for valid dates -/
def durationMs (startedAt finishedAt : Date) : ℤ :=
  match startedAt, finishedAt with
  | some started, some finished => max 0 (finished.time - started.time)
  | _, _ => 0

namespace Runner

variable (runner : Runner)

/-- `renew()`: the renewal in flight, or a new one unless the work is aborted. -/
def renew : Runner :=
  if runner.pending.isSome || runner.lost then runner else { runner with pending := some .sent }

def record (id : ℕ) (clock : ℤ) (outcome : JobOutcome) : JobRun where
  runId := id
  jobName := runner.job.name
  startedAt := runner.startedAt
  finishedAt := dateOf clock
  durationMs := durationMs runner.startedAt (dateOf clock)
  outcome

/-- Once the work has settled and no renewal is in flight, the outcome is recorded. -/
def afterRenewal (id : ℕ) (clock : ℤ) : Runner :=
  match runner.phase, runner.pending with
  | .settled outcome, none =>
      let outcome := if runner.lost && outcome = .succeeded then .failed else outcome
      { runner with phase := .recording (runner.record id clock outcome) .sent }
  | _, _ => runner

end Runner

namespace JobWorld

variable {Time : Type} (world : JobWorld Time)

def update (id : ℕ) (runner : Runner) : JobWorld Time :=
  { world with runners := world.runners.set id runner }

def finish (id : ℕ) (runner : Runner) (outcome : JobOutcome) : JobWorld Time :=
  let ended := world.update id { runner with phase := .ended }
  if outcome = .failed then
    { ended with alerts := ended.alerts ++ [(.jobFailed, runner.job.name)] }
  else
    ended

def carryOut (leases : JobLeases Time) (id : ℕ) (runner : Runner) : JobWorld Time :=
  let name := runner.job.name
  match runner.phase with
  | .acquiring .sent =>
      let result := leases.acquire (world.leases name) id runner.job.leaseMs world.clock
      let acquired := world.update id { runner with phase := .acquiring (.carriedOut result.1) }
      { acquired with
        leases := Function.update world.leases name result.2
        history := if result.1 then .acquired id name :: world.history else world.history }
  | .refusing run .sent =>
      let recorded := world.update id { runner with phase := .refusing run (.carriedOut true) }
      { recorded with runs := world.runs ++ [run] }
  | .recording run .sent =>
      let recorded := world.update id { runner with phase := .recording run (.carriedOut true) }
      { recorded with runs := world.runs ++ [run] }
  | .releasing outcome .sent =>
      let released := world.update id { runner with phase := .releasing outcome (.carriedOut true) }
      { released with
        leases := Function.update world.leases name (leases.release (world.leases name) id) }
  | _ => world

def answer (id : ℕ) (runner : Runner) : JobWorld Time :=
  match runner.phase with
  | .acquiring (.carriedOut true) => world.update id { runner with phase := .working }
  | .acquiring (.carriedOut false) =>
      let run := runner.record id world.clock .refusedOverlap
      world.update id { runner with phase := .refusing run .sent }
  | .refusing _ (.carriedOut _) =>
      let ended := world.update id { runner with phase := .ended }
      { ended with alerts := ended.alerts ++ [(.jobOverlap, runner.job.name)] }
  | .recording run (.carriedOut _) =>
      world.update id { runner with phase := .releasing run.outcome .sent }
  | .releasing outcome (.carriedOut _) => world.finish id runner outcome
  | _ => world

def reject (id : ℕ) (runner : Runner) : JobWorld Time :=
  match runner.phase with
  | .acquiring _ | .refusing .. => world.update id { runner with phase := .ended }
  | .recording run _ => world.update id { runner with phase := .releasing run.outcome .sent }
  | .releasing outcome _ => world.finish id runner outcome
  | _ => world

def carryOutRenewal (leases : JobLeases Time) (id : ℕ) (runner : Runner) : JobWorld Time :=
  let name := runner.job.name
  match runner.pending with
  | some .sent =>
      let result := leases.renew (world.leases name) id runner.job.leaseMs world.clock
      let renewed := world.update id { runner with pending := some (.carriedOut result.1) }
      { renewed with leases := Function.update world.leases name result.2 }
  | _ => world

/-- The renewal has ended; unless it was granted, the lease is lost and the work is aborted. -/
def endRenewal (id : ℕ) (runner : Runner) (granted : Bool) : JobWorld Time :=
  let ended := { runner with pending := none, lost := runner.lost || !granted }
  world.update id (ended.afterRenewal id world.clock)

def settle (id : ℕ) (runner : Runner) (succeeds : Bool) : JobWorld Time :=
  let outcome := if succeeds then JobOutcome.succeeded else .failed
  let settled := { runner with phase := .settled outcome }.renew
  let world := world.update id (settled.afterRenewal id world.clock)
  { world with history := .settled id :: world.history }

/-- One event; what cannot happen changes nothing. -/
def next (store : Bool → JobLeases Time) : JobEvent → JobWorld Time
  | .wait elapsed => { world with clock := world.clock + elapsed }
  | .start job =>
      { world with
        runners := world.runners ++ [⟨job, dateOf world.clock, .acquiring .sent, none, false⟩] }
  | .carryOut id =>
      match world.runners[id]? with
      | some runner => world.carryOut (store false) id runner
      | none => world
  | .answer id =>
      match world.runners[id]? with
      | some runner => world.answer id runner
      | none => world
  | .reject id =>
      match world.runners[id]? with
      | some runner => world.reject id runner
      | none => world
  | .carryOutRenewal id failRenewal =>
      match world.runners[id]? with
      | some runner => world.carryOutRenewal (store failRenewal) id runner
      | none => world
  | .answerRenewal id =>
      match world.runners[id]? with
      | some runner =>
          match runner.pending with
          | some (.carriedOut granted) => world.endRenewal id runner granted
          | _ => world
      | none => world
  | .rejectRenewal id =>
      match world.runners[id]? with
      | some runner =>
          match runner.pending with
          | some _ => world.endRenewal id runner false
          | none => world
      | none => world
  | .timer id =>
      match world.runners[id]? with
      | some runner => if runner.phase.isTimed then world.update id runner.renew else world
      | none => world
  | .settle id succeeds =>
      match world.runners[id]? with
      | some runner => if runner.phase = .working then world.settle id runner succeeds else world
      | none => world

def run (store : Bool → JobLeases Time) (events : List JobEvent) : JobWorld Time :=
  events.foldl (fun world event => world.next store event) world

end JobWorld

end StudentHub.Jobs
