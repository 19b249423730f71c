import StudentHub.Concurrency.Chronicle
import StudentHub.Idempotency.Fingerprints
import Mathlib.Logic.Function.Basic

/-!
# The recording store under concurrent requests

A request that the executor admits waits for the lock of its scope and then for the
transaction lock; both are first come, first served. Under both locks it is answered from
its record, or its operation works on a draft of the tables, which becomes live together
with the record when the operation returns and never does when it throws. An operation
holds the handle of its draft for good and may write through it at any time. A clean-up
takes the clock when it is asked for and removes records when its transaction comes.
-/

namespace StudentHub.Idempotency

open Ecma Concurrency

structure StoredRecord where
  fingerprint : JsString
  expiresAt : Date
  response : StoredResponse

/-- The rows of the collections and the events of the topics. -/
structure Tables where
  collections : OrderedMap JsString (List JsValue)
  outbox : OrderedMap JsString (List JsValue)

def pushed (lists : OrderedMap JsString (List JsValue)) (name : JsString) (item : JsValue) :
    OrderedMap JsString (List JsValue) :=
  lists.set name ((lists.get? name).getD [] ++ [item])

def Tables.insert (tables : Tables) (collection : JsString) (row : JsValue) : Tables :=
  { tables with collections := pushed tables.collections collection row }

def Tables.enqueue (tables : Tables) (topic : JsString) (event : JsValue) : Tables :=
  { tables with outbox := pushed tables.outbox topic event }

def AtomicMutationInput.scope (input : AtomicMutationInput) : JsString :=
  input.principalRef ++ [10] ++ input.key

/-- How far a request has come in `executeAtomic`. -/
inductive Phase
  | awaitingKey
  | awaitingTransaction
  | operating (draft : ℕ)
  | leaving (outcome : AtomicMutationOutcome)

structure Call where
  request : MutationRequest
  input : AtomicMutationInput
  phase : Phase

inductive Waiter
  | call (id : ℕ)
  | cleanup (now : Instant)
  deriving DecidableEq

inductive Happening
  | requested (id : ℕ) (request : MutationRequest)
  | started (id : ℕ) (request : MutationRequest) (draft : ℕ)
  | applied (id : ℕ) (request : MutationRequest) (draft : ℕ) (response : StoredResponse)
  | failed (id : ℕ) (request : MutationRequest)
  | answered (id : ℕ) (request : MutationRequest) (result : MutationResult)

/-- An executor with its store. The tables are those of every draft that was ever made, by
number; the history is listed newest first. -/
structure World where
  clock : Instant
  records : OrderedMap JsString StoredRecord
  tables : ℕ → Tables
  live : ℕ
  allocated : ℕ
  keyLocks : JsString → List ℕ
  transactions : List Waiter
  calls : OrderedMap ℕ Call
  requests : ℕ
  history : List Happening

/-- What can happen next: time passes, a request is made, gets either lock, its operation
writes, returns or throws, and it is answered; or a clean-up is asked for or done. -/
inductive Event
  | tick (now : Instant)
  | execute (request : MutationRequest)
  | enter (id : ℕ)
  | begin (id : ℕ)
  | insert (draft : ℕ) (collection : JsString) (row : JsValue)
  | enqueue (draft : ℕ) (topic : JsString) (event : JsValue)
  | settle (id : ℕ) (response : Option StoredResponse)
  | leave (id : ℕ)
  | cleanup
  | sweep

namespace World

def start (clock : Instant) (tables : Tables) : World where
  clock := clock
  records := .empty
  tables := fun _ => tables
  live := 0
  allocated := 1
  keyLocks := fun _ => []
  transactions := []
  calls := .empty
  requests := 0
  history := []

def visible (world : World) : Tables := world.tables world.live

def happen (world : World) (happening : Happening) : World :=
  { world with history := happening :: world.history }

def setPhase (world : World) (id : ℕ) (call : Call) (phase : Phase) : World :=
  { world with calls := world.calls.set id { call with phase := phase } }

def release (world : World) (id : ℕ) (call : Call) (outcome : AtomicMutationOutcome) : World :=
  { world.setPhase id call (.leaving outcome) with transactions := world.transactions.tail }

def write (world : World) (draft : ℕ) (change : Tables → Tables) : World :=
  if 0 < draft ∧ draft < world.allocated then
    { world with tables := Function.update world.tables draft (change (world.tables draft)) }
  else
    world

def transact (world : World) (id : ℕ) (call : Call) : World :=
  if Date.reaches (some world.clock) call.input.expiresAt then
    world.release id call .expired
  else
    match world.records.get? call.input.scope with
    | some existing =>
        if existing.fingerprint ≠ call.input.fingerprint then
          world.release id call .conflict
        else
          world.release id call (.replayed existing.response)
    | none =>
        { (world.setPhase id call (.operating world.allocated)).happen
            (.started id call.request world.allocated) with
          tables := Function.update world.tables world.allocated world.visible
          allocated := world.allocated + 1 }

def conclude (world : World) (id : ℕ) (call : Call) (draft : ℕ) :
    Option StoredResponse → World
  | none => (world.release id call .failed).happen (.failed id call.request)
  | some response =>
      { (world.release id call (.executed response)).happen
          (.applied id call.request draft response) with
        live := draft
        records := world.records.set call.input.scope
          ⟨call.input.fingerprint, call.input.expiresAt, response⟩ }

variable (sha256 : Utf8 → JsString) (options : IdempotencyOptions)

def execute (world : World) (request : MutationRequest) : World :=
  let id := world.requests
  let counted := { world.happen (.requested id request) with requests := id + 1 }
  match checkRequest sha256 options world.clock request with
  | .error refusal => counted.happen (.answered id request refusal)
  | .ok input =>
      { counted with
        keyLocks := Function.update world.keyLocks input.scope
          (world.keyLocks input.scope ++ [id])
        calls := world.calls.set id ⟨request, input, .awaitingKey⟩ }

/-- The lock of the scope is free for the request, which waits for a transaction. -/
def enter (world : World) (id : ℕ) (call : Call) : World :=
  if (world.keyLocks call.input.scope).head? = some id then
    { world.setPhase id call .awaitingTransaction with
      transactions := world.transactions ++ [.call id] }
  else
    world

def leave (world : World) (id : ℕ) (call : Call) (outcome : AtomicMutationOutcome) : World :=
  { world.happen (.answered id call.request outcome.result) with
    keyLocks := Function.update world.keyLocks call.input.scope
      (world.keyLocks call.input.scope).tail
    calls := world.calls.delete id }

def sweep (world : World) : World :=
  match world.transactions with
  | .cleanup now :: rest =>
      { world with
        records := world.records.filter fun _ record => ¬Date.reaches (some now) record.expiresAt
        transactions := rest }
  | _ => world

def next (world : World) : Event → World
  | .tick now => if world.clock.time ≤ now.time then { world with clock := now } else world
  | .execute request => world.execute sha256 options request
  | .enter id =>
      match world.calls.get? id with
      | some ⟨request, input, .awaitingKey⟩ => world.enter id ⟨request, input, .awaitingKey⟩
      | _ => world
  | .begin id =>
      match world.calls.get? id with
      | some ⟨request, input, .awaitingTransaction⟩ =>
          if world.transactions.head? = some (.call id) then
            world.transact id ⟨request, input, .awaitingTransaction⟩
          else
            world
      | _ => world
  | .insert draft collection row => world.write draft fun tables => tables.insert collection row
  | .enqueue draft topic event => world.write draft fun tables => tables.enqueue topic event
  | .settle id response =>
      match world.calls.get? id with
      | some ⟨request, input, .operating draft⟩ =>
          world.conclude id ⟨request, input, .operating draft⟩ draft response
      | _ => world
  | .leave id =>
      match world.calls.get? id with
      | some ⟨request, input, .leaving outcome⟩ =>
          world.leave id ⟨request, input, .leaving outcome⟩ outcome
      | _ => world
  | .cleanup => { world with transactions := world.transactions ++ [.cleanup world.clock] }
  | .sweep => world.sweep

def run (world : World) (events : List Event) : World :=
  events.foldl (next sha256 options) world

end World

end StudentHub.Idempotency
