import StudentHub.Supervisor.Footprint

/-!
# Rules for the processes of the supervisor

The rules of a discipline for the operations of the supervisor and for the small processes
it is made of. A postcondition says what is known of a value that is returned; of errors
only the spent fuel matters.
-/

/-!
## Steps of the state directory

What one operation does to the files and to what has happened, and what can be read of it
from the state after it.
-/

namespace StudentHub.Supervisor

open Ecma Concurrency JsString JsValue

def Bound (machine : Machine) (attemptId : JsString) (order : JsValue) : Prop :=
  ∃ stored, machine.get? .orders (fileName attemptId) = some stored ∧
    stored.get (js "order") = order

theorem fileName_injective : Function.Injective fileName := by
  intro attemptId other same
  exact List.append_cancel_right same

theorem textOf_of_get {value : JsValue} {name text : JsString}
    (found : value.get name = .string text) : textOf value name = text := by
  rw [textOf, found]
  rfl

theorem get_order_durableOrder {host : SupervisorHost} (order : JsValue) :
    (durableOrder host order).jsonCopy.get (js "order") = order.jsonCopy := by
  have first : js "protocol" ≠ js "order" := by decide
  have last : js "digest" ≠ js "order" := by decide
  have copy : ∀ text, (JsValue.string text).jsonCopy = .string text := fun text => by
    simp [jsonCopy]
  simp only [durableOrder, jsonCopy, jsonProperties]
  split
  case h_1 absent =>
    rw [absent, get_cons, if_neg first, get_cons, if_neg last]
    rfl
  case h_2 => rw [get_cons, if_neg first, get_cons, if_pos rfl]

section Steps

variable {me : ℕ} {op : Op} {given : Given} {machine : Machine}
variable {directory other : Directory} {name found : JsString} {value : JsValue}

@[simp]
theorem get?_record (machine : Machine) (happening : Happening) :
    (machine.record happening).get? directory name = machine.get? directory name := rfl

@[simp]
theorem history_record (machine : Machine) (happening : Happening) :
    (machine.record happening).history = happening :: machine.history := rfl

@[simp]
theorem history_put (machine : Machine) :
    (machine.put directory name value).history = machine.history := rfl

theorem get?_put (machine : Machine) : (machine.put directory name value).get? other found =
    if other = directory ∧ found = name then some value.jsonCopy
    else machine.get? other found := by
  simp only [Machine.put, Machine.get?]
  by_cases here : other = directory
  · subst here
    rw [if_pos rfl, OrderedMap.get?_set]
    simp only [true_and, eq_comm]
  · rw [if_neg here, if_neg (by simp [here])]

theorem handle_cases (me : ℕ) (op : Op) (given : Given) (machine : Machine) :
    (handle me op given machine).2 = machine ∨
    (∃ directory name value, op = .durableCreate directory name value ∧
      machine.get? directory name = none ∧ (handle me op given machine).2 =
        (machine.put directory name value).record (.created me directory name)) ∨
    (∃ directory name value, op = .durableReplace directory name value ∧
      (handle me op given machine).2 = machine.put directory name value) ∨
    (∃ order attemptId targetSha token, op = .spawnWorker order attemptId targetSha token ∧
      (handle me op given machine).2 = machine.record (.spawned me attemptId order)) := by
  cases op with
  | durableCreate directory name value =>
    cases absent : machine.get? directory name with
    | none => exact .inr (.inl ⟨directory, name, value, rfl, absent, by simp [handle, absent]⟩)
    | some stored => exact .inl (by simp [handle, absent])
  | durableReplace directory name value =>
    exact .inr (.inr (.inl ⟨directory, name, value, rfl, rfl⟩))
  | spawnWorker order attemptId targetSha token =>
    exact .inr (.inr (.inr ⟨order, attemptId, targetSha, token, rfl, rfl⟩))
  | _ => exact .inl rfl

theorem isSome_handle (stored : (machine.get? directory name).isSome) :
    ((handle me op given machine).2.get? directory name).isSome := by
  rcases handle_cases me op given machine with
    same | ⟨_, _, _, _, _, same⟩ | ⟨_, _, _, _, same⟩ | ⟨_, _, _, _, _, same⟩
  · rw [same]
    exact stored
  · rw [same, get?_record, get?_put]
    split
    case isTrue => rfl
    case isFalse => exact stored
  · rw [same, get?_put]
    split
    case isTrue => rfl
    case isFalse => exact stored
  · rw [same]
    exact stored

theorem get?_handle_eq_some (stored : (handle me op given machine).2.get? directory name =
    some value) : machine.get? directory name = some value ∨
      (∃ new, op = .durableCreate directory name new ∧ machine.get? directory name = none ∧
        value = new.jsonCopy) ∨
      ∃ new, op = .durableReplace directory name new ∧ value = new.jsonCopy := by
  rcases handle_cases me op given machine with
    same | ⟨place, file, new, rfl, absent, same⟩ | ⟨place, file, new, rfl, same⟩ |
      ⟨_, _, _, _, _, same⟩
  · exact .inl (same ▸ stored)
  · rw [same, get?_record, get?_put] at stored
    split at stored
    case isTrue here =>
      rcases here with ⟨rfl, rfl⟩
      exact .inr (.inl ⟨new, rfl, absent, (Option.some.inj stored).symm⟩)
    case isFalse => exact .inl stored
  · rw [same, get?_put] at stored
    split at stored
    case isTrue here =>
      rcases here with ⟨rfl, rfl⟩
      exact .inr (.inr ⟨new, rfl, (Option.some.inj stored).symm⟩)
    case isFalse => exact .inl stored
  · rw [same, get?_record] at stored
    exact .inl stored

theorem mem_history_of_handle {happening : Happening}
    (happened : happening ∈ (handle me op given machine).2.history) :
    happening ∈ machine.history ∨
      (∃ directory name value, op = .durableCreate directory name value ∧
        machine.get? directory name = none ∧ happening = .created me directory name) ∨
      ∃ order attemptId targetSha token, op = .spawnWorker order attemptId targetSha token ∧
        happening = .spawned me attemptId order := by
  rcases handle_cases me op given machine with
    same | ⟨place, file, new, rfl, absent, same⟩ | ⟨_, _, _, _, same⟩ |
      ⟨order, attemptId, targetSha, token, rfl, same⟩
  · exact .inl (same ▸ happened)
  · rw [same, history_record, history_put, List.mem_cons] at happened
    rcases happened with new | old
    · exact .inr (.inl ⟨place, file, _, rfl, absent, new⟩)
    · exact .inl old
  · rw [same, history_put] at happened
    exact .inl happened
  · rw [same, history_record, List.mem_cons] at happened
    rcases happened with new | old
    · exact .inr (.inr ⟨order, attemptId, targetSha, token, rfl, new⟩)
    · exact .inl old

theorem mem_history_handle {happening : Happening} (happened : happening ∈ machine.history) :
    happening ∈ (handle me op given machine).2.history := by
  rcases handle_cases me op given machine with
    same | ⟨_, _, _, _, _, same⟩ | ⟨_, _, _, _, same⟩ | ⟨_, _, _, _, _, same⟩
  all_goals rw [same]
  · exact happened
  · exact List.mem_cons_of_mem _ happened
  · exact happened
  · exact List.mem_cons_of_mem _ happened

theorem get?_handle_of_ne (stored : machine.get? directory name = some value)
    (unwritten : ∀ new, op ≠ .durableReplace directory name new) :
    (handle me op given machine).2.get? directory name = some value := by
  rcases handle_cases me op given machine with
    same | ⟨place, file, _, _, absent, same⟩ | ⟨place, file, _, rfl, same⟩ | ⟨_, _, _, _, _, same⟩
  all_goals rw [same]
  · exact stored
  · rw [get?_record, get?_put, if_neg]
    · exact stored
    · rintro ⟨rfl, rfl⟩
      rw [absent] at stored
      cases stored
  · rw [get?_put, if_neg]
    · exact stored
    · rintro ⟨rfl, rfl⟩
      exact unwritten _ rfl
  · exact stored

end Steps

end StudentHub.Supervisor

namespace StudentHub.Supervisor

open Ecma Concurrency Concurrency.Process JsString JsValue

def Ends {Value : Type} (spent : Machine → Prop) (known : Value → Machine → Prop) :
    Except SupervisorError Value → Machine → Prop
  | .ok value, machine => known value machine
  | .error error, machine => error = .fuelSpent → spent machine

variable {discipline : Discipline handle} {me : ℕ} {Value Value' : Type} {spent : Machine → Prop}
variable {process : Program Value} {rest : Value → Program Value'}
variable {fact : Machine → Prop} {known : Value → Machine → Prop} {known' : Value' → Machine → Prop}
variable {directory : Directory} {name attemptId : JsString}

instance [free : Reads discipline.Free] : Reads (discipline.FreeTo me) :=
  ⟨fun op read => free.reads op read me⟩

instance {directory : Directory} [free : Creates discipline.Free directory] :
    Creates (discipline.FreeTo me) directory := ⟨fun name value => free.creates name value me⟩

instance {directory : Directory} [free : Replaces discipline.Free directory] :
    Replaces (discipline.FreeTo me) directory := ⟨fun name value => free.replaces name value me⟩

instance [free : Spawns discipline.Free] : Spawns (discipline.FreeTo me) :=
  ⟨fun order attemptId targetSha token => free.spawns order attemptId targetSha token me⟩

theorem lasting_ends (lastingSpent : discipline.Lasting spent)
    (lasting : ∀ value, discipline.Lasting (known value)) (result : Except SupervisorError Value) :
    discipline.Lasting (Ends spent known result) := by
  cases result with
  | ok value => exact lasting value
  | error error =>
    intro me op given state isTask invariant allowed ends same
    exact lastingSpent me op given state isTask invariant allowed (ends same)

theorem follows_bind (first : discipline.Follows me fact process (Ends spent known))
    (second : ∀ value, discipline.Follows me (known value) (rest value)
      (Ends spent known')) :
    discipline.Follows me fact (process >>= rest) (Ends spent known') := by
  apply first.bind second
  intro error machine _ ends
  exact ends

theorem follows_returned {value : Value}
    (holds : ∀ machine, discipline.Invariant machine → fact machine → known value machine) :
    discipline.Follows me fact (pure value) (Ends spent known) :=
  .returned holds

theorem follows_thrown {error : SupervisorError} (different : error ≠ .fuelSpent) :
    discipline.Follows me fact (thrown error) (Ends spent known) :=
  .thrown fun _ _ _ same => absurd same different

theorem follows_call {op : Op} {rest : Answer op → Program Value'}
    (learned : Answer op → Machine → Prop) (stable : discipline.Stable me fact)
    (allowed : ∀ machine, discipline.Invariant machine → fact machine →
      discipline.Allowed me op machine)
    (learns : ∀ given machine, discipline.Invariant machine → fact machine →
      learned (handle me op given machine).1 (handle me op given machine).2)
    (second : ∀ answer, discipline.Follows me (learned answer) (rest answer)
      (Ends spent known')) :
    discipline.Follows me fact (call op >>= rest) (Ends spent known') :=
  .perform learned (fun _ _ holds => holds) stable allowed learns second

theorem follows_free [performing : Performing (discipline.FreeTo me) process]
    (lasting : discipline.Lasting fact)
    (holds : ∀ value machine, discipline.Invariant machine → fact machine → known value machine) :
    discipline.Follows me fact process (Ends spent known) := by
  apply Discipline.Follows.strengthen (Discipline.Follows.of_performs_lasting performing.performs
    (fun _ machine free => free machine) lasting)
  rintro result machine orderly ⟨holdsFact, unspent⟩
  cases result with
  | ok value => exact holds value machine orderly holdsFact
  | error error =>
    intro same
    exact absurd (congrArg Except.error same) unspent

theorem follows_after [Performing (discipline.FreeTo me) process]
    (lasting : discipline.Lasting fact)
    (second : ∀ value, discipline.Follows me fact (rest value) (Ends spent known')) :
    discipline.Follows me fact (process >>= rest) (Ends spent known') := by
  apply follows_bind (follows_free lasting _) second
  intro _ _ _ holds
  exact holds

theorem follows_attempt {rest : Except SupervisorError Value → Program Value'}
    (first : discipline.Follows me fact process (Ends spent known))
    (second : ∀ value, discipline.Follows me (known value) (rest (.ok value))
      (Ends spent known'))
    (caught : ∀ error, discipline.Follows me
      (fun machine => error = .fuelSpent → spent machine) (rest (.error error))
      (Ends spent known')) :
    discipline.Follows me fact (process.attempt >>= rest) (Ends spent known') := by
  apply first.attempt.bind
  · intro result
    cases result with
    | ok value =>
      apply (second value).weaken
      rintro machine _ ⟨_, same, ends⟩
      cases same
      exact ends
    | error error =>
      apply (caught error).weaken
      rintro machine _ ⟨_, same, ends⟩
      cases same
      exact ends
  · rintro error machine _ ⟨_, same, _⟩
    cases same

theorem follows_readJson [reads : Reads (discipline.FreeTo me)] {rest : JsValue → Program Value'}
    (stable : discipline.Stable me fact)
    (second : ∀ value, discipline.Follows me
      (fun machine => fact machine ∧ machine.get? directory name = some value) (rest value)
      (Ends spent known')) :
    discipline.Follows me fact (readJson directory name >>= rest) (Ends spent known') := by
  change discipline.Follows me fact (perform (.readFile directory name) fun stored =>
    (present stored).bind rest) _
  apply Discipline.Follows.perform (fun stored machine => fact machine ∧
    ∀ value, stored = some value → machine.get? directory name = some value)
  · intro _ _ holds
    exact holds
  · exact stable
  · intro machine _ _
    exact reads.reads (.readFile directory name) trivial machine
  · intro given machine _ holds
    exact ⟨holds, fun _ => id⟩
  · intro stored
    cases stored with
    | none => exact follows_thrown nofun
    | some value =>
      apply (second value).weaken
      intro machine _ known
      exact ⟨known.1, known.2 value rfl⟩

theorem follows_paths {rest : JsString → Program Value'}
    (second : discipline.Follows me fact (rest (fileName attemptId)) (Ends spent known')) :
    discipline.Follows me fact (ofExcept (paths attemptId) >>= rest)
      (Ends spent known') := by
  unfold paths
  split
  · exact second
  · exact follows_thrown nofun

theorem follows_readOf [Reads (discipline.FreeTo me)] {rest : JsValue → Program Value'}
    (stable : discipline.Stable me fact)
    (second : ∀ value, discipline.Follows me
      (fun machine => fact machine ∧ machine.get? directory (fileName attemptId) = some value)
      (rest value) (Ends spent known')) :
    discipline.Follows me fact (readOf directory attemptId >>= rest)
      (Ends spent known') := by
  simp only [readOf, bind_eq_bind, Process.bind_assoc]
  apply follows_paths
  exact follows_readJson stable second

theorem follows_readOrder [Reads (discipline.FreeTo me)] {rest : JsValue → Program Value'}
    (stable : discipline.Stable me fact)
    (second : ∀ order, discipline.Follows me
      (fun machine => fact machine ∧ Bound machine attemptId order) (rest order)
      (Ends spent known')) :
    discipline.Follows me fact (readOrder attemptId >>= rest) (Ends spent known') := by
  simp only [readOrder, bind_eq_bind, Process.bind_assoc]
  apply follows_readOf stable
  intro stored
  split
  · apply (second _).weaken
    intro machine _ known
    exact ⟨known.1, stored, known.2, rfl⟩
  · exact follows_thrown nofun

theorem follows_check {condition : Bool} {message : JsString} {rest : Unit → Program Value'}
    (second : condition = true → discipline.Follows me fact (rest ())
      (Ends spent known')) :
    discipline.Follows me fact (check condition message >>= rest) (Ends spent known') := by
  unfold check
  split
  case isTrue holds => exact second holds
  case isFalse => exact follows_thrown nofun

end StudentHub.Supervisor
