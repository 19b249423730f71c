/-!
# Processes

A process performs operations of a signature and at last returns a value or throws
an error. What an operation does is given from outside: a handler runs a process on
a state, and a translation carries it out by operations of another signature.
-/

namespace Concurrency

/-- A process whose operation `op` is answered by a value of type `Answer op`. -/
inductive Process {Op : Type} (Answer : Op → Type) (Error Value : Type)
  | returned (value : Value)
  | thrown (error : Error)
  | perform (op : Op) (next : Answer op → Process Answer Error Value)

namespace Process

variable {Op Op' : Type} {Answer : Op → Type} {Answer' : Op' → Type} {Error Value Value' : Type}

def bind (process : Process Answer Error Value) (rest : Value → Process Answer Error Value') :
    Process Answer Error Value' :=
  match process with
  | returned value => rest value
  | thrown error => thrown error
  | perform op next => perform op fun answer => (next answer).bind rest

instance : Monad (Process Answer Error) where
  pure := returned
  bind := bind

def call (op : Op) : Process Answer Error (Answer op) :=
  perform op returned

def ofExcept : Except Error Value → Process Answer Error Value
  | .ok value => returned value
  | .error error => thrown error

def translate (carryOut : (op : Op) → Process Answer' Error (Answer op)) :
    Process Answer Error Value → Process Answer' Error Value
  | returned value => returned value
  | thrown error => thrown error
  | perform op next => (carryOut op).bind fun answer => translate carryOut (next answer)

def run {State : Type} (handle : (op : Op) → State → Except Error (Answer op) × State) :
    Process Answer Error Value → State → Except Error Value × State
  | returned value, state => (.ok value, state)
  | thrown error, state => (.error error, state)
  | perform op next, state =>
      match handle op state with
      | (.ok answer, after) => run handle (next answer) after
      | (.error error, after) => (.error error, after)

@[simp]
theorem pure_eq_returned (value : Value) :
    (pure value : Process Answer Error Value) = returned value := rfl

@[simp]
theorem bind_eq_bind (process : Process Answer Error Value)
    (rest : Value → Process Answer Error Value') : (process >>= rest) = process.bind rest := rfl

@[simp]
theorem bind_returned (value : Value) (rest : Value → Process Answer Error Value') :
    (returned value : Process Answer Error Value).bind rest = rest value := rfl

@[simp]
theorem bind_thrown (error : Error) (rest : Value → Process Answer Error Value') :
    (thrown error : Process Answer Error Value).bind rest = thrown error := rfl

@[simp]
theorem bind_call (op : Op) (rest : Answer op → Process Answer Error Value') :
    (call op : Process Answer Error (Answer op)).bind rest = perform op rest := rfl

@[simp]
theorem bind_perform (op : Op) (next : Answer op → Process Answer Error Value)
    (rest : Value → Process Answer Error Value') :
    (perform op next).bind rest = perform op fun answer => (next answer).bind rest := rfl

theorem bind_assoc {Value'' : Type} (process : Process Answer Error Value)
    (rest : Value → Process Answer Error Value') (last : Value' → Process Answer Error Value'') :
    (process.bind rest).bind last = process.bind fun value => (rest value).bind last := by
  induction process with
  | returned value => rfl
  | thrown error => rfl
  | perform op next ih =>
    simp only [bind_perform]
    congr 1
    funext answer
    exact ih answer

@[simp]
theorem ofExcept_ok (value : Value) :
    (ofExcept (.ok value) : Process Answer Error Value) = returned value := rfl

@[simp]
theorem ofExcept_error (error : Error) :
    (ofExcept (.error error) : Process Answer Error Value) = thrown error := rfl

theorem translate_ofExcept_bind (carryOut : (op : Op) → Process Answer' Error (Answer op))
    (computed : Except Error Value) (rest : Value → Process Answer Error Value') :
    translate carryOut ((ofExcept computed).bind rest) =
      (ofExcept computed).bind fun value => translate carryOut (rest value) := by
  cases computed <;> rfl

theorem run_bind {State : Type} (handle : (op : Op) → State → Except Error (Answer op) × State)
    (process : Process Answer Error Value) (rest : Value → Process Answer Error Value')
    (state : State) :
    (process.bind rest).run handle state =
      match process.run handle state with
      | (.ok value, after) => (rest value).run handle after
      | (.error error, after) => (.error error, after) := by
  induction process generalizing state with
  | returned value => rfl
  | thrown error => rfl
  | perform op next ih =>
    simp only [bind_perform, run]
    split
    · exact ih _ _
    · rfl

section Returns

variable {State : Type} {handle : (op : Op) → State → Except Error (Answer op) × State}
  {state final : State}

theorem run_perform_ok {op : Op} {next : Answer op → Process Answer Error Value} {result : Value}
    (ran : (perform op next).run handle state = (.ok result, final)) :
    ∃ answer after, handle op state = (.ok answer, after) ∧
      (next answer).run handle after = (.ok result, final) := by
  rw [run] at ran
  split at ran
  · rename_i answer after answered
    exact ⟨answer, after, answered, ran⟩
  · simp at ran

theorem run_ofExcept_bind_ok {computed : Except Error Value}
    {rest : Value → Process Answer Error Value'} {result : Value'}
    (ran : ((ofExcept computed).bind rest).run handle state = (.ok result, final)) :
    ∃ value, computed = .ok value ∧ (rest value).run handle state = (.ok result, final) := by
  cases computed with
  | ok value => exact ⟨value, rfl, ran⟩
  | error error => simp [run] at ran

theorem run_returned_ok {value result : Value}
    (ran : (returned value : Process Answer Error Value).run handle state = (.ok result, final)) :
    value = result ∧ state = final := by
  simpa [run] using ran

end Returns

end Process

end Concurrency
