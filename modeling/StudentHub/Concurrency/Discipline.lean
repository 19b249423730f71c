import StudentHub.Concurrency.Process
import Mathlib.Data.Nat.Notation
import Mathlib.Tactic.SplitIfs

/-!
# Tasks that keep to a discipline

Tasks work on one state, each an operation at a time and in any order, and a task may
die before any of its operations. A discipline says which operations a task may perform
in a state; what it allows keeps an invariant. A task follows the discipline when each
of its operations is allowed by what the task knows then, and a task knows what it has
learned from its own operations as long as nothing allowed to other tasks undoes it.
When all tasks follow the discipline, the invariant holds in every state of every run.
-/

namespace Concurrency

universe u

abbrev Handler {Op : Type} (Answer : Op → Type) (Given State : Type) :=
  ℕ → (op : Op) → Given → State → Answer op × State

structure Discipline {Op : Type} {Answer : Op → Type} {Given State : Type}
    (handle : Handler Answer Given State) where
  Allowed : ℕ → Op → State → Prop
  Invariant : State → Prop
  keeps : ∀ me op given state, Invariant state → Allowed me op state →
    Invariant (handle me op given state).2

variable {Op : Type} {Answer : Op → Type} {Error Value Value' Given State Task : Type}

namespace Process

/-- Catch what a process throws. -/
def attempt : Process Answer Error Value → Process Answer Error (Except Error Value)
  | returned value => returned (Except.ok value)
  | thrown error => returned (Except.error error)
  | perform op next => perform op fun answer => (next answer).attempt

theorem attempt_bind (process : Process Answer Error Value)
    (rest : Value → Process Answer Error Value') :
    (process.bind rest).attempt = process.attempt.bind fun result =>
      match result with
      | .ok value => (rest value).attempt
      | .error error => returned (.error error) := by
  induction process with
  | returned value => rfl
  | thrown error => rfl
  | perform op next ih =>
    simp only [bind_perform, attempt]
    congr 1
    funext answer
    exact ih answer

theorem attempt_attempt (process : Process Answer Error Value) :
    process.attempt.attempt = process.attempt.bind fun result => returned (Except.ok result) := by
  induction process with
  | returned value => rfl
  | thrown error => rfl
  | perform op next ih =>
    simp only [attempt, bind_perform]
    congr 1
    funext answer
    exact ih answer

inductive Performs (kind : Op → Prop) {Value : Type} (ends : Except Error Value → Prop) :
    Process Answer Error Value → Prop
  | returned {value : Value} (isEnd : ends (.ok value)) : Performs kind ends (returned value)
  | thrown {error : Error} (isEnd : ends (.error error)) : Performs kind ends (thrown error)
  | perform {op : Op} {next : Answer op → Process Answer Error Value} (isKind : kind op)
      (rest : ∀ answer, Performs kind ends (next answer)) : Performs kind ends (perform op next)

section Performs

variable {kind : Op → Prop} {mid : Except Error Value → Prop} {ends : Except Error Value' → Prop}

theorem Performs.bind {process : Process Answer Error Value}
    {rest : Value → Process Answer Error Value'} (first : process.Performs kind mid)
    (second : ∀ value, mid (.ok value) → (rest value).Performs kind ends)
    (fails : ∀ error, mid (.error error) → ends (.error error)) :
    (process.bind rest).Performs kind ends := by
  induction first with
  | returned isEnd => exact second _ isEnd
  | thrown isEnd => exact .thrown (fails _ isEnd)
  | perform isKind _ ih => exact .perform isKind ih

theorem Performs.attempt {process : Process Answer Error Value}
    {ends : Except Error (Except Error Value) → Prop} (performs : process.Performs kind mid)
    (caught : ∀ result, mid result → ends (.ok result)) : process.attempt.Performs kind ends := by
  induction performs with
  | returned isEnd => exact .returned (caught _ isEnd)
  | thrown isEnd => exact .returned (caught _ isEnd)
  | perform isKind _ ih => exact .perform isKind ih

end Performs

end Process

open Process

variable {handle : Handler Answer Given State}

namespace Discipline

def StableUnder (discipline : Discipline handle) (task : ℕ → Prop) (fact : State → Prop) : Prop :=
  ∀ me op given state, task me → discipline.Invariant state → discipline.Allowed me op state →
    fact state → fact (handle me op given state).2

abbrev Stable (discipline : Discipline handle) (me : ℕ) (fact : State → Prop) : Prop :=
  discipline.StableUnder (· ≠ me) fact

abbrev Lasting (discipline : Discipline handle) (fact : State → Prop) : Prop :=
  discipline.StableUnder (fun _ => True) fact

variable {discipline : Discipline handle} {task : ℕ → Prop} {me : ℕ}
variable {fact other known : State → Prop}

def Free (discipline : Discipline handle) (op : Op) : Prop :=
  ∀ me state, discipline.Allowed me op state

def FreeTo (discipline : Discipline handle) (me : ℕ) (op : Op) : Prop :=
  ∀ state, discipline.Allowed me op state

theorem StableUnder.weaken {fewer : ℕ → Prop} (stable : discipline.StableUnder task fact)
    (includes : ∀ me, fewer me → task me) : discipline.StableUnder fewer fact := by
  intro me op given state isTask
  exact stable me op given state (includes me isTask)

theorem Lasting.stable (lasting : discipline.Lasting fact) : discipline.Stable me fact :=
  StableUnder.weaken lasting fun _ _ => trivial

theorem StableUnder.and (left : discipline.StableUnder task fact)
    (right : discipline.StableUnder task other) :
    discipline.StableUnder task fun state => fact state ∧ other state := by
  rintro me op given state isTask invariant allowed ⟨holds, holdsToo⟩
  exact ⟨left me op given state isTask invariant allowed holds,
    right me op given state isTask invariant allowed holdsToo⟩

theorem StableUnder.const (always : Prop) : discipline.StableUnder task fun _ => always := by
  intro _ _ _ _ _ _ _ holds
  exact holds

/-- From a state with the fact on, each operation of the process is allowed by what is known
then, and what the process answers at last comes with the postcondition. -/
inductive Follows (discipline : Discipline handle) (me : ℕ) {Value : Type} :
    (State → Prop) → Process Answer Error Value → (Except Error Value → State → Prop) → Prop
  | returned {fact : State → Prop} {value : Value} {post : Except Error Value → State → Prop}
      (holds : ∀ state, discipline.Invariant state → fact state → post (.ok value) state) :
      Follows discipline me fact (returned value) post
  | thrown {fact : State → Prop} {error : Error} {post : Except Error Value → State → Prop}
      (holds : ∀ state, discipline.Invariant state → fact state → post (.error error) state) :
      Follows discipline me fact (thrown error) post
  | perform {fact known : State → Prop} {op : Op} {next : Answer op → Process Answer Error Value}
      {post : Except Error Value → State → Prop} (learned : Answer op → State → Prop)
      (knows : ∀ state, discipline.Invariant state → fact state → known state)
      (stable : discipline.Stable me known)
      (allowed : ∀ state, discipline.Invariant state → known state →
        discipline.Allowed me op state)
      (learns : ∀ given state, discipline.Invariant state → known state →
        learned (handle me op given state).1 (handle me op given state).2)
      (rest : ∀ answer, Follows discipline me (learned answer) (next answer) post) :
      Follows discipline me fact (perform op next) post

section Rules

variable {post mid : Except Error Value → State → Prop} {process : Process Answer Error Value}

theorem Follows.weaken (follows : discipline.Follows me known process post)
    (knows : ∀ state, discipline.Invariant state → fact state → known state) :
    discipline.Follows me fact process post := by
  cases follows with
  | returned holds =>
    apply Follows.returned
    intro state invariant holdsFact
    exact holds state invariant (knows state invariant holdsFact)
  | thrown holds =>
    apply Follows.thrown
    intro state invariant holdsFact
    exact holds state invariant (knows state invariant holdsFact)
  | perform learned knowsMore stable allowed learns rest =>
    refine .perform learned ?_ stable allowed learns rest
    intro state invariant holdsFact
    exact knowsMore state invariant (knows state invariant holdsFact)

theorem Follows.strengthen (follows : discipline.Follows me fact process mid)
    (implies : ∀ result state, discipline.Invariant state → mid result state → post result state) :
    discipline.Follows me fact process post := by
  induction follows with
  | returned holds =>
    apply Follows.returned
    intro state invariant holdsFact
    exact implies _ state invariant (holds state invariant holdsFact)
  | thrown holds =>
    apply Follows.thrown
    intro state invariant holdsFact
    exact implies _ state invariant (holds state invariant holdsFact)
  | perform learned knows stable allowed learns _ ih =>
    exact .perform learned knows stable allowed learns fun answer => ih answer implies

theorem Follows.bind {post : Except Error Value' → State → Prop}
    {rest : Value → Process Answer Error Value'}
    (first : discipline.Follows me fact process mid)
    (second : ∀ value, discipline.Follows me (mid (.ok value)) (rest value) post)
    (fails : ∀ error state, discipline.Invariant state → mid (.error error) state →
      post (.error error) state) :
    discipline.Follows me fact (process.bind rest) post := by
  induction first with
  | returned holds => exact (second _).weaken holds
  | thrown holds =>
    apply Follows.thrown
    intro state invariant holdsFact
    exact fails _ state invariant (holds state invariant holdsFact)
  | perform learned knows stable allowed learns _ ih =>
    exact .perform learned knows stable allowed learns fun answer => ih answer second fails

theorem Follows.absurd (never : ∀ state, discipline.Invariant state → ¬fact state)
    (process : Process Answer Error Value) : discipline.Follows me fact process post := by
  have general : discipline.Follows me (fun _ => False) process post := by
    induction process with
    | returned value => exact .returned fun _ _ => False.elim
    | thrown error => exact .thrown fun _ _ => False.elim
    | perform op next ih =>
      refine .perform (fun _ _ => False) (fun _ _ => id) ?_ ?_ ?_ ih
      · intro _ _ _ _ _ _ _ holds
        exact holds
      · intro _ _ holds
        exact holds.elim
      · intro _ _ _ holds
        exact holds.elim
  exact general.weaken never

theorem Follows.of_implied {always : Prop}
    (implied : ∀ state, discipline.Invariant state → fact state → always)
    (follows : always → discipline.Follows me fact process post) :
    discipline.Follows me fact process post := by
  by_cases holds : always
  · exact follows holds
  · apply Follows.absurd
    intro state invariant holdsFact
    exact holds (implied state invariant holdsFact)

theorem Follows.attempt (follows : discipline.Follows me fact process mid) :
    discipline.Follows me fact process.attempt
      (fun result state => ∃ caught, result = .ok caught ∧ mid caught state) := by
  induction follows with
  | returned holds =>
    apply Follows.returned
    intro state invariant holdsFact
    exact ⟨_, rfl, holds state invariant holdsFact⟩
  | thrown holds =>
    apply Follows.returned
    intro state invariant holdsFact
    exact ⟨_, rfl, holds state invariant holdsFact⟩
  | perform learned knows stable allowed learns _ ih =>
    exact .perform learned knows stable allowed learns ih

theorem Follows.of_performs {kind : Op → Prop} {ends : Except Error Value → Prop}
    (performs : process.Performs kind ends)
    (free : ∀ op state, kind op → discipline.Allowed me op state)
    (stable : discipline.Stable me fact)
    (own : ∀ op given state, kind op → discipline.Invariant state → fact state →
      fact (handle me op given state).2) :
    discipline.Follows me fact process (fun result state => fact state ∧ ends result) := by
  induction performs with
  | returned isEnd =>
    apply Follows.returned
    intro state _ holds
    exact ⟨holds, isEnd⟩
  | thrown isEnd =>
    apply Follows.thrown
    intro state _ holds
    exact ⟨holds, isEnd⟩
  | perform isKind _ ih =>
    refine .perform (fun _ => fact) (fun _ _ holds => holds) stable ?_ ?_ ih
    · intro state _ _
      exact free _ state isKind
    · intro given state invariant holds
      exact own _ given state isKind invariant holds

theorem Follows.of_performs_lasting {kind : Op → Prop} {ends : Except Error Value → Prop}
    (performs : process.Performs kind ends)
    (free : ∀ op state, kind op → discipline.Allowed me op state)
    (lasting : discipline.Lasting fact) :
    discipline.Follows me fact process (fun result state => fact state ∧ ends result) := by
  apply Follows.of_performs performs free lasting.stable
  intro op given state isKind invariant holds
  exact lasting me op given state trivial invariant (free op state isKind) holds

theorem Follows.call {op : Op} {post : Except Error (Answer op) → State → Prop}
    (stable : discipline.Stable me fact)
    (allowed : ∀ state, discipline.Invariant state → fact state →
      discipline.Allowed me op state)
    (learns : ∀ given state, discipline.Invariant state → fact state →
      post (.ok (handle me op given state).1) (handle me op given state).2) :
    discipline.Follows me fact (call op) post := by
  apply Follows.perform (fun answer => post (.ok answer)) (fun _ _ holds => holds) stable allowed
    learns
  intro answer
  apply Follows.returned
  intro _ _ holds
  exact holds

end Rules

end Discipline

structure TaskWorld {Op : Type} (Answer : Op → Type) (Error Value State : Type) where
  state : State
  tasks : List (Option (Process Answer Error Value))

inductive TaskEvent (Task Given : Type)
  | start (task : Task)
  | step (id : ℕ) (given : Given)
  | die (id : ℕ)

namespace TaskWorld

def initial (state : State) : TaskWorld Answer Error Value State := ⟨state, []⟩

def next (handle : Handler Answer Given State) (program : Task → Process Answer Error Value)
    (world : TaskWorld Answer Error Value State) :
    TaskEvent Task Given → TaskWorld Answer Error Value State
  | .start task => { world with tasks := world.tasks ++ [some (program task)] }
  | .step id given =>
      match world.tasks[id]? with
      | some (some (.perform op rest)) =>
          let (answer, state) := handle id op given world.state
          { state, tasks := world.tasks.set id (some (rest answer)) }
      | _ => world
  | .die id => { world with tasks := world.tasks.set id none }

def run (handle : Handler Answer Given State) (program : Task → Process Answer Error Value)
    (world : TaskWorld Answer Error Value State) (events : List (TaskEvent Task Given)) :
    TaskWorld Answer Error Value State :=
  events.foldl (next handle program) world

/-- The task is at a point where it follows the discipline, with something stable that holds. -/
def Behaves (discipline : Discipline handle) (post : Except Error Value → State → Prop)
    (id : ℕ) (process : Process Answer Error Value) (state : State) : Prop :=
  ∃ known, known state ∧ discipline.Stable id known ∧ discipline.Follows id known process post

structure Sound (discipline : Discipline handle) (post : Except Error Value → State → Prop)
    (world : TaskWorld Answer Error Value State) : Prop where
  invariant : discipline.Invariant world.state
  behaves : ∀ id process, world.tasks[id]? = some (some process) →
    Behaves discipline post id process world.state

/-- The invariant holds and every living task behaves, with a postcondition of its own. -/
structure SoundEach (discipline : Discipline handle) (posts : ℕ → Except Error Value → State → Prop)
    (world : TaskWorld Answer Error Value State) : Prop where
  invariant : discipline.Invariant world.state
  behaves : ∀ id process, world.tasks[id]? = some (some process) →
    Behaves discipline (posts id) id process world.state

variable {discipline : Discipline handle} {post : Except Error Value → State → Prop}
variable {process : Process Answer Error Value} {id : ℕ} {state : State}

theorem behaves_of_follows {fact : State → Prop}
    (stable : ∀ result, discipline.Stable id (post result))
    (follows : discipline.Follows id fact process post)
    (invariant : discipline.Invariant state) (holds : fact state) :
    Behaves discipline post id process state := by
  cases follows with
  | returned holdsPost =>
    exact ⟨post _, holdsPost state invariant holds, stable _, .returned fun _ _ holds => holds⟩
  | thrown holdsPost =>
    exact ⟨post _, holdsPost state invariant holds, stable _, .thrown fun _ _ holds => holds⟩
  | perform learned knows isStable allowed learns rest =>
    exact ⟨_, knows state invariant holds, isStable,
      .perform learned (fun _ _ holds => holds) isStable allowed learns rest⟩

theorem Behaves.perform {op : Op} {rest : Answer op → Process Answer Error Value}
    (behaves : Behaves discipline post id (.perform op rest) state)
    (stable : ∀ result, discipline.Stable id (post result))
    (invariant : discipline.Invariant state) (given : Given) :
    discipline.Allowed id op state ∧ Behaves discipline post id
      (rest (handle id op given state).1) (handle id op given state).2 := by
  rcases behaves with ⟨fact, holds, -, follows⟩
  cases follows with
  | perform learned knows _ allowed learns others =>
    have holdsKnown := knows state invariant holds
    have isAllowed := allowed state invariant holdsKnown
    exact ⟨isAllowed, behaves_of_follows stable (others _)
      (discipline.keeps id op given state invariant isAllowed)
      (learns given state invariant holdsKnown)⟩

section SoundEach

variable {posts : ℕ → Except Error Value → State → Prop}
variable {world : TaskWorld Answer Error Value State}

theorem SoundEach.next (sound : SoundEach discipline posts world)
    (stable : ∀ me result, discipline.Stable me (posts me result))
    {program : Task → Process Answer Error Value} {event : TaskEvent Task Given}
    (follows : ∀ me task, event = .start task →
      discipline.Follows me (fun _ => True) (program task) (posts me)) :
    SoundEach discipline posts (world.next handle program event) := by
  cases event with
  | start task =>
    refine ⟨sound.invariant, ?_⟩
    intro id process found
    simp only [TaskWorld.next] at found
    rcases Nat.lt_or_ge id world.tasks.length with old | fresh
    · rw [List.getElem?_append_left old] at found
      exact sound.behaves id process found
    · rw [List.getElem?_append_right fresh, List.getElem?_singleton] at found
      split_ifs at found
      cases Option.some.inj (Option.some.inj found)
      exact behaves_of_follows (stable id) (follows id task rfl) sound.invariant trivial
  | step id given =>
    simp only [TaskWorld.next]
    split
    case h_1 op rest found =>
      rcases (sound.behaves id _ found).perform (stable id) sound.invariant given with
        ⟨allowed, behaves⟩
      refine ⟨discipline.keeps id op given world.state sound.invariant allowed, ?_⟩
      intro other process isTask
      by_cases same : other = id
      · subst same
        have inside : other < world.tasks.length := by
          rcases List.getElem?_eq_some_iff.mp found with ⟨inside, -⟩
          exact inside
        rw [List.getElem?_set_self inside, Option.some.injEq, Option.some.injEq] at isTask
        rw [← isTask]
        exact behaves
      · rw [List.getElem?_set_ne (Ne.symm same)] at isTask
        rcases sound.behaves other process isTask with ⟨fact, holds, isStable, others⟩
        exact ⟨fact, isStable id op given world.state (Ne.symm same) sound.invariant allowed holds,
          isStable, others⟩
    case h_2 => exact sound
  | die id =>
    refine ⟨sound.invariant, ?_⟩
    intro other process found
    simp only [TaskWorld.next] at found
    by_cases same : id = other
    · subst same
      rw [List.getElem?_set, if_pos rfl] at found
      split_ifs at found
      cases found
    · rw [List.getElem?_set_ne same] at found
      exact sound.behaves other process found

theorem SoundEach.run (sound : SoundEach discipline posts world)
    (stable : ∀ me result, discipline.Stable me (posts me result))
    {program : Task → Process Answer Error Value} {events : List (TaskEvent Task Given)}
    (follows : ∀ me task, .start task ∈ events →
      discipline.Follows me (fun _ => True) (program task) (posts me)) :
    SoundEach discipline posts (world.run handle program events) := by
  induction events generalizing world with
  | nil => exact sound
  | cons event rest ih =>
    have next : SoundEach discipline posts (world.next handle program event) := by
      apply sound.next stable
      intro me task isStart
      exact follows me task (isStart ▸ List.mem_cons_self)
    apply ih next
    intro me task started
    exact follows me task (List.mem_cons_of_mem _ started)

theorem SoundEach.initial (invariant : discipline.Invariant state) :
    SoundEach discipline posts (initial state : TaskWorld Answer Error Value State) := by
  refine ⟨invariant, ?_⟩
  intro id process found
  simp [TaskWorld.initial] at found

end SoundEach

theorem sound_iff {world : TaskWorld Answer Error Value State} :
    Sound discipline post world ↔ SoundEach discipline (fun _ => post) world :=
  ⟨fun sound => ⟨sound.invariant, sound.behaves⟩, fun sound => ⟨sound.invariant, sound.behaves⟩⟩

theorem Sound.next {world : TaskWorld Answer Error Value State}
    (sound : Sound discipline post world) (lasting : ∀ result, discipline.Lasting (post result))
    {program : Task → Process Answer Error Value} {event : TaskEvent Task Given}
    (follows : ∀ me task, event = .start task →
      discipline.Follows me (fun _ => True) (program task) post) :
    Sound discipline post (world.next handle program event) :=
  sound_iff.mpr ((sound_iff.mp sound).next (fun _ result => (lasting result).stable) follows)

theorem Sound.run {world : TaskWorld Answer Error Value State}
    (sound : Sound discipline post world) (lasting : ∀ result, discipline.Lasting (post result))
    {program : Task → Process Answer Error Value} {events : List (TaskEvent Task Given)}
    (follows : ∀ me task, .start task ∈ events →
      discipline.Follows me (fun _ => True) (program task) post) :
    Sound discipline post (world.run handle program events) :=
  sound_iff.mpr ((sound_iff.mp sound).run (fun _ result => (lasting result).stable) follows)

theorem Sound.initial (invariant : discipline.Invariant state) :
    Sound discipline post (initial state : TaskWorld Answer Error Value State) :=
  sound_iff.mpr (SoundEach.initial invariant)

theorem Sound.lasting_run {world : TaskWorld Answer Error Value State} {fact : State → Prop}
    (sound : Sound discipline post world) (lasting : ∀ result, discipline.Lasting (post result))
    {program : Task → Process Answer Error Value} {events : List (TaskEvent Task Given)}
    (follows : ∀ me task, .start task ∈ events →
      discipline.Follows me (fun _ => True) (program task) post)
    (stays : discipline.Lasting fact) (holds : fact world.state) :
    fact (world.run handle program events).state := by
  induction events generalizing world with
  | nil => exact holds
  | cons event rest ih =>
    have next : Sound discipline post (world.next handle program event) := by
      apply sound.next lasting
      intro me task isStart
      exact follows me task (isStart ▸ List.mem_cons_self)
    apply ih next fun me task started => follows me task (List.mem_cons_of_mem _ started)
    cases event with
    | start task => exact holds
    | die id => exact holds
    | step id given =>
      simp only [TaskWorld.next]
      split
      case h_1 op others found =>
        have stable : ∀ result, discipline.Stable id (post result) := fun result =>
          (lasting result).stable
        rcases (sound.behaves id _ found).perform stable sound.invariant given with ⟨allowed, -⟩
        exact stays id op given world.state trivial sound.invariant allowed holds
      case h_2 => exact holds

end TaskWorld

end Concurrency

/-!
## Tasks that run alone

A call is a task that performs its operations to its end while no other task does anything.
What calls do one after another they do in a run of tasks too. A discipline for a task that
is alone need not care for the others, so there every fact is stable.
-/

namespace Concurrency

variable {Op : Type} {Answer : Op → Type} {Error Value Given State Task : Type}
variable {handle : Handler Answer Given State}

open Process

namespace Process

/-- How a process comes to its end, with what the outside gives to its operations in turn. -/
def alone (handle : Handler Answer Given State) (me : ℕ) :
    Process Answer Error Value → (ℕ → Given) → State → Except Error Value × State
  | returned value, _, state => (.ok value, state)
  | thrown error, _, state => (.error error, state)
  | perform op rest, given, state =>
      let (answer, after) := handle me op (given 0) state
      alone handle me (rest answer) (fun index => given (index + 1)) after

end Process

structure Call (Task Given : Type) where
  task : Task
  given : ℕ → Given

namespace TaskWorld

def call (handle : Handler Answer Given State) (program : Task → Process Answer Error Value)
    (world : TaskWorld Answer Error Value State) (call : Call Task Given) :
    TaskWorld Answer Error Value State :=
  let (result, state) := (program call.task).alone handle world.tasks.length call.given world.state
  ⟨state, world.tasks ++ [some (ofExcept result)]⟩

variable {program : Task → Process Answer Error Value}

end TaskWorld

namespace Discipline

variable {discipline : Discipline handle} {me : ℕ} {fact frame : State → Prop}
variable {process : Process Answer Error Value} {post : Except Error Value → State → Prop}
variable {state : State}

theorem Follows.alone (follows : discipline.Follows me fact process post) (given : ℕ → Given)
    (invariant : discipline.Invariant state) (holds : fact state) :
    discipline.Invariant (process.alone handle me given state).2 ∧
      post (process.alone handle me given state).1 (process.alone handle me given state).2 := by
  induction follows generalizing given state with
  | returned holdsPost => exact ⟨invariant, holdsPost state invariant holds⟩
  | thrown holdsPost => exact ⟨invariant, holdsPost state invariant holds⟩
  | perform learned knows stable allowed learns _ ih =>
    have known := knows state invariant holds
    have isAllowed := allowed state invariant known
    exact ih _ _ (discipline.keeps _ _ (given 0) state invariant isAllowed)
      (learns (given 0) state invariant known)

theorem Follows.of_stricter (stricter : Discipline handle)
    (same : ∀ state, discipline.Invariant state → stricter.Invariant state)
    (allows : ∀ op state, stricter.Allowed me op state → discipline.Allowed me op state)
    (stable : ∀ known, discipline.Stable me known)
    (leaves : ∀ op given state, stricter.Allowed me op state → frame state →
      frame (handle me op given state).2)
    (follows : stricter.Follows me fact process post) :
    discipline.Follows me (fun state => fact state ∧ frame state) process
      fun result state => post result state ∧ frame state := by
  induction follows with
  | returned holds =>
    apply Follows.returned
    intro state invariant known
    exact ⟨holds state (same state invariant) known.1, known.2⟩
  | thrown holds =>
    apply Follows.thrown
    intro state invariant known
    exact ⟨holds state (same state invariant) known.1, known.2⟩
  | @perform _ known _ _ _ learned knows _ allowed learns _ ih =>
    refine .perform (fun answer state => learned answer state ∧ frame state) ?_
      (stable fun state => known state ∧ frame state) ?_ ?_ ih
    · intro state invariant known
      exact ⟨knows state (same state invariant) known.1, known.2⟩
    · intro state invariant known
      exact allows _ state (allowed state (same state invariant) known.1)
    · intro given state invariant known
      exact ⟨learns given state (same state invariant) known.1,
        leaves _ given state (allowed state (same state invariant) known.1) known.2⟩

end Discipline

end Concurrency
