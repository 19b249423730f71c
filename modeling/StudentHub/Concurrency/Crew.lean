import StudentHub.Concurrency.Discipline

/-!
# Tasks that are judged together

Some conditions on a step of one task are about the other tasks that are still alive. Here a
step is permitted in a whole world, so that what is shown of a run can count on what every
living task may still do; tasks that have died do nothing any more.
-/

namespace Concurrency

variable {Op : Type} {Answer : Op → Type} {Error Value Given State Task : Type}

open Process

namespace TaskWorld

def left? (world : TaskWorld Answer Error Value State) (id : ℕ) :
    Option (Process Answer Error Value) := (world.tasks[id]?).join

theorem left?_eq_some {world : TaskWorld Answer Error Value State} {id : ℕ}
    {process : Process Answer Error Value} :
    world.left? id = some process ↔ world.tasks[id]? = some (some process) :=
  Option.join_eq_some_iff

variable {world : TaskWorld Answer Error Value State} {id other : ℕ}
  {process : Process Answer Error Value}

theorem left?_set (state : State) {left : Option (Process Answer Error Value)}
    (found : world.left? id = some process) :
    (⟨state, world.tasks.set id left⟩ : TaskWorld Answer Error Value State).left? other =
      if other = id then left else world.left? other := by
  have inside := (List.getElem?_eq_some_iff.mp (left?_eq_some.mp found)).1
  simp only [left?, List.getElem?_set]
  by_cases same : other = id
  · subst same
    simp [inside]
  · simp [same, Ne.symm same]

def nextOp? (world : TaskWorld Answer Error Value State) (id : ℕ) : Option Op :=
  match world.left? id with
  | some (.perform op _) => some op
  | _ => none

theorem nextOp?_of_left? {op : Op} {rest : Answer op → Process Answer Error Value}
    (left : world.left? id = some (perform op rest)) : world.nextOp? id = some op := by
  simp only [nextOp?, left]

theorem lt_of_left? (left : world.left? id = some process) : id < world.tasks.length :=
  (List.getElem?_eq_some_iff.mp (left?_eq_some.mp left)).1

abbrev Condition {Op : Type} (Answer : Op → Type) (Error Value Given State : Type) :=
  TaskWorld Answer Error Value State → ℕ → Op → Given → Prop

def Meets (condition : Condition Answer Error Value Given State)
    (world : TaskWorld Answer Error Value State) : TaskEvent Task Given → Prop
  | .step id given =>
      match world.left? id with
      | some (.perform op _) => condition world id op given
      | _ => True
  | _ => True

instance (condition : Condition Answer Error Value Given State)
    [(world : TaskWorld Answer Error Value State) → (id : ℕ) → (op : Op) → (given : Given) →
      Decidable (condition world id op given)]
    (world : TaskWorld Answer Error Value State) (event : TaskEvent Task Given) :
    Decidable (world.Meets condition event) :=
  match event with
  | .start _ => .isTrue trivial
  | .die _ => .isTrue trivial
  | .step id given =>
      match left : world.left? id with
      | some (.perform op _) =>
          decidable_of_iff (condition world id op given) (by simp only [Meets, left])
      | some (.returned _) => .isTrue (by simp only [Meets, left])
      | some (.thrown _) => .isTrue (by simp only [Meets, left])
      | none => .isTrue (by simp only [Meets, left])

def MeetsThroughout (handle : Handler Answer Given State)
    (program : Task → Process Answer Error Value)
    (condition : Condition Answer Error Value Given State) :
    TaskWorld Answer Error Value State → List (TaskEvent Task Given) → Prop
  | _, [] => True
  | world, event :: events =>
      world.Meets condition event ∧
        MeetsThroughout handle program condition (world.next handle program event) events

instance decidableMeetsThroughout (handle : Handler Answer Given State)
    (program : Task → Process Answer Error Value)
    (condition : Condition Answer Error Value Given State)
    [(world : TaskWorld Answer Error Value State) → (id : ℕ) → (op : Op) → (given : Given) →
      Decidable (condition world id op given)] :
    (world : TaskWorld Answer Error Value State) → (events : List (TaskEvent Task Given)) →
      Decidable (MeetsThroughout handle program condition world events)
  | _, [] => .isTrue trivial
  | world, event :: events =>
      have := decidableMeetsThroughout handle program condition (world.next handle program event)
        events
      inferInstanceAs (Decidable (_ ∧ _))

theorem meetsThroughout_of_forall {handle : Handler Answer Given State}
    {program : Task → Process Answer Error Value} {condition : Condition Answer Error Value Given State}
    (always : ∀ world id op given, condition world id op given)
    (world : TaskWorld Answer Error Value State) (events : List (TaskEvent Task Given)) :
    MeetsThroughout handle program condition world events := by
  induction events generalizing world with
  | nil => trivial
  | cons event events ih =>
      refine ⟨?_, ih _⟩
      unfold Meets
      split
      · split
        · exact always _ _ _ _
        · trivial
      · trivial

theorem meetsThroughout_true {handle : Handler Answer Given State}
    {program : Task → Process Answer Error Value} (world : TaskWorld Answer Error Value State)
    (events : List (TaskEvent Task Given)) :
    MeetsThroughout handle program (fun _ _ _ _ => True) world events :=
  meetsThroughout_of_forall (fun _ _ _ _ => trivial) world events

end TaskWorld

open TaskWorld

structure Crew {Op : Type} (Answer : Op → Type) (Error Value State : Type) where
  Global : State → Prop
  Local : ℕ → Process Answer Error Value → State → Prop

namespace Crew

variable (crew : Crew Answer Error Value State)

structure Holds (world : TaskWorld Answer Error Value State) : Prop where
  shared : crew.Global world.state
  each : ∀ id process, world.left? id = some process → crew.Local id process world.state

/-- A started task brings what is asked of it, and an operation that meets the condition keeps
what holds. -/
structure Works (handle : Handler Answer Given State) (program : Task → Process Answer Error Value)
    (condition : Condition Answer Error Value Given State) : Prop where
  begins : ∀ world task, crew.Holds world →
    crew.Local world.tasks.length (program task) world.state
  advances : ∀ world me op rest given, crew.Holds world → world.left? me = some (perform op rest) →
    condition world me op given →
    crew.Global (handle me op given world.state).2 ∧
      crew.Local me (rest (handle me op given world.state).1) (handle me op given world.state).2 ∧
      ∀ other process, other ≠ me → world.left? other = some process →
        crew.Local other process (handle me op given world.state).2

variable {crew} {handle : Handler Answer Given State} {program : Task → Process Answer Error Value}
  {condition : Condition Answer Error Value Given State} {world : TaskWorld Answer Error Value State}

theorem Holds.next (holds : crew.Holds world) (works : crew.Works handle program condition)
    {event : TaskEvent Task Given} (meets : world.Meets condition event) :
    crew.Holds (world.next handle program event) := by
  cases event with
  | start task =>
      refine ⟨holds.shared, ?_⟩
      intro id process found
      rw [left?_eq_some] at found
      simp only [TaskWorld.next] at found ⊢
      rcases Nat.lt_or_ge id world.tasks.length with old | fresh
      · rw [List.getElem?_append_left old] at found
        exact holds.each id process (left?_eq_some.mpr found)
      · rw [List.getElem?_append_right fresh, List.getElem?_singleton] at found
        split_ifs at found with isLast
        have last : id = world.tasks.length := by omega
        rw [last, ← Option.some.inj (Option.some.inj found)]
        exact works.begins world task holds
  | die id =>
      refine ⟨holds.shared, ?_⟩
      intro other process found
      rw [left?_eq_some] at found
      simp only [TaskWorld.next, List.getElem?_set] at found
      split_ifs at found
      · exact absurd found (by simp)
      · exact holds.each other process (left?_eq_some.mpr found)
  | step id given =>
      simp only [TaskWorld.next]
      split
      · rename_i op rest found
        have left := left?_eq_some.mpr found
        have permitted : condition world id op given := by
          simpa only [Meets, left] using meets
        obtain ⟨shared, mine, others⟩ := works.advances world id op rest given holds left permitted
        refine ⟨shared, ?_⟩
        intro other process isLeft
        rw [left?_set _ left] at isLeft
        split_ifs at isLeft with same
        · subst same
          rw [← Option.some.inj isLeft]
          exact mine
        · exact others other process same isLeft
      · exact holds

theorem Holds.run (holds : crew.Holds world) (works : crew.Works handle program condition)
    {events : List (TaskEvent Task Given)}
    (meets : MeetsThroughout handle program condition world events) :
    crew.Holds (world.run handle program events) := by
  induction events generalizing world with
  | nil => exact holds
  | cons event events ih => exact ih (holds.next works meets.1) meets.2

theorem holds_initial {state : State} (shared : crew.Global state) :
    crew.Holds (TaskWorld.initial state) := by
  refine ⟨shared, ?_⟩
  intro id process found
  simp [TaskWorld.initial, left?] at found

end Crew

end Concurrency
