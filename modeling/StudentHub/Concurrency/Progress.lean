import StudentHub.Concurrency.Discipline
import Mathlib.Data.List.Induction

/-!
# How far tasks have come

A task is what is left of the program that it was started with. A progress says of a state
what holds of it, and of every task how far it has come; it is kept by the steps that are
permitted, and so it holds in every world of a run whose steps are all permitted.
-/

namespace Concurrency

variable {Op : Type} {Answer : Op → Type} {Error Value Given State Task : Type}

open Process

def startedBy (events : List (TaskEvent Task Given)) : List Task :=
  events.filterMap fun event =>
    match event with
    | .start task => some task
    | _ => none

theorem startedBy_append (first second : List (TaskEvent Task Given)) :
    startedBy (first ++ second) = startedBy first ++ startedBy second :=
  List.filterMap_append

/-- The global fact is about the state and the tasks that were started, whether they live or
not; the local one is about what is left of a living task. -/
structure Progress (handle : Handler Answer Given State)
    (program : Task → Process Answer Error Value) where
  Valid : List Task → Task → Prop
  Permitted : ℕ → Task → Op → Given → State → Prop
  Global : List Task → State → Prop
  Local : ℕ → Task → Process Answer Error Value → State → Prop
  begins : ∀ tasks task state, Valid tasks task → Global tasks state →
    Global (tasks ++ [task]) state ∧ Local tasks.length task (program task) state
  advances : ∀ tasks me task op rest given state, tasks[me]? = some task → Global tasks state →
    Local me task (perform op rest) state → Permitted me task op given state →
      Global tasks (handle me op given state).2 ∧
        Local me task (rest (handle me op given state).1) (handle me op given state).2
  stays : ∀ tasks me task op rest given state other task' process, tasks[me]? = some task →
    other ≠ me → Global tasks state → Local me task (perform op rest) state →
    Permitted me task op given state → Local other task' process state →
      Local other task' process (handle me op given state).2

theorem TaskWorld.lasts {handle : Handler Answer Given State}
    {program : Task → Process Answer Error Value} {fact : State → Prop}
    (preserved : ∀ me op given state, fact state → fact (handle me op given state).2)
    (events : List (TaskEvent Task Given)) {world : TaskWorld Answer Error Value State}
    (holds : fact world.state) : fact (world.run handle program events).state := by
  induction events generalizing world with
  | nil => exact holds
  | cons event events ih =>
    apply ih
    cases event with
    | start task => exact holds
    | step id given =>
      simp only [TaskWorld.next]
      split
      case h_1 op rest found => exact preserved id op given world.state holds
      case h_2 => exact holds
    | die id => exact holds

namespace Progress

variable {handle : Handler Answer Given State} {program : Task → Process Answer Error Value}
variable {progress : Progress handle program} {tasks : List Task}
variable {world : TaskWorld Answer Error Value State}

structure Holds (progress : Progress handle program) (tasks : List Task)
    (world : TaskWorld Answer Error Value State) : Prop where
  global : progress.Global tasks world.state
  numbered : world.tasks.length = tasks.length
  each : ∀ (id : ℕ) (task : Task) process, tasks[id]? = some task →
    world.tasks[id]? = some (some process) → progress.Local id task process world.state

def Permits (progress : Progress handle program) (tasks : List Task)
    (world : TaskWorld Answer Error Value State) (event : TaskEvent Task Given) : Prop :=
  ∀ id given task op rest, event = .step id given → tasks[id]? = some task →
    world.tasks[id]? = some (some (perform op rest)) →
      progress.Permitted id task op given world.state

theorem Holds.inside (holds : progress.Holds tasks world) {id : ℕ}
    {process : Process Answer Error Value} (found : world.tasks[id]? = some (some process)) :
    ∃ task, tasks[id]? = some task := by
  have inside : id < tasks.length := by
    rw [← holds.numbered]
    exact (List.getElem?_eq_some_iff.mp found).1
  exact ⟨tasks[id], List.getElem?_eq_getElem inside⟩

theorem Holds.set (holds : progress.Holds tasks world) {id : ℕ} {task : Task} {state : State}
    {left : Option (Process Answer Error Value)} (isTask : tasks[id]? = some task)
    (global : progress.Global tasks state)
    (advanced : ∀ process, left = some process → progress.Local id task process state)
    (stayed : ∀ other task' process, other ≠ id →
      progress.Local other task' process world.state → progress.Local other task' process state) :
    progress.Holds tasks ⟨state, world.tasks.set id left⟩ := by
  refine ⟨global, ?_, ?_⟩
  · rw [List.length_set]
    exact holds.numbered
  · intro other task' process isOther found
    rw [List.getElem?_set] at found
    split at found
    case isTrue same =>
      subst same
      rw [isTask] at isOther
      cases isOther
      split_ifs at found
      exact advanced process (Option.some.inj found)
    case isFalse different =>
      exact stayed other task' process (Ne.symm different)
        (holds.each other task' process isOther found)

theorem Holds.next (holds : progress.Holds tasks world) {event : TaskEvent Task Given}
    (valid : ∀ task, event = .start task → progress.Valid tasks task)
    (permits : progress.Permits tasks world event) :
    progress.Holds (tasks ++ startedBy [event]) (world.next handle program event) := by
  cases event with
  | start task =>
    have started := progress.begins tasks task world.state (valid task rfl) holds.global
    refine ⟨?_, ?_, ?_⟩
    · simpa [startedBy, TaskWorld.next] using started.1
    · simp [TaskWorld.next, startedBy, holds.numbered]
    · intro id other process isOther found
      simp only [TaskWorld.next, startedBy, List.filterMap_cons, List.filterMap_nil]
        at isOther found ⊢
      rcases Nat.lt_or_ge id tasks.length with old | fresh
      · rw [List.getElem?_append_left old] at isOther
        rw [List.getElem?_append_left (by rw [holds.numbered]; exact old)] at found
        exact holds.each id other process isOther found
      · rw [List.getElem?_append_right fresh, List.getElem?_singleton] at isOther
        rw [List.getElem?_append_right (by rw [holds.numbered]; exact fresh),
          List.getElem?_singleton] at found
        rw [holds.numbered] at found
        split_ifs at isOther found with isLast
        rw [← Option.some.inj isOther, ← Option.some.inj (Option.some.inj found)]
        have last : id = tasks.length := by omega
        rw [last]
        exact started.2
  | step id given =>
    simp only [startedBy, List.filterMap_cons, List.filterMap_nil, List.append_nil,
      TaskWorld.next]
    split
    case h_1 op rest found =>
      rcases holds.inside found with ⟨task, isTask⟩
      have here := holds.each id task _ isTask found
      have permitted := permits id given task op rest rfl isTask found
      have advanced := progress.advances tasks id task op rest given world.state isTask
        holds.global here permitted
      apply holds.set isTask advanced.1
      · rintro process ⟨⟩
        exact advanced.2
      · intro other task' process different there
        exact progress.stays tasks id task op rest given world.state other task' process
          isTask different holds.global here permitted there
    case h_2 => exact holds
  | die id =>
    simp only [startedBy, List.filterMap_cons, List.filterMap_nil, List.append_nil,
      TaskWorld.next]
    rcases Nat.lt_or_ge id tasks.length with inside | outside
    · apply holds.set (List.getElem?_eq_getElem inside) holds.global
      · rintro process ⟨⟩
      · intro other task' process _ there
        exact there
    · rw [List.set_eq_of_length_le (by rw [holds.numbered]; exact outside)]
      exact holds

theorem holds_initial {state : State} (global : progress.Global [] state) :
    progress.Holds [] (TaskWorld.initial state) := by
  refine ⟨global, rfl, ?_⟩
  intro id task process isTask
  simp at isTask

theorem holds_run {state : State} (global : progress.Global [] state)
    {events : List (TaskEvent Task Given)}
    (valid : ∀ before task after, events = before ++ .start task :: after →
      progress.Valid (startedBy before) task)
    (permits : ∀ before event after, events = before ++ event :: after →
      progress.Permits (startedBy before)
        ((TaskWorld.initial state).run handle program before) event) :
    progress.Holds (startedBy events) ((TaskWorld.initial state).run handle program events) := by
  induction events using List.reverseRecOn with
  | nil => exact holds_initial global
  | append_singleton before event ih =>
    have past : progress.Holds (startedBy before)
        ((TaskWorld.initial state).run handle program before) := by
      apply ih
      · rintro earlier task between rfl
        exact valid earlier task (between ++ [event]) (by simp)
      · rintro earlier other between rfl
        exact permits earlier other (between ++ [event]) (by simp)
    rw [startedBy_append, TaskWorld.run, List.foldl_append, List.foldl_cons, List.foldl_nil]
    apply past.next
    · rintro task rfl
      exact valid before task [] rfl
    · exact permits before event [] rfl

end Progress

end Concurrency
