import Mathlib.Data.Nat.Notation

/-!
# Machines

A machine goes from one world to the next with every event. What its events keep, as long as
each of them meets a condition in the world before it, holds in every world of such a run.
-/

namespace Concurrency

structure Machine (World Event : Type) where
  initial : World
  next : World → Event → World

namespace Machine

variable {World Event : Type} (machine : Machine World Event)

def runFrom (world : World) (events : List Event) : World := events.foldl machine.next world

def run (events : List Event) : World := machine.runFrom machine.initial events

def MeetsFrom (condition : World → Event → Prop) : World → List Event → Prop
  | _, [] => True
  | world, event :: events =>
      condition world event ∧ MeetsFrom condition (machine.next world event) events

def Meets (condition : World → Event → Prop) (events : List Event) : Prop :=
  machine.MeetsFrom condition machine.initial events

instance decidableMeetsFrom (condition : World → Event → Prop)
    [(world : World) → (event : Event) → Decidable (condition world event)] :
    (world : World) → (events : List Event) → Decidable (machine.MeetsFrom condition world events)
  | _, [] => .isTrue trivial
  | world, event :: events =>
      have := decidableMeetsFrom condition (machine.next world event) events
      inferInstanceAs (Decidable (_ ∧ _))

instance (condition : World → Event → Prop)
    [(world : World) → (event : Event) → Decidable (condition world event)] (events : List Event) :
    Decidable (machine.Meets condition events) :=
  machine.decidableMeetsFrom condition machine.initial events

def Keeps (condition : World → Event → Prop) (invariant : World → Prop) : Prop :=
  ∀ world event, invariant world → condition world event → invariant (machine.next world event)

variable {machine} {condition : World → Event → Prop} {invariant : World → Prop}
  {world : World} {events : List Event}

theorem Keeps.runFrom (keeps : machine.Keeps condition invariant) (holds : invariant world)
    (meets : machine.MeetsFrom condition world events) :
    invariant (machine.runFrom world events) := by
  induction events generalizing world with
  | nil => exact holds
  | cons event events ih => exact ih (keeps world event holds meets.1) meets.2

theorem Keeps.run (keeps : machine.Keeps condition invariant) (holds : invariant machine.initial)
    (meets : machine.Meets condition events) : invariant (machine.run events) :=
  keeps.runFrom holds meets

theorem MeetsFrom.and {other : World → Event → Prop} (meets : machine.MeetsFrom condition world events)
    (meetsOther : machine.MeetsFrom other world events) :
    machine.MeetsFrom (fun world event => condition world event ∧ other world event) world events := by
  induction events generalizing world with
  | nil => trivial
  | cons event events ih => exact ⟨⟨meets.1, meetsOther.1⟩, ih meets.2 meetsOther.2⟩

theorem meetsFrom_of_mem {allowed : Event → Prop} (always : ∀ event ∈ events, allowed event)
    (world : World) : machine.MeetsFrom (fun _ event => allowed event) world events := by
  induction events generalizing world with
  | nil => trivial
  | cons event events ih =>
      exact ⟨always event List.mem_cons_self,
        ih (fun later laterMem => always later (List.mem_cons_of_mem _ laterMem)) _⟩

theorem meetsFrom_of_forall (always : ∀ world event, condition world event) (world : World)
    (events : List Event) : machine.MeetsFrom condition world events := by
  induction events generalizing world with
  | nil => trivial
  | cons event events ih => exact ⟨always _ _, ih _⟩

theorem Keeps.always (keeps : machine.Keeps (fun _ _ => True) invariant) (holds : invariant world)
    (events : List Event) : invariant (machine.runFrom world events) :=
  keeps.runFrom holds (meetsFrom_of_forall (fun _ _ => trivial) world events)

theorem runFrom_append (world : World) (earlier later : List Event) :
    machine.runFrom world (earlier ++ later) =
      machine.runFrom (machine.runFrom world earlier) later := by
  simp only [Machine.runFrom, List.foldl_append]

theorem run_append (earlier later : List Event) :
    machine.run (earlier ++ later) = machine.runFrom (machine.run earlier) later :=
  runFrom_append machine.initial earlier later

theorem meetsFrom_append {earlier later : List Event} :
    machine.MeetsFrom condition world (earlier ++ later) ↔
      machine.MeetsFrom condition world earlier ∧
        machine.MeetsFrom condition (machine.runFrom world earlier) later := by
  induction earlier generalizing world with
  | nil => exact ⟨fun meets => ⟨trivial, meets⟩, And.right⟩
  | cons event earlier ih =>
      simp only [List.cons_append, MeetsFrom, ih, and_assoc]
      rfl

end Machine

end Concurrency
