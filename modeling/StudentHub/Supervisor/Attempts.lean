import StudentHub.Supervisor.Launch

/-!
# Attempts and branches

What holds in every state that supervisors and workers come to, whatever they are asked,
however their operations interleave and wherever they die. A worker is spawned once for an
attempt, which stays bound to its order. The attempts on a branch are admitted one after
another, each when all before it have validated completions.
-/

namespace StudentHub.Supervisor

open Ecma Concurrency Concurrency.Process Graph JsString JsValue

/-- The state directory of a run of supervisors and workers that begins with an empty one. -/
def reach (host : SupervisorHost) (fuel : ℕ) (events : List Event) : World :=
  (TaskWorld.initial Machine.empty : World).run handle (program host fuel) events

def Happening.isSpawnOf (attemptId : JsString) : Happening → Bool
  | spawned _ named _ => named = attemptId
  | created _ _ _ => false

section Reached

variable {host : SupervisorHost} {fuel : ℕ}

theorem sound_reach (host : SupervisorHost) (fuel : ℕ) (events : List Event) :
    TaskWorld.Sound (supervision host) (Ends (Exhausted · fuel) fun _ _ => True)
      (reach host fuel events) := by
  apply TaskWorld.Sound.run (TaskWorld.Sound.initial (orderly_empty host))
    (lasting_ends (lasting_exhausted fuel) fun _ => lasting_true)
  intro me task _
  exact follows_program task

theorem orderly_reach (host : SupervisorHost) (fuel : ℕ) (events : List Event) :
    Orderly host (reach host fuel events).state := (sound_reach host fuel events).invariant

theorem lasts (events more : List Event) {fact : Machine → Prop}
    (lasting : (supervision host).Lasting fact) (holds : fact (reach host fuel events).state) :
    fact (reach host fuel (events ++ more)).state := by
  have later : reach host fuel (events ++ more) =
      (reach host fuel events).run handle (program host fuel) more := by
    simp only [reach, TaskWorld.run, List.foldl_append]
  rw [later]
  exact (sound_reach host fuel events).lasting_run
    (lasting_ends (lasting_exhausted fuel) fun _ => lasting_true)
    (fun _ task _ => follows_program task) lasting holds

theorem countP_spawns_le_one {history : List Happening}
    (chronicle : Chronicle SpawnJustified history) (attemptId : JsString) :
    history.countP (·.isSpawnOf attemptId) ≤ 1 := by
  induction history with
  | nil => simp
  | cons happening earlier ih =>
    have older : Chronicle SpawnJustified earlier := by
      intro other before suffix
      exact chronicle other before (suffix.trans (List.suffix_cons happening earlier))
    have justified := chronicle happening earlier List.suffix_rfl
    cases happening with
    | created task directory name =>
      rw [List.countP_cons_of_neg (by simp [Happening.isSpawnOf])]
      exact ih older
    | spawned task other order =>
      by_cases same : other = attemptId
      · subst same
        rw [List.countP_cons_of_pos (by simp [Happening.isSpawnOf]),
          List.countP_eq_zero.mpr]
        intro happening happened
        cases happening with
        | created _ _ _ => simp [Happening.isSpawnOf]
        | spawned task' other' order' =>
          rintro isSpawn
          simp only [Happening.isSpawnOf, decide_eq_true_eq] at isSpawn
          subst isSpawn
          exact justified.2 _ _ happened
      · rw [List.countP_cons_of_neg (by simp [Happening.isSpawnOf, same])]
        exact ih older

/-- A worker is spawned at most once for an attempt, by the task that has made the launch
record before, for the order that the attempt is bound to; and it stays bound to that order. -/
theorem spawned_once (host : SupervisorHost) (fuel : ℕ) (events : List Event)
    (attemptId : JsString) :
    let machine := (reach host fuel events).state
    machine.history.countP (·.isSpawnOf attemptId) ≤ 1 ∧
    (∀ task order earlier, .spawned task attemptId order :: earlier <:+ machine.history →
      .created task .launches (fileName attemptId) ∈ earlier ∧ Bound machine attemptId order) ∧
    ∀ stored, machine.get? .orders (fileName attemptId) = some stored → ∀ more,
      (reach host fuel (events ++ more)).state.get? .orders (fileName attemptId) = some stored := by
  intro machine
  have orderly := orderly_reach host fuel events
  refine ⟨countP_spawns_le_one orderly.chronicle attemptId, ?_, ?_⟩
  · intro task order earlier suffix
    exact ⟨(orderly.chronicle _ _ suffix).1,
      orderly.spawned task attemptId order (mem_of_suffix suffix)⟩
  · intro stored isStored more
    exact lasts events more (lasting_file (.inl rfl)) isStored

theorem le_size_of_exhausted {machine : Machine} (exhausted : Exhausted machine fuel) :
    fuel ≤ (machine.files .branches).size := by
  rcases exhausted with ⟨key, passed, finish, enough, nodup, walk⟩
  have left : ((js "initial" :: passed).dropLast.map (claimName key)).Nodup := by
    apply List.Nodup.map _ (nodup.sublist (List.dropLast_sublist _))
    intro predecessor other same
    exact (claimName_inj rfl same).2
  have stored : (js "initial" :: passed).dropLast.map (claimName key) ⊆
      (machine.files .branches).keys := by
    intro name named
    rcases List.mem_map.mp named with ⟨predecessor, isLeft, rfl⟩
    have link := walk.isSome_of_mem_dropLast isLeft
    rw [ownerOf, Option.isSome_map] at link
    exact OrderedMap.mem_keys_iff.mpr link
  have bounded := (left.subperm stored).length_le
  rw [List.length_map, List.length_dropLast, List.length_cons, OrderedMap.keys,
    List.length_map] at bounded
  rw [OrderedMap.size]
  omega

theorem branchKey_congr {left right : JsValue}
    (sameRepo : textOf left (js "repo") = textOf right (js "repo"))
    (sameBranch : textOf left (js "branch") = textOf right (js "branch")) :
    branchKey host left = branchKey host right := by
  rw [branchKey, branchKey, sameRepo, sameBranch]

theorem exists_order_of_bound {machine : Machine} {attemptId : JsString} {order : JsValue}
    (orderly : Orderly host machine) (bound : Bound machine attemptId order) :
    ∃ original, validateBoundOrder host original = true ∧ order = original.jsonCopy ∧
      Linked machine (branchKey host original) attemptId := by
  rcases bound with ⟨stored, isStored, rfl⟩
  rcases orderly.orders _ stored isStored with ⟨original, valid, rfl, named, linked⟩
  rw [← fileName_injective named] at linked
  exact ⟨original, valid, get_order_durableOrder original, linked⟩

theorem branchKey_jsonCopy {order : JsValue} (valid : validateBoundOrder host order = true) :
    branchKey host order.jsonCopy = branchKey host order := by
  rcases branch_of_valid valid with ⟨repo, branch⟩
  apply branchKey_congr
  · exact textOf_of_get (get_jsonCopy_of_string repo)
  · exact textOf_of_get (get_jsonCopy_of_string branch)

theorem validated_of_admitted {machine : Machine} {me : ℕ} {op : Op} {given : Given}
    {attemptId earlier : JsString} {order earlierOrder : JsValue}
    (orderly : Orderly host machine) (allowed : Allowed host me op machine)
    (absent : machine.get? .orders (fileName attemptId) = none)
    (admitted : Bound (handle me op given machine).2 attemptId order)
    (before : Bound machine earlier earlierOrder)
    (sameRepo : textOf order (js "repo") = textOf earlierOrder (js "repo"))
    (sameBranch : textOf order (js "branch") = textOf earlierOrder (js "branch")) :
    Validated host machine earlier := by
  have later : Orderly host (handle me op given machine).2 := orderly.keeps allowed
  rcases exists_order_of_bound later admitted with ⟨original, valid, rfl, -⟩
  rcases exists_order_of_bound orderly before with ⟨first, firstValid, rfl, predecessor, link⟩
  have sameKey : branchKey host original = branchKey host first := by
    rw [← branchKey_jsonCopy valid, ← branchKey_jsonCopy firstValid]
    exact branchKey_congr sameRepo sameBranch
  have owned : Linked machine (branchKey host original) attemptId := by
    rcases admitted with ⟨stored, isStored, sameOrder⟩
    rcases get?_handle_eq_some isStored with old | ⟨new, rfl, _, rfl⟩ | ⟨new, rfl, -⟩
    · rw [absent] at old
      cases old
    · rcases allowed absent with ⟨written, writtenValid, rfl, named, linked⟩
      rw [get_order_durableOrder] at sameOrder
      rw [fileName_injective named, ← branchKey_jsonCopy valid, ← sameOrder,
        branchKey_jsonCopy writtenValid]
      exact linked
    · exact absurd allowed id
  rcases owned with ⟨predecessor', link'⟩
  rw [sameKey] at link'
  rcases (orderly.chained _ (length_branchKey first)).done_or_done link' link with
    same | done | done
  · rcases before with ⟨stored, isStored, -⟩
    rw [← same, absent] at isStored
    cases isStored
  · rcases done with ⟨_, _, bound, _, _, isBound, _⟩
    rw [absent] at isBound
    cases isBound
  · exact done

/-- The attempts on a branch are admitted in turn: whenever an event admits one, every
attempt that was admitted before on the same branch of the same repository has a validated
completion. A claim on a branch is never given to another attempt, no attempt has two claims
on a branch, and a walk along the claims ends: a task that has passed so many owners leaves
as many files of claims behind. -/
theorem admitted_in_turn (host : SupervisorHost) (fuel : ℕ) (events : List Event) :
    let world := reach host fuel events
    (∀ event attemptId order earlier earlierOrder,
      world.state.get? .orders (fileName attemptId) = none →
      Bound (reach host fuel (events ++ [event])).state attemptId order →
      Bound world.state earlier earlierOrder →
      textOf order (js "repo") = textOf earlierOrder (js "repo") →
      textOf order (js "branch") = textOf earlierOrder (js "branch") →
      Validated host world.state earlier) ∧
    (∀ name held, world.state.get? .branches name = some held → ∀ more,
      (reach host fuel (events ++ more)).state.get? .branches name = some held) ∧
    (∀ key passed finish, key.length = 64 →
      Walk (ownerOf world.state key) (js "initial") passed finish → passed.Nodup) ∧
    ∀ task : ℕ, world.tasks[task]? = some (some (thrown .fuelSpent)) →
      fuel ≤ (world.state.files .branches).size := by
  intro world
  have sound := sound_reach host fuel events
  have orderly : Orderly host world.state := sound.invariant
  refine ⟨?_, ?_, ?_, ?_⟩
  · intro event attemptId order earlier earlierOrder absent admitted before sameRepo sameBranch
    have next : reach host fuel (events ++ [event]) =
        world.next handle (program host fuel) event := by
      simp only [world, reach, TaskWorld.run, List.foldl_append, List.foldl_cons, List.foldl_nil]
    rw [next] at admitted
    have unchanged : Bound world.state attemptId order → False := by
      rintro ⟨stored, isStored, -⟩
      rw [absent] at isStored
      cases isStored
    cases event with
    | start task => exact (unchanged admitted).elim
    | die id => exact (unchanged admitted).elim
    | step id given =>
      simp only [TaskWorld.next] at admitted
      split at admitted
      case h_1 op rest found =>
        rcases (sound.behaves id _ found).perform
          (fun result => (lasting_ends (lasting_exhausted fuel) (fun _ => lasting_true) result).stable)
          sound.invariant given with ⟨allowed, -⟩
        exact validated_of_admitted orderly allowed absent admitted before sameRepo sameBranch
      case h_2 => exact (unchanged admitted).elim
  · intro name held isHeld more
    exact lasts events more (lasting_file (.inr (.inr rfl))) isHeld
  · intro key passed finish length walk
    exact (orderly.chained key length).nodup walk
  · intro task isSpent
    rcases sound.behaves task _ isSpent with ⟨fact, holds, -, follows⟩
    apply le_size_of_exhausted
    cases follows with
    | thrown ends => exact ends _ sound.invariant holds rfl

end Reached

end StudentHub.Supervisor
