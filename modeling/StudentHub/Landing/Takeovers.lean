import StudentHub.Landing.Exclusive

/-!
# Takeovers of the landing lock

Only the process that created the takeover marker is between its creation and its removal. So
when that process dies the marker stays, and no lock is taken over any more.
-/

namespace StudentHub.Landing

open Ecma JsString Concurrency

namespace LockWorld

variable {world : LockWorld} {id me : ℕ} {process : LockProcess}

inductive MarkerStep (me : ℕ) (phase after : Phase) : Option LockFile → Option LockFile → Prop
  | leaves {marker : Option LockFile} (marks : after.marks → phase.marks) :
      MarkerStep me phase after marker marker
  | creates : MarkerStep me phase after none (some ⟨me, []⟩)
  | changes {marker later : Option LockFile} (marks : phase.marks)
      (stays : after.marks → IsOf me marker → IsOf me later) :
      MarkerStep me phase after marker later

section MarkerStep

variable {phase after : Phase} {marker later : Option LockFile}

theorem MarkerStep.isOf_mine (step : MarkerStep me phase after marker later)
    (marked : phase.marks → IsOf me marker) (marks : after.marks) : IsOf me later := by
  cases step with
  | leaves kept => exact marked (kept marks)
  | creates => exact ⟨_, rfl, rfl⟩
  | changes kept stays => exact stays marks (marked kept)

theorem MarkerStep.isOf_other (step : MarkerStep me phase after marker later)
    (marked : phase.marks → IsOf me marker) (isMarker : IsOf id marker) (different : id ≠ me) :
    IsOf id later := by
  cases step with
  | leaves kept => exact isMarker
  | creates =>
      rcases isMarker with ⟨_, isSome, -⟩
      cases isSome
  | changes kept stays => exact absurd (isMarker.unique (marked kept)) different

end MarkerStep

structure StepsTo (world : LockWorld) (me : ℕ) (process : LockProcess) (later : LockWorld) : Prop where
  others : ∀ other, other ≠ me → later.process? other = world.process? other
  mine : ∃ phase, later.process? me = some { process with phase } ∧
    MarkerStep me process.phase phase world.marker later.marker
  pids : later.pid? = world.pid?

theorem StepsTo.put (found : world.process? me = some process) {phase : Phase}
    {marker : Option LockFile} (lock : Option LockFile)
    (step : MarkerStep me process.phase phase world.marker marker) :
    StepsTo world me process ({ world with lock, marker }.setPhase me phase) := by
  refine ⟨?_, ⟨phase, ?_, step⟩, ?_⟩
  · intro other different
    rw [process?_setPhase, if_neg different]
    rfl
  · rw [process?_setPhase, if_pos rfl]
    exact congrArg (Option.map _) found
  · rw [pid?_setPhase]
    rfl

theorem StepsTo.move (found : world.process? me = some process) {phase : Phase}
    (marks : phase.marks → process.phase.marks) :
    StepsTo world me process (world.setPhase me phase) :=
  StepsTo.put found world.lock (.leaves marks)

theorem StepsTo.refl (found : world.process? me = some process) :
    StepsTo world me process world :=
  ⟨fun _ _ => rfl, ⟨process.phase, found, .leaves id⟩, rfl⟩

theorem stepsTo_operate (found : world.process? me = some process) (fault : Bool) :
    StepsTo world me process (world.operate me process.pid fault process.phase) := by
  have unmarked : ∀ phase : Phase, phase.marks = false → phase.marks → process.phase.marks := by
    intro phase isNot marks
    rw [isNot] at marks
    cases marks
  cases isPhase : process.phase with
  | idle => exact .refl found
  | stopped => exact .refl found
  | stranded => exact .refl found
  | taking =>
      simp only [operate]
      split_ifs
      · exact .move found (unmarked _ rfl)
      · exact .move found (unmarked _ rfl)
      · exact .put found _ (.leaves (unmarked _ rfl))
  | created =>
      simp only [operate]
      split_ifs
      · exact .move found (unmarked _ rfl)
      · exact .put found _ (.leaves (unmarked _ rfl))
  | holding =>
      simp only [operate]
      split_ifs
      · exact .move found (unmarked _ rfl)
      · exact .put found _ (.leaves (unmarked _ rfl))
  | contended =>
      simp only [operate]
      split
      · exact .move found (unmarked _ rfl)
      · split_ifs
        · exact .move found (unmarked _ rfl)
        · exact .move found (unmarked _ rfl)
  | judging holder =>
      simp only [operate]
      split_ifs
      · exact .move found (unmarked _ rfl)
      · exact .move found (unmarked _ rfl)
  | marking holder =>
      simp only [operate]
      split_ifs with standing
      · exact .move found (unmarked _ rfl)
      · rw [Bool.or_eq_true, not_or, Bool.not_eq_true, Bool.not_eq_true,
          Option.isSome_eq_false_iff, Option.isNone_iff_eq_none] at standing
        refine .put found _ ?_
        rw [standing.2]
        exact .creates
  | naming holder =>
      have marks : process.phase.marks := by rw [isPhase]; rfl
      simp only [operate]
      split_ifs
      · exact .move found (unmarked _ rfl)
      · exact .put found _ (.changes marks fun _ isMarker => isMarker.write _)
  | rereading holder =>
      have marks : process.phase.marks := by rw [isPhase]; rfl
      simp only [operate]
      exact .move found fun _ => marks
  | testing holder =>
      have marks : process.phase.marks := by rw [isPhase]; rfl
      simp only [operate]
      exact .move found fun _ => marks
  | removing holder =>
      have marks : process.phase.marks := by rw [isPhase]; rfl
      simp only [operate]
      split_ifs
      · exact .move found fun _ => marks
      · exact .put found _ (.leaves fun _ => marks)
  | clearing removed =>
      have marks : process.phase.marks := by rw [isPhase]; rfl
      simp only [operate]
      refine .put found _ (.changes marks ?_)
      intro still
      cases removed <;> cases still
  | waiting =>
      simp only [operate]
      split_ifs
      · exact .move found (unmarked _ rfl)
      · exact .move found (unmarked _ rfl)

def Marked (world : LockWorld) : Prop :=
  ∀ id process, world.process? id = some process → process.phase.marks → IsOf id world.marker

def Abandoned (world : LockWorld) : Prop :=
  ∃ owner, IsOf owner world.marker ∧ ¬world.Lives owner ∧ ∃ pid, world.pid? owner = some pid

theorem StepsTo.marked {later : LockWorld} (steps : StepsTo world me process later)
    (found : world.process? me = some process) (marked : world.Marked) : later.Marked := by
  rcases steps.mine with ⟨phase, isMe, step⟩
  have mine := marked me process found
  intro id taker isTaker marks
  by_cases same : id = me
  · subst same
    rw [isMe, Option.some.injEq] at isTaker
    rw [← isTaker] at marks
    exact step.isOf_mine mine marks
  · rw [steps.others id same] at isTaker
    exact step.isOf_other mine (marked id taker isTaker marks) same

theorem StepsTo.abandoned {later : LockWorld} (steps : StepsTo world me process later)
    (found : world.process? me = some process) (marked : world.Marked)
    (abandoned : world.Abandoned) : later.Abandoned := by
  rcases steps.mine with ⟨phase, isMe, step⟩
  rcases abandoned with ⟨owner, isMarker, isDead, pid, isPid⟩
  have different : owner ≠ me := by
    rintro rfl
    exact isDead (lives_of_process? found)
  refine ⟨owner, step.isOf_other (marked me process found) isMarker different, ?_, pid, ?_⟩
  · rw [Lives, steps.others owner different]
    exact isDead
  · rw [steps.pids]
    exact isPid

theorem Marked.next (marked : world.Marked) (event : LockEvent) :
    (world.next event).Marked ∧ (world.Abandoned → (world.next event).Abandoned) := by
  cases event with
  | start pid =>
      simp only [LockWorld.next]
      split_ifs with taken
      · exact ⟨marked, id⟩
      · have started := @process?_start world
        refine ⟨?_, ?_⟩
        · intro id process isProcess marks
          rw [started] at isProcess
          split_ifs at isProcess
          · rw [← Option.some.inj isProcess] at marks
            cases marks
          · exact marked id process isProcess marks
        · rintro ⟨owner, isMarker, isDead, named, isPid⟩
          have old := lt_of_pid? isPid
          refine ⟨owner, isMarker, ?_, named, ?_⟩
          · rw [Lives, started, if_neg (Nat.ne_of_lt old)]
            exact isDead
          · rw [← isPid, pid?, pid?, List.getElem?_append_left old]
  | call id =>
      simp only [LockWorld.next]
      split
      · rename_i pid live found
        have steps : StepsTo world id ⟨pid, live, .idle⟩ (world.setPhase id .taking) :=
          .move found fun marks => by cases marks
        exact ⟨steps.marked found marked, steps.abandoned found marked⟩
      · exact ⟨marked, fun abandoned => abandoned⟩
  | step id fault =>
      simp only [LockWorld.next]
      split
      · rename_i process found
        have steps := stepsTo_operate found fault
        exact ⟨steps.marked found marked, steps.abandoned found marked⟩
      · exact ⟨marked, fun abandoned => abandoned⟩
  | die id =>
      refine ⟨?_, ?_⟩
      · intro other process isProcess marks
        rw [process?_die] at isProcess
        split_ifs at isProcess
        exact marked other process isProcess marks
      · rintro ⟨owner, isMarker, isDead, named, isPid⟩
        refine ⟨owner, isMarker, ?_, named, by rw [pid?_die]; exact isPid⟩
        rw [Lives, process?_die]
        split_ifs
        · simp
        · exact isDead

theorem marked_run (events : List LockEvent) : (landLock.run events).Marked := by
  have keeps : landLock.Keeps (fun _ _ => True) Marked :=
    fun _ event marked _ => (Marked.next marked event).1
  apply keeps.always
  intro id process isProcess
  simp [landLock, process?] at isProcess

theorem Abandoned.not_takesOver (abandoned : world.Abandoned) (marked : world.Marked)
    (event : LockEvent) : ¬world.TakesOver event := by
  rintro ⟨id, process, holder, -, found, isRemoving, -⟩
  rcases abandoned with ⟨owner, isMarker, isDead, -⟩
  have marks : process.phase.marks := by rw [isRemoving]; rfl
  rw [isMarker.unique (marked id process found marks)] at isDead
  exact isDead (lives_of_process? found)

theorem Abandoned.runFrom (abandoned : world.Abandoned) (marked : world.Marked)
    (events : List LockEvent) :
    (landLock.runFrom world events).Marked ∧ (landLock.runFrom world events).Abandoned := by
  have keeps : landLock.Keeps (fun _ _ => True) fun world => world.Marked ∧ world.Abandoned :=
    fun _ event both _ =>
      ⟨(Marked.next both.1 event).1, (Marked.next both.1 event).2 both.2⟩
  exact keeps.always ⟨marked, abandoned⟩ events

theorem abandoned_die {owner : ℕ} (isMarker : IsOf owner world.marker) (lives : world.Lives owner) :
    (world.next (.die owner)).Abandoned := by
  rcases Option.isSome_iff_exists.mp lives with ⟨process, found⟩
  refine ⟨owner, isMarker, ?_, process.pid, ?_⟩
  · rw [Lives, process?_die, if_pos rfl]
    simp
  · rw [pid?_die]
    exact pid?_of_process? found

theorem Holds.next (holds : world.Holds id) {event : LockEvent}
    (notStep : ∀ fault, event ≠ .step id fault) (notDie : event ≠ .die id) :
    (world.next event).Holds id := by
  rcases holds with ⟨process, found, isHolding⟩
  refine ⟨process, ?_, isHolding⟩
  cases event with
  | start pid =>
      simp only [LockWorld.next]
      split_ifs
      · exact found
      · rw [process?_start, if_neg (Nat.ne_of_lt (lt_of_pid? (pid?_of_process? found)))]
        exact found
  | call other =>
      simp only [LockWorld.next]
      split
      · rename_i pid live isIdle
        have different : id ≠ other := by
          rintro rfl
          rw [found, Option.some.injEq] at isIdle
          rw [isIdle] at isHolding
          cases isHolding
        rw [process?_setPhase, if_neg different]
        exact found
      · exact found
  | step other fault =>
      have different : id ≠ other := by
        rintro rfl
        exact notStep fault rfl
      simp only [LockWorld.next]
      split
      · rename_i taker isTaker
        rw [(stepsTo_operate isTaker fault).others id different]
        exact found
      · exact found
  | die other =>
      rw [process?_die, if_neg]
      · exact found
      · rintro rfl
        exact notDie rfl

end LockWorld

/-- A process reads the number of a process that has released the lock and ended, a new process
under that number takes the lock and releases it after the second reading, and a third process
takes it. The takeover removes that lock, and a fourth process takes it too. -/
def reusedPid : List LockEvent :=
  [.start 5, .call 0, .step 0 false, .step 0 false,
    .start 6, .call 1, .step 1 false, .step 1 false,
    .step 0 false, .die 0, .step 1 false,
    .start 5, .call 2, .step 2 false, .step 2 false,
    .step 1 false, .step 1 false, .step 1 false,
    .step 2 false, .die 2,
    .start 7, .call 3, .step 3 false, .step 3 false,
    .step 1 false, .step 1 false,
    .start 8, .call 4, .step 4 false, .step 4 false]

/-- The lock is held by one process at a time, and no other process removes it, in every run in
which no process releases the lock between the second reading of it by a takeover, when that gave
the number of this process, and the second look for it in `/proc`. In every run, the takeover
marker of a process that died ends all takeovers. -/
theorem landLock_exclusive (events : List LockEvent) :
    (landLock.Meets LockWorld.Undisturbed events →
      (∀ id other, (landLock.run events).Holds id → (landLock.run events).Holds other →
        id = other) ∧
      ∀ event id, (landLock.run events).Undisturbed event → (landLock.run events).Holds id →
        (∀ fault, event ≠ .step id fault) → IsOf id ((landLock.run events).next event).lock) ∧
    ∀ owner later event, IsOf owner (landLock.run events).marker →
      (landLock.run events).Lives owner →
      ¬(landLock.runFrom ((landLock.run events).next (.die owner)) later).TakesOver event := by
  refine ⟨?_, ?_⟩
  · intro undisturbed
    have guarded := Guarded.keeps.run Guarded.initial undisturbed
    refine ⟨?_, ?_⟩
    · intro id other holds holdsToo
      exact (guarded.isOf_lock holds).unique (guarded.isOf_lock holdsToo)
    · intro event id isUndisturbed holds notStep
      by_cases dies : event = .die id
      · subst dies
        exact guarded.isOf_lock holds
      · exact (guarded.next event isUndisturbed).isOf_lock (holds.next notStep dies)
  · intro owner later event isMarker lives
    have marked := LockWorld.marked_run events
    have abandoned := LockWorld.abandoned_die isMarker lives
    rcases abandoned.runFrom (LockWorld.Marked.next marked (.die owner)).1 later with ⟨both, stays⟩
    exact stays.not_takesOver both event

/-- A worker dies with the lock, and another takes it over and holds it. -/
def takenOver : List LockEvent :=
  [.start 5, .call 0, .step 0 false, .step 0 false, .die 0,
    .start 6, .call 1, .step 1 false, .step 1 false, .step 1 false,
    .step 1 false, .step 1 false, .step 1 false, .step 1 false, .step 1 false,
    .step 1 false, .step 1 false, .step 1 false]

theorem landLock_exclusive_takenOver :
    (∀ other, (landLock.run takenOver).Holds other → 1 = other) ∧
      IsOf 1 ((landLock.run takenOver).next (.start 5)).lock ∧
      ¬(landLock.runFrom ((landLock.run (takenOver.take 11)).next (.die 1))
        [.start 7, .call 2]).TakesOver (.step 2 false) := by
  have holds : (landLock.run takenOver).Holds 1 := ⟨⟨6, true, .holding⟩, by decide +kernel, rfl⟩
  have exclusive := (landLock_exclusive takenOver).1 (by decide +kernel)
  refine ⟨fun other => exclusive.1 1 other holds, ?_, ?_⟩
  · exact exclusive.2 (.start 5) 1 trivial holds (by simp)
  · exact (landLock_exclusive (takenOver.take 11)).2 1 _ _ ⟨⟨1, []⟩, by decide +kernel, rfl⟩
      (by unfold LockWorld.Lives; decide +kernel)

/-- Two living processes hold the lock at once. -/
theorem landLock_reusedPid : ¬∀ events id other, (landLock.run events).Holds id →
    (landLock.run events).Holds other → id = other := by
  intro exclusive
  have third : (landLock.run reusedPid).Holds 3 := ⟨⟨7, true, .holding⟩, by decide +kernel, rfl⟩
  have fourth : (landLock.run reusedPid).Holds 4 := ⟨⟨8, true, .holding⟩, by decide +kernel, rfl⟩
  exact absurd (exclusive reusedPid 3 4 third fourth) (by decide)

end StudentHub.Landing
