import StudentHub.Jobs.Runner

/-!
# Runs that are overtaken

A run that is recorded as succeeded kept its lease while it worked, when the renewal that it
waits for at last was carried out after the work had settled. The renewal may be an older one
that was granted before; then the lease may have run out and gone to another run meanwhile.
-/

namespace StudentHub.Jobs

/-- The run has acquired the lease and its work has not settled. -/
def AtWork (id : ℕ) (name : JobName) (history : List Mark) : Prop :=
  .acquired id name ∈ history ∧ .settled id ∉ history

def Overtaken (id : ℕ) (name : JobName) : List Mark → Prop
  | [] => False
  | mark :: earlier =>
      Overtaken id name earlier ∨
        (∃ other, other ≠ id ∧ mark = .acquired other name) ∧ AtWork id name earlier

variable {id other : ℕ} {name : JobName} {history : List Mark}

theorem overtaken_settled :
    Overtaken id name (.settled other :: history) ↔ Overtaken id name history := by
  simp [Overtaken]

theorem overtaken_acquired_self :
    Overtaken id name (.acquired id name :: history) ↔ Overtaken id name history := by
  simp only [Overtaken, or_iff_left_iff_imp]
  rintro ⟨⟨other, isOther, same⟩, -⟩
  injection same with sameId
  exact absurd sameId.symm isOther

theorem overtaken_of_settled {mark : Mark} (isSettled : .settled id ∈ history) :
    Overtaken id name (mark :: history) ↔ Overtaken id name history := by
  simp only [Overtaken, or_iff_left_iff_imp]
  rintro ⟨-, -, notSettled⟩
  exact absurd isSettled notSettled

theorem not_overtaken_of_not_acquired (notAcquired : .acquired id name ∉ history) :
    ¬ Overtaken id name history := by
  induction history with
  | nil => exact not_false
  | cons mark history ih =>
      have earlier : .acquired id name ∉ history := fun isMem =>
        notAcquired (List.mem_cons_of_mem _ isMem)
      rintro (isOvertaken | ⟨-, isAcquired, -⟩)
      · exact ih earlier isOvertaken
      · exact earlier isAcquired

theorem overtaken_append {later : List Mark} (isOvertaken : Overtaken id name history) :
    Overtaken id name (later ++ history) := by
  induction later with
  | nil => exact isOvertaken
  | cons mark later ih => exact .inl ih

theorem AtWork.of_cons {mark : Mark} (works : AtWork id name (mark :: history))
    (notThis : mark ≠ .acquired id name) : AtWork id name history := by
  obtain ⟨isAcquired, notSettled⟩ := works
  refine ⟨?_, fun isSettled => notSettled (List.mem_cons_of_mem _ isSettled)⟩
  rcases List.mem_cons.mp isAcquired with same | earlier
  · exact absurd same.symm notThis
  · exact earlier

theorem overtaken_of_atWork (differ : id ≠ other) (works : AtWork id name history)
    (otherWorks : AtWork other name history) :
    Overtaken id name history ∨ Overtaken other name history := by
  induction history with
  | nil => exact absurd works.1 (by simp)
  | cons mark history ih =>
      by_cases isFirst : mark = .acquired id name
      · have otherEarlier := otherWorks.of_cons (by simp [isFirst, differ])
        exact .inr (.inr ⟨⟨id, differ, isFirst⟩, otherEarlier⟩)
      by_cases isOther : mark = .acquired other name
      · have earlier := works.of_cons isFirst
        exact .inl (.inr ⟨⟨other, differ.symm, isOther⟩, earlier⟩)
      rcases ih (works.of_cons isFirst) (otherWorks.of_cons isOther) with overtaken | overtaken
      · exact .inl (.inl overtaken)
      · exact .inr (.inl overtaken)

/-- A run that is recorded as succeeded has settled, and was not overtaken. -/
def Undisturbed (run : JobRun) (history : List Mark) : Prop :=
  run.outcome = .succeeded →
    .settled run.runId ∈ history ∧ ¬ Overtaken run.runId run.jobName history

theorem Undisturbed.cons {run : JobRun} {mark : Mark} (undisturbed : Undisturbed run history) :
    Undisturbed run (mark :: history) := by
  intro succeeded
  obtain ⟨isSettled, notOvertaken⟩ := undisturbed succeeded
  exact ⟨List.mem_cons_of_mem _ isSettled, mt (overtaken_of_settled isSettled).mp notOvertaken⟩

section World

variable {Time : Type} {before after world : JobWorld Time} {runner : Runner} {me : ℕ}

def JobWorld.holder (world : JobWorld Time) (name : JobName) : Option ℕ :=
  (world.leases name).map Lease.holder

structure Safe (world : JobWorld Time) (id : ℕ) (runner : Runner) : Prop where
  fresh : runner.phase = .acquiring .sent → ∀ name, .acquired id name ∉ world.history
  holding : (runner.phase = .acquiring (.carriedOut true) ∨ runner.phase = .working ∨
      ∃ outcome, runner.phase = .settled outcome) →
    world.holder runner.job.name = some id → ¬ Overtaken id runner.job.name world.history
  settled : ∀ outcome, runner.phase = .settled outcome → .settled id ∈ world.history
  granted : ∀ outcome, runner.phase = .settled outcome →
    runner.pending = some (.carriedOut true) → ¬ Overtaken id runner.job.name world.history
  recorded : ∀ run flight, runner.phase = .refusing run flight ∨
    runner.phase = .recording run flight → Undisturbed run world.history

structure Sound (world : JobWorld Time) : Prop where
  bounded : ∀ id name, .acquired id name ∈ world.history → id < world.runners.length
  each : ∀ id runner, world.runners[id]? = some runner → Safe world id runner
  runs : ∀ run ∈ world.runs, Undisturbed run world.history

structure Moves (me : ℕ) (before after : JobWorld Time) : Prop where
  marks : after.history = before.history ∨
    (∃ name, after.history = .acquired me name :: before.history ∧ after.holder name = some me) ∨
    after.history = .settled me :: before.history
  holders : ∀ name id, id ≠ me → after.holder name = some id → before.holder name = some id

theorem Moves.undisturbed (moves : Moves me before after) {run : JobRun}
    (undisturbed : Undisturbed run before.history) : Undisturbed run after.history := by
  rcases moves.marks with same | ⟨name, acquired, -⟩ | settled
  · rw [same]
    exact undisturbed
  · rw [acquired]
    exact undisturbed.cons
  · rw [settled]
    exact undisturbed.cons

theorem Moves.mem (moves : Moves me before after) {mark : Mark} (isMem : mark ∈ before.history) :
    mark ∈ after.history := by
  rcases moves.marks with same | ⟨name, acquired, -⟩ | settled
  · rwa [same]
  · rw [acquired]
    exact List.mem_cons_of_mem _ isMem
  · rw [settled]
    exact List.mem_cons_of_mem _ isMem

theorem Moves.not_overtaken_of_settled (moves : Moves me before after)
    (isSettled : .settled id ∈ before.history) (notOvertaken : ¬ Overtaken id name before.history) :
    ¬ Overtaken id name after.history := by
  rcases moves.marks with same | ⟨other, acquired, -⟩ | settled
  · rwa [same]
  · rw [acquired]
    exact mt (overtaken_of_settled isSettled).mp notOvertaken
  · rw [settled]
    exact mt (overtaken_of_settled isSettled).mp notOvertaken

theorem Moves.not_overtaken_of_holder (moves : Moves me before after) (isOther : id ≠ me)
    (isHolder : after.holder name = some id)
    (notOvertaken : ¬ Overtaken id name before.history) : ¬ Overtaken id name after.history := by
  rcases moves.marks with same | ⟨other, acquired, isMine⟩ | settled
  · rwa [same]
  · rw [acquired]
    rintro (isOvertaken | ⟨⟨_, _, same⟩, -⟩)
    · exact notOvertaken isOvertaken
    · injection same with _ sameName
      rw [sameName, isHolder, Option.some.injEq] at isMine
      exact isOther isMine
  · rw [settled, overtaken_settled]
    exact notOvertaken

theorem Safe.byOther (safe : Safe before id runner) (moves : Moves me before after)
    (isOther : id ≠ me) : Safe after id runner := by
  refine ⟨?_, ?_, ?_, ?_, ?_⟩
  · intro acquiring name isAcquired
    rcases moves.marks with same | ⟨other, acquired, -⟩ | settled
    · rw [same] at isAcquired
      exact safe.fresh acquiring name isAcquired
    · rw [acquired, List.mem_cons] at isAcquired
      rcases isAcquired with same | earlier
      · injection same with sameId
        exact isOther sameId
      · exact safe.fresh acquiring name earlier
    · rw [settled, List.mem_cons] at isAcquired
      rcases isAcquired with same | earlier
      · cases same
      · exact safe.fresh acquiring name earlier
  · intro phase isHolder
    exact moves.not_overtaken_of_holder isOther isHolder
      (safe.holding phase (moves.holders _ _ isOther isHolder))
  · intro outcome phase
    exact moves.mem (safe.settled outcome phase)
  · intro outcome phase isGranted
    exact moves.not_overtaken_of_settled (safe.settled outcome phase)
      (safe.granted outcome phase isGranted)
  · intro run flight phase
    exact moves.undisturbed (safe.recorded run flight phase)

structure Brings (me : ℕ) (changed : Runner) (before after : JobWorld Time) : Prop where
  runners : after.runners = before.runners.set me changed
  moves : Moves me before after
  safe : Safe after me changed
  runs : ∀ run ∈ after.runs, run ∈ before.runs ∨ Undisturbed run after.history

theorem Sound.brings (sound : Sound before) (isRunner : before.runners[me]? = some runner)
    {changed : Runner} (brings : Brings me changed before after) : Sound after := by
  have inside := (List.getElem?_eq_some_iff.mp isRunner).1
  refine ⟨?_, ?_, ?_⟩
  · intro id name isAcquired
    rw [brings.runners, List.length_set]
    rcases brings.moves.marks with same | ⟨other, acquired, -⟩ | settled
    · rw [same] at isAcquired
      exact sound.bounded id name isAcquired
    · rw [acquired, List.mem_cons] at isAcquired
      rcases isAcquired with same | earlier
      · injection same with sameId
        rw [sameId]
        exact inside
      · exact sound.bounded id name earlier
    · rw [settled, List.mem_cons] at isAcquired
      rcases isAcquired with same | earlier
      · cases same
      · exact sound.bounded id name earlier
  · intro id other isOther
    rw [brings.runners, List.getElem?_set] at isOther
    split_ifs at isOther with same
    · subst same
      rw [← Option.some.inj isOther]
      exact brings.safe
    · exact (sound.each id other isOther).byOther brings.moves (Ne.symm same)
  · intro run runMem
    rcases brings.runs run runMem with old | undisturbed
    · exact brings.moves.undisturbed (sound.runs run old)
    · exact undisturbed

theorem Moves.of_same (history : after.history = before.history)
    (holders : ∀ name, after.holder name = before.holder name) : Moves me before after := by
  refine ⟨.inl history, ?_⟩
  intro name id _ isHolder
  rwa [holders] at isHolder

theorem holder_update {lease : Option (Lease Time)} {name other : JobName}
    (leases : after.leases = Function.update before.leases name lease) :
    after.holder other = if other = name then lease.map Lease.holder else before.holder other := by
  simp only [JobWorld.holder, leases, Function.update_apply]
  split <;> rfl

theorem safe_of_over (isOver : (∃ outcome flight, runner.phase = .releasing outcome flight) ∨
    runner.phase = .ended) : Safe world me runner := by
  refine ⟨?_, ?_, ?_, ?_, ?_⟩
  all_goals
    intros
    rcases isOver with ⟨_, _, phase⟩ | phase <;> simp_all

theorem safe_of_recording {run : JobRun} {flight : Flight}
    (phase : runner.phase = .refusing run flight ∨ runner.phase = .recording run flight)
    (undisturbed : Undisturbed run world.history) : Safe world me runner := by
  refine ⟨?_, ?_, ?_, ?_, ?_⟩
  all_goals
    intros
    rcases phase with phase | phase <;> simp_all

section Steps

variable (sound : Sound world) (isRunner : world.runners[me]? = some runner)
include sound isRunner

theorem sound_update {changed : Runner} (safe : Safe world me changed) :
    Sound (world.update me changed) := by
  apply sound.brings isRunner
  refine ⟨rfl, .of_same rfl fun _ => rfl, ?_, fun run => .inl⟩
  exact ⟨safe.fresh, safe.holding, safe.settled, safe.granted, safe.recorded⟩

theorem sound_acquire {leases : JobLeases Time} (lawful : leases.Lawful)
    (phase : runner.phase = .acquiring .sent) : Sound (world.carryOut leases me runner) := by
  have notYet := (sound.each me runner isRunner).fresh phase runner.job.name
  have isGranted := lawful.acquired (world.leases runner.job.name) me runner.job.leaseMs world.clock
  have isRefused := lawful.refused (world.leases runner.job.name) me runner.job.leaseMs world.clock
  simp only [JobWorld.carryOut, phase]
  generalize leases.acquire (world.leases runner.job.name) me runner.job.leaseMs world.clock =
    result at isGranted isRefused ⊢
  obtain ⟨granted, lease⟩ := result
  apply sound.brings isRunner
  refine ⟨rfl, ?_, ?_, fun run => .inl⟩
  · cases granted with
    | true =>
        refine ⟨.inr (.inl ⟨runner.job.name, rfl, ?_⟩), ?_⟩
        · rw [holder_update rfl, if_pos rfl]
          exact isGranted rfl
        · intro name id isOther isHolder
          rw [holder_update rfl] at isHolder
          split_ifs at isHolder
          · rw [isGranted rfl, Option.some.injEq] at isHolder
            exact absurd isHolder.symm isOther
          · exact isHolder
    | false =>
        refine .of_same rfl ?_
        intro name
        rw [holder_update rfl]
        split
        · rename_i same
          rw [isRefused rfl, same]
          rfl
        · rfl
  · refine ⟨by simp, ?_, by simp, by simp, by simp⟩
    intro working _
    cases granted with
    | true => exact mt overtaken_acquired_self.mp (not_overtaken_of_not_acquired notYet)
    | false => simp at working

theorem sound_carryOut {leases : JobLeases Time} (lawful : leases.Lawful) :
    Sound (world.carryOut leases me runner) := by
  have safe := sound.each me runner isRunner
  have records : ∀ run flight changed, runner.phase = .refusing run flight ∨
      runner.phase = .recording run flight → (∃ flight, changed.phase = .refusing run flight ∨
        changed.phase = .recording run flight) →
      Sound { world.update me changed with runs := world.runs ++ [run] } := by
    intro run flight changed phase ⟨flight', phase'⟩
    have undisturbed := safe.recorded run flight phase
    apply sound.brings isRunner
    refine ⟨rfl, .of_same rfl fun _ => rfl, safe_of_recording phase' undisturbed, ?_⟩
    intro other otherMem
    rcases List.mem_append.mp otherMem with old | isNew
    · exact .inl old
    · rw [List.mem_singleton.mp isNew]
      exact .inr undisturbed
  simp only [JobWorld.carryOut]
  split
  · rename_i phase
    have acquires := sound_acquire sound isRunner lawful phase
    simpa only [JobWorld.carryOut, phase] using acquires
  · rename_i run phase
    exact records run .sent _ (.inl phase) ⟨_, .inl rfl⟩
  · rename_i run phase
    exact records run .sent _ (.inr phase) ⟨_, .inr rfl⟩
  · apply sound.brings isRunner
    refine ⟨rfl, ⟨.inl rfl, ?_⟩, safe_of_over (.inl ⟨_, _, rfl⟩), fun run => .inl⟩
    intro name id _ isHolder
    rw [holder_update rfl] at isHolder
    split_ifs at isHolder with same
    · rw [same]
      exact lawful.released _ _ _ isHolder
    · exact isHolder
  · exact sound

theorem sound_ended {alerts : List (JobAlertCode × JobName)} :
    Sound { world.update me { runner with phase := .ended } with alerts } := by
  apply sound.brings isRunner
  exact ⟨rfl, .of_same rfl fun _ => rfl, safe_of_over (.inr rfl), fun run => .inl⟩

theorem sound_finish {outcome : JobOutcome} : Sound (world.finish me runner outcome) := by
  simp only [JobWorld.finish]
  split
  · exact sound_ended sound isRunner
  · exact sound_update sound isRunner (safe_of_over (.inr rfl))

theorem sound_answer : Sound (world.answer me runner) := by
  have safe := sound.each me runner isRunner
  simp only [JobWorld.answer]
  split
  · rename_i phase
    apply sound_update sound isRunner
    exact ⟨by simp, fun _ => safe.holding (.inl phase), by simp, by simp, by simp⟩
  · apply sound_update sound isRunner
    exact safe_of_recording (.inl rfl) nofun
  · exact sound_ended sound isRunner
  · exact sound_update sound isRunner (safe_of_over (.inl ⟨_, _, rfl⟩))
  · exact sound_finish sound isRunner
  · exact sound

theorem sound_reject : Sound (world.reject me runner) := by
  simp only [JobWorld.reject]
  split
  · exact sound_update sound isRunner (safe_of_over (.inr rfl))
  · exact sound_update sound isRunner (safe_of_over (.inr rfl))
  · exact sound_update sound isRunner (safe_of_over (.inl ⟨_, _, rfl⟩))
  · exact sound_finish sound isRunner
  · exact sound

theorem sound_carryOutRenewal {leases : JobLeases Time} (lawful : leases.Lawful) :
    Sound (world.carryOutRenewal leases me runner) := by
  have safe := sound.each me runner isRunner
  simp only [JobWorld.carryOutRenewal]
  split
  · have isGranted := lawful.renewed (world.leases runner.job.name) me runner.job.leaseMs world.clock
    have sameHolder :=
      lawful.sameHolder (world.leases runner.job.name) me runner.job.leaseMs world.clock
    generalize leases.renew (world.leases runner.job.name) me runner.job.leaseMs world.clock =
      result at isGranted sameHolder ⊢
    obtain ⟨granted, lease⟩ := result
    have holders : ∀ name, ({ world.update me { runner with pending := some (.carriedOut granted) } with
        leases := Function.update world.leases runner.job.name lease } : JobWorld Time).holder name =
          world.holder name := by
      intro name
      rw [holder_update rfl]
      split
      · rename_i same
        rw [sameHolder, same]
        rfl
      · rfl
    apply sound.brings isRunner
    refine ⟨rfl, .of_same rfl holders, ?_, fun run => .inl⟩
    refine ⟨safe.fresh, ?_, safe.settled, ?_, safe.recorded⟩
    · intro phase isHolder
      rw [holders] at isHolder
      exact safe.holding phase isHolder
    · intro outcome phase isCarriedOut
      injection isCarriedOut with isCarriedOut
      injection isCarriedOut with isTrue
      exact safe.holding (.inr (.inr ⟨outcome, phase⟩)) (isGranted isTrue)
  · exact sound

theorem sound_endRenewal {granted : Bool}
    (isGranted : granted = true → runner.pending = some (.carriedOut true)) :
    Sound (world.endRenewal me runner granted) := by
  have safe := sound.each me runner isRunner
  simp only [JobWorld.endRenewal]
  apply sound_update sound isRunner
  simp only [Runner.afterRenewal]
  split
  · rename_i outcome phase _
    apply safe_of_recording (.inr rfl)
    intro succeeded
    refine ⟨safe.settled outcome phase, safe.granted outcome phase (isGranted ?_)⟩
    simp only [Runner.record] at succeeded
    split_ifs at succeeded with isLost
    have kept : runner.lost = false ∧ granted = true := by simpa [succeeded] using isLost
    exact kept.2
  · exact ⟨safe.fresh, safe.holding, safe.settled, nofun, safe.recorded⟩

theorem sound_timer : Sound (world.update me runner.renew) := by
  have safe := sound.each me runner isRunner
  apply sound_update sound isRunner
  simp only [Runner.renew]
  split
  · exact safe
  · exact ⟨safe.fresh, safe.holding, safe.settled, nofun, safe.recorded⟩

theorem sound_settle {succeeds : Bool} (working : runner.phase = .working)
    (holds : runner.pending = some (.carriedOut true) →
      world.holder runner.job.name = some me) :
    Sound (world.settle me runner succeeds) := by
  have holding := (sound.each me runner isRunner).holding (.inr (.inl working))
  apply sound.brings isRunner
  refine ⟨rfl, ⟨.inr (.inr rfl), fun _ _ _ => id⟩, ?_, fun run => .inl⟩
  have settled : ∀ outcome pending, (pending = some (.carriedOut true) →
      world.holder runner.job.name = some me) →
      Safe (world.settle me runner succeeds) me
        { runner with phase := .settled outcome, pending } := by
    intro outcome pending holds
    refine ⟨by simp, ?_, fun _ _ => List.mem_cons_self, ?_, by simp⟩
    · intro _ isHolder
      exact mt overtaken_settled.mp (holding isHolder)
    · intro _ _ isGranted
      exact mt overtaken_settled.mp (holding (holds isGranted))
  simp only [Runner.renew]
  split
  · rename_i idle
    simp only [Runner.afterRenewal]
    split
    · -- no renewal is in flight and none is sent: the work was aborted
      rename_i outcome _ noRenewal
      have isLost : runner.lost = true := by simpa [noRenewal] using idle
      apply safe_of_recording (.inr rfl)
      intro succeeded
      simp only [Runner.record, isLost, Bool.true_and, decide_eq_true_eq] at succeeded
      split_ifs at succeeded with isSucceeded
      exact absurd succeeded isSucceeded
    · exact settled _ _ holds
  · exact settled _ (some .sent) nofun

end Steps

/-- A run whose work settles while a renewal that was granted is unanswered is still named by the
lease. -/
def SettlesHolding (world : JobWorld Time) : JobEvent → Prop
  | .settle id _ =>
      match world.runners[id]? with
      | some runner => runner.phase = .working → runner.pending = some (.carriedOut true) →
          world.holder runner.job.name = some id
      | none => True
  | _ => True

instance (world : JobWorld Time) : (event : JobEvent) → Decidable (SettlesHolding world event)
  | .settle id _ =>
      match found : world.runners[id]? with
      | some runner =>
          decidable_of_iff (runner.phase = .working → runner.pending = some (.carriedOut true) →
            world.holder runner.job.name = some id) (by simp only [SettlesHolding, found])
      | none => .isTrue (by simp only [SettlesHolding, found])
  | .wait _ | .start _ | .carryOut _ | .answer _ | .reject _ | .carryOutRenewal .. |
    .answerRenewal _ | .rejectRenewal _ | .timer _ => .isTrue trivial

theorem Sound.next {store : Bool → JobLeases Time} (sound : Sound world)
    (lawful : ∀ failRenewal, (store failRenewal).Lawful) {event : JobEvent}
    (holds : SettlesHolding world event) : Sound (world.next store event) := by
  cases event with
  | wait elapsed => exact ⟨sound.bounded, fun id runner isRunner =>
      have safe := sound.each id runner isRunner
      ⟨safe.fresh, safe.holding, safe.settled, safe.granted, safe.recorded⟩, sound.runs⟩
  | start job =>
      have kept : ∀ id runner, world.runners[id]? = some runner →
          Safe (world.next store (.start job)) id runner := by
        intro id runner isRunner
        have safe := sound.each id runner isRunner
        exact ⟨safe.fresh, safe.holding, safe.settled, safe.granted, safe.recorded⟩
      refine ⟨?_, ?_, sound.runs⟩
      · intro id name isAcquired
        have inside := sound.bounded id name isAcquired
        simp only [JobWorld.next, List.length_append, List.length_singleton]
        omega
      · intro id runner isRunner
        simp only [JobWorld.next] at isRunner
        rcases Nat.lt_or_ge id world.runners.length with old | isNew
        · rw [List.getElem?_append_left old] at isRunner
          exact kept id runner isRunner
        · rw [List.getElem?_append_right isNew, List.getElem?_singleton] at isRunner
          split_ifs at isRunner
          rw [← Option.some.inj isRunner]
          refine ⟨?_, by simp, by simp, by simp, by simp⟩
          intro _ name isAcquired
          have inside := sound.bounded id name isAcquired
          omega
  | carryOut id =>
      simp only [JobWorld.next]
      split
      · rename_i runner isRunner
        exact sound_carryOut sound isRunner (lawful false)
      · exact sound
  | answer id =>
      simp only [JobWorld.next]
      split
      · rename_i runner isRunner
        exact sound_answer sound isRunner
      · exact sound
  | reject id =>
      simp only [JobWorld.next]
      split
      · rename_i runner isRunner
        exact sound_reject sound isRunner
      · exact sound
  | carryOutRenewal id failRenewal =>
      simp only [JobWorld.next]
      split
      · rename_i runner isRunner
        exact sound_carryOutRenewal sound isRunner (lawful failRenewal)
      · exact sound
  | answerRenewal id =>
      simp only [JobWorld.next]
      split
      · rename_i runner isRunner
        split
        · rename_i granted pending
          apply sound_endRenewal sound isRunner
          rintro rfl
          exact pending
        · exact sound
      · exact sound
  | rejectRenewal id =>
      simp only [JobWorld.next]
      split
      · rename_i runner isRunner
        split
        · exact sound_endRenewal sound isRunner nofun
        · exact sound
      · exact sound
  | timer id =>
      simp only [JobWorld.next]
      split
      · rename_i runner isRunner
        split
        · exact sound_timer sound isRunner
        · exact sound
      · exact sound
  | settle id succeeds =>
      simp only [JobWorld.next]
      split
      · rename_i runner isRunner
        simp only [SettlesHolding, isRunner] at holds
        split
        · rename_i working
          exact sound_settle sound isRunner working (holds working)
        · exact sound
      · exact sound

/-- In every run whose works settle so. -/
def SettlesThroughout (store : Bool → JobLeases Time) : JobWorld Time → List JobEvent → Prop
  | _, [] => True
  | world, event :: events =>
      SettlesHolding world event ∧ SettlesThroughout store (world.next store event) events

instance decidableSettlesThroughout (store : Bool → JobLeases Time) :
    (world : JobWorld Time) → (events : List JobEvent) →
      Decidable (SettlesThroughout store world events)
  | _, [] => .isTrue trivial
  | world, event :: events =>
      have := decidableSettlesThroughout store (world.next store event) events
      inferInstanceAs (Decidable (_ ∧ _))

theorem Sound.run {store : Bool → JobLeases Time} (sound : Sound world)
    (lawful : ∀ failRenewal, (store failRenewal).Lawful) {events : List JobEvent}
    (holds : SettlesThroughout store world events) : Sound (world.run store events) := by
  induction events generalizing world with
  | nil => exact sound
  | cons event events ih => exact ih (sound.next lawful holds.1) holds.2

theorem sound_initial (clock : ℤ) : Sound (JobWorld.initial clock : JobWorld Time) := by
  refine ⟨?_, ?_, ?_⟩
  · simp [JobWorld.initial]
  · simp [JobWorld.initial]
  · simp [JobWorld.initial]

end World

abbrev jobRun (store : JobRunsStore) (clock : ℤ) (events : List JobEvent) : JobWorld store.Time :=
  (JobWorld.initial clock).run store.leases events

/-- While no work settles without the lease and with a granted renewal unanswered: a run that is
recorded as succeeded was not overtaken, and two of them were never at work at once. -/
theorem succeeded_not_overtaken (store : JobRunsStore) (clock : ℤ) (events : List JobEvent)
    (holds : SettlesThroughout store.leases (JobWorld.initial clock) events) :
    (∀ run ∈ (jobRun store clock events).runs, run.outcome = .succeeded →
      ¬ Overtaken run.runId run.jobName (jobRun store clock events).history) ∧
    ∀ first ∈ (jobRun store clock events).runs, ∀ second ∈ (jobRun store clock events).runs,
      first.outcome = .succeeded → second.outcome = .succeeded → first.runId ≠ second.runId →
      first.jobName = second.jobName →
      ∀ later earlier, (jobRun store clock events).history = later ++ earlier →
        ¬ (AtWork first.runId first.jobName earlier ∧ AtWork second.runId second.jobName earlier) := by
  have sound := (sound_initial clock).run store.lawful holds
  have notOvertaken : ∀ run ∈ (jobRun store clock events).runs, run.outcome = .succeeded →
      ¬ Overtaken run.runId run.jobName (jobRun store clock events).history := by
    intro run runMem succeeded
    exact (sound.runs run runMem succeeded).2
  refine ⟨notOvertaken, ?_⟩
  intro first firstMem second secondMem firstSucceeded secondSucceeded differ sameJob later earlier
    isHistory ⟨firstWorks, secondWorks⟩
  have firstKept := notOvertaken first firstMem firstSucceeded
  have secondKept := notOvertaken second secondMem secondSucceeded
  rw [isHistory] at firstKept secondKept
  rw [← sameJob] at secondKept secondWorks
  rcases overtaken_of_atWork differ firstWorks secondWorks with overtaken | overtaken
  · exact firstKept (overtaken_append overtaken)
  · exact secondKept (overtaken_append overtaken)

/-! Two runs of the heartbeat with a lease of 30 s; a renewal of the first is granted after 10 s. -/

def heartbeatJob : JobOptions := ⟨.heartbeat, 30000⟩

def grantedRenewal : List JobEvent :=
  [.start heartbeatJob, .carryOut 0, .answer 0, .wait 10000000, .timer 0, .carryOutRenewal 0 false]

/-- The renewal is answered in time, another run is refused, and the first one succeeds. -/
def answeredInTime : List JobEvent :=
  grantedRenewal ++ [.answerRenewal 0, .start heartbeatJob, .carryOut 1, .answer 1, .carryOut 1,
    .settle 0 true, .carryOutRenewal 0 false, .answerRenewal 0, .carryOut 0, .answer 0, .carryOut 0]

/-- The answer is out for 31 s, in which another run acquires the lease. -/
def answeredLate : List JobEvent :=
  grantedRenewal ++ [.wait 31000000, .start heartbeatJob, .carryOut 1, .answer 1, .settle 0 true,
    .answerRenewal 0, .carryOut 0, .settle 1 true, .carryOutRenewal 1 false, .answerRenewal 1,
    .carryOut 1]

theorem succeeded_not_overtaken_in_time :
    ((jobRun .postgres 0 answeredInTime).runs.map fun run => (run.runId, run.outcome)) =
        [(1, .refusedOverlap), (0, .succeeded)] ∧
      ¬ Overtaken 0 .heartbeat (jobRun .postgres 0 answeredInTime).history := by
  refine ⟨by decide +kernel, ?_⟩
  have kept := (succeeded_not_overtaken .postgres 0 answeredInTime (by decide +kernel)).1
  exact kept ⟨0, .heartbeat, some ⟨0, by decide⟩, some ⟨10000, by decide⟩, 10000, .succeeded⟩
    (by decide +kernel) rfl

/-- The first run is overtaken, and both are recorded as succeeded. -/
theorem succeeded_overtaken :
    ¬ (∀ (store : JobRunsStore) (clock : ℤ) (events : List JobEvent),
      ∀ run ∈ (jobRun store clock events).runs, run.outcome = .succeeded →
        ¬ Overtaken run.runId run.jobName (jobRun store clock events).history) ∧
    ((jobRun .postgres 0 answeredLate).runs.map fun run => (run.runId, run.outcome)) =
      [(0, .succeeded), (1, .succeeded)] ∧
    ((jobRun .memory 0 answeredLate).runs.map fun run => (run.runId, run.outcome)) =
      [(0, .succeeded), (1, .succeeded)] ∧
    AtWork 0 .heartbeat ((jobRun .postgres 0 answeredLate).history.drop 2) ∧
    AtWork 1 .heartbeat ((jobRun .postgres 0 answeredLate).history.drop 2) := by
  have isHistory : (jobRun .postgres 0 answeredLate).history =
      [.settled 1, .settled 0, .acquired 1 .heartbeat, .acquired 0 .heartbeat] := by decide +kernel
  refine ⟨?_, by decide +kernel, by decide +kernel, ?_, ?_⟩
  · intro always
    apply always .postgres 0 answeredLate
      ⟨0, .heartbeat, some ⟨0, by decide⟩, some ⟨41000, by decide⟩, 41000, .succeeded⟩
      (by decide +kernel) rfl
    rw [isHistory]
    simp [Overtaken, AtWork]
  · rw [isHistory]
    simp [AtWork]
  · rw [isHistory]
    simp [AtWork]

end StudentHub.Jobs
