import StudentHub.Supervisor.Discipline

/-!
# Admission keeps to the discipline

The steps of an admission are allowed by what the task has learned before: whoever comes
to the end of the chain of claims has found every owner on the way to be done, and only an
owner of a claim binds its order.
-/

namespace StudentHub.Supervisor

open Ecma Concurrency Concurrency.Process Graph JsString JsValue

-- Processes of many operations take a longer search.
set_option synthInstance.maxSize 2000

section Free

variable {host : SupervisorHost}

instance : Reads (supervision host).Free where
  reads op read := by
    intro me machine
    cases op with
    | durableCreate directory name value => exact absurd read id
    | durableReplace directory name value => exact absurd read id
    | spawnWorker order attemptId targetSha token => exact absurd read id
    | _ => trivial

instance : Creates (supervision host).Free .intents := ⟨fun _ _ _ _ => trivial⟩

instance : Creates (supervision host).Free .runs := ⟨fun _ _ _ _ => trivial⟩

instance : Creates (supervision host).Free .completions := ⟨fun _ _ _ _ => trivial⟩

instance : Replaces (supervision host).Free .intents := ⟨fun _ _ _ _ => trivial⟩

instance : Replaces (supervision host).Free .runs := ⟨fun _ _ _ _ => trivial⟩

end Free

section Lasting

variable {host : SupervisorHost} {directory : Directory} {name key attemptId : JsString}
variable {predecessor : JsString} {value : JsValue}

theorem lasting_file
    (isFixed : directory = .orders ∨ directory = .completions ∨ directory = .branches) :
    (supervision host).Lasting fun machine => machine.get? directory name = some value := by
  intro _ _ _ _ _ _ allowed stored
  exact get?_handle_of_fixed allowed isFixed stored

theorem lasting_launch (name : JsString) (launch : JsValue) :
    (supervision host).Lasting fun machine =>
      ∃ new, machine.get? .launches name = some new ∧ KeepsToken launch new := by
  rintro _ _ _ _ _ _ allowed ⟨new, stored, keeps⟩
  rcases exists_launch_handle allowed stored with ⟨newer, isNewer, keepsNew⟩
  exact ⟨newer, isNewer, fun hash holds => keepsNew hash (keeps hash holds)⟩

theorem lasting_walked {passes : ℕ} : (supervision host).Lasting fun machine =>
    Walked host machine key attemptId predecessor passes := by
  intro _ _ _ _ _ _ allowed walked
  exact walked_handle allowed walked

theorem lasting_bound {order : JsValue} : (supervision host).Lasting fun machine =>
    Bound machine attemptId order := by
  intro _ _ _ _ _ _ allowed bound
  exact bound_handle allowed bound

theorem lasting_true : (supervision host).Lasting fun _ => True :=
  Discipline.StableUnder.const True

end Lasting

def Exhausted (machine : Machine) (fuel : ℕ) : Prop :=
  ∃ key passed finish, fuel ≤ passed.length ∧ (js "initial" :: passed).Nodup ∧
    Walk (ownerOf machine key) (js "initial") passed finish

theorem lasting_exhausted {host : SupervisorHost} (fuel : ℕ) :
    (supervision host).Lasting (Exhausted · fuel) := by
  rintro _ _ _ _ _ _ allowed ⟨key, passed, finish, enough, nodup, walk⟩
  exact ⟨key, passed, finish, enough, nodup, walk.mono fun _ _ => ownerOf_handle allowed⟩

section Results

variable {host : SupervisorHost} {me fuel : ℕ} {fact : Machine → Prop} {attemptId : JsString}

theorem follows_validatedCompletion (lasting : (supervision host).Lasting fact) :
    (supervision host).Follows me fact (validatedCompletion host attemptId)
      (Ends (Exhausted · fuel) fun result machine => fact machine ∧
        ∀ value, result = .ok value → Validated host machine attemptId) := by
  have refused : ∀ (reason : JsString) (learned : Machine → Prop),
      (∀ machine, learned machine → fact machine) →
      (supervision host).Follows me learned (pure (Except.error reason) : Program _)
        (Ends (Exhausted · fuel) fun result machine => fact machine ∧
          ∀ value : JsValue, result = Except.ok value → Validated host machine attemptId) := by
    intro reason learned includes
    apply follows_returned
    intro machine _ holds
    exact ⟨includes machine holds, nofun⟩
  unfold validatedCompletion
  apply follows_after lasting
  intro completed
  split
  · exact refused _ _ fun _ => id
  apply follows_after lasting
  intro launched
  split
  · exact refused _ _ fun _ => id
  unfold readCompletion readLaunch
  apply follows_readOf lasting.stable
  intro stored
  have stays : (supervision host).Lasting fun machine =>
      machine.get? .completions (fileName attemptId) = some stored := lasting_file (.inr (.inl rfl))
  have knownStored := lasting.and stays
  split
  · exact refused _ _ fun _ => And.left
  case isFalse version =>
    apply follows_readOf (Discipline.Lasting.stable knownStored)
    intro launch
    have knownLaunch := knownStored.and (lasting_launch (fileName attemptId) launch)
    apply Discipline.Follows.weaken (follows_readOrder (Discipline.Lasting.stable knownLaunch) _)
    · rintro machine _ ⟨holds, isLaunch⟩
      exact ⟨holds, launch, isLaunch, fun _ => id⟩
    · intro order
      split
      case isFalse => exact refused _ _ fun _ known => known.1.1.1
      case isTrue confirmed =>
        apply follows_returned
        rintro machine _ ⟨⟨⟨holds, isStored⟩, new, isNew, keeps⟩, bound, isBound, rfl⟩
        refine ⟨holds, ?_⟩
        intro _ _
        exact ⟨stored, new, bound, isStored, isNew, isBound, by simpa using version,
          confirms_of_keepsToken keeps confirmed⟩

theorem follows_ownerFinished (lasting : (supervision host).Lasting fact) :
    (supervision host).Follows me fact (ownerFinished host attemptId)
      (Ends (Exhausted · fuel) fun finished machine => fact machine ∧
        (finished = true → Validated host machine attemptId)) := by
  unfold ownerFinished
  apply follows_after lasting
  intro run
  apply follows_after lasting
  intro finished
  split
  · apply follows_bind (follows_validatedCompletion lasting)
    intro result
    apply follows_returned
    rintro machine _ ⟨holds, isValid⟩
    refine ⟨holds, ?_⟩
    intro isOk
    cases result with
    | ok value => exact isValid value rfl
    | error reason => cases isOk
  · apply follows_returned
    intro machine _ holds
    exact ⟨holds, nofun⟩

theorem follows_examineOwner (lasting : (supervision host).Lasting fact) (order : JsValue) :
    (supervision host).Follows me fact (examineOwner host order attemptId)
      (Ends (Exhausted · fuel) fun outcome machine => fact machine ∧
        (outcome = none → Validated host machine attemptId)) := by
  unfold examineOwner
  apply follows_bind (follows_ownerFinished lasting)
  intro finished
  split
  case isTrue isFinished =>
    apply follows_returned
    intro machine _ known
    exact ⟨known.1, fun _ => known.2 isFinished⟩
  case isFalse =>
    apply Discipline.Follows.weaken (follows_after lasting _) fun _ _ known => known.1
    intro _
    apply follows_returned
    intro machine _ holds
    exact ⟨holds, nofun⟩

end Results

section Admission

variable {host : SupervisorHost} {me fuel passes : ℕ} {order : JsValue}
variable {attemptId predecessor owner : JsString} {machine : Machine}

theorem walked_zero (key attemptId : JsString) :
    Walked host machine key attemptId (js "initial") 0 :=
  ⟨[], rfl, rfl, List.not_mem_nil, nofun⟩

theorem Walked.next {key : JsString}
    (walked : Walked host machine key attemptId predecessor passes)
    (link : ownerOf machine key predecessor = some owner) (different : owner ≠ attemptId)
    (validated : Validated host machine owner) :
    Walked host machine key attemptId owner (passes + 1) := by
  rcases walked with ⟨passed, rfl, walk, fresh, allDone⟩
  refine ⟨passed ++ [owner], by simp, walk.snoc link, ?_, ?_⟩
  · simp [fresh, Ne.symm different]
  · intro other isPassed
    rcases List.mem_append.mp isPassed with before | last
    · exact allDone other before
    · rw [List.mem_singleton.mp last]
      exact validated

theorem exhausted_of_walked {key : JsString} (orderly : Orderly host machine)
    (length : key.length = 64) (walked : Walked host machine key attemptId predecessor passes) :
    Exhausted machine passes := by
  rcases walked with ⟨passed, rfl, walk, -, -⟩
  have chained := orderly.chained key length
  exact ⟨key, passed, predecessor, le_rfl,
    List.nodup_cons.mpr ⟨chained.start_not_mem walk, chained.nodup walk⟩, walk⟩

theorem follows_claimBranch (named : order.get (js "attempt_id") = .string attemptId)
    (proper : attemptId ≠ js "initial") (fuel passes : ℕ) (predecessor : JsString) :
    (supervision host).Follows me
      (fun machine => Walked host machine (branchKey host order) attemptId predecessor passes)
      (claimBranch host order fuel predecessor)
      (Ends (Exhausted · (passes + fuel)) fun outcome machine => outcome = none →
        Linked machine (branchKey host order) attemptId) := by
  induction fuel generalizing passes predecessor with
  | zero =>
    apply Discipline.Follows.thrown
    intro machine orderly walked _
    exact exhausted_of_walked orderly (length_branchKey order) walked
  | succ fuel ih =>
    unfold claimBranch
    apply follows_call (fun created machine =>
      Walked host machine (branchKey host order) attemptId predecessor passes ∧
        (created = true → Linked machine (branchKey host order) attemptId)) lasting_walked.stable
    · intro machine orderly walked _
      exact ⟨_, predecessor, attemptId, passes, length_branchKey order, proper, rfl,
        by rw [named], walked⟩
    · intro given machine orderly walked
      refine ⟨walked_handle ?_ walked, ?_⟩
      · intro _
        exact ⟨_, predecessor, attemptId, passes, length_branchKey order, proper, rfl,
          by rw [named], walked⟩
      · intro created
        refine ⟨predecessor, ?_⟩
        cases absent : machine.get? .branches (claimName (branchKey host order) predecessor) with
        | some held => simp [handle, absent] at created
        | none =>
          simp only [handle, absent, ownerOf, get?_record, get?_put, true_and, if_true,
            Option.map_some, Option.some.injEq]
          rw [named]
          exact textOf_of_get (get_claim attemptId)
    intro created
    split
    case isTrue isCreated =>
      apply follows_returned
      intro machine _ known _
      exact known.2 isCreated
    case isFalse =>
      apply Discipline.Follows.weaken (follows_readJson lasting_walked.stable _)
        fun _ _ known => known.1
      intro held
      refine Discipline.Follows.of_implied (fun machine (orderly : Orderly host machine) known =>
        orderly.claims _ held known.2) ?_
      rintro ⟨owner, heldBy⟩
      have link : ∀ machine : Machine, machine.get? .branches
          (claimName (branchKey host order) predecessor) = some held →
          ownerOf machine (branchKey host order) predecessor = some owner := by
        intro machine stored
        rw [ownerOf, stored, Option.map_some, textOf_of_get heldBy]
      rw [heldBy, named]
      split
      case isTrue same =>
        apply follows_returned
        intro machine _ known _
        refine ⟨predecessor, ?_⟩
        rw [link machine known.2]
        simpa [strictEq] using same
      case isFalse different =>
        rw [textOf_of_get heldBy]
        have another : owner ≠ attemptId := by
          rintro rfl
          simp [strictEq] at different
        have walked : (supervision host).Lasting fun machine =>
            Walked host machine (branchKey host order) attemptId predecessor passes :=
          lasting_walked
        have stays : (supervision host).Lasting fun machine => machine.get? .branches
            (claimName (branchKey host order) predecessor) = some held :=
          lasting_file (.inr (.inr rfl))
        have knownLink := walked.and stays
        have ambiguous : ∀ refusal : Acceptance, (supervision host).Follows me (fun _ => True)
            (holdIntent order (js "MISSING_AUTHORITY") >>= fun _ => pure (some refusal))
            (Ends (Exhausted · (passes + (fuel + 1))) fun outcome machine => outcome = none →
              Linked machine (branchKey host order) attemptId) := by
          intro refusal
          apply follows_after lasting_true
          intro _
          exact follows_returned fun _ _ _ none => by cases none
        apply follows_attempt (follows_examineOwner knownLink order)
        · intro outcome
          cases outcome with
          | some refusal => exact follows_returned fun _ _ _ none => by cases none
          | none =>
            rw [← Nat.succ_add_eq_add_succ]
            apply (ih (passes + 1) owner).weaken
            rintro machine _ ⟨⟨walked, stored⟩, validated⟩
            exact walked.next (link machine stored) another (validated rfl)
        · intro error
          cases error with
          | assertion message => exact follows_thrown (by simp)
          | failure message => exact (ambiguous _).weaken fun _ _ _ => trivial
          | fuelSpent => exact (ambiguous _).weaken fun _ _ _ => trivial

theorem follows_bindOrder (valid : validateBoundOrder host order = true) (now : JsString) :
    (supervision host).Follows me
      (fun machine => (machine.get? .orders (fileName (textOf order (js "attempt_id")))).isSome ∨
        Linked machine (branchKey host order) (textOf order (js "attempt_id")))
      (bindOrder host order now (fileName (textOf order (js "attempt_id"))))
      (Ends (Exhausted · fuel) fun _ _ => True) := by
  unfold bindOrder
  apply follows_call (fun _ _ => True)
  · intro other op given machine different orderly allowed ready
    rcases ready with stored | linked
    · exact .inl (isSome_handle stored)
    · exact .inr (linked_handle allowed linked)
  · intro machine _ ready absent
    rcases ready with stored | linked
    · rw [absent] at stored
      cases stored
    · exact ⟨order, valid, rfl, rfl, linked⟩
  · intro _ _ _ _
    trivial
  · intro created
    exact follows_free lasting_true fun _ _ _ _ => trivial

theorem follows_accept (now : JsString) :
    (supervision host).Follows me (fun _ => True) (accept host fuel order now)
      (Ends (Exhausted · fuel) fun _ _ => True) := by
  have intended : (supervision host).Follows me (fun _ => True)
      (intend host order now (js "AWAITING_LAUNCH"))
      (Ends (Exhausted · fuel) fun _ _ => validateBoundOrder host order = true) := by
    unfold intend
    apply follows_after lasting_true
    intro _
    apply follows_check
    intro valid
    exact follows_free lasting_true fun _ _ _ _ => valid
  unfold accept
  apply follows_attempt intended
  · intro intent
    refine Discipline.Follows.of_implied (fun _ _ valid => valid) ?_
    intro valid
    rcases attemptId_of_valid valid with ⟨named, length⟩
    have proper : textOf order (js "attempt_id") ≠ js "initial" := by
      intro same
      rw [same] at length
      exact absurd length (by decide)
    apply Discipline.Follows.weaken _ fun _ _ _ => trivial
    apply follows_paths
    apply follows_call (fun present machine => present = true →
      (machine.get? .orders (fileName (textOf order (js "attempt_id")))).isSome)
      lasting_true.stable
    · intro _ _ _
      trivial
    · intro given machine _ _ present
      exact present
    intro present
    split
    case isTrue isPresent =>
      apply (follows_bindOrder valid now).weaken
      intro machine _ known
      exact .inl (known isPresent)
    case isFalse =>
      apply Discipline.Follows.weaken _ fun _ _ _ => trivial
      have walk : (supervision host).Follows me
          (fun machine => Walked host machine (branchKey host order)
            (textOf order (js "attempt_id")) (js "initial") 0)
          (claimBranch host order fuel (js "initial")) _ :=
        follows_claimBranch named proper fuel 0 (js "initial")
      rw [Nat.zero_add] at walk
      apply follows_bind (walk.weaken fun _ _ _ => walked_zero _ _)
      intro outcome
      cases outcome with
      | some refusal => exact follows_returned fun _ _ _ => trivial
      | none =>
        apply (follows_bindOrder valid now).weaken
        intro machine _ known
        exact .inr (known rfl)
  · intro error
    cases error with
    | assertion message =>
      dsimp only
      split
      · exact follows_thrown nofun
      · exact follows_returned fun _ _ _ => trivial
    | failure message => exact follows_thrown nofun
    | fuelSpent =>
      apply Discipline.Follows.thrown
      intro machine _ exhausted
      exact exhausted

theorem follows_submit : (supervision host).Follows me (fun _ => True) (submit host fuel order)
    (Ends (Exhausted · fuel) fun _ _ => True) := by
  unfold submit
  split
  · exact follows_returned fun _ _ _ => trivial
  · apply follows_after lasting_true
    intro now
    apply follows_bind (follows_accept now)
    intro acceptance
    cases acceptance with
    | hold reason holdCode => exact follows_returned fun _ _ _ => trivial
    | accepted duplicate run => exact follows_free lasting_true fun _ _ _ _ => trivial

theorem follows_acceptPending (intents : List JsValue) :
    (supervision host).Follows me (fun _ => True) (acceptPending host fuel intents)
      (Ends (Exhausted · fuel) fun _ _ => True) := by
  induction intents with
  | nil => exact follows_returned fun _ _ _ => trivial
  | cons intent rest ih =>
    unfold acceptPending
    split
    · apply follows_after lasting_true
      intro now
      exact follows_bind (follows_accept now) fun _ => ih
    · exact ih

theorem follows_recover : (supervision host).Follows me (fun _ => True) (recover host fuel)
    (Ends (Exhausted · fuel) fun _ _ => True) := by
  unfold recover
  apply follows_after lasting_true
  intro intents
  apply follows_bind (follows_acceptPending intents)
  intro _
  exact follows_free lasting_true fun _ _ _ _ => trivial

end Admission

end StudentHub.Supervisor
