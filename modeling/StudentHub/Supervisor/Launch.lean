import StudentHub.Supervisor.Calls

/-!
# Launches keep to the discipline

Whoever makes the launch record is the only one to write it after that. It spawns one
worker, for the order that is bound.
-/

namespace StudentHub.Supervisor

open Ecma Concurrency Concurrency.Process JsString JsValue

-- Processes of many operations take a longer search.
set_option synthInstance.maxSize 2000

variable {host : SupervisorHost} {me fuel : ℕ} {attemptId token : JsString} {run : JsValue}
variable {Value Value' : Type} {process : Program Value} {fact : Machine → Prop}
variable {rest : Value → Program Value'} {known' : Value' → Machine → Prop}

/-- The others do not undo the fact, nor do free operations. -/
structure Kept (host : SupervisorHost) (me : ℕ) (fact : Machine → Prop) : Prop where
  stable : (supervision host).Stable me fact
  own : ∀ op given machine, (supervision host).Free op → Orderly host machine → fact machine →
    fact (handle me op given machine).2

theorem Kept.of_lasting (lasting : (supervision host).Lasting fact) : Kept host me fact where
  stable := lasting.stable
  own op given machine free orderly holds :=
    lasting me op given machine trivial orderly (free me machine) holds

theorem Kept.and {other : Machine → Prop} (left : Kept host me fact) (right : Kept host me other) :
    Kept host me fun machine => fact machine ∧ other machine where
  stable := left.stable.and right.stable
  own op given machine free orderly holds :=
    ⟨left.own op given machine free orderly holds.1,
      right.own op given machine free orderly holds.2⟩

theorem follows_kept [performing : Performing (supervision host).Free process]
    (kept : Kept host me fact)
    (second : ∀ value, (supervision host).Follows me fact (rest value)
      (Ends (Exhausted · fuel) known')) :
    (supervision host).Follows me fact (process >>= rest) (Ends (Exhausted · fuel) known') := by
  apply Discipline.Follows.bind (Discipline.Follows.of_performs performing.performs
    (fun _ machine free => free me machine) kept.stable kept.own)
  · intro value
    exact (second value).weaken fun _ _ known => known.1
  · rintro error machine _ ⟨-, unspent⟩ same
    exact absurd (congrArg Except.error same) unspent

theorem kept_unspawned : Kept host me fun machine =>
    ClaimedBy machine me attemptId ∧ Unspawned machine attemptId where
  stable := by
    rintro other op given machine different orderly allowed ⟨claimed, unspawned⟩
    refine ⟨mem_history_handle claimed, ?_⟩
    intro task order happened
    rcases mem_history_of_handle happened with old | ⟨_, _, _, _, _, same⟩ |
      ⟨_, _, _, _, rfl, same⟩
    · exact unspawned task order old
    · cases same
    · cases same
      exact different (orderly.unique _ _ _ _ allowed.1 claimed)
  own := by
    rintro op given machine free _ ⟨claimed, unspawned⟩
    refine ⟨mem_history_handle claimed, ?_⟩
    intro task order happened
    rcases mem_history_of_handle happened with old | ⟨_, _, _, _, _, same⟩ |
      ⟨_, _, _, _, rfl, _⟩
    · exact unspawned task order old
    · cases same
    · exact List.not_mem_nil (free me .empty).1

theorem kept_launch (launch : JsValue) : Kept host me fun machine =>
    ClaimedBy machine me attemptId ∧
      machine.get? .launches (fileName attemptId) = some launch where
  stable := by
    rintro other op given machine different orderly allowed ⟨claimed, isLaunch⟩
    refine ⟨mem_history_handle claimed, get?_handle_of_ne isLaunch ?_⟩
    rintro new rfl
    exact different (orderly.unique _ _ _ _ allowed.1 claimed)
  own := by
    rintro op given machine free _ ⟨claimed, isLaunch⟩
    refine ⟨mem_history_handle claimed, get?_handle_of_ne isLaunch ?_⟩
    rintro new rfl
    exact List.not_mem_nil (free me .empty).1

theorem lasting_claimed (task : ℕ) (attemptId : JsString) :
    (supervision host).Lasting fun machine => ClaimedBy machine task attemptId := by
  intro _ _ _ _ _ _ _ claimed
  exact mem_history_handle claimed

theorem follows_startWorker : (supervision host).Follows me
    (fun machine => ClaimedBy machine me attemptId ∧ Unspawned machine attemptId)
    (startWorker attemptId token)
    (Ends (Exhausted · fuel) fun _ machine => ClaimedBy machine me attemptId) := by
  unfold startWorker
  apply follows_readOrder kept_unspawned.stable
  intro order
  have unspawned : Kept host me fun machine =>
      ClaimedBy machine me attemptId ∧ Unspawned machine attemptId := kept_unspawned
  have bound : (supervision host).Lasting fun machine => Bound machine attemptId order :=
    lasting_bound
  have kept := unspawned.and (.of_lasting bound)
  apply follows_kept kept
  intro again
  apply follows_call (fun _ machine => ClaimedBy machine me attemptId) kept.stable
  · rintro machine _ ⟨⟨claimed, unspawned⟩, bound⟩
    exact ⟨claimed, unspawned, bound⟩
  · rintro given machine _ ⟨⟨claimed, -⟩, -⟩
    exact mem_history_handle claimed
  · intro child
    cases child with
    | none => exact follows_thrown nofun
    | some child =>
      dsimp only
      split
      · exact follows_returned fun _ _ claimed => claimed
      · exact follows_thrown nofun

theorem follows_workerStarted (child : Child) : (supervision host).Follows me
    (fun machine => ClaimedBy machine me attemptId) (workerStarted attemptId run child)
    (Ends (Exhausted · fuel) fun _ _ => True) := by
  unfold workerStarted
  apply follows_after (lasting_claimed me attemptId)
  intro startedAt
  apply follows_after (lasting_claimed me attemptId)
  intro running
  unfold readLaunch
  apply follows_readOf (lasting_claimed me attemptId).stable
  intro launch
  apply follows_kept (kept_launch launch)
  intro launchedAt
  simp only [markLaunch, bind_eq_bind, Process.bind_assoc]
  apply follows_paths
  apply follows_call (fun _ _ => True) (kept_launch launch).stable
  · rintro machine _ ⟨claimed, isLaunch⟩
    refine ⟨claimed, ?_⟩
    intro old isOld
    cases isLaunch.symm.trans isOld
    intro hash found
    apply get_jsonCopy_of_string
    rw [get_assign _ launch, found]
    simp only [List.map_cons, List.map_nil]
    decide
  · intro _ _ _ _
    trivial
  · intro _
    exact follows_returned fun _ _ _ => trivial

theorem follows_launchClaimed {reserved : JsValue}
    (noToken : ∀ hash, reserved.get (js "completion_token_hash") ≠ .string hash) :
    (supervision host).Follows me (fun machine =>
        (ClaimedBy machine me attemptId ∧ Unspawned machine attemptId) ∧
        ClaimedBy machine me attemptId ∧
          machine.get? .launches (fileName attemptId) = some reserved)
      (launchClaimed host attemptId run) (Ends (Exhausted · fuel) fun _ _ => True) := by
  have unspawned : Kept host me fun machine =>
      ClaimedBy machine me attemptId ∧ Unspawned machine attemptId := kept_unspawned
  have kept : Kept host me fun machine =>
      (ClaimedBy machine me attemptId ∧ Unspawned machine attemptId) ∧
        ClaimedBy machine me attemptId ∧
          machine.get? .launches (fileName attemptId) = some reserved :=
    unspawned.and (kept_launch reserved)
  unfold launchClaimed
  apply follows_kept kept
  intro token
  apply follows_kept kept
  intro now
  simp only [markLaunch, bind_eq_bind, Process.bind_assoc]
  apply follows_paths
  apply follows_call (fun _ machine => ClaimedBy machine me attemptId ∧
    Unspawned machine attemptId) kept.stable
  · rintro machine _ ⟨⟨claimed, -⟩, -, isReserved⟩
    refine ⟨claimed, ?_⟩
    intro old isOld hash found
    cases isReserved.symm.trans isOld
    exact absurd found (noToken hash)
  · rintro given machine _ ⟨unspawned, -⟩
    exact unspawned
  · intro _
    apply follows_attempt follows_startWorker
    · intro child
      exact follows_workerStarted child
    · intro error
      apply Discipline.Follows.weaken (follows_free lasting_true _) fun _ _ _ => trivial
      intro _ _ _ _
      trivial

theorem noToken_reservation (attemptId now hash : JsString) :
    (reservation attemptId now).jsonCopy.get (js "completion_token_hash") ≠ .string hash := by
  simp only [reservation, jsonCopy, jsonProperties]
  rw [get_eq_undefined]
  · nofun
  · simp only [List.map_cons, List.map_nil]
    decide

theorem launch_claimed {given : Given} {machine : Machine} {now : JsString}
    (orderly : Orderly host machine) :
    let result := handle me (.durableCreate .launches (fileName attemptId)
      (reservation attemptId now)) given machine
    result.1 = true → (ClaimedBy result.2 me attemptId ∧ Unspawned result.2 attemptId) ∧
      ClaimedBy result.2 me attemptId ∧ result.2.get? .launches (fileName attemptId) =
        some (reservation attemptId now).jsonCopy := by
  intro result claimed
  cases absent : machine.get? .launches (fileName attemptId) with
  | some launch => simp [result, handle, absent] at claimed
  | none =>
    have claimedBy : ClaimedBy result.2 me attemptId := by
      simp [result, handle, absent, ClaimedBy]
    refine ⟨⟨claimedBy, ?_⟩, claimedBy, by simp [result, handle, absent, get?_put]⟩
    intro task order happened
    rcases mem_history_of_handle happened with old | ⟨_, _, _, _, _, same⟩ | ⟨_, _, _, _, isOp, _⟩
    · rcases orderly.chronicle.of_mem old with ⟨earlier, suffix, older, -⟩
      have present := orderly.present _ _ _ (mem_of_mem_suffix suffix older)
      rw [absent] at present
      cases present
    · cases same
    · cases isOp

theorem follows_launch : (supervision host).Follows me (fun _ => True) (launch host attemptId)
    (Ends (Exhausted · fuel) fun _ _ => True) := by
  unfold launch
  apply follows_after lasting_true
  intro run
  split
  · exact follows_returned fun _ _ _ => trivial
  apply follows_after lasting_true
  intro awaits
  split
  · exact follows_returned fun _ _ _ => trivial
  apply follows_after lasting_true
  intro now
  simp only [claimLaunch, bind_eq_bind, Process.bind_assoc]
  apply follows_paths
  apply follows_call (fun claimed machine => claimed = true →
    (ClaimedBy machine me attemptId ∧ Unspawned machine attemptId) ∧
      ClaimedBy machine me attemptId ∧ machine.get? .launches (fileName attemptId) =
        some (reservation attemptId now).jsonCopy) lasting_true.stable
  · intro _ _ _
    trivial
  · intro given machine orderly _
    exact launch_claimed orderly
  intro claimed
  split
  case isTrue isClaimed =>
    apply (follows_launchClaimed (noToken_reservation attemptId now)).weaken
    intro machine _ known
    exact known isClaimed
  case isFalse =>
    apply Discipline.Follows.weaken (follows_free lasting_true _) fun _ _ _ => trivial
    intro _ _ _ _
    trivial

theorem follows_program (task : Task) : (supervision host).Follows me (fun _ => True)
    (program host fuel task) (Ends (Exhausted · fuel) fun _ _ => True) := by
  cases task with
  | submit order => exact follows_submit
  | launch attemptId => exact follows_launch
  | recover => exact follows_recover
  | complete completion =>
    apply follows_after lasting_true
    intro recorded
    cases recorded with
    | ok value => exact follows_returned fun _ _ _ => trivial
    | error reason => exact follows_returned fun _ _ _ => trivial
  | _ =>
    unfold program
    exact follows_free lasting_true fun _ _ _ _ => trivial

end StudentHub.Supervisor
