import StudentHub.Supervisor.Status

/-!
# Admitted attempts that wait for their launch

The calls of one supervisor come one after another. An order is admitted after its intent,
and the intent says whether it may be launched. An intent that was held when its order was
refused keeps to that, so an order that is admitted later must not have been refused before.
-/

namespace StudentHub.Supervisor

open Ecma Concurrency Concurrency.Process Graph JsString JsValue

-- Processes of many operations take a longer search.
set_option synthInstance.maxSize 2000

def Waits (machine : Machine) (order : JsValue) : Prop :=
  ∃ intent, machine.get? .intents (intentNameOf order) = some intent ∧
    intent.get (js "hold_code") = .string (js "AWAITING_LAUNCH")

/-- Every run is one of an admitted attempt, and one that has no launch record waits for it. -/
structure Attended (host : SupervisorHost) (machine : Machine) : Prop where
  ordered : ∀ name, (machine.get? .runs name).isSome → (machine.get? .orders name).isSome
  bound : ∀ name stored, machine.get? .orders name = some stored →
    ∃ order, validateBoundOrder host order = true ∧
      stored = (durableOrder host order).jsonCopy ∧
      name = fileName (textOf order (js "attempt_id"))
  waits : ∀ name stored, machine.get? .orders name = some stored →
    machine.get? .launches name = none → Waits machine (stored.get (js "order"))

def Attends (host : SupervisorHost) (guarded : JsString → Prop) : Op → Machine → Prop
  | .durableCreate .orders name value, machine => machine.get? .orders name = none →
      ∃ order, validateBoundOrder host order = true ∧ value = durableOrder host order ∧
        name = fileName (textOf order (js "attempt_id")) ∧ Waits machine order
  | .durableReplace .orders _ _, _ => False
  | .durableReplace .intents name _, machine => ¬guarded name ∧
      ∀ other stored, machine.get? .orders other = some stored →
        intentNameOf (stored.get (js "order")) = name → (machine.get? .launches other).isSome
  | .durableCreate .runs name _, machine => (machine.get? .orders name).isSome
  | .durableReplace .runs name _, machine => (machine.get? .orders name).isSome
  | _, _ => True

section Keeps

variable {host : SupervisorHost} {guarded : JsString → Prop} {me : ℕ} {op : Op} {given : Given}
variable {machine : Machine} {order : JsValue} {name : JsString} {intent : JsValue}

theorem intentNameOf_jsonCopy (valid : validateBoundOrder host order = true) :
    intentNameOf order.jsonCopy = intentNameOf order := by
  rw [intentNameOf, intentNameOf,
    textOf_of_get (get_jsonCopy_of_string (issue_of_valid valid)),
    textOf_of_get (get_jsonCopy_of_string (attemptId_of_valid valid).1)]

theorem attempt_of_intentName {order' : JsValue} (valid : validateBoundOrder host order = true)
    (valid' : validateBoundOrder host order' = true)
    (same : intentNameOf order = intentNameOf order') :
    textOf order (js "attempt_id") = textOf order' (js "attempt_id") := by
  simp only [intentNameOf, intentName] at same
  apply fileName_injective
  apply List.append_inj_right' same
  simp only [fileName, List.length_append, (attemptId_of_valid valid).2,
    (attemptId_of_valid valid').2]

theorem waits_handle (waits : Waits machine order)
    (unwritten : ∀ value, op ≠ .durableReplace .intents (intentNameOf order) value) :
    Waits (handle me op given machine).2 order := by
  rcases waits with ⟨intent, stored, code⟩
  exact ⟨intent, get?_handle_of_ne stored unwritten, code⟩

theorem Attended.keeps (attended : Attended host machine)
    (attends : Attends host guarded op machine) : Attended host (handle me op given machine).2 where
  ordered := by
    intro name present
    apply isSome_handle
    rcases Option.isSome_iff_exists.mp present with ⟨run, isRun⟩
    rcases get?_handle_eq_some isRun with old | ⟨new, rfl, -, -⟩ | ⟨new, rfl, -⟩
    · exact attended.ordered name (Option.isSome_of_eq_some old)
    · exact attends
    · exact attends
  bound := by
    intro name stored isStored
    rcases get?_handle_eq_some isStored with old | ⟨new, rfl, absent, rfl⟩ | ⟨new, rfl, -⟩
    · exact attended.bound name stored old
    · rcases attends absent with ⟨order, valid, rfl, named, -⟩
      exact ⟨order, valid, rfl, named⟩
    · exact absurd attends id
  waits := by
    intro name stored isStored unlaunched
    have unlaunchedBefore : machine.get? .launches name = none := by
      cases launched : machine.get? .launches name with
      | none => rfl
      | some launch =>
        have still : ((handle me op given machine).2.get? .launches name).isSome :=
          isSome_handle (Option.isSome_of_eq_some launched)
        rw [unlaunched] at still
        cases still
    rcases get?_handle_eq_some isStored with old | ⟨new, rfl, absent, rfl⟩ | ⟨new, rfl, -⟩
    · apply waits_handle (attended.waits name stored old unlaunchedBefore)
      rintro value rfl
      have launched := attends.2 name stored old rfl
      rw [unlaunchedBefore] at launched
      cases launched
    · rcases attends absent with ⟨order, valid, rfl, named, waits⟩
      rw [get_order_durableOrder]
      rcases waits with ⟨intent, isIntent, code⟩
      rw [Waits, intentNameOf_jsonCopy valid]
      exact ⟨intent, get?_handle_of_ne isIntent nofun, code⟩
    · exact absurd attends id

end Keeps

def attending (host : SupervisorHost) (active : ℕ) (guarded : JsString → Prop) :
    Discipline handle where
  Allowed me op machine := me = active ∧ Attends host guarded op machine
  Invariant := Attended host
  keeps _ _ _ _ attended allowed := attended.keeps allowed.2

section Free

variable {host : SupervisorHost} {active : ℕ} {guarded : JsString → Prop}

instance : Reads ((attending host active guarded).FreeTo active) where
  reads op read := by
    intro machine
    cases op with
    | durableCreate directory name value => exact absurd read id
    | durableReplace directory name value => exact absurd read id
    | spawnWorker order attemptId targetSha token => exact absurd read id
    | _ => exact ⟨rfl, trivial⟩

instance : Creates ((attending host active guarded).FreeTo active) .intents :=
  ⟨fun _ _ _ => ⟨rfl, trivial⟩⟩

instance : Creates ((attending host active guarded).FreeTo active) .launches :=
  ⟨fun _ _ _ => ⟨rfl, trivial⟩⟩

instance : Creates ((attending host active guarded).FreeTo active) .completions :=
  ⟨fun _ _ _ => ⟨rfl, trivial⟩⟩

instance : Replaces ((attending host active guarded).FreeTo active) .launches :=
  ⟨fun _ _ _ => ⟨rfl, trivial⟩⟩

instance : Spawns ((attending host active guarded).FreeTo active) :=
  ⟨fun _ _ _ _ _ => ⟨rfl, trivial⟩⟩

theorem stable_attending (fact : Machine → Prop) :
    (attending host active guarded).Stable active fact := by
  intro me op given machine different _ allowed
  exact absurd allowed.1 different

end Free

section Runs

variable {host : SupervisorHost} {active : ℕ} {guarded : JsString → Prop}
variable {Value Value' : Type} {process : Program Value} {rest : Value → Program Value'}
variable {attemptId token : JsString} {run : JsValue}

abbrev Keeps {Value : Type} (host : SupervisorHost) (active : ℕ) (guarded : JsString → Prop)
    (fact : Machine → Prop) (process : Program Value) (known : Value → Machine → Prop) : Prop :=
  (attending host active guarded).Follows active fact process (Ends (fun _ => True) known)

def HasRun (attemptId : JsString) (machine : Machine) : Prop :=
  (machine.get? .runs (fileName attemptId)).isSome

theorem lasting_hasRun : (attending host active guarded).Lasting (HasRun attemptId) := by
  intro _ _ _ _ _ _ _ present
  exact isSome_handle present

theorem lasting_always : (attending host active guarded).Lasting fun _ => True :=
  Discipline.StableUnder.const True

theorem keeps_readRun {rest : JsValue → Program Value'} {known : Value' → Machine → Prop}
    {fact : Machine → Prop}
    (second : ∀ run, Keeps host active guarded (HasRun attemptId) (rest run) known) :
    Keeps host active guarded fact (readRun attemptId >>= rest) known := by
  unfold readRun
  apply follows_readOf (stable_attending _)
  intro run
  apply (second run).weaken
  intro machine _ stored
  exact Option.isSome_of_eq_some stored.2

theorem keeps_writeRun : Keeps host active guarded (HasRun attemptId) (writeRun attemptId run)
    fun _ => HasRun attemptId := by
  unfold writeRun
  apply follows_paths
  apply follows_call (fun _ => HasRun attemptId) (stable_attending _)
  · intro machine attended present
    exact ⟨rfl, attended.ordered _ present⟩
  · intro given machine _ present
    exact isSome_handle present
  · intro _
    exact follows_returned fun _ _ => id

theorem keeps_done {fact : Machine → Prop} {value : Value} :
    Keeps host active guarded fact (pure value) fun _ _ => True :=
  follows_returned fun _ _ _ => trivial

theorem keeps_written {run : JsValue} : Keeps host active guarded (HasRun attemptId)
    (writeRun attemptId run) fun _ _ => True :=
  keeps_writeRun.strengthen fun result _ _ _ => match result with
    | .ok _ => trivial
    | .error _ => fun _ => trivial

theorem keeps_workerStarted (child : Child) : Keeps host active guarded (HasRun attemptId)
    (workerStarted attemptId run child) fun _ _ => True := by
  unfold workerStarted
  apply follows_after lasting_hasRun
  intro now
  apply follows_bind keeps_writeRun
  intro running
  exact follows_free lasting_hasRun fun _ _ _ _ => trivial

theorem keeps_launch : Keeps host active guarded (fun _ => True) (launch host attemptId)
    fun _ _ => True := by
  unfold launch
  apply keeps_readRun
  intro run
  split
  · exact keeps_done
  apply follows_after lasting_hasRun
  intro waits
  split
  · exact keeps_done
  apply follows_after lasting_hasRun
  intro now
  apply follows_after lasting_hasRun
  intro claimed
  split
  · unfold launchClaimed
    apply follows_after lasting_hasRun
    intro token
    apply follows_after lasting_hasRun
    intro now
    apply follows_after lasting_hasRun
    intro _
    apply follows_after lasting_hasRun
    intro outcome
    cases outcome with
    | error error =>
      unfold spawnFailed
      apply follows_after lasting_hasRun
      intro now
      exact keeps_written
    | ok child => exact keeps_workerStarted child
  · exact follows_free lasting_hasRun fun _ _ _ _ => trivial

theorem keeps_finish (ending : Ending) (outputBytes : ℕ) : Keeps host active guarded
    (fun _ => True) (finish host attemptId token ending outputBytes) fun _ _ => True := by
  unfold finish
  apply follows_after lasting_always
  intro latest
  apply follows_after lasting_always
  intro now
  apply follows_after lasting_always
  intro recorded
  apply keeps_readRun
  intro run
  apply follows_after lasting_hasRun
  intro now
  exact keeps_written

theorem keeps_heartbeat (at_ : JsString) : Keeps host active guarded (fun _ => True)
    (heartbeat host attemptId at_) fun _ _ => True := by
  unfold heartbeat
  split
  · apply keeps_readRun
    intro run
    exact keeps_written
  · exact keeps_done

theorem keeps_shutdownChild : Keeps host active guarded (fun _ => True)
    (shutdownChild attemptId) fun _ _ => True := by
  unfold shutdownChild
  apply keeps_readRun
  intro run
  apply follows_after lasting_hasRun
  intro now
  exact keeps_written

theorem keeps_recoverCompleted : Keeps host active guarded (HasRun attemptId)
    (recoverCompleted host attemptId run) fun _ _ => True := by
  unfold recoverCompleted
  apply follows_after lasting_hasRun
  intro checked
  cases checked with
  | ok completion =>
    apply follows_after lasting_hasRun
    intro now
    exact keeps_written
  | error reason =>
    apply follows_after lasting_hasRun
    intro now
    exact keeps_written

theorem keeps_recoverRunning : Keeps host active guarded (HasRun attemptId)
    (recoverRunning attemptId run) fun _ _ => True := by
  unfold recoverRunning
  apply follows_after lasting_hasRun
  intro alive
  split
  · exact keeps_done
  · apply follows_after lasting_hasRun
    intro now
    exact keeps_written

end Runs

def MayAnswer {Value : Type} (machine : Machine) :
    Program Value → Except SupervisorError Value → Prop
  | returned value, result => result = .ok value
  | thrown error, result => result = .error error
  | perform op next, result =>
      ∃ given, MayAnswer machine (next (handle 0 op given machine).1) result

def Finished (host : SupervisorHost) (machine : Machine) (owner : JsString) : Prop :=
  MayAnswer machine (ownerFinished host owner) (.ok true)

/-- Along the claims on its branch there are finished owners alone, up to a free place or to
the attempt's own claim. -/
def BranchFree (host : SupervisorHost) (machine : Machine) (order : JsValue) : Prop :=
  ∃ passed finish, Walk (ownerOf machine (branchKey host order)) (js "initial") passed finish ∧
    (∀ owner ∈ passed, Finished host machine owner) ∧
    (ownerOf machine (branchKey host order) finish = none ∨
      ownerOf machine (branchKey host order) finish = some (textOf order (js "attempt_id")))

/-- The order was refused, and with its branch free it would be admitted under that intent. -/
def Revived (host : SupervisorHost) (machine : Machine) (order : JsValue) : Prop :=
  machine.get? .orders (fileName (textOf order (js "attempt_id"))) = none ∧
  (∃ intent, machine.get? .intents (intentNameOf order) = some intent ∧
    intent.get (js "hold_code") ≠ .string (js "AWAITING_LAUNCH")) ∧
  BranchFree host machine order

section Readings

variable {host : SupervisorHost} {active : ℕ} {guarded : JsString → Prop} {fact : Machine → Prop}
variable {Value : Type} {process : Program Value}

theorem answer_of_isRead {me other : ℕ} {op : Op} (read : op.IsRead) (given : Given)
    (machine : Machine) : (handle me op given machine).1 = (handle other op given machine).1 := by
  cases op with
  | durableCreate directory name value => exact absurd read id
  | durableReplace directory name value => exact absurd read id
  | spawnWorker order attemptId targetSha token => exact absurd read id
  | _ => rfl

theorem keeps_reading [performing : Performing Op.IsRead process] :
    (attending host active guarded).Follows active fact process
      fun result machine => fact machine ∧ MayAnswer machine process result := by
  have general : ∀ {process : Program Value}, process.Performs Op.IsRead Unspent →
      (attending host active guarded).Follows active fact process
        fun result machine => fact machine ∧ MayAnswer machine process result := by
    intro process performs
    induction performs generalizing fact with
    | returned _ => exact .returned fun _ _ holds => ⟨holds, rfl⟩
    | thrown _ => exact .thrown fun _ _ holds => ⟨holds, rfl⟩
    | @perform op next isRead rest ih =>
      refine .perform (fun answer machine => fact machine ∧
        ∃ given, (handle 0 op given machine).1 = answer) (fun _ _ holds => holds)
        (stable_attending _) ?_ ?_ ?_
      · intro machine _ _
        have reads : Reads ((attending host active guarded).FreeTo active) := inferInstance
        exact reads.reads op isRead machine
      · intro given machine _ holds
        rw [handle_of_isRead isRead]
        exact ⟨holds, given, answer_of_isRead isRead given machine⟩
      · intro answer
        apply (ih answer).strengthen
        rintro result machine _ ⟨⟨holds, given, rfl⟩, answers⟩
        exact ⟨holds, given, answers⟩
  exact general performing.performs

theorem keeps_read {known : Value → Machine → Prop} [Performing Op.IsRead process]
    (learns : ∀ value machine, fact machine → MayAnswer machine process (.ok value) →
      known value machine) : Keeps host active guarded fact process known := by
  apply keeps_reading.strengthen
  rintro result machine _ ⟨holds, answers⟩
  cases result with
  | ok value => exact learns value machine holds answers
  | error error => exact fun _ => trivial

theorem keeps_after {Value' : Type} {rest : Value → Program Value'}
    {known : Value' → Machine → Prop} [Performing Op.IsRead process]
    (second : ∀ value, Keeps host active guarded fact (rest value) known) :
    Keeps host active guarded fact (process >>= rest) known :=
  follows_bind (keeps_read fun _ _ holds _ => holds) second

theorem keeps_either {Value' : Type} {left right : Program Value} {rest : Value → Program Value'}
    {known : Value' → Machine → Prop} {condition : Prop} [Decidable condition]
    [Performing Op.IsRead left] [Performing Op.IsRead right]
    (second : ∀ value, Keeps host active guarded fact (rest value) known) :
    Keeps host active guarded fact (if condition then left >>= rest else right >>= rest) known := by
  split
  · exact keeps_after second
  · exact keeps_after second

variable {order : JsValue} {rest : JsValue → Program Value'}

theorem keeps_intentPath {rest : JsString → Program Value'} {fact : Machine → Prop}
    {known : Value' → Machine → Prop}
    (second : Keeps host active guarded fact (rest (intentNameOf order)) known) :
    Keeps host active guarded fact (intentPath order >>= rest) known := by
  simp only [intentPath, bind_eq_bind, Process.bind_assoc]
  apply keeps_after
  intro _
  apply follows_check
  intro _
  exact second

theorem create_of_some {me : ℕ} {directory : Directory} {name : JsString} {value stored : JsValue}
    {machine : Machine} (given : Given) (present : machine.get? directory name = some stored) :
    handle me (.durableCreate directory name value) given machine = (false, machine) := by
  rw [handle, present]

def newIntent (order : JsValue) (now code : JsString) : JsValue :=
  .object [(js "order", order), (js "intended_at", .string now), (js "hold_code", .string code)]

theorem keeps_intend {now code : JsString} {fact : Machine → Prop}
    (made : ∀ machine given, fact machine → machine.get? .intents (intentNameOf order) = none →
      fact (handle active (.durableCreate .intents (intentNameOf order) (newIntent order now code))
        given machine).2) :
    Keeps host active guarded fact (intend host order now code) fun intent machine =>
      fact machine ∧ validateBoundOrder host order = true ∧
        machine.get? .intents (intentNameOf order) = some intent := by
  unfold intend
  apply keeps_after
  intro _
  apply follows_check
  intro valid
  apply keeps_intentPath
  apply follows_call (fun _ => fact) (stable_attending _)
  · intro machine _ _
    exact ⟨rfl, trivial⟩
  · intro given machine _ holds
    cases present : machine.get? .intents (intentNameOf order) with
    | none => exact made machine given holds present
    | some stored =>
      rw [create_of_some given present]
      exact holds
  · intro created
    apply follows_readJson (stable_attending _)
    intro intent
    apply follows_check
    intro _
    apply keeps_after
    intro _
    apply follows_returned
    intro machine _ known
    exact ⟨known.1, valid, known.2⟩

theorem after_reading {rest : Value → Program Value'} {fact : Machine → Prop}
    {post : Except SupervisorError Value' → Machine → Prop} [Performing Op.IsRead process]
    (second : ∀ value, (attending host active guarded).Follows active fact (rest value) post)
    (fails : ∀ error machine, fact machine → post (.error error) machine) :
    (attending host active guarded).Follows active fact (process >>= rest) post := by
  apply Discipline.Follows.bind keeps_reading
  · intro value
    exact (second value).weaken fun _ _ known => known.1
  · intro error machine _ known
    exact fails error machine known.1

theorem keeps_holdIntent {code : JsString} {fact : Machine → Prop}
    (unguarded : ¬guarded (intentNameOf order))
    (unused : ∀ machine, Attended host machine → fact machine → ∀ name stored,
      machine.get? .orders name = some stored →
        intentNameOf (stored.get (js "order")) = intentNameOf order →
        (machine.get? .launches name).isSome)
    (kept : ∀ value machine given, fact machine →
      fact (handle active (.durableReplace .intents (intentNameOf order) value) given machine).2) :
    (attending host active guarded).Follows active fact (holdIntent order code)
      fun _ => fact := by
  have lost : ∀ (error : SupervisorError) machine, fact machine → fact machine :=
    fun _ _ holds => holds
  unfold holdIntent
  apply after_reading _ lost
  intro _
  simp only [intentPath, bind_eq_bind, Process.bind_assoc]
  apply after_reading _ lost
  intro _
  unfold check
  split
  case isFalse => exact .thrown fun _ _ holds => holds
  case isTrue =>
    change (attending host active guarded).Follows active fact
      (readJson .intents (intentNameOf order) >>= _) _
    apply after_reading _ lost
    intro intent
    apply Discipline.Follows.call (stable_attending _)
    · intro machine attended holds
      exact ⟨rfl, unguarded, unused machine attended holds⟩
    · intro given machine _ holds
      exact kept _ machine given holds

end Readings

section Admission

variable {host : SupervisorHost} {active : ℕ} {guarded : JsString → Prop} {machine : Machine}
variable {order : JsValue} {predecessor owner : JsString}

def Unbound (order : JsValue) (machine : Machine) : Prop :=
  machine.get? .orders (fileName (textOf order (js "attempt_id"))) = none

/-- The order is not bound, and when its branch is free its intent lets it be launched. -/
structure Admissible (host : SupervisorHost) (order : JsValue) (machine : Machine) : Prop where
  unbound : Unbound order machine
  waits : BranchFree host machine order → Waits machine order

def Passed (host : SupervisorHost) (order : JsValue) (predecessor : JsString)
    (machine : Machine) : Prop :=
  ∃ passed, Walk (ownerOf machine (branchKey host order)) (js "initial") passed predecessor ∧
    ∀ owner ∈ passed, Finished host machine owner

theorem unused_of_unbound (valid : validateBoundOrder host order = true)
    (attended : Attended host machine) (unbound : Unbound order machine) (name : JsString)
    (stored : JsValue) (isStored : machine.get? .orders name = some stored)
    (same : intentNameOf (stored.get (js "order")) = intentNameOf order) :
    (machine.get? .launches name).isSome := by
  rcases attended.bound name stored isStored with ⟨original, isValid, rfl, rfl⟩
  rw [get_order_durableOrder, intentNameOf_jsonCopy isValid] at same
  rw [Unbound, ← attempt_of_intentName isValid valid same, isStored] at unbound
  cases unbound

theorem get?_handle_of_elsewhere {me : ℕ} {op : Op} {given : Given} {directory : Directory}
    {name : JsString} (absent : machine.get? directory name = none)
    (elsewhere : ∀ value, op ≠ .durableCreate directory name value ∧
      op ≠ .durableReplace directory name value) :
    (handle me op given machine).2.get? directory name = none := by
  cases found : (handle me op given machine).2.get? directory name with
  | none => rfl
  | some value =>
    rcases get?_handle_eq_some found with old | ⟨new, isOp, -⟩ | ⟨new, isOp, -⟩
    · rw [absent] at old
      cases old
    · exact absurd isOp (elsewhere new).1
    · exact absurd isOp (elsewhere new).2

theorem keeps_refused {code : JsString} (valid : validateBoundOrder host order = true)
    (unguarded : ¬guarded (intentNameOf order)) :
    (attending host active guarded).Follows active (Unbound order) (holdIntent order code)
      fun _ => Unbound order := by
  apply keeps_holdIntent unguarded
  · intro machine attended isUnbound
    exact unused_of_unbound valid attended isUnbound
  · intro value machine given isUnbound
    exact get?_handle_of_elsewhere isUnbound fun _ => ⟨nofun, nofun⟩

theorem keeps_examineOwner (valid : validateBoundOrder host order = true)
    (unguarded : ¬guarded (intentNameOf order)) {fact : Machine → Prop}
    (unbound : ∀ machine, fact machine → Unbound order machine) :
    (attending host active guarded).Follows active fact (examineOwner host order owner)
      fun result machine => Unbound order machine ∧
        (result = .ok none → fact machine ∧ Finished host machine owner) := by
  unfold examineOwner
  apply Discipline.Follows.bind keeps_reading
  · intro finished
    split
    case isTrue isFinished =>
      subst isFinished
      apply Discipline.Follows.returned
      intro machine _ known
      exact ⟨unbound machine known.1, fun _ => known⟩
    case isFalse =>
      apply Discipline.Follows.weaken (Discipline.Follows.bind (keeps_refused valid unguarded) _ _)
      · intro machine _ known
        exact unbound machine known.1
      · intro _
        apply Discipline.Follows.returned
        intro machine _ isUnbound
        exact ⟨isUnbound, nofun⟩
      · intro error machine _ isUnbound
        exact ⟨isUnbound, nofun⟩
  · intro error machine _ known
    exact ⟨unbound machine known.1, nofun⟩

theorem keeps_claimBranch (valid : validateBoundOrder host order = true)
    (unguarded : ¬guarded (intentNameOf order)) (fuel : ℕ) (predecessor : JsString) :
    Keeps host active guarded
      (fun machine => Admissible host order machine ∧ Passed host order predecessor machine)
      (claimBranch host order fuel predecessor)
      fun outcome machine => outcome = none → Unbound order machine ∧ Waits machine order := by
  induction fuel generalizing predecessor with
  | zero => exact .thrown fun _ _ _ _ => trivial
  | succ fuel ih =>
    unfold claimBranch
    apply follows_call (fun created machine =>
      if created = true then Unbound order machine ∧ Waits machine order
      else Admissible host order machine ∧ Passed host order predecessor machine)
      (stable_attending _)
    · intro machine _ _
      exact ⟨rfl, trivial⟩
    · rintro given machine _ ⟨admissible, passed, walk, allFinished⟩
      cases present : machine.get? .branches (claimName (branchKey host order) predecessor) with
      | none =>
        have isEnd : ownerOf machine (branchKey host order) predecessor = none := by
          rw [ownerOf, present]
          rfl
        have waits := admissible.waits ⟨passed, predecessor, walk, allFinished, .inl isEnd⟩
        have created : (handle active (.durableCreate .branches
            (claimName (branchKey host order) predecessor)
            (.object [(js "attempt_id", order.get (js "attempt_id"))])) given machine).1 =
              true := by
          rw [handle, present]
        rw [if_pos created]
        exact ⟨get?_handle_of_elsewhere admissible.unbound fun _ => ⟨by simp, by simp⟩,
          waits_handle waits (by simp)⟩
      | some held =>
        rw [create_of_some given present]
        exact ⟨admissible, passed, walk, allFinished⟩
    · intro created
      split
      case isTrue isCreated =>
        apply follows_returned
        intro machine _ known _
        exact known
      case isFalse notCreated =>
        apply follows_readJson (stable_attending _)
        intro held
        have isOwner : ∀ machine : Machine, machine.get? .branches
            (claimName (branchKey host order) predecessor) = some held →
              ownerOf machine (branchKey host order) predecessor =
                some (textOf held (js "attempt_id")) := by
          intro machine isHeld
          rw [ownerOf, isHeld]
          rfl
        split
        case isTrue same =>
          apply follows_returned
          rintro machine _ ⟨⟨admissible, passed, walk, allFinished⟩, isHeld⟩ _
          refine ⟨admissible.unbound, admissible.waits ⟨passed, predecessor, walk, allFinished,
            .inr ?_⟩⟩
          rw [(attemptId_of_valid valid).1] at same
          rw [isOwner machine isHeld, textOf_of_get (eq_string_of_strictEq same)]
        case isFalse =>
          have examined : (attending host active guarded).Follows active
              (fun machine => (Admissible host order machine ∧
                Passed host order predecessor machine) ∧ machine.get? .branches
                  (claimName (branchKey host order) predecessor) = some held)
              (examineOwner host order (textOf held (js "attempt_id"))) _ :=
            keeps_examineOwner valid unguarded fun machine known => known.1.1.unbound
          apply examined.attempt.bind
          · intro outcome
            cases outcome with
            | ok refusal =>
              cases refusal with
              | none =>
                apply (ih _).weaken
                rintro machine _ ⟨_, same, -, known⟩
                cases same
                rcases known rfl with ⟨⟨⟨admissible, passed, walk, allFinished⟩, isHeld⟩, finished⟩
                refine ⟨admissible, passed ++ [textOf held (js "attempt_id")],
                  walk.snoc (isOwner machine isHeld), ?_⟩
                intro owner isPassed
                rcases List.mem_append.mp isPassed with before | last
                · exact allFinished owner before
                · rw [List.mem_singleton.mp last]
                  exact finished
              | some refusal =>
                apply follows_returned
                intro _ _ _ none
                cases none
            | error error =>
              have ambiguous : ∀ refusal : Acceptance, Keeps host active guarded (Unbound order)
                  (holdIntent order (js "MISSING_AUTHORITY") >>= fun _ => pure (some refusal))
                  fun outcome machine => outcome = none →
                    Unbound order machine ∧ Waits machine order := by
                intro refusal
                apply (keeps_refused valid unguarded).bind
                · intro _
                  apply follows_returned
                  intro _ _ _ none
                  cases none
                · intro _ _ _ _
                  exact fun _ => trivial
              cases error with
              | assertion message => exact .thrown fun _ _ _ _ => trivial
              | failure message =>
                apply (ambiguous _).weaken
                rintro machine _ ⟨_, _, isUnbound, _⟩
                exact isUnbound
              | fuelSpent =>
                apply (ambiguous _).weaken
                rintro machine _ ⟨_, _, isUnbound, _⟩
                exact isUnbound
          · intro error machine _ known
            exact fun _ => trivial

theorem keeps_bindOrder {now : JsString} (valid : validateBoundOrder host order = true) :
    Keeps host active guarded
      (fun machine => Unbound order machine → Waits machine order)
      (bindOrder host order now (fileName (textOf order (js "attempt_id")))) fun _ _ => True := by
  unfold bindOrder
  apply follows_call (fun _ machine =>
    (machine.get? .orders (fileName (textOf order (js "attempt_id")))).isSome) (stable_attending _)
  · intro machine _ waits
    exact ⟨rfl, fun absent => ⟨order, valid, rfl, rfl, waits absent⟩⟩
  · intro given machine _ _
    cases present : machine.get? .orders (fileName (textOf order (js "attempt_id"))) with
    | none => simp [handle, present, get?_put]
    | some stored =>
      rw [create_of_some given present, present]
      rfl
  · intro created
    apply keeps_either
    intro existing
    dsimp only
    split
    · exact keeps_done
    split
    · exact keeps_done
    apply keeps_after
    intro hasRun
    split
    · apply follows_call (fun _ _ => True) (stable_attending _)
      · intro machine _ present
        exact ⟨rfl, present⟩
      · intro _ _ _ _
        trivial
      · intro _
        exact follows_free lasting_always fun _ _ _ _ => trivial
    · exact keeps_read fun _ _ _ _ => trivial

theorem keeps_accept {now : JsString} (unguarded : ¬guarded (intentNameOf order)) (fuel : ℕ) :
    Keeps host active guarded (fun machine => ¬Revived host machine order)
      (accept host fuel order now) fun _ _ => True := by
  unfold accept
  apply follows_attempt (keeps_intend _)
  · intro intent
    apply follows_paths
    apply follows_call (fun found machine =>
      (¬Revived host machine order ∧ validateBoundOrder host order = true ∧
        machine.get? .intents (intentNameOf order) = some intent) ∧
      (machine.get? .orders (fileName (textOf order (js "attempt_id")))).isSome = found)
      (stable_attending _)
    · intro machine _ _
      exact ⟨rfl, trivial⟩
    · intro given machine _ known
      exact ⟨known, rfl⟩
    · intro found
      apply Discipline.Follows.of_implied (fun machine _ known => known.1.2.1)
      intro valid
      split
      case isTrue isFound =>
        apply (keeps_bindOrder valid).weaken
        intro machine _ known unbound
        rw [unbound] at known
        rw [isFound] at known
        cases known.2
      case isFalse notFound =>
        have walked : Keeps host active guarded _ (claimBranch host order fuel (js "initial")) _ :=
          keeps_claimBranch valid unguarded fuel (js "initial")
        apply follows_bind (walked.weaken _)
        · intro outcome
          cases outcome with
          | some refusal => exact keeps_done
          | none =>
            apply (keeps_bindOrder valid).weaken
            intro machine _ known _
            exact (known rfl).2
        · rintro machine _ ⟨⟨notRevived, -, isIntent⟩, present⟩
          have unbound : Unbound order machine := by
            rw [Unbound, ← Option.not_isSome_iff_eq_none, present]
            exact notFound
          refine ⟨⟨unbound, ?_⟩, [], rfl, nofun⟩
          intro isFree
          refine ⟨intent, isIntent, ?_⟩
          by_contra held
          exact notRevived ⟨unbound, ⟨intent, isIntent, held⟩, isFree⟩
  · intro error
    cases error with
    | assertion message =>
      dsimp only
      split
      · exact .thrown fun _ _ _ _ => trivial
      · exact keeps_done
    | failure message => exact .thrown fun _ _ _ _ => trivial
    | fuelSpent => exact .thrown fun _ _ _ _ => trivial
  · -- An intent that is made now is none that was held before.
    rintro machine given notRevived absent ⟨-, ⟨intent, isIntent, held⟩, -⟩
    apply held
    rw [handle, absent] at isIntent
    simp only [get?_record, get?_put, true_and, if_true, Option.some.injEq] at isIntent
    rw [← isIntent]
    apply get_jsonCopy_of_string
    have names : js "order" ≠ js "hold_code" ∧ js "intended_at" ≠ js "hold_code" := by decide
    rw [newIntent, get_cons, if_neg names.1, get_cons, if_neg names.2, get_cons, if_pos rfl]

theorem keeps_submit (unguarded : ¬guarded (intentNameOf order)) (fuel : ℕ) :
    Keeps host active guarded (fun machine => ¬Revived host machine order)
      (submit host fuel order) fun _ _ => True := by
  unfold submit
  split
  · exact keeps_done
  · apply keeps_after
    intro now
    apply follows_bind (keeps_accept unguarded fuel)
    intro acceptance
    cases acceptance with
    | hold reason holdCode => exact keeps_done
    | accepted duplicate run => exact follows_free lasting_always fun _ _ _ _ => trivial

end Admission

section Recovery

variable {host : SupervisorHost} {active : ℕ} {guarded : JsString → Prop} {machine : Machine}

def Stored (intents : List JsValue) (machine : Machine) : Prop :=
  ∀ intent ∈ intents, machine.get? .intents (intentNameOf (intent.get (js "order"))) = some intent

def namesOf (intents : List JsValue) : List JsString :=
  intents.map fun intent => intentNameOf (intent.get (js "order"))

theorem keeps_readIntents {fact : Machine → Prop} (names : List JsString) :
    Keeps host active guarded fact (readIntents names) fun intents machine =>
      fact machine ∧ Stored intents machine ∧ namesOf intents = names := by
  induction names generalizing fact with
  | nil => exact follows_returned fun _ _ holds => ⟨holds, nofun, rfl⟩
  | cons name rest ih =>
    unfold readIntents
    apply follows_readJson (stable_attending _)
    intro intent
    apply keeps_after
    intro _
    apply keeps_intentPath
    apply follows_check
    intro isName
    have named : intentNameOf (intent.get (js "order")) = name := of_decide_eq_true isName
    apply follows_bind ih
    intro intents
    apply follows_returned
    rintro machine _ ⟨⟨holds, isStored⟩, stored, names⟩
    refine ⟨holds, ?_, ?_⟩
    · intro pending isPending
      rcases List.mem_cons.mp isPending with rfl | later
      · rw [named]
        exact isStored
      · exact stored pending later
    · rw [← names, ← named]
      rfl

theorem keeps_pendingIntents {fact : Machine → Prop} :
    Keeps host active guarded fact pendingIntents fun intents machine =>
      Stored intents machine ∧ (namesOf intents).Nodup := by
  unfold pendingIntents
  apply follows_call (fun (names : List JsString) _ => names.Nodup) (stable_attending _)
  · intro machine _ _
    exact ⟨rfl, trivial⟩
  · intro given machine _ _
    have keys : (machine.files .intents).keys.Nodup := (machine.files .intents).nodupKeys
    simp only [handle]
    split
    case isTrue isListing => exact (List.isPerm_iff.mp isListing).nodup_iff.mpr keys
    case isFalse => exact keys
  · intro names
    apply (keeps_readIntents _).strengthen
    rintro result machine _ known
    cases result with
    | ok intents =>
      rcases known with ⟨nodup, stored, isNames⟩
      refine ⟨stored, ?_⟩
      rw [isNames]
      exact nodup.filter _
    | error error => exact fun _ => trivial

theorem keeps_acceptNext {order : JsValue} {rest : List JsValue} {now : JsString}
    (other : intentNameOf order ∉ namesOf rest) (fuel : ℕ) :
    (attending host active fun _ => False).Follows active
      (fun machine => ¬Revived host machine order ∧ Stored rest machine)
      (accept host fuel order now) fun result machine =>
        Ends (fun _ => True) (fun _ _ => True) result machine ∧ Stored rest machine := by
  have accepted : Keeps host active (· ∈ namesOf rest) (fun machine => ¬Revived host machine order)
      (accept host fuel order now) fun _ _ => True := keeps_accept other fuel
  refine .of_stricter (attending host active (· ∈ namesOf rest)) (fun _ => id) ?_
    stable_attending ?_ accepted
  · intro op machine allowed
    refine ⟨rfl, ?_⟩
    have attends := allowed.2
    cases op with
    | durableReplace directory name value =>
      cases directory with
      | intents => exact ⟨id, attends.2⟩
      | _ => exact attends
    | durableCreate directory name value => cases directory <;> exact attends
    | _ => trivial
  · intro op given machine allowed stored pending isPending
    apply get?_handle_of_ne (stored pending isPending)
    rintro value rfl
    exact allowed.2.1 (List.mem_map_of_mem isPending)

theorem keeps_acceptPending (fuel : ℕ) (intents : List JsValue)
    (nodup : (namesOf intents).Nodup) :
    Keeps host active (fun _ => False) (Stored intents) (acceptPending host fuel intents)
      fun _ _ => True := by
  induction intents with
  | nil => exact keeps_done
  | cons intent rest ih =>
    rw [namesOf, List.map_cons, List.nodup_cons] at nodup
    have others : Keeps host active (fun _ => False) (Stored rest)
        (acceptPending host fuel rest) fun _ _ => True := ih nodup.2
    unfold acceptPending
    split
    case isTrue waits =>
      apply keeps_after
      intro now
      apply Discipline.Follows.weaken ((keeps_acceptNext nodup.1 fuel).bind _ _)
      · intro machine _ stored
        refine ⟨?_, fun pending isPending => stored pending (List.mem_cons_of_mem _ isPending)⟩
        rintro ⟨-, ⟨found, isFound, held⟩, -⟩
        apply held
        rw [stored intent List.mem_cons_self] at isFound
        cases isFound
        exact isText_iff.mp waits
      · intro _
        exact others.weaken fun _ _ known => known.2
      · intro error machine _ _
        exact fun _ => trivial
    case isFalse =>
      apply others.weaken
      intro machine _ stored pending isPending
      exact stored pending (List.mem_cons_of_mem _ isPending)

variable {attemptId : JsString} {run : JsValue}

theorem keeps_existsSync {directory : Directory} {name : JsString} {fact : Machine → Prop}
    {Value : Type} {rest : Bool → Program Value} {known : Value → Machine → Prop}
    (second : ∀ found, Keeps host active guarded
      (fun machine => fact machine ∧ (machine.get? directory name).isSome = found) (rest found)
      known) :
    Keeps host active guarded fact (call (.existsSync directory name) >>= rest) known := by
  apply follows_call (fun (found : Bool) machine =>
    fact machine ∧ (machine.get? directory name).isSome = found) (stable_attending _)
  · intro machine _ _
    exact ⟨rfl, trivial⟩
  · intro given machine _ holds
    exact ⟨holds, rfl⟩
  · exact second

theorem keeps_repairAccepted {now : JsString} :
    Keeps host active guarded (fun _ => True) (repairAccepted attemptId now) fun _ _ => True := by
  unfold repairAccepted
  apply follows_paths
  apply keeps_existsSync
  intro ordered
  split
  · exact keeps_done
  case isFalse notOrdered =>
    apply keeps_after
    intro hasRun
    split
    · exact keeps_done
    apply keeps_after
    intro order
    apply follows_call (fun _ _ => True) (stable_attending _)
    · intro machine _ known
      refine ⟨rfl, known.2.trans ?_⟩
      simpa using notOrdered
    · intro _ _ _ _
      trivial
    · intro _
      exact keeps_done

def Claimed (attemptId : JsString) (order : JsValue) (machine : Machine) : Prop :=
  HasRun attemptId machine ∧ (machine.get? .launches (fileName attemptId)).isSome ∧
    Bound machine attemptId order

theorem claimed_handle {me : ℕ} {op : Op} {given : Given} {order : JsValue}
    (claimed : Claimed attemptId order machine)
    (unwritten : ∀ value, op ≠ .durableReplace .orders (fileName attemptId) value) :
    Claimed attemptId order (handle me op given machine).2 := by
  rcases claimed with ⟨hasRun, launched, stored, isStored, isOrder⟩
  exact ⟨isSome_handle hasRun, isSome_handle launched, stored,
    get?_handle_of_ne isStored unwritten, isOrder⟩

theorem unused_of_claimed {order : JsValue} (attended : Attended host machine)
    (claimed : Claimed attemptId order machine) (name : JsString) (stored : JsValue)
    (isStored : machine.get? .orders name = some stored)
    (same : intentNameOf (stored.get (js "order")) = intentNameOf order) :
    (machine.get? .launches name).isSome := by
  rcases claimed with ⟨-, launched, own, isOwn, rfl⟩
  rcases attended.bound name stored isStored with ⟨original, valid, rfl, rfl⟩
  rcases attended.bound _ own isOwn with ⟨original', valid', rfl, named⟩
  rw [get_order_durableOrder, get_order_durableOrder, intentNameOf_jsonCopy valid,
    intentNameOf_jsonCopy valid'] at same
  rw [attempt_of_intentName valid valid' same, ← named]
  exact launched

theorem keeps_hasLaunch {fact : Machine → Prop} {Value : Type} {rest : Bool → Program Value}
    {known : Value → Machine → Prop}
    (second : ∀ found, Keeps host active guarded (fun machine => fact machine ∧
      (machine.get? .launches (fileName attemptId)).isSome = found) (rest found) known) :
    Keeps host active guarded fact (hasLaunch attemptId >>= rest) known := by
  simp only [hasLaunch, hasFile, bind_eq_bind, Process.bind_assoc]
  apply follows_paths
  exact keeps_existsSync second

theorem keeps_recoverAccepted : Keeps host active (fun _ => False) (HasRun attemptId)
    (recoverAccepted host attemptId run) fun _ _ => True := by
  unfold recoverAccepted
  apply keeps_hasLaunch
  intro launched
  split
  case isTrue isLaunched =>
    apply follows_readOrder (stable_attending _)
    intro order
    apply keeps_after
    intro now
    have claimed : Keeps host active (fun _ => False) (Claimed attemptId order)
        (intend host order now (js "AMBIGUOUS_LAUNCH")) fun _ machine =>
          Claimed attemptId order machine ∧ _ ∧ _ :=
      keeps_intend fun machine given claimed _ => claimed_handle claimed nofun
    apply Discipline.Follows.weaken (follows_bind claimed _)
    · rintro machine _ ⟨⟨hasRun, present⟩, bound⟩
      exact ⟨hasRun, present.trans isLaunched, bound⟩
    · intro intent
      have held : (attending host active fun _ => False).Follows active (Claimed attemptId order)
          (holdIntent order (js "AMBIGUOUS_LAUNCH")) fun _ => Claimed attemptId order := by
        apply keeps_holdIntent id
        · intro machine attended claimed
          exact unused_of_claimed attended claimed
        · intro value machine given claimed
          exact claimed_handle claimed nofun
      apply Discipline.Follows.weaken (held.bind _ _) fun _ _ known => known.1
      · intro _
        apply keeps_after
        intro now
        exact keeps_written.weaken fun _ _ claimed => claimed.1
      · intro _ _ _ _ _
        trivial
  case isFalse =>
    apply keeps_after
    intro order
    apply keeps_after
    intro now
    have intended : Keeps host active (fun _ => False) (fun _ => True)
        (intend host order now (js "AWAITING_LAUNCH")) fun _ machine => True ∧ _ ∧ _ :=
      keeps_intend fun _ _ _ _ => trivial
    apply Discipline.Follows.weaken (follows_bind intended _) fun _ _ _ => trivial
    intro intent
    apply Discipline.Follows.weaken _ fun _ _ _ => trivial
    exact follows_free lasting_always fun _ _ _ _ => trivial

theorem keeps_recoverAttempts (attemptIds : List JsString) :
    Keeps host active (fun _ => False) (fun _ => True) (recoverAttempts host attemptIds)
      fun _ _ => True := by
  induction attemptIds with
  | nil => exact keeps_done
  | cons attemptId rest ih =>
    have recovered : Keeps host active (fun _ => False) (fun _ => True)
        (recoverAttempt host attemptId) fun _ _ => True := by
      unfold recoverAttempt
      apply keeps_after
      intro now
      apply follows_bind keeps_repairAccepted
      intro _
      apply keeps_readRun
      intro run
      dsimp only
      split
      · exact keeps_done
      apply follows_after lasting_hasRun
      intro completed
      split
      · exact keeps_recoverCompleted
      split
      · exact keeps_recoverAccepted
      split
      · exact keeps_recoverRunning
      · exact keeps_done
    unfold recoverAttempts
    apply follows_bind recovered
    intro run
    apply follows_bind ih
    intro runs
    exact keeps_done

theorem keeps_recover (fuel : ℕ) : Keeps host active (fun _ => False) (fun _ => True)
    (recover host fuel) fun _ _ => True := by
  unfold recover
  apply follows_bind keeps_pendingIntents
  intro intents
  apply Discipline.Follows.of_implied (fun machine _ known => known.2)
  intro nodup
  apply Discipline.Follows.weaken (follows_bind (keeps_acceptPending fuel intents nodup) _)
    fun _ _ known => known.1
  intro _
  apply keeps_after
  intro attemptIds
  apply follows_bind (keeps_recoverAttempts attemptIds)
  intro runs
  exact keeps_done

theorem keeps_program (fuel : ℕ) (task : Task) : Keeps host active (fun _ => False)
    (fun machine => ∀ order, task = .submit order → ¬Revived host machine order)
    (program host fuel task) fun _ _ => True := by
  cases task with
  | submit order => exact (keeps_submit id fuel).weaken fun _ _ first => first order rfl
  | status order =>
    unfold program
    exact keeps_read fun _ _ _ _ => trivial
  | launch attemptId => exact keeps_launch.weaken fun _ _ _ => trivial
  | finish attemptId token ending outputBytes =>
    exact (keeps_finish ending outputBytes).weaken fun _ _ _ => trivial
  | heartbeat attemptId at_ => exact (keeps_heartbeat at_).weaken fun _ _ _ => trivial
  | shutdown attemptId => exact keeps_shutdownChild.weaken fun _ _ _ => trivial
  | recover => exact (keeps_recover fuel).weaken fun _ _ _ => trivial
  | complete completion =>
    unfold program
    apply Discipline.Follows.weaken (follows_after lasting_always _) fun _ _ _ => trivial
    intro recorded
    cases recorded with
    | ok value => exact keeps_done
    | error reason => exact keeps_done

end Recovery

def afterCalls (host : SupervisorHost) (fuel : ℕ) (calls : List (Call Task Given)) : World :=
  calls.foldl (TaskWorld.call handle (program host fuel)) (TaskWorld.initial Machine.empty)

theorem attended_empty (host : SupervisorHost) : Attended host .empty where
  ordered _ present := nomatch present
  bound := nofun
  waits := nofun

/-- When no call revives a refused order, every attempt that is admitted waits for its launch
or has a launch record. -/
theorem attended_afterCalls {host : SupervisorHost} {fuel : ℕ} {calls : List (Call Task Given)}
    (fresh : ∀ earlier order given later, calls = earlier ++ ⟨.submit order, given⟩ :: later →
      ¬Revived host (afterCalls host fuel earlier).state order) :
    Attended host (afterCalls host fuel calls).state := by
  induction calls using List.reverseRecOn with
  | nil => exact attended_empty host
  | append_singleton earlier call ih =>
    have before : Attended host (afterCalls host fuel earlier).state := by
      apply ih
      rintro first order given later rfl
      exact fresh first order given (later ++ [call]) (by simp)
    have follows : Keeps host (afterCalls host fuel earlier).tasks.length (fun _ => False)
        (fun machine => ∀ order, call.task = .submit order → ¬Revived host machine order)
        (program host fuel call.task) fun _ _ => True := keeps_program fuel call.task
    rw [afterCalls, List.foldl_append]
    apply (follows.alone call.given before _).1
    intro order isSubmit
    apply fresh earlier order call.given []
    rw [← isSubmit]

/-- Every attempt whose run is accepted and that has no launch record waits for its launch. -/
def AcceptedWaits (machine : Machine) : Prop :=
  ∀ attemptId run, machine.get? .runs (fileName attemptId) = some run →
    run.get (js "status") = .string (js "accepted") →
    machine.get? .launches (fileName attemptId) = none →
      ∃ order, Bound machine attemptId order ∧ Waits machine order

def sampleCall (task : Task) : Call Task Given := ⟨task, fun _ => sampleGiven⟩

def refusedCalls : List (Call Task Given) :=
  [sampleCall (.submit ownerOrder), sampleCall (.submit refusedOrder)]

def ownerCompletion : JsValue :=
  .object [(js "attempt_id", .string (sampleAttempt 49)),
    (js "completion_token", .string (js "dG9rZW4")),
    (js "target_sha", .string (List.replicate 40 97)), (js "exit_code", .number (.ofNat 0)),
    (js "signal", .null), (js "output_bytes", .number (.ofNat 0)),
    (js "finished_at", .string (js "2026-01-01T00:00:00.000Z"))]

/-- The order is submitted again when the worker on its branch has completed. -/
def revivedCalls : List (Call Task Given) :=
  refusedCalls ++ [sampleCall (.launch (sampleAttempt 49)), sampleCall (.complete ownerCompletion),
    sampleCall (.submit refusedOrder)]

/-- The attempt is accepted and not launched, and its intent does not let it be launched. -/
def isStranded (machine : Machine) (attemptId : JsString) : Bool :=
  let name := fileName attemptId
  ((machine.get? .runs name).any fun run => (run.get (js "status")).isText (js "accepted")) &&
    (machine.get? .launches name).isNone &&
    (machine.get? .orders name).all fun stored =>
      (machine.get? .intents (intentNameOf (stored.get (js "order")))).all fun intent =>
        !(intent.get (js "hold_code")).isText (js "AWAITING_LAUNCH")

theorem not_acceptedWaits {machine : Machine} {attemptId : JsString}
    (stranded : isStranded machine attemptId = true) : ¬AcceptedWaits machine := by
  intro waits
  simp only [isStranded, Bool.and_eq_true, Option.any_eq_true, Option.isNone_iff_eq_none]
    at stranded
  rcases stranded with ⟨⟨⟨run, isRun, accepted⟩, unlaunched⟩, held⟩
  rcases waits attemptId run isRun (isText_iff.mp accepted) unlaunched with
    ⟨_, ⟨stored, isStored, rfl⟩, intent, isIntent, code⟩
  rw [isStored, Option.all_some, isIntent, Option.all_some, code] at held
  revert held
  decide

end StudentHub.Supervisor
