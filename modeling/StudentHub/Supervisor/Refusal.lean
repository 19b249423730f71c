import StudentHub.Supervisor.Rules

/-!
# Refused orders

An order that was refused is held in its intent. Recovery passes such an intent over, and
no other order can take its place there, so the order is bound to its attempt only when it
is submitted again. What the attempt may be bound to otherwise is an order for another
issue.
-/

namespace StudentHub.Supervisor

open Ecma Concurrency Concurrency.Process JsString JsValue

-- Processes of many operations take a longer search.
set_option synthInstance.maxSize 2000

def intentName (issueId attemptId : JsString) : JsString := issueId ++ js "-" ++ fileName attemptId

def intentNameOf (order : JsValue) : JsString :=
  intentName (textOf order (js "issue_id")) (textOf order (js "attempt_id"))

structure Refused where
  issueId : JsString
  attemptId : JsString
  order : JsValue
  parsed : order.jsonCopy = order
  isDefined : order ≠ .undefined

namespace Refused

variable (refused : Refused)

def name : JsString := intentName refused.issueId refused.attemptId

/-- The intent is held with another code than that of an order which awaits its launch. -/
def IsHeld (intent : JsValue) : Prop :=
  intent.get (js "order") = refused.order ∧
    (intent.get (js "hold_code")).isText (js "AWAITING_LAUNCH") = false

def Elsewhere (stored : JsValue) : Prop :=
  (stored.get (js "order")).get (js "issue_id") ≠ .string refused.issueId

def Allowed : Op → Machine → Prop
  | .durableReplace .intents name value, _ => name = refused.name → refused.IsHeld value.jsonCopy
  | .durableCreate .orders name value, _ =>
      name = fileName refused.attemptId → refused.Elsewhere value.jsonCopy
  | .durableReplace .orders _ _, _ => False
  | _, _ => True

structure Remains (machine : Machine) : Prop where
  held : ∃ intent, machine.get? .intents refused.name = some intent ∧ refused.IsHeld intent
  elsewhere : ∀ stored, machine.get? .orders (fileName refused.attemptId) = some stored →
    refused.Elsewhere stored

variable {refused} {me : ℕ} {op : Op} {given : Given} {machine : Machine}

theorem Remains.keeps (remains : refused.Remains machine)
    (allowed : refused.Allowed op machine) : refused.Remains (handle me op given machine).2 where
  held := by
    rcases remains.held with ⟨intent, stored, isHeld⟩
    by_cases replaced : ∃ value, op = .durableReplace .intents refused.name value
    · rcases replaced with ⟨value, rfl⟩
      exact ⟨value.jsonCopy, by simp [handle, get?_put], allowed rfl⟩
    · refine ⟨intent, get?_handle_of_ne stored ?_, isHeld⟩
      intro value isOp
      exact replaced ⟨value, isOp⟩
  elsewhere := by
    intro stored isStored
    rcases get?_handle_eq_some isStored with old | ⟨new, rfl, -, rfl⟩ | ⟨new, rfl, -⟩
    · exact remains.elsewhere stored old
    · exact allowed rfl
    · exact absurd allowed id

def leaving (refused : Refused) : Discipline handle where
  Allowed _ := refused.Allowed
  Invariant := refused.Remains
  keeps _ _ _ _ remains allowed := remains.keeps allowed

instance : Reads (leaving refused).Free where
  reads op read := by
    intro me machine
    cases op with
    | durableCreate directory name value => exact absurd read id
    | durableReplace directory name value => exact absurd read id
    | spawnWorker order attemptId targetSha token => exact absurd read id
    | _ => trivial

instance : Creates (leaving refused).Free .intents := ⟨fun _ _ _ _ => trivial⟩

instance : Creates (leaving refused).Free .runs := ⟨fun _ _ _ _ => trivial⟩

instance : Creates (leaving refused).Free .launches := ⟨fun _ _ _ _ => trivial⟩

instance : Creates (leaving refused).Free .completions := ⟨fun _ _ _ _ => trivial⟩

instance : Creates (leaving refused).Free .branches := ⟨fun _ _ _ _ => trivial⟩

instance : Replaces (leaving refused).Free .runs := ⟨fun _ _ _ _ => trivial⟩

instance : Replaces (leaving refused).Free .launches := ⟨fun _ _ _ _ => trivial⟩

instance : Spawns (leaving refused).Free := ⟨fun _ _ _ _ _ _ => trivial⟩

abbrev Leaves {Value : Type} (refused : Refused) (me : ℕ) (process : Program Value)
    (known : Value → Prop) : Prop :=
  (leaving refused).Follows me (fun _ => True) process
    (Ends (fun _ => True) fun value _ => known value)

variable {Value Value' : Type} {process : Program Value} {rest : Value → Program Value'}
variable {known : Value → Prop} {known' : Value' → Prop} {host : SupervisorHost} {order : JsValue}

theorem lasting_true : (leaving refused).Lasting fun _ => True :=
  Discipline.StableUnder.const True

theorem Leaves.bind (first : Leaves refused me process known)
    (second : ∀ value, known value → Leaves refused me (rest value) known') :
    Leaves refused me (process >>= rest) known' := by
  apply follows_bind first
  intro value
  refine Discipline.Follows.of_implied (fun _ _ holds => holds) fun holds => ?_
  exact (second value holds).weaken fun _ _ _ => trivial

theorem leaves_free [Performing ((leaving refused).FreeTo me) process] :
    Leaves refused me process fun _ => True :=
  follows_free lasting_true fun _ _ _ _ => trivial

theorem leaves_after [Performing ((leaving refused).FreeTo me) process]
    (second : ∀ value, Leaves refused me (rest value) known') :
    Leaves refused me (process >>= rest) known' :=
  leaves_free.bind fun value _ => second value

theorem leaves_returned {value : Value} (holds : known value) :
    Leaves refused me (pure value) known :=
  follows_returned fun _ _ _ => holds

theorem leaves_thrown (error : SupervisorError) :
    Leaves refused me (thrown error : Program Value) known :=
  .thrown fun _ _ _ _ => trivial

theorem leaves_attempt {rest : Except SupervisorError Value → Program Value'}
    (first : Leaves refused me process known)
    (second : ∀ value, known value → Leaves refused me (rest (.ok value)) known')
    (caught : ∀ error, Leaves refused me (rest (.error error)) known') :
    Leaves refused me (process.attempt >>= rest) known' := by
  apply follows_attempt first
  · intro value
    refine Discipline.Follows.of_implied (fun _ _ holds => holds) fun holds => ?_
    exact (second value holds).weaken fun _ _ _ => trivial
  · intro error
    exact (caught error).weaken fun _ _ _ => trivial

theorem leaves_readIntent {name : JsString} {rest : JsValue → Program Value'}
    (second : ∀ intent, (name = refused.name → refused.IsHeld intent) →
      Leaves refused me (rest intent) known') :
    Leaves refused me (readJson .intents name >>= rest) known' := by
  apply follows_readJson lasting_true.stable
  intro intent
  refine Discipline.Follows.of_implied
    (fun machine (remains : refused.Remains machine) known => ?_) fun holds =>
      (second intent holds).weaken fun _ _ _ => trivial
  rintro rfl
  rcases remains.held with ⟨held, stored, isHeld⟩
  cases known.2.symm.trans stored
  exact isHeld

theorem leaves_check {condition : Bool} {message : JsString} {rest : Unit → Program Value'}
    (second : condition = true → Leaves refused me (rest ()) known') :
    Leaves refused me (check condition message >>= rest) known' :=
  follows_check second

theorem leaves_intentPath {rest : JsString → Program Value'}
    (second : order.get (js "issue_id") = .string (textOf order (js "issue_id")) →
      Leaves refused me (rest (intentNameOf order)) known') :
    Leaves refused me (intentPath order >>= rest) known' := by
  simp only [intentPath, bind_eq_bind, Process.bind_assoc]
  apply leaves_after
  intro _
  apply leaves_check
  intro named
  exact second (get_of_hasText named).1

theorem leaves_holdIntent {code : JsString} (isRefusal : code ≠ js "AWAITING_LAUNCH") :
    Leaves refused me (holdIntent order code) fun _ => True := by
  unfold holdIntent
  apply leaves_after
  intro _
  apply leaves_intentPath
  intro _
  apply leaves_readIntent
  intro intent held
  apply Discipline.Follows.call lasting_true.stable
  · intro machine _ _ here
    rw [IsHeld]
    have sameOrder : (intent.assign [(js "hold_code", .string code)]).get (js "order") =
        refused.order := by
      rw [get_assign (by simp only [List.map_cons, List.map_nil]; decide)]
      exact (held here).1
    have newCode : (intent.assign [(js "hold_code", .string code)]).get (js "hold_code") =
        .string code := get_assign_concat intent [] _ _
    have isJson : refused.order.jsonCopy ≠ .undefined := by
      rw [refused.parsed]
      exact refused.isDefined
    refine ⟨?_, ?_⟩
    · rw [get_jsonCopy sameOrder isJson, refused.parsed]
    · rw [get_jsonCopy_of_string newCode]
      simpa [isText] using isRefusal
  · intro _ _ _ _
    trivial

def IsAnother (refused : Refused) (order : JsValue) : Prop :=
  intentNameOf order = refused.name → canonical order ≠ canonical refused.order

theorem leaves_intend {now code : JsString} (another : refused.IsAnother order) :
    Leaves refused me (intend host order now code) fun _ =>
      validateBoundOrder host order = true ∧ intentNameOf order ≠ refused.name := by
  unfold intend
  apply leaves_after
  intro _
  apply leaves_check
  intro valid
  apply leaves_intentPath
  intro _
  apply leaves_after
  intro _
  apply leaves_readIntent
  intro intent held
  apply leaves_check
  intro same
  have different : intentNameOf order ≠ refused.name := by
    intro here
    apply another here
    rw [← (held here).1]
    exact (of_decide_eq_true same).symm
  apply leaves_after
  intro _
  exact leaves_returned ⟨valid, different⟩

theorem leaves_examineOwner {owner : JsString} :
    Leaves refused me (examineOwner host order owner) fun _ => True := by
  unfold examineOwner
  apply leaves_after
  intro finished
  split
  · exact leaves_returned trivial
  · apply (leaves_holdIntent (by decide)).bind
    intro _ _
    exact leaves_returned trivial

theorem leaves_claimBranch (fuel : ℕ) (predecessor : JsString) :
    Leaves refused me (claimBranch host order fuel predecessor) fun _ => True := by
  induction fuel generalizing predecessor with
  | zero => exact leaves_thrown _
  | succ fuel ih =>
    have ambiguous : ∀ refusal : Acceptance, Leaves refused me
        (holdIntent order (js "MISSING_AUTHORITY") >>= fun _ => pure (some refusal))
        fun _ => True := by
      intro refusal
      apply (leaves_holdIntent (by decide)).bind
      intro _ _
      exact leaves_returned trivial
    unfold claimBranch
    apply leaves_after
    intro created
    split
    · exact leaves_returned trivial
    apply leaves_after
    intro held
    split
    · exact leaves_returned trivial
    apply leaves_attempt leaves_examineOwner
    · intro outcome _
      cases outcome with
      | none => exact ih _
      | some refusal => exact leaves_returned trivial
    · intro error
      cases error with
      | assertion message => exact leaves_thrown _
      | failure message => exact ambiguous _
      | fuelSpent => exact ambiguous _

theorem leaves_bindOrder {now : JsString} (valid : validateBoundOrder host order = true)
    (different : intentNameOf order ≠ refused.name) :
    Leaves refused me (bindOrder host order now (fileName (textOf order (js "attempt_id"))))
      fun _ => True := by
  unfold bindOrder
  apply follows_call (fun _ _ => True) lasting_true.stable
  · intro machine _ _ here issue
    have sameAttempt := fileName_injective here
    rw [get_order_durableOrder] at issue
    apply different
    rw [intentNameOf, name, sameAttempt]
    congr 1
    rw [← textOf_of_get issue]
    exact (textOf_of_get (get_jsonCopy_of_string (issue_of_valid valid))).symm
  · intro _ _ _ _
    trivial
  · intro created
    exact leaves_free

theorem leaves_accept {fuel : ℕ} {now : JsString} (another : refused.IsAnother order) :
    Leaves refused me (accept host fuel order now) fun _ => True := by
  unfold accept
  apply leaves_attempt (leaves_intend another)
  · rintro intent ⟨valid, different⟩
    apply follows_paths
    apply leaves_after
    intro present
    split
    · exact leaves_bindOrder valid different
    · apply (leaves_claimBranch fuel _).bind
      intro outcome _
      cases outcome with
      | some refusal => exact leaves_returned trivial
      | none => exact leaves_bindOrder valid different
  · intro error
    cases error with
    | assertion message =>
      dsimp only
      split
      · exact leaves_thrown _
      · exact leaves_returned trivial
    | failure message => exact leaves_thrown _
    | fuelSpent => exact leaves_thrown _

theorem leaves_submit {fuel : ℕ} (another : refused.IsAnother order) :
    Leaves refused me (submit host fuel order) fun _ => True := by
  unfold submit
  split
  · exact leaves_returned trivial
  · apply leaves_after
    intro now
    apply (leaves_accept another).bind
    intro acceptance _
    cases acceptance with
    | hold reason holdCode => exact leaves_returned trivial
    | accepted duplicate run => exact leaves_free

def AwaitsAnother (refused : Refused) (intent : JsValue) : Prop :=
  (intent.get (js "hold_code")).isText (js "AWAITING_LAUNCH") = true →
    intentNameOf (intent.get (js "order")) ≠ refused.name

theorem leaves_readIntents (names : List JsString) :
    Leaves refused me (readIntents names) fun intents =>
      ∀ intent ∈ intents, refused.AwaitsAnother intent := by
  induction names with
  | nil => exact leaves_returned nofun
  | cons name rest ih =>
    unfold readIntents
    apply leaves_readIntent
    intro intent held
    apply leaves_after
    intro _
    apply leaves_intentPath
    intro _
    apply leaves_check
    intro same
    apply ih.bind
    intro intents others
    apply leaves_returned
    intro pending isPending
    rcases List.mem_cons.mp isPending with rfl | later
    · intro awaits here
      rw [of_decide_eq_true same] at here
      rw [(held here).2] at awaits
      cases awaits
    · exact others pending later

theorem leaves_acceptPending {fuel : ℕ} (intents : List JsValue)
    (others : ∀ intent ∈ intents, refused.AwaitsAnother intent) :
    Leaves refused me (acceptPending host fuel intents) fun _ => True := by
  induction intents with
  | nil => exact leaves_returned trivial
  | cons intent rest ih =>
    have later := ih fun pending isPending => others pending (List.mem_cons_of_mem _ isPending)
    unfold acceptPending
    split
    case isTrue awaits =>
      apply leaves_after
      intro now
      apply Leaves.bind (leaves_accept _) fun _ _ => later
      intro here
      exact absurd here (others intent List.mem_cons_self awaits)
    case isFalse => exact later

theorem leaves_recoverAccepted {attemptId : JsString} {run : JsValue} :
    Leaves refused me (recoverAccepted host attemptId run) fun _ => True := by
  unfold recoverAccepted
  apply leaves_after
  intro launched
  split
  · apply leaves_after
    intro order
    apply leaves_after
    intro now
    apply leaves_after
    intro intent
    apply (leaves_holdIntent (by decide)).bind
    intro _ _
    exact leaves_free
  · exact leaves_free

theorem leaves_recoverAttempts (attemptIds : List JsString) :
    Leaves refused me (recoverAttempts host attemptIds) fun _ => True := by
  induction attemptIds with
  | nil => exact leaves_returned trivial
  | cons attemptId rest ih =>
    have recovered : Leaves refused me (recoverAttempt host attemptId) fun _ => True := by
      unfold recoverAttempt
      apply leaves_after
      intro now
      apply leaves_after
      intro _
      apply leaves_after
      intro run
      dsimp only
      split
      · exact leaves_returned trivial
      apply leaves_after
      intro completed
      split
      · exact leaves_free
      split
      · exact leaves_recoverAccepted
      split
      · exact leaves_free
      · exact leaves_returned trivial
    unfold recoverAttempts
    apply recovered.bind
    intro run _
    apply ih.bind
    intro runs _
    exact leaves_returned trivial

theorem leaves_recover {fuel : ℕ} : Leaves refused me (recover host fuel) fun _ => True := by
  unfold recover
  have pending : Leaves refused me pendingIntents fun intents =>
      ∀ intent ∈ intents, refused.AwaitsAnother intent := by
    unfold pendingIntents
    apply leaves_after
    intro names
    exact leaves_readIntents _
  apply pending.bind
  intro intents others
  apply (leaves_acceptPending intents others).bind
  intro _ _
  apply leaves_after
  intro attemptIds
  apply (leaves_recoverAttempts attemptIds).bind
  intro runs _
  exact leaves_returned trivial

theorem leaves_program {fuel : ℕ} {task : Task}
    (another : ∀ order, task = .submit order → canonical order ≠ canonical refused.order) :
    Leaves refused me (program host fuel task) fun _ => True := by
  cases task with
  | submit order => exact leaves_submit fun _ => another order rfl
  | recover => exact leaves_recover
  | complete completion =>
    apply leaves_after
    intro recorded
    cases recorded with
    | ok value => exact leaves_returned trivial
    | error reason => exact leaves_returned trivial
  | _ =>
    unfold program
    exact leaves_free

end Refused

end StudentHub.Supervisor
