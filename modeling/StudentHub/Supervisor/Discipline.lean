import StudentHub.Concurrency.Chronicle
import StudentHub.Graph.Links
import StudentHub.Supervisor.Rules

/-!
# The discipline of supervisors and workers

An order is bound once and never replaced, and only for an attempt that owns a claim on
its branch. A claim is added at the end of the chain of claims, past owners with validated
completions. A worker is spawned by the task that has claimed the launch, once and for the
order that is bound.
-/

namespace StudentHub.Supervisor

open Ecma Concurrency Graph JsString JsValue

def ownerOf (machine : Machine) (key predecessor : JsString) : Option JsString :=
  (machine.get? .branches (claimName key predecessor)).map fun held =>
    textOf held (js "attempt_id")

/-- The attempt owns a claim on the branch. -/
def Linked (machine : Machine) (key attemptId : JsString) : Prop :=
  ∃ predecessor, ownerOf machine key predecessor = some attemptId

def Validated (host : SupervisorHost) (machine : Machine) (attemptId : JsString) : Prop :=
  ∃ stored launch bound,
    machine.get? .completions (fileName attemptId) = some stored ∧
    machine.get? .launches (fileName attemptId) = some launch ∧
    machine.get? .orders (fileName attemptId) = some bound ∧
    (stored.get (js "version")).isText SUPERVISOR_PROTOCOL_VERSION = true ∧
    confirms host stored launch (bound.get (js "order")) = true

/-- From the start of the chain along so many owners, all with validated completions. -/
def Walked (host : SupervisorHost) (machine : Machine) (key attemptId predecessor : JsString)
    (passes : ℕ) : Prop :=
  ∃ passed, passed.length = passes ∧
    Walk (ownerOf machine key) (js "initial") passed predecessor ∧ attemptId ∉ passed ∧
    ∀ owner ∈ passed, Validated host machine owner

def ClaimedBy (machine : Machine) (task : ℕ) (attemptId : JsString) : Prop :=
  .created task .launches (fileName attemptId) ∈ machine.history

def Unspawned (machine : Machine) (attemptId : JsString) : Prop :=
  ∀ task order, .spawned task attemptId order ∉ machine.history

def SpawnJustified (earlier : List Happening) : Happening → Prop
  | .created _ _ _ => True
  | .spawned task attemptId _ => .created task .launches (fileName attemptId) ∈ earlier ∧
      ∀ other order, .spawned other attemptId order ∉ earlier

def KeepsToken (old new : JsValue) : Prop :=
  ∀ hash, old.get (js "completion_token_hash") = .string hash →
    new.get (js "completion_token_hash") = .string hash

def Allowed (host : SupervisorHost) (me : ℕ) : Op → Machine → Prop
  | .durableCreate .orders name value, machine => machine.get? .orders name = none →
      ∃ order, validateBoundOrder host order = true ∧ value = durableOrder host order ∧
        name = fileName (textOf order (js "attempt_id")) ∧
        Linked machine (branchKey host order) (textOf order (js "attempt_id"))
  | .durableCreate .branches name value, machine => machine.get? .branches name = none →
      ∃ key predecessor owner passes, key.length = 64 ∧ owner ≠ js "initial" ∧
        name = claimName key predecessor ∧
        value = .object [(js "attempt_id", .string owner)] ∧
        Walked host machine key owner predecessor passes
  | .durableReplace .orders _ _, _ => False
  | .durableReplace .completions _ _, _ => False
  | .durableReplace .branches _ _, _ => False
  | .durableReplace .launches name value, machine =>
      .created me .launches name ∈ machine.history ∧
        ∀ old, machine.get? .launches name = some old → KeepsToken old value.jsonCopy
  | .spawnWorker order attemptId _ _, machine =>
      ClaimedBy machine me attemptId ∧ Unspawned machine attemptId ∧ Bound machine attemptId order
  | _, _ => True

structure Orderly (host : SupervisorHost) (machine : Machine) : Prop where
  present : ∀ task directory name, .created task directory name ∈ machine.history →
    (machine.get? directory name).isSome
  unique : ∀ task other directory name, .created task directory name ∈ machine.history →
    .created other directory name ∈ machine.history → task = other
  chronicle : Chronicle SpawnJustified machine.history
  spawned : ∀ task attemptId order, .spawned task attemptId order ∈ machine.history →
    Bound machine attemptId order
  orders : ∀ name stored, machine.get? .orders name = some stored →
    ∃ order, validateBoundOrder host order = true ∧
      stored = (durableOrder host order).jsonCopy ∧
      name = fileName (textOf order (js "attempt_id")) ∧
      Linked machine (branchKey host order) (textOf order (js "attempt_id"))
  claims : ∀ name held, machine.get? .branches name = some held →
    ∃ owner, held.get (js "attempt_id") = .string owner
  chained : ∀ key, key.length = 64 →
    Chained (ownerOf machine key) (js "initial") (Validated host machine)
  parsed : ∀ directory name value, machine.get? directory name = some value →
    value.jsonCopy = value

section Steps

variable {me : ℕ} {op : Op} {given : Given} {machine : Machine} {host : SupervisorHost}
variable {directory : Directory} {name : JsString} {value : JsValue}

theorem get?_handle_of_fixed (allowed : Allowed host me op machine)
    (isFixed : directory = .orders ∨ directory = .completions ∨ directory = .branches)
    (stored : machine.get? directory name = some value) :
    (handle me op given machine).2.get? directory name = some value := by
  apply get?_handle_of_ne stored
  rintro new rfl
  rcases isFixed with rfl | rfl | rfl <;> exact allowed

theorem exists_launch_handle (allowed : Allowed host me op machine)
    (stored : machine.get? .launches name = some value) :
    ∃ new, (handle me op given machine).2.get? .launches name = some new ∧
      KeepsToken value new := by
  by_cases replaced : ∃ new, op = .durableReplace .launches name new
  · rcases replaced with ⟨new, rfl⟩
    refine ⟨new.jsonCopy, ?_, allowed.2 value stored⟩
    simp [handle, get?_put]
  · refine ⟨value, get?_handle_of_ne stored ?_, fun _ holds => holds⟩
    intro new isOp
    exact replaced ⟨new, isOp⟩

end Steps

section Lasting

variable {host : SupervisorHost} {me : ℕ} {op : Op} {given : Given} {machine : Machine}
variable {key predecessor attemptId owner : JsString} {order : JsValue} {passes : ℕ}

theorem confirms_of_keepsToken {stored launch new : JsValue} (keeps : KeepsToken launch new)
    (confirmed : confirms host stored launch order = true) :
    confirms host stored new order = true := by
  simp only [confirms, Bool.and_eq_true] at confirmed ⊢
  refine ⟨⟨confirmed.1.1, ?_⟩, confirmed.2⟩
  have hashed := confirmed.1.2
  cases found : launch.get (js "completion_token_hash") with
  | string hash =>
    rw [found] at hashed
    rw [keeps hash found]
    exact hashed
  | _ => simp [found, isText] at hashed

theorem validated_handle (allowed : Allowed host me op machine)
    (validated : Validated host machine attemptId) :
    Validated host (handle me op given machine).2 attemptId := by
  rcases validated with ⟨stored, launch, bound, completion, launched, ordered, version, confirmed⟩
  have launchedLater : ∃ new, (handle me op given machine).2.get? .launches
      (fileName attemptId) = some new ∧ KeepsToken launch new :=
    exists_launch_handle allowed launched
  rcases launchedLater with ⟨new, newLaunch, keeps⟩
  exact ⟨stored, new, bound, get?_handle_of_fixed allowed (.inr (.inl rfl)) completion, newLaunch,
    get?_handle_of_fixed allowed (.inl rfl) ordered, version,
    confirms_of_keepsToken keeps confirmed⟩

theorem ownerOf_handle (allowed : Allowed host me op machine)
    (link : ownerOf machine key predecessor = some owner) :
    ownerOf (handle me op given machine).2 key predecessor = some owner := by
  rw [ownerOf, Option.map_eq_some_iff] at link ⊢
  rcases link with ⟨held, stored, named⟩
  exact ⟨held, get?_handle_of_fixed allowed (.inr (.inr rfl)) stored, named⟩

theorem linked_handle (allowed : Allowed host me op machine)
    (linked : Linked machine key attemptId) :
    Linked (handle me op given machine).2 key attemptId := by
  rcases linked with ⟨predecessor, link⟩
  exact ⟨predecessor, ownerOf_handle allowed link⟩

theorem bound_handle (allowed : Allowed host me op machine)
    (bound : Bound machine attemptId order) :
    Bound (handle me op given machine).2 attemptId order := by
  rcases bound with ⟨stored, isStored, isOrder⟩
  exact ⟨stored, get?_handle_of_fixed allowed (.inl rfl) isStored, isOrder⟩

theorem walked_handle (allowed : Allowed host me op machine)
    (walked : Walked host machine key attemptId predecessor passes) :
    Walked host (handle me op given machine).2 key attemptId predecessor passes := by
  rcases walked with ⟨passed, length, walk, fresh, allDone⟩
  refine ⟨passed, length, walk.mono ?_, fresh, ?_⟩
  · intro _ _ link
    exact ownerOf_handle allowed link
  · intro other isPassed
    exact validated_handle allowed (allDone other isPassed)

end Lasting

section Keeps

variable {host : SupervisorHost} {me : ℕ} {op : Op} {given : Given} {machine : Machine}
variable {key key' predecessor predecessor' owner : JsString}

theorem claimName_inj (length : key.length = key'.length)
    (same : claimName key predecessor = claimName key' predecessor') :
    key = key' ∧ predecessor = predecessor' := by
  simp only [claimName, fileName, List.append_assoc] at same
  rcases List.append_inj same length with ⟨sameKey, rest⟩
  exact ⟨sameKey, List.append_cancel_right (List.append_cancel_left rest)⟩

theorem length_branchKey (order : JsValue) : (branchKey host order).length = 64 :=
  host.sha256_length _

theorem get_claim (owner : JsString) :
    (JsValue.object [(js "attempt_id", .string owner)]).jsonCopy.get (js "attempt_id") =
      .string owner := by
  apply get_jsonCopy_of_string
  rw [get_cons, if_pos rfl]

theorem ownerOf_handle_of_none (absent : ownerOf machine key predecessor = none)
    (unwritten : ∀ value, op ≠ .durableCreate .branches (claimName key predecessor) value)
    (allowed : Allowed host me op machine) :
    ownerOf (handle me op given machine).2 key predecessor = none := by
  rw [ownerOf, Option.map_eq_none_iff] at absent ⊢
  cases stored : (handle me op given machine).2.get? .branches (claimName key predecessor) with
  | none => rfl
  | some value =>
    exfalso
    rcases get?_handle_eq_some stored with old | ⟨new, rfl, -, -⟩ | ⟨new, rfl, -⟩
    · rw [absent] at old
      cases old
    · exact unwritten new rfl
    · exact allowed

theorem Orderly.chained_handle (orderly : Orderly host machine)
    (allowed : Allowed host me op machine) (length : key.length = 64) :
    Chained (ownerOf (handle me op given machine).2 key) (js "initial")
      (Validated host (handle me op given machine).2) := by
  have same : ∀ predecessor, (∀ value, ownerOf machine key predecessor = none →
      op ≠ .durableCreate .branches (claimName key predecessor) value) →
      ownerOf (handle me op given machine).2 key predecessor =
        ownerOf machine key predecessor := by
    intro predecessor unwritten
    cases link : ownerOf machine key predecessor with
    | none => exact ownerOf_handle_of_none link (fun value => unwritten value link) allowed
    | some owner => exact ownerOf_handle allowed link
  have lasts : ∀ owner, Validated host machine owner →
      Validated host (handle me op given machine).2 owner :=
    fun owner => validated_handle allowed
  by_cases writes : ∃ predecessor value, ownerOf machine key predecessor = none ∧
      op = .durableCreate .branches (claimName key predecessor) value
  · rcases writes with ⟨predecessor, value, isEnd, rfl⟩
    have absent := isEnd
    rw [ownerOf, Option.map_eq_none_iff] at absent
    rcases allowed absent with
      ⟨key', predecessor', owner, passes, length', proper, named, rfl, walked⟩
    rcases claimName_inj (length.trans length'.symm) named with ⟨rfl, rfl⟩
    rcases walked with ⟨passed, -, walk, fresh, allDone⟩
    have newLink : ownerOf (handle me (.durableCreate .branches (claimName key predecessor)
        (.object [(js "attempt_id", .string owner)])) given machine).2 key predecessor =
          some owner := by
      simp only [handle, absent, ownerOf, get?_record, get?_put, true_and, if_true,
        Option.map_some, Option.some.injEq]
      exact textOf_of_get (get_claim owner)
    refine (orderly.chained key length).extend isEnd newLink ?_ lasts proper walk fresh allDone
    intro other different
    apply same
    intro value' _ isOp
    rw [Op.durableCreate.injEq] at isOp
    exact different (claimName_inj rfl isOp.2.1).2.symm
  · apply (orderly.chained key length).mono _ lasts
    intro predecessor
    apply same
    intro value isEnd isOp
    exact writes ⟨predecessor, value, isEnd, isOp⟩

theorem Orderly.keeps (orderly : Orderly host machine) (allowed : Allowed host me op machine) :
    Orderly host (handle me op given machine).2 where
  present := by
    intro task directory name happened
    rcases mem_history_of_handle happened with old | ⟨_, _, value, rfl, absent, same⟩ |
      ⟨_, _, _, _, _, same⟩
    · exact isSome_handle (orderly.present task directory name old)
    · cases same
      simp [handle, absent, get?_put]
    · cases same
  unique := by
    have fresh : ∀ task directory name value, op = .durableCreate directory name value →
        machine.get? directory name = none → .created task directory name ∉ machine.history := by
      intro task directory name value _ absent old
      have stored := orderly.present task directory name old
      rw [absent] at stored
      cases stored
    intro task other directory name happened happenedToo
    rcases mem_history_of_handle happened with old | ⟨_, _, value, isOp, absent, same⟩ |
      ⟨_, _, _, _, _, same⟩
    · rcases mem_history_of_handle happenedToo with oldToo | ⟨_, _, value, isOp, absent, same⟩ |
        ⟨_, _, _, _, _, same⟩
      · exact orderly.unique task other directory name old oldToo
      · cases same
        exact absurd old (fresh _ _ _ _ isOp absent)
      · cases same
    · cases same
      rcases mem_history_of_handle happenedToo with old | ⟨_, _, _, _, _, same⟩ |
        ⟨_, _, _, _, _, same⟩
      · exact absurd old (fresh _ _ _ _ isOp absent)
      · cases same
        rfl
      · cases same
    · cases same
  chronicle := by
    rcases handle_cases me op given machine with
      same | ⟨_, _, _, _, _, same⟩ | ⟨_, _, _, _, same⟩ | ⟨_, _, _, _, rfl, same⟩
    all_goals rw [same]
    · exact orderly.chronicle
    · exact orderly.chronicle.cons trivial
    · exact orderly.chronicle
    · exact orderly.chronicle.cons ⟨allowed.1, allowed.2.1⟩
  spawned := by
    intro task attemptId order happened
    rcases mem_history_of_handle happened with old | ⟨_, _, _, _, _, same⟩ |
      ⟨_, _, _, _, rfl, same⟩
    · exact bound_handle allowed (orderly.spawned task attemptId order old)
    · cases same
    · cases same
      exact bound_handle allowed allowed.2.2
  orders := by
    intro name stored isStored
    rcases get?_handle_eq_some isStored with old | ⟨new, rfl, absent, rfl⟩ | ⟨new, rfl, -⟩
    · rcases orderly.orders name stored old with ⟨order, valid, same, named, linked⟩
      exact ⟨order, valid, same, named, linked_handle allowed linked⟩
    · rcases allowed absent with ⟨order, valid, rfl, named, linked⟩
      exact ⟨order, valid, rfl, named, linked_handle allowed linked⟩
    · exact absurd allowed id
  claims := by
    intro name held isHeld
    rcases get?_handle_eq_some isHeld with old | ⟨new, rfl, absent, rfl⟩ | ⟨new, rfl, -⟩
    · exact orderly.claims name held old
    · rcases allowed absent with ⟨key, predecessor, owner, passes, -, -, -, rfl, -⟩
      exact ⟨owner, get_claim owner⟩
    · exact absurd allowed id
  chained := fun key => orderly.chained_handle allowed
  parsed := by
    intro directory name value stored
    rcases get?_handle_eq_some stored with old | ⟨new, -, -, rfl⟩ | ⟨new, -, rfl⟩
    · exact orderly.parsed directory name value old
    · exact jsonCopy_jsonCopy new
    · exact jsonCopy_jsonCopy new

end Keeps

def supervision (host : SupervisorHost) : Discipline handle where
  Allowed := Allowed host
  Invariant := Orderly host
  keeps _ _ _ _ orderly allowed := orderly.keeps allowed

theorem orderly_empty (host : SupervisorHost) : Orderly host .empty where
  present := nofun
  unique := nofun
  chronicle := Chronicle.nil
  spawned := nofun
  orders := nofun
  claims := nofun
  chained _ _ := Chained.empty fun _ => rfl
  parsed := nofun

end StudentHub.Supervisor
