import StudentHub.Capacity.Active

/-!
# Limits

The active reservations stay within the limits of the policy as long as no task names
a host or an account that a plain object inherits: `in` finds such a name in limits
that do not state it, and its value is no number that a count could reach.
-/

namespace StudentHub.Capacity

open Ecma JsString

/-- The counts of active reservations that a policy bounds. -/
structure WithinLimits (policy : CapacityPolicy) (file : Ledger) : Prop where
  all : (activeReservations file).length ≤ policy.globalLimit
  writers : ((activeReservations file).filter fun reservation => reservation.isWriter).length ≤
    policy.globalLimit - policy.reviewReserve
  hosts : ∀ reservation ∈ activeReservations file, ∃ limit,
    policy.hosts.get? reservation.host.text = some limit ∧
      ((activeReservations file).filter fun other => other.host = reservation.host).length ≤
        limit.value
  accounts : ∀ reservation ∈ activeReservations file, ∃ limit,
    policy.accounts.get? reservation.account.text = some limit ∧
      ((activeReservations file).filter fun other => other.account = reservation.account).length ≤
        limit.value
  runtimes : ∀ reservation ∈ activeReservations file, ∀ limit,
    policy.runtimes.get? reservation.runtime.text = some limit →
      ((activeReservations file).filter fun other => other.runtime = reservation.runtime).length ≤
        limit.value

/-- The active reservations on a resource do not exceed the limit that is stated for it. -/
def KeepsLimits (limits : Limits) (resource : Binding → SafeId) (file : Ledger) : Prop :=
  ∀ name limit, limits.get? name.text = some limit →
    activeWith file (fun binding => resource binding = name) ≤ limit.value

def StatesLimits (limits : Limits) (resource : Binding → SafeId) (file : Ledger) : Prop :=
  ∀ id reservation, file.reservations.get? id = some reservation →
    reservation.status.isActive = true →
    ∃ limit, limits.get? (resource reservation.toBinding).text = some limit

section Resource

variable {limits : Limits} {resource : Binding → SafeId} {before after : Ledger}
  {heritage : Heritage} {policy : CapacityPolicy} {value : JsValue} {task : Task}

theorem KeepsLimits.shrinks (shrinks : Shrinks before after)
    (keeps : KeepsLimits limits resource before) : KeepsLimits limits resource after := by
  intro name limit stated
  exact (shrinks.activeWith_le _).trans (keeps name limit stated)

theorem KeepsLimits.admits (admits : Admits policy heritage value task before after)
    (room : ∀ limit, limits.get? (resource task.toBinding).text = some limit →
      activeWith before (fun binding => resource binding = resource task.toBinding) < limit.value)
    (keeps : KeepsLimits limits resource before) : KeepsLimits limits resource after := by
  intro name limit stated
  rw [admits.activeWith_eq]
  by_cases here : resource task.toBinding = name
  · have free := room limit (here ▸ stated)
    simp only [here, decide_true, if_true] at *
    omega
  · simpa [here] using keeps name limit stated

theorem StatesLimits.shrinks (shrinks : Shrinks before after)
    (states : StatesLimits limits resource before) : StatesLimits limits resource after := by
  intro id reservation found active
  rcases shrinks id reservation found active with ⟨earlier, earlierFound, wasActive, binding, -⟩
  rw [← binding]
  exact states id earlier earlierFound wasActive

theorem StatesLimits.admits (admits : Admits policy heritage value task before after)
    (stated : ∃ limit, limits.get? (resource task.toBinding).text = some limit)
    (states : StatesLimits limits resource before) : StatesLimits limits resource after := by
  intro id reservation found active
  rcases admits.written with ⟨acceptedAt, reservationExpiresAt, written⟩
  rw [written, OrderedMap.get?_set] at found
  split_ifs at found with here
  · cases Option.some.inj found
    exact stated
  · exact states id reservation found active

theorem room_of_limitReached {count : ℕ} {name : JsString}
    (free : limitReached heritage limits name count = false) (limit : SafeNat)
    (stated : limits.get? name = some limit) : count < limit.value := by
  simp only [limitReached, stated, decide_eq_false_iff_not, not_le] at free
  exact free

end Resource

theorem unless_eq_ok {refused : Bool} {message : JsString} {done : Unit}
    (passed : unless_ refused message = .ok done) : refused = false := by
  cases refused
  · rfl
  · contradiction

theorem eq_of_safeId? {value : JsValue} {id : SafeId} (isId : safeId? value = some id) :
    value = .string id.text := by
  cases value with
  | string text =>
    rw [safeId?] at isId
    split_ifs at isId
    rw [← Option.some.inj isId]
  | _ => contradiction

theorem get_of_safeField {task : JsValue} {field : JsString} {id : SafeId}
    (accepted : safeField task field = .ok id) : task.get field = .string id.text := by
  rw [safeField] at accepted
  split at accepted
  case h_1 found isId =>
    cases Except.ok.inj accepted
    exact eq_of_safeId? isId
  case h_2 => contradiction

theorem taskValidation_names {heritage : Heritage} {policy : CapacityPolicy} {value : JsValue}
    {task : Task} (valid : taskValidation heritage policy value = .ok task) :
    value.get (js "host") = .string task.host.text ∧
      value.get (js "account") = .string task.account.text ∧
      statesLimit heritage policy.hosts task.host.text = true ∧
      statesLimit heritage policy.accounts task.account.text = true := by
  simp only [taskValidation, bind_eq_ok_iff] at valid
  rcases valid with ⟨_, -, role, -, _, -, taskId, -, runtime, -, host, hostField, account,
    accountField, repo, -, branch, -, worktree, -, _, -, _, -, blockedBy, -, overlapKeys, -,
    fallbackRuntimes, -, _, hostStated, _, accountStated, cost, -, deadline, -, retry, -,
    revision, -, _, -, built⟩
  rw [← Except.ok.inj built]
  refine ⟨get_of_safeField hostField, get_of_safeField accountField, ?_, ?_⟩
  · simpa using unless_eq_ok hostStated
  · simpa using unless_eq_ok accountStated

def NamesStated (policy : CapacityPolicy) (event : Call × Surroundings) : Prop :=
  ∀ tasks, event.1 = .reserveMany (.array tasks) → ∀ task ∈ tasks,
    (∀ host, task.get (js "host") = .string host → (event.2.heritage.member host).isSome = true →
      policy.hosts.has host = true) ∧
    ∀ account, task.get (js "account") = .string account →
      (event.2.heritage.member account).isSome = true → policy.accounts.has account = true

theorem stated_of_statesLimit {heritage : Heritage} {limits : Limits} {name : JsString}
    (stated : statesLimit heritage limits name = true)
    (notInherited : (heritage.member name).isSome = true → limits.has name = true) :
    ∃ limit, limits.get? name = some limit := by
  rw [statesLimit, Bool.or_eq_true] at stated
  rcases stated with own | inherited
  · exact Option.isSome_iff_exists.mp own
  · exact Option.isSome_iff_exists.mp (notInherited inherited)

structure Bounded (policy : CapacityPolicy) (file : Ledger) : Prop where
  all : activeWith file (fun _ => true) ≤ policy.globalLimit
  writers : activeWith file Binding.isWriter ≤ policy.globalLimit - policy.reviewReserve
  hosts : KeepsLimits policy.hosts Binding.host file
  hostsStated : StatesLimits policy.hosts Binding.host file
  accounts : KeepsLimits policy.accounts Binding.account file
  accountsStated : StatesLimits policy.accounts Binding.account file
  runtimes : KeepsLimits policy.runtimes Binding.runtime file

theorem bounded_empty (policy : CapacityPolicy) : Bounded policy .empty where
  all := Nat.zero_le _
  writers := Nat.zero_le _
  hosts _ _ _ := Nat.zero_le _
  hostsStated := by simp [StatesLimits, Ledger.empty]
  accounts _ _ _ := Nat.zero_le _
  accountsStated := by simp [StatesLimits, Ledger.empty]
  runtimes _ _ _ := Nat.zero_le _

theorem Bounded.shrinks {policy : CapacityPolicy} {before after : Ledger}
    (shrinks : Shrinks before after) (bounded : Bounded policy before) : Bounded policy after where
  all := (shrinks.activeWith_le _).trans bounded.all
  writers := (shrinks.activeWith_le _).trans bounded.writers
  hosts := bounded.hosts.shrinks shrinks
  hostsStated := bounded.hostsStated.shrinks shrinks
  accounts := bounded.accounts.shrinks shrinks
  accountsStated := bounded.accountsStated.shrinks shrinks
  runtimes := bounded.runtimes.shrinks shrinks

theorem Bounded.admits {policy : CapacityPolicy} {heritage : Heritage} {value : JsValue}
    {task : Task} {before after : Ledger} (admits : Admits policy heritage value task before after)
    (hostStated : ∃ limit, policy.hosts.get? task.host.text = some limit)
    (accountStated : ∃ limit, policy.accounts.get? task.account.text = some limit)
    (bounded : Bounded policy before) : Bounded policy after := by
  have clear := clear_of_capacityHold admits.clear
  refine ⟨?_, ?_, ?_, ?_, ?_, ?_, ?_⟩
  · rw [admits.activeWith_eq]
    exact clear.all
  · rw [admits.activeWith_eq]
    split_ifs with isWriter
    · exact clear.reserve isWriter
    · exact bounded.writers
  · apply bounded.hosts.admits admits
    exact room_of_limitReached clear.host
  · exact bounded.hostsStated.admits admits hostStated
  · apply bounded.accounts.admits admits
    exact room_of_limitReached clear.account
  · exact bounded.accountsStated.admits admits accountStated
  · apply bounded.runtimes.admits admits
    intro limit stated
    apply room_of_limitReached (clear.runtime _) limit stated
    simp [statesLimit, OrderedMap.has, stated]

theorem Bounded.withinLimits {policy : CapacityPolicy} {file : Ledger}
    (bounded : Bounded policy file) : WithinLimits policy file := by
  have active : ∀ reservation ∈ activeReservations file, ∃ id,
      file.reservations.get? id = some reservation ∧ reservation.status.isActive = true := by
    intro reservation member
    rcases List.mem_filter.mp member with ⟨listed, isActive⟩
    rcases OrderedMap.mem_ownValues.mp listed with ⟨id, found⟩
    exact ⟨id, found, isActive⟩
  refine ⟨?_, ?_, ?_, ?_, ?_⟩
  · have all := bounded.all
    rwa [activeWith_eq_length, List.filter_true] at all
  · have writers := bounded.writers
    rwa [activeWith_eq_length] at writers
  · intro reservation member
    rcases active reservation member with ⟨id, found, isActive⟩
    rcases bounded.hostsStated id reservation found isActive with ⟨limit, stated⟩
    have kept := bounded.hosts _ limit stated
    rw [activeWith_eq_length] at kept
    exact ⟨limit, stated, kept⟩
  · intro reservation member
    rcases active reservation member with ⟨id, found, isActive⟩
    rcases bounded.accountsStated id reservation found isActive with ⟨limit, stated⟩
    have kept := bounded.accounts _ limit stated
    rw [activeWith_eq_length] at kept
    exact ⟨limit, stated, kept⟩
  · intro reservation member limit stated
    have kept := bounded.runtimes _ limit stated
    rwa [activeWith_eq_length] at kept

/-- Whatever calls run with a policy from an empty ledger, the active reservations
stay within its limits, if no task names an inherited host or account that it does not state. -/
theorem run_within_limits (engine : Engine) (policy : CapacityPolicy)
    (events : List (Call × Surroundings)) (stated : ∀ event ∈ events, NamesStated policy event) :
    WithinLimits policy (Ledger.empty.run engine policy events) := by
  apply Bounded.withinLimits
  apply run_active_invariant _ _ (bounded_empty policy) stated
  · intro before after shrinks bounded
    exact bounded.shrinks shrinks
  · intro tasks around value task before after namesStated given admits bounded
    rcases taskValidation_names admits.valid with ⟨host, account, hostFound, accountFound⟩
    rcases namesStated tasks rfl value given with ⟨hostsOwn, accountsOwn⟩
    apply bounded.admits admits
    · exact stated_of_statesLimit hostFound (hostsOwn _ host)
    · exact stated_of_statesLimit accountFound (accountsOwn _ account)

def twoTaskPolicy : CapacityPolicy where
  globalLimit := 2
  reviewReserve := 0
  budgetMicros := ⟨10, by decide⟩
  maxDeadlineMs := 60000
  maxRetries := 0
  maxRevisions := 0
  reservationTtlMs := 60000
  hosts := .ofList [(js "brick", ⟨2, by decide⟩)]
  accounts := .ofList [(js "team", ⟨2, by decide⟩)]
  runtimes := .empty
  premiumRuntimes := []
  premiumApprovals := []
  reserveSmaller := by decide

def twoTaskPolicyJson : JsValue :=
  .object
    [(js "global_limit", count 2), (js "review_reserve", count 0), (js "budget_micros", count 10),
      (js "max_deadline_ms", count 60000), (js "max_retries", count 0),
      (js "max_revisions", count 0), (js "reservation_ttl_ms", count 60000),
      (js "hosts", .object [(js "brick", count 2)]),
      (js "accounts", .object [(js "team", count 2)])]

def buildTask (taskId host : JsString) : JsValue :=
  .object
    [(js "task_id", .string taskId), (js "role", .string (js "build")),
      (js "runtime", .string (js "node")), (js "host", .string host),
      (js "account", .string (js "team")), (js "repo", .string (js "acme/app")),
      (js "branch", .string taskId), (js "worktree", .string (js "/work/" ++ taskId)),
      (js "estimated_cost_micros", count 2), (js "deadline_ms", count 60000),
      (js "retry", count 0), (js "revision", count 0)]

/-- A process that has assigned to no inherited member, at one time of its clock. -/
def clockAt (now : ℤ) : Surroundings := ⟨.working, .fresh, fun _ => .finite now false⟩

/-- The engine that compares by code units and parses the ISO format. -/
def plainEngine : Engine := ⟨codeUnitOrder, .iso⟩

theorem run_within_limits_brick :
    WithinLimits twoTaskPolicy (Ledger.empty.run plainEngine twoTaskPolicy
      [(.reserveMany (.array [buildTask (js "a") (js "brick")]), clockAt 0)]) := by
  apply run_within_limits
  intro event member tasks isReserve task given
  rw [List.mem_singleton.mp member] at isReserve ⊢
  cases isReserve
  rw [List.mem_singleton.mp given]
  refine ⟨?_, ?_⟩
  · intro host isHost inherited
    cases isHost
    decide
  · intro account isAccount inherited
    cases isAccount
    decide

/-- An accepted policy lets a task on the host `constructor` in, for which it has no limit. -/
theorem run_exceeds_limits :
    validateCapacityPolicy twoTaskPolicyJson = .ok twoTaskPolicy ∧
      ¬ WithinLimits twoTaskPolicy (Ledger.empty.run plainEngine twoTaskPolicy
        [(.reserveMany (.array [buildTask (js "a") (js "constructor")]), clockAt 0)]) := by
  refine ⟨by rfl, ?_⟩
  intro within
  have reserved : ∃ reservation, activeReservations (Ledger.empty.run plainEngine twoTaskPolicy
      [(.reserveMany (.array [buildTask (js "a") (js "constructor")]), clockAt 0)]) =
        [reservation] ∧ reservation.host.text = js "constructor" := by
    exact ⟨_, rfl, by decide⟩
  rcases reserved with ⟨reservation, active, host⟩
  rcases within.hosts reservation (by rw [active]; exact List.mem_singleton_self _) with
    ⟨limit, stated, -⟩
  rw [host] at stated
  have absent : twoTaskPolicy.hosts.get? (js "constructor") = none := by decide
  rw [absent] at stated
  contradiction

end StudentHub.Capacity
