import StudentHub.Capacity.Limits

/-!
# Reading back what was written

The checks of a call and the check of the file agree on everything but the end of a
pause, which the call may be given as any value that `Date.parse` takes for a date,
and on what is spent, which a call adds to without a bound.
-/

namespace StudentHub.Capacity

open Ecma JsString

theorem get_record {properties : List (JsString × JsValue)}
    (distinct : (properties.map Prod.fst).Nodup) (name : JsString) :
    (record properties).get name = (JsValue.object properties).get name := by
  induction properties with
  | nil => rfl
  | cons property rest ih =>
    rw [List.map_cons, List.nodup_cons] at distinct
    have later := ih distinct.2
    rw [record] at later ⊢
    rw [JsValue.get_cons, List.filter_cons]
    cases defined : property.2.isDefined with
    | true =>
      rw [if_pos rfl, JsValue.get_cons, later]
    | false =>
      rw [if_neg Bool.false_ne_true, later]
      split_ifs with here
      · rw [JsValue.isDefined_eq_false.mp defined]
        exact JsValue.get_eq_undefined (here ▸ distinct.1)
      · rfl

theorem Reservation.get_toJson (reservation : Reservation) (name : JsString) :
    reservation.toJson.get name = (JsValue.object reservation.properties).get name := by
  apply get_record
  have names : reservation.properties.map Prod.fst =
      [js "version", js "task_id", js "role", js "runtime", js "host", js "account", js "repo",
        js "branch", js "worktree", js "overlap_keys", js "status", js "estimated_cost_micros",
        js "deadline_ms", js "retry", js "revision", js "accepted_at",
        js "reservation_expires_at", js "hold_reason", js "next_automatic_action",
        js "updated_at", js "actual_cost_micros"] := rfl
  rw [names]
  decide +kernel

theorem Pause.get_toJson (pause : Pause) (name : JsString) :
    pause.toJson.get name = (JsValue.object pause.properties).get name := by
  apply get_record
  have names : pause.properties.map Prod.fst = [js "reason", js "until", js "created_at"] := rfl
  rw [names]
  decide

@[simp]
theorem safeId?_text (id : SafeId) : safeId? (.string id.text) = some id := by
  rw [safeId?, dif_pos id.safe]

@[simp]
theorem safeIds?_texts (ids : List SafeId) :
    safeIds? (.array (ids.map fun id => .string id.text)) = some ids := by
  have items : (ids.map fun id => JsValue.string id.text).mapM safeId? = some ids := by
    induction ids with
    | nil => rfl
    | cons id rest ih => simp [ih]
  exact items

@[simp]
theorem named_status (status : CapacityStatus) :
    named CAPACITY_STATUSES CapacityStatus.text (.string status.text) = some status := by
  cases status <;> rfl

@[simp]
theorem named_role (role : Role) : named ROLES Role.text (.string role.text) = some role := by
  cases role <;> rfl

@[simp]
theorem named_reason (reason : PauseReason) :
    named PAUSE_REASONS PauseReason.text (.string reason.text) = some reason := by
  cases reason <;> rfl

@[simp]
theorem isText_string (text : JsString) : (JsValue.string text).isText text = true := by
  simp [JsValue.isText]

@[simp]
theorem nonNegativeInteger_count (number : SafeNat) :
    nonNegativeInteger (count number.value) = some number :=
  nonNegativeInteger_ofNat number

@[simp]
theorem validTimestamp_toISOString (dates : DateParser) (instant : Instant) :
    validTimestamp dates (.string instant.toISOString) = true := by
  simp [validTimestamp, dates.parse_toISOString]

theorem validReservation_toJson (dates : DateParser) (reservation : Reservation) :
    validReservation dates reservation.taskId.text reservation.toJson = true := by
  have version : reservation.toJson.get (js "version") = .string CAPACITY_LEDGER_VERSION :=
    reservation.get_toJson _
  have taskId : reservation.toJson.get (js "task_id") = .string reservation.taskId.text :=
    reservation.get_toJson _
  have status : reservation.toJson.get (js "status") = .string reservation.status.text :=
    reservation.get_toJson _
  have role : reservation.toJson.get (js "role") = .string reservation.role.text :=
    reservation.get_toJson _
  have cost : reservation.toJson.get (js "estimated_cost_micros") =
      count reservation.estimatedCostMicros.value := reservation.get_toJson _
  have deadline : reservation.toJson.get (js "deadline_ms") =
      count reservation.deadlineMs.value := reservation.get_toJson _
  have retry : reservation.toJson.get (js "retry") = count reservation.retry.value :=
    reservation.get_toJson _
  have revision : reservation.toJson.get (js "revision") = count reservation.revision.value :=
    reservation.get_toJson _
  have acceptedAt : reservation.toJson.get (js "accepted_at") =
      .string reservation.acceptedAt.toISOString := reservation.get_toJson _
  have expiresAt : reservation.toJson.get (js "reservation_expires_at") =
      .string reservation.reservationExpiresAt.toISOString := reservation.get_toJson _
  have overlapKeys : reservation.toJson.get (js "overlap_keys") =
      .array (reservation.overlapKeys.map fun key => .string key.text) := reservation.get_toJson _
  have fields : [js "runtime", js "host", js "account", js "repo", js "branch",
      js "worktree"].map reservation.toJson.get =
      [reservation.runtime, reservation.host, reservation.account, reservation.repo,
        reservation.branch, reservation.worktree].map fun id => .string id.text := by
    simp only [List.map_cons, List.map_nil, reservation.get_toJson]
    rfl
  have actual : reservation.toJson.get (js "actual_cost_micros") =
      reservation.actualCostMicros.elim .undefined fun cost => count cost.value := by
    rw [reservation.get_toJson, Reservation.properties]
    cases reservation.actualCostMicros <;> rfl
  have safeFields : ([js "runtime", js "host", js "account", js "repo", js "branch",
      js "worktree"].all fun field => (safeId? (reservation.toJson.get field)).isSome) = true := by
    have mapped := congrArg (fun values => values.all fun value => (safeId? value).isSome) fields
    simp only [List.all_map] at mapped
    apply mapped.trans
    simp
  have actualCost : validActualCost (reservation.toJson.get (js "actual_cost_micros")) = true := by
    rw [actual]
    cases reservation.actualCostMicros with
    | none => rfl
    | some cost => exact congrArg Option.isSome (nonNegativeInteger_count cost)
  have plain : reservation.toJson.isPlainObject = true := rfl
  have positive : (positiveInteger (count reservation.deadlineMs.value)).isSome = true := by
    simp [positiveInteger, reservation.deadlinePositive]
  rw [validReservation, safeFields, actualCost, plain, version, taskId, status, role, cost,
    deadline, positive, retry, revision, acceptedAt, expiresAt, overlapKeys]
  simp [reservation.taskId.safe]

structure Readable (dates : DateParser) (file : Ledger) : Prop where
  spent : file.spentMicros ≤ MAX_SAFE_INTEGER
  ids : ∀ id reservation, file.reservations.get? id = some reservation →
    id = reservation.taskId.text
  pauses : ∀ key pause, file.pauses.get? key = some pause →
    validPauseKey key = true ∧ validUntil dates pause.«until» = true

theorem validPause_toJson {dates : DateParser} {key : JsString} {pause : Pause}
    (isKey : validPauseKey key = true) (isUntil : validUntil dates pause.«until» = true) :
    validPause dates key pause.toJson = true := by
  have reason : pause.toJson.get (js "reason") = .string pause.reason.text := pause.get_toJson _
  have until_ : pause.toJson.get (js "until") = pause.«until» := pause.get_toJson _
  have createdAt : pause.toJson.get (js "created_at") = .string pause.createdAt.toISOString :=
    pause.get_toJson _
  have plain : pause.toJson.isPlainObject = true := rfl
  rw [validPause, isKey, plain, reason, until_, isUntil, createdAt]
  simp

theorem all_ownEntries {Value : Type} {map : OrderedMap JsString Value}
    (valid : JsString → JsValue → Bool) (toJson : Value → JsValue)
    (all : ∀ key value, map.get? key = some value → valid key (toJson value) = true) :
    ((map.ownEntries.map fun entry => (entry.1, toJson entry.2)).all fun entry =>
      valid entry.1 entry.2) = true := by
  rw [List.all_eq_true]
  intro entry member
  rcases List.mem_map.mp member with ⟨⟨key, value⟩, listed, rfl⟩
  exact all key value (OrderedMap.mem_entries_iff.mp (map.ownEntries_perm.mem_iff.mp listed))

theorem Readable.validateLedger {dates : DateParser} {file : Ledger}
    (readable : Readable dates file) : validateLedger dates file.toJson = true := by
  have spent : nonNegativeInteger (file.toJson.get (js "spent_micros")) =
      some ⟨file.spentMicros, readable.spent⟩ :=
    nonNegativeInteger_ofNat ⟨file.spentMicros, readable.spent⟩
  have reservations : (file.toJson.get (js "reservations")).entries =
      file.reservations.ownEntries.map fun entry => (entry.1, entry.2.toJson) := rfl
  have pauses : (file.toJson.get (js "pauses")).entries =
      file.pauses.ownEntries.map fun entry => (entry.1, entry.2.toJson) := rfl
  have allReservations := all_ownEntries (validReservation dates) Reservation.toJson
    fun id reservation found => by
      rw [readable.ids id reservation found]
      exact validReservation_toJson dates reservation
  have allPauses := all_ownEntries (validPause dates) Pause.toJson fun key pause found =>
    validPause_toJson (readable.pauses key pause found).1 (readable.pauses key pause found).2
  rw [Capacity.validateLedger, spent, reservations, pauses, allReservations, allPauses]
  rfl

section Kept

variable {dates : DateParser} {before after : Ledger}

theorem readable_empty (dates : DateParser) : Readable dates .empty where
  spent := Nat.zero_le _
  ids := by simp [Ledger.empty]
  pauses := by simp [Ledger.empty]

theorem Readable.mapValues {change : Reservation → Reservation}
    (changed : after.reservations = before.reservations.mapValues change)
    (sameId : ∀ reservation, (change reservation).taskId = reservation.taskId)
    (spent : after.spentMicros = before.spentMicros)
    (pauses : ∀ key pause, after.pauses.get? key = some pause →
      ∃ earlier, before.pauses.get? key = some earlier ∧
        (validUntil dates earlier.«until» = true → validUntil dates pause.«until» = true))
    (readable : Readable dates before) : Readable dates after where
  spent := spent ▸ readable.spent
  ids := by
    intro id reservation found
    rw [changed, OrderedMap.get?_mapValues, Option.map_eq_some_iff] at found
    rcases found with ⟨earlier, found, rfl⟩
    rw [sameId]
    exact readable.ids id earlier found
  pauses := by
    intro key pause found
    rcases pauses key pause found with ⟨earlier, earlierFound, keeps⟩
    rcases readable.pauses key earlier earlierFound with ⟨isKey, isUntil⟩
    exact ⟨isKey, keeps isUntil⟩

theorem Readable.expireReservations (readable : Readable dates before) (now : ClockReading) :
    Readable dates (expireReservations before now) := by
  have expired : (Capacity.expireReservations before now).reservations =
      before.reservations.mapValues (expireReservation now) := rfl
  apply readable.mapValues expired _ rfl
  · intro key pause found
    exact ⟨pause, found, id⟩
  · intro reservation
    rw [expireReservation]
    split_ifs <;> rfl

theorem validUntil_jsonCopy {value : JsValue} (valid : validUntil dates value = true) :
    validUntil dates value.jsonCopy = true := by
  cases value <;> first | contradiction | exact valid

theorem Readable.parsed (readable : Readable dates before) : Readable dates before.parsed := by
  have parsed : before.parsed.reservations = before.reservations.mapValues Reservation.parsed := rfl
  apply readable.mapValues parsed (fun _ => rfl) rfl
  intro key pause found
  rw [Ledger.parsed, OrderedMap.get?_mapValues, Option.map_eq_some_iff] at found
  rcases found with ⟨earlier, found, rfl⟩
  exact ⟨earlier, found, validUntil_jsonCopy⟩

theorem ids_set {reservations : OrderedMap JsString Reservation} {taskId : JsString}
    {next : Reservation} (isId : taskId = next.taskId.text)
    (ids : ∀ id reservation, reservations.get? id = some reservation →
      id = reservation.taskId.text) :
    ∀ id reservation, (reservations.set taskId next).get? id = some reservation →
      id = reservation.taskId.text := by
  intro id reservation found
  rw [OrderedMap.get?_set] at found
  split_ifs at found with here
  · cases Option.some.inj found
    exact here.trans isId
  · exact ids id reservation found

theorem validPauseKey_append {scope : JsString} (id : SafeId)
    (isScope : scope ∈ [js "host:", js "account:", js "runtime:"]) :
    validPauseKey (scope ++ id.text) = true := by
  rw [validPauseKey, Bool.or_eq_true, List.any_eq_true]
  right
  refine ⟨scope, isScope, ?_⟩
  rw [List.drop_left, id.safe, Bool.and_true, List.isPrefixOf_iff_prefix]
  exact List.prefix_append _ _

theorem validPauseKey_of_resourceKey {scope id : JsValue} {key : JsString}
    (isKey : resourceKey scope id = .ok key) : validPauseKey key = true := by
  rw [resourceKey] at isKey
  split at isKey
  case h_1 => contradiction
  case h_2 =>
    cases Except.ok.inj isKey
    rfl
  case h_3 scope notGlobal isScope =>
    rcases bind_eq_ok_iff.mp isKey with ⟨found, -, built⟩
    rw [← Except.ok.inj built]
    apply validPauseKey_append
    cases scope with
    | global => exact absurd rfl notGlobal
    | host | account | runtime => decide

theorem Readable.spend {before : Option CapacityStatus} {status : CapacityStatus}
    {actualCost : SafeNat} {file : Ledger} (readable : Readable dates file)
    (room : before.any CapacityStatus.isTerminal = false → status.isTerminal = true →
      file.spentMicros + actualCost.value ≤ MAX_SAFE_INTEGER) :
    charged file.spentMicros before status actualCost ≤ MAX_SAFE_INTEGER := by
  rw [charged]
  split_ifs with ends
  · rw [Bool.and_eq_true, Bool.not_eq_true'] at ends
    have below := room ends.1 ends.2
    rw [numberSum, roundToDouble_of_lt (by simp only [MAX_SAFE_INTEGER] at below; omega)]
    exact below
  · exact readable.spent

end Kept

/-- A pause that a call accepts ends at null or at a string, and a cost that a call charges
leaves the spent sum a safe integer. -/
def StaysReadable (dates : DateParser) (file : Ledger) (event : Call × Surroundings) : Prop :=
  (∀ arguments, event.1 = .pauseResource arguments →
    checkUntil dates (orDefault arguments.«until» .null) = .ok () →
    orDefault arguments.«until» .null = .null ∨
      ∃ text, orDefault arguments.«until» .null = .string text) ∧
  ∀ existing actualCost, Charges file event existing actualCost →
    file.spentMicros + actualCost.value ≤ MAX_SAFE_INTEGER

theorem validUntil_of_checkUntil {dates : DateParser} {until_ : JsValue}
    (checked : checkUntil dates until_ = .ok ())
    (isText : until_ = .null ∨ ∃ text, until_ = .string text) :
    validUntil dates until_ = true := by
  rcases isText with rfl | ⟨text, rfl⟩
  · rfl
  · by_contra invalid
    have refused : checkUntil dates (.string text) =
        fail (js "pause expiry must be an ISO timestamp or null") := if_neg invalid
    rw [refused] at checked
    contradiction

theorem Works.readable {dates : DateParser} {policy : CapacityPolicy} {around : Surroundings}
    {file state : Ledger} {call : Call} (stays : StaysReadable dates file (call, around))
    (readable : Readable dates (expireReservations file (around.now 0)))
    (worked : Works dates policy around (expireReservations file (around.now 0)) call state) :
    Readable dates state := by
  induction worked with
  | kept => exact readable
  | pausesLeft earlier pauses left ih =>
    have before := ih stays
    refine ⟨before.spent, before.ids, ?_⟩
    intro key pause found
    exact before.pauses key pause (left key pause found)
  | reserved earlier given valid new clear ih =>
    exact ⟨(ih stays).spent, ids_set rfl (ih stays).ids, (ih stays).pauses⟩
  | moved isCost isStatus found unsettled =>
    have sameId := readable.ids _ _ found
    refine ⟨?_, ids_set sameId readable.ids, readable.pauses⟩
    apply readable.spend
    intro unended ends
    refine stays.2 (.own _) _ ⟨_, _, _, _, rfl, isStatus, isCost, ?_, unended, ends⟩
    rw [lookUp, found]
  | movedInherited isCost isStatus found =>
    refine ⟨?_, readable.ids, readable.pauses⟩
    apply readable.spend
    intro unended ends
    exact stays.2 _ _ ⟨_, _, _, _, rfl, isStatus, isCost, found, unended, ends⟩
  | paused untilChecked isKey =>
    refine ⟨readable.spent, readable.ids, ?_⟩
    intro key pause found
    rw [OrderedMap.get?_set] at found
    split_ifs at found with here
    · cases Option.some.inj found
      rw [here]
      exact ⟨validPauseKey_of_resourceKey isKey,
        validUntil_of_checkUntil untilChecked (stays.1 _ rfl untilChecked)⟩
    · exact readable.pauses key pause found

def completed : TransitionOptions := ⟨count 2, .undefined, .undefined⟩

theorem run_of_unreadable {engine : Engine} {policy : CapacityPolicy} {file : Ledger}
    (unreadable : validateLedger engine.dates file.toJson = false)
    (events : List (Call × Surroundings)) : file.run engine policy events = file := by
  induction events with
  | nil => rfl
  | cons event later ih =>
    rcases event with ⟨call, around⟩
    rcases next_cases engine policy file call around with unchanged | ⟨valid, -⟩
    · rw [Ledger.run, List.foldl_cons, unchanged]
      exact ih
    · rw [unreadable] at valid
      contradiction

def yearParser : DateParser where
  parse text := (Date.parse text).or <|
    if text.length = 4 ∧ text.all isDigit then
      timeClip ((⟨numeral text, 1, 1⟩ : CalendarDate).makeDay * msPerDay)
    else
      none
  parse_toISOString instant := by
    rw [Date.parse_toISOString, Option.some_or]

def yearEngine : Engine := ⟨codeUnitOrder, yearParser⟩

def yearPause : PauseArguments :=
  ⟨.string (js "global"), .undefined, .string (js "quota"), count 2026⟩

end StudentHub.Capacity
