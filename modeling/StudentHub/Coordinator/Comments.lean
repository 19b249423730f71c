import StudentHub.Coordinator.Independence
import StudentHub.Ecma.FencedJson
import StudentHub.Ecma.NumberOrder
import StudentHub.Order.NewestWins

/-!
# Receipts in comments

A receipt is kept as JSON in a block of code of a comment. Anyone with access to the issue can
write one, so the comments are read oldest first: the newest record of an attempt is taken as long
as it agrees with the first one on the fields that never change, and one that does not is
listed as well, for the conflict to be seen.
-/

namespace StudentHub.Coordinator

open Ecma JsString Json NewestWins

def receiptMarker : JsString := js "<!-- coordinator-receipt v1 (dry-run pilot) -->"

def receiptHeading (receipt : JsValue) : JsString :=
  js "**Coordinator dispatch receipt** — attempt " ++ template (receipt.get (js "attempt_id"))

def receiptCommentBody (receipt : JsValue) : JsString :=
  (js "\n").intercalate [receiptMarker, receiptHeading receipt, js "```json",
    (pretty receipt).getD [], js "```"]

def parseReceiptCommentBody (round : FiniteNumber → JsNumber) (body : JsValue) : JsValue :=
  match (body.orElse (.string [])).toText.bind fencedJson with
  | none => .null
  | some block => (parse round block).getD .null

/-- What is read of a comment; `userId` is `comment.user?.id`. -/
structure Comment where
  createdAt : JsValue
  userId : JsValue
  body : JsValue

/-- A record with the comment's actor and its time, which is absent when it is no string. -/
structure Recorded where
  receipt : JsValue
  actorId : JsValue
  createdAt : Option JsString

namespace Comment

def time (comment : Comment) : Option JsString :=
  match comment.createdAt with
  | .string time => some time
  | _ => none

end Comment

def RECEIPT_VERSIONS : List JsString := [js "1.0.0", js "1.1.0"]

def RECEIPT_IMMUTABLE_FIELDS : List JsString :=
  [js "receipt_version", js "role", js "runtime", js "activation_digest", js "issue_id",
    js "authorization_ref", js "requested_worker", js "repo", js "branch", js "target_sha",
    js "workspace_scope", js "scope_phase", js "allowed_paths", js "scoped_base_sha",
    js "review_base_sha", js "episode_id"]

def immutableFieldEqual (left right : JsValue) (field : JsString) : Bool :=
  if field = js "allowed_paths" then
    decide (stringify (left.get field) = stringify (right.get field))
  else
    (left.get field).strictEq (right.get field)

/-- `new Set(allowedActorIds.filter(...))`, when a list is given. -/
def allowedActors : JsValue → Option (List JsString)
  | .array ids => some (ids.filterMap fun id =>
      match id with
      | .string [] => none
      | .string id => some id
      | _ => none)
  | _ => none

def inOrder (comments : List Comment) : List Comment :=
  (byName (comments.map fun comment => (comment.time.getD [], comment))).map Prod.snd

def recordOf (round : FiniteNumber → JsNumber) (allowed : Option (List JsString)) (comment : Comment) :
    Option Recorded :=
  let parsed := parseReceiptCommentBody round comment.body
  if allowed.any fun ids => !isOneOf comment.userId ids then
    none
  else if parsed.isPlainObject && isOneOf (parsed.get (js "receipt_version")) RECEIPT_VERSIONS &&
      (parsed.get (js "attempt_id")).truthy then
    some ⟨parsed, comment.userId.orElse .null, comment.time⟩
  else
    none

namespace Recorded

def attemptId (record : Recorded) : JsValue := record.receipt.get (js "attempt_id")

def sameAttempt (left right : Recorded) : Bool := left.attemptId.sameValueZero right.attemptId

def agrees (prior record : Recorded) : Bool :=
  RECEIPT_IMMUTABLE_FIELDS.all (immutableFieldEqual prior.receipt record.receipt)

/-- A record with a time wins over one without; of two times the newest wins, or the later one. -/
def replaces (prior record : Recorded) : Bool :=
  match record.createdAt, prior.createdAt with
  | none, _ => false
  | some _, none => true
  | some time, some before => decide (¬time < before)

end Recorded

/-- The step of the loop: `byAttempt` is what is held and `conflicts` what is kept aside. -/
def collect (holding : Holding Recorded) (record : Recorded) : Holding Recorded :=
  match holding.held.find? fun prior => prior.sameAttempt record with
  | none => { holding with held := holding.held ++ [record] }
  | some prior =>
      if !prior.agrees record then
        { holding with aside := holding.aside ++ [record] }
      else if prior.replaces record then
        { holding with held := holding.held.map fun kept =>
            if kept.sameAttempt record then record else kept }
      else
        holding

def admitted (round : FiniteNumber → JsNumber) (comments : List Comment) (allowedActorIds : JsValue) :
    List Recorded :=
  (inOrder comments).filterMap (recordOf round (allowedActors allowedActorIds))

def parseReceiptsFromComments (round : FiniteNumber → JsNumber) (comments : List Comment)
    (allowedActorIds : JsValue) : List Recorded :=
  let holding := (admitted round comments allowedActorIds).foldl collect ⟨[], []⟩
  holding.held ++ holding.aside

inductive Primitive
  | undefined
  | null
  | nan
  | boolean (value : Bool)
  | infinity (negative : Bool)
  | finite (value : ℚ)
  | string (text : JsString)

def mapKey : JsValue → Option Primitive
  | .undefined => some .undefined
  | .null => some .null
  | .boolean value => some (.boolean value)
  | .number .nan => some .nan
  | .number (.infinity negative) => some (.infinity negative)
  | .number (.finite number) => some (.finite number.value)
  | .string text => some (.string text)
  | .array _ | .object _ | .other => none

theorem strictEq_iff {left right : JsValue} : left.strictEq right = true ↔
    ∃ key, key ≠ .nan ∧ mapKey left = some key ∧ mapKey right = some key := by
  have finite := @FiniteNumber.compare_eq_zero_iff
  cases left with
  | number value =>
      cases value <;> cases right with
      | number other => cases other <;> simp [JsValue.strictEq, mapKey, finite, eq_comm]
      | _ => simp [JsValue.strictEq, mapKey]
  | _ =>
      cases right with
      | number other => cases other <;> simp [JsValue.strictEq, mapKey]
      | _ => simp [JsValue.strictEq, mapKey, eq_comm]

theorem sameValueZero_iff {left right : JsValue} : left.sameValueZero right = true ↔
    ∃ key, mapKey left = some key ∧ mapKey right = some key := by
  by_cases nans : left = .number .nan ∧ right = .number .nan
  · rw [nans.1, nans.2]
    simp [JsValue.sameValueZero, mapKey]
  · have strict : left.sameValueZero right = left.strictEq right := by
      unfold JsValue.sameValueZero
      split
      · exact absurd ⟨rfl, rfl⟩ nans
      · rfl
    rw [strict, strictEq_iff]
    refine ⟨fun ⟨key, _, keys⟩ => ⟨key, keys⟩, fun ⟨key, keys⟩ => ⟨key, ?_, keys⟩⟩
    rintro rfl
    have isNan : ∀ {value : JsValue}, mapKey value = some .nan → value = .number .nan := by
      intro value isKey
      cases value with
      | number value => cases value <;> simp_all [mapKey]
      | _ => simp [mapKey] at isKey
    exact nans ⟨isNan keys.1, isNan keys.2⟩

theorem immutableFieldEqual_symm {left right : JsValue} {field : JsString}
    (same : immutableFieldEqual left right field = true) :
    immutableFieldEqual right left field = true := by
  rw [immutableFieldEqual] at same ⊢
  split_ifs at same ⊢
  · simpa [eq_comm] using same
  · rcases strictEq_iff.mp same with ⟨key, notNan, isLeft, isRight⟩
    exact strictEq_iff.mpr ⟨key, notNan, isRight, isLeft⟩

theorem immutableFieldEqual_trans {first second third : JsValue} {field : JsString}
    (early : immutableFieldEqual first second field = true)
    (late : immutableFieldEqual second third field = true) :
    immutableFieldEqual first third field = true := by
  rw [immutableFieldEqual] at early late ⊢
  split_ifs at early late ⊢
  · rw [decide_eq_true_eq] at early late ⊢
    exact early.trans late
  · rcases strictEq_iff.mp early with ⟨key, notNan, isFirst, isSecond⟩
    rcases strictEq_iff.mp late with ⟨other, -, isOther, isThird⟩
    cases isSecond.symm.trans isOther
    exact strictEq_iff.mpr ⟨key, notNan, isFirst, isThird⟩

/-- The attempts, their immutable fields and the times of records. -/
def records : Relations Recorded where
  same := Recorded.sameAttempt
  agrees := Recorded.agrees
  before left right := match left.createdAt, right.createdAt with
    | some time, some later => decide (time < later)
    | _, _ => false

theorem before_iff {left right : Recorded} : records.before left right = true ↔
    ∃ time later, left.createdAt = some time ∧ right.createdAt = some later ∧ time < later := by
  simp only [records]
  cases left.createdAt <;> cases right.createdAt <;> simp

theorem lawful_records : records.Lawful where
  same_symm same := by
    rcases sameValueZero_iff.mp same with ⟨key, isLeft, isRight⟩
    exact sameValueZero_iff.mpr ⟨key, isRight, isLeft⟩
  same_trans early late := by
    rcases sameValueZero_iff.mp early with ⟨key, isFirst, isSecond⟩
    rcases sameValueZero_iff.mp late with ⟨other, isOther, isThird⟩
    cases isSecond.symm.trans isOther
    exact sameValueZero_iff.mpr ⟨key, isFirst, isThird⟩
  agrees_symm agrees := by
    simp only [records, Recorded.agrees, List.all_eq_true] at agrees ⊢
    exact fun field isField => immutableFieldEqual_symm (agrees field isField)
  agrees_trans early late := by
    simp only [records, Recorded.agrees, List.all_eq_true] at early late ⊢
    exact fun field isField =>
      immutableFieldEqual_trans (early field isField) (late field isField)
  before_asymm isBefore := by
    rcases before_iff.mp isBefore with ⟨time, later, isTime, isLater, less⟩
    by_contra isAfter
    rw [Bool.not_eq_false] at isAfter
    rcases before_iff.mp isAfter with ⟨_, _, isTime', isLater', less'⟩
    cases isTime.symm.trans isLater'
    cases isLater.symm.trans isTime'
    exact List.lt_asymm less less'

/-- Each comment has a time, and no two have one time. -/
structure Timed (comments : List Comment) : Prop where
  timed : ∀ comment ∈ comments, comment.time ≠ none
  distinct : (comments.map Comment.time).Nodup

variable {round : FiniteNumber → JsNumber} {comments : List Comment} {allowedActorIds : JsValue}

theorem Timed.names (timed : Timed comments) :
    ((comments.map fun comment => (comment.time.getD [], comment)).map Prod.fst).Nodup := by
  have asTimes : (comments.map fun comment => (comment.time.getD [], comment)).map Prod.fst =
      (comments.map Comment.time).map fun time => time.getD [] := by
    rw [List.map_map, List.map_map]
    rfl
  rw [asTimes]
  apply List.Nodup.map_on _ timed.distinct
  intro left isLeft right isRight same
  rcases List.mem_map.mp isLeft with ⟨first, isFirst, rfl⟩
  rcases List.mem_map.mp isRight with ⟨second, isSecond, rfl⟩
  rcases Option.ne_none_iff_exists'.mp (timed.timed first isFirst) with ⟨time, isTime⟩
  rcases Option.ne_none_iff_exists'.mp (timed.timed second isSecond) with ⟨later, isLater⟩
  rw [isTime, isLater] at same ⊢
  exact congrArg some same

theorem inOrder_of_perm (timed : Timed comments) {other : List Comment} (perm : comments.Perm other) :
    inOrder other = inOrder comments := by
  rw [inOrder, inOrder, byName_eq_of_perm (perm.map _) timed.names]

theorem pairwise_inOrder (timed : Timed comments) : (inOrder comments).Pairwise fun left right =>
    ∃ time later, left.time = some time ∧ right.time = some later ∧ time < later := by
  have sorted : (byName (comments.map fun comment => (comment.time.getD [], comment))).Pairwise
      fun left right => ¬right.1 < left.1 := pairwise_byName _
  have distinct : (byName (comments.map fun comment => (comment.time.getD [], comment))).Pairwise
      fun left right => left.1 ≠ right.1 := by
    have names := ((byName_perm _).map Prod.fst).nodup_iff.mpr timed.names
    exact List.pairwise_map.mp names
  rw [inOrder, List.pairwise_map]
  refine (sorted.and distinct).imp_of_mem ?_
  rintro ⟨before, left⟩ ⟨after, right⟩ isLeft isRight ⟨notAfter, different⟩
  have ofComment : ∀ {time comment}, (time, comment) ∈
      byName (comments.map fun comment => (comment.time.getD [], comment)) →
        comment.time = some time := by
    intro time comment isEntry
    rcases List.mem_map.mp ((byName_perm _).mem_iff.mp isEntry) with ⟨found, isFound, same⟩
    cases same
    rcases Option.ne_none_iff_exists'.mp (timed.timed _ isFound) with ⟨time, isTime⟩
    rw [isTime]
    rfl
  refine ⟨before, after, ofComment isLeft, ofComment isRight, ?_⟩
  exact (List.le_iff_lt_or_eq.mp (List.not_lt.mp notAfter)).resolve_right different

theorem createdAt_of_recordOf {allowed : Option (List JsString)} {comment : Comment}
    {record : Recorded} (admits : recordOf round allowed comment = some record) :
    record.createdAt = comment.time := by
  simp only [recordOf] at admits
  split_ifs at admits
  cases admits
  rfl

theorem pairwise_admitted (timed : Timed comments) :
    (admitted round comments allowedActorIds).Pairwise fun left right =>
      records.before left right = true := by
  rw [admitted, List.pairwise_filterMap]
  refine (pairwise_inOrder timed).imp ?_
  rintro left right ⟨time, later, isTime, isLater, less⟩ first isFirst second isSecond
  apply before_iff.mpr ⟨time, later, ?_, ?_, less⟩
  · rw [createdAt_of_recordOf isFirst, isTime]
  · rw [createdAt_of_recordOf isSecond, isLater]

theorem collect_settled {found : List Recorded} {record : Recorded}
    (last : ∀ other ∈ found, records.before other record = true) :
    collect (records.settled found) record = records.take (records.settled found) record := by
  rw [collect, Relations.take]
  cases lookup : (records.settled found).held.find? fun prior => prior.sameAttempt record with
  | none =>
      have none : (records.settled found).held.find? (fun prior => records.same prior record) = none :=
        lookup
      rw [none]
  | some prior =>
      have isPrior : (records.settled found).held.find? (fun prior => records.same prior record) =
        some prior := lookup
      have isRecord : prior ∈ found := by
        have isHeld := List.mem_of_find?_eq_some lookup
        rcases List.mem_map.mp isHeld with ⟨first, isFirst, rfl⟩
        rcases @Relations.newest_eq_or _ records found first with same | ⟨isMember, -⟩
        · rw [same]
          exact (List.mem_filter.mp isFirst).1
        · exact isMember
      rcases before_iff.mp (last prior isRecord) with ⟨before, time, isBefore, isTime, less⟩
      have replaces : prior.replaces record = true := by
        simp only [Recorded.replaces, isBefore, isTime, decide_eq_true_eq]
        exact List.lt_asymm less
      rw [isPrior]
      cases agrees : prior.agrees record with
      | true =>
          have isAgreed : records.agrees prior record = true := agrees
          simp only [agrees, isAgreed, replaces, Bool.not_true, if_true]
          rfl
      | false =>
          have disagrees : records.agrees prior record = false := agrees
          simp [agrees, disagrees]

theorem parseReceiptsFromComments_eq (timed : Timed comments) :
    parseReceiptsFromComments round comments allowedActorIds =
      (records.settled (admitted round comments allowedActorIds)).held ++
        (records.settled (admitted round comments allowedActorIds)).aside := by
  have settles : ∀ found : List Recorded, found.Pairwise (fun left right =>
      records.before left right = true) → found.foldl collect ⟨[], []⟩ = records.settled found := by
    intro found ordered
    induction found using List.reverseRecOn with
    | nil => rfl
    | append_singleton found record ih =>
        rw [List.pairwise_append] at ordered
        have last : ∀ other ∈ found, records.before other record = true := fun other isRecord =>
          ordered.2.2 other isRecord record (List.mem_singleton.mpr rfl)
        rw [List.foldl_append, ih ordered.1, List.foldl_cons, List.foldl_nil, collect_settled last,
          Relations.take_settled lawful_records last ordered.1]
  rw [parseReceiptsFromComments, settles _ (pairwise_admitted timed)]

theorem receiptCommentBody_eq {receipt : JsValue} {text : JsString}
    (written : pretty receipt = some text) :
    receiptCommentBody receipt = (receiptMarker ++ js "\n**Coordinator dispatch receipt** — attempt ") ++
      (template (receipt.get (js "attempt_id")) ++ ([10] ++
        (openingFence ++ (text ++ closingFence)))) := by
  have opening : openingFence = js "```json" ++ [10] := by decide
  have closing : closingFence = [10] ++ js "```" := by decide
  have line : js "\n" = [10] := by decide
  have heading : js "\n**Coordinator dispatch receipt** — attempt " =
      [10] ++ js "**Coordinator dispatch receipt** — attempt " := by
    decide
  rw [receiptCommentBody, written, opening, closing, heading]
  simp [receiptHeading, List.intercalate, line]

theorem parseReceiptCommentBody_eq {receipt : JsValue} (kept : Kept round receipt)
    (closed : ¬openingFence <:+: template (receipt.get (js "attempt_id")) ++ js "\n") :
    parseReceiptCommentBody round (.string (receiptCommentBody receipt)) = receipt := by
  cases written : pretty receipt with
  | none => exact absurd (prettyAt_eq_none.mp written) kept.written
  | some text =>
      have block : fencedJson (receiptCommentBody receipt) = some text := by
        rw [receiptCommentBody_eq written, fencedJson_append (by decide), ← List.append_assoc]
        exact fencedJson_eq_some closed (plainLines_prettyAt _ written)
      have asText : ((JsValue.string (receiptCommentBody receipt)).orElse (.string [])).toText =
        some (receiptCommentBody receipt) := rfl
      rw [parseReceiptCommentBody, asText, Option.bind_some, block]
      simp only [parse_pretty written, Option.getD_some, kept.same]

structure IsRecord (round : FiniteNumber → JsNumber) (properties : List (JsString × JsValue)) :
    Prop where
  distinct : (properties.map Prod.fst).Nodup
  noIndex : ∀ name ∈ properties.map Prod.fst, ¬IsArrayIndex name
  kept : ∀ property ∈ properties, Kept round property.2

theorem names_setProperty (properties : List (JsString × JsValue)) (name : JsString)
    (value : JsValue) : (JsValue.setProperty properties name value).map Prod.fst =
      if name ∈ properties.map Prod.fst then properties.map Prod.fst
      else properties.map Prod.fst ++ [name] := by
  induction properties with
  | nil => rfl
  | cons property rest ih =>
      rcases property with ⟨first, old⟩
      rw [JsValue.setProperty]
      by_cases same : first = name
      · simp [same]
      · rw [if_neg same, List.map_cons, ih]
        by_cases later : name ∈ rest.map Prod.fst
        · simp only [List.map_cons, List.mem_cons, later, or_true, if_true]
        · simp only [List.map_cons, List.mem_cons, Ne.symm same, later, or_self, if_false,
            List.cons_append]

theorem IsRecord.setProperty {properties : List (JsString × JsValue)}
    (isRecord : IsRecord round properties) {name : JsString} (noIndex : ¬IsArrayIndex name)
    {value : JsValue} (kept : Kept round value) :
    IsRecord round (JsValue.setProperty properties name value) := by
  refine ⟨?_, ?_, ?_⟩
  · rw [names_setProperty]
    split_ifs with present
    · exact isRecord.distinct
    · rw [List.nodup_append]
      refine ⟨isRecord.distinct, List.nodup_singleton _, ?_⟩
      rintro first isFirst _ isName rfl
      exact present (List.mem_singleton.mp isName ▸ isFirst)
  · intro found isName
    rw [names_setProperty] at isName
    split_ifs at isName
    · exact isRecord.noIndex found isName
    · rcases List.mem_append.mp isName with old | new
      · exact isRecord.noIndex found old
      · rwa [List.mem_singleton.mp new]
  · intro property isProperty
    rcases mem_of_mem_setProperty isProperty with old | rfl
    · exact isRecord.kept property old
    · exact kept

/-- The properties that a receipt can have, in the order in which `createReceipt` sets them. -/
def Receipt.fields (receipt : Receipt) : List (JsString × Field) :=
  [(js "receipt_version", receipt.receiptVersion), (js "role", receipt.role),
    (js "runtime", receipt.runtime), (js "issue_id", receipt.issueId),
    (js "attempt_id", receipt.attemptId), (js "authorization_ref", receipt.authorizationRef),
    (js "episode_id", receipt.episodeId), (js "activation_digest", receipt.activationDigest),
    (js "review_findings", receipt.reviewFindings), (js "review_base_sha", receipt.reviewBaseSha),
    (js "stage", receipt.stage), (js "requested_worker", receipt.requestedWorker),
    (js "worker_identity", receipt.workerIdentity), (js "repo", receipt.repo),
    (js "branch", receipt.branch), (js "target_sha", receipt.targetSha),
    (js "workspace_scope", receipt.workspaceScope), (js "scope_phase", receipt.scopePhase),
    (js "allowed_paths", receipt.allowedPaths), (js "scoped_base_sha", receipt.scopedBaseSha),
    (js "external_run_id", receipt.externalRunId), (js "adapter_status", receipt.adapterStatus),
    (js "timestamps", receipt.timestamps), (js "evidence_links", receipt.evidenceLinks),
    (js "last_activity", receipt.lastActivity), (js "notes", receipt.notes),
    (js "verdict_stage", receipt.verdictStage), (js "result_sha", receipt.resultSha),
    (js "error_code", receipt.errorCode), (js "stop_reason_code", receipt.stopReasonCode),
    (js "handoff", receipt.handoff)]

def RECEIPT_FIELDS : List JsString :=
  [js "receipt_version", js "role", js "runtime", js "issue_id", js "attempt_id",
    js "authorization_ref", js "episode_id", js "activation_digest", js "review_findings",
    js "review_base_sha", js "stage", js "requested_worker", js "worker_identity", js "repo",
    js "branch", js "target_sha", js "workspace_scope", js "scope_phase", js "allowed_paths",
    js "scoped_base_sha", js "external_run_id", js "adapter_status", js "timestamps",
    js "evidence_links", js "last_activity", js "notes", js "verdict_stage", js "result_sha",
    js "error_code", js "stop_reason_code", js "handoff"]

theorem Receipt.names_fields (receipt : Receipt) :
    receipt.fields.map Prod.fst = RECEIPT_FIELDS := rfl

def Receipt.entries (receipt : Receipt) : List (JsString × JsValue) :=
  receipt.fields.filterMap fun field => field.2.map fun value => (field.1, value)

def Receipt.toValue (receipt : Receipt) : JsValue := .object receipt.entries

/-- What is added to a receipt after it has been created. -/
inductive Addition
  | notes (texts : List JsString)
  | links (texts : List JsString)
  | findings (value : JsValue)

/-- `{ ...receipt, notes: [...receipt.notes, ...texts] }` and so on. -/
def Addition.apply (receipt : JsValue) : Addition → JsValue
  | notes texts => receipt.assign [(js "notes",
      .array (((receipt.get (js "notes")).items?.getD []) ++ texts.map .string))]
  | links texts => receipt.assign [(js "evidence_links",
      .array (((receipt.get (js "evidence_links")).items?.getD []) ++ texts.map .string))]
  | findings value => receipt.assign [(js "review_findings", value)]

theorem names_entries_sublist (fields : List (JsString × Field)) :
    ((fields.filterMap fun field => field.2.map fun value => (field.1, value)).map Prod.fst).Sublist
      (fields.map Prod.fst) := by
  induction fields with
  | nil => exact .slnil
  | cons field rest ih =>
      rcases field with ⟨name, value⟩
      cases value with
      | none => exact ih.cons _
      | some value => exact ih.cons_cons _

def KeptField (round : FiniteNumber → JsNumber) (field : Field) : Prop :=
  ∀ value, field = some value → Kept round value

theorem KeptField.some {value : JsValue} (kept : Kept round value) :
    KeptField round (some value) := by
  rintro _ same
  cases same
  exact kept

theorem KeptField.none : KeptField round none := by
  rintro _ same
  cases same

theorem KeptField.ite {condition : Prop} [Decidable condition] {field other : Field}
    (kept : condition → KeptField round field) (keptOther : ¬condition → KeptField round other) :
    KeptField round (if condition then field else other) := by
  split_ifs with holds
  · exact kept holds
  · exact keptOther holds

theorem get_entries {fields : List (JsString × Field)} (distinct : (fields.map Prod.fst).Nodup)
    {name : JsString} {value : JsValue} (isField : (name, some value) ∈ fields) :
    (JsValue.object (fields.filterMap fun field =>
      field.2.map fun value => (field.1, value))).get name = value := by
  induction fields with
  | nil => cases isField
  | cons field rest ih =>
      rcases field with ⟨first, found⟩
      rw [List.map_cons, List.nodup_cons] at distinct
      rcases List.mem_cons.mp isField with same | later
      · cases same
        simp only [List.filterMap_cons, Option.map_some, JsValue.get_cons, if_true]
      · have different : first ≠ name := by
          rintro rfl
          exact distinct.1 (List.mem_map.mpr ⟨_, later, rfl⟩)
        cases found with
        | none => simpa using ih distinct.2 later
        | some _ =>
            simp only [List.filterMap_cons, Option.map_some, JsValue.get_cons, different, if_false]
            exact ih distinct.2 later

theorem isRecord_entries {receipt : Receipt}
    (kept : ∀ field ∈ receipt.fields, KeptField round field.2) :
    IsRecord round receipt.entries := by
  have sublist := names_entries_sublist receipt.fields
  rw [receipt.names_fields] at sublist
  refine ⟨sublist.nodup (by decide), fun name isName => ?_, fun property isProperty => ?_⟩
  · have noIndex : ∀ name ∈ RECEIPT_FIELDS, ¬IsArrayIndex name := by decide
    exact noIndex name (sublist.mem isName)
  · rcases List.mem_filterMap.mp isProperty with ⟨field, isField, isValue⟩
    rcases Option.map_eq_some_iff.mp isValue with ⟨value, present, rfl⟩
    exact kept field isField value present

/-- The values of a reservation that the validation does not check to be texts are values of JSON,
and an attempt id that is no text opens no block of code in the heading. -/
structure Reservation.Carried (round : FiniteNumber → JsNumber) (given : Reservation) : Prop where
  attemptId : Kept round given.attemptId
  heading : isString given.attemptId = false →
    ¬openingFence <:+: template given.attemptId ++ js "\n"
  targetSha : Kept round given.targetSha
  episodeId : Kept round given.episodeId
  activationDigest : Kept round given.activationDigest
  reviewFindings : Kept round given.reviewFindings
  reviewBaseSha : Kept round given.reviewBaseSha
  scopedBaseSha : Kept round given.workspace.scopedBaseSha

theorem kept_of_isString {value : JsValue} (isText : isString value = true) : Kept round value := by
  cases value with
  | string text => exact Kept.string text
  | _ => cases isText

theorem isString_of_authority {receipt : Receipt} {authority : Authority}
    (resolved : resolveReceiptRoleAuthority receipt = .ok authority)
    (version : receipt.receiptVersion.value = .string (js "1.1.0")) :
    isString receipt.role.value = true ∧ isString receipt.runtime.value = true := by
  have given : receipt.receiptVersion.value.orElse (.string (js "1.0.0")) = .string (js "1.1.0") := by
    rw [version]
    rfl
  unfold resolveReceiptRoleAuthority at resolved
  split at resolved
  · cases resolved
  · rw [given] at resolved
    simp only at resolved
    rw [if_neg (by decide), if_neg (by decide)] at resolved
    split at resolved
    · cases resolved
    · split at resolved
      · cases resolved
      · cases resolved
      · rename_i role runtime isRole isRuntime
        rw [Role.eq_of_ofValue isRole, Runtime.eq_of_ofValue isRuntime]
        exact ⟨rfl, rfl⟩

variable {host : CoordinatorHost} {given : Reservation}

theorem kept_of_scopeErrors {receipt : Receipt} (accepted : scopeErrors receipt = [])
    (present : receipt.workspaceScope.isSome = true ∧ receipt.scopePhase.isSome = true ∧
      receipt.allowedPaths.isSome = true ∧ receipt.scopedBaseSha.isSome = true) :
    Kept round receipt.workspaceScope.value ∧ Kept round receipt.scopePhase.value ∧
      Kept round receipt.allowedPaths.value := by
  simp only [scopeErrors, List.any_cons, List.all_cons, present, Bool.true_or, if_true, List.all_nil,
    Bool.and_self] at accepted
  split at accepted
  case h_2 => cases accepted
  case h_1 paths arePaths =>
    split_ifs at accepted with texts
    split at accepted
    case h_2 => cases accepted
    case h_1 checked =>
      rcases validateWorkspaceScope_texts checked with ⟨⟨scope, isScope⟩, phase, isPhase⟩
      simp only [Receipt.workspace] at isScope isPhase
      rw [isScope, isPhase, arePaths]
      refine ⟨Kept.string scope, Kept.string phase, Kept.array fun path isPath => ?_⟩
      exact kept_of_isString (List.all_eq_true.mp texts path isPath)

theorem eq_of_createReceipt {receipt : Receipt} (created : createReceipt host given = .ok receipt) :
    receipt = reservedReceipt host given ∧ receipt.Valid := by
  rw [createReceipt] at created
  split at created
  case isFalse => cases created
  case isTrue valid =>
    cases created
    exact ⟨rfl, List.isEmpty_iff.mp valid⟩

theorem bindingErrors_of_valid {receipt : Receipt} (valid : receipt.Valid) :
    bindingErrors receipt = [] ∧ isString receipt.lastActivity.value = true := by
  rw [Receipt.Valid, validateReceipt] at valid
  split at valid
  case isFalse missing =>
    rw [valid] at missing
    exact absurd rfl missing
  case isTrue =>
    simp only [List.append_eq_nil_iff, expect_eq_nil] at valid
    exact ⟨valid.1.1.1.1.1.1.1.1, valid.1.1.1.1.1.1.2⟩

theorem kept_texts_of_createReceipt {receipt : Receipt}
    (created : createReceipt host given = .ok receipt) :
    Kept round given.issueId ∧ Kept round given.authorizationRef ∧
      Kept round given.requestedWorker ∧ Kept round given.repo ∧ Kept round given.branch ∧
      Kept round given.reservedAt := by
  rcases eq_of_createReceipt created with ⟨rfl, valid⟩
  rcases bindingErrors_of_valid valid with ⟨binding, activity⟩
  simp only [bindingErrors, List.append_eq_nil_iff, expect_eq_nil] at binding
  rcases binding with ⟨⟨⟨⟨⟨⟨⟨⟨⟨⟨⟨⟨-, -⟩, -⟩, issue⟩, -⟩, authorization⟩, -⟩, worker⟩, repo⟩, branch⟩, -⟩, -⟩, -⟩
  rcases Option.isSome_iff_exists.mp worker with ⟨lane, isLane⟩
  have isText : given.requestedWorker = .string lane.text := Lane.eq_of_ofValue isLane
  rw [isText]
  exact ⟨kept_of_isString issue, kept_of_isString authorization, Kept.string _,
    kept_of_isString repo, kept_of_isString branch, kept_of_isString activity⟩

theorem kept_authority_of_createReceipt {receipt : Receipt}
    (created : createReceipt host given = .ok receipt)
    (version : given.receiptVersion = js "1.1.0") :
    Kept round given.role ∧ Kept round given.runtime := by
  rcases eq_of_createReceipt created with ⟨rfl, valid⟩
  have binding := (bindingErrors_of_valid valid).1
  simp only [bindingErrors, List.append_eq_nil_iff] at binding
  have accepts := binding.1.1.1.1.1.1.1.1.1.1.2
  cases resolved : resolveReceiptRoleAuthority (reservedReceipt host given) with
  | error refusal =>
      rw [resolved] at accepts
      cases accepts
  | ok authority =>
      have isNew : (reservedReceipt host given).receiptVersion.value = .string (js "1.1.0") :=
        congrArg JsValue.string version
      have texts := isString_of_authority resolved isNew
      simp only [reservedReceipt, version, if_true] at texts
      exact ⟨kept_of_isString texts.1, kept_of_isString texts.2⟩

theorem kept_scope_of_createReceipt {receipt : Receipt}
    (created : createReceipt host given = .ok receipt) :
    Kept round given.workspace.workspaceScope ∧ Kept round given.workspace.scopePhase ∧
      Kept round given.workspace.allowedPaths := by
  rcases eq_of_createReceipt created with ⟨rfl, valid⟩
  have binding := (bindingErrors_of_valid valid).1
  simp only [bindingErrors, List.append_eq_nil_iff] at binding
  exact kept_of_scopeErrors binding.1.2 ⟨rfl, rfl, rfl, rfl⟩

theorem kept_of_createReceipt {receipt : Receipt} (carried : given.Carried round)
    (created : createReceipt host given = .ok receipt) :
    ∀ field ∈ receipt.fields, KeptField round field.2 := by
  rcases kept_texts_of_createReceipt created with
    ⟨issue, authorization, worker, repo, branch, activity⟩
  rcases kept_scope_of_createReceipt created with ⟨scope, phase, paths⟩
  have authority : given.receiptVersion = js "1.1.0" →
      Kept round given.role ∧ Kept round given.runtime :=
    kept_authority_of_createReceipt created
  have times : Kept round (.object [(js "reserved", given.reservedAt), (js "launch", .null),
      (js "heartbeat", .null), (js "terminal", .null)]) := by
    have distinct : TIMESTAMPS.Nodup := by decide
    have noIndex : ∀ name ∈ TIMESTAMPS, ¬IsArrayIndex name := by decide
    refine Kept.object distinct noIndex ?_
    simp only [List.forall_mem_cons]
    exact ⟨activity, Kept.null, Kept.null, Kept.null, by simp⟩
  have noLinks : Kept round (.array []) := Kept.array (by simp)
  have note : Kept round
      (.array [.string (js "reserved (attempt " ++ template given.attemptId ++ js ")")]) := by
    apply Kept.array
    simp only [List.forall_mem_singleton]
    exact Kept.string _
  rcases eq_of_createReceipt created with ⟨rfl, -⟩
  simp only [Receipt.fields, reservedReceipt, List.forall_mem_cons]
  refine ⟨KeptField.some (Kept.string _), KeptField.ite (fun isNew => KeptField.some (authority isNew).1)
      fun _ => KeptField.none, KeptField.ite (fun isNew => KeptField.some (authority isNew).2)
      fun _ => KeptField.none, KeptField.some issue, KeptField.some carried.attemptId,
    KeptField.some authorization, KeptField.some carried.episodeId,
    KeptField.ite (fun _ => KeptField.some carried.activationDigest) fun _ => KeptField.none,
    KeptField.ite (fun _ => KeptField.some carried.reviewFindings) fun _ => KeptField.none,
    KeptField.ite (fun _ => KeptField.none) fun _ => KeptField.some carried.reviewBaseSha,
    KeptField.some (Kept.string _), KeptField.some worker, KeptField.some Kept.null,
    KeptField.some repo, KeptField.some branch, KeptField.some carried.targetSha,
    KeptField.some scope, KeptField.some phase, KeptField.some paths,
    KeptField.some carried.scopedBaseSha, KeptField.some Kept.null, KeptField.some Kept.null,
    KeptField.some times, KeptField.some noLinks, KeptField.some activity, KeptField.some note,
    KeptField.none, KeptField.none, KeptField.none, KeptField.none, KeptField.none, by simp⟩

theorem IsRecord.items {properties : List (JsString × JsValue)}
    (isRecord : IsRecord round properties) (name : JsString) :
    ∀ item ∈ ((JsValue.object properties).get name).items?.getD [], Kept round item := by
  cases value : (JsValue.object properties).get name with
  | array items =>
      have present : (JsValue.object properties).hasOwn name = true := by
        by_contra absent
        rw [JsValue.get_of_not_hasOwn (Bool.not_eq_true _ ▸ absent)] at value
        cases value
      have kept := isRecord.kept _ (JsValue.exists_entry_get present)
      rw [value] at kept
      exact kept.items
  | _ => simp [JsValue.items?]

def Addition.Carried (round : FiniteNumber → JsNumber) : Addition → Prop
  | notes _ | links _ => True
  | findings value => Kept round value

theorem Addition.apply_eq {properties : List (JsString × JsValue)}
    (isRecord : IsRecord round properties) {addition : Addition} (carried : addition.Carried round) :
    ∃ name value, ¬IsArrayIndex name ∧ name ≠ js "attempt_id" ∧ Kept round value ∧
      addition.apply (.object properties) = .object (JsValue.setProperty properties name value) := by
  have texts : ∀ (name : JsString) (added : List JsString), Kept round
      (.array (((JsValue.object properties).get name).items?.getD [] ++ added.map .string)) := by
    intro name added
    apply Kept.array
    intro item isItem
    rcases List.mem_append.mp isItem with old | new
    · exact isRecord.items name item old
    · rcases List.mem_map.mp new with ⟨text, -, rfl⟩
      exact Kept.string text
  cases addition with
  | notes added => exact ⟨js "notes", _, by decide, by decide, texts (js "notes") added, rfl⟩
  | links added =>
      exact ⟨js "evidence_links", _, by decide, by decide, texts (js "evidence_links") added, rfl⟩
  | findings value => exact ⟨js "review_findings", value, by decide, by decide, carried, rfl⟩

theorem exists_isRecord_of_additions {properties : List (JsString × JsValue)}
    (isRecord : IsRecord round properties) {additions : List Addition}
    (carried : ∀ addition ∈ additions, addition.Carried round) :
    ∃ written, IsRecord round written ∧
      additions.foldl Addition.apply (.object properties) = .object written ∧
      (JsValue.object written).get (js "attempt_id") =
        (JsValue.object properties).get (js "attempt_id") := by
  induction additions generalizing properties with
  | nil => exact ⟨properties, isRecord, rfl, rfl⟩
  | cons addition rest ih =>
      rw [List.forall_mem_cons] at carried
      rcases Addition.apply_eq isRecord carried.1 with ⟨name, value, noIndex, other, kept, applied⟩
      rcases ih (isRecord.setProperty noIndex kept) carried.2 with ⟨written, isWritten, adds, same⟩
      refine ⟨written, isWritten, ?_, ?_⟩
      · rw [List.foldl_cons, applied, adds]
      · rw [same, JsValue.get_setProperty, if_neg other]

theorem not_openingFence_of_isUuid {text : JsString} (isId : isUuid text = true) :
    ¬openingFence <:+: text ++ js "\n" := by
  intro isInfix
  have isFence : (96 : UInt16) ∈ text ++ js "\n" := isInfix.subset (by decide)
  rcases List.mem_append.mp isFence with inText | isLine
  · rcases mem_of_matchesClasses isId inText with ⟨fits, isClass, holds⟩
    have none : ∀ fits ∈ (List.replicate 4 isLowerHex ++ [fun unit : UInt16 => decide (unit = 45)]),
        fits 96 = false := by
      simp [List.replicate, isLowerHex, isDigit]
    have isOne : fits ∈ (List.replicate 4 isLowerHex ++ [fun unit : UInt16 => decide (unit = 45)]) := by
      grind
    rw [none fits isOne] at holds
    cases holds
  · revert isLine
    decide

theorem not_openingFence_of_createReceipt {receipt : Receipt} (carried : given.Carried round)
    (created : createReceipt host given = .ok receipt) :
    ¬openingFence <:+: template given.attemptId ++ js "\n" := by
  cases isText : isString given.attemptId with
  | false => exact carried.heading isText
  | true =>
      cases attempt : given.attemptId with
      | string text =>
          rcases eq_of_createReceipt created with ⟨rfl, valid⟩
          have binding := (bindingErrors_of_valid valid).1
          simp only [bindingErrors, List.append_eq_nil_iff, expect_eq_nil] at binding
          have isId := binding.1.1.1.1.1.1.1.1.2
          simp only [reservedReceipt, Field.value, Option.getD_some, attempt, fitsPattern] at isId
          exact not_openingFence_of_isUuid isId
      | _ =>
          rw [attempt] at isText
          cases isText

theorem parseReceiptCommentBody_createReceipt {receipt : Receipt} (carried : given.Carried round)
    (created : createReceipt host given = .ok receipt) {additions : List Addition}
    (added : ∀ addition ∈ additions, addition.Carried round) :
    parseReceiptCommentBody round
      (.string (receiptCommentBody (additions.foldl Addition.apply receipt.toValue))) =
        additions.foldl Addition.apply receipt.toValue := by
  have isRecord := isRecord_entries (kept_of_createReceipt carried created)
  have heading := not_openingFence_of_createReceipt carried created
  rcases exists_isRecord_of_additions isRecord added with ⟨written, isWritten, adds, same⟩
  have attempt : (JsValue.object receipt.entries).get (js "attempt_id") = given.attemptId := by
    rcases eq_of_createReceipt created with ⟨rfl, -⟩
    have distinct : RECEIPT_FIELDS.Nodup := by decide
    apply @get_entries (reservedReceipt host given).fields distinct
    simp [Receipt.fields, reservedReceipt]
  rw [Receipt.toValue, adds]
  apply parseReceiptCommentBody_eq (Kept.object isWritten.distinct isWritten.noIndex isWritten.kept)
  rw [same, attempt]
  exact heading

def buildReservation (targetSha : JsValue) : Reservation where
  issueId := .string (js "SHU-1")
  authorizationRef := .string (js "SHU-1")
  requestedWorker := .string Lane.codexBuilder.text
  repo := .string (js "studenthub")
  branch := .string (js "card/shu-1")
  targetSha := targetSha
  role := .undefined
  runtime := .undefined
  workspace := {
    workspaceScope := .string (js "full")
    scopePhase := .string (js "initial")
    allowedPaths := .array []
    scopedBaseSha := .null }
  attemptId := .string (sampleAttempt 49)
  reservedAt := .string (js "2026-07-01T10:00:00.000Z")

def builtReceipt : Receipt :=
  reservedReceipt plainHost (buildReservation (.string (sampleSha 97)))

def receiptComment (minute : JsString) (forged : Bool) (additions : List Addition) : Comment where
  createdAt := .string (js "2026-07-01T10:" ++ minute ++ js ":00.000Z")
  userId := .string (js "coordinator")
  body := .string (receiptCommentBody (additions.foldl Addition.apply (if forged then
    (reservedReceipt plainHost (buildReservation (.string (sampleSha 98)))).toValue
  else builtReceipt.toValue)))

def fencedNote : Addition := .notes [js "see\n```json\n\x7b\x7d\n```\n"]

end StudentHub.Coordinator
