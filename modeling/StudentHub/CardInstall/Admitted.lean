import StudentHub.CardInstall.Gate

/-!
# What the gate of self installs admits

The two exits of the gate, a queue and code alone, share the checks of the changes, of the
configuration and of the review. Each check has a lemma about what it lets through; an
admitted install has passed them all.
-/

namespace StudentHub.CardInstall

open Ecma JsString Coordinator

theorem bind_eq_ok {Error Value Value' : Type} {first : Except Error Value}
    {rest : Value → Except Error Value'} {value' : Value'} :
    (first >>= rest) = .ok value' ↔ ∃ value, first = .ok value ∧ rest value = .ok value' := by
  cases first with
  | ok value => simp [bind, Except.bind]
  | error error => simp [bind, Except.bind]

@[simp]
theorem expect_eq_ok {check : Bool} {refusal : Refusal} {done : Unit} :
    expect check refusal = .ok done ↔ check = true := by
  cases check <;> simp [expect]

@[simp]
theorem pass_eq_ok {refusal : Option Refusal} {done : Unit} :
    pass refusal = .ok done ↔ refusal = none := by
  cases refusal <;> simp [pass]

theorem eq_true_of_strictEq {value : JsValue} (isTrue : value.strictEq (.boolean true) = true) :
    value = .boolean true := by
  cases value with
  | boolean value => simpa [JsValue.strictEq] using isTrue
  | _ => simp [JsValue.strictEq] at isTrue

/-- A path under the coordinator's directory without empty parts and without `.` and `..`. -/
structure CoordinatorPath (path : JsString) : Prop where
  inside : COORDINATOR <+: path
  normalized : ∀ part ∈ pathParts path, part ≠ [] ∧ part ≠ js "." ∧ part ≠ js ".."

theorem coordinatorFile_iff {file : JsValue} :
    coordinatorFile file = true ↔ ∃ path, file = .string path ∧ CoordinatorPath path := by
  cases file with
  | string path =>
      have parts : (¬∃ part ∈ pathParts path, (part = [] ∨ part = js ".") ∨ part = js "..") ↔
          ∀ part ∈ pathParts path, part ≠ [] ∧ part ≠ js "." ∧ part ≠ js ".." := by
        simp only [not_exists, not_and, not_or, and_assoc, ne_eq]
      simp only [coordinatorFile, Bool.and_eq_true, List.isPrefixOf_iff_prefix,
        Bool.not_eq_true', ← Bool.not_eq_true, List.any_eq_true, Bool.or_eq_true,
        decide_eq_true_eq, parts, JsValue.string.injEq, exists_eq_left']
      exact ⟨fun both => ⟨both.1, both.2⟩, fun within => ⟨within.inside, within.normalized⟩⟩
  | _ => simp [coordinatorFile]

theorem coordinatorFile_of_installablePath {file : JsValue}
    (installable : installablePath file = true) : coordinatorFile file = true := by
  cases file with
  | string path =>
      rw [installablePath] at installable
      split at installable
      case isTrue => cases installable
      case isFalse inside =>
        split at installable
        case isTrue => cases installable
        case isFalse normalized =>
          simp only [Bool.or_eq_true, not_or, Bool.not_eq_true', Bool.not_eq_false] at inside
          simp only [coordinatorFile, inside.1, Bool.true_and, Bool.not_eq_true']
          simpa only [Bool.not_eq_true] using normalized
  | _ => simp [installablePath] at installable

structure AdmittedChange (policy : Option CodeInstallPolicy) (change : JsValue) : Prop where
  path : ∃ path, pathOf change = .string path ∧ CoordinatorPath path
  notOwnerOnly : ownerOnlyPath (pathOf change) = false
  addedOrEdited : change.get (js "status") = .string (js "A") ∨
    change.get (js "status") = .string (js "M")
  installable : policy = none → installablePath (pathOf change) = true

theorem AdmittedChange.of_changeRefusal {policy : Option CodeInstallPolicy} {change : JsValue}
    (passes : changeRefusal policy change = none) : AdmittedChange policy change := by
  simp only [changeRefusal] at passes
  split at passes
  case isTrue => cases passes
  case isFalse queued =>
    split at passes
    case isTrue => cases passes
    case isFalse inside =>
      split at passes
      case isTrue => cases passes
      case isFalse notOwnerOnly =>
        split at passes
        case isTrue => cases passes
        case isFalse status =>
          simp only [Bool.and_eq_true, Bool.not_eq_true', Option.isNone_iff_eq_none, not_and',
            Bool.not_eq_false] at queued inside status
          refine ⟨?_, by simpa using notOwnerOnly, ?_, queued⟩
          · rw [← coordinatorFile_iff]
            by_cases within : coordinatorFile (pathOf change) = true
            · exact within
            · apply coordinatorFile_of_installablePath
              exact inside (by simpa using within)
          · by_cases added : (change.get (js "status")).isText (js "A") = true
            · exact Or.inl (JsValue.isText_iff.mp added)
            · right
              apply JsValue.isText_iff.mp
              by_contra edited
              simp only [Bool.not_eq_true] at added edited
              exact absurd (status edited) (by simp [added])

structure KeepsCards (before after : ContractData) : Prop where
  reviewOnly : before.reviewOnly.isDeepStrictEqual after.reviewOnly = true
  writerFinishRule : before.writerFinishRule = after.writerFinishRule
  cards : ∀ entry ∈ before.cards, (JsValue.object after.cards).hasOwn entry.1 = true ∧
    entry.2.isDeepStrictEqual ((JsValue.object after.cards).get entry.1) = true

theorem keptRefusal_eq_none {after : ContractData} {entry : JsString × JsValue} :
    keptRefusal after entry = none ↔ (JsValue.object after.cards).hasOwn entry.1 = true ∧
      entry.2.isDeepStrictEqual ((JsValue.object after.cards).get entry.1) = true := by
  simp only [keptRefusal]
  split
  case isTrue removed =>
    have absent : (JsValue.object after.cards).hasOwn entry.1 = false := by simpa using removed
    simp [absent]
  case isFalse present =>
    have kept : (JsValue.object after.cards).hasOwn entry.1 = true := by simpa using present
    simp [kept]

section Round

variable {round : FiniteNumber → JsNumber}

/-- Nothing is refused of two files of contracts: both are contracts, the one keeps the cards of
the other, and the checks of new cards hold. -/
theorem contractChangeRefusal_eq_none {installedText mainText : JsValue} :
    contractChangeRefusal round installedText mainText = none ↔ ∃ before after,
      contractData round installedText = some before ∧ contractData round mainText = some after ∧
        KeepsCards before after ∧ ∀ entry ∈ after.cards, addedRefusal before after entry = none := by
  simp only [contractChangeRefusal]
  split
  case h_2 unread =>
    refine ⟨(by intro refused; cases refused), ?_⟩
    rintro ⟨before, after, isBefore, isAfter, -⟩
    exact absurd isAfter (unread before after isBefore)
  case h_1 before after isBefore isAfter =>
    simp only [isBefore, isAfter, Option.some.injEq, exists_and_left, exists_eq_left']
    split
    case isTrue changed =>
      refine ⟨(by intro refused; cases refused), fun kept => ?_⟩
      simp [kept.1.reviewOnly] at changed
    case isFalse reviewOnly =>
      split
      case isTrue changed =>
        exact ⟨(by intro refused; cases refused),
          fun kept => absurd kept.1.writerFinishRule changed⟩
      case isFalse finishRule =>
        simp only [Option.or_eq_none_iff, List.findSome?_eq_none_iff, keptRefusal_eq_none]
        simp only [Bool.not_eq_true', Bool.not_eq_false, ne_eq, not_not] at reviewOnly finishRule
        exact ⟨fun both => ⟨⟨reviewOnly, finishRule, both.1⟩, both.2⟩,
          fun kept => ⟨kept.1.cards, kept.2⟩⟩

theorem keepsCards_of_contractsRefusal {facts change : JsValue} {changes : List JsValue}
    (passes : contractsRefusal round facts changes = none) (changeMem : change ∈ changes)
    (isContracts : pathOf change = .string CONTRACTS_PATH) :
    contractChangeRefusal round ((facts.get (js "contractTexts")).get (js "installed"))
      ((facts.get (js "contractTexts")).get (js "main")) = none := by
  simp only [contractsRefusal] at passes
  split at passes
  case h_1 absent =>
    have other := List.find?_eq_none.mp absent change changeMem
    rw [isContracts] at other
    simp [JsValue.isText] at other
  case h_2 contracts found =>
    split at passes
    case isTrue edited => simpa using passes
    case isFalse => cases passes

def MayChange (next : JsValue) (policy : Option CodeInstallPolicy) (key : JsString) : Prop :=
  key = js "dispatch_scope" ∨ key = js "card_lanes" ∨
    key = js "workers" ∧ policy ≠ none ∧ workersSetting (next.get (js "workers")) = true

theorem kept_of_configRefusal {installed next : JsValue} {policy : Option CodeInstallPolicy}
    {key : JsString} (passes : configRefusal installed next policy = none)
    (present : installed.hasOwn key = true ∨ next.hasOwn key = true)
    (kept : ¬MayChange next policy key) : installed.hasOwn key = true ∧ next.hasOwn key = true ∧
      (installed.get key).isDeepStrictEqual (next.get key) = true := by
  simp only [MayChange, not_or, not_and] at kept
  have keyMem : key ∈ keysOf installed ++ keysOf next := by
    simp only [JsValue.hasOwn, decide_eq_true_eq] at present
    simpa [keysOf] using present
  have passed := List.findSome?_eq_none_iff.mp passes key keyMem
  simp only [keyRefusal, kept.1, kept.2.1, decide_false, Bool.false_or, Bool.false_eq_true,
    if_false] at passed
  split at passed
  case isTrue workers =>
    simp only [Bool.and_eq_true, decide_eq_true_eq, Option.isSome_iff_ne_none] at workers
    exact absurd workers.2 (kept.2.2 workers.1.1 workers.1.2)
  case isFalse =>
    split at passed
    case isTrue same => simpa only [Bool.and_eq_true, and_assoc] using same
    case isFalse => cases passed

structure LanesKept (installed next : JsValue) (before appended : List JsValue) : Prop where
  installed : installed.get (js "card_lanes") = .array before
  main : ∃ kept, next.get (js "card_lanes") = .array (kept ++ appended) ∧
    List.Forall₂ (fun lane same => lane.isDeepStrictEqual same = true) before kept

theorem forall₂_of_keepsLanes {before after : List JsValue} (enough : before.length ≤ after.length)
    (keeps : keepsLanes before after = true) :
    List.Forall₂ (fun lane same => lane.isDeepStrictEqual same = true) before
      (after.take before.length) := by
  rw [List.forall₂_iff_get]
  refine ⟨by simp [enough], ?_⟩
  intro index inBefore inTaken
  have inAfter : index < after.length := lt_of_lt_of_le inBefore enough
  have same := List.all_eq_true.mp keeps (before.get ⟨index, inBefore⟩, index)
    (List.mem_zipIdx_iff_getElem?.mpr (by simp [inBefore]))
  simpa [List.getD_eq_getElem?_getD, inAfter] using same

theorem lanesKept_of_appendedLanes {installed next : JsValue} {more : ℕ}
    {lanes : List JsValue × List JsValue} (appended : appendedLanes installed next more = .ok lanes) :
    LanesKept installed next lanes.1 (lanes.2.drop lanes.1.length) ∧
      lanes.1.length + more ≤ lanes.2.length ∧ next.get (js "card_lanes") = .array lanes.2 := by
  simp only [appendedLanes] at appended
  split at appended
  case h_2 => cases appended
  case h_1 before after isBefore isAfter =>
    split at appended
    case isFalse => cases appended
    case isTrue both =>
      simp only [Bool.and_eq_true, decide_eq_true_eq] at both
      injection appended with same
      subst same
      refine ⟨⟨isBefore, after.take before.length, ?_, ?_⟩, both.1, isAfter⟩
      · rw [List.take_append_drop]
        exact isAfter
      · exact forall₂_of_keepsLanes ((Nat.le_add_right _ _).trans both.1) both.2

/-- One review that passed has recorded every changed blob, and the checks are green. -/
structure Reviewed (facts : JsValue) (changes code : List JsValue)
    (policy : Option CodeInstallPolicy) (review : JsValue) : Prop where
  passed : review ∈ passesOf facts
  blobs : ∀ change ∈ changes,
    isSha ((entryOf (facts.get (js "blobs")) (pathOf change)).orElse (.string [])) = true
  recorded : ∀ change ∈ changes,
    ((entryOf (review.get (js "files")) (pathOf change)).get (js "sha")).strictEq
      (entryOf (facts.get (js "blobs")) (pathOf change)) = true
  approved : ∀ approvers, policy = some ⟨.githubReview, approvers⟩ → code ≠ [] →
    readAt facts review = true ∧
      (facts.get (js "approval")).get (js "approved") = .boolean true
  green : (facts.get (js "checks")).get (js "green") = .boolean true
  notRed : ∀ first rest, (facts.get (js "checks")).get (js "red") ≠ .array (first :: rest)

theorem checksRefusal_eq_none {facts : JsValue} (passes : checksRefusal facts = none) :
    (facts.get (js "checks")).get (js "green") = .boolean true ∧
      ∀ first rest, (facts.get (js "checks")).get (js "red") ≠ .array (first :: rest) := by
  simp only [checksRefusal] at passes
  split at passes
  case h_1 => cases passes
  case h_2 notRed =>
    split at passes
    case isTrue green => exact ⟨eq_true_of_strictEq green, notRed⟩
    case isFalse => cases passes

theorem approved_of_approvalOf {facts review : JsValue} {code : List JsValue}
    {approvers : List JsString} {approval : Option Approval} (isCode : code ≠ [])
    (approved : approvalOf facts code (some ⟨.githubReview, approvers⟩) review = .ok approval) :
    readAt facts review = true ∧
      (facts.get (js "approval")).get (js "approved") = .boolean true := by
  simp only [approvalOf, if_neg isCode] at approved
  split at approved
  case isTrue => cases approved
  case isFalse isRead =>
    split at approved
    case isTrue => cases approved
    case isFalse isApproved =>
      exact ⟨by simpa using isRead, eq_true_of_strictEq (by simpa using isApproved)⟩

theorem reviewed_of_reviewedAndGreen {facts : JsValue} {changes code : List JsValue}
    {policy : Option CodeInstallPolicy} {approval : Option Approval}
    (passes : reviewedAndGreen facts changes code policy = .ok approval) :
    ∃ review, Reviewed facts changes code policy review := by
  simp only [reviewedAndGreen, bind_eq_ok, pass_eq_ok, exists_const] at passes
  rcases passes with ⟨blobs, passes⟩
  split at passes
  case h_1 => cases passes
  case h_2 review found =>
    simp only [bind_eq_ok, pass_eq_ok, exists_const] at passes
    rcases passes with ⟨approval, approved, checks, -⟩
    rcases checksRefusal_eq_none checks with ⟨green, notRed⟩
    refine ⟨review, List.mem_of_find?_eq_some found, ?_, ?_, ?_, green, notRed⟩
    · intro change changeMem
      have passed := List.findSome?_eq_none_iff.mp blobs change changeMem
      simp only [blobRefusal] at passed
      split at passed
      case isTrue isBlob => exact isBlob
      case isFalse => cases passed
    · have recorded := List.find?_some found
      exact fun change changeMem => List.all_eq_true.mp recorded change changeMem
    · intro approvers isPolicy isCode
      subst isPolicy
      exact approved_of_approvalOf isCode approved

/-- What holds of the facts that an install was admitted by, with the configurations, the
changes and the review among them. -/
structure Admitted (round : FiniteNumber → JsNumber) (facts installed next : JsValue)
    (changes : List JsValue) (review : JsValue) : Prop where
  isInstalled : installed = parse round ((facts.get (js "configs")).get (js "installed"))
  isNext : next = parse round ((facts.get (js "configs")).get (js "main"))
  isChanges : facts.get (js "changes") = .array changes
  descends : facts.get (js "descends") = .boolean true
  admitted : ∀ change ∈ changes, AdmittedChange (codeInstallPolicy installed) change
  contracts : ∀ change ∈ changes, pathOf change = .string CONTRACTS_PATH → ∃ before after,
    contractData round ((facts.get (js "contractTexts")).get (js "installed")) = some before ∧
      contractData round ((facts.get (js "contractTexts")).get (js "main")) = some after ∧
        KeepsCards before after
  kept : ∀ key, installed.hasOwn key = true ∨ next.hasOwn key = true →
    ¬MayChange next (codeInstallPolicy installed) key →
      installed.hasOwn key = true ∧ next.hasOwn key = true ∧
        (installed.get key).isDeepStrictEqual (next.get key) = true
  lanes : ∃ before appended, LanesKept installed next before appended
  reviewed : Reviewed facts changes
    (changes.filter fun change => !installablePath (pathOf change))
    (codeInstallPolicy installed) review

theorem exits_of_selfInstallGate {facts : JsValue} {admission : Admission}
    (admits : selfInstallGate round facts = .ok admission) :
    ∃ installed next changes, installed = parse round ((facts.get (js "configs")).get (js "installed")) ∧
      next = parse round ((facts.get (js "configs")).get (js "main")) ∧
      facts.get (js "changes") = .array changes ∧
      facts.get (js "descends") = .boolean true ∧
      changes.findSome? (changeRefusal (codeInstallPolicy installed)) = none ∧
      contractsRefusal round facts changes = none ∧
      configRefusal installed next (codeInstallPolicy installed) = none ∧
      let code := changes.filter fun change => !installablePath (pathOf change)
      (queueGate round facts installed next changes code (codeInstallPolicy installed) =
          .ok admission ∨
        (installed.get (js "dispatch_scope")).isDeepStrictEqual
            (next.get (js "dispatch_scope")) = true ∧
          (∃ lanes, appendedLanes installed next 0 = .ok lanes) ∧
          codeGate facts changes code (codeInstallPolicy installed) = .ok admission) := by
  simp only [selfInstallGate, bind_eq_ok, expect_eq_ok, pass_eq_ok, exists_const] at admits
  rcases admits with ⟨-, -, descends, -, -, -, someChange, changed, contracts, config, exits⟩
  have isArray : facts.get (js "changes") =
      .array (((facts.get (js "changes")).items?).getD []) := by
    cases isChanges : facts.get (js "changes") with
    | array changes => rfl
    | _ => simp [isChanges, JsValue.items?] at someChange
  refine ⟨_, _, _, rfl, rfl, isArray, eq_true_of_strictEq descends, changed, contracts, config, ?_⟩
  split at exits
  case isTrue => exact Or.inl exits
  case isFalse same =>
    simp only [bind_eq_ok] at exits
    rcases exits with ⟨lanes, isLanes, exits⟩
    exact Or.inr ⟨by simpa using same, ⟨lanes, isLanes⟩, exits⟩

theorem selfInstallGate_admitted {facts : JsValue} {admission : Admission}
    (admits : selfInstallGate round facts = .ok admission) :
    ∃ installed next changes review, Admitted round facts installed next changes review := by
  rcases exits_of_selfInstallGate admits with ⟨installed, next, changes, isInstalled, isNext,
    isChanges, descends, changed, contracts, config, exits⟩
  have shared : (∃ before appended, LanesKept installed next before appended) ∧ ∃ review,
      Reviewed facts changes (changes.filter fun change => !installablePath (pathOf change))
        (codeInstallPolicy installed) review := by
    rcases exits with queue | ⟨-, ⟨lanes, isLanes⟩, code⟩
    · simp only [queueGate, bind_eq_ok] at queue
      rcases queue with ⟨lanes, isLanes, -, -, approval, reviewed, -⟩
      exact ⟨⟨_, _, (lanesKept_of_appendedLanes isLanes).1⟩, reviewed_of_reviewedAndGreen reviewed⟩
    · simp only [codeGate, bind_eq_ok] at code
      rcases code with ⟨approval, reviewed, -⟩
      exact ⟨⟨_, _, (lanesKept_of_appendedLanes isLanes).1⟩, reviewed_of_reviewedAndGreen reviewed⟩
  rcases shared with ⟨lanes, review, reviewed⟩
  refine ⟨installed, next, changes, review, isInstalled, isNext, isChanges, descends, ?_, ?_, ?_,
    lanes, reviewed⟩
  · intro change changeMem
    exact .of_changeRefusal (List.findSome?_eq_none_iff.mp changed change changeMem)
  · intro change changeMem isContracts
    rcases contractChangeRefusal_eq_none.mp
      (keepsCards_of_contractsRefusal contracts changeMem isContracts) with
      ⟨before, after, isBefore, isAfter, kept, -⟩
    exact ⟨before, after, isBefore, isAfter, kept⟩
  · intro key present notChanged
    exact kept_of_configRefusal config present notChanged

end Round

def textOf (value : JsValue) : JsValue := .string ((Json.stringify value).getD [])

def laneOf (card : JsString) : JsValue := .object [(js "id", .string card)]

def queueConfig (queue : List JsString) : JsValue :=
  .object [
    (js "dispatch_scope", .object [(js "issue_ids", .array (queue.map .string))]),
    (js "card_lanes", .array (queue.map laneOf)),
    (CODE_SELF_INSTALL_KEY, .object [(js "approval", .string (js "github_review")),
      (js "approvers", .array [.string (js "owner")])])]

def plainContract : JsValue :=
  let paths : JsValue := .array [.string (js "src/a.ts")]
  .object [(js "initial_build_paths", paths), (js "revision_paths", paths),
    (js "acceptance", .string (js "done")), (js "brief", .string (js "do"))]

def contractsOf (cards : List JsString) : JsValue :=
  .object [(js "cards", .object (cards.map fun card => (card, plainContract))),
    (js "review_only", .object []), (js "writer_finish_rule", .string (js "finish"))]

/-- Main appends a card to the queue and edits coordinator code, all of it reviewed. -/
def appendingFacts : JsValue :=
  let before := [js "SHU-1", js "SHU-2"]
  let after := before ++ [js "SHU-3"]
  let paths := [CONFIG_PATH, CONTRACTS_PATH, js ".github/coordinator/service/card-land.mjs"]
  let blob : JsValue := .string (List.replicate 40 97)
  let texts (installed main : JsValue) : JsValue :=
    .object [(js "installed", textOf installed), (js "main", textOf main)]
  .object [
    (js "revision", .string (List.replicate 40 98)),
    (js "main", .string (List.replicate 40 99)),
    (js "descends", .boolean true),
    (js "configs", texts (queueConfig before) (queueConfig after)),
    (js "contractTexts", texts (contractsOf before) (contractsOf after)),
    (js "changes", .array (paths.map fun path =>
      .object [(js "status", .string (js "M")), (js "path", .string path)])),
    (js "blobs", .object (paths.map fun path => (path, blob))),
    (js "passes", .array [.object [
      (js "pr", .number (.ofNat 7)), (js "head", .string (List.replicate 40 100)),
      (js "files", .object (paths.map fun path => (path, .object [(js "sha", blob)])))]]),
    (js "approval", .object [(js "pr", .number (.ofNat 7)),
      (js "head", .string (List.replicate 40 100)), (js "approved", .boolean true),
      (js "by", .string (js "owner"))]),
    (js "checks", .object [(js "green", .boolean true)])]

theorem selfInstallGate_admitted_appending :
    ∃ installed next changes review,
      Admitted .finite appendingFacts installed next changes review := by
  have admits : (selfInstallGate .finite appendingFacts).toOption.isSome = true := by
    decide +kernel
  cases admission : selfInstallGate .finite appendingFacts with
  | ok found => exact selfInstallGate_admitted admission
  | error refusal => simp [admission, Except.toOption] at admits

end StudentHub.CardInstall
