import StudentHub.Coordinator.Receipts
import StudentHub.Ecma.Sorting

/-!
# Eligibility

Each card of the board is judged by itself: it is excluded for the first rule that it breaks,
or it is ready. Both lists are sorted, and the first ready card is dispatched. The comparator
of two ids is numeric if both are canonical and that of texts otherwise, so it is no order of
canonical and other ids together, and whether the lists depend on the order in which the
board was read is a question about the ids.

Where a property of a missing value is read the call throws, which is `none`.
-/

namespace StudentHub.Coordinator

open Ecma JsString

/-- `Number(digits)` of a decimal numeral, `2 ^ 1024` being `Infinity`. -/
def numberOf (digits : JsString) : ℕ := min (roundToDouble (numeral digits)) (2 ^ 1024)

/-- The number of `/^SHU-([0-9]+)$/`. -/
def identifierNumber (id : JsString) : Option ℕ :=
  let front := js "SHU-"
  if front.isPrefixOf id && front.length < id.length && (id.drop front.length).all isDigit then
    some (numberOf (id.drop front.length))
  else
    none

/-- Canonical ids are compared by their numbers, of which two infinite ones are not told apart. -/
def compareIdentifiers (left right : JsString) : Ordering :=
  match identifierNumber left, identifierNumber right with
  | some number, some number' => compare number number'
  | _, _ => if left < right then .lt else if right < left then .gt else .eq

def PRIORITY_RANK : List (JsString × ℕ) :=
  [(js "Urgent", 0), (js "High", 1), (js "Medium", 2), (js "Low", 3), (js "No priority", 4)]

def OBJECT_PROTOTYPE : List JsString :=
  [js "constructor", js "__defineGetter__", js "__defineSetter__", js "hasOwnProperty",
    js "__lookupGetter__", js "__lookupSetter__", js "isPrototypeOf", js "propertyIsEnumerable",
    js "toString", js "valueOf", js "__proto__", js "toLocaleString"]

def priorityRank (priority : JsValue) : Option ℕ :=
  match priority.toText with
  | none => some 5
  | some key =>
      match PRIORITY_RANK.find? fun rank => rank.1 = key with
      | some rank => some rank.2
      | none => if key ∈ OBJECT_PROTOTYPE then none else some 5

def property (value : JsValue) (name : JsString) : Option JsValue :=
  match value with
  | .undefined | .null => none
  | value => some (value.get name)

/-- `Array.isArray(issue.labels) && issue.labels.some(...)` -/
def hasLabel (card : JsValue) (fits : JsString → Bool) : Bool :=
  match card.get (js "labels") with
  | .array labels => labels.any fun label => fits ((label.toText).getD [])
  | _ => false

/-- `/^label$/i` of a label in lower case. -/
def isLabel (lower text : JsString) : Bool := text.toLowerCase = lower

inductive ReviewRisk
  | r2
  | r3
  deriving DecidableEq

/-- The risk that a label or a legacy priority names, and none but `R2` and `R3`. -/
def requiredReviewRisk (card : JsValue) : Option ReviewRisk :=
  if hasLabel card (isLabel (js "risk:r3")) then
    some .r3
  else if hasLabel card (isLabel (js "risk:r2")) then
    some .r2
  else
    let priority := (((card.get (js "priority")).orElse (.string [])).toText.getD []).toUpperCase
    if priority = js "R2" then some .r2 else if priority = js "R3" then some .r3 else none

/-- What follows in `/^verifier:([^:\s]+)$/i`. -/
def verifierOf (label : JsString) : Option JsString :=
  let front := js "verifier:"
  let name := label.drop front.length
  if isLabel front (label.take front.length) && name ≠ [] &&
      name.all (fun unit => unit ≠ 58 && !isWhiteSpace unit) then
    some name
  else
    none

def labelsOf (card : JsValue) : Option (List JsValue) :=
  ((card.get (js "labels")).orElse (.array [])).iterated

def namedVerifier (lowerCase : JsString → JsString) (labels : List JsValue) : Option JsString :=
  (labels.findSome? fun label => verifierOf ((label.toText).getD [])).map lowerCase

def requestedWorkerFor (card : JsValue) : JsString :=
  let workerOf (label : JsValue) : Option JsString :=
    (Lane.all.find? fun lane => label.toText = some (js "worker:" ++ lane.text)).map Lane.text
  match card.get (js "labels") with
  | .array labels => (labels.findSome? workerOf).getD (js "codex-builder")
  | _ => js "codex-builder"

def FAMILY_VERIFIERS : Family → List JsString
  | .codex => [js "codex", js "gpt", js "gpt-6"]
  | .claude => [js "claude", js "opus", js "sonnet", js "haiku", js "fable"]
  | .hermes => [js "hermes"]

def verifierConflictsWithImplementationWorker (card : JsValue) (verifier : Option JsString)
    (worker : JsValue) : Bool :=
  match verifier with
  | none => false
  | some verifier => hasLabel card (isLabel (js "type:implementation")) &&
      (familyForLane worker).any fun family => verifier ∈ FAMILY_VERIFIERS family

inductive RepairExclusion
  | unreadable
  | incompleteBinding
  | state (state : JsValue)
  | delegated
  | assigned
  | pullsUnread (reason : JsValue)
  | pullCount (count : ℕ)
  | otherPull (number : JsValue)
  | otherRepository
  | otherBase (ref : JsValue)
  | otherBranch (ref : JsValue)
  | notOpen (state : JsValue)
  | otherHead (sha : JsValue)

def REPAIR_STATES : List JsString := [js "Todo", js "In Progress"]

/-- `Number.isSafeInteger(value) && value >= 1` -/
def isPullNumber (value : JsValue) : Bool :=
  match value.safeInteger? with
  | some number => 1 ≤ number
  | none => false

def isOwner (owners assignee : JsValue) : Bool :=
  match assignee.get (js "id"), owners with
  | .string id, .array owners => id ≠ [] && owners.any fun owner => owner.isText id
  | _, _ => false

/-- The rule of the card that a repair is bound to, `none` if it may run. -/
def repairEligible (card binding : JsValue) : Option RepairExclusion :=
  let repair := binding.get (js "repair")
  let repairPr := repair.get (js "repair_pr")
  let head := match binding.get (js "head") with
    | .undefined => repair.get (js "initial_target_sha")
    | head => head
  let pulls := binding.get (js "pulls")
  let repo := binding.get (js "repo")
  let isRepo (side : JsValue) : Bool :=
    match repo with
    | .string name => ((side.get (js "repo")).get (js "full_name")).isText name
    | _ => false
  match card.get (js "id") with
  | .string (unit :: units) =>
      if !repair.truthy || !isPullNumber repairPr || !isSha (head.orElse (.string [])) then
        some .incompleteBinding
      else if !isOneOf (card.get (js "state")) REPAIR_STATES then
        some (.state (card.get (js "state")))
      else if (card.get (js "delegate")).truthy then
        some .delegated
      else if (card.get (js "assignee")).truthy &&
          !isOwner (binding.get (js "owners")) (card.get (js "assignee")) then
        some .assigned
      else if !(pulls.get (js "complete")).strictEq (.boolean true) then
        some (.pullsUnread (pulls.get (js "reason")))
      else
        match pulls.get (js "items") with
        | .array [pull] =>
            let number := pull.get (js "number")
            let base := pull.get (js "base")
            let side := pull.get (js "head")
            if !number.strictEq repairPr then
              some (.otherPull number)
            else if !isRepo base || !isRepo side then
              some .otherRepository
            else if !(base.get (js "ref")).isText (js "main") then
              some (.otherBase (base.get (js "ref")))
            else if !(side.get (js "ref")).isText (js "coordinator/" ++ unit :: units) then
              some (.otherBranch (side.get (js "ref")))
            else if !(pull.get (js "state")).isText (js "open") then
              some (.notOpen (pull.get (js "state")))
            else if !(side.get (js "sha")).strictEq head then
              some (.otherHead (side.get (js "sha")))
            else
              none
        | .array items => some (.pullCount items.length)
        | _ => some (.pullsUnread (pulls.get (js "reason")))
  | _ => some .unreadable

inductive Exclusion
  | unknownState
  | repair (why : RepairExclusion)
  | state (state : JsValue)
  | delegated (who : JsValue)
  | assigned (who : JsValue)
  | openPull
  | canceledParent (parent state : JsValue)
  | blocked (blocker state : JsValue)
  | needsDecision
  | noVerifier (risk : ReviewRisk)
  | selfVerified (risk : ReviewRisk) (verifier : Option JsString)
  | repositoryHold (error : JsValue)
  | noRepository
  | otherRepository (repo pilot : JsValue)
  | claimHold (error : JsValue)

/-- A card whose id is a string. -/
structure Issue where
  id : JsString
  card : JsValue
  isId : card.get (js "id") = .string id

structure Excluded where
  id : JsString
  reason : Exclusion

structure ReadyCard where
  id : JsString
  linearId : JsValue
  title : JsValue
  state : JsValue
  priority : JsValue
  labels : List JsValue
  repo : JsValue
  verifier : Option JsString
  requestedWorker : JsValue

structure EligibilitySettings where
  lowerCase : JsString → JsString
  openPulls : List JsValue
  pilotRepo : JsValue
  writerLanes : List (JsString × JsValue)
  repairCard : JsValue

def PICKABLE_STATES : List JsString := [js "Todo"]

def PARENT_TERMINAL_EXCLUDED_STATES : List JsString := [js "Canceled", js "Duplicate"]

def claimant (claim : JsValue) : Option JsValue :=
  if claim.truthy && ((claim.get (js "name")).truthy || (claim.get (js "id")).truthy) then
    some ((claim.get (js "name")).orElse (claim.get (js "id")))
  else
    none

/-- The items of a property that is an array or missing; another value has no `some` or `find`. -/
def listed (card : JsValue) (name : JsString) : Option (List JsValue) :=
  ((card.get name).orElse (.array [])).items?

/-- Whether one of the linked pull requests is open, the first that is found ending the search. -/
def anyOpen (openPulls : List JsValue) : List JsValue → Option Bool
  | [] => some false
  | pull :: rest => do
      let state ← property pull (js "state")
      if ((state.toText.getD []).toUpperCase = js "OPEN") ||
          openPulls.any (pull.get (js "number")).sameValueZero then
        return true
      else
        anyOpen openPulls rest

def openBlocker : List JsValue → Option (Option JsValue)
  | [] => some none
  | blocker :: rest => do
      let state ← property blocker (js "state")
      if state.isText (js "Done") then openBlocker rest else return some blocker

def claimRules (settings : EligibilitySettings) (card : JsValue) : Option (Option Exclusion) :=
  let state := card.get (js "state")
  if !isOneOf state PICKABLE_STATES then
    some (some (.state state))
  else
    match claimant (card.get (js "delegate")), claimant (card.get (js "assignee")) with
    | some who, _ => some (some (.delegated who))
    | none, some who => some (some (.assigned who))
    | none, none => do
        let linked ← listed card (js "linkedPRs")
        let isOpen ← anyOpen settings.openPulls linked
        return if isOpen then some .openPull else none

def orderRules (card : JsValue) : Option (Option Exclusion) :=
  let parent := card.get (js "parent")
  if parent.truthy && isOneOf (parent.get (js "state")) PARENT_TERMINAL_EXCLUDED_STATES then
    some (some (.canceledParent (parent.get (js "id")) (parent.get (js "state"))))
  else do
    let blockers ← listed card (js "blockers")
    match ← openBlocker blockers with
    | some blocker => return some (.blocked (blocker.get (js "id")) (blocker.get (js "state")))
    | none => return if hasLabel card (isLabel (js "needs:decision")) then some .needsDecision else none

def ownershipRules (settings : EligibilitySettings) (card : JsValue) (verifier : Option JsString)
    (worker : JsValue) : Option Exclusion :=
  let repo := card.get (js "repo")
  let held : Option Exclusion :=
    if (card.get (js "repoResolutionError")).truthy then
      some (.repositoryHold (card.get (js "repoResolutionError")))
    else if !repo.truthy then
      some .noRepository
    else if !repo.strictEq settings.pilotRepo then
      some (.otherRepository repo settings.pilotRepo)
    else if (card.get (js "claimEvidenceError")).truthy then
      some (.claimHold (card.get (js "claimEvidenceError")))
    else
      none
  match requiredReviewRisk card with
  | none => held
  | some risk =>
      if verifier = none then
        some (.noVerifier risk)
      else if verifierConflictsWithImplementationWorker card verifier worker then
        some (.selfVerified risk verifier)
      else
        held

def isUnknownState (state : JsValue) : Bool :=
  match state with
  | .undefined | .null | .string [] => true
  | _ => false

def claimOf (settings : EligibilitySettings) (issue : Issue) : Option (Option Exclusion) :=
  if settings.repairCard.truthy && (settings.repairCard.get (js "issueId")).isText issue.id then
    some ((repairEligible issue.card settings.repairCard).map Exclusion.repair)
  else
    claimRules settings issue.card

def judge (settings : EligibilitySettings) (issue : Issue) : Option (Except Exclusion ReadyCard) :=
  let card := issue.card
  let state := card.get (js "state")
  if isUnknownState state then
    some (.error .unknownState)
  else do
    match ← claimOf settings issue with
    | some reason => return .error reason
    | none =>
        match ← orderRules card with
        | some reason => return .error reason
        | none => do
            let labels ← labelsOf card
            let verifier := namedVerifier settings.lowerCase labels
            let named := (settings.writerLanes.find? fun lane => lane.1 = issue.id).map Prod.snd
            let worker := (named.getD .undefined).orElse (.string (requestedWorkerFor card))
            match ownershipRules settings card verifier worker with
            | some reason => return .error reason
            | none => return .ok {
                id := issue.id
                linearId := (card.get (js "linearId")).orElse .null
                title := (card.get (js "title")).orElse (.string [])
                state := state
                priority := (card.get (js "priority")).orElse (.string (js "No priority"))
                labels := labels
                repo := card.get (js "repo")
                verifier := verifier
                requestedWorker := worker }

def readyOrder : Compare ReadyCard := fun left right =>
  match priorityRank left.priority, priorityRank right.priority with
  | some rank, some rank' =>
      if rank ≠ rank' then compare rank rank' else compareIdentifiers left.id right.id
  -- The difference is `NaN`, which is not zero.
  | _, _ => .eq

def excludedOrder : Compare Excluded := fun left right => compareIdentifiers left.id right.id

def readyOf (settings : EligibilitySettings) (issues : List Issue) : List ReadyCard :=
  issues.filterMap fun issue =>
    match judge settings issue with
    | some (.ok ready) => some ready
    | _ => none

def excludedOf (settings : EligibilitySettings) (issues : List Issue) : List Excluded :=
  issues.filterMap fun issue =>
    match judge settings issue with
    | some (.error reason) => some ⟨issue.id, reason⟩
    | _ => none

structure Eligibility where
  ready : List ReadyCard
  excluded : List Excluded

/-- The lists, sorted as `sort` does it. -/
def computeEligibility (sort : (Item : Type) → Compare Item → List Item → List Item)
    (settings : EligibilitySettings) (issues : List Issue) : Option Eligibility :=
  if issues.all fun issue => (judge settings issue).isSome then
    some ⟨sort ReadyCard readyOrder (readyOf settings issues),
      sort Excluded excludedOrder (excludedOf settings issues)⟩
  else
    none

theorem compareIdentifiers_swap : Swaps compareIdentifiers := by
  intro left right
  have texts : (if right < left then Ordering.lt else if left < right then .gt else .eq) =
      (if left < right then Ordering.lt else if right < left then .gt else .eq).swap := by
    by_cases less : left < right
    · simp [less, List.lt_asymm less]
    · by_cases greater : right < left
      · simp [less, greater]
      · simp [less, greater]
  simp only [compareIdentifiers]
  cases identifierNumber left with
  | none => cases identifierNumber right <;> exact texts
  | some number =>
      cases identifierNumber right with
      | none => exact texts
      | some number' => exact Nat.compare_swap number number' |>.symm

theorem readyOrder_swap : Swaps readyOrder := by
  intro left right
  simp only [readyOrder]
  cases priorityRank left.priority with
  | none => cases priorityRank right.priority <;> rfl
  | some rank =>
      cases priorityRank right.priority with
      | none => rfl
      | some rank' =>
          by_cases same : rank = rank'
          · simp only [same, ne_eq, not_true_eq_false, if_false]
            exact compareIdentifiers_swap left.id right.id
          · simp only [ne_eq, same, Ne.symm same, not_false_eq_true, if_true]
            exact (Nat.compare_swap rank rank').symm

theorem excludedOrder_swap : Swaps excludedOrder := fun left right =>
  compareIdentifiers_swap left.id right.id

section Boards

variable {settings : EligibilitySettings} {issues other : List Issue}

theorem id_of_judge {issue : Issue} {ready : ReadyCard}
    (judged : judge settings issue = some (.ok ready)) : ready.id = issue.id := by
  simp only [judge] at judged
  split at judged
  case isTrue => cases judged
  case isFalse =>
    simp only [Option.bind_eq_bind, Option.bind_eq_some_iff] at judged
    rcases judged with ⟨claim, -, judged⟩
    split at judged
    case h_1 => cases judged
    case h_2 =>
      simp only [Option.bind_eq_some_iff] at judged
      rcases judged with ⟨order, -, judged⟩
      split at judged
      case h_1 => cases judged
      case h_2 =>
        simp only [Option.bind_eq_some_iff] at judged
        rcases judged with ⟨labels, -, judged⟩
        split at judged
        case h_1 => cases judged
        case h_2 =>
          injection judged with judged
          injection judged with judged
          rw [← judged]

theorem exists_perm_filterMap {Item Image : Type} {find : Item → Option Image}
    {images : List Image} {items : List Item} (perm : images.Perm (items.filterMap find)) :
    ∃ other : List Item, other.Perm items ∧ other.filterMap find = images := by
  induction images generalizing items with
  | nil => exact ⟨items, .refl _, List.nil_perm.mp perm⟩
  | cons image rest ih =>
    have imageMem : image ∈ items.filterMap find := perm.subset List.mem_cons_self
    rcases List.mem_filterMap.mp imageMem with ⟨item, itemMem, isImage⟩
    rcases List.append_of_mem itemMem with ⟨front, back, rfl⟩
    have restPerm : rest.Perm ((front ++ back).filterMap find) := by
      apply @List.Perm.cons_inv _ image
      refine perm.trans ?_
      simp only [List.filterMap_append, List.filterMap_cons, isImage]
      exact List.perm_middle
    rcases ih restPerm with ⟨other, otherPerm, isRest⟩
    refine ⟨item :: other, (otherPerm.cons item).trans List.perm_middle.symm, ?_⟩
    simp only [List.filterMap_cons, isImage, isRest]

theorem nodup_filterMap_of_keys {Item Image : Type} {find : Item → Option Image}
    {key : Item → JsString} {key' : Image → JsString} {items : List Item}
    (keeps : ∀ item image, find item = some image → key' image = key item)
    (distinct : (items.map key).Nodup) : (items.filterMap find).Nodup := by
  have keys : ((items.filterMap find).map key').Sublist (items.map key) := by
    clear distinct
    induction items with
    | nil => exact .slnil
    | cons item rest ih =>
      rw [List.map_cons, List.filterMap_cons]
      cases found : find item with
      | none => exact ih.cons _
      | some image =>
        rw [List.map_cons, keeps item image found]
        exact ih.cons_cons _
  exact (keys.nodup distinct).of_map

theorem nodup_readyOf (distinct : (issues.map Issue.id).Nodup) : (readyOf settings issues).Nodup := by
  apply @nodup_filterMap_of_keys _ _ _ _ ReadyCard.id _ _ distinct
  intro issue ready found
  split at found
  case h_1 judged =>
    injection found with same
    subst same
    exact id_of_judge judged
  case h_2 => cases found

theorem nodup_excludedOf (distinct : (issues.map Issue.id).Nodup) :
    (excludedOf settings issues).Nodup := by
  apply @nodup_filterMap_of_keys _ _ _ _ Excluded.id _ _ distinct
  intro issue excluded found
  split at found
  case h_1 =>
    injection found with same
    rw [← same]
  case h_2 => cases found

def Judged (settings : EligibilitySettings) (issues : List Issue) : Prop :=
  ∀ issue ∈ issues, (judge settings issue).isSome = true

section Sorted

variable {sort : (Item : Type) → Compare Item → List Item → List Item}

theorem computeEligibility_of_judged (judged : Judged settings issues) :
    computeEligibility sort settings issues =
      some ⟨sort ReadyCard readyOrder (readyOf settings issues),
        sort Excluded excludedOrder (excludedOf settings issues)⟩ :=
  if_pos (List.all_eq_true.mpr judged)

theorem computeEligibility_eq_none (notJudged : ¬Judged settings issues) :
    computeEligibility sort settings issues = none :=
  if_neg (mt List.all_eq_true.mp notJudged)

theorem Judged.perm (judged : Judged settings issues) (perm : other.Perm issues) :
    Judged settings other := fun issue issueMem => judged issue (perm.subset issueMem)

theorem readyOf_perm (perm : other.Perm issues) :
    (readyOf settings other).Perm (readyOf settings issues) := perm.filterMap _

theorem excludedOf_perm (perm : other.Perm issues) :
    (excludedOf settings other).Perm (excludedOf settings issues) := perm.filterMap _

theorem computeEligibility_perm (sorts : ∀ Item, Sorts (sort Item))
    (ready : StrictOn readyOrder (readyOf settings issues))
    (excluded : StrictOn excludedOrder (excludedOf settings issues)) (perm : other.Perm issues) :
    computeEligibility sort settings other = computeEligibility sort settings issues := by
  by_cases judged : Judged settings issues
  · rw [computeEligibility_of_judged judged, computeEligibility_of_judged (judged.perm perm),
      ready.sort_eq_of_perm readyOrder_swap (sorts ReadyCard) (readyOf_perm perm),
      excluded.sort_eq_of_perm excludedOrder_swap (sorts Excluded) (excludedOf_perm perm)]
  · rw [computeEligibility_eq_none judged,
      computeEligibility_eq_none fun judged' => judged (judged'.perm perm.symm)]

theorem strictOn_of_perm {Item : Type} {compare : Compare Item} {find : Issue → Option Item}
    (swaps : Swaps compare) (keeps : KeepsRuns (sort Item)) (nodup : (issues.filterMap find).Nodup)
    (same : ∀ other : List Issue, other.Perm issues →
      sort Item compare (other.filterMap find) = sort Item compare (issues.filterMap find)) :
    StrictOn compare (issues.filterMap find) := by
  by_contra notStrict
  rcases exists_twoRuns swaps nodup notStrict with ⟨first, second, runs⟩
  have fixed : ∀ run : List Item, run.Perm (issues.filterMap find) → IsRun compare run →
      run = sort Item compare (issues.filterMap find) := by
    intro run runPerm isRun
    rcases exists_perm_filterMap runPerm with ⟨other, otherPerm, isImage⟩
    rw [← same other otherPerm, isImage, keeps compare run isRun]
  apply runs.different
  rw [fixed first runs.first_perm runs.first_run, fixed second runs.second_perm runs.second_run]

theorem computeEligibility_perm_iff (sorts : ∀ Item, Sorts (sort Item))
    (keeps : ∀ Item, KeepsRuns (sort Item)) (distinct : (issues.map Issue.id).Nodup) :
    (∀ other : List Issue, other.Perm issues →
      computeEligibility sort settings other = computeEligibility sort settings issues) ↔
    (Judged settings issues → StrictOn readyOrder (readyOf settings issues) ∧
      StrictOn excludedOrder (excludedOf settings issues)) := by
  refine ⟨?_, ?_⟩
  · intro same judged
    have lists : ∀ other : List Issue, other.Perm issues →
        sort ReadyCard readyOrder (readyOf settings other) =
            sort ReadyCard readyOrder (readyOf settings issues) ∧
          sort Excluded excludedOrder (excludedOf settings other) =
            sort Excluded excludedOrder (excludedOf settings issues) := by
      intro other perm
      have equal := same other perm
      rw [computeEligibility_of_judged judged, computeEligibility_of_judged (judged.perm perm)] at equal
      simpa using equal
    exact ⟨strictOn_of_perm readyOrder_swap (keeps ReadyCard) (nodup_readyOf distinct)
        fun other perm => (lists other perm).1,
      strictOn_of_perm excludedOrder_swap (keeps Excluded) (nodup_excludedOf distinct)
        fun other perm => (lists other perm).2⟩
  · intro strict other perm
    by_cases judged : Judged settings issues
    · exact computeEligibility_perm sorts (strict judged).1 (strict judged).2 perm
    · rw [computeEligibility_eq_none judged,
        computeEligibility_eq_none fun judged' => judged (judged'.perm perm.symm)]

end Sorted

end Boards

def plainSettings : EligibilitySettings :=
  ⟨toLowerCase, [], .string (js "BAWES-Universe/studenthub-platform"), [], .null⟩

def todoCard (id : JsString) : Issue where
  id := id
  card := .object [(js "id", .string id), (js "state", .string (js "Todo")),
    (js "repo", .string (js "BAWES-Universe/studenthub-platform"))]
  isId := rfl

def readyIds (issues : List Issue) : Option (List JsString) :=
  (computeEligibility (fun _ => insertionSort) plainSettings issues).map fun lists =>
    lists.ready.map ReadyCard.id

/-- Of three ids of which every one is below another, the first card is dispatched that was read
first. -/
theorem computeEligibility_circle :
    [todoCard (js "SHU-2"), todoCard (js "SHU-10"), todoCard (js "SHU-1X")].Perm
        [todoCard (js "SHU-10"), todoCard (js "SHU-1X"), todoCard (js "SHU-2")] ∧
      readyIds [todoCard (js "SHU-2"), todoCard (js "SHU-10"), todoCard (js "SHU-1X")] =
        some [js "SHU-2", js "SHU-10", js "SHU-1X"] ∧
      readyIds [todoCard (js "SHU-10"), todoCard (js "SHU-1X"), todoCard (js "SHU-2")] =
        some [js "SHU-10", js "SHU-1X", js "SHU-2"] :=
  ⟨@List.perm_append_comm _ [todoCard (js "SHU-2")]
    [todoCard (js "SHU-10"), todoCard (js "SHU-1X")], by decide +kernel, by decide +kernel⟩

theorem computeEligibility_perm_iff_canonical :
    (∀ other : List Issue, other.Perm [todoCard (js "SHU-2"), todoCard (js "SHU-10")] →
      computeEligibility (fun _ => insertionSort) plainSettings other =
        computeEligibility (fun _ => insertionSort) plainSettings
          [todoCard (js "SHU-2"), todoCard (js "SHU-10")]) ↔
    (Judged plainSettings [todoCard (js "SHU-2"), todoCard (js "SHU-10")] →
      StrictOn readyOrder (readyOf plainSettings [todoCard (js "SHU-2"), todoCard (js "SHU-10")]) ∧
      StrictOn excludedOrder
        (excludedOf plainSettings [todoCard (js "SHU-2"), todoCard (js "SHU-10")])) :=
  computeEligibility_perm_iff (fun _ => sorts_insertionSort) (fun _ => keepsRuns_insertionSort)
    (by decide)

end StudentHub.Coordinator
