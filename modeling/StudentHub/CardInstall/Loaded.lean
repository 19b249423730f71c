import StudentHub.CardInstall.Admitted

/-!
# What an installed revision loads

The contracts of the cards are checked once, when the coordinator starts: a check that fails
there keeps it from starting. The lanes of a configuration are checked each time that one of
them is looked up. The gate of self installs has to foresee both at main.
-/

namespace StudentHub.CardInstall

open Ecma JsString Coordinator

inductive LoadError
  | notJson
  | cardsNotObject
  | reviewOnlyNotObject
  | noFinishRule
  | buildAndReviewOnly (card : JsString)
  | fixtureAndCard (card : JsString)
  | notContract (card : JsString)
  | mode (card : JsString) (refusal : ScopeRefusal)

def table (value : JsValue) (error : LoadError) : Except LoadError (List (JsString × JsValue)) :=
  match value with
  | .object entries => .ok entries
  | _ => .error error

section Load

variable (round : FiniteNumber → JsNumber)

/-- The tables that `card-contracts-reader.mjs` reads of a file. -/
def readTables (text : JsValue) : Except LoadError ContractData :=
  match text.toText.bind (Json.parse round) with
  | none => .error .notJson
  | some data => do
      let cards ← table (data.get (js "cards")) .cardsNotObject
      let reviewOnly ← table (data.get (js "review_only")) .reviewOnlyNotObject
      match data.get (js "writer_finish_rule") with
      | .string [] => .error .noFinishRule
      | .string rule => return ⟨cards, .object reviewOnly, rule⟩
      | _ => .error .noFinishRule

end Load

def reviewOnlyError (contracts : ContractData) (card : JsString) : Option LoadError :=
  if (JsValue.object contracts.cards).hasOwn card then some (.buildAndReviewOnly card) else none

/-- The check of a card when `workspace-scope.mjs` loads; `Object.hasOwn` throws for `null`. -/
def cardError (contracts : ContractData) (card : JsString) : Option LoadError :=
  if isFixtureIssue card then
    some (.fixtureAndCard card)
  else
    match (JsValue.object contracts.cards).get card with
    | .null => some (.notContract card)
    | contract =>
        match validateParsedContractMode contract with
        | .ok _ => none
        | .error refusal => some (.mode card refusal)

def tablesError (contracts : ContractData) : Option LoadError :=
  ((keysOf contracts.reviewOnly).findSome? (reviewOnlyError contracts)).or
    ((contracts.cards.map Prod.fst).findSome? (cardError contracts))

/-- The contracts of a file that the coordinator starts with. -/
def loadContracts (round : FiniteNumber → JsNumber) (text : JsValue) :
    Except LoadError ContractData := do
  let contracts ← readTables round text
  match tablesError contracts with
  | none => return contracts
  | some error => .error error

/-- `cardContract(issueId)`, null without a contract. -/
def cardContract (contracts : ContractData) (issueId : JsValue) : JsValue :=
  match issueId with
  | .string card =>
      let cards := JsValue.object contracts.cards
      if cards.hasOwn card then cards.get card else .null
  | _ => .null

def reviewOnlyCard (contracts : ContractData) (issueId : JsValue) : JsValue :=
  match issueId with
  | .string card =>
      if contracts.reviewOnly.hasOwn card then contracts.reviewOnly.get card else .null
  | _ => .null

def textsOf (value : JsValue) : Option (List JsString) :=
  value.items?.bind fun items => items.mapM fun item =>
    match item with
    | .string text => some text
    | _ => none

def statedMode (contract : JsValue) : Option JsValue :=
  if contract.hasOwn (js "workspace_mode") then some (contract.get (js "workspace_mode")) else none

def laneContractOf (contract : JsValue) : Option LaneContract := do
  let initial ← textsOf (contract.get (js "initial_build_paths"))
  let revision ← textsOf (contract.get (js "revision_paths"))
  if contract.hasOwn (js "seeded_defect_path") then
    none
  else
    return ⟨initial, revision, none, statedMode contract⟩

def laneWithContract (card : JsString) (contract : JsValue) : FixtureLane where
  id := .string card
  initialBuildPaths := some (contract.get (js "initial_build_paths"))
  revisionPaths := some (contract.get (js "revision_paths"))
  seededDefectPath := none
  workspaceMode := statedMode contract

theorem sameItems_paths {paths : List JsString} {values : List JsValue}
    (same : JsValue.sameItems (paths.map .string) values = true) : values = paths.map .string := by
  induction paths generalizing values with
  | nil =>
      cases values with
      | nil => rfl
      | cons value rest => simp [JsValue.sameItems] at same
  | cons path paths ih =>
      cases values with
      | nil => simp [JsValue.sameItems] at same
      | cons value rest =>
          simp only [List.map_cons, JsValue.sameItems, Bool.and_eq_true] at same
          rw [JsValue.eq_string_of_isDeepStrictEqual same.1, ih same.2, List.map_cons]

theorem eq_of_isDeepStrictEqual_paths {paths : List JsString} {value : JsValue}
    (same : (pathsValue paths).isDeepStrictEqual value = true) : value = pathsValue paths := by
  cases value with
  | array values =>
      rw [pathsValue, JsValue.isDeepStrictEqual] at same
      rw [sameItems_paths same, pathsValue]
  | _ => simp [pathsValue, JsValue.isDeepStrictEqual] at same

theorem validateAllowedPaths_of_isDeepStrictEqual {left right : JsValue} {paths : List JsString}
    (checked : validateAllowedPaths left = .ok paths)
    (same : left.isDeepStrictEqual right = true) : right = left := by
  have isPaths : left = pathsValue paths := items_of_validateAllowedPaths checked
  subst isPaths
  exact eq_of_isDeepStrictEqual_paths same

theorem validateParsedContractMode_eq_ok {contract : JsValue} {scope : JsString}
    (valid : validateParsedContractMode contract = .ok scope) :
    contract.hasOwn (js "workspace_mode") = false ∨
      contract.get (js "workspace_mode") = .string (js "repo") ∧ ∃ initial revision,
        validateAllowedPaths (contract.get (js "initial_build_paths")) = .ok initial ∧
        validateRepoModePaths initial = .ok initial ∧
        validateAllowedPaths (contract.get (js "revision_paths")) = .ok revision ∧
        validateRepoModePaths revision = .ok revision := by
  have unchanged : ∀ {paths accepted : List JsString}, validateRepoModePaths paths = .ok accepted →
      validateRepoModePaths paths = .ok paths := by
    intro paths accepted isAccepted
    simp only [validateRepoModePaths] at isAccepted ⊢
    split at isAccepted
    case isTrue => cases isAccepted
    case isFalse free => rw [if_neg free]
  simp only [validateParsedContractMode] at valid
  split at valid
  case isTrue absent => exact Or.inl (by simpa using absent)
  case isFalse =>
    split at valid
    case isTrue => cases valid
    case isFalse isRepo =>
      simp only [bind_eq_ok] at valid
      rcases valid with ⟨initial, isInitial, _, initialFree, revision, isRevision, _, revisionFree, -⟩
      simp only [Bool.not_eq_true', Bool.not_eq_false] at isRepo
      exact Or.inr ⟨JsValue.isText_iff.mp isRepo, initial, revision, isInitial,
        unchanged initialFree, isRevision, unchanged revisionFree⟩

theorem validateParsedContractMode_unstated {contract : JsValue}
    (absent : contract.hasOwn (js "workspace_mode") = false) :
    validateParsedContractMode contract = .ok (js "scoped") := by
  rw [validateParsedContractMode, absent]
  rfl

theorem validateParsedContractMode_of_isDeepStrictEqual {left right : JsValue} {scope : JsString}
    (valid : validateParsedContractMode left = .ok scope)
    (same : left.isDeepStrictEqual right = true) :
    ∃ scope, validateParsedContractMode right = .ok scope := by
  rcases validateParsedContractMode_eq_ok valid with absent | ⟨isRepo, initial, revision,
    isInitial, initialFree, isRevision, revisionFree⟩
  · rw [JsValue.hasOwn_eq_of_isDeepStrictEqual same] at absent
    exact ⟨_, validateParsedContractMode_unstated absent⟩
  · have mode := JsValue.get_of_isDeepStrictEqual same (js "workspace_mode")
    rw [isRepo] at mode
    have initialSame := validateAllowedPaths_of_isDeepStrictEqual isInitial
      (JsValue.get_of_isDeepStrictEqual same _)
    have revisionSame := validateAllowedPaths_of_isDeepStrictEqual isRevision
      (JsValue.get_of_isDeepStrictEqual same _)
    rw [validateParsedContractMode]
    by_cases stated : right.hasOwn (js "workspace_mode") = true
    · rw [stated, JsValue.eq_string_of_isDeepStrictEqual mode, initialSame, revisionSame,
        isInitial, isRevision]
      refine ⟨js "repo", ?_⟩
      simp [JsValue.isText, bind, Except.bind, initialFree, revisionFree, pure, Except.pure]
    · rw [Bool.not_eq_true] at stated
      exact ⟨_, by rw [stated]; rfl⟩

section Contracts

variable {before after : ContractData}

theorem findSome?_keys_eq_none {Found : Type} {properties : List (JsString × JsValue)}
    {find : JsString → Option Found} : (properties.map Prod.fst).findSome? find = none ↔
      ∀ card, (JsValue.object properties).hasOwn card = true → find card = none := by
  rw [List.findSome?_eq_none_iff]
  exact ⟨fun all card present => all card (of_decide_eq_true present),
    fun all card cardMem => all card (decide_eq_true cardMem)⟩

theorem KeepsCards.reviewOnly_hasOwn (keeps : KeepsCards before after) (card : JsString) :
    after.reviewOnly.hasOwn card = before.reviewOnly.hasOwn card :=
  (JsValue.hasOwn_eq_of_isDeepStrictEqual keeps.reviewOnly card).symm

theorem KeepsCards.contract {card : JsString} (keeps : KeepsCards before after)
    (present : (JsValue.object before.cards).hasOwn card = true) :
    (JsValue.object after.cards).hasOwn card = true ∧
      ((JsValue.object before.cards).get card).isDeepStrictEqual
        ((JsValue.object after.cards).get card) = true :=
  keeps.cards _ (JsValue.exists_entry_get present)

theorem keysOf_reviewOnly_eq_none {contracts : ContractData} {Found : Type}
    {find : JsString → Option Found} : (keysOf contracts.reviewOnly).findSome? find = none ↔
      ∀ card, contracts.reviewOnly.hasOwn card = true → find card = none := by
  rw [List.findSome?_eq_none_iff]
  exact ⟨fun all card present => all card (of_decide_eq_true present),
    fun all card cardMem => all card (decide_eq_true cardMem)⟩

structure NewCard (after : ContractData) (card : JsString) (contract : JsValue) : Prop where
  notReviewOnly : after.reviewOnly.hasOwn card = false
  notFixture : isFixtureIssue card = false
  isObject : contract.isPlainObject = true
  keys : ∀ key, contract.hasOwn key = true → key ∈ CONTRACT_KEYS
  scope : ∃ scope, newScope contract = .ok scope

theorem NewCard.of_addedRefusal {card : JsString} {contract : JsValue}
    (absent : (JsValue.object before.cards).hasOwn card = false)
    (passes : addedRefusal before after (card, contract) = none) : NewCard after card contract := by
  simp only [addedRefusal, absent, Bool.false_eq_true, if_false] at passes
  split at passes
  case isTrue => cases passes
  case isFalse canonical =>
    split at passes
    case isTrue => cases passes
    case isFalse notFixture =>
      split at passes
      case isTrue => cases passes
      case isFalse shape =>
        simp only [Bool.or_eq_true, not_or, Bool.not_eq_true, Bool.not_eq_true',
          Bool.not_eq_false, List.any_eq_false, decide_eq_true_eq, not_not] at canonical shape
        rcases shape with ⟨⟨⟨⟨⟨isObject, keys⟩, -⟩, -⟩, -⟩, -⟩
        split at passes
        case h_2 => cases passes
        case h_1 scope isScope =>
          refine ⟨canonical.2, by simpa using notFixture, isObject, ?_, scope, isScope⟩
          intro key present
          simp only [JsValue.hasOwn, decide_eq_true_eq] at present
          exact keys key present

theorem newScope_eq_ok {contract : JsValue} {scope : JsString} (valid : newScope contract = .ok scope) :
    ∃ initial revision, validateAllowedPaths (contract.get (js "initial_build_paths")) = .ok initial ∧
      validateAllowedPaths (contract.get (js "revision_paths")) = .ok revision ∧
        validateParsedContractMode contract = .ok scope := by
  simp only [newScope, bind_eq_ok] at valid
  rcases valid with ⟨initial, isInitial, revision, isRevision, mode⟩
  exact ⟨initial, revision, isInitial, isRevision, mode⟩

theorem cardError_eq_none_of_valid {contracts : ContractData} {card scope : JsString}
    (notFixture : isFixtureIssue card = false)
    (notNull : (JsValue.object contracts.cards).get card ≠ .null)
    (valid : validateParsedContractMode ((JsValue.object contracts.cards).get card) = .ok scope) :
    cardError contracts card = none := by
  simp only [cardError, notFixture, Bool.false_eq_true, if_false, valid]

theorem valid_of_cardError {contracts : ContractData} {card : JsString}
    (passes : cardError contracts card = none) : isFixtureIssue card = false ∧
      (JsValue.object contracts.cards).get card ≠ .null ∧
        ∃ scope, validateParsedContractMode ((JsValue.object contracts.cards).get card) = .ok scope := by
  simp only [cardError] at passes
  split at passes
  case isTrue => cases passes
  case isFalse notFixture =>
    split at passes
    case h_1 => cases passes
    case h_2 notNull =>
      split at passes
      case h_1 scope valid => exact ⟨by simpa using notFixture, notNull, scope, valid⟩
      case h_2 => cases passes

theorem tablesError_of_keepsCards (keeps : KeepsCards before after)
    (added : ∀ entry ∈ after.cards, addedRefusal before after entry = none)
    (loads : tablesError before = none) : tablesError after = none := by
  simp only [tablesError, Option.or_eq_none_iff, keysOf_reviewOnly_eq_none,
    findSome?_keys_eq_none] at loads ⊢
  have isNew : ∀ card, (JsValue.object before.cards).hasOwn card = false →
      (JsValue.object after.cards).hasOwn card = true →
        NewCard after card ((JsValue.object after.cards).get card) := fun card absent present =>
    .of_addedRefusal absent (added _ (JsValue.exists_entry_get present))
  refine ⟨?_, ?_⟩
  · intro card reviewOnly
    have passed := loads.1 card (keeps.reviewOnly_hasOwn card ▸ reviewOnly)
    simp only [reviewOnlyError] at passed ⊢
    split at passed
    case isTrue => cases passed
    case isFalse absent =>
      rw [Bool.not_eq_true] at absent
      rw [if_neg]
      intro present
      have new := isNew card absent present
      rw [new.notReviewOnly] at reviewOnly
      cases reviewOnly
  · intro card present
    by_cases kept : (JsValue.object before.cards).hasOwn card = true
    · rcases valid_of_cardError (loads.2 card kept) with ⟨notFixture, notNull, scope, valid⟩
      have same := (keeps.contract kept).2
      rcases validateParsedContractMode_of_isDeepStrictEqual valid same with ⟨scope', valid'⟩
      refine cardError_eq_none_of_valid notFixture ?_ valid'
      intro isNull
      rw [isNull] at same
      cases contract : (JsValue.object before.cards).get card with
      | null => exact notNull contract
      | _ => simp [contract, JsValue.isDeepStrictEqual] at same
    · rw [Bool.not_eq_true] at kept
      have new := isNew card kept present
      rcases new.scope with ⟨scope, valid⟩
      rcases newScope_eq_ok valid with ⟨-, -, -, -, mode⟩
      refine cardError_eq_none_of_valid new.notFixture ?_ mode
      intro isNull
      have isObject := new.isObject
      rw [isNull] at isObject
      cases isObject

theorem textsOf_pathsValue (paths : List JsString) : textsOf (pathsValue paths) = some paths := by
  simp only [textsOf, pathsValue, JsValue.items?, Option.bind_some]
  induction paths with
  | nil => rfl
  | cons path rest ih => simp [List.mapM_cons, ih]

theorem statedMode_eq_some {contract mode : JsValue} (stated : statedMode contract = some mode) :
    contract.hasOwn (js "workspace_mode") = true ∧
      mode = contract.get (js "workspace_mode") := by
  simp only [statedMode] at stated
  split at stated
  case isTrue present =>
    injection stated with same
    exact ⟨present, same.symm⟩
  case isFalse => cases stated

theorem validateCardContractMode_of_parsed {contract : JsValue} {scope : JsString}
    {initial revision : List JsString} (mode : validateParsedContractMode contract = .ok scope)
    (isInitial : contract.get (js "initial_build_paths") = pathsValue initial)
    (isRevision : contract.get (js "revision_paths") = pathsValue revision) :
    validateCardContractMode ⟨initial, revision, none, statedMode contract⟩ = .ok scope := by
  simp only [validateParsedContractMode] at mode
  cases stated : contract.hasOwn (js "workspace_mode") with
  | false =>
      simp only [stated, Bool.not_false, if_true] at mode
      simpa [validateCardContractMode, statedMode, stated] using mode
  | true =>
      simp only [stated, Bool.not_true, Bool.false_eq_true, if_false] at mode
      split at mode
      case isTrue => cases mode
      case isFalse isRepo =>
        simp only [Bool.not_eq_true', Bool.not_eq_false] at isRepo
        rw [isInitial, isRevision] at mode
        simp only [validateCardContractMode, statedMode, stated, if_true, isRepo, Bool.not_true,
          Bool.false_eq_true, if_false]
        exact mode

theorem NewCard.accepted {card : JsString} {contract : JsValue} (new : NewCard after card contract) :
    ∃ lane policy, laneContractOf contract = some lane ∧
      validateFixtureScopePolicy (some lane) (laneWithContract card contract) = .ok policy := by
  rcases new.scope with ⟨scope, valid⟩
  rcases newScope_eq_ok valid with ⟨initial, revision, initialValid, revisionValid, mode⟩
  have isInitial : _ = pathsValue _ := items_of_validateAllowedPaths initialValid
  have isRevision : _ = pathsValue _ := items_of_validateAllowedPaths revisionValid
  have noDefect : contract.hasOwn (js "seeded_defect_path") = false := by
    rw [← Bool.not_eq_true]
    intro present
    exact absurd (new.keys _ present) (by decide)
  have accepted := validateCardContractMode_of_parsed mode isInitial isRevision
  refine ⟨⟨initial, revision, none, statedMode contract⟩, ⟨scope, initial, revision⟩, ?_, ?_⟩
  · simp [laneContractOf, isInitial, isRevision, textsOf_pathsValue, noDefect]
  · have sameMode : ((statedMode contract).any fun stated =>
        !stated.strictEq ((statedMode contract).getD .undefined)) = false := by
      cases stated : statedMode contract with
      | none => rfl
      | some found =>
          rcases statedMode_eq_some stated with ⟨present, isMode⟩
          rcases validateParsedContractMode_eq_ok mode with absent | ⟨isRepo, -⟩
          · rw [present] at absent
            cases absent
          · rw [isMode, isRepo]
            simp [JsValue.strictEq]
    simp [validateFixtureScopePolicy, laneWithContract, initialValid, revisionValid, accepted,
      sameMode, bind, Except.bind, pure, Except.pure]

end Contracts

section Main

variable {round : FiniteNumber → JsNumber}

theorem readTables_of_contractData {text : JsValue} {contracts : ContractData}
    (isContracts : contractData round text = some contracts) :
    readTables round text =
      if contracts.writerFinishRule = [] then .error .noFinishRule else .ok contracts := by
  simp only [contractData] at isContracts
  split at isContracts
  case isFalse => cases isContracts
  case isTrue shape =>
    split at isContracts
    case h_2 => cases isContracts
    case h_1 cards reviewOnly rule isCards isReviewOnly isRule =>
      injection isContracts with same
      subst same
      cases parsed : text.toText.bind (Json.parse round) with
      | none => simp [parse, parsed, JsValue.isPlainObject] at shape
      | some data =>
          simp only [parse, parsed, Option.getD_some] at isCards isReviewOnly isRule
          simp only [readTables, parsed, isCards, isReviewOnly, isRule, table, bind, Except.bind]
          cases rule with
          | nil => rfl
          | cons first rest => rfl

theorem loadContracts_eq_ok {text : JsValue} {contracts loaded : ContractData}
    (isContracts : contractData round text = some contracts) :
    loadContracts round text = .ok loaded ↔
      contracts.writerFinishRule ≠ [] ∧ tablesError contracts = none ∧ loaded = contracts := by
  rw [loadContracts, readTables_of_contractData isContracts]
  by_cases empty : contracts.writerFinishRule = []
  · simp [empty, bind, Except.bind]
  · cases error : tablesError contracts with
    | none => simp [empty, bind, Except.bind, error, pure, Except.pure, eq_comm]
    | some error => simp [empty, bind, Except.bind, error]

structure Compatible (installed main : ContractData) : Prop where
  cards : ∀ issueId, cardContract installed issueId ≠ .null →
    (cardContract installed issueId).isDeepStrictEqual (cardContract main issueId) = true
  reviewOnly : ∀ issueId, reviewOnlyCard installed issueId ≠ .null →
    (reviewOnlyCard installed issueId).isDeepStrictEqual (reviewOnlyCard main issueId) = true
  accepted : ∀ card, (JsValue.object main.cards).hasOwn card = true →
    (JsValue.object installed.cards).hasOwn card = false → ∃ lane policy,
      laneContractOf (cardContract main (.string card)) = some lane ∧
        validateFixtureScopePolicy (some lane)
          (laneWithContract card (cardContract main (.string card))) = .ok policy

theorem KeepsCards.compatible {before after : ContractData} (keeps : KeepsCards before after)
    (added : ∀ entry ∈ after.cards, addedRefusal before after entry = none) :
    Compatible before after := by
  refine ⟨?_, ?_, ?_⟩
  · intro issueId isCard
    cases issueId with
    | string card =>
        simp only [cardContract] at isCard ⊢
        split at isCard
        case isFalse => exact absurd rfl isCard
        case isTrue present =>
          have kept := keeps.contract present
          rw [if_pos present, if_pos kept.1]
          exact kept.2
    | _ => exact absurd rfl isCard
  · intro issueId isCard
    cases issueId with
    | string card =>
        simp only [reviewOnlyCard] at isCard ⊢
        split at isCard
        case isFalse => exact absurd rfl isCard
        case isTrue present =>
          rw [if_pos present, if_pos ((keeps.reviewOnly_hasOwn card).trans present)]
          exact JsValue.get_of_isDeepStrictEqual keeps.reviewOnly card
    | _ => exact absurd rfl isCard
  · intro card present absent
    have new : NewCard after card ((JsValue.object after.cards).get card) :=
      .of_addedRefusal absent (added _ (JsValue.exists_entry_get present))
    simp only [cardContract, present, if_true]
    exact new.accepted

theorem loadContracts_of_contractChangeRefusal {installedText mainText : JsValue}
    {installed : ContractData}
    (passes : contractChangeRefusal round installedText mainText = none)
    (loads : loadContracts round installedText = .ok installed) :
    ∃ main, loadContracts round mainText = .ok main ∧ Compatible installed main := by
  rcases contractChangeRefusal_eq_none.mp passes with ⟨before, after, isBefore, isAfter, keeps, added⟩
  rcases (loadContracts_eq_ok isBefore).mp loads with ⟨finishRule, noError, same⟩
  subst same
  refine ⟨after, ?_, keeps.compatible added⟩
  rw [loadContracts_eq_ok isAfter]
  exact ⟨keeps.writerFinishRule ▸ finishRule, tablesError_of_keepsCards keeps added noError, rfl⟩

theorem loadContracts_of_contractChangeRefusal_appended :
    ∃ installed main,
      loadContracts .finite (textOf (contractsOf [js "SHU-1", js "SHU-2"])) = .ok installed ∧
      loadContracts .finite (textOf (contractsOf [js "SHU-1", js "SHU-2", js "SHU-3"])) =
          .ok main ∧
        Compatible installed main := by
  have loads : (loadContracts .finite
      (textOf (contractsOf [js "SHU-1", js "SHU-2"]))).toOption.isSome = true := by
    decide +kernel
  have passes : (contractChangeRefusal .finite (textOf (contractsOf [js "SHU-1", js "SHU-2"]))
      (textOf (contractsOf [js "SHU-1", js "SHU-2", js "SHU-3"]))).isNone = true := by
    decide +kernel
  cases loaded : loadContracts .finite (textOf (contractsOf [js "SHU-1", js "SHU-2"])) with
  | ok installed =>
      rcases loadContracts_of_contractChangeRefusal (Option.isNone_iff_eq_none.mp passes) loaded with
        ⟨main, isMain, compatible⟩
      exact ⟨installed, main, rfl, isMain, compatible⟩
  | error error => simp [loaded, Except.toOption] at loads

end Main

end StudentHub.CardInstall
