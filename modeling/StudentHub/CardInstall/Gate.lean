import StudentHub.Coordinator.Scope
import StudentHub.Ecma.JsonParse

/-!
# The gate of self installs

What a host installs by itself is decided from facts that are read elsewhere: the two
configurations, the changed files with their blobs, the reviews that passed and the checks
of main. A fact may be missing or of any shape. The texts of the reasons are told apart and
not written out.
-/

namespace StudentHub.CardInstall

open Ecma JsString Coordinator

def COORDINATOR : JsString := js ".github/coordinator/"

def CONFIG_PATH : JsString := js ".github/coordinator/config.json"

def CONTRACTS_PATH : JsString := js ".github/coordinator/card-contracts.json"

def CONTRACTS_SOURCE_PATH : JsString := js ".github/coordinator/card-contracts.mjs"

def INVENTORY_PATH : JsString := js ".github/coordinator/service/suite-inventory.json"

def INSTALLABLE_PATHS : List JsString :=
  [CONFIG_PATH, CONTRACTS_PATH, CONTRACTS_SOURCE_PATH, INVENTORY_PATH]

def RUNTIME_TEST_MODULES : List JsString :=
  [js ".github/coordinator/test/fixture/episode-harness.mjs",
    js ".github/coordinator/test/fixture/linear-board.mjs"]

def PROVISIONER : JsString := js ".github/coordinator/service/provision-shu71-prerequisites.mjs"

def OWNER_ONLY_PATHS : List JsString :=
  [PROVISIONER,
    js ".github/coordinator/service/card-install.mjs",
    js ".github/coordinator/service/install.mjs",
    js ".github/coordinator/service/units.mjs",
    js ".github/coordinator/service/credential-delivery.mjs",
    js ".github/coordinator/service/disposable-suite.mjs",
    js ".github/coordinator/service/host-suite-contract.mjs",
    js ".github/coordinator/service/shu71-journal.mjs",
    js ".github/coordinator/service/shu71-production.mjs",
    js ".github/coordinator/service/shu71-runtime-schema.mjs",
    js ".github/coordinator/service/shu71-runtime.mjs",
    js ".github/coordinator/service/suite-runner-spec.mjs",
    js ".github/coordinator/execution-authorization.mjs",
    js ".github/coordinator/launch-vocabulary.mjs",
    js ".github/coordinator/reseed-append-contract.mjs",
    js ".github/coordinator/shu71-activation-package.mjs",
    js ".github/coordinator/workspace-scope.mjs",
    js ".github/coordinator/card-contracts-reader.mjs"] ++
  RUNTIME_TEST_MODULES ++
  [js ".github/coordinator/service/shu-reviewer.sudoers",
    js ".github/coordinator/reviewer-sandbox.sh",
    js ".github/coordinator/shu71-trust-anchor.json",
    js ".github/coordinator/shu71-activation-public-key.pem",
    js ".github/coordinator/shu71-public-key.mjs"]

def OWNER_ONLY_PREFIXES : List JsString := [js ".github/coordinator/service/userns-profile/"]

def OWNER_ONLY_SUFFIXES : List JsString :=
  [js ".sh", js ".sudoers", js ".service.in", js ".timer.in", js ".pem"]

/-- A file of the coordinator none of whose parts is empty, `.` or `..`. -/
def coordinatorFile (file : JsValue) : Bool :=
  match file with
  | .string file => COORDINATOR.isPrefixOf file &&
      !(pathParts file).any fun part => part = [] || part = js "." || part = js ".."
  | _ => false

def installablePath (file : JsValue) : Bool :=
  match file with
  | .string path =>
      if !COORDINATOR.isPrefixOf path || RUNTIME_TEST_MODULES.contains path then
        false
      else if (pathParts path).any fun part => part = [] || part = js "." || part = js ".." then
        false
      else
        INSTALLABLE_PATHS.contains path || ((pathParts path).drop 2).dropLast.contains (js "test")
  | _ => false

def ownerOnlyPath (file : JsValue) : Bool :=
  match file with
  | .string path =>
      !installablePath file &&
        (OWNER_ONLY_PATHS.contains path ||
          OWNER_ONLY_PREFIXES.any (fun start => start.isPrefixOf path) ||
          OWNER_ONLY_SUFFIXES.any fun ending => ending.isSuffixOf path)
  | _ => false

def MIN_INSTALL_QUEUE : ℕ := 2

def MAX_CARD_QUEUE : ℕ := 60

def MAX_CARD_WORKERS : ℤ := 8

def CODE_SELF_INSTALL_KEY : JsString := js "code_self_install"

/-- `/^SHU-[1-9]\d*$/` -/
def isCardId (text : JsString) : Bool :=
  (js "SHU-").isPrefixOf text &&
    match text.drop 4 with
    | [] => false
    | first :: rest => isDigit first && first ≠ 48 && rest.all isDigit

/-- `/^[A-Za-z0-9](?:[A-Za-z0-9-]{0,38})$/` -/
def isLogin (text : JsString) : Bool :=
  match text with
  | [] => false
  | first :: rest => (isLetter first || isDigit first) && rest.length ≤ 38 &&
      rest.all fun unit => isLetter unit || isDigit unit || unit = 45

def keysOf (value : JsValue) : List JsString := value.entries.map Prod.fst

inductive PolicyApproval
  | unattended
  | githubReview
  deriving DecidableEq

/-- Who approves code: one of some logins, or with `"none"` nobody. -/
structure CodeInstallPolicy where
  approval : PolicyApproval
  approvers : List JsString

def login? : JsValue → Option JsString
  | .string login => if isLogin login then some login else none
  | _ => none

def codeInstallPolicy (config : JsValue) : Option CodeInstallPolicy :=
  let policy := config.get CODE_SELF_INSTALL_KEY
  let approval := policy.get (js "approval")
  if !policy.isPlainObject then
    none
  else if approval.isText (js "none") && (keysOf policy).length = 1 then
    some ⟨.unattended, []⟩
  else if approval.isText (js "github_review") &&
      sortTexts (keysOf policy) = [js "approval", js "approvers"] then
    match policy.get (js "approvers") with
    | .array [] => none
    | .array approvers => (approvers.mapM login?).map (CodeInstallPolicy.mk .githubReview)
    | _ => none
  else
    none

/-- A plain object with `max` alone, a whole number of workers. -/
def workersSetting (workers : JsValue) : Bool :=
  workers.isPlainObject && keysOf workers = [js "max"] &&
    match workers.get (js "max") with
    | .number (.finite max) => max.integer?.any fun count => 1 ≤ count && count ≤ MAX_CARD_WORKERS
    | _ => false

inductive ContractRefusal
  | notContractsData
  | changesReviewOnly
  | changesFinishRule
  | removes (card : JsString)
  | changes (card : JsString)
  | notNewCardId (card : JsString)
  | fixtureLane (card : JsString)
  | notCardContract (card : JsString)
  | scope (card : JsString) (refusal : ScopeRefusal)

structure ContractData where
  cards : List (JsString × JsValue)
  reviewOnly : JsValue
  writerFinishRule : JsString

def CONTRACT_KEYS : List JsString :=
  [js "initial_build_paths", js "revision_paths", js "acceptance", js "brief",
    js "workspace_mode"]

/-- The lanes of `FIXTURE_CONTRACTS`. -/
def isFixtureIssue (card : JsString) : Bool := card = js "SHU-140" || card = js "SHU-254"

def pathList (value : JsValue) : Bool :=
  match value with
  | .array [] => false
  | .array entries => entries.all fun entry =>
      match entry with
      | .string path => path ≠ []
      | _ => false
  | _ => false

def isFilled : JsValue → Bool
  | .string text => text ≠ []
  | _ => false

def keptRefusal (after : ContractData) (entry : JsString × JsValue) : Option ContractRefusal :=
  let cards := JsValue.object after.cards
  if !cards.hasOwn entry.1 then
    some (.removes entry.1)
  else if !entry.2.isDeepStrictEqual (cards.get entry.1) then
    some (.changes entry.1)
  else
    none

/-- `validateCardContractMode` of a contract as it was parsed. -/
def validateParsedContractMode (contract : JsValue) : Except ScopeRefusal JsString :=
  if !contract.hasOwn (js "workspace_mode") then
    return js "scoped"
  else if !(contract.get (js "workspace_mode")).isText (js "repo") then
    throw .unknownMode
  else do
    let initial ← validateAllowedPaths (contract.get (js "initial_build_paths"))
    let _ ← validateRepoModePaths initial
    let revision ← validateAllowedPaths (contract.get (js "revision_paths"))
    let _ ← validateRepoModePaths revision
    return js "repo"

/-- The checks of `workspace-scope.mjs` on a new card. -/
def newScope (contract : JsValue) : Except ScopeRefusal JsString := do
  let _ ← validateAllowedPaths (contract.get (js "initial_build_paths"))
  let _ ← validateAllowedPaths (contract.get (js "revision_paths"))
  validateParsedContractMode contract

def addedRefusal (before after : ContractData) (entry : JsString × JsValue) :
    Option ContractRefusal :=
  let (card, contract) := entry
  if (JsValue.object before.cards).hasOwn card then
    none
  else if !isCardId card || after.reviewOnly.hasOwn card then
    some (.notNewCardId card)
  else if isFixtureIssue card then
    some (.fixtureLane card)
  else if !contract.isPlainObject || (keysOf contract).any (fun key => key ∉ CONTRACT_KEYS) ||
      !pathList (contract.get (js "initial_build_paths")) ||
      !pathList (contract.get (js "revision_paths")) ||
      !isFilled (contract.get (js "acceptance")) || !isFilled (contract.get (js "brief")) then
    some (.notCardContract card)
  else
    match newScope contract with
    | .ok _ => none
    | .error refusal => some (.scope card refusal)

inductive GateReason
  | notFullSha
  | mainInstalled
  | mainDoesNotDescend
  | installedConfigUnread
  | mainConfigNotObject
  | noNewScope
  | changesUnread
  | notQueueConfigPath (path : JsValue)
  | notCoordinatorPath (path : JsValue)
  | ownerOnly (path : JsValue)
  | changedAs (path status : JsValue)
  | contractsNotEdited
  | contracts (refusal : ContractRefusal)
  | configChanges (key : JsString)
  | lanesNotAppended
  | appendedLaneId
  | scopeNotPlain
  | queueSize
  | neitherAppendedNorInstalled (card : JsValue)
  | firstNotAppended
  | landedNotIterable
  | alreadyLanded (card : JsValue)
  | contractsUnread
  | noContractAdded (card : JsValue)
  | noContract (card : JsValue)
  | noBlob (path : JsValue)
  | notReviewed
  | approvalUnread
  | waitsOnApproval
  | checksRed
  | checksNotGreen

structure WantedApproval where
  pr : JsValue
  head : JsValue
  approvers : List JsString

structure Refusal where
  reason : GateReason
  isTransient : Bool
  quiet : Bool
  needs : Option WantedApproval

def no (reason : GateReason) : Refusal := ⟨reason, false, false, none⟩

def quietly (reason : GateReason) : Refusal := ⟨reason, false, true, none⟩

def later (reason : GateReason) : Refusal := ⟨reason, true, false, none⟩

structure Approval where
  pr : JsValue
  head : JsValue
  approvedBy : JsValue

structure CodeInstall where
  paths : List JsValue
  approval : Option Approval

structure Admission where
  queue : Option (List JsValue)
  lanes : List JsValue
  append : Bool
  code : Option CodeInstall

def expect (check : Bool) (refusal : Refusal) : Except Refusal Unit :=
  if check then .ok () else .error refusal

/-- Go on if nothing is refused. -/
def pass (refusal : Option Refusal) : Except Refusal Unit :=
  match refusal with
  | none => .ok ()
  | some refusal => .error refusal

section Gate

variable (round : FiniteNumber → JsNumber)

/-- `JSON.parse`, undefined where it throws. -/
def parse (text : JsValue) : JsValue := (text.toText.bind (Json.parse round)).getD .undefined

def contractData (text : JsValue) : Option ContractData :=
  let data := parse round text
  if data.isPlainObject && sortTexts (keysOf data) =
      [js "cards", js "review_only", js "writer_finish_rule"] then
    match data.get (js "cards"), data.get (js "review_only"),
        data.get (js "writer_finish_rule") with
    | .object cards, .object reviewOnly, .string rule => some ⟨cards, .object reviewOnly, rule⟩
    | _, _, _ => none
  else
    none

def contractEntries (text : JsValue) : Option (List JsString) :=
  (contractData round text).map fun data => data.cards.map Prod.fst

def contractChangeRefusal (installedText mainText : JsValue) : Option ContractRefusal :=
  match contractData round installedText, contractData round mainText with
  | some before, some after =>
      if !before.reviewOnly.isDeepStrictEqual after.reviewOnly then
        some .changesReviewOnly
      else if before.writerFinishRule ≠ after.writerFinishRule then
        some .changesFinishRule
      else
        (before.cards.findSome? (keptRefusal after)).or
          (after.cards.findSome? (addedRefusal before after))
  | _, _ => some .notContractsData

def pathOf (change : JsValue) : JsValue := change.get (js "path")

def changeRefusal (policy : Option CodeInstallPolicy) (change : JsValue) : Option Refusal :=
  let path := pathOf change
  let status := change.get (js "status")
  if !installablePath path && policy.isNone then
    some (no (.notQueueConfigPath path))
  else if !installablePath path && !coordinatorFile path then
    some (no (.notCoordinatorPath path))
  else if ownerOnlyPath path then
    some (no (.ownerOnly path))
  else if !status.isText (js "A") && !status.isText (js "M") then
    some (no (.changedAs path status))
  else
    none

def contractsRefusal (facts : JsValue) (changes : List JsValue) : Option Refusal :=
  let texts := facts.get (js "contractTexts")
  match changes.find? fun change => (pathOf change).isText CONTRACTS_PATH with
  | none => none
  | some contracts =>
      if (contracts.get (js "status")).isText (js "M") then
        (contractChangeRefusal round (texts.get (js "installed")) (texts.get (js "main"))).map
          fun refusal => no (.contracts refusal)
      else
        some (no .contractsNotEdited)

def keyRefusal (installed next : JsValue) (policy : Option CodeInstallPolicy) (key : JsString) :
    Option Refusal :=
  if key = js "dispatch_scope" || key = js "card_lanes" then
    none
  else if key = js "workers" && policy.isSome && workersSetting (next.get (js "workers")) then
    none
  else if installed.hasOwn key && next.hasOwn key &&
      (installed.get key).isDeepStrictEqual (next.get key) then
    none
  else
    some (no (.configChanges key))

def configRefusal (installed next : JsValue) (policy : Option CodeInstallPolicy) :
    Option Refusal :=
  (keysOf installed ++ keysOf next).findSome? (keyRefusal installed next policy)

/-- `before.every((lane, i) => isDeepStrictEqual(lane, after[i]))` -/
def keepsLanes (before after : List JsValue) : Bool :=
  before.zipIdx.all fun lane => lane.1.isDeepStrictEqual (after.getD lane.2 .undefined)

def appendedLanes (installed next : JsValue) (more : ℕ) :
    Except Refusal (List JsValue × List JsValue) :=
  match installed.get (js "card_lanes"), next.get (js "card_lanes") with
  | .array before, .array after =>
      if before.length + more ≤ after.length && keepsLanes before after then
        .ok (before, after)
      else
        .error (no .lanesNotAppended)
  | _, _ => .error (no .lanesNotAppended)

/-- `object[path]` of a path. -/
def entryOf (object path : JsValue) : JsValue :=
  match path with
  | .string path => object.get path
  | _ => .undefined

def recordsBlobs (facts : JsValue) (changes : List JsValue) (entry : JsValue) : Bool :=
  changes.all fun change =>
    ((entryOf (entry.get (js "files")) (pathOf change)).get (js "sha")).strictEq
      (entryOf (facts.get (js "blobs")) (pathOf change))

def blobRefusal (facts change : JsValue) : Option Refusal :=
  if isSha ((entryOf (facts.get (js "blobs")) (pathOf change)).orElse (.string [])) then
    none
  else
    some (no (.noBlob (pathOf change)))

def readAt (facts review : JsValue) : Bool :=
  let read := facts.get (js "approval")
  read.truthy && (read.get (js "pr")).strictEq (review.get (js "pr")) &&
    (read.get (js "head")).strictEq (review.get (js "head"))

def approvalOf (facts : JsValue) (code : List JsValue) (policy : Option CodeInstallPolicy)
    (review : JsValue) : Except Refusal (Option Approval) :=
  let read := facts.get (js "approval")
  let pr := review.get (js "pr")
  let head := review.get (js "head")
  if code = [] then
    .ok none
  else
    match policy with
    | some ⟨.githubReview, approvers⟩ =>
        let wanted : WantedApproval := ⟨pr, head, approvers⟩
        if !readAt facts review then
          .error ⟨.approvalUnread, true, false, some wanted⟩
        else if !(read.get (js "approved")).strictEq (.boolean true) then
          .error ⟨.waitsOnApproval, true, false, some wanted⟩
        else
          .ok (some ⟨pr, head, read.get (js "by")⟩)
    | _ => .ok (some ⟨pr, head, .null⟩)

def checksRefusal (facts : JsValue) : Option Refusal :=
  let checks := facts.get (js "checks")
  match checks.get (js "red") with
  | .array (_ :: _) => some (no .checksRed)
  | _ =>
      if (checks.get (js "green")).strictEq (.boolean true) then
        none
      else
        some (later .checksNotGreen)

def passesOf (facts : JsValue) : List JsValue := ((facts.get (js "passes")).items?).getD []

/-- One review that passed covers every changed blob; code needs the approval of the policy at
the head of that review as well. -/
def reviewedAndGreen (facts : JsValue) (changes code : List JsValue)
    (policy : Option CodeInstallPolicy) : Except Refusal (Option Approval) := do
  pass (changes.findSome? (blobRefusal facts))
  match (passesOf facts).find? (recordsBlobs facts changes) with
  | none => .error (no .notReviewed)
  | some review =>
      let approval ← approvalOf facts code policy review
      pass (checksRefusal facts)
      return approval

/-- `new Set(items).has(value)` -/
def includes (items : List JsValue) (value : JsValue) : Bool := items.any value.sameValueZero

/-- `new Set(items).size === items.length` -/
def distinct : List JsValue → Bool
  | [] => true
  | first :: rest => !includes rest first && distinct rest

def isCardIdValue : JsValue → Bool
  | .string text => isCardId text
  | _ => false

def hasContract (contracts : List JsString) : JsValue → Bool
  | .string card => card ∈ contracts
  | _ => false

def appendsQueue (prior : JsValue) (cards : List JsValue) : Bool :=
  match prior with
  | .array [] => false
  | .array prior => prior.length < cards.length &&
      prior.zipIdx.all fun card => (cards.getD card.2 .undefined).strictEq card.1
  | _ => false

def contractRefusal (added : List JsValue) (installedContracts nextContracts : List JsString)
    (card : JsValue) : Option Refusal :=
  if includes added card && (hasContract installedContracts card ||
      !hasContract nextContracts card) then
    some (no (.noContractAdded card))
  else if !includes added card && !hasContract nextContracts card then
    some (no (.noContract card))
  else
    none

/-- The new queue of `dispatch_scope`, the ids of the lanes that are added, and whether the
installed queue goes on. -/
def queueOf (facts installed next : JsValue) (before after : List JsValue) :
    Except Refusal (List JsValue × List JsValue × Bool) := do
  let added := (after.drop before.length).map fun lane => lane.get (js "id")
  let known := before.map fun lane => lane.get (js "id")
  expect (!(added.any fun card => !isCardIdValue card || includes known card) && distinct added)
    (no .appendedLaneId)
  let scope := next.get (js "dispatch_scope")
  match scope.get (js "issue_ids") with
  | .array cards => do
      expect (scope.isPlainObject && keysOf scope = [js "issue_ids"]) (no .scopeNotPlain)
      expect (MIN_INSTALL_QUEUE ≤ cards.length && cards.length ≤ MAX_CARD_QUEUE && distinct cards)
        (no .queueSize)
      let prior := (installed.get (js "dispatch_scope")).get (js "issue_ids")
      let append := appendsQueue prior cards
      pass (cards.findSome? fun card =>
        if includes added card || includes known card then
          none
        else
          some (no (.neitherAppendedNorInstalled card)))
      expect (append || includes added (cards.headD .undefined)) (no .firstNotAppended)
      match ((facts.get (js "landed")).orElse (.array [])).iterated with
      -- `new Set` throws a `TypeError`.
      | none => .error (no .landedNotIterable)
      | some landed => do
          pass (cards.findSome? fun card =>
            if includes landed card && !(append && includes (prior.items?.getD []) card) then
              some (no (.alreadyLanded card))
            else
              none)
          let texts := facts.get (js "contractTexts")
          match contractEntries round (texts.get (js "installed")),
              contractEntries round (texts.get (js "main")) with
          | some installedContracts, some nextContracts => do
              pass (cards.findSome? (contractRefusal added installedContracts nextContracts))
              return (cards, added, append)
          | _, _ => .error (no .contractsUnread)
  | _ => .error (no .scopeNotPlain)

def queueGate (facts installed next : JsValue) (changes code : List JsValue)
    (policy : Option CodeInstallPolicy) : Except Refusal Admission := do
  let (before, after) ← appendedLanes installed next 1
  let (cards, added, append) ← queueOf round facts installed next before after
  let approval ← reviewedAndGreen facts changes code policy
  return {
    queue := some cards
    lanes := added
    append := append
    code := if code = [] then none else some ⟨code.map pathOf, approval⟩ }

def codeGate (facts : JsValue) (changes code : List JsValue)
    (policy : Option CodeInstallPolicy) : Except Refusal Admission := do
  let approval ← reviewedAndGreen facts changes code policy
  return {
    queue := none
    lanes := []
    append := false
    code := some ⟨code.map pathOf, approval⟩ }

def selfInstallGate (facts : JsValue) : Except Refusal Admission := do
  let revision := facts.get (js "revision")
  let main := facts.get (js "main")
  expect (isSha (revision.orElse (.string [])) && isSha (main.orElse (.string [])))
    (later .notFullSha)
  expect (!main.strictEq revision) (quietly .mainInstalled)
  expect ((facts.get (js "descends")).strictEq (.boolean true)) (no .mainDoesNotDescend)
  let installed := parse round ((facts.get (js "configs")).get (js "installed"))
  let next := parse round ((facts.get (js "configs")).get (js "main"))
  expect installed.isPlainObject (later .installedConfigUnread)
  expect next.isPlainObject (no .mainConfigNotObject)
  let changed (key : JsString) : Bool := !(installed.get key).isDeepStrictEqual (next.get key)
  let policy := codeInstallPolicy installed
  let changes := ((facts.get (js "changes")).items?).getD []
  let code := changes.filter fun change => !installablePath (pathOf change)
  expect (changed (js "dispatch_scope") ||
    policy.isSome && (code ≠ [] || changed (js "workers"))) (quietly .noNewScope)
  expect (changes ≠ []) (later .changesUnread)
  pass (changes.findSome? (changeRefusal policy))
  pass (contractsRefusal round facts changes)
  pass (configRefusal installed next policy)
  if changed (js "dispatch_scope") then
    queueGate round facts installed next changes code policy
  else do
    let _ ← appendedLanes installed next 0
    codeGate facts changes code policy

end Gate

end StudentHub.CardInstall
