import StudentHub.Coordinator.Vocabulary

/-!
# Workspace scopes

What part of a tree an attempt may work on: all of it, a list of exact paths, or the whole
tree with a list of paths that it may change. The contracts of the lanes are a table; its
rows are checked once when they are loaded.
-/

namespace StudentHub.Coordinator

open Ecma JsString

inductive ScopeRefusal
  | unknownScope
  | unknownPhase
  | invalidScopedBase
  | missingScopedBase
  | unexpectedScopedBase
  | reviewSubset
  | fullSubset
  | noPaths
  | unsafePath
  | duplicatePath
  | ownedPath
  | unknownMode
  | unknownIssue
  | cardWithDefect
  | differsFromContract
  | differentMode
  | differentDefect
  | defectInInitialPaths
  | defectNotInRevisionPaths
  deriving DecidableEq

/-- `/^[0-9a-f]{40}$/.test(value)`, which makes a string of the value. -/
def isSha (value : JsValue) : Bool := value.toText.any Supervisor.isTargetSha

theorem sha_notMem {text : JsString} (isSha : Supervisor.isTargetSha text = true) {unit : UInt16}
    (noHex : isLowerHex unit = false) : unit ∉ text := by
  simp only [Supervisor.isTargetSha, Bool.and_eq_true, List.all_eq_true] at isSha
  intro unitMem
  rw [isSha.2 unit unitMem] at noHex
  cases noHex

theorem isTargetSha_text (number : FiniteNumber) : Supervisor.isTargetSha number.text = false := by
  by_contra isSha
  rw [Bool.not_eq_false] at isSha
  have long : number.text.length = 40 := by
    simp only [Supervisor.isTargetSha, Bool.and_eq_true, decide_eq_true_eq] at isSha
    exact isSha.1
  have minus := @sha_notMem _ isSha 45 (by decide)
  have point := @sha_notMem _ isSha 46 (by decide)
  have plus := @sha_notMem _ isSha 43 (by decide)
  simp only [FiniteNumber.text] at long minus point plus
  split_ifs at long minus point plus with plain negative
  · exact minus (by simp [js, codeUnits])
  · simp only [FiniteNumber.plainText] at long point
    split_ifs at long point
    · simp only [List.length_append, List.length_replicate, List.length_nil] at long
      omega
    · exact point (by simp)
    · exact point (by simp [js, codeUnits])
  all_goals simp [js, codeUnits] at minus plus

def REPO_MODE_REFUSED_PATHS : List JsString :=
  [js "package-lock.json", js ".npmrc", js "node_modules", js ".github"]

/-- The parts of `path.split("/")`. -/
def pathParts (path : JsString) : List JsString := path.splitOn 47

/-- The tests of one path. A path without empty parts and without `.` and `..` is what
`path.posix.normalize` makes of it, and is not absolute. -/
def isExactPath (path : JsString) : Bool :=
  path ≠ [] && !path.contains 0 && !path.contains 92 &&
  (pathParts path).all (fun part =>
    part ≠ [] && part ≠ js "." && part ≠ js ".." && toLowerCase part ≠ js ".git") &&
  path.all fun unit => unit ∉ js "*?[]\x7b\x7d!"

def checkPaths (seen : List JsString) : List JsValue → Except ScopeRefusal (List JsString)
  | [] => .ok []
  | .string path :: rest =>
      if !isExactPath path then
        .error .unsafePath
      else if path ∈ seen then
        .error .duplicatePath
      else do
        return path :: (← checkPaths (path :: seen) rest)
  | _ :: _ => .error .unsafePath

def validateAllowedPaths (value : JsValue) : Except ScopeRefusal (List JsString) :=
  match value with
  | .array [] => .error .noPaths
  | .array entries => checkPaths [] entries
  | _ => .error .noPaths

def validateRepoModePaths (paths : List JsString) : Except ScopeRefusal (List JsString) :=
  if paths.any fun path => REPO_MODE_REFUSED_PATHS.any fun owned =>
      path = owned || (owned ++ [47]).isPrefixOf path then
    .error .ownedPath
  else
    .ok paths

/-- `WORKSPACE_SCOPE_FIELDS` of an order or a receipt; an absent base is null. -/
structure WorkspaceFields where
  workspaceScope : JsValue
  scopePhase : JsValue
  allowedPaths : JsValue
  scopedBaseSha : JsValue

def validateWorkspaceScope (fields : WorkspaceFields) (requireScopedBase : Bool) :
    Except ScopeRefusal (List JsString) :=
  let scopeIs (text : JsString) : Bool := fields.workspaceScope.isText text
  let phaseIs (text : JsString) : Bool := fields.scopePhase.isText text
  let noBase : Bool := fields.scopedBaseSha.strictEq .null
  let noPaths : Bool := fields.allowedPaths.items?.any List.isEmpty
  if !(scopeIs (js "scoped") || scopeIs (js "full") || scopeIs (js "repo")) then
    .error .unknownScope
  else if !(phaseIs (js "initial") || phaseIs (js "revision") || phaseIs (js "review")) then
    .error .unknownPhase
  else if scopeIs (js "scoped") && !noBase && !isSha fields.scopedBaseSha then
    .error .invalidScopedBase
  else if scopeIs (js "scoped") && requireScopedBase &&
      !isSha (fields.scopedBaseSha.orElse (.string [])) then
    .error .missingScopedBase
  else if (scopeIs (js "full") || scopeIs (js "repo")) && !noBase then
    .error .unexpectedScopedBase
  else if phaseIs (js "review") then
    if scopeIs (js "full") && noPaths then .ok [] else .error .reviewSubset
  else if scopeIs (js "full") then
    if noPaths then .ok [] else .error .fullSubset
  else
    match validateAllowedPaths fields.allowedPaths with
    | .error refusal => .error refusal
    | .ok paths => if scopeIs (js "repo") then validateRepoModePaths paths else .ok paths

theorem items_of_checkPaths {seen : List JsString} {items : List JsValue} {paths : List JsString}
    (checked : checkPaths seen items = .ok paths) : items = paths.map .string := by
  induction items generalizing seen paths with
  | nil =>
      cases checked
      rfl
  | cons item items ih =>
      cases item with
      | string path =>
          rw [checkPaths] at checked
          split_ifs at checked
          cases rest : checkPaths (path :: seen) items with
          | error refusal =>
              rw [rest] at checked
              cases checked
          | ok found =>
              rw [rest] at checked
              cases checked
              rw [ih rest, List.map_cons]
      | _ => cases checked

theorem items_of_validateAllowedPaths {value : JsValue} {paths : List JsString}
    (valid : validateAllowedPaths value = .ok paths) : value = .array (paths.map .string) := by
  unfold validateAllowedPaths at valid
  split at valid
  · cases valid
  · rw [items_of_checkPaths valid]
  · cases valid

theorem validateWorkspaceScope_texts {fields : WorkspaceFields} {required : Bool}
    {paths : List JsString} (accepted : validateWorkspaceScope fields required = .ok paths) :
    (∃ scope, fields.workspaceScope = .string scope) ∧ ∃ phase, fields.scopePhase = .string phase := by
  simp only [validateWorkspaceScope] at accepted
  split at accepted
  case isTrue => cases accepted
  case isFalse known =>
    split at accepted
    case isTrue => cases accepted
    case isFalse phased =>
      simp only [Bool.not_eq_true', Bool.not_eq_false, Bool.or_eq_true, JsValue.isText_iff] at known phased
      refine ⟨?_, ?_⟩
      · rcases known with (isScope | isScope) | isScope <;> exact ⟨_, isScope⟩
      · rcases phased with (isPhase | isPhase) | isPhase <;> exact ⟨_, isPhase⟩

theorem allowedPaths_of_validateWorkspaceScope {fields : WorkspaceFields} {required : Bool}
    {paths : List JsString} (accepted : validateWorkspaceScope fields required = .ok paths) :
    ∃ texts : List JsString, fields.allowedPaths = .array (texts.map .string) := by
  have empty : (fields.allowedPaths.items?.any List.isEmpty) = true → ∃ texts : List JsString,
      fields.allowedPaths = .array (texts.map .string) := by
    intro noPaths
    cases value : fields.allowedPaths with
    | array items =>
        rw [value] at noPaths
        have none : items = [] := by simpa [JsValue.items?] using noPaths
        exact ⟨[], by rw [none, List.map_nil]⟩
    | _ => simp [value, JsValue.items?] at noPaths
  simp only [validateWorkspaceScope] at accepted
  split_ifs at accepted
  case pos bothFull =>
    rw [Bool.and_eq_true] at bothFull
    exact empty bothFull.2
  case pos noPaths => exact empty noPaths
  all_goals
    split at accepted
    · cases accepted
    · exact ⟨_, items_of_validateAllowedPaths ‹_›⟩

structure LaneContract where
  initialBuildPaths : List JsString
  revisionPaths : List JsString
  seededDefectPath : Option JsString
  workspaceMode : Option JsValue

structure FixtureLane where
  id : JsValue
  initialBuildPaths : Option JsValue
  revisionPaths : Option JsValue
  seededDefectPath : Option JsValue
  workspaceMode : Option JsValue

def pathsValue (paths : List JsString) : JsValue := .array (paths.map .string)

def validateCardContractMode (contract : LaneContract) : Except ScopeRefusal JsString := do
  match contract.workspaceMode with
  | none => return js "scoped"
  | some mode =>
      if !mode.isText (js "repo") then
        throw .unknownMode
      let initial ← validateAllowedPaths (pathsValue contract.initialBuildPaths)
      let _ ← validateRepoModePaths initial
      let revision ← validateAllowedPaths (pathsValue contract.revisionPaths)
      let _ ← validateRepoModePaths revision
      return js "repo"

structure ScopePolicy where
  workspaceScope : JsString
  initialBuildPaths : List JsString
  revisionPaths : List JsString

def fixtureScopeConfigured (fixture : FixtureLane) : Bool :=
  fixture.initialBuildPaths.isSome || fixture.revisionPaths.isSome || fixture.seededDefectPath.isSome

def validateFixtureScopePolicy (contract : Option LaneContract) (fixture : FixtureLane) :
    Except ScopeRefusal ScopePolicy :=
  match contract with
  | none => .error .unknownIssue
  | some contract => do
      let initial ← validateAllowedPaths (fixture.initialBuildPaths.getD .undefined)
      let revision ← validateAllowedPaths (fixture.revisionPaths.getD .undefined)
      -- Two arrays of strings have the same JSON text only if they are the same.
      let differs := initial ≠ contract.initialBuildPaths ∨ revision ≠ contract.revisionPaths
      match contract.seededDefectPath with
      | none =>
          if fixture.seededDefectPath.isSome then
            throw .cardWithDefect
          if differs then
            throw .differsFromContract
          let mode ← validateCardContractMode contract
          if fixture.workspaceMode.any fun stated =>
              !stated.strictEq (contract.workspaceMode.getD .undefined) then
            throw .differentMode
          return ⟨mode, initial, revision⟩
      | some defect =>
          if !(fixture.seededDefectPath.getD .undefined).isText defect then
            throw .differentDefect
          if defect ∈ initial then
            throw .defectInInitialPaths
          if defect ∉ revision then
            throw .defectNotInRevisionPaths
          if differs then
            throw .differsFromContract
          return ⟨js "scoped", initial, revision⟩

def successorWorkspaceScope (laneContract : JsString → Option LaneContract) (role : Role)
    (fixtureLane : Option FixtureLane) : Except ScopeRefusal WorkspaceFields :=
  match role with
  | .review => .ok ⟨.string (js "full"), .string (js "review"), .array [], .null⟩
  | _ =>
      match fixtureLane with
      | none => .ok ⟨.string (js "full"), .string (js "revision"), .array [], .null⟩
      | some fixture =>
          if fixtureScopeConfigured fixture then do
            let contract := match fixture.id with
              | .string issueId => laneContract issueId
              | _ => none
            let policy ← validateFixtureScopePolicy contract fixture
            return ⟨.string policy.workspaceScope, .string (js "revision"),
              pathsValue policy.revisionPaths, .null⟩
          else
            .ok ⟨.string (js "full"), .string (js "revision"), .array [], .null⟩

end StudentHub.Coordinator
