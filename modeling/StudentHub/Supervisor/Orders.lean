import StudentHub.Ecma.Canonical
import StudentHub.Ecma.Objects

/-!
# Work orders

A work order names an attempt at an issue, the repository and the branch it works on and
the commit it starts from. An order that does not pass these checks is bound to nothing.
-/

namespace StudentHub.Supervisor

open Ecma Ecma.Json JsString

structure SupervisorHost where
  sha256 : JsString → JsString
  sha256_length : ∀ text, (sha256 text).length = 64
  validWorkspaceScope : JsValue → Bool
  dates : DateParser

def SupervisorHost.ofDigests (digests : List (JsString × JsString)) : SupervisorHost where
  sha256 text :=
    let digest := (digests.lookup text).getD []
    if digest.length = 64 then digest else List.replicate 64 48
  sha256_length text := by
    dsimp only
    split
    · assumption
    · exact List.length_replicate
  validWorkspaceScope _ := true
  dates := .iso

def SUPERVISOR_PROTOCOL_VERSION : JsString := js "2.0.0"

def WORK_ORDER_VERSION : JsString := js "1.0.0"

def MAX_REQUEST_BYTES : ℕ := 64 * 1024

def ROLES : List JsString := [js "build", js "review", js "revise"]

def RUNTIMES : List JsString := [js "codex-cli", js "claude-code", js "hermes-pool"]

def RUNTIME_ROLE_SUPPORT (_runtime : JsString) : List JsString :=
  [js "build", js "revise", js "review"]

def HOLD_CODES : List JsString :=
  [js "BLOCKED_BY_APPROVED_WINDOW", js "AWAITING_VERDICT", js "MISSING_AUTHORITY",
    js "NO_ELIGIBLE_WORK", js "CAPACITY_FULL", js "AWAITING_LAUNCH", js "MISSING_CLAIM",
    js "MISSING_LAUNCH_RECEIPT", js "BRANCH_OCCUPIED", js "AMBIGUOUS_LAUNCH", js "STALE_HEAD",
    js "INELIGIBLE_VERDICT", js "REQUIRED_CHECKS_NOT_GREEN", js "BLOCKING_REVIEW_THREAD",
    js "EXPLICIT_HOLD", js "BRANCH_PROTECTION_UNSATISFIED", js "FORBIDDEN_MERGE_ACTION",
    js "AMBIGUOUS_GITHUB_RESPONSE", js "BASE_ADVANCED", js "TREE_MISMATCH",
    js "AMBIGUOUS_MERGE_RESPONSE"]

/-- The text of a property, as it is put into a template. -/
def textOf (value : JsValue) (name : JsString) : JsString := (value.get name).toText.getD []

def canonical (value : JsValue) : JsString := canonicalText value

/-- `/^[0-9a-f-]{36}$/i` -/
def isAttemptId (text : JsString) : Bool :=
  text.length = 36 && text.all fun unit => isHex unit || unit = 45

/-- `/^[0-9a-f]{8}-[0-9a-f]{4}-[0-9a-f]{4}-[0-9a-f]{4}-[0-9a-f]{12}$/i` -/
def isUuidShaped (text : JsString) : Bool :=
  let hex := List.replicate 4 isHex
  let dash := [fun unit : UInt16 => decide (unit = 45)]
  text.matchesClasses (hex ++ hex ++ dash ++ hex ++ dash ++ hex ++ dash ++ hex ++ dash ++ hex ++
    hex ++ hex)

/-- `/^[0-9a-f]{40}$/` -/
def isTargetSha (text : JsString) : Bool := text.length = 40 && text.all isLowerHex

/-- `/^[A-Za-z0-9-]+$/` -/
def isIssueId (text : JsString) : Bool :=
  text ≠ [] && text.all fun unit => isLetter unit || isDigit unit || unit = 45

/-- `/^[A-Za-z0-9_.-]+\/[A-Za-z0-9_.-]+$/` -/
def isRepo (text : JsString) : Bool :=
  let isName (name : JsString) : Bool :=
    name ≠ [] && name.all fun unit => isLetter unit || isDigit unit || unit ∈ js "_.-"
  match text.span (· ≠ 47) with
  | (owner, _ :: name) => isName owner && isName name
  | _ => false

/-- A branch name without `..` and `/[\x00-\x20~^:?*[\\]/`. -/
def isBranch (text : JsString) : Bool :=
  text ≠ [] && text.length ≤ 255 && !(js ".." <:+: text) &&
    text.all fun unit => 32 < unit && unit ∉ js "~^:?*[\\"

def hasText (value : JsValue) (name : JsString) (fits : JsString → Bool) : Bool :=
  match value.get name with
  | .string text => fits text
  | _ => false

def validWorkOrder (host : SupervisorHost) (order : JsValue) : Bool :=
  hasText order (js "version") (· = WORK_ORDER_VERSION) &&
  hasText order (js "role") (· ∈ ROLES) &&
  hasText order (js "runtime") (· ∈ RUNTIMES) &&
  hasText order (js "role") (· ∈ RUNTIME_ROLE_SUPPORT (textOf order (js "runtime"))) &&
  hasText order (js "issue_id") (· ≠ []) &&
  hasText order (js "attempt_id") isUuidShaped &&
  hasText order (js "target_sha") isTargetSha &&
  hasText order (js "authorization_ref") (· ≠ []) &&
  (if [js "workspace_scope", js "scope_phase", js "allowed_paths"].any fun field =>
      field ∈ order.entries.map Prod.fst then
    host.validWorkspaceScope order
  else
    true)

def validateBoundOrder (host : SupervisorHost) (order : JsValue) : Bool :=
  validWorkOrder host order &&
  hasText order (js "repo") isRepo &&
  hasText order (js "branch") isBranch &&
  (canonical order).toUtf8.byteLength ≤ MAX_REQUEST_BYTES / 2

def hasLaunchReceipt (receipt order : JsValue) : Bool :=
  (receipt.get (js "phase")).isText (js "launched") &&
  (receipt.get (js "attempt_id")).strictEq (order.get (js "attempt_id")) &&
  (receipt.get (js "issue_id")).strictEq (order.get (js "issue_id")) &&
  (receipt.get (js "target_sha")).strictEq (order.get (js "target_sha")) &&
  isPositiveInteger (receipt.get (js "pid")) &&
  hasText receipt (js "completion_token_hash") fun hash => hash.length = 64 && hash.all isLowerHex
where
  /-- `Number.isInteger(value) && value > 0` -/
  isPositiveInteger (value : JsValue) : Bool :=
    match value with
    | .number (.finite number) => number.integer?.any (0 < ·)
    | _ => false

theorem get_of_hasText {value : JsValue} {name : JsString} {fits : JsString → Bool}
    (holds : hasText value name fits = true) :
    value.get name = .string (textOf value name) ∧ fits (textOf value name) = true := by
  rw [hasText] at holds
  rw [textOf]
  cases found : value.get name with
  | string text =>
    rw [found] at holds
    exact ⟨rfl, holds⟩
  | _ => simp [found] at holds

theorem attemptId_of_valid {host : SupervisorHost} {order : JsValue}
    (valid : validateBoundOrder host order = true) :
    order.get (js "attempt_id") = .string (textOf order (js "attempt_id")) ∧
      (textOf order (js "attempt_id")).length = 36 := by
  simp only [validateBoundOrder, validWorkOrder, Bool.and_eq_true] at valid
  have named : hasText order (js "attempt_id") isUuidShaped = true := by tauto
  rcases get_of_hasText named with ⟨isText, shaped⟩
  exact ⟨isText, length_of_matchesClasses shaped⟩

theorem branch_of_valid {host : SupervisorHost} {order : JsValue}
    (valid : validateBoundOrder host order = true) :
    order.get (js "repo") = .string (textOf order (js "repo")) ∧
      order.get (js "branch") = .string (textOf order (js "branch")) := by
  simp only [validateBoundOrder, Bool.and_eq_true] at valid
  exact ⟨(get_of_hasText valid.1.1.2).1, (get_of_hasText valid.1.2).1⟩

theorem target_of_valid {host : SupervisorHost} {order : JsValue}
    (valid : validateBoundOrder host order = true) :
    order.get (js "target_sha") = .string (textOf order (js "target_sha")) := by
  simp only [validateBoundOrder, validWorkOrder, Bool.and_eq_true] at valid
  exact (get_of_hasText valid.1.1.1.1.1.2).1

theorem issue_of_valid {host : SupervisorHost} {order : JsValue}
    (valid : validateBoundOrder host order = true) :
    order.get (js "issue_id") = .string (textOf order (js "issue_id")) := by
  simp only [validateBoundOrder, validWorkOrder, Bool.and_eq_true] at valid
  have named : hasText order (js "issue_id") (· ≠ []) = true := by tauto
  exact (get_of_hasText named).1

end StudentHub.Supervisor
