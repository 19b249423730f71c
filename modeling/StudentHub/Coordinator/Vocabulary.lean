import StudentHub.Supervisor.Orders

/-!
# Launch vocabulary

Roles, runtimes and the lanes that launch a runtime in a role. A lane has a role of its own
and a list of roles that it may execute; which lanes may review is derived from what their
runtimes support.
-/

namespace StudentHub.Coordinator

open Ecma JsString

inductive Role
  | build
  | review
  | revise
  deriving DecidableEq

inductive Runtime
  | codexCli
  | claudeCode
  | hermesPool
  deriving DecidableEq

inductive Family
  | codex
  | claude
  | hermes
  deriving DecidableEq

inductive Lane
  | codexBuilder
  | claudeVerifier
  | hermesBox
  | codexVerifier
  | claudeBuilder
  | hermesVerifier
  deriving DecidableEq

namespace Role

def text : Role → JsString
  | build => js "build"
  | review => js "review"
  | revise => js "revise"

def all : List Role := [build, review, revise]

/-- `isRole(value)`, with the role found. -/
def ofValue (value : JsValue) : Option Role := all.find? fun role => value.isText role.text

def isWriter (role : Role) : Bool := role ∈ [build, revise]

end Role

namespace Runtime

def text : Runtime → JsString
  | codexCli => js "codex-cli"
  | claudeCode => js "claude-code"
  | hermesPool => js "hermes-pool"

def all : List Runtime := [codexCli, claudeCode, hermesPool]

/-- `isRuntime(value)`, with the runtime found. -/
def ofValue (value : JsValue) : Option Runtime := all.find? fun runtime => value.isText runtime.text

/-- `RUNTIME_ROLE_SUPPORT` -/
def supported : Runtime → List Role
  | codexCli => [.build, .revise, .review]
  | claudeCode => [.review, .build, .revise]
  | hermesPool => [.build, .revise, .review]

/-- `RUNTIME_FAMILY` -/
def family : Runtime → Family
  | codexCli => .codex
  | claudeCode => .claude
  | hermesPool => .hermes

end Runtime

def runtimeSupportsRole (runtime : Runtime) (role : Role) : Bool := role ∈ runtime.supported

structure LaneDefinition where
  runtime : Runtime
  role : Role
  roles : List Role

def LaneDefinition.family (definition : LaneDefinition) : Family := definition.runtime.family

namespace Lane

def text : Lane → JsString
  | codexBuilder => js "codex-builder"
  | claudeVerifier => js "claude-verifier"
  | hermesBox => js "hermes-box"
  | codexVerifier => js "codex-verifier"
  | claudeBuilder => js "claude-builder"
  | hermesVerifier => js "hermes-verifier"

/-- `LANE_NAMES`, in the order of the table. -/
def all : List Lane :=
  [codexBuilder, claudeVerifier, hermesBox, codexVerifier, claudeBuilder, hermesVerifier]

/-- `LANES` -/
def definition : Lane → LaneDefinition
  | codexBuilder => ⟨.codexCli, .build, [.build, .revise]⟩
  | claudeVerifier => ⟨.claudeCode, .review, [.review]⟩
  | hermesBox => ⟨.hermesPool, .build, [.build, .revise]⟩
  | codexVerifier => ⟨.codexCli, .review, [.review]⟩
  | claudeBuilder => ⟨.claudeCode, .build, [.build, .revise]⟩
  | hermesVerifier => ⟨.hermesPool, .review, [.review]⟩

/-- The lane of a name, `LANES[name]`: a name that is no string is made one. -/
def ofName (name : JsValue) : Option Lane :=
  match name.toText with
  | some key => all.find? fun lane => lane.text = key
  | none => none

def ofValue (value : JsValue) : Option Lane := all.find? fun lane => value.isText lane.text

end Lane

def roleForLane (name : JsValue) : Option Role := (Lane.ofName name).map fun lane => lane.definition.role

def familyForLane (name : JsValue) : Option Family :=
  (Lane.ofName name).map fun lane => lane.definition.family

def laneForRuntimeRole (runtime : Runtime) (role : Role) : Option Lane :=
  let wanted := if role = .revise then .build else role
  Lane.all.find? fun lane => lane.definition.runtime = runtime ∧ lane.definition.role = wanted

def workerForRuntime : Runtime → Option Lane
  | .codexCli => laneForRuntimeRole .codexCli .build
  | .claudeCode => laneForRuntimeRole .claudeCode .review
  | .hermesPool => laneForRuntimeRole .hermesPool .build

def LEGACY_LANE_NAMES : List Lane := Runtime.all.filterMap workerForRuntime

def REVIEW_LANES : List Lane :=
  Lane.all.filter fun lane => runtimeSupportsRole lane.definition.runtime .review

theorem Role.ofValue_text (role : Role) : Role.ofValue (.string role.text) = some role := by
  cases role <;> decide

theorem Runtime.ofValue_text (runtime : Runtime) :
    Runtime.ofValue (.string runtime.text) = some runtime := by
  cases runtime <;> decide

theorem Lane.ofName_text (lane : Lane) : Lane.ofName (.string lane.text) = some lane := by
  cases lane <;> decide

theorem Role.eq_of_ofValue {value : JsValue} {role : Role} (found : Role.ofValue value = some role) :
    value = .string role.text :=
  JsValue.isText_iff.mp (by simpa using List.find?_some found)

theorem Runtime.eq_of_ofValue {value : JsValue} {runtime : Runtime}
    (found : Runtime.ofValue value = some runtime) : value = .string runtime.text :=
  JsValue.isText_iff.mp (by simpa using List.find?_some found)

theorem Lane.eq_of_ofValue {value : JsValue} {lane : Lane} (found : Lane.ofValue value = some lane) :
    value = .string lane.text :=
  JsValue.isText_iff.mp (by simpa using List.find?_some found)

end StudentHub.Coordinator
