import StudentHub.Coordinator.Receipts
import StudentHub.Ecma.FencedJson

/-!
# Work-order directives

A routed work order is posted to its card as a comment: a heading that names the actor, and the
fields of the order as JSON in a block of code. The first block of the comment is read back. The
actor is printed as it is, so that an actor whose text opens a block of its own is read in the
place of the order.
-/

namespace StudentHub.Coordinator

open Ecma JsString Json

def WORK_ORDER_MARKER : JsString := js "coordinator-work-order v1"

def markerLine : JsString := js "<!-- " ++ WORK_ORDER_MARKER ++ js " -->"

def renderedFields (order : JsValue) : List (JsString × JsValue) :=
  let field (name : JsString) : JsString × JsValue := (name, order.get name)
  let orNull (name : JsString) : JsString × JsValue := (name, (order.get name).orElse .null)
  [field (js "version"), field (js "role"), field (js "runtime"), orNull (js "actor"),
    field (js "issue_id"), field (js "attempt_id"), field (js "authorization_ref"),
    field (js "target_sha"), orNull (js "base_sha"), orNull (js "outcome"), orNull (js "writer"),
    field (js "workspace_scope"), field (js "scope_phase"), field (js "allowed_paths"),
    orNull (js "scoped_base_sha")]

/-- `${order.actor ?? "coordinator-assigned"}` -/
def actorText (order : JsValue) : JsString :=
  template ((order.get (js "actor")).orElse (.string (js "coordinator-assigned")))

def headingFront (order : JsValue) : JsString :=
  js "**Work order (SHU-68 routing)** — role " ++ template (order.get (js "role")) ++
    js " · runtime " ++ template (order.get (js "runtime")) ++ js " · actor "

def renderWorkOrderDirective (order : JsValue) : Option JsString :=
  if validWorkOrder order then
    some ((js "\n").intercalate [markerLine, headingFront order ++ actorText order, js "```json",
      (pretty (.object (renderedFields order))).getD [], js "```"])
  else
    none

inductive DirectiveRefusal
  | notDirective
  | noBlock
  | notJson
  | invalid
  deriving DecidableEq

def parseWorkOrderDirective (round : FiniteNumber → JsNumber) (body : JsValue) :
    Except DirectiveRefusal JsValue :=
  match body with
  | .string text =>
      if markerLine <:+: text then
        match fencedJson text with
        | none => .error .noBlock
        | some block =>
            match parse round block with
            | none => .error .notJson
            | some order => if validWorkOrder order then .ok order else .error .invalid
      else
        .error .notDirective
  | _ => .error .notDirective

theorem exists_of_joinedTexts {item : JsValue} {rest : List JsValue} {texts : List JsString}
    (joined : JsValue.joinedTexts (item :: rest) = some texts) :
    ∃ text others, texts = text :: others ∧ JsValue.joinedTexts rest = some others ∧
      (text = [] ∨ item.toText = some text) := by
  have present : (do return (← item.toText) :: (← JsValue.joinedTexts rest)) = some texts →
      ∃ text others, texts = text :: others ∧ JsValue.joinedTexts rest = some others ∧
        (text = [] ∨ item.toText = some text) := by
    intro joined
    simp only [Option.bind_eq_bind, Option.bind_eq_some_iff, Option.pure_def, Option.some.injEq]
      at joined
    rcases joined with ⟨text, isText, others, areOthers, rfl⟩
    exact ⟨text, others, rfl, areOthers, .inr isText⟩
  have absent : (JsValue.joinedTexts rest).map (([] : JsString) :: ·) = some texts →
      ∃ text others, texts = text :: others ∧ JsValue.joinedTexts rest = some others ∧
        (text = [] ∨ item.toText = some text) := by
    intro joined
    rcases Option.map_eq_some_iff.mp joined with ⟨others, areOthers, rfl⟩
    exact ⟨[], others, rfl, areOthers, .inl rfl⟩
  cases item with
  | undefined | null => exact absent joined
  | _ => exact present joined

theorem joinedTexts_of_sha {items : List JsValue} {text : JsString}
    (written : (JsValue.array items).toText = some text) (isSha : Supervisor.isTargetSha text = true) :
    ∃ item, items = [item] ∧ item.toText = some text := by
  rw [JsValue.toText, Option.map_eq_some_iff] at written
  rcases written with ⟨texts, joined, rfl⟩
  have noComma := @sha_notMem _ isSha 44 (by decide)
  cases items with
  | nil =>
      cases joined
      exact absurd isSha (by decide)
  | cons item rest =>
      rcases exists_of_joinedTexts joined with ⟨first, others, rfl, areOthers, isFirst⟩
      cases rest with
      | nil =>
          cases areOthers
          rcases isFirst with rfl | isText
          · exact absurd isSha (by decide)
          · exact ⟨item, rfl, by simpa [List.intercalate] using isText⟩
      | cons second rest =>
          rcases exists_of_joinedTexts areOthers with ⟨second, others, rfl, -, -⟩
          exact absurd (by simp [List.intercalate, js, codeUnits]) noComma

theorem toText_reread_of_isSha {round : FiniteNumber → JsNumber} : ∀ (value : JsValue) {text : JsString},
    value.toText = some text → Supervisor.isTargetSha text = true →
      (reread round value).toText = some text ∧ stringify value ≠ none
  | .undefined, _, written, isSha => by
      cases written
      exact absurd isSha (by decide)
  | .null, _, written, isSha => by
      cases written
      exact absurd isSha (by decide)
  | .boolean value, _, written, isSha => by
      cases written
      cases value <;> exact absurd isSha (by decide)
  | .number .nan, _, written, isSha => by
      cases written
      exact absurd isSha (by decide)
  | .number (.infinity negative), _, written, isSha => by
      cases written
      cases negative <;> exact absurd isSha (by decide)
  | .number (.finite number), _, written, isSha => by
      cases written
      rw [isTargetSha_text] at isSha
      cases isSha
  | .string given, _, written, _ => by
      cases written
      exact ⟨rfl, by simp [stringify]⟩
  | .array items, text, written, isSha => by
      rcases joinedTexts_of_sha written isSha with ⟨item, rfl, same⟩
      rcases @toText_reread_of_isSha round item text same isSha with ⟨read, present⟩
      have rereadItem : reread round (.array [item]) = .array [reread round item] := by
        rw [reread, rereadItems_eq_map (by simpa using present)]
        rfl
      refine ⟨?_, by simp [stringify]⟩
      rw [rereadItem, JsValue.toText]
      cases reading : reread round item with
      | undefined | null =>
          rw [reading] at read
          cases read
          exact absurd isSha (by decide)
      | _ =>
          rw [reading] at read
          simp [JsValue.joinedTexts, read, List.intercalate]
  | .object _, _, written, isSha => by
      cases written
      exact absurd isSha (by decide)
  | .other, _, written, _ => by cases written
  termination_by value => sizeOf value

section Rendering

variable {order : JsValue}

theorem texts_of_validWorkOrder (valid : validWorkOrder order = true) :
    (∃ role ∈ Supervisor.ROLES, order.get (js "role") = .string role) ∧
      ∃ runtime ∈ Supervisor.RUNTIMES, order.get (js "runtime") = .string runtime := by
  simp only [validWorkOrder, Supervisor.validWorkOrder, Bool.and_eq_true] at valid
  have role := Supervisor.get_of_hasText valid.1.1.1.1.1.1.1.2
  have runtime := Supervisor.get_of_hasText valid.1.1.1.1.1.1.2
  exact ⟨⟨_, of_decide_eq_true role.2, role.1⟩, ⟨_, of_decide_eq_true runtime.2, runtime.1⟩⟩

def directiveFront (order : JsValue) : JsString := markerLine ++ (js "\n" ++ headingFront order)

theorem notMem_directiveFront (valid : validWorkOrder order = true) :
    96 ∉ directiveFront order := by
  rcases texts_of_validWorkOrder valid with ⟨⟨role, isRole, roleIs⟩, ⟨runtime, isRuntime, runtimeIs⟩⟩
  have noRole : ∀ role ∈ Supervisor.ROLES, 96 ∉ role := by decide
  have noRuntime : ∀ runtime ∈ Supervisor.RUNTIMES, 96 ∉ runtime := by decide
  have fixed : 96 ∉ markerLine ++ js "\n" ∧
      96 ∉ js "**Work order (SHU-68 routing)** — role " ∧ 96 ∉ js " · runtime " ∧
      96 ∉ js " · actor " := by
    decide
  simp only [List.mem_append, not_or] at fixed
  simp only [directiveFront, headingFront, roleIs, runtimeIs, List.mem_append, not_or]
  exact ⟨fixed.1.1, fixed.1.2, ⟨⟨⟨fixed.2.1, noRole role isRole⟩, fixed.2.2.1⟩,
    noRuntime runtime isRuntime⟩, fixed.2.2.2⟩

def renderedText (order : JsValue) : JsString := (pretty (.object (renderedFields order))).getD []

theorem pretty_renderedFields (order : JsValue) :
    pretty (.object (renderedFields order)) = some (renderedText order) := by
  rw [renderedText, pretty, prettyAt]
  rfl

theorem renderWorkOrderDirective_eq (valid : validWorkOrder order = true) :
    renderWorkOrderDirective order = some (directiveFront order ++ (actorText order ++ ([10] ++
      (openingFence ++ (renderedText order ++ closingFence))))) := by
  have opening : openingFence = js "```json" ++ [10] := by decide
  have closing : closingFence = [10] ++ js "```" := by decide
  have line : js "\n" = [10] := by decide
  rw [renderWorkOrderDirective, if_pos valid, ← renderedText, opening, closing]
  simp [directiveFront, List.intercalate, line]

theorem markerLine_isInfix (text : JsString) : markerLine <:+: directiveFront order ++ text := by
  refine ⟨[], js "\n" ++ headingFront order ++ text, ?_⟩
  simp [directiveFront]

theorem fencedJson_directive (valid : validWorkOrder order = true)
    (closed : ¬openingFence <:+: actorText order ++ [10]) :
    fencedJson (directiveFront order ++ (actorText order ++ ([10] ++
      (openingFence ++ (renderedText order ++ closingFence))))) = some (renderedText order) := by
  rw [fencedJson_append (notMem_directiveFront valid), ← List.append_assoc]
  exact fencedJson_eq_some closed (plainLines_prettyAt _ (pretty_renderedFields order))

end Rendering

section ReadBack

variable {round : FiniteNumber → JsNumber} {order : JsValue}

def RENDERED : List JsString :=
  [js "version", js "role", js "runtime", js "actor", js "issue_id", js "attempt_id",
    js "authorization_ref", js "target_sha", js "base_sha", js "outcome", js "writer",
    js "workspace_scope", js "scope_phase", js "allowed_paths", js "scoped_base_sha"]

theorem names_renderedFields (order : JsValue) : (renderedFields order).map Prod.fst = RENDERED := rfl

theorem nodup_renderedFields (order : JsValue) : ((renderedFields order).map Prod.fst).Nodup := by
  rw [names_renderedFields]
  decide

theorem reread_renderedFields (order : JsValue) : reread round (.object (renderedFields order)) =
    .object (rereadProperties round (renderedFields order)) := by
  apply reread_object (nodup_renderedFields order)
  rw [names_renderedFields]
  decide

theorem get_reread_renderedFields (order : JsValue) (name : JsString) :
    (reread round (.object (renderedFields order))).get name =
      reread round ((JsValue.object (renderedFields order)).get name) := by
  rw [reread_renderedFields, get_rereadProperties (nodup_renderedFields order)]

theorem get_of_string {name text : JsString}
    (field : (JsValue.object (renderedFields order)).get name = order.get name)
    (isText : order.get name = .string text) :
    (reread round (.object (renderedFields order))).get name = .string text := by
  rw [get_reread_renderedFields, field, isText]
  rfl

theorem hasText_reread {name : JsString} {fits : JsString → Bool}
    (field : (JsValue.object (renderedFields order)).get name = order.get name)
    (holds : Supervisor.hasText order name fits = true) :
    Supervisor.hasText (reread round (.object (renderedFields order))) name fits = true := by
  rcases Supervisor.get_of_hasText holds with ⟨isText, fitting⟩
  rw [Supervisor.hasText, get_of_string field isText]
  exact fitting

/-- The workspace of an order is checked of its scope, its phase and its paths as they are, and of
its base as a head. -/
theorem validateWorkspaceScope_base {fields : WorkspaceFields} {base : JsValue}
    (same : base = fields.scopedBaseSha ∨ isSha base = true ∧ base.strictEq .null = false ∧
      isSha fields.scopedBaseSha = true ∧ fields.scopedBaseSha.strictEq .null = false) :
    validateWorkspaceScope { fields with scopedBaseSha := base } false =
      validateWorkspaceScope fields false := by
  rcases same with rfl | ⟨isHead, notNull, wasHead, wasNotNull⟩
  · rfl
  · simp only [validateWorkspaceScope, isHead, notNull, wasHead, wasNotNull, Bool.and_false,
      Bool.false_and]

theorem isSha_of_validateWorkspaceScope {fields : WorkspaceFields} {paths : List JsString}
    (accepted : validateWorkspaceScope fields false = .ok paths)
    (named : fields.scopedBaseSha.strictEq .null = false) : isSha fields.scopedBaseSha = true := by
  simp only [validateWorkspaceScope, named] at accepted
  split_ifs at accepted with known phase noHead _ unscoped
  all_goals simp_all

theorem isSha_iff {value : JsValue} : isSha value = true ↔
    ∃ text, value.toText = some text ∧ Supervisor.isTargetSha text = true := by
  rw [isSha]
  cases value.toText <;> simp

theorem strictEq_null_eq_false {value : JsValue} (present : value ≠ .null) :
    value.strictEq .null = false := by
  cases value <;> first | rfl | exact absurd rfl present | simp [JsValue.strictEq]

theorem isDefined_of_ne {value : JsValue} (present : value ≠ .undefined) :
    value.isDefined = true := by
  cases value <;> first | rfl | exact absurd rfl present

theorem validWorkspace_reread {paths : List JsString}
    (accepted : validateWorkspaceScope (orderWorkspace order) false = .ok paths) :
    validateWorkspaceScope (orderWorkspace (reread round (.object (renderedFields order)))) false =
      .ok paths := by
  rcases validateWorkspaceScope_texts accepted with ⟨⟨scope, isScope⟩, phase, isPhase⟩
  rcases allowedPaths_of_validateWorkspaceScope accepted with ⟨texts, arePaths⟩
  simp only [orderWorkspace] at isScope isPhase arePaths
  have readScope : (reread round (.object (renderedFields order))).get (js "workspace_scope") =
      order.get (js "workspace_scope") := by
    rw [get_of_string rfl isScope, isScope]
  have readPhase : (reread round (.object (renderedFields order))).get (js "scope_phase") =
      order.get (js "scope_phase") := by
    rw [get_of_string rfl isPhase, isPhase]
  have readPaths : (reread round (.object (renderedFields order))).get (js "allowed_paths") =
      order.get (js "allowed_paths") := by
    have field : (JsValue.object (renderedFields order)).get (js "allowed_paths") =
      order.get (js "allowed_paths") := rfl
    rw [get_reread_renderedFields, field, arePaths, reread, rereadItems_eq_map (by simp [stringify]),
      List.map_map]
    rfl
  have readBase : (reread round (.object (renderedFields order))).get (js "scoped_base_sha") =
      reread round ((order.get (js "scoped_base_sha")).orElse .null) := by
    rw [get_reread_renderedFields]
    rfl
  have asRead : ∀ base, reread round ((order.get (js "scoped_base_sha")).orElse .null) = base →
      base ≠ .undefined → orderWorkspace (reread round (.object (renderedFields order))) =
        { orderWorkspace order with scopedBaseSha := base } := by
    intro base isBase defined
    have isDefined := isDefined_of_ne defined
    simp only [orderWorkspace, readScope, readPhase, readPaths, readBase, isBase, isDefined, if_true]
  by_cases nullish : order.get (js "scoped_base_sha") = .undefined ∨
      order.get (js "scoped_base_sha") = .null
  · have noBase : (orderWorkspace order).scopedBaseSha = .null := by
      rcases nullish with absent | absent <;> simp [orderWorkspace, absent, JsValue.isDefined]
    rw [asRead .null (by rcases nullish with absent | absent <;> rw [absent] <;> rfl) (by simp),
      validateWorkspaceScope_base (.inl noBase.symm), accepted]
  · rw [not_or] at nullish
    have isBase : (orderWorkspace order).scopedBaseSha = order.get (js "scoped_base_sha") := by
      simp only [orderWorkspace]
      exact if_pos (isDefined_of_ne nullish.1)
    have notNull := strictEq_null_eq_false nullish.2
    have isHead := isSha_of_validateWorkspaceScope accepted (by rw [isBase, notNull])
    rw [isBase] at isHead
    rcases isSha_iff.mp isHead with ⟨text, written, shaped⟩
    rcases @toText_reread_of_isSha round _ text written shaped with ⟨read, -⟩
    have readHead : isSha (reread round (order.get (js "scoped_base_sha"))) = true :=
      isSha_iff.mpr ⟨text, read, shaped⟩
    have present : (order.get (js "scoped_base_sha")).orElse .null =
        order.get (js "scoped_base_sha") := by
      cases found : order.get (js "scoped_base_sha") with
      | undefined => exact absurd found nullish.1
      | null => rfl
      | _ => rfl
    have notNullish : ∀ {value : JsValue}, isSha value = true → value ≠ .undefined ∧ value ≠ .null := by
      intro value isHead
      constructor <;>
        · rintro rfl
          exact absurd isHead (by decide)
    have readNotNull := strictEq_null_eq_false (notNullish readHead).2
    rw [asRead _ (by rw [present]) (notNullish readHead).1, validateWorkspaceScope_base, accepted]
    exact .inr ⟨readHead, readNotNull, by rw [isBase, isHead], by rw [isBase, notNull]⟩

theorem validWorkOrder_reread (valid : validWorkOrder order = true) :
    validWorkOrder (reread round (.object (renderedFields order))) = true := by
  simp only [validWorkOrder, Supervisor.validWorkOrder, Bool.and_eq_true] at valid ⊢
  rcases valid with ⟨⟨⟨⟨⟨⟨⟨⟨version, role⟩, runtime⟩, supported⟩, issue⟩, attempt⟩, target⟩,
    authorization⟩, scope⟩
  have readRuntime : Supervisor.textOf (reread round (.object (renderedFields order))) (js "runtime") =
      Supervisor.textOf order (js "runtime") := by
    have isText := (Supervisor.get_of_hasText runtime).1
    rw [Supervisor.textOf, get_of_string rfl isText]
    rfl
  refine ⟨⟨⟨⟨⟨⟨⟨⟨hasText_reread rfl version, hasText_reread rfl role⟩, hasText_reread rfl runtime⟩,
    ?_⟩, hasText_reread rfl issue⟩, hasText_reread rfl attempt⟩, hasText_reread rfl target⟩,
    hasText_reread rfl authorization⟩, ?_⟩
  · rw [readRuntime]
    exact hasText_reread rfl supported
  · split
    case isFalse => rfl
    case isTrue named =>
      rcases List.any_eq_true.mp named with ⟨field, isField, isName⟩
      rw [reread_renderedFields] at isName
      rcases mem_names_of_mem_rereadProperties (of_decide_eq_true isName) with ⟨value, isEntry, written⟩
      have own := JsValue.exists_entry_get (JsValue.hasOwn_iff.mpr ⟨_, isEntry, rfl⟩)
      have isValue := List.inj_on_of_nodup_map (nodup_renderedFields order) isEntry own rfl
      have ofOrder : value = order.get field := by
        rw [(Prod.mk.inj isValue).2]
        simp only [List.mem_cons, List.not_mem_nil, or_false] at isField
        rcases isField with rfl | rfl | rfl <;> rfl
      have inOrder : field ∈ order.entries.map Prod.fst := by
        by_contra absent
        have missing : order.get field = .undefined :=
          JsValue.get_of_not_hasOwn (by rw [JsValue.hasOwn, decide_eq_false absent])
        rw [ofOrder, missing] at written
        exact written rfl
      rw [if_pos (List.any_eq_true.mpr ⟨field, isField, decide_eq_true inOrder⟩)] at scope
      rcases Option.isSome_iff_exists.mp scope with ⟨paths, isPaths⟩
      cases accepted : validateWorkspaceScope (orderWorkspace order) false with
      | error =>
          rw [accepted] at isPaths
          cases isPaths
      | ok =>
          rw [validWorkspace_reread accepted]
          rfl

/-- An actor that is a text, or that the coordinator assigns. -/
def NamesActor (order : JsValue) : Prop :=
  (∃ actor, order.get (js "actor") = .string actor) ∨ order.get (js "actor") = .undefined ∨
    order.get (js "actor") = .null

def ReadsBack (round : FiniteNumber → JsNumber) (order : JsValue) : Prop :=
  ∃ body, renderWorkOrderDirective order = some body ∧
    parseWorkOrderDirective round (.string body) =
      .ok (reread round (.object (renderedFields order)))

theorem readsBack_of_closed (valid : validWorkOrder order = true)
    (closed : ¬openingFence <:+: actorText order ++ js "\n") : ReadsBack round order := by
  refine ⟨_, renderWorkOrderDirective_eq valid, ?_⟩
  simp only [parseWorkOrderDirective, if_pos (markerLine_isInfix _), fencedJson_directive valid closed,
    parse_pretty (pretty_renderedFields order), validWorkOrder_reread valid, if_true]

theorem closed_of_readsBack (valid : validWorkOrder order = true) (named : NamesActor order)
    (readsBack : ReadsBack round order) : ¬openingFence <:+: actorText order ++ js "\n" := by
  intro opened
  rcases readsBack with ⟨body, rendered, parsed⟩
  rw [renderWorkOrderDirective_eq valid, Option.some.injEq] at rendered
  subst rendered
  simp only [parseWorkOrderDirective, if_pos (markerLine_isInfix _),
    fencedJson_append (notMem_directiveFront valid)] at parsed
  rcases named with ⟨actor, isActor⟩ | assigned
  · have isText : actorText order = actor := by
      rw [actorText, isActor]
      rfl
    rw [isText] at opened parsed
    have actorIs : (reread round (.object (renderedFields order))).get (js "actor") = .string actor := by
      have field : (JsValue.object (renderedFields order)).get (js "actor") =
          (order.get (js "actor")).orElse .null := rfl
      rw [get_reread_renderedFields, field, isActor]
      rfl
    split at parsed
    case h_1 => cases parsed
    case h_2 inside fenced =>
      split at parsed
      case h_1 => cases parsed
      case h_2 read isRead =>
        have isOrder : read = reread round (.object (renderedFields order)) := by
          split at parsed
          · exact Except.ok.inj parsed
          · cases parsed
        rcases fencedJson_of_infix opened fenced with shorter | ⟨rest, rfl⟩
        · have longer := length_le_of_parse isRead (isOrder ▸ actorIs)
          omega
        · rw [parse_backtick] at isRead
          cases isRead
  · have isText : actorText order = js "coordinator-assigned" := by
      rcases assigned with absent | absent <;> rw [actorText, absent] <;> rfl
    rw [isText] at opened
    exact absurd opened (by decide)

/-- An order is read back from its comment exactly when the text of its actor, at the end of its
line, opens no block of its own. What JSON carries is then as it was. -/
theorem workOrderDirective_readsBack_iff (valid : validWorkOrder order = true)
    (named : NamesActor order) :
    (ReadsBack round order ↔ ¬openingFence <:+: actorText order ++ js "\n") ∧
      ∀ name, Kept round ((JsValue.object (renderedFields order)).get name) →
        (reread round (.object (renderedFields order))).get name =
          (JsValue.object (renderedFields order)).get name := by
  refine ⟨⟨closed_of_readsBack valid named, readsBack_of_closed valid⟩, fun name kept => ?_⟩
  rw [get_reread_renderedFields, kept.same]

def orderOf (actor : JsString) : JsValue :=
  .object [(js "version", .string (js "1.0.0")), (js "role", .string (js "revise")),
    (js "runtime", .string (js "codex-cli")), (js "actor", .string actor),
    (js "issue_id", .string (js "SHU-1")),
    (js "attempt_id", .string (js "11111111-2222-4333-8444-555555555555")),
    (js "target_sha", .string (List.replicate 40 97)), (js "authorization_ref", .string (js "SHU-1"))]

theorem workOrderDirective_readsBack_iff_session :
    (ReadsBack .finite (orderOf (js "codex-session-7")) ↔
        ¬openingFence <:+: actorText (orderOf (js "codex-session-7")) ++ js "\n") ∧
      ∀ name, Kept .finite ((JsValue.object (renderedFields (orderOf (js "codex-session-7")))).get name) →
        (reread .finite (.object (renderedFields (orderOf (js "codex-session-7"))))).get name =
          (JsValue.object (renderedFields (orderOf (js "codex-session-7")))).get name :=
  workOrderDirective_readsBack_iff (by decide +kernel) (.inl ⟨_, rfl⟩)

/-- The actor that is printed after the heading opens a block with an order of another role. -/
def forgingActor : JsString :=
  js "x\n" ++ openingFence ++ ((stringify (JsValue.object (renderedFields
    (.object [(js "version", .string (js "1.0.0")), (js "role", .string (js "build")),
      (js "runtime", .string (js "codex-cli")), (js "issue_id", .string (js "SHU-2")),
      (js "attempt_id", .string (js "66666666-2222-4333-8444-555555555555")),
      (js "target_sha", .string (List.replicate 40 98)),
      (js "authorization_ref", .string (js "SHU-2"))])))).getD []) ++ closingFence

/-- A valid order whose comment is read as another valid order. -/
theorem workOrderDirective_forged :
    validWorkOrder (orderOf forgingActor) = true ∧
      ((renderWorkOrderDirective (orderOf forgingActor)).any fun body =>
        (parseWorkOrderDirective .finite (.string body)).toOption.any fun read =>
          (read.get (js "role")).isText (js "build") &&
            (read.get (js "issue_id")).isText (js "SHU-2")) = true ∧
      ¬ReadsBack .finite (orderOf forgingActor) := by
  refine ⟨by decide +kernel, by decide +kernel, fun readsBack => ?_⟩
  exact closed_of_readsBack (by decide +kernel) (.inl ⟨_, rfl⟩) readsBack (by decide +kernel)

end ReadBack

end StudentHub.Coordinator
