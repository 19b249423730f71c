import StudentHub.Concurrency.Chronicle
import StudentHub.SafeWrite.Contract

/-!
# Runs of safe writes

Instances of the contract share a store and a secret. Their calls take a step each
time one of their ports answers, and between two steps of a call the others go on,
records change hands and fields are written from elsewhere. The answers are arbitrary,
except that the store accepts a commit only when its preconditions hold and has then
written the field and recorded the token; when it refuses or throws, nothing has changed.
-/

/-!
## What digests and messages determine

Where SHA-256 is injective on bytes, the digest of a change determines the change, and
the digest of a state determines the state among the well-formed ones. A state digest
takes the string as it is, so two ill-formed states may share their bytes; the canonical
text of a change escapes lone surrogates and keeps all changes apart. The message under
a MAC determines the members of the token.
-/

namespace StudentHub.SafeWrite

open Ecma Ecma.JsString Ecma.Json

/-- A state that its UTF-8 bytes determine: none, or a string without lone surrogates. -/
def Stable (before : Option JsString) : Prop := (before.getD []).WellFormed

instance (before : Option JsString) : Decidable (Stable before) :=
  inferInstanceAs (Decidable (JsString.WellFormed _))

theorem wellFormed_versioned {text : JsString} (wellFormed : text.WellFormed) :
    (safeWriteContractVersion ++ [10] ++ text).WellFormed :=
  WellFormed.append (by decide) wellFormed

theorem ChangeRequest.eq_string_text {change : ChangeRequest} {policy : FieldPolicy}
    (valid : validateChange change policy = none) : change.value = .string change.text := by
  unfold validateChange at valid
  split_ifs at valid
  split at valid
  · rename_i value given
    rw [ChangeRequest.text, given]
  · simp at valid

namespace Platform

variable {platform : Platform}

theorem wellFormed_statePrefix (before : Option JsString) :
    (safeWriteContractVersion ++ [10] ++
      (if before = none then js "absent" else js "present") ++ [10]).WellFormed := by
  split <;> decide

theorem eq_of_expectedStateDigest_eq (injective : Function.Injective platform.sha256)
    {left right : Option JsString} (leftStable : Stable left) (rightStable : Stable right)
    (same : platform.expectedStateDigest left = platform.expectedStateDigest right) :
    left = right := by
  have texts := ((wellFormed_statePrefix left).append leftStable).eq_of_toUtf8_eq
    ((wellFormed_statePrefix right).append rightStable) (injective same)
  cases left with
  | none =>
    cases right with
    | none => rfl
    | some text =>
      have unit := congrArg (fun text => text[6]?) texts
      simp [safeWriteContractVersion, js, codeUnits] at unit
  | some leftText =>
    cases right with
    | none =>
      have unit := congrArg (fun text => text[6]?) texts
      simp [safeWriteContractVersion, js, codeUnits] at unit
    | some rightText => simpa using texts

def changeMembers (change : ChangeRequest) : List (JsString × JsString) :=
  [(js "personRef", change.personRef), (js "field", change.field), (js "value", change.text)]

theorem changeMembers_eq {change : ChangeRequest} (isString : change.value = .string change.text) :
    [(js "personRef", .string change.personRef), (js "field", .string change.field),
      (js "value", change.value)] = textMembers (changeMembers change) := by
  simp only [textMembers, changeMembers, List.map_cons, List.map_nil, isString]

theorem eq_of_changeSetDigest_eq (injective : Function.Injective platform.sha256)
    {left right : ChangeRequest} (leftString : left.value = .string left.text)
    (rightString : right.value = .string right.text)
    (same : platform.changeSetDigest left = platform.changeSetDigest right) :
    left.personRef = right.personRef ∧ left.field = right.field ∧ left.text = right.text := by
  have texts := (wellFormed_versioned (wellFormed_canonicalText _)).eq_of_toUtf8_eq
    (wellFormed_versioned (wellFormed_canonicalText _)) (injective same)
  rw [List.append_cancel_left_eq, changeMembers_eq leftString, changeMembers_eq rightString] at texts
  have held : ∀ {name text}, (name, text) ∈ changeMembers right →
      (name, text) ∈ changeMembers left := by
    intro name text memberMem
    rcases mem_textMembers.mp (mem_of_canonicalText_eq texts memberMem) with
      ⟨other, sameText, otherMem⟩
    rwa [JsValue.string.inj sameText]
  have fieldName : js "personRef" ≠ js "field" ∧ js "personRef" ≠ js "value" ∧
      js "field" ≠ js "value" := by decide
  have person := @held (js "personRef") right.personRef (by simp [changeMembers])
  have field := @held (js "field") right.field (by simp [changeMembers])
  have value := @held (js "value") right.text (by simp [changeMembers])
  simp only [changeMembers, List.mem_cons, Prod.mk.injEq, List.not_mem_nil, or_false, true_and,
    fieldName.1, fieldName.2.1, fieldName.2.2, fieldName.1.symm, fieldName.2.1.symm,
    fieldName.2.2.symm, false_and, false_or] at person field value
  exact ⟨person.symm, field.symm, value.symm⟩

theorem textMember_delete {token : ActionToken} {name other : JsString} (different : name ≠ other) :
    textMember (token.delete other) name = textMember token name := by
  simp only [textMember, OrderedMap.get?_delete, if_neg different]

theorem textMember_of_signedMessage_eq {token : ActionToken} {issued : UnsignedToken}
    (same : signedMessage token = signedMessage issued.toToken) {name text : JsString}
    (memberMem : (name, text) ∈ issued.members) : textMember token name = some text := by
  have texts := (wellFormed_versioned (wellFormed_canonicalText _)).eq_of_toUtf8_eq
    (wellFormed_versioned (wellFormed_canonicalText _)) same
  rw [List.append_cancel_left_eq] at texts
  have held := OrderedMap.mem_entries_iff.mp (mem_of_canonicalText_eq texts memberMem)
  rw [textMember, held]

theorem textMember_toToken {issued : UnsignedToken} {name text : JsString}
    (memberMem : (name, text) ∈ issued.members) : textMember issued.toToken name = some text :=
  textMember_of_signedMessage_eq rfl memberMem

theorem ne_mac_of_mem_members {issued : UnsignedToken} {name text : JsString}
    (memberMem : (name, text) ∈ issued.members) : name ≠ js "mac" := by
  have names : ∀ name ∈ issued.members.map Prod.fst, name ≠ js "mac" := by
    simp only [UnsignedToken.members, List.map_cons, List.map_nil]
    decide
  exact names name (List.mem_map.mpr ⟨_, memberMem, rfl⟩)

theorem delete_sign (issued : UnsignedToken) :
    (platform.sign issued).delete (js "mac") = issued.toToken := by
  have absent : js "mac" ∉ issued.toToken.keys := by
    intro macMem
    rcases List.mem_map.mp macMem with ⟨⟨name, value⟩, memberMem, rfl⟩
    rcases mem_textMembers.mp memberMem with ⟨text, -, memberMem⟩
    exact ne_mac_of_mem_members memberMem rfl
  exact OrderedMap.delete_set absent _

theorem textMember_sign {issued : UnsignedToken} {name text : JsString}
    (memberMem : (name, text) ∈ issued.members) :
    textMember (platform.sign issued) name = some text := by
  rw [← textMember_delete (ne_mac_of_mem_members memberMem), delete_sign,
    textMember_toToken memberMem]

end Platform

end StudentHub.SafeWrite

namespace StudentHub.SafeWrite

open Ecma Concurrency

inductive Request
  | preview (request : PreviewRequest)
  | confirm (request : ConfirmRequest)

inductive Reply
  | previewed (result : PreviewResult)
  | confirmed (result : ConfirmResult)

/-- A call under way at an instance, with what its clock has shown it so far. -/
structure Call where
  service : ℕ
  request : Request
  process : Process PortOp.Answer RangeError Reply
  readings : List Date

/-- A preview that answered with a token. -/
structure Accepted where
  request : PreviewRequest
  changes : List FieldChange
  token : ActionToken

/-- A change that the store has applied, with the value and the owner it found and what the
clock had shown the confirm. -/
structure Committed where
  input : CommitInput
  replaced : Option JsString
  owner : Option JsString
  readings : List Date

inductive Happening
  | accepted (preview : Accepted)
  | committed (commit : Committed)

def previews (history : List Happening) : List Accepted :=
  history.filterMap fun happening =>
    match happening with
    | .accepted preview => some preview
    | .committed _ => none

def commits (history : List Happening) : List Committed :=
  history.filterMap fun happening =>
    match happening with
    | .accepted _ => none
    | .committed commit => some commit

structure World where
  values : JsString × JsString → Option JsString
  owners : JsString → Option JsString
  spent : ℕ → List (Option JsString)
  calls : OrderedMap ℕ Call
  history : List Happening

inductive PortReply
  | ownedRecord (record : Option JsString)
  | readField (value : Option JsString)
  | now (date : Date)
  | randomBytes (bytes : JsString)
  | tokenSet
  | commit (answer : CommitAnswer)

inductive Event
  | start (id service : ℕ) (request : Request)
  | reply (id : ℕ) (reply : PortReply)
  | fail (id : ℕ)
  | own (principalRef : JsString) (record : Option JsString)
  | write (personRef field : JsString) (value : Option JsString)

def Platform.process (platform : Platform) (options : SafeWriteOptions) :
    Request → Process PortOp.Answer RangeError Reply
  | .preview request =>
      (platform.preview options request).bind fun result => .returned (.previewed result)
  | .confirm request =>
      (platform.confirm options.policy request).bind fun result => .returned (.confirmed result)

def PortReply.readings : PortReply → List Date
  | now date => [date]
  | _ => []

namespace World

def start (values : JsString × JsString → Option JsString) (owners : JsString → Option JsString) :
    World :=
  ⟨values, owners, fun _ => [], .empty, []⟩

def Admits (world : World) (input : CommitInput) : Prop :=
  input.tokenId ∉ (commits world.history).map (fun commit => commit.input.tokenId) ∧
    world.owners input.principalRef = some input.personRef ∧
    world.values (input.personRef, input.field) = input.expectedBefore

instance (world : World) (input : CommitInput) : Decidable (world.Admits input) :=
  inferInstanceAs (Decidable (_ ∧ _ ∧ _))

def apply (world : World) (input : CommitInput) (readings : List Date) : World :=
  { world with
    values := Function.update world.values (input.personRef, input.field) (some input.value)
    history := .committed
      { input := input
        replaced := world.values (input.personRef, input.field)
        owner := world.owners input.principalRef
        readings := readings } :: world.history }

def answer (world : World) (call : Call) :
    (op : PortOp) → PortReply → Option (op.Answer × World)
  | .ownedRecord _, .ownedRecord record => some (record, world)
  | .readField _ _, .readField value => some (value, world)
  | .now, .now date => some (date, world)
  | .randomBytes, .randomBytes bytes => some (bytes, world)
  | .isSpent tokenId, .tokenSet => some (decide (tokenId ∈ world.spent call.service), world)
  | .spend tokenId, .tokenSet =>
      some ((), { world with
        spent := Function.update world.spent call.service
          (tokenId :: world.spent call.service) })
  | .commit input, .commit .accepted =>
      if world.Admits input then some (.accepted, world.apply input call.readings) else none
  | .commit _, .commit (.refused reason) => some (.refused reason, world)
  | .commit _, .commit .threw => some (.threw, world)
  | _, _ => none

def resume (world : World) (id : ℕ) (call : Call) : World :=
  match call.process, call.request with
  | .perform _ _, _ => { world with calls := world.calls.set id call }
  | .returned (.previewed (.accepted changes token)), .preview request =>
      { world with
        calls := world.calls.delete id
        history := .accepted ⟨request, changes, token⟩ :: world.history }
  | _, _ => { world with calls := world.calls.delete id }

def step (world : World) (id : ℕ) (reply : PortReply) : World :=
  match world.calls.get? id with
  | none => world
  | some call =>
      match call.process with
      | .perform op rest =>
          match world.answer call op reply with
          | none => world
          | some (answer, after) =>
              after.resume id
                { call with
                  process := rest answer
                  readings := call.readings ++ reply.readings }
      | _ => world

variable (platform : Platform) (options : ℕ → SafeWriteOptions)

def next (world : World) : Event → World
  | .start id service request =>
      if world.calls.has id then
        world
      else
        world.resume id ⟨service, request, platform.process (options service) request, []⟩
  | .reply id reply => world.step id reply
  | .fail id => { world with calls := world.calls.delete id }
  | .own principalRef record =>
      { world with owners := Function.update world.owners principalRef record }
  | .write personRef field value =>
      { world with values := Function.update world.values (personRef, field) value }

def run (world : World) (events : List Event) : World :=
  events.foldl (next platform options) world

def Authentic (world : World) : Event → Prop
  | .start _ _ (.confirm request) =>
      platform.MacVerifies request.token →
        ∃ preview ∈ previews world.history,
          Platform.signedMessage (preview.token.delete (js "mac")) =
            Platform.signedMessage (request.token.delete (js "mac"))
  | _ => True

/-- No event of a run brings a forged MAC. -/
def Unforged (world : World) : List Event → Prop
  | [] => True
  | event :: rest =>
      world.Authentic platform event ∧ Unforged (world.next platform options event) rest

instance (world : World) : (event : Event) → Decidable (world.Authentic platform event)
  | .start _ _ (.confirm _) => inferInstanceAs (Decidable (_ → _))
  | .start _ _ (.preview _) => isTrue trivial
  | .reply _ _ => isTrue trivial
  | .fail _ => isTrue trivial
  | .own _ _ => isTrue trivial
  | .write _ _ _ => isTrue trivial

instance decidableUnforged :
    (events : List Event) → (world : World) → Decidable (world.Unforged platform options events)
  | [], _ => isTrue trivial
  | event :: rest, world =>
      have := decidableUnforged rest (world.next platform options event)
      inferInstanceAs (Decidable (_ ∧ _))

end World

def PortReply.Sound : PortReply → Prop
  | readField value => Stable value
  | now date => date ≠ none
  | _ => True

def Event.Sound : Event → Prop
  | reply _ given => given.Sound
  | _ => True

instance : DecidablePred PortReply.Sound
  | .readField value => inferInstanceAs (Decidable (Stable value))
  | .now date => inferInstanceAs (Decidable (date ≠ none))
  | .ownedRecord _ => isTrue trivial
  | .randomBytes _ => isTrue trivial
  | .tokenSet => isTrue trivial
  | .commit _ => isTrue trivial

instance : DecidablePred Event.Sound
  | .reply _ given => inferInstanceAs (Decidable given.Sound)
  | .start _ _ _ => isTrue trivial
  | .fail _ => isTrue trivial
  | .own _ _ => isTrue trivial
  | .write _ _ _ => isTrue trivial

structure ShownBy (commit : Committed) (preview : Accepted) : Prop where
  principal : preview.request.principalRef = commit.input.principalRef
  person : preview.request.change.personRef = commit.input.personRef
  changes : preview.changes = [⟨commit.input.field, commit.replaced, commit.input.value⟩]
  token : ∃ tokenId, commit.input.tokenId = some tokenId ∧
    textMember preview.token (js "tokenId") = some tokenId
  inTime : ∃ now deadline, commit.readings.head? = some (some now) ∧
    (textMember preview.token (js "expiresAt")).bind Date.parse = some deadline ∧
    now.time < deadline.time

/-- A commit was made for the owner of the record, one of the earlier previews has shown it,
and no preview has shown it and another one. -/
structure AsPreviewed (commit : Committed) (earlier : List Happening) : Prop where
  owned : commit.owner = some commit.input.personRef
  shown : ∃ preview ∈ previews earlier, ShownBy commit preview
  once : ∀ preview, ShownBy commit preview → ∀ other ∈ commits earlier, ¬ShownBy other preview

end StudentHub.SafeWrite
