import StudentHub.Ecma.KeyOrder

/-!
# The idempotency contract

A mutation request carries a key whose text holds the time it was issued. The checks of
the executor come before its store is asked: the request is well formed, the key is in
its format, it is not from the future and its retention has not ended. What the store is
given has the key in lower case.
-/

namespace StudentHub.Idempotency

open Ecma Ecma.JsString Ecma.Json

def idempotencyContractVersion : JsString := js "1.0.0"

structure StoredResponse where
  status : ℕ
  headers : List (JsString × JsString)
  body : JsValue

structure MutationRequest where
  key : Option JsString
  principalRef : JsString
  method : JsString
  route : JsString
  payload : JsValue

inductive RefusalReason
  | missingKey
  | invalidKey
  | keyInFuture
  | keyExpired
  | invalidRequest
  | keyPayloadMismatch
  | operationFailed
  deriving DecidableEq

inductive MutationResult
  | ok (replayed : Bool) (response : StoredResponse)
  | refusal (status : ℕ) (reason : RefusalReason)

structure AtomicMutationInput where
  principalRef : JsString
  key : JsString
  fingerprint : JsString
  expiresAt : Date

inductive AtomicMutationOutcome
  | executed (response : StoredResponse)
  | replayed (response : StoredResponse)
  | conflict
  | expired
  | failed

/-- The options that `createIdempotency` does not throw on. -/
structure IdempotencyOptions where
  retentionMs : ℤ
  futureSkewMs : ℤ
  retentionPositive : 0 < retentionMs
  futureSkewNonnegative : 0 ≤ futureSkewMs

def isReference (text : JsString) : Bool := matchesClasses (List.replicate 64 isLowerHex) text

def mutationMethods : List JsString := [js "POST", js "PUT", js "PATCH", js "DELETE"]

def isRouteUnit (unit : UInt16) : Bool :=
  isLetter unit || isDigit unit || unit ∈ ([95, 123, 125, 46, 58, 47, 45] : List UInt16)

/-- `ROUTE_PATTERN` -/
def isRoute : JsString → Bool
  | 47 :: rest => rest.all isRouteUnit
  | _ => false

mutual

def isJsonValue : JsValue → Bool
  | .null | .string _ | .boolean _ => true
  | .number (.finite _) => true
  | .number _ => false
  | .array items => areJsonItems items
  | .object properties => areJsonProperties properties
  | .undefined | .other => false

def areJsonItems : List JsValue → Bool
  | [] => true
  | item :: rest => isJsonValue item && areJsonItems rest

def areJsonProperties : List (JsString × JsValue) → Bool
  | [] => true
  | (_, value) :: rest => isJsonValue value && areJsonProperties rest

end

def requestIsValid (request : MutationRequest) : Bool :=
  isReference request.principalRef && mutationMethods.contains request.method &&
    isRoute request.route && !request.route.contains 63 && isJsonValue request.payload

def isUnit (expected unit : UInt16) : Bool := unit = expected

/-- `[89ab]` under the flag `i` -/
def isVariant (unit : UInt16) : Bool := unit ∈ ([56, 57, 97, 98, 65, 66] : List UInt16)

def keyClasses : List (UInt16 → Bool) :=
  [fun unit => unit = 118 || unit = 86, isUnit 49, isUnit 46] ++ List.replicate 13 isDigit ++
    [isUnit 46] ++ List.replicate 8 isHex ++ [isUnit 45] ++ List.replicate 4 isHex ++
    [isUnit 45, isUnit 52] ++ List.replicate 3 isHex ++ [isUnit 45, isVariant] ++
    List.replicate 3 isHex ++ [isUnit 45] ++ List.replicate 12 isHex

/-- `KEY_PATTERN` -/
def matchesKey (key : JsString) : Bool := matchesClasses keyClasses key

/-- The time that a matching key was issued, `Number(match[1])`. -/
def issuedAtMs (key : JsString) : ℤ := numeral ((key.drop 3).take 13)

variable (sha256 : Utf8 → JsString) (options : IdempotencyOptions)

def mutationFingerprint (request : MutationRequest) : JsString :=
  sha256 (canonicalText (.object
    [(js "contractVersion", .string idempotencyContractVersion),
      (js "method", .string request.method),
      (js "payload", request.payload),
      (js "principalRef", .string request.principalRef),
      (js "route", .string request.route)])).toUtf8

def checkRequest (now : Instant) (request : MutationRequest) :
    Except MutationResult AtomicMutationInput :=
  if ¬requestIsValid request then
    .error (.refusal 400 .invalidRequest)
  else
    match request.key with
    | none => .error (.refusal 400 .missingKey)
    | some given =>
        if given.length = 0 then
          .error (.refusal 400 .missingKey)
        else if ¬matchesKey given then
          .error (.refusal 400 .invalidKey)
        else if now.time + options.futureSkewMs < issuedAtMs given then
          .error (.refusal 400 .keyInFuture)
        else if issuedAtMs given + options.retentionMs ≤ now.time then
          .error (.refusal 409 .keyExpired)
        else
          .ok
            { principalRef := request.principalRef
              key := given.toLowerCase
              fingerprint := mutationFingerprint sha256 request
              expiresAt := timeClip (issuedAtMs given + options.retentionMs) }

/-- What the executor answers when the store has. -/
def AtomicMutationOutcome.result : AtomicMutationOutcome → MutationResult
  | conflict => .refusal 409 .keyPayloadMismatch
  | expired => .refusal 409 .keyExpired
  | failed => .refusal 503 .operationFailed
  | executed response => .ok false response
  | replayed response => .ok true response

end StudentHub.Idempotency

/-!
## Fingerprints

The canonical texts of two values are the same exactly when the values are equal up to the
order of their keys. Where the hash tells texts apart, so does the fingerprint tell mutations
apart: by their method, route, principal and payload.
-/

namespace StudentHub.Idempotency

open Ecma Ecma.JsString Ecma.Json

mutual

def DistinctNames : JsValue → Prop
  | .array items => DistinctInItems items
  | .object properties => (properties.map Prod.fst).Nodup ∧ DistinctInProperties properties
  | _ => True

def DistinctInItems : List JsValue → Prop
  | [] => True
  | item :: rest => DistinctNames item ∧ DistinctInItems rest

def DistinctInProperties : List (JsString × JsValue) → Prop
  | [] => True
  | (_, value) :: rest => DistinctNames value ∧ DistinctInProperties rest

end

mutual

theorem isJson_of_isJsonValue : ∀ {value : JsValue}, isJsonValue value = true →
    DistinctNames value → IsJson value
  | .null, _, _ => trivial
  | .boolean _, _, _ => trivial
  | .string _, _, _ => trivial
  | .number (.finite _), _, _ => trivial
  | .number .nan, accepted, _ => by cases accepted
  | .number (.infinity _), accepted, _ => by cases accepted
  | .undefined, accepted, _ => by cases accepted
  | .other, accepted, _ => by cases accepted
  | .array _, accepted, distinct => areJson_of_areJsonItems accepted distinct
  | .object _, accepted, distinct =>
      ⟨distinct.1, areJson_of_areJsonProperties accepted distinct.2⟩

theorem areJson_of_areJsonItems : ∀ {items : List JsValue}, areJsonItems items = true →
    DistinctInItems items → AreJson items
  | [], _, _ => trivial
  | _ :: _, accepted, distinct => by
      rw [areJsonItems, Bool.and_eq_true] at accepted
      exact ⟨isJson_of_isJsonValue accepted.1 distinct.1,
        areJson_of_areJsonItems accepted.2 distinct.2⟩

theorem areJson_of_areJsonProperties : ∀ {properties : List (JsString × JsValue)},
    areJsonProperties properties = true → DistinctInProperties properties →
      AreJsonMembers properties
  | [], _, _ => trivial
  | (_, _) :: _, accepted, distinct => by
      rw [areJsonProperties, Bool.and_eq_true] at accepted
      exact ⟨isJson_of_isJsonValue accepted.1 distinct.1,
        areJson_of_areJsonProperties accepted.2 distinct.2⟩

end

/-- A valid request, whose payload is a value of the language. -/
structure Valid (request : MutationRequest) : Prop where
  accepted : requestIsValid request = true
  distinct : DistinctNames request.payload

theorem Valid.isJson {request : MutationRequest} (valid : Valid request) : IsJson request.payload := by
  have accepted := valid.accepted
  rw [requestIsValid, Bool.and_eq_true] at accepted
  exact isJson_of_isJsonValue accepted.2 valid.distinct

def fingerprinted (request : MutationRequest) : JsValue :=
  .object
    [(js "contractVersion", .string idempotencyContractVersion),
      (js "method", .string request.method),
      (js "payload", request.payload),
      (js "principalRef", .string request.principalRef),
      (js "route", .string request.route)]

theorem mutationFingerprint_eq (sha256 : Utf8 → JsString) (request : MutationRequest) :
    mutationFingerprint sha256 request = sha256 (canonicalText (fingerprinted request)).toUtf8 := rfl

theorem isJson_fingerprinted {request : MutationRequest} (isJson : IsJson request.payload) :
    IsJson (fingerprinted request) := by
  refine ⟨?_, trivial, trivial, isJson, trivial, trivial, trivial⟩
  simp only [List.map_cons, List.map_nil]
  decide

theorem eq_of_perm_of_names {left right : List (JsString × JsValue)} (perm : left.Perm right)
    (names : left.map Prod.fst = right.map Prod.fst) (distinct : (left.map Prod.fst).Nodup) :
    left = right := by
  induction left generalizing right with
  | nil => exact (List.map_eq_nil_iff.mp names.symm).symm
  | cons member rest ih =>
      cases right with
      | nil => cases names
      | cons other others =>
          have sameName := (List.cons.inj names).1
          have here : other ∈ member :: rest := perm.mem_iff.mpr List.mem_cons_self
          have same := List.inj_on_of_nodup_map distinct List.mem_cons_self here sameName
          subst same
          rw [ih (List.perm_cons member |>.mp perm) (List.cons.inj names).2
            (List.nodup_cons.mp distinct).2]

theorem names_of_alikeMembers {left right : List (JsString × JsValue)}
    (alike : AlikeMembers left right) : left.map Prod.fst = right.map Prod.fst := by
  induction left generalizing right with
  | nil =>
      cases right with
      | nil => rfl
      | cons => exact alike.elim
  | cons member rest ih =>
      rcases member with ⟨name, value⟩
      cases right with
      | nil => exact alike.elim
      | cons other others =>
          rcases other with ⟨otherName, otherValue⟩
          rcases alike with ⟨rfl, -, others⟩
          rw [List.map_cons, List.map_cons, ih others]

theorem alike_object_iff {left right : List (JsString × JsValue)}
    (names : left.map Prod.fst = right.map Prod.fst) (distinct : (left.map Prod.fst).Nodup) :
    Alike (.object left) (.object right) ↔ AlikeMembers left right := by
  rw [Alike]
  refine ⟨?_, fun alike => ⟨right, List.Perm.refl _, alike⟩⟩
  rintro ⟨reordered, perm, alike⟩
  have order := names_of_alikeMembers alike
  rw [← eq_of_perm_of_names perm (order.symm.trans names) (order ▸ distinct)]
  exact alike

theorem alike_fingerprinted_iff {request other : MutationRequest} (isJson : IsJson request.payload) :
    Alike (fingerprinted request) (fingerprinted other) ↔
      request.method = other.method ∧ Alike request.payload other.payload ∧
        request.principalRef = other.principalRef ∧ request.route = other.route := by
  rw [fingerprinted, fingerprinted, alike_object_iff]
  · simp [AlikeMembers, Alike]
  · rfl
  · exact (isJson_fingerprinted isJson).1

theorem mutationFingerprint_eq_iff {sha256 : Utf8 → JsString} (injective : Function.Injective sha256)
    {request other : MutationRequest} (valid : Valid request) (otherValid : Valid other) :
    mutationFingerprint sha256 request = mutationFingerprint sha256 other ↔
      request.method = other.method ∧ Alike request.payload other.payload ∧
        request.principalRef = other.principalRef ∧ request.route = other.route := by
  rw [← alike_fingerprinted_iff valid.isJson,
    ← canonicalText_eq_iff (isJson_fingerprinted valid.isJson) (isJson_fingerprinted otherValid.isJson),
    mutationFingerprint_eq, mutationFingerprint_eq, injective.eq_iff]
  refine ⟨?_, fun same => by rw [same]⟩
  exact (wellFormed_canonicalText _).eq_of_toUtf8_eq (wellFormed_canonicalText _)

/-- Canonical texts and fingerprints tell apart what differs in more than the order of keys. -/
theorem told_apart_up_to_key_order :
    (∀ left right : JsValue, IsJson left → IsJson right →
      (canonicalText left = canonicalText right ↔ Alike left right)) ∧
    ∀ sha256 : Utf8 → JsString, Function.Injective sha256 → ∀ request other : MutationRequest,
      Valid request → Valid other →
        (mutationFingerprint sha256 request = mutationFingerprint sha256 other ↔
          request.method = other.method ∧ Alike request.payload other.payload ∧
            request.principalRef = other.principalRef ∧ request.route = other.route) :=
  ⟨fun _ _ => canonicalText_eq_iff, fun _ injective _ _ => mutationFingerprint_eq_iff injective⟩

section Reordered

/-- `{ "b": [-0, "x"], "7": true }` -/
def sampleGiven : JsValue :=
  .object [(js "b", .array [.number (.finite ⟨true, 0, 0, FiniteNumber.shortest_zero⟩), .string (js "x")]),
    (js "7", .boolean true)]

/-- `{ "7": true, "b": [0, "x"] }` -/
def sampleReordered : JsValue :=
  .object [(js "7", .boolean true),
    (js "b", .array [.number (.finite ⟨false, 0, 0, FiniteNumber.shortest_zero⟩), .string (js "x")])]

def sampleRequest (payload : JsValue) : MutationRequest where
  key := none
  principalRef := List.replicate 64 97
  method := js "POST"
  route := js "/documents"
  payload := payload

theorem alike_given_reordered : Alike sampleGiven sampleReordered := by
  refine ⟨_, List.Perm.swap _ _ _, rfl, ⟨?_, rfl, trivial⟩, rfl, rfl, trivial⟩
  rfl

theorem valid_given : Valid (sampleRequest sampleGiven) :=
  ⟨by decide +kernel, by decide, ⟨trivial, trivial, trivial⟩, trivial, trivial⟩

theorem valid_reordered : Valid (sampleRequest sampleReordered) :=
  ⟨by decide +kernel, by decide, trivial, ⟨trivial, trivial, trivial⟩, trivial⟩

theorem told_apart_given_reordered :
    canonicalText sampleGiven = canonicalText sampleReordered ∧
      mutationFingerprint (fun bytes => bytes.text) (sampleRequest sampleGiven) =
        mutationFingerprint (fun bytes => bytes.text) (sampleRequest sampleReordered) := by
  have injective : Function.Injective fun bytes : Utf8 => bytes.text := by
    rintro ⟨left, _⟩ ⟨right, _⟩ same
    cases same
    rfl
  exact ⟨(told_apart_up_to_key_order.1 sampleGiven sampleReordered valid_given.isJson valid_reordered.isJson).mpr
      alike_given_reordered,
    (told_apart_up_to_key_order.2 _ injective (sampleRequest sampleGiven) (sampleRequest sampleReordered) valid_given
      valid_reordered).mpr ⟨rfl, alike_given_reordered, rfl, rfl⟩⟩

end Reordered

end StudentHub.Idempotency
