import StudentHub.Ecma.Buffer
import StudentHub.Ecma.JsonParse

/-!
# Tokens of the browser

A page is given a token for the field it shows. The token names the binding, the baseline and the
key it is signed with; the digests of the baseline, of the change and of the token's name are all
those of JSON arrays under one hash.
-/

namespace StudentHub.SafeWrite.BrowserTokens

open Ecma JsString Json

inductive Thrown
  | typeError (message : JsString)
  | rangeError
  deriving DecidableEq

structure Host where
  sha256 : List UInt8 → List UInt8
  hmac (secret message : List UInt8) : List UInt8
  length_sha256 : ∀ message, (sha256 message).length = 32
  length_hmac : ∀ secret message, (hmac secret message).length = 32

def BROWSER_WRITE_VERSION : JsString := js "1.0.0"

def BROWSER_WRITE_PURPOSE : JsString := js "self-profile-field-write"

def BROWSER_WRITE_LIFETIME_MS : ℤ := 5 * 60 * 1000

def isReference (text : JsString) : Bool := matchesClasses (List.replicate 64 isLowerHex) text

def isCodeUnit (unit : UInt16) : Bool :=
  isLetter unit || isDigit unit || unit = 95 || unit = 46 || unit = 45

def isCode : JsString → Bool
  | [] => false
  | first :: rest => isLetter first && rest.length ≤ 63 && rest.all isCodeUnit

structure BrowserWriteBinding where
  principalRef : JsString
  personRef : JsString
  field : JsString
  normalizationVersion : JsString
  deriving DecidableEq

/-- `toString("hex")` -/
def toHex (bytes : List UInt8) : JsString :=
  bytes.flatMap fun byte => [hexDigit (byte.toNat / 16), hexDigit (byte.toNat % 16)]

/-- The bytes of `JSON.stringify`. -/
def jsonBytes (value : JsValue) : List UInt8 :=
  Buffer.ofText ((stringify value).getD (js "undefined"))

def digest (host : Host) (parts : List JsValue) : JsString :=
  toHex (host.sha256 (jsonBytes (.array parts)))

def bindingValid (b : BrowserWriteBinding) : Bool :=
  isReference b.principalRef && isReference b.personRef && isCode b.field &&
    isCode b.normalizationVersion

def bindingParts (b : BrowserWriteBinding) : List JsString :=
  [b.principalRef, b.personRef, b.field, b.normalizationVersion]

inductive Persisted
  | null
  | present (value : JsValue)

structure Fallback where
  sourceRef : JsString
  valueDigest : JsString
  revision : JsString

structure BrowserBaseline where
  persisted : Persisted
  shownFallback : Option Fallback

/-- `typeof value` is `string` or `boolean`. -/
def isTextOrFlag : JsValue → Bool
  | .string _ | .boolean _ => true
  | _ => false

def Persisted.valid : Persisted → Bool
  | .null => true
  | .present value => isTextOrFlag value

def Fallback.valid (f : Fallback) : Bool :=
  isReference f.sourceRef && isReference f.valueDigest && f.revision ≠ []

def Persisted.kind : Persisted → JsString
  | .null => js "null"
  | .present _ => js "present"

def Persisted.value : Persisted → JsValue
  | .null => .null
  | .present value => value

def fallbackPart : Option Fallback → JsValue
  | none => .null
  | some f => .array [.string f.sourceRef, .string f.valueDigest, .string f.revision]

def baselineParts (baseline : BrowserBaseline) : List JsValue :=
  [.string BROWSER_WRITE_VERSION, .string (js "baseline"), .string baseline.persisted.kind,
    baseline.persisted.value, fallbackPart baseline.shownFallback]

def browserBaselineDigest (host : Host) (baseline : BrowserBaseline) : Except Thrown JsString :=
  if !baseline.persisted.valid then
    .error (.typeError (js "Invalid persisted baseline"))
  else if !baseline.shownFallback.all Fallback.valid then
    .error (.typeError (js "Invalid fallback evidence"))
  else
    .ok (digest host (baselineParts baseline))

def changeParts (binding : BrowserWriteBinding) (canonicalValue : JsValue) : List JsValue :=
  [.string BROWSER_WRITE_VERSION, .string BROWSER_WRITE_PURPOSE, .string (js "change")] ++
    (bindingParts binding).map .string ++ [canonicalValue]

def isCanonical : JsValue → Bool
  | .null => true
  | value => isTextOrFlag value

def browserChangeSetDigest (host : Host) (binding : BrowserWriteBinding) (canonicalValue : JsValue) :
    Except Thrown JsString :=
  if !bindingValid binding || !isCanonical canonicalValue then
    .error (.typeError (js "Invalid browser change set"))
  else
    .ok (digest host (changeParts binding canonicalValue))

def referenceParts (tokenId : JsString) : List JsValue :=
  [.string BROWSER_WRITE_VERSION, .string BROWSER_WRITE_PURPOSE, .string (js "token"),
    .string tokenId]

def tokenReference (host : Host) (tokenId : JsString) : JsString :=
  digest host (referenceParts tokenId)

/-- `Omit<BrowserWriteToken, "mac">` -/
structure Unsigned where
  contractVersion : JsString
  purpose : JsString
  keyVersion : JsString
  tokenId : JsString
  tokenRef : JsString
  principalRef : JsString
  personRef : JsString
  field : JsString
  normalizationVersion : JsString
  baselineDigest : JsString
  issuedAt : JsString
  expiresAt : JsString
  deriving DecidableEq

structure BrowserWriteToken extends Unsigned where
  mac : JsString
  deriving DecidableEq

def Unsigned.binding (t : Unsigned) : BrowserWriteBinding :=
  ⟨t.principalRef, t.personRef, t.field, t.normalizationVersion⟩

def tokenParts (t : Unsigned) : List JsString :=
  [t.contractVersion, t.purpose, t.keyVersion, t.tokenId, t.tokenRef] ++ bindingParts t.binding ++
    [t.baselineDigest, t.issuedAt, t.expiresAt]

def signedBytes (t : Unsigned) : List UInt8 := jsonBytes (.array ((tokenParts t).map .string))

def signature (host : Host) (t : Unsigned) (secret : List UInt8) : JsString :=
  Buffer.toBase64url (host.hmac secret (signedBytes t))

def tokenNames : List JsString :=
  [js "contractVersion", js "purpose", js "keyVersion", js "tokenId", js "tokenRef",
    js "principalRef", js "personRef", js "field", js "normalizationVersion", js "baselineDigest",
    js "issuedAt", js "expiresAt", js "mac"]

def tokenKeys : List JsString := sortTexts tokenNames

def textOf : JsValue → JsString
  | .string text => text
  | _ => []

def readToken (value : JsValue) : BrowserWriteToken where
  contractVersion := textOf (value.get (js "contractVersion"))
  purpose := textOf (value.get (js "purpose"))
  keyVersion := textOf (value.get (js "keyVersion"))
  tokenId := textOf (value.get (js "tokenId"))
  tokenRef := textOf (value.get (js "tokenRef"))
  principalRef := textOf (value.get (js "principalRef"))
  personRef := textOf (value.get (js "personRef"))
  field := textOf (value.get (js "field"))
  normalizationVersion := textOf (value.get (js "normalizationVersion"))
  baselineDigest := textOf (value.get (js "baselineDigest"))
  issuedAt := textOf (value.get (js "issuedAt"))
  expiresAt := textOf (value.get (js "expiresAt"))
  mac := textOf (value.get (js "mac"))

def validTime (value : JsString) : Bool :=
  match Date.parse value with
  | some instant => instant.toISOString = value
  | none => false

/-- `Date.parse(later) - Date.parse(earlier)` is the lifetime. -/
def livesFor (later earlier : JsString) : Bool :=
  match Date.parse later, Date.parse earlier with
  | some later, some earlier => later.time - earlier.time = BROWSER_WRITE_LIFETIME_MS
  | _, _ => false

def isText : JsValue → Bool
  | .string _ => true
  | _ => false

def isMac (text : JsString) : Bool := matchesClasses (List.replicate 43 Buffer.isBase64url) text

def tokenShape (host : Host) : JsValue → Bool
  | .object properties =>
      let t := readToken (.object properties)
      textArray (sortTexts (properties.map Prod.fst)) = textArray tokenKeys &&
        properties.all (fun property => isText property.2) &&
        t.contractVersion = BROWSER_WRITE_VERSION && t.purpose = BROWSER_WRITE_PURPOSE &&
        isCode t.keyVersion && bindingValid t.binding && isReference t.tokenId &&
        isReference t.tokenRef && isReference t.baselineDigest && isMac t.mac &&
        validTime t.issuedAt && validTime t.expiresAt && livesFor t.expiresAt t.issuedAt &&
        t.tokenRef = tokenReference host t.tokenId
  | _ => false

inductive Secret
  | text (value : JsString)
  | buffer (bytes : List UInt8)
  | other

def Secret.bytes? : Secret → Option (List UInt8)
  | .text value => some (Buffer.ofText value)
  | .buffer bytes => some bytes
  | .other => none

structure Options where
  activeKeyVersion : JsString
  keys : OrderedMap JsString Secret

structure BrowserWriteTokens where
  keys : OrderedMap JsString (List UInt8)
  activeKeyVersion : JsString
  activeKey : List UInt8

def addKey (keys : OrderedMap JsString (List UInt8)) (entry : JsString × Secret) :
    Except Thrown (OrderedMap JsString (List UInt8)) :=
  if !isCode entry.1 then
    .error (.typeError (js "Invalid signing key"))
  else
    match entry.2.bytes? with
    | none => .error (.typeError (js "Invalid signing key"))
    | some bytes =>
        if bytes.length < 32 then
          .error (.typeError (js "Signing keys need at least 32 bytes"))
        else
          .ok (keys.set entry.1 bytes)

def createBrowserWriteTokens (options : Options) : Except Thrown BrowserWriteTokens := do
  let keys ← options.keys.ownEntries.foldlM addKey OrderedMap.empty
  match keys.get? options.activeKeyVersion with
  | none => .error (.typeError (js "Active signing key unavailable"))
  | some activeKey => .ok ⟨keys, options.activeKeyVersion, activeKey⟩

/-- `toISOString()` throws for an invalid date. -/
def isoText (date : Date) : Except Thrown JsString :=
  match date with
  | some instant => .ok instant.toISOString
  | none => .error .rangeError

/-- `random` are the drawn bytes. -/
def issue (host : Host) (tokens : BrowserWriteTokens) (binding : BrowserWriteBinding)
    (baselineDigest : JsString) (now : Date) (random : List UInt8) :
    Except Thrown BrowserWriteToken :=
  if !bindingValid binding || !isReference baselineDigest || now.isNone then
    .error (.typeError (js "Invalid browser token input"))
  else do
    let tokenId := toHex random
    let issuedAt ← isoText now
    let expiresAt ← isoText (now.bind fun now => timeClip (now.time + BROWSER_WRITE_LIFETIME_MS))
    let unsigned : Unsigned := {
      contractVersion := BROWSER_WRITE_VERSION
      purpose := BROWSER_WRITE_PURPOSE
      keyVersion := tokens.activeKeyVersion
      tokenId
      tokenRef := tokenReference host tokenId
      principalRef := binding.principalRef
      personRef := binding.personRef
      field := binding.field
      normalizationVersion := binding.normalizationVersion
      baselineDigest
      issuedAt
      expiresAt }
    .ok { unsigned with mac := signature host unsigned tokens.activeKey }

inductive Verification
  | ok (token : BrowserWriteToken)
  | invalidToken
  | recoveryUnavailable
  deriving DecidableEq

def timingSafeEqual (left right : List UInt8) : Except Thrown Bool :=
  if left.length = right.length then .ok (left == right) else .error .rangeError

def verify (host : Host) (tokens : BrowserWriteTokens) (value : JsValue)
    (expected : BrowserWriteBinding) : Except Thrown Verification :=
  let t := readToken value
  if !bindingValid expected || !tokenShape host value ||
      bindingParts t.binding ≠ bindingParts expected then
    .ok .invalidToken
  else
    match tokens.keys.get? t.keyVersion with
    | none => .ok .recoveryUnavailable
    | some key => do
        if !(← timingSafeEqual (Buffer.ofText t.mac) (Buffer.ofText (signature host t.toUnsigned key))) then
          .ok .invalidToken
        else
          .ok (.ok t)

section Digests

variable {host : Host} {bytes other : List UInt8}

theorem hexDigit_spec {value : ℕ} (small : value < 16) : isLowerHex (hexDigit value) = true := by
  revert value
  decide

theorem hexDigit_inj {value other : ℕ} (small : value < 16) (small' : other < 16)
    (same : hexDigit value = hexDigit other) : value = other := by
  have read := congrArg hexDigit? same
  rwa [hexDigit?_hexDigit small, hexDigit?_hexDigit small', Option.some.injEq] at read

theorem toHex_injective : Function.Injective toHex := by
  intro bytes
  induction bytes with
  | nil =>
      intro other same
      cases other with
      | nil => rfl
      | cons => cases same
  | cons byte bytes ih =>
      intro other same
      cases other with
      | nil => cases same
      | cons first rest =>
          simp only [toHex, List.flatMap_cons, List.cons_append, List.nil_append, List.cons.injEq] at same
          have bound := byte.toNat_lt
          have bound' := first.toNat_lt
          have high := hexDigit_inj (by omega) (by omega) same.1
          have low := hexDigit_inj (by omega) (by omega) same.2.1
          have sameByte : byte = first := UInt8.toNat_inj.mp (by omega)
          rw [sameByte, ih same.2.2]

theorem isReference_toHex (length : bytes.length = 32) : isReference (toHex bytes) = true := by
  have count : (toHex bytes).length = 64 := by simp [toHex, List.length_flatMap, length]
  rw [isReference, matchesClasses_replicate]
  refine ⟨count, ?_⟩
  intro unit unitMem
  rcases List.mem_flatMap.mp unitMem with ⟨byte, _, inByte⟩
  have bound := byte.toNat_lt
  simp only [List.mem_cons, List.not_mem_nil, or_false] at inByte
  rcases inByte with rfl | rfl
  · exact hexDigit_spec (by omega)
  · exact hexDigit_spec (by omega)

def IsPlain (value : JsValue) : Prop :=
  (∃ text, stringify value = some text) ∧ reread (fun _ => .nan) value = value

theorem isPlain_string (text : JsString) : IsPlain (.string text) := ⟨⟨_, rfl⟩, rfl⟩

theorem isPlain_null : IsPlain .null := ⟨⟨_, rfl⟩, rfl⟩

theorem isPlain_array {items : List JsValue} (plain : ∀ item ∈ items, IsPlain item) :
    IsPlain (.array items) := by
  refine ⟨⟨_, rfl⟩, ?_⟩
  rw [reread]
  congr 1
  induction items with
  | nil => rfl
  | cons item items ih =>
      rw [List.forall_mem_cons] at plain
      rcases plain.1 with ⟨⟨text, written⟩, same⟩
      rw [rereadItems, written, ih plain.2]
      exact congrArg (· :: items) same

theorem isPlain_of_isCanonical {value : JsValue} (canonical : isCanonical value = true) :
    IsPlain value := by
  cases value with
  | null => exact isPlain_null
  | boolean flag => exact ⟨⟨_, rfl⟩, rfl⟩
  | string text => exact isPlain_string text
  | _ => cases canonical

theorem jsonBytes_inj {left right : JsValue} (plain : IsPlain left) (plain' : IsPlain right)
    (same : jsonBytes left = jsonBytes right) : left = right := by
  rcases plain with ⟨⟨text, written⟩, reads⟩
  rcases plain' with ⟨⟨text', written'⟩, reads'⟩
  rw [jsonBytes, jsonBytes, written, written'] at same
  have sameText : text = text' := by
    rw [← Buffer.toText_ofText (wellFormed_of_stringify written),
      ← Buffer.toText_ofText (wellFormed_of_stringify written')]
    exact congrArg Buffer.toText same
  have parsed := @parse_stringify (fun _ => .nan) _ _ written
  have parsed' := @parse_stringify (fun _ => .nan) _ _ written'
  rw [sameText, parsed', reads, reads', Option.some.injEq] at parsed
  exact parsed.symm

/-- What a digest is made for. -/
inductive Subject
  | baseline (baseline : BrowserBaseline)
  | change (binding : BrowserWriteBinding) (canonicalValue : JsValue)
  | token (tokenId : JsString)

namespace Subject

variable {left right : Subject}

def digest (host : Host) : Subject → Except Thrown JsString
  | .baseline given => browserBaselineDigest host given
  | .change binding canonicalValue => browserChangeSetDigest host binding canonicalValue
  | .token tokenId => .ok (tokenReference host tokenId)

def parts : Subject → List JsValue
  | .baseline given => baselineParts given
  | .change binding canonicalValue => changeParts binding canonicalValue
  | .token tokenId => referenceParts tokenId

def message (subject : Subject) : List UInt8 := jsonBytes (.array subject.parts)

theorem digest_eq_ok {text : JsString} (digested : left.digest host = .ok text) :
    text = toHex (host.sha256 left.message) ∧ ∀ part ∈ left.parts, IsPlain part := by
  cases left with
  | baseline baseline =>
      simp only [digest, browserBaselineDigest] at digested
      split_ifs at digested with persisted fallback
      rw [Except.ok.injEq] at digested
      refine ⟨digested.symm, ?_⟩
      rw [Bool.not_eq_true', Bool.not_eq_false] at persisted
      simp only [parts, baselineParts, List.forall_mem_cons, List.not_mem_nil, false_imp_iff,
        implies_true, and_true]
      refine ⟨isPlain_string _, isPlain_string _, isPlain_string _, ?_, ?_⟩
      · cases isPersisted : baseline.persisted with
        | null => exact isPlain_null
        | present value =>
            rw [isPersisted, Persisted.valid] at persisted
            apply isPlain_of_isCanonical
            cases value <;> first | exact persisted | cases persisted
      · cases baseline.shownFallback with
        | none => exact isPlain_null
        | some f =>
            apply isPlain_array
            simp only [List.forall_mem_cons, List.not_mem_nil, false_imp_iff, implies_true, and_true]
            exact ⟨isPlain_string _, isPlain_string _, isPlain_string _⟩
  | change binding canonicalValue =>
      simp only [digest, browserChangeSetDigest] at digested
      split_ifs at digested with invalid
      rw [Except.ok.injEq] at digested
      refine ⟨digested.symm, ?_⟩
      simp only [Bool.or_eq_true, not_or, Bool.not_eq_true', Bool.not_eq_false] at invalid
      simp only [parts, changeParts, bindingParts, List.map_cons, List.map_nil, List.cons_append,
        List.nil_append, List.forall_mem_cons, List.not_mem_nil, false_imp_iff, implies_true, and_true]
      exact ⟨isPlain_string _, isPlain_string _, isPlain_string _, isPlain_string _,
        isPlain_string _, isPlain_string _, isPlain_string _, isPlain_of_isCanonical invalid.2⟩
  | token tokenId =>
      simp only [digest, Except.ok.injEq] at digested
      refine ⟨digested.symm, ?_⟩
      simp only [parts, referenceParts, List.forall_mem_cons, List.not_mem_nil, false_imp_iff,
        implies_true, and_true]
      exact ⟨isPlain_string _, isPlain_string _, isPlain_string _, isPlain_string _⟩

theorem baselineParts_injective : Function.Injective baselineParts := by
  rintro ⟨persisted, fallback⟩ ⟨persisted', fallback'⟩ same
  simp only [baselineParts, List.cons.injEq, JsValue.string.injEq, and_true, true_and] at same
  have kinds : js "null" ≠ js "present" := by decide
  have samePersisted : persisted = persisted' := by
    cases persisted <;> cases persisted'
    · rfl
    · exact absurd same.1 kinds
    · exact absurd same.1.symm kinds
    · exact congrArg Persisted.present same.2.1
  have sameFallback : fallback = fallback' := by
    cases fallback <;> cases fallback'
    · rfl
    · cases same.2.2
    · cases same.2.2
    · rename_i f f'
      cases f
      cases f'
      simpa [fallbackPart] using same.2.2
  rw [samePersisted, sameFallback]

theorem parts_injective : Function.Injective parts := by
  have baselines : js "baseline" ≠ BROWSER_WRITE_PURPOSE := by decide
  have purposes : js "change" ≠ js "token" := by decide
  intro left right same
  cases left <;> cases right
  case baseline.baseline => exact congrArg Subject.baseline (baselineParts_injective same)
  case change.change binding _ binding' _ =>
    cases binding
    cases binding'
    simp only [parts, changeParts, bindingParts, List.map_cons, List.map_nil, List.cons_append,
      List.nil_append, List.cons.injEq, JsValue.string.injEq, true_and, and_true] at same
    simp only [change.injEq, BrowserWriteBinding.mk.injEq]
    tauto
  case token.token =>
    simp only [parts, referenceParts, List.cons.injEq, JsValue.string.injEq, true_and, and_true] at same
    exact congrArg Subject.token same
  all_goals
    simp only [parts, baselineParts, changeParts, referenceParts, List.cons_append, List.nil_append,
      List.cons.injEq, JsValue.string.injEq, true_and] at same
    tauto

theorem eq_of_digest_eq {hashed : Set (List UInt8)} (collisionFree : Set.InjOn host.sha256 hashed)
    (leftMem : left.message ∈ hashed) (rightMem : right.message ∈ hashed) {text : JsString}
    (digested : left.digest host = .ok text) (digested' : right.digest host = .ok text) :
    left = right := by
  rcases digest_eq_ok digested with ⟨isText, plain⟩
  rcases digest_eq_ok digested' with ⟨isText', plain'⟩
  apply parts_injective
  have sameMessage := collisionFree leftMem rightMem (toHex_injective (isText.symm.trans isText'))
  exact JsValue.array.inj (jsonBytes_inj (isPlain_array plain) (isPlain_array plain') sameMessage)

end Subject

end Digests

section Shape

variable {host : Host} {value : JsValue} {t : BrowserWriteToken}
  {properties : List (JsString × JsValue)}

def BrowserWriteToken.members (t : BrowserWriteToken) : List (JsString × JsValue) :=
  textMembers (tokenNames.zip (tokenParts t.toUnsigned ++ [t.mac]))

def IsToken (value : JsValue) (t : BrowserWriteToken) : Prop :=
  ∃ properties, value = .object properties ∧ properties.Perm t.members

structure BrowserWriteToken.Fits (host : Host) (t : BrowserWriteToken) : Prop where
  contractVersion : t.contractVersion = BROWSER_WRITE_VERSION
  purpose : t.purpose = BROWSER_WRITE_PURPOSE
  keyVersion : isCode t.keyVersion = true
  binding : bindingValid t.binding = true
  tokenId : isReference t.tokenId = true
  tokenRef : isReference t.tokenRef = true
  baselineDigest : isReference t.baselineDigest = true
  mac : isMac t.mac = true
  issuedAt : validTime t.issuedAt = true
  expiresAt : validTime t.expiresAt = true
  lifetime : livesFor t.expiresAt t.issuedAt = true
  reference : t.tokenRef = tokenReference host t.tokenId

theorem sortTexts_eq_iff {left right : List JsString} :
    sortTexts left = sortTexts right ↔ left.Perm right := by
  constructor
  · intro same
    have sorted : (sortTexts left).Perm left := List.perm_insertionSort _ left
    have sorted' : (sortTexts right).Perm right := List.perm_insertionSort _ right
    exact sorted.symm.trans (same ▸ sorted')
  · intro perm
    have total : Std.Total fun left right : JsString => ¬right < left :=
      ⟨fun left right => List.le_total left right⟩
    have trans : IsTrans JsString fun left right => ¬right < left :=
      ⟨fun _ _ _ early late => List.le_trans early late⟩
    apply List.Perm.eq_of_pairwise _ (List.pairwise_insertionSort _ left)
      (List.pairwise_insertionSort _ right)
    · exact (List.perm_insertionSort _ left).trans
        (perm.trans (List.perm_insertionSort _ right).symm)
    · intro early late _ _ below above
      exact List.le_antisymm below above

theorem nodup_tokenNames : tokenNames.Nodup := by decide

theorem get_of_perm (perm : properties.Perm t.members) {name : JsString} {member : JsValue}
    (memberMem : (name, member) ∈ t.members) : (JsValue.object properties).get name = member := by
  have inProperties := perm.mem_iff.mpr memberMem
  have names : (properties.map Prod.fst).Nodup :=
    (perm.map Prod.fst).nodup_iff.mpr nodup_tokenNames
  have found := JsValue.exists_entry_get (JsValue.hasOwn_iff.mpr ⟨_, inProperties, rfl⟩)
  have sameEntry := List.inj_on_of_nodup_map names found inProperties rfl
  exact congrArg Prod.snd sameEntry

theorem readToken_of_perm (perm : properties.Perm t.members) :
    readToken (.object properties) = t := by
  have reads : ∀ member ∈ t.members, (JsValue.object properties).get member.1 = member.2 :=
    fun member memberMem => get_of_perm perm memberMem
  simp only [BrowserWriteToken.members, tokenNames, tokenParts, bindingParts, Unsigned.binding,
    textMembers, List.cons_append, List.nil_append, List.zip_cons_cons, List.zip_nil_right,
    List.map_cons, List.map_nil, List.forall_mem_cons] at reads
  simp only [readToken, reads, textOf]

theorem isToken_readToken (names : (properties.map Prod.fst).Perm tokenNames)
    (texts : ∀ property ∈ properties, isText property.2 = true) :
    IsToken (.object properties) (readToken (.object properties)) := by
  refine ⟨properties, rfl, ?_⟩
  have own : properties = (properties.map Prod.fst).map fun name =>
      (name, JsValue.string (textOf ((JsValue.object properties).get name))) := by
    rw [List.map_map]
    symm
    apply (List.map_congr_left _).trans (List.map_id _)
    rintro ⟨name, member⟩ memberMem
    have found := JsValue.exists_entry_get (JsValue.hasOwn_iff.mpr ⟨_, memberMem, rfl⟩)
    have sameEntry := List.inj_on_of_nodup_map (names.nodup_iff.mpr nodup_tokenNames) found
      memberMem rfl
    have isMember : (JsValue.object properties).get name = member := congrArg Prod.snd sameEntry
    have isString := texts _ memberMem
    rw [Function.comp_apply, isMember]
    cases member <;> first | rfl | cases isString
  exact (List.Perm.of_eq own).trans (names.map _)

theorem tokenShape_iff : tokenShape host value = true ↔
    IsToken value (readToken value) ∧ (readToken value).Fits host := by
  constructor
  · intro shaped
    cases value with
    | object properties =>
        simp only [tokenShape, Bool.and_eq_true, decide_eq_true_eq, List.all_eq_true] at shaped
        rcases shaped with ⟨⟨⟨⟨⟨⟨⟨⟨⟨⟨⟨⟨⟨names, texts⟩, contractVersion⟩, purpose⟩, keyVersion⟩, binding⟩,
          tokenId⟩, tokenRef⟩, baselineDigest⟩, mac⟩, issuedAt⟩, expiresAt⟩, lifetime⟩, reference⟩
        have perm := sortTexts_eq_iff.mp (textArray_injective names)
        exact ⟨isToken_readToken perm texts, contractVersion, purpose, keyVersion, binding, tokenId,
          tokenRef, baselineDigest, mac, issuedAt, expiresAt, lifetime, reference⟩
    | _ => cases shaped
  · rintro ⟨⟨properties, rfl, perm⟩, fits⟩
    have names : (properties.map Prod.fst).Perm tokenNames := perm.map Prod.fst
    have texts : ∀ property ∈ properties, isText property.2 = true := by
      intro property propertyMem
      rcases List.mem_map.mp (perm.mem_iff.mp propertyMem) with ⟨member, _, rfl⟩
      rfl
    simp only [tokenShape, Bool.and_eq_true, decide_eq_true_eq, List.all_eq_true]
    exact ⟨⟨⟨⟨⟨⟨⟨⟨⟨⟨⟨⟨⟨congrArg textArray (sortTexts_eq_iff.mpr names), texts⟩, fits.contractVersion⟩,
      fits.purpose⟩, fits.keyVersion⟩, fits.binding⟩, fits.tokenId⟩, fits.tokenRef⟩,
      fits.baselineDigest⟩, fits.mac⟩, fits.issuedAt⟩, fits.expiresAt⟩, fits.lifetime⟩, fits.reference⟩

end Shape

section Issued

variable {host : Host} {options : Options} {tokens : BrowserWriteTokens}

/-- Every key has a name that is a code, and the active key is the one of its name. -/
structure BrowserWriteTokens.Sound (tokens : BrowserWriteTokens) : Prop where
  named : ∀ version key, tokens.keys.get? version = some key → isCode version = true
  active : tokens.keys.get? tokens.activeKeyVersion = some tokens.activeKey

theorem addKey_eq_ok {entry : JsString × Secret} {keys next : OrderedMap JsString (List UInt8)}
    (added : addKey keys entry = .ok next) :
    isCode entry.1 = true ∧ ∃ bytes, entry.2.bytes? = some bytes ∧ next = keys.set entry.1 bytes := by
  rw [addKey] at added
  split_ifs at added with isNamed
  split at added
  · cases added
  · rename_i bytes isBytes
    split_ifs at added
    cases added
    exact ⟨by simpa using isNamed, bytes, isBytes, rfl⟩

theorem get?_foldlM_addKey {entries : List (JsString × Secret)}
    {keys built : OrderedMap JsString (List UInt8)} (distinct : (entries.map Prod.fst).Nodup)
    (added : entries.foldlM addKey keys = .ok built) (version : JsString) (key : List UInt8) :
    built.get? version = some key ↔
      (∃ secret, (version, secret) ∈ entries ∧ isCode version = true ∧ secret.bytes? = some key) ∨
        version ∉ entries.map Prod.fst ∧ keys.get? version = some key := by
  induction entries generalizing keys with
  | nil =>
      cases added
      simp
  | cons entry entries ih =>
      rw [List.foldlM_cons] at added
      rw [List.map_cons, List.nodup_cons] at distinct
      cases first : addKey keys entry with
      | error thrown =>
          rw [first] at added
          cases added
      | ok next =>
          rw [first] at added
          rcases addKey_eq_ok first with ⟨isNamed, bytes, isBytes, rfl⟩
          rw [ih distinct.2 added, OrderedMap.get?_set, List.map_cons, List.mem_cons, not_or]
          by_cases same : version = entry.1
          · have absent : ∀ secret, (version, secret) ∉ entries := fun secret secretMem =>
              distinct.1 (same ▸ List.mem_map_of_mem secretMem)
            rw [if_pos same]
            constructor
            · rintro (⟨secret, secretMem, _⟩ | ⟨_, isKey⟩)
              · exact absurd secretMem (absent secret)
              · exact .inl ⟨entry.2, same ▸ List.mem_cons_self, same ▸ isNamed, isBytes.trans isKey⟩
            · rintro (⟨secret, secretMem, _, isKey⟩ | ⟨⟨different, _⟩, _⟩)
              · rcases List.mem_cons.mp secretMem with isEntry | inRest
                · have isSecret : secret = entry.2 := congrArg Prod.snd isEntry
                  rw [isSecret, isBytes] at isKey
                  exact .inr ⟨same ▸ distinct.1, isKey⟩
                · exact absurd inRest (absent secret)
              · exact absurd same different
          · rw [if_neg same]
            have others : ∀ secret, (version, secret) ∈ entry :: entries ↔
                (version, secret) ∈ entries := by
              intro secret
              rw [List.mem_cons, or_iff_right]
              rintro rfl
              exact same rfl
            simp only [others, same, not_false_eq_true, true_and]

theorem keys_of_create (created : createBrowserWriteTokens options = .ok tokens)
    (version : JsString) (key : List UInt8) :
    tokens.keys.get? version = some key ↔ isCode version = true ∧
      ∃ secret, options.keys.get? version = some secret ∧ secret.bytes? = some key := by
  have names : (options.keys.ownEntries.map Prod.fst).Nodup :=
    (options.keys.ownEntries_perm.map Prod.fst).nodup_iff.mpr options.keys.nodupKeys
  rw [createBrowserWriteTokens] at created
  cases added : options.keys.ownEntries.foldlM addKey OrderedMap.empty with
  | error thrown =>
      rw [added] at created
      cases created
  | ok keys =>
      rw [added] at created
      simp only [bind, Except.bind] at created
      split at created
      · cases created
      · cases created
        rw [get?_foldlM_addKey names added, OrderedMap.get?_empty]
        simp only [options.keys.ownEntries_perm.mem_iff, OrderedMap.mem_entries_iff, and_false,
          or_false, reduceCtorEq]
        tauto

theorem sound_of_create (created : createBrowserWriteTokens options = .ok tokens) :
    tokens.Sound := by
  refine ⟨fun version key isKey => ((keys_of_create created version key).mp isKey).1, ?_⟩
  rw [createBrowserWriteTokens] at created
  cases added : options.keys.ownEntries.foldlM addKey OrderedMap.empty with
  | error thrown =>
      rw [added] at created
      cases created
  | ok keys =>
      rw [added] at created
      simp only [bind, Except.bind] at created
      split at created
      · cases created
      · rename_i activeKey isActive
        cases created
        exact isActive

/-- A call of `issue`, with the keys it was made under and the bytes it drew. -/
structure IssueCall where
  options : Options
  tokens : BrowserWriteTokens
  created : createBrowserWriteTokens options = .ok tokens
  binding : BrowserWriteBinding
  baselineDigest : JsString
  now : Date
  random : List UInt8
  drawn : random.length = 32

def IssueCall.result (host : Host) (call : IssueCall) : Except Thrown BrowserWriteToken :=
  issue host call.tokens call.binding call.baselineDigest call.now call.random

theorem isMac_signature (t : Unsigned) (secret : List UInt8) :
    isMac (signature host t secret) = true := by
  rw [isMac, matchesClasses_replicate]
  refine ⟨?_, Buffer.isBase64url_of_mem _⟩
  rw [signature, Buffer.length_toBase64url, host.length_hmac]

theorem validTime_toISOString (instant : Instant) : validTime instant.toISOString = true := by
  rw [validTime, Date.parse_toISOString]
  exact decide_eq_true rfl

theorem IssueCall.result_eq_ok {call : IssueCall} {t : BrowserWriteToken}
    (issued : call.result host = .ok t) :
    t.binding = call.binding ∧ t.keyVersion = call.tokens.activeKeyVersion ∧
      t.mac = signature host t.toUnsigned call.tokens.activeKey ∧ t.Fits host := by
  have sound := sound_of_create call.created
  rw [IssueCall.result, issue] at issued
  split_ifs at issued with invalid
  simp only [Bool.or_eq_true, not_or, Bool.not_eq_true', Bool.not_eq_false] at invalid
  rcases invalid with ⟨⟨validBinding, validBaseline⟩, isDate⟩
  cases isNow : call.now with
  | none => rw [isNow] at isDate; exact absurd rfl isDate
  | some now =>
      rw [isNow] at issued
      cases isEnd : timeClip (now.time + BROWSER_WRITE_LIFETIME_MS) with
      | none =>
          simp only [isoText, Option.bind_some, isEnd, bind, Except.bind] at issued
          cases issued
      | some later =>
          simp only [isoText, Option.bind_some, isEnd, bind, Except.bind, Except.ok.injEq] at issued
          have laterTime : later.time = now.time + BROWSER_WRITE_LIFETIME_MS := by
            rw [timeClip] at isEnd
            split_ifs at isEnd
            cases isEnd
            rfl
          rw [← issued]
          refine ⟨rfl, rfl, rfl, rfl, rfl, sound.named _ _ sound.active, validBinding,
            isReference_toHex call.drawn, isReference_toHex (host.length_sha256 _), validBaseline,
            isMac_signature _ _, validTime_toISOString _, validTime_toISOString _, ?_, rfl⟩
          simp only [livesFor, Date.parse_toISOString, laterTime]
          exact decide_eq_true (by ring)

end Issued

section Verification

variable {host : Host} {options : Options} {tokens : BrowserWriteTokens} {value : JsValue}
  {expected : BrowserWriteBinding}

def IssueCall.Signs (call : IssueCall) (host : Host) (key message : List UInt8) : Prop :=
  call.tokens.activeKey = key ∧ ∃ t, call.result host = .ok t ∧ signedBytes t.toUnsigned = message

/-- Whoever shows a signature has it from a call that signed the message. -/
def Unforgeable (host : Host) (calls : Set IssueCall) (value : JsValue) : Prop :=
  ∀ key message, (readToken value).mac = Buffer.toBase64url (host.hmac key message) →
    ∃ call ∈ calls, call.Signs host key message

theorem signedBytes_inj {left right : Unsigned} (same : signedBytes left = signedBytes right) :
    left = right := by
  have plain : ∀ t : Unsigned, IsPlain (.array ((tokenParts t).map .string)) := by
    intro t
    apply isPlain_array
    rw [List.forall_mem_map]
    exact fun text _ => isPlain_string text
  have parts := JsValue.array.inj (jsonBytes_inj (plain left) (plain right) same)
  have sameParts : tokenParts left = tokenParts right :=
    (List.map_injective_iff.mpr fun _ _ => JsValue.string.inj) parts
  cases left
  cases right
  simp only [tokenParts, bindingParts, Unsigned.binding, List.cons_append, List.nil_append,
    List.cons.injEq, and_true] at sameParts
  simp only [Unsigned.mk.injEq]
  exact sameParts

theorem ofText_inj_of_isMac {left right : JsString} (isMac' : isMac left = true)
    (isMac'' : isMac right = true) (same : Buffer.ofText left = Buffer.ofText right) : left = right := by
  have ascii : ∀ text, isMac text = true → ∀ unit ∈ text, unit.toNat < 128 := by
    intro text matched unit unitMem
    have isUnit := (matchesClasses_replicate.mp matched).2 unit unitMem
    simp only [Buffer.isBase64url, isLetter, isDigit, Bool.or_eq_true, Bool.and_eq_true,
      decide_eq_true_eq, UInt16.le_iff_toNat_le, UInt16.reduceToNat, ← UInt16.toNat_inj] at isUnit
    omega
  rw [← Buffer.toText_ofText (Buffer.length_ofText_of_ascii (ascii left isMac')).1, same,
    Buffer.toText_ofText (Buffer.length_ofText_of_ascii (ascii right isMac'')).1]

theorem BrowserWriteToken.eq_of_unsigned {left right : BrowserWriteToken}
    (unsigned : left.toUnsigned = right.toUnsigned) (mac : left.mac = right.mac) : left = right := by
  cases left
  cases right
  rw [BrowserWriteToken.mk.injEq]
  exact ⟨unsigned, mac⟩

theorem bindingParts_inj {left right : BrowserWriteBinding} :
    bindingParts left = bindingParts right ↔ left = right := by
  cases left
  cases right
  simp [bindingParts]

theorem verify_eq_ok_iff {t : BrowserWriteToken} :
    verify host tokens value expected = .ok (.ok t) ↔
      t = readToken value ∧ tokenShape host value = true ∧ t.binding = expected ∧
        ∃ key, tokens.keys.get? t.keyVersion = some key ∧ t.mac = signature host t.toUnsigned key := by
  constructor
  · intro accepted
    simp only [verify] at accepted
    split_ifs at accepted with rejected
    · rw [Except.ok.injEq] at accepted
      cases accepted
    · simp only [Bool.or_eq_true, Bool.not_eq_true', decide_eq_true_eq, not_or, Bool.not_eq_false,
        ne_eq, not_not] at rejected
      rcases rejected with ⟨⟨_, shaped⟩, bound⟩
      have fits := (tokenShape_iff.mp shaped).2
      split at accepted
      · cases accepted
      · rename_i key isKey
        rw [timingSafeEqual] at accepted
        split_ifs at accepted with sameLength
        · simp only [bind, Except.bind] at accepted
          split_ifs at accepted with differ
          · cases accepted
          · cases accepted
            rw [Bool.not_eq_true', Bool.not_eq_false, beq_iff_eq] at differ
            exact ⟨rfl, shaped, bindingParts_inj.mp bound, key, isKey,
              ofText_inj_of_isMac fits.mac (isMac_signature _ _) differ⟩
        · cases accepted
  · rintro ⟨rfl, shaped, rfl, key, isKey, isMac⟩
    have fits := (tokenShape_iff.mp shaped).2
    simp [verify, fits.binding, shaped, isKey, ← isMac, timingSafeEqual, bind, Except.bind]

def Options.Holds (options : Options) (version : JsString) (key : List UInt8) : Prop :=
  ∃ secret, options.keys.get? version = some secret ∧ secret.bytes? = some key

end Verification

namespace Sample

def secret : JsString := js "secret-key-material-32-bytes-minimum"

def tokenRef : List UInt8 :=
  [203, 213, 27, 211, 121, 200, 95, 91, 166, 39, 34, 213, 242, 7, 92, 212, 231, 77, 225, 24, 87, 50,
    153, 39, 3, 228, 64, 99, 54, 206, 76, 23]

def baselineDigest : List UInt8 :=
  [137, 66, 27, 110, 55, 85, 125, 232, 17, 25, 22, 146, 46, 24, 44, 208, 160, 225, 33, 108, 119, 68,
    153, 9, 211, 144, 26, 225, 90, 101, 27, 29]

def mac : List UInt8 :=
  [178, 160, 132, 105, 241, 159, 110, 239, 180, 16, 135, 127, 201, 32, 190, 253, 209, 109, 141, 246,
    106, 93, 230, 245, 154, 18, 250, 194, 11, 170, 187, 249]

def token : BrowserWriteToken where
  contractVersion := BROWSER_WRITE_VERSION
  purpose := BROWSER_WRITE_PURPOSE
  keyVersion := js "key1"
  tokenId := toHex (List.replicate 32 0)
  tokenRef := toHex tokenRef
  principalRef := List.replicate 64 97
  personRef := List.replicate 64 98
  field := js "displayName"
  normalizationVersion := js "nfc-v1"
  baselineDigest := toHex baselineDigest
  issuedAt := js "2026-11-04T00:00:00.000Z"
  expiresAt := js "2026-11-04T00:05:00.000Z"
  mac := Buffer.toBase64url mac

def host : Host where
  sha256 message :=
    if message = (Subject.token token.tokenId).message then tokenRef
    else if message = (Subject.baseline ⟨.null, none⟩).message then baselineDigest
    else List.replicate 32 0
  hmac key message :=
    if key = Buffer.ofText secret ∧ message = signedBytes token.toUnsigned then mac
    else List.replicate 32 0
  length_sha256 message := by split_ifs <;> rfl
  length_hmac key message := by split_ifs <;> rfl

def options : Options := ⟨js "key1", ⟨[(js "key1", .text secret)], by decide⟩⟩

def tokens : BrowserWriteTokens :=
  ⟨⟨[(js "key1", Buffer.ofText secret)], by decide⟩, js "key1", Buffer.ofText secret⟩

theorem created : createBrowserWriteTokens options = .ok tokens := by rfl

def call : IssueCall where
  options := options
  tokens := tokens
  created := created
  binding := token.binding
  baselineDigest := token.baselineDigest
  now := some ⟨1793750400000, by decide⟩
  random := List.replicate 32 0
  drawn := rfl

theorem issued : call.result host = .ok token := by decide +kernel

theorem unforgeable : Unforgeable host {call} (.object token.members) := by
  intro key message isMac
  have reads : readToken (.object token.members) = token := readToken_of_perm (List.Perm.refl _)
  rw [reads] at isMac
  have sameBytes := congrArg Buffer.ofBase64url isMac
  rw [show token.mac = Buffer.toBase64url mac from rfl, Buffer.ofBase64url_toBase64url,
    Buffer.ofBase64url_toBase64url] at sameBytes
  simp only [host] at sameBytes
  split_ifs at sameBytes with signed
  · exact ⟨call, rfl, signed.1.symm, token, issued, signed.2.symm⟩
  · exact absurd sameBytes (by decide)

def hashed : Set (List UInt8) :=
  {(Subject.token token.tokenId).message, (Subject.baseline ⟨.null, none⟩).message}

theorem collisionFree : Set.InjOn host.sha256 hashed := by
  rintro _ (rfl | rfl) _ (rfl | rfl) same
  · rfl
  · exact absurd same (by decide +kernel)
  · exact absurd same (by decide +kernel)
  · rfl

end Sample

end StudentHub.SafeWrite.BrowserTokens
