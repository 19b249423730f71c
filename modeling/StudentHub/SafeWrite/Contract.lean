import StudentHub.Concurrency.Process
import StudentHub.Ecma.Canonical
import StudentHub.Ecma.Date
import StudentHub.Ecma.OrderedMap

/-!
# The safe-write contract

A change to a field of a record is previewed and then confirmed. The preview issues a
token that commits to the change and to the value it showed; the confirm takes a token
from its caller, checks it, and hands the change to the store. Both are processes over
the ports they are given: the store, the clock, the random source and the set of tokens
that one instance has seen spent.
-/

namespace StudentHub.SafeWrite

open Ecma Ecma.JsString Ecma.Json Concurrency

/-- What the runtime computes: SHA-256 in hex, the HMAC under the shared secret in
base64url, and the date of a string outside the interchange format, `none` standing for a
value that is no string. -/
structure Platform where
  sha256 : Utf8 → JsString
  hmac : Utf8 → JsString
  parseOther : Option JsString → Date

def safeWriteContractVersion : JsString := js "3.0.0"

/-- `REFERENCE_PATTERN` -/
def isReference (text : JsString) : Bool := matchesClasses (List.replicate 64 isLowerHex) text

inductive RejectionReason
  | unknownField
  | invalidValue
  | malformedReference
  | notOwnRecord
  | tokenExpired
  | tokenAlreadyUsed
  | tokenPrincipalMismatch
  | tokenChangeSetMismatch
  | tokenNotIssued
  | stateChanged
  | receiptFailed
  deriving DecidableEq

structure FieldPolicy where
  allowed : List JsString
  maxValueLength : ℕ
  allowClear : Bool

structure ChangeRequest where
  personRef : JsString
  field : JsString
  value : JsValue

/-- The value of a change that `validateChange` lets through. -/
def ChangeRequest.text (change : ChangeRequest) : JsString :=
  match change.value with
  | .string text => text
  | _ => []

structure FieldChange where
  field : JsString
  before : Option JsString
  after : JsString
  deriving DecidableEq

/-- A token is an object from outside; `UnsignedToken` has the members of an issued one. -/
abbrev ActionToken := OrderedMap JsString JsValue

def textMember (token : ActionToken) (name : JsString) : Option JsString :=
  match token.get? name with
  | some (.string text) => some text
  | _ => none

structure UnsignedToken where
  tokenId : JsString
  changeSetDigest : JsString
  expectedBeforeDigest : JsString
  principalRef : JsString
  issuedAt : JsString
  expiresAt : JsString

structure PreviewRequest where
  change : ChangeRequest
  principalRef : JsString

structure ConfirmRequest where
  token : ActionToken
  change : ChangeRequest
  principalRef : JsString

inductive PreviewResult
  | accepted (changes : List FieldChange) (token : ActionToken)
  | refused (reason : RejectionReason)

structure Receipt where
  contractVersion : JsString
  receiptRef : JsString
  personRef : JsString
  principalRef : JsString
  changeSetDigest : JsString
  fields : List JsString
  committedAt : JsString
  deriving DecidableEq

inductive ConfirmResult
  | accepted (receipt : Receipt)
  | refused (reason : RejectionReason)

inductive CommitRefusal
  | stateChanged
  | tokenAlreadyUsed
  | notOwnRecord
  | invalidValue
  deriving DecidableEq

def CommitRefusal.rejection : CommitRefusal → RejectionReason
  | stateChanged => .stateChanged
  | tokenAlreadyUsed => .tokenAlreadyUsed
  | notOwnRecord => .notOwnRecord
  | invalidValue => .invalidValue

/-- What a commit is given; its token is `none` when it is named by no string. -/
structure CommitInput where
  personRef : JsString
  principalRef : JsString
  tokenId : Option JsString
  field : JsString
  expectedBefore : Option JsString
  value : JsString
  changeSetDigest : JsString
  receipt : Receipt
  deriving DecidableEq

inductive CommitAnswer
  | accepted
  | refused (reason : CommitRefusal)
  | threw

inductive PortOp
  | ownedRecord (principalRef : JsString)
  | readField (personRef field : JsString)
  | now
  | randomBytes
  | isSpent (tokenId : Option JsString)
  | spend (tokenId : Option JsString)
  | commit (input : CommitInput)

def PortOp.Answer : PortOp → Type
  | ownedRecord _ => Option JsString
  | readField _ _ => Option JsString
  | now => Date
  | randomBytes => JsString
  | isSpent _ => Bool
  | spend _ => Unit
  | commit _ => CommitAnswer

/-- The error of `toISOString` of an invalid date. -/
inductive RangeError
  | invalidTime

abbrev Work := Process PortOp.Answer RangeError

structure SafeWriteOptions where
  policy : FieldPolicy
  tokenLifetimeMs : ℤ

def defaultTokenLifetimeMs : ℤ := 5 * 60 * 1000

def validateChange (change : ChangeRequest) (policy : FieldPolicy) : Option RejectionReason :=
  if ¬isReference change.personRef then
    some .malformedReference
  else if change.field ∉ policy.allowed then
    some .unknownField
  else
    match change.value with
    | .string value =>
        if (policy.allowClear = false ∧ value.length = 0) ∨
            policy.maxValueLength < value.codePointCount then
          some .invalidValue
        else if value ≠ value.trim then
          some .invalidValue
        else
          none
    | _ => some .invalidValue

def UnsignedToken.members (token : UnsignedToken) : List (JsString × JsString) :=
  [(js "tokenId", token.tokenId), (js "changeSetDigest", token.changeSetDigest),
    (js "expectedBeforeDigest", token.expectedBeforeDigest),
    (js "principalRef", token.principalRef), (js "issuedAt", token.issuedAt),
    (js "expiresAt", token.expiresAt)]

def UnsignedToken.toToken (token : UnsignedToken) : ActionToken where
  entries := textMembers token.members
  nodupKeys := by
    simp only [members, textMembers, List.map_cons, List.map_nil]
    decide

namespace Platform

variable (platform : Platform)

def sha256Hex (value : JsString) : JsString := platform.sha256 value.toUtf8

def changeSetDigest (change : ChangeRequest) : JsString :=
  platform.sha256Hex (safeWriteContractVersion ++ [10] ++ canonicalText (.object
    [(js "personRef", .string change.personRef), (js "field", .string change.field),
      (js "value", change.value)]))

def expectedStateDigest (before : Option JsString) : JsString :=
  platform.sha256Hex (safeWriteContractVersion ++ [10] ++
    (if before = none then js "absent" else js "present") ++ [10] ++ before.getD [])

def signedMessage (token : ActionToken) : Utf8 :=
  (safeWriteContractVersion ++ [10] ++ canonicalText (.object token.entries)).toUtf8

def tokenMac (token : ActionToken) : JsString := platform.hmac (signedMessage token)

def MacVerifies (token : ActionToken) : Prop :=
  ((textMember token (js "mac")).getD []).toUtf8 =
    (platform.tokenMac (token.delete (js "mac"))).toUtf8

instance (token : ActionToken) : Decidable (platform.MacVerifies token) :=
  inferInstanceAs (Decidable (_ = _))

def sign (token : UnsignedToken) : ActionToken :=
  token.toToken.set (js "mac") (.string (platform.tokenMac token.toToken))

/-- `Date.parse` -/
def parseDate (text : Option JsString) : Date :=
  (text.bind Date.parse).or (platform.parseOther text)

def preview (options : SafeWriteOptions) (request : PreviewRequest) : Work PreviewResult :=
  if ¬isReference request.principalRef then
    .returned (.refused .malformedReference)
  else
    match validateChange request.change options.policy with
    | some invalid => .returned (.refused invalid)
    | none =>
        .perform (.ownedRecord request.principalRef) fun (owned : Option JsString) =>
        if owned ≠ some request.change.personRef then
          .returned (.refused .notOwnRecord)
        else
          .perform (.readField request.change.personRef request.change.field) fun before =>
          .perform .now fun now =>
          .perform .randomBytes fun tokenId =>
          match now, now.bind fun issuedAt => timeClip (issuedAt.time + options.tokenLifetimeMs) with
          | some issuedAt, some expiresAt =>
              .returned (.accepted [⟨request.change.field, before, request.change.text⟩]
                (platform.sign
                  { tokenId := tokenId
                    changeSetDigest := platform.changeSetDigest request.change
                    expectedBeforeDigest := platform.expectedStateDigest before
                    principalRef := request.principalRef
                    issuedAt := issuedAt.toISOString
                    expiresAt := expiresAt.toISOString }))
          | _, _ => .thrown .invalidTime

def commitChange (request : ConfirmRequest) (current : Option JsString) : Work ConfirmResult :=
  .perform .now fun now =>
  match now with
  | none => .thrown .invalidTime
  | some instant =>
      let tokenId := textMember request.token (js "tokenId")
      let digest := platform.changeSetDigest request.change
      let receipt : Receipt :=
        { contractVersion := safeWriteContractVersion
          receiptRef := platform.sha256Hex
            (tokenId.getD (js "undefined") ++ [10] ++ digest ++ [10] ++ instant.toISOString)
          personRef := request.change.personRef
          principalRef := request.principalRef
          changeSetDigest := digest
          fields := [request.change.field]
          committedAt := instant.toISOString }
      .perform (.commit
        { personRef := request.change.personRef
          principalRef := request.principalRef
          tokenId := tokenId
          field := request.change.field
          expectedBefore := current
          value := request.change.text
          changeSetDigest := digest
          receipt := receipt }) fun outcome =>
      match outcome with
      | .threw => .returned (.refused .receiptFailed)
      | .refused reason => .returned (.refused reason.rejection)
      | .accepted => .perform (.spend tokenId) fun _ => .returned (.accepted receipt)

/-- The checks after those of the token itself: the change it commits to, the owner of the
record and the value it showed. -/
def confirmChange (request : ConfirmRequest) : Work ConfirmResult :=
  if textMember request.token (js "changeSetDigest") ≠
      some (platform.changeSetDigest request.change) then
    .returned (.refused .tokenChangeSetMismatch)
  else
    .perform (.ownedRecord request.principalRef) fun (owned : Option JsString) =>
    if owned ≠ some request.change.personRef then
      .returned (.refused .notOwnRecord)
    else
      .perform (.readField request.change.personRef request.change.field) fun current =>
      if textMember request.token (js "expectedBeforeDigest") ≠
          some (platform.expectedStateDigest current) then
        .returned (.refused .stateChanged)
      else
        platform.commitChange request current

def confirm (policy : FieldPolicy) (request : ConfirmRequest) : Work ConfirmResult :=
  if ¬isReference request.principalRef then
    .returned (.refused .malformedReference)
  else
    match validateChange request.change policy with
    | some invalid => .returned (.refused invalid)
    | none =>
        if ¬platform.MacVerifies request.token then
          .returned (.refused .tokenNotIssued)
        else if textMember request.token (js "principalRef") ≠ some request.principalRef then
          .returned (.refused .tokenPrincipalMismatch)
        else
          .perform (.isSpent (textMember request.token (js "tokenId"))) fun (spent : Bool) =>
          if spent then
            .returned (.refused .tokenAlreadyUsed)
          else
            .perform .now fun now =>
            if now.reaches (platform.parseDate (textMember request.token (js "expiresAt"))) then
              .returned (.refused .tokenExpired)
            else
              platform.confirmChange request

end Platform

end StudentHub.SafeWrite
