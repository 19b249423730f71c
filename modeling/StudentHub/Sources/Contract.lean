import StudentHub.Ecma.Number
import StudentHub.Ecma.Canonical

/-!
# Source connections

The import contract for links between accounts of an external system and persons: its
records, the masks under which a report shows them, and the validation of one record. A
record is untrusted: any of its fields can be any value.

Three things are the engine's or the platform's: the locale, of which only the order it
compares strings in is known, the digest of person ids and `Date.parse`.
-/

namespace StudentHub.Sources

open Ecma JsString Json

structure SourceHost where
  localeCompare : Comparator JsString
  sha256 : Utf8 → JsString
  dates : DateParser

inductive SourceSystem
  | discord
  | google
  deriving DecidableEq

def SourceSystem.text : SourceSystem → JsString
  | discord => js "discord"
  | google => js "google"

/-- `SUPPORTED_SOURCES.includes(value)`, with the source found. -/
def isSupportedSource (value : JsString) : Option SourceSystem :=
  [SourceSystem.discord, .google].find? fun source => source.text = value

inductive SourceConnectionContractVersion
  | v1_0_0
  deriving DecidableEq

structure RawSourceRecord where
  source : JsValue
  externalId : JsValue
  personId : JsValue
  provenance : JsValue
  observedAt : JsValue

@[ext]
structure NormalizedSourceConnection where
  contractVersion : SourceConnectionContractVersion
  source : SourceSystem
  externalId : JsString
  personId : JsString
  provenance : JsString
  observedAt : JsString
  deriving DecidableEq

inductive RejectionReason
  | unsupportedSource
  | missingExternalId
  | malformedExternalId
  | missingPersonId
  | malformedPersonId
  | missingProvenance
  | missingObservedAt
  | malformedObservedAt
  deriving DecidableEq

/-- A source that is not supported is shown as `"unsupported"`, here `none`. -/
structure RejectedRecord where
  reason : RejectionReason
  externalIdMask : JsString
  source : Option SourceSystem
  deriving DecidableEq

inductive ConflictKind
  | externalIdentityClaimedByMultiplePeople
  | personClaimedInconsistently
  deriving DecidableEq

def ConflictKind.text : ConflictKind → JsString
  | externalIdentityClaimedByMultiplePeople => js "external_identity_claimed_by_multiple_people"
  | personClaimedInconsistently => js "person_claimed_inconsistently"

structure ConflictReport where
  kind : ConflictKind
  source : SourceSystem
  externalIdMasks : List JsString
  personRefs : List JsString
  deriving DecidableEq

structure NormalizationResult where
  accepted : List NormalizedSourceConnection
  rejected : List RejectedRecord
  conflicts : List ConflictReport

def maskEdge : ℕ := 2

def maskAllBelow : ℕ := 2 * maskEdge + 3

def maskIdentifier (value : JsString) : JsString :=
  if value.length < maskAllBelow then
    js "***(" ++ decimal value.length ++ js ")"
  else
    value.take maskEdge ++ js "***" ++ value.drop (value.length - maskEdge) ++ js "(" ++
      decimal value.length ++ js ")"

def personRef (host : SourceHost) (personId : JsString) : JsString := host.sha256 personId.toUtf8

def text : JsValue → JsString
  | .string value => value.trim
  | _ => []

/-- Days in a month that exists; `Date.UTC` takes the years up to 99 for those of the
twentieth century. -/
def daysInMonth (year month : ℕ) : ℤ :=
  Calendar.daysInMonth (if year ≤ 99 then 1900 + year else year) month

/-- The groups of `INSTANT_PATTERN`. -/
structure InstantGroups where
  year : ℕ
  month : ℕ
  day : ℕ
  hour : ℕ
  minute : ℕ
  second : ℕ

/-- `(?:Z|[+-]\d{2}:\d{2})$` -/
def isOffset (rest : JsString) : Bool :=
  rest = [90] || matchesClasses [fun unit => unit = 43 || unit = 45, isDigit, isDigit,
    fun unit => unit = 58, isDigit, isDigit] rest

/-- `(?:\.\d{1,3})?(?:Z|[+-]\d{2}:\d{2})$`. No offset begins with a digit, so the fraction
takes all digits there are. -/
def isFractionAndOffset : JsString → Bool
  | 46 :: rest =>
      let fraction := rest.takeWhile isDigit
      1 ≤ fraction.length && fraction.length ≤ 3 && isOffset (rest.dropWhile isDigit)
  | rest => isOffset rest

def instantPattern (value : JsString) : Option InstantGroups := do
  let (year, rest) ← Date.takeDigits 4 value
  let rest ← Date.takeUnit 45 rest
  let (month, rest) ← Date.takeDigits 2 rest
  let rest ← Date.takeUnit 45 rest
  let (day, rest) ← Date.takeDigits 2 rest
  let rest ← Date.takeUnit 84 rest
  let (hour, rest) ← Date.takeDigits 2 rest
  let rest ← Date.takeUnit 58 rest
  let (minute, rest) ← Date.takeDigits 2 rest
  let rest ← Date.takeUnit 58 rest
  let (second, rest) ← Date.takeDigits 2 rest
  if isFractionAndOffset rest then some ⟨year, month, day, hour, minute, second⟩ else none

def toUtcInstant (host : SourceHost) (value : JsString) : Option JsString :=
  match instantPattern value with
  | none => none
  | some groups =>
      if groups.month < 1 ∨ groups.month > 12 then
        none
      else if groups.day < 1 ∨ (groups.day : ℤ) > daysInMonth groups.year groups.month then
        none
      else if groups.hour > 23 ∨ groups.minute > 59 ∨ groups.second > 59 then
        none
      else
        (host.dates.parse value).map Instant.toISOString

/-- `typeof value === "string" ? value : ""` -/
def rawText : JsValue → JsString
  | .string value => value
  | _ => []

def normalizeOne (host : SourceHost) (raw : RawSourceRecord) :
    Except RejectedRecord NormalizedSourceConnection :=
  -- Only U+212A lowers to an ASCII letter from outside ASCII, and no source has a k.
  let source := isSupportedSource (toLowerCase (text raw.source))
  let rawExternalId := rawText raw.externalId
  let externalId := rawExternalId.trim
  let reject (reason : RejectionReason) : Except RejectedRecord NormalizedSourceConnection :=
    .error ⟨reason, maskIdentifier externalId, source⟩
  match source with
  | none => reject .unsupportedSource
  | some supported =>
      let rawPersonId := rawText raw.personId
      let personId := rawPersonId.trim
      let provenance := text raw.provenance
      let observedRaw := text raw.observedAt
      if externalId = [] then
        reject .missingExternalId
      else if externalId ≠ rawExternalId then
        reject .malformedExternalId
      else if personId = [] then
        reject .missingPersonId
      else if personId ≠ rawPersonId then
        reject .malformedPersonId
      else if provenance = [] then
        reject .missingProvenance
      else if observedRaw = [] then
        reject .missingObservedAt
      else
        match toUtcInstant host observedRaw with
        | none => reject .malformedObservedAt
        | some observedAt =>
            .ok ⟨.v1_0_0, supported, externalId, personId, provenance, observedAt⟩

def identityKey (candidate : NormalizedSourceConnection) : JsString :=
  textArray [candidate.source.text, candidate.externalId]

def personKey (candidate : NormalizedSourceConnection) : JsString :=
  textArray [candidate.source.text, candidate.personId]

/-- The full identity triple: the unit an import collapses duplicates onto. -/
def tripleKey (candidate : NormalizedSourceConnection) : JsString :=
  textArray [candidate.source.text, candidate.externalId, candidate.personId]

theorem SourceSystem.text_injective : Function.Injective SourceSystem.text := by
  intro left right same
  cases left <;> cases right
  · rfl
  · exact absurd same (by decide)
  · exact absurd same (by decide)
  · rfl

section Keys

variable {left right : NormalizedSourceConnection}

theorem identityKey_eq_iff :
    identityKey left = identityKey right ↔
      left.source = right.source ∧ left.externalId = right.externalId := by
  simp only [identityKey, textArray_injective.eq_iff, List.cons.injEq, and_true,
    SourceSystem.text_injective.eq_iff]

theorem personKey_eq_iff :
    personKey left = personKey right ↔
      left.source = right.source ∧ left.personId = right.personId := by
  simp only [personKey, textArray_injective.eq_iff, List.cons.injEq, and_true,
    SourceSystem.text_injective.eq_iff]

theorem tripleKey_eq_iff :
    tripleKey left = tripleKey right ↔
      left.source = right.source ∧ left.externalId = right.externalId ∧
        left.personId = right.personId := by
  simp only [tripleKey, textArray_injective.eq_iff, List.cons.injEq, and_true,
    SourceSystem.text_injective.eq_iff]

end Keys

end StudentHub.Sources
