import StudentHub.Ecma.Objects

/-!
# Fields of an organization

What is shown of an organization comes from an imported snapshot row, whose values are
checked before they are shown, and from records that staff have written since. A field
is available with a value, or unavailable with a reason; each names the columns it comes
from. A value that does not pass its check is an error, never a field.
-/

namespace StudentHub.Organizations

open Ecma JsString

/-- What is thrown inside a read; the reader answers all of it with `unavailable`. -/
inductive OrganizationError
  | malformedValue
  | malformedSnapshot
  | unapprovedRevision
  | snapshotDisagrees
  | notACompany
  | incompleteAncestry
  | deepSubOrganization
  | nestedSubOrganizations
  | readFailed
  deriving DecidableEq

inductive OrganizationStatus
  | active
  | underReview
  | inactive
  deriving DecidableEq

def OrganizationStatus.text : OrganizationStatus → JsString
  | active => js "active"
  | underReview => js "under_review"
  | inactive => js "inactive"

/-- The fields a directory entry and a sub-organization summary show, and the override. -/
inductive OrganizationFieldName
  | legalName
  | commonNameEn
  | commonNameAr
  | currencyCode
  | approvedToHire
  | status
  | statusOverride
  deriving DecidableEq

def OrganizationFieldName.sourceField : OrganizationFieldName → JsString
  | legalName => js "company_name"
  | commonNameEn => js "company_common_name_en"
  | commonNameAr => js "company_common_name_ar"
  | currencyCode => js "currency_code"
  | approvedToHire => js "company_approved_to_hire"
  | status => js "company_status_override, total_candidate, " ++
      js "is_request_updates_in_30_days, no_of_active_requests"
  | statusOverride => js "company_status_override"

inductive UnavailableReason
  | notImported
  | notRecorded
  deriving DecidableEq

inductive OrganizationField (Value : Type)
  | available (value : Value) (sourceField : JsString)
  | unavailable (reason : UnavailableReason) (sourceField : JsString)
  deriving DecidableEq

def available {Value : Type} (name : OrganizationFieldName) (value : Value) :
    OrganizationField Value :=
  .available value name.sourceField

def unavailable {Value : Type} (name : OrganizationFieldName) (reason : UnavailableReason) :
    OrganizationField Value :=
  .unavailable reason name.sourceField

def availableValue {Value : Type} : OrganizationField Value → Option Value
  | .available value _ => some value
  | .unavailable _ _ => none

abbrev Row := List (JsString × JsValue)

def Row.hasOwn (row : Row) (name : JsString) : Bool := name ∈ row.map Prod.fst

def Row.get (row : Row) (name : JsString) : JsValue := (JsValue.object row).get name

def isInteger (value : JsValue) (number : ℤ) : Bool :=
  match value with
  | .number (.finite finite) => finite.integer? = some number
  | _ => false

def text (maxLength : ℕ) (value : JsValue) : Except OrganizationError JsString :=
  match value with
  | .string text =>
      if text.trim.length = 0 ∨ maxLength < text.length then .error .malformedValue else .ok text
  | _ => .error .malformedValue

def flag (value : JsValue) : Except OrganizationError Bool :=
  match value with
  | .boolean value => .ok value
  | value =>
      if isInteger value 1 then .ok true
      else if isInteger value 0 then .ok false
      else .error .malformedValue

/-- `/^[A-Z]{3}$/` -/
def isCurrency (text : JsString) : Bool := text.matchesClasses [isUpper, isUpper, isUpper]

def currency (value : JsValue) : Except OrganizationError JsString :=
  match value with
  | .string text => if isCurrency text then .ok text else .error .malformedValue
  | _ => .error .malformedValue

def counter (value : JsValue) : Except OrganizationError ℕ :=
  match nonNegativeInteger value with
  | some count => .ok count.value
  | none => .error .malformedValue

def plainField {Value : Type} (name : OrganizationFieldName)
    (parser : JsValue → Except OrganizationError Value) (row : Row) :
    Except OrganizationError (OrganizationField Value) :=
  if row.hasOwn name.sourceField then
    match row.get name.sourceField with
    | .null => .ok (unavailable name .notRecorded)
    | raw => (parser raw).map (available name)
  else
    .ok (unavailable name .notImported)

inductive OrganizationStatusRecord
  | absent
  | cleared
  | status (status : OrganizationStatus)
  deriving DecidableEq

def statusOverride (row : Row) : Except OrganizationError (OrganizationField OrganizationStatus) :=
  if row.hasOwn (js "company_status_override") then
    match row.get (js "company_status_override") with
    | .null | .boolean false => .ok (unavailable .statusOverride .notRecorded)
    | raw =>
        if isInteger raw 0 then .ok (unavailable .statusOverride .notRecorded)
        else if isInteger raw 10 then .ok (available .statusOverride .active)
        else if isInteger raw 9 then .ok (available .statusOverride .underReview)
        else .error .malformedValue
  else
    .ok (unavailable .statusOverride .notImported)

/-- The loop over the activity counters: the first positive one makes the status active. -/
def activityStatus (row : Row) (missing : Bool) :
    List JsString → Except OrganizationError (OrganizationField OrganizationStatus)
  | [] => .ok (if missing then unavailable .status .notImported else available .status .inactive)
  | name :: rest =>
      if row.hasOwn name then
        match row.get name with
        | .null => activityStatus row true rest
        | raw => do
            if 0 < (← counter raw) then
              return available .status .active
            else
              activityStatus row missing rest
      else
        activityStatus row true rest

def deriveOrganizationStatus (row : Row) (record : Option OrganizationStatusRecord) :
    Except OrganizationError (OrganizationField OrganizationStatus) :=
  match record with
  | some (.status status) => .ok (available .status status)
  | _ => do
      let activity := activityStatus row false
        [js "total_candidate", js "is_request_updates_in_30_days", js "no_of_active_requests"]
      match (← statusOverride row) with
      | .available value _ =>
          if record = some .cleared then activity else return available .status value
      | .unavailable .notImported _ =>
          if record = some .cleared then activity else return unavailable .status .notImported
      | .unavailable .notRecorded _ => activity

def shownStatus (row : Option Row) (record : Option OrganizationStatusRecord) :
    Except OrganizationError (OrganizationField OrganizationStatus) :=
  match row, record with
  | none, some (.status _) => deriveOrganizationStatus [] record
  | none, _ => .ok (unavailable .status .notImported)
  | some row, _ => deriveOrganizationStatus row record

inductive OrganizationCommercialTermRecord
  | absent
  | cleared
  | value (value : JsString)
  deriving DecidableEq

def storedCurrency (row : Option Row) (record : Option OrganizationCommercialTermRecord) :
    Except OrganizationError (OrganizationField JsString) :=
  match record with
  | some (.value value) => (currency (.string value)).map (available .currencyCode)
  | some .cleared => .ok (unavailable .currencyCode .notRecorded)
  | _ =>
      match row with
      | none => .ok (unavailable .currencyCode .notImported)
      | some row => plainField .currencyCode currency row

inductive ApprovedOrganizationSnapshot
  | unconfigured
  | missing
  | found (row : JsValue)

def ORGANIZATION_PARITY_REVISION : JsString := js "c2ce255695eabc7e3a0f23b162f5996274234c63"

/-- `/^\d{4}-\d{2}-\d{2}T\d{2}:\d{2}:\d{2}(?:\.\d{3})?Z$/` -/
def isObservationTime (text : JsString) : Bool :=
  let only (literal : UInt16) (unit : UInt16) : Bool := unit = literal
  let two := List.replicate 2 isDigit
  let seconds := List.replicate 4 isDigit ++ only 45 :: two ++ only 45 :: two ++ only 84 :: two ++
    only 58 :: two ++ only 58 :: two
  text.matchesClasses (seconds ++ [only 90]) ||
    text.matchesClasses (seconds ++ only 46 :: List.replicate 3 isDigit ++ [only 90])

def observedAt (dates : DateParser) (row : Row) : Except OrganizationError JsString :=
  match row.get (js "imported_at") with
  | .string value =>
      if isObservationTime value ∧ (dates.parse value).isSome then
        if (row.get (js "source_revision")).isText ORGANIZATION_PARITY_REVISION then .ok value
        else .error .unapprovedRevision
      else .error .malformedSnapshot
  | _ => .error .malformedSnapshot

def Row.namesParent (row : Row) (parentOrgId : Option JsString) : Bool :=
  match (row.get (js "parent_org_id")).orElse .null, parentOrgId with
  | .null, none => true
  | .string parent, some parentOrgId => parent = parentOrgId
  | _, _ => false

def snapshotRow (dates : DateParser) (snapshot : ApprovedOrganizationSnapshot) (orgId : JsString)
    (parentOrgId : Option JsString) : Except OrganizationError (Option Row) :=
  match snapshot with
  | .unconfigured | .missing => .ok none
  | .found (.object properties) => do
      let row : Row := properties
      let _ ← observedAt dates row
      if (row.get (js "org_id")).isText orgId ∧ row.namesParent parentOrgId then
        return some row
      else
        throw .snapshotDisagrees
  | .found _ => .error .malformedSnapshot

end StudentHub.Organizations
