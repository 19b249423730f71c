import StudentHub.Ecma.Date

/-!
# Incident markers

A marker is a comment whose fenced block holds nine members as JSON. The texts among them hold
no character that JSON escapes, so what is written can be read back member by member.
-/

namespace StudentHub.Incidents

open Ecma JsString

/-- `INCIDENT_MAX_ATTEMPTS` -/
def maxAttempts : ℤ := 3

def incidentVersion : JsString := js "1.0.0"

/-- `/^inc_[0-9a-f]{32}$/` -/
def isIncidentId (text : JsString) : Bool :=
  (js "inc_").isPrefixOf text && matchesClasses (List.replicate 32 isLowerHex) (text.drop 4)

/-- `/^[A-Za-z0-9_-]{8,64}$/` -/
def isActivationId (text : JsString) : Bool :=
  8 ≤ text.length && text.length ≤ 64 &&
    text.all fun unit => isLetter unit || isDigit unit || unit = 95 || unit = 45

/-- `/^[0-9a-f]{8}-[0-9a-f]{4}-[1-5][0-9a-f]{3}-[89ab][0-9a-f]{3}-[0-9a-f]{12}$/` -/
def isUuid (text : JsString) : Bool :=
  let hex (count : ℕ) := List.replicate count isLowerHex
  let one (fits : UInt16 → Bool) := [fits]
  let dash := one fun unit => unit = 45
  matchesClasses (hex 8 ++ dash ++ hex 4 ++ dash ++ one (fun unit => 49 ≤ unit && unit ≤ 53) ++
    hex 3 ++ dash ++ one (fun unit => unit ∈ js "89ab") ++ hex 3 ++ dash ++ hex 12) text

def isReason (code : JsString) : Bool :=
  code ∈ [js "ambiguous_hold", js "revision_budget_exhausted", js "failure_budget_exhausted",
    js "stale_head", js "unreadable_head", js "adapter_paused", js "activation_expired",
    js "builder_failed", js "unknown_breaker"]

def safeIso (text : JsString) : Option Instant := Date.parse text

structure IncidentMarker where
  version : JsString
  eventId : JsString
  activationId : JsString
  reasonCode : JsString
  status : JsString
  attempt : ℤ
  retryNotBefore : Option JsString
  incidentId : Option JsString
  recordedAt : JsString
  deriving DecidableEq

/-- What `parseIncidentMarkers` asks of the members of a marker. -/
def IncidentMarker.acceptable (marker : IncidentMarker) : Bool :=
  marker.version = incidentVersion && isIncidentId marker.eventId &&
    isActivationId marker.activationId && isReason marker.reasonCode &&
    marker.status ∈ [js "pending", js "confirmed", js "exhausted"] &&
    0 ≤ marker.attempt && marker.attempt ≤ maxAttempts &&
    (marker.retryNotBefore.all fun text => (safeIso text).isSome) &&
    marker.incidentId.all isUuid && (safeIso marker.recordedAt).isSome

def markerFront : JsString :=
  js "<!-- coordinator-incident v1 -->\ncoordinator-incident v1\n```json\n\x7b\"version\":"

def markerBack : JsString := js "\x7d\n```"

def quote (text rest : JsString) : JsString := 34 :: (text ++ 34 :: rest)

def nullable (text : Option JsString) (rest : JsString) : JsString :=
  match text with
  | none => js "null" ++ rest
  | some text => quote text rest

def renderIncidentMarker (marker : IncidentMarker) : JsString :=
  markerFront ++ quote marker.version (js ",\"event_id\":" ++ quote marker.eventId
    (js ",\"activation_id\":" ++ quote marker.activationId (js ",\"reason_code\":" ++
      quote marker.reasonCode (js ",\"status\":" ++ quote marker.status (js ",\"attempt\":" ++
        (decimal marker.attempt.toNat ++ (js ",\"retry_not_before\":" ++
          nullable marker.retryNotBefore (js ",\"incident_id\":" ++
            nullable marker.incidentId (js ",\"recorded_at\":" ++
              quote marker.recordedAt markerBack)))))))))

def strip (front text : JsString) : Option JsString :=
  if front.isPrefixOf text then some (text.drop front.length) else none

def takeText : JsString → Option (JsString × JsString)
  | [] => none
  | unit :: rest =>
      if unit = 34 then some ([], rest)
      else (takeText rest).map fun (text, rest) => (unit :: text, rest)

def takeQuoted (text : JsString) : Option (JsString × JsString) :=
  (strip [34] text).bind takeText

def takeNullable (text : JsString) : Option (Option JsString × JsString) :=
  match strip (js "null") text with
  | some rest => some (none, rest)
  | none => (takeQuoted text).map fun (text, rest) => (some text, rest)

def takeDigit : JsString → Option (ℤ × JsString)
  | [] => none
  | unit :: rest => if isDigit unit then some (digitValue unit, rest) else none

/-- The marker in a comment that was written as `renderIncidentMarker` writes it. -/
def readRendered (body : JsString) : Option IncidentMarker := do
  let text ← strip markerFront body
  let (version, text) ← takeQuoted text
  let (eventId, text) ← (strip (js ",\"event_id\":") text).bind takeQuoted
  let (activationId, text) ← (strip (js ",\"activation_id\":") text).bind takeQuoted
  let (reasonCode, text) ← (strip (js ",\"reason_code\":") text).bind takeQuoted
  let (status, text) ← (strip (js ",\"status\":") text).bind takeQuoted
  let (attempt, text) ← (strip (js ",\"attempt\":") text).bind takeDigit
  let (retryNotBefore, text) ← (strip (js ",\"retry_not_before\":") text).bind takeNullable
  let (incidentId, text) ← (strip (js ",\"incident_id\":") text).bind takeNullable
  let (recordedAt, text) ← (strip (js ",\"recorded_at\":") text).bind takeQuoted
  if text = markerBack then
    some ⟨version, eventId, activationId, reasonCode, status, attempt, retryNotBefore, incidentId,
      recordedAt⟩
  else
    none

def Plain (text : JsString) : Prop := ∀ unit ∈ text, unit ≠ 34

theorem strip_append (front rest : JsString) : strip front (front ++ rest) = some rest := by
  have isPrefix : front.isPrefixOf (front ++ rest) = true :=
    List.isPrefixOf_iff_prefix.mpr (List.prefix_append front rest)
  rw [strip, if_pos isPrefix, List.drop_left]

theorem takeText_append {text : JsString} (plain : Plain text) (rest : JsString) :
    takeText (text ++ 34 :: rest) = some (text, rest) := by
  induction text with
  | nil => rfl
  | cons unit text ih =>
      have notQuote : unit ≠ 34 := plain unit List.mem_cons_self
      rw [List.cons_append, takeText, if_neg notQuote,
        ih fun later laterMem => plain later (List.mem_cons_of_mem _ laterMem), Option.map_some]

theorem takeQuoted_quote {text : JsString} (plain : Plain text) (rest : JsString) :
    takeQuoted (quote text rest) = some (text, rest) := by
  have opened : strip [34] (quote text rest) = some (text ++ 34 :: rest) :=
    strip_append [34] (text ++ 34 :: rest)
  rw [takeQuoted, opened, Option.bind_some, takeText_append plain]

theorem takeNullable_nullable {text : Option JsString} (plain : ∀ found ∈ text, Plain found)
    (rest : JsString) : takeNullable (nullable text rest) = some (text, rest) := by
  cases text with
  | none => rw [takeNullable, nullable, strip_append]
  | some found =>
      have notNull : strip (js "null") (quote found rest) = none := rfl
      rw [takeNullable, nullable, notNull, takeQuoted_quote (plain found rfl), Option.map_some]

theorem takeDigit_decimal {attempt : ℤ} (lower : 0 ≤ attempt) (upper : attempt ≤ maxAttempts)
    (rest : JsString) : takeDigit (decimal attempt.toNat ++ rest) = some (attempt, rest) := by
  have bound : attempt ≤ 3 := upper
  have small : attempt = 0 ∨ attempt = 1 ∨ attempt = 2 ∨ attempt = 3 := by omega
  rcases small with rfl | rfl | rfl | rfl <;> rfl

theorem plain_of_matchesClasses {classes : List (UInt16 → Bool)} {text : JsString}
    (matched : matchesClasses classes text = true) (excludes : classes.all (! · 34)) : Plain text := by
  rintro unit unitMem rfl
  rcases mem_of_matchesClasses matched unitMem with ⟨fits, fitsMem, holds⟩
  have isExcluded := List.all_eq_true.mp excludes fits fitsMem
  rw [holds] at isExcluded
  cases isExcluded

theorem Plain.append {left right : JsString} (plain : Plain left) (plainRight : Plain right) :
    Plain (left ++ right) := by
  intro unit unitMem
  exact (List.mem_append.mp unitMem).elim (plain unit) (plainRight unit)

theorem plain_of_mem {texts : List JsString} {text : JsString} (isMem : text ∈ texts)
    (plain : texts.all fun found => found.all fun unit => unit ≠ 34) : Plain text := by
  intro unit unitMem
  have holds := List.all_eq_true.mp (List.all_eq_true.mp plain text isMem) unit unitMem
  exact of_decide_eq_true holds

theorem plain_of_takeDigits {width value : ℕ} {text rest : JsString}
    (taken : Date.takeDigits width text = some (value, rest)) (plain : Plain rest) : Plain text := by
  simp only [Date.takeDigits] at taken
  split_ifs at taken with digits
  cases taken
  rw [← List.take_append_drop width text]
  refine Plain.append ?_ plain
  rintro unit unitMem rfl
  cases List.all_eq_true.mp digits.2 34 unitMem

theorem plain_of_takeUnit {unit : UInt16} {text rest : JsString}
    (taken : Date.takeUnit unit text = some rest) (notQuote : unit ≠ 34) (plain : Plain rest) :
    Plain text := by
  cases text with
  | nil => cases taken
  | cons first text =>
      simp only [Date.takeUnit] at taken
      split_ifs at taken with same
      cases taken
      intro other otherMem
      rcases List.mem_cons.mp otherMem with rfl | later
      · rw [same]
        exact notQuote
      · exact plain other later

theorem plain_of_takeYear {year : ℤ} {text rest : JsString}
    (taken : Date.takeYear text = some (year, rest)) (plain : Plain rest) : Plain text := by
  have signed : ∀ (sign : UInt16) (text : JsString), sign ≠ 34 → Plain text → Plain (sign :: text) :=
    fun sign text notQuote plainText => Plain.append
      (fun unit unitMem => by rw [List.mem_singleton.mp unitMem]; exact notQuote) plainText
  unfold Date.takeYear at taken
  split at taken
  · rcases Option.map_eq_some_iff.mp taken with ⟨⟨value, left⟩, digits, same⟩
    cases same
    exact signed 43 _ (by decide) (plain_of_takeDigits digits plain)
  · rcases Option.bind_eq_some_iff.mp taken with ⟨⟨value, left⟩, digits, same⟩
    dsimp only at same
    split_ifs at same
    cases same
    exact signed 45 _ (by decide) (plain_of_takeDigits digits plain)
  · rcases Option.map_eq_some_iff.mp taken with ⟨⟨value, left⟩, digits, same⟩
    cases same
    exact plain_of_takeDigits digits plain

theorem plain_of_safeIso {text : JsString} (isDate : (safeIso text).isSome) : Plain text := by
  rcases Option.isSome_iff_exists.mp isDate with ⟨instant, parsed⟩
  simp only [safeIso, Date.parse, Date.takeDay, Date.timeOfDay, Option.bind_eq_bind,
    Option.bind_eq_some_iff] at parsed
  rcases parsed with ⟨⟨day, afterDay⟩, ⟨⟨year, t1⟩, isYear, t2, dash, ⟨month, t3⟩, isMonth, t4, dashToo,
    ⟨date, t5⟩, isDate, same⟩, t6, isT, time, ⟨⟨hour, t7⟩, isHour, t8, colon, ⟨minute, t9⟩, isMinute,
    t10, colonToo, ⟨second, t11⟩, isSecond, t12, point, ⟨millisecond, t13⟩, isMillisecond, isEnd⟩, -⟩
  cases same
  split_ifs at isEnd with ended
  have isLast : t13 = [90] := ended.1
  have last : Plain t13 := by
    rw [isLast]
    exact plain_of_mem (List.mem_singleton_self _) (by decide)
  have afterSecond := plain_of_takeUnit point (by decide) (plain_of_takeDigits isMillisecond last)
  have afterMinute := plain_of_takeUnit colonToo (by decide) (plain_of_takeDigits isSecond afterSecond)
  have afterHour := plain_of_takeUnit colon (by decide) (plain_of_takeDigits isMinute afterMinute)
  have afterDate := plain_of_takeUnit isT (by decide) (plain_of_takeDigits isHour afterHour)
  have afterMonth := plain_of_takeUnit dashToo (by decide) (plain_of_takeDigits isDate afterDate)
  have afterYear := plain_of_takeUnit dash (by decide) (plain_of_takeDigits isMonth afterMonth)
  exact plain_of_takeYear isYear afterYear

theorem readRendered_render {marker : IncidentMarker} (accepted : marker.acceptable) :
    readRendered (renderIncidentMarker marker) = some marker := by
  simp only [IncidentMarker.acceptable, Bool.and_eq_true, decide_eq_true_eq] at accepted
  rcases accepted with ⟨⟨⟨⟨⟨⟨⟨⟨⟨isVersion, isEvent⟩, isActivation⟩, isReason⟩, isStatus⟩, lower⟩,
    upper⟩, isRetry⟩, isIncident⟩, isRecorded⟩
  have version : Plain marker.version := by
    rw [isVersion]
    exact plain_of_mem (List.mem_singleton_self _) (by decide)
  have event : Plain marker.eventId := by
    rw [isIncidentId, Bool.and_eq_true] at isEvent
    rw [← List.take_append_drop 4 marker.eventId]
    refine Plain.append ?_ (plain_of_matchesClasses isEvent.2 (by decide))
    have front := List.prefix_iff_eq_take.mp (List.isPrefixOf_iff_prefix.mp isEvent.1)
    rw [show marker.eventId.take 4 = js "inc_" from front.symm]
    exact plain_of_mem (List.mem_singleton_self _) (by decide)
  have activation : Plain marker.activationId := by
    rw [isActivationId, Bool.and_eq_true] at isActivation
    rintro unit unitMem rfl
    cases List.all_eq_true.mp isActivation.2 34 unitMem
  have reason : Plain marker.reasonCode := plain_of_mem (of_decide_eq_true isReason) (by decide)
  have status : Plain marker.status := plain_of_mem isStatus (by decide)
  have retry : ∀ found ∈ marker.retryNotBefore, Plain found := by
    intro found isFound
    rw [Option.mem_def.mp isFound, Option.all_some] at isRetry
    exact plain_of_safeIso isRetry
  have incident : ∀ found ∈ marker.incidentId, Plain found := by
    intro found isFound
    rw [Option.mem_def.mp isFound, Option.all_some] at isIncident
    exact plain_of_matchesClasses isIncident (by decide)
  have recorded := plain_of_safeIso isRecorded
  simp only [readRendered, renderIncidentMarker, strip_append, takeQuoted_quote version,
    takeQuoted_quote event, takeQuoted_quote activation, takeQuoted_quote reason,
    takeQuoted_quote status, takeDigit_decimal lower upper, takeNullable_nullable retry,
    takeNullable_nullable incident, takeQuoted_quote recorded, Option.bind_eq_bind,
    Option.bind_some, if_true]

end StudentHub.Incidents
