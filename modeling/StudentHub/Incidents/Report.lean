import StudentHub.Concurrency.Machine
import StudentHub.Ecma.Arrays
import StudentHub.Incidents.Markers
import Mathlib.Data.List.Infix

/-!
# Incident reports

The stop of an activation is reported as one issue in Linear. What has been tried is kept in
markers, which are comments on the card: the oldest one freezes the reason that the issue is
filed under, and with it the identifier of the issue, and the newest attempt among them bounds
how often the issue is created. A request may fail, or take effect and lose its answer, and a
marker that cannot be written is passed over.
-/

namespace StudentHub.Incidents

open Ecma JsString Concurrency

/-- `INCIDENT_BACKOFF_MS` -/
def backoffMs : List ℤ := [0, 1000, 5000]

structure IncidentIdentity where
  eventId : JsString
  issueUuid : JsString
  relationUuid : JsString
  isEvent : isIncidentId eventId
  isIssue : isUuid issueUuid
  deriving DecidableEq

/-- What the reporter computes with: the digests behind the identifiers, and the JSON in the text
of a comment when it has the members of a marker. -/
structure IncidentHost where
  identity : JsString → JsString → IncidentIdentity
  read : JsString → Option IncidentMarker
  read_render : ∀ marker, marker.acceptable → read (renderIncidentMarker marker) = some marker

/-- A comment, with the time of its creation when that is a date. -/
structure MarkerComment where
  body : JsString
  createdAt : Option Instant
  deriving DecidableEq

structure ParsedMarker extends IncidentMarker where
  createdAt : Option Instant
  accepted : toIncidentMarker.acceptable
  deriving DecidableEq

variable (host : IncidentHost)

def parseComment (comment : MarkerComment) : Option ParsedMarker :=
  match host.read comment.body with
  | none => none
  | some marker =>
      if accepted : marker.acceptable then
        some ⟨marker, comment.createdAt.or (safeIso marker.recordedAt), accepted⟩
      else
        none

def parseIncidentMarkers (comments : List MarkerComment) : List ParsedMarker :=
  sortBy (fun marker => (marker.createdAt.map Instant.time).getD 0)
    (comments.filterMap (parseComment host))

/-- The stop that is reported. An event is derived from an activation and one of the reasons. -/
structure IncidentEvent where
  activationId : JsString
  issueId : JsString
  fixture : Bool
  reasonCode : JsString
  isActivation : isActivationId activationId
  isReason : isReason reasonCode

def IncidentEvent.identity (event : IncidentEvent) : IncidentIdentity :=
  host.identity event.activationId event.reasonCode

def IncidentEvent.title (event : IncidentEvent) : JsString :=
  js "coordinator stop: " ++ event.issueId ++ js " — " ++ event.reasonCode

structure LinearIssue where
  id : JsString
  title : JsString
  description : JsString
  team : Option JsString
  state : Option JsString
  assignee : Option JsString
  labels : List JsString
  relations : List (JsString × JsString)

/-- `INCIDENT_OWNED_STATE_NAMES` -/
def ownedStates : List JsString := [js "Triage", js "Backlog", js "Done"]

def incidentDelivered (issue : Option LinearIssue) (event : IncidentEvent) : Bool :=
  match issue with
  | none => false
  | some issue =>
      issue.id = (event.identity host).issueUuid && issue.title = event.title &&
        decide (js "<!-- coordinator-incident-event " ++ (event.identity host).eventId ++ js " -->" <:+:
          issue.description) &&
        issue.team = some (js "SHU") && issue.state.any (· ∈ ownedStates) &&
        issue.assignee.isNone && js "repo:platform" ∈ issue.labels &&
        (js "related", event.issueId) ∈ issue.relations

structure Team where
  key : JsString
  states : List (JsString × JsString)
  labels : List JsString

def IncidentEvent.filedState (event : IncidentEvent) : JsString × JsString :=
  if event.fixture then (js "Done", js "completed") else (js "Backlog", js "backlog")

def metadataFits (event : IncidentEvent) : Option (List Team) → Bool
  | some [team] =>
      team.key = js "SHU" && team.states.count event.filedState = 1 &&
        team.labels.count (js "repo:platform") = 1
  | _ => false

inductive Fate
  | fails
  | answers
  | loses
  deriving DecidableEq

/-- The comments of the card, the incident issues that were created, and how many create
mutations were sent. -/
structure LinearThread where
  comments : List MarkerComment
  issues : List JsString
  creates : ℕ

/-- `safeMarkerWrite`, which nothing depends on. -/
def LinearThread.write (thread : LinearThread) (marker : IncidentMarker) (at? : Option Instant)
    (fate : Fate) : LinearThread :=
  if fate = .fails then thread
  else { thread with comments := thread.comments ++ [⟨renderIncidentMarker marker, at?⟩] }

/-- The create mutation, and whether it is answered. An identifier is given to one issue. -/
def LinearThread.create (thread : LinearThread) (id : JsString) (fate : Fate) : LinearThread × Bool :=
  let sent := { thread with creates := thread.creates + 1 }
  if fate = .fails ∨ id ∈ thread.issues then (sent, false)
  else ({ sent with issues := thread.issues ++ [id] }, fate = .answers)

/-- A call, and what becomes of each of its requests: a query that fails has no answer. -/
structure IncidentCall where
  event : IncidentEvent
  authorized : Bool
  now : Instant
  describe : IncidentEvent → Option JsString
  commentsAnswered : Bool
  lookup : Option (Option LinearIssue)
  started : Fate
  startedAt : Option Instant
  metadata : Option (List Team)
  create : Fate
  relation : Fate
  confirmation : Option (Option LinearIssue)
  last : Fate
  lastAt : Option Instant

inductive ReportStatus
  | notAuthorized
  | stateUnreadable
  | confirmed
  | exhausted
  | pending
  deriving DecidableEq

def markerFor (event : IncidentEvent) (status : JsString) (attempt : ℤ)
    (retryNotBefore : Option Instant) (incidentId : Option JsString) (now : Instant) :
    IncidentMarker where
  version := incidentVersion
  eventId := (event.identity host).eventId
  activationId := event.activationId
  reasonCode := event.reasonCode
  status := status
  attempt := attempt
  retryNotBefore := retryNotBefore.map Instant.toISOString
  incidentId := incidentId
  recordedAt := now.toISOString

def LinearThread.markers (thread : LinearThread) (activationId : JsString) : List ParsedMarker :=
  (parseIncidentMarkers host thread.comments).filter fun marker => marker.activationId = activationId

theorem ParsedMarker.isReason (marker : ParsedMarker) :
    StudentHub.Incidents.isReason marker.reasonCode := by
  have accepted := marker.accepted
  simp only [IncidentMarker.acceptable, Bool.and_eq_true] at accepted
  exact accepted.1.1.1.1.1.1.2

def IncidentEvent.frozen (event : IncidentEvent) : List ParsedMarker → IncidentEvent
  | [] => event
  | oldest :: _ => { event with reasonCode := oldest.reasonCode, isReason := oldest.isReason }

/-- What a call finds in the markers: that it has nothing to do, or the event under the frozen
reason and the newest attempt. -/
def LinearThread.examine (thread : LinearThread) (call : IncidentCall) :
    Except ReportStatus (IncidentEvent × ℤ) :=
  let allMarkers := thread.markers host call.event.activationId
  let event := call.event.frozen allMarkers
  let markers := allMarkers.filter fun marker => marker.eventId = (event.identity host).eventId
  let latestAttempt := (markers.map (·.attempt)).foldl max 0
  if !call.authorized then .error .notAuthorized
  else if !call.commentsAnswered then .error .stateUnreadable
  else if markers.any (·.status = js "confirmed") then .error .confirmed
  else if markers.any (·.status = js "exhausted") then .error .exhausted
  else if (markers.getLast?.bind (·.retryNotBefore)).any fun text =>
      (safeIso text).any fun retry => call.now.time < retry.time then .error .pending
  else .ok (event, latestAttempt)

/-- The issue that is looked up before the attempt; a lookup that fails finds none. -/
def IncidentCall.existing (call : IncidentCall) : Option LinearIssue := call.lookup.join

def IncidentCall.files (call : IncidentCall) (event : IncidentEvent) : Bool :=
  (call.describe event).isSome && metadataFits event call.metadata && call.existing.isNone

def LinearThread.deliver (thread : LinearThread) (call : IncidentCall) (event : IncidentEvent) :
    LinearThread × Bool :=
  if (call.describe event).isNone || !metadataFits event call.metadata then (thread, false)
  else
    let (thread, filed) :=
      if call.existing.isSome then (thread, true)
      else thread.create (event.identity host).issueUuid call.create
    (thread, filed && call.relation = .answers && incidentDelivered host call.confirmation.join event)

def endMarker (call : IncidentCall) (event : IncidentEvent) (attempt : ℤ) (delivered : Bool) :
    IncidentMarker × ReportStatus :=
  if delivered then
    (markerFor host event (js "confirmed") attempt none (some (event.identity host).issueUuid) call.now,
      .confirmed)
  else if maxAttempts ≤ attempt then
    (markerFor host event (js "exhausted") attempt none none call.now, .exhausted)
  else
    let backoff := backoffMs.getD (min attempt.toNat (backoffMs.length - 1)) 0
    (markerFor host event (js "pending") attempt (timeClip (call.now.time + backoff)) none call.now,
      .pending)

def reportCoordinatorIncident (thread : LinearThread) (call : IncidentCall) :
    LinearThread × ReportStatus :=
  match thread.examine host call with
  | .error status => (thread, status)
  | .ok (event, latestAttempt) =>
      if incidentDelivered host call.existing event then
        let confirmed := markerFor host event (js "confirmed") latestAttempt none
          (some (event.identity host).issueUuid) call.now
        (thread.write confirmed call.lastAt call.last, .confirmed)
      else if maxAttempts ≤ latestAttempt then
        let exhausted := markerFor host event (js "exhausted") maxAttempts none none call.now
        (thread.write exhausted call.lastAt call.last, .exhausted)
      else
        let attempt := min (latestAttempt + 1) maxAttempts
        let started := markerFor host event (js "pending") attempt (some call.now) none call.now
        let (tried, delivered) :=
          (thread.write started call.startedAt call.started).deliver host call event
        let (marker, status) := endMarker host call event attempt delivered
        (tried.write marker call.lastAt call.last, status)

def reports (thread : LinearThread) : Machine LinearThread IncidentCall :=
  ⟨thread, fun thread call => (reportCoordinatorIncident host thread call).1⟩

/-- A call that sends a create mutation gets a marker into the thread, the one before its attempt
or the one after it. -/
def Recorded (thread : LinearThread) (call : IncidentCall) : Prop :=
  ∀ event latestAttempt, thread.examine host call = .ok (event, latestAttempt) →
    ¬incidentDelivered host call.existing event → latestAttempt < maxAttempts →
    call.files event → call.started ≠ .fails ∨ call.last ≠ .fails

end StudentHub.Incidents
