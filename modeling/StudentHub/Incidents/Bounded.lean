import StudentHub.Incidents.Report

/-!
# One issue and a bounded number of attempts

All markers of an activation agree on the reason that the oldest one froze. A call that gets a
marker into the thread with every attempt counts it there, and files under that reason.
-/

namespace StudentHub.Incidents

open Ecma JsString Concurrency

variable {host : IncidentHost}

theorem safeIso_toISOString (instant : Instant) : safeIso instant.toISOString = some instant :=
  Date.parse_toISOString instant

theorem acceptable_markerFor {event : IncidentEvent} {status : JsString} {attempt : ℤ}
    {incidentId : Option JsString} (retry : Option Instant) (now : Instant)
    (isStatus : status ∈ [js "pending", js "confirmed", js "exhausted"])
    (lower : 0 ≤ attempt) (upper : attempt ≤ maxAttempts) (isIncident : incidentId.all isUuid) :
    (markerFor host event status attempt retry incidentId now).acceptable := by
  have retried : (retry.map Instant.toISOString).all (fun text => (safeIso text).isSome) = true := by
    cases retry with
    | none => rfl
    | some instant =>
        simp only [Option.map_some, Option.all_some, safeIso_toISOString, Option.isSome_some]
  simp only [IncidentMarker.acceptable, markerFor, (host.identity _ _).isEvent,
    IncidentEvent.identity, event.isActivation, event.isReason, isStatus, lower, upper, retried,
    isIncident, safeIso_toISOString, Option.isSome_some, decide_true, Bool.and_self]

theorem parseComment_render {marker : IncidentMarker} (accepted : marker.acceptable)
    (createdAt : Option Instant) : parseComment host ⟨renderIncidentMarker marker, createdAt⟩ =
      some ⟨marker, createdAt.or (safeIso marker.recordedAt), accepted⟩ := by
  simp only [parseComment, host.read_render marker accepted, accepted, dite_true]

theorem mem_markers {thread : LinearThread} {activationId : JsString} {marker : ParsedMarker} :
    marker ∈ thread.markers host activationId ↔
      (∃ comment ∈ thread.comments, parseComment host comment = some marker) ∧
        marker.activationId = activationId := by
  simp only [LinearThread.markers, parseIncidentMarkers, List.mem_filter, mem_sortBy,
    List.mem_filterMap, decide_eq_true_eq]

section Write

variable {thread : LinearThread} {written : IncidentMarker} {createdAt : Option Instant}
  {fate : Fate} {activationId : JsString} {marker : ParsedMarker}

theorem mem_markers_write_of_mem (found : marker ∈ thread.markers host activationId) :
    marker ∈ (thread.write written createdAt fate).markers host activationId := by
  rcases mem_markers.mp found with ⟨⟨comment, commentMem, parsed⟩, isOf⟩
  simp only [LinearThread.write]
  split_ifs
  · exact found
  · exact mem_markers.mpr ⟨⟨comment, List.mem_append_left _ commentMem, parsed⟩, isOf⟩

theorem eq_of_mem_markers_write (accepted : written.acceptable)
    (found : marker ∈ (thread.write written createdAt fate).markers host activationId) :
    marker ∈ thread.markers host activationId ∨ marker.toIncidentMarker = written := by
  simp only [LinearThread.write] at found
  split_ifs at found
  · exact Or.inl found
  · rcases mem_markers.mp found with ⟨⟨comment, commentMem, parsed⟩, isOf⟩
    rcases List.mem_append.mp commentMem with old | new
    · exact Or.inl (mem_markers.mpr ⟨⟨comment, old, parsed⟩, isOf⟩)
    · right
      rw [List.mem_singleton.mp new, parseComment_render accepted, Option.some.injEq] at parsed
      rw [← parsed]

theorem exists_mem_markers_write (accepted : written.acceptable) (takesEffect : fate ≠ .fails) :
    ∃ marker ∈ (thread.write written createdAt fate).markers host written.activationId,
      marker.toIncidentMarker = written := by
  refine ⟨_, mem_markers.mpr ⟨⟨⟨renderIncidentMarker written, createdAt⟩, ?_, parseComment_render accepted _⟩,
    rfl⟩, rfl⟩
  simp only [LinearThread.write, if_neg takesEffect]
  exact List.mem_append_right _ (List.mem_singleton_self _)

@[simp]
theorem issues_write : (thread.write written createdAt fate).issues = thread.issues := by
  simp only [LinearThread.write]
  split_ifs <;> rfl

@[simp]
theorem creates_write : (thread.write written createdAt fate).creates = thread.creates := by
  simp only [LinearThread.write]
  split_ifs <;> rfl

end Write

theorem le_foldl_max (attempts : List ℤ) (start : ℤ) : start ≤ attempts.foldl max start := by
  induction attempts generalizing start with
  | nil => exact le_refl start
  | cons attempt attempts ih => exact (le_max_left start attempt).trans (ih _)

theorem le_foldl_max_of_mem {attempts : List ℤ} {attempt : ℤ} (isMem : attempt ∈ attempts)
    (start : ℤ) : attempt ≤ attempts.foldl max start := by
  induction attempts generalizing start with
  | nil => cases isMem
  | cons first attempts ih =>
      rcases List.mem_cons.mp isMem with rfl | later
      · exact (le_max_right start attempt).trans (le_foldl_max attempts _)
      · exact ih later _

/-- Every marker of the activation is for the event. -/
def Agrees (host : IncidentHost) (thread : LinearThread) (event : IncidentEvent) : Prop :=
  ∀ marker ∈ thread.markers host event.activationId,
    marker.reasonCode = event.reasonCode ∧ marker.eventId = (event.identity host).eventId

def Uniform (host : IncidentHost) (activationId : JsString) (thread : LinearThread) : Prop :=
  ∃ reason, ∀ marker ∈ thread.markers host activationId,
    marker.reasonCode = reason ∧ marker.eventId = (host.identity activationId reason).eventId

theorem Agrees.uniform {thread : LinearThread} {event : IncidentEvent}
    (agrees : Agrees host thread event) : Uniform host event.activationId thread :=
  ⟨event.reasonCode, agrees⟩

theorem activationId_frozen (event : IncidentEvent) (markers : List ParsedMarker) :
    (event.frozen markers).activationId = event.activationId := by
  cases markers <;> rfl

theorem Uniform.agrees {thread : LinearThread} {event : IncidentEvent}
    (uniform : Uniform host event.activationId thread) :
    Agrees host thread (event.frozen (thread.markers host event.activationId)) := by
  rcases uniform with ⟨reason, shared⟩
  intro marker isMem
  rw [activationId_frozen] at isMem
  rcases written : thread.markers host event.activationId with _ | ⟨oldest, others⟩
  · rw [written] at isMem
    cases isMem
  · have first := (shared oldest (by rw [written]; exact List.mem_cons_self)).1
    have isShared := shared marker isMem
    rw [← first] at isShared
    exact isShared

structure Marks (host : IncidentHost) (event : IncidentEvent) (attempt : ℤ)
    (marker : IncidentMarker) : Prop where
  accepted : marker.acceptable
  activation : marker.activationId = event.activationId
  reason : marker.reasonCode = event.reasonCode
  identified : marker.eventId = (event.identity host).eventId
  counts : marker.attempt = attempt

theorem marks_markerFor {event : IncidentEvent} {status : JsString} {attempt : ℤ}
    {incidentId : Option JsString} (retry : Option Instant) (now : Instant)
    (isStatus : status ∈ [js "pending", js "confirmed", js "exhausted"])
    (lower : 0 ≤ attempt) (upper : attempt ≤ maxAttempts) (isIncident : incidentId.all isUuid) :
    Marks host event attempt (markerFor host event status attempt retry incidentId now) :=
  ⟨acceptable_markerFor retry now isStatus lower upper isIncident, rfl, rfl, rfl, rfl⟩

theorem marks_endMarker {call : IncidentCall} {event : IncidentEvent} {attempt : ℤ} (delivered : Bool)
    (lower : 0 ≤ attempt) (upper : attempt ≤ maxAttempts) :
    Marks host event attempt (endMarker host call event attempt delivered).1 := by
  simp only [endMarker]
  split_ifs
  · exact marks_markerFor _ _ (by simp) lower upper (event.identity host).isIssue
  · exact marks_markerFor _ _ (by simp) lower upper rfl
  · exact marks_markerFor _ _ (by simp) lower upper rfl

theorem Agrees.write {thread : LinearThread} {event : IncidentEvent} {attempt : ℤ}
    {marker : IncidentMarker} {createdAt : Option Instant} {fate : Fate}
    (agrees : Agrees host thread event) (marks : Marks host event attempt marker) :
    Agrees host (thread.write marker createdAt fate) event := by
  intro found isMem
  rcases eq_of_mem_markers_write marks.accepted isMem with old | new
  · exact agrees found old
  · rw [new]
    exact ⟨marks.reason, marks.identified⟩

/-- What a call goes on with: the frozen event, no marker that ends the reports, and the newest
attempt. -/
structure Examined (host : IncidentHost) (thread : LinearThread) (call : IncidentCall)
    (event : IncidentEvent) (latestAttempt : ℤ) : Prop where
  frozen : event = call.event.frozen (thread.markers host call.event.activationId)
  lower : 0 ≤ latestAttempt
  upper : latestAttempt ≤ maxAttempts
  newest : ∀ marker ∈ thread.markers host call.event.activationId, marker.attempt ≤ latestAttempt
  isOpen : ∀ marker ∈ thread.markers host call.event.activationId,
    marker.status ≠ js "confirmed" ∧ marker.status ≠ js "exhausted"

theorem foldl_max_le {attempts : List ℤ} {start bound : ℤ} (first : start ≤ bound)
    (each : ∀ attempt ∈ attempts, attempt ≤ bound) : attempts.foldl max start ≤ bound := by
  induction attempts generalizing start with
  | nil => exact first
  | cons attempt attempts ih =>
      apply ih
      · exact max_le first (each attempt List.mem_cons_self)
      · intro later isMem
        exact each later (List.mem_cons_of_mem _ isMem)

theorem ParsedMarker.attempt_le (marker : ParsedMarker) : marker.attempt ≤ maxAttempts := by
  have accepted := marker.accepted
  simp only [IncidentMarker.acceptable, Bool.and_eq_true, decide_eq_true_eq] at accepted
  exact accepted.1.1.1.2

theorem examined_of_ok {thread : LinearThread} {call : IncidentCall} {event : IncidentEvent}
    {latestAttempt : ℤ} (uniform : Uniform host call.event.activationId thread)
    (examined : thread.examine host call = .ok (event, latestAttempt)) :
    Examined host thread call event latestAttempt := by
  have agrees := uniform.agrees
  have kept : (thread.markers host call.event.activationId).filter (fun marker =>
      marker.eventId = ((call.event.frozen (thread.markers host call.event.activationId)).identity
        host).eventId) = thread.markers host call.event.activationId := by
    rw [List.filter_eq_self]
    intro marker isMem
    rw [decide_eq_true_eq]
    exact (agrees marker (by rw [activationId_frozen]; exact isMem)).2
  simp only [LinearThread.examine, kept] at examined
  split_ifs at examined with _ _ isConfirmed isExhausted
  cases examined
  refine ⟨rfl, le_foldl_max _ _, foldl_max_le (by decide) ?_, ?_, ?_⟩
  · intro attempt isMem
    rcases List.mem_map.mp isMem with ⟨marker, -, rfl⟩
    exact marker.attempt_le
  · intro marker isMem
    exact le_foldl_max_of_mem (List.mem_map_of_mem isMem) 0
  · intro marker isMem
    refine ⟨?_, ?_⟩
    · intro same
      exact isConfirmed (List.any_eq_true.mpr ⟨marker, isMem, by simp [same]⟩)
    · intro same
      exact isExhausted (List.any_eq_true.mpr ⟨marker, isMem, by simp [same]⟩)

theorem deliver_fst (thread : LinearThread) (call : IncidentCall) (event : IncidentEvent) :
    (thread.deliver host call event).1 =
      if call.files event then (thread.create (event.identity host).issueUuid call.create).1
      else thread := by
  simp only [LinearThread.deliver, IncidentCall.files, ← Option.not_isSome]
  by_cases described : (call.describe event).isSome <;>
    by_cases fits : metadataFits event call.metadata <;>
    by_cases found : call.existing.isSome <;> simp [described, fits, found]

inductive Leaves (host : IncidentHost) (thread : LinearThread) (call : IncidentCall) :
    LinearThread → Prop
  | same : Leaves host thread call thread
  | closes {event : IncidentEvent} {latestAttempt attempt : ℤ} {marker : IncidentMarker}
      (examined : thread.examine host call = .ok (event, latestAttempt))
      (marks : Marks host event attempt marker) :
      Leaves host thread call (thread.write marker call.lastAt call.last)
  | attempts {event : IncidentEvent} {latestAttempt : ℤ} {started ending : IncidentMarker}
      (examined : thread.examine host call = .ok (event, latestAttempt))
      (undelivered : ¬incidentDelivered host call.existing event)
      (within : latestAttempt < maxAttempts)
      (begins : Marks host event (latestAttempt + 1) started)
      (ends : Marks host event (latestAttempt + 1) ending) :
      Leaves host thread call (((thread.write started call.startedAt call.started).deliver host
        call event).1.write ending call.lastAt call.last)

theorem leaves_report {thread : LinearThread} {call : IncidentCall}
    (uniform : Uniform host call.event.activationId thread) :
    Leaves host thread call (reportCoordinatorIncident host thread call).1 := by
  simp only [reportCoordinatorIncident]
  split
  · exact .same
  · rename_i event latestAttempt ok
    have examined := examined_of_ok uniform ok
    split_ifs with isDelivered isOver
    · exact .closes ok (marks_markerFor _ _ (by simp) examined.lower examined.upper
        (event.identity host).isIssue)
    · exact .closes ok (marks_markerFor _ _ (by simp) (by decide) (le_refl _) rfl)
    · have within : latestAttempt < maxAttempts := Int.not_le.mp isOver
      have next : min (latestAttempt + 1) maxAttempts = latestAttempt + 1 := by omega
      have positive : 0 ≤ latestAttempt + 1 := by have := examined.lower; omega
      rw [next]
      exact .attempts ok isDelivered within
        (marks_markerFor _ _ (by simp) positive within rfl) (marks_endMarker _ positive within)

theorem Agrees.of_comments {thread after : LinearThread} {event : IncidentEvent}
    (agrees : Agrees host thread event) (same : after.comments = thread.comments) :
    Agrees host after event := by
  intro marker isMem
  apply agrees
  rw [LinearThread.markers, ← same]
  exact isMem

theorem comments_deliver (host : IncidentHost) (thread : LinearThread) (call : IncidentCall) (event : IncidentEvent) :
    (thread.deliver host call event).1.comments = thread.comments := by
  rw [deliver_fst]
  split_ifs
  · simp only [LinearThread.create]
    split_ifs <;> rfl
  · rfl

theorem Leaves.uniform {thread after : LinearThread} {call : IncidentCall}
    (leaves : Leaves host thread call after)
    (uniform : Uniform host call.event.activationId thread) :
    Uniform host call.event.activationId after := by
  have same := activationId_frozen call.event (thread.markers host call.event.activationId)
  cases leaves with
  | same => exact uniform
  | closes examined marks =>
      rw [(examined_of_ok uniform examined).frozen] at marks
      rw [← same]
      exact (uniform.agrees.write marks).uniform
  | attempts examined _ _ begins ends =>
      rw [(examined_of_ok uniform examined).frozen] at begins ends ⊢
      rw [← same]
      exact (((uniform.agrees.write begins).of_comments (comments_deliver _ _ _ _)).write ends).uniform

/-- The issues are filed under the reason of the markers, and the newest attempt among them
counts the create mutations. -/
structure Counted (host : IncidentHost) (activationId : JsString) (thread : LinearThread) : Prop where
  uniform : Uniform host activationId thread
  single : thread.issues.length ≤ 1
  filed : ∀ id ∈ thread.issues, ∃ marker ∈ thread.markers host activationId,
    id = (host.identity activationId marker.reasonCode).issueUuid
  counted : thread.creates = 0 ∨ ∃ marker ∈ thread.markers host activationId,
    (thread.creates : ℤ) ≤ marker.attempt

theorem Counted.write {thread : LinearThread} {activationId : JsString} {event : IncidentEvent}
    {attempt : ℤ} {marker : IncidentMarker} {createdAt : Option Instant} {fate : Fate}
    (counted : Counted host activationId thread) (isOf : event.activationId = activationId)
    (agrees : Agrees host thread event) (marks : Marks host event attempt marker) :
    Counted host activationId (thread.write marker createdAt fate) := by
  refine ⟨?_, ?_, ?_, ?_⟩
  · rw [← isOf]
    exact (agrees.write marks).uniform
  · rw [issues_write]
    exact counted.single
  · intro id idMem
    rw [issues_write] at idMem
    rcases counted.filed id idMem with ⟨found, isMem, isId⟩
    exact ⟨found, mem_markers_write_of_mem isMem, isId⟩
  · rw [creates_write]
    rcases counted.counted with none | ⟨found, isMem, counts⟩
    · exact Or.inl none
    · exact Or.inr ⟨found, mem_markers_write_of_mem isMem, counts⟩

theorem creates_create (thread : LinearThread) (id : JsString) (fate : Fate) :
    (thread.create id fate).1.creates = thread.creates + 1 := by
  simp only [LinearThread.create]
  split_ifs <;> rfl

theorem issues_create (thread : LinearThread) (id : JsString) (fate : Fate) :
    (thread.create id fate).1.issues = thread.issues ∨
      id ∉ thread.issues ∧ (thread.create id fate).1.issues = thread.issues ++ [id] := by
  simp only [LinearThread.create]
  split_ifs with refused
  · exact Or.inl rfl
  · exact Or.inr ⟨fun isMem => refused (Or.inr isMem), rfl⟩

theorem Counted.create {thread after : LinearThread} {event : IncidentEvent}
    (counted : Counted host event.activationId thread) (latestAttempt : ℤ) (fate : Fate)
    (agrees : Agrees host thread event)
    (newest : ∀ marker ∈ thread.markers host event.activationId, marker.attempt ≤ latestAttempt)
    (lower : 0 ≤ latestAttempt) (uniform : Uniform host event.activationId after)
    (issues : after.issues = (thread.create (event.identity host).issueUuid fate).1.issues)
    (creates : after.creates = (thread.create (event.identity host).issueUuid fate).1.creates)
    (stay : ∀ marker ∈ thread.markers host event.activationId,
      marker ∈ after.markers host event.activationId)
    (recorded : ∃ marker ∈ after.markers host event.activationId,
      Marks host event (latestAttempt + 1) marker.toIncidentMarker) :
    Counted host event.activationId after := by
  rcases recorded with ⟨recordedMarker, recordedMem, marks⟩
  have isIssue : ∀ id ∈ thread.issues, id = (event.identity host).issueUuid := by
    intro id idMem
    rcases counted.filed id idMem with ⟨marker, isMem, rfl⟩
    rw [(agrees marker isMem).1]
    rfl
  rw [creates_create] at creates
  refine ⟨uniform, ?_, ?_, ?_⟩
  · rw [issues]
    rcases issues_create thread (event.identity host).issueUuid fate with same | ⟨isNew, added⟩
    · rw [same]
      exact counted.single
    · have none : thread.issues = [] := by
        rw [List.eq_nil_iff_forall_not_mem]
        intro id idMem
        exact isNew (isIssue id idMem ▸ idMem)
      rw [added, none]
      exact le_refl 1
  · intro id idMem
    have isOne : id = (event.identity host).issueUuid := by
      rw [issues] at idMem
      rcases issues_create thread (event.identity host).issueUuid fate with same | ⟨-, added⟩
      · rw [same] at idMem
        exact isIssue id idMem
      · rw [added] at idMem
        rcases List.mem_append.mp idMem with old | new
        · exact isIssue id old
        · exact List.mem_singleton.mp new
    refine ⟨recordedMarker, recordedMem, ?_⟩
    rw [isOne, marks.reason]
    rfl
  · right
    refine ⟨recordedMarker, recordedMem, ?_⟩
    rw [creates, marks.counts]
    rcases counted.counted with none | ⟨marker, isMem, counts⟩
    · rw [none]
      push_cast
      omega
    · have := newest marker isMem
      push_cast
      omega

theorem Counted.leaves {thread after : LinearThread} {call : IncidentCall}
    (counted : Counted host call.event.activationId thread) (recorded : Recorded host thread call)
    (leaves : Leaves host thread call after) : Counted host call.event.activationId after := by
  have same := activationId_frozen call.event (thread.markers host call.event.activationId)
  have agreesFirst := counted.uniform.agrees
  cases leaves with
  | same => exact counted
  | closes ok marks =>
      rw [(examined_of_ok counted.uniform ok).frozen] at marks
      exact counted.write same agreesFirst marks
  | @attempts event latestAttempt started ending ok undelivered within begins ends =>
      have examined := examined_of_ok counted.uniform ok
      have isOf : event.activationId = call.event.activationId := by rw [examined.frozen, same]
      have agrees : Agrees host thread event := by
        rw [examined.frozen]
        exact agreesFirst
      by_cases files : call.files event
      · have uniform : Uniform host call.event.activationId _ :=
          (Leaves.attempts ok undelivered within begins ends).uniform counted.uniform
        rw [deliver_fst, if_pos files] at uniform ⊢
        rw [← isOf] at counted uniform ⊢
        have newest := examined.newest
        rw [← isOf] at newest
        have stay : ∀ written : IncidentMarker, ∀ marker ∈
            (thread.write started call.startedAt call.started).markers host event.activationId,
            marker ∈ (((thread.write started call.startedAt call.started).create
              (event.identity host).issueUuid call.create).1.write written call.lastAt
                call.last).markers host event.activationId := by
          intro written marker isMem
          apply mem_markers_write_of_mem
          have comments := comments_deliver host
            (thread.write started call.startedAt call.started) call event
          rw [deliver_fst, if_pos files] at comments
          rw [LinearThread.markers, comments]
          exact isMem
        refine counted.create latestAttempt call.create agrees newest
          examined.lower uniform ?_ ?_ ?_ ?_
        · rw [issues_write]
          simp only [LinearThread.create, issues_write]
          split_ifs <;> simp
        · rw [creates_write, creates_create, creates_create, creates_write]
        · intro marker isMem
          exact stay ending marker (mem_markers_write_of_mem isMem)
        · rcases recorded event latestAttempt ok undelivered within files with first | last
          · rcases exists_mem_markers_write begins.accepted first with ⟨marker, isMem, isStarted⟩
            rw [begins.activation] at isMem
            exact ⟨marker, stay ending marker isMem, isStarted ▸ begins⟩
          · rcases exists_mem_markers_write ends.accepted last with ⟨marker, isMem, isEnding⟩
            rw [ends.activation] at isMem
            exact ⟨marker, isMem, isEnding ▸ ends⟩
      · rw [deliver_fst, if_neg files]
        exact (counted.write isOf agrees begins).write isOf (agrees.write begins) ends

/-- A marker of the activation confirms the report or gives it up. -/
def Closed (host : IncidentHost) (activationId : JsString) (thread : LinearThread) : Prop :=
  ∃ marker ∈ thread.markers host activationId,
    marker.status = js "confirmed" ∨ marker.status = js "exhausted"

theorem Leaves.of_closed {thread after : LinearThread} {call : IncidentCall}
    (leaves : Leaves host thread call after)
    (uniform : Uniform host call.event.activationId thread)
    (closed : Closed host call.event.activationId thread) : after = thread := by
  have never : ∀ event latestAttempt, thread.examine host call ≠ .ok (event, latestAttempt) := by
    rintro event latestAttempt ok
    rcases closed with ⟨marker, isMem, isClosed⟩
    rcases (examined_of_ok uniform ok).isOpen marker isMem with ⟨unconfirmed, unexhausted⟩
    exact isClosed.elim unconfirmed unexhausted
  cases leaves with
  | same => rfl
  | closes ok marks => exact absurd ok (never _ _)
  | attempts ok _ _ _ _ => exact absurd ok (never _ _)

/-- From a thread without a marker of the activation: when each call that sends a create mutation
gets one of its markers into the thread, at most one issue is created, with at most
`maxAttempts` create mutations. In any run, none is sent once a marker confirms the report or
gives it up. -/
theorem reports_bounded (host : IncidentHost) (activationId : JsString)
    (comments : List MarkerComment) (calls : List IncidentCall)
    (unmarked : LinearThread.markers host ⟨comments, [], 0⟩ activationId = [])
    (sameActivation : ∀ call ∈ calls, call.event.activationId = activationId) :
    ((reports host ⟨comments, [], 0⟩).Meets (Recorded host) calls →
      ((reports host ⟨comments, [], 0⟩).run calls).issues.length ≤ 1 ∧
      (((reports host ⟨comments, [], 0⟩).run calls).creates : ℤ) ≤ maxAttempts) ∧
    ∀ earlier later, calls = earlier ++ later →
      Closed host activationId ((reports host ⟨comments, [], 0⟩).run earlier) →
      ((reports host ⟨comments, [], 0⟩).run calls).creates =
        ((reports host ⟨comments, [], 0⟩).run earlier).creates := by
  have uniformFirst : Uniform host activationId ⟨comments, [], 0⟩ := by
    refine ⟨[], ?_⟩
    rw [unmarked]
    intro marker isMem
    cases isMem
  refine ⟨?_, ?_⟩
  · intro recorded
    have keeps : (reports host ⟨comments, [], 0⟩).Keeps
        (fun thread call => Recorded host thread call ∧ call.event.activationId = activationId)
        (Counted host activationId) := by
      rintro thread call counted ⟨isRecorded, isOf⟩
      rw [← isOf] at counted ⊢
      exact counted.leaves isRecorded (leaves_report counted.uniform)
    have counted : Counted host activationId ((reports host ⟨comments, [], 0⟩).run calls) := by
      refine keeps.run ⟨uniformFirst, Nat.zero_le 1, ?_, Or.inl rfl⟩
        (recorded.and (Machine.meetsFrom_of_mem sameActivation _))
      intro id idMem
      cases idMem
    refine ⟨counted.single, ?_⟩
    rcases counted.counted with none | ⟨marker, -, counts⟩
    · rw [none]
      decide
    · exact counts.trans marker.attempt_le
  · rintro earlier later rfl closed
    have uniform : Uniform host activationId ((reports host ⟨comments, [], 0⟩).run earlier) := by
      have keeps : (reports host ⟨comments, [], 0⟩).Keeps
          (fun _ call => call.event.activationId = activationId) (Uniform host activationId) := by
        intro thread call uniform isOf
        rw [← isOf] at uniform ⊢
        exact (leaves_report uniform).uniform uniform
      apply keeps.run uniformFirst
      apply Machine.meetsFrom_of_mem
      intro call isMem
      exact sameActivation call (List.mem_append_left _ isMem)
    have keeps : (reports host ⟨comments, [], 0⟩).Keeps
        (fun _ call => call.event.activationId = activationId)
        (fun thread => thread = (reports host ⟨comments, [], 0⟩).run earlier) := by
      rintro _ call rfl isOf
      rw [← isOf] at uniform closed
      exact (leaves_report uniform).of_closed uniform closed
    rw [Machine.run_append]
    refine congrArg LinearThread.creates (keeps.runFrom rfl (Machine.meetsFrom_of_mem ?_ _))
    intro call isMem
    exact sameActivation call (List.mem_append_right _ isMem)

/-- The identifiers of the activation `shu71-run-20260914` under two reasons. -/
def sampleIdentity (reasonCode : JsString) : IncidentIdentity :=
  if reasonCode = js "ambiguous_hold" then
    ⟨js "inc_53681e51d9b12504c620f99218509053", js "d8b1030f-b7f3-48f4-9ca3-80f8e9c36829", js "9521ec35-9e29-4c01-819c-765009ffc8a3", by decide +kernel, by decide +kernel⟩
  else
    ⟨js "inc_6acafb30dfbb29931dd93cfa9065a992", js "7f136e84-9ece-4e04-b734-24a2e6d5c38f", js "96ad4b87-c441-4ac0-8afb-d4823e467012", by decide +kernel, by decide +kernel⟩

def sampleHost : IncidentHost where
  identity := fun _ reasonCode => sampleIdentity reasonCode
  read := readRendered
  read_render := fun _ accepted => readRendered_render accepted

def sampleEvent (reasonCode : JsString) (isReason : isReason reasonCode) : IncidentEvent where
  activationId := js "shu71-run-20260914"
  issueId := js "SHU-240"
  fixture := false
  reasonCode := reasonCode
  isActivation := by decide +kernel
  isReason := isReason

def sampleIssue (event : IncidentEvent) : LinearIssue where
  id := (event.identity sampleHost).issueUuid
  title := event.title
  description := js "<!-- coordinator-incident-event " ++ (event.identity sampleHost).eventId ++ js " -->"
  team := some (js "SHU")
  state := some (js "Backlog")
  assignee := none
  labels := [js "repo:platform"]
  relations := [(js "related", event.issueId)]

/-- A call whose requests are answered, apart from the first lookup and what becomes of its
markers. -/
def sampleCall (event : IncidentEvent) (now : Instant) (started last : Fate) : IncidentCall where
  event := event
  authorized := true
  now := now
  describe := fun event => some (sampleIssue event).description
  commentsAnswered := true
  lookup := none
  started := started
  startedAt := some now
  metadata := some [⟨js "SHU", [(js "Backlog", js "backlog")], [js "repo:platform"]⟩]
  create := .answers
  relation := .answers
  confirmation := some (some (sampleIssue event))
  last := last
  lastAt := some now

def heldEvent : IncidentEvent := sampleEvent (js "ambiguous_hold") (by decide +kernel)

def expiredEvent : IncidentEvent := sampleEvent (js "activation_expired") (by decide +kernel)

/-- The issue is filed and confirmed, and a second call has nothing to do. -/
theorem reports_bounded_confirmed :
    let first := sampleCall heldEvent ⟨1000, by decide⟩ .answers .loses
    let second := sampleCall expiredEvent ⟨2000, by decide⟩ .answers .answers
    let machine := reports sampleHost ⟨[], [], 0⟩
    (machine.run [first, second]).issues.length ≤ 1 ∧
      ((machine.run [first, second]).creates : ℤ) ≤ maxAttempts ∧
      (machine.run [first, second]).creates = (machine.run [first]).creates := by
  intro first second machine
  have bounded := reports_bounded sampleHost (js "shu71-run-20260914") [] [first, second] rfl
    (by simp [first, second, sampleCall, heldEvent, expiredEvent, sampleEvent])
  have recorded : machine.Meets (Recorded sampleHost) [first, second] :=
    ⟨fun _ _ _ _ _ _ => Or.inl (by decide), fun _ _ _ _ _ _ => Or.inl (by decide), trivial⟩
  have closed : Closed sampleHost (js "shu71-run-20260914") (machine.run [first]) := by
    have found : ((machine.run [first]).markers sampleHost (js "shu71-run-20260914")).any
        (·.status = js "confirmed") = true := by decide +kernel
    rcases List.any_eq_true.mp found with ⟨marker, isMem, isConfirmed⟩
    exact ⟨marker, isMem, Or.inl (of_decide_eq_true isConfirmed)⟩
  exact ⟨(bounded.1 recorded).1, (bounded.1 recorded).2, bounded.2 [first] [second] rfl closed⟩

/-- Both markers of a call are lost, and the next call reports under another reason: two issues
are created. And four calls that lose their markers send four create mutations. -/
theorem reports_lostMarkers :
    (¬∀ calls : List IncidentCall,
      (∀ call ∈ calls, call.event.activationId = js "shu71-run-20260914") →
      ((reports sampleHost ⟨[], [], 0⟩).run calls).issues.length ≤ 1) ∧
    ¬∀ calls : List IncidentCall,
      (∀ call ∈ calls, call.event.activationId = js "shu71-run-20260914") →
      (((reports sampleHost ⟨[], [], 0⟩).run calls).creates : ℤ) ≤ maxAttempts := by
  refine ⟨?_, ?_⟩
  · intro single
    have two := single [sampleCall heldEvent ⟨1000, by decide⟩ .fails .fails,
      sampleCall expiredEvent ⟨2000, by decide⟩ .answers .answers]
      (by simp [sampleCall, heldEvent, expiredEvent, sampleEvent])
    exact absurd two (by decide +kernel)
  · intro bounded
    have four := bounded [sampleCall heldEvent ⟨1000, by decide⟩ .fails .fails,
      sampleCall heldEvent ⟨2000, by decide⟩ .fails .fails,
      sampleCall heldEvent ⟨3000, by decide⟩ .fails .fails,
      sampleCall heldEvent ⟨4000, by decide⟩ .fails .fails]
      (by simp [sampleCall, heldEvent, sampleEvent])
    exact absurd four (by decide +kernel)

end StudentHub.Incidents
