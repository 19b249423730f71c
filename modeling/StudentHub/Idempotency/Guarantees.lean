import StudentHub.Idempotency.Once

/-!
# What idempotency promises

Whatever requests, operations and clean-ups overlap, a pair is applied at most once, its
answers repeat the response of that application, another mutation under the same pair is
not executed, and an attempt that fails leaves everything as it was.
-/

namespace StudentHub.Idempotency

open Ecma Concurrency

variable {sha256 : Utf8 → JsString} {options : IdempotencyOptions} {world : World}

structure Drafted (world : World) : Prop where
  live : world.live < world.allocated
  apart : ∀ id call draft, world.calls.get? id = some call → call.phase = .operating draft →
    draft ≠ world.live ∧ draft < world.allocated

theorem Drafted.setPhase (drafted : Drafted world) (id : ℕ) (call : Call) (phase : Phase)
    (apart : ∀ draft, phase = .operating draft → draft ≠ world.live ∧ draft < world.allocated) :
    Drafted (world.setPhase id call phase) where
  live := drafted.live
  apart := by
    intro other kept draft found operating
    simp only [World.setPhase, OrderedMap.get?_set] at found
    split at found
    · rw [← Option.some.inj found] at operating
      exact apart draft operating
    · exact drafted.apart other kept draft found operating

theorem Drafted.release (drafted : Drafted world) (id : ℕ) (call : Call)
    (outcome : AtomicMutationOutcome) : Drafted (world.release id call outcome) := by
  have left := drafted.setPhase id call (.leaving outcome) (by simp)
  exact ⟨left.live, left.apart⟩

theorem Drafted.transact (drafted : Drafted world) {id : ℕ} {call : Call} :
    Drafted (world.transact id call) := by
  unfold World.transact
  split_ifs
  · exact drafted.release id call _
  split
  · split_ifs <;> exact drafted.release id call _
  · refine ⟨Nat.lt_succ_of_lt drafted.live, ?_⟩
    intro other kept draft found operating
    simp only [World.happen, World.setPhase, OrderedMap.get?_set] at found
    split at found
    · rw [← Option.some.inj found, Phase.operating.injEq] at operating
      rw [← operating]
      exact ⟨drafted.live.ne', Nat.lt_succ_self _⟩
    · rcases drafted.apart other kept draft found operating with ⟨notLive, inside⟩
      exact ⟨notLive, Nat.lt_succ_of_lt inside⟩

theorem Drafted.conclude (drafted : Drafted world) (sound : Sound sha256 options world) {id : ℕ}
    {request : MutationRequest} {input : AtomicMutationInput} {draft : ℕ}
    (found : world.calls.get? id = some ⟨request, input, .operating draft⟩)
    (response : Option StoredResponse) :
    Drafted (world.conclude id ⟨request, input, .operating draft⟩ draft response) := by
  cases response with
  | none =>
    have released := drafted.release id ⟨request, input, .operating draft⟩ .failed
    exact ⟨released.live, released.apart⟩
  | some response =>
    refine ⟨(drafted.apart id _ draft found rfl).2, ?_⟩
    intro other kept otherDraft otherFound operating
    simp only [World.conclude, World.happen, World.release, World.setPhase,
      OrderedMap.get?_set] at otherFound
    split at otherFound
    · rw [← Option.some.inj otherFound] at operating
      contradiction
    · rename_i different
      have first := (sound.calls _ _ found).phase.1
      exact absurd operating (sound.not_operating first different otherFound otherDraft)

theorem Drafted.transition {after : World} (drafted : Drafted world)
    (sound : Sound sha256 options world) (transition : Transition sha256 options world after) :
    Drafted after := by
  cases transition with
  | stay => exact drafted
  | tick => exact ⟨drafted.live, drafted.apart⟩
  | execute request =>
    unfold World.execute
    cases checkRequest sha256 options world.clock request with
    | error refusal => exact ⟨drafted.live, drafted.apart⟩
    | ok input =>
      have waits := drafted.setPhase world.requests ⟨request, input, .awaitingKey⟩ .awaitingKey
        (by simp)
      exact ⟨waits.live, waits.apart⟩
  | enter id request input =>
    have waits := drafted.setPhase id ⟨request, input, .awaitingKey⟩ .awaitingTransaction
      (by simp)
    exact ⟨waits.live, waits.apart⟩
  | transact => exact drafted.transact
  | write draft change =>
    rw [World.write]
    split
    · exact ⟨drafted.live, drafted.apart⟩
    · exact drafted
  | conclude id request input draft found response => exact drafted.conclude sound found response
  | leave id =>
    refine ⟨drafted.live, ?_⟩
    intro other call draft found operating
    simp only [World.leave, World.happen, OrderedMap.get?_delete] at found
    split at found
    · simp at found
    · exact drafted.apart other call draft found operating
  | cleanup => exact ⟨drafted.live, drafted.apart⟩
  | sweep => exact ⟨drafted.live, drafted.apart⟩

theorem drafted_run (clock : Instant) (tables : Tables) (events : List Event) :
    Drafted ((World.start clock tables).run sha256 options events) := by
  have from_ : ∀ world : World, Sound sha256 options world → Drafted world →
      Drafted (world.run sha256 options events) := by
    induction events with
    | nil => exact fun _ _ drafted => drafted
    | cons event rest later =>
      intro world sound drafted
      have step := transition_next sha256 options world event
      exact later _ (sound.transition step) (drafted.transition sound step)
  apply from_ _ (sound_start clock tables)
  exact ⟨Nat.zero_lt_one, by simp [World.start]⟩

def Event.draft : Event → Option ℕ
  | insert draft _ _ => some draft
  | enqueue draft _ _ => some draft
  | _ => none

/-- A world as it was when an operation began, which is still under way. -/
structure Undisturbed (world after : World) (id : ℕ) (call : Call) : Prop where
  found : after.calls.get? id = some call
  records : after.records = world.records
  live : after.live = world.live

theorem visible_write {draft : ℕ} {change : Tables → Tables} (notLive : draft ≠ world.live) :
    (world.write draft change).visible = world.visible := by
  rw [World.write]
  split
  · simp [World.visible, Function.update_of_ne notLive.symm]
  · rfl

theorem undisturbed_write {id draft : ℕ} {call : Call} {change : Tables → Tables}
    (found : world.calls.get? id = some call) :
    Undisturbed world (world.write draft change) id call := by
  rw [World.write]
  split <;> exact ⟨found, rfl, rfl⟩

theorem ne_of_phase_ne {id other : ℕ} {call kept : Call} (found : world.calls.get? id = some call)
    (otherFound : world.calls.get? other = some kept) (different : call.phase ≠ kept.phase) :
    id ≠ other := by
  rintro rfl
  rw [found, Option.some.injEq] at otherFound
  exact different (congrArg Call.phase otherFound)

/-- While an operation is under way, nothing but writes through the live handle is seen. -/
theorem undisturbed_next (sound : Sound sha256 options world) {id draft : ℕ}
    {request : MutationRequest} {input : AtomicMutationInput}
    (found : world.calls.get? id = some ⟨request, input, .operating draft⟩) {event : Event}
    (unsettled : ∀ response, event ≠ .settle id response) :
    Undisturbed world (world.next sha256 options event) id ⟨request, input, .operating draft⟩ ∧
      (event.draft ≠ some world.live →
        (world.next sha256 options event).visible = world.visible) := by
  have fits := sound.calls _ _ found
  have first : world.transactions.head? = some (.call id) := fits.phase.1
  cases event with
  | tick now =>
    simp only [World.next]
    split <;> exact ⟨⟨found, rfl, rfl⟩, fun _ => rfl⟩
  | execute other =>
    have older : id ≠ world.requests := (sound.numbered id request fits.requested).ne
    simp only [World.next, World.execute]
    split
    · exact ⟨⟨found, rfl, rfl⟩, fun _ => rfl⟩
    · refine ⟨⟨?_, rfl, rfl⟩, fun _ => rfl⟩
      rw [OrderedMap.get?_set_of_ne _ _ older]
      exact found
  | enter other =>
    simp only [World.next]
    split
    · rename_i otherRequest otherInput otherFound
      have different := ne_of_phase_ne found otherFound (by simp)
      rw [World.enter]
      split
      · refine ⟨⟨?_, rfl, rfl⟩, fun _ => rfl⟩
        simp only [World.setPhase, OrderedMap.get?_set_of_ne _ _ different]
        exact found
      · exact ⟨⟨found, rfl, rfl⟩, fun _ => rfl⟩
    · exact ⟨⟨found, rfl, rfl⟩, fun _ => rfl⟩
  | begin other =>
    simp only [World.next]
    split
    · rename_i otherRequest otherInput otherFound
      have different := ne_of_phase_ne found otherFound (by simp)
      rw [if_neg]
      · exact ⟨⟨found, rfl, rfl⟩, fun _ => rfl⟩
      · rw [first, Option.some.injEq, Waiter.call.injEq]
        exact different
    · exact ⟨⟨found, rfl, rfl⟩, fun _ => rfl⟩
  | insert other collection row =>
    simp only [World.next]
    refine ⟨undisturbed_write found, ?_⟩
    intro notLive
    exact visible_write fun same => notLive (congrArg some same)
  | enqueue other topic item =>
    simp only [World.next]
    refine ⟨undisturbed_write found, ?_⟩
    intro notLive
    exact visible_write fun same => notLive (congrArg some same)
  | settle other response =>
    simp only [World.next]
    split
    · rename_i otherRequest otherInput otherDraft otherFound
      have different : other ≠ id := fun same => unsettled response (by rw [same])
      exact absurd rfl (sound.not_operating first different otherFound otherDraft)
    · exact ⟨⟨found, rfl, rfl⟩, fun _ => rfl⟩
  | leave other =>
    simp only [World.next]
    split
    · rename_i otherRequest otherInput outcome otherFound
      have different := ne_of_phase_ne found otherFound (by simp)
      refine ⟨⟨?_, rfl, rfl⟩, fun _ => rfl⟩
      simp only [World.leave, World.happen, OrderedMap.get?_delete, if_neg different]
      exact found
    · exact ⟨⟨found, rfl, rfl⟩, fun _ => rfl⟩
  | cleanup => exact ⟨⟨found, rfl, rfl⟩, fun _ => rfl⟩
  | sweep =>
    simp only [World.next, World.sweep]
    split
    · rename_i now rest waiting
      rw [waiting] at first
      simp at first
    · exact ⟨⟨found, rfl, rfl⟩, fun _ => rfl⟩

theorem undisturbed_run (sound : Sound sha256 options world) {id draft : ℕ}
    {request : MutationRequest} {input : AtomicMutationInput}
    (found : world.calls.get? id = some ⟨request, input, .operating draft⟩) {during : List Event}
    (unsettled : ∀ response, .settle id response ∉ during) :
    Undisturbed world (world.run sha256 options during) id ⟨request, input, .operating draft⟩ ∧
      ((∀ event ∈ during, event.draft ≠ some world.live) →
        (world.run sha256 options during).visible = world.visible) := by
  induction during generalizing world with
  | nil => exact ⟨⟨found, rfl, rfl⟩, fun _ => rfl⟩
  | cons event rest later =>
    have now := @undisturbed_next _ _ _ sound _ _ _ _ found event
      fun response same => unsettled response (same ▸ List.mem_cons_self)
    rcases now with ⟨⟨stillFound, records, live⟩, visible⟩
    have nextSound := sound.transition (transition_next sha256 options world event)
    rcases later nextSound stillFound fun response inRest =>
      unsettled response (List.mem_cons_of_mem _ inRest) with ⟨⟨lastFound, lastRecords, lastLive⟩, seen⟩
    refine ⟨⟨lastFound, lastRecords.trans records, lastLive.trans live⟩, ?_⟩
    intro notLive
    rw [List.forall_mem_cons] at notLive
    exact (seen fun event inRest => live ▸ notLive.2 event inRest).trans (visible notLive.1)

theorem Sound.applied_unique (sound : Sound sha256 options world) {id other draft otherDraft : ℕ}
    {request otherRequest : MutationRequest} {response otherResponse : StoredResponse}
    (applied : .applied id request draft response ∈ world.history)
    (otherApplied : .applied other otherRequest otherDraft otherResponse ∈ world.history)
    (samePair : otherRequest.pair = request.pair) :
    id = other ∧ request = otherRequest ∧ draft = otherDraft ∧ response = otherResponse := by
  rcases sound.chronicle.of_mem applied with ⟨earlier, suffix, -, unapplied⟩
  rcases sound.chronicle.of_mem otherApplied with ⟨otherEarlier, otherSuffix, -, otherUnapplied⟩
  rcases same_or_older suffix otherSuffix with ⟨same, -⟩ | older | older
  · simpa using same
  · exact absurd samePair.symm (otherUnapplied _ _ _ _ (mem_of_suffix older))
  · exact absurd samePair (unapplied _ _ _ _ (mem_of_suffix older))

theorem Sound.mem_of_requested (sound : Sound sha256 options world) {id : ℕ}
    {request : MutationRequest} {happening older : Happening} {earlier before : List Happening}
    (made : .requested id request :: earlier <:+ world.history)
    (suffix : happening :: before <:+ world.history) (known : .requested id request ∈ before)
    (inEarlier : older ∈ earlier) : older ∈ before := by
  rcases exists_suffix_of_mem known with ⟨earlier', made'⟩
  have within : .requested id request :: earlier' <:+ world.history :=
    made'.trans ((List.suffix_cons _ _).trans suffix)
  rcases same_or_older made within with ⟨-, rfl⟩ | twice | twice
  · exact made'.subset (List.mem_cons_of_mem _ inEarlier)
  · exact absurd (mem_of_suffix twice) (sound.chronicle _ _ within request)
  · exact absurd (mem_of_suffix twice) (sound.chronicle _ _ made request)

theorem Sound.not_started (sound : Sound sha256 options world) {id other draft : ℕ}
    {request otherRequest : MutationRequest} {response : StoredResponse}
    {earlier : List Happening} (made : .requested other otherRequest :: earlier <:+ world.history)
    (applied : .applied id request draft response ∈ earlier)
    (samePair : otherRequest.pair = request.pair) (otherDraft : ℕ) :
    .started other otherRequest otherDraft ∉ world.history := by
  intro started
  rcases sound.chronicle.of_mem started with ⟨before, suffix, requested, unapplied⟩
  exact unapplied _ _ _ _ (sound.mem_of_requested made suffix requested applied) samePair.symm

theorem Sound.refused (sound : Sound sha256 options world) {id other draft : ℕ}
    {request otherRequest : MutationRequest} {response : StoredResponse} {result : MutationResult}
    {earlier : List Happening} (made : .requested other otherRequest :: earlier <:+ world.history)
    (applied : .applied id request draft response ∈ earlier)
    (samePair : otherRequest.pair = request.pair)
    (differs : mutationFingerprint sha256 otherRequest ≠ mutationFingerprint sha256 request)
    (answered : .answered other otherRequest result ∈ world.history) :
    ∃ status reason, result = .refusal status reason ∧ (reason = .keyPayloadMismatch ∨
      reason = .keyExpired ∨ reason = .invalidRequest ∧ requestIsValid otherRequest = false) := by
  rcases sound.chronicle.of_mem answered with ⟨before, suffix, justified⟩
  have appliedInHistory := mem_of_mem_suffix made applied
  cases result with
  | ok replayed given =>
    rcases justified with ⟨-, third, thirdRequest, thirdDraft, thirdApplied, thirdPair, same⟩
    have inHistory := mem_of_mem_suffix suffix thirdApplied
    rcases sound.applied_unique appliedInHistory inHistory (thirdPair.trans samePair) with
      ⟨-, rfl, -, -⟩
    exact absurd same.symm differs
  | refusal status reason =>
    rcases justified with ⟨requested, cases⟩
    refine ⟨status, reason, rfl, ?_⟩
    rcases cases with mismatch | expired | invalid | failed | unapplied
    · exact Or.inl mismatch
    · exact Or.inr (Or.inl expired)
    · exact Or.inr (Or.inr invalid)
    · rcases sound.chronicle.of_mem (mem_of_mem_suffix suffix failed) with ⟨_, inner, _, started⟩
      exact absurd (mem_of_mem_suffix inner started) (sound.not_started made applied samePair _)
    · have older := sound.mem_of_requested made suffix requested applied
      exact absurd samePair.symm (unapplied _ _ _ _ older)

theorem Sound.starts (sound : Sound sha256 options world) {id : ℕ} {request : MutationRequest}
    {input : AtomicMutationInput}
    (found : world.calls.get? id = some ⟨request, input, .awaitingTransaction⟩)
    (first : world.transactions.head? = some (.call id))
    (inTime : ¬Date.reaches (some world.clock) input.expiresAt = true)
    (unapplied : Unapplied world.history request) :
    (world.next sha256 options (.begin id)).history =
      .started id request world.allocated :: world.history := by
  have absent : world.records.get? input.scope = none := by
    cases recorded : world.records.get? input.scope with
    | none => rfl
    | some record =>
      rcases sound.recorded _ record recorded with
        ⟨other, otherRequest, draft, now', input', key', applied, admitted', scope, -⟩
      rcases (sound.calls _ _ found).admitted with ⟨now, key, passed, admitted⟩
      exact absurd ((admitted'.scope_eq_iff admitted).mp scope) (unapplied _ _ _ _ applied)
  simp only [World.next, found, if_pos first, World.transact, if_neg inTime, absent]
  rfl

end StudentHub.Idempotency

/-!
## Mutations under one key

The promises of the contract for whole runs. A request that is malformed is refused as
such even under a pair that has been applied, before its fingerprint is looked at.
-/

namespace StudentHub.Idempotency

open Ecma Concurrency

namespace Scenario

def owner : JsString := js "a1d5d4103d619e71d41f4d8e96798978615d95d0ed9f31a860b4524840fd8ccf"

/-- SHA-256 by its values at the messages of the run below. -/
def sha256 : Utf8 → JsString :=
  tabulated
    [(js "\x7b\"contractVersion\":\"1.0.0\",\"method\":\"POST\",\"payload\":1,\"principalRef\":\"" ++
        owner ++ js "\",\"route\":\"/contracts\"\x7d",
        js "fc7993552f6b449a33c9db3b69364f187da7ca040aab4887ee4c833171b5372e"),
      (js "\x7b\"contractVersion\":\"1.0.0\",\"method\":\"POST\",\"payload\":null," ++
        js "\"principalRef\":\"" ++ owner ++ js "\",\"route\":\"/contracts\"\x7d",
        js "b30afc5e895b2ed27d65dc99dfb41277bbe35338c205254131e9536e727ceff7")]

def options : IdempotencyOptions := ⟨604800000, 300000, by decide, by decide⟩

def request (payload : JsValue) : MutationRequest :=
  ⟨some (js "v1.1788868800000.0f0e0d0c-0b0a-4908-8706-050403020100"), owner, js "POST",
    js "/contracts", payload⟩

/-- The first request is applied; the second one, under the same pair, carries `NaN`. -/
def world : World :=
  (World.start .sample ⟨.empty, .empty⟩).run sha256 options
    [.execute (request (.number (.finite ⟨false, 1, 0, by decide⟩))), .enter 0, .begin 0,
      .insert 1 (js "contracts") (.string (js "row")), .settle 0 (some ⟨201, [], .null⟩),
      .leave 0, .execute (request (.number .nan))]

def answersInvalid : List Happening → Bool
  | [.answered 1 other (.refusal _ .invalidRequest), .requested 1 _, .answered _ _ _,
      .applied 0 request _ _, .started _ _ _, .requested 0 _] =>
      decide (other.pair = request.pair ∧
        mutationFingerprint sha256 other ≠ mutationFingerprint sha256 request)
  | _ => false

end Scenario

end StudentHub.Idempotency
