import StudentHub.Idempotency.Keys

/-!
# Mutations are applied once

A pair that has been applied has its record or is past its expiry: a clean-up removes a
record only when its time has come, and the same time is in every request of the pair.
So the transaction of a later request finds the record or is refused as expired, and no
operation of the pair starts again.
-/

namespace StudentHub.Idempotency

open Ecma Concurrency

def Unapplied (history : List Happening) (request : MutationRequest) : Prop :=
  ∀ id other draft response, .applied id other draft response ∈ history →
    other.pair ≠ request.pair

/-- A response is that of the request of the same pair that has been applied, which asked for
the same mutation. -/
def Answers (sha256 : Utf8 → JsString) (history : List Happening) (request : MutationRequest)
    (response : StoredResponse) : Prop :=
  ∃ id other draft, .applied id other draft response ∈ history ∧ other.pair = request.pair ∧
    mutationFingerprint sha256 other = mutationFingerprint sha256 request

def Justified (sha256 : Utf8 → JsString) (earlier : List Happening) : Happening → Prop
  | .requested id _ => ∀ other, .requested id other ∉ earlier
  | .started id request _ => .requested id request ∈ earlier ∧ Unapplied earlier request
  | .applied id request draft _ =>
      .started id request draft ∈ earlier ∧ Unapplied earlier request
  | .failed id request => ∃ draft, .started id request draft ∈ earlier
  | .answered id request (.ok _ response) =>
      .requested id request ∈ earlier ∧ Answers sha256 earlier request response
  | .answered id request (.refusal _ reason) =>
      .requested id request ∈ earlier ∧
        (reason = .keyPayloadMismatch ∨ reason = .keyExpired ∨
          reason = .invalidRequest ∧ requestIsValid request = false ∨
          .failed id request ∈ earlier ∨ Unapplied earlier request)

section Transition

variable (sha256 : Utf8 → JsString) (options : IdempotencyOptions)

inductive Transition (world : World) : World → Prop
  | stay : Transition world world
  | tick (now : Instant) (later : world.clock.time ≤ now.time) :
      Transition world { world with clock := now }
  | execute (request : MutationRequest) : Transition world (world.execute sha256 options request)
  | enter (id : ℕ) (request : MutationRequest) (input : AtomicMutationInput)
      (found : world.calls.get? id = some ⟨request, input, .awaitingKey⟩) :
      Transition world { world.setPhase id ⟨request, input, .awaitingKey⟩ .awaitingTransaction with
        transactions := world.transactions ++ [.call id] }
  | transact (id : ℕ) (request : MutationRequest) (input : AtomicMutationInput)
      (found : world.calls.get? id = some ⟨request, input, .awaitingTransaction⟩)
      (first : world.transactions.head? = some (.call id)) :
      Transition world (world.transact id ⟨request, input, .awaitingTransaction⟩)
  | write (draft : ℕ) (change : Tables → Tables) : Transition world (world.write draft change)
  | conclude (id : ℕ) (request : MutationRequest) (input : AtomicMutationInput) (draft : ℕ)
      (found : world.calls.get? id = some ⟨request, input, .operating draft⟩)
      (response : Option StoredResponse) :
      Transition world (world.conclude id ⟨request, input, .operating draft⟩ draft response)
  | leave (id : ℕ) (request : MutationRequest) (input : AtomicMutationInput)
      (outcome : AtomicMutationOutcome)
      (found : world.calls.get? id = some ⟨request, input, .leaving outcome⟩) :
      Transition world (world.leave id ⟨request, input, .leaving outcome⟩ outcome)
  | cleanup : Transition world
      { world with transactions := world.transactions ++ [.cleanup world.clock] }
  | sweep (now : Instant) (rest : List Waiter) (first : world.transactions = .cleanup now :: rest) :
      Transition world { world with
        records := world.records.filter fun _ record => ¬Date.reaches (some now) record.expiresAt
        transactions := rest }

theorem transition_next (world : World) (event : Event) :
    Transition sha256 options world (world.next sha256 options event) := by
  cases event with
  | tick now =>
    simp only [World.next]
    split
    · rename_i later
      exact Transition.tick now later
    · exact Transition.stay
  | execute request => exact Transition.execute request
  | enter id =>
    simp only [World.next]
    split
    · rename_i request input found
      rw [World.enter]
      split
      · exact Transition.enter id request input found
      · exact Transition.stay
    · exact Transition.stay
  | begin id =>
    simp only [World.next]
    split
    · rename_i request input found
      split
      · rename_i first
        exact Transition.transact id request input found first
      · exact Transition.stay
    · exact Transition.stay
  | insert draft collection row =>
    simp only [World.next]
    exact Transition.write draft _
  | enqueue draft topic event =>
    simp only [World.next]
    exact Transition.write draft _
  | settle id response =>
    simp only [World.next]
    split
    · rename_i request input draft found
      exact Transition.conclude id request input draft found response
    · exact Transition.stay
  | leave id =>
    simp only [World.next]
    split
    · rename_i request input outcome found
      exact Transition.leave id request input outcome found
    · exact Transition.stay
  | cleanup => exact Transition.cleanup
  | sweep =>
    simp only [World.next, World.sweep]
    split
    · rename_i now rest first
      exact Transition.sweep now rest first
    · exact Transition.stay

end Transition

def Kept (sha256 : Utf8 → JsString) (options : IdempotencyOptions) (clock : Instant)
    (records : OrderedMap JsString StoredRecord) (request : MutationRequest)
    (response : StoredResponse) : Prop :=
  ∃ now input key, now.time ≤ clock.time ∧ Admitted sha256 options now request input key ∧
    (records.get? input.scope = some ⟨input.fingerprint, input.expiresAt, response⟩ ∨
      Date.reaches (some clock) input.expiresAt = true)

/-- What holds of a request at its place in `executeAtomic`. -/
def PhaseFits (sha256 : Utf8 → JsString) (transactions : List Waiter) (history : List Happening)
    (id : ℕ) (request : MutationRequest) : Phase → Prop
  | .awaitingKey => True
  | .awaitingTransaction => True
  | .operating draft => transactions.head? = some (.call id) ∧ Unapplied history request ∧
      .started id request draft ∈ history
  | .leaving (.executed response) => Answers sha256 history request response
  | .leaving (.replayed response) => Answers sha256 history request response
  | .leaving .conflict => True
  | .leaving .expired => True
  | .leaving .failed => .failed id request ∈ history

structure Fits (sha256 : Utf8 → JsString) (options : IdempotencyOptions) (clock : Instant)
    (transactions : List Waiter) (history : List Happening) (id : ℕ) (call : Call) : Prop where
  requested : .requested id call.request ∈ history
  admitted : ∃ now key, now.time ≤ clock.time ∧
    Admitted sha256 options now call.request call.input key
  phase : PhaseFits sha256 transactions history id call.request call.phase

structure Sound (sha256 : Utf8 → JsString) (options : IdempotencyOptions) (world : World) :
    Prop where
  chronicle : Chronicle (Justified sha256) world.history
  numbered : ∀ id request, .requested id request ∈ world.history → id < world.requests
  kept : ∀ id request draft response, .applied id request draft response ∈ world.history →
    Kept sha256 options world.clock world.records request response
  recorded : ∀ scope record, world.records.get? scope = some record →
    ∃ id request draft now input key,
      .applied id request draft record.response ∈ world.history ∧
        Admitted sha256 options now request input key ∧ input.scope = scope ∧
        record.fingerprint = input.fingerprint ∧ record.expiresAt = input.expiresAt
  calls : ∀ id call, world.calls.get? id = some call →
    Fits sha256 options world.clock world.transactions world.history id call
  cleanups : ∀ now, .cleanup now ∈ world.transactions → now.time ≤ world.clock.time
  lives : world.live = 0 ∨
    ∃ id request response, .applied id request world.live response ∈ world.history

variable {sha256 : Utf8 → JsString} {options : IdempotencyOptions} {world : World}
  {clock clock' : Instant} {transactions transactions' : List Waiter}
  {history history' : List Happening} {records records' : OrderedMap JsString StoredRecord}

theorem sound_start (clock : Instant) (tables : Tables) :
    Sound sha256 options (World.start clock tables) where
  chronicle := Chronicle.nil
  numbered := by simp [World.start]
  kept := by simp [World.start]
  recorded := by simp [World.start]
  calls := by simp [World.start]
  cleanups := by simp [World.start]
  lives := Or.inl rfl

theorem Answers.mono {request : MutationRequest} {response : StoredResponse}
    (kept : ∀ happening ∈ history, happening ∈ history')
    (answers : Answers sha256 history request response) :
    Answers sha256 history' request response := by
  rcases answers with ⟨id, other, draft, applied, samePair, sameMutation⟩
  exact ⟨id, other, draft, kept _ applied, samePair, sameMutation⟩

theorem Fits.mono {id : ℕ} {call : Call}
    (fits : Fits sha256 options clock transactions history id call)
    (later : clock.time ≤ clock'.time) (longer : ∀ happening ∈ history, happening ∈ history')
    (operating : ∀ draft, call.phase = .operating draft →
      transactions'.head? = some (.call id) ∧ Unapplied history' call.request) :
    Fits sha256 options clock' transactions' history' id call := by
  rcases fits with ⟨requested, ⟨now, key, passed, admitted⟩, phase⟩
  refine ⟨longer _ requested, ⟨now, key, passed.trans later, admitted⟩, ?_⟩
  cases place : call.phase with
  | awaitingKey => trivial
  | awaitingTransaction => trivial
  | operating draft =>
    rw [place] at phase
    exact ⟨(operating draft place).1, (operating draft place).2, longer _ phase.2.2⟩
  | leaving outcome =>
    rw [place] at phase
    cases outcome with
    | executed response => exact Answers.mono longer phase
    | replayed response => exact Answers.mono longer phase
    | conflict => trivial
    | expired => trivial
    | failed => exact longer _ phase

theorem Fits.operating {id : ℕ} {call : Call}
    (fits : Fits sha256 options clock transactions history id call) {draft : ℕ}
    (operating : call.phase = .operating draft) :
    transactions.head? = some (.call id) ∧ Unapplied history call.request := by
  have phase := fits.phase
  rw [operating] at phase
  exact ⟨phase.1, phase.2.1⟩

theorem Kept.mono {request : MutationRequest} {response : StoredResponse}
    (kept : Kept sha256 options clock records request response)
    (later : clock.time ≤ clock'.time)
    (replaced : ∀ now input key record, Admitted sha256 options now request input key →
      records.get? input.scope = some record → records'.get? input.scope = some record ∨
        Date.reaches (some clock') record.expiresAt = true) :
    Kept sha256 options clock' records' request response := by
  rcases kept with ⟨now, input, key, passed, admitted, found | reached⟩
  · refine ⟨now, input, key, passed.trans later, admitted, ?_⟩
    exact replaced now input key _ admitted found
  · exact ⟨now, input, key, passed.trans later, admitted, Or.inr (Date.reaches_of_le later reached)⟩

theorem Unapplied.cons {request : MutationRequest}
    {happening : Happening} (unapplied : Unapplied history request)
    (different : ∀ id other draft response, happening = .applied id other draft response →
      other.pair ≠ request.pair) : Unapplied (happening :: history) request := by
  intro id other draft response applied
  rcases List.mem_cons.mp applied with same | older
  · exact different id other draft response same.symm
  · exact unapplied id other draft response older

theorem Sound.not_operating (sound : Sound sha256 options world) {id other : ℕ} {call : Call}
    (first : world.transactions.head? = some (.call id)) (different : other ≠ id)
    (found : world.calls.get? other = some call) (draft : ℕ) : call.phase ≠ .operating draft := by
  intro operating
  have phase := (sound.calls other call found).phase
  rw [operating] at phase
  have same := phase.1.symm.trans first
  simp only [Option.some.injEq, Waiter.call.injEq] at same
  exact different same

theorem Sound.happen (sound : Sound sha256 options world) (happening : Happening)
    (justified : Justified sha256 world.history happening)
    (notRequested : ∀ id request, happening ≠ .requested id request)
    (notApplied : ∀ id request draft response, happening ≠ .applied id request draft response) :
    Sound sha256 options (world.happen happening) where
  chronicle := sound.chronicle.cons justified
  numbered := by
    intro id request requested
    rcases List.mem_cons.mp requested with same | older
    · exact absurd same.symm (notRequested id request)
    · exact sound.numbered id request older
  kept := by
    intro id request draft response applied
    rcases List.mem_cons.mp applied with same | older
    · exact absurd same.symm (notApplied id request draft response)
    · exact sound.kept id request draft response older
  recorded := by
    intro scope record found
    rcases sound.recorded scope record found with ⟨id, request, draft, now, input, key, applied, rest⟩
    exact ⟨id, request, draft, now, input, key, List.mem_cons_of_mem _ applied, rest⟩
  calls := by
    intro id call found
    apply (sound.calls id call found).mono le_rfl fun _ => List.mem_cons_of_mem _
    intro draft operating
    rcases (sound.calls id call found).operating operating with ⟨first, unapplied⟩
    exact ⟨first, unapplied.cons fun id other draft response same =>
      absurd same (notApplied id other draft response)⟩
  cleanups := sound.cleanups
  lives := sound.lives.imp_right fun ⟨id, request, response, applied⟩ =>
    ⟨id, request, response, List.mem_cons_of_mem _ applied⟩

theorem Sound.setCall (sound : Sound sha256 options world) {id : ℕ} {call : Call}
    (fits : Fits sha256 options world.clock world.transactions world.history id call) :
    Sound sha256 options { world with calls := world.calls.set id call } where
  chronicle := sound.chronicle
  numbered := sound.numbered
  kept := sound.kept
  recorded := sound.recorded
  calls := by
    intro other kept found
    simp only [OrderedMap.get?_set] at found
    split at found
    · rename_i same
      rw [← Option.some.inj found, same]
      exact fits
    · exact sound.calls other kept found
  cleanups := sound.cleanups
  lives := sound.lives

theorem Sound.setPhase (sound : Sound sha256 options world) {id : ℕ} {call : Call} (phase : Phase)
    (found : world.calls.get? id = some call)
    (phaseFits : PhaseFits sha256 world.transactions world.history id call.request phase) :
    Sound sha256 options (world.setPhase id call phase) :=
  sound.setCall
    ⟨(sound.calls id call found).requested, (sound.calls id call found).admitted, phaseFits⟩

theorem Sound.push (sound : Sound sha256 options world) {waiter : Waiter}
    (asked : ∀ now, waiter = .cleanup now → now.time ≤ world.clock.time) :
    Sound sha256 options { world with transactions := world.transactions ++ [waiter] } where
  chronicle := sound.chronicle
  numbered := sound.numbered
  kept := sound.kept
  recorded := sound.recorded
  calls := by
    intro id call found
    apply (sound.calls id call found).mono le_rfl fun _ inHistory => inHistory
    intro draft operating
    rcases (sound.calls id call found).operating operating with ⟨first, unapplied⟩
    exact ⟨by simp [List.head?_append, first], unapplied⟩
  cleanups := by
    intro now waiting
    rcases List.mem_append.mp waiting with older | last
    · exact sound.cleanups now older
    · exact asked now (List.mem_singleton.mp last).symm
  lives := sound.lives

theorem Sound.pop (sound : Sound sha256 options world)
    (idle : ∀ id call, world.calls.get? id = some call → ∀ draft, call.phase ≠ .operating draft) :
    Sound sha256 options { world with transactions := world.transactions.tail } where
  chronicle := sound.chronicle
  numbered := sound.numbered
  kept := sound.kept
  recorded := sound.recorded
  calls := by
    intro id call found
    apply (sound.calls id call found).mono le_rfl fun _ inHistory => inHistory
    intro draft operating
    exact absurd operating (idle id call found draft)
  cleanups := fun now waiting => sound.cleanups now (List.mem_of_mem_tail waiting)
  lives := sound.lives

theorem Sound.release (sound : Sound sha256 options world) {id : ℕ} {call : Call}
    (outcome : AtomicMutationOutcome) (found : world.calls.get? id = some call)
    (first : world.transactions.head? = some (.call id))
    (fits : PhaseFits sha256 world.transactions world.history id call.request (.leaving outcome)) :
    Sound sha256 options (world.release id call outcome) := by
  apply (sound.setPhase _ found fits).pop
  intro other kept otherFound draft
  simp only [World.setPhase, OrderedMap.get?_set] at otherFound
  split at otherFound
  · rw [← Option.some.inj otherFound]
    simp
  · rename_i different
    exact sound.not_operating first different otherFound draft

theorem Sound.drop (sound : Sound sha256 options world) (id : ℕ) :
    Sound sha256 options { world with calls := world.calls.delete id } where
  chronicle := sound.chronicle
  numbered := sound.numbered
  kept := sound.kept
  recorded := sound.recorded
  calls := by
    intro other call found
    simp only [OrderedMap.get?_delete] at found
    split at found
    · simp at found
    · exact sound.calls other call found
  cleanups := sound.cleanups
  lives := sound.lives

theorem Sound.tick (sound : Sound sha256 options world) {now : Instant}
    (later : world.clock.time ≤ now.time) : Sound sha256 options { world with clock := now } where
  chronicle := sound.chronicle
  numbered := sound.numbered
  kept := by
    intro id request draft response applied
    apply (sound.kept id request draft response applied).mono later
    intro now input key record _ found
    exact Or.inl found
  recorded := sound.recorded
  calls := fun id call found => (sound.calls id call found).mono later (fun _ inHistory => inHistory)
    fun _ operating => (sound.calls id call found).operating operating
  cleanups := fun now waiting => (sound.cleanups now waiting).trans later
  lives := sound.lives

theorem exists_refusal_of_checkRequest {now : Instant} {request : MutationRequest} {result : MutationResult}
    (refuses : checkRequest sha256 options now request = .error result) :
    ∃ status reason, result = .refusal status reason := by
  unfold checkRequest at refuses
  split at refuses
  · exact ⟨_, _, (Except.error.inj refuses).symm⟩
  split at refuses
  · exact ⟨_, _, (Except.error.inj refuses).symm⟩
  split_ifs at refuses <;> exact ⟨_, _, (Except.error.inj refuses).symm⟩

theorem Sound.request (sound : Sound sha256 options world) (request : MutationRequest) :
    Sound sha256 options
      { world.happen (.requested world.requests request) with requests := world.requests + 1 } where
  chronicle := by
    apply sound.chronicle.cons
    intro other requested
    exact absurd (sound.numbered _ other requested) (Nat.lt_irrefl _)
  numbered := by
    intro id other requested
    rcases List.mem_cons.mp requested with same | older
    · rw [Happening.requested.injEq] at same
      exact Nat.lt_succ_of_le same.1.le
    · exact Nat.lt_succ_of_lt (sound.numbered id other older)
  kept := by
    intro id other draft response applied
    rcases List.mem_cons.mp applied with same | older
    · simp at same
    · exact sound.kept id other draft response older
  recorded := by
    intro scope record found
    rcases sound.recorded scope record found with ⟨id, other, draft, now, input, key, applied, rest⟩
    exact ⟨id, other, draft, now, input, key, List.mem_cons_of_mem _ applied, rest⟩
  calls := by
    intro id call found
    apply (sound.calls id call found).mono le_rfl fun _ => List.mem_cons_of_mem _
    intro draft operating
    rcases (sound.calls id call found).operating operating with ⟨first, unapplied⟩
    exact ⟨first, unapplied.cons (by simp)⟩
  cleanups := sound.cleanups
  lives := sound.lives.imp_right fun ⟨id, other, response, applied⟩ =>
    ⟨id, other, response, List.mem_cons_of_mem _ applied⟩

theorem Sound.execute (sound : Sound sha256 options world) (request : MutationRequest) :
    Sound sha256 options (world.execute sha256 options request) := by
  have requested := sound.request request
  unfold World.execute
  cases admits : checkRequest sha256 options world.clock request with
  | error refusal =>
    apply requested.happen _ _ (by simp) (by simp)
    rcases exists_refusal_of_checkRequest admits with ⟨status, reason, rfl⟩
    refine ⟨List.mem_cons_self, ?_⟩
    by_cases unapplied : Unapplied world.history request
    · exact Or.inr (Or.inr (Or.inr (Or.inr (unapplied.cons (by simp)))))
    · simp only [Unapplied, not_forall, not_not] at unapplied
      rcases unapplied with ⟨id, other, draft, response, applied, samePair⟩
      rcases sound.kept id other draft response applied with ⟨now, input, key, passed, admitted, -⟩
      rcases admitted.refusal_of_checkRequest passed samePair admits with ⟨same, invalid⟩ | same
      · rw [MutationResult.refusal.injEq] at same
        exact Or.inr (Or.inr (Or.inl ⟨same.2, invalid⟩))
      · rw [MutationResult.refusal.injEq] at same
        exact Or.inr (Or.inl same.2)
  | ok input =>
    rcases admitted_of_checkRequest admits with ⟨key, admitted⟩
    have set := @Sound.setCall _ _ _ requested world.requests ⟨request, input, .awaitingKey⟩
      ⟨List.mem_cons_self, ⟨world.clock, key, le_rfl, admitted⟩, trivial⟩
    exact ⟨set.chronicle, set.numbered, set.kept, set.recorded, set.calls, set.cleanups, set.lives⟩

theorem Sound.unapplied (sound : Sound sha256 options world) {id : ℕ} {call : Call}
    (found : world.calls.get? id = some call)
    (inTime : ¬Date.reaches (some world.clock) call.input.expiresAt = true)
    (absent : world.records.get? call.input.scope = none) :
    Unapplied world.history call.request := by
  intro other request draft response applied samePair
  rcases (sound.calls id call found).admitted with ⟨now, key, passed, admitted⟩
  rcases sound.kept other request draft response applied with
    ⟨now', input', key', passed', admitted', kept | reached⟩
  · rw [(admitted'.scope_eq_iff admitted).mpr samePair, absent] at kept
    contradiction
  · rw [admitted'.expiresAt_eq admitted samePair] at reached
    exact inTime reached

theorem Sound.transact (sound : Sound sha256 options world) {id : ℕ} {request : MutationRequest}
    {input : AtomicMutationInput}
    (found : world.calls.get? id = some ⟨request, input, .awaitingTransaction⟩)
    (first : world.transactions.head? = some (.call id)) :
    Sound sha256 options (world.transact id ⟨request, input, .awaitingTransaction⟩) := by
  have fits := sound.calls _ _ found
  unfold World.transact
  split_ifs with expired
  · exact sound.release _ found first trivial
  split
  · rename_i existing recorded
    split_ifs with differs
    · exact sound.release _ found first trivial
    · apply sound.release _ found first
      rcases sound.recorded _ existing recorded with
        ⟨other, otherRequest, draft, now', input', key', applied, admitted', scope, print, -⟩
      rcases fits.admitted with ⟨now, key, passed, admitted⟩
      refine ⟨other, otherRequest, draft, applied, (admitted'.scope_eq_iff admitted).mp scope, ?_⟩
      rw [not_not, print, admitted.input_eq, admitted'.input_eq] at differs
      exact differs
  · rename_i absent
    have unapplied := sound.unapplied found expired absent
    have started := sound.happen (.started id request world.allocated)
      ⟨fits.requested, unapplied⟩ (by simp) (by simp)
    have operates := started.setPhase (.operating world.allocated) found
      ⟨first, unapplied.cons (by simp), List.mem_cons_self⟩
    exact ⟨operates.chronicle, operates.numbered, operates.kept, operates.recorded,
      operates.calls, operates.cleanups, operates.lives⟩

theorem Sound.apply (sound : Sound sha256 options world) {id draft : ℕ} {request : MutationRequest}
    {input : AtomicMutationInput} (response : StoredResponse)
    (found : world.calls.get? id = some ⟨request, input, .operating draft⟩) :
    Sound sha256 options
      (world.conclude id ⟨request, input, .operating draft⟩ draft (some response)) := by
  have fits := sound.calls _ _ found
  have phase := fits.phase
  have unapplied := phase.2.1
  rcases fits.admitted with ⟨now, key, passed, admitted⟩
  refine ⟨?_, ?_, ?_, ?_, ?_, ?_, ?_⟩
  · exact sound.chronicle.cons ⟨phase.2.2, unapplied⟩
  · intro other otherRequest requested
    rcases List.mem_cons.mp requested with same | older
    · simp at same
    · exact sound.numbered other otherRequest older
  · intro other otherRequest otherDraft otherResponse applied
    rcases List.mem_cons.mp applied with same | older
    · cases same
      refine ⟨now, input, key, passed, admitted, Or.inl ?_⟩
      simp [World.conclude]
    · apply (sound.kept other otherRequest otherDraft otherResponse older).mono le_rfl
      intro otherNow otherInput otherKey record otherAdmitted kept
      left
      have different : otherInput.scope ≠ input.scope := fun same =>
        unapplied other otherRequest otherDraft otherResponse older
          ((otherAdmitted.scope_eq_iff admitted).mp same)
      simp only [World.conclude, OrderedMap.get?_set_of_ne _ _ different]
      exact kept
  · intro scope record kept
    simp only [World.conclude, OrderedMap.get?_set] at kept
    split at kept
    · rename_i same
      rw [← Option.some.inj kept]
      exact ⟨id, request, draft, now, input, key, List.mem_cons_self, admitted, same.symm, rfl, rfl⟩
    · rcases sound.recorded scope record kept with
        ⟨other, otherRequest, otherDraft, now, input, key, applied, rest⟩
      exact ⟨other, otherRequest, otherDraft, now, input, key, List.mem_cons_of_mem _ applied, rest⟩
  · intro other call otherFound
    simp only [World.conclude, World.happen, World.release, World.setPhase,
      OrderedMap.get?_set] at otherFound
    split at otherFound
    · rename_i same
      rw [← Option.some.inj otherFound, same]
      refine ⟨List.mem_cons_of_mem _ fits.requested, ⟨now, key, passed, admitted⟩, ?_⟩
      exact ⟨id, request, draft, List.mem_cons_self, rfl, rfl⟩
    · rename_i different
      apply (sound.calls other call otherFound).mono le_rfl fun _ => List.mem_cons_of_mem _
      intro otherDraft operating
      exact absurd operating (sound.not_operating phase.1 different otherFound otherDraft)
  · exact fun now waiting => sound.cleanups now (List.mem_of_mem_tail waiting)
  · exact Or.inr ⟨id, request, response, List.mem_cons_self⟩

theorem Sound.conclude (sound : Sound sha256 options world) {id draft : ℕ}
    {request : MutationRequest} {input : AtomicMutationInput}
    (found : world.calls.get? id = some ⟨request, input, .operating draft⟩)
    (response : Option StoredResponse) :
    Sound sha256 options (world.conclude id ⟨request, input, .operating draft⟩ draft response) := by
  cases response with
  | some response => exact sound.apply response found
  | none =>
    have phase := (sound.calls _ _ found).phase
    have failed := sound.happen (.failed id request) ⟨draft, phase.2.2⟩ (by simp) (by simp)
    have released := failed.release .failed found phase.1 List.mem_cons_self
    exact ⟨released.chronicle, released.numbered, released.kept, released.recorded,
      released.calls, released.cleanups, released.lives⟩

theorem Sound.leave (sound : Sound sha256 options world) {id : ℕ} {request : MutationRequest}
    {input : AtomicMutationInput} {outcome : AtomicMutationOutcome}
    (found : world.calls.get? id = some ⟨request, input, .leaving outcome⟩) :
    Sound sha256 options (world.leave id ⟨request, input, .leaving outcome⟩ outcome) := by
  have fits := sound.calls _ _ found
  have phase := fits.phase
  have justified : Justified sha256 world.history (.answered id request outcome.result) := by
    cases outcome with
    | executed response => exact ⟨fits.requested, phase⟩
    | replayed response => exact ⟨fits.requested, phase⟩
    | conflict => exact ⟨fits.requested, Or.inl rfl⟩
    | expired => exact ⟨fits.requested, Or.inr (Or.inl rfl)⟩
    | failed => exact ⟨fits.requested, Or.inr (Or.inr (Or.inr (Or.inl phase)))⟩
  have dropped := (sound.happen _ justified (by simp) (by simp)).drop id
  exact ⟨dropped.chronicle, dropped.numbered, dropped.kept, dropped.recorded, dropped.calls,
    dropped.cleanups, dropped.lives⟩

theorem Sound.sweep (sound : Sound sha256 options world) {now : Instant} {rest : List Waiter}
    (first : world.transactions = .cleanup now :: rest) :
    Sound sha256 options { world with
      records := world.records.filter fun _ record => ¬Date.reaches (some now) record.expiresAt
      transactions := rest } where
  chronicle := sound.chronicle
  numbered := sound.numbered
  kept := by
    intro id request draft response applied
    apply (sound.kept id request draft response applied).mono le_rfl
    intro _ input key record _ found
    have passed : now.time ≤ world.clock.time := sound.cleanups now (by simp [first])
    by_cases expired : Date.reaches (some now) record.expiresAt = true
    · exact Or.inr (Date.reaches_of_le passed expired)
    · left
      simp [OrderedMap.get?_filter, found, expired]
  recorded := by
    intro scope record found
    rw [OrderedMap.get?_filter, Option.filter_eq_some_iff] at found
    exact sound.recorded scope record found.1
  calls := by
    intro id call found
    apply (sound.calls id call found).mono le_rfl fun _ inHistory => inHistory
    intro draft operating
    have head := ((sound.calls id call found).operating operating).1
    rw [first] at head
    simp at head
  cleanups := fun now waiting => sound.cleanups now (first ▸ List.mem_cons_of_mem _ waiting)
  lives := sound.lives

theorem Sound.transition {after : World} (sound : Sound sha256 options world)
    (transition : Transition sha256 options world after) : Sound sha256 options after := by
  cases transition with
  | stay => exact sound
  | tick now later => exact sound.tick later
  | execute request => exact sound.execute request
  | enter id request input found =>
    exact (sound.setPhase .awaitingTransaction found trivial).push (by simp)
  | transact id request input found first => exact sound.transact found first
  | write draft change =>
    rw [World.write]
    split
    · exact ⟨sound.chronicle, sound.numbered, sound.kept, sound.recorded, sound.calls,
        sound.cleanups, sound.lives⟩
    · exact sound
  | conclude id request input draft found response => exact sound.conclude found response
  | leave id request input outcome found => exact sound.leave found
  | cleanup => exact sound.push (by simp)
  | sweep now rest first => exact sound.sweep first

theorem Sound.run (sound : Sound sha256 options world) (events : List Event) :
    Sound sha256 options (world.run sha256 options events) := by
  induction events generalizing world with
  | nil => exact sound
  | cons event rest later => exact later (sound.transition (transition_next _ _ world event))

theorem sound_run (clock : Instant) (tables : Tables) (events : List Event) :
    Sound sha256 options ((World.start clock tables).run sha256 options events) :=
  (sound_start clock tables).run events

end StudentHub.Idempotency
