import StudentHub.Login.Once

/-!
# Takeovers

A stable id that an identity is bound to is never replaced. When another one is presented the
identity is locked and its sessions are deleted, but a callback that has none to present, or
has presented its own before, does not look at the lock when it inserts its session.
-/

namespace StudentHub.Login

open Ecma JsString Concurrency Process

variable {host : LoginHost} {config : LoginConfig} {requests : List Request} {world : World}
variable {me : ℕ} {op : Op} {request : Request}

/-- From the moment that another stable id was presented until the identity is unlocked, no login
of the identity yields a session and its person has none. -/
def StopsTakeovers (host : LoginHost) (config : LoginConfig) (requests : List Request)
    (world : World) : Prop :=
  ∀ issuer subject later caller before,
    world.history = later ++ .presented caller issuer subject .mismatch :: before →
    .unlocked issuer subject ∉ later →
    ∃ personId, world.tables.personOf issuer subject = some personId ∧
      (∀ digest session, world.tables.sessions.get? digest = some session →
        session.personId ≠ personId) ∧
      ∀ inserter id personId', .inserted inserter id personId' ∈ later →
        personId' ≠ personId ∧
        ∀ subject', SignedIn host config requests world.history inserter subject' personId' →
          (config.issuer, subject') ≠ (issuer, subject)

/-- The caller has presented a stable id for the identity, and nobody another one since. -/
def Covered (me : ℕ) (issuer subject : JsString) (history : List Happening) : Prop :=
  ∃ later outcome before, history = later ++ .presented me issuer subject outcome :: before ∧
    ∀ caller, .presented caller issuer subject .mismatch ∉ later

/-- While an identity is locked, a session for its person is inserted by a callback only that has
presented a stable id for it and has not been overtaken by a mismatch. -/
def Careful (me : ℕ) (op : Op) (world : World) : Prop :=
  ∀ id personId issuer subject row, op = .putSession id personId →
    world.tables.identities.get? (issuer, subject) = some row → row.personId = personId →
    row.lockedAt.isSome → Covered me issuer subject world.history

def CarefulRun (host : LoginHost) (config : LoginConfig)
    (principals : OrderedMap JsString PrincipalRow) (events : List Event) : Prop :=
  ∀ before id given after op rest, events = before ++ .step id given :: after →
    (reach host config principals before).tasks[id]? = some (some (perform op rest)) →
    Careful id op (reach host config principals before).state

theorem Bound.not_locked {issuer subject : JsString} (bound : Bound me issuer subject world)
    (covered : Covered me issuer subject world.history) {row : IdentityRow}
    (isRow : world.tables.identities.get? (issuer, subject) = some row) :
    row.lockedAt.isSome = false := by
  rw [← Bool.not_eq_true]
  intro isLocked
  rcases bound with ⟨later, outcome, before, isHistory, unbound, overtaken⟩
  rcases covered with ⟨later', outcome', before', isHistory', notOvertaken⟩
  rcases overtaken row isRow isLocked with ⟨other, isOther⟩
  rw [isHistory, List.append_eq_append_iff] at isHistory'
  rcases isHistory' with ⟨between, isLater, -⟩ | ⟨between, isLater, isRest⟩
  · rw [isLater] at notOvertaken
    exact notOvertaken other (List.mem_append_left _ isOther)
  · cases between with
    | nil =>
      rw [List.append_nil] at isLater
      rw [isLater] at isOther
      exact notOvertaken other isOther
    | cons head between =>
      rw [List.cons_append, List.cons.injEq] at isRest
      apply unbound issuer subject outcome'
      rw [isLater, isRest.1]
      exact List.mem_append_right _ List.mem_cons_self

theorem Stage.unlocked {rest : Answer op → Routine} (persons : PersonsDistinct world.tables)
    (stage : Stage host config me request world (perform op rest)) (careful : Careful me op world)
    {id personId : JsString} (isOp : op = .putSession id personId) :
    Unlocked world.tables personId := by
  cases stage with
  | opening signIn sessionId person vouched isPerson covered noSession =>
    rw [Op.putSession.injEq] at isOp
    rcases isOp with ⟨rfl, rfl⟩
    rintro ⟨issuer, subject⟩ row isRow samePerson
    by_contra isLocked
    rw [Bool.not_eq_false] at isLocked
    have isCovered := careful sessionId person issuer subject row rfl isRow samePerson isLocked
    rw [Tables.personOf, Option.map_eq_some_iff] at isPerson
    rcases isPerson with ⟨own, isOwn, isPerson⟩
    have sameKey := persons.distinct _ _ own row isOwn isRow (by rw [isPerson, samePerson])
    rw [Prod.mk.injEq] at sameKey
    rcases sameKey with ⟨rfl, rfl⟩
    rcases covered with unbound | bound
    · rcases isCovered with ⟨later, outcome, before, isHistory, -⟩
      apply unbound config.issuer signIn.subject outcome
      rw [isHistory]
      exact List.mem_append_right _ List.mem_cons_self
    · have notLocked := bound.not_locked isCovered isRow
      rw [isLocked] at notLocked
      cases notLocked
  | ended process isEnd => cases isEnd
  | _ => cases isOp

def carefulProgress (host : LoginHost) (config : LoginConfig) :
    Progress (handle host.store) (serve host config) where
  Valid _ _ := True
  Permitted me _ op _ world := Careful me op world
  Global requests world :=
    Orderly host config requests world ∧ PersonsDistinct world.tables ∧ Guarded world
  Local me request process world := Stage host config me request world process
  begins _ request _ _ global :=
    ⟨⟨global.1.start request, global.2⟩, stage_serve global.1.ledger⟩
  advances _ me _ op _ given world isRequest global stage careful := by
    rcases global with ⟨orderly, persons, guarded⟩
    have effect := handle_effect host.store me op given world
    refine ⟨⟨orderly.effect (stage.entitled orderly isRequest) effect, persons.effect effect, ?_⟩,
      stage.advances⟩
    exact guarded.effect (fun _ _ isOp => stage.unlocked persons careful isOp) effect
  stays _ me _ op _ given world _ _ _ _ different _ _ _ there :=
    there.stays (Ne.symm different) (handle_effect host.store me op given world)

def IsBoundTo (issuer subject stableUserId : JsString) (world : World) : Prop :=
  ∃ row, world.tables.identities.get? (issuer, subject) = some row ∧
    row.stableUserId = some stableUserId

theorem IsBoundTo.effect {store : LoginStore} {after : World}
    {issuer subject stableUserId : JsString} (isBound : IsBoundTo issuer subject stableUserId world)
    (effect : Effect store me world op after) : IsBoundTo issuer subject stableUserId after := by
  rcases isBound with ⟨row, isRow, isBound⟩
  have step := effect.row issuer subject
  rw [isRow] at step
  generalize isAfter : after.tables.identities.get? (issuer, subject) = later at step
  cases step with
  | same => exact ⟨row, isAfter, isBound⟩
  | bound old other now grown => exact ⟨_, isAfter, by rw [IdentityRow.bind, isBound]; rfl⟩
  | unlocked old grown => exact ⟨_, isAfter, isBound⟩

theorem stopsTakeovers_of_careful {principals : OrderedMap JsString PrincipalRow}
    {events : List Event} (careful : CarefulRun host config principals events) :
    StopsTakeovers host config (startedBy events) (reach host config principals events).state := by
  have holds : (carefulProgress host config).Holds (startedBy events)
      (reach host config principals events) := by
    apply Progress.holds_run (show (carefulProgress host config).Global [] _ from ?_)
    · intro _ _ _ _
      exact trivial
    · rintro before event after isEvents id given request op rest rfl - found
      exact careful before id given after op rest isEvents found
    · refine ⟨orderly_initial principals, ⟨?_, ?_⟩, ?_⟩
      · simp [OrderedMap.get?_empty]
      · simp [OrderedMap.get?_empty]
      · intro issuer subject later caller before isHistory
        simp at isHistory
  rcases holds.global with ⟨orderly, -, guarded⟩
  intro issuer subject later caller before isHistory notUnlocked
  rcases guarded issuer subject later caller before isHistory notUnlocked with
    ⟨row, isRow, -, noSession, notInserted⟩
  have isPerson : (reach host config principals events).state.tables.personOf issuer subject =
      some row.personId := by
    rw [Tables.personOf, isRow]
    rfl
  refine ⟨row.personId, isPerson, noSession, ?_⟩
  intro inserter id personId' inserted
  have different : personId' ≠ row.personId := by
    rintro rfl
    exact notInserted inserter id inserted
  refine ⟨different, ?_⟩
  intro subject' signedIn same
  have created := (orderly.identities.persons _ _ _).mp (orderly.created_of_signedIn signedIn)
  rw [Prod.mk.injEq] at same
  rw [same.1, same.2, isPerson] at created
  exact different (Option.some.inj created).symm

/-- The stable id of an identity stays, and in a careful run takeovers are stopped. -/
theorem takeovers_stopped (host : LoginHost) (config : LoginConfig)
    (principals : OrderedMap JsString PrincipalRow) (events : List Event) :
    (∀ before after issuer subject stableUserId, events = before ++ after →
      IsBoundTo issuer subject stableUserId (reach host config principals before).state →
      IsBoundTo issuer subject stableUserId (reach host config principals events).state) ∧
    (CarefulRun host config principals events →
      StopsTakeovers host config (startedBy events)
        (reach host config principals events).state) := by
  refine ⟨?_, stopsTakeovers_of_careful⟩
  rintro before after issuer subject stableUserId rfl isBound
  have preserved : ∀ me op given world, IsBoundTo issuer subject stableUserId world →
      IsBoundTo issuer subject stableUserId (handle host.store me op given world).2 :=
    fun me op given world isBound => isBound.effect (handle_effect host.store me op given world)
  rw [reach, TaskWorld.run, List.foldl_append]
  exact TaskWorld.lasts preserved after isBound

def boundClaims : JsValue :=
  .object [(js "iss", .string (js "i")), (js "aud", .string (js "c")),
    (js "exp", .number (.ofNat 9)), (js "iat", .number (.ofNat 1)), (js "nonce", .string (js "n")),
    (js "sub", .string (js "s")), (js "uid", .string (js "stable_id_1"))]

/-- Tokens with and without the stable id. -/
def boundHost : LoginHost where
  store := { storedToken := id }
  decodePart part :=
    if part = js "q" then some boundClaims else sampleHost.decodePart part
  verify := sampleHost.verify

def foundBy (first : ℕ) (state idToken : JsString) : List Event :=
  [.start (.start (js "b") (js "/") state (js "n") (js "v")), .step first {},
    .start (.callback (js "b") state (js "code") state), .step (first + 1) {},
    .step (first + 1) { idToken := some idToken },
    .step (first + 1) { key := some (.boolean true), now := 5 }, .step (first + 1) {}]

/-- The identity is made and bound, and then another stable id is presented for it. -/
def mismatchRun : List Event :=
  foundBy 0 (js "t") (js "h.q.z") ++ [.step 1 { uuid := js "u" }, .step 1 {},
    .start (.bindStableId (js "i") (js "s") (js "stable_id_2")), .step 2 {}]

/-- The callback that was matched before the mismatch inserts its session after it. -/
def overtakenRun : List Event := mismatchRun ++ [.step 1 {}]

def withoutIdRun : List Event := mismatchRun ++ foundBy 3 (js "t'") (js "h.p.z") ++ [.step 4 {}]

def laterRecord : LoginState := ⟨js "b", js "t'", js "n", js "v", js "/"⟩

theorem not_stops_of_inserted {issuer subject id personId : JsString} {caller inserter : ℕ}
    {later before : List Happening}
    (isHistory : world.history = later ++ .presented caller issuer subject .mismatch :: before)
    (notUnlocked : .unlocked issuer subject ∉ later)
    (isPerson : world.tables.personOf issuer subject = some personId)
    (inserted : .inserted inserter id personId ∈ later) :
    ¬StopsTakeovers host config requests world := by
  intro stops
  rcases stops issuer subject later caller before isHistory notUnlocked with
    ⟨person, isPerson', -, different⟩
  rw [isPerson, Option.some.injEq] at isPerson'
  exact (different inserter id personId inserted).1 isPerson'

theorem takeovers_not_stopped :
    ¬StopsTakeovers boundHost sampleConfig (startedBy overtakenRun)
        (reach boundHost sampleConfig .empty overtakenRun).state ∧
      ¬StopsTakeovers boundHost sampleConfig (startedBy withoutIdRun)
        (reach boundHost sampleConfig .empty withoutIdRun).state := by
  refine ⟨?_, ?_⟩
  · have isHistory : (reach boundHost sampleConfig .empty overtakenRun).state.history =
        [.inserted 1 (js "t") (js "u")] ++ .presented 2 (js "i") (js "s") .mismatch ::
          (reach boundHost sampleConfig .empty overtakenRun).state.history.drop 2 := by
      rfl
    exact not_stops_of_inserted isHistory (by simp) (show _ = some (js "u") by rfl)
      List.mem_cons_self
  · have isHistory : (reach boundHost sampleConfig .empty withoutIdRun).state.history =
        [.inserted 4 (js "t'") (js "u"), .resolved 4 (js "k") (.boolean true) 5,
          .exchanged 4 (tokenRequest sampleConfig laterRecord (js "code")) (some (js "h.p.z")),
          .consumed 4 laterRecord, .stored 3 laterRecord] ++
          .presented 2 (js "i") (js "s") .mismatch ::
          (reach boundHost sampleConfig .empty withoutIdRun).state.history.drop 6 := by
      rfl
    exact not_stops_of_inserted isHistory (by simp) (show _ = some (js "u") by rfl)
      List.mem_cons_self

def opensAt (host : LoginHost) (config : LoginConfig) (principals : OrderedMap JsString PrincipalRow)
    (events : List Event) (n : ℕ) : Bool :=
  match events[n]? with
  | some (.step id _) =>
      match (reach host config principals (events.take n)).tasks[id]? with
      | some (some (perform (.putSession _ _) _)) => true
      | _ => false
  | _ => false

theorem careful_of_not_opens {principals : OrderedMap JsString PrincipalRow} {events : List Event}
    (noneOpens : ∀ n < events.length, opensAt host config principals events n = false) :
    CarefulRun host config principals events := by
  rintro before id given after op rest rfl found sessionId personId issuer subject row rfl
  have notOpens := noneOpens before.length (by simp)
  simp [opensAt, found] at notOpens

theorem takeovers_stopped_sample : StopsTakeovers boundHost sampleConfig (startedBy mismatchRun)
    (reach boundHost sampleConfig .empty mismatchRun).state := by
  apply (takeovers_stopped boundHost sampleConfig .empty mismatchRun).2
  exact careful_of_not_opens (by decide +kernel)

end StudentHub.Login
