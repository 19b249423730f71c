import StudentHub.Login.Ledger
import StudentHub.Login.Locking

/-!
# How far a request has come

A callback gets from one operation to the next by what it was answered, and so it knows of
every stage what has been done before it. Others cannot undo it.
-/

namespace StudentHub.Login

open Ecma JsString Concurrency Process

variable {host : LoginHost} {config : LoginConfig} {store : LoginStore} {me : ℕ}
variable {requests : List Request} {world after : World} {op : Op} {signIn : SignIn}
variable {request : Request}

inductive Ended : Routine → Prop
  | returned (response : Response) : Ended (returned response)
  | thrown (error : Unit) : Ended (thrown error)

structure Fresh (me : ℕ) (history : List Happening) : Prop where
  unbound : Unbound me history
  noSession : ∀ id personId, .inserted me id personId ∉ history

inductive Stage (host : LoginHost) (config : LoginConfig) (me : ℕ) (request : Request)
    (world : World) : Routine → Prop
  | storing (record : LoginState) (next : Option Unit → Routine)
      (isStart : request.record = some record) (ends : ∀ answer, Ended (next answer))
      (new : ∀ record, .stored me record ∉ world.history) :
      Stage host config me request world (perform (.putState record) next)
  | consuming (browserSessionId state code sessionId : JsString)
      (isCallback : request = .callback browserSessionId state code sessionId)
      (new : ∀ exchange idToken, .exchanged me exchange idToken ∉ world.history)
      (fresh : Fresh me world.history) :
      Stage host config me request world
        (perform (.consumeState state) (afterConsuming host config browserSessionId code sessionId))
  | exchanging (record : LoginState) (code sessionId : JsString)
      (isCallback : request = .callback record.browserSessionId record.state code sessionId)
      (consumed : .consumed me record ∈ world.history)
      (new : ∀ exchange idToken, .exchanged me exchange idToken ∉ world.history)
      (fresh : Fresh me world.history) :
      Stage host config me request world (perform (.exchange (tokenRequest config record code))
        (afterExchange host config record sessionId))
  | resolving (record : LoginState) (code sessionId idToken : JsString) (opened : OpenedToken)
      (isCallback : request = .callback record.browserSessionId record.state code sessionId)
      (consumed : .consumed me record ∈ world.history)
      (exchanged : .exchanged me (tokenRequest config record code) (some idToken) ∈ world.history)
      (isOpened : openToken host idToken = some opened)
      (fresh : Fresh me world.history) :
      Stage host config me request world
        (perform (.resolveKey opened.kid) (afterKey host config record sessionId opened))
  | finding (signIn : SignIn) (sessionId : JsString)
      (vouched : Vouched host config me request signIn world.history)
      (fresh : Fresh me world.history) :
      Stage host config me request world (perform (.findIdentity config.issuer signIn.subject)
        (afterFinding config signIn sessionId))
  | creating (signIn : SignIn) (sessionId : JsString) (profile : ClaimedProfile)
      (vouched : Vouched host config me request signIn world.history)
      (fresh : Fresh me world.history) :
      Stage host config me request world
        (perform (.createIdentity config.issuer signIn.subject profile)
          (afterCreating config signIn sessionId))
  | binding (signIn : SignIn) (sessionId personId stableUserId : JsString)
      (vouched : Vouched host config me request signIn world.history)
      (isPerson : world.tables.personOf config.issuer signIn.subject = some personId)
      (fresh : Fresh me world.history) :
      Stage host config me request world
        (perform (.bindStableId config.issuer signIn.subject stableUserId)
          (afterBinding signIn sessionId personId))
  | opening (signIn : SignIn) (sessionId personId : JsString)
      (vouched : Vouched host config me request signIn world.history)
      (isPerson : world.tables.personOf config.issuer signIn.subject = some personId)
      (covered : Unbound me world.history ∨ Bound me config.issuer signIn.subject world)
      (noSession : ∀ id personId, .inserted me id personId ∉ world.history) :
      Stage host config me request world (openSession signIn sessionId personId)
  | presenting (issuer subject stableUserId : JsString) (next : Option StableIdOutcome → Routine)
      (ends : ∀ answer, Ended (next answer)) :
      Stage host config me request world
        (perform (.bindStableId issuer subject stableUserId) next)
  | unlocking (issuer subject : JsString) (next : Option Bool → Routine)
      (ends : ∀ answer, Ended (next answer)) :
      Stage host config me request world (perform (.unlockIdentity issuer subject) next)
  | ended (process : Routine) (isEnd : Ended process) : Stage host config me request world process

theorem Vouched.effect (vouched : Vouched host config me request signIn world.history)
    {caller : ℕ} (effect : Effect store caller world op after) :
    Vouched host config me request signIn after.history := by
  rcases vouched with ⟨code, sessionId, idToken, opened, jwk, now, isRequest, consumed, exchanged,
    resolved, facts⟩
  exact ⟨code, sessionId, idToken, opened, jwk, now, isRequest, effect.mem_history consumed,
    effect.mem_history exchanged, effect.mem_history resolved, facts⟩

def Op.Opens (op : Op) : Prop := ∃ id personId, op = .putSession id personId

def Op.Binds (op : Op) : Prop :=
  ∃ issuer subject stableUserId, op = .bindStableId issuer subject stableUserId

theorem noSession_effect {caller : ℕ} (noSession : ∀ id personId, .inserted me id personId ∉ world.history)
    (notThis : caller ≠ me ∨ ¬op.Opens) (effect : Effect store caller world op after) :
    ∀ id personId, .inserted me id personId ∉ after.history := by
  intro id personId happened
  rcases effect.old_or_new happened with older | isOf
  · exact noSession id personId older
  · rcases notThis with different | notOpens
    · exact different isOf.1.symm
    · exact notOpens ⟨id, personId, isOf.2⟩

theorem Fresh.effect {caller : ℕ} (fresh : Fresh me world.history)
    (notThis : caller ≠ me ∨ ¬op.Opens ∧ ¬op.Binds) (effect : Effect store caller world op after) :
    Fresh me after.history := by
  refine ⟨?_, noSession_effect fresh.noSession (notThis.imp_right And.left) effect⟩
  intro issuer subject outcome happened
  rcases effect.old_or_new happened with older | ⟨isCaller, stableUserId, isOp⟩
  · exact fresh.unbound issuer subject outcome older
  · rcases notThis with different | ⟨-, notBinds⟩
    · exact different isCaller.symm
    · exact notBinds ⟨issuer, subject, stableUserId, isOp⟩

theorem Stage.stays {process : Routine} {caller : ℕ}
    (stage : Stage host config me request world process) (different : caller ≠ me)
    (effect : Effect store caller world op after) :
    Stage host config me request after process := by
  have keepsFresh (fresh : Fresh me world.history) : Fresh me after.history :=
    fresh.effect (.inl different) effect
  have keepsNew (new : ∀ exchange idToken, .exchanged me exchange idToken ∉ world.history) :
      ∀ exchange idToken, .exchanged me exchange idToken ∉ after.history := by
    intro exchange idToken happened
    rcases effect.old_or_new happened with older | isOf
    · exact new exchange idToken older
    · exact different isOf.1.symm
  cases stage with
  | storing record next isStart ends new =>
    apply Stage.storing record next isStart ends
    intro other happened
    rcases effect.old_or_new happened with older | isOf
    · exact new other older
    · exact different isOf.1.symm
  | consuming browserSessionId state code sessionId isCallback new fresh =>
    exact .consuming browserSessionId state code sessionId isCallback (keepsNew new)
      (keepsFresh fresh)
  | exchanging record code sessionId isCallback consumed new fresh =>
    exact .exchanging record code sessionId isCallback (effect.mem_history consumed) (keepsNew new)
      (keepsFresh fresh)
  | resolving record code sessionId idToken opened isCallback consumed exchanged isOpened fresh =>
    exact .resolving record code sessionId idToken opened isCallback (effect.mem_history consumed)
      (effect.mem_history exchanged) isOpened (keepsFresh fresh)
  | finding signIn sessionId vouched fresh =>
    exact .finding signIn sessionId (vouched.effect effect) (keepsFresh fresh)
  | creating signIn sessionId profile vouched fresh =>
    exact .creating signIn sessionId profile (vouched.effect effect) (keepsFresh fresh)
  | binding signIn sessionId personId stableUserId vouched isPerson fresh =>
    exact .binding signIn sessionId personId stableUserId (vouched.effect effect)
      (effect.personOf isPerson) (keepsFresh fresh)
  | opening signIn sessionId personId vouched isPerson covered noSession =>
    apply Stage.opening signIn sessionId personId (vouched.effect effect)
      (effect.personOf isPerson)
    · rcases covered with unbound | bound
      · exact .inl (keepsFresh ⟨unbound, noSession⟩).unbound
      · exact .inr (bound.effect different effect)
    · exact noSession_effect noSession (.inl different) effect
  | presenting issuer subject stableUserId next ends =>
    exact .presenting issuer subject stableUserId next ends
  | unlocking issuer subject next ends => exact .unlocking issuer subject next ends
  | ended process isEnd => exact .ended process isEnd

theorem stage_serve (ledger : Ledger host config requests world.history) :
    Stage host config requests.length request world (serve host config request) := by
  have unknown : ∀ found, requests[requests.length]? ≠ some found := by
    intro found isFound
    rw [List.getElem?_eq_none (Nat.le_refl _)] at isFound
    cases isFound
  cases request with
  | start browserSessionId returnTo state nonce codeVerifier =>
    rw [serve]
    split_ifs
    · apply Stage.storing _ _ rfl
      · rintro (_ | ⟨⟩)
        · exact .thrown ()
        · exact .returned _
      · intro record happened
        rcases ledger.stored _ record happened with ⟨found, isFound, -⟩
        exact unknown found isFound
    · exact .ended _ (.returned _)
  | callback browserSessionId state code sessionId =>
    refine .consuming browserSessionId state code sessionId rfl ?_ ⟨?_, ?_⟩
    · intro exchange idToken happened
      rcases ledger.exchanged _ exchange idToken happened with ⟨record, consumed⟩
      rcases ledger.consumed _ record consumed with ⟨found, isFound, -⟩
      exact unknown found isFound
    · intro issuer subject outcome happened
      rcases ledger.presented _ issuer subject outcome happened with ⟨found, isFound⟩
      exact unknown found isFound
    · intro id personId happened
      rcases ledger.inserted _ id personId happened with ⟨found, signIn, isFound, -⟩
      exact unknown found isFound
  | bindStableId issuer subject stableUserId =>
    apply Stage.presenting
    rintro (_ | outcome)
    · exact .thrown ()
    · exact .returned _
  | unlockIdentity issuer subject =>
    apply Stage.unlocking
    rintro (_ | outcome)
    · exact .thrown ()
    · exact .returned _

section Answers

variable {record : LoginState} {code sessionId idToken personId : JsString}

theorem stage_withIdentity (vouched : Vouched host config me request signIn world.history)
    (isPerson : world.tables.personOf config.issuer signIn.subject = some personId)
    (fresh : Fresh me world.history) :
    Stage host config me request world (withIdentity config signIn sessionId personId) := by
  rw [withIdentity]
  split
  case h_1 => exact .opening signIn sessionId personId vouched isPerson (.inl fresh.unbound) fresh.noSession
  case h_2 stableUserId _ =>
    exact .binding signIn sessionId personId stableUserId vouched isPerson fresh

theorem stage_afterConsuming {browserSessionId state : JsString}
    {answer : Option (Option LoginState)}
    (isCallback : request = .callback browserSessionId state code sessionId)
    (consumed : ∀ record, answer = some (some record) →
      .consumed me record ∈ world.history ∧ record.state = state)
    (new : ∀ exchange idToken, .exchanged me exchange idToken ∉ world.history)
    (fresh : Fresh me world.history) :
    Stage host config me request world
      (afterConsuming host config browserSessionId code sessionId answer) := by
  rcases answer with _ | _ | record
  · exact .ended _ (.returned _)
  · exact .ended _ (.returned _)
  · rcases consumed record rfl with ⟨isConsumed, rfl⟩
    simp only [afterConsuming]
    split_ifs with sameBrowser
    · exact .ended _ (.returned _)
    · rw [ne_eq, not_not] at sameBrowser
      subst sameBrowser
      exact .exchanging record code sessionId isCallback isConsumed new fresh

theorem stage_afterExchange {answer : Option JsString}
    (isCallback : request = .callback record.browserSessionId record.state code sessionId)
    (consumed : .consumed me record ∈ world.history)
    (exchanged : .exchanged me (tokenRequest config record code) answer ∈ world.history)
    (fresh : Fresh me world.history) :
    Stage host config me request world (afterExchange host config record sessionId answer) := by
  unfold afterExchange
  split
  case h_1 => exact .ended _ (.returned _)
  case h_2 opened isOpened =>
    rw [Option.bind_eq_some_iff] at isOpened
    rcases isOpened with ⟨idToken, rfl, isOpened⟩
    exact .resolving record code sessionId idToken opened isCallback consumed exchanged isOpened
      fresh

theorem stage_afterKey {opened : OpenedToken} {answer : Option (JsValue × ℤ)}
    (isCallback : request = .callback record.browserSessionId record.state code sessionId)
    (consumed : .consumed me record ∈ world.history)
    (exchanged : .exchanged me (tokenRequest config record code) (some idToken) ∈ world.history)
    (isOpened : openToken host idToken = some opened)
    (resolved : ∀ jwk now, answer = some (jwk, now) →
      .resolved me opened.kid jwk now ∈ world.history)
    (fresh : Fresh me world.history) :
    Stage host config me request world (afterKey host config record sessionId opened answer) := by
  rcases answer with _ | ⟨jwk, now⟩
  · exact .ended _ (.returned _)
  · simp only [afterKey]
    split
    case h_1 => exact .ended _ (.returned _)
    case h_2 signIn isLogin =>
      rw [Option.bind_eq_some_iff] at isLogin
      rcases isLogin with ⟨subject, accepted, isSignIn⟩
      have facts : signIn.record = record ∧ signIn.subject = subject := by
        simp only [loginOf] at isSignIn
        split_ifs at isSignIn
        rcases Option.map_eq_some_iff.mp isSignIn with ⟨stableUserId, -, rfl⟩
        exact ⟨rfl, rfl⟩
      rcases facts with ⟨rfl, rfl⟩
      exact .finding signIn sessionId ⟨code, sessionId, idToken, opened, jwk, now, isCallback,
        consumed, exchanged, resolved jwk now rfl, isOpened, accepted, isSignIn⟩ fresh

theorem stage_afterFinding {answer : Option (Option JsString)}
    (vouched : Vouched host config me request signIn world.history)
    (isPerson : ∀ personId, answer = some (some personId) →
      world.tables.personOf config.issuer signIn.subject = some personId)
    (fresh : Fresh me world.history) :
    Stage host config me request world (afterFinding config signIn sessionId answer) := by
  rcases answer with _ | _ | personId
  · exact .ended _ (.returned _)
  · exact .creating signIn sessionId _ vouched fresh
  · exact stage_withIdentity vouched (isPerson personId rfl) fresh

theorem stage_afterCreating {answer : Option JsString}
    (vouched : Vouched host config me request signIn world.history)
    (isPerson : ∀ personId, answer = some personId →
      world.tables.personOf config.issuer signIn.subject = some personId)
    (fresh : Fresh me world.history) :
    Stage host config me request world (afterCreating config signIn sessionId answer) := by
  rcases answer with _ | personId
  · exact .ended _ (.returned _)
  · exact stage_withIdentity vouched (isPerson personId rfl) fresh

theorem stage_afterBinding {answer : Option StableIdOutcome}
    (vouched : Vouched host config me request signIn world.history)
    (isPerson : world.tables.personOf config.issuer signIn.subject = some personId)
    (bound : ∀ outcome, answer = some outcome → outcome = .bound ∨ outcome = .matched →
      Bound me config.issuer signIn.subject world)
    (noSession : ∀ id personId, .inserted me id personId ∉ world.history) :
    Stage host config me request world (afterBinding signIn sessionId personId answer) := by
  have opens (bound : Bound me config.issuer signIn.subject world) :=
    Stage.opening signIn sessionId personId vouched isPerson (.inr bound) noSession
  rcases answer with _ | _ | _ | _ | _
  · exact .ended _ (.returned _)
  · exact opens (bound .bound rfl (.inl rfl))
  · exact opens (bound .matched rfl (.inr rfl))
  · exact .ended _ (.returned _)
  · exact .ended _ (.returned _)

end Answers

structure Orderly (host : LoginHost) (config : LoginConfig) (requests : List Request)
    (world : World) : Prop where
  ledger : Ledger host config requests world.history
  identities : IdentitiesOrderly world
  states : DistinctTokens host.store requests → StatesOrderly host.store world

theorem Stage.entitled {rest : Answer op → Routine} (orderly : Orderly host config requests world)
    (isRequest : requests[me]? = some request)
    (stage : Stage host config me request world (perform op rest)) :
    Entitled host config requests me world.history op ∧
      (DistinctTokens host.store requests → StoresNew host.store world op) := by
  cases stage with
  | storing record next isStart ends new =>
    refine ⟨⟨request, isRequest, isStart⟩, ?_⟩
    intro distinct caller other isStored same
    rcases orderly.ledger.stored caller other isStored with ⟨starter, isStarter, isRecord⟩
    rw [distinct.starts isStarter isRequest isRecord isStart same] at isStored
    exact new other isStored
  | consuming browserSessionId state code sessionId isCallback new fresh =>
    refine ⟨⟨request, isRequest, ?_⟩, fun _ => trivial⟩
    rw [isCallback]
    rfl
  | exchanging record code sessionId isCallback consumed new fresh =>
    exact ⟨⟨⟨record, consumed⟩, new⟩, fun _ => trivial⟩
  | opening signIn sessionId personId vouched isPerson covered noSession =>
    refine ⟨⟨⟨request, signIn, isRequest, vouched, ?_⟩, noSession⟩, fun _ => trivial⟩
    exact (orderly.identities.persons _ _ _).mpr isPerson
  | resolving | finding | creating | unlocking => exact ⟨trivial, fun _ => trivial⟩
  | binding | presenting => exact ⟨⟨request, isRequest⟩, fun _ => trivial⟩
  | ended process isEnd => cases isEnd

theorem Stage.advances {given : Given} {rest : Answer op → Routine}
    (stage : Stage host config me request world (perform op rest)) :
    Stage host config me request (handle host.store me op given world).2
      (rest (handle host.store me op given world).1) := by
  have effect := handle_effect host.store me op given world
  have keepsFresh (fresh : Fresh me world.history) (notThis : ¬op.Opens ∧ ¬op.Binds) :=
    fresh.effect (.inr notThis) effect
  cases stage with
  | storing record next isStart ends new => exact .ended _ (ends _)
  | consuming browserSessionId state code sessionId isCallback new fresh =>
    apply stage_afterConsuming isCallback
    · intro record answered
      exact consumed_of_answer answered
    · intro exchange idToken happened
      rcases effect.old_or_new happened with older | ⟨-, ⟨⟩⟩
      exact new exchange idToken older
    · exact keepsFresh fresh (by simp [Op.Opens, Op.Binds])
  | exchanging record code sessionId isCallback consumed new fresh =>
    apply stage_afterExchange isCallback (effect.mem_history consumed)
    · exact List.mem_cons_self
    · exact keepsFresh fresh (by simp [Op.Opens, Op.Binds])
  | resolving record code sessionId idToken opened isCallback consumed exchanged isOpened fresh =>
    apply stage_afterKey isCallback (effect.mem_history consumed) (effect.mem_history exchanged)
      isOpened
    · intro jwk now answered
      rcases Option.map_eq_some_iff.mp answered with ⟨key, isKey, isPair⟩
      rw [Prod.mk.injEq] at isPair
      simp only [handle, isKey, noted, isPair.1, isPair.2]
      exact List.mem_cons_self
    · exact keepsFresh fresh (by simp [Op.Opens, Op.Binds])
  | finding signIn sessionId vouched fresh =>
    apply stage_afterFinding (vouched.effect effect)
    · intro personId answered
      exact personOf_of_found answered
    · exact keepsFresh fresh (by simp [Op.Opens, Op.Binds])
  | creating signIn sessionId profile vouched fresh =>
    apply stage_afterCreating (vouched.effect effect)
    · intro personId answered
      exact personOf_of_created answered
    · exact keepsFresh fresh (by simp [Op.Opens, Op.Binds])
  | binding signIn sessionId personId stableUserId vouched isPerson fresh =>
    apply stage_afterBinding (vouched.effect effect) (effect.personOf isPerson)
    · intro outcome answered isFine
      exact bound_of_answer answered isFine
    · exact noSession_effect fresh.noSession (.inr (by simp [Op.Opens])) effect
  | opening signIn sessionId personId vouched isPerson covered noSession =>
    apply Stage.ended
    dsimp only
    split
    · exact .returned _
    · exact .returned _
  | presenting issuer subject stableUserId next ends => exact .ended _ (ends _)
  | unlocking issuer subject next ends => exact .ended _ (ends _)
  | ended process isEnd => cases isEnd

theorem Orderly.start (orderly : Orderly host config requests world) (request : Request) :
    Orderly host config (requests ++ [request]) world := by
  refine ⟨orderly.ledger.start request, orderly.identities, ?_⟩
  intro distinct
  exact orderly.states distinct.of_append

theorem Orderly.effect (orderly : Orderly host config requests world)
    (entitled : Entitled host config requests me world.history op ∧
      (DistinctTokens host.store requests → StoresNew host.store world op))
    (effect : Effect host.store me world op after) : Orderly host config requests after := by
  refine ⟨orderly.ledger.effect entitled.1 effect, orderly.identities.effect effect, ?_⟩
  intro distinct
  exact (orderly.states distinct).effect (entitled.2 distinct) effect

/-- Every request gets on by steps of its own, which keep the tables and the ledger in order. -/
def progress (host : LoginHost) (config : LoginConfig) :
    Progress (handle host.store) (serve host config) where
  Valid _ _ := True
  Permitted _ _ _ _ _ := True
  Global requests world := Orderly host config requests world
  Local me request process world := Stage host config me request world process
  begins _ request _ _ orderly := ⟨orderly.start request, stage_serve orderly.ledger⟩
  advances _ me _ op _ given world isRequest orderly stage _ :=
    ⟨orderly.effect (stage.entitled orderly isRequest) (handle_effect host.store me op given world),
      stage.advances⟩
  stays _ me _ op _ given world _ _ _ _ different _ _ _ there :=
    there.stays (Ne.symm different) (handle_effect host.store me op given world)

end StudentHub.Login
