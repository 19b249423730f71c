import StudentHub.Concurrency.Progress
import StudentHub.Ecma.Objects

/-!
# Logging in

A login is started with a state, a nonce and a verifier, and ends with a callback that takes
the state back, exchanges its code, checks the ID token and opens a session. Requests come in
any order at any number of gateways, and each can be overtaken by others where it awaits.
-/

/-!
## The login tables

Login states, sessions, principals and external identities, with what the calls of the
login store do to them. A call is one statement or one transaction, so it takes effect as a
whole. Times are those of the clock of the database; tokens are stored by their digests.
-/

namespace StudentHub.Login

open Ecma JsString

structure LoginState where
  browserSessionId : JsString
  state : JsString
  nonce : JsString
  codeVerifier : JsString
  returnTo : JsString
  deriving DecidableEq

/-- A row of `login_states`; its key is the digest of the state. -/
structure StateRow where
  browserSessionId : JsString
  nonce : JsString
  codeVerifier : JsString
  returnTo : JsString
  expiresAt : ℤ

/-- A row of `login_sessions`; its key is the digest of the session's id. -/
structure SessionRow where
  personId : JsString
  expiresAt : ℤ

/-- A row of `external_identities`; an identity with a time of locking is locked. -/
structure IdentityRow where
  personId : JsString
  stableUserId : Option JsString
  lockedAt : Option ℤ
  deriving DecidableEq

structure PrincipalRow where
  displayName : JsValue
  email : JsValue

structure ClaimedProfile where
  email : JsValue
  name : JsValue

inductive StableIdOutcome
  | bound
  | matched
  | mismatch
  | locked
  deriving DecidableEq

structure LoginStore where
  storedToken : JsString → JsString
  stateTtlSeconds : ℕ := 600
  sessionTtlSeconds : ℕ := 43200

structure Tables where
  states : OrderedMap JsString StateRow := .empty
  sessions : OrderedMap JsString SessionRow := .empty
  principals : OrderedMap JsString PrincipalRow := .empty
  identities : OrderedMap (JsString × JsString) IdentityRow := .empty

namespace LoginStore

/-- Expired states are deleted; a state that is there already makes the insertion fail. -/
def putState (store : LoginStore) (record : LoginState) (now : ℤ) (tables : Tables) :
    Option Unit × Tables :=
  if tables.states.has (store.storedToken record.state) then
    (none, tables)
  else
    let alive := tables.states.filter fun _ row => now < row.expiresAt
    (some (), { tables with
      states := alive.set (store.storedToken record.state)
        ⟨record.browserSessionId, record.nonce, record.codeVerifier, record.returnTo,
          now + store.stateTtlSeconds⟩ })

/-- `DELETE ... RETURNING`: an expired state is deleted too, but not used. -/
def consumeState (store : LoginStore) (state : JsString) (now : ℤ) (tables : Tables) :
    Option LoginState × Tables :=
  let valid := (tables.states.get? (store.storedToken state)).filter fun row => now < row.expiresAt
  (valid.map fun row => ⟨row.browserSessionId, state, row.nonce, row.codeVerifier, row.returnTo⟩,
    { tables with states := tables.states.delete (store.storedToken state) })

def putSession (store : LoginStore) (id personId : JsString) (now : ℤ) (tables : Tables) :
    Option Unit × Tables :=
  if tables.sessions.has (store.storedToken id) || !tables.principals.has personId then
    (none, tables)
  else
    let alive := tables.sessions.filter fun _ row => now < row.expiresAt
    (some (), { tables with
      sessions := alive.set (store.storedToken id) ⟨personId, now + store.sessionTtlSeconds⟩ })

end LoginStore

def findIdentity (issuer subject : JsString) (tables : Tables) : Option JsString :=
  (tables.identities.get? (issuer, subject)).map IdentityRow.personId

/-- The value of a column for `value ?? null`. -/
def orNull (value : JsValue) : JsValue := value.orElse .null

/-- The identity of the pair, which is made together with its principal if it is not there. -/
def createIdentity (issuer subject : JsString) (profile : ClaimedProfile) (uuid : JsString)
    (tables : Tables) : Option JsString × Tables :=
  match tables.identities.get? (issuer, subject) with
  | some found => (some found.personId, tables)
  | none =>
      if tables.principals.has uuid then
        (none, tables)
      else
        (some uuid, { tables with
          principals := tables.principals.set uuid ⟨orNull profile.name, orNull profile.email⟩
          identities := tables.identities.set (issuer, subject) ⟨uuid, none, none⟩ })

def IdentityRow.outcome (row : IdentityRow) (stableUserId : JsString) : StableIdOutcome :=
  if row.lockedAt.isSome then .locked
  else
    match row.stableUserId with
    | none => .bound
    | some known => if known = stableUserId then .matched else .mismatch

def IdentityRow.bind (row : IdentityRow) (stableUserId : JsString) (now : ℤ) : IdentityRow where
  personId := row.personId
  stableUserId := some (row.stableUserId.getD stableUserId)
  lockedAt := if row.outcome stableUserId = .mismatch then some now else row.lockedAt

def bindStableId (issuer subject stableUserId : JsString) (now : ℤ) (tables : Tables) :
    Option StableIdOutcome × Tables :=
  match tables.identities.get? (issuer, subject) with
  | none => (none, tables)
  | some row =>
      let outcome := row.outcome stableUserId
      (some outcome, { tables with
        identities := tables.identities.set (issuer, subject) (row.bind stableUserId now)
        sessions := if outcome = .mismatch then
          tables.sessions.filter fun _ session => session.personId ≠ row.personId
        else
          tables.sessions })

def unlockIdentity (issuer subject : JsString) (tables : Tables) : Bool × Tables :=
  match tables.identities.get? (issuer, subject) with
  | none => (false, tables)
  | some row =>
      if row.lockedAt.isSome then
        (true, { tables with
          identities := tables.identities.set (issuer, subject) { row with lockedAt := none } })
      else
        (false, tables)

end StudentHub.Login

namespace StudentHub.Login

open Ecma JsString Concurrency Process

structure LoginConfig where
  issuer : JsString
  clientId : JsString
  clientSecret : JsString
  callbackUrl : JsString
  allowedReturnUrls : List JsString
  clockSkewSeconds : ℤ
  subjectPolicy : JsString → Bool

/-- The login store, and the decoders and signatures of the runtime; what throws answers nothing. -/
structure LoginHost where
  store : LoginStore
  /-- `JSON.parse` of the base64url text. -/
  decodePart : JsString → Option JsValue
  verify : JsString → JsString → JsString → JsValue → Option Bool

structure AuthorizationRequest where
  issuer : JsString
  clientId : JsString
  redirectUri : JsString
  state : JsString
  nonce : JsString
  codeChallenge : JsString
  deriving DecidableEq

structure TokenRequest where
  code : JsString
  clientId : JsString
  clientSecret : JsString
  redirectUri : JsString
  codeVerifier : JsString
  deriving DecidableEq

structure OpenedToken where
  alg : JsString
  kid : JsString
  headerWire : JsString
  claimsWire : JsString
  signatureWire : JsString
  claims : JsValue

def text? : JsValue → Option JsString
  | .string text => some text
  | _ => none

def openToken (host : LoginHost) (idToken : JsString) : Option OpenedToken :=
  match idToken.splitOn 46 with
  | [headerWire, claimsWire, signatureWire] => do
      let header ← host.decodePart headerWire
      let alg ← text? (header.get (js "alg"))
      let kid ← text? (header.get (js "kid"))
      let claims ← host.decodePart claimsWire
      return ⟨alg, kid, headerWire, claimsWire, signatureWire, claims⟩
  | _ => none

def verifySignature (host : LoginHost) (opened : OpenedToken) (jwk : JsValue) : Bool :=
  opened.alg ∈ [js "EdDSA", js "RS256", js "ES256"] &&
  decide (host.verify opened.alg (opened.headerWire ++ 46 :: opened.claimsWire)
    opened.signatureWire jwk = some true)

def signatureValid (host : LoginHost) (opened : OpenedToken) (jwk : JsValue) : Bool :=
  jwk.truthy &&
  (!(jwk.get (js "alg")).isDefined || (jwk.get (js "alg")).isText opened.alg) &&
  (!(jwk.get (js "use")).isDefined || (jwk.get (js "use")).isText (js "sig")) &&
  verifySignature host opened jwk

def audienceValid (config : LoginConfig) (claims : JsValue) : Bool :=
  match claims.get (js "aud") with
  | .string audience => audience = config.clientId
  | .array [.string audience] => audience = config.clientId
  | _ => false

/-- `Number.isFinite(value)`, and the number is in order. -/
def finiteThat (value : JsValue) (fits : FiniteNumber → Bool) : Bool :=
  match value with
  | .number (.finite number) => fits number
  | _ => false

def acceptedSubject (host : LoginHost) (config : LoginConfig) (nonce : JsString)
    (opened : OpenedToken) (jwk : JsValue) (now : ℤ) : Option JsString :=
  let claims := opened.claims
  if signatureValid host opened jwk &&
      (claims.get (js "iss")).isText config.issuer && audienceValid config claims &&
      finiteThat (claims.get (js "exp")) (fun exp => !exp.below (now - config.clockSkewSeconds)) &&
      finiteThat (claims.get (js "iat")) (fun iat => iat.atMost (now + config.clockSkewSeconds)) &&
      (claims.get (js "nonce")).isText nonce then
    (text? (claims.get (js "sub"))).filter (· ≠ [])
  else
    none

/-- `/^[A-Za-z0-9_-]{8,128}$/` -/
def isStableUserId (text : JsString) : Bool :=
  8 ≤ text.length && text.length ≤ 128 &&
    text.all fun unit => isLetter unit || isDigit unit || unit = 95 || unit = 45

def optionalStableId (value : JsValue) : Option (Option JsString) :=
  match value with
  | .undefined => some none
  | .string text => if isStableUserId text then some (some text) else none
  | _ => none

def stableUserIdFrom (claims : JsValue) : Option (Option JsString) := do
  let hashed ← optionalStableId (claims.get (js "hashed_user_id"))
  let uid ← optionalStableId (claims.get (js "uid"))
  match hashed, uid with
  | some left, some right => if left = right then some (some left) else none
  | some left, none => some (some left)
  | none, uid => some uid

/-- What the gateways are asked for. The tokens that a request draws are given with it. -/
inductive Request
  | start (browserSessionId returnTo state nonce codeVerifier : JsString)
  | callback (browserSessionId state code sessionId : JsString)
  | bindStableId (issuer subject stableUserId : JsString)
  | unlockIdentity (issuer subject : JsString)
  deriving DecidableEq

inductive Response
  | rejected
  | redirect (request : AuthorizationRequest)
  | signedIn (returnTo sessionId : JsString)
  | stableId (outcome : StableIdOutcome)
  | unlocked (wasLocked : Bool)
  deriving DecidableEq

inductive Op
  | putState (record : LoginState)
  | consumeState (state : JsString)
  | exchange (request : TokenRequest)
  | resolveKey (kid : JsString)
  | findIdentity (issuer subject : JsString)
  | createIdentity (issuer subject : JsString) (profile : ClaimedProfile)
  | bindStableId (issuer subject stableUserId : JsString)
  | putSession (id personId : JsString)
  | unlockIdentity (issuer subject : JsString)

/-- What it gets; what rejects answers nothing. The clock is read when a key has come. -/
def Answer : Op → Type
  | .putState _ => Option Unit
  | .consumeState _ => Option (Option LoginState)
  | .exchange _ => Option JsString
  | .resolveKey _ => Option (JsValue × ℤ)
  | .findIdentity _ _ => Option (Option JsString)
  | .createIdentity _ _ _ => Option JsString
  | .bindStableId _ _ _ => Option StableIdOutcome
  | .putSession _ _ => Option Unit
  | .unlockIdentity _ _ => Option Bool

abbrev Routine := Process Answer Unit Response

structure SignIn where
  record : LoginState
  claims : JsValue
  subject : JsString
  stableUserId : Option JsString

def openSession (login : SignIn) (sessionId personId : JsString) : Routine :=
  perform (.putSession sessionId personId) fun answer : Option Unit =>
    match answer with
    | none => returned .rejected
    | some () => returned (.signedIn login.record.returnTo sessionId)

def afterBinding (login : SignIn) (sessionId personId : JsString)
    (answer : Option StableIdOutcome) : Routine :=
  match answer with
  | some .bound | some .matched => openSession login sessionId personId
  | _ => returned .rejected

def withIdentity (config : LoginConfig) (login : SignIn) (sessionId personId : JsString) : Routine :=
  match login.stableUserId with
  | none => openSession login sessionId personId
  | some stableUserId =>
      perform (.bindStableId config.issuer login.subject stableUserId)
        (afterBinding login sessionId personId)

def afterCreating (config : LoginConfig) (login : SignIn) (sessionId : JsString)
    (answer : Option JsString) : Routine :=
  match answer with
  | none => returned .rejected
  | some personId => withIdentity config login sessionId personId

def profileOf (claims : JsValue) : ClaimedProfile :=
  ⟨claims.get (js "email"), claims.get (js "name")⟩

def afterFinding (config : LoginConfig) (login : SignIn) (sessionId : JsString)
    (answer : Option (Option JsString)) : Routine :=
  match answer with
  | none => returned .rejected
  | some (some personId) => withIdentity config login sessionId personId
  | some none =>
      perform (.createIdentity config.issuer login.subject (profileOf login.claims))
        (afterCreating config login sessionId)

def loginOf (config : LoginConfig) (record : LoginState) (claims : JsValue) (subject : JsString) :
    Option SignIn :=
  if config.subjectPolicy subject then
    (stableUserIdFrom claims).map fun stableUserId => ⟨record, claims, subject, stableUserId⟩
  else
    none

def afterKey (host : LoginHost) (config : LoginConfig) (record : LoginState)
    (sessionId : JsString) (opened : OpenedToken) (answer : Option (JsValue × ℤ)) : Routine :=
  match answer with
  | none => returned .rejected
  | some (jwk, now) =>
      match (acceptedSubject host config record.nonce opened jwk now).bind
          (loginOf config record opened.claims) with
      | none => returned .rejected
      | some login =>
          perform (.findIdentity config.issuer login.subject)
            (afterFinding config login sessionId)

def afterExchange (host : LoginHost) (config : LoginConfig) (record : LoginState)
    (sessionId : JsString) (answer : Option JsString) : Routine :=
  match answer.bind (openToken host) with
  | none => returned .rejected
  | some opened => perform (.resolveKey opened.kid) (afterKey host config record sessionId opened)

def tokenRequest (config : LoginConfig) (record : LoginState) (code : JsString) : TokenRequest :=
  ⟨code, config.clientId, config.clientSecret, config.callbackUrl, record.codeVerifier⟩

def afterConsuming (host : LoginHost) (config : LoginConfig)
    (browserSessionId code sessionId : JsString) (answer : Option (Option LoginState)) : Routine :=
  match answer with
  | some (some record) =>
      if record.browserSessionId ≠ browserSessionId then
        returned .rejected
      else
        perform (.exchange (tokenRequest config record code))
          (afterExchange host config record sessionId)
  | _ => returned .rejected

/-- A request with the tokens it draws; `start` has no `catch`. -/
def serve (host : LoginHost) (config : LoginConfig) : Request → Routine
  | .start browserSessionId returnTo state nonce codeVerifier =>
      if returnTo ∉ config.allowedReturnUrls then
        returned .rejected
      else
        perform (.putState ⟨browserSessionId, state, nonce, codeVerifier, returnTo⟩)
          fun answer : Option Unit =>
            match answer with
            | none => thrown ()
            | some () => returned (.redirect ⟨config.issuer, config.clientId, config.callbackUrl,
                state, nonce, host.store.storedToken codeVerifier⟩)
  | .callback browserSessionId state code sessionId =>
      perform (.consumeState state) (afterConsuming host config browserSessionId code sessionId)
  | .bindStableId issuer subject stableUserId =>
      perform (.bindStableId issuer subject stableUserId) fun answer : Option StableIdOutcome =>
        match answer with
        | none => thrown ()
        | some outcome => returned (.stableId outcome)
  | .unlockIdentity issuer subject =>
      perform (.unlockIdentity issuer subject) fun answer : Option Bool =>
        match answer with
        | none => thrown ()
        | some wasLocked => returned (.unlocked wasLocked)

/-- A call of the store is done, has no effect, or takes effect and is not acknowledged. -/
inductive Fate
  | done
  | refused
  | lost
  deriving DecidableEq

structure Given where
  fate : Fate := .done
  databaseNow : ℤ := 0
  idToken : Option JsString := none
  key : Option JsValue := none
  now : ℤ := 0
  uuid : JsString := []

inductive Happening
  | stored (caller : ℕ) (record : LoginState)
  | consumed (caller : ℕ) (record : LoginState)
  | exchanged (caller : ℕ) (request : TokenRequest) (idToken : Option JsString)
  | resolved (caller : ℕ) (kid : JsString) (key : JsValue) (now : ℤ)
  | created (issuer subject personId : JsString)
  | presented (caller : ℕ) (issuer subject : JsString) (outcome : StableIdOutcome)
  | unlocked (issuer subject : JsString)
  | inserted (caller : ℕ) (id personId : JsString)

structure World where
  tables : Tables := {}
  history : List Happening := []

def World.call {Result : Type} (world : World) (fate : Fate) (result : Option Result × Tables)
    (happenings : Option Result → List Happening) : Option Result × World :=
  match fate with
  | .done => (result.1, ⟨result.2, happenings result.1 ++ world.history⟩)
  | .lost => (none, ⟨result.2, happenings result.1 ++ world.history⟩)
  | .refused => (none, world)

def noted {Result : Type} (happening : Result → Happening) : Option Result → List Happening
  | some result => [happening result]
  | none => []

/-- The identity is there or has been made; only what was made has happened now. -/
def createdNow (issuer subject : JsString) (tables : Tables) : Option JsString → List Happening
  | some personId =>
      if (tables.identities.get? (issuer, subject)).isSome then []
      else [.created issuer subject personId]
  | none => []

def handle (store : LoginStore) : Handler Answer Given World
  | me, .putState record, given, world =>
      world.call given.fate (store.putState record given.databaseNow world.tables)
        (noted fun _ => .stored me record)
  | me, .consumeState state, given, world =>
      let (record, tables) := store.consumeState state given.databaseNow world.tables
      world.call given.fate (some record, tables) fun _ => noted (.consumed me) record
  | me, .exchange request, given, world =>
      (given.idToken, { world with
        history := .exchanged me request given.idToken :: world.history })
  | me, .resolveKey kid, given, world =>
      (given.key.map fun key => (key, given.now), { world with
        history := noted (fun key => .resolved me kid key given.now) given.key ++ world.history })
  | _, .findIdentity issuer subject, given, world =>
      world.call given.fate (some (findIdentity issuer subject world.tables), world.tables)
        fun _ => []
  | _, .createIdentity issuer subject profile, given, world =>
      world.call given.fate (createIdentity issuer subject profile given.uuid world.tables)
        (createdNow issuer subject world.tables)
  | me, .bindStableId issuer subject stableUserId, given, world =>
      world.call given.fate
        (bindStableId issuer subject stableUserId given.databaseNow world.tables)
        (noted (.presented me issuer subject))
  | me, .putSession id personId, given, world =>
      world.call given.fate (store.putSession id personId given.databaseNow world.tables)
        (noted fun _ => .inserted me id personId)
  | _, .unlockIdentity issuer subject, given, world =>
      let (wasLocked, tables) := unlockIdentity issuer subject world.tables
      world.call given.fate (some wasLocked, tables) fun _ => [.unlocked issuer subject]

abbrev Event := TaskEvent Request Given

def reach (host : LoginHost) (config : LoginConfig) (principals : OrderedMap JsString PrincipalRow)
    (events : List Event) : TaskWorld Answer Unit Response World :=
  (TaskWorld.initial ⟨{ principals := principals }, []⟩).run (handle host.store) (serve host config)
    events

end StudentHub.Login
