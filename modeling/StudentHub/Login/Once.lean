import StudentHub.Login.Stages

/-!
# One login for each state

A state leads to one exchange and one session at most. The session is opened for the browser
that has started the login and for the person that the ID token names, and an identity gets
its person once.
-/

namespace StudentHub.Login

open Ecma JsString Concurrency Process

variable {host : LoginHost} {config : LoginConfig} {requests : List Request} {world : World}
variable {history : List Happening}

structure Authentic (host : LoginHost) (config : LoginConfig) (nonce subject : JsString)
    (opened : OpenedToken) (jwk : JsValue) (now : ℤ) : Prop where
  algorithm : opened.alg ∈ [js "EdDSA", js "RS256", js "ES256"]
  signature : host.verify opened.alg (opened.headerWire ++ 46 :: opened.claimsWire)
    opened.signatureWire jwk = some true
  issuer : opened.claims.get (js "iss") = .string config.issuer
  audience : opened.claims.get (js "aud") = .string config.clientId ∨
    opened.claims.get (js "aud") = .array [.string config.clientId]
  expires : ∃ exp, opened.claims.get (js "exp") = .number (.finite exp) ∧
    exp.below (now - config.clockSkewSeconds) = false
  issued : ∃ iat, opened.claims.get (js "iat") = .number (.finite iat) ∧
    iat.atMost (now + config.clockSkewSeconds) = true
  nonce : opened.claims.get (js "nonce") = .string nonce
  subject : opened.claims.get (js "sub") = .string subject

/-- The caller got a session of the person with an authentic ID token of the subject, for the
login that its own browser has started. -/
structure SignedIn (host : LoginHost) (config : LoginConfig) (requests : List Request)
    (history : List Happening) (caller : ℕ) (subject personId : JsString) : Prop where
  session : ∃ id, .inserted caller id personId ∈ history
  login : ∃ record code sessionId idToken opened jwk now,
    requests[caller]? = some (.callback record.browserSessionId record.state code sessionId) ∧
    .start record.browserSessionId record.returnTo record.state record.nonce record.codeVerifier ∈
      requests ∧
    .exchanged caller (tokenRequest config record code) (some idToken) ∈ history ∧
    openToken host idToken = some opened ∧ .resolved caller opened.kid jwk now ∈ history ∧
    Authentic host config record.nonce subject opened jwk now

def presents (requests : List Request) (state : JsString) (caller : ℕ) : Bool :=
  requests[caller]?.any fun request => request.presented = some state

namespace Happening

def isExchangeFor (requests : List Request) (state : JsString) : Happening → Bool
  | .exchanged caller _ _ => presents requests state caller
  | _ => false

def isSessionFor (requests : List Request) (state : JsString) : Happening → Bool
  | .inserted caller _ _ => presents requests state caller
  | _ => false

end Happening

theorem eq_finite_of_finiteThat {value : JsValue} {fits : FiniteNumber → Bool}
    (isFinite : finiteThat value fits = true) :
    ∃ number, value = .number (.finite number) ∧ fits number = true := by
  unfold finiteThat at isFinite
  split at isFinite
  · exact ⟨_, rfl, isFinite⟩
  · cases isFinite

theorem authentic_of_accepted {nonce subject : JsString} {opened : OpenedToken} {jwk : JsValue}
    {now : ℤ} (accepted : acceptedSubject host config nonce opened jwk now = some subject) :
    Authentic host config nonce subject opened jwk now := by
  simp only [acceptedSubject] at accepted
  split_ifs at accepted with checks
  simp only [Bool.and_eq_true, signatureValid, verifySignature, JsValue.isText_iff,
    decide_eq_true_eq] at checks
  rcases checks with ⟨⟨⟨⟨⟨signed, issuer⟩, audience⟩, expires⟩, issued⟩, nonce⟩
  rw [Option.filter_eq_some_iff] at accepted
  refine ⟨signed.2.1, signed.2.2, issuer, ?_, ?_, eq_finite_of_finiteThat issued, nonce, ?_⟩
  · unfold audienceValid at audience
    split at audience
    case h_1 audience' isAudience =>
      rw [decide_eq_true_eq] at audience
      exact .inl (by rw [isAudience, audience])
    case h_2 audience' isAudience =>
      rw [decide_eq_true_eq] at audience
      exact .inr (by rw [isAudience, audience])
    case h_3 => cases audience
  · simpa using eq_finite_of_finiteThat expires
  · have isText := accepted.1
    unfold text? at isText
    split at isText
    case h_1 text found => rw [found, Option.some.inj isText]
    case h_2 => cases isText

theorem eq_of_countP_le_one {kind : Happening → Bool} {first second : Happening}
    (once : history.countP kind ≤ 1) (isFirst : first ∈ history) (isSecond : second ∈ history)
    (firstKind : kind first = true) (secondKind : kind second = true) : first = second := by
  rw [List.countP_eq_length_filter] at once
  have memFirst : first ∈ history.filter kind := List.mem_filter.mpr ⟨isFirst, firstKind⟩
  have memSecond : second ∈ history.filter kind := List.mem_filter.mpr ⟨isSecond, secondKind⟩
  cases isList : history.filter kind with
  | nil =>
    rw [isList] at memFirst
    cases memFirst
  | cons head tail =>
    rw [isList, List.length_cons] at once
    have isNil : tail = [] := List.length_eq_zero_iff.mp (by omega)
    rw [isList, isNil, List.mem_singleton] at memFirst memSecond
    rw [memFirst, memSecond]

theorem countP_le_one_of_caller {kind : Happening → Bool} {of : ℕ → Happening → Bool}
    {Taken : ℕ → Prop} (once : ∀ caller, history.countP (of caller) ≤ 1)
    (owned : ∀ happening ∈ history, kind happening = true →
      ∃ caller, of caller happening = true ∧ Taken caller)
    (unique : ∀ caller other, Taken caller → Taken other → caller = other) :
    history.countP kind ≤ 1 := by
  by_cases present : ∃ happening ∈ history, kind happening = true
  · rcases present with ⟨happening, happened, isKind⟩
    rcases owned happening happened isKind with ⟨caller, -, taken⟩
    apply Nat.le_trans _ (once caller)
    apply List.countP_mono_left
    intro another isAnother isKind'
    rcases owned another isAnother isKind' with ⟨caller', isOf, taken'⟩
    rw [unique caller caller' taken taken']
    exact isOf
  · push Not at present
    rw [List.countP_eq_zero.mpr]
    · omega
    · intro happening happened
      rw [Bool.not_eq_true]
      simpa using present happening happened

theorem orderly_initial (principals : OrderedMap JsString PrincipalRow) :
    Orderly host config [] ⟨{ principals := principals }, []⟩ := by
  refine ⟨⟨?_, ?_, ?_, ?_, ?_, ?_, ?_⟩, ⟨?_, ?_⟩, fun _ => ⟨?_, ?_, ?_⟩⟩
  all_goals simp [OrderedMap.get?_empty, Tables.personOf]

theorem holds_reach (host : LoginHost) (config : LoginConfig)
    (principals : OrderedMap JsString PrincipalRow) (events : List Event) :
    (progress host config).Holds (startedBy events) (reach host config principals events) := by
  apply Progress.holds_run (show (progress host config).Global [] _ from orderly_initial _)
  · intro _ _ _ _
    exact trivial
  · intro before event after _ id given request op rest _ _ _
    exact trivial

theorem Orderly.presents (orderly : Orderly host config requests world) {caller : ℕ}
    {record : LoginState} {state : JsString} (consumed : .consumed caller record ∈ world.history)
    (isPresented : presents requests state caller = true) : record.state = state := by
  rcases orderly.ledger.consumed caller record consumed with ⟨request, isRequest, isState⟩
  simp only [Login.presents, isRequest, Option.any_some, decide_eq_true_eq] at isPresented
  rw [isPresented] at isState
  exact (Option.some.inj isState).symm

theorem Orderly.countP_state (orderly : Orderly host config requests world)
    (distinct : DistinctTokens host.store requests) (state : JsString) :
    world.history.countP (·.isExchangeFor requests state) ≤ 1 ∧
      world.history.countP (·.isSessionFor requests state) ≤ 1 := by
  let Taken (caller : ℕ) : Prop :=
    ∃ record, .consumed caller record ∈ world.history ∧ record.state = state
  have unique : ∀ caller other, Taken caller → Taken other → caller = other := by
    rintro caller other ⟨record, consumed, isState⟩ ⟨record', consumed', isState'⟩
    exact (orderly.states distinct).once caller record other record' consumed consumed' (by rw [isState, isState'])
  refine ⟨?_, ?_⟩
  · apply countP_le_one_of_caller orderly.ledger.exchangedOnce _ unique
    intro happening happened isKind
    cases happening with
    | exchanged caller exchange idToken =>
      rcases orderly.ledger.exchanged caller exchange idToken happened with ⟨record, consumed⟩
      refine ⟨caller, ?_, record, consumed, orderly.presents consumed isKind⟩
      simp [Happening.isExchangeOf]
    | _ => cases isKind
  · apply countP_le_one_of_caller orderly.ledger.insertedOnce _ unique
    intro happening happened isKind
    cases happening with
    | inserted caller id personId =>
      rcases orderly.ledger.inserted caller id personId happened with
        ⟨request, signIn, isRequest, vouched, -⟩
      rcases vouched with ⟨code, sessionId, idToken, opened, jwk, now, -, consumed, -⟩
      refine ⟨caller, ?_, signIn.record, consumed, orderly.presents consumed isKind⟩
      simp [Happening.isSessionOf]
    | _ => cases isKind

theorem Orderly.started (orderly : Orderly host config requests world)
    (distinct : DistinctTokens host.store requests) {caller : ℕ} {record : LoginState}
    (consumed : .consumed caller record ∈ world.history) :
    .start record.browserSessionId record.returnTo record.state record.nonce record.codeVerifier ∈
      requests := by
  rcases (orderly.states distinct).source caller record consumed with
    ⟨starter, original, isStored, sameDigest, isRecord⟩
  rcases orderly.ledger.stored starter original isStored with ⟨request, isRequest, isOriginal⟩
  rcases orderly.ledger.consumed caller record consumed with ⟨callback, isCallback, isPresented⟩
  have isStart : request = .start original.browserSessionId original.returnTo original.state
      original.nonce original.codeVerifier := by
    cases request <;> cases isOriginal
    rfl
  have sameState : original.state = record.state := by
    apply distinct.digests _ _ _ _ sameDigest
    · apply List.mem_flatMap.mpr
      exact ⟨request, List.mem_of_getElem? isRequest, Request.mem_states_of_record isOriginal⟩
    · apply List.mem_flatMap.mpr
      exact ⟨callback, List.mem_of_getElem? isCallback,
        Request.mem_states_of_presented isPresented⟩
  have same : record = original := by
    rw [isRecord, ← sameState]
  rw [same, ← isStart]
  exact List.mem_of_getElem? isRequest

theorem Orderly.signedIn (orderly : Orderly host config requests world)
    (distinct : DistinctTokens host.store requests) {caller : ℕ} {id personId : JsString}
    (inserted : .inserted caller id personId ∈ world.history) :
    ∃ subject, SignedIn host config requests world.history caller subject personId := by
  rcases orderly.ledger.inserted caller id personId inserted with
    ⟨request, signIn, isRequest, vouched, -⟩
  rcases vouched with ⟨code, sessionId, idToken, opened, jwk, now, rfl, consumed, exchanged,
    resolved, isOpened, accepted, -⟩
  exact ⟨signIn.subject, ⟨id, inserted⟩, signIn.record, code, sessionId, idToken, opened, jwk, now,
    isRequest, orderly.started distinct consumed, exchanged, isOpened, resolved,
    authentic_of_accepted accepted⟩

theorem Orderly.created_of_signedIn (orderly : Orderly host config requests world) {caller : ℕ}
    {subject personId : JsString}
    (signedIn : SignedIn host config requests world.history caller subject personId) :
    .created config.issuer subject personId ∈ world.history := by
  rcases signedIn.session with ⟨id, inserted⟩
  rcases signedIn.login with ⟨record, code, sessionId, idToken, opened, jwk, now, -, -, exchanged,
    isOpened, -, authentic⟩
  rcases orderly.ledger.inserted caller id personId inserted with
    ⟨request, signIn, isRequest, vouched, created⟩
  rcases vouched with ⟨code', sessionId', idToken', opened', jwk', now', -, -, exchanged', -,
    isOpened', accepted, -⟩
  have sameToken := eq_of_countP_le_one (orderly.ledger.exchangedOnce caller) exchanged exchanged'
    (by simp [Happening.isExchangeOf]) (by simp [Happening.isExchangeOf])
  rw [Happening.exchanged.injEq, Option.some.injEq] at sameToken
  rw [sameToken.2.2, isOpened'] at isOpened
  have subject' := (authentic_of_accepted accepted).subject
  rw [Option.some.inj isOpened, authentic.subject, JsValue.string.injEq] at subject'
  rw [subject']
  exact created

/-- However the requests are interleaved, a state leads to one exchange and one session at most,
a session is opened for the browser and the nonce of the login that was started with its state,
and all sessions of a subject are of the one person that was created for it. -/
theorem one_login (host : LoginHost) (config : LoginConfig)
    (principals : OrderedMap JsString PrincipalRow) (events : List Event)
    (distinct : DistinctTokens host.store (startedBy events)) :
    let requests := startedBy events
    let history := (reach host config principals events).state.history
    (∀ state, history.countP (·.isExchangeFor requests state) ≤ 1 ∧
      history.countP (·.isSessionFor requests state) ≤ 1) ∧
    (∀ caller id personId, .inserted caller id personId ∈ history →
      ∃ subject, SignedIn host config requests history caller subject personId) ∧
    (∀ caller other subject personId personId',
      SignedIn host config requests history caller subject personId →
      SignedIn host config requests history other subject personId' →
      personId = personId' ∧ history.countP (·.isCreationOf config.issuer subject) = 1) ∧
    ∀ issuer subject, history.countP (·.isCreationOf issuer subject) ≤ 1 := by
  intro requests history
  have orderly : Orderly host config requests (reach host config principals events).state :=
    (holds_reach host config principals events).global
  refine ⟨orderly.countP_state distinct, ?_, ?_, orderly.identities.once⟩
  · intro caller id personId inserted
    exact orderly.signedIn distinct inserted
  · intro caller other subject personId personId' signedIn signedIn'
    have created := orderly.created_of_signedIn signedIn
    have created' := orderly.created_of_signedIn signedIn'
    have same := eq_of_countP_le_one (orderly.identities.once config.issuer subject) created created'
      (by simp [Happening.isCreationOf]) (by simp [Happening.isCreationOf])
    rw [Happening.created.injEq] at same
    refine ⟨same.2.2, Nat.le_antisymm (orderly.identities.once config.issuer subject) ?_⟩
    apply List.countP_pos_iff.mpr
    exact ⟨_, created, by simp [Happening.isCreationOf]⟩

def sampleClaims : JsValue :=
  .object [(js "iss", .string (js "i")), (js "aud", .string (js "c")),
    (js "exp", .number (.ofNat 9)), (js "iat", .number (.ofNat 1)), (js "nonce", .string (js "n")),
    (js "sub", .string (js "s"))]

def sampleHost : LoginHost where
  store := { storedToken := id }
  decodePart part :=
    if part = js "h" then some (.object [(js "alg", .string (js "RS256")), (js "kid", .string (js "k"))])
    else if part = js "p" then some sampleClaims
    else none
  verify _ _ signature _ := some (signature = js "z")

def sampleConfig : LoginConfig :=
  ⟨js "i", js "c", js "secret", js "cb", [js "/"], 0, fun _ => true⟩

/-- Two callbacks present one state in parallel, and one of them signs in. -/
def sampleRun : List Event :=
  [.start (.start (js "b") (js "/") (js "t") (js "n") (js "v")), .step 0 {},
    .start (.callback (js "b") (js "t") (js "code") (js "x")),
    .start (.callback (js "b") (js "t") (js "code") (js "y")),
    .step 2 {}, .step 1 {}, .step 2 { idToken := some (js "h.p.z") },
    .step 2 { key := some (.boolean true), now := 5 }, .step 2 {}, .step 2 { uuid := js "u" },
    .step 2 {}]

theorem one_login_sample : ∃ subject,
    SignedIn sampleHost sampleConfig (startedBy sampleRun)
      (reach sampleHost sampleConfig .empty sampleRun).state.history 2 subject (js "u") := by
  have distinct : DistinctTokens sampleHost.store (startedBy sampleRun) :=
    ⟨by decide, fun _ _ _ _ same => same⟩
  apply (one_login sampleHost sampleConfig .empty sampleRun distinct).2.1 2 (js "y")
  have last : (reach sampleHost sampleConfig .empty sampleRun).state.history.head? =
      some (.inserted 2 (js "y") (js "u")) := by rfl
  exact List.mem_of_mem_head? last

end StudentHub.Login
