import StudentHub.Login.Effects

/-!
# The ledger of the logins

A state waits in the table until it is consumed, an identity gets its person once, and the
requests do what they do at most once. An operation that a request is entitled to keeps this.
-/

namespace StudentHub.Login

open Ecma JsString Concurrency Process

namespace Request

def record : Request → Option LoginState
  | .start browserSessionId returnTo state nonce codeVerifier =>
      some ⟨browserSessionId, state, nonce, codeVerifier, returnTo⟩
  | _ => none

def presented : Request → Option JsString
  | .callback _ state _ _ => some state
  | _ => none

def states : Request → List JsString
  | .start _ _ state _ _ => [state]
  | .callback _ state _ _ => [state]
  | _ => []

end Request

/-- No state is drawn twice, and the states that occur have digests of their own. -/
structure DistinctTokens (store : LoginStore) (requests : List Request) : Prop where
  drawn : ((requests.filterMap Request.record).map LoginState.state).Nodup
  digests : ∀ first ∈ requests.flatMap Request.states, ∀ second ∈ requests.flatMap Request.states,
    store.storedToken first = store.storedToken second → first = second

namespace Happening

def isExchangeOf (caller : ℕ) : Happening → Bool
  | .exchanged other _ _ => other = caller
  | _ => false

def isSessionOf (caller : ℕ) : Happening → Bool
  | .inserted other _ _ => other = caller
  | _ => false

def isCreationOf (issuer subject : JsString) : Happening → Bool
  | .created issuer' subject' _ => issuer' = issuer ∧ subject' = subject
  | _ => false

end Happening

/-- The callback has taken its state back for the browser that has started the login, and the
ID token that it got for its code is accepted for the nonce of that login. -/
def Vouched (host : LoginHost) (config : LoginConfig) (me : ℕ) (request : Request)
    (signIn : SignIn) (history : List Happening) : Prop :=
  ∃ code sessionId idToken opened jwk now,
    request = .callback signIn.record.browserSessionId signIn.record.state code sessionId ∧
    .consumed me signIn.record ∈ history ∧
    .exchanged me (tokenRequest config signIn.record code) (some idToken) ∈ history ∧
    .resolved me opened.kid jwk now ∈ history ∧
    openToken host idToken = some opened ∧
    acceptedSubject host config signIn.record.nonce opened jwk now = some signIn.subject ∧
    loginOf config signIn.record opened.claims signIn.subject = some signIn

/-- The callers are requests that do such things, each once. -/
structure Ledger (host : LoginHost) (config : LoginConfig) (requests : List Request)
    (history : List Happening) : Prop where
  stored : ∀ caller record, .stored caller record ∈ history →
    ∃ request, requests[caller]? = some request ∧ request.record = some record
  consumed : ∀ caller record, .consumed caller record ∈ history →
    ∃ request, requests[caller]? = some request ∧ request.presented = some record.state
  exchanged : ∀ caller exchange idToken, .exchanged caller exchange idToken ∈ history →
    ∃ record, .consumed caller record ∈ history
  inserted : ∀ caller id personId, .inserted caller id personId ∈ history →
    ∃ request signIn, requests[caller]? = some request ∧
      Vouched host config caller request signIn history ∧
      .created config.issuer signIn.subject personId ∈ history
  presented : ∀ caller issuer subject outcome, .presented caller issuer subject outcome ∈ history →
    ∃ request, requests[caller]? = some request
  exchangedOnce : ∀ caller, history.countP (·.isExchangeOf caller) ≤ 1
  insertedOnce : ∀ caller, history.countP (·.isSessionOf caller) ≤ 1

def StateRow.Shows (row : StateRow) (record : LoginState) : Prop :=
  row.browserSessionId = record.browserSessionId ∧ row.nonce = record.nonce ∧
    row.codeVerifier = record.codeVerifier ∧ row.returnTo = record.returnTo

structure StatesOrderly (store : LoginStore) (world : World) : Prop where
  waiting : ∀ digest row, world.tables.states.get? digest = some row →
    ∃ caller record, .stored caller record ∈ world.history ∧
      store.storedToken record.state = digest ∧ row.Shows record ∧
      ∀ other consumed, .consumed other consumed ∈ world.history →
        store.storedToken consumed.state ≠ digest
  source : ∀ caller record, .consumed caller record ∈ world.history →
    ∃ starter original, .stored starter original ∈ world.history ∧
      store.storedToken original.state = store.storedToken record.state ∧
      record = { original with state := record.state }
  once : ∀ caller record other record', .consumed caller record ∈ world.history →
    .consumed other record' ∈ world.history →
    store.storedToken record.state = store.storedToken record'.state → caller = other

structure IdentitiesOrderly (world : World) : Prop where
  persons : ∀ issuer subject personId, .created issuer subject personId ∈ world.history ↔
    world.tables.personOf issuer subject = some personId
  once : ∀ issuer subject, world.history.countP (·.isCreationOf issuer subject) ≤ 1

variable {host : LoginHost} {config : LoginConfig} {store : LoginStore} {me : ℕ}
variable {requests : List Request} {world after : World} {op : Op} {signIn : SignIn}
variable {history : List Happening} {request : Request}

theorem Request.mem_states_of_record {record : LoginState} (isRecord : request.record = some record) :
    record.state ∈ request.states := by
  cases request <;> cases isRecord
  exact List.mem_singleton.mpr rfl

theorem Request.mem_states_of_presented {state : JsString}
    (isPresented : request.presented = some state) : state ∈ request.states := by
  cases request <;> cases isPresented
  exact List.mem_singleton.mpr rfl

theorem DistinctTokens.of_append {before later : List Request}
    (distinct : DistinctTokens store (before ++ later)) : DistinctTokens store before := by
  refine ⟨?_, ?_⟩
  · have drawn := distinct.drawn
    rw [List.filterMap_append, List.map_append] at drawn
    exact drawn.of_append_left
  · intro first isFirst second isSecond
    rw [List.mem_flatMap] at isFirst isSecond
    rcases isFirst with ⟨request, isRequest, hasFirst⟩
    rcases isSecond with ⟨request', isRequest', hasSecond⟩
    apply distinct.digests
    · exact List.mem_flatMap.mpr ⟨request, List.mem_append_left _ isRequest, hasFirst⟩
    · exact List.mem_flatMap.mpr ⟨request', List.mem_append_left _ isRequest', hasSecond⟩

theorem DistinctTokens.starts (distinct : DistinctTokens store requests) {i j : ℕ}
    {first second : Request} {record record' : LoginState} (isFirst : requests[i]? = some first)
    (isSecond : requests[j]? = some second) (hasRecord : first.record = some record)
    (hasRecord' : second.record = some record')
    (same : store.storedToken record.state = store.storedToken record'.state) : i = j := by
  have sameState : record.state = record'.state := by
    apply distinct.digests _ _ _ _ same
    · exact List.mem_flatMap.mpr ⟨first, List.mem_of_getElem? isFirst,
        Request.mem_states_of_record hasRecord⟩
    · exact List.mem_flatMap.mpr ⟨second, List.mem_of_getElem? isSecond,
        Request.mem_states_of_record hasRecord'⟩
  have drawn := distinct.drawn
  rw [List.Nodup, List.pairwise_map, List.pairwise_filterMap, List.pairwise_iff_getElem] at drawn
  rw [List.getElem?_eq_some_iff] at isFirst isSecond
  rcases isFirst with ⟨inside, rfl⟩
  rcases isSecond with ⟨inside', rfl⟩
  rcases Nat.lt_trichotomy i j with below | same | above
  · exact absurd sameState (drawn i j inside inside' below record hasRecord record' hasRecord')
  · exact same
  · exact absurd sameState.symm
      (drawn j i inside' inside above record' hasRecord' record hasRecord)

theorem Vouched.later (vouched : Vouched host config me request signIn history)
    (happening : Happening) : Vouched host config me request signIn (happening :: history) := by
  rcases vouched with ⟨code, sessionId, idToken, opened, jwk, now, isRequest, consumed, exchanged,
    resolved, facts⟩
  exact ⟨code, sessionId, idToken, opened, jwk, now, isRequest, List.mem_cons_of_mem _ consumed,
    List.mem_cons_of_mem _ exchanged, List.mem_cons_of_mem _ resolved, facts⟩

theorem StatesOrderly.congr (orderly : StatesOrderly store world)
    (sameTable : after.tables.states = world.tables.states)
    (sameStored : ∀ caller record, .stored caller record ∈ after.history ↔
      .stored caller record ∈ world.history)
    (sameConsumed : ∀ caller record, .consumed caller record ∈ after.history ↔
      .consumed caller record ∈ world.history) : StatesOrderly store after := by
  refine ⟨?_, ?_, ?_⟩
  · rw [sameTable]
    simp only [sameStored, sameConsumed]
    exact orderly.waiting
  · simp only [sameStored, sameConsumed]
    exact orderly.source
  · simp only [sameConsumed]
    exact orderly.once

def StoresNew (store : LoginStore) (world : World) : Op → Prop
  | .putState record => ∀ caller other, .stored caller other ∈ world.history →
      store.storedToken other.state ≠ store.storedToken record.state
  | _ => True

theorem StatesOrderly.effect (orderly : StatesOrderly store world)
    (storesNew : StoresNew store world op) (effect : Effect store me world op after) :
    StatesOrderly store after := by
  cases effect with
  | none => exact orderly
  | stored record now absent =>
    rw [LoginStore.putState, if_neg (by rw [absent]; decide)]
    refine ⟨?_, ?_, ?_⟩
    · intro digest row found
      simp only [OrderedMap.get?_set] at found
      split_ifs at found with same
      · rw [← Option.some.inj found]
        refine ⟨me, record, List.mem_cons_self, same.symm, ⟨rfl, rfl, rfl, rfl⟩, ?_⟩
        intro other consumed isConsumed
        rcases orderly.source other consumed (by simpa using isConsumed) with
          ⟨starter, original, isStored, sameDigest, -⟩
        rw [same, ← sameDigest]
        exact storesNew starter original isStored
      · rw [OrderedMap.get?_filter, Option.filter_eq_some_iff] at found
        rcases orderly.waiting digest row found.1 with ⟨caller, stored, isStored, facts⟩
        exact ⟨caller, stored, List.mem_cons_of_mem _ isStored, by simpa using facts⟩
    · intro caller consumed isConsumed
      rcases orderly.source caller consumed (by simpa using isConsumed) with
        ⟨starter, original, isStored, facts⟩
      exact ⟨starter, original, List.mem_cons_of_mem _ isStored, facts⟩
    · simpa using orderly.once
  | consumed state now record found =>
    simp only [LoginStore.consumeState, Option.map_eq_some_iff] at found
    rcases found with ⟨row, isRow, isRecord⟩
    rw [Option.filter_eq_some_iff] at isRow
    have sameState : record.state = state := by
      rw [← isRecord]
    rcases orderly.waiting _ row isRow.1 with ⟨starter, original, isStored, sameDigest, shows,
      notConsumed⟩
    refine ⟨?_, ?_, ?_⟩
    · intro digest other isOther
      simp only [LoginStore.consumeState, OrderedMap.get?_delete] at isOther
      split_ifs at isOther with same
      rcases orderly.waiting digest other isOther with ⟨caller, stored, isOld, digestOf, rows, new⟩
      refine ⟨caller, stored, List.mem_cons_of_mem _ isOld, digestOf, rows, ?_⟩
      intro taker taken isTaken
      rcases List.mem_cons.mp isTaken with last | older
      · rw [Happening.consumed.injEq] at last
        rw [last.2, sameState]
        exact Ne.symm same
      · exact new taker taken older
    · intro caller consumed isConsumed
      rcases List.mem_cons.mp isConsumed with last | older
      · rw [Happening.consumed.injEq] at last
        refine ⟨starter, original, List.mem_cons_of_mem _ isStored, ?_, ?_⟩
        · rw [last.2, sameState, sameDigest]
        · rw [last.2, ← isRecord]
          rcases shows with ⟨browser, nonce, verifier, returnTo⟩
          rw [browser, nonce, verifier, returnTo]
      · rcases orderly.source caller consumed older with ⟨old, stored, isOld, facts⟩
        exact ⟨old, stored, List.mem_cons_of_mem _ isOld, facts⟩
    · intro caller consumed other consumed' isConsumed isConsumed' same
      rcases List.mem_cons.mp isConsumed with last | older
      · rcases List.mem_cons.mp isConsumed' with last' | older'
        · rw [Happening.consumed.injEq] at last last'
          rw [last.1, last'.1]
        · rw [Happening.consumed.injEq] at last
          rw [last.2, sameState] at same
          exact absurd same.symm (notConsumed other consumed' older')
      · rcases List.mem_cons.mp isConsumed' with last' | older'
        · rw [Happening.consumed.injEq] at last'
          rw [last'.2, sameState] at same
          exact absurd same (notConsumed caller consumed older)
        · exact orderly.once caller consumed other consumed' older older' same
  | deleted state now =>
    refine ⟨?_, orderly.source, orderly.once⟩
    intro digest row found
    simp only [LoginStore.consumeState, OrderedMap.get?_delete] at found
    split_ifs at found
    exact orderly.waiting digest row found
  | exchanged exchange idToken => exact orderly.congr rfl (by simp) (by simp)
  | resolved kid key now => exact orderly.congr rfl (by simp) (by simp)
  | created issuer subject profile uuid absent fresh =>
    apply orderly.congr _ (by simp) (by simp)
    simp [createIdentity, absent, fresh]
  | presented issuer subject stableUserId now row found =>
    apply orderly.congr _ (by simp) (by simp)
    simp [bindStableId, found]
  | inserted id personId now isPrincipal =>
    apply orderly.congr _ (by simp) (by simp)
    rw [LoginStore.putSession]
    split_ifs <;> rfl
  | unlocked issuer subject =>
    apply orderly.congr _ (by simp) (by simp)
    rw [unlockIdentity]
    split
    · rfl
    · split_ifs <;> rfl

theorem IdentitiesOrderly.effect (orderly : IdentitiesOrderly world)
    (effect : Effect store me world op after) : IdentitiesOrderly after := by
  have asCreations : ∀ (history : List Happening) issuer subject personId,
      .created issuer subject personId ∈ history ↔ .created issuer subject personId ∈
        history.filter Happening.isCreation := by
    intro history issuer subject personId
    simp [Happening.isCreation]
  have countCreations : ∀ (history : List Happening) issuer subject,
      history.countP (·.isCreationOf issuer subject) =
        (history.filter Happening.isCreation).countP (·.isCreationOf issuer subject) := by
    intro history issuer subject
    rw [List.countP_filter]
    congr 1
    funext happening
    cases happening <;> simp [Happening.isCreationOf, Happening.isCreation]
  rcases effect.persons with ⟨persons, same⟩ | ⟨issuer, subject, uuid, absent, grown, persons⟩
  · refine ⟨?_, ?_⟩
    · intro issuer subject personId
      rw [persons, asCreations, same, ← asCreations]
      exact orderly.persons issuer subject personId
    · intro issuer subject
      rw [countCreations, same, ← countCreations]
      exact orderly.once issuer subject
  · refine ⟨?_, ?_⟩
    · intro issuer' subject' personId
      rw [grown, List.mem_cons, Happening.created.injEq, persons, orderly.persons]
      split_ifs with same
      · rw [Prod.mk.injEq] at same
        rw [same.1, same.2, absent]
        simp [eq_comm]
      · rw [Prod.mk.injEq] at same
        constructor
        · rintro (⟨first, second, -⟩ | old)
          · exact absurd ⟨first, second⟩ same
          · exact old
        · exact .inr
    · intro issuer' subject'
      rw [grown, List.countP_cons]
      split_ifs with isCreation
      · simp only [Happening.isCreationOf, decide_eq_true_eq] at isCreation
        have none : world.history.countP (·.isCreationOf issuer' subject') = 0 := by
          rw [List.countP_eq_zero]
          intro happening happened isThis
          cases happening with
          | created other other' personId =>
            simp only [Happening.isCreationOf, decide_eq_true_eq] at isThis
            rw [orderly.persons, isThis.1, isThis.2, ← isCreation.1, ← isCreation.2, absent]
              at happened
            cases happened
          | _ => cases isThis
        omega
      · have before := orderly.once issuer' subject'
        omega

def Due (host : LoginHost) (config : LoginConfig) (requests : List Request)
    (history : List Happening) : Happening → Prop
  | .stored caller record =>
      ∃ request, requests[caller]? = some request ∧ request.record = some record
  | .consumed caller record =>
      ∃ request, requests[caller]? = some request ∧ request.presented = some record.state
  | .exchanged caller _ _ =>
      (∃ record, .consumed caller record ∈ history) ∧
        ∀ request idToken, .exchanged caller request idToken ∉ history
  | .inserted caller _ personId =>
      (∃ request signIn, requests[caller]? = some request ∧
        Vouched host config caller request signIn history ∧
        .created config.issuer signIn.subject personId ∈ history) ∧
      ∀ id personId, .inserted caller id personId ∉ history
  | .presented caller _ _ _ => ∃ request, requests[caller]? = some request
  | _ => True

theorem countP_cons_le_one {kind : Happening → Bool} {happening : Happening}
    (before : history.countP kind ≤ 1)
    (first : kind happening = true → ∀ other ∈ history, kind other = false) :
    (happening :: history).countP kind ≤ 1 := by
  rw [List.countP_cons]
  split_ifs with isKind
  · have none : history.countP kind = 0 := by
      rw [List.countP_eq_zero]
      intro other happened
      rw [first isKind other happened]
      decide
    omega
  · omega

theorem Ledger.cons (ledger : Ledger host config requests history) {happening : Happening}
    (due : Due host config requests history happening) :
    Ledger host config requests (happening :: history) := by
  refine ⟨?_, ?_, ?_, ?_, ?_, ?_, ?_⟩
  · intro caller record happened
    rcases List.mem_cons.mp happened with rfl | older
    · exact due
    · exact ledger.stored caller record older
  · intro caller record happened
    rcases List.mem_cons.mp happened with rfl | older
    · exact due
    · exact ledger.consumed caller record older
  · intro caller exchange idToken happened
    rcases List.mem_cons.mp happened with rfl | older
    · rcases due.1 with ⟨record, consumed⟩
      exact ⟨record, List.mem_cons_of_mem _ consumed⟩
    · rcases ledger.exchanged caller exchange idToken older with ⟨record, consumed⟩
      exact ⟨record, List.mem_cons_of_mem _ consumed⟩
  · intro caller id personId happened
    have earlier : ∃ request signIn, requests[caller]? = some request ∧
        Vouched host config caller request signIn history ∧
        .created config.issuer signIn.subject personId ∈ history := by
      rcases List.mem_cons.mp happened with rfl | older
      · exact due.1
      · exact ledger.inserted caller id personId older
    rcases earlier with ⟨request, signIn, isRequest, vouched, created⟩
    exact ⟨request, signIn, isRequest, vouched.later happening, List.mem_cons_of_mem _ created⟩
  · intro caller issuer subject outcome happened
    rcases List.mem_cons.mp happened with rfl | older
    · exact due
    · exact ledger.presented caller issuer subject outcome older
  · intro caller
    apply countP_cons_le_one (ledger.exchangedOnce caller)
    intro isExchange other happened
    cases happening with
    | exchanged me request idToken =>
      simp only [Happening.isExchangeOf, decide_eq_true_eq] at isExchange
      subst isExchange
      cases other with
      | exchanged you request' idToken' =>
        simp only [Happening.isExchangeOf, decide_eq_false_iff_not]
        rintro rfl
        exact due.2 request' idToken' happened
      | _ => rfl
    | _ => cases isExchange
  · intro caller
    apply countP_cons_le_one (ledger.insertedOnce caller)
    intro isSession other happened
    cases happening with
    | inserted me id personId =>
      simp only [Happening.isSessionOf, decide_eq_true_eq] at isSession
      subst isSession
      cases other with
      | inserted you id' personId' =>
        simp only [Happening.isSessionOf, decide_eq_false_iff_not]
        rintro rfl
        exact due.2 id' personId' happened
      | _ => rfl
    | _ => cases isSession

theorem Ledger.start (ledger : Ledger host config requests history) (request : Request) :
    Ledger host config (requests ++ [request]) history := by
  have known : ∀ {caller : ℕ} {found : Request}, requests[caller]? = some found →
      (requests ++ [request])[caller]? = some found := by
    intro caller found isFound
    rw [List.getElem?_append_left (List.getElem?_eq_some_iff.mp isFound).1]
    exact isFound
  refine ⟨?_, ?_, ledger.exchanged, ?_, ?_, ledger.exchangedOnce, ledger.insertedOnce⟩
  · intro caller record happened
    rcases ledger.stored caller record happened with ⟨found, isFound, facts⟩
    exact ⟨found, known isFound, facts⟩
  · intro caller record happened
    rcases ledger.consumed caller record happened with ⟨found, isFound, facts⟩
    exact ⟨found, known isFound, facts⟩
  · intro caller id personId happened
    rcases ledger.inserted caller id personId happened with ⟨found, signIn, isFound, facts⟩
    exact ⟨found, signIn, known isFound, facts⟩
  · intro caller issuer subject outcome happened
    rcases ledger.presented caller issuer subject outcome happened with ⟨found, isFound⟩
    exact ⟨found, known isFound⟩

def Entitled (host : LoginHost) (config : LoginConfig) (requests : List Request) (me : ℕ)
    (history : List Happening) : Op → Prop
  | .putState record =>
      ∃ request, requests[me]? = some request ∧ request.record = some record
  | .consumeState state =>
      ∃ request, requests[me]? = some request ∧ request.presented = some state
  | .exchange request => Due host config requests history (.exchanged me request none)
  | .putSession id personId => Due host config requests history (.inserted me id personId)
  | .bindStableId _ _ _ => ∃ request, requests[me]? = some request
  | _ => True

theorem Ledger.effect (ledger : Ledger host config requests world.history)
    (entitled : Entitled host config requests me world.history op)
    (effect : Effect store me world op after) : Ledger host config requests after.history := by
  cases effect with
  | none => exact ledger
  | stored record now absent => exact ledger.cons entitled
  | consumed state now record found =>
    simp only [LoginStore.consumeState, Option.map_eq_some_iff] at found
    rcases found with ⟨row, -, rfl⟩
    exact ledger.cons entitled
  | deleted state now => exact ledger
  | exchanged request idToken => exact ledger.cons entitled
  | resolved kid key now => exact ledger.cons trivial
  | created issuer subject profile uuid absent fresh => exact ledger.cons trivial
  | presented issuer subject stableUserId now row found => exact ledger.cons entitled
  | inserted id personId now isPrincipal => exact ledger.cons entitled
  | unlocked issuer subject => exact ledger.cons trivial

end StudentHub.Login
