import StudentHub.Login.Application

/-!
# What an operation does

An operation leaves the world as it is, or it changes the tables in one way and something has
happened. What holds in every run is shown by cases on the effect of a step.
-/

namespace StudentHub.Login

open Ecma JsString Concurrency

inductive Effect (store : LoginStore) (me : ℕ) (world : World) : Op → World → Prop
  | none (op : Op) : Effect store me world op world
  | stored (record : LoginState) (now : ℤ)
      (absent : world.tables.states.has (store.storedToken record.state) = false) :
      Effect store me world (.putState record)
        ⟨(store.putState record now world.tables).2, .stored me record :: world.history⟩
  | consumed (state : JsString) (now : ℤ) (record : LoginState)
      (found : (store.consumeState state now world.tables).1 = some record) :
      Effect store me world (.consumeState state)
        ⟨(store.consumeState state now world.tables).2, .consumed me record :: world.history⟩
  | deleted (state : JsString) (now : ℤ) :
      Effect store me world (.consumeState state)
        ⟨(store.consumeState state now world.tables).2, world.history⟩
  | exchanged (request : TokenRequest) (idToken : Option JsString) :
      Effect store me world (.exchange request)
        ⟨world.tables, .exchanged me request idToken :: world.history⟩
  | resolved (kid : JsString) (key : JsValue) (now : ℤ) :
      Effect store me world (.resolveKey kid)
        ⟨world.tables, .resolved me kid key now :: world.history⟩
  | created (issuer subject : JsString) (profile : ClaimedProfile) (uuid : JsString)
      (absent : world.tables.identities.get? (issuer, subject) = Option.none)
      (fresh : world.tables.principals.has uuid = false) :
      Effect store me world (.createIdentity issuer subject profile)
        ⟨(createIdentity issuer subject profile uuid world.tables).2,
          .created issuer subject uuid :: world.history⟩
  | presented (issuer subject stableUserId : JsString) (now : ℤ) (row : IdentityRow)
      (found : world.tables.identities.get? (issuer, subject) = some row) :
      Effect store me world (.bindStableId issuer subject stableUserId)
        ⟨(bindStableId issuer subject stableUserId now world.tables).2,
          .presented me issuer subject (row.outcome stableUserId) :: world.history⟩
  | inserted (id personId : JsString) (now : ℤ)
      (isPrincipal : world.tables.principals.has personId = true) :
      Effect store me world (.putSession id personId)
        ⟨(store.putSession id personId now world.tables).2,
          .inserted me id personId :: world.history⟩
  | unlocked (issuer subject : JsString) :
      Effect store me world (.unlockIdentity issuer subject)
        ⟨(unlockIdentity issuer subject world.tables).2, .unlocked issuer subject :: world.history⟩

variable {store : LoginStore} {me : ℕ} {world after : World} {op : Op} {given : Given}

theorem effect_call {Result : Type} (fate : Fate) {result : Option Result × Tables}
    {happenings : Option Result → List Happening}
    (changed : Effect store me world op ⟨result.2, happenings result.1 ++ world.history⟩) :
    Effect store me world op (world.call fate result happenings).2 := by
  cases fate with
  | done => exact changed
  | refused => exact .none op
  | lost => exact changed

theorem handle_effect (store : LoginStore) (me : ℕ) (op : Op) (given : Given) (world : World) :
    Effect store me world op (handle store me op given world).2 := by
  cases op with
  | putState record =>
    apply effect_call
    by_cases present : world.tables.states.has (store.storedToken record.state) = true
    · simpa [LoginStore.putState, present, noted] using
        (.none _ : Effect store me world (.putState record) _)
    · rw [Bool.not_eq_true] at present
      simpa [LoginStore.putState, present, noted] using
        (.stored record given.databaseNow present : Effect store me world _ _)
  | consumeState state =>
    simp only [handle]
    apply effect_call
    cases found : (store.consumeState state given.databaseNow world.tables).1 with
    | none => exact .deleted state given.databaseNow
    | some record => exact .consumed state given.databaseNow record found
  | exchange request => exact .exchanged request given.idToken
  | resolveKey kid =>
    simp only [handle]
    cases given.key with
    | none => exact .none _
    | some key => exact .resolved kid key given.now
  | findIdentity issuer subject => exact effect_call given.fate (.none _)
  | createIdentity issuer subject profile =>
    apply effect_call
    cases found : world.tables.identities.get? (issuer, subject) with
    | some row =>
      simpa [createIdentity, createdNow, found] using
        (.none _ : Effect store me world (.createIdentity issuer subject profile) _)
    | none =>
      by_cases present : world.tables.principals.has given.uuid = true
      · simpa [createIdentity, createdNow, found, present] using
          (.none _ : Effect store me world (.createIdentity issuer subject profile) _)
      · rw [Bool.not_eq_true] at present
        simpa [createIdentity, createdNow, found, present] using
          (.created issuer subject profile given.uuid found present : Effect store me world _ _)
  | bindStableId issuer subject stableUserId =>
    apply effect_call
    cases found : world.tables.identities.get? (issuer, subject) with
    | none =>
      simpa [bindStableId, noted, found] using
        (.none _ : Effect store me world (.bindStableId issuer subject stableUserId) _)
    | some row =>
      simpa [bindStableId, noted, found] using
        (.presented issuer subject stableUserId given.databaseNow row found :
          Effect store me world _ _)
  | putSession id personId =>
    apply effect_call
    by_cases present : (world.tables.sessions.has (store.storedToken id) ||
        !world.tables.principals.has personId) = true
    · simpa [LoginStore.putSession, present, noted] using
        (.none _ : Effect store me world (.putSession id personId) _)
    · have isPrincipal : world.tables.principals.has personId = true := by
        simp only [Bool.or_eq_true, not_or, Bool.not_eq_true, Bool.not_eq_false'] at present
        exact present.2
      have inserted : Effect store me world _ _ :=
        .inserted id personId given.databaseNow isPrincipal
      rw [Bool.not_eq_true] at present
      simpa [LoginStore.putSession, present, noted] using inserted
  | unlockIdentity issuer subject =>
    simp only [handle]
    exact effect_call given.fate (.unlocked issuer subject)

theorem call_eq_some {Result : Type} {fate : Fate} {result : Option Result × Tables}
    {happenings : Option Result → List Happening} {value : Result}
    (answered : (world.call fate result happenings).1 = some value) :
    result.1 = some value ∧
      (world.call fate result happenings).2 =
        ⟨result.2, happenings (some value) ++ world.history⟩ := by
  cases fate with
  | done =>
    rw [World.call] at answered ⊢
    exact ⟨answered, by rw [answered]⟩
  | refused => cases answered
  | lost => cases answered

theorem consumed_of_answer {state : JsString} {record : LoginState}
    (answered : (handle store me (.consumeState state) given world).1 = some (some record)) :
    .consumed me record ∈ (handle store me (.consumeState state) given world).2.history ∧
      record.state = state := by
  have found : (store.consumeState state given.databaseNow world.tables).1 = some record ∧
      given.fate = .done := by
    cases isFate : given.fate with
    | done =>
      simp only [handle, World.call, isFate] at answered
      exact ⟨Option.some.inj answered, rfl⟩
    | refused => simp [handle, World.call, isFate] at answered
    | lost => simp [handle, World.call, isFate] at answered
  refine ⟨?_, ?_⟩
  · simp [handle, World.call, found, noted]
  · have isRecord := found.1
    simp only [LoginStore.consumeState, Option.map_eq_some_iff] at isRecord
    rcases isRecord with ⟨row, -, rfl⟩
    rfl

def Tables.personOf (tables : Tables) (issuer subject : JsString) : Option JsString :=
  (tables.identities.get? (issuer, subject)).map IdentityRow.personId

theorem personOf_of_found {issuer subject personId : JsString}
    (answered : (handle store me (.findIdentity issuer subject) given world).1 =
      some (some personId)) :
    (handle store me (.findIdentity issuer subject) given world).2.tables.personOf issuer subject =
      some personId := by
  rcases call_eq_some answered with ⟨found, changed⟩
  simp only [handle]
  rw [changed]
  exact Option.some.inj found

theorem personOf_of_created {issuer subject personId : JsString} {profile : ClaimedProfile}
    (answered : (handle store me (.createIdentity issuer subject profile) given world).1 =
      some personId) :
    (handle store me (.createIdentity issuer subject profile) given world).2.tables.personOf
      issuer subject = some personId := by
  rcases call_eq_some answered with ⟨found, changed⟩
  simp only [handle]
  rw [changed]
  simp only [createIdentity] at found ⊢
  split at found
  case h_1 row isRow =>
    simp only [isRow, Tables.personOf, Option.map_some]
    exact found
  case h_2 isRow =>
    split_ifs at found with present
    simp only [if_neg present, Tables.personOf, OrderedMap.get?_set_self, Option.map_some]
    exact found

def Happening.IsOf (me : ℕ) (op : Op) : Happening → Prop
  | .stored caller record => caller = me ∧ op = .putState record
  | .consumed caller record => caller = me ∧ op = .consumeState record.state
  | .exchanged caller request _ => caller = me ∧ op = .exchange request
  | .resolved caller kid _ _ => caller = me ∧ op = .resolveKey kid
  | .created issuer subject _ => ∃ profile, op = .createIdentity issuer subject profile
  | .presented caller issuer subject _ =>
      caller = me ∧ ∃ stableUserId, op = .bindStableId issuer subject stableUserId
  | .unlocked issuer subject => op = .unlockIdentity issuer subject
  | .inserted caller id personId => caller = me ∧ op = .putSession id personId

theorem Effect.grows (effect : Effect store me world op after) :
    after.history = world.history ∨
      ∃ happening, after.history = happening :: world.history ∧ happening.IsOf me op := by
  cases effect with
  | none => exact .inl rfl
  | stored record now absent => exact .inr ⟨_, rfl, rfl, rfl⟩
  | consumed state now record found =>
    simp only [LoginStore.consumeState, Option.map_eq_some_iff] at found
    rcases found with ⟨row, -, rfl⟩
    exact .inr ⟨_, rfl, rfl, rfl⟩
  | deleted state now => exact .inl rfl
  | exchanged request idToken => exact .inr ⟨_, rfl, rfl, rfl⟩
  | resolved kid key now => exact .inr ⟨_, rfl, rfl, rfl⟩
  | created issuer subject profile uuid absent fresh => exact .inr ⟨_, rfl, profile, rfl⟩
  | presented issuer subject stableUserId now row found =>
    exact .inr ⟨_, rfl, rfl, stableUserId, rfl⟩
  | inserted id personId now isPrincipal => exact .inr ⟨_, rfl, rfl, rfl⟩
  | unlocked issuer subject => exact .inr ⟨_, rfl, rfl⟩

theorem Effect.old_or_new (effect : Effect store me world op after) {happening : Happening}
    (happened : happening ∈ after.history) : happening ∈ world.history ∨ happening.IsOf me op := by
  rcases effect.grows with same | ⟨last, grown, isOf⟩
  · rw [same] at happened
    exact .inl happened
  · rw [grown, List.mem_cons] at happened
    rcases happened with rfl | older
    · exact .inr isOf
    · exact .inl older

theorem Effect.mem_history (effect : Effect store me world op after) {happening : Happening}
    (happened : happening ∈ world.history) : happening ∈ after.history := by
  rcases effect.grows with same | ⟨last, grown, -⟩
  · rw [same]
    exact happened
  · rw [grown]
    exact List.mem_cons_of_mem _ happened

def Happening.isCreation : Happening → Bool
  | .created _ _ _ => true
  | _ => false

def KeepsPersons (world after : World) : Prop :=
  (∀ issuer subject, after.tables.personOf issuer subject = world.tables.personOf issuer subject) ∧
    after.history.filter Happening.isCreation = world.history.filter Happening.isCreation

def CreatesPerson (world after : World) : Prop :=
  ∃ issuer subject uuid, world.tables.personOf issuer subject = none ∧
    after.history = .created issuer subject uuid :: world.history ∧
    ∀ issuer' subject', after.tables.personOf issuer' subject' =
      if (issuer', subject') = (issuer, subject) then some uuid
      else world.tables.personOf issuer' subject'

theorem Effect.persons (effect : Effect store me world op after) :
    KeepsPersons world after ∨ CreatesPerson world after := by
  cases effect with
  | none => exact .inl ⟨fun _ _ => rfl, rfl⟩
  | stored record now absent =>
    refine .inl ⟨fun _ _ => ?_, rfl⟩
    rw [LoginStore.putState, if_neg (by rw [absent]; decide)]
    rfl
  | consumed state now record found => exact .inl ⟨fun _ _ => rfl, rfl⟩
  | deleted state now => exact .inl ⟨fun _ _ => rfl, rfl⟩
  | exchanged request idToken => exact .inl ⟨fun _ _ => rfl, rfl⟩
  | resolved kid key now => exact .inl ⟨fun _ _ => rfl, rfl⟩
  | created issuer subject profile uuid absent fresh =>
    refine .inr ⟨issuer, subject, uuid, by rw [Tables.personOf, absent]; rfl, rfl, ?_⟩
    intro issuer' subject'
    simp only [createIdentity, absent, fresh, Bool.false_eq_true, if_false, Tables.personOf,
      OrderedMap.get?_set]
    split_ifs <;> rfl
  | presented issuer subject stableUserId now row found =>
    refine .inl ⟨fun issuer' subject' => ?_, rfl⟩
    simp only [bindStableId, found, Tables.personOf, OrderedMap.get?_set]
    split_ifs with same
    · rw [same, found]
      rfl
    · rfl
  | inserted id person now isPrincipal =>
    refine .inl ⟨fun _ _ => ?_, rfl⟩
    rw [LoginStore.putSession]
    split_ifs <;> rfl
  | unlocked issuer subject =>
    refine .inl ⟨fun issuer' subject' => ?_, rfl⟩
    simp only [unlockIdentity]
    split
    case h_1 => rfl
    case h_2 row found =>
      split_ifs
      · simp only [Tables.personOf, OrderedMap.get?_set]
        split_ifs with same
        · rw [same, found]
          rfl
        · rfl
      · rfl

theorem Effect.personOf (effect : Effect store me world op after) {issuer subject personId : JsString}
    (isPerson : world.tables.personOf issuer subject = some personId) :
    after.tables.personOf issuer subject = some personId := by
  rcases effect.persons with keeps | ⟨issuer', subject', uuid, absent, -, persons⟩
  · rw [keeps.1, isPerson]
  · rw [persons, if_neg ?_, isPerson]
    intro same
    rw [Prod.mk.injEq] at same
    rw [same.1, same.2, absent] at isPerson
    cases isPerson

end StudentHub.Login
