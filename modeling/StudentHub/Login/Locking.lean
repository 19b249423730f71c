import StudentHub.Login.Effects

/-!
# Locked identities

An identity is locked when another stable id is presented for it than the one it is bound to,
and the sessions of its person are deleted with it. Until it is unlocked no session of the
person comes to be, if none is inserted while the identity is locked.
-/

namespace StudentHub.Login

open Ecma JsString Concurrency

variable {store : LoginStore} {me : ℕ} {world after : World} {op : Op} {given : Given}
variable {issuer subject personId : JsString}

inductive RowStep (me : ℕ) (issuer subject : JsString) (world after : World) :
    Option IdentityRow → Option IdentityRow → Prop
  | same (row : Option IdentityRow) : RowStep me issuer subject world after row row
  | created (uuid : JsString) (fresh : world.tables.principals.has uuid = false)
      (known : after.tables.principals.has uuid = true)
      (grown : after.history = .created issuer subject uuid :: world.history) :
      RowStep me issuer subject world after none (some ⟨uuid, none, none⟩)
  | bound (row : IdentityRow) (stableUserId : JsString) (now : ℤ)
      (grown : after.history =
        .presented me issuer subject (row.outcome stableUserId) :: world.history) :
      RowStep me issuer subject world after (some row) (some (row.bind stableUserId now))
  | unlocked (row : IdentityRow)
      (grown : after.history = .unlocked issuer subject :: world.history) :
      RowStep me issuer subject world after (some row) (some { row with lockedAt := none })

theorem Effect.row (effect : Effect store me world op after) (issuer subject : JsString) :
    RowStep me issuer subject world after (world.tables.identities.get? (issuer, subject))
      (after.tables.identities.get? (issuer, subject)) := by
  cases effect with
  | none => exact .same _
  | stored record now absent =>
    rw [LoginStore.putState, if_neg (by rw [absent]; decide)]
    exact .same _
  | consumed state now record found => exact .same _
  | deleted state now => exact .same _
  | exchanged request idToken => exact .same _
  | resolved kid key now => exact .same _
  | created issuer' subject' profile uuid absent fresh =>
    by_cases same : (issuer, subject) = (issuer', subject')
    · rw [same, absent]
      simp only [createIdentity, absent, fresh, Bool.false_eq_true, if_false,
        OrderedMap.get?_set_self]
      rw [Prod.mk.injEq] at same
      refine .created uuid fresh ?_ (by rw [same.1, same.2])
      rw [OrderedMap.has, OrderedMap.get?_set_self]
      rfl
    · simp only [createIdentity, absent, fresh, Bool.false_eq_true, if_false,
        OrderedMap.get?_set_of_ne _ _ same]
      exact .same _
  | presented issuer' subject' stableUserId now row found =>
    by_cases same : (issuer, subject) = (issuer', subject')
    · rw [Prod.mk.injEq] at same
      rw [same.1, same.2, found]
      simp only [bindStableId, found, OrderedMap.get?_set_self]
      exact .bound row stableUserId now rfl
    · simp only [bindStableId, found, OrderedMap.get?_set_of_ne _ _ same]
      exact .same _
  | inserted id personId now isPrincipal =>
    rw [LoginStore.putSession]
    split_ifs <;> exact .same _
  | unlocked issuer' subject' =>
    simp only [unlockIdentity]
    split
    case h_1 => exact .same _
    case h_2 row found =>
      split_ifs
      · by_cases same : (issuer, subject) = (issuer', subject')
        · rw [Prod.mk.injEq] at same
          rw [same.1, same.2, found]
          simp only [OrderedMap.get?_set_self]
          exact .unlocked row rfl
        · simp only [OrderedMap.get?_set_of_ne _ _ same]
          exact .same _
      · exact .same _

theorem Effect.session (effect : Effect store me world op after) {digest : JsString}
    {session : SessionRow} (found : after.tables.sessions.get? digest = some session) :
    world.tables.sessions.get? digest = some session ∨
      ∃ id, after.history = .inserted me id session.personId :: world.history ∧
        op = .putSession id session.personId := by
  cases effect with
  | none => exact .inl found
  | stored record now absent =>
    rw [LoginStore.putState, if_neg (by rw [absent]; decide)] at found
    exact .inl found
  | consumed state now record isRecord => exact .inl found
  | deleted state now => exact .inl found
  | exchanged request idToken => exact .inl found
  | resolved kid key now => exact .inl found
  | created issuer subject profile uuid absent fresh =>
    simp only [createIdentity, absent, fresh, Bool.false_eq_true, if_false] at found
    exact .inl found
  | presented issuer subject stableUserId now row isRow =>
    simp only [bindStableId, isRow] at found
    split_ifs at found
    · rw [OrderedMap.get?_filter, Option.filter_eq_some_iff] at found
      exact .inl found.1
    · exact .inl found
  | inserted id personId now isPrincipal =>
    simp only [LoginStore.putSession] at found
    split_ifs at found
    · exact .inl found
    · rw [OrderedMap.get?_set] at found
      split_ifs at found
      · rw [← Option.some.inj found]
        exact .inr ⟨id, rfl, rfl⟩
      · rw [OrderedMap.get?_filter, Option.filter_eq_some_iff] at found
        exact .inl found.1
  | unlocked issuer subject =>
    simp only [unlockIdentity] at found
    split at found
    · exact .inl found
    · split_ifs at found <;> exact .inl found

theorem Effect.principals (effect : Effect store me world op after)
    (known : world.tables.principals.has personId = true) :
    after.tables.principals.has personId = true := by
  cases effect with
  | none => exact known
  | stored record now absent =>
    rw [LoginStore.putState, if_neg (by rw [absent]; decide)]
    exact known
  | consumed state now record isRecord => exact known
  | deleted state now => exact known
  | exchanged request idToken => exact known
  | resolved kid key now => exact known
  | created issuer subject profile uuid absent fresh =>
    simp only [createIdentity, absent, fresh, Bool.false_eq_true, if_false]
    rw [OrderedMap.has, OrderedMap.get?_set]
    split_ifs
    · rfl
    · exact known
  | presented issuer subject stableUserId now row isRow =>
    simp only [bindStableId, isRow]
    exact known
  | inserted id personId now isPrincipal =>
    simp only [LoginStore.putSession]
    split_ifs <;> exact known
  | unlocked issuer subject =>
    simp only [unlockIdentity]
    split
    · exact known
    · split_ifs <;> exact known

theorem Effect.revokes (effect : Effect store me world op after) {caller : ℕ}
    (grown : after.history = .presented caller issuer subject .mismatch :: world.history) :
    ∃ row, after.tables.identities.get? (issuer, subject) = some row ∧ row.lockedAt.isSome ∧
      ∀ digest session, after.tables.sessions.get? digest = some session →
        session.personId ≠ row.personId := by
  cases effect with
  | presented issuer' subject' stableUserId now row found =>
    simp only [List.cons.injEq, Happening.presented.injEq, and_true] at grown
    rcases grown with ⟨-, rfl, rfl, isMismatch⟩
    simp only [bindStableId, found, OrderedMap.get?_set_self, isMismatch, if_true]
    refine ⟨_, rfl, ?_, ?_⟩
    · rw [IdentityRow.bind, isMismatch]
      rfl
    · intro digest session isSession
      rw [OrderedMap.get?_filter, Option.filter_eq_some_iff, decide_eq_true_eq] at isSession
      exact isSession.2
  | none | deleted => simp at grown
  | stored | consumed | exchanged | resolved | created | inserted | unlocked => simp at grown

/-- The persons of the identities are principals, and no two identities share one. -/
structure PersonsDistinct (tables : Tables) : Prop where
  principals : ∀ key row, tables.identities.get? key = some row →
    tables.principals.has row.personId = true
  distinct : ∀ key other row row', tables.identities.get? key = some row →
    tables.identities.get? other = some row' → row.personId = row'.personId → key = other

theorem RowStep.person {before later : Option IdentityRow} {row : IdentityRow}
    (step : RowStep me issuer subject world after before later) (isRow : later = some row) :
    (∃ old, before = some old ∧ old.personId = row.personId) ∨
      world.tables.principals.has row.personId = false ∧
        after.tables.principals.has row.personId = true ∧
        after.history = .created issuer subject row.personId :: world.history := by
  cases step with
  | same => exact .inl ⟨row, isRow, rfl⟩
  | created uuid fresh known grown =>
    cases isRow
    exact .inr ⟨fresh, known, grown⟩
  | bound old stableUserId now grown =>
    cases isRow
    exact .inl ⟨old, rfl, rfl⟩
  | unlocked old grown =>
    cases isRow
    exact .inl ⟨old, rfl, rfl⟩

theorem PersonsDistinct.effect (persons : PersonsDistinct world.tables)
    (effect : Effect store me world op after) : PersonsDistinct after.tables := by
  refine ⟨?_, ?_⟩
  · rintro ⟨issuer, subject⟩ row isRow
    rcases (effect.row issuer subject).person isRow with ⟨old, isOld, same⟩ | ⟨-, known, -⟩
    · rw [← same]
      exact effect.principals (persons.principals _ old isOld)
    · exact known
  · rintro ⟨issuer, subject⟩ ⟨issuer', subject'⟩ row row' isRow isRow' samePerson
    rcases (effect.row issuer subject).person isRow with ⟨old, isOld, same⟩ | ⟨fresh, -, grown⟩
    · rcases (effect.row issuer' subject').person isRow' with ⟨old', isOld', same'⟩ | ⟨fresh, -⟩
      · exact persons.distinct _ _ old old' isOld isOld' (by rw [same, same', samePerson])
      · have known := persons.principals _ old isOld
        rw [same, samePerson, fresh] at known
        cases known
    · rcases (effect.row issuer' subject').person isRow' with ⟨old', isOld', same'⟩ | ⟨-, -, grown'⟩
      · have known := persons.principals _ old' isOld'
        rw [same', ← samePerson, fresh] at known
        cases known
      · rw [grown', List.cons.injEq, Happening.created.injEq] at grown
        rw [grown.1.1, grown.1.2.1]

def Unbound (me : ℕ) (history : List Happening) : Prop :=
  ∀ issuer subject outcome, .presented me issuer subject outcome ∉ history

/-- The caller has presented a stable id for the identity at last, and if the identity is locked
now another stable id has been presented for it later. -/
def Bound (me : ℕ) (issuer subject : JsString) (world : World) : Prop :=
  ∃ later outcome before, world.history = later ++ .presented me issuer subject outcome :: before ∧
    Unbound me later ∧
    ∀ row, world.tables.identities.get? (issuer, subject) = some row → row.lockedAt.isSome →
      ∃ caller, .presented caller issuer subject .mismatch ∈ later

theorem RowStep.locked {before later : Option IdentityRow} {row : IdentityRow}
    (step : RowStep me issuer subject world after before later) (isRow : later = some row)
    (isLocked : row.lockedAt.isSome) :
    (∃ old, before = some old ∧ old.lockedAt.isSome) ∨
      after.history = .presented me issuer subject .mismatch :: world.history := by
  cases step with
  | same => exact .inl ⟨row, isRow, isLocked⟩
  | created uuid fresh known grown =>
    cases isRow
    cases isLocked
  | bound old stableUserId now grown =>
    cases isRow
    rw [IdentityRow.bind] at isLocked
    split_ifs at isLocked with isMismatch
    · rw [isMismatch] at grown
      exact .inr grown
    · exact .inl ⟨old, rfl, isLocked⟩
  | unlocked old grown =>
    cases isRow
    cases isLocked

theorem Bound.effect {caller : ℕ} (bound : Bound me issuer subject world) (different : caller ≠ me)
    (effect : Effect store caller world op after) : Bound me issuer subject after := by
  rcases bound with ⟨later, outcome, before, isHistory, unbound, overtaken⟩
  rcases effect.grows with same | ⟨last, grown, isOf⟩
  · refine ⟨later, outcome, before, same.trans isHistory, unbound, ?_⟩
    intro row isRow isLocked
    rcases (effect.row issuer subject).locked isRow isLocked with ⟨old, isOld, wasLocked⟩ | grown
    · exact overtaken old isOld wasLocked
    · rw [same] at grown
      exact absurd grown.symm (List.cons_ne_self _ _)
  · refine ⟨last :: later, outcome, before, by rw [grown, isHistory]; rfl, ?_, ?_⟩
    · intro issuer' subject' outcome' happened
      rcases List.mem_cons.mp happened with rfl | older
      · exact different isOf.1.symm
      · exact unbound issuer' subject' outcome' older
    · intro row isRow isLocked
      rcases (effect.row issuer subject).locked isRow isLocked with ⟨old, isOld, wasLocked⟩ | grown'
      · rcases overtaken old isOld wasLocked with ⟨other, isOther⟩
        exact ⟨other, List.mem_cons_of_mem _ isOther⟩
      · rw [grown, List.cons.injEq] at grown'
        exact ⟨caller, by rw [grown'.1]; exact List.mem_cons_self⟩

theorem bound_of_answer {stableUserId : JsString} {outcome : StableIdOutcome}
    (answered : (handle store me (.bindStableId issuer subject stableUserId) given world).1 =
      some outcome) (isFine : outcome = .bound ∨ outcome = .matched) :
    Bound me issuer subject (handle store me (.bindStableId issuer subject stableUserId) given
      world).2 := by
  rcases call_eq_some answered with ⟨isOutcome, changed⟩
  refine ⟨[], outcome, world.history, ?_, fun _ _ _ => List.not_mem_nil, ?_⟩
  · simp only [handle]
    rw [changed]
    rfl
  · intro row isRow isLocked
    simp only [handle] at isRow
    rw [changed] at isRow
    simp only [bindStableId] at isOutcome isRow
    split at isOutcome
    case h_1 => cases isOutcome
    case h_2 old found =>
      rw [Option.some.injEq] at isOutcome
      simp only [found, OrderedMap.get?_set_self, Option.some.injEq] at isRow
      rw [← isRow, IdentityRow.bind, isOutcome] at isLocked
      have notLocked : old.lockedAt.isSome = false := by
        rw [← Bool.not_eq_true]
        intro wasLocked
        rw [IdentityRow.outcome, if_pos wasLocked] at isOutcome
        rcases isFine with rfl | rfl <;> cases isOutcome
      rcases isFine with rfl | rfl
      · simp [notLocked] at isLocked
      · simp [notLocked] at isLocked

/-- From a mismatch until it is unlocked the identity is locked, its person has no session, and
none has been inserted. -/
def Guarded (world : World) : Prop :=
  ∀ issuer subject later caller before,
    world.history = later ++ .presented caller issuer subject .mismatch :: before →
    .unlocked issuer subject ∉ later →
    ∃ row, world.tables.identities.get? (issuer, subject) = some row ∧ row.lockedAt.isSome ∧
      (∀ digest session, world.tables.sessions.get? digest = some session →
        session.personId ≠ row.personId) ∧
      ∀ inserter id, .inserted inserter id row.personId ∉ later

def Unlocked (tables : Tables) (personId : JsString) : Prop :=
  ∀ key row, tables.identities.get? key = some row → row.personId = personId →
    row.lockedAt.isSome = false

theorem RowStep.stays_locked {before later : Option IdentityRow} {row : IdentityRow}
    (step : RowStep me issuer subject world after before later) (isRow : before = some row)
    (isLocked : row.lockedAt.isSome)
    (notUnlocked : after.history ≠ .unlocked issuer subject :: world.history) :
    ∃ row', later = some row' ∧ row'.lockedAt.isSome ∧ row'.personId = row.personId := by
  cases step with
  | same => exact ⟨row, isRow, isLocked, rfl⟩
  | created uuid fresh known grown => cases isRow
  | bound old stableUserId now grown =>
    cases isRow
    refine ⟨_, rfl, ?_, rfl⟩
    rw [IdentityRow.bind]
    split_ifs
    · rfl
    · exact isLocked
  | unlocked old grown => exact absurd grown notUnlocked

theorem Guarded.effect (guarded : Guarded world)
    (unlocked : ∀ id personId, op = .putSession id personId → Unlocked world.tables personId)
    (effect : Effect store me world op after) : Guarded after := by
  have keeps : ∀ issuer subject later caller before,
      world.history = later ++ .presented caller issuer subject .mismatch :: before →
      .unlocked issuer subject ∉ later →
      after.history ≠ .unlocked issuer subject :: world.history →
      ∃ row, after.tables.identities.get? (issuer, subject) = some row ∧ row.lockedAt.isSome ∧
        (∀ digest session, after.tables.sessions.get? digest = some session →
          session.personId ≠ row.personId) ∧
        (∀ inserter id, .inserted inserter id row.personId ∉ later) ∧
        ∀ id, op ≠ .putSession id row.personId := by
    intro issuer subject later caller before isHistory notLater notNow
    rcases guarded issuer subject later caller before isHistory notLater with
      ⟨row, isRow, isLocked, noSession, notInserted⟩
    rcases (effect.row issuer subject).stays_locked isRow isLocked notNow with
      ⟨row', isRow', isLocked', samePerson⟩
    have notThis : ∀ id, op ≠ .putSession id row.personId := by
      intro id isOp
      have isUnlocked := unlocked id row.personId isOp _ row isRow rfl
      rw [isLocked] at isUnlocked
      cases isUnlocked
    refine ⟨row', isRow', isLocked', ?_, ?_, ?_⟩
    · intro digest session isSession isPerson
      rw [samePerson] at isPerson
      rcases effect.session isSession with old | ⟨id, -, isOp⟩
      · exact noSession digest session old isPerson
      · rw [isPerson] at isOp
        exact notThis id isOp
    · rw [samePerson]
      exact notInserted
    · rw [samePerson]
      exact notThis
  intro issuer subject later caller before isHistory notLater
  rcases effect.grows with same | ⟨last, grown, isOf⟩
  · rw [same] at isHistory
    rcases keeps issuer subject later caller before isHistory notLater
      (by rw [same]; exact (List.cons_ne_self _ _).symm) with
      ⟨row, isRow, isLocked, noSession, notInserted, -⟩
    exact ⟨row, isRow, isLocked, noSession, notInserted⟩
  · rw [grown] at isHistory
    cases later with
    | nil =>
      simp only [List.nil_append, List.cons.injEq] at isHistory
      rw [isHistory.1] at grown isOf
      rw [← isOf.1] at effect
      rcases effect.revokes grown with ⟨row, isRow, isLocked, noSession⟩
      exact ⟨row, isRow, isLocked, noSession, fun _ _ => List.not_mem_nil⟩
    | cons head between =>
      simp only [List.cons_append, List.cons.injEq] at isHistory
      rcases isHistory with ⟨rfl, isHistory⟩
      rw [List.mem_cons, not_or] at notLater
      rcases keeps issuer subject between caller before isHistory notLater.2
        (by rw [grown, ne_eq, List.cons.injEq]; exact fun same => notLater.1 same.1.symm) with
        ⟨row, isRow, isLocked, noSession, notInserted, notThis⟩
      refine ⟨row, isRow, isLocked, noSession, ?_⟩
      intro inserter id happened
      rcases List.mem_cons.mp happened with rfl | older
      · exact notThis id isOf.2
      · exact notInserted inserter id older

end StudentHub.Login
