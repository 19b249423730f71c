import StudentHub.Assertions.Verify
import StudentHub.Concurrency.Chronicle

/-!
# Single use of an assertion

A call is accepted once the store has not seen the issuer and the id of its assertion. The
store forgets an entry when it is asked with a clock at or past the expiry, and a call asks
with the clock it has read before it waited for the key. So an id may be accepted again if
the store has forgotten it in between, and only then.
-/

namespace StudentHub.Assertions

open Ecma JsString Concurrency Process FiniteNumber

def Consultation.Same (left right : Consultation) : Prop :=
  left.iss = right.iss ∧ left.jti = right.jti

instance (left right : Consultation) : Decidable (left.Same right) :=
  inferInstanceAs (Decidable (_ ∧ _))

def Consultation.key (consultation : Consultation) : JsString :=
  MemoryReplayStore.key consultation.iss consultation.jti

/-- Asked with this clock the store forgets what it has recorded with the other. -/
def Consultation.Forgets (consultation recorded : Consultation) : Prop :=
  atMost recorded.exp consultation.now = true

instance (consultation recorded : Consultation) : Decidable (consultation.Forgets recorded) :=
  inferInstanceAs (Decidable (_ = true))

def Justified (earlier : List Consultation) (consultation : Consultation) : Prop :=
  (consultation.replayed = true →
    ∃ recorded ∈ earlier, recorded.replayed = false ∧ recorded.Same consultation) ∧
  (consultation.replayed = false → ∀ between recorded before,
    earlier = between ++ recorded :: before → recorded.replayed = false →
    recorded.Same consultation →
      ∃ asked ∈ consultation :: between, asked.Forgets recorded)

/-- The store holds what has been accepted and not been forgotten. -/
structure Recorded (shared : Shared) : Prop where
  kept : ∀ later recorded before, shared.history = later ++ recorded :: before →
    recorded.replayed = false → (∀ asked ∈ later, ¬asked.Forgets recorded) →
    shared.seen.get? recorded.key = some recorded.exp
  sourced : ∀ key exp, shared.seen.get? key = some exp →
    ∃ recorded ∈ shared.history, recorded.replayed = false ∧ recorded.key = key
  chronicle : Chronicle Justified shared.history
  plain : ∀ consultation ∈ shared.history, 0 ∉ consultation.iss

theorem recorded_initial : Recorded {} where
  kept later recorded before isHistory := by simp at isHistory
  sourced key exp found := by simp [OrderedMap.get?_empty] at found
  chronicle := Chronicle.nil
  plain consultation asked := by simp at asked

variable {shared : Shared} {me : ℕ} {iss jti : JsString} {exp : FiniteNumber} {now : ℤ}

theorem get?_pruned (seen : Seen) (key : JsString) (now : ℤ) :
    (seen.filter fun _ exp => !atMost exp now).get? key =
      (seen.get? key).filter fun exp => !atMost exp now :=
  OrderedMap.get?_filter seen (fun _ exp => !atMost exp now) key

theorem Recorded.get?_pruned_of_kept (stored : Recorded shared)
    {between before : List Consultation} {recorded : Consultation}
    (isHistory : shared.history = between ++ recorded :: before)
    (accepted : recorded.replayed = false) (remembered : ∀ asked ∈ between, ¬asked.Forgets recorded)
    (fresh : atMost recorded.exp now = false) :
    (shared.seen.filter fun _ exp => !atMost exp now).get? recorded.key = some recorded.exp := by
  rw [get?_pruned, stored.kept between recorded before isHistory accepted remembered]
  simp [fresh]

theorem Recorded.consume (stored : Recorded shared) (plain : 0 ∉ iss) (given : Option JsString) :
    Recorded (handle me (.consume iss jti exp now) given shared).2 := by
  simp only [handle, MemoryReplayStore.consume]
  split
  case isTrue found =>
    rw [OrderedMap.has, Option.isSome_iff_exists] at found
    rcases found with ⟨old, isOld⟩
    rw [get?_pruned, Option.filter_eq_some_iff] at isOld
    refine ⟨?_, ?_, ?_, ?_⟩
    · intro later recorded before isHistory accepted remembered
      cases later with
      | nil =>
        simp only [List.nil_append, List.cons.injEq] at isHistory
        rw [← isHistory.1] at accepted
        cases accepted
      | cons asked between =>
        simp only [List.cons_append, List.cons.injEq] at isHistory
        rcases isHistory with ⟨rfl, isHistory⟩
        apply stored.get?_pruned_of_kept isHistory accepted
        · intro asked isBetween
          exact remembered asked (List.mem_cons_of_mem _ isBetween)
        · simpa [Consultation.Forgets] using remembered _ List.mem_cons_self
    · intro key kept isKept
      rw [get?_pruned, Option.filter_eq_some_iff] at isKept
      rcases stored.sourced key kept isKept.1 with ⟨recorded, isRecorded, facts⟩
      exact ⟨recorded, List.mem_cons_of_mem _ isRecorded, facts⟩
    · apply stored.chronicle.cons
      refine ⟨?_, fun isNew => absurd isNew (by simp)⟩
      intro _
      rcases stored.sourced _ old isOld.1 with ⟨recorded, isRecorded, accepted, sameKey⟩
      exact ⟨recorded, isRecorded, accepted,
        MemoryReplayStore.key_injective (stored.plain recorded isRecorded) plain sameKey⟩
    · intro consultation asked
      rcases List.mem_cons.mp asked with rfl | older
      · exact plain
      · exact stored.plain consultation older
  case isFalse absent =>
    rw [OrderedMap.has, Option.isSome_iff_ne_none, not_not] at absent
    refine ⟨?_, ?_, ?_, ?_⟩
    · intro later recorded before isHistory accepted remembered
      cases later with
      | nil =>
        simp only [List.nil_append, List.cons.injEq] at isHistory
        rw [← isHistory.1]
        exact OrderedMap.get?_set_self _ _ _
      | cons asked between =>
        simp only [List.cons_append, List.cons.injEq] at isHistory
        rcases isHistory with ⟨rfl, isHistory⟩
        have fresh : atMost recorded.exp now = false := by
          simpa [Consultation.Forgets] using remembered _ List.mem_cons_self
        have isKept := stored.get?_pruned_of_kept isHistory accepted
          (fun asked isBetween => remembered asked (List.mem_cons_of_mem _ isBetween)) fresh
        rw [OrderedMap.get?_set_of_ne _ _ ?_, isKept]
        intro sameKey
        rw [sameKey, absent] at isKept
        cases isKept
    · intro key kept isKept
      rw [OrderedMap.get?_set] at isKept
      split at isKept
      case isTrue same => exact ⟨_, List.mem_cons_self, rfl, same.symm⟩
      case isFalse =>
        rw [get?_pruned, Option.filter_eq_some_iff] at isKept
        rcases stored.sourced key kept isKept.1 with ⟨recorded, isRecorded, facts⟩
        exact ⟨recorded, List.mem_cons_of_mem _ isRecorded, facts⟩
    · apply stored.chronicle.cons
      refine ⟨fun isOld => absurd isOld (by simp), ?_⟩
      intro _ between recorded before isHistory accepted same
      by_contra remembered
      push Not at remembered
      have fresh : atMost recorded.exp now = false := by
        simpa [Consultation.Forgets] using remembered _ List.mem_cons_self
      have isKept := stored.get?_pruned_of_kept isHistory accepted
        (fun asked isBetween => remembered asked (List.mem_cons_of_mem _ isBetween)) fresh
      have sameKey : recorded.key = MemoryReplayStore.key iss jti := by
        rw [Consultation.key, same.1, same.2]
      rw [sameKey, absent] at isKept
      cases isKept
    · intro consultation asked
      rcases List.mem_cons.mp asked with rfl | older
      · exact plain
      · exact stored.plain consultation older

def claimsOf (host : AssertionHost) (call : VerifyCall) : Option ActorAssertionClaims :=
  (envelopeParts call.token).bind fun parts => decodeClaims host parts.1

inductive Waits (host : AssertionHost) (me : ℕ) (own : Option ActorAssertionClaims)
    (history : List Consultation) : Verification → Prop
  | resolving (call : VerifyCall) (claims : ActorAssertionClaims) (payload signature : JsString)
      (isOwn : own = some claims) : Waits host me own history
        (perform (.resolvePublicKey claims.iss claims.kid)
          (withKey host call claims payload signature))
  | asking (claims : ActorAssertionClaims) (now : ℤ) (isOwn : own = some claims) :
      Waits host me own history (askStore claims now)
  | failed (code : AssertionErrorCode) (different : code ≠ .replayed) :
      Waits host me own history (returned (.fail code))
  | refused (claims : ActorAssertionClaims) (consultation : Consultation)
      (isOwn : own = some claims) (asked : consultation ∈ history)
      (replayed : consultation.replayed = true) (sameIss : consultation.iss = claims.iss)
      (sameJti : consultation.jti = claims.jti) :
      Waits host me own history (returned (.fail .replayed))
  | accepted (claims : ActorAssertionClaims) (consultation : Consultation)
      (isOwn : own = some claims) (asked : consultation ∈ history)
      (caller : consultation.caller = me) (isNew : consultation.replayed = false)
      (sameIss : consultation.iss = claims.iss) (sameJti : consultation.jti = claims.jti) :
      Waits host me own history (returned (.ok claims))

variable {host : AssertionHost} {own : Option ActorAssertionClaims}
variable {history : List Consultation} {process : Verification}

theorem Waits.later (waits : Waits host me own history process) (asked : Consultation) :
    Waits host me own (asked :: history) process := by
  cases waits with
  | resolving call claims payload signature isOwn => exact .resolving _ _ _ _ isOwn
  | asking claims now isOwn => exact .asking _ _ isOwn
  | failed code different => exact .failed code different
  | refused claims consultation isOwn older replayed sameIss sameJti =>
    exact .refused claims consultation isOwn (List.mem_cons_of_mem _ older) replayed sameIss sameJti
  | accepted claims consultation isOwn older caller isNew sameIss sameJti =>
    exact .accepted claims consultation isOwn (List.mem_cons_of_mem _ older) caller isNew sameIss
      sameJti

theorem waits_withKey {claims : ActorAssertionClaims} (call : VerifyCall)
    (payload signature : JsString) (key : Option JsString) (isOwn : own = some claims) :
    Waits host me own history (withKey host call claims payload signature key) := by
  cases key with
  | none => exact .failed _ (by decide)
  | some publicKey =>
    simp only [withKey]
    split
    case h_1 code refusal =>
      apply Waits.failed
      rintro rfl
      simp only [checkClaims] at refusal
      split_ifs at refusal <;> cases refusal
    case h_2 => exact .asking claims call.now isOwn

theorem waits_verifyAssertion (call : VerifyCall) :
    Waits host me (claimsOf host call) history (verifyAssertion host call) := by
  rw [verifyAssertion]
  split
  case h_1 => exact .failed _ (by decide)
  case h_2 payload signature isEnvelope =>
    split
    case h_1 => exact .failed _ (by decide)
    case h_2 claims decoded =>
      split_ifs
      · exact .failed _ (by decide)
      · exact .failed _ (by decide)
      · apply Waits.resolving
        rw [claimsOf, isEnvelope, Option.bind_some, decoded]

/-- The store records what it is asked, and every call gets on by steps of its own. -/
def progress (host : AssertionHost) : Progress handle (verifyAssertion host) where
  Valid _ call := ∀ claims ∈ claimsOf host call, 0 ∉ claims.iss
  Permitted _ _ _ _ _ := True
  Global _ shared := Recorded shared
  Local me call process shared :=
    (∀ claims ∈ claimsOf host call, 0 ∉ claims.iss) ∧
      Waits host me (claimsOf host call) shared.history process
  begins _ call shared plain recorded := ⟨recorded, plain, waits_verifyAssertion call⟩
  advances _ me call op rest given shared _ recorded here _ := by
    rcases here with ⟨plain, waits⟩
    cases waits with
    | resolving other claims payload signature isOwn =>
      exact ⟨recorded, plain, waits_withKey other payload signature given isOwn⟩
    | asking claims now isOwn =>
      refine ⟨recorded.consume (plain claims isOwn) given, plain, ?_⟩
      simp only [handle]
      split
      case h_1 => exact .failed _ (by decide)
      case h_2 isOld =>
        exact .refused claims _ isOwn List.mem_cons_self (Option.some.inj isOld) rfl rfl
      case h_3 isNew =>
        exact .accepted claims _ isOwn List.mem_cons_self rfl (Option.some.inj isNew) rfl rfl
  stays _ me call op rest given shared other call' process _ _ _ _ _ there := by
    rcases there with ⟨plain, waits⟩
    refine ⟨plain, ?_⟩
    cases op with
    | resolvePublicKey iss kid => exact waits
    | consume iss jti exp now => exact waits.later _

variable {world : World}

/-- No issuer of a token has U+0000 in its name. -/
def PlainIssuers (host : AssertionHost) (events : List Event) : Prop :=
  ∀ call ∈ calls events, ∀ claims ∈ claimsOf host call, 0 ∉ claims.iss

theorem mem_calls {events : List Event} {call : VerifyCall} :
    call ∈ calls events ↔ .start call ∈ events := by
  rw [calls, startedBy, List.mem_filterMap]
  refine ⟨?_, fun started => ⟨_, started, rfl⟩⟩
  rintro ⟨event, isEvent, isStart⟩
  split at isStart
  case h_1 =>
    rw [← Option.some.inj isStart]
    exact isEvent
  case h_2 => cases isStart

theorem holds_reach {events : List Event} (plain : PlainIssuers host events) :
    (progress host).Holds (calls events) (reach host events) := by
  apply Progress.holds_run (show (progress host).Global [] {} from recorded_initial)
  · rintro before call after rfl
    exact plain call (mem_calls.mpr (by simp))
  · intro before event after _ id given call op rest _ _ _
    exact trivial

/-- When the store is asked about an id again, nobody has asked it since the first time with
a clock at or past the expiry that was given then. -/
def AskedInTime (history : List Consultation) : Prop :=
  ∀ later consultation between first before,
    history = later ++ consultation :: (between ++ first :: before) →
    first.Same consultation → (∀ asked ∈ before, ¬asked.Same first) →
      ∀ asked ∈ consultation :: between, ¬asked.Forgets first

theorem mem_outcomes {id : ℕ} {result : VerifyResult}
    (isOutcome : (outcomes world)[id]? = some (some result)) :
    world.tasks[id]? = some (some (returned result)) := by
  rw [outcomes, List.getElem?_map, Option.map_eq_some_iff] at isOutcome
  rcases isOutcome with ⟨task, found, isResult⟩
  split at isResult
  case h_1 => rw [found, Option.some.inj isResult]
  case h_2 => cases isResult

theorem Recorded.not_accepted_again (stored : Recorded shared)
    (inTime : AskedInTime shared.history) {later between before : List Consultation}
    {consultation recorded : Consultation}
    (isHistory : shared.history = later ++ consultation :: (between ++ recorded :: before))
    (same : recorded.Same consultation) : consultation.replayed = true := by
  by_contra isNew
  have isOlder : recorded ∈ between ++ recorded :: before := by simp
  let sameId (asked : Consultation) : Prop := asked.Same consultation
  have isSame : sameId recorded := same
  rcases exists_oldest isOlder isSame with ⟨between', first, before', split, isFirst, oldest⟩
  rw [split] at isHistory
  have suffix : first :: before' <:+ shared.history := by
    rw [isHistory]
    exact ⟨later ++ consultation :: between', by simp⟩
  have accepted : first.replayed = false := by
    by_contra wasOld
    rcases (stored.chronicle _ _ suffix).1 (by simpa using wasOld) with ⟨other, isOther, -, also⟩
    exact oldest other isOther ⟨also.1.trans isFirst.1, also.2.trans isFirst.2⟩
  have justified := stored.chronicle consultation (between' ++ first :: before')
    ⟨later, isHistory.symm⟩
  rcases justified.2 (by simpa using isNew) between' first before' rfl accepted isFirst with
    ⟨asked, isAsked, forgets⟩
  refine inTime later consultation between' first before' isHistory isFirst ?_ asked isAsked forgets
  intro other isOther also
  exact oldest other isOther ⟨also.1.trans isFirst.1, also.2.trans isFirst.2⟩

/-- An id of an issuer is accepted once, if it is only asked about in time; and the id of an
assertion is refused as replayed only after it has been accepted for the same issuer. -/
theorem accepted_once (host : AssertionHost) (events : List Event)
    (plain : PlainIssuers host events) (inTime : AskedInTime (reach host events).state.history) :
    let world := reach host events
    (∀ i j : ℕ, ∀ first second, (outcomes world)[i]? = some (some (.ok first)) →
      (outcomes world)[j]? = some (some (.ok second)) →
      first.iss = second.iss → first.jti = second.jti → i = j) ∧
    ∀ i : ℕ, ∀ call, (calls events)[i]? = some call →
      (outcomes world)[i]? = some (some (.fail .replayed)) →
        ∃ claims, claimsOf host call = some claims ∧ ∃ recorded ∈ world.state.history,
          recorded.replayed = false ∧ recorded.iss = claims.iss ∧ recorded.jti = claims.jti := by
  intro world
  have holds : (progress host).Holds (calls events) world := holds_reach plain
  have stored : Recorded world.state := holds.global
  have accepted : ∀ i : ℕ, ∀ claims, (outcomes world)[i]? = some (some (.ok claims)) →
      ∃ asked ∈ world.state.history, asked.caller = i ∧ asked.replayed = false ∧
        asked.iss = claims.iss ∧ asked.jti = claims.jti := by
    intro i claims isOutcome
    have found := mem_outcomes isOutcome
    rcases holds.inside found with ⟨call, isCall⟩
    cases (holds.each i call _ isCall found).2 with
    | accepted _ asked isOwn isAsked caller isNew sameIss sameJti =>
      exact ⟨asked, isAsked, caller, isNew, sameIss, sameJti⟩
  refine ⟨?_, ?_⟩
  · intro i j first second isFirst isSecond sameIss sameJti
    rcases accepted i first isFirst with ⟨asked, isAsked, caller, isNew, iss, jti⟩
    rcases accepted j second isSecond with ⟨asked', isAsked', caller', isNew', iss', jti'⟩
    have same : asked.Same asked' := ⟨by rw [iss, iss', sameIss], by rw [jti, jti', sameJti]⟩
    rcases exists_suffix_of_mem isAsked with ⟨earlier, suffix⟩
    rcases exists_suffix_of_mem isAsked' with ⟨earlier', suffix'⟩
    rcases same_or_older suffix suffix' with ⟨rfl, -⟩ | ⟨between, split⟩ | ⟨between, split⟩
    · exact caller.symm.trans caller'
    · rcases suffix' with ⟨later, isHistory⟩
      rw [← split] at isHistory
      have replayed := stored.not_accepted_again inTime isHistory.symm same
      rw [isNew'] at replayed
      cases replayed
    · rcases suffix with ⟨later, isHistory⟩
      rw [← split] at isHistory
      have replayed := stored.not_accepted_again inTime isHistory.symm
        ⟨same.1.symm, same.2.symm⟩
      rw [isNew] at replayed
      cases replayed
  · intro i call isCall isOutcome
    cases (holds.each i call _ isCall (mem_outcomes isOutcome)).2 with
    | failed _ different => exact absurd rfl different
    | refused claims asked isOwn isAsked replayed sameIss sameJti =>
      rcases stored.chronicle.of_mem isAsked with ⟨earlier, suffix, justified⟩
      rcases justified.1 replayed with ⟨recorded, isRecorded, isNew, same⟩
      exact ⟨claims, isOwn, recorded, mem_of_mem_suffix suffix isRecorded, isNew,
        same.1.trans sameIss, same.2.trans sameJti⟩

def sampleClaims (jti : JsString) (exp : ℕ) : JsValue :=
  .object [(js "v", .number (.ofNat 1)), (js "iss", .string (js "i")), (js "aud", .string (js "a")),
    (js "sub", .string (js "s")), (js "iat", .number (.ofNat 1)),
    (js "exp", .number (.ofNat exp)), (js "jti", .string jti)]

/-- Two payloads that decode, and the one signature that fits. -/
def sampleHost : AssertionHost where
  parsePayload payload :=
    if payload = js "p" then some (sampleClaims (js "x") 9)
    else if payload = js "q" then some (sampleClaims (js "y") 99)
    else none
  verifySignature _ _ signature := some (signature = js "z")

def sampleCall (token : JsString) (now : ℤ) : VerifyCall :=
  ⟨.string token, ⟨js "a", fun _ => true, none, 300⟩, now⟩

/-- The first call waits for its key while the same token is accepted and then forgotten. -/
def delayedRun : List Event :=
  [.start (sampleCall (js "bawes-aa.v1.p.z") 5), .start (sampleCall (js "bawes-aa.v1.p.z") 5),
    .step 1 (some (js "k")), .step 1 none, .start (sampleCall (js "bawes-aa.v1.q.z") 20),
    .step 2 (some (js "k")), .step 2 none, .step 0 (some (js "k")), .step 0 none]

/-- The clock never goes back, and yet two calls are accepted with one token. -/
theorem accepted_twice :
    ((calls delayedRun).map VerifyCall.now).Pairwise (· ≤ ·) ∧ PlainIssuers sampleHost delayedRun ∧
    ∃ claims, (outcomes (reach sampleHost delayedRun))[0]? = some (some (.ok claims)) ∧
      (outcomes (reach sampleHost delayedRun))[1]? = some (some (.ok claims)) := by
  refine ⟨by decide +kernel, ?_, ⟨js "i", js "a", js "s", ⟨false, 1, 0, .inl (by decide)⟩,
    ⟨false, 9, 0, .inl (by decide)⟩, js "x", none, none⟩, ?_, ?_⟩
  · show ∀ call ∈ calls delayedRun, ∀ claims ∈ claimsOf sampleHost call, 0 ∉ claims.iss
    decide +kernel
  · decide +kernel
  · decide +kernel

def repeatedRun : List Event :=
  [.start (sampleCall (js "bawes-aa.v1.p.z") 5), .start (sampleCall (js "bawes-aa.v1.p.z") 6),
    .step 0 (some (js "k")), .step 0 none, .step 1 (some (js "k")), .step 1 none]

theorem history_repeatedRun : (reach sampleHost repeatedRun).state.history =
    [⟨1, js "i", js "x", ⟨false, 9, 0, .inl (by decide)⟩, 6, true⟩,
      ⟨0, js "i", js "x", ⟨false, 9, 0, .inl (by decide)⟩, 5, false⟩] := by
  decide +kernel

theorem accepted_once_sample : ∃ recorded ∈ (reach sampleHost repeatedRun).state.history,
    recorded.replayed = false ∧ recorded.iss = js "i" ∧ recorded.jti = js "x" := by
  have plain : PlainIssuers sampleHost repeatedRun := by
    show ∀ call ∈ calls repeatedRun, ∀ claims ∈ claimsOf sampleHost call, 0 ∉ claims.iss
    decide +kernel
  have inTime : AskedInTime (reach sampleHost repeatedRun).state.history := by
    intro later consultation between first before isHistory same oldest
    rw [history_repeatedRun] at isHistory
    have lengths := congrArg List.length isHistory
    simp only [List.length_append, List.length_cons, List.length_nil] at lengths
    have noLater : later = [] := List.length_eq_zero_iff.mp (by omega)
    have noBetween : between = [] := List.length_eq_zero_iff.mp (by omega)
    subst noLater noBetween
    simp only [List.nil_append, List.cons.injEq] at isHistory
    rw [← isHistory.1, ← isHistory.2.1]
    decide
  have once := (accepted_once sampleHost repeatedRun plain inTime).2 1
    (sampleCall (js "bawes-aa.v1.p.z") 6) rfl (by decide +kernel)
  rcases once with ⟨claims, isClaims, recorded, isRecorded, isNew, sameIss, sameJti⟩
  have named : (claimsOf sampleHost (sampleCall (js "bawes-aa.v1.p.z") 6)).map
      (fun claims => (claims.iss, claims.jti)) = some (js "i", js "x") := by
    decide +kernel
  rw [isClaims, Option.map_some, Option.some.injEq, Prod.mk.injEq] at named
  exact ⟨recorded, isRecorded, isNew, sameIss.trans named.1, sameJti.trans named.2⟩

end StudentHub.Assertions
