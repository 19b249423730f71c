import StudentHub.Idempotency.RecordingStore

/-!
# Keys that are created

A key is created with the milliseconds of its instant as they are printed, and is read
with thirteen digits. The key of an instant works when the executor reads the instant and
the UUID back from it and does not refuse it at that instant.
-/

/-!
## Requests of one pair

The pair of a request is its principal and its key in lower case. Requests of one pair
have one scope and expire at one time, whatever case their keys are written in, so that
what was admitted once is refused later only for what it asks or for its age.
-/

namespace StudentHub.Idempotency

open Ecma Ecma.JsString

def MutationRequest.pair (request : MutationRequest) : JsString × Option JsString :=
  (request.principalRef, request.key.map toLowerCase)

theorem fits_lowerUnit {fits : UInt16 → Bool} (fitsMem : fits ∈ keyClasses) (unit : UInt16) :
    fits (lowerUnit unit) = fits unit := by
  have letters : (keyClasses.all fun fits => (List.range 26).all fun offset =>
      fits ((65 + offset).toUInt16 + 32) == fits (65 + offset).toUInt16) = true := by
    decide +kernel
  exact fits_lowerUnit_of_letters (List.all_eq_true.mp letters fits fitsMem) unit

theorem matchesKey_toLowerCase (key : JsString) : matchesKey key.toLowerCase = matchesKey key :=
  matchesClasses_map (fun _ fitsMem => fits_lowerUnit fitsMem) key

theorem issuedAtMs_toLowerCase {key : JsString} (matched : matchesKey key = true) :
    issuedAtMs key.toLowerCase = issuedAtMs key := by
  have decimal : ∀ unit ∈ (key.drop 3).take 13, isDigit unit = true := by
    apply @all_isDigit_of_matchesClasses [fun unit => unit = 118 || unit = 86, isUnit 49, isUnit 46]
      ([isUnit 46] ++ List.replicate 8 isHex ++ [isUnit 45] ++ List.replicate 4 isHex ++
        [isUnit 45, isUnit 52] ++ List.replicate 3 isHex ++ [isUnit 45, isVariant] ++
        List.replicate 3 isHex ++ [isUnit 45] ++ List.replicate 12 isHex)
    rw [matchesKey, keyClasses] at matched
    simpa only [List.append_assoc] using matched
  have same : ((key.drop 3).take 13).map lowerUnit = (key.drop 3).take 13 := by
    rw [List.map_congr_left fun unit unitMem => lowerUnit_of_isDigit (decimal unit unitMem),
      List.map_id']
  rw [issuedAtMs, issuedAtMs, toLowerCase, ← List.map_drop, ← List.map_take, same]

structure Admitted (sha256 : Utf8 → JsString) (options : IdempotencyOptions) (now : Instant)
    (request : MutationRequest) (input : AtomicMutationInput) (key : JsString) : Prop where
  valid : requestIsValid request = true
  given : request.key = some key
  matched : matchesKey key = true
  issued : issuedAtMs key ≤ now.time + options.futureSkewMs
  retained : now.time < issuedAtMs key + options.retentionMs
  input_eq : input = ⟨request.principalRef, key.toLowerCase, mutationFingerprint sha256 request,
    timeClip (issuedAtMs key + options.retentionMs)⟩

variable {sha256 : Utf8 → JsString} {options : IdempotencyOptions} {now now' : Instant}
  {request request' : MutationRequest} {input input' : AtomicMutationInput} {key key' : JsString}

theorem admitted_of_checkRequest (admits : checkRequest sha256 options now request = .ok input) :
    ∃ key, Admitted sha256 options now request input key := by
  unfold checkRequest at admits
  split at admits
  · contradiction
  rename_i valid
  split at admits
  · contradiction
  rename_i key given
  split_ifs at admits with _ unmatched future expired
  refine ⟨key, by simpa using valid, given, by simpa using unmatched, by omega, by omega, ?_⟩
  exact (Except.ok.inj admits).symm

theorem Admitted.length_principalRef (admitted : Admitted sha256 options now request input key) :
    request.principalRef.length = 64 := by
  have valid := admitted.valid
  simp only [requestIsValid, Bool.and_eq_true] at valid
  exact (matchesClasses_replicate.mp valid.1.1.1.1).1

theorem Admitted.pair_eq (admitted : Admitted sha256 options now request input key) :
    request.pair = (input.principalRef, some input.key) := by
  rw [admitted.input_eq, MutationRequest.pair, admitted.given]
  rfl

theorem Admitted.scope_eq_iff (admitted : Admitted sha256 options now request input key)
    (admitted' : Admitted sha256 options now' request' input' key') :
    input.scope = input'.scope ↔ request.pair = request'.pair := by
  rw [admitted.pair_eq, admitted'.pair_eq, Prod.mk.injEq, Option.some.injEq]
  refine ⟨?_, fun same => by rw [AtomicMutationInput.scope, same.1, same.2]; rfl⟩
  intro same
  have length := admitted.length_principalRef
  have length' := admitted'.length_principalRef
  simp only [AtomicMutationInput.scope, List.append_assoc] at same
  rw [admitted.input_eq, admitted'.input_eq] at same ⊢
  rcases List.append_inj same (length.trans length'.symm) with ⟨principal, rest⟩
  exact ⟨principal, (List.cons.inj rest).2⟩

theorem Admitted.issuedAtMs_eq (admitted : Admitted sha256 options now request input key)
    (admitted' : Admitted sha256 options now' request' input' key')
    (same : request.pair = request'.pair) : issuedAtMs key = issuedAtMs key' := by
  rw [MutationRequest.pair, MutationRequest.pair, admitted.given, admitted'.given,
    Prod.mk.injEq, Option.map_some, Option.map_some, Option.some.injEq] at same
  rw [← issuedAtMs_toLowerCase admitted.matched, same.2,
    issuedAtMs_toLowerCase admitted'.matched]

theorem Admitted.expiresAt_eq (admitted : Admitted sha256 options now request input key)
    (admitted' : Admitted sha256 options now' request' input' key')
    (same : request.pair = request'.pair) : input.expiresAt = input'.expiresAt := by
  rw [admitted.input_eq, admitted'.input_eq, admitted.issuedAtMs_eq admitted' same]

theorem Admitted.refusal_of_checkRequest {refusal : MutationResult}
    (admitted : Admitted sha256 options now request input key) (later : now.time ≤ now'.time)
    (same : request.pair = request'.pair)
    (refuses : checkRequest sha256 options now' request' = .error refusal) :
    (refusal = .refusal 400 .invalidRequest ∧ requestIsValid request' = false) ∨
      refusal = .refusal 409 .keyExpired := by
  unfold checkRequest at refuses
  split at refuses
  · rename_i invalid
    exact Or.inl ⟨(Except.error.inj refuses).symm, by simpa using invalid⟩
  rw [MutationRequest.pair, MutationRequest.pair, admitted.given, Prod.mk.injEq,
    Option.map_some] at same
  split at refuses
  · rename_i missing
    rw [missing] at same
    simp at same
  rename_i given found
  rw [found, Option.map_some, Option.some.injEq] at same
  have matched : matchesKey given = true := by
    rw [← matchesKey_toLowerCase, ← same.2, matchesKey_toLowerCase]
    exact admitted.matched
  have issued : issuedAtMs given = issuedAtMs key := by
    rw [← issuedAtMs_toLowerCase matched, ← same.2, issuedAtMs_toLowerCase admitted.matched]
  have early := admitted.issued
  rw [if_neg (not_not.mpr matched)] at refuses
  split_ifs at refuses with empty future
  · rw [List.length_eq_zero_iff] at empty
    rw [empty] at matched
    contradiction
  · omega
  · exact Or.inr (Except.error.inj refuses).symm

end StudentHub.Idempotency

namespace StudentHub.Idempotency

open Ecma Ecma.JsString Ecma.Json

def uuidClasses : List (UInt16 → Bool) :=
  List.replicate 8 isHex ++ [isUnit 45] ++ List.replicate 4 isHex ++
    [isUnit 45, isUnit 52] ++ List.replicate 3 isHex ++ [isUnit 45, isVariant] ++
    List.replicate 3 isHex ++ [isUnit 45] ++ List.replicate 12 isHex

inductive KeyError
  | invalidTime
  | invalidUuid
  deriving DecidableEq

def printMs (time : ℤ) : JsString := (if time < 0 then js "-" else []) ++ decimal time.natAbs

def createIdempotencyKey (now : Date) (uuid : JsString) : Except KeyError JsString :=
  match now with
  | none => .error .invalidTime
  | some now =>
      if ¬matchesClasses uuidClasses uuid then
        .error .invalidUuid
      else
        .ok (js "v1." ++ printMs now.time ++ js "." ++ uuid.toLowerCase)

/-- The second group of `KEY_PATTERN`. -/
def keyUuid (key : JsString) : JsString := key.drop 17

/-- A store at a moment of its clock, which compares `expiresAt` to that clock. It answers
nothing when it throws. -/
structure StoreAt (clock : Instant) where
  executeAtomic : AtomicMutationInput → Option AtomicMutationOutcome
  compares : ∀ input, executeAtomic input = some .expired →
    Date.reaches (some clock) input.expiresAt = true

/-- What the executor answers when its clock and that of the store read the same. -/
def execute (sha256 : Utf8 → JsString) (options : IdempotencyOptions) {now : Instant}
    (store : StoreAt now) (request : MutationRequest) : MutationResult :=
  match checkRequest sha256 options now request with
  | .error refusal => refusal
  | .ok input =>
      match store.executeAtomic input with
      | none => .refusal 503 .operationFailed
      | some outcome => outcome.result

def MutationResult.refusesKey : MutationResult → Bool
  | refusal _ .invalidKey | refusal _ .keyInFuture | refusal _ .keyExpired => true
  | _ => false

structure KeyWorks (now : Instant) (uuid key : JsString) : Prop where
  matched : matchesKey key = true
  time : issuedAtMs key = now.time
  uuid : keyUuid key = uuid.toLowerCase
  taken : ∀ (sha256 : Utf8 → JsString) (options : IdempotencyOptions) (store : StoreAt now)
    (request : MutationRequest), request.key = some key → requestIsValid request = true →
      (execute sha256 options store request).refusesKey = false

theorem keyClasses_eq : keyClasses =
    [fun unit => unit = 118 || unit = 86, isUnit 49, isUnit 46] ++
      (List.replicate 13 isDigit ++ (isUnit 46 :: uuidClasses)) := rfl

theorem length_printMs_iff {time : ℤ} :
    (printMs time).length = 13 ∧ (∀ unit ∈ printMs time, isDigit unit = true) ↔
      10 ^ 12 ≤ time ∧ time < 10 ^ 13 := by
  have below : ∀ width, 0 < width → ((decimal time.natAbs).length ≤ width ↔
      time.natAbs < 10 ^ width) := fun _ => length_decimal_le_iff
  have upper := below 13 (by decide)
  have lower := below 12 (by decide)
  by_cases negative : time < 0
  · refine ⟨?_, by omega⟩
    rintro ⟨-, decimals⟩
    have sign := decimals 45 (by rw [printMs, if_pos negative]; exact List.mem_cons_self)
    cases sign
  · rw [printMs, if_neg negative, List.nil_append]
    refine ⟨?_, ?_⟩
    · rintro ⟨width, -⟩
      rw [width] at upper lower
      omega
    · rintro ⟨atLeast, below⟩
      refine ⟨?_, fun _ => isDigit_of_mem_decimal⟩
      have notLonger := upper.mpr (by omega)
      have notShorter : ¬(decimal time.natAbs).length ≤ 12 := by
        rw [lower]
        omega
      omega

variable {now : Instant} {uuid key : JsString}

theorem created_iff : createIdempotencyKey (some now) uuid = .ok key ↔
    matchesClasses uuidClasses uuid = true ∧
      key = js "v1." ++ (printMs now.time ++ 46 :: uuid.toLowerCase) := by
  have written : js "v1." ++ printMs now.time ++ js "." ++ uuid.toLowerCase =
      js "v1." ++ (printMs now.time ++ 46 :: uuid.toLowerCase) := by
    simp [js, codeUnits]
  rw [createIdempotencyKey, written]
  by_cases isUuid : matchesClasses uuidClasses uuid = true
  · simp [isUuid, eq_comm]
  · simp [isUuid]

theorem matchesClasses_toLowerCase (isUuid : matchesClasses uuidClasses uuid = true) :
    matchesClasses uuidClasses uuid.toLowerCase = true := by
  rw [toLowerCase, matchesClasses_map, isUuid]
  intro fits fitsMem
  apply fits_lowerUnit
  rw [keyClasses_eq]
  exact List.mem_append_right _ (List.mem_append_right _ (List.mem_cons_of_mem _ fitsMem))

theorem matchesKey_iff {ms lower : JsString} (isUuid : matchesClasses uuidClasses lower = true) :
    matchesKey (js "v1." ++ (ms ++ 46 :: lower)) = true ↔
      ms.length = 13 ∧ ∀ unit ∈ ms, isDigit unit = true := by
  have opening : (js "v1.").length = 3 := by decide
  rw [matchesKey, keyClasses_eq]
  refine ⟨?_, ?_⟩
  · intro matched
    have width := length_of_matchesClasses matched
    have uuidWidth := length_of_matchesClasses isUuid
    have decimals := all_isDigit_of_matchesClasses matched
    simp only [List.length_append, List.length_cons, List.length_nil, List.length_replicate,
      opening, uuidWidth] at width
    have msWidth : ms.length = 13 := by omega
    refine ⟨msWidth, ?_⟩
    intro unit unitMem
    apply decimals
    have after : (js "v1." ++ (ms ++ 46 :: lower)).drop 3 = ms ++ 46 :: lower := rfl
    show unit ∈ ((js "v1." ++ (ms ++ 46 :: lower)).drop 3).take 13
    rw [after, ← msWidth, List.take_left]
    exact unitMem
  · intro decimals
    refine matchesClasses_append.mpr ⟨_, _, rfl, by decide, ?_⟩
    refine matchesClasses_append.mpr ⟨ms, _, rfl, matchesClasses_replicate.mpr decimals, ?_⟩
    rw [matchesClasses, isUuid]
    rfl

theorem le_of_reaches_timeClip {time : ℤ}
    (reached : Date.reaches (some now) (timeClip time) = true) : time ≤ now.time := by
  rw [timeClip] at reached
  split at reached
  · simpa [Date.reaches] using reached
  · cases reached

theorem taken_of_issued (matched : matchesKey key = true) (issued : issuedAtMs key = now.time)
    (sha256 : Utf8 → JsString) (options : IdempotencyOptions) (store : StoreAt now)
    {request : MutationRequest} (given : request.key = some key)
    (valid : requestIsValid request = true) :
    (execute sha256 options store request).refusesKey = false := by
  have nonempty : key.length ≠ 0 := by
    rw [length_of_matchesClasses matched]
    decide
  have notLater : ¬now.time + options.futureSkewMs < issuedAtMs key := by
    have skew := options.futureSkewNonnegative
    omega
  have retained : ¬issuedAtMs key + options.retentionMs ≤ now.time := by
    have retention := options.retentionPositive
    omega
  rw [execute, checkRequest, if_neg (not_not.mpr valid), given]
  simp only [if_neg nonempty, matched, not_true_eq_false, if_false, if_neg notLater, if_neg retained]
  split
  · rfl
  · rename_i outcome answered
    cases outcome with
    | expired =>
        exact absurd (le_of_reaches_timeClip (store.compares _ answered)) retained
    | _ => rfl

/-- A key that is created works exactly when its milliseconds have thirteen digits. -/
theorem keyWorks_iff (created : createIdempotencyKey (some now) uuid = .ok key) :
    KeyWorks now uuid key ↔ 10 ^ 12 ≤ now.time ∧ now.time < 10 ^ 13 := by
  rcases created_iff.mp created with ⟨isUuid, rfl⟩
  have format := (matchesKey_iff (matchesClasses_toLowerCase isUuid)).trans
    (@length_printMs_iff now.time)
  refine ⟨fun works => format.mp works.matched, ?_⟩
  intro inYears
  have matched := format.mpr inYears
  have after : (js "v1." ++ (printMs now.time ++ 46 :: uuid.toLowerCase)).drop 3 =
      printMs now.time ++ 46 :: uuid.toLowerCase := rfl
  have width := (length_printMs_iff.mpr inYears).1
  have issued : issuedAtMs (js "v1." ++ (printMs now.time ++ 46 :: uuid.toLowerCase)) = now.time := by
    rw [issuedAtMs, after, ← width, List.take_left, printMs, if_neg (by omega), List.nil_append,
      numeral_decimal]
    omega
  have uuidOf : keyUuid (js "v1." ++ (printMs now.time ++ 46 :: uuid.toLowerCase)) =
      uuid.toLowerCase := by
    rw [keyUuid, show 17 = 3 + 14 from rfl, ← List.drop_drop, after,
      show 14 = (printMs now.time).length + 1 by rw [width], ← List.drop_drop, List.drop_left]
    rfl
  exact ⟨matched, issued, uuidOf, fun sha256 options store request =>
    taken_of_issued matched issued sha256 options store⟩

theorem keyWorks_in_2023 : KeyWorks ⟨1700000000000, by decide⟩
    (js "3F2504E0-4F89-41D3-9A0C-0305E82C3301")
    (js "v1.1700000000000.3f2504e0-4f89-41d3-9a0c-0305e82c3301") :=
  (keyWorks_iff (by decide +kernel)).mpr (by decide)

/-- The key of the epoch has one digit for its milliseconds. -/
theorem not_forall_keyWorks : ¬∀ now uuid key,
    createIdempotencyKey (some now) uuid = .ok key → KeyWorks now uuid key := by
  intro works
  have created : createIdempotencyKey (some ⟨0, by decide⟩)
      (js "3f2504e0-4f89-41d3-9a0c-0305e82c3301") =
        .ok (js "v1.0.3f2504e0-4f89-41d3-9a0c-0305e82c3301") := by decide +kernel
  have matched := (works _ _ _ created).matched
  exact absurd matched (by decide +kernel)

end StudentHub.Idempotency
