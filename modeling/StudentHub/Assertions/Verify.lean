import StudentHub.Concurrency.Progress
import StudentHub.Ecma.Objects

/-!
# Actor assertions

A call of `verifyAssertion` decodes the claims of a token and reads the clock, waits for the
key of the issuer, checks the signature and the subject and asks the replay store at last.
Many calls share one store; each is a task that can be overtaken by others where it awaits.
-/

namespace StudentHub.Assertions

open Ecma JsString Concurrency FiniteNumber

inductive AssertionErrorCode
  | malformed
  | badSignature
  | unknownIssuer
  | expired
  | futureIat
  | audMismatch
  | subjectFormat
  | wrongSubject
  | replayed
  | unavailable
  deriving DecidableEq

structure ActorAssertionAct where
  org : Option JsString
  role : Option JsString
  deriving DecidableEq

structure ActorAssertionClaims where
  iss : JsString
  aud : JsString
  sub : JsString
  iat : FiniteNumber
  exp : FiniteNumber
  jti : JsString
  kid : Option JsString
  act : Option ActorAssertionAct
  deriving DecidableEq

inductive VerifyResult
  | ok (claims : ActorAssertionClaims)
  | fail (code : AssertionErrorCode)
  deriving DecidableEq

/-- The decoders and the signature check of the runtime; what throws answers nothing. -/
structure AssertionHost where
  /-- `JSON.parse` of the base64url text. -/
  parsePayload : JsString → Option JsValue
  /-- `verify` with the public key, the text that is signed and the signature. -/
  verifySignature : JsString → JsString → JsString → Option Bool

structure VerifyOptions where
  expectedAudience : JsString
  humanSubjectPattern : JsString → Bool
  expectedSubject : Option JsString
  maxIatSkewSeconds : ℤ := 300

structure VerifyCall where
  token : JsValue
  options : VerifyOptions
  now : ℤ

def filledText : JsValue → Option JsString
  | .string [] => none
  | .string text => some text
  | _ => none

/-- A member that may be missing, but is a string that is not empty if it is there. -/
def optionalText (value : JsValue) : Option (Option JsString) :=
  match value with
  | .undefined => some none
  | found => (filledText found).map some

def finiteNumber : JsValue → Option FiniteNumber
  | .number (.finite number) => some number
  | _ => none

def decodeAct (value : JsValue) : Option (Option ActorAssertionAct) :=
  match value with
  | .undefined => some none
  | .object properties => do
      let act := JsValue.object properties
      let org ← optionalText (act.get (js "org"))
      let role ← optionalText (act.get (js "role"))
      return some ⟨org, role⟩
  | _ => none

def decodeClaims (host : AssertionHost) (payload : JsString) : Option ActorAssertionClaims := do
  let parsed ← host.parsePayload payload
  if !(parsed.get (js "v")).strictEq (.number (.ofNat 1)) then
    none
  let iss ← filledText (parsed.get (js "iss"))
  let aud ← filledText (parsed.get (js "aud"))
  let sub ← match parsed.get (js "sub") with
    | .string text => some text
    | _ => none
  let iat ← finiteNumber (parsed.get (js "iat"))
  let exp ← finiteNumber (parsed.get (js "exp"))
  let jti ← filledText (parsed.get (js "jti"))
  let kid ← optionalText (parsed.get (js "kid"))
  let act ← decodeAct (parsed.get (js "act"))
  return ⟨iss, aud, sub, iat, exp, jti, kid, act⟩

def envelopeParts (token : JsValue) : Option (JsString × JsString) :=
  match token with
  | .string text =>
      match text.splitOn 46 with
      | [front, version, payload, signature] =>
          if front = js "bawes-aa" ∧ version = js "v1" then some (payload, signature) else none
      | _ => none
  | _ => none

inductive Op
  | resolvePublicKey (iss : JsString) (kid : Option JsString)
  | consume (iss jti : JsString) (exp : FiniteNumber) (now : ℤ)

/-- What it gets; what rejects answers nothing. A key that is not found is empty. -/
def Answer : Op → Type
  | .resolvePublicKey _ _ => Option JsString
  | .consume _ _ _ _ => Option Bool

abbrev Verification := Process Answer Empty VerifyResult

open Process

def checkClaims (host : AssertionHost) (options : VerifyOptions) (claims : ActorAssertionClaims)
    (payload signature publicKey : JsString) : Option AssertionErrorCode :=
  if publicKey = [] then
    some .unknownIssuer
  else if host.verifySignature publicKey (js "bawes-aa.v1." ++ payload) signature ≠ some true then
    some .badSignature
  else if claims.aud ≠ options.expectedAudience then
    some .audMismatch
  else if !options.humanSubjectPattern claims.sub then
    some .subjectFormat
  else if options.expectedSubject.any fun expected => claims.sub ≠ expected then
    some .wrongSubject
  else
    none

def askStore (claims : ActorAssertionClaims) (now : ℤ) : Verification :=
  perform (.consume claims.iss claims.jti claims.exp now) fun replayed : Option Bool =>
    match replayed with
    | none => returned (.fail .unavailable)
    | some true => returned (.fail .replayed)
    | some false => returned (.ok claims)

def withKey (host : AssertionHost) (call : VerifyCall) (claims : ActorAssertionClaims)
    (payload signature : JsString) (key : Option JsString) : Verification :=
  match key with
  | none => returned (.fail .unavailable)
  | some publicKey =>
      match checkClaims host call.options claims payload signature publicKey with
      | some code => returned (.fail code)
      | none => askStore claims call.now

def verifyAssertion (host : AssertionHost) (call : VerifyCall) : Verification :=
  match envelopeParts call.token with
  | none => returned (.fail .malformed)
  | some (payload, signature) =>
      match decodeClaims host payload with
      | none => returned (.fail .malformed)
      | some claims =>
          if atMost claims.exp call.now then
            returned (.fail .expired)
          else if !atMost claims.iat (call.now + call.options.maxIatSkewSeconds) then
            returned (.fail .futureIat)
          else
            perform (.resolvePublicKey claims.iss claims.kid)
              (withKey host call claims payload signature)

abbrev Seen := OrderedMap JsString FiniteNumber

namespace MemoryReplayStore

def key (issuer jti : JsString) : JsString := issuer ++ 0 :: jti

def consume (seen : Seen) (issuer jti : JsString) (expiresAt : FiniteNumber) (now : ℤ) :
    Bool × Seen :=
  let pruned := seen.filter fun _ exp => !atMost exp now
  if pruned.has (key issuer jti) then (true, pruned) else (false, pruned.set (key issuer jti) expiresAt)

theorem key_injective {issuer issuer' jti jti' : JsString} (plain : 0 ∉ issuer)
    (plain' : 0 ∉ issuer') (same : key issuer jti = key issuer' jti') :
    issuer = issuer' ∧ jti = jti' := by
  induction issuer generalizing issuer' with
  | nil =>
    cases issuer' with
    | nil =>
      simp only [key, List.nil_append, List.cons.injEq, true_and] at same
      exact ⟨rfl, same⟩
    | cons unit rest =>
      simp only [key, List.nil_append, List.cons_append, List.cons.injEq] at same
      exact absurd (same.1 ▸ List.mem_cons_self) plain'
  | cons unit rest ih =>
    cases issuer' with
    | nil =>
      simp only [key, List.nil_append, List.cons_append, List.cons.injEq] at same
      exact absurd (same.1 ▸ List.mem_cons_self) plain
    | cons unit' rest' =>
      simp only [key, List.cons_append, List.cons.injEq] at same
      rcases ih (fun inside => plain (List.mem_cons_of_mem _ inside))
        (fun inside => plain' (List.mem_cons_of_mem _ inside)) same.2 with ⟨sameRest, sameJti⟩
      exact ⟨by rw [same.1, sameRest], sameJti⟩

end MemoryReplayStore

structure Consultation where
  caller : ℕ
  iss : JsString
  jti : JsString
  exp : FiniteNumber
  now : ℤ
  replayed : Bool
  deriving DecidableEq

structure Shared where
  seen : Seen := .empty
  history : List Consultation := []

/-- A step of a call; `given` is the key that the resolver answers with. -/
def handle : Handler Answer (Option JsString) Shared
  | _, .resolvePublicKey _ _, given, shared => (given, shared)
  | me, .consume iss jti exp now, _, shared =>
      let (replayed, seen) := MemoryReplayStore.consume shared.seen iss jti exp now
      (some replayed, ⟨seen, ⟨me, iss, jti, exp, now, replayed⟩ :: shared.history⟩)

abbrev World := TaskWorld Answer Empty VerifyResult Shared

abbrev Event := TaskEvent VerifyCall (Option JsString)

/-- The world after the events, in a process that starts with an empty store. -/
def reach (host : AssertionHost) (events : List Event) : World :=
  (TaskWorld.initial {}).run handle (verifyAssertion host) events

def calls (events : List Event) : List VerifyCall := startedBy events

def outcomes (world : World) : List (Option VerifyResult) :=
  world.tasks.map fun task =>
    match task with
    | some (returned result) => some result
    | _ => none

end StudentHub.Assertions
