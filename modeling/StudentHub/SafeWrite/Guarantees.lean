import StudentHub.SafeWrite.Runs

/-!
# Commits are as previewed

A process keeps to a demand when every commit it asks for meets the demand, whatever
sound answers its ports give. A confirm asks only for commits that an accepted preview
led to: the MAC gives the preview, the digests give its change and its state, and the
clock is read before the token expires. The store then applies a commit only over the
state that was shown, for the owner and once for each token.
-/

namespace StudentHub.SafeWrite

open Ecma Concurrency Process

section Keeps

variable {Value Value' : Type} {demand : CommitInput → List Date → Prop}

/-- What an operation asks for is demanded, and every sound answer has what is to follow. -/
def Allows (demand : CommitInput → List Date → Prop) (op : PortOp) (readings : List Date)
    (rest : op.Answer → List Date → Prop) : Prop :=
  match op, rest with
  | .ownedRecord _, rest => ∀ record, rest record readings
  | .readField _ _, rest => ∀ before, Stable before → rest before readings
  | .now, rest => ∀ instant : Instant, rest (some instant) (readings ++ [some instant])
  | .randomBytes, rest => ∀ bytes, rest bytes readings
  | .isSpent _, rest => ∀ spent, rest spent readings
  | .spend _, rest => rest () readings
  | .commit input, rest => demand input readings ∧ ∀ answer, rest answer readings

def Keeps (demand : CommitInput → List Date → Prop) (ensures : Value → Prop) :
    Process PortOp.Answer RangeError Value → List Date → Prop
  | .returned value, _ => ensures value
  | .thrown _, _ => True
  | .perform op next, readings =>
      Allows demand op readings fun answer readings => Keeps demand ensures (next answer) readings

theorem Allows.mono {demand' : CommitInput → List Date → Prop} {op : PortOp}
    {readings : List Date} {rest rest' : op.Answer → List Date → Prop}
    (weaker : ∀ input readings, demand input readings → demand' input readings)
    (follows : ∀ answer readings, rest answer readings → rest' answer readings)
    (allows : Allows demand op readings rest) : Allows demand' op readings rest' := by
  cases op with
  | ownedRecord => exact fun record => follows _ _ (allows record)
  | readField => exact fun before stable => follows _ _ (allows before stable)
  | now => exact fun instant => follows _ _ (allows instant)
  | randomBytes => exact fun bytes => follows _ _ (allows bytes)
  | isSpent => exact fun spent => follows _ _ (allows spent)
  | spend => exact follows _ _ allows
  | commit => exact ⟨weaker _ _ allows.1, fun answer => follows _ _ (allows.2 answer)⟩

theorem keeps_check {ensures : Value → Prop} {condition : Prop} [Decidable condition]
    {refusal : Value} {rest : Process PortOp.Answer RangeError Value} {readings : List Date}
    (refused : ensures refusal) (passes : ¬condition → Keeps demand ensures rest readings) :
    Keeps demand ensures (if condition then .returned refusal else rest) readings := by
  split
  · exact refused
  · rename_i passed
    exact passes passed

theorem Keeps.mono {demand' : CommitInput → List Date → Prop} {ensures : Value → Prop}
    {process : Process PortOp.Answer RangeError Value} {readings : List Date}
    (weaker : ∀ input readings, demand input readings → demand' input readings)
    (keeps : Keeps demand ensures process readings) : Keeps demand' ensures process readings := by
  induction process generalizing readings with
  | returned value => exact keeps
  | thrown error => trivial
  | perform op next rest =>
    exact Allows.mono weaker (fun answer readings kept => rest answer kept) keeps

theorem Keeps.bind {middle : Value → Prop} {ensures : Value' → Prop}
    {process : Process PortOp.Answer RangeError Value}
    {rest : Value → Process PortOp.Answer RangeError Value'} {readings : List Date}
    (keeps : Keeps demand middle process readings)
    (continues : ∀ value readings, middle value → Keeps demand ensures (rest value) readings) :
    Keeps demand ensures (process.bind rest) readings := by
  induction process generalizing readings with
  | returned value => exact continues value readings keeps
  | thrown error => trivial
  | perform op next later =>
    exact Allows.mono (fun _ _ demanded => demanded)
      (fun answer readings kept => later answer kept) keeps

end Keeps

namespace Platform

variable (platform : Platform)

structure Shows (preview : Accepted) (before : Option JsString) (issued : UnsignedToken) : Prop where
  string : preview.request.change.value = .string preview.request.change.text
  changes : preview.changes =
    [⟨preview.request.change.field, before, preview.request.change.text⟩]
  stable : Stable before
  token : preview.token = platform.sign issued
  change : issued.changeSetDigest = platform.changeSetDigest preview.request.change
  state : issued.expectedBeforeDigest = platform.expectedStateDigest before
  principal : issued.principalRef = preview.request.principalRef
  expires : ∃ instant : Instant, issued.expiresAt = instant.toISOString

def Ensures (request : Request) (reply : Reply) : Prop :=
  match request, reply with
  | .preview request, .previewed (.accepted changes token) =>
      ∃ before issued, platform.Shows ⟨request, changes, token⟩ before issued
  | _, _ => True

variable {platform}

theorem keeps_preview {demand : CommitInput → List Date → Prop} (options : SafeWriteOptions)
    (request : PreviewRequest) :
    Keeps demand (fun result => platform.Ensures (.preview request) (.previewed result))
      (platform.preview options request) [] := by
  unfold preview
  apply keeps_check trivial
  intro _
  split
  · trivial
  rename_i valid
  intro (owned : Option JsString)
  apply keeps_check trivial
  intro _ before stable now bytes
  simp only [Option.bind_some]
  cases timeClip (now.time + options.tokenLifetimeMs) with
  | none => trivial
  | some expiresAt =>
    exact ⟨before, _, ChangeRequest.eq_string_text valid, rfl, stable, rfl, rfl, rfl, rfl,
      expiresAt, rfl⟩

structure LedBy (input : CommitInput) (readings : List Date) (preview : Accepted) : Prop where
  principal : preview.request.principalRef = input.principalRef
  person : preview.request.change.personRef = input.personRef
  changes : preview.changes = [⟨input.field, input.expectedBefore, input.value⟩]
  token : ∃ tokenId, input.tokenId = some tokenId ∧
    textMember preview.token (js "tokenId") = some tokenId
  inTime : ∃ now deadline, readings.head? = some (some now) ∧
    (textMember preview.token (js "expiresAt")).bind Date.parse = some deadline ∧
    now.time < deadline.time

def Backed (history : List Happening) (input : CommitInput) (readings : List Date) : Prop :=
  ∃ preview ∈ previews history, LedBy input readings preview

theorem not_reaches {left right : Instant}
    (earlier : ¬Date.reaches (some left) (some right) = true) : left.time < right.time := by
  simpa [Date.reaches] using earlier

theorem keeps_confirm (injective : Function.Injective platform.sha256) {history : List Happening}
    (shown : ∀ preview ∈ previews history, ∃ before issued, platform.Shows preview before issued)
    (policy : FieldPolicy) (request : ConfirmRequest)
    (authentic : platform.MacVerifies request.token → ∃ preview ∈ previews history,
      signedMessage (preview.token.delete (js "mac")) =
        signedMessage (request.token.delete (js "mac"))) :
    Keeps (Backed history) (fun _ => True) (platform.confirm policy request) [] := by
  unfold confirm
  apply keeps_check trivial
  intro _
  split
  · trivial
  rename_i valid
  apply keeps_check trivial
  intro macVerifies
  apply keeps_check trivial
  intro samePrincipal
  rcases authentic (not_not.mp macVerifies) with ⟨preview, inHistory, message⟩
  rcases shown preview inHistory with ⟨before, issued, shows⟩
  have member : ∀ {name text}, (name, text) ∈ issued.members →
      textMember request.token name = some text ∧ textMember preview.token name = some text := by
    intro name text memberMem
    rw [shows.token, delete_sign] at message
    rw [shows.token, textMember_sign memberMem, ← textMember_delete (ne_mac_of_mem_members memberMem)]
    exact ⟨textMember_of_signedMessage_eq message.symm memberMem, rfl⟩
  have tokenId := @member (js "tokenId") issued.tokenId (by simp [UnsignedToken.members])
  have digest := @member (js "changeSetDigest") issued.changeSetDigest
    (by simp [UnsignedToken.members])
  have state := @member (js "expectedBeforeDigest") issued.expectedBeforeDigest
    (by simp [UnsignedToken.members])
  have principal := @member (js "principalRef") issued.principalRef
    (by simp [UnsignedToken.members])
  have expires := @member (js "expiresAt") issued.expiresAt (by simp [UnsignedToken.members])
  intro (spent : Bool)
  apply keeps_check trivial
  intro _ now
  apply keeps_check trivial
  intro early
  apply keeps_check trivial
  intro sameDigest (owned : Option JsString)
  apply keeps_check trivial
  intro _ current stable
  apply keeps_check trivial
  intro sameState later
  rw [not_not, digest.1, shows.change, Option.some.injEq] at sameDigest
  rw [not_not, state.1, shows.state, Option.some.injEq] at sameState
  rw [not_not, principal.1, shows.principal, Option.some.injEq] at samePrincipal
  rcases eq_of_changeSetDigest_eq injective shows.string (ChangeRequest.eq_string_text valid)
    sameDigest with ⟨samePerson, sameField, sameText⟩
  rw [← eq_of_expectedStateDigest_eq injective shows.stable stable sameState]
  rcases shows.expires with ⟨deadline, written⟩
  refine ⟨⟨preview, inHistory, samePrincipal, samePerson, ?_, ⟨issued.tokenId, tokenId.1, tokenId.2⟩,
    now, deadline, rfl, ?_, ?_⟩, ?_⟩
  · rw [shows.changes, sameField, sameText]
  · rw [expires.2, written, Option.bind_some, Date.parse_toISOString]
  · rw [parseDate, expires.1, written, Option.bind_some, Date.parse_toISOString,
      Option.some_or] at early
    exact not_reaches early
  · intro outcome
    cases outcome <;> trivial

theorem keeps_process (injective : Function.Injective platform.sha256) {history : List Happening}
    (shown : ∀ preview ∈ previews history, ∃ before issued, platform.Shows preview before issued)
    (options : SafeWriteOptions) (request : Request)
    (authentic : ∀ confirm, request = .confirm confirm → platform.MacVerifies confirm.token →
      ∃ preview ∈ previews history, signedMessage (preview.token.delete (js "mac")) =
        signedMessage (confirm.token.delete (js "mac"))) :
    Keeps (Backed history) (platform.Ensures request) (platform.process options request) [] := by
  cases request with
  | preview request =>
    apply (keeps_preview options request).bind
    intro result readings ensured
    exact ensured
  | confirm request =>
    apply (keeps_confirm injective shown options.policy request (authentic request rfl)).bind
    intro result readings _
    trivial

end Platform

theorem mem_previews {history : List Happening} {preview : Accepted} :
    preview ∈ previews history ↔ .accepted preview ∈ history := by
  rw [previews, List.mem_filterMap]
  refine ⟨?_, fun inHistory => ⟨_, inHistory, rfl⟩⟩
  rintro ⟨happening, inHistory, same⟩
  cases happening with
  | accepted other => rwa [← Option.some.inj same]
  | committed commit => simp at same

theorem Backed.cons {history : List Happening} {input : CommitInput} {readings : List Date}
    (happening : Happening) (backed : Platform.Backed history input readings) :
    Platform.Backed (happening :: history) input readings := by
  rcases backed with ⟨preview, inHistory, led⟩
  exact ⟨preview, mem_previews.mpr (List.mem_cons_of_mem _ (mem_previews.mp inHistory)), led⟩

def Justified (platform : Platform) (earlier : List Happening) : Happening → Prop
  | .accepted preview => ∃ before issued, platform.Shows preview before issued
  | .committed commit => AsPreviewed commit earlier

structure Sound (platform : Platform) (world : World) : Prop where
  chronicle : Chronicle (Justified platform) world.history
  calls : ∀ id call, world.calls.get? id = some call →
    Keeps (Platform.Backed world.history) (platform.Ensures call.request) call.process
      call.readings

variable {platform : Platform} {world : World}

theorem sound_start (values : JsString × JsString → Option JsString)
    (owners : JsString → Option JsString) : Sound platform (World.start values owners) where
  chronicle := Chronicle.nil
  calls := by simp [World.start]

theorem Sound.shown (sound : Sound platform world) (preview : Accepted)
    (inHistory : preview ∈ previews world.history) :
    ∃ before issued, platform.Shows preview before issued := by
  rcases sound.chronicle.of_mem (mem_previews.mp inHistory) with ⟨earlier, -, shows⟩
  exact shows

theorem Sound.resume (sound : Sound platform world) (id : ℕ) (call : Call)
    (keeps : Keeps (Platform.Backed world.history) (platform.Ensures call.request) call.process
      call.readings) : Sound platform (world.resume id call) := by
  have others : ∀ other kept, (world.calls.delete id).get? other = some kept →
      Keeps (Platform.Backed world.history) (platform.Ensures kept.request) kept.process
        kept.readings := by
    intro other kept found
    rw [OrderedMap.get?_delete] at found
    split at found
    · simp at found
    · exact sound.calls other kept found
  unfold World.resume
  split
  · refine ⟨sound.chronicle, ?_⟩
    intro other kept found
    simp only [OrderedMap.get?_set] at found
    split at found
    · rw [← Option.some.inj found]
      exact keeps
    · exact sound.calls other kept found
  · rename_i changes token request isReturned isPreview
    rw [isReturned, isPreview] at keeps
    refine ⟨sound.chronicle.cons keeps, ?_⟩
    intro other kept found
    exact (others other kept found).mono fun _ _ => Backed.cons _
  · exact ⟨sound.chronicle, others⟩

theorem Sound.apply (sound : Sound platform world) {input : CommitInput} {readings : List Date}
    (admits : world.Admits input) (backed : Platform.Backed world.history input readings) :
    Sound platform (world.apply input readings) where
  chronicle := by
    apply sound.chronicle.cons
    rcases backed with ⟨preview, inHistory, led⟩
    refine ⟨admits.2.1, ⟨preview, inHistory, led.principal, led.person, ?_, led.token,
      led.inTime⟩, ?_⟩
    · rw [led.changes, admits.2.2]
    · intro shown shows other otherMem otherShows
      rcases shows.token with ⟨tokenId, named, held⟩
      rcases otherShows.token with ⟨otherId, otherNamed, otherHeld⟩
      apply admits.1
      rw [List.mem_map]
      refine ⟨other, otherMem, ?_⟩
      rw [otherNamed, ← otherHeld, held]
      exact named.symm
  calls := fun id call found => (sound.calls id call found).mono fun _ _ => Backed.cons _

theorem Sound.answer (sound : Sound platform world) {call : Call} {op : PortOp}
    {reply : PortReply} {answer : op.Answer} {after : World}
    {next : op.Answer → Process PortOp.Answer RangeError Reply}
    (allows : Allows (Platform.Backed world.history) op call.readings fun answer readings =>
      Keeps (Platform.Backed world.history) (platform.Ensures call.request) (next answer) readings)
    (fair : reply.Sound) (answered : world.answer call op reply = some (answer, after)) :
    Sound platform after ∧ Keeps (Platform.Backed after.history) (platform.Ensures call.request)
      (next answer) (call.readings ++ reply.readings) := by
  cases op with
  | ownedRecord principalRef =>
    cases reply with
    | ownedRecord record =>
      simp only [World.answer] at answered
      cases answered
      simp only [PortReply.readings, List.append_nil]
      exact ⟨sound, allows _⟩
    | _ => simp [World.answer] at answered
  | readField personRef field =>
    cases reply with
    | readField value =>
      simp only [World.answer] at answered
      cases answered
      simp only [PortReply.readings, List.append_nil]
      exact ⟨sound, allows _ fair⟩
    | _ => simp [World.answer] at answered
  | now =>
    cases reply with
    | now date =>
      simp only [World.answer] at answered
      cases answered
      rcases Option.ne_none_iff_exists'.mp fair with ⟨instant, rfl⟩
      exact ⟨sound, allows instant⟩
    | _ => simp [World.answer] at answered
  | randomBytes =>
    cases reply with
    | randomBytes bytes =>
      simp only [World.answer] at answered
      cases answered
      simp only [PortReply.readings, List.append_nil]
      exact ⟨sound, allows _⟩
    | _ => simp [World.answer] at answered
  | isSpent tokenId =>
    cases reply with
    | tokenSet =>
      simp only [World.answer] at answered
      cases answered
      simp only [PortReply.readings, List.append_nil]
      exact ⟨sound, allows _⟩
    | _ => simp [World.answer] at answered
  | spend tokenId =>
    cases reply with
    | tokenSet =>
      simp only [World.answer] at answered
      cases answered
      simp only [PortReply.readings, List.append_nil]
      exact ⟨⟨sound.chronicle, sound.calls⟩, allows⟩
    | _ => simp [World.answer] at answered
  | commit input =>
    cases reply with
    | commit outcome =>
      simp only [PortReply.readings, List.append_nil]
      cases outcome with
      | accepted =>
        simp only [World.answer, Option.ite_none_right_eq_some] at answered
        rcases answered with ⟨admits, answered⟩
        cases answered
        exact ⟨sound.apply admits allows.1, (allows.2 _).mono fun _ _ => Backed.cons _⟩
      | refused reason =>
        simp only [World.answer] at answered
        cases answered
        exact ⟨sound, allows.2 _⟩
      | threw =>
        simp only [World.answer] at answered
        cases answered
        exact ⟨sound, allows.2 _⟩
    | _ => simp [World.answer] at answered

theorem Sound.step (sound : Sound platform world) (id : ℕ) {reply : PortReply}
    (fair : reply.Sound) : Sound platform (world.step id reply) := by
  unfold World.step
  split
  · exact sound
  rename_i call found
  split
  · rename_i op next asked
    split
    · exact sound
    · rename_i answer after answered
      have keeps := sound.calls id call found
      rw [asked] at keeps
      rcases sound.answer keeps fair answered with ⟨afterSound, goesOn⟩
      exact afterSound.resume id _ goesOn
  · exact sound

variable {options : ℕ → SafeWriteOptions}

theorem Sound.next (sound : Sound platform world) (injective : Function.Injective platform.sha256)
    {event : Event} (authentic : world.Authentic platform event) (fair : event.Sound) :
    Sound platform (world.next platform options event) := by
  cases event with
  | start id service request =>
    simp only [World.next]
    split
    · exact sound
    · apply sound.resume
      apply Platform.keeps_process injective sound.shown
      rintro confirm rfl
      exact authentic
  | reply id reply => exact sound.step id fair
  | fail id =>
    refine ⟨sound.chronicle, ?_⟩
    intro other kept found
    simp only [World.next, OrderedMap.get?_delete] at found
    split at found
    · simp at found
    · exact sound.calls other kept found
  | own principalRef record => exact ⟨sound.chronicle, sound.calls⟩
  | write personRef field value => exact ⟨sound.chronicle, sound.calls⟩

theorem Sound.run (sound : Sound platform world) (injective : Function.Injective platform.sha256)
    {events : List Event} (unforged : world.Unforged platform options events)
    (fair : ∀ event ∈ events, event.Sound) : Sound platform (world.run platform options events) := by
  induction events generalizing world with
  | nil => exact sound
  | cons event rest later =>
    rw [List.forall_mem_cons] at fair
    exact later (sound.next injective unforged.1 fair.1) unforged.2 fair.2

end StudentHub.SafeWrite

/-!
## Safe writes do what was previewed

In runs whose reads give states without lone surrogates and whose clocks give valid dates,
every commit is one that a preview has shown. The bytes of a state digest do not tell two
lone surrogates apart, and there a commit replaces a value that no preview has shown.
-/

namespace StudentHub.SafeWrite

open Ecma

/-- In every run from a store, with SHA-256 injective, no MAC forged and every read value and
date sound, each commit is as an earlier preview has shown it. -/
theorem run_commits_as_previewed (platform : Platform) (options : ℕ → SafeWriteOptions)
    (values : JsString × JsString → Option JsString) (owners : JsString → Option JsString)
    (events : List Event) (injective : Function.Injective platform.sha256)
    (unforged : (World.start values owners).Unforged platform options events)
    (fair : ∀ event ∈ events, event.Sound) (commit : Committed) (earlier : List Happening)
    (committed : .committed commit :: earlier <:+
      ((World.start values owners).run platform options events).history) :
    AsPreviewed commit earlier :=
  ((sound_start values owners).run injective unforged fair).chronicle _ _ committed

namespace Scenario

def person : JsString := js "bbe319014891bd7b2910cc327b24fa9a1e7d444daaedca45eef72f1a6186156a"

def owner : JsString := js "a1d5d4103d619e71d41f4d8e96798978615d95d0ed9f31a860b4524840fd8ccf"

def changeDigest : JsString :=
  js "e218a49dda6ea0e73af1e0762bf116eb814a6c52f64c1d855243d43e14170b81"

def graceDigest : JsString :=
  js "ec75f466d071595691329ae5aa4d7f43d92063e7c88a82fbf389137d279018b7"

def replacementDigest : JsString :=
  js "bdf52129aff0e2bc5c5d3326bfa4081e4cc6e6ba55994058fee40887f373b067"

def message (stateDigest : JsString) : JsString :=
  js "3.0.0\n\x7b\"changeSetDigest\":\"" ++ changeDigest ++
    js "\",\"expectedBeforeDigest\":\"" ++ stateDigest ++
    js "\",\"expiresAt\":\"2026-09-08T12:05:00.000Z\",\"issuedAt\":\"2026-09-08T12:00:00.000Z\"" ++
    js ",\"principalRef\":\"" ++ owner ++
    js "\",\"tokenId\":\"000102030405060708090a0b0c0d0e0f\"\x7d"

/-- SHA-256 and the HMAC under a secret, by their values at the messages of the runs below. -/
def platform : Platform where
  sha256 := tabulated
    [(js "3.0.0\n\x7b\"field\":\"display_name\",\"personRef\":\"" ++ person ++
        js "\",\"value\":\"Ada\"\x7d", changeDigest),
      (js "3.0.0\npresent\nGrace", graceDigest),
      (js "3.0.0\npresent\n\uFFFD", replacementDigest),
      (js "000102030405060708090a0b0c0d0e0f\n" ++ changeDigest ++ js "\n2026-09-08T12:01:00.000Z",
        js "f2d34621a52e91b9b03ab8332adb2aaa0df3629c3ec059f3f4a633571dec06f1")]
  hmac := tabulated
    [(message graceDigest, js "CyafsXxgammHiqUI0hIq4WeGq42JkClkIeV1j_Gvi7w"),
      (message replacementDigest, js "lLpDpS3gCftiiMsjG6XPrsc59MOY5GdYFDneRW4VblU")]
  parseOther := fun _ => none

def options : ℕ → SafeWriteOptions :=
  fun _ => ⟨⟨[js "display_name", js "pronouns"], 64, false⟩, defaultTokenLifetimeMs⟩

def change : ChangeRequest := ⟨person, js "display_name", .string (js "Ada")⟩

def noon : Instant := .sample

def minuteLater : Instant := ⟨1788868860000, by decide⟩

def token (before : Option JsString) : ActionToken :=
  platform.sign
    { tokenId := js "000102030405060708090a0b0c0d0e0f"
      changeSetDigest := platform.changeSetDigest change
      expectedBeforeDigest := platform.expectedStateDigest before
      principalRef := owner
      issuedAt := js "2026-09-08T12:00:00.000Z"
      expiresAt := js "2026-09-08T12:05:00.000Z" }

def values (before : Option JsString) : JsString × JsString → Option JsString :=
  Function.update (fun _ => none) (person, js "display_name") before

def owners : JsString → Option JsString := Function.update (fun _ => none) owner (some person)

/-- A preview shows one value, another is written, and two instances confirm. -/
def events (before current : Option JsString) : List Event :=
  [.start 0 0 (.preview ⟨change, owner⟩),
    .reply 0 (.ownedRecord (some person)),
    .reply 0 (.readField before),
    .reply 0 (.now (some noon)),
    .reply 0 (.randomBytes (js "000102030405060708090a0b0c0d0e0f")),
    .write person (js "display_name") current,
    .start 1 1 (.confirm ⟨token before, change, owner⟩),
    .start 2 2 (.confirm ⟨token before, change, owner⟩),
    .reply 1 .tokenSet,
    .reply 1 (.now (some minuteLater)),
    .reply 1 (.ownedRecord (some person)),
    .reply 2 .tokenSet,
    .reply 2 (.now (some minuteLater)),
    .reply 2 (.ownedRecord (some person)),
    .reply 1 (.readField current),
    .reply 2 (.readField current),
    .reply 1 (.now (some minuteLater)),
    .reply 2 (.now (some minuteLater)),
    .reply 1 (.commit .accepted),
    .reply 2 (.commit .accepted),
    .reply 2 (.commit (.refused .tokenAlreadyUsed)),
    .reply 1 .tokenSet]

def history (before current : Option JsString) : List Happening :=
  ((World.start (values before) owners).run platform options (events before current)).history

theorem injective_sha256 : Function.Injective platform.sha256 := by
  apply injective_tabulated <;> decide +kernel

def replacesGrace : List Happening → Bool
  | [.committed commit, .accepted _] => decide (commit.replaced = some (js "Grace"))
  | _ => false

def replacesUnseen : List Happening → Bool
  | [.committed commit, .accepted preview] =>
      decide (preview.changes = [⟨js "display_name", some [0xD800], js "Ada"⟩] ∧
        commit.replaced = some [0xD801])
  | _ => false

end Scenario

/-- Two confirms of one preview, of which one commits. -/
theorem run_commits_as_previewed_race : ∃ commit earlier,
    .committed commit :: earlier <:+ Scenario.history (some (js "Grace")) (some (js "Grace")) ∧
      commit.replaced = some (js "Grace") ∧ AsPreviewed commit earlier := by
  have shape : Scenario.replacesGrace (Scenario.history (some (js "Grace")) (some (js "Grace"))) =
      true := by decide +kernel
  rw [Scenario.replacesGrace.eq_def] at shape
  split at shape
  · rename_i commit preview happened
    refine ⟨commit, [.accepted preview], ?_, of_decide_eq_true shape, ?_⟩
    · rw [happened]
    · apply run_commits_as_previewed Scenario.platform Scenario.options
        (Scenario.values (some (js "Grace"))) Scenario.owners
        (Scenario.events (some (js "Grace")) (some (js "Grace"))) Scenario.injective_sha256
        (by decide +kernel) (by decide +kernel)
      exact happened ▸ List.suffix_refl _
  · contradiction

/-- The lone surrogate U+D800 is shown, the lone surrogate U+D801 is replaced. -/
theorem run_replaces_unseen : Function.Injective Scenario.platform.sha256 ∧
    (World.start (Scenario.values (some [0xD800])) Scenario.owners).Unforged Scenario.platform
      Scenario.options (Scenario.events (some [0xD800]) (some [0xD801])) ∧
    ∃ commit earlier,
      .committed commit :: earlier <:+ Scenario.history (some [0xD800]) (some [0xD801]) ∧
        ¬AsPreviewed commit earlier := by
  refine ⟨Scenario.injective_sha256, by decide +kernel, ?_⟩
  have shape : Scenario.replacesUnseen (Scenario.history (some [0xD800]) (some [0xD801])) = true := by
    decide +kernel
  rw [Scenario.replacesUnseen.eq_def] at shape
  split at shape
  · rename_i commit preview happened
    refine ⟨commit, [.accepted preview], happened ▸ List.suffix_refl _, ?_⟩
    intro asPreviewed
    rcases asPreviewed.shown with ⟨other, otherMem, shown⟩
    have same : other = preview := by simpa [previews] using otherMem
    rw [decide_eq_true_eq, ← same, shown.changes] at shape
    rw [shape.2] at shape
    simp at shape
  · contradiction

end StudentHub.SafeWrite

/-!
## What the digests keep apart

The digest of a state is that of its UTF-8 bytes, and every lone surrogate has the bytes of the
replacement character. The digest of a change is that of its JSON text, in which a lone surrogate
is written as its escape.
-/

namespace StudentHub.SafeWrite

open Ecma Ecma.JsString Ecma.Json

/-- The states have the same bytes and are not the same. -/
def Confused (left right : Option JsString) : Prop :=
  left ≠ right ∧ left.map toWellFormed = right.map toWellFormed

instance (left right : Option JsString) : Decidable (Confused left right) :=
  inferInstanceAs (Decidable (_ ∧ _))

/-- Equal digests are those of one state or of one change. -/
structure Platform.TellsApart (platform : Platform) (left right : Option JsString)
    (change other : ChangeRequest) : Prop where
  states : platform.expectedStateDigest left = platform.expectedStateDigest right → left = right
  changes : platform.changeSetDigest change = platform.changeSetDigest other →
    change.personRef = other.personRef ∧ change.field = other.field ∧ change.text = other.text
  kinds : platform.expectedStateDigest left ≠ platform.changeSetDigest change

namespace Platform

variable {platform : Platform} {left right : Option JsString} {change other : ChangeRequest}

def stateMessage (before : Option JsString) : JsString :=
  safeWriteContractVersion ++ [10] ++ (if before = none then js "absent" else js "present") ++ [10] ++
    before.getD []

theorem toWellFormed_stateMessage (before : Option JsString) :
    (stateMessage before).toWellFormed = safeWriteContractVersion ++ [10] ++
      (if before = none then js "absent" else js "present") ++ [10] ++
        (before.getD []).toWellFormed :=
  (wellFormed_statePrefix before).toWellFormed_append _

theorem expectedStateDigest_eq_iff (injective : Function.Injective platform.sha256) :
    platform.expectedStateDigest left = platform.expectedStateDigest right ↔
      left.map toWellFormed = right.map toWellFormed := by
  have bytes : platform.expectedStateDigest left = platform.expectedStateDigest right ↔
      (stateMessage left).toWellFormed = (stateMessage right).toWellFormed := by
    refine ⟨?_, ?_⟩
    · intro same
      exact congrArg Utf8.text (injective same)
    · intro same
      exact congrArg platform.sha256 (Utf8.ext same)
  rw [bytes, toWellFormed_stateMessage, toWellFormed_stateMessage]
  have empty : toWellFormed [] = [] := rfl
  have apart : ∀ text : JsString, safeWriteContractVersion ++ [10] ++ js "absent" ++ [10] ≠
      safeWriteContractVersion ++ [10] ++ js "present" ++ [10] ++ text := by
    intro text same
    have unit := congrArg (fun text => text[6]?) same
    simp [safeWriteContractVersion, js, codeUnits] at unit
  cases left with
  | none =>
      cases right with
      | none => simp
      | some text => simpa [empty] using apart text.toWellFormed
  | some text =>
      cases right with
      | none => simpa [empty] using (apart text.toWellFormed).symm
      | some other => simp

theorem expectedStateDigest_ne_changeSetDigest (injective : Function.Injective platform.sha256)
    (before : Option JsString) (change : ChangeRequest) :
    platform.expectedStateDigest before ≠ platform.changeSetDigest change := by
  intro same
  have texts := congrArg Utf8.text (injective same)
  have isObject : ∃ rest, canonicalText (.object [(js "personRef", .string change.personRef),
      (js "field", .string change.field), (js "value", change.value)]) = 123 :: rest := by
    rcases exists_sorted_object [(js "personRef", .string change.personRef),
      (js "field", .string change.field), (js "value", change.value)] with ⟨ordered, isSorted, -⟩
    rw [canonicalText, isSorted]
    exact ⟨_, rfl⟩
  rcases isObject with ⟨rest, isObject⟩
  have opens := wellFormed_versioned (wellFormed_canonicalText (.object
    [(js "personRef", .string change.personRef), (js "field", .string change.field),
      (js "value", change.value)]))
  have stated : (stateMessage before).toWellFormed = _ := texts.trans opens
  rw [toWellFormed_stateMessage, isObject] at stated
  have unit := congrArg (fun text => text[6]?) stated
  cases before <;> simp [safeWriteContractVersion, js, codeUnits] at unit

/-- The digests keep everything apart but two states with the same bytes. -/
theorem tellsApart_iff (injective : Function.Injective platform.sha256)
    (isString : change.value = .string change.text) (isString' : other.value = .string other.text) :
    platform.TellsApart left right change other ↔ ¬Confused left right := by
  refine ⟨?_, ?_⟩
  · rintro tells ⟨different, sameBytes⟩
    exact different (tells.states ((expectedStateDigest_eq_iff injective).mpr sameBytes))
  · intro notConfused
    refine ⟨?_, eq_of_changeSetDigest_eq injective isString isString',
      expectedStateDigest_ne_changeSetDigest injective left change⟩
    intro same
    by_contra different
    exact notConfused ⟨different, (expectedStateDigest_eq_iff injective).mp same⟩

theorem tellsApart_grace :
    Scenario.platform.TellsApart (some (js "Grace")) (some (js "\uFFFD")) Scenario.change
      Scenario.change :=
  (tellsApart_iff Scenario.injective_sha256 rfl rfl).mpr (by decide)

/-- A lone surrogate has the digest of the replacement character. -/
theorem not_tellsApart_surrogate : Function.Injective Scenario.platform.sha256 ∧
    ¬Scenario.platform.TellsApart (some [0xD800]) (some [0xFFFD]) Scenario.change
      Scenario.change := by
  refine ⟨Scenario.injective_sha256, ?_⟩
  intro tells
  have sameState := tells.states (by decide +kernel)
  exact absurd sameState (by decide)

end Platform

end StudentHub.SafeWrite
