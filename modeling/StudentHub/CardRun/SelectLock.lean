import StudentHub.CardRun.Claims
import StudentHub.Ecma.KeyOrder

/-!
# The selection lock

A start holds the selection lock while it selects a card. The lock is a claim file that names its
holder by its number and the time of its start. A lock whose holder is gone is taken over: one
process at a time creates the takeover marker, reads the lock again, and removes it when it still
has the text that was judged. Nobody else touches the lock or the marker.
-/

namespace StudentHub.CardRun

open Ecma JsString Json Concurrency

structure Claimant where
  worker : ℕ
  pid : ℕ
  start : ℕ
  safeWorker : worker ≤ MAX_SAFE_INTEGER
  safePid : pid ≤ MAX_SAFE_INTEGER
  positive : 0 < pid

instance : DecidableEq Claimant := fun left right =>
  decidable_of_iff
    (left.worker = right.worker ∧ left.pid = right.pid ∧ left.start = right.start)
    (by rw [Claimant.mk.injEq])

namespace Claimant

/-- `claimant`, of a process that can read its own start. -/
def toValue (claimant : Claimant) : JsValue :=
  .object [(js "worker", .number (.ofNat claimant.worker)),
    (js "pid", .number (.ofNat claimant.pid)),
    (js "pid_start", .string (decimal claimant.start))]

def text (claimant : Claimant) : JsString := (stringify claimant.toValue).getD [] ++ js "\n"

end Claimant

/-- The fields of a text that `holderAlive` reads; a number that is none of a process is left out. -/
structure Holder where
  pid : ℕ
  start : JsValue

def holderOf (reader : JsonReader) (text : JsString) : Option Holder :=
  (parse reader.round text).bind fun holder =>
    if holder.truthy then
      (positiveInteger (holder.get (js "pid"))).map fun pid =>
        ⟨pid.value, holder.get (js "pid_start")⟩
    else
      none

def selectLock : JsString := js "card-run-select.lock"

def takeover : JsString := selectLock ++ js ".takeover"

inductive LinkResult
  | linked
  | taken
  | failed
  deriving DecidableEq

/-- Where a process is in `takeSelectLock`, in `publishClaim` and `clearStaleSelectLock`, which that
calls, and in the release that it returns: the file operation that comes next, with the text that
it judges and the file that it has open. -/
inductive SelectPhase
  | idle
  | starting
  | opened (inode : ℕ)
  | written
  | cleaning (result : LinkResult)
  | holding
  | judging
  | reading (inode : ℕ)
  | proving (text : JsString) (holder : Holder)
  | timing (text : JsString) (holder : Holder)
  | marking (text : JsString)
  | naming (text : JsString) (inode : ℕ)
  | rereading (text : JsString)
  | comparing (text : JsString) (inode : ℕ)
  | removing (text : JsString)
  | clearing
  | waiting

structure SelectProcess where
  claimant : Claimant
  phase : SelectPhase

structure SelectWorld where
  disk : Disk ClaimName JsString
  processes : ℕ → Option SelectProcess
  born : List Claimant

inductive SelectEvent
  | start (claimant : Claimant)
  | take (pid : ℕ)
  | step (pid : ℕ) (fault : Bool)
  | die (pid : ℕ)
  deriving DecidableEq

namespace SelectWorld

def setPhase (world : SelectWorld) (claimant : Claimant) (phase : SelectPhase) : SelectWorld :=
  { world with
    processes := Function.update world.processes claimant.pid (some ⟨claimant, phase⟩) }

/-- The next operation of a process. What it does in the state folder may fail without an effect;
`/proc` shows the living processes. -/
def operate (world : SelectWorld) (reader : JsonReader) (claimant : Claimant) (fault : Bool) :
    SelectPhase → SelectWorld
  | .idle => world
  | .starting =>
      if fault then world.setPhase claimant .idle
      else { world with
        disk := world.disk.truncate (tempOf selectLock claimant.pid) [] }.setPhase claimant
          (.opened (world.disk.target (tempOf selectLock claimant.pid)))
  | .opened inode =>
      if fault then world.setPhase claimant .idle
      else { world with disk := world.disk.write inode claimant.text }.setPhase claimant .written
  | .written =>
      if fault then world.setPhase claimant (.cleaning .failed)
      else match world.disk.link (tempOf selectLock claimant.pid) (.claim selectLock) with
        | none => world.setPhase claimant (.cleaning .taken)
        | some disk => { world with disk }.setPhase claimant (.cleaning .linked)
  | .cleaning result =>
      { world with
        disk := if fault then world.disk
          else world.disk.remove (tempOf selectLock claimant.pid) }.setPhase claimant
        (match result with
          | .linked => .holding
          | .taken => .judging
          | .failed => .idle)
  -- the release, whose caller does not learn that it failed
  | .holding =>
      { world with
        disk := if fault then world.disk else world.disk.remove (.claim selectLock) }.setPhase
        claimant .idle
  | .judging =>
      match if fault then none else world.disk.file (.claim selectLock) with
      | none => world.setPhase claimant .waiting
      | some inode => world.setPhase claimant (.reading inode)
  | .reading inode =>
      if fault then world.setPhase claimant .waiting
      else match holderOf reader (world.disk.text inode) with
        | none => world.setPhase claimant (.marking (world.disk.text inode))
        | some holder => world.setPhase claimant (.proving (world.disk.text inode) holder)
  | .proving text holder =>
      world.setPhase claimant (if (world.processes holder.pid).isNone then .marking text
        else if holder.start.isDefined then .timing text holder else .waiting)
  | .timing text holder =>
      let started : JsValue := match world.processes holder.pid with
        | none => .null
        | some process => .string (decimal process.claimant.start)
      world.setPhase claimant (if started.strictEq holder.start then .waiting else .marking text)
  | .marking text =>
      if fault || (world.disk.file (.claim takeover)).isSome then world.setPhase claimant .waiting
      else { world with disk := world.disk.truncate (.claim takeover) [] }.setPhase claimant
        (.naming text (world.disk.target (.claim takeover)))
  -- a marker whose process cannot be written stays, and no one removes it
  | .naming text inode =>
      if fault then world.setPhase claimant .waiting
      else { world with
        disk := world.disk.write inode (decimal claimant.pid ++ js "\n") }.setPhase claimant
          (.rereading text)
  | .rereading text =>
      match if fault then none else world.disk.file (.claim selectLock) with
      | none => world.setPhase claimant .clearing
      | some inode => world.setPhase claimant (.comparing text inode)
  | .comparing text inode =>
      world.setPhase claimant
        (if !fault && decide (world.disk.text inode = text) then .removing text else .clearing)
  | .removing _ =>
      { world with
        disk := if fault then world.disk else world.disk.remove (.claim selectLock) }.setPhase
        claimant .clearing
  | .clearing =>
      { world with
        disk := if fault then world.disk else world.disk.remove (.claim takeover) }.setPhase
        claimant .waiting
  -- the next attempt, after a sleep or none, or the end of the attempts
  | .waiting => world.setPhase claimant (if fault then .idle else .starting)

/-- A process starts under a number that no living process has; no other process had both its
number and its time. -/
def next (reader : JsonReader) (world : SelectWorld) : SelectEvent → SelectWorld
  | .start claimant =>
      if (world.processes claimant.pid).isNone ∧ world.born.all fun other =>
          !(other.pid = claimant.pid && other.start = claimant.start) then
        { world with born := claimant :: world.born }.setPhase claimant .idle
      else
        world
  | .take pid =>
      match world.processes pid with
      | some ⟨claimant, .idle⟩ => world.setPhase claimant .starting
      | _ => world
  | .step pid fault =>
      match world.processes pid with
      | some process => world.operate reader process.claimant fault process.phase
      | none => world
  | .die pid => { world with processes := Function.update world.processes pid none }

end SelectWorld

/-- The processes that share the lock, none of them started yet. -/
def selectLocks (reader : JsonReader) : Machine SelectWorld SelectEvent :=
  ⟨⟨.blank [], fun _ => none, []⟩, SelectWorld.next reader⟩

namespace SelectPhase

/-- From the link of the lock to the release. -/
def holds : SelectPhase → Bool
  | cleaning .linked | holding => true
  | _ => false

def marks : SelectPhase → Bool
  | naming _ _ | rereading _ | comparing _ _ | removing _ | clearing => true
  | _ => false

/-- The lock file that the process has open to read it. -/
def opens : SelectPhase → Option ℕ
  | reading inode | comparing _ inode => some inode
  | _ => none

end SelectPhase

namespace SelectWorld

variable (world : SelectWorld)

def Holds (pid : ℕ) : Prop := ∃ process, world.processes pid = some process ∧ process.phase.holds

/-- A takeover by the process removes the lock, which it judged by the text. -/
def TakesOver (event : SelectEvent) (pid : ℕ) (text : JsString) : Prop :=
  event = .step pid false ∧
    ∃ process, world.processes pid = some process ∧ process.phase = .removing text ∧
      (world.disk.file (.claim selectLock)).isSome

/-- The process removes the lock, in a takeover or to release it. -/
def Unlinks (event : SelectEvent) (pid : ℕ) : Prop :=
  (∃ text, world.TakesOver event pid text) ∨ event = .step pid false ∧
    ∃ process, world.processes pid = some process ∧ process.phase = .holding

def Private (inode : ℕ) : Prop :=
  world.disk.file (.claim selectLock) ≠ some inode ∧
    ∀ pid process, world.processes pid = some process → process.phase.opens ≠ some inode

/-- A process that opens its temporary file to write it finds none, or one that is private. -/
def Unshared : SelectEvent → Prop
  | .step pid false => ∀ claimant inode, world.processes pid = some ⟨claimant, .starting⟩ →
      world.disk.file (tempOf selectLock claimant.pid) = some inode → world.Private inode
  | _ => True

end SelectWorld

namespace Claimant

variable {claimant other : Claimant}

theorem kept_toValue (reader : JsonReader) (claimant : Claimant) :
    Kept reader.round claimant.toValue := by
  have distinct : [js "worker", js "pid", js "pid_start"].Nodup := by decide
  have noIndex : ∀ name ∈ [js "worker", js "pid", js "pid_start"], ¬IsArrayIndex name := by decide
  refine Kept.object distinct noIndex ?_
  simp only [List.forall_mem_cons]
  exact ⟨reader.kept_ofNat claimant.safeWorker, reader.kept_ofNat claimant.safePid, Kept.string _,
    by simp⟩

theorem holderOf_text (reader : JsonReader) (claimant : Claimant) :
    holderOf reader claimant.text = some ⟨claimant.pid, .string (decimal claimant.start)⟩ := by
  have kept := claimant.kept_toValue reader
  have isPid : claimant.toValue.get (js "pid") = .number (.ofNat claimant.pid) := by
    simp [toValue, JsValue.get_cons, show js "worker" ≠ js "pid" by decide]
  have isStart : claimant.toValue.get (js "pid_start") = .string (decimal claimant.start) := by
    simp [toValue, JsValue.get_cons, show js "worker" ≠ js "pid_start" by decide,
      show js "pid" ≠ js "pid_start" by decide]
  have positive : positiveInteger (.number (.ofNat claimant.pid)) =
      some ⟨claimant.pid, claimant.safePid⟩ := by
    rw [positiveInteger, nonNegativeInteger_ofNat ⟨claimant.pid, claimant.safePid⟩, Option.filter_some,
      if_pos (by simpa using claimant.positive)]
  cases written : stringify claimant.toValue with
  | none => exact absurd written kept.written
  | some found =>
      have line : claimant.text = found ++ [10] := by
        rw [text, written]
        rfl
      rw [holderOf, line, parse_stringify_line written, kept.same, Option.bind_some,
        if_pos (show claimant.toValue.truthy = true from rfl), isPid, isStart, positive,
        Option.map_some]

theorem text_inj (same : claimant.text = other.text) :
    claimant.pid = other.pid ∧ claimant.start = other.start := by
  let reader : JsonReader := ⟨.finite, fun _ _ _ _ => rfl⟩
  have holders : holderOf reader claimant.text = holderOf reader other.text := congrArg _ same
  rw [holderOf_text, holderOf_text] at holders
  injection holders with holders
  injection holders with pids starts
  injection starts with starts
  exact ⟨pids, decimal_injective starts⟩

end Claimant

namespace SelectWorld

variable (world : SelectWorld)

def Dead (claimant : Claimant) : Prop :=
  claimant ∈ world.born ∧
    ∀ process, world.processes claimant.pid = some process → process.claimant ≠ claimant

def Stale (text : JsString) : Prop := ∃ claimant, world.Dead claimant ∧ text = claimant.text

def Shown (inode : ℕ) : Prop :=
  inode < world.disk.count ∧ ∃ claimant ∈ world.born, world.disk.text inode = claimant.text

def Named (text : JsString) (holder : Holder) : Prop :=
  ∃ claimant ∈ world.born, text = claimant.text ∧
    holder = ⟨claimant.pid, .string (decimal claimant.start)⟩

def Relies (claimant : Claimant) (inode : ℕ) : SelectPhase → Prop
  | .cleaning .linked | .holding => world.disk.text inode = claimant.text
  | .comparing text found => found = inode ∧ world.disk.text inode = text
  | .removing text => world.disk.text inode = text
  | _ => False

def Fits (claimant : Claimant) : SelectPhase → Prop
  | .opened inode =>
      world.disk.file (tempOf selectLock claimant.pid) = some inode ∧ world.Private inode
  | .written => world.disk.read (tempOf selectLock claimant.pid) = some claimant.text
  | .cleaning .linked | .holding => world.disk.read (.claim selectLock) = some claimant.text
  | .reading inode => world.Shown inode
  | .proving text holder | .timing text holder => world.Named text holder
  | .marking text | .rereading text => world.Stale text
  | .naming text inode => world.Stale text ∧ world.Private inode ∧ inode < world.disk.count ∧
      ∀ pid, world.disk.file (tempOf selectLock pid) ≠ some inode
  | .comparing text inode => world.Stale text ∧ world.Shown inode ∧
      (world.disk.text inode = text → world.disk.file (.claim selectLock) = some inode)
  | .removing text => world.Stale text ∧ world.disk.read (.claim selectLock) = some text
  | _ => True

/-- Every living process was started under its number and can count on what its phase needs; one
process has the takeover marker. -/
structure Sound : Prop where
  temps : ∀ {pid other inode}, world.disk.file (tempOf selectLock pid) = some inode →
    world.disk.file (tempOf selectLock other) = some inode → pid = other
  unique : ∀ {claimant other}, claimant ∈ world.born → other ∈ world.born →
    claimant.pid = other.pid → claimant.start = other.start → claimant = other
  started : ∀ {pid process}, world.processes pid = some process →
    process.claimant ∈ world.born ∧ process.claimant.pid = pid
  shown : ∀ {inode}, world.disk.file (.claim selectLock) = some inode → world.Shown inode
  fits : ∀ {pid process}, world.processes pid = some process →
    world.Fits process.claimant process.phase
  marked : ∀ {pid process}, world.processes pid = some process → process.phase.marks = true →
    world.disk.file (.claim takeover) ≠ none
  alone : ∀ {pid other process found}, world.processes pid = some process →
    world.processes other = some found → process.phase.marks = true → found.phase.marks = true →
    pid = other

end SelectWorld

namespace SelectWorld.Sound

variable {world : SelectWorld} {pid other inode : ℕ} {claimant : Claimant} {phase : SelectPhase}
  {process found : SelectProcess} {text : JsString}

theorem eq_of_text (sound : world.Sound) {other : Claimant} (isBorn : claimant ∈ world.born)
    (isOther : other ∈ world.born) (same : claimant.text = other.text) : claimant = other := by
  rcases Claimant.text_inj same with ⟨pids, starts⟩
  exact sound.unique isBorn isOther pids starts

theorem not_stale_text (sound : world.Sound) (isProcess : world.processes pid = some process) :
    ¬world.Stale process.claimant.text := by
  rintro ⟨dead, ⟨isBorn, gone⟩, same⟩
  rcases sound.started isProcess with ⟨isStarted, isPid⟩
  cases sound.eq_of_text isStarted isBorn same
  rw [← isPid] at isProcess
  exact gone process isProcess rfl

theorem read_of_holds (sound : world.Sound) (isProcess : world.processes pid = some process)
    (holds : process.phase.holds = true) :
    world.disk.read (.claim selectLock) = some process.claimant.text := by
  have fits := sound.fits isProcess
  rcases process with ⟨claimant, phase⟩
  cases phase with
  | holding => exact fits
  | cleaning result =>
      cases result with
      | linked => exact fits
      | _ => cases holds
  | _ => cases holds

theorem eq_of_holds (sound : world.Sound) (isProcess : world.processes pid = some process)
    (holds : process.phase.holds = true) (isFound : world.processes other = some found)
    (holdsToo : found.phase.holds = true) : pid = other := by
  have same := (sound.read_of_holds isProcess holds).symm.trans (sound.read_of_holds isFound holdsToo)
  rcases sound.started isProcess with ⟨isBorn, isPid⟩
  rcases sound.started isFound with ⟨isBornToo, isOther⟩
  rw [← isPid, ← isOther, sound.eq_of_text isBorn isBornToo (Option.some.inj same)]

section Step

variable {old : SelectPhase} {disk : Disk ClaimName JsString}

theorem processes_setPhase : (world.setPhase claimant phase).processes pid =
    if pid = claimant.pid then some ⟨claimant, phase⟩ else world.processes pid := by
  simp only [setPhase, Function.update_apply]

structure Moves (world : SelectWorld) (claimant : Claimant) (old phase : SelectPhase)
    (disk : Disk ClaimName JsString) : Prop where
  count : world.disk.count ≤ disk.count
  others : ∀ pid, pid ≠ claimant.pid →
    disk.file (tempOf selectLock pid) = world.disk.file (tempOf selectLock pid)
  mine : ∀ inode, disk.file (tempOf selectLock claimant.pid) = some inode →
    world.disk.file (tempOf selectLock claimant.pid) = some inode ∨ inode = world.disk.count
  texts : ∀ inode, (¬world.Private inode ∨ ∃ pid, pid ≠ claimant.pid ∧
    world.disk.file (tempOf selectLock pid) = some inode) → disk.text inode = world.disk.text inode
  lock : ∀ inode, disk.file (.claim selectLock) = some inode →
    world.disk.file (.claim selectLock) = some inode ∨
      world.disk.file (tempOf selectLock claimant.pid) = some inode ∧
        disk.text inode = claimant.text
  relied : ∀ pid process, pid ≠ claimant.pid → world.processes pid = some process →
    ∀ inode, world.disk.file (.claim selectLock) = some inode →
      world.Relies process.claimant inode process.phase → disk.file (.claim selectLock) = some inode
  opens : ∀ inode, phase.opens = some inode → ¬world.Private inode
  marker : old.marks = false → world.disk.file (.claim takeover) ≠ none →
    disk.file (.claim takeover) ≠ none
  marks : phase.marks = true → disk.file (.claim takeover) ≠ none ∧
    (old.marks = true ∨ world.disk.file (.claim takeover) = none)

theorem stale_of_stale (isProcess : world.processes claimant.pid = some ⟨claimant, old⟩)
    (stale : world.Stale text) : (({ world with disk }).setPhase claimant phase).Stale text := by
  rcases stale with ⟨dead, ⟨isBorn, gone⟩, same⟩
  refine ⟨dead, ⟨isBorn, fun process isFound => ?_⟩, same⟩
  rw [processes_setPhase] at isFound
  split_ifs at isFound with isPid
  · cases isFound
    rw [← isPid] at isProcess
    exact gone ⟨claimant, old⟩ isProcess
  · exact gone process isFound

theorem shown_of_shown (moves : Moves world claimant old phase disk) (notPrivate : ¬world.Private inode)
    (shown : world.Shown inode) : (({ world with disk }).setPhase claimant phase).Shown inode := by
  refine ⟨Nat.lt_of_lt_of_le shown.1 moves.count, ?_⟩
  have same : disk.text inode = world.disk.text inode := moves.texts inode (.inl notPrivate)
  simp only [setPhase, same]
  exact shown.2

theorem private_of_private (moves : Moves world claimant old phase disk)
    (isPrivate : world.Private inode)
    (notMine : world.disk.file (tempOf selectLock claimant.pid) ≠ some inode) :
    (({ world with disk }).setPhase claimant phase).Private inode := by
  refine ⟨fun isLock => ?_, fun reader process isReader isOpen => ?_⟩
  · rcases moves.lock inode isLock with same | ⟨isMine, -⟩
    · exact isPrivate.1 same
    · exact notMine isMine
  · rw [processes_setPhase] at isReader
    split_ifs at isReader
    · cases isReader
      exact moves.opens inode isOpen isPrivate
    · exact isPrivate.2 reader process isReader isOpen

theorem not_private_of_lock (isLock : world.disk.file (.claim selectLock) = some inode) :
    ¬world.Private inode := fun isPrivate => isPrivate.1 isLock

theorem not_private_of_opens (isProcess : world.processes pid = some process)
    (isOpen : process.phase.opens = some inode) : ¬world.Private inode :=
  fun isPrivate => isPrivate.2 pid process isProcess isOpen

theorem read_lock_of_relied (moves : Moves world claimant old phase disk)
    (different : other ≠ claimant.pid) (isFound : world.processes other = some found)
    (reads : world.disk.read (.claim selectLock) = some text)
    (relies : ∀ inode, world.disk.text inode = text →
      world.Relies found.claimant inode found.phase) :
    disk.read (.claim selectLock) = some text := by
  rcases Disk.read_eq_some.mp reads with ⟨inode, isLock, isText⟩
  rw [Disk.read_eq_some]
  refine ⟨inode, moves.relied other found different isFound inode isLock (relies inode isText), ?_⟩
  rw [moves.texts inode (.inl (not_private_of_lock isLock)), isText]

theorem fits_of_moves (sound : world.Sound)
    (isProcess : world.processes claimant.pid = some ⟨claimant, old⟩)
    (moves : Moves world claimant old phase disk) (different : other ≠ claimant.pid)
    (isFound : world.processes other = some found) :
    (({ world with disk }).setPhase claimant phase).Fits found.claimant found.phase := by
  have fits := sound.fits isFound
  have isPid := (sound.started isFound).2
  rcases found with ⟨mine, found⟩
  simp only at fits isPid ⊢
  subst isPid
  have sameTemp := moves.others mine.pid different
  cases found with
  | opened inode =>
      refine ⟨sameTemp.trans fits.1, private_of_private moves fits.2 fun isMine => ?_⟩
      exact different (sound.temps fits.1 isMine)
  | written =>
      rcases Disk.read_eq_some.mp fits with ⟨inode, isTemp, isText⟩
      apply Disk.read_eq_some.mpr ⟨inode, sameTemp.trans isTemp, ?_⟩
      exact (moves.texts inode (.inr ⟨mine.pid, different, isTemp⟩)).trans isText
  | cleaning result =>
      cases result with
      | linked => exact read_lock_of_relied moves different isFound fits fun _ => id
      | _ => trivial
  | holding => exact read_lock_of_relied moves different isFound fits fun _ => id
  | reading inode => exact shown_of_shown moves (not_private_of_opens isFound rfl) fits
  | proving text holder => exact fits
  | timing text holder => exact fits
  | marking text => exact stale_of_stale isProcess fits
  | naming text inode =>
      rcases fits with ⟨stale, isPrivate, isOld, noTemp⟩
      refine ⟨stale_of_stale isProcess stale, private_of_private moves isPrivate (noTemp _),
        Nat.lt_of_lt_of_le isOld moves.count, fun third isTemp => ?_⟩
      by_cases same : third = claimant.pid
      · subst same
        rcases moves.mine inode isTemp with before | isNew
        · exact noTemp _ before
        · omega
      · exact noTemp third ((moves.others third same).symm.trans isTemp)
  | rereading text => exact stale_of_stale isProcess fits
  | comparing text inode =>
      rcases fits with ⟨stale, shown, isLock⟩
      have notPrivate := not_private_of_opens isFound rfl
      refine ⟨stale_of_stale isProcess stale, shown_of_shown moves notPrivate shown, fun same => ?_⟩
      have before : world.disk.text inode = text := by
        rw [← same]
        exact (moves.texts inode (.inl notPrivate)).symm
      exact moves.relied mine.pid _ different isFound inode (isLock before) ⟨rfl, before⟩
  | removing text =>
      refine ⟨stale_of_stale isProcess fits.1, ?_⟩
      exact read_lock_of_relied moves different isFound fits.2 fun _ => id
  | _ => trivial

theorem step (sound : world.Sound)
    (isProcess : world.processes claimant.pid = some ⟨claimant, old⟩)
    (moves : Moves world claimant old phase disk)
    (fits : (({ world with disk }).setPhase claimant phase).Fits claimant phase) :
    (({ world with disk }).setPhase claimant phase).Sound := by
  have isMine : ∀ {pid process}, (({ world with disk }).setPhase claimant phase).processes pid =
      some process → pid = claimant.pid ∧ process = ⟨claimant, phase⟩ ∨
        pid ≠ claimant.pid ∧ world.processes pid = some process := by
    intro pid process isFound
    rw [processes_setPhase] at isFound
    split_ifs at isFound with same
    · exact .inl ⟨same, (Option.some.inj isFound).symm⟩
    · exact .inr ⟨same, isFound⟩
  -- a file of two temporary names would have had them before
  have apart : ∀ {pid inode}, pid ≠ claimant.pid → disk.file (tempOf selectLock pid) = some inode →
      disk.file (tempOf selectLock claimant.pid) ≠ some inode := by
    intro pid inode different isTemp isOwn
    rw [moves.others pid different] at isTemp
    rcases moves.mine inode isOwn with before | isNew
    · exact different (sound.temps isTemp before)
    · rw [isNew] at isTemp
      exact Disk.file_ne_count isTemp
  have noMarks : phase.marks = true → ∀ {pid process}, pid ≠ claimant.pid →
      world.processes pid = some process → process.phase.marks = false := by
    intro isMarking pid process different isFound
    by_contra marks
    rw [Bool.not_eq_false] at marks
    rcases (moves.marks isMarking).2 with before | noMarker
    · exact different (sound.alone isFound isProcess marks before)
    · exact sound.marked isFound marks noMarker
  refine ⟨?_, sound.unique, ?_, ?_, ?_, ?_, ?_⟩
  · intro left right inode isLeft isRight
    by_cases leftMine : left = claimant.pid
    · subst leftMine
      by_contra different
      exact apart (Ne.symm different) isRight isLeft
    · by_cases rightMine : right = claimant.pid
      · subst rightMine
        exact absurd isRight (apart leftMine isLeft)
      · rw [setPhase, moves.others left leftMine] at isLeft
        rw [setPhase, moves.others right rightMine] at isRight
        exact sound.temps isLeft isRight
  · intro pid process isFound
    rcases isMine isFound with ⟨rfl, rfl⟩ | ⟨-, before⟩
    · exact ⟨(sound.started isProcess).1, rfl⟩
    · exact sound.started before
  · intro inode isLock
    rcases moves.lock inode isLock with before | ⟨isTemp, isText⟩
    · exact shown_of_shown moves (not_private_of_lock before) (sound.shown before)
    · refine ⟨Nat.lt_of_lt_of_le (world.disk.created isTemp) moves.count, claimant,
        (sound.started isProcess).1, isText⟩
  · intro pid process isFound
    rcases isMine isFound with ⟨rfl, rfl⟩ | ⟨different, before⟩
    · exact fits
    · exact sound.fits_of_moves isProcess moves different before
  · intro pid process isFound marks
    rcases isMine isFound with ⟨rfl, rfl⟩ | ⟨different, before⟩
    · exact (moves.marks marks).1
    · refine moves.marker ?_ (sound.marked before marks)
      by_contra isMarking
      rw [Bool.not_eq_false] at isMarking
      exact different (sound.alone before isProcess marks isMarking)
  · intro pid other process found isFirst isSecond marks marksToo
    rcases isMine isFirst with ⟨rfl, rfl⟩ | ⟨different, before⟩
    · rcases isMine isSecond with ⟨rfl, rfl⟩ | ⟨differentToo, beforeToo⟩
      · rfl
      · rw [noMarks marks differentToo beforeToo] at marksToo
        cases marksToo
    · rcases isMine isSecond with ⟨rfl, rfl⟩ | ⟨-, beforeToo⟩
      · rw [noMarks marksToo different before] at marks
        cases marks
      · exact sound.alone before beforeToo marks marksToo

theorem Moves.none (opens : ∀ inode, phase.opens = some inode → ¬world.Private inode)
    (marks : phase.marks = true → old.marks = true ∧ world.disk.file (.claim takeover) ≠ none) :
    Moves world claimant old phase world.disk where
  count := Nat.le_refl _
  others _ _ := rfl
  mine _ := .inl
  texts _ _ := rfl
  lock _ := .inl
  relied _ _ _ _ _ isLock _ := isLock
  opens := opens
  marker _ := id
  marks marking := ⟨(marks marking).2, .inl (marks marking).1⟩

theorem move (sound : world.Sound)
    (isProcess : world.processes claimant.pid = some ⟨claimant, old⟩)
    (opens : ∀ inode, phase.opens = some inode → ¬world.Private inode)
    (marks : phase.marks = true → old.marks = true)
    (fits : (world.setPhase claimant phase).Fits claimant phase) :
    (world.setPhase claimant phase).Sound :=
  sound.step isProcess (Moves.none opens fun marking =>
    ⟨marks marking, sound.marked isProcess (marks marking)⟩) fits

theorem ne_of_private {written : ℕ} (isPrivate : world.Private written)
    (isMine : ∀ pid, pid ≠ claimant.pid → world.disk.file (tempOf selectLock pid) ≠ some written)
    (others : ¬world.Private inode ∨ ∃ pid, pid ≠ claimant.pid ∧
      world.disk.file (tempOf selectLock pid) = some inode) : inode ≠ written := by
  rintro rfl
  rcases others with notPrivate | ⟨pid, different, isTemp⟩
  · exact notPrivate isPrivate
  · exact isMine pid different isTemp

theorem private_count (sound : world.Sound) : world.Private world.disk.count := by
  refine ⟨Disk.file_ne_count, fun pid process isProcess isOpen => ?_⟩
  have fits := sound.fits isProcess
  rcases process with ⟨claimant, phase⟩
  cases phase with
  | reading inode =>
      cases isOpen
      exact Nat.lt_irrefl _ fits.1
  | comparing text inode =>
      cases isOpen
      exact Nat.lt_irrefl _ fits.2.1.1
  | _ => cases isOpen

theorem private_target (sound : world.Sound)
    (unshared : ∀ inode, world.disk.file (tempOf selectLock claimant.pid) = some inode →
      world.Private inode) : world.Private (world.disk.target (tempOf selectLock claimant.pid)) := by
  rcases world.disk.target_eq (tempOf selectLock claimant.pid) with isFile | ⟨-, isNew⟩
  · exact unshared _ isFile
  · rw [isNew]
    exact sound.private_count

theorem target_ne_temp (sound : world.Sound) (different : pid ≠ claimant.pid) :
    world.disk.file (tempOf selectLock pid) ≠
      some (world.disk.target (tempOf selectLock claimant.pid)) := by
  intro isOther
  rcases world.disk.target_eq (tempOf selectLock claimant.pid) with isFile | ⟨-, isNew⟩
  · exact different (sound.temps isOther isFile)
  · rw [isNew] at isOther
    exact Disk.file_ne_count isOther

theorem tempOf_ne (different : pid ≠ other) : tempOf selectLock pid ≠ tempOf selectLock other := by
  rintro ⟨⟩
  exact different rfl

theorem takeover_ne_selectLock : ClaimName.claim takeover ≠ .claim selectLock := by decide

theorem openTemp (sound : world.Sound)
    (isProcess : world.processes claimant.pid = some ⟨claimant, .starting⟩)
    (unshared : ∀ inode, world.disk.file (tempOf selectLock claimant.pid) = some inode →
      world.Private inode) :
    (({ world with disk := world.disk.truncate (tempOf selectLock claimant.pid) [] }).setPhase claimant
      (.opened (world.disk.target (tempOf selectLock claimant.pid)))).Sound := by
  have isPrivate := sound.private_target unshared
  have notTemp : ∀ file, (world.disk.truncate (tempOf selectLock claimant.pid) []).file (.claim file) =
      world.disk.file (.claim file) :=
    fun file => Disk.file_truncate_of_ne (claim_ne_tempOf file selectLock claimant.pid)
  refine sound.step isProcess ⟨Nat.le_max_left _ _, ?_, ?_, ?_, ?_, ?_, nofun, ?_, nofun⟩ ?_
  · intro pid different
    exact Disk.file_truncate_of_ne (tempOf_ne different)
  · intro inode isTemp
    have isTarget := Option.some.inj (Disk.file_truncate_self.symm.trans isTemp)
    rw [← isTarget]
    rcases world.disk.target_eq (tempOf selectLock claimant.pid) with isFile | ⟨-, isNew⟩
    · exact .inl isFile
    · exact .inr isNew
  · intro inode others
    exact Function.update_of_ne
      (ne_of_private isPrivate (fun pid different => sound.target_ne_temp different) others) _ _
  · intro inode isLock
    rw [notTemp] at isLock
    exact .inl isLock
  · intro pid process _ _ inode isLock _
    rwa [notTemp]
  · intro _ isMarker
    rwa [notTemp]
  · refine ⟨Disk.file_truncate_self, fun isLock => ?_, fun pid process isFound isOpen => ?_⟩
    · simp only [setPhase, notTemp] at isLock
      exact isPrivate.1 isLock
    · rw [processes_setPhase] at isFound
      split_ifs at isFound
      · cases isFound
        cases isOpen
      · exact isPrivate.2 pid process isFound isOpen

theorem write (sound : world.Sound)
    (isProcess : world.processes claimant.pid = some ⟨claimant, old⟩) {written : ℕ}
    (isPrivate : world.Private written)
    (isMine : ∀ pid, pid ≠ claimant.pid → world.disk.file (tempOf selectLock pid) ≠ some written)
    (opens : phase.opens = none) (marks : phase.marks = true → old.marks = true)
    (fits : (({ world with disk := world.disk.write written text }).setPhase claimant phase).Fits
      claimant phase) :
    (({ world with disk := world.disk.write written text }).setPhase claimant phase).Sound := by
  refine sound.step isProcess ⟨Nat.le_refl _, fun _ _ => rfl, fun _ => .inl, ?_, fun _ => .inl,
    fun _ _ _ _ _ isLock _ => isLock, ?_, fun _ => id, ?_⟩ fits
  · intro inode others
    exact Function.update_of_ne (ne_of_private isPrivate isMine others) _ _
  · intro inode isOpen
    rw [opens] at isOpen
    cases isOpen
  · intro marking
    exact ⟨sound.marked isProcess (marks marking), .inl (marks marking)⟩

theorem link (sound : world.Sound)
    (isProcess : world.processes claimant.pid = some ⟨claimant, .written⟩)
    (isFree : world.disk.file (.claim selectLock) = none) :
    (({ world with
      disk := world.disk.point (.claim selectLock) (tempOf selectLock claimant.pid) }).setPhase claimant
        (.cleaning .linked)).Sound := by
  rcases Disk.read_eq_some.mp (sound.fits isProcess) with ⟨inode, isTemp, isText⟩
  have isLock : (world.disk.point (.claim selectLock) (tempOf selectLock claimant.pid)).file
      (.claim selectLock) = some inode := Disk.file_point_self.trans isTemp
  refine sound.step isProcess ⟨Nat.le_refl _, fun _ _ => rfl, fun _ => .inl, fun _ _ => rfl, ?_, ?_,
    nofun, ?_, nofun⟩ ?_
  · intro found isFound
    cases isLock.symm.trans isFound
    exact .inr ⟨isTemp, isText⟩
  · intro pid process _ _ found isFound
    rw [isFree] at isFound
    cases isFound
  · intro _ isMarker
    rwa [Disk.file_point_of_ne takeover_ne_selectLock]
  · exact Disk.read_eq_some.mpr ⟨inode, isLock, isText⟩

theorem removeTemp (sound : world.Sound)
    (isProcess : world.processes claimant.pid = some ⟨claimant, old⟩) (opens : phase.opens = none)
    (marks : phase.marks = false)
    (fits : world.disk.read (.claim selectLock) =
      (world.disk.remove (tempOf selectLock claimant.pid)).read (.claim selectLock) →
      (({ world with disk := world.disk.remove (tempOf selectLock claimant.pid) }).setPhase claimant
        phase).Fits claimant phase) :
    (({ world with disk := world.disk.remove (tempOf selectLock claimant.pid) }).setPhase claimant
      phase).Sound := by
  have notTemp : ∀ file, (world.disk.remove (tempOf selectLock claimant.pid)).file (.claim file) =
      world.disk.file (.claim file) :=
    fun file => Disk.file_remove_of_ne (claim_ne_tempOf file selectLock claimant.pid)
  refine sound.step isProcess ⟨Nat.le_refl _, ?_, ?_, fun _ _ => rfl, ?_, ?_, ?_, ?_, ?_⟩ (fits ?_)
  · intro pid different
    exact Disk.file_remove_of_ne (tempOf_ne different)
  · intro inode isTemp
    rw [Disk.file_remove_self] at isTemp
    cases isTemp
  · intro inode isLock
    rw [notTemp] at isLock
    exact .inl isLock
  · intro pid process _ _ inode isLock _
    rwa [notTemp]
  · intro inode isOpen
    rw [opens] at isOpen
    cases isOpen
  · intro _ isMarker
    rwa [notTemp]
  · intro marking
    rw [marks] at marking
    cases marking
  · exact (Disk.read_remove (claim_ne_tempOf selectLock selectLock claimant.pid)).symm

theorem removeLock (sound : world.Sound)
    (isProcess : world.processes claimant.pid = some ⟨claimant, old⟩) (opens : phase.opens = none)
    (marks : phase.marks = true → old.marks = true)
    (relied : ∀ pid process, pid ≠ claimant.pid → world.processes pid = some process →
      ∀ inode, world.disk.file (.claim selectLock) = some inode →
        ¬world.Relies process.claimant inode process.phase)
    (fits : (({ world with disk := world.disk.remove (.claim selectLock) }).setPhase claimant
      phase).Fits claimant phase) :
    (({ world with disk := world.disk.remove (.claim selectLock) }).setPhase claimant phase).Sound := by
  have notLock : ∀ pid, (world.disk.remove (.claim selectLock)).file (tempOf selectLock pid) =
      world.disk.file (tempOf selectLock pid) :=
    fun pid => Disk.file_remove_of_ne (Ne.symm (claim_ne_tempOf selectLock selectLock pid))
  have marker : (world.disk.remove (.claim selectLock)).file (.claim takeover) =
      world.disk.file (.claim takeover) := Disk.file_remove_of_ne takeover_ne_selectLock
  refine sound.step isProcess ⟨Nat.le_refl _, fun pid _ => notLock pid, ?_, fun _ _ => rfl, ?_, ?_, ?_,
    ?_, ?_⟩ fits
  · intro inode isTemp
    rw [notLock] at isTemp
    exact .inl isTemp
  · intro inode isLock
    rw [Disk.file_remove_self] at isLock
    cases isLock
  · intro pid process different isFound inode isLock relies
    exact absurd relies (relied pid process different isFound inode isLock)
  · intro inode isOpen
    rw [opens] at isOpen
    cases isOpen
  · intro _ isMarker
    rwa [marker]
  · intro marking
    rw [marker]
    exact ⟨sound.marked isProcess (marks marking), .inl (marks marking)⟩

theorem text_of_relies (sound : world.Sound) (isFound : world.processes other = some found)
    (relies : world.Relies found.claimant inode found.phase) :
    (world.disk.text inode = found.claimant.text ∧ found.phase.holds = true) ∨
      world.Stale (world.disk.text inode) ∧ found.phase.marks = true := by
  have fits := sound.fits isFound
  rcases found with ⟨claimant, phase⟩
  cases phase with
  | cleaning result =>
      cases result with
      | linked => exact .inl ⟨relies, rfl⟩
      | _ => cases relies
  | holding => exact .inl ⟨relies, rfl⟩
  | comparing text inode =>
      rcases relies with ⟨rfl, rfl⟩
      exact .inr ⟨fits.1, rfl⟩
  | removing text =>
      cases relies
      exact .inr ⟨fits.1, rfl⟩
  | _ => cases relies

theorem release (sound : world.Sound)
    (isProcess : world.processes claimant.pid = some ⟨claimant, .holding⟩) :
    (({ world with disk := world.disk.remove (.claim selectLock) }).setPhase claimant .idle).Sound := by
  refine sound.removeLock isProcess rfl nofun ?_ trivial
  intro pid process different isFound inode isLock relies
  rcases Disk.read_eq_some.mp (sound.fits isProcess) with ⟨own, isOwn, isText⟩
  cases isLock.symm.trans isOwn
  rcases sound.text_of_relies isFound relies with ⟨-, holds⟩ | ⟨stale, -⟩
  · exact different (sound.eq_of_holds isFound holds isProcess rfl)
  · rw [isText] at stale
    exact sound.not_stale_text isProcess stale

theorem takeOver (sound : world.Sound)
    (isProcess : world.processes claimant.pid = some ⟨claimant, .removing text⟩) :
    (({ world with disk := world.disk.remove (.claim selectLock) }).setPhase claimant
      .clearing).Sound := by
  refine sound.removeLock isProcess rfl (fun _ => rfl) ?_ trivial
  intro pid process different isFound inode isLock relies
  rcases sound.fits isProcess with ⟨stale, reads⟩
  rcases Disk.read_eq_some.mp reads with ⟨own, isOwn, isText⟩
  cases isLock.symm.trans isOwn
  rcases sound.text_of_relies isFound relies with ⟨isMine, -⟩ | ⟨-, marks⟩
  · rw [← isText, isMine] at stale
    exact sound.not_stale_text isFound stale
  · exact different (sound.alone isFound isProcess marks rfl)

theorem mark (sound : world.Sound)
    (isProcess : world.processes claimant.pid = some ⟨claimant, .marking text⟩)
    (isFree : world.disk.file (.claim takeover) = none) :
    (({ world with disk := world.disk.truncate (.claim takeover) [] }).setPhase claimant
      (.naming text (world.disk.target (.claim takeover)))).Sound := by
  have isNew : world.disk.target (.claim takeover) = world.disk.count := by
    rw [Disk.target, isFree]
    rfl
  have notTemp : ∀ pid, (world.disk.truncate (.claim takeover) []).file (tempOf selectLock pid) =
      world.disk.file (tempOf selectLock pid) :=
    fun pid => Disk.file_truncate_of_ne (Ne.symm (claim_ne_tempOf takeover selectLock pid))
  have notLock : (world.disk.truncate (.claim takeover) []).file (.claim selectLock) =
      world.disk.file (.claim selectLock) :=
    Disk.file_truncate_of_ne (Ne.symm takeover_ne_selectLock)
  have isPrivate := sound.private_count
  have marker : (world.disk.truncate (.claim takeover) []).file (.claim takeover) ≠ none := by
    rw [Disk.file_truncate_self]
    exact Option.some_ne_none _
  have moves : Moves world claimant (.marking text)
      (.naming text (world.disk.target (.claim takeover)))
      (world.disk.truncate (.claim takeover) []) := by
    refine ⟨Nat.le_max_left _ _, fun pid _ => notTemp pid, ?_, ?_, ?_, ?_,
      (fun _ opens => by cases opens), fun _ _ => marker, fun _ => ⟨marker, .inr isFree⟩⟩
    · intro inode isTemp
      rw [notTemp] at isTemp
      exact .inl isTemp
    · intro inode others
      have different := ne_of_private isPrivate (fun pid _ => Disk.file_ne_count) others
      rw [← isNew] at different
      exact Function.update_of_ne different _ _
    · intro inode isLock
      rw [notLock] at isLock
      exact .inl isLock
    · intro pid process _ _ inode isLock _
      rwa [notLock]
  refine sound.step isProcess moves ⟨stale_of_stale isProcess (sound.fits isProcess), ?_, ?_, ?_⟩
  · have kept := private_of_private moves isPrivate Disk.file_ne_count
    rwa [isNew] at kept ⊢
  · exact Nat.lt_of_lt_of_le (Nat.lt_succ_self _) (Nat.le_max_right _ _)
  · intro pid isTemp
    rw [isNew, setPhase, notTemp] at isTemp
    exact Disk.file_ne_count isTemp

theorem unmark (sound : world.Sound)
    (isProcess : world.processes claimant.pid = some ⟨claimant, .clearing⟩) :
    (({ world with disk := world.disk.remove (.claim takeover) }).setPhase claimant .waiting).Sound := by
  have notTemp : ∀ pid, (world.disk.remove (.claim takeover)).file (tempOf selectLock pid) =
      world.disk.file (tempOf selectLock pid) :=
    fun pid => Disk.file_remove_of_ne (Ne.symm (claim_ne_tempOf takeover selectLock pid))
  have notLock : (world.disk.remove (.claim takeover)).file (.claim selectLock) =
      world.disk.file (.claim selectLock) :=
    Disk.file_remove_of_ne (Ne.symm takeover_ne_selectLock)
  refine sound.step isProcess ⟨Nat.le_refl _, fun pid _ => notTemp pid, ?_, fun _ _ => rfl, ?_, ?_,
    nofun, nofun, nofun⟩ trivial
  · intro inode isTemp
    rw [notTemp] at isTemp
    exact .inl isTemp
  · intro inode isLock
    rw [notLock] at isLock
    exact .inl isLock
  · intro pid process _ _ inode isLock _
    rwa [notLock]

theorem openLock (sound : world.Sound)
    (isLock : world.disk.file (.claim selectLock) = some inode) :
    (∀ found, some inode = some found → ¬world.Private found) ∧ world.Shown inode := by
  refine ⟨?_, sound.shown isLock⟩
  rintro _ ⟨⟩
  exact not_private_of_lock isLock

theorem stale_of_named {holder : Holder} (named : world.Named text holder)
    (gone : ∀ process, world.processes holder.pid = some process →
      JsValue.strictEq (.string (decimal process.claimant.start)) holder.start = false) :
    world.Stale text := by
  rcases named with ⟨dead, isBorn, rfl, rfl⟩
  refine ⟨dead, ⟨isBorn, fun process isProcess same => ?_⟩, rfl⟩
  have different := gone process isProcess
  rw [same] at different
  simp [JsValue.strictEq] at different

theorem operate (sound : world.Sound) (reader : JsonReader)
    (isProcess : world.processes claimant.pid = some ⟨claimant, phase⟩) (fault : Bool)
    (unshared : world.Unshared (.step claimant.pid fault)) :
    (world.operate reader claimant fault phase).Sound := by
  have fits := sound.fits isProcess
  have stays : ∀ {next : SelectPhase}, next.opens = none → next.marks = false →
      (world.setPhase claimant next).Fits claimant next → (world.setPhase claimant next).Sound := by
    intro next opens marks fits
    refine sound.move isProcess ?_ (by simp [marks]) fits
    intro inode isOpen
    rw [opens] at isOpen
    cases isOpen
  cases phase with
  | idle => exact sound
  | starting =>
      simp only [SelectWorld.operate]
      split_ifs with fails
      · exact stays rfl rfl trivial
      · rw [Bool.not_eq_true] at fails
        subst fails
        exact sound.openTemp isProcess fun inode => unshared claimant inode isProcess
  | opened inode =>
      simp only [SelectWorld.operate]
      split_ifs
      · exact stays rfl rfl trivial
      · refine sound.write isProcess fits.2 ?_ rfl nofun ?_
        · intro pid different isTemp
          exact different (sound.temps isTemp fits.1)
        · exact Disk.read_eq_some.mpr ⟨inode, fits.1, Function.update_self ..⟩
  | written =>
      simp only [SelectWorld.operate]
      split_ifs
      · exact stays rfl rfl trivial
      · split
        case h_1 => exact stays rfl rfl trivial
        case h_2 disk links =>
          rcases Disk.link_eq_some.mp links with ⟨-, isFree, rfl⟩
          exact sound.link isProcess isFree
  | cleaning result =>
      simp only [SelectWorld.operate]
      cases result with
      | linked =>
          split_ifs
          · exact stays rfl rfl fits
          · exact sound.removeTemp isProcess rfl rfl fun same => same.symm.trans fits
      | taken =>
          split_ifs
          · exact stays rfl rfl trivial
          · exact sound.removeTemp isProcess rfl rfl fun _ => trivial
      | failed =>
          split_ifs
          · exact stays rfl rfl trivial
          · exact sound.removeTemp isProcess rfl rfl fun _ => trivial
  | holding =>
      simp only [SelectWorld.operate]
      split_ifs
      · exact stays rfl rfl trivial
      · exact sound.release isProcess
  | judging =>
      simp only [SelectWorld.operate]
      split
      case h_1 => exact stays rfl rfl trivial
      case h_2 inode isLock =>
        split_ifs at isLock
        have opens := sound.openLock isLock
        exact sound.move isProcess opens.1 nofun opens.2
  | reading inode =>
      rcases fits.2 with ⟨shown, isBorn, isText⟩
      simp only [SelectWorld.operate, isText, shown.holderOf_text reader]
      split_ifs
      · exact stays rfl rfl trivial
      · exact stays rfl rfl ⟨shown, isBorn, rfl, rfl⟩
  | proving text holder =>
      simp only [SelectWorld.operate]
      split_ifs with gone
      · refine stays rfl rfl (stale_of_stale isProcess (stale_of_named fits ?_))
        intro process isFound
        rw [isFound] at gone
        cases gone
      · exact stays rfl rfl fits
      · exact stays rfl rfl trivial
  | timing text holder =>
      simp only [SelectWorld.operate]
      split_ifs with alive
      · exact stays rfl rfl trivial
      · refine stays rfl rfl (stale_of_stale isProcess (stale_of_named fits ?_))
        intro process isFound
        rw [isFound, Bool.not_eq_true] at alive
        exact alive
  | marking text =>
      simp only [SelectWorld.operate]
      split_ifs with fails
      · exact stays rfl rfl trivial
      · rw [Bool.or_eq_true, not_or, Option.not_isSome_iff_eq_none] at fails
        exact sound.mark isProcess fails.2
  | naming text inode =>
      rcases fits with ⟨stale, isPrivate, -, noTemp⟩
      simp only [SelectWorld.operate]
      split_ifs
      · exact stays rfl rfl trivial
      · exact sound.write isProcess isPrivate (fun pid _ => noTemp pid) rfl (fun _ => rfl)
          (stale_of_stale isProcess stale)
  | rereading text =>
      simp only [SelectWorld.operate]
      split
      case h_1 => exact sound.move isProcess nofun (fun _ => rfl) trivial
      case h_2 inode isLock =>
        split_ifs at isLock
        have opens := sound.openLock isLock
        exact sound.move isProcess opens.1 (fun _ => rfl)
          ⟨stale_of_stale isProcess fits, opens.2, fun _ => isLock⟩
  | comparing text inode =>
      rcases fits with ⟨stale, -, isLock⟩
      simp only [SelectWorld.operate]
      split_ifs with same
      · rw [Bool.and_eq_true, decide_eq_true_eq] at same
        refine sound.move isProcess nofun (fun _ => rfl) ⟨stale_of_stale isProcess stale, ?_⟩
        exact Disk.read_eq_some.mpr ⟨inode, isLock same.2, same.2⟩
      · exact sound.move isProcess nofun (fun _ => rfl) trivial
  | removing text =>
      simp only [SelectWorld.operate]
      split_ifs
      · exact sound.move isProcess nofun (fun _ => rfl) trivial
      · exact sound.takeOver isProcess
  | clearing =>
      simp only [SelectWorld.operate]
      split_ifs
      · exact stays rfl rfl trivial
      · exact sound.unmark isProcess
  | waiting =>
      simp only [SelectWorld.operate]
      split_ifs
      · exact stays rfl rfl trivial
      · exact stays rfl rfl trivial

end Step

theorem start (sound : world.Sound) (isFree : world.processes claimant.pid = none)
    (isNew : ∀ other ∈ world.born, other.pid = claimant.pid → other.start ≠ claimant.start) :
    (({ world with born := claimant :: world.born }).setPhase claimant .idle).Sound := by
  have notMine : ∀ {pid process}, world.processes pid = some process → pid ≠ claimant.pid := by
    rintro pid process isProcess rfl
    rw [isFree] at isProcess
    cases isProcess
  have older : ∀ {pid process}, (({ world with born := claimant :: world.born }).setPhase claimant
      .idle).processes pid = some process → pid = claimant.pid ∧ process = ⟨claimant, .idle⟩ ∨
        world.processes pid = some process := by
    intro pid process isFound
    rw [processes_setPhase] at isFound
    split_ifs at isFound with same
    · exact .inl ⟨same, (Option.some.inj isFound).symm⟩
    · exact .inr isFound
  have isStale : ∀ {text}, world.Stale text →
      (({ world with born := claimant :: world.born }).setPhase claimant .idle).Stale text := by
    rintro text ⟨dead, ⟨isBorn, gone⟩, same⟩
    refine ⟨dead, ⟨List.mem_cons_of_mem _ isBorn, fun process isFound => ?_⟩, same⟩
    rcases older isFound with ⟨isPid, rfl⟩ | before
    · rintro rfl
      exact isNew _ isBorn rfl rfl
    · exact gone process before
  have isShown : ∀ {inode}, world.Shown inode →
      (({ world with born := claimant :: world.born }).setPhase claimant .idle).Shown inode := by
    rintro inode ⟨isOld, shown, isBorn, isText⟩
    exact ⟨isOld, shown, List.mem_cons_of_mem _ isBorn, isText⟩
  have isPrivate : ∀ {inode}, world.Private inode →
      (({ world with born := claimant :: world.born }).setPhase claimant .idle).Private inode := by
    rintro inode ⟨notLock, notOpen⟩
    refine ⟨notLock, fun pid process isFound => ?_⟩
    rcases older isFound with ⟨-, rfl⟩ | before
    · nofun
    · exact notOpen pid process before
  have isNamed : ∀ {text holder}, world.Named text holder →
      (({ world with born := claimant :: world.born }).setPhase claimant .idle).Named text holder := by
    rintro text holder ⟨shown, isBorn, named⟩
    exact ⟨shown, List.mem_cons_of_mem _ isBorn, named⟩
  refine ⟨sound.temps, ?_, ?_, fun isLock => isShown (sound.shown isLock), ?_, ?_, ?_⟩
  · intro left right isLeft isRight pids starts
    rcases List.mem_cons.mp isLeft with rfl | leftOld
    · rcases List.mem_cons.mp isRight with rfl | rightOld
      · rfl
      · exact absurd starts.symm (isNew right rightOld pids.symm)
    · rcases List.mem_cons.mp isRight with rfl | rightOld
      · exact absurd starts (isNew left leftOld pids)
      · exact sound.unique leftOld rightOld pids starts
  · intro pid process isFound
    rcases older isFound with ⟨rfl, rfl⟩ | before
    · exact ⟨List.mem_cons_self, rfl⟩
    · exact ⟨List.mem_cons_of_mem _ (sound.started before).1, (sound.started before).2⟩
  · intro pid process isFound
    rcases older isFound with ⟨-, rfl⟩ | before
    · trivial
    · have fits := sound.fits before
      rcases process with ⟨mine, phase⟩
      cases phase with
      | opened inode => exact ⟨fits.1, isPrivate fits.2⟩
      | cleaning result => cases result <;> exact fits
      | reading inode => exact isShown fits
      | proving text holder => exact isNamed fits
      | timing text holder => exact isNamed fits
      | marking text => exact isStale fits
      | naming text inode => exact ⟨isStale fits.1, isPrivate fits.2.1, fits.2.2⟩
      | rereading text => exact isStale fits
      | comparing text inode => exact ⟨isStale fits.1, isShown fits.2.1, fits.2.2⟩
      | removing text => exact ⟨isStale fits.1, fits.2⟩
      | _ => exact fits
  · intro pid process isFound marks
    rcases older isFound with ⟨-, rfl⟩ | before
    · cases marks
    · exact sound.marked before marks
  · intro pid other process found isFirst isSecond marks marksToo
    rcases older isFirst with ⟨-, rfl⟩ | before
    · cases marks
    · rcases older isSecond with ⟨-, rfl⟩ | beforeToo
      · cases marksToo
      · exact sound.alone before beforeToo marks marksToo

theorem die (sound : world.Sound) (pid : ℕ) : SelectWorld.Sound
    { world with processes := Function.update world.processes pid none } := by
  have older : ∀ {other process}, Function.update world.processes pid none other = some process →
      world.processes other = some process := by
    intro other process isFound
    rw [Function.update_apply] at isFound
    split_ifs at isFound
    exact isFound
  have isStale : ∀ {text}, world.Stale text → SelectWorld.Stale
      { world with processes := Function.update world.processes pid none } text := by
    rintro text ⟨dead, ⟨isBorn, gone⟩, same⟩
    exact ⟨dead, ⟨isBorn, fun process isFound => gone process (older isFound)⟩, same⟩
  have isPrivate : ∀ {inode}, world.Private inode → SelectWorld.Private
      { world with processes := Function.update world.processes pid none } inode := by
    rintro inode ⟨notLock, notOpen⟩
    exact ⟨notLock, fun other process isFound => notOpen other process (older isFound)⟩
  refine ⟨sound.temps, sound.unique, fun isFound => sound.started (older isFound), sound.shown, ?_,
    fun isFound => sound.marked (older isFound),
    fun isFirst isSecond => sound.alone (older isFirst) (older isSecond)⟩
  intro other process isFound
  have fits := sound.fits (older isFound)
  rcases process with ⟨mine, phase⟩
  cases phase with
  | opened inode => exact ⟨fits.1, isPrivate fits.2⟩
  | cleaning result => cases result <;> exact fits
  | marking text => exact isStale fits
  | naming text inode => exact ⟨isStale fits.1, isPrivate fits.2.1, fits.2.2⟩
  | rereading text => exact isStale fits
  | comparing text inode => exact ⟨isStale fits.1, fits.2⟩
  | removing text => exact ⟨isStale fits.1, fits.2⟩
  | _ => exact fits

theorem next (sound : world.Sound) (reader : JsonReader) {event : SelectEvent}
    (unshared : world.Unshared event) : (world.next reader event).Sound := by
  cases event with
  | start claimant =>
      simp only [SelectWorld.next]
      split_ifs with starts
      · refine sound.start (Option.isNone_iff_eq_none.mp starts.1) fun other isBorn isPid isStart => ?_
        have isNew := List.all_eq_true.mp starts.2 other isBorn
        simp [isPid, isStart] at isNew
      · exact sound
  | take pid =>
      simp only [SelectWorld.next]
      split
      case h_1 claimant isProcess =>
        have isPid := (sound.started isProcess).2
        subst isPid
        exact sound.move isProcess nofun nofun trivial
      case h_2 => exact sound
  | step pid fault =>
      simp only [SelectWorld.next]
      split
      case h_1 process isProcess =>
        rcases process with ⟨claimant, phase⟩
        have isPid := (sound.started isProcess).2
        subst isPid
        exact sound.operate reader isProcess fault unshared
      case h_2 => exact sound
  | die pid => exact sound.die pid

end SelectWorld.Sound

theorem sound_run {reader : JsonReader} {events : List SelectEvent}
    (meets : (selectLocks reader).Meets SelectWorld.Unshared events) :
    ((selectLocks reader).run events).Sound := by
  have keeps : (selectLocks reader).Keeps SelectWorld.Unshared SelectWorld.Sound :=
    fun world event sound unshared => sound.next reader unshared
  exact keeps.run ⟨nofun, nofun, nofun, nofun, nofun, nofun, nofun⟩ meets

/-- As long as no process opens a temporary file that is also the lock, or that a read of the lock
has open, one living process holds the lock at a time, no other process removes its lock, and a
takeover removes the text that it judged. -/
theorem selection_lock {reader : JsonReader} {events : List SelectEvent} {event : SelectEvent}
    (meets : (selectLocks reader).Meets SelectWorld.Unshared (events ++ [event])) :
    (∀ pid other, ((selectLocks reader).run events).Holds pid →
      ((selectLocks reader).run events).Holds other → pid = other) ∧
    (∀ pid other, ((selectLocks reader).run events).Holds pid →
      ((selectLocks reader).run events).Unlinks event other → other = pid) ∧
    ∀ pid text, ((selectLocks reader).run events).TakesOver event pid text →
      ((selectLocks reader).run events).disk.read (.claim selectLock) = some text := by
  have sound := sound_run (Machine.meetsFrom_append.mp meets).1
  refine ⟨?_, ?_, ?_⟩
  · rintro pid other ⟨process, isProcess, holds⟩ ⟨found, isFound, holdsToo⟩
    exact sound.eq_of_holds isProcess holds isFound holdsToo
  · rintro pid other ⟨process, isProcess, holds⟩ unlinks
    rcases unlinks with ⟨text, -, found, isFound, isPhase, -⟩ | ⟨-, found, isFound, isPhase⟩
    · have reads := sound.read_of_holds isProcess holds
      have fits := sound.fits isFound
      rw [isPhase] at fits
      have stale := fits.1
      rw [Option.some.inj (fits.2.symm.trans reads)] at stale
      exact absurd stale (sound.not_stale_text isProcess)
    · exact sound.eq_of_holds isFound (by rw [isPhase]; rfl) isProcess holds
  · rintro pid text ⟨-, process, isProcess, isPhase, -⟩
    have fits := sound.fits isProcess
    rw [isPhase] at fits
    exact fits.2

def sampleReader : JsonReader := .keeping

def sampleClaimant (worker pid start : Fin 10) (positive : 0 < pid.val) : Claimant :=
  ⟨worker, pid, start, Nat.le_trans worker.is_le (by decide), Nat.le_trans pid.is_le (by decide),
    positive⟩

def takenOnce : List SelectEvent :=
  [.start (sampleClaimant 1 7 1 (by decide)), .take 7, .step 7 false, .step 7 false, .step 7 false,
    .step 7 false]

theorem selection_lock_taken :
    ((selectLocks sampleReader).run takenOnce).Holds 7 ∧
      ∀ other, ((selectLocks sampleReader).run takenOnce).Unlinks (.step 7 false) other →
        other = 7 := by
  have meets : (selectLocks sampleReader).Meets SelectWorld.Unshared
      (takenOnce ++ [.step 7 false]) := by
    refine ⟨trivial, trivial, ?_, ?_, ?_, ?_, ?_, trivial⟩
    · intro claimant inode isProcess isFile
      cases isProcess
      cases isFile
    · nofun
    · nofun
    · nofun
    · nofun
  have holds : ((selectLocks sampleReader).run takenOnce).Holds 7 := ⟨_, rfl, rfl⟩
  exact ⟨holds, fun other => (selection_lock meets).2.1 7 other holds⟩

/-- A process dies between its link and the removal of its temporary file. Another one judges the
lock and reads it again, and then a later process that got the number of the first one opens its
temporary file. -/
def emptiedLock : List SelectEvent :=
  [.start (sampleClaimant 1 7 1 (by decide)), .take 7, .step 7 false, .step 7 false, .step 7 false,
    .die 7, .start (sampleClaimant 2 9 2 (by decide)), .take 9] ++ List.replicate 11 (.step 9 false) ++
  [.start (sampleClaimant 1 7 3 (by decide)), .take 7, .step 7 false]

/-- The takeover removes a text that it did not judge. -/
theorem selection_lock_emptied :
    ((selectLocks sampleReader).run emptiedLock).TakesOver (.step 9 false) 9
      (sampleClaimant 1 7 1 (by decide)).text ∧
    ((selectLocks sampleReader).run emptiedLock).disk.read (.claim selectLock) = some [] := by
  have removes : (((selectLocks sampleReader).run emptiedLock).processes 9).any (fun process =>
      match process.phase with
      | .removing text => text = (sampleClaimant 1 7 1 (by decide)).text
      | _ => false) = true := by decide +kernel
  refine ⟨⟨rfl, ?_⟩, by decide +kernel⟩
  cases isProcess : ((selectLocks sampleReader).run emptiedLock).processes 9 with
  | none =>
      rw [isProcess] at removes
      cases removes
  | some process =>
      rw [isProcess] at removes
      rcases process with ⟨claimant, phase⟩
      cases phase with
      | removing text => exact ⟨_, rfl, congrArg _ (of_decide_eq_true removes), by decide +kernel⟩
      | _ => cases removes

end StudentHub.CardRun
