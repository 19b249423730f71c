import StudentHub.Concurrency.Machine
import StudentHub.Ecma.Canonical

/-!
# One holder of the landing lock

While a process holds the lock the file is its own, and only a takeover between its marker
and the removal of it can change the lock of a dead process. What a takeover has read stays
in the lock until it tests the process again, as long as that process does not release the
lock meanwhile.
-/

/-!
## The landing lock

A worker merges only while it holds the landing lock, a file that it created exclusively and
that names its process. A lock whose holder is gone is taken over: one process at a time
creates the takeover marker, reads the lock again, and removes it when it still names the
dead process. Every file operation is a step of its own, and a process may die before any of
them; what it held stays as it is, and a later process may get its number.
-/

namespace StudentHub.Landing

open Ecma JsString Concurrency

structure LockFile where
  owner : ℕ
  text : JsString
  deriving DecidableEq

/-- Where a process is in `takeLandLock`, in `clearStaleLock`, which that calls, and in the
release that it returns: the file operation that comes next, with what it was read for. -/
inductive Phase
  | idle
  | taking
  | created
  | holding
  | contended
  | judging (holder : JsString)
  | marking (holder : JsString)
  | naming (holder : JsString)
  | rereading (holder : JsString)
  | testing (holder : JsString)
  | removing (holder : JsString)
  | clearing (removed : Bool)
  | waiting
  | stopped
  | stranded
  deriving DecidableEq

structure LockProcess where
  pid : ℕ
  live : Bool
  phase : Phase
  deriving DecidableEq

/-- The processes in the order of their starts, the lock and its takeover marker. -/
structure LockWorld where
  processes : List LockProcess
  lock : Option LockFile
  marker : Option LockFile

/-- `/^[1-9]\d*$/` -/
def namesPid : JsString → Bool
  | [] => false
  | first :: rest => isDigit first && first ≠ 48 && rest.all isDigit

namespace LockWorld

/-- `existsSync` of `/proc/<holder>` -/
def inProc (world : LockWorld) (holder : JsString) : Bool :=
  world.processes.any fun process => process.live && decimal process.pid = holder

def setPhase (world : LockWorld) (id : ℕ) (phase : Phase) : LockWorld :=
  { world with processes := world.processes.modify id fun process => { process with phase } }

/-- The write that comes after an exclusive create goes to the file that was created. -/
def write (file : Option LockFile) (id : ℕ) (text : JsString) : Option LockFile :=
  file.map fun found => if found.owner = id then { found with text } else found

/-- The next file operation of a process, which may fail without an effect. A process that
waits looks at the clock instead, and a fault there is that the deadline has passed. -/
def operate (world : LockWorld) (id : ℕ) (pid : ℕ) (fault : Bool) : Phase → LockWorld
  | .idle | .stopped | .stranded => world
  | .taking =>
      if fault then world.setPhase id .stopped
      else if world.lock.isSome then world.setPhase id .contended
      else { world with lock := some ⟨id, []⟩ }.setPhase id .created
  | .created =>
      if fault then world.setPhase id .stranded
      else { world with lock := write world.lock id (decimal pid) }.setPhase id .holding
  -- the release, whose caller does not learn that it failed
  | .holding => if fault then world.setPhase id .idle else { world with lock := none }.setPhase id .idle
  | .contended =>
      match if fault then none else world.lock with
      | none => world.setPhase id .waiting
      | some found =>
          let holder := trim found.text
          world.setPhase id (if namesPid holder then .judging holder else .waiting)
  | .judging holder =>
      world.setPhase id (if world.inProc holder then .waiting else .marking holder)
  | .marking holder =>
      if fault || world.marker.isSome then world.setPhase id .waiting
      else { world with marker := some ⟨id, []⟩ }.setPhase id (.naming holder)
  -- a marker whose pid cannot be written stays, and no one removes it
  | .naming holder =>
      if fault then world.setPhase id .waiting
      else { world with marker := write world.marker id (decimal pid) }.setPhase id
        (.rereading holder)
  | .rereading holder =>
      let again := if fault then none else world.lock.map fun found => trim found.text
      world.setPhase id (if again = some holder then .testing holder else .clearing false)
  | .testing holder =>
      world.setPhase id (if world.inProc holder then .clearing false else .removing holder)
  | .removing _ =>
      if fault || world.lock.isNone then world.setPhase id (.clearing false)
      else { world with lock := none }.setPhase id (.clearing true)
  | .clearing removed =>
      { world with marker := if fault then world.marker else none }.setPhase id
        (if removed then .taking else .waiting)
  | .waiting => world.setPhase id (if fault then .stopped else .taking)

end LockWorld

inductive LockEvent
  | start (pid : ℕ)
  | call (id : ℕ)
  | step (id : ℕ) (fault : Bool)
  | die (id : ℕ)
  deriving DecidableEq

namespace LockWorld

def process? (world : LockWorld) (id : ℕ) : Option LockProcess :=
  world.processes[id]?.filter (·.live)

/-- A process starts under a number that no living process has. -/
def next (world : LockWorld) : LockEvent → LockWorld
  | .start pid =>
      if world.inProc (decimal pid) then world
      else { world with processes := world.processes ++ [⟨pid, true, .idle⟩] }
  | .call id =>
      match world.process? id with
      | some ⟨_, _, .idle⟩ => world.setPhase id .taking
      | _ => world
  | .step id fault =>
      match world.process? id with
      | some process => world.operate id process.pid fault process.phase
      | none => world
  | .die id =>
      { world with processes := world.processes.modify id fun process => { process with live := false } }

end LockWorld

def landLock : Machine LockWorld LockEvent := ⟨⟨[], none, none⟩, LockWorld.next⟩

namespace Phase

/-- From the exclusive create of the lock to the release. -/
def holds : Phase → Bool
  | created | holding | stranded => true
  | _ => false

def marks : Phase → Bool
  | naming _ | rereading _ | testing _ | removing _ | clearing _ => true
  | _ => false

end Phase

namespace LockWorld

variable (world : LockWorld)

def Holds (id : ℕ) : Prop := ∃ process, world.process? id = some process ∧ process.phase.holds

def TakesOver (event : LockEvent) : Prop :=
  ∃ id process holder, event = .step id false ∧ world.process? id = some process ∧
    process.phase = .removing holder ∧ world.lock.isSome

/-- No process releases the lock while a takeover that has read its number in the lock again is
about to test whether it lives. -/
def Undisturbed : LockEvent → Prop
  | .step id false =>
      ∀ process ∈ world.process? id, process.phase = .holding →
        ∀ taker ∈ world.processes, taker.live → taker.phase ≠ .testing (decimal process.pid)
  | _ => True

instance decidableUndisturbed : (event : LockEvent) → Decidable (world.Undisturbed event)
  | .step _ false => inferInstanceAs (Decidable (∀ process ∈ _, _))
  | .step _ true => .isTrue trivial
  | .start _ => .isTrue trivial
  | .call _ => .isTrue trivial
  | .die _ => .isTrue trivial

end LockWorld

end StudentHub.Landing

namespace StudentHub.Landing

open Ecma JsString Concurrency
open Json (isDigit_of_mem_decimal)

theorem isWhiteSpace_of_isDigit {unit : UInt16} (digit : isDigit unit = true) :
    isWhiteSpace unit = false := by
  rw [isDigit_iff] at digit
  have above : ∀ other : UInt16, other.toNat < 48 ∨ 57 < other.toNat → unit ≠ other := by
    rintro other outside rfl
    omega
  simp only [isWhiteSpace, Bool.or_eq_false_iff, decide_eq_false_iff_not, List.mem_cons,
    List.not_mem_nil, or_false, not_or, Bool.and_eq_false_iff, UInt16.le_iff_toNat_le]
  refine ⟨?_, ?_⟩
  · refine ⟨?_, ?_, ?_, ?_, ?_, ?_, ?_, ?_, ?_, ?_, ?_, ?_, ?_, ?_⟩ <;> exact above _ (by decide)
  · left
    have bound : (0x2000 : UInt16).toNat = 0x2000 := rfl
    omega

theorem trim_decimal (number : ℕ) : trim (decimal number) = decimal number := by
  have digits : ∀ unit ∈ decimal number, isWhiteSpace unit = false :=
    fun unit unitMem => isWhiteSpace_of_isDigit (isDigit_of_mem_decimal unitMem)
  have front : (decimal number).dropWhile isWhiteSpace = decimal number := by
    rw [List.dropWhile_eq_self_iff]
    intro nonempty
    simp only [digits _ (List.getElem_mem nonempty), Bool.false_eq_true, not_false_iff]
  rw [trim, front, List.rdropWhile_eq_self_iff]
  intro nonempty
  simp only [digits _ (List.getLast_mem nonempty), Bool.false_eq_true, not_false_iff]

namespace LockWorld

variable {world : LockWorld} {id me other : ℕ} {phase : Phase} {process : LockProcess}

def pid? (world : LockWorld) (id : ℕ) : Option ℕ := world.processes[id]?.map (·.pid)

def Lives (world : LockWorld) (id : ℕ) : Prop := (world.process? id).isSome

theorem process?_eq_some : world.process? id = some process ↔
    world.processes[id]? = some process ∧ process.live = true := by
  simp only [process?, Option.filter_eq_some_iff]

theorem process?_setPhase : (world.setPhase id phase).process? other =
    if other = id then (world.process? id).map fun process => { process with phase }
    else world.process? other := by
  simp only [process?, setPhase, List.getElem?_modify]
  by_cases same : id = other
  · subst same
    rcases world.processes[id]? with _ | process
    · simp
    · rcases alive : process.live <;> simp [Option.filter, alive]
  · simp [same, Ne.symm same]

@[simp]
theorem pid?_setPhase : (world.setPhase id phase).pid? = world.pid? := by
  funext other
  simp only [pid?, setPhase, List.getElem?_modify]
  rcases world.processes[other]? with _ | process
  · rfl
  · by_cases same : id = other <;> simp [same]

@[simp]
theorem lives_setPhase : (world.setPhase id phase).Lives = world.Lives := by
  funext other
  simp only [Lives, process?_setPhase]
  split_ifs with same
  · rw [same, Option.isSome_map]
  · rfl

theorem process?_start (pid : ℕ) : (⟨world.processes ++ [⟨pid, true, .idle⟩], world.lock,
    world.marker⟩ : LockWorld).process? other =
      if other = world.processes.length then some ⟨pid, true, .idle⟩ else world.process? other := by
  simp only [process?]
  rcases Nat.lt_trichotomy other world.processes.length with old | same | later
  · rw [List.getElem?_append_left old, if_neg (Nat.ne_of_lt old)]
  · simp [same, Option.filter]
  · rw [List.getElem?_append_right (Nat.le_of_lt later), if_neg (Nat.ne_of_gt later),
      List.getElem?_eq_none (by simp; omega), List.getElem?_eq_none (Nat.le_of_lt later)]

theorem process?_die : (world.next (.die id)).process? other =
    if other = id then none else world.process? other := by
  simp only [process?, next, List.getElem?_modify]
  by_cases same : id = other
  · subst same
    rcases world.processes[id]? with _ | process <;> simp [Option.filter]
  · simp [same, Ne.symm same]

theorem pid?_die : (world.next (.die id)).pid? = world.pid? := by
  funext other
  simp only [pid?, next, List.getElem?_modify]
  rcases world.processes[other]? with _ | process
  · rfl
  · by_cases same : id = other <;> simp [same]

theorem lt_of_pid? {pid : ℕ} (isPid : world.pid? id = some pid) : id < world.processes.length := by
  rcases Option.map_eq_some_iff.mp isPid with ⟨process, found, -⟩
  exact (List.getElem?_eq_some_iff.mp found).1

theorem lives_of_process? (found : world.process? id = some process) : world.Lives id := by
  rw [Lives, found, Option.isSome_some]

theorem pid?_of_process? (found : world.process? id = some process) :
    world.pid? id = some process.pid := by
  rw [pid?, (process?_eq_some.mp found).1, Option.map_some]

theorem inProc_of_lives (lives : world.Lives id) {pid : ℕ} (isPid : world.pid? id = some pid) :
    world.inProc (decimal pid) = true := by
  rcases Option.isSome_iff_exists.mp lives with ⟨process, found⟩
  rw [pid?_of_process? found] at isPid
  rcases process?_eq_some.mp found with ⟨inside, isLive⟩
  refine List.any_eq_true.mpr ⟨process, List.mem_of_getElem? inside, ?_⟩
  simp only [isLive, Option.some.inj isPid, decide_true, Bool.and_self]

end LockWorld

def IsOf (id : ℕ) (file : Option LockFile) : Prop := ∃ found, file = some found ∧ found.owner = id

theorem IsOf.unique {id other : ℕ} {file : Option LockFile} (left : IsOf id file)
    (right : IsOf other file) : id = other := by
  rcases left with ⟨found, rfl, rfl⟩
  rcases right with ⟨_, same, rfl⟩
  rw [Option.some.inj same]

theorem IsOf.write {id me : ℕ} {file : Option LockFile} (isOf : IsOf id file) (text : JsString) :
    IsOf id (LockWorld.write file me text) := by
  rcases isOf with ⟨found, rfl, rfl⟩
  simp only [LockWorld.write, Option.map_some]
  split_ifs
  · exact ⟨_, rfl, rfl⟩
  · exact ⟨_, rfl, rfl⟩

def Fits (lock marker : Option LockFile) (lives : ℕ → Prop) (id : ℕ) : Phase → Prop
  | .idle | .taking | .contended | .waiting | .stopped => True
  | .created => lock = some ⟨id, []⟩
  | .holding | .stranded => IsOf id lock
  | .judging holder | .marking holder => namesPid holder
  | .naming holder | .rereading holder => namesPid holder ∧ IsOf id marker
  | .testing holder =>
      (namesPid holder ∧ IsOf id marker) ∧ ∃ found, lock = some found ∧ trim found.text = holder
  | .removing _ => IsOf id marker ∧ ∃ found, lock = some found ∧ ¬lives found.owner
  | .clearing _ => IsOf id marker

theorem Fits.owned {lock marker : Option LockFile} {lives : ℕ → Prop} {id : ℕ} {phase : Phase}
    (fits : Fits lock marker lives id phase) (holds : phase.holds) : IsOf id lock := by
  cases phase with
  | created => exact ⟨_, fits, rfl⟩
  | holding => exact fits
  | stranded => exact fits
  | _ => cases holds

section Others

variable {lock marker : Option LockFile} {lives : ℕ → Prop} {id me : ℕ} {phase : Phase}

theorem Fits.of_no_lock (fits : Fits none marker lives id phase) (lock : Option LockFile) :
    Fits lock marker lives id phase := by
  cases phase with
  | created => cases fits
  | holding => rcases fits with ⟨_, isLock, -⟩; cases isLock
  | stranded => rcases fits with ⟨_, isLock, -⟩; cases isLock
  | testing holder => rcases fits with ⟨-, _, isLock, -⟩; cases isLock
  | removing holder => rcases fits with ⟨-, _, isLock, -⟩; cases isLock
  | _ => exact fits

theorem Fits.of_empty_lock (fits : Fits (some ⟨me, []⟩) marker lives id phase) (different : id ≠ me)
    (isLive : lives me) (lock : Option LockFile) : Fits lock marker lives id phase := by
  cases phase with
  | created =>
      have same := congrArg LockFile.owner (Option.some.inj fits)
      exact absurd same.symm different
  | holding => exact absurd (fits.unique ⟨_, rfl, rfl⟩) different
  | stranded => exact absurd (fits.unique ⟨_, rfl, rfl⟩) different
  | testing holder =>
      rcases fits with ⟨⟨names, -⟩, found, isLock, isText⟩
      rw [← Option.some.inj isLock] at isText
      rw [← isText] at names
      cases names
  | removing holder =>
      rcases fits with ⟨-, found, isLock, isDead⟩
      rw [← Option.some.inj isLock] at isDead
      exact absurd isLive isDead
  | _ => exact fits

theorem Fits.of_release {found : LockFile} {pid : ℕ} (fits : Fits (some found) marker lives id phase)
    (different : id ≠ found.owner) (isLive : lives found.owner)
    (isText : found.text = [] ∨ found.text = decimal pid) (undisturbed : phase ≠ .testing (decimal pid)) :
    Fits none marker lives id phase := by
  cases phase with
  | created =>
      have same := congrArg LockFile.owner (Option.some.inj fits)
      exact absurd same.symm different
  | holding => exact absurd (fits.unique ⟨_, rfl, rfl⟩) different
  | stranded => exact absurd (fits.unique ⟨_, rfl, rfl⟩) different
  | testing holder =>
      rcases fits with ⟨⟨names, -⟩, other, isLock, isHolder⟩
      rw [← Option.some.inj isLock] at isHolder
      rcases isText with isText | isText
      · rw [← isHolder, isText] at names
        cases names
      · rw [isText, trim_decimal] at isHolder
        exact absurd (congrArg Phase.testing isHolder.symm) undisturbed
  | removing holder =>
      rcases fits with ⟨-, other, isLock, isDead⟩
      rw [← Option.some.inj isLock] at isDead
      exact absurd isLive isDead
  | _ => exact fits

theorem Fits.of_takeover {found : LockFile} (fits : Fits (some found) marker lives id phase)
    (different : id ≠ me) (isMarker : IsOf me marker) (isDead : ¬lives found.owner)
    (isLive : lives id) : Fits none marker lives id phase := by
  have notOwner : id ≠ found.owner := by
    rintro rfl
    exact isDead isLive
  cases phase with
  | created =>
      have same := congrArg LockFile.owner (Option.some.inj fits)
      exact absurd same.symm notOwner
  | holding => exact absurd (fits.unique ⟨_, rfl, rfl⟩) notOwner
  | stranded => exact absurd (fits.unique ⟨_, rfl, rfl⟩) notOwner
  | testing holder => exact absurd (fits.1.2.unique isMarker) different
  | removing holder => exact absurd (fits.1.unique isMarker) different
  | _ => exact fits

theorem Fits.of_marker (fits : Fits lock marker lives id phase) (after : Option LockFile)
    (others : ¬IsOf id marker) : Fits lock after lives id phase := by
  cases phase with
  | naming holder => exact absurd fits.2 others
  | rereading holder => exact absurd fits.2 others
  | testing holder => exact absurd fits.1.2 others
  | removing holder => exact absurd fits.1 others
  | clearing removed => exact absurd fits others
  | _ => exact fits

theorem Fits.of_lives {after : ℕ → Prop} (fits : Fits lock marker lives id phase)
    (fewer : ∀ found, lock = some found → ¬lives found.owner → ¬after found.owner) :
    Fits lock marker after id phase := by
  cases phase with
  | removing holder =>
      rcases fits with ⟨isMarker, found, isLock, isDead⟩
      exact ⟨isMarker, found, isLock, fewer found isLock isDead⟩
  | _ => exact fits

end Others

/-- The lock names the process that created it, or is still empty, and every living process can
count on what its phase needs. -/
structure Guarded (world : LockWorld) : Prop where
  texts : ∀ found, world.lock = some found → ∃ pid, world.pid? found.owner = some pid ∧
    (found.text = [] ∨ found.text = decimal pid)
  fits : ∀ id process, world.process? id = some process →
    Fits world.lock world.marker world.Lives id process.phase

namespace Guarded

variable {world : LockWorld} {id me : ℕ} {process : LockProcess} {phase : Phase}
  {lock marker : Option LockFile}

theorem put (guarded : Guarded world) (lock marker : Option LockFile)
    (texts : ∀ found, lock = some found → ∃ pid, world.pid? found.owner = some pid ∧
      (found.text = [] ∨ found.text = decimal pid))
    (mine : Fits lock marker world.Lives me phase)
    (others : ∀ other taker, other ≠ me → world.process? other = some taker →
      Fits world.lock world.marker world.Lives other taker.phase →
      Fits lock marker world.Lives other taker.phase) :
    Guarded ({ world with lock, marker }.setPhase me phase) := by
  refine ⟨?_, ?_⟩
  · intro found isLock
    rw [LockWorld.pid?_setPhase]
    exact texts found isLock
  · intro other taker isTaker
    rw [LockWorld.lives_setPhase]
    rw [LockWorld.process?_setPhase] at isTaker
    split_ifs at isTaker with same
    · rcases Option.map_eq_some_iff.mp isTaker with ⟨before, -, rfl⟩
      rw [same]
      exact mine
    · exact others other taker same isTaker (guarded.fits other taker isTaker)

theorem move (guarded : Guarded world)
    (mine : Fits world.lock world.marker world.Lives me phase) :
    Guarded (world.setPhase me phase) :=
  guarded.put world.lock _ guarded.texts mine fun _ _ _ _ fits => fits

theorem operate (guarded : Guarded world) (found : world.process? me = some process) (fault : Bool)
    (undisturbed : fault = false → process.phase = .holding → ∀ id taker,
      world.process? id = some taker → taker.phase ≠ .testing (decimal process.pid)) :
    Guarded (world.operate me process.pid fault process.phase) := by
  have mine := guarded.fits me process found
  have isLive := LockWorld.lives_of_process? found
  have isPid := LockWorld.pid?_of_process? found
  cases isPhase : process.phase with
  | idle => exact guarded
  | stopped => exact guarded
  | stranded => exact guarded
  | taking =>
      simp only [LockWorld.operate]
      split_ifs with isFault isHeld
      · exact guarded.move trivial
      · exact guarded.move trivial
      · rw [Option.not_isSome_iff_eq_none] at isHeld
        refine guarded.put _ world.marker ?_ rfl ?_
        · rintro file ⟨⟩
          exact ⟨_, isPid, Or.inl rfl⟩
        · intro other taker _ _ fits
          rw [isHeld] at fits
          exact fits.of_no_lock _
  | created =>
      rw [isPhase] at mine
      have isLock : world.lock = some ⟨me, []⟩ := mine
      simp only [LockWorld.operate]
      split_ifs with isFault
      · exact guarded.move ⟨_, isLock, rfl⟩
      · refine guarded.put _ world.marker ?_ (IsOf.write ⟨_, isLock, rfl⟩ _) ?_
        · intro file written
          simp only [LockWorld.write, isLock, Option.map_some, if_true, Option.some.injEq] at written
          subst written
          exact ⟨_, isPid, Or.inr rfl⟩
        · intro other taker different _ fits
          rw [isLock] at fits
          exact fits.of_empty_lock different isLive _
  | holding =>
      rw [isPhase] at mine
      rcases mine with ⟨file, isLock, rfl⟩
      simp only [LockWorld.operate]
      split_ifs with isFault
      · exact guarded.move trivial
      · refine guarded.put none world.marker (by simp) trivial ?_
        intro other taker different isTaker fits
        rcases guarded.texts file isLock with ⟨pid, named, isText⟩
        rw [isPid, Option.some.injEq] at named
        rw [isLock] at fits
        rw [← named] at isText
        exact fits.of_release different isLive isText
          (undisturbed (by simpa using isFault) isPhase other taker isTaker)
  | contended =>
      simp only [LockWorld.operate]
      split
      · exact guarded.move trivial
      · split_ifs with names
        · exact guarded.move names
        · exact guarded.move trivial
  | judging holder =>
      rw [isPhase] at mine
      simp only [LockWorld.operate]
      split_ifs
      · exact guarded.move trivial
      · exact guarded.move mine
  | marking holder =>
      rw [isPhase] at mine
      simp only [LockWorld.operate]
      split_ifs with standing
      · exact guarded.move trivial
      · rw [Bool.or_eq_true, not_or, Bool.not_eq_true, Bool.not_eq_true,
          Option.isSome_eq_false_iff, Option.isNone_iff_eq_none] at standing
        refine guarded.put world.lock _ guarded.texts ⟨mine, _, rfl, rfl⟩ ?_
        intro other taker _ _ fits
        apply fits.of_marker
        rintro ⟨file, isMarker, -⟩
        rw [standing.2] at isMarker
        cases isMarker
  | naming holder =>
      rw [isPhase] at mine
      simp only [LockWorld.operate]
      split_ifs with isFault
      · exact guarded.move trivial
      · refine guarded.put world.lock _ guarded.texts ⟨mine.1, mine.2.write _⟩ ?_
        intro other taker different _ fits
        exact fits.of_marker _ fun isMarker => different (isMarker.unique mine.2)
  | rereading holder =>
      rw [isPhase] at mine
      simp only [LockWorld.operate]
      split_ifs with isFault isNone again
      · exact isNone.elim
      · exact guarded.move mine.2
      · exact guarded.move ⟨mine, Option.map_eq_some_iff.mp again⟩
      · exact guarded.move mine.2
  | testing holder =>
      rw [isPhase] at mine
      rcases mine with ⟨⟨names, isMarker⟩, file, isLock, isHolder⟩
      simp only [LockWorld.operate]
      split_ifs with alive
      · exact guarded.move isMarker
      · refine guarded.move ⟨isMarker, file, isLock, ?_⟩
        intro lives
        rcases guarded.texts file isLock with ⟨pid, named, isText | isText⟩
        · rw [← isHolder, isText] at names
          cases names
        · rw [isText, trim_decimal] at isHolder
          rw [← isHolder] at alive
          exact alive (LockWorld.inProc_of_lives lives named)
  | removing holder =>
      rw [isPhase] at mine
      rcases mine with ⟨isMarker, file, isLock, isDead⟩
      simp only [LockWorld.operate]
      split_ifs
      · exact guarded.move isMarker
      · refine guarded.put none world.marker (by simp) isMarker ?_
        intro other taker different isTaker fits
        rw [isLock] at fits
        exact fits.of_takeover different isMarker isDead (LockWorld.lives_of_process? isTaker)
  | clearing removed =>
      rw [isPhase] at mine
      have isMarker : IsOf me world.marker := mine
      have nothing : ∀ lock marker, Fits lock marker world.Lives me
          (if removed then .taking else .waiting) := by
        intro lock marker
        cases removed <;> exact trivial
      simp only [LockWorld.operate]
      refine guarded.put world.lock _ guarded.texts (nothing _ _) ?_
      intro other taker different _ fits
      exact fits.of_marker _ fun isOther => different (isOther.unique isMarker)
  | waiting =>
      simp only [LockWorld.operate]
      split_ifs <;> exact guarded.move trivial

theorem next (guarded : Guarded world) (event : LockEvent) (undisturbed : world.Undisturbed event) :
    Guarded (world.next event) := by
  cases event with
  | start pid =>
      simp only [LockWorld.next]
      split_ifs with taken
      · exact guarded
      · have started := @LockWorld.process?_start world
        refine ⟨?_, ?_⟩
        · intro found isLock
          rcases guarded.texts found isLock with ⟨named, isPid, isText⟩
          refine ⟨named, ?_, isText⟩
          rw [← isPid, LockWorld.pid?, LockWorld.pid?,
            List.getElem?_append_left (LockWorld.lt_of_pid? isPid)]
        · intro id process isProcess
          rw [started] at isProcess
          split_ifs at isProcess with isLast
          · rw [← Option.some.inj isProcess]
            exact trivial
          · apply (guarded.fits id process isProcess).of_lives
            intro found isLock isDead
            rcases guarded.texts found isLock with ⟨named, isPid, -⟩
            rw [LockWorld.Lives, started, if_neg (Nat.ne_of_lt (LockWorld.lt_of_pid? isPid))]
            exact isDead
  | call id =>
      simp only [LockWorld.next]
      split
      · exact guarded.move trivial
      · exact guarded
  | step id fault =>
      simp only [LockWorld.next]
      split
      · rename_i process found
        apply guarded.operate found
        rintro rfl isHolding other taker isTaker
        rcases LockWorld.process?_eq_some.mp isTaker with ⟨inside, isLive⟩
        exact undisturbed process found isHolding taker (List.mem_of_getElem? inside) isLive
      · exact guarded
  | die id =>
      refine ⟨?_, ?_⟩
      · rw [LockWorld.pid?_die]
        exact guarded.texts
      · intro other process isProcess
        rw [LockWorld.process?_die] at isProcess
        split_ifs at isProcess with different
        apply (guarded.fits other process isProcess).of_lives
        intro found _ isDead
        rw [LockWorld.Lives, LockWorld.process?_die]
        split_ifs
        · simp
        · exact isDead

theorem keeps : landLock.Keeps LockWorld.Undisturbed Guarded :=
  fun _ event guarded undisturbed => guarded.next event undisturbed

theorem initial : Guarded landLock.initial := by
  refine ⟨?_, ?_⟩
  · rintro found ⟨⟩
  · intro id process isProcess
    simp [landLock, LockWorld.process?] at isProcess

theorem isOf_lock (guarded : Guarded world) (holds : world.Holds id) : IsOf id world.lock := by
  rcases holds with ⟨process, found, isHolding⟩
  exact (guarded.fits id process found).owned isHolding

end Guarded

end StudentHub.Landing
