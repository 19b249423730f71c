import StudentHub.Concurrency.HardLinks
import StudentHub.Concurrency.Machine
import StudentHub.Ecma.Canonical

/-!
# Claim files

A claim is written whole to a temporary file, and then published with a hard link or put in the
place of an older one with a rename. Every file operation is a step of its own. A process may die
before any of them, and a later process may get its number, and with it the names of its temporary
files.
-/

namespace StudentHub.CardRun

open Ecma JsString Concurrency

inductive ClaimName
  | claim (file : JsString)
  | temp (file : JsString) (pid : ℕ)
  deriving DecidableEq

def tempOf (file : JsString) (pid : ℕ) : ClaimName := .temp file pid

inductive ClaimCall
  | publishClaim
  | replaceClaim
  deriving DecidableEq

/-- Where a process is in `publishClaim`, in `replaceClaim` or in a read: the file operation that
comes next, and the file that it has open. -/
inductive ClaimPhase
  | idle
  | starting (call : ClaimCall) (file text : JsString)
  | opened (call : ClaimCall) (file text : JsString) (inode : ℕ)
  | written (call : ClaimCall) (file text : JsString)
  | cleaning (file : JsString)
  | reading (file : JsString) (inode : ℕ)
  deriving DecidableEq

/-- The living processes by their numbers; `completed` lists what has been published or put in the
place of a claim. -/
structure ClaimWorld where
  disk : Disk ClaimName JsString
  processes : ℕ → Option ClaimPhase
  completed : List (JsString × JsString)

inductive ClaimEvent
  | start (pid : ℕ)
  | call (pid : ℕ) (call : ClaimCall) (file text : JsString)
  | unlink (pid : ℕ) (file : JsString)
  | openClaim (pid : ℕ) (file : JsString)
  | step (pid : ℕ) (fault : Bool)
  | die (pid : ℕ)
  deriving DecidableEq

namespace ClaimWorld

def setPhase (world : ClaimWorld) (pid : ℕ) (phase : ClaimPhase) : ClaimWorld :=
  { world with processes := Function.update world.processes pid (some phase) }

def operate (world : ClaimWorld) (pid : ℕ) (fault : Bool) : ClaimPhase → ClaimWorld
  | .idle => world
  -- `writeFileSync` opens the temporary file and empties it where it is
  | .starting call file text =>
      if fault then world.setPhase pid .idle
      else { world with disk := world.disk.truncate (tempOf file pid) [] }.setPhase pid
        (.opened call file text (world.disk.target (tempOf file pid)))
  | .opened call file text inode =>
      if fault then world.setPhase pid .idle
      else { world with disk := world.disk.write inode text }.setPhase pid (.written call file text)
  | .written .publishClaim file text =>
      match if fault then none else world.disk.link (tempOf file pid) (.claim file) with
      | none => world.setPhase pid (.cleaning file)
      | some disk =>
          { world with disk, completed := world.completed ++ [(file, text)] }.setPhase pid
            (.cleaning file)
  | .written .replaceClaim file text =>
      match if fault then none else world.disk.rename (tempOf file pid) (.claim file) with
      | none => world.setPhase pid (.cleaning file)
      | some disk =>
          { world with disk, completed := world.completed ++ [(file, text)] }.setPhase pid .idle
  | .cleaning file =>
      { world with disk := if fault then world.disk else world.disk.remove (tempOf file pid) }.setPhase
        pid .idle
  | .reading _ _ => world.setPhase pid .idle

def next (world : ClaimWorld) : ClaimEvent → ClaimWorld
  | .start pid => if (world.processes pid).isNone then world.setPhase pid .idle else world
  | .call pid call file text =>
      match world.processes pid with
      | some .idle => world.setPhase pid (.starting call file text)
      | _ => world
  | .unlink pid file =>
      match world.processes pid with
      | some .idle => { world with disk := world.disk.remove (.claim file) }.setPhase pid .idle
      | _ => world
  | .openClaim pid file =>
      match world.processes pid with
      | some .idle => ((world.disk.file (.claim file)).map fun inode =>
          world.setPhase pid (.reading file inode)).getD world
      | _ => world
  | .step pid fault =>
      match world.processes pid with
      | some phase => world.operate pid fault phase
      | none => world
  | .die pid => { world with processes := Function.update world.processes pid none }

variable (world : ClaimWorld)

def returned : ClaimEvent → Option (JsString × JsString)
  | .step pid false =>
      match world.processes pid with
      | some (.reading file inode) => some (file, world.disk.text inode)
      | _ => none
  | _ => none

/-- The event is the rename of a `replaceClaim` of the file, or its removal. -/
def Changes (file : JsString) (event : ClaimEvent) : Prop :=
  (∃ pid text, event = .step pid false ∧
    world.processes pid = some (.written .replaceClaim file text)) ∨
  ∃ pid, event = .unlink pid file ∧ world.processes pid = some .idle

/-- The file has no claim's name, and no process that opened it as one reads it. -/
def Private (inode : ℕ) : Prop :=
  (∀ file, world.disk.file (.claim file) ≠ some inode) ∧
    ∀ reader file, world.processes reader ≠ some (.reading file inode)

/-- A process that opens its temporary file to write it finds none, or one that is private. -/
def Unshared : ClaimEvent → Prop
  | .step pid false => ∀ call file text inode, world.processes pid = some (.starting call file text) →
      world.disk.file (tempOf file pid) = some inode → world.Private inode
  | _ => True

end ClaimWorld

def claimFolder : Machine ClaimWorld ClaimEvent := ⟨⟨.blank [], fun _ => none, []⟩, ClaimWorld.next⟩

theorem claim_ne_tempOf (claim file : JsString) (pid : ℕ) : .claim claim ≠ tempOf file pid := nofun

def ClaimFits (world : ClaimWorld) (pid : ℕ) : ClaimPhase → Prop
  | .idle | .starting _ _ _ | .cleaning _ => True
  | .opened _ file _ inode => world.disk.file (tempOf file pid) = some inode ∧ world.Private inode
  | .written _ file text => world.disk.read (tempOf file pid) = some text
  | .reading file inode =>
      inode < world.disk.count ∧ (file, world.disk.text inode) ∈ world.completed

/-- No file has two temporary names, every claim has a text that has been published or put in its
place, and every living process can count on what its phase needs. -/
structure Whole (world : ClaimWorld) : Prop where
  temps : ∀ {file pid other otherPid inode}, world.disk.file (tempOf file pid) = some inode →
    world.disk.file (tempOf other otherPid) = some inode → file = other ∧ pid = otherPid
  published : ∀ {file inode}, world.disk.file (.claim file) = some inode →
    (file, world.disk.text inode) ∈ world.completed
  fits : ∀ {pid phase}, world.processes pid = some phase → ClaimFits world pid phase

namespace Whole

variable {world : ClaimWorld} {pid : ℕ} {phase : ClaimPhase}

theorem processes_setPhase {other : ℕ} {found : ClaimPhase}
    (isPhase : (world.setPhase pid phase).processes other = some found) :
    other = pid ∧ found = phase ∨ other ≠ pid ∧ world.processes other = some found := by
  simp only [ClaimWorld.setPhase, Function.update_apply] at isPhase
  split_ifs at isPhase with same
  · exact .inl ⟨same, (Option.some.inj isPhase).symm⟩
  · exact .inr ⟨same, isPhase⟩

theorem private_setPhase {inode : ℕ} (isPrivate : world.Private inode)
    (notReading : ∀ file, phase ≠ .reading file inode) :
    (world.setPhase pid phase).Private inode := by
  refine ⟨isPrivate.1, fun reader file isReading => ?_⟩
  rcases processes_setPhase isReading with ⟨-, same⟩ | ⟨-, old⟩
  · exact notReading file same.symm
  · exact isPrivate.2 reader file old

theorem move (whole : Whole world) (fits : ClaimFits world pid phase)
    (noReader : ∀ file inode, phase = .reading file inode →
      world.disk.file (.claim file) = some inode)
    (notOpened : ∀ call file text inode, phase ≠ .opened call file text inode) :
    Whole (world.setPhase pid phase) := by
  refine ⟨whole.temps, whole.published, ?_⟩
  intro other found isPhase
  rcases processes_setPhase isPhase with ⟨rfl, rfl⟩ | ⟨-, old⟩
  · cases found with
    | opened call file text inode => exact absurd rfl (notOpened call file text inode)
    | _ => exact fits
  · have others := whole.fits old
    cases found with
    | opened call file text inode =>
        refine ⟨others.1, private_setPhase others.2 ?_⟩
        rintro claim rfl
        exact others.2.1 claim (noReader claim inode rfl)
    | _ => exact others

variable {call : ClaimCall} {file text : JsString} {inode : ℕ}

theorem private_target (whole : Whole world)
    (unshared : ∀ inode, world.disk.file (tempOf file pid) = some inode → world.Private inode) :
    world.Private (world.disk.target (tempOf file pid)) := by
  rcases world.disk.target_eq (tempOf file pid) with isFile | ⟨-, isNew⟩
  · exact unshared _ isFile
  · rw [isNew]
    refine ⟨fun _ => Disk.file_ne_count, fun reader claim isReading => ?_⟩
    exact Nat.lt_irrefl _ (whole.fits isReading).1

theorem target_unique (whole : Whole world) {other : JsString} {otherPid : ℕ}
    (isOther : world.disk.file (tempOf other otherPid) =
      some (world.disk.target (tempOf file pid))) : other = file ∧ otherPid = pid := by
  rcases world.disk.target_eq (tempOf file pid) with isFile | ⟨-, isNew⟩
  · exact whole.temps isOther isFile
  · rw [isNew] at isOther
    exact absurd isOther Disk.file_ne_count

theorem openTemp (whole : Whole world)
    (unshared : ∀ inode, world.disk.file (tempOf file pid) = some inode → world.Private inode) :
    Whole ({ world with disk := world.disk.truncate (tempOf file pid) [] }.setPhase pid
      (.opened call file text (world.disk.target (tempOf file pid)))) := by
  have isPrivate := whole.private_target unshared
  have isClaim : ∀ claim, (world.disk.truncate (tempOf file pid) []).file (.claim claim) =
      world.disk.file (.claim claim) := by
    intro claim
    rw [Disk.file_truncate, Function.update_of_ne (claim_ne_tempOf claim file pid)]
  have isText : ∀ found, found ≠ world.disk.target (tempOf file pid) →
      (world.disk.truncate (tempOf file pid) []).text found = world.disk.text found :=
    fun found different => Function.update_of_ne different _ _
  have keeps : ∀ {found}, world.Private found →
      ({ world with disk := world.disk.truncate (tempOf file pid) [] }.setPhase pid
        (.opened call file text (world.disk.target (tempOf file pid)))).Private found := by
    intro found isPrivate
    refine private_setPhase ⟨fun claim => ?_, isPrivate.2⟩ nofun
    rw [isClaim]
    exact isPrivate.1 claim
  refine ⟨?_, ?_, ?_⟩
  · intro left leftPid right rightPid inode isLeft isRight
    simp only [ClaimWorld.setPhase, Disk.file_truncate, Function.update_apply] at isLeft isRight
    split_ifs at isLeft isRight with sameLeft sameRight sameRight
    · cases sameLeft
      cases sameRight
      exact ⟨rfl, rfl⟩
    · cases sameLeft
      cases isLeft
      rcases whole.target_unique isRight with ⟨rfl, rfl⟩
      exact absurd rfl sameRight
    · cases sameRight
      cases isRight
      exact whole.target_unique isLeft
    · exact whole.temps isLeft isRight
  · intro claim inode isFile
    simp only [ClaimWorld.setPhase, isClaim] at isFile
    have different : inode ≠ world.disk.target (tempOf file pid) := by
      rintro rfl
      exact isPrivate.1 claim isFile
    have isOld := whole.published isFile
    rw [← isText inode different] at isOld
    exact isOld
  · intro other found isPhase
    rcases processes_setPhase isPhase with ⟨rfl, rfl⟩ | ⟨isOther, old⟩
    · refine ⟨?_, keeps isPrivate⟩
      exact Function.update_self _ _ _
    · have others := whole.fits old
      have isTemp : ∀ claim, tempOf claim other ≠ tempOf file pid := by
        rintro claim ⟨⟩
        exact isOther rfl
      cases found with
      | opened _ claim _ inode =>
          refine ⟨?_, keeps others.2⟩
          rw [← others.1]
          exact Function.update_of_ne (isTemp claim) _ _
      | written _ claim written =>
          have same : (world.disk.truncate (tempOf file pid) []).read (tempOf claim other) =
              world.disk.read (tempOf claim other) :=
            Disk.read_truncate (isTemp claim) fun isFile => isOther (whole.target_unique isFile).2
          exact same.trans others
      | reading claim inode =>
          have different : inode ≠ world.disk.target (tempOf file pid) := by
            rintro rfl
            exact isPrivate.2 other claim old
          refine ⟨Nat.lt_of_lt_of_le others.1 (Nat.le_max_left _ _), ?_⟩
          have isOld := others.2
          rw [← isText inode different] at isOld
          exact isOld
      | _ => trivial

theorem write (whole : Whole world) (isPhase : world.processes pid = some (.opened call file text inode)) :
    Whole ({ world with disk := world.disk.write inode text }.setPhase pid
      (.written call file text)) := by
  have mine := whole.fits isPhase
  have isText : ∀ found, found ≠ inode →
      (world.disk.write inode text).text found = world.disk.text found :=
    fun found different => Function.update_of_ne different _ _
  refine ⟨whole.temps, ?_, ?_⟩
  · intro claim found isFile
    have different : found ≠ inode := by
      rintro rfl
      exact mine.2.1 claim isFile
    have isOld := whole.published isFile
    rw [← isText found different] at isOld
    exact isOld
  · intro other found isFound
    rcases processes_setPhase isFound with ⟨rfl, rfl⟩ | ⟨isOther, old⟩
    · rw [ClaimFits, Disk.read_eq_some]
      exact ⟨inode, mine.1, Function.update_self _ _ _⟩
    · have others := whole.fits old
      cases found with
      | opened _ claim _ found => exact ⟨others.1, private_setPhase others.2 nofun⟩
      | written _ claim written =>
          have same : (world.disk.write inode text).read (tempOf claim other) =
              world.disk.read (tempOf claim other) :=
            Disk.read_write fun isFile => isOther (whole.temps isFile mine.1).2
          exact same.trans others
      | reading claim found =>
          have different : found ≠ inode := by
            rintro rfl
            exact mine.2.2 other claim old
          refine ⟨others.1, ?_⟩
          have isOld := others.2
          rw [← isText found different] at isOld
          exact isOld
      | _ => trivial

theorem publish (whole : Whole world) (isPhase : world.processes pid = some (.written call file text))
    {disk : Disk ClaimName JsString} (sameText : disk.text = world.disk.text)
    (sameCount : disk.count = world.disk.count)
    (isFile : disk.file (.claim file) = world.disk.file (tempOf file pid))
    (others : ∀ other, other ≠ file → disk.file (.claim other) = world.disk.file (.claim other))
    (mine : ∀ other inode, disk.file (tempOf other pid) = some inode →
      world.disk.file (tempOf other pid) = some inode)
    (theirs : ∀ other otherPid, otherPid ≠ pid →
      disk.file (tempOf other otherPid) = world.disk.file (tempOf other otherPid))
    (fits : phase = .idle ∨ ∃ file, phase = .cleaning file) :
    Whole ({ world with disk, completed := world.completed ++ [(file, text)] }.setPhase pid phase) := by
  rcases Disk.read_eq_some.mp (whole.fits isPhase) with ⟨inode, isTemp, isText⟩
  have older : ∀ {claim claimText}, (claim, claimText) ∈ world.completed →
      (claim, claimText) ∈ world.completed ++ [(file, text)] := List.mem_append_left _
  have isOld : ∀ {other otherPid inode}, disk.file (tempOf other otherPid) = some inode →
      world.disk.file (tempOf other otherPid) = some inode := by
    intro other otherPid found isFound
    by_cases same : otherPid = pid
    · subst same
      exact mine other found isFound
    · rwa [theirs other otherPid same] at isFound
  refine ⟨fun isLeft isRight => whole.temps (isOld isLeft) (isOld isRight), ?_, ?_⟩
  · intro claim found isFound
    rw [ClaimWorld.setPhase, sameText]
    by_cases same : claim = file
    · subst same
      have isInode := isFound.symm.trans (isFile.trans isTemp)
      rw [Option.some.inj isInode, isText]
      exact List.mem_append_right _ (List.mem_singleton.mpr rfl)
    · exact older (whole.published ((others claim same).symm.trans isFound))
  · intro other found isFound
    rcases processes_setPhase isFound with ⟨rfl, rfl⟩ | ⟨isOther, old⟩
    · rcases fits with rfl | ⟨_, rfl⟩
      · trivial
      · trivial
    · have before := whole.fits old
      cases found with
      | opened _ claim _ found =>
          refine ⟨(theirs claim other isOther).trans before.1, private_setPhase ⟨?_, before.2.2⟩ ?_⟩
          · intro third isThird
            by_cases same : third = file
            · subst same
              have isInode := isThird.symm.trans (isFile.trans isTemp)
              rw [← Option.some.inj isInode] at isTemp
              exact isOther (whole.temps before.1 isTemp).2
            · exact before.2.1 third ((others third same).symm.trans isThird)
          · rcases fits with rfl | ⟨_, rfl⟩
            · nofun
            · nofun
      | written _ claim written =>
          have same : disk.read (tempOf claim other) = world.disk.read (tempOf claim other) := by
            rw [Disk.read, Disk.read, theirs claim other isOther, sameText]
          exact same.trans before
      | reading claim found =>
          refine ⟨sameCount ▸ before.1, ?_⟩
          rw [ClaimWorld.setPhase, sameText]
          exact older before.2
      | _ => trivial

theorem link (whole : Whole world)
    (isPhase : world.processes pid = some (.written .publishClaim file text)) :
    Whole ({ world with
      disk := world.disk.point (.claim file) (tempOf file pid),
      completed := world.completed ++ [(file, text)] }.setPhase pid (.cleaning file)) := by
  refine whole.publish isPhase rfl rfl (Function.update_self _ _ _) ?_ ?_ ?_ (.inr ⟨file, rfl⟩)
  · intro other different
    exact Function.update_of_ne (by simpa using different) _ _
  · intro other inode isFile
    exact isFile
  · intro other otherPid different
    rfl

theorem rename (whole : Whole world)
    (isPhase : world.processes pid = some (.written .replaceClaim file text))
    {disk : Disk ClaimName JsString}
    (renames : world.disk.rename (tempOf file pid) (.claim file) = some disk) :
    Whole ({ world with disk, completed := world.completed ++ [(file, text)] }.setPhase pid .idle) := by
  rcases (Disk.rename_eq_some.mp renames).2 with ⟨same, rfl⟩ | ⟨-, rfl⟩
  · refine whole.publish isPhase rfl rfl same.symm ?_ ?_ ?_ (.inl rfl)
    · intro other different
      rfl
    · intro other inode isFile
      exact isFile
    · intro other otherPid different
      rfl
  · refine whole.publish isPhase rfl rfl ?_ ?_ ?_ ?_ (.inl rfl)
    · simp [tempOf]
    · intro other different
      simp [tempOf, different]
    · intro other inode isFile
      simp only [Disk.file_remove, Disk.file_point, tempOf, Function.update_apply] at isFile
      split_ifs at isFile with gone taken
      · cases taken
      · exact isFile
    · intro other otherPid different
      simp [tempOf, different]

theorem remove (whole : Whole world) (name : ClaimName)
    (apart : ∀ other otherPid, otherPid ≠ pid → tempOf other otherPid ≠ name) :
    Whole ({ world with disk := world.disk.remove name }.setPhase pid .idle) := by
  have old : ∀ {other inode}, (world.disk.remove name).file other = some inode →
      world.disk.file other = some inode := by
    intro other inode isFile
    rw [Disk.file_remove, Function.update_apply] at isFile
    split_ifs at isFile
    exact isFile
  refine ⟨fun isLeft isRight => whole.temps (old isLeft) (old isRight),
    fun isFile => whole.published (old isFile), ?_⟩
  intro other found isFound
  rcases processes_setPhase isFound with ⟨rfl, rfl⟩ | ⟨isOther, was⟩
  · trivial
  · have before := whole.fits was
    cases found with
    | opened _ claim _ inode =>
        refine ⟨?_, private_setPhase ⟨fun third isThird => ?_, before.2.2⟩ nofun⟩
        · rw [← before.1]
          exact Function.update_of_ne (apart claim other isOther) _ _
        · exact before.2.1 third (old isThird)
    | written _ claim written =>
        have same : (world.disk.remove name).read (tempOf claim other) =
            world.disk.read (tempOf claim other) := Disk.read_remove (apart claim other isOther)
        exact same.trans before
    | _ => exact before

theorem operate (whole : Whole world) (isPhase : world.processes pid = some phase) (fault : Bool)
    (unshared : world.Unshared (.step pid fault)) : Whole (world.operate pid fault phase) := by
  have stop : Whole (world.setPhase pid .idle) := whole.move trivial nofun nofun
  cases phase with
  | idle => exact whole
  | starting call file text =>
      simp only [ClaimWorld.operate]
      split_ifs with fails
      · exact stop
      · cases fault with
        | true => exact absurd rfl fails
        | false => exact whole.openTemp fun inode => unshared call file text inode isPhase
  | opened call file text inode =>
      simp only [ClaimWorld.operate]
      split_ifs with fails
      · exact stop
      · exact whole.write isPhase
  | written call file text =>
      have cleans : Whole (world.setPhase pid (.cleaning file)) := whole.move trivial nofun nofun
      cases call with
      | publishClaim =>
          simp only [ClaimWorld.operate]
          split
          case h_1 => exact cleans
          case h_2 disk links =>
            cases fault with
            | true => cases links
            | false =>
                rcases Disk.link_eq_some.mp links with ⟨-, -, rfl⟩
                exact whole.link isPhase
      | replaceClaim =>
          simp only [ClaimWorld.operate]
          split
          case h_1 => exact cleans
          case h_2 disk renames =>
            cases fault with
            | true => cases renames
            | false => exact whole.rename isPhase renames
  | cleaning file =>
      simp only [ClaimWorld.operate]
      split_ifs
      · exact stop
      · apply whole.remove
        rintro other otherPid different ⟨⟩
        exact different rfl
  | reading file inode => exact stop

theorem next (whole : Whole world) {event : ClaimEvent} (unshared : world.Unshared event) :
    Whole (world.next event) := by
  cases event with
  | start pid =>
      simp only [ClaimWorld.next]
      split_ifs
      · exact whole.move trivial nofun nofun
      · exact whole
  | call pid call file text =>
      simp only [ClaimWorld.next]
      split
      · exact whole.move trivial nofun nofun
      · exact whole
  | unlink pid file =>
      simp only [ClaimWorld.next]
      split
      · exact whole.remove _ nofun
      · exact whole
  | openClaim pid file =>
      simp only [ClaimWorld.next]
      split
      · cases isFile : world.disk.file (.claim file) with
        | none => exact whole
        | some inode =>
            refine whole.move ⟨world.disk.created isFile, whole.published isFile⟩ ?_ nofun
            rintro _ _ ⟨⟩
            exact isFile
      · exact whole
  | step pid fault =>
      simp only [ClaimWorld.next]
      split
      case h_1 phase isPhase => exact whole.operate isPhase fault unshared
      case h_2 => exact whole
  | die pid =>
      refine ⟨whole.temps, whole.published, ?_⟩
      intro other found isFound
      simp only [ClaimWorld.next, Function.update_apply] at isFound
      split_ifs at isFound
      have before := whole.fits isFound
      cases found with
      | opened _ _ _ inode =>
          refine ⟨before.1, before.2.1, fun reader file isReading => ?_⟩
          simp only [ClaimWorld.next, Function.update_apply] at isReading
          split_ifs at isReading
          exact before.2.2 reader file isReading
      | _ => exact before

end Whole

theorem whole_run {events : List ClaimEvent}
    (meets : claimFolder.Meets ClaimWorld.Unshared events) : Whole (claimFolder.run events) := by
  have keeps : claimFolder.Keeps ClaimWorld.Unshared Whole :=
    fun world event whole unshared => whole.next unshared
  exact keeps.run ⟨nofun, nofun, nofun⟩ meets

section Texts

variable {world : ClaimWorld} {pid : ℕ} {phase : ClaimPhase} {file text : JsString}

theorem changes_of_operate (whole : Whole world) (isPhase : world.processes pid = some phase)
    {fault : Bool} (unshared : world.Unshared (.step pid fault))
    (reads : world.disk.read (.claim file) = some text)
    (different : (world.operate pid fault phase).disk.read (.claim file) ≠ some text) :
    world.Changes file (.step pid fault) := by
  have kept : ∀ {found}, ¬(world.setPhase pid found).disk.read (.claim file) ≠ some text :=
    fun different => different reads
  have notTemp := fun other => claim_ne_tempOf file other pid
  cases phase with
  | idle => exact absurd reads different
  | starting call other written =>
      simp only [ClaimWorld.operate] at different
      split_ifs at different with fails
      · exact absurd different kept
      · cases fault with
        | true => exact absurd rfl fails
        | false =>
            have isPrivate := whole.private_target fun inode =>
              unshared call other written inode isPhase
            exact absurd ((Disk.read_truncate (notTemp other) (isPrivate.1 file)).trans reads) different
  | opened call other written inode =>
      simp only [ClaimWorld.operate] at different
      split_ifs at different
      · exact absurd different kept
      · exact absurd ((Disk.read_write ((whole.fits isPhase).2.1 file)).trans reads) different
  | written call other written =>
      cases call with
      | publishClaim =>
          simp only [ClaimWorld.operate] at different
          split at different
          case h_1 => exact absurd different kept
          case h_2 disk links =>
            cases fault with
            | true => cases links
            | false =>
                rcases Disk.link_eq_some.mp links with ⟨-, isFree, rfl⟩
                have otherFile : ClaimName.claim file ≠ .claim other := by
                  rintro ⟨⟩
                  rw [Disk.read, isFree] at reads
                  cases reads
                exact absurd ((Disk.read_point otherFile).trans reads) different
      | replaceClaim =>
          simp only [ClaimWorld.operate] at different
          split at different
          case h_1 => exact absurd different kept
          case h_2 disk renames =>
            cases fault with
            | true => cases renames
            | false =>
                by_cases same : file = other
                · subst same
                  exact .inl ⟨pid, written, rfl, isPhase⟩
                · have otherFile : ClaimName.claim file ≠ .claim other := by simpa using same
                  rcases (Disk.rename_eq_some.mp renames).2 with ⟨-, rfl⟩ | ⟨-, rfl⟩
                  · exact absurd reads different
                  · exact absurd (((Disk.read_remove (notTemp other)).trans
                      (Disk.read_point otherFile)).trans reads) different
  | cleaning other =>
      simp only [ClaimWorld.operate] at different
      split_ifs at different
      · exact absurd reads different
      · exact absurd ((Disk.read_remove (notTemp other)).trans reads) different
  | reading other inode => exact absurd different kept

theorem changes_of_next (whole : Whole world) {event : ClaimEvent} (unshared : world.Unshared event)
    (reads : world.disk.read (.claim file) = some text)
    (different : (world.next event).disk.read (.claim file) ≠ some text) :
    world.Changes file event := by
  cases event with
  | start pid =>
      simp only [ClaimWorld.next] at different
      split_ifs at different
      · exact absurd reads different
      · exact absurd reads different
  | call pid call other written =>
      simp only [ClaimWorld.next] at different
      split at different
      · exact absurd reads different
      · exact absurd reads different
  | unlink pid other =>
      simp only [ClaimWorld.next] at different
      split at different
      case h_1 isPhase =>
        by_cases same : file = other
        · subst same
          exact .inr ⟨pid, rfl, isPhase⟩
        · have otherFile : ClaimName.claim file ≠ .claim other := by simpa using same
          exact absurd ((Disk.read_remove otherFile).trans reads) different
      case h_2 => exact absurd reads different
  | openClaim pid other =>
      simp only [ClaimWorld.next] at different
      split at different
      · cases isFile : world.disk.file (.claim other) with
        | none =>
            rw [isFile] at different
            exact absurd reads different
        | some inode =>
            rw [isFile] at different
            exact absurd reads different
      · exact absurd reads different
  | step pid fault =>
      simp only [ClaimWorld.next] at different
      split at different
      case h_1 phase isPhase => exact changes_of_operate whole isPhase unshared reads different
      case h_2 => exact absurd reads different
  | die pid => exact absurd reads different

theorem mem_completed_of_returned (whole : Whole world) {event : ClaimEvent}
    {read : JsString × JsString} (returns : world.returned event = some read) :
    read ∈ world.completed := by
  cases event with
  | step pid fault =>
      cases fault with
      | true => cases returns
      | false =>
          simp only [ClaimWorld.returned] at returns
          split at returns
          case h_1 file inode isPhase =>
            cases returns
            exact (whole.fits isPhase).2
          case h_2 => cases returns
  | _ => cases returns

end Texts

/-- As long as no process opens a temporary file that is also a claim, or that a read of one has
open, every read of a claim returns a text that was published or put in place as a whole, and the
text of a claim changes by a rename to its name or its removal only. -/
theorem claim_texts {events : List ClaimEvent} {event : ClaimEvent}
    (meets : claimFolder.Meets ClaimWorld.Unshared (events ++ [event])) :
    (∀ read, (claimFolder.run events).returned event = some read →
      read ∈ (claimFolder.run events).completed) ∧
    ∀ file text, (claimFolder.run events).disk.read (.claim file) = some text →
      (claimFolder.run (events ++ [event])).disk.read (.claim file) ≠ some text →
        (claimFolder.run events).Changes file event := by
  rcases Machine.meetsFrom_append.mp meets with ⟨earlier, last, -⟩
  have whole := whole_run earlier
  refine ⟨fun read => mem_completed_of_returned whole, fun file text reads different => ?_⟩
  rw [Machine.run_append] at different
  exact changes_of_next whole last reads different

def publishAndRead (text : JsString) : List ClaimEvent :=
  [.start 7, .start 8, .call 7 .publishClaim (js "claim.json") text, .step 7 false, .step 7 false,
    .step 7 false, .openClaim 8 (js "claim.json"), .step 7 false]

theorem claim_texts_published :
    (claimFolder.run (publishAndRead (js "first"))).returned (.step 8 false) =
      some (js "claim.json", js "first") ∧
    (js "claim.json", js "first") ∈ (claimFolder.run (publishAndRead (js "first"))).completed := by
  have meets : claimFolder.Meets ClaimWorld.Unshared
      (publishAndRead (js "first") ++ [.step 8 false]) := by
    refine ⟨trivial, trivial, trivial, ?_, ?_, ?_, trivial, ?_, ?_, trivial⟩
    · intro call file text inode isPhase isFile
      cases isFile
    · nofun
    · nofun
    · nofun
    · nofun
  have returns : (claimFolder.run (publishAndRead (js "first"))).returned (.step 8 false) =
      some (js "claim.json", js "first") := by decide +kernel
  exact ⟨returns, (claim_texts meets).1 _ returns⟩

/-- A process dies between its link and the removal of its temporary file, and a later process that
got its number publishes the claim again: it opens the file of the claim. -/
def publishTwice : List ClaimEvent :=
  [.start 7, .call 7 .publishClaim (js "claim.json") (js "first"), .step 7 false, .step 7 false,
    .step 7 false, .die 7, .start 7, .call 7 .publishClaim (js "claim.json") (js "second")]

/-- The claim is read empty, and changes without a rename or a removal. -/
theorem claim_texts_emptied :
    (claimFolder.run (publishTwice ++ [.step 7 false, .start 8,
        .openClaim 8 (js "claim.json")])).returned (.step 8 false) = some (js "claim.json", []) ∧
    (js "claim.json", []) ∉ (claimFolder.run (publishTwice ++ [.step 7 false, .start 8,
        .openClaim 8 (js "claim.json")])).completed ∧
    (claimFolder.run publishTwice).disk.read (.claim (js "claim.json")) = some (js "first") ∧
    (claimFolder.run (publishTwice ++ [.step 7 false])).disk.read (.claim (js "claim.json")) =
      some [] ∧
    ¬(claimFolder.run publishTwice).Changes (js "claim.json") (.step 7 false) := by
  refine ⟨by decide +kernel, by decide +kernel, by decide +kernel, by decide +kernel, ?_⟩
  rintro (⟨pid, text, isStep, isPhase⟩ | ⟨pid, isUnlink, -⟩)
  · cases isStep
    cases isPhase
  · cases isUnlink

end StudentHub.CardRun
