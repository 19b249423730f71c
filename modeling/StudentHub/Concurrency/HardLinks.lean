import Mathlib.Data.Nat.Notation
import Mathlib.Logic.Function.Basic
import Mathlib.Tactic.SplitIfs

/-!
# Files with several names

A name refers to a file, and several names may refer to one. A file is written in place: what is
written to it is read under each of its names. To link, rename or remove a name changes what the
name refers to and leaves the texts of files as they are.
-/

namespace Concurrency

universe u v

/-- The file that each name refers to, and the text of each file. The files are numbered as they
are created. -/
structure Disk (Name : Type u) (Text : Type v) where
  file : Name → Option ℕ
  text : ℕ → Text
  count : ℕ
  created : ∀ {name found}, file name = some found → found < count

namespace Disk

variable {Name : Type u} {Text : Type v} (disk : Disk Name Text)

def blank (empty : Text) : Disk Name Text := ⟨fun _ => none, fun _ => empty, 0, by simp⟩

def read (name : Name) : Option Text := (disk.file name).map disk.text

/-- The file that is written when the name is opened for it: a new one if there is none. -/
def target (name : Name) : ℕ := (disk.file name).getD disk.count

def write (found : ℕ) (text : Text) : Disk Name Text :=
  { disk with text := Function.update disk.text found text }

theorem target_eq (name : Name) : disk.file name = some (disk.target name) ∨
    disk.file name = none ∧ disk.target name = disk.count := by
  rw [target]
  cases disk.file name with
  | none => exact .inr ⟨rfl, rfl⟩
  | some found => exact .inl rfl

section Reading

variable {disk} {name : Name} {found : ℕ} {text : Text}

@[simp]
theorem file_write : (disk.write found text).file = disk.file := rfl

theorem read_eq_some : disk.read name = some text ↔
    ∃ found, disk.file name = some found ∧ disk.text found = text := by
  rw [read, Option.map_eq_some_iff]

theorem file_ne_count : disk.file name ≠ some disk.count := by
  intro isFile
  exact Nat.lt_irrefl _ (disk.created isFile)

theorem read_write (others : disk.file name ≠ some found) :
    (disk.write found text).read name = disk.read name := by
  cases isFile : disk.file name with
  | none => simp [read, isFile]
  | some own =>
      have different : own ≠ found := by
        rintro rfl
        exact others isFile
      simp [read, isFile, write, Function.update_of_ne different]

end Reading

variable [DecidableEq Name]

def truncate (name : Name) (empty : Text) : Disk Name Text where
  file := Function.update disk.file name (some (disk.target name))
  text := Function.update disk.text (disk.target name) empty
  count := max disk.count (disk.target name + 1)
  created := by
    intro other found isFile
    rw [Function.update_apply] at isFile
    split_ifs at isFile
    · cases isFile
      omega
    · have old := disk.created isFile
      omega

def point (name other : Name) : Disk Name Text where
  file := Function.update disk.file name (disk.file other)
  text := disk.text
  count := disk.count
  created := by
    intro third found isFile
    rw [Function.update_apply] at isFile
    split_ifs at isFile
    · exact disk.created isFile
    · exact disk.created isFile

def remove (name : Name) : Disk Name Text where
  file := Function.update disk.file name none
  text := disk.text
  count := disk.count
  created := by
    intro other found isFile
    rw [Function.update_apply] at isFile
    split_ifs at isFile
    exact disk.created isFile

def link (old new : Name) : Option (Disk Name Text) :=
  if (disk.file old).isSome ∧ (disk.file new).isNone then some (disk.point new old) else none

/-- A rename replaces its new name, and does nothing between two names of one file. -/
def rename (old new : Name) : Option (Disk Name Text) :=
  if (disk.file old).isNone then none
  else if disk.file old = disk.file new then some disk
  else some ((disk.point new old).remove old)

variable {disk} {name other old new : Name} {found : ℕ} {text : Text} {after : Disk Name Text}

@[simp]
theorem file_point : (disk.point name other).file = Function.update disk.file name (disk.file other) :=
  rfl

@[simp]
theorem text_point : (disk.point name other).text = disk.text := rfl

@[simp]
theorem file_remove : (disk.remove name).file = Function.update disk.file name none := rfl

@[simp]
theorem text_remove : (disk.remove name).text = disk.text := rfl

@[simp]
theorem file_truncate {empty : Text} : (disk.truncate name empty).file =
    Function.update disk.file name (some (disk.target name)) := rfl

@[simp]
theorem text_truncate {empty : Text} : (disk.truncate name empty).text =
    Function.update disk.text (disk.target name) empty := rfl

theorem file_truncate_self {empty : Text} :
    (disk.truncate name empty).file name = some (disk.target name) := Function.update_self ..

theorem file_truncate_of_ne {empty : Text} (different : other ≠ name) :
    (disk.truncate name empty).file other = disk.file other := Function.update_of_ne different ..

theorem file_point_self : (disk.point name old).file name = disk.file old := Function.update_self ..

theorem file_point_of_ne (different : other ≠ name) :
    (disk.point name old).file other = disk.file other := Function.update_of_ne different ..

theorem file_remove_self : (disk.remove name).file name = none := Function.update_self ..

theorem file_remove_of_ne (different : other ≠ name) :
    (disk.remove name).file other = disk.file other := Function.update_of_ne different ..

theorem read_truncate {empty : Text} (different : other ≠ name)
    (others : disk.file other ≠ some (disk.target name)) :
    (disk.truncate name empty).read other = disk.read other := by
  have same : (disk.truncate name empty).read other =
      (disk.write (disk.target name) empty).read other := by
    simp [read, write, Function.update_of_ne different]
  rw [same, read_write others]

theorem read_point (different : other ≠ name) : (disk.point name old).read other = disk.read other := by
  simp [read, Function.update_of_ne different]

theorem read_remove (different : other ≠ name) : (disk.remove name).read other = disk.read other := by
  simp [read, Function.update_of_ne different]

theorem link_eq_some : disk.link old new = some after ↔
    (∃ found, disk.file old = some found) ∧ disk.file new = none ∧ after = disk.point new old := by
  rw [link]
  split_ifs with linked
  · rw [Option.isSome_iff_exists, Option.isNone_iff_eq_none] at linked
    refine ⟨?_, ?_⟩
    · rintro ⟨⟩
      exact ⟨linked.1, linked.2, rfl⟩
    · rintro ⟨-, -, rfl⟩
      rfl
  · rw [Option.isSome_iff_exists, Option.isNone_iff_eq_none] at linked
    refine ⟨nofun, ?_⟩
    rintro ⟨isOld, isNew, -⟩
    exact absurd ⟨isOld, isNew⟩ linked

theorem rename_eq_some : disk.rename old new = some after ↔
    (∃ found, disk.file old = some found) ∧
      (disk.file old = disk.file new ∧ after = disk ∨
        disk.file old ≠ disk.file new ∧ after = (disk.point new old).remove old) := by
  rw [rename]
  cases isOld : disk.file old with
  | none => simp
  | some found =>
      simp only [Option.isNone_some, Bool.false_eq_true, if_false]
      split_ifs with same
      · refine ⟨?_, ?_⟩
        · rintro ⟨⟩
          exact ⟨⟨found, rfl⟩, .inl ⟨same, rfl⟩⟩
        · rintro ⟨-, ⟨-, rfl⟩ | ⟨different, -⟩⟩
          · rfl
          · exact absurd same different
      · refine ⟨?_, ?_⟩
        · rintro ⟨⟩
          exact ⟨⟨found, rfl⟩, .inr ⟨same, rfl⟩⟩
        · rintro ⟨-, ⟨other, -⟩ | ⟨-, rfl⟩⟩
          · exact absurd other same
          · rfl

end Disk

end Concurrency
