import Mathlib.Data.List.Basic
import Mathlib.Tactic.SplitIfs

/-!
# Terminated fields

Fields that do not hold a mark are written one after the other, the mark behind each of them, and
are read back by splitting at the mark.
-/

namespace Terminated

universe u

variable {Symbol : Type u} [DecidableEq Symbol] {mark : Symbol} {text part field rest : List Symbol}
  {fields : List (List Symbol)}

theorem notMem_of_mem_splitOn (partMem : part ∈ text.splitOn mark) : mark ∉ part := by
  induction text generalizing part with
  | nil =>
      rw [List.splitOn_nil, List.mem_singleton] at partMem
      rw [partMem]
      exact List.not_mem_nil
  | cons symbol text ih =>
      rw [List.splitOn_cons_eq_if_modifyHead] at partMem
      split_ifs at partMem with isMark
      · rcases List.mem_cons.mp partMem with rfl | later
        · exact List.not_mem_nil
        · exact ih later
      · cases parts : text.splitOn mark with
        | nil => exact absurd parts (List.splitOn_ne_nil _ _)
        | cons first others =>
            rw [parts, List.modifyHead_cons] at partMem
            rcases List.mem_cons.mp partMem with rfl | later
            · have inFirst := @ih first (parts ▸ List.mem_cons_self)
              rw [List.mem_cons, not_or]
              exact ⟨fun same => isMark (beq_iff_eq.mpr same.symm), inFirst⟩
            · exact ih (parts ▸ List.mem_cons_of_mem _ later)

def write (mark : Symbol) (fields : List (List Symbol)) : List Symbol :=
  fields.flatMap (· ++ [mark])

def read (mark : Symbol) (text : List Symbol) : Option (List (List Symbol)) :=
  let fields := text.splitOn mark
  if fields.getLast? = some [] then some fields.dropLast else none

theorem read_write (free : ∀ field ∈ fields, mark ∉ field) :
    read mark (write mark fields) = some fields := by
  have split : (write mark fields).splitOn mark = fields ++ [[]] := by
    induction fields with
    | nil => rfl
    | cons field fields ih =>
        rw [List.forall_mem_cons] at free
        have next : write mark (field :: fields) = field ++ mark :: write mark fields := by
          simp [write]
        rw [next, List.splitOn_append_cons_self_of_not_mem free.1, ih free.2]
        rfl
  simp [read, split]

theorem takeWhile_append (free : mark ∉ field) :
    (field ++ mark :: rest).takeWhile (· ≠ mark) = field := by
  rw [List.takeWhile_append_of_pos]
  · simp
  · intro symbol symbolMem
    exact decide_eq_true fun same => free (same ▸ symbolMem)

end Terminated
