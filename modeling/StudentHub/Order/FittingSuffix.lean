import Mathlib.Algebra.GroupWithZero.Nat
import Mathlib.Algebra.Order.Group.Nat
import Mathlib.Algebra.BigOperators.Group.List.Basic
import Mathlib.Data.List.Induction

/-!
# The end of a list that fits

Of the items that come one after the other the last ones are kept, as many as a limit on their
sizes lets in. It does not matter when the first ones are dropped, and an item that is too large
alone drops all that come before it.
-/

namespace FittingSuffix

universe u

structure Limit where
  exceeded : ℕ → Bool
  mono : ∀ {small large}, small ≤ large → exceeded small = true → exceeded large = true

variable {Item : Type u} (limit : Limit) (size : Item → ℕ)

def total (items : List Item) : ℕ := (items.map size).sum

def fitting : List Item → List Item
  | [] => []
  | item :: rest => if limit.exceeded (total size (item :: rest)) then fitting rest else item :: rest

variable {limit size} {items rest front : List Item} {item : Item}

@[simp]
theorem total_nil : total size ([] : List Item) = 0 := rfl

@[simp]
theorem total_cons : total size (item :: rest) = size item + total size rest := by
  simp only [total, List.map_cons, List.sum_cons]

@[simp]
theorem total_append : total size (front ++ rest) = total size front + total size rest := by
  simp only [total, List.map_append, List.sum_append]

theorem fitting_isSuffix : fitting limit size items <:+ items := by
  induction items with
  | nil => exact List.suffix_rfl
  | cons item rest ih =>
      rw [fitting]
      split_ifs
      · exact ih.trans (List.suffix_cons item rest)
      · exact List.suffix_rfl

theorem isSuffix_fitting (isEnd : rest <:+ items)
    (within : limit.exceeded (total size rest) = false) : rest <:+ fitting limit size items := by
  induction items with
  | nil => exact isEnd
  | cons item items ih =>
      rw [fitting]
      split_ifs with beyond
      · rcases List.suffix_cons_iff.mp isEnd with rfl | later
        · rw [within] at beyond
          cases beyond
        · exact ih later
      · exact isEnd

theorem fitting_append_of_exceeded (beyond : limit.exceeded (total size rest) = true) :
    fitting limit size (front ++ rest) = fitting limit size rest := by
  induction front with
  | nil => rfl
  | cons item front ih =>
      have more : total size rest ≤ total size (item :: (front ++ rest)) := by
        rw [total_cons, total_append]
        omega
      rw [List.cons_append, fitting, if_pos (limit.mono more beyond), ih]

theorem fitting_fitting_append :
    fitting limit size (fitting limit size front ++ rest) = fitting limit size (front ++ rest) := by
  induction front with
  | nil => rfl
  | cons item front ih =>
      rw [fitting]
      split_ifs with beyond
      · have more : total size (item :: front) ≤ total size (item :: (front ++ rest)) := by
          rw [total_cons, total_cons, total_append]
          omega
        rw [ih, List.cons_append, fitting, if_pos (limit.mono more beyond)]
      · rfl

theorem fitting_append_cons_of_exceeded (beyond : limit.exceeded (size item) = true) :
    fitting limit size (front ++ item :: rest) = fitting limit size rest := by
  have more : size item ≤ total size (item :: rest) := by
    rw [total_cons]
    omega
  rw [fitting_append_of_exceeded (limit.mono more beyond), fitting, if_pos (limit.mono more beyond)]

theorem fitting_append_eq_iff : fitting limit size (front ++ rest) = fitting limit size rest ↔
    ∀ last ∈ front.getLast?, limit.exceeded (total size (last :: rest)) = true := by
  induction front using List.reverseRecOn with
  | nil => simp
  | append_singleton front last _ =>
      rw [List.getLast?_concat, List.append_assoc, List.singleton_append]
      simp only [Option.mem_some_iff, forall_eq']
      refine ⟨fun same => ?_, fun beyond => ?_⟩
      · by_contra within
        rw [Bool.not_eq_true] at within
        have kept := isSuffix_fitting (List.suffix_append front (last :: rest)) within
        rw [same] at kept
        have short := (kept.trans fitting_isSuffix).length_le
        rw [List.length_cons] at short
        omega
      · rw [fitting_append_of_exceeded beyond, fitting, if_pos beyond]

end FittingSuffix
