import StudentHub.Ecma.Arrays
import StudentHub.Ecma.Number
import Mathlib.Algebra.Order.Field.Rat
import Mathlib.Tactic.FieldSimp

/-!
# The order of numbers

Finite numbers are compared as the rational numbers they are, and a sort with a comparator that
never throws is a sort by that comparator.
-/

namespace Ecma

def FiniteNumber.value (number : FiniteNumber) : ℚ :=
  (if number.negative then -(number.significand : ℚ) else number.significand) *
    10 ^ number.exponent

theorem FiniteNumber.cast_scaled (number : FiniteNumber) {lowest : ℤ}
    (below : lowest ≤ number.exponent) :
    (((if number.negative then
      -((number.significand : ℤ) * 10 ^ (number.exponent - lowest).toNat)
      else (number.significand : ℤ) * 10 ^ (number.exponent - lowest).toNat : ℤ)) : ℚ) =
        number.value * 10 ^ (-lowest) := by
  have power : (10 : ℚ) ^ (number.exponent - lowest).toNat =
      10 ^ number.exponent * 10 ^ (-lowest) := by
    rw [← zpow_natCast, Int.toNat_of_nonneg (by omega), ← zpow_add₀ (by norm_num), sub_eq_add_neg]
  rw [FiniteNumber.value]
  split
  · push_cast
    rw [power]
    ring
  · push_cast
    rw [power]
    ring

theorem FiniteNumber.compare_le_zero_iff {left right : FiniteNumber} :
    left.compare right ≤ 0 ↔ left.value ≤ right.value := by
  have positive : (0 : ℚ) < 10 ^ (-(min left.exponent right.exponent)) := zpow_pos (by norm_num) _
  rw [FiniteNumber.compare, Int.sign_nonpos_iff, sub_nonpos, ← @Int.cast_le ℚ]
  simp only [FiniteNumber.cast_scaled left (min_le_left _ _),
    FiniteNumber.cast_scaled right (min_le_right _ _)]
  exact mul_le_mul_iff_left₀ positive

theorem FiniteNumber.zero_lt_compare_iff {left right : FiniteNumber} :
    0 < left.compare right ↔ right.value < left.value := by
  have notAbove := @FiniteNumber.compare_le_zero_iff left right
  rw [← not_le, ← not_le, notAbove]

theorem FiniteNumber.compare_lt_zero_iff {left right : FiniteNumber} :
    left.compare right < 0 ↔ left.value < right.value := by
  have positive : (0 : ℚ) < 10 ^ (-(min left.exponent right.exponent)) := zpow_pos (by norm_num) _
  rw [FiniteNumber.compare, Int.sign_neg_iff, sub_neg, ← @Int.cast_lt ℚ]
  simp only [FiniteNumber.cast_scaled left (min_le_left _ _),
    FiniteNumber.cast_scaled right (min_le_right _ _)]
  exact mul_lt_mul_iff_left₀ positive

theorem FiniteNumber.compare_eq_zero_iff {left right : FiniteNumber} :
    left.compare right = 0 ↔ left.value = right.value := by
  have notAbove := @FiniteNumber.compare_le_zero_iff left right
  have below := @FiniteNumber.compare_lt_zero_iff left right
  refine ⟨fun zero => ?_, fun same => ?_⟩
  · exact le_antisymm (notAbove.mp zero.le) (not_lt.mp (mt below.mpr (by omega)))
  · have atMost := notAbove.mpr same.le
    have atLeast := mt below.mp (not_lt.mpr same.ge)
    omega

def numberOrder : Comparator FiniteNumber where
  compare := FiniteNumber.compare
  swap left right := by
    rw [FiniteNumber.compare_lt_zero_iff, FiniteNumber.zero_lt_compare_iff]
  trans first second third early late := by
    rw [FiniteNumber.compare_le_zero_iff] at early late ⊢
    exact early.trans late

section SortM

variable {Error Item : Type} {compare : Item → Item → Except Error ℤ} {order : Comparator Item}
  {items : List Item}

theorem insertM_eq {item : Item}
    (answers : ∀ other ∈ items, compare item other = .ok (order.compare item other)) :
    insertM compare item items =
      .ok (items.orderedInsert (fun left right => order.compare left right ≤ 0) item) := by
  induction items with
  | nil => rfl
  | cons other rest ih =>
      rw [List.forall_mem_cons] at answers
      rw [insertM, answers.1, List.orderedInsert_cons]
      show (if order.compare item other ≤ 0 then _ else _) = _
      split
      · rfl
      · rw [ih answers.2]
        rfl

theorem sortM_eq (answers : ∀ left ∈ items, ∀ right ∈ items,
    compare left right = .ok (order.compare left right)) :
    sortM compare items = .ok (order.sort items) := by
  induction items with
  | nil => rfl
  | cons item rest ih =>
      have later : sortM compare rest = .ok (order.sort rest) := by
        apply ih
        intro left leftMem right rightMem
        exact answers left (List.mem_cons_of_mem _ leftMem) right (List.mem_cons_of_mem _ rightMem)
      rw [sortM, later]
      apply insertM_eq
      intro other otherMem
      exact answers item List.mem_cons_self other
        (List.mem_cons_of_mem _ (Comparator.mem_sort.mp otherMem))

end SortM

end Ecma
