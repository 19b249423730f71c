import Mathlib.Data.List.Sort

/-!
# Comparators

A comparator answers with a number whose sign orders its arguments. Only consistent
ones are considered: the order is total and transitive, though different items may
compare as equal. Sorting is stable.
-/

universe u v

structure Comparator (Item : Type u) where
  compare : Item → Item → ℤ
  swap : ∀ left right, compare right left < 0 ↔ 0 < compare left right
  trans : ∀ first second third, compare first second ≤ 0 → compare second third ≤ 0 →
    compare first third ≤ 0

namespace Comparator

variable {Item : Type u}

theorem nonneg_iff (order : Comparator Item) {left right : Item} :
    0 ≤ order.compare right left ↔ order.compare left right ≤ 0 := by
  have swapped := order.swap left right
  omega

theorem refl (order : Comparator Item) (item : Item) : order.compare item item = 0 := by
  have swapped := order.swap item item
  omega

theorem total (order : Comparator Item) (left right : Item) :
    order.compare left right ≤ 0 ∨ order.compare right left ≤ 0 := by
  have swapped := order.swap left right
  omega

theorem lt_of_lt_of_le (order : Comparator Item) {first second third : Item}
    (early : order.compare first second < 0) (late : order.compare second third ≤ 0) :
    order.compare first third < 0 := by
  by_contra notBefore
  have back : order.compare third first ≤ 0 := order.nonneg_iff.mp (by omega)
  have around := order.trans second third first late back
  have swapped := order.swap second first
  omega

theorem lt_of_le_of_lt (order : Comparator Item) {first second third : Item}
    (early : order.compare first second ≤ 0) (late : order.compare second third < 0) :
    order.compare first third < 0 := by
  by_contra notBefore
  have back : order.compare third first ≤ 0 := order.nonneg_iff.mp (by omega)
  have around := order.trans third first second back early
  have swapped := order.swap third second
  omega

def onKey {Key : Type v} (order : Comparator Key) (key : Item → Key) : Comparator Item where
  compare left right := order.compare (key left) (key right)
  swap left right := order.swap (key left) (key right)
  trans first second third := order.trans (key first) (key second) (key third)

/-- The opposite order, for `compare(b, a)`. -/
def reverse (order : Comparator Item) : Comparator Item where
  compare left right := order.compare right left
  swap left right := order.swap right left
  trans first second third early late := order.trans third second first late early

/-- A second comparator settles what the first leaves equal, for `first(a, b) || second(a, b)`. -/
def orElse (first second : Comparator Item) : Comparator Item where
  compare left right :=
    if first.compare left right ≠ 0 then first.compare left right else second.compare left right
  swap left right := by
    have firstSwap := first.swap left right
    have firstBack := first.swap right left
    have secondSwap := second.swap left right
    split_ifs <;> omega
  trans one two three early late := by
    have whole := first.trans one two three
    have below : first.compare one two < 0 → first.compare two three ≤ 0 →
        first.compare one three < 0 := first.lt_of_lt_of_le
    have above : first.compare one two ≤ 0 → first.compare two three < 0 →
        first.compare one three < 0 := first.lt_of_le_of_lt
    have back := first.trans three two one
    have oneTwo := first.swap one two
    have twoThree := first.swap two three
    have oneThree := first.swap one three
    have rest := second.trans one two three
    split_ifs at early late ⊢ <;> omega

def ofOrder (Item : Type u) [LinearOrder Item] : Comparator Item where
  compare left right := if left < right then -1 else if right < left then 1 else 0
  swap left right := by
    rcases lt_trichotomy left right with less | same | greater
    · simp [less, less.not_gt]
    · simp [same]
    · simp [greater, greater.not_gt]
  trans first second third early late := by
    have notAbove : ∀ left right : Item,
        (if left < right then -1 else if right < left then 1 else (0 : ℤ)) ≤ 0 ↔ left ≤ right := by
      intro left right
      rcases lt_trichotomy left right with less | same | greater
      · simp [less, less.le]
      · simp [same]
      · simp [greater, greater.not_gt]
    rw [notAbove] at early late ⊢
    exact early.trans late

theorem orElse_compare_congr {first second : Comparator Item} {left right other another : Item}
    (firstSame : first.compare left right = first.compare other another)
    (secondSame : second.compare left right = second.compare other another) :
    (first.orElse second).compare left right = (first.orElse second).compare other another := by
  simp only [orElse, firstSame, secondSame]

theorem orElse_compare_eq_zero {first second : Comparator Item} {left right : Item}
    (tie : (first.orElse second).compare left right = 0) :
    first.compare left right = 0 ∧ second.compare left right = 0 := by
  simp only [orElse] at tie
  split_ifs at tie with differ <;> omega

theorem eq_of_ofOrder_compare_eq_zero [LinearOrder Item] {left right : Item}
    (tie : (ofOrder Item).compare left right = 0) : left = right := by
  rcases lt_trichotomy left right with less | same | greater
  · simp [ofOrder, less] at tie
  · exact same
  · simp [ofOrder, greater, greater.not_gt] at tie

theorem tie_symm (order : Comparator Item) {left right : Item}
    (tie : order.compare left right = 0) : order.compare right left = 0 := by
  have swapped := order.swap left right
  have back := order.swap right left
  omega

theorem tie_trans (order : Comparator Item) {first second third : Item}
    (early : order.compare first second = 0) (late : order.compare second third = 0) :
    order.compare first third = 0 := by
  have onward := order.trans first second third early.le late.le
  have back := order.trans third second first (order.tie_symm late).le (order.tie_symm early).le
  have notBefore := order.nonneg_iff.mpr back
  omega

/-- Stable sort `items.sort(compare)`. -/
def sort (order : Comparator Item) (items : List Item) : List Item :=
  items.insertionSort fun left right => order.compare left right ≤ 0

variable {order : Comparator Item} {items : List Item}

theorem sort_perm : (order.sort items).Perm items := List.perm_insertionSort _ items

@[simp]
theorem mem_sort {item : Item} : item ∈ order.sort items ↔ item ∈ items := List.mem_insertionSort _

@[simp]
theorem length_sort : (order.sort items).length = items.length := sort_perm.length_eq

theorem pairwise_sort :
    (order.sort items).Pairwise fun left right => order.compare left right ≤ 0 := by
  have total : Std.Total fun left right => order.compare left right ≤ 0 := ⟨order.total⟩
  have trans : IsTrans Item fun left right => order.compare left right ≤ 0 := ⟨order.trans⟩
  exact List.pairwise_insertionSort _ items

theorem map_sort_onKey {Key : Type v} (keyOrder : Comparator Key) (key : Item → Key)
    (items : List Item) : ((keyOrder.onKey key).sort items).map key = keyOrder.sort (items.map key) :=
  List.map_insertionSort _ _ _ _ fun _ _ _ _ => Iff.rfl

theorem filter_sort_of_tied {select : Item → Bool}
    (tied : ∀ left ∈ items, ∀ right ∈ items, select left = true → select right = true →
      order.compare left right = 0) :
    (order.sort items).filter select = items.filter select := by
  have total : Std.Total fun left right => order.compare left right ≤ 0 := ⟨order.total⟩
  have trans : IsTrans Item fun left right => order.compare left right ≤ 0 := ⟨order.trans⟩
  have sorted : (items.filter select).Pairwise fun left right => order.compare left right ≤ 0 := by
    apply List.pairwise_of_forall_mem_list
    intro left leftMem right rightMem
    rw [List.mem_filter] at leftMem rightMem
    exact (tied left leftMem.1 right rightMem.1 leftMem.2 rightMem.2).le
  have kept : List.Sublist (items.filter select) (order.sort items) :=
    List.sublist_insertionSort sorted List.filter_sublist
  have onlySelected := kept.filter select
  rw [List.filter_filter] at onlySelected
  simp only [Bool.and_self] at onlySelected
  symm
  apply onlySelected.eq_of_length
  exact (sort_perm.filter select).length_eq.symm

theorem sort_eq_of_perm {others : List Item} (perm : items.Perm others)
    (untied : ∀ left ∈ items, ∀ right ∈ items, order.compare left right = 0 → left = right) :
    order.sort items = order.sort others := by
  apply List.Perm.eq_of_pairwise _ pairwise_sort pairwise_sort
    (sort_perm.trans (perm.trans sort_perm.symm))
  intro left right leftMem rightMem below above
  apply untied left (mem_sort.mp leftMem) right (perm.mem_iff.mpr (mem_sort.mp rightMem))
  have notBelow := order.nonneg_iff.mpr above
  omega

theorem orderedInsert_congr {before after : Item → Item → Prop} [DecidableRel before]
    [DecidableRel after] {item : Item} (same : ∀ later ∈ items, before item later ↔ after item later) :
    items.orderedInsert before item = items.orderedInsert after item := by
  induction items with
  | nil => rfl
  | cons first rest ih =>
      rw [List.forall_mem_cons] at same
      simp only [List.orderedInsert_cons, same.1, ih same.2]

theorem sort_orElse_of_pairwise {second : Comparator Item}
    (inOrder : items.Pairwise fun left right => second.compare left right ≤ 0) :
    (order.orElse second).sort items = order.sort items := by
  induction items with
  | nil => rfl
  | cons item rest ih =>
      rw [List.pairwise_cons] at inOrder
      have restSame := ih inOrder.2
      simp only [sort] at restSame ⊢
      rw [List.insertionSort_cons, List.insertionSort_cons, restSame]
      apply orderedInsert_congr
      intro later laterMem
      have following := inOrder.1 later (List.mem_insertionSort _ |>.mp laterMem)
      simp only [orElse]
      split_ifs with differ <;> omega

end Comparator
