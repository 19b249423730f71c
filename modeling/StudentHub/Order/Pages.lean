import Mathlib.Algebra.Order.Group.Nat
import Mathlib.Algebra.Order.Ring.Nat
import Mathlib.Data.List.Basic
import Mathlib.Order.Defs.LinearOrder

/-!
# Pages of a list that changes

A list in a fixed order, the greatest item first, is read page by page, and it may change between
two reads. An item is on the page that the number of items ahead of it says. One that is there all
the time is on a page that is read unless, between two reads, it comes from behind the pages that
have been read to before the end of them.
-/

namespace Paging

universe u

variable {Item : Type u}

def page (size place : ℕ) (items : List Item) : List Item := (items.drop (size * place)).take size

section Windows

variable {items : List Item} {item : Item} {size : ℕ}

theorem sum_countP_page {last : ℕ} (test : Item → Bool) (covered : items.length ≤ size * last) :
    ((List.range last).map fun place => (page size place items).countP test).sum =
      items.countP test := by
  have upTo : ∀ last, ((List.range last).map fun place => (page size place items).countP test).sum =
      (items.take (size * last)).countP test := by
    intro last
    induction last with
    | zero => simp
    | succ last ih =>
        rw [List.range_succ, List.map_append, List.sum_append, ih, Nat.mul_succ, List.take_add,
          List.countP_append]
        simp [page]
  rw [upTo, List.take_of_length_le covered]

theorem eq_of_mem_page {place place' : ℕ} (nodup : items.Nodup)
    (itemMem : item ∈ page size place items) (itemMem' : item ∈ page size place' items) :
    place = place' := by
  have index : ∀ {place}, item ∈ page size place items →
      ∃ i < size, items[size * place + i]? = some item := by
    intro place onPage
    rcases List.mem_iff_getElem?.mp onPage with ⟨i, isItem⟩
    rw [page, List.getElem?_take] at isItem
    split_ifs at isItem with small
    · rw [List.getElem?_drop] at isItem
      exact ⟨i, small, isItem⟩
  rcases index itemMem with ⟨i, small, isItem⟩
  rcases index itemMem' with ⟨j, small', isItem'⟩
  have bound := (List.getElem?_eq_some_iff.mp isItem).1
  have same : size * place + i = size * place' + j :=
    (List.getElem?_inj bound nodup).mp (isItem.trans isItem'.symm)
  have quotient : ∀ place i, i < size → (size * place + i) / size = place := by
    intro place i small
    rw [Nat.mul_add_div (by omega), Nat.div_eq_of_lt small, Nat.add_zero]
  rw [← quotient place i small, same, quotient place' j small']

end Windows

section Order

variable [LinearOrder Item] {items : List Item} {item : Item}

def ahead (items : List Item) (item : Item) : ℕ := items.countP (item < ·)

theorem ahead_cons (first : Item) : ahead (first :: items) item =
    ahead items item + if item < first then 1 else 0 := by
  simp only [ahead, List.countP_cons, decide_eq_true_eq]

theorem ahead_eq_zero (below : ∀ other ∈ items, other < item) : ahead items item = 0 := by
  rw [ahead, List.countP_eq_zero]
  intro other isOther isAhead
  rw [decide_eq_true_eq] at isAhead
  exact absurd isAhead (below other isOther).asymm

theorem ahead_lt_length (isItem : item ∈ items) : ahead items item < items.length := by
  apply Nat.lt_of_le_of_ne List.countP_le_length
  intro all
  have isAhead := List.countP_eq_length.mp all item isItem
  rw [decide_eq_true_eq] at isAhead
  exact lt_irrefl item isAhead

theorem mem_window_iff (sorted : items.Pairwise (· > ·)) (start size : ℕ) :
    item ∈ (items.drop start).take size ↔
      item ∈ items ∧ start ≤ ahead items item ∧ ahead items item < start + size := by
  induction items generalizing start size with
  | nil => simp
  | cons first items ih =>
      rw [List.pairwise_cons] at sorted
      have front : ahead (first :: items) first = 0 := by
        rw [ahead_cons, if_neg (lt_irrefl first), ahead_eq_zero sorted.1]
      have behind : ∀ item ∈ items, ahead (first :: items) item = ahead items item + 1 := by
        intro item isItem
        rw [ahead_cons, if_pos (sorted.1 item isItem)]
      have isFirst : first ∉ items := fun isItem => lt_irrefl first (sorted.1 first isItem)
      cases start with
      | zero =>
          cases size with
          | zero => simp
          | succ size =>
              have rest := ih sorted.2 0 size
              rw [List.drop_zero] at rest
              rw [List.drop_zero, List.take_succ_cons, List.mem_cons, rest, List.mem_cons]
              by_cases same : item = first
              · subst same
                simp [front]
              · simp only [same, false_or, zero_le, true_and, zero_add]
                refine and_congr_right fun isItem => ?_
                rw [behind item isItem]
                omega
      | succ start =>
          rw [List.drop_succ_cons, ih sorted.2, List.mem_cons]
          by_cases same : item = first
          · subst same
            simp [front, isFirst]
          · simp only [same, false_or]
            refine and_congr_right fun isItem => ?_
            rw [behind item isItem]
            omega

theorem mem_page_iff (sorted : items.Pairwise (· > ·)) {size place : ℕ} :
    item ∈ page size place items ↔ item ∈ items ∧ size * place ≤ ahead items item ∧
      ahead items item < size * (place + 1) := by
  rw [page, mem_window_iff sorted, Nat.mul_succ]

end Order

theorem exists_on_page {size last : ℕ} (rank : ℕ → ℕ) (ends : rank last < size * (last + 1))
    (stays : ∀ place < last, size * (place + 1) ≤ rank place →
      size * (place + 1) ≤ rank (place + 1)) :
    ∃ place ≤ last, size * place ≤ rank place ∧ rank place < size * (place + 1) := by
  have seen : ∀ place ≤ last,
      (∃ earlier ≤ place, size * earlier ≤ rank earlier ∧ rank earlier < size * (earlier + 1)) ∨
        size * (place + 1) ≤ rank place := by
    intro place
    induction place with
    | zero =>
        intro _
        rcases Nat.lt_or_ge (rank 0) (size * (0 + 1)) with onFirst | behind
        · exact .inl ⟨0, Nat.le_refl 0, by simp, onFirst⟩
        · exact .inr behind
    | succ place ih =>
        intro below
        rcases ih (by omega) with ⟨earlier, isEarlier, onPage⟩ | behind
        · exact .inl ⟨earlier, by omega, onPage⟩
        · have stillBehind := stays place (by omega) behind
          rcases Nat.lt_or_ge (rank (place + 1)) (size * (place + 1 + 1)) with onNext | behindNext
          · exact .inl ⟨place + 1, Nat.le_refl _, stillBehind, onNext⟩
          · exact .inr behindNext
  rcases seen last (Nat.le_refl last) with found | behind
  · exact found
  · omega

end Paging
