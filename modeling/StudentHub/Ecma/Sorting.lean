import Mathlib.Data.List.Sort

/-!
# Sorting by any comparator

What `sort` makes of a list is known only if the comparator is consistent on it. Then a
strict order leaves no choice, whatever the list was given as. A sort that leaves ascending
runs as they are lets every comparator that is no strict order show: some two permutations of
the list are ascending runs both.
-/

namespace Ecma

/-- The sign of the number that a comparator answers; `NaN` is read as zero. -/
abbrev Compare (Item : Type) := Item → Item → Ordering

section Sorting

variable {Item : Type} {compare : Compare Item} {items : List Item}

structure ConsistentOn (compare : Compare Item) (items : List Item) : Prop where
  swap : ∀ left ∈ items, ∀ right ∈ items, compare right left = (compare left right).swap
  trans : ∀ first ∈ items, ∀ second ∈ items, ∀ third ∈ items,
    compare first second ≠ .gt → compare second third ≠ .gt → compare first third ≠ .gt

structure StrictOn (compare : Compare Item) (items : List Item) : Prop where
  apart : ∀ left ∈ items, ∀ right ∈ items, left ≠ right → compare left right ≠ .eq
  trans : ∀ first ∈ items, ∀ second ∈ items, ∀ third ∈ items,
    compare first second = .lt → compare second third = .lt → compare first third = .lt

def IsRun (compare : Compare Item) (items : List Item) : Prop :=
  items.IsChain fun left right => compare right left ≠ .lt

theorem isRun_cons_cons {first second : Item} {rest : List Item} :
    IsRun compare (first :: second :: rest) ↔
      compare second first ≠ .lt ∧ IsRun compare (second :: rest) :=
  List.isChain_cons_cons

theorem IsRun.tail {first : Item} {rest : List Item} (run : IsRun compare (first :: rest)) :
    IsRun compare rest := by
  cases rest with
  | nil => exact .nil
  | cons second rest => exact (isRun_cons_cons.mp run).2

/-- What is documented of `sort`. -/
structure Sorts (sort : Compare Item → List Item → List Item) : Prop where
  perm : ∀ compare items, (sort compare items).Perm items
  sorted : ∀ compare items, ConsistentOn compare items →
    (sort compare items).Pairwise fun left right => compare left right ≠ .gt

def KeepsRuns (sort : Compare Item → List Item → List Item) : Prop :=
  ∀ compare items, IsRun compare items → sort compare items = items

def Swaps (compare : Compare Item) : Prop :=
  ∀ left right, compare right left = (compare left right).swap

theorem Swaps.compare_self (swaps : Swaps compare) (item : Item) : compare item item = .eq := by
  have same := swaps item item
  revert same
  cases compare item item <;> decide

theorem Swaps.lt_iff (swaps : Swaps compare) {left right : Item} :
    compare left right = .lt ↔ compare right left = .gt := by
  rw [swaps left right]
  cases compare left right <;> decide

theorem StrictOn.consistentOn (strict : StrictOn compare items) (swaps : Swaps compare) :
    ConsistentOn compare items := by
  refine ⟨fun left _ right _ => swaps left right, ?_⟩
  intro first firstMem second secondMem third thirdMem early late
  by_cases sameEarly : first = second
  · exact sameEarly ▸ late
  · by_cases sameLate : second = third
    · exact sameLate ▸ early
    · have less : ∀ {left right : Item}, left ∈ items → right ∈ items → left ≠ right →
          compare left right ≠ .gt → compare left right = .lt := by
        intro left right leftMem rightMem different notAbove
        have apart := strict.apart left leftMem right rightMem different
        revert apart notAbove
        cases compare left right <;> decide
      rw [strict.trans first firstMem second secondMem third thirdMem
        (less firstMem secondMem sameEarly early) (less secondMem thirdMem sameLate late)]
      decide

theorem StrictOn.perm {other : List Item} (strict : StrictOn compare items)
    (perm : other.Perm items) : StrictOn compare other := by
  refine ⟨?_, ?_⟩
  · intro left leftMem right rightMem
    exact strict.apart left (perm.subset leftMem) right (perm.subset rightMem)
  · intro first firstMem second secondMem third thirdMem
    exact strict.trans first (perm.subset firstMem) second (perm.subset secondMem) third
      (perm.subset thirdMem)

theorem StrictOn.sort_eq_of_perm {sort : Compare Item → List Item → List Item} {other : List Item}
    (strict : StrictOn compare items) (swaps : Swaps compare) (sorts : Sorts sort)
    (perm : other.Perm items) : sort compare other = sort compare items := by
  have samePerm : (sort compare other).Perm (sort compare items) :=
    ((sorts.perm compare other).trans perm).trans (sorts.perm compare items).symm
  apply samePerm.eq_of_pairwise _
    (sorts.sorted compare other ((strict.perm perm).consistentOn swaps))
    (sorts.sorted compare items (strict.consistentOn swaps))
  intro left right leftMem rightMem early late
  by_contra different
  have apart := strict.apart left
    (((sorts.perm compare other).trans perm).subset leftMem) right
    ((sorts.perm compare items).subset rightMem) different
  rw [swaps left right] at late
  revert apart early late
  cases compare left right <;> decide

/-- Where an item is put into a run: before the first that does not compare below it. -/
def insertItem (compare : Compare Item) (item : Item) (items : List Item) : List Item :=
  items.orderedInsert (fun left right => compare right left ≠ .lt) item

theorem insertItem_perm (item : Item) (items : List Item) :
    (insertItem compare item items).Perm (item :: items) :=
  List.perm_orderedInsert _ item items

theorem insertItem_cons (item first : Item) (rest : List Item) :
    insertItem compare item (first :: rest) =
      if compare first item ≠ .lt then item :: first :: rest
      else first :: insertItem compare item rest :=
  rfl

theorem IsRun.insertItem (swaps : Swaps compare) (run : IsRun compare items) (item : Item) :
    IsRun compare (insertItem compare item items) := by
  induction items with
  | nil => exact .singleton item
  | cons first rest ih =>
    rw [insertItem_cons]
    split
    case isTrue above => exact isRun_cons_cons.mpr ⟨above, run⟩
    case isFalse below =>
      have after : compare item first ≠ .lt := by
        rw [swaps first item, not_not.mp below]
        decide
      cases rest with
      | nil => exact isRun_cons_cons.mpr ⟨after, .singleton item⟩
      | cons second rest =>
        have inserted := ih run.tail
        rw [insertItem_cons] at inserted ⊢
        by_cases above : compare second item ≠ .lt
        · rw [if_pos above] at inserted ⊢
          exact isRun_cons_cons.mpr ⟨after, inserted⟩
        · rw [if_neg above] at inserted ⊢
          exact isRun_cons_cons.mpr ⟨(isRun_cons_cons.mp run).1, inserted⟩

theorem insertItem_inj {item : Item} {first second : List Item} (notFirst : item ∉ first)
    (notSecond : item ∉ second)
    (same : insertItem compare item first = insertItem compare item second) : first = second := by
  classical
  have erased := congrArg (List.erase · item) same
  simpa only [insertItem, List.erase_orderedInsert_of_notMem notFirst,
    List.erase_orderedInsert_of_notMem notSecond] using erased

structure TwoRuns (compare : Compare Item) (items first second : List Item) : Prop where
  first_perm : first.Perm items
  second_perm : second.Perm items
  first_run : IsRun compare first
  second_run : IsRun compare second
  different : first ≠ second

theorem TwoRuns.insert {first second : List Item} (runs : TwoRuns compare items first second)
    (swaps : Swaps compare) {item : Item} (fresh : item ∉ items) :
    TwoRuns compare (item :: items) (insertItem compare item first)
      (insertItem compare item second) := by
  refine ⟨(insertItem_perm item first).trans (runs.first_perm.cons item),
    (insertItem_perm item second).trans (runs.second_perm.cons item),
    runs.first_run.insertItem swaps item, runs.second_run.insertItem swaps item, ?_⟩
  intro same
  apply runs.different (insertItem_inj _ _ same)
  · exact fun isFirst => fresh (runs.first_perm.subset isFirst)
  · exact fun isSecond => fresh (runs.second_perm.subset isSecond)

theorem TwoRuns.append {first second : List Item} (runs : TwoRuns compare items first second)
    (swaps : Swaps compare) (rest : List Item) (nodup : (rest ++ items).Nodup) :
    ∃ first second, TwoRuns compare (rest ++ items) first second := by
  induction rest with
  | nil => exact ⟨first, second, runs⟩
  | cons item rest ih =>
    rw [List.cons_append, List.nodup_cons] at nodup
    rcases ih nodup.2 with ⟨longer, other, grown⟩
    exact ⟨_, _, grown.insert swaps nodup.1⟩

theorem TwoRuns.of_subset {part first second : List Item} (runs : TwoRuns compare part first second)
    (swaps : Swaps compare) (nodup : items.Nodup) (partNodup : part.Nodup)
    (subset : part ⊆ items) : ∃ first second, TwoRuns compare items first second := by
  rcases List.subperm_of_subset partNodup subset with ⟨found, foundPerm, sublist⟩
  rcases sublist.exists_perm_append with ⟨rest, perm⟩
  have ordered : items.Perm (rest ++ part) :=
    (perm.trans List.perm_append_comm).trans (foundPerm.append_left rest)
  rcases runs.append swaps rest (ordered.nodup_iff.mp nodup) with ⟨longer, other, grown⟩
  exact ⟨longer, other, grown.first_perm.trans ordered.symm, grown.second_perm.trans ordered.symm,
    grown.first_run, grown.second_run, grown.different⟩

/-- A comparator that is no strict order of the items has two runs of them: of two items that it
does not tell apart, or of three that it orders in a circle. -/
theorem exists_twoRuns (swaps : Swaps compare) (nodup : items.Nodup)
    (notStrict : ¬StrictOn compare items) : ∃ first second, TwoRuns compare items first second := by
  by_cases apart : ∀ left ∈ items, ∀ right ∈ items, left ≠ right → compare left right ≠ .eq
  · have circle : ∃ first ∈ items, ∃ second ∈ items, ∃ third ∈ items,
        compare first second = .lt ∧ compare second third = .lt ∧ compare first third ≠ .lt := by
      by_contra none
      apply notStrict
      refine ⟨apart, ?_⟩
      intro first firstMem second secondMem third thirdMem early late
      by_contra notBelow
      exact none ⟨first, firstMem, second, secondMem, third, thirdMem, early, late, notBelow⟩
    rcases circle with ⟨first, firstMem, second, secondMem, third, thirdMem, early, late, notBelow⟩
    have differ : ∀ {left right : Item}, compare left right = .lt → left ≠ right := by
      rintro left right less rfl
      rw [swaps.compare_self] at less
      cases less
    have differAround : first ≠ third := by
      rintro rfl
      rw [swaps first second, early] at late
      cases late
    have around : compare third first = .lt := by
      have notEqual := apart first firstMem third thirdMem differAround
      rw [swaps first third]
      revert notBelow notEqual
      cases compare first third <;> decide
    have step : ∀ {left right : Item}, compare left right = .lt → compare right left ≠ .lt := by
      intro left right less
      rw [swaps.lt_iff.mp less]
      decide
    have runs : TwoRuns compare [first, second, third] [first, second, third]
        [second, third, first] := by
      refine ⟨.refl _, @List.perm_append_comm _ [second, third] [first], ?_, ?_, ?_⟩
      · exact isRun_cons_cons.mpr ⟨step early, isRun_cons_cons.mpr ⟨step late, .singleton _⟩⟩
      · exact isRun_cons_cons.mpr ⟨step late, isRun_cons_cons.mpr ⟨step around, .singleton _⟩⟩
      · intro same
        exact differ early (List.cons.inj same).1
    apply runs.of_subset swaps nodup
    · simp [differ early, differ late, differAround]
    · simp [firstMem, secondMem, thirdMem]
  · simp only [not_forall, not_not] at apart
    rcases apart with ⟨left, leftMem, right, rightMem, different, tie⟩
    have tie' : compare right left = .eq := by
      rw [swaps left right, tie]
      rfl
    have runs : TwoRuns compare [left, right] [left, right] [right, left] := by
      refine ⟨.refl _, .swap left right [], ?_, ?_, ?_⟩
      · exact isRun_cons_cons.mpr ⟨by rw [tie']; decide, .singleton _⟩
      · exact isRun_cons_cons.mpr ⟨by rw [tie]; decide, .singleton _⟩
      intro same
      exact different (List.cons.inj same).1
    apply runs.of_subset swaps nodup
    · simp [different]
    · simp [leftMem, rightMem]

/-- The items from the last on, each put where it belongs among those after it. -/
def insertionSort (compare : Compare Item) (items : List Item) : List Item :=
  items.foldr (insertItem compare) []

theorem insertionSort_perm (compare : Compare Item) (items : List Item) :
    (insertionSort compare items).Perm items := by
  induction items with
  | nil => exact .refl _
  | cons item rest ih => exact (insertItem_perm item _).trans (ih.cons item)

theorem insertItem_pairwise {item : Item} (consistent : ConsistentOn compare (item :: items))
    (sorted : items.Pairwise fun left right => compare left right ≠ .gt) :
    (insertItem compare item items).Pairwise fun left right => compare left right ≠ .gt := by
  induction items with
  | nil => exact List.pairwise_singleton _ _
  | cons first rest ih =>
    rw [List.pairwise_cons] at sorted
    have itemMem : item ∈ item :: first :: rest := List.mem_cons_self
    have firstMem : first ∈ item :: first :: rest := List.mem_cons_of_mem _ List.mem_cons_self
    have swap := consistent.swap item itemMem first firstMem
    rw [insertItem_cons]
    split
    case isTrue above =>
      have before : compare item first ≠ .gt := by
        revert above
        rw [swap]
        cases compare item first <;> decide
      rw [List.pairwise_cons, List.pairwise_cons]
      refine ⟨?_, sorted⟩
      rw [List.forall_mem_cons]
      refine ⟨before, ?_⟩
      intro other otherMem
      exact consistent.trans item itemMem first firstMem other
        (List.mem_cons_of_mem _ (List.mem_cons_of_mem _ otherMem)) before (sorted.1 other otherMem)
    case isFalse below =>
      rw [List.pairwise_cons]
      refine ⟨?_, ih ?_ sorted.2⟩
      · intro other otherMem
        rcases List.mem_cons.mp ((insertItem_perm item rest).subset otherMem) with rfl | inRest
        · rw [not_not.mp below]
          decide
        · exact sorted.1 other inRest
      · have subset : item :: rest ⊆ item :: first :: rest :=
          List.cons_subset_cons item (List.subset_cons_self first rest)
        exact ⟨fun left leftMem right rightMem =>
            consistent.swap left (subset leftMem) right (subset rightMem),
          fun first firstMem second secondMem third thirdMem => consistent.trans first
            (subset firstMem) second (subset secondMem) third (subset thirdMem)⟩

theorem ConsistentOn.perm {other : List Item} (consistent : ConsistentOn compare items)
    (subset : other ⊆ items) : ConsistentOn compare other :=
  ⟨fun left leftMem right rightMem =>
      consistent.swap left (subset leftMem) right (subset rightMem),
    fun first firstMem second secondMem third thirdMem => consistent.trans first
      (subset firstMem) second (subset secondMem) third (subset thirdMem)⟩

theorem sorts_insertionSort : Sorts (@insertionSort Item) := by
  refine ⟨insertionSort_perm, ?_⟩
  intro compare items consistent
  induction items with
  | nil => exact .nil
  | cons item rest ih =>
    apply insertItem_pairwise _ (ih (consistent.perm (List.subset_cons_self item rest)))
    apply consistent.perm
    exact ((insertionSort_perm compare rest).cons item).subset

theorem keepsRuns_insertionSort : KeepsRuns (@insertionSort Item) := by
  intro compare items run
  induction items with
  | nil => rfl
  | cons item rest ih =>
    have kept : insertionSort compare (item :: rest) = insertItem compare item rest :=
      congrArg (insertItem compare item) (ih run.tail)
    rw [kept]
    cases rest with
    | nil => rfl
    | cons first rest =>
      rw [insertItem_cons, if_pos (isRun_cons_cons.mp run).1]

end Sorting

end Ecma
