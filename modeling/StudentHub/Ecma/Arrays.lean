import StudentHub.Ecma.Text
import StudentHub.Order.Comparator
import Mathlib.Data.List.Lex

/-!
# Arrays

The array methods whose result depends on positions: `indexOf`, and `sort` with a
comparator that subtracts two numbers. Sorting is stable, so the first element of
a sorted array that satisfies a predicate is one with the least key. `distinctBy` is
the loop that keeps the first item of every key in a `Set`.
-/

namespace Ecma

universe u v

variable {Item : Type u}

/-- Position search `items.indexOf(item)`: the first position, or -1. -/
def indexOf [DecidableEq Item] (items : List Item) (item : Item) : ℤ :=
  if item ∈ items then items.idxOf item else -1

/-- Numeric sort `items.sort((a, b) => key(a) - key(b))`. -/
def sortBy (key : Item → ℤ) (items : List Item) : List Item :=
  items.insertionSort fun left right => key left ≤ key right

/-- Default sort `texts.sort()`: by UTF-16 code units. -/
def sortTexts (texts : List JsString) : List JsString :=
  texts.insertionSort fun left right => ¬right < left

def insertM {Error Item : Type} (compare : Item → Item → Except Error ℤ) (item : Item) :
    List Item → Except Error (List Item)
  | [] => .ok [item]
  | other :: rest => do
      if (← compare item other) ≤ 0 then
        return item :: other :: rest
      else
        return other :: (← insertM compare item rest)

/-- Stable sort with a comparator that may throw. Which pairs are compared is up to the
engine, and so is whether a pair that throws is met. -/
def sortM {Error Item : Type} (compare : Item → Item → Except Error ℤ) :
    List Item → Except Error (List Item)
  | [] => .ok []
  | item :: rest => do insertM compare item (← sortM compare rest)

def codeUnitOrder : Comparator JsString :=
  (Comparator.ofOrder (List ℕ)).onKey (List.map UInt16.toNat)

def distinctBy {Key : Type v} [DecidableEq Key] (key : Item → Key) (items : List Item) :
    List Item :=
  items.foldl (fun kept item =>
    if key item ∈ kept.map key then kept else kept ++ [item]) []

@[simp]
theorem mem_sortBy {key : Item → ℤ} {items : List Item} {item : Item} :
    item ∈ sortBy key items ↔ item ∈ items := List.mem_insertionSort _

@[simp]
theorem mem_sortTexts {texts : List JsString} {text : JsString} :
    text ∈ sortTexts texts ↔ text ∈ texts := List.mem_insertionSort _

theorem nodup_sortTexts {texts : List JsString} : (sortTexts texts).Nodup ↔ texts.Nodup :=
  (List.perm_insertionSort _ texts).nodup_iff

theorem pairwise_sortBy (key : Item → ℤ) (items : List Item) :
    (sortBy key items).Pairwise fun left right => key left ≤ key right := by
  have total : Std.Total fun left right : Item => key left ≤ key right :=
    ⟨fun left right => le_total (key left) (key right)⟩
  have trans : IsTrans Item fun left right => key left ≤ key right :=
    ⟨fun _ _ _ first second => first.trans second⟩
  exact List.pairwise_insertionSort _ items

theorem find?_sortBy {key : Item → ℤ} {items : List Item} {select : Item → Bool} {first : Item}
    (found : (sortBy key items).find? select = some first) :
    first ∈ items ∧ select first = true ∧
      ∀ other ∈ items, select other = true → key first ≤ key other := by
  rcases List.find?_eq_some_iff_append.mp found with ⟨selected, before, after, split, skipped⟩
  refine ⟨mem_sortBy.mp (List.mem_of_find?_eq_some found), selected, ?_⟩
  intro other otherMem otherSelected
  have position : other ∈ before ++ first :: after := split ▸ mem_sortBy.mpr otherMem
  rcases List.mem_append.mp position with early | late
  · have rejected := skipped other early
    simp [otherSelected] at rejected
  · rcases List.mem_cons.mp late with same | later
    · rw [same]
    · have sorted := pairwise_sortBy key items
      rw [split] at sorted
      exact (List.pairwise_cons.mp (List.pairwise_append.mp sorted).2.1).1 other later

section DistinctBy

variable {Key : Type v} [DecidableEq Key] (key : Item → Key)

theorem find?_distinctBy (items : List Item) (wanted : Key) :
    (distinctBy key items).find? (fun item => key item = wanted) =
      items.find? fun item => key item = wanted := by
  have general : ∀ kept, (items.foldl (fun kept item =>
      if key item ∈ kept.map key then kept else kept ++ [item]) kept).find?
        (fun item => key item = wanted) =
      (kept ++ items).find? fun item => key item = wanted := by
    induction items with
    | nil => simp
    | cons item rest ih =>
        intro kept
        rw [List.foldl_cons, ih]
        split
        case isTrue seen =>
          rcases List.mem_map.mp seen with ⟨earlier, earlierMem, sameKey⟩
          rw [List.find?_append, List.find?_append, List.find?_cons]
          by_cases isWanted : key item = wanted
          · have found : (kept.find? fun item => key item = wanted).isSome := by
              rw [List.find?_isSome]
              exact ⟨earlier, earlierMem, by simpa using sameKey.trans isWanted⟩
            rcases Option.isSome_iff_exists.mp found with ⟨first, firstFound⟩
            simp [firstFound]
          · simp [isWanted]
        case isFalse => simp
  exact general []

theorem distinctBy_concat (items : List Item) (item : Item) :
    distinctBy key (items ++ [item]) =
      if key item ∈ (distinctBy key items).map key then distinctBy key items
      else distinctBy key items ++ [item] := by
  rw [distinctBy, List.foldl_append]
  rfl

theorem nodup_map_distinctBy (items : List Item) : ((distinctBy key items).map key).Nodup := by
  have general : ∀ kept : List Item, (kept.map key).Nodup → ((items.foldl (fun kept item =>
      if key item ∈ kept.map key then kept else kept ++ [item]) kept).map key).Nodup := by
    induction items with
    | nil => exact fun _ nodup => nodup
    | cons item rest ih =>
        intro kept nodup
        apply ih
        beta_reduce
        split
        case isTrue => exact nodup
        case isFalse unseen =>
          rw [List.map_append, List.map_singleton]
          exact nodup.append (List.nodup_singleton _) (by simpa using unseen)
  exact general [] List.nodup_nil

theorem mem_distinctBy_iff {items : List Item} {item : Item} :
    item ∈ distinctBy key items ↔ items.find? (fun other => key other = key item) = some item := by
  rw [← find?_distinctBy key items (key item)]
  constructor
  · intro kept
    cases found : (distinctBy key items).find? fun other => key other = key item with
    | none =>
        have absent := List.find?_eq_none.mp found item kept
        simp at absent
    | some first =>
        have sameKey : key first = key item := by simpa using List.find?_some found
        rw [List.inj_on_of_nodup_map (nodup_map_distinctBy key items)
          (List.mem_of_find?_eq_some found) kept sameKey]
  · exact List.mem_of_find?_eq_some

theorem mem_distinctBy_id [DecidableEq Item] {items : List Item} {item : Item} :
    item ∈ distinctBy id items ↔ item ∈ items := by
  rw [mem_distinctBy_iff]
  constructor
  · exact List.mem_of_find?_eq_some
  · intro member
    cases found : items.find? fun other => id other = id item with
    | none =>
        have absent := List.find?_eq_none.mp found item member
        simp at absent
    | some first =>
        have same : first = item := by simpa using List.find?_some found
        rw [same]

end DistinctBy

theorem bind_eq_ok_iff {Error First Second : Type} {first : Except Error First}
    {next : First → Except Error Second} {result : Second} :
    (first >>= next) = .ok result ↔ ∃ value, first = .ok value ∧ next value = .ok result := by
  cases first <;> simp [bind, Except.bind]

theorem bind_ne_error {Error First Second : Type} {first : Except Error First}
    {next : First → Except Error Second} {error : Error} (firstNot : first ≠ .error error)
    (nextNot : ∀ value, next value ≠ .error error) : (first >>= next) ≠ .error error := by
  cases first with
  | error other =>
    intro same
    exact firstNot (congrArg Except.error (Except.error.inj same))
  | ok value => exact nextNot value

theorem mapM_ok_of_forall {Source Target Error : Type} {transform : Source → Except Error Target}
    {image : Source → Target} {sources : List Source}
    (succeeds : ∀ source ∈ sources, transform source = .ok (image source)) :
    sources.mapM transform = .ok (sources.map image) := by
  induction sources with
  | nil => rfl
  | cons source rest ih =>
      rw [List.forall_mem_cons] at succeeds
      rw [List.mapM_cons, succeeds.1, ih succeeds.2]
      rfl

theorem mapM_ok_of_forall_exists {Source Target Error : Type}
    {transform : Source → Except Error Target} {sources : List Source}
    (succeeds : ∀ source ∈ sources, ∃ target, transform source = .ok target) :
    ∃ targets, sources.mapM transform = .ok targets := by
  induction sources with
  | nil => exact ⟨[], rfl⟩
  | cons source rest ih =>
    rw [List.forall_mem_cons] at succeeds
    rcases succeeds.1 with ⟨target, transformed⟩
    rcases ih succeeds.2 with ⟨targets, restTransformed⟩
    refine ⟨target :: targets, ?_⟩
    rw [List.mapM_cons, transformed, restTransformed]
    rfl

theorem length_of_mapM_eq_ok {Source Target Error : Type} {transform : Source → Except Error Target}
    {sources : List Source} {targets : List Target}
    (accepted : sources.mapM transform = .ok targets) : targets.length = sources.length := by
  induction sources generalizing targets with
  | nil =>
    cases Except.ok.inj accepted
    rfl
  | cons first rest ih =>
    rw [List.mapM_cons, bind_eq_ok_iff] at accepted
    rcases accepted with ⟨target, -, accepted⟩
    rcases bind_eq_ok_iff.mp accepted with ⟨others, restAccepted, built⟩
    rw [← Except.ok.inj built, List.length_cons, List.length_cons, ih restAccepted]

theorem exists_mem_of_mapM_eq_ok {Source Target Error : Type}
    {transform : Source → Except Error Target} {sources : List Source} {targets : List Target}
    (accepted : sources.mapM transform = .ok targets) {source : Source}
    (sourceMem : source ∈ sources) : ∃ target ∈ targets, transform source = .ok target := by
  induction sources generalizing targets with
  | nil => simp at sourceMem
  | cons first rest ih =>
    rw [List.mapM_cons, bind_eq_ok_iff] at accepted
    rcases accepted with ⟨target, transformed, accepted⟩
    rcases bind_eq_ok_iff.mp accepted with ⟨others, restAccepted, built⟩
    rw [← Except.ok.inj built]
    rcases List.mem_cons.mp sourceMem with rfl | inRest
    · exact ⟨target, List.mem_cons_self, transformed⟩
    · rcases ih restAccepted inRest with ⟨other, otherMem, otherTransformed⟩
      exact ⟨other, List.mem_cons_of_mem target otherMem, otherTransformed⟩

/-- The loop that pushes what each pass gives; a pass may skip its item, or throw. -/
def collectM {Error Source Target : Type} (pass : Source → Except Error (Option Target)) :
    List Source → Except Error (List Target)
  | [] => .ok []
  | item :: rest => do
      match (← pass item) with
      | some result => return result :: (← collectM pass rest)
      | none => collectM pass rest

theorem collectM_spec {Error Source Target : Type}
    {pass : Source → Except Error (Option Target)} {items : List Source} {results : List Target}
    (collected : collectM pass items = .ok results) :
    (∀ item ∈ items, ∃ answer, pass item = .ok answer) ∧
      ∀ result, result ∈ results ↔ ∃ item ∈ items, pass item = .ok (some result) := by
  induction items generalizing results with
  | nil =>
    cases Except.ok.inj collected
    simp
  | cons item rest ih =>
    rcases bind_eq_ok_iff.mp collected with ⟨answer, passed, collected⟩
    cases answer with
    | none =>
      rcases ih collected with ⟨succeeds, members⟩
      refine ⟨List.forall_mem_cons.mpr ⟨⟨none, passed⟩, succeeds⟩, ?_⟩
      intro result
      simp [members, passed]
    | some first =>
      rcases bind_eq_ok_iff.mp collected with ⟨others, restCollected, collected⟩
      cases Except.ok.inj collected
      rcases ih restCollected with ⟨succeeds, members⟩
      refine ⟨List.forall_mem_cons.mpr ⟨⟨some first, passed⟩, succeeds⟩, ?_⟩
      intro result
      simp [members, passed, eq_comm]

theorem map_collectM_sublist {Error Source Target Key : Type}
    {pass : Source → Except Error (Option Target)} {items : List Source} {results : List Target}
    {key : Source → Key} {resultKey : Target → Key}
    (keeps : ∀ item result, pass item = .ok (some result) → resultKey result = key item)
    (collected : collectM pass items = .ok results) :
    (results.map resultKey).Sublist (items.map key) := by
  induction items generalizing results with
  | nil =>
    cases Except.ok.inj collected
    exact List.Sublist.slnil
  | cons item rest ih =>
    rcases bind_eq_ok_iff.mp collected with ⟨answer, passed, collected⟩
    cases answer with
    | none => exact (ih collected).cons _
    | some first =>
      rcases bind_eq_ok_iff.mp collected with ⟨others, restCollected, collected⟩
      cases Except.ok.inj collected
      rw [List.map_cons, List.map_cons, keeps item first passed]
      exact (ih restCollected).cons_cons _

theorem mem_of_insertM {Error Item : Type} {compare : Item → Item → Except Error ℤ} {item : Item}
    {items inserted : List Item} (done : insertM compare item items = .ok inserted) {other : Item}
    (member : other ∈ inserted) : other = item ∨ other ∈ items := by
  induction items generalizing inserted with
  | nil =>
    cases Except.ok.inj done
    simpa using member
  | cons first rest ih =>
    rcases bind_eq_ok_iff.mp done with ⟨order, -, done⟩
    split_ifs at done
    · cases Except.ok.inj done
      simpa using member
    · rcases bind_eq_ok_iff.mp done with ⟨later, insertedLater, done⟩
      cases Except.ok.inj done
      rcases List.mem_cons.mp member with rfl | inLater
      · simp
      · rcases ih insertedLater inLater with same | inRest
        · exact .inl same
        · exact .inr (List.mem_cons_of_mem first inRest)

theorem mem_of_sortM {Error Item : Type} {compare : Item → Item → Except Error ℤ}
    {items sorted : List Item} (done : sortM compare items = .ok sorted) {item : Item}
    (member : item ∈ sorted) : item ∈ items := by
  induction items generalizing sorted item with
  | nil =>
    cases Except.ok.inj done
    exact member
  | cons first rest ih =>
    rcases bind_eq_ok_iff.mp done with ⟨later, sortedLater, done⟩
    rcases mem_of_insertM done member with rfl | inLater
    · exact List.mem_cons_self
    · exact List.mem_cons_of_mem first (ih sortedLater inLater)

/-- The slice `items.slice(start, start + size)` with `start = index * size`. -/
def pageOf (items : List Item) (size index : ℕ) : List Item := (items.drop (index * size)).take size

theorem flatMap_pageOf (items : List Item) (size count : ℕ) :
    (List.range count).flatMap (pageOf items size) = items.take (count * size) := by
  induction count with
  | zero => simp
  | succ count ih =>
    rw [List.range_succ, List.flatMap_append, ih, List.flatMap_singleton, pageOf, Nat.succ_mul,
      List.take_add]

theorem pageOf_eq_nil {items : List Item} {size index : ℕ} (beyond : items.length ≤ index * size) :
    pageOf items size index = [] := by
  rw [pageOf, List.drop_of_length_le beyond, List.take_nil]

end Ecma
