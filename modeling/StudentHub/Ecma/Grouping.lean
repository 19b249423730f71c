import StudentHub.Ecma.Arrays
import StudentHub.Ecma.OrderedMap

/-!
# Grouping with maps

Two loops that fill a `Map` from a list: one keeps the best item of every key, the
other collects a `Set` of members for every key. What they hold does not depend on the
order of the list, but the order in which they iterate does: it is the order in which
the keys come first.
-/

namespace Ecma

universe u v

variable {Item : Type u} {Key : Type v} [DecidableEq Key]

/-- `set.add(member)`, of a `Set` that is the list of its members. -/
def addMember {Member : Type u} [DecidableEq Member] (members : List Member) (member : Member) :
    List Member :=
  if member ∈ members then members else members ++ [member]

namespace OrderedMap

def keepBest (keyOf : Item → Key) (better : Item → Item → Bool) (map : OrderedMap Key Item)
    (item : Item) : OrderedMap Key Item :=
  match map.get? (keyOf item) with
  | none => map.set (keyOf item) item
  | some existing => if better item existing then map.set (keyOf item) item else map

/-- Add the member of the item to the `Set` of its key, a new one for a new key. -/
def addToGroup {Member : Type u} [DecidableEq Member] (keyOf : Item → Key)
    (memberOf : Item → Member) (map : OrderedMap Key (List Member)) (item : Item) :
    OrderedMap Key (List Member) :=
  map.set (keyOf item) (addMember ((map.get? (keyOf item)).getD []) (memberOf item))

theorem keys_set {Value : Type u} (map : OrderedMap Key Value) (key : Key) (value : Value) :
    (map.set key value).keys = if key ∈ map.keys then map.keys else map.keys ++ [key] := by
  rw [set]
  split
  · simp only [keys, List.map_map]
    apply List.map_congr_left
    intro entry _
    by_cases same : entry.1 = key <;> simp [same]
  · simp [keys]

section KeepBest

variable {keyOf : Item → Key} {better : Item → Item → Bool}

structure Best (keyOf : Item → Key) (better : Item → Item → Bool) (items : List Item)
    (map : OrderedMap Key Item) : Prop where
  keyed : ∀ key item, map.get? key = some item → keyOf item = key
  listed : ∀ key item, map.get? key = some item → item ∈ items
  best : ∀ key item, map.get? key = some item → ∀ rival ∈ items, keyOf rival = key →
    better rival item = false
  held : ∀ item ∈ items, (map.get? (keyOf item)).isSome
  inOrder : map.keys.Sublist (items.map keyOf)

theorem best_empty : Best keyOf better [] (empty : OrderedMap Key Item) := by
  constructor <;> simp [empty, keys, get?]

theorem Best.set {items : List Item} {map : OrderedMap Key Item} (sound : Best keyOf better items map)
    {item : Item} (irrefl : better item item = false)
    (rivals : ∀ rival ∈ items, keyOf rival = keyOf item → better rival item = false) :
    Best keyOf better (items ++ [item]) (map.set (keyOf item) item) := by
  constructor
  case keyed =>
    intro key kept found
    rw [get?_set] at found
    split at found
    · rename_i same
      rw [← Option.some.inj found, same]
    · exact sound.keyed key kept found
  case listed =>
    intro key kept found
    rw [get?_set] at found
    split at found
    · simp [Option.some.inj found]
    · exact List.mem_append_left _ (sound.listed key kept found)
  case best =>
    intro key kept found rival rivalMem sameKey
    rw [get?_set] at found
    rw [List.mem_append, List.mem_singleton] at rivalMem
    split at found
    · rename_i same
      rw [← Option.some.inj found]
      rcases rivalMem with earlier | rfl
      · exact rivals rival earlier (sameKey.trans same)
      · exact irrefl
    · rename_i different
      rcases rivalMem with earlier | rfl
      · exact sound.best key kept found rival earlier sameKey
      · exact absurd sameKey.symm different
  case held =>
    intro other otherMem
    rw [List.mem_append, List.mem_singleton] at otherMem
    rw [get?_set]
    split
    · rfl
    · rcases otherMem with earlier | rfl
      · exact sound.held other earlier
      · contradiction
  case inOrder =>
    rw [keys_set, List.map_append, List.map_singleton]
    split
    · exact sound.inOrder.trans (List.sublist_append_left _ _)
    · exact sound.inOrder.append (List.Sublist.refl _)

theorem Best.keepBest {items : List Item} {map : OrderedMap Key Item}
    (sound : Best keyOf better items map) (irrefl : ∀ item, better item item = false)
    (trans : ∀ first second third, better first second = true → better second third = true →
      better first third = true) (item : Item) :
    Best keyOf better (items ++ [item]) (map.keepBest keyOf better item) := by
  rw [OrderedMap.keepBest]
  split
  case h_1 absent =>
    apply sound.set (irrefl item)
    intro rival rivalMem sameKey
    have held := sound.held rival rivalMem
    rw [sameKey, absent] at held
    simp at held
  case h_2 existing found =>
    split
    case isTrue improves =>
      apply sound.set (irrefl item)
      intro rival rivalMem sameKey
      by_contra above
      have least := sound.best _ existing found rival rivalMem sameKey
      rw [trans rival item existing (by simpa using above) improves] at least
      simp at least
    case isFalse stays =>
      constructor
      case keyed => exact sound.keyed
      case listed =>
        intro key kept atKey
        exact List.mem_append_left _ (sound.listed key kept atKey)
      case best =>
        intro key kept atKey rival rivalMem sameKey
        rw [List.mem_append, List.mem_singleton] at rivalMem
        rcases rivalMem with earlier | rfl
        · exact sound.best key kept atKey rival earlier sameKey
        · rw [← sameKey, found] at atKey
          rw [← Option.some.inj atKey]
          simpa using stays
      case held =>
        intro other otherMem
        rw [List.mem_append, List.mem_singleton] at otherMem
        rcases otherMem with earlier | rfl
        · exact sound.held other earlier
        · simp [found]
      case inOrder =>
        rw [List.map_append]
        exact sound.inOrder.trans (List.sublist_append_left _ _)

end KeepBest

section Groups

variable {Member : Type u} [DecidableEq Member] {keyOf : Item → Key} {memberOf : Item → Member}

theorem get?_foldl_addToGroup (items : List Item) (map : OrderedMap Key (List Member)) (key : Key) :
    (items.foldl (addToGroup keyOf memberOf) map).get? key =
      if key ∈ items.map keyOf then
        some (((items.filter fun item => keyOf item = key).map memberOf).foldl addMember
          ((map.get? key).getD []))
      else
        map.get? key := by
  induction items generalizing map with
  | nil => simp
  | cons item rest ih =>
      rw [List.foldl_cons, ih, addToGroup, get?_set]
      by_cases same : keyOf item = key
      · subst same
        by_cases later : keyOf item ∈ rest.map keyOf
        · simp [later]
        · have noMore : (rest.filter fun other => keyOf other = keyOf item) = [] := by
            simp only [List.filter_eq_nil_iff, decide_eq_true_eq]
            intro other otherMem sameKey
            exact later (sameKey ▸ List.mem_map_of_mem otherMem)
          simp [later, noMore]
      · simp [same, Ne.symm same]

end Groups

end OrderedMap

theorem foldl_addMember {Member : Type u} [DecidableEq Member] (members : List Member) :
    members.foldl addMember [] = distinctBy id members := by
  simp only [distinctBy, List.map_id, id_eq]
  rfl

theorem nodup_distinctBy_id {Member : Type u} [DecidableEq Member] (members : List Member) :
    (distinctBy id members).Nodup := by
  simpa using nodup_map_distinctBy id members

theorem distinctBy_sublist (key : Item → Key) (items : List Item) :
    (distinctBy key items).Sublist items := by
  induction items using List.reverseRecOn with
  | nil => exact List.Sublist.refl _
  | append_singleton items item ih =>
      rw [distinctBy_concat]
      split
      · exact ih.trans (List.sublist_append_left _ _)
      · exact ih.append (List.Sublist.refl _)

def InFront (front : Item → Bool) (items : List Item) : Prop :=
  items.Pairwise fun earlier later => front later = true → front earlier = true

theorem InFront.head_filter {front select : Item → Bool} {items : List Item}
    (inFront : InFront front items) {item : Item} (member : item ∈ items)
    (selected : select item = true) (isFront : front item = true) :
    ∃ first rest, items.filter select = first :: rest ∧ front first = true := by
  have filtered : InFront front (items.filter select) :=
    List.Pairwise.sublist List.filter_sublist inFront
  have kept : item ∈ items.filter select := List.mem_filter.mpr ⟨member, selected⟩
  cases split : items.filter select with
  | nil => simp [split] at kept
  | cons first rest =>
      rw [split] at kept
      rw [split, InFront] at filtered
      refine ⟨first, rest, rfl, ?_⟩
      rcases List.mem_cons.mp kept with rfl | later
      · exact isFront
      · exact (List.pairwise_cons.mp filtered).1 item later isFront

theorem InFront.append {front : Item → Bool} {former latter : List Item}
    (allFront : ∀ item ∈ former, front item = true) (noFront : ∀ item ∈ latter, front item = false) :
    InFront front (former ++ latter) := by
  apply List.pairwise_append.mpr
  refine ⟨?_, ?_, ?_⟩
  · apply List.pairwise_of_forall_mem_list
    intro earlier earlierMem _ _ _
    exact allFront earlier earlierMem
  · apply List.pairwise_of_forall_mem_list
    intro _ _ later laterMem isFront
    rw [noFront later laterMem] at isFront
    contradiction
  · intro earlier earlierMem _ _ _
    exact allFront earlier earlierMem

theorem InFront.of_keys {Label : Type v} {front : Item → Bool} {keyOf : Item → Label}
    {items others : List Item} (inFront : InFront front items)
    (keys : (others.map keyOf).Sublist (items.map keyOf))
    (respects : ∀ left right, keyOf left = keyOf right → front left = front right) :
    InFront front others := by
  rcases List.sublist_map_iff.mp keys with ⟨chosen, sublist, sameKeys⟩
  have chosenFront : InFront front chosen := List.Pairwise.sublist sublist inFront
  have sameFront : others.map front = chosen.map front := by
    clear chosenFront sublist keys
    induction others generalizing chosen with
    | nil => simpa [eq_comm] using sameKeys
    | cons item rest ih =>
        cases chosen with
        | nil => simp at sameKeys
        | cons first more =>
            rw [List.map_cons, List.map_cons, List.cons.injEq] at sameKeys
            rw [List.map_cons, List.map_cons, respects _ _ sameKeys.1, ih more sameKeys.2]
  have mapped : (chosen.map front).Pairwise fun earlier later => later = true → earlier = true :=
    List.pairwise_map.mpr chosenFront
  rw [← sameFront] at mapped
  exact List.pairwise_map.mp mapped

theorem perm_map_of_perm_keys {Other : Type u} {Value : Type u} {keyOf : Item → Key}
    {otherKeyOf : Other → Key} {valueOf : Item → Value} {otherValueOf : Other → Value}
    {items : List Item} {others : List Other} (nodup : (items.map keyOf).Nodup)
    (keys : (items.map keyOf).Perm (others.map otherKeyOf))
    (agree : ∀ item ∈ items, ∀ other ∈ others, keyOf item = otherKeyOf other →
      valueOf item = otherValueOf other) :
    (items.map valueOf).Perm (others.map otherValueOf) := by
  let lookup (key : Key) : Option Value := (items.find? fun item => keyOf item = key).map valueOf
  have ofItem : ∀ item ∈ items, lookup (keyOf item) = some (valueOf item) := by
    intro item member
    cases found : items.find? fun other => keyOf other = keyOf item with
    | none =>
        have absent := List.find?_eq_none.mp found item member
        simp at absent
    | some first =>
        have sameKey : keyOf first = keyOf item := by simpa using List.find?_some found
        have same := List.inj_on_of_nodup_map nodup (List.mem_of_find?_eq_some found) member sameKey
        simp [lookup, found, same]
  have ofOther : ∀ other ∈ others, lookup (otherKeyOf other) = some (otherValueOf other) := by
    intro other member
    have listed : otherKeyOf other ∈ items.map keyOf :=
      keys.mem_iff.mpr (List.mem_map_of_mem member)
    rcases List.mem_map.mp listed with ⟨item, itemMem, sameKey⟩
    rw [← sameKey, ofItem item itemMem, agree item itemMem other member sameKey]
  have values : items.map valueOf = (items.map keyOf).filterMap lookup := by
    rw [List.filterMap_map, ← List.filterMap_eq_map]
    apply List.filterMap_congr
    intro item member
    exact (ofItem item member).symm
  have otherValues : others.map otherValueOf = (others.map otherKeyOf).filterMap lookup := by
    rw [List.filterMap_map, ← List.filterMap_eq_map]
    apply List.filterMap_congr
    intro other member
    exact (ofOther other member).symm
  rw [values, otherValues]
  exact keys.filterMap lookup

end Ecma
