import Mathlib.Data.List.Nodup
import Mathlib.Data.List.Basic

/-!
# Insertion-ordered maps

`OrderedMap` is the `Map` of ECMAScript: a key occurs once, and iteration visits
the entries in the order in which their keys were first set. Setting a key that
is present replaces its value in place. That a key occurs once is part of the
structure, so every map built from the operations here has it.
-/

namespace Ecma

universe u v

@[ext]
structure OrderedMap (Key : Type u) (Value : Type v) where
  entries : List (Key × Value)
  nodupKeys : (entries.map Prod.fst).Nodup

namespace OrderedMap

variable {Key : Type u} {Value : Type v}

def empty : OrderedMap Key Value := ⟨[], List.nodup_nil⟩

instance : Inhabited (OrderedMap Key Value) := ⟨empty⟩

instance [DecidableEq Key] [DecidableEq Value] : DecidableEq (OrderedMap Key Value) :=
  fun left right => decidable_of_iff (left.entries = right.entries) OrderedMap.ext_iff.symm

def keys (map : OrderedMap Key Value) : List Key := map.entries.map Prod.fst

/-- Values in insertion order, `map.values()`. -/
def values (map : OrderedMap Key Value) : List Value := map.entries.map Prod.snd

def size (map : OrderedMap Key Value) : ℕ := map.entries.length

/-- Keep the entries that satisfy a predicate: deletion while iterating. -/
def filter (map : OrderedMap Key Value) (keep : Key → Value → Bool) : OrderedMap Key Value where
  entries := map.entries.filter fun entry => keep entry.1 entry.2
  nodupKeys := map.nodupKeys.sublist (List.filter_sublist.map Prod.fst)

def mapValues (map : OrderedMap Key Value) (change : Value → Value) : OrderedMap Key Value where
  entries := map.entries.map fun entry => (entry.1, change entry.2)
  nodupKeys := by
    rw [List.map_map]
    exact map.nodupKeys

theorem filter_eq_self_of_size {map : OrderedMap Key Value} {keep : Key → Value → Bool}
    (same : (map.filter keep).size = map.size) : map.filter keep = map :=
  OrderedMap.ext (List.filter_eq_self.mpr (List.length_filter_eq_length_iff.mp same))

variable [DecidableEq Key]

def get? (map : OrderedMap Key Value) (key : Key) : Option Value :=
  (map.entries.find? fun entry => entry.1 = key).map Prod.snd

def has (map : OrderedMap Key Value) (key : Key) : Bool := (map.get? key).isSome

def delete (map : OrderedMap Key Value) (key : Key) : OrderedMap Key Value :=
  map.filter fun other _ => other ≠ key

theorem mem_entries_iff {map : OrderedMap Key Value} {key : Key} {value : Value} :
    (key, value) ∈ map.entries ↔ map.get? key = some value := by
  simp only [get?, Option.map_eq_some_iff]
  constructor
  · intro member
    cases found : map.entries.find? fun entry => entry.1 = key with
    | none =>
        have absent := List.find?_eq_none.mp found (key, value) member
        simp at absent
    | some entry =>
        refine ⟨entry, rfl, ?_⟩
        have sameKey : entry.1 = key := by simpa using List.find?_some found
        have sameEntry : entry = (key, value) :=
          List.inj_on_of_nodup_map map.nodupKeys (List.mem_of_find?_eq_some found) member sameKey
        rw [sameEntry]
  · rintro ⟨entry, found, rfl⟩
    have sameKey : entry.1 = key := by simpa using List.find?_some found
    rw [← sameKey]
    exact List.mem_of_find?_eq_some found

theorem mem_keys_iff {map : OrderedMap Key Value} {key : Key} :
    key ∈ map.keys ↔ (map.get? key).isSome := by
  simp only [keys, List.mem_map, Prod.exists, exists_and_right, exists_eq_right,
    mem_entries_iff, Option.isSome_iff_exists]

theorem get?_eq_none_iff {map : OrderedMap Key Value} {key : Key} :
    map.get? key = none ↔ key ∉ map.keys := by
  rw [mem_keys_iff, Bool.not_eq_true, Option.isSome_eq_false_iff, Option.isNone_iff_eq_none]

theorem mem_values_iff {map : OrderedMap Key Value} {value : Value} :
    value ∈ map.values ↔ ∃ key, map.get? key = some value := by
  simp only [values, List.mem_map, Prod.exists, exists_eq_right, mem_entries_iff]

/-- Update `map.set(key, value)`: in place for a present key, at the end for a new one. -/
def set (map : OrderedMap Key Value) (key : Key) (value : Value) : OrderedMap Key Value :=
  if present : key ∈ map.keys then
    { entries := map.entries.map fun entry => if entry.1 = key then (key, value) else entry
      nodupKeys := by
        have sameKeys : (map.entries.map fun entry =>
            if entry.1 = key then (key, value) else entry).map Prod.fst = map.keys := by
          simp only [keys, List.map_map]
          apply List.map_congr_left
          intro entry _
          by_cases same : entry.1 = key <;> simp [same]
        rw [sameKeys]
        exact map.nodupKeys }
  else
    { entries := map.entries ++ [(key, value)]
      nodupKeys := by
        rw [List.map_append, List.nodup_append]
        refine ⟨map.nodupKeys, by simp, ?_⟩
        rintro other otherMem _ keyMem rfl
        simp only [List.map_cons, List.map_nil, List.mem_singleton] at keyMem
        exact present (keyMem ▸ otherMem) }

/-- The constructor `new Map(pairs)`: of two pairs with one key the later one stays. -/
def ofList (pairs : List (Key × Value)) : OrderedMap Key Value :=
  pairs.foldl (fun map pair => map.set pair.1 pair.2) empty

@[simp]
theorem get?_empty (key : Key) : (empty : OrderedMap Key Value).get? key = none := rfl

theorem mem_entries_set {map : OrderedMap Key Value} {key other : Key} {value found : Value} :
    (other, found) ∈ (map.set key value).entries ↔
      if other = key then found = value else (other, found) ∈ map.entries := by
  unfold set
  split
  case isTrue present =>
    simp only [List.mem_map]
    split
    case isTrue same =>
      subst same
      constructor
      · rintro ⟨entry, -, moved⟩
        by_cases sameKey : entry.1 = other
        · simpa [sameKey, eq_comm] using moved
        · rw [if_neg sameKey] at moved
          exact absurd (congrArg Prod.fst moved) sameKey
      · rintro rfl
        obtain ⟨entry, entryMem, rfl⟩ := List.mem_map.mp present
        exact ⟨entry, entryMem, by simp⟩
    case isFalse different =>
      constructor
      · rintro ⟨entry, entryMem, moved⟩
        by_cases sameKey : entry.1 = key
        · rw [if_pos sameKey] at moved
          exact absurd (congrArg Prod.fst moved).symm different
        · rw [if_neg sameKey] at moved
          rwa [← moved]
      · intro entryMem
        exact ⟨(other, found), entryMem, by simp [different]⟩
  case isFalse absent =>
    simp only [List.mem_append, List.mem_singleton, Prod.mk.injEq]
    split
    case isTrue same =>
      subst same
      have notOld : (other, found) ∉ map.entries := fun old =>
        absent (List.mem_map.mpr ⟨_, old, rfl⟩)
      simp [notOld]
    case isFalse different => simp [different]

theorem get?_set (map : OrderedMap Key Value) (key other : Key) (value : Value) :
    (map.set key value).get? other = if other = key then some value else map.get? other := by
  apply Option.ext
  intro found
  rw [← mem_entries_iff, mem_entries_set]
  split
  · simp [eq_comm]
  · rw [mem_entries_iff]

@[simp]
theorem get?_set_self (map : OrderedMap Key Value) (key : Key) (value : Value) :
    (map.set key value).get? key = some value := by
  rw [get?_set, if_pos rfl]

theorem get?_set_of_ne (map : OrderedMap Key Value) {key other : Key} (value : Value)
    (different : other ≠ key) : (map.set key value).get? other = map.get? other := by
  rw [get?_set, if_neg different]

theorem get?_filter (map : OrderedMap Key Value) (keep : Key → Value → Bool) (key : Key) :
    (map.filter keep).get? key = (map.get? key).filter (keep key) := by
  apply Option.ext
  intro found
  rw [← mem_entries_iff, Option.filter_eq_some_iff, ← mem_entries_iff]
  simp [filter]

theorem get?_mapValues (map : OrderedMap Key Value) (change : Value → Value) (key : Key) :
    (map.mapValues change).get? key = (map.get? key).map change := by
  simp only [get?, mapValues, List.find?_map, Option.map_map]
  rfl

theorem get?_delete (map : OrderedMap Key Value) (key other : Key) :
    (map.delete key).get? other = if other = key then none else map.get? other := by
  rw [delete, get?_filter]
  by_cases same : other = key
  · simp [same]
  · cases map.get? other <;> simp [same, Option.filter]

theorem delete_set {map : OrderedMap Key Value} {key : Key} (absent : key ∉ map.keys)
    (value : Value) : (map.set key value).delete key = map := by
  apply OrderedMap.ext
  have kept : map.entries.filter (fun entry => entry.1 ≠ key) = map.entries := by
    rw [List.filter_eq_self]
    intro entry entryMem
    rw [decide_eq_true_eq]
    rintro rfl
    exact absent (List.mem_map.mpr ⟨entry, entryMem, rfl⟩)
  rw [set, dif_neg absent]
  simp only [delete, filter, List.filter_append, kept]
  simp

theorem get?_foldl_set (pairs : List (Key × Value)) (map : OrderedMap Key Value) (key : Key) :
    (pairs.foldl (fun built pair => built.set pair.1 pair.2) map).get? key =
      ((pairs.reverse.find? fun pair => pair.1 = key).map Prod.snd).or (map.get? key) := by
  induction pairs generalizing map with
  | nil => simp
  | cons pair rest ih =>
      rw [List.foldl_cons, ih, get?_set, List.reverse_cons, List.find?_append]
      cases found : rest.reverse.find? fun pair => pair.1 = key with
      | some later => simp
      | none =>
          by_cases same : key = pair.1
          · simp [same]
          · simp [same, Ne.symm same]

theorem get?_ofList (pairs : List (Key × Value)) (key : Key) :
    (ofList pairs).get? key = (pairs.reverse.find? fun pair => pair.1 = key).map Prod.snd := by
  rw [ofList, get?_foldl_set]
  simp

theorem mem_of_get?_ofList {pairs : List (Key × Value)} {key : Key} {value : Value}
    (found : (ofList pairs).get? key = some value) : (key, value) ∈ pairs := by
  rw [get?_ofList, Option.map_eq_some_iff] at found
  obtain ⟨pair, found, rfl⟩ := found
  have sameKey : pair.1 = key := by simpa using List.find?_some found
  rw [← sameKey]
  exact List.mem_reverse.mp (List.mem_of_find?_eq_some found)

theorem get?_ofList_iff {pairs : List (Key × Value)} (distinct : (pairs.map Prod.fst).Nodup)
    {key : Key} {value : Value} :
    (ofList pairs).get? key = some value ↔ (key, value) ∈ pairs := by
  have listed := @mem_entries_iff _ _ _ ⟨pairs.reverse, by simpa using distinct⟩ key value
  rw [get?_ofList]
  simpa [get?] using listed.symm

def overlay (map changes : OrderedMap Key Value) : OrderedMap Key Value :=
  changes.entries.foldl (fun built pair => built.set pair.1 pair.2) map

theorem get?_overlay (map changes : OrderedMap Key Value) (key : Key) :
    (map.overlay changes).get? key = (changes.get? key).or (map.get? key) := by
  have own : (changes.entries.reverse.find? fun pair => pair.1 = key).map Prod.snd =
      changes.get? key := by
    apply Option.ext
    intro value
    rw [← get?_ofList, get?_ofList_iff changes.nodupKeys, mem_entries_iff]
  rw [overlay, get?_foldl_set, own]

theorem isSome_get?_ofList {pairs : List (Key × Value)} {key : Key} :
    ((ofList pairs).get? key).isSome ↔ key ∈ pairs.map Prod.fst := by
  rw [get?_ofList, Option.isSome_map, List.find?_isSome]
  simp

theorem map_values_eq_keys {map : OrderedMap Key Value} {keyOf : Value → Key}
    (keyed : ∀ key value, map.get? key = some value → keyOf value = key) :
    map.values.map keyOf = map.keys := by
  simp only [values, keys, List.map_map]
  apply List.map_congr_left
  rintro ⟨key, value⟩ entryMem
  exact keyed key value (mem_entries_iff.mp entryMem)

theorem nodup_map_values {map : OrderedMap Key Value} {keyOf : Value → Key}
    (keyed : ∀ key value, map.get? key = some value → keyOf value = key) :
    (map.values.map keyOf).Nodup := by
  rw [map_values_eq_keys keyed]
  exact map.nodupKeys

theorem mem_values_keyed {map : OrderedMap Key Value} {keyOf : Value → Key}
    (keyed : ∀ key value, map.get? key = some value → keyOf value = key) {value : Value} :
    value ∈ map.values ↔ map.get? (keyOf value) = some value := by
  rw [mem_values_iff]
  constructor
  · rintro ⟨key, found⟩
    rw [keyed key value found]
    exact found
  · intro found
    exact ⟨_, found⟩

theorem filter_key_eq_toList {Item : Type v} {keyOf : Item → Key} {items : List Item}
    (nodup : (items.map keyOf).Nodup) (key : Key) :
    (items.filter fun item => keyOf item = key) =
      (items.find? fun item => keyOf item = key).toList := by
  induction items with
  | nil => rfl
  | cons item rest ih =>
      rw [List.map_cons, List.nodup_cons] at nodup
      rw [List.filter_cons, List.find?_cons]
      by_cases same : keyOf item = key
      · have noMore : (rest.filter fun other => keyOf other = key) = [] := by
          simp only [List.filter_eq_nil_iff, decide_eq_true_eq]
          intro other otherMem otherSame
          exact nodup.1 (List.mem_map.mpr ⟨other, otherMem, otherSame.trans same.symm⟩)
        simp [same, noMore]
      · simp [same, ih nodup.2]

theorem filter_values_keyed {map : OrderedMap Key Value} {keyOf : Value → Key}
    (keyed : ∀ key value, map.get? key = some value → keyOf value = key) (key : Key) :
    (map.values.filter fun value => keyOf value = key) = (map.get? key).toList := by
  rw [filter_key_eq_toList (nodup_map_values keyed)]
  apply congrArg
  apply Option.ext
  intro value
  constructor
  · intro found
    have sameKey : keyOf value = key := by simpa using List.find?_some found
    have member := (mem_values_keyed keyed).mp (List.mem_of_find?_eq_some found)
    rwa [sameKey] at member
  · intro found
    have member : value ∈ map.values := mem_values_iff.mpr ⟨key, found⟩
    cases first : map.values.find? fun value => keyOf value = key with
    | none =>
        have absent := List.find?_eq_none.mp first value member
        simp [keyed key value found] at absent
    | some other =>
        have sameKey : keyOf other = key := by simpa using List.find?_some first
        have otherFound := (mem_values_keyed keyed).mp (List.mem_of_find?_eq_some first)
        rw [sameKey, found] at otherFound
        exact otherFound.symm

theorem get?_foldl_set_const (keys : List Key) (map : OrderedMap Key Value) (value : Value)
    (key : Key) :
    (keys.foldl (fun built added => built.set added value) map).get? key =
      if key ∈ keys then some value else map.get? key := by
  induction keys generalizing map with
  | nil => simp
  | cons added rest ih =>
      rw [List.foldl_cons, ih, get?_set]
      by_cases later : key ∈ rest
      · simp [later]
      · by_cases same : key = added <;> simp [later, same]

theorem countP_entries_congr {map other : OrderedMap Key Value} {counted : Key × Value → Bool}
    (same : ∀ key value, counted (key, value) = true →
      (map.get? key = some value ↔ other.get? key = some value)) :
    map.entries.countP counted = other.entries.countP counted := by
  rw [List.countP_eq_length_filter, List.countP_eq_length_filter]
  apply List.Perm.length_eq
  rw [List.perm_ext_iff_of_nodup (map.nodupKeys.of_map.filter _) (other.nodupKeys.of_map.filter _)]
  rintro ⟨key, value⟩
  rw [List.mem_filter, List.mem_filter, mem_entries_iff, mem_entries_iff]
  exact and_congr_left fun isCounted => same key value isCounted

theorem countP_entries {map : OrderedMap Key Value} {key : Key} {value : Value}
    (found : map.get? key = some value) (counted : Key × Value → Bool) :
    map.entries.countP counted =
      (map.delete key).entries.countP counted + if counted (key, value) then 1 else 0 := by
  have absent : (key, value) ∉ (map.delete key).entries := by
    simp [mem_entries_iff, get?_delete]
  have perm : map.entries.Perm ((key, value) :: (map.delete key).entries) := by
    rw [List.perm_ext_iff_of_nodup map.nodupKeys.of_map
      (List.nodup_cons.mpr ⟨absent, (map.delete key).nodupKeys.of_map⟩)]
    rintro ⟨other, held⟩
    rw [List.mem_cons, mem_entries_iff, mem_entries_iff, get?_delete, Prod.mk.injEq]
    split_ifs with same
    · rw [same, found]
      simp [eq_comm]
    · simp [same]
  rw [perm.countP_eq, List.countP_cons]

theorem countP_entries_set (map : OrderedMap Key Value) (key : Key) (value : Value)
    (counted : Key × Value → Bool) :
    (map.set key value).entries.countP counted =
      (map.delete key).entries.countP counted + if counted (key, value) then 1 else 0 := by
  rw [countP_entries (get?_set_self map key value)]
  congr 1
  apply countP_entries_congr
  intro other held _
  rw [get?_delete, get?_delete, get?_set]
  split_ifs <;> rfl

theorem countP_entries_of_absent {map : OrderedMap Key Value} {key : Key}
    (absent : map.get? key = none) (counted : Key × Value → Bool) :
    map.entries.countP counted = (map.delete key).entries.countP counted := by
  apply countP_entries_congr
  intro other held _
  rw [get?_delete]
  split_ifs with same
  · simp [same, absent]
  · rfl

end OrderedMap

end Ecma
