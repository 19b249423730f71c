import StudentHub.Ecma.Arrays
import StudentHub.Ecma.Number
import StudentHub.Ecma.OrderedMap
import Mathlib.Algebra.Order.BigOperators.Group.Finset

/-!
# Plain objects

An object used as a record of entries lists its array indices first, in ascending
order, and then the other keys as they were added. A tally adds up a measure of the
entries; what it does when an entry is set is what counts and sums of money need.
-/

namespace Ecma

open JsString

universe u

namespace JsValue

def truthy : JsValue → Bool
  | undefined | null | boolean false | number .nan | string [] => false
  | number (.finite found) => found.significand ≠ 0
  | _ => true

def isText (value : JsValue) (text : JsString) : Bool :=
  match value with
  | string found => found = text
  | _ => false

mutual

/-- The text `String(value)`, when it does not depend on code of the value's own. -/
def toText : JsValue → Option JsString
  | undefined => some (js "undefined")
  | null => some (js "null")
  | boolean value => some (if value then js "true" else js "false")
  | number .nan => some (js "NaN")
  | number (.infinity negative) => some (if negative then js "-Infinity" else js "Infinity")
  | number (.finite found) => some found.text
  | string text => some text
  | array items => (joinedTexts items).map fun texts => (js ",").intercalate texts
  | object _ => some (js "[object Object]")
  | other => none

def joinedTexts : List JsValue → Option (List JsString)
  | [] => some []
  | undefined :: rest | null :: rest => (joinedTexts rest).map ([] :: ·)
  | item :: rest => do return (← toText item) :: (← joinedTexts rest)

end

mutual

def jsonCopy : JsValue → JsValue
  | other => undefined
  | number .nan | number (.infinity _) => null
  | array items => array (jsonItems items)
  | object properties => object (jsonProperties properties)
  | value => value

def jsonItems : List JsValue → List JsValue
  | [] => []
  | item :: rest => (match jsonCopy item with
      | undefined => null
      | copy => copy) :: jsonItems rest

def jsonProperties : List (JsString × JsValue) → List (JsString × JsValue)
  | [] => []
  | (name, value) :: rest =>
      match jsonCopy value with
      | undefined => jsonProperties rest
      | copy => (name, copy) :: jsonProperties rest

end

def items? : JsValue → Option (List JsValue)
  | array items => some items
  | _ => none

def isPlainObject : JsValue → Bool
  | object _ => true
  | _ => false

def entries : JsValue → List (JsString × JsValue)
  | object properties => properties
  | _ => []

/-- `Object.hasOwn(value, name)` -/
def hasOwn (value : JsValue) (name : JsString) : Bool := name ∈ value.entries.map Prod.fst

def setProperty (properties : List (JsString × JsValue)) (name : JsString) (value : JsValue) :
    List (JsString × JsValue) :=
  match properties with
  | [] => [(name, value)]
  | (first, old) :: rest =>
      if first = name then (first, value) :: rest else (first, old) :: setProperty rest name value

/-- The object `{ ...base, name: value, ... }`. -/
def assign (base : JsValue) (changes : List (JsString × JsValue)) : JsValue :=
  object (changes.foldl (fun properties change => setProperty properties change.1 change.2)
    base.entries)

/-- The object `{ ...base, ...changes }` without one entry, `delete object[name]`. -/
def without (base : JsValue) (name : JsString) : JsValue :=
  object (base.entries.filter fun property => property.1 ≠ name)

/-- The operator `===`; two objects are different ones. -/
def strictEq : JsValue → JsValue → Bool
  | undefined, undefined => true
  | null, null => true
  | boolean left, boolean right => left = right
  | number (.infinity left), number (.infinity right) => left = right
  | number (.finite left), number (.finite right) => left.compare right = 0
  | string left, string right => left = right
  | _, _ => false

/-- The comparison of `includes` and of a set, for which `NaN` is itself. -/
def sameValueZero : JsValue → JsValue → Bool
  | number .nan, number .nan => true
  | left, right => left.strictEq right

mutual

/-- `isDeepStrictEqual(left, right)`, which tells the zeros apart. Two objects have the same
names, in any order. -/
def isDeepStrictEqual : JsValue → JsValue → Bool
  | undefined, undefined => true
  | null, null => true
  | boolean left, boolean right => left = right
  | number left, number right => left = right
  | string left, string right => left = right
  | array left, array right => sameItems left right
  | object left, object right =>
      (right.all fun entry => (object left).hasOwn entry.1) && sameEntries left (object right)
  | _, _ => false

def sameItems : List JsValue → List JsValue → Bool
  | [], [] => true
  | left :: lefts, right :: rights => isDeepStrictEqual left right && sameItems lefts rights
  | _, _ => false

def sameEntries : List (JsString × JsValue) → JsValue → Bool
  | [], _ => true
  | (name, value) :: rest, found =>
      found.hasOwn name && isDeepStrictEqual value (found.get name) && sameEntries rest found

end

/-- What a loop over a value goes through: the items of an array or the code points of a
string. -/
def iterated : JsValue → Option (List JsValue)
  | array items => some items
  | string text => some (text.characters.map string)
  | _ => none

def isDefined : JsValue → Bool
  | undefined => false
  | _ => true

/-- The operator `??`. -/
def orElse (value default : JsValue) : JsValue :=
  match value with
  | undefined | null => default
  | present => present

@[simp]
theorem isDefined_eq_false {value : JsValue} : value.isDefined = false ↔ value = undefined := by
  cases value <;> simp [isDefined]

theorem isText_iff {value : JsValue} {text : JsString} :
    value.isText text = true ↔ value = .string text := by
  cases value <;> simp [isText]

theorem eq_string_of_strictEq {value : JsValue} {text : JsString}
    (same : value.strictEq (.string text) = true) : value = .string text := by
  cases value with
  | string found => simpa [strictEq] using same
  | _ => simp [strictEq] at same

theorem get_cons (first name : JsString) (value : JsValue) (rest : List (JsString × JsValue)) :
    (object ((first, value) :: rest)).get name =
      if first = name then value else (object rest).get name := by
  simp only [get, List.find?_cons]
  by_cases here : first = name
  · simp [here]
  · simp [here]

theorem get_eq_undefined {properties : List (JsString × JsValue)} {name : JsString}
    (absent : name ∉ properties.map Prod.fst) : (object properties).get name = undefined := by
  induction properties with
  | nil => rfl
  | cons property rest ih =>
    rw [List.map_cons, List.mem_cons, not_or] at absent
    rw [get_cons, if_neg (Ne.symm absent.1)]
    exact ih absent.2

theorem get_setProperty (properties : List (JsString × JsValue)) (name other : JsString)
    (value : JsValue) : (object (setProperty properties name value)).get other =
      if name = other then value else (object properties).get other := by
  induction properties with
  | nil => rw [setProperty, get_cons]
  | cons property rest ih =>
    rw [setProperty]
    split
    case isTrue same =>
      rw [get_cons, get_cons, same]
      split_ifs <;> rfl
    case isFalse different =>
      rw [get_cons, get_cons, ih]
      split_ifs with here there <;> first | rfl | exact absurd (here.trans there.symm) different

theorem hasOwn_iff {properties : List (JsString × JsValue)} {name : JsString} :
    (object properties).hasOwn name = true ↔ ∃ entry ∈ properties, entry.1 = name := by
  rw [hasOwn, decide_eq_true_eq, entries, List.mem_map]

theorem exists_entry_get {properties : List (JsString × JsValue)} {name : JsString}
    (present : (object properties).hasOwn name = true) :
    (name, (object properties).get name) ∈ properties := by
  rcases hasOwn_iff.mp present with ⟨entry, entryMem, isName⟩
  have found : (properties.find? fun property => property.1 = name).isSome := by
    simp only [List.find?_isSome, decide_eq_true_eq]
    exact ⟨entry, entryMem, isName⟩
  rcases Option.isSome_iff_exists.mp found with ⟨first, isFirst⟩
  have named : first.1 = name := by simpa using List.find?_some isFirst
  simp only [get, isFirst]
  rw [← named]
  exact List.mem_of_find?_eq_some isFirst

theorem get_of_not_hasOwn {value : JsValue} {name : JsString} (absent : value.hasOwn name = false) :
    value.get name = undefined := by
  cases value with
  | object properties =>
      apply get_eq_undefined
      rwa [hasOwn, decide_eq_false_iff_not] at absent
  | _ => rfl

theorem sameEntries_iff {properties : List (JsString × JsValue)} {value : JsValue} :
    sameEntries properties value = true ↔ ∀ entry ∈ properties,
      value.hasOwn entry.1 = true ∧ entry.2.isDeepStrictEqual (value.get entry.1) = true := by
  induction properties with
  | nil => simp [sameEntries]
  | cons entry rest ih =>
    simp only [sameEntries, Bool.and_eq_true, ih, List.forall_mem_cons]

theorem hasOwn_eq_of_isDeepStrictEqual {left right : JsValue}
    (same : left.isDeepStrictEqual right = true) (name : JsString) :
    left.hasOwn name = right.hasOwn name := by
  cases left with
  | object lefts =>
      cases right with
      | object rights =>
          simp only [isDeepStrictEqual, Bool.and_eq_true, List.all_eq_true, sameEntries_iff] at same
          rw [Bool.eq_iff_iff]
          refine ⟨fun present => ?_, fun present => ?_⟩
          · exact (same.2 _ (exists_entry_get present)).1
          · exact same.1 _ (exists_entry_get present)
      | _ => simp [isDeepStrictEqual] at same
  | _ => cases right <;> simp [isDeepStrictEqual] at same <;> rfl

theorem get_of_isDeepStrictEqual {left right : JsValue}
    (same : left.isDeepStrictEqual right = true) (name : JsString) :
    (left.get name).isDeepStrictEqual (right.get name) = true := by
  have names := hasOwn_eq_of_isDeepStrictEqual same name
  by_cases present : left.hasOwn name = true
  · cases left with
    | object lefts =>
        cases right with
        | object rights =>
            simp only [isDeepStrictEqual, Bool.and_eq_true, sameEntries_iff] at same
            exact (same.2 _ (exists_entry_get present)).2
        | _ => simp [isDeepStrictEqual] at same
    | _ => simp [hasOwn, entries] at present
  · rw [Bool.not_eq_true] at present
    rw [get_of_not_hasOwn present, get_of_not_hasOwn (names ▸ present)]
    rfl

theorem eq_string_of_isDeepStrictEqual {text : JsString} {value : JsValue}
    (same : (string text).isDeepStrictEqual value = true) : value = string text := by
  cases value with
  | string found =>
      rw [isDeepStrictEqual, decide_eq_true_eq] at same
      rw [same]
  | _ => simp [isDeepStrictEqual] at same

theorem get_assign {changes : List (JsString × JsValue)} {name : JsString}
    (unchanged : name ∉ changes.map Prod.fst) (base : JsValue) :
    (base.assign changes).get name = base.get name := by
  have general : ∀ properties : List (JsString × JsValue),
      (object (changes.foldl (fun properties change =>
        setProperty properties change.1 change.2) properties)).get name =
          (object properties).get name := by
    induction changes with
    | nil => intro properties; rfl
    | cons change rest ih =>
      intro properties
      rw [List.map_cons, List.mem_cons, not_or] at unchanged
      rw [List.foldl_cons, ih unchanged.2, get_setProperty, if_neg (Ne.symm unchanged.1)]
  rw [assign, general]
  cases base <;> rfl

theorem get_assign_concat (base : JsValue) (changes : List (JsString × JsValue)) (name : JsString)
    (value : JsValue) : (base.assign (changes ++ [(name, value)])).get name = value := by
  rw [assign, List.foldl_append, List.foldl_cons, List.foldl_nil, get_setProperty, if_pos rfl]

theorem get_without (base : JsValue) {name other : JsString} (different : name ≠ other) :
    (base.without other).get name = base.get name := by
  have general : ∀ properties : List (JsString × JsValue),
      (object (properties.filter fun property => property.1 ≠ other)).get name =
        (object properties).get name := by
    intro properties
    induction properties with
    | nil => rfl
    | cons property rest ih =>
      by_cases left : property.1 = other
      · rw [List.filter_cons_of_neg (by simpa using left), ih, get_cons,
          if_neg (by rw [left]; exact Ne.symm different)]
      · rw [List.filter_cons_of_pos (by simpa using left), get_cons, get_cons, ih]
  rw [without, general]
  cases base <;> rfl

theorem get_jsonCopy {value found : JsValue} {name : JsString} (holds : value.get name = found)
    (isJson : found.jsonCopy ≠ undefined) : value.jsonCopy.get name = found.jsonCopy := by
  cases value with
  | object properties =>
    rw [jsonCopy]
    induction properties with
    | nil =>
      subst holds
      exact absurd rfl isJson
    | cons property rest ih =>
      rcases property with ⟨first, value⟩
      rw [get_cons] at holds
      rw [jsonProperties]
      by_cases here : first = name
      · rw [if_pos here] at holds
        subst holds
        split
        case h_1 missing => exact absurd missing isJson
        case h_2 => rw [get_cons, if_pos here]
      · rw [if_neg here] at holds
        split
        case h_1 => exact ih holds
        case h_2 =>
          rw [get_cons, if_neg here]
          exact ih holds
  | _ =>
    subst holds
    exact absurd rfl isJson

theorem get_jsonCopy_of_string {value : JsValue} {name text : JsString}
    (holds : value.get name = string text) : value.jsonCopy.get name = string text := by
  have copy : (string text).jsonCopy = string text := by simp [jsonCopy]
  rw [get_jsonCopy holds (by simp [copy]), copy]

mutual

theorem jsonCopy_jsonCopy : ∀ value : JsValue, value.jsonCopy.jsonCopy = value.jsonCopy
  | undefined => rfl
  | null => rfl
  | boolean _ => rfl
  | number .nan => rfl
  | number (.infinity _) => rfl
  | number (.finite _) => rfl
  | string _ => rfl
  | array items => by
    rw [jsonCopy, jsonCopy, jsonItems_jsonItems items]
  | object properties => by
    rw [jsonCopy, jsonCopy, jsonProperties_jsonProperties properties]
  | other => rfl

theorem jsonItems_jsonItems : ∀ items : List JsValue, jsonItems (jsonItems items) = jsonItems items
  | [] => rfl
  | item :: rest => by
    rw [jsonItems, jsonItems, jsonItems_jsonItems rest]
    congr 1
    have again := jsonCopy_jsonCopy item
    cases copied : item.jsonCopy with
    | undefined => rfl
    | _ =>
      rw [copied] at again
      simp only [again]

theorem jsonProperties_jsonProperties : ∀ properties : List (JsString × JsValue),
    jsonProperties (jsonProperties properties) = jsonProperties properties
  | [] => rfl
  | (name, value) :: rest => by
    have again := jsonCopy_jsonCopy value
    rw [jsonProperties]
    cases copied : value.jsonCopy with
    | undefined => exact jsonProperties_jsonProperties rest
    | _ =>
      rw [copied] at again
      simp only [jsonProperties, again, jsonProperties_jsonProperties rest]

end

theorem jsonCopy_get_jsonCopy (value : JsValue) (name : JsString) :
    (value.jsonCopy.get name).jsonCopy = value.jsonCopy.get name := by
  cases value with
  | object properties =>
    rw [jsonCopy]
    induction properties with
    | nil => rfl
    | cons property rest ih =>
      rcases property with ⟨first, value⟩
      rw [jsonProperties]
      split
      case h_1 => exact ih
      case h_2 =>
        rw [get_cons]
        split
        · exact jsonCopy_jsonCopy value
        · exact ih
  | number value => cases value <;> rfl
  | _ => rfl

end JsValue

def isArrayIndex (key : JsString) : Bool :=
  match key with
  | [] => false
  | first :: rest =>
      (first :: rest).all isDigit && (first ≠ 48 || rest = []) && numeral key < 2 ^ 32 - 1

namespace OrderedMap

variable {Value : Type u}

/-- The entries as `Object.entries` lists them. -/
def ownEntries (map : OrderedMap JsString Value) : List (JsString × Value) :=
  (map.entries.filter fun entry => isArrayIndex entry.1).insertionSort
      (fun left right => numeral left.1 ≤ numeral right.1) ++
    map.entries.filter fun entry => !isArrayIndex entry.1

/-- The values as `Object.values` lists them. -/
def ownValues (map : OrderedMap JsString Value) : List Value := map.ownEntries.map Prod.snd

theorem ownEntries_perm (map : OrderedMap JsString Value) : map.ownEntries.Perm map.entries := by
  have sorted := (List.perm_insertionSort (fun left right : JsString × Value =>
    numeral left.1 ≤ numeral right.1) (map.entries.filter fun entry => isArrayIndex entry.1))
  exact (sorted.append_right _).trans (List.filter_append_perm _ _)

theorem ownValues_perm (map : OrderedMap JsString Value) : map.ownValues.Perm map.values :=
  map.ownEntries_perm.map _

theorem mem_ownValues {map : OrderedMap JsString Value} {value : Value} :
    value ∈ map.ownValues ↔ ∃ key, map.get? key = some value := by
  rw [map.ownValues_perm.mem_iff, mem_values_iff]

section Tally

variable {Key : Type u} [DecidableEq Key] {Value : Type u}

def tally (map : OrderedMap Key Value) (measure : Value → ℕ) : ℕ :=
  (map.values.map measure).sum

omit [DecidableEq Key] in
@[simp]
theorem tally_empty (measure : Value → ℕ) : (empty : OrderedMap Key Value).tally measure = 0 := rfl

theorem tally_eq_sum (map : OrderedMap Key Value) (measure : Value → ℕ) :
    map.tally measure = ∑ key ∈ map.keys.toFinset, ((map.get? key).map measure).getD 0 := by
  rw [List.sum_toFinset _ (show map.keys.Nodup from map.nodupKeys), tally, values, keys,
    List.map_map, List.map_map]
  congr 1
  apply List.map_congr_left
  intro entry member
  rw [Function.comp_apply, Function.comp_apply, mem_entries_iff.mp member]
  rfl

/-- A map tallies no more than another when each of its entries counts no more than the entry
of the same key in the other. -/
theorem tally_le_of_get? {map other : OrderedMap Key Value} {measure otherMeasure : Value → ℕ}
    (below : ∀ key value, map.get? key = some value →
      measure value ≤ ((other.get? key).map otherMeasure).getD 0) :
    map.tally measure ≤ other.tally otherMeasure := by
  rw [tally_eq_sum, tally_eq_sum]
  have pointwise : ∀ key, ((map.get? key).map measure).getD 0 ≤
      ((other.get? key).map otherMeasure).getD 0 := by
    intro key
    cases found : map.get? key with
    | none => exact Nat.zero_le _
    | some value => exact below key value found
  refine (Finset.sum_le_sum fun key _ => pointwise key).trans (Finset.sum_le_sum_of_ne_zero ?_)
  intro key _ counts
  rw [List.mem_toFinset, mem_keys_iff]
  cases found : other.get? key with
  | none => simp [found] at counts
  | some value => rfl

theorem tally_congr {map : OrderedMap Key Value} {measure other : Value → ℕ}
    (same : ∀ key value, map.get? key = some value → measure value = other value) :
    map.tally measure = map.tally other := by
  apply le_antisymm
  · apply tally_le_of_get?
    intro key value found
    simp [found, same key value found]
  · apply tally_le_of_get?
    intro key value found
    simp [found, same key value found]

omit [DecidableEq Key] in
theorem tally_mapValues (map : OrderedMap Key Value) (change : Value → Value)
    (measure : Value → ℕ) :
    (map.mapValues change).tally measure = map.tally fun value => measure (change value) := by
  simp only [tally, values, mapValues, List.map_map]
  rfl

theorem tally_set_new {map : OrderedMap Key Value} {key : Key} (new : map.get? key = none)
    (value : Value) (measure : Value → ℕ) :
    (map.set key value).tally measure = map.tally measure + measure value := by
  rw [get?_eq_none_iff] at new
  simp only [tally, values, set, dif_neg new, List.map_append, List.sum_append]
  rfl

theorem tally_set_present {map : OrderedMap Key Value} {key : Key} {before : Value}
    (present : map.get? key = some before) (value : Value) (measure : Value → ℕ) :
    (map.set key value).tally measure + measure before = map.tally measure + measure value := by
  have isKey : key ∈ map.keys := mem_keys_iff.mpr (by rw [present]; rfl)
  have entryMem := mem_entries_iff.mpr present
  simp only [tally, values, set, dif_pos isKey, List.map_map]
  have general : ∀ entries : List (Key × Value), (entries.map Prod.fst).Nodup →
      (key, before) ∈ entries →
      (entries.map ((measure ∘ Prod.snd) ∘ fun entry =>
          if entry.1 = key then (key, value) else entry)).sum + measure before =
        (entries.map (measure ∘ Prod.snd)).sum + measure value := by
    intro entries nodup member
    induction entries with
    | nil => simp at member
    | cons entry rest ih =>
      rw [List.map_cons, List.nodup_cons] at nodup
      rcases List.mem_cons.mp member with rfl | later
      · have others : rest.map ((measure ∘ Prod.snd) ∘ fun entry =>
            if entry.1 = key then (key, value) else entry) = rest.map (measure ∘ Prod.snd) := by
          apply List.map_congr_left
          intro other otherMem
          have different : other.1 ≠ key := by
            intro same
            exact nodup.1 (List.mem_map.mpr ⟨other, otherMem, same⟩)
          simp [different]
        rw [List.map_cons, List.map_cons, List.sum_cons, List.sum_cons, others]
        simp only [Function.comp_apply, if_true]
        omega
      · have different : entry.1 ≠ key := by
          intro same
          exact nodup.1 (List.mem_map.mpr ⟨(key, before), later, same.symm⟩)
        have shorter := ih nodup.2 later
        rw [List.map_cons, List.map_cons, List.sum_cons, List.sum_cons]
        simp only [Function.comp_apply, if_neg different] at *
        omega
  exact general map.entries map.nodupKeys entryMem

end Tally

end OrderedMap

end Ecma
