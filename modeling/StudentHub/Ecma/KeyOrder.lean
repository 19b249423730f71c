import StudentHub.Ecma.JsonParse

/-!
# Values up to the order of their keys

Values that differ in the order of keys alone have one canonical text. What is read back from
the canonical text of a value has the members of the value, so that values of one canonical
text differ in nothing else.
-/

namespace Ecma.Json

open JsString

universe u v

mutual

def IsJson : JsValue → Prop
  | .null | .boolean _ | .string _ => True
  | .number (.finite _) => True
  | .number _ => False
  | .array items => AreJson items
  | .object properties => (properties.map Prod.fst).Nodup ∧ AreJsonMembers properties
  | .undefined | .other => False

def AreJson : List JsValue → Prop
  | [] => True
  | item :: rest => IsJson item ∧ AreJson rest

def AreJsonMembers : List (JsString × JsValue) → Prop
  | [] => True
  | (_, value) :: rest => IsJson value ∧ AreJsonMembers rest

end

mutual

/-- The values are equal up to the order of the keys at every depth; negative zero is zero. -/
def Alike : JsValue → JsValue → Prop
  | .null, .null => True
  | .boolean left, .boolean right => left = right
  | .number (.finite left), .number (.finite right) => left.unsigned = right.unsigned
  | .string left, .string right => left = right
  | .array left, .array right => AlikeItems left right
  | .object left, .object right =>
      ∃ reordered : List (JsString × JsValue), reordered.Perm right ∧ AlikeMembers left reordered
  | _, _ => False

def AlikeItems : List JsValue → List JsValue → Prop
  | [], [] => True
  | left :: lefts, right :: rights => Alike left right ∧ AlikeItems lefts rights
  | _, _ => False

/-- The members have the same names in the same order, and their values are alike. -/
def AlikeMembers : List (JsString × JsValue) → List (JsString × JsValue) → Prop
  | [], [] => True
  | (name, left) :: lefts, (other, right) :: rights =>
      name = other ∧ Alike left right ∧ AlikeMembers lefts rights
  | _, _ => False

end

section Entries

variable {Value : Type u} {Other : Type v}

def byName (entries : List (JsString × Value)) : List (JsString × Value) :=
  entries.insertionSort fun left right => ¬right.1 < left.1

def enumerated (entries : List (JsString × Value)) : List (JsString × Value) :=
  sortBy (fun entry => (numeral entry.1 : ℤ)) (entries.filter fun entry => IsArrayIndex entry.1) ++
    entries.filter fun entry => ¬IsArrayIndex entry.1

theorem byName_perm (entries : List (JsString × Value)) : (byName entries).Perm entries :=
  List.perm_insertionSort _ _

theorem enumerated_perm (entries : List (JsString × Value)) : (enumerated entries).Perm entries := by
  have indices := List.perm_insertionSort (fun left right : JsString × Value =>
    (numeral left.1 : ℤ) ≤ numeral right.1) (entries.filter fun entry => IsArrayIndex entry.1)
  apply (indices.append_right _).trans
  simpa using List.filter_append_perm (fun entry : JsString × Value => decide (IsArrayIndex entry.1))
    entries

theorem byName_map (change : Value → Other) (entries : List (JsString × Value)) :
    byName (entries.map (Prod.map id change)) = (byName entries).map (Prod.map id change) := by
  symm
  exact List.map_insertionSort _ _ _ _ (by simp)

theorem enumerated_map (change : Value → Other) (entries : List (JsString × Value)) :
    enumerated (entries.map (Prod.map id change)) =
      (enumerated entries).map (Prod.map id change) := by
  have indices : ∀ chosen : List (JsString × Value),
      sortBy (fun entry => (numeral entry.1 : ℤ)) (chosen.map (Prod.map id change)) =
        (sortBy (fun entry => (numeral entry.1 : ℤ)) chosen).map (Prod.map id change) :=
    fun chosen => (List.map_insertionSort _ _ _ _ (by simp)).symm
  simp only [enumerated, List.filter_map, List.map_append, indices]
  rfl

theorem map_fst_map (change : Value → Other) (entries : List (JsString × Value)) :
    (entries.map (Prod.map id change)).map Prod.fst = entries.map Prod.fst := by
  rw [List.map_map]
  rfl

theorem pairwise_byName (entries : List (JsString × Value)) :
    (byName entries).Pairwise fun left right => ¬right.1 < left.1 := by
  have total : Std.Total fun left right : JsString × Value => ¬right.1 < left.1 :=
    ⟨fun left right => List.le_total left.1 right.1⟩
  have trans : IsTrans (JsString × Value) fun left right => ¬right.1 < left.1 :=
    ⟨fun _ _ _ first second => List.le_trans first second⟩
  exact List.pairwise_insertionSort _ entries

theorem byName_eq_of_perm {left right : List (JsString × Value)} (perm : left.Perm right)
    (distinct : (left.map Prod.fst).Nodup) : byName left = byName right := by
  have samePerm : (byName left).Perm (byName right) :=
    (byName_perm left).trans (perm.trans (byName_perm right).symm)
  apply samePerm.eq_of_pairwise _ (pairwise_byName left) (pairwise_byName right)
  intro first second firstMem secondMem notAfter notBefore
  have sameName : first.1 = second.1 := List.le_antisymm notAfter notBefore
  have firstIn := (byName_perm left).mem_iff.mp firstMem
  have secondIn := perm.mem_iff.mpr ((byName_perm right).mem_iff.mp secondMem)
  exact List.inj_on_of_nodup_map distinct firstIn secondIn sameName

end Entries

theorem fromEntries_eq (entries : List (JsString × JsValue)) :
    fromEntries entries = .object (enumerated entries) := rfl

theorem sortedItems_eq_map (items : List JsValue) : sortedItems items = items.map sorted := by
  induction items with
  | nil => rfl
  | cons item rest ih => rw [sortedItems, ih, List.map_cons]

theorem sortedProperties_eq_map (properties : List (JsString × JsValue)) :
    sortedProperties properties = properties.map (Prod.map id sorted) := by
  induction properties with
  | nil => rfl
  | cons property rest ih => rw [sortedProperties, ih, List.map_cons]; rfl

theorem sorted_object (properties : List (JsString × JsValue)) :
    sorted (.object properties) =
      .object (enumerated (byName (properties.map (Prod.map id sorted)))) := by
  rw [sorted, sortedProperties_eq_map]
  rfl

theorem stringifyItems_eq_map (items : List JsValue) :
    stringifyItems items = items.map fun item => (stringify item).getD (js "null") := by
  induction items with
  | nil => rfl
  | cons item rest ih => rw [stringifyItems, ih, List.map_cons]

def memberTexts (members : List (JsString × Option JsString)) : List JsString :=
  members.filterMap fun member => member.2.map fun text => quote member.1 ++ [58] ++ text

theorem stringifyProperties_eq (properties : List (JsString × JsValue)) :
    stringifyProperties properties = memberTexts (properties.map (Prod.map id stringify)) := by
  induction properties with
  | nil => rfl
  | cons property rest ih =>
      rcases property with ⟨name, value⟩
      cases written : stringify value with
      | none => simp [stringifyProperties, memberTexts, written, ih]
      | some text => simp [stringifyProperties, memberTexts, written, ih]

theorem stringify_sorted_object (properties : List (JsString × JsValue)) :
    stringify (sorted (.object properties)) = some ([123] ++ commaSeparated (memberTexts
      (enumerated (byName (properties.map (Prod.map id fun value => stringify (sorted value)))))) ++
        [125]) := by
  rw [sorted_object, stringify, stringifyProperties_eq, ← enumerated_map, ← byName_map, List.map_map]
  rfl

theorem text_unsigned (number : FiniteNumber) : number.unsigned.text = number.text := by
  by_cases zero : number.significand = 0
  · rw [text_of_zero zero, FiniteNumber.unsigned, if_pos zero, text_of_zero rfl]
  · rw [FiniteNumber.unsigned_of_significand_ne_zero zero]

theorem stringify_sorted_array (items : List JsValue) :
    stringify (sorted (.array items)) = some ([91] ++ commaSeparated
      ((items.map fun item => stringify (sorted item)).map fun text => text.getD (js "null")) ++
        [93]) := by
  rw [sorted, stringify, stringifyItems_eq_map, sortedItems_eq_map, List.map_map, List.map_map]
  rfl

mutual

theorem stringify_sorted_of_alike : ∀ {left right : JsValue}, IsJson left → Alike left right →
    stringify (sorted left) = stringify (sorted right)
  | .null, right, _, alike => by
      cases right <;> simp_all [Alike]
  | .boolean _, right, _, alike => by
      cases right <;> simp_all [Alike]
  | .number (.finite left), right, _, alike => by
      cases right with
      | number value =>
          cases value with
          | finite right =>
              rw [Alike] at alike
              rw [sorted, sorted, stringify, stringify, ← text_unsigned left, alike, text_unsigned]
              all_goals simp
          | _ => simp [Alike] at alike
      | _ => simp [Alike] at alike
  | .string _, right, _, alike => by
      cases right <;> simp_all [Alike]
  | .array items, right, isJson, alike => by
      cases right with
      | array others =>
          rw [Alike] at alike
          rw [stringify_sorted_array, stringify_sorted_array, map_of_alikeItems isJson alike]
      | _ => simp [Alike] at alike
  | .object properties, right, isJson, alike => by
      cases right with
      | object others =>
          rw [Alike] at alike
          rcases alike with ⟨reordered, perm, alike⟩
          have same := map_of_alikeMembers isJson.2 alike
          have samePerm := perm.map (Prod.map id fun value => stringify (sorted value))
          rw [← same] at samePerm
          rw [stringify_sorted_object, stringify_sorted_object, byName_eq_of_perm samePerm]
          rw [map_fst_map]
          exact isJson.1
      | _ => simp [Alike] at alike

theorem map_of_alikeItems : ∀ {left right : List JsValue}, AreJson left → AlikeItems left right →
    left.map (fun item => stringify (sorted item)) = right.map fun item => stringify (sorted item)
  | [], right, _, alike => by
      cases right with
      | nil => rfl
      | cons => simp [AlikeItems] at alike
  | item :: rest, right, isJson, alike => by
      cases right with
      | nil => simp [AlikeItems] at alike
      | cons next others =>
          rw [AlikeItems] at alike
          rw [List.map_cons, List.map_cons, stringify_sorted_of_alike isJson.1 alike.1,
            map_of_alikeItems isJson.2 alike.2]

theorem map_of_alikeMembers : ∀ {left right : List (JsString × JsValue)}, AreJsonMembers left →
    AlikeMembers left right → left.map (Prod.map id fun value => stringify (sorted value)) =
      right.map (Prod.map id fun value => stringify (sorted value))
  | [], right, _, alike => by
      cases right with
      | nil => rfl
      | cons => simp [AlikeMembers] at alike
  | (name, value) :: rest, right, isJson, alike => by
      cases right with
      | nil => simp [AlikeMembers] at alike
      | cons next others =>
          rcases next with ⟨nextName, nextValue⟩
          rw [AlikeMembers] at alike
          rcases alike with ⟨rfl, alike, others⟩
          rw [List.map_cons, List.map_cons, map_of_alikeMembers isJson.2 others, Prod.map_apply,
            Prod.map_apply, stringify_sorted_of_alike isJson.1 alike]

end

theorem stringify_sorted_ne_none {value : JsValue} (isJson : IsJson value) :
    stringify (sorted value) ≠ none := by
  cases value with
  | undefined => exact isJson.elim
  | other => exact isJson.elim
  | object properties => simp [stringify_sorted_object]
  | array items => simp [stringify_sorted_array]
  | number value =>
      cases value with
      | finite number => simp [sorted, stringify]
      | _ => exact isJson.elim
  | _ => simp [sorted, stringify]

theorem isJson_of_mem {properties : List (JsString × JsValue)} (areJson : AreJsonMembers properties)
    {property : JsString × JsValue} (propertyMem : property ∈ properties) : IsJson property.2 := by
  induction properties with
  | nil => cases propertyMem
  | cons first rest ih =>
      rcases List.mem_cons.mp propertyMem with rfl | later
      · exact areJson.1
      · exact ih areJson.2 later

theorem isJson_of_mem_items {items : List JsValue} (areJson : AreJson items) {item : JsValue}
    (itemMem : item ∈ items) : IsJson item := by
  induction items with
  | nil => cases itemMem
  | cons first rest ih =>
      rcases List.mem_cons.mp itemMem with rfl | later
      · exact areJson.1
      · exact ih areJson.2 later

theorem rereadProperties_eq_map {round : FiniteNumber → JsNumber}
    {properties : List (JsString × JsValue)}
    (written : ∀ property ∈ properties, stringify property.2 ≠ none) :
    rereadProperties round properties = properties.map (Prod.map id (reread round)) := by
  induction properties with
  | nil => rfl
  | cons property rest ih =>
      rcases property with ⟨name, value⟩
      rw [List.forall_mem_cons] at written
      cases text : stringify value with
      | none => exact absurd text written.1
      | some text' => simp [rereadProperties, text, ih written.2]

theorem rereadItems_eq_map {round : FiniteNumber → JsNumber} {items : List JsValue}
    (written : ∀ item ∈ items, stringify item ≠ none) :
    rereadItems round items = items.map (reread round) := by
  induction items with
  | nil => rfl
  | cons item rest ih =>
      rw [List.forall_mem_cons] at written
      cases text : stringify item with
      | none => exact absurd text written.1
      | some text' => simp [rereadItems, text, ih written.2]

theorem setProperty_of_notMem {properties : List (JsString × JsValue)} {name : JsString}
    (new : name ∉ properties.map Prod.fst) (value : JsValue) :
    JsValue.setProperty properties name value = properties ++ [(name, value)] := by
  induction properties with
  | nil => rfl
  | cons property rest ih =>
      rw [List.map_cons, List.mem_cons, not_or] at new
      rw [JsValue.setProperty, if_neg (Ne.symm new.1), ih new.2, List.cons_append]

theorem objectOf_eq {members : List (JsString × JsValue)}
    (distinct : (members.map Prod.fst).Nodup) : objectOf members = .object (enumerated members) := by
  have general : ∀ properties : List (JsString × JsValue),
      ((properties ++ members).map Prod.fst).Nodup →
        members.foldl (fun properties member =>
          JsValue.setProperty properties member.1 member.2) properties = properties ++ members := by
    clear distinct
    induction members with
    | nil => simp
    | cons member rest ih =>
        intro properties distinct
        have new : member.1 ∉ properties.map Prod.fst := by
          rw [List.map_append, List.nodup_append] at distinct
          intro nameMem
          exact distinct.2.2 _ nameMem _ (List.mem_map_of_mem List.mem_cons_self) rfl
        rw [List.foldl_cons, setProperty_of_notMem new, ih, List.append_assoc]
        · rfl
        · simpa using distinct
  rw [objectOf, general [] distinct, fromEntries_eq, List.nil_append]

theorem enumerated_eq_self {entries : List (JsString × Value)}
    (noIndex : ∀ entry ∈ entries, ¬IsArrayIndex entry.1) : enumerated entries = entries := by
  have none : entries.filter (fun entry => IsArrayIndex entry.1) = [] := by
    simpa [List.filter_eq_nil_iff] using noIndex
  have all : entries.filter (fun entry => ¬IsArrayIndex entry.1) = entries := by
    simpa [List.filter_eq_self] using noIndex
  rw [enumerated, none, all]
  rfl

theorem mem_names_of_mem_rereadProperties {round : FiniteNumber → JsNumber}
    {properties : List (JsString × JsValue)} {name : JsString}
    (isName : name ∈ (rereadProperties round properties).map Prod.fst) :
    ∃ value, (name, value) ∈ properties ∧ stringify value ≠ none := by
  induction properties with
  | nil => cases isName
  | cons property rest ih =>
      rcases property with ⟨first, value⟩
      have inRest : ∀ {name}, (∃ value, (name, value) ∈ rest ∧ stringify value ≠ none) →
          ∃ value', (name, value') ∈ (first, value) :: rest ∧ stringify value' ≠ none := by
        rintro name ⟨value, later, written⟩
        exact ⟨value, List.mem_cons_of_mem _ later, written⟩
      rw [rereadProperties] at isName
      split at isName
      case h_1 => exact inRest (ih isName)
      case h_2 text written =>
        rcases List.mem_cons.mp isName with rfl | later
        · exact ⟨value, List.mem_cons_self, by simp [written]⟩
        · exact inRest (ih later)

/-- The object of the members that are read has them as they are, when their names are distinct
and no indices. -/
theorem reread_object {round : FiniteNumber → JsNumber} {properties : List (JsString × JsValue)}
    (distinct : (properties.map Prod.fst).Nodup)
    (noIndex : ∀ name ∈ properties.map Prod.fst, ¬IsArrayIndex name) :
    reread round (.object properties) = .object (rereadProperties round properties) := by
  have sublist : ((rereadProperties round properties).map Prod.fst).Sublist
      (properties.map Prod.fst) := by
    clear distinct noIndex
    induction properties with
    | nil => exact .slnil
    | cons property rest ih =>
        rcases property with ⟨name, value⟩
        rw [rereadProperties]
        split
        · exact ih.cons _
        · exact ih.cons_cons _
  rw [reread, objectOf_eq (sublist.nodup distinct), enumerated_eq_self]
  intro entry isEntry
  exact noIndex entry.1 (sublist.mem (List.mem_map_of_mem isEntry))

theorem get_rereadProperties {round : FiniteNumber → JsNumber}
    {properties : List (JsString × JsValue)} (distinct : (properties.map Prod.fst).Nodup)
    (name : JsString) : (JsValue.object (rereadProperties round properties)).get name =
      reread round ((JsValue.object properties).get name) := by
  induction properties with
  | nil => rfl
  | cons property rest ih =>
      rcases property with ⟨first, value⟩
      rw [List.map_cons, List.nodup_cons] at distinct
      rw [rereadProperties, JsValue.get_cons]
      split
      case h_1 missing =>
        rw [ih distinct.2]
        split
        case isTrue here =>
          subst here
          rw [JsValue.get_eq_undefined distinct.1]
          cases value with
          | undefined | other => rfl
          | number value => cases value <;> cases missing
          | _ => simp [stringify] at missing
        case isFalse => rfl
      case h_2 =>
        rw [JsValue.get_cons, ih distinct.2]
        split <;> rfl

theorem trim_stringify_object (properties : List (JsString × JsValue)) :
    ((stringify (.object properties)).getD []).trim = (stringify (.object properties)).getD [] := by
  rw [stringify, Option.getD_some, List.singleton_append]
  exact trim_eq_self _ (by decide) (by decide)

theorem length_commaSeparated_le (texts : List JsString) :
    (commaSeparated texts).length ≤ (texts.map fun text => text.length + 1).sum := by
  induction texts using commaSeparated.induct with
  | case1 => simp [commaSeparated]
  | case2 text => simp [commaSeparated]
  | case3 first second rest ih =>
      simp only [commaSeparated, List.length_append, List.length_singleton, List.map_cons,
        List.sum_cons] at ih ⊢
      omega

def memberLength (property : JsString × JsValue) : ℕ :=
  (quote property.1).length + 2 + ((stringify property.2).getD []).length

theorem length_stringify_object_le (properties : List (JsString × JsValue)) :
    ((stringify (.object properties)).getD []).length ≤ 2 + (properties.map memberLength).sum := by
  have members : ((stringifyProperties properties).map fun text => text.length + 1).sum ≤
      (properties.map memberLength).sum := by
    induction properties with
    | nil => simp [stringifyProperties]
    | cons property rest ih =>
        rcases property with ⟨name, value⟩
        rw [stringifyProperties]
        split
        · rw [List.map_cons, List.sum_cons]
          omega
        · rename_i text written
          simp only [List.map_cons, List.sum_cons, memberLength, written, Option.getD_some,
            List.length_append, List.length_singleton]
          omega
  have separated := length_commaSeparated_le (stringifyProperties properties)
  rw [stringify, Option.getD_some, List.length_append, List.length_append, List.length_singleton,
    List.length_singleton]
  omega

/-- The value has a text and is read from it as itself. -/
structure Kept (round : FiniteNumber → JsNumber) (value : JsValue) : Prop where
  written : stringify value ≠ none
  same : reread round value = value

variable {round : FiniteNumber → JsNumber}

theorem Kept.string (text : JsString) : Kept round (.string text) := ⟨by simp [stringify], rfl⟩

theorem Kept.boolean (value : Bool) : Kept round (.boolean value) := ⟨by simp [stringify], rfl⟩

theorem Kept.null : Kept round .null := ⟨by simp [stringify], rfl⟩

theorem Kept.array {items : List JsValue} (kept : ∀ item ∈ items, Kept round item) :
    Kept round (.array items) := by
  refine ⟨by simp [stringify], ?_⟩
  have same : items.map (reread round) = items :=
    (List.map_congr_left fun item isItem => (kept item isItem).same).trans (List.map_id _)
  rw [reread, rereadItems_eq_map fun item isItem => (kept item isItem).written, same]

theorem Kept.items {items : List JsValue} (kept : Kept round (.array items)) :
    ∀ item ∈ items, Kept round item := by
  have same := kept.same
  rw [reread, JsValue.array.injEq] at same
  clear kept
  induction items with
  | nil => simp
  | cons item rest ih =>
      rw [rereadItems, List.cons.injEq] at same
      rw [List.forall_mem_cons]
      refine ⟨?_, ih same.2⟩
      cases written : stringify item with
      | none =>
          rw [written] at same
          rw [← same.1] at written
          simp [stringify] at written
      | some text =>
          rw [written] at same
          exact ⟨by simp [written], same.1⟩

theorem Kept.object {properties : List (JsString × JsValue)}
    (distinct : (properties.map Prod.fst).Nodup)
    (noIndex : ∀ name ∈ properties.map Prod.fst, ¬IsArrayIndex name)
    (kept : ∀ property ∈ properties, Kept round property.2) : Kept round (.object properties) := by
  refine ⟨by simp [stringify], ?_⟩
  have same : properties.map (Prod.map id (reread round)) = properties := by
    refine (List.map_congr_left ?_).trans (List.map_id _)
    intro property propertyMem
    exact Prod.ext rfl (kept property propertyMem).same
  rw [reread, rereadProperties_eq_map fun property propertyMem =>
    (kept property propertyMem).written, same, objectOf_eq distinct, enumerated_eq_self]
  intro property propertyMem
  exact noIndex property.1 (List.mem_map_of_mem propertyMem)

theorem Kept.parse {value : JsValue} (kept : Kept round value) :
    parse round ((stringify value).getD []) = some value := by
  cases written : stringify value with
  | none => exact absurd written kept.written
  | some text => rw [Option.getD_some, parse_stringify written, kept.same]

/-- What `JSON.parse` makes of a numeral: a safe integer is the number that it writes. -/
structure JsonReader where
  round : FiniteNumber → JsNumber
  exact : ∀ number ≤ MAX_SAFE_INTEGER, ∀ value,
    JsNumber.ofNat number = .finite value → round value = .finite value

def JsonReader.keeping : JsonReader := ⟨.finite, fun _ _ _ _ => rfl⟩

theorem exists_finite_ofNat (number : ℕ) :
    ∃ value, JsNumber.ofNat number = .finite value ∧ value.negative = false := by
  rw [JsNumber.ofNat]
  split
  · exact ⟨_, rfl, rfl⟩
  · exact ⟨_, rfl, rfl⟩

theorem JsonReader.kept_ofNat (reader : JsonReader) {number : ℕ}
    (safe : number ≤ MAX_SAFE_INTEGER) : Kept reader.round (.number (.ofNat number)) := by
  rcases exists_finite_ofNat number with ⟨value, isFinite, positive⟩
  rw [isFinite]
  refine ⟨by simp [stringify], ?_⟩
  have unsigned : value.unsigned = value := by
    by_cases zero : value.significand = 0
    · rcases value with ⟨negative, significand, exponent, shortest⟩
      simp only at zero positive
      subst zero positive
      have noExponent : exponent = 0 := by simpa using shortest
      subst noExponent
      rfl
    · exact FiniteNumber.unsigned_of_significand_ne_zero zero
  simp only [reread, unsigned, reader.exact number safe value isFinite]

def normal (value : JsValue) : JsValue := reread .finite (sorted value)

theorem normal_array {items : List JsValue} (areJson : AreJson items) :
    normal (.array items) = .array (items.map normal) := by
  rw [normal, sorted, reread, sortedItems_eq_map, rereadItems_eq_map, List.map_map]
  · rfl
  · intro item itemMem
    rcases List.mem_map.mp itemMem with ⟨given, givenMem, rfl⟩
    exact stringify_sorted_ne_none (isJson_of_mem_items areJson givenMem)

theorem normal_object {properties : List (JsString × JsValue)}
    (isJson : IsJson (.object properties)) :
    ∃ members : List (JsString × JsValue), normal (.object properties) = .object members ∧
      members.Perm (properties.map (Prod.map id normal)) := by
  have ordered := (enumerated_perm (byName (properties.map (Prod.map id sorted)))).trans
    (byName_perm _)
  have read : rereadProperties .finite
      (enumerated (byName (properties.map (Prod.map id sorted)))) =
        (enumerated (byName (properties.map (Prod.map id sorted)))).map
          (Prod.map id (reread .finite)) := by
    apply rereadProperties_eq_map
    intro property propertyMem
    rcases List.mem_map.mp (ordered.mem_iff.mp propertyMem) with ⟨given, givenMem, rfl⟩
    exact stringify_sorted_ne_none (isJson_of_mem isJson.2 givenMem)
  have names := (ordered.map Prod.fst).nodup_iff
  rw [map_fst_map] at names
  rw [normal, sorted_object, reread, read, objectOf_eq (by rw [map_fst_map]; exact names.mpr isJson.1)]
  refine ⟨_, rfl, (enumerated_perm _).trans ?_⟩
  have perm := ordered.map (Prod.map id (reread .finite))
  rw [List.map_map] at perm
  exact perm

theorem exists_perm_of_map_perm {Item : Type u} {Image : Type v} {image : Item → Image}
    {left right : List Item} (perm : (left.map image).Perm (right.map image)) :
    ∃ reordered : List Item, reordered.Perm right ∧ left.map image = reordered.map image := by
  have images : List.Forall₂ (fun found item => found = image item) (right.map image) right := by
    rw [List.forall₂_map_left_iff, List.forall₂_same]
    exact fun _ _ => rfl
  rcases List.perm_comp_forall₂ perm images with ⟨reordered, same, reorderedPerm⟩
  refine ⟨reordered, reorderedPerm, ?_⟩
  rw [← List.forall₂_eq_eq_eq, List.forall₂_map_right_iff]
  exact same

def kind : JsValue → ℕ
  | .undefined => 0
  | .null => 1
  | .boolean _ => 2
  | .number _ => 3
  | .string _ => 4
  | .array _ => 5
  | .object _ => 6
  | .other => 7

theorem kind_normal {value : JsValue} (isJson : IsJson value) : kind (normal value) = kind value := by
  cases value with
  | array items => rw [normal_array isJson]; rfl
  | object properties =>
      rcases normal_object isJson with ⟨members, read, -⟩
      rw [read]
      rfl
  | number value =>
      cases value with
      | finite number => rfl
      | _ => exact isJson.elim
  | undefined => exact isJson.elim
  | other => exact isJson.elim
  | _ => rfl

mutual

theorem alike_of_normal_eq : ∀ {left right : JsValue}, IsJson left → IsJson right →
    normal left = normal right → Alike left right
  | .null, right, isJson, isJson', same => by
      have kinds := congrArg kind same
      rw [kind_normal isJson, kind_normal isJson'] at kinds
      cases right <;> first | trivial | cases kinds
  | .boolean _, right, isJson, isJson', same => by
      have kinds := congrArg kind same
      rw [kind_normal isJson, kind_normal isJson'] at kinds
      cases right with
      | boolean => exact JsValue.boolean.inj same
      | _ => cases kinds
  | .number (.finite _), right, isJson, isJson', same => by
      have kinds := congrArg kind same
      rw [kind_normal isJson, kind_normal isJson'] at kinds
      cases right with
      | number value =>
          cases value with
          | finite => exact JsNumber.finite.inj (JsValue.number.inj same)
          | _ => exact isJson'.elim
      | _ => cases kinds
  | .string _, right, isJson, isJson', same => by
      have kinds := congrArg kind same
      rw [kind_normal isJson, kind_normal isJson'] at kinds
      cases right with
      | string => exact JsValue.string.inj same
      | _ => cases kinds
  | .array items, right, isJson, isJson', same => by
      have kinds := congrArg kind same
      rw [kind_normal isJson, kind_normal isJson'] at kinds
      cases right with
      | array others =>
          rw [normal_array isJson, normal_array isJson', JsValue.array.injEq] at same
          exact alikeItems_of_map_eq isJson isJson' same
      | _ => cases kinds
  | .object properties, right, isJson, isJson', same => by
      have kinds := congrArg kind same
      rw [kind_normal isJson, kind_normal isJson'] at kinds
      cases right with
      | object others =>
          rcases normal_object isJson with ⟨members, read, perm⟩
          rcases normal_object isJson' with ⟨members', read', perm'⟩
          rw [read, read', JsValue.object.injEq] at same
          subst same
          rcases exists_perm_of_map_perm (perm.symm.trans perm') with ⟨reordered, reorders, same⟩
          refine ⟨reordered, reorders, alikeMembers_of_map_eq isJson.2 ?_ same⟩
          exact fun property propertyMem => isJson_of_mem isJson'.2 (reorders.mem_iff.mp propertyMem)
      | _ => cases kinds

theorem alikeItems_of_map_eq : ∀ {left right : List JsValue}, AreJson left → AreJson right →
    left.map normal = right.map normal → AlikeItems left right
  | [], right, _, _, same => by
      cases right with
      | nil => trivial
      | cons => cases same
  | item :: rest, right, isJson, isJson', same => by
      cases right with
      | nil => cases same
      | cons next others =>
          rw [List.map_cons, List.map_cons, List.cons.injEq] at same
          exact ⟨alike_of_normal_eq isJson.1 isJson'.1 same.1,
            alikeItems_of_map_eq isJson.2 isJson'.2 same.2⟩

theorem alikeMembers_of_map_eq : ∀ {left right : List (JsString × JsValue)}, AreJsonMembers left →
    (∀ property ∈ right, IsJson property.2) →
      left.map (Prod.map id normal) = right.map (Prod.map id normal) → AlikeMembers left right
  | [], right, _, _, same => by
      cases right with
      | nil => trivial
      | cons => cases same
  | (name, value) :: rest, right, isJson, areJson, same => by
      cases right with
      | nil => cases same
      | cons next others =>
          rw [List.map_cons, List.map_cons, List.cons.injEq, Prod.map, Prod.map, Prod.mk.injEq]
            at same
          rw [List.forall_mem_cons] at areJson
          exact ⟨same.1.1, alike_of_normal_eq isJson.1 areJson.1 same.1.2,
            alikeMembers_of_map_eq isJson.2 areJson.2 same.2⟩

end

theorem canonicalText_eq_iff {left right : JsValue} (isJson : IsJson left) (isJson' : IsJson right) :
    canonicalText left = canonicalText right ↔ Alike left right := by
  refine ⟨?_, ?_⟩
  · intro same
    cases written : stringify (sorted left) with
    | none => exact absurd written (stringify_sorted_ne_none isJson)
    | some text =>
        cases written' : stringify (sorted right) with
        | none => exact absurd written' (stringify_sorted_ne_none isJson')
        | some text' =>
            rw [canonicalText, canonicalText, written, written', Option.getD_some,
              Option.getD_some] at same
            subst same
            have read : parse .finite text = _ := parse_stringify written
            rw [parse_stringify written', Option.some.injEq] at read
            exact alike_of_normal_eq isJson isJson' read.symm
  · intro alike
    rw [canonicalText, canonicalText, stringify_sorted_of_alike isJson alike]

end Ecma.Json
