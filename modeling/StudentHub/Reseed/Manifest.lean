import StudentHub.Ecma.OrderedMap
import StudentHub.Reseed.TreeState

/-!
# The manifest of a rewrite

What differs between two trees is written path by path, in the order of the path bytes. The digest
of the manifest approves the rewrite, so the changes must be read off its bytes.
-/

namespace StudentHub.Reseed

open Ecma JsString

def ZERO : JsString := List.replicate 40 48

/-- The test of a path; bytes that are no UTF-8 are replaced before the path is split. -/
def isPath (raw : List UInt8) : Bool :=
  !(raw.isEmpty || raw.contains 0 || raw.head? == some 47 ||
    ((Buffer.toText raw).splitOn 47).any fun part => part == js "." || part == js ".." || part == [])

def indexEntry (map : OrderedMap (List UInt8) Entry) (entry : Entry) :
    Except Refusal (OrderedMap (List UInt8) Entry) :=
  if entry.mode ∉ MODES then
    .error .unsupportedMode
  else do
    requireOid entry.oid
    if !isPath entry.path then
      .error .unexpectedPath
    else if map.has entry.path then
      .error .unexpectedPath
    else
      .ok (map.set entry.path entry)

def index (entries : List Entry) : Except Refusal (OrderedMap (List UInt8) Entry) :=
  entries.foldlM indexEntry OrderedMap.empty

/-- `Buffer.compare` -/
def byteOrder : Comparator (List UInt8) := (Comparator.ofOrder (List ℕ)).onKey (List.map UInt8.toNat)

def recordFields (raw : List UInt8) (a b : Option Entry) : List (List UInt8) :=
  let status := if a.isNone then js "A" else if b.isNone then js "D" else js "M"
  [Buffer.ofText status, raw, Buffer.ofText ((a.map Entry.mode).getD (js "000000")),
    Buffer.ofText ((a.map Entry.oid).getD ZERO), Buffer.ofText ((b.map Entry.mode).getD (js "000000")),
    Buffer.ofText ((b.map Entry.oid).getD ZERO)]

def isSame : Option Entry → Option Entry → Bool
  | some a, some b => a.mode = b.mode && a.oid = b.oid
  | _, _ => false

def record (old next : OrderedMap (List UInt8) Entry) (raw : List UInt8) : List UInt8 :=
  let a := old.get? raw
  let b := next.get? raw
  if isSame a b then [] else Terminated.write 0 (recordFields raw a b)

def canonicalManifest (before after : List Entry) : Except Refusal (List UInt8) := do
  let old ← index before
  let next ← index after
  let paths := byteOrder.sort (old.keys ++ next.keys.filter fun key => key ∉ old.keys)
  .ok (paths.flatMap (record old next))

/-- A path as it may stand in a tree: relative, without empty and without dotted parts. -/
def Admissible (path : List UInt8) : Prop :=
  0 ∉ path ∧ ∀ part ∈ path.splitOn 47, part ≠ [] ∧ part ≠ [46] ∧ part ≠ [46, 46]

theorem toText_eq_iff {part text : List UInt8} (ascii : ∀ byte ∈ text, byte.toNat < 0x80) :
    Buffer.toText part = text.map (fun byte => byte.toNat.toUInt16) ↔ part = text := by
  have small : ∀ unit ∈ Buffer.toText text, unit.toNat < 0x80 := by
    rw [Buffer.toText_of_ascii ascii, List.forall_mem_map]
    intro byte byteMem
    have isAscii := ascii byte byteMem
    rwa [Buffer.toNat_toUInt16 (by omega)]
  rw [← Buffer.toText_of_ascii ascii]
  constructor
  · intro same
    exact (Buffer.eq_of_toText_eq small same).trans (Buffer.eq_of_toText_eq small rfl).symm
  · rintro rfl
    rfl

theorem isPath_iff {path : List UInt8} : isPath path = true ↔ Admissible path := by
  have parts := @Buffer.splitOn_toText 47 (by decide) path
  have slash : (47 : UInt8).toNat.toUInt16 = 47 := rfl
  rw [slash] at parts
  have dot := fun part => @toText_eq_iff part [46] (by simp)
  have dots := fun part => @toText_eq_iff part [46, 46] (by simp)
  have nothing := fun part => @toText_eq_iff part [] (by simp)
  simp only [isPath, parts, Bool.not_eq_true', Bool.or_eq_false_iff, List.any_eq_false,
    List.forall_mem_map, Bool.or_eq_true, beq_iff_eq, Admissible]
  constructor
  · rintro ⟨⟨⟨_, clean⟩, _⟩, every⟩
    refine ⟨by simpa using clean, fun part partMem => ⟨?_, ?_, ?_⟩⟩
    · rintro rfl
      exact every [] partMem (.inr rfl)
    · rintro rfl
      exact every [46] partMem (.inl (.inl rfl))
    · rintro rfl
      exact every [46, 46] partMem (.inl (.inr rfl))
  · rintro ⟨clean, every⟩
    refine ⟨⟨⟨?_, by simpa using clean⟩, ?_⟩, ?_⟩
    · rw [List.isEmpty_eq_false_iff]
      rintro rfl
      exact (every [] (by simp)).1 rfl
    · cases path with
      | nil => rfl
      | cons first rest =>
          simp only [List.head?_cons, beq_eq_false_iff_ne, ne_eq, Option.some.injEq]
          rintro rfl
          have empty : [] ∈ ((47 : UInt8) :: rest).splitOn 47 := by simp [List.splitOn_cons_eq_if_modifyHead]
          exact (every [] empty).1 rfl
    · rintro part partMem ((isDot | isDots) | isEmpty)
      · exact (every part partMem).2.1 ((dot part).mp isDot)
      · exact (every part partMem).2.2 ((dots part).mp isDots)
      · exact (every part partMem).1 ((nothing part).mp isEmpty)

/-- A finite map from paths to modes and objects, in some order. -/
structure Tree where
  entries : List Entry
  admissible : ∀ entry ∈ entries,
    entry.mode ∈ MODES ∧ isOid entry.oid = true ∧ Admissible entry.path
  distinct : (entries.map Entry.path).Nodup

abbrev State := Option (JsString × JsString)

def Entry.state (entry : Entry) : JsString × JsString := (entry.mode, entry.oid)

def Tree.stateOf (tree : Tree) (path : List UInt8) : State :=
  (tree.entries.find? fun entry => entry.path = path).map Entry.state

structure Change where
  path : List UInt8
  before : State
  after : State

def changes (before after : Tree) : Set Change :=
  {change | change.before = before.stateOf change.path ∧
    change.after = after.stateOf change.path ∧ change.before ≠ change.after}

section Index

variable {tree : Tree} {path : List UInt8} {map : OrderedMap (List UInt8) Entry}

theorem foldlM_indexEntry {entries : List Entry}
    (admissible : ∀ entry ∈ entries,
      entry.mode ∈ MODES ∧ isOid entry.oid = true ∧ Admissible entry.path)
    (distinct : (entries.map Entry.path).Nodup)
    (fresh : ∀ entry ∈ entries, map.get? entry.path = none) :
    entries.foldlM indexEntry map = .ok
      ((entries.map fun entry => (entry.path, entry)).foldl
        (fun built pair => built.set pair.1 pair.2) map) := by
  induction entries generalizing map with
  | nil => rfl
  | cons entry entries ih =>
      rw [List.forall_mem_cons] at admissible fresh
      rw [List.map_cons, List.nodup_cons] at distinct
      have first : indexEntry map entry = .ok (map.set entry.path entry) := by
        have absent : map.has entry.path = false := by rw [OrderedMap.has, fresh.1]; rfl
        rw [indexEntry, if_neg (not_not.mpr admissible.1.1), requireOid, if_pos admissible.1.2.1,
          isPath_iff.mpr admissible.1.2.2, absent]
        rfl
      rw [List.foldlM_cons, first, List.map_cons, List.foldl_cons]
      apply ih admissible.2 distinct.2
      intro other otherMem
      rw [OrderedMap.get?_set_of_ne _ _ (fun same => distinct.1 ?_)]
      · exact fresh.2 other otherMem
      · exact same ▸ List.mem_map_of_mem otherMem

theorem Tree.find?_eq_some_iff {entry : Entry} :
    tree.entries.find? (fun entry => entry.path = path) = some entry ↔
      entry ∈ tree.entries ∧ entry.path = path := by
  constructor
  · intro found
    exact ⟨List.mem_of_find?_eq_some found, by simpa using List.find?_some found⟩
  · rintro ⟨entryMem, rfl⟩
    cases found : tree.entries.find? fun other => other.path = entry.path with
    | none =>
        have absent := List.find?_eq_none.mp found entry entryMem
        simp at absent
    | some other =>
        have samePath : other.path = entry.path := by simpa using List.find?_some found
        rw [List.inj_on_of_nodup_map tree.distinct (List.mem_of_find?_eq_some found) entryMem
          samePath]

theorem index_tree (tree : Tree) : ∃ map, index tree.entries = .ok map ∧
    ∀ path, map.get? path = tree.entries.find? fun entry => entry.path = path := by
  refine ⟨_, foldlM_indexEntry tree.admissible tree.distinct fun _ _ => rfl, ?_⟩
  intro path
  have keys : ((tree.entries.map fun entry => (entry.path, entry)).map Prod.fst).Nodup := by
    rw [List.map_map]
    exact tree.distinct
  apply Option.ext
  intro entry
  rw [tree.find?_eq_some_iff]
  apply (OrderedMap.get?_ofList_iff keys).trans
  simp only [List.mem_map, Prod.mk.injEq]
  constructor
  · rintro ⟨other, otherMem, rfl, rfl⟩
    exact ⟨otherMem, rfl⟩
  · rintro ⟨entryMem, samePath⟩
    exact ⟨entry, entryMem, samePath, rfl⟩

theorem Tree.stateOf_eq_some {state : JsString × JsString} (found : tree.stateOf path = some state) :
    state.1 ∈ MODES ∧ isOid state.2 = true ∧ Admissible path := by
  rcases Option.map_eq_some_iff.mp found with ⟨entry, isEntry, rfl⟩
  rcases tree.find?_eq_some_iff.mp isEntry with ⟨entryMem, rfl⟩
  exact tree.admissible entry entryMem

end Index

section Records

variable {before after : Tree} {path : List UInt8} {change : Change} {listed : List Change}

def changeAt (before after : Tree) (path : List UInt8) : Change :=
  ⟨path, before.stateOf path, after.stateOf path⟩

def statusOf (added removed : Bool) : JsString :=
  if added then js "A" else if removed then js "D" else js "M"

def Change.fields (change : Change) : List (List UInt8) :=
  [Buffer.ofText (statusOf change.before.isNone change.after.isNone), change.path,
    Buffer.ofText ((change.before.map Prod.fst).getD (js "000000")),
    Buffer.ofText ((change.before.map Prod.snd).getD ZERO),
    Buffer.ofText ((change.after.map Prod.fst).getD (js "000000")),
    Buffer.ofText ((change.after.map Prod.snd).getD ZERO)]

theorem recordFields_eq (a b : Option Entry) :
    recordFields path a b = (Change.mk path (a.map Entry.state) (b.map Entry.state)).fields := by
  cases a <;> cases b <;> rfl

theorem isSame_iff {a b : Option Entry} (present : a.isSome ∨ b.isSome) :
    isSame a b = true ↔ a.map Entry.state = b.map Entry.state := by
  cases a <;> cases b <;> simp_all [isSame, Entry.state]

theorem flatMap_record {old next : OrderedMap (List UInt8) Entry} {paths : List (List UInt8)}
    (isOld : ∀ path, old.get? path = before.entries.find? fun entry => entry.path = path)
    (isNext : ∀ path, next.get? path = after.entries.find? fun entry => entry.path = path)
    (present : ∀ path ∈ paths, (old.get? path).isSome ∨ (next.get? path).isSome) :
    paths.flatMap (record old next) = Terminated.write 0
      (((paths.map (changeAt before after)).filter
        fun change => change.before ≠ change.after).flatMap Change.fields) := by
  induction paths with
  | nil => rfl
  | cons path paths ih =>
      rw [List.forall_mem_cons] at present
      have states : changeAt before after path =
          ⟨path, (old.get? path).map Entry.state, (next.get? path).map Entry.state⟩ := by
        rw [isOld, isNext]
        rfl
      rw [List.flatMap_cons, List.map_cons, ih present.2, record, recordFields_eq, ← states]
      by_cases same : isSame (old.get? path) (next.get? path) = true
      · rw [if_pos same, List.nil_append, List.filter_cons_of_neg]
        rw [states]
        simpa using (isSame_iff present.1).mp same
      · rw [if_neg same, List.filter_cons_of_pos, List.flatMap_cons]
        · simp [Terminated.write]
        · rw [states]
          simpa using fun equal => same ((isSame_iff present.1).mpr equal)

theorem mem_changes_iff : change ∈ changes before after ↔
    change = changeAt before after change.path ∧ change.before ≠ change.after := by
  cases change
  simp only [changes, changeAt, Set.mem_ofPred_eq, Change.mk.injEq, true_and, and_assoc]

theorem canonicalManifest_changes (before after : Tree) : ∃ listed : List Change,
    canonicalManifest before.entries after.entries =
      .ok (Terminated.write 0 (listed.flatMap Change.fields)) ∧
    (∀ change, change ∈ listed ↔ change ∈ changes before after) ∧ listed.Nodup ∧
    listed.Pairwise fun early late => byteOrder.compare early.path late.path ≤ 0 := by
  rcases index_tree before with ⟨old, indexed, isOld⟩
  rcases index_tree after with ⟨next, indexed', isNext⟩
  let paths := byteOrder.sort (old.keys ++ next.keys.filter fun key => key ∉ old.keys)
  have memPaths : ∀ path, path ∈ paths ↔ (old.get? path).isSome ∨ (next.get? path).isSome := by
    intro path
    simp only [paths, Comparator.mem_sort, List.mem_append, List.mem_filter, decide_eq_true_eq,
      ← OrderedMap.mem_keys_iff]
    tauto
  have nodup : paths.Nodup := by
    apply Comparator.sort_perm.nodup_iff.mpr
    apply List.Nodup.append old.nodupKeys (next.nodupKeys.filter _)
    intro path inOld inNext
    have notOld := (List.mem_filter.mp inNext).2
    exact of_decide_eq_true notOld inOld
  refine ⟨(paths.map (changeAt before after)).filter fun change => change.before ≠ change.after,
    ?_, ?_, ?_, ?_⟩
  · rw [canonicalManifest, indexed, indexed']
    exact congrArg Except.ok (flatMap_record isOld isNext fun path => (memPaths path).mp)
  · intro change
    simp only [List.mem_filter, List.mem_map, decide_eq_true_eq, mem_changes_iff]
    constructor
    · rintro ⟨⟨path, _, rfl⟩, differ⟩
      exact ⟨rfl, differ⟩
    · rintro ⟨isChange, differ⟩
      refine ⟨⟨change.path, ?_, isChange.symm⟩, differ⟩
      rw [memPaths, isOld, isNext]
      rw [isChange] at differ
      by_contra absent
      simp only [not_or, Option.not_isSome_iff_eq_none] at absent
      exact differ (by simp [changeAt, Tree.stateOf, absent])
  · exact (nodup.map fun path path' same => congrArg Change.path same).filter _
  · apply List.Pairwise.filter
    rw [List.pairwise_map]
    exact Comparator.pairwise_sort

theorem eq_of_mem_iff {before after before' after' : Tree} {listed listed' : List Change}
    (holds : ∀ change, change ∈ listed ↔ change ∈ changes before after)
    (holds' : ∀ change, change ∈ listed' ↔ change ∈ changes before' after')
    (same : changes before after = changes before' after') (nodup : listed.Nodup)
    (nodup' : listed'.Nodup)
    (sorted : listed.Pairwise fun early late => byteOrder.compare early.path late.path ≤ 0)
    (sorted' : listed'.Pairwise fun early late => byteOrder.compare early.path late.path ≤ 0) :
    listed = listed' := by
  have perm : listed.Perm listed' := by
    rw [List.perm_ext_iff_of_nodup nodup nodup']
    intro change
    rw [holds, holds', same]
  apply List.Perm.eq_of_pairwise _ sorted sorted' perm
  intro early late earlyMem lateMem below above
  have notBelow := byteOrder.nonneg_iff.mpr above
  have tie : byteOrder.compare early.path late.path = 0 := by omega
  have samePath : early.path = late.path := by
    apply List.map_injective_iff.mpr (fun _ _ => UInt8.toNat_inj.mp)
    exact Comparator.eq_of_ofOrder_compare_eq_zero tie
  have isEarly := (mem_changes_iff.mp ((holds early).mp earlyMem)).1
  have isLate := (mem_changes_iff.mp (same ▸ (holds' late).mp lateMem)).1
  calc early = changeAt before after early.path := isEarly
    _ = changeAt before after late.path := by rw [samePath]
    _ = late := isLate.symm

end Records

section Parsing

variable {before after : Tree} {change : Change} {listed : List Change} {text : JsString}

def parseState (absent : Bool) (mode oid : List UInt8) : State :=
  if absent then none else some (Buffer.toText mode, Buffer.toText oid)

def parseFields : List (List UInt8) → Option (List Change)
  | [] => some []
  | status :: path :: oldMode :: oldOid :: newMode :: newOid :: rest =>
      let before := parseState (status == Buffer.ofText (js "A")) oldMode oldOid
      let after := parseState (status == Buffer.ofText (js "D")) newMode newOid
      (parseFields rest).map (⟨path, before, after⟩ :: ·)
  | _ => none

def parseManifest (manifest : List UInt8) : Option (List Change) :=
  (Terminated.read 0 manifest).bind parseFields

theorem field_of_ascii (ascii : ∀ unit ∈ text, unit.toNat < 0x80 ∧ unit ≠ 0) :
    Buffer.toText (Buffer.ofText text) = text ∧ 0 ∉ Buffer.ofText text := by
  have small : ∀ unit ∈ text, unit.toNat < 0x80 := fun unit unitMem => (ascii unit unitMem).1
  have read := Buffer.toText_ofText (Buffer.length_ofText_of_ascii small).1
  refine ⟨read, ?_⟩
  rw [Buffer.eq_of_toText_eq small read]
  intro zeroMem
  rcases List.mem_map.mp zeroMem with ⟨unit, unitMem, isZero⟩
  have bound := small unit unitMem
  apply (ascii unit unitMem).2
  rw [← UInt16.toNat_inj, ← Buffer.toNat_toUInt8 (show unit.toNat < 256 by omega), isZero]
  rfl

theorem ascii_of_isLowerHex {unit : UInt16} (hex : isLowerHex unit = true) :
    unit.toNat < 0x80 ∧ unit ≠ 0 := by
  have line := (isLineUnit_of_isLowerHex hex).1
  simp only [isLineUnit, Bool.and_eq_true, decide_eq_true_eq, UInt16.le_iff_toNat_le,
    UInt16.reduceToNat] at line
  simp only [ne_eq, ← UInt16.toNat_inj, UInt16.reduceToNat]
  omega

theorem ascii_of_isOid {oid : JsString} (isHex : isOid oid = true) :
    ∀ unit ∈ oid, unit.toNat < 0x80 ∧ unit ≠ 0 := by
  intro unit unitMem
  rcases mem_of_matchesClasses isHex unitMem with ⟨fits, fitsMem, hex⟩
  rw [List.eq_of_mem_replicate fitsMem] at hex
  exact ascii_of_isLowerHex hex

def Known (state : State) : Prop :=
  ∀ mode oid, state = some (mode, oid) → mode ∈ MODES ∧ isOid oid = true

theorem Known.fields {state : State} (known : Known state) :
    (0 ∉ Buffer.ofText ((state.map Prod.fst).getD (js "000000"))) ∧
      (0 ∉ Buffer.ofText ((state.map Prod.snd).getD ZERO)) ∧
      ∀ absent : Bool, absent = state.isNone →
        parseState absent (Buffer.ofText ((state.map Prod.fst).getD (js "000000")))
          (Buffer.ofText ((state.map Prod.snd).getD ZERO)) = state := by
  cases state with
  | none =>
      refine ⟨by decide, by decide, ?_⟩
      rintro _ rfl
      rfl
  | some state =>
      have checked := known state.1 state.2 rfl
      have modes : ∀ mode ∈ MODES, ∀ unit ∈ mode, unit.toNat < 0x80 ∧ unit ≠ 0 := by
        simp [js, codeUnits, MODES]
      have mode := field_of_ascii (modes state.1 checked.1)
      have oid := field_of_ascii (ascii_of_isOid checked.2)
      refine ⟨mode.2, oid.2, ?_⟩
      rintro _ rfl
      exact congrArg some (Prod.ext mode.1 oid.1)

/-- A change between two trees. -/
structure Change.Sound (change : Change) : Prop where
  before : Known change.before
  after : Known change.after
  path : 0 ∉ change.path
  differ : change.before ≠ change.after

theorem sound_of_mem_changes (changed : change ∈ changes before after) : change.Sound := by
  rcases changed with ⟨isBefore, isAfter, differ⟩
  refine ⟨?_, ?_, ?_, differ⟩
  · intro mode oid found
    exact ⟨(before.stateOf_eq_some (isBefore ▸ found)).1, (before.stateOf_eq_some (isBefore ▸ found)).2.1⟩
  · intro mode oid found
    exact ⟨(after.stateOf_eq_some (isAfter ▸ found)).1, (after.stateOf_eq_some (isAfter ▸ found)).2.1⟩
  · cases found : change.before with
    | some state => exact (before.stateOf_eq_some (isBefore ▸ found)).2.2.1
    | none =>
        cases found' : change.after with
        | some state => exact (after.stateOf_eq_some (isAfter ▸ found')).2.2.1
        | none => exact absurd (found.trans found'.symm) differ

theorem Change.Sound.status (sound : change.Sound) :
    let status := Buffer.ofText (statusOf change.before.isNone change.after.isNone)
    0 ∉ status ∧ (status == Buffer.ofText (js "A")) = change.before.isNone ∧
      (status == Buffer.ofText (js "D")) = change.after.isNone := by
  have cases : ∀ added removed : Bool, ¬(added = true ∧ removed = true) →
      0 ∉ Buffer.ofText (statusOf added removed) ∧
      (Buffer.ofText (statusOf added removed) == Buffer.ofText (js "A")) = added ∧
      (Buffer.ofText (statusOf added removed) == Buffer.ofText (js "D")) = removed := by decide
  apply cases
  rintro ⟨added, removed⟩
  rw [Option.isNone_iff_eq_none] at added removed
  exact sound.differ (added.trans removed.symm)

theorem Change.Sound.fields (sound : change.Sound) : ∀ field ∈ change.fields, 0 ∉ field := by
  simp only [Change.fields, List.forall_mem_cons, List.not_mem_nil, false_imp_iff, implies_true,
    and_true]
  exact ⟨sound.status.1, sound.path, sound.before.fields.1, sound.before.fields.2.1,
    sound.after.fields.1, sound.after.fields.2.1⟩

theorem parseFields_flatMap (sound : ∀ change ∈ listed, change.Sound) :
    parseFields (listed.flatMap Change.fields) = some listed := by
  induction listed with
  | nil => rfl
  | cons change listed ih =>
      rw [List.forall_mem_cons] at sound
      have status := sound.1.status
      rw [List.flatMap_cons, Change.fields]
      simp only [List.cons_append, List.nil_append, parseFields]
      rw [ih sound.2, sound.1.before.fields.2.2 _ status.2.1, sound.1.after.fields.2.2 _ status.2.2]
      rfl

theorem parseManifest_write (sound : ∀ change ∈ listed, change.Sound) :
    parseManifest (Terminated.write 0 (listed.flatMap Change.fields)) = some listed := by
  rw [parseManifest, Terminated.read_write]
  · exact parseFields_flatMap sound
  · intro field fieldMem
    rcases List.mem_flatMap.mp fieldMem with ⟨change, changeMem, inChange⟩
    exact (sound change changeMem).fields field inChange

end Parsing

section Manifests

variable {git : JsString → Except Refusal (List UInt8)} {tree : JsString}
  {items : List (List UInt8 × GitObject)}

theorem changes_congr {before after before' after' : Tree}
    (sameBefore : ∀ path, before.stateOf path = before'.stateOf path)
    (sameAfter : ∀ path, after.stateOf path = after'.stateOf path) :
    changes before after = changes before' after' := by
  ext change
  rw [mem_changes_iff, mem_changes_iff, changeAt, changeAt, sameBefore, sameAfter]

/-- The manifests of two pairs of trees are one exactly if the changes are, and the changes are read
off the bytes. A tree is read as its leaves, or refused. -/
theorem canonicalManifest_readTreeState (before after before' after' : Tree)
    (wellFormed : (GitObject.tree tree items).WellFormed)
    (listed : git tree = .ok (lsTree items)) :
    ∃ manifest manifest', canonicalManifest before.entries after.entries = .ok manifest ∧
      canonicalManifest before'.entries after'.entries = .ok manifest' ∧
      ((∀ path, before.stateOf path = before'.stateOf path) →
        (∀ path, after.stateOf path = after'.stateOf path) → manifest = manifest') ∧
      (manifest = manifest' ↔ changes before after = changes before' after') ∧
      (∃ parsed, parseManifest manifest = some parsed ∧
        ∀ change, change ∈ parsed ↔ change ∈ changes before after) ∧
      (Readable items → readTreeState git tree = .ok (leavesOf [] items)) ∧
      (¬Readable items → readTreeState git tree = .error .unsupportedMode) := by
  rcases canonicalManifest_changes before after with ⟨written, isManifest, holds, nodup, sorted⟩
  rcases canonicalManifest_changes before' after' with
    ⟨written', isManifest', holds', nodup', sorted'⟩
  have parsed := @parseManifest_write written fun change changeMem =>
    sound_of_mem_changes ((holds change).mp changeMem)
  have parsed' := @parseManifest_write written' fun change changeMem =>
    sound_of_mem_changes ((holds' change).mp changeMem)
  have same_of_changes : changes before after = changes before' after' → written = written' :=
    fun same => eq_of_mem_iff holds holds' same nodup nodup' sorted sorted'
  refine ⟨_, _, isManifest, isManifest', ?_, ?_, ⟨written, parsed, holds⟩,
    readTreeState_lsTree wellFormed listed⟩
  · intro sameBefore sameAfter
    rw [same_of_changes (changes_congr sameBefore sameAfter)]
  · constructor
    · intro same
      rw [same, parsed', Option.some.injEq] at parsed
      ext change
      rw [← holds, ← holds', parsed]
    · intro same
      rw [same_of_changes same]

def sampleOid : JsString := List.replicate 40 97

/-- One file, its name a tab and a byte that is no UTF-8. -/
def sampleTree : Tree where
  entries := [⟨[9, 255], js "100644", sampleOid⟩]
  admissible := List.forall_mem_singleton.mpr ⟨by decide, by decide, isPath_iff.mp (by decide)⟩
  distinct := by decide

def emptyTree : Tree := ⟨[], nofun, List.nodup_nil⟩

def sampleItems : List (List UInt8 × GitObject) :=
  [([115], .tree sampleOid [([9, 255], .leaf (js "100644") sampleOid)]),
    ([116], .leaf (js "160000") sampleOid)]

theorem canonicalManifest_readTreeState_sample :
    ∃ manifest manifest', canonicalManifest [] sampleTree.entries = .ok manifest ∧
      canonicalManifest sampleTree.entries [] = .ok manifest' ∧
      ((∀ path, emptyTree.stateOf path = sampleTree.stateOf path) →
        (∀ path, sampleTree.stateOf path = emptyTree.stateOf path) →
        manifest = manifest') ∧
      (manifest = manifest' ↔ changes emptyTree sampleTree =
        changes sampleTree emptyTree) ∧
      (∃ parsed, parseManifest manifest = some parsed ∧
        ∀ change, change ∈ parsed ↔ change ∈ changes emptyTree sampleTree) ∧
      (Readable sampleItems →
        readTreeState (fun _ => .ok (lsTree sampleItems)) sampleOid =
          .ok (leavesOf [] sampleItems)) ∧
      (¬Readable sampleItems →
        readTreeState (fun _ => .ok (lsTree sampleItems)) sampleOid =
          .error .unsupportedMode) :=
  canonicalManifest_readTreeState emptyTree sampleTree sampleTree emptyTree (by
      have isOid : isOid sampleOid = true := by decide
      simp [sampleItems, GitObject.WellFormed, WellFormedItems, isOid, TREE_MODE, js, codeUnits, isDigit]) rfl

end Manifests

end StudentHub.Reseed
