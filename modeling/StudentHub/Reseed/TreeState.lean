import StudentHub.Ecma.Buffer

/-!
# The state of a tree

The leaves of a git tree are read from the listing of the tree, which names the directories too:
a directory without a leaf would be lost silently, so it is refused.
-/

namespace StudentHub.Reseed

open Ecma JsString

/-- The name of a refusal; its code is the name behind `SHU71_RESEED_`. -/
inductive Refusal
  | resultShaMismatch
  | unexpectedTree
  | unsupportedMode
  | unexpectedPath
  deriving DecidableEq

structure Entry where
  path : List UInt8
  mode : JsString
  oid : JsString
  deriving DecidableEq

def isOid (text : JsString) : Bool := matchesClasses (List.replicate 40 isLowerHex) text

def MODES : List JsString := [js "100644", js "100755", js "120000"]

def TREE_MODE : JsString := js "040000"

def requireOid (value : JsString) : Except Refusal Unit :=
  if isOid value then .ok () else .error .resultShaMismatch

/-- One entry of the listing, up to its NUL: mode, type and object, then a tab and the path. -/
def readLine (line : List UInt8) : Except Refusal Entry :=
  let head := line.takeWhile (· ≠ 9)
  if head.length = line.length then
    .error .unexpectedTree
  else
    let fields := (Buffer.asciiText head).splitOn 32
    let mode := fields.headD []
    let type := fields[1]?
    let oid := fields[2]?.getD (js "undefined")
    if mode ≠ TREE_MODE ∧ mode ∉ MODES then
      .error .unsupportedMode
    else if type ≠ some (if mode = TREE_MODE then js "tree" else js "blob") ∨ isOid oid = false then
      .error .unexpectedTree
    else
      .ok ⟨line.drop (head.length + 1), mode, oid⟩

def readEntries (bytes : List UInt8) : Except Refusal (List Entry) :=
  if bytes = [] then
    .ok []
  else
    let line := bytes.takeWhile (· ≠ 0)
    if line.length = bytes.length then
      .error .unexpectedTree
    else do
      let entry ← readLine line
      let entries ← readEntries (bytes.drop (line.length + 1))
      .ok (entry :: entries)
termination_by bytes.length
decreasing_by
  rename_i present _
  have some := List.length_pos_of_ne_nil present
  simp only [List.length_drop]
  omega

def Entry.isTree (entry : Entry) : Bool := entry.mode = TREE_MODE

def hasLeafBelow (entries : List Entry) (directory : Entry) : Bool :=
  entries.any fun entry => !entry.isTree && (directory.path ++ [47]).isPrefixOf entry.path

/-- `git` lists the tree with `-r -t -z --full-tree`. -/
def readTreeState (git : JsString → Except Refusal (List UInt8)) (tree : JsString) :
    Except Refusal (List Entry) := do
  requireOid tree
  let bytes ← git tree
  let entries ← readEntries bytes
  if entries.any fun entry => entry.isTree && !hasLeafBelow entries entry then
    .error .unsupportedMode
  else
    .ok (entries.filter fun entry => !entry.isTree)

inductive GitObject
  | leaf (mode oid : JsString)
  | tree (oid : JsString) (items : List (List UInt8 × GitObject))

def leafType (mode : JsString) : JsString := if mode = js "160000" then js "commit" else js "blob"

structure Row where
  type : JsString
  entry : Entry

mutual

/-- The object and, behind a directory, all that is in it. -/
def rows (path : List UInt8) : GitObject → List Row
  | .leaf mode oid => [⟨leafType mode, ⟨path, mode, oid⟩⟩]
  | .tree oid items => ⟨js "tree", ⟨path, TREE_MODE, oid⟩⟩ :: rowsOf (path ++ [47]) items

def rowsOf (front : List UInt8) : List (List UInt8 × GitObject) → List Row
  | [] => []
  | (name, object) :: rest => rows (front ++ name) object ++ rowsOf front rest

end

def asciiBytes (text : JsString) : List UInt8 := text.map fun unit => unit.toNat.toUInt8

def Row.line (row : Row) : List UInt8 :=
  asciiBytes ((js " ").intercalate [row.entry.mode, row.type, row.entry.oid]) ++ 9 :: row.entry.path

/-- `git ls-tree -r -t -z --full-tree` -/
def lsTree (items : List (List UInt8 × GitObject)) : List UInt8 :=
  Terminated.write 0 ((rowsOf [] items).map Row.line)

mutual

def leaves (path : List UInt8) : GitObject → List Entry
  | .leaf mode oid => [⟨path, mode, oid⟩]
  | .tree _ items => leavesOf (path ++ [47]) items

def leavesOf (front : List UInt8) : List (List UInt8 × GitObject) → List Entry
  | [] => []
  | (name, object) :: rest => leaves (front ++ name) object ++ leavesOf front rest

end

mutual

/-- What git writes: names without a slash or a NUL, each once in its directory, modes of digits,
objects by their SHA-1 names. -/
def GitObject.WellFormed : GitObject → Prop
  | .leaf mode oid => (mode ≠ TREE_MODE ∧ ∀ unit ∈ mode, isDigit unit = true) ∧ isOid oid = true
  | .tree oid items => isOid oid = true ∧ (items.map Prod.fst).Nodup ∧ WellFormedItems items

def WellFormedItems : List (List UInt8 × GitObject) → Prop
  | [] => True
  | (name, object) :: rest => (0 ∉ name ∧ 47 ∉ name) ∧ object.WellFormed ∧ WellFormedItems rest

end

mutual

def GitObject.Full : GitObject → Prop
  | .leaf _ _ => True
  | .tree _ items => leavesOf [] items ≠ [] ∧ FullItems items

def FullItems : List (List UInt8 × GitObject) → Prop
  | [] => True
  | (_, object) :: rest => object.Full ∧ FullItems rest

end

section Lines

variable {row : Row} {listed : List Row} {text : JsString}

/-- A line as git writes it. -/
structure Row.Sound (row : Row) : Prop where
  mode : ∀ unit ∈ row.entry.mode, isDigit unit = true
  type : row.type = if row.entry.mode = TREE_MODE then js "tree" else leafType row.entry.mode
  oid : isOid row.entry.oid = true
  path : 0 ∉ row.entry.path

def Row.Supported (row : Row) : Prop := row.entry.mode = TREE_MODE ∨ row.entry.mode ∈ MODES

instance (row : Row) : Decidable row.Supported := inferInstanceAs (Decidable (_ ∨ _))

def isLineUnit (unit : UInt16) : Bool := 32 ≤ unit && unit ≤ 122

theorem asciiText_asciiBytes (plain : ∀ unit ∈ text, isLineUnit unit = true) :
    Buffer.asciiText (asciiBytes text) = text := by
  rw [Buffer.asciiText, asciiBytes, List.map_map]
  apply (List.map_congr_left _).trans (List.map_id _)
  intro unit unitMem
  have small := plain unit unitMem
  simp only [isLineUnit, Bool.and_eq_true, decide_eq_true_eq, UInt16.le_iff_toNat_le,
    UInt16.reduceToNat] at small
  have isByte : unit.toNat.toUInt8.toNat = unit.toNat := Buffer.toNat_toUInt8 (by omega)
  simp only [Function.comp_apply, id_eq, isByte]
  rw [Nat.mod_eq_of_lt (by omega), Nat.toUInt16, UInt16.ofNat_toNat]

theorem notMem_asciiBytes {byte : UInt8} (control : byte.toNat < 32)
    (plain : ∀ unit ∈ text, isLineUnit unit = true) : byte ∉ asciiBytes text := by
  intro byteMem
  rcases List.mem_map.mp byteMem with ⟨unit, unitMem, rfl⟩
  have small := plain unit unitMem
  simp only [isLineUnit, Bool.and_eq_true, decide_eq_true_eq, UInt16.le_iff_toNat_le,
    UInt16.reduceToNat] at small
  rw [Buffer.toNat_toUInt8 (by omega)] at control
  omega

theorem isLineUnit_of_isLowerHex {unit : UInt16} (hex : isLowerHex unit = true) :
    isLineUnit unit = true ∧ unit ≠ 32 := by
  simp only [isLowerHex, isDigit, Bool.or_eq_true, Bool.and_eq_true, decide_eq_true_eq,
    UInt16.le_iff_toNat_le, UInt16.reduceToNat] at hex
  simp only [isLineUnit, Bool.and_eq_true, decide_eq_true_eq, UInt16.le_iff_toNat_le,
    UInt16.reduceToNat, ne_eq, ← UInt16.toNat_inj]
  omega

theorem Row.Sound.fields (sound : row.Sound) :
    ∀ field ∈ [row.entry.mode, row.type, row.entry.oid], ∀ unit ∈ field,
      isLineUnit unit = true ∧ unit ≠ 32 := by
  have digits : ∀ unit ∈ row.entry.mode, isLineUnit unit = true ∧ unit ≠ 32 :=
    fun unit unitMem => isLineUnit_of_isLowerHex (by rw [isLowerHex, sound.mode unit unitMem]; rfl)
  have hex : ∀ unit ∈ row.entry.oid, isLineUnit unit = true ∧ unit ≠ 32 := by
    intro unit unitMem
    rcases mem_of_matchesClasses sound.oid unitMem with ⟨fits, fitsMem, isHex⟩
    rw [List.eq_of_mem_replicate fitsMem] at isHex
    exact isLineUnit_of_isLowerHex isHex
  have types : ∀ unit ∈ row.type, isLineUnit unit = true ∧ unit ≠ 32 := by
    rw [sound.type, leafType]
    split_ifs <;> simp [js, codeUnits, isLineUnit]
  simp only [List.forall_mem_cons, List.not_mem_nil, false_imp_iff, implies_true, and_true]
  exact ⟨digits, types, hex⟩

theorem Row.Sound.plain (sound : row.Sound) :
    ∀ unit ∈ (js " ").intercalate [row.entry.mode, row.type, row.entry.oid],
      isLineUnit unit = true := by
  have fields := sound.fields
  simp only [List.forall_mem_cons, List.not_mem_nil, false_imp_iff, implies_true, and_true] at fields
  have space : ∀ unit ∈ js " ", isLineUnit unit = true := List.all_eq_true.mp (by decide)
  simp only [List.intercalate, List.intersperse, List.flatten_cons, List.flatten_nil,
    List.append_nil, List.mem_append]
  rintro unit (inMode | inSpace | inType | inSpace | inOid)
  · exact (fields.1 unit inMode).1
  · exact space unit inSpace
  · exact (fields.2.1 unit inType).1
  · exact space unit inSpace
  · exact (fields.2.2 unit inOid).1

theorem Row.Sound.notMem_line (sound : row.Sound) : 0 ∉ row.line := by
  rw [Row.line, List.mem_append, List.mem_cons, not_or, not_or]
  exact ⟨notMem_asciiBytes (by decide) sound.plain, by decide, sound.path⟩

theorem Row.Sound.readLine (sound : row.Sound) : readLine row.line =
    if row.Supported then .ok row.entry else .error .unsupportedMode := by
  have head : row.line.takeWhile (· ≠ 9) =
      asciiBytes ((js " ").intercalate [row.entry.mode, row.type, row.entry.oid]) :=
    Terminated.takeWhile_append (notMem_asciiBytes (by decide) sound.plain)
  have fields : (Buffer.asciiText (row.line.takeWhile (· ≠ 9))).splitOn 32 =
      [row.entry.mode, row.type, row.entry.oid] := by
    rw [head, asciiText_asciiBytes sound.plain]
    apply List.splitOn_intercalate
    · exact fun field fieldMem spaceMem => (sound.fields field fieldMem 32 spaceMem).2 rfl
    · simp
  have shorter : (row.line.takeWhile (· ≠ 9)).length ≠ row.line.length := by
    rw [head, Row.line, List.length_append, List.length_cons]
    omega
  have path : row.line.drop ((row.line.takeWhile (· ≠ 9)).length + 1) = row.entry.path := by
    rw [head, Row.line, List.drop_append]
    simp
  simp only [Reseed.readLine]
  rw [if_neg shorter, fields, path]
  simp only [List.headD_cons, List.getElem?_cons_succ, List.getElem?_cons_zero, Option.getD_some,
    sound.oid, Bool.true_eq_false, or_false]
  by_cases supported : row.Supported
  · have isType : row.type = if row.entry.mode = TREE_MODE then js "tree" else js "blob" := by
      rw [sound.type, leafType]
      split_ifs with isTree isLink
      · rfl
      · have inModes := supported.resolve_left isTree
        rw [isLink] at inModes
        exact absurd inModes (by decide)
      · rfl
    rw [if_neg (fun refused => supported.elim refused.1 refused.2),
      if_neg (fun wrong => wrong (congrArg some isType)), if_pos supported]
  · rw [if_pos (not_or.mp supported), if_neg supported]

theorem readEntries_write (sound : ∀ row ∈ listed, row.Sound) :
    readEntries (Terminated.write 0 (listed.map Row.line)) =
      if ∀ row ∈ listed, row.Supported then .ok (listed.map Row.entry)
      else .error .unsupportedMode := by
  induction listed with
  | nil => simp [Terminated.write, readEntries]
  | cons row listed ih =>
      rw [List.forall_mem_cons] at sound
      have text : Terminated.write 0 ((row :: listed).map Row.line) =
          row.line ++ 0 :: Terminated.write 0 (listed.map Row.line) := by
        simp [Terminated.write]
      have line := @Terminated.takeWhile_append _ _ 0 row.line
        (Terminated.write 0 (listed.map Row.line)) sound.1.notMem_line
      rw [text, readEntries, if_neg (by simp)]
      simp only [line]
      rw [if_neg (by simp), sound.1.readLine]
      have others : (row.line ++ 0 :: Terminated.write 0 (listed.map Row.line)).drop
          (row.line.length + 1) = Terminated.write 0 (listed.map Row.line) := by
        rw [List.drop_append]
        simp
      rw [others, ih sound.2]
      by_cases supported : row.Supported
      · by_cases below : ∀ row ∈ listed, row.Supported
        · rw [if_pos supported, if_pos below, if_pos (List.forall_mem_cons.mpr ⟨supported, below⟩)]
          rfl
        · rw [if_pos supported, if_neg below,
            if_neg fun every => below (List.forall_mem_cons.mp every).2]
          rfl
      · rw [if_neg supported, if_neg fun every => supported (List.forall_mem_cons.mp every).1]
        rfl

end Lines

section Rows

theorem notMem_append_slash {path : List UInt8} (clean : 0 ∉ path) : 0 ∉ path ++ [47] := by
  simp only [List.mem_append, List.mem_singleton, not_or]
  exact ⟨clean, by decide⟩

mutual

theorem sound_rows (object : GitObject) (path : List UInt8) (wellFormed : object.WellFormed)
    (clean : 0 ∉ path) : ∀ row ∈ rows path object, row.Sound := by
  match object with
  | .leaf mode oid =>
      simp only [GitObject.WellFormed] at wellFormed
      simp only [rows, List.forall_mem_singleton]
      exact ⟨wellFormed.1.2, (if_neg wellFormed.1.1).symm, wellFormed.2, clean⟩
  | .tree oid items =>
      simp only [GitObject.WellFormed] at wellFormed
      simp only [rows, List.forall_mem_cons]
      refine ⟨⟨?_, ?_, wellFormed.1, clean⟩, ?_⟩
      · simp [TREE_MODE, js, codeUnits, isDigit]
      · simp
      · exact sound_rowsOf items _ wellFormed.2.2 (notMem_append_slash clean)

theorem sound_rowsOf (items : List (List UInt8 × GitObject)) (front : List UInt8)
    (wellFormed : WellFormedItems items) (clean : 0 ∉ front) :
    ∀ row ∈ rowsOf front items, row.Sound := by
  match items with
  | [] => simp [rowsOf]
  | (name, object) :: rest =>
      simp only [WellFormedItems] at wellFormed
      simp only [rowsOf, List.forall_mem_append]
      refine ⟨?_, sound_rowsOf rest _ wellFormed.2.2 clean⟩
      apply sound_rows object _ wellFormed.2.1
      rw [List.mem_append, not_or]
      exact ⟨clean, wellFormed.1.1⟩

end

mutual

theorem filter_rows (object : GitObject) (path : List UInt8) (wellFormed : object.WellFormed) :
    ((rows path object).map Row.entry).filter (fun entry => !entry.isTree) = leaves path object := by
  match object with
  | .leaf mode oid =>
      simp only [GitObject.WellFormed] at wellFormed
      simp [rows, leaves, Entry.isTree, wellFormed.1.1]
  | .tree oid items =>
      simp only [GitObject.WellFormed] at wellFormed
      simp only [rows, leaves, List.map_cons]
      rw [List.filter_cons_of_neg (by simp [Entry.isTree])]
      exact filter_rowsOf items _ wellFormed.2.2

theorem filter_rowsOf (items : List (List UInt8 × GitObject)) (front : List UInt8)
    (wellFormed : WellFormedItems items) :
    ((rowsOf front items).map Row.entry).filter (fun entry => !entry.isTree) =
      leavesOf front items := by
  match items with
  | [] => rfl
  | (name, object) :: rest =>
      simp only [WellFormedItems] at wellFormed
      simp only [rowsOf, leavesOf, List.map_append, List.filter_append]
      rw [filter_rows object _ wellFormed.2.1, filter_rowsOf rest _ wellFormed.2.2]

end

mutual

theorem path_of_mem_leaves (object : GitObject) (path : List UInt8) :
    ∀ entry ∈ leaves path object, entry.path = path ∨ path ++ [47] <+: entry.path := by
  match object with
  | .leaf mode oid =>
      simp only [leaves, List.forall_mem_singleton]
      exact .inl trivial
  | .tree oid items =>
      intro entry entryMem
      rcases path_of_mem_leavesOf items _ entry entryMem with ⟨item, _, _, below⟩
      exact .inr ((List.prefix_append _ _).trans below)

theorem path_of_mem_leavesOf (items : List (List UInt8 × GitObject)) (front : List UInt8) :
    ∀ entry ∈ leavesOf front items, ∃ item ∈ items, entry ∈ leaves (front ++ item.1) item.2 ∧
      front ++ item.1 <+: entry.path := by
  match items with
  | [] => simp [leavesOf]
  | (name, object) :: rest =>
      simp only [leavesOf, List.forall_mem_append]
      constructor
      · intro entry entryMem
        refine ⟨(name, object), List.mem_cons_self, entryMem, ?_⟩
        rcases path_of_mem_leaves object _ entry entryMem with same | below
        · exact same ▸ List.prefix_rfl
        · exact (List.prefix_append _ _).trans below
      · intro entry entryMem
        rcases path_of_mem_leavesOf rest front entry entryMem with ⟨item, itemMem, found⟩
        exact ⟨item, List.mem_cons_of_mem _ itemMem, found⟩

end

mutual

theorem length_leaves (object : GitObject) (path path' : List UInt8) :
    (leaves path object).length = (leaves path' object).length := by
  match object with
  | .leaf mode oid => rfl
  | .tree oid items => exact length_leavesOf items _ _

theorem length_leavesOf (items : List (List UInt8 × GitObject)) (front front' : List UInt8) :
    (leavesOf front items).length = (leavesOf front' items).length := by
  match items with
  | [] => rfl
  | (name, object) :: rest =>
      simp only [leavesOf, List.length_append]
      rw [length_leaves object _ (front' ++ name), length_leavesOf rest front front']

end

theorem mem_leavesOf {items : List (List UInt8 × GitObject)} {front : List UInt8}
    {item : List UInt8 × GitObject} (itemMem : item ∈ items) :
    ∀ entry ∈ leaves (front ++ item.1) item.2, entry ∈ leavesOf front items := by
  intro entry entryMem
  induction items with
  | nil => cases itemMem
  | cons first rest ih =>
      simp only [leavesOf, List.mem_append]
      rcases List.mem_cons.mp itemMem with rfl | inRest
      · exact .inl entryMem
      · exact .inr (ih inRest)

theorem wellFormed_of_mem {items : List (List UInt8 × GitObject)}
    (wellFormed : WellFormedItems items) : ∀ item ∈ items, 47 ∉ item.1 ∧ item.2.WellFormed := by
  induction items with
  | nil => simp
  | cons item rest ih =>
      simp only [WellFormedItems] at wellFormed
      simp only [List.forall_mem_cons]
      exact ⟨⟨wellFormed.1.2, wellFormed.2.1⟩, ih wellFormed.2.2⟩

end Rows

section Fullness

variable {E : List Entry} {path front : List UInt8} {items : List (List UInt8 × GitObject)}

structure Holds (E : List Entry) (path : List UInt8) (object : GitObject) : Prop where
  below : ∀ entry ∈ E, path ++ [47] <+: entry.path → entry ∈ leaves path object
  leaves : ∀ entry ∈ leaves path object, entry ∈ E

theorem eq_of_prefix {name name' text : List UInt8} (plain : 47 ∉ name) (plain' : 47 ∉ name')
    (below : name ++ [47] <+: text) (below' : name' ++ [47] <+: text) : name = name' := by
  have reads : ∀ {name}, 47 ∉ name → name ++ [47] <+: text → text.takeWhile (· ≠ 47) = name := by
    rintro name plain ⟨others, rfl⟩
    rw [List.append_assoc]
    exact Terminated.takeWhile_append plain
  exact (reads plain below).symm.trans (reads plain' below')

theorem holds_items (wellFormed : WellFormedItems items) (distinct : (items.map Prod.fst).Nodup)
    (below : ∀ entry ∈ E, front <+: entry.path → entry ∈ leavesOf front items)
    (all : ∀ entry ∈ leavesOf front items, entry ∈ E) :
    ∀ item ∈ items, Holds E (front ++ item.1) item.2 := by
  intro item itemMem
  refine ⟨?_, fun entry entryMem => all entry (mem_leavesOf itemMem entry entryMem)⟩
  intro entry entryMem inside
  rw [List.append_assoc] at inside
  have inFront := below entry entryMem ((List.prefix_append _ _).trans inside)
  rcases path_of_mem_leavesOf items front entry inFront with ⟨item', itemMem', found, -⟩
  have plain := (wellFormed_of_mem wellFormed item itemMem).1
  have plain' := (wellFormed_of_mem wellFormed item' itemMem').1
  have sameName : item.1 = item'.1 := by
    rcases path_of_mem_leaves item'.2 _ entry found with same | inside'
    · rw [same, List.prefix_append_right_inj] at inside
      exact absurd (inside.subset (by simp)) plain'
    · rw [List.append_assoc] at inside'
      rcases inside with ⟨others, isPath⟩
      rw [← isPath, List.append_assoc, List.prefix_append_right_inj] at inside'
      exact eq_of_prefix plain plain' (List.prefix_append _ _) inside'
  rwa [List.inj_on_of_nodup_map distinct itemMem itemMem' sameName]

theorem hasLeafBelow_iff {entries : List Entry} {directory : Entry} :
    hasLeafBelow entries directory = true ↔
      ∃ entry ∈ entries.filter (fun entry => !entry.isTree),
        directory.path ++ [47] <+: entry.path := by
  simp only [hasLeafBelow, List.any_eq_true, Bool.and_eq_true, List.isPrefixOf_iff_prefix,
    List.mem_filter, and_assoc]

mutual

theorem full_iff (object : GitObject) (path : List UInt8) (wellFormed : object.WellFormed)
    (holds : Holds E path object) :
    (∀ row ∈ rows path object, row.entry.isTree = true →
      ∃ entry ∈ E, row.entry.path ++ [47] <+: entry.path) ↔ object.Full := by
  match object with
  | .leaf mode oid =>
      simp only [GitObject.WellFormed] at wellFormed
      simp [rows, Entry.isTree, wellFormed.1.1, GitObject.Full]
  | .tree oid items =>
      simp only [GitObject.WellFormed] at wellFormed
      simp only [rows, List.forall_mem_cons, GitObject.Full]
      apply and_congr
      · have sameLength := length_leavesOf items (path ++ [47]) []
        rw [← List.length_pos_iff, ← sameLength, List.length_pos_iff_exists_mem]
        constructor
        · intro exists_
          rcases exists_ (by simp [Entry.isTree]) with ⟨entry, entryMem, below⟩
          exact ⟨entry, holds.below entry entryMem below⟩
        · rintro ⟨entry, entryMem⟩ -
          refine ⟨entry, holds.leaves entry entryMem, ?_⟩
          rcases path_of_mem_leavesOf items _ entry entryMem with ⟨item, -, -, below⟩
          exact (List.prefix_append _ _).trans below
      · exact full_iff_items items _ wellFormed.2.2
          (holds_items wellFormed.2.2 wellFormed.2.1 holds.below holds.leaves)

theorem full_iff_items (items : List (List UInt8 × GitObject)) (front : List UInt8)
    (wellFormed : WellFormedItems items)
    (holds : ∀ item ∈ items, Holds E (front ++ item.1) item.2) :
    (∀ row ∈ rowsOf front items, row.entry.isTree = true →
      ∃ entry ∈ E, row.entry.path ++ [47] <+: entry.path) ↔ FullItems items := by
  match items with
  | [] => simp [rowsOf, FullItems]
  | (name, object) :: rest =>
      simp only [WellFormedItems] at wellFormed
      rw [List.forall_mem_cons] at holds
      simp only [rowsOf, List.forall_mem_append, FullItems]
      exact and_congr (full_iff object _ wellFormed.2.1 holds.1)
        (full_iff_items rest front wellFormed.2.2 holds.2)

end

end Fullness

section State

variable {git : JsString → Except Refusal (List UInt8)} {tree : JsString}
  {items : List (List UInt8 × GitObject)}

theorem supported_iff (wellFormed : WellFormedItems items) :
    (∀ row ∈ rowsOf [] items, row.Supported) ↔ ∀ entry ∈ leavesOf [] items, entry.mode ∈ MODES := by
  rw [← filter_rowsOf items [] wellFormed]
  simp only [List.mem_filter, List.mem_map, Bool.not_eq_true', Row.Supported]
  constructor
  · rintro every entry ⟨⟨row, rowMem, rfl⟩, isLeaf⟩
    exact (every row rowMem).resolve_left (by simpa [Entry.isTree] using isLeaf)
  · intro every row rowMem
    by_cases isTree : row.entry.mode = TREE_MODE
    · exact .inl isTree
    · exact .inr (every row.entry ⟨⟨row, rowMem, rfl⟩, by simpa [Entry.isTree] using isTree⟩)

/-- No gitlink, no other unsupported mode and no directory without a leaf. -/
def Readable (items : List (List UInt8 × GitObject)) : Prop :=
  (∀ entry ∈ leavesOf [] items, entry.mode ∈ MODES) ∧ FullItems items

theorem readTreeState_lsTree (wellFormed : (GitObject.tree tree items).WellFormed)
    (listed : git tree = .ok (lsTree items)) :
    (Readable items → readTreeState git tree = .ok (leavesOf [] items)) ∧
    (¬Readable items → readTreeState git tree = .error .unsupportedMode) := by
  simp only [GitObject.WellFormed] at wellFormed
  rcases wellFormed with ⟨oid, distinct, wellFormed⟩
  have read := readEntries_write (sound_rowsOf items [] wellFormed List.not_mem_nil)
  have isLeaves := filter_rowsOf items [] wellFormed
  have holds : ∀ item ∈ items, Holds (leavesOf [] items) ([] ++ item.1) item.2 :=
    holds_items wellFormed distinct (fun entry entryMem _ => entryMem) fun entry entryMem => entryMem
  have full := full_iff_items items [] wellFormed holds
  have refuses : (((rowsOf [] items).map Row.entry).any fun entry =>
      entry.isTree && !hasLeafBelow ((rowsOf [] items).map Row.entry) entry) = true ↔
      ¬FullItems items := by
    rw [← full]
    simp only [List.any_eq_true, Bool.and_eq_true, Bool.not_eq_true', ← Bool.not_eq_true,
      hasLeafBelow_iff, isLeaves, List.mem_map, not_forall, exists_prop]
    constructor
    · rintro ⟨_, ⟨row, rowMem, rfl⟩, isTree, noLeaf⟩
      exact ⟨row, rowMem, isTree, noLeaf⟩
    · rintro ⟨row, rowMem, isTree, noLeaf⟩
      exact ⟨_, ⟨row, rowMem, rfl⟩, isTree, noLeaf⟩
  rw [readTreeState, requireOid, if_pos oid, listed, Readable, ← supported_iff wellFormed]
  simp only [bind, Except.bind, lsTree]
  rw [read]
  by_cases supported : ∀ row ∈ rowsOf [] items, row.Supported
  · rw [if_pos supported]
    dsimp only
    rw [isLeaves]
    constructor
    · intro fine
      rw [if_neg (fun refused => refuses.mp refused fine.2)]
    · intro notFine
      rw [if_pos (refuses.mpr fun fullItems => notFine ⟨supported, fullItems⟩)]
  · rw [if_neg supported]
    exact ⟨fun fine => absurd fine.1 supported, fun _ => rfl⟩

end State

end StudentHub.Reseed
