import StudentHub.Ecma.NumberOrder
import StudentHub.Order.FittingSuffix
import StudentHub.Order.Terminated

/-!
# The tail of a log

The last lines of a log that comes in chunks are kept, as many as fit. A line that is too long is
dropped up to its end when a chunk ends in it.
-/

namespace StudentHub.CardRepair

open Ecma JsString FittingSuffix

/-- `Buffer.byteLength(text)` -/
def byteLength (text : JsString) : ℕ := text.toUtf8.byteLength

/-- `bytes > maxBytes` -/
def exceeds (maxBytes : JsNumber) (bytes : ℕ) : Bool :=
  match maxBytes with
  | .nan => false
  | .infinity negative => negative
  | .finite number => decide (number.value < bytes)

/-- The lines that are kept and their bytes, the part of a line that has come so far, and whether
it is too long. -/
structure LineTail where
  lines : List JsString
  bytes : ℕ
  carry : JsString
  overlong : Bool

def createLineTail : LineTail := ⟨[], 0, [], false⟩

/-- The loop of `keep` that takes lines away at the front. -/
def shift (maxBytes : JsNumber) : List JsString → ℕ → List JsString × ℕ
  | [], bytes => ([], bytes)
  | line :: rest, bytes =>
      if exceeds maxBytes bytes then shift maxBytes rest (bytes - (byteLength line + 1))
      else (line :: rest, bytes)

namespace LineTail

def keep (maxBytes : JsNumber) (tail : LineTail) (line : JsString) : LineTail :=
  let (lines, bytes) := shift maxBytes (tail.lines ++ [line]) (tail.bytes + (byteLength line + 1))
  { tail with lines, bytes }

def pushPart (maxBytes : JsNumber) (tail : LineTail) (part : JsString) : LineTail :=
  if tail.overlong then { tail with overlong := false } else tail.keep maxBytes part

def push (maxBytes : JsNumber) (tail : LineTail) (text : JsString) : LineTail :=
  let parts := (tail.carry ++ text).splitOn 10
  let after := parts.dropLast.foldl (pushPart maxBytes)
    { tail with carry := parts.getLast?.getD [] }
  if exceeds maxBytes (byteLength after.carry) then { after with carry := [], overlong := true }
  else after

def finish (maxBytes : JsNumber) (tail : LineTail) : List JsString :=
  if tail.carry ≠ [] ∧ tail.overlong = false then (tail.keep maxBytes tail.carry).lines
  else tail.lines

end LineTail

def lineTail (maxBytes : JsNumber) (chunks : List JsString) : List JsString :=
  (chunks.foldl (LineTail.push maxBytes) createLineTail).finish maxBytes

def linesOf (text : JsString) : List JsString :=
  (text.splitOn 10).dropLast ++ ((text.splitOn 10).getLast?.filter (· ≠ [])).toList

def lineSize (line : JsString) : ℕ := byteLength line + 1

def tooLong (maxBytes : JsNumber) (line : JsString) : Bool := exceeds maxBytes (byteLength line)

theorem exceeds_mono (maxBytes : JsNumber) {small large : ℕ} (below : small ≤ large)
    (beyond : exceeds maxBytes small = true) : exceeds maxBytes large = true := by
  cases maxBytes with
  | nan => cases beyond
  | infinity negative => exact beyond
  | finite number =>
      rw [exceeds, decide_eq_true_eq] at beyond ⊢
      have cast : (small : ℚ) ≤ large := by exact_mod_cast below
      exact lt_of_lt_of_le beyond cast

def short (maxBytes : JsNumber) (lines : List JsString) : List JsString :=
  lines.filter fun line => !tooLong maxBytes line

def byteLimit (maxBytes : JsNumber) : Limit := ⟨exceeds maxBytes, exceeds_mono maxBytes⟩

/-- The last lines that fit, of those that are not too long. -/
def wantedTail (maxBytes : JsNumber) (text : JsString) : List JsString :=
  fitting (byteLimit maxBytes) lineSize (short maxBytes (linesOf text))

/-- The lines that come to their end before the end of a chunk shows that they are too long: `part`
is the part of a line that has come before the chunks, and `known` that it was too long. -/
def handedOn (maxBytes : JsNumber) (part : JsString) (known : Bool) :
    List JsString → List JsString
  | [] => if part ≠ [] ∧ known = false then [part] else []
  | chunk :: chunks =>
      match (part ++ chunk).splitOn 10 with
      | [] => []
      | [same] => handedOn maxBytes same (known || tooLong maxBytes same) chunks
      | first :: more =>
          (if known then [] else [first]) ++ more.dropLast ++
            handedOn maxBytes (more.getLast?.getD [])
              (tooLong maxBytes (more.getLast?.getD [])) chunks

/-- The last short line before the last line that is too long does not fit with those after it. -/
def Spared (maxBytes : JsNumber) (lines : List JsString) : Prop :=
  ∀ before long after, lines = before ++ long :: after → tooLong maxBytes long = true →
    (∀ line ∈ after, tooLong maxBytes line = false) →
    ∀ last ∈ (short maxBytes before).getLast?,
      exceeds maxBytes (total lineSize (last :: after)) = true

def unitBytes (unit : UInt16) : ℕ :=
  if unit < 0x80 then 1 else if unit < 0x800 || isSurrogate unit then 2 else 3

theorem byteLength_eq (text : JsString) :
    byteLength text = (text.toWellFormed.map unitBytes).sum := rfl

theorem byteLength_le_append (text more : JsString) :
    byteLength text ≤ byteLength (text ++ more) := by
  rw [byteLength_eq, byteLength_eq]
  induction text using toWellFormed.induct with
  | case1 => exact Nat.zero_le _
  | case2 unit =>
      cases more with
      | nil => exact Nat.le_refl _
      | cons second rest =>
          rw [List.singleton_append, toWellFormed, toWellFormed]
          -- half of a pair is written as U+FFFD, of three bytes, and the pair in four
          split_ifs with replaced pair pair
          · rw [Bool.and_eq_true] at pair
            have four : unitBytes unit + unitBytes second = 4 := by
              have high : isSurrogate unit = true := by rw [isSurrogate, pair.1, Bool.true_or]
              have low : isSurrogate second = true := by rw [isSurrogate, pair.2, Bool.or_true]
              have notShort : ∀ {half : UInt16}, isSurrogate half = true → unitBytes half = 2 := by
                intro half isHalf
                have above : ¬half < 0x80 := by
                  intro below
                  simp only [isSurrogate, isHighSurrogate, isLowSurrogate, Bool.or_eq_true,
                    Bool.and_eq_true, decide_eq_true_eq] at isHalf
                  rw [UInt16.lt_iff_toNat_lt] at below
                  simp only [UInt16.le_iff_toNat_le] at isHalf
                  have bounds : (0x80 : UInt16).toNat = 128 ∧ (0xD800 : UInt16).toNat = 55296 ∧
                      (0xDC00 : UInt16).toNat = 56320 := by decide
                  omega
                rw [unitBytes, if_neg above, isHalf, Bool.or_true, if_pos rfl]
              rw [notShort high, notShort low]
            have three : unitBytes 0xFFFD = 3 := by decide
            simp only [List.map_cons, List.map_nil, List.sum_cons, List.sum_nil]
            omega
          · simp
          · rw [Bool.and_eq_true] at pair
            simp [pair.1] at replaced
          · simp
  | case3 first second rest pair shorter =>
      rw [List.cons_append, List.cons_append, toWellFormed, toWellFormed, if_pos pair, if_pos pair]
      simp only [List.map_cons, List.sum_cons]
      omega
  | case4 first second rest single shorter =>
      rw [List.cons_append, List.cons_append, toWellFormed, toWellFormed, if_neg single,
        if_neg single]
      simp only [List.map_cons, List.sum_cons]
      rw [List.cons_append] at shorter
      omega

theorem tooLong_append {maxBytes : JsNumber} {part more : JsString}
    (long : tooLong maxBytes part = true) : tooLong maxBytes (part ++ more) = true :=
  exceeds_mono maxBytes (byteLength_le_append part more) long

theorem splitOn_of_notMem {part : JsString} (open' : 10 ∉ part) : part.splitOn 10 = [part] := by
  apply List.splitOnP_eq_singleton
  intro unit unitMem
  rw [beq_eq_false_iff_ne]
  rintro rfl
  exact open' unitMem

theorem splitOn_cons (unit : UInt16) (rest : JsString) : (unit :: rest).splitOn 10 =
    if unit = 10 then [] :: rest.splitOn 10 else (rest.splitOn 10).modifyHead (unit :: ·) := by
  simp only [List.splitOn, List.splitOnP_cons_eq_if_modifyHead, beq_iff_eq]

theorem splitOn_append (text more : JsString) : (text ++ more).splitOn 10 =
    (text.splitOn 10).dropLast ++ ((text.splitOn 10).getLast?.getD [] ++ more).splitOn 10 := by
  induction text with
  | nil => simp
  | cons unit rest ih =>
      cases pieces : rest.splitOn 10 with
      | nil => exact absurd pieces (List.splitOn_ne_nil _ _)
      | cons first later =>
          rw [pieces] at ih
          rw [List.cons_append, splitOn_cons, splitOn_cons, ih, pieces]
          cases later with
          | nil =>
              split_ifs
              · simp
              · have notBreak : unit ≠ 10 := by assumption
                simp [splitOn_cons, notBreak]
          | cons second later =>
              split_ifs
              · simp [List.getLast?_cons_cons]
              · simp [List.getLast?_cons_cons]

theorem linesOf_append (text more : JsString) : linesOf (text ++ more) =
    (text.splitOn 10).dropLast ++ linesOf ((text.splitOn 10).getLast?.getD [] ++ more) := by
  have present : ((text.splitOn 10).getLast?.getD [] ++ more).splitOn 10 ≠ [] :=
    List.splitOn_ne_nil _ _
  rw [linesOf, linesOf, splitOn_append, List.dropLast_append_of_ne_nil present,
    List.getLast?_append_of_ne_nil _ present, List.append_assoc]

section Loops

variable {maxBytes : JsNumber} {tail : LineTail} {done : List JsString}

theorem shift_eq (lines : List JsString) : shift maxBytes lines (total lineSize lines) =
    (fitting (byteLimit maxBytes) lineSize lines,
      total lineSize (fitting (byteLimit maxBytes) lineSize lines)) := by
  induction lines with
  | nil => rfl
  | cons line rest ih =>
      rw [shift, fitting]
      have beyond : (byteLimit maxBytes).exceeded (total lineSize (line :: rest)) =
          exceeds maxBytes (total lineSize (line :: rest)) := rfl
      rw [beyond]
      split_ifs
      · rw [total_cons, ← lineSize, Nat.add_sub_cancel_left, ih]
      · rfl

/-- The kept lines are the last ones that fit of those that have been handed on. -/
def Keeps (maxBytes : JsNumber) (tail : LineTail) (done : List JsString) : Prop :=
  tail.lines = fitting (byteLimit maxBytes) lineSize done ∧ tail.bytes = total lineSize tail.lines

theorem Keeps.keep (keeps : Keeps maxBytes tail done) (line : JsString) :
    Keeps maxBytes (tail.keep maxBytes line) (done ++ [line]) := by
  have bytes : tail.bytes + (byteLength line + 1) = total lineSize (tail.lines ++ [line]) := by
    rw [keeps.2, total_append]
    rfl
  refine ⟨?_, ?_⟩
  · rw [LineTail.keep, bytes, shift_eq, keeps.1, fitting_fitting_append]
  · rw [LineTail.keep, bytes, shift_eq]

theorem Keeps.parts (keeps : Keeps maxBytes tail done) (parts : List JsString)
    (short : tail.overlong = false) :
    Keeps maxBytes (parts.foldl (LineTail.pushPart maxBytes) tail) (done ++ parts) ∧
      (parts.foldl (LineTail.pushPart maxBytes) tail).carry = tail.carry ∧
      (parts.foldl (LineTail.pushPart maxBytes) tail).overlong = false := by
  induction parts generalizing tail done with
  | nil => exact ⟨by simpa using keeps, rfl, short⟩
  | cons part parts ih =>
      have step : LineTail.pushPart maxBytes tail part = tail.keep maxBytes part := by
        rw [LineTail.pushPart, short]
        rfl
      have later := ih (keeps.keep part) short
      rw [List.append_assoc, List.singleton_append] at later
      rw [List.foldl_cons, step]
      exact later

theorem splitOn_append_of_notMem {part chunk first : JsString} {more : List JsString}
    (unbroken : 10 ∉ part) (pieces : chunk.splitOn 10 = first :: more) :
    (part ++ chunk).splitOn 10 = (part ++ first) :: more := by
  induction part with
  | nil => exact pieces
  | cons unit rest ih =>
      rw [List.mem_cons, not_or] at unbroken
      rw [List.cons_append, splitOn_cons, if_neg (Ne.symm unbroken.1), ih unbroken.2]
      rfl

/-- The loop has come to this part of a line, and knows that it is too long or has all of it. -/
structure Follows (maxBytes : JsNumber) (tail : LineTail) (done : List JsString) (part : JsString)
    (known : Bool) : Prop where
  keeps : Keeps maxBytes tail done
  overlong : tail.overlong = known
  carry : known = false → tail.carry = part
  unbroken : 10 ∉ part
  unbrokenCarry : 10 ∉ tail.carry

variable {part : JsString} {known : Bool}

theorem follows_of_measured (keeps : Keeps maxBytes tail done) (unbroken : 10 ∉ part)
    (unbrokenCarry : 10 ∉ tail.carry) (carry : tail.overlong = false → tail.carry = part) :
    Follows maxBytes
      (if exceeds maxBytes (byteLength tail.carry) then { tail with carry := [], overlong := true }
        else tail) done part (tail.overlong || tooLong maxBytes part) := by
  split_ifs with beyond
  · refine ⟨keeps, ?_, ?_, unbroken, List.not_mem_nil⟩
    · cases isOverlong : tail.overlong with
      | true => rfl
      | false =>
          rw [carry isOverlong] at beyond
          rw [tooLong, beyond]
          rfl
    · intro short
      rw [Bool.or_eq_false_iff] at short
      rw [carry short.1] at beyond
      rw [tooLong, beyond] at short
      cases short.2
  · refine ⟨keeps, ?_, ?_, unbroken, unbrokenCarry⟩
    · cases isOverlong : tail.overlong with
      | true => rfl
      | false =>
          rw [carry isOverlong, Bool.not_eq_true] at beyond
          rw [tooLong, beyond]
          rfl
    · intro short
      exact carry (Bool.or_eq_false_iff.mp short).1

theorem Follows.ends (follows : Follows maxBytes tail done part known) (first : JsString)
    (parts : List JsString) (last : JsString) :
    let after := (((tail.carry ++ first) :: parts).foldl (LineTail.pushPart maxBytes)
      { tail with carry := last })
    Keeps maxBytes after (done ++ ((if known then [] else [part ++ first]) ++ parts)) ∧
      after.carry = last ∧ after.overlong = false := by
  cases isKnown : known with
  | true =>
      have isOverlong : tail.overlong = true := follows.overlong.trans isKnown
      have step : LineTail.pushPart maxBytes { tail with carry := last } (tail.carry ++ first) =
          { tail with carry := last, overlong := false } := by
        rw [LineTail.pushPart, isOverlong]
        rfl
      rw [List.foldl_cons, step]
      exact @Keeps.parts _ { tail with carry := last, overlong := false } _ follows.keeps parts rfl
  | false =>
      rw [follows.carry isKnown]
      exact @Keeps.parts _ { tail with carry := last } _ follows.keeps ((part ++ first) :: parts)
        (follows.overlong.trans isKnown)

/-- The step lemma: a chunk goes on with the last line or ends it. -/
theorem Follows.push (follows : Follows maxBytes tail done part known) (chunk : JsString)
    (chunks : List JsString) : ∃ handed next isLong,
      Follows maxBytes (tail.push maxBytes chunk) (done ++ handed) next isLong ∧
        handedOn maxBytes part known (chunk :: chunks) =
          handed ++ handedOn maxBytes next isLong chunks := by
  have whole : ∀ piece ∈ (part ++ chunk).splitOn 10, 10 ∉ piece := fun _ => Terminated.notMem_of_mem_splitOn
  have mine : ∀ piece ∈ (tail.carry ++ chunk).splitOn 10, 10 ∉ piece :=
    fun _ => Terminated.notMem_of_mem_splitOn
  cases pieces : chunk.splitOn 10 with
  | nil => exact absurd pieces (List.splitOn_ne_nil _ _)
  | cons first more =>
      have wholePieces := splitOn_append_of_notMem follows.unbroken pieces
      have myPieces := splitOn_append_of_notMem follows.unbrokenCarry pieces
      rw [wholePieces] at whole
      rw [myPieces] at mine
      cases more with
      | nil =>
          refine ⟨[], part ++ first, known || tooLong maxBytes (part ++ first), ?_, ?_⟩
          · have measured := @follows_of_measured maxBytes { tail with carry := tail.carry ++ first }
              done (part ++ first) follows.keeps (whole _ List.mem_cons_self)
              (mine _ List.mem_cons_self) fun short => by
                rw [follows.carry (follows.overlong ▸ short)]
            rw [List.append_nil, LineTail.push, myPieces, ← follows.overlong]
            exact measured
          · rw [handedOn, wholePieces]
            rfl
      | cons second later =>
          have isLast : ((tail.carry ++ first) :: second :: later).getLast?.getD [] =
              (second :: later).getLast?.getD [] := by
            rw [List.getLast?_cons_cons]
          have inLast : (second :: later).getLast?.getD [] ∈ second :: later := by
            rw [List.getLast?_eq_some_getLast (List.cons_ne_nil _ _)]
            exact List.getLast_mem _
          have unbroken := whole _ (List.mem_cons_of_mem _ inLast)
          have ended := follows.ends first (second :: later).dropLast
            ((second :: later).getLast?.getD [])
          refine ⟨(if known then [] else [part ++ first]) ++ (second :: later).dropLast,
            (second :: later).getLast?.getD [],
            tooLong maxBytes ((second :: later).getLast?.getD []), ?_, ?_⟩
          · rw [LineTail.push, myPieces, isLast, List.dropLast_cons_of_ne_nil (List.cons_ne_nil _ _)]
            have measured := follows_of_measured ended.1 unbroken (by rw [ended.2.1]; exact unbroken)
              fun _ => ended.2.1
            rw [ended.2.2, Bool.false_or] at measured
            exact measured
          · rw [handedOn, wholePieces]

theorem Follows.finish (follows : Follows maxBytes tail done part known) (chunks : List JsString) :
    (chunks.foldl (LineTail.push maxBytes) tail).finish maxBytes =
      fitting (byteLimit maxBytes) lineSize (done ++ handedOn maxBytes part known chunks) := by
  induction chunks generalizing tail done part known with
  | nil =>
      have keeps := follows.keeps
      have isOverlong := follows.overlong
      rw [List.foldl_nil, LineTail.finish, handedOn]
      cases known with
      | true => simp [isOverlong, keeps.1]
      | false =>
          rw [follows.carry rfl]
          by_cases empty : part = []
          · simp [empty, keeps.1]
          · simp [empty, isOverlong, (keeps.keep part).1]
  | cons chunk chunks ih =>
      obtain ⟨handed, next, isLong, later, same⟩ := follows.push chunk chunks
      rw [List.foldl_cons, ih later, same, List.append_assoc]

end Loops

theorem lineTail_eq (maxBytes : JsNumber) (chunks : List JsString) : lineTail maxBytes chunks =
    fitting (byteLimit maxBytes) lineSize (handedOn maxBytes [] false chunks) := by
  have start : Follows maxBytes createLineTail [] [] false :=
    ⟨⟨rfl, rfl⟩, rfl, fun _ => rfl, List.not_mem_nil, List.not_mem_nil⟩
  exact start.finish chunks

section Short

variable {maxBytes : JsNumber}

theorem short_append (lines more : List JsString) :
    short maxBytes (lines ++ more) = short maxBytes lines ++ short maxBytes more :=
  List.filter_append _ _

theorem short_cons_of_long {line : JsString} (lines : List JsString)
    (long : tooLong maxBytes line = true) : short maxBytes (line :: lines) = short maxBytes lines := by
  rw [short, List.filter_cons_of_neg (by simp [long]), short]

theorem linesOf_of_notMem {part : JsString} (unbroken : 10 ∉ part) :
    linesOf part = if part = [] then [] else [part] := by
  rw [linesOf, splitOn_of_notMem unbroken]
  split_ifs with empty
  · simp [empty]
  · simp [empty]

theorem short_handedOn (chunks : List JsString) (part : JsString) (known : Bool)
    (unbroken : 10 ∉ part) (isLong : known = true → tooLong maxBytes part = true) :
    short maxBytes (handedOn maxBytes part known chunks) =
      short maxBytes (linesOf (part ++ chunks.flatten)) := by
  induction chunks generalizing part known with
  | nil =>
      rw [handedOn, List.flatten_nil, List.append_nil, linesOf_of_notMem unbroken]
      by_cases empty : part = []
      · simp [empty]
      · cases known with
        | true => rw [if_neg (by simp), if_neg empty, short_cons_of_long _ (isLong rfl)]
        | false => rw [if_pos ⟨empty, rfl⟩, if_neg empty]
  | cons chunk chunks ih =>
      have whole : ∀ piece ∈ (part ++ chunk).splitOn 10, 10 ∉ piece :=
        fun _ => Terminated.notMem_of_mem_splitOn
      rw [List.flatten_cons, ← List.append_assoc, linesOf_append, handedOn]
      cases pieces : chunk.splitOn 10 with
      | nil => exact absurd pieces (List.splitOn_ne_nil _ _)
      | cons first more =>
          have wholePieces := splitOn_append_of_notMem unbroken pieces
          rw [wholePieces] at whole ⊢
          cases more with
          | nil =>
              refine ih (part ++ first) _ (whole _ List.mem_cons_self) fun longer => ?_
              rcases Bool.or_eq_true_iff.mp longer with before | now
              · exact tooLong_append (isLong before)
              · exact now
          | cons second later =>
              have inLast : (second :: later).getLast?.getD [] ∈ second :: later := by
                rw [List.getLast?_eq_some_getLast (List.cons_ne_nil _ _)]
                exact List.getLast_mem _
              have rest := ih ((second :: later).getLast?.getD [])
                (tooLong maxBytes ((second :: later).getLast?.getD []))
                (whole _ (List.mem_cons_of_mem _ inLast)) id
              rw [List.dropLast_cons_of_ne_nil (List.cons_ne_nil _ _), List.getLast?_cons_cons]
              simp only [short_append, rest]
              congr 1
              cases known with
              | false => rw [if_neg Bool.false_ne_true, ← short_append, List.singleton_append]
              | true =>
                  rw [short_cons_of_long _ (tooLong_append (isLong rfl))]
                  rfl

theorem wantedTail_eq (chunks : List JsString) : wantedTail maxBytes chunks.flatten =
    fitting (byteLimit maxBytes) lineSize (short maxBytes (handedOn maxBytes [] false chunks)) := by
  rw [short_handedOn chunks [] false List.not_mem_nil (by simp)]
  rfl

theorem short_eq_self {lines : List JsString}
    (allShort : ∀ line ∈ lines, tooLong maxBytes line = false) : short maxBytes lines = lines := by
  apply List.filter_eq_self.mpr
  intro line lineMem
  simp only [allShort line lineMem, Bool.not_false]

theorem exists_last_long (lines : List JsString) :
    (∀ line ∈ lines, tooLong maxBytes line = false) ∨ ∃ before long after,
      lines = before ++ long :: after ∧ tooLong maxBytes long = true ∧
        ∀ line ∈ after, tooLong maxBytes line = false := by
  induction lines with
  | nil => exact .inl (by simp)
  | cons line lines ih =>
      rcases ih with allShort | ⟨before, long, after, rfl, isLong, later⟩
      · cases isLong : tooLong maxBytes line with
        | true => exact .inr ⟨[], line, lines, rfl, isLong, allShort⟩
        | false => exact .inl (List.forall_mem_cons.mpr ⟨isLong, allShort⟩)
      · exact .inr ⟨line :: before, long, after, rfl, isLong, later⟩

theorem fitting_short_iff (lines : List JsString) :
    fitting (byteLimit maxBytes) lineSize lines =
      fitting (byteLimit maxBytes) lineSize (short maxBytes lines) ↔ Spared maxBytes lines := by
  have split : ∀ before long after, lines = before ++ long :: after →
      tooLong maxBytes long = true → (∀ line ∈ after, tooLong maxBytes line = false) →
      (fitting (byteLimit maxBytes) lineSize lines =
        fitting (byteLimit maxBytes) lineSize (short maxBytes lines) ↔
          ∀ last ∈ (short maxBytes before).getLast?,
            exceeds maxBytes (total lineSize (last :: after)) = true) := by
    rintro before long after rfl isLong later
    have beyond : (byteLimit maxBytes).exceeded (lineSize long) = true :=
      exceeds_mono maxBytes (Nat.le_succ _) isLong
    rw [fitting_append_cons_of_exceeded beyond, short_append, short_cons_of_long _ isLong,
      short_eq_self later, eq_comm]
    exact fitting_append_eq_iff
  refine ⟨fun same before long after parts isLong later =>
    (split before long after parts isLong later).mp same, fun spared => ?_⟩
  rcases exists_last_long lines with allShort | ⟨before, long, after, parts, isLong, later⟩
  · rw [short_eq_self allShort]
  · exact (split before long after parts isLong later).mpr
      (spared before long after parts isLong later)

end Short

/-- The lines kept are the wanted ones when and only when no line that is too long and comes whole
has driven out one that fits. -/
theorem lineTail_eq_wantedTail_iff (maxBytes : JsNumber) (chunks : List JsString) :
    lineTail maxBytes chunks = wantedTail maxBytes chunks.flatten ↔
      Spared maxBytes (handedOn maxBytes [] false chunks) := by
  rw [lineTail_eq, wantedTail_eq]
  exact fitting_short_iff _

/-- The text `a\nbbbbbb\nc` in one chunk loses the line `a`, and in two it does not. -/
theorem lineTail_whole_line :
    lineTail (.ofNat 5) [js "a\nbbbbbb\nc"] = [js "c"] ∧
      lineTail (.ofNat 5) [js "a\nbbbbbb", js "\nc"] = [js "a", js "c"] ∧
      wantedTail (.ofNat 5) (js "a\nbbbbbb\nc") = [js "a", js "c"] := by
  decide +kernel

end StudentHub.CardRepair
