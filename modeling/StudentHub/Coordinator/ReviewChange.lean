import StudentHub.Ecma.Buffer
import StudentHub.Ecma.TaggedJson
import StudentHub.Order.Bisection

/-!
# The change under review

A diff is quoted for the reviewer as a JSON string. One that is over the budget is cut at a line
break. The search for the cut asks a question that is not monotone: a half of a surrogate pair
takes more bytes than the pair.
-/

namespace StudentHub.Coordinator.ReviewChange

open Ecma JsString Json

def REVIEW_CHANGE_DIFF_BYTES_MAX : ℕ := 32 * 1024

/-- The diff as `reviewChangeContext` quotes it. -/
def quoted (diff : JsString) : JsString := escapeOpenings (quote diff)

def renderedBytes (diff : JsString) : ℕ := (Buffer.ofText (quoted diff)).length

def lastIndexOf (unit : UInt16) : JsString → Option ℕ
  | [] => none
  | first :: rest =>
      match lastIndexOf unit rest with
      | some index => some (index + 1)
      | none => if first = unit then some 0 else none

def fittingPrefix (diff : JsString) : JsString :=
  let found := Bisection.largest
    (fun count => renderedBytes (diff.take count) ≤ REVIEW_CHANGE_DIFF_BYTES_MAX) 0 1 diff.length
  let fits := if 0 < found ∧ (diff[found - 1]?).any isHighSurrogate then found - 1 else found
  let head := diff.take fits
  match lastIndexOf 10 head with
  | some lineEnd => if 0 < lineEnd then head.take lineEnd else head
  | none => head

theorem isLowSurrogate_of_isHighSurrogate {unit : UInt16} (high : isHighSurrogate unit = true) :
    isLowSurrogate unit = false := by
  simp only [isHighSurrogate, Bool.and_eq_true, decide_eq_true_eq, UInt16.le_iff_toNat_le,
    UInt16.reduceToNat] at high
  simp only [isLowSurrogate, Bool.and_eq_false_iff, decide_eq_false_iff_not,
    UInt16.le_iff_toNat_le, UInt16.reduceToNat]
  omega

def unitBytes (unit : UInt16) : ℕ := (Buffer.ofText (escapeOpenings (escapeAlone unit))).length

def textBytes : JsString → ℕ
  | [] => 0
  | [unit] => unitBytes unit
  | first :: second :: rest =>
      if isHighSurrogate first && isLowSurrogate second then
        4 + textBytes rest
      else
        unitBytes first + textBytes (second :: rest)

section Bytes

variable {front back text : JsString} {unit first second : UInt16}

theorem wellFormed_escapeOpenings (wellFormed : text.WellFormed) :
    (escapeOpenings text).WellFormed := by
  apply Buffer.wellFormed_flatMap wellFormed
  · intro unit surrogate
    rw [if_neg]
    rintro rfl
    exact absurd surrogate (by decide)
  · intro unit scalar
    split_ifs
    · decide
    · exact wellFormed_cons scalar rfl

theorem escapeOpenings_pair (pair : (isHighSurrogate first && isLowSurrogate second) = true) :
    escapeOpenings [first, second] = [first, second] := by
  apply escapeOpenings_of_notMem
  simp only [List.mem_cons, List.not_mem_nil, or_false, not_or]
  refine ⟨?_, ?_⟩ <;> rintro rfl <;> revert pair <;> simp [isHighSurrogate, isLowSurrogate]

theorem length_ofText_pair (pair : (isHighSurrogate first && isLowSurrogate second) = true) :
    WellFormed [first, second] ∧ (Buffer.ofText [first, second]).length = 4 := by
  have wellFormed : WellFormed [first, second] := by
    rw [WellFormed, toWellFormed, if_pos pair]
    rfl
  refine ⟨wellFormed, ?_⟩
  have halves := pair
  simp only [isHighSurrogate, isLowSurrogate, Bool.and_eq_true, decide_eq_true_eq,
    UInt16.le_iff_toNat_le, UInt16.reduceToNat] at halves
  rw [Buffer.ofText, wellFormed, codePoints, if_pos pair, codePoints, List.flatMap_singleton,
    Buffer.encodeCode, if_neg (by omega), if_neg (by omega), if_neg (by omega)]
  rfl

theorem length_ofText_escapeText (text : JsString) :
    (Buffer.ofText (escapeOpenings (escapeText text))).length = textBytes text := by
  induction text using escapeText.induct with
  | case1 => rfl
  | case2 unit => rfl
  | case3 first second rest pair ih =>
      rcases length_ofText_pair pair with ⟨wellFormed, four⟩
      have split : escapeOpenings (first :: second :: escapeText rest) =
          [first, second] ++ escapeOpenings (escapeText rest) := by
        have kept := escapeOpenings_append [first, second] (escapeText rest)
        rw [escapeOpenings_pair pair] at kept
        exact kept
      rw [escapeText, if_pos pair, split, Buffer.ofText_append wellFormed, List.length_append, four,
        ih, textBytes, if_pos pair]
  | case4 first second rest single ih =>
      rw [escapeText, if_neg single, escapeOpenings_append,
        Buffer.ofText_append (wellFormed_escapeOpenings (wellFormed_escapeAlone first)),
        List.length_append, ih, textBytes, if_neg single]
      rfl

theorem renderedBytes_eq (diff : JsString) : renderedBytes diff = textBytes diff + 2 := by
  have parts : quoted diff = [34] ++ (escapeOpenings (escapeText diff) ++ [34]) := by
    rw [quoted, quote, List.cons_append, ← List.singleton_append, escapeOpenings_append,
      escapeOpenings_append]
    rfl
  have wellFormed := wellFormed_escapeOpenings (wellFormed_escapeText diff)
  rw [renderedBytes, parts, Buffer.ofText_append (by decide), Buffer.ofText_append wellFormed,
    List.length_append, List.length_append, length_ofText_escapeText]
  have one : (Buffer.ofText [34]).length = 1 := by decide
  omega

theorem unitBytes_of_isSurrogate (surrogate : isSurrogate unit = true) : unitBytes unit = 6 := by
  have escaped : escapeAlone unit = unicodeEscape unit := if_pos surrogate
  have hex : ∀ value < 16, (hexDigit value).toNat < 128 := by decide
  have bound := unit.toNat_lt
  have ascii : ∀ written ∈ unicodeEscape unit, written.toNat < 128 := by
    simp only [unicodeEscape, List.forall_mem_cons]
    refine ⟨by decide, by decide, hex _ ?_, hex _ ?_, hex _ ?_, hex _ ?_, by simp⟩ <;> omega
  rw [unitBytes, escaped, escapeOpenings_of_notMem (notMem_unicodeEscape_opening unit),
    (Buffer.length_ofText_of_ascii ascii).2]
  rfl

theorem textBytes_append (front : JsString)
    (apart : ∀ unit, back.head? = some unit → isLowSurrogate unit = false) :
    textBytes (front ++ back) = textBytes front + textBytes back := by
  induction front using textBytes.induct with
  | case1 => simp [textBytes]
  | case2 unit =>
      cases back with
      | nil => rfl
      | cons first rest =>
          have notLow := apart first rfl
          simp [textBytes, notLow]
  | case3 first second rest pair ih => simp [textBytes, pair, ih, Nat.add_assoc]
  | case4 first second rest single ih =>
      have next : textBytes ((second :: rest) ++ back) = _ := ih
      rw [List.cons_append] at next
      simp [textBytes, single, next, Nat.add_assoc]

theorem textBytes_cons (notHigh : isHighSurrogate unit = false) (rest : JsString) :
    textBytes (unit :: rest) = unitBytes unit + textBytes rest := by
  cases rest with
  | nil => rfl
  | cons second rest => simp [textBytes, notHigh]

theorem textBytes_le_append (front back : JsString) :
    textBytes front ≤ textBytes (front ++ back) + 2 := by
  induction front using textBytes.induct with
  | case1 => simp [textBytes]
  | case2 unit =>
      cases back with
      | nil => simp
      | cons first rest =>
          simp only [List.singleton_append, textBytes]
          split_ifs with pair
          · have high := (Bool.and_eq_true_iff.mp pair).1
            have six : unitBytes unit = 6 := unitBytes_of_isSurrogate (by simp [isSurrogate, high])
            omega
          · omega
  | case3 first second rest pair ih =>
      simp only [List.cons_append, textBytes, if_pos pair]
      omega
  | case4 first second rest single ih =>
      simp only [List.cons_append, textBytes, if_neg single] at ih ⊢
      omega

end Bytes

section LineBreaks

variable {diff text front rest : JsString} {unit : UInt16} {count lineBreak index : ℕ}

theorem lastIndexOf_eq_none (absent : lastIndexOf unit text = none) : unit ∉ text := by
  induction text with
  | nil => simp
  | cons first rest ih =>
      rw [lastIndexOf] at absent
      split at absent
      · cases absent
      · rename_i others
        split_ifs at absent with same
        rw [List.mem_cons, not_or]
        exact ⟨fun equal => same equal.symm, ih others⟩

theorem lastIndexOf_eq_some (found : lastIndexOf unit text = some index) :
    text[index]? = some unit ∧ ∀ later, text[later]? = some unit → later ≤ index := by
  induction text generalizing index with
  | nil => cases found
  | cons first rest ih =>
      rw [lastIndexOf] at found
      split at found
      · rename_i before isBefore
        cases found
        refine ⟨(ih isBefore).1, ?_⟩
        intro later isUnit
        cases later with
        | zero => omega
        | succ later => exact Nat.succ_le_succ ((ih isBefore).2 later isUnit)
      · rename_i others
        split_ifs at found with same
        cases found
        refine ⟨congrArg some same, ?_⟩
        intro later isUnit
        cases later with
        | zero => omega
        | succ later =>
            have inRest : rest[later]? = some unit := isUnit
            exact absurd (List.mem_of_getElem? inRest) (lastIndexOf_eq_none others)

theorem take_lineBreak (isBreak : diff[lineBreak]? = some 10) :
    diff.take (lineBreak + 1) = diff.take lineBreak ++ [10] := by
  rw [List.take_add_one, isBreak]
  rfl

theorem renderedBytes_take_le (isBreak : diff[lineBreak]? = some 10) (upTo : count ≤ lineBreak + 1) :
    renderedBytes (diff.take count) ≤ renderedBytes (diff.take (lineBreak + 1)) := by
  rcases Nat.lt_or_ge lineBreak count with last | before
  · rw [show count = lineBreak + 1 by omega]
  · have cut := textBytes_le_append (diff.take count) ((diff.take lineBreak).drop count)
    have whole : diff.take count ++ (diff.take lineBreak).drop count = diff.take lineBreak := by
      conv_rhs => rw [← List.take_append_drop count (diff.take lineBreak)]
      rw [List.take_take, Nat.min_eq_left before]
    have added := @textBytes_append [10] (diff.take lineBreak) (by simp [isLowSurrogate])
    have two : textBytes [10] = 2 := by decide
    rw [whole] at cut
    rw [renderedBytes_eq, renderedBytes_eq, take_lineBreak isBreak, added, two]
    omega

theorem le_renderedBytes_take (isBreak : diff[lineBreak]? = some 10) (past : lineBreak < count) :
    renderedBytes (diff.take (lineBreak + 1)) ≤ renderedBytes (diff.take count) := by
  have whole : diff.take count = diff.take lineBreak ++ 10 :: (diff.take count).drop (lineBreak + 1) := by
    conv_lhs => rw [← List.take_append_drop (lineBreak + 1) (diff.take count)]
    rw [List.take_take, Nat.min_eq_left past, take_lineBreak isBreak, List.append_assoc]
    rfl
  have breaks : ∀ tail : JsString, textBytes (diff.take lineBreak ++ 10 :: tail) =
      textBytes (diff.take lineBreak) + (unitBytes 10 + textBytes tail) := by
    intro tail
    rw [← textBytes_cons (by decide)]
    apply textBytes_append
    intro unit isFirst
    cases isFirst
    decide
  rw [renderedBytes_eq, renderedBytes_eq, take_lineBreak isBreak, whole, breaks, breaks]
  simp [textBytes]

end LineBreaks

section Cut

variable {diff : JsString} {count lineBreak : ℕ}

def Fits (diff : JsString) (count : ℕ) : Prop :=
  renderedBytes (diff.take count) ≤ REVIEW_CHANGE_DIFF_BYTES_MAX

def headLength (diff : JsString) : ℕ :=
  let found := Bisection.largest
    (fun count => renderedBytes (diff.take count) ≤ REVIEW_CHANGE_DIFF_BYTES_MAX) 0 1 diff.length
  if 0 < found ∧ (diff[found - 1]?).any isHighSurrogate then found - 1 else found

theorem fits_zero (diff : JsString) : Fits diff 0 := by
  have empty : renderedBytes [] = 2 := by decide
  rw [Fits, List.take_zero, empty, REVIEW_CHANGE_DIFF_BYTES_MAX]
  omega

theorem fits_largest (diff : JsString) : Fits diff (Bisection.largest
    (fun count => renderedBytes (diff.take count) ≤ REVIEW_CHANGE_DIFF_BYTES_MAX) 0 1
      diff.length) := by
  rcases Bisection.largest_cases
    (fun count => renderedBytes (diff.take count) ≤ REVIEW_CHANGE_DIFF_BYTES_MAX) 0 1 diff.length
    with none | through
  · rw [none]
    exact fits_zero diff
  · simpa [Fits] using through

theorem Fits.pred (fits : Fits diff (count + 1)) (high : (diff[count]?).any isHighSurrogate = true) :
    Fits diff count := by
  rcases Option.isSome_iff_exists.mp (Option.isSome_of_any high) with ⟨unit, isUnit⟩
  rw [isUnit, Option.any_some] at high
  have added := @textBytes_append [unit] (diff.take count) (by
    intro first isFirst
    cases isFirst
    exact isLowSurrogate_of_isHighSurrogate high)
  have whole : diff.take (count + 1) = diff.take count ++ [unit] := by
    rw [List.take_add_one, isUnit]
    rfl
  rw [Fits, renderedBytes_eq] at fits ⊢
  rw [whole, added] at fits
  omega

theorem fits_headLength (diff : JsString) : Fits diff (headLength diff) := by
  have fits := fits_largest diff
  rw [headLength]
  split_ifs with half
  · rcases Nat.exists_eq_add_one_of_ne_zero half.1.ne' with ⟨count, isFound⟩
    have high := half.2
    rw [isFound] at fits high ⊢
    exact fits.pred high
  · exact fits

theorem lt_headLength (isBreak : diff[lineBreak]? = some 10) (fits : Fits diff (lineBreak + 1)) :
    lineBreak < headLength diff := by
  have within : lineBreak < diff.length := (List.getElem?_eq_some_iff.mp isBreak).1
  have reached : lineBreak + 1 ≤ Bisection.largest
      (fun count => renderedBytes (diff.take count) ≤ REVIEW_CHANGE_DIFF_BYTES_MAX) 0 1
        diff.length := by
    apply Bisection.le_largest rfl within
    intro count upTo
    exact decide_eq_true ((renderedBytes_take_le isBreak upTo).trans fits)
  rw [headLength]
  split_ifs with half
  · rcases Nat.lt_or_eq_of_le reached with more | exactly
    · omega
    · have notHigh := half.2
      rw [← exactly, Nat.add_sub_cancel, isBreak] at notHigh
      cases notHigh
  · exact reached

theorem not_pair_headLength {front rest : JsString} {high low : UInt16}
    (pair : (isHighSurrogate high && isLowSurrogate low) = true)
    (whole : diff = front ++ high :: low :: rest) : headLength diff ≠ front.length + 1 := by
  intro same
  have halves := Bool.and_eq_true_iff.mp pair
  have atHigh : diff[front.length]? = some high := by
    rw [whole, List.getElem?_append_right (Nat.le_refl _), Nat.sub_self]
    rfl
  have atLow : diff[front.length + 1]? = some low := by
    rw [whole, List.getElem?_append_right (by omega), Nat.add_sub_cancel_left]
    rfl
  rw [headLength] at same
  split_ifs at same with half
  · have lowIsHigh := half.2
    rw [same, atLow] at lowIsHigh
    have notLow := @isLowSurrogate_of_isHighSurrogate low lowIsHigh
    rw [halves.2] at notLow
    cases notLow
  · apply half
    rw [same, Nat.add_sub_cancel, atHigh]
    exact ⟨Nat.succ_pos _, halves.1⟩

theorem fittingPrefix_cases (diff : JsString) :
    (fittingPrefix diff = diff.take (headLength diff) ∧
        ∀ lineBreak, diff[lineBreak]? = some 10 → lineBreak < headLength diff → lineBreak = 0) ∨
      ∃ lineBreak, 1 ≤ lineBreak ∧ lineBreak < headLength diff ∧ diff[lineBreak]? = some 10 ∧
        (∀ later, diff[later]? = some 10 → later < headLength diff → later ≤ lineBreak) ∧
        fittingPrefix diff = diff.take lineBreak := by
  have inHead : ∀ index, index < headLength diff →
      (diff.take (headLength diff))[index]? = diff[index]? := by
    intro index within
    rw [List.getElem?_take_of_lt within]
  have isCut : fittingPrefix diff = match lastIndexOf 10 (diff.take (headLength diff)) with
    | some lineEnd => if 0 < lineEnd then (diff.take (headLength diff)).take lineEnd
        else diff.take (headLength diff)
    | none => diff.take (headLength diff) := rfl
  rw [isCut]
  split
  · rename_i lineEnd isLast
    rcases lastIndexOf_eq_some isLast with ⟨isBreak, last⟩
    have within : lineEnd < headLength diff := by
      have inside := (List.getElem?_eq_some_iff.mp isBreak).1
      rw [List.length_take] at inside
      omega
    have lastOfDiff : ∀ later, diff[later]? = some 10 → later < headLength diff → later ≤ lineEnd :=
      fun later isLater before => last later ((inHead later before).trans isLater)
    split_ifs with positive
    · right
      refine ⟨lineEnd, positive, within, (inHead lineEnd within).symm.trans isBreak, lastOfDiff, ?_⟩
      rw [List.take_take, Nat.min_eq_left within.le]
    · left
      refine ⟨rfl, ?_⟩
      intro later isLater before
      have upTo := lastOfDiff later isLater before
      omega
  · rename_i absent
    left
    refine ⟨rfl, ?_⟩
    intro later isLater before
    exact absurd (List.mem_of_getElem? ((inHead later before).trans isLater))
      (lastIndexOf_eq_none absent)

/-- What is kept of a diff fits the budget and cuts no pair; where a line fits, it ends before the
last line break that does. -/
theorem fittingPrefix_spec (diff : JsString) :
    fittingPrefix diff <+: diff ∧
      renderedBytes (fittingPrefix diff) ≤ REVIEW_CHANGE_DIFF_BYTES_MAX ∧
      (∀ front high low rest, (isHighSurrogate high && isLowSurrogate low) = true →
        diff = front ++ high :: low :: rest → fittingPrefix diff ≠ front ++ [high]) ∧
      ((∃ lineBreak, 1 ≤ lineBreak ∧ diff[lineBreak]? = some 10 ∧ Fits diff (lineBreak + 1)) →
        ∃ lineBreak, 1 ≤ lineBreak ∧ diff[lineBreak]? = some 10 ∧ Fits diff (lineBreak + 1) ∧
          (∀ later, diff[later]? = some 10 → Fits diff (later + 1) → later ≤ lineBreak) ∧
          fittingPrefix diff = diff.take lineBreak) := by
  have fitsBefore : ∀ {lineBreak count}, diff[lineBreak]? = some 10 → lineBreak < count →
      Fits diff count → Fits diff (lineBreak + 1) :=
    fun isBreak past fits => (le_renderedBytes_take isBreak past).trans fits
  rcases fittingPrefix_cases diff with ⟨isHead, noBreak⟩ | ⟨lineBreak, positive, within, isBreak, last, isCut⟩
  · rw [isHead]
    refine ⟨List.take_prefix _ _, fits_headLength diff, ?_, ?_⟩
    · intro front high low rest pair whole same
      apply not_pair_headLength pair whole
      have lengths := congrArg List.length same
      have inside : front.length + 2 ≤ diff.length := by simp [whole]
      simp only [List.length_take, List.length_append, List.length_singleton] at lengths
      omega
    · rintro ⟨lineBreak, positive, isBreak, fits⟩
      have zero := noBreak lineBreak isBreak (lt_headLength isBreak fits)
      omega
  · have fits : Fits diff (lineBreak + 1) := fitsBefore isBreak within (fits_headLength diff)
    rw [isCut]
    refine ⟨List.take_prefix _ _, ?_, ?_, ?_⟩
    · rw [Fits, renderedBytes_eq, take_lineBreak isBreak, @textBytes_append [10] _ (by simp [isLowSurrogate])] at fits
      rw [renderedBytes_eq]
      omega
    · intro front high low rest pair whole same
      have length := congrArg List.length same
      have inside : lineBreak < diff.length := (List.getElem?_eq_some_iff.mp isBreak).1
      simp only [List.length_take, List.length_append, List.length_singleton] at length
      have atBreak : diff[front.length + 1]? = some low := by
        rw [whole, List.getElem?_append_right (by omega), Nat.add_sub_cancel_left]
        rfl
      rw [show front.length + 1 = lineBreak by omega, isBreak, Option.some.injEq] at atBreak
      rw [← atBreak] at pair
      revert pair
      simp [isLowSurrogate]
    · intro _
      exact ⟨lineBreak, positive, isBreak, fits,
        fun later isLater fitsLater => last later isLater (lt_headLength isLater fitsLater), rfl⟩

end Cut

end StudentHub.Coordinator.ReviewChange
