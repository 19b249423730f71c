import StudentHub.Documents.Png

/-!
# Admission of candidate content

Both scanners come to an end on all bytes. What they accept is tiled by its declared structure,
except for the names that are read without their highest bits and for the markers that are taken for
those of ordinary segments.
-/

/-!
## Admission of JPEG images

The scanner goes from marker to marker, over fill bytes, lengths and the entropy-coded bytes of the
scans. It looks into the headers of two kinds of frames; those of the other kinds, and the marker
that stands alone without a length, it takes for segments like any other.
-/

namespace StudentHub.Documents

open Ecma Ecma.Buffer JsString

structure JpegState where
  p : ℕ
  frame : Bool
  scan : Bool

inductive JpegStep
  | reject
  | next (state : JpegState)
  | ended

def isRestart (byte : UInt8) : Bool := 208 ≤ byte && byte ≤ 215

/-- `while (bytes[p] === 255) p++`: how far it goes -/
def fillLength : List UInt8 → ℕ
  | [] => 0
  | byte :: rest => if byte = 255 then fillLength rest + 1 else 0

def entropyLength : List UInt8 → ℕ
  | [] => 0
  | byte :: rest =>
      if byte = 255 then
        match rest with
        | [] => 0
        | next :: rest => if next = 0 || isRestart next then entropyLength rest + 2 else 0
      else
        entropyLength rest + 1

/-- The frame header that begins with its length at `p` is one that is admitted. -/
def frameFits (bytes : List UInt8) (p length : ℕ) : Bool :=
  let height := readUInt16BE bytes (p + 3)
  let width := readUInt16BE bytes (p + 5)
  let components := bytes.getD (p + 7) 0
  11 ≤ length && bytes[p + 2]? = some 8 && width ≠ 0 && height ≠ 0 && width * height ≤ 16000000 &&
    (components = 1 || components = 3) && length = 8 + components.toNat * 3

def jpegStep (bytes : List UInt8) (s : JpegState) : JpegStep :=
  if bytes[s.p]? ≠ some 255 then
    .reject
  else
    let p := s.p + 1 + fillLength (bytes.drop (s.p + 1))
    match bytes[p]? with
    | none => .reject
    | some marker =>
        let p := p + 1
        if marker = 217 then
          if !s.frame || !s.scan || p ≠ bytes.length then .reject else .ended
        else if marker = 0 || marker = 216 || isRestart marker || p + 2 > bytes.length then
          .reject
        else
          let length := readUInt16BE bytes p
          if length < 2 ∨ p + length > bytes.length then
            .reject
          else if (marker = 192 ∨ marker = 194) ∧ (s.frame || !frameFits bytes p length) then
            .reject
          else
            let frame := s.frame || marker = 192 || marker = 194
            let p := p + length
            if marker = 218 then
              if !frame || length < 6 then
                .reject
              else
                let coded := entropyLength (bytes.drop p)
                if coded = 0 then .reject else .next ⟨p + coded, frame, true⟩
            else
              .next ⟨p, frame, s.scan⟩

/-- The verdict of the loop, or `none` while it has not ended. -/
def jpegLoop (bytes : List UInt8) : ℕ → JpegState → Option Bool
  | 0, _ => none
  | fuel + 1, s =>
      if s.p < bytes.length then
        match jpegStep bytes s with
        | .reject => some false
        | .ended => some true
        | .next s => jpegLoop bytes fuel s
      else
        some false

def jpeg (fuel : ℕ) (bytes : List UInt8) : Option Bool :=
  if bytes[0]? ≠ some 255 ∨ bytes[1]? ≠ some 216 then some false
  else jpegLoop bytes fuel ⟨2, false, false⟩

inductive Coded : List UInt8 → Prop
  | nil : Coded []
  | byte {byte : UInt8} {rest : List UInt8} (plain : byte ≠ 255) (coded : Coded rest) :
      Coded (byte :: rest)
  | stuffed {next : UInt8} {rest : List UInt8} (inside : (next = 0 || isRestart next) = true)
      (coded : Coded rest) : Coded (255 :: next :: rest)

def begins (marker : UInt8) : Bool :=
  marker ≠ 0 && marker ≠ 216 && marker ≠ 217 && marker ≠ 255 && !isRestart marker

/-- A segment with its fill bytes; the entropy-coded bytes of a scan stand behind its header. -/
structure Segment where
  fill : ℕ
  marker : UInt8
  payload : List UInt8
  entropy : List UInt8
  isMarker : begins marker = true
  small : payload.length + 2 < 256 ^ 2
  coded : Coded entropy
  scans : entropy ≠ [] ↔ marker = 218

def marked (fill : ℕ) (marker : UInt8) (rest : List UInt8) : List UInt8 :=
  List.replicate (fill + 1) 255 ++ marker :: rest

def Segment.bytes (segment : Segment) : List UInt8 :=
  marked segment.fill segment.marker
    (bigEndian 2 (segment.payload.length + 2) ++ segment.payload ++ segment.entropy)

def ending (fill : ℕ) : List UInt8 := marked fill 217 []

section Segments

variable {bytes entropy entropy' rest rest' : List UInt8} {fill fill' p : ℕ} {marker marker' : UInt8}
  {segment segment' : Segment} {segments segments' : List Segment}

theorem coded_take (bytes : List UInt8) : Coded (bytes.take (entropyLength bytes)) := by
  fun_induction entropyLength bytes with
  | case1 => exact .nil
  | case2 => exact .nil
  | case3 next rest inside ih => exact .stuffed inside ih
  | case4 => exact .nil
  | case5 byte rest plain ih => exact .byte plain ih

theorem entropyLength_le (bytes : List UInt8) : entropyLength bytes ≤ bytes.length := by
  fun_induction entropyLength bytes with
  | case1 => exact Nat.le_refl _
  | case2 => exact Nat.zero_le _
  | case3 next rest inside ih => exact Nat.add_le_add_right ih 2
  | case4 => exact Nat.zero_le _
  | case5 byte rest plain ih => exact Nat.add_le_add_right ih 1

theorem entropyLength_append (coded : Coded entropy) (apart : entropyLength rest = 0) :
    entropyLength (entropy ++ rest) = entropy.length := by
  induction coded with
  | nil => exact apart
  | byte plain coded ih =>
      rw [List.cons_append, entropyLength.eq_def]
      simp only [plain, if_false, ih, List.length_cons]
  | stuffed inside coded ih =>
      rw [List.cons_append, List.cons_append, entropyLength.eq_def]
      simp only [inside, if_true, ih, List.length_cons]

theorem eq_of_coded_append (coded : Coded entropy) (coded' : Coded entropy')
    (apart : entropyLength rest = 0) (apart' : entropyLength rest' = 0)
    (same : entropy ++ rest = entropy' ++ rest') : entropy = entropy' ∧ rest = rest' := by
  apply List.append_inj same
  rw [← entropyLength_append coded apart, same, entropyLength_append coded' apart']

theorem drop_fillLength (bytes : List UInt8) :
    bytes = List.replicate (fillLength bytes) 255 ++ bytes.drop (fillLength bytes) ∧
      bytes[fillLength bytes]? ≠ some 255 := by
  fun_induction fillLength bytes with
  | case1 => exact ⟨rfl, by simp⟩
  | case2 rest ih =>
      refine ⟨?_, ?_⟩
      · rw [List.replicate_succ, List.cons_append, List.drop_succ_cons, ← ih.1]
      · simpa using ih.2
  | case3 byte rest plain => exact ⟨rfl, by simpa using plain⟩

theorem eq_of_marked (isMarker : marker ≠ 255) (isMarker' : marker' ≠ 255)
    (same : marked fill marker rest = marked fill' marker' rest') :
    fill = fill' ∧ marker = marker' ∧ rest = rest' := by
  rw [marked, marked] at same
  induction fill generalizing fill' with
  | zero =>
      cases fill' with
      | zero => simpa using same
      | succ fill' =>
          simp only [List.replicate_succ, List.replicate_zero, List.cons_append, List.nil_append,
            List.cons.injEq] at same
          exact absurd same.2.1 isMarker
  | succ fill ih =>
      cases fill' with
      | zero =>
          simp only [List.replicate_succ, List.replicate_zero, List.cons_append, List.nil_append,
            List.cons.injEq] at same
          exact absurd same.2.1.symm isMarker'
      | succ fill' =>
          rcases ih (List.cons.inj same).2 with ⟨sameFill, sameRest⟩
          exact ⟨congrArg (· + 1) sameFill, sameRest⟩

theorem entropyLength_marked (apart : (marker = 0 || isRestart marker) = false) :
    entropyLength (marked fill marker rest) = 0 := by
  cases fill with
  | zero => simp [marked, entropyLength, apart]
  | succ fill => simp [marked, entropyLength, List.replicate_succ, isRestart]

theorem marked_append : marked fill marker rest ++ rest' = marked fill marker (rest ++ rest') := by
  simp [marked]

theorem Segment.marker_ne (segment : Segment) : segment.marker ≠ 255 ∧ segment.marker ≠ 217 ∧
    (segment.marker = 0 || isRestart segment.marker) = false := by
  have isMarker := segment.isMarker
  simp only [begins, Bool.and_eq_true, Bool.not_eq_true', decide_eq_true_eq] at isMarker
  exact ⟨isMarker.1.2, isMarker.1.1.2, by simp [isMarker.1.1.1.1, isMarker.2]⟩

theorem Segment.eq_of_bytes_append (apart : entropyLength rest = 0) (apart' : entropyLength rest' = 0)
    (same : segment.bytes ++ rest = segment'.bytes ++ rest') : segment = segment' ∧ rest = rest' := by
  rw [Segment.bytes, Segment.bytes, marked_append, marked_append] at same
  rcases eq_of_marked segment.marker_ne.1 segment'.marker_ne.1 same with
    ⟨sameFill, sameMarker, behindMarker⟩
  simp only [List.append_assoc] at behindMarker
  rcases List.append_inj behindMarker (by rw [length_bigEndian, length_bigEndian]) with
    ⟨sizes, behindSize⟩
  have sameLength := bigEndian_inj segment.small segment'.small sizes
  rcases List.append_inj behindSize (by omega) with ⟨samePayload, behindPayload⟩
  rcases eq_of_coded_append segment.coded segment'.coded apart apart' behindPayload with
    ⟨sameEntropy, sameRest⟩
  cases segment
  cases segment'
  rw [Segment.mk.injEq]
  exact ⟨⟨sameFill, sameMarker, samePayload, sameEntropy⟩, sameRest⟩

def tiles (segments : List Segment) (fill : ℕ) : List UInt8 :=
  segments.flatMap Segment.bytes ++ ending fill

theorem tiles_cons : tiles (segment :: segments) fill = segment.bytes ++ tiles segments fill := by
  rw [tiles, tiles, List.flatMap_cons, List.append_assoc]

theorem entropyLength_tiles (segments : List Segment) (fill : ℕ) :
    entropyLength (tiles segments fill) = 0 := by
  cases segments with
  | nil => exact entropyLength_marked (by decide)
  | cons segment segments =>
      rw [tiles_cons, Segment.bytes, marked_append]
      exact entropyLength_marked segment.marker_ne.2.2

theorem tiles_cons_ne_ending : tiles (segment :: segments) fill ≠ ending fill' := by
  intro same
  rw [tiles_cons, Segment.bytes, marked_append, ending] at same
  exact segment.marker_ne.2.1 (eq_of_marked segment.marker_ne.1 (by decide) same).2.1

theorem eq_of_tiles_eq (same : tiles segments fill = tiles segments' fill') : segments = segments' := by
  induction segments generalizing segments' with
  | nil =>
      cases segments' with
      | nil => rfl
      | cons segment' segments' => exact absurd same.symm tiles_cons_ne_ending
  | cons segment segments ih =>
      cases segments' with
      | nil => exact absurd same tiles_cons_ne_ending
      | cons segment' segments' =>
          rw [tiles_cons, tiles_cons] at same
          rcases Segment.eq_of_bytes_append (entropyLength_tiles _ _) (entropyLength_tiles _ _) same with
            ⟨sameSegment, sameRest⟩
          rw [sameSegment, ih sameRest]

end Segments

section Accepted

variable {bytes : List UInt8} {s s' : JpegState} {fuel p length : ℕ} {marker : UInt8}
  {segment : Segment} {segments : List Segment}

def FrameHeader (payload : List UInt8) : Prop :=
  payload[0]? = some 8 ∧ readUInt16BE payload 1 ≠ 0 ∧ readUInt16BE payload 3 ≠ 0 ∧
    readUInt16BE payload 3 * readUInt16BE payload 1 ≤ 16000000 ∧
    (payload.getD 5 0 = 1 ∨ payload.getD 5 0 = 3) ∧
    payload.length = 6 + (payload.getD 5 0).toNat * 3

theorem frameHeader_of_frameFits (inside : p + length ≤ bytes.length)
    (fits : frameFits bytes p length = true) :
    FrameHeader (subarray bytes (p + 2) (p + length)) := by
  simp only [frameFits, Bool.and_eq_true, Bool.or_eq_true, decide_eq_true_eq] at fits
  rcases fits with ⟨⟨⟨⟨⟨⟨long, eight⟩, wide⟩, high⟩, product⟩, components⟩, isLength⟩
  have number : ∀ offset, offset + 4 ≤ length → readUInt16BE (subarray bytes (p + 2) (p + length))
      offset = readUInt16BE bytes (p + 2 + offset) := by
    intro offset within
    rw [readUInt16BE, subarray_subarray (by omega), readUInt16BE, Nat.add_assoc _ offset]
  have byte : ∀ index, index + 2 < length →
      (subarray bytes (p + 2) (p + length))[index]? = bytes[p + 2 + index]? :=
    fun index within => getElem?_subarray (by omega)
  rw [FrameHeader, List.getD_eq_getElem?_getD, byte 0 (by omega), byte 5 (by omega),
    number 1 (by omega), number 3 (by omega), length_subarray inside, ← List.getD_eq_getElem?_getD]
  refine ⟨eight, high, wide, product, components, ?_⟩
  have isCount : bytes.getD (p + 2 + 5) 0 = bytes.getD (p + 7) 0 := rfl
  rw [isCount]
  omega

theorem drop_eq_marked (isFill : bytes[p]? = some 255)
    (isMarker : bytes[p + 1 + fillLength (bytes.drop (p + 1))]? = some marker) :
    bytes.drop p = marked (fillLength (bytes.drop (p + 1))) marker
      (bytes.drop (p + 1 + fillLength (bytes.drop (p + 1)) + 1)) ∧ marker ≠ 255 := by
  rcases List.getElem?_eq_some_iff.mp isFill with ⟨within, isByte⟩
  rcases drop_fillLength (bytes.drop (p + 1)) with ⟨split, ends⟩
  rcases List.getElem?_eq_some_iff.mp isMarker with ⟨within', isByte'⟩
  rw [List.getElem?_drop, isMarker] at ends
  refine ⟨?_, fun same => ends (congrArg some same)⟩
  rw [List.drop_drop, List.drop_eq_getElem_cons within', isByte'] at split
  rw [List.drop_eq_getElem_cons within, isByte, marked, List.replicate_succ, List.cons_append, ← split]

theorem drop_eq_payload (isLength : readUInt16BE bytes p = length) (long : 2 ≤ length)
    (inside : p + length ≤ bytes.length) :
    bytes.drop p = bigEndian 2 ((subarray bytes (p + 2) (p + length)).length + 2) ++
      subarray bytes (p + 2) (p + length) ++ bytes.drop (p + length) ∧
      (subarray bytes (p + 2) (p + length)).length + 2 < 256 ^ 2 := by
  have word := @bigEndian_readUInt16BE bytes p (by omega)
  have counted : (subarray bytes (p + 2) (p + length)).length + 2 = length := by
    rw [length_subarray inside]
    omega
  rw [isLength] at word
  rw [counted, word.1, List.append_assoc, subarray_append_drop (by omega),
    subarray_append_drop (by omega)]
  exact ⟨rfl, word.2⟩

theorem exists_segment {entropy : List UInt8} {behind stop : ℕ} (isFill : bytes[p]? = some 255)
    (isMarker : bytes[p + 1 + fillLength (bytes.drop (p + 1))]? = some marker)
    (isBehind : p + 1 + fillLength (bytes.drop (p + 1)) + 1 = behind)
    (opens : marker ≠ 217 ∧ marker ≠ 0 ∧ marker ≠ 216 ∧ isRestart marker = false)
    (isLength : readUInt16BE bytes behind = length) (long : 2 ≤ length)
    (inside : behind + length ≤ bytes.length) (coded : Coded entropy)
    (split : bytes.drop (behind + length) = entropy ++ bytes.drop stop)
    (scans : entropy ≠ [] ↔ marker = 218) :
    ∃ segment : Segment, bytes.drop p = segment.bytes ++ bytes.drop stop ∧ segment.marker = marker ∧
      segment.payload = subarray bytes (behind + 2) (behind + length) := by
  rcases drop_eq_marked isFill isMarker with ⟨atMarker, noFill⟩
  rcases drop_eq_payload isLength long inside with ⟨atPayload, small⟩
  have isMarker' : begins marker = true := by
    simp [begins, opens.1, opens.2.1, opens.2.2.1, opens.2.2.2, noFill]
  refine ⟨⟨fillLength (bytes.drop (p + 1)), marker, _, entropy, isMarker', small, coded, scans⟩, ?_,
    rfl, rfl⟩
  rw [atMarker, isBehind, atPayload, split, Segment.bytes, marked_append]
  simp only [List.append_assoc]

theorem exists_entropy {start : ℕ} (some : entropyLength (bytes.drop start) ≠ 0) :
    ∃ entropy, Coded entropy ∧ entropy ≠ [] ∧
      bytes.drop start = entropy ++ bytes.drop (start + entropyLength (bytes.drop start)) ∧
      start + entropyLength (bytes.drop start) ≤ bytes.length := by
  have within := entropyLength_le (bytes.drop start)
  rw [List.length_drop] at within
  refine ⟨_, coded_take (bytes.drop start), ?_, ?_, by omega⟩
  · intro empty
    have none := congrArg List.length empty
    rw [List.length_take, List.length_drop, List.length_nil] at none
    omega
  · rw [← List.drop_drop, List.take_append_drop]

theorem jpegStep_cases {result : JpegStep} (stepped : jpegStep bytes s = result)
    (taken : result ≠ .reject) :
    (∃ fill, bytes.drop s.p = ending fill ∧ s.frame = true ∧ s.scan = true ∧ result = .ended) ∨
    ∃ (segment : Segment) (stop : ℕ), s.p < stop ∧ stop ≤ bytes.length ∧
      bytes.drop s.p = segment.bytes ++ bytes.drop stop ∧
      (((segment.marker = 192 ∨ segment.marker = 194) ∧ s.frame = false ∧
          FrameHeader segment.payload ∧ result = .next ⟨stop, true, s.scan⟩) ∨
        (segment.marker = 218 ∧ s.frame = true ∧ result = .next ⟨stop, true, true⟩) ∨
        ((segment.marker ≠ 192 ∧ segment.marker ≠ 194 ∧ segment.marker ≠ 218) ∧
          result = .next ⟨stop, s.frame, s.scan⟩)) := by
  rw [jpegStep] at stepped
  split_ifs at stepped with noFill
  · exact absurd stepped.symm taken
  · rw [not_not] at noFill
    dsimp only at stepped
    cases isMarker : bytes[s.p + 1 + fillLength (bytes.drop (s.p + 1))]? with
    | none =>
        rw [isMarker] at stepped
        exact absurd stepped.symm taken
    | some marker =>
        rw [isMarker] at stepped
        dsimp only at stepped
        generalize isBehind : s.p + 1 + fillLength (bytes.drop (s.p + 1)) + 1 = behind at stepped
        split_ifs at stepped with isEnd incomplete foreign short refused isScan frameless nothing
        all_goals try exact absurd stepped.symm taken
        · simp only [Bool.or_eq_true, Bool.not_eq_true', decide_eq_true_eq, not_or, not_not,
            Bool.not_eq_false] at incomplete
          refine .inl ⟨fillLength (bytes.drop (s.p + 1)), ?_, incomplete.1.1, incomplete.1.2,
            stepped.symm⟩
          rw [(drop_eq_marked noFill isMarker).1, isBehind, incomplete.2, List.drop_length, isEnd]
          rfl
        all_goals
          simp only [Bool.or_eq_true, decide_eq_true_eq, not_or, Bool.not_eq_true] at foreign
          simp only [not_or, Nat.not_lt] at short
        · simp only [Bool.or_eq_true, Bool.not_eq_true', decide_eq_true_eq, not_or, Bool.not_eq_false]
            at frameless
          have framed : s.frame = true := by simpa [isScan] using frameless.1
          rcases exists_entropy nothing with ⟨entropy, coded, someEntropy, split, within⟩
          rcases exists_segment noFill isMarker isBehind ⟨isEnd, foreign.1.1.1, foreign.1.1.2, foreign.1.2⟩
            rfl short.1 short.2 coded split ⟨fun _ => isScan, fun _ => someEntropy⟩ with
            ⟨segment, isSegment, sameMarker, -⟩
          refine .inr ⟨segment, _, by omega, by omega, isSegment, .inr (.inl ⟨sameMarker.trans isScan,
            framed, ?_⟩)⟩
          rw [← stepped, framed]
          rfl
        · rcases exists_segment noFill isMarker isBehind ⟨isEnd, foreign.1.1.1, foreign.1.1.2, foreign.1.2⟩
            rfl short.1 short.2 .nil (by rw [List.nil_append]) ⟨fun some => absurd rfl some,
              fun same => absurd same isScan⟩ with ⟨segment, isSegment, sameMarker, samePayload⟩
          refine .inr ⟨segment, _, by omega, short.2, isSegment, ?_⟩
          rw [sameMarker, samePayload]
          by_cases isHeader : marker = 192 ∨ marker = 194
          · simp only [isHeader, true_and, Bool.or_eq_true, Bool.not_eq_true', not_or,
              Bool.not_eq_true, Bool.not_eq_false] at refused
            refine .inl ⟨isHeader, refused.1, frameHeader_of_frameFits short.2 refused.2, ?_⟩
            have framed : (s.frame || decide (marker = 192) || decide (marker = 194)) = true := by
              simpa [or_assoc] using .inr isHeader
            rw [← stepped, framed]
          · rw [not_or] at isHeader
            refine .inr (.inr ⟨⟨isHeader.1, isHeader.2, isScan⟩, ?_⟩)
            simp [← stepped, isHeader]

def IsHeader (marker : UInt8) : Prop := marker = 192 ∨ marker = 194

def Framed (s : JpegState) (segments : List Segment) : Prop :=
  (s.frame = false ∧ s.scan = false ∧
    ∀ segment ∈ segments, ¬IsHeader segment.marker ∧ segment.marker ≠ 218) ∨
  (s.frame = true ∧ ∃ before header after, segments = before ++ header :: after ∧
    (IsHeader header.marker ∧ FrameHeader header.payload) ∧
    (∀ segment ∈ before ++ after, ¬IsHeader segment.marker) ∧
    (∀ segment ∈ before, segment.marker ≠ 218) ∧
    (s.scan = true → ∃ segment ∈ after, segment.marker = 218))

theorem Framed.header {stop : ℕ} (framed : Framed s segments) (start : s.frame = false)
    (marks : IsHeader segment.marker) (fits : FrameHeader segment.payload) :
    Framed ⟨stop, true, s.scan⟩ (segments ++ [segment]) := by
  rcases framed with ⟨-, noScan, plain⟩ | ⟨begun, -⟩
  · refine .inr ⟨rfl, segments, segment, [], rfl, ⟨marks, fits⟩, ?_, ?_, ?_⟩
    · rw [List.append_nil]
      exact fun segment isSegment => (plain segment isSegment).1
    · exact fun segment isSegment => (plain segment isSegment).2
    · simp [noScan]
  · rw [begun] at start
    cases start

theorem Framed.scanned {stop : ℕ} (framed : Framed s segments) (begun : s.frame = true)
    (marks : segment.marker = 218) : Framed ⟨stop, true, true⟩ (segments ++ [segment]) := by
  rcases framed with ⟨start, -⟩ | ⟨-, before, header, after, rfl, framed', others, noScan, -⟩
  · rw [begun] at start
    cases start
  · refine .inr ⟨rfl, before, header, after ++ [segment], by simp, framed', ?_, noScan, ?_⟩
    · rw [← List.append_assoc, List.forall_mem_append]
      refine ⟨others, ?_⟩
      simp [IsHeader, marks]
    · exact fun _ => ⟨segment, by simp, marks⟩

theorem Framed.other {stop : ℕ} (framed : Framed s segments)
    (plain : ¬IsHeader segment.marker ∧ segment.marker ≠ 218) :
    Framed ⟨stop, s.frame, s.scan⟩ (segments ++ [segment]) := by
  rcases framed with ⟨start, noScan, allPlain⟩ | ⟨begun, before, header, after, rfl, framed', others,
    noScan, scan⟩
  · refine .inl ⟨start, noScan, ?_⟩
    rw [List.forall_mem_append]
    exact ⟨allPlain, by simpa using plain⟩
  · refine .inr ⟨begun, before, header, after ++ [segment], by simp, framed', ?_, noScan, ?_⟩
    · rw [← List.append_assoc, List.forall_mem_append]
      exact ⟨others, by simpa using plain.1⟩
    · intro scanned
      rcases scan scanned with ⟨first, isFirst, marks⟩
      exact ⟨first, List.mem_append_left _ isFirst, marks⟩

def Tiled (bytes : List UInt8) (s : JpegState) : Prop :=
  ∃ segments, bytes = [255, 216] ++ segments.flatMap Segment.bytes ++ bytes.drop s.p ∧
    Framed s segments

theorem Tiled.next (tiled : Tiled bytes s) (stepped : jpegStep bytes s = .next s') :
    Tiled bytes s' := by
  rcases tiled with ⟨segments, split, framed⟩
  rcases jpegStep_cases stepped (by simp) with ⟨-, -, -, -, isNext⟩ |
    ⟨segment, stop, -, -, isSegment, cases⟩
  · cases isNext
  · have further : bytes = [255, 216] ++ (segments ++ [segment]).flatMap Segment.bytes ++
        bytes.drop stop := by
      rw [isSegment] at split
      simpa using split
    rcases cases with ⟨marks, start, fits, isNext⟩ | ⟨marks, begun, isNext⟩ | ⟨plain, isNext⟩
    · cases isNext
      exact ⟨_, further, framed.header start marks fits⟩
    · cases isNext
      exact ⟨_, further, framed.scanned begun marks⟩
    · cases isNext
      exact ⟨_, further, framed.other ⟨not_or.mpr ⟨plain.1, plain.2.1⟩, plain.2.2⟩⟩

theorem exists_jpegLoop (enough : bytes.length - s.p < fuel) :
    ∃ verdict, jpegLoop bytes fuel s = some verdict := by
  induction fuel generalizing s with
  | zero => exact absurd enough (Nat.not_lt_zero _)
  | succ fuel ih =>
      rw [jpegLoop]
      split_ifs with inside
      · cases stepped : jpegStep bytes s with
        | reject => exact ⟨false, rfl⟩
        | ended => exact ⟨true, rfl⟩
        | next s' =>
            apply ih
            rcases jpegStep_cases stepped (by simp) with ⟨-, -, -, -, isNext⟩ |
              ⟨segment, stop, further, within, -, cases⟩
            · cases isNext
            · have place : s'.p = stop := by
                rcases cases with ⟨-, -, -, isNext⟩ | ⟨-, -, isNext⟩ | ⟨-, isNext⟩
                all_goals
                  cases isNext
                  rfl
              omega
      · exact ⟨false, rfl⟩

/-- The declared structure of an image: the start, segments that tile the rest, and the end. Which
markers the segments beside the frame header may not have is left open. -/
def IsJpeg (foreign : UInt8 → Prop) (bytes : List UInt8) : Prop :=
  ∃ before header after fill,
    bytes = [255, 216] ++ tiles (before ++ header :: after) fill ∧
    (IsHeader header.marker ∧ FrameHeader header.payload) ∧
    (∀ segment ∈ before ++ after, ¬foreign segment.marker) ∧
    (∀ segment ∈ before, segment.marker ≠ 218) ∧
    ∃ segment ∈ after, segment.marker = 218

theorem isJpeg_of_jpegLoop (tiled : Tiled bytes s) (accepted : jpegLoop bytes fuel s = some true) :
    IsJpeg IsHeader bytes := by
  induction fuel generalizing s with
  | zero => cases accepted
  | succ fuel ih =>
      rw [jpegLoop] at accepted
      split_ifs at accepted
      · cases stepped : jpegStep bytes s with
        | reject =>
            rw [stepped] at accepted
            cases accepted
        | next s' =>
            rw [stepped] at accepted
            exact ih (tiled.next stepped) accepted
        | ended =>
            rcases tiled with ⟨segments, split, framed⟩
            rcases jpegStep_cases stepped (by simp) with ⟨fill, atEnd, begun, scanned, -⟩ |
              ⟨segment, stop, -, -, -, cases⟩
            · rcases framed with ⟨start, -⟩ | ⟨-, before, header, after, rfl, framed', others,
                noScan, scan⟩
              · rw [begun] at start
                cases start
              · rw [atEnd, List.append_assoc] at split
                exact ⟨before, header, after, fill, split, framed', others, noScan, scan scanned⟩
            · rcases cases with ⟨-, -, -, isNext⟩ | ⟨-, -, isNext⟩ | ⟨-, isNext⟩
              all_goals cases isNext
      · cases accepted

theorem isJpeg_of_jpeg (accepted : jpeg fuel bytes = some true) : IsJpeg IsHeader bytes := by
  rw [jpeg] at accepted
  split_ifs at accepted with start
  · cases accepted
  · rw [not_or, not_not, not_not] at start
    apply isJpeg_of_jpegLoop ⟨[], ?_, .inl ⟨rfl, rfl, by simp⟩⟩ accepted
    rcases bytes with _ | ⟨first, _ | ⟨second, rest⟩⟩
    · simp at start
    · simp at start
    · simpa using start

theorem jpeg_ends (enough : bytes.length < fuel) : ∃ verdict, jpeg fuel bytes = some verdict := by
  rw [jpeg]
  split_ifs
  · exact ⟨false, rfl⟩
  · apply exists_jpegLoop
    dsimp only
    omega

def IsFrame (marker : UInt8) : Prop :=
  192 ≤ marker ∧ marker ≤ 207 ∧ marker ≠ 196 ∧ marker ≠ 200 ∧ marker ≠ 204

/-- What no segment beside the frame header is: a frame header, or the marker that has no length. -/
def Foreign (marker : UInt8) : Prop := IsFrame marker ∨ marker = 1

def Misread (marker : UInt8) : Prop := Foreign marker ∧ ¬IsHeader marker

/-- No segment is misread. -/
def KnownMarkers (bytes : List UInt8) : Prop :=
  ∀ segments fill, bytes = [255, 216] ++ tiles segments fill →
    ∀ segment ∈ segments, ¬Misread segment.marker

theorem isJpeg_iff_knownMarkers (loose : IsJpeg IsHeader bytes) :
    IsJpeg Foreign bytes ↔ KnownMarkers bytes := by
  constructor
  · rintro ⟨before, header, after, fill, tiled, ⟨marks, -⟩, others, -⟩ segments fill' tiled' segment
      isSegment misread
    rw [tiled] at tiled'
    rw [← eq_of_tiles_eq (List.append_cancel_left tiled')] at isSegment
    by_cases same : segment = header
    · rw [same] at misread
      exact misread.2 marks
    · refine others segment ?_ misread.1
      rw [List.mem_append, List.mem_cons] at isSegment
      rw [List.mem_append]
      tauto
  · rcases loose with ⟨before, header, after, fill, tiled, framed, others, noScan, scan⟩
    intro known
    refine ⟨before, header, after, fill, tiled, framed, ?_, noScan, scan⟩
    intro segment isSegment foreign
    apply known _ _ tiled segment ?_ ⟨foreign, others segment isSegment⟩
    rw [List.mem_append] at isSegment
    rw [List.mem_append, List.mem_cons]
    tauto

end Accepted

end StudentHub.Documents

namespace StudentHub.Documents

open Ecma Ecma.Buffer JsString

section Content

variable {bytes : List UInt8} {fuel : ℕ} {inflateSync : Inflate} {pdf : List UInt8 → Bool}
  {type mime : JsString} {decompresses : List UInt8 → List UInt8 → Prop}

/-- The verdict on what is uploaded, or `none` while a scanner has not ended. -/
def validateCandidateContent (inflateSync : Inflate) (pdf : List UInt8 → Bool) (fuel : ℕ)
    (type mime : JsString) (bytes : List UInt8) : Option Bool :=
  if bytes = [] ∨ bytes.length > 10 * 1024 * 1024 then
    some false
  else if type = js "resume" ∧ mime = js "application/pdf" then
    some (pdf bytes)
  else if type ≠ js "resume" ∧ mime = js "image/png" then
    png inflateSync fuel bytes
  else if type ≠ js "resume" ∧ mime = js "image/jpeg" then
    jpeg fuel bytes
  else
    some false

theorem validateCandidateContent_ends (enough : 10 * 1024 * 1024 < fuel) :
    ∃ verdict, validateCandidateContent inflateSync pdf fuel type mime bytes = some verdict := by
  rw [validateCandidateContent]
  split_ifs with outside resume isPng isJpeg
  · exact ⟨_, rfl⟩
  · exact ⟨_, rfl⟩
  · exact png_ends (by omega)
  · exact jpeg_ends (by omega)
  · exact ⟨_, rfl⟩

/-- The scanners end, and an accepted image has exactly its declared structure if the names of its
chunks are plain, or its segments have known markers, and only then. -/
theorem scanned_exactly_iff (inflates : InflatesAs decompresses inflateSync)
    (enough : bytes.length < fuel) :
    ((∃ verdict, png inflateSync fuel bytes = some verdict) ∧
      ∃ verdict, jpeg fuel bytes = some verdict) ∧
    (png inflateSync fuel bytes = some true →
      (IsPng decompresses Chunk.Bears bytes ↔ PlainNames bytes)) ∧
    (jpeg fuel bytes = some true → (IsJpeg Foreign bytes ↔ KnownMarkers bytes)) :=
  ⟨⟨png_ends enough, jpeg_ends enough⟩,
    fun accepted => isPng_iff_plainNames (isPng_of_png inflates accepted),
    fun accepted => isJpeg_iff_knownMarkers (isJpeg_of_jpeg accepted)⟩

end Content

namespace Sample

def compressed : List UInt8 := [120, 1, 1, 2, 0, 253, 255, 0, 0, 0, 2, 0, 1]

def inflated (given decoded : List UInt8) : Prop := given = compressed ∧ decoded = [0, 0]

def inflatePixel : Inflate := fun given _ => if given = compressed then some ([0, 0], 13) else none

theorem inflatesAs_inflatePixel : InflatesAs inflated inflatePixel := by
  intro given limit decoded bytesWritten answered
  rw [inflatePixel] at answered
  split_ifs at answered with same
  · cases answered
    exact ⟨by rw [same]; rfl, rfl⟩

def maskedHeader : Chunk :=
  ⟨[201, 72, 68, 82], [0, 0, 0, 1, 0, 0, 0, 1, 8, 0, 0, 0, 0], rfl, by decide⟩

def pixel : Chunk := ⟨[73, 68, 65, 84], compressed, rfl, by decide⟩

def closing : Chunk := ⟨[73, 69, 78, 68], [], rfl, by decide⟩

def maskedPng : List UInt8 := SIGNATURE ++ [maskedHeader, pixel, closing].flatMap Chunk.bytes

def frame : Segment :=
  ⟨0, 192, [8, 0, 1, 0, 1, 1, 1, 17, 0], [], rfl, by decide, .nil, by decide⟩

def secondFrame : Segment :=
  ⟨0, 193, [8, 255, 255, 255, 255, 1, 1, 17, 0], [], rfl, by decide, .nil, by decide⟩

def scan : Segment :=
  ⟨0, 218, [1, 1, 0, 0, 63, 0], [0], rfl, by decide, .byte (by decide) .nil, by decide⟩

def twoFrames : List UInt8 := [255, 216] ++ tiles [frame, secondFrame, scan] 0

theorem maskedPng_accepted : png inflatePixel 100 maskedPng = some true := by decide +kernel

theorem twoFrames_accepted : jpeg 100 twoFrames = some true := by decide +kernel

theorem scanned_exactly_iff_sample :
    (IsPng inflated Chunk.Bears maskedPng ↔ PlainNames maskedPng) ∧
      (IsJpeg Foreign twoFrames ↔ KnownMarkers twoFrames) :=
  ⟨(scanned_exactly_iff inflatesAs_inflatePixel
      (by decide +kernel : maskedPng.length < 100)).2.1 maskedPng_accepted,
    (scanned_exactly_iff inflatesAs_inflatePixel
      (by decide +kernel : twoFrames.length < 100)).2.2 twoFrames_accepted⟩

/-- Accepted bytes that are not what they pass for. -/
theorem accepted_outside_structure :
    (png inflatePixel 100 maskedPng = some true ∧ ¬IsPng inflated Chunk.Bears maskedPng) ∧
      (jpeg 100 twoFrames = some true ∧ ¬IsJpeg Foreign twoFrames) := by
  refine ⟨⟨maskedPng_accepted, ?_⟩, twoFrames_accepted, ?_⟩
  · intro strict
    have plain := strict.plainNames _ rfl maskedHeader (by simp) 201 (by decide)
    exact absurd plain (by decide)
  · intro strict
    have known := (isJpeg_iff_knownMarkers (isJpeg_of_jpeg twoFrames_accepted)).mp strict
    apply known _ 0 rfl secondFrame (by simp)
    refine ⟨.inl ?_, ?_⟩
    · rw [IsFrame]
      decide
    · rw [IsHeader]
      decide

end Sample

end StudentHub.Documents
