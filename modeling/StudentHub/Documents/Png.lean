import StudentHub.Ecma.Buffer

/-!
# Admission of PNG images

The scanner goes from chunk to chunk. The name of a chunk is read as ASCII, which takes the highest
bit off each of its bytes, so the chunks of an accepted image bear their names up to that bit.
-/

namespace StudentHub.Documents

open Ecma Ecma.Buffer JsString

def crcBit (crc : UInt32) : UInt32 := (crc >>> 1) ^^^ (if crc &&& 1 ≠ 0 then 0xedb88320 else 0)

def crcByte (crc : UInt32) (byte : UInt8) : UInt32 := crcBit^[8] (crc ^^^ byte.toUInt32)

def crc32 (bytes : List UInt8) : UInt32 := bytes.foldl crcByte 0xffffffff ^^^ 0xffffffff

def SIGNATURE : List UInt8 := [0x89, 0x50, 0x4e, 0x47, 0x0d, 0x0a, 0x1a, 0x0a]

def channelsOf (colour : UInt8) : ℕ :=
  if colour = 0 then 1 else if colour = 2 then 3 else if colour = 4 then 2
  else if colour = 6 then 4 else 0

structure PngState where
  offset : ℕ
  width : ℕ
  height : ℕ
  channels : ℕ
  idatEnded : Bool
  data : List (List UInt8)

inductive PngStep
  | reject
  | next (state : PngState)
  | ended (state : PngState)

def headerFits (payload : List UInt8) : Bool :=
  let width := readUInt32BE payload 0
  let height := readUInt32BE payload 4
  width ≠ 0 && height ≠ 0 && width * height ≤ 16000000 && payload[8]? = some 8 &&
    channelsOf (payload.getD 9 0) ≠ 0 && payload[10]? = some 0 && payload[11]? = some 0 &&
    payload[12]? = some 0

def pngStep (bytes : List UInt8) (s : PngState) : PngStep :=
  let size := readUInt32BE bytes s.offset
  let stop := s.offset + 12 + size
  if stop > bytes.length then
    .reject
  else
    let type := asciiText (subarray bytes (s.offset + 4) (s.offset + 8))
    let payload := subarray bytes (s.offset + 8) (stop - 4)
    if (crc32 (subarray bytes (s.offset + 4) (stop - 4))).toNat ≠ readUInt32BE bytes (stop - 4) then
      .reject
    else if s.width = 0 ∧ type ≠ js "IHDR" then
      .reject
    else if type = js "IHDR" then
      if s.width ≠ 0 ∨ size ≠ 13 then
        .reject
      else if !headerFits payload then
        .reject
      else
        .next ⟨stop, readUInt32BE payload 0, readUInt32BE payload 4,
          channelsOf (payload.getD 9 0), s.idatEnded, s.data⟩
    else if type = js "IDAT" then
      if s.idatEnded then .reject else .next { s with offset := stop, data := s.data ++ [payload] }
    else if type = js "IEND" then
      if size ≠ 0 ∨ s.data = [] ∨ stop ≠ bytes.length then .reject
      else .ended { s with offset := stop }
    else if type ≠ js "sRGB" ∧ type ≠ js "gAMA" ∧ type ≠ js "pHYs" then
      .reject
    else
      .next { s with offset := stop, idatEnded := s.idatEnded || !s.data.isEmpty }

/-- The loop; `none` while it has not ended, and no state where it rejects. -/
def pngLoop (bytes : List UInt8) : ℕ → PngState → Option (Option PngState)
  | 0, _ => none
  | fuel + 1, s =>
      if s.offset + 12 ≤ bytes.length then
        match pngStep bytes s with
        | .reject => some none
        | .ended s => some (some s)
        | .next s => pngLoop bytes fuel s
      else
        some none

/-- `inflateSync` answers the buffer and `bytesWritten`, or it throws. -/
abbrev Inflate := List UInt8 → ℕ → Option (List UInt8 × ℕ)

def filtersFit (decoded : List UInt8) (stride height : ℕ) : Bool :=
  (List.range height).all fun row => decoded.getD (row * stride) 0 ≤ 4

def pngData (inflateSync : Inflate) (s : PngState) : Bool :=
  let stride := s.width * s.channels + 1
  let expected := stride * s.height
  let compressed := s.data.flatten
  match inflateSync compressed expected with
  | none => false
  | some (decoded, bytesWritten) =>
      decoded.length = expected && bytesWritten = compressed.length &&
        filtersFit decoded stride s.height

/-- The verdict, or `none` while the scanner has not ended. -/
def png (inflateSync : Inflate) (fuel : ℕ) (bytes : List UInt8) : Option Bool :=
  if subarray bytes 0 8 ≠ SIGNATURE then
    some false
  else
    (pngLoop bytes fuel ⟨8, 0, 0, 0, false, []⟩).map fun ended =>
      ended.any (pngData inflateSync)

structure Chunk where
  type : List UInt8
  payload : List UInt8
  fourBytes : type.length = 4
  small : payload.length < 256 ^ 4

/-- A chunk as it is written: size, type, payload and CRC. -/
def Chunk.bytes (chunk : Chunk) : List UInt8 :=
  bigEndian 4 chunk.payload.length ++ chunk.type ++ chunk.payload ++
    bigEndian 4 (crc32 (chunk.type ++ chunk.payload)).toNat

/-- The name as the scanner reads it. -/
def Chunk.name (chunk : Chunk) : JsString := asciiText chunk.type

section Chunks

variable {bytes rest rest' : List UInt8} {offset size stop : ℕ} {chunk chunk' : Chunk}
  {chunks chunks' : List Chunk}

theorem exists_chunk (isSize : readUInt32BE bytes offset = size) (isStop : offset + 12 + size = stop)
    (inside : stop ≤ bytes.length) (checked : (crc32 (subarray bytes (offset + 4) (stop - 4))).toNat =
      readUInt32BE bytes (stop - 4)) :
    ∃ chunk : Chunk, bytes.drop offset = chunk.bytes ++ bytes.drop stop ∧
      chunk.name = asciiText (subarray bytes (offset + 4) (offset + 8)) ∧
      chunk.payload = subarray bytes (offset + 8) (stop - 4) ∧ chunk.payload.length = size := by
  have payloadLength : (subarray bytes (offset + 8) (stop - 4)).length = size := by
    rw [length_subarray (by omega)]
    omega
  have sizeWord := @bigEndian_readUInt32BE bytes offset (by omega)
  rw [isSize] at sizeWord
  have crcWord := (@bigEndian_readUInt32BE bytes (stop - 4) (by omega)).1
  rw [show stop - 4 + 4 = stop by omega, ← checked] at crcWord
  refine ⟨⟨subarray bytes (offset + 4) (offset + 8), subarray bytes (offset + 8) (stop - 4), ?_,
    payloadLength ▸ sizeWord.2⟩, ?_, rfl, rfl, payloadLength⟩
  · rw [length_subarray (by omega)]
    omega
  · have covered := @subarray_append_subarray bytes (offset + 4) (offset + 8) (stop - 4) (by omega)
      (by omega)
    rw [Chunk.bytes]
    dsimp only
    rw [payloadLength, covered, sizeWord.1, crcWord,
      List.append_assoc, List.append_assoc, List.append_assoc, subarray_append_drop (by omega),
      subarray_append_drop (by omega), subarray_append_drop (by omega), subarray_append_drop (by omega)]

theorem Chunk.eq_of_bytes_append (same : chunk.bytes ++ rest = chunk'.bytes ++ rest') :
    chunk = chunk' ∧ rest = rest' := by
  simp only [Chunk.bytes, List.append_assoc] at same
  rcases List.append_inj same (by rw [length_bigEndian, length_bigEndian]) with ⟨sizes, behindSize⟩
  have sameLength := bigEndian_inj chunk.small chunk'.small sizes
  rcases List.append_inj behindSize (by rw [chunk.fourBytes, chunk'.fourBytes]) with
    ⟨sameType, behindType⟩
  rcases List.append_inj behindType sameLength with ⟨samePayload, behindPayload⟩
  rcases List.append_inj behindPayload (by rw [length_bigEndian, length_bigEndian]) with
    ⟨-, sameRest⟩
  cases chunk
  cases chunk'
  rw [Chunk.mk.injEq]
  exact ⟨⟨sameType, samePayload⟩, sameRest⟩

theorem Chunk.bytes_ne_nil (chunk : Chunk) (rest : List UInt8) : chunk.bytes ++ rest ≠ [] := by
  have size := length_bigEndian 4 chunk.payload.length
  intro empty
  simp only [Chunk.bytes, List.append_eq_nil_iff] at empty
  rw [empty.1.1.1.1] at size
  cases size

theorem eq_of_flatMap_eq (same : chunks.flatMap Chunk.bytes = chunks'.flatMap Chunk.bytes) :
    chunks = chunks' := by
  induction chunks generalizing chunks' with
  | nil =>
      cases chunks' with
      | nil => rfl
      | cons chunk' chunks' => exact absurd same.symm (chunk'.bytes_ne_nil _)
  | cons chunk chunks ih =>
      cases chunks' with
      | nil => exact absurd same (chunk.bytes_ne_nil _)
      | cons chunk' chunks' =>
          rw [List.flatMap_cons, List.flatMap_cons] at same
          rcases Chunk.eq_of_bytes_append same with ⟨sameChunk, sameRest⟩
          rw [sameChunk, ih sameRest]

end Chunks

section Accepted

variable {bytes : List UInt8} {s s' : PngState} {fuel : ℕ} {inflateSync : Inflate}
  {decompresses : List UInt8 → List UInt8 → Prop}

def IsAncillary (name : JsString) : Prop :=
  name = js "sRGB" ∨ name = js "gAMA" ∨ name = js "pHYs"

theorem pngStep_cases {result : PngStep} (stepped : pngStep bytes s = result)
    (taken : result ≠ .reject) : ∃ (chunk : Chunk) (stop : ℕ),
    s.offset < stop ∧ stop ≤ bytes.length ∧ bytes.drop s.offset = chunk.bytes ++ bytes.drop stop ∧
      ((chunk.name = js "IHDR" ∧ s.width = 0 ∧ chunk.payload.length = 13 ∧
          headerFits chunk.payload = true ∧
          result = .next ⟨stop, readUInt32BE chunk.payload 0, readUInt32BE chunk.payload 4,
            channelsOf (chunk.payload.getD 9 0), s.idatEnded, s.data⟩) ∨
        (chunk.name = js "IDAT" ∧ s.width ≠ 0 ∧ s.idatEnded = false ∧
          result = .next { s with offset := stop, data := s.data ++ [chunk.payload] }) ∨
        (chunk.name = js "IEND" ∧ s.width ≠ 0 ∧ chunk.payload = [] ∧ s.data ≠ [] ∧
          stop = bytes.length ∧ result = .ended { s with offset := stop }) ∨
        (IsAncillary chunk.name ∧ s.width ≠ 0 ∧
          result = .next { s with offset := stop, idatEnded := s.idatEnded || !s.data.isEmpty })) := by
  rw [pngStep] at stepped
  dsimp only at stepped
  split_ifs at stepped with short checked first isHeader second refused isData late isEnd wrong unknown
  all_goals try exact absurd stepped.symm taken
  all_goals
    rcases exists_chunk rfl rfl (Nat.le_of_not_lt short) (not_not.mp checked) with
      ⟨chunk, isChunk, isName, isPayload, isLength⟩
    refine ⟨chunk, _, by omega, Nat.le_of_not_lt short, isChunk, ?_⟩
  · simp only [not_or, not_not] at second
    rw [← isPayload, Bool.not_eq_true', Bool.not_eq_false] at refused
    rw [← isPayload] at stepped
    exact .inl ⟨isName.trans isHeader, second.1, isLength.trans second.2, refused, stepped.symm⟩
  · rw [← isPayload] at stepped
    exact .inr (.inl ⟨isName.trans isData, fun none => first ⟨none, isHeader⟩, by simpa using late,
      stepped.symm⟩)
  · simp only [not_or, not_not] at wrong
    exact .inr (.inr (.inl ⟨isName.trans isEnd, fun none => first ⟨none, isHeader⟩,
      List.eq_nil_of_length_eq_zero (isLength.trans wrong.1), wrong.2.1, wrong.2.2, stepped.symm⟩))
  · refine .inr (.inr (.inr ⟨?_, fun none => first ⟨none, isHeader⟩, stepped.symm⟩))
    rw [IsAncillary, isName]
    tauto

def Stage (s : PngState) (chunks : List Chunk) : Prop :=
  (s.width = 0 ∧ s.data = [] ∧ s.idatEnded = false ∧ chunks = []) ∨
    ∃ header before data after, chunks = header :: before ++ data ++ after ∧
      (header.name = js "IHDR" ∧ header.payload.length = 13 ∧ headerFits header.payload = true ∧
        s.width = readUInt32BE header.payload 0 ∧ s.height = readUInt32BE header.payload 4 ∧
        s.channels = channelsOf (header.payload.getD 9 0)) ∧
      (∀ chunk ∈ before ++ after, IsAncillary chunk.name) ∧
      (∀ chunk ∈ data, chunk.name = js "IDAT") ∧ s.data = data.map Chunk.payload ∧
      (s.idatEnded = false → after = []) ∧ (s.idatEnded = true → data ≠ [])

theorem width_ne_zero {payload : List UInt8} (fits : headerFits payload = true) :
    readUInt32BE payload 0 ≠ 0 := by
  simp only [headerFits, Bool.and_eq_true, decide_eq_true_eq] at fits
  exact fits.1.1.1.1.1.1.1

theorem Stage.header {chunk : Chunk} {stop : ℕ} {chunks : List Chunk} (stage : Stage s chunks)
    (start : s.width = 0) (isName : chunk.name = js "IHDR") (length : chunk.payload.length = 13)
    (fits : headerFits chunk.payload = true) :
    Stage ⟨stop, readUInt32BE chunk.payload 0, readUInt32BE chunk.payload 4,
      channelsOf (chunk.payload.getD 9 0), s.idatEnded, s.data⟩ (chunks ++ [chunk]) := by
  rcases stage with ⟨-, noData, notEnded, rfl⟩ | ⟨header, before, data, after, -, isHeader, -⟩
  · exact .inr ⟨chunk, [], [], [], rfl, ⟨isName, length, fits, rfl, rfl, rfl⟩, by simp, by simp,
      noData, fun _ => rfl, fun ended => absurd ended (by simp [notEnded])⟩
  · rw [isHeader.2.2.2.1] at start
    exact absurd start (width_ne_zero isHeader.2.2.1)

theorem Stage.idat {chunk : Chunk} {stop : ℕ} {chunks : List Chunk} (stage : Stage s chunks)
    (begun : s.width ≠ 0) (isName : chunk.name = js "IDAT") (running : s.idatEnded = false) :
    Stage { s with offset := stop, data := s.data ++ [chunk.payload] } (chunks ++ [chunk]) := by
  rcases stage with ⟨start, -⟩ | ⟨header, before, data, after, rfl, isHeader, ancillary, isData,
    payloads, noneAfter, -⟩
  · exact absurd start begun
  · rw [noneAfter running] at ancillary ⊢
    refine .inr ⟨header, before, data ++ [chunk], [], by simp, isHeader, ancillary, ?_, ?_,
      fun _ => rfl, by simp⟩
    · rw [List.forall_mem_append]
      exact ⟨isData, by simpa using isName⟩
    · simp only [List.map_append, List.map_cons, List.map_nil, payloads]

theorem Stage.ancillary {chunk : Chunk} {stop : ℕ} {chunks : List Chunk} (stage : Stage s chunks)
    (begun : s.width ≠ 0) (isName : IsAncillary chunk.name) :
    Stage { s with offset := stop, idatEnded := s.idatEnded || !s.data.isEmpty }
      (chunks ++ [chunk]) := by
  rcases stage with ⟨start, -⟩ | ⟨header, before, data, after, rfl, isHeader, ancillary, isData,
    payloads, noneAfter, someData⟩
  · exact absurd start begun
  · have isEmpty : s.data.isEmpty = data.isEmpty := by rw [payloads, List.isEmpty_map]
    cases data with
    | nil =>
        have notEnded : s.idatEnded = false := by
          cases ended : s.idatEnded with
          | false => rfl
          | true => exact absurd rfl (someData ended)
        rw [noneAfter notEnded] at ancillary ⊢
        refine .inr ⟨header, before ++ [chunk], [], [], by simp, isHeader, ?_, isData, payloads,
          fun _ => rfl, ?_⟩
        · rw [List.append_nil] at ancillary ⊢
          rw [List.forall_mem_append]
          exact ⟨ancillary, by simpa using isName⟩
        · simp [notEnded, isEmpty]
    | cons first rest =>
        refine .inr ⟨header, before, first :: rest, after ++ [chunk], by simp, isHeader, ?_, isData,
          payloads, ?_, by simp⟩
        · rw [← List.append_assoc, List.forall_mem_append]
          exact ⟨ancillary, by simpa using isName⟩
        · simp [isEmpty]

def Scanned (bytes : List UInt8) (s : PngState) : Prop :=
  ∃ chunks, bytes = SIGNATURE ++ chunks.flatMap Chunk.bytes ++ bytes.drop s.offset ∧ Stage s chunks

theorem Scanned.next (scanned : Scanned bytes s) (stepped : pngStep bytes s = .next s') :
    Scanned bytes s' := by
  rcases scanned with ⟨chunks, tiled, stage⟩
  rcases pngStep_cases stepped (by simp) with ⟨chunk, stop, -, -, isChunk, cases⟩
  have tiles : bytes = SIGNATURE ++ (chunks ++ [chunk]).flatMap Chunk.bytes ++ bytes.drop stop := by
    rw [isChunk] at tiled
    simpa using tiled
  rcases cases with ⟨isName, start, length, fits, isNext⟩ | ⟨isName, begun, running, isNext⟩ |
    ⟨-, -, -, -, -, isNext⟩ | ⟨isName, begun, isNext⟩
  · cases isNext
    exact ⟨_, tiles, stage.header start isName length fits⟩
  · cases isNext
    exact ⟨_, tiles, stage.idat begun isName running⟩
  · cases isNext
  · cases isNext
    exact ⟨_, tiles, stage.ancillary begun isName⟩

theorem exists_pngLoop (enough : bytes.length - s.offset < fuel) :
    ∃ ended, pngLoop bytes fuel s = some ended := by
  induction fuel generalizing s with
  | zero => exact absurd enough (Nat.not_lt_zero _)
  | succ fuel ih =>
      rw [pngLoop]
      split_ifs with inside
      · cases stepped : pngStep bytes s with
        | reject => exact ⟨none, rfl⟩
        | ended s' => exact ⟨some s', rfl⟩
        | next s' =>
            apply ih
            rcases pngStep_cases stepped (by simp) with ⟨chunk, stop, further, within, -, cases⟩
            rcases cases with ⟨-, -, -, -, isNext⟩ | ⟨-, -, -, isNext⟩ | ⟨-, -, -, -, -, isNext⟩ |
              ⟨-, -, isNext⟩
            all_goals
              cases isNext
            all_goals
              dsimp only
              omega
      · exact ⟨none, rfl⟩

theorem ended_of_pngLoop (scanned : Scanned bytes s) (ended : pngLoop bytes fuel s = some (some s')) :
    ∃ chunks final, bytes = SIGNATURE ++ (chunks ++ [final]).flatMap Chunk.bytes ∧
      final.name = js "IEND" ∧ final.payload = [] ∧ Stage s' chunks ∧ s'.width ≠ 0 ∧ s'.data ≠ [] := by
  induction fuel generalizing s with
  | zero => cases ended
  | succ fuel ih =>
      rw [pngLoop] at ended
      split_ifs at ended
      · cases stepped : pngStep bytes s with
        | reject =>
            rw [stepped] at ended
            cases ended
        | next next =>
            rw [stepped] at ended
            exact ih (scanned.next stepped) ended
        | ended last =>
            rw [stepped] at ended
            cases ended
            rcases scanned with ⟨chunks, tiled, stage⟩
            rcases pngStep_cases stepped (by simp) with ⟨chunk, stop, -, -, isChunk, cases⟩
            rcases cases with ⟨-, -, -, -, isEnd⟩ | ⟨-, -, -, isEnd⟩ |
              ⟨isName, begun, noPayload, someData, atEnd, isEnd⟩ | ⟨-, -, isEnd⟩
            · cases isEnd
            · cases isEnd
            · cases isEnd
              refine ⟨chunks, chunk, ?_, isName, noPayload, stage, begun, someData⟩
              rw [isChunk, atEnd, List.drop_length] at tiled
              simpa using tiled
            · cases isEnd
      · cases ended

/-- `inflateSync` answers what the bytes it has taken decompress to. -/
def InflatesAs (decompresses : List UInt8 → List UInt8 → Prop) (inflateSync : Inflate) : Prop :=
  ∀ compressed limit decoded bytesWritten,
    inflateSync compressed limit = some (decoded, bytesWritten) →
      decompresses (compressed.take bytesWritten) decoded

/-- The declared structure of an image: the signature, and chunks that tile the rest. Which chunks
bear a name is left open. -/
def IsPng (decompresses : List UInt8 → List UInt8 → Prop) (bears : Chunk → JsString → Prop)
    (bytes : List UInt8) : Prop :=
  ∃ header before data after final,
    bytes = SIGNATURE ++ (header :: before ++ data ++ after ++ [final]).flatMap Chunk.bytes ∧
    (bears header (js "IHDR") ∧ header.payload.length = 13 ∧ headerFits header.payload = true) ∧
    (∀ chunk ∈ before ++ after,
      bears chunk (js "sRGB") ∨ bears chunk (js "gAMA") ∨ bears chunk (js "pHYs")) ∧
    (data ≠ [] ∧ ∀ chunk ∈ data, bears chunk (js "IDAT")) ∧
    (bears final (js "IEND") ∧ final.payload = []) ∧
    ∃ decoded, decompresses (data.flatMap Chunk.payload) decoded ∧
      decoded.length = (readUInt32BE header.payload 0 * channelsOf (header.payload.getD 9 0) + 1) *
        readUInt32BE header.payload 4 ∧
      filtersFit decoded (readUInt32BE header.payload 0 * channelsOf (header.payload.getD 9 0) + 1)
        (readUInt32BE header.payload 4) = true

def Chunk.Reads (chunk : Chunk) (name : JsString) : Prop := chunk.name = name

def Chunk.Bears (chunk : Chunk) (name : JsString) : Prop :=
  chunk.type = name.map fun unit => unit.toNat.toUInt8

def Chunk.Plain (chunk : Chunk) : Prop := ∀ byte ∈ chunk.type, byte.toNat < 0x80

def PlainNames (bytes : List UInt8) : Prop :=
  ∀ chunks : List Chunk, bytes = SIGNATURE ++ chunks.flatMap Chunk.bytes →
    ∀ chunk ∈ chunks, chunk.Plain

theorem isPng_of_png (inflates : InflatesAs decompresses inflateSync)
    (accepted : png inflateSync fuel bytes = some true) : IsPng decompresses Chunk.Reads bytes := by
  rw [png] at accepted
  split_ifs at accepted with signature
  · cases accepted
  · rcases Option.map_eq_some_iff.mp accepted with ⟨ended, isEnded, fits⟩
    cases ended with
    | none => cases fits
    | some s =>
        have start : Scanned bytes ⟨8, 0, 0, 0, false, []⟩ := by
          refine ⟨[], ?_, .inl ⟨rfl, rfl, rfl, rfl⟩⟩
          rw [← not_not.mp signature]
          simp [subarray]
        rcases ended_of_pngLoop start isEnded with
          ⟨chunks, final, tiled, isFinal, noPayload, stage, begun, someData⟩
        rcases stage with ⟨none, -⟩ | ⟨header, before, data, after, rfl, isHeader, ancillary, isData,
          payloads, -⟩
        · exact absurd none begun
        · rcases isHeader with ⟨isHeader, length, admitted, isWidth, isHeight, isChannels⟩
          have dataPresent : data ≠ [] := by
            rintro rfl
            exact someData payloads
          refine ⟨header, before, data, after, final, tiled, ⟨isHeader, length, admitted⟩,
            ancillary, ⟨dataPresent, isData⟩, ⟨isFinal, noPayload⟩, ?_⟩
          simp only [Option.any_some, pngData] at fits
          split at fits
          · cases fits
          · rename_i decoded bytesWritten inflated
            simp only [Bool.and_eq_true, decide_eq_true_eq] at fits
            rcases fits with ⟨⟨isLength, allWritten⟩, filters⟩
            rw [isWidth, isHeight, isChannels] at isLength filters
            refine ⟨decoded, ?_, isLength, filters⟩
            have given := inflates _ _ _ _ inflated
            rw [allWritten, List.take_length, payloads, ← List.flatMap_def] at given
            exact given

theorem png_ends (enough : bytes.length < fuel) : ∃ verdict, png inflateSync fuel bytes = some verdict := by
  rw [png]
  split_ifs
  · exact ⟨false, rfl⟩
  · rcases @exists_pngLoop bytes ⟨8, 0, 0, 0, false, []⟩ fuel (by dsimp only; omega) with
      ⟨ended, isEnded⟩
    rw [isEnded]
    exact ⟨_, rfl⟩

theorem toNat_byte {unit : UInt16} (ascii : unit.toNat < 0x80) :
    unit.toNat.toUInt8.toNat = unit.toNat := toNat_toUInt8 (by omega)

theorem plain_bytes {name : JsString} (ascii : ∀ unit ∈ name, unit.toNat < 0x80) :
    ∀ byte ∈ name.map fun unit => unit.toNat.toUInt8, byte.toNat < 0x80 := by
  intro byte isByte
  rcases List.mem_map.mp isByte with ⟨unit, isUnit, rfl⟩
  rw [toNat_byte (ascii unit isUnit)]
  exact ascii unit isUnit

theorem asciiText_bytes {name : JsString} (ascii : ∀ unit ∈ name, unit.toNat < 0x80) :
    asciiText (name.map fun unit => unit.toNat.toUInt8) = name := by
  rw [asciiText, List.map_map]
  conv_rhs => rw [← List.map_id name]
  apply List.map_congr_left
  intro unit isUnit
  have small := ascii unit isUnit
  rw [Function.comp_apply, toNat_byte small, Nat.mod_eq_of_lt small]
  exact UInt16.ofNat_toNat

theorem reads_iff {chunk : Chunk} {name : JsString} (plain : chunk.Plain)
    (ascii : ∀ unit ∈ name, unit.toNat < 0x80) : chunk.Reads name ↔ chunk.Bears name := by
  rw [Chunk.Reads, Chunk.Bears, Chunk.name]
  constructor
  · intro reads
    apply eq_of_asciiText_eq plain (plain_bytes ascii)
    rw [reads, asciiText_bytes ascii]
  · intro bears
    rw [bears, asciiText_bytes ascii]

theorem plain_of_bears {chunk : Chunk} {name : JsString} (ascii : ∀ unit ∈ name, unit.toNat < 0x80)
    (bears : chunk.Bears name) : chunk.Plain := by
  rw [Chunk.Plain, bears]
  exact plain_bytes ascii

theorem ascii_names : ∀ name ∈ [js "IHDR", js "sRGB", js "gAMA", js "pHYs", js "IDAT", js "IEND"],
    ∀ unit ∈ name, unit.toNat < 0x80 := by
  simp [js, codeUnits]

theorem IsPng.plainNames (strict : IsPng decompresses Chunk.Bears bytes) : PlainNames bytes := by
  rcases strict with ⟨header, before, data, after, final, tiled, ⟨isHeader, -⟩, ancillary,
    ⟨-, isData⟩, ⟨isFinal, -⟩, -⟩
  have plain : ∀ {chunk : Chunk}, ∀ name ∈ [js "IHDR", js "sRGB", js "gAMA", js "pHYs", js "IDAT",
      js "IEND"], chunk.Bears name → chunk.Plain :=
    fun name isName bears => plain_of_bears (ascii_names name isName) bears
  have plainAncillary : ∀ chunk ∈ before ++ after, chunk.Plain := by
    intro chunk isChunk
    rcases ancillary chunk isChunk with bears | bears | bears
    · exact plain _ (by simp) bears
    · exact plain _ (by simp) bears
    · exact plain _ (by simp) bears
  rw [List.forall_mem_append] at plainAncillary
  intro chunks tiled' chunk isChunk
  rw [tiled] at tiled'
  rw [← eq_of_flatMap_eq (List.append_cancel_left tiled')] at isChunk
  simp only [List.mem_append, List.mem_cons, List.not_mem_nil, or_false] at isChunk
  rcases isChunk with (((rfl | isChunk) | isChunk) | isChunk) | rfl
  · exact plain _ (by simp) isHeader
  · exact plainAncillary.1 chunk isChunk
  · exact plain _ (by simp) (isData chunk isChunk)
  · exact plainAncillary.2 chunk isChunk
  · exact plain _ (by simp) isFinal

theorem IsPng.bears (loose : IsPng decompresses Chunk.Reads bytes) (plain : PlainNames bytes) :
    IsPng decompresses Chunk.Bears bytes := by
  rcases loose with ⟨header, before, data, after, final, tiled, ⟨isHeader, headed⟩, ancillary,
    ⟨someData, isData⟩, ⟨isFinal, noPayload⟩, inflated⟩
  have bears : ∀ name ∈ [js "IHDR", js "sRGB", js "gAMA", js "pHYs", js "IDAT", js "IEND"],
      ∀ chunk ∈ header :: before ++ data ++ after ++ [final], chunk.Reads name → chunk.Bears name := by
    intro name isName chunk isChunk
    exact (reads_iff (plain _ tiled chunk isChunk) (ascii_names name isName)).mp
  refine ⟨header, before, data, after, final, tiled, ⟨bears _ (by simp) _ (by simp) isHeader, headed⟩,
    ?_, ⟨someData, ?_⟩, ⟨bears _ (by simp) _ (by simp) isFinal, noPayload⟩, inflated⟩
  · intro chunk isChunk
    have read : chunk ∈ header :: before ++ data ++ after ++ [final] := by
      rw [List.mem_append] at isChunk
      simp only [List.mem_append, List.mem_cons]
      tauto
    rcases ancillary chunk isChunk with reads | reads | reads
    · exact .inl (bears _ (by simp) _ read reads)
    · exact .inr (.inl (bears _ (by simp) _ read reads))
    · exact .inr (.inr (bears _ (by simp) _ read reads))
  · intro chunk isChunk
    exact bears _ (by simp) _ (by simp [isChunk]) (isData chunk isChunk)

theorem isPng_iff_plainNames (loose : IsPng decompresses Chunk.Reads bytes) :
    IsPng decompresses Chunk.Bears bytes ↔ PlainNames bytes :=
  ⟨IsPng.plainNames, loose.bears⟩

end Accepted

end StudentHub.Documents
