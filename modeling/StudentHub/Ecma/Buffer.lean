import StudentHub.Ecma.CodePoints
import StudentHub.Order.Terminated

/-!
# Buffers

The bytes of a text in UTF-8 and their text in base64url. A decoder replaces what is not UTF-8 by
U+FFFD, so only the bytes of a text are read back as they were; what is in base64url always is.
-/

namespace Ecma

namespace Buffer

open JsString

def encodeCode (code : ℕ) : List UInt8 :=
  if code < 0x80 then
    [code.toUInt8]
  else if code < 0x800 then
    [(0xC0 + code / 64).toUInt8, (0x80 + code % 64).toUInt8]
  else if code < 0x10000 then
    [(0xE0 + code / 4096).toUInt8, (0x80 + code / 64 % 64).toUInt8, (0x80 + code % 64).toUInt8]
  else
    [(0xF0 + code / 262144).toUInt8, (0x80 + code / 4096 % 64).toUInt8,
      (0x80 + code / 64 % 64).toUInt8, (0x80 + code % 64).toUInt8]

/-- `Buffer.from(text, "utf8")` -/
def ofText (text : JsString) : List UInt8 := text.toWellFormed.codePoints.flatMap encodeCode

def unitsOfCode (code : ℕ) : JsString :=
  if code < 0x10000 then
    [code.toUInt16]
  else
    [(0xD800 + (code - 0x10000) / 0x400).toUInt16, (0xDC00 + (code - 0x10000) % 0x400).toUInt16]

/-- A sequence that is not at its end: how many bytes are missing, what is read of the code point,
and between which bounds the next byte is. -/
structure Sequence where
  missing : ℕ
  code : ℕ
  lower : UInt8
  upper : UInt8

inductive FirstByte
  | unit (code : ℕ)
  | opens (sequence : Sequence)
  | malformed

def firstByte (byte : UInt8) : FirstByte :=
  if byte ≤ 0x7F then
    .unit byte.toNat
  else if 0xC2 ≤ byte ∧ byte ≤ 0xDF then
    .opens ⟨1, byte.toNat - 0xC0, 0x80, 0xBF⟩
  else if 0xE0 ≤ byte ∧ byte ≤ 0xEF then
    .opens ⟨2, byte.toNat - 0xE0, if byte = 0xE0 then 0xA0 else 0x80,
      if byte = 0xED then 0x9F else 0xBF⟩
  else if 0xF0 ≤ byte ∧ byte ≤ 0xF4 then
    .opens ⟨3, byte.toNat - 0xF0, if byte = 0xF0 then 0x90 else 0x80,
      if byte = 0xF4 then 0x8F else 0xBF⟩
  else
    .malformed

/-- `toString("utf8")` with what has been read of a sequence: one that breaks off is replaced, and
the byte that broke it is read again. -/
def decode : Option Sequence → List UInt8 → JsString
  | none, [] => []
  | some _, [] => [0xFFFD]
  | pending, byte :: rest =>
      match pending.filter fun sequence => sequence.lower ≤ byte && byte ≤ sequence.upper with
      | some sequence =>
          let code := sequence.code * 64 + (byte.toNat - 0x80)
          if sequence.missing ≤ 1 then
            unitsOfCode code ++ decode none rest
          else
            decode (some ⟨sequence.missing - 1, code, 0x80, 0xBF⟩) rest
      | none =>
          (if pending.isSome then [0xFFFD] else []) ++
            match firstByte byte with
            | .unit code => unitsOfCode code ++ decode none rest
            | .opens sequence => decode (some sequence) rest
            | .malformed => 0xFFFD :: decode none rest

/-- `toString("utf8")` -/
def toText (bytes : List UInt8) : JsString := decode none bytes

section Utf8

variable {text : JsString} {code : ℕ} {rest : List UInt8}

theorem toNat_toUInt8 {number : ℕ} (small : number < 256) : number.toUInt8.toNat = number := by
  rw [Nat.toUInt8, UInt8.toNat_ofNat', Nat.mod_eq_of_lt small]

theorem toNat_toUInt16 {number : ℕ} (small : number < 65536) : number.toUInt16.toNat = number := by
  rw [Nat.toUInt16, UInt16.toNat_ofNat', Nat.mod_eq_of_lt small]

def IsScalar (code : ℕ) : Prop := code < 0x110000 ∧ ¬(0xD800 ≤ code ∧ code ≤ 0xDFFF)

theorem decode_none_cons (byte : UInt8) : decode none (byte :: rest) =
    match firstByte byte with
    | .unit code => unitsOfCode code ++ decode none rest
    | .opens sequence => decode (some sequence) rest
    | .malformed => 0xFFFD :: decode none rest := rfl

theorem decode_some_cons {sequence : Sequence} {byte : UInt8}
    (lower : sequence.lower.toNat ≤ byte.toNat) (upper : byte.toNat ≤ sequence.upper.toNat) :
    decode (some sequence) (byte :: rest) =
      if sequence.missing ≤ 1 then
        unitsOfCode (sequence.code * 64 + (byte.toNat - 0x80)) ++ decode none rest
      else
        decode (some ⟨sequence.missing - 1, sequence.code * 64 + (byte.toNat - 0x80), 0x80, 0xBF⟩)
          rest := by
  have within : (some sequence).filter (fun sequence =>
      sequence.lower ≤ byte && byte ≤ sequence.upper) = some sequence := by
    simp [UInt8.le_iff_toNat_le, lower, upper]
  rw [decode.eq_3]
  simp only [within]

theorem decode_tail {missing before : ℕ} {number : ℕ} (more : 2 ≤ missing) (small : number < 64) :
    decode (some ⟨missing, before, 0x80, 0xBF⟩) ((0x80 + number).toUInt8 :: rest) =
      decode (some ⟨missing - 1, before * 64 + number, 0x80, 0xBF⟩) rest := by
  have isByte : (0x80 + number).toUInt8.toNat = 0x80 + number := toNat_toUInt8 (by omega)
  rw [decode_some_cons, if_neg (by simp only [not_le]; omega), isByte, Nat.add_sub_cancel_left]
  · simp only [isByte, UInt8.reduceToNat]
    omega
  · simp only [isByte, UInt8.reduceToNat]
    omega

theorem decode_last {before number : ℕ} (small : number < 64) :
    decode (some ⟨1, before, 0x80, 0xBF⟩) ((0x80 + number).toUInt8 :: rest) =
      unitsOfCode (before * 64 + number) ++ decode none rest := by
  have isByte : (0x80 + number).toUInt8.toNat = 0x80 + number := toNat_toUInt8 (by omega)
  rw [decode_some_cons, if_pos (le_refl 1), isByte, Nat.add_sub_cancel_left]
  · simp only [isByte, UInt8.reduceToNat]
    omega
  · simp only [isByte, UInt8.reduceToNat]
    omega

theorem decode_encodeCode (scalar : IsScalar code) :
    decode none (encodeCode code ++ rest) = unitsOfCode code ++ decode none rest := by
  rcases scalar with ⟨small, notSurrogate⟩
  rw [encodeCode]
  split_ifs with one two three
  · have isByte : code.toUInt8.toNat = code := toNat_toUInt8 (by omega)
    have first : firstByte code.toUInt8 = .unit code := by
      rw [firstByte, if_pos, isByte]
      rw [UInt8.le_iff_toNat_le, isByte]
      simp only [UInt8.reduceToNat]
      omega
    rw [List.cons_append, decode_none_cons, first]
    rfl
  · have isByte : (0xC0 + code / 64).toUInt8.toNat = 0xC0 + code / 64 := toNat_toUInt8 (by omega)
    have first : firstByte (0xC0 + code / 64).toUInt8 = .opens ⟨1, code / 64, 0x80, 0xBF⟩ := by
      rw [firstByte, if_neg, if_pos, isByte, Nat.add_sub_cancel_left]
      · simp only [UInt8.le_iff_toNat_le, isByte, UInt8.reduceToNat]
        omega
      · simp only [UInt8.le_iff_toNat_le, isByte, UInt8.reduceToNat]
        omega
    rw [List.cons_append, decode_none_cons, first]
    simp only [List.cons_append, List.nil_append]
    rw [decode_last (Nat.mod_lt _ (by decide)), Nat.div_add_mod']
  · have isByte : (0xE0 + code / 4096).toUInt8.toNat = 0xE0 + code / 4096 :=
      toNat_toUInt8 (by omega)
    have isSecond : (0x80 + code / 64 % 64).toUInt8.toNat = 0x80 + code / 64 % 64 :=
      toNat_toUInt8 (by omega)
    have first : firstByte (0xE0 + code / 4096).toUInt8 = .opens ⟨2, code / 4096,
        if (0xE0 + code / 4096).toUInt8 = 0xE0 then 0xA0 else 0x80,
        if (0xE0 + code / 4096).toUInt8 = 0xED then 0x9F else 0xBF⟩ := by
      rw [firstByte, if_neg, if_neg, if_pos, isByte, Nat.add_sub_cancel_left]
      all_goals
        simp only [UInt8.le_iff_toNat_le, isByte, UInt8.reduceToNat]
        omega
    rw [List.cons_append, decode_none_cons, first]
    simp only [List.cons_append, List.nil_append]
    have whole : (code / 4096 * 64 + code / 64 % 64) * 64 + code % 64 = code := by omega
    rw [decode_some_cons, if_neg (by simp), isSecond, Nat.add_sub_cancel_left, Nat.add_one_sub_one,
      decode_last (Nat.mod_lt _ (by decide)), whole]
    · simp only [← UInt8.toNat_inj, isByte, isSecond, UInt8.reduceToNat]
      split_ifs <;> simp only [UInt8.reduceToNat] <;> omega
    · simp only [← UInt8.toNat_inj, isByte, isSecond, UInt8.reduceToNat]
      split_ifs <;> simp only [UInt8.reduceToNat] <;> omega
  · have isByte : (0xF0 + code / 262144).toUInt8.toNat = 0xF0 + code / 262144 :=
      toNat_toUInt8 (by omega)
    have isSecond : (0x80 + code / 4096 % 64).toUInt8.toNat = 0x80 + code / 4096 % 64 :=
      toNat_toUInt8 (by omega)
    have first : firstByte (0xF0 + code / 262144).toUInt8 = .opens ⟨3, code / 262144,
        if (0xF0 + code / 262144).toUInt8 = 0xF0 then 0x90 else 0x80,
        if (0xF0 + code / 262144).toUInt8 = 0xF4 then 0x8F else 0xBF⟩ := by
      rw [firstByte, if_neg, if_neg, if_neg, if_pos, isByte, Nat.add_sub_cancel_left]
      all_goals
        simp only [UInt8.le_iff_toNat_le, isByte, UInt8.reduceToNat]
        omega
    rw [List.cons_append, decode_none_cons, first]
    simp only [List.cons_append, List.nil_append]
    have whole : ((code / 262144 * 64 + code / 4096 % 64) * 64 + code / 64 % 64) * 64 + code % 64 =
        code := by
      omega
    rw [decode_some_cons, if_neg (by simp), isSecond, Nat.add_sub_cancel_left,
      decode_tail (by simp) (Nat.mod_lt _ (by decide))]
    simp only [Nat.reduceSub]
    rw [decode_last (Nat.mod_lt _ (by decide)), whole]
    · simp only [← UInt8.toNat_inj, isByte, isSecond, UInt8.reduceToNat]
      split_ifs <;> simp only [UInt8.reduceToNat] <;> omega
    · simp only [← UInt8.toNat_inj, isByte, isSecond, UInt8.reduceToNat]
      split_ifs <;> simp only [UInt8.reduceToNat] <;> omega

theorem flatMap_unitsOfCode (text : JsString) : text.codePoints.flatMap unitsOfCode = text := by
  have alone : ∀ unit : UInt16, unitsOfCode unit.toNat = [unit] := by
    intro unit
    have bound := unit.toNat_lt
    rw [unitsOfCode, if_pos (by omega), Nat.toUInt16, UInt16.ofNat_toNat]
  induction text using codePoints.induct with
  | case1 => rfl
  | case2 unit =>
      rw [codePoints, List.flatMap_cons, alone]
      rfl
  | case3 first second rest pair ih =>
      have isPair := pair
      simp only [isHighSurrogate, isLowSurrogate, Bool.and_eq_true, decide_eq_true_eq,
        UInt16.le_iff_toNat_le, UInt16.reduceToNat] at isPair
      have high : 0xD800 + (0x10000 + (first.toNat - 0xD800) * 0x400 + (second.toNat - 0xDC00) -
          0x10000) / 0x400 = first.toNat := by omega
      have low : 0xDC00 + (0x10000 + (first.toNat - 0xD800) * 0x400 + (second.toNat - 0xDC00) -
          0x10000) % 0x400 = second.toNat := by omega
      rw [codePoints, if_pos pair, List.flatMap_cons, ih, unitsOfCode, if_neg (by omega), high, low]
      simp only [Nat.toUInt16_eq, UInt16.ofNat_toNat, List.cons_append, List.nil_append]
  | case4 first second rest single ih =>
      rw [codePoints, if_neg single, List.flatMap_cons, alone, ih]
      rfl

theorem isScalar_of_isSurrogate {unit : UInt16} (scalar : isSurrogate unit = false) :
    IsScalar unit.toNat := by
  have bound := unit.toNat_lt
  simp only [isSurrogate, isHighSurrogate, isLowSurrogate, Bool.or_eq_false_iff,
    Bool.and_eq_false_iff, decide_eq_false_iff_not, UInt16.le_iff_toNat_le, UInt16.reduceToNat] at scalar
  exact ⟨by omega, by omega⟩

theorem isScalar_of_mem_codePoints (wellFormed : text.WellFormed) :
    ∀ code ∈ text.codePoints, IsScalar code := by
  induction text using codePoints.induct with
  | case1 => simp [codePoints]
  | case2 unit =>
      have scalar := isSurrogate_replaced unit
      simp only [WellFormed, toWellFormed, List.cons.injEq, and_true] at wellFormed
      rw [wellFormed] at scalar
      rw [codePoints, List.forall_mem_singleton]
      exact isScalar_of_isSurrogate scalar
  | case3 first second rest pair ih =>
      have isPair := pair
      simp only [WellFormed, toWellFormed, if_pos pair, List.cons.injEq, true_and] at wellFormed
      simp only [isHighSurrogate, isLowSurrogate, Bool.and_eq_true, decide_eq_true_eq,
        UInt16.le_iff_toNat_le, UInt16.reduceToNat] at isPair
      rw [codePoints, if_pos pair, List.forall_mem_cons]
      exact ⟨⟨by omega, by omega⟩, ih wellFormed⟩
  | case4 first second rest single ih =>
      have scalar := isSurrogate_replaced first
      simp only [WellFormed, toWellFormed, if_neg single, List.cons.injEq] at wellFormed
      rw [wellFormed.1] at scalar
      rw [codePoints, if_neg single, List.forall_mem_cons]
      exact ⟨isScalar_of_isSurrogate scalar, ih wellFormed.2⟩

theorem toText_ofText (wellFormed : text.WellFormed) : toText (ofText text) = text := by
  have all : ∀ codes : List ℕ, (∀ code ∈ codes, IsScalar code) →
      decode none (codes.flatMap encodeCode) = codes.flatMap unitsOfCode := by
    intro codes scalars
    induction codes with
    | nil => rfl
    | cons code codes ih =>
        rw [List.forall_mem_cons] at scalars
        rw [List.flatMap_cons, List.flatMap_cons, decode_encodeCode scalars.1, ih scalars.2]
  rw [toText, ofText, wellFormed, all _ (isScalar_of_mem_codePoints wellFormed), flatMap_unitsOfCode]

theorem isLowSurrogate_of_head? (wellFormed : text.WellFormed) :
    ∀ unit, text.head? = some unit → isLowSurrogate unit = false := by
  intro unit isFirst
  cases text with
  | nil => cases isFirst
  | cons first rest =>
      cases isFirst
      cases rest with
      | nil =>
          have scalar := isSurrogate_replaced unit
          simp only [WellFormed, toWellFormed, List.cons.injEq, and_true] at wellFormed
          rw [wellFormed, isSurrogate, Bool.or_eq_false_iff] at scalar
          exact scalar.2
      | cons second rest =>
          by_cases pair : (isHighSurrogate unit && isLowSurrogate second) = true
          · simp only [isHighSurrogate, Bool.and_eq_true, decide_eq_true_eq, UInt16.le_iff_toNat_le,
              UInt16.reduceToNat] at pair
            simp only [isLowSurrogate, Bool.and_eq_false_iff, decide_eq_false_iff_not,
              UInt16.le_iff_toNat_le, UInt16.reduceToNat]
            omega
          · have scalar := isSurrogate_replaced unit
            simp only [WellFormed, toWellFormed, if_neg pair, List.cons.injEq] at wellFormed
            rw [wellFormed.1, isSurrogate, Bool.or_eq_false_iff] at scalar
            exact scalar.2

/-- A text stays well formed where the code units of pairs are kept and every other one is replaced
by a well-formed text. -/
theorem wellFormed_flatMap {replaced : UInt16 → JsString} (wellFormed : text.WellFormed)
    (kept : ∀ unit, isSurrogate unit = true → replaced unit = [unit])
    (alone : ∀ unit, isSurrogate unit = false → (replaced unit).WellFormed) :
    WellFormed (text.flatMap replaced) := by
  induction text using toWellFormed.induct with
  | case1 => rfl
  | case2 unit =>
      have scalar := isSurrogate_replaced unit
      simp only [WellFormed, toWellFormed, List.cons.injEq, and_true] at wellFormed
      rw [wellFormed] at scalar
      rw [List.flatMap_singleton]
      exact alone unit scalar
  | case3 first second rest pair ih =>
      have halves := Bool.and_eq_true_iff.mp pair
      simp only [WellFormed, toWellFormed, if_pos pair, List.cons.injEq, true_and] at wellFormed ih
      rw [List.flatMap_cons, List.flatMap_cons, kept first (by simp [isSurrogate, halves.1]),
        kept second (by simp [isSurrogate, halves.2]), List.singleton_append, List.singleton_append,
        WellFormed, toWellFormed, if_pos pair, ih wellFormed]
  | case4 first second rest single ih =>
      have scalar := isSurrogate_replaced first
      simp only [WellFormed, toWellFormed, if_neg single, List.cons.injEq] at wellFormed ih
      rw [wellFormed.1] at scalar
      exact (alone first scalar).append (ih wellFormed.2)

theorem ofText_append {front : JsString} (wellFormed : front.WellFormed) (back : JsString) :
    ofText (front ++ back) = ofText front ++ ofText back := by
  rw [ofText, wellFormed.toWellFormed_append,
    codePoints_append front (isLowSurrogate_of_head? back.wellFormed_toWellFormed),
    List.flatMap_append, ofText, ofText, wellFormed]

theorem length_ofText_of_ascii (ascii : ∀ unit ∈ text, unit.toNat < 128) :
    text.WellFormed ∧ (ofText text).length = text.length := by
  have scalars : ∀ unit ∈ text, isSurrogate unit = false ∧ isHighSurrogate unit = false := by
    intro unit isUnit
    have small := ascii unit isUnit
    have high : isHighSurrogate unit = false := by
      simp only [isHighSurrogate, Bool.and_eq_false_iff, decide_eq_false_iff_not,
        UInt16.le_iff_toNat_le, UInt16.reduceToNat]
      omega
    have low : isLowSurrogate unit = false := by
      simp only [isLowSurrogate, Bool.and_eq_false_iff, decide_eq_false_iff_not,
        UInt16.le_iff_toNat_le, UInt16.reduceToNat]
      omega
    exact ⟨by rw [isSurrogate, high, low]; rfl, high⟩
  have wellFormed := wellFormed_of_forall fun unit isUnit => (scalars unit isUnit).1
  refine ⟨wellFormed, ?_⟩
  have codes := codePoints_append_of_forall (fun unit isUnit => (scalars unit isUnit).2) []
  rw [List.append_nil] at codes
  rw [ofText, wellFormed, codes, codePoints, List.append_nil, List.length_flatMap, List.map_map]
  have ones : ∀ unit ∈ text, ((fun code => (encodeCode code).length) ∘ UInt16.toNat) unit = 1 := by
    intro unit isUnit
    rw [Function.comp_apply, encodeCode, if_pos (ascii unit isUnit)]
    rfl
  rw [List.map_congr_left ones]
  simp

/-- What has been read of a sequence comes to a code point that is no ASCII character. -/
structure Sequence.Sound (sequence : Sequence) : Prop where
  missing : 1 ≤ sequence.missing
  lower : 0x80 ≤ sequence.lower.toNat
  upper : sequence.upper.toNat ≤ 0xBF
  atLeast : 0x80 ≤ (sequence.code * 64 + (sequence.lower.toNat - 0x80)) * 64 ^ (sequence.missing - 1)
  below : (sequence.code * 64 + (sequence.upper.toNat - 0x80) + 1) * 64 ^ (sequence.missing - 1) ≤
    0x110000

theorem sound_firstByte {byte : UInt8} {sequence : Sequence}
    (opens : firstByte byte = .opens sequence) : sequence.Sound := by
  have bound := byte.toNat_lt
  unfold firstByte at opens
  split_ifs at opens
  all_goals
    simp only [UInt8.le_iff_toNat_le, ← UInt8.toNat_inj, UInt8.reduceToNat] at *
    cases opens
  all_goals
    refine ⟨by simp, ?_, ?_, ?_, ?_⟩ <;>
      simp only [UInt8.reduceToNat, Nat.reduceSub, Nat.reducePow, Nat.mul_one, Nat.reduceLeDiff] <;>
      omega

theorem Sequence.Sound.next {sequence : Sequence} (sound : sequence.Sound) {byte : UInt8}
    (lower : sequence.lower.toNat ≤ byte.toNat) (upper : byte.toNat ≤ sequence.upper.toNat)
    (more : ¬sequence.missing ≤ 1) :
    Sequence.Sound ⟨sequence.missing - 1, sequence.code * 64 + (byte.toNat - 0x80), 0x80, 0xBF⟩ := by
  have atLeast := sound.atLeast
  have below := sound.below
  have isLower := sound.lower
  obtain ⟨missing, isMissing⟩ : ∃ missing, sequence.missing = missing + 2 :=
    ⟨sequence.missing - 2, by omega⟩
  rw [isMissing, show missing + 2 - 1 = missing + 1 by omega, Nat.pow_succ] at atLeast below
  have grows : (sequence.code * 64 + (sequence.lower.toNat - 0x80)) * (64 ^ missing * 64) ≤
      (sequence.code * 64 + (byte.toNat - 0x80)) * (64 ^ missing * 64) :=
    Nat.mul_le_mul_right _ (by omega)
  have stays : (sequence.code * 64 + (byte.toNat - 0x80) + 1) * (64 ^ missing * 64) ≤
      (sequence.code * 64 + (sequence.upper.toNat - 0x80) + 1) * (64 ^ missing * 64) :=
    Nat.mul_le_mul_right _ (by omega)
  refine ⟨?_, by simp, by simp, ?_, ?_⟩
  · simp only [isMissing]
    omega
  · simp only [isMissing, UInt8.reduceToNat, Nat.sub_self, Nat.add_zero,
      show missing + 2 - 1 - 1 = missing by omega]
    calc 0x80 ≤ (sequence.code * 64 + (byte.toNat - 0x80)) * (64 ^ missing * 64) :=
          atLeast.trans grows
      _ = (sequence.code * 64 + (byte.toNat - 0x80)) * 64 * 64 ^ missing := by ring
  · simp only [isMissing, UInt8.reduceToNat, Nat.reduceSub,
      show missing + 2 - 1 - 1 = missing by omega]
    calc ((sequence.code * 64 + (byte.toNat - 0x80)) * 64 + 63 + 1) * 64 ^ missing =
          (sequence.code * 64 + (byte.toNat - 0x80) + 1) * (64 ^ missing * 64) := by ring
      _ ≤ 0x110000 := stays.trans below

theorem le_of_mem_unitsOfCode {unit : UInt16} (large : 0x80 ≤ code) (small : code < 0x110000)
    (unitMem : unit ∈ unitsOfCode code) : 0x80 ≤ unit.toNat := by
  rw [unitsOfCode] at unitMem
  split_ifs at unitMem with one
  · rw [List.mem_singleton.mp unitMem, toNat_toUInt16 one]
    exact large
  · simp only [List.mem_cons, List.not_mem_nil, or_false] at unitMem
    rcases unitMem with rfl | rfl
    · rw [toNat_toUInt16 (by omega)]
      omega
    · rw [toNat_toUInt16 (by omega)]
      omega

theorem Sequence.Sound.last {sequence : Sequence} (sound : sequence.Sound) {byte : UInt8}
    (lower : sequence.lower.toNat ≤ byte.toNat) (upper : byte.toNat ≤ sequence.upper.toNat)
    (done : sequence.missing ≤ 1) :
    0x80 ≤ sequence.code * 64 + (byte.toNat - 0x80) ∧
      sequence.code * 64 + (byte.toNat - 0x80) < 0x110000 := by
  have atLeast := sound.atLeast
  have below := sound.below
  have isLower := sound.lower
  rw [show sequence.missing - 1 = 0 by omega, pow_zero, Nat.mul_one] at atLeast below
  exact ⟨by omega, by omega⟩

def Standing (pending : Option Sequence) : Prop := ∀ sequence, pending = some sequence → sequence.Sound

theorem standing_none : Standing none := nofun

theorem standing_some {sequence : Sequence} (sound : sequence.Sound) : Standing (some sequence) := by
  intro other same
  rw [← Option.some.inj same]
  exact sound

/-- How a byte is taken: it breaks what is pending off and is read as a first byte, or it is the
next byte of the sequence. -/
theorem decode_cons_cases (pending : Option Sequence) (byte : UInt8) :
    (∃ sequence, pending = some sequence ∧ sequence.lower.toNat ≤ byte.toNat ∧
      byte.toNat ≤ sequence.upper.toNat) ∨
    ∀ rest, decode pending (byte :: rest) = decode pending [] ++ decode none (byte :: rest) := by
  cases pending with
  | none => exact Or.inr fun rest => rfl
  | some sequence =>
      by_cases within : sequence.lower.toNat ≤ byte.toNat ∧ byte.toNat ≤ sequence.upper.toNat
      · exact Or.inl ⟨sequence, rfl, within⟩
      · right
        have broken : (some sequence).filter (fun sequence =>
            sequence.lower ≤ byte && byte ≤ sequence.upper) = none := by
          rw [Option.filter_some, if_neg]
          simpa [UInt8.le_iff_toNat_le] using within
        intro rest
        rw [decode.eq_3]
        simp only [broken]
        rfl

theorem decode_ascii {byte : UInt8} (ascii : byte.toNat < 0x80) (front rest : List UInt8)
    {pending : Option Sequence} (standing : Standing pending) :
    decode pending (front ++ byte :: rest) =
      decode pending front ++ byte.toNat.toUInt16 :: decode none rest := by
  induction front generalizing pending with
  | nil =>
      have alone : decode none (byte :: rest) = byte.toNat.toUInt16 :: decode none rest := by
        have isUnit : firstByte byte = .unit byte.toNat := by
          rw [firstByte, if_pos]
          simp only [UInt8.le_iff_toNat_le, UInt8.reduceToNat]
          omega
        rw [decode_none_cons, isUnit]
        simp only [unitsOfCode]
        rw [if_pos (by omega)]
        rfl
      rcases decode_cons_cases pending byte with ⟨sequence, isPending, lower, -⟩ | broken
      · have above := (standing sequence isPending).lower
        omega
      · rw [List.nil_append, broken, alone]
  | cons first front ih =>
      have begins : decode none (first :: (front ++ byte :: rest)) =
          decode none (first :: front) ++ byte.toNat.toUInt16 :: decode none rest := by
        rw [decode_none_cons, decode_none_cons]
        split
        · rw [ih standing_none, List.append_assoc]
        · rename_i sequence opens
          exact ih (standing_some (sound_firstByte opens))
        · rw [ih standing_none]
          rfl
      rw [List.cons_append]
      rcases decode_cons_cases pending first with ⟨sequence, rfl, lower, upper⟩ | broken
      · have sound := standing sequence rfl
        rw [decode_some_cons lower upper, decode_some_cons lower upper]
        split_ifs with done
        · rw [ih standing_none, List.append_assoc]
        · exact ih (standing_some (sound.next lower upper done))
      · rw [broken, broken, begins, List.append_assoc]

theorem mem_of_mem_decode {bytes : List UInt8} {pending : Option Sequence}
    (standing : Standing pending) {unit : UInt16} (unitMem : unit ∈ decode pending bytes)
    (ascii : unit.toNat < 0x80) : unit.toNat.toUInt8 ∈ bytes := by
  induction bytes generalizing pending with
  | nil =>
      cases pending with
      | none => cases unitMem
      | some sequence =>
          rw [List.mem_singleton.mp unitMem] at ascii
          exact absurd ascii (by decide)
  | cons byte rest ih =>
      have first : unit ∈ decode none (byte :: rest) → unit.toNat.toUInt8 ∈ byte :: rest := by
        intro unitMem
        rw [decode_none_cons] at unitMem
        have bound := byte.toNat_lt
        split at unitMem
        · rename_i code isUnit
          have same : code = byte.toNat := by
            unfold firstByte at isUnit
            split_ifs at isUnit
            exact (FirstByte.unit.inj isUnit).symm
          rcases List.mem_append.mp unitMem with here | later
          · rw [same, unitsOfCode, if_pos (by omega), List.mem_singleton] at here
            rw [here, toNat_toUInt16 (by omega), Nat.toUInt8, UInt8.ofNat_toNat]
            exact List.mem_cons_self
          · exact List.mem_cons_of_mem _ (ih standing_none later)
        · rename_i sequence opens
          apply List.mem_cons_of_mem
          exact ih (standing_some (sound_firstByte opens)) unitMem
        · rcases List.mem_cons.mp unitMem with rfl | later
          · exact absurd ascii (by decide)
          · exact List.mem_cons_of_mem _ (ih standing_none later)
      rcases decode_cons_cases pending byte with ⟨sequence, rfl, lower, upper⟩ | broken
      · have sound := standing sequence rfl
        rw [decode_some_cons lower upper] at unitMem
        apply List.mem_cons_of_mem
        split_ifs at unitMem with done
        · rcases List.mem_append.mp unitMem with here | later
          · have code := sound.last lower upper done
            have large := le_of_mem_unitsOfCode code.1 code.2 here
            omega
          · exact ih standing_none later
        · exact ih (standing_some (sound.next lower upper done)) unitMem
      · rw [broken] at unitMem
        rcases List.mem_append.mp unitMem with here | later
        · cases pending with
          | none => cases here
          | some sequence =>
              rw [List.mem_singleton.mp here] at ascii
              exact absurd ascii (by decide)
        · exact first later

theorem exists_mem_decode {bytes : List UInt8} {pending : Option Sequence}
    (standing : Standing pending) (present : pending.isSome ∨ ∃ byte ∈ bytes, 0x80 ≤ byte.toNat) :
    ∃ unit ∈ decode pending bytes, 0x80 ≤ unit.toNat := by
  induction bytes generalizing pending with
  | nil =>
      cases pending with
      | none => simp at present
      | some sequence => exact ⟨0xFFFD, List.mem_singleton.mpr rfl, by decide⟩
  | cons byte rest ih =>
      have first : (∃ other ∈ byte :: rest, 0x80 ≤ other.toNat) →
          ∃ unit ∈ decode none (byte :: rest), 0x80 ≤ unit.toNat := by
        rintro ⟨other, otherMem, large⟩
        rw [decode_none_cons]
        split
        · rename_i code isUnit
          have inRest : other ∈ rest := by
            rcases List.mem_cons.mp otherMem with same | later
            · rw [same] at large
              unfold firstByte at isUnit
              split_ifs at isUnit with small
              simp only [UInt8.le_iff_toNat_le, UInt8.reduceToNat] at small
              omega
            · exact later
          rcases ih standing_none (Or.inr ⟨other, inRest, large⟩) with ⟨unit, unitMem, isLarge⟩
          exact ⟨unit, List.mem_append_right _ unitMem, isLarge⟩
        · rename_i sequence opens
          exact ih (standing_some (sound_firstByte opens)) (Or.inl rfl)
        · exact ⟨0xFFFD, List.mem_cons_self, by decide⟩
      rcases decode_cons_cases pending byte with ⟨sequence, rfl, lower, upper⟩ | broken
      · have sound := standing sequence rfl
        rw [decode_some_cons lower upper]
        split_ifs with done
        · have code := sound.last lower upper done
          have some : unitsOfCode (sequence.code * 64 + (byte.toNat - 0x80)) ≠ [] := by
            rw [unitsOfCode]
            split_ifs <;> simp
          rcases List.exists_mem_of_ne_nil _ some with ⟨unit, unitMem⟩
          exact ⟨unit, List.mem_append_left _ unitMem, le_of_mem_unitsOfCode code.1 code.2 unitMem⟩
        · exact ih (standing_some (sound.next lower upper done)) (Or.inl rfl)
      · rw [broken]
        cases pending with
        | none => exact first (present.resolve_left (by simp))
        | some sequence => exact ⟨0xFFFD, List.mem_append_left _ (List.mem_singleton.mpr rfl), by decide⟩

theorem toText_of_ascii {bytes : List UInt8} (ascii : ∀ byte ∈ bytes, byte.toNat < 0x80) :
    toText bytes = bytes.map fun byte => byte.toNat.toUInt16 := by
  induction bytes with
  | nil => rfl
  | cons byte rest ih =>
      rw [List.forall_mem_cons] at ascii
      have read := decode_ascii ascii.1 [] rest standing_none
      rw [List.map_cons, ← ih ascii.2]
      exact read

theorem eq_of_toText_eq {bytes : List UInt8} (ascii : ∀ unit ∈ text, unit.toNat < 0x80)
    (read : toText bytes = text) : bytes = text.map fun unit => unit.toNat.toUInt8 := by
  have asciiBytes : ∀ byte ∈ bytes, byte.toNat < 0x80 := by
    by_contra notAscii
    push Not at notAscii
    rcases notAscii with ⟨byte, byteMem, large⟩
    rcases exists_mem_decode standing_none (Or.inr ⟨byte, byteMem, large⟩) with
      ⟨unit, unitMem, isLarge⟩
    have small := ascii unit (read ▸ unitMem)
    omega
  rw [← read, toText_of_ascii asciiBytes, List.map_map]
  symm
  apply (List.map_congr_left _).trans (List.map_id _)
  intro byte byteMem
  have bound := byte.toNat_lt
  simp only [Function.comp_apply, id_eq]
  rw [toNat_toUInt16 (by omega), Nat.toUInt8, UInt8.ofNat_toNat]

theorem splitOn_toText {mark : UInt8} (ascii : mark.toNat < 0x80) (bytes : List UInt8) :
    (toText bytes).splitOn mark.toNat.toUInt16 = (bytes.splitOn mark).map toText := by
  have joined : ∀ parts : List (List UInt8), toText ([mark].intercalate parts) =
      [mark.toNat.toUInt16].intercalate (parts.map toText) := by
    intro parts
    induction parts with
    | nil => rfl
    | cons part parts ih =>
        rcases eq_or_ne parts [] with rfl | more
        · simp [List.intercalate_singleton]
        · rw [List.map_cons, List.intercalate_cons_of_ne_nil more,
            List.intercalate_cons_of_ne_nil (by simpa using more), ← ih, List.append_assoc,
            List.append_assoc]
          exact decode_ascii ascii part _ standing_none
  have parts := joined (bytes.splitOn mark)
  rw [List.intercalate_splitOn] at parts
  rw [parts]
  apply List.splitOn_intercalate
  · rw [List.forall_mem_map]
    intro part partMem unitMem
    have bound := mark.toNat_lt
    have isUnit : mark.toNat.toUInt16.toNat = mark.toNat := toNat_toUInt16 (by omega)
    have inside := mem_of_mem_decode standing_none unitMem (by rw [isUnit]; exact ascii)
    rw [isUnit, Nat.toUInt8, UInt8.ofNat_toNat] at inside
    exact Terminated.notMem_of_mem_splitOn partMem inside
  · simp

end Utf8

def sextetUnit (value : ℕ) : UInt16 :=
  if value < 26 then (65 + value).toUInt16
  else if value < 52 then (71 + value).toUInt16
  else if value < 62 then (value - 4).toUInt16
  else if value = 62 then 45
  else 95

def sextet (unit : UInt16) : ℕ :=
  if isDigit unit then unit.toNat + 4
  else if isUpper unit then unit.toNat - 65
  else if unit = 45 then 62
  else if unit = 95 then 63
  else unit.toNat - 71

/-- `/^[A-Za-z0-9_-]$/` -/
def isBase64url (unit : UInt16) : Bool := isLetter unit || isDigit unit || unit = 45 || unit = 95

/-- `toString("base64url")` -/
def toBase64url : List UInt8 → JsString
  | [] => []
  | [first] => [sextetUnit (first.toNat / 4), sextetUnit (first.toNat % 4 * 16)]
  | [first, second] =>
      [sextetUnit (first.toNat / 4), sextetUnit (first.toNat % 4 * 16 + second.toNat / 16),
        sextetUnit (second.toNat % 16 * 4)]
  | first :: second :: third :: rest =>
      sextetUnit (first.toNat / 4) :: sextetUnit (first.toNat % 4 * 16 + second.toNat / 16) ::
        sextetUnit (second.toNat % 16 * 4 + third.toNat / 64) :: sextetUnit (third.toNat % 64) ::
          toBase64url rest

/-- `Buffer.from(text, "base64url")` of a text in that alphabet; bits that make no byte are left. -/
def ofBase64url : JsString → List UInt8
  | first :: second :: third :: fourth :: rest =>
      (sextet first * 4 + sextet second / 16).toUInt8 ::
        (sextet second % 16 * 16 + sextet third / 4).toUInt8 ::
          (sextet third % 4 * 64 + sextet fourth).toUInt8 :: ofBase64url rest
  | [first, second, third] =>
      [(sextet first * 4 + sextet second / 16).toUInt8,
        (sextet second % 16 * 16 + sextet third / 4).toUInt8]
  | [first, second] => [(sextet first * 4 + sextet second / 16).toUInt8]
  | _ => []

theorem sextet_sextetUnit {value : ℕ} (small : value < 64) : sextet (sextetUnit value) = value := by
  revert value
  decide

theorem isBase64url_sextetUnit {value : ℕ} (small : value < 64) :
    isBase64url (sextetUnit value) = true := by
  revert value
  decide

theorem toUInt8_eq {number : ℕ} {byte : UInt8} (same : number = byte.toNat) : number.toUInt8 = byte := by
  rw [same, Nat.toUInt8, UInt8.ofNat_toNat]

theorem ofBase64url_toBase64url (bytes : List UInt8) : ofBase64url (toBase64url bytes) = bytes := by
  induction bytes using toBase64url.induct with
  | case1 => rfl
  | case2 first =>
      have bound := first.toNat_lt
      rw [toBase64url, ofBase64url, sextet_sextetUnit (by omega), sextet_sextetUnit (by omega),
        @toUInt8_eq _ first (by omega)]
  | case3 first second =>
      have bound := first.toNat_lt
      have bound' := second.toNat_lt
      rw [toBase64url, ofBase64url, sextet_sextetUnit (by omega), sextet_sextetUnit (by omega),
        sextet_sextetUnit (by omega), @toUInt8_eq _ first (by omega), @toUInt8_eq _ second (by omega)]
  | case4 first second third rest ih =>
      have bound := first.toNat_lt
      have bound' := second.toNat_lt
      have bound'' := third.toNat_lt
      rw [toBase64url, ofBase64url, sextet_sextetUnit (by omega), sextet_sextetUnit (by omega),
        sextet_sextetUnit (by omega), sextet_sextetUnit (by omega), @toUInt8_eq _ first (by omega),
        @toUInt8_eq _ second (by omega), @toUInt8_eq _ third (by omega), ih]

theorem length_toBase64url (bytes : List UInt8) :
    (toBase64url bytes).length = (4 * bytes.length + 2) / 3 := by
  induction bytes using toBase64url.induct with
  | case1 => rfl
  | case2 first => simp [toBase64url]
  | case3 first second => simp [toBase64url]
  | case4 first second third rest ih =>
      simp only [toBase64url, List.length_cons, ih]
      omega

theorem isBase64url_of_mem (bytes : List UInt8) : ∀ unit ∈ toBase64url bytes, isBase64url unit = true := by
  induction bytes using toBase64url.induct with
  | case1 => simp [toBase64url]
  | case2 first =>
      have bound := first.toNat_lt
      rw [toBase64url, List.forall_mem_cons, List.forall_mem_singleton]
      exact ⟨isBase64url_sextetUnit (by omega), isBase64url_sextetUnit (by omega)⟩
  | case3 first second =>
      have bound := first.toNat_lt
      have bound' := second.toNat_lt
      rw [toBase64url, List.forall_mem_cons, List.forall_mem_cons, List.forall_mem_singleton]
      exact ⟨isBase64url_sextetUnit (by omega), isBase64url_sextetUnit (by omega),
        isBase64url_sextetUnit (by omega)⟩
  | case4 first second third rest ih =>
      have bound := first.toNat_lt
      have bound' := second.toNat_lt
      have bound'' := third.toNat_lt
      simp only [toBase64url, List.forall_mem_cons]
      exact ⟨isBase64url_sextetUnit (by omega), isBase64url_sextetUnit (by omega),
        isBase64url_sextetUnit (by omega), isBase64url_sextetUnit (by omega), ih⟩

/-- `subarray(start, stop)` -/
def subarray (bytes : List UInt8) (start stop : ℕ) : List UInt8 := (bytes.drop start).take (stop - start)

/-- `toString("ascii")`, which takes the highest bit off each byte -/
def asciiText (bytes : List UInt8) : JsString := bytes.map fun byte => (byte.toNat % 128).toUInt16

def bigEndian : ℕ → ℕ → List UInt8
  | 0, _ => []
  | width + 1, number => (number / 256 ^ width).toUInt8 :: bigEndian width (number % 256 ^ width)

def ofBigEndian : List UInt8 → ℕ
  | [] => 0
  | byte :: rest => byte.toNat * 256 ^ rest.length + ofBigEndian rest

/-- `readUInt16BE(offset)` -/
def readUInt16BE (bytes : List UInt8) (offset : ℕ) : ℕ := ofBigEndian (subarray bytes offset (offset + 2))

/-- `readUInt32BE(offset)` -/
def readUInt32BE (bytes : List UInt8) (offset : ℕ) : ℕ := ofBigEndian (subarray bytes offset (offset + 4))

theorem length_subarray {bytes : List UInt8} {start stop : ℕ} (inside : stop ≤ bytes.length) :
    (subarray bytes start stop).length = stop - start := by
  rw [subarray, List.length_take, List.length_drop]
  omega

theorem subarray_append_drop {bytes : List UInt8} {start stop : ℕ} (ordered : start ≤ stop) :
    subarray bytes start stop ++ bytes.drop stop = bytes.drop start := by
  have rest : bytes.drop stop = (bytes.drop start).drop (stop - start) := by
    rw [List.drop_drop]
    congr 1
    omega
  rw [subarray, rest, List.take_append_drop]

theorem length_bigEndian (width number : ℕ) : (bigEndian width number).length = width := by
  induction width generalizing number with
  | zero => rfl
  | succ width ih => rw [bigEndian, List.length_cons, ih]

theorem ofBigEndian_lt (bytes : List UInt8) : ofBigEndian bytes < 256 ^ bytes.length := by
  induction bytes with
  | nil => decide
  | cons byte rest ih =>
      rw [ofBigEndian, List.length_cons, Nat.pow_succ]
      have bound := byte.toNat_lt
      calc byte.toNat * 256 ^ rest.length + ofBigEndian rest
          < byte.toNat * 256 ^ rest.length + 256 ^ rest.length := by omega
        _ = (byte.toNat + 1) * 256 ^ rest.length := by rw [Nat.succ_mul]
        _ ≤ 256 * 256 ^ rest.length := Nat.mul_le_mul_right _ (by omega)
        _ = 256 ^ rest.length * 256 := Nat.mul_comm _ _

theorem bigEndian_ofBigEndian (bytes : List UInt8) :
    bigEndian bytes.length (ofBigEndian bytes) = bytes := by
  induction bytes with
  | nil => rfl
  | cons byte rest ih =>
      have small := ofBigEndian_lt rest
      rw [List.length_cons, bigEndian, ofBigEndian, Nat.mul_comm,
        Nat.mul_add_div (Nat.pow_pos (by decide)), Nat.div_eq_of_lt small, Nat.mul_add_mod,
        Nat.mod_eq_of_lt small, ih, Nat.add_zero, Nat.toUInt8, UInt8.ofNat_toNat]

theorem bigEndian_inj {width number number' : ℕ} (small : number < 256 ^ width)
    (small' : number' < 256 ^ width) (same : bigEndian width number = bigEndian width number') :
    number = number' := by
  induction width generalizing number number' with
  | zero => omega
  | succ width ih =>
      simp only [bigEndian, List.cons.injEq] at same
      have positive : 0 < 256 ^ width := Nat.pow_pos (by decide)
      have high : ∀ number, number < 256 ^ (width + 1) → number / 256 ^ width < 256 := by
        intro number small
        apply Nat.div_lt_of_lt_mul
        rwa [← Nat.pow_succ]
      have sameHigh : number / 256 ^ width = number' / 256 ^ width := by
        rw [← toNat_toUInt8 (high number small), same.1, toNat_toUInt8 (high number' small')]
      have sameLow := ih (Nat.mod_lt _ positive) (Nat.mod_lt _ positive) same.2
      rw [← Nat.div_add_mod number (256 ^ width), sameHigh, sameLow, Nat.div_add_mod]

theorem subarray_append_subarray {bytes : List UInt8} {start middle stop : ℕ}
    (early : start ≤ middle) (late : middle ≤ stop) :
    subarray bytes start middle ++ subarray bytes middle stop = subarray bytes start stop := by
  have here : bytes.drop middle = (bytes.drop start).drop (middle - start) := by
    rw [List.drop_drop]
    congr 1
    omega
  rw [subarray, subarray, subarray, here, ← List.take_add]
  congr 1
  omega

theorem subarray_subarray {bytes : List UInt8} {start stop first last : ℕ}
    (inside : start + last ≤ stop) :
    subarray (subarray bytes start stop) first last = subarray bytes (start + first) (start + last) := by
  rw [subarray, subarray, subarray, List.drop_take, List.drop_drop, List.take_take]
  congr 1
  omega

theorem getElem?_subarray {bytes : List UInt8} {start stop index : ℕ} (inside : start + index < stop) :
    (subarray bytes start stop)[index]? = bytes[start + index]? := by
  rw [subarray, List.getElem?_take_of_lt (by omega), List.getElem?_drop]

theorem bigEndian_readUInt16BE {bytes : List UInt8} {offset : ℕ} (inside : offset + 2 ≤ bytes.length) :
    bigEndian 2 (readUInt16BE bytes offset) = subarray bytes offset (offset + 2) ∧
      readUInt16BE bytes offset < 256 ^ 2 := by
  have length := @length_subarray bytes offset _ inside
  rw [Nat.add_sub_cancel_left] at length
  have written := bigEndian_ofBigEndian (subarray bytes offset (offset + 2))
  have small := ofBigEndian_lt (subarray bytes offset (offset + 2))
  rw [length] at written small
  exact ⟨written, small⟩

theorem bigEndian_readUInt32BE {bytes : List UInt8} {offset : ℕ} (inside : offset + 4 ≤ bytes.length) :
    bigEndian 4 (readUInt32BE bytes offset) = subarray bytes offset (offset + 4) ∧
      readUInt32BE bytes offset < 256 ^ 4 := by
  have length := @length_subarray bytes offset _ inside
  rw [Nat.add_sub_cancel_left] at length
  have written := bigEndian_ofBigEndian (subarray bytes offset (offset + 4))
  have small := ofBigEndian_lt (subarray bytes offset (offset + 4))
  rw [length] at written small
  exact ⟨written, small⟩

theorem eq_of_asciiText_eq {left right : List UInt8} (ascii : ∀ byte ∈ left, byte.toNat < 0x80)
    (ascii' : ∀ byte ∈ right, byte.toNat < 0x80) (same : asciiText left = asciiText right) :
    left = right := by
  induction left generalizing right with
  | nil =>
      cases right with
      | nil => rfl
      | cons => cases same
  | cons byte rest ih =>
      cases right with
      | nil => cases same
      | cons byte' rest' =>
          rw [List.forall_mem_cons] at ascii ascii'
          simp only [asciiText, List.map_cons, List.cons.injEq] at same
          have sameByte : byte = byte' := by
            have sameNumber := congrArg UInt16.toNat same.1
            rw [Nat.mod_eq_of_lt ascii.1, Nat.mod_eq_of_lt ascii'.1, toNat_toUInt16 (by omega),
              toNat_toUInt16 (by omega)] at sameNumber
            exact UInt8.toNat_inj.mp sameNumber
          rw [sameByte, ih ascii.2 ascii'.2 same.2]

end Buffer

end Ecma
