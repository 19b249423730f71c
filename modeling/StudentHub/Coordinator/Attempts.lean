import StudentHub.Coordinator.Independence

/-!
# Attempt ids

An attempt id is packed from a hash of the prior id, the stage and the round, from a tag of
the stage, from slices of the prior id and from the round. The parts have fixed widths, so
ids of different stages and rounds differ by their tags. Two repairs of one review that
passed differ by the hash alone.
-/

namespace StudentHub.Coordinator

open Ecma JsString

theorem hashUnit_inj {left right : UInt32} {unit : UInt16} :
    hashUnit left unit = hashUnit right unit ↔ left = right := by
  refine ⟨?_, fun same => by rw [same]⟩
  intro same
  have undone : ∀ hash : UInt32, hash * 0x01000193 * 899433627 = hash := by
    intro hash
    rw [UInt32.mul_assoc, show (0x01000193 : UInt32) * 899433627 = 1 by decide, UInt32.mul_one]
  have product := congrArg (· * 899433627) same
  simp only [hashUnit, undone] at product
  exact UInt32.xor_left_inj _ |>.mp product

theorem foldl_hashUnit_inj {left right : UInt32} (text : JsString) :
    text.foldl hashUnit left = text.foldl hashUnit right ↔ left = right := by
  induction text generalizing left right with
  | nil => rfl
  | cons unit rest ih => rw [List.foldl_cons, List.foldl_cons, ih, hashUnit_inj]

theorem hashText_append_inj {left right ending : JsString} :
    hashText (left ++ ending) = hashText (right ++ ending) ↔ hashText left = hashText right := by
  simp only [hashText, List.foldl_append, foldl_hashUnit_inj]

def hexDigits (number : ℕ) : JsString :=
  (Nat.toDigits 16 number).map fun digit => digit.toNat.toUInt16

def hexDigitValue (unit : UInt16) : ℕ := if 97 ≤ unit then unit.toNat - 87 else unit.toNat - 48

def hexNumeral (text : JsString) : ℕ :=
  text.foldl (fun number unit => 16 * number + hexDigitValue unit) 0

theorem hexText_eq (number width : ℕ) :
    hexText number width = List.replicate (width - (hexDigits number).length) 48 ++ hexDigits number :=
  rfl

theorem digitChar_hex {value : ℕ} (small : value < 16) :
    isLowerHex (Nat.digitChar value).toNat.toUInt16 = true ∧
      hexDigitValue (Nat.digitChar value).toNat.toUInt16 = value := by
  revert value
  decide

theorem hexDigits_of_lt {number : ℕ} (small : number < 16) :
    hexDigits number = [(Nat.digitChar number).toNat.toUInt16] := by
  rw [hexDigits, Nat.toDigits_of_lt_base small]
  rfl

theorem hexDigits_of_le {number : ℕ} (large : 16 ≤ number) :
    hexDigits number =
      hexDigits (number / 16) ++ [(Nat.digitChar (number % 16)).toNat.toUInt16] := by
  rw [hexDigits, Nat.toDigits_of_base_le (by omega) large, List.map_append]
  rfl

theorem hexNumeral_append_singleton (text : JsString) (unit : UInt16) :
    hexNumeral (text ++ [unit]) = 16 * hexNumeral text + hexDigitValue unit := by
  simp only [hexNumeral, List.foldl_append, List.foldl_cons, List.foldl_nil]

theorem hexNumeral_hexDigits (number : ℕ) : hexNumeral (hexDigits number) = number := by
  induction number using Nat.strong_induction_on with
  | h number ih =>
    by_cases small : number < 16
    · rw [hexDigits_of_lt small]
      simp [hexNumeral, (digitChar_hex small).2]
    · rw [hexDigits_of_le (by omega), hexNumeral_append_singleton, ih (number / 16) (by omega),
        (digitChar_hex (by omega)).2]
      omega

theorem isLowerHex_of_mem_hexDigits {number : ℕ} {unit : UInt16}
    (unitMem : unit ∈ hexDigits number) : isLowerHex unit = true := by
  induction number using Nat.strong_induction_on with
  | h number ih =>
    by_cases small : number < 16
    · rw [hexDigits_of_lt small, List.mem_singleton] at unitMem
      exact unitMem ▸ (digitChar_hex small).1
    · rw [hexDigits_of_le (by omega), List.mem_append, List.mem_singleton] at unitMem
      rcases unitMem with earlier | rfl
      · exact ih (number / 16) (by omega) earlier
      · exact (digitChar_hex (by omega)).1

theorem hexNumeral_replicate_append (count : ℕ) (text : JsString) :
    hexNumeral (List.replicate count 48 ++ text) = hexNumeral text := by
  induction count with
  | zero => rfl
  | succ count ih =>
    rw [← ih, List.replicate_succ, List.cons_append]
    rfl

theorem hexText_inj {left right width : ℕ} : hexText left width = hexText right width ↔ left = right := by
  refine ⟨?_, fun same => by rw [same]⟩
  intro same
  have numerals := congrArg hexNumeral same
  simpa only [hexText_eq, hexNumeral_replicate_append, hexNumeral_hexDigits] using numerals

theorem isLowerHex_of_mem_hexText {number width : ℕ} {unit : UInt16}
    (unitMem : unit ∈ hexText number width) : isLowerHex unit = true := by
  rw [hexText_eq, List.mem_append] at unitMem
  rcases unitMem with padding | digits
  · rw [List.eq_of_mem_replicate padding]
    decide
  · exact isLowerHex_of_mem_hexDigits digits

theorem length_hexText {number width : ℕ} (isWidth : 0 < width) (fits : number < 16 ^ width) :
    (hexText number width).length = width := by
  have shorter : (hexDigits number).length ≤ width := by
    rw [hexDigits, List.length_map]
    exact (Nat.length_toDigits_le_iff (by omega) isWidth).mpr fits
  rw [hexText_eq, List.length_append, List.length_replicate]
  omega

theorem length_hexText_hash (hash : UInt32) : (hexText hash.toNat 8).length = 8 :=
  length_hexText (by omega) hash.toNat_lt

def stageTag (stage : JsString) : JsString := (hexText (hashText stage).toNat 8).take 4

def attemptSeed (prior stage : JsString) (round : ℕ) : JsString :=
  prior ++ (js ":" ++ stage ++ js ":" ++ decimal round)

def attemptAfter (prior stage : JsString) (round : ℕ) : JsString :=
  hexText (hashText (attemptSeed prior stage round)).toNat 8 ++ (js "-" ++ (stageTag stage ++
    (js "-4" ++ ((prior.take 4).drop 1 ++ (js "-8" ++ ((prior.take 7).drop 4 ++ (js "-" ++
      (prior.take 8 ++ hexText round 4))))))))

theorem freshAttempt_string (prior stage : JsString) (round : ℕ) :
    freshAttempt (.string prior) stage round = some (attemptAfter prior stage round) := by
  simp only [freshAttempt, JsValue.orElse, JsValue.toText, sliceText, Option.bind_eq_bind,
    Option.bind_some, attemptAfter, attemptSeed, stageTag, List.append_assoc, List.drop_zero]
  rfl

structure HexFront (text : JsString) : Prop where
  long : 8 ≤ text.length
  hex : ∀ unit ∈ text.take 8, isHex unit = true

theorem HexFront.of_isUuidShaped {text : JsString} (shaped : Supervisor.isUuidShaped text = true) :
    HexFront text := by
  refine ⟨?_, ?_⟩
  · rw [length_of_matchesClasses shaped]
    decide
  · simp only [Supervisor.isUuidShaped, List.append_assoc] at shaped
    rw [← List.append_assoc, ← List.replicate_add, matchesClasses_append] at shaped
    rcases shaped with ⟨head, tail, rfl, hex, -⟩
    rw [matchesClasses_replicate] at hex
    rw [List.take_left' hex.1]
    exact hex.2

theorem HexFront.append {text : JsString} (front : HexFront text) (rest : JsString) :
    HexFront (text ++ rest) := by
  refine ⟨?_, ?_⟩
  · rw [List.length_append]
    exact front.long.trans (Nat.le_add_right _ _)
  · rw [List.take_append_of_le_length front.long]
    exact front.hex

theorem length_stageTag (stage : JsString) : (stageTag stage).length = 4 := by
  rw [stageTag, List.length_take, length_hexText_hash]
  rfl

theorem isHex_of_isLowerHex {unit : UInt16} (lower : isLowerHex unit = true) :
    isHex unit = true := by
  simp only [isLowerHex, isHex, Bool.or_eq_true] at lower ⊢
  tauto

theorem matchesClasses_of_append {front back : List (UInt16 → Bool)} {head tail : JsString}
    (headFits : matchesClasses front head = true) (tailFits : matchesClasses back tail = true) :
    matchesClasses (front ++ back) (head ++ tail) = true :=
  matchesClasses_append.mpr ⟨head, tail, rfl, headFits, tailFits⟩

theorem isUuidShaped_attemptAfter {prior : JsString} (front : HexFront prior) (stage : JsString)
    {round : ℕ} (bounded : round < 65536) :
    Supervisor.isUuidShaped (attemptAfter prior stage round) = true := by
  have hexOf : ∀ {count : ℕ} {text : JsString}, text.length = count →
      (∀ unit ∈ text, isHex unit = true) →
        matchesClasses (List.replicate count isHex) text = true :=
    fun length hex => matchesClasses_replicate.mpr ⟨length, hex⟩
  have hexOfNumeral : ∀ {number width : ℕ}, ∀ unit ∈ hexText number width, isHex unit = true :=
    fun unit unitMem => isHex_of_isLowerHex (isLowerHex_of_mem_hexText unitMem)
  have taken : ∀ {stop : ℕ}, stop ≤ 8 → (prior.take stop).length = stop ∧
      ∀ unit ∈ prior.take stop, isHex unit = true := by
    intro stop within
    refine ⟨?_, ?_⟩
    · rw [List.length_take]
      exact min_eq_left (within.trans front.long)
    · intro unit unitMem
      exact front.hex unit ((List.take_subset_take_left prior within) unitMem)
  have slice : ∀ (digit : UInt16) (start stop : ℕ), isHex digit = true → stop ≤ 8 →
      stop - start = 3 →
        matchesClasses (List.replicate 4 isHex) (digit :: (prior.take stop).drop start) = true := by
    intro digit start stop isDigit within three
    apply hexOf
    · rw [List.length_cons, List.length_drop, (taken within).1, three]
    · rw [List.forall_mem_cons]
      exact ⟨isDigit, fun unit unitMem => (taken within).2 unit (List.mem_of_mem_drop unitMem)⟩
  have hash : matchesClasses (List.replicate 8 isHex)
      (hexText (hashText (attemptSeed prior stage round)).toNat 8) = true :=
    hexOf (length_hexText_hash _) hexOfNumeral
  have tag : matchesClasses (List.replicate 4 isHex) (stageTag stage) = true :=
    hexOf (length_stageTag stage) fun unit unitMem => hexOfNumeral unit (List.mem_of_mem_take unitMem)
  have node : matchesClasses (List.replicate 12 isHex) (prior.take 8 ++ hexText round 4) = true := by
    apply hexOf
    · rw [List.length_append, (taken (le_refl 8)).1, length_hexText (by omega) bounded]
    · intro unit unitMem
      rcases List.mem_append.mp unitMem with ofPrior | ofRound
      · exact front.hex unit ofPrior
      · exact hexOfNumeral unit ofRound
  have dash : matchesClasses [fun unit : UInt16 => decide (unit = 45)] (js "-") = true := rfl
  have third := slice 52 1 4 (by decide) (by omega) (by omega)
  have fourth := slice 56 4 7 (by decide) (by omega) (by omega)
  have shaped := matchesClasses_of_append hash (matchesClasses_of_append dash
    (matchesClasses_of_append tag (matchesClasses_of_append dash (matchesClasses_of_append third
      (matchesClasses_of_append dash (matchesClasses_of_append fourth
        (matchesClasses_of_append dash node)))))))
  exact shaped

theorem attemptAfter_inj {prior prior' stage stage' : JsString} {round round' : ℕ}
    (front : HexFront prior) (front' : HexFront prior')
    (same : attemptAfter prior stage round = attemptAfter prior' stage' round') :
    hashText (attemptSeed prior stage round) = hashText (attemptSeed prior' stage' round') ∧
      stageTag stage = stageTag stage' ∧ round = round' := by
  have length : ∀ {text : JsString}, HexFront text → ∀ stop, stop ≤ 8 →
      (text.take stop).length = stop := by
    intro text hexFront stop within
    rw [List.length_take]
    exact min_eq_left (within.trans hexFront.long)
  rcases List.append_inj same (by simp only [length_hexText_hash]) with ⟨hash, same⟩
  rcases List.append_inj (List.append_cancel_left same) (by simp only [length_stageTag]) with
    ⟨tag, same⟩
  rcases List.append_inj (List.append_cancel_left same) (by
    simp only [List.length_drop, length front 4 (by omega), length front' 4 (by omega)]) with
    ⟨-, same⟩
  rcases List.append_inj (List.append_cancel_left same) (by
    simp only [List.length_drop, length front 7 (by omega), length front' 7 (by omega)]) with
    ⟨-, same⟩
  rcases List.append_inj (List.append_cancel_left same) (by
    simp only [length front 8 (by omega), length front' 8 (by omega)]) with ⟨-, same⟩
  exact ⟨UInt32.toNat_inj.mp (hexText_inj.mp hash), tag, hexText_inj.mp same⟩

theorem attemptAfter_eq_iff {front left right stage : JsString} {round : ℕ}
    (isFront : HexFront front) :
    attemptAfter (front ++ left) stage round = attemptAfter (front ++ right) stage round ↔
      hashText (front ++ left) = hashText (front ++ right) := by
  refine ⟨?_, ?_⟩
  · intro same
    exact hashText_append_inj.mp
      (attemptAfter_inj (isFront.append left) (isFront.append right) same).1
  · intro same
    have taken : ∀ (rest : JsString) {stop : ℕ}, stop ≤ 8 →
        (front ++ rest).take stop = front.take stop := fun rest _ within =>
      List.take_append_of_le_length (within.trans isFront.long)
    have seeds : hashText (front ++ left ++ (js ":" ++ stage ++ js ":" ++ decimal round)) =
        hashText (front ++ right ++ (js ":" ++ stage ++ js ":" ++ decimal round)) :=
      hashText_append_inj.mpr same
    simp only [attemptAfter, attemptSeed, seeds, taken left (by omega : 4 ≤ 8),
      taken left (by omega : 7 ≤ 8), taken left (le_refl 8), taken right (by omega : 4 ≤ 8),
      taken right (by omega : 7 ≤ 8), taken right (le_refl 8)]

theorem routeReview_minted {host : CoordinatorHost} {state : ReviewState} {order : WorkOrder}
    (routed : routeReview host state = .order order) : ∃ runtime actor lane targetSha,
      mintOrder host state .review runtime actor lane targetSha = .order order := by
  simp only [routeReview] at routed
  split at routed
  case h_1 =>
    split at routed
    case h_1 => exact ⟨_, _, _, _, routed⟩
    case h_2 => cases routed
  case h_2 =>
    split at routed
    case h_1 => cases routed
    case h_2 => exact ⟨_, _, _, _, routed⟩

theorem routeRevision_minted {host : CoordinatorHost} {state : ReviewState} {order : WorkOrder}
    (routed : routeRevision host state = .order order) : ∃ runtime actor lane targetSha,
      mintOrder host state .revise runtime actor lane targetSha = .order order := by
  simp only [routeRevision] at routed
  split at routed
  case isTrue => cases routed
  case isFalse =>
    split at routed
    case h_1 => cases routed
    case h_2 =>
      split at routed
      case h_1 => cases routed
      case h_2 => exact ⟨_, _, _, _, routed⟩

/-- The successor of a receipt is a review or a revision, as the attempt of the round that follows
the reviews of the lineage. -/
theorem attempt_of_routeSuccessorFromReceipts {host : CoordinatorHost} {state : RoutingState}
    {order : WorkOrder} (routed : routeSuccessorFromReceipts host state = .order order) :
    order.role ≠ .build ∧ ∃ attempt, order.attemptId = .string attempt ∧
      freshAttempt state.terminal.attemptId.value order.role.text
        (reviewRoundOf (routingEntries state) + 1) = some attempt := by
  simp only [routeSuccessorFromReceipts] at routed
  split at routed
  case h_1 => cases routed
  case h_2 verdict authority _ =>
    split_ifs at routed
    have minted : ∃ role runtime actor lane targetSha, role ≠ .build ∧ mintOrder host
        ⟨completedOrderFromTerminal state.terminal verdict authority.runtime, routingEntries state,
          state.maxRevise, reviewRoundOf (routingEntries state), state.bootstrapReviewer,
          state.fixtureLane⟩ role runtime actor lane targetSha = .order order := by
      simp only [nextWorkOrder] at routed
      split at routed
      case h_1 | h_2 =>
        rcases routeReview_minted routed with ⟨runtime, actor, lane, targetSha, minted⟩
        exact ⟨.review, runtime, actor, lane, targetSha, by decide, minted⟩
      case h_3 =>
        split at routed
        case h_1 | h_2 =>
          rcases routeRevision_minted routed with ⟨runtime, actor, lane, targetSha, minted⟩
          exact ⟨.revise, runtime, actor, lane, targetSha, by decide, minted⟩
        case h_3 | h_4 => cases routed
    rcases minted with ⟨role, runtime, actor, lane, targetSha, notBuild, minted⟩
    rcases mintOrder_eq_order minted with ⟨rfl, -, -, attempt, fresh, isAttempt⟩
    exact ⟨notBuild, attempt, isAttempt, fresh⟩

/-- An attempt of a loop, with the stage and the round that it was minted for. -/
structure Minted where
  role : Role
  round : ℕ
  attempt : JsString

def latestAttempt (first : JsString) (minted : List Minted) : JsString :=
  match minted with
  | [] => first
  | latest :: _ => latest.attempt

/-- The attempts that are routed from a first one, the latest first: each is minted from the
receipt of the attempt before it. -/
inductive Loop (host : CoordinatorHost) (first : JsString) : List Minted → Prop
  | start : Loop host first []
  | next {minted : List Minted} {state : RoutingState} {order : WorkOrder} {attempt : JsString}
      (loop : Loop host first minted)
      (prior : state.terminal.attemptId.value = .string (latestAttempt first minted))
      (routed : routeSuccessorFromReceipts host state = .order order)
      (isAttempt : order.attemptId = .string attempt)
      (bounded : reviewRoundOf (routingEntries state) + 1 < 65536) :
      Loop host first (⟨order.role, reviewRoundOf (routingEntries state) + 1, attempt⟩ :: minted)

structure Minted.Packed (minted : Minted) : Prop where
  notBuild : minted.role ≠ .build
  bounded : minted.round < 65536
  packed : ∃ prior, HexFront prior ∧ minted.attempt = attemptAfter prior minted.role.text minted.round

theorem Minted.Packed.isUuidShaped {minted : Minted} (packed : minted.Packed) :
    Supervisor.isUuidShaped minted.attempt = true := by
  rcases packed.packed with ⟨prior, front, isAttempt⟩
  rw [isAttempt]
  exact isUuidShaped_attemptAfter front _ packed.bounded

theorem Loop.packed {host : CoordinatorHost} {first : JsString} {minted : List Minted}
    (loop : Loop host first minted) (shaped : Supervisor.isUuidShaped first = true) :
    (∀ attempt ∈ minted, attempt.Packed) ∧ HexFront (latestAttempt first minted) := by
  induction loop with
  | start => exact ⟨by simp, .of_isUuidShaped shaped⟩
  | @next minted state order attempt _ prior routed isAttempt bounded ih =>
    rcases attempt_of_routeSuccessorFromReceipts routed with ⟨notBuild, found, isFound, fresh⟩
    rw [isAttempt, JsValue.string.injEq] at isFound
    subst isFound
    rw [prior, freshAttempt_string, Option.some.injEq] at fresh
    have packed : Minted.Packed
        ⟨order.role, reviewRoundOf (routingEntries state) + 1, attempt⟩ :=
      ⟨notBuild, bounded, _, ih.2, fresh.symm⟩
    refine ⟨?_, .of_isUuidShaped packed.isUuidShaped⟩
    rw [List.forall_mem_cons]
    exact ⟨packed, ih.1⟩

theorem Minted.Packed.ne_of_step {left right : Minted} (packed : left.Packed)
    (packed' : right.Packed) (different : (left.role, left.round) ≠ (right.role, right.round)) :
    left.attempt ≠ right.attempt := by
  intro same
  rcases packed with ⟨notBuild, -, prior, front, isAttempt⟩
  rcases packed' with ⟨notBuild', -, prior', front', isAttempt'⟩
  rw [isAttempt, isAttempt'] at same
  rcases attemptAfter_inj front front' same with ⟨-, tag, round⟩
  apply different
  rw [Prod.mk.injEq]
  refine ⟨?_, round⟩
  revert tag notBuild notBuild'
  cases left.role <;> cases right.role <;> decide

inductive RepairRefusal
  | noRepairId
  | noReviewAuthority
  | noEpisode
  | noActiveWriter
  | noWriterLane
  | noAttempt
  | successorScope (refusal : ScopeRefusal)

/-- The id of the revision that a repair of a review starts with; `none` if a template throws. -/
def repairAttempt (pass : Receipt) (repairId : JsString) : Option JsString := do
  let passed ← pass.attemptId.value.toText
  freshAttempt (.string (passed ++ (js ":" ++ repairId))) (js "repair") 1

/-- The revision that a repair starts with, minted from a review that passed. -/
def repairReviseOrder (host : CoordinatorHost) (pass : Receipt) (repairId : JsValue)
    (lineageReceipts : List Receipt) (fixtureLane : Option FixtureLane) :
    Except RepairRefusal WorkOrder :=
  match repairId with
  | .string (unit :: units) =>
      match resolveReceiptRoleAuthority pass with
      | .ok ⟨.review, runtime⟩ =>
          match pass.episode with
          | none => .error .noEpisode
          | some episode =>
              match activeWriter (provenanceEntries
                (lineageReceipts.filter fun receipt => receipt.episode = some episode)) with
              | none => .error .noActiveWriter
              | some writer =>
                  match laneForRuntimeRole writer.runtime .revise with
                  | none => .error .noWriterLane
                  | some lane =>
                      match repairAttempt pass (unit :: units) with
                      | none => .error .noAttempt
                      | some attempt =>
                          match successorWorkspaceScope host.laneContract .revise fixtureLane with
                          | .error refusal => .error (.successorScope refusal)
                          | .ok workspace => .ok
                              { completedOrderFromTerminal pass ⟨.review, some .pass⟩ runtime with
                                workspace
                                role := .revise
                                runtime := writer.runtime
                                actor := some writer.actor
                                requestedWorker := .string lane.text
                                attemptId := .string attempt
                                outcome := none }
      | _ => .error .noReviewAuthority
  | _ => .error .noRepairId

theorem attempt_of_repairReviseOrder {host : CoordinatorHost} {pass : Receipt}
    {passed repairId : JsString} {lineageReceipts : List Receipt} {fixtureLane : Option FixtureLane}
    {order : WorkOrder} (isPass : pass.attemptId.value = .string passed)
    (repairs : repairReviseOrder host pass (.string repairId) lineageReceipts fixtureLane =
      .ok order) :
    order.attemptId = .string (attemptAfter (passed ++ (js ":" ++ repairId)) (js "repair") 1) := by
  have attempt : repairAttempt pass repairId =
      some (attemptAfter (passed ++ (js ":" ++ repairId)) (js "repair") 1) := by
    simp only [repairAttempt, isPass, JsValue.toText, freshAttempt_string]
    rfl
  cases repairId with
  | nil => cases repairs
  | cons unit units =>
    simp only [repairReviseOrder, attempt] at repairs
    split at repairs
    case h_2 => cases repairs
    case h_1 =>
      split at repairs
      case h_1 => cases repairs
      case h_2 =>
        split at repairs
        case h_1 => cases repairs
        case h_2 =>
          split at repairs
          case h_1 => cases repairs
          case h_2 =>
            split at repairs
            case h_1 => cases repairs
            case h_2 =>
              injection repairs with isOrder
              rw [← isOrder]

/-- What the ids of a loop and of two repairs of its review that passed have to be. -/
structure IdsApart (minted : List Minted) (repairId repairId' attempt attempt' : JsString) :
    Prop where
  shaped : (∀ step ∈ minted, Supervisor.isUuidShaped step.attempt = true) ∧
    Supervisor.isUuidShaped attempt = true ∧ Supervisor.isUuidShaped attempt' = true
  steps : ∀ step ∈ minted, ∀ step' ∈ minted,
    (step.role, step.round) ≠ (step'.role, step'.round) → step.attempt ≠ step'.attempt
  notLoop : ∀ step ∈ minted, step.attempt ≠ attempt ∧ step.attempt ≠ attempt'
  repairs : repairId ≠ repairId' → attempt ≠ attempt'

theorem Minted.Packed.ne_repair {step : Minted} (packed : step.Packed) {prior : JsString}
    (front : HexFront prior) : step.attempt ≠ attemptAfter prior (js "repair") 1 := by
  intro same
  rcases packed with ⟨notBuild, -, prior', front', isAttempt⟩
  rw [isAttempt] at same
  have tag := (attemptAfter_inj front' front same).2.1
  revert tag notBuild
  cases step.role <;> decide

theorem repairReviseOrder_apart_iff {host : CoordinatorHost} {first passed : JsString}
    {minted : List Minted} {pass : Receipt} {repairId repairId' : JsString}
    {lineageReceipts lineageReceipts' : List Receipt} {fixtureLane fixtureLane' : Option FixtureLane}
    {order order' : WorkOrder} (shaped : Supervisor.isUuidShaped first = true)
    (loop : Loop host first minted) (isPass : pass.attemptId.value = .string passed)
    (ofLoop : passed = first ∨ ∃ step ∈ minted, step.attempt = passed)
    (repairs : repairReviseOrder host pass (.string repairId) lineageReceipts fixtureLane =
      .ok order)
    (repairs' : repairReviseOrder host pass (.string repairId') lineageReceipts' fixtureLane' =
      .ok order') :
    ∃ attempt attempt', order.attemptId = .string attempt ∧ order'.attemptId = .string attempt' ∧
      (IdsApart minted repairId repairId' attempt attempt' ↔ (repairId ≠ repairId' →
        hashText (passed ++ (js ":" ++ repairId)) ≠ hashText (passed ++ (js ":" ++ repairId')))) := by
  have packed := (loop.packed shaped).1
  have front : HexFront passed := by
    rcases ofLoop with rfl | ⟨step, stepMem, rfl⟩
    · exact .of_isUuidShaped shaped
    · exact .of_isUuidShaped (packed step stepMem).isUuidShaped
  refine ⟨_, _, attempt_of_repairReviseOrder isPass repairs,
    attempt_of_repairReviseOrder isPass repairs', ?_⟩
  refine ⟨?_, ?_⟩
  · intro apart different sameHash
    exact apart.repairs different ((attemptAfter_eq_iff front).mpr sameHash)
  · intro hashes
    refine ⟨⟨fun step stepMem => (packed step stepMem).isUuidShaped,
      isUuidShaped_attemptAfter (front.append _) _ (by omega),
      isUuidShaped_attemptAfter (front.append _) _ (by omega)⟩, ?_, ?_, ?_⟩
    · intro step stepMem step' stepMem'
      exact (packed step stepMem).ne_of_step (packed step' stepMem')
    · intro step stepMem
      exact ⟨(packed step stepMem).ne_repair (front.append _),
        (packed step stepMem).ne_repair (front.append _)⟩
    · intro different same
      exact hashes different ((attemptAfter_eq_iff front).mp same)

def passedReview (attempt : JsString) : Receipt :=
  { completedReceipt 98 .claudeVerifier (js "claude-1") (js "PASS") 98 98 with
    attemptId := some (.string attempt), episodeId := some (.string (js "loop")) }

def passedLineage : List Receipt :=
  [{ completedReceipt 97 .codexBuilder (js "codex-1") (js "BUILD_READY") 97 98 with
    episodeId := some (.string (js "loop")) }]

def repairActivationId (revision : JsString) : JsString := js "shu-1-repair-" ++ revision

/-- The repair that an installed revision starts after a review that passed. -/
def repairAt (attempt revision : JsString) : Except RepairRefusal WorkOrder :=
  repairReviseOrder plainHost (passedReview attempt) (.string (repairActivationId revision))
    passedLineage none

theorem exists_repairAt {attempt revision : JsString}
    (isOk : (repairAt attempt revision).toOption.isSome = true) :
    ∃ order, repairAt attempt revision = .ok order := by
  cases made : repairAt attempt revision with
  | ok order => exact ⟨order, rfl⟩
  | error refusal => simp [made, Except.toOption] at isOk

/-- Two revisions whose repairs of one review are one attempt. -/
theorem repairReviseOrder_collides :
    repairActivationId (js "2e69d25f0f20714a7d775831ecf48465b1169539") ≠
        repairActivationId (js "babf942a5f34aa3d6d1429edc433a31c153432e2") ∧
      ∃ order order',
        repairAt (sampleAttempt 98) (js "2e69d25f0f20714a7d775831ecf48465b1169539") = .ok order ∧
        repairAt (sampleAttempt 98) (js "babf942a5f34aa3d6d1429edc433a31c153432e2") = .ok order' ∧
        order.attemptId = order'.attemptId := by
  refine ⟨by decide, ?_⟩
  rcases exists_repairAt (by decide +kernel : (repairAt (sampleAttempt 98)
    (js "2e69d25f0f20714a7d775831ecf48465b1169539")).toOption.isSome = true) with ⟨order, made⟩
  rcases exists_repairAt (by decide +kernel : (repairAt (sampleAttempt 98)
    (js "babf942a5f34aa3d6d1429edc433a31c153432e2")).toOption.isSome = true) with ⟨order', made'⟩
  refine ⟨order, order', made, made', ?_⟩
  rw [attempt_of_repairReviseOrder rfl made, attempt_of_repairReviseOrder rfl made']
  apply congrArg JsValue.string
  exact (attemptAfter_eq_iff (.of_isUuidShaped (by decide +kernel))).mpr (by decide +kernel)

/-- A loop that has routed the review of a revision, and two repairs of that review. -/
theorem repairReviseOrder_apart_iff_sample :
    ∃ order passed attempt attempt',
      routeSuccessorFromReceipts plainHost straightRouting = .order order ∧
      order.attemptId = .string passed ∧
      (IdsApart [⟨order.role, reviewRoundOf (routingEntries straightRouting) + 1, passed⟩]
          (repairActivationId (js "a")) (repairActivationId (js "b")) attempt attempt' ↔
        (repairActivationId (js "a") ≠ repairActivationId (js "b") →
          hashText (passed ++ (js ":" ++ repairActivationId (js "a"))) ≠
            hashText (passed ++ (js ":" ++ repairActivationId (js "b"))))) := by
  rcases exists_order_of_placement (routeSuccessorFromReceipts plainHost straightRouting) .review
    .claudeCode (by decide +kernel) with ⟨order, routed, role, -⟩
  rcases attempt_of_routeSuccessorFromReceipts routed with ⟨-, passed, isAttempt, fresh⟩
  have prior : straightRouting.terminal.attemptId.value = .string (sampleAttempt 99) := rfl
  have isPassed := fresh
  rw [prior, freshAttempt_string, role, Option.some.injEq] at isPassed
  have loop : Loop plainHost (sampleAttempt 99)
      [⟨order.role, reviewRoundOf (routingEntries straightRouting) + 1, passed⟩] :=
    Loop.start.next prior routed isAttempt (by decide +kernel)
  have repairs : ∀ revision ∈ [js "a", js "b"], (repairAt (attemptAfter (sampleAttempt 99)
      Role.review.text (reviewRoundOf (routingEntries straightRouting) + 1))
        revision).toOption.isSome = true := by
    decide +kernel
  rw [isPassed] at repairs
  rcases exists_repairAt (repairs (js "a") (by simp)) with ⟨first, made⟩
  rcases exists_repairAt (repairs (js "b") (by simp)) with ⟨second, made'⟩
  rcases repairReviseOrder_apart_iff (by decide +kernel) loop rfl
    (Or.inr ⟨_, List.mem_singleton_self _, rfl⟩) made made' with ⟨attempt, attempt', -, -, apart⟩
  exact ⟨order, passed, attempt, attempt', routed, isAttempt, apart⟩

end StudentHub.Coordinator
