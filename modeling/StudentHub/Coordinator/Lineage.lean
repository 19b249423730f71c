import StudentHub.Coordinator.Independence
import Mathlib.Order.Bounds.Basic

/-!
# Lineages as least sets

The lineage of a review is grown in passes over an unordered list. What the passes reach is
said without them: the least set that has the receipts of the episode, and with every write
the earlier writes that it was built on. So neither the order of the list nor a repeated
entry changes a verdict.
-/

namespace StudentHub.Coordinator

open Ecma JsString

theorem headOf_eq_some {value : JsValue} {sha : JsString} :
    headOf value = some sha ↔ value = .string sha ∧ Supervisor.isTargetSha sha = true := by
  cases value with
  | string text =>
      simp only [headOf, JsValue.string.injEq]
      split
      case isTrue isSha =>
        rw [Option.some.injEq]
        exact ⟨fun same => ⟨same, same ▸ isSha⟩, And.left⟩
      case isFalse notSha =>
        refine ⟨(by intro found; cases found), ?_⟩
        rintro ⟨rfl, isSha⟩
        exact absurd isSha notSha
  | _ => simp [headOf]

theorem eq_string_of_strictEq {value head : JsValue}
    (isHead : isSha (head.orElse (.string [])) = true) (same : value.strictEq head = true) :
    ∃ sha, value = .string sha ∧ head = .string sha := by
  cases head with
  | string text =>
      cases value with
      | string sha => exact ⟨sha, rfl, by simpa [JsValue.strictEq, eq_comm] using same⟩
      | _ => simp [JsValue.strictEq] at same
  | undefined | null => exact absurd isHead (by decide)
  | boolean value => cases value <;> exact absurd isHead (by decide)
  | number value =>
      cases value with
      | nan => exact absurd isHead (by decide)
      | infinity negative => cases negative <;> exact absurd isHead (by decide)
      | finite number => simp [JsValue.orElse, isSha, JsValue.toText, isTargetSha_text] at isHead
  | _ => cases value <;> simp [JsValue.strictEq] at same

theorem isSha_string {sha : JsString} :
    isSha ((JsValue.string sha).orElse (.string [])) = true ↔ Supervisor.isTargetSha sha = true := by
  cases sha <;> simp [JsValue.orElse, isSha, JsValue.toText]

def Receipt.Writes (receipt : Receipt) : Prop :=
  ∃ role, roleForReceipt receipt = some role ∧ role.isWriter = true

/-- The head that a write is placed by: what it produced, or what it started from. -/
def Receipt.lineageHead (receipt : Receipt) : Option JsString :=
  (headOf receipt.resultSha.value).or (headOf receipt.targetSha.value)

def Receipt.IsOwn (review : Receipt) (episode : JsString) (receipt : Receipt) : Prop :=
  receipt.episode = some episode ∧ ownReviewCopy review.attemptId.value receipt = false

def reachedHeads (review : Receipt) (episode : JsString) (receipts : List Receipt)
    (members : Set Receipt) : Set JsString :=
  {sha | headOf review.targetSha.value = some sha ∨
    (∃ receipt ∈ receipts, review.IsOwn episode receipt ∧
      (headOf receipt.targetSha.value = some sha ∨ headOf receipt.resultSha.value = some sha)) ∨
    ∃ receipt ∈ members, receipt.Writes ∧ headOf receipt.targetSha.value = some sha}

structure ContainsLineage (review : Receipt) (episode : JsString) (receipts : List Receipt)
    (members : Set Receipt) : Prop where
  own : ∀ receipt ∈ receipts, review.IsOwn episode receipt → receipt ∈ members
  written : ∀ receipt ∈ receipts, receipt.episode ≠ some episode → receipt.Writes →
    (∃ sha ∈ reachedHeads review episode receipts members, receipt.lineageHead = some sha) →
      receipt ∈ members

theorem Receipt.Writes.not_ownReviewCopy {receipt : Receipt} (wrote : receipt.Writes)
    (own : JsValue) : ownReviewCopy own receipt = false := by
  rcases wrote with ⟨role, isRole, writer⟩
  cases own with
  | string attempt =>
      simp only [ownReviewCopy, isRole, Option.some.injEq, Bool.and_eq_false_iff,
        decide_eq_false_iff_not]
      right
      rintro rfl
      cases writer
  | _ => rfl

def lineagePass (others lineage : List Receipt) (heads : List JsValue) : Growth :=
  others.foldl Growth.visit ⟨[], lineage, heads, false⟩

/-- The loop over passes, which ends with one that adds no head. -/
inductive LoopEnds : List Receipt → List Receipt → List JsValue → List Receipt → Prop
  | last {others lineage : List Receipt} {heads : List JsValue}
      (quiet : (lineagePass others lineage heads).grew = false) :
      LoopEnds others lineage heads (lineagePass others lineage heads).taken
  | again {others lineage result : List Receipt} {heads : List JsValue}
      (grew : (lineagePass others lineage heads).grew = true)
      (rest : LoopEnds (lineagePass others lineage heads).left
        (lineagePass others lineage heads).taken (lineagePass others lineage heads).heads result) :
      LoopEnds others lineage heads result

def Growth.Takes (growth : Growth) (receipt : Receipt) : Prop :=
  receipt.Writes ∧ ∃ sha, receipt.lineageHead = some sha ∧ .string sha ∈ growth.heads

inductive Growth.Visited (growth : Growth) (receipt : Receipt) : Growth → Prop
  | left (refused : ¬growth.Takes receipt) :
      growth.Visited receipt { growth with left := growth.left ++ [receipt] }
  | known (takes : growth.Takes receipt)
      (reached : ∀ sha, headOf receipt.targetSha.value = some sha → .string sha ∈ growth.heads) :
      growth.Visited receipt { growth with taken := growth.taken ++ [receipt] }
  | grown (takes : growth.Takes receipt)
      (isHead : isSha (receipt.targetSha.value.orElse (.string [])) = true) :
      growth.Visited receipt { growth with
        taken := growth.taken ++ [receipt]
        heads := receipt.targetSha.value :: growth.heads
        grew := true }

section Visits

variable {growth : Growth}

theorem Growth.reaches_iff (areHeads : ∀ head ∈ growth.heads, isSha (head.orElse (.string [])) = true)
    {value : JsValue} : growth.reaches value = true ↔
      ∃ sha, value = .string sha ∧ .string sha ∈ growth.heads := by
  simp only [Growth.reaches, List.any_eq_true]
  refine ⟨?_, ?_⟩
  · rintro ⟨head, headMem, same⟩
    rcases eq_string_of_strictEq (areHeads head headMem) same with ⟨sha, rfl, rfl⟩
    exact ⟨sha, rfl, headMem⟩
  · rintro ⟨sha, rfl, headMem⟩
    exact ⟨.string sha, headMem, by simp [JsValue.strictEq]⟩

def Growth.takes (growth : Growth) (receipt : Receipt) : Bool :=
  (roleForReceipt receipt).any Role.isWriter &&
    match headOf receipt.resultSha.value with
    | some produced => growth.reaches (.string produced)
    | none => growth.reaches receipt.targetSha.value

theorem Growth.takes_iff (areHeads : ∀ head ∈ growth.heads, isSha (head.orElse (.string [])) = true)
    {receipt : Receipt} : growth.takes receipt = true ↔ growth.Takes receipt := by
  simp only [Growth.takes, Bool.and_eq_true, Option.any_eq_true, Growth.Takes, Receipt.lineageHead]
  refine and_congr_right fun _ => ?_
  cases headOf receipt.resultSha.value with
  | some produced =>
      simp only [Growth.reaches_iff areHeads, JsValue.string.injEq, Option.some_or,
        Option.some.injEq]
  | none =>
      simp only [Growth.reaches_iff areHeads, Option.none_or, headOf_eq_some]
      refine exists_congr fun sha => and_congr_left fun headMem => ?_
      exact (and_iff_left (isSha_string.mp (areHeads _ headMem))).symm

theorem Growth.visit_eq (receipt : Receipt) : growth.visit receipt =
    if growth.takes receipt then
      let target := receipt.targetSha.value
      if !growth.reaches target && isSha (target.orElse (.string [])) then
        { growth with taken := growth.taken ++ [receipt], heads := target :: growth.heads, grew := true }
      else
        { growth with taken := growth.taken ++ [receipt] }
    else
      { growth with left := growth.left ++ [receipt] } :=
  rfl

theorem Growth.visited (areHeads : ∀ head ∈ growth.heads, isSha (head.orElse (.string [])) = true)
    (receipt : Receipt) : growth.Visited receipt (growth.visit receipt) := by
  rw [Growth.visit_eq]
  by_cases written : growth.Takes receipt
  · rw [if_pos ((Growth.takes_iff areHeads).mpr written)]
    dsimp only
    split
    case isTrue new =>
      rw [Bool.and_eq_true] at new
      exact .grown written new.2
    case isFalse known =>
      apply Growth.Visited.known written
      intro sha isTarget
      rcases headOf_eq_some.mp isTarget with ⟨isText, isTargetSha⟩
      by_contra unreached
      apply known
      simp only [Bool.and_eq_true, Bool.not_eq_true', ← Bool.not_eq_true,
        Growth.reaches_iff areHeads, isText, JsValue.string.injEq, exists_eq_left']
      exact ⟨unreached, isSha_string.mpr isTargetSha⟩
  · rw [if_neg (mt (Growth.takes_iff areHeads).mp written)]
    exact .left written

end Visits

section Growths

variable {review : Receipt} {episode : JsString} {receipts remaining : List Receipt}
  {growth : Growth} {receipt : Receipt}

/-- What holds while some receipts of a pass remain: nothing is lost, nothing is taken or reached
that a lineage can be without, and what is left aside by a pass that adds no head stays outside. -/
structure Growth.Covers (review : Receipt) (episode : JsString) (receipts : List Receipt)
    (growth : Growth) (remaining : List Receipt) : Prop where
  areHeads : ∀ head ∈ growth.heads, isSha (head.orElse (.string [])) = true
  fromOthers : ∀ receipt, receipt ∈ growth.left ∨ receipt ∈ remaining →
    receipt ∈ receipts ∧ receipt.episode ≠ some episode
  own : ∀ receipt ∈ receipts, review.IsOwn episode receipt → receipt ∈ growth.taken
  others : ∀ receipt ∈ receipts, receipt.episode ≠ some episode → receipt.Writes →
    receipt ∈ growth.taken ∨ receipt ∈ growth.left ∨ receipt ∈ remaining
  reached : ∀ sha ∈ reachedHeads review episode receipts {taken | taken ∈ growth.taken},
    .string sha ∈ growth.heads
  quiet : growth.grew = false → ∀ receipt ∈ growth.left, ¬growth.Takes receipt
  taken_mem : ∀ members, ContainsLineage review episode receipts members →
    ∀ receipt ∈ growth.taken, receipt ∈ members
  heads_mem : ∀ members, ContainsLineage review episode receipts members →
    ∀ sha, .string sha ∈ growth.heads → sha ∈ reachedHeads review episode receipts members

theorem mem_reachedHeads_append {taken : List Receipt} {sha : JsString} :
    sha ∈ reachedHeads review episode receipts {found | found ∈ taken ++ [receipt]} ↔
      sha ∈ reachedHeads review episode receipts {found | found ∈ taken} ∨
        receipt.Writes ∧ headOf receipt.targetSha.value = some sha := by
  simp only [reachedHeads, Set.mem_ofPred_eq, List.mem_append, List.mem_singleton, or_and_right,
    exists_or, exists_eq_left, or_assoc]

theorem Growth.Covers.mem_of_takes (covers : growth.Covers review episode receipts (receipt :: remaining))
    (takes : growth.Takes receipt) {members : Set Receipt}
    (contains : ContainsLineage review episode receipts members) : receipt ∈ members := by
  rcases takes with ⟨wrote, sha, isHead, headMem⟩
  rcases covers.fromOthers receipt (Or.inr List.mem_cons_self) with ⟨receiptMem, otherEpisode⟩
  exact contains.written receipt receiptMem otherEpisode wrote
    ⟨sha, covers.heads_mem members contains sha headMem, isHead⟩

theorem Growth.Covers.taken_append
    (covers : growth.Covers review episode receipts (receipt :: remaining))
    (takes : growth.Takes receipt) : ∀ members, ContainsLineage review episode receipts members →
      ∀ found ∈ growth.taken ++ [receipt], found ∈ members := by
  intro members contains found foundMem
  rcases List.mem_append.mp foundMem with already | isReceipt
  · exact covers.taken_mem members contains found already
  · rw [List.mem_singleton.mp isReceipt]
    exact covers.mem_of_takes takes contains

theorem Growth.Covers.others_append
    (covers : growth.Covers review episode receipts (receipt :: remaining)) :
    ∀ found ∈ receipts, found.episode ≠ some episode → found.Writes →
      found ∈ growth.taken ++ [receipt] ∨ found ∈ growth.left ∨ found ∈ remaining := by
  intro found foundMem otherEpisode wrote
  rcases covers.others found foundMem otherEpisode wrote with taken | left | later
  · exact Or.inl (List.mem_append_left _ taken)
  · exact Or.inr (Or.inl left)
  · rcases List.mem_cons.mp later with rfl | later
    · exact Or.inl (List.mem_append_right _ List.mem_cons_self)
    · exact Or.inr (Or.inr later)

theorem Growth.Covers.visited {next : Growth}
    (covers : growth.Covers review episode receipts (receipt :: remaining))
    (visited : growth.Visited receipt next) : next.Covers review episode receipts remaining := by
  have fromOthers : ∀ found, found ∈ growth.left ∨ found ∈ remaining →
      found ∈ receipts ∧ found.episode ≠ some episode := by
    rintro found (left | later)
    · exact covers.fromOthers found (Or.inl left)
    · exact covers.fromOthers found (Or.inr (List.mem_cons_of_mem _ later))
  have own : ∀ found ∈ receipts, review.IsOwn episode found → found ∈ growth.taken ++ [receipt] :=
    fun found foundMem isOwn => List.mem_append_left _ (covers.own found foundMem isOwn)
  cases visited with
  | left refused =>
      refine ⟨covers.areHeads, ?_, covers.own, ?_, covers.reached, ?_, covers.taken_mem,
        covers.heads_mem⟩
      · simp only [List.mem_append, List.mem_singleton]
        rintro found ((left | rfl) | later)
        · exact fromOthers found (Or.inl left)
        · exact covers.fromOthers found (Or.inr List.mem_cons_self)
        · exact fromOthers found (Or.inr later)
      · intro found foundMem otherEpisode wrote
        simp only [List.mem_append, List.mem_singleton]
        rcases covers.others found foundMem otherEpisode wrote with taken | left | later
        · exact Or.inl taken
        · exact Or.inr (Or.inl (Or.inl left))
        · rcases List.mem_cons.mp later with isReceipt | later
          · exact Or.inr (Or.inl (Or.inr isReceipt))
          · exact Or.inr (Or.inr later)
      · intro quiet found foundMem
        rcases List.mem_append.mp foundMem with left | isReceipt
        · exact covers.quiet quiet found left
        · rw [List.mem_singleton.mp isReceipt]
          exact refused
  | known takes reached =>
      refine ⟨covers.areHeads, fromOthers, own, covers.others_append, ?_, covers.quiet,
        covers.taken_append takes, covers.heads_mem⟩
      intro sha shaMem
      rcases mem_reachedHeads_append.mp shaMem with already | ⟨-, isTarget⟩
      · exact covers.reached sha already
      · exact reached sha isTarget
  | grown takes isHead =>
      refine ⟨?_, fromOthers, own, covers.others_append, ?_, (by intro quiet; cases quiet),
        covers.taken_append takes, ?_⟩
      · rw [List.forall_mem_cons]
        exact ⟨isHead, covers.areHeads⟩
      · intro sha shaMem
        rcases mem_reachedHeads_append.mp shaMem with already | ⟨-, isTarget⟩
        · exact List.mem_cons_of_mem _ (covers.reached sha already)
        · rw [(headOf_eq_some.mp isTarget).1]
          exact List.mem_cons_self
      · intro members contains sha shaMem
        rcases List.mem_cons.mp shaMem with isTarget | already
        · refine Or.inr (Or.inr ⟨receipt, covers.mem_of_takes takes contains, takes.1, ?_⟩)
          rw [← isTarget] at isHead ⊢
          exact headOf_eq_some.mpr ⟨rfl, isSha_string.mp isHead⟩
        · exact covers.heads_mem members contains sha already

theorem Growth.Covers.pass (covers : growth.Covers review episode receipts remaining) :
    (remaining.foldl Growth.visit growth).Covers review episode receipts [] := by
  induction remaining generalizing growth with
  | nil => exact covers
  | cons receipt rest ih => exact ih (covers.visited (Growth.visited covers.areHeads receipt))

theorem Growth.Covers.isLeast (covers : growth.Covers review episode receipts [])
    (quiet : growth.grew = false) :
    IsLeast {members | ContainsLineage review episode receipts members}
      {found | found ∈ growth.taken} := by
  refine ⟨⟨covers.own, ?_⟩, fun members contains => covers.taken_mem members contains⟩
  rintro found foundMem otherEpisode wrote ⟨sha, reached, isHead⟩
  rcases covers.others found foundMem otherEpisode wrote with taken | left | later
  · exact taken
  · exact absurd ⟨wrote, sha, isHead, covers.reached sha reached⟩ (covers.quiet quiet found left)
  · exact absurd later List.not_mem_nil

theorem LoopEnds.isLeast {others lineage result : List Receipt} {heads : List JsValue}
    (ends : LoopEnds others lineage heads result)
    (covers : Growth.Covers review episode receipts ⟨[], lineage, heads, false⟩ others) :
    IsLeast {members | ContainsLineage review episode receipts members}
      {found | found ∈ result} := by
  induction ends with
  | last quiet => exact covers.pass.isLeast quiet
  | again _ _ ih =>
    apply ih
    rcases covers.pass with ⟨areHeads, fromOthers, own, others, reached, -, taken, heads⟩
    refine ⟨areHeads, ?_, own, ?_, reached, (by simp), taken, heads⟩
    · simpa [lineagePass] using fromOthers
    · simpa [lineagePass] using others

end Growths

theorem Growth.Visited.left_length {growth next : Growth} {receipt : Receipt}
    (visited : growth.Visited receipt next) :
    next.left.length ≤ growth.left.length + 1 ∧
      (next.grew = true → growth.grew = true ∨ next.left.length ≤ growth.left.length) := by
  cases visited with
  | left => simp +contextual
  | known => simp +contextual
  | grown => simp

theorem Growth.Visited.areHeads {growth next : Growth} {receipt : Receipt}
    (visited : growth.Visited receipt next)
    (areHeads : ∀ head ∈ growth.heads, isSha (head.orElse (.string [])) = true) :
    ∀ head ∈ next.heads, isSha (head.orElse (.string [])) = true := by
  cases visited with
  | left => exact areHeads
  | known => exact areHeads
  | grown _ isHead => exact List.forall_mem_cons.mpr ⟨isHead, areHeads⟩

theorem left_length_foldl_visit (others : List Receipt) (growth : Growth)
    (areHeads : ∀ head ∈ growth.heads, isSha (head.orElse (.string [])) = true) :
    (others.foldl Growth.visit growth).left.length ≤ growth.left.length + others.length ∧
      ((others.foldl Growth.visit growth).grew = true → growth.grew = true ∨
        (others.foldl Growth.visit growth).left.length < growth.left.length + others.length) := by
  induction others generalizing growth with
  | nil => simp +contextual
  | cons receipt rest ih =>
    have visited := Growth.visited areHeads receipt
    have step := visited.left_length
    have later := ih (growth.visit receipt) (visited.areHeads areHeads)
    rw [List.foldl_cons, List.length_cons]
    refine ⟨by omega, ?_⟩
    intro grew
    rcases later.2 grew with before | fewer
    · rcases step.2 before with already | same
      · exact Or.inl already
      · right
        omega
    · right
      omega

theorem foldl_visit_areHeads (others : List Receipt) (growth : Growth)
    (areHeads : ∀ head ∈ growth.heads, isSha (head.orElse (.string [])) = true) :
    ∀ head ∈ (others.foldl Growth.visit growth).heads, isSha (head.orElse (.string [])) = true := by
  induction others generalizing growth with
  | nil => exact areHeads
  | cons receipt rest ih =>
    exact ih (growth.visit receipt) ((Growth.visited areHeads receipt).areHeads areHeads)

theorem loopEnds_growLineage {passes : ℕ} {others lineage : List Receipt} {heads : List JsValue}
    (areHeads : ∀ head ∈ heads, isSha (head.orElse (.string [])) = true)
    (enough : others.length < passes) :
    LoopEnds others lineage heads (growLineage passes others lineage heads) := by
  induction passes generalizing others lineage heads with
  | zero => omega
  | succ passes ih =>
    have fewer := left_length_foldl_visit others ⟨[], lineage, heads, false⟩ areHeads
    simp only [growLineage]
    split
    case isTrue grew =>
      apply LoopEnds.again grew
      apply ih
      · exact foldl_visit_areHeads others _ areHeads
      · rcases fewer.2 grew with already | less
        · cases already
        · simp only [List.length_nil, Nat.zero_add] at less
          exact less.trans_le (Nat.le_of_lt_succ enough)
    case isFalse quiet => exact .last (by simpa [lineagePass] using quiet)

section Reviews

variable (review : Receipt) (episode : JsString) (receipts : List Receipt)

def lineagePool : List Receipt :=
  receipts.filter fun candidate => !ownReviewCopy review.attemptId.value candidate

def episodeReceipts : List Receipt :=
  (lineagePool review receipts).filter fun candidate => candidate.episode = some episode

def otherReceipts : List Receipt :=
  (lineagePool review receipts).filter fun candidate => candidate.episode ≠ some episode

/-- The heads that the growth starts from. -/
def episodeHeads : List JsValue :=
  (review.targetSha.value :: (episodeReceipts review episode receipts).flatMap fun member =>
    [member.targetSha.value, member.resultSha.value]).filter fun sha => (headOf sha).isSome

variable {review episode receipts}

theorem reviewedLineage_eq (isEpisode : review.episode = some episode) :
    reviewedLineage review receipts =
      growLineage ((otherReceipts review episode receipts).length + 1)
        (otherReceipts review episode receipts) (episodeReceipts review episode receipts)
        (episodeHeads review episode receipts) := by
  simp only [reviewedLineage, isEpisode]
  rfl

theorem mem_lineagePool {receipt : Receipt} : receipt ∈ lineagePool review receipts ↔
    receipt ∈ receipts ∧ ownReviewCopy review.attemptId.value receipt = false := by
  simp [lineagePool]

theorem mem_episodeReceipts {receipt : Receipt} :
    receipt ∈ episodeReceipts review episode receipts ↔
      receipt ∈ receipts ∧ review.IsOwn episode receipt := by
  simp only [episodeReceipts, List.mem_filter, mem_lineagePool, decide_eq_true_eq, and_assoc,
    Receipt.IsOwn, and_comm]

theorem mem_otherReceipts {receipt : Receipt} :
    receipt ∈ otherReceipts review episode receipts ↔ receipt ∈ receipts ∧
      ownReviewCopy review.attemptId.value receipt = false ∧ receipt.episode ≠ some episode := by
  simp only [otherReceipts, List.mem_filter, mem_lineagePool, decide_eq_true_eq, and_assoc]

theorem mem_episodeHeads {head : JsValue} : head ∈ episodeHeads review episode receipts ↔
    (headOf head).isSome = true ∧ (head = review.targetSha.value ∨
      ∃ receipt ∈ receipts, review.IsOwn episode receipt ∧
        (head = receipt.targetSha.value ∨ head = receipt.resultSha.value)) := by
  simp only [episodeHeads, List.mem_filter, List.mem_cons, List.mem_flatMap, mem_episodeReceipts,
    List.not_mem_nil, or_false, and_assoc]
  exact and_comm

theorem isSha_of_headOf {head : JsValue} (isHead : (headOf head).isSome = true) :
    isSha (head.orElse (.string [])) = true := by
  rcases Option.isSome_iff_exists.mp isHead with ⟨sha, found⟩
  rcases headOf_eq_some.mp found with ⟨rfl, valid⟩
  exact isSha_string.mpr valid

theorem covers_episode : Growth.Covers review episode receipts
    ⟨[], episodeReceipts review episode receipts, episodeHeads review episode receipts, false⟩
    (otherReceipts review episode receipts) := by
  refine ⟨?_, ?_, ?_, ?_, ?_, (by simp), ?_, ?_⟩
  · intro head headMem
    exact isSha_of_headOf (mem_episodeHeads.mp headMem).1
  · rintro receipt (left | other)
    · exact absurd left List.not_mem_nil
    · rw [mem_otherReceipts] at other
      exact ⟨other.1, other.2.2⟩
  · intro receipt receiptMem isOwn
    exact mem_episodeReceipts.mpr ⟨receiptMem, isOwn⟩
  · intro receipt receiptMem otherEpisode wrote
    right
    right
    exact mem_otherReceipts.mpr ⟨receiptMem, wrote.not_ownReviewCopy _, otherEpisode⟩
  · intro sha reached
    rw [mem_episodeHeads]
    have isHead : ∀ {value : JsValue}, headOf value = some sha →
        (headOf (.string sha)).isSome = true ∧ .string sha = value := by
      intro value found
      rcases headOf_eq_some.mp found with ⟨rfl, valid⟩
      exact ⟨by simp [found], rfl⟩
    rcases reached with ofReview | ⟨receipt, receiptMem, isOwn, ofTarget | ofResult⟩ |
      ⟨receipt, receiptMem, -, ofTarget⟩
    · exact ⟨(isHead ofReview).1, Or.inl (isHead ofReview).2⟩
    · exact ⟨(isHead ofTarget).1, Or.inr ⟨receipt, receiptMem, isOwn, Or.inl (isHead ofTarget).2⟩⟩
    · exact ⟨(isHead ofResult).1, Or.inr ⟨receipt, receiptMem, isOwn, Or.inr (isHead ofResult).2⟩⟩
    · rcases mem_episodeReceipts.mp receiptMem with ⟨inList, isOwn⟩
      exact ⟨(isHead ofTarget).1, Or.inr ⟨receipt, inList, isOwn, Or.inl (isHead ofTarget).2⟩⟩
  · intro members contains receipt receiptMem
    rcases mem_episodeReceipts.mp receiptMem with ⟨inList, isOwn⟩
    exact contains.own receipt inList isOwn
  · intro members contains sha headMem
    rcases mem_episodeHeads.mp headMem with ⟨isHead, origin⟩
    have found : headOf (.string sha) = some sha := by
      rcases Option.isSome_iff_exists.mp isHead with ⟨other, found⟩
      rcases headOf_eq_some.mp found with ⟨same, -⟩
      rw [found, JsValue.string.inj same]
    rcases origin with ofReview | ⟨receipt, receiptMem, isOwn, ofTarget | ofResult⟩
    · exact Or.inl (ofReview ▸ found)
    · exact Or.inr (Or.inl ⟨receipt, receiptMem, isOwn, Or.inl (ofTarget ▸ found)⟩)
    · exact Or.inr (Or.inl ⟨receipt, receiptMem, isOwn, Or.inr (ofResult ▸ found)⟩)

theorem loopEnds_reviewedLineage (isEpisode : review.episode = some episode) :
    LoopEnds (otherReceipts review episode receipts) (episodeReceipts review episode receipts)
      (episodeHeads review episode receipts) (reviewedLineage review receipts) := by
  rw [reviewedLineage_eq isEpisode]
  apply loopEnds_growLineage covers_episode.areHeads
  omega

theorem reviewedLineage_isLeast (isEpisode : review.episode = some episode) :
    IsLeast {members | ContainsLineage review episode receipts members}
      {receipt | receipt ∈ reviewedLineage review receipts} :=
  (loopEnds_reviewedLineage isEpisode).isLeast covers_episode

theorem ContainsLineage.congr {others : List Receipt} {members : Set Receipt}
    (same : ∀ receipt, receipt ∈ receipts ↔ receipt ∈ others) :
    ContainsLineage review episode receipts members ↔
      ContainsLineage review episode others members := by
  have reached : reachedHeads review episode receipts members =
      reachedHeads review episode others members := by
    simp only [reachedHeads, same]
  refine ⟨?_, ?_⟩
  · rintro ⟨own, written⟩
    refine ⟨fun receipt receiptMem => own receipt ((same receipt).mpr receiptMem), ?_⟩
    rw [← reached]
    exact fun receipt receiptMem => written receipt ((same receipt).mpr receiptMem)
  · rintro ⟨own, written⟩
    refine ⟨fun receipt receiptMem => own receipt ((same receipt).mp receiptMem), ?_⟩
    rw [reached]
    exact fun receipt receiptMem => written receipt ((same receipt).mp receiptMem)

theorem mem_reviewedLineage_congr {others : List Receipt}
    (same : ∀ receipt, receipt ∈ receipts ↔ receipt ∈ others) (receipt : Receipt) :
    receipt ∈ reviewedLineage review receipts ↔ receipt ∈ reviewedLineage review others := by
  cases isEpisode : review.episode with
  | none =>
      have pool : ∀ list, reviewedLineage review list = lineagePool review list := by
        intro list
        simp only [reviewedLineage, isEpisode, lineagePool]
      simp only [pool, mem_lineagePool, same]
  | some episode =>
      have least : IsLeast {members | ContainsLineage review episode receipts members}
          {receipt | receipt ∈ reviewedLineage review receipts} :=
        reviewedLineage_isLeast isEpisode
      simp only [ContainsLineage.congr same] at least
      exact Set.ext_iff.mp (least.unique (reviewedLineage_isLeast isEpisode)) receipt

theorem mem_provenanceEntries_congr {left right : List Receipt}
    (same : ∀ receipt, receipt ∈ left ↔ receipt ∈ right) (entry : ProvenanceEntry) :
    entry ∈ provenanceEntries left ↔ entry ∈ provenanceEntries right := by
  simp only [mem_provenanceEntries, same]

theorem eq_nil_congr {Item : Type} {left right : List Item}
    (same : ∀ item, item ∈ left ↔ item ∈ right) : left = [] ↔ right = [] := by
  simp only [List.eq_nil_iff_forall_not_mem, same]

theorem reviewVerdictProvenanceValid_congr {others : List Receipt}
    (same : ∀ receipt, receipt ∈ receipts ↔ receipt ∈ others) :
    reviewVerdictProvenanceValid review receipts = reviewVerdictProvenanceValid review others := by
  have supplied := @mem_reviewedLineage_congr review _ _ same
  have entries := mem_provenanceEntries_congr supplied
  have authors : ∀ actor, actor ∈ authorSet (provenanceEntries (reviewedLineage review receipts)) ↔
      actor ∈ authorSet (provenanceEntries (reviewedLineage review others)) := by
    intro actor
    simp only [mem_authorSet, entries]
  have anyEntry : ∀ test : ProvenanceEntry → Bool,
      (provenanceEntries (reviewedLineage review receipts)).any test =
        (provenanceEntries (reviewedLineage review others)).any test := by
    intro test
    rw [Bool.eq_iff_iff]
    simp only [List.any_eq_true, entries]
  simp only [reviewVerdictProvenanceValid, ne_eq, eq_nil_congr supplied, eq_nil_congr entries,
    authors, anyEntry]

end Reviews

theorem reviewedLineage_least (review : Receipt) (receipts : List Receipt) :
    (∀ episode, review.episode = some episode →
      LoopEnds (otherReceipts review episode receipts) (episodeReceipts review episode receipts)
        (episodeHeads review episode receipts) (reviewedLineage review receipts) ∧
      IsLeast {members | ContainsLineage review episode receipts members}
        {receipt | receipt ∈ reviewedLineage review receipts}) ∧
    ∀ others, (∀ receipt, receipt ∈ receipts ↔ receipt ∈ others) →
      reviewVerdictProvenanceValid review receipts = reviewVerdictProvenanceValid review others :=
  ⟨fun _ isEpisode => ⟨loopEnds_reviewedLineage isEpisode, reviewedLineage_isLeast isEpisode⟩,
    fun _ same => reviewVerdictProvenanceValid_congr same⟩

/-- A receipt of a build lane with the heads it started from and produced. -/
def buildReceipt (episode : Option JsString) (target : UInt16) (result : Option UInt16) : Receipt :=
  let sha (unit : UInt16) : JsValue := .string (List.replicate 40 unit)
  { receiptVersion := some (.string (js "1.0.0")), issueId := none, attemptId := none
    authorizationRef := none, stage := none
    requestedWorker := some (.string (js "codex-builder"))
    workerIdentity := some (.string (js "builder")), repo := none, branch := none
    targetSha := some (sha target), externalRunId := none, adapterStatus := none
    timestamps := none, evidenceLinks := none, lastActivity := none, notes := none
    episodeId := episode.map .string, resultSha := result.map sha }

/-- A review of the second episode, whose build started from what the first one produced. -/
def secondReview : Receipt :=
  { buildReceipt (some (js "second")) 50 none with
    requestedWorker := some (.string (js "claude-verifier"))
    workerIdentity := some (.string (js "verifier")) }

def firstBuild : Receipt := buildReceipt (some (js "first")) 48 (some 49)

theorem reviewedLineage_least_chain :
    IsLeast {members | ContainsLineage secondReview (js "second")
        [firstBuild, buildReceipt (some (js "second")) 49 (some 50)] members}
      {receipt | receipt ∈ reviewedLineage secondReview
        [firstBuild, buildReceipt (some (js "second")) 49 (some 50)]} ∧
    firstBuild ∈ reviewedLineage secondReview
      [firstBuild, buildReceipt (some (js "second")) 49 (some 50)] := by
  have least := ((reviewedLineage_least secondReview
    [firstBuild, buildReceipt (some (js "second")) 49 (some 50)]).1 (js "second") (by decide)).2
  refine ⟨least, least.1.written firstBuild List.mem_cons_self (by decide) ?_ ?_⟩
  · exact ⟨.build, by decide, by decide⟩
  · refine ⟨List.replicate 40 49, ?_, by decide⟩
    refine Or.inr (Or.inl ⟨_, List.mem_cons_of_mem _ List.mem_cons_self, ⟨by decide, rfl⟩, ?_⟩)
    exact Or.inl (by decide)

end StudentHub.Coordinator
