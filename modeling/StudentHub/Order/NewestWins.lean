import Mathlib.Data.List.Induction
import Mathlib.Data.List.Pairwise

/-!
# The newest record of a kind

Records of several kinds are taken oldest first. A record that agrees with what is held of its kind
takes its place, and one that does not is kept aside. What is held at the end is, of each kind, the
newest of the records that agree with the oldest one; kept aside are those that disagree with it.
-/

namespace NewestWins

universe u

variable {Record : Type u}

/-- Which records are of one kind, which agree, and which is older than another. -/
structure Relations (Record : Type u) where
  same : Record → Record → Bool
  agrees : Record → Record → Bool
  before : Record → Record → Bool

/-- Kinds and agreement are symmetric and transitive; a record need not agree with itself. -/
structure Relations.Lawful (relations : Relations Record) : Prop where
  same_symm : ∀ {left right}, relations.same left right = true → relations.same right left = true
  same_trans : ∀ {first second third}, relations.same first second = true →
    relations.same second third = true → relations.same first third = true
  agrees_symm : ∀ {left right}, relations.agrees left right = true →
    relations.agrees right left = true
  agrees_trans : ∀ {first second third}, relations.agrees first second = true →
    relations.agrees second third = true → relations.agrees first third = true
  before_asymm : ∀ {left right}, relations.before left right = true →
    relations.before right left = false

/-- What is held of each kind, in the order of the kinds, and what is kept aside. -/
structure Holding (Record : Type u) where
  held : List Record
  aside : List Record

namespace Relations

variable (relations : Relations Record)

def take (holding : Holding Record) (record : Record) : Holding Record :=
  match holding.held.find? fun prior => relations.same prior record with
  | none => { holding with held := holding.held ++ [record] }
  | some prior =>
      if relations.agrees prior record then
        { holding with held := holding.held.map fun kept =>
            if relations.same kept record then record else kept }
      else
        { holding with aside := holding.aside ++ [record] }

/-- No record of its kind is older. -/
def isOldest (records : List Record) (record : Record) : Bool :=
  records.all fun other => !(relations.same other record && relations.before other record)

def newest (records : List Record) (first : Record) : Record :=
  (records.filter fun record => relations.same first record && relations.before first record &&
    relations.agrees first record).getLast?.getD first

def disputes (records : List Record) (record : Record) : Bool :=
  records.any fun first => relations.isOldest records first && relations.same first record &&
    relations.before first record && !relations.agrees first record

def settled (records : List Record) : Holding Record where
  held := (records.filter (relations.isOldest records)).map (relations.newest records)
  aside := records.filter (relations.disputes records)

variable {relations} {records : List Record} {record first : Record}

theorem isOldest_iff : relations.isOldest records record = true ↔ ∀ other ∈ records,
    relations.same other record = true → relations.before other record = false := by
  simp only [isOldest, List.all_eq_true, Bool.not_eq_true', Bool.and_eq_false_iff]
  refine forall₂_congr fun other _ => ⟨?_, ?_⟩
  · rintro (different | notBefore) same
    · rw [same] at different
      cases different
    · exact notBefore
  · intro notBefore
    cases same : relations.same other record
    · exact .inl rfl
    · exact .inr (notBefore same)

theorem before_or_before {other : Record}
    (ordered : records.Pairwise fun left right => relations.before left right = true)
    (isFirst : first ∈ records) (isOther : other ∈ records) (different : first ≠ other) :
    relations.before first other = true ∨ relations.before other first = true := by
  have symmetric : Std.Symm fun left right => relations.before left right = true ∨
      relations.before right left = true := ⟨fun _ _ => Or.symm⟩
  have either : records.Pairwise fun left right => relations.before left right = true ∨
      relations.before right left = true := ordered.imp Or.inl
  exact either.forall isFirst isOther different

theorem newest_eq_or : relations.newest records first = first ∨
    relations.newest records first ∈ records ∧
      relations.same first (relations.newest records first) = true ∧
      relations.agrees first (relations.newest records first) = true := by
  rw [newest]
  cases last : (records.filter fun record => relations.same first record &&
      relations.before first record && relations.agrees first record).getLast? with
  | none => exact .inl rfl
  | some found =>
      right
      have isMember := List.mem_of_getLast? last
      simp only [List.mem_filter, Bool.and_eq_true] at isMember
      exact ⟨isMember.1, isMember.2.1.1, isMember.2.2⟩

section Step

variable (lawful : relations.Lawful)
include lawful

theorem before_self : relations.before record record = false := by
  by_contra isBefore
  rw [Bool.not_eq_false] at isBefore
  have notBefore := lawful.before_asymm isBefore
  rw [isBefore] at notBefore
  cases notBefore

theorem same_newest : relations.same (relations.newest records first) record =
    relations.same first record := by
  rcases @newest_eq_or _ relations records first with same | ⟨-, same, -⟩
  · rw [same]
  · rw [Bool.eq_iff_iff]
    exact ⟨lawful.same_trans same, lawful.same_trans (lawful.same_symm same)⟩

/-- A record agrees with the newest of those that agree with the first when it agrees with the
first. -/
theorem agrees_newest : relations.agrees (relations.newest records first) record =
    relations.agrees first record := by
  rcases @newest_eq_or _ relations records first with same | ⟨-, -, agrees⟩
  · rw [same]
  · rw [Bool.eq_iff_iff]
    exact ⟨lawful.agrees_trans agrees, lawful.agrees_trans (lawful.agrees_symm agrees)⟩

variable (last : ∀ other ∈ records, relations.before other record = true)
include last

theorem isOldest_concat {other : Record} (isRecord : other ∈ records) :
    relations.isOldest (records ++ [record]) other = relations.isOldest records other := by
  have notBefore := lawful.before_asymm (last other isRecord)
  simp [isOldest, notBefore]

theorem isOldest_concat_self : relations.isOldest (records ++ [record]) record = true ↔
    ∀ other ∈ records, relations.same other record = false := by
  rw [isOldest_iff]
  refine ⟨fun oldest other isRecord => ?_, fun alone other isRecord same => ?_⟩
  · by_contra same
    rw [Bool.not_eq_false] at same
    have notBefore := oldest other (List.mem_append_left _ isRecord) same
    rw [last other isRecord] at notBefore
    cases notBefore
  · rcases List.mem_append.mp isRecord with before | isLast
    · rw [alone other before] at same
      cases same
    · rw [List.mem_singleton.mp isLast]
      exact before_self lawful

omit lawful in
theorem newest_concat (isRecord : first ∈ records) : relations.newest (records ++ [record]) first =
    if relations.same first record && relations.agrees first record then record
    else relations.newest records first := by
  rw [newest, List.filter_append, newest]
  cases same : relations.same first record <;> cases agrees : relations.agrees first record <;>
    simp [same, agrees, last first isRecord]

theorem newest_concat_self : relations.newest (records ++ [record]) record = record := by
  have none : (records ++ [record]).filter (fun other => relations.same record other &&
      relations.before record other && relations.agrees record other) = [] := by
    rw [List.filter_eq_nil_iff]
    intro other isRecord
    have notBefore : relations.before record other = false := by
      rcases List.mem_append.mp isRecord with before | isLast
      · exact lawful.before_asymm (last other before)
      · rw [List.mem_singleton.mp isLast]
        exact before_self lawful
    simp [notBefore]
  rw [newest, none]
  rfl

theorem disputes_concat {other : Record} (isRecord : other ∈ records) :
    relations.disputes (records ++ [record]) other = relations.disputes records other := by
  have notBefore := lawful.before_asymm (last other isRecord)
  rw [Bool.eq_iff_iff]
  simp only [disputes, List.any_append, List.any_eq_true, Bool.or_eq_true, Bool.and_eq_true,
    List.mem_singleton]
  refine ⟨?_, ?_⟩
  · rintro (⟨first, isFirst, ⟨oldest, same⟩, disagrees⟩ | ⟨first, rfl, ⟨-, isBefore⟩, -⟩)
    · rw [isOldest_concat lawful last isFirst] at oldest
      exact ⟨first, isFirst, ⟨oldest, same⟩, disagrees⟩
    · rw [notBefore] at isBefore
      cases isBefore
  · rintro ⟨first, isFirst, ⟨oldest, same⟩, disagrees⟩
    rw [← isOldest_concat lawful last isFirst] at oldest
    exact .inl ⟨first, isFirst, ⟨oldest, same⟩, disagrees⟩

theorem disputes_concat_self : relations.disputes (records ++ [record]) record = true ↔
    ∃ first ∈ records, relations.isOldest records first = true ∧
      relations.same first record = true ∧ relations.agrees first record = false := by
  simp only [disputes, List.any_append, List.any_eq_true, Bool.or_eq_true, Bool.and_eq_true,
    List.mem_singleton, Bool.not_eq_true']
  refine ⟨?_, ?_⟩
  · rintro (⟨first, isFirst, ⟨⟨oldest, same⟩, -⟩, disagrees⟩ | ⟨first, rfl, ⟨-, isBefore⟩, -⟩)
    · rw [isOldest_concat lawful last isFirst] at oldest
      exact ⟨first, isFirst, oldest, same, disagrees⟩
    · rw [before_self lawful] at isBefore
      cases isBefore
  · rintro ⟨first, isFirst, oldest, same, disagrees⟩
    rw [← isOldest_concat lawful last isFirst] at oldest
    exact .inl ⟨first, isFirst, ⟨⟨oldest, same⟩, last first isFirst⟩, disagrees⟩

omit last

variable (ordered : records.Pairwise fun left right => relations.before left right = true)
include ordered

theorem exists_isOldest {other : Record} (isRecord : other ∈ records)
    (same : relations.same other record = true) : ∃ first ∈ records,
      relations.isOldest records first = true ∧ relations.same first record = true := by
  have found : (records.find? fun other => relations.same other record).isSome = true :=
    List.find?_isSome.mpr ⟨other, isRecord, same⟩
  rcases Option.isSome_iff_exists.mp found with ⟨first, isFirst⟩
  rcases List.find?_eq_some_iff_append.mp isFirst with ⟨sameFirst, front, back, rfl, others⟩
  refine ⟨first, by simp, isOldest_iff.mpr ?_, sameFirst⟩
  intro earlier isEarlier sameEarlier
  rw [List.pairwise_append, List.pairwise_cons] at ordered
  rcases List.mem_append.mp isEarlier with inFront | inBack
  · have different := others earlier inFront
    rw [lawful.same_trans sameEarlier sameFirst] at different
    cases different
  · rcases List.mem_cons.mp inBack with rfl | later
    · exact before_self lawful
    · exact lawful.before_asymm (ordered.2.1.1 earlier later)

theorem eq_of_isOldest {other : Record} (isFirst : first ∈ records) (isOther : other ∈ records)
    (oldest : relations.isOldest records first = true)
    (oldestOther : relations.isOldest records other = true)
    (same : relations.same first record = true) (sameOther : relations.same other record = true) :
    first = other := by
  have sameKind := lawful.same_trans same (lawful.same_symm sameOther)
  have notBefore := isOldest_iff.mp oldestOther first isFirst sameKind
  have notAfter := isOldest_iff.mp oldest other isOther (lawful.same_symm sameKind)
  by_contra different
  have apart := before_or_before ordered isFirst isOther different
  rw [notBefore, notAfter] at apart
  simp at apart

include last

theorem take_settled : relations.take (relations.settled records) record =
    relations.settled (records ++ [record]) := by
  have oldestFilter : records.filter (relations.isOldest (records ++ [record])) =
      records.filter (relations.isOldest records) :=
    List.filter_congr fun other isRecord => isOldest_concat lawful last isRecord
  have disputesFilter : records.filter (relations.disputes (records ++ [record])) =
      records.filter (relations.disputes records) :=
    List.filter_congr fun other isRecord => disputes_concat lawful last isRecord
  have lookup : (relations.settled records).held.find? (fun prior => relations.same prior record) =
      ((records.filter (relations.isOldest records)).find? fun first =>
        relations.same first record).map (relations.newest records) := by
    rw [settled, List.find?_map]
    congr 2
    funext first
    exact same_newest lawful
  have after : relations.settled (records ++ [record]) =
      ⟨(records.filter (relations.isOldest records)).map (relations.newest (records ++ [record])) ++
          ([record].filter (relations.isOldest (records ++ [record]))).map
            (relations.newest (records ++ [record])),
        records.filter (relations.disputes records) ++
          [record].filter (relations.disputes (records ++ [record]))⟩ := by
    simp only [settled, List.filter_append, List.map_append, oldestFilter, disputesFilter]
  rw [take, lookup, after]
  cases found : (records.filter (relations.isOldest records)).find? fun first =>
      relations.same first record with
  | none =>
      -- The record is the first of its kind.
      have alone : ∀ other ∈ records, relations.same other record = false := by
        intro other isRecord
        by_contra same
        rw [Bool.not_eq_false] at same
        rcases exists_isOldest lawful ordered isRecord same with ⟨first, isFirst, oldest, sameFirst⟩
        exact List.find?_eq_none.mp found first (List.mem_filter.mpr ⟨isFirst, oldest⟩) sameFirst
      have isOldest := (isOldest_concat_self lawful last).mpr alone
      have undisputed : relations.disputes (records ++ [record]) record = false := by
        by_contra disputed
        rw [Bool.not_eq_false] at disputed
        rcases (disputes_concat_self lawful last).mp disputed with ⟨first, isFirst, -, same, -⟩
        rw [alone first isFirst] at same
        cases same
      have unchanged : (records.filter (relations.isOldest records)).map
          (relations.newest (records ++ [record])) =
            (records.filter (relations.isOldest records)).map (relations.newest records) := by
        apply List.map_congr_left
        intro first isFirst
        have isRecord := (List.mem_filter.mp isFirst).1
        simp [newest_concat last isRecord, alone first isRecord]
      simp [isOldest, undisputed, unchanged, newest_concat_self lawful last, settled]
  | some first =>
      have isFirst := List.mem_filter.mp (List.mem_of_find?_eq_some found)
      have sameFirst := List.find?_some found
      have only : ∀ other ∈ records, relations.isOldest records other = true →
          relations.same other record = true → other = first := fun other isOther oldest same =>
        eq_of_isOldest lawful ordered isOther isFirst.1 oldest isFirst.2 same sameFirst
      have notOldest : relations.isOldest (records ++ [record]) record = false := by
        by_contra isOldest
        rw [Bool.not_eq_false, isOldest_concat_self lawful last] at isOldest
        rw [isOldest first isFirst.1] at sameFirst
        cases sameFirst
      have disputed : relations.disputes (records ++ [record]) record =
          !relations.agrees first record := by
        rw [Bool.eq_iff_iff, disputes_concat_self lawful last, Bool.not_eq_true']
        refine ⟨?_, fun disagrees => ⟨first, isFirst.1, isFirst.2, sameFirst, disagrees⟩⟩
        rintro ⟨other, isOther, oldest, same, disagrees⟩
        rwa [only other isOther oldest same] at disagrees
      simp only [Option.map_some, agrees_newest lawful]
      cases agrees : relations.agrees first record with
      | true =>
          have replaced : (relations.settled records).held.map (fun kept =>
              if relations.same kept record then record else kept) =
                (records.filter (relations.isOldest records)).map
                  (relations.newest (records ++ [record])) := by
            rw [settled, List.map_map]
            apply List.map_congr_left
            intro other isOther
            have isRecord := List.mem_filter.mp isOther
            rw [Function.comp_apply, same_newest lawful, newest_concat last isRecord.1]
            cases same : relations.same other record with
            | false => simp
            | true => simp [only other isRecord.1 isRecord.2 same, agrees]
          simp only [if_true, replaced]
          simp [notOldest, disputed, agrees, settled]
      | false =>
          have unchanged : (records.filter (relations.isOldest records)).map
              (relations.newest (records ++ [record])) =
                (records.filter (relations.isOldest records)).map (relations.newest records) := by
            apply List.map_congr_left
            intro other isOther
            have isRecord := List.mem_filter.mp isOther
            rw [newest_concat last isRecord.1, if_neg]
            intro both
            rw [Bool.and_eq_true] at both
            rw [only other isRecord.1 isRecord.2 both.1, agrees] at both
            cases both.2
          simp [notOldest, disputed, agrees, unchanged, settled]

end Step

section Kinds

variable {ofKind : Record → Bool} (lawful : relations.Lawful)
  (ordered : records.Pairwise fun left right => relations.before left right = true)
  (isKind : ∀ {left right}, ofKind left = true →
    (ofKind right = true ↔ relations.same left right = true))
include lawful ordered isKind

theorem countP_held_le : (relations.settled records).held.countP ofKind ≤ 1 := by
  have held : ofKind ∘ relations.newest records = ofKind := by
    funext first
    rcases @newest_eq_or _ relations records first with same | ⟨-, same, -⟩
    · rw [Function.comp_apply, same]
    · rw [Function.comp_apply, Bool.eq_iff_iff]
      refine ⟨fun ofNewest => ?_, fun ofFirst => (isKind ofFirst).mpr same⟩
      exact (isKind ofNewest).mpr (lawful.same_symm same)
  have oldest : ∀ record ∈ (records.filter (relations.isOldest records)).filter ofKind,
      record ∈ records ∧ relations.isOldest records record = true ∧ ofKind record = true := by
    intro record isMember
    simp only [List.mem_filter] at isMember
    exact ⟨isMember.1.1, isMember.1.2, isMember.2⟩
  have apart := (ordered.filter (relations.isOldest records)).filter ofKind
  rw [settled, List.countP_map, held, List.countP_eq_length_filter]
  match given : (records.filter (relations.isOldest records)).filter ofKind with
  | [] => exact Nat.zero_le _
  | [_] => exact Nat.le_refl 1
  | first :: second :: rest =>
      rw [given] at oldest apart
      have isFirst := oldest first List.mem_cons_self
      have isSecond := oldest second (List.mem_cons_of_mem _ List.mem_cons_self)
      have same := (isKind isFirst.2.2).mp isSecond.2.2
      have isBefore := (List.pairwise_cons.mp apart).1 second List.mem_cons_self
      rw [isOldest_iff.mp isSecond.2.1 first isFirst.1 same] at isBefore
      cases isBefore

theorem one_lt_countP_iff :
    1 < ((relations.settled records).held ++ (relations.settled records).aside).countP ofKind ↔
      ∃ left ∈ records, ∃ right ∈ records, ofKind left = true ∧ ofKind right = true ∧
        relations.before left right = true ∧ relations.agrees left right = false := by
  have atMost := @countP_held_le _ relations records ofKind lawful ordered isKind
  rw [List.countP_append]
  refine ⟨fun two => ?_, ?_⟩
  · have inAside : 0 < (relations.settled records).aside.countP ofKind := by omega
    rcases List.countP_pos_iff.mp inAside with ⟨record, isAside, isOfKind⟩
    rw [settled, List.mem_filter, disputes, List.any_eq_true] at isAside
    simp only [Bool.and_eq_true, Bool.not_eq_true'] at isAside
    rcases isAside with ⟨isRecord, first, isFirst, ⟨⟨-, same⟩, isBefore⟩, disagrees⟩
    exact ⟨first, isFirst, record, isRecord, (isKind isOfKind).mpr (lawful.same_symm same), isOfKind,
      isBefore, disagrees⟩
  · rintro ⟨left, isLeft, right, isRight, leftKind, rightKind, isBefore, disagree⟩
    have sameKind := (isKind leftKind).mp rightKind
    rcases exists_isOldest lawful ordered isLeft sameKind with ⟨first, isFirst, oldest, sameRight⟩
    have sameLeft := lawful.same_trans sameRight (lawful.same_symm sameKind)
    have firstKind := (isKind rightKind).mpr (lawful.same_symm sameRight)
    have later : ∀ other ∈ records, other ≠ first → relations.same first other = true →
        relations.before first other = true := by
      intro other isOther different same
      rcases before_or_before ordered isFirst isOther (Ne.symm different) with isLater | isEarlier
      · exact isLater
      · rw [isOldest_iff.mp oldest other isOther (lawful.same_symm same)] at isEarlier
        cases isEarlier
    have aside : ∀ other ∈ records, ofKind other = true → relations.same first other = true →
        relations.before first other = true → relations.agrees first other = false →
          0 < (relations.settled records).aside.countP ofKind := by
      intro other isOther otherKind same isLater disagrees
      refine List.countP_pos_iff.mpr ⟨other, List.mem_filter.mpr ⟨isOther, ?_⟩, otherKind⟩
      exact List.any_eq_true.mpr ⟨first, isFirst, by simp [oldest, same, isLater, disagrees]⟩
    have isHeld : 0 < (relations.settled records).held.countP ofKind := by
      refine List.countP_pos_iff.mpr ⟨relations.newest records first, ?_, ?_⟩
      · exact List.mem_map_of_mem (List.mem_filter.mpr ⟨isFirst, oldest⟩)
      · rcases @newest_eq_or _ relations records first with same | ⟨-, same, -⟩
        · rwa [same]
        · exact (isKind firstKind).mpr same
    have rightLater : relations.before first right = true := by
      apply later right isRight _ sameRight
      rintro rfl
      rw [isOldest_iff.mp oldest left isLeft sameKind] at isBefore
      cases isBefore
    have disputed : 0 < (relations.settled records).aside.countP ofKind := by
      cases agreesRight : relations.agrees first right with
      | false => exact aside right isRight rightKind sameRight rightLater agreesRight
      | true =>
          -- The left record is then not the first one, and disagrees with it.
          have different : left ≠ first := by
            rintro rfl
            rw [agreesRight] at disagree
            cases disagree
          have disagreesLeft : relations.agrees first left = false := by
            by_contra agreesLeft
            rw [Bool.not_eq_false] at agreesLeft
            rw [lawful.agrees_trans (lawful.agrees_symm agreesLeft) agreesRight] at disagree
            cases disagree
          exact aside left isLeft leftKind sameLeft (later left isLeft different sameLeft) disagreesLeft
    omega

end Kinds

end Relations

end NewestWins
