import StudentHub.CardInstall.Loaded

/-!
# The lanes of an admitted install

Every plan of a run looks a lane up, and the lookup throws if any lane of the configuration
is without a contract or has an id that is not its own. The gate checks the lanes that main
appends only as far as a new queue names them, so what it leaves unchecked decides whether
an admitted install can still plan.
-/

namespace StudentHub.CardInstall

open Ecma JsString Coordinator

inductive LaneError
  | fixtureLanesNotArray
  | cardLanesNotArray
  | notReviewedContract
  | reviewLanesNotArray
  | notUnique

def arrayOr (value : JsValue) (error : LaneError) : Except LaneError (List JsValue) :=
  match value.orElse (.array []) with
  | .array items => .ok items
  | _ => .error error

def laneId (lane : JsValue) : JsValue := lane.get (js "id")

def checkLanes (seen : List JsString) : List JsValue → Option LaneError
  | [] => none
  | lane :: rest =>
      match laneId lane with
      | .string (unit :: units) =>
          if (unit :: units) ∈ seen then some .notUnique else checkLanes ((unit :: units) :: seen) rest
      | _ => some .notUnique

def idTexts (lanes : List JsValue) : List JsString :=
  lanes.filterMap fun lane =>
    match laneId lane with
    | .string text => some text
    | _ => none

def lanesAt (config : JsValue) (name : JsString) : List JsValue :=
  ((config.get name).items?).getD []

def cardLanes (config : JsValue) : List JsValue := lanesAt config (js "card_lanes")

def reviewLanes (config : JsValue) : List JsValue := lanesAt config (js "review_lanes")

def fixtureLanes (config : JsValue) : List JsValue :=
  let fixture := config.get (js "fixture_lane")
  (if fixture.truthy then [fixture] else []) ++ lanesAt config (js "fixture_lanes")

def resolveFixtureLane (contracts : ContractData) (config issueId : JsValue) :
    Except LaneError JsValue := do
  let extra ← arrayOr (config.get (js "fixture_lanes")) .fixtureLanesNotArray
  let cards ← arrayOr (config.get (js "card_lanes")) .cardLanesNotArray
  if cards.any fun card => !(cardContract contracts (laneId card)).truthy then
    throw .notReviewedContract
  let fixture := config.get (js "fixture_lane")
  let lanes := (if fixture.truthy then [fixture] else []) ++ extra ++ cards
  let review ← arrayOr (config.get (js "review_lanes")) .reviewLanesNotArray
  match checkLanes (idTexts review) lanes with
  | some error => throw error
  | none => return (lanes.find? fun lane => (laneId lane).strictEq issueId).getD .null

def HasId (lane : JsValue) : Prop := ∃ unit rest, laneId lane = .string (unit :: rest)

theorem mem_idTexts {lanes : List JsValue} {text : JsString} :
    text ∈ idTexts lanes ↔ .string text ∈ lanes.map laneId := by
  simp only [idTexts, List.mem_filterMap, List.mem_map]
  refine exists_congr fun lane => and_congr_right fun _ => ?_
  cases laneId lane with
  | string found => simp
  | _ => simp

theorem checkLanes_eq_none {seen : List JsString} {lanes : List JsValue} :
    checkLanes seen lanes = none ↔ (∀ lane ∈ lanes, HasId lane) ∧
      (∀ text ∈ seen, .string text ∉ lanes.map laneId) ∧ (lanes.map laneId).Nodup := by
  induction lanes generalizing seen with
  | nil => simp [checkLanes]
  | cons lane rest ih =>
    simp only [checkLanes]
    split
    case h_2 notText =>
      refine ⟨(by intro refused; cases refused), ?_⟩
      rintro ⟨named, -⟩
      rcases named lane List.mem_cons_self with ⟨unit, units, isId⟩
      exact absurd isId (notText unit units)
    case h_1 unit units isId =>
      have hasId : HasId lane := ⟨unit, units, isId⟩
      split
      case isTrue isSeen =>
        refine ⟨(by intro refused; cases refused), ?_⟩
        rintro ⟨-, unseen, -⟩
        exact absurd (by rw [List.map_cons, isId]; exact List.mem_cons_self) (unseen _ isSeen)
      case isFalse fresh =>
        rw [ih]
        simp only [List.forall_mem_cons, List.map_cons, isId, List.nodup_cons]
        simp only [List.mem_cons, JsValue.string.injEq, not_or]
        refine ⟨?_, ?_⟩
        · rintro ⟨named, ⟨notLater, unseen⟩, nodup⟩
          refine ⟨⟨hasId, named⟩, ?_, notLater, nodup⟩
          intro text textSeen
          refine ⟨?_, unseen text textSeen⟩
          rintro rfl
          exact fresh textSeen
        · rintro ⟨⟨-, named⟩, unseen, notLater, nodup⟩
          exact ⟨named, ⟨notLater, fun text textSeen => (unseen text textSeen).2⟩, nodup⟩

def ReadsArray (value : JsValue) : Prop := ∃ items, value.orElse (.array []) = .array items

structure Resolves (contracts : ContractData) (config : JsValue) : Prop where
  fixtureArray : ReadsArray (config.get (js "fixture_lanes"))
  cardArray : ReadsArray (config.get (js "card_lanes"))
  reviewArray : ReadsArray (config.get (js "review_lanes"))
  contract : ∀ lane ∈ cardLanes config, (cardContract contracts (laneId lane)).truthy = true
  named : ∀ lane ∈ fixtureLanes config ++ cardLanes config, HasId lane
  notReview : ∀ lane ∈ fixtureLanes config ++ cardLanes config,
    laneId lane ∉ (reviewLanes config).map laneId
  distinct : ((fixtureLanes config ++ cardLanes config).map laneId).Nodup

theorem arrayOr_eq_ok {config : JsValue} {name : JsString} {error : LaneError}
    {items : List JsValue} : arrayOr (config.get name) error = .ok items ↔
      ReadsArray (config.get name) ∧ items = lanesAt config name := by
  simp only [arrayOr, ReadsArray, lanesAt]
  cases config.get name with
  | array found => simp [JsValue.orElse, JsValue.items?, eq_comm]
  | undefined => simp [JsValue.orElse, JsValue.items?, eq_comm]
  | null => simp [JsValue.orElse, JsValue.items?, eq_comm]
  | _ => simp [JsValue.orElse]

theorem notReview_iff {config : JsValue} {lanes : List JsValue} (named : ∀ lane ∈ lanes, HasId lane) :
    (∀ text ∈ idTexts (reviewLanes config), .string text ∉ lanes.map laneId) ↔
      ∀ lane ∈ lanes, laneId lane ∉ (reviewLanes config).map laneId := by
  refine ⟨?_, ?_⟩
  · intro apart lane laneMem isReview
    rcases named lane laneMem with ⟨unit, rest, isId⟩
    rw [isId] at isReview
    apply apart _ (mem_idTexts.mpr isReview)
    rw [← isId]
    exact List.mem_map_of_mem laneMem
  · intro apart text isReview isLane
    rcases List.mem_map.mp isLane with ⟨lane, laneMem, isId⟩
    rw [mem_idTexts, ← isId] at isReview
    exact apart lane laneMem isReview

theorem resolves_iff_lookup {contracts : ContractData} {config issueId : JsValue} :
    (∃ lane, resolveFixtureLane contracts config issueId = .ok lane) ↔
      Resolves contracts config := by
  simp only [resolveFixtureLane, bind_eq_ok, arrayOr_eq_ok]
  refine ⟨?_, ?_⟩
  · rintro ⟨found, extra, ⟨fixtureArray, rfl⟩, cards, ⟨cardArray, rfl⟩, looked⟩
    split at looked
    case isTrue => simp [throw, throwThe, MonadExceptOf.throw, bind_eq_ok] at looked
    case isFalse contract =>
      simp only [bind_eq_ok, arrayOr_eq_ok] at looked
      rcases looked with ⟨review, ⟨reviewArray, rfl⟩, looked⟩
      split at looked
      case h_1 => cases looked
      case h_2 unique =>
        have checked := checkLanes_eq_none.mp unique
        refine ⟨fixtureArray, cardArray, reviewArray, ?_, checked.1, ?_, checked.2.2⟩
        · simpa [cardLanes] using contract
        · exact (notReview_iff checked.1).mp checked.2.1
  · intro resolves
    have unique : checkLanes (idTexts (reviewLanes config))
        (fixtureLanes config ++ cardLanes config) = none :=
      checkLanes_eq_none.mpr ⟨resolves.named, (notReview_iff resolves.named).mpr resolves.notReview,
        resolves.distinct⟩
    have contract : ((lanesAt config (js "card_lanes")).any fun card =>
        !(cardContract contracts (laneId card)).truthy) = false := by
      simpa [cardLanes] using resolves.contract
    simp only [reviewLanes, fixtureLanes, cardLanes] at unique
    let lanes := fixtureLanes config ++ cardLanes config
    refine ⟨(lanes.find? fun lane => (laneId lane).strictEq issueId).getD .null, _,
      ⟨resolves.fixtureArray, rfl⟩, _, ⟨resolves.cardArray, rfl⟩, ?_⟩
    simp only [contract, Bool.false_eq_true, if_false, bind_eq_ok, arrayOr_eq_ok]
    refine ⟨_, ⟨resolves.reviewArray, rfl⟩, ?_⟩
    rw [unique]
    rfl

theorem resolves_iff {contracts : ContractData} {config : JsValue} :
    (∀ issueId, ∃ lane, resolveFixtureLane contracts config issueId = .ok lane) ↔
      Resolves contracts config := by
  simp only [resolves_iff_lookup]
  exact ⟨fun all => all .undefined, fun resolves _ => resolves⟩

theorem sameItems_forall₂ {lefts rights : List JsValue}
    (same : JsValue.sameItems lefts rights = true) :
    List.Forall₂ (fun left right => left.isDeepStrictEqual right = true) lefts rights := by
  induction lefts generalizing rights with
  | nil =>
      cases rights with
      | nil => exact .nil
      | cons right rest => simp [JsValue.sameItems] at same
  | cons left rest ih =>
      cases rights with
      | nil => simp [JsValue.sameItems] at same
      | cons right rights =>
          simp only [JsValue.sameItems, Bool.and_eq_true] at same
          exact .cons same.1 (ih same.2)

theorem truthy_of_isDeepStrictEqual {left right : JsValue}
    (same : left.isDeepStrictEqual right = true) : left.truthy = right.truthy := by
  cases left with
  | array | object => cases right <;> simp_all [JsValue.isDeepStrictEqual, JsValue.truthy]
  | _ =>
      cases right <;> simp only [JsValue.isDeepStrictEqual, Bool.false_eq_true,
        decide_eq_true_eq] at same
      all_goals first | rfl | rw [same]

theorem map_laneId_of_forall₂ {lefts rights : List JsValue}
    (same : List.Forall₂ (fun left right => left.isDeepStrictEqual right = true) lefts rights)
    (named : ∀ lane ∈ lefts, HasId lane) : rights.map laneId = lefts.map laneId := by
  induction same with
  | nil => rfl
  | cons equal _ ih =>
    rw [List.forall_mem_cons] at named
    rcases named.1 with ⟨unit, rest, isId⟩
    have id := JsValue.get_of_isDeepStrictEqual equal (js "id")
    rw [← laneId, ← laneId, isId] at id
    rw [List.map_cons, List.map_cons, ih named.2, isId,
      JsValue.eq_string_of_isDeepStrictEqual id]

theorem laneId_mem_of_forall₂ {lefts rights : List JsValue} {text : JsString}
    (same : List.Forall₂ (fun left right => left.isDeepStrictEqual right = true) lefts rights)
    (isRight : .string text ∈ rights.map laneId) : .string text ∈ lefts.map laneId := by
  induction same with
  | nil => exact isRight
  | cons equal _ ih =>
    rw [List.map_cons, List.mem_cons] at isRight ⊢
    rcases isRight with here | later
    · left
      have id := JsValue.get_of_isDeepStrictEqual equal (js "id")
      rw [← laneId, ← laneId, ← here] at id
      cases found : laneId _ with
      | string other => simpa [found, JsValue.isDeepStrictEqual, eq_comm] using id
      | _ => simp [found, JsValue.isDeepStrictEqual] at id
    · exact Or.inr (ih later)

structure SharedLanes (installed next : JsValue) : Prop where
  fixtureArray : ReadsArray (installed.get (js "fixture_lanes")) →
    ReadsArray (next.get (js "fixture_lanes"))
  reviewArray : ReadsArray (installed.get (js "review_lanes")) →
    ReadsArray (next.get (js "review_lanes"))
  fixture : List.Forall₂ (fun left right => left.isDeepStrictEqual right = true)
    (fixtureLanes installed) (fixtureLanes next)
  review : List.Forall₂ (fun left right => left.isDeepStrictEqual right = true)
    (reviewLanes installed) (reviewLanes next)

theorem readsArray_of_isDeepStrictEqual {left right : JsValue}
    (same : left.isDeepStrictEqual right = true) (reads : ReadsArray left) : ReadsArray right := by
  rcases reads with ⟨items, isItems⟩
  cases left with
  | undefined | null | array _ =>
      cases right <;> simp [JsValue.isDeepStrictEqual, ReadsArray, JsValue.orElse] at same ⊢
  | _ => simp [JsValue.orElse] at isItems

theorem lanesAt_forall₂ {installed next : JsValue} {name : JsString}
    (same : (installed.get name).isDeepStrictEqual (next.get name) = true) :
    List.Forall₂ (fun left right => left.isDeepStrictEqual right = true)
      (lanesAt installed name) (lanesAt next name) := by
  simp only [lanesAt]
  cases left : installed.get name with
  | array lefts =>
      cases right : next.get name with
      | array rights =>
          rw [left, right, JsValue.isDeepStrictEqual] at same
          exact sameItems_forall₂ same
      | _ => simp [left, right, JsValue.isDeepStrictEqual] at same
  | _ =>
      cases right : next.get name with
      | array rights => simp [left, right, JsValue.isDeepStrictEqual] at same
      | _ => exact .nil

theorem SharedLanes.of_same {installed next : JsValue}
    (same : ∀ name ∈ [js "fixture_lane", js "fixture_lanes", js "review_lanes"],
      (installed.get name).isDeepStrictEqual (next.get name) = true) :
    SharedLanes installed next := by
  have single := same (js "fixture_lane") (by simp)
  have extra := same (js "fixture_lanes") (by simp)
  have review := same (js "review_lanes") (by simp)
  refine ⟨readsArray_of_isDeepStrictEqual extra, readsArray_of_isDeepStrictEqual review, ?_,
    lanesAt_forall₂ review⟩
  simp only [fixtureLanes, ← truthy_of_isDeepStrictEqual single]
  apply List.rel_append _ (lanesAt_forall₂ extra)
  split
  case isTrue => exact .cons single .nil
  case isFalse => exact .nil

theorem same_of_configRefusal {installed next : JsValue} {policy : Option CodeInstallPolicy}
    {key : JsString} (passes : configRefusal installed next policy = none)
    (kept : ¬MayChange next policy key) :
    (installed.get key).isDeepStrictEqual (next.get key) = true := by
  by_cases present : installed.hasOwn key = true ∨ next.hasOwn key = true
  · exact (kept_of_configRefusal passes present kept).2.2
  · rw [not_or, Bool.not_eq_true, Bool.not_eq_true] at present
    rw [JsValue.get_of_not_hasOwn present.1, JsValue.get_of_not_hasOwn present.2]
    rfl

theorem SharedLanes.of_configRefusal {installed next : JsValue} {policy : Option CodeInstallPolicy}
    (passes : configRefusal installed next policy = none) : SharedLanes installed next := by
  apply SharedLanes.of_same
  intro name nameMem
  apply same_of_configRefusal passes
  simp only [List.mem_cons, List.not_mem_nil, or_false] at nameMem
  rintro (rfl | rfl | ⟨rfl, -⟩)
  all_goals exact absurd nameMem (by decide)

theorem sameValueZero_string {text : JsString} {value : JsValue} :
    (JsValue.string text).sameValueZero value = true ↔ value = .string text := by
  cases value with
  | string found => simp [JsValue.sameValueZero, JsValue.strictEq, eq_comm]
  | _ => simp [JsValue.sameValueZero, JsValue.strictEq]

theorem includes_string {items : List JsValue} {text : JsString} :
    includes items (.string text) = true ↔ .string text ∈ items := by
  simp [includes, sameValueZero_string]

theorem nodup_of_distinct {items : List JsValue} (isDistinct : distinct items = true)
    (texts : ∀ item ∈ items, ∃ text, item = .string text) : items.Nodup := by
  induction items with
  | nil => exact List.nodup_nil
  | cons item rest ih =>
    rw [List.forall_mem_cons] at texts
    rcases texts with ⟨⟨text, rfl⟩, texts⟩
    simp only [distinct, Bool.and_eq_true, Bool.not_eq_true'] at isDistinct
    rw [List.nodup_cons]
    refine ⟨?_, ih isDistinct.2 texts⟩
    rw [← includes_string, isDistinct.1]
    exact Bool.false_ne_true

def queued (config : JsValue) : List JsValue :=
  (((config.get (js "dispatch_scope")).get (js "issue_ids")).items?).getD []

def appendedTo (installed next : JsValue) : List JsValue :=
  (cardLanes next).drop (cardLanes installed).length

def contractText (facts : JsValue) (name : JsString) : JsValue :=
  (facts.get (js "contractTexts")).get name

section Round

variable {round : FiniteNumber → JsNumber}

structure QueueChecked (round : FiniteNumber → JsNumber) (facts next : JsValue)
    (before appended : List JsValue) : Prop where
  named : ∀ lane ∈ appended, HasId lane
  fresh : ∀ lane ∈ appended, laneId lane ∉ before.map laneId
  distinct : (appended.map laneId).Nodup
  contract : ∀ lane ∈ appended, laneId lane ∈ queued next → ∃ installedCards nextCards,
    contractEntries round (contractText facts (js "installed")) = some installedCards ∧
    contractEntries round (contractText facts (js "main")) = some nextCards ∧
    hasContract installedCards (laneId lane) = false ∧ hasContract nextCards (laneId lane) = true

theorem hasId_of_isCardIdValue {lane : JsValue} (isCard : isCardIdValue (laneId lane) = true) :
    HasId lane := by
  cases id : laneId lane with
  | string text =>
      cases text with
      | nil => simp [id, isCardIdValue, isCardId, js] at isCard
      | cons unit rest => exact ⟨unit, rest, id⟩
  | _ => simp [id, isCardIdValue] at isCard

theorem hasContract_of_contractRefusal {added : List JsValue} {card : JsValue}
    {installedCards nextCards : List JsString} (isAdded : includes added card = true)
    (passes : contractRefusal added installedCards nextCards card = none) :
    hasContract installedCards card = false ∧ hasContract nextCards card = true := by
  simp only [contractRefusal, isAdded, Bool.true_and] at passes
  split at passes
  case isTrue => cases passes
  case isFalse checked => simpa using checked

theorem QueueChecked.of_queueOf {facts installed next : JsValue} {before after : List JsValue}
    {found : List JsValue × List JsValue × Bool}
    (checks : queueOf round facts installed next before after = .ok found) :
    QueueChecked round facts next before (after.drop before.length) := by
  simp only [queueOf, bind_eq_ok, expect_eq_ok, exists_const] at checks
  rcases checks with ⟨ids, checks⟩
  simp only [Bool.and_eq_true, Bool.not_eq_true', List.any_eq_false, Bool.or_eq_true, not_or,
    Bool.not_eq_false, List.mem_map, forall_exists_index, and_imp,
    forall_apply_eq_imp_iff₂] at ids
  have named : ∀ lane ∈ after.drop before.length, HasId lane := fun lane laneMem =>
    hasId_of_isCardIdValue (by simpa [laneId] using (ids.1 lane laneMem).1)
  refine ⟨named, ?_, ?_, ?_⟩
  · intro lane laneMem known
    rcases named lane laneMem with ⟨unit, rest, isId⟩
    have unknown := (ids.1 lane laneMem).2
    rw [← laneId, isId] at unknown
    rw [isId] at known
    exact unknown (includes_string.mpr known)
  · apply nodup_of_distinct ids.2
    intro item itemMem
    rcases List.mem_map.mp itemMem with ⟨lane, laneMem, rfl⟩
    rcases named lane laneMem with ⟨unit, rest, isId⟩
    exact ⟨_, isId⟩
  · intro lane laneMem inQueue
    split at checks
    case h_2 => cases checks
    case h_1 cards isCards =>
      simp only [bind_eq_ok, expect_eq_ok, pass_eq_ok, exists_const] at checks
      rcases checks with ⟨-, -, -, -, checks⟩
      split at checks
      case h_1 => cases checks
      case h_2 landed _ =>
        simp only [bind_eq_ok, pass_eq_ok, exists_const] at checks
        rcases checks with ⟨-, checks⟩
        split at checks
        case h_2 => cases checks
        case h_1 installedCards nextCards isInstalled isNext =>
          simp only [bind_eq_ok, pass_eq_ok, exists_const] at checks
          have cardMem : laneId lane ∈ cards := by
            simpa [queued, isCards, JsValue.items?] using inQueue
          have passed := List.findSome?_eq_none_iff.mp checks.1 _ cardMem
          rcases named lane laneMem with ⟨unit, rest, isId⟩
          have isAdded : includes ((after.drop before.length).map fun lane => lane.get (js "id"))
              (laneId lane) = true := by
            rw [isId, includes_string, ← isId]
            exact List.mem_map_of_mem laneMem
          exact ⟨installedCards, nextCards, isInstalled, isNext,
            hasContract_of_contractRefusal isAdded passed⟩

/-- A file that is not among the changes is the same at both revisions. -/
def ContractsListed (facts : JsValue) : Prop :=
  (∀ change ∈ ((facts.get (js "changes")).items?).getD [],
      pathOf change ≠ .string CONTRACTS_PATH) →
    contractText facts (js "installed") = contractText facts (js "main")

/-- What the gate leaves unchecked of the lanes that main appends: the contract of a lane that
no new queue names, fixture and review lanes of the same id, and under the same
`dispatch_scope` whether they have new ids at all. -/
structure LeftUnchecked (contracts : ContractData) (installed next : JsValue) : Prop where
  contract : ∀ lane ∈ appendedTo installed next,
    (installed.get (js "dispatch_scope")).isDeepStrictEqual (next.get (js "dispatch_scope")) =
        true ∨ laneId lane ∉ queued next →
      (cardContract contracts (laneId lane)).truthy = true
  apart : ∀ lane ∈ appendedTo installed next,
    laneId lane ∉ (fixtureLanes next ++ reviewLanes next).map laneId
  fresh : (installed.get (js "dispatch_scope")).isDeepStrictEqual
      (next.get (js "dispatch_scope")) = true →
    (∀ lane ∈ appendedTo installed next, HasId lane ∧
      laneId lane ∉ (cardLanes installed).map laneId) ∧
        ((appendedTo installed next).map laneId).Nodup

/-- What main's contracts keep of those that the installed lanes were looked up under. -/
structure KeepsLookups (round : FiniteNumber → JsNumber) (facts : JsValue)
    (before after : ContractData) : Prop where
  kept : ∀ card, (cardContract before card).truthy = true → (cardContract after card).truthy = true
  added : ∀ card installedCards nextCards,
    contractEntries round (contractText facts (js "installed")) = some installedCards →
    contractEntries round (contractText facts (js "main")) = some nextCards →
    hasContract installedCards card = false → hasContract nextCards card = true →
      (cardContract after card).truthy = true

theorem truthy_of_isPlainObject {value : JsValue} (isObject : value.isPlainObject = true) :
    value.truthy = true := by
  cases value with
  | object => rfl
  | _ => simp [JsValue.isPlainObject] at isObject

theorem hasContract_keys {contracts : ContractData} {card : JsValue} :
    hasContract (contracts.cards.map Prod.fst) card = true ↔
      ∃ text, card = .string text ∧ (JsValue.object contracts.cards).hasOwn text = true := by
  cases card with
  | string text =>
      simp only [hasContract, JsValue.hasOwn, JsValue.entries, JsValue.string.injEq,
        exists_eq_left', decide_eq_true_eq]
      exact decide_eq_true_iff.symm
  | _ => simp [hasContract]

theorem KeepsLookups.of_contractChangeRefusal {facts : JsValue} {installed : ContractData}
    (passes : contractChangeRefusal round (contractText facts (js "installed"))
      (contractText facts (js "main")) = none)
    (loads : loadContracts round (contractText facts (js "installed")) = .ok installed) :
    ∃ main, loadContracts round (contractText facts (js "main")) = .ok main ∧
      KeepsLookups round facts installed main := by
  rcases loadContracts_of_contractChangeRefusal passes loads with ⟨main, isMain, compatible⟩
  rcases contractChangeRefusal_eq_none.mp passes with ⟨before, after, isBefore, isAfter, -, added⟩
  have sameMain := ((loadContracts_eq_ok isAfter).mp isMain).2.2
  subst sameMain
  refine ⟨main, isMain, ?_, ?_⟩
  · intro card isTruthy
    have notNull : cardContract installed card ≠ .null := by
      intro isNull
      rw [isNull] at isTruthy
      cases isTruthy
    rw [← truthy_of_isDeepStrictEqual (compatible.cards card notNull)]
    exact isTruthy
  · intro card installedCards nextCards isInstalled isNext absent present
    rw [contractEntries, isBefore, Option.map_some, Option.some.injEq] at isInstalled
    rw [contractEntries, isAfter, Option.map_some, Option.some.injEq] at isNext
    subst isInstalled isNext
    rcases hasContract_keys.mp present with ⟨text, rfl, inAfter⟩
    have notBefore : (JsValue.object before.cards).hasOwn text = false := by
      rw [← Bool.not_eq_true]
      intro inBefore
      rw [hasContract_keys.mpr ⟨text, rfl, inBefore⟩] at absent
      cases absent
    have new : NewCard main text ((JsValue.object main.cards).get text) :=
      .of_addedRefusal notBefore (added _ (JsValue.exists_entry_get inAfter))
    rw [cardContract, if_pos inAfter]
    exact truthy_of_isPlainObject new.isObject

theorem KeepsLookups.of_same {facts : JsValue} {installed : ContractData}
    (same : contractText facts (js "installed") = contractText facts (js "main"))
    (loads : loadContracts round (contractText facts (js "installed")) = .ok installed) :
    ∃ main, loadContracts round (contractText facts (js "main")) = .ok main ∧
      KeepsLookups round facts installed main := by
  refine ⟨installed, same ▸ loads, fun _ isTruthy => isTruthy, ?_⟩
  intro card installedCards nextCards isInstalled isNext absent present
  rw [same, isNext, Option.some.injEq] at isInstalled
  rw [← isInstalled, present] at absent
  cases absent

theorem KeepsLookups.of_contractsRefusal {facts : JsValue} {installed : ContractData}
    {changes : List JsValue} (isChanges : facts.get (js "changes") = .array changes)
    (listed : ContractsListed facts) (passes : contractsRefusal round facts changes = none)
    (loads : loadContracts round (contractText facts (js "installed")) = .ok installed) :
    ∃ main, loadContracts round (contractText facts (js "main")) = .ok main ∧
      KeepsLookups round facts installed main := by
  by_cases edited : ∃ change ∈ changes, pathOf change = .string CONTRACTS_PATH
  · rcases edited with ⟨change, changeMem, isContracts⟩
    exact KeepsLookups.of_contractChangeRefusal
      (keepsCards_of_contractsRefusal passes changeMem isContracts) loads
  · apply KeepsLookups.of_same _ loads
    apply listed
    intro change changeMem isContracts
    rw [isChanges] at changeMem
    exact edited ⟨change, changeMem, isContracts⟩

theorem LanesKept.cardLanes_eq {installed next : JsValue} {before appended : List JsValue}
    (lanes : LanesKept installed next before appended) : ∃ kept,
      next.get (js "card_lanes") = .array (kept ++ appended) ∧ cardLanes installed = before ∧
      cardLanes next = kept ++ appended ∧ appendedTo installed next = appended ∧
      List.Forall₂ (fun lane same => lane.isDeepStrictEqual same = true) before kept := by
  rcases lanes with ⟨isBefore, kept, isNext, same⟩
  have before_eq : cardLanes installed = before := by
    simp [cardLanes, lanesAt, isBefore, JsValue.items?]
  have next_eq : cardLanes next = kept ++ appended := by
    simp [cardLanes, lanesAt, isNext, JsValue.items?]
  refine ⟨kept, isNext, before_eq, next_eq, ?_, same⟩
  rw [appendedTo, before_eq, next_eq, same.length_eq, List.drop_left]

theorem HasId.of_mem_map {lane : JsValue} {lanes : List JsValue}
    (sameId : laneId lane ∈ lanes.map laneId) (named : ∀ lane ∈ lanes, HasId lane) : HasId lane := by
  rcases List.mem_map.mp sameId with ⟨found, foundMem, isId⟩
  rcases named found foundMem with ⟨unit, rest, isText⟩
  exact ⟨unit, rest, isId ▸ isText⟩

def ExitChecked (round : FiniteNumber → JsNumber) (facts installed next : JsValue)
    (before appended : List JsValue) : Prop :=
  (installed.get (js "dispatch_scope")).isDeepStrictEqual (next.get (js "dispatch_scope")) = true ∨
    QueueChecked round facts next before appended

theorem leftUnchecked_of_resolves {contracts : ContractData} {installed next : JsValue}
    {before appended : List JsValue} (lanes : LanesKept installed next before appended)
    (named : ∀ lane ∈ before, HasId lane) (resolves : Resolves contracts next) :
    LeftUnchecked contracts installed next := by
  rcases lanes.cardLanes_eq with ⟨kept, -, isBefore, isNext, isAppended, same⟩
  have sameIds := map_laneId_of_forall₂ same named
  rcases resolves with ⟨-, -, -, contract, hasIds, notReview, nodup⟩
  rw [isNext] at contract hasIds notReview nodup
  rw [List.map_append, List.map_append, List.nodup_append, List.nodup_append] at nodup
  rcases nodup with ⟨-, ⟨-, nodupAppended, apartKept⟩, apartFixture⟩
  have isCard : ∀ lane ∈ appended, lane ∈ fixtureLanes next ++ (kept ++ appended) :=
    fun lane laneMem => List.mem_append_right _ (List.mem_append_right _ laneMem)
  refine ⟨?_, ?_, ?_⟩
  · intro lane laneMem _
    rw [isAppended] at laneMem
    exact contract lane (List.mem_append_right _ laneMem)
  · intro lane laneMem taken
    rw [isAppended] at laneMem
    rw [List.map_append, List.mem_append] at taken
    rcases taken with fixture | review
    · exact apartFixture _ fixture _
        (List.mem_append_right _ (List.mem_map_of_mem laneMem)) rfl
    · exact notReview lane (isCard lane laneMem) review
  · intro _
    rw [isAppended, isBefore, ← sameIds]
    refine ⟨?_, nodupAppended⟩
    intro lane laneMem
    refine ⟨hasIds lane (isCard lane laneMem), ?_⟩
    intro known
    exact apartKept _ known _ (List.mem_map_of_mem laneMem) rfl

theorem resolves_of_leftUnchecked {facts installed next : JsValue} {before appended : List JsValue}
    {contracts contracts' : ContractData} (resolves : Resolves contracts installed)
    (shared : SharedLanes installed next) (lanes : LanesKept installed next before appended)
    (keeps : KeepsLookups round facts contracts contracts')
    (checked : ExitChecked round facts installed next before appended)
    (left : LeftUnchecked contracts' installed next) : Resolves contracts' next := by
  rcases lanes.cardLanes_eq with ⟨kept, isArray, isBefore, isNext, isAppended, same⟩
  rcases resolves with ⟨fixtureArray, -, reviewArray, contract, named, notReview, nodup⟩
  rcases left with ⟨leftContract, leftApart, leftFresh⟩
  rw [isAppended] at leftContract leftApart leftFresh
  rw [isBefore] at contract named notReview nodup leftFresh
  have fixtureNamed : ∀ lane ∈ fixtureLanes installed, HasId lane := fun lane laneMem =>
    named lane (List.mem_append_left _ laneMem)
  have keptNamed : ∀ lane ∈ before, HasId lane := fun lane laneMem =>
    named lane (List.mem_append_right _ laneMem)
  have fixtureIds := map_laneId_of_forall₂ shared.fixture fixtureNamed
  have keptIds := map_laneId_of_forall₂ same keptNamed
  have sharedIds : (fixtureLanes next ++ kept).map laneId =
      (fixtureLanes installed ++ before).map laneId := by
    rw [List.map_append, List.map_append, fixtureIds, keptIds]
  -- A new queue is checked by the gate, the rest of the lanes is left to the assumption.
  have appendedNamed : ∀ lane ∈ appended, HasId lane := by
    rcases checked with sameScope | queue
    · exact fun lane laneMem => ((leftFresh sameScope).1 lane laneMem).1
    · exact queue.named
  have appendedFresh : ∀ lane ∈ appended, laneId lane ∉ before.map laneId := by
    rcases checked with sameScope | queue
    · exact fun lane laneMem => ((leftFresh sameScope).1 lane laneMem).2
    · exact queue.fresh
  have appendedNodup : (appended.map laneId).Nodup := by
    rcases checked with sameScope | queue
    · exact (leftFresh sameScope).2
    · exact queue.distinct
  have appendedContract : ∀ lane ∈ appended,
      (cardContract contracts' (laneId lane)).truthy = true := by
    intro lane laneMem
    by_cases unchecked : (installed.get (js "dispatch_scope")).isDeepStrictEqual
        (next.get (js "dispatch_scope")) = true ∨ laneId lane ∉ queued next
    · exact leftContract lane laneMem unchecked
    · rw [not_or, not_not] at unchecked
      rcases checked with sameScope | queue
      · exact absurd sameScope unchecked.1
      · rcases queue.contract lane laneMem unchecked.2 with
          ⟨installedCards, nextCards, isInstalled, isMain, absent, present⟩
        exact keeps.added _ _ _ isInstalled isMain absent present
  have sharedMem : ∀ lane ∈ fixtureLanes next ++ kept,
      laneId lane ∈ (fixtureLanes installed ++ before).map laneId := fun lane laneMem =>
    sharedIds ▸ List.mem_map_of_mem laneMem
  refine ⟨shared.fixtureArray fixtureArray, ⟨kept ++ appended, by rw [isArray]; rfl⟩,
    shared.reviewArray reviewArray, ?_, ?_, ?_, ?_⟩
  · rw [isNext]
    intro lane laneMem
    rcases List.mem_append.mp laneMem with isKept | isNew
    · have sameId : laneId lane ∈ before.map laneId := keptIds ▸ List.mem_map_of_mem isKept
      rcases List.mem_map.mp sameId with ⟨found, foundMem, isId⟩
      rw [← isId]
      exact keeps.kept _ (contract found foundMem)
    · exact appendedContract lane isNew
  · rw [isNext, ← List.append_assoc]
    intro lane laneMem
    rcases List.mem_append.mp laneMem with isShared | isNew
    · exact .of_mem_map (sharedMem lane isShared) named
    · exact appendedNamed lane isNew
  · rw [isNext, ← List.append_assoc]
    intro lane laneMem isReview
    rcases List.mem_append.mp laneMem with isShared | isNew
    · rcases List.mem_map.mp (sharedMem lane isShared) with ⟨found, foundMem, isId⟩
      rcases named found foundMem with ⟨unit, rest, isText⟩
      apply notReview found foundMem
      rw [← isId, isText] at isReview
      rw [isText]
      exact laneId_mem_of_forall₂ shared.review isReview
    · apply leftApart lane isNew
      rw [List.map_append]
      exact List.mem_append_right _ isReview
  · rw [isNext, ← List.append_assoc, List.map_append, sharedIds, List.nodup_append]
    refine ⟨nodup, appendedNodup, ?_⟩
    rintro known isKnown _ isNew rfl
    rcases List.mem_map.mp isNew with ⟨lane, laneMem, rfl⟩
    rw [List.map_append, ← fixtureIds, List.mem_append] at isKnown
    rcases isKnown with fixture | isKept
    · apply leftApart lane laneMem
      rw [List.map_append]
      exact List.mem_append_left _ fixture
    · exact appendedFresh lane laneMem isKept

def configAt (round : FiniteNumber → JsNumber) (facts : JsValue) (name : JsString) : JsValue :=
  parse round ((facts.get (js "configs")).get name)

theorem resolveFixtureLane_main_iff {facts : JsValue} {admission : Admission}
    {installed : ContractData} (admits : selfInstallGate round facts = .ok admission)
    (listed : ContractsListed facts)
    (loads : loadContracts round (contractText facts (js "installed")) = .ok installed)
    (lookups : ∀ issueId, ∃ lane,
      resolveFixtureLane installed (configAt round facts (js "installed")) issueId = .ok lane) :
    ∃ main, loadContracts round (contractText facts (js "main")) = .ok main ∧
      ((∀ issueId, ∃ lane,
          resolveFixtureLane main (configAt round facts (js "main")) issueId = .ok lane) ↔
        LeftUnchecked main (configAt round facts (js "installed"))
          (configAt round facts (js "main"))) := by
  rcases exits_of_selfInstallGate admits with ⟨config, next, changes, isConfig, isNext,
    isChanges, -, -, contracts, sharedKeys, exits⟩
  rcases KeepsLookups.of_contractsRefusal isChanges listed contracts loads with
    ⟨main, isMain, keeps⟩
  refine ⟨main, isMain, ?_⟩
  rw [resolves_iff] at lookups ⊢
  rw [configAt, ← isConfig] at lookups
  rw [configAt, configAt, ← isConfig, ← isNext]
  have lanes : ∃ before appended, LanesKept config next before appended ∧
      ExitChecked round facts config next before appended := by
    rcases exits with queue | ⟨sameScope, ⟨lanes, isLanes⟩, -⟩
    · simp only [queueGate, bind_eq_ok] at queue
      rcases queue with ⟨lanes, isLanes, found, checks, -⟩
      exact ⟨_, _, (lanesKept_of_appendedLanes isLanes).1, Or.inr (.of_queueOf checks)⟩
    · exact ⟨_, _, (lanesKept_of_appendedLanes isLanes).1, Or.inl sameScope⟩
  rcases lanes with ⟨before, appended, kept, checked⟩
  refine ⟨?_, ?_⟩
  · apply leftUnchecked_of_resolves kept
    rcases kept.cardLanes_eq with ⟨-, -, isBefore, -⟩
    rw [← isBefore]
    exact fun lane laneMem => lookups.named lane (List.mem_append_right _ laneMem)
  · exact resolves_of_leftUnchecked lookups (.of_configRefusal sharedKeys) kept keeps checked

end Round

theorem exists_ok {Error Value : Type} {result : Except Error Value}
    (isOk : result.toOption.isSome = true) : ∃ value, result = .ok value := by
  cases result with
  | ok value => exact ⟨value, rfl⟩
  | error error => simp [Except.toOption] at isOk

/-- Main changes the number of workers and appends lanes of cards without a contract; the queue
stays. -/
def lanesFacts (appended : List JsString) : JsValue :=
  let queue := [js "SHU-1", js "SHU-2"]
  let paths := [CONFIG_PATH]
  let blob : JsValue := .string (List.replicate 40 97)
  let texts (installed main : JsValue) : JsValue :=
    .object [(js "installed", textOf installed), (js "main", textOf main)]
  let config (lanes : List JsString) (workers : ℕ) : JsValue := .object [
    (js "dispatch_scope", .object [(js "issue_ids", .array (queue.map .string))]),
    (js "card_lanes", .array (lanes.map laneOf)),
    (js "workers", .object [(js "max", .number (.ofNat workers))]),
    (CODE_SELF_INSTALL_KEY, .object [(js "approval", .string (js "none"))])]
  .object [
    (js "revision", .string (List.replicate 40 98)),
    (js "main", .string (List.replicate 40 99)),
    (js "descends", .boolean true),
    (js "configs", texts (config queue 1) (config (queue ++ appended) 2)),
    (js "contractTexts", texts (contractsOf queue) (contractsOf queue)),
    (js "changes", .array (paths.map fun path =>
      .object [(js "status", .string (js "M")), (js "path", .string path)])),
    (js "blobs", .object (paths.map fun path => (path, blob))),
    (js "passes", .array [.object [
      (js "pr", .number (.ofNat 7)), (js "head", .string (List.replicate 40 100)),
      (js "files", .object (paths.map fun path => (path, .object [(js "sha", blob)])))]]),
    (js "checks", .object [(js "green", .boolean true)])]

/-- Some id is looked up under the contracts and the configuration of one revision. -/
def looksUp (facts : JsValue) (name : JsString) : Bool :=
  (loadContracts .finite (contractText facts name)).toOption.any fun contracts =>
    (resolveFixtureLane contracts (configAt .finite facts name) .undefined).toOption.isSome

theorem looksUp_iff {facts : JsValue} {name : JsString} {contracts : ContractData}
    (loads : loadContracts .finite (contractText facts name) = .ok contracts) :
    looksUp facts name = true ↔ Resolves contracts (configAt .finite facts name) := by
  rw [looksUp, loads, ← resolves_iff_lookup]
  refine ⟨fun found => exists_ok found, ?_⟩
  rintro ⟨lane, found⟩
  simp [Except.toOption, found]

/-- An admitted install whose new lane has no contract: afterwards every lookup throws. -/
theorem resolveFixtureLane_main_throws :
    (∃ admission, selfInstallGate .finite (lanesFacts [js "SHU-9"]) = .ok admission) ∧
      ContractsListed (lanesFacts [js "SHU-9"]) ∧
      ∃ installed main,
        loadContracts .finite (contractText (lanesFacts [js "SHU-9"]) (js "installed")) =
            .ok installed ∧
          loadContracts .finite (contractText (lanesFacts [js "SHU-9"]) (js "main")) = .ok main ∧
          (∀ issueId, ∃ lane, resolveFixtureLane installed
            (configAt .finite (lanesFacts [js "SHU-9"]) (js "installed")) issueId = .ok lane) ∧
          ∀ issueId lane, resolveFixtureLane main
            (configAt .finite (lanesFacts [js "SHU-9"]) (js "main")) issueId ≠ .ok lane := by
  have sameText : contractText (lanesFacts [js "SHU-9"]) (js "installed") =
      contractText (lanesFacts [js "SHU-9"]) (js "main") := rfl
  refine ⟨exists_ok (by decide +kernel), fun _ => sameText, ?_⟩
  rcases exists_ok (by decide +kernel : (loadContracts .finite
      (contractText (lanesFacts [js "SHU-9"]) (js "installed"))).toOption.isSome = true) with
    ⟨contracts, isContracts⟩
  have isMain := sameText ▸ isContracts
  refine ⟨contracts, contracts, isContracts, isMain, ?_, ?_⟩
  · rw [resolves_iff, ← looksUp_iff isContracts]
    decide +kernel
  · intro issueId lane found
    have resolves := (looksUp_iff isMain).mpr (resolves_iff_lookup.mp ⟨lane, found⟩)
    exact absurd resolves (by decide +kernel)

theorem resolveFixtureLane_main_iff_appended :
    ∃ main, loadContracts .finite (contractText appendingFacts (js "main")) = .ok main ∧
      ((∀ issueId, ∃ lane, resolveFixtureLane main
          (configAt .finite appendingFacts (js "main")) issueId = .ok lane) ↔
        LeftUnchecked main (configAt .finite appendingFacts (js "installed"))
          (configAt .finite appendingFacts (js "main"))) := by
  rcases exists_ok (by decide +kernel : (selfInstallGate .finite appendingFacts).toOption.isSome =
    true) with ⟨admission, admits⟩
  rcases exists_ok (by decide +kernel : (loadContracts .finite
      (contractText appendingFacts (js "installed"))).toOption.isSome = true) with ⟨installed, loads⟩
  apply resolveFixtureLane_main_iff admits _ loads
  · rw [resolves_iff, ← looksUp_iff loads]
    decide +kernel
  · intro unlisted
    have listed : ((((appendingFacts.get (js "changes")).items?).getD []).any fun change =>
        (pathOf change).isText CONTRACTS_PATH) = true := by
      decide +kernel
    rcases List.any_eq_true.mp listed with ⟨change, changeMem, isContracts⟩
    apply absurd _ (unlisted change changeMem)
    cases path : pathOf change with
    | string text => simpa [path, JsValue.isText] using isContracts
    | _ => simp [path, JsValue.isText] at isContracts

end StudentHub.CardInstall
