import StudentHub.Coordinator.Comments
import StudentHub.Dangling.Held

/-!
# Disputed records

The tick goes through the receipts of a thread and keeps one for each attempt; a receipt that
disagrees with the one it keeps is reported and taken for nothing. The operation on a dangling
attempt takes the newest of all records of the attempt, whether they agree or not.
-/

namespace StudentHub.Dangling

open Ecma JsString JsValue Coordinator Concurrency Process NewestWins

/-- What the tick keeps for each attempt, and the attempts that it reports for a conflict, by each
of which dispatch is prevented. -/
structure TickReceipts where
  byAttempt : List (JsString × JsValue)
  conflicts : List JsString

/-- `typeof receipt.attempt_id === "string"` -/
def attemptText (receipt : JsValue) : Option JsString :=
  match receipt.get (js "attempt_id") with
  | .string attemptId => some attemptId
  | _ => none

def conflicting (previous receipt : JsValue) : Bool :=
  RECEIPT_IMMUTABLE_FIELDS.any fun field => !immutableFieldEqual previous receipt field

def resolveReceipt (host : ReconcileHost) (found : TickReceipts) (receipt : JsValue) :
    Except Stop TickReceipts :=
  match attemptText receipt with
  | none => .ok found
  | some attemptId =>
      match found.byAttempt.lookup attemptId with
      | none => .ok { found with byAttempt := found.byAttempt ++ [(attemptId, receipt)] }
      | some previous =>
          if conflicting previous receipt then
            .ok { found with conflicts := found.conflicts ++ [attemptId] }
          else do
            let current ← newer host previous receipt
            return { found with byAttempt := found.byAttempt.map fun kept =>
              if kept.1 = attemptId then (attemptId, current) else kept }

def resolveReceipts (host : ReconcileHost) (receipts : List JsValue) : Except Stop TickReceipts :=
  receipts.foldlM (resolveReceipt host) ⟨[], []⟩

def isOf (attemptId : JsString) (record : Recorded) : Bool := record.attemptId.isText attemptId

def ofAttempt (attemptId : JsString) (records : List Recorded) : List Recorded :=
  records.filter (isOf attemptId)

def newerComment (prior record : Recorded) : Recorded :=
  if prior.replaces record then record else prior

/-- The newest comment's record, of those that agree with the first. -/
def standing : List Recorded → Option Recorded
  | [] => none
  | first :: rest => some ((rest.filter first.agrees).foldl newerComment first)

def disputing : List Recorded → List Recorded
  | [] => []
  | first :: rest => rest.filter fun record => !first.agrees record

variable {host : ReconcileHost} {attemptId : JsString} {found : List Recorded}
  {holding : Holding Recorded} {record : Recorded}

theorem mapKey_eq_string_iff {value : JsValue} {text : JsString} :
    mapKey value = some (.string text) ↔ value.isText text = true := by
  rw [isText_iff]
  cases value with
  | number value => cases value <;> simp [mapKey]
  | _ => simp [mapKey]

theorem isOf_of_sameAttempt {left right : Recorded} (same : left.sameAttempt right = true) :
    isOf attemptId left = isOf attemptId right := by
  rcases sameValueZero_iff.mp same with ⟨key, isLeft, isRight⟩
  rw [Bool.eq_iff_iff, isOf, isOf, ← mapKey_eq_string_iff, ← mapKey_eq_string_iff, isLeft, isRight]

theorem sameAttempt_of_isOf {left right : Recorded} (isLeft : isOf attemptId left = true)
    (isRight : isOf attemptId right = true) : left.sameAttempt right = true :=
  sameValueZero_iff.mpr
    ⟨_, mapKey_eq_string_iff.mpr isLeft, mapKey_eq_string_iff.mpr isRight⟩

theorem newerComment_eq_or (prior record : Recorded) :
    newerComment prior record = prior ∨ newerComment prior record = record := by
  rw [newerComment]
  split_ifs
  · exact .inr rfl
  · exact .inl rfl

theorem foldl_newerComment_mem (prior : Recorded) (found : List Recorded) :
    found.foldl newerComment prior ∈ prior :: found := by
  induction found generalizing prior with
  | nil => exact List.mem_singleton_self prior
  | cons record found ih =>
      rw [List.foldl_cons]
      rcases newerComment_eq_or prior record with same | same
      · rw [same]
        have isKept := ih prior
        simp only [List.mem_cons] at isKept ⊢
        tauto
      · rw [same]
        exact List.mem_cons_of_mem _ (ih record)

theorem agrees_standing {first : Recorded} {rest : List Recorded} {current : Recorded}
    (isCurrent : standing (first :: rest) = some current) :
    current.agrees record = first.agrees record := by
  cases isCurrent
  have isKept := foldl_newerComment_mem first (rest.filter first.agrees)
  rcases List.mem_cons.mp isKept with same | isOther
  · rw [same]
  · have agrees : records.agrees first _ = true := (List.mem_filter.mp isOther).2
    rw [Bool.eq_iff_iff]
    exact ⟨fun isLater => lawful_records.agrees_trans agrees isLater,
      fun isFirst => lawful_records.agrees_trans (lawful_records.agrees_symm agrees) isFirst⟩

/-- What is held of the attempt is the standing record, and what is kept aside disputes it. -/
structure Collected (attemptId : JsString) (found : List Recorded) (holding : Holding Recorded) :
    Prop where
  held : ofAttempt attemptId holding.held = (standing (ofAttempt attemptId found)).toList
  aside : ofAttempt attemptId holding.aside = disputing (ofAttempt attemptId found)

theorem ofAttempt_append (first second : List Recorded) :
    ofAttempt attemptId (first ++ second) = ofAttempt attemptId first ++ ofAttempt attemptId second :=
  List.filter_append _ _

theorem ofAttempt_singleton : ofAttempt attemptId [record] =
    bif isOf attemptId record then [record] else [] := by
  rw [ofAttempt, List.filter_singleton]

theorem ofAttempt_map_replace {kept : List Recorded} (other : isOf attemptId record = false) :
    ofAttempt attemptId (kept.map fun prior => if prior.sameAttempt record then record else prior) =
      ofAttempt attemptId kept := by
  induction kept with
  | nil => rfl
  | cons prior kept ih =>
      simp only [ofAttempt] at ih ⊢
      rw [List.map_cons]
      by_cases same : prior.sameAttempt record = true
      · have isOther : isOf attemptId prior = false := (isOf_of_sameAttempt same).trans other
        rw [if_pos same, List.filter_cons_of_neg (by simp [other]),
          List.filter_cons_of_neg (by simp [isOther]), ih]
      · rw [if_neg same, List.filter_cons, List.filter_cons, ih]

theorem ofAttempt_map_self {kept : List Recorded} (isRecord : isOf attemptId record = true) :
    ofAttempt attemptId (kept.map fun prior => if prior.sameAttempt record then record else prior) =
      (ofAttempt attemptId kept).map fun _ => record := by
  induction kept with
  | nil => rfl
  | cons prior kept ih =>
      simp only [ofAttempt] at ih ⊢
      rw [List.map_cons]
      by_cases isPrior : isOf attemptId prior = true
      · rw [if_pos (sameAttempt_of_isOf isPrior isRecord), List.filter_cons_of_pos isRecord,
          List.filter_cons_of_pos isPrior, List.map_cons, ih]
      · have different : ¬prior.sameAttempt record = true := by
          intro same
          rw [isOf_of_sameAttempt same] at isPrior
          exact isPrior isRecord
        rw [if_neg different, List.filter_cons_of_neg isPrior, List.filter_cons_of_neg isPrior, ih]

theorem find?_sameAttempt (kept : List Recorded) (isRecord : isOf attemptId record = true) :
    kept.find? (fun prior => prior.sameAttempt record) = (ofAttempt attemptId kept).head? := by
  rw [ofAttempt, List.head?_filter]
  congr 1
  funext prior
  rw [Bool.eq_iff_iff]
  refine ⟨fun same => ?_, fun isPrior => sameAttempt_of_isOf isPrior isRecord⟩
  rw [isOf_of_sameAttempt same, isRecord]

theorem Collected.step_other (collected : Collected attemptId found holding)
    (other : isOf attemptId record = false) :
    Collected attemptId (found ++ [record]) (collect holding record) := by
  have none : ofAttempt attemptId [record] = [] := by rw [ofAttempt_singleton, other]; rfl
  have same : ofAttempt attemptId (found ++ [record]) = ofAttempt attemptId found := by
    rw [ofAttempt_append, none, List.append_nil]
  simp only [collect]
  split
  · refine ⟨?_, ?_⟩
    · rw [ofAttempt_append, none, List.append_nil, same, collected.held]
    · rw [same, collected.aside]
  · split_ifs
    · refine ⟨?_, ?_⟩
      · rw [same, collected.held]
      · rw [ofAttempt_append, none, List.append_nil, same, collected.aside]
    · refine ⟨?_, ?_⟩
      · rw [ofAttempt_map_replace other, same, collected.held]
      · rw [same, collected.aside]
    · refine ⟨?_, ?_⟩
      · rw [same, collected.held]
      · rw [same, collected.aside]

theorem standing_concat (first : Recorded) (rest : List Recorded) :
    standing (first :: (rest ++ [record])) = (standing (first :: rest)).map fun current =>
      if first.agrees record then newerComment current record else current := by
  rw [standing, standing, List.filter_append, List.foldl_append, List.filter_singleton]
  cases first.agrees record <;> rfl

theorem disputing_concat (first : Recorded) (rest : List Recorded) :
    disputing (first :: (rest ++ [record])) = disputing (first :: rest) ++
      if first.agrees record then [] else [record] := by
  rw [disputing, disputing, List.filter_append, List.filter_singleton]
  cases first.agrees record <;> rfl

theorem Collected.step_self (collected : Collected attemptId found holding)
    (isRecord : isOf attemptId record = true) :
    Collected attemptId (found ++ [record]) (collect holding record) := by
  have one : ofAttempt attemptId [record] = [record] := by rw [ofAttempt_singleton, isRecord]; rfl
  have held := collected.held
  have aside := collected.aside
  have lookup := find?_sameAttempt holding.held isRecord
  rw [held] at lookup
  cases isFound : ofAttempt attemptId found with
  | nil =>
      rw [isFound] at held aside lookup
      rw [collect, lookup]
      change Collected attemptId _ ⟨holding.held ++ [record], holding.aside⟩
      refine ⟨?_, ?_⟩
      · rw [ofAttempt_append, held, one, ofAttempt_append, isFound, one]
        rfl
      · rw [aside, ofAttempt_append, isFound, one]
        rfl
  | cons first rest =>
      rw [isFound] at held aside lookup
      cases isCurrent : standing (first :: rest) with
      | none => cases isCurrent
      | some current =>
          have both : ofAttempt attemptId (found ++ [record]) = first :: (rest ++ [record]) := by
            rw [ofAttempt_append, isFound, one, List.cons_append]
          have agreeing := @agrees_standing record first rest current isCurrent
          rw [isCurrent] at held lookup
          rw [collect, lookup]
          simp only [Option.toList_some, List.head?_cons, agreeing]
          cases agrees : first.agrees record with
          | false =>
              refine ⟨?_, ?_⟩
              · rw [both, standing_concat, isCurrent, agrees]
                exact held
              · rw [both, disputing_concat, agrees]
                simp only [Bool.not_false, if_true]
                rw [ofAttempt_append, aside, one]
                rfl
          | true =>
              cases replaces : current.replaces record with
              | true =>
                  refine ⟨?_, ?_⟩
                  · rw [both, standing_concat, isCurrent, agrees]
                    simp only [Bool.not_true, Bool.false_eq_true, if_false, if_true]
                    rw [ofAttempt_map_self isRecord, held]
                    simp [newerComment, replaces]
                  · rw [both, disputing_concat, agrees]
                    simpa using aside
              | false =>
                  refine ⟨?_, ?_⟩
                  · rw [both, standing_concat, isCurrent, agrees]
                    simpa [newerComment, replaces] using held
                  · rw [both, disputing_concat, agrees]
                    simpa using aside

theorem collected_foldl (attemptId : JsString) (found : List Recorded) :
    Collected attemptId found (found.foldl collect ⟨[], []⟩) := by
  induction found using List.reverseRecOn with
  | nil => exact ⟨rfl, rfl⟩
  | append_singleton found record ih =>
      rw [List.foldl_append, List.foldl_cons, List.foldl_nil]
      cases isRecord : isOf attemptId record with
      | true => exact ih.step_self isRecord
      | false => exact ih.step_other isRecord

section Tick

variable {receipts : List JsValue} {state : TickReceipts}

theorem attemptText_receipt : attemptText record.receipt = some attemptId ↔
    isOf attemptId record = true := by
  rw [isOf, isText_iff, Recorded.attemptId, attemptText]
  cases record.receipt.get (js "attempt_id") <;> simp

def tickEntry (receipt : JsValue) : Option (JsString × JsValue) :=
  (attemptText receipt).map fun attemptId => (attemptId, receipt)

theorem conflicting_eq (prior record : Recorded) :
    conflicting prior.receipt record.receipt = !prior.agrees record := by
  rw [conflicting, Recorded.agrees, List.not_all_eq_any_not]

theorem foldlM_resolveReceipt_new (host : ReconcileHost) (state : TickReceipts)
    (distinct : (state.byAttempt.map Prod.fst ++ receipts.filterMap attemptText).Nodup) :
    receipts.foldlM (resolveReceipt host) state = .ok { state with
      byAttempt := state.byAttempt ++ receipts.filterMap tickEntry } := by
  induction receipts generalizing state with
  | nil => simp [pure, Except.pure]
  | cons receipt receipts ih =>
      rw [List.foldlM_cons, resolveReceipt]
      cases isAttempt : attemptText receipt with
      | none =>
          rw [List.filterMap_cons_none isAttempt] at distinct
          have later := ih state distinct
          simpa [tickEntry, isAttempt, Bind.bind, Except.bind] using later
      | some attemptId =>
          rw [List.filterMap_cons_some isAttempt] at distinct
          have new : state.byAttempt.lookup attemptId = none := by
            rw [List.lookup_eq_none_iff]
            intro kept isKept
            have apart := (List.nodup_append.mp distinct).2.2 kept.1 (List.mem_map_of_mem isKept)
              attemptId List.mem_cons_self
            simpa using Ne.symm apart
          have later := ih { state with byAttempt := state.byAttempt ++ [(attemptId, receipt)] }
            (by simpa using distinct)
          simp only [new]
          simpa [tickEntry, isAttempt, Bind.bind, Except.bind] using later

theorem foldlM_resolveReceipt_conflicting (host : ReconcileHost) (state : TickReceipts)
    (disagree : ∀ receipt ∈ receipts, ∀ attemptId, attemptText receipt = some attemptId →
      ∃ previous, state.byAttempt.lookup attemptId = some previous ∧
        conflicting previous receipt = true) :
    receipts.foldlM (resolveReceipt host) state = .ok { state with
      conflicts := state.conflicts ++ receipts.filterMap attemptText } := by
  induction receipts generalizing state with
  | nil => simp [pure, Except.pure]
  | cons receipt receipts ih =>
      rw [List.foldlM_cons, resolveReceipt]
      cases isAttempt : attemptText receipt with
      | none =>
          have later := ih state fun next isNext => disagree next (List.mem_cons_of_mem _ isNext)
          simpa [isAttempt, Bind.bind, Except.bind] using later
      | some attemptId =>
          rcases disagree receipt List.mem_cons_self attemptId isAttempt with
            ⟨previous, isPrevious, conflicts⟩
          have later := ih { state with conflicts := state.conflicts ++ [attemptId] }
            fun next isNext => disagree next (List.mem_cons_of_mem _ isNext)
          simp only [isPrevious, conflicts]
          simpa [isAttempt, Bind.bind, Except.bind] using later

theorem lookup_filterMap (attemptId : JsString) (kept : List Recorded) :
    ((kept.map Recorded.receipt).filterMap tickEntry).lookup attemptId =
      (ofAttempt attemptId kept).head?.map Recorded.receipt := by
  induction kept with
  | nil => rfl
  | cons record kept ih =>
      rw [List.map_cons, ofAttempt]
      by_cases isRecord : isOf attemptId record = true
      · have entry : tickEntry record.receipt = some (attemptId, record.receipt) := by
          rw [tickEntry, attemptText_receipt.mpr isRecord]
          rfl
        rw [List.filterMap_cons_some entry, List.lookup_cons_self, List.filter_cons_of_pos isRecord]
        rfl
      · rw [List.filter_cons_of_neg isRecord]
        cases isAttempt : attemptText record.receipt with
        | none =>
            have noEntry : tickEntry record.receipt = none := by
              rw [tickEntry, isAttempt]
              rfl
            rw [List.filterMap_cons_none noEntry]
            exact ih
        | some other =>
            have different : (attemptId == other) = false := by
              rw [beq_eq_false_iff_ne]
              rintro rfl
              exact isRecord (attemptText_receipt.mp isAttempt)
            have entry : tickEntry record.receipt = some (other, record.receipt) := by
              rw [tickEntry, isAttempt]
              rfl
            rw [List.filterMap_cons_some entry, List.lookup_cons, different]
            exact ih

theorem count_filterMap (attemptId : JsString) (kept : List Recorded) :
    ((kept.map Recorded.receipt).filterMap attemptText).count attemptId =
      (ofAttempt attemptId kept).length := by
  rw [List.count, List.countP_filterMap, List.countP_map, ofAttempt, List.countP_eq_length_filter]
  congr 2
  funext record
  rw [Bool.eq_iff_iff, ← attemptText_receipt]
  cases isAttempt : attemptText record.receipt <;> simp [isAttempt]

theorem resolveReceipts_thread (host : ReconcileHost) (found : List Recorded) :
    ∃ state, resolveReceipts host (((found.foldl collect ⟨[], []⟩).held ++
        (found.foldl collect ⟨[], []⟩).aside).map Recorded.receipt) = .ok state ∧
      ∀ attemptId, state.byAttempt.lookup attemptId =
          (standing (ofAttempt attemptId found)).map Recorded.receipt ∧
        (attemptId ∈ state.conflicts ↔ disputing (ofAttempt attemptId found) ≠ []) := by
  have collected := fun attemptId => collected_foldl attemptId found
  generalize found.foldl collect ⟨[], []⟩ = holding at collected
  have lookup := fun attemptId => lookup_filterMap attemptId holding.held
  have distinct : ((holding.held.map Recorded.receipt).filterMap attemptText).Nodup := by
    apply List.nodup_iff_count_le_one.mpr
    intro attemptId
    rw [count_filterMap, (collected attemptId).held]
    exact Option.length_toList_le
  have kept := @foldlM_resolveReceipt_new (holding.held.map Recorded.receipt) host ⟨[], []⟩ distinct
  refine ⟨⟨(holding.held.map Recorded.receipt).filterMap tickEntry, (holding.aside.map Recorded.receipt).filterMap attemptText⟩, ?_, fun attemptId => ⟨?_, ?_⟩⟩
  · rw [resolveReceipts, List.map_append, List.foldlM_append, kept]
    apply foldlM_resolveReceipt_conflicting
    intro receipt isReceipt attemptId isAttempt
    rcases List.mem_map.mp isReceipt with ⟨record, isAside, rfl⟩
    have isRecord : record ∈ ofAttempt attemptId holding.aside :=
      List.mem_filter.mpr ⟨isAside, attemptText_receipt.mp isAttempt⟩
    rw [(collected attemptId).aside] at isRecord
    cases isFound : ofAttempt attemptId found with
    | nil =>
        rw [isFound] at isRecord
        cases isRecord
    | cons first rest =>
        rw [isFound] at isRecord
        cases isCurrent : standing (first :: rest) with
        | none => cases isCurrent
        | some current =>
            refine ⟨current.receipt, ?_, ?_⟩
            · change ((holding.held.map Recorded.receipt).filterMap tickEntry).lookup attemptId = _
              rw [lookup attemptId, (collected attemptId).held, isFound, isCurrent]
              rfl
            · rw [conflicting_eq, agrees_standing isCurrent]
              exact (List.mem_filter.mp isRecord).2
  · rw [lookup attemptId, (collected attemptId).held]
    cases standing (ofAttempt attemptId found) <;> rfl
  · rw [← List.count_pos_iff, count_filterMap, (collected attemptId).aside,
      List.length_pos_iff]

end Tick

section Operation

variable {call : DanglingCall}

theorem chainOf_receipts (attemptId : JsString) (kept : List Recorded) :
    chainOf (kept.map Recorded.receipt) attemptId = (ofAttempt attemptId kept).map Recorded.receipt := by
  rw [chainOf, List.filter_map, ofAttempt]
  congr 2
  funext record
  rw [Function.comp_apply, isOf, Recorded.attemptId]
  cases record.receipt <;> simp [JsValue.truthy, JsValue.get, isText]

theorem foldlM_newer_eq_first_iff {first : JsValue} {rest : List JsValue} :
    rest.foldlM (newer host) first = .ok first ↔ ∀ record ∈ rest, ∃ text recordText,
      activity host first = some text ∧ activity host record = some recordText ∧
        ¬text < recordText := by
  induction rest with
  | nil => simp [pure, Except.pure]
  | cons record rest ih =>
      rw [List.forall_mem_cons, ← ih]
      constructor
      · intro picked
        have isLast := (newest_of_foldlM picked).2 record (List.mem_cons_of_mem _ List.mem_cons_self)
        rw [List.foldlM_cons] at picked
        rcases bind_eq_ok_iff.mp picked with ⟨middle, isMiddle, later⟩
        rw [newer] at isMiddle
        rcases bind_eq_ok_iff.mp isMiddle with ⟨recordText, isRecord, isMiddle⟩
        rcases bind_eq_ok_iff.mp isMiddle with ⟨text, isText, isMiddle⟩
        rw [evaluate_eq_ok] at isRecord isText
        have notLater := isLast text recordText isText isRecord
        rw [if_neg notLater] at isMiddle
        cases isMiddle
        exact ⟨⟨text, recordText, isText, isRecord, notLater⟩, later⟩
      · rintro ⟨⟨text, recordText, isText, isRecord, notLater⟩, later⟩
        have step : newer host first record = .ok first := by
          simp [newer, isText, isRecord, evaluate, notLater, Bind.bind, Except.bind, pure, Except.pure]
        rw [List.foldlM_cons, step]
        exact later

/-- No record that disputes the standing one is later by its `last_activity`. -/
def StaysNewest (host : ReconcileHost) (records : List Recorded) : Prop :=
  ∀ current ∈ standing records, ∀ record ∈ disputing records, ∃ text recordText,
    activity host current.receipt = some text ∧ activity host record.receipt = some recordText ∧
      ¬text < recordText

theorem resolveChain_thread_iff : resolveChain host (.array (((found.foldl collect ⟨[], []⟩).held ++
      (found.foldl collect ⟨[], []⟩).aside).map Recorded.receipt)) attemptId =
        .ok ((standing (ofAttempt attemptId found)).map Recorded.receipt) ↔
    StaysNewest host (ofAttempt attemptId found) := by
  have collected := collected_foldl attemptId found
  generalize found.foldl collect ⟨[], []⟩ = holding at collected
  have isChain := chainOf_receipts attemptId (holding.held ++ holding.aside)
  rw [ofAttempt_append, collected.held, collected.aside] at isChain
  rw [resolveChain, StaysNewest]
  simp only [JsValue.orElse, isChain]
  cases isFound : ofAttempt attemptId found with
  | nil => simp [standing, disputing]
  | cons first rest =>
      cases isCurrent : standing (first :: rest) with
      | none => cases isCurrent
      | some current =>
          have picks := @foldlM_newer_eq_first_iff host current.receipt
            ((disputing (first :: rest)).map Recorded.receipt)
          rw [List.forall_mem_map] at picks
          simp only [Option.toList_some, List.singleton_append, List.map_cons, Option.map_some,
            Option.mem_some_iff, forall_eq']
          rw [← picks]
          cases ((disputing (first :: rest)).map Recorded.receipt).foldlM (newer host)
            current.receipt <;> simp [Except.map]

theorem disputing_eq_nil_iff {records : List Recorded} : disputing records = [] ↔
    records.Pairwise fun left right => left.agrees right = true := by
  cases records with
  | nil => simp [disputing]
  | cons first rest =>
      rw [disputing, List.filter_eq_nil_iff, List.pairwise_cons]
      simp only [Bool.not_eq_true', Bool.not_eq_false]
      refine ⟨fun agree => ⟨agree, ?_⟩, fun agree => agree.1⟩
      rw [List.pairwise_iff_forall_sublist]
      intro left right isPair
      have isLeft := isPair.subset List.mem_cons_self
      have isRight := isPair.subset (List.mem_cons_of_mem _ List.mem_cons_self)
      exact lawful_records.agrees_trans (lawful_records.agrees_symm (agree left isLeft))
        (agree right isRight)

def outcome (host : ReconcileHost) (call : DanglingCall) : Except Stop JsValue :=
  ((reconcileDanglingAttempt host call).run call.perform []).1

def Reports (call : DanglingCall) (process : ReconcileProcess JsValue) : Prop :=
  ∀ held, (process.run call.perform []).1 = .ok held → sends call process ≠ []

theorem reports_bind {Value : Type} {process : ReconcileProcess Value} {result : Except Stop Value}
    {rest : Value → ReconcileProcess JsValue} (quiet : Quiet call process result)
    (each : ∀ value, result = .ok value → Reports call (rest value)) :
    Reports call (process.bind rest) := by
  intro held ends
  rw [sends_bind quiet]
  rw [run_bind, quiet.run] at ends
  cases result with
  | ok value => exact each value rfl held ends
  | error stop => cases ends

theorem exists_error_of_posts_eq_nil (quiet : posts host call = []) :
    ∃ stop, outcome host call = .error stop := by
  have last : ∀ held issue, Reports call ((ask (.postReceipt held issue)).bind fun confirmed =>
      if confirmed then returned held else thrown (.refused .writeUnconfirmed)) := by
    intro held issue found ends
    simp only [sends, ask, bind_call, Process.run, DanglingCall.perform, List.nil_append]
    split <;> simp [Process.run]
  have reports : Reports call (reconcileDanglingAttempt host call) := by
    simp only [reconcileDanglingAttempt, bind_eq_bind]
    repeat' first
      | exact last _ _
      | (refine reports_bind (quiet_ofExcept _) ?_; intro _ _)
      | (refine reports_bind (quiet_take _) ?_; intro _ _)
  cases ends : outcome host call with
  | error stop => exact ⟨stop, rfl⟩
  | ok held => exact absurd quiet (reports held ends)

variable {round : FiniteNumber → JsNumber} {comments : List Comment} {allowedActorIds : JsValue}

def receiptsOf (round : FiniteNumber → JsNumber) (comments : List Comment)
    (allowedActorIds : JsValue) : List JsValue :=
  (parseReceiptsFromComments round comments allowedActorIds).map Recorded.receipt

def admittedOf (round : FiniteNumber → JsNumber) (comments : List Comment) (allowedActorIds : JsValue)
    (attemptId : JsString) : List Recorded :=
  ofAttempt attemptId (admitted round comments allowedActorIds)

structure ReadsReceipts (call : DanglingCall) (attemptId : JsString) (receipts : List JsValue) :
    Prop where
  attempt : call.attemptId = .string attemptId
  receipts : ∃ read, call.answer .readReceipts = some read ∧
    read.get (js "receipts") = .array receipts

/-- The chain comes to the record that the tick keeps, and where the tick reports a conflict the
operation fails and posts nothing. -/
structure AgreesWithTick (host : ReconcileHost) (call : DanglingCall) (attemptId : JsString)
    (receipts : List JsValue) : Prop where
  current : ∃ state, resolveReceipts host receipts = .ok state ∧
    resolveChain host (.array receipts) attemptId = .ok (state.byAttempt.lookup attemptId)
  refuses : ∀ state, resolveReceipts host receipts = .ok state → attemptId ∈ state.conflicts →
    (∃ stop, outcome host call = .error stop) ∧ posts host call = []

theorem Passes.resolved {receipt posted : JsValue} {receipts : List JsValue}
    (passes : Passes host call receipt posted) (reads : ReadsReceipts call attemptId receipts) :
    resolveChain host (.array receipts) attemptId = .ok (some receipt) := by
  rcases passes.named with ⟨named, read, isNamed, isRead, isReceipt, -⟩
  rcases reads.receipts with ⟨found, isFound, isArray⟩
  cases isFound.symm.trans (answer_of_taken isRead).1
  have isAttempt : attemptId = named := by
    rw [reads.attempt, checkAttemptId] at isNamed
    split_ifs at isNamed
    · exact Except.ok.inj isNamed
    · cases isNamed
  rw [← isAttempt, danglingRecord, isArray] at isReceipt
  rcases bind_eq_ok_iff.mp isReceipt with ⟨resolved, isResolved, isReceipt⟩
  cases resolved with
  | none => cases isReceipt
  | some record =>
      dsimp only at isReceipt
      split at isReceipt
      · cases isReceipt
      · rcases bind_eq_ok_iff.mp isReceipt with ⟨_, -, same⟩
        cases same
        exact isResolved

/-- The two agree when no admitted record disputes another, and else when and only when those in
dispute are not later and the standing record does not pass the operation's checks. -/
theorem agreesWithTick_iff
    (reads : ReadsReceipts call attemptId (receiptsOf round comments allowedActorIds)) :
    AgreesWithTick host call attemptId (receiptsOf round comments allowedActorIds) ↔
      (admittedOf round comments allowedActorIds attemptId).Pairwise
          (fun left right => left.agrees right = true) ∨
        StaysNewest host (admittedOf round comments allowedActorIds attemptId) ∧
          ∀ current ∈ standing (admittedOf round comments allowedActorIds attemptId), ∀ posted,
            ¬Passes host call current.receipt posted := by
  rcases resolveReceipts_thread host (admitted round comments allowedActorIds) with
    ⟨state, isState, resolved⟩
  have chain := @resolveChain_thread_iff host attemptId (admitted round comments allowedActorIds)
  rw [← (resolved attemptId).1] at chain
  have isConflict := (resolved attemptId).2
  have ofState : ∀ found, resolveReceipts host (receiptsOf round comments allowedActorIds) =
      .ok found → found = state := by
    intro found isFound
    cases isState.symm.trans isFound
    rfl
  rw [← disputing_eq_nil_iff]
  constructor
  · intro agrees
    rcases Classical.em (disputing (admittedOf round comments allowedActorIds attemptId) = []) with
      undisputed | disputed
    · exact .inl undisputed
    · rcases agrees.current with ⟨found, isFound, picked⟩
      cases ofState found isFound
      refine .inr ⟨chain.mp picked, fun current isCurrent posted passes => ?_⟩
      have none := (agrees.refuses state isState (isConflict.mpr disputed)).2
      have isPosted := mem_posts.mpr ⟨current.receipt, passes⟩
      rw [none] at isPosted
      cases isPosted
  · rintro (undisputed | ⟨stays, fails⟩)
    · refine ⟨⟨state, isState, chain.mpr ?_⟩, ?_⟩
      · intro current _ record isRecord
        rw [admittedOf] at undisputed
        rw [undisputed] at isRecord
        cases isRecord
      · intro found isFound conflict
        cases ofState found isFound
        exact absurd undisputed (isConflict.mp conflict)
    · have picked := chain.mpr stays
      refine ⟨⟨state, isState, picked⟩, fun _ _ _ => ?_⟩
      have none : posts host call = [] := by
        rw [List.eq_nil_iff_forall_not_mem]
        intro posted isPosted
        rcases mem_posts.mp isPosted with ⟨receipt, passes⟩
        have isReceipt := passes.resolved reads
        rw [receiptsOf, parseReceiptsFromComments, picked, (resolved attemptId).1] at isReceipt
        cases isCurrent : standing (admittedOf round comments allowedActorIds attemptId) with
        | none =>
            rw [admittedOf] at isCurrent
            rw [isCurrent] at isReceipt
            cases isReceipt
        | some current =>
            have same := isCurrent
            rw [admittedOf] at same
            rw [same] at isReceipt
            cases isReceipt
            exact fails current isCurrent posted passes
      exact ⟨exists_error_of_posts_eq_nil none, none⟩

def danglingComment (branch time : JsString) : Comment where
  createdAt := .string time
  userId := .null
  body := .string (receiptCommentBody (.object
    [(js "receipt_version", .string (js "1.0.0")), (js "attempt_id", .string danglingId),
     (js "stage", .string (js "LAUNCH_UNKNOWN")), (js "branch", .string branch),
     (js "last_activity", .string time), (js "notes", .array []), (js "evidence_links", .array []),
     (js "timestamps", .object []), (js "target_sha", .string (js "target")),
     (js "scoped_base_sha", .string (js "base"))]))

def forgedThread : List Comment :=
  [danglingComment (js "one") (js "2026-09-25T10:00:00.000Z"),
   danglingComment (js "two") (js "2026-09-25T11:00:00.000Z")]

def repeatedThread : List Comment :=
  [danglingComment (js "one") (js "2026-09-25T10:00:00.000Z"),
   danglingComment (js "one") (js "2026-09-25T11:00:00.000Z")]

def threadCall (comments : List Comment) : DanglingCall :=
  clearCall (receiptsOf .finite comments .undefined) []

theorem readsReceipts_threadCall (comments : List Comment) :
    ReadsReceipts (threadCall comments) danglingId (receiptsOf .finite comments .undefined) :=
  ⟨rfl, _, rfl, rfl⟩

theorem agreesWithTick_repeated : AgreesWithTick isoHost (threadCall repeatedThread) danglingId
    (receiptsOf .finite repeatedThread .undefined) :=
  (agreesWithTick_iff (readsReceipts_threadCall repeatedThread)).mpr (.inl (by decide +kernel))

/-- The tick reports the conflict, and the operation posts a hold for the later record. -/
theorem not_agreesWithTick_forged :
    ReadsReceipts (threadCall forgedThread) danglingId (receiptsOf .finite forgedThread .undefined) ∧
      ¬AgreesWithTick isoHost (threadCall forgedThread) danglingId
        (receiptsOf .finite forgedThread .undefined) := by
  refine ⟨readsReceipts_threadCall forgedThread, fun agrees => ?_⟩
  rcases agrees.current with ⟨state, isState, -⟩
  have reported : (resolveReceipts isoHost
      (receiptsOf .finite forgedThread .undefined)).toOption.map TickReceipts.conflicts =
        some [danglingId] := by
    decide +kernel
  rw [isState] at reported
  have isConflict : state.conflicts = [danglingId] := Option.some.inj reported
  have isOne : (posts isoHost (threadCall forgedThread)).length = 1 := by decide +kernel
  rw [(agrees.refuses state isState (isConflict ▸ List.mem_singleton_self _)).2] at isOne
  cases isOne

end Operation

end StudentHub.Dangling
