import StudentHub.Capacity.Limits
import StudentHub.Ecma.NumberOrder

/-!
# Batches in any order

Tasks with distinct safe ids are never tied in a batch, so that a batch is gone through in one
order however its tasks are listed, and every task has its answer at its own place.
-/

namespace StudentHub.Capacity

open Ecma JsString

def taskIdOf (task : JsValue) : JsString := ((task.get (js "task_id")).toText).getD []

structure Distinct (tasks : List JsValue) : Prop where
  safe : ∀ task ∈ tasks, ∃ id, safeId? (task.get (js "task_id")) = some id
  ids : (tasks.map taskIdOf).Nodup

/-- Only equal safe identifiers tie. -/
def Unties (localeCompare : Comparator JsString) : Prop :=
  ∀ left right, isSafeId left = true → isSafeId right = true →
    localeCompare.compare left right = 0 → left = right

def rank (task : JsValue) : ℤ := if (task.get (js "role")).isText (js "review") then 0 else 1

def rankOrder : Comparator JsValue where
  compare left right := rank left - rank right
  swap left right := by omega
  trans first second third := by omega

def batchOrder (localeCompare : Comparator JsString) : Comparator JsValue :=
  (rankOrder.orElse (numberOrder.onKey priority)).orElse (localeCompare.onKey taskIdOf)

section Order

variable {localeCompare : Comparator JsString} {tasks : List JsValue}

theorem exists_taskId {task : JsValue} {id : SafeId}
    (isId : safeId? (task.get (js "task_id")) = some id) :
    task.get (js "task_id") = .string id.text ∧ taskIdOf task = id.text := by
  have found := eq_of_safeId? isId
  exact ⟨found, by rw [taskIdOf, found]; rfl⟩

theorem readable_of_safeId {task : JsValue} {id : SafeId}
    (isId : safeId? (task.get (js "task_id")) = some id) : readable task = .ok () := by
  cases task with
  | undefined => cases isId
  | null => cases isId
  | _ => rfl

theorem batchOrder_compare (left right : JsValue) :
    (batchOrder localeCompare).compare left right =
      if rank left ≠ rank right then rank left - rank right
      else if (priority left).compare (priority right) ≠ 0 then
        (priority left).compare (priority right)
      else localeCompare.compare (taskIdOf left) (taskIdOf right) := by
  have byRank : (rankOrder.orElse (numberOrder.onKey priority)).compare left right =
      if rank left - rank right ≠ 0 then rank left - rank right
      else (priority left).compare (priority right) := rfl
  have byId : (batchOrder localeCompare).compare left right =
      if (rankOrder.orElse (numberOrder.onKey priority)).compare left right ≠ 0 then
        (rankOrder.orElse (numberOrder.onKey priority)).compare left right
      else localeCompare.compare (taskIdOf left) (taskIdOf right) := rfl
  rw [byId, byRank]
  split_ifs <;> omega

theorem taskOrder_eq {left right : JsValue} {leftId rightId : SafeId}
    (isLeft : safeId? (left.get (js "task_id")) = some leftId)
    (isRight : safeId? (right.get (js "task_id")) = some rightId) :
    taskOrder localeCompare left right = .ok ((batchOrder localeCompare).compare left right) := by
  rcases exists_taskId isLeft with ⟨leftFound, leftText⟩
  rcases exists_taskId isRight with ⟨rightFound, rightText⟩
  have text : (JsValue.string rightId.text).toText = some rightId.text := rfl
  rw [batchOrder_compare, leftText, rightText]
  simp only [taskOrder, readable_of_safeId isLeft, readable_of_safeId isRight, leftFound, rightFound,
    text]
  show (if rank left ≠ rank right then _ else _) = _
  split
  · rfl
  · split <;> rfl

theorem Distinct.eq_of_ids (distinct : Distinct tasks) {left right : JsValue}
    (leftMem : left ∈ tasks) (rightMem : right ∈ tasks) (same : taskIdOf left = taskIdOf right) :
    left = right :=
  List.inj_on_of_nodup_map distinct.ids leftMem rightMem same

theorem Distinct.of_perm (distinct : Distinct tasks) {again : List JsValue}
    (perm : again.Perm tasks) : Distinct again where
  safe task taskMem := distinct.safe task (perm.mem_iff.mp taskMem)
  ids := (perm.map taskIdOf).nodup_iff.mpr distinct.ids

theorem sort_eq (unties : Unties localeCompare) (distinct : Distinct tasks) {again : List JsValue}
    (perm : again.Perm tasks) :
    (batchOrder localeCompare).sort again = (batchOrder localeCompare).sort tasks := by
  apply Comparator.sort_eq_of_perm perm
  intro left leftMem right rightMem tie
  have leftIn := perm.mem_iff.mp leftMem
  have rightIn := perm.mem_iff.mp rightMem
  rcases distinct.safe left leftIn with ⟨leftId, isLeft⟩
  rcases distinct.safe right rightIn with ⟨rightId, isRight⟩
  apply distinct.eq_of_ids leftIn rightIn
  have idTie : localeCompare.compare (taskIdOf left) (taskIdOf right) = 0 :=
    (Comparator.orElse_compare_eq_zero tie).2
  rw [(exists_taskId isLeft).2, (exists_taskId isRight).2] at idTie
  rw [(exists_taskId isLeft).2, (exists_taskId isRight).2]
  exact unties _ _ leftId.safe rightId.safe idTie

end Order

section Batch

variable {localeCompare : Comparator JsString} {dates : DateParser} {policy : CapacityPolicy}
  {heritage : Heritage} {reading : ClockReading} {tasks : List JsValue}

def reserveInTurn (dates : DateParser) (policy : CapacityPolicy) (heritage : Heritage)
    (reading : ClockReading) : List JsValue → Ledger → Except Thrown (List Outcome × Ledger)
  | [], state => .ok ([], state)
  | task :: others, state => do
      let (outcome, state) ← reserveOne dates policy heritage (fun _ => reading) task state
      let (outcomes, state) ← reserveInTurn dates policy heritage reading others state
      return (outcome :: outcomes, state)

theorem reserveAll_eq (batch : List (JsValue × ℤ)) (state : Ledger) :
    reserveAll dates policy heritage (fun _ => reading) batch state =
      (reserveInTurn dates policy heritage reading (batch.map Prod.fst) state).map fun done =>
        (done.1.zip (batch.map Prod.snd), done.2) := by
  induction batch generalizing state with
  | nil => rfl
  | cons first rest ih =>
      rcases first with ⟨task, inputIndex⟩
      simp only [reserveAll, List.map_cons, reserveInTurn]
      cases reserveOne dates policy heritage (fun _ => reading) task state with
      | error thrown => rfl
      | ok done =>
          show (reserveAll dates policy heritage (fun _ => reading) rest done.2).bind _ =
            ((reserveInTurn dates policy heritage reading (rest.map Prod.fst) done.2).bind _).map _
          rw [ih]
          cases reserveInTurn dates policy heritage reading (rest.map Prod.fst) done.2 with
          | error thrown => rfl
          | ok others => rfl

theorem reserveInTurn_cons {task : JsValue} {state after : Ledger} {outcomes : List Outcome}
    (done : reserveInTurn dates policy heritage reading (task :: tasks) state =
      .ok (outcomes, after)) :
    ∃ outcome next others,
      reserveOne dates policy heritage (fun _ => reading) task state = .ok (outcome, next) ∧
        reserveInTurn dates policy heritage reading tasks next = .ok (others, after) ∧
          outcomes = outcome :: others := by
  rw [reserveInTurn] at done
  rcases bind_eq_ok_iff.mp done with ⟨⟨outcome, next⟩, first, done⟩
  rcases bind_eq_ok_iff.mp done with ⟨⟨others, last⟩, second, done⟩
  cases done
  exact ⟨outcome, next, others, first, second, rfl⟩

theorem exists_outcomes {state after : Ledger} {outcomes : List Outcome}
    (distinct : (tasks.map taskIdOf).Nodup)
    (done : reserveInTurn dates policy heritage reading tasks state = .ok (outcomes, after)) :
    ∃ outcomeOf : JsString → Outcome, outcomes = tasks.map (fun task => outcomeOf (taskIdOf task)) ∧
      ∀ task ∈ tasks, ∃ before later,
        reserveOne dates policy heritage (fun _ => reading) task before =
          .ok (outcomeOf (taskIdOf task), later) := by
  induction tasks generalizing state outcomes with
  | nil =>
      cases done
      exact ⟨fun _ => .moved .reserved, rfl, fun _ taskMem => by cases taskMem⟩
  | cons task rest ih =>
      rw [List.map_cons, List.nodup_cons] at distinct
      rcases reserveInTurn_cons done with ⟨outcome, next, restOutcomes, first, others, rfl⟩
      rcases ih distinct.2 others with ⟨outcomeOf, rfl, own⟩
      have elsewhere : ∀ sibling ∈ rest, Function.update outcomeOf (taskIdOf task) outcome
          (taskIdOf sibling) = outcomeOf (taskIdOf sibling) := by
        intro sibling siblingMem
        apply Function.update_of_ne
        intro same
        exact distinct.1 (same ▸ List.mem_map_of_mem siblingMem)
      refine ⟨Function.update outcomeOf (taskIdOf task) outcome, ?_, ?_⟩
      · rw [List.map_cons, Function.update_self]
        congr 1
        exact List.map_congr_left fun sibling siblingMem => (elsewhere sibling siblingMem).symm
      · intro sibling siblingMem
        rcases List.mem_cons.mp siblingMem with rfl | later
        · rw [Function.update_self]
          exact ⟨state, next, first⟩
        · rw [elsewhere sibling later]
          exact own sibling later

def indexed (tasks : List JsValue) : List (JsValue × ℤ) :=
  tasks.zip ((List.range tasks.length).map Int.ofNat)

theorem map_fst_indexed (tasks : List JsValue) : (indexed tasks).map Prod.fst = tasks := by
  rw [indexed, List.map_fst_zip]
  simp

theorem pairwise_indexed (tasks : List JsValue) :
    (indexed tasks).Pairwise fun left right => left.2 < right.2 := by
  have places : ((indexed tasks).map Prod.snd).Pairwise (· < ·) := by
    rw [indexed, List.map_snd_zip (by simp), List.pairwise_map]
    exact List.pairwise_lt_range.imp fun less => Int.ofNat_lt.mpr less
  rwa [List.pairwise_map] at places

theorem sortBy_place {batch : List (JsValue × ℤ)} (perm : batch.Perm (indexed tasks)) :
    sortBy Prod.snd batch = indexed tasks := by
  have inOrder := pairwise_indexed tasks
  apply ((List.perm_insertionSort _ batch).trans perm).eq_of_pairwise _ (pairwise_sortBy Prod.snd batch)
    (inOrder.imp fun less => less.le)
  intro left right leftMem rightMem notAfter notBefore
  have samePlace : left.2 = right.2 := le_antisymm notAfter notBefore
  have leftIn := perm.mem_iff.mp (mem_sortBy.mp leftMem)
  have places : ((indexed tasks).map Prod.snd).Nodup := by
    rw [List.Nodup, List.pairwise_map]
    exact inOrder.imp fun less => less.ne
  exact List.inj_on_of_nodup_map places leftIn rightMem samePlace

theorem reserveBatch_eq {around : Surroundings} (still : around.now = fun _ => reading)
    (distinct : Distinct tasks) (state : Ledger) :
    reserveBatch localeCompare dates policy around tasks state =
      (reserveInTurn dates policy around.heritage reading ((batchOrder localeCompare).sort tasks)
        state).map fun done =>
          (done.1.zip ((((batchOrder localeCompare).onKey Prod.fst).sort (indexed tasks)).map Prod.snd),
            done.2) := by
  have sorted : sortM (fun left right : JsValue × ℤ => taskOrder localeCompare left.1 right.1)
      (indexed tasks) = .ok (((batchOrder localeCompare).onKey Prod.fst).sort (indexed tasks)) := by
    apply sortM_eq
    intro left leftMem right rightMem
    have isTask : ∀ pair ∈ indexed tasks, pair.1 ∈ tasks := by
      intro pair pairMem
      rw [← map_fst_indexed tasks]
      exact List.mem_map_of_mem pairMem
    rcases distinct.safe left.1 (isTask left leftMem) with ⟨leftId, isLeft⟩
    rcases distinct.safe right.1 (isTask right rightMem) with ⟨rightId, isRight⟩
    exact taskOrder_eq isLeft isRight
  have tasksInOrder := Comparator.map_sort_onKey (batchOrder localeCompare) Prod.fst (indexed tasks)
  rw [map_fst_indexed] at tasksInOrder
  rw [reserveBatch]
  show (sortM (fun left right : JsValue × ℤ => taskOrder localeCompare left.1 right.1)
    (indexed tasks)).bind _ = _
  rw [sorted, still]
  show reserveAll dates policy around.heritage (fun _ => reading) _ state = _
  rw [reserveAll_eq, tasksInOrder]

theorem answerBatch_zip {outcomeOf : JsValue → Outcome} {batch : List (JsValue × ℤ)}
    (perm : batch.Perm (indexed tasks)) :
    answerBatch tasks (.inr (((batch.map Prod.fst).map outcomeOf).zip (batch.map Prod.snd))) =
      .ok (tasks.map outcomeOf) := by
  have paired : ((batch.map Prod.fst).map outcomeOf).zip (batch.map Prod.snd) =
      batch.map fun pair => (outcomeOf pair.1, pair.2) := by
    rw [List.map_map, List.zip_map']
    rfl
  have placed : sortBy Prod.snd (batch.map fun pair => (outcomeOf pair.1, pair.2)) =
      (sortBy Prod.snd batch).map fun pair => (outcomeOf pair.1, pair.2) := by
    symm
    apply List.map_insertionSort
    exact fun _ _ _ _ => Iff.rfl
  have names : (indexed tasks).map (fun pair => outcomeOf pair.1) =
      ((indexed tasks).map Prod.fst).map outcomeOf := by
    rw [List.map_map]
    rfl
  rw [answerBatch, paired, placed, sortBy_place perm, List.map_map]
  show Except.ok ((indexed tasks).map fun pair => outcomeOf pair.1) = _
  rw [names, map_fst_indexed]

end Batch

section Permuted

variable {localeCompare : Comparator JsString} {dates : DateParser} {policy : CapacityPolicy}
  {around : Surroundings} {reading : ClockReading} {tasks : List JsValue} {file : Ledger}

/-- What a batch answers and writes, by task id, however the tasks are listed. The outcome of a
task is the hold of the whole batch, or what reserving this task has given. -/
structure Settles (localeCompare : Comparator JsString) (dates : DateParser)
    (policy : CapacityPolicy) (around : Surroundings) (tasks : List JsValue) (file : Ledger)
    (answer : Except Thrown (JsString → Outcome)) (written : Ledger) : Prop where
  alike : ∀ again : List JsValue, again.Perm tasks →
    reserveMany localeCompare dates policy around (.array again) file =
      (answer.map fun outcomeOf => again.map fun task => outcomeOf (taskIdOf task), written)
  own : ∀ outcomeOf, answer = .ok outcomeOf →
    (∃ held, ∀ task ∈ tasks, outcomeOf (taskIdOf task) = .held held) ∨
      ∀ task ∈ tasks, ∃ before after, reserveOne dates policy around.heritage around.now task before =
        .ok (outcomeOf (taskIdOf task), after)

theorem forM_readable (distinct : Distinct tasks) : tasks.forM readable = .ok () := by
  have general : ∀ some : List JsValue, (∀ task ∈ some, readable task = .ok ()) →
      some.forM readable = .ok () := by
    intro some
    induction some with
    | nil => exact fun _ => rfl
    | cons task rest ih =>
        intro readables
        rw [List.forall_mem_cons] at readables
        show (readable task >>= fun _ => rest.forM readable) = _
        rw [readables.1]
        exact ih readables.2
  apply general
  intro task taskMem
  rcases distinct.safe task taskMem with ⟨id, isId⟩
  exact readable_of_safeId isId

theorem settles_held (distinct : Distinct tasks) {held : Decision}
    (locked : ∀ again : List JsValue, withLock dates around file
      (reserveBatch localeCompare dates policy around again) = (.ok (.inl held), file)) :
    Settles localeCompare dates policy around tasks file (.ok fun _ => .held held) file where
  alike := by
    intro again perm
    have answered : answerBatch again (.inl held) = .ok (again.map fun _ => .held held) := by
      rw [answerBatch, forM_readable (distinct.of_perm perm)]
      rfl
    rw [reserveMany, locked again]
    show (answerBatch again (.inl held), file) = _
    rw [answered]
    rfl
  own := by
    intro outcomeOf same
    cases same
    exact .inl ⟨held, fun _ _ => rfl⟩

theorem settles_thrown {thrown : Thrown}
    (locked : ∀ again : List JsValue, again.Perm tasks → withLock dates around file
      (reserveBatch localeCompare dates policy around again) = (.error thrown, file)) :
    Settles localeCompare dates policy around tasks file (.error thrown) file where
  alike := by
    intro again perm
    rw [reserveMany, locked again perm]
    rfl
  own := by
    intro outcomeOf same
    cases same

/-- A batch is settled in one way for every order in which its tasks are listed. -/
theorem reserveMany_settles (localeCompare : Comparator JsString) (unties : Unties localeCompare)
    (dates : DateParser) (policy : CapacityPolicy) (around : Surroundings)
    (still : around.now = fun _ => reading) (tasks : List JsValue) (distinct : Distinct tasks)
    (file : Ledger) :
    ∃ answer written, Settles localeCompare dates policy around tasks file answer written := by
  -- every order of the list goes through the same tasks in the same order
  have turn : ∀ again : List JsValue, again.Perm tasks →
      ∀ state, reserveBatch localeCompare dates policy around again state =
        (reserveInTurn dates policy around.heritage reading ((batchOrder localeCompare).sort tasks)
          state).map fun done => (done.1.zip
            ((((batchOrder localeCompare).onKey Prod.fst).sort (indexed again)).map Prod.snd), done.2) := by
    intro again perm state
    rw [reserveBatch_eq still (distinct.of_perm perm), sort_eq unties distinct perm]
  by_cases busy : around.disk = .busy
  · exact ⟨_, _, settles_held distinct fun again => by rw [withLock, if_pos busy]⟩
  cases read : readLedger dates file with
  | error thrown =>
      exact ⟨_, _, settles_held distinct fun again => by rw [withLock, if_neg busy, read]⟩
  | ok state =>
      cases done : reserveInTurn dates policy around.heritage reading
          ((batchOrder localeCompare).sort tasks) (expireReservations state (around.now 0)) with
      | error thrown =>
          refine ⟨_, _, @settles_thrown _ _ _ _ _ _ thrown ?_⟩
          intro again perm
          simp only [withLock, if_neg busy, read, turn again perm, done]
          rfl
      | ok result =>
          rcases result with ⟨outcomes, after⟩
          by_cases failing : around.disk = .failing
          · refine ⟨_, _, @settles_thrown _ _ _ _ _ _ (.error (js "the ledger could not be written")) ?_⟩
            intro again perm
            simp only [withLock, if_neg busy, read, turn again perm, done, Except.map, if_pos failing]
            rfl
          · have sortedIds : (((batchOrder localeCompare).sort tasks).map taskIdOf).Nodup :=
              (Comparator.sort_perm.map taskIdOf).nodup_iff.mpr distinct.ids
            rcases exists_outcomes sortedIds done with ⟨outcomeOf, rfl, own⟩
            refine ⟨.ok outcomeOf, after.parsed, ?_, ?_⟩
            · intro again perm
              have inOrder : (((batchOrder localeCompare).onKey Prod.fst).sort (indexed again)).map
                  Prod.fst = (batchOrder localeCompare).sort tasks := by
                rw [Comparator.map_sort_onKey, map_fst_indexed, sort_eq unties distinct perm]
              have answered := @answerBatch_zip again (fun task => outcomeOf (taskIdOf task)) _
                (@Comparator.sort_perm _ ((batchOrder localeCompare).onKey Prod.fst) (indexed again))
              rw [inOrder] at answered
              have locked : withLock dates around file
                  (reserveBatch localeCompare dates policy around again) =
                    (.ok (.inr ((((batchOrder localeCompare).sort tasks).map fun task =>
                      outcomeOf (taskIdOf task)).zip ((((batchOrder localeCompare).onKey
                        Prod.fst).sort (indexed again)).map Prod.snd))), after.parsed) := by
                simp only [withLock, if_neg busy, read, turn again perm, done, Except.map,
                  if_neg failing]
              rw [reserveMany, locked]
              exact congrArg (fun answer => (answer, after.parsed)) answered
            · intro outcomeOf' same
              cases same
              refine .inr fun task taskMem => ?_
              rw [still]
              exact own task (Comparator.mem_sort.mpr taskMem)

theorem unties_codeUnitOrder : Unties codeUnitOrder := by
  intro left right _ _ tie
  have same : left.map UInt16.toNat = right.map UInt16.toNat :=
    Comparator.eq_of_ofOrder_compare_eq_zero tie
  exact List.map_injective_iff.mpr (fun _ _ => UInt16.toNat_inj.mp) same

/-- Two tasks for one place in the budget. -/
theorem reserveMany_settles_brick : ∃ answer written,
    Settles codeUnitOrder .iso twoTaskPolicy (clockAt 0)
      [buildTask (js "a") (js "brick"), buildTask (js "b") (js "brick")] .empty answer written := by
  refine reserveMany_settles codeUnitOrder unties_codeUnitOrder .iso twoTaskPolicy (clockAt 0) rfl _
    ⟨?_, by decide⟩ .empty
  intro task taskMem
  simp only [List.mem_cons, List.not_mem_nil, or_false] at taskMem
  rcases taskMem with rfl | rfl
  · exact ⟨⟨js "a", by decide⟩, rfl⟩
  · exact ⟨⟨js "b", by decide⟩, rfl⟩

end Permuted

end StudentHub.Capacity
