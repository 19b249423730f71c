import StudentHub.Ecma.Arrays
import StudentHub.Search.Indexer

/-!
# The alias of the candidate index

A collection that a publication fills is empty or holds its documents, and the alias is switched
to a collection that holds them. It stays so while no publication that fails deletes a collection
that the alias names, or that another one is about to give it.
-/

namespace StudentHub.Search

open Ecma JsString Concurrency Process TaskWorld Order

theorem checkIds_ok {documents : List SearchDocument} {ids : List JsString}
    (checked : checkIds ids documents = .ok ()) :
    (documents.map SearchDocument.id).Nodup ∧ ∀ document ∈ documents, document.id ∉ ids := by
  induction documents generalizing ids with
  | nil => simp
  | cons document rest ih =>
      rw [checkIds] at checked
      split_ifs at checked with isEmpty isKnown
      obtain ⟨differ, fresh⟩ := ih checked
      refine ⟨?_, ?_⟩
      · rw [List.map_cons, List.nodup_cons]
        refine ⟨?_, differ⟩
        intro isLater
        obtain ⟨other, otherMem, sameId⟩ := List.mem_map.mp isLater
        exact fresh other otherMem (sameId ▸ List.mem_cons_self)
      · intro other otherMem
        rcases List.mem_cons.mp otherMem with rfl | isRest
        · exact isKnown
        · intro isOld
          exact fresh other isRest (List.mem_cons_of_mem _ isOld)

variable {indexing : Indexing}

theorem canonicalDocuments_ok {documents canonical : List SearchDocument}
    (isCanonical : indexing.canonicalDocuments documents = .ok canonical) :
    (canonical.map SearchDocument.id).Nodup ∧ canonical.Perm documents := by
  obtain ⟨_, checked, sorted⟩ := Ecma.bind_eq_ok_iff.mp isCanonical
  cases sorted
  have perm : ((indexing.localeCompare.onKey SearchDocument.id).sort documents).Perm documents :=
    Comparator.sort_perm
  exact ⟨(perm.map SearchDocument.id).nodup_iff.mpr (checkIds_ok checked).1, perm⟩

def Exactly (contents : Contents) (documents : List SearchDocument) : Prop :=
  ∀ id, contents.get? id = (upsert .empty documents).get? id

theorem upsert_exactly {contents : Contents} {documents : List SearchDocument}
    (holds : contents = .empty ∨ Exactly contents documents) :
    Exactly (upsert contents documents) documents := by
  intro id
  simp only [upsert, OrderedMap.get?_foldl_set, OrderedMap.get?_empty, Option.or_none]
  rcases holds with rfl | exactly
  · simp
  · rw [exactly id]
    simp [upsert, OrderedMap.get?_foldl_set]

theorem Exactly.mem_values_iff {contents : Contents} {documents : List SearchDocument}
    (exactly : Exactly contents documents) (differ : (documents.map SearchDocument.id).Nodup)
    (document : SearchDocument) : document ∈ contents.values ↔ document ∈ documents := by
  have distinct : ((documents.map fun document => (document.id, document)).map Prod.fst).Nodup := by
    simpa [List.map_map, Function.comp_def] using differ
  have pairs : ∀ id, contents.get? id = some document ↔
      (id, document) ∈ documents.map fun document => (document.id, document) := by
    intro id
    rw [exactly id]
    exact OrderedMap.get?_ofList_iff distinct
  rw [OrderedMap.mem_values_iff]
  simp only [pairs, List.mem_map, Prod.mk.injEq]
  constructor
  · rintro ⟨_, other, otherMem, -, rfl⟩
    exact otherMem
  · intro isMem
    exact ⟨_, document, isMem, rfl, rfl⟩

variable {Index : Type} (indexing) (documents : Index → List SearchDocument)

def Publishes (canonical : List SearchDocument) : Prop :=
  canonical.length ≠ 0 ∧
    ∃ index, indexing.canonicalDocuments (documents index) = .ok canonical

/-- No two document lists share the prefix of their digests. -/
def PrefixesDiffer : Prop :=
  ∀ left right, Publishes indexing documents left → Publishes indexing documents right →
    indexing.collectionName left = indexing.collectionName right → left = right

def Filled (service : Typesense) (canonical : List SearchDocument) : Prop :=
  ∃ contents, service.collections.get? (indexing.collectionName canonical) = some contents ∧
    Exactly contents canonical

structure Kept (service : Typesense) : Prop where
  contents : ∀ canonical, Publishes indexing documents canonical → ∀ contents,
    service.collections.get? (indexing.collectionName canonical) = some contents →
      contents = .empty ∨ Exactly contents canonical
  aliased : ∀ name, service.aliased = some name → ∃ canonical,
    Publishes indexing documents canonical ∧ indexing.collectionName canonical = name ∧
      Filled indexing service canonical

inductive Asks (service : Typesense) : IndexOp → Prop
  | lookup {name : JsString} : Asks service (.getCollection name)
  | create {name : JsString} : Asks service (.createCollection name)
  | load {canonical : List SearchDocument} (publishes : Publishes indexing documents canonical) :
      Asks service (.importDocuments (indexing.collectionName canonical) canonical)
  | switch {canonical : List SearchDocument} (publishes : Publishes indexing documents canonical)
      (filled : Filled indexing service canonical) :
      Asks service (.putAlias (indexing.collectionName canonical))
  | delete {name : JsString} (unused : service.aliased ≠ some name) :
      Asks service (.deleteCollection name)

variable {indexing documents} {service : Typesense}

theorem Filled.congr {after : Typesense} {canonical : List SearchDocument}
    (filled : Filled indexing service canonical)
    (same : after.collections.get? (indexing.collectionName canonical) =
      service.collections.get? (indexing.collectionName canonical)) :
    Filled indexing after canonical := by
  obtain ⟨contents, found, exactly⟩ := filled
  exact ⟨contents, same.trans found, exactly⟩

theorem Filled.serve (distinct : PrefixesDiffer indexing documents) {op : IndexOp}
    (kept : Kept indexing documents service) (asks : Asks indexing documents service op)
    {canonical : List SearchDocument} (publishes : Publishes indexing documents canonical)
    (stays : op ≠ .deleteCollection (indexing.collectionName canonical))
    (filled : Filled indexing service canonical) :
    Filled indexing (service.serve op).2 canonical := by
  cases asks with
  | lookup =>
      simp only [Typesense.serve]
      split <;> exact filled
  | @create name =>
      simp only [Typesense.serve]
      split
      · exact filled
      · rename_i absent
        apply filled.congr
        apply OrderedMap.get?_set_of_ne
        rintro same
        obtain ⟨contents, found, -⟩ := filled
        rw [same, absent] at found
        cases found
  | @load loaded loadedPublishes =>
      simp only [Typesense.serve]
      split
      · rename_i contents found
        by_cases same : indexing.collectionName canonical = indexing.collectionName loaded
        · cases distinct _ _ publishes loadedPublishes same
          refine ⟨_, OrderedMap.get?_set_self _ _ _, ?_⟩
          exact upsert_exactly (kept.contents _ publishes _ found)
        · exact filled.congr (OrderedMap.get?_set_of_ne _ _ same)
      · exact filled
  | switch => exact filled
  | @delete name unused =>
      simp only [Typesense.serve]
      split
      · apply filled.congr
        rw [OrderedMap.get?_delete, if_neg]
        rintro rfl
        exact stays rfl
      · exact filled

theorem aliased_serve {op : IndexOp} (noSwitch : ∀ name, op ≠ .putAlias name) :
    (service.serve op).2.aliased = service.aliased := by
  cases op with
  | putAlias name => exact absurd rfl (noSwitch name)
  | getCollection | createCollection | importDocuments | deleteCollection =>
      simp only [Typesense.serve]
      split <;> rfl

theorem Kept.contents_serve (distinct : PrefixesDiffer indexing documents) {op : IndexOp}
    (kept : Kept indexing documents service) (asks : Asks indexing documents service op)
    {canonical : List SearchDocument} (publishes : Publishes indexing documents canonical)
    {contents : Contents} (found : (service.serve op).2.collections.get?
      (indexing.collectionName canonical) = some contents) :
    contents = .empty ∨ Exactly contents canonical := by
  have before := kept.contents canonical publishes
  cases asks with
  | lookup =>
      simp only [Typesense.serve] at found
      split at found <;> exact before contents found
  | create =>
      simp only [Typesense.serve] at found
      split at found
      · exact before contents found
      · rw [OrderedMap.get?_set] at found
        split_ifs at found
        · exact .inl (Option.some.inj found).symm
        · exact before contents found
  | load loadedPublishes =>
      simp only [Typesense.serve] at found
      split at found
      · rename_i loaded isLoaded
        rw [OrderedMap.get?_set] at found
        split_ifs at found with same
        · cases distinct _ _ publishes loadedPublishes same
          rw [← Option.some.inj found]
          exact .inr (upsert_exactly (before loaded isLoaded))
        · exact before contents found
      · exact before contents found
  | switch => exact before contents found
  | delete =>
      simp only [Typesense.serve] at found
      split at found
      · rw [OrderedMap.get?_delete] at found
        split_ifs at found
        exact before contents found
      · exact before contents found

theorem Kept.serve (distinct : PrefixesDiffer indexing documents) {op : IndexOp}
    (kept : Kept indexing documents service) (asks : Asks indexing documents service op) :
    Kept indexing documents (service.serve op).2 := by
  refine ⟨fun _ publishes _ found => kept.contents_serve distinct asks publishes found, ?_⟩
  intro name isAliased
  by_cases switches : ∃ switched, op = .putAlias switched
  · obtain ⟨switched, rfl⟩ := switches
    cases asks with
    | switch publishes filled =>
        cases isAliased
        exact ⟨_, publishes, rfl, filled⟩
  · have noSwitch : ∀ switched, op ≠ .putAlias switched := fun switched isSwitch =>
      switches ⟨switched, isSwitch⟩
    rw [aliased_serve noSwitch] at isAliased
    obtain ⟨canonical, publishes, rfl, filled⟩ := kept.aliased name isAliased
    refine ⟨canonical, publishes, rfl, filled.serve distinct kept asks publishes ?_⟩
    rintro rfl
    cases asks with
    | delete unused => exact unused isAliased

def settle (indexing : Indexing) (canonical : List SearchDocument) (created : Bool) :
    Except PublishError Unit → Work Publication
  | .ok () => returned ⟨indexing.collectionName canonical, indexing.digest canonical,
      canonical.length⟩
  | .error error => fails (indexing.collectionName canonical) created error

inductive Stage (indexing : Indexing) (documents : Index → List SearchDocument)
    (service : Typesense) : Work Publication → Prop
  | published {publication : Publication} : Stage indexing documents service (returned publication)
  | failed {error : PublishError} : Stage indexing documents service (thrown error)
  | ensures {canonical : List SearchDocument} (publishes : Publishes indexing documents canonical) :
      Stage indexing documents service
        ((ensureCollection (indexing.collectionName canonical)).bind
          (publishInto indexing canonical))
  | creates {canonical : List SearchDocument} (publishes : Publishes indexing documents canonical) :
      Stage indexing documents service
        ((createCollection (indexing.collectionName canonical)).bind
          (publishInto indexing canonical))
  | imports {canonical : List SearchDocument} (publishes : Publishes indexing documents canonical)
      {created : Bool} : Stage indexing documents service (publishInto indexing canonical created)
  | verifies {canonical : List SearchDocument} (publishes : Publishes indexing documents canonical)
      {created : Bool} : Stage indexing documents service
        (((verifyCount (indexing.collectionName canonical) canonical.length).bind fun _ =>
          switchAlias (indexing.collectionName canonical)).attempt.bind
            (settle indexing canonical created))
  | switches {canonical : List SearchDocument} (publishes : Publishes indexing documents canonical)
      (filled : Filled indexing service canonical) {created : Bool} :
      Stage indexing documents service
        ((switchAlias (indexing.collectionName canonical)).attempt.bind
          (settle indexing canonical created))
  | deletes {collection : JsString} {error : PublishError} :
      Stage indexing documents service (fails collection true error)

theorem stage_settle_error {canonical : List SearchDocument} {created : Bool}
    {error : PublishError} :
    Stage indexing documents service (settle indexing canonical created (.error error)) := by
  cases created with
  | true => exact .deletes
  | false => exact .failed

theorem stage_checked {canonical : List SearchDocument} {created : Bool}
    {check : Except PublishError Unit} {more : Work Unit}
    (goesOn : check = .ok () →
      Stage indexing documents service (more.attempt.bind (settle indexing canonical created))) :
    Stage indexing documents service
      (((ofExcept check).bind fun _ => more).attempt.bind (settle indexing canonical created)) := by
  cases check with
  | ok _ => exact goesOn rfl
  | error error => exact stage_settle_error

theorem stage_settled {canonical : List SearchDocument} {created : Bool}
    (check : Except PublishError Unit) :
    Stage indexing documents service
      ((ofExcept check).attempt.bind (settle indexing canonical created)) := by
  cases check with
  | ok _ => exact .published
  | error error => exact stage_settle_error

theorem stage_publish (index : Index) :
    Stage indexing documents service (publish indexing (documents index)) := by
  unfold publish
  cases isCanonical : indexing.canonicalDocuments (documents index) with
  | error error => exact .failed
  | ok canonical =>
      simp only [ofExcept_ok, bind_eq_bind, bind_returned]
      split
      · exact .failed
      · rename_i isNonempty
        exact .ensures ⟨isNonempty, index, isCanonical⟩

variable {op : IndexOp} {rest : Option Response → Work Publication}

theorem Stage.asks (stage : Stage indexing documents service (perform op rest))
    (unused : ∀ name, op = .deleteCollection name → service.aliased ≠ some name) :
    Asks indexing documents service op := by
  generalize isProcess : (perform op rest : Work Publication) = process at stage
  cases stage with
  | published | failed => cases isProcess
  | ensures => cases isProcess; exact .lookup
  | creates => cases isProcess; exact .create
  | imports publishes => cases isProcess; exact .load publishes
  | verifies => cases isProcess; exact .lookup
  | switches publishes filled => cases isProcess; exact .switch publishes filled
  | deletes => cases isProcess; exact .delete (unused _ rfl)

theorem handle_getCollection (me : ℕ) (name : JsString) (fate : Fate) :
    (handle me (.getCollection name) fate service).2 = service := by
  cases fate with
  | done | lost =>
      simp only [handle, Typesense.serve]
      split <;> rfl
  | refused | failed => rfl

theorem filled_of_checkCount {canonical : List SearchDocument} {fate : Fate} {me : ℕ}
    (kept : Kept indexing documents service) (publishes : Publishes indexing documents canonical)
    (checked : checkCount canonical.length (handle me
      (.getCollection (indexing.collectionName canonical)) fate service).1 = .ok ()) :
    Filled indexing service canonical := by
  cases fate with
  | done =>
      simp only [handle, Typesense.serve] at checked
      split at checked
      · rename_i contents found
        refine ⟨contents, found, ?_⟩
        rcases kept.contents canonical publishes contents found with rfl | exactly
        · have counted : (OrderedMap.empty : Contents).size = canonical.length := by
            by_contra miscounted
            simp [checkCount, Response.ok, miscounted] at checked
          exact absurd counted.symm publishes.1
        · exact exactly
      · simp [checkCount, Response.ok] at checked
  | lost => simp [handle, checkCount] at checked
  | refused refusal =>
      have isError := refusal.isError.1
      have notOk : Response.ok ⟨refusal.status, .other⟩ = false := by
        simp only [Response.ok, Bool.and_eq_false_iff, decide_eq_false_iff_not]
        omega
      simp [handle, checkCount, notOk] at checked
  | failed => simp [handle, checkCount] at checked

theorem Stage.next (kept : Kept indexing documents service)
    (stage : Stage indexing documents service (perform op rest)) (me : ℕ) (fate : Fate) :
    Stage indexing documents (handle me op fate service).2
      (rest (handle me op fate service).1) := by
  generalize isProcess : (perform op rest : Work Publication) = process at stage
  cases stage with
  | published | failed => cases isProcess
  | @ensures canonical publishes =>
      cases isProcess
      generalize (handle me _ fate service).1 = answer
      cases answer with
      | none => exact .failed
      | some existing =>
          simp only
          split_ifs
          · exact .imports publishes
          · exact .failed
          · exact .creates publishes
  | @creates canonical publishes =>
      cases isProcess
      generalize (handle me _ fate service).1 = answer
      cases answer with
      | none => exact .failed
      | some created =>
          simp only
          split_ifs
          · exact .failed
          · exact .imports publishes
  | imports publishes =>
      cases isProcess
      exact stage_checked fun _ => .verifies publishes
  | verifies publishes =>
      cases isProcess
      apply stage_checked
      intro checked
      have filled := filled_of_checkCount kept publishes checked
      exact .switches publishes (filled.congr (by rw [handle_getCollection]))
  | switches =>
      cases isProcess
      exact stage_settled _
  | deletes =>
      cases isProcess
      exact .failed

theorem Stage.other {after : Typesense} {process : Work Publication}
    (stage : Stage indexing documents service process)
    (stays : ∀ canonical rest, Publishes indexing documents canonical →
      process = perform (.putAlias (indexing.collectionName canonical)) rest →
        Filled indexing service canonical → Filled indexing after canonical) :
    Stage indexing documents after process := by
  cases stage with
  | published => exact .published
  | failed => exact .failed
  | ensures publishes => exact .ensures publishes
  | creates publishes => exact .creates publishes
  | imports publishes => exact .imports publishes
  | verifies publishes => exact .verifies publishes
  | switches publishes filled => exact .switches publishes (stays _ _ publishes rfl filled)
  | deletes => exact .deletes

def publishers (indexing : Indexing) (documents : Index → List SearchDocument) :
    Crew IndexOp.Answer PublishError Publication Typesense where
  Global service := Kept indexing documents service
  Local _ process service := Stage indexing documents service process

abbrev SearchWorld := TaskWorld IndexOp.Answer PublishError Publication Typesense

/-- A collection is not deleted while the alias names it, or a publication that has verified it
is about to switch the alias to it. -/
def DeletesUnused : Condition IndexOp.Answer PublishError Publication Fate Typesense :=
  fun world _ op fate =>
    match op with
    | .deleteCollection name => fate.isEffective = true → world.state.aliased ≠ some name ∧
        ∀ other < world.tasks.length, world.nextOp? other ≠ some (.putAlias name)
    | _ => True

theorem publishers_work (distinct : PrefixesDiffer indexing documents) :
    (publishers indexing documents).Works handle (fun index => publish indexing (documents index))
      DeletesUnused := by
  refine ⟨fun _ index _ => stage_publish index, ?_⟩
  intro world me op rest fate holds left permitted
  have kept : Kept indexing documents world.state := holds.shared
  have stage : Stage indexing documents world.state (perform op rest) := holds.each me _ left
  by_cases isEffective : fate.isEffective = true
  · have after : (handle me op fate world.state).2 = (world.state.serve op).2 := by
      cases fate <;> first | rfl | cases isEffective
    have asks : Asks indexing documents world.state op := by
      apply stage.asks
      rintro name rfl
      exact (permitted isEffective).1
    refine ⟨?_, stage.next kept me fate, ?_⟩
    · rw [after]
      exact kept.serve distinct asks
    · intro other process _ isLeft
      rw [after]
      apply (holds.each other process isLeft).other
      rintro canonical switches publishes rfl filled
      apply filled.serve distinct kept asks publishes
      rintro rfl
      exact (permitted isEffective).2 other (lt_of_left? isLeft) (nextOp?_of_left? isLeft)
  · have after : (handle me op fate world.state).2 = world.state := by
      cases fate <;> first | rfl | exact absurd rfl isEffective
    refine ⟨?_, stage.next kept me fate, ?_⟩
    · rw [after]
      exact kept
    · intro other process _ isLeft
      rw [after]
      exact holds.each other process isLeft

/-- What has become of Typesense. -/
abbrev searchRun (indexing : Indexing) (documents : Index → List SearchDocument)
    (events : List (TaskEvent Index Fate)) : SearchWorld :=
  (TaskWorld.initial .initial).run handle (fun index => publish indexing (documents index)) events

/-- The publication of the index is that of a collection. -/
def PublishesTo (indexing : Indexing) (documents : Index → List SearchDocument) (index : Index)
    (name : JsString) : Prop :=
  ∃ canonical, indexing.canonicalDocuments (documents index) = .ok canonical ∧
    canonical.length ≠ 0 ∧ indexing.collectionName canonical = name

/-- Once it is set, the alias names a collection that is there and holds exactly the documents of
the publication that it was set for. -/
theorem alias_names_publication (indexing : Indexing) (documents : Index → List SearchDocument)
    (distinct : PrefixesDiffer indexing documents) (events : List (TaskEvent Index Fate))
    (meets : MeetsThroughout handle (fun index => publish indexing (documents index)) DeletesUnused
      (TaskWorld.initial .initial) events) (name : JsString)
    (isAliased : (searchRun indexing documents events).state.aliased = some name) :
    ∃ contents, (searchRun indexing documents events).state.collections.get? name =
        some contents ∧
      (∃ index, PublishesTo indexing documents index name) ∧
      ∀ index, PublishesTo indexing documents index name →
        ∀ document, document ∈ contents.values ↔ document ∈ documents index := by
  have initially : (publishers indexing documents).Global .initial :=
    ⟨by simp [Typesense.initial], nofun⟩
  have holds := (Crew.holds_initial initially).run (publishers_work distinct) meets
  obtain ⟨canonical, publishes, isName, contents, found, exactly⟩ :=
    holds.shared.aliased name isAliased
  refine ⟨contents, isName ▸ found, ?_, ?_⟩
  · obtain ⟨isNonempty, index, isCanonical⟩ := publishes
    exact ⟨index, canonical, isCanonical, isNonempty, isName⟩
  · rintro index ⟨other, isCanonical, isNonempty, isNameToo⟩ document
    cases distinct _ _ publishes ⟨isNonempty, index, isCanonical⟩ (isName.trans isNameToo.symm)
    obtain ⟨differ, perm⟩ := canonicalDocuments_ok isCanonical
    rw [exactly.mem_values_iff differ, perm.mem_iff]

instance (world : SearchWorld) (me : ℕ) (op : IndexOp) (fate : Fate) :
    Decidable (DeletesUnused world me op fate) :=
  match op with
  | .deleteCollection name =>
      inferInstanceAs (Decidable (fate.isEffective = true → world.state.aliased ≠ some name ∧
        ∀ other < world.tasks.length, world.nextOp? other ≠ some (.putAlias name)))
  | .getCollection _ | .createCollection _ | .importDocuments .. | .putAlias _ => .isTrue trivial

/-! Two publications of one document each. -/

def plainIndexing : Indexing where
  aliasName := js "candidates"
  localeCompare := ⟨fun _ _ => 0, by simp, by simp⟩
  digest documents := documents.flatMap SearchDocument.id

def documentOf (id : JsString) : SearchDocument :=
  ⟨id, [], [], [], [], [], none, [], [], [], [], [], [], true, .nan, .nan⟩

def anaOrBadr (first : Bool) : List SearchDocument :=
  [documentOf (if first then js "ana" else js "badr")]

theorem prefixesDiffer_anaOrBadr : PrefixesDiffer plainIndexing anaOrBadr := by
  have canonical : ∀ first, plainIndexing.canonicalDocuments (anaOrBadr first) =
      .ok (anaOrBadr first) := by
    intro first
    cases first <;> rfl
  rintro left right ⟨-, first, isLeft⟩ ⟨-, second, isRight⟩ same
  rw [canonical, Except.ok.injEq] at isLeft isRight
  subst isLeft isRight
  cases first <;> cases second <;> first | rfl | exact absurd same (by decide +kernel)

def publishedInTurn : List (TaskEvent Bool Fate) :=
  [.start true, .start false, .step 0 .done, .step 0 .done, .step 0 .done, .step 0 .done,
    .step 0 .done, .step 1 .done, .step 1 .done, .step 1 (.refused ⟨503, by decide⟩), .step 1 .done]

def switchedUnanswered : List (TaskEvent Bool Fate) :=
  [.start true, .step 0 .done, .step 0 .done, .step 0 .done, .step 0 .done, .step 0 .lost,
    .step 0 .done]

/-- The import of the first publication fails after the second one has switched the alias. -/
def publishedTwice : List (TaskEvent Bool Fate) :=
  [.start true, .step 0 .done, .step 0 .done, .start true, .step 1 .done, .step 1 .done,
    .step 1 .done, .step 1 .done, .step 0 .failed, .step 0 .done]

theorem alias_names_publication_in_turn :
    (searchRun plainIndexing anaOrBadr publishedInTurn).state.aliased =
        some (js "candidates_v1_ana") ∧
      ∃ contents, (searchRun plainIndexing anaOrBadr publishedInTurn).state.collections.get?
        (js "candidates_v1_ana") = some contents := by
  have isAliased : (searchRun plainIndexing anaOrBadr publishedInTurn).state.aliased =
      some (js "candidates_v1_ana") := by decide +kernel
  obtain ⟨contents, found, -⟩ := alias_names_publication plainIndexing anaOrBadr
    prefixesDiffer_anaOrBadr publishedInTurn (by decide +kernel) _ isAliased
  exact ⟨isAliased, contents, found⟩

/-- In both runs the call that fails deletes the collection that the alias names. -/
theorem alias_names_nothing :
    ¬ (∀ (indexing : Indexing) (documents : Bool → List SearchDocument),
      PrefixesDiffer indexing documents → ∀ (events : List (TaskEvent Bool Fate)) name,
        (searchRun indexing documents events).state.aliased = some name →
          ∃ contents, (searchRun indexing documents events).state.collections.get? name =
            some contents) ∧
    (searchRun plainIndexing anaOrBadr switchedUnanswered).state.aliased =
        some (js "candidates_v1_ana") ∧
      (searchRun plainIndexing anaOrBadr switchedUnanswered).state.collections.get?
        (js "candidates_v1_ana") = none ∧
    (searchRun plainIndexing anaOrBadr publishedTwice).state.aliased =
        some (js "candidates_v1_ana") ∧
      (searchRun plainIndexing anaOrBadr publishedTwice).state.collections.get?
        (js "candidates_v1_ana") = none := by
  have isAliased : (searchRun plainIndexing anaOrBadr switchedUnanswered).state.aliased =
      some (js "candidates_v1_ana") := by decide +kernel
  have isGone : (searchRun plainIndexing anaOrBadr switchedUnanswered).state.collections.get?
      (js "candidates_v1_ana") = none := by decide +kernel
  refine ⟨?_, isAliased, isGone, by decide +kernel, by decide +kernel⟩
  intro always
  obtain ⟨contents, found⟩ := always _ _ prefixesDiffer_anaOrBadr _ _ isAliased
  rw [isGone] at found
  cases found

end StudentHub.Search
