import StudentHub.Ecma.Objects
import StudentHub.Search.FilterBy

/-!
# Searches for candidates

`TypesenseCandidateSearchAdapter` sends one search for the results and one for each facet, with a
filter that is written from the scope, the constraints and the filters of the request. The filter is
read as their conjunction, whatever texts they hold, so that no search leaves the scope.
-/

namespace StudentHub.Search

open Ecma JsString JsValue

inductive CandidateSearchFacet
  | country
  | university
  | company
  | skill
  | gender
  | profile
  | assignment
  | document
  deriving DecidableEq

open CandidateSearchFacet

def CANDIDATE_SEARCH_FACETS : List CandidateSearchFacet :=
  [country, university, company, skill, gender, profile, assignment, document]

def CandidateSearchFacet.text : CandidateSearchFacet → JsString
  | country => js "country"
  | university => js "university"
  | company => js "company"
  | skill => js "skill"
  | gender => js "gender"
  | profile => js "profile"
  | assignment => js "assignment"
  | document => js "document"

/-- `FIELD_BY_FACET` -/
def CandidateSearchFacet.field : CandidateSearchFacet → JsString
  | skill => js "skills"
  | document => js "documents"
  | facet => facet.text

def SORT_BY : List (JsString × JsValue) :=
  [(js "relevance", .undefined), (js "score-ascending", .string (js "score:asc")),
    (js "score-descending", .string (js "score:desc")),
    (js "updated-descending", .string (js "updatedAtEpoch:desc"))]

/-- A `TypeError`, with its text if the adapter gives it one. -/
inductive SearchRefusal
  | refused (text : JsString)
  | thrown
  deriving DecidableEq

def require (condition : Bool) (text : JsString) : Except SearchRefusal Unit :=
  if condition then .ok () else .error (.refused text)

/-- `positiveInteger` -/
def positiveNumber (value : JsValue) (name : JsString) (maximum : ℕ) : Except SearchRefusal ℕ :=
  match (positiveInteger value).filter fun found => found.value ≤ maximum with
  | some found => .ok found.value
  | none => .error (.refused (name ++ js " must be an integer between 1 and " ++ decimal maximum))

def stringOf : JsValue → Option JsString
  | .string text => some text
  | _ => none

/-- The texts of an array that `isStringArray` accepts. -/
def stringArray (value : JsValue) : Option (List JsString) :=
  value.items?.bind fun items => items.mapM stringOf

/-- `[...new Set(values.map((value) => value.trim()).filter(Boolean))]` -/
def distinctTexts (texts : List JsString) : List JsString :=
  distinctBy id ((texts.map trim).filter (· ≠ []))

/-- What `validateFilterLiteral` lets pass: no ``/[`\\\u0000-\u001f\u007f]/u``. -/
def isFilterLiteral (value : JsString) : Bool :=
  value.all fun unit => !(unit = 96 || unit = 92 || unit ≤ 0x1F || unit = 0x7F)

def unsupportedSyntax : JsString :=
  js "candidate search filter values contain unsupported syntax characters"

/-- `(request.query ?? "").trim()` -/
def queryText : JsValue → Except SearchRefusal JsString
  | .undefined | .null => .ok []
  | .string query => .ok query.trim
  | _ => .error .thrown

/-- The value that is sorted by. A key may be one that `Object.prototype` has. -/
def sortValue (inherited : JsString → Option JsValue) (sort : JsValue) : Except SearchRefusal JsValue :=
  let found (key : JsString) : Option JsValue := (SORT_BY.lookup key).or (inherited key)
  match sort, sort.toText with
  | .undefined, _ => .ok .undefined
  | _, none => .error .thrown
  | .null, some key =>
      if (found key).isSome then .ok .undefined
      else .error (.refused (js "candidate search sort is invalid"))
  | _, some key => (found key).elim (.error (.refused (js "candidate search sort is invalid"))) .ok

abbrev NormalizedFilters := List (CandidateSearchFacet × List JsString)

/-- `filters[facet] ?? []` -/
def valuesOf (filters : NormalizedFilters) (facet : CandidateSearchFacet) : List JsString :=
  (filters.lookup facet).getD []

def filterTexts (facet : CandidateSearchFacet) : JsValue → Except SearchRefusal (List JsString)
  | .undefined => .ok []
  | rawValues =>
      (stringArray rawValues).elim (.error (.refused (facet.text ++ js " filter must be an array"))) .ok

def normalizeFacet (filters : JsValue) (facet : CandidateSearchFacet) :
    Except SearchRefusal (CandidateSearchFacet × List JsString) := do
  let texts ← filterTexts facet (filters.get facet.text)
  let values := distinctTexts texts
  require (values.length ≤ 100) (facet.text ++ js " filter must not exceed 100 values")
  require (values.all fun value => value.length ≤ 200)
    (facet.text ++ js " filter values must not exceed 200 characters")
  require (values.all isFilterLiteral) unsupportedSyntax
  return (facet, values)

def normalizeFilters (filters : JsValue) : Except SearchRefusal NormalizedFilters := do
  require filters.isPlainObject (js "candidate search filters must be an object")
  CANDIDATE_SEARCH_FACETS.mapM (normalizeFacet filters)

structure CandidateSearchConstraints where
  status : Option (List JsString)
  approved : Option Bool

def statusConstraint : JsValue → Except SearchRefusal (Option (List JsString))
  | .undefined => .ok none
  | status =>
      match (stringArray status).filter fun texts =>
          texts.all fun text => text = js "active" || text = js "inactive" with
      | some texts => .ok (some texts)
      | none => .error (.refused (js "candidate status constraints are invalid"))

def approvalConstraint : JsValue → Except SearchRefusal (Option Bool)
  | .undefined => .ok none
  | .boolean approved => .ok (some approved)
  | _ => .error (.refused (js "candidate approval constraint must be boolean"))

def normalizeConstraints (value : JsValue) : Except SearchRefusal CandidateSearchConstraints := do
  require value.isPlainObject (js "candidate search constraints must be an object")
  let status ← statusConstraint (value.get (js "status"))
  let approved ← approvalConstraint (value.get (js "approved"))
  return ⟨status, approved⟩

def normalizeVisibleIds (values : List JsString) : Except SearchRefusal (List JsString) := do
  let normalized := distinctTexts values
  require (normalized.length ≤ 10000) (js "visible candidate scope must not exceed 10000 ids")
  require (normalized.all fun value => value.length ≤ 128)
    (js "visible candidate ids must not exceed 128 characters")
  require (normalized.all isFilterLiteral) unsupportedSyntax
  return normalized

def scopeIds (scope : JsValue) : Except SearchRefusal (Option (List JsString)) :=
  let kind := scope.get (js "kind")
  if kind.isText (js "all") then
    .ok none
  else if kind.isText (js "candidate-ids") then
    match stringArray (scope.get (js "ids")) with
    | some ids => some <$> normalizeVisibleIds ids
    | none => .error (.refused (js "candidate-id scope must contain string ids"))
  else
    .error (.refused (js "candidate search requires an explicit authorization scope"))

def quoted (value : JsString) : JsString :=
  let replaceAll (sign : UInt16) (text : JsString) : JsString :=
    text.flatMap fun unit => if unit = sign then [92, sign] else [unit]
  backticked (replaceAll 96 (replaceAll 92 value))

def listClause (field : JsString) (values : List JsString) : JsString :=
  field ++ (js ":=[" ++ (Json.commaSeparated (values.map quoted) ++ js "]"))

def filteredFacets (filters : NormalizedFilters) (excluded : Option CandidateSearchFacet) :
    List CandidateSearchFacet :=
  CANDIDATE_SEARCH_FACETS.filter fun facet => some facet ≠ excluded && valuesOf filters facet ≠ []

/-- The clauses that `typesenseFilter` joins. -/
def filterClauses (filters : NormalizedFilters) (constraints : CandidateSearchConstraints)
    (visibleIds : Option (List JsString)) (excluded : Option CandidateSearchFacet) : List JsString :=
  (visibleIds.map (listClause (js "id"))).toList ++
    ((constraints.status.filter (· ≠ [])).map fun status =>
      listClause (js "status") (distinctBy id status)).toList ++
    (constraints.approved.map fun approved =>
      js "approved:=" ++ (if approved then js "true" else js "false")).toList ++
    (filteredFacets filters excluded).map fun facet => listClause facet.field (valuesOf filters facet)

def typesenseFilter (filters : NormalizedFilters) (constraints : CandidateSearchConstraints)
    (visibleIds : Option (List JsString)) (excluded : Option CandidateSearchFacet) : JsString :=
  (js " && ").intercalate (filterClauses filters constraints visibleIds excluded)

structure TypesenseSearchParameters where
  collection : JsString
  q : JsString
  queryBy : JsString
  filterBy : Option JsString
  facetBy : Option JsString
  maxFacetValues : Option ℕ
  page : ℕ
  perPage : ℕ
  sortBy : Option JsValue

def optionalFilter (value : JsString) : Option JsString := if value ≠ [] then some value else none

/-- What `search` sends; for an empty scope it answers at once. -/
inductive SearchPlan
  | emptyResult (page pageSize : ℕ) (filters : NormalizedFilters)
  | sent (searches : List TypesenseSearchParameters)

/-- `value === undefined ? {} : value` -/
def ifDefined (value : JsValue) : JsValue :=
  match value with
  | .undefined => .object []
  | present => present

/-- `TypesenseCandidateSearchAdapter.search`, up to what is sent -/
def search (inherited : JsString → Option JsValue) (collection : JsString) (request : JsValue) :
    Except SearchRefusal SearchPlan := do
  let page ← positiveNumber ((request.get (js "page")).orElse (.number (.ofNat 1))) (js "page") 10000
  let pageSize ←
    positiveNumber ((request.get (js "pageSize")).orElse (.number (.ofNat 25))) (js "pageSize") 250
  let query ← queryText (request.get (js "query"))
  require (query.length ≤ 500) (js "search query must not exceed 500 characters")
  let sort ← sortValue inherited (request.get (js "sort"))
  let filters ← normalizeFilters (ifDefined (request.get (js "filters")))
  let constraints ← normalizeConstraints (ifDefined (request.get (js "constraints")))
  let visibleIds ← scopeIds (request.get (js "scope"))
  if visibleIds = some [] then
    return .emptyResult page pageSize filters
  else
    let common : TypesenseSearchParameters :=
      { collection, q := if query = [] then js "*" else query
        queryBy := js "name,email,phone,skills", filterBy := none, facetBy := none
        maxFacetValues := none, page := 1, perPage := 1, sortBy := none }
    let filter (excluded : Option CandidateSearchFacet) : Option JsString :=
      optionalFilter (typesenseFilter filters constraints visibleIds excluded)
    let main : TypesenseSearchParameters :=
      { common with
        filterBy := filter none
        sortBy := if sort.truthy then some sort else none
        page
        perPage := pageSize }
    return .sent (main :: CANDIDATE_SEARCH_FACETS.map fun facet =>
      { common with
        filterBy := filter (some facet)
        facetBy := some facet.field
        maxFacetValues := some 100 })

def SearchDocument.facetValues (candidate : SearchDocument) : CandidateSearchFacet → List JsString
  | .country => [candidate.country]
  | .university => [candidate.university]
  | .company => candidate.company.toList
  | .skill => candidate.skills
  | .gender => [candidate.gender]
  | .profile => [candidate.profile]
  | .assignment => [candidate.assignment]
  | .document => candidate.documents

def scopeList (request : JsValue) : List JsString :=
  distinctTexts ((stringArray ((request.get (js "scope")).get (js "ids"))).getD [])

def facetList (request : JsValue) (facet : CandidateSearchFacet) : List JsString :=
  distinctTexts ((stringArray ((request.get (js "filters")).get facet.text)).getD [])

def statusList (request : JsValue) : List JsString :=
  (stringArray ((request.get (js "constraints")).get (js "status"))).getD []

/-- The document is in the scope and satisfies the constraints and all filters but one. A list
without values filters nothing. -/
structure Meets (request : JsValue) (excluded : Option CandidateSearchFacet)
    (candidate : SearchDocument) : Prop where
  visible : candidate.id ∈ scopeList request
  status : statusList request ≠ [] → candidate.status ∈ statusList request
  approved : ∀ flag, (request.get (js "constraints")).get (js "approved") = .boolean flag →
    candidate.approved = flag
  facets : ∀ facet, some facet ≠ excluded → facetList request facet ≠ [] →
    ∃ value ∈ candidate.facetValues facet, value ∈ facetList request facet

section Texts

variable {text : JsString} {texts : List JsString}

theorem mem_distinctBy_id {items : List JsString} : text ∈ distinctBy id items ↔ text ∈ items := by
  induction items using List.reverseRecOn with
  | nil => rfl
  | append_singleton items item ih =>
      rw [distinctBy_concat, List.map_id, List.mem_append, List.mem_singleton, ← ih]
      split_ifs with seen
      · refine ⟨.inl, ?_⟩
        rintro (earlier | rfl)
        · exact earlier
        · exact seen
      · rw [List.mem_append, List.mem_singleton]

theorem quoted_of_isFilterLiteral (literal : isFilterLiteral text = true) :
    quoted text = backticked text ∧ 96 ∉ text := by
  have absent : 92 ∉ text ∧ 96 ∉ text := by
    rw [isFilterLiteral, List.all_eq_true] at literal
    refine ⟨fun isUnit => ?_, fun isUnit => ?_⟩
    · exact absurd (literal 92 isUnit) (by decide)
    · exact absurd (literal 96 isUnit) (by decide)
  have replaced : ∀ sign : UInt16, sign ∉ text →
      (text.flatMap fun unit => if unit = sign then [92, sign] else [unit]) = text := by
    intro sign absent
    calc
      _ = text.flatMap fun unit => [unit] := by
        apply List.flatMap_congr
        intro unit isUnit
        rw [if_neg]
        rintro rfl
        exact absent isUnit
      _ = text := List.flatMap_singleton' text
  refine ⟨?_, absent.2⟩
  simp only [quoted]
  rw [replaced 92 absent.1, replaced 96 absent.2]

end Texts

def intendedClauses (filters : NormalizedFilters) (constraints : CandidateSearchConstraints)
    (visibleIds : Option (List JsString)) (excluded : Option CandidateSearchFacet) : List Clause :=
  (visibleIds.map fun ids => ⟨js "id", ids⟩).toList ++
    ((constraints.status.filter (· ≠ [])).map fun status =>
      ⟨js "status", distinctBy id status⟩).toList ++
    (constraints.approved.map fun approved =>
      ⟨js "approved", [if approved then js "true" else js "false"]⟩).toList ++
    (filteredFacets filters excluded).map fun facet => ⟨facet.field, valuesOf filters facet⟩

structure Clean (filters : NormalizedFilters) (constraints : CandidateSearchConstraints)
    (visibleIds : Option (List JsString)) : Prop where
  ids : ∀ ids, visibleIds = some ids → ids ≠ [] ∧ ∀ id ∈ ids, isFilterLiteral id = true
  status : ∀ texts, constraints.status = some texts → ∀ text ∈ texts, isFilterLiteral text = true
  facets : ∀ facet, ∀ value ∈ valuesOf filters facet, isFilterLiteral value = true

section Clauses

variable {filters : NormalizedFilters} {constraints : CandidateSearchConstraints}
variable {visibleIds : Option (List JsString)} {excluded : Option CandidateSearchFacet}

theorem readsClause_listClause {field : JsString} {values : List JsString}
    (letters : field.all isLetter = true) (nonempty : values ≠ [])
    (literals : ∀ value ∈ values, isFilterLiteral value = true) :
    ReadsClause (listClause field values) ⟨field, values⟩ := by
  have same : values.map quoted = values.map backticked := by
    apply List.map_congr_left
    intro value isValue
    exact (quoted_of_isFilterLiteral (literals value isValue)).1
  rw [listClause, same]
  apply readsClause_list (List.all_eq_true.mp letters) nonempty
  intro value isValue
  exact (quoted_of_isFilterLiteral (literals value isValue)).2

theorem forall₂_filterClauses (clean : Clean filters constraints visibleIds) :
    List.Forall₂ ReadsClause (filterClauses filters constraints visibleIds excluded)
      (intendedClauses filters constraints visibleIds excluded) := by
  have append {first second : List JsString} {left right : List Clause}
      (early : List.Forall₂ ReadsClause first left) (late : List.Forall₂ ReadsClause second right) :
      List.Forall₂ ReadsClause (first ++ second) (left ++ right) := List.rel_append early late
  have field : ∀ facet : CandidateSearchFacet, facet.field.all isLetter = true := by
    intro facet
    cases facet <;> decide
  apply append (append (append ?_ ?_) ?_) ?_
  · cases given : visibleIds with
    | none => exact .nil
    | some ids =>
        rcases clean.ids ids given with ⟨nonempty, literals⟩
        exact .cons (readsClause_listClause (by decide) nonempty literals) .nil
  · cases given : constraints.status.filter (· ≠ []) with
    | none => exact .nil
    | some texts =>
        rw [Option.filter_eq_some_iff, decide_eq_true_eq] at given
        refine .cons (readsClause_listClause (by decide) ?_ ?_) .nil
        · intro none
          apply given.2
          rw [List.eq_nil_iff_forall_not_mem] at none ⊢
          intro text isText
          exact none text (mem_distinctBy_id.mpr isText)
        · intro text isText
          exact clean.status texts given.1 text (mem_distinctBy_id.mp isText)
  · cases constraints.approved with
    | none => exact .nil
    | some approved =>
        refine .cons ?_ .nil
        have parts : js "approved:=" = js "approved" ++ js ":=" := by decide
        have letters := List.all_eq_true.mp (show (js "approved").all isLetter = true by decide)
        have word (first : UInt16) (rest : JsString) (wordLetters : (first :: rest).all isLetter = true) :
            ReadsClause (js "approved:=" ++ first :: rest) ⟨js "approved", [first :: rest]⟩ := by
          rw [parts, List.append_assoc]
          exact readsClause_word letters (List.all_eq_true.mp wordLetters)
        cases approved
        · exact word 102 (js "alse") (by decide)
        · exact word 116 (js "rue") (by decide)
  · rw [List.forall₂_map_left_iff, List.forall₂_map_right_iff, List.forall₂_same]
    intro facet isFacet
    have nonempty : valuesOf filters facet ≠ [] := by
      have selected := (List.mem_filter.mp isFacet).2
      rw [Bool.and_eq_true, decide_eq_true_eq] at selected
      simpa using selected.2
    exact readsClause_listClause (field facet) nonempty (clean.facets facet)

theorem selects_typesenseFilter (clean : Clean filters constraints visibleIds)
    (candidate : SearchDocument) :
    selects (optionalFilter (typesenseFilter filters constraints visibleIds excluded)) candidate =
      (intendedClauses filters constraints visibleIds excluded).all fun clause =>
        clause.admits candidate := by
  have reads := @forall₂_filterClauses _ _ _ excluded clean
  rw [typesenseFilter]
  generalize filterClauses filters constraints visibleIds excluded = texts at reads ⊢
  generalize intendedClauses filters constraints visibleIds excluded = clauses at reads ⊢
  by_cases none : texts = []
  · subst none
    cases reads
    rfl
  · have read := readFilter_intercalate reads none
    have present : (js " && ").intercalate texts ≠ [] := by
      intro empty
      rw [empty] at read
      cases read
    rw [optionalFilter, if_pos present, selects, read]
    rfl

end Clauses

section Accepted

variable {request filters scope : JsValue}

theorem require_eq_ok {condition : Bool} {text : JsString} {done : Unit}
    (passed : require condition text = .ok done) : condition = true := by
  rw [require] at passed
  split_ifs at passed with holds
  exact holds

theorem get_ifDefined (value : JsValue) (name : JsString) :
    (ifDefined value).get name = value.get name := by
  cases value <;> rfl

theorem normalizeFacet_ok {facet : CandidateSearchFacet}
    {entry : CandidateSearchFacet × List JsString} (accepted : normalizeFacet filters facet = .ok entry) :
    entry = (facet, distinctTexts ((stringArray (filters.get facet.text)).getD [])) ∧
      ∀ value ∈ entry.2, isFilterLiteral value = true := by
  rcases bind_eq_ok_iff.mp accepted with ⟨texts, given, accepted⟩
  rcases bind_eq_ok_iff.mp accepted with ⟨_, -, accepted⟩
  rcases bind_eq_ok_iff.mp accepted with ⟨_, -, accepted⟩
  rcases bind_eq_ok_iff.mp accepted with ⟨_, literals, accepted⟩
  have same : texts = (stringArray (filters.get facet.text)).getD [] := by
    generalize filters.get facet.text = raw at given ⊢
    unfold filterTexts at given
    split at given
    · cases given
      rfl
    · cases read : stringArray raw with
      | none =>
          rw [read] at given
          cases given
      | some found =>
          rw [read] at given
          cases given
          rfl
  subst same
  cases accepted
  exact ⟨rfl, List.all_eq_true.mp (require_eq_ok literals)⟩

theorem eq_map_of_mapM_eq_ok {Source Target Error : Type} {transform : Source → Except Error Target}
    {image : Source → Target} (determined : ∀ source target, transform source = .ok target →
      target = image source) {sources : List Source} {targets : List Target}
    (accepted : sources.mapM transform = .ok targets) : targets = sources.map image := by
  induction sources generalizing targets with
  | nil =>
      cases accepted
      rfl
  | cons first rest ih =>
      rw [List.mapM_cons, bind_eq_ok_iff] at accepted
      rcases accepted with ⟨target, transformed, accepted⟩
      rcases bind_eq_ok_iff.mp accepted with ⟨others, restAccepted, built⟩
      rw [← Except.ok.inj built, determined first target transformed, ih restAccepted, List.map_cons]

theorem normalizeFilters_ok {normalized : NormalizedFilters}
    (accepted : normalizeFilters filters = .ok normalized) (facet : CandidateSearchFacet) :
    valuesOf normalized facet = distinctTexts ((stringArray (filters.get facet.text)).getD []) ∧
      ∀ value ∈ valuesOf normalized facet, isFilterLiteral value = true := by
  rcases bind_eq_ok_iff.mp accepted with ⟨_, -, accepted⟩
  have listed : facet ∈ CANDIDATE_SEARCH_FACETS := by cases facet <;> decide
  rcases exists_mem_of_mapM_eq_ok accepted listed with ⟨entry, -, passed⟩
  rcases normalizeFacet_ok passed with ⟨rfl, literals⟩
  have all := eq_map_of_mapM_eq_ok (fun _ _ passed => (normalizeFacet_ok passed).1) accepted
  have same : valuesOf normalized facet =
      distinctTexts ((stringArray (filters.get facet.text)).getD []) := by
    rw [all]
    cases facet <;> rfl
  rw [same]
  exact ⟨rfl, literals⟩

theorem statusConstraint_ok {value : JsValue} {status : Option (List JsString)}
    (accepted : statusConstraint value = .ok status) :
    status.getD [] = (stringArray value).getD [] ∧
      ∀ text ∈ status.getD [], isFilterLiteral text = true := by
  unfold statusConstraint at accepted
  split at accepted
  · cases accepted
    exact ⟨rfl, by simp⟩
  · split at accepted
    · rename_i texts found
      cases accepted
      rw [Option.filter_eq_some_iff, List.all_eq_true] at found
      rw [found.1]
      refine ⟨rfl, ?_⟩
      intro text isText
      have known := found.2 text isText
      simp only [Bool.or_eq_true, decide_eq_true_eq] at known
      rcases known with rfl | rfl <;> decide
    · cases accepted

theorem approvalConstraint_ok {value : JsValue} {approved : Option Bool}
    (accepted : approvalConstraint value = .ok approved) (flag : Bool) :
    approved = some flag ↔ value = .boolean flag := by
  cases value with
  | undefined =>
      cases accepted
      exact iff_of_false nofun nofun
  | boolean given =>
      cases accepted
      rw [Option.some.injEq, JsValue.boolean.injEq]
  | _ => cases accepted

theorem normalizeConstraints_ok {constraints : CandidateSearchConstraints}
    (accepted : normalizeConstraints (ifDefined (request.get (js "constraints"))) = .ok constraints) :
    constraints.status.getD [] = statusList request ∧
      (∀ text ∈ constraints.status.getD [], isFilterLiteral text = true) ∧
      ∀ flag, constraints.approved = some flag ↔
        (request.get (js "constraints")).get (js "approved") = .boolean flag := by
  rcases bind_eq_ok_iff.mp accepted with ⟨_, -, accepted⟩
  rcases bind_eq_ok_iff.mp accepted with ⟨status, isStatus, accepted⟩
  rcases bind_eq_ok_iff.mp accepted with ⟨approved, isApproved, accepted⟩
  cases accepted
  rw [get_ifDefined] at isStatus isApproved
  rcases statusConstraint_ok isStatus with ⟨same, literals⟩
  exact ⟨same, literals, approvalConstraint_ok isApproved⟩

theorem scopeIds_ok {visibleIds : Option (List JsString)} (accepted : scopeIds scope = .ok visibleIds)
    (kind : (scope.get (js "kind")).isText (js "candidate-ids") = true) :
    visibleIds = some (distinctTexts ((stringArray (scope.get (js "ids"))).getD [])) ∧
      ∀ id ∈ distinctTexts ((stringArray (scope.get (js "ids"))).getD []),
        isFilterLiteral id = true := by
  have notAll : (scope.get (js "kind")).isText (js "all") = false := by
    rw [isText_iff.mp kind]
    decide
  simp only [scopeIds, notAll, kind, if_true, Bool.false_eq_true, if_false] at accepted
  cases given : stringArray (scope.get (js "ids")) with
  | none =>
      rw [given] at accepted
      cases accepted
  | some ids =>
      simp only [given] at accepted
      cases normalized : normalizeVisibleIds ids with
      | error refusal =>
          rw [normalized] at accepted
          cases accepted
      | ok found =>
          rw [normalized] at accepted
          cases accepted
          rcases bind_eq_ok_iff.mp normalized with ⟨_, -, normalized⟩
          rcases bind_eq_ok_iff.mp normalized with ⟨_, -, normalized⟩
          rcases bind_eq_ok_iff.mp normalized with ⟨_, literals, normalized⟩
          cases normalized
          exact ⟨rfl, List.all_eq_true.mp (require_eq_ok literals)⟩

end Accepted

theorem fieldValues_field (candidate : SearchDocument) (facet : CandidateSearchFacet) :
    candidate.fieldValues facet.field = candidate.facetValues facet := by
  cases facet <;> rfl

section Admitted

variable {request : JsValue} {filters : NormalizedFilters} {candidate : SearchDocument}
variable {excluded : Option CandidateSearchFacet}

theorem admits_status_iff (status : Option (List JsString)) :
    (((status.filter (· ≠ [])).map fun texts =>
      (⟨js "status", distinctBy id texts⟩ : Clause)).toList.all fun clause =>
        clause.admits candidate) = true ↔
      (status.getD [] ≠ [] → candidate.status ∈ status.getD []) := by
  have isStatus : candidate.fieldValues (js "status") = [candidate.status] := rfl
  cases status with
  | none => exact iff_of_true rfl nofun
  | some texts =>
      by_cases none : texts = []
      · subst none
        exact iff_of_true rfl nofun
      · rw [Option.filter_some, if_pos (decide_eq_true none)]
        simp only [Option.map_some, Option.toList_some, List.all_cons, List.all_nil, Bool.and_true,
          Clause.admits, isStatus, List.any_cons, List.any_nil, Bool.or_false, decide_eq_true_eq,
          mem_distinctBy_id, Option.getD_some, ne_eq, none, not_false_eq_true, forall_const]

theorem admits_approved_iff (approved : Option Bool) :
    ((approved.map fun flag =>
      (⟨js "approved", [if flag then js "true" else js "false"]⟩ : Clause)).toList.all fun clause =>
        clause.admits candidate) = true ↔ ∀ flag, approved = some flag → candidate.approved = flag := by
  have isApproved : candidate.fieldValues (js "approved") =
    [if candidate.approved then js "true" else js "false"] := rfl
  have differ : js "true" ≠ js "false" := by decide
  cases approved with
  | none => exact iff_of_true rfl nofun
  | some flag =>
      simp only [Option.map_some, Option.toList_some, List.all_cons, List.all_nil, Bool.and_true,
        Clause.admits, isApproved, List.any_cons, List.any_nil, Bool.or_false, decide_eq_true_eq,
        List.mem_singleton, Option.some.injEq, forall_eq']
      cases candidate.approved <;> cases flag <;> simp [differ, differ.symm]

theorem admits_facets_iff :
    (((filteredFacets filters excluded).map fun facet =>
      (⟨facet.field, valuesOf filters facet⟩ : Clause)).all fun clause =>
        clause.admits candidate) = true ↔
      ∀ facet, some facet ≠ excluded → valuesOf filters facet ≠ [] →
        ∃ value ∈ candidate.facetValues facet, value ∈ valuesOf filters facet := by
  have listed : ∀ facet, facet ∈ CANDIDATE_SEARCH_FACETS := by
    intro facet
    cases facet <;> decide
  have one : ∀ facet, Clause.admits ⟨facet.field, valuesOf filters facet⟩ candidate = true ↔
      ∃ value ∈ candidate.facetValues facet, value ∈ valuesOf filters facet := by
    intro facet
    simp only [Clause.admits, fieldValues_field, List.any_eq_true, decide_eq_true_eq]
  simp only [List.all_map, List.all_eq_true, Function.comp_apply, filteredFacets, List.mem_filter,
    listed, true_and, Bool.and_eq_true, decide_eq_true_eq, one, and_imp]

theorem all_admits_iff {constraints : CandidateSearchConstraints}
    (facets : ∀ facet, valuesOf filters facet = facetList request facet)
    (status : constraints.status.getD [] = statusList request)
    (approved : ∀ flag, constraints.approved = some flag ↔
      (request.get (js "constraints")).get (js "approved") = .boolean flag) :
    ((intendedClauses filters constraints (some (scopeList request)) excluded).all fun clause =>
      clause.admits candidate) = true ↔ Meets request excluded candidate := by
  have isId : candidate.fieldValues (js "id") = [candidate.id] := rfl
  have visible : Clause.admits ⟨js "id", scopeList request⟩ candidate = true ↔
      candidate.id ∈ scopeList request := by
    simp only [Clause.admits, isId, List.any_cons, List.any_nil, Bool.or_false, decide_eq_true_eq]
  simp only [intendedClauses, List.all_append, Bool.and_eq_true, admits_status_iff,
    admits_approved_iff, admits_facets_iff, Option.map_some, Option.toList_some, List.all_cons,
    List.all_nil, visible, and_true]
  simp only [status, approved, facets]
  constructor
  · rintro ⟨⟨⟨isVisible, hasStatus⟩, hasApproval⟩, passes⟩
    exact ⟨isVisible, hasStatus, hasApproval, passes⟩
  · intro meets
    exact ⟨⟨⟨meets.visible, meets.status⟩, meets.approved⟩, meets.facets⟩

end Admitted

/-- With a list of ids for its scope, a request that is accepted sends nothing when the list is empty.
Otherwise nine searches are sent, and each selects exactly the documents of the scope that satisfy the
constraints and the filters, the search for a facet without the filter on that facet. -/
theorem search_within_scope (inherited : JsString → Option JsValue) (collection : JsString)
    (request : JsValue) (plan : SearchPlan)
    (kind : ((request.get (js "scope")).get (js "kind")).isText (js "candidate-ids") = true)
    (accepted : search inherited collection request = .ok plan) :
    if scopeList request = [] then
      ∃ page pageSize filters, plan = .emptyResult page pageSize filters
    else
      ∃ main facetSearches, plan = .sent (main :: facetSearches) ∧
        (∀ candidate, selects main.filterBy candidate = true ↔ Meets request none candidate) ∧
        List.Forall₂ (fun facet search => search.facetBy = some facet.field ∧
          ∀ candidate, selects search.filterBy candidate = true ↔
            Meets request (some facet) candidate) CANDIDATE_SEARCH_FACETS facetSearches := by
  rcases bind_eq_ok_iff.mp accepted with ⟨page, -, accepted⟩
  rcases bind_eq_ok_iff.mp accepted with ⟨pageSize, -, accepted⟩
  rcases bind_eq_ok_iff.mp accepted with ⟨query, -, accepted⟩
  rcases bind_eq_ok_iff.mp accepted with ⟨_, -, accepted⟩
  rcases bind_eq_ok_iff.mp accepted with ⟨sort, -, accepted⟩
  rcases bind_eq_ok_iff.mp accepted with ⟨filters, normalized, accepted⟩
  rcases bind_eq_ok_iff.mp accepted with ⟨constraints, constrained, accepted⟩
  rcases bind_eq_ok_iff.mp accepted with ⟨visibleIds, inScope, accepted⟩
  rcases scopeIds_ok inScope kind with ⟨isScope, idLiterals⟩
  have facets : ∀ facet, valuesOf filters facet = facetList request facet := by
    intro facet
    rw [(normalizeFilters_ok normalized facet).1, get_ifDefined, facetList]
  rcases normalizeConstraints_ok constrained with ⟨status, statusLiterals, approved⟩
  change visibleIds = some (scopeList request) at isScope
  subst isScope
  by_cases empty : scopeList request = []
  · rw [if_pos empty]
    rw [if_pos (congrArg some empty)] at accepted
    cases accepted
    exact ⟨page, pageSize, filters, rfl⟩
  · rw [if_neg empty]
    have clean : Clean filters constraints (some (scopeList request)) := by
      refine ⟨?_, ?_, fun facet => (normalizeFilters_ok normalized facet).2⟩
      · rintro ids ⟨⟩
        exact ⟨empty, idLiterals⟩
      · intro texts isStatus text isText
        apply statusLiterals
        rw [isStatus]
        exact isText
    have selected : ∀ excluded candidate,
        selects (optionalFilter (typesenseFilter filters constraints (some (scopeList request))
          excluded)) candidate = true ↔ Meets request excluded candidate := by
      intro excluded candidate
      rw [selects_typesenseFilter clean, all_admits_iff facets status approved]
    rw [if_neg fun same => empty (Option.some.inj same)] at accepted
    cases accepted
    refine ⟨_, _, rfl, selected none, ?_⟩
    rw [List.forall₂_map_right_iff, List.forall₂_same]
    intro facet _
    exact ⟨rfl, selected (some facet)⟩

/-! An id that looks like another clause. -/

def oddId : JsString := js "a] && status:=[active"

def oddRequest : JsValue :=
  .object [
    (js "scope", .object [(js "kind", .string (js "candidate-ids")),
      (js "ids", .array [.string (js " " ++ oddId), .string (js " ")])]),
    (js "filters", .object [(js "skill", .array [.string (js "lean")])]),
    (js "constraints", .object [(js "approved", .boolean true)])]

def candidateOf (id : JsString) : SearchDocument :=
  ⟨id, [], [], [], js "KW", [], none, [js "lean"], js "other", js "complete", js "assigned", [],
    js "active", true, .ofNat 0, .ofNat 0⟩

/-- Only the document with the odd id is selected. -/
theorem oddRequest_within_scope : ∃ main facetSearches,
    search (fun _ => none) (js "candidates") oddRequest = .ok (.sent (main :: facetSearches)) ∧
      facetSearches.length = 8 ∧ selects main.filterBy (candidateOf (js "b")) = false ∧
      selects main.filterBy (candidateOf oddId) = true := by
  have isAccepted : (search (fun _ => none) (js "candidates") oddRequest).isOk = true := by
    decide +kernel
  have scope : scopeList oddRequest = [oddId] := by decide +kernel
  cases accepted : search (fun _ => none) (js "candidates") oddRequest with
  | error refusal =>
      rw [accepted] at isAccepted
      cases isAccepted
  | ok plan =>
      have sent := search_within_scope _ _ oddRequest plan rfl accepted
      rw [scope, if_neg (List.cons_ne_nil _ _)] at sent
      rcases sent with ⟨main, facetSearches, rfl, selected, facets⟩
      refine ⟨main, facetSearches, rfl, facets.length_eq.symm, ?_, ?_⟩
      · rw [Bool.eq_false_iff, ne_eq, selected]
        intro meets
        have visible := meets.visible
        rw [scope] at visible
        exact absurd visible (by decide)
      · rw [selected]
        have lean : ∀ facet, facetList oddRequest facet ≠ [] →
            ∃ value ∈ (candidateOf oddId).facetValues facet, value ∈ facetList oddRequest facet := by
          intro facet
          cases facet <;> decide +kernel
        refine ⟨?_, ?_, ?_, fun facet _ => lean facet⟩
        · rw [scope]
          exact List.mem_singleton_self _
        · decide +kernel
        · rintro flag ⟨⟩
          rfl

end StudentHub.Search
