import StudentHub.Ecma.Arrays
import StudentHub.Ecma.OrderedMap
import StudentHub.Graph.Links

/-!
# Organizations

The organization tree is declared data: each organization may name a parent, and
the parent may be missing. The functions below recompute the two indexes of a list
of organizations on every call and then run the loops of `Graph`: upwards along
parents for ancestors, with a stack of children for descendants.

The fuel of each loop is one more than the number of organizations. The ancestor
loop never needs more; the descendant loop ends within it on a list without
cycles, and `none` stands for a run that does not end within it.
-/

namespace StudentHub.Authz

open Ecma Graph Relation

structure Organization where
  id : JsString
  name : JsString
  parentOrgId : Option JsString
  deriving DecidableEq

structure OrgIndex where
  byId : OrderedMap JsString Organization
  childrenByParent : OrderedMap JsString (List JsString)

def OrgIndex.add (index : OrgIndex) (org : Organization) : OrgIndex where
  byId := index.byId.set org.id org
  childrenByParent :=
    match org.parentOrgId with
    | none => index.childrenByParent
    | some parent =>
        let siblings := (index.childrenByParent.get? parent).getD []
        index.childrenByParent.set parent (siblings ++ [org.id])

def indexOrganizations (organizations : List Organization) : OrgIndex :=
  let index := organizations.foldl OrgIndex.add ⟨.empty, .empty⟩
  { index with childrenByParent := index.childrenByParent.mapValues sortTexts }

def ancestorOrgIdsIncludingSelf (organizations : List Organization) (orgId : JsString) :
    List JsString :=
  let byId := (indexOrganizations organizations).byId
  (climb Organization.id byId.get? Organization.parentOrgId (organizations.length + 1) []
    (byId.get? orgId)).1

/-- Every organization in the subtree below `ancestorId`, including itself. -/
def descendantOrgIdsIncludingSelf (organizations : List Organization) (ancestorId : JsString) :
    Option (List JsString) :=
  let childrenByParent := (indexOrganizations organizations).childrenByParent
  descend (fun id => (childrenByParent.get? id).getD []) (organizations.length + 1) [ancestorId] []

/-- The organization `child` is listed and names `parent`. -/
def ParentOf (organizations : List Organization) (child parent : JsString) : Prop :=
  ∃ org ∈ organizations, org.id = child ∧ org.parentOrgId = some parent

section Index

variable {organizations : List Organization}

theorem byId_eq_ofList (organizations : List Organization) :
    (indexOrganizations organizations).byId =
      OrderedMap.ofList (organizations.map fun org => (org.id, org)) := by
  have general : ∀ index : OrgIndex, (organizations.foldl OrgIndex.add index).byId =
      (organizations.map fun org => (org.id, org)).foldl
        (fun map pair => map.set pair.1 pair.2) index.byId := by
    induction organizations with
    | nil => intro index; rfl
    | cons org rest ih => intro index; exact ih (index.add org)
  exact general _

theorem children_eq (organizations : List Organization) (parent : JsString) :
    ((indexOrganizations organizations).childrenByParent.get? parent).getD [] =
      sortTexts ((organizations.filter fun org => org.parentOrgId = some parent).map
        Organization.id) := by
  have general : ∀ index : OrgIndex,
      ((organizations.foldl OrgIndex.add index).childrenByParent.get? parent).getD [] =
        (index.childrenByParent.get? parent).getD [] ++
          (organizations.filter fun org => org.parentOrgId = some parent).map
            Organization.id := by
    induction organizations with
    | nil => intro index; simp
    | cons org rest ih =>
        intro index
        rw [List.foldl_cons, ih]
        cases named : org.parentOrgId with
        | none => simp [OrgIndex.add, named]
        | some other =>
            by_cases same : parent = other
            · subst same
              simp [OrgIndex.add, named]
            · simp [OrgIndex.add, named, OrderedMap.get?_set_of_ne _ _ same, Ne.symm same]
  have raw := general ⟨.empty, .empty⟩
  simp only [OrderedMap.get?_empty, Option.getD_none, List.nil_append] at raw
  simp only [indexOrganizations, OrderedMap.get?_mapValues]
  rw [← raw]
  cases (organizations.foldl OrgIndex.add ⟨.empty, .empty⟩).childrenByParent.get? parent with
  | none => simp [sortTexts]
  | some _ => rfl

theorem keyed_byId (organizations : List Organization) (id : JsString) (org : Organization)
    (found : (indexOrganizations organizations).byId.get? id = some org) : org.id = id := by
  rw [byId_eq_ofList] at found
  obtain ⟨_, _, samePair⟩ := List.mem_map.mp (OrderedMap.mem_of_get?_ofList found)
  obtain ⟨rfl, rfl⟩ := Prod.mk.inj samePair
  rfl

theorem bounded_byId (organizations : List Organization) (id : JsString)
    (present : ((indexOrganizations organizations).byId.get? id).isSome) :
    id ∈ organizations.map Organization.id := by
  rw [byId_eq_ofList, OrderedMap.isSome_get?_ofList, List.map_map] at present
  exact present

theorem mem_children_iff {child parent : JsString} :
    child ∈ ((indexOrganizations organizations).childrenByParent.get? parent).getD [] ↔
      ParentOf organizations child parent := by
  simp only [children_eq, mem_sortTexts, List.mem_map, List.mem_filter, decide_eq_true_eq,
    ParentOf]
  constructor
  · rintro ⟨org, ⟨listed, parentOf⟩, sameId⟩
    exact ⟨org, listed, sameId, parentOf⟩
  · rintro ⟨org, listed, sameId, parentOf⟩
    exact ⟨org, ⟨listed, parentOf⟩, sameId⟩

variable (distinct : (organizations.map Organization.id).Nodup)

include distinct

theorem get?_byId_iff {id : JsString} {org : Organization} :
    (indexOrganizations organizations).byId.get? id = some org ↔
      org ∈ organizations ∧ org.id = id := by
  rw [byId_eq_ofList, OrderedMap.get?_ofList_iff (by simpa [Function.comp_def] using distinct)]
  simp only [List.mem_map, Prod.mk.injEq]
  constructor
  · rintro ⟨_, listed, sameId, rfl⟩
    exact ⟨listed, sameId⟩
  · rintro ⟨listed, sameId⟩
    exact ⟨org, listed, sameId, rfl⟩

theorem points_byId :
    Points (indexOrganizations organizations).byId.get? Organization.parentOrgId =
      ParentOf organizations := by
  funext child parent
  simp only [Points, ParentOf, get?_byId_iff distinct, and_assoc]

theorem ParentOf.unique {child left right : JsString}
    (toLeft : ParentOf organizations child left) (toRight : ParentOf organizations child right) :
    left = right := by
  rw [← points_byId distinct] at toLeft toRight
  exact toLeft.unique toRight

theorem ancestors_climbed {orgId : JsString} {org : Organization} (listed : org ∈ organizations)
    (named : org.id = orgId) (acyclic : Acyclic (ParentOf organizations)) :
    Climbed (indexOrganizations organizations).byId.get? Organization.parentOrgId orgId
      (ancestorOrgIdsIncludingSelf organizations orgId) := by
  have found : (indexOrganizations organizations).byId.get? orgId = some org :=
    (get?_byId_iff distinct).mpr ⟨listed, named⟩
  simp only [ancestorOrgIdsIncludingSelf, found]
  apply climbed_of_stop_none (keyed_byId organizations) found
  apply stop_none_of_acyclic (keyed_byId organizations) found (bounded_byId organizations)
  · simp
  · intro id _ cycle
    rw [points_byId distinct] at cycle
    exact acyclic id cycle

theorem mem_ancestors_iff {orgId ancestor : JsString} {org : Organization}
    (listed : org ∈ organizations) (named : org.id = orgId)
    (acyclic : Acyclic (ParentOf organizations)) :
    ancestor ∈ ancestorOrgIdsIncludingSelf organizations orgId ↔
      ReflTransGen (ParentOf organizations) orgId ancestor ∧
        ancestor ∈ organizations.map Organization.id := by
  rw [(ancestors_climbed distinct listed named acyclic).mem_iff, points_byId distinct,
    byId_eq_ofList, OrderedMap.isSome_get?_ofList, List.map_map]
  rfl

theorem descendants_spec (acyclic : Acyclic (ParentOf organizations)) (ancestorId : JsString) :
    ∃ descendants, descendantOrgIdsIncludingSelf organizations ancestorId = some descendants ∧
      ∀ id, id ∈ descendants ↔ ReflTransGen (ParentOf organizations) id ancestorId := by
  let children := fun id => ((indexOrganizations organizations).childrenByParent.get? id).getD []
  have sameRelation : (fun parent child => child ∈ children parent) =
      Function.swap (ParentOf organizations) := by
    funext parent child
    exact propext mem_children_iff
  have childNodup : ∀ parent, (children parent).Nodup := by
    intro parent
    simp only [children, children_eq, nodup_sortTexts]
    exact distinct.sublist (List.filter_sublist.map Organization.id)
  have bounded : ∀ parent, ∀ child ∈ children parent,
      child ∈ organizations.map Organization.id := by
    intro parent child childMem
    rcases mem_children_iff.mp childMem with ⟨org, listed, rfl, -⟩
    exact List.mem_map_of_mem listed
  have noCycle : Acyclic fun parent child => child ∈ children parent := by
    intro id cycle
    rw [sameRelation, transGen_swap] at cycle
    exact acyclic id cycle
  have enough : (organizations.map Organization.id).length < organizations.length + 1 := by simp
  rcases @descend_root _ children ancestorId childNodup
      (fun left right => ParentOf.unique distinct (mem_children_iff.mp left)
        (mem_children_iff.mp right)) noCycle _ bounded _ enough with
    ⟨descendants, result, -, members⟩
  refine ⟨descendants, result, ?_⟩
  intro id
  rw [members, sameRelation, reflTransGen_swap]

end Index

end StudentHub.Authz
