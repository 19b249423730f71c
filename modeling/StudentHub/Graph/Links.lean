import Mathlib.Data.Finset.Card
import Mathlib.Data.List.Chain
import Mathlib.Data.List.Infix
import Mathlib.Data.List.Nodup
import Mathlib.Data.List.Perm.Subperm
import Mathlib.Logic.Relation

/-!
# Chains of links

Each key has at most one link to a next key. A chain grows at its end, link by link, by
those who have walked along it from its start. Whoever adds a link has not been passed on
the way and has found everybody who was passed to be done. Then a walk never comes to a
key twice, and of two keys that are linked one is done.
-/

namespace Graph

universe u

variable {Key : Type u}

def Walk (next : Key → Option Key) : Key → List Key → Key → Prop
  | start, [], finish => start = finish
  | start, key :: rest, finish => next start = some key ∧ Walk next key rest finish

variable {next after : Key → Option Key} {start finish finish' key owner : Key}
variable {passed passed' rest : List Key} {done doneAfter : Key → Prop}

theorem Walk.mono (walk : Walk next start passed finish)
    (keeps : ∀ key owner, next key = some owner → after key = some owner) :
    Walk after start passed finish := by
  induction passed generalizing start with
  | nil => exact walk
  | cons first rest ih => exact ⟨keeps _ _ walk.1, ih walk.2⟩

theorem Walk.append (walk : Walk next start passed key) (further : Walk next key rest finish) :
    Walk next start (passed ++ rest) finish := by
  induction passed generalizing start with
  | nil =>
    cases walk
    exact further
  | cons first others ih => exact ⟨walk.1, ih walk.2⟩

theorem Walk.snoc (walk : Walk next start passed key) (link : next key = some owner) :
    Walk next start (passed ++ [owner]) owner := by
  apply walk.append
  exact ⟨link, rfl⟩

theorem Walk.split (walk : Walk next start (passed ++ rest) finish) :
    ∃ key, Walk next start passed key ∧ Walk next key rest finish := by
  induction passed generalizing start with
  | nil => exact ⟨start, rfl, walk⟩
  | cons first others ih =>
    rcases ih walk.2 with ⟨key, front, back⟩
    exact ⟨key, ⟨walk.1, front⟩, back⟩

theorem Walk.finish_unique (walk : Walk next start passed finish)
    (walk' : Walk next start passed finish') : finish = finish' := by
  induction passed generalizing start with
  | nil => exact walk.symm.trans walk'
  | cons first others ih => exact ih walk.2 walk'.2

theorem Walk.comparable (walk : Walk next start passed finish)
    (walk' : Walk next start passed' finish') : passed <+: passed' ∨ passed' <+: passed := by
  induction passed generalizing start passed' with
  | nil => exact .inl List.nil_prefix
  | cons first others ih =>
    cases passed' with
    | nil => exact .inr List.nil_prefix
    | cons first' others' =>
      have same : first = first' := Option.some.inj (walk.1.symm.trans walk'.1)
      subst same
      rcases ih walk.2 walk'.2 with further | further
      · exact .inl (List.cons_prefix_cons.mpr ⟨rfl, further⟩)
      · exact .inr (List.cons_prefix_cons.mpr ⟨rfl, further⟩)

theorem Walk.finish_eq_or_mem (walk : Walk next start passed finish) :
    (passed = [] ∧ finish = start) ∨ finish ∈ passed := by
  induction passed generalizing start with
  | nil => exact .inl ⟨rfl, walk.symm⟩
  | cons first others ih =>
    right
    rcases ih walk.2 with ⟨-, same⟩ | later
    · exact same ▸ List.mem_cons_self
    · exact List.mem_cons_of_mem _ later

theorem Walk.isSome_of_mem_dropLast (walk : Walk next start passed finish)
    (left : key ∈ (start :: passed).dropLast) : (next key).isSome := by
  induction passed generalizing start with
  | nil => cases left
  | cons first others ih =>
    rw [List.dropLast_cons_of_ne_nil (List.cons_ne_nil _ _)] at left
    rcases List.mem_cons.mp left with rfl | later
    · exact Option.isSome_of_eq_some walk.1
    · exact ih walk.2 later

/-- Everybody who owns a link came to it from the start, past others who were done. -/
def Chained (next : Key → Option Key) (start : Key) (done : Key → Prop) : Prop :=
  ∀ key owner, next key = some owner → owner ≠ start ∧
    ∃ passed, Walk next start passed key ∧ owner ∉ passed ∧ ∀ other ∈ passed, done other

namespace Chained

theorem empty (none : ∀ key, next key = none) : Chained next start done := by
  intro key owner link
  rw [none key] at link
  cases link

theorem mono (chained : Chained next start done) (same : ∀ key, after key = next key)
    (lasts : ∀ key, done key → doneAfter key) : Chained after start doneAfter := by
  intro key owner link
  rw [same] at link
  rcases chained key owner link with ⟨proper, passed, walk, fresh, allDone⟩
  refine ⟨proper, passed, walk.mono ?_, fresh, fun other isPassed => lasts _ (allDone _ isPassed)⟩
  intro key owner link
  rw [same]
  exact link

theorem extend (chained : Chained next start done) (isEnd : next key = none)
    (link : after key = some owner) (same : ∀ other, other ≠ key → after other = next other)
    (lasts : ∀ key, done key → doneAfter key) (proper : owner ≠ start)
    (walk : Walk next start passed key) (fresh : owner ∉ passed)
    (allDone : ∀ other ∈ passed, done other) : Chained after start doneAfter := by
  have keeps : ∀ other found, next other = some found → after other = some found := by
    intro other found wasLink
    by_cases here : other = key
    · rw [here, isEnd] at wasLink
      cases wasLink
    · rw [same other here]
      exact wasLink
  intro other found isLink
  by_cases here : other = key
  · subst here
    rw [link] at isLink
    cases isLink
    exact ⟨proper, passed, walk.mono keeps, fresh, fun other isPassed =>
      lasts _ (allDone _ isPassed)⟩
  · rw [same other here] at isLink
    rcases chained other found isLink with ⟨proper', passed', walk', fresh', allDone'⟩
    exact ⟨proper', passed', walk'.mono keeps, fresh', fun other isPassed =>
      lasts _ (allDone' _ isPassed)⟩

theorem start_not_mem (chained : Chained next start done) (walk : Walk next key passed finish) :
    start ∉ passed := by
  induction passed generalizing key with
  | nil => exact List.not_mem_nil
  | cons first others ih =>
    intro isPassed
    rcases List.mem_cons.mp isPassed with here | later
    · exact (chained key first walk.1).1 here.symm
    · exact ih walk.2 later

theorem nodup (chained : Chained next start done) (walk : Walk next start passed finish) :
    passed.Nodup := by
  induction passed using List.reverseRecOn generalizing finish with
  | nil => exact List.nodup_nil
  | append_singleton front last ih =>
    rcases walk.split with ⟨key, toKey, link, -⟩
    have frontNodup := ih toKey
    rcases chained key last link with ⟨-, passed', walk', fresh, -⟩
    apply List.Nodup.append frontNodup (List.nodup_singleton last)
    rw [List.disjoint_singleton]
    rcases toKey.comparable walk' with ⟨more, rfl⟩ | ⟨more, rfl⟩
    · intro isPassed
      exact fresh (List.mem_append_left _ isPassed)
    · -- The way round from the key back to it is empty, as the front passes no key twice.
      rcases toKey.split with ⟨middle, toMiddle, onwards⟩
      have same := toMiddle.finish_unique walk'
      subst same
      rcases onwards.finish_eq_or_mem with ⟨rfl, -⟩ | again
      · rw [List.append_nil]
        exact fresh
      · exfalso
        rcases toMiddle.finish_eq_or_mem with ⟨-, atStart⟩ | before
        · exact chained.start_not_mem onwards (atStart ▸ again)
        · exact List.disjoint_of_nodup_append frontNodup before again

theorem done_or_done {key' owner' : Key} (chained : Chained next start done)
    (link : next key = some owner) (link' : next key' = some owner') :
    owner = owner' ∨ done owner ∨ done owner' := by
  rcases chained key owner link with ⟨-, passed, walk, -, allDone⟩
  rcases chained key' owner' link' with ⟨-, passed', walk', -, allDone'⟩
  have within : ∀ {first second : List Key} {last last' : Key},
      first ++ [last] <+: second ++ [last'] → last = last' ∨ last ∈ second := by
    intro first second last last' shorter
    rcases List.prefix_concat_iff.mp shorter with same | proper
    · exact .inl (List.singleton_inj.mp (List.append_inj' same rfl).2)
    · exact .inr (proper.subset (List.mem_append_right _ List.mem_cons_self))
  rcases (walk.snoc link).comparable (walk'.snoc link') with shorter | shorter
  · rcases within shorter with same | isPassed
    · exact .inl same
    · exact .inr (.inl (allDone' _ isPassed))
  · rcases within shorter with same | isPassed
    · exact .inl same.symm
    · exact .inr (.inr (allDone _ isPassed))

end Chained

end Graph

/-!
## Tables with parent pointers

A table holds nodes under their keys, and a node may name the key of its parent.
The parent may be missing from the table, and nothing in the table itself rules
out a cycle. `Points` is the parent relation on keys; the results are about the
two loops that programs run over such a table.

* `climb` follows parents upwards and stops when the parent is missing or a key
  repeats. It stops without a repetition exactly when the start lies on no cycle,
  and then it has passed the ancestors that the table holds, nearest first.
* `descend` pops a stack of keys and pushes the children of each key it pops. It
  has no record of the keys it has seen. On an acyclic table it ends, and it has
  then visited each descendant once.

Both loops take fuel; the results say how much is enough.
-/

namespace Graph

universe u v

open Relation

/-- No key reaches itself in one or more steps. -/
def Acyclic {Key : Type u} (relation : Key → Key → Prop) : Prop :=
  ∀ key, ¬TransGen relation key key

theorem Acyclic.antisymm {Key : Type u} {relation : Key → Key → Prop}
    (acyclic : Acyclic relation) {left right : Key}
    (forth : ReflTransGen relation left right) (back : ReflTransGen relation right left) :
    left = right := by
  rcases reflTransGen_iff_eq_or_transGen.mp forth with same | steps
  · exact same.symm
  · exact absurd (steps.trans_left back) (acyclic left)

theorem Acyclic.exists_rank {Key : Type u} {relation : Key → Key → Prop}
    (acyclic : Acyclic relation) {support : List Key}
    (sources : ∀ child parent, relation child parent → child ∈ support) :
    ∃ rank : Key → ℕ, (∀ child parent, relation child parent → rank parent < rank child) ∧
      ∀ key, rank key ≤ support.length := by
  classical
  refine ⟨fun key => (support.toFinset.filter fun other => ReflTransGen relation key other).card,
    ?_, ?_⟩
  · intro child parent step
    apply Finset.card_lt_card
    rw [Finset.ssubset_iff_of_subset]
    · refine ⟨child, ?_, ?_⟩
      · rw [Finset.mem_filter, List.mem_toFinset]
        exact ⟨sources child parent step, .refl⟩
      · rw [Finset.mem_filter]
        rintro ⟨_, back⟩
        exact acyclic child (.head' step back)
    · intro other otherMem
      rw [Finset.mem_filter] at otherMem ⊢
      exact ⟨otherMem.1, .head step otherMem.2⟩
  · intro key
    exact (Finset.card_filter_le _ _).trans support.toFinset_card_le

theorem transGen_avoids_or_through {Key : Type u} {before after : Key → Key → Prop}
    {changed : Key} (same : ∀ child parent, child ≠ changed → after child parent →
      before child parent) {start finish : Key} (path : TransGen after start finish) :
    TransGen before start finish ∨
      ReflTransGen after start changed ∧ TransGen after changed finish := by
  induction path with
  | single step =>
      by_cases isChanged : start = changed
      · exact Or.inr ⟨isChanged ▸ ReflTransGen.refl, TransGen.single (isChanged ▸ step)⟩
      · exact Or.inl (TransGen.single (same _ _ isChanged step))
  | @tail middle finish sofar step ih =>
      by_cases isChanged : middle = changed
      · exact Or.inr ⟨isChanged ▸ sofar.to_reflTransGen, TransGen.single (isChanged ▸ step)⟩
      · rcases ih with avoids | ⟨reaches, leaves⟩
        · exact Or.inl (avoids.tail (same _ _ isChanged step))
        · exact Or.inr ⟨reaches, leaves.tail step⟩

theorem Acyclic.update {Key : Type u} {before after : Key → Key → Prop} {changed : Key}
    (acyclic : Acyclic before)
    (same : ∀ child parent, child ≠ changed → after child parent → before child parent)
    (noCycle : ¬TransGen after changed changed) : Acyclic after := by
  intro key cycle
  rcases transGen_avoids_or_through same cycle with old | ⟨reaches, leaves⟩
  · exact acyclic key old
  · exact noCycle (leaves.trans_left reaches)

theorem reflTransGen_changed_iff {Key : Type u} {before after : Key → Key → Prop}
    {changed : Key} (same : ∀ child parent, child ≠ changed → (after child parent ↔
      before child parent)) {start : Key} :
    ReflTransGen after start changed ↔ ReflTransGen before start changed := by
  have transfer : ∀ {old new : Key → Key → Prop}, (∀ child parent, child ≠ changed →
      old child parent → new child parent) → ReflTransGen old start changed →
        ReflTransGen new start changed := by
    intro old new keeps path
    induction path using ReflTransGen.head_induction_on with
    | refl => exact ReflTransGen.refl
    | @head child parent step _ ih =>
        by_cases isChanged : child = changed
        · exact isChanged ▸ ReflTransGen.refl
        · exact ReflTransGen.head (keeps child parent isChanged step) ih
  exact ⟨transfer fun child parent other => (same child parent other).mp,
    transfer fun child parent other => (same child parent other).mpr⟩

section Climb

variable {Key : Type u} {Node : Type v}

/-- The node stored under `child` names `parent`. -/
def Points (lookup : Key → Option Node) (parentOf : Node → Option Key) (child parent : Key) :
    Prop :=
  ∃ node, lookup child = some node ∧ parentOf node = some parent

variable {lookup : Key → Option Node} {parentOf : Node → Option Key}

theorem Points.unique {child left right : Key} (toLeft : Points lookup parentOf child left)
    (toRight : Points lookup parentOf child right) : left = right := by
  rcases toLeft with ⟨leftNode, leftFound, leftParent⟩
  rcases toRight with ⟨rightNode, rightFound, rightParent⟩
  rw [leftFound, Option.some.injEq] at rightFound
  subst rightFound
  exact Option.some.inj (leftParent.symm.trans rightParent)

theorem Points.isSome {child parent : Key} (points : Points lookup parentOf child parent) :
    (lookup child).isSome := by
  rcases points with ⟨node, found, -⟩
  simp [found]

theorem isSome_of_reflTransGen {start finish : Key} (present : (lookup finish).isSome)
    (path : ReflTransGen (Points lookup parentOf) start finish) : (lookup start).isSome := by
  rcases ReflTransGen.cases_head path with same | ⟨middle, step, -⟩
  · exact same ▸ present
  · exact step.isSome

def Ended (lookup : Key → Option Node) (parentOf : Node → Option Key) (passed : List Key) : Prop :=
  ∀ last ∈ passed.getLast?, ∀ parent, Points lookup parentOf last parent → lookup parent = none

theorem mem_tail_of_transGen {head : Key} {tail : List Key}
    (chain : (head :: tail).IsChain (Points lookup parentOf))
    (ended : Ended lookup parentOf (head :: tail)) {ancestor : Key}
    (path : TransGen (Points lookup parentOf) head ancestor)
    (present : (lookup ancestor).isSome) : ancestor ∈ tail := by
  induction tail generalizing head with
  | nil =>
      exfalso
      rcases TransGen.head'_iff.mp path with ⟨middle, step, rest⟩
      have missing := ended head (by simp) middle step
      have stored := isSome_of_reflTransGen present rest
      simp [missing] at stored
  | cons second tail ih =>
      rcases TransGen.head'_iff.mp path with ⟨middle, step, rest⟩
      have sameStep : middle = second :=
        step.unique (List.isChain_cons_cons.mp chain).1
      subst sameStep
      rcases reflTransGen_iff_eq_or_transGen.mp rest with same | further
      · exact same ▸ List.mem_cons_self
      · refine List.mem_cons_of_mem _ (ih (List.isChain_cons_cons.mp chain).2 ?_ further)
        intro last lastMem
        exact ended last (by simpa using lastMem)

variable {key : Node → Key}

/-- What holds of the recorded keys and the current node on every pass of `climb`. -/
structure Climbing (key : Node → Key) (lookup : Key → Option Node)
    (parentOf : Node → Option Key) (seen : List Key) (current : Option Node) : Prop where
  nodup : seen.Nodup
  chain : (seen ++ (current.map key).toList).IsChain (Points lookup parentOf)
  stored : ∀ passed ∈ seen, (lookup passed).isSome
  currentStored : ∀ node ∈ current, lookup (key node) = some node
  ended : current = none → Ended lookup parentOf seen

theorem Climbing.step (keyed : ∀ id node, lookup id = some node → key node = id)
    {seen : List Key} {node : Node}
    (climbing : Climbing key lookup parentOf seen (some node)) (fresh : key node ∉ seen) :
    Climbing key lookup parentOf (seen ++ [key node]) ((parentOf node).bind lookup) where
  nodup := by
    rw [List.nodup_append]
    refine ⟨climbing.nodup, by simp, ?_⟩
    rintro passed passedMem _ nodeMem rfl
    simp only [List.mem_singleton] at nodeMem
    exact fresh (nodeMem ▸ passedMem)
  chain := by
    have sofar : (seen ++ [key node]).IsChain (Points lookup parentOf) := by
      simpa using climbing.chain
    cases parent : (parentOf node).bind lookup with
    | none => simpa using sofar
    | some parentNode =>
        rcases Option.bind_eq_some_iff.mp parent with ⟨parentKey, points, found⟩
        rw [Option.map_some, Option.toList_some, keyed parentKey parentNode found]
        refine List.IsChain.append sofar (by simp) ?_
        intro last lastMem first firstMem
        simp only [List.getLast?_append, List.getLast?_singleton, Option.some_or,
          Option.mem_def, Option.some.injEq, List.head?_cons] at lastMem firstMem
        subst lastMem firstMem
        exact ⟨node, climbing.currentStored node rfl, points⟩
  stored := by
    intro passed passedMem
    rcases List.mem_append.mp passedMem with old | new
    · exact climbing.stored passed old
    · rw [List.mem_singleton.mp new, climbing.currentStored node rfl]
      rfl
  currentStored := by
    intro parentNode found
    rcases Option.bind_eq_some_iff.mp found with ⟨parentKey, -, found⟩
    rw [keyed parentKey parentNode found]
    exact found
  ended := by
    intro missing last lastMem parentKey points
    simp only [List.getLast?_append, List.getLast?_singleton, Option.some_or, Option.mem_def,
      Option.some.injEq] at lastMem
    subst lastMem
    rcases points with ⟨stored, found, parent⟩
    rw [climbing.currentStored node rfl, Option.some.injEq] at found
    subst found
    simpa [parent] using missing

structure Climbed (lookup : Key → Option Node) (parentOf : Node → Option Key) (start : Key)
    (passed : List Key) : Prop where
  nodup : passed.Nodup
  chain : passed.IsChain (Points lookup parentOf)
  head : passed.head? = some start
  stored : ∀ id ∈ passed, (lookup id).isSome
  ended : Ended lookup parentOf passed

variable {start : Key} {node : Node}

theorem climbing_start (keyed : ∀ id node, lookup id = some node → key node = id)
    (found : lookup start = some node) : Climbing key lookup parentOf [] (some node) where
  nodup := List.nodup_nil
  chain := by simp
  stored := by simp
  currentStored := by
    intro stored isNode
    cases isNode
    rw [keyed start node found]
    exact found
  ended := by simp

namespace Climbed

variable {passed : List Key}

theorem mem_iff (climbed : Climbed lookup parentOf start passed) {id : Key} :
    id ∈ passed ↔ ReflTransGen (Points lookup parentOf) start id ∧ (lookup id).isSome := by
  obtain ⟨tail, rfl⟩ : ∃ tail, passed = start :: tail := List.head?_eq_some_iff.mp climbed.head
  constructor
  · intro member
    refine ⟨?_, climbed.stored id member⟩
    have ordered : (start :: tail).Pairwise (ReflTransGen (Points lookup parentOf)) :=
      (climbed.chain.imp fun _ _ step => ReflTransGen.single step).pairwise
    rcases List.mem_cons.mp member with same | later
    · exact same ▸ ReflTransGen.refl
    · exact (List.pairwise_cons.mp ordered).1 id later
  · rintro ⟨path, present⟩
    rcases reflTransGen_iff_eq_or_transGen.mp path with same | steps
    · exact same ▸ List.mem_cons_self
    · exact List.mem_cons_of_mem _
        (mem_tail_of_transGen climbed.chain climbed.ended steps present)

theorem not_transGen_self (climbed : Climbed lookup parentOf start passed) {id : Key}
    (above : ReflTransGen (Points lookup parentOf) start id) :
    ¬TransGen (Points lookup parentOf) id id := by
  intro cycle
  have present : (lookup id).isSome := by
    rcases TransGen.head'_iff.mp cycle with ⟨_, step, -⟩
    exact step.isSome
  have member : id ∈ passed := climbed.mem_iff.mpr ⟨above, present⟩
  rcases List.append_of_mem member with ⟨before, after, split⟩
  have nodup := climbed.nodup
  have chain := climbed.chain
  have ended := climbed.ended
  rw [split] at nodup chain ended
  have later : id ∈ after := by
    refine mem_tail_of_transGen chain.right_of_append ?_ cycle present
    intro last lastMem
    apply ended last
    rw [List.getLast?_append]
    simp only [Option.mem_def] at lastMem ⊢
    rw [lastMem, Option.some_or]
  exact (List.nodup_cons.mp (List.nodup_append.mp nodup).2.1).1 later

end Climbed

variable [DecidableEq Key]

/--
Follow parents from `current`, recording the keys passed. The second component is
the node at which the loop stopped: `none` when the parents ran out, and otherwise a
node whose key was already recorded.
-/
def climb (key : Node → Key) (lookup : Key → Option Node) (parentOf : Node → Option Key) :
    ℕ → List Key → Option Node → List Key × Option Node
  | 0, seen, current => (seen, current)
  | _ + 1, seen, none => (seen, none)
  | fuel + 1, seen, some node =>
      if key node ∈ seen then (seen, some node)
      else climb key lookup parentOf fuel (seen ++ [key node]) ((parentOf node).bind lookup)

theorem climb_spec (keyed : ∀ id node, lookup id = some node → key node = id) {fuel : ℕ}
    {seen : List Key} {current : Option Node}
    (climbing : Climbing key lookup parentOf seen current) :
    let result := climb key lookup parentOf fuel seen current
    Climbing key lookup parentOf result.1 result.2 ∧
      (∀ node ∈ result.2, key node ∈ result.1 ∨ result.1.length = seen.length + fuel) ∧
      (result.1 ++ (result.2.map key).toList).head? =
        (seen ++ (current.map key).toList).head? := by
  induction fuel generalizing seen current with
  | zero => exact ⟨climbing, fun _ _ => Or.inr rfl, rfl⟩
  | succ fuel ih =>
      cases current with
      | none => exact ⟨climbing, by simp [climb], by simp [climb]⟩
      | some node =>
          by_cases repeated : key node ∈ seen
          · simp only [climb, repeated, if_true]
            refine ⟨climbing, ?_, trivial⟩
            intro stop stopMem
            exact Or.inl (Option.some.inj stopMem ▸ repeated)
          · simp only [climb, repeated, if_false]
            have result := ih (climbing.step keyed repeated)
            refine ⟨result.1, ?_, ?_⟩
            · intro stop stopMem
              refine (result.2.1 stop stopMem).imp id fun length => length.trans ?_
              simp only [List.length_append, List.length_singleton]
              omega
            · rw [result.2.2]
              cases seen <;> simp

theorem climbed_of_stop_none (keyed : ∀ id node, lookup id = some node → key node = id)
    (found : lookup start = some node) {fuel : ℕ}
    (stop : (climb key lookup parentOf fuel [] (some node)).2 = none) :
    Climbed lookup parentOf start (climb key lookup parentOf fuel [] (some node)).1 := by
  have first : Climbing key lookup parentOf [] (some node) := climbing_start keyed found
  have result := @climb_spec _ _ _ _ _ _ keyed fuel _ _ first
  simp only [stop] at result
  rcases result with ⟨climbing, -, head⟩
  exact ⟨climbing.nodup, by simpa using climbing.chain,
    by simpa [keyed start node found] using head, climbing.stored, climbing.ended rfl⟩

namespace Climbed

variable {passed : List Key}

theorem reflTransGen_of_idxOf_le (climbed : Climbed lookup parentOf start passed)
    {near far : Key} (nearMem : near ∈ passed) (farMem : far ∈ passed)
    (order : passed.idxOf near ≤ passed.idxOf far) :
    ReflTransGen (Points lookup parentOf) near far := by
  rcases order.eq_or_lt with same | earlier
  · rw [List.idxOf_inj nearMem |>.mp same]
  · have ordered : passed.Pairwise (ReflTransGen (Points lookup parentOf)) :=
      (climbed.chain.imp fun _ _ step => ReflTransGen.single step).pairwise
    have related := List.pairwise_iff_getElem.mp ordered _ _
      (List.idxOf_lt_length_iff.mpr nearMem) (List.idxOf_lt_length_iff.mpr farMem) earlier
    simpa using related

end Climbed

theorem exists_cycle_of_stop_some (keyed : ∀ id node, lookup id = some node → key node = id)
    (found : lookup start = some node) {fuel : ℕ} {stop : Node}
    (stopped : (climb key lookup parentOf fuel [] (some node)).2 = some stop)
    {support : List Key} (bounded : ∀ id, (lookup id).isSome → id ∈ support)
    (enough : support.length < fuel) :
    ReflTransGen (Points lookup parentOf) start (key stop) ∧
      TransGen (Points lookup parentOf) (key stop) (key stop) := by
  have first : Climbing key lookup parentOf [] (some node) := climbing_start keyed found
  have result := @climb_spec _ _ _ _ _ _ keyed fuel _ _ first
  generalize climb key lookup parentOf fuel [] (some node) = outcome at result stopped
  rcases outcome with ⟨passed, current⟩
  simp only at result stopped
  subst stopped
  rcases result with ⟨climbing, stops, head⟩
  have short : passed.length ≤ support.length :=
    climbing.nodup.length_le_of_subset fun id member => bounded id (climbing.stored id member)
  have repeated : key stop ∈ passed := by
    rcases stops stop rfl with repeated | full
    · exact repeated
    · simp only [List.length_nil, Nat.zero_add] at full
      omega
  have chain : (passed ++ [key stop]).IsChain (Points lookup parentOf) := by
    simpa using climbing.chain
  rcases List.append_of_mem repeated with ⟨before, after, split⟩
  have cycle : TransGen (Points lookup parentOf) (key stop) (key stop) := by
    rw [split, List.append_assoc, List.cons_append] at chain
    have ordered : (key stop :: (after ++ [key stop])).Pairwise
        (TransGen (Points lookup parentOf)) :=
      (chain.right_of_append.imp fun _ _ step => TransGen.single step).pairwise
    exact (List.pairwise_cons.mp ordered).1 (key stop) (by simp)
  refine ⟨?_, cycle⟩
  have ordered : passed.Pairwise (ReflTransGen (Points lookup parentOf)) :=
    (chain.left_of_append.imp fun _ _ step => ReflTransGen.single step).pairwise
  have startHead : passed.head? = some start := by
    cases passed with
    | nil => simp at repeated
    | cons first rest => simpa [keyed start node found] using head
  obtain ⟨tail, rfl⟩ := List.head?_eq_some_iff.mp startHead
  rcases List.mem_cons.mp repeated with same | later
  · rw [same]
  · exact (List.pairwise_cons.mp ordered).1 _ later

theorem stop_none_of_acyclic (keyed : ∀ id node, lookup id = some node → key node = id)
    (found : lookup start = some node) {fuel : ℕ} {support : List Key}
    (bounded : ∀ id, (lookup id).isSome → id ∈ support) (enough : support.length < fuel)
    (acyclic : ∀ id, ReflTransGen (Points lookup parentOf) start id →
      ¬TransGen (Points lookup parentOf) id id) :
    (climb key lookup parentOf fuel [] (some node)).2 = none := by
  cases stopped : (climb key lookup parentOf fuel [] (some node)).2 with
  | none => rfl
  | some stop =>
      have cycle := exists_cycle_of_stop_some keyed found stopped bounded enough
      exact absurd cycle.2 (acyclic _ cycle.1)

end Climb

section Descend

variable {Key : Type u}

def descend (children : Key → List Key) : ℕ → List Key → List Key → Option (List Key)
  | _, [], visited => some visited
  | 0, _ :: _, _ => none
  | fuel + 1, current :: stack, visited =>
      descend children fuel ((children current).reverse ++ stack) (visited ++ [current])

/-- What holds of the stack and the visited keys on every pass of `descend`. -/
structure Descending (children : Key → List Key) (root : Key) (stack visited : List Key) :
    Prop where
  nodup : (visited ++ stack).Nodup
  below : ∀ id ∈ visited ++ stack, ReflTransGen (fun parent child => child ∈ children parent) root id
  rootMem : root ∈ visited ++ stack
  closed : ∀ parent ∈ visited, ∀ child ∈ children parent, child ∈ visited ++ stack
  origin : ∀ id ∈ visited ++ stack, id = root ∨ ∃ parent ∈ visited, id ∈ children parent

variable {children : Key → List Key} {root : Key}

theorem Descending.step (childNodup : ∀ parent, (children parent).Nodup)
    (oneParent : ∀ {left right child}, child ∈ children left → child ∈ children right →
      left = right)
    (acyclic : Acyclic fun parent child => child ∈ children parent)
    {current : Key} {stack visited : List Key}
    (descending : Descending children root (current :: stack) visited) :
    Descending children root ((children current).reverse ++ stack) (visited ++ [current]) := by
  have currentMem : current ∈ visited ++ current :: stack := by simp
  have currentNew : current ∉ visited := fun old =>
    (List.nodup_append.mp descending.nodup).2.2 current old current List.mem_cons_self rfl
  -- A child of the popped key has not been pushed before: its only parent is popped now.
  have childNew : ∀ child ∈ children current, child ∉ visited ++ current :: stack := by
    intro child childMem old
    rcases descending.origin child old with isRoot | ⟨parent, parentMem, childOf⟩
    · subst isRoot
      exact acyclic child (TransGen.tail' (descending.below current currentMem) childMem)
    · exact currentNew (oneParent childOf childMem ▸ parentMem)
  have members : ∀ {id}, id ∈ visited ++ [current] ++ ((children current).reverse ++ stack) ↔
      id ∈ visited ++ current :: stack ∨ id ∈ children current := by
    intro id
    simp only [List.mem_append, List.mem_reverse, List.mem_cons, List.not_mem_nil, or_false]
    tauto
  refine ⟨?_, ?_, ?_, ?_, ?_⟩
  · have shuffled : (visited ++ [current] ++ ((children current).reverse ++ stack)).Perm
        ((visited ++ current :: stack) ++ children current) := by
      simp only [List.append_assoc, List.singleton_append]
      refine List.Perm.append_left _ (List.Perm.cons _ ?_)
      exact List.perm_append_comm.trans ((List.reverse_perm _).append_left _)
    rw [shuffled.nodup_iff, List.nodup_append]
    refine ⟨descending.nodup, childNodup current, ?_⟩
    rintro id old _ childMem rfl
    exact childNew id childMem old
  · intro id member
    rcases members.mp member with old | childMem
    · exact descending.below id old
    · exact (descending.below current currentMem).tail childMem
  · exact members.mpr (Or.inl descending.rootMem)
  · intro parent parentMem child childMem
    rcases List.mem_append.mp parentMem with old | popped
    · exact members.mpr (Or.inl (descending.closed parent old child childMem))
    · rw [List.mem_singleton] at popped
      subst popped
      exact members.mpr (Or.inr childMem)
  · intro id member
    rcases members.mp member with old | childMem
    · refine (descending.origin id old).imp_right ?_
      rintro ⟨parent, parentMem, childOf⟩
      exact ⟨parent, List.mem_append_left _ parentMem, childOf⟩
    · exact Or.inr ⟨current, by simp, childMem⟩

theorem descend_spec (childNodup : ∀ parent, (children parent).Nodup)
    (oneParent : ∀ {left right child}, child ∈ children left → child ∈ children right →
      left = right)
    (acyclic : Acyclic fun parent child => child ∈ children parent) {support : List Key}
    (bounded : ∀ parent, ∀ child ∈ children parent, child ∈ support) {fuel : ℕ}
    {stack visited : List Key} (descending : Descending children root stack visited)
    (enough : support.length < visited.length + fuel) :
    ∃ all, descend children fuel stack visited = some all ∧
      Descending children root [] all := by
  induction fuel generalizing stack visited with
  | zero =>
      cases stack with
      | nil => exact ⟨visited, rfl, descending⟩
      | cons current stack =>
          exfalso
          have inside : visited ++ current :: stack ⊆ root :: support := by
            intro id member
            rcases descending.origin id member with isRoot | ⟨parent, -, childOf⟩
            · exact isRoot ▸ List.mem_cons_self
            · exact List.mem_cons_of_mem _ (bounded parent id childOf)
          have short := descending.nodup.length_le_of_subset inside
          simp only [List.length_append, List.length_cons] at short
          omega
  | succ fuel ih =>
      cases stack with
      | nil => exact ⟨visited, rfl, descending⟩
      | cons current stack =>
          apply ih (descending.step childNodup oneParent acyclic)
          simp only [List.length_append, List.length_singleton]
          omega

theorem descend_root (childNodup : ∀ parent, (children parent).Nodup)
    (oneParent : ∀ {left right child}, child ∈ children left → child ∈ children right →
      left = right)
    (acyclic : Acyclic fun parent child => child ∈ children parent) {support : List Key}
    (bounded : ∀ parent, ∀ child ∈ children parent, child ∈ support) {fuel : ℕ}
    (enough : support.length < fuel) :
    ∃ all, descend children fuel [root] [] = some all ∧ all.Nodup ∧
      ∀ id, id ∈ all ↔ ReflTransGen (fun parent child => child ∈ children parent) root id := by
  have initially : Descending children root [root] [] :=
    ⟨by simp, by simp [ReflTransGen.refl], by simp, by simp, by simp⟩
  rcases descend_spec childNodup oneParent acyclic bounded initially (by simpa using enough) with
    ⟨all, result, final⟩
  refine ⟨all, result, by simpa using final.nodup, ?_⟩
  intro id
  constructor
  · intro member
    exact final.below id (by simpa using member)
  · intro path
    induction path with
    | refl => simpa using final.rootMem
    | tail _ step ih => simpa using final.closed _ ih _ step

end Descend

end Graph
