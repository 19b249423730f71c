import Mathlib.Algebra.Order.Group.Nat
import Mathlib.Data.List.Basic
import Mathlib.Tactic.SplitIfs

/-!
# Patterns that are searched for

A pattern is searched for at every place of a text, and a place where it has begun is kept with all
places where it may end. What is found in a text is found in every text that goes on from it, as long
as a boundary is only asked for where a letter must come next.
-/

namespace Patterns

universe u

variable {Letter : Type u}

structure Place (Letter : Type u) where
  before : Option Letter
  after : List Letter

inductive Pattern (Letter : Type u)
  | nothing
  | one (fits : Letter → Bool)
  | run (fits : Letter → Bool) (least : ℕ)
  | boundary (isWord : Letter → Bool)
  | andThen (first second : Pattern Letter)
  | either (first second : Pattern Letter)

def runEnds (fits : Letter → Bool) : List Letter → ℕ → Option Letter → List (Place Letter)
  | [], least, before => if least = 0 then [⟨before, []⟩] else []
  | letter :: rest, least, before =>
      (if least = 0 then [⟨before, letter :: rest⟩] else []) ++
        if fits letter then runEnds fits rest (least - 1) (some letter) else []

def places : Option Letter → List Letter → List (Place Letter)
  | before, [] => [⟨before, []⟩]
  | before, letter :: rest => ⟨before, letter :: rest⟩ :: places (some letter) rest

namespace Pattern

def ends : Pattern Letter → Place Letter → List (Place Letter)
  | nothing, place => [place]
  | one _, ⟨_, []⟩ => []
  | one fits, ⟨_, letter :: rest⟩ => if fits letter then [⟨some letter, rest⟩] else []
  | run fits least, place => runEnds fits place.after least place.before
  | boundary isWord, place =>
      if place.before.any isWord = place.after.head?.any isWord then [] else [place]
  | andThen first second, place => (first.ends place).flatMap second.ends
  | either first second, place => first.ends place ++ second.ends place

/-- `pattern.test(text)` -/
def test (pattern : Pattern Letter) (text : List Letter) : Bool :=
  (places none text).any fun place => !(pattern.ends place).isEmpty

def sequence (patterns : List (Pattern Letter)) : Pattern Letter := patterns.foldr andThen nothing

def oneOf (patterns : List (Pattern Letter)) : Pattern Letter :=
  patterns.foldr either (one fun _ => false)

def optional (pattern : Pattern Letter) : Pattern Letter := pattern.either nothing

def letters (same : Letter → Letter → Bool) (text : List Letter) : Pattern Letter :=
  sequence (text.map fun letter => one (same letter))

def isFree : Pattern Letter → Bool
  | boundary _ => false
  | nothing | one _ | run .. => true
  | andThen first second | either first second => first.isFree && second.isFree

def consumes : Pattern Letter → Bool
  | nothing | boundary _ => false
  | one _ => true
  | run _ least => 0 < least
  | andThen first second => first.consumes || second.consumes
  | either first second => first.consumes && second.consumes

/-- A boundary is asked for at the beginning alone, and a letter must come next. -/
def isSteady : Pattern Letter → Bool
  | andThen (boundary _) rest => rest.isFree && rest.consumes
  | pattern => pattern.isFree

end Pattern

def Place.extend (place : Place Letter) (more : List Letter) : Place Letter :=
  ⟨place.before, place.after ++ more⟩

theorem extend_mem_runEnds {fits : Letter → Bool} {text more : List Letter} {least : ℕ}
    {before : Option Letter} {last : Place Letter} (isEnd : last ∈ runEnds fits text least before) :
    last.extend more ∈ runEnds fits (text ++ more) least before := by
  induction text generalizing least before with
  | nil =>
      simp only [runEnds] at isEnd
      split_ifs at isEnd with none
      · rw [List.mem_singleton.mp isEnd, none]
        cases more <;> simp [runEnds, Place.extend]
      · cases isEnd
  | cons letter rest ih =>
      simp only [runEnds, List.cons_append, List.mem_append] at isEnd ⊢
      rcases isEnd with here | later
      · left
        split_ifs at here with none
        · rw [if_pos none, List.mem_singleton.mp here]
          exact List.mem_singleton_self _
        · cases here
      · right
        split_ifs at later with fit
        · rw [if_pos fit]
          exact ih later
        · cases later

theorem length_le_of_mem_runEnds {fits : Letter → Bool} {text : List Letter} {least : ℕ}
    {before : Option Letter} {last : Place Letter} (isEnd : last ∈ runEnds fits text least before) :
    last.after.length + least ≤ text.length := by
  induction text generalizing least before with
  | nil =>
      simp only [runEnds] at isEnd
      split_ifs at isEnd with none
      · rw [List.mem_singleton.mp isEnd, none]
        exact le_rfl
      · cases isEnd
  | cons letter rest ih =>
      simp only [runEnds, List.mem_append, List.length_cons] at isEnd ⊢
      rcases isEnd with here | later
      · split_ifs at here with none
        · rw [List.mem_singleton.mp here, none, List.length_cons]
        · cases here
      · split_ifs at later
        · have shorter := ih later
          omega
        · cases later

namespace Pattern

variable {pattern : Pattern Letter} {place last : Place Letter} {more : List Letter}

theorem extend_mem_ends (free : pattern.isFree = true) (isEnd : last ∈ pattern.ends place) :
    last.extend more ∈ pattern.ends (place.extend more) := by
  induction pattern generalizing place last with
  | nothing =>
      rw [ends, List.mem_singleton] at isEnd ⊢
      rw [isEnd]
  | one fits =>
      rcases place with ⟨before, _ | ⟨letter, rest⟩⟩
      · cases isEnd
      · simp only [ends, Place.extend, List.cons_append] at isEnd ⊢
        split_ifs at isEnd with fit
        · rw [if_pos fit, List.mem_singleton.mp isEnd]
          exact List.mem_singleton_self _
        · cases isEnd
  | run fits least => exact extend_mem_runEnds isEnd
  | boundary isWord => cases free
  | andThen first second firstMore secondMore =>
      rw [isFree, Bool.and_eq_true] at free
      rw [ends, List.mem_flatMap] at isEnd ⊢
      rcases isEnd with ⟨middle, isMiddle, isEnd⟩
      exact ⟨middle.extend more, firstMore free.1 isMiddle, secondMore free.2 isEnd⟩
  | either first second firstMore secondMore =>
      rw [isFree, Bool.and_eq_true] at free
      rw [ends, List.mem_append] at isEnd ⊢
      rcases isEnd with isFirst | isSecond
      · exact .inl (firstMore free.1 isFirst)
      · exact .inr (secondMore free.2 isSecond)

theorem length_le_of_mem_ends (isEnd : last ∈ pattern.ends place) :
    last.after.length ≤ place.after.length := by
  induction pattern generalizing place last with
  | nothing =>
      rw [ends, List.mem_singleton] at isEnd
      rw [isEnd]
  | one fits =>
      rcases place with ⟨before, _ | ⟨letter, rest⟩⟩
      · cases isEnd
      · simp only [ends] at isEnd
        split_ifs at isEnd
        · rw [List.mem_singleton.mp isEnd]
          exact Nat.le_succ _
        · cases isEnd
  | run fits least =>
      have shorter := length_le_of_mem_runEnds isEnd
      omega
  | boundary isWord =>
      rw [ends] at isEnd
      split_ifs at isEnd
      · cases isEnd
      · rw [List.mem_singleton.mp isEnd]
  | andThen first second firstShorter secondShorter =>
      rw [ends, List.mem_flatMap] at isEnd
      rcases isEnd with ⟨middle, isMiddle, isEnd⟩
      exact (secondShorter isEnd).trans (firstShorter isMiddle)
  | either first second firstShorter secondShorter =>
      rw [ends, List.mem_append] at isEnd
      rcases isEnd with isFirst | isSecond
      · exact firstShorter isFirst
      · exact secondShorter isSecond

theorem length_lt_of_mem_ends (letter : pattern.consumes = true) (isEnd : last ∈ pattern.ends place) :
    last.after.length < place.after.length := by
  induction pattern generalizing place last with
  | nothing => cases letter
  | one fits =>
      rcases place with ⟨before, _ | ⟨letter, rest⟩⟩
      · cases isEnd
      · simp only [ends] at isEnd
        split_ifs at isEnd
        · rw [List.mem_singleton.mp isEnd]
          exact Nat.lt_succ_self _
        · cases isEnd
  | run fits least =>
      have shorter := length_le_of_mem_runEnds isEnd
      have some := of_decide_eq_true letter
      omega
  | boundary isWord => cases letter
  | andThen first second firstShorter secondShorter =>
      rw [ends, List.mem_flatMap] at isEnd
      rcases isEnd with ⟨middle, isMiddle, isEnd⟩
      rw [consumes, Bool.or_eq_true] at letter
      rcases letter with inFirst | inSecond
      · exact (length_le_of_mem_ends isEnd).trans_lt (firstShorter inFirst isMiddle)
      · exact (secondShorter inSecond isEnd).trans_le (length_le_of_mem_ends isMiddle)
  | either first second firstShorter secondShorter =>
      rw [ends, List.mem_append] at isEnd
      rw [consumes, Bool.and_eq_true] at letter
      rcases isEnd with isFirst | isSecond
      · exact firstShorter letter.1 isFirst
      · exact secondShorter letter.2 isSecond

theorem extend_mem_ends_of_steady (steady : pattern.isSteady = true)
    (isEnd : last ∈ pattern.ends place) : last.extend more ∈ pattern.ends (place.extend more) := by
  unfold isSteady at steady
  split at steady
  · rename_i isWord rest
    rw [Bool.and_eq_true] at steady
    rw [ends, List.mem_flatMap] at isEnd ⊢
    rcases isEnd with ⟨middle, atBoundary, isEnd⟩
    have shorter := length_lt_of_mem_ends steady.2 isEnd
    have same : middle = place := by
      rw [ends] at atBoundary
      split_ifs at atBoundary
      · cases atBoundary
      · exact List.mem_singleton.mp atBoundary
    subst same
    refine ⟨middle.extend more, ?_, extend_mem_ends steady.1 isEnd⟩
    rcases middle with ⟨before, _ | ⟨letter, rest⟩⟩
    · cases shorter
    · rw [ends] at atBoundary
      split_ifs at atBoundary with same
      · cases atBoundary
      · rw [ends, if_neg]
        · exact List.mem_singleton_self _
        · exact same
  · exact extend_mem_ends steady isEnd

end Pattern

theorem extend_mem_places {text more : List Letter} {before : Option Letter} {place : Place Letter}
    (isPlace : place ∈ places before text) : place.extend more ∈ places before (text ++ more) := by
  induction text generalizing before with
  | nil =>
      rw [places, List.mem_singleton] at isPlace
      rw [isPlace]
      cases more with
      | nil => exact List.mem_singleton_self _
      | cons letter rest => exact List.mem_cons_self
  | cons letter rest ih =>
      rw [places, List.mem_cons] at isPlace
      rw [List.cons_append, places, List.mem_cons]
      rcases isPlace with same | later
      · left
        rw [same]
        rfl
      · exact .inr (ih later)

theorem Pattern.test_append {pattern : Pattern Letter} (steady : pattern.isSteady = true)
    {text : List Letter} (found : pattern.test text = true) (more : List Letter) :
    pattern.test (text ++ more) = true := by
  simp only [test, List.any_eq_true, Bool.not_eq_true', List.isEmpty_eq_false_iff_exists_mem]
    at found ⊢
  rcases found with ⟨place, isPlace, last, isEnd⟩
  exact ⟨place.extend more, extend_mem_places isPlace, last.extend more,
    extend_mem_ends_of_steady steady isEnd⟩

theorem Pattern.test_eq_false_of_prefix {pattern : Pattern Letter}
    (steady : pattern.isSteady = true) {front text : List Letter} (begins : front <+: text)
    (absent : pattern.test text = false) : pattern.test front = false := by
  rcases begins with ⟨more, rfl⟩
  rw [Bool.eq_false_iff] at absent ⊢
  intro found
  exact absent (test_append steady found more)

end Patterns
