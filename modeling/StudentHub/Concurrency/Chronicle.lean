import Mathlib.Data.List.Infix

/-!
# Chronicles

A history lists what has happened, newest first, and in a chronicle everything is
justified by what is older. A justification is given once, when a thing happens; what
comes later does not take it back.
-/

namespace Concurrency

variable {Happening : Type} {Justified : List Happening → Happening → Prop}
  {history earlier earlier' : List Happening} {happening other : Happening}

def Chronicle (Justified : List Happening → Happening → Prop) (history : List Happening) : Prop :=
  ∀ happening earlier, happening :: earlier <:+ history → Justified earlier happening

theorem Chronicle.nil : Chronicle Justified [] := by
  intro happening earlier suffix
  simp at suffix

theorem Chronicle.cons (chronicle : Chronicle Justified history)
    (justified : Justified history happening) : Chronicle Justified (happening :: history) := by
  intro last earlier suffix
  rcases List.suffix_cons_iff.mp suffix with same | older
  · rw [List.cons.injEq] at same
    rw [same.1, same.2]
    exact justified
  · exact chronicle last earlier older

theorem exists_suffix_of_mem (happened : happening ∈ history) :
    ∃ earlier, happening :: earlier <:+ history := by
  rcases List.append_of_mem happened with ⟨later, earlier, rfl⟩
  exact ⟨earlier, later, rfl⟩

theorem Chronicle.of_mem (chronicle : Chronicle Justified history)
    (happened : happening ∈ history) :
    ∃ earlier, happening :: earlier <:+ history ∧ Justified earlier happening := by
  rcases exists_suffix_of_mem happened with ⟨earlier, suffix⟩
  exact ⟨earlier, suffix, chronicle happening earlier suffix⟩

theorem mem_of_suffix (suffix : happening :: earlier <:+ history) : happening ∈ history :=
  suffix.subset List.mem_cons_self

theorem mem_of_mem_suffix (suffix : happening :: earlier <:+ history) (older : other ∈ earlier) :
    other ∈ history :=
  suffix.subset (List.mem_cons_of_mem _ older)

theorem same_or_older (suffix : happening :: earlier <:+ history)
    (suffix' : other :: earlier' <:+ history) :
    (happening = other ∧ earlier = earlier') ∨ happening :: earlier <:+ earlier' ∨
      other :: earlier' <:+ earlier := by
  rcases List.suffix_or_suffix_of_suffix suffix suffix' with within | within
  · rcases List.suffix_cons_iff.mp within with same | older
    · exact Or.inl (List.cons.inj same)
    · exact Or.inr (Or.inl older)
  · rcases List.suffix_cons_iff.mp within with same | older
    · exact Or.inl ⟨(List.cons.inj same).1.symm, (List.cons.inj same).2.symm⟩
    · exact Or.inr (Or.inr older)

theorem exists_oldest {kind : Happening → Prop} (happened : happening ∈ history)
    (isKind : kind happening) : ∃ later oldest earlier, history = later ++ oldest :: earlier ∧
      kind oldest ∧ ∀ other ∈ earlier, ¬kind other := by
  induction history generalizing happening with
  | nil => simp at happened
  | cons newest rest ih =>
    by_cases older : ∃ other ∈ rest, kind other
    · rcases older with ⟨other, isOlder, otherKind⟩
      rcases ih isOlder otherKind with ⟨later, oldest, earlier, rfl, facts⟩
      exact ⟨newest :: later, oldest, earlier, rfl, facts⟩
    · push Not at older
      rcases List.mem_cons.mp happened with rfl | inside
      · exact ⟨[], happening, rest, rfl, isKind, older⟩
      · exact absurd isKind (older happening inside)

end Concurrency
