import StudentHub.Ecma.Digits
import Mathlib.Data.List.Chain

/-!
# Single spaces

A string whose runs of white space are folded has single spaces for its only white space. A
part of such a string is one, and folding its white space again changes nothing.
-/

namespace Ecma

namespace JsString

/-- `replace(/\s+/gu, " ")` -/
def collapse : JsString → JsString
  | [] => []
  | [unit] => [if isWhiteSpace unit then 32 else unit]
  | unit :: next :: rest =>
      if isWhiteSpace unit then
        if isWhiteSpace next then collapse (next :: rest) else 32 :: collapse (next :: rest)
      else
        unit :: collapse (next :: rest)

structure SingleSpaces (text : JsString) : Prop where
  spaces : ∀ unit ∈ text, isWhiteSpace unit = true → unit = 32
  apart : text.IsChain fun unit next => ¬(isWhiteSpace unit = true ∧ isWhiteSpace next = true)

theorem SingleSpaces.of_infix {text part : JsString} (single : SingleSpaces text)
    (inside : part <:+: text) : SingleSpaces part where
  spaces unit unitMem := single.spaces unit (inside.subset unitMem)
  apart := single.apart.infix inside

theorem singleSpaces_trim {text : JsString} (single : SingleSpaces text) :
    SingleSpaces text.trim :=
  single.of_infix
    ((List.rdropWhile_prefix _ _).isInfix.trans (List.dropWhile_suffix _).isInfix)

theorem collapse_cons {unit : UInt16} (visible : isWhiteSpace unit = false) (rest : JsString) :
    collapse (unit :: rest) = unit :: collapse rest := by
  cases rest with
  | nil => simp [collapse, visible]
  | cons next rest => simp [collapse, visible]

theorem singleSpaces_collapse (text : JsString) : SingleSpaces (collapse text) := by
  induction text using collapse.induct with
  | case1 => exact ⟨by simp [collapse], by simp [collapse]⟩
  | case2 unit =>
      simp only [collapse]
      refine ⟨?_, List.isChain_singleton _⟩
      simp only [List.forall_mem_singleton]
      split
      · intro _
        rfl
      · intro space
        contradiction
  | case3 unit next rest space nextSpace ih => simpa [collapse, space, nextSpace] using ih
  | case4 unit next rest space nextVisible ih =>
      have folded : collapse (unit :: next :: rest) = 32 :: next :: collapse rest := by
        rw [collapse, if_pos space, if_neg nextVisible, collapse_cons (by simpa using nextVisible)]
      rw [collapse_cons (by simpa using nextVisible)] at ih
      rw [folded]
      refine ⟨?_, ?_⟩
      · rw [List.forall_mem_cons]
        exact ⟨fun _ => rfl, ih.spaces⟩
      · refine List.IsChain.cons_cons ?_ ih.apart
        simp [nextVisible]
  | case5 unit next rest visible ih =>
      rw [collapse, if_neg visible]
      refine ⟨?_, ?_⟩
      · rw [List.forall_mem_cons]
        exact ⟨fun space => absurd space visible, ih.spaces⟩
      · apply List.isChain_cons.mpr
        refine ⟨?_, ih.apart⟩
        simp [visible]

theorem collapse_eq_self {text : JsString} (single : SingleSpaces text) : collapse text = text := by
  induction text using collapse.induct with
  | case1 => rfl
  | case2 unit =>
      simp only [collapse]
      split
      · rename_i space
        rw [single.spaces unit List.mem_cons_self space]
      · rfl
  | case3 unit next rest space nextSpace ih =>
      have together := single.apart.rel
      exact absurd ⟨space, nextSpace⟩ together
  | case4 unit next rest space nextVisible ih =>
      rw [collapse, if_pos space, if_neg nextVisible,
        ih (single.of_infix (List.suffix_cons _ _).isInfix),
        single.spaces unit List.mem_cons_self space]
  | case5 unit next rest visible ih =>
      rw [collapse, if_neg visible, ih (single.of_infix (List.suffix_cons _ _).isInfix)]

end JsString

end Ecma
