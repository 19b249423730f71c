import Mathlib.Data.List.Dedup
import Mathlib.Data.List.Perm.Subperm
import Mathlib.Logic.Relation

/-!
# Recursive queries

`WITH RECURSIVE q AS (seed UNION step)` keeps a working table. Each round applies the
recursive term to the working table alone, drops the rows that the result already
has, and appends the others. Because `UNION` drops repeated rows, the query ends
whenever its rows come from a finite set, cycles included, and its result is then the
set of rows that the seed reaches. `UNION ALL` keeps repeated rows, and its rounds end where no row
leads on for ever.
-/

namespace Sql

universe u

open Relation

variable {Row : Type u} [DecidableEq Row]

/-- Rounds of a recursive query; `none` stands for a query that has not ended in `fuel` rounds. -/
def rounds (step : Row → List Row) : ℕ → List Row → List Row → Option (List Row)
  | _, [], result => some result
  | 0, _ :: _, _ => none
  | fuel + 1, row :: rest, result =>
      let fresh := (((row :: rest).flatMap step).dedup).filter fun next => next ∉ result
      rounds step fuel fresh (result ++ fresh)

/-- The rows of `WITH RECURSIVE q AS (seed UNION step)`. -/
def recursiveUnion (step : Row → List Row) (fuel : ℕ) (seed : List Row) : Option (List Row) :=
  rounds step fuel seed.dedup seed.dedup

structure Exploring (step : Row → List Row) (seed working result : List Row) : Prop where
  nodup : result.Nodup
  seeded : ∀ row ∈ seed, row ∈ result
  reached : ∀ row ∈ result, ∃ start ∈ seed,
    ReflTransGen (fun source target => target ∈ step source) start row
  closed : ∀ row ∈ result, row ∈ working ∨ ∀ next ∈ step row, next ∈ result
  workingMem : ∀ row ∈ working, row ∈ result

variable {step : Row → List Row} {seed working result : List Row}

theorem exploring_start (step : Row → List Row) (seed : List Row) :
    Exploring step seed seed.dedup seed.dedup where
  nodup := seed.nodup_dedup
  seeded := fun _ member => List.mem_dedup.mpr member
  reached := fun row member => ⟨row, List.mem_dedup.mp member, ReflTransGen.refl⟩
  closed := fun _ member => Or.inl member
  workingMem := fun _ member => member

theorem Exploring.round (exploring : Exploring step seed working result) {fresh : List Row}
    (isFresh : fresh = ((working.flatMap step).dedup).filter fun next => next ∉ result) :
    Exploring step seed fresh (result ++ fresh) := by
  have freshMem : ∀ row, row ∈ fresh ↔ (∃ source ∈ working, row ∈ step source) ∧ row ∉ result := by
    intro row
    simp [isFresh]
  refine ⟨?_, ?_, ?_, ?_, ?_⟩
  · apply exploring.nodup.append
    · rw [isFresh]
      exact (List.nodup_dedup _).filter _
    · intro row old new
      exact ((freshMem row).mp new).2 old
  · intro row member
    exact List.mem_append_left _ (exploring.seeded row member)
  · intro row member
    rcases List.mem_append.mp member with old | new
    · exact exploring.reached row old
    · rcases ((freshMem row).mp new).1 with ⟨source, sourceMem, isNext⟩
      rcases exploring.reached source (exploring.workingMem source sourceMem) with
        ⟨start, startMem, path⟩
      exact ⟨start, startMem, path.tail isNext⟩
  · intro row member
    rcases List.mem_append.mp member with old | new
    · right
      intro next isNext
      rcases exploring.closed row old with inWorking | closed
      · by_cases known : next ∈ result
        · exact List.mem_append_left _ known
        · exact List.mem_append_right _ ((freshMem next).mpr ⟨⟨row, inWorking, isNext⟩, known⟩)
      · exact List.mem_append_left _ (closed next isNext)
    · exact Or.inl new
  · intro row member
    exact List.mem_append_right _ member

omit [DecidableEq Row] in
theorem Exploring.length_le (exploring : Exploring step seed working result) {support : List Row}
    (seedIn : ∀ row ∈ seed, row ∈ support) (stepIn : ∀ row, ∀ next ∈ step row, next ∈ support) :
    result.length ≤ support.length := by
  apply exploring.nodup.length_le_of_subset
  intro row member
  rcases exploring.reached row member with ⟨start, startMem, path⟩
  cases path with
  | refl => exact seedIn row startMem
  | tail _ isNext => exact stepIn _ row isNext

theorem rounds_spec {support : List Row} (seedIn : ∀ row ∈ seed, row ∈ support)
    (stepIn : ∀ row, ∀ next ∈ step row, next ∈ support) {fuel : ℕ}
    (exploring : Exploring step seed working result)
    (enough : support.length < result.length + fuel) :
    ∃ all, rounds step fuel working result = some all ∧ Exploring step seed [] all := by
  induction fuel generalizing working result with
  | zero =>
      have inside := exploring.length_le seedIn stepIn
      omega
  | succ fuel ih =>
      cases working with
      | nil => exact ⟨result, rfl, exploring⟩
      | cons row rest =>
          have next := exploring.round rfl
          simp only [rounds]
          generalize ((((row :: rest).flatMap step).dedup).filter fun next => next ∉ result) =
            fresh at next
          cases fresh with
          | nil =>
              refine ⟨result ++ [], ?_, next⟩
              cases fuel <;> rfl
          | cons first others =>
              apply ih next
              simp only [List.length_append, List.length_cons]
              omega

theorem recursiveUnion_spec {support : List Row} (seedIn : ∀ row ∈ seed, row ∈ support)
    (stepIn : ∀ row, ∀ next ∈ step row, next ∈ support) {fuel : ℕ}
    (enough : support.length < fuel) :
    ∃ all, recursiveUnion step fuel seed = some all ∧ ∀ row, row ∈ all ↔
      ∃ start ∈ seed, ReflTransGen (fun source target => target ∈ step source) start row := by
  rcases rounds_spec seedIn stepIn (exploring_start step seed) (by omega : support.length <
    seed.dedup.length + fuel) with ⟨all, ended, final⟩
  refine ⟨all, ended, ?_⟩
  intro row
  constructor
  · exact final.reached row
  · rintro ⟨start, startMem, path⟩
    induction path with
    | refl => exact final.seeded start startMem
    | tail _ isNext ih =>
        rcases final.closed _ ih with inWorking | closed
        · cases inWorking
        · exact closed _ isNext

section All

variable {Item : Type u} {follow : Item → List Item}

def allRounds (follow : Item → List Item) : ℕ → List Item → List Item → Option (List Item)
  | _, [], result => some result
  | 0, _ :: _, _ => none
  | fuel + 1, row :: rest, result =>
      let next := (row :: rest).flatMap follow
      allRounds follow fuel next (result ++ next)

/-- The rows of `WITH RECURSIVE q AS (seed UNION ALL step)`. -/
def recursiveUnionAll (follow : Item → List Item) (fuel : ℕ) (seed : List Item) :
    Option (List Item) :=
  allRounds follow fuel seed seed

theorem allRounds_spec {rank : Item → ℕ}
    (descends : ∀ row, ∀ next ∈ follow row, rank next < rank row) {fuel : ℕ}
    {working result : List Item} (bounded : ∀ row ∈ working, rank row < fuel) :
    ∃ all, allRounds follow fuel working result = some all ∧ ∀ row, row ∈ all ↔
      row ∈ result ∨ ∃ start ∈ working,
        TransGen (fun source target => target ∈ follow source) start row := by
  induction fuel generalizing working result with
  | zero =>
      cases working with
      | nil => exact ⟨result, rfl, by simp⟩
      | cons first rest => exact absurd (bounded first List.mem_cons_self) (Nat.not_lt_zero _)
  | succ fuel ih =>
      cases working with
      | nil => exact ⟨result, rfl, by simp⟩
      | cons first rest =>
          have lower : ∀ row ∈ (first :: rest).flatMap follow, rank row < fuel := by
            intro row rowMem
            rcases List.mem_flatMap.mp rowMem with ⟨source, sourceMem, isNext⟩
            have down := descends source row isNext
            have bound := bounded source sourceMem
            omega
          rcases @ih ((first :: rest).flatMap follow)
            (result ++ (first :: rest).flatMap follow) lower with ⟨all, ended, allMem⟩
          refine ⟨all, ended, ?_⟩
          intro row
          rw [allMem, List.mem_append, or_assoc]
          apply or_congr_right
          constructor
          · rintro (rowMem | ⟨start, startMem, path⟩)
            · rcases List.mem_flatMap.mp rowMem with ⟨source, sourceMem, isNext⟩
              exact ⟨source, sourceMem, .single isNext⟩
            · rcases List.mem_flatMap.mp startMem with ⟨source, sourceMem, isNext⟩
              exact ⟨source, sourceMem, .head isNext path⟩
          · rintro ⟨source, sourceMem, path⟩
            rcases TransGen.head'_iff.mp path with ⟨next, isNext, further⟩
            have nextMem : next ∈ (first :: rest).flatMap follow :=
              List.mem_flatMap.mpr ⟨source, sourceMem, isNext⟩
            rcases reflTransGen_iff_eq_or_transGen.mp further with same | steps
            · exact .inl (same ▸ nextMem)
            · exact .inr ⟨next, nextMem, steps⟩

theorem recursiveUnionAll_spec {rank : Item → ℕ}
    (descends : ∀ row, ∀ next ∈ follow row, rank next < rank row) {fuel : ℕ} {seed : List Item}
    (bounded : ∀ row ∈ seed, rank row < fuel) :
    ∃ all, recursiveUnionAll follow fuel seed = some all ∧ ∀ row, row ∈ all ↔
      ∃ start ∈ seed, ReflTransGen (fun source target => target ∈ follow source) start row := by
  rcases @allRounds_spec _ _ rank descends fuel seed seed bounded with ⟨all, ended, allMem⟩
  refine ⟨all, ended, ?_⟩
  intro row
  rw [allMem]
  constructor
  · rintro (rowMem | ⟨start, startMem, path⟩)
    · exact ⟨row, rowMem, .refl⟩
    · exact ⟨start, startMem, path.to_reflTransGen⟩
  · rintro ⟨start, startMem, path⟩
    rcases reflTransGen_iff_eq_or_transGen.mp path with same | steps
    · exact .inl (same ▸ startMem)
    · exact .inr ⟨start, startMem, steps⟩

end All

end Sql
