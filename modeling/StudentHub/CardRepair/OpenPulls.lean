import StudentHub.Coordinator.Eligibility
import StudentHub.Order.Pages

/-!
# The open pull requests of a repository

They are read page by page until a page is short, while others open and close pull requests. A
repair runs only for the one pull request that claims its card, so a read that is complete has to
have every pull request that was open all the time.
-/

namespace StudentHub.CardRepair

open Ecma JsString JsValue Coordinator Paging

def REPAIR_PULL_PAGE : ℕ := 100

inductive PageFault
  | status (status : ℕ)
  | failure (message : JsString)

inductive PageAnswer
  | fault (fault : PageFault)
  | body (value : JsValue)

structure PullRead where
  complete : Bool
  items : List JsValue
  reason : Option JsString

def incomplete (reason : JsString) : PullRead := ⟨false, [], some reason⟩

/-- `byNumber` with the pull requests of a page that it does not have. -/
def addPulls (byNumber : List (ℤ × JsValue)) (pulls : List JsValue) : List (ℤ × JsValue) :=
  pulls.foldl (fun byNumber pull =>
    match (pull.get (js "number")).safeInteger? with
    | some found =>
        if byNumber.any fun kept => kept.1 = found then byNumber else byNumber ++ [(found, pull)]
    | none => byNumber) byNumber

def readPages (answer : ℕ → PageAnswer) (maxPages : ℕ) :
    ℕ → ℕ → List (ℤ × JsValue) → PullRead
  | 0, _, _ => incomplete (js "more than " ++ decimal (maxPages * REPAIR_PULL_PAGE) ++
      js " open pull requests; the read stops at its page cap")
  | remaining + 1, page, byNumber =>
      let name := js "open pull request page " ++ decimal page
      match answer page with
      | .fault (.status status) => incomplete (name ++ js " failed with HTTP " ++ decimal status)
      | .fault (.failure message) => incomplete (name ++ js " could not be read (" ++ message ++ js ")")
      | .body (.array pulls) =>
          let byNumber := addPulls byNumber pulls
          if pulls.length < REPAIR_PULL_PAGE then ⟨true, byNumber.map Prod.snd, none⟩
          else readPages answer maxPages remaining (page + 1) byNumber
      | .body _ => incomplete (name ++ js " was not an array")

/-- `/^[A-Za-z0-9_.-]+\/[A-Za-z0-9_.-]+$/` -/
def isRepository (repo : JsString) : Bool :=
  let isNamed (unit : UInt16) : Bool :=
    (65 ≤ unit && unit ≤ 90) || (97 ≤ unit && unit ≤ 122) || (48 ≤ unit && unit ≤ 57) ||
      unit = 95 || unit = 46 || unit = 45
  match repo.splitOn 47 with
  | [owner, name] => owner ≠ [] && name ≠ [] && owner.all isNamed && name.all isNamed
  | _ => false

def readOpenPulls (repo token : JsString) (answer : ℕ → PageAnswer) (maxPages : ℕ) : PullRead :=
  if token = [] then incomplete (js "GITHUB_TOKEN is unavailable")
  else if !isRepository repo then incomplete (js "no pilot repository is configured")
  else readPages answer maxPages maxPages 1 []

structure Pull where
  number : ℕ
  safe : number ≤ MAX_SAFE_INTEGER
  fields : List (JsString × JsValue)

def Pull.toValue (pull : Pull) : JsValue :=
  .object ((js "number", .number (.ofNat pull.number)) :: pull.fields)

structure OpenPulls where
  pulls : List Pull
  newestFirst : (pulls.map Pull.number).Pairwise (· > ·)

def OpenPulls.numbers (open' : OpenPulls) : List ℕ := open'.pulls.map Pull.number

/-- What is open at each moment, and when the pages are asked for, of which some requests may
fail. -/
structure History where
  opens : ℕ → OpenPulls
  start : ℕ
  finish : ℕ
  asked : ℕ → ℕ
  during : ∀ page, start ≤ asked page ∧ asked page ≤ finish
  inTurn : Monotone asked
  fault : ℕ → Option PageFault

namespace History

variable (history : History)

def seen (place : ℕ) : OpenPulls := history.opens (history.asked (place + 1))

def pagePulls (place : ℕ) : List Pull := page REPAIR_PULL_PAGE place (history.seen place).pulls

def answer (number : ℕ) : PageAnswer :=
  match history.fault number with
  | some fault => .fault fault
  | none => .body (.array ((history.pagePulls (number - 1)).map Pull.toValue))

def OpenThroughout (number : ℕ) : Prop :=
  ∀ moment, history.start ≤ moment → moment ≤ history.finish →
    number ∈ (history.opens moment).numbers

def newer (number place : ℕ) : ℕ := ahead (history.seen place).numbers number

/-- The read comes to its end with a short page at this place. -/
structure Ends (maxPages last : ℕ) : Prop where
  capped : last < maxPages
  answered : ∀ place ≤ last, history.fault (place + 1) = none
  full : ∀ place < last, ¬(history.pagePulls place).length < REPAIR_PULL_PAGE
  short : (history.pagePulls last).length < REPAIR_PULL_PAGE

/-- Between two requests the pull request comes from behind the pages that have been read to
before the end of them. -/
def Crosses (number place : ℕ) : Prop :=
  REPAIR_PULL_PAGE * (place + 1) ≤ history.newer number place ∧
    history.newer number (place + 1) < REPAIR_PULL_PAGE * (place + 1)

/-- The pull request is on this page when it is asked for. -/
def OnPage (number place : ℕ) : Prop :=
  REPAIR_PULL_PAGE * place ≤ history.newer number place ∧
    history.newer number place < REPAIR_PULL_PAGE * (place + 1)

end History

section Loops

variable {history : History} {byNumber : List (ℤ × JsValue)} {maxPages : ℕ}

theorem safeInteger?_toValue (pull : Pull) :
    (pull.toValue.get (js "number")).safeInteger? = some (pull.number : ℤ) := by
  have found : pull.toValue.get (js "number") = .number (.ofNat pull.number) := by
    simp [Pull.toValue, JsValue.get]
  rw [found, safeInteger?_ofNat pull.safe]
  rfl

theorem addPulls_spec (pulls : List Pull) (byNumber : List (ℤ × JsValue)) :
    (∀ number : ℕ, (number : ℤ) ∈ (addPulls byNumber (pulls.map Pull.toValue)).map Prod.fst ↔
      (number : ℤ) ∈ byNumber.map Prod.fst ∨ number ∈ pulls.map Pull.number) ∧
    ∀ kept ∈ addPulls byNumber (pulls.map Pull.toValue),
      kept ∈ byNumber ∨ ∃ pull ∈ pulls, kept = ((pull.number : ℤ), pull.toValue) := by
  induction pulls generalizing byNumber with
  | nil => exact ⟨fun number => by simp [addPulls], fun kept isKept => .inl isKept⟩
  | cons pull pulls ih =>
      have step : addPulls byNumber ((pull :: pulls).map Pull.toValue) =
          addPulls (if byNumber.any fun kept => kept.1 = (pull.number : ℤ) then byNumber
            else byNumber ++ [((pull.number : ℤ), pull.toValue)]) (pulls.map Pull.toValue) := by
        rw [List.map_cons, addPulls, List.foldl_cons, safeInteger?_toValue]
        rfl
      rw [step]
      split_ifs with isThere
      · refine ⟨fun number => ?_, fun kept isKept => ?_⟩
        · rw [(ih byNumber).1 number, List.map_cons, List.mem_cons]
          refine ⟨fun found => found.imp_right .inr, ?_⟩
          rintro (before | rfl | later)
          · exact .inl before
          · rcases List.any_eq_true.mp isThere with ⟨kept, isKept, same⟩
            exact .inl (List.mem_map.mpr ⟨kept, isKept, of_decide_eq_true same⟩)
          · exact .inr later
        · rcases (ih byNumber).2 kept isKept with before | ⟨found, isFound, same⟩
          · exact .inl before
          · exact .inr ⟨found, List.mem_cons_of_mem _ isFound, same⟩
      · refine ⟨fun number => ?_, fun kept isKept => ?_⟩
        · rw [(ih _).1 number, List.map_append, List.mem_append, List.map_cons, List.mem_cons]
          simp [or_assoc]
        · rcases (ih _).2 kept isKept with before | ⟨found, isFound, same⟩
          · rcases List.mem_append.mp before with before | new
            · exact .inl before
            · exact .inr ⟨pull, List.mem_cons_self, List.mem_singleton.mp new⟩
          · exact .inr ⟨found, List.mem_cons_of_mem _ isFound, same⟩

def collectedFrom (history : History) (byNumber : List (ℤ × JsValue)) (place : ℕ) :
    ℕ → List (ℤ × JsValue)
  | 0 => byNumber
  | count + 1 => collectedFrom history
      (addPulls byNumber ((history.pagePulls place).map Pull.toValue)) (place + 1) count

theorem collectedFrom_spec (history : History) (byNumber : List (ℤ × JsValue)) (place count : ℕ) :
    (∀ number : ℕ, (number : ℤ) ∈ (collectedFrom history byNumber place count).map Prod.fst ↔
      (number : ℤ) ∈ byNumber.map Prod.fst ∨ ∃ read, place ≤ read ∧ read < place + count ∧
        number ∈ (history.pagePulls read).map Pull.number) ∧
    ∀ kept ∈ collectedFrom history byNumber place count, kept ∈ byNumber ∨
      ∃ read, place ≤ read ∧ read < place + count ∧ ∃ pull ∈ history.pagePulls read,
        kept = ((pull.number : ℤ), pull.toValue) := by
  induction count generalizing byNumber place with
  | zero =>
      refine ⟨fun number => ?_, fun kept isKept => .inl isKept⟩
      simp only [collectedFrom]
      refine ⟨.inl, ?_⟩
      rintro (found | ⟨read, from', below, -⟩)
      · exact found
      · omega
  | succ count ih =>
      have step := addPulls_spec (history.pagePulls place) byNumber
      have later := ih (addPulls byNumber ((history.pagePulls place).map Pull.toValue)) (place + 1)
      rw [collectedFrom]
      refine ⟨fun number => ?_, fun kept isKept => ?_⟩
      · rw [later.1, step.1]
        constructor
        · rintro ((before | here) | ⟨read, above, below, isNumber⟩)
          · exact .inl before
          · exact .inr ⟨place, by omega, by omega, here⟩
          · exact .inr ⟨read, by omega, by omega, isNumber⟩
        · rintro (before | ⟨read, above, below, isNumber⟩)
          · exact .inl (.inl before)
          · rcases Nat.eq_or_lt_of_le above with rfl | after
            · exact .inl (.inr isNumber)
            · exact .inr ⟨read, after, by omega, isNumber⟩
      · rcases later.2 kept isKept with before | ⟨read, above, below, isPull⟩
        · rcases step.2 kept before with before | isPull
          · exact .inl before
          · exact .inr ⟨place, by omega, by omega, isPull⟩
        · exact .inr ⟨read, by omega, by omega, isPull⟩

theorem answer_succ {place : ℕ} (answered : history.fault (place + 1) = none) :
    history.answer (place + 1) =
      .body (.array ((history.pagePulls place).map Pull.toValue)) := by
  rw [History.answer, answered]
  rfl

theorem readPages_of_ends {last : ℕ} (ends : history.Ends maxPages last) {count place : ℕ}
    (remaining : ℕ) (isLast : place + count = last) (left : count < remaining) :
    readPages history.answer maxPages remaining (place + 1) byNumber =
      ⟨true, (collectedFrom history byNumber place (count + 1)).map Prod.snd, none⟩ := by
  induction count generalizing place byNumber remaining with
  | zero =>
      cases remaining with
      | zero => omega
      | succ remaining =>
          have isPlace : place = last := isLast
          subst isPlace
          rw [readPages, answer_succ (ends.answered place (Nat.le_refl place))]
          simp only [List.length_map, if_pos ends.short, collectedFrom]
  | succ count ih =>
      cases remaining with
      | zero => omega
      | succ remaining =>
          rw [readPages, answer_succ (ends.answered place (by omega))]
          simp only [List.length_map, if_neg (ends.full place (by omega))]
          rw [ih remaining (by omega) (by omega)]
          rfl

theorem exists_ends_of_complete {remaining place : ℕ}
    (isComplete : (readPages history.answer maxPages remaining (place + 1) byNumber).complete = true)
    (isCap : place + remaining = maxPages)
    (answered : ∀ earlier < place, history.fault (earlier + 1) = none)
    (full : ∀ earlier < place, ¬(history.pagePulls earlier).length < REPAIR_PULL_PAGE) :
    ∃ last, history.Ends maxPages last := by
  induction remaining generalizing place byNumber with
  | zero => cases isComplete
  | succ remaining ih =>
      cases isFault : history.fault (place + 1) with
      | some fault =>
          rw [readPages, History.answer, isFault] at isComplete
          cases fault <;> cases isComplete
      | none =>
          have answeredHere : ∀ earlier < place + 1, history.fault (earlier + 1) = none := by
            intro earlier below
            rcases Nat.lt_succ_iff_lt_or_eq.mp below with before | rfl
            · exact answered earlier before
            · exact isFault
          rw [readPages, answer_succ isFault] at isComplete
          simp only [List.length_map] at isComplete
          by_cases short : (history.pagePulls place).length < REPAIR_PULL_PAGE
          · exact ⟨place, by omega, fun earlier below => answeredHere earlier (by omega), full, short⟩
          · rw [if_neg short] at isComplete
            refine ih isComplete (by omega) answeredHere fun earlier below => ?_
            rcases Nat.lt_succ_iff_lt_or_eq.mp below with before | rfl
            · exact full earlier before
            · exact short

end Loops

def pullsInput (claims : JsValue → Bool) (read : PullRead) : JsValue := .object
  [(js "complete", .boolean read.complete), (js "items", .array (read.items.filter claims)),
   (js "reason", match read.reason with | some reason => .string reason | none => .null)]

def History.ClaimsThroughout (history : History) (claims : JsValue → Bool) (number : ℕ) : Prop :=
  ∀ moment, history.start ≤ moment → moment ≤ history.finish →
    ∃ pull ∈ (history.opens moment).pulls, pull.number = number ∧ claims pull.toValue = true

/-- A complete read has every pull request that was open all the time, and so no repair runs for
one of two that claimed the card all the time. -/
structure SeesAll (history : History) (read : PullRead) : Prop where
  all : read.complete = true → ∀ number, history.OpenThroughout number →
    ∃ item ∈ read.items, (item.get (js "number")).safeInteger? = some (number : ℤ)
  one : ∀ claims first second card binding, first ≠ second →
    history.ClaimsThroughout claims first → history.ClaimsThroughout claims second →
      binding.get (js "pulls") = pullsInput claims read → repairEligible card binding ≠ none

theorem complete_pullsInput (claims : JsValue → Bool) (read : PullRead) :
    (pullsInput claims read).get (js "complete") = .boolean read.complete := rfl

theorem items_pullsInput (claims : JsValue → Bool) (read : PullRead) :
    (pullsInput claims read).get (js "items") = .array (read.items.filter claims) := rfl

section Complete

variable {history : History} {repo token : JsString} {maxPages : ℕ}

theorem readOpenPulls_eq (hasToken : token ≠ []) (isRepo : isRepository repo = true)
    (answer : ℕ → PageAnswer) : readOpenPulls repo token answer maxPages =
      readPages answer maxPages maxPages 1 [] := by
  rw [readOpenPulls, if_neg hasToken, isRepo]
  rfl

theorem read_of_ends {last : ℕ} (hasToken : token ≠ []) (isRepo : isRepository repo = true)
    (ends : history.Ends maxPages last) : readOpenPulls repo token history.answer maxPages =
      ⟨true, (collectedFrom history [] 0 (last + 1)).map Prod.snd, none⟩ := by
  rw [readOpenPulls_eq hasToken isRepo]
  exact readPages_of_ends ends maxPages (Nat.zero_add last) ends.capped

theorem exists_ends {answer : ℕ → PageAnswer} (isHistory : answer = history.answer)
    (isComplete : (readOpenPulls repo token answer maxPages).complete = true) :
    token ≠ [] ∧ isRepository repo = true ∧ ∃ last, history.Ends maxPages last := by
  subst isHistory
  rw [readOpenPulls] at isComplete
  split_ifs at isComplete with noToken noRepo
  · cases isComplete
  · cases isComplete
  · refine ⟨noToken, by simpa using noRepo, ?_⟩
    exact @exists_ends_of_complete history [] maxPages maxPages 0 isComplete (Nat.zero_add _)
      (fun _ below => absurd below (Nat.not_lt_zero _))
      fun _ below => absurd below (Nat.not_lt_zero _)

theorem mem_items_iff {last number : ℕ} : (∃ item ∈
      (collectedFrom history [] 0 (last + 1)).map Prod.snd,
        (item.get (js "number")).safeInteger? = some (number : ℤ)) ↔
      ∃ place ≤ last, number ∈ (history.pagePulls place).map Pull.number := by
  have spec := collectedFrom_spec history [] 0 (last + 1)
  have ofKept : ∀ kept ∈ collectedFrom history [] 0 (last + 1),
      (kept.2.get (js "number")).safeInteger? = some kept.1 := by
    intro kept isKept
    rcases spec.2 kept isKept with none | ⟨read, -, -, pull, -, rfl⟩
    · cases none
    · exact safeInteger?_toValue pull
  have inMap := spec.1 number
  simp only [List.map_nil, List.not_mem_nil, false_or, Nat.zero_le, true_and, Nat.zero_add,
    Nat.lt_succ_iff] at inMap
  rw [← inMap, List.mem_map]
  constructor
  · rintro ⟨item, isItem, isNumber⟩
    rcases List.mem_map.mp isItem with ⟨kept, isKept, rfl⟩
    rw [ofKept kept isKept, Option.some.injEq] at isNumber
    exact ⟨kept, isKept, isNumber⟩
  · rintro ⟨kept, isKept, same⟩
    exact ⟨kept.2, List.mem_map_of_mem isKept, by rw [ofKept kept isKept, same]⟩

theorem mem_pagePulls_iff {place number : ℕ} :
    number ∈ (history.pagePulls place).map Pull.number ↔
      number ∈ (history.seen place).numbers ∧ history.OnPage number place := by
  rw [History.pagePulls, page, List.map_take, List.map_drop]
  exact mem_page_iff (history.seen place).newestFirst

theorem seen_of_throughout {number : ℕ} (throughout : history.OpenThroughout number) (place : ℕ) :
    number ∈ (history.seen place).numbers :=
  throughout _ (history.during _).1 (history.during _).2

theorem newer_lt_of_ends {last number : ℕ} (ends : history.Ends maxPages last)
    (isOpen : number ∈ (history.seen last).numbers) :
    history.newer number last < REPAIR_PULL_PAGE * (last + 1) := by
  have ahead := ahead_lt_length isOpen
  have short := ends.short
  rw [History.pagePulls, page, List.length_take, List.length_drop] at short
  rw [OpenPulls.numbers, List.length_map] at ahead
  rw [History.newer, Nat.mul_succ]
  simp only [OpenPulls.numbers] at ahead ⊢
  omega

theorem exists_onPage {last number : ℕ} (ends : history.Ends maxPages last)
    (throughout : history.OpenThroughout number)
    (stays : ∀ place < last, ¬history.Crosses number place) :
    ∃ place ≤ last, history.OnPage number place := by
  apply exists_on_page (history.newer number)
    (newer_lt_of_ends ends (seen_of_throughout throughout last))
  intro place below behind
  by_contra crosses
  exact stays place below ⟨behind, Nat.lt_of_not_le crosses⟩

theorem number_injOn (open' : OpenPulls) {first second : Pull} (isFirst : first ∈ open'.pulls)
    (isSecond : second ∈ open'.pulls) (same : first.number = second.number) : first = second := by
  have distinct : (open'.pulls.map Pull.number).Nodup :=
    open'.newestFirst.imp fun newer => (Nat.ne_of_lt newer).symm
  exact List.inj_on_of_nodup_map distinct isFirst isSecond same

theorem claims_of_mem_items {claims : JsValue → Bool} {number last : ℕ} {item : JsValue}
    (claiming : history.ClaimsThroughout claims number)
    (isItem : item ∈ (collectedFrom history [] 0 (last + 1)).map Prod.snd)
    (isNumber : (item.get (js "number")).safeInteger? = some (number : ℤ)) : claims item = true := by
  rcases List.mem_map.mp isItem with ⟨kept, isKept, rfl⟩
  rcases (collectedFrom_spec history [] 0 (last + 1)).2 kept isKept with
    none | ⟨place, -, -, pull, isPull, rfl⟩
  · cases none
  · rw [safeInteger?_toValue, Option.some.injEq, Int.natCast_inj] at isNumber
    rcases claiming _ (history.during (place + 1)).1 (history.during (place + 1)).2 with
      ⟨found, isFound, sameNumber, claimsCard⟩
    have isOpen : pull ∈ (history.seen place).pulls :=
      List.drop_subset _ _ (List.take_subset _ _ isPull)
    rw [number_injOn (history.seen place) isOpen isFound (isNumber.trans sameNumber.symm)]
    exact claimsCard

theorem throughout_of_claims {claims : JsValue → Bool} {number : ℕ}
    (claiming : history.ClaimsThroughout claims number) : history.OpenThroughout number := by
  intro moment after before
  rcases claiming moment after before with ⟨pull, isPull, same, -⟩
  exact List.mem_map.mpr ⟨pull, isPull, same⟩

theorem passes_of_ite {Why : Type} {refused : Prop} [Decidable refused] {why : Why}
    {rest : Option Why} (runs : (if refused then some why else rest) = none) :
    ¬refused ∧ rest = none := by
  split_ifs at runs with isRefused
  exact ⟨isRefused, runs⟩

theorem pulls_of_repairEligible {card binding : JsValue} (runs : repairEligible card binding = none) :
    ((binding.get (js "pulls")).get (js "complete")).strictEq (.boolean true) = true ∧
      ∃ pull, (binding.get (js "pulls")).get (js "items") = .array [pull] := by
  unfold repairEligible at runs
  dsimp only at runs
  split at runs
  case h_2 => cases runs
  case h_1 =>
    rcases passes_of_ite runs with ⟨-, runs⟩
    rcases passes_of_ite runs with ⟨-, runs⟩
    rcases passes_of_ite runs with ⟨-, runs⟩
    rcases passes_of_ite runs with ⟨-, runs⟩
    rcases passes_of_ite runs with ⟨isComplete, runs⟩
    rw [Bool.not_eq_true', Bool.not_eq_false] at isComplete
    refine ⟨isComplete, ?_⟩
    split at runs
    case h_1 pull isItems => exact ⟨pull, isItems⟩
    case h_2 => cases runs
    case h_3 => cases runs

end Complete

/-- A complete read has every pull request that was open all the time when and only when each of
them that crosses between two requests is on the page of some request. -/
theorem seesAll_iff (history : History) (repo token : JsString) (maxPages : ℕ) :
    SeesAll history (readOpenPulls repo token history.answer maxPages) ↔
      (token ≠ [] → isRepository repo = true → ∀ last, history.Ends maxPages last →
        ∀ number, history.OpenThroughout number → (∃ place < last, history.Crosses number place) →
          ∃ place ≤ last, history.OnPage number place) := by
  constructor
  · intro sees hasToken isRepo last ends number throughout _
    have read := read_of_ends hasToken isRepo ends
    have found := sees.all (by rw [read]) number throughout
    rw [read] at found
    rcases mem_items_iff.mp found with ⟨place, isPlace, onPage⟩
    exact ⟨place, isPlace, (mem_pagePulls_iff.mp onPage).2⟩
  · intro caught
    have all : (readOpenPulls repo token history.answer maxPages).complete = true →
        ∀ number, history.OpenThroughout number →
          ∃ item ∈ (readOpenPulls repo token history.answer maxPages).items,
            (item.get (js "number")).safeInteger? = some (number : ℤ) := by
      intro isComplete number throughout
      rcases exists_ends rfl isComplete with ⟨hasToken, isRepo, last, ends⟩
      rw [read_of_ends hasToken isRepo ends]
      apply mem_items_iff.mpr
      have onPage : ∃ place ≤ last, history.OnPage number place := by
        by_cases crosses : ∃ place < last, history.Crosses number place
        · exact caught hasToken isRepo last ends number throughout crosses
        · exact exists_onPage ends throughout fun place below crossing =>
            crosses ⟨place, below, crossing⟩
      rcases onPage with ⟨place, isPlace, isOn⟩
      exact ⟨place, isPlace, mem_pagePulls_iff.mpr ⟨seen_of_throughout throughout place, isOn⟩⟩
    refine ⟨all, ?_⟩
    intro claims first second card binding different isFirst isSecond isInput runs
    rcases pulls_of_repairEligible runs with ⟨isComplete, pull, isItems⟩
    rw [isInput] at isComplete isItems
    have complete : (readOpenPulls repo token history.answer maxPages).complete = true := by
      rw [complete_pullsInput, JsValue.strictEq, decide_eq_true_eq] at isComplete
      exact isComplete
    have single : (readOpenPulls repo token history.answer maxPages).items.filter claims = [pull] := by
      rw [items_pullsInput] at isItems
      exact JsValue.array.inj isItems
    rcases exists_ends rfl complete with ⟨hasToken, isRepo, last, ends⟩
    have only : ∀ number, history.ClaimsThroughout claims number →
        (pull.get (js "number")).safeInteger? = some (number : ℤ) := by
      intro number claiming
      rcases all complete number (throughout_of_claims claiming) with ⟨item, isItem, isNumber⟩
      have inPages := isItem
      rw [read_of_ends hasToken isRepo ends] at inPages
      have isClaimant := List.mem_filter.mpr
        ⟨isItem, claims_of_mem_items claiming inPages isNumber⟩
      rw [single, List.mem_singleton] at isClaimant
      rw [← isClaimant, isNumber]
    have same := (only first isFirst).symm.trans (only second isSecond)
    rw [Option.some.injEq, Int.natCast_inj] at same
    exact different same

section Skipped

theorem safe_index {count : ℕ} (small : count ≤ 200) (index : Fin count) :
    index.val + 1 ≤ MAX_SAFE_INTEGER := by
  have below := index.isLt
  rw [MAX_SAFE_INTEGER]
  omega

def pullsUpTo (count : ℕ) (small : count ≤ 200) : OpenPulls where
  pulls := (List.finRange count).reverse.map fun index : Fin count => ⟨index.val + 1, safe_index small index, []⟩
  newestFirst := by
    rw [List.map_map, List.pairwise_map, List.pairwise_reverse]
    refine List.pairwise_lt_finRange count |>.imp fun less => ?_
    simpa using less

theorem one_mem_pullsUpTo {count : ℕ} (small : count ≤ 200) (some : 0 < count) :
    1 ∈ (pullsUpTo count small).numbers := by
  simp only [OpenPulls.numbers, pullsUpTo, List.map_map, List.mem_map, List.mem_reverse]
  exact ⟨⟨0, some⟩, List.mem_finRange _, rfl⟩

def closingHistory : History where
  opens moment := if moment = 0 then pullsUpTo 101 (by omega) else pullsUpTo 100 (by omega)
  start := 0
  finish := 1
  asked page := if page ≤ 1 then 0 else 1
  during page := by split_ifs <;> omega
  inTurn first second below := by
    dsimp only
    split_ifs <;> omega
  fault _ := none

/-- The second page is empty, and the oldest pull request was never on a page. -/
theorem not_seesAll_closing : ¬SeesAll closingHistory
    (readOpenPulls (js "owner/name") (js "token") closingHistory.answer 10) := by
  intro sees
  have throughout : closingHistory.OpenThroughout 1 := by
    intro moment _ _
    simp only [closingHistory]
    split_ifs
    · exact one_mem_pullsUpTo _ (by omega)
    · exact one_mem_pullsUpTo _ (by omega)
  have missing : (readOpenPulls (js "owner/name") (js "token") closingHistory.answer 10).complete =
      true ∧ ∀ item ∈ (readOpenPulls (js "owner/name") (js "token") closingHistory.answer 10).items,
        (item.get (js "number")).safeInteger? ≠ some 1 := by
    decide +kernel
  rcases sees.all missing.1 1 throughout with ⟨item, isItem, isOne⟩
  exact missing.2 item isItem isOne

end Skipped

end StudentHub.CardRepair
