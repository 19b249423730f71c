import StudentHub.Pay.Writes

/-!
# Contracts of one candidate and store keep apart

`create` and `update` compare a contract with the rows of its candidate and store
before they write it; `remove` only takes one out. So the rows stay apart in every
transaction, whatever it answers and wherever it stops, and a written row keeps its
candidate, company and store.
-/

namespace StudentHub.Pay

open Ecma Concurrency Process

/-- The rows are keyed by id, last for periods, and those of one candidate and store that
are not deleted do not overlap. -/
structure Sound (rows : OrderedMap JsString PayContract) : Prop where
  keyed : ∀ id row, rows.get? id = some row → row.id = id
  dated : ∀ id row, rows.get? id = some row → ∃ period, row.dates.period? = some period
  apart : ∀ id row otherId other, rows.get? id = some row → rows.get? otherId = some other →
    id ≠ otherId → row.status ≠ .deleted → other.status ≠ .deleted →
    row.candidateId = other.candidateId → row.storeId = other.storeId →
    overlaps row.dates other.dates = false

def Clear (rows : OrderedMap JsString PayContract) (contract : PayContract) : Prop :=
  ∀ id row, rows.get? id = some row → id ≠ contract.id → row.status ≠ .deleted →
    row.candidateId = contract.candidateId → row.storeId = contract.storeId →
    overlaps row.dates contract.dates = false

def PartiesKept (before after : OrderedMap JsString PayContract) : Prop :=
  ∀ id row, before.get? id = some row → ∃ later, after.get? id = some later ∧
    later.candidateId = row.candidateId ∧ later.companyId = row.companyId ∧
    later.storeId = row.storeId

theorem PartiesKept.refl (rows : OrderedMap JsString PayContract) : PartiesKept rows rows :=
  fun _ row found => ⟨row, found, rfl, rfl, rfl⟩

theorem PartiesKept.trans {first second third : OrderedMap JsString PayContract}
    (early : PartiesKept first second) (late : PartiesKept second third) :
    PartiesKept first third := by
  intro id row found
  rcases early id row found with ⟨middle, middleFound, candidate, company, store⟩
  rcases late id middle middleFound with ⟨last, lastFound, lastCandidate, lastCompany, lastStore⟩
  exact ⟨last, lastFound, lastCandidate.trans candidate, lastCompany.trans company,
    lastStore.trans store⟩

theorem sound_empty : Sound .empty where
  keyed := by simp
  dated := by simp
  apart := by simp

section Write

variable {rows : OrderedMap JsString PayContract} {contract : PayContract}

theorem Sound.set (sound : Sound rows)
    (dated : ∃ period, contract.dates.period? = some period)
    (clear : contract.status ≠ .deleted → Clear rows contract) :
    Sound (rows.set contract.id contract) where
  keyed := by
    intro id row found
    rw [OrderedMap.get?_set] at found
    split_ifs at found with here
    · rw [← Option.some.inj found, here]
    · exact sound.keyed id row found
  dated := by
    intro id row found
    rw [OrderedMap.get?_set] at found
    split_ifs at found with here
    · rwa [← Option.some.inj found]
    · exact sound.dated id row found
  apart := by
    intro id row otherId other found otherFound distinct live otherLive candidate store
    rw [OrderedMap.get?_set] at found otherFound
    split_ifs at found with here <;> split_ifs at otherFound with there
    · exact absurd (here.trans there.symm) distinct
    · cases Option.some.inj found
      rw [overlaps_comm]
      exact clear live otherId other otherFound there otherLive candidate.symm store.symm
    · cases Option.some.inj otherFound
      exact clear otherLive id row found here live candidate store
    · exact sound.apart id row otherId other found otherFound distinct live otherLive candidate
        store

theorem partiesKept_set (sameParties : ∀ row, rows.get? contract.id = some row →
      contract.candidateId = row.candidateId ∧ contract.companyId = row.companyId ∧
        contract.storeId = row.storeId) :
    PartiesKept rows (rows.set contract.id contract) := by
  intro id row found
  rw [OrderedMap.get?_set]
  split_ifs with here
  · subst here
    exact ⟨contract, rfl, sameParties row found⟩
  · exact ⟨row, found, rfl, rfl, rfl⟩

theorem clear_of_assertNoOverlap (keyed : ∀ id row, rows.get? id = some row → row.id = id)
    (checked : assertNoOverlap (rows.values.filter fun row =>
      row.candidateId = contract.candidateId && row.storeId = contract.storeId) contract.id
        contract.dates = .ok ()) :
    Clear rows contract := by
  intro id row found distinct live candidate store
  rw [assertNoOverlap] at checked
  split_ifs at checked with clash
  rw [Bool.not_eq_true, List.any_eq_false] at clash
  have listed : row ∈ rows.values := OrderedMap.mem_values_iff.mpr ⟨id, found⟩
  have apart := clash row (List.mem_filter.mpr ⟨listed, by simp [candidate, store]⟩)
  simpa [live, keyed id row found, distinct] using apart

end Write

open InMemoryPayContractStore

/-- In a transaction the work keeps sound rows sound and every party in its row. -/
def Preserves (work : Work) : Prop :=
  ∀ (store : InMemoryPayContractStore) (around : Surroundings), Sound store.rows →
    Sound (store.transaction around work).2.rows ∧
      PartiesKept store.rows (store.transaction around work).2.rows

theorem preserves_of_writes {work : Work} {possible : InMemoryPayContractStore → PayContract → Prop}
    (writes : ∀ store around, Writes store around work (possible store))
    (dated : ∀ store row, Sound store.rows → possible store row →
      ∃ period, row.dates.period? = some period)
    (clear : ∀ store row, Sound store.rows → possible store row → row.status ≠ .deleted →
      Clear store.rows row)
    (parties : ∀ store row, possible store row → ∀ replaced, store.rows.get? row.id = some replaced →
      row.candidateId = replaced.candidateId ∧ row.companyId = replaced.companyId ∧
        row.storeId = replaced.storeId) :
    Preserves work := by
  intro store around sound
  rcases writes store around with unchanged | ⟨row, isPossible, written⟩
  · rw [unchanged]
    exact ⟨sound, PartiesKept.refl _⟩
  · rw [written]
    refine ⟨?_, ?_⟩
    · exact sound.set (dated store row sound isPossible) (clear store row sound isPossible)
    · exact partiesKept_set (parties store row isPossible)

theorem Replaces.parties {rows : OrderedMap JsString PayContract} {contract : PayContract}
    (replaces : Replaces rows contract) {replaced : PayContract}
    (found : rows.get? contract.id = some replaced) :
    contract.candidateId = replaced.candidateId ∧ contract.companyId = replaced.companyId ∧
      contract.storeId = replaced.storeId := by
  rcases replaces with ⟨other, otherFound, same⟩
  rw [otherFound] at found
  rwa [← Option.some.inj found]

theorem preserves_createWork {actorId now : JsString} {fields : NormalizedPayContractCreate}
    (dated : ∃ period, fields.dates.period? = some period) :
    Preserves (PayContracts.createWork actorId fields now) := by
  apply preserves_of_writes fun _ _ => createWork_writes
  · rintro store row sound ⟨id, rfl, absent, checked⟩
    exact dated
  · rintro store row sound ⟨id, rfl, absent, checked⟩ live
    exact clear_of_assertNoOverlap sound.keyed checked
  · rintro store row ⟨id, rfl, absent, checked⟩ replaced found
    rw [absent] at found
    contradiction

theorem preserves_updateWork {actorId id : JsString} {fields : NormalizedPayContractUpdate}
    {previous : Option JsString} (dated : ∃ period, fields.dates.period? = some period) :
    Preserves (PayContracts.updateWork actorId id fields previous) := by
  apply preserves_of_writes fun _ _ => updateWork_writes
  · rintro store row sound ⟨current, now, rfl, found, replaces, checked⟩
    exact dated
  · rintro store row sound ⟨current, now, rfl, found, replaces, checked⟩ live
    have sameId : current.id = id := sound.keyed id current found
    apply clear_of_assertNoOverlap sound.keyed
    rwa [← sameId] at checked
  · rintro store row ⟨current, now, rfl, found, replaces, checked⟩ replaced isReplaced
    exact replaces.parties isReplaced

theorem preserves_removeWork {actorId id : JsString} :
    Preserves (PayContracts.removeWork actorId id) := by
  apply preserves_of_writes fun _ _ => removeWork_writes
  · rintro store row sound ⟨current, now, rfl, found, replaces⟩
    exact sound.dated id current found
  · rintro store row sound ⟨current, now, rfl, found, replaces⟩ live
    exact absurd rfl live
  · rintro store row ⟨current, now, rfl, found, replaces⟩ replaced isReplaced
    exact replaces.parties isReplaced

theorem preserves_of_issued {work : Work} (issued : Issued work) : Preserves work := by
  cases issued with
  | create dated => exact preserves_createWork dated
  | update dated => exact preserves_updateWork dated
  | remove => exact preserves_removeWork

structure SessionInvariant (session : PaySession) : Prop where
  sound : Sound session.store.rows
  waiting : ∀ work ∈ session.waiting, Preserves work

theorem sessionInvariant_empty : SessionInvariant .empty where
  sound := sound_empty
  waiting := by simp [PaySession.empty]

theorem sessionInvariant_next {session : PaySession} (invariant : SessionInvariant session)
    (event : PaySession.Event) :
    SessionInvariant (session.next event) ∧
      PartiesKept session.store.rows (session.next event).store.rows := by
  rcases invariant with ⟨sound, waiting⟩
  cases event with
  | call call around =>
    simp only [PaySession.next]
    split
    · rename_i work handed
      refine ⟨⟨sound, ?_⟩, PartiesKept.refl _⟩
      intro other otherMem
      rcases List.mem_append.mp otherMem with already | new
      · exact waiting other already
      · rw [List.mem_singleton.mp new]
        exact preserves_of_issued (issued_of_request (Prod.ext handed rfl))
    · exact ⟨⟨sound, waiting⟩, PartiesKept.refl _⟩
  | turn index around =>
    simp only [PaySession.next]
    split
    · rename_i work atIndex
      rcases waiting work (List.mem_of_getElem? atIndex) session.store around sound with
        ⟨after, kept⟩
      refine ⟨⟨after, ?_⟩, kept⟩
      intro other otherMem
      exact waiting other (List.mem_of_mem_eraseIdx otherMem)
    · exact ⟨⟨sound, waiting⟩, PartiesKept.refl _⟩
  | failNextAudit => exact ⟨⟨sound, waiting⟩, PartiesKept.refl _⟩

theorem sessionInvariant_run {session : PaySession} (invariant : SessionInvariant session)
    (events : List PaySession.Event) :
    SessionInvariant (session.run events) ∧
      PartiesKept session.store.rows (session.run events).store.rows := by
  induction events generalizing session with
  | nil => exact ⟨invariant, PartiesKept.refl _⟩
  | cons event rest later =>
    rcases sessionInvariant_next invariant event with ⟨nextInvariant, kept⟩
    rcases later nextInvariant with ⟨lastInvariant, laterKept⟩
    exact ⟨lastInvariant, kept.trans laterKept⟩

/-- In every state that calls reach from the empty store, every contract lasts for a period
of calendar days, two contracts of one candidate and store that are not deleted have no
day in common, and the parties of a contract stay as they are in all that follows. -/
theorem run_keeps_contracts_apart (events : List PaySession.Event) :
    let rows := (PaySession.empty.run events).store.rows
    (∀ id row, rows.get? id = some row → row.id = id ∧
      ∃ period, row.dates.period? = some period) ∧
    (∀ id row otherId other period otherPeriod, rows.get? id = some row →
      rows.get? otherId = some other → id ≠ otherId → row.status ≠ .deleted →
      other.status ≠ .deleted → row.candidateId = other.candidateId →
      row.storeId = other.storeId → row.dates.period? = some period →
      other.dates.period? = some otherPeriod → Disjoint period.days otherPeriod.days) ∧
    ∀ later id row, rows.get? id = some row →
      ∃ kept, (PaySession.empty.run (events ++ later)).store.rows.get? id = some kept ∧
        kept.candidateId = row.candidateId ∧ kept.companyId = row.companyId ∧
          kept.storeId = row.storeId := by
  have invariant := (sessionInvariant_run sessionInvariant_empty events).1
  refine ⟨?_, ?_, ?_⟩
  · intro id row found
    exact ⟨invariant.sound.keyed id row found, invariant.sound.dated id row found⟩
  · intro id row otherId other period otherPeriod found otherFound distinct live otherLive
      candidate store lasts otherLasts
    have apart := invariant.sound.apart id row otherId other found otherFound distinct live
      otherLive candidate store
    rwa [← Bool.not_eq_true, overlaps_iff lasts otherLasts, not_not] at apart
  · intro later id row found
    have kept := (sessionInvariant_run invariant later).2
    rw [PaySession.run, PaySession.run, ← List.foldl_append] at kept
    exact kept id row found

end StudentHub.Pay
