import RecordStore.Proofs.Lock.Waiting

set_option autoImplicit false

/-! Records by page and index by transaction of a lock table agree after any run of calls, and
neither has empty entries. -/

namespace RecordStore

namespace LockTable

/-- Index and records list the same pages. No shared record is without holders and no index entry
without pages. -/
structure Matching (table : LockTable) : Prop where
  listed : ∀ (transaction : TransactionId) (page : PageId),
    (∃ pages, table.held[transaction]? = some pages ∧ page ∈ pages) ↔
      ∃ record, table.records[page]? = some record ∧ record.holds transaction = true
  readers : ∀ (page : PageId) (holders : TransactionSet),
    table.records[page]? = some (.shared holders) → holders ≠ ∅
  entries : ∀ (transaction : TransactionId) (pages : PageSet),
    table.held[transaction]? = some pages → pages ≠ ∅
  unheld : ∀ page : PageId, table.records[page]? = none ↔
    ∀ transaction, table.holds transaction page = false
  idle : ∀ transaction : TransactionId, table.held[transaction]? = none ↔
    ∀ page, table.holds transaction page = false

def Trim (table : LockTable) : Prop :=
  ∀ (transaction : TransactionId) (pages : PageSet),
    table.held[transaction]? = some pages → pages ≠ ∅

structure SameBooks (after before : LockTable) : Prop where
  records : after.records = before.records
  held : after.held = before.held

inductive Rewrites (table after : LockTable) : Prop where
  | kept : after.SameBooks table → Rewrites table after
  | granted {given : LockTable} (transaction : TransactionId) (page : PageId) (mode : LockMode) :
      table.grant? transaction page mode = some given → after.SameBooks given →
      Rewrites table after
  | released (transaction : TransactionId) (page : PageId) :
      after = (table.release transaction page).2 → Rewrites table after
  | cleared (transaction : TransactionId) :
      after = (table.releaseAll transaction).2 → Rewrites table after

variable {table after : LockTable} {transaction : TransactionId} {page : PageId}

theorem sameBooks_enqueue (table : LockTable) (page : PageId) :
    (table.enqueue page).2.SameBooks table :=
  ⟨(table.records_enqueue page).1, (table.records_enqueue page).2⟩

theorem sameBooks_dequeue (table : LockTable) (page : PageId) :
    (table.dequeue page).SameBooks table :=
  ⟨(table.records_dequeue page).1, (table.records_dequeue page).2⟩

/-! ### Entries that list something -/

theorem Trim.of_held (trim : table.Trim) (held : after.held = table.held) : after.Trim := by
  rw [Trim, held]
  exact trim

theorem Trim.empty : LockTable.empty.Trim := by
  intro transaction pages present
  change (∅ : Std.ExtTreeMap TransactionId PageSet)[transaction]? = some pages at present
  rw [Std.ExtTreeMap.getElem?_empty] at present
  cases present

theorem Trim.grant? {mode : LockMode} (trim : table.Trim)
    (agreed : table.grant? transaction page mode = some after) : after.Trim := by
  unfold LockTable.grant? at agreed
  obtain ⟨record, -, rfl⟩ := Option.map_eq_some_iff.mp agreed
  intro other pages present
  rw [lookup_insert] at present
  split at present
  · rw [← Option.some.inj present]
    exact Std.ExtTreeSet.insert_ne_empty
  · exact trim other pages present

theorem Trim.eraseEntry (trim : table.Trim) (transaction : TransactionId) :
    ({ table with held := table.held.erase transaction } : LockTable).Trim := by
  intro other pages present
  rw [lookup_erase] at present
  split at present
  · cases present
  · exact trim other pages present

/-- `unindex` leaves no empty entry. -/
theorem Trim.unindex (trim : table.Trim) (transaction : TransactionId) (page : PageId) :
    (table.unindex transaction page).Trim := by
  unfold LockTable.unindex
  cases present : table.held[transaction]? with
  | none => exact trim
  | some pages =>
      simp only
      split
      · exact trim.eraseEntry transaction
      · next remaining =>
          intro other left found
          rw [lookup_insert] at found
          split at found
          · rw [← Option.some.inj found]
            exact fun none => remaining (Std.ExtTreeSet.isEmpty_iff.mpr none)
          · exact trim other left found

theorem Trim.rewrites (trim : table.Trim) (rewrites : table.Rewrites after) : after.Trim := by
  cases rewrites with
  | kept books => exact trim.of_held books.held
  | granted transaction page mode agreed books => exact (trim.grant? agreed).of_held books.held
  | released transaction page same =>
      rw [same]
      exact (trim.unindex transaction page).of_held held_dropHolder
  | cleared transaction same =>
      rw [same]
      exact (trim.eraseEntry transaction).of_held (held_dropAll _)

theorem Consistent.rewrites (consistent : table.Consistent) (rewrites : table.Rewrites after) :
    after.Consistent := by
  cases rewrites with
  | kept books => exact consistent.of_same books.records books.held
  | granted transaction page mode agreed books =>
      exact (consistent.grant? agreed).of_same books.records books.held
  | released transaction page same =>
      rw [same]
      exact consistent.release
  | cleared transaction same =>
      rw [same]
      exact consistent.releaseAll

/-! ### Records and index -/

theorem mem_heldPages_iff (table : LockTable) (transaction : TransactionId) (page : PageId) :
    page ∈ table.heldPages transaction ↔
      ∃ pages, table.held[transaction]? = some pages ∧ page ∈ pages := by
  rw [heldPages, Std.ExtTreeMap.getD_eq_getD_getElem?]
  cases table.held[transaction]? with
  | none => simp
  | some pages => simp

theorem holds_iff (table : LockTable) (transaction : TransactionId) (page : PageId) :
    table.holds transaction page = true ↔
      ∃ record, table.records[page]? = some record ∧ record.holds transaction = true := by
  rw [holds]
  cases table.records[page]? with
  | none => simp
  | some record => simp

theorem Consistent.listed (consistent : table.Consistent) (transaction : TransactionId)
    (page : PageId) :
    (∃ pages, table.held[transaction]? = some pages ∧ page ∈ pages) ↔
      table.holds transaction page = true := by
  rw [← mem_heldPages_iff, consistent.indexed, holds_eq]

theorem Consistent.holder (consistent : table.Consistent) {record : LockRecord}
    (present : table.records[page]? = some record) :
    ∃ transaction, record.holds transaction = true := by
  obtain ⟨holder, held⟩ := consistent.inhabited page (by rw [present]; rfl)
  rw [← holds_eq, holds_iff] at held
  obtain ⟨other, found, holds⟩ := held
  cases present.symm.trans found
  exact ⟨holder, holds⟩

theorem Consistent.matching (consistent : table.Consistent) (trim : table.Trim) :
    table.Matching := by
  constructor
  · intro transaction page
    rw [consistent.listed, holds_iff]
  · rintro page holders present rfl
    obtain ⟨holder, holds⟩ := consistent.holder present
    change (∅ : TransactionSet).contains holder = true at holds
    rw [TransactionSet.contains_empty] at holds
    cases holds
  · exact trim
  · intro page
    constructor
    · intro absent transaction
      rw [holds, absent]
    · intro unheld
      cases present : table.records[page]? with
      | none => rfl
      | some record =>
          obtain ⟨holder, names⟩ := consistent.holder present
          have held := (table.holds_iff holder page).mpr ⟨record, present, names⟩
          rw [unheld holder] at held
          cases held
  · intro transaction
    constructor
    · intro absent page
      rw [← Bool.not_eq_true, ← consistent.listed]
      rintro ⟨pages, present, -⟩
      rw [absent] at present
      cases present
    · intro unheld
      cases present : table.held[transaction]? with
      | none => rfl
      | some pages =>
          refine absurd (Std.ExtTreeSet.eq_empty_iff_forall_not_mem.mpr ?_)
            (trim transaction pages present)
          intro page member
          have held := (consistent.listed transaction page).mp ⟨pages, present, member⟩
          rw [unheld page] at held
          cases held

end LockTable

namespace LockService

variable {service : LockService}

theorem rewrites_ask (service : LockService) (transaction : TransactionId) (page : PageId)
    (mode : LockMode) (sample : Nat) :
    service.table.Rewrites (service.ask transaction page mode sample).2.table := by
  unfold ask
  cases granted : service.table.grant? transaction page mode with
  | some table => exact .granted transaction page mode granted ⟨rfl, rfl⟩
  | none =>
      cases service.range.draw sample with
      | error fault => exact .kept ⟨rfl, rfl⟩
      | ok bound => exact .kept (service.table.sameBooks_enqueue page)

theorem rewrites_expire (service : LockService) (request : LockRequest) :
    service.table.Rewrites (service.expire request).2.table := by
  unfold expire
  cases granted : service.table.grant? request.transaction request.page request.mode with
  | some table => exact .granted _ _ _ granted (table.sameBooks_dequeue request.page)
  | none => exact .kept (service.table.sameBooks_dequeue request.page)

theorem rewrites_retry (service : LockService) (request : LockRequest) :
    service.table.Rewrites (service.retry request).2.table := by
  unfold retry
  cases granted : service.table.grant? request.transaction request.page request.mode with
  | some table => exact .granted _ _ _ granted (table.sameBooks_dequeue request.page)
  | none => exact .kept ⟨rfl, rfl⟩

theorem rewrites_perform (service : LockService) (call : LockCall) :
    service.table.Rewrites (service.perform call).2.table := by
  cases call with
  | ask transaction page mode sample => exact service.rewrites_ask transaction page mode sample
  | resume ticket =>
      change service.table.Rewrites (service.resume ticket).2.table
      rcases service.resume_cases ticket with same | ⟨request, -, -, expired | retried⟩
      · rw [same]
        exact .kept ⟨rfl, rfl⟩
      · rw [expired]
        exact service.rewrites_expire request
      · rw [retried]
        exact service.rewrites_retry request
  | acquire transaction page mode sample =>
      change service.table.Rewrites (service.acquire transaction page mode sample).2.table
      cases granted : service.table.grant? transaction page mode with
      | some table =>
          rw [acquire_granted granted]
          exact .granted transaction page mode granted ⟨rfl, rfl⟩
      | none =>
          obtain ⟨failure, after, refused, records, held⟩ := acquire_refused granted sample
          rw [refused]
          exact .kept ⟨records, held⟩
  | release transaction page => exact .released transaction page rfl
  | releaseAll transaction => exact .cleared transaction rfl
  | pass time => exact .kept ⟨rfl, rfl⟩

variable {range : WaitRange} {history : List LockEvent}

theorem Run.trim (run : Run (LockService.start range) history service) : service.table.Trim := by
  induction run with
  | start => exact LockTable.Trim.empty
  | @step history service call earlier ih => exact ih.rewrites (service.rewrites_perform call)

/-- After any run, index and records of the lock table agree, without empty records or entries. -/
theorem index_matches_records (run : Run (LockService.start range) history service) :
    service.table.Matching :=
  run.realizes.consistent.matching run.trim

/-- Once the second reader has released, the first is the only holder in both. -/
theorem index_matches_records_small :
    ∃ history service, Run (LockService.start WaitRange.standard) history service ∧
      history.map LockEvent.call = upgrade ∧ service.table.Matching ∧
      service.table.records.keys = [⟨⟨7⟩, 0⟩] ∧ service.table.held.keys = [⟨1⟩] := by
  have run := (@Run.start (LockService.start WaitRange.standard)).performAll upgrade
  refine ⟨_, _, run, rfl, index_matches_records run, ?_, ?_⟩
  · decide +kernel
  · decide +kernel

end LockService

end RecordStore
