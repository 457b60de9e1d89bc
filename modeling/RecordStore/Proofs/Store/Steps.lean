import RecordStore.Proofs.Lock.Service
import RecordStore.Proofs.Store.Bare
import RecordStore.Proofs.Table

set_option autoImplicit false

/-! The effects of each operation of a bare store. `getPage` only adds locks; a successful `insert`
has passed full pages to one with room, all locked exclusively; a failed `insert` or `delete` has
changed no page. -/

namespace RecordStore

namespace Bare

structure LocksMore (transaction : TransactionId) (before after : Bare) : Prop where
  sameElse : after = { before with locks := after.locks }
  strengthens : LockService.Strengthens transaction before.locks after.locks

namespace LocksMore

variable {transaction : TransactionId} {first second third : Bare}

theorem refl (transaction : TransactionId) (bare : Bare) : LocksMore transaction bare bare :=
  ⟨rfl, .refl transaction bare.locks⟩

theorem trans (earlier : LocksMore transaction first second)
    (later : LocksMore transaction second third) : LocksMore transaction first third := by
  refine ⟨?_, earlier.strengthens.trans later.strengthens⟩
  have same := later.sameElse
  rw [earlier.sameElse] at same
  exact same

theorem fetch_eq (locks : LocksMore transaction first second) (page : PageId) :
    second.fetch page = first.fetch page := by
  rw [locks.sameElse]
  rfl

theorem tables_eq (locks : LocksMore transaction first second) : second.tables = first.tables := by
  rw [locks.sameElse]

theorem counts_eq (locks : LocksMore transaction first second) : second.counts = first.counts := by
  rw [locks.sameElse]

theorem written_eq (locks : LocksMore transaction first second) :
    second.written = first.written := by
  rw [locks.sameElse]

theorem drafts_eq (locks : LocksMore transaction first second) : second.drafts = first.drafts := by
  rw [locks.sameElse]

theorem capacity_eq (locks : LocksMore transaction first second) :
    second.capacity = first.capacity := by
  rw [locks.sameElse]

end LocksMore

structure SameSetting (after before : Bare) : Prop where
  tables : after.tables = before.tables
  capacity : after.capacity = before.capacity
  nextTransaction : after.nextTransaction = before.nextTransaction

theorem LocksMore.setting {transaction : TransactionId} {first second : Bare}
    (locks : LocksMore transaction first second) : second.SameSetting first :=
  ⟨locks.tables_eq, locks.capacity_eq, by rw [locks.sameElse]⟩

variable {bare : Bare} {transaction : TransactionId} {page : PageId}

theorem acquire_locks (bare : Bare) (transaction : TransactionId) (page : PageId)
    (mode : LockMode) : LocksMore transaction bare (bare.acquire transaction page mode).2 := by
  have strengthens := bare.locks.acquire_strengthens transaction page mode 0
  unfold acquire
  cases asked : bare.locks.acquire transaction page mode 0 with
  | mk outcome locks =>
      rw [asked] at strengthens
      cases outcome <;> exact ⟨rfl, strengthens⟩

theorem getPage_locks (bare : Bare) (transaction : TransactionId) (page : PageId)
    (access : Access) : LocksMore transaction bare (bare.getPage transaction page access).2 := by
  have locks := bare.acquire_locks transaction page access.mode
  unfold getPage
  split
  · next acquired =>
      rw [acquired] at locks
      exact locks
  · next acquired =>
      rw [acquired] at locks
      exact locks

/-- A page that is got is locked as the access demands. -/
theorem getPage_ok {access : Access} {slots : Slots} {after : Bare}
    (shown : bare.getPage transaction page access = (.ok slots, after)) :
    LocksMore transaction bare after ∧ bare.fetch page = .ok slots ∧
      (after.locks.modeOf transaction page).isSome ∧
      (access = .readWrite → after.locks.modeOf transaction page = some .exclusive) := by
  have locks := bare.getPage_locks transaction page access
  rw [shown] at locks
  unfold getPage acquire at shown
  cases asked : bare.locks.acquire transaction page access.mode 0 with
  | mk outcome service =>
      cases outcome with
      | error failure => simp [asked] at shown
      | ok done =>
          simp only [asked, Prod.mk.injEq] at shown
          obtain ⟨fetched, rfl⟩ := shown
          obtain ⟨held, exclusive⟩ := LockService.modeOf_of_acquire asked
          refine ⟨locks, fetched, held, fun writes => exclusive ?_⟩
          rw [writes]
          rfl

/-! ### Looking for room -/

def FullPage (bare after : Bare) (transaction : TransactionId) (page : PageId) : Prop :=
  after.locks.modeOf transaction page = some .exclusive ∧
    ∃ slots, bare.fetch page = .ok slots ∧ Slots.free? slots = none

structure Roomy (bare after : Bare) (transaction : TransactionId) (vacancy : Vacancy) : Prop where
  locks : LocksMore transaction bare after
  exclusive : after.locks.modeOf transaction vacancy.page = some .exclusive
  fetched : bare.fetch vacancy.page = .ok vacancy.slots
  free : Slots.free? vacancy.slots = some vacancy.slot

theorem seekAt_locks (bare : Bare) (transaction : TransactionId) (page : PageId) :
    LocksMore transaction bare (bare.seekAt transaction page).2 := by
  have locks := bare.getPage_locks transaction page .readWrite
  unfold seekAt
  split
  · next fetched =>
      rw [fetched] at locks
      exact locks
  · next fetched =>
      rw [fetched] at locks
      exact locks

theorem seekAt_found {vacancy : Vacancy} {after : Bare}
    (found : bare.seekAt transaction page = (.ok (some vacancy), after)) :
    vacancy.page = page ∧ Roomy bare after transaction vacancy := by
  unfold seekAt at found
  cases fetched : bare.getPage transaction page .readWrite with
  | mk outcome middle =>
      cases outcome with
      | error failure => simp [fetched] at found
      | ok slots =>
          simp only [fetched, Prod.mk.injEq, Except.ok.injEq, Option.map_eq_some_iff] at found
          obtain ⟨⟨slot, free, rfl⟩, rfl⟩ := found
          obtain ⟨locks, shown, -, exclusive⟩ := getPage_ok fetched
          exact ⟨rfl, locks, exclusive rfl, shown, free⟩

theorem seekAt_full {after : Bare}
    (full : bare.seekAt transaction page = (.ok none, after)) :
    LocksMore transaction bare after ∧ FullPage bare after transaction page := by
  unfold seekAt at full
  cases fetched : bare.getPage transaction page .readWrite with
  | mk outcome middle =>
      cases outcome with
      | error failure => simp [fetched] at full
      | ok slots =>
          simp only [fetched, Prod.mk.injEq, Except.ok.injEq, Option.map_eq_none_iff] at full
          obtain ⟨none, rfl⟩ := full
          obtain ⟨locks, shown, -, exclusive⟩ := getPage_ok fetched
          exact ⟨locks, exclusive rfl, slots, shown, none⟩

theorem FullPage.later {middle after : Bare} (full : FullPage bare middle transaction page)
    (strengthens : LockService.Strengthens transaction middle.locks after.locks) :
    FullPage bare after transaction page :=
  ⟨strengthens.exclusive page full.1, full.2⟩

theorem FullPage.earlier {middle after : Bare} (full : FullPage middle after transaction page)
    (locks : LocksMore transaction bare middle) : FullPage bare after transaction page := by
  obtain ⟨exclusive, slots, fetched, none⟩ := full
  rw [locks.fetch_eq] at fetched
  exact ⟨exclusive, slots, fetched, none⟩

theorem Roomy.earlier {middle after : Bare} {vacancy : Vacancy}
    (roomy : Roomy middle after transaction vacancy) (locks : LocksMore transaction bare middle) :
    Roomy bare after transaction vacancy := by
  refine ⟨locks.trans roomy.locks, roomy.exclusive, ?_, roomy.free⟩
  rw [← locks.fetch_eq]
  exact roomy.fetched

theorem seek_locks (bare : Bare) (table : Table) (transaction : TransactionId)
    (first length : Nat) :
    LocksMore transaction bare (bare.seek table transaction first length).2 := by
  induction length generalizing bare first with
  | zero => exact .refl transaction bare
  | succ length ih =>
      have locks := bare.seekAt_locks transaction (table.page (UInt32.ofNat first))
      unfold seek
      split
      · next tried =>
          rw [tried] at locks
          exact locks
      · next tried =>
          rw [tried] at locks
          exact locks
      · next after tried =>
          rw [tried] at locks
          exact locks.trans (ih after (first + 1))

/-- A search that finds a slot has passed full pages only. -/
theorem seek_found {table : Table} {first length : Nat} {vacancy : Vacancy} {after : Bare}
    (found : bare.seek table transaction first length = (.ok (some vacancy), after)) :
    ∃ number, number < first + length ∧ vacancy.page = table.page (UInt32.ofNat number) ∧
      Roomy bare after transaction vacancy ∧
      ∀ earlier, first ≤ earlier → earlier < number →
        FullPage bare after transaction (table.page (UInt32.ofNat earlier)) := by
  induction length generalizing bare first with
  | zero => simp [seek] at found
  | succ length ih =>
      unfold seek at found
      cases tried : bare.seekAt transaction (table.page (UInt32.ofNat first)) with
      | mk outcome middle =>
          cases outcome with
          | error failure => simp [tried] at found
          | ok place =>
              cases place with
              | some here =>
                  simp only [tried, Prod.mk.injEq, Except.ok.injEq, Option.some.injEq] at found
                  obtain ⟨rfl, rfl⟩ := found
                  obtain ⟨pageIs, roomy⟩ := seekAt_found tried
                  refine ⟨first, by omega, pageIs, roomy, ?_⟩
                  intro earlier above below
                  omega
              | none =>
                  simp only [tried] at found
                  obtain ⟨locks, full⟩ := seekAt_full tried
                  obtain ⟨number, inside, pageIs, roomy, passed⟩ := ih found
                  refine ⟨number, by omega, pageIs, roomy.earlier locks, ?_⟩
                  intro earlier above below
                  by_cases same : earlier = first
                  · subst same
                    exact full.later roomy.locks.strengthens
                  · exact (passed earlier (by omega) below).earlier locks

/-- A search that finds none has passed every page, and all are full. -/
theorem seek_full {table : Table} {first length : Nat} {after : Bare}
    (full : bare.seek table transaction first length = (.ok none, after)) :
    LocksMore transaction bare after ∧
      ∀ earlier, first ≤ earlier → earlier < first + length →
        FullPage bare after transaction (table.page (UInt32.ofNat earlier)) := by
  induction length generalizing bare first with
  | zero =>
      simp only [seek, Prod.mk.injEq, true_and] at full
      subst full
      exact ⟨.refl transaction bare, fun earlier above below => by omega⟩
  | succ length ih =>
      unfold seek at full
      cases tried : bare.seekAt transaction (table.page (UInt32.ofNat first)) with
      | mk outcome middle =>
          cases outcome with
          | error failure => simp [tried] at full
          | ok place =>
              cases place with
              | some here => simp [tried] at full
              | none =>
                  simp only [tried] at full
                  obtain ⟨locks, here⟩ := seekAt_full tried
                  obtain ⟨later, passed⟩ := ih full
                  refine ⟨locks.trans later, ?_⟩
                  intro earlier above below
                  by_cases same : earlier = first
                  · subst same
                    exact here.later later.strengthens
                  · exact (passed earlier (by omega) (by omega)).earlier locks

/-! ### Inserting and deleting -/

theorem LocksMore.grow {middle : Bare} (locks : LocksMore transaction bare middle)
    (table : Table) : LocksMore transaction (bare.grow table) (middle.grow table) := by
  refine ⟨?_, locks.strengthens⟩
  rw [locks.sameElse]
  rfl

theorem seekNew_locks (bare : Bare) (table : Table) (transaction : TransactionId) :
    LocksMore transaction (bare.grow table) (bare.seekNew table transaction).2 := by
  have locks := (bare.grow table).seekAt_locks transaction (bare.nextPage table)
  unfold seekNew
  split
  · next tried =>
      rw [tried] at locks
      exact locks
  · next tried =>
      rw [tried] at locks
      exact locks
  · next tried =>
      rw [tried] at locks
      exact locks

theorem seekNew_ok {table : Table} {vacancy : Vacancy} {after : Bare}
    (found : bare.seekNew table transaction = (.ok vacancy, after)) :
    vacancy.page = bare.nextPage table ∧ Roomy (bare.grow table) after transaction vacancy := by
  unfold seekNew at found
  cases tried : (bare.grow table).seekAt transaction (bare.nextPage table) with
  | mk outcome middle =>
      cases outcome with
      | error failure => simp [tried] at found
      | ok place =>
          cases place with
          | none => simp [tried] at found
          | some here =>
              simp only [tried, Prod.mk.injEq, Except.ok.injEq] at found
              obtain ⟨rfl, rfl⟩ := found
              exact seekAt_found tried

structure Inserted (bare : Bare) (transaction : TransactionId) (table : Table) (row : Row)
    (record : RecordId) (number : Nat) (base middle : Bare) (slots : Slots) : Prop where
  usable : table.Usable
  spacious : Layout.slotCount table.pageSize table.schema.width ≠ 0
  counted : ∃ count, table.slotsPerPage = .ok count ∧ count ≠ 0
  agrees : row.schema.agrees table.schema = true
  pageIs : record.page = table.page (UInt32.ofNat number)
  baseIs : (base = bare ∧ number < bare.counts table.id) ∨
    (base = bare.grow table ∧ number = bare.counts table.id)
  passed : ∀ earlier, earlier < number →
    FullPage bare middle transaction (table.page (UInt32.ofNat earlier))
  roomy : Roomy base middle transaction ⟨record.page, slots, record.slot⟩

theorem vacancy_ok {table : Table} {row : Row} {vacancy : Vacancy} {after : Bare}
    (found : bare.vacancy table transaction row = (.ok vacancy, after)) :
    ∃ number base, Inserted bare transaction table row ⟨vacancy.page, vacancy.slot⟩ number base
      after vacancy.slots := by
  unfold Bare.vacancy at found
  cases counted : table.slotsPerPage with
  | error fault => simp [counted] at found
  | ok count =>
      simp only [counted] at found
      split at found
      · simp at found
      · next filled =>
          split at found
          · simp at found
          · next disagrees =>
              obtain ⟨usable, slotCount⟩ := Table.usable_of_slotsPerPage counted filled
              have spacious := filled
              rw [slotCount] at spacious
              have agrees : row.schema.agrees table.schema = true := by simpa using disagrees
              cases walked : bare.seek table transaction 0 (bare.counts table.id) with
              | mk outcome middle =>
                  cases outcome with
                  | error failure => simp [walked] at found
                  | ok place =>
                      cases place with
                      | some here =>
                          simp only [walked, Prod.mk.injEq, Except.ok.injEq] at found
                          obtain ⟨rfl, rfl⟩ := found
                          obtain ⟨number, inside, pageIs, roomy, passed⟩ := seek_found walked
                          rw [Nat.zero_add] at inside
                          exact ⟨number, bare, usable, spacious, ⟨count, counted, filled⟩, agrees,
                            pageIs, .inl ⟨rfl, inside⟩,
                            fun earlier below => passed earlier (Nat.zero_le _) below, roomy⟩
                      | none =>
                          simp only [walked] at found
                          obtain ⟨locks, full⟩ := seek_full walked
                          rw [Nat.zero_add] at full
                          have next : middle.nextPage table =
                              table.page (UInt32.ofNat (bare.counts table.id)) := by
                            rw [nextPage, locks.counts_eq]
                          obtain ⟨pageIs, roomy⟩ := seekNew_ok found
                          rw [next] at pageIs
                          have grown := locks.grow table
                          have later : LockService.Strengthens transaction middle.locks
                              after.locks := roomy.locks.strengthens
                          exact ⟨_, _, usable, spacious, ⟨count, counted, filled⟩, agrees, pageIs,
                            .inr ⟨rfl, rfl⟩,
                            fun earlier below => (full earlier (Nat.zero_le _) below).later later,
                            roomy.earlier grown⟩

theorem vacancy_error {table : Table} {row : Row} {failure : Failure} {after : Bare}
    (failed : bare.vacancy table transaction row = (.error failure, after)) :
    LocksMore transaction bare after ∨
      (table.Usable ∧
        (∀ earlier, earlier < bare.counts table.id →
          FullPage bare after transaction (table.page (UInt32.ofNat earlier))) ∧
        LocksMore transaction (bare.grow table) after) := by
  unfold Bare.vacancy at failed
  cases counted : table.slotsPerPage with
  | error fault =>
      simp only [counted, Prod.mk.injEq] at failed
      exact .inl (failed.2 ▸ .refl transaction bare)
  | ok count =>
      simp only [counted] at failed
      split at failed
      · simp only [Prod.mk.injEq] at failed
        exact .inl (failed.2 ▸ .refl transaction bare)
      · next filled =>
          split at failed
          · simp only [Prod.mk.injEq] at failed
            exact .inl (failed.2 ▸ .refl transaction bare)
          · have locks := bare.seek_locks table transaction 0 (bare.counts table.id)
            cases walked : bare.seek table transaction 0 (bare.counts table.id) with
            | mk outcome middle =>
                rw [walked] at locks
                cases outcome with
                | error refused =>
                    simp only [walked, Prod.mk.injEq] at failed
                    exact .inl (failed.2 ▸ locks)
                | ok place =>
                    cases place with
                    | some here => simp [walked] at failed
                    | none =>
                        simp only [walked] at failed
                        have later := middle.seekNew_locks table transaction
                        rw [failed] at later
                        obtain ⟨-, full⟩ := seek_full walked
                        rw [Nat.zero_add] at full
                        have grown : LockService.Strengthens transaction middle.locks
                            after.locks := later.strengthens
                        exact .inr ⟨(Table.usable_of_slotsPerPage counted filled).1,
                          fun earlier below => (full earlier (Nat.zero_le _) below).later grown,
                          (locks.grow table).trans later⟩

theorem table?_ok (bare : Bare) {id : TableId} {table : Table}
    (found : bare.table? id = .ok table) :
    bare.tables[id]? = some table := by
  unfold table? at found
  cases known : bare.tables[id]? with
  | none => simp [known] at found
  | some other =>
      simp only [known, Except.ok.injEq] at found
      rw [found]

theorem insert_ok {id : TableId} {row : Row} {record : RecordId} {after : Bare}
    (inserted : bare.insert transaction id row = (.ok record, after)) :
    ∃ table number base middle slots, bare.tables[id]? = some table ∧
      Inserted bare transaction table row record number base middle slots ∧
      after = middle.change transaction record.page (slots.set record.slot (some row.stored)) := by
  unfold Bare.insert at inserted
  cases found : bare.table? id with
  | error error => simp [found] at inserted
  | ok table =>
      simp only [found] at inserted
      cases searched : bare.vacancy table transaction row with
      | mk outcome middle =>
          cases outcome with
          | error failure => simp [searched] at inserted
          | ok vacancy =>
              simp only [searched, Prod.mk.injEq, Except.ok.injEq] at inserted
              obtain ⟨rfl, rfl⟩ := inserted
              obtain ⟨number, base, facts⟩ := vacancy_ok searched
              exact ⟨table, number, base, middle, vacancy.slots, bare.table?_ok found, facts, rfl⟩

theorem insert_error {id : TableId} {row : Row} {failure : Failure} {after : Bare}
    (failed : bare.insert transaction id row = (.error failure, after)) :
    LocksMore transaction bare after ∨
      ∃ table, bare.tables[id]? = some table ∧ table.Usable ∧
        (∀ earlier, earlier < bare.counts table.id →
          FullPage bare after transaction (table.page (UInt32.ofNat earlier))) ∧
        LocksMore transaction (bare.grow table) after := by
  unfold Bare.insert at failed
  cases found : bare.table? id with
  | error error =>
      simp only [found, Prod.mk.injEq] at failed
      exact .inl (failed.2 ▸ .refl transaction bare)
  | ok table =>
      simp only [found] at failed
      cases searched : bare.vacancy table transaction row with
      | mk outcome middle =>
          cases outcome with
          | ok vacancy => simp [searched] at failed
          | error refused =>
              simp only [searched, Prod.mk.injEq] at failed
              obtain ⟨-, rfl⟩ := failed
              rcases vacancy_error searched with locks | ⟨usable, passed, locks⟩
              · exact .inl locks
              · exact .inr ⟨table, bare.table?_ok found, usable, passed, locks⟩

theorem delete_ok {record : Option RecordId} {after : Bare}
    (deleted : bare.delete transaction record = (.ok (), after)) :
    ∃ place middle slots, record = some place ∧ (bare.tables[place.page.table]?).isSome ∧
      LocksMore transaction bare middle ∧
      middle.locks.modeOf transaction place.page = some .exclusive ∧
      bare.fetch place.page = .ok slots ∧ Slots.checkTaken slots place.page place = .ok () ∧
      after = middle.change transaction place.page (slots.set place.slot none) := by
  unfold Bare.delete at deleted
  cases record with
  | none => simp at deleted
  | some place =>
      cases found : bare.table? place.page.table with
      | error error => simp [found] at deleted
      | ok table =>
          simp only [found] at deleted
          cases fetched : bare.getPage transaction place.page .readWrite with
          | mk outcome middle =>
              cases outcome with
              | error failure => simp [fetched] at deleted
              | ok slots =>
                  simp only [fetched] at deleted
                  cases checked : Slots.checkTaken slots place.page place with
                  | error error => simp [checked] at deleted
                  | ok done =>
                      simp only [checked, Prod.mk.injEq, true_and] at deleted
                      obtain ⟨locks, shown, -, exclusive⟩ := getPage_ok fetched
                      have known := bare.table?_ok found
                      exact ⟨place, middle, slots, rfl, by rw [known]; rfl, locks, exclusive rfl,
                        shown, checked, deleted.symm⟩

theorem delete_error {record : Option RecordId} {failure : Failure} {after : Bare}
    (failed : bare.delete transaction record = (.error failure, after)) :
    LocksMore transaction bare after := by
  unfold Bare.delete at failed
  cases record with
  | none =>
      simp only [Prod.mk.injEq] at failed
      exact failed.2 ▸ .refl transaction bare
  | some place =>
      cases found : bare.table? place.page.table with
      | error error =>
          simp only [found, Prod.mk.injEq] at failed
          exact failed.2 ▸ .refl transaction bare
      | ok table =>
          have locks := bare.getPage_locks transaction place.page .readWrite
          simp only [found] at failed
          cases fetched : bare.getPage transaction place.page .readWrite with
          | mk outcome middle =>
              rw [fetched] at locks
              cases outcome with
              | error refused =>
                  simp only [fetched, Prod.mk.injEq] at failed
                  exact failed.2 ▸ locks
              | ok slots =>
                  simp only [fetched] at failed
                  cases checked : Slots.checkTaken slots place.page place with
                  | ok done => simp [checked] at failed
                  | error error =>
                      simp only [checked, Prod.mk.injEq] at failed
                      exact failed.2 ▸ locks

theorem setting_insert (bare : Bare) (transaction : TransactionId) (id : TableId) (row : Row) :
    (bare.insert transaction id row).2.SameSetting bare := by
  cases done : bare.insert transaction id row with
  | mk outcome after =>
      cases outcome with
      | error failure =>
          rcases insert_error done with locks | ⟨table, -, -, -, locks⟩
          · exact locks.setting
          · exact ⟨locks.setting.tables, locks.setting.capacity, locks.setting.nextTransaction⟩
      | ok record =>
          obtain ⟨table, number, base, middle, slots, -, inserted, rfl⟩ := insert_ok done
          have same := inserted.roomy.locks.setting
          rcases inserted.baseIs with ⟨rfl, -⟩ | ⟨rfl, -⟩ <;>
            exact ⟨same.tables, same.capacity, same.nextTransaction⟩

theorem tables_insert (bare : Bare) (transaction : TransactionId) (id : TableId) (row : Row) :
    (bare.insert transaction id row).2.tables = bare.tables :=
  (bare.setting_insert transaction id row).tables

theorem capacity_insert (bare : Bare) (transaction : TransactionId) (id : TableId) (row : Row) :
    (bare.insert transaction id row).2.capacity = bare.capacity :=
  (bare.setting_insert transaction id row).capacity

/-- `insert` only adds locks. -/
theorem insert_strengthens (bare : Bare) (transaction : TransactionId) (id : TableId) (row : Row) :
    LockService.Strengthens transaction bare.locks (bare.insert transaction id row).2.locks := by
  cases done : bare.insert transaction id row with
  | mk outcome after =>
      cases outcome with
      | error failure =>
          rcases insert_error done with locks | ⟨table, -, -, -, locks⟩
          · exact locks.strengthens
          · exact locks.strengthens
      | ok record =>
          obtain ⟨table, number, base, middle, slots, -, inserted, rfl⟩ := insert_ok done
          have locks := inserted.roomy.locks.strengthens
          rcases inserted.baseIs with ⟨rfl, -⟩ | ⟨rfl, -⟩
          · exact locks
          · exact locks

theorem delete_strengthens (bare : Bare) (transaction : TransactionId)
    (record : Option RecordId) :
    LockService.Strengthens transaction bare.locks (bare.delete transaction record).2.locks := by
  cases done : bare.delete transaction record with
  | mk outcome after =>
      cases outcome with
      | error failure => exact (delete_error done).strengthens
      | ok nothing =>
          obtain ⟨place, middle, slots, -, -, locks, -, -, -, rfl⟩ := delete_ok done
          exact locks.strengthens

theorem tables_delete (bare : Bare) (transaction : TransactionId) (record : Option RecordId) :
    (bare.delete transaction record).2.tables = bare.tables := by
  cases done : bare.delete transaction record with
  | mk outcome after =>
      cases outcome with
      | error failure => exact (delete_error done).tables_eq
      | ok nothing =>
          obtain ⟨place, middle, slots, -, -, locks, -, -, -, rfl⟩ := delete_ok done
          exact locks.tables_eq

theorem setting_complete (bare : Bare) (commits : Bool) (transaction : TransactionId) :
    (bare.complete commits transaction).SameSetting bare := by
  rw [complete_eq]
  cases commits <;> exact ⟨rfl, rfl, rfl⟩

theorem tables_complete (bare : Bare) (commits : Bool) (transaction : TransactionId) :
    (bare.complete commits transaction).tables = bare.tables :=
  (bare.setting_complete commits transaction).tables

theorem capacity_complete (bare : Bare) (commits : Bool) (transaction : TransactionId) :
    (bare.complete commits transaction).capacity = bare.capacity :=
  (bare.setting_complete commits transaction).capacity

theorem counts_complete (bare : Bare) (commits : Bool) (transaction : TransactionId) :
    (bare.complete commits transaction).counts = bare.counts := by
  rw [complete_eq]
  cases commits <;> rfl

/-! ### Ending a transaction -/

section Complete

variable (consistent : bare.locks.table.Consistent) (commits : Bool)

include consistent

theorem contains_pagesOf (page : PageId) :
    (bare.locks.table.pagesOf transaction).contains page =
      (bare.locks.modeOf transaction page).isSome := by
  rw [Bool.eq_iff_iff, List.contains_iff_mem]
  exact LockTable.mem_pagesOf_iff consistent transaction page

theorem consistent_complete : (bare.complete commits transaction).locks.table.Consistent := by
  rw [complete_eq]
  exact (LockService.consistent_foldl_release consistent transaction _).releaseAll

theorem modeOf_complete (other : TransactionId) (page : PageId) :
    (bare.complete commits transaction).locks.modeOf other page =
      if other = transaction then none else bare.locks.modeOf other page := by
  have released := LockService.consistent_foldl_release consistent transaction
    (bare.locks.table.pagesOf transaction)
  rw [complete_eq]
  refine (LockTable.modeOf_releaseAll released other page).trans ?_
  by_cases own : other = transaction
  · rw [if_pos own, if_pos own]
  · rw [if_neg own, if_neg own]
    exact LockService.modeOf_foldl_release _ _ _ _ _ own

theorem drafts_complete (page : PageId) :
    (bare.complete commits transaction).drafts[page]? =
      if (bare.locks.modeOf transaction page).isSome then none else bare.drafts[page]? := by
  rw [complete_eq, ← contains_pagesOf consistent]
  cases commits with
  | false => exact bare.drafts_discardThose _ page
  | true => exact bare.drafts_flushThose _ page

theorem written_commit (page : PageId) :
    (bare.complete true transaction).written page =
      match bare.drafts[page]? with
      | some draft =>
          if (bare.locks.modeOf transaction page).isSome then .ok draft.slots
          else bare.written page
      | none => bare.written page := by
  rw [complete_eq, ← contains_pagesOf consistent]
  rfl

omit consistent in
theorem written_abort : (bare.complete false transaction).written = bare.written := by
  rw [complete_eq]
  rfl

end Complete

/-! ### Pages that can be read -/

def Whole (bare : Bare) : Prop :=
  ∀ page : PageId, page.number.toNat < bare.counts page.table →
    ∃ slots, bare.written page = .ok slots

namespace Whole

theorem of_same {after : Bare} (whole : bare.Whole) (counts : after.counts = bare.counts)
    (written : after.written = bare.written) : after.Whole := by
  intro page inside
  rw [counts] at inside
  rw [written]
  exact whole page inside

theorem lockMore {after : Bare} (whole : bare.Whole) (locks : LocksMore transaction bare after) :
    after.Whole := whole.of_same locks.counts_eq locks.written_eq

theorem grow (whole : bare.Whole) (table : Table) : (bare.grow table).Whole := by
  intro page inside
  simp only [Bare.grow, Bare.write] at inside ⊢
  by_cases last : page = bare.nextPage table
  · exact ⟨_, if_pos last⟩
  · rw [if_neg last]
    apply whole page
    split at inside
    · next own =>
        apply Nat.lt_of_le_of_ne (Nat.le_of_lt_succ inside)
        intro same
        apply last
        cases page with
        | mk id number =>
            rw [nextPage, Table.page, PageId.mk.injEq]
            refine ⟨own, ?_⟩
            rw [← own, ← same, UInt32.ofNat_toNat]
    · exact inside

theorem insert (whole : bare.Whole) (id : TableId) (row : Row) :
    (bare.insert transaction id row).2.Whole := by
  cases done : bare.insert transaction id row with
  | mk outcome after =>
      cases outcome with
      | error failure =>
          rcases insert_error done with locks | ⟨table, -, -, -, locks⟩
          · exact whole.lockMore locks
          · exact (whole.grow table).lockMore locks
      | ok record =>
          obtain ⟨table, number, base, middle, slots, -, inserted, rfl⟩ := insert_ok done
          have baseWhole : base.Whole := by
            rcases inserted.baseIs with ⟨rfl, -⟩ | ⟨rfl, -⟩
            · exact whole
            · exact whole.grow table
          exact (baseWhole.lockMore inserted.roomy.locks).of_same rfl rfl

theorem delete (whole : bare.Whole) (record : Option RecordId) :
    (bare.delete transaction record).2.Whole := by
  cases done : bare.delete transaction record with
  | mk outcome after =>
      cases outcome with
      | error failure => exact whole.lockMore (delete_error done)
      | ok nothing =>
          obtain ⟨place, middle, slots, -, -, locks, -, -, -, rfl⟩ := delete_ok done
          exact (whole.lockMore locks).of_same rfl rfl

theorem complete (whole : bare.Whole) (consistent : bare.locks.table.Consistent) (commits : Bool)
    (transaction : TransactionId) : (bare.complete commits transaction).Whole := by
  have counts := bare.counts_complete commits transaction
  cases commits with
  | false => exact whole.of_same counts written_abort
  | true =>
      intro page inside
      rw [counts] at inside
      obtain ⟨slots, readable⟩ := whole page inside
      rw [written_commit consistent]
      cases drafted : bare.drafts[page]? with
      | none => exact ⟨slots, readable⟩
      | some draft =>
          simp only
          split
          · exact ⟨_, rfl⟩
          · exact ⟨slots, readable⟩

end Whole

def Visited (bare after : Bare) (transaction : TransactionId) (page : PageId) (slots : Slots) :
    Prop :=
  (after.locks.modeOf transaction page).isSome ∧ bare.fetch page = .ok slots

theorem Visited.later {middle after : Bare} {slots : Slots}
    (visited : Visited bare middle transaction page slots)
    (locks : LocksMore transaction middle after) : Visited bare after transaction page slots :=
  ⟨locks.strengthens.held page visited.1, visited.2⟩

theorem Visited.earlier {middle after : Bare} {slots : Slots}
    (visited : Visited middle after transaction page slots)
    (locks : LocksMore transaction bare middle) : Visited bare after transaction page slots :=
  ⟨visited.1, (locks.fetch_eq page).symm.trans visited.2⟩

end Bare

namespace BareScan

variable {bare after : Bare} {table : Table} {transaction : TransactionId} {first length : Nat}

theorem advance_locks (bare : Bare) (table : Table) (transaction : TransactionId)
    (first length : Nat) :
    Bare.LocksMore transaction bare (advance table transaction first length bare).2.2 := by
  induction length generalizing bare first with
  | zero => exact .refl transaction bare
  | succ length ih =>
      have locks := bare.getPage_locks transaction (table.page (UInt32.ofNat first)) .readOnly
      unfold advance
      split
      · next fetched =>
          rw [fetched] at locks
          exact locks
      · next fetched =>
          rw [fetched] at locks
          exact locks
      · next slots middle fetched =>
          rw [fetched] at locks
          split
          · exact locks.trans (ih middle (first + 1))
          · exact locks

theorem next_locks (bare : Bare) (scan : BareScan) :
    Bare.LocksMore scan.transaction bare (scan.next bare).2.2 := by
  unfold next
  split
  · exact .refl scan.transaction bare
  · exact advance_locks bare scan.table scan.transaction scan.ahead.first scan.ahead.length

def Empty (bare after : Bare) (transaction : TransactionId) (page : PageId) : Prop :=
  ∃ slots, Bare.Visited bare after transaction page slots ∧ slots.rows page = []

/-- The end of a scan or an error, after which it yields nothing. A fault ends the program and is
neither. -/
def Halts : Option (Except Failure SeenRow) → Prop
  | none => True
  | some (.error (.refused _)) => True
  | _ => False

structure Passes (scan : BareScan) (bare after : Bare) (number : Nat) : Prop where
  reached : scan.ahead.first ≤ number
  empty : ∀ earlier, scan.ahead.first ≤ earlier → earlier < number →
    Empty bare after scan.transaction (scan.table.page (UInt32.ofNat earlier))

inductive Step (scan : BareScan) (bare : Bare) :
    Option (Except Failure SeenRow) × BareScan × Bare → Prop where
  | hand {row : SeenRow} {rest : List SeenRow} : scan.buffered = row :: rest →
      Step scan bare (some (.ok row), { scan with buffered := rest }, bare)
  | load {number length : Nat} {row : SeenRow} {rest : List SeenRow} {after : Bare}
      {slots : Slots} : scan.buffered = [] → scan.Passes bare after number →
      number + 1 + length = scan.ahead.first + scan.ahead.length →
      Bare.Visited bare after scan.transaction (scan.table.page (UInt32.ofNat number)) slots →
      slots.rows (scan.table.page (UInt32.ofNat number)) = row :: rest →
      Step scan bare
        (some (.ok row), ⟨scan.table, scan.transaction, ⟨number + 1, length⟩, rest⟩, after)
  | finish {after : Bare} : scan.buffered = [] →
      scan.Passes bare after (scan.ahead.first + scan.ahead.length) →
      Step scan bare (none, ⟨scan.table, scan.transaction, .empty, []⟩, after)
  | fail {failure : Failure} {ahead : PageSpan} {after : Bare} : scan.buffered = [] →
      (ahead.length = 0 ∨ scan.ahead.first ≤ ahead.first ∧
        ahead.first + ahead.length = scan.ahead.first + scan.ahead.length) →
      (Halts (some (.error failure)) → ahead.length = 0) →
      Step scan bare
        (some (.error failure), ⟨scan.table, scan.transaction, ahead, []⟩, after)

theorem Passes.earlier {middle : Bare} {number : Nat}
    (passes : Passes ⟨table, transaction, ⟨first + 1, length⟩, []⟩ middle after number)
    (locks : Bare.LocksMore transaction bare middle)
    (empty : Empty bare after transaction (table.page (UInt32.ofNat first))) :
    Passes ⟨table, transaction, ⟨first, length + 1⟩, []⟩ bare after number := by
  obtain ⟨reached, others⟩ := passes
  refine ⟨Nat.le_of_succ_le reached, fun page above below => ?_⟩
  by_cases here : page = first
  · subst here
    exact empty
  · have behind : first + 1 ≤ page := Nat.lt_of_le_of_ne above (Ne.symm here)
    obtain ⟨slots, visited, none⟩ := others page behind below
    exact ⟨slots, visited.earlier locks, none⟩

theorem step_advance (bare : Bare) (table : Table) (transaction : TransactionId)
    (first length : Nat) :
    Step ⟨table, transaction, ⟨first, length⟩, []⟩ bare
      (advance table transaction first length bare) := by
  induction length generalizing bare first with
  | zero =>
      refine .finish rfl ⟨Nat.le_refl _, fun earlier above below => ?_⟩
      exact absurd above (Nat.not_le.mpr below)
  | succ length ih =>
      have further : first + 1 + length = first + (length + 1) := by omega
      unfold advance
      rcases fetched : bare.getPage transaction (table.page (UInt32.ofNat first)) .readOnly with
        ⟨(error | fault) | slots, middle⟩
      · exact .fail rfl (.inl rfl) fun _ => rfl
      · exact .fail rfl (.inr ⟨Nat.le_succ first, further⟩) fun halts => halts.elim
      · obtain ⟨locks, shown, held, -⟩ := Bare.getPage_ok fetched
        have visited : Bare.Visited bare middle transaction (table.page (UInt32.ofNat first))
          slots := ⟨held, shown⟩
        simp only
        cases rows : slots.rows (table.page (UInt32.ofNat first)) with
        | cons head tail =>
            refine .load rfl ⟨Nat.le_refl _, fun earlier above below => ?_⟩ further visited rows
            exact absurd above (Nat.not_le.mpr below)
        | nil =>
            have later := advance_locks middle table transaction (first + 1) length
            have step := ih middle (first + 1)
            simp only
            generalize advance table transaction (first + 1) length middle = result at later step ⊢
            cases step with
            | hand held => cases held
            | load unbuffered passes total seen taken =>
                exact .load rfl (passes.earlier locks ⟨slots, visited.later later, rows⟩)
                  (total.trans further) (seen.earlier locks) taken
            | finish unbuffered passes =>
                refine .finish rfl ?_
                have passed := passes.earlier locks ⟨slots, visited.later later, rows⟩
                exact further ▸ passed
            | fail unbuffered ahead halted =>
                refine .fail rfl (ahead.imp_right ?_) halted
                rintro ⟨above, total⟩
                exact ⟨Nat.le_of_succ_le above, total.trans further⟩

theorem step_next (scan : BareScan) (bare : Bare) : Step scan bare (scan.next bare) := by
  obtain ⟨table, transaction, ⟨first, length⟩, buffered⟩ := scan
  cases buffered with
  | cons row rest => exact .hand rfl
  | nil => exact step_advance bare table transaction first length

theorem Step.owner {scan : BareScan}
    {result : Option (Except Failure SeenRow) × BareScan × Bare} (step : Step scan bare result) :
    result.2.1.table = scan.table ∧ result.2.1.transaction = scan.transaction := by
  cases step <;> exact ⟨rfl, rfl⟩

structure Loads (bare : Bare) (table : Table) (transaction : TransactionId) (first length : Nat)
    (result : Option (Except Failure SeenRow) × BareScan × Bare) (number : Nat) : Prop where
  reached : first ≤ number ∧ number ≤ first + length
  passed : ∀ earlier, first ≤ earlier → earlier < number →
    Empty bare result.2.2 transaction (table.page (UInt32.ofNat earlier))
  ended : result.1 = none → number = first + length
  yielded : ∀ row, result.1 = some (.ok row) →
    number < first + length ∧ result.2.1.ahead.first = number + 1 ∧
      ∃ slots, Bare.Visited bare result.2.2 transaction (table.page (UInt32.ofNat number)) slots ∧
        slots.rows (table.page (UInt32.ofNat number)) = row :: result.2.1.buffered

theorem Loads.refused {scan : BareScan} {failure : Failure} :
    Loads bare table transaction first length (some (.error failure), scan, after) first :=
  ⟨⟨Nat.le_refl first, Nat.le_add_right first length⟩,
    fun _ above below => absurd above (Nat.not_le.mpr below),
    (fun ended => by cases ended), fun _ yielded => by cases yielded⟩

theorem advance_loads (bare : Bare) (table : Table) (transaction : TransactionId)
    (first length : Nat) :
    ∃ number, Loads bare table transaction first length
      (advance table transaction first length bare) number := by
  have step := step_advance bare table transaction first length
  generalize advance table transaction first length bare = result at step ⊢
  cases step with
  | hand held => cases held
  | @load number further row rest after slots unbuffered passes total visited taken =>
      have inside : number < first + length := by
        change number + 1 + further = first + length at total
        omega
      refine ⟨number, ⟨passes.reached, Nat.le_of_lt inside⟩, passes.empty, nofun, ?_⟩
      intro other found
      cases found
      exact ⟨inside, rfl, slots, visited, taken⟩
  | finish unbuffered passes =>
      exact ⟨first + length, ⟨passes.reached, Nat.le_refl _⟩, passes.empty, fun _ => rfl, nofun⟩
  | fail unbuffered forward halted => exact ⟨first, .refused⟩

end BareScan

end RecordStore
