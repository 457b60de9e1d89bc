import RecordStore.Proofs.Lock.Index
import RecordStore.Proofs.Store.System

set_option autoImplicit false

/-! The steps of an operation before it changes a page: locking, loading with eviction of clean
pages, and appending empty pages. A failed insert or delete has done nothing else; a successful one
then changes one cached page that it holds exclusively, and marks it. -/

namespace RecordStore

inductive Page.Revises (page : Page) : Page → Prop where
  | inserted {row : Row} {record : RecordId} {changed : Page} :
      page.insert row = .ok (record, changed) → Revises page changed
  | deleted {record : RecordId} {changed : Page} :
      page.delete record = .ok changed → Revises page changed

namespace Page.Revises

variable {page changed : Page}

theorem same (revises : page.Revises changed) :
    changed = { page with bitmap := changed.bitmap, slots := changed.slots } := by
  cases revises with
  | inserted inserted =>
      unfold Page.insert at inserted
      split at inserted
      · split at inserted
        · cases inserted
        · cases inserted
          rfl
      · cases inserted
  | deleted deleted =>
      unfold Page.delete at deleted
      split at deleted
      · cases deleted
      · split at deleted
        · cases deleted
        · split at deleted
          · cases deleted
          · cases deleted
            rfl

theorem id_eq (revises : page.Revises changed) : changed.id = page.id := by
  rw [revises.same]

theorem image_eq (revises : page.Revises changed) : changed.beforeImage = page.beforeImage := by
  rw [revises.same]

theorem sound (revises : page.Revises changed) {schema : Schema} {size : Nat}
    (sound : page.Sound schema size) : changed.Sound schema size := by
  cases revises with
  | inserted inserted =>
      obtain ⟨slot, -, -, after, -⟩ := sound.insert_ok inserted
      exact after
  | @deleted record changed deleted =>
      cases checked : Slots.checkTaken page.contents page.id record with
      | error error =>
          rw [sound.delete_refused checked] at deleted
          cases deleted
      | ok done =>
          obtain ⟨content, again, after, -⟩ := sound.delete_eq checked
          rw [deleted] at again
          cases again
          exact after

end Page.Revises

namespace Store

inductive Visits (transaction : TransactionId) : Store → Store → Prop where
  | still (store : Store) : Visits transaction store store
  | andThen {first second third : Store} : Visits transaction first second →
      Visits transaction second third → Visits transaction first third
  | lock {store : Store} {locks : LockService} :
      LockService.Strengthens transaction store.locks locks →
      Visits transaction store { store with locks := locks }
  | append {store : Store} {id : TableId} {table : Table} {number : UInt32}
      {directory : Directory} : store.tables[id]? = some table →
      table.pages.allocate store.directory = .ok (number, directory) →
      Visits transaction store { store with directory := directory }
  | evict (store : Store) : Visits transaction store store.evict.2
  | read {store roomy : Store} {page : PageId} {table : Table} {content : Page} :
      store.cache[page]? = none → store.tables[page.table]? = some table →
      store.makeRoom = (.ok (), roomy) → table.readPage roomy.directory page = .ok content →
      Visits transaction store
        (({ roomy with nextSerial := roomy.nextSerial + 1 } : Store).install page
          ⟨roomy.nextSerial, content, false⟩)

structure Writable (store : Store) (transaction : TransactionId) (page : PageId)
    (cached : PageCopy) : Prop where
  present : store.cache[page]? = some cached
  alone : store.locks.modeOf transaction page = some .exclusive

variable {store after roomy : Store} {transaction : TransactionId} {page : PageId} {table : Table}
  {row : Row}

/-! ### Making room -/

theorem evict_cases (store : Store) :
    store.evict.2 = store ∨ ∃ victim cached, store.cache[victim]? = some cached ∧
      cached.isEvictable = true ∧ store.evict.2 = store.discard victim := by
  unfold evict
  cases chosen : store.victim? with
  | none => exact .inl rfl
  | some victim =>
      obtain ⟨cached, present, evictable⟩ :=
        (mem_victims_iff store victim).mp (mem_victims_of_victim? chosen)
      exact .inr ⟨victim, cached, present, evictable, rfl⟩

theorem makeRoom_cases (store : Store) :
    store.makeRoom.2 = store ∨ store.makeRoom.2 = store.evict.2 := by
  unfold makeRoom
  split
  · exact .inr rfl
  · exact .inl rfl

theorem room_cases (made : store.makeRoom = (.ok (), roomy)) :
    roomy = store ∨ roomy = store.evict.2 := by
  have cases := store.makeRoom_cases
  rw [made] at cases
  exact cases

theorem locks_evict (store : Store) : store.evict.2.locks = store.locks := by
  rcases store.evict_cases with same | ⟨victim, cached, -, -, same⟩
  · rw [same]
  · rw [same]
    rfl

theorem locks_makeRoom (store : Store) : store.makeRoom.2.locks = store.locks := by
  rcases store.makeRoom_cases with same | same
  · rw [same]
  · rw [same, locks_evict]

theorem locks_of_makeRoom (made : store.makeRoom = (.ok (), roomy)) :
    roomy.locks = store.locks := by
  have same := store.locks_makeRoom
  rw [made] at same
  exact same

theorem visits_makeRoom (store : Store) (transaction : TransactionId) :
    Visits transaction store store.makeRoom.2 := by
  rcases store.makeRoom_cases with same | same
  · rw [same]
    exact .still store
  · rw [same]
    exact .evict store

/-! ### Fetching -/

theorem cached_of_fetch {cached : PageCopy} (fetched : store.fetch page = (.ok cached, after)) :
    after.cache[page]? = some cached := by
  unfold fetch at fetched
  split at fetched
  · next present =>
      cases fetched
      exact present
  · unfold load at fetched
    split at fetched
    · cases fetched
    · split at fetched
      · cases fetched
      · split at fetched
        · cases fetched
        · cases fetched
          exact Std.ExtTreeMap.getElem?_insert_self

theorem locks_fetch (store : Store) (page : PageId) : (store.fetch page).2.locks = store.locks := by
  have room := store.locks_makeRoom
  unfold fetch
  split
  · rfl
  · unfold load
    split
    · rfl
    · split
      · next made =>
          rw [made] at room
          exact room
      · next made =>
          rw [made] at room
          split
          · exact room
          · exact room

theorem visits_load (store : Store) (transaction : TransactionId)
    (absent : store.cache[page]? = none) : Visits transaction store (store.load page).2 := by
  have room := store.visits_makeRoom transaction
  unfold load
  split
  · exact .still store
  · next table found =>
      split
      · next made =>
          rw [made] at room
          exact room
      · next made =>
          rw [made] at room
          split
          · exact room
          · next read => exact .read absent (store.bare.table?_ok found) made read

theorem visits_fetch (store : Store) (transaction : TransactionId) (page : PageId) :
    Visits transaction store (store.fetch page).2 := by
  unfold fetch
  split
  · exact .still store
  · next absent => exact store.visits_load transaction absent

theorem visits_getPage (store : Store) (transaction : TransactionId) (page : PageId)
    (access : Access) : Visits transaction store (store.getPage transaction page access).2 := by
  have stronger := store.locks.acquire_strengthens transaction page access.mode 0
  unfold getPage acquire
  rcases asked : store.locks.acquire transaction page access.mode 0 with ⟨failure | done, locks⟩
  · rw [asked] at stronger
    exact .lock stronger
  · rw [asked] at stronger
    exact .andThen (.lock stronger) (visits_fetch _ transaction page)

theorem getPage_writable {cached : PageCopy}
    (got : store.getPage transaction page .readWrite = (.ok cached, after)) :
    after.Writable transaction page cached := by
  unfold getPage acquire at got
  rcases asked : store.locks.acquire transaction page Access.readWrite.mode 0 with
    ⟨failure | done, locks⟩
  · simp [asked] at got
  · simp only [asked] at got
    refine ⟨cached_of_fetch got, ?_⟩
    have same := locks_fetch { store with locks := locks } page
    rw [got] at same
    rw [same]
    exact (LockService.modeOf_of_acquire asked).2 rfl

/-! ### What visits keep -/

namespace Visits

theorem tables_eq (visits : Visits transaction store after) : after.tables = store.tables := by
  induction visits with
  | still store => rfl
  | andThen earlier later first second => exact second.trans first
  | lock stronger => rfl
  | append known allocated => rfl
  | evict store => exact store.files_evict.tablesAre
  | @read store roomy page table content absent known made read =>
      have files := store.files_makeRoom
      rw [made] at files
      exact files.tablesAre

theorem strengthens (visits : Visits transaction store after) :
    LockService.Strengthens transaction store.locks after.locks := by
  induction visits with
  | still store => exact .refl transaction store.locks
  | andThen earlier later first second => exact first.trans second
  | lock stronger => exact stronger
  | @append store id table number directory known allocated => exact .refl transaction store.locks
  | evict store =>
      rw [store.locks_evict]
      exact .refl transaction store.locks
  | @read store roomy page table content absent known made read =>
      change LockService.Strengthens transaction store.locks roomy.locks
      rw [locks_of_makeRoom made]
      exact .refl transaction store.locks

end Visits

/-! ### Looking for room -/

inductive Tries (transaction : TransactionId) (row : Row) (store : Store) :
    Except Failure (Option Placement) × Store → Prop where
  | failed {after : Store} (failure : Failure) : Visits transaction store after →
      Tries transaction row store (.error failure, after)
  | nowhere {after : Store} : Visits transaction store after →
      Tries transaction row store (.ok none, after)
  | found {middle : Store} {page : PageId} {cached : PageCopy} {record : RecordId}
      {content : Page} : Visits transaction store middle →
      middle.Writable transaction page cached →
      cached.page.insert row = .ok (record, content) →
      Tries transaction row store
        (.ok (some ⟨record, page, cached.withPage content⟩),
          middle.update page (cached.withPage content))

theorem Tries.behind {first : Store} {result : Except Failure (Option Placement) × Store}
    (tries : Tries transaction row store result) (earlier : Visits transaction first store) :
    Tries transaction row first result := by
  cases tries with
  | failed failure visits => exact .failed failure (earlier.andThen visits)
  | nowhere visits => exact .nowhere (earlier.andThen visits)
  | found visits writable inserted => exact .found (earlier.andThen visits) writable inserted

theorem tries_placeAt (store : Store) (transaction : TransactionId) (page : PageId) (row : Row) :
    Tries transaction row store (store.placeAt transaction page row) := by
  have got := store.visits_getPage transaction page .readWrite
  unfold placeAt
  rcases fetched : store.getPage transaction page .readWrite with ⟨failure | cached, middle⟩
  · rw [fetched] at got
    exact .failed failure got
  · rw [fetched] at got
    simp only [placeOn]
    by_cases full : cached.page.freeCount = 0
    · rw [if_pos full]
      exact .nowhere got
    · rw [if_neg full]
      rcases inserted : cached.page.insert row with error | ⟨record, content⟩
      · exact .failed (.refused error) got
      · exact .found got (getPage_writable fetched) inserted

theorem tries_placeAmong (table : Table) (transaction : TransactionId) (row : Row)
    (first length : Nat) (store : Store) :
    Tries transaction row store (store.placeAmong table transaction row first length) := by
  induction length generalizing store first with
  | zero => exact .nowhere (.still store)
  | succ length ih =>
      have tries := store.tries_placeAt transaction (table.page (UInt32.ofNat first)) row
      unfold placeAmong
      rcases tried : store.placeAt transaction (table.page (UInt32.ofNat first)) row with
        ⟨failure | (_ | placement), middle⟩
      · rw [tried] at tries
        exact tries
      · rw [tried] at tries
        cases tries with
        | nowhere visits => exact (ih (first + 1) middle).behind visits
      · rw [tried] at tries
        exact tries

theorem tries_placeAppended {id : TableId} (known : store.tables[id]? = some table)
    (transaction : TransactionId) (row : Row) (tries : Nat) :
    Tries transaction row store
      ((placeAppended table transaction row tries store).1.map some,
        (placeAppended table transaction row tries store).2) := by
  induction tries generalizing store with
  | zero => exact .failed _ (.still store)
  | succ tries ih =>
      unfold placeAppended
      rcases allocated : table.pages.allocate store.directory with failure | ⟨number, directory⟩
      · exact .failed failure (.still store)
      · have appended : Visits transaction store { store with directory := directory } :=
          .append known allocated
        have tries :=
          tries_placeAt { store with directory := directory } transaction (table.page number) row
        simp only
        rcases tried : ({ store with directory := directory } : Store).placeAt transaction
            (table.page number) row with ⟨failure | (_ | placement), middle⟩
        · rw [tried] at tries
          exact tries.behind appended
        · rw [tried] at tries
          cases tries with
          | nowhere visits =>
              have still : middle.tables[id]? = some table := by
                rw [visits.tables_eq]
                exact known
              exact (ih still).behind (appended.andThen visits)
        · rw [tried] at tries
          exact tries.behind appended

theorem tries_place {id : TableId} (known : store.tables[id]? = some table)
    (transaction : TransactionId) (row : Row) :
    Tries transaction row store
      ((store.place table transaction row).1.map some, (store.place table transaction row).2) := by
  unfold place
  split
  · exact .failed _ (.still store)
  · split
    · exact .failed _ (.still store)
    · split
      · exact .failed _ (.still store)
      · split
        · exact .failed _ (.still store)
        · next count counted =>
            have tries := tries_placeAmong table transaction row 0 count.toNat store
            rcases tried : store.placeAmong table transaction row 0 count.toNat with
              ⟨failure | (_ | placement), middle⟩
            · rw [tried] at tries
              exact tries
            · rw [tried] at tries
              cases tries with
              | nowhere visits =>
                  have still : middle.tables[id]? = some table := by
                    rw [visits.tables_eq]
                    exact known
                  exact (tries_placeAppended still transaction row _).behind visits
            · rw [tried] at tries
              exact tries

/-! ### Inserting and deleting -/

inductive Inserts (transaction : TransactionId) (row : Row) (store : Store) :
    Except Failure RecordId × Row × Store → Prop where
  | refused {after : Store} (failure : Failure) : Visits transaction store after →
      Inserts transaction row store (.error failure, row, after)
  | placed {middle : Store} {page : PageId} {cached : PageCopy} {record : RecordId}
      {content : Page} : Visits transaction store middle →
      middle.Writable transaction page cached →
      cached.page.insert row = .ok (record, content) →
      Inserts transaction row store
        (.ok record, row.placed (some record),
          middle.install page (markedCopy cached content transaction))

theorem inserts_insert (store : Store) (transaction : TransactionId) (id : TableId) (row : Row) :
    Inserts transaction row store (store.insert transaction id row) := by
  unfold Store.insert
  split
  · exact .refused _ (.still store)
  · next table found =>
      have tries := tries_place (store.bare.table?_ok found) transaction row
      rcases done : store.place table transaction row with ⟨failure | placement, middle⟩
      · rw [done] at tries
        cases tries with
        | failed failure visits => exact .refused failure visits
      · rw [done] at tries
        cases tries with
        | @found origin page cached record content visits writable inserted =>
            have marked := installDirty_update writable.present content transaction
            unfold Store.update at marked
            simp only [marked]
            exact .placed visits writable inserted

inductive Deletes (transaction : TransactionId) (store : Store) :
    Except Failure Unit × Store → Prop where
  | refused {after : Store} (failure : Failure) : Visits transaction store after →
      Deletes transaction store (.error failure, after)
  | freed {middle : Store} {cached : PageCopy} {record : RecordId} {content : Page} :
      Visits transaction store middle → middle.Writable transaction record.page cached →
      cached.page.delete record = .ok content →
      Deletes transaction store
        (.ok (), middle.install record.page (markedCopy cached content transaction))

theorem deletes_delete (store : Store) (transaction : TransactionId)
    (record : Option RecordId) :
    Deletes transaction store (store.delete transaction record) := by
  unfold delete
  split
  · exact .refused _ (.still store)
  · next place =>
      split
      · exact .refused _ (.still store)
      · next table found =>
          unfold remove
          simp only
          cases table.checkOwner place.page with
          | error error => exact .refused _ (.still store)
          | ok done =>
              have got := store.visits_getPage transaction place.page .readWrite
              rcases fetched : store.getPage transaction place.page .readWrite with
                ⟨failure | cached, middle⟩
              · rw [fetched] at got
                exact .refused failure got
              · rw [fetched] at got
                have writable := getPage_writable fetched
                simp only
                cases deleted : cached.page.delete place with
                | error error => exact .refused _ got
                | ok content =>
                    simp only [installDirty_update writable.present content transaction]
                    exact .freed got writable deleted

/-! ### Scans -/

theorem visits_advance (table : Table) (transaction : TransactionId) (first length : Nat)
    (store : Store) :
    Visits transaction store (Scan.advance table transaction first length store).2.2 := by
  induction length generalizing store first with
  | zero => exact .still store
  | succ length ih =>
      have got := store.visits_getPage transaction (table.page (UInt32.ofNat first)) .readOnly
      unfold Scan.advance
      rcases done : store.getPage transaction (table.page (UInt32.ofNat first)) .readOnly with
        ⟨(error | fault) | cached, middle⟩
      · rw [done] at got
        exact got
      · rw [done] at got
        exact got
      · rw [done] at got
        simp only
        cases cached.page.rows with
        | nil => exact got.andThen (ih (first + 1) middle)
        | cons row rows => exact got

theorem visits_next (scan : Scan) (store : Store) :
    Visits scan.transaction store (scan.next store).2.2 := by
  unfold Scan.next
  split
  · exact .still store
  · exact visits_advance _ _ _ _ _

end Store

end RecordStore
