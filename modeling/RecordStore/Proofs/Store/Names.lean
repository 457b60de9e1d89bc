import RecordStore.Proofs.Disk.Names
import RecordStore.Proofs.Store.Run

set_option autoImplicit false

/-! Operations keep the registered tables and the names of files, and the lock table `Consistent`.
-/

namespace RecordStore

structure Directory.Extends (after before : Directory) : Prop extends
    after.SameNames before where
  longer : ∀ file, (before.content file).length ≤ (after.content file).length

namespace Directory.Extends

variable {first second third : Directory}

theorem refl (directory : Directory) : directory.Extends directory :=
  ⟨.refl directory, fun _ => Nat.le_refl _⟩

theorem trans (later : first.Extends second) (earlier : second.Extends third) :
    first.Extends third :=
  ⟨later.toSameNames.trans earlier.toSameNames,
    fun file => Nat.le_trans (earlier.longer file) (later.longer file)⟩

theorem wholePages_le (later : first.Extends second) (pages : PageFile) :
    pages.wholePages second ≤ pages.wholePages first :=
  Nat.div_le_div_right (later.longer pages.file)

end Directory.Extends

def Store.Extends (after before : Store) : Prop := after.directory.Extends before.directory

namespace Store

variable {store after : Store} {first second third : Store}

theorem SameFiles.toExtends (files : after.SameFiles store) : after.Extends store := by
  rw [Extends, files.directoryIs]
  exact .refl _

theorem Extends.trans (later : first.Extends second) (earlier : second.Extends third) :
    first.Extends third := Directory.Extends.trans later earlier

/-! ### Writing pages -/

theorem names_write {pages : PageFile} {directory written : Directory} {number : UInt32}
    {bytes : List UInt8} (done : pages.write directory number bytes = .ok written) :
    written.Extends directory := by
  have longer := PageFile.length_le_write done
  obtain ⟨-, rfl⟩ := PageFile.write_ok_iff.mp done
  exact ⟨directory.sameNames_store _ _, longer⟩

theorem names_allocate {pages : PageFile} {directory appended : Directory} {number : UInt32}
    (done : pages.allocate directory = .ok (number, appended)) :
    appended.Extends directory := by
  unfold PageFile.allocate at done
  split at done
  · cases done
  · split at done
    · cases done
    · split at done
      · cases done
      · next written =>
          cases done
          exact names_write written

theorem names_flush {page : PageId} {cached : PageCopy}
    (flushed : store.flush page cached = .ok after) : after.Extends store := by
  rcases flush_ok flushed with ⟨-, rfl⟩ | ⟨-, table, directory, -, -, written, rfl⟩
  · exact .refl _
  · exact names_write written

theorem names_flushEach (pages : List PageId) (store : Store) :
    (store.flushEach pages).2.Extends store := by
  induction pages generalizing store with
  | nil => exact .refl _
  | cons page pages ih =>
      unfold flushEach
      split
      · exact ih store
      · split
        · exact .refl _
        · next flushed done => exact (ih flushed).trans (names_flush done)

theorem names_settlePage (store : Store) (commits : Bool) (page : PageId) :
    (store.settlePage commits page).2.Extends store := by
  unfold settlePage
  split
  · exact .refl _
  · split
    · exact .refl _
    · split
      · unfold commitPage
        split
        · next done => exact names_flush done
        · exact .refl _
      · exact .refl _

theorem names_settlePages (commits : Bool) (transaction : TransactionId) (pages : List PageId)
    (store : Store) : (store.settlePages commits transaction pages).2.Extends store := by
  induction pages generalizing store with
  | nil => exact .refl _
  | cons page pages ih =>
      have settled := names_settlePage store commits page
      exact Extends.trans (ih _) settled

theorem names_complete (store : Store) (commits : Bool) (transaction : TransactionId) :
    (store.complete commits transaction).2.Extends store := by
  have settled := names_settlePages commits transaction (store.locks.table.pagesOf transaction)
    store
  unfold complete
  rcases done : store.settlePages commits transaction (store.locks.table.pagesOf transaction) with
    ⟨error, middle⟩
  rw [done] at settled
  cases error <;> exact settled

/-! ### Inserting and deleting -/

theorem names_placeAppended (table : Table) (transaction : TransactionId) (row : Row)
    (tries : Nat) (store : Store) :
    (placeAppended table transaction row tries store).2.Extends store := by
  induction tries generalizing store with
  | zero => exact .refl _
  | succ tries ih =>
      unfold placeAppended
      split
      · exact .refl _
      · next number directory allocated =>
          have appended : Store.Extends { store with directory := directory } store :=
            names_allocate allocated
          have tried := (files_placeAt { store with directory := directory } transaction
            (table.page number) row).toExtends.trans appended
          split
          · next done =>
              rw [done] at tried
              exact tried
          · next done =>
              rw [done] at tried
              exact tried
          · next middle done =>
              rw [done] at tried
              exact (ih middle).trans tried

theorem names_placeAmong (table : Table) (transaction : TransactionId) (row : Row)
    (first length : Nat) (store : Store) :
    (store.placeAmong table transaction row first length).2.Extends store := by
  induction length generalizing store first with
  | zero => exact .refl _
  | succ length ih =>
      have tried := (store.files_placeAt transaction (table.page (UInt32.ofNat first))
        row).toExtends
      unfold placeAmong
      split
      · next done =>
          rw [done] at tried
          exact tried
      · next done =>
          rw [done] at tried
          exact tried
      · next middle done =>
          rw [done] at tried
          exact (ih (first + 1) middle).trans tried

theorem names_place (store : Store) (table : Table) (transaction : TransactionId) (row : Row) :
    (store.place table transaction row).2.Extends store := by
  unfold place
  split
  · exact .refl _
  · split
    · exact .refl _
    · split
      · exact .refl _
      · split
        · exact .refl _
        · next count counted =>
            have tried := names_placeAmong table transaction row 0 count.toNat store
            split
            · next done =>
                rw [done] at tried
                exact tried
            · next done =>
                rw [done] at tried
                exact tried
            · next middle done =>
                rw [done] at tried
                exact (names_placeAppended table transaction row _ middle).trans tried

theorem names_insert (store : Store) (transaction : TransactionId) (id : TableId) (row : Row) :
    (store.insert transaction id row).2.2.Extends store := by
  cases known : store.tables[id]? with
  | none =>
      unfold Store.insert table?
      rw [known]
      exact .refl _
  | some table =>
      exact (files_insert known transaction row).toExtends.trans
        (store.names_place table transaction row)

theorem files_remove (store : Store) (table : Table) (transaction : TransactionId)
    (record : Option RecordId) : (store.remove table transaction record).2.SameFiles store := by
  unfold remove
  split
  · exact ⟨rfl, rfl⟩
  · next place =>
      split
      · exact ⟨rfl, rfl⟩
      · have got := store.files_getPage transaction place.page .readWrite
        split
        · next fetched =>
            rw [fetched] at got
            exact got
        · next fetched =>
            rw [fetched] at got
            split
            · exact got
            · exact (files_update _ _ _).trans got

theorem files_delete (store : Store) (transaction : TransactionId) (record : Option RecordId) :
    (store.delete transaction record).2.SameFiles store := by
  unfold delete
  split
  · exact ⟨rfl, rfl⟩
  · next place =>
      split
      · exact ⟨rfl, rfl⟩
      · next table known =>
          have removed := store.files_remove table transaction (some place)
          split
          · next done =>
              rw [done] at removed
              exact removed
          · next page cached middle done =>
              rw [done] at removed
              have installed := middle.files_installDirty transaction page cached
              split
              · next last =>
                  rw [last] at installed
                  exact installed.trans removed
              · next last =>
                  rw [last] at installed
                  exact installed.trans removed

theorem files_advance (table : Table) (transaction : TransactionId) (first length : Nat)
    (store : Store) : (Scan.advance table transaction first length store).2.2.SameFiles store := by
  induction length generalizing store first with
  | zero => exact ⟨rfl, rfl⟩
  | succ length ih =>
      have got := store.files_getPage transaction (table.page (UInt32.ofNat first)) .readOnly
      unfold Scan.advance
      rcases done : store.getPage transaction (table.page (UInt32.ofNat first)) .readOnly with
        ⟨(error | fault) | cached, middle⟩
      · rw [done] at got
        exact got
      · rw [done] at got
        exact got
      · rw [done] at got
        simp only
        cases cached.page.rows with
        | nil => exact (ih (first + 1) middle).trans got
        | cons row rows => exact got

theorem files_next (scan : Scan) (store : Store) : (scan.next store).2.2.SameFiles store := by
  unfold Scan.next
  split
  · exact ⟨rfl, rfl⟩
  · exact files_advance _ _ _ _ _

theorem files_drain (table : Table) (transaction : TransactionId) (first length : Nat)
    (store : Store) : (Scan.drain table transaction first length store).2.2.2.SameFiles store := by
  induction length generalizing store first with
  | zero => exact ⟨rfl, rfl⟩
  | succ length ih =>
      have got := store.files_getPage transaction (table.page (UInt32.ofNat first)) .readOnly
      unfold Scan.drain
      split
      · next fetched =>
          rw [fetched] at got
          exact got
      · next fetched =>
          rw [fetched] at got
          exact got
      · next cached middle fetched =>
          rw [fetched] at got
          exact (ih (first + 1) middle).trans got

theorem files_rest (scan : Scan) (store : Store) : (scan.rest store).2.2.2.SameFiles store :=
  files_drain scan.table scan.transaction scan.ahead.first scan.ahead.length store

end Store

namespace System

theorem names_perform (system : System) (operation : Operation) :
    (system.perform operation).2.store.Extends system.store := by
  cases operation with
  | begin => exact .refl _
  | get transaction page access => exact (system.store.files_getPage _ _ _).toExtends
  | insert transaction id row => exact system.store.names_insert transaction id row
  | delete transaction record => exact (system.store.files_delete _ _).toExtends
  | scan name transaction id =>
      rw [store_scan]
      exact .refl _
  | next name =>
      simp only [perform]
      split
      · exact .refl _
      · next scan found => exact (Store.files_next scan system.store).toExtends
  | rewind name =>
      rw [store_rewind]
      exact .refl _
  | evict => exact system.store.files_evict.toExtends
  | commit transaction => exact system.store.names_complete true transaction
  | abort transaction => exact system.store.names_complete false transaction
  | release transaction page => exact .refl _
  | discard page => exact .refl _
  | flush transaction => exact Store.names_flushEach _ system.store
  | flushAll => exact Store.names_flushEach _ system.store

end System

/-! ### Tables and locks -/

namespace Bare

structure Frames (before after : Bare) : Prop where
  tables : after.tables = before.tables
  consistent : before.locks.table.Consistent → after.locks.table.Consistent

variable {bare after : Bare} {transaction : TransactionId}

theorem Frames.refl (bare : Bare) : Frames bare bare := ⟨rfl, id⟩

theorem LocksMore.frames (locks : LocksMore transaction bare after) : Frames bare after :=
  ⟨locks.tables_eq, locks.strengthens.consistent⟩

theorem frames_insert (bare : Bare) (transaction : TransactionId) (id : TableId) (row : Row) :
    Frames bare (bare.insert transaction id row).2 := by
  refine ⟨bare.tables_insert transaction id row, ?_⟩
  rcases done : bare.insert transaction id row with ⟨failure | record, after⟩
  · rcases insert_error done with locks | ⟨table, -, -, -, locks⟩
    · exact locks.strengthens.consistent
    · exact locks.strengthens.consistent
  · obtain ⟨table, number, base, middle, slots, -, inserted, rfl⟩ := insert_ok done
    rcases inserted.baseIs with ⟨rfl, -⟩ | ⟨rfl, -⟩
    · exact inserted.roomy.locks.strengthens.consistent
    · exact inserted.roomy.locks.strengthens.consistent

theorem frames_delete (bare : Bare) (transaction : TransactionId) (record : Option RecordId) :
    Frames bare (bare.delete transaction record).2 := by
  refine ⟨bare.tables_delete transaction record, ?_⟩
  rcases done : bare.delete transaction record with ⟨failure | nothing, after⟩
  · exact (delete_error done).strengthens.consistent
  · obtain ⟨place, middle, slots, -, -, locks, -, -, -, rfl⟩ := delete_ok done
    exact locks.strengthens.consistent

theorem frames_complete (bare : Bare) (commits : Bool) (transaction : TransactionId) :
    Frames bare (bare.complete commits transaction) :=
  ⟨bare.tables_complete commits transaction, fun consistent =>
    consistent_complete consistent commits⟩

end Bare

theorem BareSystem.frames_perform (system : BareSystem) (operation : Operation) :
    Bare.Frames system.bare (system.perform operation).2.bare := by
  cases operation with
  | begin => exact ⟨rfl, id⟩
  | get transaction page access => exact (system.bare.getPage_locks _ _ _).frames
  | insert transaction id row => exact system.bare.frames_insert transaction id row
  | delete transaction record => exact system.bare.frames_delete transaction record
  | scan name transaction id =>
      rw [bare_scan]
      exact .refl _
  | next name =>
      obtain ⟨reader, locks⟩ := system.next_locks name
      exact locks.frames
  | rewind name =>
      rw [bare_rewind]
      exact .refl _
  | evict => exact .refl _
  | commit transaction => exact system.bare.frames_complete true transaction
  | abort transaction => exact system.bare.frames_complete false transaction
  | release transaction page => exact ⟨rfl, fun consistent => consistent.release⟩
  | discard page => exact ⟨rfl, id⟩
  | flush transaction =>
      refine ⟨?_, ?_⟩
      · simp only [perform, after, Bare.flushEach_eq]
        rfl
      · simp only [perform, after, Bare.flushEach_eq]
        exact id
  | flushAll => exact ⟨rfl, id⟩

end RecordStore
