import RecordStore.Proofs.Store.Ending
import RecordStore.Proofs.Store.Finish

set_option autoImplicit false

/-! The elementary steps of all operations: visits, changes of a page held exclusively, flushing,
dropping pages, changing locks and `begin`. A property that each of them keeps is kept by every
operation. -/

namespace RecordStore

namespace Store

inductive Deeds : Store → Store → Prop where
  | still (store : Store) : Deeds store store
  | andThen {first second third : Store} : Deeds first second → Deeds second third →
      Deeds first third
  | visit {store after : Store} {transaction : TransactionId} :
      Visits transaction store after → Deeds store after
  | change {store : Store} {transaction : TransactionId} {page : PageId} {cached : PageCopy}
      {content : Page} : store.Writable transaction page cached → cached.page.Revises content →
      Deeds store (store.install page (markedCopy cached content transaction))
  | write {store after : Store} {page : PageId} {cached : PageCopy} :
      store.cache[page]? = some cached → store.flush page cached = .ok after → Deeds store after
  | drop (store : Store) (page : PageId) : Deeds store (store.discard page)
  | relock (store : Store) (locks : LockService) : Deeds store { store with locks := locks }
  | begin (store : Store) : Deeds store store.begin.2

variable {store after : Store} {transaction : TransactionId} {page : PageId} {commits : Bool}

/-! ### Every operation -/

theorem deeds_insert (store : Store) (transaction : TransactionId) (id : TableId) (row : Row) :
    Deeds store (store.insert transaction id row).2.2 := by
  have inserts := store.inserts_insert transaction id row
  rcases done : store.insert transaction id row with ⟨outcome, back, after⟩
  rw [done] at inserts
  cases inserts with
  | refused failure visits => exact .visit visits
  | placed visits writable inserted =>
      exact .andThen (.visit visits) (.change writable (.inserted inserted))

theorem deeds_delete (store : Store) (transaction : TransactionId) (record : Option RecordId) :
    Deeds store (store.delete transaction record).2 := by
  have deletes := store.deletes_delete transaction record
  rcases done : store.delete transaction record with ⟨outcome, after⟩
  rw [done] at deletes
  cases deletes with
  | refused failure visits => exact .visit visits
  | freed visits writable deleted =>
      exact .andThen (.visit visits) (.change writable (.deleted deleted))

theorem deeds_flushEach (store : Store) (pages : List PageId) :
    Deeds store (store.flushEach pages).2 := by
  induction pages generalizing store with
  | nil => exact .still store
  | cons page pages ih =>
      unfold flushEach
      cases present : store.cache[page]? with
      | none => exact ih store
      | some cached =>
          simp only
          cases flushed : store.flush page cached with
          | error error => exact .still store
          | ok after => exact .andThen (.write present flushed) (ih after)

theorem deeds_settlePage (store : Store) (commits : Bool) (page : PageId) :
    Deeds store (store.settlePage commits page).2 := by
  unfold settlePage
  cases present : store.cache[page]? with
  | none => exact .still store
  | some cached =>
      simp only
      split
      · exact .still store
      · split
        · unfold commitPage
          cases flushed : store.flush page cached with
          | error error => exact .drop store page
          | ok after => exact .write present flushed
        · exact .drop store page

theorem deeds_settlePages (store : Store) (commits : Bool) (transaction : TransactionId)
    (pages : List PageId) : Deeds store (store.settlePages commits transaction pages).2 := by
  induction pages generalizing store with
  | nil => exact .still store
  | cons page pages ih =>
      rw [settlePages_cons]
      exact .andThen (.andThen (store.deeds_settlePage commits page) (.relock _ _)) (ih _)

theorem deeds_complete (store : Store) (commits : Bool) (transaction : TransactionId) :
    Deeds store (store.complete commits transaction).2 := by
  rw [complete_eq]
  exact .andThen (store.deeds_settlePages commits transaction _) (.relock _ _)

/-! ### Tables and files -/

theorem Deeds.tables_eq (deeds : Deeds store after) : after.tables = store.tables := by
  induction deeds with
  | still store => rfl
  | andThen earlier later first second => exact second.trans first
  | visit visits => exact visits.tables_eq
  | change writable revises => rfl
  | write present flushed => exact tables_flush flushed
  | drop store page => rfl
  | relock store locks => rfl
  | begin store => rfl

def Shorter (before after : Store) : Prop :=
  ∀ file, (before.directory.content file).length ≤ (after.directory.content file).length

theorem Visits.shorter (visits : Visits transaction store after) : Shorter store after := by
  induction visits with
  | still store => exact fun file => Nat.le_refl _
  | andThen earlier later first second => exact fun file => Nat.le_trans (first file) (second file)
  | lock stronger => exact fun file => Nat.le_refl _
  | append known allocated =>
      exact PageFile.length_le_write (PageFile.write_of_allocate allocated).2.2
  | evict store =>
      intro file
      exact Nat.le_of_eq (by rw [store.files_evict.directoryIs])
  | @read store roomy page table content absent known made read =>
      have files := store.files_makeRoom
      rw [made] at files
      intro file
      change _ ≤ (roomy.directory.content file).length
      exact Nat.le_of_eq (by rw [files.directoryIs])

theorem shorter_flush {cached : PageCopy} (flushed : store.flush page cached = .ok after) :
    Shorter store after := by
  rcases flush_ok flushed with ⟨-, rfl⟩ | ⟨-, table, directory, -, -, written, rfl⟩
  · exact fun file => Nat.le_refl _
  · exact PageFile.length_le_write written

theorem Deeds.shorter (deeds : Deeds store after) : Shorter store after := by
  induction deeds with
  | still store => exact fun file => Nat.le_refl _
  | andThen earlier later first second => exact fun file => Nat.le_trans (first file) (second file)
  | visit visits => exact visits.shorter
  | change writable revises => exact fun file => Nat.le_refl _
  | write present flushed => exact shorter_flush flushed
  | drop store page => exact fun file => Nat.le_refl _
  | relock store locks => exact fun file => Nat.le_refl _
  | begin store => exact fun file => Nat.le_refl _

end Store

theorem System.deeds_perform (system : System) (operation : Operation) :
    Store.Deeds system.store (system.perform operation).2.store := by
  cases operation with
  | begin => exact .begin system.store
  | get transaction page access =>
      exact .visit (system.store.visits_getPage transaction page access)
  | insert transaction table row => exact system.store.deeds_insert transaction table row
  | delete transaction record => exact system.store.deeds_delete transaction record
  | scan name transaction table =>
      rw [system.store_scan]
      exact .still system.store
  | next name =>
      simp only [perform]
      cases system.scans name with
      | none => exact .still system.store
      | some scan => exact .visit (Store.visits_next scan system.store)
  | rewind name =>
      rw [system.store_rewind]
      exact .still system.store
  | evict => exact .visit (Store.Visits.evict system.store : Store.Visits TransactionId.first _ _)
  | commit transaction => exact system.store.deeds_complete true transaction
  | abort transaction => exact system.store.deeds_complete false transaction
  | release transaction page => exact .relock system.store _
  | discard page => exact .drop system.store page
  | flush transaction => exact system.store.deeds_flushEach _
  | flushAll => exact system.store.deeds_flushEach _

end RecordStore
