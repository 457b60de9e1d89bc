import RecordStore.Page.Span
import RecordStore.Store.Basic

set_option autoImplicit false

/-! Inserting and deleting rows. A row is put into the first free slot of its table, page by page;
when every page is full a page of zeros is appended and tried next. The changed page is marked with
its transaction and installed in the cache. -/

namespace RecordStore

structure Placement where
  record : RecordId
  page : PageId
  cached : PageCopy
  deriving Repr

namespace Store

def placeOn (store : Store) (page : PageId) (cached : PageCopy) (row : Row) :
    Except StorageError (Option Placement) × Store :=
  if cached.page.freeCount = 0 then (.ok none, store)
  else
    match cached.page.insert row with
    | .error error => (.error error, store)
    | .ok (record, content) =>
        let changed := cached.withPage content
        (.ok (some ⟨record, page, changed⟩), store.update page changed)

def placeAt (store : Store) (transaction : TransactionId) (page : PageId) (row : Row) :
    Except Failure (Option Placement) × Store :=
  match store.getPage transaction page .readWrite with
  | (.error failure, store) => (.error failure, store)
  | (.ok cached, store) =>
      match store.placeOn page cached row with
      | (.error error, store) => (.error (.refused error), store)
      | (.ok placement, store) => (.ok placement, store)

def placeAmong (store : Store) (table : Table) (transaction : TransactionId) (row : Row)
    (first : Nat) : (length : Nat) → Except Failure (Option Placement) × Store
  | 0 => (.ok none, store)
  | length + 1 =>
      match store.placeAt transaction (table.page (UInt32.ofNat first)) row with
      | (.error failure, store) => (.error failure, store)
      | (.ok (some placement), store) => (.ok (some placement), store)
      | (.ok none, store) => placeAmong store table transaction row (first + 1) length

/-- Appends pages until one takes the row. A page of zeros takes it at once, so what is full is a
page that was cached before its number was appended, or one that another page size finds in bytes
that were there already. -/
def placeAppended (table : Table) (transaction : TransactionId) (row : Row) :
    (tries : Nat) → Store → Except Failure Placement × Store
  | 0, store => (.error (.broken .endlessAppend), store)
  | tries + 1, store =>
      match table.pages.allocate store.directory with
      | .error failure => (.error failure, store)
      | .ok (number, directory) =>
          match { store with directory := directory }.placeAt transaction (table.page number)
              row with
          | (.error failure, store) => (.error failure, store)
          | (.ok (some placement), store) => (.ok placement, store)
          | (.ok none, store) => placeAppended table transaction row tries store

/-- Finds a place for the row in the table and puts it there, without marking the page. -/
def place (store : Store) (table : Table) (transaction : TransactionId) (row : Row) :
    Except Failure Placement × Store :=
  match table.slotsPerPage with
  | .error fault => (.error (.broken fault), store)
  | .ok slots =>
      if slots = 0 then
        (.error (.refused (.rowTooWide table.schema.width table.pageSize)), store)
      else if !row.schema.agrees table.schema then
        (.error (.refused .schemaMismatch), store)
      else
        match table.pageCount store.directory with
        | .error fault => (.error (.broken fault), store)
        | .ok count =>
            match store.placeAmong table transaction row 0 count.toNat with
            | (.error failure, store) => (.error failure, store)
            | (.ok (some placement), store) => (.ok placement, store)
            | (.ok none, store) =>
                placeAppended table transaction row
                  (store.cachedCount + table.pages.size store.directory + 1) store

def remove (store : Store) (table : Table) (transaction : TransactionId)
    (record : Option RecordId) : Except Failure (PageId × PageCopy) × Store :=
  match record with
  | none => (.error (.refused .unplacedRow), store)
  | some record =>
      match table.checkOwner record.page with
      | .error error => (.error (.refused error), store)
      | .ok () =>
          match store.getPage transaction record.page .readWrite with
          | (.error failure, store) => (.error failure, store)
          | (.ok cached, store) =>
              match cached.page.delete record with
              | .error error => (.error (.refused error), store)
              | .ok content =>
                  let changed := cached.withPage content
                  (.ok (record.page, changed), store.update record.page changed)

/-- Marks a changed page and sees to it that the cache holds this copy of it. -/
def installDirty (store : Store) (transaction : TransactionId) (page : PageId)
    (cached : PageCopy) : Except StorageError Unit × Store :=
  let marked := cached.withPage (cached.page.marked (some transaction))
  let store := store.update page marked
  if store.isCached page then (.ok (), store.install page marked)
  else
    match store.makeRoom with
    | (.error error, store) => (.error error, store)
    | (.ok (), store) => (.ok (), store.install page marked)

def insert (store : Store) (transaction : TransactionId) (table : TableId) (row : Row) :
    Except Failure RecordId × Row × Store :=
  match store.table? table with
  | .error error => (.error (.refused error), row, store)
  | .ok table =>
      match store.place table transaction row with
      | (.error failure, store) => (.error failure, row, store)
      | (.ok placement, store) =>
          let row := row.placed (some placement.record)
          match store.installDirty transaction placement.page placement.cached with
          | (.error error, store) => (.error (.refused error), row, store)
          | (.ok (), store) => (.ok placement.record, row, store)

def delete (store : Store) (transaction : TransactionId) (record : Option RecordId) :
    Except Failure Unit × Store :=
  match record with
  | none => (.error (.refused .unplacedRow), store)
  | some record =>
      match store.table? record.page.table with
      | .error error => (.error (.refused error), store)
      | .ok table =>
          match store.remove table transaction (some record) with
          | (.error failure, store) => (.error failure, store)
          | (.ok (page, cached), store) =>
              match store.installDirty transaction page cached with
              | (.error error, store) => (.error (.refused error), store)
              | (.ok (), store) => (.ok (), store)

end Store

end RecordStore
