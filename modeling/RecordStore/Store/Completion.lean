import RecordStore.Store.Change

set_option autoImplicit false

/-! Flushing, `commit` and `abort`. `commit` writes every dirty page that the transaction has
locked, in page order, and goes on after an error; `abort` drops these pages. Each page is released
right after it is settled, and the remaining locks at the end. -/

namespace RecordStore

namespace Store

/-- A dirty page is written to its table and is clean afterwards, with the written bytes as its
before-image. -/
def flush (store : Store) (page : PageId) (cached : PageCopy) : Except StorageError Store :=
  if cached.isClean then .ok store
  else
    match store.table? cached.page.id.table with
    | .error error => .error error
    | .ok table =>
        match table.writePage store.directory cached.page with
        | .error error => .error error
        | .ok directory =>
            .ok ({ store with directory := directory }.install page
              (cached.withPage (cached.page.marked none).remembered))

def flushEach (store : Store) : List PageId → Except StorageError Unit × Store
  | [] => (.ok (), store)
  | page :: pages =>
      match store.cache[page]? with
      | none => flushEach store pages
      | some cached =>
          match store.flush page cached with
          | .error error => (.error error, store)
          | .ok store => flushEach store pages

def flushPages (store : Store) (transaction : TransactionId) : Except StorageError Unit × Store :=
  store.flushEach (store.locks.table.pagesOf transaction)

/-- Afterwards an abort no longer takes back what was not committed. -/
def flushAll (store : Store) : Except StorageError Unit × Store :=
  store.flushEach store.cache.keys

/-- Writes a page at a commit; a page that cannot be written is dropped. -/
def commitPage (store : Store) (page : PageId) (cached : PageCopy) :
    Option StorageError × Store :=
  match store.flush page cached with
  | .ok store => (none, store)
  | .error error => (some error, store.discard page)

def settlePage (store : Store) (commits : Bool) (page : PageId) : Option StorageError × Store :=
  match store.cache[page]? with
  | none => (none, store)
  | some cached =>
      if cached.isClean then (none, store)
      else if commits then store.commitPage page cached
      else (none, store.discard page)

/-- Settles and releases these pages in turn; the first error is returned. -/
def settlePages (store : Store) (commits : Bool) (transaction : TransactionId) :
    List PageId → Option StorageError × Store
  | [] => (none, store)
  | page :: pages =>
      let (error, store) := store.settlePage commits page
      let (later, store) :=
        settlePages (store.releasePage transaction page) commits transaction pages
      (error.or later, store)

def complete (store : Store) (commits : Bool) (transaction : TransactionId) :
    Except StorageError Unit × Store :=
  let (error, store) :=
    store.settlePages commits transaction (store.locks.table.pagesOf transaction)
  let store := { store with locks := store.locks.releaseAll transaction }
  match error with
  | some error => (.error error, store)
  | none => (.ok (), store)

def commit (store : Store) (transaction : TransactionId) : Except StorageError Unit × Store :=
  store.complete true transaction

def abort (store : Store) (transaction : TransactionId) : Except StorageError Unit × Store :=
  store.complete false transaction

end Store

/-- A transaction handle; one that is dropped before it is finished is aborted. -/
structure Transaction where
  id : TransactionId
  finished : Bool
  deriving DecidableEq, Inhabited, Repr

namespace Transaction

def begin (store : Store) : Transaction × Store :=
  let (id, store) := store.begin
  (⟨id, false⟩, store)

def commit (transaction : Transaction) (store : Store) : Except StorageError Unit × Store :=
  store.commit transaction.id

def abort (transaction : Transaction) (store : Store) : Except StorageError Unit × Store :=
  store.abort transaction.id

def drop (transaction : Transaction) (store : Store) : Store :=
  if transaction.finished then store else (transaction.abort store).2

def describe (transaction : Transaction) : String :=
  let finished := if transaction.finished then "true" else "false"
  "Transaction \x7b id: TransactionId(" ++ toString transaction.id.value.toNat ++
    "), finished: " ++ finished ++ " \x7d"

end Transaction

end RecordStore
