import RecordStore.Lock.Thread
import RecordStore.Store.Fetch
import RecordStore.Store.Scan

set_option autoImplicit false

/-! Sessions, in which tables, page copies, rows, transactions and threads have names; a reused name
denotes the new object. New tables have the page size of the session. -/

namespace RecordStore

structure Session where
  store : Store
  pageSize : Nat
  tables : Std.ExtTreeMap String Table
  paths : Std.ExtTreeMap TableId String
  copies : Std.ExtTreeMap String PageCopy
  rows : Std.ExtTreeMap String Row
  transactions : Std.ExtTreeMap String Transaction
  transactionIds : Std.ExtTreeMap String TransactionId
  fetches : Threads Fetched

structure FileView where
  table : Table
  count : UInt32
  cached : List UInt32
  locked : List UInt32
  deriving Repr

def Store.view? (store : Store) (table : Table) : Option FileView :=
  match table.pageCount store.directory with
  | .error _ => none
  | .ok count =>
      let numbers := (List.range (count.toNat + 1)).map UInt32.ofNat
      some ⟨table, count, numbers.filter fun number => store.isCached (table.page number),
        numbers.filter fun number => (store.locks.table.mode? (table.page number)).isSome⟩

namespace Session

def start (store : Store) (pageSize : Nat) : Session :=
  ⟨store, pageSize, ∅, ∅, ∅, ∅, ∅, ∅, ∅⟩

def follow (session : Session) : Session :=
  { session with copies := session.copies.map fun _ copy => session.store.latest copy }

def change (session : Session) (changed : PageCopy) : Session :=
  { session with
    store := session.store.update changed.page.id changed
    copies := session.copies.map fun _ copy => if copy.same changed then changed else copy }

def latch (session : Session) (copy : PageCopy) (latched : Bool) : Session :=
  let known := (session.copies.values.find? copy.same).getD copy
  session.change { session.store.latest known with latched := latched }

def settle (session : Session) : Session :=
  let session := session.follow
  let (outcomes, store) := session.store.resume
  { session with
    store := store
    fetches := session.fetches.resume fun request => outcomes.lookup request.ticket }.follow

def addTable (session : Session) (name : String) (table : Table) (registered : Bool) : Session :=
  { session with
    tables := session.tables.insert name table
    paths := session.paths.insert table.id table.path
    store := if registered then session.store.register table else session.store }

def createTable (session : Session) (name path : String) (schema : Schema) (registered : Bool) :
    Except StorageError Table × Session :=
  match Table.create session.store.directory session.pageSize path schema with
  | (.error error, directory) =>
      (.error error, { session with store := { session.store with directory := directory } })
  | (.ok table, directory) =>
      (.ok table,
        { session with store := { session.store with directory := directory } }.addTable name
          table registered)

def openTable (session : Session) (name path : String) (schema : Schema) (registered : Bool) :
    Except StorageError Table × Session :=
  match Table.open? session.store.directory session.pageSize path schema with
  | .error error => (.error error, session)
  | .ok table => (.ok table, session.addTable name table registered)

def distinctTables (session : Session) : List Table :=
  session.tables.values.foldl
    (fun known table =>
      if known.any fun other => other.id == table.id then known else known ++ [table])
    []

def views (session : Session) : List FileView :=
  session.distinctTables.filterMap session.store.view?

def lockedPages (session : Session) (transaction : TransactionId) : List PageId :=
  let pages := session.store.locks.table.pagesOf transaction
  let path? (page : PageId) : Option String := session.paths[page.table]?
  let known := pages.filter fun page => (path? page).isSome
  let unknown := pages.filter fun page => (path? page).isNone
  let before (left right : PageId) : Bool :=
    compare (path? left) (path? right) == .lt ||
      (path? left == path? right && left.number ≤ right.number)
  known.mergeSort before ++ unknown

def begin (session : Session) (name : String) : TransactionId × Session :=
  let (transaction, store) := Transaction.begin session.store
  let store :=
    match session.transactions[name]? with
    | some replaced => replaced.drop store
    | none => store
  (transaction.id,
    { session with
      store := store
      transactions := session.transactions.insert name transaction
      transactionIds := session.transactionIds.insert name transaction.id })

def forget (session : Session) (name : String) : Session :=
  { session with transactions := session.transactions.erase name }

def spawn (session : Session) (name : String) (transaction : TransactionId) (page : PageId)
    (mode : LockMode) : Session :=
  let (beginning, store) := session.store.beginGet transaction page mode
  let thread : Thread Fetched :=
    match beginning with
    | .finished outcome => .finished outcome
    | .waiting request => .waiting request
  { session with store := store, fetches := session.fetches.insert name thread }.settle

def join (session : Session) (name : String) : Option Fetched × Session :=
  let session :=
    match session.fetches.request? name with
    | some request =>
        { session with
          store := { session.store with locks := session.store.locks.await request } }.settle
    | none => session
  (session.fetches.outcome? name, { session with fetches := session.fetches.erase name })

structure Filling where
  done : Nat
  last : Option RecordId
  stop : Option Failure
  deriving DecidableEq, Inhabited, Repr

def fill (store : Store) (transaction : TransactionId) (table : Table) :
    (count : Nat) → (number : Int) → Filling → Filling × Store
  | 0, _, filling => (filling, store)
  | count + 1, number, filling =>
      match Row.make table.schema
          (List.replicate table.schema.count (.int (Int32.ofInt number))) with
      | .error error => ({ filling with stop := some (.refused error) }, store)
      | .ok row =>
          match store.insert transaction table.id row with
          | (.error failure, _, store) => ({ filling with stop := some failure }, store)
          | (.ok record, _, store) =>
              fill store transaction table count (number + 1)
                ⟨filling.done + 1, some record, none⟩

end Session

end RecordStore
