import RecordStore.Lock.Service
import RecordStore.Table

set_option autoImplicit false

/-! The store shared by all transactions: the directory, the registered tables, the locks, and a
cache of at most `capacity` pages. A page is returned only once its lock is granted. A page that is
not cached is read from its table, after evicting a clean page if the cache is full. Dirty pages are
never evicted: `commit` writes them and `abort` drops them. -/

namespace RecordStore

/-- The serial tells a copy from other copies of the same page, and a latched copy cannot be
evicted. -/
structure PageCopy where
  serial : Nat
  page : Page
  latched : Bool
  deriving Repr

namespace PageCopy

def same (left right : PageCopy) : Bool := left.serial == right.serial

def isClean (cached : PageCopy) : Bool := !cached.page.isDirty

def isEvictable (cached : PageCopy) : Bool := !cached.latched && cached.isClean

def withPage (cached : PageCopy) (page : Page) : PageCopy := { cached with page := page }

end PageCopy

/-- Which of several clean pages is evicted, by its position among them. It may depend on the pages
read so far and on the candidates. -/
abbrev Preference := Nat → List PageId → Nat

structure Store where
  directory : Directory
  tables : Std.ExtTreeMap TableId Table
  cache : Std.ExtTreeMap PageId PageCopy
  locks : LockService
  capacity : Nat
  preference : Preference
  nextTransaction : TransactionId
  nextSerial : Nat

namespace Store

def start (directory : Directory) (capacity : Nat) (range : WaitRange) : Store :=
  ⟨directory, ∅, ∅, LockService.start range, capacity, fun _ _ => 0, TransactionId.first, 0⟩

/-- The most pages for which a cache can be laid out, eight entries to seven pages. -/
def largestLayout : Nat := 288230376151711744

def open? (directory : Directory) (capacity : Nat) (range : WaitRange) : Except Fault Store :=
  if largestLayout < capacity * 8 / 7 then .error .cacheOverflow
  else .ok (start directory capacity range)

def begin (store : Store) : TransactionId × Store :=
  (store.nextTransaction, { store with nextTransaction := store.nextTransaction.next })

/-- Makes the table known by its identifier, in place of one that was known by it before. -/
def register (store : Store) (table : Table) : Store :=
  { store with tables := store.tables.insert table.id table }

def table? (store : Store) (table : TableId) : Except StorageError Table :=
  match store.tables[table]? with
  | some table => .ok table
  | none => .error (.unknownTable table)

def cachedCount (store : Store) : Nat := store.cache.size

def isCached (store : Store) (page : PageId) : Bool := store.cache.contains page

def isFull (store : Store) : Bool := store.capacity ≤ store.cachedCount

def victims (store : Store) : List PageId :=
  (store.cache.toList.filter fun (_, cached) => cached.isEvictable).map Prod.fst

def discard (store : Store) (page : PageId) : Store :=
  { store with cache := store.cache.erase page }

def victim? (store : Store) : Option PageId :=
  match store.victims with
  | [] => none
  | first :: others =>
      some ((first :: others).getD (store.preference store.nextSerial (first :: others)) first)

def evict (store : Store) : Except StorageError Unit × Store :=
  match store.victim? with
  | some page => (.ok (), store.discard page)
  | none => (.error (.cacheFull store.capacity), store)

def makeRoom (store : Store) : Except StorageError Unit × Store :=
  if store.isFull then store.evict else (.ok (), store)

def install (store : Store) (page : PageId) (cached : PageCopy) : Store :=
  { store with cache := store.cache.insert page cached }

def load (store : Store) (page : PageId) : Except Failure PageCopy × Store :=
  match store.table? page.table with
  | .error error => (.error (.refused error), store)
  | .ok table =>
      match store.makeRoom with
      | (.error error, store) => (.error (.refused error), store)
      | (.ok (), store) =>
          match table.readPage store.directory page with
          | .error failure => (.error failure, store)
          | .ok content =>
              let cached : PageCopy := ⟨store.nextSerial, content, false⟩
              (.ok cached,
                { store with nextSerial := store.nextSerial + 1 }.install page cached)

/-- The lock of the page is held already. -/
def fetch (store : Store) (page : PageId) : Except Failure PageCopy × Store :=
  match store.cache[page]? with
  | some cached => (.ok cached, store)
  | none => store.load page

/-- The bound drawn is the least one, and no other call is made during the wait. -/
def acquire (store : Store) (transaction : TransactionId) (page : PageId) (mode : LockMode) :
    Except Failure Unit × Store :=
  match store.locks.acquire transaction page mode 0 with
  | (.ok (), locks) => (.ok (), { store with locks := locks })
  | (.error failure, locks) => (.error failure.failure, { store with locks := locks })

def getPage (store : Store) (transaction : TransactionId) (page : PageId) (access : Access) :
    Except Failure PageCopy × Store :=
  match store.acquire transaction page access.mode with
  | (.error failure, store) => (.error failure, store)
  | (.ok (), store) => store.fetch page

def releasePage (store : Store) (transaction : TransactionId) (page : PageId) : Store :=
  { store with locks := store.locks.release transaction page }

def holdsLock (store : Store) (transaction : TransactionId) (page : PageId) : Bool :=
  store.locks.table.holds transaction page

/-- Puts a changed copy back to where it was fetched from, if that copy is cached still. -/
def update (store : Store) (page : PageId) (changed : PageCopy) : Store :=
  match store.cache[page]? with
  | some cached => if cached.same changed then store.install page changed else store
  | none => store

def latest (store : Store) (copy : PageCopy) : PageCopy :=
  match store.cache[copy.page.id]? with
  | some cached => if cached.same copy then cached else copy
  | none => copy

def build (store : Store) (page : Page) : PageCopy × Store :=
  (⟨store.nextSerial, page, false⟩, { store with nextSerial := store.nextSerial + 1 })

def describe (store : Store) : String :=
  "BufferPool \x7b capacity: " ++ toString store.capacity ++ ", cached: " ++
    toString store.cachedCount ++ ", tables: " ++ toString store.tables.size ++ " \x7d"

end Store

end RecordStore
