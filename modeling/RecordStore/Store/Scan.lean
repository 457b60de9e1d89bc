import RecordStore.Page.Span
import RecordStore.Store.Basic

set_option autoImplicit false

/-! Scans. A scan visits the pages that its table had when the scan was started or rewound, in page
order and under shared locks, and yields the rows of a page in slot order as they were when the page
was loaded. After an error it yields nothing. -/

namespace RecordStore

structure Scan where
  table : Table
  transaction : TransactionId
  ahead : PageSpan
  buffered : List Row
  deriving Repr

namespace Scan

def start (table : Table) (transaction : TransactionId) (store : Store) : Except Fault Scan :=
  match table.pageCount store.directory with
  | .error fault => .error fault
  | .ok count => .ok ⟨table, transaction, .before count, []⟩

def rewind (scan : Scan) (store : Store) : Except Fault Scan :=
  start scan.table scan.transaction store

def advance (table : Table) (transaction : TransactionId) (first : Nat) :
    (length : Nat) → Store → Option (Except Failure Row) × Scan × Store
  | 0, store => (none, ⟨table, transaction, .empty, []⟩, store)
  | length + 1, store =>
      match store.getPage transaction (table.page (UInt32.ofNat first)) .readOnly with
      | (.error (.refused error), store) =>
          (some (.error (.refused error)), ⟨table, transaction, .empty, []⟩, store)
      | (.error (.broken fault), store) =>
          (some (.error (.broken fault)), ⟨table, transaction, ⟨first + 1, length⟩, []⟩, store)
      | (.ok cached, store) =>
          match cached.page.rows with
          | [] => advance table transaction (first + 1) length store
          | row :: rows =>
              (some (.ok row), ⟨table, transaction, ⟨first + 1, length⟩, rows⟩, store)

def next (scan : Scan) (store : Store) : Option (Except Failure Row) × Scan × Store :=
  match scan.buffered with
  | row :: rows => (some (.ok row), { scan with buffered := rows }, store)
  | [] => advance scan.table scan.transaction scan.ahead.first scan.ahead.length store

/-- The rows of the pages ahead, up to the first error, and the pages that are then left. -/
def drain (table : Table) (transaction : TransactionId) (first : Nat) :
    (length : Nat) → Store → List Row × Option Failure × PageSpan × Store
  | 0, store => ([], none, .empty, store)
  | length + 1, store =>
      match store.getPage transaction (table.page (UInt32.ofNat first)) .readOnly with
      | (.error (.refused error), store) => ([], some (.refused error), .empty, store)
      | (.error (.broken fault), store) => ([], some (.broken fault), ⟨first + 1, length⟩, store)
      | (.ok cached, store) =>
          let (rows, failure, ahead, store) := drain table transaction (first + 1) length store
          (cached.page.rows ++ rows, failure, ahead, store)

def rest (scan : Scan) (store : Store) : List Row × Option Failure × Scan × Store :=
  let (rows, failure, ahead, store) :=
    drain scan.table scan.transaction scan.ahead.first scan.ahead.length store
  (scan.buffered ++ rows, failure, { scan with ahead := ahead, buffered := [] }, store)

end Scan

end RecordStore
