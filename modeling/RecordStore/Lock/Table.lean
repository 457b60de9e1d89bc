import RecordStore.Identifier

set_option autoImplicit false

/-! The lock table. A page has at most one record, shared or exclusive; `held` is the index of pages
by transaction; `queues` has for each page with waiters their channel and number. A record is
removed with its last holder, and removing a holder signals the channel of the page. -/

namespace RecordStore

inductive LockMode where
  | shared
  | exclusive
  deriving DecidableEq, Inhabited, Repr

def Access.mode : Access → LockMode
  | .readOnly => .shared
  | .readWrite => .exclusive

abbrev TransactionSet := Std.ExtTreeSet TransactionId

abbrev PageSet := Std.ExtTreeSet PageId

inductive LockRecord where
  | shared (holders : TransactionSet)
  | exclusive (holder : TransactionId)

namespace LockRecord

def mode : LockRecord → LockMode
  | .shared _ => .shared
  | .exclusive _ => .exclusive

def holds (record : LockRecord) (transaction : TransactionId) : Bool :=
  match record with
  | .shared holders => holders.contains transaction
  | .exclusive holder => holder == transaction

/-- In ascending order. -/
def holders : LockRecord → List TransactionId
  | .shared holders => holders.toList
  | .exclusive holder => [holder]

def first (transaction : TransactionId) : LockMode → LockRecord
  | .shared => .shared ((∅ : TransactionSet).insert transaction)
  | .exclusive => .exclusive transaction

/-- The record once a request is granted, if it can be: a holder may ask again, readers may join
readers, and a reader that is alone may become the writer. -/
def grant (record : LockRecord) (transaction : TransactionId) (mode : LockMode) :
    Option LockRecord :=
  match record, mode with
  | .exclusive holder, _ => if holder = transaction then some (.exclusive holder) else none
  | .shared holders, .shared => some (.shared (holders.insert transaction))
  | .shared holders, .exclusive =>
      if holders.size = 1 ∧ holders.contains transaction then some (.exclusive transaction)
      else none

def without (record : LockRecord) (transaction : TransactionId) : Option LockRecord :=
  match record with
  | .shared holders =>
      let left := holders.erase transaction
      if left.isEmpty then none else some (.shared left)
  | .exclusive holder => if holder = transaction then none else some (.exclusive holder)

end LockRecord

abbrev Channel := Nat

structure WaitQueue where
  channel : Channel
  count : Nat
  deriving DecidableEq, Inhabited, Repr

structure LockTable where
  records : Std.ExtTreeMap PageId LockRecord
  held : Std.ExtTreeMap TransactionId PageSet
  queues : Std.ExtTreeMap PageId WaitQueue
  nextChannel : Channel

namespace LockTable

def empty : LockTable := ⟨∅, ∅, ∅, 0⟩

def heldPages (table : LockTable) (transaction : TransactionId) : PageSet :=
  table.held.getD transaction ∅

def pagesOf (table : LockTable) (transaction : TransactionId) : List PageId :=
  (table.heldPages transaction).toList

def mode? (table : LockTable) (page : PageId) : Option LockMode :=
  table.records[page]?.map LockRecord.mode

def holders (table : LockTable) (page : PageId) : List TransactionId :=
  match table.records[page]? with
  | some record => record.holders
  | none => []

def holds (table : LockTable) (transaction : TransactionId) (page : PageId) : Bool :=
  match table.records[page]? with
  | some record => record.holds transaction
  | none => false

def grantedRecord? (table : LockTable) (transaction : TransactionId) (page : PageId)
    (mode : LockMode) : Option LockRecord :=
  match table.records[page]? with
  | some record => record.grant transaction mode
  | none => some (LockRecord.first transaction mode)

def grantable (table : LockTable) (transaction : TransactionId) (page : PageId)
    (mode : LockMode) : Bool :=
  (table.grantedRecord? transaction page mode).isSome

def grant? (table : LockTable) (transaction : TransactionId) (page : PageId) (mode : LockMode) :
    Option LockTable :=
  (table.grantedRecord? transaction page mode).map fun record =>
    { table with
      records := table.records.insert page record
      held := table.held.insert transaction ((table.heldPages transaction).insert page) }

/-- Removes a transaction from the record of a page, and returns the channel to signal. -/
def dropHolder (table : LockTable) (transaction : TransactionId) (page : PageId) :
    Option Channel × LockTable :=
  match table.records[page]? with
  | none => (none, table)
  | some record =>
      if record.holds transaction then
        ((table.queues[page]?).map WaitQueue.channel,
          match record.without transaction with
          | some left => { table with records := table.records.insert page left }
          | none => { table with records := table.records.erase page })
      else (none, table)

def unindex (table : LockTable) (transaction : TransactionId) (page : PageId) : LockTable :=
  match table.held[transaction]? with
  | none => table
  | some pages =>
      let left := pages.erase page
      if left.isEmpty then { table with held := table.held.erase transaction }
      else { table with held := table.held.insert transaction left }

def release (table : LockTable) (transaction : TransactionId) (page : PageId) :
    Option Channel × LockTable :=
  (table.unindex transaction page).dropHolder transaction page

def dropAll (table : LockTable) (transaction : TransactionId) :
    List PageId → List Channel × LockTable
  | [] => ([], table)
  | page :: pages =>
      let (signal, table) := table.dropHolder transaction page
      let (signals, table) := dropAll table transaction pages
      (signal.toList ++ signals, table)

/-- Removes the index entry first, and then the transaction from each record listed there. -/
def releaseAll (table : LockTable) (transaction : TransactionId) : List Channel × LockTable :=
  { table with held := table.held.erase transaction }.dropAll transaction
    (table.pagesOf transaction)

def enqueue (table : LockTable) (page : PageId) : Channel × LockTable :=
  match table.queues[page]? with
  | some queue =>
      (queue.channel,
        { table with queues := table.queues.insert page { queue with count := queue.count + 1 } })
  | none =>
      (table.nextChannel,
        { table with
          queues := table.queues.insert page ⟨table.nextChannel, 1⟩
          nextChannel := table.nextChannel + 1 })

def dequeue (table : LockTable) (page : PageId) : LockTable :=
  match table.queues[page]? with
  | none => table
  | some queue =>
      if queue.count ≤ 1 then { table with queues := table.queues.erase page }
      else
        { table with queues := table.queues.insert page { queue with count := queue.count - 1 } }

end LockTable

end RecordStore
