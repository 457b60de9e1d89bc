import RecordStore.Proofs.Command.Workers
import RecordStore.Proofs.Lock.Releasing

set_option autoImplicit false

/-! Retries of a worker while another transaction holds page 0 exclusively. Each retry is a `begin`,
an insert that times out and an `abort`, and changes only counters. One of them is
`nextTransaction`, which has its former value again after `wordLimit` retries. -/

namespace RecordStore

namespace LockService

/-- The service after `count` requests have timed out one after another, with none parked in
between. -/
def timedOut (service : LockService) (bound count : Nat) : LockService :=
  { service with
    table := { service.table with nextChannel := service.table.nextChannel + count }
    nextTicket := service.nextTicket + count
    clock := service.clock + count * bound }

variable {service : LockService} {transaction : TransactionId} {page : PageId} {mode : LockMode}
  {bound sample : Nat}

end LockService

namespace Store

variable {store : Store} {table : Table} {writer : TransactionId} {row : Row}

/-- The store after `count` transactions have begun, timed out and been aborted. -/
def retried (store : Store) (bound count : Nat) : Store :=
  { store with
    locks := store.locks.timedOut bound count
    nextTransaction := store.nextTransaction.later count }

end Store

namespace Stress.Bench

variable {bench : Bench} {index bound : Nat} {worker : Worker} {owner : TransactionId}

theorem run_append (bench : Bench) (schedule later : List Nat) :
    bench.run (schedule ++ later) = (bench.run schedule).run later :=
  List.foldl_append

/-- The worker is `idle` with rows left, and the first page is locked exclusively by `owner` with no
request parked. -/
structure Blocked (bench : Bench) (index : Nat) (worker : Worker) (owner : TransactionId)
    (bound : Nat) : Prop where
  here : bench.workers[index]? = some worker
  idle : worker.phase = .idle
  unfinished : worker.committed < worker.inserts
  made : ∃ row, (worker.number.mapError Failure.broken >>= fun number =>
    (Row.make bench.table.schema (List.replicate bench.table.schema.count
      (.int number))).mapError Failure.refused) = .ok row ∧
    row.schema.agrees bench.table.schema = true
  known : bench.store.tables[bench.table.id]? = some bench.table
  counted : ∃ slots, bench.table.slotsPerPage = .ok slots ∧ slots ≠ 0
  pages : ∃ number, bench.table.pages.count bench.store.directory = .ok number ∧ number ≠ 0
  taken : bench.store.locks.table.records[bench.table.page 0]? = some (.exclusive owner)
  unlisted : ∀ other, other ≠ owner → bench.store.locks.table.held[other]? = none
  unqueued : bench.store.locks.table.queues[bench.table.page 0]? = none
  nobody : bench.store.locks.parked = []
  drawn : bench.store.locks.range.draw 0 = .ok bound

theorem Blocked.retried (blocked : bench.Blocked index worker owner bound) (count : Nat) :
    ({ bench with store := bench.store.retried bound count } : Bench).Blocked index worker owner
      bound :=
  ⟨blocked.here, blocked.idle, blocked.unfinished, blocked.made, blocked.known, blocked.counted,
    blocked.pages, blocked.taken, blocked.unlisted, blocked.unqueued, blocked.nobody, blocked.drawn⟩

end Stress.Bench

end RecordStore
