import RecordStore.Duration
import RecordStore.Lock.Table

set_option autoImplicit false

/-! The lock service: granting, waiting and timing out. A request that cannot be granted is parked
with a bound drawn for it. It is retried when its channel is signalled and once more at its
deadline, when it fails. Deadlocks are broken by these timeouts alone. The clock counts nanoseconds
and advances only while a request waits. -/

namespace RecordStore

abbrev Ticket := Nat

structure LockRequest where
  ticket : Ticket
  transaction : TransactionId
  page : PageId
  mode : LockMode
  channel : Channel
  bound : Nat
  deadline : Nat
  signalled : Bool
  deriving DecidableEq, Inhabited, Repr

structure LockTimeout where
  transaction : TransactionId
  page : PageId
  waited : Nat
  deriving DecidableEq, Inhabited, Repr

def LockTimeout.error (timeout : LockTimeout) : StorageError :=
  .lockTimeout timeout.transaction timeout.page

inductive LockAnswer where
  | granted
  | parked (request : LockRequest)
  deriving DecidableEq, Inhabited, Repr

inductive LockFailure where
  | timeout (expired : LockTimeout)
  | broken (fault : Fault)
  deriving DecidableEq, Inhabited, Repr

def LockFailure.failure : LockFailure → Failure
  | .timeout expired => .refused expired.error
  | .broken fault => .broken fault

/-- Parked requests stand in the order of their tickets. -/
structure LockService where
  range : WaitRange
  table : LockTable
  parked : List LockRequest
  nextTicket : Ticket
  clock : Nat

namespace LockService

def start (range : WaitRange) : LockService := ⟨range, LockTable.empty, [], 0, 0⟩

def signal (service : LockService) (channels : List Channel) : LockService :=
  { service with
    parked := service.parked.map fun request =>
      if channels.contains request.channel then { request with signalled := true }
      else request }

def release (service : LockService) (transaction : TransactionId) (page : PageId) :
    LockService :=
  let (channel, table) := service.table.release transaction page
  { service with table := table }.signal channel.toList

def releaseAll (service : LockService) (transaction : TransactionId) : LockService :=
  let (channels, table) := service.table.releaseAll transaction
  { service with table := table }.signal channels

def ask (service : LockService) (transaction : TransactionId) (page : PageId) (mode : LockMode)
    (sample : Nat) : Except Fault LockAnswer × LockService :=
  match service.table.grant? transaction page mode with
  | some table => (.ok .granted, { service with table := table })
  | none =>
      match service.range.draw sample with
      | .error fault => (.error fault, service)
      | .ok bound =>
          let (channel, table) := service.table.enqueue page
          let request : LockRequest :=
            ⟨service.nextTicket, transaction, page, mode, channel, bound, service.clock + bound,
              false⟩
          (.ok (.parked request),
            { service with
              table := table
              parked := service.parked ++ [request]
              nextTicket := service.nextTicket + 1 })

def find? (service : LockService) (ticket : Ticket) : Option LockRequest :=
  service.parked.find? fun request => request.ticket == ticket

def unpark (service : LockService) (request : LockRequest) (table : LockTable) : LockService :=
  { service with
    table := table.dequeue request.page
    parked := service.parked.filter fun other => other.ticket != request.ticket }

/-- Tries a parked request again before its deadline. Holds when it is granted; otherwise the
request goes back to listening. -/
def retry (service : LockService) (request : LockRequest) : Bool × LockService :=
  match service.table.grant? request.transaction request.page request.mode with
  | some table => (true, service.unpark request table)
  | none =>
      (false,
        { service with
          parked := service.parked.map fun other =>
            if other.ticket == request.ticket then { other with signalled := false } else other })

def expire (service : LockService) (request : LockRequest) :
    Except LockTimeout Unit × LockService :=
  match service.table.grant? request.transaction request.page request.mode with
  | some table => (.ok (), service.unpark request table)
  | none =>
      (.error ⟨request.transaction, request.page, request.bound⟩,
        service.unpark request service.table)

def await (service : LockService) (request : LockRequest) : LockService :=
  { service with clock := max service.clock request.deadline }

/-- `ask`, and the wait for the lock without other calls in between. -/
def acquire (service : LockService) (transaction : TransactionId) (page : PageId)
    (mode : LockMode) (sample : Nat) : Except LockFailure Unit × LockService :=
  match service.ask transaction page mode sample with
  | (.error fault, service) => (.error (.broken fault), service)
  | (.ok .granted, service) => (.ok (), service)
  | (.ok (.parked request), service) =>
      match (service.await request).expire request with
      | (.ok (), service) => (.ok (), service)
      | (.error expired, service) => (.error (.timeout expired), service)

/-- Tries each of these requests in turn: for the last time if its deadline has come. The
outcomes name the requests that are parked no more. -/
def settleEach (service : LockService) :
    List LockRequest → List (LockRequest × Except LockTimeout Unit) × LockService
  | [] => ([], service)
  | request :: requests =>
      if request.deadline ≤ service.clock then
        let (outcome, service) := service.expire request
        let (outcomes, service) := settleEach service requests
        ((request, outcome) :: outcomes, service)
      else
        match service.retry request with
        | (true, service) =>
            let (outcomes, service) := settleEach service requests
            ((request, .ok ()) :: outcomes, service)
        | (false, service) => settleEach service requests

def settle (service : LockService) :
    List (LockRequest × Except LockTimeout Unit) × LockService :=
  service.settleEach service.parked

end LockService

end RecordStore
