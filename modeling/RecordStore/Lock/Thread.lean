import RecordStore.Lock.Service

set_option autoImplicit false

/-! Named threads that acquire locks. A thread whose request is parked waits; once the request is
granted or has failed the thread has an outcome, which is kept until the thread is joined. -/

namespace RecordStore

inductive Thread (Outcome : Type) where
  | waiting (request : LockRequest)
  | finished (outcome : Outcome)

def Thread.resume {Outcome : Type} (outcome? : LockRequest → Option Outcome)
    (thread : Thread Outcome) : Thread Outcome :=
  match thread with
  | .finished outcome => .finished outcome
  | .waiting request =>
      match outcome? request with
      | some outcome => .finished outcome
      | none => .waiting request

abbrev Threads (Outcome : Type) := Std.ExtTreeMap String (Thread Outcome)

namespace Threads

variable {Outcome : Type}

def resume (threads : Threads Outcome) (outcome? : LockRequest → Option Outcome) :
    Threads Outcome :=
  threads.map fun _ thread => thread.resume outcome?

def request? (threads : Threads Outcome) (name : String) : Option LockRequest :=
  match threads[name]? with
  | some (.waiting request) => some request
  | _ => none

def outcome? (threads : Threads Outcome) (name : String) : Option Outcome :=
  match threads[name]? with
  | some (.finished outcome) => some outcome
  | _ => none

def isFinished (threads : Threads Outcome) (name : String) : Bool :=
  (threads.outcome? name).isSome

end Threads

/-- A lock service and the threads that use it. After every call the threads that can resume have
resumed. -/
structure LockSession where
  locks : LockService
  threads : Threads (Except LockFailure Unit)

namespace LockSession

def start (range : WaitRange) : LockSession := ⟨LockService.start range, ∅⟩

def settle (session : LockSession) : LockSession :=
  let (outcomes, locks) := session.locks.settle
  let outcome? (request : LockRequest) : Option (Except LockFailure Unit) :=
    (outcomes.find? fun settled => settled.1.ticket == request.ticket).map fun settled =>
      settled.2.mapError LockFailure.timeout
  ⟨locks, session.threads.resume outcome?⟩

def withLocks (session : LockSession) (locks : LockService) : LockSession :=
  { session with locks := locks }.settle

def acquire (session : LockSession) (transaction : TransactionId) (page : PageId)
    (mode : LockMode) : Except LockFailure Unit × LockSession :=
  let (outcome, locks) := session.locks.acquire transaction page mode 0
  (outcome, session.withLocks locks)

def release (session : LockSession) (transaction : TransactionId) (page : PageId) :
    LockSession :=
  session.withLocks (session.locks.release transaction page)

def releaseAll (session : LockSession) (transaction : TransactionId) : LockSession :=
  session.withLocks (session.locks.releaseAll transaction)

def spawn (session : LockSession) (name : String) (transaction : TransactionId) (page : PageId)
    (mode : LockMode) : LockSession :=
  let (answer, locks) := session.locks.ask transaction page mode 0
  let thread : Thread (Except LockFailure Unit) :=
    match answer with
    | .ok .granted => .finished (.ok ())
    | .ok (.parked request) => .waiting request
    | .error fault => .finished (.error (.broken fault))
  { session with threads := session.threads.insert name thread }.withLocks locks

def join (session : LockSession) (name : String) :
    Option (Except LockFailure Unit) × LockSession :=
  let session :=
    match session.threads.request? name with
    | some request => session.withLocks (session.locks.await request)
    | none => session
  (session.threads.outcome? name, { session with threads := session.threads.erase name })

end LockSession

end RecordStore
