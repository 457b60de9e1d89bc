import RecordStore.Store.Completion

set_option autoImplicit false

/-! `getPage` in steps. A fetch ends at once or its request is parked; it ends with its page when
the request is granted, or fails when the request times out. -/

namespace RecordStore

abbrev Fetched := Except Failure PageCopy

inductive FetchStart where
  | finished (outcome : Fetched)
  | waiting (request : LockRequest)

namespace Store

def beginGet (store : Store) (transaction : TransactionId) (page : PageId) (mode : LockMode) :
    FetchStart × Store :=
  match store.locks.ask transaction page mode 0 with
  | (.error fault, locks) => (.finished (.error (.broken fault)), { store with locks := locks })
  | (.ok (.parked request), locks) => (.waiting request, { store with locks := locks })
  | (.ok .granted, locks) =>
      let (outcome, store) := { store with locks := locks }.fetch page
      (.finished outcome, store)

def resumeEach (store : Store) :
    List (LockRequest × Except LockTimeout Unit) → List (Ticket × Fetched) × Store
  | [] => ([], store)
  | (request, .error expired) :: settled =>
      let (outcomes, store) := resumeEach store settled
      ((request.ticket, .error (.refused expired.error)) :: outcomes, store)
  | (request, .ok ()) :: settled =>
      let (outcome, store) := store.fetch request.page
      let (outcomes, store) := resumeEach store settled
      ((request.ticket, outcome) :: outcomes, store)

def resume (store : Store) : List (Ticket × Fetched) × Store :=
  let (settled, locks) := store.locks.settle
  { store with locks := locks }.resumeEach settled

end Store

end RecordStore
