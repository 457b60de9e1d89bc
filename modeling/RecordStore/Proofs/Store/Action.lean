import RecordStore.Proofs.Lock.Index
import RecordStore.Proofs.Store.System

set_option autoImplicit false

/-! Actions on a store: whole operations, and the parts of one that waits for its lock, which are
asking, resuming and going on with the page. Tables are registered in between, page copies are
revised and reinstalled, and files are changed from outside. A `Course` is a sequence of actions. -/

namespace RecordStore

inductive Action where
  | operation (operation : Operation)
  | lock (call : LockCall)
  | fetch (page : PageId)
  | register (table : Table)
  | revise (page : PageId) (changed : PageCopy)
  | reinstall (transaction : TransactionId) (page : PageId) (changed : PageCopy)
  | disturb (directory : Directory)

namespace System

/-- No table is registered, no page cached or locked, and no scan begun. The files may hold
anything. -/
def untouched (directory : Directory) (capacity : Nat) (range : WaitRange)
    (preference : Preference) : System :=
  ⟨{ Store.start directory capacity range with preference := preference }, fun _ => none⟩

def withStore (system : System) (store : Store) : System := { system with store := store }

def act (system : System) : Action → System
  | .operation operation => (system.perform operation).2
  | .lock call =>
      system.withStore { system.store with locks := (system.store.locks.perform call).2 }
  | .fetch page => system.withStore (system.store.fetch page).2
  | .register table => system.withStore (system.store.register table)
  | .revise page changed => system.withStore (system.store.update page changed)
  | .reinstall transaction page changed =>
      system.withStore (system.store.installDirty transaction page changed).2
  | .disturb directory => system.withStore { system.store with directory := directory }

/-- The systems reached by actions that are each allowed when they are taken. -/
inductive Course (allowed : System → Action → Prop) (start : System) : System → Prop where
  | start : Course allowed start start
  | step {system : System} (action : Action) :
      Course allowed start system → allowed system action →
      Course allowed start (system.act action)

theorem Course.mono {allowed permitted : System → Action → Prop} {start system : System}
    (course : Course allowed start system)
    (weaker : ∀ system action, allowed system action → permitted system action) :
    Course permitted start system := by
  induction course with
  | start => exact .start
  | step action earlier member ih => exact .step action ih (weaker _ action member)

end System

end RecordStore
