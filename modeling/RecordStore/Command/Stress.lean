import RecordStore.Store.Completion
import RecordStore.Store.Scan

set_option autoImplicit false

/-! The `stress` command: workers that insert concurrently. Each row is inserted and committed in a
transaction of its own; after a failed insert the transaction is aborted and the row is retried in a
new one. `Bench.step` is one step of one worker, and a schedule is any list of workers. -/

namespace RecordStore.Stress

inductive Phase where
  | idle
  | begun (transaction : TransactionId)
  | inserted (transaction : TransactionId)
  | thwarted (transaction : TransactionId)
  | failed (error : StorageError)
  | broken (fault : Fault)
  deriving DecidableEq, Inhabited, Repr

structure Worker where
  index : Nat
  inserts : Nat
  committed : Nat
  phase : Phase
  deriving DecidableEq, Inhabited, Repr

namespace Worker

def start (inserts index : Nat) : Worker := ⟨index, inserts, 0, .idle⟩

def number (worker : Worker) : Except Fault Int32 :=
  (multiply worker.index worker.inserts).map fun first =>
    Int32.ofInt (first + worker.committed : Nat)

def isFinished (worker : Worker) : Bool :=
  worker.phase == .idle && worker.inserts ≤ worker.committed

def trouble? (worker : Worker) : Option Failure :=
  match worker.phase with
  | .failed error => some (.refused error)
  | .broken fault => some (.broken fault)
  | _ => none

/-- An error other than a lock timeout ends the worker, and its transaction is aborted. -/
def insertRow (table : Table) (transaction : TransactionId) (worker : Worker) (store : Store) :
    Worker × Store :=
  let row := worker.number.mapError Failure.broken >>= fun number =>
    (Row.make table.schema (List.replicate table.schema.count (.int number))).mapError
      Failure.refused
  match row with
  | .error (.refused error) =>
      ({ worker with phase := .failed error }, (store.abort transaction).2)
  | .error (.broken fault) =>
      ({ worker with phase := .broken fault }, (store.abort transaction).2)
  | .ok row =>
      match store.insert transaction table.id row with
      | (.ok _, _, store) => ({ worker with phase := .inserted transaction }, store)
      | (.error (.refused error), _, store) =>
          if error.endsTransaction then
            ({ worker with phase := .thwarted transaction }, store)
          else ({ worker with phase := .failed error }, (store.abort transaction).2)
      | (.error (.broken fault), _, store) =>
          ({ worker with phase := .broken fault }, (store.abort transaction).2)

def step (table : Table) (worker : Worker) (store : Store) : Worker × Store :=
  match worker.phase with
  | .idle =>
      if worker.inserts ≤ worker.committed then (worker, store)
      else
        let (transaction, store) := store.begin
        ({ worker with phase := .begun transaction }, store)
  | .begun transaction => worker.insertRow table transaction store
  | .inserted transaction =>
      match store.commit transaction with
      | (.ok (), store) =>
          ({ worker with phase := .idle, committed := worker.committed + 1 }, store)
      | (.error error, store) => ({ worker with phase := .failed error }, store)
  | .thwarted transaction =>
      match store.abort transaction with
      | (.ok (), store) => ({ worker with phase := .idle }, store)
      | (.error error, store) => ({ worker with phase := .failed error }, store)
  | .failed _ => (worker, store)
  | .broken _ => (worker, store)

end Worker

structure Bench where
  table : Table
  workers : List Worker
  store : Store

namespace Bench

def start (table : Table) (threads inserts : Nat) (store : Store) : Bench :=
  ⟨table, (List.range threads).map (Worker.start inserts), store⟩

def step (bench : Bench) (index : Nat) : Bench :=
  match bench.workers[index]? with
  | none => bench
  | some worker =>
      let (worker, store) := worker.step bench.table bench.store
      { bench with workers := bench.workers.set index worker, store := store }

def run (bench : Bench) (schedule : List Nat) : Bench := schedule.foldl step bench

def isAtRest (bench : Bench) (index : Nat) : Bool :=
  match bench.workers[index]? with
  | none => true
  | some worker => worker.isFinished || worker.trouble?.isSome

def settle (index : Nat) : (steps : Nat) → Bench → Bench
  | 0, bench => bench
  | steps + 1, bench =>
      if bench.isAtRest index then bench else settle index steps (bench.step index)

/-- Lets one worker after another do all its work without being disturbed: three steps a row. -/
def settleAll (threads inserts : Nat) (bench : Bench) : Bench :=
  (List.range threads).foldl (fun bench index => settle index (3 * inserts) bench) bench

end Bench

inductive Outcome where
  | done (records added : Nat)
  | refused (error : StorageError)
  | crashedWorker
  | wrongTotal (expected added : Nat)
  | broken (fault : Fault)
  deriving DecidableEq, Inhabited, Repr

def faultOf? (worker : Worker) : Option Fault :=
  match worker.phase with
  | .broken fault => some fault
  | _ => none

/-- The first worker that has not finished decides the outcome. A fault of a later worker turns it
into `broken`. -/
def firstTrouble : List Worker → Option Outcome
  | [] => none
  | worker :: workers =>
      let blamed (outcome : Outcome) : Outcome :=
        match workers.findSome? faultOf? with
        | some fault => .broken fault
        | none => outcome
      match worker.trouble? with
      | some (.refused error) => some (blamed (.refused error))
      | some (.broken _) => some (blamed .crashedWorker)
      | none => if worker.isFinished then firstTrouble workers else some (blamed .crashedWorker)

def countRecords (table : Table) (store : Store) : Except Failure Nat × Store :=
  let (transaction, store) := store.begin
  match Scan.start table transaction store with
  | .error fault => (.error (.broken fault), (store.abort transaction).2)
  | .ok scan =>
      match scan.rest store with
      | (_, some failure, _, store) => (.error failure, (store.abort transaction).2)
      | (rows, none, _, store) =>
          match store.commit transaction with
          | (.error error, store) => (.error (.refused error), store)
          | (.ok (), store) => (.ok rows.length, store)

def failed : Failure → Outcome
  | .refused error => .refused error
  | .broken fault => .broken fault

def run (table : Table) (threads inserts : Nat) (store : Store) : Outcome × Store :=
  match countRecords table store with
  | (.error failure, store) => (failed failure, store)
  | (.ok before, store) =>
      let bench := (Bench.start table threads inserts store).settleAll threads inserts
      match firstTrouble bench.workers with
      | some trouble => (trouble, bench.store)
      | none =>
          match countRecords table bench.store with
          | (.error failure, store) => (failed failure, store)
          | (.ok after, store) =>
              match multiply threads inserts with
              | .error fault => (.broken fault, store)
              | .ok expected =>
                  if after - before = expected then (.done after (after - before), store)
                  else (.wrongTotal expected (after - before), store)

end RecordStore.Stress
