import RecordStore.Proofs.Store.Completion
import RecordStore.Proofs.Store.Steps

set_option autoImplicit false

/-! All operations on a store with their answers, in which rows have their values as they are
stored. Every operation follows its version on the bare store. -/

namespace RecordStore

inductive Operation where
  | begin
  | get (transaction : TransactionId) (page : PageId) (access : Access)
  | insert (transaction : TransactionId) (table : TableId) (row : Row)
  | delete (transaction : TransactionId) (record : Option RecordId)
  | scan (name : Nat) (transaction : TransactionId) (table : TableId)
  | next (name : Nat)
  | rewind (name : Nat)
  | evict
  | commit (transaction : TransactionId)
  | abort (transaction : TransactionId)
  | release (transaction : TransactionId) (page : PageId)
  | discard (page : PageId)
  | flush (transaction : TransactionId)
  | flushAll

inductive Answer where
  | began (transaction : TransactionId)
  | shown (slots : Except Failure Slots)
  | placed (record : Except Failure RecordId)
  | deleted (outcome : Except Failure Unit)
  | started (outcome : Except Failure Unit)
  | scanned (outcome : Option (Except Failure SeenRow))
  | written (outcome : Except StorageError Unit)
  | unseen

structure Event where
  operation : Operation
  answer : Answer

structure System where
  store : Store
  scans : Nat → Option Scan

structure BareSystem where
  bare : Bare
  scans : Nat → Option BareScan

def replaceAt {Entry : Type} (entries : Nat → Option Entry) (name : Nat) (entry : Entry) :
    Nat → Option Entry :=
  fun other => if other = name then some entry else entries other

def startOutcome {Entry : Type} (started : Except Fault Entry) : Answer :=
  .started ((started.map fun _ => ()).mapError Failure.broken)

namespace System

def after {Outcome : Type} (system : System) (seen : Outcome → Answer)
    (result : Outcome × Store) : Answer × System :=
  (seen result.1, { system with store := result.2 })

def keep (system : System) (name : Nat) (started : Except Fault Scan) : Answer × System :=
  (startOutcome started,
    match started with
    | .ok scan => { system with scans := replaceAt system.scans name scan }
    | .error _ => system)

def stepped (system : System) (name : Nat)
    (result : Option (Except Failure Row) × Scan × Store) : Answer × System :=
  (.scanned (Scan.seen result.1), ⟨result.2.2, replaceAt system.scans name result.2.1⟩)

def perform (system : System) : Operation → Answer × System
  | .begin => system.after .began system.store.begin
  | .get transaction page access =>
      system.after (fun outcome => .shown (outcome.map fun cached => cached.page.contents))
        (system.store.getPage transaction page access)
  | .insert transaction table row =>
      let result := system.store.insert transaction table row
      system.after .placed (result.1, result.2.2)
  | .delete transaction record => system.after .deleted (system.store.delete transaction record)
  | .scan name transaction table =>
      match system.store.table? table with
      | .error error => (.started (.error (.refused error)), system)
      | .ok table => system.keep name (Scan.start table transaction system.store)
  | .next name =>
      match system.scans name with
      | none => (.unseen, system)
      | some scan => system.stepped name (scan.next system.store)
  | .rewind name =>
      match system.scans name with
      | none => (.unseen, system)
      | some scan => system.keep name (scan.rewind system.store)
  | .evict => system.after (fun _ => .unseen) system.store.evict
  | .commit transaction => system.after .written (system.store.commit transaction)
  | .abort transaction => system.after .written (system.store.abort transaction)
  | .release transaction page =>
      system.after (fun _ => .unseen) ((), system.store.releasePage transaction page)
  | .discard page => system.after (fun _ => .unseen) ((), system.store.discard page)
  | .flush transaction => system.after .written (system.store.flushPages transaction)
  | .flushAll => system.after .written system.store.flushAll

/-- The system without clean pages, its scans with rows as they are stored. -/
def bare (system : System) : BareSystem :=
  ⟨system.store.bare, fun name => (system.scans name).map Scan.bare⟩

end System

namespace BareSystem

def after {Outcome : Type} (system : BareSystem) (seen : Outcome → Answer)
    (result : Outcome × Bare) : Answer × BareSystem :=
  (seen result.1, { system with bare := result.2 })

def keep (system : BareSystem) (name : Nat) (started : Except Fault BareScan) :
    Answer × BareSystem :=
  (startOutcome started,
    match started with
    | .ok scan => { system with scans := replaceAt system.scans name scan }
    | .error _ => system)

def stepped (system : BareSystem) (name : Nat)
    (result : Option (Except Failure SeenRow) × BareScan × Bare) : Answer × BareSystem :=
  (.scanned result.1, ⟨result.2.2, replaceAt system.scans name result.2.1⟩)

def perform (system : BareSystem) : Operation → Answer × BareSystem
  | .begin =>
      system.after .began (system.bare.nextTransaction,
        { system.bare with nextTransaction := system.bare.nextTransaction.next })
  | .get transaction page access =>
      system.after .shown (system.bare.getPage transaction page access)
  | .insert transaction table row =>
      system.after .placed (system.bare.insert transaction table row)
  | .delete transaction record => system.after .deleted (system.bare.delete transaction record)
  | .scan name transaction table =>
      match system.bare.table? table with
      | .error error => (.started (.error (.refused error)), system)
      | .ok table => system.keep name (BareScan.start table transaction system.bare)
  | .next name =>
      match system.scans name with
      | none => (.unseen, system)
      | some scan => system.stepped name (scan.next system.bare)
  | .rewind name =>
      match system.scans name with
      | none => (.unseen, system)
      | some scan =>
          system.keep name (BareScan.start scan.table scan.transaction system.bare)
  | .evict => (.unseen, system)
  | .commit transaction =>
      system.after .written (.ok (), system.bare.complete true transaction)
  | .abort transaction =>
      system.after .written (.ok (), system.bare.complete false transaction)
  | .release transaction page =>
      system.after (fun _ => .unseen) ((), system.bare.releasePage transaction page)
  | .discard page => system.after (fun _ => .unseen) ((), system.bare.discard page)
  | .flush transaction =>
      system.after .written
        (.ok (), system.bare.flushEach (system.bare.locks.table.pagesOf transaction))
  | .flushAll => system.after .written (.ok (), system.bare.flushAll)

variable (system : BareSystem) (name : Nat)

theorem bare_keep (started : Except Fault BareScan) :
    (system.keep name started).2.bare = system.bare := by
  cases started <;> rfl

theorem bare_scan (transaction : TransactionId) (table : TableId) :
    (system.perform (.scan name transaction table)).2.bare = system.bare := by
  simp only [perform]
  split
  · rfl
  · exact system.bare_keep name _

theorem bare_rewind : (system.perform (.rewind name)).2.bare = system.bare := by
  simp only [perform]
  split
  · rfl
  · exact system.bare_keep name _

theorem next_locks :
    ∃ transaction, Bare.LocksMore transaction system.bare
      (system.perform (.next name)).2.bare := by
  simp only [perform]
  split
  · exact ⟨TransactionId.first, .refl _ _⟩
  · next scan found => exact ⟨scan.transaction, BareScan.next_locks _ _⟩

end BareSystem

namespace System

theorem store_keep (system : System) (name : Nat) (started : Except Fault Scan) :
    (system.keep name started).2.store = system.store := by
  cases started <;> rfl

theorem store_scan (system : System) (name : Nat) (transaction : TransactionId) (table : TableId) :
    (system.perform (.scan name transaction table)).2.store = system.store := by
  simp only [perform]
  split
  · rfl
  · exact system.store_keep name _

theorem store_rewind (system : System) (name : Nat) :
    (system.perform (.rewind name)).2.store = system.store := by
  simp only [perform]
  split
  · rfl
  · exact system.store_keep name _

variable {system : System}

structure Coherent (system : System) : Prop where
  store : system.store.Coherent
  scans : ∀ (name : Nat) (scan : Scan), system.scans name = some scan →
    system.store.tables[scan.table.id]? = some scan.table

structure Follows (result : Answer × System) (expected : Answer × BareSystem) : Prop where
  coherent : result.2.Coherent
  bareIs : result.2.bare = expected.2
  answered : result.1 = expected.1

theorem Follows.store_bare {result : Answer × System} {expected : Answer × BareSystem}
    (follows : Follows result expected) : result.2.store.bare = expected.2.bare :=
  congrArg BareSystem.bare follows.bareIs

theorem replaceAt_map {First Second : Type} (view : First → Second) (entries : Nat → Option First)
    (name : Nat) (entry : First) :
    (fun other => (replaceAt entries name entry other).map view) =
      replaceAt (fun other => (entries other).map view) name (view entry) := by
  funext other
  unfold replaceAt
  split <;> rfl

theorem Coherent.withStore (coherent : system.Coherent) {store : Store} (after : store.Coherent)
    (tables : store.tables = system.store.tables) :
    ({ system with store := store } : System).Coherent :=
  ⟨after, fun name scan found => by
    rw [tables]
    exact coherent.scans name scan found⟩

theorem Coherent.after (coherent : system.Coherent) {First Second : Type}
    {seen : First → Answer} {expected : Second → Answer} {result : First × Store}
    {bareResult : Second × Bare} (after : result.2.Coherent)
    (bareIs : result.2.bare = bareResult.2)
    (tables : bareResult.2.tables = system.store.bare.tables)
    (answered : seen result.1 = expected bareResult.1) :
    Follows (system.after seen result) (system.bare.after expected bareResult) := by
  refine ⟨coherent.withStore after ?_, ?_, answered⟩
  · rw [← bareIs] at tables
    exact tables
  · simp only [System.after, BareSystem.after, bare, bareIs]

theorem Coherent.keep (coherent : system.Coherent) {name : Nat} {started : Except Fault Scan}
    (known : ∀ scan, started = .ok scan →
      system.store.tables[scan.table.id]? = some scan.table) :
    Follows (system.keep name started) (system.bare.keep name (started.map Scan.bare)) := by
  cases started with
  | error fault => exact ⟨coherent, rfl, rfl⟩
  | ok scan =>
      refine ⟨⟨coherent.store, ?_⟩, ?_, rfl⟩
      · intro other found present
        simp only [System.keep, replaceAt] at present
        split at present
        · cases present
          exact known scan rfl
        · exact coherent.scans other found present
      · simp only [System.keep, BareSystem.keep, bare, replaceAt_map, Except.map]

theorem Coherent.start (coherent : system.Coherent) {table : Table}
    (known : system.store.tables[table.id]? = some table) (transaction : TransactionId)
    (name : Nat) :
    Follows (system.keep name (Scan.start table transaction system.store))
      (system.bare.keep name (BareScan.start table transaction system.store.bare)) := by
  rw [← Scan.start_bare coherent.store known transaction]
  apply coherent.keep
  intro scan found
  unfold Scan.start at found
  split at found
  · cases found
  · cases found
    exact known

theorem Coherent.stepped (coherent : system.Coherent) {name : Nat} {scan : Scan}
    (found : system.scans name = some scan) :
    Follows (system.stepped name (scan.next system.store))
      (system.bare.stepped name (scan.bare.next system.store.bare)) := by
  have steps := Scan.next_steps coherent.store scan
  have tables := (BareScan.next_locks system.store.bare scan.bare).tables_eq
  have stays := scan.table_next system.store
  rw [← steps.bareIs] at tables
  have same : (scan.next system.store).2.2.tables = system.store.tables := tables
  refine ⟨⟨steps.coherent, ?_⟩, ?_, congrArg Answer.scanned steps.answered⟩
  · intro other kept present
    simp only [System.stepped, replaceAt] at present
    rw [System.stepped, same]
    split at present
    · cases present
      rw [stays]
      exact coherent.scans name scan found
    · exact coherent.scans other kept present
  · simp only [System.stepped, BareSystem.stepped, bare, replaceAt_map, steps.bareIs,
      steps.scanIs]

theorem Coherent.completed (coherent : system.Coherent) (commits : Bool)
    (transaction : TransactionId) :
    Follows (system.after .written (system.store.complete commits transaction))
      (system.bare.after .written (.ok (), system.store.bare.complete commits transaction)) := by
  obtain ⟨after, done, afterCoherent, bareIs⟩ := coherent.store.complete commits transaction
  rw [done]
  exact coherent.after afterCoherent bareIs
    (system.store.bare.tables_complete commits transaction) rfl

/-- The answer to an operation, and its effect, depend on the bare system only. -/
theorem Coherent.perform (coherent : system.Coherent) (operation : Operation)
    (room : ∀ transaction id row table, operation = .insert transaction id row →
      system.store.tables[id]? = some table →
      Store.Needs system.store.bare table transaction row →
      table.pages.wholePages system.store.directory + 1 < UInt32.size) :
    Follows (system.perform operation) (system.bare.perform operation) := by
  have store := coherent.store
  cases operation with
  | begin =>
      exact coherent.after ⟨store.distinct, store.countable, store.faithful, store.bounded⟩ rfl rfl
        rfl
  | get transaction page access =>
      have fetches := store.getPage transaction page access
      have answered := congrArg Answer.shown fetches.answered
      simp only [System.perform, BareSystem.perform]
      refine coherent.after fetches.coherent fetches.bareIs ?_ answered
      exact (system.store.bare.getPage_locks transaction page access).tables_eq
  | insert transaction id row =>
      have agrees := store.insert transaction id row fun table known needs =>
        room transaction id row table rfl known needs
      exact coherent.after agrees.coherent agrees.bareIs
        (system.store.bare.tables_insert transaction id row)
        (congrArg Answer.placed agrees.answered)
  | delete transaction record =>
      have agrees := store.delete transaction record
      exact coherent.after agrees.coherent agrees.bareIs
        (system.store.bare.tables_delete transaction record)
        (congrArg Answer.deleted agrees.answered)
  | scan name transaction id =>
      simp only [System.perform, BareSystem.perform]
      rw [show system.bare.bare.table? id = system.store.table? id from rfl]
      cases found : system.store.table? id with
      | error error => exact ⟨coherent, rfl, rfl⟩
      | ok table =>
          have known : system.store.tables[id]? = some table := system.store.bare.table?_ok found
          refine coherent.start ?_ transaction name
          rw [store.distinct.keyed id table known]
          exact known
  | next name =>
      simp only [System.perform, BareSystem.perform]
      rw [show system.bare.scans name = (system.scans name).map Scan.bare from rfl]
      cases found : system.scans name with
      | none => exact ⟨coherent, rfl, rfl⟩
      | some scan => exact coherent.stepped found
  | rewind name =>
      simp only [System.perform, BareSystem.perform]
      rw [show system.bare.scans name = (system.scans name).map Scan.bare from rfl]
      cases found : system.scans name with
      | none => exact ⟨coherent, rfl, rfl⟩
      | some scan => exact coherent.start (coherent.scans name scan found) scan.transaction name
  | evict =>
      obtain ⟨after, bareIs⟩ := store.evict
      refine ⟨coherent.withStore after ?_, ?_, rfl⟩
      · exact congrArg Bare.tables bareIs
      · simp only [System.perform, System.after, BareSystem.perform, System.bare, bareIs]
  | commit transaction => exact coherent.completed true transaction
  | abort transaction => exact coherent.completed false transaction
  | release transaction page =>
      simp only [System.perform, BareSystem.perform]
      refine coherent.after ?_ ?_ ?_ ?_
      · exact store.withLocks _
      all_goals rfl
  | discard page =>
      simp only [System.perform, BareSystem.perform]
      refine coherent.after ?_ ?_ ?_ ?_
      · exact store.discard page
      · exact system.store.bare_discard page
      all_goals rfl
  | flush transaction =>
      obtain ⟨after, done, afterCoherent, bareIs⟩ := store.flushPages transaction
      simp only [System.perform, BareSystem.perform, done]
      refine coherent.after afterCoherent bareIs ?_ rfl
      rw [Bare.flushEach_eq]
      rfl
  | flushAll =>
      obtain ⟨after, done, afterCoherent, bareIs⟩ := store.flushAll
      simp only [System.perform, BareSystem.perform, done]
      exact coherent.after afterCoherent bareIs rfl rfl

end System

end RecordStore
