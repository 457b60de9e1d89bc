import RecordStore.Proofs.Store.Creation
import RecordStore.Proofs.Store.Filling

set_option autoImplicit false

/-! Creating a table again at the same path. It starts empty if no page of the earlier table is
cached; otherwise these pages are shown as its own. -/

namespace RecordStore

def Event.placing (writer : TransactionId) (id : TableId) (placed : Row × RecordId) : Event :=
  ⟨.insert writer id placed.1, .placed (.ok placed.2)⟩

def placedRow (placed : Row × RecordId) : SeenRow := (some placed.2, placed.1.stored)

namespace System

/-- No page of the table can be had, and whatever one transaction inserts and commits is what a scan
returns, in that order. -/
structure StartsEmpty (system : System) (table : Table) : Prop where
  hidden : ∀ (transaction : TransactionId) (page : PageId) (access : Access) (cached : PageCopy),
    page.table = table.id → (system.store.getPage transaction page access).1 ≠ .ok cached
  listed : ∀ (writer reader : TransactionId) (placed : List (Row × RecordId)) (filled : System),
    Run Operation.Ordinary system (placed.map (Event.placing writer table.id)) filled →
    (filled.perform (.commit writer)).1 = .written (.ok ()) ∧
      ∃ scan shown ended after,
        Scan.start table reader (filled.perform (.commit writer)).2.store = .ok scan ∧
        scan.rest (filled.perform (.commit writer)).2.store = (shown, none, ended, after) ∧
        shown.map Row.seen = placed.map placedRow

variable {start system filled : System} {table : Table} {directory : Directory}
variable {writer : TransactionId} {history : List Event} {placed : List (Row × RecordId)}

theorem Run.tables_eq {allowed : Operation → Prop} (run : Run allowed start history system)
    (coherent : start.Coherent) : system.store.tables = start.store.tables := by
  induction run with
  | start => rfl
  | @step history system operation earlier permitted countable ih =>
      have follows := (earlier.coherent coherent).perform_of_countable operation countable
      have frames := system.bare.frames_perform operation
      rw [← follows.bareIs] at frames
      exact frames.tables.trans ih

/-- As long as every row finds a place, the pages list the rows in order. -/
theorem Run.packed (run : Run Operation.Ordinary start history system) (kept : start.Kept)
    (known : start.store.tables[table.id]? = some table)
    (packed : start.store.bare.Packed writer table [])
    (same : history = placed.map (Event.placing writer table.id)) :
    system.store.bare.Packed writer table (placed.map placedRow) := by
  induction run generalizing placed with
  | start =>
      rw [List.map_eq_nil_iff.mp same.symm]
      exact packed
  | @step history system operation earlier ordinary countable ih =>
      obtain ⟨before, others, rfl, first, final⟩ := List.map_eq_append_iff.mp same.symm
      obtain ⟨⟨row, record⟩, rfl, event⟩ := List.map_eq_singleton_iff.mp final
      rw [Event.placing, Event.mk.injEq] at event
      obtain ⟨rfl, answer⟩ := event
      have between := earlier.kept (fun _ member => member) kept
      have follows := between.coherent.perform_of_countable _ countable
      obtain ⟨ledger, keeps⟩ := between.keeps
      obtain ⟨failure, missing⟩ := between.coherent.written_next table.id table (by
        rw [earlier.tables_eq kept.coherent]
        exact known)
      have answered := follows.answered
      have bareIs : (system.perform (.insert writer table.id row)).2.store.bare =
          (system.store.bare.insert writer table.id row).2 := follows.store_bare
      rw [← answer] at answered
      have small := countable.counts_lt table.id
      change (system.perform (.insert writer table.id row)).2.store.bare.counts table.id < _ at small
      change Answer.placed (.ok record) = .placed (system.store.bare.insert writer table.id row).1
        at answered
      rcases inserted : system.store.bare.insert writer table.id row with ⟨outcome, after⟩
      rw [inserted] at answered bareIs
      cases answered
      rw [bareIs] at small ⊢
      rw [List.map_append]
      apply (ih first.symm).insert keeps _ missing inserted small
      change system.store.tables[table.id]? = some table
      rw [earlier.tables_eq kept.coherent]
      exact known

/-- A table created in an `Idle` store starts empty iff no page with its table id is cached. -/
theorem starts_empty_iff {pageSize : Nat} {path : String} {schema : Schema}
    (reached : system.Reached) (idle : system.store.Idle) (positive : 0 < pageSize)
    (created : Table.create system.store.directory pageSize path schema =
      (.ok table, directory)) :
    (system.enroll table directory).StartsEmpty table ↔ system.store.Uncached table.id := by
  have named := reached.named
  constructor
  · intro empty page cached present own
    exact empty.hidden TransactionId.first page .readOnly cached own
      (named.getPage_cached idle TransactionId.first .readOnly present)
  · intro uncached
    have kept := named.kept idle created uncached
    have known : (system.enroll table directory).store.tables[table.id]? = some table :=
      Std.ExtTreeMap.getElem?_insert_self
    constructor
    · intro transaction page access cached own
      exact named.hidden idle created uncached transaction own access cached
    · intro writer reader placed filled run
      have none : (system.enroll table directory).store.bare.counts table.id = 0 :=
        (Store.counts_of_table known).trans (wholePages_create created)
      have packed := run.packed kept known (.start idle.modeOf_eq_none none writer) rfl
      have filledKept := run.kept (fun _ member => member) kept
      obtain ⟨ledger, keeps⟩ := filledKept.keeps
      have follows : Follows (filled.perform (.commit writer)) (filled.bare.perform (.commit writer)) :=
        filledKept.coherent.follows fun _ _ _ same => by cases same
      have bareIs : (filled.perform (.commit writer)).2.store.bare =
          filled.store.bare.complete true writer := follows.store_bare
      have settled := packed.commit keeps
      rw [← bareIs] at settled
      refine ⟨follows.answered, ?_⟩
      have tables : (filled.perform (.commit writer)).2.store.tables = filled.store.tables :=
        (congrArg Bare.tables bareIs).trans (filled.store.bare.tables_complete true writer)
      have consistent : (filled.perform (.commit writer)).2.store.locks.table.Consistent := by
        change (filled.perform (.commit writer)).2.store.bare.locks.table.Consistent
        rw [bareIs]
        exact Bare.consistent_complete keeps.consistent true
      apply follows.coherent.store.scan_settled consistent _ _ settled reader
      · rw [tables, run.tables_eq kept.coherent]
        exact known
      · obtain ⟨-, sized⟩ := Table.content_of_create created
        rw [sized]
        exact Nat.ne_of_gt positive

/-! ### A table that is created twice -/

/-- A table of numbers at the path `a`. -/
def lone : Table := ⟨⟨1783684229⟩, "/a", numbers.schema, ⟨0, 16⟩⟩

def unused : System := ⟨Store.start (.empty "" []) 2 .standard, fun _ => none⟩

theorem lone_eq : Table.ofFile 16 numbers.schema 0 "/a" = lone := by decide +kernel

theorem create_lone : Table.create unused.store.directory 16 "a" numbers.schema =
    (.ok lone, (unused.store.directory.add "a" .empty).2) := by
  rw [← lone_eq]
  exact Table.create_eq_ofFile rfl 16 numbers.schema

def used : System :=
  ((unused.enroll lone (unused.store.directory.add "a" .empty).2).performAll
    [.insert ⟨1⟩ lone.id (numberRow 5), .commit ⟨1⟩]).2

theorem used_reached : used.Reached := by
  have created := Reached.enroll (.start (.empty "" [])) (.created create_lone)
    (.of_empty (by decide +kernel) lone.id) (by decide +kernel)
  have inserted := created.step (.insert ⟨1⟩ lone.id (numberRow 5))
    (Store.countable_single rfl (by decide +kernel))
  exact inserted.step (.commit ⟨1⟩) (Store.countable_single rfl (by decide +kernel))

def evicted : System := (used.perform .evict).2

/-- With its page evicted the table starts empty when it is created again. -/
theorem starts_empty_iff_small :
    evicted.Reached ∧ evicted.store.Idle ∧ 0 < 16 ∧
      Table.create evicted.store.directory 16 "a" numbers.schema =
        (.ok lone, evicted.store.directory.store 0 .empty) ∧
      ((evicted.enroll lone (evicted.store.directory.store 0 .empty)).StartsEmpty lone ↔
        evicted.store.Uncached lone.id) ∧
      evicted.store.Uncached lone.id := by
  have reached : evicted.Reached :=
    used_reached.step .evict (Store.countable_single rfl (by decide +kernel))
  have idle : evicted.store.Idle := .of_lists (by decide +kernel) (by decide +kernel)
  have created : Table.create evicted.store.directory 16 "a" numbers.schema =
      (.ok lone, evicted.store.directory.store 0 .empty) := by
    rw [← lone_eq]
    exact Table.create_eq_ofFile rfl 16 numbers.schema
  exact ⟨reached, idle, by decide, created, starts_empty_iff reached idle (by decide) created,
    .of_empty (by decide +kernel) lone.id⟩

/-- With its page still cached, the row of the former table is listed beside the one inserted into
the new table, and is written with it. -/
theorem starts_with_former_row :
    ∃ (directory : Directory) (placed : List (Row × RecordId)) (filled : System) (scan : Scan)
      (shown : List Row) (ended : Scan) (after : Store), used.Reached ∧ used.store.Idle ∧
      Table.create used.store.directory 16 "a" numbers.schema = (.ok lone, directory) ∧
      Run Operation.Ordinary (used.enroll lone directory)
        (placed.map (Event.placing ⟨2⟩ lone.id)) filled ∧
      (filled.perform (.commit ⟨2⟩)).1 = .written (.ok ()) ∧
      Scan.start lone ⟨3⟩ (filled.perform (.commit ⟨2⟩)).2.store = .ok scan ∧
      scan.rest (filled.perform (.commit ⟨2⟩)).2.store = (shown, none, ended, after) ∧
      placed.map placedRow = [(some ⟨lone.page 0, 1⟩, [.int 6])] ∧
      shown.map Row.seen =
        [(some ⟨lone.page 0, 0⟩, [.int 5]), (some ⟨lone.page 0, 1⟩, [.int 6])] := by
  have idle : used.store.Idle := .of_lists (by decide +kernel) (by decide +kernel)
  have created : Table.create used.store.directory 16 "a" numbers.schema =
      (.ok lone, used.store.directory.store 0 .empty) := by
    rw [← lone_eq]
    exact Table.create_eq_ofFile rfl 16 numbers.schema
  have run : Run Operation.Ordinary (used.enroll lone (used.store.directory.store 0 .empty))
      ([(numberRow 6, ⟨lone.page 0, 1⟩)].map (Event.placing ⟨2⟩ lone.id)) _ :=
    .step (.insert ⟨2⟩ lone.id (numberRow 6)) .start trivial
      (Store.countable_single rfl (by decide +kernel))
  exact ⟨_, _, _, _, _, _, _, used_reached, idle, created, run, rfl, rfl, rfl, rfl, rfl⟩

end System

end RecordStore
