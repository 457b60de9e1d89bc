import RecordStore.Proofs.Store.System

set_option autoImplicit false

/-! Runs of whole operations of any transactions, in which no file gets more pages than page numbers
can count. Every store that a run reaches from a fresh one is coherent. -/

namespace RecordStore

namespace Operation

/-- Neither releases single locks nor discards or flushes pages. -/
def Ordinary : Operation → Prop
  | .release _ _ | .discard _ | .flush _ | .flushAll => False
  | _ => True

def Plain : Operation → Prop
  | .scan _ _ _ | .next _ | .rewind _ => False
  | operation => operation.Ordinary

end Operation

namespace System

structure Fresh (system : System) : Prop where
  distinct : Store.Distinct system.store.tables
  countable : system.store.Countable
  uncached : system.store.cache = ∅
  unlocked : system.store.locks.table.records = ∅ ∧ system.store.locks.table.held = ∅
  unscanned : ∀ name, system.scans name = none

/-- A sequence of allowed operations from a start, with the system that it leads to. -/
inductive Run (allowed : Operation → Prop) (start : System) : List Event → System → Prop where
  | start : Run allowed start [] start
  | step {history : List Event} {system : System} (operation : Operation) :
      Run allowed start history system → allowed operation →
      (system.perform operation).2.store.Countable →
      Run allowed start (history ++ [⟨operation, (system.perform operation).1⟩])
        (system.perform operation).2

variable {system start : System}

theorem Fresh.coherent (fresh : system.Fresh) : system.Coherent := by
  refine ⟨⟨fresh.distinct, fresh.countable, ?_, ?_⟩, ?_⟩
  · intro page cached present
    rw [fresh.uncached, Std.ExtTreeMap.getElem?_empty] at present
    cases present
  · rw [fresh.uncached, Std.ExtTreeMap.size_empty]
    exact Nat.zero_le _
  · intro name scan found
    rw [fresh.unscanned name] at found
    cases found

theorem Fresh.consistent (fresh : system.Fresh) : system.store.locks.table.Consistent :=
  LockTable.Consistent.empty.of_same fresh.unlocked.1 fresh.unlocked.2

theorem Fresh.modeOf_eq_none (fresh : system.Fresh) (transaction : TransactionId)
    (page : PageId) : system.store.locks.modeOf transaction page = none := by
  refine LockTable.modeOf_of_vacant ?_ transaction
  rw [fresh.unlocked.1, Std.ExtTreeMap.getElem?_empty]

theorem Fresh.undrafted (fresh : system.Fresh) (page : PageId) :
    system.store.bare.drafts[page]? = none := by
  rw [Store.draft_lookup, fresh.uncached, Std.ExtTreeMap.getElem?_empty]
  rfl

theorem Coherent.perform_of_countable (coherent : system.Coherent) (operation : Operation)
    (countable : (system.perform operation).2.store.Countable) :
    Follows (system.perform operation) (system.bare.perform operation) := by
  apply coherent.perform operation
  rintro transaction id row table rfl known needs
  exact coherent.store.room_of_countable known countable needs

theorem Run.coherent {allowed : Operation → Prop} {history : List Event}
    (run : Run allowed start history system) (coherent : start.Coherent) : system.Coherent := by
  induction run with
  | start => exact coherent
  | step operation earlier permitted countable ih =>
      exact (ih.perform_of_countable operation countable).coherent

theorem Run.mono {allowed permitted : Operation → Prop} {history : List Event}
    (run : Run allowed start history system)
    (weaker : ∀ operation, allowed operation → permitted operation) :
    Run permitted start history system := by
  induction run with
  | start => exact .start
  | step operation earlier member countable ih =>
      exact .step operation ih (weaker _ member) countable

theorem Run.append {allowed : Operation → Prop} {opened : System} {history events : List Event}
    (earlier : Run allowed start history opened)
    (later : Run allowed opened events system) :
    Run allowed start (history ++ events) system := by
  induction later with
  | start => rwa [List.append_nil]
  | step operation run permitted countable ih =>
      rw [← List.append_assoc]
      exact .step operation ih permitted countable

def performAll (system : System) : List Operation → List Event × System
  | [] => ([], system)
  | operation :: operations =>
      (⟨operation, (system.perform operation).1⟩ ::
          ((system.perform operation).2.performAll operations).1,
        ((system.perform operation).2.performAll operations).2)

theorem performAll_append (system : System) (operations : List Operation)
    (operation : Operation) :
    system.performAll (operations ++ [operation]) =
      ((system.performAll operations).1 ++
          [⟨operation, ((system.performAll operations).2.perform operation).1⟩],
        ((system.performAll operations).2.perform operation).2) := by
  induction operations generalizing system with
  | nil => rfl
  | cons first operations ih =>
      rw [List.cons_append, performAll, ih]
      rfl

theorem Run.performAll_eq {allowed : Operation → Prop} {history : List Event}
    (run : Run allowed start history system) :
    start.performAll (history.map Event.operation) = (history, system) := by
  induction run with
  | start => rfl
  | step operation earlier member countable ih =>
      rw [List.map_append, List.map_singleton, performAll_append, ih]

end System

theorem Operation.Plain.ordinary {operation : Operation} (plain : operation.Plain) :
    operation.Ordinary := by
  cases operation with
  | scan name transaction table => exact plain.elim
  | next name => exact plain.elim
  | rewind name => exact plain.elim
  | _ => exact plain

/-! ### A small start -/

theorem Store.Distinct.single (table : Table) :
    Store.Distinct ((∅ : Std.ExtTreeMap TableId Table).insert table.id table) := by
  have only : ∀ (id : TableId) (other : Table),
      ((∅ : Std.ExtTreeMap TableId Table).insert table.id table)[id]? = some other →
      table.id = id ∧ table = other := by
    intro id other known
    rw [lookup_insert, Std.ExtTreeMap.getElem?_empty] at known
    split at known
    · next same =>
        cases known
        exact ⟨same, rfl⟩
    · cases known
  constructor
  · intro id other known
    obtain ⟨same, rfl⟩ := only id other known
    exact same
  · intro first second left right here there files
    exact (only first left here).1.symm.trans (only second right there).1

theorem Store.known_single {store : Store} {table other : Table} {id : TableId}
    (tables : store.tables = (∅ : Std.ExtTreeMap TableId Table).insert table.id table)
    (known : store.tables[id]? = some other) : other = table := by
  rw [tables, lookup_insert, Std.ExtTreeMap.getElem?_empty] at known
  split at known
  · cases known
    rfl
  · cases known

theorem Store.countable_single {store : Store} {table : Table}
    (tables : store.tables = (∅ : Std.ExtTreeMap TableId Table).insert table.id table)
    (countable : table.pages.wholePages store.directory < UInt32.size) : store.Countable := by
  intro id other known
  rw [Store.known_single tables known]
  exact countable

/-- A table of numbers, eight bytes to a page, so that there is one number on each. -/
def numbers : Table := ⟨⟨7⟩, "numbers", .ofTypes [.int], ⟨0, 8⟩⟩

/-- A store with a capacity of two over a table of one empty page. -/
def System.small : System :=
  ⟨(Store.start ⟨"", [], ∅, (∅ : Std.ExtTreeMap FileId Content).insert 0
      (.ofList (List.replicate 8 0)), 1⟩ 2 .standard).register numbers,
    fun _ => none⟩

theorem System.small_fresh : System.small.Fresh :=
  ⟨.single numbers, Store.countable_single rfl (by decide +kernel), rfl, ⟨rfl, rfl⟩, fun _ => rfl⟩

end RecordStore
