import RecordStore.Proofs.Store.Names
import RecordStore.Proofs.Store.Shown

set_option autoImplicit false

/-! Creating tables. The id of a table is that of any earlier table at its path, so cached pages of
an earlier one are taken for its own. If there are none the store stays coherent, and the new table
has no pages. -/

namespace RecordStore

namespace Store

def Uncached (store : Store) (id : TableId) : Prop :=
  ∀ (page : PageId) (cached : PageCopy), store.cache[page]? = some cached → page.table ≠ id

structure Idle (store : Store) : Prop where
  unlocked : ∀ (transaction : TransactionId) (page : PageId),
    store.holdsLock transaction page = false
  clean : ∀ (page : PageId) (cached : PageCopy), store.cache[page]? = some cached →
    cached.isClean = true

def enroll (store : Store) (table : Table) (directory : Directory) : Store :=
  ({ store with directory := directory } : Store).register table

variable {store : Store} {table : Table} {directory : Directory}

theorem Idle.modeOf_eq_none (idle : store.Idle) (transaction : TransactionId) (page : PageId) :
    store.locks.modeOf transaction page = none := by
  have unheld := idle.unlocked transaction page
  rw [holdsLock, LockTable.holds_eq] at unheld
  exact Option.isNone_iff_eq_none.mp (Option.isSome_eq_false_iff.mp unheld)

theorem Idle.undrafted (idle : store.Idle) (page : PageId) : store.bare.drafts[page]? = none := by
  rw [draft_lookup]
  cases present : store.cache[page]? with
  | none => rfl
  | some cached => exact cached.draft?_eq_none_iff.mpr (idle.clean page cached present)

theorem Idle.of_lists (unlocked : store.locks.table.records.isEmpty = true)
    (clean : (store.cache.toList.all fun entry => entry.2.isClean) = true) : store.Idle := by
  constructor
  · intro transaction page
    rw [Std.ExtTreeMap.isEmpty_iff] at unlocked
    rw [holdsLock, LockTable.holds, unlocked, Std.ExtTreeMap.getElem?_empty]
  · intro page cached present
    have member := Std.ExtTreeMap.mem_toList_iff_getElem?_eq_some.mpr present
    exact List.all_eq_true.mp clean (page, cached) member

theorem Uncached.of_empty (empty : store.cache.isEmpty = true) (id : TableId) :
    store.Uncached id := by
  intro page cached present
  rw [Std.ExtTreeMap.isEmpty_iff.mp empty, Std.ExtTreeMap.getElem?_empty] at present
  cases present

/-! ### Tables registered before -/

section Enroll

variable (known : ∀ (id : TableId) (other : Table), store.tables[id]? = some other →
    other.Known store.directory)
  (joins : table.Joins store.directory directory) (coherent : store.Coherent)

include known joins coherent

theorem content_enroll {id : TableId} {other : Table} (present : store.tables[id]? = some other)
    (different : id ≠ table.id) :
    directory.content other.pages.file = store.directory.content other.pages.file := by
  have there := known id other present
  apply joins.contents other there
  intro shared
  have keyed := coherent.distinct.keyed id other present
  exact different (keyed.symm.trans (joins.own other there shared))

theorem distinct_enroll : Distinct (store.enroll table directory).tables := by
  have others : ∀ (id : TableId) (other : Table),
      (store.enroll table directory).tables[id]? = some other →
      (table.id = id ∧ table = other) ∨ store.tables[id]? = some other := by
    intro id other present
    rw [enroll, register, lookup_insert] at present
    split at present
    · next same => exact .inl ⟨same, Option.some.inj present⟩
    · exact .inr present
  constructor
  · intro id other present
    rcases others id other present with ⟨rfl, rfl⟩ | present
    · rfl
    · exact coherent.distinct.keyed id other present
  · have shares : ∀ (id : TableId) (other : Table), store.tables[id]? = some other →
        other.pages.file = table.pages.file → table.id = id := by
      intro id other present shared
      rw [← joins.own other (known id other present) shared]
      exact coherent.distinct.keyed id other present
    intro first second left right here there files
    rcases others first left here with ⟨rfl, rfl⟩ | here
    · rcases others second right there with ⟨rfl, rfl⟩ | there
      · rfl
      · exact shares second right there files.symm
    · rcases others second right there with ⟨rfl, rfl⟩ | there
      · exact (shares first left here files).symm
      · exact coherent.distinct.apart first second left right here there files

theorem countable_enroll (countable : table.pages.wholePages directory < UInt32.size) :
    (store.enroll table directory).Countable := by
  intro id other present
  rw [enroll, register, lookup_insert] at present
  split at present
  · next same =>
      cases present
      exact countable
  · next different =>
      have same := content_enroll known joins coherent present fun own => different own.symm
      have before := coherent.countable id other present
      rw [PageFile.wholePages, PageFile.size] at before ⊢
      change (directory.content other.pages.file).length / _ < _
      rw [same]
      exact before

theorem faithful_enroll {page : PageId} {cached : PageCopy} {other : Table}
    (present : store.tables[page.table]? = some other) (different : page.table ≠ table.id)
    (faithful : cached.Faithful other store.directory page) :
    cached.Faithful other directory page :=
  faithful.of_content (content_enroll known joins coherent present different)

theorem Coherent.enroll (uncached : store.Uncached table.id)
    (countable : table.pages.wholePages directory < UInt32.size) :
    (store.enroll table directory).Coherent := by
  constructor
  · exact distinct_enroll known joins coherent
  · exact countable_enroll known joins coherent countable
  · intro page cached present
    have different := uncached page cached present
    obtain ⟨other, registered, faithful⟩ := coherent.faithful page cached present
    refine ⟨other, ?_, faithful_enroll known joins coherent registered different faithful⟩
    rw [Store.enroll, register, lookup_insert, if_neg fun same => different same.symm]
    exact registered
  · exact coherent.bounded

end Enroll

end Store

namespace System

/-- A table replaces any other with its id, and scans of that one end. -/
def enroll (system : System) (table : Table) (directory : Directory) : System :=
  ⟨system.store.enroll table directory,
    fun name => (system.scans name).filter fun scan => scan.table.id != table.id⟩

inductive Reached : System → Prop where
  | start {directory : Directory} {capacity : Nat} {range : WaitRange} {preference : Preference} :
      directory.Orderly →
      Reached ⟨{ Store.start directory capacity range with preference := preference },
        fun _ => none⟩
  | step {system : System} (operation : Operation) :
      Reached system → (system.perform operation).2.store.Countable →
      Reached (system.perform operation).2
  | enroll {system : System} {table : Table} {directory : Directory} :
      Reached system → Table.Opening system.store.directory table directory →
      system.store.Uncached table.id → table.pages.wholePages directory < UInt32.size →
      Reached (system.enroll table directory)

structure Named (system : System) : Prop where
  coherent : system.Coherent
  consistent : system.store.locks.table.Consistent
  orderly : system.store.directory.Orderly
  known : ∀ (id : TableId) (table : Table), system.store.tables[id]? = some table →
    table.Known system.store.directory

variable {system : System} {table : Table} {directory : Directory}

theorem Named.start (directory : Directory) (capacity : Nat) (range : WaitRange)
    (preference : Preference) (orderly : directory.Orderly) :
    Named ⟨{ Store.start directory capacity range with preference := preference },
      fun _ => none⟩ := by
  have unknown : ∀ (id : TableId) (table : Table),
      (∅ : Std.ExtTreeMap TableId Table)[id]? ≠ some table := by
    intro id table present
    rw [Std.ExtTreeMap.getElem?_empty] at present
    cases present
  constructor
  · constructor
    · constructor
      · constructor
        · intro id table present
          exact absurd present (unknown id table)
        · intro first second left right present
          exact absurd present (unknown first left)
      · intro id table present
        exact absurd present (unknown id table)
      · intro page cached present
        change (∅ : Std.ExtTreeMap PageId PageCopy)[page]? = some cached at present
        rw [Std.ExtTreeMap.getElem?_empty] at present
        cases present
      · exact Nat.zero_le _
    · intro name scan found
      cases found
  · exact LockTable.Consistent.empty
  · exact orderly
  · intro id table present
    exact absurd present (unknown id table)

theorem Named.step (named : system.Named) (operation : Operation)
    (countable : (system.perform operation).2.store.Countable) :
    (system.perform operation).2.Named := by
  have follows := named.coherent.perform_of_countable operation countable
  have frames := system.bare.frames_perform operation
  have names := system.names_perform operation
  rw [← follows.bareIs] at frames
  constructor
  · exact follows.coherent
  · exact frames.consistent named.consistent
  · exact names.toSameNames.orderly named.orderly
  · intro id table present
    have tables : (system.perform operation).2.store.tables = system.store.tables := frames.tables
    rw [tables] at present
    exact (named.known id table present).of_same names.toSameNames

theorem Named.enroll (named : system.Named)
    (opening : Table.Opening system.store.directory table directory)
    (uncached : system.store.Uncached table.id)
    (countable : table.pages.wholePages directory < UInt32.size) :
    (system.enroll table directory).Named := by
  have joins := opening.joins named.orderly
  constructor
  · constructor
    · exact named.coherent.store.enroll named.known joins uncached countable
    · intro name scan found
      obtain ⟨before, other⟩ := Option.filter_eq_some_iff.mp found
      have different : table.id ≠ scan.table.id := fun same => bne_iff_ne.mp other same.symm
      change (system.store.tables.insert table.id table)[scan.table.id]? = some scan.table
      rw [lookup_insert, if_neg different]
      exact named.coherent.scans name scan before
  · exact named.consistent
  · exact joins.orderly
  · intro id other present
    change (system.store.tables.insert table.id table)[id]? = some other at present
    rw [lookup_insert] at present
    split at present
    · cases present
      exact joins.known
    · exact joins.others other (named.known id other present)

theorem Reached.named (reached : system.Reached) : system.Named := by
  induction reached with
  | @start directory capacity range preference orderly =>
      exact .start directory capacity range preference orderly
  | step operation earlier countable ih => exact ih.step operation countable
  | enroll earlier opening uncached countable ih => exact ih.enroll opening uncached countable

/-! ### A table that has just been created -/

section Created

variable {pageSize : Nat} {path : String} {schema : Schema}
  (named : system.Named) (idle : system.store.Idle)
  (created : Table.create system.store.directory pageSize path schema = (.ok table, directory))

include created

theorem wholePages_create : table.pages.wholePages directory = 0 := by
  obtain ⟨empty, -⟩ := Table.content_of_create created
  rw [PageFile.wholePages, PageFile.size, empty]
  exact Nat.zero_div _

include named idle

theorem Named.kept (uncached : system.store.Uncached table.id) :
    (system.enroll table directory).Kept := by
  have after := named.enroll (.created created) uncached
    (by rw [wholePages_create created]; exact Nat.two_pow_pos 32)
  refine ⟨after.coherent, ⟨(system.enroll table directory).store.bare.stored, fun _ => []⟩, ?_⟩
  constructor
  · exact after.consistent
  · rfl
  · intro page draft drafted
    have undrafted : (system.enroll table directory).store.bare.drafts[page]? = none :=
      idle.undrafted page
    rw [undrafted] at drafted
    cases drafted
  · intro transaction change member
    cases member

/-- No page of the table can be had, from the cache or from the file. -/
theorem Named.hidden (uncached : system.store.Uncached table.id) (transaction : TransactionId)
    {page : PageId} (own : page.table = table.id) (access : Access) (cached : PageCopy) :
    ((system.enroll table directory).store.getPage transaction page access).1 ≠ .ok cached := by
  have kept := named.kept idle created uncached
  have coherent := kept.coherent.store
  have present : (system.enroll table directory).store.tables[page.table]? = some table := by
    rw [own]
    exact Std.ExtTreeMap.getElem?_insert_self
  have outside : table.pages.wholePages directory ≤ page.number.toNat := by
    rw [wholePages_create created]
    exact Nat.zero_le _
  obtain ⟨failure, missing, -⟩ := coherent.written_outside present outside
  intro shown
  have answered := (coherent.getPage transaction page access).answered
  rw [shown] at answered
  rcases got : (system.enroll table directory).store.bare.getPage transaction page access with
    ⟨outcome, after⟩
  rw [got] at answered
  cases answered
  obtain ⟨-, fetched, -⟩ := Bare.getPage_ok got
  have undrafted : (system.enroll table directory).store.bare.drafts[page]? = none :=
    idle.undrafted page
  unfold Bare.fetch at fetched
  rw [undrafted] at fetched
  simp only at fetched
  split at fetched
  · cases fetched
  · split at fetched
    · cases fetched
    · change (system.enroll table directory).store.written page = _ at fetched
      rw [missing] at fetched
      cases fetched

omit created in
/-- A cached page of the former table is shown as a page of the new one. -/
theorem Named.getPage_cached (transaction : TransactionId) (access : Access) {page : PageId}
    {cached : PageCopy} (present : system.store.cache[page]? = some cached) :
    ((system.enroll table directory).store.getPage transaction page access).1 = .ok cached := by
  obtain ⟨locks, granted⟩ := LockService.acquire_alone page access.mode 0 named.consistent
    fun other _ => idle.modeOf_eq_none other page
  have same : (system.enroll table directory).store.locks = system.store.locks := rfl
  have still : (system.enroll table directory).store.cache[page]? = some cached := present
  rw [Store.getPage, Store.acquire, same, granted]
  simp only [Store.fetch, still]

end Created

end System

end RecordStore
