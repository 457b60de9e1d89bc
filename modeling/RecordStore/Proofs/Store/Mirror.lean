import RecordStore.Proofs.Page.Reading
import RecordStore.Proofs.Store.Action
import RecordStore.Proofs.Store.Run

set_option autoImplicit false

/-! The cache mirrors the files. If copies and files are changed by operations only, every table is
registered once and pages can be counted, then every cached page is in its file with its
before-image, and a clean copy has the encoding of the page that these bytes decode to. The bytes
may differ from it in free slots. -/

namespace RecordStore

/-- Copies are changed by operations only, and the files of registered tables by the store only. A
table is registered once, with a file of its own. -/
def Action.Untampered (system : System) : Action → Prop
  | .register table =>
      system.store.tables[table.id]? = none ∧
        ∀ (id : TableId) (other : Table), system.store.tables[id]? = some other →
          other.pages.file ≠ table.pages.file
  | .disturb directory =>
      ∀ (id : TableId) (table : Table), system.store.tables[id]? = some table →
        directory.content table.pages.file = system.store.directory.content table.pages.file
  | .revise _ _ | .reinstall _ _ _ => False
  | _ => True

/-- The page is in its file, its before-image equals its bytes there, and a clean copy is encoded as
these decode. -/
structure PageCopy.Mirrors (cached : PageCopy) (table : Table) (directory : Directory)
    (page : PageId) : Prop where
  inside : ∃ count, table.pageCount directory = .ok count ∧ page.number < count
  image : table.pages.read directory page.number table.pageSize = .ok cached.page.beforeImage
  clean : cached.isClean = true → ∃ found,
    Page.decode page table.schema cached.page.beforeImage = .ok found ∧
      cached.page.encode = found.encode

theorem PageCopy.Faithful.mirrors {cached : PageCopy} {table : Table} {directory : Directory}
    {page : PageId} (faithful : cached.Faithful table directory page)
    (countable : table.pages.wholePages directory < UInt32.size) :
    cached.Mirrors table directory page := by
  obtain ⟨found, read, shown⟩ := faithful.readable
  have usable := Table.usable_of_readPage read
  obtain ⟨-, inside, loaded⟩ := Table.readPage_ok read
  obtain ⟨bytes, content, decoded⟩ := Table.decoded_of_readPage read
  have image : bytes = cached.page.beforeImage := by
    rw [faithful.image, ← loaded.image, (Page.loaded_of_decode decoded).image]
  rw [image] at content decoded
  refine ⟨⟨_, PageFile.count_eq usable.positive, ?_⟩, content, fun clean => ⟨found, decoded, ?_⟩⟩
  · rw [UInt32.lt_iff_toNat_lt, UInt32.toNat_ofNat_of_lt' countable]
    exact inside
  · obtain ⟨contents, bitmap⟩ := shown clean
    have sound := loaded.sound
    rw [PageFile.length_bytesAt inside] at sound
    exact Page.encode_congr (faithful.sound.schemaIs.trans sound.schemaIs.symm)
      (faithful.sound.sizeIs.trans sound.sizeIs.symm) bitmap.symm contents.symm

namespace Store

variable {store : Store} {table : Table}

theorem Distinct.withTable {tables : Std.ExtTreeMap TableId Table} (distinct : Distinct tables)
    (own : ∀ (id : TableId) (other : Table), id ≠ table.id → tables[id]? = some other →
      other.pages.file ≠ table.pages.file) : Distinct (tables.insert table.id table) := by
  constructor
  · intro id other present
    rw [lookup_insert] at present
    split at present
    · next same =>
        cases present
        exact same
    · exact distinct.keyed id other present
  · intro first second left right here there files
    rw [lookup_insert] at here there
    split at here
    · next firstIs =>
        cases here
        split at there
        · next secondIs => exact firstIs.symm.trans secondIs
        · next apart => exact absurd files.symm (own second right (Ne.symm apart) there)
    · next apart =>
        split at there
        · cases there
          exact absurd files (own first left (Ne.symm apart) here)
        · exact distinct.apart first second left right here there files

theorem Coherent.withTable (coherent : store.Coherent)
    (unknown : store.tables[table.id]? = none)
    (own : ∀ (id : TableId) (other : Table), store.tables[id]? = some other →
      other.pages.file ≠ table.pages.file)
    (countable : (store.register table).Countable) : (store.register table).Coherent := by
  refine ⟨coherent.distinct.withTable fun id other _ => own id other, countable, ?_,
    coherent.bounded⟩
  intro page cached present
  obtain ⟨other, known, faithful⟩ := coherent.faithful page cached present
  refine ⟨other, ?_, faithful⟩
  rw [Store.register, lookup_insert, if_neg]
  · exact known
  · intro same
    rw [← same, unknown] at known
    cases known

theorem Coherent.withDirectory (coherent : store.Coherent) {directory : Directory}
    (untouched : ∀ (id : TableId) (table : Table), store.tables[id]? = some table →
      directory.content table.pages.file = store.directory.content table.pages.file)
    (countable : ({ store with directory := directory } : Store).Countable) :
    ({ store with directory := directory } : Store).Coherent := by
  refine ⟨coherent.distinct, countable, ?_, coherent.bounded⟩
  intro page cached present
  obtain ⟨table, known, faithful⟩ := coherent.faithful page cached present
  exact ⟨table, known, faithful.of_content (untouched page.table table known)⟩

end Store

namespace System

variable {system start : System}

theorem Coherent.act (coherent : system.Coherent) (action : Action)
    (untampered : action.Untampered system) (countable : (system.act action).store.Countable) :
    (system.act action).Coherent := by
  cases action with
  | operation operation =>
      exact (coherent.perform_of_countable operation countable).coherent
  | lock call => exact coherent.withStore (coherent.store.withLocks _) rfl
  | fetch page =>
      have fetched := coherent.store.fetch page
      exact coherent.withStore fetched.coherent fetched.files.tablesAre
  | register table =>
      obtain ⟨unknown, own⟩ := untampered
      refine ⟨coherent.store.withTable unknown own countable, fun name scan found => ?_⟩
      have known := coherent.scans name scan found
      change (system.store.tables.insert table.id table)[scan.table.id]? = some scan.table
      rw [lookup_insert, if_neg]
      · exact known
      · intro same
        rw [← same, unknown] at known
        cases known
  | revise page changed => exact untampered.elim
  | reinstall transaction page changed => exact untampered.elim
  | disturb directory =>
      exact coherent.withStore (coherent.store.withDirectory untampered countable) rfl

theorem untouched_unknown (directory : Directory) (capacity : Nat) (range : WaitRange)
    (preference : Preference) (id : TableId) (table : Table) :
    (untouched directory capacity range preference).store.tables[id]? ≠ some table := by
  change (∅ : Std.ExtTreeMap TableId Table)[id]? ≠ some table
  rw [Std.ExtTreeMap.getElem?_empty]
  exact nofun

theorem untouched_fresh (directory : Directory) (capacity : Nat) (range : WaitRange)
    (preference : Preference) : (untouched directory capacity range preference).Fresh := by
  have unknown := untouched_unknown directory capacity range preference
  refine ⟨⟨?_, ?_⟩, ?_, rfl, ⟨rfl, rfl⟩, fun _ => rfl⟩
  · intro id table known
    exact absurd known (unknown id table)
  · intro first second left right known
    exact absurd known (unknown first left)
  · intro id table known
    exact absurd known (unknown id table)

theorem Course.coherent
    (course : Course (fun system action =>
      action.Untampered system ∧ (system.act action).store.Countable) start system)
    (coherent : start.Coherent) : system.Coherent := by
  induction course with
  | start => exact coherent
  | step action earlier allowed ih => exact ih.act action allowed.1 allowed.2

/-- After any whole operations, with steps of waiting for locks in between, every cached page
mirrors its file. Inserts, deletes and flushes are single steps here; their inner steps `revise` and
`reinstall` are not `Untampered`. -/
theorem cached_pages_mirror_files {directory : Directory} {capacity : Nat} {range : WaitRange}
    {preference : Preference}
    (course : Course (fun system action =>
      action.Untampered system ∧ (system.act action).store.Countable)
      (untouched directory capacity range preference) system) :
    ∀ (page : PageId) (cached : PageCopy), system.store.cache[page]? = some cached →
      ∃ table, system.store.tables[page.table]? = some table ∧
        cached.Mirrors table system.store.directory page := by
  have coherent :=
    (course.coherent (untouched_fresh directory capacity range preference).coherent).store
  intro page cached present
  obtain ⟨table, known, faithful⟩ := coherent.faithful page cached present
  exact ⟨table, known, faithful.mirrors (coherent.countable page.table table known)⟩

/-- A page that was written is clean, the next one is dirty, and both mirror the file. -/
theorem cached_pages_mirror_files_small :
    ∃ system : System,
      Course (fun system action =>
        action.Untampered system ∧ (system.act action).store.Countable)
        (untouched small.store.directory 2 .standard fun _ _ => 0) system ∧
      (∀ (page : PageId) (cached : PageCopy), system.store.cache[page]? = some cached →
        ∃ table, system.store.tables[page.table]? = some table ∧
          cached.Mirrors table system.store.directory page) ∧
      system.store.cache[numbers.page 0]?.map PageCopy.isClean = some true ∧
      system.store.cache[numbers.page 1]?.map PageCopy.isClean = some false := by
  have course := Course.step (.register numbers)
    (.start : Course (fun system action =>
      action.Untampered system ∧ (system.act action).store.Countable)
      (untouched small.store.directory 2 .standard fun _ _ => 0) _)
    ⟨⟨rfl, fun id other known => absurd known (untouched_unknown _ _ _ _ id other)⟩,
      Store.countable_single rfl (by decide +kernel)⟩
  have course := course.step
    (.operation (.insert ⟨1⟩ ⟨7⟩ ⟨numbers.schema, [.int 5], none, rfl⟩))
    ⟨trivial, Store.countable_single rfl (by decide +kernel)⟩
  have course := course.step (.lock (.ask ⟨2⟩ (numbers.page 0) .shared 0))
    ⟨trivial, Store.countable_single rfl (by decide +kernel)⟩
  have course := course.step (.operation (.commit ⟨1⟩))
    ⟨trivial, Store.countable_single rfl (by decide +kernel)⟩
  have course := course.step
    (.operation (.insert ⟨3⟩ ⟨7⟩ ⟨numbers.schema, [.int 6], none, rfl⟩))
    ⟨trivial, Store.countable_single rfl (by decide +kernel)⟩
  exact ⟨_, course, cached_pages_mirror_files course, rfl, rfl⟩

end System

end RecordStore
