import RecordStore.Proofs.Store.Deeds
import RecordStore.Proofs.Store.Mirror

set_option autoImplicit false

/-! Cached pages that agree with their files, for files of any length. With more pages than page
numbers `count` is reduced modulo `UInt32.size`. As long as no file grows to that many pages, cached
pages stay counted and keep agreeing with their files. -/

namespace RecordStore

namespace PageFile

variable {pages : PageFile} {directory after : Directory} {number : UInt32} {bytes : List UInt8}

theorem bytesAt_write_other {other : Nat}
    (written : pages.write directory number bytes = .ok after)
    (whole : number.toNat ≤ pages.wholePages directory) (different : other ≠ number.toNat) :
    pages.bytesAt after other = pages.bytesAt directory other := by
  obtain ⟨sized, rfl⟩ := write_ok_iff.mp written
  exact bytesAt_put_other sized whole different

/-- Writing at or below the count leaves the pages below the count counted. -/
theorem lt_count_write {other : UInt32} (positive : pages.pageSize ≠ 0)
    (written : pages.write directory number bytes = .ok after)
    (counted : pages.wholePages directory < UInt32.size → pages.wholePages after < UInt32.size)
    (inside : other < UInt32.ofNat (pages.wholePages directory)) :
    other < UInt32.ofNat (pages.wholePages after) := by
  have more := wholePages_write positive written
  by_cases small : pages.wholePages directory < UInt32.size
  · have below := toNat_lt_of_lt_count inside
    rw [UInt32.lt_iff_toNat_lt, UInt32.toNat_ofNat_of_lt' (counted small), more]
    omega
  · have limit := number.toNat_lt
    have same : pages.wholePages after = pages.wholePages directory := by
      rw [more]
      simp only [UInt32.size] at small
      omega
    rwa [same]

end PageFile

namespace PageCopy.Faithful

variable {cached : PageCopy} {table : Table} {directory other : Directory} {page : PageId}

theorem counted (faithful : cached.Faithful table directory page) :
    page.number < UInt32.ofNat (table.pages.wholePages directory) := by
  obtain ⟨found, read, -⟩ := faithful.readable
  exact (Table.readPage_ok_iff.mp read).2.2.1

theorem owned (faithful : cached.Faithful table directory page) : page.table = table.id := by
  obtain ⟨found, read, -⟩ := faithful.readable
  exact (Table.readPage_ok_iff.mp read).1

theorem usable (faithful : cached.Faithful table directory page) : table.Usable := by
  obtain ⟨found, read, -⟩ := faithful.readable
  exact Table.usable_of_readPage read

/-- `Faithful` depends on the bytes of the page, as long as it is counted. -/
theorem of_bytes (faithful : cached.Faithful table directory page)
    (inside : page.number < UInt32.ofNat (table.pages.wholePages other))
    (same : table.pages.bytesAt other page.number.toNat =
      table.pages.bytesAt directory page.number.toNat) :
    cached.Faithful table other page := by
  obtain ⟨found, read, shown⟩ := faithful.readable
  obtain ⟨owned, usable, -, decoded⟩ := Table.readPage_ok_iff.mp read
  rw [← same] at decoded
  exact ⟨faithful.idIs, faithful.unlatched, faithful.sound,
    PageFile.toNat_lt_of_lt_count inside, faithful.image.trans same.symm, found,
    Table.readPage_ok_iff.mpr ⟨owned, usable, inside, decoded⟩, shown⟩

theorem marked (faithful : cached.Faithful table directory page) {content : Page}
    (revises : cached.page.Revises content) (transaction : TransactionId) :
    (Store.markedCopy cached content transaction).Faithful table directory page := by
  obtain ⟨found, read, -⟩ := faithful.readable
  exact ⟨revises.id_eq.trans faithful.idIs, faithful.unlatched,
    (revises.sound faithful.sound).marked _, faithful.inside,
    revises.image_eq.trans faithful.image, found, read, fun clean => by cases clean⟩

/-- A copy that was flushed is faithful to the bytes it was written as. -/
theorem flushed {after : Directory} (faithful : cached.Faithful table directory page)
    (written : table.pages.write directory page.number cached.page.encode = .ok after)
    (counted : table.pages.wholePages directory < UInt32.size →
      table.pages.wholePages after < UInt32.size) :
    cached.flushed.Faithful table after page := by
  have bytes := PageFile.bytesAt_write_same written
  have inside :=
    PageFile.lt_count_write faithful.usable.positive written counted faithful.counted
  obtain ⟨found, decoded, contents, bitmap⟩ := faithful.sound.decode_encode page
  refine ⟨faithful.idIs, faithful.unlatched, (faithful.sound.marked none).remembered,
    PageFile.toNat_lt_of_lt_count inside, bytes.symm, found, ?_, fun _ => ⟨contents, bitmap⟩⟩
  rw [Table.readPage_ok_iff, bytes]
  exact ⟨faithful.owned, faithful.usable, inside, decoded⟩

end PageCopy.Faithful

namespace Store

/-- Every cached copy is `Faithful` to the file of its table. -/
structure Backed (store : Store) : Prop where
  distinct : Distinct store.tables
  faithful : ∀ (page : PageId) (cached : PageCopy), store.cache[page]? = some cached →
    ∃ table, store.tables[page.table]? = some table ∧
      cached.Faithful table store.directory page

/-- No file of fewer than `UInt32.size` pages comes to have as many. -/
def StaysCountable (before after : Store) : Prop :=
  ∀ (id : TableId) (table : Table), before.tables[id]? = some table →
    table.pages.wholePages before.directory < UInt32.size →
    table.pages.wholePages after.directory < UInt32.size

variable {store after : Store} {transaction : TransactionId} {page : PageId} {table : Table}
  {cached : PageCopy}

namespace StaysCountable

variable {first second third : Store}

theorem of_countable (same : second.tables = first.tables) (countable : second.Countable) :
    StaysCountable first second := by
  intro id table known _
  rw [← same] at known
  exact countable id table known

/-- A bound on the pages at the end held at every earlier point, as files do not shrink. -/
theorem earlier (stays : StaysCountable first third) (deeds : Deeds second third) :
    StaysCountable first second := by
  intro id table known small
  exact Nat.lt_of_le_of_lt (Nat.div_le_div_right (deeds.shorter table.pages.file))
    (stays id table known small)

theorem later (stays : StaysCountable first third) (deeds : Deeds first second) :
    StaysCountable second third := by
  intro id table known small
  rw [deeds.tables_eq] at known
  exact stays id table known
    (Nat.lt_of_le_of_lt (Nat.div_le_div_right (deeds.shorter table.pages.file)) small)

end StaysCountable

namespace Backed

theorem withTable (backed : store.Backed) (unknown : store.tables[table.id]? = none)
    (own : ∀ (id : TableId) (other : Table), store.tables[id]? = some other →
      other.pages.file ≠ table.pages.file) : (store.register table).Backed := by
  refine ⟨backed.distinct.withTable fun id other _ => own id other, fun page cached present => ?_⟩
  obtain ⟨other, known, faithful⟩ := backed.faithful page cached present
  refine ⟨other, ?_, faithful⟩
  rw [Store.register, lookup_insert, if_neg]
  · exact known
  · intro same
    rw [← same, unknown] at known
    cases known

theorem withDirectory (backed : store.Backed) {directory : Directory}
    (same : ∀ (id : TableId) (table : Table), store.tables[id]? = some table →
      directory.content table.pages.file = store.directory.content table.pages.file) :
    ({ store with directory := directory } : Store).Backed := by
  refine ⟨backed.distinct, fun page cached present => ?_⟩
  obtain ⟨table, known, faithful⟩ := backed.faithful page cached present
  exact ⟨table, known, faithful.of_content (same page.table table known)⟩

theorem discard (backed : store.Backed) (page : PageId) : (store.discard page).Backed := by
  refine ⟨backed.distinct, fun other cached present => ?_⟩
  rw [lookup_discard] at present
  split at present
  · cases present
  · exact backed.faithful other cached present

theorem evict (backed : store.Backed) : store.evict.2.Backed := by
  rcases store.evict_cases with same | ⟨victim, cached, -, -, same⟩
  · rw [same]
    exact backed
  · rw [same]
    exact backed.discard victim

theorem install (backed : store.Backed) (known : store.tables[page.table]? = some table)
    (faithful : cached.Faithful table store.directory page) :
    (store.install page cached).Backed := by
  refine ⟨backed.distinct, fun other copy present => ?_⟩
  rw [lookup_install] at present
  split at present
  · next same =>
      subst same
      cases present
      exact ⟨table, known, faithful⟩
  · exact backed.faithful other copy present

theorem faithful_write (backed : store.Backed) {id : TableId}
    (known : store.tables[id]? = some table) {number : UInt32} {bytes : List UInt8}
    {directory : Directory} (positive : table.pages.pageSize ≠ 0)
    (written : table.pages.write store.directory number bytes = .ok directory)
    (whole : number.toNat ≤ table.pages.wholePages store.directory)
    (counted : table.pages.wholePages store.directory < UInt32.size →
      table.pages.wholePages directory < UInt32.size)
    (present : store.cache[page]? = some cached) (different : page ≠ table.page number) :
    ∃ other, store.tables[page.table]? = some other ∧ cached.Faithful other directory page := by
  obtain ⟨other, otherKnown, faithful⟩ := backed.faithful page cached present
  refine ⟨other, otherKnown, ?_⟩
  by_cases same : page.table = id
  · rw [same, known] at otherKnown
    cases otherKnown
    have apart : page.number ≠ number := by
      intro here
      exact different (congrArg₂ PageId.mk faithful.owned here)
    refine faithful.of_bytes
      (PageFile.lt_count_write positive written counted faithful.counted) ?_
    exact PageFile.bytesAt_write_other written whole fun equal => apart (UInt32.toNat_inj.mp equal)
  · have files : table.pages.file ≠ other.pages.file :=
      fun equal => same (backed.distinct.apart _ _ _ _ known otherKnown equal).symm
    exact faithful.of_content (PageFile.content_write_other written files)

theorem append (backed : store.Backed) {id : TableId} (known : store.tables[id]? = some table)
    {number : UInt32} {directory : Directory}
    (allocated : table.pages.allocate store.directory = .ok (number, directory))
    (stays : StaysCountable store { store with directory := directory }) :
    ({ store with directory := directory } : Store).Backed := by
  obtain ⟨positive, next, written⟩ := PageFile.write_of_allocate allocated
  have whole : number.toNat ≤ table.pages.wholePages store.directory := by
    rw [next, UInt32.toNat_ofNat']
    exact Nat.mod_le _ _
  refine ⟨backed.distinct, fun page cached present => ?_⟩
  refine backed.faithful_write known positive written whole (stays id table known) present ?_
  -- the page that comes next is not counted yet, and so not cached
  intro same
  obtain ⟨other, otherKnown, faithful⟩ := backed.faithful page cached present
  have counted := faithful.counted
  have keyed := backed.distinct.keyed id table known
  rw [same] at otherKnown
  change store.tables[table.id]? = some other at otherKnown
  rw [keyed, known] at otherKnown
  cases otherKnown
  rw [same, ← next] at counted
  exact absurd counted (UInt32.lt_irrefl number)

theorem visits (visits : Visits transaction store after) (backed : store.Backed)
    (stays : StaysCountable store after) : after.Backed := by
  induction visits with
  | still store => exact backed
  | andThen earlier later first second =>
      exact second (first backed (stays.earlier (.visit later))) (stays.later (.visit earlier))
  | lock stronger => exact ⟨backed.distinct, backed.faithful⟩
  | append known allocated => exact backed.append known allocated stays
  | evict store => exact backed.evict
  | @read store roomy page table content absent known made read =>
      have room : roomy.Backed := by
        rcases room_cases made with rfl | rfl
        · exact backed
        · exact backed.evict
      have files := store.files_makeRoom
      rw [made] at files
      have counted : ({ roomy with nextSerial := roomy.nextSerial + 1 } : Store).Backed :=
        ⟨room.distinct, room.faithful⟩
      refine counted.install ?_ (faithful_of_readPage read roomy.nextSerial)
      exact (congrArg (fun tables => tables[page.table]?) files.tablesAre).trans known

theorem flush (backed : store.Backed) (present : store.cache[page]? = some cached)
    (flushed : store.flush page cached = .ok after) (stays : StaysCountable store after) :
    after.Backed := by
  obtain ⟨table, known, faithful⟩ := backed.faithful page cached present
  rcases flush_ok flushed with ⟨-, rfl⟩ | ⟨-, other, directory, otherKnown, owned, written, rfl⟩
  · exact backed
  · rw [faithful.idIs] at otherKnown owned written
    obtain rfl : table = other := Option.some.inj (known.symm.trans otherKnown)
    have counted := stays page.table table known
    refine ⟨backed.distinct, fun other copy found => ?_⟩
    rw [lookup_install] at found
    split at found
    · next same =>
        subst same
        cases found
        exact ⟨table, known, faithful.flushed written counted⟩
    · next different =>
        refine backed.faithful_write known faithful.usable.positive written
          (Nat.le_of_lt faithful.inside) counted found fun same => different ?_
        rw [same]
        exact congrArg (PageId.mk · page.number) owned

theorem deeds (deeds : Deeds store after) (backed : store.Backed)
    (stays : StaysCountable store after) : after.Backed := by
  induction deeds with
  | still store => exact backed
  | andThen earlier later first second =>
      exact second (first backed (stays.earlier later)) (stays.later earlier)
  | visit visits => exact backed.visits visits stays
  | @change store transaction page cached content writable revises =>
      obtain ⟨table, known, faithful⟩ := backed.faithful page cached writable.present
      exact backed.install known (faithful.marked revises transaction)
  | write present flushed => exact backed.flush present flushed stays
  | drop store page => exact backed.discard page
  | relock store locks => exact ⟨backed.distinct, backed.faithful⟩
  | begin store => exact ⟨backed.distinct, backed.faithful⟩

theorem act {system : System} (backed : system.store.Backed) (action : Action)
    (untampered : action.Untampered system)
    (stays : StaysCountable system.store (system.act action).store) :
    (system.act action).store.Backed := by
  cases action with
  | operation operation => exact backed.deeds (system.deeds_perform operation) stays
  | lock call => exact ⟨backed.distinct, backed.faithful⟩
  | fetch page =>
      exact backed.visits (system.store.visits_fetch TransactionId.first page) stays
  | register table => exact backed.withTable untampered.1 untampered.2
  | revise page changed => exact untampered.elim
  | reinstall transaction page changed => exact untampered.elim
  | disturb directory => exact backed.withDirectory untampered

theorem untouched (directory : Directory) (capacity : Nat) (range : WaitRange)
    (preference : Preference) :
    (System.untouched directory capacity range preference).store.Backed := by
  have fresh := System.untouched_fresh directory capacity range preference
  exact ⟨fresh.distinct, fresh.coherent.store.faithful⟩

end Backed

end Store

theorem System.Course.backed {start system : System}
    (course : Course (fun system action =>
      action.Untampered system ∧ Store.StaysCountable system.store (system.act action).store)
      start system) (backed : start.store.Backed) : system.store.Backed := by
  induction course with
  | start => exact backed
  | step action earlier allowed ih => exact ih.act action allowed.1 allowed.2

end RecordStore
