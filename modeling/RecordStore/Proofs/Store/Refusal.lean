import RecordStore.Proofs.Store.Ending
import RecordStore.Proofs.Store.Mirror
import RecordStore.Proofs.Store.Placement

set_option autoImplicit false

/-! Failed inserts and deletes. They may have locked, loaded and evicted pages, and an insert may
have appended one page of zeros; every page reads as before. -/

namespace RecordStore

structure Page.Alike (left right : Page) : Prop where
  content : left.encode = right.encode
  mark : left.dirtier = right.dirtier
  image : left.beforeImage = right.beforeImage

namespace Page.Alike

variable {first second third : Page}

theorem refl (page : Page) : page.Alike page := ⟨rfl, rfl, rfl⟩

theorem symm (alike : first.Alike second) : second.Alike first :=
  ⟨alike.content.symm, alike.mark.symm, alike.image.symm⟩

theorem trans (left : first.Alike second) (right : second.Alike third) : first.Alike third :=
  ⟨left.content.trans right.content, left.mark.trans right.mark, left.image.trans right.image⟩

end Page.Alike

namespace Store

variable {store after : Store} {transaction : TransactionId} {page : PageId} {cached : PageCopy}
  {table : Table} {row : Row}

/-! ### Visits and the cache -/

theorem lookup_evict_dirty (dirty : cached.isClean = false) :
    store.evict.2.cache[page]? = some cached ↔ store.cache[page]? = some cached := by
  rcases store.evict_cases with same | ⟨victim, other, present, evictable, same⟩
  · rw [same]
  · rw [same, lookup_discard]
    split
    · next chosen =>
        subst chosen
        refine ⟨(fun absent => by cases absent), fun found => ?_⟩
        rw [present] at found
        cases found
        rw [PageCopy.isEvictable, dirty, Bool.and_false] at evictable
        cases evictable
    · exact Iff.rfl

theorem lookup_room_dirty {roomy : Store} (made : store.makeRoom = (.ok (), roomy))
    (dirty : cached.isClean = false) :
    roomy.cache[page]? = some cached ↔ store.cache[page]? = some cached := by
  rcases room_cases made with rfl | rfl
  · exact Iff.rfl
  · exact lookup_evict_dirty dirty

/-- `Visits` keeps the dirty pages of the cache as they are. -/
theorem Visits.lookup_dirty (visits : Visits transaction store after)
    (dirty : cached.isClean = false) :
    after.cache[page]? = some cached ↔ store.cache[page]? = some cached := by
  induction visits with
  | still store => exact Iff.rfl
  | andThen earlier later first second => exact second.trans first
  | lock stronger => exact Iff.rfl
  | append known allocated => exact Iff.rfl
  | evict store => exact lookup_evict_dirty dirty
  | @read store roomy place table content absent known made read =>
      rw [lookup_install]
      split
      · next same =>
          subst same
          constructor
          · intro found
            cases found
            rw [PageCopy.isClean, Page.isDirty, Table.dirtier_of_readPage read] at dirty
            cases dirty
          · intro found
            rw [absent] at found
            cases found
      · exact (lookup_room_dirty made dirty : roomy.cache[page]? = some cached ↔ _)

theorem Visits.settled_iff (visits : Visits transaction store after) (page : PageId) :
    after.Settled page ↔ store.Settled page := by
  unfold Settled
  constructor
  · intro settled cached present
    by_contra dirty
    rw [Bool.not_eq_true] at dirty
    rw [settled cached ((visits.lookup_dirty dirty).mpr present)] at dirty
    cases dirty
  · intro settled cached present
    by_contra dirty
    rw [Bool.not_eq_true] at dirty
    rw [settled cached ((visits.lookup_dirty dirty).mp present)] at dirty
    cases dirty

/-! ### Pages that are not dirty -/

theorem Coherent.read_of_settled (coherent : store.Coherent) (settled : store.Settled page)
    {content : Page} (current : store.current? page = some content) :
    ∃ table found, store.tables[page.table]? = some table ∧
      table.readPage store.directory page = .ok found ∧ content.Alike found := by
  unfold current? at current
  cases present : store.cache[page]? with
  | none =>
      simp only [present] at current
      cases known : store.tables[page.table]? with
      | none => simp [known] at current
      | some table =>
          simp only [known] at current
          cases read : table.readPage store.directory page with
          | error failure => simp [read, Except.toOption] at current
          | ok found =>
              simp only [read, Except.toOption, Option.some.injEq] at current
              subst current
              exact ⟨table, found, rfl, read, .refl found⟩
  | some cached =>
      simp only [present] at current
      cases current
      obtain ⟨table, known, faithful⟩ := coherent.faithful page cached present
      obtain ⟨found, read, shown⟩ := faithful.readable
      obtain ⟨contents, bitmap⟩ := shown (settled cached present)
      obtain ⟨-, inside, loaded⟩ := Table.readPage_ok read
      have sound := loaded.sound
      rw [PageFile.length_bytesAt inside] at sound
      refine ⟨table, found, known, read, ?_, ?_, faithful.image.trans loaded.image.symm⟩
      · exact Page.encode_congr (faithful.sound.schemaIs.trans sound.schemaIs.symm)
          (faithful.sound.sizeIs.trans sound.sizeIs.symm) bitmap.symm contents.symm
      · rw [cached.isClean_iff.mp (settled cached present), Table.dirtier_of_readPage read]

theorem Coherent.current?_of_read (coherent : store.Coherent) (settled : store.Settled page)
    (known : store.tables[page.table]? = some table) {found : Page}
    (read : table.readPage store.directory page = .ok found) :
    ∃ content, store.current? page = some content ∧ content.Alike found := by
  obtain ⟨content, current⟩ : ∃ content, store.current? page = some content := by
    unfold current?
    cases present : store.cache[page]? with
    | none => exact ⟨found, by simp only [known, read, Except.toOption]⟩
    | some cached => exact ⟨cached.page, rfl⟩
  obtain ⟨other, again, alsoKnown, reread, alike⟩ := coherent.read_of_settled settled current
  rw [known] at alsoKnown
  cases alsoKnown
  rw [read] at reread
  cases reread
  exact ⟨content, current, alike⟩

/-! ### Pages that are spared -/

/-- Every page shows what it showed, the dirty pages are the same, and no lock is lost. -/
structure Spares (transaction : TransactionId) (before after : Store) : Prop where
  pages : ∀ (page : PageId) (content : Page), before.current? page = some content →
    ∃ later, after.current? page = some later ∧ later.Alike content
  dirty : ∀ (page : PageId) (cached : PageCopy), cached.isClean = false →
    (after.cache[page]? = some cached ↔ before.cache[page]? = some cached)
  locks : LockService.Strengthens transaction before.locks after.locks
  tables : after.tables = before.tables

theorem Visits.spares (visits : Visits transaction store after) (coherent : store.Coherent)
    (afterCoherent : after.Coherent)
    (reads : ∀ (page : PageId) (table : Table) (found : Page),
      store.tables[page.table]? = some table →
      table.readPage store.directory page = .ok found →
      table.readPage after.directory page = .ok found) :
    Spares transaction store after := by
  refine ⟨?_, fun page cached dirty => visits.lookup_dirty dirty, visits.strengthens,
    visits.tables_eq⟩
  intro page content current
  by_cases settled : store.Settled page
  · obtain ⟨table, found, known, read, alike⟩ := coherent.read_of_settled settled current
    have still : after.tables[page.table]? = some table := by
      rw [visits.tables_eq]
      exact known
    obtain ⟨later, shown, same⟩ := afterCoherent.current?_of_read
      ((visits.settled_iff page).mpr settled) still (reads page table found known read)
    exact ⟨later, shown, same.trans alike.symm⟩
  · -- the page is dirty, so what is found is the cached copy, which stays
    simp only [Settled, not_forall, Bool.not_eq_true] at settled
    obtain ⟨cached, present, dirty⟩ := settled
    have kept := (visits.lookup_dirty dirty).mpr present
    rw [current?, present] at current
    cases current
    refine ⟨cached.page, ?_, .refl cached.page⟩
    rw [current?, kept]

/-! ### Deleting -/

theorem Coherent.delete_refused (coherent : store.Coherent) {record : Option RecordId}
    {failure : Failure} (refused : store.delete transaction record = (.error failure, after)) :
    Spares transaction store after ∧ after.directory = store.directory := by
  have agrees := coherent.delete transaction record
  have deletes := store.deletes_delete transaction record
  have same := (store.files_delete transaction record).directoryIs
  rw [refused] at agrees deletes same
  cases deletes with
  | refused failure visits =>
      refine ⟨visits.spares coherent agrees.coherent fun _ _ _ _ read => ?_, same⟩
      rwa [show after.directory = store.directory from same]

/-! ### Inserting -/

/-- The transaction has locked every page of the table and found it full, and one page of zeros was
appended. -/
structure Lengthens (transaction : TransactionId) (table : Table) (before after : Store) :
    Prop where
  full : ∀ number, number < table.pages.wholePages before.directory →
    before.Full (table.page (UInt32.ofNat number)) ∧
      after.locks.modeOf transaction (table.page (UInt32.ofNat number)) = some .exclusive
  appended : after.directory = table.pages.put before.directory
    (table.pages.wholePages before.directory) (List.replicate table.pages.pageSize 0)

/-- `insert` leaves the files alone or appends one page. -/
theorem Coherent.insert_files (coherent : store.Coherent)
    (known : store.tables[table.id]? = some table)
    (small : table.pages.wholePages store.directory + 1 < UInt32.size)
    (transaction : TransactionId) (row : Row) :
    (store.insert transaction table.id row).2.2.directory = store.directory ∨
      table.Usable ∧ (store.insert transaction table.id row).2.2.directory =
        (store.grown table).directory := by
  cases counted : table.slotsPerPage with
  | error fault =>
      left
      rw [(files_insert known transaction row).directoryIs, Store.place, counted]
  | ok slots =>
      by_cases none : slots = 0
      · left
        rw [(files_insert known transaction row).directoryIs, Store.place, counted]
        simp only [if_pos none]
      · by_cases agrees : row.schema.agrees table.schema = true
        · obtain ⟨somewhere, nowhere⟩ :=
            coherent.directory_insert known counted none agrees small transaction
          by_cases full :
              (store.bare.seek table transaction 0 (store.bare.counts table.id)).1 = .ok .none
          · exact .inr ⟨(Table.usable_of_slotsPerPage counted none).1, nowhere full⟩
          · exact .inl (somewhere full)
        · left
          rw [Bool.not_eq_true] at agrees
          rw [(files_insert known transaction row).directoryIs, Store.place, counted]
          simp only [if_neg none, agrees, Bool.not_false, if_true]

/-- A page that can be read is read the same after the append. -/
theorem Coherent.readPage_grown (coherent : store.Coherent)
    (known : store.tables[table.id]? = some table) (usable : table.Usable)
    (small : table.pages.wholePages store.directory + 1 < UInt32.size) {other : Table}
    {found : Page} (otherKnown : store.tables[page.table]? = some other)
    (read : other.readPage store.directory page = .ok found) :
    other.readPage (store.grown table).directory page = .ok found := by
  have puttable : Puttable store table (table.pages.wholePages store.directory)
      (List.replicate table.pages.pageSize 0) :=
    ⟨known, usable, List.length_replicate, Nat.le_refl _, small⟩
  refine (readPage_withPut coherent.distinct coherent.countable puttable otherKnown ?_).trans read
  rintro ⟨same, last⟩
  rw [same, known] at otherKnown
  cases otherKnown
  obtain ⟨-, inside, -⟩ := Table.readPage_ok read
  omega

theorem Coherent.lengthens_of_grown {failure : Failure} (coherent : store.Coherent)
    (known : store.tables[table.id]? = some table) (tables : after.tables = store.tables)
    (usable : table.Usable) (small : table.pages.wholePages store.directory + 1 < UInt32.size)
    (failed : store.bare.insert transaction table.id row = (.error failure, after.bare))
    (grown : after.directory = (store.grown table).directory) :
    Lengthens transaction table store after := by
  refine ⟨?_, grown⟩
  have puttable : Puttable store table (table.pages.wholePages store.directory)
      (List.replicate table.pages.pageSize 0) :=
    ⟨known, usable, List.length_replicate, Nat.le_refl _, small⟩
  have whole : store.bare.counts table.id = table.pages.wholePages store.directory :=
    counts_of_table known
  have counts : after.bare.counts table.id = store.bare.counts table.id + 1 := by
    have still : after.tables[table.id]? = some table := by
      rw [tables]
      exact known
    rw [whole, show after.bare.counts table.id = _ from counts_of_table still, grown]
    exact (wholePages_withPut puttable).trans (Nat.max_eq_right (Nat.le_succ _))
  rcases Bare.insert_error failed with locks | ⟨other, otherKnown, -, passed, -⟩
  · -- then no page would have been appended
    rw [locks.counts_eq] at counts
    omega
  · obtain rfl : table = other := Option.some.inj (known.symm.trans otherKnown)
    intro number below
    obtain ⟨alone, slots, fetched, none⟩ := passed number (whole ▸ below)
    exact ⟨(coherent.full_iff _).mpr ⟨slots, Bare.contents?_of_fetch fetched, none⟩, alone⟩

theorem Coherent.insert_refused {id : TableId} {failure : Failure} {placed : Row}
    (coherent : store.Coherent)
    (uncrowded : ∀ table, store.tables[id]? = some table →
      table.pages.wholePages store.directory + 1 < UInt32.size)
    (refused : store.insert transaction id row = (.error failure, placed, after)) :
    placed = row ∧ Spares transaction store after ∧
      (after.directory = store.directory ∨ ∃ table, store.tables[id]? = some table ∧
        Lengthens transaction table store after) := by
  have agrees := coherent.insert transaction id row fun table known _ => uncrowded table known
  have inserts := store.inserts_insert transaction id row
  rw [refused] at agrees inserts
  cases inserts with
  | refused failure visits =>
      refine ⟨rfl, ?_⟩
      cases known : store.tables[id]? with
      | none =>
          have same : store.insert transaction id row =
              (.error (.refused (.unknownTable id)), row, store) := by
            rw [Store.insert, table?, known]
          rw [refused] at same
          cases same
          exact ⟨visits.spares coherent coherent fun _ _ _ _ read => read, .inl rfl⟩
      | some table =>
          obtain rfl : table.id = id := coherent.distinct.keyed _ _ known
          have small := uncrowded table known
          have files := coherent.insert_files known small transaction row
          rw [refused] at files
          rcases files with same | ⟨usable, grown⟩
          · change after.directory = store.directory at same
            refine ⟨visits.spares coherent agrees.coherent fun _ _ _ _ read => ?_, .inl same⟩
            rwa [same]
          · change after.directory = (store.grown table).directory at grown
            refine ⟨visits.spares coherent agrees.coherent ?_, .inr ⟨table, rfl, ?_⟩⟩
            · intro page other found otherKnown read
              rw [grown]
              exact coherent.readPage_grown known usable small otherKnown read
            · exact coherent.lengthens_of_grown known visits.tables_eq usable small
                (Prod.ext agrees.answered.symm agrees.bareIs.symm) grown

end Store

namespace System

/-- After any `Untampered` actions, an `insert` or `delete` that fails leaves every page as it was,
cached or not, loses no lock, and returns the row as it was given. Only an insert that found every
page full may have appended a page of zeros. -/
theorem failed_changes_leave_no_trace {directory : Directory} {capacity : Nat} {range : WaitRange}
    {preference : Preference} {system : System}
    (course : Course (fun system action =>
      action.Untampered system ∧ (system.act action).store.Countable)
      (untouched directory capacity range preference) system)
    (uncrowded : ∀ (id : TableId) (table : Table), system.store.tables[id]? = some table →
      table.pages.wholePages system.store.directory + 1 < UInt32.size) :
    (∀ (transaction : TransactionId) (id : TableId) (row placed : Row) (failure : Failure)
      (after : Store),
      system.store.insert transaction id row = (.error failure, placed, after) →
      placed = row ∧ Store.Spares transaction system.store after ∧
        (after.directory = system.store.directory ∨ ∃ table,
          system.store.tables[id]? = some table ∧
          Store.Lengthens transaction table system.store after)) ∧
    ∀ (transaction : TransactionId) (record : Option RecordId) (failure : Failure) (after : Store),
      system.store.delete transaction record = (.error failure, after) →
      Store.Spares transaction system.store after ∧
        after.directory = system.store.directory := by
  have coherent :=
    (course.coherent (untouched_fresh directory capacity range preference).coherent).store
  constructor
  · intro transaction id row placed failure after refused
    exact coherent.insert_refused (uncrowded id) refused
  · intro transaction record failure after refused
    exact coherent.delete_refused refused

/-- With a capacity of one and its page dirty, a second number gets a page of its own that cannot be
loaded. -/
theorem failed_changes_leave_no_trace_small :
    ∃ (system : System) (after : Store),
      Course (fun system action =>
        action.Untampered system ∧ (system.act action).store.Countable)
        (untouched small.store.directory 1 .standard fun _ _ => 0) system ∧
      system.store.insert ⟨1⟩ ⟨7⟩ (numberRow 6) =
        (.error (.refused (.cacheFull 1)), numberRow 6, after) ∧
      Store.Spares ⟨1⟩ system.store after ∧ Store.Lengthens ⟨1⟩ numbers system.store after ∧
      numbers.pages.wholePages system.store.directory = 1 ∧
      numbers.pages.wholePages after.directory = 2 := by
  have course := Course.step (.register numbers)
    (.start : Course (fun system action =>
      action.Untampered system ∧ (system.act action).store.Countable)
      (untouched small.store.directory 1 .standard fun _ _ => 0) _)
    ⟨⟨rfl, fun id other known => absurd known (untouched_unknown _ _ _ _ id other)⟩,
      Store.countable_single rfl (by decide +kernel)⟩
  have course := course.step (.operation (.insert ⟨1⟩ ⟨7⟩ (numberRow 5)))
    ⟨trivial, Store.countable_single rfl (by decide +kernel)⟩
  obtain ⟨inserts, -⟩ := failed_changes_leave_no_trace course fun id table known => by
    cases Store.known_single rfl known
    decide +kernel
  obtain ⟨-, spares, same | ⟨table, known, lengthens⟩⟩ :=
    inserts ⟨1⟩ ⟨7⟩ (numberRow 6) _ _ _ rfl
  · exact absurd (congrArg numbers.pages.wholePages same) (by decide +kernel)
  · cases known.symm.trans Std.ExtTreeMap.getElem?_insert_self
    exact ⟨_, _, course, rfl, spares, lengthens, by decide +kernel, by decide +kernel⟩

end System

end RecordStore
