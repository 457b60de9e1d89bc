import RecordStore.Proofs.Disk.Allocation
import RecordStore.Proofs.Store.AtRest
import RecordStore.Proofs.Store.Custody
import RecordStore.Proofs.Store.Refusal

set_option autoImplicit false

/-! Files with `UInt32.size` pages. A table with one slot a page can be filled to any number of
pages below that. The insert that appends page `UInt32.size - 1` fails, as `count` is zero
afterwards and no page can be read, and the next insert writes its page of zeros over page 0. -/

namespace RecordStore

namespace Bare

variable {bare base middle after : Bare} {writer : TransactionId} {table : Table} {row : Row}
  {count number : Nat} {page : PageId} {values : List Value}

/-- No other transaction holds a lock, and each page of the table has one record. -/
structure Filled (bare : Bare) (writer : TransactionId) (table : Table) (count : Nat) : Prop where
  known : bare.tables[table.id]? = some table
  consistent : bare.locks.table.Consistent
  unrivalled : bare.Unrivalled writer
  counts : bare.counts table.id = count
  taken : ∀ number, number < count →
    ∃ values, bare.contents? (table.page (UInt32.ofNat number)) = some [some values]

theorem fetch_of_contents? {slots : Slots} (known : bare.tables[page.table]? = some table)
    (room : bare.drafts.size < bare.capacity) (shown : bare.contents? page = some slots) :
    bare.fetch page = .ok slots := by
  have open' : bare.isFull = false := by
    rw [isFull, decide_eq_false_iff_not]
    exact Nat.not_le.mpr room
  have owner : bare.table? page.table = .ok table := by
    rw [table?, known]
  rw [contents?] at shown
  rw [fetch]
  cases drafted : bare.drafts[page]? with
  | some draft =>
      rw [drafted] at shown
      exact congrArg Except.ok (Option.some.inj shown)
  | none =>
      rw [drafted] at shown
      simp only [owner, open', Bool.false_eq_true, if_false]
      cases written : bare.written page with
      | error failure =>
          rw [written] at shown
          cases shown
      | ok found =>
          rw [written] at shown
          exact congrArg Except.ok (Option.some.inj shown)

/-- A row goes onto page 0 if the only slot there is free. -/
theorem insert_first (blank : bare.fetch (table.page (UInt32.ofNat 0)) = .ok [none])
    (known : bare.tables[table.id]? = some table) (consistent : bare.locks.table.Consistent)
    (unrivalled : bare.Unrivalled writer) (some : 0 < bare.counts table.id)
    (counted : table.slotsPerPage = .ok 1) (agrees : row.schema.agrees table.schema = true) :
    ∃ middle, LocksMore writer bare middle ∧
      bare.insert writer table.id row = (.ok ⟨table.page (UInt32.ofNat 0), 0⟩,
        middle.change writer (table.page (UInt32.ofNat 0)) [.some row.stored]) ∧
      middle.locks.modeOf writer (table.page (UInt32.ofNat 0)) = .some .exclusive ∧
      (bare.seek table writer 0 (bare.counts table.id)).1 ≠ .ok none := by
  obtain ⟨opened, got, -⟩ :=
    unrivalled.getPage consistent (table.page (UInt32.ofNat 0)) .readWrite
  rw [blank] at got
  obtain ⟨middle, lands, somewhere⟩ := lands_among consistent known counted Nat.one_ne_zero agrees
    (fun earlier below => absurd below (Nat.not_lt_zero earlier)) some got rfl
  exact ⟨middle, lands.locks, lands.inserted,
    lands.through.taken 0 (Nat.zero_le _) Nat.one_pos, somewhere⟩

namespace Filled

theorem passable (filled : bare.Filled writer table count)
    (room : bare.drafts.size < bare.capacity) (inside : number < count) :
    bare.Passable writer (table.page (UInt32.ofNat number)) := by
  obtain ⟨values, shown⟩ := filled.taken number inside
  obtain ⟨after, got, -⟩ :=
    filled.unrivalled.getPage filled.consistent (table.page (UInt32.ofNat number)) .readWrite
  rw [fetch_of_contents? filled.known room shown] at got
  exact ⟨_, after, got, rfl⟩

theorem of_change (locks : LocksMore writer base middle)
    (known : base.tables[table.id]? = some table)
    (consistent : base.locks.table.Consistent) (unrivalled : base.Unrivalled writer)
    (counts : base.counts table.id = count)
    (others : ∀ number, number < count → table.page (UInt32.ofNat number) ≠ page →
      ∃ values, base.contents? (table.page (UInt32.ofNat number)) = some [some values])
    (values : List Value) :
    (middle.change writer page [some values]).Filled writer table count := by
  refine ⟨?_, locks.strengthens.consistent consistent, ?_, ?_, ?_⟩
  · change middle.tables[table.id]? = _
    rw [locks.tables_eq]
    exact known
  · have stillUnrivalled : middle.Unrivalled writer := unrivalled.lockMore locks
    exact stillUnrivalled
  · change middle.counts table.id = _
    rw [locks.counts_eq]
    exact counts
  · intro number inside
    by_cases here : table.page (UInt32.ofNat number) = page
    · refine ⟨values, ?_⟩
      rw [here, contents?, change, Std.ExtTreeMap.getElem?_insert_self]
    · rw [contents?_change_other fun same => here same.symm, locks.contents?_eq]
      exact others number inside here

section Single

variable (filled : bare.Filled writer table count) (counted : table.slotsPerPage = .ok 1)
  (agrees : row.schema.agrees table.schema = true)

include filled counted agrees in
/-- With every page full, `insert` appends a page for the row. -/
theorem insert (room : bare.drafts.size < bare.capacity)
    (fresh : bare.drafts[table.page (UInt32.ofNat count)]? = none) :
    ∃ after, bare.insert writer table.id row =
        (.ok ⟨table.page (UInt32.ofNat count), 0⟩, after) ∧
      after.Filled writer table (count + 1) ∧ after.capacity = bare.capacity ∧
      after.drafts = bare.drafts.insert (table.page (UInt32.ofNat count))
        ⟨writer, [some row.stored]⟩ ∧
      after.locks.modeOf writer (table.page (UInt32.ofNat count)) = some .exclusive := by
  obtain ⟨-, slotCount⟩ := Table.usable_of_slotsPerPage counted Nat.one_ne_zero
  have next : bare.nextPage table = table.page (UInt32.ofNat count) := by
    rw [nextPage, filled.counts]
  have blank : (bare.grow table).fetch (bare.nextPage table) = .ok [none] := by
    have known : (bare.grow table).tables[(bare.nextPage table).table]? = some table :=
      filled.known
    refine fetch_of_contents? known room ?_
    have undrafted : (bare.grow table).drafts[bare.nextPage table]? = none := by
      rw [next]
      exact fresh
    have empty : (bare.grow table).written (bare.nextPage table) = .ok [none] := by
      refine (if_pos rfl).trans ?_
      rw [← slotCount]
      rfl
    rw [contents?, undrafted, empty]
    rfl
  have unrivalled : (bare.grow table).Unrivalled writer := filled.unrivalled
  obtain ⟨opened, got, -⟩ :=
    unrivalled.getPage filled.consistent (bare.nextPage table) .readWrite
  rw [blank] at got
  obtain ⟨middle, lands, empty, -⟩ := lands_appended filled.consistent filled.known counted
    Nat.one_ne_zero agrees
    (fun earlier below => filled.passable room (filled.counts ▸ below)) (next ▸ fresh)
    (slotCount ▸ Nat.one_ne_zero) got
  have inserted := lands.inserted
  rw [filled.counts] at inserted
  refine ⟨_, inserted, of_change lands.locks filled.known filled.consistent unrivalled ?_ ?_
    row.stored, lands.locks.capacity_eq, ?_, ?_⟩
  · rw [← filled.counts]
    exact if_pos rfl
  · intro number inside different
    rw [contents?_grow_other (next ▸ different)]
    refine filled.taken number (Nat.lt_of_le_of_ne (Nat.le_of_lt_succ inside) ?_)
    rintro rfl
    exact different rfl
  · change middle.drafts.insert _ _ = _
    rw [lands.locks.drafts_eq]
    rfl
  · exact lands.through.taken count (Nat.zero_le _) (by rw [filled.counts]; omega)

include filled counted agrees in
/-- The record on page 0 is deleted and another inserted in its slot. -/
theorem replace (room : bare.drafts.size < bare.capacity) (some : 0 < count) :
    ∃ freed after,
      bare.delete writer (.some ⟨table.page (UInt32.ofNat 0), 0⟩) = (.ok (), freed) ∧
      freed.insert writer table.id row = (.ok ⟨table.page (UInt32.ofNat 0), 0⟩, after) ∧
      after.Filled writer table count ∧ after.capacity = bare.capacity ∧
      after.drafts = bare.drafts.insert (table.page (UInt32.ofNat 0))
        ⟨writer, [.some row.stored]⟩ ∧
      after.locks.modeOf writer (table.page (UInt32.ofNat 0)) = .some .exclusive ∧
      (freed.seek table writer 0 (freed.counts table.id)).1 ≠ .ok none := by
  obtain ⟨values, shown⟩ := filled.taken 0 some
  have fetched := fetch_of_contents? filled.known room shown
  obtain ⟨locked, got, locks⟩ :=
    filled.unrivalled.getPage filled.consistent (table.page (UInt32.ofNat 0)) .readWrite
  rw [fetched] at got
  have owner : bare.table? table.id = .ok table := by
    rw [table?, filled.known]
  have checked : Slots.checkTaken [.some values] (table.page (UInt32.ofNat 0))
      ⟨table.page (UInt32.ofNat 0), 0⟩ = .ok () := by
    rw [Slots.checkTaken, if_neg (not_not_intro rfl)]
    rfl
  have freed : bare.delete writer (.some ⟨table.page (UInt32.ofNat 0), 0⟩) =
      (.ok (), locked.change writer (table.page (UInt32.ofNat 0)) [none]) := by
    rw [delete]
    simp only [show bare.table? (table.page (UInt32.ofNat 0)).table = .ok table from owner, got,
      checked]
    rfl
  have consistent : locked.locks.table.Consistent := locks.strengthens.consistent filled.consistent
  have unrivalled : (locked.change writer (table.page (UInt32.ofNat 0)) [none]).Unrivalled writer :=
    fun other page different => filled.unrivalled.lockMore locks other page different
  have known : (locked.change writer (table.page (UInt32.ofNat 0)) [none]).tables[table.id]? =
      .some table := by
    change locked.tables[table.id]? = _
    rw [locks.tables_eq]
    exact filled.known
  have counts : (locked.change writer (table.page (UInt32.ofNat 0)) [none]).counts table.id =
      count := by
    change locked.counts table.id = _
    rw [locks.counts_eq]
    exact filled.counts
  have blank : (locked.change writer (table.page (UInt32.ofNat 0)) [none]).fetch
      (table.page (UInt32.ofNat 0)) = .ok [none] := by
    rw [fetch, change, Std.ExtTreeMap.getElem?_insert_self]
  obtain ⟨middle, more, inserted, alone, somewhere⟩ := insert_first blank known consistent unrivalled
    (counts ▸ some) counted agrees
  refine ⟨_, _, freed, inserted, of_change more known consistent unrivalled counts ?_ row.stored,
    more.capacity_eq.trans locks.capacity_eq, ?_, alone, somewhere⟩
  · intro number inside different
    rw [contents?_change_other fun same => different same.symm, locks.contents?_eq]
    exact filled.taken number inside
  · change middle.drafts.insert _ _ = _
    rw [more.drafts_eq]
    change (locked.drafts.insert _ _).insert _ _ = _
    rw [insert_insert, locks.drafts_eq]

end Single

/-- Flushing the only draft leaves none. -/
theorem flush (filled : bare.Filled writer table count) {draft : Draft}
    (dirty : bare.drafts = (∅ : Std.ExtTreeMap PageId Draft).insert page draft)
    (alone : bare.locks.modeOf writer page = some .exclusive) :
    (bare.flushEach (bare.locks.table.pagesOf writer)).Filled writer table count ∧
      (bare.flushEach (bare.locks.table.pagesOf writer)).drafts = ∅ ∧
      (bare.flushEach (bare.locks.table.pagesOf writer)).capacity = bare.capacity := by
  have listed (other : PageId) (found : Draft) (drafted : bare.drafts[other]? = some found) :
      (bare.locks.table.pagesOf writer).contains other = true := by
    rw [dirty, lookup_insert, Std.ExtTreeMap.getElem?_empty] at drafted
    split at drafted
    · next here =>
        rw [List.contains_iff_mem, LockTable.mem_pagesOf_iff filled.consistent]
        change (bare.locks.modeOf writer other).isSome = true
        rw [← here, alone]
        rfl
    · cases drafted
  rw [flushEach_eq]
  have undrafted (page : PageId) :
      (bare.flushThose (bare.locks.table.pagesOf writer).contains).drafts[page]? = none := by
    rw [drafts_flushThose]
    split
    · rfl
    · next unlisted =>
        cases drafted : bare.drafts[page]? with
        | none => rfl
        | some draft => exact absurd (listed page draft drafted) unlisted
  have contents (page : PageId) :
      (bare.flushThose (bare.locks.table.pagesOf writer).contains).contents? page =
        bare.contents? page := by
    rw [contents?, undrafted, contents?]
    cases drafted : bare.drafts[page]? with
    | none => simp only [flushThose, drafted]
    | some draft =>
        simp only [flushThose, drafted, listed page draft drafted, if_true]
        rfl
  refine ⟨⟨filled.known, filled.consistent, filled.unrivalled, filled.counts, ?_⟩, ?_, rfl⟩
  · intro number inside
    rw [contents]
    exact filled.taken number inside
  · apply Std.ExtTreeMap.ext_getElem?
    intro page
    rw [undrafted, Std.ExtTreeMap.getElem?_empty]

end Filled

end Bare

theorem PageFile.count_of_size {pages : PageFile} {directory : Directory}
    (positive : pages.pageSize ≠ 0) (whole : pages.wholePages directory = UInt32.size) :
    pages.count directory = .ok 0 := by
  rw [count_eq positive, whole]
  rfl

namespace Table

variable {table : Table} {directory : Directory}

theorem readPage_uncounted (usable : table.Usable) (none : table.pages.count directory = .ok 0)
    (number : UInt32) :
    table.readPage directory (table.page number) =
      .error (.refused (.missingPage (table.page number))) := by
  have fits : ¬ longestBuffer < table.pages.pageSize := Nat.not_lt.mpr usable.bounded
  have outside : (0 : UInt32) ≤ (table.page number).number := UInt32.zero_le
  rw [readPage, checkOwner_of_eq rfl, PageFile.read, none]
  simp only [if_neg fits, pageSize, ne_eq, not_true_eq_false, if_false, if_pos outside]

end Table

namespace Store

variable {store after roomy : Store} {writer : TransactionId} {table : Table} {row : Row}
  {count : Nat}

/-- `makeRoom` depends on the cache only. -/
theorem makeRoom_with (store : Store) (directory : Directory) (locks : LockService) :
    ({ store with directory := directory, locks := locks } : Store).makeRoom =
      (store.makeRoom.1, { store.makeRoom.2 with directory := directory, locks := locks }) := by
  have full : ({ store with directory := directory, locks := locks } : Store).isFull =
      store.isFull := rfl
  have victim : ({ store with directory := directory, locks := locks } : Store).victim? =
      store.victim? := rfl
  unfold makeRoom evict
  rw [full, victim]
  split
  · cases store.victim? <;> rfl
  · rfl

theorem visits_of_refused {failure : Failure} {id : TableId} {placed : Row}
    (refused : store.insert writer id row = (.error failure, placed, after)) :
    Visits writer store after := by
  have inserts := inserts_insert store writer id row
  rw [refused] at inserts
  cases inserts with
  | refused _ visits => exact visits

/-- The page behind the last one is not cached. -/
theorem Coherent.lookup_next (coherent : store.Coherent)
    (known : store.tables[table.id]? = some table) :
    store.cache[table.page (UInt32.ofNat (table.pages.wholePages store.directory))]? = none := by
  cases present : store.cache[table.page
      (UInt32.ofNat (table.pages.wholePages store.directory))]? with
  | none => rfl
  | some cached =>
      obtain ⟨other, otherKnown, faithful⟩ := coherent.faithful _ cached present
      obtain rfl : table = other := Option.some.inj (known.symm.trans otherKnown)
      have inside := faithful.inside
      rw [Table.page, UInt32.toNat_ofNat_of_lt' (coherent.countable _ _ known)] at inside
      exact absurd inside (Nat.lt_irrefl _)

section Uncounted

variable {number : UInt32} {directory : Directory} {locks : LockService}
  (usable : table.Usable) (known : store.tables[table.id]? = some table)
  (uncounted : table.pages.count directory = .ok 0)
  (absent : store.cache[table.page number]? = none)
  (made : store.makeRoom = (.ok (), roomy))

include usable known uncounted absent made

theorem fetch_uncounted :
    ({ store with directory := directory, locks := locks } : Store).fetch (table.page number) =
      (.error (.refused (.missingPage (table.page number))),
        { roomy with directory := directory, locks := locks }) := by
  have room := store.makeRoom_with directory locks
  rw [made] at room
  have owner : ({ store with directory := directory, locks := locks } : Store).table?
      (table.page number).table = .ok table := by
    change store.table? table.id = _
    rw [table?, known]
  rw [fetch, absent, load, owner]
  simp only [room, Table.readPage_uncounted usable uncounted]

omit uncounted in
/-- With `count` zero, a page that is not cached cannot be had, though its lock is free and there is
room. -/
theorem getPage_uncounted (consistent : store.locks.table.Consistent)
    (unlocked : ∀ other, store.locks.modeOf other (table.page number) = none)
    (none : table.pages.count store.directory = .ok 0) (reader : TransactionId)
    (access : Access) :
    (store.getPage reader (table.page number) access).1 =
      .error (.refused (.missingPage (table.page number))) := by
  obtain ⟨locks, acquired⟩ := LockService.acquire_alone (table.page number) access.mode 0
    consistent fun other _ => unlocked other
  rw [getPage, acquire, acquired]
  exact congrArg Prod.fst (fetch_uncounted usable known none absent made)

theorem placeAppended_uncounted
    (acquired : store.locks.acquire writer (table.page number) .exclusive 0 = (.ok (), locks))
    (allocated : table.pages.allocate store.directory = .ok (number, directory)) (tries : Nat) :
    placeAppended table writer row (tries + 1) store =
      (.error (.refused (.missingPage (table.page number))),
        { roomy with directory := directory, locks := locks }) := by
  have same : ({ store with directory := directory } : Store).locks = store.locks := rfl
  have asked : ({ store with directory := directory } : Store).acquire writer (table.page number)
      .exclusive = (.ok (), { store with directory := directory, locks := locks }) := by
    rw [acquire, same, acquired]
  have loaded := @fetch_uncounted store roomy table number directory locks usable known
    uncounted absent made
  have got : ({ store with directory := directory } : Store).getPage writer (table.page number)
      .readWrite = (.error (.refused (.missingPage (table.page number))),
        { roomy with directory := directory, locks := locks }) := by
    rw [getPage, show Access.readWrite.mode = .exclusive from rfl, asked]
    exact loaded
  rw [placeAppended, allocated]
  simp only [placeAt, got]

end Uncounted

/-- The last page number is appended, and `count` is zero. -/
theorem Coherent.placeAppended_past (coherent : store.Coherent) (usable : table.Usable)
    (known : store.tables[table.id]? = some table) (open' : ¬ store.bare.isFull = true)
    (consistent : store.locks.table.Consistent) (unrivalled : store.bare.Unrivalled writer)
    (last : table.pages.wholePages store.directory + 1 = UInt32.size) (row : Row) (tries : Nat) :
    ∃ after, Store.placeAppended table writer row (tries + 1) store =
        (.error (.refused (.missingPage (table.page
          (UInt32.ofNat (table.pages.wholePages store.directory))))), after) ∧
      table.pages.wholePages after.directory = UInt32.size ∧
      after.cache.size < after.capacity := by
  have whole : table.pages.wholePages (store.grown table).directory = UInt32.size := by
    refine (PageFile.wholePages_put usable.positive List.length_replicate).trans ?_
    rw [Nat.max_eq_right (Nat.le_succ _)]
    exact last
  have absent := coherent.lookup_next known
  have makes := coherent.makeRoom_eq absent
  rw [if_neg open'] at makes
  obtain ⟨roomy, made, -, -, -, -, free⟩ := makes
  obtain ⟨locks, acquired⟩ := LockService.acquire_alone
    (table.page (UInt32.ofNat (table.pages.wholePages store.directory))) .exclusive 0 consistent
    fun other different => unrivalled other _ different
  exact ⟨_, placeAppended_uncounted usable known (PageFile.count_of_size usable.positive whole)
    absent made acquired (allocate_eq coherent known usable) tries, whole, free⟩

section Insert

variable (known : store.tables[table.id]? = some table) (counted : table.slotsPerPage = .ok 1)
  (agrees : row.schema.agrees table.schema = true)

include known counted agrees

theorem insert_of_nowhere {number : UInt32} {failure : Failure}
    (pages : table.pages.count store.directory = .ok number)
    (nowhere : store.placeAmong table writer row 0 number.toNat = (.ok none, roomy))
    (refused : placeAppended table writer row
      (roomy.cachedCount + table.pages.size roomy.directory + 1) roomy = (.error failure, after)) :
    store.insert writer table.id row = (.error failure, row, after) := by
  refine insert_of_not_placed known ?_
  rw [place_of_counted counted Nat.one_ne_zero agrees pages, nowhere]
  exact refused

/-- Behind `UInt32.size - 1` full pages `insert` fails, after appending a page. -/
theorem Coherent.insert_past (coherent : store.Coherent)
    (filled : store.bare.Filled writer table count)
    (room : store.bare.drafts.size < store.bare.capacity) (last : count + 1 = UInt32.size) :
    ∃ after, store.insert writer table.id row =
        (.error (.refused (.missingPage (table.page (UInt32.ofNat count)))), row, after) ∧
      table.pages.wholePages after.directory = UInt32.size ∧
      after.cache.size < after.capacity := by
  obtain ⟨usable, -⟩ := Table.usable_of_slotsPerPage counted Nat.one_ne_zero
  have whole : table.pages.wholePages store.directory = count :=
    (counts_of_table known).symm.trans filled.counts
  have exact : (UInt32.ofNat count).toNat = count := UInt32.toNat_ofNat_of_lt' (by omega)
  have pages : table.pages.count store.directory = .ok (UInt32.ofNat count) := by
    rw [PageFile.count_eq usable.positive, whole]
  -- all pages are passed
  obtain ⟨walked, more, -, walk⟩ := Bare.seek_passes filled.consistent table 0 count 0
    fun earlier _ below => filled.passable room (by omega)
  rw [Nat.add_zero, Bare.seek] at walk
  have finds := coherent.placeAmong known (eq_of_beq agrees) writer 0 count
  rw [walk] at finds
  generalize tried : store.placeAmong table writer row 0 count = result at finds
  cases finds with
  | @nowhere middle middleCoherent files =>
      have still : middle.tables[table.id]? = some table := by
        rw [files.tablesAre]
        exact known
      have stillWhole : table.pages.wholePages middle.directory = count := by
        rw [files.directoryIs, whole]
      have open' : ¬ middle.bare.isFull = true := by
        rw [Bare.isFull, more.drafts_eq, more.capacity_eq, decide_eq_true_iff]
        exact Nat.not_le.mpr room
      obtain ⟨after, refused, grown, free⟩ := middleCoherent.placeAppended_past usable still open'
        (more.strengthens.consistent filled.consistent) (filled.unrivalled.lockMore more)
        (by rw [stillWhole]; exact last) row
        (middle.cachedCount + table.pages.size middle.directory)
      rw [stillWhole] at refused
      exact ⟨after, insert_of_nowhere known counted agrees pages (by rw [exact]; exact tried)
        refused, grown, free⟩

/-- With `UInt32.size` pages `insert` writes zeros over page 0 and fails. -/
theorem insert_uncounted (consistent : store.locks.table.Consistent)
    (unrivalled : ∀ other page, other ≠ writer → store.locks.modeOf other page = none)
    (absent : store.cache[table.page 0]? = none) (free : store.cache.size < store.capacity)
    (whole : table.pages.wholePages store.directory = UInt32.size) :
    ∃ after, store.insert writer table.id row =
        (.error (.refused (.missingPage (table.page 0))), row, after) ∧
      table.pages.bytesAt after.directory 0 = List.replicate table.pages.pageSize 0 := by
  obtain ⟨usable, -⟩ := Table.usable_of_slotsPerPage counted Nat.one_ne_zero
  have pages := PageFile.count_of_size usable.positive whole
  obtain ⟨number, directory, replaces⟩ := PageFile.replaces_of_uncountable usable.positive
    usable.bounded (Nat.le_of_eq whole.symm)
  obtain ⟨other, next, allocated, place, -⟩ :=
    PageFile.allocate_overwrites usable.positive usable.bounded store.directory
  rw [replaces.allocated, Except.ok.injEq, Prod.mk.injEq] at allocated
  obtain rfl := allocated.1
  obtain rfl : number = 0 := by
    rw [whole, Nat.mod_self] at place
    exact UInt32.toNat_inj.mp place
  obtain ⟨locks, acquired⟩ := LockService.acquire_alone (table.page 0) .exclusive 0 consistent
    fun other different => unrivalled other _ different
  exact ⟨_, insert_of_nowhere known counted agrees pages rfl (placeAppended_uncounted usable known
    (replaces.counted.trans pages) absent (makeRoom_of_lt free) acquired replaces.allocated _),
    replaces.overwrites.page⟩

end Insert

end Store

/-- A whole operation or a step of waiting for a lock, `Untampered` and `Proper`. -/
def Action.Regular (system : System) (action : Action) : Prop :=
  action.Untampered system ∧ action.Proper system

namespace System

variable {system : System} {writer : TransactionId} {table : Table} {row : Row} {count : Nat}

section Steps

variable (coherent : system.Coherent) (filled : system.store.bare.Filled writer table count)

include coherent filled

theorem Coherent.insert_filled (counted : table.slotsPerPage = .ok 1)
    (agrees : row.schema.agrees table.schema = true)
    (room : system.store.bare.drafts.size < system.store.bare.capacity)
    (small : count + 1 < UInt32.size) {after : System}
    (afterIs : system.act (.operation (.insert writer table.id row)) = after) :
    after.Coherent ∧ after.store.bare.Filled writer table (count + 1) ∧
      after.store.bare.capacity = system.store.bare.capacity ∧
      after.store.bare.drafts = system.store.bare.drafts.insert
        (table.page (UInt32.ofNat count)) ⟨writer, [some row.stored]⟩ ∧
      after.store.bare.locks.modeOf writer (table.page (UInt32.ofNat count)) =
        some .exclusive := by
  have whole : table.pages.wholePages system.store.directory = count :=
    (Store.counts_of_table filled.known).symm.trans filled.counts
  have follows := coherent.perform (.insert writer table.id row) fun _ _ _ other same known _ => by
    cases same
    obtain rfl : table = other := Option.some.inj (filled.known.symm.trans known)
    rwa [whole]
  have fresh := coherent.store.fresh filled.known
  rw [Store.nextPage_bare filled.known, whole] at fresh
  obtain ⟨bare, inserted, rest⟩ := filled.insert counted agrees room fresh
  have bareIs : after.store.bare = bare := by
    rw [← afterIs]
    exact follows.store_bare.trans (congrArg Prod.snd inserted)
  rw [bareIs]
  exact ⟨afterIs ▸ follows.coherent, rest⟩

theorem Coherent.replace_filled (counted : table.slotsPerPage = .ok 1)
    (agrees : row.schema.agrees table.schema = true)
    (room : system.store.bare.drafts.size < system.store.bare.capacity) (some : 0 < count)
    {freed after : System}
    (freedIs : system.act (.operation (.delete writer
      (.some ⟨table.page (UInt32.ofNat 0), 0⟩))) = freed)
    (afterIs : freed.act (.operation (.insert writer table.id row)) = after) :
    after.Coherent ∧ after.store.bare.Filled writer table count ∧
      after.store.bare.capacity = system.store.bare.capacity ∧
      after.store.bare.drafts = system.store.bare.drafts.insert
        (table.page (UInt32.ofNat 0)) ⟨writer, [.some row.stored]⟩ ∧
      after.store.bare.locks.modeOf writer (table.page (UInt32.ofNat 0)) = .some .exclusive := by
  obtain ⟨middle, bare, deleted, inserted, filledAgain, capacity, drafts, alone, somewhere⟩ :=
    filled.replace counted agrees room some
  have deletes : Follows (system.perform (.delete writer
      (.some ⟨table.page (UInt32.ofNat 0), 0⟩))) (system.bare.perform _) :=
    coherent.follows fun _ _ _ same => by cases same
  have middleIs : freed.store.bare = middle := by
    rw [← freedIs]
    exact deletes.store_bare.trans (congrArg Prod.snd deleted)
  have freedCoherent : freed.Coherent := freedIs ▸ deletes.coherent
  have known : freed.store.tables[table.id]? = .some table := by
    rw [← freedIs]
    exact (congrArg (fun tables => tables[table.id]?)
      (system.store.files_delete _ _).tablesAre).trans filled.known
  have inserts := freedCoherent.perform (.insert writer table.id row)
    fun _ _ _ other same otherKnown needs => by
      -- no page is appended for it
      cases same
      obtain rfl : table = other := Option.some.inj (known.symm.trans otherKnown)
      rw [middleIs] at needs
      exact absurd needs.full somewhere
  have bareIs : after.store.bare = bare := by
    rw [← afterIs]
    refine inserts.store_bare.trans ?_
    change (freed.store.bare.insert writer table.id row).2 = bare
    rw [middleIs, inserted]
  rw [bareIs]
  exact ⟨afterIs ▸ inserts.coherent, filledAgain, capacity, drafts, alone⟩

theorem Coherent.flush_filled {page : PageId} {draft : Draft}
    (dirty : system.store.bare.drafts = (∅ : Std.ExtTreeMap PageId Draft).insert page draft)
    (alone : system.store.bare.locks.modeOf writer page = some .exclusive) {after : System}
    (afterIs : system.act (.operation (.flush writer)) = after) :
    after.Coherent ∧ after.store.bare.Filled writer table count ∧
      after.store.bare.drafts = ∅ ∧ after.store.bare.capacity = system.store.bare.capacity := by
  have follows : Follows (system.perform (.flush writer)) (system.bare.perform (.flush writer)) :=
    coherent.follows fun _ _ _ same => by cases same
  have bareIs : after.store.bare = system.store.bare.flushEach
      (system.store.bare.locks.table.pagesOf writer) := by
    rw [← afterIs]
    exact follows.store_bare
  rw [bareIs]
  exact ⟨afterIs ▸ follows.coherent, filled.flush dirty alone⟩

end Steps

/-- From an empty file, one transaction that inserts and flushes in turn fills any number of pages
below `UInt32.size`. -/
theorem course_filled {directory : Directory} {capacity : Nat} {range : WaitRange}
    {preference : Preference} (positive : 0 < capacity) (counted : table.slotsPerPage = .ok 1)
    (agrees : row.schema.agrees table.schema = true)
    (empty : table.pages.wholePages directory = 0) (writer : TransactionId) :
    ∀ count, count < UInt32.size → ∃ system,
      Course Action.Regular (untouched directory capacity range preference) system ∧
        system.Coherent ∧ system.store.bare.Filled writer table count ∧
        system.store.bare.drafts = ∅ ∧ system.store.bare.capacity = capacity := by
  intro count
  induction count with
  | zero =>
      intro _
      have fresh : Fresh ⟨Store.opened directory capacity range preference table, fun _ => none⟩ :=
        Store.fresh_opened (by rw [empty]; exact Nat.two_pow_pos 32)
      refine ⟨_, .step (.register table) .start ⟨⟨rfl, fun id other known =>
        absurd known (untouched_unknown _ _ _ _ id other)⟩, trivial⟩, fresh.coherent,
        ⟨Store.known_opened, fresh.consistent, fun other page _ => fresh.modeOf_eq_none other page,
          (Store.counts_of_table Store.known_opened).trans empty,
          fun number below => absurd below (Nat.not_lt_zero number)⟩, ?_, rfl⟩
      apply Std.ExtTreeMap.ext_getElem?
      intro page
      rw [Std.ExtTreeMap.getElem?_empty]
      exact fresh.undrafted page
  | succ count ih =>
      intro small
      obtain ⟨system, course, coherent, filled, undrafted, room⟩ := ih (by omega)
      have roomy : system.store.bare.drafts.size < system.store.bare.capacity := by
        rw [undrafted, room, Std.ExtTreeMap.size_empty]
        exact positive
      obtain ⟨next, stocked, same, drafts, alone⟩ :=
        coherent.insert_filled filled counted agrees roomy small rfl
      obtain ⟨last, written, clean, again⟩ := next.flush_filled stocked
        (drafts.trans (by rw [undrafted])) alone rfl
      exact ⟨_, (course.step (.operation (.insert writer table.id row)) ⟨trivial, trivial⟩).step
        (.operation (.flush writer)) ⟨trivial, trivial⟩, last, written, clean,
        again.trans (same.trans room)⟩

end System

end RecordStore
