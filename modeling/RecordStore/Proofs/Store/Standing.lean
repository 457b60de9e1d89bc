import RecordStore.Proofs.Store.Flushing
import RecordStore.Proofs.Store.Refusal
import RecordStore.Proofs.Store.Restoring

set_option autoImplicit false

/-! While a transaction holds a page exclusively, operations of the others change neither its bytes
in the file nor its cached copy. -/

namespace RecordStore

namespace PageFile

variable {pages : PageFile} {directory after : Directory} {number other : UInt32}
  {bytes : List UInt8}

/-- Only the page written last can be counted for the first time. -/
theorem eq_of_newly_counted (positive : pages.pageSize ≠ 0)
    (written : pages.write directory number bytes = .ok after)
    (next : number = UInt32.ofNat (pages.wholePages directory))
    (outside : ¬ other < UInt32.ofNat (pages.wholePages directory))
    (inside : other < UInt32.ofNat (pages.wholePages after)) : other = number := by
  have more := wholePages_write positive written
  by_cases small : pages.wholePages directory < UInt32.size
  · have last : number.toNat = pages.wholePages directory := by
      rw [next, UInt32.toNat_ofNat_of_lt' small]
    have below := toNat_lt_of_lt_count inside
    rw [UInt32.lt_iff_toNat_lt, UInt32.toNat_ofNat_of_lt' small] at outside
    rw [more, last] at below
    apply UInt32.toNat_inj.mp
    omega
  · -- there are more pages than numbers, so that the count does not change
    have limit := number.toNat_lt
    have same : pages.wholePages after = pages.wholePages directory := by
      rw [more]
      simp only [UInt32.size] at small
      omega
    rw [same] at inside
    exact absurd inside outside

end PageFile

namespace Store

variable {store first second third before after : Store} {transaction other : TransactionId}
  {page : PageId} {table : Table} {cached : PageCopy} {slot : Nat}

/-! ### A page that stands -/

/-- The page is still counted for its table, with the same bytes, if it was. -/
def Stands (before after : Store) (page : PageId) : Prop :=
  ∀ table, before.tables[page.table]? = some table →
    page.number < UInt32.ofNat (table.pages.wholePages before.directory) →
    after.tables[page.table]? = some table ∧
      page.number < UInt32.ofNat (table.pages.wholePages after.directory) ∧
      table.pages.bytesAt after.directory page.number.toNat =
        table.pages.bytesAt before.directory page.number.toNat

namespace Stands

theorem of_content (same : ∀ table, before.tables[page.table]? = some table →
    after.tables[page.table]? = some table ∧
      after.directory.content table.pages.file = before.directory.content table.pages.file) :
    Stands before after page := by
  intro table known counted
  obtain ⟨still, content⟩ := same table known
  refine ⟨still, ?_, ?_⟩
  · rwa [PageFile.wholePages, PageFile.size, content]
  · rw [PageFile.bytesAt, PageFile.bytesAt, content]

theorem of_files (files : after.SameFiles before) : Stands before after page := by
  refine of_content fun table known => ⟨?_, ?_⟩
  · rwa [files.tablesAre]
  · rw [files.directoryIs]

theorem refl (store : Store) (page : PageId) : Stands store store page := of_files ⟨rfl, rfl⟩

theorem trans (earlier : Stands first second page) (later : Stands second third page) :
    Stands first third page := by
  intro table known counted
  obtain ⟨known, counted, bytes⟩ := earlier table known counted
  obtain ⟨known, counted, again⟩ := later table known counted
  exact ⟨known, counted, again.trans bytes⟩

/-- A page that stands is read as it was. -/
theorem readPage_iff (stands : Stands before after page)
    (known : before.tables[page.table]? = some table)
    (counted : page.number < UInt32.ofNat (table.pages.wholePages before.directory))
    (found : Page) :
    table.readPage after.directory page = .ok found ↔
      table.readPage before.directory page = .ok found := by
  obtain ⟨-, still, bytes⟩ := stands table known counted
  rw [Table.readPage_ok_iff, Table.readPage_ok_iff, bytes]
  simp only [still, counted, true_and]

end Stands

theorem stored_eq_some_iff {values : List Value} :
    store.stored ⟨page, slot⟩ = some values ↔
      ∃ table found, store.tables[page.table]? = some table ∧
        table.readPage store.directory page = .ok found ∧
        (found.row? slot).map Row.values = some values := by
  simp only [stored]
  cases known : store.tables[page.table]? with
  | none => simp
  | some table => cases read : table.readPage store.directory page <;> simp [read]

theorem Stands.stored_eq (stands : Stands before after page)
    (known : before.tables[page.table]? = some table)
    (counted : page.number < UInt32.ofNat (table.pages.wholePages before.directory)) :
    after.stored ⟨page, slot⟩ = before.stored ⟨page, slot⟩ := by
  obtain ⟨still, -⟩ := stands table known counted
  apply Option.ext
  intro values
  rw [stored_eq_some_iff, stored_eq_some_iff, known, still]
  simp only [Option.some.injEq, exists_and_left, exists_eq_left',
    stands.readPage_iff known counted]

theorem SameFiles.stored_eq (files : after.SameFiles before) : after.stored = before.stored := by
  funext record
  rw [stored, stored, files.tablesAre, files.directoryIs]

/-! ### Visiting pages -/

theorem stands_append (distinct : Distinct store.tables) {id : TableId}
    (known : store.tables[id]? = some table) {number : UInt32} {directory : Directory}
    (allocated : table.pages.allocate store.directory = .ok (number, directory))
    (stays : StaysCountable store { store with directory := directory }) (page : PageId) :
    Stands store { store with directory := directory } page := by
  obtain ⟨positive, next, written⟩ := PageFile.write_of_allocate allocated
  by_cases same : page.table = id
  · subst same
    intro other otherKnown counted
    obtain rfl : table = other := Option.some.inj (known.symm.trans otherKnown)
    refine ⟨known, PageFile.lt_count_write positive written (stays page.table table known) counted,
      PageFile.bytesAt_write_other written ?_ fun here => ?_⟩
    · rw [next, UInt32.toNat_ofNat']
      exact Nat.mod_le _ _
    · rw [← next, UInt32.toNat_inj.mp here] at counted
      exact absurd counted (UInt32.lt_irrefl number)
  · refine .of_content fun other otherKnown => ⟨otherKnown, ?_⟩
    exact PageFile.content_write_other written fun files =>
      same (distinct.apart _ _ _ _ known otherKnown files).symm

/-- Only the appended page can be read for the first time, and it has no record. -/
theorem vacant_of_append (distinct : Distinct store.tables) {id : TableId}
    (known : store.tables[id]? = some table) {number : UInt32} {directory : Directory}
    (allocated : table.pages.allocate store.directory = .ok (number, directory))
    {other : Table} (otherKnown : store.tables[page.table]? = some other)
    (uncounted : ¬ page.number < UInt32.ofNat (other.pages.wholePages store.directory))
    {found : Page} (read : other.readPage directory page = .ok found) (slot : Nat) :
    found.row? slot = none := by
  obtain ⟨positive, next, written⟩ := PageFile.write_of_allocate allocated
  obtain ⟨-, -, inside, decoded⟩ := Table.readPage_ok_iff.mp read
  by_cases files : table.pages.file = other.pages.file
  · obtain rfl := distinct.apart _ _ _ _ known otherKnown files
    obtain rfl : table = other := Option.some.inj (known.symm.trans otherKnown)
    have last : page.number = number :=
      PageFile.eq_of_newly_counted positive written next uncounted inside
    obtain ⟨blank, empty, contents⟩ := Page.decode_zeros page table.schema table.pages.pageSize
    rw [last, PageFile.bytesAt_write_same written, empty] at decoded
    cases decoded
    have vacant : (found.row? slot).map Row.stored = none := by
      rw [← Page.contents_join, contents, List.getElem?_replicate]
      split <;> rfl
    exact Option.map_eq_none_iff.mp vacant
  · have content := PageFile.content_write_other written files
    rw [PageFile.wholePages, PageFile.size, content] at inside
    exact absurd inside uncounted

/-- An appended page adds no record. -/
theorem stored_append (distinct : Distinct store.tables) {id : TableId}
    (known : store.tables[id]? = some table) {number : UInt32} {directory : Directory}
    (allocated : table.pages.allocate store.directory = .ok (number, directory))
    (stays : StaysCountable store { store with directory := directory }) :
    ({ store with directory := directory } : Store).stored = store.stored := by
  funext ⟨page, slot⟩
  have stands := stands_append distinct known allocated stays page
  apply Option.ext
  intro values
  rw [stored_eq_some_iff, stored_eq_some_iff]
  constructor
  · rintro ⟨other, found, otherKnown, read, shown⟩
    by_cases counted : page.number < UInt32.ofNat (other.pages.wholePages store.directory)
    · have before := (stands.readPage_iff otherKnown counted found).mp read
      exact ⟨other, found, otherKnown, before, shown⟩
    · rw [vacant_of_append distinct known allocated otherKnown counted read] at shown
      cases shown
  · rintro ⟨other, found, otherKnown, read, shown⟩
    have counted := (Table.readPage_ok_iff.mp read).2.2.1
    have still := (stands.readPage_iff otherKnown counted found).mpr read
    exact ⟨other, found, otherKnown, still, shown⟩

namespace Visits

theorem stands (visits : Visits other store after) (distinct : Distinct store.tables)
    (stays : StaysCountable store after) (page : PageId) : Stands store after page := by
  induction visits with
  | still store => exact .refl store page
  | andThen earlier later first second =>
      exact (first distinct (stays.earlier (.visit later))).trans
        (second (earlier.tables_eq ▸ distinct) (stays.later (.visit earlier)))
  | lock stronger => exact .of_files ⟨rfl, rfl⟩
  | append known allocated => exact stands_append distinct known allocated stays page
  | evict store => exact .of_files store.files_evict
  | @read store roomy page table content absent known made read =>
      have files := store.files_makeRoom
      rw [made] at files
      exact .of_files ⟨files.directoryIs, files.tablesAre⟩

theorem stored_eq (visits : Visits other store after) (distinct : Distinct store.tables)
    (stays : StaysCountable store after) : after.stored = store.stored := by
  induction visits with
  | still store => rfl
  | andThen earlier later first second =>
      exact (second (earlier.tables_eq ▸ distinct) (stays.later (.visit earlier))).trans
        (first distinct (stays.earlier (.visit later)))
  | lock stronger => rfl
  | append known allocated => exact stored_append distinct known allocated stays
  | evict store => exact store.files_evict.stored_eq
  | @read store roomy page table content absent known made read =>
      have files := store.files_makeRoom
      rw [made] at files
      exact files.stored_eq

end Visits

/-! ### What is seen of a page -/

theorem seen_cached (present : store.cache[page]? = some cached) :
    store.seen ⟨page, slot⟩ = (cached.page.row? slot).map Row.stored := by
  simp only [seen, current?, present, Option.bind_some]

namespace Backed

/-- A page that is not dirty shows what is in its file. -/
theorem seen_settled (backed : store.Backed) (settled : store.Settled page) :
    store.seen ⟨page, slot⟩ = store.stored ⟨page, slot⟩ := by
  have asRead {table : Table} {found : Page}
      (read : table.readPage store.directory page = .ok found) :
      (found.row? slot).map Row.stored = (found.row? slot).map Row.values := by
    obtain ⟨-, -, loaded⟩ := Table.readPage_ok read
    cases present : found.row? slot with
    | none => rfl
    | some row => exact congrArg some (loaded.exact slot row present).2
  cases present : store.cache[page]? with
  | none =>
      simp only [seen, current?, present, stored]
      cases store.tables[page.table]? with
      | none => rfl
      | some table =>
          cases read : table.readPage store.directory page with
          | error failure => simp only [read, Except.toOption, Option.bind_none]
          | ok found => simpa only [read, Except.toOption, Option.bind_some] using asRead read
  | some cached =>
      obtain ⟨table, known, faithful⟩ := backed.faithful page cached present
      obtain ⟨found, read, shown⟩ := faithful.readable
      rw [seen_cached present, ← Page.contents_join, ← (shown (settled cached present)).1,
        Page.contents_join, asRead read]
      simp only [stored, known, read]

theorem seen_visits (backed : store.Backed) (visits : Visits other store after)
    (stays : StaysCountable store after) : after.seen = store.seen := by
  funext ⟨page, slot⟩
  by_cases settled : store.Settled page
  · rw [backed.seen_settled settled,
      (backed.visits visits stays).seen_settled ((visits.settled_iff page).mpr settled),
      visits.stored_eq backed.distinct stays]
  · simp only [Settled, not_forall, Bool.not_eq_true] at settled
    obtain ⟨cached, present, dirty⟩ := settled
    rw [seen_cached present, seen_cached ((visits.lookup_dirty dirty).mpr present)]

/-- A page that is got shows what `seen` has of it. -/
theorem seen_getPage {access : Access} {copy : PageCopy} (backed : store.Backed)
    (got : store.getPage transaction page access = (.ok copy, after)) :
    (copy.page.row? slot).map Row.stored = store.seen ⟨page, slot⟩ := by
  have visits := store.visits_getPage transaction page access
  have files := store.files_getPage transaction page access
  rw [got] at visits files
  have stays : StaysCountable store after := by
    intro id table known small
    rwa [files.directoryIs]
  have present : after.cache[page]? = some copy := by
    unfold getPage at got
    split at got
    · cases got
    · exact cached_of_fetch got
  rw [← backed.seen_visits visits stays, seen_cached present]

end Backed

/-! ### Calls of the others -/

structure Guards (transaction : TransactionId) (before after : Store) : Prop where
  held : ∀ page, before.locks.modeOf transaction page = some .exclusive →
    after.locks.modeOf transaction page = some .exclusive
  stands : ∀ page, before.locks.modeOf transaction page = some .exclusive →
    Stands before after page

structure LeavesAlone (transaction : TransactionId) (before after : Store) : Prop
    extends Guards transaction before after where
  copies : ∀ (page : PageId) (cached : PageCopy), cached.page.dirtier = some transaction →
    (after.cache[page]? = some cached ↔ before.cache[page]? = some cached)

theorem Guards.trans (earlier : Guards transaction first second)
    (later : Guards transaction second third) : Guards transaction first third :=
  ⟨fun page alone => later.held page (earlier.held page alone),
    fun page alone => (earlier.stands page alone).trans
      (later.stands page (earlier.held page alone))⟩

/-- A page held exclusively is locked by no other transaction. -/
theorem not_held_of_alone (alone : store.locks.modeOf transaction page = some .exclusive)
    (different : other ≠ transaction) : ¬ (store.locks.modeOf other page).isSome :=
  fun held => different (LockTable.alone_of_exclusive alone held)

theorem keeps_exclusive {locks : LockService}
    (stronger : LockService.Strengthens other store.locks locks)
    (alone : store.locks.modeOf transaction page = some .exclusive) :
    locks.modeOf transaction page = some .exclusive := by
  by_cases own : transaction = other
  · subst own
    exact stronger.exclusive page alone
  · rw [stronger.others transaction page own, alone]

theorem Visits.leavesAlone (visits : Visits other store after) (distinct : Distinct store.tables)
    (stays : StaysCountable store after) (transaction : TransactionId) :
    LeavesAlone transaction store after :=
  ⟨⟨fun _ alone => keeps_exclusive visits.strengthens alone,
    fun page _ => visits.stands distinct stays page⟩,
    fun _ _ dirtied => visits.lookup_dirty (PageCopy.isClean_eq_false dirtied)⟩

theorem Guards.of_files (files : after.SameFiles before) (locks : after.locks = before.locks) :
    Guards transaction before after :=
  ⟨fun page alone => by rwa [locks], fun _ _ => .of_files files⟩

/-- Pages held exclusively can only be dirty for their holder, so it is enough to consider those. -/
theorem Custody.leavesAlone (custody : store.Custody) (still : after.Custody)
    (modes : ∀ page, after.locks.modeOf transaction page = store.locks.modeOf transaction page)
    (stands : ∀ page, store.locks.modeOf transaction page = some .exclusive →
      Stands store after page)
    (lookup : ∀ page, store.locks.modeOf transaction page = some .exclusive →
      after.cache[page]? = store.cache[page]?) : LeavesAlone transaction store after := by
  refine ⟨⟨fun page alone => (modes page).trans alone, stands⟩, fun page cached dirtied => ?_⟩
  constructor
  · intro present
    have alone := still.alone page cached transaction present dirtied
    rw [modes] at alone
    rwa [← lookup page alone]
  · intro present
    rwa [lookup page (custody.alone page cached transaction present dirtied)]

theorem Attempts.stands {attempts : List Attempt} (made : Attempts store attempts after)
    (backed : store.Backed) (apart : ∀ attempt ∈ attempts, attempt.page ≠ page) :
    Stands store after page := by
  obtain ⟨-, lengths⟩ := backed.tried made
  intro table known counted
  have whole := PageFile.length_bytesAt (PageFile.toNat_lt_of_lt_count counted)
  refine ⟨made.tables_eq ▸ known, ?_, made.bytesAt_other backed.labelled known whole apart⟩
  rwa [lengths.wholePages_eq]

section Others

variable (backed : store.Backed) (custody : store.Custody) (different : other ≠ transaction)

include custody different

theorem leavesAlone_change (writable : store.Writable other page cached) (content : Page) :
    LeavesAlone transaction store (store.install page (markedCopy cached content other)) := by
  have still : (store.install page (markedCopy cached content other)).Custody :=
    custody.install fun owner marked => by
      cases marked
      exact writable.alone
  refine custody.leavesAlone still (fun _ => rfl) (fun _ _ => .of_files ⟨rfl, rfl⟩) ?_
  intro place alone
  rw [lookup_install, if_neg]
  rintro rfl
  apply not_held_of_alone alone different
  rw [writable.alone]
  rfl

include backed

theorem leavesAlone_complete (commits : Bool) :
    LeavesAlone transaction store (store.complete commits other).2 := by
  refine custody.leavesAlone (custody.complete commits other) (fun page => ?_) ?_ ?_
  · rw [custody.modeOf_complete, if_neg different.symm]
  · intro page alone
    cases commits with
    | false => exact .of_files (store.files_abort other)
    | true =>
        obtain ⟨attempts, commits⟩ := backed.labelled.commits custody.consistent other
        obtain ⟨tried, made, same⟩ := commits.tried
        have stands : Stands store tried page := made.stands backed fun attempt member here => by
          obtain ⟨held, -⟩ :=
            (commits.every attempt.page attempt.copy).mp ⟨attempt, member, rfl, rfl⟩
          rw [here, holdsLock, LockTable.holds_eq] at held
          exact not_held_of_alone alone different held
        have files : (store.commit other).2.SameFiles tried := by
          rw [same]
          exact ⟨rfl, rfl⟩
        exact stands.trans (.of_files files)
  · intro page alone
    refine store.lookup_complete commits other fun listed => ?_
    exact not_held_of_alone alone different
      ((LockTable.mem_pagesOf_iff custody.consistent other page).mp listed)

theorem leavesAlone_flush : LeavesAlone transaction store (store.flushPages other).2 := by
  obtain ⟨attempts, after, flushing⟩ :=
    backed.flushing ((Extent.locked other).nodup_pages store)
  have same : (store.flushPages other).2 = after := congrArg Prod.snd flushing.done
  have uncovered {page : PageId} (alone : store.locks.modeOf transaction page = some .exclusive) :
      ¬ (Extent.locked other).Covers store page :=
    fun covered => not_held_of_alone alone different (Extent.covers_locked_iff.mp covered)
  refine custody.leavesAlone (custody.flushEach _) (fun page => ?_) ?_ ?_
  · rw [same, flushing.locks_eq]
  · intro page alone
    rw [same]
    refine flushing.made.stands backed fun attempt member here => ?_
    obtain ⟨-, -, covered⟩ := flushing.covered custody.consistent member
    exact uncovered alone (here ▸ covered)
  · intro page alone
    rw [same]
    exact flushing.lookup_spared custody.consistent fun _ _ _ => uncovered alone

end Others

end Store

end RecordStore
