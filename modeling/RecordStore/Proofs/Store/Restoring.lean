import RecordStore.Proofs.Store.Backing
import RecordStore.Proofs.Store.Residence
import RecordStore.Proofs.Store.Uncounted

set_option autoImplicit false

/-! `abort` drops the pages that its transaction has dirtied and writes nothing. Each of them can be
read again, as its before-image decodes: there is room for it and no transaction holds it. -/

namespace RecordStore

namespace Store

variable {store after : Store} {transaction : TransactionId} {page : PageId} {cached : PageCopy}
  {capacity : Nat}

/-! ### Abort -/

/-- Dropping pages cannot fail. -/
theorem settlePages_abort_ok (store : Store) (transaction : TransactionId) (pages : List PageId) :
    (store.settlePages false transaction pages).1 = none := by
  induction pages generalizing store with
  | nil => rfl
  | cons page pages ih =>
      have none : (store.settlePage false page).1 = .none := by
        unfold settlePage
        split
        · rfl
        · split <;> rfl
      rw [settlePages]
      simp only [none, ih, Option.or_none]

theorem abort_ok (store : Store) (transaction : TransactionId) :
    store.abort transaction = (.ok (), (store.abort transaction).2) := by
  have none := store.settlePages_abort_ok transaction (store.locks.table.pagesOf transaction)
  rw [abort, complete]
  simp only [none]

theorem directory_abort (store : Store) (transaction : TransactionId) :
    (store.abort transaction).2.directory = store.directory := by
  rw [abort, complete_eq]
  exact store.directory_settlePages_abort transaction _

theorem Custody.lookup_abort_dirtied (custody : store.Custody)
    (present : store.cache[page]? = some cached)
    (dirtied : cached.page.dirtier = some transaction) :
    (store.abort transaction).2.cache[page]? = none := by
  have alone := custody.alone page cached transaction present dirtied
  have listed : page ∈ store.locks.table.pagesOf transaction := by
    rw [LockTable.mem_pagesOf_iff custody.consistent]
    change (store.locks.modeOf transaction page).isSome = true
    rw [alone]
    rfl
  obtain ⟨earlier, later, order⟩ := List.append_of_mem listed
  have gone : (store.abort transaction).2.isCached page = false :=
    (gone_complete order present (PageCopy.isClean_eq_false dirtied)).mpr Bool.noConfusion
  rw [isCached, contains_eq_isSome, Option.isSome_eq_false_iff, Option.isNone_iff_eq_none] at gone
  exact gone

/-- `abort` drops exactly the pages that the transaction has dirtied. -/
theorem Custody.cache_abort (custody : store.Custody) (transaction : TransactionId) :
    (store.abort transaction).2.cache =
      store.cache.filter fun _ cached => decide (cached.page.dirtier ≠ some transaction) := by
  apply Std.ExtTreeMap.ext_getElem?
  intro page
  rw [Std.ExtTreeMap.getElem?_filter']
  by_cases own : store.Dirtied transaction page
  · obtain ⟨cached, present, dirtied⟩ := own
    rw [custody.lookup_abort_dirtied present dirtied, present, Option.filter_some_neg]
    rw [dirtied]
    exact decide_eq_false (not_not_intro rfl)
  · rw [show (store.abort transaction).2.cache[page]? = _ from
      custody.lookup_complete_undirty false transaction own]
    cases present : store.cache[page]? with
    | none => rfl
    | some cached =>
        rw [Option.filter_some_pos]
        exact decide_eq_true fun dirtied => own ⟨cached, present, dirtied⟩

/-! ### Getting a page that is not cached -/

/-- `getPage` of an unlocked page that is not cached reads it from the file if there is room. -/
theorem getPage_read {table : Table} {found : Page} (consistent : store.locks.table.Consistent)
    (unlocked : ∀ other, store.locks.modeOf other page = none)
    (absent : store.cache[page]? = none) (room : store.cache.size < store.capacity)
    (known : store.tables[page.table]? = some table)
    (read : table.readPage store.directory page = .ok found) (transaction : TransactionId)
    (access : Access) :
    ∃ final, store.getPage transaction page access =
      (.ok ⟨store.nextSerial, found, false⟩, final) := by
  obtain ⟨locks, acquired⟩ : ∃ locks,
      store.locks.acquire transaction page access.mode 0 = (.ok (), locks) :=
    LockService.acquire_alone page access.mode 0 consistent fun other _ => unlocked other
  have made := @makeRoom_of_lt { store with locks := locks } room
  have registered : ({ store with locks := locks } : Store).table? page.table = .ok table := by
    rw [table?, known]
  rw [getPage, acquire, acquired]
  simp only [fetch, absent, load, registered, made, read]
  exact ⟨_, rfl⟩

section Dirtied

variable (present : store.cache[page]? = some cached)
  (dirtied : cached.page.dirtier = some transaction)

include present dirtied

theorem Custody.modeOf_abort_dirtied (custody : store.Custody) (other : TransactionId) :
    (store.abort transaction).2.locks.modeOf other page = none := by
  have alone := custody.alone page cached transaction present dirtied
  rw [show (store.abort transaction).2.locks.modeOf other page = _ from
    custody.modeOf_complete false transaction other page]
  by_cases own : other = transaction
  · rw [if_pos own]
  · rw [if_neg own]
    cases held : store.locks.modeOf other page with
    | none => rfl
    | some mode =>
        refine absurd (LockTable.alone_of_exclusive alone ?_) own
        change (store.locks.modeOf other page).isSome = true
        rw [held]
        rfl

theorem Custody.room_abort_dirtied (custody : store.Custody) (bounded : store.Bounded capacity) :
    (store.abort transaction).2.cache.size < (store.abort transaction).2.capacity := by
  have same : (store.abort transaction).2.capacity = capacity :=
    (bounded.complete false transaction).capacityIs
  rw [same, custody.cache_abort]
  refine Nat.lt_of_lt_of_le (size_filter_lt store.cache present ?_) bounded.within
  rw [dirtied]
  exact decide_eq_false (not_not_intro rfl)

/-- A page dirtied by the transaction is read again as its before-image decodes. -/
theorem Backed.getPage_restored (backed : store.Backed) (custody : store.Custody)
    (bounded : store.Bounded capacity) (other : TransactionId) (access : Access) :
    ∃ copy final, (store.abort transaction).2.getPage other page access = (.ok copy, final) ∧
      copy.isClean = true ∧ cached.page.beforePage = .ok copy.page := by
  obtain ⟨table, known, faithful⟩ := backed.faithful page cached present
  obtain ⟨found, read, -⟩ := faithful.readable
  have still : (store.abort transaction).2.tables[page.table]? = some table := by
    rw [show (store.abort transaction).2.tables = _ from (custody.ended false transaction).tables]
    exact known
  have again : table.readPage (store.abort transaction).2.directory page = .ok found := by
    rw [directory_abort]
    exact read
  obtain ⟨final, got⟩ := getPage_read (bounded.complete false transaction).consistent
    (custody.modeOf_abort_dirtied present dirtied) (custody.lookup_abort_dirtied present dirtied)
    (custody.room_abort_dirtied present dirtied bounded) still again other access
  refine ⟨_, final, got, isClean_of_readPage read _, ?_⟩
  obtain ⟨-, -, -, decoded⟩ := Table.readPage_ok_iff.mp read
  rw [Page.beforePage, faithful.idIs, faithful.sound.schemaIs, faithful.image]
  exact decoded

end Dirtied

/-- With `UInt32.size` pages in the file a page dirtied by the transaction cannot be read again. -/
theorem Custody.getPage_lost {table : Table} {number : UInt32} (custody : store.Custody)
    (bounded : store.Bounded capacity) (present : store.cache[table.page number]? = some cached)
    (dirtied : cached.page.dirtier = some transaction) (usable : table.Usable)
    (known : store.tables[table.id]? = some table)
    (whole : table.pages.wholePages store.directory = UInt32.size) (other : TransactionId)
    (access : Access) :
    ((store.abort transaction).2.getPage other (table.page number) access).1 =
      .error (.refused (.missingPage (table.page number))) := by
  have still : (store.abort transaction).2.tables[table.id]? = some table := by
    rw [show (store.abort transaction).2.tables = _ from (custody.ended false transaction).tables]
    exact known
  exact getPage_uncounted usable still (custody.lookup_abort_dirtied present dirtied)
    (makeRoom_of_lt (custody.room_abort_dirtied present dirtied bounded))
    (bounded.complete false transaction).consistent
    (custody.modeOf_abort_dirtied present dirtied)
    (by rw [directory_abort]; exact PageFile.count_of_size usable.positive whole) other access

end Store

namespace System

/-- After any `Untampered` and `Proper` actions that keep the pages countable, `abort` succeeds,
writes nothing and drops exactly the pages dirtied by its transaction. Each of them can be had
again, clean and equal to its decoded before-image. -/
theorem abort_restores_before_images {directory : Directory} {capacity : Nat} {range : WaitRange}
    {preference : Preference} {system : System}
    (course : Course (fun system action =>
      action.Untampered system ∧ action.Proper system ∧
        Store.StaysCountable system.store (system.act action).store)
      (untouched directory capacity range preference) system)
    (transaction : TransactionId) :
    ∃ after, system.store.abort transaction = (.ok (), after) ∧
      after.directory = system.store.directory ∧
      after.cache = (system.store.cache.filter fun _ cached =>
        decide (cached.page.dirtier ≠ some transaction)) ∧
      ∀ (page : PageId) (cached : PageCopy), system.store.cache[page]? = some cached →
        cached.page.dirtier = some transaction →
        ∀ (other : TransactionId) (access : Access), ∃ copy final,
          after.getPage other page access = (.ok copy, final) ∧ copy.isClean = true ∧
            cached.page.beforePage = .ok copy.page := by
  have backed := (course.mono fun _ _ allowed => ⟨allowed.1, allowed.2.2⟩).backed
    (.untouched directory capacity range preference)
  have custody := (course.mono fun _ _ allowed => allowed.2.1).custody
    (.untouched directory capacity range preference)
  have bounded := course.bounded (Store.Bounded.untouched directory capacity range preference)
  refine ⟨_, system.store.abort_ok transaction, system.store.directory_abort transaction,
    custody.cache_abort transaction, ?_⟩
  intro page cached present dirtied other access
  exact backed.getPage_restored present dirtied custody bounded other access

/-- The number on a page was replaced. After the abort a reader gets the one that was committed
before. -/
theorem abort_restores_before_images_small :
    ∃ (system : System) (cached copy : PageCopy) (after final : Store),
      Course (fun system action =>
        action.Untampered system ∧ action.Proper system ∧
          Store.StaysCountable system.store (system.act action).store)
        (untouched small.store.directory 1 .standard fun _ _ => 0) system ∧
      system.store.cache[numbers.page 0]? = some cached ∧
      cached.page.dirtier = some ⟨2⟩ ∧ cached.page.contents = [some [.int 6]] ∧
      system.store.abort ⟨2⟩ = (.ok (), after) ∧ after.directory = system.store.directory ∧
      after.getPage ⟨3⟩ (numbers.page 0) .readOnly = (.ok copy, final) ∧
      cached.page.beforePage = .ok copy.page ∧ copy.page.contents = [some [.int 5]] := by
  have course := Course.step (.register numbers)
    (.start : Course (fun system action =>
      action.Untampered system ∧ action.Proper system ∧
        Store.StaysCountable system.store (system.act action).store)
      (untouched small.store.directory 1 .standard fun _ _ => 0) _)
    ⟨⟨rfl, fun id other known => absurd known (untouched_unknown _ _ _ _ id other)⟩, trivial,
      fun id other known => absurd known (untouched_unknown _ _ _ _ id other)⟩
  have course := course.step
    (.operation (.insert ⟨1⟩ ⟨7⟩ ⟨numbers.schema, [.int 5], none, rfl⟩))
    ⟨trivial, trivial, .of_countable rfl (Store.countable_single rfl (by decide +kernel))⟩
  have course := course.step (.operation (.commit ⟨1⟩))
    ⟨trivial, trivial, .of_countable rfl (Store.countable_single rfl (by decide +kernel))⟩
  have course := course.step (.operation (.delete ⟨2⟩ (some ⟨numbers.page 0, 0⟩)))
    ⟨trivial, trivial, .of_countable rfl (Store.countable_single rfl (by decide +kernel))⟩
  have course := course.step
    (.operation (.insert ⟨2⟩ ⟨7⟩ ⟨numbers.schema, [.int 6], none, rfl⟩))
    ⟨trivial, trivial, .of_countable rfl (Store.countable_single rfl (by decide +kernel))⟩
  obtain ⟨after, aborted, same, -, restored⟩ := abort_restores_before_images course ⟨2⟩
  obtain ⟨copy, final, got, -, shown⟩ :=
    restored (numbers.page 0) _ rfl rfl ⟨3⟩ .readOnly
  refine ⟨_, _, copy, after, final, course, rfl, rfl, by decide +kernel, aborted, same, got, shown,
    ?_⟩
  have given := congrArg (fun page => page.map Page.contents) shown
  exact Except.ok.inj (given.symm.trans rfl)

/-- Without `StaysCountable` the page may be lost. With `UInt32.size - 1` pages full and the last of
them dirty, the next insert appends a page and fails, as `count` is zero from then on. After the
abort the page that was dirty cannot be read. -/
theorem abort_loses_uncounted_page :
    ∃ (system : System) (page : PageId) (cached : PageCopy) (after : Store),
      Course Action.Regular (untouched (.empty "" []) 2 .standard fun _ _ => 0) system ∧
      system.store.cache[page]? = some cached ∧ cached.page.dirtier = some ⟨1⟩ ∧
      system.store.abort ⟨1⟩ = (.ok (), after) ∧
      ∀ (other : TransactionId) (access : Access),
        (after.getPage other page access).1 = .error (.refused (.missingPage page)) := by
  let row : Row := ⟨numbers.schema, [.int 5], none, rfl⟩
  obtain ⟨early, course, coherent, filled, undrafted, capacity⟩ :=
    @course_filled numbers row (.empty "" []) 2 .standard (fun _ _ => 0) (by decide) rfl rfl rfl
      ⟨1⟩ 4294967294 (by decide)
  have course := course.step (.operation (.insert ⟨1⟩ numbers.id row)) ⟨trivial, trivial⟩
  -- the page numbered `UInt32.size - 2` is dirty
  generalize dirtied : early.act (.operation (.insert ⟨1⟩ numbers.id row)) = system at course
  obtain ⟨coherent, filled, same, drafts, -⟩ := coherent.insert_filled filled rfl rfl
    (by rw [undrafted, capacity]; decide) (by decide) dirtied
  rw [undrafted] at drafts
  have drafted : system.store.bare.drafts[numbers.page (UInt32.ofNat 4294967294)]? =
      some ⟨⟨1⟩, [some row.stored]⟩ := by
    rw [drafts]
    exact Std.ExtTreeMap.getElem?_insert_self
  obtain ⟨cached, present, dirtied, -⟩ := Store.cached_of_draft drafted
  have room : system.store.bare.drafts.size < system.store.bare.capacity := by
    rw [same, capacity, drafts, size_insert_of_absent _ Std.ExtTreeMap.getElem?_empty]
    decide
  obtain ⟨after, refused, whole, -⟩ := @Store.Coherent.insert_past system.store ⟨1⟩ numbers row
    4294967295 filled.known rfl rfl coherent.store filled room rfl
  have course := course.step (.operation (.insert ⟨1⟩ numbers.id row)) ⟨trivial, trivial⟩
  have visits := Store.visits_of_refused refused
  have afterIs : (system.act (.operation (.insert ⟨1⟩ numbers.id row))).store = after :=
    congrArg (fun result => result.2.2) refused
  have still := (visits.lookup_dirty (PageCopy.isClean_eq_false dirtied)).mpr present
  have custody := (course.mono fun _ _ regular => regular.2).custody
    (.untouched (.empty "" []) 2 .standard fun _ _ => 0)
  have bounded := course.bounded
    (Store.Bounded.untouched (.empty "" []) 2 .standard fun _ _ => 0)
  refine ⟨_, _, cached, _, course, afterIs ▸ still, dirtied, Store.abort_ok _ _, ?_⟩
  rw [afterIs] at custody bounded ⊢
  exact custody.getPage_lost bounded still dirtied
    (@Table.usable_of_slotsPerPage numbers 1 rfl Nat.one_ne_zero).1
    (visits.tables_eq ▸ filled.known) whole

end System

end RecordStore
