import RecordStore.Proofs.Store.Coherence

set_option autoImplicit false

/-! `fetch` and `getPage` follow their bare versions, whether the page is cached or read, and
whatever is evicted. -/

namespace RecordStore

namespace Store

structure SameFiles (after before : Store) : Prop where
  directoryIs : after.directory = before.directory
  tablesAre : after.tables = before.tables

theorem SameFiles.trans {first second third : Store} (later : first.SameFiles second)
    (earlier : second.SameFiles third) : first.SameFiles third :=
  ⟨later.directoryIs.trans earlier.directoryIs, later.tablesAre.trans earlier.tablesAre⟩

theorem files_evict (store : Store) : store.evict.2.SameFiles store := by
  unfold evict
  split <;> exact ⟨rfl, rfl⟩

theorem files_makeRoom (store : Store) : store.makeRoom.2.SameFiles store := by
  unfold makeRoom
  split
  · exact store.files_evict
  · exact ⟨rfl, rfl⟩

theorem files_load (store : Store) (page : PageId) : (store.load page).2.SameFiles store := by
  have files := store.files_makeRoom
  unfold load
  split
  · exact ⟨rfl, rfl⟩
  · split
    · next made =>
        rw [made] at files
        exact files
    · next made =>
        rw [made] at files
        split
        · exact files
        · exact ⟨files.directoryIs, files.tablesAre⟩

theorem files_getPage (store : Store) (transaction : TransactionId) (page : PageId)
    (access : Access) : (store.getPage transaction page access).2.SameFiles store := by
  unfold getPage acquire
  cases store.locks.acquire transaction page access.mode 0 with
  | mk outcome locks =>
      cases outcome with
      | error failure => exact ⟨rfl, rfl⟩
      | ok done =>
          simp only [fetch]
          split
          · exact ⟨rfl, rfl⟩
          · have files := files_load { store with locks := locks } page
            exact ⟨files.directoryIs, files.tablesAre⟩

structure Fetches (store : Store) (page : PageId) (result : Except Failure PageCopy × Store)
    (expected : Except Failure Slots × Bare) : Prop where
  coherent : result.2.Coherent
  bareIs : result.2.bare = expected.2
  answered : result.1.map (fun cached => cached.page.contents) = expected.1
  present : ∀ cached, result.1 = .ok cached → result.2.cache[page]? = some cached
  files : result.2.SameFiles store

variable {store : Store} {page : PageId}

theorem Coherent.install (coherent : store.Coherent) {table : Table} {cached : PageCopy}
    (known : store.tables[page.table]? = some table)
    (faithful : cached.Faithful table store.directory page)
    (room : store.cache[page]?.isSome ∨ store.cache.size < store.capacity) :
    (store.install page cached).Coherent := by
  refine ⟨coherent.distinct, coherent.countable, ?_, ?_⟩
  · intro other copy present
    rw [Store.install, lookup_insert] at present
    split at present
    · next same =>
        cases present
        subst same
        exact ⟨table, known, faithful⟩
    · exact coherent.faithful other copy present
  · change (store.cache.insert page cached).size ≤ store.capacity
    have bounded := coherent.bounded
    cases before : store.cache[page]? with
    | none =>
        rw [before] at room
        have less : store.cache.size < store.capacity :=
          room.resolve_left Bool.false_ne_true
        rw [size_insert_of_absent _ before]
        omega
    | some former =>
        rw [size_insert_of_present _ (by rw [before]; rfl)]
        exact bounded

theorem faithful_of_readPage {table : Table} {directory : Directory} {content : Page}
    (read : table.readPage directory page = .ok content) (serial : Nat) :
    (⟨serial, content, false⟩ : PageCopy).Faithful table directory page := by
  obtain ⟨-, inside, loaded⟩ := Table.readPage_ok read
  have sound := loaded.sound
  rw [PageFile.length_bytesAt inside] at sound
  exact ⟨loaded.idIs, rfl, sound, inside, loaded.image, content, read, fun _ => ⟨rfl, rfl⟩⟩

theorem isClean_of_readPage {table : Table} {directory : Directory} {content : Page}
    (read : table.readPage directory page = .ok content) (serial : Nat) :
    (⟨serial, content, false⟩ : PageCopy).isClean = true := by
  obtain ⟨-, -, loaded⟩ := Table.readPage_ok read
  rw [PageCopy.isClean, Page.isDirty, loaded.clean]
  rfl

theorem Coherent.installRead (coherent : store.Coherent) {table : Table} {content : Page}
    (vacant : store.cache[page]? = none) (room : store.cache.size < store.capacity)
    (known : store.tables[page.table]? = some table)
    (read : table.readPage store.directory page = .ok content) :
    (({ store with nextSerial := store.nextSerial + 1 } : Store).install page
        ⟨store.nextSerial, content, false⟩).Coherent ∧
      (({ store with nextSerial := store.nextSerial + 1 } : Store).install page
        ⟨store.nextSerial, content, false⟩).bare = store.bare := by
  have numbered : ({ store with nextSerial := store.nextSerial + 1 } : Store).Coherent :=
    ⟨coherent.distinct, coherent.countable, coherent.faithful, coherent.bounded⟩
  constructor
  · exact numbered.install known (faithful_of_readPage read store.nextSerial) (.inr room)
  · have clean := isClean_of_readPage read store.nextSerial
    exact @bare_install_clean { store with nextSerial := store.nextSerial + 1 } page _ vacant clean

theorem Coherent.load (coherent : store.Coherent) (absent : store.cache[page]? = none) :
    Fetches store page (store.load page) (store.bare.fetch page, store.bare) := by
  have undrafted : store.bare.drafts[page]? = none := by
    rw [draft_lookup, absent]
    rfl
  unfold Store.load Bare.fetch
  rw [undrafted]
  cases known : store.tables[page.table]? with
  | none =>
      have unknown : store.table? page.table = .error (.unknownTable page.table) := by
        rw [table?, known]
      have also : store.bare.table? page.table = .error (.unknownTable page.table) := by
        rw [Bare.table?, show store.bare.tables = store.tables from rfl, known]
      rw [unknown, also]
      exact ⟨coherent, rfl, rfl, (fun _ answer => by cases answer), ⟨rfl, rfl⟩⟩
  | some table =>
      have found : store.table? page.table = .ok table := by
        rw [table?, known]
      have also : store.bare.table? page.table = .ok table := by
        rw [Bare.table?, show store.bare.tables = store.tables from rfl, known]
      have room := coherent.makeRoom_eq absent
      rw [found, also]
      simp only
      split at room
      · next full =>
          rw [room, if_pos full]
          exact ⟨coherent, rfl, rfl, (fun _ answer => by cases answer), ⟨rfl, rfl⟩⟩
      · next notFull =>
          obtain ⟨after, made, afterCoherent, afterBare, same, vacant, less⟩ := room
          have tables : after.tables = store.tables := congrArg Bare.tables afterBare
          have stands : store.bare.written page =
              (table.readPage store.directory page).map Page.contents :=
            written_of_table known
          have again : table.readPage after.directory page =
              table.readPage store.directory page := by rw [same]
          rw [made, if_neg notFull, stands]
          cases read : table.readPage store.directory page with
          | error failure =>
              simp only [again, read]
              exact ⟨afterCoherent, afterBare, rfl, (fun _ answer => by cases answer),
                ⟨same, tables⟩⟩
          | ok content =>
              have knownAfter : after.tables[page.table]? = some table := by
                rw [tables]
                exact known
              obtain ⟨installed, bareIs⟩ :=
                afterCoherent.installRead vacant less knownAfter (again.trans read)
              simp only [again, read]
              refine ⟨installed, bareIs.trans afterBare, rfl, ?_, ⟨same, tables⟩⟩
              intro cached answer
              cases answer
              exact Std.ExtTreeMap.getElem?_insert_self

theorem Coherent.fetch (coherent : store.Coherent) (page : PageId) :
    Fetches store page (store.fetch page) (store.bare.fetch page, store.bare) := by
  rw [Store.fetch]
  cases present : store.cache[page]? with
  | none => exact coherent.load present
  | some cached =>
      refine ⟨coherent, rfl, ?_, ?_, ⟨rfl, rfl⟩⟩
      · have lookup := draft_lookup store page
        rw [present, Option.bind_some] at lookup
        rw [Bare.fetch, lookup]
        cases dirty : cached.draft? with
        | some draft =>
            rw [PageCopy.draft?, Option.map_eq_some_iff] at dirty
            obtain ⟨transaction, -, rfl⟩ := dirty
            rfl
        | none =>
            obtain ⟨table, known, faithful⟩ := coherent.faithful page cached present
            obtain ⟨found, read, shown⟩ := faithful.readable
            have contents := (shown (cached.draft?_eq_none_iff.mp dirty)).1
            have less : store.drafts.size < store.cache.size :=
              size_filterMap_lt store.cache PageCopy.draft? present dirty
            have bounded := coherent.bounded
            have notFull : ¬ store.bare.isFull = true := by
              rw [Bare.isFull, decide_eq_true_iff]
              change ¬ store.capacity ≤ store.drafts.size
              omega
            have also : store.bare.table? page.table = .ok table := by
              rw [Bare.table?, show store.bare.tables = store.tables from rfl, known]
            have stands : store.bare.written page = .ok found.contents := by
              rw [show store.bare.written page = _ from written_of_table known, Table.written, read]
              rfl
            rw [also]
            simp only [if_neg notFull, stands, contents]
            rfl
      · intro other answer
        cases answer
        exact present

theorem Coherent.withLocks (coherent : store.Coherent) (locks : LockService) :
    ({ store with locks := locks } : Store).Coherent :=
  ⟨coherent.distinct, coherent.countable, coherent.faithful, coherent.bounded⟩

theorem Coherent.getPage (coherent : store.Coherent) (transaction : TransactionId) (page : PageId)
    (access : Access) :
    Fetches store page (store.getPage transaction page access)
      (store.bare.getPage transaction page access) := by
  rw [Store.getPage, Bare.getPage, Store.acquire, Bare.acquire,
    show store.bare.locks = store.locks from rfl]
  cases asked : store.locks.acquire transaction page access.mode 0 with
  | mk outcome locks =>
      cases outcome with
      | error failure =>
          exact ⟨coherent.withLocks locks, rfl, rfl, (fun _ answer => by cases answer), ⟨rfl, rfl⟩⟩
      | ok done =>
          have fetched := (coherent.withLocks locks).fetch page
          exact ⟨fetched.coherent, fetched.bareIs, fetched.answered, fetched.present,
            ⟨fetched.files.directoryIs, fetched.files.tablesAre⟩⟩

end Store

end RecordStore
