import RecordStore.Proofs.Store.Writing

set_option autoImplicit false

/-! `insert` and `delete` follow their bare versions: the search for a page, the append and the
change of a slot are the same with the clean pages forgotten. -/

namespace RecordStore

namespace Store

variable {store : Store} {page : PageId} {table : Table} {row : Row}
  {transaction : TransactionId}

/-! ### Changing a fetched page -/

def markedCopy (cached : PageCopy) (content : Page) (transaction : TransactionId) : PageCopy :=
  cached.withPage (content.marked (some transaction))

/-- Marking a page that was just fetched needs no room, as the page is cached. -/
theorem installDirty_update {cached : PageCopy} (present : store.cache[page]? = some cached)
    (content : Page) (transaction : TransactionId) :
    (store.update page (cached.withPage content)).installDirty transaction page
        (cached.withPage content) =
      (.ok (), store.install page (markedCopy cached content transaction)) := by
  have first : store.update page (cached.withPage content) =
      store.install page (cached.withPage content) := by
    have same : cached.same (cached.withPage content) = true := beq_self_eq_true _
    rw [update, present]
    exact if_pos same
  have second : (store.install page (cached.withPage content)).update page
      (markedCopy cached content transaction) =
      store.install page (markedCopy cached content transaction) := by
    have same : (cached.withPage content).same (markedCopy cached content transaction) = true :=
      beq_self_eq_true _
    have held : (store.install page (cached.withPage content)).cache[page]? =
        some (cached.withPage content) := Std.ExtTreeMap.getElem?_insert_self
    rw [update, held]
    simp only [if_pos same, install, insert_insert]
  have held : (store.install page (markedCopy cached content transaction)).isCached page = true :=
    Std.ExtTreeMap.contains_insert_self
  rw [first, installDirty]
  change (if ((store.install page (cached.withPage content)).update page
      (markedCopy cached content transaction)).isCached page = true then _ else _) = _
  rw [second, if_pos held]
  change (Except.ok (), ((store.install page (cached.withPage content)).update page
    (markedCopy cached content transaction)).install page
      (markedCopy cached content transaction)) = _
  rw [second]
  simp only [install, insert_insert]

theorem Coherent.change (coherent : store.Coherent) {cached : PageCopy}
    (present : store.cache[page]? = some cached)
    (known : store.tables[page.table]? = some table) {content : Page}
    (sound : content.Sound table.schema table.pageSize) (idIs : content.id = page)
    (image : content.beforeImage = cached.page.beforeImage) (transaction : TransactionId) :
    (store.install page (markedCopy cached content transaction)).Coherent ∧
      (store.install page (markedCopy cached content transaction)).bare =
        store.bare.change transaction page content.contents := by
  obtain ⟨same, sameKnown, faithful⟩ := coherent.faithful page cached present
  rw [known] at sameKnown
  cases sameKnown
  constructor
  · refine coherent.install known ?_ (Or.inl (by rw [present]; rfl))
    obtain ⟨found, read, -⟩ := faithful.readable
    exact ⟨idIs, faithful.unlatched, sound.marked _, faithful.inside,
      image.trans faithful.image, found, read, fun clean => by cases clean⟩
  · have drafts : (store.install page (markedCopy cached content transaction)).drafts =
        store.drafts.insert page ⟨transaction, content.contents⟩ :=
      filterMap_insert store.cache PageCopy.draft? page _
    rw [bare, drafts]
    rfl

/-! ### Finding a place -/

structure Fitting (row : Row) (origin middle : Store) (page : PageId) (cached : PageCopy)
    (content : Page) (slot : Nat) : Prop where
  coherent : middle.Coherent
  files : middle.SameFiles origin
  present : middle.cache[page]? = some cached
  free : Slots.free? cached.page.contents = some slot
  inserted : cached.page.insert row = .ok (⟨page, slot⟩, content)

inductive Finds (row : Row) (origin : Store) :
    Except Failure (Option Placement) × Store → Except Failure (Option Vacancy) × Bare → Prop where
  | failed {after : Store} (failure : Failure) :
      after.Coherent → after.SameFiles origin →
      Finds row origin (.error failure, after) (.error failure, after.bare)
  | nowhere {after : Store} :
      after.Coherent → after.SameFiles origin →
      Finds row origin (.ok none, after) (.ok none, after.bare)
  | found {middle : Store} {page : PageId} {cached : PageCopy} {content : Page} {slot : Nat} :
      Fitting row origin middle page cached content slot →
      Finds row origin
        (.ok (some ⟨⟨page, slot⟩, page, cached.withPage content⟩),
          middle.update page (cached.withPage content))
        (.ok (some ⟨page, cached.page.contents, slot⟩), middle.bare)

theorem Coherent.placeAt (coherent : store.Coherent) (page : PageId)
    (known : store.tables[page.table]? = some table)
    (fits : row.schema.types = table.schema.types) (transaction : TransactionId) :
    Finds row store (store.placeAt transaction page row) (store.bare.seekAt transaction page) := by
  have fetches := coherent.getPage transaction page .readWrite
  unfold Store.placeAt Bare.seekAt
  generalize store.getPage transaction page .readWrite = result at fetches ⊢
  generalize store.bare.getPage transaction page .readWrite = expected at fetches ⊢
  obtain ⟨outcome, after⟩ := result
  obtain ⟨slots, bare⟩ := expected
  obtain ⟨afterCoherent, rfl, answered, present, files⟩ := fetches
  cases outcome with
  | error failure =>
      cases answered
      exact .failed failure afterCoherent files
  | ok cached =>
      cases answered
      have held := present cached rfl
      obtain ⟨same, sameKnown, faithful⟩ := afterCoherent.faithful page cached held
      rw [files.tablesAre, known] at sameKnown
      cases sameKnown
      have sound := faithful.sound
      simp only [placeOn]
      cases free : Slots.free? cached.page.contents with
      | none =>
          rw [if_pos (sound.freeCount_eq_zero_iff.mpr free)]
          exact .nowhere afterCoherent files
      | some slot =>
          have some : ¬ cached.page.freeCount = 0 := by
            rw [sound.freeCount_eq_zero_iff, free]
            exact Option.some_ne_none slot
          obtain ⟨content, inserted, -⟩ := sound.insert_eq fits free
          rw [faithful.idIs] at inserted
          rw [if_neg some, inserted]
          exact .found ⟨afterCoherent, files, held, free, inserted⟩

theorem Finds.of_files {origin earlier : Store} {result : Except Failure (Option Placement) × Store}
    {expected : Except Failure (Option Vacancy) × Bare} (finds : Finds row origin result expected)
    (files : origin.SameFiles earlier) : Finds row earlier result expected := by
  cases finds with
  | failed failure coherent same => exact .failed failure coherent (same.trans files)
  | nowhere coherent same => exact .nowhere coherent (same.trans files)
  | found fitting =>
      exact .found ⟨fitting.coherent, fitting.files.trans files, fitting.present, fitting.free,
        fitting.inserted⟩

theorem Coherent.placeAmong (coherent : store.Coherent)
    (known : store.tables[table.id]? = some table)
    (fits : row.schema.types = table.schema.types) (transaction : TransactionId)
    (first length : Nat) :
    Finds row store (store.placeAmong table transaction row first length)
      (store.bare.seek table transaction first length) := by
  induction length generalizing store first with
  | zero => exact .nowhere coherent ⟨rfl, rfl⟩
  | succ length ih =>
      have finds := coherent.placeAt (table.page (UInt32.ofNat first)) known fits transaction
      unfold Store.placeAmong Bare.seek
      generalize store.placeAt transaction (table.page (UInt32.ofNat first)) row = result
        at finds ⊢
      generalize store.bare.seekAt transaction (table.page (UInt32.ofNat first)) = expected
        at finds ⊢
      cases finds with
      | failed failure afterCoherent files => exact .failed failure afterCoherent files
      | found fitting => exact .found fitting
      | nowhere afterCoherent files =>
          exact (ih afterCoherent (files.tablesAre ▸ known) (first + 1)).of_files files

/-! ### Appending a page for a row -/

/-- A page that was just appended has a free slot. -/
theorem seekAt_grow_ne_nowhere {bare : Bare}
    (fresh : bare.drafts[bare.nextPage table]? = none)
    (some : Layout.slotCount table.pageSize table.schema.width ≠ 0)
    (transaction : TransactionId) :
    ((bare.grow table).seekAt transaction (bare.nextPage table)).1 ≠ .ok none := by
  unfold Bare.seekAt Bare.getPage Bare.acquire
  cases (bare.grow table).locks.acquire transaction (bare.nextPage table)
    Access.readWrite.mode 0 with
  | mk outcome locks =>
      cases outcome with
      | error failure => exact fun nowhere => by cases nowhere
      | ok done =>
          have undrafted : (bare.grow table).drafts[bare.nextPage table]? = none := fresh
          simp only [Bare.fetch, undrafted]
          cases Bare.table? { bare.grow table with locks := locks } (bare.nextPage table).table with
          | error error => exact fun nowhere => by cases nowhere
          | ok known =>
              simp only
              split
              · next failure fetched => exact fun nowhere => by cases nowhere
              · next slots after fetched =>
                  split at fetched
                  · cases fetched
                  · simp only [Bare.grow, Bare.write, if_pos, Prod.mk.injEq, Except.ok.injEq]
                      at fetched
                    obtain ⟨rfl, -⟩ := fetched
                    intro nowhere
                    rw [Except.ok.injEq, Option.map_eq_none_iff] at nowhere
                    exact Slots.free?_replicate some nowhere

theorem nextPage_bare (known : store.tables[table.id]? = some table) :
    store.bare.nextPage table =
      table.page (UInt32.ofNat (table.pages.wholePages store.directory)) := by
  rw [← counts_of_table known]
  rfl

theorem Coherent.fresh (coherent : store.Coherent) (known : store.tables[table.id]? = some table) :
    store.bare.drafts[store.bare.nextPage table]? = none := by
  rw [draft_lookup]
  cases present : store.cache[store.bare.nextPage table]? with
  | none => rfl
  | some cached =>
      obtain ⟨same, sameKnown, faithful⟩ := coherent.faithful _ cached present
      change store.tables[table.id]? = some same at sameKnown
      rw [known] at sameKnown
      cases sameKnown
      have inside := faithful.inside
      have countable := coherent.countable _ _ known
      have exact : (store.bare.nextPage table).number.toNat =
          table.pages.wholePages store.directory := by
        rw [nextPage_bare known]
        exact UInt32.toNat_ofNat_of_lt' countable
      omega

theorem allocate_eq (coherent : store.Coherent) (known : store.tables[table.id]? = some table)
    (usable : table.Usable) :
    table.pages.allocate store.directory =
      .ok (UInt32.ofNat (table.pages.wholePages store.directory),
        (store.grown table).directory) := by
  rw [PageFile.allocate_eq usable.positive (coherent.countable _ _ known),
    if_neg (Nat.not_lt.mpr usable.bounded)]
  rfl

inductive Places (row : Row) (tables : Std.ExtTreeMap TableId Table) :
    Except Failure Placement × Store → Except Failure Vacancy × Bare → Prop where
  | failed {after : Store} (failure : Failure) :
      after.Coherent → Places row tables (.error failure, after) (.error failure, after.bare)
  | placed {origin middle : Store} {page : PageId} {cached : PageCopy} {content : Page}
      {slot : Nat} :
      Fitting row origin middle page cached content slot → origin.tables = tables →
      Places row tables
        (.ok ⟨⟨page, slot⟩, page, cached.withPage content⟩,
          middle.update page (cached.withPage content))
        (.ok ⟨page, cached.page.contents, slot⟩, middle.bare)

theorem Coherent.placeAppended (coherent : store.Coherent)
    (known : store.tables[table.id]? = some table) (usable : table.Usable)
    (fits : row.schema.types = table.schema.types)
    (some : Layout.slotCount table.pageSize table.schema.width ≠ 0)
    (small : table.pages.wholePages store.directory + 1 < UInt32.size) (transaction : TransactionId)
    (tries : Nat) :
    Places row store.tables (placeAppended table transaction row (tries + 1) store)
      (store.bare.seekNew table transaction) := by
  obtain ⟨grownCoherent, grownBare⟩ := coherent.grown known usable small
  have next := nextPage_bare known
  have finds := grownCoherent.placeAt (store.bare.nextPage table) known fits transaction
  have room := seekAt_grow_ne_nowhere (coherent.fresh known) some transaction
  rw [grownBare] at finds
  have same : ({ store with directory := (store.grown table).directory } : Store) =
      store.grown table := rfl
  rw [Store.placeAppended, allocate_eq coherent known usable, Bare.seekNew]
  simp only [← next, same]
  generalize (store.grown table).placeAt transaction (store.bare.nextPage table) row = result
    at finds ⊢
  generalize (store.bare.grow table).seekAt transaction (store.bare.nextPage table) = expected
    at finds room ⊢
  cases finds with
  | failed failure afterCoherent files => exact .failed failure afterCoherent
  | nowhere afterCoherent files => exact absurd rfl room
  | found fitting => exact .placed fitting rfl

structure Needs (bare : Bare) (table : Table) (transaction : TransactionId) (row : Row) : Prop where
  counted : ∃ slots, table.slotsPerPage = .ok slots ∧ slots ≠ 0
  agrees : row.schema.agrees table.schema = true
  full : (bare.seek table transaction 0 (bare.counts table.id)).1 = .ok none

theorem Coherent.place (coherent : store.Coherent) (known : store.tables[table.id]? = some table)
    (row : Row) (transaction : TransactionId)
    (room : Needs store.bare table transaction row →
      table.pages.wholePages store.directory + 1 < UInt32.size) :
    Places row store.tables (store.place table transaction row)
      (store.bare.vacancy table transaction row) := by
  rw [Store.place, Bare.vacancy]
  cases counted : table.slotsPerPage with
  | error fault => exact .failed _ coherent
  | ok slots =>
      simp only
      by_cases none : slots = 0
      · rw [if_pos none, if_pos none]
        exact .failed _ coherent
      · rw [if_neg none, if_neg none]
        obtain ⟨usable, slotCount⟩ := Table.usable_of_slotsPerPage counted none
        rw [slotCount] at none
        by_cases agrees : (!row.schema.agrees table.schema) = true
        · rw [if_pos agrees, if_pos agrees]
          exact .failed _ coherent
        · have fits : row.schema.types = table.schema.types := by
            simpa [Schema.agrees] using agrees
          have whole : store.bare.counts table.id = table.pages.wholePages store.directory :=
            counts_of_table known
          have exact : (UInt32.ofNat (table.pages.wholePages store.directory)).toNat =
              table.pages.wholePages store.directory :=
            UInt32.toNat_ofNat_of_lt' (coherent.countable _ _ known)
          have finds := coherent.placeAmong known fits transaction 0
            (table.pages.wholePages store.directory)
          replace room := fun full =>
            room ⟨⟨slots, counted, by rw [slotCount]; exact none⟩, by simpa using agrees, full⟩
          rw [whole] at room
          rw [if_neg agrees, if_neg agrees, Table.pageCount, PageFile.count_eq usable.positive]
          simp only [exact, whole]
          generalize store.placeAmong table transaction row 0
            (table.pages.wholePages store.directory) = result at finds ⊢
          generalize store.bare.seek table transaction 0
            (table.pages.wholePages store.directory) = expected at finds room ⊢
          cases finds with
          | failed failure afterCoherent files => exact .failed failure afterCoherent
          | found fitting => exact .placed fitting rfl
          | @nowhere after afterCoherent files =>
              have small := room rfl
              rw [← files.directoryIs] at small
              rw [← files.tablesAre] at known ⊢
              exact afterCoherent.placeAppended known usable fits none small transaction _

/-- `place` past its checks: the search of the counted pages, followed by appends. -/
theorem place_of_counted {slots : Nat} {number : UInt32}
    (counted : table.slotsPerPage = .ok slots) (filled : slots ≠ 0)
    (agrees : row.schema.agrees table.schema = true)
    (pages : table.pages.count store.directory = .ok number) (transaction : TransactionId) :
    store.place table transaction row =
      match store.placeAmong table transaction row 0 number.toNat with
      | (.error failure, after) => (.error failure, after)
      | (.ok (some placement), after) => (.ok placement, after)
      | (.ok none, after) =>
          placeAppended table transaction row
            (after.cachedCount + table.pages.size after.directory + 1) after := by
  have agreed : ¬ (!row.schema.agrees table.schema) = true := by
    rw [agrees]
    exact Bool.false_ne_true
  rewrite [Store.place, counted]
  dsimp only
  rewrite [if_neg filled, if_neg agreed, Table.pageCount, pages]
  rfl

theorem insert_of_not_placed {transaction : TransactionId} {failure : Failure} {after : Store}
    (known : store.tables[table.id]? = some table)
    (placed : store.place table transaction row = (.error failure, after)) :
    store.insert transaction table.id row = (.error failure, row, after) := by
  have owner : store.table? table.id = .ok table := by
    rw [table?, known]
  rw [Store.insert, owner]
  simp only [placed]

/-! ### The two operations -/

structure Agrees {Answer : Type} (result : Answer × Store) (expected : Answer × Bare) : Prop where
  coherent : result.2.Coherent
  bareIs : result.2.bare = expected.2
  answered : result.1 = expected.1

theorem table?_bare (store : Store) (id : TableId) : store.bare.table? id = store.table? id := rfl

/-- `insert` follows `Bare.insert` unless the pages reach `UInt32.size`. -/
theorem Coherent.insert (coherent : store.Coherent) (transaction : TransactionId) (id : TableId)
    (row : Row)
    (room : ∀ table, store.tables[id]? = some table → Needs store.bare table transaction row →
      table.pages.wholePages store.directory + 1 < UInt32.size) :
    Agrees ((store.insert transaction id row).1, (store.insert transaction id row).2.2)
      (store.bare.insert transaction id row) := by
  unfold Store.insert Bare.insert
  rw [table?_bare]
  cases known : store.tables[id]? with
  | none =>
      have unknown : store.table? id = .error (.unknownTable id) := by
        rw [table?, known]
      rw [unknown]
      exact ⟨coherent, rfl, rfl⟩
  | some table =>
      have found : store.table? id = .ok table := by
        rw [table?, known]
      have keyed := coherent.distinct.keyed id table known
      have own : store.tables[table.id]? = some table := by
        rw [keyed]
        exact known
      have places := coherent.place own row transaction (room table known)
      rw [found]
      simp only
      generalize store.place table transaction row = result at places ⊢
      generalize store.bare.vacancy table transaction row = expected at places ⊢
      cases places with
      | failed failure afterCoherent => exact ⟨afterCoherent, rfl, rfl⟩
      | @placed origin middle page cached content slot fitting same =>
          have present := fitting.present
          obtain ⟨owner, ownerKnown, faithful⟩ := fitting.coherent.faithful page cached present
          obtain ⟨place, free, record, sound, contents, idIs, image⟩ :=
            faithful.sound.insert_ok fitting.inserted
          cases fitting.free.symm.trans free
          obtain ⟨changed, bareIs⟩ := fitting.coherent.change present ownerKnown sound
            (idIs.trans faithful.idIs) image transaction
          simp only [installDirty_update present content transaction]
          rw [contents] at bareIs
          exact ⟨changed, bareIs, rfl⟩

/-! ### Room for a row -/

theorem files_update (store : Store) (page : PageId) (changed : PageCopy) :
    (store.update page changed).SameFiles store := by
  unfold update
  split
  · split <;> exact ⟨rfl, rfl⟩
  · exact ⟨rfl, rfl⟩

theorem files_placeAt (store : Store) (transaction : TransactionId) (page : PageId) (row : Row) :
    (store.placeAt transaction page row).2.SameFiles store := by
  have files := store.files_getPage transaction page .readWrite
  unfold placeAt
  split
  · next fetched =>
      rw [fetched] at files
      exact files
  · next cached after fetched =>
      rw [fetched] at files
      have placed : (after.placeOn page cached row).2.SameFiles after := by
        unfold placeOn
        split
        · exact ⟨rfl, rfl⟩
        · split
          · exact ⟨rfl, rfl⟩
          · exact files_update _ _ _
      split
      · next tried =>
          rw [tried] at placed
          exact placed.trans files
      · next tried =>
          rw [tried] at placed
          exact placed.trans files

theorem files_installDirty (store : Store) (transaction : TransactionId) (page : PageId)
    (cached : PageCopy) : (store.installDirty transaction page cached).2.SameFiles store := by
  have updated := store.files_update page
    (cached.withPage (cached.page.marked (some transaction)))
  have made := (store.update page
    (cached.withPage (cached.page.marked (some transaction)))).files_makeRoom
  unfold installDirty
  dsimp only
  split
  · exact ⟨updated.directoryIs, updated.tablesAre⟩
  · split
    · next full =>
        rw [full] at made
        exact made.trans updated
    · next roomy =>
        rw [roomy] at made
        have files := made.trans updated
        exact ⟨files.directoryIs, files.tablesAre⟩

section Appended

variable (table : Table) (transaction : TransactionId) (row : Row)

private theorem size_appended {tries : Nat} {store : Store} {number : UInt32} {directory : Directory}
    (allocated : table.pages.allocate store.directory = .ok (number, directory))
    (later : ∀ store : Store, table.pages.size store.directory ≤
      table.pages.size (placeAppended table transaction row tries store).2.directory) :
    table.pages.size directory ≤
      table.pages.size (placeAppended table transaction row (tries + 1) store).2.directory := by
  have files := files_placeAt { store with directory := directory } transaction
    (table.page number) row
  unfold placeAppended
  rw [allocated]
  simp only
  split
  · next tried =>
      rw [tried] at files
      exact Nat.le_of_eq (congrArg _ files.directoryIs).symm
  · next tried =>
      rw [tried] at files
      exact Nat.le_of_eq (congrArg _ files.directoryIs).symm
  · next after tried =>
      rw [tried] at files
      exact Nat.le_trans (Nat.le_of_eq (congrArg _ files.directoryIs).symm) (later after)

theorem size_placeAppended (tries : Nat) (store : Store) :
    table.pages.size store.directory ≤
      table.pages.size (placeAppended table transaction row tries store).2.directory := by
  induction tries generalizing store with
  | zero => exact Nat.le_refl _
  | succ tries ih =>
      cases allocated : table.pages.allocate store.directory with
      | error failure =>
          exact Nat.le_of_eq (by rw [placeAppended, allocated])
      | ok appended =>
          exact Nat.le_trans (PageFile.size_le_allocate allocated)
            (size_appended table transaction row allocated ih)

theorem tables_placeAppended (tries : Nat) (store : Store) :
    (placeAppended table transaction row tries store).2.tables = store.tables := by
  induction tries generalizing store with
  | zero => rfl
  | succ tries ih =>
      unfold placeAppended
      split
      · rfl
      · next number directory allocated =>
          have files := files_placeAt { store with directory := directory } transaction
            (table.page number) row
          split
          · next tried =>
              rw [tried] at files
              exact files.tablesAre
          · next tried =>
              rw [tried] at files
              exact files.tablesAre
          · next after tried =>
              rw [tried] at files
              exact (ih after).trans files.tablesAre

end Appended

theorem files_insert {id : TableId} (known : store.tables[id]? = some table)
    (transaction : TransactionId) (row : Row) :
    (store.insert transaction id row).2.2.SameFiles (store.place table transaction row).2 := by
  have found : store.table? id = .ok table := by
    rw [table?, known]
  unfold Store.insert
  rw [found]
  simp only
  split
  · next placed =>
      rw [placed]
      exact ⟨rfl, rfl⟩
  · next placement after placed =>
      have files := files_installDirty after transaction placement.page placement.cached
      rw [placed]
      split
      · next marked =>
          rw [marked] at files
          exact files
      · next marked =>
          rw [marked] at files
          exact files

theorem files_placeAmong (table : Table) (transaction : TransactionId) (row : Row)
    (first length : Nat) (store : Store) :
    (store.placeAmong table transaction row first length).2.SameFiles store := by
  induction length generalizing store first with
  | zero => exact ⟨rfl, rfl⟩
  | succ length ih =>
      have files := files_placeAt store transaction (table.page (UInt32.ofNat first)) row
      unfold Store.placeAmong
      split
      · next placed => rwa [placed] at files
      · next placed => rwa [placed] at files
      · next placed =>
          rw [placed] at files
          exact (ih (first + 1) _).trans files

/-- `insert` leaves the registered tables as they are. -/
theorem tables_insert (store : Store) (transaction : TransactionId) (id : TableId) (row : Row) :
    (store.insert transaction id row).2.2.tables = store.tables := by
  cases known : store.tables[id]? with
  | none =>
      have unknown : store.table? id = .error (.unknownTable id) := by
        rw [table?, known]
      rw [Store.insert, unknown]
  | some table =>
      rw [(files_insert known transaction row).tablesAre, Store.place]
      split
      · rfl
      · split
        · rfl
        · split
          · rfl
          · split
            · rfl
            · next count _ =>
                have files := files_placeAmong table transaction row 0 count.toNat store
                split
                · next placed =>
                    rw [placed] at files
                    exact files.tablesAre
                · next placed =>
                    rw [placed] at files
                    exact files.tablesAre
                · next placed =>
                    rw [placed] at files
                    exact (tables_placeAppended table transaction row _ _).trans files.tablesAre

theorem Coherent.wholePages_placeAppended (coherent : store.Coherent)
    (known : store.tables[table.id]? = some table) (usable : table.Usable) (tries : Nat) :
    table.pages.wholePages store.directory + 1 ≤
      table.pages.wholePages
        (Store.placeAppended table transaction row (tries + 1) store).2.directory := by
  have longer := size_appended table transaction row (allocate_eq coherent known usable)
    (size_placeAppended table transaction row tries)
  have grown : table.pages.size (store.grown table).directory =
      max (table.pages.size store.directory)
        ((table.pages.wholePages store.directory + 1) * table.pages.pageSize) :=
    PageFile.size_put List.length_replicate
  rw [grown] at longer
  rw [PageFile.wholePages, PageFile.wholePages]
  apply (Nat.le_div_iff_mul_le (Nat.pos_of_ne_zero usable.positive)).mpr
  exact Nat.le_trans (Nat.le_max_right _ _) longer

/-- If the pages can be counted after an insert, the page that it needed could be appended. -/
theorem Coherent.room_of_countable (coherent : store.Coherent) {id : TableId}
    (known : store.tables[id]? = some table)
    (countable : (store.insert transaction id row).2.2.Countable)
    (needs : Needs store.bare table transaction row) :
    table.pages.wholePages store.directory + 1 < UInt32.size := by
  have keyed := coherent.distinct.keyed id table known
  have own : store.tables[table.id]? = some table := by
    rw [keyed]
    exact known
  obtain ⟨slots, counted, filled⟩ := needs.counted
  obtain ⟨usable, -⟩ := Table.usable_of_slotsPerPage counted filled
  have fits : row.schema.types = table.schema.types := eq_of_beq needs.agrees
  have whole : store.bare.counts table.id = table.pages.wholePages store.directory :=
    counts_of_table own
  have exact : (UInt32.ofNat (table.pages.wholePages store.directory)).toNat =
      table.pages.wholePages store.directory :=
    UInt32.toNat_ofNat_of_lt' (coherent.countable _ _ own)
  have finds := coherent.placeAmong own fits transaction 0
    (table.pages.wholePages store.directory)
  have full := needs.full
  rw [whole] at full
  generalize tried : store.placeAmong table transaction row 0
    (table.pages.wholePages store.directory) = result at finds
  generalize store.bare.seek table transaction 0
    (table.pages.wholePages store.directory) = expected at finds full
  cases finds with
  | failed failure afterCoherent files => cases full
  | found fitting => cases full
  | @nowhere after afterCoherent files =>
      have placed : store.place table transaction row =
          Store.placeAppended table transaction row
            (after.cachedCount + table.pages.size after.directory + 1) after := by
        rw [place_of_counted counted filled needs.agrees (PageFile.count_eq usable.positive), exact,
          tried]
      have last := files_insert known transaction row
      rw [placed] at last
      have afterKnown : after.tables[table.id]? = some table := by
        rw [files.tablesAre]
        exact own
      have final : (store.insert transaction id row).2.2.tables[id]? = some table := by
        rw [last.tablesAre, tables_placeAppended, files.tablesAre]
        exact known
      have bounded := countable id table final
      rw [last.directoryIs] at bounded
      rw [← files.directoryIs]
      exact Nat.lt_of_le_of_lt (afterCoherent.wholePages_placeAppended afterKnown usable _) bounded

theorem Coherent.delete (coherent : store.Coherent) (transaction : TransactionId)
    (record : Option RecordId) :
    Agrees (store.delete transaction record) (store.bare.delete transaction record) := by
  unfold Store.delete Bare.delete
  cases record with
  | none => exact ⟨coherent, rfl, rfl⟩
  | some record =>
      simp only [table?_bare]
      cases known : store.tables[record.page.table]? with
      | none =>
          have unknown : store.table? record.page.table =
              .error (.unknownTable record.page.table) := by
            rw [table?, known]
          rw [unknown]
          exact ⟨coherent, rfl, rfl⟩
      | some table =>
          have found : store.table? record.page.table = .ok table := by
            rw [table?, known]
          have owned : record.page.table = table.id :=
            (coherent.distinct.keyed _ table known).symm
          have fetches := coherent.getPage transaction record.page .readWrite
          rw [found]
          simp only [Store.remove, Table.checkOwner_of_eq owned]
          generalize store.getPage transaction record.page .readWrite = result at fetches ⊢
          generalize store.bare.getPage transaction record.page .readWrite = expected at fetches ⊢
          obtain ⟨outcome, after⟩ := result
          obtain ⟨slots, bare⟩ := expected
          obtain ⟨afterCoherent, rfl, answered, present, files⟩ := fetches
          cases outcome with
          | error failure =>
              cases answered
              exact ⟨afterCoherent, rfl, rfl⟩
          | ok cached =>
              cases answered
              have held := present cached rfl
              obtain ⟨owner, ownerKnown, faithful⟩ := afterCoherent.faithful _ cached held
              have idIs := faithful.idIs
              cases checked : Slots.checkTaken cached.page.contents record.page record with
              | error error =>
                  have refused := faithful.sound.delete_refused (by rw [idIs]; exact checked)
                  simp only [refused, checked]
                  exact ⟨afterCoherent, rfl, rfl⟩
              | ok done =>
                  obtain ⟨content, deleted, sound, contents, same, image⟩ :=
                    faithful.sound.delete_eq (by rw [idIs]; exact checked)
                  obtain ⟨changed, bareIs⟩ := afterCoherent.change held ownerKnown sound
                    (same.trans idIs) image transaction
                  simp only [deleted, checked, installDirty_update held content transaction]
                  rw [contents] at bareIs
                  exact ⟨changed, bareIs, rfl⟩

end Store

end RecordStore
