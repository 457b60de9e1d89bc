import RecordStore.Proofs.Map
import RecordStore.Proofs.Store.Bare
import RecordStore.Proofs.Table

set_option autoImplicit false

/-! Coherent stores. Every cached copy is a sound page of a registered table, with the bytes in the
file as its before-image, and a clean copy has the slots that these bytes decode to. So the clean
copies can be forgotten, which leaves the bare store. -/

namespace RecordStore

structure PageCopy.Faithful (cached : PageCopy) (table : Table) (directory : Directory)
    (page : PageId) : Prop where
  idIs : cached.page.id = page
  unlatched : cached.latched = false
  sound : cached.page.Sound table.schema table.pageSize
  inside : page.number.toNat < table.pages.wholePages directory
  image : cached.page.beforeImage = table.pages.bytesAt directory page.number.toNat
  readable : ∃ found, table.readPage directory page = .ok found ∧
    (cached.isClean = true →
      found.contents = cached.page.contents ∧ found.bitmap = cached.page.bitmap)

theorem PageCopy.Faithful.of_content {cached : PageCopy} {table : Table}
    {directory other : Directory} {page : PageId}
    (faithful : cached.Faithful table directory page)
    (same : other.content table.pages.file = directory.content table.pages.file) :
    cached.Faithful table other page := by
  have pages : table.pages.wholePages other = table.pages.wholePages directory := by
    rw [PageFile.wholePages, PageFile.wholePages, PageFile.size, PageFile.size, same]
  have bytes : table.pages.bytesAt other page.number.toNat =
      table.pages.bytesAt directory page.number.toNat := by
    rw [PageFile.bytesAt, PageFile.bytesAt, same]
  constructor
  · exact faithful.idIs
  · exact faithful.unlatched
  · exact faithful.sound
  · rw [pages]
    exact faithful.inside
  · rw [bytes]
    exact faithful.image
  · rw [Table.readPage_congr same]
    exact faithful.readable

def PageCopy.draft? (cached : PageCopy) : Option Draft :=
  cached.page.dirtier.map fun transaction => ⟨transaction, cached.page.contents⟩

theorem PageCopy.isClean_eq (cached : PageCopy) :
    cached.isClean = cached.draft?.isNone := by
  rw [isClean, Page.isDirty, draft?, Option.isNone_map]
  cases cached.page.dirtier <;> rfl

theorem PageCopy.draft?_eq_none_iff (cached : PageCopy) :
    cached.draft? = none ↔ cached.isClean = true := by
  rw [isClean_eq, Option.isNone_iff_eq_none]

namespace Store

/-- Every table has fewer than `UInt32.size` pages. -/
def Countable (store : Store) : Prop :=
  ∀ (id : TableId) (table : Table), store.tables[id]? = some table →
    table.pages.wholePages store.directory < UInt32.size

structure Distinct (tables : Std.ExtTreeMap TableId Table) : Prop where
  keyed : ∀ (id : TableId) (table : Table), tables[id]? = some table → table.id = id
  apart : ∀ (first second : TableId) (left right : Table), tables[first]? = some left →
    tables[second]? = some right → left.pages.file = right.pages.file → first = second

structure Coherent (store : Store) : Prop where
  distinct : Distinct store.tables
  countable : store.Countable
  faithful : ∀ (page : PageId) (cached : PageCopy), store.cache[page]? = some cached →
    ∃ table, store.tables[page.table]? = some table ∧
      cached.Faithful table store.directory page
  bounded : store.cache.size ≤ store.capacity

/-! ### Forgetting the clean pages -/

def drafts (store : Store) : Std.ExtTreeMap PageId Draft :=
  store.cache.filterMap fun _ cached => cached.draft?

def counts (store : Store) (id : TableId) : Nat :=
  match store.tables[id]? with
  | some table => table.pages.wholePages store.directory
  | none => 0

def written (store : Store) (page : PageId) : Except Failure Slots :=
  match store.table? page.table with
  | .ok table => table.written store.directory page
  | .error error => .error (.refused error)

def bare (store : Store) : Bare :=
  ⟨store.tables, store.locks, store.capacity, store.nextTransaction, store.counts, store.written,
    store.drafts⟩

variable {store : Store} {page : PageId}

theorem draft_lookup (store : Store) (page : PageId) :
    store.bare.drafts[page]? = store.cache[page]?.bind PageCopy.draft? :=
  lookup_filterMap store.cache PageCopy.draft? page

/-- A draft is a cached copy that is dirty for its transaction. -/
theorem cached_of_draft {draft : Draft} (drafted : store.bare.drafts[page]? = some draft) :
    ∃ cached, store.cache[page]? = some cached ∧
      cached.page.dirtier = some draft.transaction ∧ cached.page.contents = draft.slots := by
  rw [draft_lookup] at drafted
  obtain ⟨cached, present, dirty⟩ := Option.bind_eq_some_iff.mp drafted
  obtain ⟨transaction, dirtied, rfl⟩ := Option.map_eq_some_iff.mp dirty
  exact ⟨cached, present, dirtied, rfl⟩

theorem written_of_table {table : Table} (known : store.tables[page.table]? = some table) :
    store.written page = table.written store.directory page := by
  rw [written, table?, known]

theorem counts_of_table {id : TableId} {table : Table} (known : store.tables[id]? = some table) :
    store.counts id = table.pages.wholePages store.directory := by
  rw [counts, known]

theorem Countable.counts_lt (countable : store.Countable) (id : TableId) :
    store.counts id < UInt32.size := by
  cases known : store.tables[id]? with
  | none =>
      rw [counts, known]
      exact Nat.two_pow_pos 32
  | some table =>
      rw [counts_of_table known]
      exact countable id table known

/-- Stores that differ in clean pages only have the same bare store. -/
theorem bare_eq_of_drafts {other : Store} (directory : other.directory = store.directory)
    (tables : other.tables = store.tables) (locks : other.locks = store.locks)
    (capacity : other.capacity = store.capacity)
    (next : other.nextTransaction = store.nextTransaction)
    (drafts : other.drafts = store.drafts) : other.bare = store.bare := by
  have counts : other.counts = store.counts := by
    funext id
    rw [Store.counts, Store.counts, tables, directory]
  have written : other.written = store.written := by
    funext page
    rw [Store.written, Store.written, table?, table?, tables, directory]
  rw [bare, bare, tables, locks, capacity, next, counts, written, drafts]

theorem bare_discard (store : Store) (page : PageId) :
    (store.discard page).bare = store.bare.discard page := by
  have drafts : (store.discard page).drafts = store.drafts.erase page :=
    filterMap_erase store.cache PageCopy.draft? page
  rw [Bare.discard, ← show (store.discard page).drafts = store.bare.drafts.erase page from drafts]
  rfl

theorem bare_discard_clean {cached : PageCopy} (present : store.cache[page]? = some cached)
    (clean : cached.isClean = true) : (store.discard page).bare = store.bare := by
  have absent : store.bare.drafts[page]? = none := by
    rw [draft_lookup, present]
    exact cached.draft?_eq_none_iff.mpr clean
  rw [bare_discard, Bare.discard, erase_of_absent absent]

theorem Coherent.discard (coherent : store.Coherent) (page : PageId) :
    (store.discard page).Coherent := by
  refine ⟨coherent.distinct, coherent.countable, ?_, ?_⟩
  · intro other cached present
    rw [Store.discard, lookup_erase] at present
    split at present
    · cases present
    · exact coherent.faithful other cached present
  · exact Nat.le_trans Std.ExtTreeMap.size_erase_le coherent.bounded

theorem bare_install_clean {cached : PageCopy} (absent : store.cache[page]? = none)
    (clean : cached.isClean = true) : (store.install page cached).bare = store.bare := by
  apply bare_eq_of_drafts <;> try rfl
  have none : store.drafts[page]? = none := by
    rw [show store.drafts[page]? = _ from draft_lookup store page, absent]
    rfl
  rw [drafts, install, filterMap_insert, cached.draft?_eq_none_iff.mpr clean]
  exact erase_of_absent none

/-! ### Pages past the end -/

theorem Coherent.written_outside (coherent : store.Coherent) {table : Table}
    (known : store.tables[page.table]? = some table)
    (outside : table.pages.wholePages store.directory ≤ page.number.toNat) :
    ∃ failure, store.written page = .error failure ∧
      (table.Usable → failure = .refused (.missingPage page)) := by
  have countable := coherent.countable _ _ known
  rw [written_of_table known, Table.written]
  cases read : table.readPage store.directory page with
  | ok found =>
      obtain ⟨-, inside, -⟩ := Table.readPage_ok read
      omega
  | error failure =>
      refine ⟨failure, rfl, ?_⟩
      intro usable
      have owned := (coherent.distinct.keyed _ _ known).symm
      rw [Table.readPage_eq usable countable owned, if_neg (Nat.not_lt.mpr outside)] at read
      exact (Except.error.inj read).symm

/-- The next page number cannot be read yet. -/
theorem Coherent.written_nextPage (coherent : store.Coherent) {id : TableId} {table : Table}
    (known : store.tables[id]? = some table) :
    ∃ failure, store.bare.written (store.bare.nextPage table) = .error failure ∧
      (table.Usable → failure = .refused (.missingPage (store.bare.nextPage table))) := by
  have keyed := coherent.distinct.keyed _ _ known
  have own : store.tables[(store.bare.nextPage table).table]? = some table := by
    rw [← keyed] at known
    exact known
  have countable := coherent.countable _ _ known
  refine coherent.written_outside own (Nat.le_of_eq ?_)
  rw [Bare.nextPage, show store.bare.counts table.id = _ from counts_of_table own]
  exact (UInt32.toNat_ofNat_of_lt' countable).symm

/-! ### Making room -/

theorem mem_victims_iff (store : Store) (page : PageId) :
    page ∈ store.victims ↔
      ∃ cached, store.cache[page]? = some cached ∧ cached.isEvictable = true := by
  rw [victims, List.mem_map]
  constructor
  · rintro ⟨⟨found, cached⟩, member, rfl⟩
    rw [List.mem_filter, Std.ExtTreeMap.mem_toList_iff_getElem?_eq_some] at member
    exact ⟨cached, member⟩
  · rintro ⟨cached, present, evictable⟩
    refine ⟨(page, cached), ?_, rfl⟩
    rw [List.mem_filter, Std.ExtTreeMap.mem_toList_iff_getElem?_eq_some]
    exact ⟨present, evictable⟩

theorem mem_victims_of_victim? (chosen : store.victim? = some page) : page ∈ store.victims := by
  unfold victim? at chosen
  cases listed : store.victims with
  | nil => simp [listed] at chosen
  | cons first others =>
      simp only [listed, Option.some.injEq] at chosen
      rw [← chosen, List.getD_eq_getElem?_getD]
      cases found : (first :: others)[store.preference store.nextSerial (first :: others)]? with
      | none => exact List.mem_cons_self
      | some victim => exact List.mem_of_getElem? found

theorem victim?_eq_none_iff : store.victim? = none ↔ store.victims = [] := by
  unfold victim?
  cases store.victims <;> simp

theorem Coherent.isEvictable_eq (coherent : store.Coherent) {cached : PageCopy}
    (present : store.cache[page]? = some cached) : cached.isEvictable = cached.isClean := by
  obtain ⟨table, -, faithful⟩ := coherent.faithful page cached present
  rw [PageCopy.isEvictable, faithful.unlatched]
  rfl

theorem Coherent.victim_clean (coherent : store.Coherent) {victim : PageId}
    (chosen : store.victim? = some victim) :
    ∃ cached, store.cache[victim]? = some cached ∧ cached.isClean = true := by
  obtain ⟨cached, present, evictable⟩ :=
    (mem_victims_iff store victim).mp (mem_victims_of_victim? chosen)
  rw [coherent.isEvictable_eq present] at evictable
  exact ⟨cached, present, evictable⟩

/-- Without a victim every cached page is a draft. -/
theorem Coherent.size_drafts_of_none (coherent : store.Coherent) (none : store.victim? = none) :
    store.drafts.size = store.cache.size := by
  rw [victim?_eq_none_iff] at none
  apply size_filterMap_eq store.cache PageCopy.draft?
  intro key cached present
  cases dirty : cached.draft? with
  | some draft => rfl
  | none =>
      have evictable : cached.isEvictable = true := by
        rw [coherent.isEvictable_eq present]
        exact cached.draft?_eq_none_iff.mp dirty
      have member := (mem_victims_iff store key).mpr ⟨cached, present, evictable⟩
      rw [none] at member
      cases member

theorem Coherent.evict (coherent : store.Coherent) :
    store.evict.2.Coherent ∧ store.evict.2.bare = store.bare := by
  unfold Store.evict
  cases chosen : store.victim? with
  | none => exact ⟨coherent, rfl⟩
  | some victim =>
      obtain ⟨cached, present, clean⟩ := coherent.victim_clean chosen
      exact ⟨coherent.discard victim, bare_discard_clean present clean⟩

theorem makeRoom_of_lt (free : store.cache.size < store.capacity) :
    store.makeRoom = (.ok (), store) := by
  rw [makeRoom, isFull, cachedCount, if_neg]
  rw [decide_eq_true_iff]
  exact Nat.not_le.mpr free

/-- `makeRoom` fails iff the drafts alone fill the cache. -/
theorem Coherent.makeRoom_eq (coherent : store.Coherent) (absent : store.cache[page]? = none) :
    if store.bare.isFull then
      store.makeRoom = (.error (.cacheFull store.capacity), store)
    else
      ∃ after, store.makeRoom = (.ok (), after) ∧ after.Coherent ∧ after.bare = store.bare ∧
        after.directory = store.directory ∧ after.cache[page]? = none ∧
        after.cache.size < after.capacity := by
  have bounded := coherent.bounded
  have fewer : store.drafts.size ≤ store.cache.size := Std.ExtTreeMap.size_filterMap_le_size
  have fullIff : store.bare.isFull = true ↔ store.capacity ≤ store.drafts.size :=
    decide_eq_true_iff
  by_cases room : store.cache.size < store.capacity
  · have open' : ¬ store.bare.isFull = true := by
      rw [fullIff]
      omega
    rw [if_neg open']
    exact ⟨store, makeRoom_of_lt room, coherent, rfl, rfl, absent, room⟩
  · have full : store.isFull = true := by
      rw [isFull, decide_eq_true_iff, cachedCount]
      omega
    rw [makeRoom, if_pos full, Store.evict]
    cases chosen : store.victim? with
    | none =>
        have same := coherent.size_drafts_of_none chosen
        rw [if_pos (fullIff.mpr (by omega))]
    | some victim =>
        obtain ⟨cached, present, clean⟩ := coherent.victim_clean chosen
        have less : store.drafts.size < store.cache.size :=
          size_filterMap_lt store.cache PageCopy.draft? present
            (cached.draft?_eq_none_iff.mpr clean)
        have smaller : (store.discard victim).cache.size = store.cache.size - 1 :=
          size_erase_of_present (by rw [present]; rfl)
        rw [if_neg fun filled => by have := fullIff.mp filled; omega]
        refine ⟨store.discard victim, rfl, coherent.discard victim,
          bare_discard_clean present clean, rfl, ?_, ?_⟩
        · rw [Store.discard, lookup_erase, absent]
          split <;> rfl
        · rw [smaller]
          change store.cache.size - 1 < store.capacity
          omega

end Store

end RecordStore
