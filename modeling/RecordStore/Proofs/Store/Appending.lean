import Mathlib.Data.List.Perm.Subperm
import RecordStore.Proofs.Disk.Allocation
import RecordStore.Proofs.Lock.Bounds
import RecordStore.Proofs.Store.Rescan
import RecordStore.Proofs.Store.Visits

set_option autoImplicit false

/-! The number of pages that one insert appends. An appended page has room, unless a full page is
cached under its number, in which case the next append has one cached page less past the end of the
file. So the number of appends is at most one more than the number of pages cached past the end. -/

namespace RecordStore

namespace Store

variable {store before after middle : Store} {transaction : TransactionId} {page : PageId}
  {table : Table} {row : Row} {number : UInt32} {directory : Directory}

theorem SameFiles.known {id : TableId} (files : after.SameFiles before)
    (known : before.tables[id]? = some table) : after.tables[id]? = some table := by
  rw [files.tablesAre]
  exact known

theorem SameFiles.wholePages_eq (files : after.SameFiles before) (table : Table) :
    table.pages.wholePages after.directory = table.pages.wholePages before.directory := by
  rw [files.directoryIs]

/-! ### Cached pages behind the end of a file -/

/-- The pages of a table that are cached, from a number on. -/
def cachedFrom (store : Store) (table : Table) (first : Nat) : List PageId :=
  store.cache.keys.filter fun page => page.table = table.id ∧ first ≤ page.number.toNat

theorem mem_cachedFrom_iff (store : Store) (table : Table) (first : Nat) (page : PageId) :
    page ∈ store.cachedFrom table first ↔
      (store.cache[page]?).isSome = true ∧ page.table = table.id ∧ first ≤ page.number.toNat := by
  rw [cachedFrom, List.mem_filter, Std.ExtTreeMap.mem_keys, Std.ExtTreeMap.mem_iff_isSome_getElem?,
    decide_eq_true_eq]

theorem nodup_cachedFrom (store : Store) (table : Table) (first : Nat) :
    (store.cachedFrom table first).Nodup :=
  Std.ExtTreeMap.nodup_keys.filter _

theorem length_cachedFrom_le (store : Store) (table : Table) (first : Nat) :
    (store.cachedFrom table first).length ≤ store.cachedCount := by
  rw [cachedCount, ← Std.ExtTreeMap.length_keys]
  exact List.length_filter_le _ _

/-! ### Loading a page -/

structure Loads (page : PageId) (before after : Store) : Prop where
  files : after.SameFiles before
  range : after.locks.range = before.locks.range
  cached : ∀ other, other ≠ page → (after.cache[other]?).isSome = true →
    (before.cache[other]?).isSome = true

namespace Loads

theorem refl (page : PageId) (store : Store) : Loads page store store :=
  ⟨⟨rfl, rfl⟩, rfl, fun _ _ present => present⟩

theorem trans (earlier : Loads page before middle) (later : Loads page middle after) :
    Loads page before after where
  files := later.files.trans earlier.files
  range := later.range.trans earlier.range
  cached other away present := earlier.cached other away (later.cached other away present)

theorem length_le (loads : Loads page before after) (table : Table) {first : Nat}
    (inside : page.number.toNat < first) :
    (after.cachedFrom table first).length ≤ (before.cachedFrom table first).length := by
  refine ((nodup_cachedFrom after table first).subperm ?_).length_le
  intro other member
  rw [mem_cachedFrom_iff] at member ⊢
  obtain ⟨present, owned, behind⟩ := member
  refine ⟨loads.cached other ?_ present, owned, behind⟩
  rintro rfl
  exact Nat.not_le_of_lt inside behind

/-- Fewer pages are cached past a cached page than from it on. -/
theorem length_lt (loads : Loads page before after) (owned : page.table = table.id)
    (present : (before.cache[page]?).isSome = true) :
    (after.cachedFrom table (page.number.toNat + 1)).length <
      (before.cachedFrom table page.number.toNat).length := by
  have passed : page ∉ after.cachedFrom table (page.number.toNat + 1) := by
    rw [mem_cachedFrom_iff]
    rintro ⟨-, -, behind⟩
    exact Nat.not_succ_le_self _ behind
  have distinct : (page :: after.cachedFrom table (page.number.toNat + 1)).Nodup :=
    List.nodup_cons.mpr ⟨passed, nodup_cachedFrom after table _⟩
  refine (distinct.subperm ?_).length_le
  intro other member
  rw [mem_cachedFrom_iff]
  rcases List.mem_cons.mp member with rfl | member
  · exact ⟨present, owned, Nat.le_refl _⟩
  · have away : other ≠ page := fun same => passed (same ▸ member)
    rw [mem_cachedFrom_iff] at member
    obtain ⟨still, own, behind⟩ := member
    exact ⟨loads.cached other away still, own, Nat.le_of_succ_le behind⟩

end Loads

theorem loads_makeRoom (store : Store) (page : PageId) : Loads page store store.makeRoom.2 := by
  refine ⟨store.files_makeRoom, congrArg _ store.locks_makeRoom, ?_⟩
  intro other away present
  rcases store.makeRoom_cases with same | same
  · rwa [same] at present
  · rw [same] at present
    rcases store.evict_cases with kept | ⟨victim, cached, -, -, discarded⟩
    · rwa [kept] at present
    · rw [discarded, discard, lookup_erase] at present
      split at present
      · cases present
      · exact present

theorem loads_fetch (store : Store) (page : PageId) : Loads page store (store.fetch page).2 := by
  have room := store.loads_makeRoom page
  unfold fetch
  split
  · exact .refl page store
  · unfold load
    split
    · exact .refl page store
    · split
      · next made =>
          rw [made] at room
          exact room
      · next made =>
          rw [made] at room
          split
          · exact room
          · refine ⟨⟨room.files.directoryIs, room.files.tablesAre⟩, room.range, ?_⟩
            intro other away present
            refine room.cached other away (Eq.trans (congrArg Option.isSome ?_) present)
            exact ((lookup_insert _ page other _).trans (if_neg fun same => away same.symm)).symm

theorem loads_getPage (store : Store) (transaction : TransactionId) (page : PageId)
    (access : Access) : Loads page store (store.getPage transaction page access).2 := by
  have range := store.locks.range_acquire transaction page access.mode 0
  unfold getPage acquire
  rcases asked : store.locks.acquire transaction page access.mode 0 with ⟨failure | done, locks⟩
  · rw [asked] at range
    exact ⟨⟨rfl, rfl⟩, range, fun _ _ present => present⟩
  · rw [asked] at range
    have locked : Loads page store { store with locks := locks } :=
      ⟨⟨rfl, rfl⟩, range, fun _ _ present => present⟩
    exact locked.trans (loads_fetch _ page)

theorem loads_update (store : Store) (page : PageId) (changed : PageCopy) :
    Loads page store (store.update page changed) := by
  unfold update
  split
  · split
    · refine ⟨⟨rfl, rfl⟩, rfl, ?_⟩
      intro other away present
      rwa [install, lookup_insert, if_neg fun same => away same.symm] at present
    · exact .refl page store
  · exact .refl page store

theorem loads_placeOn (store : Store) (page : PageId) (cached : PageCopy) (row : Row) :
    Loads page store (store.placeOn page cached row).2 := by
  unfold placeOn
  split
  · exact .refl page store
  · split
    · exact .refl page store
    · exact loads_update _ _ _

theorem loads_placeAt (store : Store) (transaction : TransactionId) (page : PageId) (row : Row) :
    Loads page store (store.placeAt transaction page row).2 := by
  have loads := store.loads_getPage transaction page .readWrite
  unfold placeAt
  split
  · next fetched =>
      rw [fetched] at loads
      exact loads
  · next cached after fetched =>
      rw [fetched] at loads
      have placed := loads_placeOn after page cached row
      split
      · next tried =>
          rw [tried] at placed
          exact loads.trans placed
      · next tried =>
          rw [tried] at placed
          exact loads.trans placed

/-! ### A page of zeros has room -/

theorem readPage_of_fetch {cached : PageCopy} (absent : store.cache[page]? = none)
    (known : store.tables[page.table]? = some table)
    (fetched : store.fetch page = (.ok cached, after)) :
    table.readPage store.directory page = .ok cached.page := by
  have files := store.files_makeRoom
  have found : store.table? page.table = .ok table := by
    rw [table?, known]
  rw [fetch, absent] at fetched
  simp only [load, found] at fetched
  rcases made : store.makeRoom with ⟨error | done, roomy⟩
  · rw [made] at fetched
    cases fetched
  · rw [made] at files fetched
    rw [← files.directoryIs]
    cases read : table.readPage roomy.directory page with
    | error failure =>
        simp only [read] at fetched
        cases fetched
    | ok content =>
        simp only [read] at fetched
        cases fetched
        rfl

theorem placeAt_of_zeros (known : store.tables[page.table]? = some table)
    (roomy : Layout.slotCount table.pageSize table.schema.width ≠ 0)
    (zeros : table.pages.bytesAt store.directory page.number.toNat =
      List.replicate table.pages.pageSize 0)
    (absent : store.cache[page]? = none) :
    (store.placeAt transaction page row).1 ≠ .ok none := by
  unfold placeAt getPage acquire
  rcases store.locks.acquire transaction page Access.readWrite.mode 0 with ⟨failure | done, locks⟩
  · exact fun nowhere => by cases nowhere
  · simp only
    rcases fetched : fetch { store with locks := locks } page with ⟨failure | cached, after⟩
    · exact fun nowhere => by cases nowhere
    · have read : table.readPage store.directory page = .ok cached.page :=
        @readPage_of_fetch { store with locks := locks } after page table cached absent known
          fetched
      obtain ⟨-, -, -, decoded⟩ := Table.readPage_ok_iff.mp read
      have sound := (Page.loaded_of_decode decoded).sound
      change table.pages.bytesAt store.directory page.number.toNat = _ at zeros
      change Page.decode page table.schema
        (table.pages.bytesAt store.directory page.number.toNat) = _ at decoded
      obtain ⟨blank, empty, contents⟩ := Page.decode_zeros page table.schema table.pages.pageSize
      rw [zeros, empty, Except.ok.injEq] at decoded
      have room : ¬ cached.page.freeCount = 0 := by
        rw [sound.freeCount_eq_zero_iff, ← decoded, contents]
        exact Slots.free?_replicate roomy
      simp only [placeOn, if_neg room]
      cases cached.page.insert row with
      | error error => exact fun nowhere => by cases nowhere
      | ok inserted => exact fun nowhere => by cases nowhere

/-! ### One append -/

structure Appended (table : Table) (store : Store) (number : UInt32) (directory : Directory) :
    Prop where
  numbered : number.toNat = table.pages.wholePages store.directory
  counted : table.pages.wholePages directory = table.pages.wholePages store.directory + 1
  zeros : table.pages.bytesAt directory number.toNat = List.replicate table.pages.pageSize 0

theorem appended_of_allocate (usable : table.Usable)
    (small : table.pages.wholePages store.directory < UInt32.size)
    (allocated : table.pages.allocate store.directory = .ok (number, directory)) :
    Appended table store number directory := by
  obtain ⟨place, longer, also, numbered, overwrites⟩ :=
    PageFile.allocate_overwrites usable.positive usable.bounded store.directory
  rw [allocated, Except.ok.injEq, Prod.mk.injEq] at also
  obtain ⟨rfl, rfl⟩ := also
  rw [Nat.mod_eq_of_lt small] at numbered
  refine ⟨numbered, ?_, overwrites.page⟩
  rw [overwrites.count, numbered]
  exact Nat.max_eq_left (Nat.le_succ _)

/-- An append onto a full cached page leaves one cached page less behind the end. -/
theorem cachedFrom_lt_of_full (known : store.tables[table.id]? = some table)
    (roomy : Layout.slotCount table.pageSize table.schema.width ≠ 0)
    (appended : Appended table store number directory)
    (full : ({ store with directory := directory } : Store).placeAt transaction
      (table.page number) row = (.ok none, after)) :
    (after.cachedFrom table (table.pages.wholePages after.directory)).length <
      (store.cachedFrom table (table.pages.wholePages store.directory)).length := by
  have loads := loads_placeAt { store with directory := directory } transaction
    (table.page number) row
  rw [full] at loads
  have there : (store.cache[table.page number]?).isSome = true := by
    rw [Option.isSome_iff_ne_none]
    intro absent
    have outcome := @placeAt_of_zeros { store with directory := directory } transaction
      (table.page number) table row known roomy appended.zeros absent
    rw [full] at outcome
    exact outcome rfl
  have owned : (table.page number).table = table.id := rfl
  have fewer := loads.length_lt owned there
  rw [loads.files.directoryIs, appended.counted, ← appended.numbered]
  exact fewer

/-! ### Append after append -/

inductive Appending (table : Table) (transaction : TransactionId) (row : Row) :
    Store → Nat → Except Failure Placement × Store → Prop where
  | refused {store : Store} {failure : Failure} :
      table.pages.allocate store.directory = .error failure →
      Appending table transaction row store 0 (.error failure, store)
  | failed {store after : Store} {number : UInt32} {directory : Directory} {failure : Failure} :
      table.pages.allocate store.directory = .ok (number, directory) →
      ({ store with directory := directory } : Store).placeAt transaction (table.page number) row =
        (.error failure, after) →
      Appending table transaction row store 1 (.error failure, after)
  | placed {store after : Store} {number : UInt32} {directory : Directory}
      {placement : Placement} :
      table.pages.allocate store.directory = .ok (number, directory) →
      ({ store with directory := directory } : Store).placeAt transaction (table.page number) row =
        (.ok (some placement), after) →
      Appending table transaction row store 1 (.ok placement, after)
  | again {store after : Store} {number : UInt32} {directory : Directory} {appends : Nat}
      {result : Except Failure Placement × Store} :
      table.pages.allocate store.directory = .ok (number, directory) →
      ({ store with directory := directory } : Store).placeAt transaction (table.page number) row =
        (.ok none, after) →
      Appending table transaction row after appends result →
      Appending table transaction row store (appends + 1) result

section Tried

variable {outcome : Except Failure (Option Placement)}
  (allocated : table.pages.allocate store.directory = .ok (number, directory))
  (tried : ({ store with directory := directory } : Store).placeAt transaction (table.page number)
    row = (outcome, after))

include allocated tried

theorem size_of_tried :
    table.pages.size store.directory ≤ table.pages.size after.directory := by
  have files := files_placeAt { store with directory := directory } transaction
    (table.page number) row
  rw [tried] at files
  rw [files.directoryIs]
  exact PageFile.size_le_allocate allocated

theorem wholePages_of_tried (usable : table.Usable)
    (small : table.pages.wholePages store.directory < UInt32.size) :
    table.pages.wholePages after.directory = table.pages.wholePages store.directory + 1 := by
  have files := files_placeAt { store with directory := directory } transaction
    (table.page number) row
  rw [tried] at files
  rw [files.directoryIs]
  exact (appended_of_allocate usable small allocated).counted

end Tried

namespace Appending

variable {appends : Nat} {result : Except Failure Placement × Store}

theorem size_le (appending : Appending table transaction row store appends result) :
    table.pages.size store.directory ≤ table.pages.size result.2.directory := by
  induction appending with
  | refused refused => exact Nat.le_refl _
  | failed allocated tried => exact size_of_tried allocated tried
  | placed allocated tried => exact size_of_tried allocated tried
  | again allocated tried rest ih => exact Nat.le_trans (size_of_tried allocated tried) ih

theorem countable_before (appending : Appending table transaction row store appends result)
    (countable : table.pages.wholePages result.2.directory < UInt32.size) :
    table.pages.wholePages store.directory < UInt32.size :=
  Nat.lt_of_le_of_lt (Nat.div_le_div_right appending.size_le) countable

theorem wholePages (appending : Appending table transaction row store appends result)
    (usable : table.Usable)
    (countable : table.pages.wholePages result.2.directory < UInt32.size) :
    table.pages.wholePages result.2.directory =
      table.pages.wholePages store.directory + appends := by
  have small := appending.countable_before countable
  induction appending with
  | refused refused => rfl
  | failed allocated tried => exact wholePages_of_tried allocated tried usable small
  | placed allocated tried => exact wholePages_of_tried allocated tried usable small
  | again allocated tried rest ih =>
      have more := wholePages_of_tried allocated tried usable small
      have others := ih countable (rest.countable_before countable)
      omega

end Appending

/-- The tries of `placeAppended` suffice: one more than the cached pages behind the end is the most
it needs. -/
theorem appending_of_tries (usable : table.Usable)
    (roomy : Layout.slotCount table.pageSize table.schema.width ≠ 0)
    (transaction : TransactionId) (row : Row) {tries : Nat}
    (known : store.tables[table.id]? = some table)
    (enough : (store.cachedFrom table (table.pages.wholePages store.directory)).length < tries)
    (countable : table.pages.wholePages
      (placeAppended table transaction row tries store).2.directory < UInt32.size) :
    ∃ appends,
      Appending table transaction row store appends
        (placeAppended table transaction row tries store) ∧
      appends ≤ 1 + (store.cachedFrom table (table.pages.wholePages store.directory)).length := by
  induction tries generalizing store with
  | zero => exact absurd enough (Nat.not_lt_zero _)
  | succ tries ih =>
      have small : table.pages.wholePages store.directory < UInt32.size :=
        Nat.lt_of_le_of_lt
          (Nat.div_le_div_right (size_placeAppended table transaction row (tries + 1) store))
          countable
      obtain ⟨number, directory, allocated, -⟩ :=
        PageFile.allocate_overwrites usable.positive usable.bounded store.directory
      have appended := appended_of_allocate usable small allocated
      have files := files_placeAt { store with directory := directory } transaction
        (table.page number) row
      rcases tried : ({ store with directory := directory } : Store).placeAt transaction
        (table.page number) row with ⟨failure | placement, after⟩
      · refine ⟨1, ?_, Nat.le_add_right _ _⟩
        rw [placeAppended, allocated]
        simp only [tried]
        exact .failed allocated tried
      · cases placement with
        | some placement =>
            refine ⟨1, ?_, Nat.le_add_right _ _⟩
            rw [placeAppended, allocated]
            simp only [tried]
            exact .placed allocated tried
        | none =>
            have next : placeAppended table transaction row (tries + 1) store =
                placeAppended table transaction row tries after := by
              rw [placeAppended, allocated]
              simp only [tried]
            rw [next] at countable ⊢
            rw [tried] at files
            -- The appended page was full, so there is one try less, and also one cached page less
            -- past the end of the file.
            have still : after.tables[table.id]? = some table := files.known known
            have fewer := cachedFrom_lt_of_full known roomy appended tried
            obtain ⟨appends, rest, bounded⟩ := ih still (by omega) countable
            exact ⟨appends + 1, .again allocated tried rest, by omega⟩

/-! ### The search in front of the appends -/

theorem length_placeAmong_le (table : Table) (transaction : TransactionId) (row : Row)
    {last : Nat} (countable : last ≤ UInt32.size) (first length : Nat)
    (inside : first + length ≤ last) (store : Store) :
    ((store.placeAmong table transaction row first length).2.cachedFrom table last).length ≤
      (store.cachedFrom table last).length := by
  induction length generalizing store first with
  | zero => exact Nat.le_refl _
  | succ length ih =>
      have here : (table.page (UInt32.ofNat first)).number.toNat < last := by
        change (UInt32.ofNat first).toNat < last
        rw [UInt32.toNat_ofNat_of_lt' (by omega)]
        omega
      have fewer := (store.loads_placeAt transaction (table.page (UInt32.ofNat first))
        row).length_le table here
      unfold Store.placeAmong
      split
      · next tried => rwa [tried] at fewer
      · next tried => rwa [tried] at fewer
      · next tried =>
          rw [tried] at fewer
          exact Nat.le_trans (ih (first + 1) (by omega) _) fewer

theorem range_placeAmong (table : Table) (transaction : TransactionId) (row : Row)
    (first length : Nat) (store : Store) :
    (store.placeAmong table transaction row first length).2.locks.range = store.locks.range := by
  induction length generalizing store first with
  | zero => rfl
  | succ length ih =>
      have loads := store.loads_placeAt transaction (table.page (UInt32.ofNat first)) row
      unfold Store.placeAmong
      split
      · next tried =>
          rw [tried] at loads
          exact loads.range
      · next tried =>
          rw [tried] at loads
          exact loads.range
      · next tried =>
          rw [tried] at loads
          exact (ih (first + 1) _).trans loads.range

def search (store : Store) (table : Table) (transaction : TransactionId) (row : Row) :
    Except Failure (Option Placement) × Store :=
  match table.slotsPerPage with
  | .error fault => (.error (.broken fault), store)
  | .ok slots =>
      if slots = 0 then
        (.error (.refused (.rowTooWide table.schema.width table.pageSize)), store)
      else if !row.schema.agrees table.schema then
        (.error (.refused .schemaMismatch), store)
      else
        match table.pageCount store.directory with
        | .error fault => (.error (.broken fault), store)
        | .ok count => store.placeAmong table transaction row 0 count.toNat

theorem place_eq_search (store : Store) (table : Table) (transaction : TransactionId) (row : Row) :
    store.place table transaction row =
      match store.search table transaction row with
      | (.error failure, store) => (.error failure, store)
      | (.ok (some placement), store) => (.ok placement, store)
      | (.ok none, store) =>
          placeAppended table transaction row
            (store.cachedCount + table.pages.size store.directory + 1) store := by
  unfold place search
  cases table.slotsPerPage with
  | error fault => rfl
  | ok slots =>
      by_cases none : slots = 0
      · simp only [if_pos none]
      · by_cases different : (!row.schema.agrees table.schema) = true
        · simp only [if_neg none, if_pos different]
        · simp only [if_neg none, if_neg different]
          cases table.pageCount store.directory with
          | error fault => rfl
          | ok count => rfl

theorem files_search (store : Store) (table : Table) (transaction : TransactionId) (row : Row) :
    (store.search table transaction row).2.SameFiles store := by
  unfold search
  split
  · exact ⟨rfl, rfl⟩
  · split
    · exact ⟨rfl, rfl⟩
    · split
      · exact ⟨rfl, rfl⟩
      · split
        · exact ⟨rfl, rfl⟩
        · exact files_placeAmong _ _ _ _ _ _

theorem range_search (store : Store) (table : Table) (transaction : TransactionId) (row : Row) :
    (store.search table transaction row).2.locks.range = store.locks.range := by
  unfold search
  split
  · rfl
  · split
    · rfl
    · split
      · rfl
      · split
        · rfl
        · exact range_placeAmong _ _ _ _ _ _

theorem length_search_le (usable : table.Usable)
    (small : table.pages.wholePages store.directory < UInt32.size) (transaction : TransactionId)
    (row : Row) :
    ((store.search table transaction row).2.cachedFrom table
        (table.pages.wholePages store.directory)).length ≤
      (store.cachedFrom table (table.pages.wholePages store.directory)).length := by
  unfold search
  split
  · exact Nat.le_refl _
  · split
    · exact Nat.le_refl _
    · split
      · exact Nat.le_refl _
      · rw [Table.pageCount, PageFile.count_eq usable.positive]
        simp only [UInt32.toNat_ofNat_of_lt' small]
        exact length_placeAmong_le table transaction row (Nat.le_of_lt small) 0 _ (by omega) store

inductive Placing (table : Table) (transaction : TransactionId) (row : Row) (store : Store) :
    Nat → Except Failure Placement × Store → Prop where
  | failed {after : Store} {failure : Failure} :
      store.search table transaction row = (.error failure, after) →
      Placing table transaction row store 0 (.error failure, after)
  | found {after : Store} {placement : Placement} :
      store.search table transaction row = (.ok (some placement), after) →
      Placing table transaction row store 0 (.ok placement, after)
  | appended {middle : Store} {appends : Nat} {result : Except Failure Placement × Store} :
      store.search table transaction row = (.ok none, middle) →
      Appending table transaction row middle appends result →
      Placing table transaction row store appends result

/-- The search for a place ends after at most as many appends as pages are cached behind the end,
and one. -/
theorem exists_placing (usable : table.Usable)
    (roomy : Layout.slotCount table.pageSize table.schema.width ≠ 0)
    (known : store.tables[table.id]? = some table) (transaction : TransactionId) (row : Row)
    (countable : table.pages.wholePages (store.place table transaction row).2.directory <
      UInt32.size) :
    ∃ appends, Placing table transaction row store appends (store.place table transaction row) ∧
      appends ≤ 1 + (store.cachedFrom table (table.pages.wholePages store.directory)).length ∧
      table.pages.wholePages (store.place table transaction row).2.directory =
        table.pages.wholePages store.directory + appends := by
  have files := store.files_search table transaction row
  rw [place_eq_search] at countable ⊢
  rcases searched : store.search table transaction row with ⟨failure | placement, middle⟩
  · rw [searched] at files
    refine ⟨0, .failed searched, Nat.zero_le _, ?_⟩
    exact files.wholePages_eq table
  · rw [searched] at files countable
    cases placement with
    | some placement =>
        refine ⟨0, .found searched, Nat.zero_le _, ?_⟩
        exact files.wholePages_eq table
    | none =>
        have same : table.pages.wholePages middle.directory =
            table.pages.wholePages store.directory := files.wholePages_eq table
        have small : table.pages.wholePages store.directory < UInt32.size :=
          same ▸ Nat.lt_of_le_of_lt
            (Nat.div_le_div_right (size_placeAppended table transaction row _ middle)) countable
        have fewer := length_search_le usable small transaction row
        rw [searched] at fewer
        have still : middle.tables[table.id]? = some table := files.known known
        have enough : (middle.cachedFrom table (table.pages.wholePages middle.directory)).length <
            middle.cachedCount + table.pages.size middle.directory + 1 := by
          have most := length_cachedFrom_le middle table (table.pages.wholePages middle.directory)
          omega
        obtain ⟨appends, appending, bounded⟩ :=
          appending_of_tries usable roomy transaction row still enough countable
        rw [same] at bounded
        refine ⟨appends, .appended searched appending,
          Nat.le_trans bounded (Nat.add_le_add_left fewer 1), ?_⟩
        rw [← same]
        exact appending.wholePages usable countable

/-! ### Inserts that end -/

def Answered {Outcome : Type} (outcome : Except Failure Outcome) : Prop :=
  (∃ result, outcome = .ok result) ∨ ∃ error, outcome = .error (.refused error)

/-- The outcome is a result or a `StorageError`, unless no bound can be drawn for a wait. -/
def AnswersIfDrawable {Outcome : Type} (range : WaitRange) (outcome : Except Failure Outcome) :
    Prop :=
  ∀ fault, outcome = .error (.broken fault) → fault = .emptyRange ∧ range.cutMost < range.cutLeast

namespace AnswersIfDrawable

variable {Outcome Other : Type} {range : WaitRange}

theorem ok (outcome : Outcome) : AnswersIfDrawable range (.ok outcome) :=
  nofun

theorem refused (error : StorageError) :
    AnswersIfDrawable range (.error (.refused error) : Except Failure Outcome) :=
  nofun

theorem error {failure : Failure}
    (answers : AnswersIfDrawable range (.error failure : Except Failure Outcome)) :
    AnswersIfDrawable range (.error failure : Except Failure Other) := by
  intro fault broken
  cases broken
  exact answers fault rfl

theorem answered {outcome : Except Failure Outcome} (answers : AnswersIfDrawable range outcome)
    (drawable : range.cutLeast ≤ range.cutMost) : Answered outcome := by
  cases outcome with
  | ok result => exact .inl ⟨result, rfl⟩
  | error failure =>
      cases failure with
      | refused error => exact .inr ⟨error, rfl⟩
      | broken fault => exact absurd (answers fault rfl).2 (Nat.not_lt.mpr drawable)

end AnswersIfDrawable

theorem answers_acquire (store : Store) (transaction : TransactionId) (page : PageId)
    (mode : LockMode) :
    AnswersIfDrawable store.locks.range (store.acquire transaction page mode).1 := by
  intro fault broken
  apply @LockService.acquire_broken store.locks transaction page mode 0
  unfold acquire at broken
  rcases asked : store.locks.acquire transaction page mode 0 with ⟨failure | done, locks⟩
  · rw [asked] at broken
    cases failure with
    | timeout expired => cases broken
    | broken other =>
        cases broken
        rfl
  · rw [asked] at broken
    cases broken

theorem answers_readPage (usable : table.Usable) (range : WaitRange) (directory : Directory)
    (page : PageId) : AnswersIfDrawable range (table.readPage directory page) := by
  have bounded : ¬ longestBuffer < table.pageSize := Nat.not_lt.mpr usable.bounded
  have answers : AnswersIfDrawable range
      (table.pages.read directory page.number table.pageSize) := by
    rw [Table.pageSize, PageFile.read, if_neg (not_not_intro rfl),
      PageFile.count_eq usable.positive]
    simp only
    split
    · exact .refused _
    · exact .ok _
  unfold Table.readPage
  split
  · exact .refused _
  · rw [if_neg bounded]
    split
    · exact .refused _
    · next failure _ failed =>
        rw [failed] at answers
        exact answers.error
    · split
      · exact .refused _
      · exact .ok _

theorem answers_fetch (usable : table.Usable) (known : store.tables[page.table]? = some table)
    (range : WaitRange) : AnswersIfDrawable range (store.fetch page).1 := by
  have found : store.table? page.table = .ok table := by
    rw [table?, known]
  unfold fetch
  split
  · exact .ok _
  · simp only [load, found]
    split
    · exact .refused _
    · next roomy made =>
        have answers := answers_readPage usable range roomy.directory page
        split
        · next failure read =>
            rw [read] at answers
            exact answers.error
        · exact .ok _

theorem answers_placeAt (usable : table.Usable) (known : store.tables[page.table]? = some table)
    (transaction : TransactionId) (row : Row) :
    AnswersIfDrawable store.locks.range (store.placeAt transaction page row).1 := by
  have answers : AnswersIfDrawable store.locks.range
      (store.getPage transaction page .readWrite).1 := by
    have asked := store.answers_acquire transaction page Access.readWrite.mode
    unfold getPage
    split
    · next acquired =>
        rw [acquired] at asked
        exact asked.error
    · next locked acquired =>
        have still : locked.tables[page.table]? = some table := by
          have same : (store.acquire transaction page Access.readWrite.mode).2.tables =
              store.tables := by
            unfold acquire
            split <;> rfl
          rw [acquired] at same
          rw [same]
          exact known
        exact answers_fetch usable still _
  unfold placeAt
  split
  · next got =>
      rw [got] at answers
      exact answers.error
  · split
    · exact .refused _
    · exact .ok _

theorem answers_placeAmong (usable : table.Usable) (known : store.tables[table.id]? = some table)
    (transaction : TransactionId) (row : Row) (first length : Nat) :
    AnswersIfDrawable store.locks.range
      (store.placeAmong table transaction row first length).1 := by
  induction length generalizing store first with
  | zero => exact .ok _
  | succ length ih =>
      have answers := @answers_placeAt store (table.page (UInt32.ofNat first)) table usable known
        transaction row
      have loads := store.loads_placeAt transaction (table.page (UInt32.ofNat first)) row
      unfold Store.placeAmong
      split
      · next tried =>
          rw [tried] at answers
          exact answers.error
      · exact .ok _
      · next after tried =>
          rw [tried] at loads
          have still : after.tables[table.id]? = some table := loads.files.known known
          rw [← loads.range]
          exact ih still (first + 1)

theorem answers_search {slots : Nat} (usable : table.Usable)
    (known : store.tables[table.id]? = some table) (counted : table.slotsPerPage = .ok slots)
    (transaction : TransactionId) (row : Row) :
    AnswersIfDrawable store.locks.range (store.search table transaction row).1 := by
  unfold search
  rw [counted]
  simp only
  split
  · exact .refused _
  · split
    · exact .refused _
    · rw [Table.pageCount, PageFile.count_eq usable.positive]
      exact answers_placeAmong usable known transaction row 0 _

theorem Appending.answers {appends : Nat} {result : Except Failure Placement × Store}
    (appending : Appending table transaction row store appends result) (usable : table.Usable)
    (known : store.tables[table.id]? = some table) :
    AnswersIfDrawable store.locks.range result.1 := by
  induction appending with
  | @refused store failure refused =>
      obtain ⟨number, directory, allocated, -⟩ :=
        PageFile.allocate_overwrites usable.positive usable.bounded store.directory
      rw [refused] at allocated
      cases allocated
  | @failed store after number directory failure allocated tried =>
      have answers := @answers_placeAt { store with directory := directory } (table.page number)
        table usable known transaction row
      rw [tried] at answers
      exact answers.error
  | placed allocated tried => exact .ok _
  | @again store after number directory appends result allocated tried rest ih =>
      have loads := loads_placeAt { store with directory := directory } transaction
        (table.page number) row
      rw [tried] at loads
      have still : after.tables[table.id]? = some table := loads.files.known known
      have answers := ih still
      rw [loads.range] at answers
      exact answers

theorem Placing.answers {appends slots : Nat} {result : Except Failure Placement × Store}
    (placing : Placing table transaction row store appends result) (usable : table.Usable)
    (known : store.tables[table.id]? = some table) (counted : table.slotsPerPage = .ok slots) :
    AnswersIfDrawable store.locks.range result.1 := by
  have answers := answers_search usable known counted transaction row
  cases placing with
  | failed searched =>
      rw [searched] at answers
      exact answers.error
  | found searched => exact .ok _
  | appended searched appending =>
      have files := store.files_search table transaction row
      have range := store.range_search table transaction row
      rw [searched] at files range
      rw [← range]
      exact appending.answers usable (files.known known)

theorem answers_insert {id : TableId} (known : store.tables[id]? = some table)
    (transaction : TransactionId) (row : Row)
    (answers : AnswersIfDrawable store.locks.range (store.place table transaction row).1) :
    AnswersIfDrawable store.locks.range (store.insert transaction id row).1 := by
  have found : store.table? id = .ok table := by
    rw [table?, known]
  simp only [insert, found]
  split
  · next placed =>
      rw [placed] at answers
      exact answers.error
  · split
    · exact .refused _
    · exact .ok _

/-- With fewer than `UInt32.size` pages after it, `insert` ends after at most one append more than
pages of the table are cached behind the end, and the file is longer by exactly its appends. It
returns a result or a `StorageError` if the ends of the range are in order as they are cut; the only
fault is `emptyRange`. -/
theorem insert_ends {slots : Nat} (known : store.tables[table.id]? = some table)
    (counted : table.slotsPerPage = .ok slots) (filled : slots ≠ 0)
    (countable : table.pages.wholePages (store.insert transaction table.id row).2.2.directory <
      UInt32.size) :
    ∃ appends,
      Placing table transaction row store appends (store.place table transaction row) ∧
      appends ≤ 1 + (store.cachedFrom table (table.pages.wholePages store.directory)).length ∧
      table.pages.wholePages (store.insert transaction table.id row).2.2.directory =
        table.pages.wholePages store.directory + appends ∧
      (store.locks.range.cutLeast ≤ store.locks.range.cutMost →
        Answered (store.insert transaction table.id row).1) ∧
      ∀ fault, (store.insert transaction table.id row).1 = .error (.broken fault) →
        fault = .emptyRange ∧ store.locks.range.cutMost < store.locks.range.cutLeast := by
  obtain ⟨usable, slotCount⟩ := Table.usable_of_slotsPerPage counted filled
  have files := files_insert known transaction row
  rw [files.directoryIs] at countable ⊢
  obtain ⟨appends, placing, bounded, longer⟩ :=
    exists_placing usable (slotCount ▸ filled) known transaction row countable
  have answers := answers_insert known transaction row (placing.answers usable known counted)
  exact ⟨appends, placing, bounded, longer, answers.answered, answers⟩

/-- The file of a table whose only page is full has been cut down to nothing, and the page is still
cached. -/
def emptied : Store :=
  { System.single.store with
    directory := System.single.store.directory.store numbers.pages.file .empty }

/-- The first append lands on the cached page, and the row goes onto the second. -/
theorem insert_ends_small :
    emptied.tables[numbers.id]? = some numbers ∧ numbers.slotsPerPage = .ok 1 ∧ 1 ≠ 0 ∧
      numbers.pages.wholePages
        (emptied.insert ⟨2⟩ numbers.id (System.numberRow 6)).2.2.directory < UInt32.size ∧
      emptied.cachedFrom numbers (numbers.pages.wholePages emptied.directory) = [numbers.page 0] ∧
      Placing numbers ⟨2⟩ (System.numberRow 6) emptied 2
        (emptied.place numbers ⟨2⟩ (System.numberRow 6)) ∧
      (emptied.insert ⟨2⟩ numbers.id (System.numberRow 6)).1 = .ok ⟨numbers.page 1, 0⟩ := by
  have known : emptied.tables[numbers.id]? = some numbers := Std.ExtTreeMap.getElem?_insert_self
  have before : numbers.pages.wholePages emptied.directory = 0 := by decide +kernel
  have behind : numbers.pages.wholePages
      (emptied.insert ⟨2⟩ numbers.id (System.numberRow 6)).2.2.directory = 2 := by
    decide +kernel
  have countable : numbers.pages.wholePages
      (emptied.insert ⟨2⟩ numbers.id (System.numberRow 6)).2.2.directory < UInt32.size := by
    rw [behind]
    decide
  obtain ⟨appends, placing, -, longer, -⟩ :=
    @insert_ends emptied ⟨2⟩ numbers (System.numberRow 6) 1 known rfl (by decide) countable
  rw [behind, before, Nat.zero_add] at longer
  subst longer
  exact ⟨known, rfl, by decide, countable, by decide +kernel, placing, by decide +kernel⟩

/-- The range is from five nanoseconds to four more than a word can say. Page 0 is locked and does
not exist yet. -/
def undrawable : Store :=
  (((Store.start (.empty "" []) 2 (.between LockService.short LockService.endless)).register
    numbers).getPage ⟨1⟩ (numbers.page 0) .readWrite).2

/-- The page is appended, and then no bound can be drawn for the wait for its lock. -/
theorem insert_breaks_off :
    undrawable.tables[numbers.id]? = some numbers ∧ numbers.slotsPerPage = .ok 1 ∧
      undrawable.cachedFrom numbers (numbers.pages.wholePages undrawable.directory) = [] ∧
      numbers.pages.wholePages
        (undrawable.insert ⟨2⟩ numbers.id (System.numberRow 6)).2.2.directory = 1 ∧
      (undrawable.insert ⟨2⟩ numbers.id (System.numberRow 6)).1 = .error (.broken .emptyRange) := by
  have known : undrawable.tables[numbers.id]? = some numbers :=
    Std.ExtTreeMap.getElem?_insert_self
  exact ⟨known, rfl, by decide +kernel, by decide +kernel, by decide +kernel⟩

end Store

end RecordStore
