import Mathlib.Data.List.Nodup
import RecordStore.Proofs.Store.Filling

set_option autoImplicit false

/-! Stores at rest: no locks and no dirty pages. A scan then lists every stored record once, and
leaves the store at rest when its transaction ends. -/

namespace RecordStore

namespace Bare

structure AtRest (bare : Bare) : Prop where
  consistent : bare.locks.table.Consistent
  unlocked : ∀ other page, bare.locks.modeOf other page = none
  undrafted : ∀ page : PageId, bare.drafts[page]? = none

structure Unchanged (after before : Bare) : Prop where
  tables : after.tables = before.tables
  capacity : after.capacity = before.capacity
  counts : after.counts = before.counts
  written : after.written = before.written

def Inside (bare : Bare) (id : TableId) : Prop :=
  ∀ record : RecordId, record.page.table = id → (bare.stored record).isSome →
    record.page.number.toNat < bare.counts id

variable {bare middle after : Bare} {transaction : TransactionId} {id : TableId} {page : PageId}
  {ledger : Ledger} {number : Nat}

theorem Unchanged.stored_eq (unchanged : after.Unchanged bare) : after.stored = bare.stored := by
  funext record
  rw [stored, stored, unchanged.written]

theorem AtRest.keeps (rest : bare.AtRest) : bare.Keeps ⟨bare.stored, fun _ => []⟩ := by
  refine ⟨rest.consistent, rfl, ?_, fun _ _ member => by cases member⟩
  intro page draft drafted
  rw [rest.undrafted] at drafted
  cases drafted

/-- A draft is locked, so a store without locks has none. -/
theorem Keeps.atRest (keeps : bare.Keeps ledger)
    (unlocked : ∀ other page, bare.locks.modeOf other page = none) : bare.AtRest := by
  refine ⟨keeps.consistent, unlocked, ?_⟩
  intro page
  cases drafted : bare.drafts[page]? with
  | none => rfl
  | some draft =>
      have exclusive := (keeps.drafted page draft drafted).exclusive
      rw [unlocked] at exclusive
      cases exclusive

/-- A transaction that only took locks completes with the store at rest and `Unchanged`. -/
theorem AtRest.complete (rest : bare.AtRest) (locks : LocksMore transaction bare middle)
    (commits : Bool) :
    (middle.complete commits transaction).AtRest ∧
      (middle.complete commits transaction).Unchanged bare := by
  have keeps := rest.keeps.lockMore locks
  have undrafted (page : PageId) : middle.drafts[page]? = none := by
    rw [locks.drafts_eq]
    exact rest.undrafted page
  have unlocked (other : TransactionId) (page : PageId) :
      (middle.complete commits transaction).locks.modeOf other page = none := by
    rw [modeOf_complete keeps.consistent]
    split
    · rfl
    · next different =>
        exact (locks.strengthens.others other page different).trans (rest.unlocked other page)
  refine ⟨(keeps.complete commits transaction).atRest unlocked,
    (middle.tables_complete commits transaction).trans locks.tables_eq,
    (middle.capacity_complete commits transaction).trans locks.capacity_eq, ?_, ?_⟩
  · rw [complete_eq]
    cases commits <;> exact locks.counts_eq
  · refine Eq.trans ?_ locks.written_eq
    cases commits with
    | false => exact written_abort
    | true =>
        funext page
        rw [written_commit keeps.consistent, undrafted]

/-! ### What is listed -/

section Listing

variable (undrafted : ∀ page : PageId, bare.drafts[page]? = none)

include undrafted

theorem mem_shown {place : Option RecordId} {values : List Value} :
    (place, values) ∈ bare.shown page ↔
      ∃ slot, place = some ⟨page, slot⟩ ∧ bare.stored ⟨page, slot⟩ = some values := by
  rw [shown, contents?, undrafted]
  simp only [stored]
  cases bare.written page with
  | error failure => simp [Except.toOption]
  | ok slots =>
      simp only [Except.toOption, Option.elim, Slots.rows, Slots.mem_rowsFrom, Nat.zero_add]

/-- The listing has exactly the records on the pages it covers. -/
theorem mem_listing (small : number ≤ UInt32.size) {place : Option RecordId}
    {values : List Value} :
    (place, values) ∈ bare.listing id number ↔
      ∃ record, place = some record ∧ record.page.table = id ∧
        record.page.number.toNat < number ∧ bare.stored record = some values := by
  simp only [listing, List.mem_flatMap, List.mem_range, mem_shown undrafted]
  constructor
  · rintro ⟨earlier, below, slot, rfl, present⟩
    refine ⟨_, rfl, rfl, ?_, present⟩
    change (UInt32.ofNat earlier).toNat < number
    rwa [UInt32.toNat_ofNat_of_lt' (Nat.lt_of_lt_of_le below small)]
  · rintro ⟨⟨⟨table, place⟩, slot⟩, rfl, rfl, below, present⟩
    refine ⟨place.toNat, below, slot, ?_, ?_⟩
    · rw [UInt32.ofNat_toNat]
    · rw [UInt32.ofNat_toNat]
      exact present

end Listing

theorem AtRest.listing_congr (rest : bare.AtRest) (later : after.AtRest)
    (counts : after.counts = bare.counts) (written : after.written = bare.written) (id : TableId) :
    after.listing id (after.counts id) = bare.listing id (bare.counts id) := by
  have same : after.shown = bare.shown := by
    funext page
    rw [shown, shown, contents?, contents?, rest.undrafted, later.undrafted, written]
  rw [listing, listing, counts, same]

theorem Settled.of_unchanged {table : Table} {rows : List SeenRow}
    (settled : bare.Settled table rows) (unchanged : after.Unchanged bare) (rest : bare.AtRest)
    (later : after.AtRest) : after.Settled table rows := by
  refine ⟨later.unlocked, later.undrafted,
    (rest.listing_congr later unchanged.counts unchanged.written table.id).trans settled.listed,
    ?_, ?_⟩
  · rw [unchanged.counts, unchanged.written]
    exact settled.readable
  · rw [unchanged.counts, unchanged.capacity]
    exact settled.roomy

def Before (left right : SeenRow) : Prop :=
  ∃ first second : RecordId, left.1 = some first ∧ right.1 = some second ∧
    (first.page.number.toNat < second.page.number.toNat ∨
      (first.page.number = second.page.number ∧ first.slot < second.slot))

theorem Before.asymm {left right : SeenRow} (before : Before left right) :
    ¬ Before right left := by
  obtain ⟨first, second, firstIs, secondIs, ordered⟩ := before
  rintro ⟨other, another, otherIs, anotherIs, reversed⟩
  obtain rfl := Option.some.inj (firstIs.symm.trans anotherIs)
  obtain rfl := Option.some.inj (secondIs.symm.trans otherIs)
  rcases ordered with below | ⟨same, below⟩ <;> rcases reversed with above | ⟨again, above⟩
  · omega
  · rw [again] at below
    exact Nat.lt_irrefl _ below
  · rw [same] at above
    exact Nat.lt_irrefl _ above
  · omega

instance : Std.Irrefl Before := ⟨fun _ before => before.asymm before⟩

/-- Rows are listed by page and slot. -/
theorem listing_ordered (bare : Bare) (id : TableId) (small : number ≤ UInt32.size) :
    (bare.listing id number).Pairwise Before := by
  rw [listing, List.pairwise_flatMap]
  constructor
  · intro earlier _
    rw [shown]
    cases bare.contents? ⟨id, UInt32.ofNat earlier⟩ with
    | none => exact .nil
    | some slots =>
        refine (slots.pairwise_rowsFrom 0).imp_of_mem ?_
        intro left right member also ordered
        obtain ⟨slot, placed⟩ := Slots.place_of_mem_rows member
        obtain ⟨another, again⟩ := Slots.place_of_mem_rows also
        exact ⟨_, _, placed, again, .inr ⟨rfl, ordered _ _ placed again⟩⟩
  · refine List.pairwise_lt_range.imp_of_mem ?_
    intro first second _ member ordered row here other there
    rw [List.mem_range] at member
    obtain ⟨slot, placed⟩ := place_of_shown here
    obtain ⟨another, again⟩ := place_of_shown there
    refine ⟨_, _, placed, again, .inl ?_⟩
    change (UInt32.ofNat first).toNat < (UInt32.ofNat second).toNat
    rwa [UInt32.toNat_ofNat_of_lt' (by omega), UInt32.toNat_ofNat_of_lt' (by omega)]

theorem nodup_listing (bare : Bare) (small : number ≤ UInt32.size) :
    (bare.listing id number).Nodup := (bare.listing_ordered id small).nodup

/-- The listing after some rows were stored in vacant places is a permutation of the former one and
these. -/
theorem AtRest.listing_perm (rest : bare.AtRest) (later : after.AtRest)
    (inside : bare.Inside id) (within : after.Inside id)
    (small : bare.counts id ≤ UInt32.size) (finite : after.counts id ≤ UInt32.size)
    {placed : List SeenRow} (once : placed.Nodup)
    (own : ∀ row ∈ placed, ∃ record, row.1 = some record ∧ record.page.table = id ∧
      bare.stored record = none)
    (becomes : ∀ record values, record.page.table = id → (after.stored record = some values ↔
      bare.stored record = some values ∨ (some record, values) ∈ placed)) :
    (after.listing id (after.counts id)).Perm
      (bare.listing id (bare.counts id) ++ placed) := by
  rw [List.perm_ext_iff_of_nodup (after.nodup_listing finite)]
  · rintro ⟨place, values⟩
    rw [List.mem_append, mem_listing later.undrafted finite, mem_listing rest.undrafted small]
    constructor
    · rintro ⟨record, rfl, table, -, present⟩
      rcases (becomes record values table).mp present with before | new
      · exact .inl ⟨record, rfl, table, inside record table (by rw [before]; rfl), before⟩
      · exact .inr new
    · rintro (⟨record, rfl, table, -, present⟩ | new)
      · have still := (becomes record values table).mpr (.inl present)
        exact ⟨record, rfl, table, within record table (by rw [still]; rfl), still⟩
      · obtain ⟨record, placed, table, -⟩ := own _ new
        obtain rfl : place = some record := placed
        have there := (becomes record values table).mpr (.inr new)
        exact ⟨record, rfl, table, within record table (by rw [there]; rfl), there⟩
  · refine List.nodup_append.mpr ⟨bare.nodup_listing small, once, ?_⟩
    rintro ⟨place, values⟩ before _ new rfl
    obtain ⟨record, rfl, -, -, present⟩ := (mem_listing rest.undrafted small).mp before
    obtain ⟨other, same, -, vacant⟩ := own _ new
    obtain rfl := Option.some.inj same
    rw [vacant] at present
    cases present

/-- Stores at rest with the same records list the same, though one may have more pages. -/
theorem AtRest.listing_eq (rest : bare.AtRest) (later : after.AtRest)
    (inside : bare.Inside id) (within : after.Inside id)
    (small : bare.counts id ≤ UInt32.size) (finite : after.counts id ≤ UInt32.size)
    (same : after.stored = bare.stored) :
    after.listing id (after.counts id) = bare.listing id (bare.counts id) := by
  refine List.Perm.eq_of_pairwise (fun _ _ _ _ before behind => absurd behind before.asymm)
    (after.listing_ordered id finite) (bare.listing_ordered id small) ?_
  have perm := rest.listing_perm later inside within small finite List.nodup_nil
    (fun row member => by cases member)
    (fun record values _ => by rw [same]; simp)
  rwa [List.append_nil] at perm

end Bare

theorem System.Fresh.atRest {start : System} (fresh : start.Fresh) : start.store.bare.AtRest :=
  ⟨fresh.consistent, fresh.modeOf_eq_none, fresh.undrafted⟩

/-! ### Scans -/

namespace Store

/-- A store on a directory with one registered table and nothing done yet. -/
def opened (directory : Directory) (capacity : Nat) (range : WaitRange) (preference : Preference)
    (table : Table) : Store :=
  { start directory capacity range with preference := preference }.register table

section Opened

variable {directory : Directory} {capacity : Nat} {range : WaitRange} {preference : Preference}
  {table : Table}

theorem known_opened :
    (opened directory capacity range preference table).tables[table.id]? = some table :=
  Std.ExtTreeMap.getElem?_insert_self

theorem fresh_opened (small : table.pages.wholePages directory < UInt32.size) :
    System.Fresh ⟨opened directory capacity range preference table, fun _ => none⟩ :=
  ⟨.single table, countable_single rfl small, rfl, ⟨rfl, rfl⟩, fun _ => rfl⟩

theorem coherent_opened (small : table.pages.wholePages directory < UInt32.size) :
    (opened directory capacity range preference table).Coherent :=
  (fresh_opened small).coherent.store

theorem atRest_opened (small : table.pages.wholePages directory < UInt32.size) :
    (opened directory capacity range preference table).bare.AtRest :=
  (fresh_opened small).atRest

end Opened

variable {store after : Store} {reader : TransactionId} {table : Table} {rows : List Row}

theorem Coherent.inside (coherent : store.Coherent) (known : store.tables[table.id]? = some table) :
    store.bare.Inside table.id := by
  rintro ⟨⟨id, number⟩, slot⟩ rfl present
  apply Nat.lt_of_not_le
  intro beyond
  have counts : store.bare.counts table.id = table.pages.wholePages store.directory :=
    counts_of_table known
  rw [counts] at beyond
  obtain ⟨failure, missing, -⟩ := @Store.Coherent.written_outside store
    ⟨table.id, number⟩ coherent table known beyond
  change store.bare.written ⟨table.id, number⟩ = _ at missing
  rw [Bare.stored, missing] at present
  cases present

theorem Coherent.capacity_of_draft (coherent : store.Coherent) {page : PageId} {draft : Draft}
    (drafted : store.bare.drafts[page]? = some draft) : 0 < store.capacity := by
  obtain ⟨cached, present, -⟩ := cached_of_draft drafted
  have fewer := size_filterMap_lt store.cache (fun _ => (none : Option Draft)) present rfl
  have bounded := coherent.bounded
  omega

def listed (store : Store) (table : Table) : List SeenRow :=
  store.bare.listing table.id (store.bare.counts table.id)

/-- The listings of two stores at rest differ by the records stored in between. -/
theorem listed_perm (coherent : store.Coherent) (rest : store.bare.AtRest)
    (known : store.tables[table.id]? = some table) (afterCoherent : after.Coherent)
    (later : after.bare.AtRest) (afterKnown : after.tables[table.id]? = some table)
    {rows : List SeenRow} (once : rows.Nodup)
    (own : ∀ row ∈ rows, ∃ record, row.1 = some record ∧ record.page.table = table.id ∧
      store.bare.stored record = none)
    (becomes : ∀ record values, after.bare.stored record = some values ↔
      store.bare.stored record = some values ∨ (some record, values) ∈ rows) :
    (after.listed table).Perm (store.listed table ++ rows) :=
  rest.listing_perm later (coherent.inside known) (afterCoherent.inside afterKnown)
    (Nat.le_of_lt (coherent.countable.counts_lt table.id))
    (Nat.le_of_lt (afterCoherent.countable.counts_lt table.id)) once own
    fun record values _ => becomes record values

/-- With a single table, every page that is counted can be read. -/
theorem whole_of_settled (settled : store.bare.Settled table (store.listed table))
    (tables : store.tables = (∅ : Std.ExtTreeMap TableId Table).insert table.id table) :
    store.bare.Whole := by
  intro page inside
  change page.number.toNat < store.counts page.table at inside
  rw [Store.counts, tables, lookup_insert] at inside
  split at inside
  · next known =>
      split at known
      · next own =>
          cases known
          obtain ⟨slots, written⟩ := settled.readable page.number.toNat (by
            rw [show store.bare.counts table.id = _ from counts_of_table (by
              rw [tables, lookup_insert, if_pos rfl])]
            exact inside)
          rw [UInt32.ofNat_toNat, Table.page, own] at written
          exact ⟨slots, written⟩
      · rw [Std.ExtTreeMap.getElem?_empty] at known
        cases known
  · exact absurd inside (Nat.not_lt_zero _)

/-- `insert` into the only table follows `Bare.insert` if its pages can be counted afterwards. -/
theorem Coherent.insert_single (coherent : store.Coherent)
    (tables : store.tables = (∅ : Std.ExtTreeMap TableId Table).insert table.id table)
    {transaction : TransactionId} {row placed : Row} {outcome : Except Failure RecordId}
    (done : store.insert transaction table.id row = (outcome, placed, after))
    (small : table.pages.wholePages after.directory < UInt32.size) :
    after.Coherent ∧ after.tables = store.tables ∧
      store.bare.insert transaction table.id row = (outcome, after.bare) := by
  have same := store.tables_insert transaction table.id row
  have agrees := coherent.insert transaction table.id row fun other known needs =>
    coherent.room_of_countable known (countable_single (same.trans tables)
      (by rw [done]; exact small)) needs
  rw [done] at same agrees
  obtain ⟨afterCoherent, bareIs, answered⟩ := agrees
  exact ⟨afterCoherent, same, Prod.ext answered.symm bareIs.symm⟩

theorem Coherent.nextTransaction_insert (coherent : store.Coherent)
    (tables : store.tables = (∅ : Std.ExtTreeMap TableId Table).insert table.id table)
    {transaction : TransactionId} {row placed : Row} {outcome : Except Failure RecordId}
    (done : store.insert transaction table.id row = (outcome, placed, after))
    (small : table.pages.wholePages after.directory < UInt32.size) :
    after.nextTransaction = store.nextTransaction := by
  obtain ⟨-, -, bare⟩ := coherent.insert_single tables done small
  have same := (store.bare.setting_insert transaction table.id row).nextTransaction
  rw [bare] at same
  exact same

theorem Coherent.nextTransaction_complete (coherent : store.Coherent) (commits : Bool)
    (transaction : TransactionId) :
    (store.complete commits transaction).2.nextTransaction = store.nextTransaction := by
  obtain ⟨after, completed, -, bareIs⟩ := coherent.complete commits transaction
  rw [completed]
  exact (congrArg Bare.nextTransaction bareIs).trans
    (store.bare.setting_complete commits transaction).nextTransaction

theorem Coherent.complete_alone (coherent : store.Coherent) {ledger : Ledger}
    (keeps : store.bare.Keeps ledger) {transaction : TransactionId}
    (unrivalled : store.bare.Unrivalled transaction) (commits : Bool) :
    ∃ after, store.complete commits transaction = (.ok (), after) ∧ after.Coherent ∧
      after.bare.AtRest ∧ after.tables = store.tables ∧
      after.bare.stored = (ledger.settle commits transaction).committed := by
  obtain ⟨after, completed, afterCoherent, bareIs⟩ := coherent.complete commits transaction
  have afterKeeps := keeps.complete commits transaction
  rw [← bareIs] at afterKeeps
  refine ⟨after, completed, afterCoherent, afterKeeps.atRest fun other page => ?_, ?_,
    afterKeeps.stored⟩
  · rw [bareIs, Bare.modeOf_complete keeps.consistent]
    split
    · rfl
    · next different => exact unrivalled other page different
  · exact (congrArg Bare.tables bareIs).trans (store.bare.tables_complete commits transaction)

/-- At rest the listing depends on the files only. -/
theorem listed_congr (rest : store.bare.AtRest) (later : after.bare.AtRest)
    (tables : after.tables = store.tables) (directory : after.directory = store.directory) :
    after.listed table = store.listed table := by
  refine rest.listing_congr later ?_ ?_ table.id
  · funext id
    change after.counts id = store.counts id
    rw [Store.counts, Store.counts, tables, directory]
  · funext page
    change after.written page = store.written page
    rw [Store.written, Store.written, table?, table?, tables, directory]

/-- A scan that drains without an error has read every page ahead. -/
theorem Coherent.drained (coherent : store.Coherent)
    (known : store.tables[table.id]? = some table) {first length : Nat} {ahead : PageSpan}
    (drained : Scan.drain table reader first length store = (rows, none, ahead, after)) :
    after.Coherent ∧ Bare.LocksMore reader store.bare after.bare ∧
      (∀ number, first ≤ number → number < first + length →
        ∃ slots, store.bare.fetch (table.page (UInt32.ofNat number)) = .ok slots) ∧
      (∀ row ∈ rows, row.schema.types = table.schema.types) ∧
      rows.map Row.seen = (List.range' first length).flatMap fun number =>
        store.bare.shown (table.page (UInt32.ofNat number)) := by
  induction length generalizing store first rows with
  | zero =>
      simp only [Scan.drain, Prod.mk.injEq] at drained
      obtain ⟨rfl, -, -, rfl⟩ := drained
      exact ⟨coherent, .refl reader _, fun number above below => by omega,
        fun row member => absurd member List.not_mem_nil, rfl⟩
  | succ length ih =>
      have fetches := coherent.getPage reader (table.page (UInt32.ofNat first)) .readOnly
      rcases got : store.getPage reader (table.page (UInt32.ofNat first)) .readOnly with
        ⟨(refused | fault) | cached, middle⟩
      · simp [Scan.drain, got] at drained
      · simp [Scan.drain, got] at drained
      · rw [got] at fetches
        have answered : store.bare.getPage reader (table.page (UInt32.ofNat first)) .readOnly =
            (.ok cached.page.contents, middle.bare) :=
          Prod.ext fetches.answered.symm fetches.bareIs.symm
        obtain ⟨locks, fetched, -⟩ := Bare.getPage_ok answered
        have still : middle.tables[table.id]? = some table := by
          rw [show middle.tables = store.tables from locks.tables_eq]
          exact known
        obtain ⟨owner, owned, faithful⟩ :=
          fetches.coherent.faithful _ cached (fetches.present cached rfl)
        have ownerIs : owner = table := Option.some.inj (owned.symm.trans still)
        rw [ownerIs] at faithful
        have seen := Store.map_seen_rows_of_faithful faithful
        rw [Bare.rows_of_fetch fetched] at seen
        rcases others : Scan.drain table reader (first + 1) length middle with
          ⟨later, failure, left, final⟩
        simp only [Scan.drain, got, others, Prod.mk.injEq] at drained
        obtain ⟨rfl, rfl, rfl, rfl⟩ := drained
        obtain ⟨finalCoherent, more, readable, typed, listed⟩ :=
          ih fetches.coherent still others
        refine ⟨finalCoherent, locks.trans more, ?_, ?_, ?_⟩
        · intro number above below
          by_cases here : number = first
          · exact ⟨_, here ▸ fetched⟩
          · rw [← locks.fetch_eq]
            exact readable number (by omega) (by omega)
        · intro row member
          rcases List.mem_append.mp member with here | later
          · exact faithful.sound.types_of_mem here
          · exact typed row later
        · rw [List.map_append, seen, listed, List.range'_succ, List.flatMap_cons]
          congr 2
          funext number
          exact locks.shown_eq _

def Scanned (store : Store) (table : Table) (reader : TransactionId) (rows : List Row)
    (after : Store) : Prop :=
  ∃ scan ended, Scan.start table reader store = .ok scan ∧
    scan.rest store = (rows, none, ended, after)

section Scanned

variable (coherent : store.Coherent) (known : store.tables[table.id]? = some table)

include coherent known

theorem Coherent.scanned (scanned : store.Scanned table reader rows after) :
    table.pageSize ≠ 0 ∧ after.Coherent ∧ Bare.LocksMore reader store.bare after.bare ∧
      (∀ number, number < store.bare.counts table.id →
        ∃ slots, store.bare.fetch (table.page (UInt32.ofNat number)) = .ok slots) ∧
      (∀ row ∈ rows, row.schema.types = table.schema.types) ∧
      rows.map Row.seen = store.listed table := by
  obtain ⟨scan, ended, started, rested⟩ := scanned
  have counts : store.bare.counts table.id = table.pages.wholePages store.directory :=
    counts_of_table known
  have positive : table.pageSize ≠ 0 := by
    intro zero
    have none : table.pages.pageSize = 0 := zero
    rw [Scan.start, Table.pageCount, PageFile.count, if_pos none] at started
    cases started
  have exact : (UInt32.ofNat (table.pages.wholePages store.directory)).toNat =
      store.bare.counts table.id := by
    rw [counts]
    exact UInt32.toNat_ofNat_of_lt' (coherent.countable _ _ known)
  rw [Scan.start, Table.pageCount, PageFile.count_eq positive] at started
  simp only [PageSpan.before, exact, Except.ok.injEq] at started
  subst started
  rcases drained : Scan.drain table reader 0 (store.bare.counts table.id) store with
    ⟨found, failure, left, final⟩
  simp only [Scan.rest, drained, List.nil_append, Prod.mk.injEq] at rested
  obtain ⟨rfl, rfl, -, rfl⟩ := rested
  obtain ⟨finalCoherent, locks, readable, typed, listed⟩ := coherent.drained known drained
  refine ⟨positive, finalCoherent, locks, fun number below => readable number (Nat.zero_le _)
    (by omega), typed, ?_⟩
  rw [listed, Store.listed, Bare.listing, List.range_eq_range']
  rfl

theorem Coherent.settled_of_scanned (rest : store.bare.AtRest)
    (scanned : store.Scanned table reader rows after) :
    store.bare.Settled table (store.listed table) := by
  obtain ⟨-, -, -, readable, -⟩ := coherent.scanned known scanned
  refine ⟨rest.unlocked, rest.undrafted, rfl, ?_, ?_⟩
  · intro number below
    obtain ⟨slots, fetched⟩ := readable number below
    exact rest.keeps.readable_of_fetch fetched
  · intro some
    obtain ⟨slots, fetched⟩ := readable 0 (Nat.pos_of_ne_zero some)
    exact Bare.capacity_of_fetch (rest.undrafted _) fetched

theorem Coherent.scanned_of_settled (consistent : store.locks.table.Consistent)
    (positive : table.pageSize ≠ 0) (settled : store.bare.Settled table (store.listed table))
    (reader : TransactionId) :
    ∃ rows after, store.Scanned table reader rows after ∧
      rows.map Row.seen = store.listed table := by
  obtain ⟨scan, rows, ended, after, started, rested, listed⟩ :=
    coherent.scan_settled consistent known positive settled reader
  exact ⟨rows, after, ⟨scan, ended, started, rested⟩, listed⟩

end Scanned

end Store

end RecordStore
