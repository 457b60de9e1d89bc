import RecordStore.Proofs.Store.Rerun
import RecordStore.Proofs.Store.Rescan

set_option autoImplicit false

/-! One transaction that fills an empty table. Each row is put into the first free slot of the last
page or onto a page after it, so the pages list the rows in order, and after the commit so does a
scan. -/

namespace RecordStore

/-! ### Pages filled from the front -/

namespace Slots

variable {page : PageId} {slot room : Nat} {taken : List (List Value)} {values : List Value}

def packed (taken : List (List Value)) (room : Nat) : Slots :=
  taken.map some ++ List.replicate room none

theorem rowsFrom_append (page : PageId) (slot : Nat) (first second : Slots) :
    rowsFrom page slot (first ++ second) =
      rowsFrom page slot first ++ rowsFrom page (slot + first.length) second := by
  induction first generalizing slot with
  | nil => rfl
  | cons entry first ih =>
      have further : slot + 1 + first.length = slot + (entry :: first).length := by
        rw [List.length_cons]
        omega
      cases entry with
      | none =>
          rw [List.cons_append, rowsFrom, rowsFrom, ih, further]
      | some values =>
          rw [List.cons_append, rowsFrom, rowsFrom, ih, further]
          rfl

theorem rows_packed (page : PageId) (taken : List (List Value)) (room : Nat) :
    rows page (packed taken room) = rowsFrom page 0 (taken.map some) := by
  rw [rows, packed, rowsFrom_append, Bare.rowsFrom_replicate, List.append_nil]

theorem rows_packed_snoc (page : PageId) (taken : List (List Value)) (values : List Value)
    (room : Nat) :
    rows page (packed (taken ++ [values]) room) =
      rowsFrom page 0 (taken.map some) ++ [(some ⟨page, taken.length⟩, values)] := by
  rw [rows_packed, List.map_append, rowsFrom_append, List.length_map, Nat.zero_add]
  rfl

theorem getElem?_packed (index : Nat) :
    (packed taken room)[index]?.join = taken[index]? := by
  rw [packed, List.getElem?_append, List.length_map]
  split
  · rw [List.getElem?_map]
    cases taken[index]? <;> rfl
  · next beyond =>
      rw [List.getElem?_replicate, List.getElem?_eq_none (Nat.le_of_not_lt beyond)]
      split <;> rfl

/-- The first free slot of a packed page is the one behind its rows. -/
theorem free?_packed (free : free? (packed taken room) = some slot) :
    slot = taken.length ∧ ∃ others, room = others + 1 := by
  obtain ⟨inside, empty⟩ := free?_spec free
  rw [packed, List.length_append, List.length_map, List.length_replicate] at inside
  rw [getElem?_packed, List.getElem?_eq_none_iff] at empty
  unfold free? at free
  rw [List.find?_range_eq_some] at free
  obtain ⟨-, -, lowest⟩ := free
  have last : slot = taken.length := by
    apply Nat.le_antisymm _ empty
    apply Nat.le_of_not_lt
    intro beyond
    have before := lowest taken.length beyond
    rw [getElem?_packed, List.getElem?_eq_none (Nat.le_refl _)] at before
    cases before
  exact ⟨last, room - 1, by omega⟩

theorem set_packed (taken : List (List Value)) (values : List Value) (others : Nat) :
    (packed taken (others + 1)).set taken.length (some values) =
      packed (taken ++ [values]) others := by
  rw [packed, packed, List.set_append_right _ _ (Nat.le_of_eq (List.length_map _)),
    List.length_map, Nat.sub_self, List.replicate_succ, List.set_cons_zero, List.map_append,
    List.append_assoc]
  rfl

end Slots

namespace Bare

variable {bare after middle : Bare} {writer reader : TransactionId} {table : Table} {row : Row}
variable {rows : List SeenRow} {ledger : Ledger} {record : RecordId} {slots : Slots}

/-! ### One transaction filling a table -/

structure Packed (bare : Bare) (writer : TransactionId) (table : Table) (rows : List SeenRow) :
    Prop where
  unrivalled : bare.Unrivalled writer
  listed : bare.listing table.id (bare.counts table.id) = rows
  earlier : ∀ number, number + 1 < bare.counts table.id →
    ∃ slots, bare.contents? (table.page (UInt32.ofNat number)) = some slots ∧
      Slots.free? slots = none
  last : ∀ number, number + 1 = bare.counts table.id →
    ∃ taken room, bare.contents? (table.page (UInt32.ofNat number)) =
      some (Slots.packed taken room)
  roomy : bare.counts table.id ≠ 0 → 0 < bare.capacity

theorem page_ne {first second : Nat} (table : Table) (ordered : first < second)
    (small : second < UInt32.size) :
    table.page (UInt32.ofNat first) ≠ table.page (UInt32.ofNat second) := by
  intro same
  have numbers := congrArg (fun page : PageId => page.number.toNat) same
  simp only [Table.page] at numbers
  rw [UInt32.toNat_ofNat_of_lt' (Nat.lt_trans ordered small),
    UInt32.toNat_ofNat_of_lt' small] at numbers
  exact Nat.ne_of_lt ordered numbers

theorem capacity_of_fetch {page : PageId} (undrafted : bare.drafts[page]? = none)
    (fetched : bare.fetch page = .ok slots) : 0 < bare.capacity := by
  unfold fetch at fetched
  simp only [undrafted] at fetched
  split at fetched
  · cases fetched
  · split at fetched
    · cases fetched
    · next open' =>
        rw [isFull, decide_eq_true_iff] at open'
        omega

namespace Packed

theorem start (unlocked : ∀ other page, bare.locks.modeOf other page = none)
    (empty : bare.counts table.id = 0) (writer : TransactionId) :
    bare.Packed writer table [] := by
  constructor
  · intro other page _
    exact unlocked other page
  · rw [empty]
    rfl
  · intro number below
    rw [empty] at below
    cases below
  · intro number last
    rw [empty] at last
    cases last
  · intro some
    exact absurd empty some

theorem lockMore (packed : bare.Packed writer table rows)
    (locks : LocksMore writer bare after) : after.Packed writer table rows := by
  constructor
  · exact packed.unrivalled.lockMore locks
  · rw [locks.counts_eq, ← packed.listed]
    exact listing_congr fun earlier _ => locks.shown_eq _
  · intro number below
    rw [locks.counts_eq] at below
    rw [locks.contents?_eq]
    exact packed.earlier number below
  · intro number last
    rw [locks.counts_eq] at last
    rw [locks.contents?_eq]
    exact packed.last number last
  · rw [locks.counts_eq, locks.capacity_eq]
    exact packed.roomy

theorem grow (packed : bare.Packed writer table rows) {failure : Failure}
    (missing : bare.written (bare.nextPage table) = .error failure)
    (undrafted : bare.drafts[bare.nextPage table]? = none)
    (full : ∀ number, number < bare.counts table.id →
      ∃ slots, bare.contents? (table.page (UInt32.ofNat number)) = some slots ∧
        Slots.free? slots = none)
    (small : bare.counts table.id < UInt32.size) (roomy : 0 < bare.capacity) :
    (bare.grow table).Packed writer table rows := by
  have counts : (bare.grow table).counts table.id = bare.counts table.id + 1 := if_pos rfl
  constructor
  · exact packed.unrivalled
  · have same : (bare.grow table).listing table.id (bare.counts table.id + 1) =
        bare.listing table.id (bare.counts table.id + 1) :=
      listing_congr fun earlier _ => shown_grow missing _
    have blank : bare.shown (bare.nextPage table) = [] := by
      rw [shown, contents?, undrafted, missing]
      rfl
    rw [counts, same, listing_succ, packed.listed]
    change rows ++ bare.shown (bare.nextPage table) = rows
    rw [blank, List.append_nil]
  · intro number below
    rw [counts] at below
    rw [contents?_grow_other (page_ne table (Nat.lt_of_succ_lt_succ below) small)]
    exact full number (Nat.lt_of_succ_lt_succ below)
  · intro number last
    rw [counts] at last
    obtain rfl := Nat.succ.inj last
    refine ⟨[], Layout.slotCount table.pageSize table.schema.width, ?_⟩
    change (bare.grow table).contents? (bare.nextPage table) = _
    have drafts : (bare.grow table).drafts[bare.nextPage table]? = none := undrafted
    have written : (bare.grow table).written (bare.nextPage table) =
        .ok (List.replicate (Layout.slotCount table.pageSize table.schema.width) none) :=
      if_pos rfl
    rw [contents?, drafts, written]
    rfl
  · intro _
    exact roomy

theorem change (packed : bare.Packed writer table rows) {number : Nat}
    (last : number + 1 = bare.counts table.id) (small : number < UInt32.size)
    (pageIs : record.page = table.page (UInt32.ofNat number))
    (present : bare.contents? record.page = some slots)
    (free : Slots.free? slots = some record.slot) (values : List Value) :
    (bare.change writer record.page (slots.set record.slot (some values))).Packed writer table
      (rows ++ [(some record, values)]) := by
  obtain ⟨page, slot⟩ := record
  subst pageIs
  obtain ⟨taken, room, filled⟩ := packed.last number last
  have before := packed.listed
  rw [← last, listing_succ] at before
  rw [filled] at present
  obtain rfl := Option.some.inj present
  obtain ⟨rfl, others, rfl⟩ := Slots.free?_packed free
  simp only [Slots.set_packed]
  have changed : (bare.change writer (table.page (UInt32.ofNat number))
      (Slots.packed (taken ++ [values]) others)).contents? (table.page (UInt32.ofNat number)) =
        some (Slots.packed (taken ++ [values]) others) := by
    simp only [contents?, Bare.change, lookup_insert, if_true]
  constructor
  · exact packed.unrivalled
  · have same : (bare.change writer (table.page (UInt32.ofNat number))
        (Slots.packed (taken ++ [values]) others)).listing table.id number =
          bare.listing table.id number :=
      listing_congr fun earlier below => shown_congr
        (contents?_change_other (page_ne table below small).symm _)
    have shown : bare.shown (table.page (UInt32.ofNat number)) =
        Slots.rowsFrom (table.page (UInt32.ofNat number)) 0 (taken.map some) := by
      rw [Bare.shown, filled]
      exact Slots.rows_packed _ taken (others + 1)
    change listing _ table.id (bare.counts table.id) = _
    rw [← last, listing_succ, same]
    change _ ++ Bare.shown _ (table.page (UInt32.ofNat number)) = _
    rw [Bare.shown, changed]
    change _ ++ Slots.rows _ _ = _
    rw [Slots.rows_packed_snoc, ← shown, ← List.append_assoc]
    exact congrArg (· ++ _) before
  · intro earlier below
    change earlier + 1 < bare.counts table.id at below
    have ordered : earlier < number := by omega
    rw [contents?_change_other (page_ne table ordered small).symm]
    exact packed.earlier earlier below
  · intro final same
    change final + 1 = bare.counts table.id at same
    obtain rfl : final = number := by omega
    exact ⟨taken ++ [values], others, changed⟩
  · exact packed.roomy

theorem full_of_passed {number : Nat}
    (passed : FullPage bare after writer (table.page (UInt32.ofNat number))) :
    ∃ slots, bare.contents? (table.page (UInt32.ofNat number)) = some slots ∧
      Slots.free? slots = none := by
  obtain ⟨-, slots, fetched, full⟩ := passed
  exact ⟨slots, contents?_of_fetch fetched, full⟩

/-- A successful `insert` puts the row behind all others. -/
theorem insert (packed : bare.Packed writer table rows) (keeps : bare.Keeps ledger)
    (known : bare.tables[table.id]? = some table) {failure : Failure}
    (missing : bare.written (bare.nextPage table) = .error failure)
    (inserted : bare.insert writer table.id row = (.ok record, after))
    (small : after.counts table.id < UInt32.size) :
    after.Packed writer table (rows ++ [(some record, row.stored)]) := by
  obtain ⟨found, number, base, middle, slots, present, done, rfl⟩ := insert_ok inserted
  obtain rfl := Option.some.inj (known.symm.trans present)
  have locks := done.roomy.locks
  have counts : middle.counts table.id = base.counts table.id := by rw [locks.counts_eq]
  change middle.counts table.id < UInt32.size at small
  rw [counts] at small
  have shows : middle.contents? record.page = some slots := by
    rw [locks.contents?_eq]
    exact contents?_of_fetch done.roomy.fetched
  rcases done.baseIs with ⟨rfl, inside⟩ | ⟨rfl, rfl⟩
  · have last : number + 1 = base.counts table.id := by
      by_cases final : number + 1 = base.counts table.id
      · exact final
      · -- every page before the last is full
        obtain ⟨others, filled, full⟩ := packed.earlier number (by omega)
        have fetched := contents?_of_fetch done.roomy.fetched
        simp only [done.pageIs, filled, Option.some.injEq] at fetched
        have free := done.roomy.free
        simp only [← fetched, full] at free
        cases free
    apply (packed.lockMore locks).change (last.trans counts.symm) (by omega) done.pageIs shows
    exact done.roomy.free
  · have grown : (bare.grow table).counts table.id = bare.counts table.id + 1 := if_pos rfl
    rw [grown] at small counts
    have undrafted : bare.drafts[bare.nextPage table]? = none := by
      cases drafted : bare.drafts[bare.nextPage table]? with
      | none => rfl
      | some draft =>
          obtain ⟨others, readable⟩ := (keeps.drafted _ draft drafted).readable
          rw [missing] at readable
          cases readable
    have next : record.page = bare.nextPage table := done.pageIs
    have fetched := done.roomy.fetched
    simp only [next] at fetched
    have roomy : 0 < bare.capacity := @capacity_of_fetch (bare.grow table) _ _ undrafted fetched
    have based := packed.grow missing undrafted
      (fun earlier below => full_of_passed (done.passed earlier below)) (by omega) roomy
    apply (based.lockMore locks).change counts.symm (by omega) done.pageIs shows
    exact done.roomy.free

end Packed

/-! ### Once it is committed -/

structure Settled (bare : Bare) (table : Table) (rows : List SeenRow) : Prop where
  unlocked : ∀ other page, bare.locks.modeOf other page = none
  undrafted : ∀ page : PageId, bare.drafts[page]? = none
  listed : bare.listing table.id (bare.counts table.id) = rows
  readable : ∀ number, number < bare.counts table.id →
    ∃ slots, bare.written (table.page (UInt32.ofNat number)) = .ok slots
  roomy : bare.counts table.id ≠ 0 → 0 < bare.capacity

section Commit

variable (keeps : bare.Keeps ledger) (unrivalled : bare.Unrivalled writer)

include keeps unrivalled

theorem drafts_commit_alone (page : PageId) :
    (bare.complete true writer).drafts[page]? = none := by
  rw [drafts_complete keeps.consistent]
  split
  · rfl
  · next unheld =>
      cases drafted : bare.drafts[page]? with
      | none => rfl
      | some draft =>
          have foreign := keeps.foreign_draft drafted unheld
          have exclusive := (keeps.drafted page draft drafted).exclusive
          rw [unrivalled draft.transaction page foreign] at exclusive
          cases exclusive

/-- `commit` writes the drafts of the transaction. -/
theorem contents?_commit_alone (page : PageId) :
    (bare.complete true writer).contents? page = bare.contents? page := by
  rw [contents?, drafts_commit_alone keeps unrivalled, written_commit keeps.consistent, contents?]
  cases drafted : bare.drafts[page]? with
  | none => rfl
  | some draft =>
      by_cases held : (bare.locks.modeOf writer page).isSome
      · simp only [if_pos held]
        rfl
      · have foreign := keeps.foreign_draft drafted held
        have exclusive := (keeps.drafted page draft drafted).exclusive
        rw [unrivalled draft.transaction page foreign] at exclusive
        cases exclusive

end Commit

theorem Packed.commit (packed : bare.Packed writer table rows) (keeps : bare.Keeps ledger) :
    (bare.complete true writer).Settled table rows := by
  have contents := contents?_commit_alone keeps packed.unrivalled
  have undrafted := drafts_commit_alone keeps packed.unrivalled
  have counts : (bare.complete true writer).counts = bare.counts := by
    rw [complete_eq]
    rfl
  constructor
  · intro other page
    rw [modeOf_complete keeps.consistent]
    split
    · rfl
    · next different => exact packed.unrivalled other page different
  · exact undrafted
  · rw [counts, ← packed.listed]
    exact listing_congr fun earlier _ => shown_congr (contents _)
  · intro number below
    rw [counts] at below
    have present : ∃ slots, (bare.complete true writer).contents?
        (table.page (UInt32.ofNat number)) = some slots := by
      rw [contents]
      by_cases last : number + 1 = bare.counts table.id
      · obtain ⟨taken, room, filled⟩ := packed.last number last
        exact ⟨_, filled⟩
      · obtain ⟨slots, filled, -⟩ := packed.earlier number (by omega)
        exact ⟨slots, filled⟩
    obtain ⟨slots, present⟩ := present
    rw [contents?, undrafted] at present
    cases written : (bare.complete true writer).written (table.page (UInt32.ofNat number)) with
    | ok others => exact ⟨others, rfl⟩
    | error failure =>
        rw [written] at present
        cases present
  · rw [counts, capacity_complete]
    exact packed.roomy

namespace Settled

theorem fetch_ok (settled : bare.Settled table rows)
    (known : bare.tables[table.id]? = some table) {number : Nat}
    (inside : number < bare.counts table.id) :
    ∃ slots, bare.fetch (table.page (UInt32.ofNat number)) = .ok slots := by
  obtain ⟨slots, written⟩ := settled.readable number inside
  have nothing : bare.drafts = ∅ := by
    apply Std.ExtTreeMap.ext_getElem?
    intro page
    rw [settled.undrafted page, Std.ExtTreeMap.getElem?_empty]
  have open' : ¬ bare.isFull = true := by
    have roomy := settled.roomy (Nat.ne_of_gt (Nat.lt_of_le_of_lt (Nat.zero_le _) inside))
    rw [isFull, decide_eq_true_iff, nothing, Std.ExtTreeMap.size_empty]
    omega
  have registered : bare.tables[(table.page (UInt32.ofNat number)).table]? = some table := known
  have owner : bare.table? (table.page (UInt32.ofNat number)).table = .ok table := by
    rw [table?, registered]
  refine ⟨slots, ?_⟩
  rw [fetch, settled.undrafted, owner]
  simp only [if_neg open']
  exact written

end Settled

end Bare

/-! ### Scanning it -/

theorem Store.Coherent.drain_ok {store : Store} (coherent : store.Coherent)
    (consistent : store.locks.table.Consistent) {reader : TransactionId} {table : Table}
    (unrivalled : store.bare.Unrivalled reader) {first length : Nat}
    (fetches : ∀ number, first ≤ number → number < first + length →
      ∃ slots, store.bare.fetch (table.page (UInt32.ofNat number)) = .ok slots) :
    ∃ rows after, Scan.drain table reader first length store = (rows, none, .empty, after) ∧
      rows.map Row.seen = (List.range' first length).flatMap fun number =>
        store.bare.shown (table.page (UInt32.ofNat number)) := by
  induction length generalizing store first with
  | zero => exact ⟨[], store, rfl, rfl⟩
  | succ length ih =>
      obtain ⟨slots, fetched⟩ := fetches first (Nat.le_refl first) (by omega)
      obtain ⟨later, got, locks⟩ := unrivalled.getPage consistent
        (table.page (UInt32.ofNat first)) .readOnly
      have fetch := coherent.getPage reader (table.page (UInt32.ofNat first)) .readOnly
      rw [got, fetched] at fetch
      rcases answer : store.getPage reader (table.page (UInt32.ofNat first)) .readOnly with
        ⟨failure | cached, after⟩
      · have answered := fetch.answered
        rw [answer] at answered
        cases answered
      · rw [answer] at fetch
        obtain ⟨afterCoherent, bareIs, answered, present, -⟩ := fetch
        change after.bare = later at bareIs
        subst bareIs
        have contents : cached.page.contents = slots := Except.ok.inj answered
        obtain ⟨owner, -, faithful⟩ := afterCoherent.faithful _ cached (present cached rfl)
        have seen := Store.map_seen_rows_of_faithful faithful
        rw [contents, Bare.rows_of_fetch fetched] at seen
        have further : ∀ number, first + 1 ≤ number → number < first + 1 + length →
            ∃ slots, after.bare.fetch (table.page (UInt32.ofNat number)) = .ok slots := by
          intro number above below
          rw [locks.fetch_eq]
          exact fetches number (by omega) (by omega)
        obtain ⟨rows, final, drained, listed⟩ := ih afterCoherent
          (locks.strengthens.consistent consistent) (unrivalled.lockMore locks) further
        refine ⟨cached.page.rows ++ rows, final, ?_, ?_⟩
        · rw [Scan.drain, answer]
          simp only [drained]
        · rw [List.map_append, seen, listed, List.range'_succ, List.flatMap_cons]
          congr 2
          funext number
          exact locks.shown_eq _

/-- A scan of a settled store returns the rows of the table in order. -/
theorem Store.Coherent.scan_settled {store : Store} (coherent : store.Coherent)
    (consistent : store.locks.table.Consistent) {table : Table} {rows : List SeenRow}
    (known : store.tables[table.id]? = some table) (positive : table.pageSize ≠ 0)
    (settled : store.bare.Settled table rows) (reader : TransactionId) :
    ∃ scan shown ended after, Scan.start table reader store = .ok scan ∧
      scan.rest store = (shown, none, ended, after) ∧ shown.map Row.seen = rows := by
  have counts : store.bare.counts table.id = table.pages.wholePages store.directory :=
    Store.counts_of_table known
  have exact : (UInt32.ofNat (table.pages.wholePages store.directory)).toNat =
      store.bare.counts table.id := by
    rw [counts]
    exact UInt32.toNat_ofNat_of_lt' (coherent.countable _ _ known)
  obtain ⟨shown, after, drained, listed⟩ := @Store.Coherent.drain_ok store coherent consistent
    reader table (fun other page _ => settled.unlocked other page) 0
    (store.bare.counts table.id) fun number _ below =>
      settled.fetch_ok known (by omega)
  refine ⟨⟨table, reader, ⟨0, store.bare.counts table.id⟩, []⟩, shown,
    ⟨table, reader, .empty, []⟩, after, ?_, ?_, ?_⟩
  · rw [Scan.start, Table.pageCount, PageFile.count_eq positive]
    simp only [PageSpan.before, exact]
  · rw [Scan.rest]
    simp only [drained]
    rfl
  · rw [listed, ← settled.listed, Bare.listing, List.range_eq_range']
    rfl

end RecordStore
