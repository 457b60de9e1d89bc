import Mathlib.Data.Nat.Find
import RecordStore.Proofs.Store.Recreation

set_option autoImplicit false

/-! The record that `insert` returns. An insert that can lock and load every page up to there uses
the first free slot in the order of pages and slots; if every page is full it appends one page of
zeros and uses its first slot. It locks the pages up to there and changes nothing else. -/

namespace RecordStore

namespace LockService

variable {service after : LockService} {transaction : TransactionId} {page : PageId}
  {sample : Nat}

/-- `acquire` in exclusive mode adds exactly that lock. -/
theorem modeOf_of_acquire_exclusive
    (acquired : service.acquire transaction page .exclusive sample = (.ok (), after))
    (other : TransactionId) (place : PageId) :
    after.modeOf other place =
      if other = transaction ∧ place = page then some .exclusive
      else service.modeOf other place := by
  cases granted : service.table.grant? transaction page .exclusive with
  | none =>
      obtain ⟨failure, refusedAfter, refused, -⟩ := acquire_refused granted sample
      rw [refused] at acquired
      cases acquired
  | some table =>
      rw [acquire_granted granted, Prod.mk.injEq] at acquired
      rw [← acquired.2]
      change table.modeOf other place = _
      rw [LockTable.modeOf_grant? granted]
      have raised : LockMode.raise (service.table.modeOf transaction page) .exclusive =
          .exclusive := by
        rw [LockMode.raise]
        split <;> rfl
      rw [raised]
      rfl

end LockService

theorem Slots.free?_empty {count : Nat} (some : count ≠ 0) :
    Slots.free? (List.replicate count none) = .some 0 := by
  obtain ⟨others, rfl⟩ := Nat.exists_eq_succ_of_ne_zero some
  rw [Slots.free?, List.length_replicate, List.range_succ_eq_map, List.find?_cons_of_pos]
  rfl

/-- The lowest free slot is at most any other free slot. -/
theorem Slots.free?_le {slots : Slots} {slot other : Nat} (found : Slots.free? slots = some slot)
    (vacant : slots[other]?.join = none) : slot ≤ other := by
  obtain ⟨-, -, lower⟩ := List.find?_range_eq_some.mp found
  apply Nat.le_of_not_lt
  intro below
  have taken := lower other below
  rw [vacant] at taken
  cases taken

/-- Records of one table are ordered by page and slot. -/
theorem RecordId.isLE_of_order {left right : RecordId} (tables : left.page.table = right.page.table)
    (order : left.page.number.toNat < right.page.number.toNat ∨
      left.page.number = right.page.number ∧ left.slot ≤ right.slot) :
    (compare left right).isLE := by
  rw [RecordId.compare_eq_then, PageId.compare_eq_then, tables, Std.compare_self]
  rcases order with lower | ⟨same, slots⟩
  · rw [Ordering.isLE_then_iff_or]
    exact .inl (Std.compare_eq_lt.mpr lower)
  · rw [same, Std.compare_self]
    exact Nat.isLE_compare.mpr slots

namespace Bare

variable {bare middle after : Bare} {transaction : TransactionId} {page : PageId} {slots : Slots}
  {table : Table} {row : Row}

/-! ### Walking over full pages -/

structure LocksThrough (transaction : TransactionId) (table : Table) (first count : Nat)
    (before after : Bare) : Prop where
  taken : ∀ number, first ≤ number → number < first + count →
    after.locks.modeOf transaction (table.page (UInt32.ofNat number)) = some .exclusive
  kept : ∀ other page, (other = transaction → ∀ number, first ≤ number → number < first + count →
      page ≠ table.page (UInt32.ofNat number)) →
    after.locks.modeOf other page = before.locks.modeOf other page

namespace LocksThrough

theorem refl (transaction : TransactionId) (table : Table) (first : Nat) (bare : Bare) :
    LocksThrough transaction table first 0 bare bare :=
  ⟨fun number above below => by omega, fun other page apart => rfl⟩

theorem trans {first count others : Nat}
    (earlier : LocksThrough transaction table first count bare middle)
    (later : LocksThrough transaction table (first + count) others middle after) :
    LocksThrough transaction table first (count + others) bare after := by
  constructor
  · intro number above below
    by_cases passed : number < first + count
    · have taken := earlier.taken number above passed
      by_cases again : ∃ other, first + count ≤ other ∧ other < first + count + others ∧
          table.page (UInt32.ofNat number) = table.page (UInt32.ofNat other)
      · obtain ⟨other, from', upto, same⟩ := again
        rw [same]
        exact later.taken other from' upto
      · rw [later.kept]
        · exact taken
        · intro _ other from' upto same
          exact again ⟨other, from', upto, same⟩
    · exact later.taken number (by omega) (by omega)
  · intro other page apart
    rw [later.kept other page fun own number above below =>
        apart own number (by omega) (by omega),
      earlier.kept other page fun own number above below =>
        apart own number above (by omega)]

theorem of_getPage {first : Nat}
    (got : bare.getPage transaction (table.page (UInt32.ofNat first)) .readWrite =
      (.ok slots, after)) : LocksThrough transaction table first 1 bare after := by
  unfold getPage acquire at got
  rcases asked : bare.locks.acquire transaction (table.page (UInt32.ofNat first))
    Access.readWrite.mode 0 with ⟨failure | done, locks⟩
  · simp [asked] at got
  · simp only [asked, Prod.mk.injEq] at got
    obtain ⟨-, rfl⟩ := got
    have modes := LockService.modeOf_of_acquire_exclusive asked
    constructor
    · intro number above below
      obtain rfl : number = first := by omega
      exact (modes _ _).trans (if_pos ⟨rfl, rfl⟩)
    · intro other page apart
      refine (modes other page).trans (if_neg ?_)
      rintro ⟨own, here⟩
      exact apart own first (Nat.le_refl first) (by omega) here

end LocksThrough

/-- A page that can be got can still be got after taking more locks. -/
theorem LocksMore.getPage (locks : LocksMore transaction bare middle)
    (consistent : bare.locks.table.Consistent)
    (got : bare.getPage transaction page .readWrite = (.ok slots, after)) :
    ∃ later, middle.getPage transaction page .readWrite = (.ok slots, later) := by
  obtain ⟨-, fetched, -⟩ := getPage_ok got
  unfold Bare.getPage acquire at got ⊢
  rcases asked : bare.locks.acquire transaction page Access.readWrite.mode 0 with
    ⟨failure | done, granted⟩
  · simp [asked] at got
  · have free : (middle.locks.table.grant? transaction page .exclusive).isSome := by
      rw [LockTable.grant?_isSome_iff (locks.strengthens.consistent consistent)]
      have before : (bare.locks.table.grant? transaction page .exclusive).isSome := by
        cases granted : bare.locks.table.grant? transaction page .exclusive with
        | some table => rfl
        | none =>
            obtain ⟨failure, refusedAfter, refused, -⟩ := LockService.acquire_refused granted 0
            have same : bare.locks.acquire transaction page Access.readWrite.mode 0 =
              (.error failure, refusedAfter) := refused
            rw [same] at asked
            cases asked
      rw [LockTable.grant?_isSome_iff consistent] at before
      intro other different bars
      apply before other different
      have same := locks.strengthens.others other page different
      change middle.locks.table.modeOf other page = bare.locks.table.modeOf other page at same
      rw [same] at bars
      exact bars
    obtain ⟨given, granted⟩ := Option.isSome_iff_exists.mp free
    have acquired : middle.locks.acquire transaction page Access.readWrite.mode 0 =
      (.ok (), { middle.locks with table := given }) := LockService.acquire_granted granted 0
    rw [acquired]
    refine ⟨_, Prod.ext ?_ rfl⟩
    exact (locks.fetch_eq page).trans fetched

def Passable (bare : Bare) (transaction : TransactionId) (page : PageId) : Prop :=
  ∃ slots after, bare.getPage transaction page .readWrite = (.ok slots, after) ∧
    Slots.free? slots = none

theorem Passable.later (passable : bare.Passable transaction page)
    (locks : LocksMore transaction bare middle) (consistent : bare.locks.table.Consistent) :
    middle.Passable transaction page := by
  obtain ⟨slots, after, got, full⟩ := passable
  obtain ⟨later, again⟩ := locks.getPage consistent got
  exact ⟨slots, later, again, full⟩

theorem seek_passes (consistent : bare.locks.table.Consistent) (table : Table)
    (first count rest : Nat)
    (passed : ∀ earlier, first ≤ earlier → earlier < first + count →
      bare.Passable transaction (table.page (UInt32.ofNat earlier))) :
    ∃ after, LocksMore transaction bare after ∧
      LocksThrough transaction table first count bare after ∧
      bare.seek table transaction first (count + rest) =
        after.seek table transaction (first + count) rest := by
  induction count generalizing bare first with
  | zero =>
      exact ⟨bare, .refl transaction bare, .refl transaction table first bare,
        by rw [Nat.zero_add, Nat.add_zero]⟩
  | succ count ih =>
      obtain ⟨slots, middle, got, full⟩ := passed first (Nat.le_refl first) (by omega)
      obtain ⟨locks, -⟩ := getPage_ok got
      obtain ⟨after, more, through, walked⟩ :=
        ih (locks.strengthens.consistent consistent) (first + 1) fun earlier above below =>
          (passed earlier (by omega) (by omega)).later locks consistent
      have tried : bare.seekAt transaction (table.page (UInt32.ofNat first)) =
          (.ok none, middle) := by
        rw [seekAt, got]
        simp only [full, Option.map_none]
      refine ⟨after, locks.trans more, ?_, ?_⟩
      · rw [Nat.add_comm count 1]
        exact (LocksThrough.of_getPage got).trans through
      · rw [Nat.succ_add, seek, tried, Nat.add_comm count 1, ← Nat.add_assoc]
        exact walked

/-! ### The place of an insert -/

structure Lands (bare base : Bare) (transaction : TransactionId) (table : Table) (row : Row)
    (number slot : Nat) (slots : Slots) (middle : Bare) : Prop where
  locks : LocksMore transaction base middle
  through : LocksThrough transaction table 0 (number + 1) base middle
  fetched : base.fetch (table.page (UInt32.ofNat number)) = .ok slots
  free : Slots.free? slots = some slot
  inserted : bare.insert transaction table.id row =
    (.ok ⟨table.page (UInt32.ofNat number), slot⟩,
      middle.change transaction (table.page (UInt32.ofNat number))
        (slots.set slot (some row.stored)))

section Lands

variable {count number slot : Nat} (consistent : bare.locks.table.Consistent)
  (known : bare.tables[table.id]? = some table) (counted : table.slotsPerPage = .ok count)
  (filled : count ≠ 0) (agrees : row.schema.agrees table.schema = true)
  (passed : ∀ earlier, earlier < number →
    bare.Passable transaction (table.page (UInt32.ofNat earlier)))

include known counted filled agrees in
theorem insert_of_vacancy
    (found : bare.seek table transaction 0 (bare.counts table.id) =
        (.ok (some ⟨page, slots, slot⟩), middle) ∨
      ∃ walked, bare.seek table transaction 0 (bare.counts table.id) = (.ok none, walked) ∧
        walked.seekNew table transaction = (.ok ⟨page, slots, slot⟩, middle)) :
    bare.insert transaction table.id row =
      (.ok ⟨page, slot⟩, middle.change transaction page (slots.set slot (some row.stored))) := by
  have listed : bare.table? table.id = .ok table := by
    rw [Bare.table?, known]
  have found : bare.vacancy table transaction row = (.ok ⟨page, slots, slot⟩, middle) := by
    rw [Bare.vacancy, counted]
    simp only [if_neg filled, agrees, Bool.not_true, Bool.false_eq_true, if_false]
    rcases found with here | ⟨walked, nowhere, appended⟩
    · rw [here]
    · rw [nowhere]
      exact appended
  rw [Bare.insert, listed]
  simp only [found]

include consistent known counted filled agrees passed in
theorem lands_among (inside : number < bare.counts table.id)
    (got : bare.getPage transaction (table.page (UInt32.ofNat number)) .readWrite =
      (.ok slots, after))
    (free : Slots.free? slots = some slot) :
    ∃ middle, bare.Lands bare transaction table row number slot slots middle ∧
      (bare.seek table transaction 0 (bare.counts table.id)).1 ≠ .ok none := by
  obtain ⟨rest, counts⟩ := Nat.exists_eq_add_of_lt inside
  obtain ⟨walked, more, through, walk⟩ :=
    seek_passes consistent table 0 number (rest + 1) fun earlier _ below =>
      passed earlier (by omega)
  obtain ⟨middle, again⟩ := more.getPage consistent got
  obtain ⟨-, fetched, -⟩ := getPage_ok got
  obtain ⟨later, -⟩ := getPage_ok again
  have tried : walked.seekAt transaction (table.page (UInt32.ofNat number)) =
      (.ok (some ⟨table.page (UInt32.ofNat number), slots, slot⟩), middle) := by
    rw [seekAt, again]
    simp only [free, Option.map_some]
  have sought : bare.seek table transaction 0 (bare.counts table.id) =
      (.ok (some ⟨table.page (UInt32.ofNat number), slots, slot⟩), middle) := by
    rw [counts, Nat.add_assoc, walk, Nat.zero_add, seek, tried]
  refine ⟨middle, ⟨more.trans later, ?_, fetched, free, ?_⟩, ?_⟩
  · have last := LocksThrough.of_getPage again
    rw [← Nat.zero_add number] at last
    rw [Nat.add_comm number 1, Nat.add_comm 1 number]
    exact through.trans last
  · exact insert_of_vacancy known counted filled agrees (.inl sought)
  · rw [sought]
    intro nowhere
    cases nowhere

include consistent known counted filled agrees in
theorem lands_appended
    (passed : ∀ earlier, earlier < bare.counts table.id →
      bare.Passable transaction (table.page (UInt32.ofNat earlier)))
    (fresh : bare.drafts[bare.nextPage table]? = none)
    (some : Layout.slotCount table.pageSize table.schema.width ≠ 0)
    (got : (bare.grow table).getPage transaction (bare.nextPage table) .readWrite =
      (.ok slots, after)) :
    ∃ middle, bare.Lands (bare.grow table) transaction table row (bare.counts table.id) 0 slots
        middle ∧ slots = List.replicate (Layout.slotCount table.pageSize table.schema.width) none ∧
      (bare.seek table transaction 0 (bare.counts table.id)).1 = .ok none := by
  obtain ⟨walked, more, through, walk⟩ :=
    seek_passes consistent table 0 (bare.counts table.id) 0 fun earlier _ below =>
      passed earlier (by omega)
  rw [Nat.add_zero, seek] at walk
  have next : walked.nextPage table = bare.nextPage table := by
    rw [nextPage, nextPage, more.counts_eq]
  have grown := more.grow table
  obtain ⟨middle, again⟩ := grown.getPage consistent got
  obtain ⟨-, fetched, -⟩ := getPage_ok got
  obtain ⟨later, -⟩ := getPage_ok again
  have empty : slots =
      List.replicate (Layout.slotCount table.pageSize table.schema.width) none := by
    have shown := contents?_of_fetch fetched
    have undrafted : (bare.grow table).drafts[bare.nextPage table]? = none := fresh
    rw [contents?, undrafted] at shown
    simp only [grow, write, if_true, Except.toOption, Option.some.injEq] at shown
    exact shown.symm
  have free : Slots.free? slots = .some 0 := by
    rw [empty]
    exact Slots.free?_empty some
  have tried : walked.seekNew table transaction =
      (.ok ⟨bare.nextPage table, slots, 0⟩, middle) := by
    rw [seekNew, next, seekAt, again]
    simp only [free, Option.map_some]
  refine ⟨middle, ⟨grown.trans later, ?_, fetched, free, ?_⟩, empty, by rw [walk]⟩
  · have last := LocksThrough.of_getPage again
    have whole : LocksThrough transaction table 0 (bare.counts table.id + 1) bare middle := by
      apply through.trans
      rw [Nat.zero_add]
      exact ⟨last.taken, last.kept⟩
    exact ⟨whole.taken, whole.kept⟩
  · exact insert_of_vacancy known counted filled agrees (.inr ⟨walked, walk, tried⟩)

end Lands

end Bare

namespace Store

variable {store : Store} {table : Table} {row : Row} {transaction : TransactionId} {page : PageId}

/-! ### Slots of the pages -/

/-- The page as it is cached, or else as its file has it. -/
def current? (store : Store) (page : PageId) : Option Page :=
  match store.cache[page]? with
  | some cached => some cached.page
  | none =>
      match store.tables[page.table]? with
      | some table => (table.readPage store.directory page).toOption
      | none => none

/-- The values of every record, in the cache or in its file. -/
def seen (store : Store) : Records := fun record =>
  (store.current? record.page).bind fun page => (page.row? record.slot).map Row.stored

structure Free (store : Store) (table : Table) (record : RecordId) : Prop where
  own : record.page.table = table.id
  inside : record.page.number.toNat < table.pages.wholePages store.directory
  vacant : ∃ page, store.current? record.page = some page ∧ record.slot < page.slotCount ∧
    page.row? record.slot = none

def Full (store : Store) (page : PageId) : Prop :=
  ∃ content, store.current? page = some content ∧
    ∀ slot, slot < content.slotCount → (content.row? slot).isSome

/-- The transaction can lock the page exclusively and load it. -/
def Reaches (store : Store) (transaction : TransactionId) (page : PageId) : Prop :=
  ∃ cached after, store.getPage transaction page .readWrite = (.ok cached, after)

theorem Coherent.contents?_eq (coherent : store.Coherent) (page : PageId) :
    store.bare.contents? page = (store.current? page).map Page.contents := by
  rw [Bare.contents?, draft_lookup, current?]
  cases present : store.cache[page]? with
  | none =>
      change (store.written page).toOption = _
      rw [written, table?]
      cases store.tables[page.table]? with
      | none => rfl
      | some table =>
          change (table.written store.directory page).toOption =
            (table.readPage store.directory page).toOption.map Page.contents
          rw [Table.written]
          cases table.readPage store.directory page <;> rfl
  | some cached =>
      obtain ⟨table, known, faithful⟩ := coherent.faithful page cached present
      simp only [Option.bind_some, Option.map_some]
      cases dirty : cached.draft? with
      | some draft =>
          obtain ⟨dirtier, -, rfl⟩ := Option.map_eq_some_iff.mp dirty
          rfl
      | none =>
          obtain ⟨found, read, shows⟩ := faithful.readable
          obtain ⟨same, -⟩ := shows (cached.draft?_eq_none_iff.mp dirty)
          change (store.written page).toOption = _
          rw [written_of_table known, Table.written, read, ← same]
          rfl

theorem Coherent.seen_eq (coherent : store.Coherent) (record : RecordId) :
    store.seen record =
      (store.bare.contents? record.page).bind fun slots => slots[record.slot]?.join := by
  rw [seen, coherent.contents?_eq, Option.bind_map]
  congr 1
  funext page
  exact (page.contents_join record.slot).symm

theorem free?_contents_eq_none_iff (content : Page) :
    Slots.free? content.contents = none ↔
      ∀ slot, slot < content.slotCount → (content.row? slot).isSome := by
  rw [Slots.free?, List.find?_eq_none, Page.length_contents]
  constructor
  · intro full slot inside
    have taken := full slot (List.mem_range.mpr inside)
    rw [Page.contents_join, Option.isNone_map, Option.isNone_iff_eq_none] at taken
    exact Option.isSome_iff_ne_none.mpr taken
  · intro full slot member
    have taken := full slot (List.mem_range.mp member)
    rw [Page.contents_join, Option.isNone_map, Option.isNone_iff_eq_none]
    exact Option.isSome_iff_ne_none.mp taken

theorem Coherent.full_iff (coherent : store.Coherent) (page : PageId) :
    store.Full page ↔
      ∃ slots, store.bare.contents? page = some slots ∧ Slots.free? slots = none := by
  rw [coherent.contents?_eq, Full]
  constructor
  · rintro ⟨content, current, full⟩
    exact ⟨content.contents, by rw [current]; rfl, (free?_contents_eq_none_iff content).mpr full⟩
  · rintro ⟨slots, current, full⟩
    obtain ⟨content, found, rfl⟩ := Option.map_eq_some_iff.mp current
    exact ⟨content, found, (free?_contents_eq_none_iff content).mp full⟩

theorem Coherent.reaches (coherent : store.Coherent) (reaches : store.Reaches transaction page) :
    ∃ slots after, store.bare.getPage transaction page .readWrite = (.ok slots, after) ∧
      store.bare.contents? page = some slots := by
  obtain ⟨cached, after, got⟩ := reaches
  have fetches := coherent.getPage transaction page .readWrite
  rw [got] at fetches
  have answered : store.bare.getPage transaction page .readWrite =
      (.ok cached.page.contents, after.bare) := Prod.ext fetches.answered.symm fetches.bareIs.symm
  obtain ⟨-, fetched, -⟩ := Bare.getPage_ok answered
  exact ⟨_, _, answered, Bare.contents?_of_fetch fetched⟩

theorem Coherent.passable (coherent : store.Coherent) (reaches : store.Reaches transaction page)
    (full : store.Full page) : store.bare.Passable transaction page := by
  obtain ⟨slots, after, got, shown⟩ := coherent.reaches reaches
  obtain ⟨same, found, none⟩ := (coherent.full_iff page).mp full
  rw [shown, Option.some.injEq] at found
  exact ⟨slots, after, got, found ▸ none⟩

/-! ### The state after an insert -/

/-- The row is a new record on a cached page that is dirty for the transaction. The transaction has
locked the pages up to it; no other lock and no other page has changed. -/
structure Gains (before after : Store) (transaction : TransactionId) (table : Table) (row : Row)
    (record : RecordId) : Prop where
  vacant : before.seen record = none
  seen : after.seen = (Change.insert record row.stored).apply before.seen
  dirty : ∃ cached, after.cache[record.page]? = some cached ∧
    cached.page.dirtier = some transaction
  locked : ∀ number, number ≤ record.page.number.toNat →
    after.locks.modeOf transaction (table.page (UInt32.ofNat number)) = some .exclusive
  unlocked : ∀ other page, (other = transaction → ∀ number, number ≤ record.page.number.toNat →
      page ≠ table.page (UInt32.ofNat number)) →
    after.locks.modeOf other page = before.locks.modeOf other page
  others : ∀ page, page ≠ record.page →
    (after.current? page).map Page.contents = (before.current? page).map Page.contents

theorem insert_placed {id : TableId} {placed : Row} {record : RecordId} {after : Store}
    (inserted : store.insert transaction id row = (.ok record, placed, after)) :
    placed = row.placed (some record) := by
  unfold insert at inserted
  split at inserted
  · cases inserted
  · split at inserted
    · cases inserted
    · simp only at inserted
      split at inserted <;> cases inserted
      rfl

section Lands

variable {base middle : Bare} {number slot : Nat} {slots : Slots} {record : RecordId}
  {after : Store}
  (coherent : store.Coherent) (afterCoherent : after.Coherent)
  (lands : store.bare.Lands base transaction table row number slot slots middle)
  (bareIs : after.bare = middle.change transaction (table.page (UInt32.ofNat number))
    (slots.set slot (some row.stored)))

include bareIs in
theorem contents?_gained :
    after.bare.contents? (table.page (UInt32.ofNat number)) =
      some (slots.set slot (some row.stored)) := by
  rw [bareIs, Bare.contents?, Bare.change, Std.ExtTreeMap.getElem?_insert_self]

include lands bareIs in
theorem contents?_gained_other (different : page ≠ table.page (UInt32.ofNat number))
    (same : base.contents? page = store.bare.contents? page) :
    after.bare.contents? page = store.bare.contents? page := by
  rw [bareIs, Bare.contents?_change_other different.symm, lands.locks.contents?_eq, same]

include coherent afterCoherent lands bareIs in
theorem gains_of_lands (small : number < UInt32.size) (locks : base.locks = store.bare.locks)
    (others : ∀ page, page ≠ table.page (UInt32.ofNat number) →
      base.contents? page = store.bare.contents? page)
    (former : ∀ other : Nat, store.seen ⟨table.page (UInt32.ofNat number), other⟩ =
      slots[other]?.join) :
    Gains store after transaction table row ⟨table.page (UInt32.ofNat number), slot⟩ := by
  have exact : (UInt32.ofNat number).toNat = number := UInt32.toNat_ofNat_of_lt' small
  obtain ⟨inside, vacant⟩ := Slots.free?_spec lands.free
  have modes : after.locks.modeOf = middle.locks.modeOf := by
    change after.bare.locks.modeOf = _
    rw [bareIs]
    rfl
  constructor
  · rw [former, vacant]
  · funext ⟨place, own⟩
    rw [afterCoherent.seen_eq]
    change _ = if (⟨place, own⟩ : RecordId) = ⟨table.page (UInt32.ofNat number), slot⟩ then
      some row.stored else store.seen ⟨place, own⟩
    by_cases here : place = table.page (UInt32.ofNat number)
    · subst here
      rw [contents?_gained bareIs, Option.bind_some, List.getElem?_set, former]
      by_cases same : slot = own
      · subst same
        rw [if_pos rfl, if_pos rfl, if_pos inside]
        rfl
      · rw [if_neg same, if_neg fun equal => same (RecordId.mk.inj equal).2.symm]
    · rw [contents?_gained_other lands bareIs here (others _ here),
        if_neg fun equal => here (RecordId.mk.inj equal).1]
      exact (coherent.seen_eq ⟨place, own⟩).symm
  · have drafted : after.bare.drafts[table.page (UInt32.ofNat number)]? =
        some ⟨transaction, slots.set slot (some row.stored)⟩ := by
      rw [bareIs]
      exact Std.ExtTreeMap.getElem?_insert_self
    obtain ⟨cached, present, marked, -⟩ := cached_of_draft drafted
    exact ⟨cached, present, marked⟩
  · intro earlier upto
    rw [modes]
    change earlier ≤ (UInt32.ofNat number).toNat at upto
    exact lands.through.taken earlier (Nat.zero_le _) (by omega)
  · intro other page apart
    rw [modes, lands.through.kept, locks]
    · rfl
    · intro own earlier _ below
      apply apart own earlier
      change earlier ≤ (UInt32.ofNat number).toNat
      omega
  · intro page different
    rw [← afterCoherent.contents?_eq, ← coherent.contents?_eq]
    exact contents?_gained_other lands bareIs different (others page different)

end Lands

/-! ### The files -/

/-- `insert` changes the file only by appending one page, when every page is full. -/
theorem Coherent.directory_insert {count : Nat} (coherent : store.Coherent)
    (known : store.tables[table.id]? = some table) (counted : table.slotsPerPage = .ok count)
    (filled : count ≠ 0) (agrees : row.schema.agrees table.schema = true)
    (small : table.pages.wholePages store.directory + 1 < UInt32.size)
    (transaction : TransactionId) :
    ((store.bare.seek table transaction 0 (store.bare.counts table.id)).1 ≠ .ok none →
        (store.insert transaction table.id row).2.2.directory = store.directory) ∧
      ((store.bare.seek table transaction 0 (store.bare.counts table.id)).1 = .ok none →
        (store.insert transaction table.id row).2.2.directory =
          (store.grown table).directory) := by
  obtain ⟨usable, slotCount⟩ := Table.usable_of_slotsPerPage counted filled
  have fits : row.schema.types = table.schema.types := eq_of_beq agrees
  have whole : store.bare.counts table.id = table.pages.wholePages store.directory :=
    counts_of_table known
  have exact : (UInt32.ofNat (table.pages.wholePages store.directory)).toNat =
      table.pages.wholePages store.directory :=
    UInt32.toNat_ofNat_of_lt' (coherent.countable _ _ known)
  have finds := coherent.placeAmong known fits transaction 0
    (table.pages.wholePages store.directory)
  rw [(files_insert known transaction row).directoryIs, whole,
    place_of_counted counted filled agrees (PageFile.count_eq usable.positive), exact]
  generalize store.placeAmong table transaction row 0
    (table.pages.wholePages store.directory) = result at finds ⊢
  generalize store.bare.seek table transaction 0
    (table.pages.wholePages store.directory) = expected at finds ⊢
  cases finds with
  | failed failure afterCoherent files =>
      exact ⟨fun _ => files.directoryIs, fun nowhere => by cases nowhere⟩
  | @found middle page cached content slot fitting =>
      refine ⟨fun _ => ?_, fun nowhere => by cases nowhere⟩
      exact (files_update middle page _).directoryIs.trans fitting.files.directoryIs
  | @nowhere after afterCoherent files =>
      refine ⟨fun somewhere => absurd rfl somewhere, fun _ => ?_⟩
      have still : after.tables[table.id]? = some table := by
        rw [files.tablesAre]
        exact known
      have same : after.grown table =
          { after with directory := (store.grown table).directory } := by
        rw [Store.grown, Store.grown, withPut, withPut, files.directoryIs]
      have grown : (after.grown table).directory = (store.grown table).directory := by
        rw [same]
      have limit := small
      rw [← files.directoryIs] at limit
      obtain ⟨grownCoherent, grownBare⟩ := afterCoherent.grown still usable limit
      have next := nextPage_bare still
      have room := seekAt_grow_ne_nowhere (afterCoherent.fresh still) (slotCount ▸ filled)
        transaction
      have finds := grownCoherent.placeAt (after.bare.nextPage table) still fits transaction
      have kept := files_placeAt (after.grown table) transaction (after.bare.nextPage table) row
      rw [grownBare] at finds
      have appended : ({ after with directory := (after.grown table).directory } : Store) =
          after.grown table := rfl
      simp only [Store.placeAppended, allocate_eq afterCoherent still usable, ← next, appended]
      generalize (after.grown table).placeAt transaction (after.bare.nextPage table) row = result
        at finds kept ⊢
      generalize (after.bare.grow table).seekAt transaction (after.bare.nextPage table) = expected
        at finds room ⊢
      cases finds with
      | failed failure _ _ => exact kept.directoryIs.trans grown
      | nowhere _ _ => exact absurd rfl room
      | found fitting => exact kept.directoryIs.trans grown

theorem Coherent.isLE_of_free {number slot : Nat} {slots : Slots} {other : RecordId}
    (coherent : store.Coherent) (exact : (UInt32.ofNat number).toNat = number)
    (passed : ∀ earlier, earlier < number → store.Full (table.page (UInt32.ofNat earlier)))
    (shown : store.bare.contents? (table.page (UInt32.ofNat number)) = some slots)
    (free : Slots.free? slots = some slot) (otherFree : store.Free table other) :
    (compare (⟨table.page (UInt32.ofNat number), slot⟩ : RecordId) other).isLE := by
  obtain ⟨content, current, within, vacant⟩ := otherFree.vacant
  apply RecordId.isLE_of_order otherFree.own.symm
  have named : other.page = table.page (UInt32.ofNat other.page.number.toNat) := by
    rw [UInt32.ofNat_toNat]
    exact congrArg (PageId.mk · other.page.number) otherFree.own
  rcases Nat.lt_trichotomy other.page.number.toNat number with before | same | behind
  · obtain ⟨found, all, taken⟩ := passed _ before
    rw [← named, current] at all
    cases all
    have := taken other.slot within
    rw [vacant] at this
    cases this
  · rw [same] at named
    rw [named] at current
    have same := (coherent.contents?_eq _).symm.trans shown
    rw [current, Option.map_some, Option.some.injEq] at same
    refine .inr ⟨by rw [named], Slots.free?_le free ?_⟩
    rw [← same, Page.contents_join, vacant]
    rfl
  · left
    change (UInt32.ofNat number).toNat < _
    rwa [exact]

/-- The row takes the least free slot of the table or, if there is none, the first slot of one
appended page of zeros. -/
structure TakesIn (before after : Store) (transaction : TransactionId) (table : Table) (row : Row)
    (record : RecordId) : Prop extends Gains before after transaction table row record where
  least : (¬ ∀ number, number < table.pages.wholePages before.directory →
      before.Full (table.page (UInt32.ofNat number))) →
    before.Free table record ∧ (∀ other, before.Free table other → (compare record other).isLE) ∧
      after.directory = before.directory
  appended : (∀ number, number < table.pages.wholePages before.directory →
      before.Full (table.page (UInt32.ofNat number))) →
    record = ⟨table.page (UInt32.ofNat (table.pages.wholePages before.directory)), 0⟩ ∧
      table.pages.wholePages after.directory = table.pages.wholePages before.directory + 1 ∧
      after.directory = table.pages.put before.directory
        (table.pages.wholePages before.directory) (List.replicate table.pages.pageSize 0)
  bytes : ∀ file offset byte, before.directory.byteAt? file offset = some byte →
    ¬ table.pages.Spans (table.pages.wholePages before.directory) file offset →
    after.directory.byteAt? file offset = some byte

section Insert

variable {count : Nat} (coherent : store.Coherent) (consistent : store.locks.table.Consistent)
  (known : store.tables[table.id]? = some table) (counted : table.slotsPerPage = .ok count)
  (filled : count ≠ 0) (agrees : row.schema.agrees table.schema = true)
  (small : table.pages.wholePages store.directory + 1 < UInt32.size)

include coherent known small in
theorem insert_of_bare {record : RecordId} {bare : Bare}
    (inserted : store.bare.insert transaction table.id row = (.ok record, bare)) :
    ∃ after, store.insert transaction table.id row = (.ok record, row.placed (some record), after) ∧
      after.Coherent ∧ after.bare = bare := by
  have agreed := coherent.insert transaction table.id row fun other found _ => by
    rw [known, Option.some.injEq] at found
    exact found ▸ small
  rw [inserted] at agreed
  rcases made : store.insert transaction table.id row with ⟨outcome, placed, after⟩
  rw [made] at agreed
  obtain ⟨afterCoherent, bareIs, rfl⟩ := agreed
  rw [insert_placed made]
  exact ⟨after, rfl, afterCoherent, bareIs⟩

include coherent consistent known counted filled agrees small in
theorem Coherent.insert_least {number : Nat}
    (inside : number < table.pages.wholePages store.directory)
    (passed : ∀ earlier, earlier < number →
      store.Reaches transaction (table.page (UInt32.ofNat earlier)) ∧
        store.Full (table.page (UInt32.ofNat earlier)))
    (reaches : store.Reaches transaction (table.page (UInt32.ofNat number)))
    (room : ¬ store.Full (table.page (UInt32.ofNat number))) :
    ∃ record after, store.insert transaction table.id row =
        (.ok record, row.placed (some record), after) ∧
      store.TakesIn after transaction table row record := by
  have whole : store.bare.counts table.id = table.pages.wholePages store.directory :=
    counts_of_table known
  have exact : (UInt32.ofNat number).toNat = number := UInt32.toNat_ofNat_of_lt' (by omega)
  obtain ⟨slots, fetched, got, shown⟩ := coherent.reaches reaches
  obtain ⟨slot, free⟩ : ∃ slot, Slots.free? slots = some slot := by
    rw [← Option.isSome_iff_exists, Option.isSome_iff_ne_none]
    exact fun full => room ((coherent.full_iff _).mpr ⟨slots, shown, full⟩)
  obtain ⟨middle, lands, somewhere⟩ := Bare.lands_among consistent known counted filled agrees
    (fun earlier below => coherent.passable (passed earlier below).1 (passed earlier below).2)
    (by rw [whole]; exact inside) got free
  obtain ⟨after, inserted, afterCoherent, bareIs⟩ :=
    insert_of_bare coherent known small lands.inserted
  have directory : after.directory = store.directory := by
    have found :=
      (coherent.directory_insert known counted filled agrees small transaction).1 somewhere
    rwa [inserted] at found
  have former (other : Nat) :
      store.seen ⟨table.page (UInt32.ofNat number), other⟩ = slots[other]?.join := by
    rw [coherent.seen_eq, shown, Option.bind_some]
  have gains := gains_of_lands coherent afterCoherent lands bareIs (by omega) rfl
    (fun _ _ => rfl) former
  refine ⟨_, after, inserted, gains, fun _ => ⟨?_, ?_, directory⟩,
    fun full => absurd (full number inside) room, ?_⟩
  · obtain ⟨content, current, rfl⟩ :=
      Option.map_eq_some_iff.mp ((coherent.contents?_eq _).symm.trans shown)
    obtain ⟨within, vacant⟩ := Slots.free?_spec free
    rw [Page.contents_join, Option.map_eq_none_iff] at vacant
    rw [Page.length_contents] at within
    refine ⟨rfl, ?_, content, current, within, vacant⟩
    change (UInt32.ofNat number).toNat < _
    rwa [exact]
  · exact fun other otherFree => coherent.isLE_of_free exact
      (fun earlier before => (passed earlier before).2) shown free otherFree
  · intro file offset byte present _
    rwa [directory]

include coherent consistent known counted filled agrees small in
theorem Coherent.insert_appended
    (passed : ∀ number, number < table.pages.wholePages store.directory →
      store.Reaches transaction (table.page (UInt32.ofNat number)) ∧
        store.Full (table.page (UInt32.ofNat number)))
    (reaches : (store.grown table).Reaches transaction
      (table.page (UInt32.ofNat (table.pages.wholePages store.directory)))) :
    ∃ record after, store.insert transaction table.id row =
        (.ok record, row.placed (some record), after) ∧
      store.TakesIn after transaction table row record := by
  obtain ⟨usable, slotCount⟩ := Table.usable_of_slotsPerPage counted filled
  obtain ⟨grownCoherent, grownBare⟩ := coherent.grown known usable small
  have whole : store.bare.counts table.id = table.pages.wholePages store.directory :=
    counts_of_table known
  have next := nextPage_bare known
  obtain ⟨slots, fetched, got, -⟩ := grownCoherent.reaches reaches
  rw [grownBare, ← next] at got
  obtain ⟨middle, lands, empty, nowhere⟩ := Bare.lands_appended consistent known counted
    filled agrees (fun number below => coherent.passable (passed number (whole ▸ below)).1
      (passed number (whole ▸ below)).2) (coherent.fresh known) (slotCount ▸ filled) got
  obtain ⟨after, inserted, afterCoherent, bareIs⟩ :=
    insert_of_bare coherent known small lands.inserted
  have directory : after.directory = (store.grown table).directory := by
    have found :=
      (coherent.directory_insert known counted filled agrees small transaction).2 nowhere
    rwa [inserted] at found
  obtain ⟨failure, missing, -⟩ := coherent.written_nextPage known
  have former (other : Nat) :
      store.seen ⟨store.bare.nextPage table, other⟩ = slots[other]?.join := by
    have absent : store.bare.contents? (store.bare.nextPage table) = none := by
      rw [Bare.contents?, coherent.fresh known, missing]
      rfl
    rw [coherent.seen_eq, absent, empty, List.getElem?_replicate]
    split <;> rfl
  have gains := gains_of_lands coherent afterCoherent lands bareIs (by omega) rfl
    (fun page different => Bare.contents?_grow_other different) former
  rw [whole] at gains inserted
  refine ⟨_, after, inserted, gains, fun somewhere => absurd (fun number below =>
    (passed number below).2) somewhere, fun _ => ⟨rfl, ?_, directory⟩, ?_⟩
  · rw [directory]
    exact (wholePages_withPut ⟨known, usable, List.length_replicate, Nat.le_refl _, small⟩).trans
      (Nat.max_eq_right (Nat.le_succ _))
  · intro file offset byte present outside
    have exact : (UInt32.ofNat (table.pages.wholePages store.directory)).toNat =
        table.pages.wholePages store.directory :=
      UInt32.toNat_ofNat_of_lt' (coherent.countable _ _ known)
    have written : table.pages.write store.directory
        (UInt32.ofNat (table.pages.wholePages store.directory))
        (List.replicate table.pages.pageSize 0) = .ok after.directory := by
      rw [PageFile.write_eq List.length_replicate, exact, directory]
      rfl
    exact PageFile.byteAt?_write written present (by rwa [exact])

end Insert

end Store

namespace System

variable {system : System} {table : Table} {row : Row} {transaction : TransactionId}

/-- `insert` succeeds if the transaction `Reaches` every page up to the first with a free slot, or
all of them and the page appended behind them. The row takes the least free slot, and nothing else
changes but the locks on the pages visited. -/
theorem insert_takes_least {slots : Nat} (reached : system.Reached)
    (known : system.store.tables[table.id]? = some table)
    (counted : table.slotsPerPage = .ok slots) (filled : slots ≠ 0)
    (typed : row.schema.types = table.schema.types)
    (small : table.pages.wholePages system.store.directory + 1 < UInt32.size)
    (met : ∀ number, number < table.pages.wholePages system.store.directory →
      (∀ earlier, earlier < number → system.store.Full (table.page (UInt32.ofNat earlier))) →
      system.store.Reaches transaction (table.page (UInt32.ofNat number)))
    (behind : (∀ number, number < table.pages.wholePages system.store.directory →
        system.store.Full (table.page (UInt32.ofNat number))) →
      (system.store.grown table).Reaches transaction
        (table.page (UInt32.ofNat (table.pages.wholePages system.store.directory)))) :
    ∃ record after, system.store.insert transaction table.id row =
        (.ok record, row.placed (some record), after) ∧
      system.store.TakesIn after transaction table row record := by
  have named := reached.named
  have agrees : row.schema.agrees table.schema = true := beq_iff_eq.mpr typed
  by_cases full : ∀ number, number < table.pages.wholePages system.store.directory →
      system.store.Full (table.page (UInt32.ofNat number))
  · exact named.coherent.store.insert_appended named.consistent known counted filled agrees small
      (fun number below => ⟨met number below fun earlier before => full earlier (by omega),
        full number below⟩) (behind full)
  · -- the first page that is not full is the one that the insert comes to
    classical
    have open' : ∃ number, number < table.pages.wholePages system.store.directory ∧
        ¬ system.store.Full (table.page (UInt32.ofNat number)) := by
      obtain ⟨number, vacant⟩ := Classical.not_forall.mp full
      exact ⟨number, Classical.not_imp.mp vacant⟩
    obtain ⟨number, ⟨below, room⟩, first⟩ := Nat.findX open'
    have passed (earlier : Nat) (before : earlier < number) :
        system.store.Full (table.page (UInt32.ofNat earlier)) :=
      Classical.not_not.mp fun vacant => first earlier before ⟨by omega, vacant⟩
    exact named.coherent.store.insert_least named.consistent known counted filled agrees small below
      (fun earlier before => ⟨met earlier (by omega) fun other upto => passed other (by omega),
        passed earlier before⟩) (met number below passed) room

/-- A second number goes behind the first one. -/
theorem insert_takes_least_small :
    used.Reached ∧ used.store.tables[lone.id]? = some lone ∧ lone.slotsPerPage = .ok 3 ∧ 3 ≠ 0 ∧
      (numberRow 6).schema.types = lone.schema.types ∧
      lone.pages.wholePages used.store.directory + 1 < UInt32.size ∧
      used.store.Reaches ⟨2⟩ (lone.page 0) ∧ (used.store.grown lone).Reaches ⟨2⟩ (lone.page 1) ∧
      ∃ after, used.store.insert ⟨2⟩ lone.id (numberRow 6) =
          (.ok ⟨lone.page 0, 1⟩, (numberRow 6).placed (some ⟨lone.page 0, 1⟩), after) ∧
        used.store.TakesIn after ⟨2⟩ lone (numberRow 6) ⟨lone.page 0, 1⟩ := by
  have whole : lone.pages.wholePages used.store.directory = 1 := by decide +kernel
  have first : used.store.Reaches ⟨2⟩ (lone.page 0) := ⟨_, _, rfl⟩
  have second : (used.store.grown lone).Reaches ⟨2⟩ (lone.page 1) := ⟨_, _, rfl⟩
  have known : used.store.tables[lone.id]? = some lone := Std.ExtTreeMap.getElem?_insert_self
  have small : lone.pages.wholePages used.store.directory + 1 < UInt32.size := by
    rw [whole]
    decide
  obtain ⟨record, after, inserted, takes⟩ := @insert_takes_least used lone (numberRow 6) ⟨2⟩ 3
    used_reached known rfl (by decide) rfl small
    (fun number below _ => by
      obtain rfl : number = 0 := by omega
      exact first)
    (fun _ => by rwa [whole])
  have placed : (used.store.insert ⟨2⟩ lone.id (numberRow 6)).1 = .ok ⟨lone.page 0, 1⟩ := rfl
  rw [inserted, Except.ok.injEq] at placed
  subst placed
  exact ⟨used_reached, known, rfl, by decide, rfl, small, first, second, after, inserted, takes⟩

end System

end RecordStore
