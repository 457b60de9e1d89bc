import RecordStore.Proofs.Store.Durability
import RecordStore.Proofs.Store.Solo

set_option autoImplicit false

/-! Repeating the operations of a transaction on a store without other transactions. None of them is
refused, and an insert passes the same full pages and returns the same record, even if pages are
missing that failed inserts of others had appended. -/

namespace RecordStore

/-- The same operation with the same answer, a missing page counting as an empty one. -/
def Event.Repeats (first second : Event) : Prop :=
  second.operation = first.operation ∧
    (second.answer = first.answer ∨
      ∃ transaction page access count,
        first = ⟨.get transaction page access, .shown (.ok (List.replicate count none))⟩ ∧
        second.answer = .shown (.error (.refused (.missingPage page))))

namespace Bare

structure Orderly (bare : Bare) : Prop where
  consistent : bare.locks.table.Consistent
  keyed : ∀ (id : TableId) (table : Table), bare.tables[id]? = some table → table.id = id
  whole : bare.Whole
  outside : ∀ (page : PageId) (table : Table), bare.tables[page.table]? = some table →
    bare.counts page.table ≤ page.number.toNat → ∃ failure, bare.written page = .error failure
  drafted : ∀ (page : PageId) (draft : Draft), bare.drafts[page]? = some draft →
    ∃ slots, bare.written page = .ok slots

/-- No other transaction holds a lock. -/
def Unrivalled (bare : Bare) (transaction : TransactionId) : Prop :=
  ∀ other page, other ≠ transaction → bare.locks.modeOf other page = none

structure Alone (bare : Bare) (ground : Ground) (transaction : TransactionId) (drafts : Drafts) :
    Prop where
  tables : bare.tables = ground.tables
  capacity : bare.capacity = ground.capacity
  changed : bare.drafts = drafts
  unrivalled : bare.Unrivalled transaction
  written : ∀ page, drafts[page]? = none → bare.written page = ground.written page

variable {bare after : Bare} {ground : Ground} {held : PageId → Prop}
variable {transaction : TransactionId} {drafts : Drafts} {page : PageId} {table : Table}
variable {slots : Slots}

theorem Unrivalled.lockMore (unrivalled : bare.Unrivalled transaction)
    (locks : LocksMore transaction bare after) : after.Unrivalled transaction := by
  intro other page different
  rw [locks.strengthens.others other page different]
  exact unrivalled other page different

theorem Unrivalled.getPage (unrivalled : bare.Unrivalled transaction)
    (consistent : bare.locks.table.Consistent) (page : PageId) (access : Access) :
    ∃ after, bare.getPage transaction page access = (bare.fetch page, after) ∧
      LocksMore transaction bare after := by
  obtain ⟨locks, granted⟩ := LockService.acquire_alone page access.mode 0 consistent
    fun other different => unrivalled other page different
  have got : bare.getPage transaction page access =
      (bare.fetch page, { bare with locks := locks }) := by
    rw [Bare.getPage, acquire, granted]
    rfl
  have more := bare.getPage_locks transaction page access
  rw [got] at more
  exact ⟨_, got, more⟩

theorem Unrivalled.seekAt (unrivalled : bare.Unrivalled transaction)
    (consistent : bare.locks.table.Consistent) (fetched : bare.fetch page = .ok slots) :
    ∃ after, bare.seekAt transaction page =
        (.ok ((Slots.free? slots).map fun slot => ⟨page, slots, slot⟩), after) ∧
      LocksMore transaction bare after := by
  obtain ⟨after, got, locks⟩ := unrivalled.getPage consistent page .readWrite
  refine ⟨after, ?_, locks⟩
  rw [Bare.seekAt, got, fetched]

namespace Alone

theorem lockMore (alone : bare.Alone ground transaction drafts)
    (locks : LocksMore transaction bare after) : after.Alone ground transaction drafts where
  tables := locks.tables_eq.trans alone.tables
  capacity := locks.capacity_eq.trans alone.capacity
  changed := locks.drafts_eq.trans alone.changed
  unrivalled := alone.unrivalled.lockMore locks
  written page undrafted := by
    rw [locks.written_eq]
    exact alone.written page undrafted

theorem fetch_eq (alone : bare.Alone ground transaction drafts)
    (room : ground.Room drafts page) : bare.fetch page = ground.find drafts page := by
  unfold Bare.fetch
  rw [Ground.find, alone.changed]
  cases drafted : drafts[page]? with
  | some draft => rfl
  | none =>
      rw [Ground.Room, drafted, ← alone.tables, ← alone.capacity, ← alone.changed] at room
      rcases room with absent | ⟨known, small⟩
      · cases absent
      · obtain ⟨table, found⟩ := Option.isSome_iff_exists.mp known
        have open' : ¬ bare.isFull = true := by
          rw [isFull, decide_eq_true_iff]
          exact Nat.not_le.mpr small
        simp only [table?, found, if_neg open']
        exact alone.written page drafted

theorem seek_passes (alone : bare.Alone ground transaction drafts)
    (consistent : bare.locks.table.Consistent) (table : Table) (first count rest : Nat)
    (passed : ∀ earlier, first ≤ earlier → earlier < first + count →
      ground.Full held drafts (table.page (UInt32.ofNat earlier))) :
    ∃ after, LocksMore transaction bare after ∧
      bare.seek table transaction first (count + rest) =
        after.seek table transaction (first + count) rest := by
  induction count generalizing bare first with
  | zero => exact ⟨bare, .refl transaction bare, by rw [Nat.zero_add, Nat.add_zero]⟩
  | succ count ih =>
      have here := passed first (Nat.le_refl first) (by omega)
      obtain ⟨slots, found, crowded⟩ := here.full
      have fetched := (alone.fetch_eq here.room).trans found
      obtain ⟨middle, tried, locks⟩ := alone.unrivalled.seekAt consistent fetched
      rw [crowded] at tried
      obtain ⟨after, later, same⟩ := ih (alone.lockMore locks)
        (locks.strengthens.consistent consistent) (first + 1)
        fun earlier above below => passed earlier (by omega) (by omega)
      refine ⟨after, locks.trans later, ?_⟩
      rw [show count + 1 + rest = count + rest + 1 by omega,
        show first + (count + 1) = first + 1 + count by omega, ← same]
      rw [seek, tried]
      rfl

/-- A page that can be found is one that the file has. -/
theorem inside (alone : bare.Alone ground transaction drafts) (orderly : bare.Orderly)
    (known : bare.tables[page.table]? = some table) (found : ground.find drafts page = .ok slots) :
    page.number.toNat < bare.counts page.table := by
  apply Nat.lt_of_not_le
  intro beyond
  obtain ⟨failure, unreadable⟩ := orderly.outside page table known beyond
  rw [Ground.find] at found
  cases drafted : drafts[page]? with
  | some draft =>
      rw [← alone.changed] at drafted
      obtain ⟨others, readable⟩ := orderly.drafted page draft drafted
      rw [unreadable] at readable
      cases readable
  | none =>
      simp only [drafted] at found
      rw [← alone.written page drafted, unreadable] at found
      cases found

theorem found_of_inside (alone : bare.Alone ground transaction drafts) (orderly : bare.Orderly)
    (inside : page.number.toNat < bare.counts page.table) {count : Nat}
    (finds : ground.Finds drafts page count slots) : ground.find drafts page = .ok slots := by
  rcases finds with found | ⟨undrafted, missing, -⟩
  · exact found
  · obtain ⟨others, readable⟩ := orderly.whole page inside
    rw [alone.written page undrafted, missing] at readable
    cases readable

theorem fetch_grown (alone : bare.Alone ground transaction drafts)
    (known : bare.tables[table.id]? = some table) (undrafted : drafts[bare.nextPage table]? = none)
    (room : ground.Room drafts (bare.nextPage table)) :
    (bare.grow table).fetch (bare.nextPage table) =
      .ok (List.replicate (Layout.slotCount table.pageSize table.schema.width) none) := by
  rw [Ground.Room, undrafted, ← alone.capacity, ← alone.changed] at room
  rw [← alone.changed] at undrafted
  rcases room with absent | ⟨-, small⟩
  · cases absent
  · have owner : (bare.grow table).tables[(bare.nextPage table).table]? = some table := known
    have nothing : (bare.grow table).drafts[bare.nextPage table]? = none := undrafted
    have open' : ¬ (bare.grow table).isFull = true := by
      rw [isFull, decide_eq_true_iff]
      exact Nat.not_le.mpr small
    rw [Bare.fetch, nothing]
    simp only [table?, owner, if_neg open']
    exact if_pos rfl

section Placing

variable {row : Row} {record : RecordId} {number : Nat}

theorem seek_found (alone : bare.Alone ground transaction drafts) (orderly : bare.Orderly)
    (placing : ground.Placing held drafts table row record number slots)
    (inside : number < bare.counts table.id) :
    ∃ after, LocksMore transaction bare after ∧
      bare.seek table transaction 0 (bare.counts table.id) =
        (.ok (some ⟨record.page, slots, record.slot⟩), after) := by
  have exact : (UInt32.ofNat number).toNat = number :=
    UInt32.toNat_ofNat_of_lt' (Nat.lt_of_succ_lt placing.countable)
  have here : record.page.number.toNat < bare.counts record.page.table := by
    rw [placing.pageIs]
    simp only [Table.page, exact]
    exact inside
  have found := alone.found_of_inside orderly here placing.found
  obtain ⟨middle, locks, walked⟩ := alone.seek_passes orderly.consistent table 0 number
    (bare.counts table.id - number) fun earlier _ below => placing.passed earlier (by omega)
  rw [Nat.add_sub_cancel' (Nat.le_of_lt inside), Nat.zero_add] at walked
  have fetched := ((alone.lockMore locks).fetch_eq placing.room).trans found
  obtain ⟨after, tried, more⟩ := (alone.lockMore locks).unrivalled.seekAt
    (locks.strengthens.consistent orderly.consistent) fetched
  rw [placing.free, placing.pageIs] at tried
  refine ⟨after, locks.trans more, walked.trans ?_⟩
  obtain ⟨rest, remaining⟩ := Nat.exists_eq_succ_of_ne_zero (Nat.sub_ne_zero_of_lt inside)
  rw [remaining, seek, tried, placing.pageIs]
  rfl

/-- If the file lacks the page of the record, it is the next page, and the search finds no slot. -/
theorem seek_nowhere (alone : bare.Alone ground transaction drafts) (orderly : bare.Orderly)
    (known : bare.tables[table.id]? = some table)
    (placing : ground.Placing held drafts table row record number slots)
    (outside : bare.counts table.id ≤ number) :
    bare.counts table.id = number ∧
      ∃ after, LocksMore transaction bare after ∧
        bare.seek table transaction 0 (bare.counts table.id) = (.ok none, after) := by
  have last : bare.counts table.id = number := by
    refine Nat.le_antisymm outside (Nat.le_of_not_lt fun below => ?_)
    -- Otherwise the page at the end of the file would be full, so the file would have it.
    obtain ⟨others, found, -⟩ := (placing.passed _ below).full
    have within := alone.inside orderly known found
    have exact : (UInt32.ofNat (bare.counts table.id)).toNat = bare.counts table.id :=
      UInt32.toNat_ofNat_of_lt' (Nat.lt_trans below (Nat.lt_of_succ_lt placing.countable))
    simp only [Table.page, exact] at within
    exact Nat.lt_irrefl _ within
  obtain ⟨after, locks, walked⟩ := alone.seek_passes orderly.consistent table 0 number 0
    fun earlier _ below => placing.passed earlier (by omega)
  refine ⟨last, after, locks, ?_⟩
  rw [last]
  exact walked

theorem seekNew_found {middle : Bare} (alone : bare.Alone ground transaction drafts)
    (orderly : bare.Orderly) (known : bare.tables[table.id]? = some table)
    (placing : ground.Placing held drafts table row record number slots)
    (last : bare.counts table.id = number) (locks : LocksMore transaction bare middle) :
    ∃ after, LocksMore transaction (bare.grow table) after ∧
      middle.seekNew table transaction = (.ok ⟨record.page, slots, record.slot⟩, after) := by
  have next : bare.nextPage table = record.page := by
    rw [nextPage, last, placing.pageIs]
  have following : middle.nextPage table = record.page := by
    rw [nextPage, locks.counts_eq]
    exact next
  have empty : drafts[record.page]? = none ∧
      slots = List.replicate (Layout.slotCount table.pageSize table.schema.width) none := by
    rcases placing.found with found | ⟨undrafted, -, blank⟩
    · rw [placing.pageIs] at found
      have within := alone.inside orderly known found
      have exact : (UInt32.ofNat number).toNat = number :=
        UInt32.toNat_ofNat_of_lt' (Nat.lt_of_succ_lt placing.countable)
      simp only [Table.page, exact, last] at within
      exact absurd within (Nat.lt_irrefl number)
    · exact ⟨undrafted, blank⟩
  have grown := locks.grow table
  have fetched : (middle.grow table).fetch record.page = .ok slots := by
    rw [grown.fetch_eq, empty.2, ← next]
    exact alone.fetch_grown known (next ▸ empty.1) (next ▸ placing.room)
  have unrivalled : (middle.grow table).Unrivalled transaction := fun other page different =>
    alone.unrivalled.lockMore locks other page different
  obtain ⟨after, tried, more⟩ := unrivalled.seekAt
    (locks.strengthens.consistent orderly.consistent) fetched
  rw [placing.free] at tried
  refine ⟨after, grown.trans more, ?_⟩
  rw [seekNew, following, tried]
  rfl

/-- A search for room ends at the same page, and appends one only if its number can be counted. -/
theorem vacancy_found (alone : bare.Alone ground transaction drafts) (orderly : bare.Orderly)
    (known : bare.tables[table.id]? = some table)
    (placing : ground.Placing held drafts table row record number slots) :
    (Store.Needs bare table transaction row → bare.counts table.id + 1 < UInt32.size) ∧
      ∃ base after, (base = bare ∨ base = bare.grow table ∧ bare.nextPage table = record.page) ∧
        LocksMore transaction base after ∧
        bare.vacancy table transaction row = (.ok ⟨record.page, slots, record.slot⟩, after) := by
  obtain ⟨count, counted, filled⟩ := placing.counted
  have agrees : ¬ (!row.schema.agrees table.schema) = true := by
    rw [placing.agrees]
    exact Bool.false_ne_true
  by_cases inside : number < bare.counts table.id
  · obtain ⟨after, locks, walked⟩ := alone.seek_found orderly placing inside
    refine ⟨?_, bare, after, .inl rfl, locks, ?_⟩
    · intro needs
      have full := needs.full
      rw [walked] at full
      cases full
    · simp only [Bare.vacancy, counted, if_neg filled, if_neg agrees, walked]
  · obtain ⟨last, middle, locks, walked⟩ :=
      alone.seek_nowhere orderly known placing (Nat.le_of_not_lt inside)
    obtain ⟨after, grown, found⟩ := alone.seekNew_found orderly known placing last locks
    refine ⟨?_, bare.grow table, after, .inr ⟨rfl, ?_⟩, grown, ?_⟩
    · intro _
      rw [last]
      exact placing.countable
    · rw [nextPage, last, placing.pageIs]
    · simp only [Bare.vacancy, counted, if_neg filled, if_neg agrees, walked, found]

end Placing

theorem change {base : Bare} (alone : bare.Alone ground transaction drafts)
    (baseIs : base = bare ∨ base = bare.grow table ∧ bare.nextPage table = page)
    (locks : LocksMore transaction base after) (slots : Slots) :
    (after.change transaction page slots).Alone ground transaction
      (drafts.insert page ⟨transaction, slots⟩) := by
  have same : base.tables = bare.tables ∧ base.capacity = bare.capacity ∧
      base.drafts = bare.drafts ∧ base.locks = bare.locks ∧
      ∀ other, page ≠ other → base.written other = bare.written other := by
    rcases baseIs with rfl | ⟨rfl, next⟩
    · exact ⟨rfl, rfl, rfl, rfl, fun other _ => rfl⟩
    · refine ⟨rfl, rfl, rfl, rfl, fun other different => if_neg ?_⟩
      rw [next]
      exact Ne.symm different
  obtain ⟨tables, capacity, changed, unlocked, written⟩ := same
  refine ⟨?_, ?_, ?_, ?_, ?_⟩
  · exact locks.tables_eq.trans (tables.trans alone.tables)
  · exact locks.capacity_eq.trans (capacity.trans alone.capacity)
  · rw [Bare.change, locks.drafts_eq, changed, alone.changed]
  · intro other place different
    refine (locks.strengthens.others other place different).trans ?_
    rw [unlocked]
    exact alone.unrivalled other place different
  · intro other undrafted
    rw [lookup_insert] at undrafted
    split at undrafted
    · cases undrafted
    · next different =>
        refine (congrFun locks.written_eq other).trans ?_
        rw [written other different, alone.written other undrafted]

end Alone

/-! ### Repeating one operation -/

namespace Alone

variable {event : Event} {later : Drafts} (scans : Nat → Option BareScan)

/-- An operation that the transaction could do alone has the same answer when it is repeated. -/
theorem perform (alone : bare.Alone ground transaction drafts) (orderly : bare.Orderly)
    (solo : Solo ground held transaction drafts event later) :
    Event.Repeats event
        ⟨event.operation, (BareSystem.perform ⟨bare, scans⟩ event.operation).1⟩ ∧
      (BareSystem.perform ⟨bare, scans⟩ event.operation).2.bare.Alone ground transaction later ∧
      event.operation.Plain ∧
      ∀ another id row table, event.operation = .insert another id row →
        bare.tables[id]? = some table → Store.Needs bare table another row →
        bare.counts table.id + 1 < UInt32.size := by
  cases solo with
  | @get page access count slots mine room finds =>
      obtain ⟨after, got, locks⟩ := alone.unrivalled.getPage orderly.consistent page access
      have fetched := alone.fetch_eq room
      refine ⟨⟨rfl, ?_⟩, ?_, trivial, fun _ _ _ _ insert => by cases insert⟩
      · simp only [BareSystem.perform, BareSystem.after, got, fetched]
        rcases finds with found | ⟨undrafted, missing, blank⟩
        · exact .inl (congrArg Answer.shown found)
        · refine .inr ⟨transaction, page, access, count, ?_, ?_⟩
          · rw [blank]
          · rw [Ground.find, undrafted]
            exact congrArg Answer.shown missing
      · simp only [BareSystem.perform, BareSystem.after, got]
        exact alone.lockMore locks
  | @insert id table row record number slots known placing =>
      rw [← alone.tables] at known
      have keyed := orderly.keyed id table known
      have own : bare.tables[table.id]? = some table := by
        rw [keyed]
        exact known
      obtain ⟨room, base, after, baseIs, locks, found⟩ := alone.vacancy_found orderly own placing
      have inserted : bare.insert transaction id row = (.ok record,
          after.change transaction record.page
            (slots.set record.slot (some row.stored))) := by
        simp only [Bare.insert, table?, known, found]
      refine ⟨⟨rfl, .inl ?_⟩, ?_, trivial, ?_⟩
      · simp only [BareSystem.perform, BareSystem.after, inserted]
      · simp only [BareSystem.perform, BareSystem.after, inserted]
        exact alone.change baseIs locks _
      · rintro another place other found same knownToo needs
        cases same
        rw [known, Option.some.injEq] at knownToo
        rw [← knownToo] at needs ⊢
        exact room needs
  | @delete place slots known mine room found checked =>
      obtain ⟨table, registered⟩ := Option.isSome_iff_exists.mp known
      rw [← alone.tables] at registered
      obtain ⟨after, got, locks⟩ :=
        alone.unrivalled.getPage orderly.consistent place.page .readWrite
      have fetched := (alone.fetch_eq room).trans found
      have deleted : bare.delete transaction (some place) = (.ok (),
          after.change transaction place.page (slots.set place.slot none)) := by
        simp only [Bare.delete, table?, registered, got, fetched, checked]
      refine ⟨⟨rfl, .inl ?_⟩, ?_, trivial, fun _ _ _ _ insert => by cases insert⟩
      · simp only [BareSystem.perform, BareSystem.after, deleted]
      · simp only [BareSystem.perform, BareSystem.after, deleted]
        exact @Alone.change _ _ _ _ _ _ table _ alone (.inl rfl) locks _

end Alone

end Bare

end RecordStore
