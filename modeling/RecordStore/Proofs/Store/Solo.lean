import RecordStore.Proofs.Store.Ledger

set_option autoImplicit false

/-! The operations of a transaction alone: `Ground` is what the files have, and the transaction
finds its own drafts on it. The answers depend on the pages it holds only, so they stay the same
until it ends. -/

namespace RecordStore

abbrev Drafts := Std.ExtTreeMap PageId Draft

structure Ground where
  tables : Std.ExtTreeMap TableId Table
  capacity : Nat
  written : PageId → Except Failure Slots

namespace Ground

def Missing (ground : Ground) (page : PageId) : Prop :=
  ground.written page = .error (.refused (.missingPage page))

/-- The page is a draft or a page of a table that the cache has room for beside these drafts. -/
def Room (ground : Ground) (drafts : Drafts) (page : PageId) : Prop :=
  (drafts[page]?).isSome ∨
    ((ground.tables[page.table]?).isSome ∧ drafts.size < ground.capacity)

def find (ground : Ground) (drafts : Drafts) (page : PageId) : Except Failure Slots :=
  match drafts[page]? with
  | some draft => .ok draft.slots
  | none => ground.written page

def Finds (ground : Ground) (drafts : Drafts) (page : PageId) (count : Nat)
    (slots : Slots) : Prop :=
  ground.find drafts page = .ok slots ∨
    (drafts[page]? = none ∧ ground.Missing page ∧ slots = List.replicate count none)

structure Full (ground : Ground) (held : PageId → Prop) (drafts : Drafts) (page : PageId) :
    Prop where
  mine : held page
  room : ground.Room drafts page
  full : ∃ slots, ground.find drafts page = .ok slots ∧ Slots.free? slots = none

structure Placing (ground : Ground) (held : PageId → Prop) (drafts : Drafts) (table : Table)
    (row : Row) (record : RecordId) (number : Nat) (slots : Slots) : Prop where
  counted : ∃ count, table.slotsPerPage = .ok count ∧ count ≠ 0
  agrees : row.schema.agrees table.schema = true
  countable : number + 1 < UInt32.size
  pageIs : record.page = table.page (UInt32.ofNat number)
  passed : ∀ earlier, earlier < number →
    ground.Full held drafts (table.page (UInt32.ofNat earlier))
  mine : held record.page
  room : ground.Room drafts record.page
  found : ground.Finds drafts record.page
    (Layout.slotCount table.pageSize table.schema.width) slots
  free : Slots.free? slots = some record.slot

end Ground

inductive Solo (ground : Ground) (held : PageId → Prop) (transaction : TransactionId)
    (drafts : Drafts) : Event → Drafts → Prop where
  | get {page : PageId} {access : Access} {count : Nat} {slots : Slots} :
      held page → ground.Room drafts page → ground.Finds drafts page count slots →
      Solo ground held transaction drafts ⟨.get transaction page access, .shown (.ok slots)⟩ drafts
  | insert {id : TableId} {table : Table} {row : Row} {record : RecordId} {number : Nat}
      {slots : Slots} :
      ground.tables[id]? = some table →
      ground.Placing held drafts table row record number slots →
      Solo ground held transaction drafts ⟨.insert transaction id row, .placed (.ok record)⟩
        (drafts.insert record.page
          ⟨transaction, slots.set record.slot (some row.stored)⟩)
  | delete {place : RecordId} {slots : Slots} :
      (ground.tables[place.page.table]?).isSome → held place.page →
      ground.Room drafts place.page → ground.find drafts place.page = .ok slots →
      Slots.checkTaken slots place.page place = .ok () →
      Solo ground held transaction drafts ⟨.delete transaction (some place), .deleted (.ok ())⟩
        (drafts.insert place.page ⟨transaction, slots.set place.slot none⟩)

inductive Replay (ground : Ground) (held : PageId → Prop) (transaction : TransactionId) :
    List Event → Drafts → Prop where
  | nil : Replay ground held transaction [] ∅
  | snoc {events : List Event} {event : Event} {drafts after : Drafts} :
      Replay ground held transaction events drafts →
      Solo ground held transaction drafts event after →
      Replay ground held transaction (events ++ [event]) after

/-! ### Dependence on held pages -/

structure Ground.Covers (after : Ground) (heldAfter : PageId → Prop) (before : Ground)
    (heldBefore : PageId → Prop) : Prop where
  tables : after.tables = before.tables
  capacity : after.capacity = before.capacity
  held : ∀ page, heldBefore page → heldAfter page
  written : ∀ page, heldBefore page → after.written page = before.written page

namespace Ground.Covers

variable {after before : Ground} {heldAfter heldBefore : PageId → Prop} {drafts : Drafts}
variable {page : PageId}

theorem find_eq (covers : after.Covers heldAfter before heldBefore) (mine : heldBefore page) :
    after.find drafts page = before.find drafts page := by
  rw [Ground.find, Ground.find, covers.written page mine]

theorem room (covers : after.Covers heldAfter before heldBefore)
    (room : before.Room drafts page) : after.Room drafts page := by
  rw [Ground.Room, covers.tables, covers.capacity]
  exact room

theorem finds (covers : after.Covers heldAfter before heldBefore) (mine : heldBefore page)
    {count : Nat} {slots : Slots} (finds : before.Finds drafts page count slots) :
    after.Finds drafts page count slots := by
  rw [Ground.Finds, Ground.Missing, covers.find_eq mine, covers.written page mine]
  exact finds

theorem full (covers : after.Covers heldAfter before heldBefore)
    (full : before.Full heldBefore drafts page) : after.Full heldAfter drafts page := by
  refine ⟨covers.held page full.mine, covers.room full.room, ?_⟩
  rw [covers.find_eq full.mine]
  exact full.full

theorem placing (covers : after.Covers heldAfter before heldBefore) {table : Table} {row : Row}
    {record : RecordId} {number : Nat} {slots : Slots}
    (placing : before.Placing heldBefore drafts table row record number slots) :
    after.Placing heldAfter drafts table row record number slots where
  counted := placing.counted
  agrees := placing.agrees
  countable := placing.countable
  pageIs := placing.pageIs
  passed earlier below := covers.full (placing.passed earlier below)
  mine := covers.held _ placing.mine
  room := covers.room placing.room
  found := covers.finds placing.mine placing.found
  free := placing.free

theorem solo (covers : after.Covers heldAfter before heldBefore) {transaction : TransactionId}
    {event : Event} {later : Drafts}
    (solo : Solo before heldBefore transaction drafts event later) :
    Solo after heldAfter transaction drafts event later := by
  cases solo with
  | get mine room found =>
      exact .get (covers.held _ mine) (covers.room room) (covers.finds mine found)
  | insert known placing =>
      rw [← covers.tables] at known
      exact .insert known (covers.placing placing)
  | delete known mine room found checked =>
      rw [← covers.tables] at known
      rw [← covers.find_eq mine] at found
      exact .delete known (covers.held _ mine) (covers.room room) found checked

theorem replay (covers : after.Covers heldAfter before heldBefore) {transaction : TransactionId}
    {events : List Event} (replay : Replay before heldBefore transaction events drafts) :
    Replay after heldAfter transaction events drafts := by
  induction replay with
  | nil => exact .nil
  | snoc earlier solo ih => exact .snoc ih (covers.solo solo)

end Ground.Covers

/-! ### Among other transactions -/

namespace Bare

def own (bare : Bare) (transaction : TransactionId) : Drafts :=
  bare.drafts.filter fun _ draft => decide (draft.transaction = transaction)

def Held (bare : Bare) (transaction : TransactionId) (page : PageId) : Prop :=
  (bare.locks.modeOf transaction page).isSome

def ground (bare : Bare) : Ground := ⟨bare.tables, bare.capacity, bare.written⟩

def Blank (bare : Bare) (page : PageId) : Prop :=
  ∃ table, bare.tables[page.table]? = some table ∧
    bare.written page =
      .ok (List.replicate (Layout.slotCount table.pageSize table.schema.width) none)

structure Tracks (bare : Bare) (ground : Ground) : Prop where
  tables : ground.tables = bare.tables
  capacity : ground.capacity = bare.capacity
  pages : ∀ page, ground.written page = bare.written page ∨
    (ground.Missing page ∧ bare.Blank page)

variable {bare middle after : Bare} {ledger : Ledger} {ground : Ground}
variable {transaction other : TransactionId} {page : PageId} {table : Table} {slots : Slots}

theorem own_lookup (bare : Bare) (transaction : TransactionId) (page : PageId) :
    (bare.own transaction)[page]? =
      bare.drafts[page]?.filter fun draft => decide (draft.transaction = transaction) := by
  rw [own, Std.ExtTreeMap.getElem?_filter']

theorem size_own_le (bare : Bare) (transaction : TransactionId) :
    (bare.own transaction).size ≤ bare.drafts.size := Std.ExtTreeMap.size_filter_le_size

/-- A page is shown to its holder as `ground` has it, or as an appended page without records. -/
theorem Keeps.finds (keeps : bare.Keeps ledger) (tracks : bare.Tracks ground)
    (held : bare.Held transaction page) (fetched : bare.fetch page = .ok slots) :
    ground.Room (bare.own transaction) page ∧
      (ground.find (bare.own transaction) page = .ok slots ∨
        ((bare.own transaction)[page]? = none ∧ ground.Missing page ∧
          ∃ table, bare.tables[page.table]? = some table ∧ slots =
            List.replicate (Layout.slotCount table.pageSize table.schema.width) none)) := by
  have mine := bare.own_lookup transaction page
  rw [Ground.Room, Ground.find]
  unfold Bare.fetch at fetched
  cases drafted : bare.drafts[page]? with
  | some draft =>
      have own := keeps.own_draft drafted held
      rw [drafted, Option.filter_some, if_pos (decide_eq_true own)] at mine
      simp only [drafted] at fetched
      rw [mine]
      exact ⟨.inl rfl, .inl fetched⟩
  | none =>
      rw [drafted, Option.filter_none] at mine
      simp only [drafted] at fetched
      rw [mine]
      split at fetched
      · cases fetched
      · next known =>
          split at fetched
          · cases fetched
          · next room =>
              have small : bare.drafts.size < bare.capacity := by
                rw [isFull, decide_eq_true_iff] at room
                exact Nat.lt_of_not_le room
              have fewer := bare.size_own_le transaction
              refine ⟨.inr ⟨?_, ?_⟩, ?_⟩
              · rw [tracks.tables, bare.table?_ok known]
                rfl
              · rw [tracks.capacity]
                omega
              · rcases tracks.pages page with same | ⟨missing, other, found, blank⟩
                · exact .inl (same.trans fetched)
                · rw [fetched, Except.ok.injEq] at blank
                  exact .inr ⟨rfl, missing, other, found, blank⟩

/-! ### Drafts of the transaction -/

theorem own_of_drafts (same : after.drafts = bare.drafts) (transaction : TransactionId) :
    after.own transaction = bare.own transaction := by
  rw [own, own, same]

theorem own_change_same (bare : Bare) (transaction : TransactionId) (page : PageId)
    (slots : Slots) : (bare.change transaction page slots).own transaction =
      (bare.own transaction).insert page ⟨transaction, slots⟩ := by
  apply Std.ExtTreeMap.ext_getElem?
  intro place
  rw [own_lookup, change, lookup_insert, lookup_insert, own_lookup]
  split
  · rw [Option.filter_some, if_pos (decide_eq_true rfl)]
  · rfl

theorem Keeps.own_change_other (keeps : bare.Keeps ledger)
    (held : bare.Held transaction page) (different : other ≠ transaction) :
    (bare.change transaction page slots).own other = bare.own other := by
  apply Std.ExtTreeMap.ext_getElem?
  intro place
  rw [own_lookup, own_lookup, Bare.change, lookup_insert]
  split
  · next same =>
      rw [Option.filter_some, if_neg fun own => different (of_decide_eq_true own).symm]
      cases drafted : bare.drafts[place]? with
      | none => rfl
      | some draft =>
          rw [← same] at drafted
          have own := keeps.own_draft drafted held
          rw [Option.filter_some, if_neg]
          rw [own, decide_eq_true_iff]
          exact fun equal => different equal.symm
  · rfl

/-! ### Files -/

namespace Tracks

theorem lockMore (tracks : bare.Tracks ground) (locks : LocksMore transaction bare after) :
    after.Tracks ground := by
  refine ⟨tracks.tables.trans locks.tables_eq.symm, tracks.capacity.trans locks.capacity_eq.symm,
    fun page => ?_⟩
  rw [Blank, locks.written_eq, locks.tables_eq]
  exact tracks.pages page

theorem change (tracks : bare.Tracks ground) (transaction : TransactionId) (page : PageId)
    (slots : Slots) : (bare.change transaction page slots).Tracks ground :=
  ⟨tracks.tables, tracks.capacity, tracks.pages⟩

theorem grow (tracks : bare.Tracks ground) (known : bare.tables[table.id]? = some table)
    (missing : bare.written (bare.nextPage table) =
      .error (.refused (.missingPage (bare.nextPage table)))) :
    (bare.grow table).Tracks ground := by
  refine ⟨tracks.tables, tracks.capacity, ?_⟩
  intro page
  simp only [Bare.grow, Bare.write, Blank]
  by_cases last : page = bare.nextPage table
  · rw [if_pos last]
    refine .inr ⟨?_, table, ?_, rfl⟩
    · rw [last]
      rcases tracks.pages (bare.nextPage table) with same | ⟨absent, -⟩
      · exact same.trans missing
      · exact absent
    · rw [last]
      exact known
  · rw [if_neg last]
    exact tracks.pages page

end Tracks

/-! ### One operation among others -/

theorem Keeps.full (keeps : bare.Keeps ledger) (tracks : bare.Tracks ground)
    (strengthens : LockService.Strengthens transaction bare.locks middle.locks)
    (known : bare.tables[page.table]? = some table)
    (spacious : Layout.slotCount table.pageSize table.schema.width ≠ 0)
    (full : FullPage bare middle transaction page) :
    ground.Full (middle.Held transaction) (bare.own transaction) page := by
  obtain ⟨exclusive, slots, fetched, crowded⟩ := full
  have held : middle.Held transaction page := by
    rw [Held, exclusive]
    rfl
  have locks : LocksMore transaction bare { bare with locks := middle.locks } :=
    ⟨rfl, strengthens⟩
  rw [← locks.fetch_eq] at fetched
  rcases (keeps.lockMore locks).finds (tracks.lockMore locks) held fetched with
      ⟨room, found | ⟨-, -, same, knownToo, blank⟩⟩
  · exact ⟨held, room, slots, found, crowded⟩
  · have equal : table = same := Option.some.inj (known.symm.trans knownToo)
    rw [blank, ← equal] at crowded
    exact absurd crowded (Slots.free?_replicate spacious)

structure Advances (bare after : Bare) (ground : Ground) (transaction : TransactionId)
    (event : Event) : Prop where
  solo : Solo ground (after.Held transaction) transaction (bare.own transaction) event
    (after.own transaction)
  tracks : after.Tracks ground
  strengthens : LockService.Strengthens transaction bare.locks after.locks
  others : ∀ other, other ≠ transaction → after.own other = bare.own other

theorem Keeps.get_advances (keeps : bare.Keeps ledger) (tracks : bare.Tracks ground)
    {access : Access} (shown : bare.getPage transaction page access = (.ok slots, after)) :
    bare.Advances after ground transaction
      ⟨.get transaction page access, .shown (.ok slots)⟩ := by
  obtain ⟨locks, fetched, held, -⟩ := getPage_ok shown
  have own : ∀ other, after.own other = bare.own other := own_of_drafts locks.drafts_eq
  rw [← locks.fetch_eq] at fetched
  have finds := (keeps.lockMore locks).finds (tracks.lockMore locks) held fetched
  refine ⟨?_, tracks.lockMore locks, locks.strengthens, fun other _ => own other⟩
  rw [own] at finds ⊢
  rcases finds with ⟨room, found | ⟨undrafted, missing, table, -, blank⟩⟩
  · exact @Solo.get _ _ _ _ _ _ 0 _ held room (.inl found)
  · exact .get held room (.inr ⟨undrafted, missing, blank⟩)

theorem Keeps.delete_advances (keeps : bare.Keeps ledger) (tracks : bare.Tracks ground)
    {record : Option RecordId} (deleted : bare.delete transaction record = (.ok (), after)) :
    bare.Advances after ground transaction
      ⟨.delete transaction record, .deleted (.ok ())⟩ := by
  obtain ⟨place, middle, slots, rfl, known, locks, exclusive, fetched, checked, rfl⟩ :=
    delete_ok deleted
  have held : middle.Held transaction place.page := by
    rw [Held, exclusive]
    rfl
  have own : ∀ other, middle.own other = bare.own other := own_of_drafts locks.drafts_eq
  rw [← locks.fetch_eq] at fetched
  have finds := (keeps.lockMore locks).finds (tracks.lockMore locks) held fetched
  refine ⟨?_, (tracks.lockMore locks).change _ _ _, locks.strengthens, ?_⟩
  · rw [own_change_same, own]
    rw [own] at finds
    rw [← tracks.tables] at known
    rcases finds with ⟨room, found | ⟨-, -, table, -, blank⟩⟩
    · exact .delete known held room found checked
    · obtain ⟨-, inside, values, taken⟩ := Slots.checkTaken_ok checked
      rw [blank, List.getElem?_replicate] at taken
      split at taken <;> cases taken
  · intro other different
    rw [(keeps.lockMore locks).own_change_other held different, own]

theorem counts_grow (bare : Bare) (table : Table) :
    (bare.grow table).counts table.id = bare.counts table.id + 1 := if_pos rfl

/-- An insert changes a page that was there or one appended page without records. -/
theorem Keeps.insert_base (keeps : bare.Keeps ledger) (tracks : bare.Tracks ground)
    {table : Table} {row : Row} {record : RecordId} {number : Nat} {base middle : Bare}
    {slots : Slots} (own : bare.tables[table.id]? = some table)
    (missing : table.Usable →
      bare.written (bare.nextPage table) = .error (.refused (.missingPage (bare.nextPage table))))
    (facts : Inserted bare transaction table row record number base middle slots) :
    base.Keeps ledger ∧ base.Tracks ground ∧ base.drafts = bare.drafts ∧
      base.locks = bare.locks ∧ number + 1 ≤ base.counts table.id := by
  rcases facts.baseIs with ⟨rfl, inside⟩ | ⟨rfl, last⟩
  · exact ⟨keeps, tracks, rfl, rfl, inside⟩
  · have absent := missing facts.usable
    refine ⟨keeps.grow absent, tracks.grow own absent, rfl, rfl, ?_⟩
    rw [last]
    exact Nat.le_of_eq (bare.counts_grow table).symm

theorem Keeps.insert_advances (keeps : bare.Keeps ledger) (tracks : bare.Tracks ground)
    {id : TableId} {row : Row} {record : RecordId}
    (keyed : ∀ table, bare.tables[id]? = some table → table.id = id)
    (missing : ∀ table, bare.tables[id]? = some table → table.Usable →
      bare.written (bare.nextPage table) = .error (.refused (.missingPage (bare.nextPage table))))
    (countable : after.counts id < UInt32.size)
    (inserted : bare.insert transaction id row = (.ok record, after)) :
    bare.Advances after ground transaction
      ⟨.insert transaction id row, .placed (.ok record)⟩ := by
  obtain ⟨table, number, base, middle, slots, known, facts, rfl⟩ := insert_ok inserted
  have idIs : table.id = id := keyed table known
  have own : bare.tables[table.id]? = some table := by
    rw [idIs]
    exact known
  obtain ⟨baseKeeps, baseTracks, drafts, unlocked, inside⟩ :=
    keeps.insert_base tracks own (missing table known) facts
  have locks := facts.roomy.locks
  have held : middle.Held transaction record.page := by
    rw [Held, facts.roomy.exclusive]
    rfl
  have strengthens : LockService.Strengthens transaction bare.locks middle.locks :=
    unlocked ▸ locks.strengthens
  have same : ∀ other, middle.own other = bare.own other :=
    own_of_drafts (locks.drafts_eq.trans drafts)
  refine ⟨?_, (baseTracks.lockMore locks).change _ _ _, strengthens, ?_⟩
  · rw [own_change_same, same]
    have fetched : middle.fetch record.page = .ok slots :=
      (locks.fetch_eq record.page).trans facts.roomy.fetched
    have finds := (baseKeeps.lockMore locks).finds (baseTracks.lockMore locks) held fetched
    rw [same] at finds
    refine .insert (tracks.tables ▸ known) ⟨facts.counted, facts.agrees, ?_, facts.pageIs, ?_, held,
      finds.1, ?_, facts.roomy.free⟩
    · rw [show (middle.change _ _ _).counts = base.counts from locks.counts_eq, ← idIs] at countable
      omega
    · intro earlier below
      exact keeps.full tracks strengthens own facts.spacious (facts.passed earlier below)
    · rcases finds.2 with found | ⟨undrafted, absent, other, knownToo, blank⟩
      · exact .inl found
      · have here : middle.tables[record.page.table]? = some table := by
          rw [(baseTracks.lockMore locks).tables.symm, tracks.tables, facts.pageIs]
          exact own
        have equal : table = other := Option.some.inj (here.symm.trans knownToo)
        rw [← equal] at blank
        exact .inr ⟨undrafted, absent, blank⟩
  · intro other different
    rw [(baseKeeps.lockMore locks).own_change_other held different, same]

end Bare

end RecordStore
