import RecordStore.Proofs.Store.Ledger

set_option autoImplicit false

/-! Isolation: a page that a transaction gets, or that its scan loads, shows the committed records
with the transaction's own changes, whether the page was cached or read again. -/

namespace RecordStore

/-- The page has these records and no others. -/
structure Page.Shows (page : Page) (id : PageId) (records : Records) : Prop where
  idIs : page.id = id
  values : ∀ slot, (page.row? slot).map Row.stored = records ⟨id, slot⟩
  places : ∀ slot row, page.row? slot = some row → row.place = some ⟨id, slot⟩
  used : ∀ slot, page.isUsed slot = (records ⟨id, slot⟩).isSome

structure Records.Listed (records : Records) (page : PageId) (rows : List SeenRow) : Prop where
  exact : ∀ place values, (place, values) ∈ rows ↔
    ∃ slot, place = some ⟨page, slot⟩ ∧ records ⟨page, slot⟩ = some values
  ordered : rows.Pairwise fun left right =>
    ∀ before after, left.1 = some ⟨page, before⟩ → right.1 = some ⟨page, after⟩ → before < after

/-! ### Rows in the order of their slots -/

namespace Slots

variable {page : PageId}

theorem mem_rowsFrom {slots : Slots} {first : Nat} {place : Option RecordId}
    {values : List Value} :
    (place, values) ∈ slots.rowsFrom page first ↔
      ∃ slot, place = some ⟨page, first + slot⟩ ∧ slots[slot]?.join = some values := by
  induction slots generalizing first with
  | nil => simp [rowsFrom]
  | cons entry slots ih =>
      have split : (∃ slot, place = some ⟨page, first + slot⟩ ∧
            (entry :: slots)[slot]?.join = some values) ↔
          (place = some ⟨page, first⟩ ∧ entry = some values) ∨
            ∃ slot, place = some ⟨page, first + 1 + slot⟩ ∧ slots[slot]?.join = some values := by
        constructor
        · rintro ⟨slot, placed, found⟩
          cases slot with
          | zero => exact .inl ⟨placed, found⟩
          | succ slot =>
              refine .inr ⟨slot, ?_, found⟩
              rw [placed, Nat.add_assoc, Nat.add_comm 1 slot]
        · rintro (⟨placed, found⟩ | ⟨slot, placed, found⟩)
          · exact ⟨0, placed, found⟩
          · refine ⟨slot + 1, ?_, found⟩
            rw [placed, Nat.add_assoc, Nat.add_comm 1 slot]
      rw [split, ← ih]
      cases entry with
      | none => simp [rowsFrom]
      | some stored =>
          rw [rowsFrom, List.mem_cons, Prod.mk.injEq, Option.some.injEq]
          rw [@eq_comm _ stored values]

theorem place_of_mem_rows {slots : Slots} {row : SeenRow} (member : row ∈ slots.rows page) :
    ∃ slot, row.1 = some ⟨page, slot⟩ := by
  obtain ⟨place, values⟩ := row
  obtain ⟨slot, placed, -⟩ := mem_rowsFrom.mp member
  exact ⟨_, placed⟩

theorem pairwise_rowsFrom (slots : Slots) (first : Nat) :
    (slots.rowsFrom page first).Pairwise fun left right =>
      ∀ before after, left.1 = some ⟨page, before⟩ → right.1 = some ⟨page, after⟩ →
        before < after := by
  induction slots generalizing first with
  | nil => exact .nil
  | cons entry slots ih =>
      cases entry with
      | none => exact ih (first + 1)
      | some stored =>
          refine .cons ?_ (ih (first + 1))
          rintro ⟨place, values⟩ member before after here there
          obtain ⟨slot, placed, -⟩ := mem_rowsFrom.mp member
          cases here
          rw [placed, Option.some.injEq, RecordId.mk.injEq] at there
          omega

theorem listed {slots : Slots} {records : Records}
    (shows : ∀ slot : Nat, slots[slot]?.join = records ⟨page, slot⟩) :
    records.Listed page (slots.rows page) := by
  refine ⟨?_, slots.pairwise_rowsFrom 0⟩
  intro place values
  rw [rows, mem_rowsFrom]
  simp only [Nat.zero_add, shows]

end Slots

/-! ### What is shown -/

theorem PageCopy.Faithful.shows {cached : PageCopy} {table : Table} {directory : Directory}
    {page : PageId} {records : Records} (faithful : cached.Faithful table directory page)
    (values : ∀ slot : Nat, cached.page.contents[slot]?.join = records ⟨page, slot⟩) :
    cached.page.Shows page records := by
  refine ⟨faithful.idIs, ?_, ?_, ?_⟩
  · intro slot
    rw [← Page.contents_join, values]
  · intro slot row present
    rw [(faithful.sound.fitting slot row present).2, faithful.idIs]
  · intro slot
    rw [faithful.sound.isUsed_eq, values]

namespace Bare.Keeps

variable {bare after : Bare} {ledger : Ledger} {transaction : TransactionId} {page : PageId}

theorem visited (keeps : bare.Keeps ledger) (locks : LocksMore transaction bare after)
    {slots : Slots} (visited : Visited bare after transaction page slots) (slot : Nat) :
    slots[slot]?.join = ledger.view transaction ⟨page, slot⟩ := by
  obtain ⟨held, fetched⟩ := visited
  rw [← locks.fetch_eq] at fetched
  exact (keeps.lockMore locks).fetch_shows held fetched slot

end Bare.Keeps

/-- The scan passes pages without records and ends, or takes over all records of the next page. -/
structure Scan.Loads (scan : Scan) (records : Records)
    (result : Option (Except Failure Row) × Scan × Store) (number : Nat) : Prop where
  reached : scan.ahead.first ≤ number ∧ number ≤ scan.ahead.first + scan.ahead.length
  passed : ∀ earlier, scan.ahead.first ≤ earlier → earlier < number →
    records.Listed (scan.table.page (UInt32.ofNat earlier)) []
  ended : result.1 = none → number = scan.ahead.first + scan.ahead.length
  yielded : ∀ row, result.1 = some (.ok row) →
    number < scan.ahead.first + scan.ahead.length ∧ result.2.1.ahead.first = number + 1 ∧
      records.Listed (scan.table.page (UInt32.ofNat number))
        ((row :: result.2.1.buffered).map Row.seen)

theorem Bare.Keeps.loads {store : Store} {ledger : Ledger} (keeps : store.bare.Keeps ledger)
    (coherent : store.Coherent) {scan : Scan} (unbuffered : scan.buffered = []) :
    ∃ number, scan.Loads (ledger.view scan.transaction) (scan.next store) number := by
  have steps := Scan.next_steps coherent scan
  have locks := BareScan.next_locks store.bare scan.bare
  have advances : scan.bare.next store.bare = BareScan.advance scan.table scan.transaction
      scan.ahead.first scan.ahead.length store.bare := by
    rw [BareScan.next, Scan.bare, unbuffered]
    rfl
  obtain ⟨number, reached, passed, ended, yielded⟩ := BareScan.advance_loads store.bare scan.table
    scan.transaction scan.ahead.first scan.ahead.length
  rw [← advances] at passed ended yielded
  refine ⟨number, reached, ?_, ?_, ?_⟩
  · intro earlier above below
    obtain ⟨slots, visited, empty⟩ := passed earlier above below
    rw [← empty]
    exact Slots.listed (keeps.visited locks visited)
  · intro none
    apply ended
    rw [← steps.answered, none]
    rfl
  · intro row found
    have answered := steps.answered
    rw [found] at answered
    obtain ⟨inside, ahead, slots, visited, rows⟩ := yielded row.seen answered.symm
    rw [← steps.scanIs] at ahead rows
    refine ⟨inside, ahead, ?_⟩
    rw [List.map_cons]
    have taken : (scan.next store).2.1.bare.buffered =
        (scan.next store).2.1.buffered.map Row.seen := rfl
    rw [← taken, ← rows]
    exact Slots.listed (keeps.visited locks visited)

namespace System

variable {start system : System} {history : List Event}

/-- In every state of an `Ordinary` run, a page that a transaction gets, and every page that its
scan loads, shows the committed records with the transaction's own changes. -/
theorem shown_eq_view (fresh : start.Fresh) (run : Run Operation.Ordinary start history system) :
    (∀ transaction page access cached after,
      system.store.getPage transaction page access = (.ok cached, after) →
      cached.page.Shows page ((Ledger.after start.store.stored history).view transaction)) ∧
    ∀ scan : Scan, scan.buffered = [] →
      ∃ number, scan.Loads ((Ledger.after start.store.stored history).view scan.transaction)
        (scan.next system.store) number := by
  have coherent := (run.coherent fresh.coherent).store
  have keeps := run.keeps fresh
  refine ⟨fun transaction page access cached after shown => ?_, fun scan unbuffered =>
    keeps.loads coherent unbuffered⟩
  have fetches := coherent.getPage transaction page access
  rw [shown] at fetches
  have answered : system.store.bare.getPage transaction page access =
      (.ok cached.page.contents, after.bare) := Prod.ext fetches.answered.symm fetches.bareIs.symm
  obtain ⟨locks, fetched, held, -⟩ := Bare.getPage_ok answered
  obtain ⟨table, -, faithful⟩ := fetches.coherent.faithful page cached (fetches.present cached rfl)
  exact faithful.shows (keeps.visited locks ⟨held, fetched⟩)

/-- A transaction gets what another has committed, after an eviction, and what it has inserted
itself on the next page. -/
theorem shown_eq_view_small :
    ∃ history system cached after, small.Fresh ∧ Run Operation.Ordinary small history system ∧
      system.store.getPage ⟨2⟩ (numbers.page 1) .readOnly = (.ok cached, after) ∧
      cached.page.Shows (numbers.page 1) ((Ledger.after small.store.stored history).view ⟨2⟩) ∧
      (cached.page.row? 0).map Row.stored = some [.int 6] ∧
      ∃ number, (Scan.mk numbers ⟨2⟩ ⟨0, 2⟩ []).Loads
        ((Ledger.after small.store.stored history).view ⟨2⟩)
        ((Scan.mk numbers ⟨2⟩ ⟨0, 2⟩ []).next system.store) number := by
  have run := Run.step (.insert ⟨1⟩ ⟨7⟩ ⟨numbers.schema, [.int 5], none, rfl⟩)
    (.start : Run Operation.Ordinary small [] small) trivial
    (Store.countable_single rfl (by decide +kernel))
  have run := Run.step (.commit ⟨1⟩) run trivial
    (Store.countable_single rfl (by decide +kernel))
  have run := Run.step .evict run trivial (Store.countable_single rfl (by decide +kernel))
  have run := Run.step (.insert ⟨2⟩ ⟨7⟩ ⟨numbers.schema, [.int 6], none, rfl⟩) run trivial
    (Store.countable_single rfl (by decide +kernel))
  obtain ⟨shown, scanned⟩ := shown_eq_view small_fresh run
  have page := shown ⟨2⟩ (numbers.page 1) .readOnly _ _ rfl
  exact ⟨_, _, _, _, small_fresh, run, rfl, page, rfl, scanned _ rfl⟩

end System

end RecordStore
