import RecordStore.Proofs.Map
import RecordStore.Proofs.Page.Sound
import RecordStore.Store.Completion
import RecordStore.Store.Scan

set_option autoImplicit false

/-! The bare store: the store without its clean pages. It has the files, the locks and the dirty
pages as drafts, and the same operations without a cache. -/

namespace RecordStore

structure Draft where
  transaction : TransactionId
  slots : Slots

structure Bare where
  tables : Std.ExtTreeMap TableId Table
  locks : LockService
  capacity : Nat
  nextTransaction : TransactionId
  counts : TableId → Nat
  written : PageId → Except Failure Slots
  drafts : Std.ExtTreeMap PageId Draft

structure Vacancy where
  page : PageId
  slots : Slots
  slot : Nat

/-- The place of a row, and its values as they are stored. -/
abbrev SeenRow := Option RecordId × List Value

def Row.seen (row : Row) : SeenRow := (row.place, row.stored)

def Slots.rowsFrom (page : PageId) : (slot : Nat) → Slots → List SeenRow
  | _, [] => []
  | slot, none :: slots => rowsFrom page (slot + 1) slots
  | slot, some values :: slots => (some ⟨page, slot⟩, values) :: rowsFrom page (slot + 1) slots

def Slots.rows (page : PageId) (slots : Slots) : List SeenRow := slots.rowsFrom page 0

namespace Bare

def table? (bare : Bare) (table : TableId) : Except StorageError Table :=
  match bare.tables[table]? with
  | some table => .ok table
  | none => .error (.unknownTable table)

def isFull (bare : Bare) : Bool := bare.capacity ≤ bare.drafts.size

/-- `Store.fetch` without the clean pages: a page that is no draft needs room. -/
def fetch (bare : Bare) (page : PageId) : Except Failure Slots :=
  match bare.drafts[page]? with
  | some draft => .ok draft.slots
  | none =>
      match bare.table? page.table with
      | .error error => .error (.refused error)
      | .ok _ =>
          if bare.isFull then .error (.refused (.cacheFull bare.capacity)) else bare.written page

def acquire (bare : Bare) (transaction : TransactionId) (page : PageId) (mode : LockMode) :
    Except Failure Unit × Bare :=
  match bare.locks.acquire transaction page mode 0 with
  | (.ok (), locks) => (.ok (), { bare with locks := locks })
  | (.error failure, locks) => (.error failure.failure, { bare with locks := locks })

def getPage (bare : Bare) (transaction : TransactionId) (page : PageId) (access : Access) :
    Except Failure Slots × Bare :=
  match bare.acquire transaction page access.mode with
  | (.error failure, bare) => (.error failure, bare)
  | (.ok (), bare) => (bare.fetch page, bare)

/-! ### Inserting and deleting -/

def write (bare : Bare) (page : PageId) (slots : Slots) : Bare :=
  { bare with written := fun other => if other = page then .ok slots else bare.written other }

def nextPage (bare : Bare) (table : Table) : PageId :=
  table.page (UInt32.ofNat (bare.counts table.id))

def grow (bare : Bare) (table : Table) : Bare :=
  { bare.write (bare.nextPage table)
      (List.replicate (Layout.slotCount table.pageSize table.schema.width) none) with
    counts := fun other =>
      if other = table.id then bare.counts other + 1 else bare.counts other }

def change (bare : Bare) (transaction : TransactionId) (page : PageId) (slots : Slots) : Bare :=
  { bare with drafts := bare.drafts.insert page ⟨transaction, slots⟩ }

def seekAt (bare : Bare) (transaction : TransactionId) (page : PageId) :
    Except Failure (Option Vacancy) × Bare :=
  match bare.getPage transaction page .readWrite with
  | (.error failure, bare) => (.error failure, bare)
  | (.ok slots, bare) => (.ok ((Slots.free? slots).map fun slot => ⟨page, slots, slot⟩), bare)

def seek (bare : Bare) (table : Table) (transaction : TransactionId) (first : Nat) :
    (length : Nat) → Except Failure (Option Vacancy) × Bare
  | 0 => (.ok none, bare)
  | length + 1 =>
      match bare.seekAt transaction (table.page (UInt32.ofNat first)) with
      | (.error failure, bare) => (.error failure, bare)
      | (.ok (some vacancy), bare) => (.ok (some vacancy), bare)
      | (.ok none, bare) => seek bare table transaction (first + 1) length

def seekNew (bare : Bare) (table : Table) (transaction : TransactionId) :
    Except Failure Vacancy × Bare :=
  match (bare.grow table).seekAt transaction (bare.nextPage table) with
  | (.error failure, bare) => (.error failure, bare)
  | (.ok (some vacancy), bare) => (.ok vacancy, bare)
  | (.ok none, bare) => (.error (.broken .endlessAppend), bare)

def vacancy (bare : Bare) (table : Table) (transaction : TransactionId) (row : Row) :
    Except Failure Vacancy × Bare :=
  match table.slotsPerPage with
  | .error fault => (.error (.broken fault), bare)
  | .ok slots =>
      if slots = 0 then
        (.error (.refused (.rowTooWide table.schema.width table.pageSize)), bare)
      else if !row.schema.agrees table.schema then
        (.error (.refused .schemaMismatch), bare)
      else
        match bare.seek table transaction 0 (bare.counts table.id) with
        | (.error failure, bare) => (.error failure, bare)
        | (.ok (some vacancy), bare) => (.ok vacancy, bare)
        | (.ok none, bare) => bare.seekNew table transaction

def insert (bare : Bare) (transaction : TransactionId) (table : TableId) (row : Row) :
    Except Failure RecordId × Bare :=
  match bare.table? table with
  | .error error => (.error (.refused error), bare)
  | .ok table =>
      match bare.vacancy table transaction row with
      | (.error failure, bare) => (.error failure, bare)
      | (.ok found, bare) =>
          (.ok ⟨found.page, found.slot⟩,
            bare.change transaction found.page (found.slots.set found.slot (some row.stored)))

def delete (bare : Bare) (transaction : TransactionId) (record : Option RecordId) :
    Except Failure Unit × Bare :=
  match record with
  | none => (.error (.refused .unplacedRow), bare)
  | some record =>
      match bare.table? record.page.table with
      | .error error => (.error (.refused error), bare)
      | .ok _ =>
          match bare.getPage transaction record.page .readWrite with
          | (.error failure, bare) => (.error failure, bare)
          | (.ok slots, bare) =>
              match Slots.checkTaken slots record.page record with
              | .error error => (.error (.refused error), bare)
              | .ok () => (.ok (), bare.change transaction record.page (slots.set record.slot none))

/-! ### Writing drafts and ending transactions -/

def discard (bare : Bare) (page : PageId) : Bare :=
  { bare with drafts := bare.drafts.erase page }

def flush (bare : Bare) (page : PageId) : Bare :=
  match bare.drafts[page]? with
  | none => bare
  | some draft => (bare.write page draft.slots).discard page

def flushEach (bare : Bare) (pages : List PageId) : Bare := pages.foldl flush bare

def releasePage (bare : Bare) (transaction : TransactionId) (page : PageId) : Bare :=
  { bare with locks := bare.locks.release transaction page }

def settlePage (bare : Bare) (commits : Bool) (page : PageId) : Bare :=
  if commits then bare.flush page else bare.discard page

def settlePages (bare : Bare) (commits : Bool) (transaction : TransactionId) :
    List PageId → Bare
  | [] => bare
  | page :: pages =>
      settlePages ((bare.settlePage commits page).releasePage transaction page) commits transaction
        pages

def complete (bare : Bare) (commits : Bool) (transaction : TransactionId) : Bare :=
  let settled := bare.settlePages commits transaction (bare.locks.table.pagesOf transaction)
  { settled with locks := settled.locks.releaseAll transaction }

/-! ### Several drafts at once -/

def flushThose (bare : Bare) (chosen : PageId → Bool) : Bare :=
  { bare with
    written := fun page =>
      match bare.drafts[page]? with
      | some draft => if chosen page then .ok draft.slots else bare.written page
      | none => bare.written page
    drafts := bare.drafts.filter fun page _ => !chosen page }

def discardThose (bare : Bare) (chosen : PageId → Bool) : Bare :=
  { bare with drafts := bare.drafts.filter fun page _ => !chosen page }

theorem drafts_flushThose (bare : Bare) (chosen : PageId → Bool) (page : PageId) :
    (bare.flushThose chosen).drafts[page]? =
      if chosen page then none else bare.drafts[page]? := by
  simp only [flushThose, lookup_filter]
  cases chosen page <;> rfl

theorem drafts_discardThose (bare : Bare) (chosen : PageId → Bool) (page : PageId) :
    (bare.discardThose chosen).drafts[page]? =
      if chosen page then none else bare.drafts[page]? := by
  simp only [discardThose, lookup_filter]
  cases chosen page <;> rfl

theorem filter_filter_drafts (bare : Bare) (first second : PageId → Bool) :
    ((bare.drafts.filter fun page _ => !first page).filter fun page _ => !second page) =
      bare.drafts.filter fun page _ => !(first page || second page) := by
  apply Std.ExtTreeMap.ext_getElem?
  intro page
  simp only [lookup_filter _ (fun page => !first page), lookup_filter _ (fun page => !second page),
    lookup_filter _ fun page => !(first page || second page)]
  cases first page <;> cases second page <;> rfl

theorem flushThose_flushThose (bare : Bare) (first second : PageId → Bool) :
    (bare.flushThose first).flushThose second =
      bare.flushThose fun page => first page || second page := by
  have written : ((bare.flushThose first).flushThose second).written =
      (bare.flushThose fun page => first page || second page).written := by
    funext page
    have remaining := bare.drafts_flushThose first page
    simp only [flushThose] at remaining ⊢
    rw [remaining]
    by_cases early : first page = true
    · simp [early]
    · simp only [early, Bool.false_or]
      cases bare.drafts[page]? <;> rfl
  have drafts := bare.filter_filter_drafts first second
  calc (bare.flushThose first).flushThose second
      = { bare with
          written := ((bare.flushThose first).flushThose second).written
          drafts := (bare.drafts.filter fun page _ => !first page).filter fun page _ =>
            !second page } := rfl
    _ = bare.flushThose fun page => first page || second page := by
        rw [written, drafts]
        rfl

theorem filter_drafts_none (drafts : Std.ExtTreeMap PageId Draft) :
    (drafts.filter fun _ _ => !false) = drafts := by
  apply Std.ExtTreeMap.ext_getElem?
  intro page
  rw [lookup_filter drafts fun _ => !false]
  rfl

theorem flushThose_congr (bare : Bare) {first second : PageId → Bool}
    (same : ∀ page, bare.drafts[page]?.isSome → first page = second page) :
    bare.flushThose first = bare.flushThose second := by
  have written : (bare.flushThose first).written = (bare.flushThose second).written := by
    funext page
    simp only [flushThose]
    cases drafted : bare.drafts[page]? with
    | none => rfl
    | some draft => simp only [same page (by rw [drafted]; rfl)]
  have drafts : (bare.flushThose first).drafts = (bare.flushThose second).drafts := by
    apply Std.ExtTreeMap.ext_getElem?
    intro page
    rw [drafts_flushThose, drafts_flushThose]
    cases drafted : bare.drafts[page]? with
    | none => simp
    | some draft => rw [same page (by rw [drafted]; rfl)]
  calc bare.flushThose first
      = { bare with
          written := (bare.flushThose first).written
          drafts := (bare.flushThose first).drafts } := rfl
    _ = bare.flushThose second := by
        rw [written, drafts]
        rfl

theorem flushThose_none (bare : Bare) : (bare.flushThose fun _ => false) = bare := by
  have written : (bare.flushThose fun _ => false).written = bare.written := by
    funext page
    simp only [flushThose]
    cases bare.drafts[page]? <;> rfl
  calc (bare.flushThose fun _ => false)
      = { bare with
          written := (bare.flushThose fun _ => false).written
          drafts := bare.drafts.filter fun _ _ => !false } := rfl
    _ = bare := by rw [written, filter_drafts_none]

theorem discardThose_none (bare : Bare) : (bare.discardThose fun _ => false) = bare := by
  rw [discardThose, filter_drafts_none]

theorem discardThose_discardThose (bare : Bare) (first second : PageId → Bool) :
    (bare.discardThose first).discardThose second =
      bare.discardThose fun page => first page || second page := by
  rw [discardThose, discardThose, discardThose, ← filter_filter_drafts]

theorem erase_eq_filter (drafts : Std.ExtTreeMap PageId Draft) (page : PageId) :
    drafts.erase page = drafts.filter fun other _ => !(other == page) := by
  apply Std.ExtTreeMap.ext_getElem?
  intro other
  rw [lookup_erase, lookup_filter _ fun other => !(other == page)]
  by_cases same : page = other
  · simp [same]
  · have different : (other == page) = false := beq_false_of_ne fun equal => same equal.symm
    rw [if_neg same, different]
    rfl

theorem discard_eq (bare : Bare) (page : PageId) :
    bare.discard page = bare.discardThose fun other => other == page := by
  rw [discard, discardThose, erase_eq_filter]

theorem flush_eq (bare : Bare) (page : PageId) :
    bare.flush page = bare.flushThose fun other => other == page := by
  have drafts := erase_eq_filter bare.drafts page
  unfold flush
  cases drafted : bare.drafts[page]? with
  | none =>
      rw [erase_of_absent drafted] at drafts
      have written : (bare.flushThose fun other => other == page).written = bare.written := by
        funext other
        simp only [flushThose]
        by_cases same : other = page
        · rw [same, drafted]
        · simp only [beq_false_of_ne same]
          cases bare.drafts[other]? <;> rfl
      calc bare
          = { bare with
              written := (bare.flushThose fun other => other == page).written
              drafts := bare.drafts.filter fun other _ => !(other == page) } := by
            rw [written, ← drafts]
        _ = bare.flushThose fun other => other == page := rfl
  | some draft =>
      have written : (bare.write page draft.slots).written =
          (bare.flushThose fun other => other == page).written := by
        funext other
        simp only [write, flushThose]
        by_cases same : other = page
        · rw [if_pos same, same, drafted]
          simp
        · simp only [if_neg same, beq_false_of_ne same]
          cases bare.drafts[other]? <;> rfl
      calc (bare.write page draft.slots).discard page
          = { bare with
              written := (bare.write page draft.slots).written
              drafts := bare.drafts.erase page } := rfl
        _ = bare.flushThose fun other => other == page := by
            rw [written, drafts]
            rfl

/-- `flushEach` writes every draft in the list. -/
theorem flushEach_eq (bare : Bare) (pages : List PageId) :
    bare.flushEach pages = bare.flushThose pages.contains := by
  induction pages generalizing bare with
  | nil => exact (bare.flushThose_none).symm
  | cons page pages ih =>
      have rest := ih (bare.flush page)
      rw [flush_eq, flushThose_flushThose] at rest
      rw [flushEach, List.foldl_cons]
      refine Eq.trans ?_ (rest.trans ?_)
      · rw [flush_eq]
        rfl
      · congr 1

def flushAll (bare : Bare) : Bare := bare.flushThose fun _ => true

def settleThose (bare : Bare) (commits : Bool) (chosen : PageId → Bool) : Bare :=
  if commits then bare.flushThose chosen else bare.discardThose chosen

theorem settlePage_eq (bare : Bare) (commits : Bool) (page : PageId) :
    bare.settlePage commits page = bare.settleThose commits fun other => other == page := by
  cases commits with
  | false => exact bare.discard_eq page
  | true => exact bare.flush_eq page

theorem settleThose_settleThose (bare : Bare) (commits : Bool) (first second : PageId → Bool) :
    (bare.settleThose commits first).settleThose commits second =
      bare.settleThose commits fun page => first page || second page := by
  cases commits with
  | false => exact bare.discardThose_discardThose first second
  | true => exact bare.flushThose_flushThose first second

theorem settleThose_withLocks (bare : Bare) (commits : Bool) (chosen : PageId → Bool)
    (locks : LockService) :
    ({ bare with locks := locks } : Bare).settleThose commits chosen =
      { bare.settleThose commits chosen with locks := locks } := by
  cases commits <;> rfl

theorem locks_settleThose (bare : Bare) (commits : Bool) (chosen : PageId → Bool) :
    (bare.settleThose commits chosen).locks = bare.locks := by
  cases commits <;> rfl

theorem settlePages_eq (bare : Bare) (commits : Bool) (transaction : TransactionId)
    (pages : List PageId) :
    bare.settlePages commits transaction pages =
      { bare.settleThose commits pages.contains with
        locks := pages.foldl (fun locks page => locks.release transaction page) bare.locks } := by
  induction pages generalizing bare with
  | nil =>
      cases commits with
      | false =>
          change bare = { bare.discardThose fun _ => false with locks := bare.locks }
          rw [discardThose_none]
      | true =>
          change bare = { bare.flushThose fun _ => false with locks := bare.locks }
          rw [flushThose_none]
  | cons page pages ih =>
      rw [settlePages, ih, List.foldl_cons]
      simp only [releasePage, settlePage_eq, settleThose_withLocks, settleThose_settleThose,
        locks_settleThose]
      congr 1

/-- `complete` settles the drafts that the transaction has locked and releases its locks. -/
theorem complete_eq (bare : Bare) (commits : Bool) (transaction : TransactionId) :
    bare.complete commits transaction =
      { bare.settleThose commits (bare.locks.table.pagesOf transaction).contains with
        locks :=
          ((bare.locks.table.pagesOf transaction).foldl
            (fun locks page => locks.release transaction page) bare.locks).releaseAll
            transaction } := by
  rw [complete]
  simp only [settlePages_eq]

end Bare

/-! ### Scans -/

structure BareScan where
  table : Table
  transaction : TransactionId
  ahead : PageSpan
  buffered : List SeenRow

namespace BareScan

def start (table : Table) (transaction : TransactionId) (bare : Bare) : Except Fault BareScan :=
  if table.pageSize = 0 then .error .divideByZero
  else .ok ⟨table, transaction, ⟨0, bare.counts table.id⟩, []⟩

def advance (table : Table) (transaction : TransactionId) (first : Nat) :
    (length : Nat) → Bare → Option (Except Failure SeenRow) × BareScan × Bare
  | 0, bare => (none, ⟨table, transaction, .empty, []⟩, bare)
  | length + 1, bare =>
      match bare.getPage transaction (table.page (UInt32.ofNat first)) .readOnly with
      | (.error (.refused error), bare) =>
          (some (.error (.refused error)), ⟨table, transaction, .empty, []⟩, bare)
      | (.error (.broken fault), bare) =>
          (some (.error (.broken fault)), ⟨table, transaction, ⟨first + 1, length⟩, []⟩, bare)
      | (.ok slots, bare) =>
          match slots.rows (table.page (UInt32.ofNat first)) with
          | [] => advance table transaction (first + 1) length bare
          | row :: rows =>
              (some (.ok row), ⟨table, transaction, ⟨first + 1, length⟩, rows⟩, bare)

def next (scan : BareScan) (bare : Bare) : Option (Except Failure SeenRow) × BareScan × Bare :=
  match scan.buffered with
  | row :: rows => (some (.ok row), { scan with buffered := rows }, bare)
  | [] => advance scan.table scan.transaction scan.ahead.first scan.ahead.length bare

end BareScan

end RecordStore
