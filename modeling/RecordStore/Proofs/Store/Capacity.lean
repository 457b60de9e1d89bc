import RecordStore.Proofs.Store.System

set_option autoImplicit false

/-! An operation that is not refused for want of room has the same answer and effect with a larger
capacity. -/

namespace RecordStore

def Failure.Crowded : Failure → Prop
  | .refused (.cacheFull _) => True
  | _ => False

def Answer.Crowded : Answer → Prop
  | .shown (.error failure) | .placed (.error failure) | .deleted (.error failure)
  | .scanned (some (.error failure)) => failure.Crowded
  | _ => False

/-- The answer does not change with more room: it is no refusal for want of room. -/
def Answer.Stands (own larger : Nat) (answer : Answer) : Prop := answer.Crowded → own = larger

namespace Bare

def andThen {Outcome Later : Type} (result : Except Failure Outcome × Bare)
    (next : Outcome → Bare → Except Failure Later × Bare) : Except Failure Later × Bare :=
  match result with
  | (.error failure, bare) => (.error failure, bare)
  | (.ok outcome, bare) => next outcome bare

/-! ### Operations as sequences of steps -/

section Sequences

variable (bare : Bare) (transaction : TransactionId)

theorem getPage_eq (page : PageId) (access : Access) :
    bare.getPage transaction page access =
      andThen (bare.acquire transaction page access.mode) fun _ bare =>
        (bare.fetch page, bare) := by
  unfold getPage
  obtain ⟨outcome, after⟩ := bare.acquire transaction page access.mode
  cases outcome <;> rfl

theorem seekAt_eq (page : PageId) :
    bare.seekAt transaction page =
      andThen (bare.getPage transaction page .readWrite) fun slots bare =>
        (.ok ((Slots.free? slots).map fun slot => ⟨page, slots, slot⟩), bare) := by
  unfold seekAt
  obtain ⟨outcome, after⟩ := bare.getPage transaction page .readWrite
  cases outcome <;> rfl

theorem seek_eq (table : Table) (first length : Nat) :
    bare.seek table transaction first (length + 1) =
      andThen (bare.seekAt transaction (table.page (UInt32.ofNat first))) fun found bare =>
        match found with
        | some vacancy => (.ok (some vacancy), bare)
        | none => bare.seek table transaction (first + 1) length := by
  rw [seek]
  obtain ⟨outcome, after⟩ := bare.seekAt transaction (table.page (UInt32.ofNat first))
  cases outcome with
  | error failure => rfl
  | ok found => cases found <;> rfl

theorem seekNew_eq (table : Table) :
    bare.seekNew table transaction =
      andThen ((bare.grow table).seekAt transaction (bare.nextPage table)) fun found bare =>
        match found with
        | some vacancy => (.ok vacancy, bare)
        | none => (.error (.broken .endlessAppend), bare) := by
  unfold seekNew
  obtain ⟨outcome, after⟩ := (bare.grow table).seekAt transaction (bare.nextPage table)
  cases outcome with
  | error failure => rfl
  | ok found => cases found <;> rfl

def seekAll (table : Table) : Except Failure Vacancy × Bare :=
  andThen (bare.seek table transaction 0 (bare.counts table.id)) fun found bare =>
    match found with
    | some vacancy => (.ok vacancy, bare)
    | none => bare.seekNew table transaction

theorem vacancy_eq (table : Table) (row : Row) :
    bare.vacancy table transaction row =
      match table.slotsPerPage with
      | .error fault => (.error (.broken fault), bare)
      | .ok slots =>
          if slots = 0 then
            (.error (.refused (.rowTooWide table.schema.width table.pageSize)), bare)
          else if !row.schema.agrees table.schema then (.error (.refused .schemaMismatch), bare)
          else bare.seekAll transaction table := by
  unfold vacancy seekAll
  obtain ⟨outcome, after⟩ := bare.seek table transaction 0 (bare.counts table.id)
  cases outcome with
  | error failure => rfl
  | ok found => cases found <;> rfl

theorem insert_eq (id : TableId) (row : Row) :
    bare.insert transaction id row =
      match bare.table? id with
      | .error error => (.error (.refused error), bare)
      | .ok table =>
          andThen (bare.vacancy table transaction row) fun found bare =>
            (.ok ⟨found.page, found.slot⟩,
              bare.change transaction found.page
                (found.slots.set found.slot (some row.stored))) := by
  unfold insert
  cases bare.table? id with
  | error error => rfl
  | ok table =>
      simp only
      obtain ⟨outcome, after⟩ := bare.vacancy table transaction row
      cases outcome <;> rfl

theorem delete_eq (record : RecordId) :
    bare.delete transaction (some record) =
      match bare.table? record.page.table with
      | .error error => (.error (.refused error), bare)
      | .ok _ =>
          andThen (bare.getPage transaction record.page .readWrite) fun slots bare =>
            match Slots.checkTaken slots record.page record with
            | .error error => (.error (.refused error), bare)
            | .ok () =>
                (.ok (), bare.change transaction record.page (slots.set record.slot none)) := by
  simp only [delete]
  cases bare.table? record.page.table with
  | error error => rfl
  | ok table =>
      simp only
      obtain ⟨outcome, after⟩ := bare.getPage transaction record.page .readWrite
      cases outcome with
      | error failure => rfl
      | ok slots => cases Slots.checkTaken slots record.page record <;> rfl

end Sequences

/-! ### More room -/

def widen (bare : Bare) (capacity : Nat) : Bare := { bare with capacity := capacity }

structure Widens {Outcome : Type} (own larger : Nat)
    (result wider : Except Failure Outcome × Bare) : Prop where
  kept : result.2.capacity = own
  same : (own ≠ larger ∧ ∃ failure : Failure, failure.Crowded ∧ result.1 = .error failure) ∨
    wider = (result.1, result.2.widen larger)

section Widens

variable {own larger : Nat} {bare : Bare}

theorem Widens.unchanged {Outcome : Type} (capacity : bare.capacity = own)
    (outcome : Except Failure Outcome) :
    Widens own larger (outcome, bare) (outcome, bare.widen larger) := ⟨capacity, .inr rfl⟩

theorem Widens.andThen {Outcome Later : Type} {result wider : Except Failure Outcome × Bare}
    {next more : Outcome → Bare → Except Failure Later × Bare}
    (widens : Widens own larger result wider)
    (after : ∀ outcome (bare : Bare), bare.capacity = own →
      Widens own larger (next outcome bare) (more outcome (bare.widen larger))) :
    Widens own larger (Bare.andThen result next) (Bare.andThen wider more) := by
  obtain ⟨outcome, bare⟩ := result
  rcases widens with ⟨kept, ⟨different, failure, crowded, failed⟩ | same⟩
  · simp only at failed
    rw [failed]
    exact ⟨kept, .inl ⟨different, failure, crowded, rfl⟩⟩
  · rw [same]
    cases outcome with
    | error failure => exact ⟨kept, .inr rfl⟩
    | ok outcome => exact after outcome bare kept

variable (smaller : own ≤ larger)

include smaller

theorem fetch_widens (capacity : bare.capacity = own) (page : PageId) :
    Widens own larger (bare.fetch page, bare)
      ((bare.widen larger).fetch page, bare.widen larger) := by
  refine ⟨capacity, ?_⟩
  have table : (bare.widen larger).table? page.table = bare.table? page.table := rfl
  have drafts : (bare.widen larger).drafts = bare.drafts := rfl
  simp only [fetch, table, drafts]
  cases bare.drafts[page]? with
  | some draft => exact .inr rfl
  | none =>
      cases bare.table? page.table with
      | error error => exact .inr rfl
      | ok table =>
          by_cases filled : bare.isFull = true
          · by_cases different : own = larger
            · rw [← different, ← capacity]
              exact .inr rfl
            · refine .inl ⟨different, .refused (.cacheFull bare.capacity), trivial, ?_⟩
              simp only [filled, if_true]
          · have spacious : ¬ (bare.widen larger).isFull = true := by
              intro full
              have enough : larger ≤ bare.drafts.size := of_decide_eq_true full
              refine filled (decide_eq_true ?_)
              rw [capacity]
              exact Nat.le_trans smaller enough
            simp only [filled, spacious]
            exact .inr rfl

theorem getPage_widens (capacity : bare.capacity = own) (transaction : TransactionId)
    (page : PageId) (access : Access) :
    Widens own larger (bare.getPage transaction page access)
      ((bare.widen larger).getPage transaction page access) := by
  have acquired : Widens own larger (bare.acquire transaction page access.mode)
      ((bare.widen larger).acquire transaction page access.mode) := by
    have locks := (bare.acquire_locks transaction page access.mode).capacity_eq
    refine ⟨locks.trans capacity, .inr ?_⟩
    have asked : (bare.widen larger).locks = bare.locks := rfl
    simp only [acquire, asked]
    split <;> rfl
  rw [getPage_eq, getPage_eq]
  exact acquired.andThen fun _ bare capacity => fetch_widens smaller capacity page

theorem seekAt_widens (capacity : bare.capacity = own) (transaction : TransactionId)
    (page : PageId) :
    Widens own larger (bare.seekAt transaction page)
      ((bare.widen larger).seekAt transaction page) := by
  rw [seekAt_eq, seekAt_eq]
  exact (getPage_widens smaller capacity transaction page .readWrite).andThen
    fun _ _ capacity => .unchanged capacity _

theorem seek_widens (capacity : bare.capacity = own) (table : Table)
    (transaction : TransactionId) (first length : Nat) :
    Widens own larger (bare.seek table transaction first length)
      ((bare.widen larger).seek table transaction first length) := by
  induction length generalizing bare first with
  | zero => exact .unchanged capacity _
  | succ length ih =>
      rw [seek_eq, seek_eq]
      apply (seekAt_widens smaller capacity transaction _).andThen
      intro found bare capacity
      cases found with
      | some vacancy => exact .unchanged capacity _
      | none => exact ih capacity (first + 1)

theorem seekAll_widens (capacity : bare.capacity = own) (transaction : TransactionId)
    (table : Table) :
    Widens own larger (bare.seekAll transaction table)
      ((bare.widen larger).seekAll transaction table) := by
  refine (seek_widens smaller capacity table transaction 0 (bare.counts table.id)).andThen
    fun found bare capacity => ?_
  cases found with
  | some vacancy => exact .unchanged capacity _
  | none =>
      simp only [seekNew_eq]
      have grown : (bare.grow table).capacity = own := capacity
      refine (seekAt_widens smaller grown transaction (bare.nextPage table)).andThen
        fun found bare capacity => ?_
      cases found <;> exact .unchanged capacity _

theorem insert_widens (capacity : bare.capacity = own) (transaction : TransactionId)
    (id : TableId) (row : Row) :
    Widens own larger (bare.insert transaction id row)
      ((bare.widen larger).insert transaction id row) := by
  have known : (bare.widen larger).table? id = bare.table? id := rfl
  rw [insert_eq, insert_eq, known]
  cases bare.table? id with
  | error error => exact .unchanged capacity _
  | ok table =>
      refine Widens.andThen ?_ fun _ _ capacity => ⟨capacity, .inr rfl⟩
      rw [vacancy_eq, vacancy_eq]
      split
      · exact .unchanged capacity _
      · split
        · exact .unchanged capacity _
        · split
          · exact .unchanged capacity _
          · exact seekAll_widens smaller capacity transaction table

/-- An insert that appends with more room appends with less, or is refused for want of room. -/
theorem needs_widens (capacity : bare.capacity = own) {transaction : TransactionId} {id : TableId}
    {table : Table} {row : Row} (known : bare.tables[id]? = some table)
    (needs : Store.Needs (bare.widen larger) table transaction row) :
    (own ≠ larger ∧ ∃ failure : Failure, failure.Crowded ∧
        (bare.insert transaction id row).1 = .error failure) ∨
      Store.Needs bare table transaction row := by
  obtain ⟨counted, agrees, full⟩ := needs
  rcases seek_widens smaller capacity table transaction 0 (bare.counts table.id) with
      ⟨-, ⟨different, failure, crowded, failed⟩ | same⟩
  · refine .inl ⟨different, failure, crowded, ?_⟩
    obtain ⟨slots, count, some⟩ := counted
    have found : bare.table? id = .ok table := by
      rw [table?, known]
    have sought : bare.seek table transaction 0 (bare.counts table.id) =
        (.error failure, (bare.seek table transaction 0 (bare.counts table.id)).2) := by
      rw [← failed]
    rw [insert_eq, found]
    simp only [vacancy_eq, count, if_neg some, agrees, Bool.not_true, Bool.false_eq_true, if_false]
    rw [seekAll, sought]
    rfl
  · refine .inr ⟨counted, agrees, ?_⟩
    have counts : (bare.widen larger).counts = bare.counts := rfl
    rw [counts, same] at full
    exact full

theorem delete_widens (capacity : bare.capacity = own) (transaction : TransactionId)
    (record : Option RecordId) :
    Widens own larger (bare.delete transaction record)
      ((bare.widen larger).delete transaction record) := by
  cases record with
  | none => exact .unchanged capacity _
  | some record =>
      have known : (bare.widen larger).table? record.page.table =
          bare.table? record.page.table := rfl
      rw [delete_eq, delete_eq, known]
      cases bare.table? record.page.table with
      | error error => exact .unchanged capacity _
      | ok table =>
          refine (getPage_widens smaller capacity transaction record.page .readWrite).andThen
            fun slots bare capacity => ?_
          cases Slots.checkTaken slots record.page record <;> exact ⟨capacity, .inr rfl⟩

end Widens

theorem complete_widen (bare : Bare) (larger : Nat) (commits : Bool)
    (transaction : TransactionId) :
    (bare.widen larger).complete commits transaction =
      (bare.complete commits transaction).widen larger := by
  rw [complete_eq, complete_eq]
  cases commits <;> rfl

end Bare

structure BareScan.Widens (own larger : Nat)
    (result wider : Option (Except Failure SeenRow) × BareScan × Bare) : Prop where
  kept : result.2.2.capacity = own
  same : (own ≠ larger ∧
      ∃ failure : Failure, failure.Crowded ∧ result.1 = some (.error failure)) ∨
    wider = (result.1, result.2.1, result.2.2.widen larger)

namespace BareScan

variable {own larger : Nat} {bare : Bare} (smaller : own ≤ larger)

include smaller

theorem advance_widens (capacity : bare.capacity = own) (table : Table)
    (transaction : TransactionId) (first length : Nat) :
    Widens own larger (advance table transaction first length bare)
      (advance table transaction first length (bare.widen larger)) := by
  induction length generalizing bare first with
  | zero => exact ⟨capacity, .inr rfl⟩
  | succ length ih =>
      have widens := Bare.getPage_widens smaller capacity transaction
        (table.page (UInt32.ofNat first)) .readOnly
      unfold advance
      generalize bare.getPage transaction (table.page (UInt32.ofNat first)) .readOnly = result
        at widens ⊢
      obtain ⟨outcome, after⟩ := result
      rcases widens with ⟨kept, ⟨different, failure, crowded, rfl⟩ | same⟩
      · cases failure <;> exact ⟨kept, .inl ⟨different, _, crowded, rfl⟩⟩
      · rw [same]
        cases outcome with
        | error failure => cases failure <;> exact ⟨kept, .inr rfl⟩
        | ok slots =>
            simp only
            cases slots.rows (table.page (UInt32.ofNat first)) with
            | nil => exact ih kept (first + 1)
            | cons row rows => exact ⟨kept, .inr rfl⟩

theorem next_widens (capacity : bare.capacity = own) (scan : BareScan) :
    Widens own larger (scan.next bare) (scan.next (bare.widen larger)) := by
  unfold next
  cases scan.buffered with
  | nil =>
      exact advance_widens smaller capacity scan.table scan.transaction scan.ahead.first
        scan.ahead.length
  | cons row rows => exact ⟨capacity, .inr rfl⟩

end BareScan

namespace BareSystem

variable {system : BareSystem} {larger : Nat}

def widen (system : BareSystem) (capacity : Nat) : BareSystem :=
  { system with bare := system.bare.widen capacity }

theorem after_widens {Outcome : Type} (seen : Except Failure Outcome → Answer)
    (shows : ∀ failure : Failure, failure.Crowded → (seen (.error failure)).Crowded)
    {result wider : Except Failure Outcome × Bare}
    (widens : Bare.Widens system.bare.capacity larger result wider) :
    (system.after seen result).2.bare.capacity = system.bare.capacity ∧
      ((system.bare.capacity ≠ larger ∧ (system.after seen result).1.Crowded) ∨
        (system.widen larger).after seen wider =
          ((system.after seen result).1, (system.after seen result).2.widen larger)) := by
  rcases widens with ⟨kept, ⟨different, failure, crowded, failed⟩ | same⟩
  · refine ⟨kept, .inl ⟨different, ?_⟩⟩
    rw [after, failed]
    exact shows failure crowded
  · refine ⟨kept, .inr ?_⟩
    rw [same]
    rfl

theorem started_widens (name : Nat) (table : Table) (transaction : TransactionId) :
    (system.keep name (BareScan.start table transaction system.bare)).2.bare.capacity =
        system.bare.capacity ∧
      (system.widen larger).keep name
          (BareScan.start table transaction (system.widen larger).bare) =
        ((system.keep name (BareScan.start table transaction system.bare)).1,
          (system.keep name (BareScan.start table transaction system.bare)).2.widen larger) := by
  have started : BareScan.start table transaction (system.widen larger).bare =
      BareScan.start table transaction system.bare := rfl
  rw [started]
  cases BareScan.start table transaction system.bare <;> exact ⟨rfl, rfl⟩

theorem completed_widens (commits : Bool) (transaction : TransactionId) :
    (system.bare.complete commits transaction).capacity = system.bare.capacity ∧
      (system.widen larger).after .written
          ((.ok () : Except StorageError Unit),
            (system.widen larger).bare.complete commits transaction) =
        (.written (.ok ()),
          (system.after .written ((.ok () : Except StorageError Unit),
            system.bare.complete commits transaction)).2.widen larger) := by
  refine ⟨system.bare.capacity_complete commits transaction, ?_⟩
  have same := system.bare.complete_widen larger commits transaction
  exact congrArg (fun bare => (Answer.written (.ok ()), BareSystem.mk bare system.scans)) same

/-- With more room an operation has the same answer and effect, unless it is refused for want of
room. -/
theorem perform_widens (smaller : system.bare.capacity ≤ larger) (operation : Operation) :
    (system.perform operation).2.bare.capacity = system.bare.capacity ∧
      ((system.bare.capacity ≠ larger ∧ (system.perform operation).1.Crowded) ∨
        (system.widen larger).perform operation =
          ((system.perform operation).1, (system.perform operation).2.widen larger)) := by
  cases operation with
  | begin => exact ⟨rfl, .inr rfl⟩
  | get transaction page access =>
      exact after_widens .shown (fun _ crowded => crowded)
        (Bare.getPage_widens smaller rfl transaction page access)
  | insert transaction table row =>
      exact after_widens .placed (fun _ crowded => crowded)
        (Bare.insert_widens smaller rfl transaction table row)
  | delete transaction record =>
      exact after_widens .deleted (fun _ crowded => crowded)
        (Bare.delete_widens smaller rfl transaction record)
  | scan name transaction table =>
      have known : (system.widen larger).bare.table? table = system.bare.table? table := rfl
      simp only [perform, known]
      cases system.bare.table? table with
      | error error => exact ⟨rfl, .inr rfl⟩
      | ok table =>
          obtain ⟨kept, same⟩ := started_widens name table transaction
          exact ⟨kept, .inr same⟩
  | next name =>
      have scans : (system.widen larger).scans = system.scans := rfl
      simp only [perform, scans]
      cases system.scans name with
      | none => exact ⟨rfl, .inr rfl⟩
      | some scan =>
          rcases BareScan.next_widens smaller rfl scan with
              ⟨kept, ⟨different, failure, crowded, failed⟩ | same⟩
          · refine ⟨kept, .inl ⟨different, ?_⟩⟩
            simp only [stepped, failed]
            exact crowded
          · refine ⟨kept, .inr ?_⟩
            simp only [widen, same]
            rfl
  | rewind name =>
      have scans : (system.widen larger).scans = system.scans := rfl
      simp only [perform, scans]
      cases system.scans name with
      | none => exact ⟨rfl, .inr rfl⟩
      | some scan =>
          obtain ⟨kept, same⟩ := started_widens name scan.table scan.transaction
          exact ⟨kept, .inr same⟩
  | evict => exact ⟨rfl, .inr rfl⟩
  | commit transaction =>
      obtain ⟨kept, same⟩ := completed_widens true transaction
      exact ⟨kept, .inr same⟩
  | abort transaction =>
      obtain ⟨kept, same⟩ := completed_widens false transaction
      exact ⟨kept, .inr same⟩
  | release transaction page => exact ⟨rfl, .inr rfl⟩
  | discard page => exact ⟨rfl, .inr rfl⟩
  | flush transaction =>
      simp only [perform, Bare.flushEach_eq]
      exact ⟨rfl, .inr rfl⟩
  | flushAll => exact ⟨rfl, .inr rfl⟩

end BareSystem

end RecordStore
