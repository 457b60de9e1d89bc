import RecordStore.Proofs.Store.Ledger

set_option autoImplicit false

/-! Durability: in every state of a run the files store the records of the start with the changes of
the committed transactions in commit order, and no commit has failed. -/

namespace RecordStore

/-! ### Pages that can be read -/

/-- Every page of every table can be read from its file. -/
def Store.Decodes (store : Store) : Prop :=
  ∀ (page : PageId) (table : Table), store.tables[page.table]? = some table →
    page.number.toNat < table.pages.wholePages store.directory →
    ∃ found, table.readPage store.directory page = .ok found

theorem Store.whole_bare_iff (store : Store) : store.bare.Whole ↔ store.Decodes := by
  constructor
  · intro whole page table known inside
    have counted : page.number.toNat < store.counts page.table := by
      rw [store.counts_of_table known]
      exact inside
    obtain ⟨slots, written⟩ := whole page counted
    have shown : store.written page = .ok slots := written
    rw [store.written_of_table known, Table.written] at shown
    cases read : table.readPage store.directory page with
    | error failure => simp [read, Except.map] at shown
    | ok found => exact ⟨found, rfl⟩
  · intro decodes page inside
    have counted : page.number.toNat < store.counts page.table := inside
    cases known : store.tables[page.table]? with
    | none =>
        rw [Store.counts, known] at counted
        exact absurd counted (Nat.not_lt_zero _)
    | some table =>
        rw [store.counts_of_table known] at counted
        obtain ⟨found, read⟩ := decodes page table known counted
        refine ⟨found.contents, ?_⟩
        have shown := store.written_of_table known
        rw [Table.written, read] at shown
        exact shown

namespace Bare.Whole

theorem perform {system : BareSystem} (whole : system.bare.Whole)
    (consistent : system.bare.locks.table.Consistent) {operation : Operation}
    (ordinary : operation.Ordinary) : (system.perform operation).2.bare.Whole := by
  cases operation with
  | begin => exact whole.of_same rfl rfl
  | get transaction page access =>
      exact whole.lockMore (system.bare.getPage_locks transaction page access)
  | insert transaction id row => exact whole.insert id row
  | delete transaction record => exact whole.delete record
  | scan name transaction id =>
      rw [BareSystem.bare_scan]
      exact whole
  | next name =>
      obtain ⟨reader, locks⟩ := system.next_locks name
      exact whole.lockMore locks
  | rewind name =>
      rw [BareSystem.bare_rewind]
      exact whole
  | evict => exact whole
  | commit transaction => exact whole.complete consistent true transaction
  | abort transaction => exact whole.complete consistent false transaction
  | release transaction page => exact ordinary.elim
  | discard page => exact ordinary.elim
  | flush transaction => exact ordinary.elim
  | flushAll => exact ordinary.elim

end Bare.Whole

namespace System

variable {start system : System} {history : List Event}

theorem Run.whole (run : Run Operation.Ordinary start history system) (fresh : start.Fresh)
    (whole : start.store.bare.Whole) : system.store.bare.Whole := by
  induction run with
  | start => exact whole
  | @step history system operation earlier ordinary countable ih =>
      have coherent := earlier.coherent fresh.coherent
      have follows := coherent.perform_of_countable operation countable
      have bareIs := follows.store_bare
      rw [bareIs]
      exact @Bare.Whole.perform system.bare ih (earlier.keeps fresh).consistent operation ordinary

/-! ### Ends of transactions -/

/-- A commit or abort without an error. -/
def Event.Ended (event : Event) : Prop :=
  ∀ transaction, event.operation = .commit transaction ∨ event.operation = .abort transaction →
    ∃ done, event.answer = .written (.ok done)

theorem Coherent.ended (coherent : system.Coherent) (operation : Operation)
    (countable : (system.perform operation).2.store.Countable) :
    Event.Ended ⟨operation, (system.perform operation).1⟩ := by
  have answered := (coherent.perform_of_countable operation countable).answered
  rintro transaction (rfl | rfl)
  · exact ⟨(), answered⟩
  · exact ⟨(), answered⟩

theorem Run.ended {allowed : Operation → Prop} (run : Run allowed start history system)
    (coherent : start.Coherent) : ∀ event, event ∈ history → Event.Ended event := by
  induction run with
  | start =>
      intro event member
      cases member
  | step operation earlier permitted countable ih =>
      intro event member
      rw [List.mem_append, List.mem_singleton] at member
      rcases member with before | rfl
      · exact ih event before
      · exact (earlier.coherent coherent).ended operation countable

/-! ### What the files hold -/

/-- In every state of an `Ordinary` run the files decode and store the records of the start with the
changes of the committed transactions in commit order, and no commit or abort has failed. -/
theorem stored_eq_committed (fresh : start.Fresh) (decodes : start.store.Decodes)
    (run : Run Operation.Ordinary start history system) :
    system.store.Decodes ∧
      system.store.stored = (Ledger.after start.store.stored history).committed ∧
      ∀ event, event ∈ history → Event.Ended event := by
  have coherent := run.coherent fresh.coherent
  refine ⟨?_, ?_, run.ended fresh.coherent⟩
  · rw [← Store.whole_bare_iff] at decodes ⊢
    exact run.whole fresh decodes
  · rw [← coherent.store.stored_bare]
    exact (run.keeps fresh).stored

theorem small_decodes : small.store.Decodes := by
  intro page table known inside
  have tables : small.store.tables =
      (∅ : Std.ExtTreeMap TableId Table).insert numbers.id numbers := rfl
  rw [tables, lookup_insert, Std.ExtTreeMap.getElem?_empty] at known
  split at known
  · next own =>
      cases known
      have count : numbers.pages.wholePages small.store.directory = 1 := by decide +kernel
      cases page with
      | mk id number =>
          have first : number = 0 := by
            apply UInt32.toNat_inj.mp
            rw [count] at inside
            exact Nat.lt_one_iff.mp inside
          subst own first
          exact ⟨_, rfl⟩
  · cases known

/-- One transaction commits, and another that timed out waiting for it does not. -/
theorem stored_eq_committed_small :
    ∃ history system, small.Fresh ∧ small.store.Decodes ∧
      Run Operation.Ordinary small history system ∧ system.store.Decodes ∧
      system.store.stored = (Ledger.after small.store.stored history).committed ∧
      (∀ event, event ∈ history → Event.Ended event) ∧
      system.store.stored ⟨numbers.page 0, 0⟩ = some [.int 5] ∧
      system.store.stored ⟨numbers.page 1, 0⟩ = none := by
  have run := Run.step (.insert ⟨1⟩ ⟨7⟩ ⟨numbers.schema, [.int 5], none, rfl⟩)
    (.start : Run Operation.Ordinary small [] small) trivial
    (Store.countable_single rfl (by decide +kernel))
  have run := Run.step (.insert ⟨2⟩ ⟨7⟩ ⟨numbers.schema, [.int 6], none, rfl⟩) run trivial
    (Store.countable_single rfl (by decide +kernel))
  have run := Run.step (.commit ⟨1⟩) run trivial
    (Store.countable_single rfl (by decide +kernel))
  have run := Run.step (.insert ⟨2⟩ ⟨7⟩ ⟨numbers.schema, [.int 6], none, rfl⟩) run trivial
    (Store.countable_single rfl (by decide +kernel))
  have run := Run.step (.abort ⟨2⟩) run trivial
    (Store.countable_single rfl (by decide +kernel))
  obtain ⟨decodes, stored, ended⟩ := stored_eq_committed small_fresh small_decodes run
  exact ⟨_, _, small_fresh, small_decodes, run, decodes, stored, ended, rfl, rfl⟩

end System

end RecordStore
