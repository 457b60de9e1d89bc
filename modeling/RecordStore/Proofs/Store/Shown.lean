import RecordStore.Proofs.Store.Isolation

set_option autoImplicit false

/-! As long as a transaction neither ends nor changes a table itself, no other transaction changes a
page of the table that it has been shown or appends a page to the table. -/

namespace RecordStore

namespace Bare

def contents? (bare : Bare) (page : PageId) : Option Slots :=
  match bare.drafts[page]? with
  | some draft => some draft.slots
  | none => (bare.written page).toOption

def shown (bare : Bare) (page : PageId) : List SeenRow :=
  (bare.contents? page).elim [] fun slots => slots.rows page

structure Steady (transaction : TransactionId) (id : TableId) (before after : Bare) : Prop where
  held : ∀ page : PageId, page.table = id → (before.locks.modeOf transaction page).isSome →
    (after.locks.modeOf transaction page).isSome
  shown : ∀ page : PageId, page.table = id → (before.locks.modeOf transaction page).isSome →
    after.shown page = before.shown page
  grown : before.counts id ≤ after.counts id

structure Stays (transaction : TransactionId) (id : TableId) (before after : Bare) : Prop
    extends Steady transaction id before after where
  closed : ∀ page : PageId, page.table = id → page.number.toNat < before.counts id →
    (before.locks.modeOf transaction page).isSome → after.counts id = before.counts id

variable {transaction other : TransactionId} {id : TableId} {bare after : Bare} {page : PageId}

theorem contents?_of_fetch {slots : Slots} (fetched : bare.fetch page = .ok slots) :
    bare.contents? page = some slots := by
  unfold fetch at fetched
  unfold contents?
  cases drafted : bare.drafts[page]? with
  | some draft =>
      simp only [drafted, Except.ok.injEq] at fetched
      exact congrArg some fetched
  | none =>
      simp only [drafted] at fetched
      split at fetched
      · cases fetched
      · split at fetched
        · cases fetched
        · simp only [fetched, Except.toOption]

theorem rows_of_fetch {slots : Slots} (fetched : bare.fetch page = .ok slots) :
    slots.rows page = bare.shown page := by
  rw [shown, contents?_of_fetch fetched]
  rfl

theorem place_of_shown {row : SeenRow} (member : row ∈ bare.shown page) :
    ∃ slot, row.1 = some ⟨page, slot⟩ := by
  unfold shown at member
  cases present : bare.contents? page with
  | none =>
      rw [present] at member
      cases member
  | some slots =>
      rw [present] at member
      exact Slots.place_of_mem_rows member

theorem contents?_congr (drafts : after.drafts[page]? = bare.drafts[page]?)
    (written : after.written page = bare.written page) :
    after.contents? page = bare.contents? page := by
  rw [contents?, contents?, drafts, written]

theorem shown_congr (same : after.contents? page = bare.contents? page) :
    after.shown page = bare.shown page := by
  rw [shown, shown, same]

theorem LocksMore.contents?_eq (locks : LocksMore other bare after) (page : PageId) :
    after.contents? page = bare.contents? page :=
  contents?_congr (by rw [locks.drafts_eq]) (by rw [locks.written_eq])

theorem LocksMore.shown_eq (locks : LocksMore other bare after) (page : PageId) :
    after.shown page = bare.shown page := shown_congr (locks.contents?_eq page)

theorem rowsFrom_replicate (page : PageId) (slot count : Nat) :
    Slots.rowsFrom page slot (List.replicate count none) = [] := by
  induction count generalizing slot with
  | zero => rfl
  | succ count ih => exact ih (slot + 1)

theorem contents?_grow_other {table : Table} (different : page ≠ bare.nextPage table) :
    (bare.grow table).contents? page = bare.contents? page := by
  apply contents?_congr
  · rfl
  · exact if_neg different

/-- An appended page shows no rows, as a missing one. -/
theorem shown_grow {table : Table} {failure : Failure}
    (missing : bare.written (bare.nextPage table) = .error failure) (page : PageId) :
    (bare.grow table).shown page = bare.shown page := by
  by_cases last : page = bare.nextPage table
  · subst last
    have drafts : (bare.grow table).drafts = bare.drafts := rfl
    rw [shown, shown, contents?, contents?, drafts, missing]
    cases bare.drafts[bare.nextPage table]? with
    | some draft => rfl
    | none =>
        simp only [grow, write, if_true]
        exact rowsFrom_replicate _ _ _
  · exact shown_congr (contents?_grow_other last)

theorem contents?_change_other {place : PageId} (different : page ≠ place) (slots : Slots) :
    (bare.change other page slots).contents? place = bare.contents? place := by
  apply contents?_congr
  · simp only [change, lookup_insert, if_neg different]
  · rfl

/-! ### One change -/

namespace Steady

variable {middle : Bare}

theorem refl (transaction : TransactionId) (id : TableId) (bare : Bare) :
    Steady transaction id bare bare := by
  constructor
  · intro page here held
    exact held
  · intro page here held
    rfl
  · exact Nat.le_refl _

theorem trans (earlier : Steady transaction id bare middle)
    (later : Steady transaction id middle after) : Steady transaction id bare after := by
  constructor
  · intro page here held
    exact later.held page here (earlier.held page here held)
  · intro page here held
    rw [later.shown page here (earlier.held page here held), earlier.shown page here held]
  · exact Nat.le_trans earlier.grown later.grown

theorem of_locks (transaction : TransactionId) (id : TableId)
    (locks : LocksMore other bare after) : Steady transaction id bare after := by
  constructor
  · intro page here held
    by_cases own : transaction = other
    · subst own
      exact locks.strengthens.held page held
    · rwa [locks.strengthens.others transaction page own]
  · intro page here held
    exact locks.shown_eq page
  · exact Nat.le_of_eq (congrFun locks.counts_eq id).symm

theorem grow {table : Table} {failure : Failure}
    (missing : bare.written (bare.nextPage table) = .error failure) :
    Steady transaction id bare (bare.grow table) := by
  constructor
  · intro page here held
    exact held
  · intro page here held
    exact shown_grow missing page
  · simp only [Bare.grow]
    split
    · exact Nat.le_succ _
    · exact Nat.le_refl _

/-- A change of a page held exclusively by another transaction, or of another table, is `Steady`. -/
theorem change (exclusive : bare.locks.modeOf other page = some .exclusive)
    (apart : other ≠ transaction ∨ page.table ≠ id) (slots : Slots) :
    Steady transaction id bare (bare.change other page slots) := by
  constructor
  · intro place here held
    exact held
  · intro place here held
    have elsewhere : page ≠ place := by
      rintro rfl
      rcases apart with different | there
      · exact different (LockTable.alone_of_exclusive exclusive held).symm
      · exact there here
    exact shown_congr (contents?_change_other elsewhere slots)
  · exact Nat.le_refl _

/-- The `complete` of another transaction is `Steady`. -/
theorem complete {ledger : Ledger} (keeps : bare.Keeps ledger) (different : other ≠ transaction)
    (commits : Bool) : Steady transaction id bare (bare.complete commits other) := by
  have consistent := keeps.consistent
  constructor
  · intro page here held
    rwa [modeOf_complete consistent, if_neg different.symm]
  · intro page here held
    have unheld : ∀ draft, bare.drafts[page]? = some draft →
        ¬ (bare.locks.modeOf other page).isSome := by
      intro draft drafted also
      exact different ((keeps.own_draft drafted also).symm.trans (keeps.own_draft drafted held))
    apply shown_congr
    apply contents?_congr
    · rw [drafts_complete consistent]
      cases drafted : bare.drafts[page]? with
      | none => exact ite_self _
      | some draft => exact if_neg (unheld draft drafted)
    · cases commits with
      | false => rw [written_abort]
      | true =>
          rw [written_commit consistent]
          cases drafted : bare.drafts[page]? with
          | none => rfl
          | some draft => exact if_neg (unheld draft drafted)
  · rw [complete_eq]
    cases commits <;> exact Nat.le_refl _

end Steady

/-! ### One operation -/

/-- An insert that appends a page has locked all pages of the table before it. -/
theorem insert_counts (bare : Bare) (other : TransactionId) (target : TableId) (row : Row) :
    (bare.insert other target row).2.counts = bare.counts ∨
      ∃ table, bare.tables[target]? = some table ∧
        (bare.insert other target row).2.counts = (bare.grow table).counts ∧
        ∀ earlier, earlier < bare.counts table.id →
          (bare.insert other target row).2.locks.modeOf other
            (table.page (UInt32.ofNat earlier)) = some .exclusive := by
  rcases done : bare.insert other target row with ⟨failure | record, after⟩
  · rcases insert_error done with locks | ⟨table, known, -, passed, locks⟩
    · exact .inl locks.counts_eq
    · refine .inr ⟨table, known, locks.counts_eq, ?_⟩
      intro earlier below
      exact (passed earlier below).1
  · obtain ⟨table, number, base, middle, slots, known, inserted, rfl⟩ := insert_ok done
    have counts := inserted.roomy.locks.counts_eq
    rcases inserted.baseIs with ⟨rfl, -⟩ | ⟨rfl, rfl⟩
    · exact .inl counts
    · refine .inr ⟨table, known, counts, ?_⟩
      intro earlier below
      exact (inserted.passed earlier below).1

section Insert

variable {target : TableId} (apart : other ≠ transaction ∨ target ≠ id)
  (keyed : ∀ table, bare.tables[target]? = some table → table.id = target)

include apart keyed

theorem Steady.insert (row : Row)
    (fresh : ∀ table, bare.tables[target]? = some table →
      ∃ failure, bare.written (bare.nextPage table) = .error failure) :
    Steady transaction id bare (bare.insert other target row).2 := by
  rcases done : bare.insert other target row with ⟨failure | record, after⟩
  · rcases insert_error done with locks | ⟨table, known, -, -, locks⟩
    · exact .of_locks transaction id locks
    · obtain ⟨failure, missing⟩ := fresh table known
      exact (Steady.grow missing).trans (.of_locks transaction id locks)
  · obtain ⟨table, number, base, middle, slots, known, inserted, rfl⟩ := insert_ok done
    have based : Steady transaction id bare base := by
      rcases inserted.baseIs with ⟨rfl, -⟩ | ⟨rfl, -⟩
      · exact .refl transaction id _
      · obtain ⟨failure, missing⟩ := fresh table known
        exact .grow missing
    have locked : Steady transaction id base middle :=
      .of_locks transaction id inserted.roomy.locks
    refine (based.trans locked).trans (.change inserted.roomy.exclusive ?_ _)
    rcases apart with different | elsewhere
    · exact .inl different
    · apply Or.inr
      rw [inserted.pageIs]
      exact fun here => elsewhere ((keyed table known).symm.trans here)

theorem Stays.insert (row : Row)
    (fresh : ∀ table, bare.tables[target]? = some table →
      ∃ failure, bare.written (bare.nextPage table) = .error failure) :
    Stays transaction id bare (bare.insert other target row).2 := by
  have steady : Steady transaction id bare (bare.insert other target row).2 :=
    Steady.insert apart keyed row fresh
  refine ⟨steady, ?_⟩
  intro page here inside held
  rcases bare.insert_counts other target row with same | ⟨table, known, grown, passed⟩
  · rw [same]
  · rw [grown]
    by_cases there : id = table.id
    · subst there
      rcases apart with different | elsewhere
      · -- the page would be held by two transactions, and by one of them to write
        have exclusive := passed page.number.toNat inside
        have pageIs : table.page (UInt32.ofNat page.number.toNat) = page := by
          rw [Table.page, ← here, UInt32.ofNat_toNat]
        rw [pageIs] at exclusive
        have both := LockTable.alone_of_exclusive exclusive (steady.held page here held)
        exact absurd both.symm different
      · exact absurd (keyed table known).symm elsewhere
    · exact if_neg there

end Insert

namespace Stays

variable {middle : Bare}

theorem of_same (steady : Steady transaction id bare after)
    (counts : after.counts = bare.counts) : Stays transaction id bare after :=
  ⟨steady, fun _ _ _ _ => by rw [counts]⟩

theorem refl (transaction : TransactionId) (id : TableId) (bare : Bare) :
    Stays transaction id bare bare := of_same (.refl transaction id bare) rfl

theorem trans (earlier : Stays transaction id bare middle)
    (later : Stays transaction id middle after) : Stays transaction id bare after := by
  refine ⟨earlier.toSteady.trans later.toSteady, ?_⟩
  intro page here inside held
  have same := earlier.closed page here inside held
  rw [← same] at inside
  rw [later.closed page here inside (earlier.held page here held), same]

theorem of_locks (transaction : TransactionId) (id : TableId)
    (locks : LocksMore other bare after) : Stays transaction id bare after :=
  of_same (.of_locks transaction id locks) locks.counts_eq

theorem delete {record : Option RecordId}
    (apart : ∀ place, record = some place → other ≠ transaction ∨ place.page.table ≠ id) :
    Stays transaction id bare (bare.delete other record).2 := by
  rcases done : bare.delete other record with ⟨failure | nothing, after⟩
  · exact of_locks transaction id (delete_error done)
  · obtain ⟨place, middle, slots, same, -, locks, exclusive, -, -, rfl⟩ := delete_ok done
    exact (of_locks transaction id locks).trans
      (of_same (.change exclusive (apart place same) _) rfl)

theorem complete {ledger : Ledger} (keeps : bare.Keeps ledger) (different : other ≠ transaction)
    (commits : Bool) : Stays transaction id bare (bare.complete commits other) := by
  apply of_same (Steady.complete keeps different commits)
  rw [complete_eq]
  cases commits <;> rfl

end Stays

end Bare

def Operation.Spares (transaction : TransactionId) (id : TableId) : Operation → Prop
  | .insert other table _ => other ≠ transaction ∨ table ≠ id
  | .delete other (some record) => other ≠ transaction ∨ record.page.table ≠ id
  | .commit other => other ≠ transaction
  | .abort other => other ≠ transaction
  | _ => True

theorem Bare.Keeps.stays {system : BareSystem} {ledger : Ledger} {transaction : TransactionId}
    {id : TableId} (keeps : system.bare.Keeps ledger) {operation : Operation}
    (ordinary : operation.Ordinary) (spares : operation.Spares transaction id)
    (keyed : ∀ (id : TableId) (table : Table), system.bare.tables[id]? = some table →
      table.id = id)
    (fresh : ∀ (id : TableId) (table : Table), system.bare.tables[id]? = some table →
      ∃ failure, system.bare.written (system.bare.nextPage table) = .error failure) :
    Bare.Stays transaction id system.bare (system.perform operation).2.bare := by
  cases operation with
  | begin =>
      apply Bare.Stays.of_same
      · constructor
        · intro page here held
          exact held
        · intro page here held
          rfl
        · exact Nat.le_refl _
      · rfl
  | get other page access => exact .of_locks transaction id (system.bare.getPage_locks _ _ _)
  | insert other target row => exact .insert spares (keyed target) row (fresh target)
  | delete other record =>
      apply Bare.Stays.delete
      rintro place rfl
      exact spares
  | scan name other target =>
      rw [BareSystem.bare_scan]
      exact .refl transaction id _
  | next name =>
      obtain ⟨reader, locks⟩ := system.next_locks name
      exact .of_locks transaction id locks
  | rewind name =>
      rw [BareSystem.bare_rewind]
      exact .refl transaction id _
  | evict => exact .refl transaction id _
  | commit other => exact .complete keeps spares true
  | abort other => exact .complete keeps spares false
  | release other page => exact ordinary.elim
  | discard page => exact ordinary.elim
  | flush other => exact ordinary.elim
  | flushAll => exact ordinary.elim

/-! ### Runs -/

namespace System

structure Kept (system : System) : Prop where
  coherent : system.Coherent
  keeps : ∃ ledger, system.store.bare.Keeps ledger

variable {start system : System} {history : List Event}

theorem Kept.perform (kept : system.Kept) {operation : Operation} (ordinary : operation.Ordinary)
    (countable : (system.perform operation).2.store.Countable) :
    (system.perform operation).2.Kept := by
  obtain ⟨ledger, keeps⟩ := kept.keeps
  have follows := kept.coherent.perform_of_countable operation countable
  exact ⟨follows.coherent, _, kept.coherent.keeps_perform keeps ordinary countable⟩

theorem Run.kept {allowed : Operation → Prop} (run : Run allowed start history system)
    (ordinary : ∀ operation, allowed operation → operation.Ordinary) (kept : start.Kept) :
    system.Kept := by
  induction run with
  | start => exact kept
  | step operation earlier member countable ih =>
      exact ih.perform (ordinary operation member) countable

theorem Fresh.kept (fresh : start.Fresh) : start.Kept := ⟨fresh.coherent, _, fresh.keeps⟩

/-- The transaction reads the table: it neither ends nor changes it. -/
def Undisturbed (transaction : TransactionId) (id : TableId) (operation : Operation) : Prop :=
  operation.Ordinary ∧ operation.Spares transaction id

variable {transaction : TransactionId} {id : TableId}

theorem Kept.stays (kept : system.Kept) {operation : Operation}
    (undisturbed : Undisturbed transaction id operation)
    (countable : (system.perform operation).2.store.Countable) :
    Bare.Stays transaction id system.store.bare (system.perform operation).2.store.bare := by
  obtain ⟨ledger, keeps⟩ := kept.keeps
  rw [(kept.coherent.perform_of_countable operation countable).store_bare]
  exact @Bare.Keeps.stays system.bare ledger transaction id keeps operation undisturbed.1
    undisturbed.2 kept.coherent.store.distinct.keyed kept.coherent.written_next

theorem Run.stays (run : Run (Undisturbed transaction id) start history system)
    (kept : start.Kept) :
    Bare.Stays transaction id start.store.bare system.store.bare := by
  induction run with
  | start => exact .refl transaction id _
  | step operation earlier undisturbed countable ih =>
      have between := earlier.kept (fun _ => And.left) kept
      exact ih.trans (between.stays undisturbed countable)

end System

end RecordStore
