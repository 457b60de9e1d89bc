import RecordStore.Proofs.Store.Custody

set_option autoImplicit false

/-! The end of a transaction by `commit`, `abort` or drop, also if writing fails. It has no locks
and no dirty pages afterwards; locks of others, pages it has not dirtied and bytes outside its pages
are unchanged. -/

namespace RecordStore

inductive Finish where
  | commit
  | abort
  | drop
  deriving DecidableEq, Repr

namespace Finish

def commits : Finish → Bool
  | .commit => true
  | .abort | .drop => false

def apply (finish : Finish) (transaction : TransactionId) (store : Store) : Store :=
  match finish with
  | .commit => (store.commit transaction).2
  | .abort => (store.abort transaction).2
  | .drop => (⟨transaction, false⟩ : Transaction).drop store

theorem apply_eq (finish : Finish) (transaction : TransactionId) (store : Store) :
    finish.apply transaction store = (store.complete finish.commits transaction).2 := by
  cases finish <;> rfl

end Finish

namespace Store

variable {store after : Store} {transaction owner : TransactionId} {page : PageId}
  {cached : PageCopy} {file : FileId} {offset : Nat} {byte : UInt8} {commits : Bool}

/-! ### The bytes of the files -/

/-- The copy is dirty, and the byte at this offset of the file belongs to its page. -/
def Spans (store : Store) (cached : PageCopy) (file : FileId) (offset : Nat) : Prop :=
  cached.isClean = false ∧ ∃ table, store.tables[cached.page.id.table]? = some table ∧
    table.pages.Spans cached.page.id.number.toNat file offset

theorem tables_flush (flushed : store.flush page cached = .ok after) :
    after.tables = store.tables := by
  rcases flush_ok flushed with ⟨-, rfl⟩ | ⟨-, table, directory, -, -, -, rfl⟩
  · rfl
  · rfl

theorem byteAt?_flush (flushed : store.flush page cached = .ok after)
    (present : store.directory.byteAt? file offset = some byte)
    (outside : ¬ store.Spans cached file offset) :
    after.directory.byteAt? file offset = some byte := by
  rcases flush_ok flushed with ⟨-, rfl⟩ | ⟨dirty, table, directory, known, -, written, rfl⟩
  · exact present
  · exact PageFile.byteAt?_write written present fun spans => outside ⟨dirty, table, known, spans⟩

theorem Settled.settlePage_eq (settled : store.Settled page) (commits : Bool) :
    store.settlePage commits page = (none, store) := by
  unfold settlePage
  cases present : store.cache[page]? with
  | none => rfl
  | some cached => simp only [settled cached present, if_true]

theorem tables_settlePage (store : Store) (commits : Bool) (page : PageId) :
    (store.settlePage commits page).2.tables = store.tables := by
  unfold settlePage
  split
  · rfl
  · next cached present =>
      split
      · rfl
      · split
        · unfold commitPage
          split
          · next flushed => exact tables_flush flushed
          · rfl
        · rfl

theorem byteAt?_settlePage (commits : Bool) (page : PageId)
    (present : store.directory.byteAt? file offset = some byte)
    (outside : ∀ cached, store.cache[page]? = some cached → ¬ store.Spans cached file offset) :
    (store.settlePage commits page).2.directory.byteAt? file offset = some byte := by
  unfold settlePage
  split
  · exact present
  · next cached found =>
      split
      · exact present
      · split
        · unfold commitPage
          split
          · next flushed => exact byteAt?_flush flushed present (outside cached found)
          · exact present
        · exact present

theorem tables_settlePages (store : Store) (commits : Bool) (transaction : TransactionId)
    (pages : List PageId) :
    (store.settlePages commits transaction pages).2.tables = store.tables := by
  induction pages generalizing store with
  | nil => rfl
  | cons page pages ih =>
      rw [settlePages_cons, ih]
      exact store.tables_settlePage commits page

theorem byteAt?_settlePages (commits : Bool) (transaction : TransactionId) (pages : List PageId)
    (present : store.directory.byteAt? file offset = some byte)
    (outside : ∀ page ∈ pages, ∀ cached, store.cache[page]? = some cached →
      ¬ store.Spans cached file offset) :
    (store.settlePages commits transaction pages).2.directory.byteAt? file offset = some byte := by
  induction pages generalizing store with
  | nil => exact present
  | cons page pages ih =>
      rw [settlePages_cons]
      have kept := byteAt?_settlePage commits page present (outside page List.mem_cons_self)
      apply @ih ((store.settlePage commits page).2.releasePage transaction page) kept
      -- A page that is dirty by then was dirty at the start, under the same table.
      intro other member cached found spans
      rcases (store.settles_settlePage commits page).cleans.copies other cached found with
        before | clean
      · refine outside other (List.mem_cons_of_mem page member) cached before ?_
        rw [Spans, ← store.tables_settlePage commits page]
        exact spans
      · rw [spans.1] at clean
        cases clean

theorem Settled.lookup_settlePages (settled : store.Settled page) (commits : Bool)
    (transaction : TransactionId) (pages : List PageId) :
    (store.settlePages commits transaction pages).2.cache[page]? = store.cache[page]? := by
  induction pages generalizing store with
  | nil => rfl
  | cons first pages ih =>
      have kept : (store.settlePage commits first).2.cache[page]? = store.cache[page]? := by
        by_cases same : first = page
        · subst same
          rw [settled.settlePage_eq]
        · exact (store.settles_settlePage commits first).lookup_other same
      rw [settlePages_cons, ih]
      · exact kept
      · intro cached present
        exact settled cached (kept.symm.trans present)

theorem directory_settlePages_abort (store : Store) (transaction : TransactionId)
    (pages : List PageId) :
    (store.settlePages false transaction pages).2.directory = store.directory := by
  induction pages generalizing store with
  | nil => rfl
  | cons page pages ih =>
      rw [settlePages_cons, ih]
      change (store.settlePage false page).2.directory = store.directory
      unfold settlePage
      split
      · rfl
      · split <;> rfl

/-! ### Ended transactions -/

def Dirtied (store : Store) (transaction : TransactionId) (page : PageId) : Prop :=
  ∃ cached, store.cache[page]? = some cached ∧ cached.page.dirtier = some transaction

/-- The transaction has no lock, no index entry and no dirty page left. Everything else is as
before, except that its dirty pages are written or dropped. -/
structure Ended (before after : Store) (transaction : TransactionId) : Prop where
  unlocked : ∀ page, after.locks.modeOf transaction page = none
  unindexed : after.locks.table.held[transaction]? = none
  undirtied : ∀ page, ¬ after.Dirtied transaction page
  locks : ∀ other, other ≠ transaction → ∀ page,
    after.locks.modeOf other page = before.locks.modeOf other page
  index : ∀ other, other ≠ transaction →
    after.locks.table.pagesOf other = before.locks.table.pagesOf other
  unheld : ∀ page, before.locks.modeOf transaction page = none →
    after.cache[page]? = before.cache[page]?
  undirty : ∀ page, ¬ before.Dirtied transaction page → after.cache[page]? = before.cache[page]?
  bytes : ∀ (file : FileId) (offset : Nat) (byte : UInt8),
    before.directory.byteAt? file offset = some byte →
    (∀ (page : PageId) (cached : PageCopy), before.cache[page]? = some cached →
      cached.page.dirtier = some transaction → ¬ before.Spans cached file offset) →
    after.directory.byteAt? file offset = some byte
  tables : after.tables = before.tables

theorem held_complete (store : Store) (commits : Bool) (transaction : TransactionId) :
    (store.complete commits transaction).2.locks.table.held[transaction]? = none := by
  rw [Store.complete_eq, LockService.table_releaseAll, LockTable.releaseAll,
    LockTable.held_dropAll, lookup_erase, if_pos rfl]

namespace Custody

variable (custody : store.Custody) (commits : Bool) (transaction : TransactionId)

include custody

theorem modeOf_complete (other : TransactionId) (page : PageId) :
    (store.complete commits transaction).2.locks.modeOf other page =
      if other = transaction then none else store.locks.modeOf other page := by
  have settled := custody.settlePages commits transaction (store.locks.table.pagesOf transaction)
  rw [Store.complete_eq, LockService.modeOf, LockService.table_releaseAll,
    LockTable.modeOf_releaseAll settled.consistent]
  by_cases own : other = transaction
  · rw [if_pos own, if_pos own]
  · rw [if_neg own, if_neg own, locks_settlePages]
    exact LockService.modeOf_foldl_release _ _ _ _ _ own

theorem pagesOf_complete {other : TransactionId} (different : other ≠ transaction) :
    (store.complete commits transaction).2.locks.table.pagesOf other =
      store.locks.table.pagesOf other := by
  have after := (custody.complete commits transaction).consistent
  have same : (store.complete commits transaction).2.locks.table.heldPages other =
      store.locks.table.heldPages other := by
    apply Std.ExtTreeSet.ext_mem
    intro page
    have modes := custody.modeOf_complete commits transaction other page
    rw [if_neg different] at modes
    rw [after.indexed, custody.consistent.indexed]
    exact iff_of_eq (congrArg (fun mode => (Option.isSome mode : Prop)) modes)
  rw [LockTable.pagesOf, same, LockTable.pagesOf]

/-- A page that the transaction has not dirtied stays cached as it is. -/
theorem lookup_complete_undirty (undirty : ¬ store.Dirtied transaction page) :
    (store.complete commits transaction).2.cache[page]? = store.cache[page]? := by
  by_cases listed : page ∈ store.locks.table.pagesOf transaction
  · have settled : store.Settled page := by
      intro cached present
      rw [cached.isClean_iff]
      cases dirtied : cached.page.dirtier with
      | none => rfl
      | some owner =>
          cases custody.owns transaction page listed cached owner present dirtied
          exact absurd ⟨cached, present, dirtied⟩ undirty
    rw [Store.complete_eq]
    exact settled.lookup_settlePages commits transaction _
  · exact store.lookup_complete commits transaction listed

/-- Only bytes of pages dirtied by the transaction change when it completes. -/
theorem byteAt?_complete (present : store.directory.byteAt? file offset = some byte)
    (outside : ∀ (page : PageId) (cached : PageCopy), store.cache[page]? = some cached →
      cached.page.dirtier = some transaction → ¬ store.Spans cached file offset) :
    (store.complete commits transaction).2.directory.byteAt? file offset = some byte := by
  rw [Store.complete_eq]
  refine byteAt?_settlePages commits transaction _ present ?_
  intro page listed cached found spans
  cases dirtied : cached.page.dirtier with
  | none =>
      have clean := cached.isClean_iff.mpr dirtied
      rw [spans.1] at clean
      cases clean
  | some owner =>
      cases custody.owns transaction page listed cached owner found dirtied
      exact outside page cached found dirtied spans

theorem ended : Ended store (store.complete commits transaction).2 transaction := by
  have after := custody.complete commits transaction
  have unlocked : ∀ page,
      (store.complete commits transaction).2.locks.modeOf transaction page = none := by
    intro page
    rw [custody.modeOf_complete, if_pos rfl]
  refine ⟨unlocked, store.held_complete commits transaction, ?_, ?_, ?_, ?_, ?_, ?_, ?_⟩
  · rintro page ⟨cached, present, dirtied⟩
    have alone := after.alone page cached transaction present dirtied
    rw [unlocked] at alone
    cases alone
  · intro other different page
    rw [custody.modeOf_complete, if_neg different]
  · intro other different
    exact custody.pagesOf_complete commits transaction different
  · intro page unheld
    apply custody.lookup_complete_undirty
    rintro ⟨cached, present, dirtied⟩
    have alone := custody.alone page cached transaction present dirtied
    rw [unheld] at alone
    cases alone
  · intro page undirty
    exact custody.lookup_complete_undirty commits transaction undirty
  · intro file offset byte present outside
    exact custody.byteAt?_complete commits transaction present outside
  · rw [Store.complete_eq]
    exact store.tables_settlePages commits transaction _

end Custody

end Store

namespace System

/-- After any `Proper` actions, a transaction that ends leaves no lock, index entry or dirty page
behind, and nothing changes but the pages that it had dirtied. Unless it commits no file changes.
The system calls of a page file do not fail in this model. -/
theorem nothing_left_of_ended {directory : Directory} {capacity : Nat} {range : WaitRange}
    {preference : Preference} {system : System}
    (course : Course (fun system action => action.Proper system)
      (untouched directory capacity range preference) system)
    (finish : Finish) (transaction : TransactionId) :
    Store.Ended system.store (finish.apply transaction system.store) transaction ∧
      (finish ≠ .commit →
        (finish.apply transaction system.store).directory = system.store.directory) := by
  have custody := course.custody (.untouched directory capacity range preference)
  rw [finish.apply_eq]
  refine ⟨custody.ended finish.commits transaction, fun undone => ?_⟩
  have kept : finish.commits = false := by
    cases finish with
    | commit => exact absurd rfl undone
    | abort | drop => rfl
  rw [kept, Store.complete_eq]
  exact system.store.directory_settlePages_abort transaction _

/-- A transaction is dropped with a dirty page, and another keeps its lock on the page behind it,
which does not exist yet. -/
theorem nothing_left_of_ended_small :
    ∃ system : System,
      Course (fun system action => action.Proper system)
        (untouched small.store.directory 2 .standard fun _ _ => 0) system ∧
      system.store.Dirtied ⟨1⟩ (numbers.page 0) ∧
      system.store.locks.modeOf ⟨2⟩ (numbers.page 1) = some .shared ∧
      Store.Ended system.store (Finish.commit.apply ⟨1⟩ system.store) ⟨1⟩ ∧
      (Finish.commit.apply ⟨1⟩ system.store).locks.modeOf ⟨2⟩ (numbers.page 1) = some .shared ∧
      (Finish.drop.apply ⟨1⟩ system.store).directory = system.store.directory := by
  have course := Course.step (.register numbers)
    (.start : Course (fun system action => action.Proper system)
      (untouched small.store.directory 2 .standard fun _ _ => 0) _) trivial
  have course := course.step
    (.operation (.insert ⟨1⟩ ⟨7⟩ ⟨numbers.schema, [.int 5], none, rfl⟩)) trivial
  have course := course.step (.operation (.get ⟨2⟩ (numbers.page 1) .readOnly)) trivial
  obtain ⟨ended, -⟩ := nothing_left_of_ended course .commit ⟨1⟩
  obtain ⟨-, unwritten⟩ := nothing_left_of_ended course .drop ⟨1⟩
  have shared := ended.locks ⟨2⟩ (by decide) (numbers.page 1)
  exact ⟨_, course, ⟨_, rfl, rfl⟩, rfl, ended, shared.trans rfl, unwritten (by decide)⟩

end System

end RecordStore
