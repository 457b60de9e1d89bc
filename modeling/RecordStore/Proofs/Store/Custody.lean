import RecordStore.Proofs.Page.Reading
import RecordStore.Proofs.Store.Ending
import RecordStore.Proofs.Store.Run

set_option autoImplicit false

/-! Every dirty page is locked exclusively by the transaction that dirtied it, as long as locks are
only released at the end of a transaction and copies only changed by operations. So `complete` need
not compare the transaction of a dirty page with its own. -/

namespace RecordStore

/-- No lock is released before its transaction ends. A copy is changed or put back as `insert` and
`delete` do it: by the exclusive holder, in its own name. -/
def Action.Proper (system : System) : Action → Prop
  | .operation (.release _ _) => False
  | .lock call => ¬ call.LetsGo
  | .revise page changed =>
      ∃ transaction, system.store.locks.modeOf transaction page = some .exclusive ∧
        ∀ cached, system.store.cache[page]? = some cached →
          changed.page.dirtier = cached.page.dirtier ∨ changed.page.dirtier = some transaction
  | .reinstall transaction page _ => system.store.locks.modeOf transaction page = some .exclusive
  | _ => True

namespace LockTable

theorem record_of_exclusive {table : LockTable} {transaction : TransactionId} {page : PageId}
    (alone : table.modeOf transaction page = some .exclusive) :
    table.records[page]? = some (.exclusive transaction) := by
  cases present : table.records[page]? with
  | none =>
      rw [modeOf_of_vacant present] at alone
      cases alone
  | some record =>
      rw [modeOf_of_record present] at alone
      cases record with
      | shared holders =>
          rw [LockRecord.modeOf_shared] at alone
          split at alone <;> cases alone
      | exclusive holder =>
          rw [LockRecord.modeOf_exclusive] at alone
          split at alone
          · next same => rw [same]
          · cases alone

end LockTable

namespace Store

/-- Whoever dirtied a cached page holds it exclusively, and the lock table is consistent. -/
structure Custody (store : Store) : Prop where
  consistent : store.locks.table.Consistent
  alone : ∀ (page : PageId) (cached : PageCopy) (owner : TransactionId),
    store.cache[page]? = some cached → cached.page.dirtier = some owner →
    store.locks.modeOf owner page = some .exclusive

variable {store after roomy : Store} {transaction owner : TransactionId} {page : PageId}
  {cached : PageCopy}

namespace Custody

theorem cleaned (custody : store.Custody) (cleans : Cleans store after)
    (locks : after.locks = store.locks) : after.Custody := by
  refine ⟨locks ▸ custody.consistent, fun page cached owner present dirtied => ?_⟩
  rw [locks]
  rcases cleans.copies page cached present with before | clean
  · exact custody.alone page cached owner before dirtied
  · rw [PageCopy.isClean_eq_false dirtied] at clean
    cases clean

theorem strengthened (custody : store.Custody) {locks : LockService}
    (stronger : LockService.Strengthens transaction store.locks locks) :
    ({ store with locks := locks } : Store).Custody := by
  refine ⟨stronger.consistent custody.consistent, fun page cached owner present dirtied => ?_⟩
  have before := custody.alone page cached owner present dirtied
  by_cases own : owner = transaction
  · subst own
    exact stronger.exclusive page before
  · exact (stronger.others owner page own).trans before

/-- Installing a copy keeps custody if the copy is clean or its page held exclusively by its
dirtier. -/
theorem install (custody : store.Custody)
    (alone : ∀ owner, cached.page.dirtier = some owner →
      store.locks.modeOf owner page = some .exclusive) : (store.install page cached).Custody := by
  refine ⟨custody.consistent, fun other copy owner present dirtied => ?_⟩
  rw [lookup_install] at present
  split at present
  · next same =>
      cases present
      exact same ▸ alone owner dirtied
  · exact custody.alone other copy owner present dirtied

theorem evict (custody : store.Custody) : store.evict.2.Custody :=
  custody.cleaned store.cleans_evict store.locks_evict

theorem makeRoom (custody : store.Custody) (made : store.makeRoom = (.ok (), roomy)) :
    roomy.Custody := by
  rcases room_cases made with rfl | rfl
  · exact custody
  · exact custody.evict

theorem works (works : Works transaction store after) (custody : store.Custody) :
    after.Custody := by
  induction works with
  | still store => exact custody
  | andThen earlier later first second => exact second (first custody)
  | lock stronger => exact custody.strengthened stronger
  | append allocated => exact ⟨custody.consistent, custody.alone⟩
  | evict store => exact custody.evict
  | @read store roomy page table content absent made found =>
      have room := custody.makeRoom made
      have counted : ({ roomy with nextSerial := roomy.nextSerial + 1 } : Store).Custody :=
        ⟨room.consistent, room.alone⟩
      refine counted.install fun owner dirtied => ?_
      have clean : content.dirtier = some owner := dirtied
      rw [Table.dirtier_of_readPage found] at clean
      cases clean
  | @change store page cached changed present alone dirtier =>
      refine custody.install fun owner dirtied => ?_
      rcases dirtier with before | now
      · rw [before] at dirtied
        exact custody.alone page cached owner present dirtied
      · rw [now] at dirtied
        cases dirtied
        exact alone
  | @enter store roomy page changed made alone dirtier =>
      have room := custody.makeRoom made
      refine room.install fun owner dirtied => ?_
      rw [dirtier] at dirtied
      cases dirtied
      rw [locks_of_makeRoom made]
      exact alone

/-- Releasing a page that is not dirty keeps custody. -/
theorem release (custody : store.Custody) (settled : store.Settled page) :
    (store.releasePage transaction page).Custody := by
  refine ⟨custody.consistent.release, fun other copy owner present dirtied => ?_⟩
  have before := custody.alone other copy owner present dirtied
  change (store.locks.table.release transaction page).2.modeOf owner other = some .exclusive
  rw [LockTable.modeOf_release, if_neg]
  · exact before
  · rintro ⟨-, rfl⟩
    have clean := settled copy present
    rw [PageCopy.isClean_eq_false dirtied] at clean
    cases clean

theorem settlePages (custody : store.Custody) (commits : Bool) (transaction : TransactionId)
    (pages : List PageId) : (store.settlePages commits transaction pages).2.Custody := by
  refine settlePages_keeps Custody pages ?_ custody
  intro page store after settles kept
  exact (kept.cleaned settles.cleans settles.locks_eq).release settles.settled

/-- `complete` leaves no page of the transaction dirty, so that all its locks can be released. -/
theorem complete (custody : store.Custody) (commits : Bool) (transaction : TransactionId) :
    (store.complete commits transaction).2.Custody := by
  have settled := custody.settlePages commits transaction (store.locks.table.pagesOf transaction)
  rw [complete_eq]
  refine ⟨settled.consistent.releaseAll, fun page cached owner present dirtied => ?_⟩
  have alone := settled.alone page cached owner present dirtied
  rw [LockService.modeOf, LockService.table_releaseAll,
    LockTable.modeOf_releaseAll settled.consistent, if_neg]
  · exact alone
  · rintro rfl
    -- Its dirtier would still hold the page exclusively, but has released all its pages.
    rw [locks_settlePages, LockService.modeOf_foldl_release_own] at alone
    split at alone
    · cases alone
    · next unlisted =>
        refine unlisted ((LockTable.mem_pagesOf_iff custody.consistent owner page).mpr ?_)
        change (store.locks.modeOf owner page).isSome = true
        rw [alone]
        rfl

theorem flushEach (custody : store.Custody) (pages : List PageId) :
    (store.flushEach pages).2.Custody := by
  refine flushEach_keeps Custody ?_ pages custody
  intro page store after writes kept
  exact kept.cleaned writes.cleans writes.locks_eq

theorem perform {system : System} (custody : system.store.Custody) (operation : Operation)
    (proper : (Action.operation operation).Proper system) :
    (system.perform operation).2.store.Custody := by
  have goes := system.works_perform operation
  cases operation with
  | begin => exact ⟨custody.consistent, custody.alone⟩
  | commit transaction => exact custody.complete true transaction
  | abort transaction => exact custody.complete false transaction
  | release transaction page => exact proper.elim
  | discard page => exact custody.cleaned (cleans_discard system.store page) rfl
  | flush transaction => exact custody.flushEach _
  | flushAll => exact custody.flushEach _
  | get | insert | delete | scan | next | rewind | evict =>
      obtain ⟨transaction, works⟩ := goes trivial
      exact custody.works works

theorem act {system : System} (custody : system.store.Custody) (action : Action)
    (proper : action.Proper system) : (system.act action).store.Custody := by
  cases action with
  | operation operation => exact custody.perform operation proper
  | lock call =>
      obtain ⟨transaction, stronger⟩ := system.store.locks.perform_strengthens call proper
      exact custody.strengthened stronger
  | fetch page => exact custody.works (system.store.works_fetch TransactionId.first page)
  | register table => exact ⟨custody.consistent, custody.alone⟩
  | revise page changed =>
      obtain ⟨transaction, alone, dirtier⟩ := proper
      change (system.store.update page changed).Custody
      cases present : system.store.cache[page]? with
      | none =>
          rw [update, present]
          exact custody
      | some cached => exact custody.works (works_update alone present (dirtier cached present))
  | reinstall transaction page changed => exact custody.works (works_installDirty proper changed)
  | disturb directory => exact ⟨custody.consistent, custody.alone⟩

end Custody

theorem Custody.untouched (directory : Directory) (capacity : Nat) (range : WaitRange)
    (preference : Preference) :
    (System.untouched directory capacity range preference).store.Custody := by
  refine ⟨LockTable.Consistent.empty, fun page cached owner present dirtied => ?_⟩
  change (∅ : Std.ExtTreeMap PageId PageCopy)[page]? = some cached at present
  rw [Std.ExtTreeMap.getElem?_empty] at present
  cases present

/-! ### Ending a transaction with a check of the dirtier -/

def settleOwnPage (store : Store) (commits : Bool) (transaction : TransactionId) (page : PageId) :
    Option StorageError × Store :=
  match store.cache[page]? with
  | none => (none, store)
  | some cached =>
      if cached.page.dirtier = some transaction then store.settlePage commits page
      else (none, store)

def settleOwnPages (store : Store) (commits : Bool) (transaction : TransactionId) :
    List PageId → Option StorageError × Store
  | [] => (none, store)
  | page :: pages =>
      let (error, store) := store.settleOwnPage commits transaction page
      let (later, store) :=
        settleOwnPages (store.releasePage transaction page) commits transaction pages
      (error.or later, store)

/-- `complete` with the owner of each page checked. -/
def completeOwn (store : Store) (commits : Bool) (transaction : TransactionId) :
    Except StorageError Unit × Store :=
  let (error, store) :=
    store.settleOwnPages commits transaction (store.locks.table.pagesOf transaction)
  let store := { store with locks := store.locks.releaseAll transaction }
  match error with
  | some error => (.error error, store)
  | none => (.ok (), store)

def Owns (store : Store) (transaction : TransactionId) (pages : List PageId) : Prop :=
  ∀ page ∈ pages, ∀ (cached : PageCopy) (owner : TransactionId),
    store.cache[page]? = some cached → cached.page.dirtier = some owner → owner = transaction

theorem Owns.settlePage_eq {pages : List PageId} (owns : store.Owns transaction pages)
    (member : page ∈ pages) (commits : Bool) :
    store.settlePage commits page = store.settleOwnPage commits transaction page := by
  unfold settleOwnPage
  cases present : store.cache[page]? with
  | none => rw [settlePage, present]
  | some cached =>
      cases dirtied : cached.page.dirtier with
      | none =>
          have clean := cached.isClean_iff.mpr dirtied
          rw [settlePage, present]
          simp only [clean, if_true, dirtied, reduceCtorEq, if_false]
      | some owner =>
          cases owns page member cached owner present dirtied
          simp only [dirtied, if_true]

theorem Owns.settlePages_eq {pages : List PageId} (owns : store.Owns transaction pages)
    (commits : Bool) :
    store.settlePages commits transaction pages =
      store.settleOwnPages commits transaction pages := by
  induction pages generalizing store with
  | nil => rfl
  | cons page pages ih =>
      -- A copy that is dirty after settling one page was dirty before, for the same transaction.
      have cleans := (store.settles_settlePage commits page).cleans
      have later : ((store.settlePage commits page).2.releasePage transaction page).Owns
          transaction pages := by
        intro other member cached owner present dirtied
        rcases cleans.copies other cached present with before | clean
        · exact owns other (List.mem_cons_of_mem page member) cached owner before dirtied
        · rw [PageCopy.isClean_eq_false dirtied] at clean
          cases clean
      rw [settlePages, settleOwnPages, ← owns.settlePage_eq List.mem_cons_self]
      simp only [ih later]

/-- A dirty page that is locked by a transaction was dirtied by it. -/
theorem Custody.owns (custody : store.Custody) (transaction : TransactionId) :
    store.Owns transaction (store.locks.table.pagesOf transaction) := by
  intro page listed cached owner present dirtied
  have held := (LockTable.mem_pagesOf_iff custody.consistent transaction page).mp listed
  exact (LockTable.alone_of_exclusive (custody.alone page cached owner present dirtied) held).symm

theorem Custody.complete_eq (custody : store.Custody) (commits : Bool)
    (transaction : TransactionId) :
    store.complete commits transaction = store.completeOwn commits transaction := by
  have pages := (custody.owns transaction).settlePages_eq commits
  rcases settled : store.settlePages commits transaction
      (store.locks.table.pagesOf transaction) with ⟨_ | error, after⟩
  · rw [settled] at pages
    simp only [Store.complete, completeOwn, settled, ← pages]
  · rw [settled] at pages
    simp only [Store.complete, completeOwn, settled, ← pages]

end Store

namespace System

theorem Course.custody {start system : System}
    (course : Course (fun system action => action.Proper system) start system)
    (custody : start.store.Custody) : system.store.Custody := by
  induction course with
  | start => exact custody
  | step action earlier proper ih => exact ih.act action proper

/-- After any `Proper` actions, a page dirtied by a transaction is locked exclusively by it. So
`complete` does the same as `completeOwn`, and leaves the dirty pages of other transactions cached
as they are. The actions include every step of a waiting operation; the system calls of a page file
do not fail in this model. -/
theorem dirty_pages_held_alone {directory : Directory} {capacity : Nat} {range : WaitRange}
    {preference : Preference} {system : System}
    (course : Course (fun system action => action.Proper system)
      (untouched directory capacity range preference) system) :
    (∀ (page : PageId) (cached : PageCopy) (owner : TransactionId),
      system.store.cache[page]? = some cached → cached.page.dirtier = some owner →
      system.store.locks.table.records[page]? = some (.exclusive owner)) ∧
    ∀ (commits : Bool) (transaction : TransactionId),
      system.store.complete commits transaction = system.store.completeOwn commits transaction ∧
      ∀ (page : PageId) (cached : PageCopy) (owner : TransactionId),
        system.store.cache[page]? = some cached → cached.page.dirtier = some owner →
        owner ≠ transaction →
        (system.store.complete commits transaction).2.cache[page]? = some cached := by
  have custody := course.custody (.untouched directory capacity range preference)
  refine ⟨?_, fun commits transaction => ⟨custody.complete_eq commits transaction, ?_⟩⟩
  · intro page cached owner present dirtied
    exact LockTable.record_of_exclusive (custody.alone page cached owner present dirtied)
  · intro page cached owner present dirtied different
    rw [Store.lookup_complete]
    · exact present
    · intro listed
      exact different (custody.owns transaction page listed cached owner present dirtied)

/-- A transaction that timed out on a dirty page commits, and leaves the page as it is. -/
theorem dirty_pages_held_alone_small :
    ∃ (system : System) (cached : PageCopy),
      Course (fun system action => action.Proper system)
        (untouched small.store.directory 2 .standard fun _ _ => 0) system ∧
      system.store.cache[numbers.page 0]? = some cached ∧ cached.page.dirtier = some ⟨1⟩ ∧
      system.store.locks.table.records[numbers.page 0]? = some (.exclusive ⟨1⟩) ∧
      system.store.commit ⟨2⟩ = system.store.completeOwn true ⟨2⟩ ∧
      (system.store.commit ⟨2⟩).2.cache[numbers.page 0]? = some cached := by
  have course := Course.step (.register numbers)
    (.start : Course (fun system action => action.Proper system)
      (untouched small.store.directory 2 .standard fun _ _ => 0) _) trivial
  have course := course.step
    (.operation (.insert ⟨1⟩ ⟨7⟩ ⟨numbers.schema, [.int 5], none, rfl⟩)) trivial
  have course := course.step (.lock (.ask ⟨2⟩ (numbers.page 0) .shared 0)) id
  have course := course.step
    (.operation (.insert ⟨2⟩ ⟨7⟩ ⟨numbers.schema, [.int 6], none, rfl⟩)) trivial
  have course := course.step (.operation .evict) trivial
  obtain ⟨records, ends⟩ := dirty_pages_held_alone course
  obtain ⟨same, kept⟩ := ends true ⟨2⟩
  exact ⟨_, _, course, rfl, rfl, records _ _ _ rfl rfl, same, kept _ _ _ rfl rfl (by decide)⟩

end System

end RecordStore
