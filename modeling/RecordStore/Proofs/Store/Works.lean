import RecordStore.Proofs.Store.Action
import RecordStore.Proofs.Store.Visits

set_option autoImplicit false

/-! The elementary steps of `getPage`, `insert`, `delete` and scans: locking, appending, evicting,
loading, and changing a page held exclusively. A property that each of them keeps is kept by these
operations, also when they fail. -/

namespace RecordStore

namespace Store

inductive Works (transaction : TransactionId) : Store → Store → Prop where
  | still (store : Store) : Works transaction store store
  | andThen {first second third : Store} : Works transaction first second →
      Works transaction second third → Works transaction first third
  | lock {store : Store} {locks : LockService} :
      LockService.Strengthens transaction store.locks locks →
      Works transaction store { store with locks := locks }
  | append {store : Store} {table : Table} {number : UInt32} {directory : Directory} :
      table.pages.allocate store.directory = .ok (number, directory) →
      Works transaction store { store with directory := directory }
  | evict (store : Store) : Works transaction store store.evict.2
  | read {store roomy : Store} {page : PageId} {table : Table} {content : Page} :
      store.cache[page]? = none → store.makeRoom = (.ok (), roomy) →
      table.readPage roomy.directory page = .ok content →
      Works transaction store
        (({ roomy with nextSerial := roomy.nextSerial + 1 } : Store).install page
          ⟨roomy.nextSerial, content, false⟩)
  | change {store : Store} {page : PageId} {cached changed : PageCopy} :
      store.cache[page]? = some cached →
      store.locks.modeOf transaction page = some .exclusive →
      changed.page.dirtier = cached.page.dirtier ∨ changed.page.dirtier = some transaction →
      Works transaction store (store.install page changed)
  | enter {store roomy : Store} {page : PageId} {changed : PageCopy} :
      store.makeRoom = (.ok (), roomy) →
      store.locks.modeOf transaction page = some .exclusive →
      changed.page.dirtier = some transaction →
      Works transaction store (roomy.install page changed)

variable {store after roomy : Store} {transaction : TransactionId} {page : PageId}

/-! ### Reaching a page -/

theorem Visits.works (visits : Visits transaction store after) :
    Works transaction store after := by
  induction visits with
  | still store => exact .still store
  | andThen earlier later first second => exact first.andThen second
  | lock stronger => exact .lock stronger
  | append known allocated => exact .append allocated
  | evict store => exact .evict store
  | read absent known made read => exact .read absent made read

theorem works_makeRoom (store : Store) (transaction : TransactionId) :
    Works transaction store store.makeRoom.2 :=
  (store.visits_makeRoom transaction).works

theorem works_fetch (store : Store) (transaction : TransactionId) (page : PageId) :
    Works transaction store (store.fetch page).2 :=
  (store.visits_fetch transaction page).works

/-! ### Putting a changed copy back -/

theorem works_update (alone : store.locks.modeOf transaction page = some .exclusive)
    {cached changed : PageCopy} (present : store.cache[page]? = some cached)
    (dirtier : changed.page.dirtier = cached.page.dirtier ∨
      changed.page.dirtier = some transaction) :
    Works transaction store (store.update page changed) := by
  unfold update
  rw [present]
  simp only
  split
  · exact .change present alone dirtier
  · exact .still store

theorem locks_update (store : Store) (page : PageId) (changed : PageCopy) :
    (store.update page changed).locks = store.locks := by
  unfold update
  split
  · split
    · rfl
    · rfl
  · rfl

inductive Reinstalls (store : Store) (page : PageId) (copy : PageCopy) : Store → Prop where
  | replaced {former : PageCopy} :
      store.cache[page]? = some former → Reinstalls store page copy (store.install page copy)
  | refused : Reinstalls store page copy store.makeRoom.2
  | entered {roomy : Store} :
      store.makeRoom = (.ok (), roomy) → Reinstalls store page copy (roomy.install page copy)

theorem reinstalls_installDirty (store : Store) (transaction : TransactionId) (page : PageId)
    (cached : PageCopy) :
    Reinstalls (store.update page (markedCopy cached cached.page transaction)) page
      (markedCopy cached cached.page transaction)
      (store.installDirty transaction page cached).2 := by
  unfold installDirty
  simp only
  split
  · next inside =>
      rw [isCached, contains_eq_isSome] at inside
      obtain ⟨former, present⟩ := Option.isSome_iff_exists.mp inside
      exact .replaced present
  · split
    · next made =>
        rw [← congrArg Prod.snd made]
        exact .refused
    · next made => exact .entered made

theorem Reinstalls.works {copy : PageCopy} (back : Reinstalls store page copy after)
    (alone : store.locks.modeOf transaction page = some .exclusive)
    (dirtied : copy.page.dirtier = some transaction) : Works transaction store after := by
  cases back with
  | replaced present => exact .change present alone (.inr dirtied)
  | refused => exact store.works_makeRoom transaction
  | entered made => exact .enter made alone dirtied

theorem works_installDirty (alone : store.locks.modeOf transaction page = some .exclusive)
    (cached : PageCopy) :
    Works transaction store (store.installDirty transaction page cached).2 := by
  have back := store.reinstalls_installDirty transaction page cached
  have still := alone
  rw [← locks_update store page (markedCopy cached cached.page transaction)] at still
  cases present : store.cache[page]? with
  | none =>
      rw [update, present] at back
      exact back.works alone rfl
  | some former => exact (works_update alone present (.inr rfl)).andThen (back.works still rfl)

/-! ### Inserting and deleting -/

theorem works_marked {cached : PageCopy} (writable : store.Writable transaction page cached)
    (content : Page) :
    Works transaction store (store.install page (markedCopy cached content transaction)) :=
  .change writable.present writable.alone (.inr rfl)

theorem works_insert (store : Store) (transaction : TransactionId) (id : TableId) (row : Row) :
    Works transaction store (store.insert transaction id row).2.2 := by
  have inserts := store.inserts_insert transaction id row
  rcases done : store.insert transaction id row with ⟨outcome, back, after⟩
  rw [done] at inserts
  cases inserts with
  | refused failure visits => exact visits.works
  | placed visits writable inserted => exact visits.works.andThen (works_marked writable _)

theorem works_delete (store : Store) (transaction : TransactionId) (record : Option RecordId) :
    Works transaction store (store.delete transaction record).2 := by
  have deletes := store.deletes_delete transaction record
  rcases done : store.delete transaction record with ⟨outcome, after⟩
  rw [done] at deletes
  cases deletes with
  | refused failure visits => exact visits.works
  | freed visits writable deleted => exact visits.works.andThen (works_marked writable _)

end Store

def Operation.GoesOn : Operation → Prop
  | .get _ _ _ | .insert _ _ _ | .delete _ _ | .scan _ _ _ | .next _ | .rewind _ | .evict => True
  | _ => False

theorem System.works_perform (system : System) (operation : Operation)
    (going : operation.GoesOn) :
    ∃ transaction, Store.Works transaction system.store (system.perform operation).2.store := by
  cases operation with
  | get transaction page access =>
      exact ⟨transaction, (system.store.visits_getPage transaction page access).works⟩
  | insert transaction table row =>
      exact ⟨transaction, system.store.works_insert transaction table row⟩
  | delete transaction record =>
      exact ⟨transaction, system.store.works_delete transaction record⟩
  | scan name transaction table =>
      refine ⟨transaction, ?_⟩
      rw [system.store_scan]
      exact .still system.store
  | next name =>
      simp only [perform]
      cases system.scans name with
      | none => exact ⟨TransactionId.first, .still system.store⟩
      | some scan => exact ⟨scan.transaction, (Store.visits_next scan system.store).works⟩
  | rewind name =>
      refine ⟨TransactionId.first, ?_⟩
      rw [system.store_rewind]
      exact .still system.store
  | evict => exact ⟨TransactionId.first, .evict system.store⟩
  | begin | commit | abort | release | discard | flush | flushAll => cases going

end RecordStore
