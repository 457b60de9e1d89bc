import RecordStore.Proofs.Store.Works

set_option autoImplicit false

/-! `complete` page by page. Each page that the transaction has locked becomes clean or leaves the
cache, and no other page changes; flushing takes no page out of the cache. Nothing is assumed of
tables and files, so writing may fail. -/

namespace RecordStore

theorem PageCopy.isClean_iff (cached : PageCopy) :
    cached.isClean = true ↔ cached.page.dirtier = none := by
  rw [isClean, Page.isDirty]
  cases cached.page.dirtier <;> simp

theorem PageCopy.isClean_eq_false {cached : PageCopy} {owner : TransactionId}
    (dirtied : cached.page.dirtier = some owner) : cached.isClean = false := by
  rw [isClean, Page.isDirty, dirtied]
  rfl

namespace Store

variable {store after : Store} {transaction : TransactionId} {page other : PageId}
  {cached : PageCopy}

/-- The cached copy of the page, if there is one, is clean. -/
def Settled (store : Store) (page : PageId) : Prop :=
  ∀ cached, store.cache[page]? = some cached → cached.isClean = true

theorem settled_of_absent (absent : store.cache[page]? = none) : store.Settled page := by
  intro cached present
  rw [absent] at present
  cases present

theorem settled_of_clean (present : store.cache[page]? = some cached)
    (clean : cached.isClean = true) : store.Settled page := by
  intro copy found
  rw [present] at found
  cases found
  exact clean

structure Cleans (before after : Store) : Prop where
  capacity : after.capacity = before.capacity
  size : after.cache.size ≤ before.cache.size
  copies : ∀ (page : PageId) (cached : PageCopy), after.cache[page]? = some cached →
    before.cache[page]? = some cached ∨ cached.isClean = true

theorem lookup_install (store : Store) (page other : PageId) (cached : PageCopy) :
    (store.install page cached).cache[other]? =
      if page = other then some cached else store.cache[other]? :=
  lookup_insert store.cache page other cached

theorem lookup_discard (store : Store) (page other : PageId) :
    (store.discard page).cache[other]? = if page = other then none else store.cache[other]? :=
  lookup_erase store.cache page other

namespace Cleans

variable {first second third : Store}

theorem refl (store : Store) : Cleans store store :=
  ⟨rfl, Nat.le_refl _, fun _ _ present => .inl present⟩

theorem trans (earlier : Cleans first second) (later : Cleans second third) :
    Cleans first third := by
  refine ⟨later.capacity.trans earlier.capacity, Nat.le_trans later.size earlier.size, ?_⟩
  intro page cached present
  rcases later.copies page cached present with before | clean
  · exact earlier.copies page cached before
  · exact .inr clean

end Cleans

theorem cleans_discard (store : Store) (page : PageId) : Cleans store (store.discard page) := by
  refine ⟨rfl, Std.ExtTreeMap.size_erase_le, fun other cached present => ?_⟩
  rw [lookup_discard] at present
  split at present
  · cases present
  · exact .inl present

theorem cleans_evict (store : Store) : Cleans store store.evict.2 := by
  rcases store.evict_cases with same | ⟨victim, cached, -, -, same⟩
  · rw [same]
    exact .refl store
  · rw [same]
    exact cleans_discard store victim

theorem cleans_install (present : store.cache[page]? = some cached) (directory : Directory) :
    Cleans store (({ store with directory := directory } : Store).install page cached.flushed) := by
  have size : (store.cache.insert page cached.flushed).size = store.cache.size :=
    size_insert_of_present _ (by rw [present]; rfl)
  refine ⟨rfl, Nat.le_of_eq size, fun other copy found => ?_⟩
  rw [lookup_install] at found
  split at found
  · cases found
    exact .inr rfl
  · exact .inl found

/-! ### Writing a page -/

inductive Writes (page : PageId) (store : Store) : Store → Prop where
  | idle : store.Settled page → Writes page store store
  | written {cached : PageCopy} {directory : Directory} :
      store.cache[page]? = some cached → cached.isClean = false →
      Writes page store (({ store with directory := directory } : Store).install page
        cached.flushed)

theorem writes_flush (present : store.cache[page]? = some cached)
    (flushed : store.flush page cached = .ok after) : Writes page store after := by
  rcases flush_ok flushed with ⟨clean, rfl⟩ | ⟨dirty, table, directory, -, -, -, rfl⟩
  · exact .idle (settled_of_clean present clean)
  · exact .written present dirty

namespace Writes

theorem locks_eq (writes : Writes page store after) : after.locks = store.locks := by
  cases writes <;> rfl

theorem settled (writes : Writes page store after) : after.Settled page := by
  cases writes with
  | idle settled => exact settled
  | written present dirty =>
      intro copy found
      rw [lookup_install, if_pos rfl] at found
      cases found
      rfl

theorem cleans (writes : Writes page store after) : Cleans store after := by
  cases writes with
  | idle settled => exact .refl store
  | written present dirty => exact cleans_install present _

theorem lookup_other (writes : Writes page store after) (different : page ≠ other) :
    after.cache[other]? = store.cache[other]? := by
  cases writes with
  | idle settled => rfl
  | written present dirty => exact (lookup_install _ _ _ _).trans (if_neg different)

theorem isCached_eq (writes : Writes page store after) (other : PageId) :
    after.isCached other = store.isCached other := by
  rw [isCached, isCached, contains_eq_isSome, contains_eq_isSome]
  by_cases same : page = other
  · subst same
    cases writes with
    | idle settled => rfl
    | written present dirty =>
        rw [lookup_install, if_pos rfl, present]
        rfl
  · rw [writes.lookup_other same]

end Writes

/-- What one flush keeps is kept by `flushEach`, also if it stops at an error. -/
theorem flushEach_keeps (Kept : Store → Prop)
    (step : ∀ page store after, Writes page store after → Kept store → Kept after)
    (pages : List PageId) (kept : Kept store) : Kept (store.flushEach pages).2 := by
  induction pages generalizing store with
  | nil => exact kept
  | cons page pages ih =>
      unfold flushEach
      cases present : store.cache[page]? with
      | none => exact ih kept
      | some cached =>
          simp only
          cases flushed : store.flush page cached with
          | error error => exact kept
          | ok after => exact ih (step page store after (writes_flush present flushed) kept)

/-! ### Settling a page -/

inductive Settles (commits : Bool) (page : PageId) (store : Store) : Store → Prop where
  | kept {after : Store} : Writes page store after →
      (∀ cached, store.cache[page]? = some cached → cached.isClean = false →
        commits = true ∧ ∃ flushed, store.flush page cached = .ok flushed) →
      Settles commits page store after
  | dropped {cached : PageCopy} : store.cache[page]? = some cached → cached.isClean = false →
      (commits = true → ∃ error, store.flush page cached = .error error) →
      Settles commits page store (store.discard page)

theorem settles_idle {commits : Bool} (settled : store.Settled page) :
    Settles commits page store store := by
  refine .kept (.idle settled) fun cached present dirty => ?_
  rw [settled cached present] at dirty
  cases dirty

theorem settles_settlePage (store : Store) (commits : Bool) (page : PageId) :
    Settles commits page store (store.settlePage commits page).2 := by
  unfold settlePage
  cases present : store.cache[page]? with
  | none => exact settles_idle (settled_of_absent present)
  | some cached =>
      simp only
      cases clean : cached.isClean with
      | true => exact settles_idle (settled_of_clean present clean)
      | false =>
          rw [if_neg Bool.false_ne_true]
          cases commits with
          | false => exact .dropped present clean fun commits => by cases commits
          | true =>
              rw [if_pos rfl, commitPage]
              cases flushed : store.flush page cached with
              | error error => exact .dropped present clean fun _ => ⟨error, flushed⟩
              | ok after =>
                  refine .kept (writes_flush present flushed) fun copy found _ => ⟨rfl, ?_⟩
                  rw [present] at found
                  cases found
                  exact ⟨after, flushed⟩

namespace Settles

variable {commits : Bool}

theorem locks_eq (settles : Settles commits page store after) : after.locks = store.locks := by
  cases settles with
  | kept writes reason => exact writes.locks_eq
  | dropped present dirty reason => rfl

theorem settled (settles : Settles commits page store after) : after.Settled page := by
  cases settles with
  | kept writes reason => exact writes.settled
  | dropped present dirty reason =>
      intro copy found
      rw [lookup_discard, if_pos rfl] at found
      cases found

theorem cleans (settles : Settles commits page store after) : Cleans store after := by
  cases settles with
  | kept writes reason => exact writes.cleans
  | dropped present dirty reason => exact cleans_discard store page

theorem lookup_other (settles : Settles commits page store after) (different : page ≠ other) :
    after.cache[other]? = store.cache[other]? := by
  cases settles with
  | kept writes reason => exact writes.lookup_other different
  | dropped present dirty reason => exact (lookup_discard _ _ _).trans (if_neg different)

/-- A dirty page leaves the cache iff it is not to be written or cannot be. -/
theorem gone_iff (settles : Settles commits page store after)
    (present : store.cache[page]? = some cached) (dirty : cached.isClean = false) :
    after.isCached page = false ↔
      (commits = true → ∃ error, store.flush page cached = .error error) := by
  cases settles with
  | kept writes reason =>
      obtain ⟨commits, flushed, done⟩ := reason cached present dirty
      have still : after.isCached page = true := by
        rw [writes.isCached_eq, isCached, contains_eq_isSome, present]
        rfl
      rw [still]
      refine ⟨fun gone => Bool.noConfusion gone, fun failed => ?_⟩
      obtain ⟨error, refused⟩ := failed commits
      rw [done] at refused
      cases refused
  | @dropped copy found dirtied reason =>
      rw [found] at present
      cases present
      refine ⟨fun _ => reason, fun _ => ?_⟩
      rw [isCached, contains_eq_isSome, lookup_discard, if_pos rfl]
      rfl

end Settles

/-! ### Settling page after page -/

variable {commits : Bool}

theorem settlePages_cons (store : Store) (commits : Bool) (transaction : TransactionId)
    (page : PageId) (pages : List PageId) :
    (store.settlePages commits transaction (page :: pages)).2 =
      (((store.settlePage commits page).2.releasePage transaction page).settlePages commits
        transaction pages).2 := rfl

theorem settlePages_append (store : Store) (commits : Bool) (transaction : TransactionId)
    (earlier later : List PageId) :
    (store.settlePages commits transaction (earlier ++ later)).2 =
      ((store.settlePages commits transaction earlier).2.settlePages commits transaction
        later).2 := by
  induction earlier generalizing store with
  | nil => rfl
  | cons page earlier ih =>
      rw [List.cons_append, settlePages_cons, ih, settlePages_cons]

/-- What settling and releasing one page keeps is kept by `settlePages`. -/
theorem settlePages_keeps (Kept : Store → Prop) (pages : List PageId)
    (step : ∀ page store after, Settles commits page store after → Kept store →
      Kept (after.releasePage transaction page))
    (kept : Kept store) : Kept (store.settlePages commits transaction pages).2 := by
  induction pages generalizing store with
  | nil => exact kept
  | cons page pages ih =>
      rw [settlePages_cons]
      exact ih (step page store _ (store.settles_settlePage commits page) kept)

theorem locks_settlePages (store : Store) (commits : Bool) (transaction : TransactionId)
    (pages : List PageId) :
    (store.settlePages commits transaction pages).2.locks =
      pages.foldl (fun locks page => locks.release transaction page) store.locks := by
  induction pages generalizing store with
  | nil => rfl
  | cons page pages ih =>
      rw [settlePages_cons, ih, List.foldl_cons, releasePage,
        (store.settles_settlePage commits page).locks_eq]

theorem cleans_settlePages (store : Store) (commits : Bool) (transaction : TransactionId)
    (pages : List PageId) :
    Cleans store (store.settlePages commits transaction pages).2 := by
  refine settlePages_keeps (Cleans store) pages ?_ (Cleans.refl store)
  intro page middle after settles earlier
  have cleans := earlier.trans settles.cleans
  exact ⟨cleans.capacity, cleans.size, cleans.copies⟩

theorem lookup_settlePages (store : Store) (commits : Bool) (transaction : TransactionId)
    {pages : List PageId} (absent : other ∉ pages) :
    (store.settlePages commits transaction pages).2.cache[other]? = store.cache[other]? := by
  induction pages generalizing store with
  | nil => rfl
  | cons page pages ih =>
      have different : page ≠ other := fun same => absent (same ▸ List.mem_cons_self)
      rw [settlePages_cons, ih _ fun member => absent (List.mem_cons_of_mem page member)]
      exact (store.settles_settlePage commits page).lookup_other different

/-! ### Ending a transaction -/

theorem complete_eq (store : Store) (commits : Bool) (transaction : TransactionId) :
    (store.complete commits transaction).2 =
      { (store.settlePages commits transaction (store.locks.table.pagesOf transaction)).2 with
        locks := (store.settlePages commits transaction
          (store.locks.table.pagesOf transaction)).2.locks.releaseAll transaction } := by
  unfold complete
  simp only
  split <;> rfl

theorem nodup_pagesOf (table : LockTable) (transaction : TransactionId) :
    (table.pagesOf transaction).Nodup :=
  Std.ExtTreeSet.distinct_toList.imp fun different same => by
    subst same
    exact different Std.ReflCmp.compare_self

theorem lookup_complete (store : Store) (commits : Bool) (transaction : TransactionId)
    (absent : page ∉ store.locks.table.pagesOf transaction) :
    (store.complete commits transaction).2.cache[page]? = store.cache[page]? := by
  rw [complete_eq]
  exact store.lookup_settlePages commits transaction absent

theorem listed_of_gone (present : store.cache[page]? = some cached)
    (gone : (store.complete commits transaction).2.isCached page = false) :
    page ∈ store.locks.table.pagesOf transaction := by
  apply Classical.byContradiction
  intro absent
  rw [isCached, contains_eq_isSome, lookup_complete _ _ _ absent, present] at gone
  cases gone

theorem gone_complete {earlier later : List PageId}
    (listed : store.locks.table.pagesOf transaction = earlier ++ page :: later)
    (present : store.cache[page]? = some cached) (dirty : cached.isClean = false) :
    (store.complete commits transaction).2.isCached page = false ↔
      (commits = true → ∃ error,
        (store.settlePages commits transaction earlier).2.flush page cached = .error error) := by
  have distinct := nodup_pagesOf store.locks.table transaction
  rw [listed, List.nodup_append, List.nodup_cons] at distinct
  -- No page is listed twice: those before it leave it as it is, and those after it as it was left.
  obtain ⟨-, ⟨notLater, -⟩, apart⟩ := distinct
  have notEarlier : page ∉ earlier := fun member => apart page member page List.mem_cons_self rfl
  have before := store.lookup_settlePages commits transaction notEarlier
  rw [present] at before
  rw [← ((store.settlePages commits transaction earlier).2.settles_settlePage commits
    page).gone_iff before dirty, complete_eq, listed, settlePages_append, settlePages_cons]
  simp only [isCached, contains_eq_isSome]
  rw [lookup_settlePages _ commits transaction notLater]
  rfl

end Store

end RecordStore
