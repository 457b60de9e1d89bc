import RecordStore.Proofs.Store.Change
import RecordStore.Store.Completion
import RecordStore.Store.Scan

set_option autoImplicit false

/-! Flushing, `commit`, `abort` and scans follow their bare versions, and flushing never fails in a
coherent store. -/

namespace RecordStore

namespace Store

variable {store : Store}

/-! ### Ending a transaction -/

theorem bare_flush_clean {page : PageId} (undrafted : store.bare.drafts[page]? = none) :
    store.bare.flush page = store.bare := by
  rw [Bare.flush, undrafted]

theorem bare_discard_absent {page : PageId} (undrafted : store.bare.drafts[page]? = none) :
    store.bare.discard page = store.bare := by
  rw [Bare.discard, erase_of_absent undrafted]

theorem bare_settlePage_undrafted {page : PageId} (undrafted : store.bare.drafts[page]? = none)
    (commits : Bool) : store.bare.settlePage commits page = store.bare := by
  cases commits with
  | false => exact bare_discard_absent undrafted
  | true => exact bare_flush_clean undrafted

theorem Coherent.settlePage (coherent : store.Coherent) (commits : Bool) (page : PageId) :
    ∃ after, store.settlePage commits page = (none, after) ∧ after.Coherent ∧
      after.bare = store.bare.settlePage commits page := by
  have lookup := draft_lookup store page
  unfold Store.settlePage
  cases present : store.cache[page]? with
  | none =>
      rw [present] at lookup
      exact ⟨store, rfl, coherent, (bare_settlePage_undrafted lookup commits).symm⟩
  | some cached =>
      rw [present, Option.bind_some] at lookup
      simp only
      by_cases clean : cached.isClean = true
      · rw [cached.draft?_eq_none_iff.mpr clean] at lookup
        rw [if_pos clean]
        exact ⟨store, rfl, coherent, (bare_settlePage_undrafted lookup commits).symm⟩
      · rw [if_neg clean]
        cases commits with
        | false => exact ⟨_, rfl, coherent.discard page, bare_discard store page⟩
        | true =>
            obtain ⟨after, flushed, afterCoherent, afterBare⟩ := coherent.flush present
            refine ⟨after, ?_, afterCoherent, afterBare⟩
            rw [if_pos rfl, commitPage, flushed]

theorem Coherent.settlePages (coherent : store.Coherent) (commits : Bool)
    (transaction : TransactionId) (pages : List PageId) :
    ∃ after, store.settlePages commits transaction pages = (none, after) ∧ after.Coherent ∧
      after.bare = store.bare.settlePages commits transaction pages := by
  induction pages generalizing store with
  | nil => exact ⟨store, rfl, coherent, rfl⟩
  | cons page pages ih =>
      obtain ⟨settled, done, settledCoherent, settledBare⟩ := coherent.settlePage commits page
      have released : (settled.releasePage transaction page).Coherent := settledCoherent.withLocks _
      obtain ⟨after, rest, afterCoherent, afterBare⟩ := ih released
      refine ⟨after, ?_, afterCoherent, ?_⟩
      · rw [Store.settlePages, done]
        simp only [rest]
        rfl
      · rw [afterBare, Bare.settlePages, ← settledBare]
        rfl

/-- `commit` and `abort` succeed in coherent stores. -/
theorem Coherent.complete (coherent : store.Coherent) (commits : Bool)
    (transaction : TransactionId) :
    ∃ after, store.complete commits transaction = (.ok (), after) ∧ after.Coherent ∧
      after.bare = store.bare.complete commits transaction := by
  obtain ⟨after, settled, afterCoherent, afterBare⟩ :=
    coherent.settlePages commits transaction (store.locks.table.pagesOf transaction)
  refine ⟨{ after with locks := after.locks.releaseAll transaction }, ?_,
    afterCoherent.withLocks _, ?_⟩
  · rw [Store.complete, settled]
  · rw [Bare.complete, show store.bare.locks = store.locks from rfl, ← afterBare]
    rfl

/-- `abort` writes nothing. -/
theorem files_abort (store : Store) (transaction : TransactionId) :
    (store.abort transaction).2.SameFiles store := by
  have settled (pages : List PageId) :
      (store.settlePages false transaction pages).2.SameFiles store := by
    induction pages generalizing store with
    | nil => exact ⟨rfl, rfl⟩
    | cons page pages ih =>
        have first : (store.settlePage false page).2.SameFiles store := by
          rw [Store.settlePage]
          split
          · exact ⟨rfl, rfl⟩
          · split <;> exact ⟨rfl, rfl⟩
        exact (ih ((store.settlePage false page).2.releasePage transaction page)).trans
          ⟨first.directoryIs, first.tablesAre⟩
  have files := settled (store.locks.table.pagesOf transaction)
  unfold Store.abort Store.complete
  dsimp only
  split <;> exact ⟨files.directoryIs, files.tablesAre⟩

/-! ### Writing and keeping locks -/

theorem Coherent.flushEach (coherent : store.Coherent) (pages : List PageId) :
    ∃ after, store.flushEach pages = (.ok (), after) ∧ after.Coherent ∧
      after.bare = store.bare.flushEach pages := by
  induction pages generalizing store with
  | nil => exact ⟨store, rfl, coherent, rfl⟩
  | cons page pages ih =>
      have lookup := draft_lookup store page
      unfold Store.flushEach
      rw [Bare.flushEach, List.foldl_cons]
      cases present : store.cache[page]? with
      | none =>
          rw [present] at lookup
          obtain ⟨after, rest, afterCoherent, afterBare⟩ := ih coherent
          refine ⟨after, rest, afterCoherent, ?_⟩
          rw [afterBare, bare_flush_clean lookup]
          rfl
      | some cached =>
          obtain ⟨flushed, done, flushedCoherent, flushedBare⟩ := coherent.flush present
          obtain ⟨after, rest, afterCoherent, afterBare⟩ := ih flushedCoherent
          refine ⟨after, ?_, afterCoherent, ?_⟩
          · simp only [done, rest]
          · rw [afterBare, flushedBare]
            rfl

theorem Coherent.flushPages (coherent : store.Coherent) (transaction : TransactionId) :
    ∃ after, store.flushPages transaction = (.ok (), after) ∧ after.Coherent ∧
      after.bare = store.bare.flushEach (store.locks.table.pagesOf transaction) :=
  coherent.flushEach _

theorem Coherent.flushAll (coherent : store.Coherent) :
    ∃ after, store.flushAll = (.ok (), after) ∧ after.Coherent ∧
      after.bare = store.bare.flushAll := by
  obtain ⟨after, flushed, afterCoherent, afterBare⟩ := coherent.flushEach store.cache.keys
  refine ⟨after, flushed, afterCoherent, ?_⟩
  rw [afterBare, Bare.flushEach_eq, Bare.flushAll]
  apply store.bare.flushThose_congr
  intro page drafted
  obtain ⟨draft, drafted⟩ := Option.isSome_iff_exists.mp drafted
  obtain ⟨cached, present, -⟩ := cached_of_draft drafted
  rw [List.contains_iff_mem, Std.ExtTreeMap.mem_keys, Std.ExtTreeMap.mem_iff_isSome_getElem?,
    present]
  rfl

/-! ### Scans -/

theorem map_seen_rows (page : PageId) (first : Nat) (entries : List (Option Row))
    (placed : ∀ (index : Nat) (row : Row), entries[index]? = some (some row) →
      row.place = some ⟨page, first + index⟩) :
    (entries.filterMap fun entry => entry).map Row.seen =
      Slots.rowsFrom page first (entries.map (Option.map Row.stored)) := by
  induction entries generalizing first with
  | nil => rfl
  | cons entry entries ih =>
      have rest := ih (first + 1) fun index row present => by
        have here := placed (index + 1) row present
        rwa [← Nat.add_assoc, Nat.add_right_comm] at here
      cases entry with
      | none => exact rest
      | some row =>
          have here := placed 0 row rfl
          rw [List.map_cons, Option.map_some, Slots.rowsFrom, ← rest]
          change Row.seen row :: _ = _
          rw [Row.seen, here]
          rfl

theorem map_seen_rows_of_faithful {page : PageId} {cached : PageCopy} {table : Table}
    {directory : Directory} (faithful : cached.Faithful table directory page) :
    cached.page.rows.map Row.seen = Slots.rows page cached.page.contents := by
  apply map_seen_rows page 0 cached.page.slots.toList
  intro index row present
  rw [Nat.zero_add, ← faithful.idIs]
  refine (faithful.sound.fitting index row ?_).2
  rw [Page.row?_eq_getElem?, ← Array.getElem?_toList, present]
  rfl

end Store

def Scan.bare (scan : Scan) : BareScan :=
  ⟨scan.table, scan.transaction, scan.ahead, scan.buffered.map Row.seen⟩

def Scan.seen (outcome : Option (Except Failure Row)) : Option (Except Failure SeenRow) :=
  outcome.map fun found => found.map Row.seen

namespace Scan

variable {store : Store}

structure Steps (result : Option (Except Failure Row) × Scan × Store)
    (expected : Option (Except Failure SeenRow) × BareScan × Bare) : Prop where
  coherent : result.2.2.Coherent
  bareIs : result.2.2.bare = expected.2.2
  scanIs : result.2.1.bare = expected.2.1
  answered : Scan.seen result.1 = expected.1

theorem advance_steps (coherent : store.Coherent) (table : Table) (transaction : TransactionId)
    (first length : Nat) :
    Steps (advance table transaction first length store)
      (BareScan.advance table transaction first length store.bare) := by
  induction length generalizing store first with
  | zero => exact ⟨coherent, rfl, rfl, rfl⟩
  | succ length ih =>
      have fetches := coherent.getPage transaction (table.page (UInt32.ofNat first)) .readOnly
      unfold advance BareScan.advance
      generalize store.getPage transaction (table.page (UInt32.ofNat first)) .readOnly = result
        at fetches ⊢
      generalize store.bare.getPage transaction (table.page (UInt32.ofNat first)) .readOnly =
        expected at fetches ⊢
      obtain ⟨outcome, after⟩ := result
      obtain ⟨slots, bare⟩ := expected
      obtain ⟨afterCoherent, rfl, answered, present, -⟩ := fetches
      cases outcome with
      | error failure =>
          cases answered
          cases failure <;> exact ⟨afterCoherent, rfl, rfl, rfl⟩
      | ok cached =>
          cases answered
          obtain ⟨owner, -, faithful⟩ := afterCoherent.faithful _ cached (present cached rfl)
          have seen := Store.map_seen_rows_of_faithful faithful
          simp only
          rw [← seen]
          cases cached.page.rows with
          | nil => exact ih afterCoherent (first + 1)
          | cons row rows => exact ⟨afterCoherent, rfl, rfl, rfl⟩

theorem next_steps (coherent : store.Coherent) (scan : Scan) :
    Steps (scan.next store) (scan.bare.next store.bare) := by
  unfold next BareScan.next
  cases buffered : scan.buffered with
  | nil =>
      have none : scan.bare.buffered = [] := by
        rw [Scan.bare, buffered]
        rfl
      rw [none]
      exact advance_steps coherent scan.table scan.transaction scan.ahead.first scan.ahead.length
  | cons row rows =>
      have some : scan.bare.buffered = row.seen :: rows.map Row.seen := by
        rw [Scan.bare, buffered]
        rfl
      rw [some]
      exact ⟨coherent, rfl, rfl, rfl⟩

theorem table_advance (table : Table) (transaction : TransactionId) (first length : Nat)
    (store : Store) : (advance table transaction first length store).2.1.table = table := by
  induction length generalizing store first with
  | zero => rfl
  | succ length ih =>
      unfold advance
      split
      · rfl
      · rfl
      · split
        · exact ih _ _
        · rfl

theorem table_next (scan : Scan) (store : Store) : (scan.next store).2.1.table = scan.table := by
  unfold next
  split
  · rfl
  · exact table_advance _ _ _ _ _

theorem start_bare (coherent : store.Coherent) {table : Table}
    (known : store.tables[table.id]? = some table) (transaction : TransactionId) :
    (start table transaction store).map Scan.bare =
      BareScan.start table transaction store.bare := by
  unfold start BareScan.start
  by_cases zero : table.pageSize = 0
  · have same : table.pages.pageSize = 0 := zero
    rw [if_pos zero, Table.pageCount, PageFile.count, if_pos same]
    rfl
  · have whole : store.bare.counts table.id = table.pages.wholePages store.directory :=
      Store.counts_of_table known
    have exact : (UInt32.ofNat (table.pages.wholePages store.directory)).toNat =
        table.pages.wholePages store.directory :=
      UInt32.toNat_ofNat_of_lt' (coherent.countable _ _ known)
    rw [if_neg zero, Table.pageCount, PageFile.count_eq zero, whole]
    simp only [PageSpan.before, exact]
    rfl

end Scan

end RecordStore
