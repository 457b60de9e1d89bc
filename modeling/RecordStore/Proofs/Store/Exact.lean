import RecordStore.Proofs.Store.Run

set_option autoImplicit false

/-! Rows that storing leaves unchanged. A page read from its file has only such rows, and as long as
only such rows are inserted no cached page has others. -/

namespace RecordStore

def Value.Fits : Value → Prop
  | .int _ => True
  | .text content => (Utf8.encode content.toList).length ≤ textRoom

theorem Value.fits_iff (value : Value) : value.Fits ↔ value.stored = value := by
  cases value with
  | int number => exact ⟨fun _ => rfl, fun _ => trivial⟩
  | text content => exact (Value.stored_text_eq_self_iff content).symm

def Row.Fits (row : Row) : Prop := ∀ value, value ∈ row.values → value.Fits

theorem Row.fits_iff (row : Row) : row.Fits ↔ row.stored = row.values := by
  rw [Row.stored]
  constructor
  · intro fits
    rw [List.map_congr_left fun value member => value.fits_iff.mp (fits value member), List.map_id']
  · intro same value member
    rw [Value.fits_iff]
    exact List.map_inj_left.mp (same.trans (List.map_id row.values).symm) value member

def Page.Exact (page : Page) (id : PageId) : Prop :=
  ∀ row, row ∈ page.rows → row.place.map RecordId.page = some id → row.Fits

namespace Page

variable {page after : Page} {id : PageId}

theorem mem_rows_iff (page : Page) (row : Row) : row ∈ page.rows ↔ some row ∈ page.slots := by
  rw [rows, List.mem_filterMap, ← Array.mem_toList_iff]
  constructor
  · rintro ⟨entry, member, rfl⟩
    exact member
  · intro member
    exact ⟨some row, member, rfl⟩

theorem Exact.of_slots (exact : page.Exact id) (slots : after.slots = page.slots) :
    after.Exact id := by
  intro row member
  rw [mem_rows_iff, slots, ← mem_rows_iff] at member
  exact exact row member

theorem Exact.insert (exact : page.Exact id) {row : Row} (fits : row.Fits) {record : RecordId}
    (inserted : page.insert row = .ok (record, after)) : after.Exact id := by
  unfold Page.insert at inserted
  split at inserted
  · split at inserted
    · cases inserted
    · cases inserted
      intro other member
      rw [mem_rows_iff] at member
      rcases Array.mem_or_eq_of_mem_setIfInBounds member with before | new
      · exact exact other ((mem_rows_iff page other).mpr before)
      · cases new
        exact fun _ => fits
  · cases inserted

theorem Exact.delete (exact : page.Exact id) {record : RecordId}
    (deleted : page.delete record = .ok after) : after.Exact id := by
  unfold Page.delete at deleted
  split at deleted
  · cases deleted
  · split at deleted
    · cases deleted
    · split at deleted
      · cases deleted
      · cases deleted
        intro other member
        rw [mem_rows_iff] at member
        rcases Array.mem_or_eq_of_mem_setIfInBounds member with before | new
        · exact exact other ((mem_rows_iff page other).mpr before)
        · cases new

theorem Loaded.exactAt {schema : Schema} {bytes : List UInt8} {place : PageId}
    (loaded : page.Loaded place schema bytes) (id : PageId) : page.Exact id := by
  intro row member _
  rw [mem_rows_iff, Array.mem_iff_getElem?] at member
  obtain ⟨slot, present⟩ := member
  rw [Row.fits_iff]
  refine (loaded.exact slot row ?_).2
  rw [row?_eq_getElem?, present]
  rfl

end Page

theorem Table.exact_of_readPage {table : Table} {directory : Directory} {page : PageId}
    {found : Page} (read : table.readPage directory page = .ok found) (id : PageId) :
    found.Exact id := by
  unfold Table.readPage at read
  split at read
  · cases read
  · split at read
    · cases read
    · split at read
      · cases read
      · cases read
      · split at read
        · cases read
        · next decoded =>
            cases read
            exact (Page.loaded_of_decode decoded).exactAt id

theorem PageCopy.Faithful.place_of_mem {cached : PageCopy} {table : Table} {directory : Directory}
    {page : PageId} (faithful : cached.Faithful table directory page) {row : Row}
    (member : row ∈ cached.page.rows) : row.place.map RecordId.page = some page := by
  rw [Page.mem_rows_iff, Array.mem_iff_getElem?] at member
  obtain ⟨slot, found⟩ := member
  have stands : cached.page.row? slot = some row := by
    rw [Page.row?_eq_getElem?, found]
    rfl
  rw [(faithful.sound.fitting slot row stands).2, faithful.idIs]
  rfl

namespace Store

def Exact (store : Store) (id : PageId) : Prop :=
  ∀ (page : PageId) (cached : PageCopy), store.cache[page]? = some cached → cached.page.Exact id

inductive Yields {Error Outcome : Type} (id : PageId) (copy? : Outcome → Option PageCopy) :
    Except Error Outcome × Store → Prop where
  | failed {store : Store} (error : Error) : store.Exact id → Yields id copy? (.error error, store)
  | done {store : Store} {outcome : Outcome} : store.Exact id →
      (∀ cached, copy? outcome = some cached → cached.page.Exact id) →
      Yields id copy? (.ok outcome, store)

theorem Yields.kept {Error Outcome : Type} {id : PageId} {copy? : Outcome → Option PageCopy}
    {result : Except Error Outcome × Store} (yields : Yields id copy? result) :
    result.2.Exact id := by
  cases yields with
  | failed error kept => exact kept
  | done kept copies => exact kept

variable {store : Store}

namespace Exact

variable {id : PageId}

theorem of_cache {after : Store} (exact : store.Exact id) (cache : after.cache = store.cache) :
    after.Exact id := by
  rw [Exact, cache]
  exact exact

theorem discard (exact : store.Exact id) (page : PageId) : (store.discard page).Exact id := by
  intro other cached present
  rw [Store.discard, lookup_erase] at present
  split at present
  · cases present
  · exact exact other cached present

theorem install (exact : store.Exact id) (page : PageId) {cached : PageCopy}
    (new : cached.page.Exact id) : (store.install page cached).Exact id := by
  intro other copy present
  rw [Store.install, lookup_insert] at present
  split at present
  · cases present
    exact new
  · exact exact other copy present

theorem update (exact : store.Exact id) (page : PageId) {cached : PageCopy}
    (new : cached.page.Exact id) : (store.update page cached).Exact id := by
  unfold Store.update
  split
  · split
    · exact exact.install page new
    · exact exact
  · exact exact

theorem evict (exact : store.Exact id) : store.evict.2.Exact id := by
  unfold Store.evict
  split
  · exact exact.discard _
  · exact exact

theorem makeRoom (exact : store.Exact id) : store.makeRoom.2.Exact id := by
  unfold Store.makeRoom
  split
  · exact exact.evict
  · exact exact

/-! ### Fetching -/

theorem load (exact : store.Exact id) (page : PageId) : Yields id some (store.load page) := by
  unfold Store.load
  split
  · exact .failed _ exact
  · have roomy := exact.makeRoom
    split
    · next made =>
        rw [made] at roomy
        exact .failed _ roomy
    · next made =>
        rw [made] at roomy
        split
        · exact .failed _ roomy
        · next content read =>
            have whole := Table.exact_of_readPage read id
            refine .done (install (of_cache roomy rfl) page whole) fun cached found => ?_
            cases found
            exact whole

theorem fetch (exact : store.Exact id) (page : PageId) : Yields id some (store.fetch page) := by
  unfold Store.fetch
  split
  · next cached present =>
      refine .done exact fun other found => ?_
      cases found
      exact exact page cached present
  · exact exact.load page

theorem getPage (exact : store.Exact id) (transaction : TransactionId) (page : PageId)
    (access : Access) : Yields id some (store.getPage transaction page access) := by
  have acquired : (store.acquire transaction page access.mode).2.cache = store.cache := by
    unfold Store.acquire
    split <;> rfl
  have kept := exact.of_cache acquired
  unfold Store.getPage
  split
  · next refused =>
      rw [refused] at kept
      exact .failed _ kept
  · next granted =>
      rw [granted] at kept
      exact kept.fetch page

/-! ### Inserting and deleting -/

variable {row : Row}

theorem placeOn (exact : store.Exact id) (fits : row.Fits) {page : PageId} {cached : PageCopy}
    (whole : cached.page.Exact id) :
    Yields id (Option.map Placement.cached) (store.placeOn page cached row) := by
  unfold Store.placeOn
  split
  · exact .done exact fun _ found => by cases found
  · split
    · exact .failed _ exact
    · next inserted =>
        have after := whole.insert fits inserted
        refine .done (exact.update page after) fun copy found => ?_
        cases found
        exact after

theorem placeAt (exact : store.Exact id) (fits : row.Fits) (transaction : TransactionId)
    (page : PageId) :
    Yields id (Option.map Placement.cached) (store.placeAt transaction page row) := by
  have fetched := exact.getPage transaction page .readWrite
  unfold Store.placeAt
  split
  · next got =>
      rw [got] at fetched
      exact .failed _ fetched.kept
  · next cached middle got =>
      rw [got] at fetched
      cases fetched with
      | done kept copies =>
          have placed : Yields id (Option.map Placement.cached) (middle.placeOn page cached row) :=
            placeOn kept fits (copies cached rfl)
          split
          · next tried =>
              rw [tried] at placed
              exact .failed _ placed.kept
          · next tried =>
              rw [tried] at placed
              cases placed with
              | done kept copies => exact .done kept copies

theorem placeAmong (exact : store.Exact id) (fits : row.Fits) (table : Table)
    (transaction : TransactionId) (first length : Nat) :
    Yields id (Option.map Placement.cached)
      (store.placeAmong table transaction row first length) := by
  induction length generalizing store first with
  | zero => exact .done exact fun _ found => by cases found
  | succ length ih =>
      have tried := exact.placeAt fits transaction (table.page (UInt32.ofNat first))
      unfold Store.placeAmong
      split
      · next done =>
          rw [done] at tried
          exact tried
      · next done =>
          rw [done] at tried
          exact tried
      · next done =>
          rw [done] at tried
          exact ih tried.kept (first + 1)

theorem placeAppended (exact : store.Exact id) (fits : row.Fits) (table : Table)
    (transaction : TransactionId) (tries : Nat) :
    Yields id (fun placement => some placement.cached)
      (Store.placeAppended table transaction row tries store) := by
  induction tries generalizing store with
  | zero => exact .failed _ exact
  | succ tries ih =>
      unfold Store.placeAppended
      split
      · exact .failed _ exact
      · next number directory allocated =>
          have grown : ({ store with directory := directory } : Store).Exact id :=
            exact.of_cache rfl
          have tried := grown.placeAt fits transaction (table.page number)
          split
          · next done =>
              rw [done] at tried
              exact .failed _ tried.kept
          · next done =>
              rw [done] at tried
              cases tried with
              | done kept copies => exact .done kept copies
          · next done =>
              rw [done] at tried
              exact ih tried.kept

theorem place (exact : store.Exact id) (fits : row.Fits) (table : Table)
    (transaction : TransactionId) :
    Yields id (fun placement => some placement.cached) (store.place table transaction row) := by
  unfold Store.place
  split
  · exact .failed _ exact
  · split
    · exact .failed _ exact
    · split
      · exact .failed _ exact
      · split
        · exact .failed _ exact
        · next count counted =>
            have tried := exact.placeAmong fits table transaction 0 count.toNat
            split
            · next done =>
                rw [done] at tried
                exact .failed _ tried.kept
            · next done =>
                rw [done] at tried
                cases tried with
                | done kept copies => exact .done kept copies
            · next done =>
                rw [done] at tried
                exact placeAppended tried.kept fits table transaction _

theorem remove (exact : store.Exact id) (table : Table) (transaction : TransactionId)
    (record : Option RecordId) :
    Yields id (fun changed => some changed.2) (store.remove table transaction record) := by
  unfold Store.remove
  split
  · exact .failed _ exact
  · next place =>
      split
      · exact .failed _ exact
      · have fetched := exact.getPage transaction place.page .readWrite
        split
        · next got =>
            rw [got] at fetched
            exact .failed _ fetched.kept
        · next cached middle got =>
            rw [got] at fetched
            cases fetched with
            | done kept copies =>
                split
                · exact .failed _ kept
                · next content deleted =>
                    have after := Page.Exact.delete (copies cached rfl) deleted
                    refine .done (update kept place.page after) fun copy found => ?_
                    cases found
                    exact after

theorem installDirty (exact : store.Exact id) (transaction : TransactionId) (page : PageId)
    {cached : PageCopy} (whole : cached.page.Exact id) :
    (store.installDirty transaction page cached).2.Exact id := by
  have marked : (cached.withPage (cached.page.marked (some transaction))).page.Exact id :=
    whole.of_slots rfl
  have updated := exact.update page marked
  unfold Store.installDirty
  simp only
  split
  · exact updated.install page marked
  · have roomy := updated.makeRoom
    split
    · next made =>
        rw [made] at roomy
        exact roomy
    · next made =>
        rw [made] at roomy
        exact install roomy page marked

theorem insert (exact : store.Exact id) (fits : row.Fits) (transaction : TransactionId)
    (table : TableId) : (store.insert transaction table row).2.2.Exact id := by
  unfold Store.insert
  split
  · exact exact
  · next found known =>
      have placed := exact.place fits found transaction
      split
      · next done =>
          rw [done] at placed
          exact placed.kept
      · next placement middle done =>
          rw [done] at placed
          cases placed with
          | done kept copies =>
              have installed := installDirty kept transaction placement.page (copies _ rfl)
              simp only
              split
              · next marked =>
                  rw [marked] at installed
                  exact installed
              · next marked =>
                  rw [marked] at installed
                  exact installed

theorem delete (exact : store.Exact id) (transaction : TransactionId)
    (record : Option RecordId) : (store.delete transaction record).2.Exact id := by
  unfold Store.delete
  split
  · exact exact
  · next place =>
      split
      · exact exact
      · next table known =>
          have removed := exact.remove table transaction (some place)
          split
          · next done =>
              rw [done] at removed
              exact removed.kept
          · next page cached middle done =>
              rw [done] at removed
              cases removed with
              | done kept copies =>
                  have installed := installDirty kept transaction page (copies cached rfl)
                  split
                  · next marked =>
                      rw [marked] at installed
                      exact installed
                  · next marked =>
                      rw [marked] at installed
                      exact installed

/-! ### Writing pages and ending transactions -/

theorem flush (exact : store.Exact id) {page : PageId} {cached : PageCopy}
    (whole : cached.page.Exact id) {after : Store} (flushed : store.flush page cached = .ok after) :
    after.Exact id := by
  rcases flush_ok flushed with ⟨-, rfl⟩ | ⟨-, table, directory, -, -, -, rfl⟩
  · exact exact
  · have moved : ({ store with directory := directory } : Store).Exact id := exact.of_cache rfl
    exact moved.install page (whole.of_slots rfl)

theorem flushEach (exact : store.Exact id) (pages : List PageId) :
    (store.flushEach pages).2.Exact id := by
  induction pages generalizing store with
  | nil => exact exact
  | cons page pages ih =>
      unfold Store.flushEach
      split
      · exact ih exact
      · next cached present =>
          split
          · exact exact
          · next after flushed => exact ih (exact.flush (exact page cached present) flushed)

theorem settlePage (exact : store.Exact id) (commits : Bool) (page : PageId) :
    (store.settlePage commits page).2.Exact id := by
  unfold Store.settlePage
  split
  · exact exact
  · next cached present =>
      split
      · exact exact
      · split
        · unfold Store.commitPage
          split
          · next after flushed => exact exact.flush (exact page cached present) flushed
          · exact exact.discard page
        · exact exact.discard page

theorem settlePages (exact : store.Exact id) (commits : Bool) (transaction : TransactionId)
    (pages : List PageId) : (store.settlePages commits transaction pages).2.Exact id := by
  induction pages generalizing store with
  | nil => exact exact
  | cons page pages ih => exact ih (of_cache (exact.settlePage commits page) rfl)

theorem complete (exact : store.Exact id) (commits : Bool) (transaction : TransactionId) :
    (store.complete commits transaction).2.Exact id := by
  have settled := exact.settlePages commits transaction (store.locks.table.pagesOf transaction)
  unfold Store.complete
  simp only
  split
  · exact settled.of_cache rfl
  · exact settled.of_cache rfl

/-! ### Scans -/

theorem advance (exact : store.Exact id) (table : Table) (transaction : TransactionId)
    (first length : Nat) : (Scan.advance table transaction first length store).2.2.Exact id := by
  induction length generalizing store first with
  | zero => exact exact
  | succ length ih =>
      have fetched := exact.getPage transaction (table.page (UInt32.ofNat first)) .readOnly
      unfold Scan.advance
      split
      · next got =>
          rw [got] at fetched
          exact fetched.kept
      · next got =>
          rw [got] at fetched
          exact fetched.kept
      · next got =>
          rw [got] at fetched
          split
          · exact ih fetched.kept (first + 1)
          · exact fetched.kept

theorem next (exact : store.Exact id) (scan : Scan) : (scan.next store).2.2.Exact id := by
  unfold Scan.next
  split
  · exact exact
  · exact exact.advance scan.table scan.transaction scan.ahead.first scan.ahead.length

end Exact

theorem Coherent.exact (coherent : store.Coherent) {id : PageId}
    (whole : ∀ cached, store.cache[id]? = some cached → cached.page.Exact id) :
    store.Exact id := by
  intro page cached present
  by_cases same : page = id
  · subst same
    exact whole cached present
  · intro row member here
    obtain ⟨table, -, faithful⟩ := coherent.faithful page cached present
    rw [faithful.place_of_mem member] at here
    exact absurd (Option.some.inj here) same

end Store

def Operation.Fitting : Operation → Prop
  | .insert _ _ row => row.Fits
  | _ => True

theorem System.exact_perform {system : System} {id : PageId} (exact : system.store.Exact id)
    {operation : Operation} (fitting : operation.Fitting) :
    (system.perform operation).2.store.Exact id := by
  cases operation with
  | begin => exact exact.of_cache rfl
  | get transaction page access => exact (exact.getPage transaction page access).kept
  | insert transaction table row => exact exact.insert fitting transaction table
  | delete transaction record => exact exact.delete transaction record
  | scan name transaction table =>
      rw [System.store_scan]
      exact exact
  | next name =>
      simp only [System.perform]
      split
      · exact exact
      · exact exact.next _
  | rewind name =>
      rw [System.store_rewind]
      exact exact
  | evict => exact exact.evict
  | commit transaction => exact exact.complete true transaction
  | abort transaction => exact exact.complete false transaction
  | release transaction page => exact exact.of_cache rfl
  | discard page => exact exact.discard page
  | flush transaction => exact exact.flushEach _
  | flushAll => exact exact.flushEach _

end RecordStore
