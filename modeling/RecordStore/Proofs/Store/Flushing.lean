import RecordStore.Proofs.Store.Attempts

set_option autoImplicit false

/-! `flushAll` and `flushPages`. While every cached page is backed by its file each covered dirty
page is written in place and is clean afterwards, and no page leaves the cache. -/

namespace RecordStore

theorem PageFile.length_write_inside {pages : PageFile} {directory after : Directory}
    {number : UInt32} {bytes : List UInt8}
    (written : pages.write directory number bytes = .ok after)
    (inside : number.toNat < pages.wholePages directory) (file : FileId) :
    (after.content file).length = (directory.content file).length := by
  by_cases same : pages.file = file
  · subst same
    obtain ⟨exact, rfl⟩ := write_ok_iff.mp written
    have last : number.toNat + 1 ≤ pages.wholePages directory := inside
    exact (size_put exact).trans (Nat.max_eq_left (whole_le_size last))
  · exact congrArg Content.length (content_write_other written same)

inductive Extent where
  | all
  | locked (transaction : TransactionId)
  deriving DecidableEq, Repr

namespace Extent

def pages (extent : Extent) (store : Store) : List PageId :=
  match extent with
  | .all => store.cache.keys
  | .locked transaction => store.locks.table.pagesOf transaction

def Covers (extent : Extent) (store : Store) (page : PageId) : Prop :=
  match extent with
  | .all => True
  | .locked transaction => store.holdsLock transaction page = true

def flush (extent : Extent) (store : Store) : Except StorageError Unit × Store :=
  match extent with
  | .all => store.flushAll
  | .locked transaction => store.flushPages transaction

variable {extent : Extent} {store after : Store} {page : PageId} {cached : PageCopy}

theorem flush_eq (extent : Extent) (store : Store) :
    extent.flush store = store.flushEach (extent.pages store) := by
  cases extent <;> rfl

theorem nodup_pages (extent : Extent) (store : Store) : (extent.pages store).Nodup := by
  cases extent with
  | all => exact Std.ExtTreeMap.nodup_keys
  | locked transaction => exact Store.nodup_pagesOf store.locks.table transaction

theorem covers_locked_iff {transaction : TransactionId} :
    (locked transaction).Covers store page ↔ (store.locks.modeOf transaction page).isSome := by
  rw [Covers, Store.holdsLock, LockTable.holds_eq]
  exact Iff.rfl

/-- The cached pages in the list are those that the extent covers. -/
theorem mem_pages_iff (consistent : store.locks.table.Consistent)
    (present : store.cache[page]? = some cached) :
    page ∈ extent.pages store ↔ extent.Covers store page := by
  cases extent with
  | all =>
      refine ⟨fun _ => trivial, fun _ => ?_⟩
      rw [pages, Std.ExtTreeMap.mem_keys, Std.ExtTreeMap.mem_iff_isSome_getElem?, present]
      rfl
  | locked transaction =>
      exact (LockTable.mem_pagesOf_iff consistent transaction page).trans covers_locked_iff.symm

theorem covers_congr (locks : after.locks = store.locks) :
    extent.Covers after page ↔ extent.Covers store page := by
  cases extent with
  | all => exact Iff.rfl
  | locked transaction => rw [Covers, Covers, Store.holdsLock, Store.holdsLock, locks]

end Extent

namespace Store

variable {store after : Store} {page : PageId} {cached : PageCopy} {attempts : List Attempt}

/-! ### Writing in place -/

def SameLengths (before after : Store) : Prop :=
  ∀ file, (after.directory.content file).length = (before.directory.content file).length

theorem SameLengths.wholePages_eq (same : SameLengths store after) (pages : PageFile) :
    pages.wholePages after.directory = pages.wholePages store.directory := by
  rw [PageFile.wholePages, PageFile.wholePages, PageFile.size, PageFile.size, same]

theorem SameLengths.staysCountable (same : SameLengths store after) :
    StaysCountable store after := by
  intro id table known small
  rwa [same.wholePages_eq]

namespace Backed

theorem flush_succeeds (backed : store.Backed) (present : store.cache[page]? = some cached) :
    ∃ after, store.flush page cached = .ok after := by
  cases clean : cached.isClean with
  | true => exact ⟨store, by rw [Store.flush, if_pos clean]⟩
  | false =>
      obtain ⟨table, known, faithful⟩ := backed.faithful page cached present
      have registered : store.table? cached.page.id.table = .ok table := by
        rw [faithful.idIs, table?, known]
      have placed :
          table.pages.write store.directory cached.page.id.number cached.page.encode = _ :=
        PageFile.write_eq faithful.sound.length_encode
      have written := Table.writePage_ok_iff.mpr
        ⟨(congrArg PageId.table faithful.idIs).trans faithful.owned, placed⟩
      rw [Store.flush, clean, if_neg Bool.false_ne_true, registered]
      simp only [written]
      exact ⟨_, rfl⟩

theorem sameLengths_flush (backed : store.Backed) (present : store.cache[page]? = some cached)
    (flushed : store.flush page cached = .ok after) : SameLengths store after := by
  rcases flush_ok flushed with ⟨-, rfl⟩ | ⟨-, table, directory, known, -, written, rfl⟩
  · exact fun _ => rfl
  · obtain ⟨other, otherKnown, faithful⟩ := backed.faithful page cached present
    rw [faithful.idIs] at known written
    obtain rfl : other = table := Option.some.inj (otherKnown.symm.trans known)
    exact PageFile.length_write_inside written faithful.inside

theorem tried (made : Attempts store attempts after) (backed : store.Backed) :
    after.Backed ∧ SameLengths store after := by
  induction made with
  | done store => exact ⟨backed, fun _ => rfl⟩
  | written present dirty flushed later ih =>
      have lengths := backed.sameLengths_flush present flushed
      obtain ⟨still, others⟩ := ih (backed.flush present flushed lengths.staysCountable)
      exact ⟨still, fun file => (others file).trans (lengths file)⟩
  | refused present dirty failed later ih => exact ih (backed.discard _)

theorem labelled (backed : store.Backed) : store.Labelled := by
  refine ⟨backed.distinct, fun page cached present => ?_⟩
  obtain ⟨table, known, faithful⟩ := backed.faithful page cached present
  exact faithful.idIs

end Backed

theorem locks_flushEach (store : Store) (pages : List PageId) :
    (store.flushEach pages).2.locks = store.locks :=
  flushEach_keeps (fun after => after.locks = store.locks)
    (fun _ _ _ writes kept => writes.locks_eq.trans kept) pages rfl

/-! ### Page after page -/

structure Flushing (store : Store) (pages : List PageId) (attempts : List Attempt)
    (after : Store) : Prop where
  made : Attempts store attempts after
  done : store.flushEach pages = (.ok (), after)
  fine : ∀ attempt ∈ attempts, attempt.error = none
  listed : (attempts.map Attempt.page).Sublist pages
  every : ∀ (page : PageId) (copy : PageCopy),
    (∃ attempt ∈ attempts, attempt.page = page ∧ attempt.copy = copy) ↔
      page ∈ pages ∧ store.cache[page]? = some copy ∧ copy.isClean = false

theorem flushEach_pass {pages : List PageId} (settled : store.Settled page) :
    store.flushEach (page :: pages) = store.flushEach pages := by
  rw [flushEach]
  cases present : store.cache[page]? with
  | none => rfl
  | some cached =>
      have flushed : store.flush page cached = .ok store := by
        rw [Store.flush, if_pos (settled cached present)]
      simp only [flushed]

theorem Flushing.pass {pages : List PageId} (settled : store.Settled page)
    (later : Flushing store pages attempts after) :
    Flushing store (page :: pages) attempts after := by
  exact ⟨later.made, (flushEach_pass settled).trans later.done, later.fine, later.listed.cons page,
    every_pass settled later.every⟩

theorem Flushing.write {pages : List PageId} {next : Store} (absent : page ∉ pages)
    (present : store.cache[page]? = some cached) (dirty : cached.isClean = false)
    (flushed : store.flush page cached = .ok next)
    (later : Flushing next pages attempts after) :
    Flushing store (page :: pages) (⟨page, cached, none⟩ :: attempts) after := by
  have others (other : PageId) (member : other ∈ pages) :
      next.cache[other]? = store.cache[other]? :=
    lookup_flush_other flushed fun same => absent (same ▸ member)
  refine ⟨.written present dirty flushed later.made, ?_, List.forall_mem_cons.mpr ⟨rfl, later.fine⟩,
    later.listed.cons_cons page, every_attempt present dirty others later.every⟩
  rw [flushEach, present]
  simp only [flushed, later.done]

/-- `flushEach` cannot fail while every cached page is backed by its file. -/
theorem Backed.flushing (backed : store.Backed) {pages : List PageId} (distinct : pages.Nodup) :
    ∃ attempts after, Flushing store pages attempts after := by
  induction pages generalizing store with
  | nil => exact ⟨[], store, .done store, rfl, nofun, .slnil, by simp⟩
  | cons page pages ih =>
      obtain ⟨absent, distinct⟩ := List.nodup_cons.mp distinct
      cases present : store.cache[page]? with
      | none =>
          obtain ⟨attempts, after, later⟩ := ih backed distinct
          exact ⟨_, _, later.pass (settled_of_absent present)⟩
      | some cached =>
          cases clean : cached.isClean with
          | true =>
              obtain ⟨attempts, after, later⟩ := ih backed distinct
              exact ⟨_, _, later.pass (settled_of_clean present clean)⟩
          | false =>
              obtain ⟨next, flushed⟩ := backed.flush_succeeds present
              have lengths := backed.sameLengths_flush present flushed
              obtain ⟨attempts, after, later⟩ :=
                ih (backed.flush present flushed lengths.staysCountable) distinct
              exact ⟨_, _, later.write absent present clean flushed⟩

/-! ### Everything that is covered -/

/-- The covered pages are written in place, clean, and equal to their bytes and before-image. Other
pages, locks and lengths are unchanged, and a second call writes nothing. -/
structure Flushes (before : Store) (extent : Extent) (after : Store) : Prop where
  kept : ∀ (page : PageId) (cached : PageCopy), before.cache[page]? = some cached →
    extent.Covers before page → ∃ copy, after.cache[page]? = some copy ∧ copy.isClean = true ∧
      copy.page.slots = cached.page.slots ∧ copy.page.bitmap = cached.page.bitmap
  written : ∀ (page : PageId) (cached : PageCopy), before.cache[page]? = some cached →
    cached.isClean = false → extent.Covers before page → ∃ copy table,
      after.cache[page]? = some copy ∧ before.tables[page.table]? = some table ∧
        copy.page.encode = cached.page.encode ∧
        table.pages.bytesAt after.directory page.number.toNat = copy.page.encode ∧
        copy.page.beforeImage = copy.page.encode
  others : ∀ page, (∀ cached, before.cache[page]? = some cached → cached.isClean = false →
    ¬ extent.Covers before page) → after.cache[page]? = before.cache[page]?
  cached : ∀ page, after.isCached page = before.isCached page
  locks : after.locks = before.locks
  tables : after.tables = before.tables
  lengths : SameLengths before after
  bytes : ∀ (file : FileId) (offset : Nat) (byte : UInt8),
    before.directory.byteAt? file offset = some byte →
    (∀ (page : PageId) (cached : PageCopy), before.cache[page]? = some cached →
      cached.isClean = false → extent.Covers before page → ¬ before.Spans cached file offset) →
    after.directory.byteAt? file offset = some byte
  again : extent.flush after = (.ok (), after)

theorem flushEach_settled {pages : List PageId} (settled : ∀ page ∈ pages, store.Settled page) :
    store.flushEach pages = (.ok (), store) := by
  induction pages with
  | nil => rfl
  | cons page pages ih =>
      rw [flushEach_pass (settled page List.mem_cons_self)]
      exact ih fun other member => settled other (List.mem_cons_of_mem page member)

theorem present_of_isCached_eq (same : after.isCached page = store.isCached page)
    (found : after.cache[page]? = some cached) : ∃ former, store.cache[page]? = some former := by
  rw [isCached, isCached, contains_eq_isSome, contains_eq_isSome, found] at same
  exact Option.isSome_iff_exists.mp same.symm

namespace Flushing

theorem locks_eq {pages : List PageId} (flushing : Flushing store pages attempts after) :
    after.locks = store.locks := by
  have same := store.locks_flushEach pages
  rwa [flushing.done] at same

theorem isCached_eq {pages : List PageId} (flushing : Flushing store pages attempts after)
    (page : PageId) : after.isCached page = store.isCached page := by
  have same := flushEach_keeps (fun after => after.isCached page = store.isCached page)
    (fun _ _ _ writes kept => (writes.isCached_eq page).trans kept) pages rfl
  rwa [flushing.done] at same

variable {extent : Extent} (flushing : Flushing store (extent.pages store) attempts after)
  (consistent : store.locks.table.Consistent)

include flushing consistent

/-- Every attempt is of a covered dirty page, with its cached copy. -/
theorem covered {attempt : Attempt} (member : attempt ∈ attempts) :
    store.cache[attempt.page]? = some attempt.copy ∧ attempt.copy.isClean = false ∧
      extent.Covers store attempt.page := by
  obtain ⟨listed, present, dirty⟩ :=
    (flushing.every attempt.page attempt.copy).mp ⟨attempt, member, rfl, rfl⟩
  exact ⟨present, dirty, (Extent.mem_pages_iff consistent present).mp listed⟩

theorem attempted (present : store.cache[page]? = some cached) (dirty : cached.isClean = false)
    (covered : extent.Covers store page) : (⟨page, cached, none⟩ : Attempt) ∈ attempts := by
  obtain ⟨attempt, member, rfl, rfl⟩ := (flushing.every page cached).mpr
    ⟨(Extent.mem_pages_iff consistent present).mpr covered, present, dirty⟩
  rwa [← flushing.fine attempt member]

theorem lookup_spared (spared : ∀ cached, store.cache[page]? = some cached →
    cached.isClean = false → ¬ extent.Covers store page) :
    after.cache[page]? = store.cache[page]? := by
  refine flushing.made.lookup_other fun attempt member same => ?_
  obtain ⟨present, dirty, covers⟩ := flushing.covered consistent member
  rw [same] at present covers
  exact spared attempt.copy present dirty covers

theorem lookup_written (present : store.cache[page]? = some cached)
    (dirty : cached.isClean = false) (covered : extent.Covers store page) :
    after.cache[page]? = some cached.flushed := by
  have distinct := flushing.listed.nodup (extent.nodup_pages store)
  exact flushing.made.lookup_attempted distinct _
    (flushing.attempted consistent present dirty covered)

theorem kept (present : store.cache[page]? = some cached) (covered : extent.Covers store page) :
    ∃ copy, after.cache[page]? = some copy ∧ copy.isClean = true ∧
      copy.page.slots = cached.page.slots ∧ copy.page.bitmap = cached.page.bitmap := by
  cases clean : cached.isClean with
  | false => exact ⟨_, flushing.lookup_written consistent present clean covered, rfl, rfl, rfl⟩
  | true =>
      refine ⟨cached, (flushing.lookup_spared consistent fun copy found dirty => ?_).trans present,
        clean, rfl, rfl⟩
      rw [present] at found
      cases found
      rw [clean] at dirty
      cases dirty

/-- A second call changes nothing. -/
theorem again : extent.flush after = (.ok (), after) := by
  have same := flushing.locks_eq
  rw [extent.flush_eq]
  refine flushEach_settled fun page listed copy found => ?_
  rw [Extent.mem_pages_iff (same ▸ consistent) found, Extent.covers_congr same] at listed
  obtain ⟨cached, present⟩ := present_of_isCached_eq (flushing.isCached_eq page) found
  obtain ⟨again, here, clean, -⟩ := flushing.kept consistent present listed
  rw [here] at found
  cases found
  exact clean

end Flushing

theorem Backed.flushes (backed : store.Backed) (consistent : store.locks.table.Consistent)
    (extent : Extent) :
    ∃ after, extent.flush store = (.ok (), after) ∧ after.Backed ∧ Flushes store extent after := by
  obtain ⟨attempts, after, flushing⟩ := backed.flushing (extent.nodup_pages store)
  have made := flushing.made
  obtain ⟨still, lengths⟩ := backed.tried made
  refine ⟨after, (extent.flush_eq store).trans flushing.done, still, ?_, ?_, ?_,
    flushing.isCached_eq, flushing.locks_eq, made.tables_eq, lengths, ?_,
    flushing.again consistent⟩
  · intro page cached present covered
    exact flushing.kept consistent present covered
  · intro page cached present dirty covered
    have distinct := flushing.listed.nodup (extent.nodup_pages store)
    have member := flushing.attempted consistent present dirty covered
    obtain ⟨table, known, bytes⟩ := made.bytesAt_attempted backed.labelled distinct _ member rfl
    exact ⟨cached.flushed, table, flushing.lookup_written consistent present dirty covered, known,
      rfl, bytes, rfl⟩
  · intro page spared
    exact flushing.lookup_spared consistent spared
  · intro file offset byte present outside
    refine made.byteAt? present fun attempt member _ => ?_
    obtain ⟨found, dirty, covers⟩ := flushing.covered consistent member
    exact outside attempt.page attempt.copy found dirty covers

end Store

end RecordStore
