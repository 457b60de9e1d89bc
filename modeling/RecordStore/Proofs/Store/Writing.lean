import RecordStore.Proofs.Store.Fetch

set_option autoImplicit false

/-! Writing or appending a page changes what is read of that page only, and faithful copies of other
pages stay faithful. -/

namespace RecordStore

def PageCopy.flushed (cached : PageCopy) : PageCopy :=
  cached.withPage (cached.page.marked none).remembered

namespace Store

section Put

variable {store : Store} {table : Table} {number : Nat} {bytes : List UInt8}

def withPut (store : Store) (table : Table) (number : Nat) (bytes : List UInt8) : Store :=
  { store with directory := table.pages.put store.directory number bytes }

structure Puttable (store : Store) (table : Table) (number : Nat) (bytes : List UInt8) : Prop where
  known : store.tables[table.id]? = some table
  usable : table.Usable
  exact : bytes.length = table.pages.pageSize
  whole : number ≤ table.pages.wholePages store.directory
  small : number + 1 < UInt32.size

variable (distinct : Distinct store.tables) (countable : store.Countable)
  (puttable : Puttable store table number bytes)

include puttable

omit distinct countable in
theorem wholePages_withPut :
    table.pages.wholePages (store.withPut table number bytes).directory =
      max (table.pages.wholePages store.directory) (number + 1) :=
  PageFile.wholePages_put puttable.usable.positive puttable.exact

include distinct

theorem content_withPut {id : TableId} {other : Table} (known : store.tables[id]? = some other)
    (different : id ≠ table.id) :
    (store.withPut table number bytes).directory.content other.pages.file =
      store.directory.content other.pages.file := by
  apply PageFile.content_put_other number bytes
  intro same
  apply different
  exact (distinct.apart _ _ _ _ puttable.known known same).symm

theorem wholePages_withPut_other {id : TableId} {other : Table}
    (known : store.tables[id]? = some other) (different : id ≠ table.id) :
    other.pages.wholePages (store.withPut table number bytes).directory =
      other.pages.wholePages store.directory := by
  rw [PageFile.wholePages, PageFile.size, content_withPut distinct puttable known different]
  rfl

theorem bytesAt_withPut {page : PageId} {other : Table}
    (known : store.tables[page.table]? = some other)
    (away : ¬ (page.table = table.id ∧ page.number.toNat = number)) :
    other.pages.bytesAt (store.withPut table number bytes).directory page.number.toNat =
      other.pages.bytesAt store.directory page.number.toNat := by
  by_cases same : page.table = table.id
  · rw [same, puttable.known] at known
    cases known
    exact PageFile.bytesAt_put_other puttable.exact puttable.whole fun here => away ⟨same, here⟩
  · rw [PageFile.bytesAt, content_withPut distinct puttable known same]
    rfl

include countable

theorem countable_withPut : (store.withPut table number bytes).Countable := by
  intro id other known
  have before := countable id other known
  by_cases same : id = table.id
  · subst same
    cases puttable.known.symm.trans known
    have small := puttable.small
    rw [wholePages_withPut puttable]
    omega
  · rw [wholePages_withPut_other distinct puttable known same]
    exact before

theorem readPage_withPut {page : PageId} {other : Table}
    (known : store.tables[page.table]? = some other)
    (away : ¬ (page.table = table.id ∧ page.number.toNat = number)) :
    other.readPage (store.withPut table number bytes).directory page =
      other.readPage store.directory page := by
  by_cases same : page.table = table.id
  · rw [same, puttable.known] at known
    cases known
    have before := countable _ _ puttable.known
    have small := puttable.small
    exact Table.readPage_put_other puttable.usable puttable.exact puttable.whole (by omega)
      fun here => away ⟨same, here⟩
  · exact Table.readPage_congr (content_withPut distinct puttable known same)

theorem faithful_withPut {page : PageId} {other : Table} {cached : PageCopy}
    (known : store.tables[page.table]? = some other)
    (faithful : cached.Faithful other store.directory page)
    (away : ¬ (page.table = table.id ∧ page.number.toNat = number)) :
    cached.Faithful other (store.withPut table number bytes).directory page := by
  refine ⟨faithful.idIs, faithful.unlatched, faithful.sound, ?_, ?_, ?_⟩
  · have inside := faithful.inside
    by_cases same : page.table = table.id
    · rw [same, puttable.known] at known
      cases known
      rw [wholePages_withPut puttable]
      omega
    · rwa [wholePages_withPut_other distinct puttable known same]
  · rw [bytesAt_withPut distinct puttable known away]
    exact faithful.image
  · rw [readPage_withPut distinct countable puttable known away]
    exact faithful.readable

theorem written_withPut (page : PageId) :
    (store.withPut table number bytes).written page =
      if page.table = table.id ∧ page.number.toNat = number then
        match Page.decode page table.schema bytes with
        | .error error => .error (.refused error)
        | .ok found => .ok found.contents
      else store.written page := by
  have before := countable _ _ puttable.known
  have small := puttable.small
  by_cases here : page.table = table.id ∧ page.number.toNat = number
  · have known : (store.withPut table number bytes).tables[page.table]? = some table := by
      rw [here.1]
      exact puttable.known
    rw [if_pos here, written_of_table known, Table.written]
    change (table.readPage (table.pages.put store.directory number bytes) page).map _ = _
    rw [Table.readPage_put_same puttable.usable puttable.exact (by omega) here.1 here.2]
    cases Page.decode page table.schema bytes <;> rfl
  · have tables : (store.withPut table number bytes).tables = store.tables := rfl
    rw [if_neg here, written, written, table?, table?, tables]
    cases known : store.tables[page.table]? with
    | none => rfl
    | some other =>
        simp only
        rw [Table.written, readPage_withPut distinct countable puttable known here, Table.written]

end Put

variable {store : Store} {table : Table}

theorem page_of_parts (page : PageId) (table : Table) {number : Nat}
    (small : number < UInt32.size) :
    (page.table = table.id ∧ page.number.toNat = number) ↔
      page = table.page (UInt32.ofNat number) := by
  have exact : (UInt32.ofNat number).toNat = number := UInt32.toNat_ofNat_of_lt' small
  constructor
  · rintro ⟨same, here⟩
    cases page with
    | mk id pageNumber =>
        rw [Table.page, PageId.mk.injEq]
        exact ⟨same, UInt32.toNat_inj.mp (here.trans exact.symm)⟩
  · rintro rfl
    exact ⟨rfl, exact⟩

theorem page_of_own_parts {page : PageId} {table : Table} (owned : page.table = table.id)
    (other : PageId) :
    (other.table = table.id ∧ other.number.toNat = page.number.toNat) ↔ other = page := by
  rw [page_of_parts other table page.number.toNat_lt, UInt32.ofNat_toNat, Table.page, ← owned]

/-! ### Appending an empty page -/

/-- The store after a page of zeros was appended to this table. -/
def grown (store : Store) (table : Table) : Store :=
  store.withPut table (table.pages.wholePages store.directory)
    (List.replicate table.pages.pageSize 0)

theorem Coherent.grown (coherent : store.Coherent)
    (known : store.tables[table.id]? = some table) (usable : table.Usable)
    (small : table.pages.wholePages store.directory + 1 < UInt32.size) :
    (store.grown table).Coherent ∧ (store.grown table).bare = store.bare.grow table := by
  have puttable : Puttable store table (table.pages.wholePages store.directory)
      (List.replicate table.pages.pageSize 0) :=
    ⟨known, usable, List.length_replicate, Nat.le_refl _, small⟩
  have distinct := coherent.distinct
  have countable := coherent.countable
  have whole : store.counts table.id = table.pages.wholePages store.directory :=
    counts_of_table known
  refine ⟨⟨distinct, countable_withPut distinct countable puttable, ?_, coherent.bounded⟩, ?_⟩
  · intro page cached present
    obtain ⟨other, otherKnown, faithful⟩ := coherent.faithful page cached present
    refine ⟨other, otherKnown, faithful_withPut distinct countable puttable otherKnown faithful ?_⟩
    -- A cached page is one of those that were there.
    rintro ⟨same, last⟩
    rw [same, known] at otherKnown
    cases otherKnown
    have inside := faithful.inside
    omega
  · have counts : (store.grown table).counts = fun other =>
        if other = table.id then store.counts other + 1 else store.counts other := by
      funext id
      by_cases same : id = table.id
      · subst same
        rw [if_pos rfl, whole, @counts_of_table (store.grown table) _ _ known]
        refine (wholePages_withPut puttable).trans ?_
        omega
      · rw [if_neg same]
        cases other : store.tables[id]? with
        | none =>
            rw [Store.counts, Store.counts, show (store.grown table).tables = store.tables from rfl,
              other]
        | some found =>
            rw [counts_of_table other, @counts_of_table (store.grown table) _ _ other]
            exact wholePages_withPut_other distinct puttable other same
    have written : (store.grown table).written = fun other =>
        if other = table.page (UInt32.ofNat (store.counts table.id)) then
          .ok (List.replicate (Layout.slotCount table.pageSize table.schema.width) none)
        else store.written other := by
      funext page
      refine (written_withPut distinct countable puttable page).trans ?_
      obtain ⟨found, decoded, contents⟩ :=
        Page.decode_zeros page table.schema table.pages.pageSize
      have small : table.pages.wholePages store.directory < UInt32.size := by omega
      simp only [page_of_parts page table small, decoded, contents, whole]
      rfl
    rw [bare, counts, written]
    rfl

/-! ### Writing a copy -/

/-- The copy of a page that is in its file can be written in place. -/
theorem puttable_of_faithful (coherent : store.Coherent) {page : PageId} {cached : PageCopy}
    (known : store.tables[page.table]? = some table)
    (faithful : cached.Faithful table store.directory page) :
    Puttable store table page.number.toNat cached.page.encode := by
  obtain ⟨found, read, -⟩ := faithful.readable
  have inside := faithful.inside
  have limit := page.number.toNat_lt
  have before := coherent.countable _ _ known
  refine ⟨?_, Table.usable_of_readPage read, faithful.sound.length_encode, Nat.le_of_lt inside,
    by omega⟩
  rw [coherent.distinct.keyed _ _ known]
  exact known

theorem faithful_flushed (coherent : store.Coherent) {page : PageId} {cached : PageCopy}
    (known : store.tables[page.table]? = some table)
    (faithful : cached.Faithful table store.directory page) :
    cached.flushed.Faithful table
      (store.withPut table page.number.toNat cached.page.encode).directory page := by
  have puttable := puttable_of_faithful coherent known faithful
  have small := puttable.small
  have before := coherent.countable _ _ known
  have owned : page.table = table.id := (coherent.distinct.keyed _ _ known).symm
  refine ⟨faithful.idIs, faithful.unlatched, (faithful.sound.marked none).remembered, ?_, ?_, ?_⟩
  · rw [wholePages_withPut puttable]
    omega
  · exact (PageFile.bytesAt_put_same puttable.exact).symm
  · obtain ⟨found, decoded, contents, bitmap⟩ := faithful.sound.decode_encode page
    refine ⟨found, ?_, fun _ => ⟨contents, bitmap⟩⟩
    refine (Table.readPage_put_same puttable.usable puttable.exact (by omega) owned rfl).trans ?_
    rw [decoded]

theorem flush_dirty (coherent : store.Coherent) {page : PageId} {cached : PageCopy}
    (known : store.tables[page.table]? = some table)
    (faithful : cached.Faithful table store.directory page) (dirty : ¬ cached.isClean = true) :
    store.flush page cached = .ok
      ((store.withPut table page.number.toNat cached.page.encode).install page cached.flushed) := by
  have owned : cached.page.id.table = table.id := by
    rw [faithful.idIs, coherent.distinct.keyed _ _ known]
  have registered : store.table? cached.page.id.table = .ok table := by
    rw [faithful.idIs, table?, known]
  rw [Store.flush, if_neg dirty, registered]
  simp only [Table.writePage, Table.checkOwner_of_eq owned]
  rw [faithful.idIs, PageFile.write_eq (puttable_of_faithful coherent known faithful).exact]
  rfl

theorem flush_ok {after : Store} {page : PageId} {cached : PageCopy}
    (flushed : store.flush page cached = .ok after) :
    cached.isClean = true ∧ after = store ∨
      cached.isClean = false ∧ ∃ table directory,
        store.tables[cached.page.id.table]? = some table ∧
        cached.page.id.table = table.id ∧
        table.pages.write store.directory cached.page.id.number cached.page.encode =
          .ok directory ∧
        after = ({ store with directory := directory } : Store).install page cached.flushed := by
  unfold flush table? at flushed
  cases clean : cached.isClean with
  | true =>
      rw [clean, if_pos rfl] at flushed
      cases flushed
      exact .inl ⟨rfl, rfl⟩
  | false =>
      rw [clean, if_neg Bool.false_ne_true] at flushed
      cases known : store.tables[cached.page.id.table]? with
      | none => simp [known] at flushed
      | some table =>
          simp only [known] at flushed
          cases written : table.writePage store.directory cached.page with
          | error error => simp [written] at flushed
          | ok directory =>
              simp only [written, Except.ok.injEq] at flushed
              obtain ⟨owned, stored⟩ := Table.writePage_ok_iff.mp written
              exact .inr ⟨rfl, table, directory, rfl, owned, stored, flushed.symm⟩

theorem bare_flushed (coherent : store.Coherent) {page : PageId} {cached : PageCopy}
    (present : store.cache[page]? = some cached) (known : store.tables[page.table]? = some table)
    (faithful : cached.Faithful table store.directory page) (dirty : ¬ cached.isClean = true) :
    ((store.withPut table page.number.toNat cached.page.encode).install page cached.flushed).bare =
      store.bare.flush page := by
  have distinct := coherent.distinct
  have countable := coherent.countable
  have puttable := puttable_of_faithful coherent known faithful
  have inside := faithful.inside
  have small := puttable.small
  have owned : page.table = table.id := (distinct.keyed _ _ known).symm
  have here := page_of_own_parts owned
  have lookup := draft_lookup store page
  rw [present, Option.bind_some] at lookup
  have counts : (store.withPut table page.number.toNat cached.page.encode).counts =
      store.counts := by
    funext id
    have tables : (store.withPut table page.number.toNat cached.page.encode).tables =
        store.tables := rfl
    rw [Store.counts, Store.counts, tables]
    cases other : store.tables[id]? with
    | none => rfl
    | some found =>
        by_cases same : id = table.id
        · subst same
          cases puttable.known.symm.trans other
          refine (wholePages_withPut puttable).trans ?_
          exact Nat.max_eq_left inside
        · exact wholePages_withPut_other distinct puttable other same
  have written : (store.withPut table page.number.toNat cached.page.encode).written =
      fun other => if other = page then .ok cached.page.contents else store.written other := by
    funext other
    obtain ⟨found, decoded, contents, -⟩ := faithful.sound.decode_encode other
    rw [written_withPut distinct countable puttable, decoded]
    simp only [here, contents]
  have drafts : ((store.withPut table page.number.toNat cached.page.encode).install page
      cached.flushed).drafts = store.drafts.erase page :=
    filterMap_insert store.cache PageCopy.draft? page cached.flushed
  cases dirtied : cached.page.dirtier with
  | none =>
      refine absurd ?_ dirty
      rw [PageCopy.isClean, Page.isDirty, dirtied]
      rfl
  | some transaction =>
      have draft : cached.draft? = some ⟨transaction, cached.page.contents⟩ := by
        rw [PageCopy.draft?, dirtied]
        rfl
      rw [Bare.flush, lookup, draft]
      simp only [bare, drafts, Bare.write, Bare.discard]
      change (⟨_, _, _, _, (store.withPut table page.number.toNat cached.page.encode).counts,
        (store.withPut table page.number.toNat cached.page.encode).written, _⟩ : Bare) = _
      rw [counts, written]
      rfl

/-- `flush` never fails in a coherent store, and changes only what is read of that page. -/
theorem Coherent.flush (coherent : store.Coherent) {page : PageId} {cached : PageCopy}
    (present : store.cache[page]? = some cached) :
    ∃ after, store.flush page cached = .ok after ∧ after.Coherent ∧
      after.bare = store.bare.flush page := by
  have distinct := coherent.distinct
  have countable := coherent.countable
  have lookup := draft_lookup store page
  rw [present, Option.bind_some] at lookup
  by_cases clean : cached.isClean = true
  · refine ⟨store, ?_, coherent, ?_⟩
    · rw [Store.flush, if_pos clean]
    · rw [Bare.flush, lookup, cached.draft?_eq_none_iff.mpr clean]
  · obtain ⟨table, known, faithful⟩ := coherent.faithful page cached present
    have puttable := puttable_of_faithful coherent known faithful
    have small := puttable.small
    have owned : page.table = table.id := (distinct.keyed _ _ known).symm
    have written := countable_withPut distinct countable puttable
    refine ⟨_, flush_dirty coherent known faithful clean,
      ⟨distinct, fun id other known => written id other known, ?_, ?_⟩, ?_⟩
    · intro other copy found
      rw [Store.install, lookup_insert] at found
      split at found
      · next same =>
          cases found
          subst same
          exact ⟨table, known, faithful_flushed coherent known faithful⟩
      · next different =>
          obtain ⟨otherTable, otherKnown, otherFaithful⟩ := coherent.faithful other copy found
          refine ⟨otherTable, otherKnown, faithful_withPut distinct countable puttable otherKnown
            otherFaithful fun same => different ?_⟩
          exact ((page_of_own_parts owned other).mp same).symm
    · have held : store.cache[page]?.isSome := by
        rw [present]
        rfl
      exact Nat.le_trans (Nat.le_of_eq (size_insert_of_present cached.flushed held))
        coherent.bounded
    · exact bare_flushed coherent present known faithful clean

end Store

end RecordStore
