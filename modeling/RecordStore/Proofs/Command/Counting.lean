import RecordStore.Command.Stress
import RecordStore.Proofs.Store.AtRest
import RecordStore.Proofs.Store.Names

set_option autoImplicit false

/-! The result of `countRecords`, and `AddsEach`: every row has a record of its own, and nothing
else has changed. The count then grows by the number of rows. -/

namespace RecordStore.Stress

variable {table : Table} {store middle after : Store} {rows : List Row} {count : Nat}

/-! ### Counting the records -/

theorem countRecords_of_scanned (coherent : store.Coherent)
    (known : store.tables[table.id]? = some table)
    (scanned : store.begin.2.Scanned table store.begin.1 rows middle) :
    ∃ after, countRecords table store = (.ok rows.length, after) ∧ after.Coherent ∧
      after.bare = middle.bare.complete true store.begin.1 := by
  have begun : store.begin.2.Coherent :=
    ⟨coherent.distinct, coherent.countable, coherent.faithful, coherent.bounded⟩
  obtain ⟨-, middleCoherent, -⟩ := begun.scanned known scanned
  obtain ⟨after, committed, afterCoherent, bareIs⟩ :=
    middleCoherent.complete true store.begin.1
  obtain ⟨scan, ended, started, rested⟩ := scanned
  refine ⟨after, ?_, afterCoherent, bareIs⟩
  rw [countRecords]
  simp only [started, rested, Store.commit, committed]

theorem scanned_of_countRecords (counted : countRecords table store = (.ok count, after)) :
    ∃ rows middle, store.begin.2.Scanned table store.begin.1 rows middle := by
  unfold countRecords at counted
  dsimp only at counted
  split at counted
  · cases counted
  · next scan started =>
      split at counted
      · cases counted
      · next rows ended middle rested => exact ⟨rows, middle, scan, ended, started, rested⟩

theorem extends_countRecords (table : Table) (store : Store) :
    (countRecords table store).2.Extends store := by
  unfold countRecords
  dsimp only
  split
  · exact store.begin.2.names_complete false _
  · next scan started =>
      have drained := (Store.files_rest scan store.begin.2).toExtends
      split
      · next failure ended middle rested =>
          rw [rested] at drained
          exact (middle.names_complete false _).trans drained
      · next rows ended middle rested =>
          rw [rested] at drained
          have committed := (middle.names_complete true store.begin.1).trans drained
          split <;>
            next done =>
              rwa [show middle.complete true store.begin.1 = _ from done] at committed

section Count

variable (coherent : store.Coherent) (rest : store.bare.AtRest)
  (known : store.tables[table.id]? = some table)

include coherent rest known

/-- A `countRecords` without an error has counted every record and leaves tables, files and room
`Unchanged`. -/
theorem countRecords_ok (counted : countRecords table store = (.ok count, after)) :
    table.pageSize ≠ 0 ∧ store.bare.Settled table (store.listed table) ∧
      count = (store.listed table).length ∧ after.Coherent ∧ after.bare.AtRest ∧
      after.bare.Unchanged store.bare := by
  obtain ⟨rows, middle, scanned⟩ := scanned_of_countRecords counted
  have begun : store.begin.2.Coherent :=
    ⟨coherent.distinct, coherent.countable, coherent.faithful, coherent.bounded⟩
  have begunRest : store.begin.2.bare.AtRest :=
    ⟨rest.consistent, rest.unlocked, rest.undrafted⟩
  obtain ⟨positive, -, locks, -, -, listed⟩ := begun.scanned known scanned
  have settled := begun.settled_of_scanned known begunRest scanned
  obtain ⟨final, again, finalCoherent, bareIs⟩ := countRecords_of_scanned coherent known scanned
  rw [counted, Prod.mk.injEq, Except.ok.injEq] at again
  obtain ⟨rfl, rfl⟩ := again
  obtain ⟨finalRest, unchanged⟩ := begunRest.complete locks true
  rw [← bareIs] at finalRest unchanged
  refine ⟨positive, ⟨settled.unlocked, settled.undrafted, settled.listed, settled.readable,
    settled.roomy⟩, ?_, finalCoherent, finalRest, unchanged.tables, unchanged.capacity,
    unchanged.counts, unchanged.written⟩
  rw [← List.length_map Row.seen, listed]
  rfl

theorem countRecords_eq (positive : table.pageSize ≠ 0)
    (settled : store.bare.Settled table (store.listed table)) :
    ∃ after, countRecords table store = (.ok (store.listed table).length, after) := by
  have begun : store.begin.2.Coherent :=
    ⟨coherent.distinct, coherent.countable, coherent.faithful, coherent.bounded⟩
  obtain ⟨rows, middle, scanned, listed⟩ := begun.scanned_of_settled known rest.consistent positive
    ⟨settled.unlocked, settled.undrafted, settled.listed, settled.readable, settled.roomy⟩
    store.begin.1
  obtain ⟨after, counted, -⟩ := countRecords_of_scanned coherent known scanned
  refine ⟨after, ?_⟩
  rw [counted, ← List.length_map Row.seen, listed]
  rfl

end Count

/-! ### Rows inserted once each -/

/-- The values of the row that a worker inserts next after this many. -/
def rowValues (table : Table) (inserts worker row : Nat) : List Value :=
  List.replicate table.schema.count (.int (Int32.ofInt (worker * inserts + row : Nat)))

/-- The records after are those before and one more, with these values, at `spot worker row` for
each chosen pair. The spots are distinct and were vacant. -/
structure AddsEach (id : TableId) (before after : Records) (values : Nat → Nat → List Value)
    (done : Nat → Nat → Prop) (spot : Nat → Nat → RecordId) : Prop where
  own : ∀ worker row, done worker row → (spot worker row).page.table = id
  vacant : ∀ worker row, done worker row → before (spot worker row) = none
  added : ∀ worker row, done worker row → after (spot worker row) = some (values worker row)
  apart : ∀ worker row other another, done worker row → done other another →
    spot worker row = spot other another → worker = other ∧ row = another
  kept : ∀ record, (∀ worker row, done worker row → record ≠ spot worker row) →
    after record = before record

section AddsEach

variable {id : TableId} {before current : Records} {values : Nat → Nat → List Value}
  {done later : Nat → Nat → Prop} {spot : Nat → Nat → RecordId} {worker row : Nat}
  {record : RecordId}

theorem AddsEach.start (nothing : ∀ worker row, ¬ done worker row) :
    AddsEach id before before values done spot :=
  ⟨fun worker row given => absurd given (nothing worker row),
    fun worker row given => absurd given (nothing worker row),
    fun worker row given => absurd given (nothing worker row),
    fun worker row _ _ given => absurd given (nothing worker row), fun _ _ => rfl⟩

theorem AddsEach.congr (adds : AddsEach id before current values done spot)
    (same : ∀ worker row, later worker row ↔ done worker row) :
    AddsEach id before current values later spot := by
  obtain rfl : later = done := by
    funext worker row
    exact propext (same worker row)
  exact adds

theorem AddsEach.add (adds : AddsEach id before current values done spot)
    (fresh : ¬ done worker row) (vacant : current record = none) (own : record.page.table = id)
    (grows : ∀ other another,
      later other another ↔ done other another ∨ (other = worker ∧ another = row)) :
    AddsEach id before ((Change.insert record (values worker row)).apply current) values later
      fun other another =>
        if other = worker ∧ another = row then record else spot other another := by
  have elsewhere (other another : Nat) (given : done other another) :
      spot other another ≠ record := by
    intro same
    have there := adds.added other another given
    rw [same, vacant] at there
    cases there
  have former (other another : Nat) (given : done other another) :
      ¬ (other = worker ∧ another = row) := by
    rintro ⟨rfl, rfl⟩
    exact fresh given
  constructor
  · intro other another given
    split
    · exact own
    · next different => exact adds.own _ _ (((grows _ _).mp given).resolve_right different)
  · intro other another given
    split
    · rw [← adds.kept record fun other another given same =>
        elsewhere other another given same.symm]
      exact vacant
    · next different => exact adds.vacant _ _ (((grows _ _).mp given).resolve_right different)
  · intro other another given
    change (if _ = record then some _ else _) = _
    by_cases new : other = worker ∧ another = row
    · obtain ⟨rfl, rfl⟩ := new
      rw [if_pos (And.intro rfl rfl), if_pos rfl]
    · have earlier := ((grows _ _).mp given).resolve_right new
      rw [if_neg new, if_neg (elsewhere _ _ earlier)]
      exact adds.added _ _ earlier
  · intro first second third fourth here there
    rcases (grows _ _).mp here with early | ⟨rfl, rfl⟩ <;>
      rcases (grows _ _).mp there with given | ⟨rfl, rfl⟩
    · rw [if_neg (former _ _ early), if_neg (former _ _ given)]
      exact adds.apart _ _ _ _ early given
    · rw [if_neg (former _ _ early), if_pos ⟨rfl, rfl⟩]
      exact fun same => absurd same (elsewhere _ _ early)
    · rw [if_pos ⟨rfl, rfl⟩, if_neg (former _ _ given)]
      exact fun same => absurd same.symm (elsewhere _ _ given)
    · exact fun _ => ⟨rfl, rfl⟩
  · intro other apart
    have different : other ≠ record := by
      have new := apart worker row ((grows _ _).mpr (.inr ⟨rfl, rfl⟩))
      rwa [if_pos ⟨rfl, rfl⟩] at new
    change (if other = record then _ else _) = _
    rw [if_neg different]
    apply adds.kept
    intro worker row given
    have away := apart worker row ((grows _ _).mpr (.inl given))
    rwa [if_neg (former _ _ given)] at away

def placedRows (threads inserts : Nat) (values : Nat → Nat → List Value)
    (spot : Nat → Nat → RecordId) : List SeenRow :=
  (List.range threads).flatMap fun worker =>
    (List.range inserts).map fun row => (some (spot worker row), values worker row)

section Placed

variable {threads inserts : Nat}

theorem length_placedRows :
    (placedRows threads inserts values spot).length = threads * inserts := by
  simp [placedRows, List.length_flatMap]

theorem mem_placedRows {place : Option RecordId} {found : List Value} :
    (place, found) ∈ placedRows threads inserts values spot ↔
      ∃ worker row, (worker < threads ∧ row < inserts) ∧ some (spot worker row) = place ∧
        values worker row = found := by
  simp only [placedRows, List.mem_flatMap, List.mem_range, List.mem_map, Prod.mk.injEq]
  constructor
  · rintro ⟨worker, inside, row, below, same⟩
    exact ⟨worker, row, ⟨inside, below⟩, same⟩
  · rintro ⟨worker, row, ⟨inside, below⟩, same⟩
    exact ⟨worker, inside, row, below, same⟩

variable (adds : AddsEach id before current values
  (fun worker row => worker < threads ∧ row < inserts) spot)

include adds

theorem AddsEach.nodup_placedRows : (placedRows threads inserts values spot).Nodup := by
  rw [placedRows, List.nodup_flatMap]
  constructor
  · intro worker inside
    refine (List.nodup_map_iff_inj_on List.nodup_range).mpr ?_
    intro first below second within same
    rw [Prod.mk.injEq, Option.some.injEq] at same
    rw [List.mem_range] at inside below within
    exact (adds.apart _ _ _ _ ⟨inside, below⟩ ⟨inside, within⟩ same.1).2
  · refine List.nodup_range.imp_of_mem ?_
    intro first second inside within different row here there
    rw [List.mem_range] at inside within
    obtain ⟨one, below, rfl⟩ := List.mem_map.mp here
    obtain ⟨other, under, same⟩ := List.mem_map.mp there
    rw [List.mem_range] at below under
    rw [Prod.mk.injEq, Option.some.injEq] at same
    exact different (adds.apart _ _ _ _ ⟨within, under⟩ ⟨inside, below⟩ same.1).1.symm

theorem AddsEach.becomes (record : RecordId) (found : List Value) :
    current record = some found ↔ before record = some found ∨
      (some record, found) ∈ placedRows threads inserts values spot := by
  rw [mem_placedRows]
  by_cases new : ∃ worker row, (worker < threads ∧ row < inserts) ∧ record = spot worker row
  · obtain ⟨worker, row, given, rfl⟩ := new
    rw [adds.added worker row given, adds.vacant worker row given]
    constructor
    · intro same
      exact .inr ⟨worker, row, given, rfl, Option.some.inj same⟩
    · rintro (absent | ⟨other, another, also, same, rfl⟩)
      · cases absent
      · obtain ⟨rfl, rfl⟩ := adds.apart _ _ _ _ also given (Option.some.inj same)
        rfl
  · rw [adds.kept record fun worker row given same => new ⟨worker, row, given, same⟩]
    refine ⟨.inl, fun either => either.resolve_right ?_⟩
    rintro ⟨worker, row, given, same, -⟩
    exact new ⟨worker, row, given, (Option.some.inj same).symm⟩

omit adds in
theorem AddsEach.listed_perm {first last : Store}
    (adds : AddsEach table.id first.bare.stored last.bare.stored values
      (fun worker row => worker < threads ∧ row < inserts) spot)
    (coherent : first.Coherent) (rest : first.bare.AtRest)
    (known : first.tables[table.id]? = some table) (lastCoherent : last.Coherent)
    (lastRest : last.bare.AtRest) (lastKnown : last.tables[table.id]? = some table) :
    (last.listed table).Perm
      (first.listed table ++ placedRows threads inserts values spot) := by
  refine Store.listed_perm coherent rest known lastCoherent lastRest lastKnown
    adds.nodup_placedRows ?_ adds.becomes
  rintro ⟨place, found⟩ member
  obtain ⟨worker, row, given, rfl, -⟩ := mem_placedRows.mp member
  exact ⟨_, rfl, adds.own _ _ given, adds.vacant _ _ given⟩

end Placed

end AddsEach

end RecordStore.Stress
