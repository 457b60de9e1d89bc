import RecordStore.Proofs.Command.Books
import RecordStore.Proofs.Command.Retries
import RecordStore.Proofs.Store.Custody

set_option autoImplicit false

/-! The `stress` command: for every schedule after which all workers have finished, each row has
been added once and the final count is right. -/

namespace RecordStore.Stress

/-! ### The whole command -/

/-- The command with the steps of the workers in this order, in place of one worker after another.
-/
def runInOrder (table : Table) (threads inserts : Nat) (schedule : List Nat) (store : Store) :
    Outcome × Store :=
  match countRecords table store with
  | (.error failure, store) => (failed failure, store)
  | (.ok before, store) =>
      let bench := (Bench.start table threads inserts store).run schedule
      match firstTrouble bench.workers with
      | some trouble => (trouble, bench.store)
      | none =>
          match countRecords table bench.store with
          | (.error failure, store) => (failed failure, store)
          | (.ok after, store) =>
              match multiply threads inserts with
              | .error fault => (.broken fault, store)
              | .ok expected =>
                  if after - before = expected then (.done after (after - before), store)
                  else (.wrongTotal expected (after - before), store)

namespace Bench

theorem settle_eq_run (index steps : Nat) (bench : Bench) :
    ∃ schedule, schedule.length ≤ steps ∧ settle index steps bench = bench.run schedule := by
  induction steps generalizing bench with
  | zero => exact ⟨[], Nat.le_refl 0, rfl⟩
  | succ steps ih =>
      rw [settle]
      split
      · exact ⟨[], Nat.zero_le _, rfl⟩
      · obtain ⟨schedule, short, same⟩ := ih (bench.step index)
        exact ⟨index :: schedule, Nat.succ_le_succ short, same⟩

/-- `settleAll` is one of the schedules, of at most three steps a row. -/
theorem settleAll_eq_run (threads inserts : Nat) (bench : Bench) :
    ∃ schedule, schedule.length ≤ threads * (3 * inserts) ∧
      bench.settleAll threads inserts = bench.run schedule := by
  suffices each : ∀ (indices : List Nat) (bench : Bench), ∃ schedule,
      schedule.length ≤ indices.length * (3 * inserts) ∧
        indices.foldl (fun bench index => settle index (3 * inserts) bench) bench =
          bench.run schedule by
    have all := each (List.range threads) bench
    rwa [List.length_range] at all
  intro indices
  induction indices with
  | nil => exact fun bench => ⟨[], Nat.zero_le _, rfl⟩
  | cons index others ih =>
      intro bench
      obtain ⟨first, firstShort, same⟩ := settle_eq_run index (3 * inserts) bench
      obtain ⟨later, laterShort, rest⟩ := ih (settle index (3 * inserts) bench)
      refine ⟨first ++ later, ?_, ?_⟩
      · rw [List.length_append, List.length_cons, Nat.succ_mul]
        omega
      · rw [List.foldl_cons, rest, same, run_append]

end Bench

section Whole

variable {directory : Directory} {capacity : Nat} {range : WaitRange} {preference : Preference}
  {table : Table} {threads inserts count : Nat} {schedule : List Nat} {store counted after : Store}

theorem run_eq_runInOrder (before : countRecords table store = (.ok count, counted))
    (same : (Bench.start table threads inserts counted).settleAll threads inserts =
      (Bench.start table threads inserts counted).run schedule) :
    run table threads inserts store = runInOrder table threads inserts schedule store := by
  rw [run, runInOrder, before]
  dsimp only
  rewrite [same]
  rfl

theorem runInOrder_done (product : threads * inserts < wordLimit)
    (before : countRecords table store = (.ok count, counted))
    (finished : firstTrouble
      ((Bench.start table threads inserts counted).run schedule).workers = none)
    (again : countRecords table
      ((Bench.start table threads inserts counted).run schedule).store =
        (.ok (count + threads * inserts), after)) :
    runInOrder table threads inserts schedule store =
      (.done (count + threads * inserts) (threads * inserts), after) := by
  rw [runInOrder, before]
  dsimp only
  rw [finished]
  dsimp only
  rw [again]
  dsimp only
  rw [multiply, if_pos product]
  dsimp only
  rw [Nat.add_sub_cancel_left, if_pos rfl]

/-- Once all workers have finished, `countRecords` finds `threads * inserts` records more. -/
theorem counts_each_row
    (before : countRecords table (Store.opened directory capacity range preference table) =
      (.ok count, counted))
    (apart : (Bench.start table threads inserts counted).ToldApart schedule)
    (stays : table.pages.wholePages ((Bench.start table threads inserts counted).run
      schedule).store.directory < UInt32.size)
    (finished : firstTrouble
      ((Bench.start table threads inserts counted).run schedule).workers = none) :
    ∃ spot after,
      countRecords table ((Bench.start table threads inserts counted).run schedule).store =
        (.ok (count + threads * inserts), after) ∧
      AddsEach table.id (Store.opened directory capacity range preference table).stored
        after.stored (rowValues table inserts)
        (fun worker row => worker < threads ∧ row < inserts) spot := by
  have counts := extends_countRecords table
    (Store.opened directory capacity range preference table)
  rw [before] at counts
  have small : table.pages.wholePages directory < UInt32.size :=
    Nat.lt_of_le_of_lt ((((Bench.start table threads inserts counted).extends_run schedule).trans
      counts).wholePages_le table.pages) stays
  have coherent : (Store.opened directory capacity range preference table).Coherent :=
    Store.coherent_opened small
  have rest : (Store.opened directory capacity range preference table).bare.AtRest :=
    Store.atRest_opened small
  obtain ⟨positive, settled, countIs, countedCoherent, countedRest, unchanged⟩ :=
    countRecords_ok coherent rest Store.known_opened before
  have tables : counted.tables = (∅ : Std.ExtTreeMap TableId Table).insert table.id table :=
    unchanged.tables
  have settledNow := settled.of_unchanged unchanged rest countedRest
  have listedNow : counted.listed table = (Store.opened directory capacity range preference
      table).listed table := rest.listing_congr countedRest unchanged.counts
      unchanged.written table.id
  have start := Bench.Books.start countedCoherent tables countedRest (listedNow ▸ settledNow)
    threads inserts fun _ _ => default
  obtain ⟨ledger, spot, books⟩ := start.run (apart.elim
    (fun short => start.unshared_run .start (by omega) stays) id) stays
  have tableIs := (Bench.start table threads inserts counted).table_run schedule
  generalize ran : (Bench.start table threads inserts counted).run schedule = bench at *
  obtain ⟨finalRest, finalSettled, adds⟩ :=
    books.finished fun worker member => isFinished_of_firstTrouble finished member
  rw [show bench.table = table from tableIs] at finalSettled adds
  have countedKnown : counted.tables[table.id]? = some table := by
    rw [tables]
    exact Std.ExtTreeMap.getElem?_insert_self
  have known : bench.store.tables[table.id]? = some table := by
    rw [← show bench.table = table from tableIs]
    exact books.known
  obtain ⟨after, again⟩ := countRecords_eq books.coherent finalRest known positive finalSettled
  obtain ⟨-, -, -, afterCoherent, -, still⟩ :=
    countRecords_ok books.coherent finalRest known again
  have listed := adds.listed_perm countedCoherent countedRest countedKnown books.coherent finalRest
    known
  have total : (bench.store.listed table).length = count + threads * inserts := by
    rw [listed.length_eq, List.length_append, length_placedRows, listedNow, countIs]
  rw [total] at again
  refine ⟨spot, after, again, ?_⟩
  rw [← coherent.stored_bare, ← afterCoherent.stored_bare, still.stored_eq,
    ← unchanged.stored_eq]
  exact adds

/-- The schedule of `run` itself, worker by worker, is short enough for `ToldApart`. -/
theorem run_adds_each_row (product : threads * inserts < wordLimit)
    (short : threads * (3 * inserts) ≤ wordLimit)
    (before : countRecords table (Store.opened directory capacity range preference table) =
      (.ok count, counted))
    (stays : table.pages.wholePages ((Bench.start table threads inserts counted).settleAll threads
      inserts).store.directory < UInt32.size)
    (finished : firstTrouble ((Bench.start table threads inserts counted).settleAll threads
      inserts).workers = none) :
    ∃ spot after,
      run table threads inserts (Store.opened directory capacity range preference table) =
        (.done (count + threads * inserts) (threads * inserts), after) ∧
      AddsEach table.id (Store.opened directory capacity range preference table).stored
        after.stored (rowValues table inserts)
        (fun worker row => worker < threads ∧ row < inserts) spot := by
  obtain ⟨schedule, steps, same⟩ :=
    (Bench.start table threads inserts counted).settleAll_eq_run threads inserts
  rw [same] at stays finished
  obtain ⟨spot, after, again, adds⟩ :=
    counts_each_row before (.inl (Nat.le_trans steps short)) stays finished
  rw [run_eq_runInOrder before same]
  exact ⟨spot, after, runInOrder_done product before finished again, adds⟩

end Whole

end RecordStore.Stress
