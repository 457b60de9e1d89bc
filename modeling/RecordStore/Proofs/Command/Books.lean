import RecordStore.Proofs.Command.Workers

set_option autoImplicit false

/-! `Books` relates the workers of a `Bench` to a ledger: every row that a worker has committed has
a record of its own, and a row inserted and not yet committed is one pending change. Every step
keeps it, for any schedule. -/

namespace RecordStore.Stress

namespace Bench

variable {bench : Bench} {index : Nat} {worker : Worker} {transaction : TransactionId}
  {ledger later : Ledger} {threads inserts : Nat}

/-! ### One step of a worker -/

structure Books (bench : Bench) (threads inserts pages : Nat) (before : Records) (ledger : Ledger)
    (spot : Nat → Nat → RecordId) : Prop where
  coherent : bench.store.Coherent
  tables : bench.store.tables =
    (∅ : Std.ExtTreeMap TableId Table).insert bench.table.id bench.table
  keeps : bench.store.bare.Keeps ledger
  whole : bench.store.bare.Whole
  manned : bench.Manned threads inserts
  linked : bench.Linked ledger
  adds : AddsEach bench.table.id before ledger.committed (rowValues bench.table inserts) bench.Done
    spot
  -- the final count needs a capacity of one if the table has a page, at the start or appended
  roomy : ∀ worker row, bench.Done worker row → 0 < bench.store.capacity
  spacious : pages ≠ 0 → 0 < bench.store.capacity
  grown : bench.store.bare.counts bench.table.id = pages ∨ (0 < threads ∧ 0 < inserts)

namespace Books

variable {pages : Nat} {before : Records} {spot : Nat → Nat → RecordId}

/-- A step of a worker that commits nothing keeps the books, with the new phase and store. -/
theorem turn (books : bench.Books threads inserts pages before ledger spot)
    (here : bench.workers[index]? = some worker) {phase : Phase} {after : Store}
    (afterCoherent : after.Coherent) (tables : after.tables = bench.store.tables)
    (keeps : after.bare.Keeps later) (whole : after.bare.Whole)
    (capacity : after.capacity = bench.store.capacity)
    (committed : later.committed = ledger.committed)
    (linked : (bench.put index { worker with phase := phase } after).Linked later)
    (active : ({ worker with phase := phase } : Worker).transaction?.isSome →
      worker.committed < inserts)
    (grown : after.bare.counts bench.table.id = bench.store.bare.counts bench.table.id ∨
      (0 < threads ∧ 0 < inserts)) :
    (bench.put index { worker with phase := phase } after).Books threads inserts pages before later
      spot := by
  refine ⟨afterCoherent, tables.trans books.tables, keeps, whole,
    books.manned.phase here phase active after, linked, ?_, ?_, ?_, ?_⟩
  · rw [committed]
    exact books.adds.congr (done_phase here phase after)
  · intro other row done
    change 0 < after.capacity
    rw [capacity]
    exact books.roomy other row ((done_phase here phase after other row).mp done)
  · intro some
    change 0 < after.capacity
    rw [capacity]
    exact books.spacious some
  · rcases grown with same | busy
    · exact books.grown.imp_left same.trans
    · exact .inr busy

theorem active (books : bench.Books threads inserts pages before ledger spot)
    (here : bench.workers[index]? = some worker) (mine : worker.transaction? = some transaction) :
    worker.committed < inserts := by
  obtain ⟨-, -, -, active⟩ := books.manned.each index worker here
  exact active (by rw [mine]; rfl)

theorem busy (books : bench.Books threads inserts pages before ledger spot)
    (here : bench.workers[index]? = some worker) (mine : worker.transaction? = some transaction) :
    0 < threads ∧ 0 < inserts := by
  obtain ⟨inside, -⟩ := List.getElem?_eq_some_iff.mp here
  have below := books.active here mine
  rw [books.manned.length] at inside
  exact ⟨by omega, by omega⟩

theorem begin (books : bench.Books threads inserts pages before ledger spot)
    (here : bench.workers[index]? = some worker) (idle : worker.transaction? = none)
    (ahead : worker.committed < inserts)
    (unshared : (bench.put index { worker with phase := .begun bench.store.begin.1 }
      bench.store.begin.2).Unshared) :
    (bench.put index { worker with phase := .begun bench.store.begin.1 }
      bench.store.begin.2).Books threads inserts pages before ledger spot := by
  have put := worker_put here { worker with phase := .begun bench.store.begin.1 }
    bench.store.begin.2
  have alone (other : Nat) (found : Worker) (different : other ≠ index)
      (present : bench.workers[other]? = some found) :
      found.transaction? ≠ some bench.store.begin.1 := fun held =>
    different (unshared other index found _ bench.store.begin.1
      ((put other).trans ((if_neg different).trans present)) ((put index).trans (if_pos rfl)) held
      rfl)
  have keeps : bench.store.begin.2.bare.Keeps ledger := by
    refine ⟨books.keeps.consistent, books.keeps.stored, ?_, books.keeps.pending⟩
    intro page draft drafted
    obtain ⟨exclusive, readable, shows⟩ := books.keeps.drafted page draft drafted
    exact ⟨exclusive, readable, shows⟩
  have coherent := books.coherent
  refine books.turn here ⟨coherent.distinct, coherent.countable, coherent.faithful,
    coherent.bounded⟩ rfl keeps books.whole rfl rfl ?_ (fun _ => ahead) (.inl rfl)
  refine books.linked.put here (.inl idle) alone ?_ ?_ ?_ (.inr ⟨nofun, ?_⟩) (.inl rfl)
  · exact fun other different => rfl
  · exact fun other page different => rfl
  · exact fun other record values different pended vacant => vacant
  · apply books.linked.silent
    intro other found present phase
    by_cases same : other = index
    · subst same
      rw [here] at present
      cases present
      rw [transaction?_of_inserted phase] at idle
      cases idle
    · exact alone other found same present (transaction?_of_inserted phase)

theorem alone (unshared : bench.Unshared) (here : bench.workers[index]? = some worker)
    (mine : worker.transaction? = some transaction) (other : Nat) (found : Worker)
    (different : other ≠ index) (present : bench.workers[other]? = some found) :
    found.transaction? ≠ some transaction :=
  fun held => different (unshared other index found worker transaction present here held mine)

structure Left (before after : Store) (transaction : TransactionId) (ledger : Ledger) : Prop where
  coherent : after.Coherent
  tables : after.tables = before.tables
  keeps : after.bare.Keeps ledger
  whole : after.bare.Whole
  capacity : after.capacity = before.capacity
  counts : after.bare.counts = before.bare.counts
  free : ∀ page, after.locks.modeOf transaction page = none
  locks : ∀ other page, other ≠ transaction →
    after.locks.modeOf other page = before.locks.modeOf other page

theorem complete (books : bench.Books threads inserts pages before ledger spot) (commits : Bool)
    (transaction : TransactionId) :
    ∃ after, bench.store.complete commits transaction = (.ok (), after) ∧
      Left bench.store after transaction (ledger.settle commits transaction) := by
  obtain ⟨after, completed, afterCoherent, bareIs⟩ := books.coherent.complete commits transaction
  have consistent := books.keeps.consistent
  have modes (other : TransactionId) (page : PageId) : after.locks.modeOf other page =
      if other = transaction then none else bench.store.locks.modeOf other page := by
    change after.bare.locks.modeOf other page = _
    rw [bareIs]
    exact Bare.modeOf_complete consistent commits other page
  have setting := bench.store.bare.setting_complete commits transaction
  have keeps := books.keeps.complete commits transaction
  have whole := books.whole.complete consistent commits transaction
  have counts := bench.store.bare.counts_complete commits transaction
  rw [← bareIs] at setting keeps whole counts
  exact ⟨after, completed, afterCoherent, setting.tables, keeps, whole, setting.capacity, counts,
    fun page => (modes transaction page).trans (if_pos rfl),
    fun other page different => (modes other page).trans (if_neg different)⟩

/-- `abort` takes back the one change that a worker may have pending. -/
theorem abort (books : bench.Books threads inserts pages before ledger spot)
    (unshared : bench.Unshared) (here : bench.workers[index]? = some worker)
    (mine : worker.transaction? = some transaction) (phase : Phase)
    (idle : ({ worker with phase := phase } : Worker).transaction? = none) :
    ∃ after, bench.store.abort transaction = (.ok (), after) ∧
      (bench.put index { worker with phase := phase } after).Books threads inserts pages before
        (ledger.settle false transaction) spot := by
  obtain ⟨after, aborted, left⟩ := books.complete false transaction
  have uninserted (other : TransactionId) : phase ≠ .inserted other := by
    rintro rfl
    cases idle
  refine ⟨after, aborted, books.turn here left.coherent left.tables left.keeps left.whole
    left.capacity rfl ?_ ?_ (.inl (congrFun left.counts _))⟩
  · refine books.linked.put here (.inr mine) (alone unshared here mine) ?_ left.locks ?_
      (.inr ⟨uninserted, if_pos rfl⟩) (.inr left.free)
    · exact fun other different => if_neg different
    · exact fun other record values different pended vacant => vacant
  · rw [idle]
    exact nofun

/-- `commit` makes the pending row of a worker a committed one. -/
theorem commit (books : bench.Books threads inserts pages before ledger spot)
    (unshared : bench.Unshared) (here : bench.workers[index]? = some worker)
    (mine : worker.phase = .inserted transaction) :
    ∃ after spot, bench.store.commit transaction = (.ok (), after) ∧
      (bench.put index { worker with phase := .idle, committed := worker.committed + 1 }
        after).Books threads inserts pages before (ledger.settle true transaction) spot := by
  have held := transaction?_of_inserted mine
  obtain ⟨indexIs, insertsAre, -, -⟩ := books.manned.each index worker here
  have below := books.active here held
  obtain ⟨record, pended, vacant, owned⟩ := books.linked.noted index worker transaction here mine
  obtain ⟨after, committed, left⟩ := books.complete true transaction
  have own : Change.insert record (rowValues bench.table worker.inserts index worker.committed) ∈
      ledger.pending transaction := by
    rw [pended]
    exact List.mem_singleton_self _
  have roomy : 0 < after.capacity := by
    obtain ⟨draft, drafted, -⟩ := books.keeps.pending transaction _ own
    rw [left.capacity]
    exact books.coherent.capacity_of_draft drafted
  have settled : (ledger.settle true transaction).committed =
      (Change.insert record (rowValues bench.table inserts index worker.committed)).apply
        ledger.committed := by
    change ledger.view transaction = _
    rw [Ledger.view, pended, insertsAre]
    rfl
  refine ⟨after, fun other another =>
    if other = index ∧ another = worker.committed then record else spot other another, committed,
    left.coherent, left.tables.trans books.tables, left.keeps, left.whole, ?_, ?_, ?_,
    fun _ _ _ => roomy, fun _ => roomy, ?_⟩
  · exact books.manned.put here { worker with phase := .idle, committed := worker.committed + 1 }
      rfl rfl below (absurd · Bool.false_ne_true) after
  · refine books.linked.put here (.inr held) (alone unshared here held) ?_ left.locks ?_
      (.inr ⟨fun _ same => Phase.noConfusion same, if_pos rfl⟩) (.inr left.free)
    · exact fun other different => if_neg different
    · intro other place values different pending free
      rw [settled]
      refine (if_neg fun same => ?_).trans free
      have foreign : Change.insert place values ∈ ledger.pending other := by
        rw [pending]
        exact List.mem_singleton_self _
      exact books.keeps.pending_apart own foreign different (congrArg RecordId.page same)
  · rw [settled]
    exact books.adds.add (not_done_committed here) vacant owned (done_commit here .idle after)
  · exact books.grown.imp_left (congrFun left.counts _).trans

section Insert

variable {row placed : Row} {after : Store} {outcome : Except Failure RecordId}
  (books : bench.Books threads inserts pages before ledger spot) (unshared : bench.Unshared)
  (here : bench.workers[index]? = some worker) (mine : worker.phase = .begun transaction)
  (small : bench.table.pages.wholePages after.directory < UInt32.size)

theorem transaction?_begun (mine : worker.phase = .begun transaction) :
    worker.transaction? = some transaction := by
  rw [Worker.transaction?, mine]

include books in
theorem known : bench.store.tables[bench.table.id]? = some bench.table := by
  rw [books.tables]
  exact Std.ExtTreeMap.getElem?_insert_self

include books in
theorem missing (found : Table)
    (known : bench.store.bare.tables[bench.table.id]? = some found) :
    ∃ failure, bench.store.bare.written (bench.store.bare.nextPage found) = .error failure := by
  obtain ⟨failure, absent, -⟩ := books.coherent.written_nextPage known
  exact ⟨failure, absent⟩

include books unshared here mine in
theorem pending_begun : ledger.pending transaction = [] := by
  apply books.linked.silent
  intro other found present phase
  by_cases same : other = index
  · subst same
    rw [here] at present
    cases present
    rw [mine] at phase
    cases phase
  · exact alone unshared here (transaction?_begun mine) other found same present
      (transaction?_of_inserted phase)

include books here mine small in
/-- An insert that leaves the committed records as they are keeps the books, with the new phase. -/
theorem turn_insert {phase : Phase}
    (done : bench.store.insert transaction bench.table.id row = (outcome, placed, after))
    (same : (ledger.record ⟨.insert transaction bench.table.id row, .placed outcome⟩).committed =
      ledger.committed)
    (linked : LockService.Strengthens transaction bench.store.locks after.locks →
      (bench.put index { worker with phase := phase } after).Linked
        (ledger.record ⟨.insert transaction bench.table.id row, .placed outcome⟩)) :
    (bench.put index { worker with phase := phase } after).Books threads inserts pages before
      (ledger.record ⟨.insert transaction bench.table.id row, .placed outcome⟩) spot := by
  obtain ⟨afterCoherent, tables, bare⟩ := books.coherent.insert_single books.tables done small
  have bareIs : (bench.store.bare.insert transaction bench.table.id row).2 = after.bare := by
    rw [bare]
  have held := transaction?_begun mine
  have keeps := @Bare.Keeps.insert _ _ transaction books.keeps bench.table.id row books.missing
  have strengthens := bench.store.bare.insert_strengthens transaction bench.table.id row
  have capacity := bench.store.bare.capacity_insert transaction bench.table.id row
  have whole := @Bare.Whole.insert _ transaction books.whole bench.table.id row
  rw [bare] at keeps strengthens capacity whole
  exact books.turn here afterCoherent tables keeps whole capacity same (linked strengthens)
    (fun _ => books.active here held) (.inr (books.busy here held))

include books unshared here mine small in
/-- A failed insert keeps the books, with its worker `thwarted`. -/
theorem thwart {failure : Failure}
    (failed : bench.store.insert transaction bench.table.id row = (.error failure, placed, after)) :
    (bench.put index { worker with phase := .thwarted transaction } after).Books threads inserts
      pages before ledger spot := by
  have held := transaction?_begun mine
  refine books.turn_insert here mine small failed rfl fun strengthens => ?_
  refine books.linked.put here (.inr held) (alone unshared here held) ?_ ?_ ?_
    (.inr ⟨nofun, books.pending_begun unshared here mine⟩) (.inl rfl)
  · exact fun other different => rfl
  · exact fun other page different => strengthens.others other page different
  · exact fun other record values different pended vacant => vacant

include books unshared here mine small in
/-- A successful `insert` becomes the pending change of its transaction. -/
theorem insert {record : RecordId}
    (stored : row.stored = rowValues bench.table worker.inserts index worker.committed)
    (inserted : bench.store.insert transaction bench.table.id row = (.ok record, placed, after)) :
    (bench.put index { worker with phase := .inserted transaction } after).Books threads inserts
      pages before (ledger.note transaction (.insert record row.stored)) spot := by
  have held := transaction?_begun mine
  have nothing := books.pending_begun unshared here mine
  obtain ⟨-, -, bare⟩ := books.coherent.insert_single books.tables inserted small
  obtain ⟨vacant, found, known, owned⟩ := books.keeps.insert_vacant books.missing bare
  have tableIs : found = bench.table := Option.some.inj (known.symm.trans books.known)
  refine books.turn_insert here mine small inserted rfl fun strengthens => ?_
  refine books.linked.put here (.inr held) (alone unshared here held) ?_ ?_ ?_
    (.inl ⟨rfl, record, ?_, ?_, by rw [owned, tableIs]⟩) (.inl rfl)
  · exact fun other different => if_neg different
  · exact fun other page different => strengthens.others other page different
  · exact fun other record values different pended vacant => vacant
  · refine (if_pos rfl).trans ?_
    rw [nothing, stored]
    rfl
  · rw [Ledger.view, nothing] at vacant
    exact vacant

end Insert

theorem give_up {row placed : Row} {failure : Failure} {failed : Store}
    (books : bench.Books threads inserts pages before ledger spot) (unshared : bench.Unshared)
    (here : bench.workers[index]? = some worker) (mine : worker.phase = .begun transaction)
    (refused : bench.store.insert transaction bench.table.id row = (.error failure, placed, failed))
    (small : bench.table.pages.wholePages (failed.abort transaction).2.directory < UInt32.size)
    (phase : Phase) (idle : ({ worker with phase := phase } : Worker).transaction? = none) :
    ∃ ledger, (bench.put index { worker with phase := phase } (failed.abort transaction).2).Books
      threads inserts pages before ledger spot := by
  rw [(failed.files_abort transaction).directoryIs] at small
  have thwarted := books.thwart unshared here mine small refused
  have still := (worker_put here { worker with phase := .thwarted transaction } failed index).trans
    (if_pos rfl)
  have unshared := @Unshared.put _ _ _ { worker with phase := .thwarted transaction } unshared here
    (fun other held => (transaction?_begun mine).trans held) failed
  obtain ⟨after, aborted, booked⟩ := thwarted.abort unshared still rfl phase idle
  change failed.abort transaction = _ at aborted
  rw [put_put] at booked
  rw [aborted]
  exact ⟨_, booked⟩

theorem insertRow (books : bench.Books threads inserts pages before ledger spot)
    (unshared : bench.Unshared) (here : bench.workers[index]? = some worker)
    (mine : worker.phase = .begun transaction)
    (small : bench.table.pages.wholePages
      (worker.insertRow bench.table transaction bench.store).2.directory < UInt32.size) :
    ∃ ledger, (bench.put index (worker.insertRow bench.table transaction bench.store).1
      (worker.insertRow bench.table transaction bench.store).2).Books threads inserts pages before
        ledger spot := by
  have held := transaction?_begun mine
  obtain ⟨indexIs, -⟩ := books.manned.each index worker here
  unfold Worker.insertRow at small ⊢
  dsimp only at small ⊢
  split at small
  · next error made =>
      obtain ⟨after, aborted, booked⟩ := books.abort unshared here held (.failed error) rfl
      exact ⟨_, by rw [aborted]; exact booked⟩
  · next fault made =>
      obtain ⟨after, aborted, booked⟩ := books.abort unshared here held (.broken fault) rfl
      exact ⟨_, by rw [aborted]; exact booked⟩
  · next row made =>
      have stored := Worker.stored_of_made made
      rw [indexIs] at stored
      split at small
      · next record placed after inserted =>
          exact ⟨_, books.insert unshared here mine small stored inserted⟩
      · next error placed after refused =>
          split at small
          · next ends =>
              rw [if_pos ends]
              exact ⟨_, books.thwart unshared here mine small refused⟩
          · next ends =>
              rw [if_neg ends]
              exact books.give_up unshared here mine refused small (.failed error) rfl
      · next fault placed after broke =>
          exact books.give_up unshared here mine broke small (.broken fault) rfl

theorem step (books : bench.Books threads inserts pages before ledger spot)
    (unshared : bench.Unshared) (later : (bench.step index).Unshared)
    (small : bench.table.pages.wholePages (bench.step index).store.directory < UInt32.size) :
    ∃ ledger spot, (bench.step index).Books threads inserts pages before ledger spot := by
  cases here : bench.workers[index]? with
  | none =>
      rw [Bench.step, here]
      exact ⟨_, _, books⟩
  | some worker =>
      have still : (bench.put index worker bench.store).Books threads inserts pages before ledger
          spot := by
        rw [put_self here]
        exact books
      obtain ⟨-, insertsAre, -⟩ := books.manned.each index worker here
      rw [step_eq here] at later small ⊢
      unfold Worker.step at later small ⊢
      cases mine : worker.phase with
      | idle =>
          simp only [mine] at later small ⊢
          by_cases finished : worker.inserts ≤ worker.committed
          · rw [if_pos finished]
            exact ⟨_, _, still⟩
          · rw [if_neg finished] at later ⊢
            rw [insertsAre] at finished
            exact ⟨_, _, books.begin here (by rw [Worker.transaction?, mine])
              (Nat.lt_of_not_le finished) later⟩
      | begun transaction =>
          rw [mine] at small
          obtain ⟨ledger, booked⟩ := books.insertRow unshared here mine small
          exact ⟨_, _, booked⟩
      | inserted transaction =>
          dsimp only
          obtain ⟨after, spot, committed, booked⟩ := books.commit unshared here mine
          rw [committed]
          exact ⟨_, _, booked⟩
      | thwarted transaction =>
          dsimp only
          obtain ⟨after, aborted, booked⟩ := books.abort unshared here
            (by rw [Worker.transaction?, mine]) .idle rfl
          rw [aborted]
          exact ⟨_, _, booked⟩
      | failed error =>
          dsimp only
          exact ⟨_, _, still⟩
      | broken fault =>
          dsimp only
          exact ⟨_, _, still⟩

end Books

/-! ### Numbers of transactions -/

section Numbers

variable {pages begun : Nat} {before : Records} {spot : Nat → Nat → RecordId}
  {first : TransactionId}

theorem Books.nextTransaction_insertRow
    (books : bench.Books threads inserts pages before ledger spot)
    (small : bench.table.pages.wholePages
      (worker.insertRow bench.table transaction bench.store).2.directory < UInt32.size) :
    (worker.insertRow bench.table transaction bench.store).2.nextTransaction =
      bench.store.nextTransaction := by
  have given_up {row placed : Row} {failure : Failure} {failed : Store}
      (refused : bench.store.insert transaction bench.table.id row =
        (.error failure, placed, failed))
      (small : bench.table.pages.wholePages (failed.abort transaction).2.directory < UInt32.size) :
      (failed.abort transaction).2.nextTransaction = bench.store.nextTransaction := by
    rw [(failed.files_abort transaction).directoryIs] at small
    obtain ⟨coherent, -⟩ := books.coherent.insert_single books.tables refused small
    exact (coherent.nextTransaction_complete false transaction).trans
      (books.coherent.nextTransaction_insert books.tables refused small)
  unfold Worker.insertRow at small ⊢
  dsimp only at small ⊢
  split at small
  · exact books.coherent.nextTransaction_complete false transaction
  · exact books.coherent.nextTransaction_complete false transaction
  · split at small
    · next inserted => exact books.coherent.nextTransaction_insert books.tables inserted small
    · next refused =>
        split at small
        · next ends =>
            rw [if_pos ends]
            exact books.coherent.nextTransaction_insert books.tables refused small
        · next ends =>
            rw [if_neg ends]
            exact given_up refused small
    · next broke => exact given_up broke small

theorem Books.numbered_step (books : bench.Books threads inserts pages before ledger spot)
    (numbered : bench.Numbered first begun) (left : begun < wordLimit)
    (small : bench.table.pages.wholePages (bench.step index).store.directory < UInt32.size) :
    ∃ later, later ≤ begun + 1 ∧ (bench.step index).Numbered first later := by
  cases here : bench.workers[index]? with
  | none =>
      rw [Bench.step, here]
      exact ⟨begun, Nat.le_succ begun, numbered⟩
  | some worker =>
      rw [step_eq here] at small ⊢
      unfold Worker.step at small ⊢
      cases mine : worker.phase with
      | idle =>
          dsimp only
          by_cases finished : worker.inserts ≤ worker.committed
          · rw [if_pos finished]
            exact ⟨begun, Nat.le_succ begun, numbered.put here (fun _ held => held) rfl⟩
          · rw [if_neg finished]
            exact ⟨begun + 1, Nat.le_refl _, numbered.begin left here⟩
      | begun transaction =>
          rw [mine] at small
          refine ⟨begun, Nat.le_succ begun, numbered.put here (fun other held => ?_)
            (books.nextTransaction_insertRow small)⟩
          rw [Worker.transaction?_insertRow held]
          exact transaction?_begun mine
      | inserted transaction =>
          have next := books.coherent.nextTransaction_complete true transaction
          obtain ⟨after, committed, -⟩ := books.coherent.complete true transaction
          dsimp only
          rw [committed] at next
          rw [Store.commit, committed]
          exact ⟨begun, Nat.le_succ begun, numbered.put here (fun _ held => by cases held) next⟩
      | thwarted transaction =>
          have next := books.coherent.nextTransaction_complete false transaction
          obtain ⟨after, aborted, -⟩ := books.coherent.complete false transaction
          dsimp only
          rw [aborted] at next
          rw [Store.abort, aborted]
          exact ⟨begun, Nat.le_succ begun, numbered.put here (fun _ held => by cases held) next⟩
      | failed error =>
          exact ⟨begun, Nat.le_succ begun, numbered.put here (fun _ held => held) rfl⟩
      | broken fault =>
          exact ⟨begun, Nat.le_succ begun, numbered.put here (fun _ held => held) rfl⟩

end Numbers

/-! ### A run of the workers -/

theorem table_step (bench : Bench) (index : Nat) : (bench.step index).table = bench.table := by
  unfold step
  split <;> rfl

theorem table_run (bench : Bench) (schedule : List Nat) :
    (bench.run schedule).table = bench.table := by
  induction schedule generalizing bench with
  | nil => rfl
  | cons index schedule ih => exact (ih (bench.step index)).trans (bench.table_step index)

theorem extends_run (bench : Bench) (schedule : List Nat) :
    (bench.run schedule).store.Extends bench.store := by
  induction schedule generalizing bench with
  | nil => exact .refl _
  | cons index schedule ih =>
      refine (ih (bench.step index)).trans ?_
      unfold step
      split
      · exact .refl _
      · next worker here => exact worker.extends_step bench.table bench.store

/-- No two workers hold the same transaction number at any point of the schedule. A schedule of at
most `wordLimit` steps is enough for that. -/
def ToldApart (bench : Bench) (schedule : List Nat) : Prop :=
  schedule.length ≤ wordLimit ∨
    ∀ earlier, earlier <+: schedule → (bench.run earlier).Unshared

namespace Books

variable {pages begun : Nat} {before : Records} {spot : Nat → Nat → RecordId}
  {schedule : List Nat} {first : TransactionId}

theorem run (books : bench.Books threads inserts pages before ledger spot)
    (unshared : ∀ earlier, earlier <+: schedule → (bench.run earlier).Unshared)
    (small : bench.table.pages.wholePages (bench.run schedule).store.directory < UInt32.size) :
    ∃ ledger spot, (bench.run schedule).Books threads inserts pages before ledger spot := by
  induction schedule generalizing bench ledger spot with
  | nil => exact ⟨ledger, spot, books⟩
  | cons index schedule ih =>
      have stepped := Nat.lt_of_le_of_lt
        (((bench.step index).extends_run schedule).wholePages_le bench.table.pages) small
      obtain ⟨ledger, spot, next⟩ := books.step (unshared [] List.nil_prefix)
        (unshared [index] (List.prefix_append [index] schedule)) stepped
      refine ih next (fun earlier ahead => unshared (index :: earlier)
        (List.cons_prefix_cons.mpr ⟨rfl, ahead⟩)) ?_
      rw [table_step]
      exact small

/-- `TransactionId.later` is injective below `wordLimit`, so a schedule of that length keeps the
workers `Unshared`. -/
theorem unshared_run (books : bench.Books threads inserts pages before ledger spot)
    (numbered : bench.Numbered first begun) (short : begun + schedule.length ≤ wordLimit)
    (small : bench.table.pages.wholePages (bench.run schedule).store.directory < UInt32.size)
    (earlier : List Nat) (ahead : earlier <+: schedule) : (bench.run earlier).Unshared := by
  induction schedule generalizing bench ledger spot begun earlier with
  | nil =>
      rw [List.prefix_nil.mp ahead]
      exact numbered.unshared
  | cons index schedule ih =>
      cases earlier with
      | nil => exact numbered.unshared
      | cons same earlier =>
          obtain ⟨rfl, within⟩ := List.cons_prefix_cons.mp ahead
          rw [List.length_cons] at short
          have stepped := Nat.lt_of_le_of_lt
            (((bench.step same).extends_run schedule).wholePages_le bench.table.pages) small
          obtain ⟨later, most, numberedNext⟩ := books.numbered_step numbered (by omega) stepped
          obtain ⟨ledger, spot, next⟩ :=
            books.step numbered.unshared numberedNext.unshared stepped
          refine ih next numberedNext (by omega) ?_ earlier within
          rw [table_step]
          exact small

end Books

theorem worker_start {table : Table} {store : Store}
    (here : (start table threads inserts store).workers[index]? = some worker) :
    index < threads ∧ worker = Worker.start inserts index := by
  change ((List.range threads).map (Worker.start inserts))[index]? = _ at here
  rw [List.getElem?_map, Option.map_eq_some_iff] at here
  obtain ⟨number, found, rfl⟩ := here
  obtain ⟨inside, rfl⟩ := List.getElem?_eq_some_iff.mp found
  rw [List.length_range] at inside
  rw [List.getElem_range]
  exact ⟨inside, rfl⟩

theorem Numbered.start {table : Table} {store : Store} :
    (Bench.start table threads inserts store).Numbered store.nextTransaction 0 := by
  have idle {index : Nat} {worker : Worker} {transaction : TransactionId}
      (here : (Bench.start table threads inserts store).workers[index]? = some worker) :
      worker.transaction? ≠ some transaction := by
    obtain ⟨-, rfl⟩ := worker_start here
    exact fun held => by cases held
  refine ⟨?_, fun _ _ _ here held => absurd held (idle here),
    fun _ _ _ _ _ here _ held => absurd held (idle here)⟩
  change store.nextTransaction = ⟨store.nextTransaction.value + UInt64.ofNat 0⟩
  rw [show UInt64.ofNat 0 = 0 from rfl, UInt64.add_zero]

/-- At the start nothing is committed, locked or pending. -/
theorem Books.start {table : Table} {store : Store} (coherent : store.Coherent)
    (tables : store.tables = (∅ : Std.ExtTreeMap TableId Table).insert table.id table)
    (rest : store.bare.AtRest) (settled : store.bare.Settled table (store.listed table))
    (threads inserts : Nat) (spot : Nat → Nat → RecordId) :
    (Bench.start table threads inserts store).Books threads inserts (store.bare.counts table.id)
      store.bare.stored ⟨store.bare.stored, fun _ => []⟩ spot := by
  have none (worker row : Nat) : ¬ (Bench.start table threads inserts store).Done worker row := by
    rintro ⟨found, here, below⟩
    obtain ⟨-, rfl⟩ := worker_start here
    exact Nat.not_lt_zero _ below
  refine ⟨coherent, tables, rest.keeps, Store.whole_of_settled settled tables, ⟨by simp [Bench.start], ?_⟩,
    ⟨?_, fun _ _ => rfl, ?_⟩,
    .start none, fun worker row done => absurd done (none worker row), settled.roomy, .inl rfl⟩
  · intro index worker here
    obtain ⟨-, rfl⟩ := worker_start here
    exact ⟨rfl, rfl, Nat.zero_le _, (absurd · Bool.false_ne_true)⟩
  · intro index worker transaction here inserted
    obtain ⟨-, rfl⟩ := worker_start here
    cases inserted
  · intro transaction page held
    change (store.bare.locks.modeOf transaction page).isSome at held
    rw [rest.unlocked] at held
    cases held

end Bench

theorem isFinished_of_firstTrouble {workers : List Worker} (none : firstTrouble workers = none)
    {worker : Worker} (member : worker ∈ workers) : worker.isFinished := by
  induction workers with
  | nil => cases member
  | cons first workers ih =>
      unfold firstTrouble at none
      dsimp only at none
      split at none
      · cases none
      · cases none
      · split at none
        · next finished =>
            rcases List.mem_cons.mp member with rfl | later
            · exact finished
            · exact ih none later
        · cases none

namespace Bench.Books

variable {bench : Bench} {threads inserts pages : Nat} {before : Records} {ledger : Ledger}
  {spot : Nat → Nat → RecordId}

/-- Once all workers have finished the store is `AtRest` and has every row of theirs. -/
theorem finished (books : bench.Books threads inserts pages before ledger spot)
    (finished : ∀ worker ∈ bench.workers, worker.isFinished) :
    bench.store.bare.AtRest ∧
      bench.store.bare.Settled bench.table (bench.store.listed bench.table) ∧
      AddsEach bench.table.id before bench.store.bare.stored (rowValues bench.table inserts)
        (fun worker row => worker < threads ∧ row < inserts) spot := by
  have ended (index : Nat) (worker : Worker) (here : bench.workers[index]? = some worker) :
      worker.phase = .idle ∧ worker.committed = inserts := by
    have done := finished worker (List.mem_of_getElem? here)
    rw [Worker.isFinished, Bool.and_eq_true, beq_iff_eq, decide_eq_true_iff] at done
    obtain ⟨-, insertsAre, within, -⟩ := books.manned.each index worker here
    exact ⟨done.1, Nat.le_antisymm within (insertsAre ▸ done.2)⟩
  have unlocked (transaction : TransactionId) (page : PageId) :
      bench.store.bare.locks.modeOf transaction page = none := by
    cases mode : bench.store.bare.locks.modeOf transaction page with
    | none => rfl
    | some kind =>
        obtain ⟨index, worker, here, held⟩ := books.linked.held transaction page (by
          change (bench.store.bare.locks.modeOf transaction page).isSome
          rw [mode]
          rfl)
        rw [Worker.transaction?, (ended index worker here).1] at held
        cases held
  have done (worker row : Nat) : worker < threads ∧ row < inserts ↔ bench.Done worker row := by
    constructor
    · rintro ⟨inside, below⟩
      rw [← books.manned.length] at inside
      have here := List.getElem?_eq_getElem inside
      exact ⟨_, here, by rw [(ended worker _ here).2]; exact below⟩
    · rintro ⟨found, here, below⟩
      obtain ⟨inside, -⟩ := List.getElem?_eq_some_iff.mp here
      rw [books.manned.length] at inside
      rw [(ended worker found here).2] at below
      exact ⟨inside, below⟩
  have rest := books.keeps.atRest unlocked
  refine ⟨rest, ⟨unlocked, rest.undrafted, rfl, ?_, ?_⟩, ?_⟩
  · intro number below
    refine books.whole _ ?_
    have small := books.coherent.countable.counts_lt bench.table.id
    change number < bench.store.counts bench.table.id at below
    change (UInt32.ofNat number).toNat < bench.store.counts bench.table.id
    rwa [UInt32.toNat_ofNat_of_lt' (Nat.lt_trans below small)]
  · intro some
    rcases books.grown with same | busy
    · exact books.spacious (same ▸ some)
    · exact books.roomy 0 0 ((done 0 0).mp busy)
  · rw [books.keeps.stored]
    exact books.adds.congr done

end Bench.Books

end RecordStore.Stress
