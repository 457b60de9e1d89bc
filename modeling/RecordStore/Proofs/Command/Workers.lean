import RecordStore.Proofs.Command.Counting

set_option autoImplicit false

/-! The transactions of the workers. `Linked` relates a worker to a ledger: a row inserted and not
yet committed is one pending change of its transaction. `Unshared` says that no two workers have the
same transaction number. -/

namespace RecordStore

/-! ### Numbers of transactions -/

/-- The number that `next` gives out after `count` others. -/
def TransactionId.later (transaction : TransactionId) (count : Nat) : TransactionId :=
  ⟨transaction.value + UInt64.ofNat count⟩

theorem TransactionId.next_later (transaction : TransactionId) (count : Nat) :
    (transaction.later count).next = transaction.later (count + 1) := by
  rw [next, later, later, UInt64.ofNat_add, ← UInt64.add_assoc]
  rfl

/-- Below `wordLimit` no number is given out twice. -/
theorem TransactionId.later_inj {transaction : TransactionId} {first second : Nat}
    (inside : first < wordLimit) (within : second < wordLimit)
    (same : transaction.later first = transaction.later second) : first = second := by
  have values : UInt64.ofNat first = UInt64.ofNat second :=
    (UInt64.add_right_inj _).mp (TransactionId.mk.inj same)
  have numbers := congrArg UInt64.toNat values
  rwa [UInt64.toNat_ofNat_of_lt' inside, UInt64.toNat_ofNat_of_lt' within] at numbers

namespace Stress

/-! ### Transactions of the workers -/

def Worker.transaction? (worker : Worker) : Option TransactionId :=
  match worker.phase with
  | .begun transaction | .inserted transaction | .thwarted transaction => some transaction
  | _ => none

namespace Worker

variable {table : Table} {worker : Worker} {transaction other : TransactionId}

theorem stored_of_made {row : Row}
    (made : (worker.number.mapError Failure.broken >>= fun number =>
      (Row.make table.schema (List.replicate table.schema.count (.int number))).mapError
        Failure.refused) = .ok row) :
    row.stored = rowValues table worker.inserts worker.index worker.committed := by
  rcases numbered : worker.number with fault | number
  · rw [numbered] at made
    cases made
  · rw [numbered] at made
    have numberIs : number =
        Int32.ofInt (worker.index * worker.inserts + worker.committed : Nat) := by
      unfold Worker.number multiply at numbered
      split at numbered
      · exact (Except.ok.inj numbered).symm
      · cases numbered
    change (Row.make table.schema (List.replicate table.schema.count
      (.int number))).mapError Failure.refused = _ at made
    unfold Row.make at made
    split at made
    · cases made
      rw [rowValues, ← numberIs]
      exact List.map_replicate
    · cases made

theorem transaction?_insertRow {store : Store}
    (has : (worker.insertRow table transaction store).1.transaction? = some other) :
    other = transaction := by
  unfold insertRow at has
  dsimp only at has
  split at has
  · cases has
  · cases has
  · split at has
    · exact (Option.some.inj has).symm
    · split at has
      · exact (Option.some.inj has).symm
      · cases has
    · cases has

theorem extends_insertRow (table : Table) (transaction : TransactionId) (worker : Worker)
    (store : Store) : (worker.insertRow table transaction store).2.Extends store := by
  unfold insertRow
  dsimp only
  split
  · exact store.names_complete false transaction
  · exact store.names_complete false transaction
  · next row made =>
      have inserted := store.names_insert transaction table.id row
      split
      · next done =>
          rw [done] at inserted
          exact inserted
      · next middle done =>
          rw [done] at inserted
          split
          · exact inserted
          · exact (middle.names_complete false transaction).trans inserted
      · next middle done =>
          rw [done] at inserted
          exact (middle.names_complete false transaction).trans inserted

theorem extends_step (table : Table) (worker : Worker) (store : Store) :
    (worker.step table store).2.Extends store := by
  have ended (commits : Bool) (transaction : TransactionId) :=
    store.names_complete commits transaction
  unfold step
  split
  · split
    · exact .refl _
    · exact .refl _
  · next transaction phase => exact worker.extends_insertRow table transaction store
  · next transaction phase =>
      have committed := ended true transaction
      split <;> next done => rwa [show store.complete true transaction = _ from done] at committed
  · next transaction phase =>
      have aborted := ended false transaction
      split <;> next done => rwa [show store.complete false transaction = _ from done] at aborted
  · exact .refl _
  · exact .refl _

end Worker

namespace Bench

variable {bench : Bench} {index : Nat} {worker changed : Worker} {transaction : TransactionId}
  {ledger later : Ledger} {threads inserts : Nat}

/-- No two workers hold the same transaction number. -/
def Unshared (bench : Bench) : Prop :=
  ∀ (first second : Nat) (left right : Worker) (transaction : TransactionId),
    bench.workers[first]? = some left → bench.workers[second]? = some right →
    left.transaction? = some transaction → right.transaction? = some transaction → first = second

def Done (bench : Bench) (worker row : Nat) : Prop :=
  ∃ found, bench.workers[worker]? = some found ∧ row < found.committed

def put (bench : Bench) (index : Nat) (worker : Worker) (store : Store) : Bench :=
  { bench with workers := bench.workers.set index worker, store := store }

theorem step_eq (here : bench.workers[index]? = some worker) :
    bench.step index =
      bench.put index (worker.step bench.table bench.store).1
        (worker.step bench.table bench.store).2 := by
  rw [step, here]
  rfl

theorem worker_put (here : bench.workers[index]? = some worker) (changed : Worker) (store : Store)
    (other : Nat) :
    (bench.put index changed store).workers[other]? =
      if other = index then some changed else bench.workers[other]? := by
  obtain ⟨inside, -⟩ := List.getElem?_eq_some_iff.mp here
  change (bench.workers.set index changed)[other]? = _
  rw [List.getElem?_set]
  by_cases same : index = other
  · rw [if_pos same, if_pos same.symm, if_pos inside]
  · rw [if_neg same, if_neg fun equal => same equal.symm]

theorem put_put (bench : Bench) (index : Nat) (first second : Worker) (before after : Store) :
    (bench.put index first before).put index second after = bench.put index second after := by
  simp only [put, List.set_set]

theorem put_self (here : bench.workers[index]? = some worker) :
    bench.put index worker bench.store = bench := by
  obtain ⟨inside, same⟩ := List.getElem?_eq_some_iff.mp here
  rw [put, ← same, List.set_getElem_self]

theorem Unshared.put (unshared : bench.Unshared) (here : bench.workers[index]? = some worker)
    (mine : ∀ transaction, changed.transaction? = some transaction →
      worker.transaction? = some transaction) (store : Store) :
    (bench.put index changed store).Unshared := by
  have former (other : Nat) (found : Worker) (transaction : TransactionId)
      (present : (bench.put index changed store).workers[other]? = some found)
      (held : found.transaction? = some transaction) :
      ∃ before, bench.workers[other]? = some before ∧
        before.transaction? = some transaction := by
    rw [worker_put here] at present
    split at present
    · next same =>
        cases present
        exact ⟨worker, same ▸ here, mine transaction held⟩
    · exact ⟨found, present, held⟩
  intro first second left right transaction leftHere rightHere leftHas rightHas
  obtain ⟨leftBefore, leftFound, leftHeld⟩ := former first left transaction leftHere leftHas
  obtain ⟨rightBefore, rightFound, rightHeld⟩ := former second right transaction rightHere rightHas
  exact unshared _ _ _ _ transaction leftFound rightFound leftHeld rightHeld

structure Numbered (bench : Bench) (first : TransactionId) (begun : Nat) : Prop where
  next : bench.store.nextTransaction = first.later begun
  held : ∀ (index : Nat) (worker : Worker) (transaction : TransactionId),
    bench.workers[index]? = some worker → worker.transaction? = some transaction →
    ∃ number, number < begun ∧ transaction = first.later number
  unshared : bench.Unshared

section Numbered

variable {first : TransactionId} {begun : Nat}

theorem Numbered.put (numbered : bench.Numbered first begun)
    (here : bench.workers[index]? = some worker)
    (mine : ∀ transaction, changed.transaction? = some transaction →
      worker.transaction? = some transaction) {store : Store}
    (same : store.nextTransaction = bench.store.nextTransaction) :
    (bench.put index changed store).Numbered first begun := by
  refine ⟨same.trans numbered.next, ?_, numbered.unshared.put here mine store⟩
  intro other found transaction present held
  rw [worker_put here] at present
  split at present
  · cases present
    exact numbered.held index worker transaction here (mine transaction held)
  · exact numbered.held other found transaction present held

/-- A transaction that begins has a new number as long as fewer than `wordLimit` were given out. -/
theorem Numbered.begin (numbered : bench.Numbered first begun) (left : begun < wordLimit)
    (here : bench.workers[index]? = some worker) :
    (bench.put index { worker with phase := .begun bench.store.begin.1 }
      bench.store.begin.2).Numbered first (begun + 1) := by
  have put := worker_put here { worker with phase := .begun bench.store.begin.1 }
    bench.store.begin.2
  have number : bench.store.begin.1 = first.later begun := numbered.next
  have fresh (other : Nat) (found : Worker) (present : bench.workers[other]? = some found) :
      found.transaction? ≠ some bench.store.begin.1 := by
    intro held
    obtain ⟨earlier, below, same⟩ := numbered.held other found _ present held
    have equal := TransactionId.later_inj left (Nat.lt_trans below left) (number.symm.trans same)
    exact Nat.ne_of_lt below equal.symm
  refine ⟨?_, ?_, ?_⟩
  · change bench.store.nextTransaction.next = _
    rw [numbered.next, TransactionId.next_later]
  · intro other found transaction present held
    rw [put] at present
    split at present
    · cases present
      exact ⟨begun, Nat.lt_succ_self begun, (Option.some.inj held).symm.trans number⟩
    · obtain ⟨earlier, below, same⟩ := numbered.held other found transaction present held
      exact ⟨earlier, Nat.lt_succ_of_lt below, same⟩
  · intro one other left right transaction leftHere rightHere leftHas rightHas
    rw [put] at leftHere rightHere
    split at leftHere <;> split at rightHere
    · next equal same => exact equal.trans same.symm
    · cases leftHere
      cases leftHas
      exact absurd rightHas (fresh other right rightHere)
    · cases rightHere
      cases rightHas
      exact absurd leftHas (fresh one left leftHere)
    · exact numbered.unshared one other left right transaction leftHere rightHere leftHas rightHas

end Numbered

structure Manned (bench : Bench) (threads inserts : Nat) : Prop where
  length : bench.workers.length = threads
  each : ∀ (index : Nat) (worker : Worker), bench.workers[index]? = some worker →
    worker.index = index ∧ worker.inserts = inserts ∧ worker.committed ≤ inserts ∧
      (worker.transaction?.isSome → worker.committed < inserts)

theorem Manned.put (manned : bench.Manned threads inserts)
    (here : bench.workers[index]? = some worker) (changed : Worker)
    (same : changed.index = worker.index)
    (rows : changed.inserts = worker.inserts) (within : changed.committed ≤ inserts)
    (busy : changed.transaction?.isSome → changed.committed < inserts) (store : Store) :
    (bench.put index changed store).Manned threads inserts := by
  refine ⟨(List.length_set).trans manned.length, ?_⟩
  intro other found present
  rw [worker_put here] at present
  split at present
  · next equal =>
      cases present
      obtain ⟨indexIs, insertsAre, -⟩ := manned.each index worker here
      exact ⟨same.trans (indexIs.trans equal.symm), rows.trans insertsAre, within, busy⟩
  · exact manned.each other found present

theorem Manned.phase (manned : bench.Manned threads inserts)
    (here : bench.workers[index]? = some worker) (phase : Phase)
    (busy : ({ worker with phase := phase } : Worker).transaction?.isSome →
      worker.committed < inserts) (store : Store) :
    (bench.put index { worker with phase := phase } store).Manned threads inserts := by
  obtain ⟨-, -, within, -⟩ := manned.each index worker here
  exact manned.put here { worker with phase := phase } rfl rfl within busy store

structure Linked (bench : Bench) (ledger : Ledger) : Prop where
  noted : ∀ (index : Nat) (worker : Worker) (transaction : TransactionId),
    bench.workers[index]? = some worker → worker.phase = .inserted transaction →
    ∃ record, ledger.pending transaction =
        [.insert record (rowValues bench.table worker.inserts index worker.committed)] ∧
      ledger.committed record = none ∧ record.page.table = bench.table.id
  silent : ∀ transaction, (∀ (index : Nat) (worker : Worker),
    bench.workers[index]? = some worker → worker.phase ≠ .inserted transaction) →
    ledger.pending transaction = []
  held : ∀ transaction page, (bench.store.locks.modeOf transaction page).isSome →
    ∃ (index : Nat) (worker : Worker), bench.workers[index]? = some worker ∧
      worker.transaction? = some transaction

theorem transaction?_of_inserted (phase : worker.phase = .inserted transaction) :
    worker.transaction? = some transaction := by
  rw [Worker.transaction?, phase]

/-- A step of one worker keeps the links of the others if it leaves their transactions alone. -/
theorem Linked.put {after : Store} (linked : bench.Linked ledger)
    (here : bench.workers[index]? = some worker)
    (mine : worker.transaction? = none ∨ worker.transaction? = some transaction)
    (unshared : ∀ (other : Nat) (found : Worker), other ≠ index →
      bench.workers[other]? = some found → found.transaction? ≠ some transaction)
    (pending : ∀ other, other ≠ transaction → later.pending other = ledger.pending other)
    (locks : ∀ other page, other ≠ transaction →
      after.locks.modeOf other page = bench.store.locks.modeOf other page)
    (stays : ∀ other record values, other ≠ transaction →
      ledger.pending other = [.insert record values] → ledger.committed record = none →
      later.committed record = none)
    (own : (changed.phase = .inserted transaction ∧
        ∃ record, later.pending transaction =
            [.insert record (rowValues bench.table changed.inserts index changed.committed)] ∧
          later.committed record = none ∧ record.page.table = bench.table.id) ∨
      ((∀ other, changed.phase ≠ .inserted other) ∧ later.pending transaction = []))
    (keeps : changed.transaction? = some transaction ∨
      ∀ page, after.locks.modeOf transaction page = none) :
    (bench.put index changed after).Linked later := by
  constructor
  · intro other found number present phase
    rw [worker_put here] at present
    split at present
    · next equal =>
        cases present
        subst equal
        rcases own with ⟨same, pended⟩ | ⟨none, -⟩
        · obtain rfl := Phase.inserted.inj (phase.symm.trans same)
          exact pended
        · exact absurd phase (none number)
    · next different =>
        have foreign : number ≠ transaction := by
          rintro rfl
          exact unshared other found different present (transaction?_of_inserted phase)
        obtain ⟨record, pended, vacant, owned⟩ := linked.noted other found number present phase
        exact ⟨record, (pending number foreign).trans pended,
          stays number record _ foreign pended vacant, owned⟩
  · intro number none
    by_cases same : number = transaction
    · subst same
      rcases own with ⟨phase, -⟩ | ⟨-, empty⟩
      · have mineNow := worker_put here changed after index
        rw [if_pos rfl] at mineNow
        exact absurd phase (none index changed mineNow)
      · exact empty
    · rw [pending number same]
      apply linked.silent
      intro other found present phase
      by_cases equal : other = index
      · subst equal
        rw [here] at present
        cases present
        have held := transaction?_of_inserted phase
        rcases mine with idle | busy
        · rw [idle] at held
          cases held
        · exact same (Option.some.inj (held.symm.trans busy))
      · exact none other found ((worker_put here changed after other).trans
          ((if_neg equal).trans present)) phase
  · intro number page held
    by_cases same : number = transaction
    · subst same
      rcases keeps with busy | free
      · exact ⟨index, changed, (worker_put here changed after index).trans (if_pos rfl), busy⟩
      · have locked : (after.locks.modeOf number page).isSome := held
        rw [free] at locked
        cases locked
    · have locked : (after.locks.modeOf number page).isSome := held
      rw [locks number page same] at locked
      obtain ⟨other, found, present, busy⟩ := linked.held number page locked
      have different : other ≠ index := by
        rintro rfl
        rw [here] at present
        cases present
        rcases mine with idle | mine
        · rw [idle] at busy
          cases busy
        · exact same (Option.some.inj (busy.symm.trans mine))
      exact ⟨other, found, (worker_put here changed after other).trans
        ((if_neg different).trans present), busy⟩

theorem done_put (here : bench.workers[index]? = some worker) (changed : Worker) (store : Store)
    (other row : Nat) :
    (bench.put index changed store).Done other row ↔
      if other = index then row < changed.committed else bench.Done other row := by
  rw [Done, worker_put here]
  split
  · exact ⟨fun ⟨found, present, below⟩ => Option.some.inj present ▸ below,
      fun below => ⟨changed, rfl, below⟩⟩
  · rfl

/-- The commit of a worker makes its next row `Done`. -/
theorem done_commit (here : bench.workers[index]? = some worker) (phase : Phase) (store : Store)
    (other row : Nat) :
    (bench.put index { worker with phase := phase, committed := worker.committed + 1 }
        store).Done other row ↔
      bench.Done other row ∨ (other = index ∧ row = worker.committed) := by
  rw [done_put here]
  split
  · next equal =>
      subst equal
      constructor
      · intro upto
        rcases Nat.lt_succ_iff_lt_or_eq.mp upto with earlier | last
        · exact .inl ⟨worker, here, earlier⟩
        · exact .inr ⟨rfl, last⟩
      · rintro (⟨found, present, upto⟩ | ⟨-, rfl⟩)
        · rw [here] at present
          cases present
          exact Nat.lt_succ_of_lt upto
        · exact Nat.lt_succ_self _
  · next different =>
      exact ⟨.inl, fun either => either.resolve_right fun both => different both.1⟩

theorem not_done_committed (here : bench.workers[index]? = some worker) :
    ¬ bench.Done index worker.committed := by
  rintro ⟨found, present, upto⟩
  rw [here] at present
  cases present
  exact Nat.lt_irrefl _ upto

theorem done_phase (here : bench.workers[index]? = some worker) (phase : Phase) (store : Store)
    (other row : Nat) :
    (bench.put index { worker with phase := phase } store).Done other row ↔
      bench.Done other row := by
  rw [done_put here]
  split
  · next equal =>
      rw [equal]
      exact ⟨fun below => ⟨worker, here, below⟩,
        fun ⟨found, present, below⟩ => Option.some.inj (here.symm.trans present) ▸ below⟩
  · rfl

end Bench

end Stress

end RecordStore
