import RecordStore.Proofs.Store.Shown

set_option autoImplicit false

/-! Repeated scans. A scan fixes the number of its pages when it is opened and locks each page that
it loads. So a second scan of the transaction yields the same rows first, and then those on pages
appended after the first was opened. -/

namespace RecordStore

namespace Bare

def listing (bare : Bare) (id : TableId) (number : Nat) : List SeenRow :=
  (List.range number).flatMap fun earlier => bare.shown ⟨id, UInt32.ofNat earlier⟩

def HoldsFirst (bare : Bare) (transaction : TransactionId) (id : TableId) (number : Nat) : Prop :=
  ∀ earlier, earlier < number →
    (bare.locks.modeOf transaction ⟨id, UInt32.ofNat earlier⟩).isSome

variable {bare after : Bare} {transaction : TransactionId} {id : TableId} {number : Nat}

theorem listing_succ (bare : Bare) (id : TableId) (number : Nat) :
    bare.listing id (number + 1) =
      bare.listing id number ++ bare.shown ⟨id, UInt32.ofNat number⟩ := by
  rw [listing, listing, List.range_succ, List.flatMap_append, List.flatMap_singleton]

theorem listing_congr (same : ∀ earlier, earlier < number →
      after.shown ⟨id, UInt32.ofNat earlier⟩ = bare.shown ⟨id, UInt32.ofNat earlier⟩) :
    after.listing id number = bare.listing id number := by
  induction number with
  | zero => rfl
  | succ number ih =>
      rw [listing_succ, listing_succ, same number (Nat.lt_succ_self number),
        ih fun earlier below => same earlier (Nat.lt_succ_of_lt below)]

theorem listing_skip {further : Nat} (reached : number ≤ further)
    (empty : ∀ page, number ≤ page → page < further → bare.shown ⟨id, UInt32.ofNat page⟩ = []) :
    bare.listing id further = bare.listing id number := by
  induction further with
  | zero => rw [Nat.le_zero.mp reached]
  | succ further ih =>
      by_cases last : number = further + 1
      · rw [last]
      · have before : number ≤ further := by omega
        rw [listing_succ, empty further before (Nat.lt_succ_self further), List.append_nil]
        exact ih before fun page above below => empty page above (Nat.lt_succ_of_lt below)

theorem Stays.holdsFirst (stays : Stays transaction id bare after)
    (holds : bare.HoldsFirst transaction id number) : after.HoldsFirst transaction id number :=
  fun earlier below => stays.held _ rfl (holds earlier below)

theorem Stays.listing_eq (stays : Stays transaction id bare after)
    (holds : bare.HoldsFirst transaction id number) :
    after.listing id number = bare.listing id number :=
  listing_congr fun earlier below => stays.shown _ rfl (holds earlier below)

end Bare

/-! ### One step of a scan -/

namespace BareScan

variable {bare after : Bare} {transaction : TransactionId} {id : TableId} {scan : BareScan}
variable {count number : Nat} {rows : List SeenRow}

structure Reads (scan : BareScan) (transaction : TransactionId) (id : TableId) (count : Nat)
    (bare : Bare) (rows : List SeenRow) (number : Nat) : Prop where
  transactionIs : scan.transaction = transaction
  tableIs : scan.table.id = id
  holds : bare.HoldsFirst transaction id number
  listed : rows ++ scan.buffered = bare.listing id number
  ahead : (scan.ahead.first = number ∧ scan.ahead.first + scan.ahead.length = count) ∨
    (number = count ∧ scan.ahead.length = 0)

namespace Reads

theorem stays (reads : scan.Reads transaction id count bare rows number)
    (stays : Bare.Stays transaction id bare after) :
    scan.Reads transaction id count after rows number where
  transactionIs := reads.transactionIs
  tableIs := reads.tableIs
  holds := stays.holdsFirst reads.holds
  listed := by
    rw [stays.listing_eq reads.holds]
    exact reads.listed
  ahead := reads.ahead

theorem start {table : Table} (tableIs : table.id = id)
    (started : BareScan.start table transaction bare = .ok scan) :
    scan.Reads transaction id (bare.counts id) bare [] 0 := by
  unfold BareScan.start at started
  split at started
  · cases started
  · cases started
    refine ⟨rfl, tableIs, (fun earlier below => by cases below), rfl, .inl ⟨rfl, ?_⟩⟩
    change 0 + bare.counts table.id = bare.counts id
    rw [tableIs, Nat.zero_add]

/-- Passing pages without rows keeps the rows yielded equal to the listing. -/
theorem pass (reads : scan.Reads transaction id count bare rows number)
    (unbuffered : scan.buffered = []) (locks : Bare.LocksMore transaction bare after)
    {further : Nat} (reached : number ≤ further)
    (passed : ∀ page, number ≤ page → page < further →
      Empty bare after transaction ⟨id, UInt32.ofNat page⟩) :
    after.HoldsFirst transaction id further ∧ rows = after.listing id further := by
  have stays : Bare.Stays transaction id bare after := .of_locks transaction id locks
  constructor
  · intro page below
    by_cases before : page < number
    · exact stays.holdsFirst reads.holds page before
    · obtain ⟨slots, visited, -⟩ := passed page (Nat.le_of_not_lt before) below
      exact visited.1
  · have listed := reads.listed
    rw [unbuffered, List.append_nil] at listed
    rw [listed, ← stays.listing_eq reads.holds]
    apply (Bare.listing_skip reached ?_).symm
    intro page above below
    obtain ⟨slots, visited, empty⟩ := passed page above below
    rw [locks.shown_eq, ← Bare.rows_of_fetch visited.2, empty]

theorem next_ok (reads : scan.Reads transaction id count bare rows number) {row : SeenRow}
    (yielded : (scan.next bare).1 = some (.ok row)) :
    ∃ further, (scan.next bare).2.1.Reads transaction id count (scan.next bare).2.2
      (rows ++ [row]) further := by
  obtain ⟨rfl, rfl⟩ := And.intro reads.transactionIs reads.tableIs
  have listed := reads.listed
  have locks := next_locks bare scan
  have step := scan.step_next bare
  generalize scan.next bare = result at yielded locks step ⊢
  cases step with
  | @hand head tail held =>
      cases yielded
      rw [held] at listed
      refine ⟨number, rfl, rfl, reads.holds, ?_, reads.ahead⟩
      rw [← listed, List.append_assoc]
      rfl
  | @load further length head tail after slots unbuffered passes total visited taken =>
      cases yielded
      have above := passes.reached
      rcases reads.ahead with ⟨rfl, last⟩ | ⟨-, none⟩
      · obtain ⟨holds, rowsAre⟩ := reads.pass unbuffered locks above passes.empty
        refine ⟨further + 1, rfl, rfl, ?_, ?_, .inl ⟨rfl, total.trans last⟩⟩
        · intro earlier below
          by_cases here : earlier = further
          · subst here
            exact visited.1
          · exact holds earlier (by omega)
        · have shown : bare.shown ⟨scan.table.id, UInt32.ofNat further⟩ = row :: tail :=
            (Bare.rows_of_fetch visited.2).symm.trans taken
          rw [Bare.listing_succ, ← rowsAre, locks.shown_eq, shown, List.append_assoc]
          rfl
      · omega
  | finish unbuffered passes => cases yielded
  | fail unbuffered forward halted => cases yielded

/-- A scan at its end has yielded the rows of all its pages. -/
theorem next_none (reads : scan.Reads transaction id count bare rows number)
    (ended : (scan.next bare).1 = none) :
    (scan.next bare).2.1.Reads transaction id count (scan.next bare).2.2 rows count ∧
      (scan.next bare).2.1.buffered = [] := by
  obtain ⟨rfl, rfl⟩ := And.intro reads.transactionIs reads.tableIs
  have locks := next_locks bare scan
  have step := scan.step_next bare
  generalize scan.next bare = result at ended locks step ⊢
  cases step with
  | hand held => cases ended
  | load unbuffered passes total visited taken => cases ended
  | @finish after unbuffered passes =>
      have passed : number ≤ count ∧ ∀ page, number ≤ page → page < count →
          Empty bare after scan.transaction ⟨scan.table.id, UInt32.ofNat page⟩ := by
        rcases reads.ahead with ⟨rfl, rfl⟩ | ⟨rfl, -⟩
        · exact ⟨passes.reached, passes.empty⟩
        · refine ⟨Nat.le_refl number, fun page above below => ?_⟩
          exact absurd below (Nat.not_lt.mpr above)
      obtain ⟨holds, listed⟩ := reads.pass unbuffered locks passed.1 passed.2
      refine ⟨⟨rfl, rfl, holds, ?_, .inr ⟨rfl, rfl⟩⟩, rfl⟩
      rw [List.append_nil]
      exact listed
  | fail unbuffered forward halted => cases ended

end Reads

end BareScan

/-! ### From the opening to the end -/

def Operation.Continues (name : Nat) : Operation → Prop
  | .scan other _ _ => other ≠ name
  | .rewind other => other ≠ name
  | _ => True

namespace Event

def row? (name : Nat) : Event → Option SeenRow
  | ⟨.next other, .scanned (some (.ok row))⟩ => if other = name then some row else none
  | _ => none

def Faultless (name : Nat) : Event → Prop
  | ⟨.scan other _ _, _⟩ => other ≠ name
  | ⟨.rewind other, _⟩ => other ≠ name
  | ⟨.next other, .scanned (some (.error _))⟩ => other ≠ name
  | _ => True

theorem Faultless.continues {name : Nat} {operation : Operation} {answer : Answer}
    (faultless : Faultless name ⟨operation, answer⟩) : operation.Continues name := by
  cases operation with
  | scan other transaction table => exact faultless
  | rewind other => exact faultless
  | _ => exact trivial

def rows (name : Nat) (history : List Event) : List SeenRow := history.filterMap (row? name)

theorem row?_other {name : Nat} {operation : Operation} (different : operation ≠ .next name)
    (answer : Answer) : row? name ⟨operation, answer⟩ = none := by
  unfold row?
  split
  · next other row same =>
      cases same
      exact if_neg fun own => different (congrArg Operation.next own)
  · rfl

end Event

namespace BareSystem

variable {system : BareSystem} {transaction : TransactionId} {id : TableId} {name count : Nat}

theorem scans_perform (system : BareSystem) {operation : Operation}
    (continues : operation.Continues name) (different : operation ≠ .next name) :
    (system.perform operation).2.scans name = system.scans name := by
  have elsewhere : ∀ {other : Nat} {entry : BareScan}, other ≠ name →
      replaceAt system.scans other entry name = system.scans name :=
    fun apart => if_neg apart.symm
  have kept : ∀ {other : Nat}, other ≠ name → ∀ started : Except Fault BareScan,
      (system.keep other started).2.scans name = system.scans name := by
    intro other apart started
    cases started with
    | error fault => rfl
    | ok scan => exact elsewhere apart
  cases operation with
  | next other =>
      simp only [perform]
      split
      · rfl
      · exact elsewhere fun own => different (congrArg Operation.next own)
  | scan other transaction table =>
      simp only [perform]
      split
      · rfl
      · exact kept continues _
  | rewind other =>
      simp only [perform]
      split
      · rfl
      · exact kept continues _
  | _ => rfl

theorem keep_started {started : Except Fault BareScan}
    (answered : (system.keep name started).1 = .started (.ok ())) :
    ∃ scan, started = .ok scan ∧ (system.keep name started).2.scans name = some scan := by
  cases started with
  | error fault => cases answered
  | ok scan => exact ⟨scan, rfl, if_pos rfl⟩

/-- The scan of this name has yielded these rows so far. -/
def Reading (system : BareSystem) (name : Nat) (transaction : TransactionId) (id : TableId)
    (count : Nat) (rows : List SeenRow) : Prop :=
  ∃ scan number, system.scans name = some scan ∧
    scan.Reads transaction id count system.bare rows number

theorem Reading.next {rows : List SeenRow}
    (reading : system.Reading name transaction id count rows)
    (faultless : Event.Faultless name ⟨.next name, (system.perform (.next name)).1⟩) :
    (system.perform (.next name)).2.Reading name transaction id count
      (rows ++ (Event.row? name ⟨.next name, (system.perform (.next name)).1⟩).toList) := by
  obtain ⟨scan, number, found, reads⟩ := reading
  simp only [perform, found, stepped] at faultless ⊢
  cases answer : (scan.next system.bare).1 with
  | none =>
      obtain ⟨after, -⟩ := reads.next_none answer
      refine ⟨_, count, if_pos rfl, ?_⟩
      have silent : Event.row? name ⟨.next name, .scanned none⟩ = none := rfl
      rw [silent, Option.toList_none, List.append_nil]
      exact after
  | some outcome =>
      cases outcome with
      | error failure =>
          rw [answer] at faultless
          exact absurd rfl faultless
      | ok row =>
          obtain ⟨further, after⟩ := reads.next_ok answer
          refine ⟨_, further, if_pos rfl, ?_⟩
          rw [Event.row?, if_pos rfl]
          exact after

theorem Reading.other {rows : List SeenRow} {operation : Operation}
    (reading : system.Reading name transaction id count rows)
    (stays : Bare.Stays transaction id system.bare (system.perform operation).2.bare)
    (same : (system.perform operation).2.scans name = system.scans name)
    (silent : Event.row? name ⟨operation, (system.perform operation).1⟩ = none) :
    (system.perform operation).2.Reading name transaction id count
      (rows ++ (Event.row? name ⟨operation, (system.perform operation).1⟩).toList) := by
  obtain ⟨scan, number, found, reads⟩ := reading
  refine ⟨scan, number, same.trans found, ?_⟩
  rw [silent, Option.toList_none, List.append_nil]
  exact reads.stays stays

theorem Reading.perform {rows : List SeenRow} {operation : Operation}
    (reading : system.Reading name transaction id count rows)
    (stays : Bare.Stays transaction id system.bare (system.perform operation).2.bare)
    (faultless : Event.Faultless name ⟨operation, (system.perform operation).1⟩) :
    (system.perform operation).2.Reading name transaction id count
      (rows ++ (Event.row? name ⟨operation, (system.perform operation).1⟩).toList) := by
  by_cases own : operation = .next name
  · subst own
    exact reading.next faultless
  · exact reading.other stays (system.scans_perform faultless.continues own)
      (Event.row?_other own _)

end BareSystem

namespace System

variable {start before opened last middle again after system : System}
variable {history others events : List Event}
variable {transaction : TransactionId} {id : TableId} {name count : Nat} {rows : List SeenRow}
variable {opening : Operation}

structure Opens (system : System) (name : Nat) (transaction : TransactionId) (id : TableId)
    (opening : Operation) : Prop where
  opens : opening = .scan name transaction id ∨ (opening = .rewind name ∧
    ∃ scan, system.scans name = some scan ∧ scan.transaction = transaction ∧ scan.table.id = id)
  started : (system.perform opening).1 = .started (.ok ())

/-- A transaction opens a scan and reads it to the end without an error. Others may do anything
meanwhile; the transaction neither ends nor changes the table. -/
inductive FullScan (transaction : TransactionId) (id : TableId) (before : System) :
    List SeenRow → System → Prop where
  | mk {name : Nat} {opening : Operation} {events : List Event} {last : System} :
      before.Opens name transaction id opening →
      Run (Undisturbed transaction id) (before.perform opening).2 events last →
      (∀ event ∈ events, event.Faultless name) →
      (last.perform (.next name)).1 = .scanned none →
      FullScan transaction id before (Event.rows name events) (last.perform (.next name)).2

/-- Every operation but `insert` follows the bare one without a condition on room. -/
theorem Coherent.follows (coherent : system.Coherent) {operation : Operation}
    (insertless : ∀ transaction id row, operation ≠ .insert transaction id row) :
    Follows (system.perform operation) (system.bare.perform operation) := by
  apply coherent.perform operation
  intro transaction id row table same
  exact absurd same (insertless transaction id row)

theorem Run.reading (run : Run (Undisturbed transaction id) opened events system)
    (kept : opened.Kept) (reading : opened.bare.Reading name transaction id count [])
    (faultless : ∀ event ∈ events, event.Faultless name) :
    system.bare.Reading name transaction id count (Event.rows name events) := by
  induction run with
  | start => exact reading
  | @step history system operation earlier undisturbed countable ih =>
      have before := ih fun event member => faultless event (List.mem_append_left _ member)
      have between := earlier.kept (fun _ => And.left) kept
      have follows := between.coherent.perform_of_countable operation countable
      have stays := between.stays undisturbed countable
      have sound := faultless _ (List.mem_append_right history (List.mem_singleton_self _))
      rw [follows.answered] at sound ⊢
      rw [follows.store_bare] at stays
      rw [follows.bareIs, Event.rows, List.filterMap_append]
      have further := before.perform stays sound
      cases noted : Event.row? name ⟨operation, (system.bare.perform operation).1⟩ with
      | none =>
          rw [noted] at further
          rw [List.filterMap_cons_none noted]
          exact further
      | some row =>
          rw [noted] at further
          rw [List.filterMap_cons_some noted]
          exact further

theorem Opens.follows (opens : system.Opens name transaction id opening)
    (coherent : system.Coherent) :
    Follows (system.perform opening) (system.bare.perform opening) := by
  apply coherent.follows
  rintro other target row rfl
  rcases opens.opens with scanned | ⟨rewound, -⟩
  · cases scanned
  · cases rewound

theorem Opens.undisturbed (opens : system.Opens name transaction id opening) :
    Undisturbed transaction id opening := by
  rcases opens.opens with rfl | ⟨rfl, -⟩
  · exact ⟨trivial, trivial⟩
  · exact ⟨trivial, trivial⟩

/-- A scan that was just opened or rewound is one started over its table. -/
theorem Opens.starts (opens : system.Opens name transaction id opening)
    (coherent : system.Coherent) :
    ∃ table scan, table.id = id ∧ BareScan.start table transaction system.store.bare = .ok scan ∧
      (system.perform opening).2.bare.scans name = some scan ∧
      (system.perform opening).2.store.bare = system.store.bare := by
  have follows := opens.follows coherent
  have started := opens.started
  rw [follows.store_bare, follows.bareIs]
  rw [follows.answered] at started
  rcases opens.opens with rfl | ⟨rfl, scan, found, transactionIs, tableIs⟩
  · rw [system.bare.bare_scan]
    simp only [BareSystem.perform] at started ⊢
    cases known : system.bare.bare.table? id with
    | error error =>
        rw [known] at started
        cases started
    | ok table =>
        simp only [known] at started
        obtain ⟨scan, made, kept⟩ := BareSystem.keep_started started
        exact ⟨table, scan, coherent.store.distinct.keyed id table
          (system.store.bare.table?_ok known), made, kept, rfl⟩
  · have bareFound : system.bare.scans name = some scan.bare := by
      change (system.scans name).map Scan.bare = _
      rw [found]
      rfl
    rw [system.bare.bare_rewind]
    simp only [BareSystem.perform, bareFound] at started ⊢
    subst transactionIs
    obtain ⟨entry, made, kept⟩ := BareSystem.keep_started started
    exact ⟨scan.table, entry, tableIs, made, kept, rfl⟩

/-- A scan that was just opened has yielded nothing and has every page ahead. -/
theorem Opens.reading (opens : system.Opens name transaction id opening)
    (coherent : system.Coherent) :
    (system.perform opening).2.bare.Reading name transaction id
      (system.store.bare.counts id) [] := by
  obtain ⟨table, scan, tableIs, made, found, same⟩ := opens.starts coherent
  refine ⟨scan, 0, found, ?_⟩
  rw [show (system.perform opening).2.bare.bare = system.store.bare from same]
  exact .start tableIs made

/-- A scan that was read to its end has shown every page that there was when it was opened, and
holds these. -/
theorem FullScan.listing (full : FullScan transaction id before rows after) (kept : before.Kept) :
    after.Kept ∧ Bare.Stays transaction id before.store.bare after.store.bare ∧
      after.store.bare.HoldsFirst transaction id (before.store.bare.counts id) ∧
      rows = after.store.bare.listing id (before.store.bare.counts id) := by
  rcases full with @⟨name, opening, events, last, opens, run, faultless, ended⟩
  have openedCountable := (opens.follows kept.coherent).coherent.store.countable
  have opened := kept.perform opens.undisturbed.1 openedCountable
  have finished := run.kept (fun _ => And.left) opened
  have follows : Follows (last.perform (.next name)) (last.bare.perform (.next name)) :=
    finished.coherent.follows fun _ _ _ same => by cases same
  have undisturbed : Undisturbed transaction id (.next name) := ⟨trivial, trivial⟩
  refine ⟨finished.perform undisturbed.1 follows.coherent.store.countable, ?_, ?_⟩
  · exact ((kept.stays opens.undisturbed openedCountable).trans (run.stays opened)).trans
      (finished.stays undisturbed follows.coherent.store.countable)
  · obtain ⟨scan, number, found, reads⟩ :=
      run.reading opened (opens.reading kept.coherent) faultless
    rw [follows.answered] at ended
    rw [follows.store_bare]
    simp only [BareSystem.perform, found, BareSystem.stepped, Answer.scanned.injEq] at ended ⊢
    obtain ⟨complete, unbuffered⟩ := reads.next_none ended
    have listed := complete.listed
    rw [unbuffered, List.append_nil] at listed
    exact ⟨complete.holds, listed⟩

def numberRow (number : Int32) : Row := ⟨numbers.schema, [.int number], none, rfl⟩

def single : System := (small.performAll [.insert ⟨1⟩ ⟨7⟩ (numberRow 5), .commit ⟨1⟩]).2

theorem single_reached : ∃ history, Run Operation.Ordinary small history single := by
  have inserted := Run.step (.insert ⟨1⟩ ⟨7⟩ (numberRow 5))
    (.start : Run Operation.Ordinary small [] small) trivial
    (Store.countable_single rfl (by decide +kernel))
  exact ⟨_, .step (.commit ⟨1⟩) inserted trivial (Store.countable_single rfl (by decide +kernel))⟩

def blank : System :=
  ⟨(Store.start ⟨"", [], ∅, (∅ : Std.ExtTreeMap FileId Content).insert 0 (.ofList []), 1⟩ 2
      .standard).register numbers,
    fun _ => none⟩

end System

end RecordStore
