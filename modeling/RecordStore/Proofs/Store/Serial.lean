import Mathlib.Data.List.Forall2
import RecordStore.Proofs.Store.Rerun

set_option autoImplicit false

/-! Serializability: locks are kept until the end of a transaction, so the committed transactions
can be repeated one after another in commit order on the same files. Every successful operation has
the same answer, and the stored records are the same at the end. -/

namespace RecordStore

def Event.successOf : Event → Option TransactionId
  | ⟨.get transaction _ _, .shown (.ok _)⟩ => some transaction
  | ⟨.insert transaction _ _, .placed (.ok _)⟩ => some transaction
  | ⟨.delete transaction _, .deleted (.ok _)⟩ => some transaction
  | _ => none

/-- The committed transactions' operations, each transaction as a whole and in commit order, and the
operations of the unfinished ones. -/
structure Schedule where
  serial : List Event
  unfinished : TransactionId → List Event

namespace Schedule

def note (schedule : Schedule) (transaction : TransactionId) (event : Event) : Schedule :=
  { schedule with
    unfinished := fun other =>
      if other = transaction then schedule.unfinished other ++ [event]
      else schedule.unfinished other }

def clear (schedule : Schedule) (transaction : TransactionId) : Schedule :=
  { schedule with
    unfinished := fun other => if other = transaction then [] else schedule.unfinished other }

def record (schedule : Schedule) (event : Event) : Schedule :=
  match event.operation with
  | .commit transaction =>
      { schedule.clear transaction with
        serial := schedule.serial ++ (schedule.unfinished transaction ++ [event]) }
  | .abort transaction => schedule.clear transaction
  | _ =>
      match event.successOf with
      | some transaction => schedule.note transaction event
      | none => schedule

def of (history : List Event) : Schedule := history.foldl record ⟨[], fun _ => []⟩

theorem of_append (history : List Event) (event : Event) :
    of (history ++ [event]) = (of history).record event := by
  rw [of, of, List.foldl_append]
  rfl

end Schedule

namespace Bare

variable {bare after : Bare} {ledger : Ledger} {ground : Ground}
variable {transaction other : TransactionId} {page : PageId}

structure Serializes (bare : Bare) (unfinished : TransactionId → List Event) (ground : Ground) :
    Prop where
  tracks : bare.Tracks ground
  replays : ∀ transaction, Replay ground (bare.Held transaction) transaction
    (unfinished transaction) (bare.own transaction)

/-! ### Operations that end no transaction -/

theorem held_of_strengthens
    (strengthens : LockService.Strengthens transaction bare.locks after.locks)
    (held : bare.Held other page) : after.Held other page := by
  by_cases own : other = transaction
  · subst own
    exact strengthens.held page held
  · rw [Held, strengthens.others other page own]
    exact held

namespace Serializes

variable {unfinished : TransactionId → List Event}

theorem of_strengthens (serializes : bare.Serializes unfinished ground)
    (strengthens : LockService.Strengthens transaction bare.locks after.locks)
    (tracks : after.Tracks ground) (drafts : after.drafts = bare.drafts) :
    after.Serializes unfinished ground := by
  refine ⟨tracks, ?_⟩
  intro other
  have covers : ground.Covers (after.Held other) ground (bare.Held other) :=
    ⟨rfl, rfl, fun page => held_of_strengthens strengthens, fun page _ => rfl⟩
  rw [own_of_drafts drafts]
  exact covers.replay (serializes.replays other)

theorem lockMore (serializes : bare.Serializes unfinished ground)
    (locks : LocksMore transaction bare after) : after.Serializes unfinished ground :=
  serializes.of_strengthens locks.strengthens (serializes.tracks.lockMore locks) locks.drafts_eq

/-- A successful operation extends what its transaction could have done alone. -/
theorem advance (serializes : bare.Serializes unfinished ground) {event : Event}
    (advances : bare.Advances after ground transaction event) :
    after.Serializes
      (fun other => if other = transaction then unfinished other ++ [event] else unfinished other)
      ground := by
  refine ⟨advances.tracks, ?_⟩
  intro other
  have covers : ground.Covers (after.Held other) ground (bare.Held other) :=
    ⟨rfl, rfl, fun page => held_of_strengthens advances.strengthens, fun page _ => rfl⟩
  have replay := covers.replay (serializes.replays other)
  by_cases own : other = transaction
  · subst own
    simp only [if_pos]
    exact .snoc replay advances.solo
  · simp only [if_neg own, advances.others other own]
    exact replay

end Serializes

/-! ### Ends of transactions -/

theorem Keeps.own_complete (keeps : bare.Keeps ledger) (commits : Bool)
    (transaction other : TransactionId) :
    (bare.complete commits transaction).own other =
      if other = transaction then ∅ else bare.own other := by
  apply Std.ExtTreeMap.ext_getElem?
  intro page
  rw [own_lookup, drafts_complete keeps.consistent]
  cases drafted : bare.drafts[page]? with
  | none =>
      have nothing : (bare.own other)[page]? = none := by
        rw [own_lookup, drafted]
        rfl
      split <;> split <;> simp [nothing]
  | some draft =>
      have kept : (bare.own other)[page]? =
          if draft.transaction = other then some draft else none := by
        rw [own_lookup, drafted, Option.filter_some]
        simp only [decide_eq_true_eq]
      by_cases held : (bare.locks.modeOf transaction page).isSome
      · have owner := keeps.own_draft drafted held
        rw [if_pos held]
        by_cases own : other = transaction
        · rw [if_pos own, Std.ExtTreeMap.getElem?_empty]
          rfl
        · rw [if_neg own, kept, owner, if_neg fun same => own same.symm]
          rfl
      · have foreign := keeps.foreign_draft drafted held
        rw [if_neg held, Option.filter_some]
        simp only [decide_eq_true_eq]
        by_cases own : other = transaction
        · rw [if_pos own, own, if_neg foreign, Std.ExtTreeMap.getElem?_empty]
        · rw [if_neg own, kept]

/-- A commit writes the drafts of its transaction only. -/
theorem Keeps.written_commit_own (keeps : bare.Keeps ledger) (transaction : TransactionId)
    (page : PageId) :
    (bare.complete true transaction).written page =
      match (bare.own transaction)[page]? with
      | some draft => .ok draft.slots
      | none => bare.written page := by
  rw [written_commit keeps.consistent, own_lookup]
  cases drafted : bare.drafts[page]? with
  | none => rfl
  | some draft =>
      rw [Option.filter_some]
      by_cases held : (bare.locks.modeOf transaction page).isSome
      · simp only [if_pos held, keeps.own_draft drafted held, decide_true, if_true]
      · have foreign := keeps.foreign_draft drafted held
        simp only [if_neg held, decide_eq_false foreign, Bool.false_eq_true, if_false]

theorem own_eq_some_iff {draft : Draft} :
    (bare.own transaction)[page]? = some draft ↔
      bare.drafts[page]? = some draft ∧ draft.transaction = transaction := by
  rw [own_lookup, Option.filter_eq_some_iff, decide_eq_true_eq]

namespace Serializes

variable {unfinished : TransactionId → List Event} {later : Ground}

theorem complete (serializes : bare.Serializes unfinished ground) (keeps : bare.Keeps ledger)
    {commits : Bool} (tracks : (bare.complete commits transaction).Tracks later)
    (tables : later.tables = ground.tables) (capacity : later.capacity = ground.capacity)
    (written : ∀ page, (bare.own transaction)[page]? = none →
      later.written page = ground.written page) :
    (bare.complete commits transaction).Serializes
      (fun other => if other = transaction then [] else unfinished other) later := by
  refine ⟨tracks, ?_⟩
  intro other
  rw [keeps.own_complete]
  by_cases own : other = transaction
  · simp only [if_pos own]
    exact .nil
  · simp only [if_neg own]
    have held : (bare.complete commits transaction).Held other = bare.Held other := by
      funext page
      rw [Held, modeOf_complete keeps.consistent, if_neg own]
      rfl
    have covers : later.Covers (bare.Held other) ground (bare.Held other) := by
      refine ⟨tables, capacity, fun page => id, fun page mine => written page ?_⟩
      rw [Option.eq_none_iff_forall_ne_some]
      intro draft drafted
      obtain ⟨present, owner⟩ := own_eq_some_iff.mp drafted
      exact own ((keeps.own_draft present mine).symm.trans owner)
    rw [held]
    exact covers.replay (serializes.replays other)

theorem abort (serializes : bare.Serializes unfinished ground) (keeps : bare.Keeps ledger)
    (transaction : TransactionId) :
    (bare.complete false transaction).Serializes
      (fun other => if other = transaction then [] else unfinished other) ground := by
  refine serializes.complete keeps ?_ rfl rfl fun page _ => rfl
  refine ⟨?_, ?_, ?_⟩
  · rw [tables_complete]
    exact serializes.tracks.tables
  · rw [capacity_complete]
    exact serializes.tracks.capacity
  · intro page
    rw [Blank, tables_complete, written_abort]
    exact serializes.tracks.pages page

/-- `complete true` keeps `Serializes`, with the drafts of the transaction written. -/
theorem commit (serializes : bare.Serializes unfinished ground) (keeps : bare.Keeps ledger)
    (tables : later.tables = ground.tables) (capacity : later.capacity = ground.capacity)
    (written : ∀ page, later.written page =
      match (bare.own transaction)[page]? with
      | some draft => .ok draft.slots
      | none => ground.written page) :
    (bare.complete true transaction).Serializes
      (fun other => if other = transaction then [] else unfinished other) later := by
  refine serializes.complete keeps ?_ tables capacity fun page undrafted => ?_
  · refine ⟨?_, ?_, ?_⟩
    · rw [tables_complete, tables]
      exact serializes.tracks.tables
    · rw [capacity_complete, capacity]
      exact serializes.tracks.capacity
    · intro page
      rw [Blank, Ground.Missing, tables_complete, written, keeps.written_commit_own]
      cases (bare.own transaction)[page]? with
      | some draft => exact .inl rfl
      | none => exact serializes.tracks.pages page
  · rw [written, undrafted]

/-! ### One operation among others -/

section Perform

variable {schedule : Schedule}

theorem get (serializes : bare.Serializes schedule.unfinished ground)
    (keeps : bare.Keeps ledger) (transaction : TransactionId) (page : PageId) (access : Access) :
    (bare.getPage transaction page access).2.Serializes
      (schedule.record ⟨.get transaction page access,
        .shown (bare.getPage transaction page access).1⟩).unfinished ground := by
  have locks := bare.getPage_locks transaction page access
  cases done : bare.getPage transaction page access with
  | mk outcome after =>
      rw [done] at locks
      cases outcome with
      | error failure => exact serializes.lockMore locks
      | ok slots => exact serializes.advance (keeps.get_advances serializes.tracks done)

theorem delete (serializes : bare.Serializes schedule.unfinished ground)
    (keeps : bare.Keeps ledger) (transaction : TransactionId) (record : Option RecordId) :
    (bare.delete transaction record).2.Serializes
      (schedule.record ⟨.delete transaction record,
        .deleted (bare.delete transaction record).1⟩).unfinished ground := by
  cases done : bare.delete transaction record with
  | mk outcome after =>
      cases outcome with
      | error failure => exact serializes.lockMore (delete_error done)
      | ok nothing => exact serializes.advance (keeps.delete_advances serializes.tracks done)

/-- `insert` keeps `Serializes`, also when it fails after appending a page. -/
theorem insert (serializes : bare.Serializes schedule.unfinished ground)
    (keeps : bare.Keeps ledger) {id : TableId} {row : Row}
    (keyed : ∀ table, bare.tables[id]? = some table → table.id = id)
    (missing : ∀ table, bare.tables[id]? = some table → table.Usable →
      bare.written (bare.nextPage table) = .error (.refused (.missingPage (bare.nextPage table))))
    (countable : (bare.insert transaction id row).2.counts id < UInt32.size) :
    (bare.insert transaction id row).2.Serializes
      (schedule.record ⟨.insert transaction id row,
        .placed (bare.insert transaction id row).1⟩).unfinished ground := by
  cases done : bare.insert transaction id row with
  | mk outcome after =>
      rw [done] at countable
      cases outcome with
      | ok record =>
          exact serializes.advance
            (keeps.insert_advances serializes.tracks keyed missing countable done)
      | error failure =>
          rcases insert_error done with locks | ⟨table, known, usable, -, locks⟩
          · exact serializes.lockMore locks
          · have own : bare.tables[table.id]? = some table := by
              rw [keyed table known]
              exact known
            have grown : (bare.grow table).Serializes schedule.unfinished ground :=
              serializes.of_strengthens (.refl transaction bare.locks)
                (serializes.tracks.grow own (missing table known usable)) rfl
            exact grown.lockMore locks

end Perform

end Serializes

end Bare

/-! ### Repeating a transaction -/

namespace System

variable {other before : System} {past : List Event}

theorem Run.ordinary {start system : System} {history : List Event}
    (run : Run Operation.Plain start history system) :
    Run Operation.Ordinary start history system :=
  run.mono fun _ plain => plain.ordinary

theorem Run.orderly (run : Run Operation.Plain other past before) (fresh : other.Fresh)
    (whole : other.store.bare.Whole) : before.store.bare.Orderly := by
  have coherent := (run.coherent fresh.coherent).store
  have keeps := run.ordinary.keeps fresh
  refine ⟨keeps.consistent, coherent.distinct.keyed, run.ordinary.whole fresh whole, ?_, ?_⟩
  · intro page table known outside
    rw [show before.store.bare.counts page.table = _ from Store.counts_of_table known] at outside
    obtain ⟨failure, unreadable, -⟩ := coherent.written_outside known outside
    exact ⟨failure, unreadable⟩
  · intro page draft drafted
    exact (keeps.drafted page draft drafted).readable

/-- The operations of a transaction that could run alone have the same answers when they are run
alone. -/
theorem Run.rerun {ground : Ground} {held : PageId → Prop} {transaction : TransactionId}
    {events : List Event} {drafts : Drafts} (replay : Replay ground held transaction events drafts)
    (fresh : other.Fresh) (whole : other.store.bare.Whole)
    (run : Run Operation.Plain other past before)
    (alone : before.store.bare.Alone ground transaction ∅) :
    ∃ repeated system, Run Operation.Plain other (past ++ repeated) system ∧
      List.Forall₂ Event.Repeats events repeated ∧
      system.store.bare.Alone ground transaction drafts := by
  induction replay with
  | nil => exact ⟨[], before, by rwa [List.append_nil], .nil, alone⟩
  | @snoc events event drafts later earlier solo ih =>
      obtain ⟨repeated, system, run, repeats, alone⟩ := ih
      have coherent := run.coherent fresh.coherent
      obtain ⟨again, after, plain, room⟩ :=
        alone.perform system.bare.scans (run.orderly fresh whole) solo
      have follows := coherent.perform event.operation
        fun another id row table insert known needs => by
          have own : system.store.tables[table.id]? = some table := by
            rw [coherent.store.distinct.keyed id table known]
            exact known
          rw [← Store.counts_of_table own]
          exact room another id row table insert known needs
      refine ⟨repeated ++ [⟨event.operation, (system.perform event.operation).1⟩],
        (system.perform event.operation).2, ?_, ?_, ?_⟩
      · rw [← List.append_assoc]
        exact .step event.operation run plain follows.coherent.store.countable
      · rw [follows.answered]
        exact List.rel_append repeats (.cons again .nil)
      · rw [follows.store_bare]
        exact after

end System

/-! ### Between two transactions -/

namespace Bare

structure Idle (bare : Bare) : Prop where
  undrafted : bare.drafts = ∅
  unlocked : ∀ transaction page, bare.locks.modeOf transaction page = none

variable {bare after : Bare} {ledger : Ledger} {ground : Ground}
variable {transaction : TransactionId} {drafts : Drafts}

theorem Idle.alone (idle : bare.Idle) (transaction : TransactionId) :
    bare.Alone bare.ground transaction ∅ :=
  ⟨rfl, rfl, idle.undrafted, fun other page _ => idle.unlocked other page, fun _ _ => rfl⟩

theorem Alone.idle (alone : bare.Alone ground transaction drafts) (keeps : bare.Keeps ledger)
    (owned : bare.own transaction = bare.drafts) (commits : Bool) :
    (bare.complete commits transaction).Idle := by
  constructor
  · apply Std.ExtTreeMap.ext_getElem?
    intro page
    rw [drafts_complete keeps.consistent, Std.ExtTreeMap.getElem?_empty]
    split
    · rfl
    · next unheld =>
        rw [Option.eq_none_iff_forall_ne_some]
        intro draft drafted
        apply keeps.foreign_draft drafted unheld
        rw [← owned] at drafted
        exact (own_eq_some_iff.mp drafted).2
  · intro other page
    rw [modeOf_complete keeps.consistent]
    by_cases own : other = transaction
    · rw [if_pos own]
    · rw [if_neg own]
      exact alone.unrivalled other page own

theorem own_own (changed : after.drafts = bare.own transaction) :
    after.own transaction = bare.own transaction := by
  apply Std.ExtTreeMap.ext_getElem?
  intro page
  rw [own_lookup, changed]
  cases drafted : (bare.own transaction)[page]? with
  | none => rfl
  | some draft =>
      rw [Option.filter_some, if_pos]
      exact decide_eq_true (own_eq_some_iff.mp drafted).2

end Bare

theorem Bare.Tracks.stored_eq {bare other : Bare} (tracks : bare.Tracks other.ground) :
    other.stored = bare.stored := by
  funext record
  have pages : other.written record.page = bare.written record.page ∨
      (other.ground.Missing record.page ∧ bare.Blank record.page) := tracks.pages record.page
  rw [Bare.stored, Bare.stored]
  rcases pages with same | ⟨missing, table, -, blank⟩
  · rw [same]
  · have absent : other.written record.page = .error (.refused (.missingPage record.page)) :=
      missing
    rw [absent, blank]
    simp only [List.getElem?_replicate]
    split <;> rfl

theorem Event.Repeats.map_operation {events repeated : List Event}
    (repeats : List.Forall₂ Event.Repeats events repeated) :
    repeated.map Event.operation = events.map Event.operation := by
  induction repeats with
  | nil => rfl
  | cons first rest ih => rw [List.map_cons, List.map_cons, first.1, ih]

namespace System

structure Serialized (other : System) (bare : Bare) (schedule : Schedule) (events : List Event)
    (rerun : System) : Prop where
  run : Run Operation.Plain other events rerun
  repeats : List.Forall₂ Event.Repeats schedule.serial events
  idle : rerun.store.bare.Idle
  serializes : bare.Serializes schedule.unfinished rerun.store.bare.ground

namespace Serialized

variable {other rerun : System} {bare after : Bare} {schedule : Schedule} {events : List Event}
variable {ledger : Ledger}

theorem advance {event : Event} (serialized : other.Serialized bare schedule events rerun)
    (serial : (schedule.record event).serial = schedule.serial)
    (serializes : after.Serializes (schedule.record event).unfinished rerun.store.bare.ground) :
    other.Serialized after (schedule.record event) events rerun :=
  ⟨serialized.run, serial ▸ serialized.repeats, serialized.idle, serializes⟩

theorem commit (serialized : other.Serialized bare schedule events rerun)
    (keeps : bare.Keeps ledger) (fresh : other.Fresh) (whole : other.store.bare.Whole)
    (transaction : TransactionId) :
    ∃ events rerun, other.Serialized (bare.complete true transaction)
      (schedule.record ⟨.commit transaction, .written (.ok ())⟩) events rerun := by
  -- its operations can be repeated alone, on the files as they are now
  obtain ⟨repeated, middle, run, repeats, alone⟩ := serialized.run.rerun
    (serialized.serializes.replays transaction) fresh whole (serialized.idle.alone transaction)
  have keepsToo := run.ordinary.keeps fresh
  have follows := (run.coherent fresh.coherent).perform (.commit transaction)
    fun another id row table insert => by cases insert
  have bareIs : (middle.perform (.commit transaction)).2.store.bare =
      middle.store.bare.complete true transaction := follows.store_bare
  have owned : middle.store.bare.own transaction = bare.own transaction :=
    Bare.own_own alone.changed
  refine ⟨_, _, .step (.commit transaction) run trivial follows.coherent.store.countable,
    ?_, ?_, ?_⟩
  · have ended : Event.Repeats ⟨.commit transaction, .written (.ok ())⟩
        ⟨.commit transaction, (middle.perform (.commit transaction)).1⟩ :=
      ⟨rfl, .inl follows.answered⟩
    rw [List.append_assoc]
    exact List.rel_append serialized.repeats (List.rel_append repeats (.cons ended .nil))
  · rw [bareIs]
    exact alone.idle keepsToo (owned.trans alone.changed.symm) true
  · rw [bareIs]
    refine serialized.serializes.commit keeps ?_ ?_ fun page => ?_
    · exact (middle.store.bare.tables_complete true transaction).trans alone.tables
    · exact (middle.store.bare.capacity_complete true transaction).trans alone.capacity
    · refine (keepsToo.written_commit_own transaction page).trans ?_
      rw [owned]
      cases drafted : (bare.own transaction)[page]? with
      | some draft => rfl
      | none => exact alone.written page drafted

theorem start {start : System} (fresh : start.Fresh) (otherFresh : other.Fresh)
    (tracks : start.store.bare.Tracks other.store.bare.ground) :
    other.Serialized start.store.bare (Schedule.of []) [] other := by
  refine ⟨.start, .nil, ⟨?_, otherFresh.modeOf_eq_none⟩, tracks, ?_⟩
  · apply Std.ExtTreeMap.ext_getElem?
    intro page
    rw [otherFresh.undrafted, Std.ExtTreeMap.getElem?_empty]
  · intro transaction
    have nothing : start.store.bare.own transaction = ∅ := by
      apply Std.ExtTreeMap.ext_getElem?
      intro page
      rw [Bare.own_lookup, fresh.undrafted, Std.ExtTreeMap.getElem?_empty]
      rfl
    rw [nothing]
    exact .nil

/-- Every operation keeps the committed transactions repeatable. -/
theorem perform {system : System}
    (serialized : other.Serialized system.store.bare schedule events rerun)
    (coherent : system.Coherent) (keeps : system.store.bare.Keeps ledger) (fresh : other.Fresh)
    (whole : other.store.bare.Whole) {operation : Operation} (plain : operation.Plain)
    (countable : (system.perform operation).2.store.Countable) :
    ∃ events rerun, other.Serialized (system.perform operation).2.store.bare
      (schedule.record ⟨operation, (system.perform operation).1⟩) events rerun := by
  have serializes := serialized.serializes
  have follows := coherent.perform_of_countable operation countable
  have bareIs := follows.store_bare
  rw [follows.answered, bareIs]
  cases operation with
  | begin =>
      obtain ⟨⟨tables, capacity, pages⟩, replays⟩ := serializes
      exact ⟨events, rerun, serialized.advance rfl ⟨⟨tables, capacity, pages⟩, replays⟩⟩
  | get transaction page access =>
      refine ⟨events, rerun, serialized.advance ?_ (serializes.get keeps transaction page access)⟩
      simp only [BareSystem.perform, BareSystem.after, Schedule.record]
      cases (system.bare.bare.getPage transaction page access).1 <;> rfl
  | insert transaction id row =>
      have small : (system.bare.bare.insert transaction id row).2.counts id < UInt32.size := by
        have counted := countable.counts_lt id
        rw [show (system.perform (.insert transaction id row)).2.store.counts = _ from
          congrArg Bare.counts bareIs] at counted
        exact counted
      refine ⟨events, rerun, serialized.advance ?_ (serializes.insert keeps
        (coherent.store.distinct.keyed id) (fun table known usable => ?_) small)⟩
      · simp only [BareSystem.perform, BareSystem.after, Schedule.record]
        cases (system.bare.bare.insert transaction id row).1 <;> rfl
      · obtain ⟨failure, absent, missing⟩ := coherent.store.written_nextPage known
        rw [missing usable] at absent
        exact absent
  | delete transaction record =>
      refine ⟨events, rerun, serialized.advance ?_ (serializes.delete keeps transaction record)⟩
      simp only [BareSystem.perform, BareSystem.after, Schedule.record]
      cases (system.bare.bare.delete transaction record).1 <;> rfl
  | evict => exact ⟨events, rerun, serialized.advance rfl serializes⟩
  | commit transaction => exact serialized.commit keeps fresh whole transaction
  | abort transaction =>
      exact ⟨events, rerun, serialized.advance rfl (serializes.abort keeps transaction)⟩
  | scan name transaction id => exact plain.elim
  | next name => exact plain.elim
  | rewind name => exact plain.elim
  | release transaction page => exact plain.elim
  | discard page => exact plain.elim
  | flush transaction => exact plain.elim
  | flushAll => exact plain.elim

end Serialized

variable {start system other : System} {history : List Event}

/-- In every state of a run the committed transactions can be run again one after another. -/
theorem Run.serialized (run : Run Operation.Plain start history system) (fresh : start.Fresh)
    (otherFresh : other.Fresh) (whole : other.store.bare.Whole)
    (tracks : start.store.bare.Tracks other.store.bare.ground) :
    ∃ events rerun, other.Serialized system.store.bare (Schedule.of history) events rerun := by
  induction run with
  | start => exact ⟨[], other, .start fresh otherFresh tracks⟩
  | step operation earlier plain countable ih =>
      obtain ⟨events, rerun, serialized⟩ := ih
      rw [Schedule.of_append]
      exact serialized.perform (earlier.coherent fresh.coherent) (earlier.ordinary.keeps fresh)
        otherFresh whole plain countable

/-- Running the committed transactions one after another in commit order on the same files gives
every successful operation the same answer, and ends in the same stored records. -/
theorem committed_in_order (fresh : start.Fresh) (decodes : start.store.Decodes)
    (run : Run Operation.Plain start history system) (otherFresh : other.Fresh)
    (directory : other.store.directory = start.store.directory)
    (tables : other.store.tables = start.store.tables)
    (capacity : other.store.capacity = start.store.capacity) :
    List.Forall₂ Event.Repeats (Schedule.of history).serial
        (other.performAll ((Schedule.of history).serial.map Event.operation)).1 ∧
      (other.performAll ((Schedule.of history).serial.map Event.operation)).2.store.stored =
        system.store.stored := by
  have whole : other.store.bare.Whole := by
    rw [Store.whole_bare_iff]
    unfold Store.Decodes
    rw [directory, tables]
    exact decodes
  have written : other.store.written = start.store.written := by
    funext page
    rw [Store.written, Store.written, Store.table?, Store.table?, tables, directory]
  have tracks : start.store.bare.Tracks other.store.bare.ground :=
    ⟨tables, capacity, fun page => .inl (congrFun written page)⟩
  obtain ⟨events, rerun, serialized⟩ := run.serialized fresh otherFresh whole tracks
  have same := Event.Repeats.map_operation serialized.repeats
  have coherent := run.coherent fresh.coherent
  have coherentToo := serialized.run.coherent otherFresh.coherent
  rw [← same, serialized.run.performAll_eq]
  refine ⟨serialized.repeats, ?_⟩
  rw [← coherent.store.stored_bare, ← coherentToo.store.stored_bare]
  exact serialized.serializes.tracks.stored_eq

/-- One transaction gets an empty page that a failed insert of another has appended. In the serial
run there is no such page, and the answers are the same. -/
theorem committed_in_order_small :
    ∃ history system, small.Fresh ∧ small.store.Decodes ∧
      Run Operation.Plain small history system ∧
      (Schedule.of history).serial.map Event.operation =
        [.get ⟨3⟩ (numbers.page 1) .readOnly, .commit ⟨3⟩,
          .insert ⟨1⟩ ⟨7⟩ ⟨numbers.schema, [.int 5], none, rfl⟩, .commit ⟨1⟩] ∧
      List.Forall₂ Event.Repeats (Schedule.of history).serial
        (small.performAll ((Schedule.of history).serial.map Event.operation)).1 ∧
      (small.performAll ((Schedule.of history).serial.map Event.operation)).2.store.stored =
        system.store.stored ∧
      system.store.stored ⟨numbers.page 0, 0⟩ = some [.int 5] := by
  have run := Run.step (.insert ⟨2⟩ ⟨7⟩ ⟨numbers.schema, [.int 6], none, rfl⟩)
    (.start : Run Operation.Plain small [] small) trivial
    (Store.countable_single rfl (by decide +kernel))
  have run := Run.step (.get ⟨3⟩ (numbers.page 1) .readOnly) run trivial
    (Store.countable_single rfl (by decide +kernel))
  have run := Run.step (.abort ⟨2⟩) run trivial
    (Store.countable_single rfl (by decide +kernel))
  have run := Run.step (.insert ⟨1⟩ ⟨7⟩ ⟨numbers.schema, [.int 5], none, rfl⟩) run trivial
    (Store.countable_single rfl (by decide +kernel))
  have run := Run.step (.insert ⟨1⟩ ⟨7⟩ ⟨numbers.schema, [.int 7], none, rfl⟩) run trivial
    (Store.countable_single rfl (by decide +kernel))
  have run := Run.step (.get ⟨3⟩ (numbers.page 1) .readOnly) run trivial
    (Store.countable_single rfl (by decide +kernel))
  have run := Run.step (.commit ⟨3⟩) run trivial
    (Store.countable_single rfl (by decide +kernel))
  have run := Run.step (.commit ⟨1⟩) run trivial
    (Store.countable_single rfl (by decide +kernel))
  obtain ⟨repeated, stored⟩ :=
    committed_in_order small_fresh small_decodes run small_fresh rfl rfl rfl
  exact ⟨_, _, small_fresh, small_decodes, run, rfl, repeated, stored, rfl⟩

end System

end RecordStore
