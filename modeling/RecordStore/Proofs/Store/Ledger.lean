import RecordStore.Proofs.Store.Run

set_option autoImplicit false

/-! The ledger of a run: the committed records, and the pending changes of each open transaction.
The files show the committed records, and drafts show the view of their transactions. -/

namespace RecordStore

/-- For each record that there is, its values as they are stored. -/
abbrev Records := RecordId → Option (List Value)

inductive Change where
  | insert (record : RecordId) (values : List Value)
  | delete (record : RecordId)

namespace Change

def record : Change → RecordId
  | .insert record _ => record
  | .delete record => record

def values : Change → Option (List Value)
  | .insert _ values => some values
  | .delete _ => none

def apply (records : Records) (change : Change) : Records :=
  fun other => if other = change.record then change.values else records other

end Change

def Records.after (records : Records) (changes : List Change) : Records :=
  changes.foldl Change.apply records

structure Ledger where
  committed : Records
  pending : TransactionId → List Change

namespace Ledger

/-- The committed records with the changes of the transaction. -/
def view (ledger : Ledger) (transaction : TransactionId) : Records :=
  ledger.committed.after (ledger.pending transaction)

def note (ledger : Ledger) (transaction : TransactionId) (change : Change) : Ledger :=
  { ledger with
    pending := fun other =>
      if other = transaction then ledger.pending other ++ [change] else ledger.pending other }

/-- The changes of the transaction are committed or forgotten. -/
def settle (ledger : Ledger) (commits : Bool) (transaction : TransactionId) : Ledger :=
  ⟨if commits then ledger.view transaction else ledger.committed,
    fun other => if other = transaction then [] else ledger.pending other⟩

def record (ledger : Ledger) : Event → Ledger
  | ⟨.insert transaction _ row, .placed (.ok record)⟩ =>
      ledger.note transaction (.insert record row.stored)
  | ⟨.delete transaction (some record), .deleted (.ok ())⟩ =>
      ledger.note transaction (.delete record)
  | ⟨.commit transaction, _⟩ => ledger.settle true transaction
  | ⟨.abort transaction, _⟩ => ledger.settle false transaction
  | _ => ledger

def after (records : Records) (history : List Event) : Ledger :=
  history.foldl record ⟨records, fun _ => []⟩

theorem after_append (records : Records) (history : List Event) (event : Event) :
    after records (history ++ [event]) = (after records history).record event := by
  rw [after, after, List.foldl_append]
  rfl

end Ledger

/-! ### Changes of one record -/

namespace Records

theorem after_congr {first second : Records} {record : RecordId}
    (same : first record = second record) (changes : List Change) :
    first.after changes record = second.after changes record := by
  induction changes generalizing first second with
  | nil => exact same
  | cons change changes ih =>
      refine @ih (change.apply first) (change.apply second) ?_
      simp only [Change.apply, same]

theorem after_untouched {records : Records} {record : RecordId} {changes : List Change}
    (untouched : ∀ change, change ∈ changes → change.record ≠ record) :
    records.after changes record = records record := by
  induction changes generalizing records with
  | nil => rfl
  | cons change changes ih =>
      refine (@ih (change.apply records) fun later member =>
        untouched later (List.mem_cons_of_mem change member)).trans ?_
      exact if_neg fun same => untouched change List.mem_cons_self same.symm

theorem after_append (records : Records) (changes : List Change) (change : Change) :
    records.after (changes ++ [change]) = change.apply (records.after changes) := by
  rw [after, after, List.foldl_append]
  rfl

end Records

namespace Ledger

variable (ledger : Ledger) (transaction other : TransactionId) (change : Change)

theorem view_note_same :
    (ledger.note transaction change).view transaction =
      change.apply (ledger.view transaction) := by
  rw [view, note]
  simp only [if_pos, Records.after_append]
  rfl

theorem view_note_other (different : other ≠ transaction) :
    (ledger.note transaction change).view other = ledger.view other := by
  rw [view, note]
  simp only [if_neg different]
  rfl

theorem view_note_elsewhere {record : RecordId} (elsewhere : record ≠ change.record) :
    (ledger.note transaction change).view other record = ledger.view other record := by
  by_cases own : other = transaction
  · rw [own, view_note_same, Change.apply, if_neg elsewhere]
  · rw [view_note_other _ _ _ _ own]

end Ledger

/-! ### A store and its ledger -/

namespace Bare

def stored (bare : Bare) : Records := fun record =>
  match bare.written record.page with
  | .ok slots => slots[record.slot]?.join
  | .error _ => none

structure Drafted (bare : Bare) (ledger : Ledger) (page : PageId) (draft : Draft) : Prop where
  exclusive : bare.locks.modeOf draft.transaction page = some .exclusive
  readable : ∃ slots, bare.written page = .ok slots
  shows : ∀ slot : Nat, draft.slots[slot]?.join = ledger.view draft.transaction ⟨page, slot⟩

structure Keeps (bare : Bare) (ledger : Ledger) : Prop where
  consistent : bare.locks.table.Consistent
  stored : bare.stored = ledger.committed
  drafted : ∀ (page : PageId) (draft : Draft), bare.drafts[page]? = some draft →
    bare.Drafted ledger page draft
  pending : ∀ transaction change, change ∈ ledger.pending transaction →
    ∃ draft, bare.drafts[change.record.page]? = some draft ∧ draft.transaction = transaction

namespace Keeps

variable {bare after : Bare} {ledger : Ledger} {transaction : TransactionId} {page : PageId}

/-- A page that is no draft of the transaction shows it the committed records. -/
theorem view_of_no_draft (keeps : bare.Keeps ledger)
    (none : ∀ draft, bare.drafts[page]? = some draft → draft.transaction ≠ transaction)
    (slot : Nat) : ledger.view transaction ⟨page, slot⟩ = ledger.committed ⟨page, slot⟩ := by
  apply Records.after_untouched
  intro change member same
  obtain ⟨draft, drafted, own⟩ := keeps.pending transaction change member
  rw [same] at drafted
  exact none draft drafted own

/-- A draft locked by a transaction is its own. -/
theorem own_draft (keeps : bare.Keeps ledger) {draft : Draft}
    (drafted : bare.drafts[page]? = some draft)
    (held : (bare.locks.modeOf transaction page).isSome) : draft.transaction = transaction :=
  (LockTable.alone_of_exclusive (keeps.drafted page draft drafted).exclusive held).symm

/-- A transaction is shown its view of the pages that it holds. -/
theorem fetch_shows (keeps : bare.Keeps ledger) {slots : Slots}
    (held : (bare.locks.modeOf transaction page).isSome)
    (fetched : bare.fetch page = .ok slots) (slot : Nat) :
    slots[slot]?.join = ledger.view transaction ⟨page, slot⟩ := by
  unfold Bare.fetch at fetched
  cases drafted : bare.drafts[page]? with
  | some draft =>
      simp only [drafted, Except.ok.injEq] at fetched
      rw [← fetched, ← keeps.own_draft drafted held]
      exact (keeps.drafted page draft drafted).shows slot
  | none =>
      simp only [drafted] at fetched
      split at fetched
      · cases fetched
      · split at fetched
        · cases fetched
        · rw [keeps.view_of_no_draft (fun draft absent => by rw [drafted] at absent; cases absent),
            ← keeps.stored, Bare.stored]
          simp only [fetched]

theorem lockMore (keeps : bare.Keeps ledger) (locks : LocksMore transaction bare after) :
    after.Keeps ledger := by
  refine ⟨locks.strengthens.consistent keeps.consistent, ?_, ?_, ?_⟩
  · rw [← keeps.stored]
    funext record
    simp only [Bare.stored, locks.written_eq]
  · intro page draft drafted
    rw [locks.drafts_eq] at drafted
    obtain ⟨exclusive, present, shows⟩ := keeps.drafted page draft drafted
    refine ⟨?_, ?_, shows⟩
    · by_cases own : draft.transaction = transaction
      · rw [own] at exclusive ⊢
        exact locks.strengthens.exclusive page exclusive
      · rw [locks.strengthens.others _ page own]
        exact exclusive
    · rw [locks.written_eq]
      exact present
  · rw [locks.drafts_eq]
    exact keeps.pending

/-- Appending a page that cannot be read yet keeps the ledger. -/
theorem grow (keeps : bare.Keeps ledger) {table : Table} {failure : Failure}
    (fresh : bare.written (bare.nextPage table) = .error failure) :
    (bare.grow table).Keeps ledger := by
  refine ⟨keeps.consistent, ?_, ?_, keeps.pending⟩
  · rw [← keeps.stored]
    funext record
    simp only [Bare.stored, Bare.grow, Bare.write]
    by_cases here : record.page = bare.nextPage table
    · rw [if_pos here, here, fresh]
      simp only [List.getElem?_replicate]
      split <;> rfl
    · rw [if_neg here]
  · intro page draft drafted
    obtain ⟨exclusive, ⟨slots, present⟩, shows⟩ := keeps.drafted page draft drafted
    refine ⟨exclusive, ?_, shows⟩
    simp only [Bare.grow, Bare.write]
    by_cases here : page = bare.nextPage table
    · exact ⟨_, if_pos here⟩
    · exact ⟨slots, (if_neg here).trans present⟩

theorem noted_shows (keeps : bare.Keeps ledger)
    (held : (bare.locks.modeOf transaction page).isSome) {former slots : Slots}
    (fetched : bare.fetch page = .ok former) {change : Change} (here : change.record.page = page)
    (becomes : ∀ slot : Nat, slots[slot]?.join =
      if slot = change.record.slot then change.values else former[slot]?.join) (slot : Nat) :
    slots[slot]?.join = (ledger.note transaction change).view transaction ⟨page, slot⟩ := by
  rw [becomes, Ledger.view_note_same, Change.apply, keeps.fetch_shows held fetched]
  by_cases this : slot = change.record.slot
  · rw [if_pos this, if_pos]
    rw [this, ← here]
  · rw [if_neg this, if_neg]
    intro same
    exact this (congrArg RecordId.slot same)

theorem noted_pending (keeps : bare.Keeps ledger)
    (held : (bare.locks.modeOf transaction page).isSome) (slots : Slots) {change : Change}
    (here : change.record.page = page) (other : TransactionId) (noted : Change)
    (member : noted ∈ (ledger.note transaction change).pending other) :
    ∃ draft, (bare.change transaction page slots).drafts[noted.record.page]? = some draft ∧
      draft.transaction = other := by
  simp only [Ledger.note] at member
  simp only [Bare.change, lookup_insert]
  split at member
  · next own =>
      rw [List.mem_append, List.mem_singleton] at member
      by_cases same : page = noted.record.page
      · exact ⟨_, if_pos same, own.symm⟩
      · rw [if_neg same]
        rcases member with before | new
        · exact keeps.pending other noted before
        · rw [new] at same
          exact absurd here.symm same
  · next different =>
      obtain ⟨draft, drafted, own⟩ := keeps.pending other noted member
      by_cases same : page = noted.record.page
      · rw [← same] at drafted
        exact absurd (own.symm.trans (keeps.own_draft drafted held)) different
      · exact ⟨draft, (if_neg same).trans drafted, own⟩

theorem change (keeps : bare.Keeps ledger)
    (exclusive : bare.locks.modeOf transaction page = some .exclusive) {former slots : Slots}
    (readable : ∃ slots, bare.written page = .ok slots)
    (fetched : bare.fetch page = .ok former) {change : Change} (here : change.record.page = page)
    (becomes : ∀ slot : Nat, slots[slot]?.join =
      if slot = change.record.slot then change.values else former[slot]?.join) :
    (bare.change transaction page slots).Keeps (ledger.note transaction change) := by
  have held : (bare.locks.modeOf transaction page).isSome := by
    rw [exclusive]
    rfl
  refine ⟨keeps.consistent, keeps.stored, ?_, keeps.noted_pending held slots here⟩
  intro other draft drafted
  simp only [Bare.change, lookup_insert] at drafted
  split at drafted
  · next same =>
      cases drafted
      subst same
      exact ⟨exclusive, readable, keeps.noted_shows held fetched here becomes⟩
  · next different =>
      obtain ⟨others, present, shows⟩ := keeps.drafted other draft drafted
      refine ⟨others, present, ?_⟩
      intro slot
      rw [shows, Ledger.view_note_elsewhere]
      intro same
      apply different
      rw [← here, ← same]

/-- A draft not locked by a transaction belongs to another. -/
theorem foreign_draft (keeps : bare.Keeps ledger) {draft : Draft}
    (drafted : bare.drafts[page]? = some draft)
    (unheld : ¬ (bare.locks.modeOf transaction page).isSome) : draft.transaction ≠ transaction := by
  intro own
  have exclusive := (keeps.drafted page draft drafted).exclusive
  rw [own] at exclusive
  rw [exclusive] at unheld
  exact unheld rfl

/-- Pending changes of two transactions are on different pages. -/
theorem pending_apart (keeps : bare.Keeps ledger) {other : TransactionId} {change another : Change}
    (own : change ∈ ledger.pending transaction) (foreign : another ∈ ledger.pending other)
    (different : other ≠ transaction) : another.record.page ≠ change.record.page := by
  intro same
  obtain ⟨draft, drafted, drafter⟩ := keeps.pending transaction change own
  obtain ⟨again, present, owner⟩ := keeps.pending other another foreign
  rw [same, drafted] at present
  cases present
  exact different (owner.symm.trans drafter)

/-- A commit makes the transaction's view the stored records; an abort leaves them. -/
theorem stored_complete (keeps : bare.Keeps ledger) (commits : Bool)
    (transaction : TransactionId) :
    (bare.complete commits transaction).stored = (ledger.settle commits transaction).committed := by
  cases commits with
  | false =>
      refine Eq.trans ?_ keeps.stored
      funext record
      simp only [Bare.stored, written_abort]
  | true =>
      funext record
      change _ = ledger.view transaction record
      simp only [Bare.stored, written_commit keeps.consistent]
      cases drafted : bare.drafts[record.page]? with
      | none =>
          refine (congrFun keeps.stored record).trans
            (keeps.view_of_no_draft (fun draft absent => ?_) record.slot).symm
          rw [drafted] at absent
          cases absent
      | some draft =>
          by_cases held : (bare.locks.modeOf transaction record.page).isSome
          · simp only [if_pos held]
            rw [← keeps.own_draft drafted held]
            exact (keeps.drafted _ draft drafted).shows record.slot
          · simp only [if_neg held]
            have foreign := keeps.foreign_draft drafted held
            refine (congrFun keeps.stored record).trans
              (keeps.view_of_no_draft (fun other same => ?_) record.slot).symm
            rw [drafted] at same
            cases same
            exact foreign

theorem complete (keeps : bare.Keeps ledger) (commits : Bool) (transaction : TransactionId) :
    (bare.complete commits transaction).Keeps (ledger.settle commits transaction) := by
  have consistent := keeps.consistent
  refine ⟨consistent_complete consistent commits, keeps.stored_complete commits transaction, ?_, ?_⟩
  · intro page draft drafted
    rw [drafts_complete consistent] at drafted
    split at drafted
    · cases drafted
    · next unheld =>
        have foreign := keeps.foreign_draft drafted unheld
        obtain ⟨exclusive, ⟨slots, readable⟩, shows⟩ := keeps.drafted page draft drafted
        refine ⟨?_, ⟨slots, ?_⟩, ?_⟩
        · rw [modeOf_complete consistent, if_neg foreign]
          exact exclusive
        · cases commits with
          | false => rw [written_abort, readable]
          | true =>
              rw [written_commit consistent, drafted]
              simp only [if_neg unheld, readable]
        · intro slot
          rw [shows]
          have pending : (ledger.settle commits transaction).pending draft.transaction =
              ledger.pending draft.transaction := if_neg foreign
          rw [Ledger.view, Ledger.view, pending]
          refine Records.after_congr ?_ _
          cases commits with
          | false => rfl
          | true =>
              -- the page is locked by another transaction, so no committed change is on it
              refine (keeps.view_of_no_draft (fun other same => ?_) slot).symm
              rw [drafted] at same
              cases same
              exact foreign
  · intro other noted member
    simp only [Ledger.settle] at member
    split at member
    · cases member
    · next different =>
        obtain ⟨draft, drafted, own⟩ := keeps.pending other noted member
        refine ⟨draft, ?_, own⟩
        rw [drafts_complete consistent, if_neg]
        · exact drafted
        · intro held
          exact different (own.symm.trans (keeps.own_draft drafted held))

theorem readable_of_fetch (keeps : bare.Keeps ledger) {slots : Slots}
    (fetched : bare.fetch page = .ok slots) : ∃ slots, bare.written page = .ok slots := by
  unfold Bare.fetch at fetched
  cases drafted : bare.drafts[page]? with
  | some draft => exact (keeps.drafted page draft drafted).readable
  | none =>
      simp only [drafted] at fetched
      split at fetched
      · cases fetched
      · split at fetched
        · cases fetched
        · exact ⟨slots, fetched⟩

theorem join_set {slots : Slots} {slot : Nat} (inside : slot < slots.length)
    (entry : Option (List Value)) (other : Nat) :
    (slots.set slot entry)[other]?.join = if other = slot then entry else slots[other]?.join := by
  rw [List.getElem?_set]
  by_cases same : other = slot
  · rw [if_pos same, if_pos same.symm, if_pos inside]
    rfl
  · rw [if_neg same, if_neg fun equal => same equal.symm]

/-! ### One operation -/

theorem insert (keeps : bare.Keeps ledger) {id : TableId} {row : Row}
    (fresh : ∀ table, bare.tables[id]? = some table →
      ∃ failure, bare.written (bare.nextPage table) = .error failure) :
    (bare.insert transaction id row).2.Keeps
      (ledger.record ⟨.insert transaction id row,
        .placed (bare.insert transaction id row).1⟩) := by
  cases done : bare.insert transaction id row with
  | mk outcome after =>
      cases outcome with
      | error failure =>
          -- a failed insert may have left an empty page behind
          rcases insert_error done with locks | ⟨table, known, -, -, locks⟩
          · exact keeps.lockMore locks
          · obtain ⟨missing, absent⟩ := fresh table known
            exact (keeps.grow absent).lockMore locks
      | ok record =>
          obtain ⟨table, number, base, middle, slots, known, inserted, rfl⟩ := insert_ok done
          have baseKeeps : base.Keeps ledger := by
            rcases inserted.baseIs with ⟨rfl, -⟩ | ⟨rfl, -⟩
            · exact keeps
            · obtain ⟨missing, absent⟩ := fresh table known
              exact keeps.grow absent
          have middleKeeps := baseKeeps.lockMore inserted.roomy.locks
          have fetched : middle.fetch record.page = .ok slots := by
            rw [inserted.roomy.locks.fetch_eq]
            exact inserted.roomy.fetched
          obtain ⟨inside, -⟩ := Slots.free?_spec inserted.roomy.free
          exact middleKeeps.change inserted.roomy.exclusive (middleKeeps.readable_of_fetch fetched)
            fetched rfl (join_set inside _)

theorem insert_vacant (keeps : bare.Keeps ledger) {id : TableId} {row : Row} {record : RecordId}
    (fresh : ∀ table, bare.tables[id]? = some table →
      ∃ failure, bare.written (bare.nextPage table) = .error failure)
    (inserted : bare.insert transaction id row = (.ok record, after)) :
    ledger.view transaction record = none ∧
      ∃ table, bare.tables[id]? = some table ∧ record.page.table = table.id := by
  obtain ⟨table, number, base, middle, slots, known, placed, rfl⟩ := insert_ok inserted
  have baseKeeps : base.Keeps ledger := by
    rcases placed.baseIs with ⟨rfl, -⟩ | ⟨rfl, -⟩
    · exact keeps
    · obtain ⟨missing, absent⟩ := fresh table known
      exact keeps.grow absent
  have fetched : middle.fetch record.page = .ok slots := by
    rw [placed.roomy.locks.fetch_eq]
    exact placed.roomy.fetched
  have held : (middle.locks.modeOf transaction record.page).isSome := by
    rw [placed.roomy.exclusive]
    rfl
  have shows := (baseKeeps.lockMore placed.roomy.locks).fetch_shows held fetched record.slot
  obtain ⟨-, vacant⟩ := Slots.free?_spec placed.roomy.free
  exact ⟨shows.symm.trans vacant, table, known, by rw [placed.pageIs]; rfl⟩

/-- A record that is deleted was in the view of its transaction. -/
theorem delete_present (keeps : bare.Keeps ledger) {record : RecordId}
    (deleted : bare.delete transaction (some record) = (.ok (), after)) :
    ∃ values, ledger.view transaction record = some values := by
  obtain ⟨place, middle, slots, placeIs, -, locks, exclusive, fetched, taken, -⟩ :=
    delete_ok deleted
  obtain rfl := Option.some.inj placeIs
  obtain ⟨-, -, values, present⟩ := Slots.checkTaken_ok taken
  rw [← locks.fetch_eq] at fetched
  have held : (middle.locks.modeOf transaction record.page).isSome := by
    rw [exclusive]
    rfl
  exact ⟨values, ((keeps.lockMore locks).fetch_shows held fetched record.slot).symm.trans present⟩

theorem delete (keeps : bare.Keeps ledger) (record : Option RecordId) :
    (bare.delete transaction record).2.Keeps
      (ledger.record ⟨.delete transaction record,
        .deleted (bare.delete transaction record).1⟩) := by
  cases done : bare.delete transaction record with
  | mk outcome after =>
      cases outcome with
      | error failure =>
          have kept := keeps.lockMore (delete_error done)
          cases record <;> exact kept
      | ok nothing =>
          obtain ⟨place, middle, slots, rfl, -, locks, exclusive, fetched, checked, rfl⟩ :=
            delete_ok done
          have middleKeeps := keeps.lockMore locks
          rw [← locks.fetch_eq] at fetched
          obtain ⟨-, inside, -⟩ := Slots.checkTaken_ok checked
          exact middleKeeps.change exclusive (middleKeeps.readable_of_fetch fetched) fetched rfl
            (join_set inside _)

theorem perform {system : BareSystem} (keeps : system.bare.Keeps ledger) {operation : Operation}
    (ordinary : operation.Ordinary)
    (fresh : ∀ (id : TableId) (table : Table), system.bare.tables[id]? = some table →
      ∃ failure, system.bare.written (system.bare.nextPage table) = .error failure) :
    (system.perform operation).2.bare.Keeps
      (ledger.record ⟨operation, (system.perform operation).1⟩) := by
  cases operation with
  | begin =>
      refine ⟨keeps.consistent, keeps.stored, ?_, keeps.pending⟩
      intro page draft drafted
      have before := keeps.drafted page draft drafted
      exact ⟨before.exclusive, before.readable, before.shows⟩
  | get transaction page access =>
      exact keeps.lockMore (system.bare.getPage_locks transaction page access)
  | insert transaction id row => exact keeps.insert fun table known => fresh id table known
  | delete transaction record => exact keeps.delete record
  | scan name transaction id =>
      rw [BareSystem.bare_scan]
      exact keeps
  | next name =>
      obtain ⟨reader, locks⟩ := system.next_locks name
      exact keeps.lockMore locks
  | rewind name =>
      rw [BareSystem.bare_rewind]
      exact keeps
  | evict => exact keeps
  | commit transaction => exact keeps.complete true transaction
  | abort transaction => exact keeps.complete false transaction
  | release transaction page => exact ordinary.elim
  | discard page => exact ordinary.elim
  | flush transaction => exact ordinary.elim
  | flushAll => exact ordinary.elim

end Keeps

end Bare

/-! ### A run and its ledger -/

namespace Store

/-- The records found when every page is read from its file. -/
def stored (store : Store) : Records := fun record =>
  match store.tables[record.page.table]? with
  | none => none
  | some table =>
      match table.readPage store.directory record.page with
      | .ok page => (page.row? record.slot).map Row.values
      | .error _ => none

theorem Coherent.stored_bare {store : Store} (_ : store.Coherent) :
    store.bare.stored = store.stored := by
  funext record
  have stands : store.bare.written record.page = store.written record.page := rfl
  rw [Bare.stored, Store.stored, stands, written, table?]
  cases known : store.tables[record.page.table]? with
  | none => rfl
  | some table =>
      simp only [Table.written]
      cases read : table.readPage store.directory record.page with
      | error failure => rfl
      | ok page =>
          obtain ⟨-, -, loaded⟩ := Table.readPage_ok read
          simp only [Except.map, Page.contents_join]
          cases present : page.row? record.slot with
          | none => rfl
          | some row => exact congrArg some (loaded.exact record.slot row present).2

end Store

namespace System

variable {start system : System} {history : List Event}

theorem Fresh.keeps (fresh : start.Fresh) :
    start.store.bare.Keeps (Ledger.after start.store.stored []) := by
  refine ⟨fresh.consistent, fresh.coherent.store.stored_bare, ?_, ?_⟩
  · intro page draft drafted
    rw [fresh.undrafted] at drafted
    cases drafted
  · intro transaction change member
    cases member

theorem Coherent.written_next (coherent : system.Coherent) (id : TableId) (table : Table)
    (known : system.store.tables[id]? = some table) :
    ∃ failure, system.store.bare.written (system.store.bare.nextPage table) = .error failure := by
  obtain ⟨failure, absent, -⟩ := coherent.store.written_nextPage known
  exact ⟨failure, absent⟩

theorem Coherent.keeps_perform (coherent : system.Coherent) {ledger : Ledger}
    (keeps : system.store.bare.Keeps ledger) {operation : Operation}
    (ordinary : operation.Ordinary)
    (countable : (system.perform operation).2.store.Countable) :
    (system.perform operation).2.store.bare.Keeps
      (ledger.record ⟨operation, (system.perform operation).1⟩) := by
  have follows := coherent.perform_of_countable operation countable
  rw [follows.answered, follows.store_bare]
  exact @Bare.Keeps.perform _ system.bare keeps operation ordinary coherent.written_next

theorem Run.keeps (run : Run Operation.Ordinary start history system) (fresh : start.Fresh) :
    system.store.bare.Keeps (Ledger.after start.store.stored history) := by
  induction run with
  | start => exact fresh.keeps
  | step operation earlier ordinary countable ih =>
      rw [Ledger.after_append]
      exact (earlier.coherent fresh.coherent).keeps_perform ih ordinary countable

end System

end RecordStore
