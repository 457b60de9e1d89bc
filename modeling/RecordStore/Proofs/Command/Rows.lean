import RecordStore.Proofs.Command.Listing
import RecordStore.Proofs.Store.Names

set_option autoImplicit false

/-! The commands `insert` and `delete` are atomic. Each runs in one transaction on a store without
other locks, which is aborted on any failure, so that the files keep their records. -/

namespace RecordStore.Command

/-! ### Rows inserted one after another -/

structure Insertion where
  text : String
  row : Row
  record : RecordId

namespace Insertion

def line (insertion : Insertion) : String :=
  "inserted " ++ insertion.text ++ " at " ++ recordText insertion.record

def seen (insertion : Insertion) : SeenRow := (some insertion.record, insertion.row.values)

end Insertion

structure Adds (schema : Schema) (id : TableId) (before after : Records)
    (placed : List Insertion) : Prop where
  read : ∀ insertion ∈ placed, RowText.read schema insertion.text = .ok insertion.row
  own : ∀ insertion ∈ placed, insertion.record.page.table = id
  vacant : ∀ insertion ∈ placed, before insertion.record = none
  apart : (placed.map Insertion.record).Nodup
  becomes : ∀ record values, after record = some values ↔
    before record = some values ∨ (some record, values) ∈ placed.map Insertion.seen

namespace Adds

variable {schema : Schema} {id : TableId} {before after : Records} {placed : List Insertion}
  {insertion : Insertion}

theorem nil (schema : Schema) (id : TableId) (before : Records) :
    Adds schema id before before [] :=
  ⟨nofun, nofun, nofun, .nil, fun _ _ => ⟨.inl, fun either => either.resolve_right nofun⟩⟩

theorem snoc (adds : Adds schema id before after placed)
    (read : RowText.read schema insertion.text = .ok insertion.row)
    (own : insertion.record.page.table = id) (vacant : after insertion.record = none) :
    Adds schema id before ((Change.insert insertion.record insertion.row.values).apply after)
      (placed ++ [insertion]) := by
  have nothing : before insertion.record = none ∧
      ∀ values, (some insertion.record, values) ∉ placed.map Insertion.seen := by
    constructor
    · cases present : before insertion.record with
      | none => rfl
      | some values =>
          rw [(adds.becomes _ _).mpr (.inl present)] at vacant
          cases vacant
    · intro values member
      rw [(adds.becomes _ _).mpr (.inr member)] at vacant
      cases vacant
  have fresh : insertion.record ∉ placed.map Insertion.record := by
    intro member
    obtain ⟨earlier, among, same⟩ := List.mem_map.mp member
    refine nothing.2 earlier.row.values (List.mem_map.mpr ⟨earlier, among, ?_⟩)
    rw [Insertion.seen, same]
  refine ⟨?_, ?_, ?_, ?_, ?_⟩
  · exact List.forall_mem_append.mpr ⟨adds.read, List.forall_mem_singleton.mpr read⟩
  · exact List.forall_mem_append.mpr ⟨adds.own, List.forall_mem_singleton.mpr own⟩
  · exact List.forall_mem_append.mpr ⟨adds.vacant, List.forall_mem_singleton.mpr nothing.1⟩
  · rw [List.map_append, List.nodup_append]
    refine ⟨adds.apart, List.nodup_singleton _, ?_⟩
    rintro record earlier _ last rfl
    rw [List.map_singleton, List.mem_singleton] at last
    exact fresh (last ▸ earlier)
  · intro record values
    rw [List.map_append, List.mem_append, List.map_singleton, List.mem_singleton]
    change (if record = insertion.record then some insertion.row.values else after record) = _ ↔ _
    split
    · next same =>
        rw [same, nothing.1, Insertion.seen, Prod.mk.injEq, Option.some.injEq]
        constructor
        · rintro ⟨⟩
          exact .inr (.inr ⟨rfl, rfl⟩)
        · rintro (absent | earlier | ⟨-, rfl⟩)
          · cases absent
          · exact absurd earlier (nothing.2 values)
          · rfl
    · next different =>
        rw [adds.becomes, Insertion.seen, Prod.mk.injEq, Option.some.injEq]
        constructor
        · rintro (present | earlier)
          · exact .inl present
          · exact .inr (.inl earlier)
        · rintro (present | earlier | ⟨same, -⟩)
          · exact .inl present
          · exact .inr earlier
          · exact absurd same different

theorem nodup_seen (adds : Adds schema id before after placed) :
    (placed.map Insertion.seen).Nodup := by
  refine List.Nodup.of_map (fun seen => seen.1) ?_
  rw [List.map_map]
  change (placed.map fun insertion => some insertion.record).Nodup
  have once := adds.apart.map (f := some) fun _ _ => Option.some.inj
  rwa [List.map_map] at once

end Adds

theorem stored_of_read {columns : Nat} {text : String} {row : Row}
    (read : RowText.read (intColumns columns) text = .ok row) : row.stored = row.values := by
  have schema : row.schema = intColumns columns := by
    unfold RowText.read at read
    split at read
    · cases read
    · split at read
      · split at read
        · cases read
        · next made =>
            cases read
            exact (Row.of_make made).1
      · cases read
  exact Row.stored_of_integral (schema ▸ integral_intColumns columns)

/-! ### A transaction alone -/

structure Working (store : Store) (table : Table) (transaction : TransactionId) (before : Records)
    (ledger : Ledger) : Prop where
  coherent : store.Coherent
  tables : store.tables = (∅ : Std.ExtTreeMap TableId Table).insert table.id table
  keeps : store.bare.Keeps ledger
  unrivalled : store.bare.Unrivalled transaction
  committed : ledger.committed = before

structure Holds (store : Store) (table : Table) (records : Records) : Prop where
  coherent : store.Coherent
  rest : store.bare.AtRest
  tables : store.tables = (∅ : Std.ExtTreeMap TableId Table).insert table.id table
  stored : store.bare.stored = records

namespace Working

variable {store after : Store} {table : Table} {transaction : TransactionId} {before : Records}
  {ledger : Ledger}

theorem known (working : Working store table transaction before ledger) :
    store.tables[table.id]? = some table := by
  rw [working.tables]
  exact Std.ExtTreeMap.getElem?_insert_self

theorem missing (working : Working store table transaction before ledger) (found : Table)
    (known : store.bare.tables[table.id]? = some found) :
    ∃ failure, store.bare.written (store.bare.nextPage found) = .error failure := by
  obtain ⟨failure, absent, -⟩ := working.coherent.written_nextPage known
  exact ⟨failure, absent⟩

theorem start (held : Holds store table before) :
    Working store.begin.2 table store.begin.1 before ⟨before, fun _ => []⟩ := by
  have begun : store.begin.2.bare.AtRest :=
    ⟨held.rest.consistent, held.rest.unlocked, held.rest.undrafted⟩
  have keeps := begun.keeps
  rw [show store.begin.2.bare.stored = before from held.stored] at keeps
  have coherent := held.coherent
  exact ⟨⟨coherent.distinct, coherent.countable, coherent.faithful, coherent.bounded⟩, held.tables,
    keeps, fun other page _ => held.rest.unlocked other page, rfl⟩

theorem ended (working : Working store table transaction before ledger) (commits : Bool) :
    ∃ after, store.complete commits transaction = (.ok (), after) ∧
      Holds after table (if commits then ledger.view transaction else before) := by
  obtain ⟨after, completed, coherent, rest, tables, stored⟩ :=
    working.coherent.complete_alone working.keeps working.unrivalled commits
  refine ⟨after, completed, coherent, rest, tables.trans working.tables, stored.trans ?_⟩
  rw [← working.committed]
  rfl

theorem aborted (working : Working store table transaction before ledger) :
    Holds (store.abort transaction).2 table before := by
  obtain ⟨after, done, holds⟩ := working.ended false
  rw [Store.abort, done]
  exact holds

theorem insert {row found : Row} {outcome : Except Failure RecordId}
    (working : Working store table transaction before ledger)
    (done : store.insert transaction table.id row = (outcome, found, after))
    (small : table.pages.wholePages after.directory < UInt32.size) :
    Working after table transaction before
      (ledger.record ⟨.insert transaction table.id row, .placed outcome⟩) := by
  obtain ⟨coherent, tables, bare⟩ := working.coherent.insert_single working.tables done small
  have keeps := @Bare.Keeps.insert _ _ transaction working.keeps table.id row working.missing
  have strengthens := store.bare.insert_strengthens transaction table.id row
  rw [bare] at keeps strengthens
  refine ⟨coherent, tables.trans working.tables, keeps, fun other page different =>
    (strengthens.others other page different).trans (working.unrivalled other page different), ?_⟩
  cases outcome <;> exact working.committed

theorem getPage (working : Working store table transaction before ledger) (page : PageId)
    (access : Access) :
    Working (store.getPage transaction page access).2 table transaction before ledger := by
  have fetches := working.coherent.getPage transaction page access
  have locks := store.bare.getPage_locks transaction page access
  rw [← fetches.bareIs] at locks
  exact ⟨fetches.coherent, locks.tables_eq.trans working.tables, working.keeps.lockMore locks,
    working.unrivalled.lockMore locks, working.committed⟩

theorem delete (working : Working store table transaction before ledger)
    (record : Option RecordId) :
    Working (store.delete transaction record).2 table transaction before
      (ledger.record
        ⟨.delete transaction record, .deleted (store.delete transaction record).1⟩) := by
  have agrees := working.coherent.delete transaction record
  have keeps := @Bare.Keeps.delete _ _ transaction working.keeps record
  have strengthens := store.bare.delete_strengthens transaction record
  rw [← agrees.bareIs, ← agrees.answered] at keeps
  rw [← agrees.bareIs] at strengthens
  refine ⟨agrees.coherent, (store.files_delete transaction record).tablesAre.trans working.tables,
    keeps, fun other page different =>
      (strengthens.others other page different).trans (working.unrivalled other page different), ?_⟩
  rcases (store.delete transaction record).1 with failure | nothing <;> cases record <;>
    exact working.committed

end Working

/-! ### Rows inserted by a transaction -/

structure Inserting (store : Store) (table : Table) (transaction : TransactionId)
    (before : Records) (ledger : Ledger) (placed : List Insertion) : Prop extends
    Working store table transaction before ledger where
  adds : Adds table.schema table.id before (ledger.view transaction) placed

namespace Inserting

variable {store after : Store} {table : Table} {transaction : TransactionId} {before : Records}
  {ledger : Ledger} {placed : List Insertion} {columns : Nat}

theorem start (held : Holds store table before) :
    Inserting store.begin.2 table store.begin.1 before ⟨before, fun _ => []⟩ [] :=
  ⟨.start held, .nil _ _ _⟩

theorem insert (inserting : Inserting store table transaction before ledger placed) {text : String}
    {row found : Row} {record : RecordId} (schema : table.schema = intColumns columns)
    (read : RowText.read table.schema text = .ok row)
    (inserted : store.insert transaction table.id row = (.ok record, found, after))
    (small : table.pages.wholePages after.directory < UInt32.size) :
    Inserting after table transaction before
      (ledger.note transaction (.insert record row.stored)) (placed ++ [⟨text, row, record⟩]) := by
  obtain ⟨-, -, bare⟩ := inserting.coherent.insert_single inserting.tables inserted small
  obtain ⟨vacant, other, known, owned⟩ := inserting.keeps.insert_vacant inserting.missing bare
  obtain rfl : other = table := Option.some.inj (known.symm.trans inserting.known)
  refine ⟨inserting.toWorking.insert inserted small, ?_⟩
  rw [Ledger.view_note_same, stored_of_read (schema ▸ read)]
  exact @Adds.snoc _ _ _ _ _ ⟨text, row, record⟩ inserting.adds read owned vacant

end Inserting

/-! ### All rows of a command -/

theorem endingOf_ne_success (failure : Failure) : endingOf failure ≠ .success := by
  cases failure <;> nofun

variable {store : Store} {table : Table} {transaction : TransactionId} {before : Records}
  {ledger : Ledger} {placed : List Insertion} {columns : Nat}

theorem extends_insertRows (table : Table) (transaction : TransactionId) (texts : List String)
    (store : Store) : (insertRows table transaction texts store).2.2.Extends store := by
  induction texts generalizing store with
  | nil => exact .refl _
  | cons text texts ih =>
      unfold insertRows
      split
      · exact .refl _
      · next row read =>
          have first := store.names_insert transaction table.id row
          split
          · next failed =>
              rw [failed] at first
              exact first
          · next inserted =>
              rw [inserted] at first
              exact (ih _).trans first

/-- `insertRows` puts in the rows up to the first that is refused, and prints a line for each. -/
theorem Inserting.rows (inserting : Inserting store table transaction before ledger placed)
    (schema : table.schema = intColumns columns) (texts : List String)
    (small : table.pages.wholePages (insertRows table transaction texts store).2.2.directory <
      UInt32.size) :
    ∃ ledger more, Inserting (insertRows table transaction texts store).2.2 table transaction before
        ledger (placed ++ more) ∧
      (insertRows table transaction texts store).1 = more.map Insertion.line ∧
      ((insertRows table transaction texts store).2.1 = .success →
        more.map Insertion.text = texts) := by
  induction texts generalizing store ledger placed with
  | nil => exact ⟨ledger, [], by rwa [List.append_nil], rfl, fun _ => rfl⟩
  | cons text texts ih =>
      have longer (middle : Store) :=
        (extends_insertRows table transaction texts middle).wholePages_le table.pages
      unfold insertRows at small ⊢
      cases read : RowText.read table.schema text with
      | error fault =>
          exact ⟨ledger, [], by rwa [List.append_nil], rfl, nofun⟩
      | ok row =>
          rw [read] at small
          dsimp only at small ⊢
          rcases inserted : store.insert transaction table.id row with
            ⟨failure | record, found, after⟩
          · rw [inserted] at small
            have failed : Inserting after table transaction before ledger placed :=
              ⟨inserting.toWorking.insert inserted small, inserting.adds⟩
            exact ⟨ledger, [], by rwa [List.append_nil], rfl,
              fun success => absurd success (endingOf_ne_success failure)⟩
          · rw [inserted] at small
            have stored := inserting.insert schema read inserted
              (Nat.lt_of_le_of_lt (longer after) small)
            obtain ⟨final, more, booked, lines, whole⟩ := ih stored small
            refine ⟨final, ⟨text, row, record⟩ :: more, ?_, ?_, ?_⟩
            · rwa [List.append_assoc] at booked
            · dsimp only
              rw [lines]
              rfl
            · intro success
              rw [List.map_cons, whole success]

section InsertAll

variable {texts lines : List String} {ending : Ending} {start middle : Store}

theorem insertAll_committed (begun : store.begin = (transaction, start))
    (put : insertRows table transaction texts start = (lines, .success, middle)) :
    insertAll table texts store =
      match middle.commit transaction with
      | (.ok (), after) => (lines, .success, after)
      | (.error error, after) =>
          (lines, .failed ("Failed to commit inserts" :: error.trail), after) := by
  rw [insertAll, begun]
  dsimp only
  rewrite [put]
  rfl

theorem insertAll_aborted (begun : store.begin = (transaction, start))
    (put : insertRows table transaction texts start = (lines, ending, middle))
    (failed : ending ≠ .success) :
    insertAll table texts store = (lines, ending, (middle.abort transaction).2) := by
  rw [insertAll, begun]
  dsimp only
  rw [put]
  cases ending with
  | success => exact absurd rfl failed
  | _ => rfl

theorem extends_insertAll (begun : store.begin = (transaction, start)) :
    (insertAll table texts store).2.2.Extends
      (insertRows table transaction texts start).2.2 := by
  rcases put : insertRows table transaction texts start with ⟨lines, ending, middle⟩
  by_cases success : ending = .success
  · subst success
    have committed := middle.names_complete true transaction
    rw [insertAll_committed begun put]
    split
    · next done => rwa [show middle.complete true transaction = _ from done] at committed
    · next done => rwa [show middle.complete true transaction = _ from done] at committed
  · rw [insertAll_aborted begun put success]
    exact middle.names_complete false transaction

/-- `insertAll` either puts in every row at a place of its own or leaves the records as they were.
-/
theorem insertAll_holds (held : Holds store table before)
    (schema : table.schema = intColumns columns) (texts : List String)
    (small : table.pages.wholePages (insertAll table texts store).2.2.directory < UInt32.size) :
    ((insertAll table texts store).2.1 = .success →
      ∃ after placed, Holds (insertAll table texts store).2.2 table after ∧
        Adds table.schema table.id before after placed ∧ placed.map Insertion.text = texts ∧
        (insertAll table texts store).1 = placed.map Insertion.line) ∧
    ((insertAll table texts store).2.1 ≠ .success →
      Holds (insertAll table texts store).2.2 table before) := by
  have inserting := Inserting.start held
  rcases begun : store.begin with ⟨transaction, start⟩
  rw [begun] at inserting
  obtain ⟨ledger, placed, inserting, lines, whole⟩ := inserting.rows schema texts
    (Nat.lt_of_le_of_lt ((extends_insertAll begun).wholePages_le table.pages) small)
  rw [List.nil_append] at inserting
  rcases put : insertRows table transaction texts start with ⟨printed, ending, middle⟩
  rw [put] at inserting lines whole
  obtain ⟨after, committed, holds⟩ := inserting.ended true
  by_cases success : ending = .success
  · subst success
    rw [insertAll_committed begun put, Store.commit, committed]
    exact ⟨fun _ => ⟨_, placed, holds, inserting.adds, whole rfl, lines⟩,
      fun failed => absurd rfl failed⟩
  · rw [insertAll_aborted begun put success]
    exact ⟨fun succeeded => absurd succeeded success, fun _ => inserting.aborted⟩

end InsertAll

/-! ### Deleting a row -/

theorem extends_deleteAt (table : Table) (number : UInt32) (slot : Nat) (store : Store) :
    (deleteAt table number slot store).2.2.Extends store := by
  have ended (store : Store) (commits : Bool) := store.names_complete commits
  rcases begun : store.begin with ⟨transaction, start⟩
  have same : start.directory = store.directory := (congrArg (·.2.directory) begun).symm
  have got := (start.files_getPage transaction (table.page number) .readWrite).toExtends
  rw [Store.Extends, same] at got
  rw [deleteAt, begun]
  dsimp only
  rcases fetched : start.getPage transaction (table.page number) .readWrite with
    ⟨failure | cached, middle⟩
  · rw [fetched] at got
    exact (ended middle false transaction).trans got
  · rw [fetched] at got
    dsimp only
    cases cached.page.row? slot with
    | none => exact (ended middle false transaction).trans got
    | some row =>
        have removed := (middle.files_delete transaction row.place).toExtends.trans got
        dsimp only
        rcases deleted : middle.delete transaction row.place with ⟨failure | nothing, changed⟩ <;>
          rw [deleted] at removed
        · exact (ended changed false transaction).trans removed
        · have committed := (ended changed true transaction).trans removed
          dsimp only
          rw [Store.commit]
          rcases done : changed.complete true transaction with ⟨error | nothing, after⟩ <;>
            rwa [done] at committed

/-- `deleteAt` either removes the record of the slot or leaves the records as they were. -/
theorem deleteAt_holds (held : Holds store table before) (number : UInt32) (slot : Nat) :
    ((deleteAt table number slot store).2.1 = .success →
      (deleteAt table number slot store).1 =
        ["deleted " ++ recordText ⟨table.page number, slot⟩] ∧
      ∃ values, before ⟨table.page number, slot⟩ = some values ∧
        Holds (deleteAt table number slot store).2.2 table
          ((Change.delete ⟨table.page number, slot⟩).apply before)) ∧
    ((deleteAt table number slot store).2.1 ≠ .success →
      Holds (deleteAt table number slot store).2.2 table before) := by
  have working := Working.start held
  rcases begun : store.begin with ⟨transaction, start⟩
  rw [begun] at working
  have fetches := working.coherent.getPage transaction (table.page number) .readWrite
  have got := working.getPage (table.page number) .readWrite
  rw [deleteAt, begun]
  dsimp only
  rcases fetched : start.getPage transaction (table.page number) .readWrite with
    ⟨failure | cached, middle⟩
  · rw [fetched] at got
    exact ⟨fun success => absurd success (endingOf_ne_success failure), fun _ => got.aborted⟩
  · rw [fetched] at got fetches
    dsimp only
    cases present : cached.page.row? slot with
    | none => exact ⟨nofun, fun _ => got.aborted⟩
    | some row =>
        obtain ⟨owner, -, faithful⟩ :=
          fetches.coherent.faithful _ cached (fetches.present cached rfl)
        have place : row.place = some ⟨table.page number, slot⟩ := by
          rw [(faithful.sound.fitting slot row present).2, faithful.idIs]
        have removed := got.delete (some ⟨table.page number, slot⟩)
        have agrees := got.coherent.delete transaction (some ⟨table.page number, slot⟩)
        dsimp only
        rw [place]
        rcases done : middle.delete transaction (some ⟨table.page number, slot⟩) with
          ⟨failure | nothing, changed⟩
        · rw [done] at removed
          exact ⟨fun success => absurd success (endingOf_ne_success failure),
            fun _ => removed.aborted⟩
        · rw [done] at removed agrees
          have bare : middle.bare.delete transaction (some ⟨table.page number, slot⟩) =
              (.ok (), changed.bare) := Prod.ext agrees.answered.symm agrees.bareIs.symm
          obtain ⟨values, there⟩ := got.keeps.delete_present bare
          obtain ⟨after, committed, holds⟩ := removed.ended true
          dsimp only
          rw [Store.commit, committed]
          refine ⟨fun _ => ⟨rfl, values, there, ?_⟩, fun failed => absurd rfl failed⟩
          rw [if_pos rfl] at holds
          have noted : ((⟨before, fun _ => []⟩ : Ledger).note transaction
              (.delete ⟨table.page number, slot⟩)).view transaction =
              (Change.delete ⟨table.page number, slot⟩).apply before := Ledger.view_note_same _ _ _
          exact noted ▸ holds

/-! ### Listings before and after -/

namespace Holds

variable {after : Store} {records : Records}

theorem opened {directory : Directory} (capacity : Nat)
    (countable : table.pages.wholePages directory < UInt32.size) :
    Holds (Store.opened directory capacity .standard (fun _ _ => 0) table) table
      (Store.opened directory capacity .standard (fun _ _ => 0) table).bare.stored :=
  ⟨Store.coherent_opened countable, Store.atRest_opened countable, rfl, rfl⟩

theorem known (held : Holds store table before) : store.tables[table.id]? = some table := by
  rw [held.tables]
  exact Std.ExtTreeMap.getElem?_insert_self

theorem countable (held : Holds store table before) :
    table.pages.wholePages store.directory < UInt32.size :=
  held.coherent.countable _ _ held.known

theorem counts_le (held : Holds store table before) :
    store.bare.counts table.id ≤ UInt32.size :=
  Nat.le_of_lt (held.coherent.countable.counts_lt table.id)

theorem listed_eq (held : Holds store table before) :
    store.listed table = listedIn table store.directory :=
  Store.listed_congr (Holds.opened 0 held.countable).rest held.rest held.tables rfl

theorem listedIn_eq (held : Holds store table before) (later : Holds after table before) :
    listedIn table after.directory = listedIn table store.directory := by
  rw [← held.listed_eq, ← later.listed_eq]
  exact held.rest.listing_eq later.rest (held.coherent.inside held.known)
    (later.coherent.inside later.known) held.counts_le later.counts_le
    (later.stored.trans held.stored.symm)

theorem perm_of_becomes (held : Holds store table before) (later : Holds after table records)
    {rows : List SeenRow} (once : rows.Nodup)
    (own : ∀ row ∈ rows, ∃ record, row.1 = some record ∧ record.page.table = table.id ∧
      before record = none)
    (becomes : ∀ record values, records record = some values ↔
      before record = some values ∨ (some record, values) ∈ rows) :
    (listedIn table after.directory).Perm (listedIn table store.directory ++ rows) := by
  rw [← held.listed_eq, ← later.listed_eq]
  refine Store.listed_perm held.coherent held.rest held.known later.coherent later.rest later.known
    once ?_ ?_
  · rw [held.stored]
    exact own
  · rw [held.stored, later.stored]
    exact becomes

theorem perm_of_adds (held : Holds store table before) (later : Holds after table records)
    (adds : Adds table.schema table.id before records placed) :
    (listedIn table after.directory).Perm
      (listedIn table store.directory ++ placed.map Insertion.seen) := by
  refine held.perm_of_becomes later adds.nodup_seen ?_ adds.becomes
  intro row member
  obtain ⟨insertion, among, rfl⟩ := List.mem_map.mp member
  exact ⟨_, rfl, adds.own insertion among, adds.vacant insertion among⟩

theorem perm_of_delete {record : RecordId} {values : List Value} (held : Holds store table before)
    (later : Holds after table ((Change.delete record).apply before))
    (own : record.page.table = table.id) (there : before record = some values) :
    (listedIn table store.directory).Perm
      (listedIn table after.directory ++ [(some record, values)]) := by
  refine later.perm_of_becomes held (List.nodup_singleton _) ?_ ?_
  · intro row member
    rw [List.mem_singleton] at member
    exact ⟨record, by rw [member], own, if_pos rfl⟩
  · intro other found
    rw [List.mem_singleton, Prod.mk.injEq, Option.some.injEq]
    change _ ↔ (if other = record then none else before other) = _ ∨ _
    split
    · next same =>
        rw [same, there, Option.some.injEq]
        exact ⟨fun equal => .inr ⟨rfl, equal.symm⟩, fun either => by
          rcases either with absent | ⟨-, rfl⟩
          · cases absent
          · rfl⟩
    · next different =>
        exact ⟨.inl, fun either => either.resolve_right fun both => different both.1⟩

end Holds

/-- Every scan of the file with room for a page prints these rows, in the order of their record ids.
-/
structure Lists (arguments : Arguments) (path : String) (directory : Directory)
    (rows : List SeenRow) : Prop where
  ordered : rows.Pairwise Bare.Before
  printed : ∀ pool asJson, 0 < pool → (arguments.scanning pool asJson).LaidOut →
    ((arguments.scanning pool asJson).run path directory).lines = rows.map (seenLine asJson) ∧
      ((arguments.scanning pool asJson).run path directory).ending = .success

/-- Scans with room for a page print the same for both directories. -/
def ListsAlike (arguments : Arguments) (path : String) (before after : Directory) : Prop :=
  ∀ pool asJson, 0 < pool →
    ((arguments.scanning pool asJson).run path after).lines =
        ((arguments.scanning pool asJson).run path before).lines ∧
      ((arguments.scanning pool asJson).run path after).ending =
        ((arguments.scanning pool asJson).run path before).ending

section Whole

variable {arguments : Arguments} {path canonical : String} {directory : Directory} {file : FileId}
  (there : directory.open? path = .ok (file, canonical))

include there

theorem run_insert (laidOut : arguments.LaidOut) {texts : List String}
    (task : arguments.task = .insert texts) :
    arguments.run path directory =
      ⟨(insertAll (arguments.tableOf file canonical) texts
          (arguments.opened file canonical directory)).1,
        (insertAll (arguments.tableOf file canonical) texts
          (arguments.opened file canonical directory)).2.1,
        (insertAll (arguments.tableOf file canonical) texts
          (arguments.opened file canonical directory)).2.2.directory⟩ := by
  rw [Arguments.run_eq there laidOut (by rw [task]; exact nofun), task]
  rfl

theorem run_delete (laidOut : arguments.LaidOut) {number : UInt32} {slot : Nat}
    (task : arguments.task = .delete number slot) :
    arguments.run path directory =
      ⟨(deleteAt (arguments.tableOf file canonical) number slot
          (arguments.opened file canonical directory)).1,
        (deleteAt (arguments.tableOf file canonical) number slot
          (arguments.opened file canonical directory)).2.1,
        (deleteAt (arguments.tableOf file canonical) number slot
          (arguments.opened file canonical directory)).2.2.directory⟩ := by
  rw [Arguments.run_eq there laidOut (by rw [task]; exact nofun), task]
  rfl

variable (positive : 0 < arguments.pageSize) (small : 8 * arguments.pageSize < wordLimit)

include positive small

theorem lists_listedIn
    (countable : (arguments.tableOf file canonical).pages.wholePages directory < UInt32.size) :
    Lists arguments path directory (listedIn (arguments.tableOf file canonical) directory) :=
  ⟨Bare.listing_ordered _ _ (Holds.opened 0 countable).counts_le, fun _ _ roomy laidOut =>
    scan_run there positive small countable laidOut roomy⟩

theorem listsAlike_of_listedIn {after : Directory} (same : after.SameNames directory)
    (countable : (arguments.tableOf file canonical).pages.wholePages directory < UInt32.size)
    (finite : (arguments.tableOf file canonical).pages.wholePages after < UInt32.size)
    (alike : listedIn (arguments.tableOf file canonical) after =
      listedIn (arguments.tableOf file canonical) directory) :
    ListsAlike arguments path directory after := by
  intro pool asJson roomy
  by_cases laidOut : (arguments.scanning pool asJson).LaidOut
  · obtain ⟨lines, ending⟩ := scan_run there positive small countable laidOut roomy
    obtain ⟨again, success⟩ := scan_run ((same.open?_eq path).trans there) positive small finite
      laidOut roomy
    rw [lines, ending, again, success, alike]
    exact ⟨rfl, rfl⟩
  · obtain ⟨fault, crashed⟩ := Arguments.run_crashed laidOut
    rw [crashed, crashed]
    exact ⟨rfl, rfl⟩

/-- A successful `insert` adds exactly the rows that it prints, and a successful `delete` removes
exactly the record that it names. After a failed one every scan prints what it printed before. -/
theorem changes_all_or_nothing
    (stays : (arguments.tableOf file canonical).pages.wholePages
      (arguments.run path directory).directory < UInt32.size) :
    (∀ texts, arguments.task = .insert texts →
      ((arguments.run path directory).ending = .success →
        ∃ (former later : List SeenRow) (placed : List Insertion),
          Lists arguments path directory former ∧
          Lists arguments path (arguments.run path directory).directory later ∧
          later.Perm (former ++ placed.map Insertion.seen) ∧
          placed.map Insertion.text = texts ∧
          (∀ insertion ∈ placed,
            RowText.read (intColumns arguments.columns) insertion.text = .ok insertion.row) ∧
          (arguments.run path directory).lines = placed.map Insertion.line) ∧
      ((arguments.run path directory).ending ≠ .success →
        ListsAlike arguments path directory (arguments.run path directory).directory)) ∧
    ∀ number slot, arguments.task = .delete number slot →
      ((arguments.run path directory).ending = .success →
        ∃ (former later : List SeenRow) (values : List Value),
          Lists arguments path directory former ∧
          Lists arguments path (arguments.run path directory).directory later ∧
          former.Perm (later ++
            [(some ⟨(arguments.tableOf file canonical).page number, slot⟩, values)])) ∧
      ((arguments.run path directory).ending ≠ .success →
        ListsAlike arguments path directory (arguments.run path directory).directory) := by
  by_cases laidOut : arguments.LaidOut
  · constructor
    · intro texts task
      have longer : (insertAll (arguments.tableOf file canonical) texts
          (arguments.opened file canonical directory)).2.2.directory.Extends directory :=
        (extends_insertAll rfl).trans (extends_insertRows _ _ texts _)
      rw [run_insert there laidOut task] at stays ⊢
      have countable := Nat.lt_of_le_of_lt (longer.wholePages_le _) stays
      have held := Holds.opened arguments.poolPages countable
      obtain ⟨succeeds, fails⟩ := insertAll_holds held rfl texts stays
      have after := (longer.toSameNames.open?_eq path).trans there
      constructor
      · intro success
        obtain ⟨records, placed, later, adds, whole, lines⟩ := succeeds success
        exact ⟨_, _, placed, lists_listedIn there positive small countable,
          lists_listedIn after positive small stays, held.perm_of_adds later adds, whole, adds.read,
          lines⟩
      · intro failed
        exact listsAlike_of_listedIn there positive small longer.toSameNames countable stays
          (held.listedIn_eq (fails failed))
    · intro number slot task
      have longer : (deleteAt (arguments.tableOf file canonical) number slot
          (arguments.opened file canonical directory)).2.2.directory.Extends directory :=
        extends_deleteAt _ number slot _
      rw [run_delete there laidOut task] at stays ⊢
      have countable := Nat.lt_of_le_of_lt (longer.wholePages_le _) stays
      have held := Holds.opened arguments.poolPages countable
      obtain ⟨succeeds, fails⟩ := deleteAt_holds held number slot
      have after := (longer.toSameNames.open?_eq path).trans there
      constructor
      · intro success
        obtain ⟨-, values, present, later⟩ := succeeds success
        exact ⟨_, _, values, lists_listedIn there positive small countable,
          lists_listedIn after positive small stays, held.perm_of_delete later rfl present⟩
      · intro failed
        exact listsAlike_of_listedIn there positive small longer.toSameNames countable stays
          (held.listedIn_eq (fails failed))
  · obtain ⟨fault, crashed⟩ := Arguments.run_crashed laidOut
    rw [crashed]
    exact ⟨fun _ _ => ⟨nofun, fun _ _ _ _ => ⟨rfl, rfl⟩⟩,
      fun _ _ _ => ⟨nofun, fun _ _ _ _ => ⟨rfl, rfl⟩⟩⟩

end Whole

/-- A folder with a file of eight zeros, which is one page with room for one number. -/
def smallFolder : Directory :=
  ((Directory.empty "/d" []).add "t" (.ofList (List.replicate 8 0))).2

def smallInsert (texts : List String) : Arguments := ⟨8, 2, "t", 1, .insert texts⟩

def smallDelete (slot : Nat) : Arguments := ⟨8, 2, "t", 1, .delete 0 slot⟩

def stockedFolder : Directory := ((smallInsert ["5"]).run "t" smallFolder).directory

/-- Two numbers take two pages, and if the second is none then the first is taken back. A number
that is there can be deleted; deleting a slot that the page has not got fails. -/
theorem changes_all_or_nothing_small :
    (∃ (former later : List SeenRow) (placed : List Insertion),
      Lists (smallInsert ["5", " 6"]) "t" smallFolder former ∧
      Lists (smallInsert ["5", " 6"]) "t" ((smallInsert ["5", " 6"]).run "t" smallFolder).directory
        later ∧
      later.Perm (former ++ placed.map Insertion.seen) ∧
      placed.map Insertion.text = ["5", " 6"] ∧
      (∀ insertion ∈ placed, RowText.read (intColumns 1) insertion.text = .ok insertion.row) ∧
      ((smallInsert ["5", " 6"]).run "t" smallFolder).lines = placed.map Insertion.line) ∧
    ((smallInsert ["5", "x"]).run "t" smallFolder).lines.length = 1 ∧
    ListsAlike (smallInsert ["5", "x"]) "t" smallFolder
      ((smallInsert ["5", "x"]).run "t" smallFolder).directory ∧
    (∃ (former later : List SeenRow) (values : List Value),
      Lists (smallDelete 0) "t" stockedFolder former ∧
      Lists (smallDelete 0) "t" ((smallDelete 0).run "t" stockedFolder).directory later ∧
      former.Perm (later ++
        [(some ⟨((smallDelete 0).tableOf 0 "/d/t").page 0, 0⟩, values)])) ∧
    ((smallDelete 1).run "t" stockedFolder).ending ≠ .success ∧
    ListsAlike (smallDelete 1) "t" stockedFolder
      ((smallDelete 1).run "t" stockedFolder).directory := by
  have there : smallFolder.open? "t" = .ok (0, "/d/t") := by decide +kernel
  have stocked : stockedFolder.open? "t" = .ok (0, "/d/t") := by decide +kernel
  obtain ⟨inserts, -⟩ := @changes_all_or_nothing (smallInsert ["5", " 6"]) "t" "/d/t" smallFolder 0
    there (by decide) (by decide) (by decide +kernel)
  obtain ⟨fails, -⟩ := @changes_all_or_nothing (smallInsert ["5", "x"]) "t" "/d/t" smallFolder 0
    there (by decide) (by decide) (by decide +kernel)
  obtain ⟨-, deletes⟩ := @changes_all_or_nothing (smallDelete 0) "t" "/d/t" stockedFolder 0
    stocked (by decide) (by decide) (by decide +kernel)
  obtain ⟨-, spares⟩ := @changes_all_or_nothing (smallDelete 1) "t" "/d/t" stockedFolder 0
    stocked (by decide) (by decide) (by decide +kernel)
  have refused : ((smallDelete 1).run "t" stockedFolder).ending ≠ .success := by decide +kernel
  exact ⟨(inserts _ rfl).1 (by decide +kernel), by decide +kernel,
    (fails _ rfl).2 (by decide +kernel), (deletes 0 0 rfl).1 (by decide +kernel), refused,
    (spares 0 1 rfl).2 refused⟩

end RecordStore.Command
