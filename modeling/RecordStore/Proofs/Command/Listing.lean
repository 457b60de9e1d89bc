import RecordStore.Command.Run
import RecordStore.Proofs.Page.Reading
import RecordStore.Proofs.Store.AtRest

set_option autoImplicit false

/-! The output of `scan`. Tables of the commands have integer columns only, so every page decodes
and a scan with room for one page prints every record, in order. -/

namespace RecordStore

theorem Schema.types_ofTypes (types : List ColumnType) : (ofTypes types).types = types := by
  rw [Schema.types, ofTypes, List.map_map]
  exact List.map_id _

namespace Command

variable {store after : Store} {table : Table}

theorem integral_intColumns (columns : Nat) : (intColumns columns).Integral := by
  intro type member
  rw [intColumns, Schema.types_ofTypes] at member
  exact List.eq_of_mem_replicate member

/-! ### Lines -/

def rowOf (seen : SeenRow) : Row :=
  ⟨.ofTypes (seen.2.map Value.type), seen.2, seen.1, (Schema.types_ofTypes _).symm⟩

def seenLine (asJson : Bool) (seen : SeenRow) : String := rowLine asJson (rowOf seen)

theorem rowLine_eq {row : Row} (integral : row.schema.Integral) (asJson : Bool) :
    rowLine asJson row = seenLine asJson row.seen := by
  have values : (rowOf row.seen).values = row.values := Row.stored_of_integral integral
  rw [seenLine, rowLine, rowLine, RowText.write, RowText.write, Json.rowLine, Json.rowLine, values]
  rfl

theorem scanTable_eq (coherent : store.Coherent) (rest : store.bare.AtRest)
    (known : store.tables[table.id]? = some table) (positive : table.pageSize ≠ 0)
    (settled : store.bare.Settled table (store.listed table)) (integral : table.schema.Integral)
    (asJson : Bool) :
    ∃ after, scanTable table asJson store =
      ((store.listed table).map (seenLine asJson), .success, after) := by
  have begun : store.begin.2.Coherent :=
    ⟨coherent.distinct, coherent.countable, coherent.faithful, coherent.bounded⟩
  obtain ⟨rows, middle, scanned, listed⟩ := begun.scanned_of_settled known rest.consistent positive
    ⟨settled.unlocked, settled.undrafted, settled.listed, settled.readable, settled.roomy⟩
    store.begin.1
  obtain ⟨-, middleCoherent, -, -, typed, -⟩ := begun.scanned known scanned
  obtain ⟨scan, ended, started, rested⟩ := scanned
  obtain ⟨after, committed, -⟩ := middleCoherent.complete true store.begin.1
  have lines : rows.map (rowLine asJson) = (store.listed table).map (seenLine asJson) := by
    rw [show store.listed table = rows.map Row.seen from listed.symm, List.map_map]
    refine List.map_congr_left fun row member => rowLine_eq (fun type among => ?_) asJson
    rw [typed row member] at among
    exact integral type among
  refine ⟨after, ?_⟩
  rw [scanTable]
  simp only [started, rested, Store.commit, committed, lines]

/-- A store at rest with a capacity of at least one can be scanned, whatever bytes are in the file.
-/
theorem settled_of_integral (coherent : store.Coherent) (rest : store.bare.AtRest)
    (known : store.tables[table.id]? = some table) (usable : table.Usable)
    (integral : table.schema.Integral) (roomy : 0 < store.capacity) :
    store.bare.Settled table (store.listed table) := by
  have countable := coherent.countable _ _ known
  refine ⟨rest.unlocked, rest.undrafted, rfl, fun number below => ?_, fun _ => roomy⟩
  rw [show store.bare.counts table.id = _ from Store.counts_of_table known] at below
  obtain ⟨found, read⟩ := @Table.readPage_integral table store.directory
    (table.page (UInt32.ofNat number)) usable integral countable rfl (by
      change (UInt32.ofNat number).toNat < _
      rwa [UInt32.toNat_ofNat_of_lt' (Nat.lt_trans below countable)])
  refine ⟨found.contents, ?_⟩
  change store.written _ = _
  rw [Store.written_of_table known, Table.written, read]
  rfl

/-! ### A whole scan -/

def listedIn (table : Table) (directory : Directory) : List SeenRow :=
  (Store.opened directory 0 .standard (fun _ _ => 0) table).listed table

structure Arguments.LaidOut (arguments : Arguments) : Prop where
  pool : arguments.poolPages * 8 / 7 ≤ Store.largestLayout
  columns : arguments.columns ≤ longestBuffer

def Arguments.tableOf (arguments : Arguments) (file : FileId) (canonical : String) : Table :=
  .ofFile arguments.pageSize (intColumns arguments.columns) file canonical

def Arguments.opened (arguments : Arguments) (file : FileId) (canonical : String)
    (directory : Directory) : Store :=
  .opened directory arguments.poolPages .standard (fun _ _ => 0) (arguments.tableOf file canonical)

def Arguments.scanning (arguments : Arguments) (pool : Nat) (asJson : Bool) : Arguments :=
  { arguments with poolPages := pool, task := .scan asJson }

section Run

variable {arguments : Arguments} {path canonical : String} {directory : Directory} {file : FileId}

theorem Arguments.run_crashed (unbearable : ¬ arguments.LaidOut) :
    ∃ fault, ∀ path directory, arguments.run path directory = ⟨[], .crashed fault, directory⟩ := by
  by_cases pool : Store.largestLayout < arguments.poolPages * 8 / 7
  · refine ⟨.cacheOverflow, fun path directory => ?_⟩
    rw [Arguments.run, Store.open?, if_pos pool]
  · have columns : longestBuffer < arguments.columns :=
      Nat.lt_of_not_le fun fits => unbearable ⟨Nat.le_of_not_lt pool, fits⟩
    refine ⟨.capacityOverflow, fun path directory => ?_⟩
    rw [Arguments.run, Store.open?, if_neg pool]
    dsimp only
    rw [if_pos columns]

theorem Arguments.usable_tableOf (positive : 0 < arguments.pageSize)
    (small : 8 * arguments.pageSize < wordLimit) :
    (arguments.tableOf file canonical).Usable := by
  refine ⟨Nat.ne_of_gt positive, ?_⟩
  change arguments.pageSize ≤ longestBuffer
  unfold wordLimit at small
  unfold longestBuffer
  omega

variable (there : directory.open? path = .ok (file, canonical))

include there

theorem Arguments.run_eq (laidOut : arguments.LaidOut) (changes : arguments.task ≠ .create) :
    arguments.run path directory =
      ⟨(perform (arguments.tableOf file canonical) arguments.task
          (arguments.opened file canonical directory)).1,
        (perform (arguments.tableOf file canonical) arguments.task
          (arguments.opened file canonical directory)).2.1,
        (perform (arguments.tableOf file canonical) arguments.task
          (arguments.opened file canonical directory)).2.2.directory⟩ := by
  have table : Table.open? directory arguments.pageSize path (intColumns arguments.columns) =
      .ok (arguments.tableOf file canonical) := by
    rw [Table.open?, there]
    rfl
  rw [Arguments.run, Store.open?, if_neg (Nat.not_lt.mpr laidOut.pool)]
  dsimp only
  rw [if_neg (Nat.not_lt.mpr laidOut.columns), table]
  cases task : arguments.task with
  | create => exact absurd task changes
  | _ => rfl

/-- `scan` prints one line for each row of `listedIn`, in order. -/
theorem scan_run (positive : 0 < arguments.pageSize) (small : 8 * arguments.pageSize < wordLimit)
    (countable : (arguments.tableOf file canonical).pages.wholePages directory < UInt32.size)
    {pool : Nat} {asJson : Bool} (laidOut : (arguments.scanning pool asJson).LaidOut)
    (roomy : 0 < pool) :
    ((arguments.scanning pool asJson).run path directory).lines =
        (listedIn (arguments.tableOf file canonical) directory).map (seenLine asJson) ∧
      ((arguments.scanning pool asJson).run path directory).ending = .success := by
  have coherent : (Store.opened directory pool .standard (fun _ _ => 0)
      (arguments.tableOf file canonical)).Coherent := Store.coherent_opened countable
  have rest : (Store.opened directory pool .standard (fun _ _ => 0)
      (arguments.tableOf file canonical)).bare.AtRest := Store.atRest_opened countable
  have usable : (arguments.tableOf file canonical).Usable :=
    Arguments.usable_tableOf positive small
  have integral : (arguments.tableOf file canonical).schema.Integral :=
    integral_intColumns arguments.columns
  obtain ⟨after, scanned⟩ := scanTable_eq coherent rest Store.known_opened usable.positive
    (settled_of_integral coherent rest Store.known_opened usable integral roomy) integral asJson
  rw [Arguments.run_eq there laidOut nofun]
  change (scanTable (arguments.tableOf file canonical) asJson (Store.opened directory pool
    .standard (fun _ _ => 0) (arguments.tableOf file canonical))).1 = _ ∧
      (scanTable (arguments.tableOf file canonical) asJson (Store.opened directory pool
        .standard (fun _ _ => 0) (arguments.tableOf file canonical))).2.1 = _
  rw [scanned]
  exact ⟨rfl, rfl⟩

end Run

end Command

end RecordStore
