import RecordStore.Command.Arguments
import RecordStore.Command.RowText
import RecordStore.Command.Stress
import RecordStore.Json.Forms

set_option autoImplicit false

/-! Running a command on the files of a directory. A `Result` has the printed lines, an `Ending` and
the directory; lines printed before a failure are kept. A command that fails aborts its transaction.
-/

namespace RecordStore.Command

inductive Ending where
  | success
  | failed (trail : List String)
  | misused
  | crashed (fault : Fault)
  deriving DecidableEq, Inhabited, Repr

def Ending.code : Ending → Nat
  | .success => 0
  | .failed _ => 1
  | .misused => 2
  | .crashed _ => 101

def numberedCause (cause : Nat × String) : String :=
  "    " ++ toString cause.1 ++ ": " ++ cause.2

def report : List String → List String
  | [] => []
  | [error] => ["Error: " ++ error]
  | [error, cause] => ["Error: " ++ error, "", "Caused by:", "    " ++ cause]
  | error :: causes =>
      ["Error: " ++ error, "", "Caused by:"] ++
        ((List.range causes.length).zip causes).map numberedCause

def Ending.report : Ending → List String
  | .failed trail => Command.report trail
  | _ => []

structure Result where
  lines : List String
  ending : Ending
  directory : Directory

def endingOf : Failure → Ending
  | .refused error => .failed error.trail
  | .broken fault => .crashed fault

def intColumns (columns : Nat) : Schema := Schema.ofTypes (List.replicate columns .int)

def recordText (record : RecordId) : String :=
  record.page.text ++ " slot " ++ toString record.slot

def insertRows (table : Table) (transaction : TransactionId) :
    List String → Store → List String × Ending × Store
  | [], store => ([], .success, store)
  | text :: texts, store =>
      match RowText.read table.schema text with
      | .error fault => ([], .failed fault.trail, store)
      | .ok row =>
          match store.insert transaction table.id row with
          | (.error failure, _, store) => ([], endingOf failure, store)
          | (.ok record, _, store) =>
              let (lines, ending, store) := insertRows table transaction texts store
              (("inserted " ++ text ++ " at " ++ recordText record) :: lines, ending, store)

def insertAll (table : Table) (rows : List String) (store : Store) :
    List String × Ending × Store :=
  let (transaction, store) := store.begin
  match insertRows table transaction rows store with
  | (lines, .success, store) =>
      match store.commit transaction with
      | (.ok (), store) => (lines, .success, store)
      | (.error error, store) =>
          (lines, .failed ("Failed to commit inserts" :: error.trail), store)
  | (lines, ending, store) => (lines, ending, (store.abort transaction).2)

def deleteAt (table : Table) (number : UInt32) (slot : Nat) (store : Store) :
    List String × Ending × Store :=
  let (transaction, store) := store.begin
  let page := table.page number
  match store.getPage transaction page .readWrite with
  | (.error failure, store) => ([], endingOf failure, (store.abort transaction).2)
  | (.ok cached, store) =>
      match cached.page.row? slot with
      | none =>
          ([], .failed ["no record at " ++ recordText ⟨page, slot⟩],
            (store.abort transaction).2)
      | some row =>
          match store.delete transaction row.place with
          | (.error failure, store) => ([], endingOf failure, (store.abort transaction).2)
          | (.ok (), store) =>
              match store.commit transaction with
              | (.error error, store) =>
                  ([], .failed ("Failed to commit delete" :: error.trail), store)
              | (.ok (), store) => (["deleted " ++ recordText ⟨page, slot⟩], .success, store)

def rowLine (asJson : Bool) (row : Row) : String :=
  if asJson then Json.rowLine row
  else
    match row.place with
    | some place =>
        place.page.text ++ "[" ++ toString place.slot ++ "]\t" ++ RowText.write row
    | none => "-\t" ++ RowText.write row

def scanTable (table : Table) (asJson : Bool) (store : Store) : List String × Ending × Store :=
  let (transaction, store) := store.begin
  match Scan.start table transaction store with
  | .error fault => ([], .crashed fault, (store.abort transaction).2)
  | .ok scan =>
      match scan.rest store with
      | (rows, some failure, _, store) =>
          (rows.map (rowLine asJson), endingOf failure, (store.abort transaction).2)
      | (rows, none, _, store) =>
          match store.commit transaction with
          | (.ok (), store) => (rows.map (rowLine asJson), .success, store)
          | (.error error, store) => (rows.map (rowLine asJson), .failed error.trail, store)

def sixPlaces (number : Nat) : String :=
  let digits := toString number
  String.ofList (List.replicate (6 - digits.length) ' ') ++ digits

def usedSlots (page : Page) : Nat := page.slotCount - page.freeCount

def pageLines (table : Table) (directory : Directory) (first : Nat) :
    (length : Nat) → List String × Except Failure Nat
  | 0 => ([], .ok 0)
  | length + 1 =>
      match table.readPage directory (table.page (UInt32.ofNat first)) with
      | .error failure => ([], .error failure)
      | .ok page =>
          let (lines, total) := pageLines table directory (first + 1) length
          (("  page " ++ sixPlaces first ++ ": " ++ toString (usedSlots page) ++ "/" ++
              toString page.slotCount ++ " used") :: lines,
            total.map (usedSlots page + ·))

def describeTable (table : Table) (store : Store) : List String × Ending × Store :=
  match table.pageCount store.directory with
  | .error fault => ([], .crashed fault, store)
  | .ok count =>
      let opening := ["table:          " ++ table.id.text, "path:           " ++ table.path,
        "page size:      " ++ toString table.pageSize,
        "tuple size:     " ++ toString table.schema.width]
      match table.slotsPerPage with
      | .error fault => (opening, .crashed fault, store)
      | .ok slots =>
          let opening := opening ++ ["slots per page: " ++ toString slots,
            "pages:          " ++ toString count.toNat]
          match pageLines table store.directory 0 count.toNat with
          | (lines, .error failure) => (opening ++ lines, endingOf failure, store)
          | (lines, .ok total) =>
              (opening ++ lines ++ ["records:        " ++ toString total], .success, store)

def stressTable (table : Table) (threads inserts : Nat) (store : Store) :
    List String × Ending × Store :=
  match Stress.run table threads inserts store with
  | (.done records added, store) =>
      (["ok: " ++ toString records ++ " records (" ++ toString added ++ " new)"], .success, store)
  | (.refused error, store) => ([], .failed error.trail, store)
  | (.crashedWorker, store) => ([], .failed ["stress worker panicked"], store)
  | (.wrongTotal expected added, store) =>
      ([], .failed ["expected " ++ toString expected ++ " new records, found " ++ toString added],
        store)
  | (.broken fault, store) => ([], .crashed fault, store)

def perform (table : Table) (task : Task) (store : Store) : List String × Ending × Store :=
  match task with
  | .create => ([], .success, store)
  | .insert rows => insertAll table rows store
  | .delete page slot => deleteAt table page slot store
  | .scan asJson => scanTable table asJson store
  | .info => describeTable table store
  | .stress threads inserts => stressTable table threads inserts store

def createTable (arguments : Arguments) (schema : Schema) (path : String)
    (directory : Directory) : Result :=
  match Table.create directory arguments.pageSize path schema with
  | (.error error, directory) =>
      ⟨[], .failed (("Failed to create " ++ arguments.file) :: error.trail), directory⟩
  | (.ok table, directory) =>
      match table.slotsPerPage with
      | .error fault => ⟨[], .crashed fault, directory⟩
      | .ok slots =>
          ⟨["created " ++ table.path ++ " (" ++ table.id.text ++ ", " ++ toString slots ++
              " slots per page)"],
            .success, directory⟩

/-- Runs a command on the file at a path; messages name the file as the arguments do. -/
def Arguments.run (arguments : Arguments) (path : String) (directory : Directory) : Result :=
  match Store.open? directory arguments.poolPages WaitRange.standard with
  | .error fault => ⟨[], .crashed fault, directory⟩
  | .ok store =>
      if longestBuffer < arguments.columns then ⟨[], .crashed .capacityOverflow, directory⟩
      else
        let schema := intColumns arguments.columns
        match arguments.task with
        | .create => createTable arguments schema path directory
        | task =>
            match Table.open? directory arguments.pageSize path schema with
            | .error error =>
                ⟨[], .failed (("Failed to open " ++ arguments.file) :: error.trail), directory⟩
            | .ok table =>
                let (lines, ending, store) := perform table task (store.register table)
                ⟨lines, ending, store.directory⟩

def Refusal.result (refusal : Refusal) (directory : Directory) : Result :=
  match refusal with
  | .misused => ⟨[], .misused, directory⟩
  | .help => ⟨usage, .success, directory⟩
  | .version => ⟨[programVersion], .success, directory⟩

def run (words : List String) (directory : Directory) : Result :=
  match Arguments.read words with
  | .error refusal => refusal.result directory
  | .ok arguments => arguments.run arguments.file directory

end RecordStore.Command
