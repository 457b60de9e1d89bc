import RecordStore.Digest
import RecordStore.Disk.PageFile
import RecordStore.Page.Basic
import RecordStore.Text.Literal

set_option autoImplicit false

/-! Tables: page files with a schema. The table id is the digest of the canonical path of the file.
`readPage` and `writePage` bypass the cache. -/

namespace RecordStore

structure Table where
  id : TableId
  path : String
  schema : Schema
  pages : PageFile
  deriving DecidableEq, Inhabited, Repr

namespace Table

def idOf (path : String) : TableId := ⟨Digest.leadingWord (Utf8.encode path.toList)⟩

def ofFile (pageSize : Nat) (schema : Schema) (file : FileId) (path : String) : Table :=
  ⟨idOf path, path, schema, ⟨file, pageSize⟩⟩

/-- An empty table at the path; a file that is there already loses its content. -/
def create (directory : Directory) (pageSize : Nat) (path : String) (schema : Schema) :
    Except StorageError Table × Directory :=
  match directory.create path with
  | (.error error, directory) => (.error (.system error), directory)
  | (.ok (file, path), directory) => (.ok (ofFile pageSize schema file path), directory)

def open? (directory : Directory) (pageSize : Nat) (path : String) (schema : Schema) :
    Except StorageError Table :=
  match directory.open? path with
  | .error error => .error (.system error)
  | .ok (file, path) => .ok (ofFile pageSize schema file path)

def pageSize (table : Table) : Nat := table.pages.pageSize

def slotsPerPage (table : Table) : Except Fault Nat :=
  Layout.checkedSlotCount table.pageSize table.schema.width

def pageCount (table : Table) (directory : Directory) : Except Fault UInt32 :=
  table.pages.count directory

def page (table : Table) (number : UInt32) : PageId := ⟨table.id, number⟩

def checkOwner (table : Table) (page : PageId) : Except StorageError Unit :=
  if page.table = table.id then .ok () else .error (.foreignTable table.id page.table)

def readPage (table : Table) (directory : Directory) (page : PageId) : Except Failure Page :=
  match table.checkOwner page with
  | .error error => .error (.refused error)
  | .ok () =>
      if longestBuffer < table.pageSize then .error (.broken .capacityOverflow)
      else
        match table.pages.read directory page.number table.pageSize with
        | .error (.refused (.pageOutOfRange _ _)) => .error (.refused (.missingPage page))
        | .error failure => .error failure
        | .ok bytes =>
            match Page.decode page table.schema bytes with
            | .error error => .error (.refused error)
            | .ok page => .ok page

def writePage (table : Table) (directory : Directory) (page : Page) :
    Except StorageError Directory :=
  match table.checkOwner page.id with
  | .error error => .error error
  | .ok () => table.pages.write directory page.id.number page.encode

def describe (table : Table) : String :=
  "HeapFile \x7b id: TableId(" ++ toString table.id.value.toNat ++ "), path: " ++
    Text.literal table.path ++ ", page_size: " ++ toString table.pageSize ++ " \x7d"

end Table

end RecordStore
