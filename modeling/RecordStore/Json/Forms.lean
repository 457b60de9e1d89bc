import RecordStore.Json.Reader
import RecordStore.Row
import RecordStore.Text.Quoted
import RecordStore.Text.Split

set_option autoImplicit false

/-! The JSON forms of values, schemas and rows, and readers for them. -/

namespace RecordStore.Json

open Text (quoted)

class Form (α : Type) where
  write : α → String
  read : Reader α

def object (members : List (String × String)) : String :=
  "\x7b" ++ Text.join "," (members.map fun (name, text) => quoted name ++ ":" ++ text) ++ "\x7d"

def list (elements : List String) : String := "[" ++ Text.join "," elements ++ "]"

def readName {α : Type} (names : List (String × α)) : Reader α :=
  let named (name : String) : Except ReadError α :=
    match names.lookup name with
    | some value => .ok value
    | none => .error .shape
  variant named fun name =>
    (named name).map fun value text => (null text).map fun (_, rest) => (value, rest)

def typeName : ColumnType → String
  | .int => "Int"
  | .text => "String"

instance : Form ColumnType where
  write type := quoted (typeName type)
  read := readName [("Int", .int), ("String", .text)]

def readInt32 : Reader Int32 := fun text =>
  (integer (-2147483648) 2147483647 text).map fun (value, rest) => (Int32.ofInt value, rest)

def writeValue : Value → String
  | .int number => toString number.toInt
  | .text content => quoted content

instance : Form Value where
  write value := object [(typeName value.type, writeValue value)]
  read :=
    variant (fun _ => .error .shape) fun name =>
      if name = "Int" then
        .ok fun text => (readInt32 text).map fun (number, rest) => (.int number, rest)
      else if name = "String" then
        .ok fun text => (string text).map fun (content, rest) => (.text content, rest)
      else .error .shape

instance : Form Column where
  write column :=
    object [("field_type", Form.write column.type),
      ("name", match column.name with | some name => quoted name | none => "null")]
  read := fun text =>
    (record ⟨"field_type", Form.read, none⟩ ⟨"name", optional string, some none⟩ text).map
      fun ((type, name), rest) => (⟨type, name⟩, rest)

instance : Form Schema where
  write schema := object [("items", list (schema.columns.map Form.write))]
  read := fun text =>
    (single ⟨"items", array Form.read, none⟩ text).map fun (columns, rest) => (⟨columns⟩, rest)

def readWord32 : Reader UInt32 := fun text =>
  (integer 0 4294967295 text).map fun (value, rest) => (UInt32.ofNat value.toNat, rest)

def readWord64 : Reader Nat := fun text =>
  (integer 0 18446744073709551615 text).map fun (value, rest) => (value.toNat, rest)

instance : Form TableId where
  write table := toString table.value.toNat
  read := fun text => (readWord32 text).map fun (value, rest) => (⟨value⟩, rest)

instance : Form PageId where
  write page :=
    object [("table_id", Form.write page.table), ("page_number", toString page.number.toNat)]
  read := fun text =>
    (record ⟨"table_id", Form.read, none⟩ ⟨"page_number", readWord32, none⟩ text).map
      fun ((table, number), rest) => (⟨table, number⟩, rest)

instance : Form RecordId where
  write place := object [("page_id", Form.write place.page), ("slot", toString place.slot)]
  read := fun text =>
    (record ⟨"page_id", Form.read, none⟩ ⟨"slot", readWord64, none⟩ text).map
      fun ((page, slot), rest) => (⟨page, slot⟩, rest)

instance : Form TransactionId where
  write transaction := toString transaction.value.toNat
  read := fun text =>
    (readWord64 text).map fun (value, rest) => (⟨UInt64.ofNat value⟩, rest)

instance : Form Access where
  write
    | .readOnly => quoted "ReadOnly"
    | .readWrite => quoted "ReadWrite"
  read := readName [("ReadOnly", .readOnly), ("ReadWrite", .readWrite)]

/-- A stored row on one line, its keys in alphabetical order. -/
def rowLine (row : Row) : String :=
  let place := match row.place with
    | none => "null"
    | some place =>
        object [("page_id",
            object [("page_number", toString place.page.number.toNat),
              ("table_id", toString place.page.table.value.toNat)]),
          ("slot", toString place.slot)]
  object [("fields", list (row.values.map writeValue)), ("record_id", place)]

def normalize (α : Type) [Form α] (text : String) : Except ReadError String :=
  (readAll (Form.read : Reader α) text).map Form.write

end RecordStore.Json
