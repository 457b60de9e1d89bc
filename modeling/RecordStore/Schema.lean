import RecordStore.Value

set_option autoImplicit false

/-! The columns of a table. Schemas agree when their column types do; names are used for look-up
only. -/

namespace RecordStore

structure Column where
  type : ColumnType
  name : Option String
  deriving DecidableEq, Inhabited, Repr

structure Schema where
  columns : List Column
  deriving DecidableEq, Inhabited, Repr

namespace Schema

/-- Names beyond the types are dropped, types beyond the names stay nameless. -/
def columnsOf : List ColumnType → List (Option String) → List Column
  | [], _ => []
  | type :: types, [] => ⟨type, none⟩ :: columnsOf types []
  | type :: types, name :: names => ⟨type, name⟩ :: columnsOf types names

def ofNamed (types : List ColumnType) (names : List (Option String)) : Schema :=
  ⟨columnsOf types names⟩

def ofTypes (types : List ColumnType) : Schema := ⟨types.map fun type => ⟨type, none⟩⟩

def types (schema : Schema) : List ColumnType := schema.columns.map Column.type

def count (schema : Schema) : Nat := schema.columns.length

def typeAt (schema : Schema) (index : Nat) : Option ColumnType :=
  schema.columns[index]?.map Column.type

def nameAt (schema : Schema) (index : Nat) : Option String :=
  schema.columns[index]?.bind Column.name

def position (schema : Schema) (name : String) : Option Nat :=
  schema.columns.findIdx? fun column => column.name == some name

def width (schema : Schema) : Nat :=
  schema.types.foldr (fun type total => type.width + total) 0

def agrees (left right : Schema) : Bool := left.types == right.types

end Schema

end RecordStore
