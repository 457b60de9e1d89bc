import RecordStore.Schema

set_option autoImplicit false

/-! Rows: values that fit a schema, with the place of the row once it is stored. A row is encoded as
its values one after another, so its width is that of the schema. -/

namespace RecordStore

structure Row where
  schema : Schema
  values : List Value
  place : Option RecordId
  typed : values.map Value.type = schema.types
  deriving Repr

namespace Row

def make (schema : Schema) (values : List Value) : Except StorageError Row :=
  if typed : values.map Value.type = schema.types then
    .ok ⟨schema, values, none, typed⟩
  else .error .schemaMismatch

def placed (row : Row) (place : Option RecordId) : Row := { row with place := place }

def same (left right : Row) : Bool :=
  left.schema.agrees right.schema && left.values == right.values && left.place == right.place

def encode (row : Row) : List UInt8 := row.values.flatMap Value.encode

/-- The values of these types at the front of the bytes, and the bytes after them. -/
def decodeValues : List ColumnType → List UInt8 → Except StorageError (List Value × List UInt8)
  | [], bytes => .ok ([], bytes)
  | type :: types, bytes =>
      match type.decode bytes with
      | .error error => .error error
      | .ok (value, rest) =>
          match decodeValues types rest with
          | .error error => .error error
          | .ok (values, rest) => .ok (value :: values, rest)

theorem types_of_decodeValues {types : List ColumnType} {bytes rest : List UInt8}
    {values : List Value} (decoded : decodeValues types bytes = .ok (values, rest)) :
    values.map Value.type = types := by
  induction types generalizing bytes rest values with
  | nil =>
      simp only [decodeValues, Except.ok.injEq, Prod.mk.injEq] at decoded
      rw [← decoded.1]
      rfl
  | cons type types ih =>
      unfold decodeValues at decoded
      cases first : type.decode bytes with
      | error error => simp [first] at decoded
      | ok pair =>
          obtain ⟨value, between⟩ := pair
          cases others : decodeValues types between with
          | error error => simp [first, others] at decoded
          | ok parts =>
              obtain ⟨later, final⟩ := parts
              simp only [first, others, Except.ok.injEq, Prod.mk.injEq] at decoded
              rw [← decoded.1, List.map_cons, ColumnType.type_of_decode first, ih others]

def decode (schema : Schema) (bytes : List UInt8) : Except StorageError Row :=
  match decoded : decodeValues schema.types bytes with
  | .error error => .error error
  | .ok (values, _) => .ok ⟨schema, values, none, types_of_decodeValues decoded⟩

end Row

end RecordStore
