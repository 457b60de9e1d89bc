import RecordStore.Proofs.Value
import RecordStore.Row

set_option autoImplicit false

/-! Encoding and decoding of rows. -/

namespace RecordStore

namespace Row

/-- The values as a reader finds them once the row has been stored. -/
def stored (row : Row) : List Value := row.values.map Value.stored

@[simp] theorem stored_placed (row : Row) (place : Option RecordId) :
    (row.placed place).stored = row.stored := rfl

theorem length_encodeValues (values : List Value) :
    (values.flatMap Value.encode).length =
      (values.map Value.type).foldr (fun type total => type.width + total) 0 := by
  induction values with
  | nil => rfl
  | cons value values ih =>
      rw [List.flatMap_cons, List.length_append, Value.length_encode, ih]
      rfl

theorem length_encode (row : Row) : row.encode.length = row.schema.width := by
  rw [encode, length_encodeValues, row.typed]
  rfl

theorem decodeValues_encode (values : List Value) (rest : List UInt8) :
    decodeValues (values.map Value.type) (values.flatMap Value.encode ++ rest) =
      .ok (values.map Value.stored, rest) := by
  induction values with
  | nil => rfl
  | cons value values ih =>
      rw [List.map_cons, List.flatMap_cons, List.append_assoc, decodeValues,
        Value.decode_encode]
      simp only [ih]
      rfl

theorem stored_of_decodeValues {types : List ColumnType} {bytes rest : List UInt8}
    {values : List Value} (decoded : decodeValues types bytes = .ok (values, rest)) :
    values.map Value.stored = values := by
  induction types generalizing bytes rest values with
  | nil =>
      simp only [decodeValues, Except.ok.injEq, Prod.mk.injEq] at decoded
      rw [← decoded.1]
      rfl
  | cons type types ih =>
      unfold decodeValues at decoded
      cases first : type.decode bytes with
      | error error => simp [first] at decoded
      | ok pair =>
          obtain ⟨value, between⟩ := pair
          cases others : decodeValues types between with
          | error error => simp [first, others] at decoded
          | ok parts =>
              obtain ⟨later, final⟩ := parts
              simp only [first, others, Except.ok.injEq, Prod.mk.injEq] at decoded
              rw [← decoded.1, List.map_cons, ColumnType.stored_of_decode first, ih others]

theorem decode_of_decodeValues {schema : Schema} {bytes rest : List UInt8} {values : List Value}
    (decoded : decodeValues schema.types bytes = .ok (values, rest)) :
    decode schema bytes = .ok ⟨schema, values, none, types_of_decodeValues decoded⟩ := by
  unfold decode
  split
  · next error refused =>
      rw [decoded] at refused
      cases refused
  · next found accepted =>
      have same := decoded.symm.trans accepted
      cases same
      rfl

theorem decode_spec {schema : Schema} {bytes : List UInt8} {row : Row}
    (decoded : decode schema bytes = .ok row) :
    row.schema = schema ∧ row.place = none ∧ row.stored = row.values := by
  unfold decode at decoded
  split at decoded
  · cases decoded
  · next values rest accepted =>
      cases decoded
      exact ⟨rfl, rfl, stored_of_decodeValues accepted⟩

theorem of_make {schema : Schema} {values : List Value} {row : Row}
    (made : make schema values = .ok row) :
    row.schema = schema ∧ row.values = values ∧ row.place = none := by
  unfold make at made
  split at made
  · cases made
    exact ⟨rfl, rfl, rfl⟩
  · cases made

/-- A row decodes from its encoding in front of any other bytes. -/
theorem decode_encode {schema : Schema} (row : Row) (fits : row.schema.types = schema.types) :
    ∃ found, (∀ rest, decode schema (row.encode ++ rest) = .ok found) ∧ found.schema = schema ∧
      found.place = none ∧ found.values = row.stored := by
  have decoded (rest : List UInt8) :
      decodeValues schema.types (row.encode ++ rest) = .ok (row.stored, rest) := by
    have read := decodeValues_encode row.values rest
    rwa [row.typed, fits] at read
  exact ⟨⟨schema, row.stored, none, types_of_decodeValues (decoded [])⟩,
    fun rest => decode_of_decodeValues (decoded rest), rfl, rfl, rfl⟩

end Row

end RecordStore
