import Mathlib.Algebra.BigOperators.Group.List.Basic
import Mathlib.Algebra.GroupWithZero.Nat
import RecordStore.Proofs.Page.Rewriting
import RecordStore.Proofs.Value.Format

set_option autoImplicit false

/-! Positions in encoded rows. The width of a row does not depend on its values, so columns and rows
of a sequence start at sums of widths. Decoding from there depends on the bytes of the row only, and
fails with `endOfBytes` on fewer. -/

namespace RecordStore

/-- In a concatenation of encodings, the bytes of an item start at the sum of the lengths before it.
-/
theorem drop_flatMap_of_getElem? {Item : Type} {write : Item → List UInt8} {items : List Item}
    {index : Nat} {item : Item} (present : items[index]? = some item) :
    (items.flatMap write).drop ((items.take index).map fun other => (write other).length).sum =
      write item ++ (items.drop (index + 1)).flatMap write := by
  obtain ⟨inside, rfl⟩ := List.getElem?_eq_some_iff.mp present
  have lengths : ((items.take index).map fun other => (write other).length) =
      ((items.map write).map List.length).take index := by
    rw [List.map_map, List.map_take]
    rfl
  rw [lengths, List.flatMap_def, List.drop_sum_flatten, ← List.map_drop,
    List.drop_eq_getElem_cons inside, List.map_cons, List.flatten_cons, ← List.flatMap_def]

/-! ### Too few bytes -/

theorem ColumnType.decode_short {type : ColumnType} {bytes : List UInt8}
    (short : bytes.length < type.width) : type.decode bytes = .error (.system .endOfBytes) := by
  cases type with
  | int =>
      unfold ColumnType.decode
      rw [readWord_short short]
  | text => exact decode_text_short short

namespace Row

/-- Values with their last bytes missing fail with `endOfBytes`, never with a bad text. -/
theorem decodeValues_cut_off {values : List Value} {part : List UInt8}
    (front : part <+: values.flatMap Value.encode) (proper : part ≠ values.flatMap Value.encode) :
    decodeValues (values.map Value.type) part = .error (.system .endOfBytes) := by
  induction values generalizing part with
  | nil => exact absurd (List.prefix_nil.mp front) proper
  | cons value values ih =>
      rw [List.flatMap_cons] at front proper
      rw [List.map_cons]
      by_cases short : part.length < value.type.width
      · exact decodeValues_cons_error (ColumnType.decode_short short)
      · have whole : value.encode <+: part := by
          refine List.prefix_of_prefix_length_le (List.prefix_append _ _) front ?_
          rw [Value.length_encode]
          exact Nat.le_of_not_lt short
        obtain ⟨later, rfl⟩ := whole
        have frontLater : later <+: values.flatMap Value.encode :=
          (List.prefix_append_right_inj value.encode).mp front
        have properLater : later ≠ values.flatMap Value.encode := by
          intro same
          exact proper (by rw [same])
        rw [decodeValues_cons_ok (value.decode_encode later), ih frontLater properLater]
        rfl

theorem decode_cut_off {row : Row} {part : List UInt8} (front : part <+: row.encode)
    (proper : part ≠ row.encode) :
    decode row.schema part = .error (.system .endOfBytes) := by
  rw [decode_error_iff, ← row.typed]
  exact decodeValues_cut_off front proper

/-! ### Columns of a row -/

theorem encode_column {row : Row} {index : Nat} {value : Value}
    (present : row.values[index]? = some value) :
    (row.encode.drop ((row.schema.types.take index).map ColumnType.width).sum).take
      value.type.width = value.encode := by
  have widths : ((row.schema.types.take index).map ColumnType.width) =
      (row.values.take index).map fun other => other.encode.length := by
    rw [← row.typed, ← List.map_take, List.map_map]
    exact List.map_congr_left fun other _ => other.length_encode.symm
  rw [widths, encode, drop_flatMap_of_getElem? present]
  exact List.take_left' value.length_encode

/-! ### Rows among others -/

def startIn (rows : List Row) (index : Nat) : Nat :=
  ((rows.take index).map fun row => row.schema.width).sum

theorem encode_row {rows : List Row} {index : Nat} {row : Row} (present : rows[index]? = some row) :
    ((rows.flatMap encode).drop (startIn rows index)).take row.schema.width = row.encode := by
  have widths : ((rows.take index).map fun other => other.schema.width) =
      (rows.take index).map fun other => other.encode.length :=
    List.map_congr_left fun other _ => other.length_encode.symm
  rw [startIn, widths, drop_flatMap_of_getElem? present]
  exact List.take_left' row.length_encode

/-- Rows of one schema start at multiples of its width. -/
theorem startIn_eq_mul {schema : Schema} {rows : List Row} {index : Nat}
    (alike : ∀ row ∈ rows, row.schema.types = schema.types) (inside : index ≤ rows.length) :
    startIn rows index = index * schema.width := by
  have widths : ((rows.take index).map fun row => row.schema.width) =
      List.replicate index schema.width := by
    rw [List.eq_replicate_iff]
    refine ⟨by rw [List.length_map, List.length_take, Nat.min_eq_left inside], ?_⟩
    intro width member
    obtain ⟨row, taken, rfl⟩ := List.mem_map.mp member
    rw [Schema.width, alike row (List.mem_of_mem_take taken), Schema.width]
  rw [startIn, widths, List.sum_replicate_nat]

/-- A row decodes at any position that has its encoding. -/
theorem decode_of_slice {row found : Row} {bytes : List UInt8} {start : Nat}
    (reads : ∀ rest, decode row.schema (row.encode ++ rest) = .ok found)
    (here : (bytes.drop start).take row.schema.width = row.encode) :
    decode row.schema (bytes.drop start) = .ok found := by
  rw [← List.take_append_drop row.schema.width (bytes.drop start), here]
  exact reads _

/-- The encoding of a row has the width of its schema and every field at the sum of the widths
before it. It decodes, in front of any bytes, to the row with its texts cut; a proper prefix fails
with `endOfBytes`. In a sequence of encoded rows each is found from the widths alone. -/
theorem encoded_rows_stand_alone {schema : Schema} {values : List Value} {row : Row}
    (made : make schema values = .ok row) :
    row.encode.length = schema.width ∧
    (∀ index value, values[index]? = some value →
      (row.encode.drop ((schema.types.take index).map ColumnType.width).sum).take
        value.type.width = value.encode) ∧
    (∀ part : List UInt8, part <+: row.encode → part ≠ row.encode →
      decode schema part = .error (.system .endOfBytes)) ∧
    ∃ found, found.schema = schema ∧ found.place = none ∧
      List.Forall₂ Value.Cut values found.values ∧
      (∀ rest, decode schema (row.encode ++ rest) = .ok found) ∧
      (∀ rows index, rows[index]? = some row →
        ((rows.flatMap encode).drop (startIn rows index)).take schema.width = row.encode ∧
        decode schema ((rows.flatMap encode).drop (startIn rows index)) = .ok found ∧
        ((∀ other ∈ rows, other.schema.types = schema.types) →
          startIn rows index = index * schema.width)) ∧
      ∀ (bytes : List UInt8) start, (bytes.drop start).take schema.width = row.encode →
        decode schema (bytes.drop start) = .ok found := by
  obtain ⟨rfl, rfl, -⟩ := of_make made
  obtain ⟨found, reads, ofSchema, place, values⟩ := row.decode_encode rfl
  refine ⟨row.length_encode, fun index value present => encode_column present,
    fun part front proper => decode_cut_off front proper, found, ofSchema, place,
    values ▸ row.cut_stored, reads, fun rows index present => ?_,
    fun bytes start here => decode_of_slice reads here⟩
  have slice := encode_row present
  refine ⟨slice, decode_of_slice reads slice, fun alike => startIn_eq_mul alike ?_⟩
  obtain ⟨inside, -⟩ := List.getElem?_eq_some_iff.mp present
  exact Nat.le_of_lt inside

/-- Two numbers around a text that has to be cut. -/
def framed : List Value := [.int 7, Value.overlong, .int (-9)]

set_option maxRecDepth 4096 in
theorem encoded_rows_stand_alone_small :
    ∃ row, make (.ofTypes [.int, .text, .int]) framed = .ok row ∧
      row.encode.length = 140 ∧
      (row.encode.drop 136).take 4 = [255, 255, 255, 247] ∧
      decode (.ofTypes [.int, .text, .int]) (row.encode.take 139) =
        .error (.system .endOfBytes) ∧
      ∃ found, List.Forall₂ Value.Cut framed found.values ∧
        decode (.ofTypes [.int, .text, .int]) (([row, row, row].flatMap encode).drop 280) =
          .ok found ∧
        decode (.ofTypes [.int, .text, .int])
          ((List.replicate 9 170 ++ row.encode ++ [1]).drop 9) = .ok found := by
  obtain ⟨row, made⟩ : ∃ row, make (.ofTypes [.int, .text, .int]) framed = .ok row := ⟨_, rfl⟩
  obtain ⟨width, columns, short, found, -, -, cut, -, among, anywhere⟩ :=
    encoded_rows_stand_alone made
  have shorter : row.encode.take 139 ≠ row.encode := by
    intro same
    have lengths := congrArg List.length same
    rw [List.length_take, width] at lengths
    exact absurd lengths (by decide)
  obtain ⟨-, third, starts⟩ := among [row, row, row] 2 rfl
  have start : startIn [row, row, row] 2 = 280 := starts fun other member => by
    obtain rfl : other = row := by simpa using member
    exact congrArg Schema.types (of_make made).1
  rw [start] at third
  refine ⟨row, made, width, columns 2 (.int (-9)) rfl, short _ (List.take_prefix _ _) shorter,
    found, cut, third, anywhere _ 9 ?_⟩
  rw [List.append_assoc, List.drop_left' List.length_replicate]
  exact List.take_left' width

end Row

end RecordStore
