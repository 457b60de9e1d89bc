import RecordStore.Proofs.Page.Codec

set_option autoImplicit false

/-! Decoding of columns, rows and slots by their bytes. A column is read from as many bytes as its
type is wide, and fails only for a bad text. A row fails for its first bad text, and a page for the
first taken slot with a bad row. -/

namespace RecordStore

theorem map_error_iff {Error Found Made : Type} {read : Except Error Found} {make : Found → Made}
    {error : Error} : read.map make = .error error ↔ read = .error error := by
  cases read <;> simp [Except.map]

theorem found_of_map_ok {Error Found Made : Type} {read : Except Error Found}
    {make : Found → Made} {made : Made} (done : read.map make = .ok made) :
    ∃ found, read = .ok found ∧ make found = made := by
  cases read with
  | error cause => cases done
  | ok found => exact ⟨found, rfl, Except.ok.inj done⟩

/-! ### Texts -/

def leadingNumber : List UInt8 → Int32
  | first :: second :: third :: fourth :: _ => (wordOfBytes first second third fourth).toInt32
  | _ => 0

theorem readWord_eq {bytes : List UInt8} (enough : 4 ≤ bytes.length) :
    readWord bytes = .ok (leadingNumber bytes, bytes.drop 4) := by
  match bytes, enough with
  | first :: second :: third :: fourth :: rest, _ => rfl

theorem readWord_short {bytes : List UInt8} (short : bytes.length < 4) :
    readWord bytes = .error (.system .endOfBytes) := by
  unfold readWord
  split
  · next rest =>
      have enough : 4 ≤ rest.length + 4 := Nat.le_add_left 4 rest.length
      exact absurd short (Nat.not_lt.mpr enough)
  · rfl

theorem leadingNumber_take {bytes : List UInt8} {count : Nat} (enough : 4 ≤ count) :
    leadingNumber (bytes.take count) = leadingNumber bytes := by
  obtain ⟨more, rfl⟩ := Nat.exists_eq_add_of_le' enough
  match bytes with
  | [] | [_] | [_, _] | [_, _, _] | _ :: _ :: _ :: _ :: _ => rfl

def countOf (field : List UInt8) : Nat := (leadingNumber field).toInt.toNat

def countedBytes (field : List UInt8) : List UInt8 := (field.drop 4).take (countOf field)

/-- The length of a text is between zero and the room for it. -/
def Measured (field : List UInt8) : Prop :=
  0 ≤ (leadingNumber field).toInt ∧ (leadingNumber field).toInt ≤ textRoom

inductive BadText (field : List UInt8) : Corruption → Prop where
  | length : ¬ Measured field → BadText field (.textLength (leadingNumber field))
  | bytes {fault : Utf8.Fault} : Measured field → Utf8.decode (countedBytes field) = .error fault →
      BadText field (.badText fault)

theorem not_measured_iff (field : List UInt8) :
    (leadingNumber field < 0 ∨ textRoom < (leadingNumber field).toInt.toNat) ↔
      ¬ Measured field := by
  rw [Measured, Int32.lt_iff_toInt_lt, Int32.toInt_zero]
  omega

theorem Measured.countOf_le {field : List UInt8} (measured : Measured field) :
    countOf field ≤ textRoom := by
  have most := measured.2
  rw [countOf]
  omega

theorem readText_of_not_measured {field : List UInt8} (wrong : ¬ Measured field)
    (payload : List UInt8) :
    readText (leadingNumber field) payload =
      .error (.corrupt (.textLength (leadingNumber field))) := by
  rw [readText, if_pos ((not_measured_iff field).mpr wrong)]

theorem readText_of_measured {field : List UInt8} (measured : Measured field) :
    readText (leadingNumber field) ((field.drop 4).take textRoom) =
      match Utf8.decode (countedBytes field) with
      | .error fault => .error (.corrupt (.badText fault))
      | .ok characters => .ok (.text (String.ofList characters)) := by
  have inRange := fun outside => (not_measured_iff field).mp outside measured
  have counted : ((field.drop 4).take textRoom).take (countOf field) = countedBytes field := by
    rw [List.take_take, countedBytes, Nat.min_eq_left measured.countOf_le]
  rw [countOf] at counted
  cases decoded : Utf8.decode (countedBytes field) <;>
    simp only [readText, if_neg inRange, counted, decoded]

theorem readText_error_iff {field : List UInt8} {error : StorageError} :
    readText (leadingNumber field) ((field.drop 4).take textRoom) = .error error ↔
      ∃ cause, BadText field cause ∧ error = .corrupt cause := by
  by_cases measured : Measured field
  · rw [readText_of_measured measured]
    constructor
    · intro failed
      cases decoded : Utf8.decode (countedBytes field) with
      | error fault =>
          rw [decoded] at failed
          cases failed
          exact ⟨_, .bytes measured decoded, rfl⟩
      | ok characters =>
          rw [decoded] at failed
          cases failed
    · rintro ⟨cause, bad, rfl⟩
      cases bad with
      | length outside => exact absurd measured outside
      | bytes _ decoded => rw [decoded]
  · rw [readText_of_not_measured measured]
    constructor
    · intro failed
      cases failed
      exact ⟨_, .length measured, rfl⟩
    · rintro ⟨cause, bad, rfl⟩
      cases bad with
      | length _ => rfl
      | bytes inRange _ => exact absurd inRange measured

theorem readText_ok {field : List UInt8} {value : Value}
    (read : readText (leadingNumber field) ((field.drop 4).take textRoom) = .ok value) :
    Measured field ∧ ∃ characters, Utf8.decode (countedBytes field) = .ok characters ∧
      value = .text (String.ofList characters) := by
  by_cases measured : Measured field
  · rw [readText_of_measured measured] at read
    cases decoded : Utf8.decode (countedBytes field) with
    | error fault =>
        rw [decoded] at read
        cases read
    | ok characters =>
        rw [decoded] at read
        cases read
        exact ⟨measured, characters, rfl, rfl⟩
  · rw [readText_of_not_measured measured] at read
    cases read

/-- A text is bad iff its length is out of range or its counted bytes are no UTF-8. -/
theorem exists_badText_iff (field : List UInt8) :
    (∃ cause, BadText field cause) ↔
      ¬ Measured field ∨ ∀ characters, Utf8.encode characters ≠ countedBytes field := by
  constructor
  · rintro ⟨cause, bad⟩
    cases bad with
    | length outside => exact .inl outside
    | bytes _ decoded =>
        refine .inr fun characters same => ?_
        rw [← same, Utf8.decode_encode] at decoded
        cases decoded
  · intro wrong
    by_cases measured : Measured field
    · cases decoded : Utf8.decode (countedBytes field) with
      | error fault => exact ⟨_, .bytes measured decoded⟩
      | ok characters =>
          have valid := wrong.resolve_left (not_not_intro measured)
          exact absurd (Utf8.encode_of_decode decoded) (valid characters)
    · exact ⟨_, .length measured⟩

namespace ColumnType

theorem decode_text {bytes : List UInt8} (enough : 4 + textRoom ≤ bytes.length) :
    ColumnType.text.decode bytes =
      (readText (leadingNumber bytes) ((bytes.drop 4).take textRoom)).map
        (·, bytes.drop (4 + textRoom)) := by
  have payload : ((bytes.drop 4).take textRoom).length = textRoom := by
    rw [List.length_take, List.length_drop]
    omega
  have room : readBytes textRoom (bytes.drop 4) =
      .ok ((bytes.drop 4).take textRoom, bytes.drop (4 + textRoom)) := by
    rw [readBytes, if_pos payload, List.drop_drop]
  unfold ColumnType.decode
  simp only [readWord_eq (Nat.le_trans (Nat.le_add_right 4 textRoom) enough), room]
  cases readText (leadingNumber bytes) ((bytes.drop 4).take textRoom) with
  | error error => rfl
  | ok value => rfl

theorem decode_int {bytes : List UInt8} (enough : 4 ≤ bytes.length) :
    ColumnType.int.decode bytes = .ok (.int (leadingNumber bytes), bytes.drop 4) := by
  unfold ColumnType.decode
  simp only [readWord_eq enough]

/-- Decoding a column consumes exactly the bytes of its type. -/
theorem rest_of_decode {type : ColumnType} {bytes rest : List UInt8} {value : Value}
    (enough : type.width ≤ bytes.length) (decoded : type.decode bytes = .ok (value, rest)) :
    rest = bytes.drop type.width := by
  cases type with
  | int =>
      rw [decode_int enough] at decoded
      cases decoded
      rfl
  | text =>
      rw [decode_text enough] at decoded
      obtain ⟨found, -, same⟩ := found_of_map_ok decoded
      cases same
      rfl

theorem decode_error_iff {type : ColumnType} {bytes : List UInt8} {error : StorageError}
    (enough : type.width ≤ bytes.length) :
    type.decode bytes = .error error ↔
      type = .text ∧ ∃ cause, BadText (bytes.take type.width) cause ∧ error = .corrupt cause := by
  cases type with
  | int =>
      rw [decode_int enough]
      constructor
      · intro failed
        cases failed
      · rintro ⟨other, -⟩
        cases other
  | text =>
      have payload : ((bytes.take (4 + textRoom)).drop 4).take textRoom =
          (bytes.drop 4).take textRoom := by
        rw [List.drop_take, List.take_take, Nat.add_sub_cancel_left, Nat.min_self]
      have failing := @readText_error_iff (bytes.take (4 + textRoom)) error
      rw [leadingNumber_take (Nat.le_add_right 4 textRoom), payload] at failing
      rw [decode_text enough, map_error_iff, failing]
      exact (and_iff_right rfl).symm

end ColumnType

/-! ### Rows -/

def rowWidth (types : List ColumnType) : Nat :=
  types.foldr (fun type total => type.width + total) 0

theorem rowWidth_cons (type : ColumnType) (types : List ColumnType) :
    rowWidth (type :: types) = type.width + rowWidth types := rfl

def columnBytes : List ColumnType → List UInt8 → Nat → List UInt8
  | [], _, _ => []
  | type :: _, bytes, 0 => bytes.take type.width
  | type :: types, bytes, index + 1 => columnBytes types (bytes.drop type.width) index

structure BadColumn (types : List ColumnType) (bytes : List UInt8) (index : Nat)
    (cause : Corruption) : Prop where
  text : types[index]? = some .text
  bad : BadText (columnBytes types bytes index) cause

theorem badColumn_zero_iff {type : ColumnType} {types : List ColumnType} {bytes : List UInt8}
    {cause : Corruption} :
    BadColumn (type :: types) bytes 0 cause ↔
      type = .text ∧ BadText (bytes.take type.width) cause := by
  constructor
  · intro column
    exact ⟨Option.some.inj column.text, column.bad⟩
  · rintro ⟨rfl, bad⟩
    exact ⟨rfl, bad⟩

theorem badColumn_succ_iff {type : ColumnType} {types : List ColumnType} {bytes : List UInt8}
    {index : Nat} {cause : Corruption} :
    BadColumn (type :: types) bytes (index + 1) cause ↔
      BadColumn types (bytes.drop type.width) index cause :=
  ⟨fun column => ⟨column.text, column.bad⟩, fun column => ⟨column.text, column.bad⟩⟩

theorem not_badColumn_zero {type : ColumnType} {types : List ColumnType} {bytes rest : List UInt8}
    {value : Value} (enough : type.width ≤ bytes.length)
    (decoded : type.decode bytes = .ok (value, rest)) (cause : Corruption) :
    ¬ BadColumn (type :: types) bytes 0 cause := by
  intro column
  obtain ⟨text, bad⟩ := badColumn_zero_iff.mp column
  have failed := (type.decode_error_iff enough).mpr ⟨text, cause, bad, rfl⟩
  cases decoded.symm.trans failed

namespace Row

theorem decodeValues_cons_error {type : ColumnType} {types : List ColumnType} {bytes : List UInt8}
    {error : StorageError} (refused : type.decode bytes = .error error) :
    decodeValues (type :: types) bytes = .error error := by
  rw [decodeValues, refused]

theorem decodeValues_cons_ok {type : ColumnType} {types : List ColumnType}
    {bytes between : List UInt8} {value : Value} (decoded : type.decode bytes = .ok (value, between)) :
    decodeValues (type :: types) bytes =
      (decodeValues types between).map fun parts => (value :: parts.1, parts.2) := by
  simp only [decodeValues, decoded]
  cases decodeValues types between <;> rfl

/-- `decodeValues` fails with the first bad text of the row. -/
theorem decodeValues_error_iff {types : List ColumnType} {bytes : List UInt8}
    {error : StorageError} (enough : rowWidth types ≤ bytes.length) :
    decodeValues types bytes = .error error ↔
      ∃ index cause, BadColumn types bytes index cause ∧ error = .corrupt cause ∧
        ∀ other reason, BadColumn types bytes other reason → index ≤ other := by
  induction types generalizing bytes with
  | nil =>
      constructor
      · intro failed
        cases failed
      · rintro ⟨index, cause, column, -⟩
        cases column.text
  | cons type types ih =>
      rw [rowWidth_cons] at enough
      have wide : type.width ≤ bytes.length := by omega
      have failing := @ColumnType.decode_error_iff type bytes
      cases first : type.decode bytes with
      | error reason =>
          obtain ⟨text, cause, bad, rfl⟩ := (failing wide).mp first
          have column : BadColumn (type :: types) bytes 0 cause :=
            badColumn_zero_iff.mpr ⟨text, bad⟩
          rw [decodeValues_cons_error first]
          constructor
          · intro failed
            cases failed
            exact ⟨0, cause, column, rfl, fun other _ _ => Nat.zero_le other⟩
          · rintro ⟨index, also, worse, rfl, least⟩
            obtain rfl := Nat.le_zero.mp (least 0 cause column)
            have same := (failing wide).mpr ⟨text, also, (badColumn_zero_iff.mp worse).2, rfl⟩
            cases first.symm.trans same
            rfl
      | ok pair =>
          obtain ⟨value, between⟩ := pair
          obtain rfl := type.rest_of_decode wide first
          rw [decodeValues_cons_ok first, map_error_iff, ih (by rw [List.length_drop]; omega)]
          constructor
          · rintro ⟨index, cause, column, rfl, least⟩
            refine ⟨index + 1, cause, badColumn_succ_iff.mpr column, rfl, ?_⟩
            rintro (_ | other) reason also
            · exact absurd also (not_badColumn_zero wide first reason)
            · exact Nat.succ_le_succ (least other reason (badColumn_succ_iff.mp also))
          · rintro ⟨_ | index, cause, column, rfl, least⟩
            · exact absurd column (not_badColumn_zero wide first cause)
            · refine ⟨index, cause, badColumn_succ_iff.mp column, rfl, fun other reason also => ?_⟩
              exact Nat.le_of_succ_le_succ
                (least (other + 1) reason (badColumn_succ_iff.mpr also))

theorem decode_error_iff {schema : Schema} {bytes : List UInt8} {error : StorageError} :
    decode schema bytes = .error error ↔ decodeValues schema.types bytes = .error error := by
  cases decoded : decodeValues schema.types bytes with
  | ok parts =>
      rw [decode_of_decodeValues decoded]
      simp
  | error cause =>
      unfold decode
      split
      · next reason refused =>
          rw [decoded] at refused
          cases refused
          rw [Except.error.injEq, Except.error.injEq]
      · next accepted =>
          rw [decoded] at accepted
          cases accepted

theorem decodeValues_bad {types : List ColumnType} {bytes : List UInt8} {index : Nat}
    {cause : Corruption} (enough : rowWidth types ≤ bytes.length)
    (column : BadColumn types bytes index cause) :
    ∃ error, decodeValues types bytes = .error error := by
  induction types generalizing bytes index with
  | nil => cases column.text
  | cons type types ih =>
      rw [rowWidth_cons] at enough
      cases first : type.decode bytes with
      | error error => exact ⟨error, decodeValues_cons_error first⟩
      | ok pair =>
          obtain ⟨value, between⟩ := pair
          obtain rfl := type.rest_of_decode (by omega) first
          cases index with
          | zero => exact absurd column (not_badColumn_zero (by omega) first cause)
          | succ index =>
              obtain ⟨error, failed⟩ := ih (by rw [List.length_drop]; omega)
                (badColumn_succ_iff.mp column)
              exact ⟨error, by rw [decodeValues_cons_ok first, failed]; rfl⟩

end Row

/-! ### Slots -/

def slotArea (width : Nat) (bytes : List UInt8) (slot : Nat) : List UInt8 :=
  (bytes.drop (slot * width)).take width

theorem slotArea_succ (width : Nat) (bytes : List UInt8) (slot : Nat) :
    slotArea width bytes (slot + 1) = slotArea width (bytes.drop width) slot := by
  rw [slotArea, slotArea, List.drop_drop, Nat.succ_mul, Nat.add_comm]

namespace Page

section Slots

variable {id : PageId} {schema : Schema} {bitmap : Array UInt8} {width remaining first : Nat}
  {bytes : List UInt8}

theorem decodeSlots_free_cons (free : Layout.isSet bitmap first = false) :
    decodeSlots id schema bitmap width (remaining + 1) first bytes =
      (decodeSlots id schema bitmap width remaining (first + 1) (bytes.drop width)).map
        (none :: ·) := by
  rw [decodeSlots, if_neg (by rw [free]; exact Bool.false_ne_true)]

theorem decodeSlots_taken_error {error : StorageError} (taken : Layout.isSet bitmap first = true)
    (refused : Row.decode schema (slotArea width bytes 0) = .error error) :
    decodeSlots id schema bitmap width (remaining + 1) first bytes = .error error := by
  rw [slotArea, Nat.zero_mul, List.drop_zero] at refused
  rw [decodeSlots, if_pos taken, refused]

theorem decodeSlots_taken_ok {row : Row} (taken : Layout.isSet bitmap first = true)
    (decoded : Row.decode schema (slotArea width bytes 0) = .ok row) :
    decodeSlots id schema bitmap width (remaining + 1) first bytes =
      (decodeSlots id schema bitmap width remaining (first + 1) (bytes.drop width)).map
        (some (row.placed (some ⟨id, first⟩)) :: ·) := by
  rw [slotArea, Nat.zero_mul, List.drop_zero] at decoded
  rw [decodeSlots, if_pos taken, decoded]

structure StopsAt (schema : Schema) (bitmap : Array UInt8) (width first : Nat) (bytes : List UInt8)
    (slot : Nat) (error : StorageError) : Prop where
  taken : Layout.isSet bitmap (first + slot) = true
  refused : Row.decode schema (slotArea width bytes slot) = .error error
  before : ∀ earlier < slot, Layout.isSet bitmap (first + earlier) = true →
    ∃ row, Row.decode schema (slotArea width bytes earlier) = .ok row

/-- Behind a slot that decodes, the first failure is that of the remaining slots. -/
theorem stopsAt_succ_iff {slot : Nat} {error : StorageError}
    (readable : Layout.isSet bitmap first = true →
      ∃ row, Row.decode schema (slotArea width bytes 0) = .ok row) :
    StopsAt schema bitmap width first bytes (slot + 1) error ↔
      StopsAt schema bitmap width (first + 1) (bytes.drop width) slot error := by
  have place : ∀ index, first + 1 + index = first + (index + 1) := by omega
  constructor
  · rintro ⟨taken, refused, before⟩
    refine ⟨by rwa [place], by rwa [← slotArea_succ], fun earlier smaller held => ?_⟩
    rw [place] at held
    rw [← slotArea_succ]
    exact before (earlier + 1) (Nat.succ_lt_succ smaller) held
  · rintro ⟨taken, refused, before⟩
    refine ⟨by rwa [← place], by rwa [slotArea_succ], ?_⟩
    rintro (_ | earlier) smaller held
    · exact readable held
    · rw [slotArea_succ]
      exact before earlier (Nat.lt_of_succ_lt_succ smaller) (by rwa [place])

theorem exists_stopsAt_succ_iff {error : StorageError}
    (readable : Layout.isSet bitmap first = true →
      ∃ row, Row.decode schema (slotArea width bytes 0) = .ok row) :
    (∃ slot < remaining + 1, StopsAt schema bitmap width first bytes slot error) ↔
      ∃ slot < remaining, StopsAt schema bitmap width (first + 1) (bytes.drop width) slot error := by
  constructor
  · rintro ⟨_ | slot, inside, stops⟩
    · obtain ⟨row, decoded⟩ := readable stops.taken
      cases decoded.symm.trans stops.refused
    · exact ⟨slot, Nat.lt_of_succ_lt_succ inside, (stopsAt_succ_iff readable).mp stops⟩
  · rintro ⟨slot, inside, stops⟩
    exact ⟨slot + 1, Nat.succ_lt_succ inside, (stopsAt_succ_iff readable).mpr stops⟩

/-- `decodeSlots` fails with the first bad text of the first taken slot that has one. -/
theorem decodeSlots_error_iff {error : StorageError} :
    decodeSlots id schema bitmap width remaining first bytes = .error error ↔
      ∃ slot < remaining, StopsAt schema bitmap width first bytes slot error := by
  induction remaining generalizing first bytes with
  | zero =>
      constructor
      · intro failed
        cases failed
      · rintro ⟨slot, none, -⟩
        exact absurd none (Nat.not_lt_zero slot)
  | succ remaining ih =>
      cases taken : Layout.isSet bitmap first with
      | false =>
          rw [decodeSlots_free_cons taken, map_error_iff, ih, exists_stopsAt_succ_iff]
          intro held
          cases taken.symm.trans held
      | true =>
          cases decoded : Row.decode schema (slotArea width bytes 0) with
          | ok row =>
              rw [decodeSlots_taken_ok taken decoded, map_error_iff, ih, exists_stopsAt_succ_iff]
              exact fun _ => ⟨row, decoded⟩
          | error cause =>
              rw [decodeSlots_taken_error taken decoded]
              constructor
              · intro same
                cases same
                exact ⟨0, Nat.zero_lt_succ _, taken, decoded,
                  fun earlier smaller => absurd smaller (Nat.not_lt_zero earlier)⟩
              · rintro ⟨_ | slot, inside, stops⟩
                · cases decoded.symm.trans stops.refused
                  rfl
                · obtain ⟨row, read⟩ := stops.before 0 (Nat.zero_lt_succ slot) taken
                  cases decoded.symm.trans read

/-- The slots of a decoded page hold the rows decoded from their bytes. -/
theorem decodeSlots_ok {slot : Nat} {entries : List (Option Row)}
    (decoded : decodeSlots id schema bitmap width remaining first bytes = .ok entries)
    (inside : slot < remaining) (taken : Layout.isSet bitmap (first + slot) = true) :
    ∃ row, Row.decode schema (slotArea width bytes slot) = .ok row ∧
      entries[slot]? = some (some (row.placed (some ⟨id, first + slot⟩))) := by
  induction remaining generalizing first slot bytes entries with
  | zero => exact absurd inside (Nat.not_lt_zero slot)
  | succ remaining ih =>
      -- In both cases the remaining slots are read from the bytes behind the first.
      have later : ∀ {entry : Option Row} {slot : Nat},
          (decodeSlots id schema bitmap width remaining (first + 1) (bytes.drop width)).map
            (entry :: ·) = .ok entries → slot < remaining →
          Layout.isSet bitmap (first + (slot + 1)) = true →
          ∃ row, Row.decode schema (slotArea width bytes (slot + 1)) = .ok row ∧
            entries[slot + 1]? = some (some (row.placed (some ⟨id, first + (slot + 1)⟩))) := by
        intro entry slot read smaller held
        obtain ⟨found, others, rfl⟩ := found_of_map_ok read
        rw [← Nat.add_assoc, Nat.add_right_comm] at held ⊢
        rw [slotArea_succ, List.getElem?_cons_succ]
        exact ih others smaller held
      cases bit : Layout.isSet bitmap first with
      | false =>
          rw [decodeSlots_free_cons bit] at decoded
          cases slot with
          | zero => cases bit.symm.trans taken
          | succ slot => exact later decoded (Nat.lt_of_succ_lt_succ inside) taken
      | true =>
          cases here : Row.decode schema (slotArea width bytes 0) with
          | error error =>
              rw [decodeSlots_taken_error bit here] at decoded
              cases decoded
          | ok row =>
              rw [decodeSlots_taken_ok bit here] at decoded
              cases slot with
              | zero =>
                  obtain ⟨found, -, rfl⟩ := found_of_map_ok decoded
                  exact ⟨row, here, rfl⟩
              | succ slot => exact later decoded (Nat.lt_of_succ_lt_succ inside) taken

theorem decodeSlots_bad {slot : Nat} {error : StorageError} (inside : slot < remaining)
    (taken : Layout.isSet bitmap (first + slot) = true)
    (refused : Row.decode schema (slotArea width bytes slot) = .error error) :
    ∃ cause, decodeSlots id schema bitmap width remaining first bytes = .error cause := by
  cases decoded : decodeSlots id schema bitmap width remaining first bytes with
  | error cause => exact ⟨cause, rfl⟩
  | ok entries =>
      obtain ⟨row, read, -⟩ := decodeSlots_ok decoded inside taken
      cases refused.symm.trans read

/-- `decodeSlots` depends on the bytes of taken slots only. -/
theorem decodeSlots_congr {others : List UInt8}
    (same : ∀ slot < remaining, Layout.isSet bitmap (first + slot) = true →
      slotArea width others slot = slotArea width bytes slot) :
    decodeSlots id schema bitmap width remaining first others =
      decodeSlots id schema bitmap width remaining first bytes := by
  induction remaining generalizing first bytes others with
  | zero => rfl
  | succ remaining ih =>
      have later : decodeSlots id schema bitmap width remaining (first + 1) (others.drop width) =
          decodeSlots id schema bitmap width remaining (first + 1) (bytes.drop width) := by
        refine ih fun slot inside taken => ?_
        rw [Nat.add_right_comm, Nat.add_assoc] at taken
        rw [← slotArea_succ, ← slotArea_succ]
        exact same (slot + 1) (Nat.succ_lt_succ inside) taken
      cases taken : Layout.isSet bitmap first with
      | false => rw [decodeSlots_free_cons taken, decodeSlots_free_cons taken, later]
      | true =>
          have here := same 0 (Nat.zero_lt_succ remaining) taken
          cases decoded : Row.decode schema (slotArea width bytes 0) with
          | ok row =>
              rw [decodeSlots_taken_ok taken decoded,
                decodeSlots_taken_ok taken (by rw [here, decoded]), later]
          | error cause =>
              rw [decodeSlots_taken_error taken decoded,
                decodeSlots_taken_error taken (by rw [here, decoded])]

end Slots

/-! ### Pages -/

def slotStart (schema : Schema) (size slot : Nat) : Nat :=
  Layout.bitmapSize (Layout.slotCount size schema.width) + slot * schema.width

def bitmapIn (schema : Schema) (bytes : List UInt8) : Array UInt8 :=
  (bytes.take (Layout.bitmapSize (Layout.slotCount bytes.length schema.width))).toArray

def slotsIn (schema : Schema) (bytes : List UInt8) : List UInt8 :=
  bytes.drop (Layout.bitmapSize (Layout.slotCount bytes.length schema.width))

def areaIn (schema : Schema) (bytes : List UInt8) (slot : Nat) : List UInt8 :=
  slotArea schema.width (slotsIn schema bytes) slot

theorem size_bitmapIn (schema : Schema) (bytes : List UInt8) :
    (bitmapIn schema bytes).size =
      Layout.bitmapSize (Layout.slotCount bytes.length schema.width) := by
  have fits := Layout.bitmap_and_slots_fit bytes.length schema.width
  rw [bitmapIn, List.size_toArray, List.length_take]
  omega

theorem decode_eq_map (id : PageId) (schema : Schema) (bytes : List UInt8) :
    decode id schema bytes =
      (decodeSlots id schema (bitmapIn schema bytes) schema.width
        (Layout.slotCount bytes.length schema.width) 0 (slotsIn schema bytes)).map fun slots =>
          ⟨id, schema, bytes.length, bitmapIn schema bytes, slots.toArray, none, bytes⟩ := by
  unfold decode bitmapIn slotsIn
  simp only
  cases decodeSlots id schema _ schema.width (Layout.slotCount bytes.length schema.width) 0
    (bytes.drop (Layout.bitmapSize (Layout.slotCount bytes.length schema.width))) <;> rfl

theorem length_areaIn {schema : Schema} {bytes : List UInt8} {slot : Nat}
    (inside : slot < Layout.slotCount bytes.length schema.width) :
    (areaIn schema bytes slot).length = schema.width := by
  have fits := Layout.bitmap_and_slots_fit bytes.length schema.width
  have room := Nat.mul_le_mul_right schema.width (Nat.succ_le_of_lt inside)
  rw [Nat.succ_mul] at room
  rw [areaIn, slotsIn, slotArea, List.length_take, List.length_drop, List.length_drop]
  omega

structure HoldsText (schema : Schema) (bytes : List UInt8) (slot index : Nat) : Prop where
  inside : slot < Layout.slotCount bytes.length schema.width
  taken : Layout.isSet (bitmapIn schema bytes) slot = true
  text : schema.types[index]? = some .text

def fieldIn (schema : Schema) (bytes : List UInt8) (slot index : Nat) : List UInt8 :=
  columnBytes schema.types (areaIn schema bytes slot) index

end Page

end RecordStore
