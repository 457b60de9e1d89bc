import RecordStore.Proofs.Page.Fields

set_option autoImplicit false

/-! `decode` in terms of byte positions. A checked variant in machine words never leaves the bytes.
A page is refused for its first bad text only, and bytes of free slots and past the last slot have
no effect. -/

namespace RecordStore

/-! ### Bytes by position -/

def word? (number : Nat) : Option Nat := if number < wordLimit then some number else none

def slice? (bytes : List UInt8) (start stop : Nat) : Option (List UInt8) :=
  if start ≤ stop ∧ stop ≤ bytes.length then some ((bytes.take stop).drop start) else none

theorem word?_eq {number : Nat} (fits : number < wordLimit) : word? number = some number :=
  if_pos fits

theorem slice?_eq {bytes : List UInt8} {start stop : Nat} (ordered : start ≤ stop)
    (inside : stop ≤ bytes.length) : slice? bytes start stop = some ((bytes.take stop).drop start) :=
  if_pos ⟨ordered, inside⟩

def readText? (length : Int32) (payload : List UInt8) : Option (Except StorageError Value) :=
  if length < 0 ∨ textRoom < length.toInt.toNat then some (.error (.corrupt (.textLength length)))
  else do
    let counted ← slice? payload 0 length.toInt.toNat
    match Utf8.decode counted with
    | .error fault => some (.error (.corrupt (.badText fault)))
    | .ok characters => some (.ok (.text (String.ofList characters)))

theorem readText?_eq (length : Int32) {payload : List UInt8} (whole : payload.length = textRoom) :
    readText? length payload = some (readText length payload) := by
  unfold readText? readText
  by_cases outside : length < 0 ∨ textRoom < length.toInt.toNat
  · rw [if_pos outside, if_pos outside]
  · have inside : length.toInt.toNat ≤ payload.length := by omega
    simp only [if_neg outside, slice?_eq (Nat.zero_le _) inside, List.drop_zero,
      Option.bind_eq_bind, Option.bind_some]
    cases Utf8.decode (payload.take length.toInt.toNat) <;> rfl

def ColumnType.decode? (type : ColumnType) (bytes : List UInt8) :
    Option (Except StorageError (Value × List UInt8)) :=
  match type with
  | .int => some (ColumnType.int.decode bytes)
  | .text =>
      match readWord bytes with
      | .error error => some (.error error)
      | .ok (length, rest) =>
          match readBytes textRoom rest with
          | .error error => some (.error error)
          | .ok (payload, rest) => do
              let read ← readText? length payload
              some (read.map (·, rest))

theorem ColumnType.decode?_eq (type : ColumnType) (bytes : List UInt8) :
    type.decode? bytes = some (type.decode bytes) := by
  cases type with
  | int => rfl
  | text =>
      unfold ColumnType.decode? ColumnType.decode
      cases readWord bytes with
      | error error => rfl
      | ok pair =>
          obtain ⟨length, rest⟩ := pair
          simp only
          cases taken : readBytes textRoom rest with
          | error error => rfl
          | ok parts =>
              obtain ⟨payload, rest⟩ := parts
              have whole : payload.length = textRoom := by
                unfold readBytes at taken
                split at taken
                · next enough =>
                    cases taken
                    exact enough
                · cases taken
              simp only [readText?_eq length whole]
              cases readText length payload <;> rfl

namespace Row

def decodeValues? : List ColumnType → List UInt8 →
    Option (Except StorageError (List Value × List UInt8))
  | [], bytes => some (.ok ([], bytes))
  | type :: types, bytes => do
      match ← type.decode? bytes with
      | .error error => some (.error error)
      | .ok (value, rest) =>
          let others ← decodeValues? types rest
          some (others.map fun parts => (value :: parts.1, parts.2))

theorem decodeValues?_eq (types : List ColumnType) (bytes : List UInt8) :
    decodeValues? types bytes = some (decodeValues types bytes) := by
  induction types generalizing bytes with
  | nil => rfl
  | cons type types ih =>
      unfold decodeValues?
      rw [ColumnType.decode?_eq]
      cases first : type.decode bytes with
      | error error => rw [decodeValues_cons_error first]; rfl
      | ok pair =>
          rw [decodeValues_cons_ok first]
          simp only [ih, Option.bind_eq_bind, Option.bind_some]

def decode? (schema : Schema) (bytes : List UInt8) : Option (Except StorageError Row) :=
  match read : decodeValues? schema.types bytes with
  | none => none
  | some (.error error) => some (.error error)
  | some (.ok (values, _)) =>
      some (.ok ⟨schema, values, none, types_of_decodeValues
        (Option.some.inj ((decodeValues?_eq schema.types bytes).symm.trans read))⟩)

theorem decode?_eq (schema : Schema) (bytes : List UInt8) :
    decode? schema bytes = some (decode schema bytes) := by
  unfold decode?
  split
  · next missed =>
      rw [decodeValues?_eq] at missed
      cases missed
  · next error refused =>
      rw [decodeValues?_eq] at refused
      rw [decode_error_iff.mpr (Option.some.inj refused)]
  · next values rest accepted =>
      rw [decodeValues?_eq] at accepted
      rw [decode_of_decodeValues (Option.some.inj accepted)]

end Row

namespace Page

/-- `decodeSlots` with every index and every product checked. -/
def decodeSlots? (id : PageId) (schema : Schema) (bytes : List UInt8) (bitmap : Array UInt8) :
    (remaining slot : Nat) → Option (Except StorageError (List (Option Row)))
  | 0, _ => some (.ok [])
  | remaining + 1, slot => do
      let byte ← bitmap[slot / 8]?
      if byte &&& Layout.mask slot != 0 then
        let offset ← word? (slot * schema.width)
        let start ← word? (bitmap.size + offset)
        let stop ← word? (start + schema.width)
        let area ← slice? bytes start stop
        match ← Row.decode? schema area with
        | .error error => some (.error error)
        | .ok row =>
            let others ← decodeSlots? id schema bytes bitmap remaining (slot + 1)
            some (others.map (some (row.placed (some ⟨id, slot⟩)) :: ·))
      else
        let others ← decodeSlots? id schema bytes bitmap remaining (slot + 1)
        some (others.map (none :: ·))

def decode? (id : PageId) (schema : Schema) (bytes : List UInt8) :
    Option (Except StorageError Page) := do
  let bits ← word? (bytes.length * 8)
  let slotBits ← word? (schema.width * 8 + 1)
  let slotCount := bits / slotBits
  let bitmap ← slice? bytes 0 (Layout.bitmapSize slotCount)
  match ← decodeSlots? id schema bytes bitmap.toArray slotCount 0 with
  | .error error => some (.error error)
  | .ok slots =>
      some (.ok ⟨id, schema, bytes.length, bitmap.toArray, slots.toArray, none, bytes⟩)

theorem getElem?_byte {bitmap : Array UInt8} {slot : Nat} (inside : slot / 8 < bitmap.size) :
    bitmap[slot / 8]? = some (bitmap.getD (slot / 8) 0) := by
  rw [Array.getElem?_eq_getElem inside, Array.getD_eq_getD_getElem?,
    Array.getElem?_eq_getElem inside]
  rfl

theorem slice?_area {bytes : List UInt8} {start width : Nat} (room : start + width ≤ bytes.length) :
    slice? bytes start (start + width) = some (slotArea width (bytes.drop start) 0) := by
  rw [slice?_eq (Nat.le_add_right start width) room, slotArea, Nat.zero_mul, List.drop_zero,
    List.drop_take, Nat.add_sub_cancel_left]

theorem decodeSlots?_eq {id : PageId} {schema : Schema} {bytes : List UInt8}
    {bitmap : Array UInt8} {remaining slot : Nat} (limit : bytes.length < wordLimit)
    (bits : slot + remaining ≤ bitmap.size * 8)
    (areas : bitmap.size + (slot + remaining) * schema.width ≤ bytes.length) :
    decodeSlots? id schema bytes bitmap remaining slot =
      some (decodeSlots id schema bitmap schema.width remaining slot
        (bytes.drop (bitmap.size + slot * schema.width))) := by
  induction remaining generalizing slot with
  | zero => rfl
  | succ remaining ih =>
      have later := @ih (slot + 1) (by omega) (by rwa [Nat.add_right_comm, Nat.add_assoc])
      have next : (bytes.drop (bitmap.size + slot * schema.width)).drop schema.width =
          bytes.drop (bitmap.size + (slot + 1) * schema.width) := by
        rw [List.drop_drop, Nat.succ_mul, Nat.add_assoc]
      have byte := getElem?_byte (by omega : slot / 8 < bitmap.size)
      have room : bitmap.size + slot * schema.width + schema.width ≤ bytes.length := by
        have split : (slot + (remaining + 1)) * schema.width =
            slot * schema.width + schema.width + remaining * schema.width := by
          rw [Nat.add_mul, Nat.succ_mul]
          omega
        omega
      have area := slice?_area room
      have bit : (bitmap.getD (slot / 8) 0 &&& Layout.mask slot != 0) =
          Layout.isSet bitmap slot := rfl
      unfold decodeSlots?
      cases taken : Layout.isSet bitmap slot with
      | false =>
          rw [decodeSlots_free_cons taken, next]
          simp only [byte, bit, taken, later, Option.bind_eq_bind, Option.bind_some]
          rfl
      | true =>
          have offset : word? (slot * schema.width) = some _ := word?_eq (by omega)
          have start : word? (bitmap.size + slot * schema.width) = some _ := word?_eq (by omega)
          have stop : word? (bitmap.size + slot * schema.width + schema.width) = some _ :=
            word?_eq (by omega)
          simp only [byte, bit, taken, offset, start, stop, area, later, Row.decode?_eq,
            Option.bind_eq_bind, Option.bind_some, if_true]
          cases decoded : Row.decode schema
              (slotArea schema.width (bytes.drop (bitmap.size + slot * schema.width)) 0) with
          | error error => rw [decodeSlots_taken_error taken decoded]
          | ok row => rw [decodeSlots_taken_ok taken decoded, next]

variable {id : PageId} {schema : Schema} {bytes : List UInt8}

theorem decode?_eq (limit : bytes.length * 8 < wordLimit)
    (narrow : schema.width * 8 + 1 < wordLimit) :
    decode? id schema bytes = some (decode id schema bytes) := by
  have fits := Layout.bitmap_and_slots_fit bytes.length schema.width
  have size := size_bitmapIn schema bytes
  have bitmap : slice? bytes 0 (Layout.bitmapSize (Layout.slotCount bytes.length schema.width)) =
      some (bytes.take (Layout.bitmapSize (Layout.slotCount bytes.length schema.width))) :=
    slice?_eq (Nat.zero_le _) (by omega)
  have slots := @decodeSlots?_eq id schema bytes (bitmapIn schema bytes)
    (Layout.slotCount bytes.length schema.width) 0 (by omega)
    (by rw [size, Layout.bitmapSize]; omega) (by rw [size, Nat.zero_add]; exact fits)
  rw [Nat.zero_mul, Nat.add_zero, size] at slots
  have count : bytes.length * 8 / (schema.width * 8 + 1) =
      Layout.slotCount bytes.length schema.width := rfl
  rw [bitmapIn] at slots
  rw [decode_eq_map, bitmapIn, slotsIn]
  simp only [decode?, word?_eq limit, word?_eq narrow, count, bitmap, slots, Option.bind_eq_bind,
    Option.bind_some]
  cases decodeSlots id schema _ schema.width (Layout.slotCount bytes.length schema.width) 0
    (bytes.drop (Layout.bitmapSize (Layout.slotCount bytes.length schema.width))) <;> rfl

/-! ### Refused pages -/

/-- The field in this column of a taken slot is a bad text. -/
structure BadField (schema : Schema) (bytes : List UInt8) (slot index : Nat)
    (cause : Corruption) : Prop where
  held : HoldsText schema bytes slot index
  bad : BadText (fieldIn schema bytes slot index) cause

/-- No field before this one, by slot and column, is a bad text. -/
def FirstBad (schema : Schema) (bytes : List UInt8) (slot index : Nat) : Prop :=
  ∀ other column reason, BadField schema bytes other column reason →
    slot < other ∨ slot = other ∧ index ≤ column

theorem row_bad {slot index : Nat} {cause : Corruption}
    (inside : slot < Layout.slotCount bytes.length schema.width)
    (column : BadColumn schema.types (areaIn schema bytes slot) index cause) :
    ∃ error, Row.decode schema (areaIn schema bytes slot) = .error error := by
  obtain ⟨error, failed⟩ :=
    Row.decodeValues_bad (Nat.le_of_eq (length_areaIn inside).symm) column
  exact ⟨error, Row.decode_error_iff.mpr failed⟩

theorem row_error_iff {slot : Nat} {error : StorageError}
    (inside : slot < Layout.slotCount bytes.length schema.width) :
    Row.decode schema (areaIn schema bytes slot) = .error error ↔
      ∃ index cause, BadColumn schema.types (areaIn schema bytes slot) index cause ∧
        error = .corrupt cause ∧
        ∀ other reason, BadColumn schema.types (areaIn schema bytes slot) other reason →
          index ≤ other := by
  rw [Row.decode_error_iff]
  exact Row.decodeValues_error_iff (Nat.le_of_eq (length_areaIn inside).symm)

/-- `decode` fails with the first bad text. -/
theorem decode_error_iff {error : StorageError} :
    decode id schema bytes = .error error ↔
      ∃ slot index cause, BadField schema bytes slot index cause ∧
        FirstBad schema bytes slot index ∧ error = .corrupt cause := by
  rw [decode_eq_map, map_error_iff, decodeSlots_error_iff]
  constructor
  · rintro ⟨slot, inside, taken, refused, before⟩
    rw [Nat.zero_add] at taken
    obtain ⟨index, cause, column, rfl, least⟩ := (row_error_iff inside).mp refused
    refine ⟨slot, index, cause, ⟨⟨inside, taken, column.text⟩, column.bad⟩, ?_, rfl⟩
    rintro other also reason ⟨⟨within, held, text⟩, bad⟩
    rcases Nat.lt_trichotomy slot other with later | rfl | earlier
    · exact .inl later
    · exact .inr ⟨rfl, least also reason ⟨text, bad⟩⟩
    · obtain ⟨row, read⟩ := before other earlier (by rwa [Nat.zero_add])
      obtain ⟨error, failed⟩ := row_bad within ⟨text, bad⟩
      cases read.symm.trans failed
  · rintro ⟨slot, index, cause, ⟨⟨inside, taken, text⟩, bad⟩, first, rfl⟩
    refine ⟨slot, inside, by rwa [Nat.zero_add], ?_, fun earlier smaller held => ?_⟩
    · refine (row_error_iff inside).mpr ⟨index, cause, ⟨text, bad⟩, rfl, ?_⟩
      intro other reason column
      have order := first slot other reason ⟨⟨inside, taken, column.text⟩, column.bad⟩
      omega
    · cases read : Row.decode schema (areaIn schema bytes earlier) with
      | ok row => exact ⟨row, read⟩
      | error error =>
          obtain ⟨column, reason, also, -⟩ := (row_error_iff (by omega)).mp read
          rw [Nat.zero_add] at held
          have order := first earlier column reason
            ⟨⟨by omega, held, also.text⟩, also.bad⟩
          omega

/-- `decode` fails iff a taken slot has a bad text. -/
theorem decode_refused_iff :
    (∃ error, decode id schema bytes = .error error) ↔
      ∃ slot index cause, BadField schema bytes slot index cause := by
  constructor
  · rintro ⟨error, failed⟩
    obtain ⟨slot, index, cause, field, -⟩ := decode_error_iff.mp failed
    exact ⟨slot, index, cause, field⟩
  · rintro ⟨slot, index, cause, ⟨inside, taken, text⟩, bad⟩
    obtain ⟨error, refused⟩ := row_bad inside ⟨text, bad⟩
    rw [← Nat.zero_add slot] at taken
    obtain ⟨reason, failed⟩ := decodeSlots_bad inside taken refused
    exact ⟨reason, by rw [decode_eq_map, failed]; rfl⟩

/-! ### Bytes without effect -/

structure Indistinct (schema : Schema) (bytes others : List UInt8) : Prop where
  length : others.length = bytes.length
  bitmap : ∀ position < Layout.bitmapSize (Layout.slotCount bytes.length schema.width),
    others[position]? = bytes[position]?
  slots : ∀ slot < Layout.slotCount bytes.length schema.width,
    Layout.isSet (bitmapIn schema bytes) slot = true →
      ∀ offset < schema.width,
        others[slotStart schema bytes.length slot + offset]? =
          bytes[slotStart schema bytes.length slot + offset]?

private theorem take_drop_congr {bytes others : List UInt8} {start count : Nat}
    (same : ∀ offset < count, others[start + offset]? = bytes[start + offset]?) :
    (others.drop start).take count = (bytes.drop start).take count := by
  refine List.ext_getElem? fun index => ?_
  simp only [List.getElem?_take, List.getElem?_drop]
  split
  · next inside => exact same index inside
  · rfl

namespace Indistinct

variable {others : List UInt8}

theorem bitmapIn_eq (same : Indistinct schema bytes others) :
    bitmapIn schema others = bitmapIn schema bytes := by
  have front := @take_drop_congr bytes others 0
    (Layout.bitmapSize (Layout.slotCount bytes.length schema.width))
    fun offset inside => by rw [Nat.zero_add, same.bitmap offset inside]
  rw [List.drop_zero, List.drop_zero] at front
  rw [bitmapIn, bitmapIn, same.length, front]

theorem areaIn_eq (same : Indistinct schema bytes others) {slot : Nat}
    (inside : slot < Layout.slotCount bytes.length schema.width)
    (taken : Layout.isSet (bitmapIn schema bytes) slot = true) :
    areaIn schema others slot = areaIn schema bytes slot := by
  simp only [areaIn, slotsIn, slotArea, List.drop_drop, same.length]
  exact take_drop_congr (same.slots slot inside taken)

/-- Indistinct bytes decode to the same page, up to its before-image, or to the same error. -/
theorem decode_eq (same : Indistinct schema bytes others) :
    decode id schema others =
      (decode id schema bytes).map fun page => { page with beforeImage := others } := by
  have slots : decodeSlots id schema (bitmapIn schema bytes) schema.width
        (Layout.slotCount bytes.length schema.width) 0 (slotsIn schema others) =
      decodeSlots id schema (bitmapIn schema bytes) schema.width
        (Layout.slotCount bytes.length schema.width) 0 (slotsIn schema bytes) := by
    refine decodeSlots_congr fun slot inside taken => ?_
    rw [Nat.zero_add] at taken
    exact same.areaIn_eq inside taken
  rw [decode_eq_map, decode_eq_map, same.length, same.bitmapIn_eq, slots]
  cases decodeSlots id schema (bitmapIn schema bytes) schema.width
    (Layout.slotCount bytes.length schema.width) 0 (slotsIn schema bytes) <;> rfl

end Indistinct

/-- The checked `decode?` never leaves the bytes, and agrees with `decode`. It fails iff a taken
slot has a text with a length out of range or with bytes that are no UTF-8, with the cause of the
first such text. Bytes outside the bitmap and the taken slots do not matter. -/
theorem decode_judges_texts_of_taken_slots (id : PageId) (schema : Schema) (bytes : List UInt8)
    (limit : bytes.length * 8 < wordLimit) (narrow : schema.width * 8 + 1 < wordLimit) :
    decode? id schema bytes = some (decode id schema bytes) ∧
    ((∃ error, decode id schema bytes = .error error) ↔
      ∃ slot index, HoldsText schema bytes slot index ∧
        (¬ Measured (fieldIn schema bytes slot index) ∨
          ∀ characters, Utf8.encode characters ≠ countedBytes (fieldIn schema bytes slot index))) ∧
    (∀ error, decode id schema bytes = .error error ↔
      ∃ slot index cause, BadField schema bytes slot index cause ∧
        FirstBad schema bytes slot index ∧ error = .corrupt cause) ∧
    (∀ others, Indistinct schema bytes others →
      decode id schema others =
        (decode id schema bytes).map fun page => { page with beforeImage := others }) := by
  refine ⟨decode?_eq limit narrow, ?_, fun error => decode_error_iff, fun others same =>
    same.decode_eq⟩
  rw [decode_refused_iff]
  constructor
  · rintro ⟨slot, index, cause, held, bad⟩
    exact ⟨slot, index, held, (exists_badText_iff _).mp ⟨cause, bad⟩⟩
  · rintro ⟨slot, index, held, wrong⟩
    obtain ⟨cause, bad⟩ := (exists_badText_iff _).mpr wrong
    exact ⟨slot, index, cause, held, bad⟩

/-- Two texts, of which the first is freed and the second is no UTF-8. -/
def spoilt (rubbish : UInt8) : List UInt8 :=
  [2] ++ List.replicate 132 rubbish ++ (wordBytes 2 ++ [65, 255] ++ List.replicate 126 0) ++
    List.replicate 35 rubbish

set_option maxRecDepth 4096 in
theorem decode_judges_texts_of_taken_slots_small :
    decode? ⟨⟨7⟩, 0⟩ (.ofTypes [.text]) (spoilt 170) =
        some (.error (.corrupt (.badText ⟨1, some 1⟩))) ∧
      (∃ slot index, HoldsText (.ofTypes [.text]) (spoilt 170) slot index ∧
        (¬ Measured (fieldIn (.ofTypes [.text]) (spoilt 170) slot index) ∨
          ∀ characters, Utf8.encode characters ≠
            countedBytes (fieldIn (.ofTypes [.text]) (spoilt 170) slot index))) ∧
      decode ⟨⟨7⟩, 0⟩ (.ofTypes [.text]) (spoilt 85) =
        .error (.corrupt (.badText ⟨1, some 1⟩)) := by
  have limits : (spoilt 170).length * 8 < wordLimit ∧
      (Schema.ofTypes [.text]).width * 8 + 1 < wordLimit := by decide +kernel
  obtain ⟨safe, refused, -, same⟩ := decode_judges_texts_of_taken_slots ⟨⟨7⟩, 0⟩
    (.ofTypes [.text]) (spoilt 170) limits.1 limits.2
  have failed : decode ⟨⟨7⟩, 0⟩ (.ofTypes [.text]) (spoilt 170) =
      .error (.corrupt (.badText ⟨1, some 1⟩)) := rfl
  refine ⟨by rw [safe, failed], refused.mp ⟨_, failed⟩, ?_⟩
  rw [same (spoilt 85) ⟨rfl, by decide +kernel, by decide +kernel⟩, failed]
  rfl

end Page

end RecordStore
