import RecordStore.Proofs.Page.Fields

set_option autoImplicit false

/-! The bytes that encoding a decoded page may change are at `Slack` positions: after a text in its
room, in a free slot, or past the last slot. -/

namespace RecordStore

/-! ### Values -/

theorem wordBytes_wordOfBytes (first second third fourth : UInt8) :
    wordBytes (wordOfBytes first second third fourth) = [first, second, third, fourth] := by
  have bounds := And.intro first.toNat_lt (And.intro second.toNat_lt
    (And.intro third.toNat_lt fourth.toNat_lt))
  have value : (wordOfBytes first second third fourth).toNat =
      ((first.toNat * 256 + second.toNat) * 256 + third.toNat) * 256 + fourth.toNat := by
    rw [wordOfBytes, UInt32.toNat_ofNat_of_lt' (by simp only [UInt32.size]; omega)]
  simp only [wordBytes, value, List.cons.injEq, and_true, ← UInt8.toNat_inj, UInt8.toNat_ofNat']
  omega

theorem wordBytes_leadingNumber {bytes : List UInt8} (enough : 4 ≤ bytes.length) :
    wordBytes (leadingNumber bytes).toUInt32 = bytes.take 4 := by
  match bytes, enough with
  | first :: second :: third :: fourth :: rest, _ =>
      rw [leadingNumber, UInt32.toUInt32_toInt32, wordBytes_wordOfBytes]
      rfl

theorem ofNat_countOf {field : List UInt8} (measured : Measured field) :
    UInt32.ofNat (countOf field) = (leadingNumber field).toUInt32 := by
  have same : (UInt32.ofNat (countOf field)).toInt32 = leadingNumber field := by
    rw [← Int32.toInt_inj, toInt_length measured.countOf_le, countOf]
    exact Int.toNat_of_nonneg measured.1
  rw [← same, UInt32.toUInt32_toInt32]

theorem length_countedBytes {field : List UInt8} (measured : Measured field)
    (enough : 4 + textRoom ≤ field.length) : (countedBytes field).length = countOf field := by
  have fits := measured.countOf_le
  rw [countedBytes, List.length_take, List.length_drop]
  omega

/-- A decoded text is encoded as it was, with zeros behind the counted bytes. -/
theorem encode_of_decode_text {bytes rest : List UInt8} {value : Value}
    (enough : 4 + textRoom ≤ bytes.length)
    (decoded : ColumnType.text.decode bytes = .ok (value, rest)) :
    value.encode = bytes.take (4 + countOf bytes) ++
      List.replicate (textRoom - countOf bytes) 0 := by
  rw [ColumnType.decode_text enough] at decoded
  obtain ⟨found, read, same⟩ := found_of_map_ok decoded
  cases same
  obtain ⟨measured, characters, counted, rfl⟩ := readText_ok read
  have bytesOf := Utf8.encode_of_decode counted
  have length := length_countedBytes measured enough
  have stored : storedText (String.ofList characters) = countedBytes bytes := by
    rw [storedText, String.toList_ofList, (Utf8.clip_eq_self_iff textRoom characters).mpr, bytesOf]
    rw [bytesOf, length]
    exact measured.countOf_le
  rw [Value.encode_text, paddedText, stored, length, ofNat_countOf measured,
    wordBytes_leadingNumber (Nat.le_trans (Nat.le_add_right 4 textRoom) enough),
    ← List.append_assoc, countedBytes, ← List.take_add]

/-- A decoded value is encoded as it was, except behind the counted bytes of a text. -/
theorem encode_or_behind {type : ColumnType} {bytes rest : List UInt8} {value : Value}
    (enough : type.width ≤ bytes.length) (decoded : type.decode bytes = .ok (value, rest))
    {offset : Nat} (inside : offset < type.width) :
    value.encode[offset]? = bytes[offset]? ∨ type = .text ∧ 4 + countOf bytes ≤ offset := by
  cases type with
  | int =>
      rw [ColumnType.decode_int enough] at decoded
      cases decoded
      rw [Value.encode, wordBytes_leadingNumber enough]
      exact .inl (List.getElem?_take_of_lt inside)
  | text =>
      rw [encode_of_decode_text enough decoded]
      by_cases counts : offset < 4 + countOf bytes
      · have room : offset < (bytes.take (4 + countOf bytes)).length := by
          rw [List.length_take]
          exact Nat.lt_min.mpr ⟨counts, Nat.lt_of_lt_of_le inside enough⟩
        rw [List.getElem?_append_left room, List.getElem?_take_of_lt counts]
        exact .inl rfl
      · exact .inr ⟨rfl, Nat.le_of_not_lt counts⟩

/-! ### Rows -/

def columnStart : List ColumnType → Nat → Nat
  | type :: types, index + 1 => type.width + columnStart types index
  | _, _ => 0

inductive Behind (types : List ColumnType) (bytes : List UInt8) : Nat → Prop where
  | text {index offset : Nat} : types[index]? = some .text →
      4 + countOf (columnBytes types bytes index) ≤ offset → offset < ColumnType.text.width →
      Behind types bytes (columnStart types index + offset)

theorem Behind.first {types : List ColumnType} {bytes : List UInt8} {offset : Nat}
    (counted : 4 + countOf bytes ≤ offset) (inside : offset < ColumnType.text.width) :
    Behind (.text :: types) bytes offset := by
  have count : countOf (bytes.take ColumnType.text.width) = countOf bytes := by
    rw [countOf, leadingNumber_take (by decide), countOf]
  rw [← count] at counted
  rw [← Nat.zero_add offset]
  exact @Behind.text (.text :: types) bytes 0 offset rfl counted inside

theorem Behind.later {type : ColumnType} {types : List ColumnType} {bytes : List UInt8}
    {offset : Nat} (behind : Behind types (bytes.drop type.width) offset) :
    Behind (type :: types) bytes (type.width + offset) := by
  cases behind with
  | @text index offset text counted inside =>
      rw [← Nat.add_assoc]
      exact @Behind.text (type :: types) bytes (index + 1) offset text counted inside

theorem encodeValues_or_behind {types : List ColumnType} {bytes rest : List UInt8}
    {values : List Value} (enough : rowWidth types ≤ bytes.length)
    (decoded : Row.decodeValues types bytes = .ok (values, rest)) {offset : Nat}
    (inside : offset < rowWidth types) :
    (values.flatMap Value.encode)[offset]? = bytes[offset]? ∨ Behind types bytes offset := by
  induction types generalizing bytes values offset with
  | nil => exact absurd inside (Nat.not_lt_zero offset)
  | cons type types ih =>
      rw [rowWidth_cons] at enough inside
      have wide : type.width ≤ bytes.length := by omega
      cases first : type.decode bytes with
      | error error =>
          rw [Row.decodeValues_cons_error first] at decoded
          cases decoded
      | ok pair =>
          obtain ⟨value, between⟩ := pair
          obtain rfl := type.rest_of_decode wide first
          rw [Row.decodeValues_cons_ok first] at decoded
          obtain ⟨parts, others, same⟩ := found_of_map_ok decoded
          cases same
          have length : value.encode.length = type.width := by
            rw [Value.length_encode, ColumnType.type_of_decode first]
          rw [List.flatMap_cons]
          by_cases here : offset < type.width
          · rw [List.getElem?_append_left (by rwa [length])]
            rcases encode_or_behind wide first here with same | ⟨rfl, counted⟩
            · exact .inl same
            · exact .inr (.first counted here)
          · obtain ⟨more, rfl⟩ := Nat.exists_eq_add_of_le (Nat.le_of_not_lt here)
            have room : rowWidth types ≤ (bytes.drop type.width).length := by
              rw [List.length_drop]
              omega
            rw [List.getElem?_append_right (by rw [length]; omega), length,
              Nat.add_sub_cancel_left]
            rcases ih room others (Nat.lt_of_add_lt_add_left inside) with same | behind
            · left
              rw [same, List.getElem?_drop]
            · exact .inr behind.later

/-! ### Slots -/

namespace Row

theorem values_of_decode {schema : Schema} {bytes : List UInt8} {row : Row}
    (decoded : decode schema bytes = .ok row) :
    ∃ rest, decodeValues schema.types bytes = .ok (row.values, rest) := by
  unfold decode at decoded
  split at decoded
  · cases decoded
  · next values rest accepted =>
      cases decoded
      exact ⟨rest, accepted⟩

end Row

namespace Page

variable {id : PageId} {schema : Schema} {bytes : List UInt8} {page : Page} {size slot : Nat}

theorem row_of_decode (decoded : decode id schema bytes = .ok page)
    (inside : slot < Layout.slotCount bytes.length schema.width)
    (taken : Layout.isSet (bitmapIn schema bytes) slot = true) :
    ∃ row rest, page.row? slot = some row ∧
      Row.decodeValues schema.types (areaIn schema bytes slot) = .ok (row.values, rest) := by
  rw [decode_eq_map] at decoded
  obtain ⟨entries, slots, rfl⟩ := found_of_map_ok decoded
  rw [← Nat.zero_add slot] at taken
  obtain ⟨row, read, present⟩ := decodeSlots_ok slots inside taken
  obtain ⟨rest, values⟩ := Row.values_of_decode read
  refine ⟨row.placed (some ⟨id, 0 + slot⟩), rest, ?_, values⟩
  rw [row?_eq_getElem?, List.getElem?_toArray, present]
  rfl

theorem slotArea_slotsBytes {entries : List (Option Row)}
    (fits : ∀ entry ∈ entries, EntryFits schema entry) (rest : List UInt8) {entry : Option Row}
    (present : entries[slot]? = some entry) :
    slotArea schema.width (entries.flatMap (slotBytes schema.width) ++ rest) slot =
      slotBytes schema.width entry := by
  induction entries generalizing slot with
  | nil => cases present
  | cons first entries ih =>
      have length := length_slotBytes (fits first List.mem_cons_self)
      rw [List.flatMap_cons, List.append_assoc]
      cases slot with
      | zero =>
          cases present
          rw [slotArea, Nat.zero_mul, List.drop_zero, List.take_left' length]
      | succ slot =>
          rw [slotArea_succ, List.drop_left' length]
          exact ih (fun other member => fits other (List.mem_cons_of_mem first member)) present

/-- The bytes of a slot in the encoding of a page. -/
theorem Sound.areaIn_encode (sound : page.Sound schema size) (inside : slot < page.slotCount) :
    areaIn schema page.encode slot = slotBytes schema.width (page.row? slot) := by
  have present : page.slots.toList[slot]? = some (page.row? slot) := by
    rw [Array.getElem?_toList, row?_eq_getElem?, Array.getElem?_eq_getElem inside]
    rfl
  rw [areaIn, slotsIn, sound.length_encode, sound.encode_eq,
    List.drop_left' sound.length_bitmap]
  exact slotArea_slotsBytes sound.entryFits _ present

/-! ### Pages -/

theorem getElem?_areaIn {offset : Nat} (inside : offset < schema.width) :
    (areaIn schema bytes slot)[offset]? =
      bytes[slotStart schema bytes.length slot + offset]? := by
  rw [areaIn, slotsIn, slotArea, List.getElem?_take_of_lt inside, List.getElem?_drop,
    List.getElem?_drop, slotStart, Nat.add_assoc]

inductive Slack (schema : Schema) (bytes : List UInt8) : Nat → Prop where
  | free {slot offset : Nat} : slot < Layout.slotCount bytes.length schema.width →
      Layout.isSet (bitmapIn schema bytes) slot = false → offset < schema.width →
      Slack schema bytes (slotStart schema bytes.length slot + offset)
  | padding {slot index offset : Nat} : HoldsText schema bytes slot index →
      4 + countOf (fieldIn schema bytes slot index) ≤ offset → offset < ColumnType.text.width →
      Slack schema bytes
        (slotStart schema bytes.length slot + (columnStart schema.types index + offset))
  | tail {position : Nat} :
      slotStart schema bytes.length (Layout.slotCount bytes.length schema.width) ≤ position →
      Slack schema bytes position

theorem Slack.behind {offset : Nat} (inside : slot < Layout.slotCount bytes.length schema.width)
    (taken : Layout.isSet (bitmapIn schema bytes) slot = true)
    (behind : Behind schema.types (areaIn schema bytes slot) offset) :
    Slack schema bytes (slotStart schema bytes.length slot + offset) := by
  cases behind with
  | text text counted room => exact .padding ⟨inside, taken, text⟩ counted room

/-- A position outside the bitmap and not behind the last slot is in a slot. -/
theorem slot_of_position {size position : Nat}
    (front : Layout.bitmapSize (Layout.slotCount size schema.width) ≤ position)
    (behind : position < slotStart schema size (Layout.slotCount size schema.width)) :
    ∃ slot < Layout.slotCount size schema.width, ∃ offset < schema.width,
      position = slotStart schema size slot + offset := by
  obtain ⟨more, rfl⟩ := Nat.exists_eq_add_of_le front
  rw [slotStart, Nat.add_lt_add_iff_left] at behind
  have wide : 0 < schema.width := Nat.pos_of_ne_zero fun zero => by
    rw [zero, Nat.mul_zero] at behind
    exact Nat.not_lt_zero more behind
  refine ⟨more / schema.width, (Nat.div_lt_iff_lt_mul wide).mpr behind,
    more % schema.width, Nat.mod_lt more wide, ?_⟩
  rw [slotStart, Nat.add_assoc, Nat.mul_comm, Nat.div_add_mod]

/-- A decoded page is encoded as it was, except at `Slack` positions. -/
theorem encode_or_slack (decoded : decode id schema bytes = .ok page) (position : Nat) :
    page.encode[position]? = bytes[position]? ∨ Slack schema bytes position := by
  have loaded := loaded_of_decode decoded
  have sound := loaded.sound
  by_cases front : position < Layout.bitmapSize (Layout.slotCount bytes.length schema.width)
  · left
    rw [sound.encode_eq, List.getElem?_append_left (by rwa [sound.length_bitmap]),
      loaded.bitmapIs, List.getElem?_take_of_lt front]
  by_cases behind :
      slotStart schema bytes.length (Layout.slotCount bytes.length schema.width) ≤ position
  · exact .inr (.tail behind)
  obtain ⟨slot, inside, offset, narrow, rfl⟩ :=
    slot_of_position (Nat.le_of_not_lt front) (Nat.lt_of_not_le behind)
  cases taken : Layout.isSet (bitmapIn schema bytes) slot with
  | false => exact .inr (.free inside taken narrow)
  | true =>
      obtain ⟨row, rest, present, values⟩ := row_of_decode decoded inside taken
      have written : page.encode[slotStart schema bytes.length slot + offset]? =
          (row.values.flatMap Value.encode)[offset]? := by
        have area := sound.areaIn_encode (Nat.lt_of_lt_of_eq inside sound.slotsSize.symm)
        rw [present] at area
        rw [← sound.length_encode, ← getElem?_areaIn narrow, area]
        rfl
      rw [written, ← getElem?_areaIn narrow]
      rcases encodeValues_or_behind (Nat.le_of_eq (length_areaIn inside).symm) values narrow with
        same | behind
      · exact .inl same
      · exact .inr (.behind inside taken behind)

end Page

end RecordStore
