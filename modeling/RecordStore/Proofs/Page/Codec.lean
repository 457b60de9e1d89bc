import RecordStore.Proofs.Page.Sound

set_option autoImplicit false

/-! The encoding of a sound page has the size of the page, and decodes to the same bitmap and values
as they are stored. -/

namespace RecordStore

namespace Page

def EntryFits (schema : Schema) (entry : Option Row) : Prop :=
  ∀ row, entry = some row → row.schema.types = schema.types

theorem length_slotBytes {schema : Schema} {entry : Option Row} (fits : EntryFits schema entry) :
    (slotBytes schema.width entry).length = schema.width := by
  cases entry with
  | none => exact List.length_replicate
  | some row =>
      have types := fits row rfl
      rw [slotBytes, Row.length_encode, Schema.width, types]
      rfl

theorem length_slotsBytes {schema : Schema} {entries : List (Option Row)}
    (fits : ∀ entry ∈ entries, EntryFits schema entry) :
    (entries.flatMap (slotBytes schema.width)).length = entries.length * schema.width := by
  induction entries with
  | nil => simp
  | cons entry entries ih =>
      have here := length_slotBytes (fits entry List.mem_cons_self)
      have later := ih fun other member => fits other (List.mem_cons_of_mem entry member)
      rw [List.flatMap_cons, List.length_append, here, later, List.length_cons, Nat.succ_mul,
        Nat.add_comm]

theorem Sound.entryFits {page : Page} {schema : Schema} {size : Nat}
    (sound : page.Sound schema size) : ∀ entry ∈ page.slots.toList, EntryFits schema entry := by
  intro entry member row same
  subst same
  obtain ⟨slot, inside, present⟩ := List.mem_iff_getElem.mp member
  have found : page.row? slot = some row := by
    rw [row?_eq_getElem?, ← Array.getElem?_toList, List.getElem?_eq_getElem inside, present]
    rfl
  exact (sound.fitting slot row found).1

/-- Bitmap and slots take no more than the page size, so nothing is cut off. -/
theorem length_written {page : Page} {schema : Schema} {size : Nat}
    (sound : page.Sound schema size) :
    (page.bitmap.toList ++ page.slots.toList.flatMap (slotBytes schema.width)).length ≤ size := by
  rw [List.length_append, length_slotsBytes sound.entryFits, Array.length_toList,
    Array.length_toList, sound.bitmapSize, sound.slotsSize]
  exact Layout.bitmap_and_slots_fit size schema.width

theorem Sound.length_encode {page : Page} {schema : Schema} {size : Nat}
    (sound : page.Sound schema size) : page.encode.length = size := by
  have fits := length_written sound
  unfold encode
  rw [sound.schemaIs, sound.sizeIs, List.length_append, List.length_replicate]
  omega

theorem decodeSlots_slotsBytes (id : PageId) {schema : Schema} {bitmap : Array UInt8}
    {entries : List (Option Row)} (first : Nat) (rest : List UInt8)
    (bits : ∀ index entry, entries[index]? = some entry →
      Layout.isSet bitmap (first + index) = entry.isSome)
    (fits : ∀ entry ∈ entries, EntryFits schema entry) :
    ∃ found, decodeSlots id schema bitmap schema.width entries.length first
        (entries.flatMap (slotBytes schema.width) ++ rest) = .ok found ∧
      found.map (Option.map Row.stored) = entries.map (Option.map Row.stored) := by
  induction entries generalizing first with
  | nil => exact ⟨[], rfl, rfl⟩
  | cons entry entries ih =>
      have length := length_slotBytes (fits entry List.mem_cons_self)
      have bit := bits 0 entry rfl
      rw [Nat.add_zero] at bit
      obtain ⟨later, decoded, same⟩ := ih (first + 1)
        (fun index other present => by
          have here := bits (index + 1) other present
          rwa [← Nat.add_assoc, Nat.add_right_comm] at here)
        fun other member => fits other (List.mem_cons_of_mem entry member)
      rw [List.flatMap_cons, List.append_assoc, List.length_cons]
      unfold decodeSlots
      rw [List.drop_left' length, List.take_left' length, decoded]
      cases entry with
      | none =>
          rw [if_neg (by rw [bit]; exact Bool.false_ne_true)]
          exact ⟨none :: later, rfl, by rw [List.map_cons, List.map_cons, same]⟩
      | some row =>
          have taken : Layout.isSet bitmap first = true := bit
          rw [if_pos taken]
          obtain ⟨found, reads, -, -, values⟩ :=
            Row.decode_encode row (fits (some row) List.mem_cons_self row rfl)
          have read := reads []
          rw [List.append_nil] at read
          rw [slotBytes, read]
          refine ⟨_, rfl, ?_⟩
          have stored : found.stored = row.stored := by
            rw [← values]
            exact (Row.decode_spec read).2.2
          rw [List.map_cons, List.map_cons, same, Option.map_some, Option.map_some,
            Row.stored_placed, stored]

theorem Sound.length_bitmap {page : Page} {schema : Schema} {size : Nat}
    (sound : page.Sound schema size) :
    page.bitmap.toList.length = Layout.bitmapSize (Layout.slotCount size schema.width) := by
  rw [Array.length_toList, sound.bitmapSize]

/-- The encoding is the bitmap, the slots, and zeros. -/
theorem Sound.encode_eq {page : Page} {schema : Schema} {size : Nat}
    (sound : page.Sound schema size) :
    page.encode = page.bitmap.toList ++
      (page.slots.toList.flatMap (slotBytes schema.width) ++
        List.replicate (size - (page.bitmap.toList ++
          page.slots.toList.flatMap (slotBytes schema.width)).length) 0) := by
  unfold encode
  rw [sound.schemaIs, sound.sizeIs, List.append_assoc]

/-- A sound page decodes from its encoding, with the same bitmap and the values as they are stored.
-/
theorem Sound.decode_encode {page : Page} {schema : Schema} {size : Nat}
    (sound : page.Sound schema size) (id : PageId) :
    ∃ found, decode id schema page.encode = .ok found ∧ found.contents = page.contents ∧
      found.bitmap = page.bitmap := by
  have length := sound.length_encode
  have bitmapLength := sound.length_bitmap
  have written := sound.encode_eq
  have bits : ∀ index entry, page.slots.toList[index]? = some entry →
      Layout.isSet page.bitmap (0 + index) = entry.isSome := by
    intro index entry present
    rw [Array.getElem?_toList] at present
    obtain ⟨inside, -⟩ := Array.getElem?_eq_some_iff.mp present
    rw [Nat.zero_add, sound.occupied index inside, row?_eq_getElem?, present]
    rfl
  obtain ⟨entries, decoded, same⟩ := decodeSlots_slotsBytes id 0
    (List.replicate (size - (page.bitmap.toList ++
      page.slots.toList.flatMap (slotBytes schema.width)).length) 0) bits sound.entryFits
  rw [Array.length_toList, sound.slotsSize] at decoded
  have front : page.encode.take (Layout.bitmapSize (Layout.slotCount size schema.width)) =
      page.bitmap.toList := by
    rw [written]
    exact List.take_left' bitmapLength
  have back : page.encode.drop (Layout.bitmapSize (Layout.slotCount size schema.width)) =
      page.slots.toList.flatMap (slotBytes schema.width) ++
        List.replicate (size - (page.bitmap.toList ++
          page.slots.toList.flatMap (slotBytes schema.width)).length) 0 := by
    rw [written]
    exact List.drop_left' bitmapLength
  unfold decode
  simp only [length, front, back, Array.toArray_toList, decoded]
  exact ⟨_, rfl, same, rfl⟩

/-! ### Empty pages -/

theorem isSet_zeros (count slot : Nat) :
    Layout.isSet (List.replicate count (0 : UInt8)).toArray slot = false := by
  have byte : (List.replicate count (0 : UInt8)).toArray.getD (slot / 8) 0 = 0 := by
    simp only [Array.getD_eq_getD_getElem?, List.getElem?_toArray, List.getElem?_replicate]
    split <;> rfl
  rw [Layout.isSet_eq, byte]
  exact Nat.zero_testBit _

theorem decodeSlots_free {id : PageId} {schema : Schema} {bitmap : Array UInt8} {width : Nat}
    (remaining first : Nat) (bytes : List UInt8)
    (free : ∀ slot, Layout.isSet bitmap slot = false) :
    decodeSlots id schema bitmap width remaining first bytes =
      .ok (List.replicate remaining none) := by
  induction remaining generalizing first bytes with
  | zero => rfl
  | succ remaining ih =>
      unfold decodeSlots
      rw [if_neg (by rw [free]; exact Bool.false_ne_true), ih]
      rfl

/-- Zeros decode to a page without records. -/
theorem decode_zeros (id : PageId) (schema : Schema) (size : Nat) :
    ∃ found, decode id schema (List.replicate size 0) = .ok found ∧
      found.contents = List.replicate (Layout.slotCount size schema.width) none := by
  unfold decode
  simp only [List.length_replicate, List.take_replicate]
  rw [decodeSlots_free _ _ _ (isSet_zeros _)]
  exact ⟨_, rfl, by simp [contents]⟩

end Page

end RecordStore
