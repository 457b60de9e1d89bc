import RecordStore.Page.Basic
import RecordStore.Proofs.Page.Layout
import RecordStore.Proofs.Row

set_option autoImplicit false

/-! Sound pages: the bitmap has the bits of the taken slots, and every row fits the schema and has
its place. Decoding gives sound pages, and `insert` and `delete` keep them sound. -/

namespace RecordStore

/-- The contents of the slots of a page: for each the values of its row as they are stored. -/
abbrev Slots := List (Option (List Value))

namespace Slots

def free? (slots : Slots) : Option Nat :=
  (List.range slots.length).find? fun slot => slots[slot]?.join.isNone

def checkTaken (slots : Slots) (page : PageId) (record : RecordId) : Except StorageError Unit :=
  if record.page ≠ page then .error (.foreignPage page record.page)
  else if slots.length ≤ record.slot then .error (.slotOutOfRange record.slot slots.length)
  else if slots[record.slot]?.join.isNone then .error (.slotEmpty page record.slot)
  else .ok ()

theorem free?_spec {slots : Slots} {slot : Nat} (found : free? slots = some slot) :
    slot < slots.length ∧ slots[slot]?.join = none := by
  have member := List.mem_range.mp (List.mem_of_find?_eq_some found)
  have empty := List.find?_some found
  exact ⟨member, Option.isNone_iff_eq_none.mp empty⟩

theorem free?_replicate {count : Nat} (some : count ≠ 0) :
    free? (List.replicate count none) ≠ none := by
  intro full
  rw [free?, List.find?_eq_none] at full
  have first := full 0 (List.mem_range.mpr (by rw [List.length_replicate]; omega))
  rw [List.getElem?_replicate, if_pos (by omega)] at first
  exact first rfl

theorem checkTaken_ok {slots : Slots} {page : PageId} {record : RecordId}
    (checked : checkTaken slots page record = .ok ()) :
    record.page = page ∧ record.slot < slots.length ∧
      ∃ values, slots[record.slot]?.join = some values := by
  unfold checkTaken at checked
  split at checked
  · cases checked
  · next here =>
      split at checked
      · cases checked
      · next inside =>
          split at checked
          · cases checked
          · next taken =>
              have present : (slots[record.slot]?.join).isSome = true := by
                cases entry : slots[record.slot]?.join with
                | none => simp [entry] at taken
                | some values => rfl
              exact ⟨Decidable.of_not_not here, Nat.lt_of_not_le inside,
                Option.isSome_iff_exists.mp present⟩

end Slots

namespace Page

def contents (page : Page) : Slots := page.slots.toList.map (Option.map Row.stored)

structure Sound (page : Page) (schema : Schema) (size : Nat) : Prop where
  schemaIs : page.schema = schema
  sizeIs : page.size = size
  bitmapSize : page.bitmap.size = Layout.bitmapSize (Layout.slotCount size schema.width)
  slotsSize : page.slots.size = Layout.slotCount size schema.width
  occupied : ∀ slot, slot < page.slotCount →
    Layout.isSet page.bitmap slot = (page.row? slot).isSome
  fitting : ∀ slot row, page.row? slot = some row →
    row.schema.types = schema.types ∧ row.place = some ⟨page.id, slot⟩

theorem length_contents (page : Page) : page.contents.length = page.slotCount := by
  simp [contents, slotCount]

theorem row?_eq_getElem? (page : Page) (slot : Nat) : page.row? slot = page.slots[slot]?.join := by
  rw [row?, Array.getD_eq_getD_getElem?]
  cases page.slots[slot]? with
  | none => rfl
  | some entry => rfl

theorem row?_of_slotCount_le {page : Page} {slot : Nat} (outside : page.slotCount ≤ slot) :
    page.row? slot = none := by
  rw [row?_eq_getElem?, Array.getElem?_eq_none outside]
  rfl

theorem contents_getElem? (page : Page) (slot : Nat) :
    page.contents[slot]? = page.slots[slot]?.map (Option.map Row.stored) := by
  rw [contents, List.getElem?_map, Array.getElem?_toList]

/-- The values of a slot as they are stored. -/
theorem contents_join (page : Page) (slot : Nat) :
    page.contents[slot]?.join = (page.row? slot).map Row.stored := by
  rw [contents_getElem?, row?_eq_getElem?]
  cases page.slots[slot]? with
  | none => rfl
  | some entry => rfl

/-! ### Reading -/

private theorem map_cons_ok {decoded : Except StorageError (List (Option Row))}
    {entry : Option Row} {entries : List (Option Row)}
    (found : decoded.map (entry :: ·) = .ok entries) :
    ∃ later, decoded = .ok later ∧ entries = entry :: later := by
  cases decoded with
  | error error => cases found
  | ok later =>
      cases found
      exact ⟨later, rfl, rfl⟩

theorem decodeSlots_sound {id : PageId} {schema : Schema} {bitmap : Array UInt8}
    {width remaining first : Nat} {bytes : List UInt8} {entries : List (Option Row)}
    (decoded : decodeSlots id schema bitmap width remaining first bytes = .ok entries) :
    entries.length = remaining ∧
      ∀ index entry, entries[index]? = some entry →
        Layout.isSet bitmap (first + index) = entry.isSome ∧
          ∀ row, entry = some row → row.schema = schema ∧
            row.place = some ⟨id, first + index⟩ ∧ row.stored = row.values := by
  induction remaining generalizing first bytes entries with
  | zero =>
      cases decoded
      exact ⟨rfl, fun _ _ absent => by cases absent⟩
  | succ remaining ih =>
      unfold decodeSlots at decoded
      split at decoded
      · next taken =>
          cases read : Row.decode schema (bytes.take width) with
          | error error => simp [read] at decoded
          | ok row =>
              rw [read] at decoded
              obtain ⟨later, others, rfl⟩ := map_cons_ok decoded
              obtain ⟨length, each⟩ := ih others
              refine ⟨by rw [List.length_cons, length], ?_⟩
              rintro (_ | index) entry present
              · cases present
                obtain ⟨schemaIs, -, exact⟩ := Row.decode_spec read
                refine ⟨taken, ?_⟩
                intro found same
                cases same
                exact ⟨schemaIs, rfl, exact⟩
              · have here := each index entry present
                rwa [Nat.add_right_comm, Nat.add_assoc] at here
      · next free =>
          obtain ⟨later, others, rfl⟩ := map_cons_ok decoded
          obtain ⟨length, each⟩ := ih others
          refine ⟨by rw [List.length_cons, length], ?_⟩
          rintro (_ | index) entry present
          · cases present
            exact ⟨Bool.eq_false_iff.mpr free, fun _ absent => by cases absent⟩
          · have here := each index entry present
            rwa [Nat.add_right_comm, Nat.add_assoc] at here

structure Loaded (page : Page) (id : PageId) (schema : Schema) (bytes : List UInt8) : Prop where
  sound : page.Sound schema bytes.length
  idIs : page.id = id
  clean : page.dirtier = none
  image : page.beforeImage = bytes
  bitmapIs : page.bitmap =
    (bytes.take (Layout.bitmapSize (Layout.slotCount bytes.length schema.width))).toArray
  exact : ∀ slot row, page.row? slot = some row → row.schema = schema ∧ row.stored = row.values

theorem loaded_of_decode {id : PageId} {schema : Schema} {bytes : List UInt8} {page : Page}
    (decoded : decode id schema bytes = .ok page) : page.Loaded id schema bytes := by
  unfold decode at decoded
  cases found : decodeSlots id schema
      (bytes.take (Layout.bitmapSize (Layout.slotCount bytes.length schema.width))).toArray
      schema.width (Layout.slotCount bytes.length schema.width) 0
      (bytes.drop (Layout.bitmapSize (Layout.slotCount bytes.length schema.width))) with
  | error error => simp [found] at decoded
  | ok entries =>
      simp only [found, Except.ok.injEq] at decoded
      obtain ⟨length, each⟩ := decodeSlots_sound found
      have fit := Layout.bitmap_and_slots_fit bytes.length schema.width
      have entryOf : ∀ slot row, page.row? slot = some row → entries[slot]? = some (some row) := by
        intro slot row present
        rw [row?_eq_getElem?, ← decoded] at present
        simpa [Option.join_eq_some_iff] using present
      subst decoded
      refine ⟨⟨rfl, rfl, ?_, ?_, ?_, ?_⟩, rfl, rfl, rfl, rfl, ?_⟩
      · simp only [List.size_toArray, List.length_take]
        omega
      · simpa using length
      · intro slot inside
        have within : slot < entries.length := by simpa [slotCount] using inside
        have here := each slot entries[slot] (List.getElem?_eq_getElem within)
        rw [Nat.zero_add] at here
        rw [here.1, row?_eq_getElem?]
        simp [within]
      · intro slot row present
        have here := (each slot (some row) (entryOf slot row present)).2 row rfl
        rw [Nat.zero_add] at here
        exact ⟨congrArg Schema.types here.1, here.2.1⟩
      · intro slot row present
        have here := (each slot (some row) (entryOf slot row present)).2 row rfl
        exact ⟨here.1, here.2.2⟩

/-! ### Inserting and deleting -/

theorem row?_set {page : Page} {slot : Nat} (other : Nat) (entry : Option Row)
    (bitmap : Array UInt8) (inside : slot < page.slotCount) :
    ({ page with bitmap := bitmap, slots := page.slots.setIfInBounds slot entry } : Page).row?
        other = if slot = other then entry else page.row? other := by
  simp only [row?_eq_getElem?, Array.getElem?_setIfInBounds]
  by_cases same : slot = other
  · subst other
    have within : slot < page.slots.size := inside
    rw [if_pos rfl, if_pos rfl, if_pos within]
    rfl
  · rw [if_neg same, if_neg same]

private theorem contents_set {page : Page} {slot : Nat} (entry : Option Row)
    (bitmap : Array UInt8) :
    ({ page with bitmap := bitmap, slots := page.slots.setIfInBounds slot entry } : Page).contents =
      page.contents.set slot (entry.map Row.stored) := by
  simp only [contents, Array.toList_setIfInBounds, List.map_set]

namespace Sound

variable {page : Page} {schema : Schema} {size : Nat}

theorem isUsed_eq (sound : page.Sound schema size) (slot : Nat) :
    page.isUsed slot = (page.contents[slot]?.join).isSome := by
  rw [contents_join, Option.isSome_map, isUsed]
  by_cases inside : slot < page.slotCount
  · rw [decide_eq_true inside, Bool.true_and, sound.occupied slot inside]
  · rw [decide_eq_false inside, Bool.false_and, row?_of_slotCount_le (Nat.le_of_not_lt inside)]
    rfl

theorem isUsed_eq_isSome (sound : page.Sound schema size) (slot : Nat) :
    page.isUsed slot = (page.row? slot).isSome := by
  rw [sound.isUsed_eq, contents_join, Option.isSome_map]

theorem byte_of_slot (sound : page.Sound schema size) {slot : Nat}
    (inside : slot < page.slotCount) : slot / 8 < page.bitmap.size := by
  have room : slot < Layout.slotCount size schema.width := sound.slotsSize ▸ inside
  rw [sound.bitmapSize, Layout.bitmapSize]
  omega

theorem firstFree?_eq (sound : page.Sound schema size) :
    page.firstFree? = Slots.free? page.contents := by
  rw [firstFree?, Slots.free?, length_contents]
  congr 1
  funext slot
  rw [sound.isUsed_eq]
  cases (page.contents[slot]?.join) <;> rfl

theorem freeCount_eq_zero_iff (sound : page.Sound schema size) :
    page.freeCount = 0 ↔ Slots.free? page.contents = none := by
  rw [← sound.firstFree?_eq, freeCount, firstFree?, List.countP_eq_zero, List.find?_eq_none]

theorem types_of_mem (sound : page.Sound schema size) {row : Row} (member : row ∈ page.rows) :
    row.schema.types = schema.types := by
  obtain ⟨entry, present, rfl⟩ := List.mem_filterMap.mp member
  obtain ⟨slot, here⟩ := List.mem_iff_getElem?.mp present
  refine (sound.fitting slot row ?_).1
  rw [row?_eq_getElem?, ← Array.getElem?_toList, here]
  rfl

/-- Changing a slot together with its bit keeps the page sound. -/
private theorem replaced (sound : page.Sound schema size) {slot : Nat} (entry : Option Row)
    (bitmap : Array UInt8) (inside : slot < page.slotCount) (bytes : bitmap.size = page.bitmap.size)
    (bits : ∀ other, Layout.isSet bitmap other =
      if slot = other then entry.isSome else Layout.isSet page.bitmap other)
    (fits : ∀ row, entry = some row →
      row.schema.types = schema.types ∧ row.place = some ⟨page.id, slot⟩) :
    ({ page with bitmap := bitmap, slots := page.slots.setIfInBounds slot entry } : Page).Sound
      schema size := by
  refine ⟨sound.schemaIs, sound.sizeIs, bytes.trans sound.bitmapSize, ?_, ?_, ?_⟩
  · exact (Array.size_setIfInBounds).trans sound.slotsSize
  · intro other within
    have before : other < page.slotCount := by simpa [slotCount] using within
    rw [row?_set other entry bitmap inside, bits other]
    split
    · rfl
    · exact sound.occupied other before
  · intro other row present
    rw [row?_set other entry bitmap inside] at present
    split at present
    · next same =>
        subst other
        exact fits row present
    · exact sound.fitting other row present

theorem insert_eq (sound : page.Sound schema size) {row : Row} {slot : Nat}
    (fits : row.schema.types = schema.types) (free : Slots.free? page.contents = some slot) :
    ∃ changed, page.insert row = .ok (⟨page.id, slot⟩, changed) ∧ changed.Sound schema size ∧
      changed.contents = page.contents.set slot (some row.stored) ∧ changed.id = page.id ∧
      changed.beforeImage = page.beforeImage := by
  have inside : slot < page.slotCount := by
    rw [← length_contents]
    exact (Slots.free?_spec free).1
  have agrees : row.schema.agrees page.schema = true := by
    rw [Schema.agrees, sound.schemaIs, fits, beq_self_eq_true]
  refine ⟨_, ?_, sound.replaced (some (row.placed (some ⟨page.id, slot⟩)))
    (Layout.setBit page.bitmap slot) inside (Layout.size_setBit _ _)
    (fun other => Layout.isSet_setBit _ other (sound.byte_of_slot inside)) ?_,
    contents_set _ _, rfl, rfl⟩
  · rw [insert, if_pos agrees, sound.firstFree?_eq, free]
  · intro found same
    cases same
    exact ⟨fits, rfl⟩

theorem insert_ok (sound : page.Sound schema size) {row : Row} {record : RecordId}
    {changed : Page} (inserted : page.insert row = .ok (record, changed)) :
    ∃ slot, Slots.free? page.contents = some slot ∧ record = ⟨page.id, slot⟩ ∧
      changed.Sound schema size ∧ changed.contents = page.contents.set slot (some row.stored) ∧
      changed.id = page.id ∧ changed.beforeImage = page.beforeImage := by
  have before := inserted
  rw [insert] at inserted
  split at inserted
  · next agrees =>
      rw [sound.firstFree?_eq] at inserted
      cases free : Slots.free? page.contents with
      | none => simp [free] at inserted
      | some slot =>
          have fits : row.schema.types = schema.types := by
            rw [← sound.schemaIs]
            exact eq_of_beq agrees
          obtain ⟨found, done, facts⟩ := sound.insert_eq fits free
          rw [before] at done
          cases done
          exact ⟨slot, rfl, rfl, facts⟩
  · cases inserted

theorem delete_eq (sound : page.Sound schema size) {record : RecordId}
    (taken : Slots.checkTaken page.contents page.id record = .ok ()) :
    ∃ changed, page.delete record = .ok changed ∧ changed.Sound schema size ∧
      changed.contents = page.contents.set record.slot none ∧ changed.id = page.id ∧
      changed.beforeImage = page.beforeImage := by
  obtain ⟨here, inside, values, present⟩ := Slots.checkTaken_ok taken
  rw [length_contents] at inside
  have used : page.isUsed record.slot = true := by
    rw [sound.isUsed_eq, present]
    rfl
  refine ⟨_, ?_, sound.replaced none
    (Layout.clearBit page.bitmap record.slot) inside (Layout.size_clearBit _ _)
    (fun other => Layout.isSet_clearBit _ other (sound.byte_of_slot inside)) ?_,
    contents_set _ _, rfl, rfl⟩
  · rw [delete, if_neg (not_not_intro here), if_neg (Nat.not_le.mpr inside), used]
    rfl
  · intro found absent
    cases absent

theorem delete_refused (sound : page.Sound schema size) {record : RecordId} {error : StorageError}
    (refused : Slots.checkTaken page.contents page.id record = .error error) :
    page.delete record = .error error := by
  unfold Slots.checkTaken at refused
  rw [length_contents] at refused
  unfold delete
  split at refused
  · next away =>
      rw [if_pos away]
      exact congrArg Except.error (Except.error.inj refused)
  · next here =>
      rw [if_neg here]
      split at refused
      · next outside =>
          rw [if_pos outside]
          exact congrArg Except.error (Except.error.inj refused)
      · next inside =>
          rw [if_neg inside]
          split at refused
          · next empty =>
              have unused : (!page.isUsed record.slot) = true := by
                rw [sound.isUsed_eq, Option.isNone_iff_eq_none.mp empty]
                rfl
              rw [if_pos unused]
              exact congrArg Except.error (Except.error.inj refused)
          · cases refused

theorem marked (sound : page.Sound schema size) (dirtier : Option TransactionId) :
    (page.marked dirtier).Sound schema size :=
  ⟨sound.schemaIs, sound.sizeIs, sound.bitmapSize, sound.slotsSize, sound.occupied, sound.fitting⟩

theorem remembered (sound : page.Sound schema size) : page.remembered.Sound schema size :=
  ⟨sound.schemaIs, sound.sizeIs, sound.bitmapSize, sound.slotsSize, sound.occupied, sound.fitting⟩

end Sound

end Page

end RecordStore
