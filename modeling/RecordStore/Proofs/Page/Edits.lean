import RecordStore.Proofs.Page.Fields

set_option autoImplicit false

/-! Any edits of a decoded page keep its bitmap and its slots in agreement. Bits past the last slot
stay as they were read, and the encoding has the size of the page. -/

namespace RecordStore

namespace Page

inductive Edit where
  | insert (row : Row)
  | delete (record : RecordId)
  | mark (dirtier : Option TransactionId)
  | remember

def edit (page : Page) : Edit → Page
  | .insert row =>
      match page.insert row with
      | .ok (_, changed) => changed
      | .error _ => page
  | .delete record =>
      match page.delete record with
      | .ok changed => changed
      | .error _ => page
  | .mark dirtier => page.marked dirtier
  | .remember => page.remembered

def editAll (page : Page) (edits : List Edit) : Page := edits.foldl edit page

theorem editAll_concat (page : Page) (edits : List Edit) (last : Edit) :
    page.editAll (edits ++ [last]) = (page.editAll edits).edit last := by
  rw [editAll, List.foldl_append]
  rfl

variable {page : Page} {schema : Schema} {size : Nat}

/-! ### One edit -/

theorem bitmap_of_insert {row : Row} {record : RecordId} {changed : Page}
    (inserted : page.insert row = .ok (record, changed)) :
    record.slot < page.slotCount ∧ changed.bitmap = Layout.setBit page.bitmap record.slot := by
  unfold insert at inserted
  split at inserted
  · split at inserted
    · cases inserted
    · next slot free =>
        cases inserted
        exact ⟨List.mem_range.mp (List.mem_of_find?_eq_some free), rfl⟩
  · cases inserted

theorem Sound.delete_ok (sound : page.Sound schema size) {record : RecordId} {changed : Page}
    (deleted : page.delete record = .ok changed) :
    record.slot < page.slotCount ∧ changed.Sound schema size ∧ changed.id = page.id ∧
      changed.bitmap = Layout.clearBit page.bitmap record.slot := by
  cases taken : Slots.checkTaken page.contents page.id record with
  | error error =>
      rw [sound.delete_refused taken] at deleted
      cases deleted
  | ok checked =>
      obtain ⟨found, done, keeps, -, named, -⟩ := sound.delete_eq taken
      have inside := (Slots.checkTaken_ok taken).2.1
      rw [length_contents] at inside
      rw [done] at deleted
      cases deleted
      refine ⟨inside, keeps, named, ?_⟩
      unfold delete at done
      split at done
      · cases done
      · split at done
        · cases done
        · split at done
          · cases done
          · cases done
            rfl

structure Keeps (page changed : Page) (schema : Schema) (size : Nat) : Prop where
  sound : changed.Sound schema size
  idIs : changed.id = page.id
  spare : ∀ slot, Layout.slotCount size schema.width ≤ slot →
    Layout.isSet changed.bitmap slot = Layout.isSet page.bitmap slot

theorem Keeps.refl (sound : page.Sound schema size) : page.Keeps page schema size :=
  ⟨sound, rfl, fun _ _ => rfl⟩

theorem Keeps.trans {changed after : Page} (first : page.Keeps changed schema size)
    (second : changed.Keeps after schema size) : page.Keeps after schema size where
  sound := second.sound
  idIs := second.idIs.trans first.idIs
  spare slot behind := (second.spare slot behind).trans (first.spare slot behind)

/-- An edit of one slot changes no bit but that of the slot. -/
theorem Sound.keeps_of_slot (sound : page.Sound schema size) {changed : Page} {slot : Nat}
    (keeps : changed.Sound schema size) (idIs : changed.id = page.id)
    (inside : slot < page.slotCount)
    (bits : ∀ other, slot ≠ other →
      Layout.isSet changed.bitmap other = Layout.isSet page.bitmap other) :
    page.Keeps changed schema size := by
  have room : slot < Layout.slotCount size schema.width := sound.slotsSize ▸ inside
  refine ⟨keeps, idIs, fun other behind => bits other ?_⟩
  exact Nat.ne_of_lt (Nat.lt_of_lt_of_le room behind)

theorem Sound.keeps_edit (sound : page.Sound schema size) (edit : Edit) :
    page.Keeps (page.edit edit) schema size := by
  cases edit with
  | insert row =>
      cases inserted : page.insert row with
      | error error =>
          simp only [Page.edit, inserted]
          exact .refl sound
      | ok pair =>
          obtain ⟨record, changed⟩ := pair
          obtain ⟨inside, bitmap⟩ := bitmap_of_insert inserted
          obtain ⟨slot, -, -, keeps, -, named, -⟩ := sound.insert_ok inserted
          simp only [Page.edit, inserted]
          refine sound.keeps_of_slot keeps named inside fun other apart => ?_
          rw [bitmap, Layout.isSet_setBit _ other (sound.byte_of_slot inside), if_neg apart]
  | delete record =>
      cases deleted : page.delete record with
      | error error =>
          simp only [Page.edit, deleted]
          exact .refl sound
      | ok changed =>
          obtain ⟨inside, keeps, named, bitmap⟩ := sound.delete_ok deleted
          simp only [Page.edit, deleted]
          refine sound.keeps_of_slot keeps named inside fun other apart => ?_
          rw [bitmap, Layout.isSet_clearBit _ other (sound.byte_of_slot inside), if_neg apart]
  | mark dirtier => exact ⟨sound.marked dirtier, rfl, fun _ _ => rfl⟩
  | remember => exact ⟨sound.remembered, rfl, fun _ _ => rfl⟩

/-! ### Any number of edits -/

theorem Sound.keeps_editAll (sound : page.Sound schema size) (edits : List Edit) :
    page.Keeps (page.editAll edits) schema size := by
  induction edits generalizing page with
  | nil => exact .refl sound
  | cons edit edits ih =>
      have first := sound.keeps_edit edit
      exact first.trans (ih first.sound)

theorem toList_slots (page : Page) :
    page.slots.toList = (List.range page.slotCount).map page.row? := by
  refine List.ext_getElem (by simp [slotCount]) fun slot inside _ => ?_
  rw [List.getElem_map, List.getElem_range, row?_eq_getElem?, ← Array.getElem?_toList,
    List.getElem?_eq_getElem inside]
  rfl

theorem length_rows (page : Page) :
    page.rows.length =
      (List.range page.slotCount).countP fun slot => (page.row? slot).isSome := by
  rw [rows, List.length_filterMap_eq_countP, toList_slots, List.countP_map]
  rfl

/-- Each slot is free in the bitmap or holds one of the rows. -/
theorem Sound.freeCount_add_rows (sound : page.Sound schema size) :
    page.freeCount + page.rows.length = page.slotCount := by
  have taken : page.rows.length = (List.range page.slotCount).countP page.isUsed := by
    rw [length_rows]
    refine List.countP_congr fun slot member => ?_
    have inside := List.mem_range.mp member
    rw [isUsed, decide_eq_true inside, Bool.true_and, sound.occupied slot inside]
  have free : page.freeCount =
      (List.range page.slotCount).countP fun slot => decide ¬ page.isUsed slot = true := by
    rw [freeCount]
    refine List.countP_congr fun slot _ => ?_
    cases page.isUsed slot <;> decide
  have all := @List.length_eq_countP_add_countP _ page.isUsed (List.range page.slotCount)
  rw [List.length_range] at all
  rw [taken, free, Nat.add_comm, ← all]

/-- Bitmap and slots of a page agree, its rows have the types of the schema and their own record
ids, and its encoding has the page size. -/
structure InOrder (page : Page) (id : PageId) (schema : Schema) (bytes : List UInt8) : Prop where
  slotCountIs : page.slotCount = Layout.slotCount bytes.length schema.width
  bits : ∀ slot < page.slotCount, Layout.isSet page.bitmap slot = (page.row? slot).isSome
  used : ∀ slot, page.isUsed slot = (page.row? slot).isSome
  types : ∀ slot row, page.row? slot = some row →
    row.schema.types = schema.types ∧ row.values.map Value.type = schema.types
  places : ∀ slot row, page.row? slot = some row → row.place = some ⟨id, slot⟩
  spare : ∀ slot, page.slotCount ≤ slot →
    Layout.isSet page.bitmap slot = Layout.isSet (bitmapIn schema bytes) slot
  counts : page.freeCount + page.rows.length = page.slotCount
  content : (page.bitmap.toList ++
    page.slots.toList.flatMap (slotBytes page.schema.width)).length ≤ page.size
  sizeIs : page.size = bytes.length
  written : page.encode.length = page.size

/-- A decoded page is `InOrder` after any edits, successful or refused. -/
theorem edits_keep_order {id : PageId} {bytes : List UInt8}
    (decoded : decode id schema bytes = .ok page) (edits : List Edit) :
    (page.editAll edits).InOrder id schema bytes := by
  have loaded := loaded_of_decode decoded
  obtain ⟨sound, idIs, spare⟩ := loaded.sound.keeps_editAll edits
  have idIs := idIs.trans loaded.idIs
  have count : (page.editAll edits).slotCount = Layout.slotCount bytes.length schema.width :=
    sound.slotsSize
  refine ⟨count, sound.occupied, fun slot => ?_, fun slot row held => ?_, fun slot row held => ?_,
    fun slot behind => ?_, sound.freeCount_add_rows, ?_, sound.sizeIs, ?_⟩
  · rw [sound.isUsed_eq, contents_join, Option.isSome_map]
  · have types := (sound.fitting slot row held).1
    exact ⟨types, row.typed.trans types⟩
  · rw [← idIs]
    exact (sound.fitting slot row held).2
  · rw [spare slot (count ▸ behind), loaded.bitmapIs]
    rfl
  · rw [sound.schemaIs, sound.sizeIs]
    exact length_written sound
  · rw [sound.length_encode, sound.sizeIs]

/-- Two slots for integers, of which the first is taken, and bits set that belong to no slot. -/
def halfFull : List UInt8 := [253, 0, 0, 0, 5, 1, 1, 1, 1]

def seven : Row := ⟨.ofTypes [.int], [.int 7], none, rfl⟩

/-- Fills the page, inserts once too often, and frees the first slot. -/
def hustle : List Edit :=
  [.insert seven, .insert seven, .delete ⟨⟨⟨7⟩, 0⟩, 0⟩, .delete ⟨⟨⟨7⟩, 0⟩, 0⟩,
    .delete ⟨⟨⟨8⟩, 0⟩, 1⟩, .mark (some ⟨1⟩), .remember]

theorem edits_keep_order_small :
    ∃ page, decode ⟨⟨7⟩, 0⟩ (.ofTypes [.int]) halfFull = .ok page ∧
      (page.editAll hustle).InOrder ⟨⟨7⟩, 0⟩ (.ofTypes [.int]) halfFull ∧
      (page.editAll hustle).rows.map Row.values = [[.int 7]] ∧
      (page.editAll hustle).encode = [254, 0, 0, 0, 0, 0, 0, 0, 7] :=
  ⟨_, rfl, edits_keep_order rfl hustle, by decide +kernel, by decide +kernel⟩

end Page

end RecordStore
