import RecordStore.Proofs.Page.Edits

set_option autoImplicit false

/-! A page as a map from slots to rows. `insert` adds a row at the lowest free slot and `delete`
removes the row of a slot; the conditions for their errors are exact, and a failure changes nothing,
also for the variants that work in place. Deleting the record that an insert returned restores the
page. -/

namespace RecordStore.Page

variable {page changed other : Page} {schema : Schema} {size slot : Nat} {entry : Option Row}

/-! ### One slot changed -/

structure Replaces (page changed : Page) (slot : Nat) (entry : Option Row) : Prop where
  same : changed = { page with bitmap := changed.bitmap, slots := changed.slots }
  bitmapSize : changed.bitmap.size = page.bitmap.size
  slotCountIs : changed.slotCount = page.slotCount
  rows : ∀ place, changed.row? place = if slot = place then entry else page.row? place
  bits : ∀ place, Layout.isSet changed.bitmap place =
    if slot = place then entry.isSome else Layout.isSet page.bitmap place

theorem slots_eq_of_rows (count : other.slotCount = page.slotCount) (rows : other.row? = page.row?) :
    other.slots = page.slots := by
  rw [← Array.toList_inj, toList_slots, toList_slots, count, rows]

theorem eq_of_maps
    (same : other = { page with bitmap := other.bitmap, slots := other.slots })
    (bitmapSize : other.bitmap.size = page.bitmap.size) (count : other.slotCount = page.slotCount)
    (rows : ∀ place, other.row? place = page.row? place)
    (bits : ∀ place, Layout.isSet other.bitmap place = Layout.isSet page.bitmap place) :
    other = page := by
  rw [same, Layout.eq_of_isSet bitmapSize bits, slots_eq_of_rows count (funext rows)]

/-- A replacement is determined by the slot and its new entry. -/
theorem Replaces.unique (first : page.Replaces changed slot entry)
    (second : page.Replaces other slot entry) : other = changed := by
  refine eq_of_maps ?_ (second.bitmapSize.trans first.bitmapSize.symm)
    (second.slotCountIs.trans first.slotCountIs.symm) (fun place => ?_) fun place => ?_
  · rw [second.same, first.same]
  · rw [second.rows, first.rows]
  · rw [second.bits, first.bits]

/-- Putting the former entry back restores the page. -/
theorem Replaces.undone (first : page.Replaces changed slot entry)
    (second : changed.Replaces other slot (page.row? slot))
    (bit : Layout.isSet page.bitmap slot = (page.row? slot).isSome) : other = page := by
  refine eq_of_maps ?_ (second.bitmapSize.trans first.bitmapSize)
    (second.slotCountIs.trans first.slotCountIs) (fun place => ?_) fun place => ?_
  · rw [second.same, first.same]
  · rw [second.rows, first.rows]
    split
    · next here => rw [here]
    · rfl
  · rw [second.bits, first.bits]
    split
    · next here => rw [← here, bit]
    · rfl

/-- A slot that is changed together with its bit is replaced. -/
theorem replaces_of_bits {bitmap : Array UInt8} (inside : slot < page.slotCount)
    (bitmapSize : bitmap.size = page.bitmap.size)
    (bits : ∀ place, Layout.isSet bitmap place =
      if slot = place then entry.isSome else Layout.isSet page.bitmap place) :
    page.Replaces
      { page with bitmap := bitmap, slots := page.slots.setIfInBounds slot entry } slot entry where
  same := rfl
  bitmapSize := bitmapSize
  slotCountIs := Array.size_setIfInBounds
  rows place := row?_set place _ _ inside
  bits := bits

theorem Sound.replaces_set (sound : page.Sound schema size) (inside : slot < page.slotCount)
    (row : Row) :
    page.Replaces
      { page with
        bitmap := Layout.setBit page.bitmap slot
        slots := page.slots.setIfInBounds slot (some row) } slot (some row) :=
  replaces_of_bits inside (Layout.size_setBit _ _) fun place =>
    Layout.isSet_setBit _ place (sound.byte_of_slot inside)

theorem Sound.replaces_clear (sound : page.Sound schema size) (inside : slot < page.slotCount) :
    page.Replaces
      { page with
        bitmap := Layout.clearBit page.bitmap slot
        slots := page.slots.setIfInBounds slot none } slot none :=
  replaces_of_bits inside (Layout.size_clearBit _ _) fun place =>
    Layout.isSet_clearBit _ place (sound.byte_of_slot inside)

/-! ### Inserting -/

/-- The lowest slot without a row. -/
structure LeastFree (page : Page) (slot : Nat) : Prop where
  inside : slot < page.slotCount
  free : page.row? slot = none
  least : ∀ place < slot, page.row? place ≠ none

def Full (page : Page) : Prop := ∀ slot < page.slotCount, page.row? slot ≠ none

inductive Inserts (page : Page) (row : Row) : Except StorageError (RecordId × Page) → Prop where
  | mismatch : row.schema.types ≠ page.schema.types → Inserts page row (.error .schemaMismatch)
  | full : row.schema.types = page.schema.types → page.Full →
      Inserts page row (.error (.pageFull page.id))
  | placed {slot : Nat} {changed : Page} : row.schema.types = page.schema.types →
      page.LeastFree slot →
      page.Replaces changed slot (some (row.placed (some ⟨page.id, slot⟩))) →
      Inserts page row (.ok (⟨page.id, slot⟩, changed))

theorem LeastFree.unique {place : Nat} (first : page.LeastFree slot)
    (second : page.LeastFree place) : place = slot := by
  rcases Nat.lt_trichotomy place slot with below | same | above
  · exact absurd second.free (first.least place below)
  · exact same
  · exact absurd first.free (second.least slot above)

theorem Inserts.unique {row : Row} {outcome another : Except StorageError (RecordId × Page)}
    (first : page.Inserts row outcome) (second : page.Inserts row another) : another = outcome := by
  cases first with
  | mismatch differs =>
      cases second with
      | mismatch _ => rfl
      | full agrees _ | placed agrees _ _ => exact absurd agrees differs
  | full agrees full =>
      cases second with
      | mismatch differs => exact absurd agrees differs
      | full _ _ => rfl
      | placed _ least _ => exact absurd least.free (full _ least.inside)
  | placed agrees least replaces =>
      cases second with
      | mismatch differs => exact absurd agrees differs
      | full _ full => exact absurd least.free (full _ least.inside)
      | placed _ leastToo replacesToo =>
          obtain rfl := least.unique leastToo
          rw [replaces.unique replacesToo]

namespace Sound

theorem leastFree_of_firstFree? (sound : page.Sound schema size)
    (found : page.firstFree? = some slot) : page.LeastFree slot := by
  obtain ⟨free, inside, least⟩ := List.find?_range_eq_some.mp found
  simp only [sound.isUsed_eq_isSome, Bool.not_eq_eq_eq_not, Bool.not_true, Option.isSome_eq_false_iff,
    Option.isNone_iff_eq_none] at free
  refine ⟨List.mem_range.mp inside, free, fun place below none => ?_⟩
  have taken := least place below
  rw [sound.isUsed_eq_isSome, none] at taken
  cases taken

theorem full_of_firstFree? (sound : page.Sound schema size) (found : page.firstFree? = none) :
    page.Full := by
  intro slot inside none
  have taken := List.find?_eq_none.mp found slot (List.mem_range.mpr inside)
  rw [sound.isUsed_eq_isSome, none] at taken
  exact taken rfl

theorem inserts_insert (sound : page.Sound schema size) (row : Row) :
    page.Inserts row (page.insert row) := by
  unfold insert Schema.agrees
  by_cases agrees : row.schema.types = page.schema.types
  · rw [if_pos (beq_iff_eq.mpr agrees)]
    cases found : page.firstFree? with
    | none => exact .full agrees (sound.full_of_firstFree? found)
    | some slot =>
        have least := sound.leastFree_of_firstFree? found
        exact .placed agrees least (sound.replaces_set least.inside _)
  · rw [if_neg fun same => agrees (beq_iff_eq.mp same)]
    exact .mismatch agrees

theorem insert_eq_iff (sound : page.Sound schema size) {row : Row}
    {outcome : Except StorageError (RecordId × Page)} :
    page.insert row = outcome ↔ page.Inserts row outcome :=
  ⟨fun same => same ▸ sound.inserts_insert row,
    fun inserts => inserts.unique (sound.inserts_insert row)⟩

end Sound

/-! ### Deleting -/

inductive Deletes (page : Page) (record : RecordId) : Except StorageError Page → Prop where
  | elsewhere : record.page ≠ page.id →
      Deletes page record (.error (.foreignPage page.id record.page))
  | beyond : record.page = page.id → page.slotCount ≤ record.slot →
      Deletes page record (.error (.slotOutOfRange record.slot page.slotCount))
  | free : record.page = page.id → record.slot < page.slotCount → page.row? record.slot = none →
      Deletes page record (.error (.slotEmpty page.id record.slot))
  | freed {changed : Page} : record.page = page.id → record.slot < page.slotCount →
      page.row? record.slot ≠ none → page.Replaces changed record.slot none →
      Deletes page record (.ok changed)

theorem Deletes.unique {record : RecordId} {outcome another : Except StorageError Page}
    (first : page.Deletes record outcome) (second : page.Deletes record another) :
    another = outcome := by
  cases first with
  | elsewhere away =>
      cases second with
      | elsewhere _ => rfl
      | beyond here _ | free here _ _ | freed here _ _ _ => exact absurd here away
  | beyond here outside =>
      cases second with
      | elsewhere away => exact absurd here away
      | beyond _ _ => rfl
      | free _ inside _ | freed _ inside _ _ => exact absurd inside (Nat.not_lt.mpr outside)
  | free here inside none =>
      cases second with
      | elsewhere away => exact absurd here away
      | beyond _ outside => exact absurd inside (Nat.not_lt.mpr outside)
      | free _ _ _ => rfl
      | freed _ _ taken _ => exact absurd none taken
  | freed here inside taken replaces =>
      cases second with
      | elsewhere away => exact absurd here away
      | beyond _ outside => exact absurd inside (Nat.not_lt.mpr outside)
      | free _ _ none => exact absurd none taken
      | freed _ _ _ replacesToo => rw [replaces.unique replacesToo]

namespace Sound

theorem deletes_delete (sound : page.Sound schema size) (record : RecordId) :
    page.Deletes record (page.delete record) := by
  unfold delete
  by_cases here : record.page = page.id
  · rw [if_neg (not_not_intro here)]
    by_cases outside : page.slotCount ≤ record.slot
    · rw [if_pos outside]
      exact .beyond here outside
    · have inside := Nat.lt_of_not_le outside
      rw [if_neg outside, sound.isUsed_eq_isSome]
      cases held : page.row? record.slot with
      | none => exact .free here inside held
      | some row =>
          exact .freed here inside (by rw [held]; exact Option.some_ne_none row)
            (sound.replaces_clear inside)
  · rw [if_pos here]
    exact .elsewhere here

theorem delete_eq_iff (sound : page.Sound schema size) {record : RecordId}
    {outcome : Except StorageError Page} :
    page.delete record = outcome ↔ page.Deletes record outcome :=
  ⟨fun same => same ▸ sound.deletes_delete record,
    fun deletes => deletes.unique (sound.deletes_delete record)⟩

/-- Deleting the record that an insert returned restores the page. -/
theorem delete_insert (sound : page.Sound schema size) {row : Row} {record : RecordId}
    (inserted : page.insert row = .ok (record, changed)) : changed.delete record = .ok page := by
  obtain ⟨-, -, -, soundToo, -⟩ := sound.insert_ok inserted
  cases sound.insert_eq_iff.mp inserted with
  | @placed slot changed agrees least replaces =>
      have held : changed.row? slot ≠ none := by
        rw [replaces.rows, if_pos rfl]
        exact Option.some_ne_none _
      have named : page.id = changed.id := by rw [replaces.same]
      have restores := soundToo.replaces_clear (replaces.slotCountIs ▸ least.inside)
      have bit := sound.occupied slot least.inside
      rw [← least.free] at restores
      refine soundToo.delete_eq_iff.mpr (.freed named (replaces.slotCountIs ▸ least.inside) held ?_)
      rwa [replaces.undone restores bit, least.free] at restores

end Sound

/-! ### Changing a page in place -/

def isUsed? (page : Page) (slot : Nat) : Option Bool :=
  if slot < page.slotCount then
    page.bitmap[slot / 8]?.map fun byte => byte &&& Layout.mask slot != 0
  else some false

def seekFree? (page : Page) : List Nat → Option (Option Nat)
  | [] => some none
  | slot :: slots => do
      if ← page.isUsed? slot then page.seekFree? slots else some (some slot)

def setUsed? (page : Page) (slot : Nat) (used : Bool) : Option Page := do
  let byte ← page.bitmap[slot / 8]?
  let changed := if used then byte ||| Layout.mask slot else byte &&& ~~~ Layout.mask slot
  some { page with bitmap := page.bitmap.setIfInBounds (slot / 8) changed }

def setEntry? (page : Page) (slot : Nat) (entry : Option Row) : Option Page :=
  if slot < page.slots.size then
    some { page with slots := page.slots.setIfInBounds slot entry }
  else none

/-- `insert` in place, with the page left at the end even if it fails. -/
def insertInPlace? (page : Page) (row : Row) : Option (Except StorageError RecordId × Page) :=
  if row.schema.agrees page.schema then do
    match ← page.seekFree? (List.range page.slotCount) with
    | none => some (.error (.pageFull page.id), page)
    | some slot =>
        let page ← page.setUsed? slot true
        let page ← page.setEntry? slot (some (row.placed (some ⟨page.id, slot⟩)))
        some (.ok ⟨page.id, slot⟩, page)
  else some (.error .schemaMismatch, page)

def deleteInPlace? (page : Page) (record : RecordId) : Option (Except StorageError Unit × Page) :=
  if record.page ≠ page.id then some (.error (.foreignPage page.id record.page), page)
  else if page.slotCount ≤ record.slot then
    some (.error (.slotOutOfRange record.slot page.slotCount), page)
  else do
    if ← page.isUsed? record.slot then
      let page ← page.setUsed? record.slot false
      let page ← page.setEntry? record.slot none
      some (.ok (), page)
    else some (.error (.slotEmpty page.id record.slot), page)

def afterInsert (page : Page) :
    Except StorageError (RecordId × Page) → Except StorageError RecordId × Page
  | .ok (record, changed) => (.ok record, changed)
  | .error error => (.error error, page)

def afterDelete (page : Page) : Except StorageError Page → Except StorageError Unit × Page
  | .ok changed => (.ok (), changed)
  | .error error => (.error error, page)

theorem setIfInBounds_eq_modify {bytes : Array UInt8} {index : Nat} (inside : index < bytes.size)
    (change : UInt8 → UInt8) :
    bytes.setIfInBounds index (change bytes[index]) = bytes.modify index change := by
  refine Array.ext_getElem? fun place => ?_
  rw [Array.getElem?_setIfInBounds, Array.getElem?_modify]
  split
  · next here =>
      subst here
      rw [Array.getElem?_eq_getElem inside]
      rfl
  · rfl

namespace Sound

theorem isUsed?_eq (sound : page.Sound schema size) (slot : Nat) :
    page.isUsed? slot = some (page.isUsed slot) := by
  unfold isUsed? isUsed
  by_cases inside : slot < page.slotCount
  · rw [if_pos inside, decide_eq_true inside, Bool.true_and, Layout.isSet,
      Array.getD_eq_getD_getElem?, Array.getElem?_eq_getElem (sound.byte_of_slot inside)]
    rfl
  · rw [if_neg inside, decide_eq_false inside, Bool.false_and]

theorem seekFree?_eq (sound : page.Sound schema size) (slots : List Nat) :
    page.seekFree? slots = some (slots.find? fun slot => !page.isUsed slot) := by
  induction slots with
  | nil => rfl
  | cons slot slots ih =>
      rw [seekFree?, sound.isUsed?_eq, List.find?_cons]
      cases page.isUsed slot
      · rfl
      · exact ih

theorem setUsed?_eq (sound : page.Sound schema size) (inside : slot < page.slotCount) (used : Bool) :
    page.setUsed? slot used = some
      { page with
        bitmap := if used then Layout.setBit page.bitmap slot
          else Layout.clearBit page.bitmap slot } := by
  have byte := sound.byte_of_slot inside
  unfold setUsed?
  rw [Array.getElem?_eq_getElem byte]
  cases used
  · exact congrArg (fun bitmap => some { page with bitmap := bitmap })
      (setIfInBounds_eq_modify byte fun byte => byte &&& ~~~ Layout.mask slot)
  · exact congrArg (fun bitmap => some { page with bitmap := bitmap })
      (setIfInBounds_eq_modify byte fun byte => byte ||| Layout.mask slot)

/-- The in-place `insert` stays in range and changes nothing when it fails. -/
theorem insertInPlace?_eq (sound : page.Sound schema size) (row : Row) :
    page.insertInPlace? row = some (page.afterInsert (page.insert row)) := by
  unfold insertInPlace? insert
  split
  · rw [sound.seekFree?_eq, ← firstFree?]
    cases found : page.firstFree? with
    | none => rfl
    | some slot =>
        have inside := (sound.leastFree_of_firstFree? found).inside
        have room : slot < page.slots.size := inside
        simp only [Option.bind_eq_bind, Option.bind_some, sound.setUsed?_eq inside, setEntry?,
          if_pos room]
        rfl
  · rfl

/-- The in-place `delete` stays in range and changes nothing when it fails. -/
theorem deleteInPlace?_eq (sound : page.Sound schema size) (record : RecordId) :
    page.deleteInPlace? record = some (page.afterDelete (page.delete record)) := by
  unfold deleteInPlace? delete
  split
  · rfl
  · split
    · rfl
    · next inside =>
        have inside := Nat.lt_of_not_le inside
        have room : record.slot < page.slots.size := inside
        rw [sound.isUsed?_eq]
        cases page.isUsed record.slot with
        | false => rfl
        | true =>
            simp only [Option.bind_eq_bind, Option.bind_some, sound.setUsed?_eq inside, setEntry?,
              if_pos room]
            rfl

end Sound

/-! ### Edited pages -/

/-- The page behaves as a map from slots to rows: exact failures, the lowest free slot, no other
slot changed, and a delete undoes an insert. -/
structure ActsAsMap (page : Page) : Prop where
  inserts : ∀ row outcome, page.insert row = outcome ↔ page.Inserts row outcome
  deletes : ∀ record outcome, page.delete record = outcome ↔ page.Deletes record outcome
  insertsInPlace : ∀ row, page.insertInPlace? row = some (page.afterInsert (page.insert row))
  deletesInPlace : ∀ record,
    page.deleteInPlace? record = some (page.afterDelete (page.delete record))
  restores : ∀ row record changed, page.insert row = .ok (record, changed) →
    changed.delete record = .ok page

theorem Sound.actsAsMap (sound : page.Sound schema size) : page.ActsAsMap where
  inserts _ _ := sound.insert_eq_iff
  deletes _ _ := sound.delete_eq_iff
  insertsInPlace := sound.insertInPlace?_eq
  deletesInPlace := sound.deleteInPlace?_eq
  restores _ _ _ := sound.delete_insert

/-- A decoded page keeps its id and schema through any edits, and acts as a map from slots to rows
after them. -/
theorem edits_act_on_map {id : PageId} {bytes : List UInt8}
    (decoded : decode id schema bytes = .ok page) (edits : List Edit) :
    (page.editAll edits).id = id ∧ (page.editAll edits).schema = schema ∧
      (page.editAll edits).ActsAsMap := by
  have loaded := loaded_of_decode decoded
  obtain ⟨sound, idIs, -⟩ := loaded.sound.keeps_editAll edits
  exact ⟨idIs.trans loaded.idIs, sound.schemaIs, sound.actsAsMap⟩

theorem edits_act_on_map_small :
    ∃ page, decode ⟨⟨7⟩, 0⟩ (.ofTypes [.int]) halfFull = .ok page ∧
      ∃ changed, (page.editAll hustle).insert seven = .ok (⟨⟨⟨7⟩, 0⟩, 0⟩, changed) ∧
        (page.editAll hustle).Inserts seven (.ok (⟨⟨⟨7⟩, 0⟩, 0⟩, changed)) ∧
        changed.delete ⟨⟨⟨7⟩, 0⟩, 0⟩ = .ok (page.editAll hustle) ∧
        changed.insertInPlace? seven = some (.error (.pageFull ⟨⟨7⟩, 0⟩), changed) ∧
        (page.editAll hustle).Deletes ⟨⟨⟨7⟩, 0⟩, 0⟩ (.error (.slotEmpty ⟨⟨7⟩, 0⟩ 0)) := by
  obtain ⟨page, decoded⟩ :
      ∃ page, decode ⟨⟨7⟩, 0⟩ (.ofTypes [.int]) halfFull = .ok page := ⟨_, rfl⟩
  obtain ⟨-, -, acts⟩ := edits_act_on_map decoded hustle
  obtain ⟨changed, inserted⟩ :
      ∃ changed, (page.editAll hustle).insert seven = .ok (⟨⟨⟨7⟩, 0⟩, 0⟩, changed) := by
    cases decoded
    exact ⟨_, rfl⟩
  have again : page.editAll (hustle ++ [.insert seven]) = changed := by
    rw [editAll_concat, edit, inserted]
  obtain ⟨-, -, actsToo⟩ := edits_act_on_map decoded (hustle ++ [.insert seven])
  rw [again] at actsToo
  have full : changed.insert seven = .error (.pageFull ⟨⟨7⟩, 0⟩) := by
    rw [← again]
    cases decoded
    rfl
  refine ⟨page, decoded, changed, inserted, (acts.inserts _ _).mp inserted,
    acts.restores _ _ _ inserted, ?_, (acts.deletes _ _).mp ?_⟩
  · rw [actsToo.insertsInPlace, full]
    rfl
  · cases decoded
    rfl

end RecordStore.Page
