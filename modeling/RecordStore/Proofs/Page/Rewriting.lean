import Mathlib.Data.List.Forall2
import RecordStore.Proofs.Page.Edits
import RecordStore.Proofs.Page.Padding
import RecordStore.Proofs.Page.Reading
import RecordStore.Proofs.Value.Cutting

set_option autoImplicit false

/-! After any edits the encoding of a page decodes to the same rows in the same slots, with texts
cut. From then on encoding and decoding change nothing. -/

namespace RecordStore

/-! ### Rows -/

theorem Row.eq_of_parts {left right : Row} (schema : left.schema = right.schema)
    (values : left.values = right.values) (place : left.place = right.place) : left = right := by
  cases left
  cases right
  cases schema
  cases values
  cases place
  rfl

theorem Row.cut_stored (row : Row) : List.Forall₂ Value.Cut row.values row.stored :=
  List.forall₂_map_right_iff.mpr (List.forall₂_same.mpr fun value _ => value.cut_stored)

namespace Page

variable {page : Page} {id : PageId} {schema : Schema} {bytes : List UInt8} {size : Nat}

/-! ### Pages with the same slots -/

theorem isSome_row?_of_contents {other : Page} (contents : other.contents = page.contents)
    (slot : Nat) : (other.row? slot).isSome = (page.row? slot).isSome := by
  have here := congrArg (fun slots : Slots => slots[slot]?.join) contents
  simp only [contents_join] at here
  rw [← Option.isSome_map, here, Option.isSome_map]

theorem stored_of_contents {other : Page} (contents : other.contents = page.contents) {slot : Nat}
    {row found : Row} (held : page.row? slot = some row) (heldToo : other.row? slot = some found) :
    found.stored = row.stored := by
  have here := congrArg (fun slots : Slots => slots[slot]?.join) contents
  simp only [contents_join, held, heldToo] at here
  exact Option.some.inj here

theorem Loaded.row?_eq {other : Page} {others : List UInt8}
    (loaded : page.Loaded id schema bytes) (also : other.Loaded id schema others)
    (contents : other.contents = page.contents) : other.row? = page.row? := by
  funext slot
  have alike := isSome_row?_of_contents contents slot
  cases held : page.row? slot with
  | none =>
      rw [held] at alike
      exact Option.not_isSome_iff_eq_none.mp (Bool.eq_false_iff.mp alike)
  | some row =>
      rw [held] at alike
      obtain ⟨found, heldToo⟩ := Option.isSome_iff_exists.mp alike
      have stored := stored_of_contents contents held heldToo
      obtain ⟨schemaIs, exact⟩ := loaded.exact slot row held
      obtain ⟨schemaToo, exactToo⟩ := also.exact slot found heldToo
      rw [exact, exactToo] at stored
      rw [heldToo]
      refine congrArg some (Row.eq_of_parts (schemaToo.trans schemaIs.symm) stored ?_)
      rw [(also.sound.fitting slot found heldToo).2, (loaded.sound.fitting slot row held).2,
        also.idIs, loaded.idIs]

/-- Loaded pages are equal if their contents are. -/
theorem Loaded.eq_of_contents {other : Page} {others : List UInt8}
    (loaded : page.Loaded id schema bytes) (also : other.Loaded id schema others)
    (length : others.length = bytes.length) (bitmap : other.bitmap = page.bitmap)
    (contents : other.contents = page.contents) : other = { page with beforeImage := others } := by
  have count : other.slotCount = page.slotCount := by
    rw [slotCount, slotCount, also.sound.slotsSize, loaded.sound.slotsSize, length]
  have slots : other.slots = page.slots := by
    rw [← Array.toList_inj, toList_slots, toList_slots, count, loaded.row?_eq also contents]
  calc other
      = ⟨other.id, other.schema, other.size, other.bitmap, other.slots, other.dirtier,
          other.beforeImage⟩ := rfl
    _ = { page with beforeImage := others } := by
        rw [also.idIs, also.sound.schemaIs, also.sound.sizeIs, bitmap, slots, also.clean,
          also.image, length, ← loaded.idIs, ← loaded.sound.schemaIs, ← loaded.sound.sizeIs,
          ← loaded.clean]

/-! ### Writing and reading again -/

/-- A page decoded from the encoding of this one: the same id, schema, size, bitmap and places,
texts cut, and the same encoding again. -/
structure Reread (page again : Page) : Prop where
  idIs : again.id = page.id
  schemaIs : again.schema = page.schema
  sizeIs : again.size = page.size
  bitmap : again.bitmap = page.bitmap
  slotCountIs : again.slotCount = page.slotCount
  taken : ∀ slot, (again.row? slot).isSome = (page.row? slot).isSome
  places : ∀ slot row found, page.row? slot = some row → again.row? slot = some found →
    found.place = row.place
  values : ∀ slot row found, page.row? slot = some row → again.row? slot = some found →
    List.Forall₂ Value.Cut row.values found.values
  written : again.encode = page.encode

theorem Sound.reread (sound : page.Sound schema size) (idIs : page.id = id) :
    ∃ again, decode id schema page.encode = .ok again ∧ page.Reread again := by
  obtain ⟨again, decoded, contents, bitmap⟩ := sound.decode_encode id
  have loaded := loaded_of_decode decoded
  have length := sound.length_encode
  have schemaIs : again.schema = page.schema := by rw [loaded.sound.schemaIs, sound.schemaIs]
  have sizeIs : again.size = page.size := by rw [loaded.sound.sizeIs, sound.sizeIs, length]
  refine ⟨again, decoded, ?_, schemaIs, sizeIs, bitmap, ?_, isSome_row?_of_contents contents, ?_, ?_,
    encode_congr schemaIs sizeIs bitmap contents⟩
  · rw [loaded.idIs, idIs]
  · rw [← length_contents, contents, length_contents]
  · intro slot row found held heldToo
    rw [(loaded.sound.fitting slot found heldToo).2, (sound.fitting slot row held).2, loaded.idIs,
      idIs]
  · intro slot row found held heldToo
    rw [← (loaded.exact slot found heldToo).2, stored_of_contents contents held heldToo]
    exact row.cut_stored

/-- After any edits, the encoding of a decoded page decodes again, to a page with the same bitmap,
places and values as stored, which has the same encoding. The encoding of the decoded page itself
decodes to that page, and differs from the bytes read only at `Slack` positions. -/
theorem rewriting_settles (decoded : decode id schema bytes = .ok page) :
    (∀ edits, ∃ again, decode id schema (page.editAll edits).encode = .ok again ∧
      (page.editAll edits).Reread again) ∧
    page.encode.length = bytes.length ∧
    decode id schema page.encode = .ok { page with beforeImage := page.encode } ∧
    ({ page with beforeImage := page.encode } : Page).encode = page.encode ∧
    ∀ position, page.encode[position]? ≠ bytes[position]? → Slack schema bytes position := by
  have loaded := loaded_of_decode decoded
  have length := loaded.sound.length_encode
  refine ⟨fun edits => ?_, length, ?_, rfl, fun position differs => ?_⟩
  · obtain ⟨sound, idIs, -⟩ := loaded.sound.keeps_editAll edits
    exact sound.reread (idIs.trans loaded.idIs)
  · obtain ⟨again, read, contents, bitmap⟩ := loaded.sound.decode_encode id
    rw [read, loaded.eq_of_contents (loaded_of_decode read) length bitmap contents]
  · exact (encode_or_slack decoded position).resolve_left differs

/-- A page of one text, with other bytes behind it and behind its slot. -/
def scribbled : List UInt8 := [253] ++ wordBytes 2 ++ [104, 105] ++ List.replicate 133 9

/-- A text that does not fit, and would have to be cut inside a character. -/
def lengthy : Row :=
  ⟨.ofTypes [.text], [.text (String.ofList (List.replicate 127 'a' ++ ['é', 'b']))], none, rfl⟩

set_option maxRecDepth 4096 in
theorem rewriting_settles_small :
    ∃ page, decode ⟨⟨7⟩, 0⟩ (.ofTypes [.text]) scribbled = .ok page ∧
      page.encode = [253] ++ wordBytes 2 ++ [104, 105] ++ List.replicate 133 0 ∧
      decode ⟨⟨7⟩, 0⟩ (.ofTypes [.text]) page.encode =
        .ok { page with beforeImage := page.encode } ∧
      Slack (.ofTypes [.text]) scribbled 139 ∧
      ∃ again, decode ⟨⟨7⟩, 0⟩ (.ofTypes [.text])
          (page.editAll [.delete ⟨⟨⟨7⟩, 0⟩, 0⟩, .insert lengthy]).encode = .ok again ∧
        (page.editAll [.delete ⟨⟨⟨7⟩, 0⟩, 0⟩, .insert lengthy]).Reread again := by
  obtain ⟨page, decoded⟩ :
      ∃ page, decode ⟨⟨7⟩, 0⟩ (.ofTypes [.text]) scribbled = .ok page := ⟨_, rfl⟩
  obtain ⟨edited, -, settled, -, slack⟩ := rewriting_settles decoded
  have written : page.encode = [253] ++ wordBytes 2 ++ [104, 105] ++ List.replicate 133 0 := by
    cases decoded
    decide +kernel
  refine ⟨page, decoded, written, settled, slack 139 ?_, edited _⟩
  rw [written]
  decide +kernel

end Page

end RecordStore
