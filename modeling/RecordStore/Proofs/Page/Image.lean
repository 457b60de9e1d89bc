import Mathlib.Data.List.DropRight
import Mathlib.Data.List.Induction
import RecordStore.Proofs.Page.Map
import RecordStore.Proofs.Page.Rewriting

set_option autoImplicit false

/-! The before-image of a page consists of bytes that were read or encoded, and decodes in both
cases. So the rows at that moment can be read again after any edits. -/

namespace RecordStore

/-- The same place and the same values, texts being cut to their room. -/
structure Row.KeptAs (row found : Row) : Prop where
  place : found.place = row.place
  values : List.Forall₂ Value.Cut row.values found.values

namespace Page

variable {page again : Page} {id : PageId} {schema : Schema} {bytes : List UInt8} {size : Nat}

/-! ### The edits up to an image -/

def Edit.takesImage : Edit → Bool
  | .remember => true
  | _ => false

theorem Edit.takesImage_iff {edit : Edit} : edit.takesImage = true ↔ edit = .remember := by
  cases edit <;> simp [takesImage]

/-- The edits up to the last `remember`, or none. -/
def untilImage (edits : List Edit) : List Edit := edits.rdropWhile fun edit => !edit.takesImage

theorem untilImage_concat_remember (edits : List Edit) :
    untilImage (edits ++ [.remember]) = edits ++ [.remember] :=
  List.rdropWhile_concat_neg _ _ _ Bool.false_ne_true

theorem untilImage_concat (edits : List Edit) {last : Edit} (other : last ≠ .remember) :
    untilImage (edits ++ [last]) = untilImage edits := by
  refine List.rdropWhile_concat_pos _ _ _ ?_
  cases takes : last.takesImage with
  | false => rfl
  | true => exact absurd (Edit.takesImage_iff.mp takes) other

/-! ### One edit -/

/-- Only `remember` changes the before-image. -/
theorem Sound.beforeImage_edit (sound : page.Sound schema size) {edit : Edit}
    (other : edit ≠ .remember) : (page.edit edit).beforeImage = page.beforeImage := by
  cases edit with
  | insert row =>
      have outcome := sound.inserts_insert row
      cases inserted : page.insert row with
      | error error => simp only [Page.edit, inserted]
      | ok pair =>
          rw [inserted] at outcome
          simp only [Page.edit, inserted]
          cases outcome with
          | placed _ _ replaces => rw [replaces.same]
  | delete record =>
      have outcome := sound.deletes_delete record
      cases deleted : page.delete record with
      | error error => simp only [Page.edit, deleted]
      | ok changed =>
          rw [deleted] at outcome
          simp only [Page.edit, deleted]
          cases outcome with
          | freed _ _ _ replaces => rw [replaces.same]
  | mark dirtier => rfl
  | remember => exact absurd rfl other

theorem Sound.beforePage_edit (sound : page.Sound schema size) {edit : Edit}
    (other : edit ≠ .remember) : (page.edit edit).beforePage = page.beforePage := by
  have keeps := sound.keeps_edit edit
  rw [beforePage, beforePage, sound.beforeImage_edit other, keeps.idIs, keeps.sound.schemaIs,
    sound.schemaIs]

/-- The before-image can be decoded right after `remember`. -/
theorem Sound.beforePage_remembered (sound : page.Sound schema size) :
    ∃ image, page.remembered.beforePage = .ok image ∧ page.remembered.Reread image := by
  obtain ⟨image, decoded, reread⟩ := sound.remembered.reread rfl
  refine ⟨image, ?_, reread⟩
  rw [beforePage, sound.remembered.schemaIs]
  exact decoded

/-! ### Rows found again -/

theorem Reread.row? (reread : page.Reread again) (slot : Nat) :
    Option.Rel Row.KeptAs (page.row? slot) (again.row? slot) := by
  have taken := reread.taken slot
  cases held : page.row? slot with
  | none =>
      rw [held] at taken
      rw [Option.not_isSome_iff_eq_none.mp (Bool.eq_false_iff.mp taken)]
      exact .none
  | some row =>
      rw [held] at taken
      obtain ⟨found, heldToo⟩ := Option.isSome_iff_exists.mp taken
      rw [heldToo]
      exact .some ⟨reread.places slot row found held heldToo,
        reread.values slot row found held heldToo⟩

/-- The rows of a page that was read again are those of the page, one by one. -/
theorem Reread.rows (reread : page.Reread again) :
    List.Forall₂ Row.KeptAs page.rows again.rows := by
  rw [Page.rows, Page.rows, toList_slots, toList_slots, reread.slotCountIs, List.filterMap_map,
    List.filterMap_map]
  refine List.rel_filterMap ?_ (List.forall₂_same.mpr fun slot _ => (rfl : slot = slot))
  rintro slot _ rfl
  exact reread.row? slot

theorem Loaded.reread (loaded : page.Loaded id schema bytes) : page.Reread page where
  idIs := rfl
  schemaIs := rfl
  sizeIs := rfl
  bitmap := rfl
  slotCountIs := rfl
  taken _ := rfl
  places slot row found held heldToo := by
    cases held.symm.trans heldToo
    rfl
  values slot row found held heldToo := by
    cases held.symm.trans heldToo
    have cut := row.cut_stored
    rwa [(loaded.exact slot row held).2] at cut
  written := rfl

/-! ### Any number of edits -/

theorem beforePage_editAll (decoded : decode id schema bytes = .ok page) (edits : List Edit) :
    ∃ image, (page.editAll edits).beforePage = .ok image ∧
      (page.editAll (untilImage edits)).Reread image := by
  have loaded := loaded_of_decode decoded
  -- By the last edit: `remember` takes a new image, and other edits keep the former one.
  induction edits using List.reverseRecOn with
  | nil =>
      refine ⟨page, ?_, loaded.reread⟩
      have image : (page.editAll []).beforePage = decode page.id page.schema page.beforeImage := rfl
      rw [image, loaded.idIs, loaded.sound.schemaIs, loaded.image, decoded]
  | append_singleton edits last ih =>
      have sound := (loaded.sound.keeps_editAll edits).sound
      rw [editAll_concat]
      by_cases takes : last = .remember
      · subst takes
        rw [untilImage_concat_remember, editAll_concat]
        exact sound.beforePage_remembered
      · rw [sound.beforePage_edit takes, untilImage_concat edits takes]
        exact ih

/-- After any edits of a decoded page, `beforePage` succeeds and has the rows that the page had at
the last `remember`, or when it was decoded. Other edits leave the before-image as it is, and
`remember` sets it to the encoding of the page. -/
theorem before_image_shows_last_taken (decoded : decode id schema bytes = .ok page) :
    (∀ edits, ∃ image, (page.editAll edits).beforePage = .ok image ∧
      (page.editAll (untilImage edits)).Reread image ∧
      List.Forall₂ Row.KeptAs (page.editAll (untilImage edits)).rows image.rows) ∧
    (∀ edits last, last ≠ .remember →
      (page.editAll (edits ++ [last])).beforeImage = (page.editAll edits).beforeImage ∧
      (page.editAll (edits ++ [last])).beforePage = (page.editAll edits).beforePage) ∧
    ∀ edits, (page.editAll (edits ++ [.remember])).beforeImage =
      (page.editAll (edits ++ [.remember])).encode := by
  refine ⟨fun edits => ?_, fun edits last other => ?_, fun edits => ?_⟩
  · obtain ⟨image, read, reread⟩ := beforePage_editAll decoded edits
    exact ⟨image, read, reread, reread.rows⟩
  · have sound := ((loaded_of_decode decoded).sound.keeps_editAll edits).sound
    rw [editAll_concat]
    exact ⟨sound.beforeImage_edit other, sound.beforePage_edit other⟩
  · rw [editAll_concat]
    rfl

/-- A text that has to be cut replaces another, `remember`, and the page is emptied. -/
def upheaval : List Edit :=
  [.delete ⟨⟨⟨7⟩, 0⟩, 0⟩, .insert lengthy, .mark (some ⟨1⟩), .remember, .mark none,
    .delete ⟨⟨⟨7⟩, 0⟩, 0⟩, .insert seven]

set_option maxRecDepth 4096 in
theorem before_image_shows_last_taken_small :
    ∃ page, decode ⟨⟨7⟩, 0⟩ (.ofTypes [.text]) scribbled = .ok page ∧
      (page.editAll upheaval).rows = [] ∧
      (∃ image, (page.editAll upheaval).beforePage = .ok image ∧
        List.Forall₂ Row.KeptAs [lengthy.placed (some ⟨⟨⟨7⟩, 0⟩, 0⟩)] image.rows) ∧
      ∃ former, (page.editAll (upheaval.take 3)).beforePage = .ok former ∧
        page.rows.map Row.values = [[.text "hi"]] ∧
        List.Forall₂ Row.KeptAs page.rows former.rows := by
  obtain ⟨page, decoded⟩ :
      ∃ page, decode ⟨⟨7⟩, 0⟩ (.ofTypes [.text]) scribbled = .ok page := ⟨_, rfl⟩
  obtain ⟨shows, -, -⟩ := before_image_shows_last_taken decoded
  obtain ⟨image, read, -, kept⟩ := shows upheaval
  obtain ⟨former, readFormer, -, keptFormer⟩ := shows (upheaval.take 3)
  have moment : (page.editAll (untilImage upheaval)).rows =
      [lengthy.placed (some ⟨⟨⟨7⟩, 0⟩, 0⟩)] := by
    cases decoded
    rfl
  rw [moment] at kept
  refine ⟨page, decoded, ?_, ⟨image, read, kept⟩, former, readFormer, ?_, keptFormer⟩
  · cases decoded
    rfl
  · cases decoded
    decide +kernel

end Page

end RecordStore
