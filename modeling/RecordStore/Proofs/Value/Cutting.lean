import RecordStore.Proofs.Text.Boundary
import RecordStore.Proofs.Value

set_option autoImplicit false

/-! The value that is kept by encoding: an integer itself, and of a text the longest prefix of whole
characters that fits. Encodings are equal iff the kept values are. -/

namespace RecordStore

/-- A value and what is kept of it: of a text, the longest prefix of whole characters that fits. -/
inductive Value.Cut : Value → Value → Prop where
  | int (number : Int32) : Cut (.int number) (.int number)
  | text {content : String} {kept : List Char} :
      kept <+: content.toList → (Utf8.encode kept).length ≤ textRoom →
      (∀ front, front <+: content.toList → (Utf8.encode front).length ≤ textRoom →
        front <+: kept) →
      Cut (.text content) (.text (String.ofList kept))

theorem storedText_eq_cutBack (content : String) :
    storedText content = Utf8.cutBack textRoom (Utf8.encode content.toList) :=
  Utf8.encode_clip textRoom content.toList

namespace Value

theorem cut_stored (value : Value) : value.Cut value.stored := by
  cases value with
  | int number => exact .int number
  | text content =>
      exact .text (Utf8.clip_prefix _ _) (Utf8.length_encode_clip _ _)
        fun _ begins fits => Utf8.prefix_clip begins fits

theorem cut_iff {value found : Value} : value.Cut found ↔ found = value.stored := by
  constructor
  · intro cut
    cases cut with
    | int number => rfl
    | @text content kept begins fits longest =>
        have within := Utf8.prefix_clip begins fits
        have beyond := longest _ (Utf8.clip_prefix _ _) (Utf8.length_encode_clip _ _)
        rw [within.eq_of_length_le beyond.length_le]
        rfl
  · rintro rfl
    exact value.cut_stored

theorem stored_ofList (characters : List Char) :
    (Value.text (String.ofList characters)).stored =
      .text (String.ofList (Utf8.clip textRoom characters)) := by
  rw [stored, String.toList_ofList]

theorem type_eq_of_encode {left right : Value} (same : left.encode = right.encode) :
    left.type = right.type := by
  have widths := congrArg List.length same
  rw [length_encode, length_encode] at widths
  cases left <;> cases right
  · rfl
  · cases widths
  · cases widths
  · rfl

theorem encode_eq_iff {left right : Value} :
    left.encode = right.encode ↔ left.stored = right.stored := by
  constructor
  · intro same
    have read := left.decode_encode []
    rw [same, type_eq_of_encode same, right.decode_encode, Except.ok.injEq, Prod.mk.injEq] at read
    exact read.1.symm
  · intro same
    rw [← left.encode_stored, same, right.encode_stored]

/-- `encode` has the width of the type and `decode` reads just these bytes, whatever follows, giving
the value with its text cut to the longest prefix of whole characters that fits. Two values have the
same encoding iff the same is kept of them. The cut is found by stepping back from the limit to a
character boundary. -/
theorem encoding_keeps_cut (value : Value) :
    value.encode.length = value.type.width ∧
    (∀ content, value = .text content →
      storedText content = Utf8.cutBack textRoom (Utf8.encode content.toList)) ∧
    ∃ kept, (∀ found, value.Cut found ↔ found = kept) ∧
      (∀ rest, value.type.decode (value.encode ++ rest) = .ok (kept, rest)) ∧
      kept.type = value.type ∧ kept.encode = value.encode ∧
      ∀ other found : Value, other.Cut found → (other.encode = value.encode ↔ found = kept) := by
  refine ⟨value.length_encode, fun content _ => storedText_eq_cutBack content, value.stored,
    fun found => cut_iff, value.decode_encode, value.type_stored, value.encode_stored, ?_⟩
  intro other found cut
  rw [cut_iff.mp cut]
  exact encode_eq_iff

/-- A text whose last room is for one byte, with a character of two bytes at that place. -/
def overlong : Value := .text (String.ofList (List.replicate 127 'a' ++ ['é', 'b']))

theorem encoding_keeps_cut_small :
    overlong.encode.length = 132 ∧
    overlong.Cut (.text (String.ofList (List.replicate 127 'a'))) ∧
    (∀ rest, ColumnType.text.decode (overlong.encode ++ rest) =
      .ok (.text (String.ofList (List.replicate 127 'a')), rest)) ∧
    (Value.text (String.ofList (List.replicate 127 'a' ++ ['ß']))).encode = overlong.encode ∧
    (Value.text (String.ofList (List.replicate 128 'a'))).encode ≠ overlong.encode := by
  obtain ⟨length, -, kept, cut, read, -, -, apart⟩ := encoding_keeps_cut overlong
  have shorter : kept = .text (String.ofList (List.replicate 127 'a')) := by
    have clipped : Utf8.clip textRoom (List.replicate 127 'a' ++ ['é', 'b']) =
        List.replicate 127 'a' := by decide +kernel
    rw [← (cut overlong.stored).mp overlong.cut_stored, overlong, stored_ofList, clipped]
  subst shorter
  refine ⟨length, (cut _).mpr rfl, read, (apart _ _ (cut_stored _)).mpr ?_, ?_⟩
  · have clipped : Utf8.clip textRoom (List.replicate 127 'a' ++ ['ß']) =
        List.replicate 127 'a' := by decide +kernel
    rw [stored_ofList, clipped]
  · have whole : Utf8.clip textRoom (List.replicate 128 'a') ≠ List.replicate 127 'a' := by
      decide +kernel
    rw [Ne, apart _ _ (cut_stored _), stored_ofList, text.injEq, String.ofList_inj]
    exact whole

end Value

end RecordStore
