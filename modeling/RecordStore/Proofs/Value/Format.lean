import RecordStore.Proofs.Page.Padding

set_option autoImplicit false

/-! The bytes that decode as a text: enough bytes for the room of a text, a length in range, and
that many bytes of UTF-8; the first condition that fails determines the error. Encoding the text
gives the same bytes iff the rest of the room is zeros. -/

namespace RecordStore

def bigEndian (bytes : List UInt8) : Nat :=
  bytes.foldl (fun number byte => number * 256 + byte.toNat) 0

def signedFront (bytes : List UInt8) : Int := (bigEndian (bytes.take 4) : Int).bmod (2 ^ 32)

/-- A length and that many bytes of UTF-8, in the room for a text. -/
structure StartsWithText (bytes : List UInt8) (characters : List Char) : Prop where
  enough : ColumnType.text.width ≤ bytes.length
  least : 0 ≤ signedFront bytes
  most : signedFront bytes ≤ 128
  counted : Utf8.encode characters = (bytes.drop 4).take (signedFront bytes).toNat

theorem toInt_leadingNumber {bytes : List UInt8} (enough : 4 ≤ bytes.length) :
    (leadingNumber bytes).toInt = signedFront bytes := by
  match bytes, enough with
  | first :: second :: third :: fourth :: rest, _ =>
      have digits : bigEndian [first, second, third, fourth] =
          ((first.toNat * 256 + second.toNat) * 256 + third.toNat) * 256 + fourth.toNat := by
        simp only [bigEndian, List.foldl_cons, List.foldl_nil, Nat.zero_mul, Nat.zero_add]
      have size : Int32.size = 2 ^ 32 := rfl
      rw [leadingNumber, wordOfBytes, UInt32.toInt32_ofNat', Int32.toInt_ofNat', size, ← digits]
      rfl

theorem startsWithText_iff {bytes : List UInt8} {characters : List Char} :
    StartsWithText bytes characters ↔
      ColumnType.text.width ≤ bytes.length ∧ Measured bytes ∧
        Utf8.encode characters = countedBytes bytes := by
  by_cases enough : ColumnType.text.width ≤ bytes.length
  · have number := toInt_leadingNumber (Nat.le_trans (Nat.le_add_right 4 textRoom) enough)
    rw [Measured, countedBytes, countOf, number]
    exact ⟨fun starts => ⟨enough, ⟨starts.least, starts.most⟩, starts.counted⟩,
      fun parts => ⟨enough, parts.2.1.1, parts.2.1.2, parts.2.2⟩⟩
  · exact ⟨fun starts => absurd starts.enough enough, fun parts => absurd parts.1 enough⟩

namespace ColumnType

/-- With too few bytes for a text nothing else is looked at. -/
theorem decode_text_short {bytes : List UInt8} (short : bytes.length < ColumnType.text.width) :
    ColumnType.text.decode bytes = .error (.system .endOfBytes) := by
  unfold ColumnType.decode
  by_cases number : 4 ≤ bytes.length
  · have missing : ((bytes.drop 4).take textRoom).length ≠ textRoom := by
      have room : bytes.length < 4 + textRoom := short
      rw [List.length_take, List.length_drop]
      omega
    simp only [readWord_eq number, readBytes, if_neg missing]
  · simp only [readWord_short (Nat.lt_of_not_le number)]

theorem decode_text_ok_iff {bytes rest : List UInt8} {value : Value} :
    ColumnType.text.decode bytes = .ok (value, rest) ↔
      ∃ characters, StartsWithText bytes characters ∧
        value = .text (String.ofList characters) ∧ rest = bytes.drop ColumnType.text.width := by
  by_cases enough : ColumnType.text.width ≤ bytes.length
  · rw [decode_text enough]
    constructor
    · intro decoded
      obtain ⟨found, read, same⟩ := found_of_map_ok decoded
      cases same
      obtain ⟨measured, characters, counted, rfl⟩ := readText_ok read
      exact ⟨characters,
        startsWithText_iff.mpr ⟨enough, measured, Utf8.encode_of_decode counted⟩, rfl, rfl⟩
    · rintro ⟨characters, starts, rfl, rfl⟩
      obtain ⟨-, measured, counted⟩ := startsWithText_iff.mp starts
      have read : Utf8.decode (countedBytes bytes) = .ok characters := by
        rw [← counted, Utf8.decode_encode]
      rw [readText_of_measured measured, read]
      rfl
  · rw [decode_text_short (Nat.lt_of_not_le enough)]
    exact ⟨nofun, fun found => absurd found.choose_spec.1.enough enough⟩

theorem decode_text_error_iff {bytes : List UInt8} {error : StorageError} :
    ColumnType.text.decode bytes = .error error ↔
      bytes.length < ColumnType.text.width ∧ error = .system .endOfBytes ∨
        ColumnType.text.width ≤ bytes.length ∧
          ∃ cause, BadText bytes cause ∧ error = .corrupt cause := by
  by_cases enough : ColumnType.text.width ≤ bytes.length
  · rw [decode_text enough, map_error_iff, readText_error_iff]
    exact ⟨fun bad => .inr ⟨enough, bad⟩,
      fun cases => (cases.resolve_left fun short => absurd short.1 (Nat.not_lt.mpr enough)).2⟩
  · have short := Nat.lt_of_not_le enough
    rw [decode_text_short short]
    constructor
    · intro same
      exact .inl ⟨short, (Except.error.inj same).symm⟩
    · intro found
      rw [(found.resolve_right fun bad => enough bad.1).2]

/-- A decoded text is encoded in the bytes it was read from iff the rest of its room is zeros. -/
theorem encode_eq_take_iff {bytes rest : List UInt8} {value : Value}
    (decoded : ColumnType.text.decode bytes = .ok (value, rest)) :
    value.encode = bytes.take ColumnType.text.width ↔
      ∀ place, 4 + countOf bytes ≤ place → place < ColumnType.text.width →
        bytes[place]? = some 0 := by
  obtain ⟨characters, starts, -, -⟩ := decode_text_ok_iff.mp decoded
  obtain ⟨enough, measured, -⟩ := startsWithText_iff.mp starts
  have fits := measured.countOf_le
  have front : (bytes.take (4 + countOf bytes)).length = 4 + countOf bytes := by
    have room : 4 + textRoom ≤ bytes.length := enough
    rw [List.length_take]
    omega
  have width : ColumnType.text.width = 4 + textRoom := rfl
  have split : bytes.take ColumnType.text.width = bytes.take (4 + countOf bytes) ++
      (bytes.drop (4 + countOf bytes)).take (textRoom - countOf bytes) := by
    rw [← List.take_add]
    congr 1
    omega
  rw [encode_of_decode_text enough decoded, split, List.append_cancel_left_eq]
  constructor
  · intro zeros place behind inside
    obtain ⟨more, rfl⟩ := Nat.exists_eq_add_of_le behind
    have few : more < textRoom - countOf bytes := by omega
    rw [← List.getElem?_drop, ← List.getElem?_take_of_lt few, ← zeros,
      List.getElem?_replicate, if_pos few]
  · intro zeros
    refine List.ext_getElem? fun more => ?_
    rw [List.getElem?_replicate, List.getElem?_take, List.getElem?_drop]
    split
    · next few => exact (zeros _ (Nat.le_add_right _ _) (by omega)).symm
    · rfl

/-- `decode` accepts bytes as a text iff they start with a length within the room and that many
bytes of UTF-8. Too few bytes fail with `endOfBytes`, and otherwise the length or the UTF-8 is at
fault. The text is encoded in the same bytes iff the rest of its room is zeros, and decodes from its
encoding in any case. -/
theorem reads_texts_in_form (bytes : List UInt8) :
    (∀ value rest, ColumnType.text.decode bytes = .ok (value, rest) ↔
      ∃ characters, StartsWithText bytes characters ∧
        value = .text (String.ofList characters) ∧ rest = bytes.drop ColumnType.text.width) ∧
    (∀ error, ColumnType.text.decode bytes = .error error ↔
      bytes.length < ColumnType.text.width ∧ error = .system .endOfBytes ∨
        ColumnType.text.width ≤ bytes.length ∧
          ∃ cause, BadText bytes cause ∧ error = .corrupt cause) ∧
    ∀ value rest, ColumnType.text.decode bytes = .ok (value, rest) →
      (value.encode = bytes.take ColumnType.text.width ↔
        ∀ place, 4 + (signedFront bytes).toNat ≤ place → place < ColumnType.text.width →
          bytes[place]? = some 0) ∧
      ∀ others, ColumnType.text.decode (value.encode ++ others) = .ok (value, others) := by
  refine ⟨fun value rest => decode_text_ok_iff, fun error => decode_text_error_iff,
    fun value rest decoded => ⟨?_, fun others => ?_⟩⟩
  · obtain ⟨characters, starts, -, -⟩ := decode_text_ok_iff.mp decoded
    rw [encode_eq_take_iff decoded, countOf,
      toInt_leadingNumber (Nat.le_trans (Nat.le_add_right 4 textRoom) starts.enough)]
  · have again := value.decode_encode others
    rwa [type_of_decode decoded, stored_of_decode decoded] at again

/-- Two letters with other bytes behind them. -/
def scrawl : List UInt8 := wordBytes 2 ++ [104, 105, 9] ++ List.replicate 125 0

theorem reads_texts_in_form_small :
    ColumnType.text.decode scrawl = .ok (.text "hi", []) ∧
    (Value.text "hi").encode ≠ scrawl.take ColumnType.text.width ∧
    ColumnType.text.decode ((Value.text "hi").encode ++ [7]) = .ok (.text "hi", [7]) ∧
    ColumnType.text.decode (scrawl.take 131) = .error (.system .endOfBytes) := by
  obtain ⟨accepted, -, settled⟩ := reads_texts_in_form scrawl
  have read : ColumnType.text.decode scrawl = .ok (.text "hi", []) :=
    (accepted _ _).mpr ⟨['h', 'i'],
      ⟨by decide +kernel, by decide +kernel, by decide +kernel, by decide +kernel⟩, rfl, rfl⟩
  obtain ⟨written, again⟩ := settled _ _ read
  refine ⟨read, fun same => ?_, again [7], ?_⟩
  · exact absurd (written.mp same 6 (by decide) (by decide)) (by decide)
  · exact ((reads_texts_in_form (scrawl.take 131)).2.1 _).mpr (.inl ⟨by decide +kernel, rfl⟩)

end ColumnType

end RecordStore
