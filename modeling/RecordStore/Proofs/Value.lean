import RecordStore.Proofs.Text.Utf8
import RecordStore.Value

set_option autoImplicit false

/-! Encoding and decoding of values. The encoding has the width of the type, and decodes to the same
value, but for a text that was cut. -/

namespace RecordStore

theorem wordOfBytes_wordBytes (word : UInt32) :
    wordOfBytes (UInt8.ofNat (word.toNat / 16777216)) (UInt8.ofNat (word.toNat / 65536))
      (UInt8.ofNat (word.toNat / 256)) (UInt8.ofNat word.toNat) = word := by
  have limit : word.toNat < 4294967296 := word.toNat_lt
  unfold wordOfBytes
  simp only [UInt8.toNat_ofNat']
  apply UInt32.toNat_inj.mp
  rw [UInt32.toNat_ofNat_of_lt' (by simp only [UInt32.size]; omega)]
  omega

theorem length_wordBytes (word : UInt32) : (wordBytes word).length = 4 := rfl

theorem readWord_wordBytes (word : UInt32) (rest : List UInt8) :
    readWord (wordBytes word ++ rest) = .ok (word.toInt32, rest) := by
  unfold wordBytes
  simp only [List.cons_append, List.nil_append, readWord, wordOfBytes_wordBytes]

theorem readBytes_append {count : Nat} {front : List UInt8} (rest : List UInt8)
    (exact : front.length = count) : readBytes count (front ++ rest) = .ok (front, rest) := by
  subst exact
  simp [readBytes]

def paddedText (content : String) : List UInt8 :=
  storedText content ++ List.replicate (textRoom - (storedText content).length) 0

theorem length_storedText (content : String) : (storedText content).length ≤ textRoom :=
  Utf8.length_encode_clip textRoom content.toList

theorem length_paddedText (content : String) : (paddedText content).length = textRoom := by
  have fits := length_storedText content
  simp only [paddedText, List.length_append, List.length_replicate]
  omega

theorem toInt_length {length : Nat} (fits : length ≤ textRoom) :
    (UInt32.ofNat length).toInt32.toInt = length := by
  have small : length < 2 ^ 31 := Nat.lt_of_le_of_lt fits (by decide)
  rw [UInt32.toInt32_ofNat', Int32.toInt_ofNat_of_lt small]

theorem readText_paddedText (content : String) :
    readText (UInt32.ofNat (storedText content).length).toInt32 (paddedText content) =
      .ok (Value.text content).stored := by
  have fits := length_storedText content
  have length := toInt_length fits
  have inRange : ¬ ((UInt32.ofNat (storedText content).length).toInt32 < 0 ∨
      textRoom < (UInt32.ofNat (storedText content).length).toInt32.toInt.toNat) := by
    rw [Int32.lt_iff_toInt_lt, length]
    simp only [Int32.toInt_zero, Int.toNat_natCast]
    omega
  unfold readText
  rw [if_neg inRange, length, Int.toNat_natCast]
  have front : (paddedText content).take (storedText content).length = storedText content :=
    List.take_left
  rw [front, storedText, Utf8.decode_encode]
  rfl

namespace Value

theorem encode_text (content : String) :
    (Value.text content).encode =
      wordBytes (UInt32.ofNat (storedText content).length) ++ paddedText content := by
  simp only [encode, paddedText, List.append_assoc]

theorem length_encode (value : Value) : value.encode.length = value.type.width := by
  cases value with
  | int number => rfl
  | text content =>
      rw [encode_text, List.length_append, length_wordBytes, length_paddedText]
      rfl

theorem decode_encode (value : Value) (rest : List UInt8) :
    value.type.decode (value.encode ++ rest) = .ok (value.stored, rest) := by
  cases value with
  | int number =>
      simp only [type, encode, ColumnType.decode, readWord_wordBytes, Int32.toInt32_toUInt32]
      rfl
  | text content =>
      rw [encode_text, List.append_assoc]
      simp only [type, ColumnType.decode, readWord_wordBytes,
        readBytes_append rest (length_paddedText content), readText_paddedText]

@[simp] theorem type_stored (value : Value) : value.stored.type = value.type := by
  cases value <;> rfl

theorem storedText_stored (content : String) :
    storedText (String.ofList (Utf8.clip textRoom content.toList)) = storedText content := by
  rw [storedText, String.toList_ofList, Utf8.clip_clip]
  rfl

@[simp] theorem encode_stored (value : Value) : value.stored.encode = value.encode := by
  cases value with
  | int number => rfl
  | text content => rw [stored, encode_text, encode_text, paddedText, paddedText, storedText_stored]

/-- A text is stored whole iff its bytes fit the room for a text. -/
theorem stored_text_eq_self_iff (content : String) :
    (Value.text content).stored = .text content ↔
      (Utf8.encode content.toList).length ≤ textRoom := by
  rw [← Utf8.clip_eq_self_iff, stored, Value.text.injEq]
  constructor
  · intro same
    have letters := congrArg String.toList same
    rwa [String.toList_ofList] at letters
  · intro same
    rw [same, String.ofList_toList]

end Value

private theorem stored_of_readText {length : Int32} {payload : List UInt8} {value : Value}
    (found : readText length payload = .ok value) : value.stored = value := by
  unfold readText at found
  split at found
  · cases found
  · next inRange =>
      cases decoded : Utf8.decode (payload.take length.toInt.toNat) with
      | error fault =>
          rw [decoded] at found
          cases found
      | ok characters =>
          simp only [decoded, Except.ok.injEq] at found
          rw [← found, Value.stored_text_eq_self_iff, String.toList_ofList,
            Utf8.encode_of_decode decoded, List.length_take]
          omega

theorem ColumnType.stored_of_decode {type : ColumnType} {bytes rest : List UInt8} {value : Value}
    (decoded : type.decode bytes = .ok (value, rest)) : value.stored = value := by
  cases type with
  | int =>
      unfold ColumnType.decode at decoded
      cases read : readWord bytes with
      | error error => simp [read] at decoded
      | ok pair =>
          simp only [read, Except.ok.injEq, Prod.mk.injEq] at decoded
          rw [← decoded.1]
          rfl
  | text =>
      unfold ColumnType.decode at decoded
      cases read : readWord bytes with
      | error error => simp [read] at decoded
      | ok pair =>
          cases taken : readBytes textRoom pair.2 with
          | error error => simp [read, taken] at decoded
          | ok parts =>
              cases text : readText pair.1 parts.1 with
              | error error => simp [read, taken, text] at decoded
              | ok found =>
                  simp only [read, taken, text, Except.ok.injEq, Prod.mk.injEq] at decoded
                  rw [← decoded.1]
                  exact stored_of_readText text

end RecordStore
