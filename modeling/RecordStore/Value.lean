import RecordStore.Failure

set_option autoImplicit false

/-! Column types and values. Every type has a fixed width: an integer is a big-endian word, a text
is its length as a word followed by 128 bytes of UTF-8 padded with zeros. -/

namespace RecordStore

inductive ColumnType where
  | int
  | text
  deriving DecidableEq, Inhabited, Repr

inductive Value where
  | int (number : Int32)
  | text (content : String)
  deriving DecidableEq, Inhabited, Repr

def textRoom : Nat := 128

def ColumnType.width : ColumnType → Nat
  | .int => 4
  | .text => 4 + textRoom

def ColumnType.name : ColumnType → String
  | .int => "INT"
  | .text => "STRING"

def Value.type : Value → ColumnType
  | .int _ => .int
  | .text _ => .text

def Value.display : Value → String
  | .int number => toString number.toInt
  | .text content => content

/-- Integers come before texts; texts are ordered by their characters, which is also the order
of their bytes. -/
def Value.compare : Value → Value → Ordering
  | .int left, .int right => Ord.compare left.toInt right.toInt
  | .int _, .text _ => .lt
  | .text _, .int _ => .gt
  | .text left, .text right => Ord.compare left right

instance : Ord Value := ⟨Value.compare⟩

def wordBytes (word : UInt32) : List UInt8 :=
  [UInt8.ofNat (word.toNat / 16777216), UInt8.ofNat (word.toNat / 65536),
    UInt8.ofNat (word.toNat / 256), UInt8.ofNat word.toNat]

def wordOfBytes (first second third fourth : UInt8) : UInt32 :=
  UInt32.ofNat
    (((first.toNat * 256 + second.toNat) * 256 + third.toNat) * 256 + fourth.toNat)

/-- The bytes of a text as it is stored, cut between characters where it is too long. -/
def storedText (content : String) : List UInt8 := Utf8.encode (Utf8.clip textRoom content.toList)

def Value.encode : Value → List UInt8
  | .int number => wordBytes number.toUInt32
  | .text content =>
      let stored := storedText content
      wordBytes (UInt32.ofNat stored.length) ++ stored ++
        List.replicate (textRoom - stored.length) 0

def Value.stored : Value → Value
  | .int number => .int number
  | .text content => .text (String.ofList (Utf8.clip textRoom content.toList))

def readWord : List UInt8 → Except StorageError (Int32 × List UInt8)
  | first :: second :: third :: fourth :: rest =>
      .ok ((wordOfBytes first second third fourth).toInt32, rest)
  | _ => .error (.system .endOfBytes)

def readBytes (count : Nat) (bytes : List UInt8) :
    Except StorageError (List UInt8 × List UInt8) :=
  if (bytes.take count).length = count then .ok (bytes.take count, bytes.drop count)
  else .error (.system .endOfBytes)

def readText (length : Int32) (payload : List UInt8) : Except StorageError Value :=
  if length < 0 ∨ textRoom < length.toInt.toNat then .error (.corrupt (.textLength length))
  else
    match Utf8.decode (payload.take length.toInt.toNat) with
    | .error fault => .error (.corrupt (.badText fault))
    | .ok characters => .ok (.text (String.ofList characters))

def ColumnType.decode (type : ColumnType) (bytes : List UInt8) :
    Except StorageError (Value × List UInt8) :=
  match type with
  | .int =>
      match readWord bytes with
      | .error error => .error error
      | .ok (number, rest) => .ok (.int number, rest)
  | .text =>
      match readWord bytes with
      | .error error => .error error
      | .ok (length, rest) =>
          match readBytes textRoom rest with
          | .error error => .error error
          | .ok (payload, rest) =>
              match readText length payload with
              | .error error => .error error
              | .ok value => .ok (value, rest)

theorem ColumnType.type_of_decode {type : ColumnType} {bytes rest : List UInt8} {value : Value}
    (decoded : type.decode bytes = .ok (value, rest)) : value.type = type := by
  cases type with
  | int =>
      unfold ColumnType.decode at decoded
      cases read : readWord bytes with
      | error error => simp [read] at decoded
      | ok pair =>
          simp only [read, Except.ok.injEq, Prod.mk.injEq] at decoded
          rw [← decoded.1]
          rfl
  | text =>
      unfold ColumnType.decode at decoded
      cases read : readWord bytes with
      | error error => simp [read] at decoded
      | ok pair =>
          cases taken : readBytes textRoom pair.2 with
          | error error => simp [read, taken] at decoded
          | ok parts =>
              cases text : readText pair.1 parts.1 with
              | error error => simp [read, taken, text] at decoded
              | ok found =>
                  simp only [read, taken, text, Except.ok.injEq, Prod.mk.injEq] at decoded
                  unfold readText at text
                  split at text
                  · cases text
                  · split at text
                    · cases text
                    · rw [← decoded.1, ← Except.ok.inj text]
                      rfl

end RecordStore
