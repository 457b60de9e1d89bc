set_option autoImplicit false

/-! UTF-8. `decode` accepts exactly the shortest forms of Unicode scalar values and otherwise
returns position and length of the first bad sequence. `clip` keeps the longest prefix of whole
characters within a number of bytes. -/

namespace RecordStore.Utf8

/-- Where decoding stopped: the length of the longest valid beginning, and the length of the bad
sequence that follows it, absent when the bytes end inside a character. -/
structure Fault where
  validLength : Nat
  badLength : Option Nat
  deriving DecidableEq, Inhabited, Repr

def Fault.text (fault : Fault) : String :=
  match fault.badLength with
  | some length =>
      "invalid utf-8 sequence of " ++ toString length ++ " bytes from index " ++
        toString fault.validLength
  | none => "incomplete utf-8 byte sequence from index " ++ toString fault.validLength

def encode (characters : List Char) : List UInt8 := characters.flatMap String.utf8EncodeChar

/-- The longest beginning of whole characters that takes at most `room` bytes. -/
def clip : (room : Nat) → List Char → List Char
  | _, [] => []
  | room, character :: rest =>
      if character.utf8Size ≤ room then character :: clip (room - character.utf8Size) rest
      else []

def within (low high byte : UInt8) : Bool := low ≤ byte && byte ≤ high

def isContinuation (byte : UInt8) : Bool := within 0x80 0xBF byte

/-- Longer forms of short characters and the surrogates are ruled out by the second byte. -/
def secondOfThree (lead second : UInt8) : Bool :=
  if lead == 0xE0 then within 0xA0 0xBF second
  else if lead == 0xED then within 0x80 0x9F second
  else isContinuation second

def secondOfFour (lead second : UInt8) : Bool :=
  if lead == 0xF0 then within 0x90 0xBF second
  else if lead == 0xF4 then within 0x80 0x8F second
  else isContinuation second

def payload (byte : UInt8) : Nat := byte.toNat % 64

def joinTwo (lead second : UInt8) : Char := Char.ofNat (lead.toNat % 32 * 64 + payload second)

def joinThree (lead second third : UInt8) : Char :=
  Char.ofNat ((lead.toNat % 16 * 64 + payload second) * 64 + payload third)

def joinFour (lead second third fourth : UInt8) : Char :=
  Char.ofNat (((lead.toNat % 8 * 64 + payload second) * 64 + payload third) * 64 + payload fourth)

def decodeFrom (index : Nat) : List UInt8 → Except Fault (List Char)
  | [] => .ok []
  | lead :: rest =>
      if lead < 0x80 then (decodeFrom (index + 1) rest).map (Char.ofNat lead.toNat :: ·)
      else if within 0xC2 0xDF lead then
        match rest with
        | [] => .error ⟨index, none⟩
        | second :: rest =>
            if isContinuation second then
              (decodeFrom (index + 2) rest).map (joinTwo lead second :: ·)
            else .error ⟨index, some 1⟩
      else if within 0xE0 0xEF lead then
        match rest with
        | [] => .error ⟨index, none⟩
        | second :: rest =>
            if secondOfThree lead second then
              match rest with
              | [] => .error ⟨index, none⟩
              | third :: rest =>
                  if isContinuation third then
                    (decodeFrom (index + 3) rest).map (joinThree lead second third :: ·)
                  else .error ⟨index, some 2⟩
            else .error ⟨index, some 1⟩
      else if within 0xF0 0xF4 lead then
        match rest with
        | [] => .error ⟨index, none⟩
        | second :: rest =>
            if secondOfFour lead second then
              match rest with
              | [] => .error ⟨index, none⟩
              | third :: rest =>
                  if isContinuation third then
                    match rest with
                    | [] => .error ⟨index, none⟩
                    | fourth :: rest =>
                        if isContinuation fourth then
                          (decodeFrom (index + 4) rest).map
                            (joinFour lead second third fourth :: ·)
                        else .error ⟨index, some 3⟩
                  else .error ⟨index, some 2⟩
            else .error ⟨index, some 1⟩
      else .error ⟨index, some 1⟩

def decode (bytes : List UInt8) : Except Fault (List Char) := decodeFrom 0 bytes

end RecordStore.Utf8
