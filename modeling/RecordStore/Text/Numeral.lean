set_option autoImplicit false

/-! Parsing of decimal numerals: an optional sign and at least one ASCII digit. Digits are taken
from the left, so the first character that is no digit or exceeds the limit determines the fault. -/

namespace RecordStore.Numeral

inductive Fault where
  | empty
  | invalidDigit
  | tooLarge
  | tooSmall
  deriving DecidableEq, Inhabited, Repr

def Fault.text : Fault → String
  | .empty => "cannot parse integer from empty string"
  | .invalidDigit => "invalid digit found in string"
  | .tooLarge => "number too large to fit in target type"
  | .tooSmall => "number too small to fit in target type"

def digit? (character : Char) : Option Nat :=
  if '0' ≤ character ∧ character ≤ '9' then some (character.toNat - '0'.toNat) else none

/-- The number whose digits follow `total`, as long as it stays within `limit`. -/
def magnitude (limit : Nat) (beyond : Fault) : (total : Nat) → List Char → Except Fault Nat
  | total, [] => .ok total
  | total, character :: rest =>
      match digit? character with
      | none => .error .invalidDigit
      | some digit =>
          if total * 10 + digit ≤ limit then magnitude limit beyond (total * 10 + digit) rest
          else .error beyond

/-- A number from `-(limit + 1)` to `limit`, as signed words hold it. -/
def signed (limit : Nat) : List Char → Except Fault Int
  | [] => .error .empty
  | ['+'] => .error .invalidDigit
  | ['-'] => .error .invalidDigit
  | '+' :: digits => (magnitude limit .tooLarge 0 digits).map fun number => (number : Int)
  | '-' :: digits => (magnitude (limit + 1) .tooSmall 0 digits).map fun number => -(number : Int)
  | digits => (magnitude limit .tooLarge 0 digits).map fun number => (number : Int)

def unsigned (limit : Nat) : List Char → Except Fault Nat
  | [] => .error .empty
  | ['+'] => .error .invalidDigit
  | '+' :: digits => magnitude limit .tooLarge 0 digits
  | digits => magnitude limit .tooLarge 0 digits

def signed32 (text : List Char) : Except Fault Int32 :=
  (signed 2147483647 text).map Int32.ofInt

def unsigned64 (text : List Char) : Except Fault Nat := unsigned 18446744073709551615 text

/-- A number from zero to the largest 32-bit word, read as a signed 64-bit number first: a minus
sign is allowed before zero. -/
def unsigned32 (text : List Char) : Except Fault UInt32 :=
  match signed 9223372036854775807 text with
  | .error fault => .error fault
  | .ok number =>
      if number < 0 then .error .tooSmall
      else if 4294967295 < number then .error .tooLarge
      else .ok (UInt32.ofNat number.toNat)

end RecordStore.Numeral
