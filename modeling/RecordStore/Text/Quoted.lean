set_option autoImplicit false

/-! Texts between quotation marks. Quotation marks, backslashes and control characters are written
as escapes, all other characters as they are. -/

namespace RecordStore.Text

def escape (follower : String) : String := "\\" ++ follower

def fourHex (number : Nat) : String :=
  let digits := Nat.toDigits 16 number
  String.ofList (List.replicate (4 - digits.length) '0' ++ digits)

def quotedCharacter (character : Char) : String :=
  if character = '"' then escape "\""
  else if character = '\\' then escape "\\"
  else if character = '\n' then escape "n"
  else if character = '\r' then escape "r"
  else if character = '\t' then escape "t"
  else if character.toNat = 8 then escape "b"
  else if character.toNat = 12 then escape "f"
  else if character.toNat < 32 then escape "u" ++ fourHex character.toNat
  else character.toString

def quoted (text : String) : String :=
  "\"" ++ String.join (text.toList.map quotedCharacter) ++ "\""

end RecordStore.Text
