import RecordStore.Text.Quoted
import RecordStore.Text.Visible

set_option autoImplicit false

/-! Quoted texts with every character visible: quotation marks, backslashes and common controls are
escaped by a sign, other invisible characters by their code point. -/

namespace RecordStore.Text

def codePoint (character : Char) : String :=
  escape "u\x7b" ++ String.ofList (Nat.toDigits 16 character.toNat) ++ "\x7d"

def literalCharacter (character : Char) : String :=
  if character = '"' ∨ character = '\\' then escape character.toString
  else if character = '\n' then escape "n"
  else if character = '\r' then escape "r"
  else if character = '\t' then escape "t"
  else if character.toNat = 0 then escape "0"
  else if Visible.isVisible character then character.toString
  else codePoint character

def literal (text : String) : String :=
  "\"" ++ String.join (text.toList.map literalCharacter) ++ "\""

end RecordStore.Text
