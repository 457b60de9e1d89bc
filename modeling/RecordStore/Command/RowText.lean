import RecordStore.Row
import RecordStore.Text.Blank
import RecordStore.Text.Numeral
import RecordStore.Text.Split

set_option autoImplicit false

/-! The text form of rows of integers: numbers separated by commas. `read` ignores blanks around a
number. -/

namespace RecordStore.RowText

inductive Fault where
  | badNumber (piece row : String) (cause : Numeral.Fault)
  | wrongCount (row : String) (found expected : Nat)
  | refused (error : StorageError)
  deriving DecidableEq, Inhabited, Repr

def Fault.trail : Fault → List String
  | .badNumber piece row cause =>
      ["Invalid int `" ++ piece ++ "` in row `" ++ row ++ "`", cause.text]
  | .wrongCount row found expected =>
      ["row `" ++ row ++ "` has " ++ toString found ++ " values, table has " ++
        toString expected ++ " columns"]
  | .refused error => error.trail

def numbers (row : String) : List (List Char) → Except Fault (List Int32)
  | [] => .ok []
  | piece :: pieces =>
      match Numeral.signed32 (Blank.trim piece) with
      | .error cause => .error (.badNumber (String.ofList piece) row cause)
      | .ok number => (numbers row pieces).map (number :: ·)

def read (schema : Schema) (row : String) : Except Fault Row :=
  match numbers row (Text.split ',' row.toList) with
  | .error fault => .error fault
  | .ok found =>
      if found.length = schema.count then
        match Row.make schema (found.map Value.int) with
        | .error error => .error (.refused error)
        | .ok row => .ok row
      else .error (.wrongCount row found.length schema.count)

def write (row : Row) : String := Text.join "," (row.values.map Value.display)

end RecordStore.RowText
