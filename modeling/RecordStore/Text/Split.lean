set_option autoImplicit false

/-! Texts cut at every occurrence of a separator. There is always one piece more than there are
separators, so the empty text is one empty piece. -/

namespace RecordStore.Text

def split (separator : Char) : List Char → List (List Char)
  | [] => [[]]
  | character :: rest =>
      if character = separator then [] :: split separator rest
      else
        match split separator rest with
        | [] => [[character]]
        | piece :: pieces => (character :: piece) :: pieces

def join (separator : String) : List String → String
  | [] => ""
  | [piece] => piece
  | piece :: pieces => piece ++ separator ++ join separator pieces

end RecordStore.Text
