set_option autoImplicit false

/-! The content of a file as a list of pieces: written bytes, and gaps that read as zeros. A gap
takes constant space, so files may be much longer than what was written to them. -/

namespace RecordStore

inductive Piece where
  | gap (length : Nat)
  | bytes (content : List UInt8)
  deriving DecidableEq, Inhabited, Repr

namespace Piece

def toList : Piece → List UInt8
  | .gap length => List.replicate length 0
  | .bytes content => content

def length : Piece → Nat
  | .gap length => length
  | .bytes content => content.length

def take (count : Nat) : Piece → Piece
  | .gap length => .gap (min count length)
  | .bytes content => .bytes (content.take count)

def drop (count : Nat) : Piece → Piece
  | .gap length => .gap (length - count)
  | .bytes content => .bytes (content.drop count)

@[simp] theorem length_toList (piece : Piece) : piece.toList.length = piece.length := by
  cases piece <;> simp [toList, length]

@[simp] theorem toList_take (count : Nat) (piece : Piece) :
    (piece.take count).toList = piece.toList.take count := by
  cases piece <;> simp [toList, take]

@[simp] theorem toList_drop (count : Nat) (piece : Piece) :
    (piece.drop count).toList = piece.toList.drop count := by
  cases piece <;> simp [toList, drop]

end Piece

structure Content where
  pieces : List Piece
  deriving DecidableEq, Inhabited, Repr

/-- Bytes laid over others at an offset; a gap before them is filled with zeros. -/
def overlay (content : List UInt8) (offset : Nat) (bytes : List UInt8) : List UInt8 :=
  match bytes with
  | [] => content
  | _ =>
      content.take offset ++ List.replicate (offset - content.length) 0 ++ bytes ++
        content.drop (offset + bytes.length)

namespace Content

def empty : Content := ⟨[]⟩

def toList (content : Content) : List UInt8 := content.pieces.flatMap Piece.toList

def totalLength : List Piece → Nat
  | [] => 0
  | piece :: pieces => piece.length + totalLength pieces

def length (content : Content) : Nat := totalLength content.pieces

def takePieces : Nat → List Piece → List Piece
  | _, [] => []
  | count, piece :: pieces =>
      if count = 0 then []
      else if piece.length ≤ count then piece :: takePieces (count - piece.length) pieces
      else [piece.take count]

def dropPieces : Nat → List Piece → List Piece
  | _, [] => []
  | count, piece :: pieces =>
      if piece.length ≤ count then dropPieces (count - piece.length) pieces
      else piece.drop count :: pieces

def gapPieces (length : Nat) : List Piece := if length = 0 then [] else [.gap length]

def slice (content : Content) (offset count : Nat) : List UInt8 :=
  (takePieces count (dropPieces offset content.pieces)).flatMap Piece.toList

def write (content : Content) (offset : Nat) (bytes : List UInt8) : Content :=
  match bytes with
  | [] => content
  | _ =>
      ⟨takePieces offset content.pieces ++ gapPieces (offset - content.length) ++
        .bytes bytes :: dropPieces (offset + bytes.length) content.pieces⟩

def resize (content : Content) (length : Nat) : Content :=
  ⟨takePieces length content.pieces ++ gapPieces (length - content.length)⟩

def ofList (bytes : List UInt8) : Content := empty.write 0 bytes

theorem flatMap_takePieces (count : Nat) (pieces : List Piece) :
    (takePieces count pieces).flatMap Piece.toList =
      (pieces.flatMap Piece.toList).take count := by
  induction pieces generalizing count with
  | nil => simp [takePieces]
  | cons piece pieces ih =>
      unfold takePieces
      split
      · next none => simp [none]
      · split
        · next whole => simp [ih, List.take_append, List.take_of_length_le, whole]
        · next short =>
            have spare : count - piece.length = 0 := by omega
            simp [List.take_append, spare]

theorem flatMap_dropPieces (count : Nat) (pieces : List Piece) :
    (dropPieces count pieces).flatMap Piece.toList =
      (pieces.flatMap Piece.toList).drop count := by
  induction pieces generalizing count with
  | nil => simp [dropPieces]
  | cons piece pieces ih =>
      unfold dropPieces
      split
      · next whole => simp [ih, List.drop_append, List.drop_of_length_le, whole]
      · next short =>
          have spare : count - piece.length = 0 := by omega
          simp [List.drop_append, spare]

theorem flatMap_gapPieces (length : Nat) :
    (gapPieces length).flatMap Piece.toList = List.replicate length 0 := by
  unfold gapPieces
  split
  · next none => simp [none]
  · simp [Piece.toList]

theorem length_flatMap (pieces : List Piece) :
    (pieces.flatMap Piece.toList).length = totalLength pieces := by
  induction pieces with
  | nil => rfl
  | cons piece pieces ih =>
      rw [List.flatMap_cons, List.length_append, Piece.length_toList, ih]
      rfl

@[simp] theorem length_toList (content : Content) : content.toList.length = content.length :=
  length_flatMap content.pieces

@[simp] theorem toList_empty : empty.toList = [] := rfl

theorem slice_eq (content : Content) (offset count : Nat) :
    content.slice offset count = (content.toList.drop offset).take count := by
  simp [slice, toList, flatMap_takePieces, flatMap_dropPieces]

@[simp] theorem toList_write (content : Content) (offset : Nat) (bytes : List UInt8) :
    (content.write offset bytes).toList = overlay content.toList offset bytes := by
  cases bytes with
  | nil => rfl
  | cons byte bytes =>
      have total := length_flatMap content.pieces
      simp [write, length, overlay, toList, flatMap_takePieces, flatMap_dropPieces, flatMap_gapPieces,
        Piece.toList, total]

@[simp] theorem toList_resize (content : Content) (length : Nat) :
    (content.resize length).toList =
      content.toList.take length ++ List.replicate (length - content.length) 0 := by
  simp [resize, toList, flatMap_takePieces, flatMap_gapPieces]

@[simp] theorem toList_ofList (bytes : List UInt8) : (ofList bytes).toList = bytes := by
  cases bytes <;> simp [ofList, overlay]

end Content

end RecordStore
